import Mathlib.Data.List.TakeWhile
import TronForge.Library.Digits

/-! Conversion of digit strings between radices. The value is converted without
leading zeros, and the leading zeros are carried over one by one, so converting
back gives the string again. -/

namespace TronForge.Library.Digits

variable {base source target : Nat} {digits : List Nat}

/-- The digits of a number, without leading zeros. -/
def minimal (base number : Nat) : List Nat := (Nat.digits base number).reverse

theorem minimal_lt (large : 1 < base) (number : Nat) : ∀ digit ∈ minimal base number, digit < base := by
  intro digit member
  exact Nat.digits_lt_base large (List.mem_reverse.mp member)

@[simp] theorem value_minimal (base number : Nat) : value base (minimal base number) = number := by
  rw [minimal, value_eq_ofDigits, List.reverse_reverse, Nat.ofDigits_digits]

/-- The number of leading zeros. -/
def zeros (digits : List Nat) : Nat := (digits.takeWhile (· = 0)).length

/-- A digit string is its leading zeros and the rest. -/
theorem replicate_zeros_append (digits : List Nat) :
    List.replicate (zeros digits) 0 ++ digits.dropWhile (· = 0) = digits := by
  have front : digits.takeWhile (· = 0) = List.replicate (zeros digits) 0 := by
    rw [List.eq_replicate_iff]
    exact ⟨rfl, fun digit member => by simpa using List.mem_takeWhile_imp member⟩
  rw [← front]
  exact List.takeWhile_append_dropWhile

theorem value_dropWhile_zero (digits : List Nat) :
    value base (digits.dropWhile (· = 0)) = value base digits := by
  conv_rhs => rw [← replicate_zeros_append digits]
  rw [value_append, value_replicate_zero, Nat.zero_mul, Nat.zero_add]

/-- The digits of the value are the digits without their leading zeros. -/
theorem minimal_value (large : 1 < base) (bounded : ∀ digit ∈ digits, digit < base) :
    minimal base (value base digits) = digits.dropWhile (· = 0) := by
  rw [← value_dropWhile_zero, minimal, value_eq_ofDigits, Nat.digits_ofDigits base large, List.reverse_reverse]
  · intro digit member
    exact bounded digit ((List.dropWhile_sublist _).mem (List.mem_reverse.mp member))
  · intro nonempty
    rw [List.getLast_reverse]
    have first := List.head_dropWhile_not (fun digit => decide (digit = 0)) (by simpa using nonempty)
    simpa using first

theorem zeros_minimal (large : 1 < base) (number : Nat) : zeros (minimal base number) = 0 := by
  have same := minimal_value large (minimal_lt large number)
  rw [value_minimal] at same
  have split := congrArg List.length (replicate_zeros_append (minimal base number))
  rw [List.length_append, List.length_replicate, ← same] at split
  exact Nat.right_eq_add.mp split.symm

theorem zeros_replicate_append (count : Nat) (rest : List Nat) :
    zeros (List.replicate count 0 ++ rest) = count + zeros rest := by
  unfold zeros
  induction count with
  | zero => simp
  | succ count ih =>
    simp only [List.replicate_succ, List.cons_append, List.takeWhile_cons, decide_true, ↓reduceIte,
      List.length_cons, ih]
    omega

/-- Radix conversion that keeps the leading zeros. -/
def convert (source target : Nat) (digits : List Nat) : List Nat :=
  List.replicate (zeros digits) 0 ++ minimal target (value source digits)

theorem convert_lt (large : 1 < target) (digits : List Nat) :
    ∀ digit ∈ convert source target digits, digit < target := by
  intro digit member
  rcases List.mem_append.mp member with front | back
  · rw [List.eq_of_mem_replicate front]
    omega
  · exact minimal_lt large _ digit back

theorem value_convert (source target : Nat) (digits : List Nat) :
    value target (convert source target digits) = value source digits := by
  rw [convert, value_append, value_replicate_zero, Nat.zero_mul, Nat.zero_add, value_minimal]

theorem zeros_convert (large : 1 < target) (digits : List Nat) :
    zeros (convert source target digits) = zeros digits := by
  rw [convert, zeros_replicate_append, zeros_minimal large, Nat.add_zero]

/-- Conversion to another radix and back is the identity. -/
theorem convert_convert (large : 1 < source) (largeTarget : 1 < target)
    (bounded : ∀ digit ∈ digits, digit < source) :
    convert target source (convert source target digits) = digits := by
  rw [convert, zeros_convert largeTarget, value_convert, minimal_value large bounded]
  exact replicate_zeros_append digits

/-- A number written with as many digits as it needs. -/
theorem fixed_minimal (large : 1 < base) (number : Nat) :
    fixed base (minimal base number).length number = minimal base number := by
  have same := fixed_value (minimal_lt large number) (by omega)
  rwa [value_minimal] at same

end TronForge.Library.Digits
