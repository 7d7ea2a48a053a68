import Mathlib.Algebra.Order.Field.Rat
import Mathlib.Algebra.Order.Field.Power
import Mathlib.Data.Nat.Cast.Order.Field
import Mathlib.Data.Nat.Digits.Lemmas
import Mathlib.Tactic.Positivity
import Mathlib.Tactic.Ring

/-! Nonnegative decimals of Python's default context: results keep 28 digits, rounded to
the nearest, ties to even. -/

namespace TronForge.Library

structure Decimal where
  coefficient : Nat
  exponent : Int
  deriving DecidableEq, Repr

namespace Decimal

def value (number : Decimal) : ℚ := number.coefficient * 10 ^ number.exponent

/-- `getcontext().prec`. -/
def precision : Nat := 28

/-- Round the last digits away. -/
def roundHalfEven (coefficient excess : Nat) : Nat :=
  let unit := 10 ^ excess
  let quotient := coefficient / unit
  let rest := coefficient % unit
  if unit < 2 * rest ∨ unit = 2 * rest ∧ quotient % 2 = 1 then quotient + 1 else quotient

/-- Fit a result into the context; what rounds up to one digit more loses its last zero. -/
def fix (number : Decimal) : Decimal :=
  let excess := (Nat.digits 10 number.coefficient).length - precision
  if excess = 0 then number
  else
    let rounded := roundHalfEven number.coefficient excess
    if rounded = 10 ^ precision then ⟨10 ^ (precision - 1), number.exponent + excess + 1⟩
    else ⟨rounded, number.exponent + excess⟩

def times (left right : Decimal) : Decimal :=
  fix ⟨left.coefficient * right.coefficient, left.exponent + right.exponent⟩

def ofNat (number : Nat) : Decimal := ⟨number, 0⟩

/-- `int(number)`. -/
def truncate (number : Decimal) : Nat :=
  if 0 ≤ number.exponent then number.coefficient * 10 ^ number.exponent.toNat
  else number.coefficient / 10 ^ (-number.exponent).toNat

theorem truncate_le_value (number : Decimal) : (number.truncate : ℚ) ≤ number.value := by
  rw [truncate, value]
  split
  · rename_i whole
    obtain ⟨power, same⟩ := Int.eq_ofNat_of_zero_le whole
    rw [same, Int.toNat_natCast, zpow_natCast]
    push_cast
    exact le_rfl
  · rename_i fraction
    obtain ⟨power, same⟩ := Int.eq_ofNat_of_zero_le (show 0 ≤ -number.exponent by omega)
    have exponent : number.exponent = -(power : Int) := by omega
    rw [same, Int.toNat_natCast, exponent, zpow_neg, zpow_natCast, ← div_eq_mul_inv]
    have quotient := @Nat.cast_div_le ℚ _ _ _ number.coefficient (10 ^ power)
    push_cast at quotient
    exact quotient

/-- A whole number is kept. -/
theorem truncate_of_value {number : Decimal} {whole : Nat} (same : number.value = whole) : number.truncate = whole := by
  rw [value] at same
  rw [truncate]
  split
  · rename_i nonneg
    obtain ⟨power, exponent⟩ := Int.eq_ofNat_of_zero_le nonneg
    rw [exponent, zpow_natCast] at same
    rw [exponent, Int.toNat_natCast]
    exact_mod_cast same
  · rename_i fraction
    obtain ⟨power, exponent⟩ := Int.eq_ofNat_of_zero_le (show 0 ≤ -number.exponent by omega)
    have negative : number.exponent = -(power : Int) := by omega
    rw [negative, zpow_neg, zpow_natCast, ← div_eq_mul_inv, div_eq_iff (by positivity)] at same
    have scaled : number.coefficient = whole * 10 ^ power := by exact_mod_cast same
    rw [exponent, Int.toNat_natCast, scaled, Nat.mul_div_cancel _ (by positivity)]

/-- Only zeros are lost. -/
theorem roundHalfEven_exact (kept excess : Nat) : roundHalfEven (kept * 10 ^ excess) excess = kept := by
  have unit : 0 < 10 ^ excess := by positivity
  simp only [roundHalfEven, Nat.mul_div_cancel kept unit, Nat.mul_mod_left]
  rw [if_neg]
  rintro (less | ⟨same, -⟩)
  · exact Nat.not_lt_zero _ less
  · exact absurd same unit.ne'

theorem value_shift (kept excess : Nat) (exponent : Int) :
    value ⟨kept, exponent + excess⟩ = value ⟨kept * 10 ^ excess, exponent⟩ := by
  have ten : (10 : ℚ) ≠ 0 := by norm_num
  simp only [value]
  rw [zpow_add₀ ten, zpow_natCast]
  push_cast
  ring

/-- A result whose digits fit, but for zeros at its end, is exact. -/
theorem fix_value {number : Decimal} {significant zeros : Nat}
    (split : number.coefficient = significant * 10 ^ zeros) (fits : significant < 10 ^ precision) :
    number.fix.value = number.value := by
  obtain ⟨coefficient, exponent⟩ := number
  simp only at split
  subst split
  simp only [fix]
  generalize found : (Nat.digits 10 (significant * 10 ^ zeros)).length - precision = excess
  by_cases none_ : excess = 0
  · rw [if_pos none_]
  · rw [if_neg none_]
    have short : (Nat.digits 10 (significant * 10 ^ zeros)).length ≤ precision + zeros := by
      rw [Nat.digits_length_le_iff (by norm_num), pow_add]
      exact Nat.mul_lt_mul_of_pos_right fits (by positivity)
    obtain ⟨less, rfl⟩ : ∃ less, zeros = less + excess := ⟨zeros - excess, by omega⟩
    have same : significant * 10 ^ (less + excess) = significant * 10 ^ less * 10 ^ excess := by
      rw [pow_add, mul_assoc]
    rw [same, roundHalfEven_exact]
    split
    · rename_i carried
      have shifted := value_shift (10 ^ (precision - 1)) 1 (exponent + excess)
      have again : 10 ^ (precision - 1) * 10 ^ 1 = significant * 10 ^ less := by rw [carried, ← pow_add]; rfl
      rw [again] at shifted
      exact shifted.trans (value_shift _ _ _)
    · exact value_shift _ _ _

/-- Times a power of ten is exact for a number of the context. -/
theorem times_value {number : Decimal} (fits : number.coefficient < 10 ^ precision) (zeros : Nat) :
    (number.times (ofNat (10 ^ zeros))).value = number.value * 10 ^ zeros := by
  rw [times, @fix_value _ number.coefficient zeros rfl fits]
  simp only [value, ofNat, add_zero]
  push_cast
  ring

example : truncate (times ⟨12345, -1⟩ (ofNat 1000000)) = 1234500000 := by decide

end Decimal

end TronForge.Library
