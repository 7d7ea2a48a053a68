import Mathlib.Algebra.Group.Basic
import Mathlib.Data.Nat.Bits
import Mathlib.Tactic.Ring

/-! Powers by squaring, over a representation that a multiplication respects: from
the lowest bit of the exponent up, or from the highest down. -/

namespace TronForge.Library.Power

section
variable {F K : Type} [Monoid K]

/-- Multiply the result by the base under a set bit, and square the base. -/
def riseStep (multiply : F → F → F) (bit : Nat → Bool) (state : F × F) (index : Nat) : F × F :=
  (if bit index then multiply state.1 state.2 else state.1, multiply state.2 state.2)

/-- Square the result, and multiply it by the base under a set bit. -/
def fallStep (multiply : F → F → F) (bit : Nat → Bool) (base : F) (result : F) (index : Nat) : F :=
  if bit index then multiply (multiply result result) base else multiply result result

variable {holds : F → K → Prop} {multiply : F → F → F} {bit : Nat → Bool} {exponent : Nat}

theorem pow_mod_succ (a : K) (exponent count : Nat) :
    a ^ (exponent % 2 ^ (count + 1)) =
      a ^ (exponent % 2 ^ count) * (if exponent.testBit count then a ^ 2 ^ count else 1) := by
  rw [pow_succ 2, Nat.mod_mul, pow_add, pow_mul, Nat.testBit_eq_decide_div_mod_eq]
  rcases Nat.mod_two_eq_zero_or_one (exponent / 2 ^ count) with even | odd
  · simp [even]
  · simp [odd]

theorem rise_power (product : ∀ x y a b, holds x a → holds y b → holds (multiply x y) (a * b))
    {one base : F} {a : K} (unit : holds one 1) (start : holds base a) (count : Nat)
    (bits : ∀ index < count, bit index = exponent.testBit index) :
    holds ((List.range count).foldl (riseStep multiply bit) (one, base)).1 (a ^ (exponent % 2 ^ count)) ∧
    holds ((List.range count).foldl (riseStep multiply bit) (one, base)).2 (a ^ 2 ^ count) := by
  induction count with
  | zero => simpa [Nat.mod_one] using ⟨unit, start⟩
  | succ count hypothesis =>
    obtain ⟨result, squared⟩ := hypothesis (fun index below => bits index (by omega))
    rw [List.range_succ, List.foldl_append, List.foldl_cons, List.foldl_nil]
    constructor
    · rw [pow_mod_succ, riseStep, bits count (by omega)]
      cases exponent.testBit count with
      | true => exact product _ _ _ _ result squared
      | false => simpa using result
    · rw [pow_succ 2, pow_mul, pow_two]
      exact product _ _ _ _ squared squared

theorem div_pow_step (exponent count : Nat) :
    exponent / 2 ^ count = exponent / 2 ^ (count + 1) + exponent / 2 ^ (count + 1) +
      (exponent.testBit count).toNat := by
  have half : exponent / 2 ^ (count + 1) = exponent / 2 ^ count / 2 := by
    rw [pow_succ, Nat.div_div_eq_div_mul]
  rw [half, Nat.testBit_eq_decide_div_mod_eq]
  rcases Nat.mod_two_eq_zero_or_one (exponent / 2 ^ count) with even | odd
  · simp only [even]
    simp
    omega
  · simp only [odd]
    simp
    omega

theorem fall_power (product : ∀ x y a b, holds x a → holds y b → holds (multiply x y) (a * b))
    {base : F} {a : K} (start : holds base a) (count : Nat)
    (bits : ∀ index < count, bit index = exponent.testBit index) {one : F}
    (high : holds one (a ^ (exponent / 2 ^ count))) :
    holds ((List.range count).reverse.foldl (fallStep multiply bit base) one) (a ^ exponent) := by
  induction count generalizing one with
  | zero => simpa using high
  | succ count hypothesis =>
    rw [List.range_succ, List.reverse_append, List.reverse_singleton, List.singleton_append,
      List.foldl_cons]
    apply hypothesis (fun index below => bits index (by omega))
    rw [fallStep, bits count (by omega), div_pow_step, pow_add, pow_add]
    have squared := product _ _ _ _ high high
    cases exponent.testBit count with
    | true => simpa using product _ _ _ _ squared start
    | false => simpa using squared

end

end TronForge.Library.Power
