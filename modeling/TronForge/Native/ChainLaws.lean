import TronForge.Library.Power
import TronForge.Native.ChainReduce
import TronForge.Native.Secp256k1

/-! The four-limb field represents the residues: its routines take canonical values
to canonical values. -/

namespace TronForge.Native

namespace CudaChain

open Library

theorem wordsValue_append_carry (low : Field) (carry : UInt64) :
    wordsValue (low.limbs ++ [carry, 0, 0, 0]) = low.value + 2 ^ 256 * carry.toNat := by
  have power : (2 ^ 64) ^ 4 = 2 ^ 256 := by norm_num
  rw [wordsValue, List.map_append, Nat.ofDigits_append, List.length_map, low.size, power]
  simp [Field.value, wordsValue, Nat.ofDigits_cons]

theorem fieldAdd_value (left right : Field) :
    (fieldAdd left right).value = (left.value + right.value) % fieldPrime := by
  have size : ((addRaw left right).1.limbs ++ [(addRaw left right).2, 0, 0, 0]).length = 8 := by
    rw [List.length_append, (addRaw left right).1.size]
    rfl
  rw [fieldAdd, reduce_value size, wordsValue_append_carry, (addRaw_settles left right).1]

theorem fieldMultiply_value (left right : Field) :
    (fieldMultiply left right).value = left.value * right.value % fieldPrime := by
  obtain ⟨product, size⟩ := multiplyFull_value left right
  rw [fieldMultiply, reduce_value size, product]

theorem fieldSubtract_value {left right : Field} (leftSmall : left.value < fieldPrime)
    (rightSmall : right.value < fieldPrime) :
    (fieldSubtract left right).value = (left.value + (fieldPrime - right.value)) % fieldPrime := by
  obtain ⟨difference, small⟩ := subtractRaw_settles left right
  have outputBound := (subtractRaw left right).1.value_lt
  cases borrowed : subtractRaw left right with
  | mk output borrow =>
    simp only [borrowed] at difference small outputBound
    simp only [fieldSubtract, borrowed]
    split
    · rename_i some
      have one : borrow.toNat ≠ 0 := fun none => some (UInt64.toNat_inj.mp none)
      obtain ⟨sum, carrySmall⟩ := addRaw_settles output prime
      have sumBound := (addRaw output prime).1.value_lt
      rw [prime_value] at sum
      have value : (addRaw output prime).1.value = left.value + (fieldPrime - right.value) := by
        unfold fieldPrime at *
        omega
      have below : left.value + (fieldPrime - right.value) < fieldPrime := by omega
      rw [value, Nat.mod_eq_of_lt below]
    · rename_i none
      have zero : borrow.toNat = 0 := by rw [not_not.mp none, UInt64.toNat_zero]
      have value : left.value + (fieldPrime - right.value) = output.value + fieldPrime := by omega
      rw [value, Nat.add_mod_right, Nat.mod_eq_of_lt (by omega)]

theorem fieldIsZero_iff (value : Field) : fieldIsZero value = true ↔ value.value = 0 := by
  rw [fieldIsZero, beq_iff_eq, Limbs.foldl_join_eq_zero (fun _ _ => UInt64.or_eq_zero_iff), Field.value,
    wordsValue, Limbs.ofDigits_eq_zero (by omega)]
  simp [← UInt64.toNat_inj]

theorem Field.value_inj (left right : Field) : left.value = right.value ↔ left.limbs = right.limbs :=
  Limbs.ofDigits_inj (by omega) (fun _ _ => UInt64.toNat_inj.mp) UInt64.toNat_lt
    (left.size.trans right.size.symm)

theorem fieldEqual_iff (left right : Field) : fieldEqual left right = true ↔ left.value = right.value := by
  rw [fieldEqual, beq_iff_eq, Limbs.foldl_join_eq_zero (fun _ _ => UInt64.or_eq_zero_iff),
    Limbs.zipWith_differ_eq_zero (fun _ _ => UInt64.xor_eq_zero_iff) (left.size.trans right.size.symm),
    Field.value_inj]
  simp

theorem fieldFromSmall_value (small : UInt64) : (fieldFromSmall small).value = small.toNat := by
  simp [fieldFromSmall, Field.value, wordsValue, Nat.ofDigits_cons]

theorem zero_value : Field.zero.value = 0 := by
  simp [Field.zero, Field.value, wordsValue, Nat.ofDigits_cons]

theorem fieldNegate_value {value : Field} (small : value.value < fieldPrime) :
    (fieldNegate value).value = (fieldPrime - value.value) % fieldPrime := by
  unfold fieldNegate
  split
  · rename_i zero
    rw [(fieldIsZero_iff value).mp zero, zero_value, Nat.sub_zero, Nat.mod_self]
  · rename_i some
    rw [fieldIsZero_iff] at some
    obtain ⟨difference, borrow⟩ := subtractRaw_settles prime value
    have bound := (subtractRaw prime value).1.value_lt
    rw [prime_value] at difference
    rw [Nat.mod_eq_of_lt (by omega)]
    omega

/-- The routines on limbs compute the operations modulo the prime: the product of
any limbs in full, the residue of any eight words, and canonical results. -/
theorem field_routines_exact (left right : Field) (input : List UInt64) (size : input.length = 8) :
    (wordsValue (multiplyFull left right) = left.value * right.value ∧
      (multiplyFull left right).length = 8) ∧
    ((reduce input).value ≡ wordsValue input [MOD fieldPrime] ∧ (reduce input).value < fieldPrime) ∧
    (fieldMultiply left right).value = left.value * right.value % fieldPrime ∧
    (fieldAdd left right).value = (left.value + right.value) % fieldPrime ∧
    (left.value < fieldPrime → right.value < fieldPrime →
      ((fieldSubtract left right).value : Int) = ((left.value : Int) - right.value) % fieldPrime) ∧
    (left.value < fieldPrime → ((fieldNegate left).value : Int) = -(left.value : Int) % fieldPrime) := by
  have positive : 0 < fieldPrime := by norm_num [fieldPrime]
  have residue := reduce_value size
  refine ⟨multiplyFull_value left right, ⟨?_, ?_⟩, fieldMultiply_value left right,
    fieldAdd_value left right, ?_, ?_⟩
  · rw [residue]
    exact Nat.mod_modEq _ _
  · rw [residue]
    exact Nat.mod_lt _ positive
  · intro leftSmall rightSmall
    rw [fieldSubtract_value leftSmall rightSmall]
    exact residue_of_difference left.value rightSmall
  · intro small
    have negated := residue_of_difference 0 small
    rw [Nat.zero_add, Int.natCast_zero, zero_sub] at negated
    rw [fieldNegate_value small]
    exact negated

theorem field_routines_exact_borrow :
    (reduce (List.replicate 8 0xffffffffffffffff)).value < fieldPrime ∧
    ((fieldSubtract (fieldFromSmall 2) (fieldFromSmall 3)).value : Int) = (2 - 3) % fieldPrime ∧
    ((fieldNegate (fieldFromSmall 2)).value : Int) = -2 % fieldPrime := by
  have two : (fieldFromSmall 2).value = 2 := fieldFromSmall_value 2
  have three : (fieldFromSmall 3).value = 3 := fieldFromSmall_value 3
  have small : (fieldFromSmall 2).value < fieldPrime := by rw [two]; norm_num [fieldPrime]
  have other : (fieldFromSmall 3).value < fieldPrime := by rw [three]; norm_num [fieldPrime]
  obtain ⟨-, ⟨-, below⟩, -, -, difference, opposite⟩ :=
    field_routines_exact (fieldFromSmall 2) (fieldFromSmall 3) (List.replicate 8 0xffffffffffffffff) rfl
  refine ⟨below, ?_, ?_⟩
  · rw [difference small other, two, three]
    rfl
  · rw [opposite small, two]
    rfl

/-- The bits of the exponent. -/
theorem exponentBit_eq : ∀ bit < 256, exponentBit bit = (fieldPrime - 2).testBit bit := by
  decide +kernel

/-- A canonical element and its residue. -/
def Residual (element : Field) (a : Residue) : Prop := element.value = a.val

theorem residual_multiply (left right : Field) (a b : Residue) (first : Residual left a)
    (second : Residual right b) : Residual (fieldMultiply left right) (a * b) := by
  rw [Residual, fieldMultiply_value, first, second, ZMod.val_mul]

theorem inverseStep_eq : inverseStep = Power.riseStep fieldMultiply exponentBit := rfl

theorem residual_inverse {element : Field} {a : Residue} (same : Residual element a) :
    Residual (fieldInverse element) a⁻¹ := by
  have unit : Residual (fieldFromSmall 1) 1 := by
    have one : ((1 : Nat) : Residue).val = 1 := ZMod.val_natCast_of_lt (small_lt_fieldPrime (by omega))
    rw [Nat.cast_one] at one
    rw [Residual, fieldFromSmall_value, one]
    rfl
  obtain ⟨power, -⟩ := Power.rise_power residual_multiply unit same 256 exponentBit_eq
  have whole : (fieldPrime - 2) % 2 ^ 256 = fieldPrime - 2 :=
    Nat.mod_eq_of_lt (by norm_num [fieldPrime])
  rw [whole, pow_prime_sub_two, ← inverseStep_eq] at power
  rw [fieldInverse]
  exact power

instance : FieldRepresentation Field where
  value := Field.value
  zero := zero_value
  fromSmall small bound := by
    change (fieldFromSmall (UInt64.ofNat small)).value = small
    rw [fieldFromSmall_value, UInt64.toNat_ofNat_of_lt' (bound.trans (by decide))]
  isZero := fieldIsZero_iff
  equal := fieldEqual_iff
  negate element a same := by
    change (fieldNegate element).value = (-a).val
    rw [fieldNegate_value (same ▸ residue_val_lt a), same, ZMod.neg_val']
  subtract left right a b first second := by
    change (fieldSubtract left right).value = (a - b).val
    rw [fieldSubtract_value (first ▸ residue_val_lt a) (second ▸ residue_val_lt b), first, second,
      sub_eq_add_neg, ZMod.val_add, ZMod.neg_val', Nat.add_mod_mod]
  multiply := residual_multiply
  inverse element a same := residual_inverse same

end CudaChain

end TronForge.Native
