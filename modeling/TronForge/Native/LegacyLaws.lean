import TronForge.Library.Power
import TronForge.Native.LegacyReduce
import TronForge.Native.Secp256k1

/-! The eight-limb field represents the residues. -/

namespace TronForge.Native.CudaSecp

open Library

theorem le_limit_three_of_product : 2 ^ 256 * 2 ^ 256 ≤ limit 3 := by
  have low : (2 ^ 32) ^ 8 = 2 ^ 256 := by rw [← pow_mul]
  rw [← low, ← pow_add, limit]
  exact Nat.pow_le_pow_right (by omega) (by omega)

theorem wordsValue_toUInt64 (limbs : List UInt32) : wordsValue (limbs.map UInt32.toUInt64) = limbsValue limbs := by
  rw [wordsValue, limbsValue, List.map_map]
  rfl

theorem roomy_append_zeroes {words : List UInt64} (count : Nat) (size : words.length + count = 18)
    (room : ∀ word ∈ words, word.toNat < 2 ^ 60) : Roomy (words ++ List.replicate count 0) := by
  refine ⟨by simp [size], ?_⟩
  intro word member
  rcases List.mem_append.mp member with inside | zero
  · exact room word inside
  · rw [(List.mem_replicate.mp zero).2]
    decide

/-- What `field_multiply` hands to the reduction. -/
def productAccumulator (left right : Field) : List UInt64 :=
  (productLimbs left right).map UInt32.toUInt64 ++ [0, 0]

theorem productAccumulator_settles (left right : Field) : Roomy (productAccumulator left right) ∧
    wordsValue (productAccumulator left right) = left.value * right.value ∧
    wordsValue (productAccumulator left right) < limit 3 := by
  obtain ⟨product, size⟩ := productLimbs_value left right
  have value : wordsValue (productAccumulator left right) = left.value * right.value := by
    have zeroes : [0, 0] = List.replicate 2 (0 : UInt64) := rfl
    rw [productAccumulator, zeroes, wordsValue_append_zeroes, wordsValue_toUInt64, product]
  refine ⟨roomy_append_zeroes 2 (by rw [List.length_map, size]) ?_, value, ?_⟩
  · intro word member
    obtain ⟨limb, -, rfl⟩ := List.mem_map.mp member
    exact lt_trans limb.toNat_lt (by omega)
  · rw [value]
    exact (Nat.mul_lt_mul'' left.value_lt right.value_lt).trans_le le_limit_three_of_product

theorem fieldMultiply_value (left right : Field) :
    (fieldMultiply left right).value = left.value * right.value % fieldPrime := by
  obtain ⟨roomy, value, fits⟩ := productAccumulator_settles left right
  rw [← value]
  exact reduceAccumulator_value roomy fits

theorem wordsValue_sums {left right : List UInt32} (same : left.length = right.length) :
    wordsValue (left.zipWith (fun first second => first.toUInt64 + second.toUInt64) right) =
      limbsValue left + limbsValue right := by
  induction left generalizing right with
  | nil =>
    obtain rfl := List.length_eq_zero_iff.mp same.symm
    rfl
  | cons first rest hypothesis =>
    cases right with
    | nil => cases same
    | cons second others =>
      have further := hypothesis (Nat.succ.inj same)
      rw [List.zipWith_cons_cons, wordsValue_cons, further, toNat_toUInt64_add]
      simp only [limbsValue, List.map_cons, Nat.ofDigits_cons]
      omega

/-- What `field_add` hands to the reduction. -/
def sumAccumulator (left right : Field) : List UInt64 :=
  left.limbs.zipWith (fun first second => first.toUInt64 + second.toUInt64) right.limbs ++
    List.replicate 10 0

theorem sumAccumulator_settles (left right : Field) : Roomy (sumAccumulator left right) ∧
    wordsValue (sumAccumulator left right) = left.value + right.value ∧
    wordsValue (sumAccumulator left right) < limit 3 := by
  have value : wordsValue (sumAccumulator left right) = left.value + right.value := by
    rw [sumAccumulator, wordsValue_append_zeroes, wordsValue_sums (left.size.trans right.size.symm)]
    rfl
  refine ⟨roomy_append_zeroes 10 (by simp [left.size, right.size]) ?_, value, ?_⟩
  · intro word member
    rw [← List.map_uncurry_zip_eq_zipWith] at member
    obtain ⟨pair, -, rfl⟩ := List.mem_map.mp member
    have first := pair.1.toNat_lt
    have second := pair.2.toNat_lt
    rw [Function.uncurry, toNat_toUInt64_add]
    omega
  · have first := left.value_lt
    have second := right.value_lt
    have wide := le_limit_three
    omega

theorem fieldAdd_value (left right : Field) :
    (fieldAdd left right).value = (left.value + right.value) % fieldPrime := by
  obtain ⟨roomy, value, fits⟩ := sumAccumulator_settles left right
  rw [← value]
  exact reduceAccumulator_value roomy fits

theorem fieldIsZero_iff (value : Field) : fieldIsZero value = true ↔ value.value = 0 := by
  rw [fieldIsZero, beq_iff_eq, Limbs.foldl_join_eq_zero (fun _ _ => UInt32.or_eq_zero_iff), Field.value,
    limbsValue, Limbs.ofDigits_eq_zero (by omega)]
  simp [← UInt32.toNat_inj]

theorem Field.value_inj (left right : Field) : left.value = right.value ↔ left.limbs = right.limbs :=
  Limbs.ofDigits_inj (by omega) (fun _ _ => UInt32.toNat_inj.mp) UInt32.toNat_lt
    (left.size.trans right.size.symm)

theorem fieldEqual_iff (left right : Field) : fieldEqual left right = true ↔ left.value = right.value := by
  rw [fieldEqual, beq_iff_eq, Limbs.foldl_join_eq_zero (fun _ _ => UInt32.or_eq_zero_iff),
    Limbs.zipWith_differ_eq_zero (fun _ _ => UInt32.xor_eq_zero_iff) (left.size.trans right.size.symm),
    Field.value_inj]
  simp

theorem zero_value : Field.zero.value = 0 := by decide

theorem fieldFromSmall_value (small : UInt32) : (fieldFromSmall small).value = small.toNat := by
  simp [fieldFromSmall, Field.value, limbsValue, List.replicate, Nat.ofDigits_cons]

theorem fieldNegate_value {value : Field} (small : value.value < fieldPrime) :
    (fieldNegate value).value = (fieldPrime - value.value) % fieldPrime := by
  unfold fieldNegate
  split
  · rename_i zero
    rw [(fieldIsZero_iff value).mp zero, zero_value, Nat.sub_zero, Nat.mod_self]
  · rename_i some
    rw [fieldIsZero_iff] at some
    obtain ⟨borrow, borrowSmall, difference⟩ := fieldSubtractRaw_settles prime value
    have bound := (fieldSubtractRaw prime value).value_lt
    rw [prime_value] at difference
    rw [Nat.mod_eq_of_lt (by omega)]
    unfold fieldPrime at *
    omega

theorem fieldSubtract_value {left right : Field} (rightSmall : right.value < fieldPrime) :
    (fieldSubtract left right).value = (left.value + (fieldPrime - right.value)) % fieldPrime := by
  rw [fieldSubtract, fieldAdd_value, fieldNegate_value rightSmall, Nat.add_mod_mod]

theorem exponentBit_eq : ∀ bit < 256, exponentBit bit = (fieldPrime - 2).testBit bit := by
  decide +kernel

/-- A canonical element and its residue. -/
def Residual (element : Field) (a : Residue) : Prop := element.value = a.val

theorem residual_multiply (left right : Field) (a b : Residue) (first : Residual left a)
    (second : Residual right b) : Residual (fieldMultiply left right) (a * b) := by
  rw [Residual, fieldMultiply_value, first, second, ZMod.val_mul]

theorem inverseStep_eq (value : Field) :
    inverseStep value = Power.fallStep fieldMultiply exponentBit value := rfl

theorem residual_inverse {element : Field} {a : Residue} (same : Residual element a) :
    Residual (fieldInverse element) a⁻¹ := by
  have whole : (fieldPrime - 2) / 2 ^ 256 = 0 := Nat.div_eq_of_lt (by norm_num [fieldPrime])
  have unit : Residual (fieldFromSmall 1) (a ^ ((fieldPrime - 2) / 2 ^ 256)) := by
    have one : ((1 : Nat) : Residue).val = 1 := ZMod.val_natCast_of_lt (small_lt_fieldPrime (by omega))
    rw [Nat.cast_one] at one
    rw [whole, pow_zero, Residual, fieldFromSmall_value, one]
    rfl
  have power := Power.fall_power residual_multiply same 256 exponentBit_eq unit
  rw [pow_prime_sub_two, ← inverseStep_eq] at power
  rw [fieldInverse]
  exact power

instance : FieldRepresentation Field where
  value := Field.value
  zero := zero_value
  fromSmall small bound := by
    change (fieldFromSmall (UInt32.ofNat small)).value = small
    rw [fieldFromSmall_value, UInt32.toNat_ofNat_of_lt' bound]
  isZero := fieldIsZero_iff
  equal := fieldEqual_iff
  negate element a same := by
    change (fieldNegate element).value = (-a).val
    rw [fieldNegate_value (same ▸ residue_val_lt a), same, ZMod.neg_val']
  subtract left right a b first second := by
    change (fieldSubtract left right).value = (a - b).val
    rw [fieldSubtract_value (second ▸ residue_val_lt b), first, second, sub_eq_add_neg, ZMod.val_add,
      ZMod.neg_val', Nat.add_mod_mod]
  multiply := residual_multiply
  inverse element a same := residual_inverse same

end TronForge.Native.CudaSecp
