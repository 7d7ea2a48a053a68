import TronForge.Native.ChainLaws
import TronForge.Native.GeneratorPoint
import TronForge.Native.Kernels
import TronForge.Native.LegacyLaws

/-! The points the kernels start from: multiples of the generator, their conversion
between the two representations, and their public keys. -/

namespace TronForge.Native

/-- The number of big-endian bytes that are made limb by limb. -/
theorem bytesValue_limbs {Word : Type} (bytes : Word → List UInt8) (word : Word → Nat) (size : Nat)
    (length : ∀ limb, (bytes limb).length = size) (value : ∀ limb, bytesValue (bytes limb) = word limb)
    (limbs : List Word) :
    bytesValue (limbs.reverse.flatMap bytes) = Nat.ofDigits (256 ^ size) (limbs.map word) ∧
    (limbs.reverse.flatMap bytes).length = limbs.length * size := by
  induction limbs with
  | nil => exact ⟨rfl, by simp⟩
  | cons limb rest hypothesis =>
    obtain ⟨total, count⟩ := hypothesis
    rw [List.reverse_cons, List.flatMap_append, List.flatMap_singleton]
    constructor
    · rw [bytesValue_append, total, value, length, List.map_cons, Nat.ofDigits_cons]
      ring
    · rw [List.length_append, count, length, List.length_cons]
      ring

namespace CudaSecp

theorem bytesValue_limbBytes (limb : UInt32) : bytesValue (limbBytes limb) = limb.toNat := by
  have bound := limb.toNat_lt
  simp only [limbBytes, bytesValue_cons, UInt32.toNat_toUInt8, UInt32.toNat_shiftRight, List.length_cons,
    List.length_nil]
  have nothing : bytesValue [] = 0 := rfl
  simp [Nat.shiftRight_eq_div_pow, nothing]
  omega

theorem fieldToBigEndian_bytes (value : Field) :
    bytesValue (fieldToBigEndian value) = value.value ∧ (fieldToBigEndian value).length = 32 := by
  obtain ⟨total, length⟩ := bytesValue_limbs limbBytes UInt32.toNat 4 (fun _ => rfl) bytesValue_limbBytes value.limbs
  rw [value.size] at length
  exact ⟨total, length⟩

end CudaSecp

namespace CudaChain

theorem bytesValue_limbBytes (limb : UInt64) : bytesValue (limbBytes limb) = limb.toNat := by
  have bound := limb.toNat_lt
  have nothing : bytesValue [] = 0 := rfl
  simp [limbBytes, List.range_succ, bytesValue_cons, nothing, Nat.shiftRight_eq_div_pow]
  omega

theorem fieldToBigEndian_bytes (value : Field) :
    bytesValue (fieldToBigEndian value) = value.value ∧ (fieldToBigEndian value).length = 32 := by
  obtain ⟨total, length⟩ := bytesValue_limbs limbBytes UInt64.toNat 8 (fun limb => by simp [limbBytes])
    bytesValue_limbBytes value.limbs
  rw [value.size] at length
  exact ⟨total, length⟩

theorem toNat_joinLimbs (low high : UInt32) :
    (low.toUInt64 ||| high.toUInt64 <<< 32).toNat = low.toNat + 2 ^ 32 * high.toNat := by
  have lowBound := low.toNat_lt
  have highBound := high.toNat_lt
  have shifted : (high.toUInt64 <<< 32).toNat = 2 ^ 32 * high.toNat := by
    rw [UInt64.toNat_shiftLeft, UInt32.toNat_toUInt64]
    have amount : (32 : UInt64).toNat % 64 = 32 := rfl
    rw [amount, Nat.shiftLeft_eq]
    omega
  rw [UInt64.toNat_or, shifted, UInt32.toNat_toUInt64, Nat.lor_comm,
    ← Nat.two_pow_add_eq_or_of_lt lowBound, Nat.add_comm]

theorem fromLegacyField_value (value : CudaSecp.Field) : (fromLegacyField value).value = value.value := by
  obtain ⟨limbs, size⟩ := value
  match limbs, size with
  | [limb0, limb1, limb2, limb3, limb4, limb5, limb6, limb7], _ =>
    simp only [fromLegacyField, Field.value, wordsValue, CudaSecp.Field.value, CudaSecp.limbsValue,
      List.range_succ, List.range_zero, List.nil_append, List.map_cons, List.map_nil, List.cons_append,
      Nat.zero_mul, List.getD_cons_zero, List.getD_cons_succ, Nat.ofDigits_cons,
      Nat.ofDigits_nil, toNat_joinLimbs]
    ring

theorem holds_fromLegacyField {element : CudaSecp.Field} {a : Residue} (same : Holds element a) :
    Holds (fromLegacyField element) a :=
  (fromLegacyField_value element).trans same

theorem fromLegacyPoint_represents {point : CudaSecp.AffinePoint} {P : CurvePoint}
    (stands : Represents point P) : Represents (fromLegacyPoint point) P := by
  cases stands with
  | infinity x y => exact .infinity _ _
  | finite holdsX holdsY onCurve =>
    exact .finite (holds_fromLegacyField holdsX) (holds_fromLegacyField holdsY) onCurve

end CudaChain

/-- The same point has the same public key in both representations. -/
theorem pointToPublicKey_eq {point : CudaChain.Point} {legacy : CudaSecp.AffinePoint} {P : CurvePoint}
    (stands : Represents point P) (legacyStands : Represents legacy P) (finite : P ≠ 0) :
    CudaChain.pointToPublicKey point = CudaSecp.pointToPublicKey legacy := by
  have coordinate {x : CudaChain.Field} {y : CudaSecp.Field} {a : Residue} (first : Holds x a)
      (second : Holds y a) : CudaChain.fieldToBigEndian x = CudaSecp.fieldToBigEndian y := by
    obtain ⟨value, length⟩ := CudaChain.fieldToBigEndian_bytes x
    obtain ⟨legacyValue, legacyLength⟩ := CudaSecp.fieldToBigEndian_bytes y
    apply bytesValue_injective (length.trans legacyLength.symm)
    rw [value, legacyValue]
    exact Eq.trans first second.symm
  cases stands with
  | infinity x y => exact absurd rfl finite
  | finite holdsX holdsY onCurve =>
    cases legacyStands with
    | finite legacyX legacyY _ =>
      rw [CudaChain.pointToPublicKey, CudaSecp.pointToPublicKey, coordinate holdsX legacyX,
        coordinate holdsY legacyY]

namespace CudaSecp

theorem holds_of_value {element : Field} {number : Nat} (value : element.value = number)
    (below : number < fieldPrime) : Holds element (number : Residue) := by
  rw [Holds, ZMod.val_natCast_of_lt below]
  exact value

/-- The representation of a point has one public key. -/
theorem publicKey_unique {point legacy : AffinePoint} {P : CurvePoint} (stands : Represents point P)
    (legacyStands : Represents legacy P) (finite : P ≠ 0) : pointToPublicKey point = pointToPublicKey legacy := by
  rw [← pointToPublicKey_eq (CudaChain.fromLegacyPoint_represents stands) legacyStands finite]
  exact (pointToPublicKey_eq (CudaChain.fromLegacyPoint_represents stands) stands finite).symm

theorem generatorPoint_represents : Represents generatorPoint generator :=
  .finite (holds_of_value (by decide) (by decide)) (holds_of_value (by decide) (by decide)) _

theorem scalarLoop_represents (turns : Nat) {scalar : UInt64} {result addend : AffinePoint} {R A : CurvePoint}
    (small : scalar.toNat < 2 ^ turns) (resultStands : Represents result R) (addendStands : Represents addend A) :
    Represents (scalarLoop turns scalar result addend) (R + scalar.toNat • A) := by
  induction turns generalizing scalar result addend R A with
  | zero =>
    have zero : scalar.toNat = 0 := by omega
    rw [zero, zero_nsmul, add_zero]
    exact resultStands
  | succ turns hypothesis =>
    rw [scalarLoop]
    split
    · rename_i zero
      rw [zero, UInt64.toNat_zero, zero_nsmul, add_zero]
      exact resultStands
    · have half : (scalar >>> 1).toNat = scalar.toNat / 2 := by
        rw [UInt64.toNat_shiftRight, Nat.shiftRight_eq_div_pow]
        rfl
      have low : (scalar &&& 1).toNat = scalar.toNat % 2 := by
        rw [UInt64.toNat_and]
        exact Nat.and_two_pow_sub_one_eq_mod scalar.toNat 1
      have next : Represents (if scalar &&& 1 ≠ 0 then pointAdd result addend else result)
          (R + (scalar.toNat % 2) • A) := by
        by_cases odd : scalar &&& 1 = 0
        · rw [odd, UInt64.toNat_zero] at low
          rw [if_neg (not_not.mpr odd), ← low, zero_nsmul, add_zero]
          exact resultStands
        · have one : scalar.toNat % 2 = 1 := by
            have nonzero : (scalar &&& 1).toNat ≠ 0 := fun none => odd (UInt64.toNat_inj.mp none)
            omega
          rw [if_pos odd, one, one_nsmul]
          exact represents_add resultStands addendStands
      have split : scalar.toNat = scalar.toNat % 2 + 2 * (scalar >>> 1).toNat := by omega
      by_cases last : scalar >>> 1 = 0
      · have further := hypothesis (by omega : (scalar >>> 1).toNat < 2 ^ turns) next addendStands
        rw [last, UInt64.toNat_zero] at split
        have whole : scalar.toNat % 2 = scalar.toNat := by omega
        rw [last, UInt64.toNat_zero, zero_nsmul, add_zero, whole] at further
        simp only [last, ne_eq, not_true_eq_false, if_false]
        exact further
      · have further := hypothesis (by omega : (scalar >>> 1).toNat < 2 ^ turns) next (represents_double addendStands)
        rw [← two_nsmul, ← mul_nsmul', add_assoc, ← add_nsmul, Nat.mul_comm, ← split] at further
        simp only [ne_eq, last, not_false_eq_true, if_true]
        exact further

theorem scalarMultiplyU64_represents (scalar : UInt64) :
    Represents (scalarMultiplyU64 scalar) (scalar.toNat • generator) := by
  have product := scalarLoop_represents 64 scalar.toNat_lt represents_atInfinity generatorPoint_represents
  rwa [zero_add] at product

end CudaSecp

end TronForge.Native
