import Mathlib.NumberTheory.LegendreSymbol.Basic
import TronForge.Native.KernelPoints
import TronForge.Native.Offsets

/-! Public keys on the host: the octets of a point and back, the keys of private
scalars and offsets, and the points that the kernels start from. -/

namespace TronForge.Native

local instance sevenAtLeastTwo : Nat.AtLeastTwo 7 where
  prop := by decide

/-- The coordinates of a point, as `EC_POINT_point2oct` writes them after its first byte. -/
def pointBytes : CurvePoint → List UInt8
  | .zero => []
  | .some a b _ => scalarBytes a.val ++ scalarBytes b.val

/-- The compressed octets of a point. -/
def compressedBytes : CurvePoint → List UInt8
  | .zero => [0]
  | .some a b _ => (if b.val % 2 = 0 then 2 else 3) :: scalarBytes a.val

def affinePoint (a b : Residue) : Option CurvePoint :=
  if onCurve : b ^ 2 = a ^ 3 + 7 then some (.some a b ((nonsingular_iff_equation a b).mpr onCurve)) else none

/-- The point of a compressed abscissa, by the square root of a prime that is three modulo four. -/
def liftAbscissa (a : Residue) (odd : Bool) : Option CurvePoint :=
  let root := (a ^ 3 + 7) ^ ((fieldPrime + 1) / 4)
  affinePoint a (if decide (root.val % 2 = 1) = odd then root else -root)

/-- `EC_POINT_oct2point` on the 33 and 65 octets that the callers admit, with
`EC_POINT_is_on_curve`. -/
def decodePoint (octets : List UInt8) : Option CurvePoint :=
  match octets with
  | [] => none
  | form :: rest =>
    let x := bytesValue (rest.take 32)
    let y := bytesValue (rest.drop 32)
    if rest.length = 32 ∧ (form = 2 ∨ form = 3) ∧ x < fieldPrime then liftAbscissa x (form = 3)
    else if rest.length = 64 ∧ (form = 4 ∨ (form = 6 ∨ form = 7) ∧ y % 2 = form.toNat % 2) ∧
        x < fieldPrime ∧ y < fieldPrime then affinePoint x y
    else none

/-- The key check that the entry points share: the size of the octets, and the point. -/
def publicPoint (publicKeyHex : Text) : Except HostError CurvePoint := do
  let publicKey ← hexToBytes publicKeyHex
  if publicKey.length ≠ 33 ∧ publicKey.length ≠ 65 then throw .keySize
  match decodePoint publicKey with
  | none => throw .invalidKey
  | some point => return point

/-- `private_scalar`. -/
def privateScalar (privateKeyHex : Text) : Except HostError Nat := do
  if privateKeyHex.length ≠ 64 then throw .privateKeySize
  let bytes ← hexToBytes privateKeyHex
  let scalar := bytesValue bytes
  if scalar = 0 ∨ groupOrder ≤ scalar then throw .privateKeyRange
  return scalar

/-- `compressed_public_key`. -/
def compressedPublicKey (privateKeyHex : Text) : Except HostError Text := do
  let scalar ← privateScalar privateKeyHex
  return bytesToHex (compressedBytes (scalar • generator))

/-- `uncompressed_public_key`. -/
def uncompressedPublicKey (publicKeyHex : Text) : Except HostError Text := do
  let publicKey ← hexToBytes publicKeyHex
  if publicKey.length ≠ 33 ∧ publicKey.length ≠ 65 then throw .keySize
  match decodePoint publicKey with
  | none => throw .infiniteKey
  | some point => if point = 0 then throw .infiniteKey else return bytesToHex (pointBytes point)

/-- `derive_offset_public_key`. -/
def deriveOffsetPublicKey (publicKeyHex offset : Text) : Except HostError Text := do
  let publicKey ← hexToBytes publicKeyHex
  if publicKey.length ≠ 33 ∧ publicKey.length ≠ 65 then throw .keySize
  let scalar ← parseRangeStart offset
  match decodePoint publicKey with
  | none => throw .invalidKey
  | some base =>
    if scalar ≤ 0 ∨ (groupOrder : Int) ≤ scalar then throw .offsetRange
    let result := scalar.toNat • generator + base
    if result = 0 then throw .infiniteOffset
    return bytesToHex (pointBytes result)

/-- `host_public_key_bytes`. -/
def hostPublicKeyBytes (value : Text) : Except HostError (List UInt8) :=
  if value.length ≠ 128 then throw .pointSize else hexPairs value

/-- The point of the search kernels from the bytes of a key. -/
def hostPoint (publicKey : List UInt8) : CudaSecp.AffinePoint :=
  ⟨CudaSecp.fieldFromBigEndian publicKey, CudaSecp.fieldFromBigEndian (publicKey.drop 32), false⟩

/-- The value of eight bytes, shifted in one by one. -/
def shiftedBytes (bytes : List UInt8) : UInt64 :=
  bytes.foldl (fun value byte => value <<< 8 ||| byte.toUInt64) 0

def hostChainFieldFromBigEndian (input : List UInt8) : CudaChain.Field :=
  ⟨((List.range 4).map fun limb => shiftedBytes ((input.drop (limb * 8)).take 8)).reverse, by simp⟩

/-- `host_chain_point_from_public_key`. -/
def hostChainPointFromPublicKey (scalar : Nat) : Except HostError CudaChain.Point := do
  let compressed ← compressedPublicKey (scalarHex scalar)
  let uncompressed ← uncompressedPublicKey compressed
  let bytes ← hostPublicKeyBytes uncompressed
  return ⟨hostChainFieldFromBigEndian bytes, hostChainFieldFromBigEndian (bytes.drop 32), false⟩

/-- The chosen power of a square is one of its roots. -/
theorem root_of_square (b : Residue) :
    (b ^ 2) ^ ((fieldPrime + 1) / 4) = b ∨ (b ^ 2) ^ ((fieldPrime + 1) / 4) = -b := by
  rw [← sq_eq_sq_iff_eq_or_eq_neg]
  by_cases zero : b = 0
  · have positive : (fieldPrime + 1) / 4 ≠ 0 := by norm_num [fieldPrime]
    rw [zero, zero_pow two_ne_zero, zero_pow positive, zero_pow two_ne_zero]
  · have exponent : 2 * ((fieldPrime + 1) / 4 * 2) = fieldPrime - 1 + 2 := by norm_num [fieldPrime]
    rw [← pow_mul, ← pow_mul, exponent, pow_add, ZMod.pow_card_sub_one_eq_one zero, one_mul]

/-- A residue that is not zero and its opposite have different parities. -/
theorem parity_opposite {b : Residue} (nonzero : b ≠ 0) : (-b).val % 2 = 1 - b.val % 2 := by
  have : NeZero b := ⟨nonzero⟩
  have below := residue_val_lt b
  have odd : fieldPrime % 2 = 1 := by norm_num [fieldPrime]
  rw [ZMod.val_neg_of_ne_zero]
  omega

theorem affinePoint_some {a b : Residue} (onCurve : secp256k1.Nonsingular a b) :
    affinePoint a b = some (.some a b onCurve) :=
  dif_pos ((nonsingular_iff_equation a b).mp onCurve)

/-- The parity picks the root again. -/
theorem liftAbscissa_some {a b : Residue} (onCurve : secp256k1.Nonsingular a b) :
    liftAbscissa a (decide (b.val % 2 = 1)) = some (.some a b onCurve) := by
  have equation := (nonsingular_iff_equation a b).mp onCurve
  rw [liftAbscissa, ← equation]
  cases root_of_square b with
  | inl root => rw [root, if_pos rfl, affinePoint_some onCurve]
  | inr root =>
    rw [root]
    by_cases zero : b = 0
    · have plain : -b = b := by rw [zero, neg_zero]
      rw [plain, if_pos rfl, affinePoint_some onCurve]
    · have parity := parity_opposite zero
      have differ : ¬ decide ((-b).val % 2 = 1) = decide (b.val % 2 = 1) := by
        rw [decide_eq_decide]
        omega
      rw [if_neg differ, neg_neg, affinePoint_some onCurve]

theorem length_pointBytes {P : CurvePoint} (finite : P ≠ 0) : (pointBytes P).length = 64 := by
  cases P with
  | zero => exact absurd rfl finite
  | some a b onCurve => rw [pointBytes, List.length_append, length_scalarBytes, length_scalarBytes]

theorem length_compressedBytes {P : CurvePoint} (finite : P ≠ 0) : (compressedBytes P).length = 33 := by
  cases P with
  | zero => exact absurd rfl finite
  | some a b onCurve => rw [compressedBytes, List.length_cons, length_scalarBytes]

theorem residue_fits (a : Residue) : a.val < 256 ^ 32 :=
  (residue_val_lt a).trans (by norm_num [fieldPrime])

/-- A compressed point is read back. -/
theorem decodePoint_compressedBytes {P : CurvePoint} (finite : P ≠ 0) :
    decodePoint (compressedBytes P) = some P := by
  cases P with
  | zero => exact absurd rfl finite
  | some a b onCurve =>
    have length := length_scalarBytes a.val
    have value := bytesValue_scalarBytes (residue_fits a)
    have form : (if b.val % 2 = 0 then (2 : UInt8) else 3) = 2 ∨ (if b.val % 2 = 0 then (2 : UInt8) else 3) = 3 := by
      split
      · exact Or.inl rfl
      · exact Or.inr rfl
    have odd : decide ((if b.val % 2 = 0 then (2 : UInt8) else 3) = 3) = decide (b.val % 2 = 1) := by
      by_cases even : b.val % 2 = 0
      · rw [if_pos even, even]
        rfl
      · rw [if_neg even, decide_eq_decide]
        exact iff_of_true rfl (by omega)
    have taken : (scalarBytes a.val).take 32 = scalarBytes a.val := List.take_of_length_le length.le
    simp only [compressedBytes, decodePoint]
    rw [taken, value, if_pos ⟨length, form, residue_val_lt a⟩, ZMod.natCast_zmod_val, odd]
    exact liftAbscissa_some onCurve

/-- The number of big-endian bytes from the numbers of its chunks. -/
theorem bytesValue_chunks (bytes : List UInt8) (size count : Nat) (long : count * size ≤ bytes.length) :
    Nat.ofDigits (256 ^ size) ((List.range count).reverse.map fun chunk =>
      bytesValue ((bytes.drop (chunk * size)).take size)) = bytesValue (bytes.take (count * size)) := by
  induction count with
  | zero => simp [bytesValue]
  | succ count hypothesis =>
    have step : (count + 1) * size = count * size + size := by ring
    have length : ((bytes.drop (count * size)).take size).length = size := by
      rw [List.length_take, List.length_drop]
      omega
    rw [List.range_succ, List.reverse_append, List.reverse_singleton, List.singleton_append, List.map_cons,
      Nat.ofDigits_cons, hypothesis (by omega), step, List.take_add, bytesValue_append, length]
    ring

theorem toNat_shiftedBytes (bytes : List UInt8) (short : bytes.length ≤ 8) :
    (shiftedBytes bytes).toNat = bytesValue bytes := by
  induction bytes using List.reverseRecOn with
  | nil => rfl
  | append_singleton front byte hypothesis =>
    rw [List.length_append, List.length_singleton] at short
    have below := bytesValue_lt front
    have power : (256 : Nat) ^ front.length ≤ 256 ^ 7 := Nat.pow_le_pow_right (by omega) (by omega)
    have small := byte.toNat_lt
    have single : bytesValue [byte] = byte.toNat := by simp [bytesValue, Library.Digits.value]
    have shifted : (shiftedBytes front <<< 8).toNat = 2 ^ 8 * bytesValue front := by
      rw [UInt64.toNat_shiftLeft, hypothesis (by omega), Nat.shiftLeft_eq]
      have amount : (8 : UInt64).toNat % 64 = 8 := rfl
      rw [amount]
      omega
    have last : shiftedBytes (front ++ [byte]) = shiftedBytes front <<< 8 ||| byte.toUInt64 := by
      rw [shiftedBytes, List.foldl_append]
      rfl
    rw [last, UInt64.toNat_or, shifted, UInt8.toNat_toUInt64, ← Nat.two_pow_add_eq_or_of_lt small,
      bytesValue_append, single, List.length_singleton]
    ring

theorem hostChainField_value {bytes : List UInt8} (long : 32 ≤ bytes.length) :
    (hostChainFieldFromBigEndian bytes).value = bytesValue (bytes.take 32) := by
  have chunks := bytesValue_chunks bytes 8 4 long
  have limbs : (hostChainFieldFromBigEndian bytes).limbs =
      ((List.range 4).map fun limb => shiftedBytes ((bytes.drop (limb * 8)).take 8)).reverse := rfl
  have words (limb : Nat) : (shiftedBytes ((bytes.drop (limb * 8)).take 8)).toNat =
      bytesValue ((bytes.drop (limb * 8)).take 8) :=
    toNat_shiftedBytes _ (by rw [List.length_take]; omega)
  rw [CudaChain.Field.value, CudaChain.wordsValue, limbs, ← List.map_reverse, List.map_map, ← chunks]
  simp only [Function.comp_def, words]
  rfl

/-- Four bytes make a word. -/
theorem toNat_joinBytes (byte0 byte1 byte2 byte3 : UInt8) :
    (byte0.toUInt32 <<< 24 ||| byte1.toUInt32 <<< 16 ||| byte2.toUInt32 <<< 8 ||| byte3.toUInt32).toNat =
      bytesValue [byte0, byte1, byte2, byte3] := by
  have bound0 := byte0.toNat_lt
  have bound1 := byte1.toNat_lt
  have bound2 := byte2.toNat_lt
  have bound3 := byte3.toNat_lt
  have shifted (byte : UInt8) (amount : UInt32) (small : amount.toNat ≤ 24) :
      (byte.toUInt32 <<< amount).toNat = 2 ^ amount.toNat * byte.toNat := by
    have below := byte.toNat_lt
    have power : 2 ^ amount.toNat * byte.toNat < 2 ^ 24 * 2 ^ 8 :=
      Nat.mul_lt_mul_of_le_of_lt (Nat.pow_le_pow_right (by omega) small) below (by omega)
    rw [UInt32.toNat_shiftLeft, UInt8.toNat_toUInt32, Nat.mod_eq_of_lt (by omega : amount.toNat < 32),
      Nat.shiftLeft_eq, Nat.mul_comm, Nat.mod_eq_of_lt (by omega)]
  have amount24 : (24 : UInt32).toNat = 24 := rfl
  have amount16 : (16 : UInt32).toNat = 16 := rfl
  have amount8 : (8 : UInt32).toNat = 8 := rfl
  have join (high : Nat) {low : Nat} {bits : Nat} (below : low < 2 ^ bits) :
      2 ^ bits * high ||| low = 2 ^ bits * high + low := (Nat.two_pow_add_eq_or_of_lt below high).symm
  rw [UInt32.toNat_or, UInt32.toNat_or, UInt32.toNat_or, shifted byte0 24 (by omega), shifted byte1 16 (by omega),
    shifted byte2 8 (by omega), amount24, amount16, amount8, UInt8.toNat_toUInt32, Nat.or_assoc, Nat.or_assoc,
    join byte2.toNat bound3, join byte1.toNat (by omega), join byte0.toNat (by omega)]
  simp [bytesValue, Library.Digits.value]
  ring

theorem take_four {bytes : List UInt8} {offset : Nat} (long : offset + 4 ≤ bytes.length) :
    (bytes.drop offset).take 4 =
      [bytes.getD offset 0, bytes.getD (offset + 1) 0, bytes.getD (offset + 2) 0, bytes.getD (offset + 3) 0] := by
  have element (index : Nat) (small : index < 4) : bytes[offset + index]? = some (bytes.getD (offset + index) 0) := by
    rw [List.getElem?_eq_getElem (by omega), List.getD_eq_getElem]
  apply List.ext_getElem?
  intro index
  by_cases inside : index < 4
  · rw [List.getElem?_take_of_lt inside, List.getElem?_drop, element index inside]
    interval_cases index <;> rfl
  · rw [List.getElem?_eq_none (by rw [List.length_take]; omega), List.getElem?_eq_none (by simpa using inside)]

theorem fieldFromBigEndian_value {bytes : List UInt8} (long : 32 ≤ bytes.length) :
    (CudaSecp.fieldFromBigEndian bytes).value = bytesValue (bytes.take 32) := by
  have chunks := bytesValue_chunks bytes 4 8 long
  have reversed : (List.range 8).reverse = (List.range 8).map (7 - ·) := rfl
  have limbs : (CudaSecp.fieldFromBigEndian bytes).limbs.map UInt32.toNat =
      (List.range 8).reverse.map fun chunk => bytesValue ((bytes.drop (chunk * 4)).take 4) := by
    rw [reversed, List.map_map, CudaSecp.fieldFromBigEndian, List.map_map]
    apply List.map_congr_left
    intro limb member
    have small := List.mem_range.mp member
    have offset : 28 - limb * 4 = (7 - limb) * 4 := by omega
    rw [Function.comp_apply, Function.comp_apply, take_four (by omega), ← toNat_joinBytes, offset]
    simp only [Nat.add_zero]
  rw [CudaSecp.Field.value, CudaSecp.limbsValue, limbs]
  exact chunks

/-- The kernels start from the point that the host derived. -/
theorem hostPoint_represents {P : CurvePoint} (finite : P ≠ 0) : Represents (hostPoint (pointBytes P)) P := by
  cases P with
  | zero => exact absurd rfl finite
  | some a b onCurve =>
    have first := length_scalarBytes a.val
    have second := length_scalarBytes b.val
    have point : hostPoint (pointBytes (.some a b onCurve)) =
        ⟨CudaSecp.fieldFromBigEndian (scalarBytes a.val ++ scalarBytes b.val),
          CudaSecp.fieldFromBigEndian (scalarBytes b.val), false⟩ := by
      rw [hostPoint, pointBytes, List.drop_left' first]
    have abscissa := @fieldFromBigEndian_value (scalarBytes a.val ++ scalarBytes b.val)
      (by rw [List.length_append]; omega)
    have ordinate := fieldFromBigEndian_value second.ge
    rw [List.take_left' first, bytesValue_scalarBytes (residue_fits a)] at abscissa
    rw [List.take_of_length_le second.le, bytesValue_scalarBytes (residue_fits b)] at ordinate
    have holdsX : Holds (CudaSecp.fieldFromBigEndian (scalarBytes a.val ++ scalarBytes b.val)) a := by
      rw [Holds]
      exact abscissa
    have holdsY : Holds (CudaSecp.fieldFromBigEndian (scalarBytes b.val)) b := by
      rw [Holds]
      exact ordinate
    rw [point]
    exact .finite holdsX holdsY onCurve

theorem hostChainPoint_represents {P : CurvePoint} (finite : P ≠ 0) :
    Represents (⟨hostChainFieldFromBigEndian (pointBytes P), hostChainFieldFromBigEndian ((pointBytes P).drop 32),
      false⟩ : CudaChain.Point) P := by
  cases P with
  | zero => exact absurd rfl finite
  | some a b onCurve =>
    have first := length_scalarBytes a.val
    have second := length_scalarBytes b.val
    have abscissa := @hostChainField_value (scalarBytes a.val ++ scalarBytes b.val)
      (by rw [List.length_append]; omega)
    have ordinate := hostChainField_value second.ge
    rw [List.take_left' first, bytesValue_scalarBytes (residue_fits a)] at abscissa
    rw [List.take_of_length_le second.le, bytesValue_scalarBytes (residue_fits b)] at ordinate
    have holdsX : Holds (hostChainFieldFromBigEndian (scalarBytes a.val ++ scalarBytes b.val)) a := by
      rw [Holds]
      exact abscissa
    have holdsY : Holds (hostChainFieldFromBigEndian (scalarBytes b.val)) b := by
      rw [Holds]
      exact ordinate
    rw [pointBytes, List.drop_left' first]
    exact .finite holdsX holdsY onCurve

theorem privateScalar_eq {text : Text} {bytes : List UInt8} (length : text.length = 64)
    (parsed : hexToBytes text = .ok bytes) (positive : 0 < bytesValue bytes) (below : bytesValue bytes < groupOrder) :
    privateScalar text = .ok (bytesValue bytes) := by
  have inside : ¬ (bytesValue bytes = 0 ∨ groupOrder ≤ bytesValue bytes) := by omega
  rw [privateScalar, if_neg (not_not.mpr length), parsed]
  simp only [bind, Except.bind, if_neg inside]
  rfl

theorem privateScalar_scalarHex {scalar : Nat} (positive : 0 < scalar) (below : scalar < groupOrder) :
    privateScalar (scalarHex scalar) = .ok scalar := by
  have value := bytesValue_scalarBytes (below.trans groupOrder_lt)
  have parsed := privateScalar_eq (length_scalarHex scalar) (hexToBytes_scalarHex scalar)
  rw [value] at parsed
  exact parsed positive below

theorem compressedPublicKey_scalarHex {scalar : Nat} (positive : 0 < scalar) (below : scalar < groupOrder)
    {P : CurvePoint} (same : scalar • generator = P) :
    compressedPublicKey (scalarHex scalar) = .ok (bytesToHex (compressedBytes P)) := by
  rw [compressedPublicKey, privateScalar_scalarHex positive below]
  simp only [bind, Except.bind, same]
  rfl

/-- A finite point goes through its compressed key to its coordinates. -/
theorem uncompressedPublicKey_compressed {P : CurvePoint} (finite : P ≠ 0) :
    uncompressedPublicKey (bytesToHex (compressedBytes P)) = .ok (bytesToHex (pointBytes P)) := by
  have length := length_compressedBytes finite
  have size : ¬ ((compressedBytes P).length ≠ 33 ∧ (compressedBytes P).length ≠ 65) := by omega
  rw [uncompressedPublicKey, hexToBytes_bytesToHex]
  simp only [bind, Except.bind, if_neg size, decodePoint_compressedBytes finite, if_neg finite]
  rfl

theorem hostPublicKeyBytes_pointBytes {P : CurvePoint} (finite : P ≠ 0) :
    hostPublicKeyBytes (bytesToHex (pointBytes P)) = .ok (pointBytes P) := by
  have length := length_pointBytes finite
  have size : ¬ (bytesToHex (pointBytes P)).length ≠ 128 := by
    rw [length_bytesToHex]
    omega
  rw [hostPublicKeyBytes, if_neg size, hexPairs_bytesToHex]

/-- The stride point of a session stands for its multiple of the generator. -/
theorem hostChainPointFromPublicKey_represents {scalar : Nat} (positive : 0 < scalar)
    (below : scalar < groupOrder) :
    ∃ point, hostChainPointFromPublicKey scalar = .ok point ∧ Represents point (scalar • generator) := by
  have finite := nsmul_generator_ne_zero positive below
  generalize same : scalar • generator = P at finite ⊢
  have compressed := compressedPublicKey_scalarHex positive below same
  refine ⟨_, ?_, hostChainPoint_represents finite⟩
  rw [hostChainPointFromPublicKey, compressed]
  simp only [bind, Except.bind, uncompressedPublicKey_compressed finite, hostPublicKeyBytes_pointBytes finite]
  rfl

end TronForge.Native
