import Mathlib.Data.Nat.Size
import TronForge.Library.Radix
import TronForge.Service.Addresses

/-! Base58Check as the server encodes and decodes it, over any hash function. Both
directions convert between radix 256 and radix 58 and carry the leading zeros
outside the conversion. -/

namespace TronForge.Service

open Library
open Native (Text base58Alphabet base58Text base58Character base58Digits bytesValue textValue leadingZeroes)

/-- The checksum bytes of a payload. -/
def checksumOf (sha256 : List UInt8 → List UInt8) (payload : List UInt8) : List UInt8 :=
  (sha256 (sha256 payload)).take 4

/-- `base58check_encode` over a hash function. -/
def base58checkEncodeWith (sha256 : List UInt8 → List UInt8) (payload : List UInt8) : Text :=
  let checksum := checksumOf sha256 payload
  List.replicate (leadingZeroes (payload ++ checksum)) '1' ++ encodeLoop (bytesValue (payload ++ checksum)) []

inductive Base58CheckError where
  | invalidCharacter | tooShort | invalidChecksum
  deriving DecidableEq, Repr

def Base58CheckError.message : Base58CheckError → String
  | .invalidCharacter => "Address contains an invalid Base58 character."
  | .tooShort => "Address is too short."
  | .invalidChecksum => "Address checksum is invalid."

/-- The loop of `base58check_decode`. -/
def decodeLoop : Text → Nat → Except Base58CheckError Nat
  | [], encodedValue => .ok encodedValue
  | character :: rest, encodedValue =>
    if character ∈ base58Alphabet then
      decodeLoop rest (encodedValue * 58 + base58Alphabet.idxOf character)
    else .error .invalidCharacter

/-- Python's `number.to_bytes(length, "big")` of a number that fits. -/
def toBytes (number length : Nat) : List UInt8 := (Digits.fixed 256 length number).map UInt8.ofNat

/-- The end of `base58check_decode`: the checksum is split off and compared. -/
def checkedPayload (sha256 : List UInt8 → List UInt8) (decoded : List UInt8) :
    Except Base58CheckError (List UInt8) :=
  if decoded.length < 5 then .error .tooShort
  else
    let payload := decoded.take (decoded.length - 4)
    let checksum := decoded.drop (decoded.length - 4)
    if checksum = checksumOf sha256 payload then .ok payload else .error .invalidChecksum

/-- `base58check_decode` over a hash function. -/
def base58checkDecodeWith (sha256 : List UInt8 → List UInt8) (value : Text) :
    Except Base58CheckError (List UInt8) := do
  let encodedValue ← decodeLoop value 0
  let decoded := toBytes encodedValue ((Nat.size encodedValue + 7) / 8)
  let leadingOnes := value.length - (value.dropWhile (· = '1')).length
  checkedPayload sha256 (List.replicate leadingOnes 0 ++ decoded)

def Known (text : Text) : Prop := ∀ character ∈ text, character ∈ base58Alphabet

/-- The loop reads the digits after those it has read, and stops at any other
character. -/
theorem decodeLoop_eq (value : Text) (encodedValue : Nat) :
    (Known value → decodeLoop value encodedValue =
      .ok (encodedValue * 58 ^ value.length + textValue value)) ∧
    (∀ number, decodeLoop value encodedValue = .ok number → Known value) := by
  induction value generalizing encodedValue with
  | nil => simp [decodeLoop, Known, textValue, base58Digits]
  | cons character rest ih =>
    by_cases inside : character ∈ base58Alphabet
    · obtain ⟨reads, accepts⟩ := ih (encodedValue * 58 + base58Alphabet.idxOf character)
      simp only [decodeLoop, inside, ↓reduceIte]
      constructor
      · intro known
        rw [reads fun other member => known other (List.mem_cons_of_mem _ member)]
        simp only [textValue, base58Digits, List.map_cons, Digits.value_cons, List.length_cons, List.length_map]
        congr 1
        ring
      · intro number accepted other member
        rcases List.mem_cons.mp member with rfl | later
        · exact inside
        · exact accepts number accepted other later
    · simp only [decodeLoop, inside, ↓reduceIte]
      constructor
      · intro known
        exact absurd (known character (by simp)) inside
      · intro number accepted
        cases accepted

/-- The bit length counts the bytes of a number. -/
theorem size_bytes (number : Nat) : (Nat.size number + 7) / 8 = (Digits.minimal 256 number).length := by
  have fits (count : Nat) : (Digits.minimal 256 number).length ≤ count ↔ (Nat.size number + 7) / 8 ≤ count := by
    rw [Digits.minimal, List.length_reverse, Nat.digits_length_le_iff (by omega),
      show (256 : Nat) = 2 ^ 8 from rfl, ← pow_mul, ← Nat.size_le]
    omega
  exact le_antisymm ((fits _).mp le_rfl) ((fits _).mpr le_rfl)

/-- Leading ones are leading zero digits. -/
theorem leadingOnes_eq {value : Text} (known : Known value) :
    value.length - (value.dropWhile (· = '1')).length = Digits.zeros (base58Digits value) := by
  induction value with
  | nil => rfl
  | cons character rest ih =>
    have digit : base58Alphabet.idxOf character = 0 ↔ character = '1' := by
      constructor
      · intro first
        have same := Native.base58Character_idxOf (known character (by simp))
        rw [first] at same
        exact same.symm
      · rintro rfl
        rfl
    have rest_ := ih fun other member => known other (List.mem_cons_of_mem _ member)
    have shorter := (List.dropWhile_sublist (l := rest) (· = '1')).length_le
    by_cases one : character = '1'
    · have zero := digit.mpr one
      simp only [Digits.zeros, base58Digits, List.map_cons, List.takeWhile_cons, List.dropWhile_cons, one,
        decide_true, ↓reduceIte, List.length_cons] at rest_ zero ⊢
      simp only [zero, decide_true, ↓reduceIte, List.length_cons]
      omega
    · have other : ¬ base58Alphabet.idxOf character = 0 := fun zero => one (digit.mp zero)
      simp [Digits.zeros, base58Digits, one, other]

/-- The decoded bytes are the converted digits. -/
theorem base58checkDecodeWith_eq {sha256 : List UInt8 → List UInt8} {value : Text} (known : Known value) :
    base58checkDecodeWith sha256 value =
      checkedPayload sha256 ((Digits.convert 58 256 (base58Digits value)).map UInt8.ofNat) := by
  have read := (decodeLoop_eq value 0).1 known
  rw [Nat.zero_mul, Nat.zero_add] at read
  simp only [base58checkDecodeWith, read, toBytes, size_bytes, leadingOnes_eq known,
    Digits.fixed_minimal (by omega : 1 < 256)]
  rw [Digits.convert, List.map_append, List.map_replicate]
  rfl

/-- The encoded text is the converted bytes. -/
theorem base58Text_eq (bytes : List UInt8) :
    base58Text bytes = (Digits.convert 256 58 (bytes.map UInt8.toNat)).map base58Character := by
  have zeroes : leadingZeroes bytes = Digits.zeros (bytes.map UInt8.toNat) := by
    induction bytes with
    | nil => rfl
    | cons byte rest ih =>
      unfold leadingZeroes Digits.zeros at ih ⊢
      by_cases zero : byte = 0
      · simp [zero, ih]
      · have other : ¬ byte.toNat = 0 := fun same => zero (UInt8.toNat_inj.mp same)
        simp [zero, other]
  rw [base58Text, zeroes, Digits.convert, List.map_append, List.map_replicate]
  rfl

theorem base58checkEncodeWith_eq (sha256 : List UInt8 → List UInt8) (payload : List UInt8) :
    base58checkEncodeWith sha256 payload = base58Text (payload ++ checksumOf sha256 payload) := by
  rw [base58checkEncodeWith, encodeLoop_eq, List.append_nil, base58Text]

theorem map_ofNat_toNat (bytes : List UInt8) : (bytes.map UInt8.toNat).map UInt8.ofNat = bytes := by
  rw [List.map_map]
  conv_rhs => rw [← List.map_id bytes]
  exact List.map_congr_left fun byte _ => UInt8.ofNat_toNat

theorem map_toNat_ofNat {digits : List Nat} (small : ∀ digit ∈ digits, digit < 256) :
    (digits.map UInt8.ofNat).map UInt8.toNat = digits := by
  rw [List.map_map]
  conv_rhs => rw [← List.map_id digits]
  exact List.map_congr_left fun digit inside => UInt8.toNat_ofNat_of_lt' (small digit inside)

/-- Base58 text is known, and decodes to its bytes. -/
theorem base58Text_decodes (bytes : List UInt8) : Known (base58Text bytes) ∧
    (Digits.convert 58 256 (base58Digits (base58Text bytes))).map UInt8.ofNat = bytes := by
  rw [base58Text_eq]
  obtain ⟨known, digits⟩ :=
    Native.base58Digits_map (@Digits.convert_lt 256 58 (by omega) (bytes.map UInt8.toNat))
  refine ⟨known, ?_⟩
  rw [digits, Digits.convert_convert (by omega) (by omega) (Native.bytes_bounded bytes), map_ofNat_toNat]

/-- Decoded bytes are the ones whose text was read. -/
theorem base58Text_decoded {value : Text} (known : Known value) :
    base58Text ((Digits.convert 58 256 (base58Digits value)).map UInt8.ofNat) = value := by
  rw [base58Text_eq, map_toNat_ofNat (Digits.convert_lt (by omega) _),
    Digits.convert_convert (by omega) (by omega) (Native.base58Digits_lt known), Native.base58Digits_known known]

/-- What the end of the decoder accepts. -/
theorem checkedPayload_iff {sha256 : List UInt8 → List UInt8} {decoded payload : List UInt8}
    (size : (checksumOf sha256 payload).length = 4) : checkedPayload sha256 decoded = .ok payload ↔
      payload ≠ [] ∧ decoded = payload ++ checksumOf sha256 payload := by
  unfold checkedPayload
  constructor
  · intro accepted
    split at accepted
    · cases accepted
    · rename_i long
      dsimp only at accepted
      split at accepted
      · rename_i checked
        cases accepted
        refine ⟨?_, ?_⟩
        · intro empty
          have short := congrArg List.length empty
          rw [List.length_take, List.length_nil] at short
          omega
        · rw [← checked, List.take_append_drop]
      · cases accepted
  · rintro ⟨nonempty, rfl⟩
    have positive := List.length_pos_iff.mpr nonempty
    have front : (payload ++ checksumOf sha256 payload).length - 4 = payload.length := by
      rw [List.length_append, size]
      omega
    have long : ¬ (payload ++ checksumOf sha256 payload).length < 5 := by
      rw [List.length_append, size]
      omega
    simp only [long, front, List.take_left, List.drop_left, ↓reduceIte]

theorem checksumOf_length {sha256 : List UInt8 → List UInt8} (size : ∀ bytes, (sha256 bytes).length = 32)
    (payload : List UInt8) : (checksumOf sha256 payload).length = 4 := by
  simp [checksumOf, size]

/-- What the decoder accepts: the text of a payload and its checksum. -/
theorem base58checkDecodeWith_iff {sha256 : List UInt8 → List UInt8}
    (size : ∀ bytes, (sha256 bytes).length = 32) (value : Text) (payload : List UInt8) :
    base58checkDecodeWith sha256 value = .ok payload ↔
      payload ≠ [] ∧ value = base58checkEncodeWith sha256 payload := by
  have short := checksumOf_length size payload
  rw [base58checkEncodeWith_eq]
  constructor
  · intro accepted
    have known : Known value := by
      cases read : decodeLoop value 0 with
      | error error =>
        rw [base58checkDecodeWith, read] at accepted
        cases accepted
      | ok number => exact (decodeLoop_eq value 0).2 number read
    rw [base58checkDecodeWith_eq known, checkedPayload_iff short] at accepted
    obtain ⟨nonempty, decoded⟩ := accepted
    refine ⟨nonempty, ?_⟩
    rw [← decoded, base58Text_decoded known]
  · rintro ⟨nonempty, rfl⟩
    obtain ⟨known, decoded⟩ := base58Text_decodes (payload ++ checksumOf sha256 payload)
    rw [base58checkDecodeWith_eq known, decoded, checkedPayload_iff short]
    exact ⟨nonempty, rfl⟩

/-- Over any hash function to 32 bytes, encoding and decoding are inverse to each
other, and no two texts decode to the same payload. -/
theorem base58check_inverse {sha256 : List UInt8 → List UInt8}
    (size : ∀ bytes, (sha256 bytes).length = 32) :
    (∀ payload, payload ≠ [] →
      base58checkDecodeWith sha256 (base58checkEncodeWith sha256 payload) = .ok payload) ∧
    (∀ value payload, base58checkDecodeWith sha256 value = .ok payload →
      base58checkEncodeWith sha256 payload = value) ∧
    ∀ left right payload, base58checkDecodeWith sha256 left = .ok payload →
      base58checkDecodeWith sha256 right = .ok payload → left = right := by
  have encoded {value : Text} {payload : List UInt8}
      (accepted : base58checkDecodeWith sha256 value = .ok payload) :
      value = base58checkEncodeWith sha256 payload :=
    ((base58checkDecodeWith_iff size value payload).mp accepted).2
  refine ⟨?_, ?_, ?_⟩
  · intro payload nonempty
    exact (base58checkDecodeWith_iff size _ payload).mpr ⟨nonempty, rfl⟩
  · intro value payload accepted
    exact (encoded accepted).symm
  · intro left right payload leftAccepted rightAccepted
    exact (encoded leftAccepted).trans (encoded rightAccepted).symm

/-- A payload that starts with two zero bytes. -/
theorem base58check_inverse_zeros :
    base58checkDecodeWith Sha256.digest (base58checkEncodeWith Sha256.digest [0, 0, 1]) = .ok [0, 0, 1] :=
  (base58check_inverse Sha256.length_digest).1 [0, 0, 1] (by simp)

/-- `base58check_decode`. -/
def base58checkDecode (value : Text) : Except Base58CheckError (List UInt8) :=
  base58checkDecodeWith Sha256.digest value

/-- `validate_tron_address`. -/
def validateTronAddress (address : Text) : Bool :=
  if address.length ≠ 34 ∨ address.head? ≠ some 'T' then false
  else
    match base58checkDecode address with
    | .error _ => false
    | .ok payload => decide (payload.length = 21) && decide (payload.head? = some 0x41)

theorem base58checkEncode_with (payload : List UInt8) :
    base58checkEncode payload = base58checkEncodeWith Sha256.digest payload := rfl

/-- The Base58 text of 25 bytes that start with the TRON version. -/
theorem base58Text_tron {payload checksum : List UInt8} (tron : Native.TronPayload payload)
    (size : checksum.length = 4) : (base58Text (payload ++ checksum)).length = 34 ∧
      (base58Text (payload ++ checksum)).head? = some 'T' := by
  have length := (Native.base58Text_address tron size).length
  have first := Native.base58Text_first tron size
  refine ⟨length, ?_⟩
  have inside : 0 < (base58Text (payload ++ checksum)).length := by omega
  rw [List.head?_eq_getElem?, Native.getElem?_charAt inside, first]

theorem tronPayload_cons {hash : List UInt8} (size : hash.length = 20) : Native.TronPayload (0x41 :: hash) :=
  ⟨by simp [size], rfl⟩

theorem validateTronAddress_eq_true (address : Text) : validateTronAddress address = true ↔
    ∃ hash : List UInt8, hash.length = 20 ∧ address = base58checkEncode (0x41 :: hash) := by
  constructor
  · intro valid
    unfold validateTronAddress at valid
    split at valid
    · cases valid
    · split at valid
      · cases valid
      · rename_i payload decoded
        obtain ⟨size, version⟩ := Bool.and_eq_true_iff.mp valid
        obtain ⟨-, text⟩ := (base58checkDecodeWith_iff Sha256.length_digest address payload).mp decoded
        cases payload with
        | nil => simp at size
        | cons byte hash =>
          obtain rfl : byte = 0x41 := by simpa using version
          exact ⟨hash, by simpa using size, text⟩
  · rintro ⟨hash, size, rfl⟩
    have decoded : base58checkDecode (base58checkEncode (0x41 :: hash)) = .ok (0x41 :: hash) :=
      (base58checkDecodeWith_iff Sha256.length_digest _ _).mpr ⟨by simp, rfl⟩
    obtain ⟨length, first⟩ := base58Text_tron (tronPayload_cons size)
      (checksumOf_length Sha256.length_digest (0x41 :: hash))
    rw [← base58checkEncodeWith_eq, ← base58checkEncode_with] at length first
    simp [validateTronAddress, length, first, decoded, size]

/-- The server accepts exactly the texts of 20-byte hashes, each of one hash only,
and the Base58 text of any 25 bytes with the TRON version, on the device as on the
server, has 34 characters and starts with `T`. -/
theorem valid_addresses_exact :
    (∀ address : Text, validateTronAddress address = true ↔
      ∃ hash : List UInt8, hash.length = 20 ∧ address = base58checkEncode (0x41 :: hash)) ∧
    (∀ hash other : List UInt8, hash.length = 20 → other.length = 20 →
      base58checkEncode (0x41 :: hash) = base58checkEncode (0x41 :: other) → hash = other) ∧
    ∀ hash checksum : List UInt8, hash.length = 20 → checksum.length = 4 →
      let bytes := 0x41 :: hash ++ checksum
      let text := List.replicate (leadingZeroes bytes) '1' ++ encodeLoop (bytesValue bytes) []
      Native.deviceBase58 bytes = text ∧ Native.base58Encode bytes = .ok text ∧
        text.length = 34 ∧ text.head? = some 'T' := by
  refine ⟨validateTronAddress_eq_true, ?_, ?_⟩
  · intro hash other _ _ same
    have decoded (tail : List UInt8) : base58checkDecode (base58checkEncode (0x41 :: tail)) = .ok (0x41 :: tail) :=
      (base58checkDecodeWith_iff Sha256.length_digest _ _).mpr ⟨by simp, rfl⟩
    have equal := decoded hash
    rw [same, decoded other] at equal
    simpa using equal.symm
  · intro hash checksum size short bytes text
    have length : bytes.length = 25 := by simp [bytes, size, short]
    have same : text = base58Text bytes := by
      rw [base58Text, ← List.append_nil (List.map _ _), ← encodeLoop_eq]
    rw [same]
    exact ⟨Native.deviceBase58_eq length, Native.base58Encode_eq bytes,
      base58Text_tron (tronPayload_cons size) short⟩

end TronForge.Service
