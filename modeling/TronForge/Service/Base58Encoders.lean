import TronForge.Native.Offsets
import TronForge.Service.Base58Check

/-! The four Base58 encoders on the same bytes: the host's buffer loop, the big
integers of Python and of the browser, and the device's fixed arrays. -/

namespace TronForge.Service

open Library
open Native (Text nibble base58Text base58Character bytesValue leadingZeroes deviceBase58)

/-- What `base58check_encode` makes of a payload and its checksum. -/
def encodeBytes (bytes : List UInt8) : Text :=
  List.replicate (leadingZeroes bytes) '1' ++ encodeLoop (bytesValue bytes) []

namespace Browser

/-- `value.toString(16).padStart(2, "0")`. -/
def byteToHex (byte : UInt8) : Text :=
  let digits := Nat.toDigits 16 byte.toNat
  List.replicate (2 - digits.length) '0' ++ digits

def bytesToHex (bytes : List UInt8) : Text := bytes.flatMap byteToHex

/-- `BigInt` of a text with `0x` in front; it throws unless hexadecimal digits follow. -/
def bigIntOfHex (digits : Text) : Option Nat :=
  if digits ≠ [] ∧ ∀ digit ∈ digits, (nibble digit).isSome = true then
    some (Digits.value 16 (digits.filterMap nibble))
  else none

def bytesToBigInt (bytes : List UInt8) : Option Nat := bigIntOfHex (bytesToHex bytes)

/-- The loop over the leading zero bytes. -/
def prependOnes : List UInt8 → Text → Text
  | [], encoded => encoded
  | byte :: rest, encoded => if byte ≠ 0 then encoded else prependOnes rest ('1' :: encoded)

/-- `base58Encode`; its `while` loop is the one of Python. -/
def base58Encode (bytes : List UInt8) : Option Text :=
  (bytesToBigInt bytes).map fun value => prependOnes bytes (encodeLoop value [])

theorem byteToHex_eq (byte : UInt8) :
    byteToHex byte = [Native.hexCharacter (byte.toNat / 16), Native.hexCharacter (byte.toNat % 16)] := by
  have all : ∀ number < 256,
      List.replicate (2 - (Nat.toDigits 16 number).length) '0' ++ Nat.toDigits 16 number =
        [Native.hexCharacter (number / 16), Native.hexCharacter (number % 16)] := by
    decide +kernel
  exact all byte.toNat byte.toNat_lt

theorem bytesToHex_eq (bytes : List UInt8) : bytesToHex bytes = Native.bytesToHex bytes := by
  unfold bytesToHex Native.bytesToHex
  congr 1
  funext byte
  exact byteToHex_eq byte

theorem nibbles_bytesToHex (bytes : List UInt8) : (Native.bytesToHex bytes).filterMap nibble =
    (bytes.map UInt8.toNat).flatMap fun byte => [byte / 16, byte % 16] := by
  induction bytes with
  | nil => rfl
  | cons byte rest ih =>
    have bound := byte.toNat_lt
    have unfolded : Native.bytesToHex (byte :: rest) =
        Native.hexCharacter (byte.toNat / 16) :: Native.hexCharacter (byte.toNat % 16) ::
          Native.bytesToHex rest := rfl
    rw [unfolded, List.filterMap_cons_some (Native.nibble_hexCharacter (by omega)),
      List.filterMap_cons_some (Native.nibble_hexCharacter (by omega)), ih]
    rfl

/-- The value of the hexadecimal digits is the value of the bytes. -/
theorem value_bytesToHex (bytes : List UInt8) :
    Digits.value 16 ((Native.bytesToHex bytes).filterMap nibble) = bytesValue bytes := by
  have digits := Digits.fixed_value (Native.bytes_bounded bytes) (by omega)
  have pairs := @Digits.fixed_square 16 bytes.length (bytesValue bytes)
  have fits : bytesValue bytes < 16 ^ (2 * bytes.length) := by
    rw [pow_mul]
    exact Native.bytesValue_lt bytes
  rw [List.length_map] at digits
  rw [nibbles_bytesToHex, ← digits, ← Native.bytesValue, pairs, Digits.value_fixed fits]

theorem bytesToBigInt_eq {bytes : List UInt8} (some_ : bytes ≠ []) :
    bytesToBigInt bytes = some (bytesValue bytes) := by
  have digits : Native.bytesToHex bytes ≠ [] := by
    rw [ne_eq, ← List.length_eq_zero_iff, Native.length_bytesToHex, Nat.mul_eq_zero, List.length_eq_zero_iff]
    simpa using some_
  rw [bytesToBigInt, bytesToHex_eq, bigIntOfHex, if_pos ⟨digits, fun _ member => Native.nibble_bytesToHex member⟩,
    value_bytesToHex]

theorem prependOnes_eq (bytes : List UInt8) (encoded : Text) :
    prependOnes bytes encoded = List.replicate (leadingZeroes bytes) '1' ++ encoded := by
  induction bytes generalizing encoded with
  | nil => rfl
  | cons byte rest ih =>
    by_cases zero : byte = 0
    · have counted : leadingZeroes (byte :: rest) = leadingZeroes rest + 1 := by simp [leadingZeroes, zero]
      rw [prependOnes, if_neg (not_not.mpr zero), ih, counted, List.replicate_succ', List.append_assoc]
      rfl
    · have counted : leadingZeroes (byte :: rest) = 0 := by simp [leadingZeroes, zero]
      rw [prependOnes, if_pos zero, counted]
      rfl

theorem base58Encode_eq {bytes : List UInt8} (some_ : bytes ≠ []) : base58Encode bytes = some (encodeBytes bytes) := by
  rw [base58Encode, bytesToBigInt_eq some_, Option.map_some, prependOnes_eq, encodeBytes]

end Browser

theorem encodeBytes_eq (bytes : List UInt8) : encodeBytes bytes = base58Text bytes := by
  rw [encodeBytes, encodeLoop_eq, List.append_nil, base58Text]

section Device
variable {output text : List Char} {index : Nat}

/-- A store to the output array, at the index that is counted up. -/
def deviceStore (state : List Char × Nat) (character : Char) : Option (List Char × Nat) :=
  if state.2 < state.1.length then some (state.1.set state.2 character, state.2 + 1) else none

/-- The stores of `device_base58_25`: the text and its terminator. -/
def deviceBase58Into (input : List UInt8) (output : List Char) : Option (List Char) :=
  ((deviceBase58 input ++ ['\x00']).foldlM deviceStore (output, 0)).map Prod.fst

/-- Stores that fit fill the array from the index on. -/
theorem deviceStores_eq (fits : index + text.length ≤ output.length) :
    text.foldlM deviceStore (output, index) =
      some (output.take index ++ text ++ output.drop (index + text.length), index + text.length) := by
  induction text generalizing output index with
  | nil => simp
  | cons character rest ih =>
    rw [List.length_cons] at fits
    have inside : index < output.length := by omega
    have stored : (output.set index character).length = output.length := List.length_set
    have further := @ih (output.set index character) (index + 1) (by omega)
    have front : (output.set index character).take (index + 1) = output.take index ++ [character] := by
      rw [List.take_add_one, List.take_set_of_le le_rfl, List.getElem?_set_self inside]
      rfl
    have back : (output.set index character).drop (index + 1 + rest.length) =
        output.drop (index + 1 + rest.length) :=
      List.drop_set_of_lt (by omega)
    rw [List.foldlM_cons, deviceStore, if_pos inside, Option.bind_eq_bind, Option.bind_some, further, front, back]
    rw [List.append_assoc, List.append_assoc, List.append_assoc, List.singleton_append, List.length_cons,
      Nat.add_assoc, Nat.add_comm 1]
    rfl

/-- The text of twenty-five bytes and its terminator fit into forty characters. -/
theorem length_base58Text {input : List UInt8} (size : input.length = 25) : (base58Text input).length < 40 := by
  have zeroes : leadingZeroes input ≤ 25 := size ▸ (List.takeWhile_prefix _).length_le
  have remaining : (input.drop (leadingZeroes input)).length = 25 - leadingZeroes input := by rw [List.length_drop, size]
  have value := (Native.bytesValue_lt (input.drop (leadingZeroes input))).trans_le (Native.power_fits _)
  have digits := Native.width_le.mpr value
  rw [Native.bytesValue_drop, Native.width, remaining] at digits
  rw [base58Text, List.length_append, List.length_replicate, List.length_map, List.length_reverse]
  omega

theorem deviceBase58Into_eq {input : List UInt8} (size : input.length = 25) (room : output.length = 40) :
    deviceBase58Into input output =
      some (base58Text input ++ '\x00' :: output.drop ((base58Text input).length + 1)) := by
  have short := length_base58Text size
  have fits : 0 + (base58Text input ++ ['\x00']).length ≤ output.length := by
    rw [List.length_append, List.length_singleton]
    omega
  rw [deviceBase58Into, Native.deviceBase58_eq size, deviceStores_eq fits]
  simp

end Device

/-- A byte string in base 58: a `1` for each leading zero byte, then the digits of the
value that remains, the first of them not zero. -/
def Base58Of (input : List UInt8) (text : Text) : Prop :=
  ∃ digits : List Nat, text = List.replicate (leadingZeroes input) '1' ++ digits.map base58Character ∧
    (∀ digit ∈ digits, digit < 58) ∧ digits.head? ≠ some 0 ∧
      Digits.value 58 digits = bytesValue (input.drop (leadingZeroes input))

theorem base58Of_text (input : List UInt8) : Base58Of input (base58Text input) := by
  refine ⟨Digits.minimal 58 (bytesValue input), rfl, Digits.minimal_lt (by omega) _, ?_, ?_⟩
  · intro zero
    have none := @Digits.zeros_minimal 58 (by omega) (bytesValue input)
    obtain ⟨rest, split⟩ := List.head?_eq_some_iff.mp zero
    rw [split] at none
    cases none
  · rw [Digits.value_minimal, Native.bytesValue_drop]

/-- The encoders give one text for every byte string, and on twenty-five bytes the
device stores it, with its terminator, inside its array. -/
theorem base58_encoders_agree :
    (∀ input : List UInt8, input ≠ [] → ∃ text, Base58Of input text ∧ Native.base58Encode input = .ok text ∧
      encodeBytes input = text ∧ Browser.base58Encode input = some text) ∧
    (∀ sha256 payload, base58checkEncodeWith sha256 payload = encodeBytes (payload ++ checksumOf sha256 payload)) ∧
    ∀ (input : List UInt8) (output : List Char), input.length = 25 → output.length = 40 →
      ∃ text, Base58Of input text ∧ Native.base58Encode input = .ok text ∧ text.length < 40 ∧
        deviceBase58Into input output = some (text ++ '\x00' :: output.drop (text.length + 1)) := by
  refine ⟨?_, fun sha256 payload => rfl, ?_⟩
  · intro input some_
    refine ⟨base58Text input, base58Of_text input, Native.base58Encode_eq input, encodeBytes_eq input, ?_⟩
    rw [Browser.base58Encode_eq some_, encodeBytes_eq]
  · intro input output size room
    exact ⟨base58Text input, base58Of_text input, Native.base58Encode_eq input, length_base58Text size,
      deviceBase58Into_eq size room⟩

end TronForge.Service
