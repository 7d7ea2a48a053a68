import Mathlib.Data.List.TakeWhile
import TronForge.Library.Digits

/-! The Base58 encoders of the host and of the device: one carry loop over a
fixed buffer of digits, which leaves the minimal base 58 expansion. -/

namespace TronForge.Native

open Library

/-- A condition on the characters of a text is decided along the text, not by trying all
characters. -/
instance (priority := high) decidableForallCharacters (text : List Char) (holds : Char → Prop)
    [DecidablePred holds] : Decidable (∀ character ∈ text, holds character) :=
  List.decidableBAll holds text

instance (priority := high) decidableExistsCharacter (text : List Char) (holds : Char → Prop)
    [DecidablePred holds] : Decidable (∃ character ∈ text, holds character) :=
  List.decidableBEx holds text

def base58Alphabet : List Char :=
  "123456789ABCDEFGHJKLMNPQRSTUVWXYZabcdefghijkmnopqrstuvwxyz".toList

def base58Character (digit : Nat) : Char := base58Alphabet.getD digit '\x00'

/-- The inner loop of both encoders, from the last digit of the buffer on:
the digits, how many of them were processed, and the carry that is left. -/
def carryDigits (length : Nat) : List Nat → Nat → Nat → List Nat × Nat × Nat
  | [], processed, carry => ([], processed, carry)
  | digit :: rest, processed, carry =>
    if carry ≠ 0 ∨ processed < length then
      match carryDigits length rest (processed + 1) ((carry + 256 * digit) / 58) with
      | (digits, processed, left) => ((carry + 256 * digit) % 58 :: digits, processed, left)
    else (digit :: rest, processed, carry)

inductive Base58Error where
  | overflowed
  deriving DecidableEq, Repr

/-- The message of the host encoder. -/
def Base58Error.message : Base58Error → String
  | .overflowed => "Base58 conversion overflowed its working buffer."

/-- The buffer, last digit first, and the number of its digits in use. -/
structure Base58Buffer where
  digits : List Nat
  length : Nat
  deriving DecidableEq, Repr

def Base58Buffer.zero (size : Nat) : Base58Buffer := ⟨List.replicate size 0, 0⟩

def hostPushByte (buffer : Base58Buffer) (byte : UInt8) : Except Base58Error Base58Buffer :=
  match carryDigits buffer.length buffer.digits 0 byte.toNat with
  | (digits, processed, carry) => if carry ≠ 0 then throw .overflowed else return ⟨digits, processed⟩

def devicePushByte (buffer : Base58Buffer) (byte : UInt8) : Base58Buffer :=
  match carryDigits buffer.length buffer.digits 0 byte.toNat with
  | (digits, processed, _) => ⟨digits, processed⟩

def leadingZeroes (input : List UInt8) : Nat := (input.takeWhile (· = 0)).length

def Base58Buffer.encoded (zeroes : Nat) (buffer : Base58Buffer) : List Char :=
  List.replicate zeroes '1' ++ (buffer.digits.take buffer.length).reverse.map base58Character

/-- `base58_encode`. -/
def base58Encode (input : List UInt8) : Except Base58Error (List Char) := do
  let bytes := input.drop (leadingZeroes input)
  let buffer ← bytes.foldlM hostPushByte (.zero (bytes.length * 138 / 100 + 1))
  return buffer.encoded (leadingZeroes input)

/-- `device_base58_25`, up to the terminator. -/
def deviceBase58 (input : List UInt8) : List Char :=
  ((input.drop (leadingZeroes input)).foldl devicePushByte (.zero 40)).encoded (leadingZeroes input)

/-- The number that a byte string denotes. -/
def bytesValue (bytes : List UInt8) : Nat := Digits.value 256 (bytes.map UInt8.toNat)

/-- The digits of a number, last digit first, in a buffer of the given size. -/
def buffered (size number : Nat) : List Nat :=
  Nat.digits 58 number ++ List.replicate (size - (Nat.digits 58 number).length) 0

def width (number : Nat) : Nat := (Nat.digits 58 number).length

@[simp] theorem width_zero : width 0 = 0 := by simp [width]

theorem width_pos {number : Nat} (positive : 0 < number) : width number = width (number / 58) + 1 := by
  simp [width, Nat.digits_def' (by omega : 1 < 58) positive]

theorem width_le {number size : Nat} : width number ≤ size ↔ number < 58 ^ size :=
  Nat.digits_length_le_iff (by omega) number

theorem buffered_succ (size number : Nat) :
    buffered (size + 1) number = number % 58 :: buffered size (number / 58) := by
  rcases Nat.eq_zero_or_pos number with rfl | positive
  · simp [buffered, List.replicate_succ]
  · have digits := Nat.digits_def' (by omega : 1 < 58) positive
    simp [buffered, digits]

/-- The inner loop multiplies the buffered number by 256 and adds the carry. -/
theorem carryDigits_buffered (length size number processed carry : Nat)
    (used : length - processed = width number) (fits : width (256 * number + carry) ≤ size) :
    carryDigits length (buffered size number) processed carry =
      (buffered size (256 * number + carry), processed + width (256 * number + carry), 0) := by
  induction size generalizing number processed carry with
  | zero =>
    have nothing : 256 * number + carry = 0 := by simpa using width_le.mp fits
    obtain ⟨rfl, rfl⟩ : number = 0 ∧ carry = 0 := by omega
    simp [buffered, carryDigits]
  | succ size ih =>
    rw [buffered_succ, carryDigits]
    split
    · rename_i goesOn
      have positive : 0 < 256 * number + carry := by
        rcases goesOn with carried | more
        · omega
        · rcases Nat.eq_zero_or_pos number with rfl | positive
          · simp at used
            omega
          · omega
      have next : 256 * (number / 58) + (carry + 256 * (number % 58)) / 58 =
          (256 * number + carry) / 58 := by omega
      have last : (carry + 256 * (number % 58)) % 58 = (256 * number + carry) % 58 := by omega
      have shorter := width_pos positive
      have usedNext : length - (processed + 1) = width (number / 58) := by
        rcases Nat.eq_zero_or_pos number with rfl | some
        · simp at used ⊢
          omega
        · have digits := width_pos some
          omega
      rw [ih (number / 58) (processed + 1) _ usedNext (by rw [next]; omega), next, last,
        buffered_succ, shorter]
      simp only [Prod.mk.injEq, true_and, and_true]
      omega
    · rename_i stops
      obtain ⟨rfl, unused⟩ : carry = 0 ∧ length ≤ processed := by omega
      have none : width number = 0 := by omega
      have nothing : number = 0 := by simpa using width_le.mp none.le
      subst nothing
      simp [buffered_succ]

/-- A buffer that holds a number. -/
def Base58Buffer.of (size number : Nat) : Base58Buffer := ⟨buffered size number, width number⟩

theorem Base58Buffer.zero_eq (size : Nat) : Base58Buffer.zero size = .of size 0 := by
  simp [Base58Buffer.zero, Base58Buffer.of, buffered]

theorem hostPushByte_of {size number : Nat} {byte : UInt8}
    (fits : width (256 * number + byte.toNat) ≤ size) :
    hostPushByte (.of size number) byte = .ok (.of size (256 * number + byte.toNat)) := by
  have carried := carryDigits_buffered (width number) size number 0 byte.toNat (by simp) fits
  simp only [hostPushByte, Base58Buffer.of, carried]
  simp [pure, Except.pure]

theorem devicePushByte_of {size number : Nat} {byte : UInt8}
    (fits : width (256 * number + byte.toNat) ≤ size) :
    devicePushByte (.of size number) byte = .of size (256 * number + byte.toNat) := by
  have carried := carryDigits_buffered (width number) size number 0 byte.toNat (by simp) fits
  simp only [devicePushByte, Base58Buffer.of, carried, Nat.zero_add]

/-- The number read after more bytes. -/
def readOn (number : Nat) (bytes : List UInt8) : Nat :=
  number * 256 ^ bytes.length + bytesValue bytes

theorem readOn_cons (number : Nat) (byte : UInt8) (rest : List UInt8) :
    readOn number (byte :: rest) = readOn (256 * number + byte.toNat) rest := by
  simp only [readOn, bytesValue, List.map_cons, Digits.value_cons, List.length_map,
    List.length_cons, pow_succ]
  ring

theorem le_readOn (number : Nat) (bytes : List UInt8) : number ≤ readOn number bytes :=
  (Nat.le_mul_of_pos_right number (Nat.pow_pos (by omega))).trans (Nat.le_add_right _ _)

theorem host_foldlM {size number : Nat} {bytes : List UInt8} (fits : readOn number bytes < 58 ^ size) :
    bytes.foldlM hostPushByte (.of size number) = Except.ok (.of size (readOn number bytes)) := by
  induction bytes generalizing number with
  | nil => simp [readOn, bytesValue, pure, Except.pure]
  | cons byte rest ih =>
    rw [readOn_cons] at fits ⊢
    have small := (le_readOn (256 * number + byte.toNat) rest).trans_lt fits
    rw [List.foldlM_cons, hostPushByte_of (width_le.mpr small)]
    exact ih fits

theorem device_foldl {size number : Nat} {bytes : List UInt8} (fits : readOn number bytes < 58 ^ size) :
    bytes.foldl devicePushByte (.of size number) = .of size (readOn number bytes) := by
  induction bytes generalizing number with
  | nil => simp [readOn, bytesValue]
  | cons byte rest ih =>
    rw [readOn_cons] at fits ⊢
    have small := (le_readOn (256 * number + byte.toNat) rest).trans_lt fits
    rw [List.foldl_cons, devicePushByte_of (width_le.mpr small)]
    exact ih fits

/-- One `1` for each leading zero byte, then the base 58 digits of the number. -/
def base58Text (input : List UInt8) : List Char :=
  List.replicate (leadingZeroes input) '1' ++
    (Nat.digits 58 (bytesValue input)).reverse.map base58Character

theorem Base58Buffer.encoded_of {zeroes size number : Nat} :
    (Base58Buffer.of size number).encoded zeroes =
      List.replicate zeroes '1' ++ (Nat.digits 58 number).reverse.map base58Character := by
  simp [Base58Buffer.encoded, Base58Buffer.of, buffered, width]

theorem bytes_bounded (bytes : List UInt8) : ∀ digit ∈ bytes.map UInt8.toNat, digit < 256 := by
  intro digit member
  obtain ⟨byte, -, rfl⟩ := List.mem_map.mp member
  exact byte.toNat_lt

theorem bytesValue_lt (bytes : List UInt8) : bytesValue bytes < 256 ^ bytes.length := by
  simpa [bytesValue] using Digits.value_lt (bytes_bounded bytes)

theorem bytesValue_cons (byte : UInt8) (rest : List UInt8) :
    bytesValue (byte :: rest) = byte.toNat * 256 ^ rest.length + bytesValue rest := by
  simp [bytesValue, Digits.value_cons]

theorem bytesValue_injective {left right : List UInt8} (same : left.length = right.length)
    (equal : bytesValue left = bytesValue right) : left = right := by
  have mapped := Digits.value_injective (by simpa using same) (bytes_bounded left) (bytes_bounded right)
    equal
  exact List.map_injective_iff.mpr (fun _ _ => UInt8.toNat_inj.mp) mapped

theorem bytesValue_cons_lt {byte other : UInt8} {left right : List UInt8} (below : byte < other)
    (same : left.length = right.length) : bytesValue (byte :: left) < bytesValue (other :: right) :=
  Digits.value_cons_lt (UInt8.lt_iff_toNat_lt.mp below) (by simpa using same) (bytes_bounded left)

theorem bytesValue_append (left right : List UInt8) :
    bytesValue (left ++ right) = bytesValue left * 256 ^ right.length + bytesValue right := by
  simp [bytesValue, Digits.value_append]

/-- Leading zero bytes do not change the number. -/
theorem bytesValue_drop (input : List UInt8) :
    bytesValue (input.drop (leadingZeroes input)) = bytesValue input := by
  have zeroes : input.takeWhile (· = 0) = List.replicate (leadingZeroes input) 0 := by
    rw [List.eq_replicate_iff]
    exact ⟨rfl, fun byte member => by simpa using List.mem_takeWhile_imp member⟩
  have split := bytesValue_append (input.take (leadingZeroes input)) (input.drop (leadingZeroes input))
  have taken : input.take (leadingZeroes input) = List.replicate (leadingZeroes input) 0 := by
    rw [← zeroes]
    exact (List.prefix_iff_eq_take.mp (List.takeWhile_prefix _)).symm
  have nothing : bytesValue (List.replicate (leadingZeroes input) 0) = 0 := by
    simp [bytesValue, Digits.value_replicate_zero]
  rw [List.take_append_drop, taken, nothing, Nat.zero_mul, Nat.zero_add] at split
  exact split.symm

/-- The host sizes its buffer so that every input of the length fits. -/
theorem power_fits (length : Nat) : 256 ^ length ≤ 58 ^ (length * 138 / 100 + 1) := by
  have fifty : 256 ^ 50 ≤ 58 ^ 69 := by norm_num
  have remainder : ∀ length < 50, 256 ^ length ≤ 58 ^ (length * 138 / 100 + 1) := by decide +kernel
  have split : length = 50 * (length / 50) + length % 50 := (Nat.div_add_mod length 50).symm
  have exponent : length * 138 / 100 + 1 = 69 * (length / 50) + (length % 50 * 138 / 100 + 1) := by omega
  calc 256 ^ length = (256 ^ 50) ^ (length / 50) * 256 ^ (length % 50) := by
        rw [← pow_mul, ← pow_add, ← split]
    _ ≤ (58 ^ 69) ^ (length / 50) * 58 ^ (length % 50 * 138 / 100 + 1) :=
        Nat.mul_le_mul (Nat.pow_le_pow_left fifty _) (remainder _ (Nat.mod_lt _ (by omega)))
    _ = 58 ^ (length * 138 / 100 + 1) := by rw [← pow_mul, ← pow_add, ← exponent]

theorem base58Encode_eq (input : List UInt8) : base58Encode input = .ok (base58Text input) := by
  have fits : readOn 0 (input.drop (leadingZeroes input)) <
      58 ^ ((input.drop (leadingZeroes input)).length * 138 / 100 + 1) := by
    simp only [readOn, Nat.zero_mul, Nat.zero_add]
    exact (bytesValue_lt _).trans_le (power_fits _)
  simp only [base58Encode, Base58Buffer.zero_eq, host_foldlM fits]
  simp [Base58Buffer.encoded_of, base58Text, readOn, bytesValue_drop, bind, Except.bind, pure, Except.pure]

theorem deviceBase58_eq {input : List UInt8} (size : input.length = 25) :
    deviceBase58 input = base58Text input := by
  have shorter : (input.drop (leadingZeroes input)).length ≤ 25 := by simp [size]
  have fits : readOn 0 (input.drop (leadingZeroes input)) < 58 ^ 40 := by
    simp only [readOn, Nat.zero_mul, Nat.zero_add]
    calc bytesValue (input.drop (leadingZeroes input)) < 256 ^ (input.drop (leadingZeroes input)).length :=
          bytesValue_lt _
      _ ≤ 256 ^ 25 := Nat.pow_le_pow_right (by omega) shorter
      _ ≤ 58 ^ 40 := by norm_num
  simp only [deviceBase58, Base58Buffer.zero_eq, device_foldl fits]
  simp [Base58Buffer.encoded_of, base58Text, readOn, bytesValue_drop]

end TronForge.Native
