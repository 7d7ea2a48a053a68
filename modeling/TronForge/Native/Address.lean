import TronForge.Native.Pattern

/-! TRON addresses as numbers: the 25 bytes of a payload and its checksum are 34
Base58 characters that start with `T`. -/

namespace TronForge.Native

open Library

variable {payload checksum : List UInt8} {text : Text}

/-- The digits of Base58 characters, and the number of a text of them. -/
def base58Digits (text : Text) : List Nat := text.map base58Alphabet.idxOf

def textValue (text : Text) : Nat := Digits.value 58 (base58Digits text)

theorem base58Digits_lt {text : Text} (known : ∀ character ∈ text, character ∈ base58Alphabet) :
    ∀ digit ∈ base58Digits text, digit < 58 := by
  intro digit member
  obtain ⟨character, inside, rfl⟩ := List.mem_map.mp member
  have below := List.idxOf_lt_length_iff.mpr (known character inside)
  exact below

theorem textValue_lt {text : Text} (known : ∀ character ∈ text, character ∈ base58Alphabet) :
    textValue text < 58 ^ text.length := by
  have small := Digits.value_lt (base58Digits_lt known)
  simpa [textValue, base58Digits] using small

/-- The first 21 bytes of a TRON address. -/
structure TronPayload (payload : List UInt8) : Prop where
  size : payload.length = 21
  version : payload.head? = some 0x41

theorem TronPayload.bounds (tron : TronPayload payload) (size : checksum.length = 4) :
    65 * 256 ^ 24 ≤ bytesValue (payload ++ checksum) ∧ bytesValue (payload ++ checksum) < 66 * 256 ^ 24 := by
  obtain ⟨length, version⟩ := tron
  cases payload with
  | nil => simp at version
  | cons byte rest =>
    obtain rfl : byte = 0x41 := by simpa using version
    have tail : (rest ++ checksum).length = 24 := by
      simp at length ⊢
      omega
    have small := bytesValue_lt (rest ++ checksum)
    rw [tail] at small
    have lead : (0x41 : UInt8).toNat = 65 := rfl
    rw [List.cons_append, bytesValue_cons, tail, lead]
    omega

theorem base58Character_known {digit : Nat} (small : digit < 58) :
    base58Character digit ∈ base58Alphabet ∧ base58Alphabet.idxOf (base58Character digit) = digit := by
  have all : ∀ digit < 58, base58Character digit ∈ base58Alphabet ∧
      base58Alphabet.idxOf (base58Character digit) = digit := by decide +kernel
  exact all digit small

theorem base58Character_idxOf {character : Char} (known : character ∈ base58Alphabet) :
    base58Character (base58Alphabet.idxOf character) = character := by
  have inside : base58Alphabet.idxOf character < base58Alphabet.length := List.idxOf_lt_length_iff.mpr known
  simp [base58Character, List.getD, List.getElem?_eq_getElem inside]

theorem base58Digits_known {text : Text} (known : ∀ character ∈ text, character ∈ base58Alphabet) :
    (base58Digits text).map base58Character = text := by
  rw [base58Digits, List.map_map]
  conv_rhs => rw [← List.map_id text]
  exact List.map_congr_left fun character member => base58Character_idxOf (known character member)

theorem base58Digits_map {digits : List Nat} (small : ∀ digit ∈ digits, digit < 58) :
    (∀ character ∈ digits.map base58Character, character ∈ base58Alphabet) ∧
      base58Digits (digits.map base58Character) = digits := by
  constructor
  · intro character member
    obtain ⟨digit, inside, rfl⟩ := List.mem_map.mp member
    exact (base58Character_known (small digit inside)).1
  · rw [base58Digits, List.map_map]
    conv_rhs => rw [← List.map_id digits]
    exact List.map_congr_left fun digit inside => (base58Character_known (small digit inside)).2

/-- The 34 characters of an address, as the digits of its number. -/
structure AddressText (text : Text) (number : Nat) : Prop where
  length : text.length = 34
  known : ∀ character ∈ text, character ∈ base58Alphabet
  number : textValue text = number

theorem AddressText.digits {number : Nat} (address : AddressText text number) :
    (base58Digits text).length = 34 := by
  simp [base58Digits, address.length]

/-- Base58 text starts with another one when its number is in the interval. -/
theorem AddressText.take_iff {number : Nat} (address : AddressText text number) (leading : Text)
    (shorter : leading.length ≤ 34) (known : ∀ character ∈ leading, character ∈ base58Alphabet) :
    text.take leading.length = leading ↔
      textValue leading * 58 ^ (34 - leading.length) ≤ number ∧
      number < (textValue leading + 1) * 58 ^ (34 - leading.length) := by
  have digits : text.take leading.length = leading ↔
      (base58Digits text).take (base58Digits leading).length = base58Digits leading := by
    constructor
    · intro same
      have mapped := congrArg base58Digits same
      simpa [base58Digits] using mapped
    · intro same
      have mapped := congrArg (List.map base58Character) same
      rw [List.map_take, base58Digits_known address.known, base58Digits_known known] at mapped
      simpa [base58Digits] using mapped
  have lengths : (base58Digits leading).length = leading.length := by simp [base58Digits]
  rw [digits, Digits.take_eq_iff (base58Digits_lt address.known) (base58Digits_lt known) (by omega)
    (by rw [address.digits, lengths]; exact shorter), address.digits, lengths]
  have value : Digits.value 58 (base58Digits text) = number := address.number
  rw [value]
  rfl

theorem base58Text_address (tron : TronPayload payload) (size : checksum.length = 4) :
    AddressText (base58Text (payload ++ checksum)) (bytesValue (payload ++ checksum)) := by
  obtain ⟨low, high⟩ := tron.bounds size
  have zeroes : leadingZeroes (payload ++ checksum) = 0 := by
    obtain ⟨-, version⟩ := tron
    cases payload with
    | nil => simp at version
    | cons byte rest =>
      obtain rfl : byte = 0x41 := by simpa using version
      rfl
  have width_ : (Nat.digits 58 (bytesValue (payload ++ checksum))).length = 34 := by
    have atMost : width (bytesValue (payload ++ checksum)) ≤ 34 :=
      width_le.mpr (high.trans_le (by norm_num))
    have atLeast : ¬ width (bytesValue (payload ++ checksum)) ≤ 33 := by
      rw [width_le, Nat.not_lt]
      exact le_trans (by norm_num) low
    unfold width at atMost atLeast
    omega
  have text : base58Text (payload ++ checksum) =
      (Nat.digits 58 (bytesValue (payload ++ checksum))).reverse.map base58Character := by
    simp [base58Text, zeroes]
  have small : ∀ digit ∈ (Nat.digits 58 (bytesValue (payload ++ checksum))).reverse, digit < 58 := by
    intro digit member
    exact Nat.digits_lt_base (by omega) (List.mem_reverse.mp member)
  obtain ⟨known, digits⟩ := base58Digits_map small
  rw [text]
  refine ⟨by simp [width_], known, ?_⟩
  rw [textValue, digits, Digits.value_eq_ofDigits, List.reverse_reverse, Nat.ofDigits_digits]

/-- Every TRON address starts with `T`. -/
theorem base58Text_first (tron : TronPayload payload) (size : checksum.length = 4) :
    charAt (base58Text (payload ++ checksum)) 0 = 'T' := by
  obtain ⟨low, high⟩ := tron.bounds size
  have address := base58Text_address tron size
  have starts : (base58Text (payload ++ checksum)).take ['T'].length = ['T'] := by
    rw [address.take_iff ['T'] (by simp) (by decide)]
    have value : textValue ['T'] = 26 := by decide
    rw [value]
    constructor
    · exact le_trans (by norm_num) low
    · exact high.trans_le (by norm_num)
  have inside : 0 < (base58Text (payload ++ checksum)).length := by simp [address.length]
  have front : (base58Text (payload ++ checksum))[0]? = ['T'][0]? := by
    rw [← starts, List.getElem?_take, if_pos (by simp)]
  rw [getElem?_charAt inside] at front
  exact Option.some.inj front

/-- The second character of every TRON address may be asked for. -/
theorem base58Text_second (tron : TronPayload payload) (size : checksum.length = 4) :
    charAt (base58Text (payload ++ checksum)) 1 ∈ allowedFirstCustom := by
  obtain ⟨low, high⟩ := tron.bounds size
  have address := base58Text_address tron size
  have first := base58Text_first tron size
  generalize base58Text (payload ++ checksum) = text at address first ⊢
  obtain ⟨front, second, rest, rfl⟩ : ∃ front second rest, text = front :: second :: rest := by
    match text, address.length with
    | front :: second :: rest, _ => exact ⟨front, second, rest, rfl⟩
  obtain rfl : front = 'T' := first
  have known : second ∈ base58Alphabet := address.known second (by simp)
  have leading := (address.take_iff ['T', second] (by simp) (by
    intro character member
    exact address.known character (List.mem_of_mem_take (by simpa using member : character ∈ List.take 2 _)))).mp rfl
  have value : textValue ['T', second] = 26 * 58 + base58Alphabet.idxOf second := by
    simp [textValue, base58Digits, Digits.value_cons]
    decide
  rw [value] at leading
  have bounds : 8 ≤ base58Alphabet.idxOf second ∧ base58Alphabet.idxOf second ≤ 32 := by
    norm_num at leading low high
    omega
  have all : ∀ digit < 33, 8 ≤ digit → base58Character digit ∈ allowedFirstCustom := by decide
  rw [← base58Character_idxOf known]
  exact all _ (by omega) bounds.1

theorem bytesValue_take {bytes : List UInt8} (size : bytes.length = 25) :
    bytesValue (bytes.take 21) = bytesValue bytes / 256 ^ 4 := by
  have taken := Digits.value_take (bytes_bounded bytes) 21
  rw [← List.map_take, List.length_map, size] at taken
  exact taken

theorem bytesValue_payload (payload : List UInt8) (size : checksum.length = 4) :
    bytesValue (payload ++ checksum) / 256 ^ 4 = bytesValue payload ∧
    bytesValue (payload ++ checksum) = bytesValue payload * 256 ^ 4 + bytesValue checksum ∧
    bytesValue checksum < 256 ^ 4 := by
  have split := bytesValue_append payload checksum
  have small := bytesValue_lt checksum
  rw [size] at split small
  refine ⟨?_, split, small⟩
  rw [split, Nat.mul_comm, Nat.mul_add_div (by omega), Nat.div_eq_of_lt small, Nat.add_zero]

end TronForge.Native
