import TronForge.Library.DecimalText
import TronForge.Service.Base58Check
import TronForge.Service.Validators

/-! The checks of `patterns` and `server_wallet` that a submitted candidate passes
before it is stored, over Python's readers of hexadecimal text and the curve of the
key library. -/

namespace TronForge.Service

open Library
open Native (Text nibble bytesValue bytesToHex scalarBytes scalarHex CurvePoint generator groupOrder decodePoint
  pointBytes)

/-- The whitespace of `bytes.fromhex` and `int` on ASCII texts. -/
def asciiSpace (character : Char) : Bool := [' ', '\t', '\n', '\r', '\x0b', '\x0c'].contains character

def nonHexadecimal (position : Nat) : String :=
  "non-hexadecimal number found in fromhex() arg at position " ++ toString position

/-- What `bytes.fromhex` reads from a position on. -/
def fromHexAt : Nat → Text → Except String (List UInt8)
  | _, [] => return []
  | position, [single] => if asciiSpace single then return [] else
    throw (nonHexadecimal (if (nibble single).isSome then position + 1 else position))
  | position, high :: low :: rest =>
    if asciiSpace high then fromHexAt (position + 1) (low :: rest)
    else
      match nibble high, nibble low with
      | some highDigit, some lowDigit =>
        (fromHexAt (position + 2) rest).map (UInt8.ofNat (highDigit * 16 + lowDigit) :: ·)
      | none, _ => throw (nonHexadecimal position)
      | some _, none => throw (nonHexadecimal (position + 1))

/-- `bytes.fromhex`. -/
def fromHex (text : Text) : Except String (List UInt8) := fromHexAt 0 text

/-- Hexadecimal digits; single underscores may stand between them. -/
def hexDigits : (afterDigit : Bool) → Nat → Text → Option Nat
  | afterDigit, value, [] => if afterDigit then some value else none
  | afterDigit, value, character :: rest =>
    if character = '_' then if afterDigit then hexDigits false value rest else none
    else (nibble character).bind fun digit => hexDigits true (value * 16 + digit) rest

def strip (text : Text) : Text := ((text.dropWhile asciiSpace).reverse.dropWhile asciiSpace).reverse

/-- The character that `int` reads: other digits and spaces become those of ASCII. -/
def plainCharacter (digits : DigitSet) (character : Char) : Char :=
  if character.toNat < 127 then character
  else if pythonSpace character then ' '
  else ((digits.value character).map Nat.digitChar).getD '?'

/-- `int(text, 16)`. -/
def intBase16 (digits : DigitSet) (text : Text) : Except String Int :=
  let trimmed := strip (text.map (plainCharacter digits))
  let signed := trimmed.head? == some '-' || trimmed.head? == some '+'
  let unsigned := if signed then trimmed.tail else trimmed
  let marked := "0x".toList.isPrefixOf unsigned || "0X".toList.isPrefixOf unsigned
  let body := if marked then unsigned.drop 2 else unsigned
  match hexDigits false 0 (if marked && body.head? == some '_' then body.tail else body) with
  | none => throw ("invalid literal for int() with base 16: '" ++ String.ofList text ++ "'")
  | some value => return if trimmed.head? == some '-' then -(value : Int) else value

/-- `PublicKey(data)`. -/
def parsePublicKey (data : List UInt8) : Except String CurvePoint :=
  match decodePoint data with
  | none => throw "The public key could not be parsed or is invalid."
  | some point => return point

/-- `PublicKey.add`. -/
def addScalar (point : CurvePoint) (scalar : List UInt8) : Except String CurvePoint :=
  if 32 < scalar.length then throw "negative count"
  else
    let sum := point + bytesValue scalar • generator
    if groupOrder ≤ bytesValue scalar ∨ sum = 0 then
      throw "The tweak was out of range, or the resulting public key is invalid."
    else return sum

/-- The public key of `PrivateKey(secret)`. -/
def privateKeyPoint (secret : List UInt8) : Except String CurvePoint :=
  if 0 < bytesValue secret ∧ bytesValue secret < groupOrder then return bytesValue secret • generator
  else throw ("Secret scalar must be greater than 0 and less than " ++ toString groupOrder ++ ".")

/-- `derive_candidate_address`. -/
def deriveCandidateAddress (clientPublicKey offset : Text) : Except String Text := do
  let data ← fromHex clientPublicKey
  let key ← parsePublicKey data
  let scalar ← fromHex offset
  let finalPublicKey ← addScalar key scalar
  return tronAddressFromPublicKey (pointBytes finalPublicKey)

/-- `verify_candidate`. -/
def verifyCandidate (clientPublicKey offset submittedAddress : Text) (spec : MatchSpec) : Except String Text :=
  if !validateTronAddress submittedAddress then throw "Candidate is not a valid TRON Base58Check address."
  else do
    let derivedAddress ← deriveCandidateAddress clientPublicKey offset
    if derivedAddress ≠ submittedAddress then throw "Candidate does not match the client public point and offset."
    else if !addressMatchesSpec derivedAddress spec then
      throw "Candidate does not satisfy the requested prefix and suffix."
    else return derivedAddress

/-- `combine_private_key`. -/
def combinePrivateKey (digits : DigitSet) (basePrivateKey offset : Text) : Except String Text := do
  let base ← intBase16 digits basePrivateKey
  let added ← intBase16 digits offset
  let combined := (base + added) % (groupOrder : Int)
  if combined = 0 then throw "The combined private key is outside the valid secp256k1 range."
  else return scalarHex combined.toNat

/-- `verify_private_key_address`. -/
def verifyPrivateKeyAddress (privateKey expectedAddress : Text) : Except String Unit := do
  let secret ← fromHex privateKey
  let point ← privateKeyPoint secret
  if tronAddressFromPublicKey (pointBytes point) ≠ expectedAddress then
    throw "The combined private key does not produce the verified address."
  else return ()

/-- The checks of the server around a secret box. -/
def serverVerification (digits : DigitSet) (decrypt : String → Option String) (encrypt : Nat → String → String) :
    Generator.Verification where
  verifyCandidate clientPublicKey offset submittedAddress spec :=
    (verifyCandidate clientPublicKey.toList offset.toList submittedAddress.toList
      ⟨spec.version, spec.prefixOptions, spec.suffixOptions⟩).map String.ofList
  combinePrivateKey basePrivateKey offset :=
    (combinePrivateKey digits basePrivateKey.toList offset.toList).map String.ofList
  verifyPrivateKeyAddress privateKey expectedAddress :=
    verifyPrivateKeyAddress privateKey.toList expectedAddress.toList
  decrypt := decrypt
  encrypt := encrypt

theorem nibble_space {character : Char} (digit : (nibble character).isSome = true) :
    asciiSpace character = false := by
  by_contra space
  simp only [asciiSpace, Bool.not_eq_false, List.contains_iff_mem, List.mem_cons, List.not_mem_nil, or_false] at space
  rcases space with rfl | rfl | rfl | rfl | rfl | rfl <;> cases digit

theorem nibble_ascii {character : Char} (digit : (nibble character).isSome = true) : character.toNat < 127 := by
  have below {last : Char} (small : last.toNat < 127) (most : character ≤ last) : character.toNat < 127 :=
    lt_of_le_of_lt (UInt32.le_iff_toNat_le.mp most) small
  unfold nibble at digit
  split at digit
  · rename_i range
    exact below (by decide) range.2
  · split at digit
    · rename_i range
      exact below (by decide) range.2
    · split at digit
      · rename_i range
        exact below (by decide) range.2
      · cases digit

theorem fromHexAt_bytesToHex (bytes : List UInt8) (position : Nat) :
    fromHexAt position (bytesToHex bytes) = .ok bytes := by
  induction bytes generalizing position with
  | nil => rfl
  | cons byte rest ih =>
    have bound := byte.toNat_lt
    have split : bytesToHex (byte :: rest) =
        Native.hexCharacter (byte.toNat / 16) :: Native.hexCharacter (byte.toNat % 16) :: bytesToHex rest := rfl
    have high := Native.nibble_hexCharacter (by omega : byte.toNat / 16 < 16)
    have low := Native.nibble_hexCharacter (by omega : byte.toNat % 16 < 16)
    have text : asciiSpace (Native.hexCharacter (byte.toNat / 16)) = false := nibble_space (by rw [high]; rfl)
    rw [split, fromHexAt, high, low, text]
    simp [ih, Nat.div_add_mod', Except.map]

/-- Bytes come back from their text. -/
theorem fromHex_bytesToHex (bytes : List UInt8) : fromHex (bytesToHex bytes) = .ok bytes :=
  fromHexAt_bytesToHex bytes 0

theorem fromHex_scalarHex (scalar : Nat) : fromHex (scalarHex scalar) = .ok (scalarBytes scalar) := by
  rw [scalarHex, fromHex_bytesToHex]

/-- Hexadecimal digits are read as they are. -/
theorem map_plainCharacter (digits : DigitSet) {text : Text}
    (known : ∀ character ∈ text, (nibble character).isSome = true) : text.map (plainCharacter digits) = text := by
  have same : ∀ character ∈ text, plainCharacter digits character = character := by
    intro character member
    exact if_pos (nibble_ascii (known character member))
  rw [List.map_congr_left same, List.map_id']

theorem hexDigits_map {digits : List Nat} (small : ∀ digit ∈ digits, digit < 16) (value : Nat) :
    hexDigits true value (digits.map Native.hexCharacter) =
      some (value * 16 ^ digits.length + Digits.value 16 digits) := by
  induction digits generalizing value with
  | nil => simp [hexDigits]
  | cons digit rest ih =>
    have read := Native.nibble_hexCharacter (small digit List.mem_cons_self)
    have plain : Native.hexCharacter digit ≠ '_' := by
      intro same
      rw [same] at read
      cases read
    rw [List.map_cons, hexDigits, if_neg plain, read, Option.bind_some,
      ih fun other member => small other (List.mem_cons_of_mem _ member), Digits.value_cons, List.length_cons]
    congr 1
    ring

theorem dropWhile_digits {text : Text} (digits : ∀ character ∈ text, (nibble character).isSome = true) :
    text.dropWhile asciiSpace = text := by
  cases text with
  | nil => rfl
  | cons character rest =>
    rw [List.dropWhile_cons_of_neg]
    rw [nibble_space (digits character List.mem_cons_self)]
    exact Bool.false_ne_true

theorem strip_digits {text : Text} (digits : ∀ character ∈ text, (nibble character).isSome = true) :
    strip text = text := by
  have reversed := @dropWhile_digits text.reverse fun character member =>
    digits character (List.mem_reverse.mp member)
  rw [strip, dropWhile_digits digits, reversed, List.reverse_reverse]

theorem head_digits {text : Text} (digits : ∀ character ∈ text, (nibble character).isSome = true) {mark : Char}
    (other : nibble mark = none) : (text.head? == some mark) = false := by
  rw [beq_eq_false_iff_ne]
  intro marked
  have digit := digits mark (List.mem_of_head? marked)
  rw [other] at digit
  cases digit

theorem marked_digits {text : Text} (digits : ∀ character ∈ text, (nibble character).isSome = true) {mark : Char}
    (other : nibble mark = none) : [('0' : Char), mark].isPrefixOf text = false := by
  rw [Bool.eq_false_iff, ne_eq, List.isPrefixOf_iff_prefix]
  intro marked
  have digit := digits mark (marked.subset (List.mem_cons_of_mem _ List.mem_cons_self))
  rw [other] at digit
  cases digit

/-- `int` reads plain hexadecimal digits. -/
theorem intBase16_digits (set : DigitSet) {digits : List Nat} (small : ∀ digit ∈ digits, digit < 16) (some_ : digits ≠ []) :
    intBase16 set (digits.map Native.hexCharacter) = .ok (Digits.value 16 digits : Int) := by
  have known : ∀ character ∈ digits.map Native.hexCharacter, (nibble character).isSome = true := by
    intro character member
    obtain ⟨digit, inside, rfl⟩ := List.mem_map.mp member
    rw [Native.nibble_hexCharacter (small digit inside)]
    rfl
  have read : hexDigits false 0 (digits.map Native.hexCharacter) = some (Digits.value 16 digits) := by
    cases digits with
    | nil => exact absurd rfl some_
    | cons digit rest =>
      have whole := hexDigits_map small 0
      rw [Nat.zero_mul, Nat.zero_add] at whole
      rw [← whole]
      have plain : Native.hexCharacter digit ≠ '_' := by
        intro same
        have digit_ := known (Native.hexCharacter digit) (by simp)
        rw [same] at digit_
        cases digit_
      simp only [List.map_cons, hexDigits, if_neg plain]
  have lower : "0x".toList.isPrefixOf (digits.map Native.hexCharacter) = false := marked_digits known (by decide)
  have upper : "0X".toList.isPrefixOf (digits.map Native.hexCharacter) = false := marked_digits known (by decide)
  simp only [intBase16, map_plainCharacter set known, strip_digits known, head_digits known (by decide : nibble '-' = none),
    head_digits known (by decide : nibble '+' = none), Bool.or_self, Bool.false_eq_true, if_false, lower, upper,
    Bool.false_and, read]
  rfl

theorem intBase16_scalarHex (digits : DigitSet) {scalar : Nat} (fits : scalar < 256 ^ 32) :
    intBase16 digits (scalarHex scalar) = .ok (scalar : Int) := by
  have some_ : Digits.fixed 16 64 scalar ≠ [] := by
    rw [ne_eq, ← List.length_eq_zero_iff, Digits.length_fixed]
    omega
  have power : (16 : Nat) ^ 64 = 256 ^ 32 := by norm_num
  rw [Native.scalarHex_digits, intBase16_digits digits (Digits.fixed_lt (by omega) 64 scalar) some_,
    Digits.value_fixed (fits.trans_eq power.symm)]

end TronForge.Service
