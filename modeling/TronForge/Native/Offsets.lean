import TronForge.Library.Outcome
import TronForge.Native.GroupOrder
import TronForge.Native.Prefilter

/-! Offsets on the host: hexadecimal texts, the two number syntaxes of a range start,
and the addition that keeps an offset below the group order. -/

namespace TronForge.Native

open Library

/-- What the host throws. -/
inductive HostError where
  | oddHex
  | nonHex
  | emptyStart
  | startSyntax
  | serialize
  | pattern (error : PatternError)
  | bound (error : BoundError)
  | address (error : Base58Error)
  | noCandidates
  | tooMany
  | fleetTooMany
  | noDevices
  | keySize
  | invalidKey
  | infiniteKey
  | privateKeySize
  | privateKeyRange
  | offsetRange
  | infiniteOffset
  | winningRange
  | startLow
  | crossesOrder
  | pointSize
  | noActiveBlocks
  | rejected
  | cuda (call : String)
  | recovery
  | recoveredMismatch
  | chunkCount
  | noGeneration
  | bandExhausted
  | attemptsOverflow
  deriving DecidableEq, Repr

def HostError.message : HostError → String
  | .oddHex => "Hexadecimal input must contain an even number of characters."
  | .nonHex => "Input contains a non-hexadecimal character."
  | .emptyStart => "Range start cannot be empty."
  | .startSyntax => "Range start must be a decimal number or hexadecimal scalar."
  | .serialize => "OpenSSL could not serialize the scalar."
  | .pattern error => error.message
  | .bound error => error.message
  | .address error => error.message
  | .noCandidates => "Range count must be at least 1."
  | .tooMany => "The validation CUDA search is limited to 67108864 candidates per launch."
  | .fleetTooMany => "Fleet range count exceeds 67108864 candidates per active CUDA device."
  | .noDevices => "No CUDA devices are available for fleet search."
  | .keySize => "Public key must be compressed (33 bytes) or uncompressed (65 bytes)."
  | .invalidKey => "Public key is not a valid secp256k1 point."
  | .infiniteKey => "Public key is not a finite secp256k1 point."
  | .privateKeySize => "Private key must be exactly 64 hexadecimal characters."
  | .privateKeyRange => "Private key is outside the secp256k1 scalar range."
  | .offsetRange => "Offset is outside the secp256k1 scalar range."
  | .infiniteOffset => "OpenSSL could not derive a finite offset public point."
  | .winningRange => "Winning offset is outside the secp256k1 scalar range."
  | .startLow => "Range start must be at least 1."
  | .crossesOrder => "Search range crosses the secp256k1 scalar order."
  | .pointSize => "Expected a 64-byte uncompressed public point."
  | .noActiveBlocks => "CUDA occupancy calculation returned zero active blocks."
  | .rejected => "CPU verification rejected the CUDA winning candidate."
  | .cuda call => call
  | .recovery => "Winning offset did not produce a valid private key."
  | .recoveredMismatch => "Recovered private key does not match the GPU result."
  | .chunkCount => "--chunk-count must be between 1 and 67108864 candidates per GPU."
  | .noGeneration => "No CUDA devices are available for wallet generation."
  | .bandExhausted => "A GPU's reserved non-overlapping offset band was exhausted."
  | .attemptsOverflow => "Wallet-generation attempt counter overflowed."

def hexCharacter (digit : Nat) : Char := "0123456789abcdef".toList.getD digit '0'

/-- The lambda of `hex_to_bytes`, and `host_hex_nibble`. -/
def nibble (character : Char) : Option Nat :=
  if '0' ≤ character ∧ character ≤ '9' then some (character.toNat - '0'.toNat)
  else if 'a' ≤ character ∧ character ≤ 'f' then some (character.toNat - 'a'.toNat + 10)
  else if 'A' ≤ character ∧ character ≤ 'F' then some (character.toNat - 'A'.toNat + 10)
  else none

/-- The bytes of pairs of nibbles. -/
def hexPairs : Text → Except HostError (List UInt8)
  | high :: low :: rest =>
    match nibble high, nibble low with
    | some highDigit, some lowDigit =>
      (hexPairs rest).map (UInt8.ofNat (highDigit * 16 + lowDigit) :: ·)
    | _, _ => throw .nonHex
  | _ => return []

def hexToBytes (value : Text) : Except HostError (List UInt8) :=
  if value.length % 2 ≠ 0 then throw .oddHex else hexPairs value

def bytesToHex (bytes : List UInt8) : Text :=
  bytes.flatMap fun byte => [hexCharacter (byte.toNat / 16), hexCharacter (byte.toNat % 16)]

def decimalDigit (character : Char) : Option Nat :=
  if '0' ≤ character ∧ character ≤ '9' then some (character.toNat - '0'.toNat) else none

/-- `BN_hex2bn` and `BN_dec2bn`: an optional sign and the digits in front; no digit
is an error, and what follows the digits is ignored. -/
def bnParse (base : Nat) (digit : Char → Option Nat) (value : Text) : Option Int :=
  let negative := value.head? == some '-'
  let digits := ((if negative then value.tail else value).takeWhile fun character =>
    (digit character).isSome).filterMap digit
  if digits = [] then none
  else if negative then some (-(Digits.value base digits : Int)) else some (Digits.value base digits : Int)

def hexLetter (character : Char) : Bool :=
  decide ('a' ≤ character ∧ character ≤ 'f') || decide ('A' ≤ character ∧ character ≤ 'F')

/-- `parse_range_start`. -/
def parseRangeStart (value : Text) : Except HostError Int :=
  if value = [] then throw .emptyStart
  else
    let marked := "0x".toList.isPrefixOf value || "0X".toList.isPrefixOf value
    let digits := if marked then value.drop 2 else value
    let parseAsHex := marked || value.length == 64 || value.any hexLetter
    match if parseAsHex then bnParse 16 nibble digits else bnParse 10 decimalDigit digits with
    | none => throw .startSyntax
    | some scalar => return scalar

/-- Thirty-two big-endian bytes. -/
def scalarBytes (scalar : Nat) : List UInt8 := (Digits.fixed 256 32 scalar).map UInt8.ofNat

/-- The text of a scalar that fits: `scalar_hex` of the server, too. -/
def scalarHex (scalar : Nat) : Text := bytesToHex (scalarBytes scalar)

/-- `scalar_to_hex`. -/
def scalarToHex (scalar : Int) : Except HostError Text :=
  if scalar.natAbs < 256 ^ 32 then return scalarHex scalar.natAbs else throw .serialize

/-- `add_to_offset`. -/
def addToOffset (offset : Text) (increment : Nat) : Except HostError Text := do
  let scalar ← parseRangeStart offset
  let sum := scalar + increment
  if sum ≤ 0 ∨ (groupOrder : Int) ≤ sum then throw .winningRange
  else scalarToHex sum

theorem groupOrder_lt : groupOrder < 256 ^ 32 := by norm_num [groupOrder]

theorem nibble_hexCharacter {digit : Nat} (small : digit < 16) : nibble (hexCharacter digit) = some digit := by
  have all : ∀ digit < 16, nibble (hexCharacter digit) = some digit := by decide
  exact all digit small

theorem hexPairs_bytesToHex (bytes : List UInt8) : hexPairs (bytesToHex bytes) = .ok bytes := by
  induction bytes with
  | nil => rfl
  | cons byte rest hypothesis =>
    have bound := byte.toNat_lt
    have split : bytesToHex (byte :: rest) =
        hexCharacter (byte.toNat / 16) :: hexCharacter (byte.toNat % 16) :: bytesToHex rest := rfl
    rw [split, hexPairs, nibble_hexCharacter (by omega), nibble_hexCharacter (by omega), hypothesis]
    simp [Nat.div_add_mod', Except.map]

theorem length_bytesToHex (bytes : List UInt8) : (bytesToHex bytes).length = 2 * bytes.length := by
  induction bytes with
  | nil => rfl
  | cons byte rest hypothesis =>
    have split : bytesToHex (byte :: rest) =
        hexCharacter (byte.toNat / 16) :: hexCharacter (byte.toNat % 16) :: bytesToHex rest := rfl
    rw [split, List.length_cons, List.length_cons, hypothesis, List.length_cons]
    omega

theorem nibble_bytesToHex {bytes : List UInt8} {character : Char} (member : character ∈ bytesToHex bytes) :
    (nibble character).isSome = true := by
  obtain ⟨byte, -, member⟩ := List.mem_flatMap.mp member
  have bound := byte.toNat_lt
  have digit : ∃ digit < 16, character = hexCharacter digit := by
    rcases List.mem_cons.mp member with high | low
    · exact ⟨_, by omega, high⟩
    · exact ⟨_, Nat.mod_lt _ (by omega), List.mem_singleton.mp low⟩
  obtain ⟨digit, small, rfl⟩ := digit
  rw [nibble_hexCharacter small]
  rfl

/-- Bytes come back from their text. -/
theorem hexToBytes_bytesToHex (bytes : List UInt8) : hexToBytes (bytesToHex bytes) = .ok bytes := by
  have even : ¬ (bytesToHex bytes).length % 2 ≠ 0 := by
    rw [length_bytesToHex]
    omega
  rw [hexToBytes, if_neg even, hexPairs_bytesToHex]

theorem length_scalarBytes (scalar : Nat) : (scalarBytes scalar).length = 32 := by simp [scalarBytes]

theorem scalarBytes_toNat (scalar : Nat) : (scalarBytes scalar).map UInt8.toNat = Digits.fixed 256 32 scalar := by
  rw [scalarBytes, List.map_map]
  conv_rhs => rw [← List.map_id (Digits.fixed 256 32 scalar)]
  apply List.map_congr_left
  intro digit member
  exact UInt8.toNat_ofNat_of_lt' (Digits.fixed_lt (show 0 < 256 by omega) _ _ digit member)

theorem bytesValue_scalarBytes {scalar : Nat} (fits : scalar < 256 ^ 32) :
    bytesValue (scalarBytes scalar) = scalar := by
  rw [bytesValue, scalarBytes_toNat, Digits.value_fixed fits]

/-- The text of a scalar is its sixty-four hexadecimal digits. -/
theorem scalarHex_digits (scalar : Nat) : scalarHex scalar = (Digits.fixed 16 64 scalar).map hexCharacter := by
  have halves : scalarHex scalar = ((scalarBytes scalar).map UInt8.toNat).flatMap fun digit =>
      [hexCharacter (digit / 16), hexCharacter (digit % 16)] := by
    rw [scalarHex, bytesToHex, List.flatMap_map]
  have pairs := @Digits.fixed_square 16 32 scalar
  rw [halves, scalarBytes_toNat, ← pairs, List.map_flatMap]
  rfl

theorem length_scalarHex (scalar : Nat) : (scalarHex scalar).length = 64 := by
  rw [scalarHex, length_bytesToHex, length_scalarBytes]

theorem hexToBytes_scalarHex (scalar : Nat) : hexToBytes (scalarHex scalar) = .ok (scalarBytes scalar) :=
  hexToBytes_bytesToHex (scalarBytes scalar)

theorem nibble_scalarHex {scalar : Nat} {character : Char} (member : character ∈ scalarHex scalar) :
    (nibble character).isSome = true :=
  nibble_bytesToHex member

/-- The digits of a scalar read back. -/
theorem bnParse_scalarHex {scalar : Nat} (fits : scalar < 256 ^ 32) :
    bnParse 16 nibble (scalarHex scalar) = some (scalar : Int) := by
  have small := Digits.fixed_lt (by omega : 0 < 16) 64 scalar
  have digits : ((scalarHex scalar).takeWhile fun character => (nibble character).isSome).filterMap nibble =
      Digits.fixed 16 64 scalar := by
    rw [List.takeWhile_eq_self_iff.mpr (fun character member => nibble_scalarHex member), scalarHex_digits,
      List.filterMap_map]
    conv_rhs => rw [← List.filterMap_some (l := Digits.fixed 16 64 scalar)]
    apply List.filterMap_congr
    intro digit member
    exact nibble_hexCharacter (small digit member)
  have signless : ((scalarHex scalar).head? == some '-') = false := by
    rw [beq_eq_false_iff_ne]
    intro signed
    have member := nibble_scalarHex (List.mem_of_head? signed)
    cases member
  have some_ : Digits.fixed 16 64 scalar ≠ [] := by
    rw [ne_eq, ← List.length_eq_zero_iff, Digits.length_fixed]
    omega
  have power : (16 : Nat) ^ 64 = 256 ^ 32 := by norm_num
  have value := Digits.value_fixed (fits.trans_eq power.symm)
  simp only [bnParse, signless, Bool.false_eq_true, if_false, digits, if_neg some_, value]

/-- The text of a scalar is read as the scalar, whether its digits are all decimal or not. -/
theorem parseRangeStart_scalarHex {scalar : Nat} (fits : scalar < 256 ^ 32) :
    parseRangeStart (scalarHex scalar) = .ok (scalar : Int) := by
  have length := length_scalarHex scalar
  have some_ : scalarHex scalar ≠ [] := by
    rw [ne_eq, ← List.length_eq_zero_iff, length]
    omega
  have unmarked (mark : Char) (letter : nibble mark = none) :
      [('0' : Char), mark].isPrefixOf (scalarHex scalar) = false := by
    rw [Bool.eq_false_iff, ne_eq, List.isPrefixOf_iff_prefix]
    intro marked
    have member := nibble_scalarHex (marked.subset (List.mem_cons_of_mem _ List.mem_cons_self))
    rw [letter] at member
    cases member
  have lower : "0x".toList.isPrefixOf (scalarHex scalar) = false := unmarked 'x' (by decide)
  have upper : "0X".toList.isPrefixOf (scalarHex scalar) = false := unmarked 'X' (by decide)
  rw [parseRangeStart, if_neg some_]
  simp only [lower, upper, length, Bool.or_false, Bool.false_or, BEq.rfl, Bool.true_or, Bool.false_eq_true,
    if_true, if_false, bnParse_scalarHex fits]
  rfl

theorem scalarHex_injective {scalar other : Nat} (fits : scalar < 256 ^ 32) (fitsOther : other < 256 ^ 32)
    (same : scalarHex scalar = scalarHex other) : scalar = other := by
  have first := parseRangeStart_scalarHex fits
  rw [same, parseRangeStart_scalarHex fitsOther, Except.ok.injEq, Nat.cast_inj] at first
  exact first.symm

/-- The scalars a text may be moved to. -/
theorem addToOffset_eq {offset : Text} {scalar : Int} (parsed : parseRangeStart offset = .ok scalar)
    (increment : Nat) :
    addToOffset offset increment =
      if 0 < scalar + increment ∧ scalar + increment < groupOrder then .ok (scalarHex (scalar + increment).toNat)
      else .error .winningRange := by
  rw [addToOffset, parsed]
  simp only [bind, Except.bind]
  by_cases inside : 0 < scalar + increment ∧ scalar + increment < groupOrder
  · have fits : (scalar + increment).natAbs < 256 ^ 32 := by
      have order := groupOrder_lt
      omega
    have magnitude : (scalar + increment).natAbs = (scalar + increment).toNat := by omega
    rw [if_pos inside, if_neg (by omega), scalarToHex, if_pos fits, magnitude]
    rfl
  · rw [if_neg inside, if_pos (by omega)]
    rfl

/-- What an addition that returned was given. -/
theorem addToOffset_ok {offset text : Text} {increment : Nat} (moved : addToOffset offset increment = .ok text) :
    ∃ scalar, parseRangeStart offset = .ok scalar ∧ 0 < scalar + increment ∧ scalar + increment < groupOrder := by
  obtain ⟨scalar, parsed, -⟩ := bind_eq_ok moved
  rw [addToOffset_eq parsed] at moved
  split at moved
  · rename_i inside
    exact ⟨scalar, parsed, inside⟩
  · cases moved

theorem addToOffset_scalarHex {scalar increment : Nat} (positive : 0 < scalar + increment)
    (below : scalar + increment < groupOrder) :
    addToOffset (scalarHex scalar) increment = .ok (scalarHex (scalar + increment)) := by
  have order := groupOrder_lt
  have parsed := parseRangeStart_scalarHex (by omega : scalar < 256 ^ 32)
  rw [addToOffset_eq parsed, if_pos (by omega)]
  rfl

-- The text of a scalar is known by its lemmas; no unification should spell its digits.
attribute [irreducible] scalarHex

end TronForge.Native
