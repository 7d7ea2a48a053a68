import TronForge.Native.Base58

/-! Pattern requests: their validation, and the matchers of the host and of the
device. Strings are lists of characters. -/

namespace TronForge.Native

abbrev Text := List Char

/-- The character at an index of a zero-filled buffer. -/
def charAt (text : Text) (index : Nat) : Char := text.getD index '\x00'

def allowedFirstCustom : Text := "9ABCDEFGHJKLMNPQRSTUVWXYZ".toList

/-- The lengths of the custom characters after `T` and of the suffix. -/
def patternLengths : List (Text × Nat × Nat) :=
  [("3x4".toList, 3, 4), ("2x5".toList, 2, 5), ("4x3".toList, 4, 3), ("2x2".toList, 2, 2)]

inductive PatternError where
  | unknownPattern
  | wrongLengths (pattern : Text) (afterT suffix : Nat)
  | invalidCharacter
  | invalidFirst
  deriving DecidableEq, Repr

def PatternError.message : PatternError → String
  | .unknownPattern => "Pattern must be one of: 3x4, 2x5, 4x3, or 2x2."
  | .wrongLengths pattern afterT suffix =>
    "Pattern " ++ String.ofList pattern ++ " requires " ++ toString afterT ++
      " characters after T and " ++ toString suffix ++ " suffix characters."
  | .invalidCharacter =>
    "Pattern contains an invalid TRON Base58 character (0, O, I, and l are excluded)."
  | .invalidFirst => "The first character after T must be an uppercase Base58 letter or 9."

/-- `validate_pattern`. -/
def validatePattern (pattern afterT suffix : Text) : Except PatternError Unit :=
  match patternLengths.lookup pattern with
  | none => throw .unknownPattern
  | some (afterTLength, suffixLength) =>
    if afterT.length ≠ afterTLength ∨ suffix.length ≠ suffixLength then
      throw (.wrongLengths pattern afterTLength suffixLength)
    else if ∃ character ∈ afterT ++ suffix, character ∉ base58Alphabet then throw .invalidCharacter
    else if charAt afterT 0 ∉ allowedFirstCustom then throw .invalidFirst
    else return ()

/-- `loose_equal`, with `isalpha` and `tolower` of the C locale. -/
def looseEqual (left right : Char) : Bool :=
  left == right || left.isAlpha && right.isAlpha && left.toLower == right.toLower

/-- `matches_pattern`. -/
def matchesPattern (address afterT suffix : Text) : Bool :=
  decide (address.length = 34) && charAt address 0 == 'T' &&
  ((List.range afterT.length).all fun index =>
    if index = 0 then charAt address (index + 1) == charAt afterT index
    else looseEqual (charAt address (index + 1)) (charAt afterT index)) &&
  (List.range suffix.length).all fun index =>
    looseEqual (charAt address (address.length - suffix.length + index)) (charAt suffix index)

/-- The bounds of one variant of the prefix, cut to the bytes of a payload. -/
structure PrefixInterval where
  min : List UInt8
  max : List UInt8
  deriving DecidableEq, Repr

/-- `DevicePattern`; `afterT` is its `prefix`. -/
structure DevicePattern where
  afterT : Text := []
  suffix : Text := []
  intervals : List PrefixInterval := []
  deriving DecidableEq, Repr

def deviceAsciiLetter (value : Char) : Bool :=
  decide ('A' ≤ value) && decide (value ≤ 'Z') || decide ('a' ≤ value) && decide (value ≤ 'z')

def deviceAsciiLower (value : Char) : Char :=
  if 'A' ≤ value ∧ value ≤ 'Z' then Char.ofNat (value.toNat + 32) else value

def deviceLooseEqual (actual requested : Char) : Bool :=
  actual == requested || deviceAsciiLetter actual && deviceAsciiLetter requested &&
    deviceAsciiLower actual == deviceAsciiLower requested

/-- `device_pattern_matches`. -/
def devicePatternMatches (address : Text) (pattern : DevicePattern) : Bool :=
  ((List.range pattern.afterT.length).all fun index =>
    if index = 0 then charAt address (index + 1) == charAt pattern.afterT index
    else deviceLooseEqual (charAt address (index + 1)) (charAt pattern.afterT index)) &&
  (List.range pattern.suffix.length).all fun index =>
    deviceLooseEqual (charAt address (34 - pattern.suffix.length + index)) (charAt pattern.suffix index)

/-- What an accepted request looks like. -/
structure Accepted (afterT suffix : Text) : Prop where
  afterTLength : 2 ≤ afterT.length ∧ afterT.length ≤ 4
  suffixLength : 2 ≤ suffix.length ∧ suffix.length ≤ 5
  characters : ∀ character ∈ afterT ++ suffix, character ∈ base58Alphabet
  first : charAt afterT 0 ∈ allowedFirstCustom

theorem validatePattern_ok {pattern afterT suffix : Text}
    (valid : validatePattern pattern afterT suffix = .ok ()) : Accepted afterT suffix := by
  unfold validatePattern at valid
  split at valid
  · cases valid
  · rename_i afterTLength suffixLength found
    split at valid
    · cases valid
    · rename_i lengths
      split at valid
      · cases valid
      · rename_i characters
        split at valid
        · cases valid
        · rename_i first
          have known : ∀ entry ∈ patternLengths, 2 ≤ entry.2.1 ∧ entry.2.1 ≤ 4 ∧ 2 ≤ entry.2.2 ∧
              entry.2.2 ≤ 5 := by decide
          obtain ⟨before, after, entries, -⟩ := List.lookup_eq_some_iff.mp found
          obtain ⟨afterTLow, afterTHigh, suffixLow, suffixHigh⟩ :=
            known (pattern, afterTLength, suffixLength) (by simp [entries])
          simp only [not_or, not_not] at lengths
          obtain ⟨rfl, rfl⟩ := lengths
          refine ⟨⟨afterTLow, afterTHigh⟩, ⟨suffixLow, suffixHigh⟩, ?_, not_not.mp first⟩
          intro character member
          by_contra outside
          exact characters ⟨character, member, outside⟩

/-- The case-insensitive comparisons of host and device agree on Base58 characters. -/
theorem deviceLooseEqual_eq {actual requested : Char} (known : actual ∈ base58Alphabet)
    (knownRequested : requested ∈ base58Alphabet) :
    deviceLooseEqual actual requested = looseEqual actual requested := by
  have letters : ∀ character ∈ base58Alphabet,
      deviceAsciiLetter character = character.isAlpha ∧ deviceAsciiLower character = character.toLower := by decide
  obtain ⟨letter, lower⟩ := letters actual known
  obtain ⟨requestedLetter, requestedLower⟩ := letters requested knownRequested
  rw [deviceLooseEqual, looseEqual, letter, lower, requestedLetter, requestedLower]

theorem charAt_mem {text : Text} {index : Nat} (inside : index < text.length) :
    charAt text index ∈ text := by
  simp [charAt, inside]

theorem getElem?_charAt {text : Text} {index : Nat} (inside : index < text.length) :
    text[index]? = some (charAt text index) := by
  simp [charAt, inside]

theorem all_range_congr {count : Nat} {left right : Nat → Bool}
    (same : ∀ index < count, left index = right index) :
    (List.range count).all left = (List.range count).all right := by
  rw [Bool.eq_iff_iff, List.all_eq_true, List.all_eq_true]
  refine forall₂_congr fun index member => ?_
  rw [same index (List.mem_range.mp member)]

/-- The matchers agree on Base58 addresses of 34 characters that start with `T`. -/
theorem devicePatternMatches_eq {afterT suffix address : Text} (accepted : Accepted afterT suffix)
    (length : address.length = 34) (first : charAt address 0 = 'T')
    (characters : ∀ character ∈ address, character ∈ base58Alphabet) (intervals : List PrefixInterval) :
    devicePatternMatches address ⟨afterT, suffix, intervals⟩ = matchesPattern address afterT suffix := by
  have afterTLength := accepted.afterTLength
  have suffixLength := accepted.suffixLength
  have agree {index other : Nat} (text : Text) (part : ∀ character ∈ text, character ∈ base58Alphabet)
      (inside : index < address.length) (insideText : other < text.length) :
      deviceLooseEqual (charAt address index) (charAt text other) =
        looseEqual (charAt address index) (charAt text other) :=
    deviceLooseEqual_eq (characters _ (charAt_mem inside)) (part _ (charAt_mem insideText))
  simp only [devicePatternMatches, matchesPattern, length, first, decide_true, Bool.true_and, BEq.rfl]
  congr 1
  · apply all_range_congr
    intro index inside
    split
    · rfl
    · exact agree afterT (fun c part => accepted.characters c (by simp [part])) (by omega) inside
  · apply all_range_congr
    intro index inside
    exact agree suffix (fun c part => accepted.characters c (by simp [part])) (by omega) inside

end TronForge.Native
