import TronForge.Service.JobRequests

/-! The three validators of a pattern: the server's on a request, the native one on the
bytes it is handed, and the bot's on what a user typed. -/

namespace TronForge.Service

open Generator (PatternType)
open Native (Text charAt base58Alphabet allowedFirstCustom)

/-- `PatternType(name)`, as the server parses the field and the bot its callback data. -/
def PatternType.ofName (name : Text) : Option PatternType :=
  [PatternType.threeByFour, .twoByFive, .fourByThree, .twoByTwo].find? fun pattern => pattern.value.toList = name

/-- The bytes of a text in UTF-8, as the native program sees it. -/
def nativeText (text : Text) : Text :=
  text.flatMap fun character => (String.utf8EncodeChar character).map Char.ofUInt8

/-- The whitespace of `str.strip`. -/
def pythonSpace (character : Char) : Bool :=
  let code := character.toNat
  decide (9 ≤ code ∧ code ≤ 13 ∨ 28 ≤ code ∧ code ≤ 32 ∨ code = 0x85 ∨ code = 0xa0 ∨ code = 0x1680 ∨
    0x2000 ≤ code ∧ code ≤ 0x200a ∨ code = 0x2028 ∨ code = 0x2029 ∨ code = 0x202f ∨ code = 0x205f ∨ code = 0x3000)

def stripSpace (text : Text) : Text :=
  ((text.dropWhile pythonSpace).reverse.dropWhile pythonSpace).reverse

inductive PatternInputError where
  | withT
  | prefixLength (customLength : Nat)
  | characters
  | firstCharacter
  | suffixLength (length : Nat)
  deriving DecidableEq, Repr

def PatternInputError.message : PatternInputError → String
  | .withT => "Enter only the characters after T; the bot adds T automatically."
  | .prefixLength customLength =>
    "Enter exactly " ++ toString customLength ++ " prefix characters after the fixed T."
  | .characters => "Use TRON Base58 characters only. Characters 0, O, I, and lowercase l are excluded."
  | .firstCharacter => "The first character after T must be uppercase or 9."
  | .suffixLength length => "Enter exactly " ++ toString length ++ " suffix characters."

/-- `FIRST_CUSTOM_CHARACTERS`. -/
def firstCustomCharacters : Text := "9ABCDEFGHJKLMNPQRSTUVWXYZ".toList

/-- `validate_custom_prefix`. -/
def validateCustomPrefix (pattern : PatternType) (value : Text) : Except PatternInputError Text :=
  let customLength := (patternLengths pattern).1
  let normalized := stripSpace value
  if normalized.head? = some 'T' ∧ normalized.length = customLength + 1 then throw .withT
  else if normalized.length ≠ customLength then throw (.prefixLength customLength)
  else if ∃ character ∈ normalized, character ∉ base58Alphabet then throw .characters
  else if charAt normalized 0 ∉ firstCustomCharacters then throw .firstCharacter
  else return 'T' :: normalized

/-- `validate_suffix`. -/
def validateSuffix (pattern : PatternType) (value : Text) : Except PatternInputError Text :=
  let suffixLength := (patternLengths pattern).2
  let normalized := stripSpace value
  if normalized.length ≠ suffixLength then throw (.suffixLength suffixLength)
  else if ∃ character ∈ normalized, character ∉ base58Alphabet then throw .characters
  else return normalized

/-- A text without surrounding whitespace. -/
structure Unpadded (text : Text) : Prop where
  first : ∀ character ∈ text.head?, pythonSpace character = false
  last : ∀ character ∈ text.getLast?, pythonSpace character = false

/-- The requests that the validators agree on. -/
structure Fits (pattern : PatternType) (afterT suffix : Text) : Prop where
  afterTLength : afterT.length = (patternLengths pattern).1
  suffixLength : suffix.length = (patternLengths pattern).2
  afterTKnown : ∀ character ∈ afterT, character ∈ base58Alphabet
  suffixKnown : ∀ character ∈ suffix, character ∈ base58Alphabet
  first : charAt afterT 0 ∈ allowedFirstCustom

section Encoding
variable {character : Char} {text : Text}

theorem toNat_ofUInt8 {number : Nat} (small : number < 256) :
    (Char.ofUInt8 (UInt8.ofNat number)).toNat = number := by
  have byte : (UInt8.ofNat number).toNat = number := UInt8.toNat_ofNat_of_lt' small
  have widened : (UInt8.ofNat number).toUInt32.toNat = (UInt8.ofNat number).toNat := UInt8.toNat_toUInt32 _
  exact widened.trans byte

/-- An ASCII character is its own encoding. -/
theorem encoding_ascii (ascii : character.toNat < 128) :
    (String.utf8EncodeChar character).map Char.ofUInt8 = [character] := by
  have small : character.val.toNat ≤ 127 := Nat.lt_succ_iff.mp ascii
  rw [String.utf8EncodeChar, if_pos small, List.map_singleton]
  congr 1
  exact Char.toNat_inj.mp (toNat_ofUInt8 (by omega))

/-- Every byte of another character has its high bit set. -/
theorem encoding_high (high : 128 ≤ character.toNat) :
    ∃ byte ∈ (String.utf8EncodeChar character).map Char.ofUInt8, 128 ≤ byte.toNat := by
  have large : ¬ character.val.toNat ≤ 127 := Nat.not_le.mpr high
  have last : UInt8.ofNat (character.val.toNat % 64 + 128) ∈ String.utf8EncodeChar character := by
    rw [String.utf8EncodeChar, if_neg large]
    split
    · simp
    · split <;> simp
  refine ⟨_, List.mem_map_of_mem last, ?_⟩
  rw [toNat_ofUInt8 (by omega)]
  omega

theorem nativeText_ascii (ascii : ∀ character ∈ text, character.toNat < 128) : nativeText text = text := by
  induction text with
  | nil => rfl
  | cons character rest ih =>
    rw [nativeText, List.flatMap_cons, encoding_ascii (ascii character List.mem_cons_self)]
    exact congrArg (character :: ·) (ih fun other member => ascii other (List.mem_cons_of_mem _ member))

/-- ASCII bytes are the encoding of the same ASCII text only. -/
theorem nativeText_of_ascii (ascii : ∀ byte ∈ nativeText text, byte.toNat < 128) : nativeText text = text := by
  apply nativeText_ascii
  intro character member
  by_contra high
  obtain ⟨byte, present, large⟩ := encoding_high (Nat.not_lt.mp high)
  exact absurd (ascii byte (List.mem_flatMap.mpr ⟨character, member, present⟩)) (Nat.not_lt.mpr large)

theorem base58_ascii (known : character ∈ base58Alphabet) : character.toNat < 128 := by
  have all : ∀ character ∈ base58Alphabet, character.toNat < 128 := by decide
  exact all character known

end Encoding

section Patterns
variable {name afterT suffix : Text} {pattern : PatternType}

theorem ofName_iff : PatternType.ofName name = some pattern ↔ name = pattern.value.toList := by
  constructor
  · intro found
    have same := List.find?_some found
    exact (of_decide_eq_true same).symm
  · intro same
    subst same
    cases pattern <;> decide

/-- The native table of lengths has the names of the enumeration, and no others. -/
theorem lookup_ofName : Native.patternLengths.lookup name = (PatternType.ofName name).map patternLengths := by
  cases found : PatternType.ofName name with
  | some pattern =>
    rw [ofName_iff.mp found]
    exact lookup_patternLengths pattern
  | none =>
    cases configured : Native.patternLengths.lookup name with
    | none => rfl
    | some lengths =>
      obtain ⟨before, after, entries, -⟩ := List.lookup_eq_some_iff.mp configured
      have known : ∀ entry ∈ Native.patternLengths, (PatternType.ofName entry.1).isSome = true := by decide
      have named := known (name, lengths) (by simp [entries])
      rw [found] at named
      cases named

theorem patternLengths_pos (pattern : PatternType) : 0 < (patternLengths pattern).1 := by
  cases pattern <;> decide

/-- `validate_pattern` of the native program. -/
theorem native_iff : Native.validatePattern name afterT suffix = .ok () ↔
    ∃ pattern, PatternType.ofName name = some pattern ∧ Fits pattern afterT suffix := by
  rw [Native.validatePattern, lookup_ofName]
  cases PatternType.ofName name with
  | none =>
    constructor
    · intro accepted
      cases accepted
    · intro found
      obtain ⟨pattern, named, -⟩ := found
      cases named
  | some pattern =>
    simp only [Option.map_some, Option.some.injEq, exists_eq_left']
    constructor
    · intro accepted
      split at accepted
      · cases accepted
      · rename_i lengths
        split at accepted
        · cases accepted
        · rename_i characters
          split at accepted
          · cases accepted
          · rename_i first
            simp only [not_or, not_not] at lengths
            simp only [not_exists, not_and, not_not, List.mem_append] at characters
            exact ⟨lengths.1, lengths.2, fun character member => characters character (.inl member),
              fun character member => characters character (.inr member), not_not.mp first⟩
    · intro fits
      have lengths : ¬ (afterT.length ≠ (patternLengths pattern).1 ∨ suffix.length ≠ (patternLengths pattern).2) := by
        rw [not_or, not_not, not_not]
        exact ⟨fits.afterTLength, fits.suffixLength⟩
      have characters : ¬ ∃ character ∈ afterT ++ suffix, character ∉ base58Alphabet := by
        intro unknown
        obtain ⟨character, member, outside⟩ := unknown
        rcases List.mem_append.mp member with front | back
        · exact outside (fits.afterTKnown character front)
        · exact outside (fits.suffixKnown character back)
      rw [if_neg lengths, if_neg characters, if_neg (not_not.mpr fits.first)]
      rfl

/-- The regular expression of the server allows the characters that the others list. -/
theorem firstCustomCharacter_iff {character : Char} (known : character ∈ base58Alphabet) :
    firstCustomCharacter character = true ↔ character ∈ allowedFirstCustom := by
  have all : ∀ character ∈ allowedFirstCustom, firstCustomCharacter character = true := by decide
  exact ⟨firstCustomCharacter_allowed known, all character⟩

/-- `GenerationJobCreate.validate_pattern` of the server. -/
theorem request_iff :
    (⟨pattern, 'T' :: afterT, suffix⟩ : GenerationJobCreate).validatePattern = .ok () ↔ Fits pattern afterT suffix := by
  constructor
  · intro accepted
    obtain ⟨-, native⟩ := validatePattern_native accepted
    obtain ⟨found, named, fits⟩ := native_iff.mp native
    rw [ofName_iff.mpr rfl] at named
    cases named
    exact fits
  · intro fits
    have lengths : ¬ (('T' :: afterT).length ≠ (patternLengths pattern).1 + 1 ∨
        suffix.length ≠ (patternLengths pattern).2) := by
      rw [not_or, not_not, not_not, List.length_cons, fits.afterTLength]
      exact ⟨rfl, fits.suffixLength⟩
    have characters : ¬ ∃ character ∈ ('T' :: afterT) ++ suffix, character ∉ base58Alphabet := by
      intro unknown
      obtain ⟨character, member, outside⟩ := unknown
      rcases List.mem_append.mp member with front | back
      · rcases List.mem_cons.mp front with rfl | inside
        · exact outside (by decide)
        · exact outside (fits.afterTKnown character inside)
      · exact outside (fits.suffixKnown character back)
    have inside : 0 < afterT.length := fits.afterTLength ▸ patternLengths_pos pattern
    have first : firstCustomCharacter (charAt ('T' :: afterT) 1) = true :=
      (firstCustomCharacter_iff (fits.afterTKnown _ (Native.charAt_mem inside))).mpr fits.first
    simp only [GenerationJobCreate.validatePattern]
    rw [if_neg lengths, List.head?_cons, if_neg (not_not.mpr rfl), if_neg characters, first]
    rfl

theorem stripSpace_unpadded {text : Text} (unpadded : Unpadded text) : stripSpace text = text := by
  have front : text.dropWhile pythonSpace = text := by
    cases text with
    | nil => rfl
    | cons character rest =>
      exact List.dropWhile_cons_of_neg (by rw [unpadded.first character rfl]; exact Bool.false_ne_true)
  have back : text.reverse.dropWhile pythonSpace = text.reverse := by
    cases reversed : text.reverse with
    | nil => rfl
    | cons character rest =>
      have last : text.getLast? = some character := by rw [← List.head?_reverse, reversed]; rfl
      exact List.dropWhile_cons_of_neg (by rw [unpadded.last character last]; exact Bool.false_ne_true)
  rw [stripSpace, front, back, List.reverse_reverse]

/-- `validate_custom_prefix` of the bot puts the `T` in front. -/
theorem customPrefix_iff (unpadded : Unpadded afterT) {result : Text} :
    validateCustomPrefix pattern afterT = .ok result ↔
      result = 'T' :: afterT ∧ afterT.length = (patternLengths pattern).1 ∧
        (∀ character ∈ afterT, character ∈ base58Alphabet) ∧ charAt afterT 0 ∈ allowedFirstCustom := by
  have listed : firstCustomCharacters = allowedFirstCustom := rfl
  simp only [validateCustomPrefix, stripSpace_unpadded unpadded, listed]
  constructor
  · intro accepted
    split at accepted
    · cases accepted
    · split at accepted
      · cases accepted
      · rename_i length
        split at accepted
        · cases accepted
        · rename_i characters
          split at accepted
          · cases accepted
          · rename_i first
            cases accepted
            simp only [not_exists, not_and, not_not] at characters
            exact ⟨rfl, not_not.mp length, characters, not_not.mp first⟩
  · intro fits
    obtain ⟨rfl, length, known, first⟩ := fits
    have short : ¬ (afterT.head? = some 'T' ∧ afterT.length = (patternLengths pattern).1 + 1) := by
      rw [length]
      intro typed
      exact absurd typed.2 (Nat.succ_ne_self _).symm
    have characters : ¬ ∃ character ∈ afterT, character ∉ base58Alphabet := by
      intro unknown
      obtain ⟨character, member, outside⟩ := unknown
      exact outside (known character member)
    rw [if_neg short, if_neg (not_not.mpr length), if_neg characters, if_neg (not_not.mpr first)]
    rfl

/-- `validate_suffix` of the bot. -/
theorem suffix_iff (unpadded : Unpadded suffix) {result : Text} :
    validateSuffix pattern suffix = .ok result ↔
      result = suffix ∧ suffix.length = (patternLengths pattern).2 ∧
        ∀ character ∈ suffix, character ∈ base58Alphabet := by
  simp only [validateSuffix, stripSpace_unpadded unpadded]
  constructor
  · intro accepted
    split at accepted
    · cases accepted
    · rename_i length
      split at accepted
      · cases accepted
      · rename_i characters
        cases accepted
        simp only [not_exists, not_and, not_not] at characters
        exact ⟨rfl, not_not.mp length, characters⟩
  · intro fits
    obtain ⟨rfl, length, known⟩ := fits
    have characters : ¬ ∃ character ∈ result, character ∉ base58Alphabet := by
      intro unknown
      obtain ⟨character, member, outside⟩ := unknown
      exact outside (known character member)
    rw [if_neg (not_not.mpr length), if_neg characters]
    rfl

/-- What the native program accepts is ASCII, so it sees the text itself. -/
theorem native_bytes_iff :
    Native.validatePattern (nativeText name) (nativeText afterT) (nativeText suffix) = .ok () ↔
      Native.validatePattern name afterT suffix = .ok () := by
  have whole {text : Text} (known : ∀ character ∈ text, character ∈ base58Alphabet) : nativeText text = text :=
    nativeText_ascii fun character member => base58_ascii (known character member)
  have value (pattern : PatternType) : ∀ character ∈ pattern.value.toList, character.toNat < 128 := by
    cases pattern <;> decide
  constructor
  · intro accepted
    obtain ⟨pattern, named, fits⟩ := native_iff.mp accepted
    have sameName : nativeText name = name := by
      apply nativeText_of_ascii
      rw [ofName_iff.mp named]
      exact value pattern
    have sameAfterT : nativeText afterT = afterT :=
      nativeText_of_ascii fun byte member => base58_ascii (fits.afterTKnown byte member)
    have sameSuffix : nativeText suffix = suffix :=
      nativeText_of_ascii fun byte member => base58_ascii (fits.suffixKnown byte member)
    rwa [sameName, sameAfterT, sameSuffix] at accepted
  · intro accepted
    obtain ⟨pattern, named, fits⟩ := native_iff.mp accepted
    have sameName : nativeText name = name := by
      apply nativeText_ascii
      rw [ofName_iff.mp named]
      exact value pattern
    rwa [sameName, whole fits.afterTKnown, whole fits.suffixKnown]

end Patterns

/-- The server accepts a request exactly if the native program accepts its bytes, and
exactly if the bot accepts what was typed, which it then only completes by the `T`. -/
theorem validators_agree (name afterT suffix : Text) :
    let accepted := ∃ pattern, PatternType.ofName name = some pattern ∧
      (⟨pattern, 'T' :: afterT, suffix⟩ : GenerationJobCreate).validatePattern = .ok ()
    (accepted ↔
      Native.validatePattern (nativeText name) (nativeText afterT) (nativeText suffix) = .ok ()) ∧
    (Unpadded afterT → Unpadded suffix →
      (accepted ↔ ∃ pattern, PatternType.ofName name = some pattern ∧
        (∃ result, validateCustomPrefix pattern afterT = .ok result) ∧
          ∃ result, validateSuffix pattern suffix = .ok result) ∧
      ∀ pattern result,
        (validateCustomPrefix pattern afterT = .ok result → result = 'T' :: afterT) ∧
          (validateSuffix pattern suffix = .ok result → result = suffix)) := by
  intro accepted
  constructor
  · rw [native_bytes_iff, native_iff]
    exact exists_congr fun pattern => and_congr_right fun _ => request_iff
  · intro afterTUnpadded suffixUnpadded
    constructor
    · apply exists_congr
      intro pattern
      apply and_congr_right
      intro named
      rw [request_iff]
      constructor
      · intro fits
        exact ⟨⟨_, (customPrefix_iff afterTUnpadded).mpr ⟨rfl, fits.afterTLength, fits.afterTKnown, fits.first⟩⟩,
          ⟨_, (suffix_iff suffixUnpadded).mpr ⟨rfl, fits.suffixLength, fits.suffixKnown⟩⟩⟩
      · intro typed
        obtain ⟨⟨_, first⟩, ⟨_, second⟩⟩ := typed
        obtain ⟨-, afterTLength, afterTKnown, custom⟩ := (customPrefix_iff afterTUnpadded).mp first
        obtain ⟨-, suffixLength, suffixKnown⟩ := (suffix_iff suffixUnpadded).mp second
        exact ⟨afterTLength, suffixLength, afterTKnown, suffixKnown, custom⟩
    · intro pattern result
      exact ⟨fun returned => ((customPrefix_iff afterTUnpadded).mp returned).1,
        fun returned => ((suffix_iff suffixUnpadded).mp returned).1⟩

end TronForge.Service
