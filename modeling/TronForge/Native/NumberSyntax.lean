import TronForge.Native.ServeGpu

/-! Which texts the number readers of the program accept. Both hand the text to a
conversion with a wider grammar: a range start may go on behind its digits, and an
unsigned number may carry blanks and a sign in front of them. -/

namespace TronForge.Native

open Library

/-- A text of digits, one at least, and the number it denotes. -/
def Denotes (base : Nat) (digit : Char → Option Nat) (text : Text) (number : Nat) : Prop :=
  text ≠ [] ∧ ∃ digits, text.map digit = digits.map some ∧ Digits.value base digits = number

/-- Digits, with a minus sign in front or none. -/
inductive Numeral (base : Nat) (digit : Char → Option Nat) : Text → Int → Prop where
  | plain (denotes : Denotes base digit text number) : Numeral base digit text number
  | minus (denotes : Denotes base digit text number) : Numeral base digit ('-' :: text) (-number)

section Numerals
variable {base number : Nat} {digit : Char → Option Nat} {text : Text} {scalar : Int}

/-- The characters in front that are digits. -/
def leadingDigits (digit : Char → Option Nat) (text : Text) : Text :=
  text.takeWhile fun character => (digit character).isSome

theorem denotes_iff : Denotes base digit text number ↔
    text ≠ [] ∧ (∀ character ∈ text, (digit character).isSome = true) ∧
      Digits.value base (text.filterMap digit) = number := by
  constructor
  · intro denotes
    obtain ⟨some_, digits, same, value⟩ := denotes
    refine ⟨some_, ?_, ?_⟩
    · intro character member
      have known : digit character ∈ digits.map some := by
        rw [← same]
        exact List.mem_map_of_mem member
      obtain ⟨_, -, equal⟩ := List.mem_map.mp known
      rw [← equal]
      rfl
    · have read : (text.map digit).filterMap id = digits := by
        rw [same, List.filterMap_map]
        exact List.filterMap_some
      rw [List.filterMap_map] at read
      rw [← value, ← read]
      rfl
  · intro read
    obtain ⟨some_, known, value⟩ := read
    refine ⟨some_, text.filterMap digit, ?_, value⟩
    clear some_ value
    induction text with
    | nil => rfl
    | cons character rest ih =>
      obtain ⟨found, same⟩ := Option.isSome_iff_exists.mp (known character List.mem_cons_self)
      rw [List.map_cons, List.filterMap_cons_some same, List.map_cons, same,
        ih fun other member => known other (List.mem_cons_of_mem _ member)]

theorem leadingDigits_eq_self : leadingDigits digit text = text ↔
    ∀ character ∈ text, (digit character).isSome = true :=
  List.takeWhile_eq_self_iff

/-- Digits that denote are the whole text. -/
theorem Denotes.leading (denotes : Denotes base digit text number) : leadingDigits digit text = text :=
  leadingDigits_eq_self.mpr (denotes_iff.mp denotes).2.1

/-- No character stands behind the digits in front. -/
def Unfollowed (digit : Char → Option Nat) (text : Text) : Prop :=
  leadingDigits digit text = [] ∨ leadingDigits digit text = text

instance : Decidable (Unfollowed digit text) := inferInstanceAs (Decidable (_ ∨ _))

/-- Every digit in front is read. -/
theorem leadingDigits_read : (leadingDigits digit text).filterMap digit = [] ↔ leadingDigits digit text = [] := by
  constructor
  · intro none
    rw [List.filterMap_eq_nil_iff] at none
    apply List.eq_nil_iff_forall_not_mem.mpr
    intro character member
    have known := @List.mem_takeWhile_imp _ (fun character => (digit character).isSome) _ _ member
    rw [none character member] at known
    cases known
  · intro none
    rw [none]
    rfl

/-- What the digits in front denote. -/
theorem denotes_leading : Denotes base digit (leadingDigits digit text) number ↔
    leadingDigits digit text ≠ [] ∧ Digits.value base ((leadingDigits digit text).filterMap digit) = number := by
  rw [denotes_iff]
  constructor
  · intro denotes
    exact ⟨denotes.1, denotes.2.2⟩
  · intro denotes
    refine ⟨denotes.1, ?_, denotes.2⟩
    intro character member
    exact @List.mem_takeWhile_imp _ (fun character => (digit character).isSome) _ _ member

/-- A text without the minus sign in front of it. -/
def unsignedPart (text : Text) : Text :=
  if text.head? == some '-' then text.tail else text

/-- A number under the sign of a text. -/
def signed (text : Text) (number : Nat) : Int :=
  if text.head? == some '-' then -number else number

theorem numeral_iff (signless : digit '-' = none) : Numeral base digit text scalar ↔
    ∃ number, Denotes base digit (unsignedPart text) number ∧ signed text number = scalar := by
  constructor
  · intro numeral
    cases numeral with
    | @plain _ number denotes =>
      have unsigned : (text.head? == some '-') = false := by
        rw [beq_eq_false_iff_ne]
        intro minus
        have known := (denotes_iff.mp denotes).2.1 '-' (List.mem_of_head? minus)
        rw [signless] at known
        cases known
      refine ⟨number, ?_, ?_⟩
      · rwa [unsignedPart, unsigned]
      · rw [signed, unsigned]
        rfl
    | minus denotes => exact ⟨_, denotes, rfl⟩
  · intro read
    obtain ⟨number, denotes, same⟩ := read
    by_cases minus : (text.head? == some '-') = true
    · obtain ⟨rest, rfl⟩ := List.head?_eq_some_iff.mp (beq_iff_eq.mp minus)
      rw [← same]
      exact .minus denotes
    · rw [unsignedPart, if_neg minus] at denotes
      rw [signed, if_neg minus] at same
      rw [← same]
      exact .plain denotes

theorem Numeral.characters (numeral : Numeral base digit text scalar) :
    ∀ character ∈ text, character = '-' ∨ (digit character).isSome = true := by
  intro character member
  cases numeral with
  | plain denotes => exact .inr ((denotes_iff.mp denotes).2.1 character member)
  | minus denotes =>
    rcases List.mem_cons.mp member with rfl | inside
    · exact .inl rfl
    · exact .inr ((denotes_iff.mp denotes).2.1 character inside)

/-- The conversion reads the digits in front. -/
theorem bnParse_iff : bnParse base digit text = some scalar ↔
    ∃ number, Denotes base digit (leadingDigits digit (unsignedPart text)) number ∧ signed text number = scalar := by
  have unfolded : bnParse base digit text =
      if (leadingDigits digit (unsignedPart text)).filterMap digit = [] then none
      else some (signed text (Digits.value base ((leadingDigits digit (unsignedPart text)).filterMap digit))) := by
    by_cases negative : (text.head? == some '-') = true
    · simp only [bnParse, signed, unsignedPart, leadingDigits, negative, if_true]
    · simp only [bnParse, signed, unsignedPart, leadingDigits, negative, Bool.false_eq_true, if_false]
  simp only [unfolded, denotes_leading, leadingDigits_read]
  split
  · rename_i none
    simp [none]
  · rename_i some_
    constructor
    · intro same
      exact ⟨_, ⟨some_, rfl⟩, Option.some.inj same⟩
    · intro read
      obtain ⟨number, ⟨-, value⟩, same⟩ := read
      rw [value, same]

/-- The conversion accepts the numerals exactly if nothing follows the digits. -/
theorem bnParse_numeral_iff (signless : digit '-' = none) :
    (∀ scalar, bnParse base digit text = some scalar ↔ Numeral base digit text scalar) ↔
      Unfollowed digit (unsignedPart text) := by
  constructor
  · intro agrees
    by_cases none : leadingDigits digit (unsignedPart text) = []
    · exact .inl none
    · right
      have read := (agrees _).mp (bnParse_iff.mpr ⟨_, denotes_leading.mpr ⟨none, rfl⟩, rfl⟩)
      obtain ⟨number, denotes, -⟩ := (numeral_iff signless).mp read
      exact denotes.leading
  · intro behind scalar
    rw [bnParse_iff, numeral_iff signless]
    rcases behind with none | whole
    · apply exists_congr
      intro number
      apply and_congr_left
      intro
      rw [none]
      constructor
      · intro denotes
        exact absurd rfl denotes.1
      · intro denotes
        exact absurd (denotes.leading.symm.trans none) denotes.1
    · rw [whole]

end Numerals

/-- The syntax of a range start: hexadecimal digits behind `0x`, hexadecimal digits
with a letter among them or sixty-four characters long, and decimal digits. -/
inductive RangeStart : Text → Int → Prop where
  | marked (mark : Char) (marks : mark = 'x' ∨ mark = 'X') (numeral : Numeral 16 nibble text scalar) :
      RangeStart ('0' :: mark :: text) scalar
  | hexadecimal (numeral : Numeral 16 nibble text scalar)
      (long : text.any hexLetter = true ∨ text.length = 64) : RangeStart text scalar
  | decimal (numeral : Numeral 10 decimalDigit text scalar) (short : text.length ≠ 64) : RangeStart text scalar

section RangeStarts
variable {value text : Text} {scalar : Int}

/-- A range start with `0x` or `0X` in front. -/
def marked (value : Text) : Bool := "0x".toList.isPrefixOf value || "0X".toList.isPrefixOf value

/-- The text that is converted, and the digits it is converted by. -/
def startText (value : Text) : Text := if marked value then value.drop 2 else value

def readsHex (value : Text) : Bool := marked value || value.length == 64 || value.any hexLetter

def startDigit (value : Text) : Char → Option Nat := if readsHex value then nibble else decimalDigit

def startBase (value : Text) : Nat := if readsHex value then 16 else 10

theorem parseRangeStart_of_digits (filled : value ≠ []) : parseRangeStart value =
    match bnParse (startBase value) (startDigit value) (startText value) with
    | none => .error .startSyntax
    | some found => .ok found := by
  have chosen : (if readsHex value then bnParse 16 nibble (startText value)
      else bnParse 10 decimalDigit (startText value)) =
      bnParse (startBase value) (startDigit value) (startText value) := by
    unfold startBase startDigit
    split <;> rfl
  rw [← chosen, parseRangeStart, if_neg filled]
  rfl

theorem parseRangeStart_iff : parseRangeStart value = .ok scalar ↔
    bnParse (startBase value) (startDigit value) (startText value) = some scalar := by
  by_cases empty : value = []
  · subst empty
    simp [parseRangeStart, startText, marked, bnParse]
  · rw [parseRangeStart_of_digits empty]
    cases bnParse (startBase value) (startDigit value) (startText value) with
    | none => simp only [reduceCtorEq]
    | some found => rw [Except.ok.injEq, Option.some.injEq]

theorem marked_iff : marked value = true ↔ ∃ mark text, (mark = 'x' ∨ mark = 'X') ∧ value = '0' :: mark :: text := by
  rw [marked, Bool.or_eq_true, List.isPrefixOf_iff_prefix, List.isPrefixOf_iff_prefix]
  constructor
  · intro leads
    rcases leads with ⟨text, same⟩ | ⟨text, same⟩
    · exact ⟨'x', text, .inl rfl, same.symm⟩
    · exact ⟨'X', text, .inr rfl, same.symm⟩
  · intro split
    obtain ⟨mark, text, rfl | rfl, rfl⟩ := split
    · exact .inl ⟨text, rfl⟩
    · exact .inr ⟨text, rfl⟩

/-- A numeral is no range start with `0x` in front. -/
theorem Numeral.unmarked {base : Nat} {digit : Char → Option Nat} (numeral : Numeral base digit value scalar)
    (unknown : digit 'x' = none ∧ digit 'X' = none) : marked value = false := by
  rw [Bool.eq_false_iff]
  intro leads
  obtain ⟨mark, text, marks, rfl⟩ := marked_iff.mp leads
  have member : mark ∈ '0' :: mark :: text := List.mem_cons_of_mem _ List.mem_cons_self
  rcases numeral.characters mark member with rfl | known
  · rcases marks with marks | marks <;> cases marks
  · rcases marks with rfl | rfl
    · rw [unknown.1] at known
      cases known
    · rw [unknown.2] at known
      cases known

theorem hexLetter_of_decimalDigit {character : Char} (decimal : (decimalDigit character).isSome = true) :
    hexLetter character = false := by
  unfold decimalDigit at decimal
  split at decimal
  · rename_i bounds
    have low : character.toNat ≤ '9'.toNat := bounds.2
    rw [hexLetter, Bool.or_eq_false_iff, decide_eq_false_iff_not, decide_eq_false_iff_not]
    constructor
    · intro letter
      have high : 'a'.toNat ≤ character.toNat := letter.1
      exact absurd (high.trans low) (by decide)
    · intro letter
      have high : 'A'.toNat ≤ character.toNat := letter.1
      exact absurd (high.trans low) (by decide)
  · cases decimal

theorem rangeStart_iff : RangeStart value scalar ↔
    Numeral (startBase value) (startDigit value) (startText value) scalar := by
  constructor
  · intro start
    cases start with
    | @marked text _ mark marks numeral =>
      have leads : marked ('0' :: mark :: text) = true := marked_iff.mpr ⟨mark, text, marks, rfl⟩
      simp only [startBase, startDigit, startText, readsHex, leads, Bool.true_or, if_true]
      exact numeral
    | hexadecimal numeral long =>
      have unmarked := numeral.unmarked (by decide)
      have hex : readsHex value = true := by
        rw [readsHex, unmarked, Bool.false_or, Bool.or_eq_true, beq_iff_eq]
        exact long.symm
      simp only [startBase, startDigit, startText, hex, unmarked, Bool.false_eq_true, if_true, if_false]
      exact numeral
    | decimal numeral short =>
      have unmarked := numeral.unmarked (by decide)
      have unlettered : value.any hexLetter = false := by
        rw [List.any_eq_false]
        intro character member
        rcases numeral.characters character member with rfl | known
        · decide
        · rw [hexLetter_of_decimalDigit known]
          exact Bool.false_ne_true
      have decimal : readsHex value = false := by
        rw [readsHex, unmarked, unlettered, Bool.false_or, Bool.or_false, beq_eq_false_iff_ne]
        exact short
      simp only [startBase, startDigit, startText, decimal, unmarked, Bool.false_eq_true, if_false]
      exact numeral
  · intro numeral
    by_cases leads : marked value = true
    · simp only [startBase, startDigit, startText, readsHex, leads, Bool.true_or, if_true] at numeral
      obtain ⟨mark, text, marks, rfl⟩ := marked_iff.mp leads
      exact .marked mark marks numeral
    · simp only [startBase, startDigit, startText, readsHex, leads, Bool.false_or, Bool.false_eq_true, if_false,
        Bool.or_eq_true, beq_iff_eq] at numeral
      split at numeral
      · rename_i long
        exact .hexadecimal numeral long.symm
      · rename_i short
        rw [not_or] at short
        exact .decimal numeral short.1

end RangeStarts

/-- A range start is read as the number that it denotes, and refused if it denotes
none, exactly if no character stands behind its digits. -/
theorem parseRangeStart_denotes_iff (value : Text) :
    (∀ scalar, parseRangeStart value = .ok scalar ↔ RangeStart value scalar) ↔
      Unfollowed (startDigit value) (unsignedPart (startText value)) := by
  have signless : startDigit value '-' = none := by
    unfold startDigit
    split <;> decide
  simp only [parseRangeStart_iff, rangeStart_iff]
  exact bnParse_numeral_iff signless

/-- What stands behind the digits is dropped. -/
theorem parseRangeStart_drops :
    ¬ ∀ value scalar, parseRangeStart value = .ok scalar ↔ RangeStart value scalar := by
  intro agrees
  have numeral := rangeStart_iff.mp ((agrees "12_000".toList 12).mp rfl)
  have known := numeral.characters '_' (by decide)
  revert known
  decide

section UnsignedNumbers
variable {value : Text} {number : Nat}

/-- The digits of an unsigned number, whatever blanks and sign it has in front. -/
def magnitudeText (value : Text) : Text := (splitSign (value.dropWhile isSpace)).2

/-- Nothing stands in front of the digits, or what stands there is not followed by a
number that fits. -/
def Unadorned (value : Text) : Prop :=
  magnitudeText value = value ∨ ∀ number, Denotes 10 decimalDigit (magnitudeText value) number → 2 ^ 64 ≤ number

/-- The number of an unsigned decimal text. -/
def UnsignedDecimal (value : Text) (number : Nat) : Prop := Denotes 10 decimalDigit value number ∧ number < 2 ^ 64

theorem unsignedNumber_iff (option : String) : unsignedNumber value option = .ok number ↔
    ∃ magnitude, UnsignedDecimal (magnitudeText value) magnitude ∧
      number = if (splitSign (value.dropWhile isSpace)).1 then (2 ^ 64 - magnitude) % 2 ^ 64 else magnitude := by
  unfold unsignedNumber stoull magnitudeText UnsignedDecimal
  generalize splitSign (value.dropWhile isSpace) = parts
  obtain ⟨negative, text⟩ := parts
  have leading : text.takeWhile (fun character => (decimalDigit character).isSome) = leadingDigits decimalDigit text := rfl
  simp only [leading]
  split
  · rename_i failed
    refine ⟨nofun, ?_⟩
    intro read
    obtain ⟨magnitude, ⟨denotes, fits⟩, -⟩ := read
    have value := (denotes_iff.mp denotes).2.2
    rw [denotes.leading, value, if_neg (by rw [not_or]; exact ⟨denotes.1, Nat.not_le.mpr fits⟩)] at failed
    cases failed
  · rename_i parsed rest converted
    split at converted
    · cases converted
    · rename_i inside
      rw [not_or, Nat.not_le] at inside
      cases converted
      split
      · rename_i left
        refine ⟨nofun, ?_⟩
        intro read
        obtain ⟨magnitude, ⟨denotes, -⟩, -⟩ := read
        rw [denotes.leading, List.drop_length] at left
        exact absurd rfl left
      · rename_i whole
        rw [not_not, List.drop_eq_nil_iff] at whole
        have same : leadingDigits decimalDigit text = text :=
          (List.takeWhile_prefix _).eq_of_length_le whole
        have denotes : Denotes 10 decimalDigit text
            (Digits.value 10 ((leadingDigits decimalDigit text).filterMap decimalDigit)) := by
          nth_rewrite 1 [← same]
          exact denotes_leading.mpr ⟨inside.1, rfl⟩
        constructor
        · intro returned
          cases returned
          exact ⟨_, ⟨denotes, inside.2⟩, rfl⟩
        · intro read
          obtain ⟨magnitude, ⟨other, -⟩, rfl⟩ := read
          rw [← (denotes_iff.mp other).2.2, same]
          rfl

/-- Digits stand behind no blanks and no sign. -/
theorem splitSign_digits (denotes : Denotes 10 decimalDigit value number) :
    splitSign (value.dropWhile isSpace) = (false, value) := by
  obtain ⟨some_, known, -⟩ := denotes_iff.mp denotes
  obtain ⟨first, rest, rfl⟩ := List.exists_cons_of_ne_nil some_
  have digit := known first List.mem_cons_self
  have unblanked : isSpace first = false := by
    apply isSpace_of_nibble
    unfold decimalDigit at digit
    split at digit
    · rename_i bounds
      rw [nibble, if_pos bounds]
      rfl
    · cases digit
  rw [List.dropWhile_cons_of_neg (by rw [unblanked]; exact Bool.false_ne_true)]
  unfold splitSign
  split
  · rename_i same
    cases same
    cases digit
  · rename_i same
    cases same
    cases digit
  · rfl

/-- A sign is no part of the magnitude. -/
theorem splitSign_negative (negative : (splitSign (value.dropWhile isSpace)).1 = true) :
    magnitudeText value ≠ value := by
  have shorter : (splitSign (value.dropWhile isSpace)).2.length < (value.dropWhile isSpace).length := by
    generalize value.dropWhile isSpace = text at negative ⊢
    unfold splitSign at negative ⊢
    split at negative
    · exact Nat.lt_succ_self _
    · cases negative
    · cases negative
  intro same
  have whole := congrArg List.length same
  have dropped := (List.dropWhile_suffix (l := value) isSpace).length_le
  rw [magnitudeText] at whole
  omega

theorem unsignedNumber_unadorned (option : String) :
    (∀ number, unsignedNumber value option = .ok number ↔ UnsignedDecimal value number) ↔ Unadorned value := by
  by_cases bare : magnitudeText value = value
  · refine iff_of_true ?_ (.inl bare)
    intro number
    have positive : (splitSign (value.dropWhile isSpace)).1 = false := by
      rw [Bool.eq_false_iff]
      intro negative
      exact splitSign_negative negative bare
    rw [unsignedNumber_iff, bare, positive]
    simp
  · have denotesNone : ∀ number, ¬ UnsignedDecimal value number := by
      intro number decimal
      exact bare (by rw [magnitudeText, splitSign_digits decimal.1])
    constructor
    · intro agrees
      right
      intro magnitude denotes
      by_contra fits
      have read := (unsignedNumber_iff option).mpr ⟨magnitude, ⟨denotes, Nat.not_le.mp fits⟩, rfl⟩
      exact denotesNone _ ((agrees _).mp read)
    · intro unadorned number
      refine iff_of_false ?_ (denotesNone number)
      intro read
      obtain ⟨magnitude, ⟨denotes, fits⟩, -⟩ := (unsignedNumber_iff option).mp read
      rcases unadorned with same | large
      · exact bare same
      · exact absurd fits (Nat.not_lt.mpr (large magnitude denotes))

end UnsignedNumbers

/-- Options and the last word of a search line are read as unsigned decimal numbers,
and refused if they are none, exactly if they are bare digits or no number stands
behind their blanks and sign. -/
theorem unsignedNumber_decimal_iff (value : Text) (option : String) :
    ((∀ number, unsignedNumber value option = .ok number ↔ UnsignedDecimal value number) ↔ Unadorned value) ∧
      ∀ line publicKeyHex pattern afterT suffix rangeStart,
        words isSpace line = ["SEARCH".toList, publicKeyHex, pattern, afterT, suffix, rangeStart, value] →
        ((∀ request, parseSearch line = .ok request ↔
            ∃ number, UnsignedDecimal value number ∧
              request = ⟨publicKeyHex, pattern, afterT, suffix, rangeStart, number⟩) ↔ Unadorned value) := by
  refine ⟨unsignedNumber_unadorned option, ?_⟩
  intro line publicKeyHex pattern afterT suffix rangeStart read
  rw [← unsignedNumber_unadorned "count"]
  have parsed : ∀ request, parseSearch line = .ok request ↔
      ∃ number, unsignedNumber value "count" = .ok number ∧
        request = ⟨publicKeyHex, pattern, afterT, suffix, rangeStart, number⟩ := by
    intro request
    rw [parseSearch, read]
    simp only [ne_eq, not_true_eq_false, if_false]
    cases unsignedNumber value "count" with
    | error error => simp [Except.bind, bind]
    | ok number =>
      rw [ok_bind, pure_ok]
      simp [eq_comm]
  constructor
  · intro agrees number
    have request := agrees ⟨publicKeyHex, pattern, afterT, suffix, rangeStart, number⟩
    rw [parsed] at request
    simpa using request
  · intro agrees request
    simp only [parsed, agrees]

/-- A line of seven words with a plain count. -/
theorem unsignedNumber_decimal_iff_plain :
    ∀ request, parseSearch "SEARCH 02 exact A B 1 42".toList = .ok request ↔
      ∃ number, UnsignedDecimal "42".toList number ∧
        request = ⟨"02".toList, "exact".toList, "A".toList, "B".toList, "1".toList, number⟩ :=
  ((unsignedNumber_decimal_iff "42".toList "count").2 _ _ _ _ _ _ (by decide)).mpr (.inl rfl)

/-- A negative number wraps around. -/
theorem unsignedNumber_wraps :
    ¬ ∀ value option number, unsignedNumber value option = .ok number ↔ UnsignedDecimal value number := by
  intro agrees
  have read : unsignedNumber "-1".toList "count" = .ok 18446744073709551615 := rfl
  obtain ⟨-, known, -⟩ := denotes_iff.mp ((agrees _ _ _).mp read).1
  have sign := known '-' List.mem_cons_self
  cases sign

end TronForge.Native
