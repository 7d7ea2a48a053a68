import TronForge.Library.Words
import TronForge.Native.SearchCpu

/-! The line protocol of `serve-gpu`: a line of words becomes a search request. -/

namespace TronForge.Native

open Library

/-- `isspace` of the C locale. -/
def isSpace (character : Char) : Bool :=
  character ∈ [' ', '\t', '\n', '\x0b', '\x0c', '\r']

/-- What the command line and the line protocol throw. -/
inductive ServeError where
  | expected
  | unsignedNumber (option : String)
  deriving DecidableEq, Repr

def ServeError.message : ServeError → String
  | .expected => "Expected SEARCH PUBLIC_KEY PATTERN PREFIX SUFFIX START COUNT."
  | .unsignedNumber option => "--" ++ option ++ " must be an unsigned decimal number."

/-- The sign that `strtoull` takes in front of the digits. -/
def splitSign : Text → Bool × Text
  | '-' :: digits => (true, digits)
  | '+' :: digits => (false, digits)
  | digits => (false, digits)

/-- `std::stoull` in base ten: the number, and what it did not consume. Blanks and a
sign may stand in front, and the opposite of a number is taken modulo 2^64. -/
def stoull (value : Text) : Option (Nat × Text) :=
  let (negative, text) := splitSign (value.dropWhile isSpace)
  let digits := text.takeWhile fun character => (decimalDigit character).isSome
  let number := Digits.value 10 (digits.filterMap decimalDigit)
  if digits = [] ∨ 2 ^ 64 ≤ number then none
  else some (if negative then (2 ^ 64 - number) % 2 ^ 64 else number, text.drop digits.length)

/-- `unsigned_number`. -/
def unsignedNumber (value : Text) (option : String) : Except ServeError Nat :=
  match stoull value with
  | none => throw (.unsignedNumber option)
  | some (parsed, rest) => if rest ≠ [] then throw (.unsignedNumber option) else return parsed

/-- `std::getline`: a line without its end, and what follows. -/
def getline (input : Text) : Option (Text × Text) :=
  if input = [] then none
  else some (input.takeWhile (· != '\n'), (input.dropWhile (· != '\n')).tail)

/-- What `serve_gpu` makes of a line. -/
inductive LineCommand where
  | skip
  | quit
  | search (request : SearchRequest)
  | refuse (error : ServeError)
  deriving DecidableEq, Repr

/-- The request of a line of seven words. -/
def parseSearch (line : Text) : Except ServeError SearchRequest :=
  match words isSpace line with
  | [operation, publicKeyHex, pattern, afterT, suffix, rangeStart, count] =>
    if operation ≠ "SEARCH".toList then throw .expected
    else do
      let rangeCount ← unsignedNumber count "count"
      return ⟨publicKeyHex, pattern, afterT, suffix, rangeStart, rangeCount⟩
  | _ => throw .expected

/-- The loop body of `serve_gpu`, up to the search. -/
def readCommand (line : Text) : LineCommand :=
  if line = [] then .skip
  else if line = "QUIT".toList then .quit
  else
    match parseSearch line with
    | .error error => .refuse error
    | .ok request => .search request

theorem isSpace_of_nibble {character : Char} (digit : (nibble character).isSome = true) :
    isSpace character = false := by
  by_contra space
  rw [Bool.not_eq_false, isSpace, decide_eq_true_eq] at space
  have blank : ∀ character ∈ [' ', '\t', '\n', '\x0b', '\x0c', '\r'], nibble character = none := by decide
  rw [blank character space] at digit
  cases digit

theorem isSpace_of_base58 {character : Char} (known : character ∈ base58Alphabet) : isSpace character = false := by
  have all : ∀ character ∈ base58Alphabet, isSpace character = false := by decide
  exact all character known

section Decimal

/-- The decimal digits of a number, `str` of the worker. -/
def decimalText (number : Nat) : Text := Nat.toDigits 10 number

theorem isDigit_bounds {character : Char} (isDigit : character.isDigit = true) :
    '0' ≤ character ∧ character ≤ '9' := by
  rw [Char.isDigit, Bool.and_eq_true, decide_eq_true_eq, decide_eq_true_eq] at isDigit
  exact isDigit

theorem decimalDigit_of_isDigit {character : Char} (isDigit : character.isDigit = true) :
    decimalDigit character = some (character.toNat - '0'.toNat) :=
  if_pos (isDigit_bounds isDigit)

theorem filterMap_decimalDigit {text : Text} (digits : ∀ character ∈ text, character.isDigit = true) :
    text.filterMap decimalDigit = text.map fun character => character.toNat - '0'.toNat := by
  rw [← List.filterMap_eq_map]
  apply List.filterMap_congr
  intro character member
  exact decimalDigit_of_isDigit (digits character member)

theorem value_digits (text : Text) :
    Digits.value 10 (text.map fun character => character.toNat - '0'.toNat) = Nat.ofDigitChars 10 text 0 := by
  induction text with
  | nil => rfl
  | cons character rest hypothesis =>
    have front := @Nat.ofDigitChars_eq_ofDigitChars_zero rest (character.toNat - '0'.toNat)
    rw [List.map_cons, Digits.value_cons, hypothesis, List.length_map, Nat.ofDigitChars_cons, Nat.mul_zero, Nat.zero_add,
      front, Nat.mul_comm]

theorem isDigit_decimalText {number : Nat} : ∀ character ∈ decimalText number, character.isDigit = true :=
  fun _ member => Nat.isDigit_of_mem_toDigits (by omega) (le_refl 10) member

theorem isSpace_of_isDigit {character : Char} (isDigit : character.isDigit = true) : isSpace character = false := by
  apply isSpace_of_nibble
  rw [nibble, if_pos (isDigit_bounds isDigit)]
  rfl

/-- The text of a number below 2^64 is read as the number. -/
theorem unsignedNumber_decimalText {number : Nat} (fits : number < 2 ^ 64) (option : String) :
    unsignedNumber (decimalText number) option = .ok number := by
  have digits := @isDigit_decimalText number
  have some_ : decimalText number ≠ [] := Nat.toDigits_ne_nil
  obtain ⟨first, rest, split⟩ := List.exists_cons_of_ne_nil some_
  have isDigit := digits first (by rw [split]; exact List.mem_cons_self)
  have unblanked : (decimalText number).dropWhile isSpace = decimalText number := by
    rw [split, List.dropWhile_cons_of_neg (by rw [isSpace_of_isDigit isDigit]; exact Bool.false_ne_true)]
  have unsigned : splitSign (decimalText number) = (false, decimalText number) := by
    rw [split]
    have plain : first ≠ '-' ∧ first ≠ '+' := by
      constructor
      · rintro rfl
        cases isDigit
      · rintro rfl
        cases isDigit
    unfold splitSign
    split
    · rename_i same
      exact absurd (List.cons.inj same).1 plain.1
    · rename_i same
      exact absurd (List.cons.inj same).1 plain.2
    · rfl
  have whole : (decimalText number).takeWhile (fun character => (decimalDigit character).isSome) =
      decimalText number := by
    rw [List.takeWhile_eq_self_iff]
    intro character member
    rw [decimalDigit_of_isDigit (digits character member)]
    rfl
  have value : Digits.value 10 ((decimalText number).filterMap decimalDigit) = number := by
    rw [filterMap_decimalDigit digits, value_digits]
    exact Nat.ofDigitChars_ten_toDigits
  have inside : ¬ (decimalText number = [] ∨ 2 ^ 64 ≤ number) := by
    rw [not_or, Nat.not_le]
    exact ⟨some_, fits⟩
  rw [unsignedNumber, stoull, unblanked, unsigned]
  simp only [whole, value, if_neg inside, List.drop_length]
  rfl

end Decimal

/-- A line of seven words is a search. -/
theorem readCommand_search {line publicKeyHex pattern afterT suffix rangeStart : Text} {rangeCount : Nat}
    (read : words isSpace line =
      ["SEARCH".toList, publicKeyHex, pattern, afterT, suffix, rangeStart, decimalText rangeCount])
    (fits : rangeCount < 2 ^ 64) :
    readCommand line = .search ⟨publicKeyHex, pattern, afterT, suffix, rangeStart, rangeCount⟩ := by
  have some_ : line ≠ [] := by
    rintro rfl
    cases read
  have running : line ≠ "QUIT".toList := by
    intro quit
    have alone : words isSpace "QUIT".toList = ["QUIT".toList] := by decide
    rw [quit, alone] at read
    cases read
  have parsed : parseSearch line = .ok ⟨publicKeyHex, pattern, afterT, suffix, rangeStart, rangeCount⟩ := by
    rw [parseSearch, read]
    simp only [ne_eq, not_true_eq_false, if_false, unsignedNumber_decimalText fits]
    rfl
  rw [readCommand, if_neg some_, if_neg running, parsed]

/-- A line that has no end in it is read up to its end. -/
theorem getline_append {line : Text} (whole : ∀ character ∈ line, character ≠ '\n') (following : Text) :
    getline (line ++ '\n' :: following) = some (line, following) := by
  have inside : ∀ character ∈ line, (character != '\n') = true := by
    intro character member
    rw [bne_iff_ne]
    exact whole character member
  have taken : (line ++ '\n' :: following).takeWhile (· != '\n') = line := by
    rw [List.takeWhile_append_of_pos inside, List.takeWhile_cons_of_neg (by decide), List.append_nil]
  have dropped : (line ++ '\n' :: following).dropWhile (· != '\n') = '\n' :: following := by
    rw [List.dropWhile_append_of_pos inside, List.dropWhile_cons_of_neg (by decide)]
  rw [getline, if_neg (by simp), taken, dropped, List.tail_cons]

end TronForge.Native
