import TronForge.Library.Decimal
import TronForge.Library.Digits

/-! Decimals as Python compares, reads and writes them. A reader may know more digits than
those of ASCII. -/

namespace TronForge.Library

/-- The characters that are read as digits; the marks of a number are none of them. -/
structure DigitSet where
  value : Char → Option Nat
  small : ∀ {character digit}, value character = some digit → digit < 10
  ascii : ∀ digit < 10, value (Nat.digitChar digit) = some digit
  marks : ∀ character ∈ ['.', 'e', 'E', '+', '-', '_'], value character = none

namespace DigitSet

def plainValue (character : Char) : Option Nat := (List.range 10).find? fun digit => Nat.digitChar digit = character

theorem plainValue_digitChar {digit : Nat} (small : digit < 10) : plainValue (Nat.digitChar digit) = some digit := by
  have all : ∀ digit ∈ List.range 10, plainValue (Nat.digitChar digit) = some digit := by decide
  exact all digit (List.mem_range.mpr small)

/-- The digits of ASCII alone. -/
def plain : DigitSet where
  value := plainValue
  small found := List.mem_range.mp (List.mem_of_find?_eq_some found)
  ascii _ := plainValue_digitChar
  marks character mark := by
    have all : (['.', 'e', 'E', '+', '-', '_'].all fun mark => (plainValue mark).isNone) = true := by decide
    exact Option.isNone_iff_eq_none.mp (List.all_eq_true.mp all character mark)

variable (digits : DigitSet)

def isDigit (character : Char) : Bool := (digits.value character).isSome

/-- The digits in front, and what comes behind them. -/
def leading (text : List Char) : List Char := text.takeWhile digits.isDigit

def after (text : List Char) : List Char := text.dropWhile digits.isDigit

/-- The number that a text of digits denotes. -/
def number (text : List Char) : Nat := Digits.value 10 (text.filterMap digits.value)

variable {digits} {text rest : List Char}

theorem not_isDigit {character : Char} (mark : character ∈ ['.', 'e', 'E', '+', '-', '_']) :
    digits.isDigit character = false := by
  rw [isDigit, digits.marks character mark]
  rfl

theorem ne_mark {mark character : Char} (known : digits.isDigit character = true)
    (marked : mark ∈ ['.', 'e', 'E', '+', '-', '_']) : character ≠ mark := by
  intro same
  rw [same, not_isDigit marked] at known
  cases known

theorem leading_append (known : ∀ character ∈ text, digits.isDigit character = true)
    (stops : ∀ character ∈ rest.head?, digits.isDigit character = false) : digits.leading (text ++ rest) = text := by
  rw [leading, List.takeWhile_append_of_pos known]
  cases rest with
  | nil => exact List.append_nil _
  | cons character rest =>
    have stopped := stops character rfl
    rw [List.takeWhile_cons_of_neg (by simp [stopped]), List.append_nil]

theorem after_append (known : ∀ character ∈ text, digits.isDigit character = true)
    (stops : ∀ character ∈ rest.head?, digits.isDigit character = false) : digits.after (text ++ rest) = rest := by
  rw [after, List.dropWhile_append_of_pos known]
  cases rest with
  | nil => rfl
  | cons character rest =>
    have stopped := stops character rfl
    exact List.dropWhile_cons_of_neg (by simp [stopped])

theorem number_append (left right : List Char) (known : ∀ character ∈ right, digits.isDigit character = true) :
    digits.number (left ++ right) = digits.number left * 10 ^ right.length + digits.number right := by
  have length : (right.filterMap digits.value).length = right.length :=
    List.filterMap_length_eq_length.mpr known
  rw [number, List.filterMap_append, Digits.value_append, length]
  rfl

theorem toDigits_isDigit (number : Nat) : ∀ character ∈ Nat.toDigits 10 number, digits.isDigit character = true := by
  induction number using Nat.strong_induction_on with
  | h number hypothesis =>
    have last : digits.isDigit (Nat.digitChar (number % 10)) = true := by
      rw [isDigit, digits.ascii _ (Nat.mod_lt _ (by norm_num))]
      rfl
    intro character member
    by_cases small : number < 10
    · rw [Nat.toDigits_of_lt_base small, List.mem_singleton] at member
      rw [member, ← Nat.mod_eq_of_lt small]
      exact last
    · rw [Nat.toDigits_of_base_le (by norm_num) (Nat.not_lt.mp small)] at member
      rcases List.mem_append.mp member with front | back
      · exact hypothesis (number / 10) (by omega) character front
      · rw [List.mem_singleton.mp back]
        exact last

/-- The digits of a number denote it. -/
theorem number_toDigits (number : Nat) : digits.number (Nat.toDigits 10 number) = number := by
  induction number using Nat.strong_induction_on with
  | h number hypothesis =>
    have last : digits.number [Nat.digitChar (number % 10)] = number % 10 := by
      rw [DigitSet.number, List.filterMap_cons_some (digits.ascii _ (Nat.mod_lt _ (by norm_num)))]
      simp [Digits.value_cons]
    by_cases small : number < 10
    · rw [Nat.mod_eq_of_lt small] at last
      rw [Nat.toDigits_of_lt_base small, last]
    · have known : ∀ character ∈ [Nat.digitChar (number % 10)], digits.isDigit character = true := by
        intro character member
        rw [List.mem_singleton.mp member, isDigit, digits.ascii _ (Nat.mod_lt _ (by norm_num))]
        rfl
      rw [Nat.toDigits_of_base_le (by norm_num) (Nat.not_lt.mp small), number_append _ _ known,
        hypothesis (number / 10) (by omega), last]
      exact Nat.div_add_mod' number 10

theorem zeros_isDigit (count : Nat) : ∀ character ∈ List.replicate count '0', digits.isDigit character = true := by
  intro character member
  rw [(List.mem_replicate.mp member).2, isDigit, show '0' = Nat.digitChar 0 from rfl, digits.ascii 0 (by norm_num)]
  rfl

theorem number_zeros (count : Nat) : digits.number (List.replicate count '0') = 0 := by
  have zero : digits.value '0' = some 0 := digits.ascii 0 (by norm_num)
  rw [number, List.filterMap_replicate_of_some zero, Digits.value_replicate_zero]

end DigitSet

namespace Decimal

/-- `left <= right`. -/
def atMost (left right : Decimal) : Bool :=
  decide (left.coefficient * 10 ^ (left.exponent - right.exponent).toNat ≤
    right.coefficient * 10 ^ (right.exponent - left.exponent).toNat)

theorem atMost_iff {left right : Decimal} : left.atMost right = true ↔ left.value ≤ right.value := by
  have ten : (10 : ℚ) ≠ 0 := by norm_num
  rw [atMost, decide_eq_true_iff, value, value]
  rcases le_total left.exponent right.exponent with less | more
  · obtain ⟨gap, same⟩ := Int.le.dest less
    have none_ : (left.exponent - right.exponent).toNat = 0 := by omega
    have some_ : (right.exponent - left.exponent).toNat = gap := by omega
    rw [none_, some_, pow_zero, mul_one, ← same, zpow_add₀ ten, zpow_natCast, ← mul_assoc, mul_right_comm,
      mul_le_mul_iff_left₀ (zpow_pos (by norm_num) _)]
    exact_mod_cast Iff.rfl
  · obtain ⟨gap, same⟩ := Int.le.dest more
    have none_ : (right.exponent - left.exponent).toNat = 0 := by omega
    have some_ : (left.exponent - right.exponent).toNat = gap := by omega
    rw [none_, some_, pow_zero, mul_one, ← same, zpow_add₀ ten, zpow_natCast, ← mul_assoc, mul_right_comm,
      mul_le_mul_iff_left₀ (zpow_pos (by norm_num) _)]
    exact_mod_cast Iff.rfl

section Reading
variable (digits : DigitSet)

/-- The exponent behind the digits of a number. -/
def readExponent : List Char → Option Int
  | [] => some 0
  | mark :: rest =>
    let negative := rest.head? = some '-'
    let body := if negative ∨ rest.head? = some '+' then rest.tail else rest
    if (mark ≠ 'e' ∧ mark ≠ 'E') ∨ body = [] ∨ digits.after body ≠ [] then none
    else some (if negative then -(digits.number body : Int) else digits.number body)

/-- `Decimal(text)` of a text without blanks around it, if that is a finite number
without a minus sign. -/
def read (text : List Char) : Option Decimal :=
  let text := text.filter (· ≠ '_')
  let text := if text.head? = some '+' then text.tail else text
  let whole := digits.leading text
  let pointed := (digits.after text).head? = some '.'
  let fraction := if pointed then digits.leading (digits.after text).tail else []
  let rest := if pointed then digits.after (digits.after text).tail else digits.after text
  if whole ++ fraction = [] then none
  else (readExponent digits rest).map fun exponent => ⟨digits.number (whole ++ fraction), exponent - fraction.length⟩

end Reading

def exponentText (exponent : Int) : List Char :=
  if exponent = 0 then [] else 'E' :: (if exponent < 0 then '-' else '+') :: Nat.toDigits 10 exponent.natAbs

def layout (whole fraction : List Char) (exponent : Int) : List Char :=
  whole ++ (if fraction = [] then [] else '.' :: fraction) ++ exponentText exponent

/-- `str(number)`. -/
def write (number : Decimal) : List Char :=
  let digits := Nat.toDigits 10 number.coefficient
  let left : Int := number.exponent + digits.length
  let place := if number.exponent ≤ 0 ∧ -6 < left then left else 1
  if place ≤ 0 then layout ['0'] (List.replicate (-place).toNat '0' ++ digits) (left - place)
  else layout (digits.take place.toNat ++ List.replicate (place.toNat - digits.length) '0')
    (digits.drop place.toNat) (left - place)

section Characters
variable {character : Char}

/-- The characters of written numbers. -/
def written : List Char := "0123456789.E+-".toList

theorem written_toDigits {number : Nat} (member : character ∈ Nat.toDigits 10 number) : character ∈ written := by
  have known := @DigitSet.toDigits_isDigit DigitSet.plain number character member
  obtain ⟨digit, found⟩ := Option.isSome_iff_exists.mp known
  have all : ∀ digit ∈ List.range 10, Nat.digitChar digit ∈ written := by decide
  have same := List.find?_some found
  rw [← of_decide_eq_true same]
  exact all digit (List.mem_range.mpr (DigitSet.plain.small found))

theorem written_zeros {count : Nat} (member : character ∈ List.replicate count '0') : character ∈ written := by
  rw [(List.mem_replicate.mp member).2]
  decide

theorem written_layout {whole fraction : List Char} {exponent : Int}
    (known : ∀ character ∈ whole ++ fraction, character ∈ written) (member : character ∈ layout whole fraction exponent) :
    character ∈ written := by
  rcases List.mem_append.mp member with front | behind
  · rcases List.mem_append.mp front with inside | pointed
    · exact known character (List.mem_append_left _ inside)
    · split at pointed
      · cases pointed
      · rcases List.mem_cons.mp pointed with point | inside
        · rw [point]
          decide
        · exact known character (List.mem_append_right _ inside)
  · rw [exponentText] at behind
    split at behind
    · cases behind
    · rcases List.mem_cons.mp behind with mark | behind
      · rw [mark]
        decide
      · rcases List.mem_cons.mp behind with sign | inside
        · rw [sign]
          split <;> decide
        · exact written_toDigits inside

theorem write_mem {number : Decimal} (member : character ∈ number.write) : character ∈ written := by
  simp only [write] at member
  generalize (if number.exponent ≤ 0 ∧ -6 < number.exponent + ((Nat.toDigits 10 number.coefficient).length : Int) then
    number.exponent + ((Nat.toDigits 10 number.coefficient).length : Int) else 1) = place at member
  split at member
  · refine written_layout ?_ member
    intro character member
    rcases List.mem_append.mp member with zero | behind
    · exact @written_zeros character 1 zero
    · rcases List.mem_append.mp behind with zero | inside
      · exact written_zeros zero
      · exact written_toDigits inside
  · refine written_layout ?_ member
    intro character member
    rcases List.mem_append.mp member with front | inside
    · rcases List.mem_append.mp front with inside | zero
      · exact written_toDigits (List.mem_of_mem_take inside)
      · exact written_zeros zero
    · exact written_toDigits (List.mem_of_mem_drop inside)

end Characters

section RoundTrip
variable {digits : DigitSet} {whole fraction : List Char}

theorem readExponent_text (exponent : Int) : readExponent digits (exponentText exponent) = some exponent := by
  rw [exponentText]
  split
  · rename_i zero
    rw [zero]
    rfl
  · have some_ := @Nat.toDigits_ne_nil exponent.natAbs 10
    have known := @DigitSet.toDigits_isDigit digits exponent.natAbs
    have read := @DigitSet.number_toDigits digits exponent.natAbs
    have ended : digits.after (Nat.toDigits 10 exponent.natAbs) = [] := by
      have split := @DigitSet.after_append digits _ [] known (by simp)
      rwa [List.append_nil] at split
    rcases Int.lt_or_le exponent 0 with negative | positive
    · simp only [readExponent, if_pos negative, List.head?_cons, List.tail_cons, true_or, if_true, some_, ended,
        ne_eq, not_true_eq_false, and_false, or_self, if_false, read]
      congr 1
      omega
    · simp only [readExponent, if_neg (Int.not_lt.mpr positive), List.head?_cons, List.tail_cons, or_true, if_true,
        some_, ended, ne_eq, not_true_eq_false, and_false, or_self, if_false, read]
      rw [if_neg (by simp)]
      congr 1
      omega

theorem exponentText_head {exponent : Int} : ∀ character ∈ (exponentText exponent).head?,
    character = 'E' := by
  rw [exponentText]
  split
  · simp
  · intro character first
    exact (Option.some.inj first).symm

/-- What is laid out is read again. -/
theorem read_layout (known : ∀ character ∈ whole ++ fraction, digits.isDigit character = true)
    (some_ : whole ≠ []) (exponent : Int) :
    read digits (layout whole fraction exponent) =
      some ⟨digits.number (whole ++ fraction), exponent - fraction.length⟩ := by
  have wholeKnown (character : Char) (member : character ∈ whole) := known character (List.mem_append_left _ member)
  have fractionKnown (character : Char) (member : character ∈ fraction) :=
    known character (List.mem_append_right _ member)
  have exponentPlain : '_' ∉ exponentText exponent := by
    rw [exponentText]
    split
    · simp
    · have digit := @DigitSet.toDigits_isDigit DigitSet.plain exponent.natAbs
      intro member
      rcases List.mem_cons.mp member with mark | behind
      · cases mark
      · rcases List.mem_cons.mp behind with sign | inside
        · split at sign <;> cases sign
        · exact DigitSet.ne_mark (digit _ inside) (by decide) rfl
  have plain : (layout whole fraction exponent).filter (· ≠ '_') = layout whole fraction exponent := by
    apply List.filter_eq_self.mpr
    intro character member
    apply decide_eq_true
    intro same
    subst same
    rcases List.mem_append.mp member with front | back
    · rcases List.mem_append.mp front with inside | pointed
      · exact DigitSet.ne_mark (wholeKnown _ inside) (by decide) rfl
      · split at pointed
        · cases pointed
        · rcases List.mem_cons.mp pointed with point | inside
          · cases point
          · exact DigitSet.ne_mark (fractionKnown _ inside) (by decide) rfl
    · exact exponentPlain back
  have unsigned : (layout whole fraction exponent).head? ≠ some '+' := by
    obtain ⟨first, rest, same⟩ := List.exists_cons_of_ne_nil some_
    subst same
    intro sign
    cases sign
    exact DigitSet.ne_mark (wholeKnown '+' List.mem_cons_self) (by decide) rfl
  have exponentStops : ∀ character ∈ (exponentText exponent).head?, digits.isDigit character = false := by
    intro character first
    rw [exponentText_head character first]
    exact DigitSet.not_isDigit (by decide)
  have notPoint : (exponentText exponent).head? ≠ some '.' := by
    intro point
    cases exponentText_head '.' point
  simp only [read, plain, if_neg unsigned]
  by_cases none_ : fraction = []
  · subst none_
    have shape : layout whole [] exponent = whole ++ exponentText exponent := by simp [layout]
    rw [shape, DigitSet.leading_append wholeKnown exponentStops, DigitSet.after_append wholeKnown exponentStops]
    simp only [if_neg notPoint, List.append_nil, if_neg some_, readExponent_text, Option.map_some]
  · have shape : layout whole fraction exponent = whole ++ '.' :: (fraction ++ exponentText exponent) := by
      simp [layout, none_]
    have stops : ∀ character ∈ ('.' :: (fraction ++ exponentText exponent)).head?, digits.isDigit character = false := by
      intro character first
      cases first
      exact DigitSet.not_isDigit (by decide)
    rw [shape, DigitSet.leading_append wholeKnown stops, DigitSet.after_append wholeKnown stops]
    simp only [List.head?_cons, if_true, List.tail_cons, DigitSet.leading_append fractionKnown exponentStops,
      DigitSet.after_append fractionKnown exponentStops, List.append_eq_nil_iff, some_, false_and, if_false,
      readExponent_text, Option.map_some]

/-- Every decimal is read as it was written, exponent and all. -/
theorem read_write (number : Decimal) : read digits number.write = some number := by
  obtain ⟨coefficient, exponent⟩ := number
  have known := @DigitSet.toDigits_isDigit digits coefficient
  have length : 0 < (Nat.toDigits 10 coefficient).length := Nat.length_toDigits_pos
  have written := @DigitSet.number_toDigits digits coefficient
  simp only [write]
  generalize left_ : exponent + ((Nat.toDigits 10 coefficient).length : Int) = left
  generalize place_ : (if exponent ≤ 0 ∧ -6 < left then left else 1) = place
  split
  · rename_i small
    rw [read_layout _ (by simp)]
    · have zeros : ['0'] ++ (List.replicate (-place).toNat '0' ++ Nat.toDigits 10 coefficient) =
          List.replicate ((-place).toNat + 1) '0' ++ Nat.toDigits 10 coefficient := rfl
      rw [zeros, DigitSet.number_append _ _ known, DigitSet.number_zeros, written, Nat.zero_mul, Nat.zero_add,
        List.length_append, List.length_replicate]
      congr 2
      push_cast
      omega
    · intro character member
      rcases List.mem_append.mp member with zero | behind
      · exact DigitSet.zeros_isDigit 1 character zero
      · rcases List.mem_append.mp behind with zero | digit
        · exact DigitSet.zeros_isDigit _ character zero
        · exact known character digit
  · rename_i large
    have inside : place.toNat ≤ (Nat.toDigits 10 coefficient).length := by
      split at place_ <;> omega
    have filled : place.toNat - (Nat.toDigits 10 coefficient).length = 0 := Nat.sub_eq_zero_of_le inside
    rw [filled, List.replicate_zero, List.append_nil, read_layout]
    · rw [List.take_append_drop, written, List.length_drop]
      congr 2
      push_cast [inside]
      omega
    · rw [List.take_append_drop]
      exact known
    · intro none_
      have taken := congrArg List.length none_
      rw [List.length_take, List.length_nil] at taken
      omega

end RoundTrip

end Decimal

end TronForge.Library
