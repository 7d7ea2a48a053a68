import Mathlib.Data.Nat.Bitwise
import TronForge.Native.Prefilter

/-! The variants of a prefix: an address matches the prefix up to case when it
starts with one of them. -/

namespace TronForge.Native

variable {requested text : Text}

/-- What `actual_prefix` has at each place. -/
theorem getElem?_flipMarked (variant : Nat) (marks : List (Nat × Nat))
    (distinct : (marks.map Prod.fst).Nodup) (actual : Text) (index : Nat) :
    (marks.foldl (flipMarked variant) actual)[index]? =
      if ∃ mark ∈ marks, mark.1 + 1 = index ∧ variant.testBit mark.2 = true
      then actual[index]?.map flipCase else actual[index]? := by
  induction marks generalizing actual with
  | nil => simp
  | cons mark rest ih =>
    obtain ⟨fresh, distinct⟩ := List.nodup_cons.mp distinct
    have chosen : (variant >>> mark.2) &&& 1 = 0 ↔ variant.testBit mark.2 = false := by
      rw [Nat.testBit, Nat.and_comm]
      simp
    rw [List.foldl_cons, ih distinct]
    by_cases here : mark.1 + 1 = index
    · have others : ¬ ∃ other ∈ rest, other.1 + 1 = index ∧ variant.testBit other.2 = true := by
        intro ⟨other, member, same, _⟩
        exact fresh (List.mem_map.mpr ⟨other, member, by omega⟩)
      rw [if_neg others]
      cases bit : variant.testBit mark.2 with
      | false =>
        have kept : flipMarked variant actual mark = actual := if_pos (chosen.mpr bit)
        have noMark : ¬ ∃ other ∈ mark :: rest, other.1 + 1 = index ∧ variant.testBit other.2 = true := by
          intro ⟨other, member, same, flipped⟩
          rcases List.mem_cons.mp member with rfl | later
          · simp [bit] at flipped
          · exact others ⟨other, later, same, flipped⟩
        rw [kept, if_neg noMark]
      | true =>
        have flipped : flipMarked variant actual mark = actual.modify (mark.1 + 1) flipCase :=
          if_neg (fun same => by simp [chosen.mp same] at bit)
        rw [flipped, if_pos ⟨mark, List.mem_cons_self, here, bit⟩, List.getElem?_modify, here]
        simp
    · have same : (flipMarked variant actual mark)[index]? = actual[index]? := by
        unfold flipMarked
        split
        · rfl
        · simp [here]
      have marked : (∃ other ∈ mark :: rest, other.1 + 1 = index ∧ variant.testBit other.2 = true) ↔
          ∃ other ∈ rest, other.1 + 1 = index ∧ variant.testBit other.2 = true := by
        simp [here]
      simp only [same, marked]

/-- The two cases of a letter among the Base58 characters. -/
structure LetterCases (letter : Char) : Prop where
  alternative : alternative letter = flipCase letter
  back : flipCase (flipCase letter) = letter
  isAlpha : (flipCase letter).isAlpha = true
  toLower : (flipCase letter).toLower = letter.toLower
  lower : letter = letter.toLower ∨ letter = flipCase letter.toLower

theorem letterCases {letter : Char} (known : letter ∈ base58Alphabet) (isLetter : letter.isAlpha = true) :
    LetterCases letter := by
  have all : ∀ letter ∈ base58Alphabet, letter.isAlpha = true →
      alternative letter = flipCase letter ∧ flipCase (flipCase letter) = letter ∧
        (flipCase letter).isAlpha = true ∧ (flipCase letter).toLower = letter.toLower ∧
        (letter = letter.toLower ∨ letter = flipCase letter.toLower) := by decide
  obtain ⟨alternative, back, isAlpha, toLower, lower⟩ := all letter known isLetter
  exact ⟨alternative, back, isAlpha, toLower, lower⟩

/-- Other characters have one case. -/
theorem isAlpha_of_twoCased {character : Char} (known : character ∈ base58Alphabet)
    (twoCases : twoCased character = true) : character.isAlpha = true := by
  have all : ∀ character ∈ base58Alphabet, character.isAlpha = false → alternative character = character := by decide
  by_contra other
  simp [twoCased, all character known (by simpa using other)] at twoCases

/-- A Base58 character that equals a requested one up to case is that one or its
other case, a Base58 character as well. -/
theorem looseEqual_cases {actual character : Char} (known : actual ∈ base58Alphabet)
    (knownCharacter : character ∈ base58Alphabet) (loose : looseEqual actual character = true) :
    actual = character ∨ twoCased character = true ∧ actual = flipCase character := by
  by_cases same : actual = character
  · exact .inl same
  · right
    obtain ⟨⟨letter, requestedLetter⟩, lower⟩ : (actual.isAlpha = true ∧ character.isAlpha = true) ∧
        actual.toLower = character.toLower := by simpa [looseEqual, same] using loose
    have actualCases := letterCases known letter
    have cases_ := letterCases knownCharacter requestedLetter
    have flipped : actual = flipCase character := by
      rcases actualCases.lower with low | high
      · rcases cases_.lower with low' | high'
        · exact absurd (low.trans (lower.trans low'.symm)) same
        · rw [← lower, ← low] at high'
          rw [high', actualCases.back]
      · rcases cases_.lower with low' | high'
        · rwa [lower, ← low'] at high
        · exact absurd (high.trans ((congrArg flipCase lower).trans high'.symm)) same
    refine ⟨?_, flipped⟩
    simp [twoCased, cases_.alternative, hostBase58Contains, ← flipped, known, same]

theorem flipCase_loose {character : Char} (known : character ∈ base58Alphabet)
    (twoCases : twoCased character = true) :
    flipCase character ∈ base58Alphabet ∧ looseEqual (flipCase character) character = true := by
  have letter := isAlpha_of_twoCased known twoCases
  have cases_ := letterCases known letter
  constructor
  · simp only [twoCased, cases_.alternative, hostBase58Contains, Bool.and_eq_true, decide_eq_true_eq] at twoCases
    exact twoCases.2
  · simp [looseEqual, letter, cases_.isAlpha, cases_.toLower]

theorem looseEqual_self (character : Char) : looseEqual character character = true := by
  simp [looseEqual]

theorem mem_variablePositions {index : Nat} : index ∈ variablePositions requested ↔
    1 ≤ index ∧ index < requested.length ∧ twoCased (charAt requested index) = true := by
  simp only [variablePositions, List.mem_filter, List.mem_range'_1, ← and_assoc]
  refine and_congr_left fun _ => ?_
  omega

theorem variablePositions_nodup : (variablePositions requested).Nodup :=
  List.Nodup.filter _ (List.nodup_range' (h := by omega))

/-- Whether a variant has the other case of the letter at an index. -/
def Flipped (requested : Text) (variant index : Nat) : Prop :=
  ∃ bit, (variablePositions requested)[bit]? = some index ∧ variant.testBit bit = true

theorem getElem?_actualPrefix (requested : Text) (variant index : Nat) [Decidable (Flipped requested variant index)] :
    (actualPrefix requested variant)[index + 1]? =
      if Flipped requested variant index then requested[index]?.map flipCase else requested[index]? := by
  have distinct : ((variablePositions requested).zipIdx.map Prod.fst).Nodup := by
    rw [List.zipIdx_map_fst]
    exact variablePositions_nodup
  have marked : (∃ mark ∈ (variablePositions requested).zipIdx, mark.1 + 1 = index + 1 ∧
      variant.testBit mark.2 = true) ↔ Flipped requested variant index := by
    constructor
    · intro ⟨mark, member, same, flipped⟩
      rw [List.mem_zipIdx_iff_getElem?] at member
      exact ⟨mark.2, by rw [member]; congr 1; omega, flipped⟩
    · intro ⟨bit, position, flipped⟩
      exact ⟨(index, bit), List.mem_zipIdx_iff_getElem?.mpr position, rfl, flipped⟩
  rw [actualPrefix, getElem?_flipMarked _ _ distinct]
  simp only [marked, List.getElem?_cons_succ]

theorem length_actualPrefix (requested : Text) (variant : Nat) :
    (actualPrefix requested variant).length = requested.length + 1 := by
  have kept (marks : List (Nat × Nat)) (actual : Text) :
      (marks.foldl (flipMarked variant) actual).length = actual.length := by
    induction marks generalizing actual with
    | nil => rfl
    | cons mark rest ih =>
      rw [List.foldl_cons, ih]
      unfold flipMarked
      split <;> simp
  simp [actualPrefix, kept]

theorem getElem?_actualPrefix_zero (requested : Text) (variant : Nat) :
    (actualPrefix requested variant)[0]? = some 'T' := by
  have distinct : ((variablePositions requested).zipIdx.map Prod.fst).Nodup := by
    rw [List.zipIdx_map_fst]
    exact variablePositions_nodup
  rw [actualPrefix, getElem?_flipMarked _ _ distinct, if_neg (by simp)]
  rfl

theorem Flipped.mem {variant index : Nat} (flipped : Flipped requested variant index) :
    index ∈ variablePositions requested := by
  obtain ⟨bit, position, -⟩ := flipped
  exact List.mem_of_getElem? position

/-- The characters of an address against those of one variant of the prefix. -/
def MatchesAt (text requested : Text) (index : Nat) : Prop :=
  if index = 0 then charAt text (index + 1) = charAt requested index
  else looseEqual (charAt text (index + 1)) (charAt requested index) = true

/-- The variant that has the letters of an address where they differ in case. -/
def variantOf (text requested : Text) : Nat :=
  Nat.ofBits fun bit : Fin (variablePositions requested).length =>
    charAt text ((variablePositions requested).get bit + 1) !=
      charAt requested ((variablePositions requested).get bit)

theorem flipped_variantOf {index : Nat} : Flipped requested (variantOf text requested) index ↔
    index ∈ variablePositions requested ∧ charAt text (index + 1) ≠ charAt requested index := by
  constructor
  · intro flipped
    refine ⟨flipped.mem, ?_⟩
    obtain ⟨bit, position, set⟩ := flipped
    obtain ⟨inside, same⟩ := List.getElem?_eq_some_iff.mp position
    simpa [variantOf, Nat.testBit_ofBits_lt _ bit inside, same] using set
  · intro ⟨member, differs⟩
    obtain ⟨bit, inside, same⟩ := List.mem_iff_getElem.mp member
    refine ⟨bit, List.getElem?_eq_some_iff.mpr ⟨inside, same⟩, ?_⟩
    simpa [variantOf, Nat.testBit_ofBits_lt _ bit inside, same] using differs

theorem take_eq_variantOf (length : requested.length + 1 ≤ text.length) (first : charAt text 0 = 'T')
    (known : ∀ character ∈ text, character ∈ base58Alphabet)
    (knownRequested : ∀ character ∈ requested, character ∈ base58Alphabet)
    (matching : ∀ index < requested.length, MatchesAt text requested index) :
    text.take (requested.length + 1) = actualPrefix requested (variantOf text requested) := by
  classical
  apply List.ext_getElem?
  intro place
  cases place with
  | zero =>
    have inside : 0 < text.length := by omega
    rw [getElem?_actualPrefix_zero, List.getElem?_take, if_pos (by omega), getElem?_charAt inside, first]
  | succ index =>
    by_cases inside : index < requested.length
    · have matched := matching index inside
      have insideText : index + 1 < text.length := by omega
      have loose (notFirst : index ≠ 0) := looseEqual_cases (known _ (charAt_mem insideText))
        (knownRequested _ (charAt_mem inside)) (by simpa [MatchesAt, notFirst] using matched)
      rw [getElem?_actualPrefix, List.getElem?_take, if_pos (by omega),
        getElem?_charAt insideText, getElem?_charAt inside]
      by_cases flipped : Flipped requested (variantOf text requested) index
      · obtain ⟨member, differs⟩ := flipped_variantOf.mp flipped
        obtain ⟨later, -, -⟩ := mem_variablePositions.mp member
        rcases loose (by omega) with same | ⟨-, other⟩
        · exact absurd same differs
        · rw [if_pos flipped, other]
          rfl
      · rw [if_neg flipped]
        by_contra differs
        have different : charAt text (index + 1) ≠ charAt requested index := fun same => differs (by rw [same])
        have notFirst : index ≠ 0 := by
          intro start
          rw [MatchesAt, if_pos start] at matched
          exact different matched
        rcases loose notFirst with same | ⟨twoCases, -⟩
        · exact different same
        · have member : index ∈ variablePositions requested :=
            mem_variablePositions.mpr ⟨by omega, inside, twoCases⟩
          exact flipped (flipped_variantOf.mpr ⟨member, different⟩)
    · have shorter : (text.take (requested.length + 1)).length ≤ index + 1 := by
        simp
        omega
      have ends : (actualPrefix requested (variantOf text requested)).length ≤ index + 1 := by
        rw [length_actualPrefix]
        omega
      rw [List.getElem?_eq_none shorter, List.getElem?_eq_none ends]

theorem matchesAt_of_take {variant : Nat} (length : requested.length + 1 ≤ text.length)
    (knownRequested : ∀ character ∈ requested, character ∈ base58Alphabet)
    (taken : text.take (requested.length + 1) = actualPrefix requested variant) {index : Nat}
    (inside : index < requested.length) : MatchesAt text requested index := by
  classical
  have same : text[index + 1]? = (actualPrefix requested variant)[index + 1]? := by
    rw [← taken, List.getElem?_take, if_pos (by omega)]
  rw [getElem?_actualPrefix, getElem?_charAt (show index + 1 < text.length by omega),
    getElem?_charAt inside] at same
  by_cases flipped : Flipped requested variant index
  · obtain ⟨later, -, twoCases⟩ := mem_variablePositions.mp flipped.mem
    rw [if_pos flipped, Option.map_some, Option.some.injEq] at same
    rw [MatchesAt, if_neg (by omega), same]
    exact (flipCase_loose (knownRequested _ (charAt_mem inside)) twoCases).2
  · rw [if_neg flipped, Option.some.injEq] at same
    unfold MatchesAt
    split
    · exact same
    · rw [same]
      exact looseEqual_self _

/-- An address matches a prefix when it starts with one of its variants. -/
theorem matches_iff_variant (length : requested.length + 1 ≤ text.length) (first : charAt text 0 = 'T')
    (known : ∀ character ∈ text, character ∈ base58Alphabet)
    (knownRequested : ∀ character ∈ requested, character ∈ base58Alphabet) :
    (∀ index < requested.length, MatchesAt text requested index) ↔
      ∃ variant < 2 ^ (variablePositions requested).length,
        text.take (requested.length + 1) = actualPrefix requested variant := by
  constructor
  · intro matching
    exact ⟨variantOf text requested, Nat.ofBits_lt_two_pow _,
      take_eq_variantOf length first known knownRequested matching⟩
  · intro ⟨variant, _, taken⟩ index inside
    exact matchesAt_of_take length knownRequested taken inside

theorem known_actualPrefix (knownRequested : ∀ character ∈ requested, character ∈ base58Alphabet)
    (variant : Nat) : ∀ character ∈ actualPrefix requested variant, character ∈ base58Alphabet := by
  classical
  intro character member
  obtain ⟨place, inside⟩ := List.mem_iff_getElem?.mp member
  cases place with
  | zero =>
    rw [getElem?_actualPrefix_zero, Option.some.injEq] at inside
    subst character
    decide
  | succ index =>
    rw [getElem?_actualPrefix] at inside
    by_cases flipped : Flipped requested variant index
    · obtain ⟨-, shorter, twoCases⟩ := mem_variablePositions.mp flipped.mem
      rw [if_pos flipped, getElem?_charAt shorter, Option.map_some, Option.some.injEq] at inside
      subst character
      exact (flipCase_loose (knownRequested _ (charAt_mem shorter)) twoCases).1
    · rw [if_neg flipped] at inside
      exact knownRequested _ (List.mem_of_getElem? inside)

end TronForge.Native
