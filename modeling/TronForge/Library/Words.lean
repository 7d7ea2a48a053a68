import Mathlib.Data.List.Defs

/-! Words between separators, and the line that joins them. -/

namespace TronForge.Library

section
variable {Symbol : Type} (separates : Symbol → Bool)

/-- The longest runs of symbols that do not separate. -/
def words (line : List Symbol) : List (List Symbol) :=
  (line.splitOnP separates).filter fun word => !word.isEmpty

/-- A word: some symbols, none of which separates. -/
structure IsWord (word : List Symbol) : Prop where
  some : word ≠ []
  whole : ∀ symbol ∈ word, separates symbol = false

variable {separates}

theorem words_single {word : List Symbol} (isWord : IsWord separates word) : words separates word = [word] := by
  rw [words, List.splitOnP_eq_singleton isWord.whole]
  simp [isWord.some]

theorem words_cons {word line : List Symbol} (isWord : IsWord separates word) {separator : Symbol}
    (divides : separates separator = true) :
    words separates (word ++ separator :: line) = word :: words separates line := by
  rw [words, List.splitOnP_append_cons_of_forall_mem isWord.whole separator divides, List.filter_cons_of_pos]
  · rfl
  · simp [isWord.some]

/-- Words that are joined by one separator each are read back. -/
theorem words_intercalate {separator : Symbol} (divides : separates separator = true) {line : List (List Symbol)}
    (areWords : ∀ word ∈ line, IsWord separates word) :
    words separates ([separator].intercalate line) = line := by
  induction line with
  | nil => rfl
  | cons word rest hypothesis =>
    have first := areWords word List.mem_cons_self
    cases rest with
    | nil =>
      have alone : [separator].intercalate [word] = word := by simp [List.intercalate]
      rw [alone, words_single first]
    | cons next rest =>
      have split : [separator].intercalate (word :: next :: rest) =
          word ++ separator :: [separator].intercalate (next :: rest) := by
        simp [List.intercalate]
      rw [split, words_cons first divides, hypothesis (fun other member => areWords other (List.mem_cons_of_mem _ member))]

/-- The symbols of a joined line. -/
theorem mem_intercalate {separator symbol : Symbol} {line : List (List Symbol)}
    (member : symbol ∈ [separator].intercalate line) : symbol = separator ∨ ∃ word ∈ line, symbol ∈ word := by
  induction line with
  | nil => cases member
  | cons word rest hypothesis =>
    cases rest with
    | nil =>
      have alone : [separator].intercalate [word] = word := by simp [List.intercalate]
      rw [alone] at member
      exact .inr ⟨word, List.mem_cons_self, member⟩
    | cons next rest =>
      have split : [separator].intercalate (word :: next :: rest) =
          word ++ separator :: [separator].intercalate (next :: rest) := by
        simp [List.intercalate]
      rw [split, List.mem_append, List.mem_cons] at member
      rcases member with front | same | back
      · exact .inr ⟨word, List.mem_cons_self, front⟩
      · exact .inl same
      · rcases hypothesis back with same | ⟨other, inside, has⟩
        · exact .inl same
        · exact .inr ⟨other, List.mem_cons_of_mem _ inside, has⟩

end

end TronForge.Library
