import Mathlib.Tactic.LinearCombination
import TronForge.Library.Digits

/-! Multi-word arithmetic, least significant word first: passes that carry
upwards, rows of a product, and comparisons from the top. -/

namespace TronForge.Library.Limbs

variable {Input Word Carry : Type}

/-- A pass from the least significant word up. -/
def pass (step : Input → Carry → Word × Carry) : List Input → Carry → List Word × Carry
  | [], carry => ([], carry)
  | input :: rest, carry =>
    match step input carry with
    | (word, carried) =>
      match pass step rest carried with
      | (words, left) => (word :: words, left)

@[simp] theorem length_pass (step : Input → Carry → Word × Carry) (inputs : List Input) (carry : Carry) :
    (pass step inputs carry).1.length = inputs.length := by
  induction inputs generalizing carry with
  | nil => rfl
  | cons input rest ih => simp [pass, ih]

/-- A pass that adds: the sum of the words is exact up to what is carried out of
the last one. -/
theorem pass_carry (base : Nat) {step : Input → Carry → Word × Carry} (word : Word → Nat)
    (weight : Input → Nat) (carried : Carry → Nat) (Sound : Carry → Prop)
    (settles : ∀ input carry, Sound carry →
      word (step input carry).1 + base * carried (step input carry).2 = weight input + carried carry)
    (keeps : ∀ input carry, Sound carry → Sound (step input carry).2)
    (inputs : List Input) (carry : Carry) (sound : Sound carry) :
    Sound (pass step inputs carry).2 ∧
    Nat.ofDigits base ((pass step inputs carry).1.map word) +
        base ^ inputs.length * carried (pass step inputs carry).2 =
      Nat.ofDigits base (inputs.map weight) + carried carry := by
  induction inputs generalizing carry with
  | nil => exact ⟨sound, by simp [pass]⟩
  | cons input rest ih =>
    have first := settles input carry sound
    obtain ⟨last, total⟩ := ih (step input carry).2 (keeps input carry sound)
    refine ⟨last, ?_⟩
    simp only [pass, List.map_cons, Nat.ofDigits_cons, List.length_cons, pow_succ]
    linear_combination first + base * total

/-- A pass that subtracts: the difference is exact up to what is borrowed past
the last word. -/
theorem pass_borrow (base : Nat) {step : Input → Carry → Word × Carry} (word : Word → Nat)
    (gain loss : Input → Nat) (borrowed : Carry → Nat) (Sound : Carry → Prop)
    (settles : ∀ input borrow, Sound borrow →
      word (step input borrow).1 + loss input + borrowed borrow =
        gain input + base * borrowed (step input borrow).2)
    (keeps : ∀ input borrow, Sound borrow → Sound (step input borrow).2)
    (inputs : List Input) (borrow : Carry) (sound : Sound borrow) :
    Sound (pass step inputs borrow).2 ∧
    Nat.ofDigits base ((pass step inputs borrow).1.map word) + Nat.ofDigits base (inputs.map loss) +
        borrowed borrow =
      Nat.ofDigits base (inputs.map gain) + base ^ inputs.length * borrowed (pass step inputs borrow).2 := by
  induction inputs generalizing borrow with
  | nil => exact ⟨sound, by simp [pass]⟩
  | cons input rest ih =>
    have first := settles input borrow sound
    obtain ⟨last, total⟩ := ih (step input borrow).2 (keeps input borrow sound)
    refine ⟨last, ?_⟩
    simp only [pass, List.map_cons, Nat.ofDigits_cons, List.length_cons, pow_succ]
    linear_combination first + base * total

/-- The rows of a schoolbook product over the window of words they touch; what a
row carries out becomes the next word of the window. -/
def multiply (step : Word → Word × Word → Carry → Word × Carry) (zero : Carry) (fresh : Carry → Word)
    (rights : List Word) : List Word → List Word → List Word
  | [], window => window
  | left :: lefts, window =>
    match pass (step left) (rights.zip window) zero with
    | ([], _) => []
    | (word :: words, carry) => word :: multiply step zero fresh rights lefts (words ++ [fresh carry])

theorem map_zip_left (word : Word → Nat) {left right : List Word} (same : left.length = right.length) :
    (left.zip right).map (fun pair => word pair.1) = left.map word := by
  have firsts : (left.zip right).map (fun pair => word pair.1) = ((left.zip right).map Prod.fst).map word := by
    rw [List.map_map]
    rfl
  rw [firsts, List.map_fst_zip same.le]

theorem map_zip_right (word : Word → Nat) {left right : List Word} (same : left.length = right.length) :
    (left.zip right).map (fun pair => word pair.2) = right.map word := by
  have seconds : (left.zip right).map (fun pair => word pair.2) =
      ((left.zip right).map Prod.snd).map word := by
    rw [List.map_map]
    rfl
  rw [seconds, List.map_snd_zip same.ge]

theorem ofDigits_row (base : Nat) (word : Word → Nat) (factor : Nat) {rights window : List Word}
    (same : rights.length = window.length) :
    Nat.ofDigits base ((rights.zip window).map fun pair => word pair.2 + factor * word pair.1) =
      Nat.ofDigits base (window.map word) + factor * Nat.ofDigits base (rights.map word) := by
  induction rights generalizing window with
  | nil =>
    obtain rfl := List.length_eq_zero_iff.mp same.symm
    simp
  | cons right rest ih =>
    cases window with
    | nil => simp at same
    | cons old others =>
      have lengths : rest.length = others.length := by simpa using same
      simp only [List.zip_cons_cons, List.map_cons, Nat.ofDigits_cons, ih lengths]
      ring

/-- The product of the words, and the number of its words. -/
theorem multiply_value (base : Nat) {step : Word → Word × Word → Carry → Word × Carry} {zero : Carry}
    {fresh : Carry → Word} (word : Word → Nat) (carried : Carry → Nat) (Sound : Carry → Prop)
    (settles : ∀ left pair carry, Sound carry →
      word (step left pair carry).1 + base * carried (step left pair carry).2 =
        word pair.2 + word left * word pair.1 + carried carry)
    (keeps : ∀ left pair carry, Sound carry → Sound (step left pair carry).2)
    (start : Sound zero) (nothing : carried zero = 0)
    (refreshed : ∀ carry, Sound carry → word (fresh carry) = carried carry)
    {rights : List Word} (some : rights ≠ []) (lefts window : List Word)
    (same : rights.length = window.length) :
    Nat.ofDigits base ((multiply step zero fresh rights lefts window).map word) =
      Nat.ofDigits base (window.map word) +
        Nat.ofDigits base (lefts.map word) * Nat.ofDigits base (rights.map word) ∧
    (multiply step zero fresh rights lefts window).length = lefts.length + window.length := by
  induction lefts generalizing window with
  | nil => simp [multiply]
  | cons left lefts ih =>
    have inputs : (rights.zip window).length = window.length := by simp [same]
    obtain ⟨last, total⟩ := pass_carry base word (fun pair => word pair.2 + word left * word pair.1)
      carried Sound (settles left) (keeps left) (rights.zip window) zero start
    rw [ofDigits_row base word (word left) same, inputs, nothing] at total
    have length := length_pass (step left) (rights.zip window) zero
    rw [inputs, ← same] at length
    cases row : pass (step left) (rights.zip window) zero with
    | mk words carry =>
      rw [row] at last total length
      cases words with
      | nil => exact absurd (List.length_eq_zero_iff.mp length.symm) some
      | cons first rest =>
        have next : rights.length = (rest ++ [fresh carry]).length := by simpa using length.symm
        obtain ⟨value, size⟩ := ih (rest ++ [fresh carry]) next
        have restLength : rest.length + 1 = window.length := by
          simp only [List.length_cons] at length
          omega
        simp only [multiply, row]
        constructor
        · rw [← restLength] at total
          simp only [List.map_cons, Nat.ofDigits_cons, value, List.map_append, List.map_nil,
            Nat.ofDigits_append, Nat.ofDigits_nil, List.length_map, refreshed carry last, pow_succ]
            at total ⊢
          linear_combination total
        · simp only [List.length_cons, size, List.length_append, List.length_nil]
          omega

theorem ofDigits_eq_zero {base : Nat} (positive : 0 < base) (word : Word → Nat) (words : List Word) :
    Nat.ofDigits base (words.map word) = 0 ↔ ∀ limb ∈ words, word limb = 0 := by
  induction words with
  | nil => simp
  | cons limb rest ih =>
    rw [List.forall_mem_cons, ← ih, List.map_cons, Nat.ofDigits_cons, Nat.add_eq_zero_iff, Nat.mul_eq_zero]
    constructor
    · rintro ⟨first, none | others⟩
      · omega
      · exact ⟨first, others⟩
    · rintro ⟨first, others⟩
      exact ⟨first, .inr others⟩

/-- Numbers of one length are equal only word by word. -/
theorem ofDigits_inj {base : Nat} (large : 1 < base) {word : Word → Nat}
    (injective : Function.Injective word) (small : ∀ limb, word limb < base)
    {left right : List Word} (same : left.length = right.length) :
    Nat.ofDigits base (left.map word) = Nat.ofDigits base (right.map word) ↔ left = right := by
  have bounded (limbs : List Word) : ∀ digit ∈ limbs.map word, digit < base := by
    intro digit member
    obtain ⟨limb, -, rfl⟩ := List.mem_map.mp member
    exact small limb
  constructor
  · intro equal
    have digits := Nat.ofDigits_inj_of_len_eq large (by simpa using same) (bounded left) (bounded right) equal
    exact List.map_injective_iff.mpr injective digits
  · intro equal
    rw [equal]

/-- A join of words is zero only when each of them is. -/
theorem foldl_join_eq_zero {join : Word → Word → Word} {zero : Word}
    (joined : ∀ left right, join left right = zero ↔ left = zero ∧ right = zero) (words : List Word)
    (start : Word) : words.foldl join start = zero ↔ start = zero ∧ ∀ limb ∈ words, limb = zero := by
  induction words generalizing start with
  | nil => simp
  | cons limb rest ih => rw [List.foldl_cons, ih, joined, List.forall_mem_cons, and_assoc]

/-- All differences of words are zero only between equal numbers. -/
theorem zipWith_differ_eq_zero {differ : Word → Word → Word} {zero : Word}
    (equal : ∀ left right, differ left right = zero ↔ left = right) {left right : List Word}
    (same : left.length = right.length) :
    (∀ limb ∈ left.zipWith differ right, limb = zero) ↔ left = right := by
  induction left generalizing right with
  | nil =>
    have empty : right = [] := List.length_eq_zero_iff.mp same.symm
    simp [empty]
  | cons word rest ih =>
    cases right with
    | nil => cases same
    | cons other others =>
      rw [List.zipWith_cons_cons, List.forall_mem_cons, ih (Nat.succ.inj same), equal, List.cons.injEq]

/-- Whether a number is at least another one, from their most significant words. -/
def atLeast [LT Word] [DecidableEq Word] [DecidableLT Word] : List (Word × Word) → Bool
  | [] => true
  | (left, right) :: rest => if left ≠ right then decide (right < left) else atLeast rest

theorem atLeast_iff {base : Nat} [LT Word] [DecidableEq Word] [DecidableLT Word] {word : Word → Nat}
    (order : ∀ left right, left < right ↔ word left < word right)
    (injective : Function.Injective word) (small : ∀ limb, word limb < base)
    {left right : List Word} (same : left.length = right.length) :
    atLeast (left.zip right) = true ↔
      Digits.value base (right.map word) ≤ Digits.value base (left.map word) := by
  have bounded (limbs : List Word) : ∀ digit ∈ limbs.map word, digit < base := by
    intro digit member
    obtain ⟨limb, -, rfl⟩ := List.mem_map.mp member
    exact small limb
  induction left generalizing right with
  | nil =>
    obtain rfl := List.length_eq_zero_iff.mp same.symm
    simp [atLeast]
  | cons leftWord leftRest ih =>
    cases right with
    | nil => simp at same
    | cons rightWord rightRest =>
      have lengths : leftRest.length = rightRest.length := by simpa using same
      have mapped : (leftRest.map word).length = (rightRest.map word).length := by simp [lengths]
      rw [List.zip_cons_cons, atLeast]
      split
      · rename_i differ
        have different : word leftWord ≠ word rightWord := fun equal => differ (injective equal)
        rw [decide_eq_true_eq, order, List.map_cons, List.map_cons]
        rcases Nat.lt_or_gt_of_ne different with below | above
        · have less := Digits.value_cons_lt below mapped (bounded leftRest)
          omega
        · have more := Digits.value_cons_lt above mapped.symm (bounded rightRest)
          omega
      · rename_i equal
        have rest := ih lengths
        obtain rfl := not_not.mp equal
        simp only [List.map_cons, Digits.value_cons, List.length_map, lengths, Nat.add_le_add_iff_left]
        exact rest

end TronForge.Library.Limbs
