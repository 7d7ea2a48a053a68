import Mathlib.Data.List.Lemmas
import Mathlib.Data.Nat.Digits.Lemmas
import Mathlib.Tactic.LinearCombination

/-! Numbers as big-endian digit strings: their value, their order, their leading
digits, and passes over them that carry from the last digit to the first. -/

namespace TronForge.Library.Digits

/-- The number a digit string denotes, most significant digit first. -/
def value (base : Nat) : List Nat → Nat
  | [] => 0
  | digit :: rest => digit * base ^ rest.length + value base rest

variable {base : Nat} {digits other : List Nat}

@[simp] theorem value_nil : value base [] = 0 := rfl

theorem value_cons (digit : Nat) (rest : List Nat) :
    value base (digit :: rest) = digit * base ^ rest.length + value base rest := rfl

theorem value_append (left right : List Nat) :
    value base (left ++ right) = value base left * base ^ right.length + value base right := by
  induction left with
  | nil => simp
  | cons digit rest ih =>
    simp only [List.cons_append, value_cons, ih, List.length_append, pow_add]
    ring

theorem value_concat (front : List Nat) (last : Nat) :
    value base (front ++ [last]) = value base front * base + last := by
  simp [value_append, value_cons]

theorem value_map_mul (factor : Nat) (digits : List Nat) :
    value base (digits.map (· * factor)) = value base digits * factor := by
  induction digits with
  | nil => simp
  | cons digit rest ih =>
    simp only [List.map_cons, value_cons, List.length_map, ih]
    ring

theorem value_replicate_zero (count : Nat) : value base (List.replicate count 0) = 0 := by
  induction count with
  | zero => rfl
  | succ count ih => simp [List.replicate_succ, value_cons, ih]

/-- Mathlib's little-endian reading of the reversed digits. -/
theorem value_eq_ofDigits (digits : List Nat) :
    value base digits = Nat.ofDigits base digits.reverse := by
  induction digits with
  | nil => rfl
  | cons digit rest ih =>
    rw [value_cons, ih, List.reverse_cons, Nat.ofDigits_append, Nat.ofDigits_singleton,
      List.length_reverse]
    ring

theorem value_lt (bounded : ∀ digit ∈ digits, digit < base) :
    value base digits < base ^ digits.length := by
  induction digits with
  | nil => simp
  | cons digit rest ih =>
    have small := ih fun other member => bounded other (List.mem_cons_of_mem _ member)
    have least : digit + 1 ≤ base := bounded digit List.mem_cons_self
    calc value base (digit :: rest) < digit * base ^ rest.length + base ^ rest.length :=
          Nat.add_lt_add_left small _
      _ = (digit + 1) * base ^ rest.length := by ring
      _ ≤ base * base ^ rest.length := Nat.mul_le_mul_right _ least
      _ = base ^ (digit :: rest).length := by rw [List.length_cons, pow_succ]; ring

theorem value_cons_lt {left right : Nat} {leftRest rightRest : List Nat} (below : left < right)
    (same : leftRest.length = rightRest.length) (bounded : ∀ digit ∈ leftRest, digit < base) :
    value base (left :: leftRest) < value base (right :: rightRest) := by
  have small := value_lt bounded
  have step : (left + 1) * base ^ leftRest.length ≤ right * base ^ leftRest.length :=
    Nat.mul_le_mul_right _ below
  rw [value_cons, value_cons, ← same]
  rw [Nat.add_mul, Nat.one_mul] at step
  omega

/-- Digit strings of one length are in the order of their numbers, also as characters
in the order of the digits. -/
theorem lt_map_iff {Character : Type} [LT Character] (character : Nat → Character)
    (order : ∀ left < base, ∀ right < base, character left < character right ↔ left < right)
    (distinct : ∀ left < base, ∀ right < base, character left = character right → left = right)
    (same : digits.length = other.length) (bounded : ∀ digit ∈ digits, digit < base)
    (otherBounded : ∀ digit ∈ other, digit < base) :
    digits.map character < other.map character ↔ value base digits < value base other := by
  induction digits generalizing other with
  | nil =>
    obtain rfl : other = [] := List.length_eq_zero_iff.mp same.symm
    exact iff_of_false (List.not_lt_nil _) (Nat.lt_irrefl _)
  | cons digit rest hypothesis =>
    cases other with
    | nil => cases same
    | cons otherDigit otherRest =>
      have length : rest.length = otherRest.length := Nat.succ.inj same
      have small := bounded digit List.mem_cons_self
      have otherSmall := otherBounded otherDigit List.mem_cons_self
      have tail (member : Nat) (inside : member ∈ rest) := bounded member (List.mem_cons_of_mem _ inside)
      have otherTail (member : Nat) (inside : member ∈ otherRest) :=
        otherBounded member (List.mem_cons_of_mem _ inside)
      rw [List.map_cons, List.map_cons, List.cons_lt_cons_iff, order _ small _ otherSmall]
      rcases Nat.lt_trichotomy digit otherDigit with below | equal | above
      · exact iff_of_true (Or.inl below) (value_cons_lt below length tail)
      · subst equal
        rw [value_cons, value_cons, length, Nat.add_lt_add_iff_left, ← hypothesis length tail otherTail]
        simp
      · have reversed := value_cons_lt above length.symm otherTail
        refine iff_of_false ?_ (Nat.lt_asymm reversed)
        rintro (below | ⟨equal, -⟩)
        · omega
        · have digitsEqual := distinct _ small _ otherSmall equal
          omega

theorem value_injective (same : digits.length = other.length)
    (bounded : ∀ digit ∈ digits, digit < base) (boundedOther : ∀ digit ∈ other, digit < base)
    (equal : value base digits = value base other) : digits = other := by
  induction digits generalizing other with
  | nil => exact (List.length_eq_zero_iff.mp same.symm).symm
  | cons left leftRest ih =>
    cases other with
    | nil => simp at same
    | cons right rightRest =>
      have lengths : leftRest.length = rightRest.length := by simpa using same
      have below (digit : Nat) (member : digit ∈ leftRest) : digit < base :=
        bounded digit (List.mem_cons_of_mem _ member)
      have belowOther (digit : Nat) (member : digit ∈ rightRest) : digit < base :=
        boundedOther digit (List.mem_cons_of_mem _ member)
      rcases Nat.lt_trichotomy left right with less | rfl | more
      · exact absurd equal (value_cons_lt less lengths below).ne
      · rw [value_cons, value_cons, lengths] at equal
        rw [ih lengths below belowOther (Nat.add_left_cancel equal)]
      · exact absurd equal (value_cons_lt more lengths.symm belowOther).ne'

/-- Dropping the last digits divides by their power of the base. -/
theorem value_take (bounded : ∀ digit ∈ digits, digit < base) (count : Nat) :
    value base (digits.take count) = value base digits / base ^ (digits.length - count) := by
  have split : value base (digits.take count ++ digits.drop count) = _ :=
    value_append (digits.take count) (digits.drop count)
  have small : value base (digits.drop count) < base ^ (digits.length - count) := by
    rw [← List.length_drop]
    exact value_lt fun digit member => bounded digit (List.mem_of_mem_drop member)
  rw [List.take_append_drop, List.length_drop] at split
  rw [split, Nat.mul_comm, Nat.mul_add_div (by omega), Nat.div_eq_of_lt small, Nat.add_zero]

/-- Which leading digits a number has, by an interval of values. -/
theorem take_eq_iff {leading : List Nat} (bounded : ∀ digit ∈ digits, digit < base)
    (boundedLeading : ∀ digit ∈ leading, digit < base) (positive : 0 < base)
    (shorter : leading.length ≤ digits.length) :
    digits.take leading.length = leading ↔
      value base leading * base ^ (digits.length - leading.length) ≤ value base digits ∧
      value base digits < (value base leading + 1) * base ^ (digits.length - leading.length) := by
  have power : 0 < base ^ (digits.length - leading.length) := Nat.pow_pos positive
  have taken := value_take bounded leading.length
  have divided : value base digits / base ^ (digits.length - leading.length) = value base leading ↔
      value base leading * base ^ (digits.length - leading.length) ≤ value base digits ∧
      value base digits < (value base leading + 1) * base ^ (digits.length - leading.length) := by
    rw [Nat.div_eq_iff power, Nat.add_mul, Nat.one_mul]
    omega
  rw [← divided, ← taken]
  constructor
  · intro same
    rw [same]
  · intro equal
    refine value_injective (by simp [shorter]) ?_ boundedLeading equal
    exact fun digit member => bounded digit (List.mem_of_mem_take member)

/-- The last digits of a number, a fixed count of them. -/
def fixed (base : Nat) : Nat → Nat → List Nat
  | 0, _ => []
  | width + 1, number => fixed base width (number / base) ++ [number % base]

@[simp] theorem length_fixed (width number : Nat) : (fixed base width number).length = width := by
  induction width generalizing number with
  | zero => rfl
  | succ width ih => rw [fixed, List.length_append, ih, List.length_singleton]

theorem fixed_lt (positive : 0 < base) (width number : Nat) : ∀ digit ∈ fixed base width number, digit < base := by
  induction width generalizing number with
  | zero => simp [fixed]
  | succ width ih =>
    intro digit member
    rcases List.mem_append.mp member with front | last
    · exact ih _ digit front
    · rw [List.mem_singleton.mp last]
      exact Nat.mod_lt _ positive

/-- A number that fits is the value of its digits. -/
theorem value_fixed {width number : Nat} (fits : number < base ^ width) :
    value base (fixed base width number) = number := by
  induction width generalizing number with
  | zero =>
    rw [pow_zero] at fits
    rw [fixed, value_nil]
    omega
  | succ width ih =>
    rw [pow_succ, Nat.mul_comm] at fits
    rw [fixed, value_concat, ih (Nat.div_lt_of_lt_mul fits)]
    exact Nat.div_add_mod' number base

/-- Digits below the base are the digits of their value. -/
theorem fixed_value (bounded : ∀ digit ∈ digits, digit < base) (positive : 0 < base) :
    fixed base digits.length (value base digits) = digits := by
  apply value_injective (length_fixed _ _) (fixed_lt positive _ _) bounded
  exact value_fixed (value_lt bounded)

/-- The digits of two numbers side by side are the digits of one. -/
theorem fixed_append (positive : 0 < base) {width count high low : Nat} (highFits : high < base ^ width)
    (lowFits : low < base ^ count) :
    fixed base width high ++ fixed base count low = fixed base (width + count) (high * base ^ count + low) := by
  have bounded : ∀ digit ∈ fixed base width high ++ fixed base count low, digit < base := by
    intro digit member
    rcases List.mem_append.mp member with front | back
    · exact fixed_lt positive _ _ digit front
    · exact fixed_lt positive _ _ digit back
  have value := fixed_value bounded positive
  rw [value_append, value_fixed highFits, value_fixed lowFits, List.length_append, length_fixed, length_fixed] at value
  exact value.symm

/-- Each digit of a square base is two digits of the base. -/
theorem fixed_square (width number : Nat) :
    (fixed (base * base) width number).flatMap (fun digit => [digit / base, digit % base]) =
      fixed base (2 * width) number := by
  induction width generalizing number with
  | zero => rfl
  | succ width ih =>
    have double : 2 * (width + 1) = 2 * width + 1 + 1 := by omega
    have high : number % (base * base) / base = number / base % base := Nat.mod_mul_right_div_self number base base
    have low : number % (base * base) % base = number % base := Nat.mod_mul_left_mod number base base
    rw [fixed, List.flatMap_append, ih, List.flatMap_singleton, double, fixed, fixed, Nat.div_div_eq_div_mul, high,
      low, List.append_assoc]
    rfl

section Carry

variable {Word State Result : Type} {step : Word → State → State × Result} {word : Result → Nat}
  {weight : Word → Nat} (carry borrow : State → Nat) (Sound : State → Prop)

/-- A pass that settles the last word first adds the incoming carry, up to what
it carries out of the first word. -/
theorem value_mapAccumr
    (settles : ∀ input state, Sound state →
      word (step input state).2 + base * carry (step input state).1 + borrow state =
        weight input + carry state + base * borrow (step input state).1)
    (keeps : ∀ input state, Sound state → Sound (step input state).1)
    (inputs : List Word) (state : State) (sound : Sound state) :
    Sound (inputs.mapAccumr step state).1 ∧
    value base ((inputs.mapAccumr step state).2.map word) +
        base ^ inputs.length * carry (inputs.mapAccumr step state).1 + borrow state =
      value base (inputs.map weight) + carry state +
        base ^ inputs.length * borrow (inputs.mapAccumr step state).1 := by
  induction inputs with
  | nil => exact ⟨sound, by simp [List.mapAccumr]⟩
  | cons input rest ih =>
    obtain ⟨inner, total⟩ := ih
    have first := settles input (rest.mapAccumr step state).1 inner
    refine ⟨keeps input _ inner, ?_⟩
    simp only [List.mapAccumr, List.map_cons, value_cons, List.length_map, List.length_mapAccumr,
      List.length_cons, pow_succ]
    linear_combination total + base ^ rest.length * first

/-- Nothing is carried out of a total that fits. -/
theorem carry_eq_zero {power rest carried : Nat} (fits : rest + power * carried < power) :
    carried = 0 := by
  by_contra some
  have most : power ≤ power * carried := Nat.le_mul_of_pos_right _ (Nat.pos_of_ne_zero some)
  omega

end Carry

end TronForge.Library.Digits
