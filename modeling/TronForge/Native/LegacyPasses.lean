import TronForge.Native.KernelPoints

/-! The passes of the eight-limb reduction with every 64-bit operation checked: none
overflows and the loop leaves by its break. The two fields then agree on every
operation. -/

namespace TronForge.Native

namespace CudaSecp

/-- A sum of words, or nothing where it overflows. -/
def checkedAdd (left right : UInt64) : Option UInt64 :=
  if left.toNat + right.toNat < 2 ^ 64 then some (left + right) else none

def checkedMultiply (left right : UInt64) : Option UInt64 :=
  if left.toNat * right.toNat < 2 ^ 64 then some (left * right) else none

/-- `normalise` with checked sums. -/
def normaliseChecked : List UInt64 → UInt64 → Option (List UInt64)
  | [], _ => some []
  | [last], carry => do
    let sum ← checkedAdd last carry
    return [sum]
  | word :: rest, carry => do
    let sum ← checkedAdd word carry
    let further ← normaliseChecked rest (sum >>> 32)
    return (sum &&& limbMask) :: further

/-- `foldWord` with checked operations. -/
def foldWordChecked (state : List UInt64 × Bool) (index : Nat) : Option (List UInt64 × Bool) :=
  let value := state.1.getD index 0
  if value == 0 then some state
  else do
    let words := state.1.set index 0
    let product ← checkedMultiply value 977
    let first ← checkedAdd (words.getD (index - 8) 0) product
    let words := words.set (index - 8) first
    let second ← checkedAdd (words.getD (index - 7) 0) value
    return (words.set (index - 7) second, true)

/-- `passes` with checked operations; nothing where the passes are used up before
one of them finds no high word. -/
def passesChecked : Nat → List UInt64 → Option (List UInt64)
  | 0, _ => none
  | count + 1, words => do
    let normal ← normaliseChecked words 0
    let (folded, hasHighLimb) ← highIndices.foldlM foldWordChecked (normal, false)
    if hasHighLimb then passesChecked count folded else return folded

theorem checkedAdd_eq {left right : UInt64} (fits : left.toNat + right.toNat < 2 ^ 64) :
    checkedAdd left right = some (left + right) := if_pos fits

theorem checkedMultiply_eq {left right : UInt64} (fits : left.toNat * right.toNat < 2 ^ 64) :
    checkedMultiply left right = some (left * right) := if_pos fits

theorem normaliseChecked_eq (words : List UInt64) (carry : UInt64)
    (room : ∀ word ∈ words, word.toNat < 2 ^ 60) (small : carry.toNat < 2 ^ 32) :
    normaliseChecked words carry = some (normalise words carry) := by
  fun_induction normalise words carry with
  | case1 => rfl
  | case2 last carry =>
    have bound := room last (by simp)
    rw [normaliseChecked, checkedAdd_eq (by omega)]
    rfl
  | case3 word rest carry more hypothesis =>
    have bound := room word (by simp)
    have sum := UInt64.toNat_add word carry
    have shifted := toNat_shiftRight_limb (word + carry)
    have further := hypothesis (fun other member => room other (List.mem_cons_of_mem _ member)) (by omega)
    rw [normaliseChecked, checkedAdd_eq (by omega), Option.bind_eq_bind, Option.bind_some, further]
    · rfl
    · exact more

theorem getD_set (words : List UInt64) (index other : Nat) (word : UInt64) (inside : index < words.length) :
    (words.set index word).getD other 0 = if index = other then word else words.getD other 0 := by
  rw [List.getD_eq_getElem?_getD, List.getD_eq_getElem?_getD, List.getElem?_set]
  by_cases same : index = other
  · subst same
    rw [if_pos rfl, if_pos inside, Option.getD_some, if_pos rfl]
  · rw [if_neg same, if_neg same]

/-- How far a word has grown once at most `count` high words are folded: words from
ten on never grow, and the two below take in none but those. -/
def ceiling (count index : Nat) : Nat :=
  2 ^ 32 + count * (if 10 ≤ index then 0 else if 8 ≤ index then 2 ^ 43 else 2 ^ 58)

theorem ceiling_succ (count index : Nat) : ceiling count index ≤ ceiling (count + 1) index := by
  rw [ceiling, ceiling, Nat.succ_mul]
  omega

theorem ceiling_high {index : Nat} (count : Nat) (high : 10 ≤ index) : ceiling count index = 2 ^ 32 := by
  rw [ceiling, if_pos high, Nat.mul_zero, Nat.add_zero]

theorem ceiling_middle {index : Nat} (count : Nat) (least : 8 ≤ index) (below : index < 10) :
    ceiling count index = 2 ^ 32 + count * 2 ^ 43 := by
  rw [ceiling, if_neg (by omega), if_pos least]

theorem ceiling_low {index : Nat} (count : Nat) (below : index < 8) :
    ceiling count index = 2 ^ 32 + count * 2 ^ 58 := by
  rw [ceiling, if_neg (by omega), if_neg (by omega)]

/-- What one high word adds to the two words it is folded onto. -/
theorem ceiling_folds {value index target count : Nat} (small : value < ceiling count index)
    (least : 8 ≤ index) (most : index ≤ 16) (few : count ≤ 10) (onto : target = index - 8 ∨ target = index - 7) :
    ceiling count target + value * 977 ≤ ceiling (count + 1) target ∧
    ceiling (count + 1) target < 2 ^ 62 := by
  by_cases low : target < 8
  · rw [ceiling_low count low, ceiling_low (count + 1) low]
    by_cases middle : index < 10
    · rw [ceiling_middle count least middle] at small
      omega
    · rw [ceiling_high count (by omega)] at small
      omega
  · rw [ceiling_middle count (by omega) (by omega), ceiling_middle (count + 1) (by omega) (by omega)]
    rw [ceiling_high count (by omega)] at small
    omega

/-- The words in the middle of a fold. -/
def Grown (count : Nat) (words : List UInt64) : Prop :=
  words.length = 18 ∧ ∀ index, (words.getD index 0).toNat < ceiling count index

theorem foldWordChecked_idle {state : List UInt64 × Bool} {index : Nat} (zero : state.1.getD index 0 = 0) :
    foldWordChecked state index = some state := by
  simp only [foldWordChecked, zero, beq_self_eq_true, if_true]

/-- One high word: nothing overflows, and the words stay under the next ceiling. -/
theorem foldWordChecked_eq {words : List UInt64} {index count : Nat} (flag : Bool) (grown : Grown count words)
    (least : 8 ≤ index) (most : index ≤ 16) (few : count ≤ 10) :
    foldWordChecked (words, flag) index = some (foldWord (words, flag) index) ∧
    Grown (count + 1) (foldWord (words, flag) index).1 := by
  obtain ⟨size, bound⟩ := grown
  by_cases zero : words.getD index 0 = 0
  · rw [foldWordChecked_idle zero, foldWord_idle zero]
    exact ⟨rfl, size, fun other => (bound other).trans_le (ceiling_succ count other)⟩
  · have some : (words.getD index 0 == 0) = false := beq_eq_false_iff_ne.mpr zero
    have low := bound (index - 8)
    have next := bound (index - 7)
    have lowRoom := ceiling_folds (bound index) least most few (.inl rfl)
    have nextRoom := ceiling_folds (bound index) least most few (.inr rfl)
    have first : (words.set index 0).getD (index - 8) 0 = words.getD (index - 8) 0 := by
      rw [getD_set words index _ 0 (by omega), if_neg (by omega)]
    have second (word : UInt64) :
        ((words.set index 0).set (index - 8) word).getD (index - 7) 0 = words.getD (index - 7) 0 := by
      rw [getD_set _ (index - 8) _ word (by rw [List.length_set]; omega), if_neg (by omega),
        getD_set words index _ 0 (by omega), if_neg (by omega)]
    have factor := toNat_977
    have fits : (words.getD index 0).toNat * (977 : UInt64).toNat < 2 ^ 64 := by
      rw [factor]
      omega
    have product : (words.getD index 0 * 977).toNat = (words.getD index 0).toNat * 977 := by
      rw [UInt64.toNat_mul, Nat.mod_eq_of_lt fits, factor]
    have lowFits : (words.getD (index - 8) 0).toNat + (words.getD index 0 * 977).toNat < 2 ^ 64 := by omega
    have nextFits : (words.getD (index - 7) 0).toNat + (words.getD index 0).toNat < 2 ^ 64 := by omega
    simp only [foldWordChecked, foldWord, some, Bool.false_eq_true, if_false, first, second,
      checkedMultiply_eq fits, checkedAdd_eq lowFits, checkedAdd_eq nextFits, Option.bind_eq_bind,
      Option.bind_some, Option.pure_def, true_and]
    refine ⟨by simp [size], fun other => ?_⟩
    rw [getD_set _ (index - 7) other _ (by simp only [List.length_set]; omega),
      getD_set _ (index - 8) other _ (by rw [List.length_set]; omega),
      getD_set words index other 0 (by omega)]
    split
    · rename_i onto
      rw [← onto, UInt64.toNat_add, Nat.mod_eq_of_lt nextFits]
      omega
    · split
      · rename_i onto
        rw [← onto, UInt64.toNat_add, Nat.mod_eq_of_lt lowFits, product]
        omega
      · split
        · rw [UInt64.toNat_zero, ceiling]
          omega
        · exact (bound other).trans_le (ceiling_succ count other)

theorem foldlM_foldWordChecked (indices : List Nat) (inside : ∀ index ∈ indices, 8 ≤ index ∧ index ≤ 16)
    {count : Nat} (state : List UInt64 × Bool) (grown : Grown count state.1)
    (few : count + indices.length ≤ 11) :
    indices.foldlM foldWordChecked state = some (indices.foldl foldWord state) := by
  induction indices generalizing state count with
  | nil => rfl
  | cons index rest hypothesis =>
    obtain ⟨least, most⟩ := inside index (by simp)
    rw [List.length_cons] at few
    obtain ⟨same, further⟩ := foldWordChecked_eq state.2 grown least most (by omega)
    rw [List.foldlM_cons, List.foldl_cons, same, Option.bind_eq_bind, Option.bind_some]
    exact hypothesis (fun other member => inside other (List.mem_cons_of_mem _ member)) _ further (by omega)

/-- A fold of normal words with nothing in the last. -/
theorem foldWordsChecked_eq {words : List UInt64} (size : words.length = 18) (normal : Normal words)
    (last : words.getD 17 0 = 0) :
    highIndices.foldlM foldWordChecked (words, false) = some (foldWords words) := by
  have grown : Grown 0 words := by
    refine ⟨size, fun index => ?_⟩
    rw [ceiling, Nat.zero_mul, Nat.add_zero, List.getD_eq_getElem?_getD]
    cases found : words[index]? with
    | none => decide
    | some word => exact normal word (List.mem_of_getElem? found)
  rw [foldWords, highIndices, List.foldlM_cons, List.foldl_cons, foldWordChecked_idle last,
    foldWord_idle last, Option.bind_eq_bind, Option.bind_some]
  exact foldlM_foldWordChecked _ (by decide) (words, false) grown (by decide)

theorem passesChecked_succ (count : Nat) {words : List UInt64} (roomy : Roomy words)
    (fits : wordsValue words < limit 3) :
    passesChecked (count + 1) words =
      if (foldWords (normalise words 0)).2 then passesChecked count (foldWords (normalise words 0)).1
      else some (foldWords (normalise words 0)).1 := by
  obtain ⟨value, size, normal⟩ := normalise_settles roomy fits
  have last : (normalise words 0).getD 17 0 = 0 := getD_eq_zero (by rw [value]; exact fits)
  rw [passesChecked, normaliseChecked_eq words 0 roomy.2 (by decide), Option.bind_eq_bind, Option.bind_some,
    foldWordsChecked_eq size normal last]
  simp only [Option.bind_eq_bind, Option.bind_some, Option.pure_def]

/-- The passes with room: none of their operations overflows, and one of them finds
no high word before they are used up. -/
theorem passesChecked_eq (count : Nat) {words : List UInt64} (roomy : Roomy words)
    (below : wordsValue words < limit count) :
    passesChecked (count + 1) words = some (passes (count + 1) words) := by
  induction count generalizing words with
  | zero =>
    have fits := below.trans_le (limit_le 0)
    rw [passesChecked_succ 0 roomy fits, passes]
    rcases pass_cases roomy fits with ⟨unset, -⟩ | ⟨-, high, -⟩
    · simp only [unset, Bool.false_eq_true, if_false]
    · exact absurd below (Nat.not_lt.mpr high)
  | succ count hypothesis =>
    have fits := below.trans_le (limit_le (count + 1))
    rw [passesChecked_succ (count + 1) roomy fits, passes]
    rcases pass_cases roomy fits with ⟨unset, -⟩ | ⟨set, high, folded⟩
    · simp only [unset, Bool.false_eq_true, if_false]
    · obtain ⟨next, lower, -⟩ := folded.next below high
      simp only [set, if_true]
      exact hypothesis next lower

/-- A reduction whose twelve passes suffice: no operation of theirs overflows, and
they end in a break, with every limb below `2^32` and no high limb. -/
def LeavesByBreak (accumulator : List UInt64) : Prop :=
  ∃ low, passesChecked 12 accumulator = some (low ++ List.replicate 10 0) ∧
    passes 12 accumulator = low ++ List.replicate 10 0 ∧ low.length = 8 ∧ Normal low

theorem leavesByBreak_of_roomy {accumulator : List UInt64} (roomy : Roomy accumulator)
    (fits : wordsValue accumulator < limit 3) : LeavesByBreak accumulator := by
  obtain ⟨low, shape, size, normal, -⟩ := passes_settle 11 roomy fits
  refine ⟨low, ?_, shape, size, normal⟩
  rw [← shape]
  exact passesChecked_eq 11 roomy fits

end CudaSecp

namespace CudaChain

theorem Field.eq_of_value {left right : Field} (same : left.value = right.value) : left = right := by
  have limbs := (Field.value_inj left right).mp same
  cases left
  cases right
  cases limbs
  rfl

/-- The routines on 32-bit limbs compute canonical residues, their reductions leave by
the break with nothing lost, and the conversion carries them to the other field's. -/
theorem legacy_routines_exact (left right : CudaSecp.Field) (leftSmall : left.value < fieldPrime)
    (rightSmall : right.value < fieldPrime) :
    ((CudaSecp.fieldAdd left right).value = (left.value + right.value) % fieldPrime ∧
      ((CudaSecp.fieldNegate left).value : Int) = -(left.value : Int) % fieldPrime ∧
      ((CudaSecp.fieldSubtract left right).value : Int) = ((left.value : Int) - right.value) % fieldPrime ∧
      (CudaSecp.fieldMultiply left right).value = left.value * right.value % fieldPrime) ∧
    (CudaSecp.LeavesByBreak (CudaSecp.sumAccumulator left right) ∧
      CudaSecp.LeavesByBreak (CudaSecp.sumAccumulator left (CudaSecp.fieldNegate right)) ∧
      CudaSecp.LeavesByBreak (CudaSecp.productAccumulator left right)) ∧
    fromLegacyField (CudaSecp.fieldAdd left right) =
      fieldAdd (fromLegacyField left) (fromLegacyField right) ∧
    fromLegacyField (CudaSecp.fieldNegate left) = fieldNegate (fromLegacyField left) ∧
    fromLegacyField (CudaSecp.fieldSubtract left right) =
      fieldSubtract (fromLegacyField left) (fromLegacyField right) ∧
    fromLegacyField (CudaSecp.fieldMultiply left right) =
      fieldMultiply (fromLegacyField left) (fromLegacyField right) := by
  have leftSame := fromLegacyField_value left
  have rightSame := fromLegacyField_value right
  have leavesSum (other : CudaSecp.Field) : CudaSecp.LeavesByBreak (CudaSecp.sumAccumulator left other) := by
    obtain ⟨roomy, -, fits⟩ := CudaSecp.sumAccumulator_settles left other
    exact CudaSecp.leavesByBreak_of_roomy roomy fits
  obtain ⟨roomy, -, fits⟩ := CudaSecp.productAccumulator_settles left right
  refine ⟨⟨CudaSecp.fieldAdd_value left right, ?_, ?_, CudaSecp.fieldMultiply_value left right⟩,
    ⟨leavesSum right, leavesSum _, CudaSecp.leavesByBreak_of_roomy roomy fits⟩, ?_, ?_, ?_, ?_⟩
  · have negated := residue_of_difference 0 leftSmall
    rw [Nat.zero_add, Int.natCast_zero, zero_sub] at negated
    rw [CudaSecp.fieldNegate_value leftSmall]
    exact negated
  · rw [CudaSecp.fieldSubtract_value rightSmall]
    exact residue_of_difference left.value rightSmall
  · apply Field.eq_of_value
    rw [fromLegacyField_value, CudaSecp.fieldAdd_value, fieldAdd_value, leftSame, rightSame]
  · apply Field.eq_of_value
    rw [fromLegacyField_value, CudaSecp.fieldNegate_value leftSmall, fieldNegate_value (by rwa [leftSame]),
      leftSame]
  · apply Field.eq_of_value
    rw [fromLegacyField_value, CudaSecp.fieldSubtract_value rightSmall,
      fieldSubtract_value (by rwa [leftSame]) (by rwa [rightSame]), leftSame, rightSame]
  · apply Field.eq_of_value
    rw [fromLegacyField_value, CudaSecp.fieldMultiply_value, fieldMultiply_value, leftSame, rightSame]

theorem legacy_routines_exact_largest :
    CudaSecp.LeavesByBreak (CudaSecp.productAccumulator (CudaSecp.fieldNegate (CudaSecp.fieldFromSmall 1))
      (CudaSecp.fieldNegate (CudaSecp.fieldFromSmall 1))) := by
  have one : (CudaSecp.fieldFromSmall 1).value = 1 := CudaSecp.fieldFromSmall_value 1
  have canonical : (CudaSecp.fieldNegate (CudaSecp.fieldFromSmall 1)).value < fieldPrime := by
    rw [CudaSecp.fieldNegate_value (by rw [one]; norm_num [fieldPrime])]
    exact Nat.mod_lt _ (by norm_num [fieldPrime])
  obtain ⟨-, ⟨-, -, leaves⟩, -⟩ := legacy_routines_exact _ _ canonical canonical
  exact leaves

end CudaChain

end TronForge.Native
