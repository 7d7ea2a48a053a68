import TronForge.Native.LegacyField
import TronForge.Native.Modulus

/-! The reduction of the eight-limb field: a pass keeps the residue, four passes
leave no high word, and one subtraction makes the result canonical. -/

namespace TronForge.Native.CudaSecp

open Library

def wordsValue (words : List UInt64) : Nat := Nat.ofDigits (2 ^ 32) (words.map UInt64.toNat)

def limbsValue (limbs : List UInt32) : Nat := Nat.ofDigits (2 ^ 32) (limbs.map UInt32.toNat)

def Field.value (field : Field) : Nat := limbsValue field.limbs

theorem Field.value_lt (field : Field) : field.value < 2 ^ 256 := by
  have bounded : ∀ digit ∈ field.limbs.map UInt32.toNat, digit < 2 ^ 32 := by
    intro digit member
    obtain ⟨limb, -, rfl⟩ := List.mem_map.mp member
    exact limb.toNat_lt
  have small := Nat.ofDigits_lt_base_pow_length (by omega) bounded
  rw [List.length_map, field.size] at small
  exact small

/-- What a pass starts from: carries and folds stay far from overflow. -/
def Roomy (words : List UInt64) : Prop := words.length = 18 ∧ ∀ word ∈ words, word.toNat < 2 ^ 60

def Normal (words : List UInt64) : Prop := ∀ word ∈ words, word.toNat < 2 ^ 32

theorem toNat_and_limbMask (word : UInt64) : (word &&& limbMask).toNat = word.toNat % 2 ^ 32 := by
  rw [UInt64.toNat_and]
  exact Nat.and_two_pow_sub_one_eq_mod word.toNat 32

theorem toNat_shiftRight_limb (word : UInt64) : (word >>> 32).toNat = word.toNat / 2 ^ 32 := by
  rw [UInt64.toNat_shiftRight, Nat.shiftRight_eq_div_pow]
  rfl

theorem wordsValue_cons (word : UInt64) (rest : List UInt64) :
    wordsValue (word :: rest) = word.toNat + 2 ^ 32 * wordsValue rest := by
  simp only [wordsValue, List.map_cons, Nat.ofDigits_cons]

theorem wordsValue_nil : wordsValue [] = 0 := rfl

/-- Carrying keeps the value; a value that fits leaves every word below the base. -/
theorem normalise_value (words : List UInt64) (carry : UInt64) (some : words ≠ [])
    (room : ∀ word ∈ words, word.toNat < 2 ^ 60) (small : carry.toNat < 2 ^ 32)
    (fits : wordsValue words + carry.toNat < (2 ^ 32) ^ words.length) :
    wordsValue (normalise words carry) = wordsValue words + carry.toNat ∧
    (normalise words carry).length = words.length ∧ Normal (normalise words carry) := by
  fun_induction normalise words carry with
  | case1 => exact absurd rfl some
  | case2 last carry =>
    have single : wordsValue [last] = last.toNat := by simp [wordsValue]
    have sum : (last + carry).toNat = last.toNat + carry.toNat := by
      have bound := room last (by simp)
      rw [UInt64.toNat_add]
      omega
    rw [single, List.length_singleton, pow_one] at fits
    refine ⟨by simp [wordsValue, sum], rfl, ?_⟩
    intro word member
    rw [List.mem_singleton.mp member, sum]
    exact fits
  | case3 word rest carry more hypothesis =>
    have nonempty : rest ≠ [] := fun empty => more empty
    have sum : (word + carry).toNat = word.toNat + carry.toNat := by
      have bound := room word (by simp)
      rw [UInt64.toNat_add]
      omega
    have shifted := toNat_shiftRight_limb (word + carry)
    have cut := toNat_and_limbMask (word + carry)
    have bound := room word (by simp)
    rw [wordsValue_cons, List.length_cons, pow_succ (2 ^ 32) rest.length] at fits
    have carried : ((word + carry) >>> 32).toNat < 2 ^ 32 := by omega
    obtain ⟨value, length, normal⟩ := hypothesis nonempty
      (fun other member => room other (List.mem_cons_of_mem _ member)) carried (by omega)
    refine ⟨?_, by simp [length], ?_⟩
    · rw [wordsValue_cons, wordsValue_cons, value, cut, shifted]
      omega
    · intro other member
      rcases List.mem_cons.mp member with rfl | inside
      · rw [cut]
        exact Nat.mod_lt _ (by omega)
      · exact normal other inside

/-- The words of `foldWord` without its test for zero. -/
def foldedAt (factor : UInt64) (words : List UInt64) (index : Nat) : List UInt64 :=
  let value := words.getD index 0
  let words := words.set index 0
  let words := words.set (index - 8) (words.getD (index - 8) 0 + value * factor)
  words.set (index - 7) (words.getD (index - 7) 0 + value)

theorem set_getD_self (words : List UInt64) (index : Nat) : words.set index (words.getD index 0) = words := by
  induction words generalizing index with
  | nil => rfl
  | cons word rest hypothesis =>
    cases index with
    | zero => rfl
    | succ index => simpa using hypothesis index

theorem foldWord_words (state : List UInt64 × Bool) (index : Nat) :
    (foldWord state index).1 = foldedAt 977 state.1 index := by
  simp only [foldWord, foldedAt]
  split
  · rename_i zero
    rw [beq_iff_eq] at zero
    have same : state.1.set index 0 = state.1 := by
      conv_lhs => rw [← zero]
      exact set_getD_self state.1 index
    rw [zero, same, UInt64.zero_mul, UInt64.add_zero, set_getD_self, UInt64.add_zero, set_getD_self]
  · rfl

theorem foldl_foldWord_words (indices : List Nat) (state : List UInt64 × Bool) :
    (indices.foldl foldWord state).1 = indices.foldl (foldedAt 977) state.1 := by
  induction indices generalizing state with
  | nil => rfl
  | cons index rest hypothesis => rw [List.foldl_cons, List.foldl_cons, hypothesis, foldWord_words]

theorem foldWord_idle {state : List UInt64 × Bool} {index : Nat} (zero : state.1.getD index 0 = 0) :
    foldWord state index = state := by
  simp only [foldWord, zero, beq_self_eq_true, if_true]

theorem foldl_foldWord_idle (indices : List Nat) (state : List UInt64 × Bool)
    (zeroes : ∀ index ∈ indices, state.1.getD index 0 = 0) : indices.foldl foldWord state = state := by
  induction indices with
  | nil => rfl
  | cons index rest hypothesis =>
    rw [List.foldl_cons, foldWord_idle (zeroes index (by simp))]
    exact hypothesis (fun other member => zeroes other (List.mem_cons_of_mem _ member))

theorem foldl_foldWord_true (indices : List Nat) (state : List UInt64 × Bool) (set : state.2 = true) :
    (indices.foldl foldWord state).2 = true := by
  induction indices generalizing state with
  | nil => exact set
  | cons index rest hypothesis =>
    rw [List.foldl_cons]
    apply hypothesis
    simp only [foldWord]
    split
    · exact set
    · rfl

/-- No flag, no high word: the fold left everything in place. -/
theorem foldl_foldWord_false (indices : List Nat) (state : List UInt64 × Bool)
    (unset : (indices.foldl foldWord state).2 = false) :
    (indices.foldl foldWord state).1 = state.1 ∧ ∀ index ∈ indices, state.1.getD index 0 = 0 := by
  induction indices generalizing state with
  | nil => exact ⟨rfl, by simp⟩
  | cons index rest hypothesis =>
    rw [List.foldl_cons] at unset ⊢
    obtain ⟨kept, zeroes⟩ := hypothesis (foldWord state index) unset
    by_cases zero : state.1.getD index 0 = 0
    · rw [foldWord_idle zero] at kept zeroes ⊢
      exact ⟨kept, List.forall_mem_cons.mpr ⟨zero, zeroes⟩⟩
    · have flagged : (foldWord state index).2 = true := by
        simp only [foldWord, beq_iff_eq, if_neg zero]
      rw [foldl_foldWord_true rest _ flagged] at unset
      cases unset

/-- The folded words, one by one. -/
theorem foldl_foldedAt (factor w0 w1 w2 w3 w4 w5 w6 w7 w8 w9 w10 w11 w12 w13 w14 w15 w16 w17 : UInt64) :
    highIndices.foldl (foldedAt factor)
      [w0, w1, w2, w3, w4, w5, w6, w7, w8, w9, w10, w11, w12, w13, w14, w15, w16, w17] =
    [w0 + (w8 + w16 * factor + w15) * factor,
      w1 + (w9 + w17 * factor + w16) * factor + (w8 + w16 * factor + w15),
      w2 + (w10 + w17) * factor + (w9 + w17 * factor + w16), w3 + w11 * factor + (w10 + w17),
      w4 + w12 * factor + w11, w5 + w13 * factor + w12, w6 + w14 * factor + w13, w7 + w15 * factor + w14,
      0, 0, 0, 0, 0, 0, 0, 0, 0, 0] := by
  simp [highIndices, foldedAt]

/-- `2^256` modulo the prime. -/
def fold : Nat := 2 ^ 32 + 977

/-- What a fold of normal words of that value does: it leaves low words only, and
takes the prime off the value as often as the high words say. -/
def Folded (value : Nat) (folded : List UInt64) : Prop :=
  ∃ low, folded = low ++ List.replicate 10 0 ∧ low.length = 8 ∧ (∀ word ∈ low, word.toNat < 2 ^ 60) ∧
    ∃ quotient, wordsValue low + fieldPrime * quotient = value ∧ value / 2 ^ 256 ≤ quotient

theorem toNat_977 : (977 : UInt64).toNat = 977 := rfl

theorem toNat_gather (word high next : UInt64) {factor : UInt64} (multiplier : factor.toNat = 977)
    (wordSmall : word.toNat < 2 ^ 32) (highSmall : high.toNat < 2 ^ 43) (nextSmall : next.toNat < 2 ^ 43) :
    (word + high * factor + next).toNat = word.toNat + high.toNat * 977 + next.toNat := by
  simp only [UInt64.toNat_add, UInt64.toNat_mul, multiplier]
  omega

theorem folded_normal {words : List UInt64} (size : words.length = 18) (normal : Normal words)
    (last : words.getD 17 0 = 0) : Folded (wordsValue words) (highIndices.foldl (foldedAt 977) words) := by
  match words, size with
  | [w0, w1, w2, w3, w4, w5, w6, w7, w8, w9, w10, w11, w12, w13, w14, w15, w16, w17], _ =>
    have zero : w17 = 0 := last
    subst zero
    have expanded := foldl_foldedAt 977 w0 w1 w2 w3 w4 w5 w6 w7 w8 w9 w10 w11 w12 w13 w14 w15 w16 0
    have factor := toNat_977
    generalize (977 : UInt64) = constant at expanded factor ⊢
    rw [expanded]
    simp only [Normal, List.forall_mem_cons] at normal
    obtain ⟨b0, b1, b2, b3, b4, b5, b6, b7, b8, b9, b10, b11, b12, b13, b14, b15, b16, -⟩ := normal
    have value8 := toNat_gather w8 w16 w15 factor b8 (by omega) (by omega)
    have value9 := toNat_gather w9 0 w16 factor b9 (by decide) (by omega)
    have value10 : (w10 + 0).toNat = w10.toNat := by rw [UInt64.add_zero]
    rw [UInt64.toNat_zero, Nat.zero_mul, Nat.add_zero] at value9
    generalize w8 + w16 * constant + w15 = word8 at value8
    generalize w9 + 0 * constant + w16 = word9 at value9
    generalize w10 + 0 = word10 at value10
    have value0 := toNat_gather w0 word8 0 factor b0 (by omega) (by decide)
    have value1 := toNat_gather w1 word9 word8 factor b1 (by omega) (by omega)
    have value2 := toNat_gather w2 word10 word9 factor b2 (by omega) (by omega)
    have value3 := toNat_gather w3 w11 word10 factor b3 (by omega) (by omega)
    have value4 := toNat_gather w4 w12 w11 factor b4 (by omega) (by omega)
    have value5 := toNat_gather w5 w13 w12 factor b5 (by omega) (by omega)
    have value6 := toNat_gather w6 w14 w13 factor b6 (by omega) (by omega)
    have value7 := toNat_gather w7 w15 w14 factor b7 (by omega) (by omega)
    rw [UInt64.add_zero, UInt64.toNat_zero, Nat.add_zero] at value0
    generalize w0 + word8 * constant = word0 at value0
    generalize w1 + word9 * constant + word8 = word1 at value1
    generalize w2 + word10 * constant + word9 = word2 at value2
    generalize w3 + w11 * constant + word10 = word3 at value3
    generalize w4 + w12 * constant + w11 = word4 at value4
    generalize w5 + w13 * constant + w12 = word5 at value5
    generalize w6 + w14 * constant + w13 = word6 at value6
    generalize w7 + w15 * constant + w14 = word7 at value7
    refine ⟨[word0, word1, word2, word3, word4, word5, word6, word7], rfl, rfl, ?_, ?_⟩
    · simp only [List.forall_mem_cons, List.not_mem_nil, false_implies, implies_true, and_true]
      omega
    · refine ⟨word8.toNat + 2 ^ 32 * (word9.toNat + 2 ^ 32 * (word10.toNat + 2 ^ 32 * (w11.toNat +
        2 ^ 32 * (w12.toNat + 2 ^ 32 * (w13.toNat + 2 ^ 32 * (w14.toNat + 2 ^ 32 * (w15.toNat +
          2 ^ 32 * w16.toNat))))))), ?_, ?_⟩
      · simp only [wordsValue_cons, wordsValue_nil, UInt64.toNat_zero, value0, value1, value2, value3,
          value4, value5, value6, value7, value8, value9, value10]
        unfold fieldPrime
        ring
      · clear value0 value1 value2 value3 value4 value5 value6 value7 expanded factor
        simp only [wordsValue_cons, wordsValue_nil, UInt64.toNat_zero]
        omega

theorem getD_le_wordsValue (words : List UInt64) (index : Nat) :
    (words.getD index 0).toNat * (2 ^ 32) ^ index ≤ wordsValue words := by
  induction words generalizing index with
  | nil => simp
  | cons word rest hypothesis =>
    rw [wordsValue_cons]
    cases index with
    | zero => simp
    | succ index =>
      have below := hypothesis index
      rw [List.getD_cons_succ, pow_succ (2 ^ 32) index, ← Nat.mul_assoc]
      omega

/-- A word whose weight is above the value is zero. -/
theorem getD_eq_zero {words : List UInt64} {index : Nat} (below : wordsValue words < (2 ^ 32) ^ index) :
    words.getD index 0 = 0 := by
  have bound := (getD_le_wordsValue words index).trans_lt below
  have zero : (words.getD index 0).toNat = 0 := by
    rw [← Nat.lt_one_iff]
    exact Nat.lt_of_mul_lt_mul_right (a := (2 ^ 32) ^ index) (by omega)
  exact UInt64.toNat_inj.mp zero

theorem wordsValue_append_zeroes (low : List UInt64) (count : Nat) :
    wordsValue (low ++ List.replicate count 0) = wordsValue low := by
  induction low with
  | nil =>
    induction count with
    | zero => rfl
    | succ count hypothesis => simpa [List.replicate_succ, wordsValue_cons, wordsValue_nil] using hypothesis
  | cons word rest hypothesis => rw [List.cons_append, wordsValue_cons, wordsValue_cons, hypothesis]

/-- Words with room of 28 bits stay within 29 bits of their base. -/
theorem wordsValue_room (words : List UInt64) (room : ∀ word ∈ words, word.toNat < 2 ^ 60) :
    wordsValue words + 2 ^ 29 ≤ 2 ^ 29 * (2 ^ 32) ^ words.length := by
  induction words with
  | nil => simp [wordsValue_nil]
  | cons word rest hypothesis =>
    have first := room word (by simp)
    have others := hypothesis (fun other member => room other (List.mem_cons_of_mem _ member))
    rw [wordsValue_cons, List.length_cons, pow_succ (2 ^ 32) rest.length]
    omega

/-- The words of a finished reduction. -/
def Settled (value : Nat) (words : List UInt64) : Prop :=
  ∃ low, words = low ++ List.replicate 10 0 ∧ low.length = 8 ∧ Normal low ∧
    wordsValue low % fieldPrime = value % fieldPrime

theorem eq_low_append_zeroes {words : List UInt64} (size : words.length = 18)
    (high : ∀ index ∈ highIndices, words.getD index 0 = 0) :
    words = words.take 8 ++ List.replicate 10 0 := by
  match words, size with
  | [w0, w1, w2, w3, w4, w5, w6, w7, w8, w9, w10, w11, w12, w13, w14, w15, w16, w17], _ =>
    simp only [highIndices, List.forall_mem_cons, List.getD_cons_succ, List.getD_cons_zero] at high
    obtain ⟨rfl, rfl, rfl, rfl, rfl, rfl, rfl, rfl, rfl, rfl, -⟩ := high
    rfl

/-- The bound on the value that so many more passes can settle. -/
def limit : Nat → Nat
  | 0 => 2 ^ 256
  | 1 => 2 ^ 256 + 2 ^ 62
  | 2 => 2 ^ 256 * 2 ^ 29
  | _ + 3 => (2 ^ 32) ^ 17

theorem limit_three_le : limit 3 ≤ (2 ^ 32) ^ 18 := Nat.pow_le_pow_right (by omega) (by omega)

theorem le_limit_three : 2 ^ 256 * 2 ^ 29 ≤ limit 3 := by
  have low : (2 ^ 32) ^ 8 = 2 ^ 256 := by rw [← pow_mul]
  have high : 2 ^ 29 ≤ (2 ^ 32) ^ 9 := le_trans (by omega) (Nat.le_self_pow (by omega) (2 ^ 32))
  have power : limit 3 = 2 ^ 256 * (2 ^ 32) ^ 9 := by rw [← low, ← pow_add, limit]
  rw [power]
  exact Nat.mul_le_mul_left _ high

theorem limit_le (count : Nat) : limit count ≤ limit 3 := by
  match count with
  | 0 => exact le_trans (by simp only [limit]; omega) le_limit_three
  | 1 => exact le_trans (by simp only [limit]; omega) le_limit_three
  | 2 => exact le_limit_three
  | count + 3 => exact le_rfl

/-- A fold brings the value under the next lower limit. -/
theorem folded_limit {value folded quotient count : Nat} (below : value < limit (count + 1))
    (roof : folded < 2 ^ 256 * 2 ^ 29) (removed : folded + fieldPrime * quotient = value)
    (enough : value / 2 ^ 256 ≤ quotient) (high : 2 ^ 256 ≤ value) : folded < limit count := by
  match count with
  | 0 =>
    have bound : value < 2 ^ 256 + 2 ^ 62 := below
    have target : limit 0 = 2 ^ 256 := rfl
    unfold fieldPrime at removed
    omega
  | 1 =>
    have bound : value < 2 ^ 256 * 2 ^ 29 := below
    have target : limit 1 = 2 ^ 256 + 2 ^ 62 := rfl
    unfold fieldPrime at removed
    omega
  | 2 => exact roof
  | count + 3 => exact roof.trans_le le_limit_three

/-- The carries of a pass, for words with room. -/
theorem normalise_settles {words : List UInt64} (roomy : Roomy words) (fits : wordsValue words < limit 3) :
    wordsValue (normalise words 0) = wordsValue words ∧ (normalise words 0).length = 18 ∧
    Normal (normalise words 0) := by
  obtain ⟨size, room⟩ := roomy
  have some : words ≠ [] := by
    intro none
    rw [none] at size
    cases size
  have wide : wordsValue words + (0 : UInt64).toNat < (2 ^ 32) ^ words.length := by
    rw [UInt64.toNat_zero, Nat.add_zero, size]
    exact fits.trans_le limit_three_le
  obtain ⟨value, length, normal⟩ := normalise_value words 0 some room (by decide) wide
  rw [UInt64.toNat_zero, Nat.add_zero] at value
  exact ⟨value, length.trans size, normal⟩

/-- One pass: either nothing is left above eight words, or a fold was made. -/
theorem pass_cases {words : List UInt64} (roomy : Roomy words) (fits : wordsValue words < limit 3) :
    ((foldWords (normalise words 0)).2 = false ∧
      Settled (wordsValue words) (foldWords (normalise words 0)).1) ∨
    ((foldWords (normalise words 0)).2 = true ∧ 2 ^ 256 ≤ wordsValue words ∧
      Folded (wordsValue words) (foldWords (normalise words 0)).1) := by
  obtain ⟨value, length, normal⟩ := normalise_settles roomy fits
  have high (index : Nat) (below : wordsValue words < (2 ^ 32) ^ index) :
      (normalise words 0).getD index 0 = 0 := getD_eq_zero (value ▸ below)
  cases flag : (foldWords (normalise words 0)).2 with
  | false =>
    obtain ⟨kept, zeroes⟩ := foldl_foldWord_false highIndices (normalise words 0, false) flag
    have split := eq_low_append_zeroes length zeroes
    refine .inl ⟨rfl, (normalise words 0).take 8, ?_, by simp [length], ?_, ?_⟩
    · rw [foldWords, kept]
      exact split
    · exact fun word member => normal word (List.mem_of_mem_take member)
    · rw [split, wordsValue_append_zeroes] at value
      rw [value]
  | true =>
    refine .inr ⟨rfl, ?_, ?_⟩
    · by_contra small
      have idle := foldl_foldWord_idle highIndices (normalise words 0, false) (fun index member => ?_)
      · rw [foldWords, idle] at flag
        cases flag
      · apply high
        have least : 8 ≤ index := by
          simp only [highIndices, List.mem_cons, List.not_mem_nil, or_false] at member
          omega
        have power : (2 ^ 32) ^ 8 ≤ (2 ^ 32) ^ index := Nat.pow_le_pow_right (by omega) least
        omega
    · have last := high 17 fits
      rw [foldWords, foldl_foldWord_words, ← value]
      exact folded_normal length normal last

/-- A fold leaves room for the next pass, under the next lower limit. -/
theorem Folded.next {value count : Nat} {words : List UInt64} (folded : Folded value words)
    (below : value < limit (count + 1)) (high : 2 ^ 256 ≤ value) :
    Roomy words ∧ wordsValue words < limit count ∧ wordsValue words % fieldPrime = value % fieldPrime := by
  obtain ⟨low, rfl, size, room, quotient, removed, enough⟩ := folded
  have roof := wordsValue_room low room
  rw [size, ← pow_mul] at roof
  rw [wordsValue_append_zeroes]
  refine ⟨⟨by simp [size], ?_⟩, folded_limit below (by omega) removed enough high, ?_⟩
  · intro word member
    rcases List.mem_append.mp member with inside | zero
    · exact room word inside
    · rw [(List.mem_replicate.mp zero).2]
      decide
  · rw [← removed, Nat.add_mul_mod_self_left]

theorem passes_settle (count : Nat) {words : List UInt64} (roomy : Roomy words)
    (below : wordsValue words < limit count) : Settled (wordsValue words) (passes (count + 1) words) := by
  induction count generalizing words with
  | zero =>
    rcases pass_cases roomy (below.trans_le (limit_le 0)) with ⟨unset, settled⟩ | ⟨-, high, -⟩
    · simp only [passes, unset]
      exact settled
    · exact absurd below (Nat.not_lt.mpr high)
  | succ count hypothesis =>
    rcases pass_cases roomy (below.trans_le (limit_le (count + 1))) with
      ⟨unset, settled⟩ | ⟨set, high, folded⟩
    · rw [passes]
      simp only [unset]
      exact settled
    · obtain ⟨next, lower, same⟩ := folded.next below high
      obtain ⟨rest, shape, size, normal, residue⟩ := hypothesis next lower
      rw [passes]
      simp only [set, if_true]
      exact ⟨rest, shape, size, normal, residue.trans same⟩

theorem lowLimbs_value {low : List UInt64} (size : low.length = 8) (normal : Normal low) :
    (lowLimbs (low ++ List.replicate 10 0)).value = wordsValue low := by
  match low, size with
  | [w0, w1, w2, w3, w4, w5, w6, w7], _ =>
    have limbs : (lowLimbs ([w0, w1, w2, w3, w4, w5, w6, w7] ++ List.replicate 10 0)).limbs =
        [w0, w1, w2, w3, w4, w5, w6, w7].map UInt64.toUInt32 := by
      simp only [lowLimbs, List.range_succ, List.range_zero, List.nil_append, List.map_cons, List.map_nil,
        List.cons_append, List.getD_cons_zero, List.getD_cons_succ]
    have values : [w0, w1, w2, w3, w4, w5, w6, w7].map (UInt32.toNat ∘ UInt64.toUInt32) =
        [w0, w1, w2, w3, w4, w5, w6, w7].map UInt64.toNat := by
      apply List.map_congr_left
      intro word member
      rw [Function.comp_apply, UInt64.toNat_toUInt32, Nat.mod_eq_of_lt (normal word member)]
    rw [Field.value, limbsValue, limbs, List.map_map, values, wordsValue]

theorem toNat_toUInt64_add (left right : UInt32) :
    (left.toUInt64 + right.toUInt64).toNat = left.toNat + right.toNat := by
  have first := left.toNat_lt
  have second := right.toNat_lt
  rw [UInt64.toNat_add, UInt32.toNat_toUInt64, UInt32.toNat_toUInt64]
  omega

theorem subtractLimb_settles (left right : UInt32) (borrow : UInt64) (small : borrow.toNat ≤ 1) :
    (subtractLimb left right borrow).1.toNat + right.toNat + borrow.toNat =
      left.toNat + 2 ^ 32 * (subtractLimb left right borrow).2.toNat ∧
    (subtractLimb left right borrow).2.toNat ≤ 1 := by
  have first := left.toNat_lt
  have second := right.toNat_lt
  have subtrahend : (right.toUInt64 + borrow).toNat = right.toNat + borrow.toNat := by
    rw [UInt64.toNat_add, UInt32.toNat_toUInt64]
    omega
  have difference := UInt64.toNat_sub left.toUInt64 (right.toUInt64 + borrow)
  rw [subtrahend, UInt32.toNat_toUInt64] at difference
  simp only [subtractLimb, UInt64.toNat_toUInt32, difference]
  split
  · rename_i borrows
    rw [UInt64.lt_iff_toNat_lt, subtrahend, UInt32.toNat_toUInt64] at borrows
    have one : (1 : UInt64).toNat = 1 := rfl
    omega
  · rename_i enough
    rw [UInt64.lt_iff_toNat_lt, subtrahend, UInt32.toNat_toUInt64] at enough
    have zero : (0 : UInt64).toNat = 0 := rfl
    omega

/-- A raw difference, up to a borrow out of the last limb. -/
theorem fieldSubtractRaw_settles (left right : Field) : ∃ borrow ≤ 1,
    (fieldSubtractRaw left right).value + right.value = left.value + 2 ^ 256 * borrow := by
  have inputs : (left.limbs.zip right.limbs).length = 8 := by simp [left.size, right.size]
  obtain ⟨last, total⟩ := Limbs.pass_borrow (2 ^ 32) UInt32.toNat
    (fun pair : UInt32 × UInt32 => pair.1.toNat) (fun pair => pair.2.toNat) UInt64.toNat (·.toNat ≤ 1)
    (fun pair borrow small => (subtractLimb_settles pair.1 pair.2 borrow small).1)
    (fun pair borrow small => (subtractLimb_settles pair.1 pair.2 borrow small).2)
    (left.limbs.zip right.limbs) 0 (by decide)
  have same : left.limbs.length = right.limbs.length := left.size.trans right.size.symm
  have power : (2 ^ 32) ^ 8 = 2 ^ 256 := by norm_num
  rw [Limbs.map_zip_left UInt32.toNat same, Limbs.map_zip_right UInt32.toNat same, inputs, power,
    UInt64.toNat_zero, Nat.add_zero] at total
  exact ⟨_, last, total⟩

theorem prime_value : prime.value = fieldPrime := by decide

theorem fieldAtLeast_iff (left right : Field) :
    fieldAtLeast left right = true ↔ right.value ≤ left.value := by
  have order (left right : UInt32) : left < right ↔ left.toNat < right.toNat := UInt32.lt_iff_toNat_lt
  have same : left.limbs.reverse.length = right.limbs.reverse.length := by
    rw [List.length_reverse, List.length_reverse, left.size, right.size]
  have compared := Limbs.atLeast_iff order (fun _ _ => UInt32.toNat_inj.mp) UInt32.toNat_lt same
  rw [Digits.value_eq_ofDigits, Digits.value_eq_ofDigits, ← List.map_reverse, ← List.map_reverse,
    List.reverse_reverse, List.reverse_reverse] at compared
  exact compared

/-- A reduction is the residue of the accumulator. -/
theorem reduceAccumulator_value {words : List UInt64} (roomy : Roomy words)
    (fits : wordsValue words < limit 3) :
    (reduceAccumulator words).value = wordsValue words % fieldPrime := by
  obtain ⟨low, shape, size, normal, residue⟩ := passes_settle 11 roomy fits
  have value := lowLimbs_value size normal
  have bound := (lowLimbs (low ++ List.replicate 10 0)).value_lt
  rw [← residue, ← value]
  simp only [reduceAccumulator, shape]
  split
  · rename_i large
    rw [fieldAtLeast_iff, prime_value] at large
    obtain ⟨borrow, small, difference⟩ :=
      fieldSubtractRaw_settles (lowLimbs (low ++ List.replicate 10 0)) prime
    have less := (fieldSubtractRaw (lowLimbs (low ++ List.replicate 10 0)) prime).value_lt
    rw [prime_value] at difference
    unfold fieldPrime at *
    omega
  · rename_i below
    rw [fieldAtLeast_iff, prime_value, Nat.not_le] at below
    exact (Nat.mod_eq_of_lt below).symm

theorem multiplyStep_settles (left : UInt32) (pair : UInt32 × UInt32) (carry : UInt64)
    (small : carry.toNat < 2 ^ 32) :
    (multiplyStep left pair carry).1.toNat + 2 ^ 32 * (multiplyStep left pair carry).2.toNat =
      pair.2.toNat + left.toNat * pair.1.toNat + carry.toNat ∧
    (multiplyStep left pair carry).2.toNat < 2 ^ 32 := by
  have leftSmall := left.toNat_lt
  have rightSmall := pair.1.toNat_lt
  have oldSmall := pair.2.toNat_lt
  have largest : left.toNat * pair.1.toNat ≤ (2 ^ 32 - 1) * (2 ^ 32 - 1) :=
    Nat.mul_le_mul (by omega) (by omega)
  have combined : (left.toUInt64 * pair.1.toUInt64 + pair.2.toUInt64 + carry).toNat =
      left.toNat * pair.1.toNat + pair.2.toNat + carry.toNat := by
    simp only [UInt64.toNat_add, UInt64.toNat_mul, UInt32.toNat_toUInt64]
    omega
  simp only [multiplyStep, UInt64.toNat_toUInt32, toNat_shiftRight_limb, combined]
  omega

theorem productLimbs_value (left right : Field) :
    limbsValue (productLimbs left right) = left.value * right.value ∧
    (productLimbs left right).length = 16 := by
  have some : right.limbs ≠ [] := by
    intro none
    simpa [none] using right.size
  obtain ⟨value, length⟩ := Limbs.multiply_value (2 ^ 32) UInt32.toNat UInt64.toNat (·.toNat < 2 ^ 32)
    (fun left pair carry small => (multiplyStep_settles left pair carry small).1)
    (fun left pair carry small => (multiplyStep_settles left pair carry small).2) (by decide)
    UInt64.toNat_zero
    (fun carry small => show carry.toUInt32.toNat = carry.toNat by
      rw [UInt64.toNat_toUInt32, Nat.mod_eq_of_lt small])
    some left.limbs (List.replicate 8 0) (by simp [right.size])
  have empty : Nat.ofDigits (2 ^ 32) ((List.replicate 8 (0 : UInt32)).map UInt32.toNat) = 0 := by
    simp [List.replicate, Nat.ofDigits_cons]
  rw [empty, Nat.zero_add] at value
  exact ⟨value, by rw [productLimbs, length, left.size, List.length_replicate]⟩

end TronForge.Native.CudaSecp
