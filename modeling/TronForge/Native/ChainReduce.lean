import TronForge.Native.ChainField
import TronForge.Native.Modulus

/-! The four-limb operations are exact: every carry is accounted for, and a
reduction is the residue below the modulus. -/

namespace TronForge.Native.CudaChain

open Library

def wordsValue (words : List UInt64) : Nat := Nat.ofDigits (2 ^ 64) (words.map UInt64.toNat)

def Field.value (field : Field) : Nat := wordsValue field.limbs

theorem wordsValue_lt (words : List UInt64) : wordsValue words < (2 ^ 64) ^ words.length := by
  have bounded : ∀ digit ∈ words.map UInt64.toNat, digit < 2 ^ 64 := by
    intro digit member
    obtain ⟨word, -, rfl⟩ := List.mem_map.mp member
    exact word.toNat_lt
  simpa [wordsValue] using Nat.ofDigits_lt_base_pow_length (by omega) bounded

theorem Field.value_lt (field : Field) : field.value < 2 ^ 256 := by
  have small := wordsValue_lt field.limbs
  rw [field.size] at small
  exact small

theorem addTo_settles (summand addend : UInt64) :
    (addTo summand addend).1.toNat + 2 ^ 64 * (addTo summand addend).2.toNat =
      summand.toNat + addend.toNat ∧ (addTo summand addend).2.toNat ≤ 1 := by
  have first := summand.toNat_lt
  have second := addend.toNat_lt
  have sum := UInt64.toNat_add summand addend
  simp only [addTo]
  split
  · rename_i wrapped
    rw [UInt64.lt_iff_toNat_lt] at wrapped
    have one : (1 : UInt64).toNat = 1 := rfl
    omega
  · rename_i exact_
    rw [UInt64.lt_iff_toNat_lt] at exact_
    have zero : (0 : UInt64).toNat = 0 := rfl
    omega

theorem umul64hi_settles (left right : UInt64) :
    (left * right).toNat + 2 ^ 64 * (umul64hi left right).toNat = left.toNat * right.toNat := by
  have bound : left.toNat * right.toNat / 2 ^ 64 < 2 ^ 64 := by
    rw [Nat.div_lt_iff_lt_mul (by omega)]
    exact Nat.mul_lt_mul'' left.toNat_lt right.toNat_lt
  rw [UInt64.toNat_mul, umul64hi, UInt64.toNat_ofNat_of_lt' bound]
  exact Nat.mod_add_div _ _

/-- Three carries fit in a word. -/
theorem toNat_add_carries {first second third : UInt64} (one : first.toNat ≤ 1) (two : second.toNat ≤ 1)
    (three : third.toNat ≤ 1) : (first + second + third).toNat = first.toNat + second.toNat + third.toNat := by
  simp only [UInt64.toNat_add]
  omega

theorem foldLimb_settles (limb low high carry : UInt64) :
    (foldLimb limb low high carry).1.toNat + 2 ^ 64 * (foldLimb limb low high carry).2.toNat =
      limb.toNat + low.toNat + high.toNat + carry.toNat ∧ (foldLimb limb low high carry).2.toNat ≤ 3 := by
  obtain ⟨first, one⟩ := addTo_settles limb low
  obtain ⟨second, two⟩ := addTo_settles (addTo limb low).1 high
  obtain ⟨third, three⟩ := addTo_settles (addTo (addTo limb low).1 high).1 carry
  have carries := toNat_add_carries one two three
  simp only [foldLimb, carries]
  omega

theorem addWithCarry_settles (left right carry : UInt64) (small : carry.toNat ≤ 1) :
    (addWithCarry left right carry).1.toNat + 2 ^ 64 * (addWithCarry left right carry).2.toNat =
      left.toNat + right.toNat + carry.toNat ∧ (addWithCarry left right carry).2.toNat ≤ 1 := by
  obtain ⟨first, one⟩ := addTo_settles left right
  obtain ⟨second, two⟩ := addTo_settles (addTo left right).1 carry
  have same : addWithCarry left right carry =
      ((addTo (addTo left right).1 carry).1, (addTo left right).2 + (addTo (addTo left right).1 carry).2) := rfl
  have carries := toNat_add_carries one two (by decide : (0 : UInt64).toNat ≤ 1)
  rw [UInt64.add_zero, UInt64.toNat_zero, Nat.add_zero] at carries
  have leftSmall := left.toNat_lt
  have rightSmall := right.toNat_lt
  rw [same]
  simp only [carries]
  omega

/-- A borrow shows as a difference above its minuend. -/
theorem subtract_settles (minuend subtrahend : UInt64) :
    (minuend - subtrahend).toNat + subtrahend.toNat =
      minuend.toNat + 2 ^ 64 * (if minuend < subtrahend then 1 else 0 : UInt64).toNat ∧
    (if minuend < subtrahend then 1 else 0 : UInt64).toNat ≤ 1 := by
  have first := minuend.toNat_lt
  have second := subtrahend.toNat_lt
  have difference := UInt64.toNat_sub minuend subtrahend
  split
  · rename_i borrows
    rw [UInt64.lt_iff_toNat_lt] at borrows
    have one : (1 : UInt64).toNat = 1 := rfl
    omega
  · rename_i enough
    rw [UInt64.lt_iff_toNat_lt] at enough
    have zero : (0 : UInt64).toNat = 0 := rfl
    omega

theorem subtractWithBorrow_settles (left right borrow : UInt64) (small : borrow.toNat ≤ 1) :
    (subtractWithBorrow left right borrow).1.toNat + right.toNat + borrow.toNat =
      left.toNat + 2 ^ 64 * (subtractWithBorrow left right borrow).2.toNat ∧
    (subtractWithBorrow left right borrow).2.toNat ≤ 1 := by
  obtain ⟨first, one⟩ := subtract_settles left right
  obtain ⟨second, two⟩ := subtract_settles (left - right) borrow
  have carries := toNat_add_carries one two (by decide : (0 : UInt64).toNat ≤ 1)
  rw [UInt64.add_zero, UInt64.toNat_zero, Nat.add_zero] at carries
  have leftSmall := left.toNat_lt
  have rightSmall := right.toNat_lt
  have last := (left - right - borrow).toNat_lt
  simp only [subtractWithBorrow, carries]
  omega

theorem multiplyStep_settles (left : UInt64) (pair : UInt64 × UInt64) (carry : UInt64) :
    (multiplyStep left pair carry).1.toNat + 2 ^ 64 * (multiplyStep left pair carry).2.toNat =
      pair.2.toNat + left.toNat * pair.1.toNat + carry.toNat := by
  obtain ⟨first, one⟩ := addTo_settles pair.2 (left * pair.1)
  obtain ⟨second, two⟩ := addTo_settles (addTo pair.2 (left * pair.1)).1 carry
  have product := umul64hi_settles left pair.1
  have same : multiplyStep left pair carry =
      ((addTo (addTo pair.2 (left * pair.1)).1 carry).1,
        umul64hi left pair.1 + (addTo pair.2 (left * pair.1)).2 +
          (addTo (addTo pair.2 (left * pair.1)).1 carry).2) := rfl
  have leftSmall := left.toNat_lt
  have rightSmall := pair.1.toNat_lt
  have oldSmall := pair.2.toNat_lt
  have carrySmall := carry.toNat_lt
  have largest : left.toNat * pair.1.toNat ≤ (2 ^ 64 - 1) * (2 ^ 64 - 1) :=
    Nat.mul_le_mul (by omega) (by omega)
  rw [same]
  simp only [UInt64.toNat_add]
  omega

theorem addRaw_settles (left right : Field) :
    (addRaw left right).1.value + 2 ^ 256 * (addRaw left right).2.toNat = left.value + right.value ∧
    (addRaw left right).2.toNat ≤ 1 := by
  have inputs : (left.limbs.zip right.limbs).length = 4 := by simp [left.size, right.size]
  have settles (pair : UInt64 × UInt64) (carry : UInt64) (small : carry.toNat ≤ 1) :
      (addWithCarry pair.1 pair.2 carry).1.toNat + 2 ^ 64 * (addWithCarry pair.1 pair.2 carry).2.toNat =
        pair.2.toNat + 1 * pair.1.toNat + carry.toNat := by
    have settled := addWithCarry_settles pair.1 pair.2 carry small
    omega
  obtain ⟨last, total⟩ := Limbs.pass_carry (2 ^ 64) UInt64.toNat
    (fun pair => pair.2.toNat + 1 * pair.1.toNat) UInt64.toNat (·.toNat ≤ 1) settles
    (fun pair carry small => (addWithCarry_settles pair.1 pair.2 carry small).2)
    (left.limbs.zip right.limbs) 0 (by decide)
  have power : (2 ^ 64) ^ 4 = 2 ^ 256 := by norm_num
  rw [Limbs.ofDigits_row (2 ^ 64) UInt64.toNat 1 (left.size.trans right.size.symm), inputs, power,
    UInt64.toNat_zero, Nat.one_mul, Nat.add_zero] at total
  refine ⟨?_, last⟩
  simp only [Field.value, wordsValue, addRaw]
  omega

theorem subtractRaw_settles (left right : Field) :
    (subtractRaw left right).1.value + right.value =
      left.value + 2 ^ 256 * (subtractRaw left right).2.toNat ∧ (subtractRaw left right).2.toNat ≤ 1 := by
  have inputs : (left.limbs.zip right.limbs).length = 4 := by simp [left.size, right.size]
  obtain ⟨last, total⟩ := Limbs.pass_borrow (2 ^ 64) UInt64.toNat
    (fun pair : UInt64 × UInt64 => pair.1.toNat) (fun pair => pair.2.toNat) UInt64.toNat (·.toNat ≤ 1)
    (fun pair borrow small => (subtractWithBorrow_settles pair.1 pair.2 borrow small).1)
    (fun pair borrow small => (subtractWithBorrow_settles pair.1 pair.2 borrow small).2)
    (left.limbs.zip right.limbs) 0 (by decide)
  have same : left.limbs.length = right.limbs.length := left.size.trans right.size.symm
  have power : (2 ^ 64) ^ 4 = 2 ^ 256 := by norm_num
  rw [Limbs.map_zip_left UInt64.toNat same, Limbs.map_zip_right UInt64.toNat same, inputs, power,
    UInt64.toNat_zero, Nat.add_zero] at total
  exact ⟨total, last⟩

theorem multiplyFull_value (left right : Field) :
    wordsValue (multiplyFull left right) = left.value * right.value ∧
    (multiplyFull left right).length = 8 := by
  have some : right.limbs ≠ [] := by
    intro none
    simpa [none] using right.size
  obtain ⟨value, length⟩ := Limbs.multiply_value (2 ^ 64) UInt64.toNat UInt64.toNat (fun _ => True)
    (fun left pair carry _ => multiplyStep_settles left pair carry) (fun _ _ _ _ => trivial) trivial
    UInt64.toNat_zero (fun carry _ => show (id carry).toNat = carry.toNat from rfl) some left.limbs
    (List.replicate 4 0) (by simp [right.size])
  have empty : Nat.ofDigits (2 ^ 64) ((List.replicate 4 (0 : UInt64)).map UInt64.toNat) = 0 := by
    simp [List.replicate, Nat.ofDigits_cons]
  rw [empty, Nat.zero_add] at value
  exact ⟨value, by rw [multiplyFull, length, left.size, List.length_replicate]⟩

/-- The four limbs below the top one. -/
def Accumulator.low (accumulator : Accumulator) : Nat :=
  accumulator.limb0.toNat + 2 ^ 64 * accumulator.limb1.toNat + 2 ^ 128 * accumulator.limb2.toNat +
    2 ^ 192 * accumulator.limb3.toNat

/-- `2^256` modulo the prime. -/
def fold : Nat := 2 ^ 32 + 977

theorem reductionConstant_toNat : reductionConstant.toNat = fold := rfl

theorem Accumulator.low_lt (accumulator : Accumulator) : accumulator.low < 2 ^ 256 := by
  have limb0 := accumulator.limb0.toNat_lt
  have limb1 := accumulator.limb1.toNat_lt
  have limb2 := accumulator.limb2.toNat_lt
  have limb3 := accumulator.limb3.toNat_lt
  unfold Accumulator.low
  omega

/-- The limbs of an eight-word number. -/
theorem wordsValue_eight {input : List UInt64} (size : input.length = 8) :
    wordsValue input = (limb input 0).toNat + 2 ^ 64 * (limb input 1).toNat +
      2 ^ 128 * (limb input 2).toNat + 2 ^ 192 * (limb input 3).toNat +
      2 ^ 256 * ((limb input 4).toNat + 2 ^ 64 * (limb input 5).toNat +
        2 ^ 128 * (limb input 6).toNat + 2 ^ 192 * (limb input 7).toNat) := by
  match input, size with
  | [word0, word1, word2, word3, word4, word5, word6, word7], _ =>
    simp only [wordsValue, List.map_cons, List.map_nil, Nat.ofDigits_cons, Nat.ofDigits_nil, limb,
      List.getD_cons_zero, List.getD_cons_succ]
    ring

theorem addTo_of_eq {summand addend sum carry : UInt64} (added : addTo summand addend = (sum, carry)) :
    sum.toNat + 2 ^ 64 * carry.toNat = summand.toNat + addend.toNat ∧ carry.toNat ≤ 1 := by
  have settled := addTo_settles summand addend
  rwa [added] at settled

theorem foldLimb_of_eq {limb low high carry sum next : UInt64}
    (folded : foldLimb limb low high carry = (sum, next)) :
    sum.toNat + 2 ^ 64 * next.toNat = limb.toNat + low.toNat + high.toNat + carry.toNat ∧ next.toNat ≤ 3 := by
  have settled := foldLimb_settles limb low high carry
  rwa [folded] at settled

/-- The first fold is exact. -/
theorem foldHigh_value {input : List UInt64} (size : input.length = 8) :
    (foldHigh input).low + 2 ^ 256 * (foldHigh input).top.toNat =
      wordsValue input % 2 ^ 256 + fold * (wordsValue input / 2 ^ 256) ∧
    (foldHigh input).top.toNat < 2 ^ 34 := by
  have words := wordsValue_eight size
  have product (index : Nat) := umul64hi_settles (limb input index) reductionConstant
  simp only [reductionConstant_toNat, fold] at product
  have product4 := product 4
  have product5 := product 5
  have product6 := product 6
  have product7 := product 7
  have word0 := (limb input 0).toNat_lt
  have word1 := (limb input 1).toNat_lt
  have word2 := (limb input 2).toNat_lt
  have word3 := (limb input 3).toNat_lt
  have word7 := (limb input 7).toNat_lt
  cases first : addTo (limb input 0) (limb input 4 * reductionConstant) with
  | mk limb0 carry0 =>
  cases second : foldLimb (limb input 1) (limb input 5 * reductionConstant)
    (umul64hi (limb input 4) reductionConstant) carry0 with
  | mk limb1 carry1 =>
  cases third : foldLimb (limb input 2) (limb input 6 * reductionConstant)
    (umul64hi (limb input 5) reductionConstant) carry1 with
  | mk limb2 carry2 =>
  cases fourth : foldLimb (limb input 3) (limb input 7 * reductionConstant)
    (umul64hi (limb input 6) reductionConstant) carry2 with
  | mk limb3 carry3 =>
  have folded : foldHigh input =
      ⟨limb0, limb1, limb2, limb3, umul64hi (limb input 7) reductionConstant + carry3⟩ := by
    simp only [foldHigh, first, second, third, fourth]
  obtain ⟨sum0, small0⟩ := addTo_of_eq first
  obtain ⟨sum1, small1⟩ := foldLimb_of_eq second
  obtain ⟨sum2, small2⟩ := foldLimb_of_eq third
  obtain ⟨sum3, small3⟩ := foldLimb_of_eq fourth
  have top : (umul64hi (limb input 7) reductionConstant + carry3).toNat =
      (umul64hi (limb input 7) reductionConstant).toNat + carry3.toNat := by
    rw [UInt64.toNat_add]
    omega
  rw [folded]
  simp only [Accumulator.low, top, fold]
  omega

/-- The fold of the fifth limb is exact. -/
theorem foldTop_value (accumulator : Accumulator) :
    (foldTop accumulator).low + 2 ^ 256 * (foldTop accumulator).top.toNat =
      accumulator.low + fold * accumulator.top.toNat ∧
    (foldTop accumulator).top.toNat ≤ 1 := by
  have product := umul64hi_settles accumulator.top reductionConstant
  rw [reductionConstant_toNat, fold] at product
  have word3 := accumulator.limb3.toNat_lt
  cases first : addTo accumulator.limb0 (accumulator.top * reductionConstant) with
  | mk limb0 carry0 =>
  cases second : addTo accumulator.limb1 (umul64hi accumulator.top reductionConstant) with
  | mk sum carry1 =>
  cases third : addTo sum carry0 with
  | mk limb1 carry2 =>
  cases fourth : addTo accumulator.limb2 (carry1 + carry2) with
  | mk limb2 carry3 =>
  cases fifth : addTo accumulator.limb3 carry3 with
  | mk limb3 carry4 =>
  have folded : foldTop accumulator = ⟨limb0, limb1, limb2, limb3, carry4⟩ := by
    simp only [foldTop, first, second, third, fourth, fifth]
  obtain ⟨sum0, small0⟩ := addTo_of_eq first
  obtain ⟨sum1, small1⟩ := addTo_of_eq second
  obtain ⟨sum2, small2⟩ := addTo_of_eq third
  obtain ⟨sum3, small3⟩ := addTo_of_eq fourth
  obtain ⟨sum4, small4⟩ := addTo_of_eq fifth
  have carries := toNat_add_carries small1 small2 (by decide : (0 : UInt64).toNat ≤ 1)
  rw [UInt64.add_zero, UInt64.toNat_zero, Nat.add_zero] at carries
  rw [folded]
  simp only [Accumulator.low, fold]
  omega

theorem passCarry_of_eq {limb carry word next : UInt64} (small : carry.toNat ≤ 1)
    (passed : passCarry limb carry = (word, next)) :
    word.toNat + 2 ^ 64 * next.toNat = limb.toNat + carry.toNat ∧ next.toNat ≤ 1 := by
  unfold passCarry at passed
  split at passed
  · rename_i some
    have one : carry.toNat ≠ 0 := fun none => some (UInt64.toNat_inj.mp none)
    obtain ⟨sum, nextSmall⟩ := addTo_of_eq passed
    have unit : (1 : UInt64).toNat = 1 := rfl
    omega
  · rename_i none
    have zero : carry = 0 := not_not.mp none
    cases passed
    simp [zero]

theorem Field.value_mk (limb0 limb1 limb2 limb3 : UInt64) (size : [limb0, limb1, limb2, limb3].length = 4) :
    (Field.mk [limb0, limb1, limb2, limb3] size).value = limb0.toNat + 2 ^ 64 * limb1.toNat +
      2 ^ 128 * limb2.toNat + 2 ^ 192 * limb3.toNat := by
  have words : wordsValue [limb0, limb1, limb2, limb3] =
      limb0.toNat + 2 ^ 64 * (limb1.toNat + 2 ^ 64 * (limb2.toNat + 2 ^ 64 * limb3.toNat)) := by
    simp [wordsValue, Nat.ofDigits_cons]
  rw [Field.value, words]
  ring

theorem foldCarry_of_top {accumulator : Accumulator} {limb0 limb1 limb2 limb3 carry0 carry1 carry2 carry3 : UInt64}
    (some : accumulator.top ≠ 0)
    (first : addTo accumulator.limb0 (accumulator.top * reductionConstant) = (limb0, carry0))
    (second : passCarry accumulator.limb1 carry0 = (limb1, carry1))
    (third : passCarry accumulator.limb2 carry1 = (limb2, carry2))
    (fourth : passCarry accumulator.limb3 carry2 = (limb3, carry3)) :
    foldCarry accumulator = ⟨[limb0, limb1, limb2, limb3], rfl⟩ := by
  unfold foldCarry
  rw [if_pos some]
  -- the product stays closed: the kernel would otherwise multiply literals in unary
  generalize accumulator.top * reductionConstant = addend at *
  rw [first]
  dsimp only
  rw [second]
  dsimp only
  rw [third]
  dsimp only
  rw [fourth]

theorem foldCarry_value {accumulator : Accumulator} (small : accumulator.top.toNat ≤ 1)
    (room : accumulator.low + fold * accumulator.top.toNat < 2 ^ 256) :
    (foldCarry accumulator).value = accumulator.low + fold * accumulator.top.toNat := by
  by_cases some : accumulator.top ≠ 0
  · cases first : addTo accumulator.limb0 (accumulator.top * reductionConstant) with
    | mk limb0 carry0 =>
    cases second : passCarry accumulator.limb1 carry0 with
    | mk limb1 carry1 =>
    cases third : passCarry accumulator.limb2 carry1 with
    | mk limb2 carry2 =>
    cases fourth : passCarry accumulator.limb3 carry2 with
    | mk limb3 carry3 =>
    have folded := foldCarry_of_top some first second third fourth
    obtain ⟨sum0, small0⟩ := addTo_of_eq first
    obtain ⟨sum1, small1⟩ := passCarry_of_eq small0 second
    obtain ⟨sum2, small2⟩ := passCarry_of_eq small1 third
    obtain ⟨sum3, small3⟩ := passCarry_of_eq small2 fourth
    have product : (accumulator.top * reductionConstant).toNat = fold * accumulator.top.toNat := by
      rw [UInt64.toNat_mul, reductionConstant_toNat]
      unfold fold
      omega
    rw [folded, Field.value_mk]
    rw [product] at sum0
    unfold Accumulator.low fold at *
    omega
  · have zero : accumulator.top = 0 := not_not.mp some
    have folded : foldCarry accumulator =
        ⟨[accumulator.limb0, accumulator.limb1, accumulator.limb2, accumulator.limb3], rfl⟩ := by
      rw [foldCarry, if_neg some]
    rw [folded, Field.value_mk, zero, UInt64.toNat_zero, Nat.mul_zero, Nat.add_zero, Accumulator.low]

theorem greaterThanOrEqualPrime_iff (value : Field) :
    greaterThanOrEqualPrime value = true ↔ fieldPrime ≤ value.value := by
  have order (left right : UInt64) : left < right ↔ left.toNat < right.toNat := UInt64.lt_iff_toNat_lt
  have same : value.limbs.reverse.length = prime.limbs.reverse.length := by
    rw [List.length_reverse, List.length_reverse, value.size, prime.size]
  have compared := Limbs.atLeast_iff order (fun _ _ => UInt64.toNat_inj.mp) UInt64.toNat_lt same
  have modulus : Digits.value (2 ^ 64) (prime.limbs.reverse.map UInt64.toNat) = fieldPrime := by decide
  rw [modulus, Digits.value_eq_ofDigits, ← List.map_reverse, List.reverse_reverse] at compared
  exact compared

theorem prime_value : prime.value = fieldPrime := by decide

/-- A reduction is the residue of the eight words. -/
theorem reduce_value {input : List UInt64} (size : input.length = 8) :
    (reduce input).value = wordsValue input % fieldPrime := by
  obtain ⟨first, topSmall⟩ := foldHigh_value size
  obtain ⟨second, carrySmall⟩ := foldTop_value (foldHigh input)
  have low := (foldHigh input).low_lt
  have lowTop := (foldTop (foldHigh input)).low_lt
  have room : (foldTop (foldHigh input)).low + fold * (foldTop (foldHigh input)).top.toNat < 2 ^ 256 := by
    unfold fold at second ⊢
    omega
  have third := foldCarry_value carrySmall room
  have split := Nat.mod_add_div (wordsValue input) (2 ^ 256)
  have limit := (foldCarry (foldTop (foldHigh input))).value_lt
  have quotient : wordsValue input = (foldCarry (foldTop (foldHigh input))).value + fieldPrime *
      (wordsValue input / 2 ^ 256 + (foldHigh input).top.toNat + (foldTop (foldHigh input)).top.toNat) := by
    unfold fold fieldPrime at *
    omega
  have residue : wordsValue input % fieldPrime =
      (foldCarry (foldTop (foldHigh input))).value % fieldPrime := by
    rw [quotient, Nat.add_mul_mod_self_left]
  rw [residue]
  simp only [reduce]
  split
  · rename_i large
    have enough := (greaterThanOrEqualPrime_iff _).mp large
    obtain ⟨difference, borrow⟩ := subtractRaw_settles (foldCarry (foldTop (foldHigh input))) prime
    have less := (subtractRaw (foldCarry (foldTop (foldHigh input))) prime).1.value_lt
    rw [prime_value] at difference
    unfold fieldPrime at *
    omega
  · rename_i small
    rw [greaterThanOrEqualPrime_iff, Nat.not_le] at small
    exact (Nat.mod_eq_of_lt small).symm

end TronForge.Native.CudaChain
