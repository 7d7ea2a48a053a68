import TronForge.Funding.CreateFunding
import TronForge.Library.DecimalText
import TronForge.Service.Validators

/-! The amount of a funding request: how the schema reads it, and how the amount of a
record is written again. -/

namespace TronForge.Funding

open Library
open Native (Text)
open Service (pythonSpace stripSpace)

/-- `FundingCreate(amount=text)`, where `Decimal` knows the given digits. -/
def FundingCreate.parse (digits : DigitSet) (text : Text) : Option FundingCreate :=
  match Decimal.read digits (stripSpace text) with
  | none => none
  | some amount =>
    if (Decimal.ofNat 1).atMost amount && amount.atMost (.ofNat 1500) && decide (-6 ≤ amount.exponent) then
      some ⟨amount⟩
    else none

section Parsing
variable {digits : DigitSet} {text : Text} {payload : FundingCreate}

/-- What the schema promises of an amount. -/
structure FundingCreate.Valid (payload : FundingCreate) : Prop where
  atLeast : 1 ≤ payload.amount.value
  atMost : payload.amount.value ≤ 1500
  places : -6 ≤ payload.amount.exponent

theorem Decimal.value_ofNat (number : Nat) : (Decimal.ofNat number).value = number := by
  simp [Decimal.value, Decimal.ofNat]

theorem parse_iff : FundingCreate.parse digits text = some payload ↔
    Decimal.read digits (stripSpace text) = some payload.amount ∧ payload.Valid := by
  obtain ⟨amount⟩ := payload
  rw [FundingCreate.parse]
  cases Decimal.read digits (stripSpace text) with
  | none => simp
  | some read =>
    simp only [Bool.and_eq_true, Decimal.atMost_iff, Decimal.value_ofNat, decide_eq_true_iff, Nat.cast_one,
      Option.some.injEq, Nat.cast_ofNat]
    constructor
    · intro accepted
      split at accepted
      · rename_i checks
        cases accepted
        exact ⟨rfl, ⟨checks.1.1, checks.1.2, checks.2⟩⟩
      · cases accepted
    · intro accepted
      obtain ⟨same, valid⟩ := accepted
      subst same
      rw [if_pos ⟨⟨valid.atLeast, valid.atMost⟩, valid.places⟩]

/-- A checked amount has few enough digits, and no part of a micro-USDT. -/
theorem FundingCreate.Valid.exact (valid : payload.Valid) :
    payload.amount.coefficient < 10 ^ Decimal.precision ∧
      ∃ micro : Nat, payload.amount.value * 10 ^ 6 = micro := by
  obtain ⟨⟨coefficient, exponent⟩⟩ := payload
  obtain ⟨-, most, places⟩ := valid
  simp only [Decimal.value] at most places ⊢
  have ten : (10 : ℚ) ≠ 0 := by norm_num
  obtain ⟨shift, same⟩ := Int.le.dest places
  have micro : (coefficient : ℚ) * 10 ^ exponent * 10 ^ 6 = (coefficient * 10 ^ shift : Nat) := by
    have million : (10 : ℚ) ^ (-6 : Int) * 10 ^ 6 = 1 := by norm_num
    rw [← same, zpow_add₀ ten, zpow_natCast, Nat.cast_mul, Nat.cast_pow, mul_assoc, mul_right_comm, million, one_mul,
      Nat.cast_ofNat]
  refine ⟨?_, _, micro⟩
  have small : (coefficient * 10 ^ shift : Nat) ≤ 1500 * 10 ^ 6 := by
    have scaled := mul_le_mul_of_nonneg_right most (by norm_num : (0 : ℚ) ≤ 10 ^ 6)
    rw [micro] at scaled
    exact_mod_cast scaled
  calc coefficient ≤ coefficient * 10 ^ shift := Nat.le_mul_of_pos_right _ (by positivity)
    _ ≤ 1500 * 10 ^ 6 := small
    _ < 10 ^ Decimal.precision := by norm_num [Decimal.precision]

/-- The context of the multiplication loses nothing of a checked amount. -/
theorem FundingCreate.Valid.amountMicroUsdt (valid : payload.Valid) :
    (payload.amountMicroUsdt : ℚ) = payload.amount.value * 10 ^ 6 := by
  obtain ⟨fits, micro, whole⟩ := valid.exact
  have product := Decimal.times_value fits 6
  rw [whole] at product ⊢
  have power : 10 ^ 6 = 1000000 := rfl
  rw [FundingCreate.amountMicroUsdt, ← power, Decimal.truncate_of_value product]

end Parsing

section Writing

/-- A number is written without blanks. -/
theorem write_unspaced (number : Decimal) : ∀ character ∈ number.write, pythonSpace character = false := by
  have all : ∀ character ∈ Decimal.written, pythonSpace character = false := by decide
  exact fun character member => all character (Decimal.write_mem member)

variable {digits : DigitSet}

/-- The six digits of a part of a USDT. -/
theorem fraction_digits {micro : Nat} (small : micro < 10 ^ 6) :
    (Nat.toDigits 10 (micro + 1000000)).tail.length = 6 ∧
      digits.number (Nat.toDigits 10 (micro + 1000000)).tail = micro ∧
      ∀ character ∈ (Nat.toDigits 10 (micro + 1000000)).tail, digits.isDigit character = true := by
  have written := @DigitSet.number_toDigits digits (micro + 1000000)
  have known := @DigitSet.toDigits_isDigit digits (micro + 1000000)
  have short : (Nat.toDigits 10 (micro + 1000000)).length ≤ 7 :=
    (Nat.length_toDigits_le_iff (by norm_num) (by norm_num)).mpr (by omega)
  have long : ¬ (Nat.toDigits 10 (micro + 1000000)).length ≤ 6 := by
    rw [Nat.length_toDigits_le_iff (by norm_num) (by norm_num)]
    omega
  generalize Nat.toDigits 10 (micro + 1000000) = text at written known short long
  cases text with
  | nil => exact absurd (Nat.zero_le 6) long
  | cons first rest =>
    have six : rest.length = 6 := by
      rw [List.length_cons] at short long
      omega
    have restKnown (character : Char) (member : character ∈ rest) := known character (List.mem_cons_of_mem _ member)
    have split := @DigitSet.number_append digits [first] rest restKnown
    have below : digits.number rest < 10 ^ 6 := by
      have bounded : ∀ digit ∈ rest.filterMap digits.value, digit < 10 := by
        intro digit member
        obtain ⟨_, _, found⟩ := List.mem_filterMap.mp member
        exact digits.small found
      have fits := Digits.value_lt bounded
      rwa [List.filterMap_length_eq_length.mpr restKnown, six] at fits
    rw [List.singleton_append, written, six] at split
    refine ⟨six, ?_, restKnown⟩
    rw [List.tail_cons]
    omega

/-- A written amount is read as the amount that it was. -/
theorem formatMicroUsdt_read (micro : Nat) :
    ∃ shown, Decimal.read digits (formatMicroUsdt micro).toList = some shown ∧ shown.value * 10 ^ 6 = micro := by
  obtain ⟨six, written, known⟩ := @fraction_digits digits (micro % 1000000) (Nat.mod_lt _ (by norm_num))
  have wholeKnown := @DigitSet.toDigits_isDigit digits (micro / 1000000)
  generalize fraction_ : (Nat.toDigits 10 (micro % 1000000 + 1000000)).tail = fraction at six written known
  generalize zeros_ : fraction.reverse.takeWhile (fun character => decide (character = '0')) = zeros
  generalize kept_ : (fraction.reverse.dropWhile (fun character => decide (character = '0'))).reverse = kept
  have split : fraction = kept ++ zeros.reverse := by
    rw [← kept_, ← zeros_, ← List.reverse_append, List.takeWhile_append_dropWhile, List.reverse_reverse]
  have zero : zeros.reverse = List.replicate zeros.length '0' := by
    apply List.eq_replicate_iff.mpr
    refine ⟨List.length_reverse, ?_⟩
    intro character member
    rw [List.mem_reverse, ← zeros_] at member
    have found := @List.mem_takeWhile_imp _ (fun character => decide (character = '0')) _ _ member
    exact of_decide_eq_true found
  have keptKnown (character : Char) (member : character ∈ kept) : digits.isDigit character = true :=
    known character (by rw [split]; exact List.mem_append_left _ member)
  have text : (formatMicroUsdt micro).toList = Decimal.layout (Nat.toDigits 10 (micro / 1000000)) kept 0 := by
    have empty : fraction.reverse.dropWhile (fun character => decide (character = '0')) = [] ↔ kept = [] := by
      rw [← kept_, List.reverse_eq_nil_iff]
    simp only [formatMicroUsdt, fraction_, empty, kept_]
    split
    · rename_i none_
      simp [Decimal.layout, Decimal.exponentText, none_]
    · rename_i some_
      simp [Decimal.layout, Decimal.exponentText, some_]
  refine ⟨⟨digits.number (Nat.toDigits 10 (micro / 1000000) ++ kept), 0 - kept.length⟩, ?_, ?_⟩
  · rw [text]
    apply Decimal.read_layout
    · intro character member
      rcases List.mem_append.mp member with inside | inside
      · exact wholeKnown character inside
      · exact keptKnown character inside
    · exact Nat.toDigits_ne_nil
  · have parts : micro % 1000000 = digits.number kept * 10 ^ zeros.length := by
      rw [← written, split, zero, DigitSet.number_append _ _ (DigitSet.zeros_isDigit _), DigitSet.number_zeros,
        List.length_replicate, Nat.add_zero]
    have lengths : kept.length + zeros.length = 6 := by
      rw [← six, split, List.length_append, List.length_reverse]
    rw [DigitSet.number_append _ _ keptKnown, DigitSet.number_toDigits, Decimal.value]
    have ten : (10 : ℚ) ≠ 0 := by norm_num
    have power : (10 : ℚ) ^ (0 - (kept.length : Int)) * 10 ^ 6 = 10 ^ zeros.length := by
      rw [← lengths, pow_add, ← zpow_natCast 10 kept.length, ← mul_assoc, ← zpow_add₀ ten]
      simp
    rw [mul_assoc, power]
    have whole := Nat.div_add_mod micro 1000000
    rw [parts] at whole
    have million : 10 ^ kept.length * 10 ^ zeros.length = 1000000 := by rw [← pow_add, lengths]; rfl
    have total : (micro / 1000000 * 10 ^ kept.length + digits.number kept) * 10 ^ zeros.length = micro := by
      rw [Nat.add_mul, Nat.mul_assoc, million, Nat.mul_comm]
      exact whole
    exact_mod_cast total

end Writing

end TronForge.Funding
