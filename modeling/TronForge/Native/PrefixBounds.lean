import TronForge.Native.Address
import TronForge.Native.Prefilter

/-! The bounds of the prefilter as numbers: no step of their computation
overflows 25 bytes, and comparing payloads compares the numbers. -/

namespace TronForge.Native

open Library

variable {value : HostBase58Integer} {left right encoded : List UInt8}

theorem toNat_shiftRight_eight (word : UInt32) : (word >>> 8).toNat = word.toNat / 256 := by
  simp [UInt32.toNat_shiftRight, Nat.shiftRight_eq_div_pow]

theorem multiplyByte_settles (byte : UInt8) (carry : UInt32) (small : carry.toNat < 58) :
    (multiplyByte 58 byte carry).2.toNat + 256 * (multiplyByte 58 byte carry).1.toNat =
      byte.toNat * 58 + carry.toNat := by
  have byteSmall := byte.toNat_lt
  have product : (byte.toUInt32 * 58 + carry).toNat = byte.toNat * 58 + carry.toNat := by
    simp only [UInt32.toNat_add, UInt32.toNat_mul, UInt8.toNat_toUInt32, UInt32.reduceToNat]
    omega
  simp only [multiplyByte, toNat_shiftRight_eight, UInt32.toNat_toUInt8, product]
  omega

/-- Multiplying by 58 is exact while the product fits. -/
theorem hostMultiplySmall_ok (value : HostBase58Integer) (fits : bytesValue value * 58 < 256 ^ value.length) :
    ∃ product, hostMultiplySmall 58 value = .ok product ∧ product.length = value.length ∧
      bytesValue product = bytesValue value * 58 := by
  have settles (byte : UInt8) (carry : UInt32) (small : carry.toNat < 58) :
      (multiplyByte 58 byte carry).2.toNat + 256 * (multiplyByte 58 byte carry).1.toNat + 0 =
        byte.toNat * 58 + carry.toNat + 256 * 0 := by
    rw [multiplyByte_settles byte carry small]
  have keeps (byte : UInt8) (carry : UInt32) (small : carry.toNat < 58) :
      (multiplyByte 58 byte carry).1.toNat < 58 := by
    have byteSmall := byte.toNat_lt
    have settled := multiplyByte_settles byte carry small
    omega
  obtain ⟨-, total⟩ := Digits.value_mapAccumr UInt32.toNat (fun _ => 0) (·.toNat < 58) settles keeps
    value 0 (by decide)
  have scaled : Digits.value 256 (value.map fun byte => byte.toNat * 58) = bytesValue value * 58 := by
    rw [bytesValue, ← Digits.value_map_mul, List.map_map]
    rfl
  rw [scaled] at total
  have none : (value.mapAccumr (multiplyByte 58) 0).1.toNat = 0 :=
    Digits.carry_eq_zero (total.trans_lt fits)
  refine ⟨(value.mapAccumr (multiplyByte 58) 0).2, ?_, List.length_mapAccumr _ _ _, ?_⟩
  · have zero : (value.mapAccumr (multiplyByte 58) 0).1 = 0 := UInt32.toNat_inj.mp none
    simp only [hostMultiplySmall, zero, ne_eq, not_true_eq_false, ↓reduceIte]
    rfl
  · rw [none] at total
    simpa [bytesValue] using total

theorem addByte_settles (byte : UInt8) (carry : UInt32) (small : carry.toNat < 256) :
    (addByte byte carry).2.toNat + 256 * (addByte byte carry).1.toNat = byte.toNat + carry.toNat := by
  have byteSmall := byte.toNat_lt
  unfold addByte
  split
  · have sum : (byte.toUInt32 + carry).toNat = byte.toNat + carry.toNat := by
      simp only [UInt32.toNat_add, UInt8.toNat_toUInt32]
      omega
    simp only [toNat_shiftRight_eight, UInt32.toNat_toUInt8, sum]
    omega
  · rename_i none
    have zero : carry = 0 := not_not.mp none
    simp [zero]

theorem hostAddSmall_ok (value : HostBase58Integer) {addend : UInt32} (small : addend.toNat < 256)
    (fits : bytesValue value + addend.toNat < 256 ^ value.length) :
    ∃ sum, hostAddSmall addend value = .ok sum ∧ sum.length = value.length ∧
      bytesValue sum = bytesValue value + addend.toNat := by
  have settles (byte : UInt8) (carry : UInt32) (small : carry.toNat < 256) :
      (addByte byte carry).2.toNat + 256 * (addByte byte carry).1.toNat + 0 =
        byte.toNat + carry.toNat + 256 * 0 := by
    rw [addByte_settles byte carry small]
  have keeps (byte : UInt8) (carry : UInt32) (small : carry.toNat < 256) :
      (addByte byte carry).1.toNat < 256 := by
    have byteSmall := byte.toNat_lt
    have settled := addByte_settles byte carry small
    omega
  obtain ⟨-, total⟩ := Digits.value_mapAccumr UInt32.toNat (fun _ => 0) (·.toNat < 256) settles keeps
    value addend small
  have plain : Digits.value 256 (value.map fun byte => byte.toNat) = bytesValue value := rfl
  rw [plain] at total
  have none : (value.mapAccumr addByte addend).1.toNat = 0 :=
    Digits.carry_eq_zero (total.trans_lt fits)
  refine ⟨(value.mapAccumr addByte addend).2, ?_, List.length_mapAccumr _ _ _, ?_⟩
  · have zero : (value.mapAccumr addByte addend).1 = 0 := UInt32.toNat_inj.mp none
    simp only [hostAddSmall, zero, ne_eq, not_true_eq_false, ↓reduceIte]
    rfl
  · rw [none] at total
    simpa [bytesValue] using total

theorem hostSubtractOne_ok (value : HostBase58Integer) (positive : 0 < bytesValue value) :
    ∃ less, hostSubtractOne value = .ok less ∧ less.length = value.length ∧
      bytesValue less + 1 = bytesValue value := by
  have settles (byte : UInt8) (borrow : Bool) (_ : True) :
      (subtractByte byte borrow).2.toNat + 256 * 0 + borrow.toNat =
        byte.toNat + 0 + 256 * (subtractByte byte borrow).1.toNat := by
    have byteSmall := byte.toNat_lt
    unfold subtractByte
    split
    · rename_i borrows
      split
      · rename_i some
        have large : 1 ≤ byte := by
          rw [UInt8.le_iff_toNat_le]
          exact Nat.one_le_iff_ne_zero.mpr fun none => some (UInt8.toNat_inj.mp none)
        have one : 1 ≤ byte.toNat := UInt8.le_iff_toNat_le.mp large
        simp only [borrows, UInt8.toNat_sub_of_le byte 1 large, UInt8.reduceToNat, Bool.toNat_true,
          Bool.toNat_false]
        omega
      · rename_i none
        have zero : byte = 0 := not_not.mp none
        simp [borrows, zero]
    · rename_i settled
      simp [settled]
  have keeps (byte : UInt8) (borrow : Bool) (_ : True) : True := trivial
  obtain ⟨-, total⟩ := Digits.value_mapAccumr (fun _ => 0) Bool.toNat (fun _ => True) settles keeps
    value true trivial
  have plain : Digits.value 256 (value.map fun byte => byte.toNat) = bytesValue value := rfl
  have less : bytesValue (value.mapAccumr subtractByte true).2 < 256 ^ value.length := by
    have small := bytesValue_lt (value.mapAccumr subtractByte true).2
    rwa [List.length_mapAccumr] at small
  have out : Digits.value 256 ((value.mapAccumr subtractByte true).2.map UInt8.toNat) =
      bytesValue (value.mapAccumr subtractByte true).2 := rfl
  rw [plain, out] at total
  cases borrows : (value.mapAccumr subtractByte true).1 with
  | true =>
    simp only [borrows, Bool.toNat_true] at total
    omega
  | false =>
    simp only [borrows, Bool.toNat_true, Bool.toNat_false] at total
    refine ⟨(value.mapAccumr subtractByte true).2, ?_, List.length_mapAccumr _ _ _, by omega⟩
    simp only [hostSubtractOne, borrows, Bool.false_eq_true, ↓reduceIte]
    rfl

/-- The largest number of 34 Base58 digits takes less than 25 bytes. -/
theorem digits_fit : 58 ^ 34 < 256 ^ 25 := by norm_num

theorem hostPushCharacter_ok {character : Char} (size : value.length = 25)
    (known : character ∈ base58Alphabet) (fits : (bytesValue value + 1) * 58 ≤ 58 ^ 34) :
    ∃ pushed, hostPushCharacter value character = .ok pushed ∧ pushed.length = 25 ∧
      bytesValue pushed = bytesValue value * 58 + base58Alphabet.idxOf character := by
  have digit : base58Alphabet.idxOf character < 58 := List.idxOf_lt_length_iff.mpr known
  have room := digits_fit
  obtain ⟨product, multiplied, productSize, productValue⟩ :=
    hostMultiplySmall_ok value (by rw [size]; omega)
  have converted : (UInt32.ofNat (base58Alphabet.idxOf character)).toNat =
      base58Alphabet.idxOf character := UInt32.toNat_ofNat_of_lt (digit.trans (by decide))
  obtain ⟨sum, added, sumSize, sumValue⟩ :=
    hostAddSmall_ok product (lt_of_eq_of_lt converted (by omega))
      (by rw [productSize, size, productValue]; omega)
  refine ⟨sum, ?_, by omega, by omega⟩
  simp only [hostPushCharacter, multiplied, hostBase58Digit, known, ↓reduceIte]
  exact added

theorem hostPushCharacters_ok (value : HostBase58Integer) {text : Text} (size : value.length = 25)
    (known : ∀ character ∈ text, character ∈ base58Alphabet)
    (fits : (bytesValue value + 1) * 58 ^ text.length ≤ 58 ^ 34) :
    ∃ pushed, text.foldlM hostPushCharacter value = .ok pushed ∧ pushed.length = 25 ∧
      bytesValue pushed = bytesValue value * 58 ^ text.length + textValue text := by
  induction text generalizing value with
  | nil => exact ⟨value, rfl, size, by simp [textValue, base58Digits]⟩
  | cons character rest ih =>
    have digit : base58Alphabet.idxOf character < 58 :=
      List.idxOf_lt_length_iff.mpr (known character List.mem_cons_self)
    have power : 1 ≤ 58 ^ rest.length := Nat.one_le_pow _ _ (by omega)
    have enough : (bytesValue value + 1) * 58 ≤ (bytesValue value + 1) * 58 ^ (rest.length + 1) :=
      Nat.mul_le_mul_left _ (Nat.le_self_pow (by omega) _)
    rw [List.length_cons] at fits
    obtain ⟨pushed, first, pushedSize, pushedValue⟩ :=
      hostPushCharacter_ok size (known character List.mem_cons_self) (enough.trans fits)
    have fitsRest : (bytesValue pushed + 1) * 58 ^ rest.length ≤ 58 ^ 34 := by
      refine (Nat.mul_le_mul_right _ (?_ : bytesValue pushed + 1 ≤ (bytesValue value + 1) * 58)).trans ?_
      · omega
      · rwa [Nat.mul_assoc, ← pow_succ']
    obtain ⟨final, others, finalSize, finalValue⟩ :=
      ih pushed pushedSize (fun c member => known c (List.mem_cons_of_mem _ member)) fitsRest
    refine ⟨final, ?_, finalSize, ?_⟩
    · rw [List.foldlM_cons, first]
      exact others
    · rw [finalValue, pushedValue, textValue, textValue, base58Digits, base58Digits, List.map_cons,
        Digits.value_cons, List.length_map, List.length_cons, pow_succ]
      ring

theorem hostMultiplyTimes_ok (value : HostBase58Integer) (times : List Nat) (size : value.length = 25)
    (fits : bytesValue value * 58 ^ times.length ≤ 58 ^ 34) :
    ∃ product, times.foldlM (fun value _ => hostMultiplySmall 58 value) value = .ok product ∧
      product.length = 25 ∧ bytesValue product = bytesValue value * 58 ^ times.length := by
  induction times generalizing value with
  | nil => exact ⟨value, rfl, size, by simp⟩
  | cons time rest ih =>
    have power : 1 ≤ 58 ^ rest.length := Nat.one_le_pow _ _ (by omega)
    have enough : bytesValue value * 58 ≤ bytesValue value * 58 ^ (rest.length + 1) :=
      Nat.mul_le_mul_left _ (Nat.le_self_pow (by omega) _)
    have room := digits_fit
    rw [List.length_cons] at fits
    obtain ⟨product, first, productSize, productValue⟩ :=
      hostMultiplySmall_ok value (by rw [size]; omega)
    have fitsRest : bytesValue product * 58 ^ rest.length ≤ 58 ^ 34 := by
      rwa [productValue, Nat.mul_assoc, ← pow_succ']
    obtain ⟨final, others, finalSize, finalValue⟩ := ih product (productSize.trans size) fitsRest
    refine ⟨final, ?_, finalSize, ?_⟩
    · rw [List.foldlM_cons, first]
      exact others
    · rw [finalValue, productValue, List.length_cons, pow_succ]
      ring

/-- The bounds of a leading text, as 25-byte numbers: those whose 34 Base58
digits start with it. -/
theorem hostPrefixBound_ok (leading : Text) (shorter : leading.length ≤ 34)
    (known : ∀ character ∈ leading, character ∈ base58Alphabet) :
    (∃ minimum, hostPrefixBound leading false = .ok minimum ∧ minimum.length = 25 ∧
      bytesValue minimum = textValue leading * 58 ^ (34 - leading.length)) ∧
    (∃ maximum, hostPrefixBound leading true = .ok maximum ∧ maximum.length = 25 ∧
      bytesValue maximum + 1 = (textValue leading + 1) * 58 ^ (34 - leading.length)) := by
  have below := textValue_lt known
  have room := digits_fit
  have exponent : 58 ^ leading.length * 58 ^ (34 - leading.length) = 58 ^ 34 := by
    rw [← pow_add, Nat.add_sub_cancel' shorter]
  have most : (textValue leading + 1) * 58 ^ (34 - leading.length) ≤ 58 ^ 34 := by
    rw [← exponent]
    exact Nat.mul_le_mul_right _ below
  have zero : bytesValue HostBase58Integer.zero = 0 := by decide
  have power : 58 ^ leading.length ≤ 58 ^ 34 := Nat.pow_le_pow_right (by omega) shorter
  obtain ⟨pushed, read, pushedSize, pushedValue⟩ :=
    hostPushCharacters_ok .zero rfl known (by rw [zero]; omega)
  rw [zero, Nat.zero_mul, Nat.zero_add] at pushedValue
  constructor
  · obtain ⟨product, multiplied, productSize, productValue⟩ :=
      hostMultiplyTimes_ok pushed (List.range (34 - leading.length)) pushedSize (by
        rw [List.length_range, pushedValue]
        exact (Nat.mul_le_mul_right _ (Nat.le_succ _)).trans most)
    refine ⟨product, ?_, productSize, by rw [productValue, pushedValue, List.length_range]⟩
    simp only [hostPrefixBound, read, multiplied, Bool.false_eq_true, ↓reduceIte, bind, Except.bind,
      pure, Except.pure]
  · have one : (1 : UInt32).toNat = 1 := rfl
    obtain ⟨sum, added, sumSize, sumValue⟩ := hostAddSmall_ok pushed (by decide : (1 : UInt32).toNat < 256)
      (by rw [pushedSize, pushedValue, one]; omega)
    rw [pushedValue, one] at sumValue
    obtain ⟨product, multiplied, productSize, productValue⟩ :=
      hostMultiplyTimes_ok sum (List.range (34 - leading.length)) (by omega) (by
        rw [List.length_range, sumValue]
        exact most)
    rw [sumValue, List.length_range] at productValue
    have scaled : 0 < 58 ^ (34 - leading.length) := Nat.pow_pos (by omega)
    obtain ⟨less, subtracted, lessSize, lessValue⟩ := hostSubtractOne_ok product
      (productValue ▸ Nat.mul_pos (Nat.succ_pos _) scaled)
    refine ⟨less, ?_, by omega, by omega⟩
    simp only [hostPrefixBound, read, added, multiplied, subtracted, ↓reduceIte, bind, Except.bind]

/-- Comparing payloads of one length compares their numbers. -/
theorem deviceComparePayload_eq (same : left.length = right.length) :
    deviceComparePayload left right = Int.sign (bytesValue left - bytesValue right) := by
  induction left generalizing right with
  | nil =>
    obtain rfl := List.length_eq_zero_iff.mp same.symm
    rfl
  | cons byte rest ih =>
    cases right with
    | nil => simp at same
    | cons other otherRest =>
      have lengths : rest.length = otherRest.length := by simpa using same
      rw [deviceComparePayload]
      split
      · rename_i below
        have less := bytesValue_cons_lt below lengths
        exact (Int.sign_eq_neg_one_of_neg (by omega)).symm
      · rename_i notBelow
        split
        · rename_i above
          have more := bytesValue_cons_lt above lengths.symm
          exact (Int.sign_eq_one_of_pos (by omega)).symm
        · rename_i notAbove
          have equal : byte = other := by
            apply UInt8.le_antisymm
            · exact UInt8.not_lt.mp notAbove
            · exact UInt8.not_lt.mp notBelow
          rw [ih lengths, equal, bytesValue_cons, bytesValue_cons, lengths]
          congr 1
          omega

theorem deviceComparePayload_nonneg (same : left.length = right.length) :
    deviceComparePayload left right ≥ 0 ↔ bytesValue right ≤ bytesValue left := by
  rw [deviceComparePayload_eq same, ge_iff_le, Int.sign_nonneg_iff]
  omega

theorem deviceComparePayload_nonpos (same : left.length = right.length) :
    deviceComparePayload left right ≤ 0 ↔ bytesValue left ≤ bytesValue right := by
  rw [deviceComparePayload_eq same, Int.sign_nonpos_iff]
  omega

/-- A settled comparison of the host stays. -/
theorem hostCompare_settled {bound : List UInt8} {comparison : Int} (settled : comparison ≠ 0)
    (indices : List Nat) : indices.foldl (hostCompareByte encoded bound) comparison = comparison := by
  induction indices with
  | nil => rfl
  | cons index rest ih =>
    rw [List.foldl_cons, hostCompareByte, if_neg (fun open_ => settled open_.1)]
    exact ih

theorem hostCompare_eq {bound : List UInt8} (start count : Nat)
    (encodedSize : start + count ≤ encoded.length) (boundSize : start + count ≤ bound.length) :
    (List.range' start count).foldl (hostCompareByte encoded bound) 0 =
      deviceComparePayload ((encoded.drop start).take count) ((bound.drop start).take count) := by
  induction count generalizing start with
  | zero => simp [deviceComparePayload]
  | succ count ih =>
    have rest := ih (start + 1) (by omega) (by omega)
    have encodedAt : byteAt encoded start = encoded[start] := by
      simp [byteAt, show start < encoded.length by omega]
    have boundAt : byteAt bound start = bound[start] := by
      simp [byteAt, show start < bound.length by omega]
    have encodedInside : start < encoded.length := by omega
    have boundInside : start < bound.length := by omega
    rw [List.range'_succ, List.foldl_cons, List.drop_eq_getElem_cons encodedInside,
      List.drop_eq_getElem_cons boundInside, List.take_succ_cons, List.take_succ_cons,
      deviceComparePayload, hostCompareByte, encodedAt, boundAt]
    by_cases equal : encoded[start] = bound[start]
    · simp only [equal, ne_eq, not_true_eq_false, and_false, ↓reduceIte, UInt8.lt_irrefl, gt_iff_lt]
      exact rest
    · simp only [equal, ne_eq, not_false_eq_true, and_self, ↓reduceIte, gt_iff_lt]
      split
      · exact hostCompare_settled (by omega) _
      · rename_i notBelow
        have above : bound[start] < encoded[start] :=
          UInt8.lt_of_le_of_ne (UInt8.not_lt.mp notBelow) fun same => equal same.symm
        simp only [above, ↓reduceIte]
        exact hostCompare_settled (by omega) _

end TronForge.Native
