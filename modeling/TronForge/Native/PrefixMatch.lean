import TronForge.Library.Outcome
import TronForge.Native.PrefixBounds
import TronForge.Native.PrefixVariants

/-! The prefilter keeps every payload that can match the prefix, and only
payloads on an interval bound may be kept without matching for sure. -/

namespace TronForge.Native

open Library

variable {payload checksum encoded : List UInt8} {requested text : Text}

/-- An interval is the numbers with the leading text, cut to 21 bytes. -/
structure IntervalOf (leading : Text) (interval : PrefixInterval) : Prop where
  minSize : interval.min.length = 21
  maxSize : interval.max.length = 21
  min : bytesValue interval.min = textValue leading * 58 ^ (34 - leading.length) / 256 ^ 4
  max : bytesValue interval.max = ((textValue leading + 1) * 58 ^ (34 - leading.length) - 1) / 256 ^ 4

theorem prefixInterval_ok (shorter : requested.length + 1 ≤ 34)
    (knownRequested : ∀ character ∈ requested, character ∈ base58Alphabet) (variant : Nat) :
    ∃ interval, prefixInterval requested variant = .ok interval ∧
      IntervalOf (actualPrefix requested variant) interval := by
  have length := length_actualPrefix requested variant
  obtain ⟨⟨minimum, low, lowSize, lowValue⟩, ⟨maximum, high, highSize, highValue⟩⟩ :=
    hostPrefixBound_ok (actualPrefix requested variant) (by omega)
      (known_actualPrefix knownRequested variant)
  refine ⟨⟨minimum.take 21, maximum.take 21⟩, ?_, ?_, ?_, ?_, ?_⟩
  · simp only [prefixInterval, low, high, bind, Except.bind, pure, Except.pure]
  · simp [lowSize]
  · simp [highSize]
  · rw [bytesValue_take lowSize, lowValue]
  · rw [bytesValue_take highSize, ← highValue, Nat.add_sub_cancel]

theorem populatePrefixIntervals_ok (shorter : requested.length + 1 ≤ 34)
    (knownRequested : ∀ character ∈ requested, character ∈ base58Alphabet) (pattern : DevicePattern) :
    ∃ intervals, populatePrefixIntervals pattern requested = .ok { pattern with intervals } ∧
      (∀ variant < 2 ^ (variablePositions requested).length, ∃ interval ∈ intervals,
        IntervalOf (actualPrefix requested variant) interval) ∧
      ∀ interval ∈ intervals, ∃ variant < 2 ^ (variablePositions requested).length,
        IntervalOf (actualPrefix requested variant) interval := by
  obtain ⟨intervals, filled, good⟩ := mapM_forall₂ fun variant
    (_ : variant ∈ List.range (2 ^ (variablePositions requested).length)) =>
    prefixInterval_ok shorter knownRequested variant
  obtain ⟨covers, comes⟩ := forall₂_covers good
  simp only [List.mem_range] at covers comes
  refine ⟨intervals, ?_, covers, comes⟩
  rw [populatePrefixIntervals, Nat.one_shiftLeft, filled]
  rfl

theorem mayMatch_iff {pattern : DevicePattern} (size : payload.length = 21)
    (sizes : ∀ interval ∈ pattern.intervals, interval.min.length = 21 ∧ interval.max.length = 21) :
    devicePayloadMayMatchPrefix payload pattern = true ↔ ∃ interval ∈ pattern.intervals,
      bytesValue interval.min ≤ bytesValue payload ∧ bytesValue payload ≤ bytesValue interval.max := by
  simp only [devicePayloadMayMatchPrefix, List.any_eq_true, Bool.and_eq_true, decide_eq_true_eq]
  refine exists_congr fun interval => and_congr_right fun member => ?_
  obtain ⟨minSize, maxSize⟩ := sizes interval member
  rw [deviceComparePayload_nonneg (by omega), deviceComparePayload_nonpos (by omega)]

theorem matchesPattern_iff (address : AddressText text (bytesValue encoded)) (first : charAt text 0 = 'T') :
    matchesPattern text requested [] = true ↔ ∀ index < requested.length, MatchesAt text requested index := by
  simp only [matchesPattern, address.length, first, List.all_eq_true, List.mem_range, MatchesAt,
    Bool.and_eq_true, decide_true, BEq.rfl, true_and, List.length_nil, Nat.not_lt_zero, false_implies,
    implies_true, and_true]
  refine forall₂_congr fun index inside => ?_
  split <;> simp

/-- A number with the leading text lies in its interval after cutting. -/
theorem IntervalOf.inside {leading : Text} {interval : PrefixInterval} (bounds : IntervalOf leading interval)
    (size : checksum.length = 4)
    (number : textValue leading * 58 ^ (34 - leading.length) ≤ bytesValue (payload ++ checksum) ∧
      bytesValue (payload ++ checksum) < (textValue leading + 1) * 58 ^ (34 - leading.length)) :
    bytesValue interval.min ≤ bytesValue payload ∧ bytesValue payload ≤ bytesValue interval.max := by
  rw [bounds.min, bounds.max, ← (bytesValue_payload payload size).1]
  exact ⟨Nat.div_le_div_right number.1, Nat.div_le_div_right (by omega)⟩

/-- Strictly inside, every checksum gives a number with the leading text. -/
theorem IntervalOf.certain {leading : Text} {interval : PrefixInterval} (bounds : IntervalOf leading interval)
    (size : checksum.length = 4) (above : bytesValue interval.min < bytesValue payload)
    (below : bytesValue payload < bytesValue interval.max) :
    textValue leading * 58 ^ (34 - leading.length) ≤ bytesValue (payload ++ checksum) ∧
      bytesValue (payload ++ checksum) < (textValue leading + 1) * 58 ^ (34 - leading.length) := by
  obtain ⟨-, split, small⟩ := bytesValue_payload payload size
  rw [bounds.min] at above
  rw [bounds.max] at below
  rw [split]
  generalize textValue leading * 58 ^ (34 - leading.length) = low at above ⊢
  generalize (textValue leading + 1) * 58 ^ (34 - leading.length) = high at below ⊢
  omega

/-- The variants of the prefix are the leading texts of the matching addresses. -/
theorem matchesPattern_iff_variant (known : ∀ character ∈ requested, character ∈ base58Alphabet)
    (shorter : requested.length + 1 ≤ 34) (tron : TronPayload payload) (size : checksum.length = 4) :
    matchesPattern (base58Text (payload ++ checksum)) requested [] = true ↔
      ∃ variant < 2 ^ (variablePositions requested).length,
        (base58Text (payload ++ checksum)).take (requested.length + 1) = actualPrefix requested variant := by
  have address := base58Text_address tron size
  have first := base58Text_first tron size
  rw [matchesPattern_iff address first]
  exact matches_iff_variant (by rw [address.length]; omega) first address.known known

/-- The device keeps every payload with a matching address. -/
theorem payload_kept (known : ∀ character ∈ requested, character ∈ base58Alphabet)
    (shorter : requested.length + 1 ≤ 34) {device filled : DevicePattern}
    (populated : populatePrefixIntervals device requested = .ok filled) (tron : TronPayload payload)
    (size : checksum.length = 4)
    (matched : matchesPattern (base58Text (payload ++ checksum)) requested [] = true) :
    devicePayloadMayMatchPrefix payload filled = true := by
  obtain ⟨intervals, same, covers, comes⟩ := populatePrefixIntervals_ok shorter known device
  rw [populated] at same
  cases same
  have sizes (interval : PrefixInterval) (member : interval ∈ intervals) :
      interval.min.length = 21 ∧ interval.max.length = 21 := by
    obtain ⟨variant, -, bounds⟩ := comes interval member
    exact ⟨bounds.minSize, bounds.maxSize⟩
  obtain ⟨variant, small, taken⟩ := (matchesPattern_iff_variant known shorter tron size).mp matched
  obtain ⟨interval, member, bounds⟩ := covers variant small
  have length := length_actualPrefix requested variant
  have number := ((base58Text_address tron size).take_iff (actualPrefix requested variant)
    (by rw [length]; exact shorter) (known_actualPrefix known variant)).mp (by rw [length]; exact taken)
  exact (mayMatch_iff tron.size sizes).mpr ⟨interval, member, bounds.inside size number⟩

/-- The prefix intervals of an accepted request are computed without overflow;
the device keeps every payload with a matching address, and a kept payload off
the interval bounds matches under every checksum; the host decides the same. -/
theorem prefix_intervals_exact {pattern suffix : Text}
    (accepted : validatePattern pattern requested suffix = .ok ()) (device : DevicePattern) :
    ∃ filled, populatePrefixIntervals device requested = .ok filled ∧
      (∀ payload checksum, TronPayload payload → checksum.length = 4 →
        ∃ address, base58Encode (payload ++ checksum) = .ok address ∧ address.length = 34 ∧
          (matchesPattern address requested [] = true →
            devicePayloadMayMatchPrefix payload filled = true)) ∧
      (∀ payload, TronPayload payload → devicePayloadMayMatchPrefix payload filled = true →
        (∀ checksum, checksum.length = 4 → ∃ address, base58Encode (payload ++ checksum) = .ok address ∧
          matchesPattern address requested [] = true) ∨
        ∃ interval ∈ filled.intervals, payload = interval.min ∨ payload = interval.max) ∧
      (∀ encoded : HostBase58Integer, encoded.length = 25 →
        hostPayloadMayMatchPrefix encoded filled = devicePayloadMayMatchPrefix (encoded.take 21) filled) := by
  obtain ⟨⟨longEnough, shortEnough⟩, -, characters, -⟩ := validatePattern_ok accepted
  have known : ∀ character ∈ requested, character ∈ base58Alphabet :=
    fun character member => characters character (by simp [member])
  obtain ⟨intervals, filled, covers, comes⟩ := populatePrefixIntervals_ok (by omega) known device
  have sizes (interval : PrefixInterval) (member : interval ∈ intervals) :
      interval.min.length = 21 ∧ interval.max.length = 21 := by
    obtain ⟨variant, -, bounds⟩ := comes interval member
    exact ⟨bounds.minSize, bounds.maxSize⟩
  have variantLength (variant : Nat) : (actualPrefix requested variant).length = requested.length + 1 :=
    length_actualPrefix requested variant
  have starts (payload checksum : List UInt8) (tron : TronPayload payload) (size : checksum.length = 4)
      (variant : Nat) := (base58Text_address tron size).take_iff (actualPrefix requested variant)
    (by rw [variantLength]; omega) (known_actualPrefix known variant)
  refine ⟨{ device with intervals }, filled, ?_, ?_, ?_⟩
  · intro payload checksum tron size
    refine ⟨_, base58Encode_eq _, (base58Text_address tron size).length, ?_⟩
    exact payload_kept known (by omega) filled tron size
  · intro payload tron kept
    obtain ⟨interval, member, low, high⟩ := (mayMatch_iff tron.size sizes).mp kept
    obtain ⟨variant, small, bounds⟩ := comes interval member
    by_cases onBound : payload = interval.min ∨ payload = interval.max
    · exact .inr ⟨interval, member, onBound⟩
    · left
      intro checksum size
      have notMin : bytesValue interval.min ≠ bytesValue payload := by
        intro same
        exact onBound (.inl (bytesValue_injective (tron.size.trans bounds.minSize.symm) same.symm))
      have notMax : bytesValue payload ≠ bytesValue interval.max := by
        intro same
        exact onBound (.inr (bytesValue_injective (tron.size.trans bounds.maxSize.symm) same))
      have number := bounds.certain size (Nat.lt_of_le_of_ne low notMin) (Nat.lt_of_le_of_ne high notMax)
      have taken := (starts payload checksum tron size variant).mpr number
      rw [variantLength] at taken
      exact ⟨_, base58Encode_eq _, (matchesPattern_iff_variant known (by omega) tron size).mpr ⟨variant, small, taken⟩⟩
  · intro encoded size
    have compared (bound : List UInt8) (boundSize : bound.length = 21) :
        (List.range 21).foldl (hostCompareByte encoded bound) 0 =
          deviceComparePayload (encoded.take 21) bound := by
      have same := hostCompare_eq 0 21 (show 0 + 21 ≤ encoded.length by omega)
        (show 0 + 21 ≤ bound.length by omega)
      rw [List.range_eq_range', same, List.drop_zero, List.drop_zero, List.take_of_length_le boundSize.le]
    simp only [hostPayloadMayMatchPrefix, devicePayloadMayMatchPrefix]
    rw [Bool.eq_iff_iff, List.any_eq_true, List.any_eq_true]
    refine exists_congr fun interval => and_congr_right fun member => ?_
    rw [compared _ (sizes interval member).1, compared _ (sizes interval member).2]

theorem prefix_intervals_exact_two : ∃ filled, populatePrefixIntervals {} "Dv".toList = .ok filled ∧
    ∀ encoded : HostBase58Integer, encoded.length = 25 →
      hostPayloadMayMatchPrefix encoded filled = devicePayloadMayMatchPrefix (encoded.take 21) filled := by
  have accepted : validatePattern "2x2".toList "Dv".toList "9K".toList = .ok () := by decide
  obtain ⟨filled, populated, -, -, same⟩ := prefix_intervals_exact accepted {}
  exact ⟨filled, populated, same⟩

end TronForge.Native
