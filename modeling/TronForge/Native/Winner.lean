import TronForge.Library.Coverage
import TronForge.Native.KernelPoints
import TronForge.Native.PrefixMatch

/-! The winning index of a launch: the least evaluated index whose address matches,
with the prefilter or without it. -/

namespace TronForge.Native

open Library

/-- The pattern structure that the host fills in for an accepted request. -/
structure BuiltPattern (pattern : DevicePattern) : Prop where
  accepted : Accepted pattern.afterT pattern.suffix
  intervals : populatePrefixIntervals ⟨pattern.afterT, pattern.suffix, []⟩ pattern.afterT = .ok pattern

/-- The host builds a pattern from every accepted one, here of two and two characters. -/
theorem builtPattern_two : ∃ pattern, BuiltPattern pattern := by
  obtain ⟨intervals, filled, -⟩ := populatePrefixIntervals_ok (by decide : "Dv".toList.length + 1 ≤ 34) (by decide)
    ⟨"Dv".toList, "9K".toList, []⟩
  have accepted : validatePattern "2x2".toList "Dv".toList "9K".toList = .ok () := by decide
  exact ⟨⟨"Dv".toList, "9K".toList, intervals⟩, validatePattern_ok accepted, filled⟩

theorem matchesPattern_afterT {address afterT suffix : Text}
    (matched : matchesPattern address afterT suffix = true) : matchesPattern address afterT [] = true := by
  simp only [matchesPattern, Bool.and_eq_true] at matched ⊢
  exact ⟨matched.1, by simp⟩

/-- Only payloads that cannot match are dropped before their address is made. -/
theorem BuiltPattern.keeps {pattern : DevicePattern} (built : BuiltPattern pattern) {publicKey : List UInt8}
    (matched : devicePatternMatches (deviceTronAddressFromPublicKey publicKey) pattern = true) :
    devicePayloadMayMatchPrefix (deviceTronPayloadFromPublicKey publicKey) pattern = true := by
  have tron := tronPayload_fromPublicKey publicKey
  have size := length_deviceChecksum (deviceTronPayloadFromPublicKey publicKey)
  have address := base58Text_address tron size
  have text := deviceAddress_text publicKey
  have known : ∀ character ∈ pattern.afterT, character ∈ base58Alphabet :=
    fun character member => built.accepted.characters character (by simp [member])
  have short := built.accepted.afterTLength.2
  rw [text, devicePatternMatches_eq built.accepted address.length (base58Text_first tron size) address.known]
    at matched
  exact payload_kept known (by omega) built.intervals tron size (matchesPattern_afterT matched)

section
variable {F : Type} {evaluate : Nat → Evaluation F → Nat} {accepts : Evaluation F → Bool}

theorem foldl_evaluate (step : ∀ winner evaluation, evaluate winner evaluation =
      if accepts evaluation then min winner evaluation.index else winner)
    (evaluations : List (Evaluation F)) (winner : Nat) :
    evaluations.foldl evaluate winner =
      ((evaluations.filter accepts).map (·.index)).foldl min winner := by
  induction evaluations generalizing winner with
  | nil => rfl
  | cons evaluation rest hypothesis =>
    rw [List.foldl_cons, hypothesis, step]
    cases accepted : accepts evaluation with
    | true => simp [accepted]
    | false => simp [accepted]

end

theorem evaluateReferenceCandidate_eq (pattern : DevicePattern) (winner : Nat)
    (evaluation : Evaluation CudaSecp.Field) :
    CudaSecp.evaluateReferenceCandidate pattern winner evaluation =
      if addressMatches CudaSecp.pointToPublicKey pattern evaluation.candidate then min winner evaluation.index
      else winner := by
  rw [CudaSecp.evaluateReferenceCandidate, addressMatches]
  by_cases infinite : evaluation.candidate.infinity = true
  · simp [infinite]
  · simp [infinite]

/-- For a pattern built by the host the prefilter changes nothing. -/
theorem evaluateCandidate_eq {F : Type} (pointToPublicKey : AffinePoint F → List UInt8) {pattern : DevicePattern}
    (built : BuiltPattern pattern) (winner : Nat) (evaluation : Evaluation F) :
    evaluateCandidate pointToPublicKey pattern winner evaluation =
      if addressMatches pointToPublicKey pattern evaluation.candidate then min winner evaluation.index
      else winner := by
  have kept (matched : devicePatternMatches
      (deviceTronAddressFromPublicKey (pointToPublicKey evaluation.candidate)) pattern = true) := built.keeps matched
  rw [evaluateCandidate, addressMatches]
  rw [deviceTronAddressFromPublicKey] at kept ⊢
  by_cases infinite : evaluation.candidate.infinity = true
  · simp [infinite]
  · by_cases matched : devicePatternMatches (deviceTronAddressFromPayload
        (deviceTronPayloadFromPublicKey (pointToPublicKey evaluation.candidate))) pattern = true
    · simp [infinite, matched, kept matched]
    · simp [infinite, matched]

namespace CudaSecp

/-- The candidate of the reference kernel at a relative index. -/
def candidateAt (rangeStartPoint : AffinePoint) (index : Nat) : AffinePoint :=
  pointAdd rangeStartPoint (scalarMultiplyU64 (UInt64.ofNat index))

theorem candidateAt_represents {start : AffinePoint} {P : CurvePoint} (stands : Represents start P) {index : Nat}
    (small : index < 2 ^ 64) : Represents (candidateAt start index) (P + index • generator) := by
  have multiple := scalarMultiplyU64_represents (UInt64.ofNat index)
  rw [UInt64.toNat_ofNat_of_lt' small] at multiple
  exact represents_add stands multiple

/-- The indices in the range whose finite candidate's address matches. -/
def winners (rangeStartPoint : AffinePoint) (pattern : DevicePattern) (rangeCount : Nat) : Set Nat :=
  {index | index < rangeCount ∧ addressMatches pointToPublicKey pattern (candidateAt rangeStartPoint index) = true}

theorem functionalSearch_indices (start : AffinePoint) (pattern : DevicePattern) {rangeCount threads : Nat}
    (grid : rangeCount ≤ threads) (index : Nat) :
    index ∈ ((((List.range threads).flatMap (functionalSearchThread start rangeCount)).filter
      fun evaluation => addressMatches pointToPublicKey pattern evaluation.candidate).map (·.index)) ↔
      index ∈ winners start pattern rangeCount := by
  simp only [List.mem_map, List.mem_filter, List.mem_flatMap, List.mem_range]
  constructor
  · rintro ⟨evaluation, ⟨⟨thread, inside, member⟩, matched⟩, rfl⟩
    simp only [functionalSearchThread] at member
    split at member
    · cases member
    · rename_i inRange
      obtain rfl := List.mem_singleton.mp member
      exact ⟨Nat.lt_of_not_le inRange, matched⟩
  · rintro ⟨inRange, matched⟩
    refine ⟨⟨candidateAt start index, index⟩, ⟨⟨index, by omega, ?_⟩, matched⟩, rfl⟩
    simp only [functionalSearchThread]
    rw [if_neg (Nat.not_le.mpr inRange)]
    exact List.mem_singleton.mpr rfl

/-- The reference kernel reports the least matching index of the range, or none. -/
theorem functionalSearchKernel_isLeast (start : AffinePoint) (pattern : DevicePattern) {rangeCount threads : Nat}
    (grid : rangeCount ≤ threads) :
    IsLeast (winners start pattern rangeCount ∪ {noWinner})
      (functionalSearchKernel start pattern rangeCount threads noWinner) := by
  rw [functionalSearchKernel, foldl_evaluate (evaluateReferenceCandidate_eq pattern)]
  have least := foldl_min_isLeast ((((List.range threads).flatMap (functionalSearchThread start rangeCount)).filter
      fun evaluation => addressMatches pointToPublicKey pattern evaluation.candidate).map (·.index)) noWinner
  have members := Set.ext (functionalSearch_indices start pattern grid)
  have same : {index | index ∈ ((((List.range threads).flatMap (functionalSearchThread start rangeCount)).filter
      fun evaluation => addressMatches pointToPublicKey pattern evaluation.candidate).map (·.index))} =
      winners start pattern rangeCount := members
  rw [same] at least
  exact least

end CudaSecp

/-- Evaluations that hit every index of the range with its point find the winner of
the reference kernel. -/
theorem winner_eq_functional {F : Type} [FieldRepresentation F] {pointToPublicKey : AffinePoint F → List UInt8}
    (publicKeys : ∀ {point : AffinePoint F} {legacy : CudaSecp.AffinePoint} {P : CurvePoint},
      Represents point P → Represents legacy P → P ≠ 0 → pointToPublicKey point = CudaSecp.pointToPublicKey legacy)
    {pattern : DevicePattern} (built : BuiltPattern pattern) {start : CudaSecp.AffinePoint} {P : CurvePoint}
    (stands : Represents start P) {rangeCount threads : Nat} (grid : rangeCount ≤ threads)
    (unsigned : rangeCount ≤ 2 ^ 64) {evaluations : List (Evaluation F)}
    (covers : (evaluations.map (·.index)).Perm (List.range rangeCount))
    (points : ∀ evaluation ∈ evaluations, Represents evaluation.candidate (P + evaluation.index • generator)) :
    evaluations.foldl (evaluateCandidate pointToPublicKey pattern) noWinner =
      CudaSecp.functionalSearchKernel start pattern rangeCount threads noWinner := by
  have agree (evaluation : Evaluation F) (member : evaluation ∈ evaluations) (small : evaluation.index < 2 ^ 64) :
      addressMatches pointToPublicKey pattern evaluation.candidate =
        addressMatches CudaSecp.pointToPublicKey pattern (CudaSecp.candidateAt start evaluation.index) := by
    have first := points evaluation member
    have second := CudaSecp.candidateAt_represents stands small
    simp only [addressMatches]
    by_cases zero : P + evaluation.index • generator = 0
    · rw [first.infinity_iff.mpr zero, second.infinity_iff.mpr zero, Bool.not_true, Bool.false_and,
        Bool.false_and]
    · have firstFinite := Bool.eq_false_iff.mpr (fun infinite => zero (first.infinity_iff.mp infinite))
      have secondFinite := Bool.eq_false_iff.mpr (fun infinite => zero (second.infinity_iff.mp infinite))
      rw [firstFinite, secondFinite, publicKeys first second zero]
  rw [foldl_evaluate (evaluateCandidate_eq pointToPublicKey built), CudaSecp.functionalSearchKernel,
    foldl_evaluate (evaluateReferenceCandidate_eq pattern)]
  apply foldl_min_congr
  intro index
  rw [CudaSecp.functionalSearch_indices start pattern grid]
  simp only [List.mem_map, List.mem_filter]
  constructor
  · rintro ⟨evaluation, ⟨member, matched⟩, rfl⟩
    have inRange := List.mem_range.mp (covers.mem_iff.mp (List.mem_map_of_mem member))
    exact ⟨inRange, by rw [← agree evaluation member (by omega)]; exact matched⟩
  · rintro ⟨inRange, matched⟩
    obtain ⟨evaluation, member, rfl⟩ := List.mem_map.mp (covers.mem_iff.mpr (List.mem_range.mpr inRange))
    exact ⟨evaluation, ⟨member, by rw [agree evaluation member (by omega)]; exact matched⟩, rfl⟩

end TronForge.Native
