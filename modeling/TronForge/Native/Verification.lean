import TronForge.Native.RequestValidation

/-! The processor verifies what the device found: the candidate that wins a launch is
the first offset of the range that the reference search would return. -/

namespace TronForge.Native

/-- The public key of a point is the same on the host and on the device. -/
theorem pointToPublicKey_bytes {point : CudaSecp.AffinePoint} {P : CurvePoint} (stands : Represents point P)
    (finite : P ≠ 0) : CudaSecp.pointToPublicKey point = pointBytes P := by
  have coordinate {element : CudaSecp.Field} {a : Residue} (holds : Holds element a) :
      CudaSecp.fieldToBigEndian element = scalarBytes a.val := by
    obtain ⟨value, length⟩ := CudaSecp.fieldToBigEndian_bytes element
    apply bytesValue_injective (by rw [length, length_scalarBytes])
    rw [value, bytesValue_scalarBytes (residue_fits a)]
    exact holds
  cases stands with
  | infinity x y => exact absurd rfl finite
  | finite holdsX holdsY onCurve =>
    rw [CudaSecp.pointToPublicKey, pointBytes, coordinate holdsX, coordinate holdsY]

/-- The matcher of the device on an address is the host's. -/
theorem deviceMatches_address {pattern : DevicePattern} (accepted : Accepted pattern.afterT pattern.suffix)
    (publicKey : List UInt8) :
    devicePatternMatches (deviceTronAddressFromPublicKey publicKey) pattern =
      matchesPattern (deviceTronAddressFromPublicKey publicKey) pattern.afterT pattern.suffix := by
  have tron := tronPayload_fromPublicKey publicKey
  have size := length_deviceChecksum (deviceTronPayloadFromPublicKey publicKey)
  have address := base58Text_address tron size
  rw [deviceAddress_text]
  exact devicePatternMatches_eq accepted address.length (base58Text_first tron size) address.known pattern.intervals

theorem addressMatches_iff {pattern : DevicePattern} (accepted : Accepted pattern.afterT pattern.suffix)
    {candidate : CudaSecp.AffinePoint} {Q : CurvePoint} (stands : Represents candidate Q) :
    addressMatches CudaSecp.pointToPublicKey pattern candidate = true ↔
      Q ≠ 0 ∧ matchesPattern (pointAddress Q) pattern.afterT pattern.suffix = true := by
  rw [addressMatches, Bool.and_eq_true]
  by_cases infinite : Q = 0
  · rw [stands.infinity_iff.mpr infinite]
    exact iff_of_false (fun both => Bool.noConfusion both.1) (fun both => both.1 infinite)
  · have finite := Bool.eq_false_iff.mpr (fun none => infinite (stands.infinity_iff.mp none))
    rw [finite, deviceMatches_address accepted, pointToPublicKey_bytes stands infinite, pointAddress]
    exact and_congr_left' (iff_of_true rfl infinite)

section
variable {request : SearchRequest} {P : CurvePoint} {start : Nat} {startPoint : CudaSecp.AffinePoint}
  {pattern : DevicePattern}

/-- The winners of a range are its matching offsets. -/
theorem mem_winners_iff (built : BuiltFor request pattern) (stands : Represents startPoint (P + start • generator))
    {count index : Nat} (small : count ≤ 2 ^ 64) :
    index ∈ CudaSecp.winners startPoint pattern count ↔
      index < count ∧ OffsetMatches P request.afterT request.suffix (start + index) := by
  have candidate (below : index < count) :
      addressMatches CudaSecp.pointToPublicKey pattern (CudaSecp.candidateAt startPoint index) = true ↔
        OffsetMatches P request.afterT request.suffix (start + index) := by
    have at_ := CudaSecp.candidateAt_represents stands (below.trans_le small)
    rw [add_assoc, ← add_nsmul] at at_
    rw [addressMatches_iff built.built.accepted at_, built.afterT, built.suffix]
    rfl
  constructor
  · rintro ⟨below, matched⟩
    exact ⟨below, (candidate below).mp matched⟩
  · rintro ⟨below, matched⟩
    exact ⟨below, (candidate below).mpr matched⟩

/-- The verification of one candidate. -/
theorem searchCpu_candidate (searchable : Searchable request P start) {index : Nat}
    (below : index < request.rangeCount) (hit : OffsetMatches P request.afterT request.suffix (start + index)) :
    searchCpu { request with rangeStart := scalarHex (start + index), rangeCount := 1 } =
      .ok ⟨true, pointAddress (P + (start + index) • generator), scalarHex (start + index), 1⟩ := by
  have last := searchable.last
  have inside : start + index < groupOrder := by omega
  have parsed := parseRangeStart_scalarHex (inside.trans groupOrder_lt)
  have single : Searchable { request with rangeStart := scalarHex (start + index), rangeCount := 1 } P
      (start + index) := by
    refine ⟨searchable.pattern, searchable.key, ?_, Nat.one_pos, Nat.add_pos_left searchable.positive _, ?_⟩
    · dsimp only
      exact parsed
    · rw [Nat.sub_self, Nat.add_zero]
      exact inside
  obtain ⟨result, returned, finds⟩ := searchCpu_finds single
  cases finds with
  | @winner turn inside _ _ =>
    obtain rfl : turn = 0 := Nat.lt_one_iff.mp inside
    rw [returned, Nat.add_zero, Nat.zero_add]
  | nothing misses =>
    have miss := misses 0 Nat.one_pos
    rw [Nat.add_zero] at miss
    exact absurd hit miss

/-- The winning index of a launch leads to the result of the reference search, which
counts its attempts differently. -/
theorem searchResult_finds (searchable : Searchable request P start) (limit : request.rangeCount ≤ 2 ^ 26)
    (built : BuiltFor request pattern) (stands : Represents startPoint (P + start • generator)) :
    ∃ result, searchResult request (CudaSecp.functionalSearchKernel startPoint pattern request.rangeCount
        request.rangeCount noWinner) = .ok { result with attempts := request.rangeCount } ∧
      Finds P request.afterT request.suffix start request.rangeCount result := by
  have unsigned : request.rangeCount ≤ 2 ^ 64 := limit.trans (by norm_num)
  have least := CudaSecp.functionalSearchKernel_isLeast startPoint pattern (le_refl request.rangeCount)
  generalize CudaSecp.functionalSearchKernel startPoint pattern request.rangeCount request.rangeCount noWinner =
    winningIndex at least
  obtain ⟨member, lower⟩ := least
  have winners (index : Nat) := @mem_winners_iff request P start startPoint pattern built stands request.rangeCount
    index unsigned
  have none_below (earlier : Nat) (below : earlier < winningIndex) (inside : earlier < request.rangeCount) :
      ¬ OffsetMatches P request.afterT request.suffix (start + earlier) := by
    intro hit
    have bound := lower (Or.inl ((winners earlier).mpr ⟨inside, hit⟩))
    exact absurd bound (Nat.not_le.mpr below)
  rcases member with won | nothing
  · obtain ⟨below, hit⟩ := (winners winningIndex).mp won
    have some_ : winningIndex ≠ noWinner := by
      rw [noWinner]
      omega
    have last := searchable.last
    have moved : addToOffset request.rangeStart winningIndex = .ok (scalarHex (start + winningIndex)) := by
      have positive := searchable.positive
      rw [addToOffset_eq searchable.parsed, if_pos (by omega)]
      rfl
    refine ⟨_, ?_, .winner below hit (fun earlier before => none_below earlier before (before.trans below))⟩
    rw [searchResult, if_neg some_, moved]
    simp only [bind, Except.bind, searchCpu_candidate searchable below hit, Bool.not_true, bne_self_eq_false,
      Bool.or_self, Bool.false_eq_true, if_false]
    rfl
  · refine ⟨⟨false, [], [], request.rangeCount⟩, ?_, .nothing (fun index inside => ?_)⟩
    · have none_ : winningIndex = noWinner := nothing
      rw [searchResult, if_pos none_]
      rfl
    · have none_ : winningIndex = noWinner := nothing
      apply none_below index _ inside
      rw [none_, noWinner]
      omega

end

end TronForge.Native
