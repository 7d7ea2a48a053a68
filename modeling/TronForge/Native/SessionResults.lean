import TronForge.Native.BatchedSearch
import TronForge.Native.ChainReuse

/-! Sessions in every mode against the reference search: whatever a session has served
before, what it returns is what the processor finds on the request alone. -/

namespace TronForge.Native

open Library

namespace CudaSecp

section Incremental
variable {rangeStartPoint gridStridePoint : AffinePoint} {P : CurvePoint} {rangeCount threads : Nat}

/-- The loop of a thread stays on its candidates, and meets every index of its class. -/
theorem incrementalLoop_exact (stride : Represents gridStridePoint (threads • generator)) (positive : 0 < threads)
    (unsigned : rangeCount + threads ≤ 2 ^ 64) (fuel : Nat) {index : Nat} {candidate : AffinePoint}
    (enough : rangeCount ≤ index + fuel) (stands : Represents candidate (P + index • generator)) :
    (∀ evaluation ∈ incrementalLoop gridStridePoint rangeCount threads fuel index candidate,
      evaluation.index < rangeCount ∧ Represents evaluation.candidate (P + evaluation.index • generator)) ∧
    ∀ turns, index + turns * threads < rangeCount →
      index + turns * threads ∈
        (incrementalLoop gridStridePoint rangeCount threads fuel index candidate).map (·.index) := by
  induction fuel generalizing index candidate with
  | zero =>
    refine ⟨fun evaluation member => (by cases member), ?_⟩
    intro turns inside
    omega
  | succ fuel hypothesis =>
    rw [incrementalLoop]
    by_cases inside : index < rangeCount
    · have exact_ : wrap (index + threads) = index + threads := Nat.mod_eq_of_lt (by omega)
      have moved : Represents (pointAdd candidate gridStridePoint) (P + (index + threads) • generator) := by
        rw [add_nsmul, ← add_assoc]
        exact represents_add stands stride
      rw [if_pos inside]
      simp only [exact_]
      by_cases more : index + threads < rangeCount
      · rw [if_pos more]
        obtain ⟨points, indices⟩ := hypothesis (by omega) moved
        constructor
        · intro evaluation member
          rcases List.mem_cons.mp member with same | later
          · rw [same]
            exact ⟨inside, stands⟩
          · exact points evaluation later
        · intro turns below
          cases turns with
          | zero =>
            rw [Nat.zero_mul, Nat.add_zero]
            exact List.mem_cons_self
          | succ turns =>
            have same : index + (turns + 1) * threads = index + threads + turns * threads := by
              rw [Nat.succ_mul, Nat.add_comm (turns * threads), Nat.add_assoc]
            rw [same] at below ⊢
            exact List.mem_cons_of_mem _ (indices turns below)
      · have ended : incrementalLoop gridStridePoint rangeCount threads fuel (index + threads)
            (if index + threads < rangeCount then pointAdd candidate gridStridePoint else candidate) = [] := by
          cases fuel with
          | zero => rfl
          | succ fuel => rw [incrementalLoop, if_neg more]
        rw [ended]
        constructor
        · intro evaluation member
          rw [List.mem_singleton.mp member]
          exact ⟨inside, stands⟩
        · intro turns below
          cases turns with
          | zero =>
            rw [Nat.zero_mul, Nat.add_zero]
            exact List.mem_cons_self
          | succ turns =>
            rw [Nat.succ_mul] at below
            omega
    · rw [if_neg inside]
      refine ⟨fun evaluation member => (by cases member), ?_⟩
      intro turns below
      omega

/-- Two representations of one point match alike. -/
theorem addressMatches_unique {pattern : DevicePattern} {point other : AffinePoint} (stands : Represents point P)
    (otherStands : Represents other P) :
    addressMatches pointToPublicKey pattern point = addressMatches pointToPublicKey pattern other := by
  rw [addressMatches, addressMatches]
  by_cases infinite : P = 0
  · rw [stands.infinity_iff.mpr infinite, otherStands.infinity_iff.mpr infinite, Bool.not_true, Bool.false_and,
      Bool.false_and]
  · have finite := Bool.eq_false_iff.mpr (fun none_ => infinite (stands.infinity_iff.mp none_))
    have otherFinite := Bool.eq_false_iff.mpr (fun none_ => infinite (otherStands.infinity_iff.mp none_))
    rw [finite, otherFinite, publicKey_unique stands otherStands infinite]

/-- All grids that cover the range give the reference kernel one winner. -/
theorem functionalSearchKernel_grid (pattern : DevicePattern) {other : Nat} (grid : rangeCount ≤ threads)
    (otherGrid : rangeCount ≤ other) :
    functionalSearchKernel rangeStartPoint pattern rangeCount threads noWinner =
      functionalSearchKernel rangeStartPoint pattern rangeCount other noWinner :=
  (functionalSearchKernel_isLeast rangeStartPoint pattern grid).unique
    (functionalSearchKernel_isLeast rangeStartPoint pattern otherGrid)

/-- The incremental kernel finds the winner of the reference kernel from any start,
the point at infinity included. -/
theorem incrementalSearchKernel_eq (start : Represents rangeStartPoint P)
    (stride : Represents gridStridePoint (threads • generator)) (positive : 0 < threads)
    (unsigned : rangeCount + threads ≤ 2 ^ 64) (pattern : DevicePattern) :
    incrementalSearchKernel rangeStartPoint gridStridePoint pattern rangeCount threads noWinner =
      functionalSearchKernel rangeStartPoint pattern rangeCount rangeCount noWinner := by
  have loops (thread : Nat) (inside : thread < rangeCount) :=
    @incrementalLoop_exact gridStridePoint P rangeCount threads stride positive unsigned rangeCount thread
      (candidateAt rangeStartPoint thread) (by omega) (candidateAt_represents start (by omega))
  rw [incrementalSearchKernel, foldl_evaluate (evaluateReferenceCandidate_eq pattern), functionalSearchKernel,
    foldl_evaluate (evaluateReferenceCandidate_eq pattern)]
  apply foldl_min_congr
  intro index
  rw [functionalSearch_indices rangeStartPoint pattern le_rfl]
  simp only [List.mem_map, List.mem_filter, List.mem_flatMap, List.mem_range]
  constructor
  · intro found
    obtain ⟨evaluation, ⟨⟨thread, -, member⟩, matched⟩, same⟩ := found
    simp only [incrementalSearchThread] at member
    split at member
    · cases member
    · rename_i inside
      obtain ⟨inRange, stands⟩ := (loops thread (Nat.lt_of_not_le inside)).1 evaluation member
      rw [← same]
      refine ⟨inRange, ?_⟩
      rw [← addressMatches_unique stands (candidateAt_represents start (by omega))]
      exact matched
  · intro winner
    obtain ⟨inRange, matched⟩ := winner
    have thread : index % threads < threads := Nat.mod_lt _ positive
    have first : index % threads < rangeCount := (Nat.mod_le _ _).trans_lt inRange
    have turns : index % threads + index / threads * threads = index := Nat.mod_add_div' _ _
    obtain ⟨points, indices⟩ := loops (index % threads) first
    have reached := indices (index / threads) (by omega)
    rw [turns] at reached
    obtain ⟨evaluation, member, same⟩ := List.mem_map.mp reached
    obtain ⟨-, stands⟩ := points evaluation member
    refine ⟨evaluation, ⟨⟨index % threads, thread, ?_⟩, ?_⟩, same⟩
    · simp only [incrementalSearchThread]
      rw [if_neg (Nat.not_le.mpr first)]
      exact member
    · rw [← same] at matched
      rw [addressMatches_unique stands (candidateAt_represents start (by omega))]
      exact matched

end Incremental

end CudaSecp

/-- The stride that a session remembers is that of its grid. -/
def Strided (session : Session) : Prop :=
  ∀ stride point, session.cachedStride = some (stride, point) → Represents point (stride • generator)

section Strides
variable {mode : SearchMode} {session : Session} {request : SearchRequest} {fault : Option Fault}

theorem Strided.stridePoint (strided : Strided session) {gridStride : Nat} (positive : 0 < gridStride)
    (below : gridStride < groupOrder) {made : Session × CudaSecp.AffinePoint}
    (returned : session.stridePoint gridStride = .ok made) :
    Strided made.1 ∧ Represents made.2 (gridStride • generator) := by
  have finite := nsmul_generator_ne_zero positive below
  have stands : Represents (hostPoint (pointBytes (gridStride • generator))) (gridStride • generator) :=
    hostPoint_represents finite
  rw [Session.stridePoint] at returned
  cases kept : session.cachedStride.filter (·.1 == gridStride) with
  | some found =>
    obtain ⟨stride, point⟩ := found
    simp only [kept] at returned
    obtain ⟨cached, same⟩ := Option.filter_eq_some_iff.mp kept
    cases returned
    rw [← beq_iff_eq.mp same]
    exact ⟨strided, strided _ _ cached⟩
  | none =>
    have compressed := compressedPublicKey_scalarHex positive below rfl
    generalize grid : gridStride • generator = Q at finite stands compressed ⊢
    simp only [kept, compressed, bind, Except.bind, uncompressedPublicKey_compressed finite,
      hostPublicKeyBytes_pointBytes finite] at returned
    cases returned
    refine ⟨?_, stands⟩
    intro stride point cached
    cases cached
    rw [grid]
    exact stands

theorem complete_cached (prepared : Prepared) :
    (session.complete request prepared fault).session.cachedStride = session.cachedStride := by
  rw [Session.complete]
  split
  · rfl
  · have kept (points : List CudaChain.Point) : ({ session with chainPoints := points }.keepChains request
        prepared.normalizedStart).1.cachedStride = session.cachedStride := by
      rw [Session.keepChains]
      split
      · dsimp only
        split <;> rfl
      · rfl
    have after := kept (session.searchKernel request prepared).2
    dsimp only
    split
    · rename_i returned
      rw [returned] at after
      exact after
    · rename_i returned
      rw [returned] at after
      split <;> exact after

/-- The preparation outside the chained modes: the launch is given the points of the request. -/
theorem Strided.prepare (strided : Strided session) (tuned : Tuned mode session.configuration)
    (unchained : mode.isChained = false) :
    Strided (session.prepare request fault).1 ∧
      ∀ prepared, (session.prepare request fault).2 = .ok prepared → ∃ P start, PreparedFor request P start prepared ∧
        ∀ stride, session.configuration.gridStride request.rangeCount = some stride →
          Represents prepared.gridStridePoint (stride • generator) := by
  have isChained : session.configuration.mode.isChained = false := by rw [tuned.same, unchained]
  cases valid : validateRequest request with
  | error error =>
    simp only [Session.prepare, valid]
    exact ⟨strided, fun prepared returned => (by cases returned)⟩
  | ok made =>
    obtain ⟨P, start, launchable⟩ := validateRequest_launchable valid
    obtain ⟨pattern, built, validated⟩ := launchable.validated
    obtain ⟨startPoint, madePattern⟩ := made
    rw [valid, Except.ok.injEq, Prod.mk.injEq] at validated
    obtain ⟨samePoint, samePattern⟩ := validated
    subst samePattern
    have preparedFor (initializes : Bool) (point : CudaSecp.AffinePoint) : PreparedFor request P start
        ⟨startPoint, madePattern, scalarHex start, initializes, point⟩ :=
      ⟨launchable, samePoint, built, valid, rfl⟩
    cases failed : failsAt fault .setDevice with
    | some failure =>
      simp only [Session.prepare, valid, failed]
      exact ⟨strided, fun prepared returned => (by cases returned)⟩
    | none =>
      cases gridded : session.configuration.gridStride request.rangeCount with
      | none =>
        simp only [Session.prepare, valid, failed, launchable.normalizedStart, isChained, Bool.false_eq_true, if_false,
          gridded]
        refine ⟨strided, ?_⟩
        intro prepared returned
        cases returned
        exact ⟨P, start, preparedFor _ _, fun stride none_ => (by cases none_)⟩
      | some gridStride =>
        obtain ⟨positive, below⟩ := tuned.gridStride_bounds launchable.count gridded
        simp only [Session.prepare, valid, failed, launchable.normalizedStart, isChained, Bool.false_eq_true, if_false,
          gridded]
        cases strides : session.stridePoint gridStride with
        | error error => exact ⟨strided, fun prepared returned => (by cases returned)⟩
        | ok made =>
          obtain ⟨after, point⟩ := made
          obtain ⟨afterStrided, stands⟩ := strided.stridePoint positive below strides
          refine ⟨afterStrided, ?_⟩
          intro prepared returned
          cases returned
          refine ⟨P, start, preparedFor _ _, ?_⟩
          intro stride same
          cases same
          exact stands

/-- A search outside the chained modes remembers no other stride than that of its grid. -/
theorem Strided.search (strided : Strided session) (tuned : Tuned mode session.configuration)
    (unchained : mode.isChained = false) : Strided (session.search request fault).session := by
  obtain ⟨after, -⟩ := @Strided.prepare mode session request fault strided tuned unchained
  rw [Session.search]
  split
  · rename_i returned
    rw [returned] at after
    exact after
  · rename_i returned
    rw [returned] at after
    split
    · exact after
    · rw [Strided, complete_cached]
      exact after

theorem Strided.serve (strided : Strided session) (tuned : Tuned mode session.configuration)
    (unchained : mode.isChained = false) (served : List (SearchRequest × Option Fault)) :
    Strided (session.serve served) := by
  induction served generalizing session with
  | nil => exact strided
  | cons first rest hypothesis =>
    have same : (session.search first.1 first.2).session.configuration = session.configuration :=
      congrArg Prod.fst (search_fixed session first.1 first.2)
    exact hypothesis (strided.search tuned unchained) (by rw [same]; exact tuned)

end Strides

section Launches
variable {mode : SearchMode} {session : Session} {request : SearchRequest} {P : CurvePoint} {start : Nat}
  {prepared : Prepared}

/-- No batch of the range has its centre at infinity. -/
def Centred (request : SearchRequest) (P : CurvePoint) (start : Nat) : Prop :=
  ∀ batch, batch * 9 < request.rangeCount → P + (start + (batch * 9 + 4)) • generator ≠ 0

/-- Every launch outside the chained modes finds the winner of the reference kernel. -/
theorem searchKernel_winner (tuned : Tuned mode session.configuration) (unchained : mode.isChained = false)
    (table : mode = .batched → List.Forall₂ Represents session.batchTable
      ((List.range 4).map fun index => (index + 1) • generator))
    (made : PreparedFor request P start prepared)
    (stride : ∀ stride, session.configuration.gridStride request.rangeCount = some stride →
      Represents prepared.gridStridePoint (stride • generator))
    (centred : mode = .batched → Centred request P start) :
    (session.searchKernel request prepared).1 = CudaSecp.functionalSearchKernel prepared.startPoint prepared.pattern
      request.rangeCount request.rangeCount noWinner := by
  have stands := made.stands
  have limit := made.launchable.limit
  have same := tuned.same
  have threads := tuned.threads
  have fits := tuned.fits
  cases mode with
  | chained8 => cases unchained
  | chained16 => cases unchained
  | reference =>
    have wide : request.rangeCount ≤ session.configuration.grid request.rangeCount := by
      simp only [Configuration.grid, Configuration.blocks, same]
      have bound := Nat.lt_div_mul_add threads (a := request.rangeCount + session.configuration.threads - 1)
      omega
    simp only [Session.searchKernel, same]
    exact CudaSecp.functionalSearchKernel_grid _ wide le_rfl
  | incremental =>
    have strided := stride (session.configuration.grid request.rangeCount)
      (by simp only [Configuration.gridStride, Configuration.grid, same])
    obtain ⟨positive, -⟩ := tuned.gridStride_bounds made.launchable.count
      (show session.configuration.gridStride request.rangeCount = some (session.configuration.grid request.rangeCount) by
        simp only [Configuration.gridStride, Configuration.grid, same])
    have below : session.configuration.grid request.rangeCount < 2 ^ 37 := by
      simp only [Configuration.grid, Configuration.blocks, same]
      exact (Nat.mul_le_mul_right _ (Nat.min_le_right _ _)).trans_lt fits
    simp only [Session.searchKernel, same]
    exact CudaSecp.incrementalSearchKernel_eq stands strided positive (by omega) prepared.pattern
  | batched =>
    have grid : session.configuration.gridStride request.rangeCount =
        some (session.configuration.grid request.rangeCount * 9) := by
      simp only [Configuration.gridStride, Configuration.grid, same]
      rfl
    have strided := stride _ grid
    obtain ⟨positive, -⟩ := tuned.gridStride_bounds made.launchable.count grid
    have below : session.configuration.grid request.rangeCount < 2 ^ 37 := by
      simp only [Configuration.grid, Configuration.blocks, same]
      exact (Nat.mul_le_mul_right _ (Nat.min_le_right _ _)).trans_lt fits
    have arguments : CudaSecp.Arguments ⟨prepared.startPoint, prepared.gridStridePoint, session.batchTable,
        request.rangeCount, session.configuration.grid request.rangeCount⟩ (P + start • generator) :=
      ⟨stands, made.launchable.finite, strided, table rfl, Nat.pos_of_mul_pos_right positive, by
        dsimp only
        omega⟩
    have finite : ∀ batch, batch * 9 < request.rangeCount →
        P + start • generator + (batch * 9 + 4) • generator ≠ 0 := by
      intro batch inside
      rw [add_assoc, ← add_nsmul]
      exact centred rfl batch inside
    simp only [Session.searchKernel, same]
    exact (CudaSecp.batched_of_finite arguments made.built.built le_rfl finite).winner

end Launches

section Results
variable {mode : SearchMode} {session : Session} {request : SearchRequest} {fault : Option Fault} {result : SearchResult}

/-- A result comes from the winning index of a launch. -/
theorem search_result (returned : (session.search request fault).result = .ok result) :
    ∃ after prepared, session.prepare request fault = (after, .ok prepared) ∧
      searchResult request ({ after with chainPoints := after.initialized request prepared }.searchKernel request
        prepared).1 = .ok result := by
  rw [Session.search] at returned
  cases ran : session.prepare request fault with
  | mk after made =>
    cases made with
    | error error =>
      rw [ran] at returned
      cases returned
    | ok prepared =>
      refine ⟨after, prepared, rfl, ?_⟩
      simp only [ran] at returned
      cases early : (earlyCalls prepared).findSome? (failsAt fault) with
      | some failure =>
        rw [early] at returned
        cases returned
      | none =>
        simp only [early, Session.complete] at returned
        cases late : lateCalls.findSome? (failsAt fault) with
        | some failure =>
          rw [late] at returned
          cases returned
        | none =>
          simp only [late] at returned
          split at returned
          · cases returned
          · split at returned
            · cases returned
            · exact returned

/-- The table of a fresh session in batches. -/
theorem create_table {device : Device} {memory : Nat → CudaChain.Point}
    (created : Session.create .batched device memory = .ok session) :
    List.Forall₂ Represents session.batchTable ((List.range 4).map fun index => (index + 1) • generator) := by
  obtain ⟨configuration, -, rest⟩ := bind_eq_ok created
  cases rest
  have table := fun (index : Nat) (small : index < 4) => CudaSecp.scalarMultiplyU64_represents (UInt64.ofNat (index + 1))
  have radius : CudaSecp.batchRadius = 4 := rfl
  simp only [if_true]
  rw [radius, List.forall₂_map_left_iff, List.forall₂_map_right_iff, List.forall₂_same]
  intro index member
  have small : index < 4 := List.mem_range.mp member
  have multiple := table index small
  rwa [UInt64.toNat_ofNat_of_lt' (show index + 1 < 2 ^ 64 by omega)] at multiple

/-- The reference search returns what an exact launch leads to. -/
theorem searchResult_reference {P : CurvePoint} {start : Nat} {prepared : Prepared}
    (made : PreparedFor request P start prepared)
    (returned : searchResult request (CudaSecp.functionalSearchKernel prepared.startPoint prepared.pattern
      request.rangeCount request.rangeCount noWinner) = .ok result) :
    ∃ reference, searchCpu request = .ok reference ∧ result = { reference with attempts := request.rangeCount } := by
  obtain ⟨found, same, finds⟩ := searchResult_finds made.launchable.toSearchable made.launchable.limit made.built made.stands
  obtain ⟨reference, searched, referenceFinds⟩ := searchCpu_finds made.launchable.toSearchable
  refine ⟨reference, searched, ?_⟩
  rw [← finds.unique referenceFinds]
  exact Except.ok.inj (returned.symm.trans same)

/-- Whatever a session in whatever mode has served, rejected or lost to failures before,
a search that returns has found what the reference search finds on the request: the
same first match with its address, or none. In batches no centre may be at infinity. -/
theorem session_finds_reference {device : Device} {memory : Nat → CudaChain.Point} {fresh : Session}
    (created : Session.create mode device memory = .ok fresh) (served : List (SearchRequest × Option Fault))
    (centred : mode = .batched → ∀ P start, Searchable request P start → Centred request P start)
    (returned : ((fresh.serve served).search request fault).result = .ok result) :
    ∃ reference, searchCpu request = .ok reference ∧ result = { reference with attempts := request.rangeCount } := by
  have fresh_ := create_fresh created
  have same : (fresh.serve served).configuration = fresh.configuration := congrArg Prod.fst (serve_fixed fresh served)
  have sameTable : (fresh.serve served).batchTable = fresh.batchTable :=
    congrArg (fun fixed => fixed.2.1) (serve_fixed fresh served)
  cases chained : mode.isChained with
  | true =>
    have ready := (fresh_.ready chained).serve chained served
    obtain ⟨-, -, outcome⟩ := ready.search chained request fault
    rcases outcome with ⟨failure, failed, -⟩ | outcome
    · rw [failed] at returned
      cases returned
    · rcases ready.prepare chained request none with ⟨error, refused, reason⟩ | ⟨P, start, prepared, made, -, -⟩
      · have lost := reason.resolve_left (fun impossible => by
          obtain ⟨failure, -, none_⟩ := impossible
          cases none_)
        rw [outcome, lost] at returned
        cases returned
      · rw [outcome, made.outcome] at returned
        split at returned
        · cases returned
        · exact searchResult_reference made returned
  | false =>
    have strided : Strided (fresh.serve served) := by
      refine Strided.serve ?_ fresh_.tuned chained served
      intro stride point cached
      obtain ⟨configuration, -, rest⟩ := bind_eq_ok created
      simp only [chained, Bool.false_eq_true, if_false] at rest
      cases rest
      cases cached
    have tuned : Tuned mode (fresh.serve served).configuration := by
      rw [same]
      exact fresh_.tuned
    obtain ⟨after, prepared, ran, outcome⟩ := search_result returned
    have fixed := prepare_fixed (fresh.serve served) request fault
    obtain ⟨-, launches⟩ := @Strided.prepare mode (fresh.serve served) request fault strided tuned chained
    rw [ran] at fixed launches
    obtain ⟨P, start, made, stride⟩ := launches prepared rfl
    have configuration : after.configuration = (fresh.serve served).configuration := congrArg Prod.fst fixed
    have table : after.batchTable = fresh.batchTable := (congrArg (fun fixed => fixed.2.1) fixed).trans sameTable
    rw [← configuration] at tuned stride
    have tables : mode = .batched → List.Forall₂ Represents after.batchTable
        ((List.range 4).map fun index => (index + 1) • generator) := by
      intro batched
      subst batched
      rw [table]
      exact create_table created
    have winner := @searchKernel_winner mode { after with chainPoints := after.initialized request prepared } request P
      start prepared tuned chained tables made stride fun batched => centred batched P start made.launchable.toSearchable
    rw [winner] at outcome
    exact searchResult_reference made outcome

end Results

/-- The first offset of the generator. -/
def firstRequest : SearchRequest := { lastRequest with rangeStart := ['1'], rangeCount := 1 }

theorem firstRequest_launchable : Launchable firstRequest generator 1 where
  pattern := lastRequest_launchable.pattern
  key := lastRequest_launchable.key
  parsed := rfl
  count := Nat.one_pos
  positive := Nat.one_pos
  last := by
    have count : firstRequest.rangeCount = 1 := rfl
    rw [count]
    norm_num [groupOrder]
  limit := by decide
  finite := by
    rw [← succ_nsmul']
    exact nsmul_generator_ne_zero (by norm_num) (by norm_num [groupOrder])

/-- A chained session that has lost its last range searches the first offset. -/
theorem session_finds_first : ∃ fresh result reference,
    Session.create .chained8 smallDevice (fun _ => default) = .ok fresh ∧
      ((fresh.serve [(lastRequest, none)]).search firstRequest none).result = .ok result ∧
      searchCpu firstRequest = .ok reference ∧ result = { reference with attempts := 1 } := by
  obtain ⟨fresh, created⟩ := create_chained (rfl : SearchMode.chained8.isChained = true) smallDevice fun _ => default
  have ready := ((create_fresh created).ready rfl).serve rfl [(lastRequest, none)]
  have before : 1 + firstRequest.rangeCount < groupOrder := by
    have count : firstRequest.rangeCount = 1 := rfl
    rw [count]
    norm_num [groupOrder]
  obtain ⟨found, returned, -⟩ := ready.search_launchable rfl firstRequest_launchable before
  obtain ⟨reference, searched, same⟩ := session_finds_reference created [(lastRequest, none)]
    (fun batched => by cases batched) returned
  exact ⟨fresh, _, reference, created, returned, searched, same⟩

end TronForge.Native
