import TronForge.Native.ChainAdvance
import TronForge.Native.Winner

/-! The chained kernels: what the initialisation leaves in the points, what a thread
does in its steps, and that a launch evaluates the range exactly once. -/

namespace TronForge.Native.CudaChain

open Library

section
variable {pointsPerThread threads chainCount : Nat}

/-- Without overflow a thread has a block of consecutive chains. -/
theorem threadChains_eq (geometry : chainCount = threads * pointsPerThread) (unsigned : chainCount ≤ 2 ^ 64)
    {threadIndex : Nat} (inside : threadIndex < threads) :
    threadChains pointsPerThread threadIndex =
      (List.range pointsPerThread).map (threadIndex * pointsPerThread + ·) := by
  apply List.map_congr_left
  intro pointIndex member
  rw [List.mem_range] at member
  have block : (threadIndex + 1) * pointsPerThread ≤ threads * pointsPerThread :=
    Nat.mul_le_mul_right _ inside
  rw [Nat.add_one_mul] at block
  rw [wrap, wrap, Nat.mod_add_mod, Nat.mod_eq_of_lt (by omega)]

theorem mem_threadChains (geometry : chainCount = threads * pointsPerThread) (unsigned : chainCount ≤ 2 ^ 64)
    {threadIndex : Nat} (inside : threadIndex < threads) (chain : Nat) :
    chain ∈ threadChains pointsPerThread threadIndex ↔
      threadIndex * pointsPerThread ≤ chain ∧ chain < (threadIndex + 1) * pointsPerThread := by
  rw [threadChains_eq geometry unsigned inside, List.mem_map, Nat.add_one_mul]
  constructor
  · rintro ⟨pointIndex, member, rfl⟩
    rw [List.mem_range] at member
    omega
  · rintro ⟨low, high⟩
    exact ⟨chain - threadIndex * pointsPerThread, List.mem_range.mpr (by omega), by omega⟩

theorem threadChain_lt (geometry : chainCount = threads * pointsPerThread) {threadIndex chain : Nat}
    (inside : threadIndex < threads) (member : chain < (threadIndex + 1) * pointsPerThread) : chain < chainCount := by
  rw [geometry]
  exact member.trans_le (Nat.mul_le_mul_right _ inside)

/-- Every chain gets its start. -/
theorem chainedInitialize_represents (geometry : chainCount = threads * pointsPerThread)
    (unsigned : chainCount ≤ 2 ^ 64) {start : CudaSecp.AffinePoint} {P : CurvePoint} (stands : Represents start P)
    {points : List Point} (allocated : points.length = chainCount) :
    (chainedInitializeKernel pointsPerThread start chainCount threads points).length = chainCount ∧
    ∀ chain < chainCount, Represents
      ((chainedInitializeKernel pointsPerThread start chainCount threads points).getD chain default)
      (P + chain • generator) := by
  have flat : chainedInitializeKernel pointsPerThread start chainCount threads points =
      ((List.range threads).flatMap fun threadIndex =>
        (threadChains pointsPerThread threadIndex).filter (· < chainCount)).foldl
      (fun points chain => points.set chain (fromLegacyPoint (CudaSecp.candidateAt start chain))) points := by
    rw [List.foldl_flatMap]
    rfl
  rw [flat]
  refine ⟨by rw [length_foldl_set, allocated], ?_⟩
  intro chain below
  have positive : 0 < pointsPerThread := by
    by_contra zero
    rw [geometry, Nat.eq_zero_of_not_pos zero, Nat.mul_zero] at below
    omega
  have member : chain ∈ (List.range threads).flatMap fun threadIndex =>
      (threadChains pointsPerThread threadIndex).filter (· < chainCount) := by
    have inside : chain / pointsPerThread < threads := by
      rw [Nat.div_lt_iff_lt_mul positive, ← geometry]
      exact below
    rw [List.mem_flatMap]
    refine ⟨chain / pointsPerThread, List.mem_range.mpr inside, ?_⟩
    rw [List.mem_filter, mem_threadChains geometry unsigned inside]
    exact ⟨⟨Nat.div_mul_le_self _ _, by rw [Nat.mul_comm]; exact Nat.lt_mul_div_succ chain positive⟩,
      by simpa using below⟩
  rw [getD_foldl_set _ _ _ (by rw [allocated]; exact below), if_pos member]
  exact fromLegacyPoint_represents (CudaSecp.candidateAt_represents stands (by omega))

end

section
variable {launch : ChainedLaunch} {threads : Nat}

/-- The geometry of a launch: the threads hold all chains, and no index of its
steps overflows. The session admits ranges up to `2^26`, and its chains are
fewer than `2^42`. -/
structure Geometry (launch : ChainedLaunch) (threads : Nat) : Prop where
  chains : launch.chainCount = threads * launch.pointsPerThread
  positive : 0 < launch.chainCount
  rounds : launch.steps = (launch.rangeCount + launch.chainCount - 1) / launch.chainCount
  unsigned : launch.rangeCount + launch.chainCount ≤ 2 ^ 64

theorem Geometry.steps_le (geometry : Geometry launch threads) :
    launch.rangeCount ≤ launch.steps * launch.chainCount ∧ launch.steps * launch.chainCount ≤ 2 ^ 64 := by
  have low := Nat.div_mul_le_self (launch.rangeCount + launch.chainCount - 1) launch.chainCount
  have high := Nat.lt_div_mul_add geometry.positive (a := launch.rangeCount + launch.chainCount - 1)
  have positive := geometry.positive
  have unsigned := geometry.unsigned
  rw [geometry.rounds]
  omega

theorem Geometry.chains_le (geometry : Geometry launch threads) : launch.chainCount ≤ 2 ^ 64 := by
  have unsigned := geometry.unsigned
  omega

/-- The chains of a thread are on their points of a step. -/
def Standing (launch : ChainedLaunch) (P : CurvePoint) (step : Nat) (points : List Point) (chains : List Nat) : Prop :=
  List.Forall₂ Represents points (chains.map fun chain => P + (step * launch.chainCount + chain) • generator)

theorem standing_advance {P : CurvePoint} {step : Nat} {points : List Point} {chains : List Nat}
    (stride : Represents launch.stridePoint (launch.chainCount • generator))
    (finite : launch.chainCount • generator ≠ 0) (standing : Standing launch P step points chains) :
    Standing launch P (step + 1) (advanceAll launch.stridePoint points) chains := by
  have moved := advanceAll_represents stride finite standing
  have next : (chains.map fun chain => P + (step * launch.chainCount + chain) • generator).map
      (· + launch.chainCount • generator) =
      chains.map fun chain => P + ((step + 1) * launch.chainCount + chain) • generator := by
    rw [List.map_map]
    apply List.map_congr_left
    intro chain _
    rw [Function.comp_apply, add_assoc, ← add_nsmul, Nat.add_one_mul, Nat.add_right_comm]
  rw [next] at moved
  exact moved

/-- The indices of a thread in a step. -/
def stepIndices (launch : ChainedLaunch) (threadIndex step : Nat) : List Nat :=
  ((threadChains launch.pointsPerThread threadIndex).map (step * launch.chainCount + ·)).filter
    (· < launch.rangeCount)

/-- An evaluation has the candidate of its index. -/
def Exact (P : CurvePoint) (evaluation : Evaluation Field) : Prop :=
  Represents evaluation.candidate (P + evaluation.index • generator)

theorem stepEvaluations_exact (P : CurvePoint) (step : Nat) {points : List Point} {chains : List Nat}
    (small : ∀ chain ∈ chains, step * launch.chainCount + chain < 2 ^ 64)
    (standing : Standing launch P step points chains) :
    (((chains.zip points).filterMap fun entry =>
        let relativeIndex := wrap (wrap (step * launch.chainCount) + entry.1)
        if relativeIndex < launch.rangeCount then some (⟨entry.2, relativeIndex⟩ : Evaluation Field)
        else none).map (·.index) =
      (chains.map (step * launch.chainCount + ·)).filter (· < launch.rangeCount)) ∧
    ∀ evaluation ∈ (chains.zip points).filterMap fun entry =>
        let relativeIndex := wrap (wrap (step * launch.chainCount) + entry.1)
        if relativeIndex < launch.rangeCount then some (⟨entry.2, relativeIndex⟩ : Evaluation Field)
        else none, Exact P evaluation := by
  induction chains generalizing points with
  | nil => simp
  | cons chain rest hypothesis =>
    cases standing with
    | @cons point _ points _ stands standing =>
      obtain ⟨indices, exact_⟩ := hypothesis (fun other member => small other (List.mem_cons_of_mem _ member)) standing
      have index : wrap (wrap (step * launch.chainCount) + chain) = step * launch.chainCount + chain := by
        rw [wrap, wrap, Nat.mod_add_mod, Nat.mod_eq_of_lt (small chain List.mem_cons_self)]
      rw [List.zip_cons_cons, List.filterMap_cons, List.map_cons, List.filter_cons]
      simp only [index]
      by_cases inRange : step * launch.chainCount + chain < launch.rangeCount
      · simp only [inRange, if_true, decide_true]
        refine ⟨by rw [List.map_cons, indices], ?_⟩
        intro evaluation member
        rcases List.mem_cons.mp member with rfl | later
        · exact stands
        · exact exact_ evaluation later
      · simp only [inRange, if_false, decide_false, Bool.false_eq_true]
        exact ⟨indices, exact_⟩

/-- The step loop of a thread. -/
theorem threadSteps_exact (geometry : Geometry launch threads) {threadIndex : Nat} (inside : threadIndex < threads)
    (stride : Represents launch.stridePoint (launch.chainCount • generator))
    (finite : launch.chainCount • generator ≠ 0) {P : CurvePoint} {points : List Point}
    (standing : Standing launch P 0 points (threadChains launch.pointsPerThread threadIndex)) {steps : Nat}
    (rounds : steps ≤ launch.steps) :
    ((threadSteps launch threadIndex points steps).1.map (·.index) =
      (List.range steps).flatMap (stepIndices launch threadIndex)) ∧
    (∀ evaluation ∈ (threadSteps launch threadIndex points steps).1, Exact P evaluation) ∧
    Standing launch P steps (threadSteps launch threadIndex points steps).2
      (threadChains launch.pointsPerThread threadIndex) := by
  induction steps with
  | zero => exact ⟨rfl, by simp [threadSteps], standing⟩
  | succ steps hypothesis =>
    obtain ⟨indices, exact_, standing⟩ := hypothesis (by omega)
    have small : ∀ chain ∈ threadChains launch.pointsPerThread threadIndex,
        steps * launch.chainCount + chain < 2 ^ 64 := by
      intro chain member
      have below := threadChain_lt geometry.chains inside
        ((mem_threadChains geometry.chains geometry.chains_le inside chain).mp member).2
      have last : (steps + 1) * launch.chainCount ≤ launch.steps * launch.chainCount :=
        Nat.mul_le_mul_right _ rounds
      have bound := geometry.steps_le.2
      rw [Nat.add_one_mul] at last
      omega
    obtain ⟨stepIndices_, stepExact⟩ := stepEvaluations_exact P steps small standing
    have next : threadSteps launch threadIndex points (steps + 1) =
        ((threadSteps launch threadIndex points steps).1 ++
            stepEvaluations launch threadIndex steps (threadSteps launch threadIndex points steps).2,
          advanceAll launch.stridePoint (threadSteps launch threadIndex points steps).2) := by
      simp only [threadSteps, List.range_succ, List.foldl_append, List.foldl_cons, List.foldl_nil]
    rw [next]
    refine ⟨?_, ?_, standing_advance stride finite standing⟩
    · rw [List.map_append, indices, List.range_succ, List.flatMap_append, List.flatMap_singleton]
      congr 1
    · intro evaluation member
      rcases List.mem_append.mp member with before | now
      · exact exact_ evaluation before
      · exact stepExact evaluation now

/-- All indices of a thread. -/
def threadIndices (launch : ChainedLaunch) (threadIndex : Nat) : List Nat :=
  (List.range launch.steps).flatMap (stepIndices launch threadIndex)

/-- Between two threads: those before are done with their chains, the others have
theirs where the launch found them. -/
structure LaunchState (launch : ChainedLaunch) (P : CurvePoint) (finished : Nat)
    (state : List (Evaluation Field) × List Point) : Prop where
  cells : state.2.length = launch.chainCount
  indices : state.1.map (·.index) = (List.range finished).flatMap (threadIndices launch)
  exact : ∀ evaluation ∈ state.1, Exact P evaluation
  points : ∀ chain < launch.chainCount, Represents (state.2.getD chain default)
    (P + ((if chain < finished * launch.pointsPerThread then launch.steps else 0) * launch.chainCount + chain) •
      generator)

theorem forall₂_getD {Value Place : Type} {R : Value → Place → Prop} {count : Nat} {place : Nat → Place}
    {values : List Value} (related : List.Forall₂ R values ((List.range count).map place)) {index : Nat}
    (inside : index < count) (fallback : Value) : R (values.getD index fallback) (place index) := by
  have length : values.length = count := by
    rw [related.length_eq, List.length_map, List.length_range]
  have below : index < values.length := by omega
  have one := related.get below (by simpa using inside)
  simpa [List.getD, List.getElem?_eq_getElem below] using one

theorem chainedSearchThread_state (geometry : Geometry launch threads) {finished : Nat} (inside : finished < threads)
    (stride : Represents launch.stridePoint (launch.chainCount • generator))
    (finite : launch.chainCount • generator ≠ 0) {P : CurvePoint}
    {state : List (Evaluation Field) × List Point} (before : LaunchState launch P finished state) :
    LaunchState launch P (finished + 1) (chainedSearchThread launch state finished) := by
  have members := mem_threadChains geometry.chains geometry.chains_le inside
  have block := Nat.add_one_mul finished launch.pointsPerThread
  have positive : 0 < launch.pointsPerThread := by
    by_contra zero
    have none := geometry.chains
    rw [Nat.eq_zero_of_not_pos zero, Nat.mul_zero] at none
    exact absurd geometry.positive (by omega)
  have firstBelow : finished * launch.pointsPerThread < launch.chainCount :=
    threadChain_lt geometry.chains inside (by omega)
  have firstChain : wrap (finished * launch.pointsPerThread) = finished * launch.pointsPerThread :=
    Nat.mod_eq_of_lt (firstBelow.trans_le geometry.chains_le)
  have started : ¬ finished * launch.pointsPerThread ≥ launch.chainCount := Nat.not_le.mpr firstBelow
  have standing : Standing launch P 0
      ((threadChains launch.pointsPerThread finished).map fun chain => state.2.getD chain default)
      (threadChains launch.pointsPerThread finished) := by
    rw [Standing, List.forall₂_map_left_iff, List.forall₂_map_right_iff, List.forall₂_same]
    intro chain member
    obtain ⟨low, high⟩ := (members chain).mp member
    have here := before.points chain (threadChain_lt geometry.chains inside high)
    rwa [if_neg (Nat.not_lt.mpr low)] at here
  obtain ⟨indices, exact_, moved⟩ := threadSteps_exact geometry inside stride finite standing le_rfl
  have places : ((threadChains launch.pointsPerThread finished).map fun chain =>
      P + (launch.steps * launch.chainCount + chain) • generator) =
      (List.range launch.pointsPerThread).map fun offset =>
        P + (launch.steps * launch.chainCount + (finished * launch.pointsPerThread + offset)) • generator := by
    rw [threadChains_eq geometry.chains geometry.chains_le inside, List.map_map]
    rfl
  simp only [chainedSearchThread, firstChain, if_neg started]
  refine ⟨by rw [length_foldl_set, before.cells], ?_, ?_, ?_⟩
  · rw [List.map_append, before.indices, indices, List.range_succ, List.flatMap_append, List.flatMap_singleton]
    rfl
  · intro evaluation member
    rcases List.mem_append.mp member with earlier | now
    · exact before.exact evaluation earlier
    · exact exact_ evaluation now
  · intro chain below
    rw [getD_foldl_set (fun chain => (threadSteps launch finished _ launch.steps).2.getD
      (chain - finished * launch.pointsPerThread) default) _ _ (by rw [before.cells]; exact below)]
    by_cases member : chain ∈ threadChains launch.pointsPerThread finished
    · obtain ⟨low, high⟩ := (members chain).mp member
      rw [if_pos member, if_pos high]
      rw [Standing, places] at moved
      have offset : chain - finished * launch.pointsPerThread < launch.pointsPerThread := by omega
      have place := forall₂_getD moved offset default
      rwa [Nat.add_sub_cancel' low] at place
    · rw [if_neg member]
      have outside := mt (members chain).mpr member
      have same : (chain < (finished + 1) * launch.pointsPerThread) =
          (chain < finished * launch.pointsPerThread) := by
        rw [eq_iff_iff]
        omega
      simp only [same]
      exact before.points chain below

/-- A whole launch. -/
theorem chainedSearchKernel_state (geometry : Geometry launch threads)
    (stride : Represents launch.stridePoint (launch.chainCount • generator))
    (finite : launch.chainCount • generator ≠ 0) {P : CurvePoint} {globalPoints : List Point}
    (allocated : globalPoints.length = launch.chainCount)
    (started : ∀ chain < launch.chainCount, Represents (globalPoints.getD chain default) (P + chain • generator))
    {finished : Nat} (inside : finished ≤ threads) :
    LaunchState launch P finished
      ((List.range finished).foldl (chainedSearchThread launch) ([], globalPoints)) := by
  induction finished with
  | zero =>
    refine ⟨allocated, rfl, by simp, ?_⟩
    intro chain below
    have here := started chain below
    simpa using here
  | succ finished hypothesis =>
    rw [List.range_succ, List.foldl_append, List.foldl_cons, List.foldl_nil]
    exact chainedSearchThread_state geometry inside stride finite (hypothesis (by omega))

/-- Every index of the range belongs to one thread, one step and one chain. -/
theorem launch_covers (geometry : Geometry launch threads) :
    ((List.range threads).flatMap (threadIndices launch)).Perm (List.range launch.rangeCount) := by
  have positive : 0 < launch.pointsPerThread := by
    by_contra zero
    have none := geometry.chains
    rw [Nat.eq_zero_of_not_pos zero, Nat.mul_zero] at none
    exact absurd geometry.positive (by omega)
  have belongs {threadIndex step index : Nat} (inside : threadIndex < threads) :
      index ∈ stepIndices launch threadIndex step ↔ index / launch.chainCount = step ∧
        index % launch.chainCount / launch.pointsPerThread = threadIndex ∧ index < launch.rangeCount := by
    simp only [stepIndices, List.mem_filter, List.mem_map, decide_eq_true_eq,
      mem_threadChains geometry.chains geometry.chains_le inside]
    constructor
    · rintro ⟨⟨chain, ⟨low, high⟩, rfl⟩, inRange⟩
      have below := threadChain_lt geometry.chains inside high
      rw [Nat.mul_comm step, Nat.mul_add_div geometry.positive, Nat.div_eq_of_lt below, Nat.mul_add_mod,
        Nat.mod_eq_of_lt below]
      refine ⟨Nat.add_zero step, ?_, by rwa [Nat.mul_comm step] at inRange⟩
      rw [Nat.div_eq_iff positive]
      have block := Nat.add_one_mul threadIndex launch.pointsPerThread
      omega
    · rintro ⟨rfl, rfl, inRange⟩
      refine ⟨⟨index % launch.chainCount, ⟨Nat.div_mul_le_self _ _, ?_⟩, ?_⟩, inRange⟩
      · rw [Nat.mul_comm]
        exact Nat.lt_mul_div_succ _ positive
      · exact Nat.div_add_mod' index launch.chainCount
  apply perm_range
  · apply nodup_flatMap_of_key (fun index => index % launch.chainCount / launch.pointsPerThread) List.nodup_range
    · intro threadIndex member
      rw [List.mem_range] at member
      apply nodup_flatMap_of_key (fun index => index / launch.chainCount) List.nodup_range
      · intro step _
        rw [stepIndices, threadChains_eq geometry.chains geometry.chains_le member]
        apply List.Nodup.filter
        apply List.Nodup.map (fun _ _ same => Nat.add_left_cancel same)
        exact List.Nodup.map (fun _ _ same => Nat.add_left_cancel same) List.nodup_range
      · intro step _ index inside
        exact ((belongs member).mp inside).1
    · intro threadIndex member index inside
      rw [List.mem_range] at member
      obtain ⟨step, -, here⟩ := List.mem_flatMap.mp inside
      exact ((belongs member).mp here).2.1
  · intro index
    rw [List.mem_flatMap]
    constructor
    · rintro ⟨threadIndex, member, inside⟩
      rw [List.mem_range] at member
      obtain ⟨step, -, here⟩ := List.mem_flatMap.mp inside
      exact ((belongs member).mp here).2.2
    · intro inRange
      have round : index / launch.chainCount < launch.steps := by
        rw [Nat.div_lt_iff_lt_mul geometry.positive]
        exact inRange.trans_le geometry.steps_le.1
      have thread : index % launch.chainCount / launch.pointsPerThread < threads := by
        rw [Nat.div_lt_iff_lt_mul positive, ← geometry.chains]
        exact Nat.mod_lt _ geometry.positive
      exact ⟨_, List.mem_range.mpr thread, List.mem_flatMap.mpr
        ⟨_, List.mem_range.mpr round, (belongs thread).mpr ⟨rfl, rfl, inRange⟩⟩⟩

/-- An initialisation and a launch that are exact: every index of the range is
evaluated once, with its candidate; the winner is the least match, the one of the
reference kernel; and every chain is left on its point after the last step. -/
structure LaunchExact (launch : ChainedLaunch) (threads : Nat) (start : CudaSecp.AffinePoint) (P : CurvePoint)
    (pattern : DevicePattern) (grid : Nat) (points : List Point) : Prop where
  indices : ((chainedSearchKernel launch threads points).1.map (·.index)).Perm (List.range launch.rangeCount)
  candidates : ∀ evaluation ∈ (chainedSearchKernel launch threads points).1,
    Represents evaluation.candidate (P + evaluation.index • generator)
  winner : chainedWinner launch pattern threads points noWinner =
    CudaSecp.functionalSearchKernel start pattern launch.rangeCount grid noWinner
  least : IsLeast (CudaSecp.winners start pattern launch.rangeCount ∪ {noWinner})
    (chainedWinner launch pattern threads points noWinner)
  points : ∀ chain < launch.chainCount, Represents
    ((chainedSearchKernel launch threads points).2.getD chain default)
    (P + (launch.steps * launch.chainCount + chain) • generator)

theorem Geometry.stride_finite (geometry : Geometry launch threads) : launch.chainCount • generator ≠ 0 := by
  apply nsmul_generator_ne_zero geometry.positive
  apply geometry.chains_le.trans_lt
  rw [groupOrder]
  norm_num

/-- A launch on points that are on their chains' starts is exact. -/
theorem chainedSearchKernel_exact (geometry : Geometry launch threads) {start : CudaSecp.AffinePoint}
    {P : CurvePoint} (stands : Represents start P)
    (stride : Represents launch.stridePoint (launch.chainCount • generator)) {pattern : DevicePattern}
    (built : BuiltPattern pattern) {grid : Nat} (wide : launch.rangeCount ≤ grid) {points : List Point}
    (allocated : points.length = launch.chainCount)
    (started : ∀ chain < launch.chainCount, Represents (points.getD chain default) (P + chain • generator)) :
    LaunchExact launch threads start P pattern grid points := by
  have done := chainedSearchKernel_state geometry stride geometry.stride_finite allocated started le_rfl
  have indices : ((chainedSearchKernel launch threads points).1.map (·.index)).Perm
      (List.range launch.rangeCount) := by
    rw [chainedSearchKernel, done.indices]
    exact launch_covers geometry
  have unsigned : launch.rangeCount ≤ 2 ^ 64 := (Nat.le_add_right _ _).trans geometry.unsigned
  have winner : chainedWinner launch pattern threads points noWinner =
      CudaSecp.functionalSearchKernel start pattern launch.rangeCount grid noWinner :=
    winner_eq_functional pointToPublicKey_eq built stands wide unsigned indices done.exact
  refine ⟨indices, done.exact, winner, ?_, ?_⟩
  · rw [winner]
    exact CudaSecp.functionalSearchKernel_isLeast start pattern wide
  · intro chain below
    have left := done.points chain below
    rwa [← geometry.chains, if_pos below] at left

/-- The initialisation and a launch, from any start on the curve. -/
theorem chained_search_exact (geometry : Geometry launch threads) {start : CudaSecp.AffinePoint} {P : CurvePoint}
    (stands : Represents start P) (stride : Represents launch.stridePoint (launch.chainCount • generator))
    {pattern : DevicePattern} (built : BuiltPattern pattern) {grid : Nat} (wide : launch.rangeCount ≤ grid)
    {cells : List Point} (allocated : cells.length = launch.chainCount) :
    LaunchExact launch threads start P pattern grid
      (chainedInitializeKernel launch.pointsPerThread start launch.chainCount threads cells) := by
  obtain ⟨length, started⟩ := chainedInitialize_represents geometry.chains geometry.chains_le stands allocated
  exact chainedSearchKernel_exact geometry stands stride built wide length started

/-- Twenty candidates from infinity on one thread of eight chains. -/
theorem chained_search_exact_infinity : ∃ pattern, BuiltPattern pattern ∧
    LaunchExact ⟨8, fromLegacyPoint (CudaSecp.scalarMultiplyU64 8), 20, 8, 3⟩ 1 .atInfinity 0 pattern 20
      (chainedInitializeKernel 8 .atInfinity 8 1 (List.replicate 8 default)) := by
  obtain ⟨pattern, built⟩ := builtPattern_two
  have geometry : Geometry ⟨8, fromLegacyPoint (CudaSecp.scalarMultiplyU64 8), 20, 8, 3⟩ 1 :=
    ⟨rfl, by decide, rfl, by decide⟩
  have stride := fromLegacyPoint_represents (CudaSecp.scalarMultiplyU64_represents 8)
  exact ⟨pattern, built, chained_search_exact geometry represents_atInfinity stride built le_rfl List.length_replicate⟩

end

end TronForge.Native.CudaChain
