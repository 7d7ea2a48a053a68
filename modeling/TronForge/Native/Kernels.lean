import TronForge.Native.ChainField
import TronForge.Native.DeviceHash
import TronForge.Native.LegacyField
import TronForge.Native.Prefilter

/-! The search kernels. A thread is the list of its evaluations, in its order, and
what it leaves in the points; 64-bit indices are numbers taken modulo `2^64`. -/

namespace TronForge.Native

/-- Unsigned 64-bit arithmetic. -/
def wrap (number : Nat) : Nat := number % 2 ^ 64

/-- What the winning index holds before a launch. -/
def noWinner : Nat := 2 ^ 64 - 1

/-- A candidate point and its relative index. -/
structure Evaluation (F : Type) where
  candidate : AffinePoint F
  index : Nat
  deriving DecidableEq, Repr

section
variable {F : Type} (pointToPublicKey : AffinePoint F → List UInt8) (pattern : DevicePattern)

/-- The address of a candidate matches; there is none at infinity. -/
def addressMatches (candidate : AffinePoint F) : Bool :=
  !candidate.infinity &&
    devicePatternMatches (deviceTronAddressFromPublicKey (pointToPublicKey candidate)) pattern

/-- The body of the two `evaluate_…_candidate` functions: the prefilter looks at
the payload before the address is made. -/
def evaluateCandidate (winner : Nat) (evaluation : Evaluation F) : Nat :=
  if evaluation.candidate.infinity then winner
  else
    let payload := deviceTronPayloadFromPublicKey (pointToPublicKey evaluation.candidate)
    if devicePayloadMayMatchPrefix payload pattern then
      if devicePatternMatches (deviceTronAddressFromPayload payload) pattern then
        min winner evaluation.index
      else winner
    else winner

end

namespace CudaSecp

def evaluateSearchCandidate : DevicePattern → Nat → Evaluation Field → Nat :=
  evaluateCandidate pointToPublicKey

/-- The evaluation of the reference kernel, which has no prefilter. -/
def evaluateReferenceCandidate (pattern : DevicePattern) (winner : Nat) (evaluation : Evaluation Field) : Nat :=
  if evaluation.candidate.infinity then winner
  else if devicePatternMatches (deviceTronAddressFromPublicKey (pointToPublicKey evaluation.candidate)) pattern then
    min winner evaluation.index
  else winner

/-- One thread of `functional_search_kernel`. -/
def functionalSearchThread (rangeStartPoint : AffinePoint) (rangeCount index : Nat) : List (Evaluation Field) :=
  if index ≥ rangeCount then []
  else
    let relative := scalarMultiplyU64 (UInt64.ofNat index)
    [⟨pointAdd rangeStartPoint relative, index⟩]

/-- `functional_search_kernel` over a grid of so many threads. -/
def functionalSearchKernel (rangeStartPoint : AffinePoint) (pattern : DevicePattern) (rangeCount threads : Nat)
    (winningIndex : Nat) : Nat :=
  ((List.range threads).flatMap (functionalSearchThread rangeStartPoint rangeCount)).foldl
    (evaluateReferenceCandidate pattern) winningIndex

/-- The candidates of a thread of the incremental kernel, for at most so many of them. -/
def incrementalLoop (gridStridePoint : AffinePoint) (rangeCount gridStride : Nat) :
    Nat → Nat → AffinePoint → List (Evaluation Field)
  | 0, _, _ => []
  | fuel + 1, index, candidate =>
    if index < rangeCount then
      let next := wrap (index + gridStride)
      ⟨candidate, index⟩ :: incrementalLoop gridStridePoint rangeCount gridStride fuel next
        (if next < rangeCount then pointAdd candidate gridStridePoint else candidate)
    else []

/-- One thread of `incremental_search_kernel`. -/
def incrementalSearchThread (rangeStartPoint gridStridePoint : AffinePoint) (rangeCount gridStride threadIndex : Nat) :
    List (Evaluation Field) :=
  if threadIndex ≥ rangeCount then []
  else
    let relative := scalarMultiplyU64 (UInt64.ofNat threadIndex)
    incrementalLoop gridStridePoint rangeCount gridStride rangeCount threadIndex (pointAdd rangeStartPoint relative)

/-- `incremental_search_kernel` over a grid of so many threads, which is its stride. -/
def incrementalSearchKernel (rangeStartPoint gridStridePoint : AffinePoint) (pattern : DevicePattern)
    (rangeCount threads winningIndex : Nat) : Nat :=
  ((List.range threads).flatMap
    (incrementalSearchThread rangeStartPoint gridStridePoint rangeCount threads)).foldl
    (evaluateReferenceCandidate pattern) winningIndex

/-- `batch_radius` and `batch_span`. -/
def batchRadius : Nat := 4

def batchSpan : Nat := batchRadius * 2 + 1

/-- The arguments of a launch of `batched_search_kernel` and its number of lanes. -/
structure BatchedLaunch where
  rangeStartPoint : AffinePoint
  laneStridePoint : AffinePoint
  batchTable : List AffinePoint
  rangeCount : Nat
  laneCount : Nat

section
variable (launch : BatchedLaunch)

/-- An evaluation whose index is in the range. -/
def BatchedLaunch.inRange (candidate : AffinePoint) (index : Nat) : List (Evaluation Field) :=
  if index < launch.rangeCount then [⟨candidate, index⟩] else []

/-- The two loops of a batch over the table: up with the running product of the
denominators, and back down with the inverse of it. A zero denominator counts as one,
and its two points are added by the complete routine. -/
def batchLoop (center : AffinePoint) (centerIndex : Nat) (previous : Field) (index : Nat) :
    List AffinePoint → Field × List (Evaluation Field)
  | [] => (fieldInverse previous, [])
  | point :: rest =>
    let denominator := fieldSubtract point.x center.x
    let factor := if fieldIsZero denominator then fieldFromSmall 1 else denominator
    let negativeIndex := wrap (centerIndex + 2 ^ 64 - (index + 1))
    let positiveIndex := wrap (centerIndex + (index + 1))
    match batchLoop center centerIndex (fieldMultiply previous factor) (index + 1) rest with
    | (inverseProduct, evaluations) =>
      if fieldIsZero denominator then
        (inverseProduct, evaluations ++
          launch.inRange (pointAdd center point.opposite) negativeIndex ++
          launch.inRange (pointAdd center point) positiveIndex)
      else
        let denominatorInverse := fieldMultiply inverseProduct previous
        (fieldMultiply inverseProduct denominator, evaluations ++
          launch.inRange (pointAddWithInverse center point.opposite denominatorInverse) negativeIndex ++
          launch.inRange (pointAddWithInverse center point denominatorInverse) positiveIndex)

/-- The evaluations of a batch, its centre first. -/
def batchEvaluations (center : AffinePoint) (centerIndex : Nat) : List (Evaluation Field) :=
  launch.inRange center centerIndex ++
    (batchLoop launch center centerIndex (fieldFromSmall 1) 0 launch.batchTable).2

def BatchedLaunch.batchCount : Nat := wrap (launch.rangeCount + batchSpan - 1) / batchSpan

/-- The batches of a lane, for at most so many of them. -/
def laneLoop : Nat → Nat → Nat → AffinePoint → List (Evaluation Field)
  | 0, _, _, _ => []
  | fuel + 1, batchIndex, centerIndex, center =>
    if batchIndex < launch.batchCount then
      let nextBatch := wrap (batchIndex + launch.laneCount)
      let nextCenter := wrap (centerIndex + launch.laneCount * batchSpan)
      batchEvaluations launch center centerIndex ++ laneLoop fuel nextBatch nextCenter
        (if nextBatch < launch.batchCount then pointAdd center launch.laneStridePoint else center)
    else []

/-- One lane of `batched_search_kernel`. -/
def batchedSearchLane (lane : Nat) : List (Evaluation Field) :=
  if lane ≥ launch.batchCount then []
  else
    let centerIndex := wrap (lane * batchSpan + batchRadius)
    let relative := scalarMultiplyU64 (UInt64.ofNat centerIndex)
    laneLoop launch launch.batchCount lane centerIndex (pointAdd launch.rangeStartPoint relative)

/-- `batched_search_kernel`: its evaluations, lane by lane. -/
def batchedSearchKernel : List (Evaluation Field) := (List.range launch.laneCount).flatMap (batchedSearchLane launch)

/-- The winning index after the launch. -/
def batchedWinner (pattern : DevicePattern) (winningIndex : Nat) : Nat :=
  (batchedSearchKernel launch).foldl (evaluateSearchCandidate pattern) winningIndex

end

end CudaSecp

namespace CudaChain

def evaluateChainCandidate : DevicePattern → Nat → Evaluation Field → Nat :=
  evaluateCandidate pointToPublicKey

def fromLegacyField (value : CudaSecp.Field) : Field :=
  ⟨(List.range 4).map fun index =>
    (value.limbs.getD (index * 2) 0).toUInt64 ||| (value.limbs.getD (index * 2 + 1) 0).toUInt64 <<< 32, by simp⟩

def fromLegacyPoint (value : CudaSecp.AffinePoint) : Point :=
  ⟨fromLegacyField value.x, fromLegacyField value.y, value.infinity⟩

/-- The chains of a thread. -/
def threadChains (pointsPerThread threadIndex : Nat) : List Nat :=
  (List.range pointsPerThread).map fun pointIndex => wrap (wrap (threadIndex * pointsPerThread) + pointIndex)

/-- One thread of `chained_initialize_kernel`. -/
def chainedInitializeThread (pointsPerThread : Nat) (rangeStartPoint : CudaSecp.AffinePoint) (chainCount : Nat)
    (points : List Point) (threadIndex : Nat) : List Point :=
  ((threadChains pointsPerThread threadIndex).filter (· < chainCount)).foldl
    (fun points chain =>
      let relative := CudaSecp.scalarMultiplyU64 (UInt64.ofNat chain)
      points.set chain (fromLegacyPoint (CudaSecp.pointAdd rangeStartPoint relative)))
    points

def chainedInitializeKernel (pointsPerThread : Nat) (rangeStartPoint : CudaSecp.AffinePoint) (chainCount threads : Nat)
    (points : List Point) : List Point :=
  (List.range threads).foldl (chainedInitializeThread pointsPerThread rangeStartPoint chainCount) points

/-- The differences of a point to the stride, none for a point at infinity. -/
def strideDeltas (stridePoint point : Point) : Field × Field :=
  if point.infinity then (.zero, .zero)
  else (fieldSubtract stridePoint.x point.x, fieldSubtract stridePoint.y point.y)

/-- The next point of a chain, given the inverse of its difference in `x`. -/
def advance (stridePoint point : Point) (inverseX deltaY : Field) : Point :=
  if point.infinity then stridePoint
  else if fieldIsZero inverseX then pointAdd point stridePoint
  else
    let slope := fieldMultiply deltaY inverseX
    let outputX := fieldSubtract (fieldSubtract (fieldSquare slope) point.x) stridePoint.x
    let outputY := fieldSubtract (fieldMultiply slope (fieldSubtract point.x outputX)) point.y
    ⟨outputX, outputY, false⟩

/-- One turn of the step loop: all points of the thread by one batch of inverses. -/
def advanceAll (stridePoint : Point) (points : List Point) : List Point :=
  let deltas := points.map (strideDeltas stridePoint)
  let inverses := fieldInverseBatch (deltas.map Prod.fst)
  (points.zip (inverses.zip (deltas.map Prod.snd))).map fun entry =>
    advance stridePoint entry.1 entry.2.1 entry.2.2

/-- What the arguments of a launch of `chained_search_kernel` say. -/
structure ChainedLaunch where
  pointsPerThread : Nat
  stridePoint : Point
  rangeCount : Nat
  chainCount : Nat
  steps : Nat

section
variable (launch : ChainedLaunch)

/-- The evaluations of a step: the points of the thread that are in the range. -/
def stepEvaluations (threadIndex step : Nat) (points : List Point) : List (Evaluation Field) :=
  ((threadChains launch.pointsPerThread threadIndex).zip points).filterMap fun entry =>
    let relativeIndex := wrap (wrap (step * launch.chainCount) + entry.1)
    if relativeIndex < launch.rangeCount then some ⟨entry.2, relativeIndex⟩ else none

/-- The step loop of a thread: its evaluations and its last points. -/
def threadSteps (threadIndex : Nat) (points : List Point) (steps : Nat) : List (Evaluation Field) × List Point :=
  (List.range steps).foldl
    (fun state step =>
      (state.1 ++ stepEvaluations launch threadIndex step state.2, advanceAll launch.stridePoint state.2))
    ([], points)

/-- One thread of `chained_search_kernel`. -/
def chainedSearchThread (state : List (Evaluation Field) × List Point) (threadIndex : Nat) :
    List (Evaluation Field) × List Point :=
  let firstChain := wrap (threadIndex * launch.pointsPerThread)
  if firstChain ≥ launch.chainCount then state
  else
    let chains := threadChains launch.pointsPerThread threadIndex
    let points := chains.map fun chain => state.2.getD chain default
    match threadSteps launch threadIndex points launch.steps with
    | (evaluations, points) =>
      (state.1 ++ evaluations,
        chains.foldl (fun global chain => global.set chain (points.getD (chain - firstChain) default)) state.2)

/-- `chained_search_kernel`: its evaluations and the points it leaves. -/
def chainedSearchKernel (threads : Nat) (globalPoints : List Point) : List (Evaluation Field) × List Point :=
  (List.range threads).foldl (chainedSearchThread launch) ([], globalPoints)

/-- The winning index after the launch. -/
def chainedWinner (pattern : DevicePattern) (threads : Nat) (globalPoints : List Point) (winningIndex : Nat) : Nat :=
  (chainedSearchKernel launch threads globalPoints).1.foldl (evaluateChainCandidate pattern) winningIndex

end

end CudaChain

end TronForge.Native
