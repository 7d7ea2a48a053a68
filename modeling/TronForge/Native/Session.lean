import TronForge.Native.Kernels
import TronForge.Native.SearchCpu

/-! The search sessions of a device: their launch configuration, the state that they
keep between requests, and a search with the calls that may fail in it. -/

namespace TronForge.Native

/-- `CudaSearchMode`. -/
inductive SearchMode where
  | reference
  | incremental
  | batched
  | chained8
  | chained16
  deriving DecidableEq, Repr

def SearchMode.isChained : SearchMode → Bool
  | .chained8 | .chained16 => true
  | _ => false

/-- A device: the multiprocessors it has, and the blocks of so many threads that one of
them holds. The numbers of blocks and of threads are an `int`. -/
structure Device where
  multiprocessors : Nat
  activeBlocks : Nat → Nat
  positive : 0 < multiprocessors
  blocksFit : multiprocessors * 4 < 2 ^ 31
  threadsFit : ∀ threads, multiprocessors * (activeBlocks threads * threads) < 2 ^ 31

/-- What `tune_launch_configuration` sets. -/
structure Configuration where
  mode : SearchMode
  threads : Nat
  residentBlocks : Nat
  points : Nat := 0
  chains : Nat := 0
  deriving DecidableEq, Repr

/-- The best candidate so far: its threads, its active blocks, and its resident threads
once there is one. -/
def tuneCandidate (device : Device) (best : Nat × Nat × Option Nat) (candidateThreads : Nat) : Nat × Nat × Option Nat :=
  let activeBlocks := device.activeBlocks candidateThreads
  let residentThreads := activeBlocks * candidateThreads
  if activeBlocks > 0 ∧ best.2.2.all (residentThreads > ·) then
    (candidateThreads, activeBlocks, some residentThreads)
  else best

/-- `tune_launch_configuration`. -/
def tuneLaunchConfiguration (mode : SearchMode) (device : Device) : Except HostError Configuration :=
  let chained (points : Nat) : Configuration :=
    let residentBlocks := device.multiprocessors * 4
    ⟨mode, 64, residentBlocks, points, residentBlocks * 64 * points⟩
  match mode with
  | .chained8 => return chained 8
  | .chained16 => return chained 16
  | .reference => return { mode := mode, threads := 128, residentBlocks := 0 }
  | .incremental | .batched =>
    let (threads, activeBlocks, _) := [128, 256, 64].foldl (tuneCandidate device) (0, 0, none)
    if threads = 0 ∨ activeBlocks = 0 then throw .noActiveBlocks
    else return { mode := mode, threads := threads, residentBlocks := device.multiprocessors * activeBlocks }

/-- The state of a session. -/
structure Session where
  configuration : Configuration
  batchTable : List CudaSecp.AffinePoint
  chainStridePoint : CudaChain.Point
  chainPoints : List CudaChain.Point
  chainStateValid : Bool := false
  chainPublicKey : Text := []
  chainNextStart : Text := []
  cachedStride : Option (Nat × CudaSecp.AffinePoint) := none

/-- The constructor; the chain points are what the memory of the device held. -/
def Session.create (mode : SearchMode) (device : Device) (memory : Nat → CudaChain.Point) :
    Except HostError Session := do
  let configuration ← tuneLaunchConfiguration mode device
  let batchTable := if mode = .batched then
    (List.range CudaSecp.batchRadius).map fun index => CudaSecp.scalarMultiplyU64 (UInt64.ofNat (index + 1))
  else []
  let chainStridePoint ← if mode.isChained then hostChainPointFromPublicKey configuration.chains else pure default
  return {
    configuration := configuration
    batchTable := batchTable
    chainStridePoint := chainStridePoint
    chainPoints := (List.range configuration.chains).map memory }

/-- The calls of a search that may fail, in their order. -/
inductive CudaCall where
  | setDevice
  | memset
  | recordStarted
  | initializeLaunch
  | searchLaunch
  | recordCompleted
  | copyWinner
  | synchronize
  | elapsedTime
  deriving DecidableEq, Repr

def SearchMode.kernel : SearchMode → String
  | .reference => "functional_search_kernel"
  | .incremental => "incremental_search_kernel"
  | .batched => "batched_search_kernel"
  | .chained8 | .chained16 => "chained_search_kernel"

def CudaCall.operation (mode : SearchMode) : CudaCall → String
  | .setDevice => "cudaSetDevice(search)"
  | .memset => "cudaMemsetAsync(search winner)"
  | .recordStarted => "cudaEventRecord(search started)"
  | .initializeLaunch => "chained_initialize_kernel launch"
  | .searchLaunch => mode.kernel ++ " launch"
  | .recordCompleted => "cudaEventRecord(search completed)"
  | .copyWinner => "cudaMemcpyAsync(search result)"
  | .synchronize => "cudaStreamSynchronize(search)"
  | .elapsedTime => "cudaEventElapsedTime(search)"

/-- A failure: the call that reports it, the text of its status, and what the memory of
the chain points holds afterwards, for launches may be under way. -/
structure Fault where
  call : CudaCall
  status : String
  memory : Nat → CudaChain.Point

/-- The failure is reported by this call. -/
def failsAt (fault : Option Fault) (call : CudaCall) : Option Fault := fault.filter (·.call == call)

/-- What `check_cuda` throws. -/
def Session.cudaError (session : Session) (fault : Fault) : HostError :=
  .cuda (fault.call.operation session.configuration.mode ++ ": " ++ fault.status)

/-- The memory of the chain points after a failure. -/
def Session.damaged (session : Session) (fault : Fault) : Session :=
  { session with chainPoints := (List.range session.configuration.chains).map fault.memory }

/-- What the host checks of a request and makes of it first: the start point and the pattern. -/
def validateRequest (request : SearchRequest) : Except HostError (CudaSecp.AffinePoint × DevicePattern) :=
  match validatePattern request.pattern request.afterT request.suffix with
  | .error error => throw (.pattern error)
  | .ok () =>
    if request.rangeCount = 0 then throw .noCandidates
    else if 2 ^ 26 < request.rangeCount then throw .tooMany
    else do
      if request.rangeCount > 1 then
        let _ ← addToOffset request.rangeStart (request.rangeCount - 1)
      let startPublicKey ← deriveOffsetPublicKey request.publicKeyHex request.rangeStart
      let startBytes ← hostPublicKeyBytes startPublicKey
      match populatePrefixIntervals ⟨request.afterT, request.suffix, []⟩ request.afterT with
      | .error error => throw (.bound error)
      | .ok pattern => return (hostPoint startBytes, pattern)

/-- `stride_point`. -/
def Session.stridePoint (session : Session) (gridStride : Nat) :
    Except HostError (Session × CudaSecp.AffinePoint) :=
  match session.cachedStride.filter (·.1 == gridStride) with
  | some (_, point) => return (session, point)
  | none => do
    let compressed ← compressedPublicKey (scalarHex gridStride)
    let uncompressed ← uncompressedPublicKey compressed
    let stridePublicKey ← hostPublicKeyBytes uncompressed
    let point := hostPoint stridePublicKey
    return ({ session with cachedStride := some (gridStride, point) }, point)

/-- The blocks of a launch. -/
def Configuration.blocks (configuration : Configuration) (rangeCount : Nat) : Nat :=
  match configuration.mode with
  | .chained8 | .chained16 => configuration.residentBlocks
  | .reference => (rangeCount + configuration.threads - 1) / configuration.threads
  | .incremental => min ((rangeCount + configuration.threads - 1) / configuration.threads) configuration.residentBlocks
  | .batched =>
    let batchCount := (rangeCount + CudaSecp.batchSpan - 1) / CudaSecp.batchSpan
    min ((batchCount + configuration.threads - 1) / configuration.threads) configuration.residentBlocks

/-- The stride of a grid, in candidates; the other modes take none. -/
def Configuration.gridStride (configuration : Configuration) (rangeCount : Nat) : Option Nat :=
  match configuration.mode with
  | .incremental => some (configuration.blocks rangeCount * configuration.threads)
  | .batched => some (configuration.blocks rangeCount * configuration.threads * CudaSecp.batchSpan)
  | _ => none

/-- What the launches of a request are given. -/
structure Prepared where
  startPoint : CudaSecp.AffinePoint
  pattern : DevicePattern
  normalizedStart : Text
  initializeChains : Bool
  gridStridePoint : CudaSecp.AffinePoint

/-- The points must be made anew. -/
def Session.initializes (session : Session) (request : SearchRequest) (normalizedStart : Text) : Bool :=
  session.configuration.mode.isChained &&
    (!session.chainStateValid || session.chainPublicKey != request.publicKeyHex ||
      session.chainNextStart != normalizedStart)

/-- The first part of a search, up to the preparation of the first launch. -/
def Session.prepare (session : Session) (request : SearchRequest) (fault : Option Fault) :
    Session × Except HostError Prepared :=
  match validateRequest request with
  | .error error => (session, .error error)
  | .ok (startPoint, pattern) =>
    match failsAt fault .setDevice with
    | some failure => (session, .error (session.cudaError failure))
    | none =>
      match addToOffset request.rangeStart 0 with
      | .error error => (session, .error error)
      | .ok normalizedStart =>
        let initializeChains := session.initializes request normalizedStart
        let session := if session.configuration.mode.isChained then { session with chainStateValid := false }
          else session
        match session.configuration.gridStride request.rangeCount with
        | none => (session, .ok ⟨startPoint, pattern, normalizedStart, initializeChains, default⟩)
        | some gridStride =>
          match session.stridePoint gridStride with
          | .error error => (session, .error error)
          | .ok (session, gridStridePoint) =>
            (session, .ok ⟨startPoint, pattern, normalizedStart, initializeChains, gridStridePoint⟩)

/-- The arguments of the chained launches. -/
def Session.chainedLaunch (session : Session) (rangeCount : Nat) : CudaChain.ChainedLaunch :=
  ⟨session.configuration.points, session.chainStridePoint, rangeCount, session.configuration.chains,
    (rangeCount + session.configuration.chains - 1) / session.configuration.chains⟩

/-- The threads of a grid. -/
def Configuration.grid (configuration : Configuration) (rangeCount : Nat) : Nat :=
  configuration.blocks rangeCount * configuration.threads

/-- The points after `chained_initialize_kernel`, where it is launched. -/
def Session.initialized (session : Session) (request : SearchRequest) (prepared : Prepared) : List CudaChain.Point :=
  if prepared.initializeChains then
    CudaChain.chainedInitializeKernel session.configuration.points prepared.startPoint session.configuration.chains
      (session.configuration.grid request.rangeCount) session.chainPoints
  else session.chainPoints

/-- The search kernel of the mode: the winning index, and the points it leaves. -/
def Session.searchKernel (session : Session) (request : SearchRequest) (prepared : Prepared) :
    Nat × List CudaChain.Point :=
  let grid := session.configuration.grid request.rangeCount
  match session.configuration.mode with
  | .chained8 | .chained16 =>
    let launch := session.chainedLaunch request.rangeCount
    (CudaChain.chainedWinner launch prepared.pattern grid session.chainPoints noWinner,
      (CudaChain.chainedSearchKernel launch grid session.chainPoints).2)
  | .batched =>
    (CudaSecp.batchedWinner
      ⟨prepared.startPoint, prepared.gridStridePoint, session.batchTable, request.rangeCount, grid⟩
      prepared.pattern noWinner, session.chainPoints)
  | .incremental =>
    (CudaSecp.incrementalSearchKernel prepared.startPoint prepared.gridStridePoint prepared.pattern
      request.rangeCount grid noWinner, session.chainPoints)
  | .reference =>
    (CudaSecp.functionalSearchKernel prepared.startPoint prepared.pattern request.rangeCount grid noWinner,
      session.chainPoints)

/-- A launch on a range that the chains divide leaves the points of the range after it. -/
def Session.keepChains (session : Session) (request : SearchRequest) (normalizedStart : Text) :
    Session × Except HostError Unit :=
  if session.configuration.mode.isChained ∧ request.rangeCount % session.configuration.chains = 0 then
    let session := { session with chainPublicKey := request.publicKeyHex }
    match addToOffset normalizedStart request.rangeCount with
    | .error error => (session, .error error)
    | .ok nextStart => ({ session with chainNextStart := nextStart, chainStateValid := true }, .ok ())
  else (session, .ok ())

/-- The result of a winning index, which the processor verifies. -/
def searchResult (request : SearchRequest) (winningIndex : Nat) : Except HostError SearchResult :=
  if winningIndex = noWinner then return ⟨false, [], [], request.rangeCount⟩
  else do
    let winningOffset ← addToOffset request.rangeStart winningIndex
    let verified ← searchCpu { request with rangeStart := winningOffset, rangeCount := 1 }
    if !verified.found || verified.offsetHex != winningOffset then throw .rejected
    return ⟨true, verified.address, winningOffset, request.rangeCount⟩

/-- A search, with the points on which it launched `chained_search_kernel`. -/
structure SearchRun where
  session : Session
  launched : Option (List CudaChain.Point)
  result : Except HostError SearchResult

/-- The calls before the search kernel is launched. -/
def earlyCalls (prepared : Prepared) : List CudaCall :=
  [.memset, .recordStarted] ++ if prepared.initializeChains then [.initializeLaunch] else []

/-- The calls that end the launch. -/
def lateCalls : List CudaCall := [.searchLaunch, .recordCompleted, .copyWinner, .synchronize]

/-- The part of a search after its kernel is launched. -/
def Session.complete (session : Session) (request : SearchRequest) (prepared : Prepared) (fault : Option Fault) :
    SearchRun :=
  let launched := if session.configuration.mode.isChained then some session.chainPoints else none
  match lateCalls.findSome? (failsAt fault) with
  | some failure => ⟨session.damaged failure, launched, .error (session.cudaError failure)⟩
  | none =>
    let (winningIndex, points) := session.searchKernel request prepared
    match { session with chainPoints := points }.keepChains request prepared.normalizedStart with
    | (session, .error error) => ⟨session, launched, .error error⟩
    | (session, .ok ()) =>
      match failsAt fault .elapsedTime with
      | some failure => ⟨session, launched, .error (session.cudaError failure)⟩
      | none => ⟨session, launched, searchResult request winningIndex⟩

/-- `CudaSearchSession::Impl::search`. -/
def Session.search (session : Session) (request : SearchRequest) (fault : Option Fault) : SearchRun :=
  match session.prepare request fault with
  | (session, .error error) => ⟨session, none, .error error⟩
  | (session, .ok prepared) =>
    match (earlyCalls prepared).findSome? (failsAt fault) with
    | some failure => ⟨session.damaged failure, none, .error (session.cudaError failure)⟩
    | none => { session with chainPoints := session.initialized request prepared }.complete request prepared fault

/-- A session serves its requests one after the other. -/
def Session.serve (session : Session) (requests : List (SearchRequest × Option Fault)) : Session :=
  requests.foldl (fun session served => (session.search served.1 served.2).session) session

end TronForge.Native
