import TronForge.Native.ChainedSearch
import TronForge.Native.Verification

/-! Chain points that are kept between requests. They are valid only for the key and
the start that the session remembers, so every launch finds the points of its request,
and no result depends on what was kept. -/

namespace TronForge.Native

/-- Every chain is on its candidate of a range from this offset. -/
def OnStarts (points : List CudaChain.Point) (chains : Nat) (P : CurvePoint) (start : Nat) : Prop :=
  ∀ chain < chains, Represents (points.getD chain default) (P + (start + chain) • generator)

/-- What holds between two requests of a chained session. -/
structure Ready (mode : SearchMode) (session : Session) : Prop where
  tuned : Tuned mode session.configuration
  stride : Represents session.chainStridePoint (session.configuration.chains • generator)
  cells : session.chainPoints.length = session.configuration.chains
  reusable : session.chainStateValid = true → ∃ P, ∃ start < groupOrder,
    publicPoint session.chainPublicKey = .ok P ∧ session.chainNextStart = scalarHex start ∧
      OnStarts session.chainPoints session.configuration.chains P start

/-- What a request comes to on its own, whatever the session kept. -/
def chainedOutcome (configuration : Configuration) (request : SearchRequest) : Except HostError SearchResult := do
  let (startPoint, pattern) ← validateRequest request
  let normalizedStart ← addToOffset request.rangeStart 0
  if request.rangeCount % configuration.chains = 0 then
    let _ ← addToOffset normalizedStart request.rangeCount
  searchResult request
    (CudaSecp.functionalSearchKernel startPoint pattern request.rangeCount request.rangeCount noWinner)

section
variable {mode : SearchMode} {session : Session} {request : SearchRequest} {fault : Option Fault}

theorem Fresh.ready (fresh : Fresh mode session) (chained : mode.isChained = true) : Ready mode session where
  tuned := fresh.tuned
  stride := fresh.stride chained
  cells := fresh.cells
  reusable := by
    intro valid
    rw [fresh.invalid] at valid
    cases valid

/-- Points that nobody trusts may hold anything. -/
theorem Ready.invalidated (ready : Ready mode session) {points : List CudaChain.Point}
    (cells : points.length = session.configuration.chains) (publicKey nextStart : Text) :
    Ready mode { session with
      chainPoints := points
      chainStateValid := false
      chainPublicKey := publicKey
      chainNextStart := nextStart } where
  tuned := ready.tuned
  stride := ready.stride
  cells := cells
  reusable := fun valid => by cases valid

/-- Points on the candidates of a range may be kept for it. -/
theorem Ready.kept (ready : Ready mode session) {points : List CudaChain.Point}
    (cells : points.length = session.configuration.chains) {P : CurvePoint} {next : Nat} (below : next < groupOrder)
    {publicKey : Text} (key : publicPoint publicKey = .ok P)
    (onStarts : OnStarts points session.configuration.chains P next) :
    Ready mode { session with
      chainPoints := points
      chainStateValid := true
      chainPublicKey := publicKey
      chainNextStart := scalarHex next } where
  tuned := ready.tuned
  stride := ready.stride
  cells := cells
  reusable := by
    intro _
    refine ⟨P, next, below, key, ?_, onStarts⟩
    dsimp only

/-- What the preparation of a request has made. -/
structure PreparedFor (request : SearchRequest) (P : CurvePoint) (start : Nat) (prepared : Prepared) : Prop where
  launchable : Launchable request P start
  startPoint : prepared.startPoint = hostPoint (pointBytes (P + start • generator))
  built : BuiltFor request prepared.pattern
  validated : validateRequest request = .ok (prepared.startPoint, prepared.pattern)
  normalizedStart : prepared.normalizedStart = scalarHex start

theorem PreparedFor.stands {P : CurvePoint} {start : Nat} {prepared : Prepared}
    (made : PreparedFor request P start prepared) :
    Represents prepared.startPoint (P + start • generator) := by
  rw [made.startPoint]
  exact hostPoint_represents made.launchable.finite

/-- The preparation fails and changes nothing, or it makes the launch and marks the
points as used. -/
theorem Ready.prepare (ready : Ready mode session) (chained : mode.isChained = true) (request : SearchRequest)
    (fault : Option Fault) :
    (∃ error, session.prepare request fault = (session, .error error) ∧
      ((∃ failure, error = session.cudaError failure ∧ fault = some failure) ∨
        chainedOutcome session.configuration request = .error error)) ∨
    ∃ P start prepared, PreparedFor request P start prepared ∧
      prepared.initializeChains = session.initializes request (scalarHex start) ∧
      session.prepare request fault = ({ session with chainStateValid := false }, .ok prepared) := by
  have isChained : session.configuration.mode.isChained = true := by rw [ready.tuned.same, chained]
  have unstrided : session.configuration.gridStride request.rangeCount = none := by
    rw [Configuration.gridStride]
    split
    · rename_i same
      rw [same] at isChained
      cases isChained
    · rename_i same
      rw [same] at isChained
      cases isChained
    · rfl
  cases valid : validateRequest request with
  | error error =>
    left
    exact ⟨error, by simp only [Session.prepare, valid], Or.inr (by simp only [chainedOutcome, valid, bind, Except.bind])⟩
  | ok made =>
    obtain ⟨P, start, launchable⟩ := validateRequest_launchable valid
    obtain ⟨pattern, built, validated⟩ := launchable.validated
    obtain ⟨startPoint, madePattern⟩ := made
    rw [valid, Except.ok.injEq, Prod.mk.injEq] at validated
    obtain ⟨samePoint, rfl⟩ := validated
    cases failed : failsAt fault .setDevice with
    | some failure =>
      left
      obtain ⟨same, -⟩ := Option.filter_eq_some_iff.mp failed
      exact ⟨session.cudaError failure, by simp only [Session.prepare, valid, failed], Or.inl ⟨failure, rfl, same⟩⟩
    | none =>
      right
      refine ⟨P, start, ⟨startPoint, madePattern, scalarHex start, session.initializes request (scalarHex start),
        default⟩, ⟨launchable, samePoint, built, valid, by dsimp only⟩, by dsimp only, ?_⟩
      simp only [Session.prepare, valid, failed, launchable.normalizedStart, isChained, if_true, unstrided]

variable {P : CurvePoint} {start : Nat} {prepared : Prepared}

theorem Ready.grid (ready : Ready mode session) (chained : mode.isChained = true) (rangeCount : Nat) :
    session.configuration.grid rangeCount = session.configuration.residentBlocks * 64 := by
  have same := ready.tuned.same
  obtain ⟨threads, -, -⟩ := ready.tuned.chained chained
  rw [Configuration.grid, Configuration.blocks, same, threads]
  cases mode with
  | chained8 => rfl
  | chained16 => rfl
  | reference => cases chained
  | incremental => cases chained
  | batched => cases chained

theorem Ready.geometry (ready : Ready mode session) (chained : mode.isChained = true) {rangeCount : Nat}
    (limit : rangeCount ≤ 2 ^ 26) :
    CudaChain.Geometry (session.chainedLaunch rangeCount) (session.configuration.grid rangeCount) := by
  obtain ⟨positive, bound⟩ := ready.tuned.chains_bounds chained
  obtain ⟨-, chains, -⟩ := ready.tuned.chained chained
  refine ⟨?_, positive, rfl, ?_⟩
  · rw [ready.grid chained]
    exact chains
  · simp only [Session.chainedLaunch]
    omega

/-- The points that the search kernel is launched on are those of the request, whether
they were made for it or kept. -/
theorem Ready.onStarts (ready : Ready mode session) (chained : mode.isChained = true)
    (made : PreparedFor request P start prepared)
    (decided : prepared.initializeChains = session.initializes request (scalarHex start)) :
    (session.initialized request prepared).length = session.configuration.chains ∧
      OnStarts (session.initialized request prepared) session.configuration.chains P start := by
  have geometry := ready.geometry chained made.launchable.limit
  cases initializes : prepared.initializeChains with
  | true =>
    rw [Session.initialized, if_pos initializes]
    obtain ⟨length, started⟩ := CudaChain.chainedInitialize_represents geometry.chains geometry.chains_le
      made.stands ready.cells
    refine ⟨length, ?_⟩
    intro chain below
    rw [add_nsmul, ← add_assoc]
    exact started chain below
  | false =>
    have kept : session.initialized request prepared = session.chainPoints := by
      rw [Session.initialized, if_neg (by rw [initializes]; exact Bool.false_ne_true)]
    have isChained : session.configuration.mode.isChained = true := by rw [ready.tuned.same, chained]
    rw [decided, Session.initializes, isChained, Bool.true_and, Bool.or_eq_false_iff,
      Bool.or_eq_false_iff, Bool.not_eq_false', bne_eq_false_iff_eq, bne_eq_false_iff_eq] at initializes
    obtain ⟨⟨valid, key⟩, next⟩ := initializes
    obtain ⟨Q, first, below, keptKey, keptStart, onStarts⟩ := ready.reusable valid
    have order := groupOrder_lt
    have sameStart : first = start := by
      apply scalarHex_injective (below.trans order) (made.launchable.first.trans order)
      rw [← keptStart, next]
    have sameKey : Q = P := by
      rw [key, made.launchable.key] at keptKey
      injection keptKey with same
      exact same.symm
    rw [kept, ← sameStart, ← sameKey]
    exact ⟨ready.cells, onStarts⟩

/-- The launch on these points, its winner, and the points it leaves. -/
theorem Ready.launched (ready : Ready mode session) (chained : mode.isChained = true)
    (made : PreparedFor request P start prepared) {points : List CudaChain.Point}
    (cells : points.length = session.configuration.chains)
    (onStarts : OnStarts points session.configuration.chains P start) :
    ∃ left : List CudaChain.Point,
      { session with chainPoints := points }.searchKernel request prepared =
        (CudaSecp.functionalSearchKernel prepared.startPoint prepared.pattern request.rangeCount request.rangeCount
          noWinner, left) ∧
      left.length = session.configuration.chains ∧
      (request.rangeCount % session.configuration.chains = 0 →
        OnStarts left session.configuration.chains P (start + request.rangeCount)) := by
  have geometry := ready.geometry chained made.launchable.limit
  have started : ∀ chain < session.configuration.chains,
      Represents (points.getD chain default) (P + start • generator + chain • generator) := by
    intro chain below
    rw [add_assoc, ← add_nsmul]
    exact onStarts chain below
  have exact := CudaChain.chainedSearchKernel_exact geometry made.stands ready.stride made.built.built le_rfl cells
    started
  have finished := CudaChain.chainedSearchKernel_state geometry ready.stride geometry.stride_finite cells started
    le_rfl
  refine ⟨(CudaChain.chainedSearchKernel (session.chainedLaunch request.rangeCount)
    (session.configuration.grid request.rangeCount) points).2, ?_, finished.cells, ?_⟩
  · have winner := exact.winner
    have same := ready.tuned.same
    cases mode with
    | chained8 =>
      simp only [Session.searchKernel, same]
      exact Prod.ext winner rfl
    | chained16 =>
      simp only [Session.searchKernel, same]
      exact Prod.ext winner rfl
    | reference => cases chained
    | incremental => cases chained
    | batched => cases chained
  · intro aligned chain below
    have position := exact.points chain below
    have rounds : (session.chainedLaunch request.rangeCount).steps * session.configuration.chains =
        request.rangeCount := by
      obtain ⟨positive, -⟩ := ready.tuned.chains_bounds chained
      obtain ⟨turns, whole⟩ := Nat.dvd_of_mod_eq_zero aligned
      have steps : (session.chainedLaunch request.rangeCount).steps = turns := by
        simp only [Session.chainedLaunch, whole]
        rw [Nat.add_sub_assoc positive, Nat.mul_add_div positive, Nat.div_eq_of_lt (by omega), Nat.add_zero]
      rw [steps, whole, Nat.mul_comm]
    have chains : (session.chainedLaunch request.rangeCount).chainCount = session.configuration.chains := rfl
    rw [chains, rounds, add_assoc, ← add_nsmul, ← Nat.add_assoc] at position
    exact position

/-- The offset after a range, which is the order itself for the last range. -/
theorem Searchable.nextOffset (searchable : Searchable request P start) :
    addToOffset (scalarHex start) request.rangeCount =
      if start + request.rangeCount = groupOrder then .error .winningRange
      else .ok (scalarHex (start + request.rangeCount)) := by
  have last := searchable.last
  have positive := searchable.positive
  have parsed := parseRangeStart_scalarHex (searchable.first.trans groupOrder_lt)
  rw [addToOffset_eq parsed]
  by_cases final : start + request.rangeCount = groupOrder
  · rw [if_pos final, if_neg (by omega)]
  · rw [if_neg final, if_pos (by omega)]
    rfl

/-- The winning index of a launch for the request. -/
def PreparedFor.winner (_ : PreparedFor request P start prepared) : Nat :=
  CudaSecp.functionalSearchKernel prepared.startPoint prepared.pattern request.rangeCount request.rangeCount noWinner

/-- What a prepared request comes to. -/
theorem PreparedFor.outcome (made : PreparedFor request P start prepared) (configuration : Configuration) :
    chainedOutcome configuration request =
      if request.rangeCount % configuration.chains = 0 ∧ start + request.rangeCount = groupOrder then
        .error .winningRange
      else searchResult request made.winner := by
  rw [chainedOutcome, made.validated]
  simp only [bind, Except.bind, made.launchable.normalizedStart]
  by_cases aligned : request.rangeCount % configuration.chains = 0
  · simp only [aligned, if_true, made.launchable.nextOffset, true_and]
    by_cases final : start + request.rangeCount = groupOrder
    · simp only [if_pos final]
    · simp only [if_neg final]
      rfl
  · rw [if_neg aligned, if_neg (fun both => aligned both.1)]
    rfl

theorem findSome_failsAt {calls : List CudaCall} {failure : Fault}
    (found : calls.findSome? (failsAt fault) = some failure) : fault = some failure := by
  obtain ⟨call, -, failed⟩ := List.exists_of_findSome?_eq_some found
  exact (Option.filter_eq_some_iff.mp failed).1

/-- The last call of a search fails, or its result is returned. -/
theorem ended_cases {kept : Session} {launched : Option (List CudaChain.Point)}
    {result : Except HostError SearchResult} {run : SearchRun} (ready : Ready mode kept)
    (ended : (match failsAt fault .elapsedTime with
      | some failure => (⟨kept, launched, .error (kept.cudaError failure)⟩ : SearchRun)
      | none => ⟨kept, launched, result⟩) = run) :
    run.launched = launched ∧ Ready mode run.session ∧
      ((∃ failure, run.result = .error (kept.cudaError failure) ∧ fault = some failure) ∨ run.result = result) := by
  cases failed : failsAt fault .elapsedTime with
  | some failure =>
    simp only [failed] at ended
    subst ended
    exact ⟨rfl, ready, Or.inl ⟨failure, rfl, (Option.filter_eq_some_iff.mp failed).1⟩⟩
  | none =>
    simp only [failed] at ended
    subst ended
    exact ⟨rfl, ready, Or.inr rfl⟩

/-- Every launch fills in what the next request may reuse, or leaves the points as used. -/
theorem Ready.complete (ready : Ready mode session) (chained : mode.isChained = true)
    (made : PreparedFor request P start prepared) {points : List CudaChain.Point}
    (cells : points.length = session.configuration.chains)
    (onStarts : OnStarts points session.configuration.chains P start) {run : SearchRun}
    (ran : { session with chainStateValid := false, chainPoints := points }.complete request prepared fault = run) :
    run.launched = some points ∧ Ready mode run.session ∧
      ((∃ failure, run.result = .error (session.cudaError failure) ∧ fault = some failure) ∨
        run.result = chainedOutcome session.configuration request) := by
  have isChained : session.configuration.mode.isChained = true := by rw [ready.tuned.same, chained]
  have invalid := ready.invalidated ready.cells session.chainPublicKey session.chainNextStart
  rw [Session.complete] at ran
  simp only [isChained, if_true] at ran
  cases failed : lateCalls.findSome? (failsAt fault) with
  | some failure =>
    simp only [failed] at ran
    subst ran
    refine ⟨rfl, ?_, Or.inl ⟨failure, rfl, findSome_failsAt failed⟩⟩
    exact ready.invalidated (by simp) session.chainPublicKey session.chainNextStart
  | none =>
    obtain ⟨left, kernel, leftCells, leftStarts⟩ := invalid.launched chained made cells onStarts
    simp only [failed, kernel, Session.keepChains, isChained, true_and, made.normalizedStart,
      made.launchable.nextOffset] at ran
    rw [made.outcome]
    by_cases aligned : request.rangeCount % session.configuration.chains = 0
    · by_cases final : start + request.rangeCount = groupOrder
      · simp only [if_pos aligned, if_pos final] at ran
        subst ran
        exact ⟨rfl, ready.invalidated leftCells request.publicKeyHex session.chainNextStart,
          Or.inr (if_pos ⟨aligned, final⟩).symm⟩
      · simp only [if_pos aligned, if_neg final] at ran
        have last := made.launchable.last
        rw [if_neg (fun both => final both.2)]
        have ended := ended_cases (ready.kept leftCells (by omega) made.launchable.key (leftStarts aligned)) ran
        exact ended
    · simp only [if_neg aligned] at ran
      rw [if_neg (fun both => aligned both.1)]
      have ended := ended_cases (ready.invalidated leftCells session.chainPublicKey session.chainNextStart) ran
      exact ended

/-- A search of a chained session: what it leaves, what it launches on, and its result. -/
theorem Ready.search (ready : Ready mode session) (chained : mode.isChained = true) (request : SearchRequest)
    (fault : Option Fault) :
    Ready mode (session.search request fault).session ∧
    (∀ points, (session.search request fault).launched = some points → ∃ P start,
      Launchable request P start ∧ OnStarts points session.configuration.chains P start) ∧
    ((∃ failure, (session.search request fault).result = .error (session.cudaError failure) ∧ fault = some failure) ∨
      (session.search request fault).result = chainedOutcome session.configuration request) := by
  generalize ran : session.search request fault = run
  rw [Session.search] at ran
  rcases ready.prepare chained request fault with ⟨error, prepared, reason⟩ |
    ⟨P, start, made, for_, decided, prepared⟩
  · simp only [prepared] at ran
    subst ran
    refine ⟨ready, fun points launched => (by cases launched), ?_⟩
    rcases reason with ⟨failure, rfl, failed⟩ | outcome
    · exact Or.inl ⟨failure, rfl, failed⟩
    · exact Or.inr outcome.symm
  · simp only [prepared] at ran
    cases failed : (earlyCalls made).findSome? (failsAt fault) with
    | some failure =>
      simp only [failed] at ran
      subst ran
      have cells : ((List.range session.configuration.chains).map failure.memory).length =
          session.configuration.chains := by
        simp
      have invalid := ready.invalidated cells session.chainPublicKey session.chainNextStart
      exact ⟨invalid, fun points launched => (by cases launched), Or.inl ⟨failure, rfl, findSome_failsAt failed⟩⟩
    | none =>
      simp only [failed] at ran
      obtain ⟨cells, onStarts⟩ := ready.onStarts chained for_ decided
      obtain ⟨launched, after, result⟩ := ready.complete chained for_ cells onStarts ran
      refine ⟨after, ?_, result⟩
      intro points same
      rw [launched, Option.some.injEq] at same
      subst same
      exact ⟨P, start, for_.launchable, onStarts⟩

/-- A request that ends before the last offset has its result, which counts the whole range. -/
theorem Ready.search_launchable (ready : Ready mode session) (chained : mode.isChained = true) {P : CurvePoint}
    {start : Nat} (launchable : Launchable request P start) (before : start + request.rangeCount < groupOrder) :
    ∃ result, (session.search request none).result = .ok { result with attempts := request.rangeCount } ∧
      Finds P request.afterT request.suffix start request.rangeCount result := by
  obtain ⟨-, -, outcome⟩ := ready.search chained request none
  have returned := outcome.resolve_left (fun ⟨failure, _, none_⟩ => by cases none_)
  rcases ready.prepare chained request none with ⟨error, refused, -⟩ | ⟨Q, first, made, for_, -, -⟩
  · obtain ⟨prepared, valid⟩ := launchable.prepared ready.tuned
    rw [refused] at valid
    cases valid
  · obtain ⟨rfl, rfl⟩ := for_.launchable.toSearchable.unique launchable.toSearchable
    rw [returned, for_.outcome, if_neg (fun both => before.ne both.2)]
    exact searchResult_finds launchable.toSearchable launchable.limit for_.built for_.stands

end

theorem Ready.serve {mode : SearchMode} {session : Session} (ready : Ready mode session)
    (chained : mode.isChained = true) (served : List (SearchRequest × Option Fault)) :
    Ready mode (session.serve served) := by
  induction served generalizing session with
  | nil => exact ready
  | cons first rest hypothesis => exact hypothesis (ready.search chained first.1 first.2).1

/-- Whatever requests a chained session has served, rejected or lost to a failure, the
next launch finds every chain on its candidate of the request, and a search that
returns has the result of a fresh session. -/
theorem chains_serve_request {mode : SearchMode} (chained : mode.isChained = true) {device : Device}
    {memory : Nat → CudaChain.Point} {fresh : Session} (created : Session.create mode device memory = .ok fresh)
    (served : List (SearchRequest × Option Fault)) (request : SearchRequest) (fault : Option Fault) :
    (∀ points, ((fresh.serve served).search request fault).launched = some points → ∃ P, ∃ start : Nat,
      publicPoint request.publicKeyHex = .ok P ∧ parseRangeStart request.rangeStart = .ok (start : Int) ∧
        ∀ chain < fresh.configuration.chains,
          Represents (points.getD chain default) (P + (start + chain) • generator)) ∧
    ∀ result, ((fresh.serve served).search request fault).result = .ok result →
      ∀ otherMemory other, Session.create mode device otherMemory = .ok other →
        (other.search request none).result = .ok result := by
  have ready := ((create_fresh created).ready chained).serve chained served
  have same : (fresh.serve served).configuration = fresh.configuration := congrArg Prod.fst (serve_fixed fresh served)
  obtain ⟨-, launched, outcome⟩ := ready.search chained request fault
  rw [same] at launched outcome
  constructor
  · intro points found
    obtain ⟨P, start, launchable, onStarts⟩ := launched points found
    exact ⟨P, start, launchable.key, launchable.parsed, onStarts⟩
  · intro result returned otherMemory other otherCreated
    have configuration : other.configuration = fresh.configuration :=
      Except.ok.inj ((create_configuration otherCreated).symm.trans (create_configuration created))
    obtain ⟨-, -, fresh_⟩ := ((create_fresh otherCreated).ready chained).search chained request none
    rw [configuration] at fresh_
    rcases outcome with ⟨failure, failed, -⟩ | outcome
    · rw [failed] at returned
      cases returned
    · rcases fresh_ with ⟨failure, -, none_⟩ | fresh_
      · cases none_
      · rw [fresh_, ← outcome, returned]

/-- The key of the generator, and the last range of two thousand and forty-eight offsets. -/
def lastRequest : SearchRequest where
  publicKeyHex := "0279be667ef9dcbbac55a06295ce870b07029bfcdb2dce28d959f2815b16f81798".toList
  pattern := "2x2".toList
  afterT := "Dv".toList
  suffix := "9K".toList
  rangeStart := "fffffffffffffffffffffffffffffffebaaedce6af48a03bbfd25e8cd0363941".toList
  rangeCount := 2048

theorem lastRequest_launchable : Launchable lastRequest generator (groupOrder - 2048) where
  pattern := by decide
  key := by
    have key : lastRequest.publicKeyHex = bytesToHex (2 :: scalarBytes generatorAbscissa) := by decide +kernel
    rw [key, ← compressedBytes_generator]
    exact publicPoint_compressed generator_ne_zero
  parsed := by
    have text : lastRequest.rangeStart = scalarHex (groupOrder - 2048) := by decide +kernel
    have fits : groupOrder - 2048 < 256 ^ 32 := by norm_num [groupOrder]
    rw [text, parseRangeStart_scalarHex fits]
  count := by decide
  positive := by norm_num [groupOrder]
  last := by
    have count : lastRequest.rangeCount = 2048 := rfl
    rw [count]
    norm_num [groupOrder]
  limit := by decide
  finite := by
    have sum : generator + (groupOrder - 2048) • generator = (groupOrder - 2047) • generator := by
      rw [← succ_nsmul']
      norm_num [groupOrder]
    rw [sum]
    exact nsmul_generator_ne_zero (by norm_num [groupOrder]) (by norm_num [groupOrder])

/-- A chained session that serves one request twice. -/
theorem chains_serve_request_twice : ∃ fresh, Session.create .chained8 smallDevice (fun _ => default) = .ok fresh ∧
    (∀ points, ((fresh.serve [(lastRequest, none)]).search lastRequest none).launched = some points →
      ∃ P, ∃ start : Nat, publicPoint lastRequest.publicKeyHex = .ok P ∧
        parseRangeStart lastRequest.rangeStart = .ok (start : Int) ∧ ∀ chain < fresh.configuration.chains,
          Represents (points.getD chain default) (P + (start + chain) • generator)) ∧
    ∀ result, ((fresh.serve [(lastRequest, none)]).search lastRequest none).result = .ok result →
      ∀ otherMemory other, Session.create .chained8 smallDevice otherMemory = .ok other →
        (other.search lastRequest none).result = .ok result := by
  obtain ⟨fresh, created⟩ := create_chained (rfl : SearchMode.chained8.isChained = true) smallDevice fun _ => default
  exact ⟨fresh, created, chains_serve_request rfl created [(lastRequest, none)] lastRequest none⟩

/-- A request that passed its validation, with no failing call, has its result unless
its range is divided by the chains and ends at the last offset. -/
theorem search_returns_iff {mode : SearchMode} (chained : mode.isChained = true) {device : Device}
    {memory : Nat → CudaChain.Point} {fresh : Session} (created : Session.create mode device memory = .ok fresh)
    (served : List (SearchRequest × Option Fault)) {request : SearchRequest} {prepared : Prepared}
    (valid : ((fresh.serve served).prepare request none).2 = .ok prepared) :
    (∃ result, ((fresh.serve served).search request none).result = .ok result) ↔
      ¬ (request.rangeCount % fresh.configuration.chains = 0 ∧
        parseRangeStart request.rangeStart = .ok ((groupOrder - request.rangeCount : Nat) : Int)) := by
  have ready := ((create_fresh created).ready chained).serve chained served
  have same : (fresh.serve served).configuration = fresh.configuration := congrArg Prod.fst (serve_fixed fresh served)
  obtain ⟨-, -, outcome⟩ := ready.search chained request none
  rcases ready.prepare chained request none with ⟨error, refused, -⟩ | ⟨P, start, made, for_, -, -⟩
  · rw [refused] at valid
    cases valid
  · have launchable := for_.launchable
    have returned : ((fresh.serve served).search request none).result =
        chainedOutcome (fresh.serve served).configuration request := by
      rcases outcome with ⟨failure, -, impossible⟩ | returned
      · cases impossible
      · exact returned
    rw [returned, for_.outcome, same]
    have order : 2 ^ 26 < groupOrder := by norm_num [groupOrder]
    have limit := launchable.limit
    have last : parseRangeStart request.rangeStart = .ok ((groupOrder - request.rangeCount : Nat) : Int) ↔
        start + request.rangeCount = groupOrder := by
      rw [launchable.parsed, Except.ok.injEq, Nat.cast_inj]
      omega
    rw [last]
    by_cases final : request.rangeCount % fresh.configuration.chains = 0 ∧ start + request.rangeCount = groupOrder
    · rw [if_pos final]
      refine iff_of_false ?_ (not_not.mpr final)
      intro found
      obtain ⟨result, impossible⟩ := found
      cases impossible
    · rw [if_neg final]
      obtain ⟨result, verified, -⟩ := searchResult_finds launchable.toSearchable limit for_.built for_.stands
      exact iff_of_true ⟨_, verified⟩ final

/-- A completed launch is lost where the range ends at the last offset. -/
theorem search_returns_misses : ∃ fresh, Session.create .chained8 smallDevice (fun _ => default) = .ok fresh ∧
    (∃ prepared, (fresh.prepare lastRequest none).2 = .ok prepared) ∧
    (fresh.search lastRequest none).result = .error .winningRange ∧
    ¬ ∃ result, (fresh.search lastRequest none).result = .ok result := by
  obtain ⟨fresh, created⟩ := create_chained (rfl : SearchMode.chained8.isChained = true) smallDevice fun _ => default
  have fresh_ := create_fresh created
  have configuration := create_configuration created
  have ready := fresh_.ready rfl
  obtain ⟨-, -, outcome⟩ := ready.search rfl lastRequest none
  have tuned : tuneLaunchConfiguration .chained8 smallDevice = .ok ⟨.chained8, 64, 4, 8, 2048⟩ := rfl
  have chains : fresh.configuration.chains = 2048 := by
    rw [Except.ok.inj (configuration.symm.trans tuned)]
  rcases ready.prepare rfl lastRequest none with ⟨error, refused, -⟩ | ⟨P, start, made, for_, -, prepared⟩
  · obtain ⟨prepared, valid⟩ := lastRequest_launchable.prepared fresh_.tuned
    rw [refused] at valid
    cases valid
  · have lost : (fresh.search lastRequest none).result = .error .winningRange := by
      have aligned : lastRequest.rangeCount % fresh.configuration.chains = 0 := by
        rw [chains]
        rfl
      obtain ⟨rfl, rfl⟩ := for_.launchable.toSearchable.unique lastRequest_launchable.toSearchable
      rw [outcome.resolve_left (fun ⟨failure, _, none_⟩ => by cases none_), for_.outcome, if_pos ⟨aligned, rfl⟩]
    refine ⟨fresh, created, ⟨made, by rw [prepared]⟩, lost, ?_⟩
    rintro ⟨result, returned⟩
    rw [lost] at returned
    cases returned

/-- The condition on the last range. -/
theorem search_returns_iff_last : ∃ fresh, Session.create .chained8 smallDevice (fun _ => default) = .ok fresh ∧
    ((∃ result, (fresh.search lastRequest none).result = .ok result) ↔
      ¬ (lastRequest.rangeCount % fresh.configuration.chains = 0 ∧
        parseRangeStart lastRequest.rangeStart = .ok ((groupOrder - lastRequest.rangeCount : Nat) : Int))) := by
  obtain ⟨fresh, created⟩ := create_chained (rfl : SearchMode.chained8.isChained = true) smallDevice fun _ => default
  obtain ⟨prepared, valid⟩ := lastRequest_launchable.prepared (create_fresh created).tuned
  exact ⟨fresh, created, search_returns_iff rfl created [] valid⟩

end TronForge.Native
