import TronForge.Library.Outcome
import TronForge.Native.Session
import TronForge.Native.Winner

/-! The validation of a session against the one of the reference search. The session
derives its start point, which must be finite; the search on the processor need not. -/

namespace TronForge.Native

open Library

section
variable {keyHex offset : Text} {P : CurvePoint}

/-- What the key check passed. -/
theorem publicPoint_ok (key : publicPoint keyHex = .ok P) : ∃ bytes, hexToBytes keyHex = .ok bytes ∧
    ¬ (bytes.length ≠ 33 ∧ bytes.length ≠ 65) ∧ decodePoint bytes = some P := by
  obtain ⟨bytes, parsed, rest⟩ := bind_eq_ok key
  refine ⟨bytes, parsed, ?_⟩
  by_cases size : bytes.length ≠ 33 ∧ bytes.length ≠ 65
  · rw [if_pos size] at rest
    cases rest
  · rw [if_neg size] at rest
    refine ⟨size, ?_⟩
    cases decoded : decodePoint bytes with
    | none =>
      rw [decoded] at rest
      cases rest
    | some point =>
      rw [decoded] at rest
      cases rest
      rfl

/-- The compressed key of a point is its key. -/
theorem publicPoint_compressed (finite : P ≠ 0) :
    publicPoint (bytesToHex (compressedBytes P)) = .ok P := by
  have length := length_compressedBytes finite
  have size : ¬ ((compressedBytes P).length ≠ 33 ∧ (compressedBytes P).length ≠ 65) := by omega
  rw [publicPoint, hexToBytes_bytesToHex]
  simp only [bind, Except.bind, if_neg size, decodePoint_compressedBytes finite]
  rfl

/-- The derivation fails on the offset that cancels the point. -/
theorem deriveOffsetPublicKey_eq {start : Nat} (key : publicPoint keyHex = .ok P)
    (parsed : parseRangeStart offset = .ok (start : Int)) (positive : 0 < start) (below : start < groupOrder) :
    deriveOffsetPublicKey keyHex offset =
      if P + start • generator = 0 then .error .infiniteOffset
      else .ok (bytesToHex (pointBytes (P + start • generator))) := by
  obtain ⟨bytes, hex, size, decoded⟩ := publicPoint_ok key
  have inside : ¬ ((start : Int) ≤ 0 ∨ (groupOrder : Int) ≤ start) := by omega
  rw [deriveOffsetPublicKey, hex]
  simp only [bind, Except.bind, if_neg size, parsed, decoded, if_neg inside, Int.toNat_natCast]
  rw [add_comm P]
  by_cases infinite : start • generator + P = 0
  · rw [if_pos infinite, if_pos infinite]
    rfl
  · rw [if_neg infinite, if_neg infinite]
    rfl

/-- What a derivation that returned was given. -/
theorem deriveOffsetPublicKey_ok {text : Text} (derived : deriveOffsetPublicKey keyHex offset = .ok text) :
    ∃ P, ∃ start : Nat, publicPoint keyHex = .ok P ∧ parseRangeStart offset = .ok (start : Int) ∧
      0 < start ∧ start < groupOrder := by
  obtain ⟨bytes, hex, rest⟩ := bind_eq_ok derived
  by_cases size : bytes.length ≠ 33 ∧ bytes.length ≠ 65
  · rw [if_pos size] at rest
    cases rest
  · rw [if_neg size] at rest
    obtain ⟨scalar, parsed, rest⟩ := bind_eq_ok rest
    cases decoded : decodePoint bytes with
    | none =>
      rw [decoded] at rest
      cases rest
    | some P =>
      rw [decoded] at rest
      by_cases outside : scalar ≤ 0 ∨ (groupOrder : Int) ≤ scalar
      · simp only [if_pos outside] at rest
        cases rest
      · have whole : ((scalar.toNat : Nat) : Int) = scalar := by omega
        refine ⟨P, scalar.toNat, ?_, by rw [whole, parsed], by omega, by omega⟩
        rw [publicPoint, hex]
        simp only [bind, Except.bind, if_neg size, decoded]
        rfl

end

/-- A request that a session may launch: the first point is finite. -/
structure Launchable (request : SearchRequest) (P : CurvePoint) (start : Nat) : Prop
    extends Searchable request P start where
  limit : request.rangeCount ≤ 2 ^ 26
  finite : P + start • generator ≠ 0

/-- The pattern that the host builds for a request. -/
structure BuiltFor (request : SearchRequest) (pattern : DevicePattern) : Prop where
  built : BuiltPattern pattern
  afterT : pattern.afterT = request.afterT
  suffix : pattern.suffix = request.suffix

section
variable {request : SearchRequest} {P : CurvePoint} {start : Nat}

theorem Searchable.first (searchable : Searchable request P start) : start < groupOrder := by
  have last := searchable.last
  omega

theorem Searchable.pattern_built (searchable : Searchable request P start) :
    ∃ pattern, populatePrefixIntervals ⟨request.afterT, request.suffix, []⟩ request.afterT = .ok pattern ∧
      BuiltFor request pattern := by
  have accepted := validatePattern_ok searchable.pattern
  have length := accepted.afterTLength
  obtain ⟨intervals, filled, -⟩ := populatePrefixIntervals_ok (by omega : request.afterT.length + 1 ≤ 34)
    (fun character member => accepted.characters character (List.mem_append_left _ member))
    ⟨request.afterT, request.suffix, []⟩
  exact ⟨_, filled, ⟨⟨accepted, filled⟩, rfl, rfl⟩⟩

/-- The range stays below the order when the host looks at its last offset. -/
theorem Searchable.lastOffset (searchable : Searchable request P start) :
    addToOffset request.rangeStart (request.rangeCount - 1) =
      .ok (scalarHex (start + (request.rangeCount - 1))) := by
  have positive := searchable.positive
  have last := searchable.last
  rw [addToOffset_eq searchable.parsed, if_pos (by omega)]
  rfl

theorem Searchable.normalizedStart (searchable : Searchable request P start) :
    addToOffset request.rangeStart 0 = .ok (scalarHex start) := by
  have positive := searchable.positive
  have first := searchable.first
  rw [addToOffset_eq searchable.parsed, if_pos (by omega)]
  rfl

/-- The host makes the start point and the pattern of a launchable request. -/
theorem Launchable.validated (launchable : Launchable request P start) :
    ∃ pattern, BuiltFor request pattern ∧
      validateRequest request = .ok (hostPoint (pointBytes (P + start • generator)), pattern) := by
  obtain ⟨pattern, filled, built⟩ := launchable.pattern_built
  have derived := deriveOffsetPublicKey_eq launchable.key launchable.parsed launchable.positive launchable.first
  have bytes := hostPublicKeyBytes_pointBytes launchable.finite
  refine ⟨pattern, built, ?_⟩
  rw [if_neg launchable.finite] at derived
  generalize P + start • generator = Q at derived bytes ⊢
  rw [validateRequest, launchable.pattern]
  simp only [if_neg launchable.count.ne', if_neg (not_lt.mpr launchable.limit), bind, Except.bind, derived, bytes,
    filled]
  by_cases several : request.rangeCount > 1
  · simp only [if_pos several, launchable.lastOffset]
    rfl
  · simp only [if_neg several]
    rfl

/-- A range whose first offset cancels the public point is refused. -/
theorem Searchable.refused (searchable : Searchable request P start) (limit : request.rangeCount ≤ 2 ^ 26)
    (cancels : P + start • generator = 0) : validateRequest request = .error .infiniteOffset := by
  have derived := deriveOffsetPublicKey_eq searchable.key searchable.parsed searchable.positive searchable.first
  rw [if_pos cancels] at derived
  rw [validateRequest, searchable.pattern]
  simp only [if_neg searchable.count.ne', if_neg (not_lt.mpr limit), bind, Except.bind, derived]
  by_cases several : request.rangeCount > 1
  · simp only [if_pos several, searchable.lastOffset]
  · simp only [if_neg several]

/-- Only launchable requests are validated. -/
theorem validateRequest_launchable {made : CudaSecp.AffinePoint × DevicePattern}
    (valid : validateRequest request = .ok made) : ∃ P start, Launchable request P start := by
  rw [validateRequest] at valid
  split at valid
  · cases valid
  · rename_i pattern
    split at valid
    · cases valid
    · rename_i count
      split at valid
      · cases valid
      · rename_i limit
        have derives : ∃ rest : Text → Except HostError (CudaSecp.AffinePoint × DevicePattern),
            deriveOffsetPublicKey request.publicKeyHex request.rangeStart >>= rest = .ok made ∧
            (1 < request.rangeCount →
              ∃ text, addToOffset request.rangeStart (request.rangeCount - 1) = .ok text) := by
          by_cases several : request.rangeCount > 1
          · simp only [if_pos several] at valid
            obtain ⟨text, moved, rest⟩ := bind_eq_ok valid
            exact ⟨_, rest, fun _ => ⟨text, moved⟩⟩
          · simp only [if_neg several] at valid
            exact ⟨_, valid, fun more => absurd more several⟩
        obtain ⟨rest, derived, moved⟩ := derives
        obtain ⟨text, derived, -⟩ := bind_eq_ok derived
        obtain ⟨P, start, key, parsed, positive, below⟩ := deriveOffsetPublicKey_ok derived
        refine ⟨P, start, ⟨pattern, key, parsed, by omega, positive, ?_⟩, by omega, ?_⟩
        · by_cases several : 1 < request.rangeCount
          · obtain ⟨text, moved⟩ := moved several
            rw [addToOffset_eq parsed] at moved
            split at moved
            · omega
            · cases moved
          · omega
        · intro infinite
          rw [deriveOffsetPublicKey_eq key parsed positive below, if_pos infinite] at derived
          cases derived

theorem Searchable.unique {Q : CurvePoint} {first : Nat} (searchable : Searchable request P start)
    (other : Searchable request Q first) : P = Q ∧ start = first := by
  have key := searchable.key.symm.trans other.key
  have parsed := searchable.parsed.symm.trans other.parsed
  exact ⟨by injection key, by injection parsed with same; omega⟩

end

/-- What the tuner has set: the numbers of a grid are positive and fit. -/
structure Tuned (mode : SearchMode) (configuration : Configuration) : Prop where
  same : configuration.mode = mode
  threads : 0 < configuration.threads
  resident : mode = .reference ∨ 0 < configuration.residentBlocks
  fits : configuration.residentBlocks * configuration.threads < 2 ^ 37
  chained : mode.isChained = true → configuration.threads = 64 ∧
    configuration.chains = configuration.residentBlocks * 64 * configuration.points ∧
    (configuration.points = 8 ∨ configuration.points = 16)

section
variable {mode : SearchMode} {device : Device} {configuration : Configuration}

/-- The best candidate is one whose active blocks were asked for. -/
theorem tuneCandidate_best (device : Device) (candidates : List Nat) (best : Nat × Nat × Option Nat)
    (before : best.2.1 = 0 ∨ best.2.1 = device.activeBlocks best.1) :
    (candidates.foldl (tuneCandidate device) best).2.1 = 0 ∨
      (candidates.foldl (tuneCandidate device) best).2.1 =
        device.activeBlocks (candidates.foldl (tuneCandidate device) best).1 := by
  induction candidates generalizing best with
  | nil => exact before
  | cons candidate rest hypothesis =>
    rw [List.foldl_cons]
    apply hypothesis
    rw [tuneCandidate]
    split
    · exact Or.inr rfl
    · exact before

theorem tuneLaunchConfiguration_tuned (tuned : tuneLaunchConfiguration mode device = .ok configuration) :
    Tuned mode configuration := by
  have positive := device.positive
  have blocksFit := device.blocksFit
  have best := tuneCandidate_best device [128, 256, 64] (0, 0, none) (Or.inl rfl)
  unfold tuneLaunchConfiguration at tuned
  generalize [128, 256, 64].foldl (tuneCandidate device) (0, 0, none) = chosen at best tuned
  obtain ⟨threads, activeBlocks, resident⟩ := chosen
  have occupied (unchained : mode.isChained = false)
      (returned : (if threads = 0 ∨ activeBlocks = 0 then throw .noActiveBlocks
        else return { mode := mode, threads := threads, residentBlocks := device.multiprocessors * activeBlocks } :
          Except HostError Configuration) = .ok configuration) : Tuned mode configuration := by
    by_cases none : threads = 0 ∨ activeBlocks = 0
    · simp only [if_pos none] at returned
      cases returned
    · simp only [if_neg none] at returned
      cases returned
      have active : activeBlocks = device.activeBlocks threads := best.resolve_left (fun zero => none (Or.inr zero))
      have fit := device.threadsFit threads
      rw [← active, ← Nat.mul_assoc] at fit
      refine ⟨rfl, by simp only; omega, Or.inr (Nat.mul_pos positive (by omega)), by simp only; omega, ?_⟩
      intro chained
      rw [unchained] at chained
      cases chained
  cases mode with
  | reference =>
    cases tuned
    exact ⟨rfl, by simp, Or.inl rfl, by simp, fun chained => by cases chained⟩
  | incremental => exact occupied rfl tuned
  | batched => exact occupied rfl tuned
  | chained8 =>
    cases tuned
    exact ⟨rfl, by simp, Or.inr (by simp only; omega), by simp only; omega, fun _ => ⟨rfl, rfl, Or.inl rfl⟩⟩
  | chained16 =>
    cases tuned
    exact ⟨rfl, by simp, Or.inr (by simp only; omega), by simp only; omega, fun _ => ⟨rfl, rfl, Or.inr rfl⟩⟩

/-- The stride of a grid is a scalar. -/
theorem Tuned.gridStride_bounds (tuned : Tuned mode configuration) {rangeCount gridStride : Nat}
    (count : 0 < rangeCount) (stride : configuration.gridStride rangeCount = some gridStride) :
    0 < gridStride ∧ gridStride < groupOrder := by
  have threads := tuned.threads
  have fits := tuned.fits
  have order : 2 ^ 37 * 9 < groupOrder := by norm_num [groupOrder]
  have ceiling {number : Nat} (positive : 0 < number) : 0 < (number + configuration.threads - 1) / configuration.threads :=
    Nat.div_pos (by omega) threads
  have clipped (number : Nat) : min number configuration.residentBlocks * configuration.threads < 2 ^ 37 :=
    (Nat.mul_le_mul_right _ (Nat.min_le_right _ _)).trans_lt fits
  have resident (unreferenced : mode ≠ .reference) := tuned.resident.resolve_left unreferenced
  cases sameMode : configuration.mode with
  | reference => simp [Configuration.gridStride, sameMode] at stride
  | chained8 => simp [Configuration.gridStride, sameMode] at stride
  | chained16 => simp [Configuration.gridStride, sameMode] at stride
  | incremental =>
    have blocks := resident (by rw [← tuned.same, sameMode]; exact SearchMode.noConfusion)
    simp only [Configuration.gridStride, Configuration.blocks, sameMode, Option.some.injEq] at stride
    rw [← stride]
    have below := clipped ((rangeCount + configuration.threads - 1) / configuration.threads)
    exact ⟨Nat.mul_pos (lt_min (ceiling count) blocks) threads, by omega⟩
  | batched =>
    have blocks := resident (by rw [← tuned.same, sameMode]; exact SearchMode.noConfusion)
    simp only [Configuration.gridStride, Configuration.blocks, sameMode, Option.some.injEq] at stride
    rw [← stride]
    have batches : 0 < (rangeCount + CudaSecp.batchSpan - 1) / CudaSecp.batchSpan :=
      Nat.div_pos (by simp only [CudaSecp.batchSpan, CudaSecp.batchRadius]; omega) (by decide)
    have below := clipped (((rangeCount + CudaSecp.batchSpan - 1) / CudaSecp.batchSpan + configuration.threads - 1) /
      configuration.threads)
    have span : CudaSecp.batchSpan = 9 := rfl
    refine ⟨Nat.mul_pos (Nat.mul_pos (lt_min (ceiling batches) blocks) threads) (by decide), ?_⟩
    rw [span]
    rw [span] at below
    omega

end

/-- A stride point is always made. -/
theorem stridePoint_ok (session : Session) {gridStride : Nat} (positive : 0 < gridStride)
    (below : gridStride < groupOrder) :
    ∃ cached point, session.stridePoint gridStride = .ok ({ session with cachedStride := cached }, point) := by
  rw [Session.stridePoint]
  split
  · exact ⟨session.cachedStride, _, rfl⟩
  · have finite := nsmul_generator_ne_zero positive below
    generalize same : gridStride • generator = P at finite
    have compressed := compressedPublicKey_scalarHex positive below same
    refine ⟨some (gridStride, hostPoint (pointBytes P)), hostPoint (pointBytes P), ?_⟩
    rw [compressed]
    simp only [bind, Except.bind, uncompressedPublicKey_compressed finite, hostPublicKeyBytes_pointBytes finite]
    rfl

/-- What a session never changes. -/
def Session.fixed (session : Session) : Configuration × List CudaSecp.AffinePoint × CudaChain.Point :=
  (session.configuration, session.batchTable, session.chainStridePoint)

section
variable (session : Session) (request : SearchRequest) (fault : Option Fault)

theorem stridePoint_fixed {gridStride : Nat} {made : Session × CudaSecp.AffinePoint}
    (returned : session.stridePoint gridStride = .ok made) : made.1.fixed = session.fixed := by
  rw [Session.stridePoint] at returned
  split at returned
  · cases returned
    rfl
  · obtain ⟨_, -, rest⟩ := bind_eq_ok returned
    obtain ⟨_, -, rest⟩ := bind_eq_ok rest
    obtain ⟨_, -, rest⟩ := bind_eq_ok rest
    cases rest
    rfl

theorem prepare_fixed : (session.prepare request fault).1.fixed = session.fixed := by
  have marked : (if session.configuration.mode.isChained then { session with chainStateValid := false }
      else session).fixed = session.fixed := by
    split <;> rfl
  simp only [Session.prepare]
  split
  · rfl
  · split
    · rfl
    · split
      · rfl
      · split
        · exact marked
        · split
          · exact marked
          · rename_i returned
            exact (stridePoint_fixed _ returned).trans marked

theorem keepChains_fixed (normalizedStart : Text) :
    (session.keepChains request normalizedStart).1.fixed = session.fixed := by
  rw [Session.keepChains]
  split
  · simp only
    split <;> rfl
  · rfl

theorem complete_fixed (prepared : Prepared) :
    (session.complete request prepared fault).session.fixed = session.fixed := by
  rw [Session.complete]
  split
  · rfl
  · have kept := keepChains_fixed { session with chainPoints := (session.searchKernel request prepared).2 } request
      prepared.normalizedStart
    simp only
    split
    · rename_i returned
      rw [returned] at kept
      exact kept
    · rename_i returned
      rw [returned] at kept
      split <;> exact kept

theorem search_fixed : (session.search request fault).session.fixed = session.fixed := by
  have prepared := prepare_fixed session request fault
  rw [Session.search]
  split
  · rename_i returned
    rw [returned] at prepared
    exact prepared
  · rename_i returned
    rw [returned] at prepared
    split
    · exact prepared
    · exact (complete_fixed _ _ _ _).trans prepared

end

theorem serve_fixed (session : Session) (served : List (SearchRequest × Option Fault)) :
    (session.serve served).fixed = session.fixed := by
  induction served generalizing session with
  | nil => rfl
  | cons first rest hypothesis => exact (hypothesis _).trans (search_fixed session first.1 first.2)

/-- A session as its constructor leaves it. -/
structure Fresh (mode : SearchMode) (session : Session) : Prop where
  tuned : Tuned mode session.configuration
  stride : mode.isChained = true →
    Represents session.chainStridePoint (session.configuration.chains • generator)
  cells : session.chainPoints.length = session.configuration.chains
  invalid : session.chainStateValid = false

/-- The chains of a session are a scalar. -/
theorem Tuned.chains_bounds {mode : SearchMode} {configuration : Configuration} (tuned : Tuned mode configuration)
    (chained : mode.isChained = true) :
    0 < configuration.chains ∧ configuration.chains ≤ 2 ^ 41 := by
  have fits := tuned.fits
  obtain ⟨threads, chains, points⟩ := tuned.chained chained
  have resident : 0 < configuration.residentBlocks := by
    apply tuned.resident.resolve_left
    rintro rfl
    cases chained
  rw [threads] at fits
  rw [chains]
  cases points with
  | inl eight =>
    rw [eight]
    omega
  | inr sixteen =>
    rw [sixteen]
    omega

/-- The configuration is a matter of the mode and the device alone. -/
theorem create_configuration {mode : SearchMode} {device : Device} {memory : Nat → CudaChain.Point} {session : Session}
    (created : Session.create mode device memory = .ok session) :
    tuneLaunchConfiguration mode device = .ok session.configuration := by
  obtain ⟨configuration, tuned, rest⟩ := bind_eq_ok created
  cases chained : mode.isChained with
  | false =>
    simp only [chained, Bool.false_eq_true, if_false] at rest
    cases rest
    exact tuned
  | true =>
    simp only [chained, if_true] at rest
    obtain ⟨point, -, rest⟩ := bind_eq_ok rest
    cases rest
    exact tuned

theorem create_fresh {mode : SearchMode} {device : Device} {memory : Nat → CudaChain.Point} {session : Session}
    (created : Session.create mode device memory = .ok session) : Fresh mode session := by
  obtain ⟨configuration, tuned, rest⟩ := bind_eq_ok created
  have tuned := tuneLaunchConfiguration_tuned tuned
  cases chained : mode.isChained with
  | false =>
    simp only [chained, Bool.false_eq_true, if_false] at rest
    cases rest
    exact ⟨tuned, fun chain => (Bool.noConfusion (chained.symm.trans chain)), by simp, rfl⟩
  | true =>
    obtain ⟨positive, bound⟩ := tuned.chains_bounds chained
    have below : configuration.chains < groupOrder := bound.trans_lt (by norm_num [groupOrder])
    obtain ⟨point, made, represents⟩ := hostChainPointFromPublicKey_represents positive below
    simp only [chained, if_true, made] at rest
    cases rest
    exact ⟨tuned, fun _ => represents, by simp, rfl⟩

/-- With a request that a session may launch, the preparation returns. -/
theorem Launchable.prepared {request : SearchRequest} {P : CurvePoint} {start : Nat}
    (launchable : Launchable request P start) {mode : SearchMode} {session : Session}
    (tuned : Tuned mode session.configuration) : ∃ prepared, (session.prepare request none).2 = .ok prepared := by
  obtain ⟨pattern, -, valid⟩ := launchable.validated
  have undamaged : failsAt none .setDevice = none := rfl
  simp only [Session.prepare, valid, undamaged, launchable.normalizedStart]
  generalize marked : (if session.configuration.mode.isChained then { session with chainStateValid := false }
    else session) = other
  have same : other.configuration = session.configuration := by
    rw [← marked]
    split <;> rfl
  cases strided : other.configuration.gridStride request.rangeCount with
  | none => exact ⟨_, rfl⟩
  | some gridStride =>
    rw [same] at strided
    obtain ⟨positive, below⟩ := tuned.gridStride_bounds launchable.count strided
    obtain ⟨cached, point, made⟩ := stridePoint_ok other positive below
    simp only [made]
    exact ⟨_, rfl⟩

theorem prepare_refused (session : Session) {request : SearchRequest} (fault : Option Fault) {error : HostError}
    (invalid : validateRequest request = .error error) : (session.prepare request fault).2 = .error error := by
  simp only [Session.prepare, invalid]

theorem prepare_launchable {session : Session} {request : SearchRequest} {fault : Option Fault} {prepared : Prepared}
    (returned : (session.prepare request fault).2 = .ok prepared) : ∃ P start, Launchable request P start := by
  cases valid : validateRequest request with
  | error error =>
    simp only [Session.prepare, valid] at returned
    cases returned
  | ok made => exact validateRequest_launchable valid

/-- A session in any mode, after any requests, validates a request as the reference
search does, up to the limit on the count, unless the first offset of the range cancels
the public point. -/
theorem session_validates_iff {mode : SearchMode} {device : Device} {memory : Nat → CudaChain.Point} {fresh : Session}
    (created : Session.create mode device memory = .ok fresh) (served : List (SearchRequest × Option Fault))
    (request : SearchRequest) :
    ((∃ prepared, ((fresh.serve served).prepare request none).2 = .ok prepared) ↔
      (∃ result, searchCpu request = .ok result) ∧ request.rangeCount ≤ 2 ^ 26) ↔
    ¬ ∃ P start, Searchable request P start ∧ request.rangeCount ≤ 2 ^ 26 ∧ P + start • generator = 0 := by
  have fixed := serve_fixed fresh served
  have tuned := (create_fresh created).tuned
  have same : (fresh.serve served).configuration = fresh.configuration := congrArg Prod.fst fixed
  rw [← same] at tuned
  rw [searchCpu_ok_iff]
  constructor
  · rintro agree ⟨P, start, searchable, limit, cancels⟩
    obtain ⟨prepared, returned⟩ := agree.mpr ⟨⟨P, start, searchable⟩, limit⟩
    obtain ⟨Q, first, launchable⟩ := prepare_launchable returned
    obtain ⟨rfl, rfl⟩ := searchable.unique launchable.toSearchable
    exact launchable.finite cancels
  · intro finite
    constructor
    · rintro ⟨prepared, returned⟩
      obtain ⟨P, start, launchable⟩ := prepare_launchable returned
      exact ⟨⟨P, start, launchable.toSearchable⟩, launchable.limit⟩
    · rintro ⟨⟨P, start, searchable⟩, limit⟩
      have launchable : Launchable request P start :=
        ⟨searchable, limit, fun cancels => finite ⟨P, start, searchable, limit, cancels⟩⟩
      exact launchable.prepared tuned

/-- A device of one multiprocessor. -/
def smallDevice : Device where
  multiprocessors := 1
  activeBlocks threads := if threads ≤ 256 then 4 else 0
  positive := by omega
  blocksFit := by omega
  threadsFit threads := by
    split <;> omega

/-- The key of the opposite of the generator, and a range that starts where it cancels. -/
def cancellingRequest : SearchRequest where
  publicKeyHex := "0379be667ef9dcbbac55a06295ce870b07029bfcdb2dce28d959f2815b16f81798".toList
  pattern := "2x2".toList
  afterT := "Dv".toList
  suffix := "9K".toList
  rangeStart := "1".toList
  rangeCount := 2

theorem compressedBytes_opposite {a b : Residue} (onCurve : secp256k1.Nonsingular a b) (even : b.val % 2 = 0)
    (nonzero : b ≠ 0) : compressedBytes (-.some a b onCurve) = 3 :: scalarBytes a.val := by
  have parity := parity_opposite nonzero
  rw [WeierstrassCurve.Affine.Point.neg_some, compressedBytes, negY_secp256k1, if_neg (by omega)]

theorem cancellingRequest_key :
    cancellingRequest.publicKeyHex = bytesToHex (3 :: scalarBytes generatorAbscissa) := by
  decide +kernel

theorem generatorAbscissa_val : (generatorAbscissa : Residue).val = generatorAbscissa :=
  ZMod.val_natCast_of_lt (by decide)

theorem generatorOrdinate_val : (generatorOrdinate : Residue).val = generatorOrdinate :=
  ZMod.val_natCast_of_lt (by decide)

theorem generatorOrdinate_even : (generatorOrdinate : Residue).val % 2 = 0 := by
  rw [generatorOrdinate_val]
  rfl

theorem compressedBytes_generator : compressedBytes generator = 2 :: scalarBytes generatorAbscissa := by
  rw [generator, compressedBytes, if_pos generatorOrdinate_even, generatorAbscissa_val]

theorem compressedBytes_opposite_generator : compressedBytes (-generator) = 3 :: scalarBytes generatorAbscissa := by
  have nonzero : (generatorOrdinate : Residue) ≠ 0 := by
    intro zero
    have value := generatorOrdinate_val
    rw [zero, ZMod.val_zero] at value
    cases value
  rw [generator, compressedBytes_opposite generator_nonsingular generatorOrdinate_even nonzero, generatorAbscissa_val]

theorem opposite_generator_key : publicPoint cancellingRequest.publicKeyHex = .ok (-generator) := by
  rw [cancellingRequest_key, ← compressedBytes_opposite_generator]
  exact publicPoint_compressed (neg_ne_zero.mpr generator_ne_zero)

theorem cancellingRequest_searchable : Searchable cancellingRequest (-generator) 1 where
  pattern := by decide
  key := opposite_generator_key
  parsed := rfl
  count := by decide
  positive := by decide
  last := by decide

/-- A chained session comes up on every device. -/
theorem create_chained {mode : SearchMode} (chained : mode.isChained = true) (device : Device)
    (memory : Nat → CudaChain.Point) : ∃ session, Session.create mode device memory = .ok session := by
  have tunes : ∃ configuration, tuneLaunchConfiguration mode device = .ok configuration := by
    cases mode with
    | chained8 => exact ⟨_, rfl⟩
    | chained16 => exact ⟨_, rfl⟩
    | reference => cases chained
    | incremental => cases chained
    | batched => cases chained
  obtain ⟨configuration, tunes⟩ := tunes
  obtain ⟨positive, bound⟩ := (tuneLaunchConfiguration_tuned tunes).chains_bounds chained
  have below : configuration.chains < groupOrder := bound.trans_lt (by norm_num [groupOrder])
  obtain ⟨point, made, -⟩ := hostChainPointFromPublicKey_represents positive below
  rw [Session.create, tunes]
  simp only [bind, Except.bind, chained, if_true, made]
  exact ⟨_, rfl⟩

theorem cancellingRequest_refused : validateRequest cancellingRequest = .error .infiniteOffset := by
  have cancels : -generator + 1 • generator = 0 := by rw [one_nsmul, neg_add_cancel]
  exact cancellingRequest_searchable.refused (by decide) cancels

/-- No session searches the range, although the reference search does. -/
theorem session_validates_misses :
    (∀ session : Session, (session.prepare cancellingRequest none).2 = .error .infiniteOffset) ∧
    (∃ result, searchCpu cancellingRequest = .ok result) ∧ cancellingRequest.rangeCount ≤ 2 ^ 26 ∧
    ∃ session, Session.create .chained8 smallDevice (fun _ => default) = .ok session ∧
      ¬ ((∃ prepared, (session.prepare cancellingRequest none).2 = .ok prepared) ↔
        (∃ result, searchCpu cancellingRequest = .ok result) ∧ cancellingRequest.rangeCount ≤ 2 ^ 26) := by
  have accepted := (searchCpu_ok_iff cancellingRequest).mpr ⟨_, _, cancellingRequest_searchable⟩
  have limit : cancellingRequest.rangeCount ≤ 2 ^ 26 := by decide
  have refused (session : Session) : (session.prepare cancellingRequest none).2 = .error .infiniteOffset :=
    prepare_refused session none cancellingRequest_refused
  obtain ⟨session, created⟩ := create_chained (rfl : SearchMode.chained8.isChained = true) smallDevice fun _ => default
  refine ⟨refused, accepted, limit, session, created, ?_⟩
  intro agree
  obtain ⟨prepared, returned⟩ := agree.mpr ⟨accepted, limit⟩
  rw [refused session] at returned
  cases returned

/-- A chained session after a request that it refused. -/
theorem session_validates_iff_chained :
    ∃ fresh, Session.create .chained8 smallDevice (fun _ => default) = .ok fresh ∧
      (((∃ prepared, ((fresh.serve [(cancellingRequest, none)]).prepare cancellingRequest none).2 = .ok prepared) ↔
        (∃ result, searchCpu cancellingRequest = .ok result) ∧ cancellingRequest.rangeCount ≤ 2 ^ 26) ↔
      ¬ ∃ P start, Searchable cancellingRequest P start ∧ cancellingRequest.rangeCount ≤ 2 ^ 26 ∧
        P + start • generator = 0) := by
  obtain ⟨fresh, created⟩ := create_chained (rfl : SearchMode.chained8.isChained = true) smallDevice fun _ => default
  exact ⟨fresh, created, session_validates_iff created [(cancellingRequest, none)] cancellingRequest⟩

end TronForge.Native
