import TronForge.Library.Tiling
import TronForge.Native.RequestValidation

/-! The search over all devices: a range is split evenly, and the least winner of the
shards is the winner of the range. -/

namespace TronForge.Native

open Library

/-- The shards of the devices that are left. -/
def shardLoop (request : SearchRequest) (baseCount remainder : Nat) :
    Nat → Nat → Nat → Except HostError (List SearchRequest)
  | _, _, 0 => return []
  | relativeStart, device, devices + 1 => do
    let shardCount := baseCount + if device < remainder then 1 else 0
    let rangeStart ← addToOffset request.rangeStart relativeStart
    let rest ← shardLoop request baseCount remainder (relativeStart + shardCount) (device + 1) devices
    return { request with rangeStart := rangeStart, rangeCount := shardCount } :: rest

/-- The first part of `search_cuda_all`: its checks, and the shard of every device it uses. -/
def fleetShards (request : SearchRequest) (availableDevices : Nat) : Except HostError (List SearchRequest) :=
  match validatePattern request.pattern request.afterT request.suffix with
  | .error error => throw (.pattern error)
  | .ok () =>
    if request.rangeCount = 0 then throw .noCandidates
    else do
      let _ ← addToOffset request.rangeStart (request.rangeCount - 1)
      if availableDevices < 1 then throw .noDevices
      let usedDevices := if request.rangeCount < availableDevices then request.rangeCount else availableDevices
      if 2 ^ 26 * usedDevices < request.rangeCount then throw .fleetTooMany
      shardLoop request (request.rangeCount / usedDevices) (request.rangeCount % usedDevices) 0 0 usedDevices

/-- Shards that are short for the chains of their device take batches. -/
def shardMode (mode : SearchMode) (multiprocessors rangeCount : Nat) : SearchMode :=
  if mode.isChained then
    let chains := multiprocessors * 4 * 64 * (if mode = .chained16 then 16 else 8)
    if rangeCount < chains * 4 then .batched else mode
  else mode

/-- A candidate that precedes the combined result replaces it. -/
def combine (combined candidate : SearchResult) : SearchResult :=
  if candidate.found && (!combined.found || decide (candidate.offsetHex < combined.offsetHex)) then
    { combined with found := true, address := candidate.address, offsetHex := candidate.offsetHex }
  else combined

/-- `CudaFleetSearchResult`. -/
structure FleetSearchResult where
  search : SearchResult
  availableDevices : Nat
  usedDevices : Nat
  deriving DecidableEq, Repr

/-- `search_cuda_all`, given the search of a device and the multiprocessors of the devices. -/
def searchCudaAll (searchCuda : SearchRequest → Nat → SearchMode → Except HostError SearchResult)
    (multiprocessors : List Nat) (request : SearchRequest) (mode : SearchMode) : Except HostError FleetSearchResult := do
  let shards ← fleetShards request multiprocessors.length
  let deviceResults ← shards.zipIdx.mapM fun shard =>
    searchCuda shard.1 shard.2 (shardMode mode (multiprocessors.getD shard.2 0) shard.1.rangeCount)
  return ⟨deviceResults.foldl combine ⟨false, [], [], request.rangeCount⟩, multiprocessors.length, shards.length⟩

theorem hexCharacter_lt_iff : ∀ left < 16, ∀ right < 16, hexCharacter left < hexCharacter right ↔ left < right := by
  decide

theorem hexCharacter_injective : ∀ left < 16, ∀ right < 16, hexCharacter left = hexCharacter right → left = right := by
  decide

/-- The texts of scalars are in the order of the scalars. -/
theorem scalarHex_lt_iff {left right : Nat} (fits : left < 256 ^ 32) (fitsRight : right < 256 ^ 32) :
    scalarHex left < scalarHex right ↔ left < right := by
  have power : (16 : Nat) ^ 64 = 256 ^ 32 := by norm_num
  have digits := Digits.lt_map_iff hexCharacter hexCharacter_lt_iff hexCharacter_injective
    ((Digits.length_fixed 64 left).trans (Digits.length_fixed 64 right).symm)
    (Digits.fixed_lt (by omega : 0 < 16) 64 left) (Digits.fixed_lt (by omega : 0 < 16) 64 right)
  rw [Digits.value_fixed (fits.trans_eq power.symm), Digits.value_fixed (fitsRight.trans_eq power.symm)] at digits
  rw [scalarHex_digits, scalarHex_digits]
  exact digits

/-- The shard of an interval of offsets. -/
def shardOf (request : SearchRequest) (interval : Interval) : SearchRequest :=
  { request with rangeStart := scalarHex interval.first, rangeCount := interval.count }

/-- The result is the least match from `low` up to `high`, or says that there is none. -/
def LeastOn (hit : Nat → Prop) (low high : Nat) (result : SearchResult) : Prop :=
  if result.found then
    ∃ offset, IsLeast {offset | low ≤ offset ∧ offset < high ∧ hit offset} offset ∧ result.offsetHex = scalarHex offset
  else ∀ offset, low ≤ offset → offset < high → ¬ hit offset

/-- The search of a request returned the least match of its range, or none. -/
def ReturnsLeast (hit : Nat → Prop) (request : SearchRequest) (result : SearchResult) : Prop :=
  ∃ start : Nat, parseRangeStart request.rangeStart = .ok (start : Int) ∧
    LeastOn hit start (start + request.rangeCount) result

section
variable {request : SearchRequest} {start baseCount remainder : Nat}

/-- The shards of the devices from one on tile what is left of the range. -/
theorem shardLoop_tiles (parsed : parseRangeStart request.rangeStart = .ok (start : Int)) (positive : 0 < start)
    (filled : 0 < baseCount) (devices : Nat) {relativeStart device total : Nat}
    (sum : total = devices * baseCount + (min remainder (device + devices) - min remainder device))
    (last : start + relativeStart + total ≤ groupOrder) :
    ∃ intervals, shardLoop request baseCount remainder relativeStart device devices =
        .ok (intervals.map (shardOf request)) ∧
      Tiles (start + relativeStart) intervals (start + relativeStart + total) ∧
      ∀ interval ∈ intervals, 0 < interval.count ∧
        (interval.count = baseCount ∨ interval.count = baseCount + 1 ∧ 0 < remainder) := by
  induction devices generalizing relativeStart device total with
  | zero =>
    have none_ : total = 0 := by omega
    exact ⟨[], rfl, by simp [Tiles, none_], by simp⟩
  | succ devices hypothesis =>
    generalize size : baseCount + (if device < remainder then 1 else 0) = shardCount
    have sizes : shardCount = baseCount + (min remainder (device + 1) - min remainder device) := by
      rw [← size]
      split <;> omega
    have step : total = shardCount + (devices * baseCount +
        (min remainder (device + 1 + devices) - min remainder (device + 1))) := by
      rw [Nat.succ_mul] at sum
      omega
    have moved : addToOffset request.rangeStart relativeStart = .ok (scalarHex (start + relativeStart)) := by
      rw [addToOffset_eq parsed, if_pos (by omega)]
      rfl
    have later : start + (relativeStart + shardCount) + (devices * baseCount +
        (min remainder (device + 1 + devices) - min remainder (device + 1))) ≤ groupOrder := by
      rw [step] at last
      omega
    obtain ⟨intervals, rest, tiles, counts⟩ := hypothesis rfl later
    refine ⟨⟨start + relativeStart, shardCount⟩ :: intervals, ?_, ⟨rfl, ?_⟩, ?_⟩
    · rw [shardLoop]
      simp only [bind, Except.bind, size, moved, rest]
      rfl
    · have next : (⟨start + relativeStart, shardCount⟩ : Interval).next = start + (relativeStart + shardCount) := by
        rw [Interval.next, Nat.add_assoc]
      have stop : start + relativeStart + total = start + (relativeStart + shardCount) + (devices * baseCount +
          (min remainder (device + 1 + devices) - min remainder (device + 1))) := by omega
      rw [next, stop]
      exact tiles
    · intro interval member
      cases member with
      | head => exact ⟨by simp only; omega, by simp only; omega⟩
      | tail _ inside => exact counts interval inside

/-- What the checks of an accepted request say, and its even split. -/
theorem fleetShards_ok {available : Nat} {shards : List SearchRequest}
    (accepted : fleetShards request available = .ok shards) : ∃ start usedDevices : Nat,
      parseRangeStart request.rangeStart = .ok (start : Int) ∧ 0 < start ∧ 0 < request.rangeCount ∧
      start + request.rangeCount ≤ groupOrder ∧ 0 < usedDevices ∧ usedDevices ≤ request.rangeCount ∧
      request.rangeCount ≤ 2 ^ 26 * usedDevices ∧
      shardLoop request (request.rangeCount / usedDevices) (request.rangeCount % usedDevices) 0 0 usedDevices =
        .ok shards := by
  rw [fleetShards] at accepted
  split at accepted
  · cases accepted
  · by_cases count : request.rangeCount = 0
    · rw [if_pos count] at accepted
      cases accepted
    rw [if_neg count] at accepted
    obtain ⟨text, moved, rest⟩ := bind_eq_ok accepted
    by_cases devices : available < 1
    · rw [if_pos devices] at rest
      cases rest
    rw [if_neg devices] at rest
    generalize used : (if request.rangeCount < available then request.rangeCount else available) = usedDevices at rest
    have bounds : 0 < usedDevices ∧ usedDevices ≤ request.rangeCount := by
      rw [← used]
      split <;> omega
    simp only [bind, Except.bind] at rest
    by_cases many : 2 ^ 26 * usedDevices < request.rangeCount
    · rw [if_pos many] at rest
      cases rest
    rw [if_neg many] at rest
    obtain ⟨scalar, parsed, -, last⟩ := addToOffset_ok moved
    have first : ∃ text, addToOffset request.rangeStart 0 = .ok text := by
      obtain ⟨devices, rfl⟩ := Nat.exists_eq_add_of_lt bounds.1
      obtain ⟨text, moved, -⟩ := bind_eq_ok rest
      exact ⟨text, moved⟩
    obtain ⟨text, first⟩ := first
    obtain ⟨_, again, positive, -⟩ := addToOffset_ok first
    obtain rfl := Except.ok.inj (parsed.symm.trans again)
    refine ⟨scalar.toNat, usedDevices, by rw [parsed]; congr 1; omega, by omega, by omega, by omega, bounds.1,
      bounds.2, by omega, rest⟩

/-- The shards of an accepted request tile its range, and none is empty or too long. -/
theorem fleetShards_tiles {available : Nat} {shards : List SearchRequest}
    (accepted : fleetShards request available = .ok shards) : ∃ start intervals,
      parseRangeStart request.rangeStart = .ok ((start : Nat) : Int) ∧ 0 < start ∧ 0 < request.rangeCount ∧
      start + request.rangeCount ≤ groupOrder ∧ shards = intervals.map (shardOf request) ∧
      Tiles start intervals (start + request.rangeCount) ∧
      ∀ interval ∈ intervals, 0 < interval.count ∧ interval.count ≤ 2 ^ 26 := by
  obtain ⟨start, used, parsed, positive, count, last, some_, few, limit, split⟩ := fleetShards_ok accepted
  have filled : 0 < request.rangeCount / used := Nat.div_pos few some_
  have whole := Nat.div_add_mod' request.rangeCount used
  have remainder := Nat.mod_lt request.rangeCount some_
  have sum : request.rangeCount = used * (request.rangeCount / used) +
      (min (request.rangeCount % used) (0 + used) - min (request.rangeCount % used) 0) := by
    rw [Nat.mul_comm used]
    omega
  obtain ⟨intervals, made, tiles, counts⟩ := @shardLoop_tiles request start _ (request.rangeCount % used) parsed
    positive filled used 0 0 _ sum last
  refine ⟨start, intervals, parsed, positive, count, last, Except.ok.inj (split.symm.trans made), tiles, ?_⟩
  intro interval member
  obtain ⟨positive, size⟩ := counts interval member
  refine ⟨positive, ?_⟩
  have quotient : request.rangeCount / used ≤ 2 ^ 26 := Nat.div_le_of_le_mul (by rw [Nat.mul_comm]; exact limit)
  rcases size with same | ⟨more, rest⟩
  · omega
  · have below : request.rangeCount / used < 2 ^ 26 := by
      by_contra large
      have product : 2 ^ 26 * used ≤ request.rangeCount / used * used := Nat.mul_le_mul_right _ (Nat.le_of_not_lt large)
      omega
    omega

/-- The requests of ranges below the order are accepted, up to the limit of the devices. -/
theorem fleetShards_accepts {P : CurvePoint} (searchable : Searchable request P start) {available : Nat}
    (devices : 0 < available) (limit : request.rangeCount ≤ 2 ^ 26 * min request.rangeCount available) :
    ∃ shards, fleetShards request available = .ok shards := by
  have count := searchable.count
  have last := searchable.last
  have used : (if request.rangeCount < available then request.rangeCount else available) =
      min request.rangeCount available := by
    split <;> omega
  have some_ : 0 < min request.rangeCount available := lt_min count devices
  have filled : 0 < request.rangeCount / min request.rangeCount available := Nat.div_pos (min_le_left _ _) some_
  have whole := Nat.div_add_mod' request.rangeCount (min request.rangeCount available)
  have remainder := Nat.mod_lt request.rangeCount some_
  rw [fleetShards, searchable.pattern]
  simp only [if_neg count.ne', searchable.lastOffset, bind, Except.bind, if_neg (Nat.not_lt.mpr devices), used,
    if_neg (Nat.not_lt.mpr limit)]
  generalize min request.rangeCount available = devicesUsed at *
  obtain ⟨intervals, made, -⟩ := @shardLoop_tiles request start _ (request.rangeCount % devicesUsed) searchable.parsed
    searchable.positive filled devicesUsed 0 0 _ rfl (by rw [Nat.mul_comm devicesUsed]; omega)
  exact ⟨_, made⟩

end

section
variable {hit : Nat → Prop} {low middle high : Nat} {combined candidate : SearchResult}

theorem leastOn_found (found : combined.found = true) : LeastOn hit low high combined ↔
    ∃ offset, IsLeast {offset | low ≤ offset ∧ offset < high ∧ hit offset} offset ∧
      combined.offsetHex = scalarHex offset := by
  rw [LeastOn, if_pos found]

theorem leastOn_missing (missing : combined.found = false) : LeastOn hit low high combined ↔
    ∀ offset, low ≤ offset → offset < high → ¬ hit offset := by
  rw [LeastOn, if_neg (Bool.eq_false_iff.mp missing)]

/-- A least match stays the least when later offsets are searched. -/
theorem isLeast_extend {offset : Nat} (least : IsLeast {offset | low ≤ offset ∧ offset < middle ∧ hit offset} offset)
    (ordered : middle ≤ high) : IsLeast {offset | low ≤ offset ∧ offset < high ∧ hit offset} offset := by
  obtain ⟨⟨above, below, matched⟩, lower⟩ := least
  refine ⟨⟨above, below.trans_le ordered, matched⟩, ?_⟩
  rintro other ⟨otherAbove, -, otherMatched⟩
  by_cases inside : other < middle
  · exact lower ⟨otherAbove, inside, otherMatched⟩
  · omega

/-- The combination of a result with the one of the offsets after it. -/
theorem combine_least (before : LeastOn hit low middle combined) (after : LeastOn hit middle high candidate)
    (lowOrdered : low ≤ middle) (ordered : middle ≤ high) (fits : high ≤ groupOrder) :
    LeastOn hit low high (combine combined candidate) := by
  have order := groupOrder_lt
  cases found : combined.found with
  | true =>
    obtain ⟨offset, least, text⟩ := (leastOn_found found).mp before
    have kept : combine combined candidate = combined := by
      cases candidateFound : candidate.found with
      | false => simp [combine, candidateFound]
      | true =>
        obtain ⟨later, laterLeast, laterText⟩ := (leastOn_found candidateFound).mp after
        obtain ⟨-, below, -⟩ := least.1
        obtain ⟨above, laterBelow, -⟩ := laterLeast.1
        have notBefore : ¬ candidate.offsetHex < combined.offsetHex := by
          rw [text, laterText, scalarHex_lt_iff (by omega) (by omega)]
          omega
        simp [combine, found, notBefore]
    rw [kept]
    exact (leastOn_found found).mpr ⟨offset, isLeast_extend least ordered, text⟩
  | false =>
    have misses := (leastOn_missing found).mp before
    cases candidateFound : candidate.found with
    | false =>
      have laterMisses := (leastOn_missing candidateFound).mp after
      have kept : combine combined candidate = combined := by simp [combine, candidateFound]
      rw [kept]
      apply (leastOn_missing found).mpr
      intro offset above below
      by_cases early : offset < middle
      · exact misses offset above early
      · exact laterMisses offset (Nat.le_of_not_lt early) below
    | true =>
      obtain ⟨offset, ⟨⟨above, below, matched⟩, lower⟩, text⟩ := (leastOn_found candidateFound).mp after
      have taken : combine combined candidate =
          { combined with found := true, address := candidate.address, offsetHex := candidate.offsetHex } := by
        simp [combine, candidateFound, found]
      rw [taken, leastOn_found rfl]
      refine ⟨offset, ⟨⟨lowOrdered.trans above, below, matched⟩, ?_⟩, text⟩
      rintro other ⟨otherAbove, otherBelow, otherMatched⟩
      by_cases early : other < middle
      · exact absurd otherMatched (misses other otherAbove early)
      · exact lower ⟨Nat.le_of_not_lt early, otherBelow, otherMatched⟩

/-- The combination of the results of tiling intervals. -/
theorem foldl_combine_least {intervals : List Interval} {results : List SearchResult}
    (good : List.Forall₂ (fun interval result => LeastOn hit interval.first interval.next result) intervals results)
    (tiles : Tiles middle intervals high) (before : LeastOn hit low middle combined) (ordered : low ≤ middle)
    (fits : high ≤ groupOrder) : LeastOn hit low high (results.foldl combine combined) := by
  induction good generalizing middle combined with
  | nil =>
    obtain rfl : middle = high := tiles
    exact before
  | @cons interval result _ _ least _ hypothesis =>
    obtain ⟨rfl, tail⟩ := tiles
    have step : interval.first ≤ interval.next := Nat.le_add_right _ _
    exact hypothesis tail (combine_least before least ordered step (tail.le.trans fits)) (ordered.trans step)

end

/-- The shards of an accepted request are not empty, pairwise apart, short enough for a
device, and have exactly the offsets of the request. Where the search of each shard
returns its least match, the combined result is the least match of the whole range. -/
theorem fleet_search_exact {request : SearchRequest} {multiprocessors : List Nat} {shards : List SearchRequest}
    (accepted : fleetShards request multiprocessors.length = .ok shards) :
    (∃ start : Nat, ∃ intervals : List Interval, parseRangeStart request.rangeStart = .ok (start : Int) ∧
      shards = intervals.map (shardOf request) ∧
      (∀ interval ∈ intervals, 0 < interval.count ∧ interval.count ≤ 2 ^ 26) ∧
      intervals.Pairwise Interval.Apart ∧
      ∀ offset, (∃ interval ∈ intervals, interval.Has offset) ↔
        start ≤ offset ∧ offset ≤ start + request.rangeCount - 1) ∧
    (∀ left < groupOrder, ∀ right < groupOrder, scalarHex left < scalarHex right ↔ left < right) ∧
    ∀ searchCuda mode hit,
      (∀ shard ∈ shards.zipIdx, ∃ result,
        searchCuda shard.1 shard.2 (shardMode mode (multiprocessors.getD shard.2 0) shard.1.rangeCount) = .ok result ∧
          ReturnsLeast hit shard.1 result) →
      ∃ fleet, searchCudaAll searchCuda multiprocessors request mode = .ok fleet ∧
        ReturnsLeast hit request fleet.search := by
  have order := groupOrder_lt
  obtain ⟨start, intervals, parsed, positive, count, last, made, tiles, counts⟩ := fleetShards_tiles accepted
  refine ⟨⟨start, intervals, parsed, made, counts, tiles.pairwise_apart, ?_⟩, ?_, ?_⟩
  · intro offset
    rw [tiles.has_iff]
    omega
  · intro left below right rightBelow
    exact scalarHex_lt_iff (below.trans order) (rightBelow.trans order)
  · intro searchCuda mode hit searched
    obtain ⟨results, ran, good⟩ := mapM_forall₂ searched
    refine ⟨⟨results.foldl combine ⟨false, [], [], request.rangeCount⟩, multiprocessors.length, shards.length⟩, ?_,
      start, parsed, ?_⟩
    · rw [searchCudaAll, accepted]
      simp only [bind, Except.bind, ran]
      rfl
    · have onShards : List.Forall₂ (ReturnsLeast hit) (shards.zipIdx.map Prod.fst) results :=
        List.forall₂_map_left_iff.mpr good
      rw [List.zipIdx_map_fst, made, List.forall₂_map_left_iff] at onShards
      have onIntervals : List.Forall₂ (fun interval result => LeastOn hit interval.first interval.next result)
          intervals results := by
        have bounded : ∀ interval ∈ intervals, interval.first < groupOrder := by
          intro interval member
          have high := (tiles.within member).2
          have filled := (counts interval member).1
          rw [Interval.next] at high
          omega
        refine ((List.forall₂_and_left _ _).mpr ⟨bounded, onShards⟩).imp ?_
        rintro interval result ⟨below, first, shardParsed, least⟩
        have same := Except.ok.inj (shardParsed.symm.trans (parseRangeStart_scalarHex (below.trans order)))
        rw [Nat.cast_inj] at same
        rw [same] at least
        exact least
      have nothing : LeastOn hit start start (⟨false, [], [], request.rangeCount⟩ : SearchResult) :=
        (leastOn_missing rfl).mpr fun offset above below => absurd (above.trans_lt below) (Nat.lt_irrefl _)
      exact foldl_combine_least onIntervals tiles nothing le_rfl last

/-- Two candidates for three devices, where every offset matches. -/
theorem fleet_search_exact_two : ∃ shards, fleetShards cancellingRequest [1, 1, 1].length = .ok shards ∧
    (∀ left < groupOrder, ∀ right < groupOrder, scalarHex left < scalarHex right ↔ left < right) ∧
    ∃ fleet, searchCudaAll (fun shard _ _ => .ok ⟨true, [], shard.rangeStart, shard.rangeCount⟩) [1, 1, 1]
        cancellingRequest .batched = .ok fleet ∧ ReturnsLeast (fun _ => True) cancellingRequest fleet.search := by
  obtain ⟨shards, accepted⟩ := fleetShards_accepts cancellingRequest_searchable (by decide : 0 < [1, 1, 1].length)
    (by decide)
  obtain ⟨⟨start, intervals, parsed, made, counts, -, has⟩, order, combined⟩ := fleet_search_exact accepted
  refine ⟨shards, accepted, order, combined _ .batched _ ?_⟩
  intro shard member
  refine ⟨_, rfl, ?_⟩
  have inside : shard.1 ∈ shards := List.fst_mem_of_mem_zipIdx member
  rw [made, List.mem_map] at inside
  obtain ⟨interval, member, same⟩ := inside
  have filled := (counts interval member).1
  have below : interval.first < 256 ^ 32 := by
    have last := ((has interval.first).mp ⟨interval, member, le_rfl, Nat.lt_add_of_pos_right filled⟩).2
    have two : cancellingRequest.rangeCount = 2 := rfl
    have one : start = 1 := by
      have parsedOne := Except.ok.inj (parsed.symm.trans cancellingRequest_searchable.parsed)
      omega
    omega
  rw [← same]
  refine ⟨interval.first, parseRangeStart_scalarHex below,
    (leastOn_found rfl).mpr ⟨interval.first, ⟨⟨le_rfl, ?_, trivial⟩, ?_⟩, rfl⟩⟩
  · exact Nat.lt_add_of_pos_right filled
  · exact fun other inside => inside.1

end TronForge.Native
