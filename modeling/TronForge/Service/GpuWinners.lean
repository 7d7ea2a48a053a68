import TronForge.Generator.Statuses
import TronForge.Native.GeneratedWallets

/-! A winner of a GPU on its way into the tables: the server stores whatever a session
of a worker has found for a job, and the stored key opens its address. -/

namespace TronForge.Service

open Library
open Generator (Database GenerationJob GenerationResult GenerationShard GpuDevice WorkerEvent Time Verification
  finalizeCandidate countFound countAttempts processedAfter recordEvent recordShard recordFound recordWinner deviceAfter)
open Native (Text scalarHex bytesToHex generator groupOrder pointAddress compressedBytes SearchRequest SearchResult
  Session Fault Winner)

/-- The request of a batch, as the native process reads it from its line. -/
def batchRequest (job : GenerationJob) (rangeStart : Text) (rangeCount : Nat) : SearchRequest :=
  ⟨job.clientPublicKey.toList, job.patternType.value.toList, job.addressPrefix.toList.drop 1, job.suffix.toList,
    rangeStart, rangeCount⟩

/-- The event that reports a found result under a lease. -/
structure Reports (event : WorkerEvent) (result : SearchResult) : Prop where
  eventType : event.eventType = .found
  address : event.address = some (String.ofList result.address)
  offset : event.offset = some (String.ofList result.offsetHex)

section
variable {payload : GenerationJobCreate} {secret : Nat} {job : GenerationJob}

/-- What a session finds for a job is a winner for the point of its secret. -/
theorem found_for_job (positive : 0 < secret) (below : secret < groupOrder) (created : CreatedFrom payload secret job)
    {session : Session} {rangeStart : Text} {rangeCount : Nat} {fault : Option Fault} {result : SearchResult}
    (returned : (session.search (batchRequest job rangeStart rangeCount) fault).result = .ok result)
    (found : result.found = true) :
    ∃ offset, Winner secret payload.addressPrefix.tail payload.suffix offset result := by
  have finite := Native.nsmul_generator_ne_zero positive below
  have key : (batchRequest job rangeStart rangeCount).publicKeyHex =
      bytesToHex (compressedBytes (secret • generator)) := by
    rw [batchRequest, created.clientPublicKey, String.toList_ofList]
    rfl
  have afterT : (batchRequest job rangeStart rangeCount).afterT = payload.addressPrefix.tail := by
    rw [batchRequest, created.addressPrefix, String.toList_ofList, List.drop_one]
  have suffix : (batchRequest job rangeStart rangeCount).suffix = payload.suffix := by
    rw [batchRequest, created.suffix, String.toList_ofList]
  have genuine := Native.search_genuine finite key returned found
  rwa [afterT, suffix] at genuine

end

variable {verification : Verification} {db : Database}

/-- A counted winner keeps the row of its job, but for the attempts. -/
theorem job?_countFound {job : GenerationJob} {shard : GenerationShard} (own : shard.jobId = job.id)
    (row : db.job? job.id = some job) (now : Time) (event : WorkerEvent) :
    (countFound now event shard db).job? job.id =
      some (countAttempts (processedAfter event shard - shard.processed) job) := by
  have kept : ∀ other : GenerationJob,
      (countAttempts (processedAfter event shard - shard.processed) other).id = other.id := fun _ => rfl
  have changed : Table.lookup (·.id) job.id (Table.modify (·.id) shard.jobId
      (countAttempts (processedAfter event shard - shard.processed)) db.jobs) = _ := Table.lookup_modify kept job.id
  rw [if_pos own.symm] at changed
  have known : Table.lookup (·.id) job.id db.jobs = some job := row
  rw [known] at changed
  exact changed

/-- The event of a winner stores what its finalization accepts. -/
theorem recordEvent_stores {event : WorkerEvent} {device : GpuDevice} {shard : GenerationShard}
    {address offset : String} {stored : GenerationResult} {entropy : Nat} {now : Time}
    (known : db.device? event.gpuUuid = some device) (leased : db.matchingShard event = some shard)
    (eventType : event.eventType = .found) (addressed : event.address = some address)
    (offsetKnown : event.offset = some offset)
    (finalized : finalizeCandidate verification entropy now
      (countFound now event shard (db.modifyDevice event.gpuUuid (deviceAfter now event))) shard.jobId
      (event.gpuUuid ++ ":" ++ toString event.workerPid) address offset = .accepted stored)
    (admitted : db.admits stored = true) :
    recordEvent verification entropy now event db =
      some ((countFound now event shard (db.modifyDevice event.gpuUuid (deviceAfter now event))).accept stored now) := by
  have again : (db.modifyDevice event.gpuUuid (deviceAfter now event)).matchingShard event = some shard := leased
  have admits : (countFound now event shard (db.modifyDevice event.gpuUuid (deviceAfter now event))).admits stored =
      true := admitted
  simp only [recordEvent, known, again, recordShard, eventType, recordFound, addressed, offsetKnown, recordWinner,
    finalized, admits, if_true]

/-- Whatever the session of a worker went through: what it finds for an open job without a
result is stored when its event arrives under the present lease, unless another job has
the same address. The job is then `READY`, nothing else is stored, and the stored private
key opens the found address. -/
theorem gpu_winners_stored {digits : DigitSet} {decrypt : String → Option String} {encrypt : Nat → String → String}
    (box : ∀ entropy value, decrypt (encrypt entropy value) = some value) {payload : GenerationJobCreate}
    (accepted : payload.validatePattern = .ok ()) {secret : Nat} (positive : 0 < secret) (below : secret < groupOrder)
    {job : GenerationJob} (created : CreatedFrom payload secret job) {token : String}
    (held : job.encryptedBasePrivateKey = some token)
    (share : decrypt token = some (String.ofList (createServerKeyShare secret).1)) {session : Session}
    {rangeStart : Text} {rangeCount : Nat} {fault : Option Fault} {result : SearchResult}
    (returned : (session.search (batchRequest job rangeStart rangeCount) fault).result = .ok result)
    (found : result.found = true) {event : WorkerEvent} (reports : Reports event result) {device : GpuDevice}
    {shard : GenerationShard} (known : db.device? event.gpuUuid = some device)
    (leased : db.matchingShard event = some shard) (own : shard.jobId = job.id) (row : db.job? job.id = some job)
    (accepting : job.status.accepting = true) (unfinished : db.result? job.id = none)
    (free : ∀ other ∈ db.results, other.address ≠ String.ofList result.address) (entropy : Nat) (now : Time) :
    ∃ after stored scalar, recordEvent (serverVerification digits decrypt encrypt) entropy now event db = some after ∧
      after.results = stored :: db.results ∧ stored.jobId = job.id ∧ after.status? job.id = some .ready ∧
      stored.address = String.ofList result.address ∧ 0 < scalar ∧ scalar < groupOrder ∧
      decrypt stored.encryptedPrivateKey = some (String.ofList (scalarHex scalar)) ∧
      pointAddress (scalar • generator) = result.address := by
  obtain ⟨offset, winner⟩ := found_for_job positive below created returned found
  have sum : secret • generator + offset • generator = (secret + offset) • generator := (add_nsmul _ _ _).symm
  obtain ⟨nonzero, small, reduced⟩ := reduced_scalar (sum ▸ winner.hit.1)
  have checked := @check_winner digits decrypt encrypt payload secret offset job token accepted positive below created
    held share winner.below winner.hit
  have atAddress : result.address = pointAddress ((secret + offset) • generator) := by
    rw [winner.address, sum]
  rw [← atAddress, ← winner.text] at checked
  let counted := countFound now event shard (db.modifyDevice event.gpuUuid (deviceAfter now event))
  have countedRow : counted.job? shard.jobId =
      some (countAttempts (processedAfter event shard - shard.processed) job) := by
    rw [own]
    exact job?_countFound own row now event
  have countedResult : counted.result? shard.jobId = none := by
    rw [own]
    exact unfinished
  have sameCheck : (serverVerification digits decrypt encrypt).check
      (countAttempts (processedAfter event shard - shard.processed) job) (String.ofList result.address)
      (String.ofList result.offsetHex) = _ := checked
  have still : ¬ ¬ (countAttempts (processedAfter event shard - shard.processed) job).status.accepting = true :=
    not_not.mpr accepting
  obtain ⟨stored, finalized, owner, address, key⟩ : ∃ stored,
      finalizeCandidate (serverVerification digits decrypt encrypt) entropy now counted shard.jobId
        (event.gpuUuid ++ ":" ++ toString event.workerPid) (String.ofList result.address)
        (String.ofList result.offsetHex) = .accepted stored ∧ stored.jobId = job.id ∧
      stored.address = String.ofList result.address ∧ stored.encryptedPrivateKey =
        encrypt (entropy + 1) (String.ofList (scalarHex ((secret + offset) % groupOrder))) := by
    simp only [finalizeCandidate, countedRow, countedResult, if_neg still, sameCheck]
    exact ⟨_, rfl, rfl, rfl, rfl⟩
  have admitted : db.admits stored = true := List.all_eq_true.mpr fun other member => by
    have others := Table.key_ne_of_lookup unfinished member
    have fresh := free other member
    rw [owner, address]
    simpa using ⟨others, fresh⟩
  have recorded := recordEvent_stores known leased reports.eventType reports.address reports.offset finalized admitted
  refine ⟨_, stored, (secret + offset) % groupOrder, recorded, rfl, owner, ?_, address, nonzero, small, ?_, ?_⟩
  · have statuses := (@Generator.stores_accept counted stored now).statuses job.id
    rw [if_pos owner.symm] at statuses
    rw [statuses, Database.status?, ← own, countedRow]
    rfl
  · rw [key]
    exact box _ _
  · rw [reduced, atAddress]

/-- A session finds the double of the generator for a job of the secret one. -/
theorem gpu_winner_stored_double : ∃ (db after : Database) (event : WorkerEvent) (result : SearchResult)
    (stored : GenerationResult) (scalar : Nat), Reports event result ∧
      recordEvent (serverVerification .plain some fun _ value => value) 0 0 event db = some after ∧
      after.results = stored :: db.results ∧ stored.jobId = 1 ∧ after.status? 1 = some .ready ∧
      stored.address = String.ofList result.address ∧ 0 < scalar ∧ scalar < groupOrder ∧
      some stored.encryptedPrivateKey = some (String.ofList (scalarHex scalar)) ∧
      pointAddress (scalar • generator) = result.address := by
  obtain ⟨session, created_⟩ := Native.create_chained (rfl : Native.SearchMode.chained8.isChained = true)
    Native.smallDevice fun _ => default
  have ready := (Native.create_fresh created_).ready rfl
  obtain ⟨accepted, matched⟩ := ownPayload_matches (1 • generator + 1 • generator)
  generalize ownPayload (pointAddress (1 • generator + 1 • generator)) = payload at accepted matched
  obtain ⟨-, valid⟩ := validatePattern_native accepted
  have created := createdJob_createdFrom payload 1 id 1 1 0
  have request : batchRequest (createdJob payload 1 id 1 1 0) (scalarHex 1) 1 =
      Native.doubleRequest payload.pattern.value.toList payload.addressPrefix.tail payload.suffix 1 := by
    rw [batchRequest, created.clientPublicKey, created.patternType, created.addressPrefix, created.suffix,
      String.toList_ofList, String.toList_ofList, String.toList_ofList, List.drop_one]
    rfl
  obtain ⟨result, returned, found⟩ := ready.finds_double rfl valid matched Nat.one_pos (by norm_num)
  rw [← request] at returned
  let event : WorkerEvent := {
    eventType := .found
    gpuUuid := "gpu"
    workerPid := 7
    shardId := some 1
    leaseToken := some 1
    address := some (String.ofList result.address)
    offset := some (String.ofList result.offsetHex) }
  let device : GpuDevice := ⟨"gpu", 0, "", 0, .searching, "", 0, 0, none, none, none, none⟩
  let shard : GenerationShard := {
    id := 1
    jobId := 1
    gpuUuid := "gpu"
    leaseToken := 1
    rangeStart := 1
    rangeCount := 1
    assignedAt := 0 }
  let db : Database := { jobs := [createdJob payload 1 id 1 1 0], devices := [device], shards := [shard] }
  have reports : Reports event { result with attempts := 1 } := ⟨rfl, rfl, rfl⟩
  have known : db.device? event.gpuUuid = some device := rfl
  have leased : db.matchingShard event = some shard := rfl
  have row : db.job? (createdJob payload 1 id 1 1 0).id = some (createdJob payload 1 id 1 1 0) := rfl
  obtain ⟨after, stored, scalar, outcome⟩ := @gpu_winners_stored db .plain some (fun _ value => value) (fun _ _ => rfl)
    payload accepted 1 Nat.one_pos one_lt_groupOrder (createdJob payload 1 id 1 1 0) created _ rfl rfl session (scalarHex 1) 1 none _
    returned found event reports device shard known leased rfl row rfl rfl (fun other member => by cases member) 0 0
  exact ⟨db, after, event, _, stored, scalar, reports, outcome⟩

end TronForge.Service
