import TronForge.Generator.Ranges

/-! What the transactions leave of a job's request and of a stored result: both stay
as they are, and a result is only stored after the checks of its own job. -/

namespace TronForge.Generator

open Library

variable {verification : Verification} {db middle after : Database}

/-- The columns of a job that `create_job` writes for good. -/
structure StoredRequest where
  id : JobId
  userId : UserId
  patternType : PatternType
  addressPrefix : String
  suffix : String
  clientPublicKey : String
  encryptedBasePrivateKey : Option String
  matchSpec : MatchSpec
  createdAt : Time
  deriving DecidableEq, Repr

def GenerationJob.request (job : GenerationJob) : StoredRequest where
  id := job.id
  userId := job.userId
  patternType := job.patternType
  addressPrefix := job.addressPrefix
  suffix := job.suffix
  clientPublicKey := job.clientPublicKey
  encryptedBasePrivateKey := job.encryptedBasePrivateKey
  matchSpec := job.matchSpec
  createdAt := job.createdAt

/-- Requests and results are left as they are. -/
structure KeepsRequests (db after : Database) : Prop where
  requests : after.jobs.map GenerationJob.request = db.jobs.map GenerationJob.request
  results : after.results = db.results

theorem KeepsRequests.refl (db : Database) : KeepsRequests db db := ⟨rfl, rfl⟩

theorem KeepsRequests.trans (first : KeepsRequests db middle) (second : KeepsRequests middle after) :
    KeepsRequests db after :=
  ⟨second.requests.trans first.requests, second.results.trans first.results⟩

theorem requests_map {change : GenerationJob → GenerationJob} (kept : ∀ job, (change job).request = job.request)
    (jobs : List GenerationJob) :
    (jobs.map change).map GenerationJob.request = jobs.map GenerationJob.request := by
  rw [List.map_map]
  exact List.map_congr_left fun job _ => kept job

theorem keepsRequests_modifyJob (jobId : JobId) {change : GenerationJob → GenerationJob}
    (kept : ∀ job, (change job).request = job.request) : KeepsRequests db (db.modifyJob jobId change) := by
  refine ⟨requests_map ?_ db.jobs, rfl⟩
  intro job
  split
  · exact kept job
  · rfl

theorem keepsRequests_modifyDevice (uuid : GpuUuid) (change : GpuDevice → GpuDevice) :
    KeepsRequests db (db.modifyDevice uuid change) :=
  ⟨rfl, rfl⟩

theorem keepsRequests_modifyShard (id : ShardId) (change : GenerationShard → GenerationShard) :
    KeepsRequests db (db.modifyShard id change) :=
  ⟨rfl, rfl⟩

theorem keepsRequests_countFound (now : Time) (event : WorkerEvent) (shard : GenerationShard) :
    KeepsRequests db (countFound now event shard db) :=
  (keepsRequests_modifyShard _ _).trans (keepsRequests_modifyJob _ fun _ => rfl)

theorem keepsRequests_rejectWinner (event : WorkerEvent) (shard : GenerationShard) (message : String) (now : Time) :
    KeepsRequests db (rejectWinner event shard message now db) :=
  ((keepsRequests_modifyShard _ _).trans (keepsRequests_modifyDevice _ _)).trans
    (keepsRequests_modifyJob _ fun _ => rfl)

theorem keepsRequests_initializeDevices (devices : List GpuInfo) : KeepsRequests db (initializeDevices devices db) := by
  have registered : ∀ current : Database, KeepsRequests db current →
      KeepsRequests db (devices.foldl register current) := by
    induction devices with
    | nil => exact fun _ kept => kept
    | cons info rest ih =>
      intro current kept
      apply ih
      refine kept.trans ?_
      unfold register
      split
      · exact keepsRequests_modifyDevice _ _
      · exact ⟨rfl, rfl⟩
  exact registered _ ⟨rfl, rfl⟩

theorem requeue_request (job : GenerationJob) : (requeue job).request = job.request := by
  unfold requeue
  split <;> rfl

theorem keepsRequests_recover (now : Time) : KeepsRequests db (recoverInterruptedWork now db) :=
  ⟨requests_map requeue_request db.jobs, rfl⟩

theorem keepsRequests_claim (combinedRate timeoutSeconds : Nat) (now : Time) (draw : Fin (secp256k1Order - 1))
    (locked : JobId → Bool) : KeepsRequests db (claimNextJob combinedRate timeoutSeconds now draw locked db).2 := by
  rcases claimNextJob_cases db combinedRate timeoutSeconds now draw locked with same | ⟨-, job, -, same⟩
  · rw [same]
    exact .refl db
  · rw [same]
    exact keepsRequests_modifyJob _ fun _ => rfl

theorem keepsRequests_allocate {jobId : JobId} {gpuUuid : GpuUuid} {shardSeconds kernelBatchMs : Nat} {lease : Lease}
    (committed : (allocateShard jobId gpuUuid shardSeconds kernelBatchMs lease db).committed db = some after) :
    KeepsRequests db after := by
  unfold allocateShard at committed
  split at committed
  · split at committed
    · cases committed
      exact .refl db
    · split at committed
      · cases committed
        exact .refl db
      · simp only at committed
        split at committed
        · cases committed
          exact keepsRequests_modifyJob _ fun _ => rfl
        · split at committed
          · cases committed
          · cases committed
            refine KeepsRequests.trans ?_ (keepsRequests_modifyDevice _ _)
            refine KeepsRequests.trans ?_ (keepsRequests_modifyJob _ fun _ => rfl)
            exact ⟨rfl, rfl⟩
  · cases committed
    exact .refl db

theorem keepsRequests_activeJobStatus (now : Time) (jobId : JobId) :
    KeepsRequests db (activeJobStatus now jobId db).2 := by
  unfold activeJobStatus
  split
  · exact .refl db
  · split
    · exact keepsRequests_modifyJob _ fun _ => rfl
    · exact .refl db

theorem keepsRequests_cancelJob (user : UserId) (now : Time) (jobId : JobId) :
    KeepsRequests db (cancelJob user now jobId db).2 := by
  unfold cancelJob
  split
  · exact .refl db
  · split
    · exact .refl db
    · split
      · exact .refl db
      · exact keepsRequests_modifyJob _ fun _ => rfl

/-- A candidate was finalized and committed. -/
structure StoresCandidate (verification : Verification) (result : GenerationResult) (db after : Database) : Prop where
  finalized : ∃ entropy now jobId workerId address offset,
    finalizeCandidate verification entropy now db jobId workerId address offset = .accepted result
  admitted : db.admits result = true
  stored : ∃ now, after = db.accept result now

/-- What a transaction does with requests and results: nothing, or it stores one
candidate after other changes. -/
def MayStore (verification : Verification) (db after : Database) : Prop :=
  KeepsRequests db after ∨
    ∃ middle result, KeepsRequests db middle ∧ StoresCandidate verification result middle after

theorem KeepsRequests.thenMayStore (first : KeepsRequests db middle) (second : MayStore verification middle after) :
    MayStore verification db after := by
  rcases second with kept | ⟨between, result, kept, stores⟩
  · exact .inl (first.trans kept)
  · exact .inr ⟨between, result, first.trans kept, stores⟩

theorem mayStore_submitCandidate {entropy : Nat} {now : Time} {jobId : JobId} {workerId address offset : String}
    (submitted : submitCandidate verification entropy now jobId workerId address offset db = some after) :
    MayStore verification db after := by
  unfold submitCandidate at submitted
  split at submitted
  · rename_i result finalized
    split at submitted
    · rename_i admitted
      cases submitted
      exact .inr ⟨db, result, .refl db, ⟨_, _, _, _, _, _, finalized⟩, admitted, _, rfl⟩
    · cases submitted
  · cases submitted
  · cases submitted
    exact .inl (.refl db)

theorem mayStore_recordWinner {entropy : Nat} {now : Time} {event : WorkerEvent} {shard : GenerationShard}
    {address offset : String}
    (recorded : recordWinner verification entropy now event shard address offset db = some after) :
    MayStore verification db after := by
  unfold recordWinner at recorded
  split at recorded
  · cases recorded
  · cases recorded
    exact .inl (keepsRequests_modifyShard _ _)
  · cases recorded
    exact .inl (keepsRequests_rejectWinner ..)
  · cases recorded
    exact .inl (keepsRequests_rejectWinner ..)
  · cases recorded
    exact .inl (.refl db)
  · rename_i result finalized
    split at recorded
    · rename_i admitted
      cases recorded
      exact .inr ⟨db, result, .refl db, ⟨_, _, _, _, _, _, finalized⟩, admitted, _, rfl⟩
    · cases recorded

theorem mayStore_recordShard {entropy : Nat} {now : Time} {event : WorkerEvent} {shard : GenerationShard}
    (recorded : recordShard verification entropy now event shard db = some after) :
    MayStore verification db after := by
  unfold recordShard at recorded
  split at recorded
  case h_2 =>
    cases recorded
    exact .inl ((keepsRequests_modifyShard _ _).trans (keepsRequests_modifyJob _ fun _ => rfl))
  case h_4 =>
    have counted : KeepsRequests db (countFound now event shard db) := keepsRequests_countFound now event shard
    unfold recordFound at recorded
    split at recorded
    · exact counted.thenMayStore (mayStore_recordWinner recorded)
    · cases recorded
      exact .inl (counted.trans (keepsRequests_rejectWinner ..))
  case h_7 =>
    cases recorded
    exact .inl (.refl db)
  all_goals
    cases recorded
    exact .inl (keepsRequests_modifyShard _ _)

theorem mayStore_recordEvent {entropy : Nat} {now : Time} {event : WorkerEvent}
    (recorded : recordEvent verification entropy now event db = some after) : MayStore verification db after := by
  unfold recordEvent at recorded
  split at recorded
  · cases recorded
    exact .inl (.refl db)
  · have noted : KeepsRequests db (db.modifyDevice event.gpuUuid (deviceAfter now event)) :=
      keepsRequests_modifyDevice _ _
    simp only at recorded
    split at recorded
    · cases recorded
      exact .inl noted
    · exact noted.thenMayStore (mayStore_recordShard recorded)

/-- Every transaction adds a request, or leaves the requests and stores at most one candidate. -/
theorem perform_stores {operation : Operation} (performed : perform verification operation db = some after) :
    (∃ job, operation = .create job ∧ Created db job ∧ after = { db with jobs := job :: db.jobs }) ∨
      MayStore verification db after := by
  cases operation with
  | create job =>
    simp only [perform] at performed
    split at performed
    · rename_i created
      cases performed
      exact .inl ⟨job, rfl, created, rfl⟩
    · cases performed
  | boot devices =>
    cases performed
    exact .inr (.inl (keepsRequests_initializeDevices devices))
  | recover now =>
    cases performed
    exact .inr (.inl (keepsRequests_recover now))
  | claim combinedRate timeoutSeconds now draw locked =>
    cases performed
    exact .inr (.inl (keepsRequests_claim combinedRate timeoutSeconds now draw locked))
  | allocate jobId gpuUuid shardSeconds kernelBatchMs lease =>
    simp only [perform] at performed
    split at performed
    · exact .inr (.inl (keepsRequests_allocate performed))
    · cases performed
  | record event entropy now => exact .inr (mayStore_recordEvent performed)
  | check jobId now =>
    cases performed
    exact .inr (.inl (keepsRequests_activeJobStatus now jobId))
  | cancel user jobId now =>
    cases performed
    exact .inr (.inl (keepsRequests_cancelJob user now jobId))
  | submit jobId workerId address offset entropy now => exact .inr (mayStore_submitCandidate performed)
  | offline =>
    cases performed
    exact .inr (.inl ⟨rfl, rfl⟩)

/-- A result that the checks of the requested job let through. -/
def Backed (verification : Verification) (request : StoredRequest) (result : GenerationResult) : Prop :=
  request.id = result.jobId ∧ ∃ job : GenerationJob, job.request = request ∧
    ∃ address offset privateKey entropy,
      verification.check job address offset = some (.ok (result.address, privateKey)) ∧
      result.encryptedOffset = verification.encrypt entropy offset ∧
      result.encryptedPrivateKey = verification.encrypt (entropy + 1) privateKey

/-- The stored requests and results: every request is acceptable, every result stands
behind one, and no job or address has two. -/
structure ResultsSound (verification : Verification) (acceptable : StoredRequest → Prop) (db : Database) : Prop where
  ids : Table.Unique StoredRequest.id (db.jobs.map GenerationJob.request)
  requests : ∀ request ∈ db.jobs.map GenerationJob.request, acceptable request
  backed : ∀ result ∈ db.results, ∃ request ∈ db.jobs.map GenerationJob.request, Backed verification request result
  jobs : Table.Unique GenerationResult.jobId db.results
  addresses : Table.Unique GenerationResult.address db.results

variable {acceptable : StoredRequest → Prop}

theorem ResultsSound.keeps (sound : ResultsSound verification acceptable db) (kept : KeepsRequests db after) :
    ResultsSound verification acceptable after := by
  obtain ⟨requests, results⟩ := kept
  constructor
  · rw [requests]
    exact sound.ids
  · rw [requests]
    exact sound.requests
  · rw [requests, results]
    exact sound.backed
  · rw [results]
    exact sound.jobs
  · rw [results]
    exact sound.addresses

theorem ResultsSound.create (sound : ResultsSound verification acceptable db) {job : GenerationJob}
    (created : Created db job) (fine : acceptable job.request) :
    ResultsSound verification acceptable { db with jobs := job :: db.jobs } := by
  refine ⟨List.nodup_cons.mpr ⟨?_, sound.ids⟩, ?_, ?_, sound.jobs, sound.addresses⟩
  · intro taken
    simp only [List.map_map, List.mem_map] at taken
    obtain ⟨other, member, same⟩ := taken
    exact created.2.2.2 other member same
  · exact List.forall_mem_cons.mpr ⟨fine, sound.requests⟩
  · intro result member
    obtain ⟨request, present, backed⟩ := sound.backed result member
    exact ⟨request, List.mem_cons_of_mem _ present, backed⟩

theorem finalizeCandidate_backed {entropy : Nat} {now : Time} {jobId : JobId} {workerId address offset : String}
    {result : GenerationResult}
    (finalized : finalizeCandidate verification entropy now db jobId workerId address offset = .accepted result) :
    ∃ job ∈ db.jobs, Backed verification job.request result := by
  unfold finalizeCandidate at finalized
  split at finalized
  · cases finalized
  · rename_i job known
    split at finalized
    · cases finalized
    · split at finalized
      · cases finalized
      · split at finalized
        · cases finalized
        · cases finalized
        · rename_i checked
          cases finalized
          exact ⟨job, Table.mem_of_lookup known, rfl, job, rfl, _, _, _, _, checked, rfl, rfl⟩

theorem ResultsSound.stores (sound : ResultsSound verification acceptable db) {result : GenerationResult}
    (stores : StoresCandidate verification result db after) : ResultsSound verification acceptable after := by
  obtain ⟨⟨entropy, now, jobId, workerId, address, offset, finalized⟩, admitted, then_, same⟩ := stores
  obtain ⟨job, member, backed⟩ := finalizeCandidate_backed finalized
  have fresh : ∀ other ∈ db.results, other.jobId ≠ result.jobId ∧ other.address ≠ result.address := by
    intro other present
    have admits := List.all_eq_true.mp admitted other present
    simpa using admits
  have modified : KeepsRequests db (db.modifyJob result.jobId fun job =>
      { job with status := .ready, completedAt := some then_ }) := keepsRequests_modifyJob _ fun _ => rfl
  have requests : after.jobs.map GenerationJob.request = db.jobs.map GenerationJob.request := by
    rw [same]
    exact modified.requests
  have results : after.results = result :: db.results := by
    rw [same]
    rfl
  constructor
  · rw [requests]
    exact sound.ids
  · rw [requests]
    exact sound.requests
  · rw [requests, results]
    exact List.forall_mem_cons.mpr ⟨⟨job.request, List.mem_map_of_mem member, backed⟩, sound.backed⟩
  · rw [results]
    refine List.nodup_cons.mpr ⟨?_, sound.jobs⟩
    intro taken
    obtain ⟨other, present, same_⟩ := List.mem_map.mp taken
    exact (fresh other present).1 same_
  · rw [results]
    refine List.nodup_cons.mpr ⟨?_, sound.addresses⟩
    intro taken
    obtain ⟨other, present, same_⟩ := List.mem_map.mp taken
    exact (fresh other present).2 same_

theorem ResultsSound.perform (sound : ResultsSound verification acceptable db) {operation : Operation}
    (fine : ∀ job, operation = .create job → acceptable job.request)
    (performed : perform verification operation db = some after) : ResultsSound verification acceptable after := by
  rcases perform_stores performed with ⟨job, created, new, rfl⟩ | kept | ⟨middle, result, kept, stores⟩
  · exact sound.create new (fine job created)
  · exact sound.keeps kept
  · exact (sound.keeps kept).stores stores

theorem resultsSound_empty : ResultsSound verification acceptable {} where
  ids := List.nodup_nil
  requests := fun request member => by cases member
  backed := fun result member => by cases member
  jobs := List.nodup_nil
  addresses := List.nodup_nil

/-- A stored result is never changed or removed, and a request neither. -/
theorem perform_keeps {operation : Operation} (performed : perform verification operation db = some after) :
    (∀ result ∈ db.results, result ∈ after.results) ∧
      ∀ request ∈ db.jobs.map GenerationJob.request, request ∈ after.jobs.map GenerationJob.request := by
  rcases perform_stores performed with ⟨job, -, -, rfl⟩ | kept | ⟨middle, result, kept, stores⟩
  · exact ⟨fun _ member => member, fun _ member => List.mem_cons_of_mem _ member⟩
  · rw [kept.requests, kept.results]
    exact ⟨fun _ member => member, fun _ member => member⟩
  · obtain ⟨-, -, then_, rfl⟩ := stores
    have modified : KeepsRequests middle (middle.modifyJob result.jobId fun job =>
        { job with status := .ready, completedAt := some then_ }) := keepsRequests_modifyJob _ fun _ => rfl
    constructor
    · intro other member
      exact List.mem_cons_of_mem _ (kept.results ▸ member)
    · intro request member
      rw [← kept.requests, ← modified.requests] at member
      exact member

end TronForge.Generator
