import TronForge.Generator.Ranges
import TronForge.Generator.Sessions

/-! What an operation leaves in the view of its session: one job, whose status
is the one that the operation's own checks of the loaded row lead to, and a new
result only together with `READY`. -/

namespace TronForge.Generator

open Library

variable {verification : Verification}

/-- The tables hold one job, as in the view of a session. -/
structure Solo (db : Database) (job : GenerationJob) (results : List GenerationResult) : Prop where
  jobs : db.jobs = [job]
  results : db.results = results

section Solo

variable {db : Database} {job : GenerationJob} {results : List GenerationResult}

theorem Solo.modifyJob (solo : Solo db job results) (id : JobId)
    (change : GenerationJob → GenerationJob) :
    Solo (db.modifyJob id change) (if job.id = id then change job else job) results :=
  ⟨by simp [Database.modifyJob, Table.modify, solo.jobs], solo.results⟩

theorem Solo.modifyDevice (solo : Solo db job results) (uuid : GpuUuid) (change : GpuDevice → GpuDevice) :
    Solo (db.modifyDevice uuid change) job results :=
  ⟨solo.jobs, solo.results⟩

theorem Solo.modifyShard (solo : Solo db job results) (id : ShardId)
    (change : GenerationShard → GenerationShard) : Solo (db.modifyShard id change) job results :=
  ⟨solo.jobs, solo.results⟩

theorem Solo.initializeDevices (solo : Solo db job results) (devices : List GpuInfo) :
    Solo (initializeDevices devices db) job results := by
  have registered : ∀ current : Database, Solo current job results →
      Solo (devices.foldl register current) job results := by
    induction devices with
    | nil => exact fun _ solo => solo
    | cons info rest ih =>
      intro current solo
      apply ih
      unfold register
      split
      · exact solo.modifyDevice _ _
      · exact ⟨solo.jobs, solo.results⟩
  exact registered _ ⟨solo.jobs, solo.results⟩

theorem Solo.job? (solo : Solo db job results) (id : JobId) :
    db.job? id = if job.id = id then some job else none := by
  by_cases own : job.id = id <;> simp [Database.job?, Table.lookup, solo.jobs, own]

end Solo

theorem Session.solo (session : Session) : Solo session.view session.loaded session.seen.toList :=
  ⟨rfl, rfl⟩

/-- The status the checks of `finalize_candidate` lead to, from the job and the
results as they were read. -/
def winnerAim (verification : Verification) (db : Database) (job : GenerationJob)
    (address offset : String) : Option JobStatus :=
  if db.result? job.id = none ∧ job.status.accepting = true then
    match verification.check job address offset with
    | none => none
    | some (.error _) => some .failed
    | some (.ok _) => some .ready
  else none

/-- The status a winner event aims at. -/
def foundAim (verification : Verification) (db : Database) (job : GenerationJob) (event : WorkerEvent)
    (shard : GenerationShard) : Option JobStatus :=
  if job.id = shard.jobId then
    match event.address, event.offset with
    | some address, some offset => winnerAim verification db job address offset
    | _, _ => some .failed
  else none

/-- The status that an operation which reads the job without its lock sets, if
its own checks of what it read let it set one. -/
def Session.aim (verification : Verification) (session : Session) : Option JobStatus :=
  match session.operation with
  | .cancel user jobId _ =>
    if session.loaded.id = jobId ∧ session.loaded.userId = user ∧
      session.loaded.status.terminal = false then some .canceled else none
  | .check jobId now =>
    if session.loaded.id = jobId ∧ overdue now session.loaded = true then some .timedOut else none
  | .recover _ => if session.loaded.status.active then some .queued else none
  | .record event _ _ =>
    match session.view.device? event.gpuUuid, session.view.matchingShard event, event.eventType with
    | some _, some shard, .found =>
      foundAim verification session.view session.loaded event shard
    | _, _, _ => none
  | _ => none

/-- What an operation leaves in a view: the job with its status as aimed at, and
a new result only together with `READY`. -/
structure Leaves (aim : Option JobStatus) (loaded : GenerationJob) (results : List GenerationResult)
    (after : Database) (changed : GenerationJob) : Prop where
  jobs : after.jobs = [changed]
  id : changed.id = loaded.id
  status : changed.status = aim.getD loaded.status
  results : after.results = results ∨ aim = some .ready ∧ ∃ result, after.results = result :: results

section Solo

variable {db : Database} {job : GenerationJob} {results : List GenerationResult}

theorem Solo.leaves {loaded : GenerationJob} {aim : Option JobStatus} (solo : Solo db job results)
    (id : job.id = loaded.id) (status : job.status = aim.getD loaded.status) :
    Leaves aim loaded results db job :=
  ⟨solo.jobs, id, status, .inl solo.results⟩

theorem leaves_cancel (solo : Solo db job results) (user : UserId) (jobId : JobId) (now : Time) :
    ∃ changed, Leaves (if job.id = jobId ∧ job.userId = user ∧ job.status.terminal = false then
      some .canceled else none) job results (cancelJob user now jobId db).2 changed := by
  by_cases own : job.id = jobId ∧ job.userId = user
  · obtain ⟨same, owner⟩ := own
    have known : db.ownedJob? user jobId = some job := by
      simp [Database.ownedJob?, solo.job?, same, owner]
    cases terminal : job.status.terminal with
    | true =>
      have outcome : (cancelJob user now jobId db).2 = db := by
        simp only [cancelJob, known, terminal, ↓reduceIte]
        split <;> rfl
      rw [outcome]
      exact ⟨job, solo.leaves rfl (by simp)⟩
    | false =>
      have notCanceled : job.status ≠ .canceled := by
        intro canceled
        simp [canceled, JobStatus.terminal] at terminal
      have outcome : (cancelJob user now jobId db).2 = db.modifyJob jobId fun job =>
          { job with status := .canceled, completedAt := some now } := by
        simp [cancelJob, known, notCanceled, terminal]
      rw [outcome]
      exact ⟨_, (solo.modifyJob jobId _).leaves (by simp [same]) (by simp [same, owner])⟩
  · have unknown : db.ownedJob? user jobId = none := by
      rw [Database.ownedJob?, solo.job?]
      by_cases same : job.id = jobId
      · have stranger : job.userId ≠ user := fun owner => own ⟨same, owner⟩
        simp [same, stranger]
      · simp [same]
    have outcome : (cancelJob user now jobId db).2 = db := by simp [cancelJob, unknown]
    have notOwn : ¬ (job.id = jobId ∧ job.userId = user ∧ job.status.terminal = false) :=
      fun all => own ⟨all.1, all.2.1⟩
    rw [outcome]
    exact ⟨job, solo.leaves rfl (by simp [notOwn])⟩

theorem leaves_check (solo : Solo db job results) (jobId : JobId) (now : Time) :
    ∃ changed, Leaves (if job.id = jobId ∧ overdue now job = true then some .timedOut else none) job
      results (activeJobStatus now jobId db).2 changed := by
  by_cases own : job.id = jobId
  · by_cases late : overdue now job = true
    · have outcome : (activeJobStatus now jobId db).2 = db.modifyJob jobId fun job =>
          { job with status := .timedOut, completedAt := some now } := by
        simp [activeJobStatus, solo.job?, own, late]
      rw [outcome]
      exact ⟨_, (solo.modifyJob jobId _).leaves (by simp [own]) (by simp [own, late])⟩
    · have outcome : (activeJobStatus now jobId db).2 = db := by
        simp [activeJobStatus, solo.job?, own, late]
      rw [outcome]
      exact ⟨job, solo.leaves rfl (by simp [late])⟩
  · have outcome : (activeJobStatus now jobId db).2 = db := by
      simp [activeJobStatus, solo.job?, own]
    rw [outcome]
    exact ⟨job, solo.leaves rfl (by simp [own])⟩

theorem leaves_recover (solo : Solo db job results) (now : Time) :
    ∃ changed, Leaves (if job.status.active then some .queued else none) job results
      (recoverInterruptedWork now db) changed := by
  refine ⟨requeue job, ?_, ?_, ?_, .inl solo.results⟩
  · simp [recoverInterruptedWork, solo.jobs]
  · unfold requeue
    split <;> rfl
  · unfold requeue
    split <;> simp

/-- How `finalize_candidate` ends on a job, beside the status it aims at. -/
theorem finalizeCandidate_cases (verification : Verification) {jobId : JobId}
    (known : db.job? jobId = some job) (entropy : Nat) (now : Time)
    (workerId address offset : String) :
    let outcome := finalizeCandidate verification entropy now db jobId workerId address offset
    (winnerAim verification db job address offset = none ∧
      (outcome = .raises ∨ (∃ stored, outcome = .repeated stored) ∨
        ∃ message, outcome = .stateConflict message)) ∨
    (winnerAim verification db job address offset = some .failed ∧
      ∃ message, outcome = .verificationError message) ∨
    (winnerAim verification db job address offset = some .ready ∧
      ∃ result, outcome = .accepted result ∧ result.jobId = job.id) := by
  have key : job.id = jobId := Table.key_of_lookup known
  unfold winnerAim finalizeCandidate
  simp only [known, key]
  cases stored : db.result? jobId with
  | some result => exact .inl ⟨by simp, .inr (.inl ⟨_, rfl⟩)⟩
  | none =>
    cases accepting : job.status.accepting with
    | false => exact .inl ⟨by simp, .inr (.inr ⟨_, rfl⟩)⟩
    | true =>
      cases checked : verification.check job address offset with
      | none => exact .inl ⟨by simp, .inl rfl⟩
      | some verdict =>
        cases verdict with
        | error message => exact .inr (.inl ⟨by simp, _, rfl⟩)
        | ok pair => exact .inr (.inr ⟨by simp, _, rfl, rfl⟩)

theorem winnerAim_accepting {address offset : String} {status : JobStatus}
    (aimed : winnerAim verification db job address offset = some status) :
    job.status.accepting = true := by
  unfold winnerAim at aimed
  split at aimed
  · rename_i checks
    exact checks.2
  · cases aimed

theorem leaves_accept (solo : Solo db job results) {result : GenerationResult} (owner : result.jobId = job.id)
    (now : Time) : ∃ changed, Leaves (some .ready) job results (db.accept result now) changed := by
  have ready := solo.modifyJob result.jobId fun job =>
    { job with status := .ready, completedAt := some now }
  refine ⟨_, ready.jobs, ?_, ?_, .inr ⟨rfl, result, ?_⟩⟩
  · simp [owner]
  · simp [owner]
  · simp [Database.accept, solo.results]

theorem leaves_submit (solo : Solo db job results) {jobId : JobId} {workerId address offset : String}
    {entropy : Nat} {now : Time} {after : Database}
    (submitted : submitCandidate verification entropy now jobId workerId address offset db = some after) :
    ∃ aim changed, Leaves aim job results after changed ∧
      ∀ status ∈ aim, job.status.accepting = true := by
  by_cases own : job.id = jobId
  · have known : db.job? jobId = some job := by simp [solo.job?, own]
    rcases finalizeCandidate_cases verification known entropy now workerId address offset with
      ⟨aimed, raises | ⟨_, same⟩ | ⟨_, same⟩⟩ | ⟨aimed, _, same⟩ | ⟨aimed, result, same, owner⟩
    · simp [submitCandidate, raises] at submitted
    · simp only [submitCandidate, same, Option.some.injEq] at submitted
      exact ⟨none, job, submitted ▸ solo.leaves rfl rfl, by simp⟩
    · simp only [submitCandidate, same, Option.some.injEq] at submitted
      exact ⟨none, job, submitted ▸ solo.leaves rfl rfl, by simp⟩
    · simp only [submitCandidate, same, Option.some.injEq] at submitted
      exact ⟨none, job, submitted ▸ solo.leaves rfl rfl, by simp⟩
    · simp only [submitCandidate, same] at submitted
      split at submitted
      · cases submitted
        obtain ⟨changed, leaves⟩ := leaves_accept solo owner now
        exact ⟨_, changed, leaves, fun _ _ => winnerAim_accepting aimed⟩
      · cases submitted
  · have unknown : db.job? jobId = none := by simp [solo.job?, own]
    simp only [submitCandidate, finalizeCandidate, unknown, Option.some.injEq] at submitted
    exact ⟨none, job, submitted ▸ solo.leaves rfl rfl, by simp⟩

theorem Solo.countFound (solo : Solo db job results) (now : Time) (event : WorkerEvent)
    (shard : GenerationShard) :
    Solo (countFound now event shard db) (if job.id = shard.jobId then
      countAttempts (processedAfter event shard - shard.processed) job else job) results :=
  (solo.modifyShard _ _).modifyJob _ _

theorem Solo.rejectWinner (solo : Solo db job results) (event : WorkerEvent) (shard : GenerationShard)
    (message : String) (now : Time) :
    Solo (rejectWinner event shard message now db)
      (if job.id = shard.jobId then failCandidate message now job else job) results :=
  ((solo.modifyShard _ _).modifyDevice _ _).modifyJob _ _

/-- Counting attempts changes nothing that the finalization reads. -/
theorem winnerAim_countAttempts {other : Database} (same : other.results = db.results) (more : Nat)
    (address offset : String) :
    winnerAim verification other (countAttempts more job) address offset =
      winnerAim verification db job address offset := by
  have stored : other.result? job.id = db.result? job.id := by simp [Database.result?, same]
  have checked : verification.check (countAttempts more job) address offset =
      verification.check job address offset := rfl
  simp only [winnerAim, checked]
  simp only [countAttempts, stored]

theorem leaves_winner (solo : Solo db job results) {event : WorkerEvent} {shard : GenerationShard}
    {entropy : Nat} {now : Time} {address offset : String} {after : Database}
    (own : job.id = shard.jobId)
    (recorded : recordWinner verification entropy now event shard address offset db = some after) :
    ∃ changed, Leaves (winnerAim verification db job address offset) job results after changed := by
  have known : db.job? shard.jobId = some job := by simp [solo.job?, own]
  rcases finalizeCandidate_cases verification known entropy now
      (event.gpuUuid ++ ":" ++ toString event.workerPid) address offset with
    ⟨aimed, raises | ⟨_, same⟩ | ⟨_, same⟩⟩ | ⟨aimed, _, same⟩ | ⟨aimed, result, same, owner⟩
  · simp only [recordWinner, raises, reduceCtorEq] at recorded
  · simp only [recordWinner, same, Option.some.injEq] at recorded
    exact ⟨job, aimed ▸ recorded ▸ solo.leaves rfl rfl⟩
  · simp only [recordWinner, same, Option.some.injEq] at recorded
    exact ⟨job, aimed ▸ recorded ▸ (solo.modifyShard _ _).leaves rfl rfl⟩
  · simp only [recordWinner, same, Option.some.injEq] at recorded
    rw [aimed, ← recorded]
    exact ⟨_, (solo.rejectWinner event shard _ now).leaves (by simp [own, failCandidate])
      (by simp [own, failCandidate])⟩
  · simp only [recordWinner, same] at recorded
    split at recorded
    · cases recorded
      rw [aimed]
      exact leaves_accept solo owner now
    · cases recorded

theorem Leaves.of_counted {loaded : GenerationJob} {aim : Option JobStatus} {after : Database}
    {changed : GenerationJob} (leaves : Leaves aim job results after changed)
    (id : job.id = loaded.id) (status : job.status = loaded.status) :
    Leaves aim loaded results after changed :=
  ⟨leaves.jobs, leaves.id.trans id, status ▸ leaves.status, leaves.results⟩

theorem leaves_found (solo : Solo db job results) {event : WorkerEvent} {shard : GenerationShard}
    {entropy : Nat} {now : Time} {after : Database}
    (recorded : recordFound verification entropy now event shard db = some after) :
    ∃ changed, Leaves (foundAim verification db job event shard) job results after changed := by
  have counted := solo.countFound now event shard
  by_cases own : job.id = shard.jobId
  · simp only [own, ↓reduceIte] at counted
    have rejects (aim : foundAim verification db job event shard = some .failed)
        (rejected : rejectWinner event shard "CUDA winner event is missing its address or offset." now
          (countFound now event shard db) = after) :
        ∃ changed, Leaves (foundAim verification db job event shard) job results after changed := by
      rw [aim, ← rejected]
      exact ⟨_, (counted.rejectWinner event shard _ now).leaves
        (by simp [own, failCandidate, countAttempts]) (by simp [own, failCandidate, countAttempts])⟩
    cases hasAddress : event.address with
    | none =>
      simp only [recordFound, hasAddress, Option.some.injEq] at recorded
      exact rejects (by simp [foundAim, own, hasAddress]) recorded
    | some address =>
      cases hasOffset : event.offset with
      | none =>
        simp only [recordFound, hasAddress, hasOffset, Option.some.injEq] at recorded
        exact rejects (by simp [foundAim, own, hasAddress, hasOffset]) recorded
      | some offset =>
        simp only [recordFound, hasAddress, hasOffset] at recorded
        have aim : foundAim verification db job event shard = winnerAim verification db job address offset := by
          simp only [foundAim, own, ↓reduceIte, hasAddress, hasOffset]
        obtain ⟨changed, leaves⟩ := leaves_winner counted own recorded
        rw [winnerAim_countAttempts (counted.results.trans solo.results.symm), ← aim] at leaves
        exact ⟨changed, leaves.of_counted rfl rfl⟩
  · simp only [own, ↓reduceIte] at counted
    have aim : foundAim verification db job event shard = none := by simp [foundAim, own]
    have unknown : (countFound now event shard db).job? shard.jobId = none := by
      simp [counted.job?, own]
    rw [aim]
    unfold recordFound at recorded
    split at recorded
    · simp only [recordWinner, finalizeCandidate, unknown, Option.some.injEq] at recorded
      have rejected := counted.rejectWinner event shard "Generation job not found." now
      simp only [own, ↓reduceIte] at rejected
      exact ⟨job, recorded ▸ rejected.leaves rfl rfl⟩
    · cases recorded
      have rejected := counted.rejectWinner event shard
        "CUDA winner event is missing its address or offset." now
      simp only [own, ↓reduceIte] at rejected
      exact ⟨job, rejected.leaves rfl rfl⟩

/-- Any other event leaves the job's status and the results alone. -/
theorem leaves_recordShard (solo : Solo db job results) {event : WorkerEvent} {shard : GenerationShard}
    {entropy : Nat} {now : Time} {after : Database}
    (recorded : recordShard verification entropy now event shard db = some after) :
    ∃ changed, Leaves (if event.eventType = .found then foundAim verification db job event shard
      else none) job results after changed := by
  cases type : event.eventType with
  | found =>
    simp only [recordShard, type] at recorded
    simpa using leaves_found solo recorded
  | progress =>
    simp only [recordShard, type, Option.some.injEq] at recorded
    have counted := (solo.modifyShard shard.id fun shard =>
      { shard with processed := processedAfter event shard }).modifyJob shard.jobId
        (countAttempts (processedAfter event shard - shard.processed))
    refine ⟨_, recorded ▸ counted.leaves ?_ ?_⟩
    · split <;> rfl
    · by_cases own : job.id = shard.jobId <;> simp [own, countAttempts]
  | _ =>
    simp only [recordShard, type, Option.some.injEq] at recorded
    have kept : Solo after job results := recorded ▸ ⟨solo.jobs, solo.results⟩
    exact ⟨job, kept.leaves rfl (by simp)⟩

theorem leaves_claim (solo : Solo db job results) (combinedRate timeoutSeconds : Nat) (now : Time)
    (draw : Fin (secp256k1Order - 1)) (locked : JobId → Bool) :
    ∃ aim changed, Leaves aim job results
      (claimNextJob combinedRate timeoutSeconds now draw locked db).2 changed ∧
      ∀ status ∈ aim, job.status.accepting = true := by
  rcases claimNextJob_cases db combinedRate timeoutSeconds now draw locked with
    same | ⟨-, chosen, next, same⟩
  · rw [same]
    exact ⟨none, job, solo.leaves rfl rfl, by simp⟩
  · obtain ⟨member, queued⟩ := mem_of_nextQueued next
    obtain rfl : chosen = job := by simpa [solo.jobs] using member
    rw [same]
    refine ⟨some .searching, _, (solo.modifyJob chosen.id _).leaves ?_ ?_, ?_⟩
    · simp [startSearch]
    · simp [startSearch]
    · simp [queued, JobStatus.accepting]

theorem leaves_allocate (solo : Solo db job results) {jobId : JobId} {gpuUuid : GpuUuid}
    {shardSeconds kernelBatchMs : Nat} {lease : Lease} {after : Database}
    (committed : (allocateShard jobId gpuUuid shardSeconds kernelBatchMs lease db).committed db =
      some after) :
    ∃ aim changed, Leaves aim job results after changed ∧
      ∀ status ∈ aim, job.status.accepting = true := by
  have untouched : after = db → ∃ aim changed, Leaves aim job results after changed ∧
      ∀ status ∈ aim, job.status.accepting = true := by
    rintro rfl
    exact ⟨none, job, solo.leaves rfl rfl, by simp⟩
  unfold allocateShard at committed
  split at committed
  · rename_i found device known _
    have own : job.id = jobId ∧ found = job := by
      rw [solo.job?] at known
      split at known
      · rename_i same
        exact ⟨same, (Option.some.inj known).symm⟩
      · cases known
    obtain ⟨same, rfl⟩ := own
    split at committed
    · exact untouched (Option.some.inj committed).symm
    · rename_i ready
      have searching : found.status = .searching := by
        by_contra other
        exact ready (.inl other)
      split at committed
      · exact untouched (Option.some.inj committed).symm
      · simp only at committed
        split at committed
        · cases committed
          refine ⟨some .failed, _, (solo.modifyJob jobId _).leaves ?_ ?_, ?_⟩
          · simp [same, exhaust]
          · simp [same, exhaust]
          · simp [searching, JobStatus.accepting]
        · split at committed
          · cases committed
          · cases committed
            refine ⟨none, _, ⟨(solo.modifyJob jobId (advance _)).jobs, ?_, ?_, .inl solo.results⟩, by simp⟩
            · simp [same, advance]
            · simp [same, advance]
  · exact untouched (Option.some.inj committed).symm

end Solo

/-- What a session that read the job without its lock leaves in its view. -/
theorem Session.leaves (session : Session) {after : Database}
    (unlocked : session.operation.locking = false) (existing : session.operation.inserts = false)
    (performed : perform verification session.operation session.view = some after) :
    ∃ changed, Leaves (session.aim verification) session.loaded session.seen.toList after changed := by
  have solo := session.solo
  cases operation : session.operation with
  | create job => simp [operation, Operation.inserts] at existing
  | boot devices =>
    simp only [operation, perform, Option.some.injEq] at performed
    have aim : session.aim verification = none := by simp [Session.aim, operation]
    exact ⟨session.loaded, aim ▸ performed ▸ (solo.initializeDevices devices).leaves rfl rfl⟩
  | recover now =>
    simp only [operation, perform, Option.some.injEq] at performed
    simpa only [Session.aim, operation, ← performed] using leaves_recover solo now
  | claim combinedRate timeoutSeconds now draw locked =>
    simp [operation, Operation.locking] at unlocked
  | allocate jobId gpuUuid shardSeconds kernelBatchMs lease =>
    simp [operation, Operation.locking] at unlocked
  | record event entropy now =>
    simp only [operation, perform, recordEvent] at performed
    cases known : session.view.device? event.gpuUuid with
    | none =>
      simp only [known, Option.some.injEq] at performed
      have aim : session.aim verification = none := by simp [Session.aim, operation, known]
      exact ⟨session.loaded, aim ▸ performed ▸ solo.leaves rfl rfl⟩
    | some device =>
      simp only [known] at performed
      have noted := solo.modifyDevice event.gpuUuid (deviceAfter now event)
      have same : (session.view.modifyDevice event.gpuUuid (deviceAfter now event)).matchingShard event =
          session.view.matchingShard event := rfl
      rw [same] at performed
      cases matched : session.view.matchingShard event with
      | none =>
        simp only [matched, Option.some.injEq] at performed
        have aim : session.aim verification = none := by simp [Session.aim, operation, known, matched]
        exact ⟨session.loaded, aim ▸ performed ▸ noted.leaves rfl rfl⟩
      | some shard =>
        simp only [matched] at performed
        obtain ⟨changed, leaves⟩ := leaves_recordShard noted performed
        refine ⟨changed, ?_⟩
        have aim : session.aim verification = if event.eventType = .found then
            foundAim verification session.view session.loaded event shard else none := by
          simp only [Session.aim, operation, known, matched]
          cases event.eventType <;> simp
        rw [aim]
        exact leaves
  | check jobId now =>
    simp only [operation, perform, Option.some.injEq] at performed
    simpa only [Session.aim, operation, ← performed] using leaves_check solo jobId now
  | cancel user jobId now =>
    simp only [operation, perform, Option.some.injEq] at performed
    simpa only [Session.aim, operation, ← performed] using leaves_cancel solo user jobId now
  | submit jobId workerId address offset entropy now => simp [operation, Operation.locking] at unlocked
  | offline =>
    simp only [operation, perform, Option.some.injEq] at performed
    have aim : session.aim verification = none := by simp [Session.aim, operation]
    have offline : Solo after session.loaded session.seen.toList :=
      performed ▸ ⟨solo.jobs, solo.results⟩
    exact ⟨session.loaded, aim ▸ offline.leaves rfl rfl⟩

/-- What a session that read the job under its lock leaves in its view. -/
theorem Session.leaves_locking (session : Session) {after : Database}
    (locking : session.operation.locking = true)
    (performed : perform verification session.operation session.view = some after) :
    ∃ aim changed, Leaves aim session.loaded session.seen.toList after changed ∧
      ∀ status ∈ aim, session.loaded.status.accepting = true := by
  have solo := session.solo
  cases operation : session.operation with
  | claim combinedRate timeoutSeconds now draw locked =>
    simp only [operation, perform, Option.some.injEq] at performed
    exact performed ▸ leaves_claim solo combinedRate timeoutSeconds now draw locked
  | allocate jobId gpuUuid shardSeconds kernelBatchMs lease =>
    simp only [operation, perform] at performed
    split at performed
    · exact leaves_allocate solo performed
    · cases performed
  | submit jobId workerId address offset entropy now =>
    simp only [operation, perform] at performed
    exact leaves_submit solo performed
  | _ => simp [operation, Operation.locking] at locking

/-- Only a winner event without address or offset sets a status on a job it read
as terminal. -/
def Session.lacksCandidate (session : Session) : Bool :=
  match session.operation with
  | .record event _ _ => event.eventType = .found && (event.address.isNone || event.offset.isNone)
  | _ => false

theorem Session.aim_terminal {session : Session} {status : JobStatus}
    (aimed : session.aim verification = some status) (terminal : session.loaded.status.terminal = true) :
    status = .failed ∧ session.lacksCandidate = true := by
  unfold Session.aim at aimed
  split at aimed
  · simp [terminal] at aimed
  · split at aimed
    · rename_i late
      obtain ⟨-, late⟩ := late
      simp only [overdue, Bool.and_eq_true, decide_eq_true_eq] at late
      simp [late.1, JobStatus.terminal] at terminal
    · cases aimed
  · split at aimed
    · rename_i active
      cases same : session.loaded.status <;> simp [same, JobStatus.active, JobStatus.terminal] at active terminal
    · cases aimed
  · rename_i event _ _ operation
    split at aimed
    · rename_i found
      unfold foundAim at aimed
      split at aimed
      · split at aimed
        · have accepting := winnerAim_accepting aimed
          simp [JobStatus.accepting_eq_not_terminal, terminal] at accepting
        · rename_i lacking
          cases aimed
          refine ⟨rfl, ?_⟩
          simp only [Session.lacksCandidate, operation, found, decide_true, Bool.true_and]
          cases address : event.address with
          | none => simp
          | some text =>
            cases offset : event.offset with
            | none => simp
            | some value => exact absurd offset (lacking text value address)
      · cases aimed
    · cases aimed
  · cases aimed

/-- An aim is a terminal status, or the queue for a job read as active. -/
theorem Session.aim_cases {session : Session} {status : JobStatus}
    (aimed : session.aim verification = some status) :
    status.terminal = true ∨ status = .queued ∧ session.loaded.status.active = true := by
  unfold Session.aim at aimed
  split at aimed
  · split at aimed
    · cases aimed
      exact .inl rfl
    · cases aimed
  · split at aimed
    · cases aimed
      exact .inl rfl
    · cases aimed
  · split at aimed
    · rename_i active
      cases aimed
      exact .inr ⟨rfl, active⟩
    · cases aimed
  · split at aimed
    · unfold foundAim winnerAim at aimed
      repeat' split at aimed
      all_goals
        cases aimed
        try exact .inl rfl
    · cases aimed
  · cases aimed

/-- A cancel request is answered with the canceled job if it read it so, or if
it goes on to cancel it. -/
theorem Session.acknowledges_cases (verification : Verification) {session : Session}
    (acknowledged : session.acknowledges = true) :
    session.operation.locking = false ∧ (session.loaded.status = .canceled ∨
      session.loaded.status.terminal = false ∧ session.aim verification = some .canceled) := by
  unfold Session.acknowledges at acknowledged
  split at acknowledged
  · rename_i user jobId now operation
    refine ⟨by simp [operation, Operation.locking], ?_⟩
    have answered := of_decide_eq_true acknowledged
    unfold cancelJob at answered
    split at answered
    · cases answered
    · rename_i job known
      have owned : session.loaded.id = jobId ∧ session.loaded.userId = user ∧ job = session.loaded := by
        rw [Database.ownedJob?, session.solo.job?] at known
        split at known
        · rename_i same
          simp only [Option.filter_some, decide_eq_true_eq, Option.ite_none_right_eq_some,
            Option.some.injEq] at known
          exact ⟨same, known.1, known.2.symm⟩
        · simp at known
      obtain ⟨same, owner, rfl⟩ := owned
      by_cases canceled : session.loaded.status = .canceled
      · exact .inl canceled
      · cases terminal : session.loaded.status.terminal with
        | true => simp [canceled, terminal] at answered
        | false => exact .inr ⟨rfl, by simp [Session.aim, operation, same, owner, terminal]⟩
  · cases acknowledged

end TronForge.Generator
