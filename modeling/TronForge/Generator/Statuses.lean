import TronForge.Generator.Effects

/-! What an event does to the statuses of the jobs: it sets one to `FAILED` or
`READY` after a check of the row, except where a winner event lacks its address or
offset. -/

namespace TronForge.Generator

open Library

variable {verification : Verification} {db after middle : Database} {jobId : JobId}

def Database.status? (db : Database) (id : JobId) : Option JobStatus := (db.job? id).map (·.status)

/-- The statuses and results are left as they are. -/
structure SameStatuses (db after : Database) : Prop where
  statuses : ∀ id, after.status? id = db.status? id
  results : after.results = db.results

/-- The status of one job is set; the others and the results are left. -/
structure SetsStatus (jobId : JobId) (status : JobStatus) (db after : Database) : Prop where
  statuses : ∀ id, after.status? id =
    if id = jobId then (db.status? id).map fun _ => status else db.status? id
  results : after.results = db.results

theorem SameStatuses.refl (db : Database) : SameStatuses db db := ⟨fun _ => rfl, rfl⟩

theorem SameStatuses.trans (first : SameStatuses db middle) (second : SameStatuses middle after) :
    SameStatuses db after :=
  ⟨fun id => (second.statuses id).trans (first.statuses id), second.results.trans first.results⟩

theorem SameStatuses.result? (same : SameStatuses db after) (id : JobId) : after.result? id = db.result? id := by
  rw [Database.result?, same.results, Database.result?]

theorem SameStatuses.thenSets {status : JobStatus} (same : SameStatuses db middle)
    (sets : SetsStatus jobId status middle after) : SetsStatus jobId status db after := by
  constructor
  · intro id
    rw [sets.statuses id, same.statuses id]
  · exact sets.results.trans same.results

theorem status?_modifyJob {change : GenerationJob → GenerationJob} (kept : ∀ job, (change job).id = job.id)
    (id : JobId) : (db.modifyJob jobId change).status? id =
      if id = jobId then (db.job? id).map fun job => (change job).status else db.status? id := by
  have found : Table.lookup (·.id) id (Table.modify (·.id) jobId change db.jobs) = _ :=
    Table.lookup_modify kept id
  simp only [Database.status?, Database.job?, Database.modifyJob, found]
  split
  · rw [Option.map_map]
    rfl
  · rfl

theorem sameStatuses_modifyJob {change : GenerationJob → GenerationJob}
    (kept : ∀ job, (change job).id = job.id ∧ (change job).status = job.status) :
    SameStatuses db (db.modifyJob jobId change) := by
  constructor
  · intro id
    rw [status?_modifyJob fun job => (kept job).1]
    split
    · rw [Database.status?]
      congr
      funext job
      exact (kept job).2
    · rfl
  · rfl

theorem setsStatus_modifyJob {change : GenerationJob → GenerationJob} {status : JobStatus}
    (kept : ∀ job, (change job).id = job.id ∧ (change job).status = status) :
    SetsStatus jobId status db (db.modifyJob jobId change) := by
  constructor
  · intro id
    rw [status?_modifyJob fun job => (kept job).1, Database.status?, Option.map_map]
    congr
    funext job
    exact (kept job).2
  · rfl

theorem sameStatuses_modifyShard (id : ShardId) (change : GenerationShard → GenerationShard) :
    SameStatuses db (db.modifyShard id change) :=
  ⟨fun _ => rfl, rfl⟩

theorem sameStatuses_modifyDevice (uuid : GpuUuid) (change : GpuDevice → GpuDevice) :
    SameStatuses db (db.modifyDevice uuid change) :=
  ⟨fun _ => rfl, rfl⟩

theorem sameStatuses_countFound (now : Time) (event : WorkerEvent) (shard : GenerationShard) :
    SameStatuses db (countFound now event shard db) := by
  refine SameStatuses.trans ?_ (sameStatuses_modifyJob fun _ => ⟨rfl, rfl⟩)
  exact sameStatuses_modifyShard _ _

theorem setsStatus_rejectWinner (event : WorkerEvent) (shard : GenerationShard) (message : String) (now : Time) :
    SetsStatus shard.jobId .failed db (rejectWinner event shard message now db) := by
  refine SameStatuses.thenSets ?_ (setsStatus_modifyJob fun _ => ⟨rfl, rfl⟩)
  exact (sameStatuses_modifyShard _ _).trans (sameStatuses_modifyDevice _ _)

theorem SetsStatus.absent {status : JobStatus} (sets : SetsStatus jobId status db after)
    (absent : db.job? jobId = none) : SameStatuses db after := by
  constructor
  · intro id
    rw [sets.statuses id]
    split
    · rename_i same
      rw [same, Database.status?, absent]
      rfl
    · rfl
  · exact sets.results

/-- A candidate is stored: its job is `READY` with that result. -/
structure Stores (jobId : JobId) (db after : Database) : Prop where
  statuses : ∀ id, after.status? id =
    if id = jobId then (db.status? id).map fun _ => .ready else db.status? id
  results : ∃ result, result.jobId = jobId ∧ after.results = result :: db.results

/-- A change after a check of the row: the job was open and had no result. -/
structure Checked (jobId : JobId) (db after : Database) : Prop where
  accepting : ∃ status, db.status? jobId = some status ∧ status.accepting = true
  pending : db.result? jobId = none
  change : SetsStatus jobId .failed db after ∨ Stores jobId db after

theorem SameStatuses.thenChecked (same : SameStatuses db middle) (checked : Checked jobId middle after) :
    Checked jobId db after := by
  refine ⟨?_, ?_, ?_⟩
  · rw [← same.statuses]
    exact checked.accepting
  · rw [← same.result?]
    exact checked.pending
  · rcases checked.change with sets | stores
    · exact .inl (same.thenSets sets)
    · right
      constructor
      · intro id
        rw [stores.statuses id, same.statuses id]
      · rw [← same.results]
        exact stores.results

theorem stores_accept (result : GenerationResult) (now : Time) :
    Stores result.jobId db (db.accept result now) := by
  have sets : SetsStatus result.jobId .ready db (db.modifyJob result.jobId fun job =>
      { job with status := .ready, completedAt := some now }) := setsStatus_modifyJob fun _ => ⟨rfl, rfl⟩
  exact ⟨sets.statuses, result, rfl, rfl⟩

/-- A winner event with its candidate changes a status only after the check. -/
theorem recordWinner_statuses {entropy : Nat} {now : Time} {event : WorkerEvent} {shard : GenerationShard}
    {address offset : String}
    (recorded : recordWinner verification entropy now event shard address offset db = some after) :
    SameStatuses db after ∨ Checked shard.jobId db after := by
  cases known : db.job? shard.jobId with
  | none =>
    have missing : finalizeCandidate verification entropy now db shard.jobId
        (event.gpuUuid ++ ":" ++ toString event.workerPid) address offset = .jobNotFound := by
      rw [finalizeCandidate, known]
    rw [recordWinner, missing] at recorded
    cases recorded
    exact .inl ((setsStatus_rejectWinner ..).absent known)
  | some job =>
    have key : job.id = shard.jobId := Table.key_of_lookup known
    have checked (status : JobStatus)
        (aimed : winnerAim verification db job address offset = some status) :
        (∃ status, db.status? shard.jobId = some status ∧ status.accepting = true) ∧
        db.result? shard.jobId = none := by
      obtain ⟨pending, accepting⟩ : db.result? job.id = none ∧ job.status.accepting = true := by
        by_contra closed
        rw [winnerAim, if_neg closed] at aimed
        cases aimed
      rw [Database.status?, known, ← key]
      exact ⟨⟨job.status, rfl, accepting⟩, pending⟩
    rcases finalizeCandidate_cases verification known entropy now
        (event.gpuUuid ++ ":" ++ toString event.workerPid) address offset with
      ⟨-, raised | ⟨stored, repeated⟩ | ⟨message, conflict⟩⟩ | ⟨aimed, message, rejected⟩ |
      ⟨aimed, result, accepted, owner⟩
    · rw [recordWinner, raised] at recorded
      cases recorded
    · rw [recordWinner, repeated] at recorded
      cases recorded
      exact .inl (.refl db)
    · rw [recordWinner, conflict] at recorded
      cases recorded
      exact .inl (sameStatuses_modifyShard _ _)
    · rw [recordWinner, rejected] at recorded
      cases recorded
      obtain ⟨accepting, pending⟩ := checked .failed aimed
      exact .inr ⟨accepting, pending, .inl (setsStatus_rejectWinner ..)⟩
    · rw [recordWinner, accepted] at recorded
      obtain ⟨open_, pending⟩ := checked .ready aimed
      cases admitted : db.admits result with
      | false =>
        simp only [admitted, Bool.false_eq_true, if_false] at recorded
        cases recorded
      | true =>
        simp only [admitted, if_true] at recorded
        cases recorded
        refine .inr ⟨open_, pending, .inr ?_⟩
        rw [← key, ← owner]
        exact stores_accept result now

/-- A winner event without its address or its offset. -/
def WorkerEvent.lacksCandidate (event : WorkerEvent) : Bool :=
  event.eventType = .found && (event.address.isNone || event.offset.isNone)

theorem WorkerEvent.lacksCandidate_iff (event : WorkerEvent) : event.lacksCandidate = true ↔
    event.eventType = .found ∧ (event.address = none ∨ event.offset = none) := by
  simp [WorkerEvent.lacksCandidate]

/-- Without a candidate the job fails, whatever its status. -/
theorem recordShard_lacking (verification : Verification) (entropy : Nat) (now : Time) {event : WorkerEvent}
    (lacks : event.lacksCandidate = true) (shard : GenerationShard) (db : Database) :
    ∃ failed, recordShard verification entropy now event shard db = some failed ∧
      SetsStatus shard.jobId .failed db failed := by
  obtain ⟨found, missing⟩ := event.lacksCandidate_iff.mp lacks
  have counted : SameStatuses db (countFound now event shard db) := sameStatuses_countFound now event shard
  refine ⟨_, ?_, counted.thenSets (setsStatus_rejectWinner event shard
    "CUDA winner event is missing its address or offset." now)⟩
  simp only [recordShard, found]
  unfold recordFound
  split
  · rename_i address offset
    rcases missing with none | none
    · rw [none] at address
      cases address
    · rw [none] at offset
      cases offset
  · rfl

theorem recordShard_statuses {entropy : Nat} {now : Time} {event : WorkerEvent} {shard : GenerationShard}
    (complete : event.lacksCandidate = false)
    (recorded : recordShard verification entropy now event shard db = some after) :
    SameStatuses db after ∨ Checked shard.jobId db after := by
  unfold recordShard at recorded
  split at recorded
  case h_4 found =>
    unfold recordFound at recorded
    split at recorded
    · have counted : SameStatuses db (countFound now event shard db) := sameStatuses_countFound now event shard
      rcases recordWinner_statuses recorded with same | checked
      · exact .inl (counted.trans same)
      · exact .inr (counted.thenChecked checked)
    · rename_i missing
      have lacks : event.lacksCandidate = true := by
        rw [event.lacksCandidate_iff]
        refine ⟨found, ?_⟩
        by_contra both
        simp only [not_or, Option.ne_none_iff_exists'] at both
        obtain ⟨⟨address, addressed⟩, offset, offsetKnown⟩ := both
        exact missing address offset addressed offsetKnown
      rw [lacks] at complete
      cases complete
  case h_2 =>
    cases recorded
    refine .inl (SameStatuses.trans ?_ (sameStatuses_modifyJob fun _ => ⟨rfl, rfl⟩))
    exact sameStatuses_modifyShard _ _
  case h_7 =>
    cases recorded
    exact .inl (.refl db)
  all_goals
    cases recorded
    exact .inl (sameStatuses_modifyShard _ _)

/-- The job of the shard that a winner event without its address or offset names,
under its present lease and from a known device. -/
def Database.unaddressedJob (db : Database) (event : WorkerEvent) : Option JobId :=
  if event.lacksCandidate && (db.device? event.gpuUuid).isSome then
    (db.matchingShard event).map (·.jobId)
  else none

/-- The step as a whole: a raised exception rolls everything back. -/
def recordStep (verification : Verification) (entropy : Nat) (now : Time) (event : WorkerEvent)
    (db : Database) : Database :=
  (recordEvent verification entropy now event db).getD db

/-- Which statuses an event may change. -/
theorem recordStep_statuses (verification : Verification) (entropy : Nat) (now : Time) (event : WorkerEvent)
    (db : Database) :
    match db.unaddressedJob event with
    | some jobId => SetsStatus jobId .failed db (recordStep verification entropy now event db)
    | none => SameStatuses db (recordStep verification entropy now event db) ∨
        ∃ jobId, Checked jobId db (recordStep verification entropy now event db) := by
  unfold recordStep recordEvent Database.unaddressedJob
  cases known : db.device? event.gpuUuid with
  | none =>
    rw [Option.isSome_none, Bool.and_false]
    exact .inl (.refl db)
  | some device =>
    have noted : SameStatuses db (db.modifyDevice event.gpuUuid (deviceAfter now event)) :=
      sameStatuses_modifyDevice _ _
    have matched : (db.modifyDevice event.gpuUuid (deviceAfter now event)).matchingShard event =
        db.matchingShard event := rfl
    simp only [matched, Option.isSome_some, Bool.and_true]
    cases found : db.matchingShard event with
    | none =>
      rw [Option.map_none, ite_self]
      exact .inl noted
    | some shard =>
      cases lacks : event.lacksCandidate with
      | true =>
        obtain ⟨failed, recorded, sets⟩ := recordShard_lacking verification entropy now lacks shard
          (db.modifyDevice event.gpuUuid (deviceAfter now event))
        simp only [if_true, Option.map_some, recorded, Option.getD_some]
        exact noted.thenSets sets
      | false =>
        simp only [Bool.false_eq_true, if_false]
        cases recorded : recordShard verification entropy now event shard
            (db.modifyDevice event.gpuUuid (deviceAfter now event)) with
        | none => exact .inl (.refl db)
        | some after =>
          rcases recordShard_statuses lacks recorded with same | checked
          · exact .inl (noted.trans same)
          · exact .inr ⟨shard.jobId, noted.thenChecked checked⟩

/-- A status that ended a job stays. -/
def KeepsTerminal (db after : Database) : Prop :=
  ∀ id status, db.status? id = some status → status.terminal = true → after.status? id = some status

/-- A job with a stored result is `READY` or `OWNERSHIP_VERIFIED`. -/
def ResultsReady (db : Database) : Prop :=
  ∀ id status, db.status? id = some status → db.result? id ≠ none →
    status = .ready ∨ status = .ownershipVerified

/-- A winner event without its address or offset, for a job that has ended in
another way than by failing. -/
def EndsAgain (db : Database) (event : WorkerEvent) : Prop :=
  ∃ jobId status, db.unaddressedJob event = some jobId ∧ db.status? jobId = some status ∧
    status.terminal = true ∧ status ≠ .failed

theorem SameStatuses.keepsTerminal (same : SameStatuses db after) : KeepsTerminal db after := by
  intro id status stored _
  rw [same.statuses id, stored]

theorem SameStatuses.resultsReady_iff (same : SameStatuses db after) : ResultsReady after ↔ ResultsReady db := by
  constructor
  · intro ready id status stored result
    exact ready id status (by rw [same.statuses id, stored]) (by rwa [same.result?])
  · intro ready id status stored result
    exact ready id status (by rwa [same.statuses id] at stored) (by rwa [same.result?] at result)

/-- A failure without a check is harmless exactly for a job that is open or has
failed before. -/
theorem SetsStatus.failed_keeps_iff (sets : SetsStatus jobId .failed db after) :
    KeepsTerminal db after ∧ ResultsReady after ↔ ResultsReady db ∧
      ¬ ∃ status, db.status? jobId = some status ∧ status.terminal = true ∧ status ≠ .failed := by
  have results (id : JobId) : after.result? id = db.result? id := by
    rw [Database.result?, sets.results, Database.result?]
  have own {status : JobStatus} (stored : db.status? jobId = some status) :
      after.status? jobId = some .failed := by
    rw [sets.statuses jobId, if_pos rfl, stored, Option.map_some]
  have others {id : JobId} (other : id ≠ jobId) : after.status? id = db.status? id := by
    rw [sets.statuses id, if_neg other]
  constructor
  · intro kept
    obtain ⟨keeps, ready⟩ := kept
    constructor
    · intro id status stored result
      rw [← results id] at result
      by_cases same : id = jobId
      · subst same
        rcases ready id .failed (own stored) result with wrong | wrong
        · cases wrong
        · cases wrong
      · exact ready id status (by rw [others same, stored]) result
    · intro ended
      obtain ⟨status, stored, terminal, different⟩ := ended
      have kept := keeps jobId status stored terminal
      rw [own stored] at kept
      exact different (Option.some.inj kept).symm
  · intro condition
    obtain ⟨ready, spared⟩ := condition
    constructor
    · intro id status stored terminal
      by_cases same : id = jobId
      · subst same
        rw [own stored]
        by_contra different
        exact spared ⟨status, stored, terminal, fun failed => different (by rw [failed])⟩
      · rw [others same, stored]
    · intro id status stored result
      rw [results id] at result
      by_cases same : id = jobId
      · subst same
        obtain ⟨before, known⟩ : ∃ before, db.status? id = some before := by
          rw [← Option.ne_none_iff_exists']
          intro absent
          rw [sets.statuses id, if_pos rfl, absent] at stored
          cases stored
        exfalso
        apply spared
        refine ⟨before, known, ?_⟩
        rcases ready id before known result with rfl | rfl
        · exact ⟨rfl, by simp⟩
        · exact ⟨rfl, by simp⟩
      · exact ready id status (by rwa [others same] at stored) result

/-- After a check an open job without a result is the only one that changes. -/
theorem Checked.others (checked : Checked jobId db after) {id : JobId} (other : id ≠ jobId) :
    after.status? id = db.status? id ∧ after.result? id = db.result? id := by
  rcases checked.change with sets | ⟨statuses, result, owner, stored⟩
  · exact ⟨by rw [sets.statuses id, if_neg other], by rw [Database.result?, sets.results, Database.result?]⟩
  · refine ⟨by rw [statuses id, if_neg other], ?_⟩
    rw [Database.result?, stored, Table.lookup_cons, owner, if_neg (Ne.symm other)]
    rfl

theorem Checked.keepsTerminal (checked : Checked jobId db after) : KeepsTerminal db after := by
  intro id status stored terminal
  by_cases same : id = jobId
  · obtain ⟨own, known, accepting⟩ := checked.accepting
    rw [same, known] at stored
    rw [Option.some.inj stored, JobStatus.accepting_eq_not_terminal, terminal] at accepting
    cases accepting
  · rw [(checked.others same).1, stored]

theorem Checked.resultsReady_iff (checked : Checked jobId db after) : ResultsReady after ↔ ResultsReady db := by
  constructor
  · intro ready id status stored result
    have other : id ≠ jobId := by
      intro same
      exact result (same ▸ checked.pending)
    obtain ⟨status, results⟩ := checked.others other
    exact ready id _ (status.trans stored) (by rwa [results])
  · intro ready id status stored result
    by_cases same : id = jobId
    · subst same
      rcases checked.change with sets | stores
      · rw [Database.result?, sets.results] at result
        exact absurd checked.pending result
      · rw [stores.statuses id, if_pos rfl] at stored
        obtain ⟨before, -, rfl⟩ := Option.map_eq_some_iff.mp stored
        exact .inl rfl
    · obtain ⟨kept, results⟩ := checked.others same
      exact ready id status (kept.symm.trans stored) (by rwa [results] at result)

/-- An event keeps ended jobs and their results together exactly when the results
were in order before it and it does not end a job again. -/
theorem recordStep_keeps_iff (verification : Verification) (entropy : Nat) (now : Time) (event : WorkerEvent)
    (db : Database) :
    KeepsTerminal db (recordStep verification entropy now event db) ∧
      ResultsReady (recordStep verification entropy now event db) ↔
    ResultsReady db ∧ ¬ EndsAgain db event := by
  have statuses := recordStep_statuses verification entropy now event db
  generalize recordStep verification entropy now event db = after at statuses ⊢
  cases unaddressed : db.unaddressedJob event with
  | some jobId =>
    simp only [unaddressed] at statuses
    rw [statuses.failed_keeps_iff]
    simp [EndsAgain, unaddressed]
  | none =>
    simp only [unaddressed] at statuses
    have spared : ¬ EndsAgain db event := by
      intro again
      obtain ⟨jobId, -, named, -⟩ := again
      rw [unaddressed] at named
      cases named
    rcases statuses with same | ⟨jobId, checked⟩
    · simp only [same.keepsTerminal, same.resultsReady_iff, spared, true_and, not_false_eq_true, and_true]
    · simp only [checked.keepsTerminal, checked.resultsReady_iff, spared, true_and, not_false_eq_true, and_true]

/-- A job that is ready with its result, and a shard of it still under its lease. -/
def foundDatabase : Database where
  jobs := [{ sampleJob with status := .ready, completedAt := some 30 }]
  results := [{
    jobId := 1, workerId := "GPU-0:7", address := "TAabcd", encryptedOffset := "6c",
    encryptedPrivateKey := "secret", verifierVersion := verifierVersion, verifiedAt := 30 }]
  devices := [{
    uuid := "GPU-0", deviceIndex := 0, name := "sample", memoryTotalMb := 24000, kernelVersion := "v1",
    status := .searching }]
  shards := [{
    id := 1, jobId := 1, gpuUuid := "GPU-0", leaseToken := 1, rangeStart := 100, rangeCount := 50,
    status := .running, assignedAt := 25 }]

/-- A winner event that lost its address. -/
def unaddressedWinner : WorkerEvent where
  eventType := .found
  gpuUuid := "GPU-0"
  workerPid := 7
  shardId := some 1
  leaseToken := some 1
  processedTotal := 12
  offset := some "6c"

/-- The winner event fails the ready job, whose result is stored. -/
theorem recordStep_overwrites :
    (foundDatabase.status? 1 = some .ready ∧
      (recordStep refusing 0 40 unaddressedWinner foundDatabase).status? 1 = some .failed ∧
      (recordStep refusing 0 40 unaddressedWinner foundDatabase).result? 1 ≠ none) ∧
    ¬ KeepsTerminal foundDatabase (recordStep refusing 0 40 unaddressedWinner foundDatabase) ∧
    ¬ ResultsReady (recordStep refusing 0 40 unaddressedWinner foundDatabase) := by
  have ready : foundDatabase.status? 1 = some .ready := by decide
  have failed : (recordStep refusing 0 40 unaddressedWinner foundDatabase).status? 1 = some .failed := by decide
  have stored : (recordStep refusing 0 40 unaddressedWinner foundDatabase).result? 1 ≠ none := by decide
  refine ⟨⟨ready, failed, stored⟩, ?_, ?_⟩
  · intro keeps
    have kept := keeps 1 .ready ready rfl
    rw [failed] at kept
    cases kept
  · intro sound
    rcases sound 1 .failed failed stored with wrong | wrong
    · cases wrong
    · cases wrong

end TronForge.Generator
