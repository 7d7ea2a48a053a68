import TronForge.Generator.Allocation
import TronForge.Generator.Counters

/-! The counters along a run in which workers report their streams: a shard never counts
down nor past its range, and the attempts of a job are what its shards have processed. -/

namespace TronForge.Generator

open Library

variable {verification : Verification} {db after : Database}

/-- What counts was reported by a worker itself; the supervisor and idle workers report
the rest. A new job has no attempts. -/
def Permitted (_ : Fleet) : FleetAction → Prop
  | .store (.create job) _ _ => job.attempts = 0
  | .store (.record event _ _) _ _ => event.shardId = none ∨ event.eventType = .failed
  | _ => True

/-- What the worker has reported. -/
def FleetWorker.reported (worker : FleetWorker) : Nat := (worker.execution.events.take worker.delivered).foldl reached 0

/-- The counted row of the worker. -/
def FleetWorker.count (worker : FleetWorker) : ShardCount :=
  ⟨worker.assignment.shardId, worker.assignment.jobId, worker.assignment.leaseToken, worker.assignment.rangeCount,
    worker.reported⟩

/-- The tables follow what the worker has reported. -/
structure FleetWorker.Followed (db : Database) (worker : FleetWorker) : Prop where
  own : worker.process.gpuUuid = worker.assignment.gpuUuid
  device : ∃ device ∈ db.devices, device.uuid = worker.assignment.gpuUuid
  shard : worker.count ∈ db.shardCounts

structure CountersSound (fleet : Fleet) : Prop where
  shardIds : Table.Unique ShardCount.id fleet.db.shardCounts
  jobIds : Table.Unique JobCount.id fleet.db.jobCounts
  workerIds : Table.Unique (·.assignment.shardId) fleet.workers
  owned : ∀ shard ∈ fleet.db.shardCounts, ∃ job ∈ fleet.db.jobCounts, job.id = shard.jobId
  attempts : ∀ job ∈ fleet.db.jobCounts, job.attempts = processedOf fleet.db.shardCounts job.id
  workers : ∀ worker ∈ fleet.workers, worker.Followed fleet.db
  covered : ∀ shard ∈ fleet.db.shardCounts, ∃ worker ∈ fleet.workers, worker.assignment.shardId = shard.id

/-- No shard is lost, and none counts down. -/
def Grows (db after : Database) : Prop :=
  ∀ shard ∈ db.shardCounts, ∃ next ∈ after.shardCounts, next.id = shard.id ∧ shard.processed ≤ next.processed

theorem Grows.refl (db : Database) : Grows db db := fun shard member => ⟨shard, member, rfl, le_rfl⟩

theorem Grows.trans {middle : Database} (first : Grows db middle) (second : Grows middle after) : Grows db after := by
  intro shard member
  obtain ⟨next, present, same, less⟩ := first shard member
  obtain ⟨last, there, equal, more⟩ := second next present
  exact ⟨last, there, equal.trans same, less.trans more⟩

section Sums
variable {shards : List ShardCount} {shard : ShardCount} {more : Nat}

theorem filter_modify (shardId : ShardId) (jobId : JobId) :
    (Table.modify ShardCount.id shardId (ShardCount.add more) shards).filter (fun shard => decide (shard.jobId = jobId)) =
      Table.modify ShardCount.id shardId (ShardCount.add more)
        (shards.filter fun shard => decide (shard.jobId = jobId)) := by
  rw [Table.modify, List.filter_map]
  congr 1
  apply List.filter_congr
  intro shard _
  rw [Function.comp_apply]
  split <;> rfl

theorem processedOf_modify (unique : Table.Unique ShardCount.id shards) (member : shard ∈ shards) :
    processedOf (Table.modify ShardCount.id shard.id (ShardCount.add more) shards) shard.jobId =
      processedOf shards shard.jobId + more := by
  rw [processedOf, filter_modify]
  apply Table.sum_modify (unique.filter _) (List.mem_filter.mpr ⟨member, decide_eq_true rfl⟩) rfl
  rfl

/-- Another job counts nothing. -/
theorem processedOf_modify_other (unique : Table.Unique ShardCount.id shards) (member : shard ∈ shards) {jobId : JobId}
    (other : shard.jobId ≠ jobId) :
    processedOf (Table.modify ShardCount.id shard.id (ShardCount.add more) shards) jobId = processedOf shards jobId := by
  rw [processedOf, filter_modify, Table.modify_absent]
  · rfl
  · intro row present same
    obtain ⟨present, own⟩ := List.mem_filter.mp present
    rw [Table.eq_of_key unique present member same] at own
    exact other (of_decide_eq_true own)

end Sums

section Reports
variable {worker : FleetWorker} {index : Nat} {event : WorkerEvent} {shard : GenerationShard}

/-- A stream counts up to the range. -/
theorem FleetWorker.reported_le (own : worker.process.gpuUuid = worker.assignment.gpuUuid) :
    worker.reported ≤ worker.assignment.rangeCount :=
  ((worker.countsUp own).take worker.delivered).foldl_le (Nat.zero_le _)

/-- An event of the stream settles nothing that was not reported. -/
theorem FleetWorker.settled (own : worker.process.gpuUuid = worker.assignment.gpuUuid)
    (found : worker.execution.events[index]? = some event) (next : index ≤ worker.delivered)
    (settles : event.eventType.settles = true) : event.processedTotal.toNat ≤ worker.reported := by
  have up := worker.countsUp own
  rcases Nat.eq_or_lt_of_le next with rfl | earlier
  · exact (up.inTurn found).settled settles
  · exact up.total_le found earlier (.inr settles)

/-- What the record of an event counts is what the worker reports with it. -/
theorem FleetWorker.reported_recorded (own : worker.process.gpuUuid = worker.assignment.gpuUuid)
    (found : worker.execution.events[index]? = some event) (next : index ≤ worker.delivered)
    (processed : shard.processed = worker.reported) :
    (worker.recorded index).reported = worker.reported + countedMore event shard := by
  have up := worker.countsUp own
  rcases Nat.eq_or_lt_of_le next with rfl | earlier
  · have turn := up.inTurn found
    have grown : (worker.recorded worker.delivered).reported = reached worker.reported event := by
      have advanced : max worker.delivered (worker.delivered + 1) = worker.delivered + 1 := by omega
      have taken : worker.execution.events.take (worker.delivered + 1) =
          worker.execution.events.take worker.delivered ++ [event] := by
        rw [List.take_add_one, found]
        rfl
      change (worker.execution.events.take (max worker.delivered (worker.delivered + 1))).foldl reached 0 = _
      rw [advanced, taken, List.foldl_append]
      rfl
    rw [grown, reached, countedMore]
    split
    · rename_i counts
      have least : worker.reported ≤ event.processedTotal.toNat := (turn.counted counts).1
      rw [processedAfter, processed, Nat.max_eq_right least]
      omega
    · rfl
  · have kept : (worker.recorded index).reported = worker.reported := by
      have same : max worker.delivered (index + 1) = worker.delivered := Nat.max_eq_left earlier
      change (worker.execution.events.take (max worker.delivered (index + 1))).foldl reached 0 = _
      rw [same]
      rfl
    rw [kept, countedMore]
    split
    · rename_i counts
      have least : event.processedTotal.toNat ≤ worker.reported := up.total_le found earlier (.inl counts)
      rw [processedAfter_settled (processed ▸ least), Nat.sub_self]
      rfl
    · rfl

end Reports

section Step
variable {fleet next : Fleet}

theorem SameCounts.grows (same : SameCounts db after) : Grows db after := by
  intro shard member
  rw [← same.shards] at member
  exact ⟨shard, member, rfl, le_rfl⟩

theorem Counted.grows {shardId : ShardId} {jobId : JobId} {more : Nat} (counted : Counted shardId jobId more db after) :
    Grows db after := by
  intro shard member
  rw [counted.shards]
  by_cases own : shard.id = shardId
  · exact ⟨shard.add more, Table.mem_modify_self member own, rfl, Nat.le_add_right _ _⟩
  · exact ⟨shard, Table.mem_modify_of_ne member own, rfl, le_rfl⟩

theorem KeepsDevices.device (kept : KeepsDevices db after) {uuid : GpuUuid}
    (known : ∃ device ∈ db.devices, device.uuid = uuid) :
    ∃ device ∈ after.devices, device.uuid = uuid := by
  obtain ⟨device, member, own⟩ := known
  obtain ⟨other, present, same⟩ := kept device member
  exact ⟨other, present, same.trans own⟩

theorem SameCounts.followed (same : SameCounts db after) {worker : FleetWorker} (followed : worker.Followed db) :
    worker.Followed after :=
  ⟨followed.own, same.devices.device followed.device, same.shards ▸ followed.shard⟩

theorem CountersSound.shards_unique (sound : CountersSound fleet) : Table.Unique (·.id) fleet.db.shards := by
  have ids := sound.shardIds
  rw [Table.Unique, Database.shardCounts, List.map_map] at ids
  exact ids

theorem CountersSound.same (sound : CountersSound fleet) (same : SameCounts fleet.db after) :
    CountersSound ⟨after, fleet.workers⟩ where
  shardIds := same.shards ▸ sound.shardIds
  jobIds := same.jobs ▸ sound.jobIds
  workerIds := sound.workerIds
  owned := same.shards ▸ same.jobs ▸ sound.owned
  attempts := same.shards ▸ same.jobs ▸ sound.attempts
  workers worker member := same.followed (sound.workers worker member)
  covered := same.shards ▸ sound.covered

theorem processedOf_absent {shards : List ShardCount} {jobId : JobId} (absent : ∀ shard ∈ shards, shard.jobId ≠ jobId) :
    processedOf shards jobId = 0 := by
  have none_ : shards.filter (fun shard => decide (shard.jobId = jobId)) = [] := by
    apply List.filter_eq_nil_iff.mpr
    intro shard member own
    exact absent shard member (of_decide_eq_true own)
  rw [processedOf, none_]
  rfl

theorem CountersSound.create (sound : CountersSound fleet) {job : GenerationJob} (created : Created fleet.db job)
    (fresh : job.attempts = 0) : CountersSound ⟨{ fleet.db with jobs := job :: fleet.db.jobs }, fleet.workers⟩ := by
  have unknown (other : JobCount) (member : other ∈ fleet.db.jobCounts) : other.id ≠ job.id := by
    obtain ⟨row, present, rfl⟩ := List.mem_map.mp member
    exact created.2.2.2 row present
  refine ⟨sound.shardIds, ?_, sound.workerIds, ?_, ?_, ?_, sound.covered⟩
  · apply List.nodup_cons.mpr
    refine ⟨?_, sound.jobIds⟩
    intro known
    obtain ⟨other, present, same⟩ := List.mem_map.mp known
    exact unknown other present same
  · intro shard member
    obtain ⟨other, present, own⟩ := sound.owned shard member
    exact ⟨other, List.mem_cons_of_mem _ present, own⟩
  · intro other member
    rcases List.mem_cons.mp member with rfl | old
    · have nothing : processedOf fleet.db.shardCounts job.id = 0 := by
        apply processedOf_absent
        intro shard present own
        obtain ⟨owner, known, same⟩ := sound.owned shard present
        exact unknown owner known (same.trans own)
      exact fresh.trans nothing.symm
    · exact sound.attempts other old
  · intro worker member
    have followed := sound.workers worker member
    exact ⟨followed.own, followed.device, followed.shard⟩

theorem CountersSound.lease (sound : CountersSound fleet) {assignment : WorkAssignment}
    (leased : LeasedCounts assignment fleet.db after)
    (fresh : ∀ shard ∈ fleet.db.shardCounts, shard.id ≠ assignment.shardId)
    (pid : Nat) (work : Work) :
    CountersSound ⟨after, fleet.workers ++ [⟨⟨assignment.gpuUuid, pid⟩, assignment, work, 0⟩]⟩ := by
  refine ⟨?_, ?_, ?_, ?_, ?_, ?_, ?_⟩
  · rw [leased.shards]
    apply List.nodup_cons.mpr
    refine ⟨?_, sound.shardIds⟩
    intro known
    obtain ⟨shard, present, same⟩ := List.mem_map.mp known
    exact fresh shard present same
  · rw [leased.jobs]
    exact sound.jobIds
  · rw [Table.Unique, List.map_append]
    apply sound.workerIds.append (List.nodup_singleton _)
    intro shardId present again
    obtain ⟨worker, member, rfl⟩ := List.mem_map.mp present
    exact fresh _ (sound.workers worker member).shard (List.mem_singleton.mp again)
  · rw [leased.shards, leased.jobs]
    intro shard member
    rcases List.mem_cons.mp member with rfl | old
    · exact leased.job
    · exact sound.owned shard old
  · rw [leased.shards, leased.jobs]
    intro job member
    rw [sound.attempts job member]
    simp only [processedOf, List.filter_cons]
    split
    · rw [List.map_cons, List.sum_cons, Nat.zero_add]
    · rfl
  · intro worker member
    rcases List.mem_append.mp member with old | new
    · have followed := sound.workers worker old
      refine ⟨followed.own, leased.devices.device followed.device, ?_⟩
      rw [leased.shards]
      exact List.mem_cons_of_mem _ followed.shard
    · rw [List.mem_singleton.mp new]
      refine ⟨rfl, leased.devices.device leased.device, ?_⟩
      rw [leased.shards]
      exact List.mem_cons_self
  · rw [leased.shards]
    intro shard member
    rcases List.mem_cons.mp member with rfl | old
    · exact ⟨_, List.mem_append_right _ List.mem_cons_self, rfl⟩
    · obtain ⟨worker, present, own⟩ := sound.covered shard old
      exact ⟨worker, List.mem_append_left _ present, own⟩

/-- A recorded event counts for the shard, for the job and for the worker alike. -/
theorem CountersSound.record (sound : CountersSound fleet) {worker : FleetWorker} (member : worker ∈ fleet.workers)
    {shardId : ShardId} (key : worker.assignment.shardId = shardId) {index more : Nat}
    (counted : Counted shardId worker.assignment.jobId more fleet.db after)
    (grown : (worker.recorded index).reported = worker.reported + more) :
    CountersSound ⟨after, Table.modify (·.assignment.shardId) shardId (FleetWorker.recorded index) fleet.workers⟩ := by
  subst key
  have row := (sound.workers worker member).shard
  refine ⟨?_, ?_, ?_, ?_, ?_, ?_, ?_⟩
  · rw [counted.shards]
    exact sound.shardIds.modify fun _ _ => rfl
  · rw [counted.jobs]
    exact sound.jobIds.modify fun _ _ => rfl
  · exact sound.workerIds.modify fun _ _ => rfl
  · rw [counted.shards, counted.jobs]
    intro shard present
    obtain ⟨old, there, same⟩ : ∃ old ∈ fleet.db.shardCounts, shard.jobId = old.jobId := by
      rcases Table.mem_modify present with ⟨old, there, -, rfl⟩ | ⟨there, -⟩
      · exact ⟨old, there, rfl⟩
      · exact ⟨shard, there, rfl⟩
    obtain ⟨job, known, own⟩ := sound.owned old there
    by_cases mine : job.id = worker.assignment.jobId
    · exact ⟨job.add more, Table.mem_modify_self known mine, own.trans same.symm⟩
    · exact ⟨job, Table.mem_modify_of_ne known mine, own.trans same.symm⟩
  · rw [counted.shards, counted.jobs]
    intro job present
    rcases Table.mem_modify present with ⟨old, there, own, rfl⟩ | ⟨there, other⟩
    · have sum := @processedOf_modify _ _ more sound.shardIds row
      calc
        old.attempts + more = processedOf fleet.db.shardCounts old.id + more := by rw [sound.attempts old there]
        _ = processedOf fleet.db.shardCounts worker.count.jobId + more := by rw [own]; rfl
        _ = _ := sum.symm
        _ = _ := by rw [show worker.count.jobId = old.id from own.symm]; rfl
    · rw [sound.attempts job there]
      exact (processedOf_modify_other sound.shardIds row (Ne.symm other)).symm
  · intro changed present
    rcases Table.mem_modify present with ⟨old, there, own, rfl⟩ | ⟨there, other⟩
    · obtain rfl := Table.eq_of_key sound.workerIds there member own
      have followed := sound.workers old there
      refine ⟨followed.own, counted.devices.device followed.device, ?_⟩
      have same : (old.recorded index).count = old.count.add more := by
        rw [FleetWorker.count, grown]
        rfl
      rw [counted.shards, same]
      exact Table.mem_modify_self row rfl
    · have followed := sound.workers changed there
      refine ⟨followed.own, counted.devices.device followed.device, ?_⟩
      rw [counted.shards]
      exact Table.mem_modify_of_ne followed.shard other
  · rw [counted.shards]
    intro shard present
    obtain ⟨old, there, same⟩ : ∃ old ∈ fleet.db.shardCounts, shard.id = old.id := by
      rcases Table.mem_modify present with ⟨old, there, -, rfl⟩ | ⟨there, -⟩
      · exact ⟨old, there, rfl⟩
      · exact ⟨shard, there, rfl⟩
    obtain ⟨other, known, own⟩ := sound.covered old there
    by_cases mine : other.assignment.shardId = worker.assignment.shardId
    · exact ⟨other.recorded index, Table.mem_modify_self known mine, own.trans same.symm⟩
    · exact ⟨other, Table.mem_modify_of_ne known mine, own.trans same.symm⟩

theorem CountersSound.deliver (sound : CountersSound fleet) {shardId : ShardId} {index entropy : Nat} {now : Time}
    (performed : (fleetMachine verification).step (.deliver shardId index entropy now) fleet = some next) :
    CountersSound next ∧ Grows fleet.db next.db := by
  obtain ⟨worker, known, performed⟩ := Option.bind_eq_some_iff.mp performed
  split at performed
  · cases performed
  · rename_i turn
    obtain ⟨event, found, performed⟩ := Option.bind_eq_some_iff.mp performed
    obtain ⟨after, recorded, performed⟩ := Option.bind_eq_some_iff.mp performed
    cases performed
    have member := Table.mem_of_lookup known
    have key := Table.key_of_lookup known
    have followed := sound.workers worker member
    obtain ⟨shard, present, row⟩ := List.mem_map.mp followed.shard
    have processed : shard.processed = worker.reported := congrArg ShardCount.processed row
    have own : shard.id = worker.assignment.shardId := congrArg ShardCount.id row
    have owner : shard.jobId = worker.assignment.jobId := congrArg ShardCount.jobId row
    have token : shard.leaseToken = worker.assignment.leaseToken := congrArg ShardCount.leaseToken row
    have next := Nat.le_of_not_lt turn
    have fits := (worker.countsUp followed.own).inTurn found
    obtain ⟨device, there, uuid⟩ := followed.device
    have counted := counted_recordEvent sound.shards_unique present (fits.shardId.trans (congrArg some own.symm))
      (fits.leaseToken.trans (congrArg some token.symm)) there (uuid.trans fits.gpuUuid.symm)
      (fun settles => processed ▸ worker.settled followed.own found next settles) recorded
    rw [own, key, owner] at counted
    exact ⟨sound.record member key counted (worker.reported_recorded followed.own found next processed), counted.grows⟩

/-- Every permitted step keeps the counters sound, and counts nothing down. -/
theorem CountersSound.step (sound : CountersSound fleet) {action : FleetAction} (permitted : Permitted fleet action)
    (performed : (fleetMachine verification).step action fleet = some next) :
    CountersSound next ∧ Grows fleet.db next.db := by
  cases action with
  | deliver shardId index entropy now => exact sound.deliver performed
  | store operation pid work =>
    obtain ⟨after, stored, performed⟩ := Option.bind_eq_some_iff.mp performed
    cases performed
    have silently (none_ : operation.leased fleet.db = none) (same : SameCounts fleet.db after) :
        CountersSound ⟨after, fleet.workers ++ (operation.leased fleet.db).toList.map fun assignment =>
          ⟨⟨assignment.gpuUuid, pid⟩, assignment, work, 0⟩⟩ ∧ Grows fleet.db after := by
      rw [none_, Option.toList_none, List.map_nil, List.append_nil]
      exact ⟨sound.same same, same.grows⟩
    cases operation with
    | create job =>
      simp only [perform] at stored
      split at stored
      · rename_i created
        cases stored
        have same := sound.create created permitted
        simp only [Operation.leased, Option.toList_none, List.map_nil, List.append_nil]
        exact ⟨same, .refl _⟩
      · cases stored
    | boot devices =>
      cases stored
      exact silently rfl (sameCounts_initializeDevices devices)
    | recover now =>
      cases stored
      exact silently rfl (sameCounts_recover now)
    | claim combinedRate timeoutSeconds now draw locked =>
      cases stored
      exact silently rfl (sameCounts_claimNextJob combinedRate timeoutSeconds now draw locked)
    | allocate jobId gpuUuid shardSeconds kernelBatchMs lease =>
      simp only [perform] at stored
      split at stored
      · rename_i fresh
        cases outcome : allocateShard jobId gpuUuid shardSeconds kernelBatchMs lease fleet.db with
        | refused =>
          rw [outcome] at stored
          cases stored
          exact silently (by simp only [Operation.leased, outcome]) (.refl _)
        | exhausted failed =>
          rw [outcome] at stored
          cases stored
          exact silently (by simp only [Operation.leased, outcome]) (sameCounts_exhausted outcome)
        | assigned assignment stored_ =>
          rw [outcome] at stored
          cases stored
          have leased := leasedCounts_assigned outcome
          simp only [Operation.leased, outcome, Option.toList_some, List.map_cons, List.map_nil]
          refine ⟨sound.lease leased ?_ pid work, ?_⟩
          · obtain ⟨_, _, _, _, _, _, rfl⟩ := allocateShard_assigned outcome
            intro shard member
            obtain ⟨row, present, rfl⟩ := List.mem_map.mp member
            exact fresh row present
          · intro shard member
            rw [leased.shards]
            exact ⟨shard, List.mem_cons_of_mem _ member, rfl, le_rfl⟩
        | duplicateRangeStart =>
          rw [outcome] at stored
          cases stored
      · cases stored
    | record event entropy now => exact silently rfl (sameCounts_recordEvent permitted stored)
    | check jobId now =>
      cases stored
      exact silently rfl (sameCounts_activeJobStatus now jobId)
    | cancel user jobId now =>
      cases stored
      exact silently rfl (sameCounts_cancelJob user now jobId)
    | submit jobId workerId address offset entropy now => exact silently rfl (sameCounts_submitCandidate stored)
    | offline =>
      cases stored
      exact silently rfl (sameCounts_markDevicesOffline fleet.db)

end Step

/-- The counters of the reached tables: every shard counts up, within its range, and the
attempts of a job are what its shards have processed. -/
theorem attempts_eq_processed {fleet later : Fleet} (run : (fleetMachine verification).Run Permitted ⟨{}, []⟩ fleet)
    (further : (fleetMachine verification).Run Permitted fleet later) :
    (∀ shard ∈ fleet.db.shards, shard.processed ≤ shard.rangeCount ∧
      ∃ counted, later.db.shard? shard.id = some counted ∧ shard.processed ≤ counted.processed) ∧
    ∀ job ∈ fleet.db.jobs, job.attempts =
      ((fleet.db.shards.filter fun shard => decide (shard.jobId = job.id)).map GenerationShard.processed).sum := by
  have sound : CountersSound fleet := by
    apply Machine.Run.invariant run
    · intro before action after valid permitted performed
      exact (valid.step permitted performed).1
    · exact ⟨List.nodup_nil, List.nodup_nil, List.nodup_nil, by simp [Database.shardCounts],
        by simp [Database.jobCounts], by simp, by simp [Database.shardCounts]⟩
  have grown : CountersSound later ∧ Grows fleet.db later.db := by
    apply Machine.Run.invariant further
    · intro before action after valid permitted performed
      obtain ⟨kept, more⟩ := valid.1.step permitted performed
      exact ⟨kept, valid.2.trans more⟩
    · exact ⟨sound, .refl _⟩
  constructor
  · intro shard member
    have row : shard.count ∈ fleet.db.shardCounts := List.mem_map_of_mem member
    constructor
    · obtain ⟨worker, present, own⟩ := sound.covered _ row
      have followed := sound.workers worker present
      have same : worker.count = shard.count := Table.eq_of_key sound.shardIds followed.shard row own
      calc
        shard.processed = worker.reported := (congrArg ShardCount.processed same).symm
        _ ≤ worker.assignment.rangeCount := worker.reported_le followed.own
        _ = shard.rangeCount := congrArg ShardCount.rangeCount same
    · obtain ⟨next, present, own, more⟩ := grown.2 _ row
      obtain ⟨counted, there, rfl⟩ := List.mem_map.mp present
      refine ⟨counted, ?_, more⟩
      have key : counted.id = shard.id := own
      rw [← key]
      exact Table.lookup_of_mem grown.1.shards_unique there
  · intro job member
    have counted := sound.attempts job.count (List.mem_map_of_mem member)
    rw [processedOf, Database.shardCounts, List.filter_map, List.map_map] at counted
    exact counted

instance (fleet : Fleet) (action : FleetAction) : Decidable (Permitted fleet action) :=
  match action with
  | .store (.create job) _ _ => inferInstanceAs (Decidable (job.attempts = 0))
  | .store (.record event _ _) _ _ =>
    inferInstanceAs (Decidable (event.shardId = none ∨ event.eventType = .failed))
  | .store (.boot _) _ _ | .store (.recover _) _ _ | .store (.claim ..) _ _ | .store (.allocate ..) _ _
  | .store (.check ..) _ _ | .store (.cancel ..) _ _ | .store (.submit ..) _ _ | .store .offline _ _
  | .deliver .. => inferInstanceAs (Decidable True)

/-- A simulated search, one event of which is recorded twice, until the supervisor fails its shard. -/
def countedActions : List FleetAction :=
  [.store (.create sampleJob) 0 (.cuda []), .store (.boot [sampleGpu]) 0 (.cuda []),
    .store (.record readyEvent 0 21) 0 (.cuda []), .store (.claim 5 86400 22 sampleDraw fun _ => false) 0 (.cuda []),
    .store (.allocate 1 "GPU-0" 10 500 ⟨1, 1, 30⟩) 7 (.simulated [[], [], [.cancelJob 1]]),
    .deliver 1 0 0 31, .deliver 1 1 0 32, .deliver 1 1 0 33]

def lostEvent : WorkerEvent where
  eventType := .failed
  gpuUuid := "GPU-0"
  workerPid := 7
  jobId := some 1
  shardId := some 1
  leaseToken := some 1
  error := some "GPU worker exited before completing its assignment."

def furtherActions : List FleetAction :=
  [.store (.record lostEvent 0 34) 0 (.cuda []), .deliver 1 2 0 35, .deliver 1 3 0 36]

def countedFleet : Fleet := ((fleetMachine refusing).replay Permitted countedActions ⟨{}, []⟩).getD ⟨{}, []⟩

def furtherFleet : Fleet := ((fleetMachine refusing).replay Permitted furtherActions countedFleet).getD ⟨{}, []⟩

theorem attempts_eq_processed_twice :
    (∀ shard ∈ countedFleet.db.shards, shard.processed ≤ shard.rangeCount ∧
      ∃ counted, furtherFleet.db.shard? shard.id = some counted ∧ shard.processed ≤ counted.processed) ∧
    ∀ job ∈ countedFleet.db.jobs, job.attempts = ((countedFleet.db.shards.filter fun shard =>
      decide (shard.jobId = job.id)).map GenerationShard.processed).sum := by
  have run : (fleetMachine refusing).Run Permitted ⟨{}, []⟩ countedFleet := Machine.replay_run countedActions rfl
  have further : (fleetMachine refusing).Run Permitted countedFleet furtherFleet :=
    Machine.replay_run furtherActions rfl
  exact attempts_eq_processed run further

end TronForge.Generator
