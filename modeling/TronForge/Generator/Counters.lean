import TronForge.Generator.Progress

/-! The counters of the tables: what a shard has processed, and the attempts of a job. -/

namespace TronForge.Generator

open Library

variable {verification : Verification} {db after : Database}

/-- A shard, as far as it is counted. -/
structure ShardCount where
  id : ShardId
  jobId : JobId
  leaseToken : LeaseToken
  rangeCount : Nat
  processed : Nat

structure JobCount where
  id : JobId
  attempts : Nat

def GenerationShard.count (shard : GenerationShard) : ShardCount :=
  ⟨shard.id, shard.jobId, shard.leaseToken, shard.rangeCount, shard.processed⟩

def GenerationJob.count (job : GenerationJob) : JobCount := ⟨job.id, job.attempts⟩

def ShardCount.add (more : Nat) (shard : ShardCount) : ShardCount := { shard with processed := shard.processed + more }

def JobCount.add (more : Nat) (job : JobCount) : JobCount := { job with attempts := job.attempts + more }

def Database.shardCounts (db : Database) : List ShardCount := db.shards.map GenerationShard.count

def Database.jobCounts (db : Database) : List JobCount := db.jobs.map GenerationJob.count

/-- What all shards of a job have processed. -/
def processedOf (shards : List ShardCount) (jobId : JobId) : Nat :=
  ((shards.filter fun shard => decide (shard.jobId = jobId)).map ShardCount.processed).sum

/-- Every device is still there. -/
def KeepsDevices (db after : Database) : Prop :=
  ∀ device ∈ db.devices, ∃ other ∈ after.devices, other.uuid = device.uuid

/-- A transaction that counts nothing. -/
structure SameCounts (db after : Database) : Prop where
  shards : after.shardCounts = db.shardCounts
  jobs : after.jobCounts = db.jobCounts
  devices : KeepsDevices db after

/-- A transaction that counts more for a shard and its job. -/
structure Counted (shardId : ShardId) (jobId : JobId) (more : Nat) (db after : Database) : Prop where
  shards : after.shardCounts = Table.modify ShardCount.id shardId (ShardCount.add more) db.shardCounts
  jobs : after.jobCounts = Table.modify JobCount.id jobId (JobCount.add more) db.jobCounts
  devices : KeepsDevices db after

theorem KeepsDevices.refl (db : Database) : KeepsDevices db db := fun device member => ⟨device, member, rfl⟩

theorem KeepsDevices.trans {middle : Database} (first : KeepsDevices db middle) (second : KeepsDevices middle after) :
    KeepsDevices db after := by
  intro device member
  obtain ⟨other, present, same⟩ := first device member
  obtain ⟨last, there, equal⟩ := second other present
  exact ⟨last, there, equal.trans same⟩

theorem SameCounts.refl (db : Database) : SameCounts db db := ⟨rfl, rfl, .refl db⟩

theorem SameCounts.trans {middle : Database} (first : SameCounts db middle) (second : SameCounts middle after) :
    SameCounts db after :=
  ⟨second.shards.trans first.shards, second.jobs.trans first.jobs, first.devices.trans second.devices⟩

section Counted
variable {shardId : ShardId} {jobId : JobId} {more : Nat} {middle : Database}

theorem SameCounts.counted (same : SameCounts db after) : Counted shardId jobId 0 db after := by
  have nothing (shards : List ShardCount) : Table.modify ShardCount.id shardId (ShardCount.add 0) shards = shards := by
    conv_rhs => rw [← List.map_id shards]
    apply List.map_congr_left
    intro shard _
    split <;> rfl
  have nothingToo (jobs : List JobCount) : Table.modify JobCount.id jobId (JobCount.add 0) jobs = jobs := by
    conv_rhs => rw [← List.map_id jobs]
    apply List.map_congr_left
    intro job _
    split <;> rfl
  exact ⟨by rw [nothing, same.shards], by rw [nothingToo, same.jobs], same.devices⟩

theorem SameCounts.thenCounted (same : SameCounts db middle) (counted : Counted shardId jobId more middle after) :
    Counted shardId jobId more db after :=
  ⟨by rw [counted.shards, same.shards], by rw [counted.jobs, same.jobs], same.devices.trans counted.devices⟩

theorem Counted.thenSame (counted : Counted shardId jobId more db middle) (same : SameCounts middle after) :
    Counted shardId jobId more db after :=
  ⟨same.shards.trans counted.shards, same.jobs.trans counted.jobs, counted.devices.trans same.devices⟩

end Counted

theorem sameCounts_modifyJob (jobId : JobId) {change : GenerationJob → GenerationJob}
    (kept : ∀ job, (change job).count = job.count) : SameCounts db (db.modifyJob jobId change) := by
  refine ⟨rfl, ?_, .refl db⟩
  simp only [Database.jobCounts, Database.modifyJob, Table.modify, List.map_map]
  apply List.map_congr_left
  intro job _
  rw [Function.comp_apply]
  split
  · exact kept job
  · rfl

theorem sameCounts_shards {change : GenerationShard → GenerationShard}
    (kept : ∀ shard, (change shard).count = shard.count) :
    SameCounts db { db with shards := db.shards.map change } := by
  refine ⟨?_, rfl, .refl db⟩
  simp only [Database.shardCounts, List.map_map]
  apply List.map_congr_left
  exact fun shard _ => kept shard

theorem sameCounts_modifyShard (shardId : ShardId) {change : GenerationShard → GenerationShard}
    (kept : ∀ shard, (change shard).count = shard.count) : SameCounts db (db.modifyShard shardId change) := by
  apply sameCounts_shards
  intro shard
  split
  · exact kept shard
  · rfl

theorem sameCounts_modifyDevice (uuid : GpuUuid) {change : GpuDevice → GpuDevice}
    (kept : ∀ device, (change device).uuid = device.uuid) : SameCounts db (db.modifyDevice uuid change) := by
  refine ⟨rfl, rfl, ?_⟩
  intro device member
  by_cases own : device.uuid = uuid
  · exact ⟨change device, Table.mem_modify_self member own, kept device⟩
  · exact ⟨device, Table.mem_modify_of_ne member own, rfl⟩

section Writes
variable {shard : GenerationShard} {more : Nat}

/-- A shard and its job are counted together. -/
theorem counted_modify (unique : Table.Unique (·.id) db.shards) (member : shard ∈ db.shards)
    {change : GenerationShard → GenerationShard} (grows : (change shard).count = shard.count.add more) (jobId : JobId) :
    Counted shard.id jobId more db ((db.modifyShard shard.id change).modifyJob jobId (countAttempts more)) := by
  refine ⟨?_, ?_, .refl db⟩
  · simp only [Database.shardCounts, Database.modifyJob, Database.modifyShard, Table.modify, List.map_map]
    apply List.map_congr_left
    intro row present
    simp only [Function.comp_apply]
    have key : row.count.id = row.id := rfl
    by_cases own : row.id = shard.id
    · obtain rfl := Table.eq_of_key unique present member own
      rw [if_pos rfl, if_pos key, grows]
    · rw [if_neg own, key, if_neg own]
  · simp only [Database.jobCounts, Database.modifyJob, Database.modifyShard, Table.modify, List.map_map]
    apply List.map_congr_left
    intro job _
    simp only [Function.comp_apply]
    have key : job.count.id = job.id := rfl
    rw [key]
    by_cases own : job.id = jobId
    · rw [if_pos own, if_pos own]
      rfl
    · rw [if_neg own, if_neg own]

/-- A change of a shard that leaves its counts. -/
theorem sameCounts_modifyShard_self (unique : Table.Unique (·.id) db.shards) (member : shard ∈ db.shards)
    {change : GenerationShard → GenerationShard} (kept : (change shard).count = shard.count) :
    SameCounts db (db.modifyShard shard.id change) := by
  refine ⟨?_, rfl, .refl db⟩
  simp only [Database.shardCounts, Database.modifyShard, Table.modify, List.map_map]
  apply List.map_congr_left
  intro row present
  rw [Function.comp_apply]
  split
  · rename_i own
    rw [Table.eq_of_key unique present member own]
    exact kept
  · rfl

theorem sameCounts_accept (result : GenerationResult) (now : Time) : SameCounts db (db.accept result now) := by
  have accepted : SameCounts db (db.modifyJob result.jobId fun job =>
      { job with status := .ready, completedAt := some now }) := sameCounts_modifyJob _ fun _ => rfl
  exact ⟨accepted.shards, accepted.jobs, accepted.devices⟩

theorem sameCounts_rejectWinner (event : WorkerEvent) (shard : GenerationShard) (message : String) (now : Time) :
    SameCounts db (rejectWinner event shard message now db) := by
  have shards : SameCounts db (db.modifyShard shard.id fun shard =>
      { shard with status := .failed, failureMessage := some message }) := sameCounts_modifyShard _ fun _ => rfl
  refine (shards.trans (sameCounts_modifyDevice event.gpuUuid ?_)).trans
    (sameCounts_modifyJob shard.jobId ?_)
  · exact fun _ => rfl
  · exact fun _ => rfl

theorem sameCounts_recordWinner {entropy : Nat} {now : Time} {event : WorkerEvent} {address offset : String}
    (recorded : recordWinner verification entropy now event shard address offset db = some after) :
    SameCounts db after := by
  unfold recordWinner at recorded
  split at recorded
  · cases recorded
  · cases recorded
    exact sameCounts_modifyShard _ fun _ => rfl
  · cases recorded
    exact sameCounts_rejectWinner ..
  · cases recorded
    exact sameCounts_rejectWinner ..
  · cases recorded
    exact .refl db
  · split at recorded
    · cases recorded
      exact sameCounts_accept ..
    · cases recorded

/-- How much more an event counts. -/
def countedMore (event : WorkerEvent) (shard : GenerationShard) : Nat :=
  if event.eventType.counts then processedAfter event shard - shard.processed else 0

theorem processedAfter_eq (event : WorkerEvent) (shard : GenerationShard) :
    processedAfter event shard = shard.processed + (processedAfter event shard - shard.processed) := by
  have least : shard.processed ≤ processedAfter event shard := Nat.le_max_left _ _
  omega

theorem processedAfter_settled {event : WorkerEvent} (small : event.processedTotal.toNat ≤ shard.processed) :
    processedAfter event shard = shard.processed := Nat.max_eq_left small

theorem counted_recordFound {entropy : Nat} {now : Time} {event : WorkerEvent}
    (unique : Table.Unique (·.id) db.shards) (member : shard ∈ db.shards)
    (recorded : recordFound verification entropy now event shard db = some after) :
    Counted shard.id shard.jobId (processedAfter event shard - shard.processed) db after := by
  have counted : Counted shard.id shard.jobId (processedAfter event shard - shard.processed) db
      (countFound now event shard db) := by
    apply counted_modify unique member
    simp only [GenerationShard.count, ShardCount.add, ShardCount.mk.injEq, true_and]
    exact processedAfter_eq event shard
  unfold recordFound at recorded
  split at recorded
  · exact counted.thenSame (sameCounts_recordWinner recorded)
  · cases recorded
    exact counted.thenSame (sameCounts_rejectWinner ..)

/-- An event that settles a shard only after its counts were reported counts what it
counts for the shard and for the job alike. -/
theorem counted_recordShard {entropy : Nat} {now : Time} {event : WorkerEvent}
    (unique : Table.Unique (·.id) db.shards) (member : shard ∈ db.shards)
    (settled : event.eventType.settles = true → event.processedTotal.toNat ≤ shard.processed)
    (recorded : recordShard verification entropy now event shard db = some after) :
    Counted shard.id shard.jobId (countedMore event shard) db after := by
  have settles {change : GenerationShard → GenerationShard} (kept : (change shard).count = shard.count) :
      Counted shard.id shard.jobId 0 db (db.modifyShard shard.id change) :=
    (sameCounts_modifyShard_self unique member kept).counted
  unfold recordShard at recorded
  unfold countedMore
  split at recorded
  case h_1 kind =>
    cases recorded
    rw [kind]
    exact settles rfl
  case h_2 kind =>
    cases recorded
    rw [kind]
    apply counted_modify unique member
    simp only [GenerationShard.count, ShardCount.add, ShardCount.mk.injEq, true_and]
    exact processedAfter_eq event shard
  case h_3 kind =>
    cases recorded
    rw [kind] at settled ⊢
    apply settles
    rw [processedAfter_settled (settled rfl)]
    rfl
  case h_4 kind =>
    rw [kind]
    exact counted_recordFound unique member recorded
  case h_5 kind =>
    cases recorded
    rw [kind] at settled ⊢
    apply settles
    rw [processedAfter_settled (settled rfl)]
    rfl
  case h_6 kind =>
    cases recorded
    rw [kind]
    exact settles rfl
  case h_7 =>
    cases recorded
    have silent : event.eventType.counts = false := by
      cases kind : event.eventType <;> first | rfl | contradiction
    rw [silent]
    exact (SameCounts.refl db).counted

theorem deviceAfter_uuid (now : Time) (event : WorkerEvent) (device : GpuDevice) :
    (deviceAfter now event device).uuid = device.uuid := by
  unfold deviceAfter
  cases event.eventType <;> rfl

/-- An event that counts nothing. -/
theorem sameCounts_recordEvent {entropy : Nat} {now : Time} {event : WorkerEvent}
    (silent : event.shardId = none ∨ event.eventType = .failed)
    (recorded : recordEvent verification entropy now event db = some after) : SameCounts db after := by
  unfold recordEvent at recorded
  split at recorded
  · cases recorded
    exact .refl db
  · have noted : SameCounts db (db.modifyDevice event.gpuUuid (deviceAfter now event)) :=
      sameCounts_modifyDevice _ (deviceAfter_uuid now event)
    simp only at recorded
    split at recorded
    · cases recorded
      exact noted
    · rename_i shard matching
      rcases silent with unnamed | failed
      · rw [Database.matchingShard, unnamed] at matching
        cases matching
      · rw [recordShard, failed] at recorded
        cases recorded
        exact noted.trans (sameCounts_modifyShard _ fun _ => rfl)

/-- An event of a leased shard counts for the shard and its job. -/
theorem counted_recordEvent {entropy : Nat} {now : Time} {event : WorkerEvent}
    (unique : Table.Unique (·.id) db.shards) (member : shard ∈ db.shards)
    (shardId : event.shardId = some shard.id) (leaseToken : event.leaseToken = some shard.leaseToken)
    {device : GpuDevice} (present : device ∈ db.devices) (own : device.uuid = event.gpuUuid)
    (settled : event.eventType.settles = true → event.processedTotal.toNat ≤ shard.processed)
    (recorded : recordEvent verification entropy now event db = some after) :
    Counted shard.id shard.jobId (countedMore event shard) db after := by
  unfold recordEvent at recorded
  split at recorded
  · rename_i absent
    exact absurd own (Table.key_ne_of_lookup absent present)
  · have noted : SameCounts db (db.modifyDevice event.gpuUuid (deviceAfter now event)) :=
      sameCounts_modifyDevice _ (deviceAfter_uuid now event)
    have known : (db.modifyDevice event.gpuUuid (deviceAfter now event)).shard? shard.id = some shard :=
      Table.lookup_of_mem unique member
    have matching : (db.modifyDevice event.gpuUuid (deviceAfter now event)).matchingShard event = some shard := by
      rw [Database.matchingShard, shardId, leaseToken]
      simp only
      rw [known, Option.filter_some, if_pos (by simp)]
    simp only [matching] at recorded
    exact noted.thenCounted (counted_recordShard unique member settled recorded)

end Writes

section Transactions

theorem sameCounts_activeJobStatus (now : Time) (jobId : JobId) : SameCounts db (activeJobStatus now jobId db).2 := by
  unfold activeJobStatus
  split
  · exact .refl db
  · split
    · exact sameCounts_modifyJob _ fun _ => rfl
    · exact .refl db

theorem sameCounts_cancelJob (user : UserId) (now : Time) (jobId : JobId) :
    SameCounts db (cancelJob user now jobId db).2 := by
  unfold cancelJob
  split
  · exact .refl db
  · split
    · exact .refl db
    · split
      · exact .refl db
      · exact sameCounts_modifyJob _ fun _ => rfl

theorem sameCounts_submitCandidate {entropy : Nat} {now : Time} {jobId : JobId} {workerId address offset : String}
    (submitted : submitCandidate verification entropy now jobId workerId address offset db = some after) :
    SameCounts db after := by
  unfold submitCandidate at submitted
  split at submitted
  · split at submitted
    · cases submitted
      exact sameCounts_accept ..
    · cases submitted
  · cases submitted
  · cases submitted
    exact .refl db

theorem sameCounts_markDevicesOffline (db : Database) : SameCounts db (markDevicesOffline db) :=
  ⟨rfl, rfl, fun _ member => ⟨_, List.mem_map.mpr ⟨_, member, rfl⟩, rfl⟩⟩

theorem sameCounts_register (db : Database) (info : GpuInfo) : SameCounts db (register db info) := by
  unfold register
  split
  · exact sameCounts_modifyDevice _ fun _ => rfl
  · exact ⟨rfl, rfl, fun device member => ⟨device, List.mem_cons_of_mem _ member, rfl⟩⟩

theorem sameCounts_initializeDevices (devices : List GpuInfo) : SameCounts db (initializeDevices devices db) := by
  have registered (current : Database) (same : SameCounts db current) :
      SameCounts db (devices.foldl register current) := by
    induction devices generalizing current with
    | nil => exact same
    | cons info rest hypothesis => exact hypothesis _ (same.trans (sameCounts_register current info))
  exact registered _ (sameCounts_markDevicesOffline db)

theorem interruptShard_count (now : Time) (shard : GenerationShard) : (interruptShard now shard).count = shard.count := by
  unfold interruptShard
  split <;> rfl

theorem requeue_count (job : GenerationJob) : (requeue job).count = job.count := by
  unfold requeue
  split <;> rfl

theorem sameCounts_recover (now : Time) : SameCounts db (recoverInterruptedWork now db) := by
  have shards : SameCounts db { db with shards := db.shards.map (interruptShard now) } :=
    sameCounts_shards (interruptShard_count now)
  refine ⟨shards.shards, ?_, shards.devices⟩
  simp only [Database.jobCounts, recoverInterruptedWork, List.map_map]
  apply List.map_congr_left
  exact fun job _ => requeue_count job

theorem sameCounts_claimNextJob (combinedRate timeoutSeconds : Nat) (now : Time) (draw : Fin (secp256k1Order - 1))
    (locked : JobId → Bool) : SameCounts db (claimNextJob combinedRate timeoutSeconds now draw locked db).2 := by
  rcases claimNextJob_cases db combinedRate timeoutSeconds now draw locked with same | ⟨_, job, _, started⟩
  · rw [same]
    exact .refl db
  · rw [started]
    exact sameCounts_modifyJob _ fun _ => rfl

theorem sameCounts_exhausted {jobId : JobId} {gpuUuid : GpuUuid} {shardSeconds kernelBatchMs : Nat} {lease : Lease}
    (exhausted : allocateShard jobId gpuUuid shardSeconds kernelBatchMs lease db = .exhausted after) :
    SameCounts db after := by
  unfold allocateShard at exhausted
  split at exhausted
  · split at exhausted
    · cases exhausted
    · split at exhausted
      · cases exhausted
      · simp only at exhausted
        split at exhausted
        · cases exhausted
          exact sameCounts_modifyJob _ fun _ => rfl
        · split at exhausted
          · cases exhausted
          · cases exhausted
  · cases exhausted

/-- A lease adds one shard that nothing was counted for. -/
structure LeasedCounts (assignment : WorkAssignment) (db after : Database) : Prop where
  shards : after.shardCounts =
    ⟨assignment.shardId, assignment.jobId, assignment.leaseToken, assignment.rangeCount, 0⟩ :: db.shardCounts
  jobs : after.jobCounts = db.jobCounts
  job : ∃ job ∈ db.jobCounts, job.id = assignment.jobId
  device : ∃ device ∈ db.devices, device.uuid = assignment.gpuUuid
  devices : KeepsDevices db after

theorem leasedCounts_assigned {jobId : JobId} {gpuUuid : GpuUuid} {shardSeconds kernelBatchMs : Nat} {lease : Lease}
    {assignment : WorkAssignment}
    (assigned : allocateShard jobId gpuUuid shardSeconds kernelBatchMs lease db = .assigned assignment after) :
    LeasedCounts assignment db after := by
  unfold allocateShard at assigned
  split at assigned
  · rename_i job device jobKnown deviceKnown
    split at assigned
    · cases assigned
    · split at assigned
      · cases assigned
      · rename_i start offset
        simp only at assigned
        split at assigned
        · cases assigned
        · split at assigned
          · cases assigned
          · cases assigned
            have searched := fun current : Database => @sameCounts_modifyJob current jobId
              (advance (start + leaseCount device shardSeconds)) fun _ => rfl
            have occupied := fun current : Database => @sameCounts_modifyDevice current gpuUuid
              (occupy jobId lease.now) fun _ => rfl
            let stored := newShard job device start (leaseCount device shardSeconds) lease :: db.shards
            have same := (searched { db with shards := stored }).trans (occupied _)
            exact ⟨same.shards, same.jobs, ⟨job.count, List.mem_map_of_mem (Table.mem_of_lookup jobKnown), rfl⟩,
              ⟨device, Table.mem_of_lookup deviceKnown, rfl⟩, same.devices⟩
  · cases assigned

end Transactions

end TronForge.Generator
