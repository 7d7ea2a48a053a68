import TronForge.Generator.Store

/-! The ranges leased to workers. Every shard of a job starts at the origin of
its search or later; while a job has not been put back to its origin, the next
offset lies past every stored start, so the unique constraint on
`(job_id, range_start)` cannot reject a new shard. -/

namespace TronForge.Generator

open Library

variable {verification : Verification} {db after : Database}

/-- The pairs under `uq_shard_job_range_start`. -/
def Database.ranges (db : Database) : List (JobId × Nat) :=
  db.shards.map fun shard => (shard.jobId, shard.rangeStart)

/-- A change of a job that leaves its offsets alone and does not start a search. -/
structure SameSearch (job next : GenerationJob) : Prop where
  id : next.id = job.id
  origin : next.searchOrigin = job.searchOrigin
  offset : next.nextOffset = job.nextOffset
  searching : next.status = .searching → job.status = .searching

/-- A transaction that neither leases a range nor moves an offset. -/
structure Quiet (db after : Database) : Prop where
  jobs : ∃ change : GenerationJob → GenerationJob,
    after.jobs = db.jobs.map change ∧ ∀ job, SameSearch job (change job)
  ranges : after.ranges = db.ranges

theorem Quiet.refl (db : Database) : Quiet db db :=
  ⟨⟨id, by simp, fun _ => ⟨rfl, rfl, rfl, fun same => same⟩⟩, rfl⟩

theorem Quiet.trans {middle : Database} (first : Quiet db middle) (second : Quiet middle after) :
    Quiet db after := by
  obtain ⟨left, leftJobs, leftSame⟩ := first.jobs
  obtain ⟨right, rightJobs, rightSame⟩ := second.jobs
  refine ⟨⟨fun job => right (left job), ?_, ?_⟩, second.ranges.trans first.ranges⟩
  · rw [rightJobs, leftJobs, List.map_map]
    rfl
  · intro job
    have inner := leftSame job
    have outer := rightSame (left job)
    exact ⟨outer.id.trans inner.id, outer.origin.trans inner.origin,
      outer.offset.trans inner.offset, fun same => inner.searching (outer.searching same)⟩

theorem quiet_modifyJob (jobId : JobId) {change : GenerationJob → GenerationJob}
    (same : ∀ job, SameSearch job (change job)) : Quiet db (db.modifyJob jobId change) := by
  refine ⟨⟨_, rfl, ?_⟩, rfl⟩
  intro job
  by_cases own : job.id = jobId
  · simpa only [own, ↓reduceIte] using same job
  · simp only [own, ↓reduceIte]
    exact ⟨rfl, rfl, rfl, fun same => same⟩

theorem quiet_modifyDevice (uuid : GpuUuid) (change : GpuDevice → GpuDevice) :
    Quiet db (db.modifyDevice uuid change) :=
  ⟨(Quiet.refl db).jobs, rfl⟩

/-- Changing shards, but neither their job nor their start, is quiet. -/
theorem quiet_shards {change : GenerationShard → GenerationShard}
    (kept : ∀ shard, (change shard).jobId = shard.jobId ∧ (change shard).rangeStart = shard.rangeStart) :
    Quiet db { db with shards := db.shards.map change } := by
  refine ⟨(Quiet.refl db).jobs, ?_⟩
  simp only [Database.ranges, List.map_map]
  apply List.map_congr_left
  intro shard _
  obtain ⟨job, start⟩ := kept shard
  simp [job, start]

theorem quiet_modifyShard (shardId : ShardId) {change : GenerationShard → GenerationShard}
    (kept : ∀ shard, (change shard).jobId = shard.jobId ∧ (change shard).rangeStart = shard.rangeStart) :
    Quiet db (db.modifyShard shardId change) := by
  apply quiet_shards
  intro shard
  by_cases own : shard.id = shardId
  · simpa only [own, ↓reduceIte] using kept shard
  · simp [own]

theorem quiet_accept (result : GenerationResult) (now : Time) : Quiet db (db.accept result now) := by
  have accepted : Quiet db (db.modifyJob result.jobId fun job =>
      { job with status := .ready, completedAt := some now }) :=
    quiet_modifyJob _ fun job => ⟨rfl, rfl, rfl, by simp⟩
  exact ⟨accepted.jobs, accepted.ranges⟩

theorem quiet_rejectWinner (event : WorkerEvent) (shard : GenerationShard) (message : String)
    (now : Time) : Quiet db (rejectWinner event shard message now db) := by
  have shards : Quiet db (db.modifyShard shard.id fun shard =>
      { shard with status := .failed, failureMessage := some message }) :=
    quiet_modifyShard _ fun _ => ⟨rfl, rfl⟩
  refine (shards.trans (quiet_modifyDevice _ _)).trans (quiet_modifyJob _ ?_)
  intro job
  exact ⟨rfl, rfl, rfl, by simp [failCandidate]⟩

theorem sameSearch_countAttempts (more : Nat) (job : GenerationJob) :
    SameSearch job (countAttempts more job) :=
  ⟨rfl, rfl, rfl, fun same => same⟩

theorem quiet_countFound (now : Time) (event : WorkerEvent) (shard : GenerationShard) :
    Quiet db (countFound now event shard db) := by
  refine Quiet.trans ?_ (quiet_modifyJob _ (sameSearch_countAttempts _))
  exact quiet_modifyShard _ fun _ => ⟨rfl, rfl⟩

theorem quiet_recordWinner {entropy : Nat} {now : Time} {event : WorkerEvent}
    {shard : GenerationShard} {address offset : String}
    (recorded : recordWinner verification entropy now event shard address offset db = some after) :
    Quiet db after := by
  unfold recordWinner at recorded
  split at recorded
  · cases recorded
  · cases recorded
    exact quiet_modifyShard _ fun _ => ⟨rfl, rfl⟩
  · cases recorded
    exact quiet_rejectWinner ..
  · cases recorded
    exact quiet_rejectWinner ..
  · cases recorded
    exact .refl db
  · split at recorded
    · cases recorded
      exact quiet_accept ..
    · cases recorded

theorem quiet_recordFound {entropy : Nat} {now : Time} {event : WorkerEvent} {shard : GenerationShard}
    (recorded : recordFound verification entropy now event shard db = some after) : Quiet db after := by
  have counted : Quiet db (countFound now event shard db) := quiet_countFound now event shard
  unfold recordFound at recorded
  split at recorded
  · exact counted.trans (quiet_recordWinner recorded)
  · cases recorded
    exact counted.trans (quiet_rejectWinner ..)

theorem quiet_recordShard {entropy : Nat} {now : Time} {event : WorkerEvent} {shard : GenerationShard}
    (recorded : recordShard verification entropy now event shard db = some after) : Quiet db after := by
  unfold recordShard at recorded
  split at recorded
  case h_2 =>
    cases recorded
    refine Quiet.trans ?_ (quiet_modifyJob _ (sameSearch_countAttempts _))
    exact quiet_modifyShard _ fun _ => ⟨rfl, rfl⟩
  case h_4 => exact quiet_recordFound recorded
  case h_7 =>
    cases recorded
    exact .refl db
  all_goals
    cases recorded
    exact quiet_modifyShard _ fun _ => ⟨rfl, rfl⟩

theorem quiet_recordEvent {entropy : Nat} {now : Time} {event : WorkerEvent}
    (recorded : recordEvent verification entropy now event db = some after) : Quiet db after := by
  unfold recordEvent at recorded
  split at recorded
  · cases recorded
    exact .refl db
  · have noted : Quiet db (db.modifyDevice event.gpuUuid (deviceAfter now event)) :=
      quiet_modifyDevice _ _
    simp only at recorded
    split at recorded
    · cases recorded
      exact noted
    · exact noted.trans (quiet_recordShard recorded)

theorem quiet_activeJobStatus (now : Time) (jobId : JobId) :
    Quiet db (activeJobStatus now jobId db).2 := by
  unfold activeJobStatus
  split
  · exact .refl db
  · split
    · exact quiet_modifyJob _ fun job => ⟨rfl, rfl, rfl, by simp⟩
    · exact .refl db

theorem quiet_cancelJob (user : UserId) (now : Time) (jobId : JobId) :
    Quiet db (cancelJob user now jobId db).2 := by
  unfold cancelJob
  split
  · exact .refl db
  · split
    · exact .refl db
    · split
      · exact .refl db
      · exact quiet_modifyJob _ fun job => ⟨rfl, rfl, rfl, by simp⟩

theorem quiet_submitCandidate {entropy : Nat} {now : Time} {jobId : JobId}
    {workerId address offset : String}
    (submitted : submitCandidate verification entropy now jobId workerId address offset db = some after) :
    Quiet db after := by
  unfold submitCandidate at submitted
  split at submitted
  · split at submitted
    · cases submitted
      exact quiet_accept ..
    · cases submitted
  · cases submitted
  · cases submitted
    exact .refl db

theorem quiet_initializeDevices (devices : List GpuInfo) : Quiet db (initializeDevices devices db) := by
  have registered : ∀ current : Database, Quiet db current →
      Quiet db (devices.foldl register current) := by
    induction devices with
    | nil => exact fun _ quiet => quiet
    | cons info rest ih =>
      intro current quiet
      apply ih
      refine quiet.trans ?_
      unfold register
      split
      · exact quiet_modifyDevice _ _
      · exact ⟨(Quiet.refl current).jobs, rfl⟩
  exact registered _ ⟨(Quiet.refl db).jobs, rfl⟩

/-- The offsets of one job against all leased ranges. -/
structure JobRanges (ranges : List (JobId × Nat)) (job : GenerationJob) : Prop where
  searching : job.status = .searching →
    ∃ origin next, job.searchOrigin = some origin ∧ job.nextOffset = some next
  first : ∀ start, (job.id, start) ∈ ranges →
    ∃ origin, job.searchOrigin = some origin ∧ (job.id, origin) ∈ ranges
  next : ∀ origin next, job.searchOrigin = some origin → job.nextOffset = some next →
    next = origin ∨ (job.id, origin) ∈ ranges ∧ ∀ start, (job.id, start) ∈ ranges → start < next

structure RangesSound (db : Database) : Prop where
  ids : Table.Unique (·.id) db.jobs
  owned : ∀ range ∈ db.ranges, ∃ job ∈ db.jobs, job.id = range.1
  jobs : ∀ job ∈ db.jobs, JobRanges db.ranges job

theorem JobRanges.same {ranges : List (JobId × Nat)} {job next : GenerationJob}
    (sound : JobRanges ranges job) (same : SameSearch job next) : JobRanges ranges next where
  searching status := by
    rw [same.origin, same.offset]
    exact sound.searching (same.searching status)
  first := by
    rw [same.id, same.origin]
    exact sound.first
  next := by
    rw [same.id, same.origin, same.offset]
    exact sound.next

theorem RangesSound.quiet (sound : RangesSound db) (quiet : Quiet db after) : RangesSound after := by
  obtain ⟨change, jobs, same⟩ := quiet.jobs
  refine ⟨?_, ?_, ?_⟩
  · rw [jobs]
    exact sound.ids.map fun job _ => (same job).id
  · rw [quiet.ranges, jobs]
    intro range leased
    obtain ⟨job, member, owner⟩ := sound.owned range leased
    exact ⟨change job, List.mem_map.mpr ⟨job, member, rfl⟩, (same job).id.trans owner⟩
  · rw [quiet.ranges, jobs]
    intro next member
    obtain ⟨job, present, rfl⟩ := List.mem_map.mp member
    exact (sound.jobs job present).same (same job)

theorem RangesSound.create (sound : RangesSound db) {job : GenerationJob} (created : Created db job) :
    RangesSound { db with jobs := job :: db.jobs } := by
  obtain ⟨queued, origin, offset, fresh⟩ := created
  have unleased (start : Nat) : (job.id, start) ∉ db.ranges := by
    intro leased
    obtain ⟨other, member, same⟩ := sound.owned _ leased
    exact fresh other member same
  refine ⟨?_, ?_, ?_⟩
  · simp only [Table.Unique, List.map_cons, List.nodup_cons]
    refine ⟨?_, sound.ids⟩
    intro member
    obtain ⟨other, present, same⟩ := List.mem_map.mp member
    exact fresh other present same
  · intro range leased
    obtain ⟨other, member, owner⟩ := sound.owned range leased
    exact ⟨other, List.mem_cons_of_mem _ member, owner⟩
  · intro other member
    rcases List.mem_cons.mp member with rfl | old
    · exact ⟨by simp [queued], fun start leased => absurd leased (unleased start), by simp [origin]⟩
    · exact sound.jobs other old

theorem JobRanges.requeue {ranges : List (JobId × Nat)} {job : GenerationJob}
    (sound : JobRanges ranges job) : JobRanges ranges (requeue job) := by
  unfold Generator.requeue
  split
  · refine ⟨by simp, sound.first, ?_⟩
    intro origin next known offset
    exact .inl (Option.some.inj (offset.symm.trans known))
  · exact sound

theorem requeue_id (job : GenerationJob) : (requeue job).id = job.id := by
  unfold requeue
  split <;> rfl

theorem interruptShard_range (now : Time) (shard : GenerationShard) :
    (interruptShard now shard).jobId = shard.jobId ∧
      (interruptShard now shard).rangeStart = shard.rangeStart := by
  unfold interruptShard
  split <;> exact ⟨rfl, rfl⟩

theorem ranges_recover (now : Time) : (recoverInterruptedWork now db).ranges = db.ranges :=
  (quiet_shards (interruptShard_range now)).ranges

theorem RangesSound.recover (sound : RangesSound db) (now : Time) :
    RangesSound (recoverInterruptedWork now db) := by
  refine ⟨?_, ?_, ?_⟩
  · exact sound.ids.map fun job _ => requeue_id job
  · rw [ranges_recover]
    intro range leased
    obtain ⟨job, member, owner⟩ := sound.owned range leased
    exact ⟨requeue job, List.mem_map.mpr ⟨job, member, rfl⟩, (requeue_id job).trans owner⟩
  · rw [ranges_recover]
    intro next member
    obtain ⟨job, present, rfl⟩ := List.mem_map.mp member
    exact (sound.jobs job present).requeue

theorem mem_of_nextQueued {locked : JobId → Bool} {job : GenerationJob}
    (chosen : nextQueued locked db.jobs = some job) : job ∈ db.jobs ∧ job.status = .queued := by
  have selected := List.find?_some chosen
  simp only [waiting, Bool.and_eq_true, decide_eq_true_eq] at selected
  exact ⟨List.mem_of_find?_eq_some chosen, selected.1.1⟩

/-- A claim leaves the tables alone or starts the search of one queued job. -/
theorem claimNextJob_cases (db : Database) (combinedRate timeoutSeconds : Nat) (now : Time)
    (draw : Fin (secp256k1Order - 1)) (locked : JobId → Bool) :
    (claimNextJob combinedRate timeoutSeconds now draw locked db).2 = db ∨
      (∀ job ∈ db.jobs, job.status.active = false) ∧ ∃ job, nextQueued locked db.jobs = some job ∧
        (claimNextJob combinedRate timeoutSeconds now draw locked db).2 =
          db.modifyJob job.id (startSearch combinedRate timeoutSeconds now draw) := by
  unfold claimNextJob
  cases existing : db.jobs.find? (·.status.active) with
  | some job => exact .inl rfl
  | none =>
    cases chosen : nextQueued locked db.jobs with
    | none => exact .inl rfl
    | some job =>
      right
      refine ⟨?_, job, rfl, rfl⟩
      intro other member
      simpa using List.find?_eq_none.mp existing other member

theorem JobRanges.startSearch {ranges : List (JobId × Nat)} {job : GenerationJob}
    (sound : JobRanges ranges job) (combinedRate timeoutSeconds : Nat) (now : Time)
    (draw : Fin (secp256k1Order - 1)) :
    JobRanges ranges (startSearch combinedRate timeoutSeconds now draw job) := by
  refine ⟨fun _ => ⟨_, _, rfl, rfl⟩, ?_, ?_⟩
  · intro start leased
    obtain ⟨origin, known, stored⟩ := sound.first start leased
    exact ⟨origin, by simp [Generator.startSearch, known], stored⟩
  · intro origin next known offset
    exact .inl (Option.some.inj (offset.symm.trans known))

theorem RangesSound.claim (sound : RangesSound db) (combinedRate timeoutSeconds : Nat) (now : Time)
    (draw : Fin (secp256k1Order - 1)) (locked : JobId → Bool) :
    RangesSound (claimNextJob combinedRate timeoutSeconds now draw locked db).2 := by
  rcases claimNextJob_cases db combinedRate timeoutSeconds now draw locked with
    same | ⟨-, job, -, same⟩
  · rw [same]
    exact sound
  · rw [same]
    refine ⟨?_, ?_, ?_⟩
    · exact sound.ids.modify fun _ _ => rfl
    · intro range leased
      obtain ⟨other, member, owner⟩ := sound.owned range leased
      by_cases own : other.id = job.id
      · exact ⟨_, Table.mem_modify_self member own, owner⟩
      · exact ⟨other, Table.mem_modify_of_ne member own, owner⟩
    · intro other member
      rcases Table.mem_modify member with ⟨old, present, own, rfl⟩ | ⟨old, different⟩
      · exact (sound.jobs old present).startSearch combinedRate timeoutSeconds now draw
      · exact sound.jobs other old

theorem mem_ranges {jobId : JobId} {start : Nat} : (jobId, start) ∈ db.ranges ↔
    (db.shards.any fun shard => shard.jobId = jobId && shard.rangeStart = start) = true := by
  simp [Database.ranges]

/-- The allocation leased the range at the job's next offset to the device. -/
structure Leases (job : GenerationJob) (device : GpuDevice) (start shardSeconds : Nat) (lease : Lease)
    (db after : Database) : Prop where
  offset : job.nextOffset = some start
  fits : start + leaseCount device shardSeconds < secp256k1Order
  unleased : (job.id, start) ∉ db.ranges
  jobs : after.jobs =
    (db.modifyJob job.id (advance (start + leaseCount device shardSeconds))).jobs
  shards : after.shards =
    newShard job device start (leaseCount device shardSeconds) lease :: db.shards

/-- `allocate_shard` on a searching job and a ready device. -/
theorem allocateShard_ready {job : GenerationJob} {device : GpuDevice} {start : Nat} {jobId : JobId}
    {gpuUuid : GpuUuid} {shardSeconds kernelBatchMs : Nat} {lease : Lease}
    (jobKnown : db.job? jobId = some job) (deviceKnown : db.device? gpuUuid = some device)
    (searching : job.status = .searching) (ready : device.status = .ready)
    (offset : job.nextOffset = some start) :
    (secp256k1Order ≤ start + leaseCount device shardSeconds ∧
      allocateShard jobId gpuUuid shardSeconds kernelBatchMs lease db =
        .exhausted (db.modifyJob jobId (exhaust lease.now))) ∨
    (start + leaseCount device shardSeconds < secp256k1Order ∧ (jobId, start) ∈ db.ranges ∧
      allocateShard jobId gpuUuid shardSeconds kernelBatchMs lease db = .duplicateRangeStart) ∨
    ∃ assignment after, Leases job device start shardSeconds lease db after ∧
      allocateShard jobId gpuUuid shardSeconds kernelBatchMs lease db = .assigned assignment after := by
  have key : job.id = jobId := Table.key_of_lookup jobKnown
  unfold allocateShard
  simp only [jobKnown, deviceKnown, searching, ready, offset, ne_eq, not_true_eq_false, or_self,
    ↓reduceIte]
  by_cases full : secp256k1Order ≤ start + leaseCount device shardSeconds
  · left
    simp [full]
  · right
    simp only [full, ↓reduceIte]
    by_cases taken : (db.shards.any fun shard => shard.jobId = jobId && shard.rangeStart = start) = true
    · left
      exact ⟨Nat.lt_of_not_le full, mem_ranges.mpr taken, by simp [taken]⟩
    · right
      simp only [taken]
      refine ⟨_, _, ?_, rfl⟩
      subst key
      exact ⟨offset, Nat.lt_of_not_le full, fun leased => taken (mem_ranges.mp leased), rfl, rfl⟩

/-- A committed allocation leaves offsets and ranges alone, or leases a range. -/
theorem allocateShard_committed {jobId : JobId} {gpuUuid : GpuUuid} {shardSeconds kernelBatchMs : Nat}
    {lease : Lease}
    (committed : (allocateShard jobId gpuUuid shardSeconds kernelBatchMs lease db).committed db =
      some after) :
    Quiet db after ∨ ∃ job ∈ db.jobs, ∃ device start, job.status = .searching ∧
      Leases job device start shardSeconds lease db after := by
  cases jobKnown : db.job? jobId with
  | none =>
    simp only [allocateShard, jobKnown, Allocation.committed, Option.some.injEq] at committed
    exact .inl (committed ▸ .refl db)
  | some job =>
    cases deviceKnown : db.device? gpuUuid with
    | none =>
      simp only [allocateShard, jobKnown, deviceKnown, Allocation.committed,
        Option.some.injEq] at committed
      exact .inl (committed ▸ .refl db)
    | some device =>
      by_cases ready : job.status = .searching ∧ device.status = .ready
      · cases offset : job.nextOffset with
        | none =>
          simp only [allocateShard, jobKnown, deviceKnown, ready, offset, Allocation.committed, ne_eq,
            not_true_eq_false, or_self, ↓reduceIte, Option.some.injEq] at committed
          exact .inl (committed ▸ .refl db)
        | some start =>
          rcases allocateShard_ready jobKnown deviceKnown ready.1 ready.2 offset with
            ⟨-, outcome⟩ | ⟨-, -, outcome⟩ | ⟨assignment, next, leases, outcome⟩
          · rw [outcome] at committed
            cases committed
            exact .inl (quiet_modifyJob _ fun job => ⟨rfl, rfl, rfl, by simp [exhaust]⟩)
          · rw [outcome] at committed
            cases committed
          · rw [outcome] at committed
            cases committed
            exact .inr ⟨job, Table.mem_of_lookup jobKnown, device, start, ready.1, leases⟩
      · have refused : job.status ≠ .searching ∨ device.status ≠ .ready := by
          by_contra both
          exact ready ⟨by_contra fun no => both (.inl no), by_contra fun no => both (.inr no)⟩
        simp only [allocateShard, jobKnown, deviceKnown, refused, Allocation.committed, ↓reduceIte,
          Option.some.injEq] at committed
        exact .inl (committed ▸ .refl db)

theorem RangesSound.lease (sound : RangesSound db) {job : GenerationJob} {device : GpuDevice}
    {start shardSeconds : Nat} {lease : Lease} (member : job ∈ db.jobs) (searching : job.status = .searching)
    (leases : Leases job device start shardSeconds lease db after) : RangesSound after := by
  have ranges : after.ranges = (job.id, start) :: db.ranges := by
    simp [Database.ranges, leases.shards, newShard]
  have positive : 0 < leaseCount device shardSeconds := by
    unfold leaseCount
    omega
  refine ⟨?_, ?_, ?_⟩
  · rw [leases.jobs]
    exact sound.ids.modify fun _ _ => rfl
  · rw [ranges, leases.jobs]
    have kept : ∀ other ∈ db.jobs, ∃ next ∈ (db.modifyJob job.id
        (advance (start + leaseCount device shardSeconds))).jobs, next.id = other.id := by
      intro other present
      by_cases own : other.id = job.id
      · exact ⟨_, Table.mem_modify_self present own, rfl⟩
      · exact ⟨other, Table.mem_modify_of_ne present own, rfl⟩
    intro range leased
    rcases List.mem_cons.mp leased with rfl | old
    · exact kept job member
    · obtain ⟨other, present, owner⟩ := sound.owned range old
      obtain ⟨next, presentAfter, same⟩ := kept other present
      exact ⟨next, presentAfter, same.trans owner⟩
  · rw [ranges, leases.jobs]
    intro next present
    rcases Table.mem_modify present with ⟨old, oldMember, own, rfl⟩ | ⟨old, different⟩
    · obtain rfl := Table.eq_of_key sound.ids oldMember member own
      have before := sound.jobs old member
      obtain ⟨origin, offset, known, next⟩ := before.searching searching
      obtain rfl : offset = start := Option.some.inj (next.symm.trans leases.offset)
      -- The first range of a search starts at its origin; later ones past all starts.
      have progress : offset = origin ∨ (old.id, origin) ∈ db.ranges ∧
          ∀ earlier, (old.id, earlier) ∈ db.ranges → earlier < offset := before.next origin offset known next
      have bound : ∀ earlier, (old.id, earlier) ∈ db.ranges → earlier < offset := by
        rcases progress with rfl | ⟨-, past⟩
        · intro earlier leased
          obtain ⟨first, knownFirst, stored⟩ := before.first earlier leased
          obtain rfl : first = offset := Option.some.inj (knownFirst.symm.trans known)
          exact absurd stored leases.unleased
        · exact past
      have origin_mem : (old.id, origin) ∈ (old.id, offset) :: db.ranges := by
        rcases progress with rfl | ⟨stored, -⟩
        · simp
        · exact List.mem_cons_of_mem _ stored
      refine ⟨fun _ => ⟨origin, _, known, rfl⟩, fun _ _ => ⟨origin, known, origin_mem⟩, ?_⟩
      intro first following knownFirst followingKnown
      obtain rfl : first = origin := Option.some.inj (knownFirst.symm.trans known)
      obtain rfl : offset + leaseCount device shardSeconds = following := Option.some.inj followingKnown
      refine .inr ⟨origin_mem, ?_⟩
      intro earlier leased
      rcases List.mem_cons.mp leased with same | stored
      · obtain rfl : earlier = offset := (Prod.mk.inj same).2
        omega
      · have := bound earlier stored
        omega
    · have other := sound.jobs next old
      have sameRanges (earlier : Nat) :
          (next.id, earlier) ∈ (job.id, start) :: db.ranges ↔ (next.id, earlier) ∈ db.ranges := by
        simp [different]
      refine ⟨other.searching, ?_, ?_⟩
      · simp only [sameRanges]
        exact other.first
      · simp only [sameRanges]
        exact other.next

theorem rangesSound_empty : RangesSound {} :=
  ⟨List.nodup_nil, by simp [Database.ranges], by simp⟩

/-- Every transaction keeps the ranges sound. -/
theorem RangesSound.step (sound : RangesSound db) {operation : Operation}
    (performed : perform verification operation db = some after) : RangesSound after := by
  cases operation with
  | create job =>
    simp only [perform] at performed
    split at performed
    · rename_i created
      cases performed
      exact sound.create created
    · cases performed
  | boot devices =>
    cases performed
    exact sound.quiet (quiet_initializeDevices devices)
  | recover now =>
    cases performed
    exact sound.recover now
  | claim combinedRate timeoutSeconds now draw locked =>
    cases performed
    exact sound.claim combinedRate timeoutSeconds now draw locked
  | allocate jobId gpuUuid shardSeconds kernelBatchMs lease =>
    simp only [perform] at performed
    split at performed
    · rcases allocateShard_committed performed with quiet | ⟨job, member, device, start, searching, leases⟩
      · exact sound.quiet quiet
      · exact sound.lease member searching leases
    · cases performed
  | record event entropy now => exact sound.quiet (quiet_recordEvent performed)
  | check jobId now =>
    cases performed
    exact sound.quiet (quiet_activeJobStatus now jobId)
  | cancel user jobId now =>
    cases performed
    exact sound.quiet (quiet_cancelJob user now jobId)
  | submit jobId workerId address offset entropy now =>
    exact sound.quiet (quiet_submitCandidate performed)
  | offline =>
    cases performed
    exact sound.quiet ⟨(Quiet.refl db).jobs, rfl⟩

theorem Reachable.ranges (reached : Reachable verification db) : RangesSound db :=
  Machine.Run.invariant reached (fun _ _ _ sound _ performed => sound.step performed) rangesSound_empty

end TronForge.Generator
