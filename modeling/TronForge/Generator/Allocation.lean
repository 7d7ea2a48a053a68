import TronForge.Generator.Ranges

/-! When `allocate_shard` gives a searching job its next range: always, unless
the job was put back to its origin after a range had been leased for it. -/

namespace TronForge.Generator

open Library

variable {verification : Verification} {db : Database}

/-- The allocation stores a shard whose start is new for its job, or fails the
job as exhausted. -/
def LeasesOrExhausts (db : Database) (job : GenerationJob) : Allocation → Prop
  | .assigned _ after => ∃ shard, after.shards = shard :: db.shards ∧ shard.jobId = job.id ∧
      ∀ other ∈ db.shards, (other.jobId, other.rangeStart) ≠ (shard.jobId, shard.rangeStart)
  | .exhausted after => ∃ failed ∈ after.jobs, failed.id = job.id ∧ failed.status = .failed ∧
      failed.failureCode = some "search_space_exhausted"
  | .refused | .duplicateRangeStart => False

/-- The job stands at its origin although a range was leased for it. -/
def Rewound (db : Database) (job : GenerationJob) : Prop :=
  job.nextOffset = job.searchOrigin ∧ ∃ shard ∈ db.shards, shard.jobId = job.id

/-- The device's lease would leave the scalar range. -/
def Exhausts (job : GenerationJob) (device : GpuDevice) (shardSeconds : Nat) : Prop :=
  ∃ start, job.nextOffset = some start ∧ secp256k1Order ≤ start + leaseCount device shardSeconds

/-- The claim takes a queued job for which a range was leased before. -/
def Resumes (db : Database) : Operation → Prop
  | .claim _ _ _ _ locked => (∀ job ∈ db.jobs, job.status.active = false) ∧
      ∃ job ∈ nextQueued locked db.jobs, ∃ shard ∈ db.shards, shard.jobId = job.id
  | _ => False

instance (db : Database) : (operation : Operation) → Decidable (Resumes db operation)
  | .claim _ _ _ _ locked => inferInstanceAs (Decidable ((∀ job ∈ db.jobs, job.status.active = false) ∧
      ∃ job ∈ nextQueued locked db.jobs, ∃ shard ∈ db.shards, shard.jobId = job.id))
  | .create _ | .boot _ | .recover _ | .allocate .. | .record .. | .check .. | .cancel .. | .submit ..
  | .offline => inferInstanceAs (Decidable False)

theorem mem_ranges_of_shard {shard : GenerationShard} (member : shard ∈ db.shards) :
    (shard.jobId, shard.rangeStart) ∈ db.ranges :=
  List.mem_map.mpr ⟨shard, member, rfl⟩

theorem shard_of_mem_ranges {jobId : JobId} {start : Nat} (leased : (jobId, start) ∈ db.ranges) :
    ∃ shard ∈ db.shards, shard.jobId = jobId := by
  obtain ⟨shard, member, same⟩ := List.mem_map.mp leased
  exact ⟨shard, member, congrArg Prod.fst same⟩

/-- For a searching job, its next offset is a stored start exactly if the job
was rewound. -/
theorem RangesSound.rewound_iff (sound : RangesSound db) {job : GenerationJob} (member : job ∈ db.jobs)
    (searching : job.status = .searching) {start : Nat} (offset : job.nextOffset = some start) :
    Rewound db job ↔ (job.id, start) ∈ db.ranges := by
  have ranges := sound.jobs job member
  obtain ⟨origin, next, known, same⟩ := ranges.searching searching
  obtain rfl : next = start := Option.some.inj (same.symm.trans offset)
  constructor
  · rintro ⟨rewound, shard, present, owner⟩
    obtain rfl : next = origin := Option.some.inj (offset.symm.trans (rewound.trans known))
    have leased : (job.id, shard.rangeStart) ∈ db.ranges := owner ▸ mem_ranges_of_shard present
    obtain ⟨first, knownFirst, stored⟩ := ranges.first _ leased
    obtain rfl : first = next := Option.some.inj (knownFirst.symm.trans known)
    exact stored
  · intro leased
    refine ⟨?_, shard_of_mem_ranges leased⟩
    rcases ranges.next origin next known offset with rfl | ⟨-, past⟩
    · exact offset.trans known.symm
    · have := past next leased
      omega

/-- The outcome of an allocation for a searching job on a ready device. -/
theorem RangesSound.allocation_iff (sound : RangesSound db) {job : GenerationJob} {device : GpuDevice}
    {jobId : JobId} {gpuUuid : GpuUuid} {shardSeconds kernelBatchMs : Nat} {lease : Lease}
    (jobKnown : db.job? jobId = some job) (deviceKnown : db.device? gpuUuid = some device)
    (searching : job.status = .searching) (ready : device.status = .ready) :
    LeasesOrExhausts db job (allocateShard jobId gpuUuid shardSeconds kernelBatchMs lease db) ↔
      ¬ Rewound db job ∨ Exhausts job device shardSeconds := by
  have member := Table.mem_of_lookup jobKnown
  have key : job.id = jobId := Table.key_of_lookup jobKnown
  obtain ⟨-, start, -, offset⟩ := (sound.jobs job member).searching searching
  rw [sound.rewound_iff member searching offset]
  rcases allocateShard_ready jobKnown deviceKnown searching ready offset with
    ⟨full, outcome⟩ | ⟨fits, leased, outcome⟩ | ⟨assignment, after, leases, outcome⟩
  · rw [outcome]
    refine iff_of_true ?_ (.inr ⟨start, offset, full⟩)
    exact ⟨exhaust lease.now job, Table.mem_modify_self member key, rfl, rfl, rfl⟩
  · rw [outcome]
    refine iff_of_false (fun impossible => impossible) ?_
    rintro (unleased | ⟨other, known, full⟩)
    · exact unleased (key ▸ leased)
    · obtain rfl : start = other := Option.some.inj (offset.symm.trans known)
      omega
  · rw [outcome]
    refine iff_of_true ⟨_, leases.shards, rfl, ?_⟩ (.inl leases.unleased)
    intro other present same
    have stored : (other.jobId, other.rangeStart) ∈ db.ranges := mem_ranges_of_shard present
    rw [same] at stored
    exact leases.unleased stored

/-- No searching job is rewound. -/
def Unrewound (db : Database) : Prop :=
  ∀ job ∈ db.jobs, job.status = .searching → ¬ Rewound db job

theorem Unrewound.quiet {after : Database} (forward : Unrewound db) (quiet : Quiet db after) :
    Unrewound after := by
  obtain ⟨change, jobs, same⟩ := quiet.jobs
  intro next member searching
  rw [jobs] at member
  obtain ⟨job, present, rfl⟩ := List.mem_map.mp member
  have kept := same job
  rintro ⟨offset, shard, stored, owner⟩
  rw [kept.offset, kept.origin] at offset
  rw [kept.id] at owner
  have leased := mem_ranges_of_shard stored
  rw [quiet.ranges, owner] at leased
  exact forward job present (kept.searching searching) ⟨offset, shard_of_mem_ranges leased⟩

theorem Unrewound.claim (forward : Unrewound db) (combinedRate timeoutSeconds : Nat) (now : Time)
    (draw : Fin (secp256k1Order - 1)) (locked : JobId → Bool)
    (fresh : ¬ Resumes db (.claim combinedRate timeoutSeconds now draw locked)) :
    Unrewound (claimNextJob combinedRate timeoutSeconds now draw locked db).2 := by
  rcases claimNextJob_cases db combinedRate timeoutSeconds now draw locked with
    same | ⟨idle, job, chosen, same⟩
  · rw [same]
    exact forward
  · rw [same]
    intro next member searching
    rcases Table.mem_modify member with ⟨old, present, own, rfl⟩ | ⟨old, different⟩
    · rintro ⟨-, shard, stored, owner⟩
      exact fresh ⟨idle, job, chosen, shard, stored, owner.trans own⟩
    · exact forward next old searching

theorem Unrewound.lease {after : Database} (forward : Unrewound db) (sound : RangesSound db)
    {job : GenerationJob} {device : GpuDevice} {start shardSeconds : Nat} {lease : Lease}
    (member : job ∈ db.jobs) (searching : job.status = .searching)
    (leases : Leases job device start shardSeconds lease db after) : Unrewound after := by
  intro next present status
  rw [leases.jobs] at present
  rcases Table.mem_modify present with ⟨old, oldMember, own, rfl⟩ | ⟨old, different⟩
  · obtain rfl := Table.eq_of_key sound.ids oldMember member own
    rintro ⟨offset, -⟩
    have ranges := sound.jobs old member
    obtain ⟨origin, -, known, -⟩ := ranges.searching searching
    have positive : 0 < leaseCount device shardSeconds := by
      unfold leaseCount
      omega
    have rewound : start + leaseCount device shardSeconds = origin :=
      Option.some.inj (offset.trans known)
    rcases ranges.next origin start known leases.offset with rfl | ⟨stored, past⟩
    · omega
    · have := past origin stored
      omega
  · rintro ⟨offset, shard, stored, owner⟩
    rw [leases.shards] at stored
    rcases List.mem_cons.mp stored with rfl | earlier
    · exact different owner.symm
    · exact forward next old status ⟨offset, shard, earlier, owner⟩

theorem Unrewound.step {after : Database} {operation : Operation} (forward : Unrewound db)
    (sound : RangesSound db) (fresh : ¬ Resumes db operation)
    (performed : perform verification operation db = some after) : Unrewound after := by
  cases operation with
  | create job =>
    simp only [perform] at performed
    split at performed
    · rename_i created
      cases performed
      intro next member searching
      rcases List.mem_cons.mp member with rfl | old
      · simp [created.1] at searching
      · exact forward next old searching
    · cases performed
  | boot devices =>
    cases performed
    exact forward.quiet (quiet_initializeDevices devices)
  | recover now =>
    cases performed
    intro next member searching
    obtain ⟨job, -, rfl⟩ := List.mem_map.mp member
    unfold requeue at searching
    split at searching
    · cases searching
    · rename_i inactive
      simp [searching, JobStatus.active] at inactive
  | claim combinedRate timeoutSeconds now draw locked =>
    cases performed
    exact forward.claim combinedRate timeoutSeconds now draw locked fresh
  | allocate jobId gpuUuid shardSeconds kernelBatchMs lease =>
    simp only [perform] at performed
    split at performed
    · rcases allocateShard_committed performed with quiet | ⟨job, member, device, start, searching, leases⟩
      · exact forward.quiet quiet
      · exact forward.lease sound member searching leases
    · cases performed
  | record event entropy now => exact forward.quiet (quiet_recordEvent performed)
  | check jobId now =>
    cases performed
    exact forward.quiet (quiet_activeJobStatus now jobId)
  | cancel user jobId now =>
    cases performed
    exact forward.quiet (quiet_cancelJob user now jobId)
  | submit jobId workerId address offset entropy now =>
    exact forward.quiet (quiet_submitCandidate performed)
  | offline =>
    cases performed
    exact forward.quiet ⟨(Quiet.refl db).jobs, rfl⟩

/-- The tables reached by transactions none of which claims again a job for
which a range was leased before. -/
def ReachableUnresumed (verification : Verification) (db : Database) : Prop :=
  (store verification).Run (fun before operation => ¬ Resumes before operation) {} db

theorem ReachableUnresumed.unrewound (reached : ReachableUnresumed verification db) :
    Unrewound db := by
  have both : RangesSound db ∧ Unrewound db := by
    apply Machine.Run.invariant reached
    · intro before operation after ⟨sound, forward⟩ fresh performed
      exact ⟨sound.step performed, forward.step sound fresh performed⟩
    · exact ⟨rangesSound_empty, by simp [Unrewound]⟩
  exact both.2

/-- In a run that never claims a job again after leasing a range for it, every
allocation for a searching job on a ready device leases a new range or fails
the job as exhausted. In any run it does so exactly if the job was not rewound
or its range is exhausted. -/
theorem allocation_leases_or_exhausts (jobId : JobId) (gpuUuid : GpuUuid)
    (shardSeconds kernelBatchMs : Nat) (lease : Lease) (job : GenerationJob) (device : GpuDevice)
    (jobKnown : db.job? jobId = some job) (deviceKnown : db.device? gpuUuid = some device)
    (searching : job.status = .searching) (ready : device.status = .ready) :
    (ReachableUnresumed verification db → LeasesOrExhausts db job
      (allocateShard jobId gpuUuid shardSeconds kernelBatchMs lease db)) ∧
    (Reachable verification db → (LeasesOrExhausts db job
      (allocateShard jobId gpuUuid shardSeconds kernelBatchMs lease db) ↔
        ¬ Rewound db job ∨ Exhausts job device shardSeconds)) := by
  constructor
  · intro reached
    have everyRun : Reachable verification db := reached.weaken fun _ _ _ => trivial
    rw [everyRun.ranges.allocation_iff jobKnown deviceKnown searching ready]
    exact .inl (reached.unrewound job (Table.mem_of_lookup jobKnown) searching)
  · intro reached
    exact reached.ranges.allocation_iff jobKnown deviceKnown searching ready

def readyEvent : WorkerEvent where
  eventType := .ready
  gpuUuid := "GPU-0"
  workerPid := 7

/-- The scheduler comes up, its worker reports ready and a job is claimed. -/
def claimOperations (now : Time) : List Operation :=
  [.recover now, .boot [sampleGpu], .record readyEvent 0 (now + 1),
    .claim 5 86400 (now + 2) sampleDraw fun _ => false]

/-- The tables after a first claim, and after a restart that followed a lease. -/
def searchingTables : Database :=
  ((store refusing).replay Machine.anyAction (.create sampleJob :: claimOperations 20) {}).getD {}

def resumedTables : Database :=
  ((store refusing).replay Machine.anyAction (.create sampleJob :: claimOperations 20 ++
    .allocate 1 "GPU-0" 10 500 ⟨1, 1, 30⟩ :: claimOperations 40) {}).getD {}

theorem allocation_leases_or_exhausts_searching :
    ∃ job device, searchingTables.job? 1 = some job ∧ searchingTables.device? "GPU-0" = some device ∧
      LeasesOrExhausts searchingTables job
        (allocateShard 1 "GPU-0" 10 500 ⟨1, 1, 30⟩ searchingTables) := by
  have reached : ReachableUnresumed refusing searchingTables :=
    Machine.replay_run (.create sampleJob :: claimOperations 20) rfl
  have job : searchingTables.job? 1 = some _ := rfl
  have device : searchingTables.device? "GPU-0" = some _ := rfl
  refine ⟨_, _, job, device, ?_⟩
  exact (allocation_leases_or_exhausts 1 "GPU-0" 10 500 ⟨1, 1, 30⟩ _ _ job device rfl rfl).1 reached

/-- After a restart the job starts again at its origin, whose shard is still
stored, and the unique constraint rejects its first range. -/
theorem resumed_job_rejected : Reachable refusing resumedTables ∧
    ∃ job device, resumedTables.job? 1 = some job ∧ resumedTables.device? "GPU-0" = some device ∧
      job.status = .searching ∧ device.status = .ready ∧
      ¬ LeasesOrExhausts resumedTables job
        (allocateShard 1 "GPU-0" 10 500 ⟨2, 2, 50⟩ resumedTables) := by
  refine ⟨?_, _, _, rfl, rfl, rfl, rfl, ?_⟩
  · exact Machine.replay_run (.create sampleJob :: claimOperations 20 ++
      .allocate 1 "GPU-0" 10 500 ⟨1, 1, 30⟩ :: claimOperations 40) rfl
  · have outcome : allocateShard 1 "GPU-0" 10 500 ⟨2, 2, 50⟩ resumedTables = .duplicateRangeStart := rfl
    rw [outcome]
    exact fun impossible => impossible

end TronForge.Generator
