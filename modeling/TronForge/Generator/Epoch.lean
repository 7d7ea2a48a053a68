import TronForge.Generator.Allocation
import TronForge.Generator.Batches
import TronForge.Generator.Fleet

/-! One claim of a job, from `claim_next_job` until the job leaves `SEARCHING`: the ranges
that it leases follow one another, and so do the batches in each of them. -/

namespace TronForge.Generator

open Library

variable {verification : Verification} {db after : Database}

/-- Every origin is a scalar of the group. -/
def OriginsInside (db : Database) : Prop :=
  ∀ job ∈ db.jobs, ∀ origin, job.searchOrigin = some origin → 1 ≤ origin ∧ origin < secp256k1Order

theorem OriginsInside.map (inside : OriginsInside db) {change : GenerationJob → GenerationJob}
    (jobs : after.jobs = db.jobs.map change) (same : ∀ job, (change job).searchOrigin = job.searchOrigin) :
    OriginsInside after := by
  intro next member origin known
  rw [jobs] at member
  obtain ⟨job, present, rfl⟩ := List.mem_map.mp member
  rw [same] at known
  exact inside job present origin known

theorem OriginsInside.quiet (inside : OriginsInside db) (quiet : Quiet db after) : OriginsInside after := by
  obtain ⟨change, jobs, same⟩ := quiet.jobs
  exact inside.map jobs fun job => (same job).origin

theorem OriginsInside.modify (inside : OriginsInside db) {jobId : JobId} {change : GenerationJob → GenerationJob}
    (valid : ∀ job ∈ db.jobs, ∀ origin, (change job).searchOrigin = some origin →
      1 ≤ origin ∧ origin < secp256k1Order)
    (jobs : after.jobs = (db.modifyJob jobId change).jobs) : OriginsInside after := by
  intro next member origin known
  rw [jobs] at member
  rcases Table.mem_modify member with ⟨job, present, -, rfl⟩ | ⟨old, -⟩
  · exact valid job present origin known
  · exact inside next old origin known

theorem OriginsInside.step (inside : OriginsInside db) {operation : Operation}
    (performed : perform verification operation db = some after) : OriginsInside after := by
  cases operation with
  | create job =>
    simp only [perform] at performed
    split at performed
    · rename_i created
      cases performed
      intro next member origin known
      rcases List.mem_cons.mp member with rfl | old
      · rw [created.2.1] at known
        cases known
      · exact inside next old origin known
    · cases performed
  | boot devices =>
    cases performed
    exact inside.quiet (quiet_initializeDevices devices)
  | recover now =>
    cases performed
    apply inside.map rfl
    intro job
    unfold requeue
    split <;> rfl
  | claim combinedRate timeoutSeconds now draw locked =>
    cases performed
    rcases claimNextJob_cases db combinedRate timeoutSeconds now draw locked with same | ⟨-, job, -, same⟩
    · rw [same]
      exact inside
    · rw [same]
      refine inside.modify ?_ rfl
      intro other member origin known
      simp only [startSearch, Option.some.injEq] at known
      cases drawn : other.searchOrigin with
      | some earlier =>
        rw [drawn, Option.getD_some] at known
        exact inside other member origin (known ▸ drawn)
      | none =>
        rw [drawn, Option.getD_none] at known
        have below := draw.isLt
        omega
  | allocate jobId gpuUuid shardSeconds kernelBatchMs lease =>
    simp only [perform] at performed
    split at performed
    · rcases allocateShard_committed performed with quiet | ⟨job, member, device, start, searching, leases⟩
      · exact inside.quiet quiet
      · refine inside.modify ?_ leases.jobs
        exact fun other present origin known => inside other present origin known
    · cases performed
  | record event entropy now => exact inside.quiet (quiet_recordEvent performed)
  | check jobId now =>
    cases performed
    exact inside.quiet (quiet_activeJobStatus now jobId)
  | cancel user jobId now =>
    cases performed
    exact inside.quiet (quiet_cancelJob user now jobId)
  | submit jobId workerId address offset entropy now => exact inside.quiet (quiet_submitCandidate performed)
  | offline =>
    cases performed
    exact inside.quiet ⟨(Quiet.refl db).jobs, rfl⟩

theorem Reachable.originsInside (reached : Reachable verification db) : OriginsInside db := by
  apply Machine.Run.invariant reached
  · intro before operation after inside _ performed
    exact inside.step performed
  · intro job member
    cases member

/-- The workers of a job, in the order of their leases. -/
def Fleet.workersOf (fleet : Fleet) (jobId : JobId) : List FleetWorker :=
  fleet.workers.filter fun worker => decide (worker.assignment.jobId = jobId)

/-- The batches that the workers of a job submit. -/
def Fleet.batches (fleet : Fleet) (jobId : JobId) : List Interval :=
  (fleet.workersOf jobId).flatMap fun worker => worker.execution.batches

/-- The job is being searched. -/
def Fleet.Searching (fleet : Fleet) (jobId : JobId) : Prop :=
  ∃ job ∈ fleet.db.jobs, job.id = jobId ∧ job.status = .searching

/-- The leased ranges of the job tile what lies between its origin and its next offset. -/
structure EpochSound (fleet : Fleet) (jobId : JobId) (origin : Nat) : Prop where
  ranges : RangesSound fleet.db
  job : ∃ job ∈ fleet.db.jobs, job.id = jobId ∧ job.searchOrigin = some origin ∧ ∃ next, job.nextOffset = some next ∧
    next < secp256k1Order ∧ Tiles origin ((fleet.workersOf jobId).map fun worker => worker.assignment.range) next

section Step
variable {fleet next : Fleet} {jobId : JobId} {origin : Nat}

/-- The rows and the ranges of the job are what matters. -/
theorem EpochSound.same (sound : EpochSound fleet jobId origin) (ranges : RangesSound next.db)
    (jobs : ∀ job ∈ fleet.db.jobs, job.id = jobId → ∃ other ∈ next.db.jobs, other.id = jobId ∧
      other.searchOrigin = job.searchOrigin ∧ other.nextOffset = job.nextOffset)
    (workers : (next.workersOf jobId).map (fun worker => worker.assignment.range) =
      (fleet.workersOf jobId).map fun worker => worker.assignment.range) : EpochSound next jobId origin := by
  obtain ⟨job, member, own, known, stop, offset, below, tiles⟩ := sound.job
  obtain ⟨other, present, key, sameOrigin, sameOffset⟩ := jobs job member own
  exact ⟨ranges, other, present, key, sameOrigin.trans known, stop, sameOffset.trans offset, below,
    by rw [workers]; exact tiles⟩

theorem Quiet.keeps (quiet : Quiet db after) {job : GenerationJob} (member : job ∈ db.jobs) (own : job.id = jobId) :
    ∃ other ∈ after.jobs, other.id = jobId ∧ other.searchOrigin = job.searchOrigin ∧
      other.nextOffset = job.nextOffset := by
  obtain ⟨change, jobs, same⟩ := quiet.jobs
  have kept := same job
  refine ⟨change job, ?_, kept.id.trans own, kept.origin, kept.offset⟩
  rw [jobs]
  exact List.mem_map_of_mem member

theorem EpochSound.quiet (sound : EpochSound fleet jobId origin) (quiet : Quiet fleet.db after) :
    EpochSound ⟨after, fleet.workers⟩ jobId origin :=
  sound.same (sound.ranges.quiet quiet) (fun _ member own => quiet.keeps member own) rfl

/-- A record of an event changes no assignment. -/
theorem workersOf_recorded (shardId : ShardId) (index : Nat) (workers : List FleetWorker) :
    ((Table.modify (·.assignment.shardId) shardId (FleetWorker.recorded index) workers).filter fun worker =>
      decide (worker.assignment.jobId = jobId)).map (fun worker => worker.assignment.range) =
        (workers.filter fun worker => decide (worker.assignment.jobId = jobId)).map
          fun worker => worker.assignment.range := by
  induction workers with
  | nil => rfl
  | cons worker rest hypothesis =>
    have kept : (if worker.assignment.shardId = shardId then worker.recorded index else worker).assignment =
        worker.assignment := by
      split <;> rfl
    simp only [Table.modify, List.map_cons, List.filter_cons, kept] at hypothesis ⊢
    split
    · rw [List.map_cons, List.map_cons, kept, hypothesis]
    · exact hypothesis

theorem workersOf_own (fleet : Fleet) {worker : FleetWorker} (own : worker.assignment.jobId = jobId) :
    Fleet.workersOf ⟨after, fleet.workers ++ [worker]⟩ jobId = fleet.workersOf jobId ++ [worker] := by
  simp only [Fleet.workersOf, List.filter_append, List.filter_cons, List.filter_nil, own, decide_true, if_true]

theorem workersOf_other (fleet : Fleet) {worker : FleetWorker} (other : worker.assignment.jobId ≠ jobId) :
    Fleet.workersOf ⟨after, fleet.workers ++ [worker]⟩ jobId = fleet.workersOf jobId := by
  simp only [Fleet.workersOf, List.filter_append, List.filter_cons, List.filter_nil, other, decide_false,
    Bool.false_eq_true, if_false, List.append_nil]

/-- A lease of the job goes on where its ranges ended. -/
theorem EpochSound.lease (sound : EpochSound fleet jobId origin) {job : GenerationJob} {device : GpuDevice}
    {start shardSeconds kernelBatchMs pid : Nat} {lease : Lease} {work : Work} (known : fleet.db.job? job.id = some job)
    (searching : job.status = .searching) (leases : Leases job device start shardSeconds lease fleet.db after) :
    EpochSound ⟨after, fleet.workers ++ [⟨⟨device.uuid, pid⟩,
      newAssignment job device start (leaseCount device shardSeconds) kernelBatchMs lease, work, 0⟩]⟩ jobId origin := by
  have present := Table.mem_of_lookup known
  obtain ⟨other, member, own, sameOrigin, stop, offset, below, tiles⟩ := sound.job
  have ranges := sound.ranges.lease present searching leases
  by_cases mine : job.id = jobId
  · obtain rfl := Table.eq_of_key sound.ranges.ids member present (own.trans mine.symm)
    obtain rfl : stop = start := Option.some.inj (offset.symm.trans leases.offset)
    have row : advance (stop + leaseCount device shardSeconds) other ∈
        (fleet.db.modifyJob other.id (advance (stop + leaseCount device shardSeconds))).jobs :=
      Table.mem_modify_self member rfl
    refine ⟨ranges, advance (stop + leaseCount device shardSeconds) other, ?_, own, sameOrigin,
      stop + leaseCount device shardSeconds, rfl, leases.fits, ?_⟩
    · rw [leases.jobs]
      exact row
    · rw [workersOf_own fleet own, List.map_append]
      exact tiles.concat _
  · refine ⟨ranges, other, ?_, own, sameOrigin, stop, offset, below, ?_⟩
    · rw [leases.jobs]
      exact Table.mem_modify_of_ne member fun same => mine (same.symm.trans own)
    · rw [workersOf_other fleet mine]
      exact tiles

/-- Every step that leaves the job searched keeps the tiling. -/
theorem EpochSound.step (sound : EpochSound fleet jobId origin) (searching : fleet.Searching jobId)
    {action : FleetAction} (performed : (fleetMachine verification).step action fleet = some next)
    (still : next.Searching jobId) : EpochSound next jobId origin := by
  cases action with
  | deliver shardId index entropy now =>
    obtain ⟨worker, -, performed⟩ := Option.bind_eq_some_iff.mp performed
    split at performed
    · cases performed
    · obtain ⟨event, -, performed⟩ := Option.bind_eq_some_iff.mp performed
      obtain ⟨after, recorded, performed⟩ := Option.bind_eq_some_iff.mp performed
      cases performed
      have quiet := quiet_recordEvent recorded
      exact sound.same (sound.ranges.quiet quiet) (fun _ member own => quiet.keeps member own)
        (workersOf_recorded shardId index fleet.workers)
  | store operation pid work =>
    obtain ⟨after, stored, performed⟩ := Option.bind_eq_some_iff.mp performed
    cases performed
    have ranges := sound.ranges.step stored
    have unleased (none_ : operation.leased fleet.db = none)
        (jobs : ∀ job ∈ fleet.db.jobs, job.id = jobId → ∃ other ∈ after.jobs, other.id = jobId ∧
          other.searchOrigin = job.searchOrigin ∧ other.nextOffset = job.nextOffset) :
        EpochSound ⟨after, fleet.workers ++ (operation.leased fleet.db).toList.map fun assignment =>
          ⟨⟨assignment.gpuUuid, pid⟩, assignment, work, 0⟩⟩ jobId origin := by
      rw [none_, Option.toList_none, List.map_nil, List.append_nil]
      exact sound.same ranges jobs rfl
    have quietly (none_ : operation.leased fleet.db = none) (quiet : Quiet fleet.db after) :=
      unleased none_ fun _ member own => quiet.keeps member own
    cases operation with
    | create job =>
      simp only [perform] at stored
      split at stored
      · cases stored
        exact unleased rfl fun other member own => ⟨other, List.mem_cons_of_mem _ member, own, rfl, rfl⟩
      · cases stored
    | boot devices =>
      cases stored
      exact quietly rfl (quiet_initializeDevices devices)
    | recover now =>
      cases stored
      obtain ⟨other, member, -, status⟩ := still
      obtain ⟨job, -, rfl⟩ := List.mem_map.mp member
      unfold requeue at status
      split at status
      · cases status
      · rename_i inactive
        simp [status, JobStatus.active] at inactive
    | claim combinedRate timeoutSeconds now draw locked =>
      cases stored
      obtain ⟨job, member, -, status⟩ := searching
      rcases claimNextJob_cases fleet.db combinedRate timeoutSeconds now draw locked with same | ⟨idle, -⟩
      · rw [same] at unleased ⊢
        exact unleased rfl fun other present own => ⟨other, present, own, rfl, rfl⟩
      · have inactive := idle job member
        rw [status] at inactive
        cases inactive
    | allocate allocated gpuUuid shardSeconds kernelBatchMs lease =>
      simp only [perform] at stored
      split at stored
      · cases outcome : allocateShard allocated gpuUuid shardSeconds kernelBatchMs lease fleet.db with
        | refused =>
          rw [outcome] at stored
          cases stored
          exact quietly (by simp only [Operation.leased, outcome]) (.refl _)
        | exhausted failed =>
          rw [outcome] at stored
          cases stored
          exact quietly (by simp only [Operation.leased, outcome]) (allocateShard_exhausted outcome)
        | assigned assignment leased =>
          rw [outcome] at stored
          cases stored
          obtain ⟨job, device, start, known, status, leases, rfl⟩ := allocateShard_assigned outcome
          obtain rfl : job.id = allocated := Table.key_of_lookup known
          simp only [Operation.leased, outcome, Option.toList_some, List.map_cons, List.map_nil]
          exact sound.lease known status leases
        | duplicateRangeStart =>
          rw [outcome] at stored
          cases stored
      · cases stored
    | record event entropy now => exact quietly rfl (quiet_recordEvent stored)
    | check checked now =>
      cases stored
      exact quietly rfl (quiet_activeJobStatus now checked)
    | cancel user canceled now =>
      cases stored
      exact quietly rfl (quiet_cancelJob user now canceled)
    | submit submitted workerId address offset entropy now => exact quietly rfl (quiet_submitCandidate stored)
    | offline =>
      cases stored
      exact quietly rfl ⟨(Quiet.refl fleet.db).jobs, rfl⟩

end Step

/-- A claim of a queued job starts with nothing leased. -/
theorem epochSound_claimed (reached : Reachable verification db) {combinedRate timeoutSeconds : Nat} {now : Time}
    {draw : Fin (secp256k1Order - 1)} {locked : JobId → Bool} {jobId : JobId}
    (claimed : claimNextJob combinedRate timeoutSeconds now draw locked db = (some jobId, after))
    (queued : ∃ job ∈ db.jobs, job.id = jobId ∧ job.status = .queued) :
    ∃ origin, 1 ≤ origin ∧ EpochSound ⟨after, []⟩ jobId origin := by
  have performed : perform verification (.claim combinedRate timeoutSeconds now draw locked) db = some after := by
    rw [perform, claimed]
  have ranges := reached.ranges.step performed
  have inside := reached.originsInside.step performed
  obtain ⟨waiting, member, own, status⟩ := queued
  unfold claimNextJob at claimed
  split at claimed
  · rename_i existing found
    cases claimed
    have active := List.find?_some found
    obtain rfl := Table.eq_of_key reached.ranges.ids member (List.mem_of_find?_eq_some found) own
    rw [status] at active
    cases active
  · split at claimed
    · cases claimed
    · rename_i job chosen
      cases claimed
      have present : startSearch combinedRate timeoutSeconds now draw job ∈
          (db.modifyJob job.id (startSearch combinedRate timeoutSeconds now draw)).jobs :=
        Table.mem_modify_self (mem_of_nextQueued chosen).1 rfl
      obtain ⟨low, high⟩ := inside _ present _ rfl
      exact ⟨_, low, ranges, _, present, rfl, rfl, _, rfl, high, rfl⟩

instance (fleet : Fleet) (jobId : JobId) : Decidable (fleet.Searching jobId) :=
  inferInstanceAs (Decidable (∃ job ∈ fleet.db.jobs, job.id = jobId ∧ job.status = .searching))

/-- The batches of a worker tile a front part of its range. -/
theorem FleetWorker.tiles (worker : FleetWorker) :
    ∃ stop, Tiles worker.assignment.rangeStart worker.execution.batches stop ∧ stop ≤ worker.assignment.range.next := by
  rw [FleetWorker.execution]
  split
  · rename_i turns _
    obtain ⟨stop, tiles, within, -⟩ := executeCudaAssignment_tiles worker.process worker.assignment turns
    exact ⟨stop, tiles, within⟩
  · rw [executeSimulatedAssignment_batches]
    exact ⟨_, rfl, Nat.le_add_right _ _⟩

theorem FleetWorker.inside (worker : FleetWorker) {batch : Interval} (member : batch ∈ worker.execution.batches) :
    batch.Inside worker.assignment.range := by
  obtain ⟨stop, tiles, within⟩ := worker.tiles
  obtain ⟨low, high⟩ := tiles.within member
  exact ⟨low, high.trans within⟩

/-- The batches of all workers of the job are apart. -/
theorem EpochSound.apart {fleet : Fleet} {jobId : JobId} {origin : Nat} (sound : EpochSound fleet jobId origin) :
    (fleet.batches jobId).Pairwise Interval.Apart := by
  obtain ⟨-, -, -, -, next, -, -, tiles⟩ := sound.job
  have ranges := List.pairwise_map.mp tiles.pairwise_apart
  rw [Fleet.batches, List.pairwise_flatMap]
  constructor
  · intro worker _
    obtain ⟨stop, own, -⟩ := worker.tiles
    exact own.pairwise_apart
  · apply ranges.imp
    intro left right apart batch member other otherMember
    exact apart.inside (left.inside member) (right.inside otherMember)

/-- While a claimed job is searched, all batches of its workers are apart and lie in the
ranges of their workers, and so between the origin and the next offset of the job, which
are scalars of the group. The batches of an exhausted assignment tile its range. -/
theorem epoch_batches_tile (reached : Reachable verification db) {combinedRate timeoutSeconds : Nat} {now : Time}
    {draw : Fin (secp256k1Order - 1)} {locked : JobId → Bool} {jobId : JobId}
    (claimed : claimNextJob combinedRate timeoutSeconds now draw locked db = (some jobId, after))
    (queued : ∃ job ∈ db.jobs, job.id = jobId ∧ job.status = .queued) {fleet : Fleet}
    (run : (fleetMachine verification).Run (fun before _ => before.Searching jobId) ⟨after, []⟩ fleet)
    (searching : fleet.Searching jobId) :
    ∃ job origin next, fleet.db.job? jobId = some job ∧ job.searchOrigin = some origin ∧
      job.nextOffset = some next ∧ 1 ≤ origin ∧ next < secp256k1Order ∧
      (fleet.batches jobId).Pairwise Interval.Apart ∧
      (∀ worker ∈ fleet.workersOf jobId, ∀ batch ∈ worker.execution.batches,
        batch.Inside worker.assignment.range ∧ origin ≤ batch.first ∧ batch.next ≤ next) ∧
      ∀ worker ∈ fleet.workersOf jobId, ∀ turns, worker.work = .cuda turns → worker.execution.Exhausts →
        Tiles worker.assignment.rangeStart worker.execution.batches worker.assignment.range.next := by
  obtain ⟨origin, low, initial⟩ := epochSound_claimed reached claimed queued
  have sound : fleet.Searching jobId → EpochSound fleet jobId origin := by
    apply Machine.Run.invariant run
    · intro before action next valid allowed performed still
      exact (valid allowed).step allowed performed still
    · exact fun _ => initial
  have sound := sound searching
  obtain ⟨job, member, own, known, next, offset, below, tiles⟩ := sound.job
  refine ⟨job, origin, next, ?_, known, offset, low, below, sound.apart, ?_, ?_⟩
  · rw [← own]
    exact Table.lookup_of_mem sound.ranges.ids member
  · intro worker present batch submitted
    have inside := worker.inside submitted
    obtain ⟨rangeLow, rangeHigh⟩ := tiles.within (List.mem_map_of_mem present)
    exact ⟨inside, rangeLow.trans inside.1, inside.2.trans rangeHigh⟩
  · intro worker _ turns cuda exhausts
    simp only [FleetWorker.execution, cuda] at exhausts ⊢
    obtain ⟨stop, own, -, finished⟩ := executeCudaAssignment_tiles worker.process worker.assignment turns
    rw [finished exhausts] at own
    exact own

/-- Twenty-five candidates in a launch, and then the rest, cut to the chains. -/
def sampleTurns : List Turn :=
  [⟨[], fun _ => 25, 8, none, [⟨[], .nothing⟩, ⟨[], .payload ⟨some 24, false, none, none⟩⟩], 5⟩,
    ⟨[], fun _ => 100, 8, none, [⟨[.cancelJob 2], .payload ⟨some 24, false, none, none⟩⟩], 5⟩,
    ⟨[], fun _ => 100, 8, none, [⟨[], .payload ⟨some 2, false, none, none⟩⟩], 5⟩]

/-- The tables before the claim and after it. -/
def bootedTables : Database :=
  ((store refusing).replay Machine.anyAction
    [.create sampleJob, .recover 20, .boot [sampleGpu], .record readyEvent 0 21] {}).getD {}

def claimedTables : Database := (claimNextJob 5 86400 22 sampleDraw (fun _ => false) bootedTables).2

/-- A leased shard that is searched to its end, and a second one that was canceled. -/
def sampleActions : List FleetAction :=
  [.store (.allocate 1 "GPU-0" 10 500 ⟨1, 1, 30⟩) 7 (.cuda sampleTurns), .deliver 1 0 0 31, .deliver 1 1 0 32,
    .store (.record readyEvent 0 33) 0 (.cuda []),
    .store (.allocate 1 "GPU-0" 10 500 ⟨2, 2, 34⟩) 7 (.cuda [⟨[.shutdown], fun _ => 25, 8, none, [], 5⟩])]

def sampleFleet : Fleet :=
  ((fleetMachine refusing).replay (fun before _ => before.Searching 1) sampleActions ⟨claimedTables, []⟩).getD ⟨{}, []⟩

theorem epoch_batches_tile_twice : ∃ job origin next, sampleFleet.db.job? 1 = some job ∧
    job.searchOrigin = some origin ∧ job.nextOffset = some next ∧ 1 ≤ origin ∧ next < secp256k1Order ∧
    (sampleFleet.batches 1).Pairwise Interval.Apart ∧
    (∀ worker ∈ sampleFleet.workersOf 1, ∀ batch ∈ worker.execution.batches,
      batch.Inside worker.assignment.range ∧ origin ≤ batch.first ∧ batch.next ≤ next) ∧
    ∀ worker ∈ sampleFleet.workersOf 1, ∀ turns, worker.work = .cuda turns → worker.execution.Exhausts →
      Tiles worker.assignment.rangeStart worker.execution.batches worker.assignment.range.next := by
  have reached : Reachable refusing bootedTables := Machine.replay_run
    [.create sampleJob, .recover 20, .boot [sampleGpu], .record readyEvent 0 21] rfl
  have claimed : claimNextJob 5 86400 22 sampleDraw (fun _ => false) bootedTables = (some 1, claimedTables) := rfl
  have queued : ∃ job ∈ bootedTables.jobs, job.id = 1 ∧ job.status = .queued := by decide
  have run : (fleetMachine refusing).Run (fun before _ => before.Searching 1) ⟨claimedTables, []⟩ sampleFleet :=
    Machine.replay_run sampleActions rfl
  exact epoch_batches_tile reached claimed queued run (by decide)

end TronForge.Generator
