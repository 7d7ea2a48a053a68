import TronForge.Generator.Dispatch
import TronForge.Generator.EventStreams

/-! The runs of the scheduler in which a shard that has ended stays so: the failure of
an interrupted assignment is made up only when the `STARTED` event of it is no longer
in the queue. -/

namespace TronForge.Generator

open Library Lifecycle

variable {verification : Verification} {settings : Settings} {scheduler next : Scheduler} {db after : Database}
  {batch : List WorkerEvent} {gpu : Gpu} {event : WorkerEvent}

/-- An event is taken off the batch and recorded. -/
theorem ordered_recorded {stream : List (Mark ShardId)} (changed : ShardsAfter event db after)
    (ordered : Ordered (Ended db) (event.mark?.toList ++ stream)) : Ordered (Ended after) stream := by
  cases marked : event.mark? with
  | none =>
    rw [marked] at ordered
    refine ordered.weaken fun id _ past => ?_
    rcases changed.ended past with before | ⟨closing, named⟩
    · exact before
    · rw [mark?_ends.mpr ⟨named, closing⟩] at marked
      cases marked
  | some mark =>
    rw [marked] at ordered
    cases mark with
    | starts shardId =>
      refine ordered.2.weaken fun id _ past => ?_
      rcases changed.ended past with before | ⟨closing, named⟩
      · exact before
      · rw [mark?_ends.mpr ⟨named, closing⟩] at marked
        cases marked
    | ends shardId =>
      have rest : Ordered (fun other => Ended db other ∨ other = shardId) stream := ordered
      refine rest.weaken fun id _ past => ?_
      rcases changed.ended past with before | ⟨closing, named⟩
      · exact .inl before
      · rw [mark?_ends.mpr ⟨named, closing⟩] at marked
        cases marked
        exact .inr rfl

theorem GpuOrder.recorded (order : GpuOrder db (event :: batch) gpu) (changed : ShardsAfter event db after) :
    GpuOrder after batch gpu where
  outlook := by
    have ordered := order.outlook
    rw [marks_cons, List.append_assoc] at ordered
    exact ordered_recorded changed ordered
  late events member := by
    have ordered := order.late events member
    rw [marks_cons, List.append_assoc] at ordered
    exact ordered_recorded changed ordered
  distinct := order.distinct
  pending := order.pending
  lateOwn := order.lateOwn
  leased id member := changed.leasedTo (order.leased id member)
  lateLeased events member mark marked := changed.leasedTo (order.lateLeased events member mark marked)
  apart := order.apart
  lateApart := order.lateApart

/-- The shards that were ended and leased are ended and leased still, and no other has ended. -/
structure SameShards (db after : Database) : Prop where
  ended : ∀ id, Ended after id ↔ Ended db id
  leased : ∀ id uuid, LeasedTo db id uuid → LeasedTo after id uuid
  completed : Completed db → Completed after

theorem sameShards_of_eq (same : after.shards = db.shards) : SameShards db after := by
  have rows (id : ShardId) : after.shard? id = db.shard? id := by
    rw [Database.shard?, same, Database.shard?]
  refine ⟨fun id => ?_, fun id uuid leased => ?_, fun completed id row found => ?_⟩
  · rw [Ended, rows, Ended]
  · rw [LeasedTo, rows]
    exact leased
  · exact completed id row ((rows id).symm.trans found)

theorem GpuOrder.shards (order : GpuOrder db batch gpu) (same : SameShards db after) :
    GpuOrder after batch gpu where
  outlook := order.outlook.weaken fun id _ past => (same.ended id).mp past
  late events member := (order.late events member).weaken fun id _ past => (same.ended id).mp past
  distinct := order.distinct
  pending := order.pending
  lateOwn := order.lateOwn
  leased id member := same.leased _ _ (order.leased id member)
  lateLeased events member mark marked := same.leased _ _ (order.lateLeased events member mark marked)
  apart := order.apart
  lateApart := order.lateApart

structure SchedulerOrder (scheduler : Scheduler) : Prop where
  unique : Table.Unique Gpu.uuid scheduler.gpus
  polled : Ordered (Ended scheduler.db) (marks scheduler.batch)
  leased : ∀ event ∈ scheduler.batch, ∀ mark, event.mark? = some mark →
    LeasedTo scheduler.db mark.key event.gpuUuid
  gpus : ∀ gpu ∈ scheduler.gpus, GpuOrder scheduler.db scheduler.batch gpu
  completed : Completed scheduler.db

/-- A change of the GPUs and of shards that does not matter. -/
theorem SchedulerOrder.map (order : SchedulerOrder scheduler) {change : Gpu → Gpu}
    (gpus : next.gpus = scheduler.gpus.map change) (batch : next.batch = scheduler.batch)
    (shards : SameShards scheduler.db next.db)
    (kept : ∀ gpu ∈ scheduler.gpus, GpuOrder scheduler.db scheduler.batch (change gpu) ∧
      (change gpu).uuid = gpu.uuid) : SchedulerOrder next where
  unique := by
    rw [gpus]
    exact order.unique.map fun gpu member => (kept gpu member).2
  polled := by
    rw [batch]
    exact order.polled.weaken fun id _ past => (shards.ended id).mp past
  leased event member mark marked := by
    rw [batch] at member
    exact shards.leased _ _ (order.leased event member mark marked)
  gpus gpu member := by
    rw [gpus] at member
    obtain ⟨before, present, rfl⟩ := List.mem_map.mp member
    rw [batch]
    exact (kept before present).1.shards shards
  completed := shards.completed order.completed

/-- Steps of the loop that do not touch the streams. -/
theorem SchedulerOrder.proceed (order : SchedulerOrder scheduler) (gpus : next.gpus = scheduler.gpus)
    (batch : next.batch = scheduler.batch) (shards : SameShards scheduler.db next.db) : SchedulerOrder next := by
  have same : next.gpus = scheduler.gpus.map fun gpu => gpu := by rw [gpus, List.map_id']
  exact order.map same batch shards fun gpu member => ⟨order.gpus gpu member, rfl⟩

theorem SchedulerOrder.eq_of_uuid (order : SchedulerOrder scheduler) {other : Gpu}
    (left : gpu ∈ scheduler.gpus) (right : other ∈ scheduler.gpus) (same : gpu.uuid = other.uuid) : gpu = other :=
  Table.eq_of_key order.unique left right same

/-- One step of a worker. -/
theorem SchedulerOrder.onGpu (order : SchedulerOrder scheduler) {uuid : GpuUuid} {act : Gpu → Option Gpu}
    (acted : scheduler.onGpu uuid act = some next)
    (works : ∀ gpu after, gpu.taken.Nodup → act gpu = some after → Works gpu after) : SchedulerOrder next := by
  obtain ⟨gpu, found, rest⟩ := Option.bind_eq_some_iff.mp acted
  obtain ⟨after, moved, same⟩ := Option.bind_eq_some_iff.mp rest
  cases same
  have member := Table.mem_of_lookup found
  have name : gpu.uuid = uuid := Table.key_of_lookup found
  have worked := works gpu after (order.gpus gpu member).distinct moved
  refine order.map rfl rfl (sameShards_of_eq rfl) ?_
  intro other present
  by_cases own : other.uuid = uuid
  · obtain rfl := order.eq_of_uuid present member (own.trans name.symm)
    simp only [own, ↓reduceIte]
    exact ⟨(order.gpus other present).works worked, worked.uuid.trans own⟩
  · simp only [own, ↓reduceIte]
    exact ⟨order.gpus other present, trivial⟩

theorem leasedTo_unique {id : ShardId} {left right : GpuUuid} (first : LeasedTo db id left)
    (second : LeasedTo db id right) : left = right := by
  obtain ⟨row, found, rfl⟩ := first
  obtain ⟨other, same, rfl⟩ := second
  rw [found] at same
  cases same
  rfl

/-- The batch takes in an event of one GPU, whose streams lose it. -/
theorem SchedulerOrder.takeIn (order : SchedulerOrder scheduler) {after : Gpu}
    (uuid : after.uuid = gpu.uuid) (own : event.gpuUuid = gpu.uuid)
    (leased : ∀ mark, event.mark? = some mark → LeasedTo scheduler.db mark.key gpu.uuid)
    (first : Ordered (Ended scheduler.db) (marks scheduler.batch ++ marks [event]))
    (kept : GpuOrder scheduler.db (scheduler.batch ++ [event]) after) :
    SchedulerOrder { scheduler.modifyGpu gpu.uuid (fun _ => after) with batch := scheduler.batch ++ [event] } where
  unique := by
    refine order.unique.map fun other present => ?_
    by_cases acting : other.uuid = gpu.uuid
    · simp only [acting, ↓reduceIte]
      exact uuid
    · simp only [acting, ↓reduceIte]
  polled := by
    rw [marks_append]
    exact first
  leased other present mark marked := by
    rcases List.mem_append.mp present with old | new
    · exact order.leased other old mark marked
    · rw [List.mem_singleton.mp new] at marked ⊢
      rw [own]
      exact leased mark marked
  gpus other present := by
    obtain ⟨before, old, rfl⟩ := List.mem_map.mp present
    by_cases acting : before.uuid = gpu.uuid
    · simp only [acting, ↓reduceIte]
      exact kept
    · simp only [acting, ↓reduceIte]
      have ends {id : ShardId} (ended : Mark.ends id ∈ marks [event]) : LeasedTo scheduler.db id gpu.uuid := by
        rw [marks_single, Option.mem_toList] at ended
        exact leased _ ended
      refine (order.gpus before old).append first ?_ ?_
      · intro id ended starts
        have other : LeasedTo scheduler.db id before.uuid :=
          (order.gpus before old).leased _ (names_of_outlook starts)
        exact acting (leasedTo_unique other (ends ended))
      · intro id ended events inside starts
        have other : LeasedTo scheduler.db id before.uuid :=
          (order.gpus before old).lateLeased events inside _ starts
        exact acting (leasedTo_unique other (ends ended))
  completed := order.completed

theorem SchedulerOrder.deliver (order : SchedulerOrder scheduler) {uuid : GpuUuid} {stream : Option Nat}
    (delivered : scheduler.deliver uuid stream = some next) : SchedulerOrder next := by
  unfold Scheduler.deliver at delivered
  split at delivered
  · obtain ⟨gpu, found, rest⟩ := Option.bind_eq_some_iff.mp delivered
    obtain ⟨⟨event, after⟩, taken, same⟩ := Option.bind_eq_some_iff.mp rest
    cases same
    have member := Table.mem_of_lookup found
    have name : gpu.uuid = uuid := Table.key_of_lookup found
    subst name
    have safe := order.gpus gpu member
    unfold Gpu.next? at taken
    split at taken
    · split at taken
      · cases taken
      · rename_i pending
        cases taken
        have moved := (safe.deliver pending).polled event
        refine order.takeIn rfl (safe.pending event (by rw [pending]; exact List.mem_cons_self)) ?_ ?_ moved
        · intro mark marked
          apply safe.leased
          apply names_of_outlook
          apply List.mem_append_left
          apply List.mem_append_left
          rw [pending]
          exact mem_marks_cons marked _
        · rw [← marks_append]
          exact moved.outlook.sublist (List.sublist_append_left _ _)
    · split at taken
      · rename_i late
        cases taken
        have inside := List.mem_of_getElem? late
        have moved := (safe.deliver_late late).polled event
        refine order.takeIn rfl (safe.lateOwn _ inside event List.mem_cons_self) ?_ ?_ moved
        · intro mark marked
          exact safe.lateLeased _ inside mark (mem_marks_cons marked _)
        · rw [← marks_append]
          exact moved.outlook.sublist (List.sublist_append_left _ _)
      · cases taken
  · cases delivered

/-- No `STARTED` event of an interrupted assignment is left in the queue. -/
def StartPolled (gpu : Gpu) : Prop :=
  ∀ assignment ∈ gpu.assignment, ∀ event ∈ gpu.pending,
    event.eventType = .started → event.shardId ≠ some assignment.shardId

instance (gpu : Gpu) : Decidable (StartPolled gpu) :=
  inferInstanceAs (Decidable (∀ assignment ∈ gpu.assignment, _))

theorem mem_synthetic {gpus : List Gpu} (member : event ∈ Scheduler.synthetic gpus) :
    ∃ gpu ∈ gpus, gpu.dead = true ∧ ∃ assignment, gpu.assignment = some assignment ∧
      event = gpu.interrupted assignment := by
  obtain ⟨gpu, present, made⟩ := List.mem_filterMap.mp member
  split at made
  · rename_i dead
    obtain ⟨assignment, held, rfl⟩ := Option.map_eq_some_iff.mp made
    exact ⟨gpu, present, dead, assignment, held, rfl⟩
  · cases made

/-- What is made up ends the shard of the handle of a dead worker. -/
theorem mark_synthetic {gpus : List Gpu} {mark : Mark ShardId} (member : mark ∈ marks (Scheduler.synthetic gpus)) :
    ∃ gpu ∈ gpus, gpu.dead = true ∧ ∃ assignment, gpu.assignment = some assignment ∧
      mark = .ends assignment.shardId := by
  obtain ⟨event, made, marked⟩ := List.mem_filterMap.mp member
  obtain ⟨gpu, present, dead, assignment, held, rfl⟩ := mem_synthetic made
  have ends : (gpu.interrupted assignment).mark? = some (.ends assignment.shardId) := mark?_ends.mpr ⟨rfl, rfl⟩
  rw [ends] at marked
  cases marked
  exact ⟨gpu, present, dead, assignment, held, rfl⟩

theorem names_of_assignment {assignment : WorkAssignment} (held : gpu.assignment = some assignment) :
    assignment.shardId ∈ gpu.names := by
  apply List.mem_append_right
  rw [held]
  exact List.mem_singleton.mpr rfl

theorem SchedulerOrder.restart (order : SchedulerOrder scheduler) (tick : Tick)
    (polled : ∀ gpu ∈ scheduler.gpus, gpu.dead = true → StartPolled gpu) :
    SchedulerOrder (scheduler.restartDeadWorkers tick) := by
  have first : Ordered (Ended scheduler.db) (marks scheduler.batch ++ marks (Scheduler.synthetic scheduler.gpus)) := by
    rw [ordered_append]
    refine ⟨order.polled, ordered_of_no_starts ?_⟩
    intro id member
    obtain ⟨gpu, -, -, assignment, -, same⟩ := mark_synthetic member
    cases same
  have owner {other : Gpu} (present : other ∈ scheduler.gpus) {id : ShardId}
      (ends : Mark.ends id ∈ marks (Scheduler.synthetic scheduler.gpus))
      (leased : LeasedTo scheduler.db id other.uuid) :
      other.dead = true ∧ ∃ assignment, other.assignment = some assignment ∧ assignment.shardId = id := by
    obtain ⟨gpu, member, dead, assignment, held, same⟩ := mark_synthetic ends
    cases same
    have own := (order.gpus gpu member).leased _ (names_of_assignment held)
    obtain rfl := order.eq_of_uuid present member (leasedTo_unique leased own)
    exact ⟨dead, assignment, held, rfl⟩
  refine ⟨?_, ?_, ?_, ?_, order.completed⟩
  · refine order.unique.map fun gpu member => ?_
    split
    · rfl
    · rfl
  · rw [Scheduler.restartDeadWorkers, marks_append]
    exact first
  · intro event member mark marked
    rcases List.mem_append.mp member with old | made
    · exact order.leased event old mark marked
    · obtain ⟨gpu, present, dead, assignment, held, rfl⟩ := mem_synthetic made
      have ends : (gpu.interrupted assignment).mark? = some (.ends assignment.shardId) := mark?_ends.mpr ⟨rfl, rfl⟩
      rw [ends] at marked
      cases marked
      exact (order.gpus gpu present).leased _ (names_of_assignment held)
  · intro gpu member
    obtain ⟨before, present, rfl⟩ := List.mem_map.mp member
    have safe := order.gpus before present
    cases dead : before.dead with
    | true =>
      simp only [if_true]
      have respawned := safe.respawn (tick.pid before.uuid)
      refine respawned.append first ?_ ?_
      · intro id ends starts
        exact absurd starts (by simp [Gpu.outlook, Gpu.respawn, WorkerState.owed, Gpu.queued])
      · intro id ends events inside starts
        have leased : LeasedTo scheduler.db id before.uuid := respawned.lateLeased events inside _ starts
        obtain ⟨-, assignment, held, rfl⟩ := owner present ends leased
        rcases List.mem_append.mp inside with old | new
        · exact safe.apart events old _ starts (names_of_assignment held)
        · rw [List.mem_singleton.mp new] at starts
          obtain ⟨event, pending, marked⟩ := List.mem_filterMap.mp starts
          obtain ⟨named, started⟩ := mark?_starts.mp marked
          exact polled before present dead assignment held event pending started named
    | false =>
      simp only [Bool.false_eq_true, if_false]
      refine safe.append first ?_ ?_
      · intro id ends starts
        have alive := (owner present ends (safe.leased _ (names_of_outlook starts))).1
        rw [dead] at alive
        cases alive
      · intro id ends events inside starts
        have alive := (owner present ends (safe.lateLeased events inside _ starts)).1
        rw [dead] at alive
        cases alive

/-- The head of the batch is recorded; an ended shard stays, and no other starts again. -/
theorem SchedulerOrder.handleEvent (order : SchedulerOrder scheduler) (tick : Tick) {rest : List WorkerEvent}
    (batch : scheduler.batch = event :: rest) :
    SchedulerOrder (scheduler.handleEvent verification tick event rest) ∧
    ∀ id, Ended scheduler.db id → Ended (scheduler.handleEvent verification tick event rest).db id := by
  unfold Scheduler.handleEvent
  split
  · exact ⟨order.proceed rfl rfl (sameShards_of_eq rfl), fun id past => past⟩
  · rename_i db recorded
    have changed := recordEvent_shards recorded
    have polled := order.polled
    rw [batch, marks_cons] at polled
    have fresh (started : event.eventType = .started) (id : ShardId) (named : event.shardId = some id) :
        ¬ Ended scheduler.db id := by
      rw [mark?_starts.mpr ⟨named, started⟩] at polled
      exact polled.1
    refine ⟨⟨?_, ordered_recorded changed polled, ?_, ?_, changed.completed order.completed fresh⟩, ?_⟩
    · refine order.unique.modify fun gpu member => ?_
      rfl
    · intro other member mark marked
      apply changed.leasedTo
      exact order.leased other (by rw [batch]; exact List.mem_cons_of_mem _ member) mark marked
    · intro gpu member
      rcases Table.mem_modify member with ⟨before, present, -, rfl⟩ | ⟨present, -⟩
      · have safe : GpuOrder scheduler.db (event :: rest) before := batch ▸ order.gpus before present
        exact (safe.recorded changed).same rfl rfl rfl rfl rfl rfl
      · have safe : GpuOrder scheduler.db (event :: rest) gpu := batch ▸ order.gpus gpu present
        exact safe.recorded changed
    · intro id past
      exact changed.keepsEnded past fun started named => fresh started id named past

theorem cancel_same (order : GpuOrder db batch gpu) (jobId : JobId) :
    GpuOrder db batch (gpu.cancel jobId) ∧ (gpu.cancel jobId).uuid = gpu.uuid := by
  unfold Gpu.cancel
  split
  · split
    · refine ⟨order.same rfl rfl rfl ?_ rfl rfl, rfl⟩
      simp [Gpu.queued, WorkerCommand.shard?]
    · exact ⟨order, rfl⟩
  · exact ⟨order, rfl⟩

theorem activeJobStatus_shards (now : Time) (jobId : JobId) (db : Database) :
    (activeJobStatus now jobId db).2.shards = db.shards := by
  unfold activeJobStatus
  split
  · rfl
  · split
    · rfl
    · rfl

theorem claimNextJob_shards (combinedRate timeoutSeconds : Nat) (now : Time) (draw : Fin (secp256k1Order - 1))
    (locked : JobId → Bool) (db : Database) :
    (claimNextJob combinedRate timeoutSeconds now draw locked db).2.shards = db.shards := by
  unfold claimNextJob
  split
  · rfl
  · split
    · rfl
    · rfl

theorem SchedulerOrder.checkActiveJob (order : SchedulerOrder scheduler) (tick : Tick) :
    SchedulerOrder (scheduler.checkActiveJob tick) ∧
    SameShards scheduler.db (scheduler.checkActiveJob tick).db := by
  unfold Scheduler.checkActiveJob
  split
  · exact ⟨order.proceed rfl rfl (sameShards_of_eq rfl), sameShards_of_eq rfl⟩
  · rename_i jobId _
    have shards := sameShards_of_eq (activeJobStatus_shards tick.now jobId scheduler.db)
    simp only
    split
    · refine ⟨order.map rfl rfl shards ?_, shards⟩
      exact fun gpu member => cancel_same (order.gpus gpu member) jobId
    · exact ⟨order.proceed rfl rfl shards, shards⟩

theorem SchedulerOrder.claimIfReady (order : SchedulerOrder scheduler) (tick : Tick) :
    SchedulerOrder (scheduler.claimIfReady settings tick) ∧
    SameShards scheduler.db (scheduler.claimIfReady settings tick).db := by
  unfold Scheduler.claimIfReady
  split
  · have shards := sameShards_of_eq (claimNextJob_shards
      (scheduler.gpus.map (·.info.benchmarkRate)).sum settings.jobTimeoutSeconds tick.now tick.draw tick.locked
      scheduler.db)
    exact ⟨order.proceed rfl rfl shards, shards⟩
  · exact ⟨order.proceed rfl rfl (sameShards_of_eq rfl), sameShards_of_eq rfl⟩

/-- What a lease adds to the tables. -/
structure AddsShard (uuid : GpuUuid) (id : ShardId) (db after : Database) : Prop where
  added : ∃ row, after.shard? id = some row ∧ row.gpuUuid = uuid ∧ row.status = .assigned ∧ row.completedAt = none
  others : ∀ other, other ≠ id → after.shard? other = db.shard? other

theorem allocateShard_adds {jobId : JobId} {uuid : GpuUuid} {shardSeconds kernelBatchMs : Nat} {lease : Lease}
    {assignment : WorkAssignment}
    (assigned : allocateShard jobId uuid shardSeconds kernelBatchMs lease db = .assigned assignment after) :
    assignment.shardId = lease.shardId ∧ AddsShard uuid lease.shardId db after := by
  unfold allocateShard at assigned
  split at assigned
  · rename_i job device jobKnown deviceKnown
    have key : device.uuid = uuid := Table.key_of_lookup deviceKnown
    split at assigned
    · cases assigned
    · split at assigned
      · cases assigned
      · rename_i start _
        simp only at assigned
        split at assigned
        · cases assigned
        · split at assigned
          · cases assigned
          · cases assigned
            refine ⟨rfl, ⟨newShard job device start (leaseCount device shardSeconds) lease, ?_, key, rfl, rfl⟩, ?_⟩
            · exact Table.lookup_cons.trans (if_pos rfl)
            · intro other different
              exact Table.lookup_cons.trans (if_neg different.symm)
  · cases assigned

theorem allocateShard_exhausted_shards {jobId : JobId} {uuid : GpuUuid} {shardSeconds kernelBatchMs : Nat}
    {lease : Lease} (exhausted : allocateShard jobId uuid shardSeconds kernelBatchMs lease db = .exhausted after) :
    after.shards = db.shards := by
  unfold allocateShard at exhausted
  split at exhausted
  · split at exhausted
    · cases exhausted
    · split at exhausted
      · cases exhausted
      · simp only at exhausted
        split at exhausted
        · cases exhausted
          rfl
        · split at exhausted
          · cases exhausted
          · cases exhausted
  · cases exhausted

/-- A fresh shard ends nothing. -/
theorem AddsShard.sameShards {uuid : GpuUuid} {id : ShardId} (adds : AddsShard uuid id db after)
    (fresh : db.shard? id = none) : SameShards db after := by
  obtain ⟨row, found, -, status, completed⟩ := adds.added
  refine ⟨fun other => ?_, fun other uuid leased => ?_, fun sound other next foundNext => ?_⟩
  · by_cases same : other = id
    · subst same
      constructor
      · intro past
        obtain ⟨next, again, closed⟩ := past
        rw [found] at again
        cases again
        rw [status] at closed
        cases closed
      · intro past
        obtain ⟨next, old, -⟩ := past
        rw [fresh] at old
        cases old
    · rw [Ended, adds.others other same, Ended]
  · have different : other ≠ id := by
      intro same
      obtain ⟨row, old, -⟩ := leased
      rw [same, fresh] at old
      cases old
    rw [LeasedTo, adds.others other different]
    exact leased
  · by_cases same : other = id
    · subst same
      rw [found] at foundNext
      cases foundNext
      rw [status, completed]
      simp [ShardStatus.active]
    · rw [adds.others other same] at foundNext
      exact sound other next foundNext

theorem not_leased_of_fresh {id : ShardId} {uuid : GpuUuid} (fresh : db.shard? id = none) :
    ¬ LeasedTo db id uuid := by
  intro leased
  obtain ⟨row, found, -⟩ := leased
  rw [fresh] at found
  cases found

/-- A fresh shard is queued for the worker of its GPU. -/
theorem GpuOrder.dispatched (order : GpuOrder db batch gpu) {assignment : WorkAssignment}
    (adds : AddsShard gpu.uuid assignment.shardId db after) (fresh : db.shard? assignment.shardId = none)
    (unspoken : ∀ mark ∈ marks batch, mark.key ≠ assignment.shardId) :
    GpuOrder after batch (gpu.dispatched assignment) := by
  have same := adds.sameShards fresh
  have unnamed : assignment.shardId ∉ gpu.names := fun named =>
    not_leased_of_fresh fresh (order.leased _ named)
  have queued : (gpu.dispatched assignment).queued = gpu.queued ++ [assignment.shardId] := by
    simp [Gpu.queued, Gpu.dispatched, WorkerCommand.shard?]
  have outlook : (gpu.dispatched assignment).outlook = gpu.outlook ++ [.starts assignment.shardId] := by
    rw [Gpu.outlook, queued, List.map_append, ← List.append_assoc]
    rfl
  have taken : (gpu.dispatched assignment).taken = gpu.taken ++ [assignment.shardId] := by
    rw [Gpu.taken, queued, ← List.append_assoc]
    rfl
  have names : ∀ id ∈ (gpu.dispatched assignment).names, id ∈ gpu.names ∨ id = assignment.shardId := by
    intro id member
    rw [Gpu.names, outlook, taken] at member
    simp only [List.mem_append, List.map_append, List.map_cons, List.map_nil, List.mem_singleton] at member
    rcases member with ((written | rfl) | (held | rfl)) | handle
    · exact .inl (List.mem_append_left _ (List.mem_append_left _ written))
    · exact .inr rfl
    · exact .inl (List.mem_append_left _ (List.mem_append_right _ held))
    · exact .inr rfl
    · exact .inr (List.mem_singleton.mp handle)
  have kept := order.shards same
  refine ⟨?_, kept.late, ?_, order.pending, order.lateOwn, ?_, kept.lateLeased, ?_, order.lateApart⟩
  · rw [outlook, ← List.append_assoc, ordered_append]
    refine ⟨kept.outlook, ?_, trivial⟩
    intro past
    rcases past with ended | written
    · obtain ⟨row, found, -⟩ := (same.ended _).mp ended
      rw [fresh] at found
      cases found
    · rcases List.mem_append.mp written with polled | ahead
      · exact unspoken _ polled rfl
      · exact unnamed (names_of_outlook ahead)
  · rw [taken]
    refine List.nodup_append.mpr ⟨order.distinct, List.nodup_singleton _, ?_⟩
    intro id held other single same
    rw [List.mem_singleton.mp single] at same
    rw [same] at held
    exact unnamed (List.mem_append_left _ (List.mem_append_right _ held))
  · intro id member
    rcases names id member with old | rfl
    · exact kept.leased id old
    · obtain ⟨row, found, own, -⟩ := adds.added
      exact ⟨row, found, own⟩
  · intro events member mark marked named
    rcases names _ named with old | same
    · exact order.apart events member mark marked old
    · apply not_leased_of_fresh fresh
      rw [← same]
      exact order.lateLeased events member mark marked

theorem shard?_none {id : ShardId} (fresh : ∀ shard ∈ db.shards, shard.id ≠ id) : db.shard? id = none := by
  cases found : db.shard? id with
  | none => rfl
  | some shard => exact absurd (Table.key_of_lookup found) (fresh shard (Table.mem_of_lookup found))

/-- The assignment of a shard just leased goes to its GPU. -/
theorem SchedulerOrder.dispatch (order : SchedulerOrder scheduler) {uuid : GpuUuid} {rest : List GpuUuid}
    {assignment : WorkAssignment} (adds : AddsShard uuid assignment.shardId scheduler.db after)
    (fresh : scheduler.db.shard? assignment.shardId = none) :
    SchedulerOrder { { scheduler with db := after }.modifyGpu uuid (Gpu.dispatched assignment) with
      stage := .filling rest } := by
  have shards := adds.sameShards fresh
  have leased : SchedulerOrder { scheduler with db := after } := order.proceed rfl rfl shards
  have unspoken : ∀ mark ∈ marks scheduler.batch, mark.key ≠ assignment.shardId := by
    intro mark member same
    obtain ⟨event, present, marked⟩ := List.mem_filterMap.mp member
    apply not_leased_of_fresh fresh
    rw [← same]
    exact order.leased event present mark marked
  refine leased.map rfl rfl (sameShards_of_eq rfl) fun other present => ?_
  by_cases own : other.uuid = uuid
  · simp only [own, ↓reduceIte]
    exact ⟨(order.gpus other present).dispatched (own ▸ adds) fresh unspoken, own⟩
  · simp only [own, ↓reduceIte]
    exact ⟨leased.gpus other present, trivial⟩

theorem SchedulerOrder.fillIdleGpu (order : SchedulerOrder scheduler) {tick : Tick} {uuid : GpuUuid}
    {rest : List GpuUuid} (filled : scheduler.fillIdleGpu settings tick uuid rest = some next) :
    SchedulerOrder next ∧ SameShards scheduler.db next.db := by
  unfold Scheduler.fillIdleGpu at filled
  split at filled
  · rename_i unused
    have fresh := shard?_none unused
    split at filled
    · cases filled
    · split at filled
      · cases filled
        exact ⟨order.proceed rfl rfl (sameShards_of_eq rfl), sameShards_of_eq rfl⟩
      · rename_i db exhausted
        cases filled
        have shards := sameShards_of_eq (allocateShard_exhausted_shards exhausted)
        exact ⟨order.proceed rfl rfl shards, shards⟩
      · rename_i assignment db assigned
        cases filled
        obtain ⟨same, adds⟩ := allocateShard_adds assigned
        have shards := adds.sameShards fresh
        unfold Scheduler.dispatch
        split
        · exact ⟨order.proceed rfl rfl shards, shards⟩
        · split
          · exact ⟨order.proceed rfl rfl shards, shards⟩
          · split
            · exact ⟨order.proceed rfl rfl shards, shards⟩
            · refine ⟨order.dispatch ?_ ?_, shards⟩
              · rw [same]
                exact adds
              · rw [same]
                exact fresh
      · cases filled
        exact ⟨order.proceed rfl rfl (sameShards_of_eq rfl), sameShards_of_eq rfl⟩
  · cases filled

theorem perform_requested_shards {operation : Operation} (requested : operation.requested = true)
    (performed : perform verification operation db = some after) : after.shards = db.shards := by
  cases operation with
  | create job =>
    simp only [perform] at performed
    split at performed
    · cases performed
      rfl
    · cases performed
  | cancel user jobId now =>
    cases performed
    unfold cancelJob
    split
    · rfl
    · split
      · rfl
      · split
        · rfl
        · rfl
  | submit jobId workerId address offset entropy now =>
    simp only [perform, submitCandidate] at performed
    split at performed
    · split at performed
      · cases performed
        rfl
      · cases performed
    · cases performed
    · cases performed
      rfl
  | _ => cases requested

/-- Whenever a dead worker is respawned and its assignment reported as failed, the
`STARTED` event of that assignment is no longer in the queue. -/
def StartsPolled (scheduler : Scheduler) : SchedulerAction → Prop
  | .loop _ => scheduler.stage = .polling → ∀ gpu ∈ scheduler.gpus, gpu.dead = true → StartPolled gpu
  | _ => True

instance (scheduler : Scheduler) : (action : SchedulerAction) → Decidable (StartsPolled scheduler action)
  | .loop _ => inferInstanceAs (Decidable (scheduler.stage = .polling → ∀ gpu ∈ scheduler.gpus, _))
  | .announce _ | .take _ | .report .. | .fail .. | .die .. | .deliver .. | .request _ =>
    inferInstanceAs (Decidable True)

theorem SchedulerOrder.loop (order : SchedulerOrder scheduler) {tick : Tick}
    (polled : StartsPolled scheduler (.loop tick))
    (stepped : scheduler.loop verification settings tick = some next) :
    SchedulerOrder next ∧ ∀ id, Ended scheduler.db id → Ended next.db id := by
  have unchanged {after : Scheduler} (moved : SchedulerOrder after ∧ SameShards scheduler.db after.db) :
      SchedulerOrder after ∧ ∀ id, Ended scheduler.db id → Ended after.db id :=
    ⟨moved.1, fun id past => (moved.2.ended id).mpr past⟩
  unfold Scheduler.loop at stepped
  split at stepped
  · rename_i polling
    cases stepped
    exact unchanged ⟨order.restart tick (polled polling), sameShards_of_eq rfl⟩
  · split at stepped
    · rename_i batch
      cases stepped
      exact order.handleEvent tick batch
    · cases stepped
      exact unchanged (order.checkActiveJob tick)
  · cases stepped
    exact unchanged ⟨order.proceed rfl rfl (sameShards_of_eq rfl), sameShards_of_eq rfl⟩
  · cases stepped
    exact unchanged (order.claimIfReady tick)
  · cases stepped
    exact unchanged ⟨order.proceed rfl rfl (sameShards_of_eq rfl), sameShards_of_eq rfl⟩
  · exact unchanged (order.fillIdleGpu stepped)
  · cases stepped

theorem SchedulerOrder.step (order : SchedulerOrder scheduler) {action : SchedulerAction}
    (polled : StartsPolled scheduler action)
    (stepped : schedulerStep verification settings action scheduler = some next) :
    SchedulerOrder next ∧ ∀ id, Ended scheduler.db id → Ended next.db id := by
  have worked {uuid : GpuUuid} {act : Gpu → Option Gpu} (acted : scheduler.onGpu uuid act = some next)
      (works : ∀ gpu after, gpu.taken.Nodup → act gpu = some after → Works gpu after) :
      SchedulerOrder next ∧ ∀ id, Ended scheduler.db id → Ended next.db id := by
    refine ⟨order.onGpu acted works, fun id past => ?_⟩
    obtain ⟨gpu, -, rest⟩ := Option.bind_eq_some_iff.mp acted
    obtain ⟨after, -, same⟩ := Option.bind_eq_some_iff.mp rest
    cases same
    exact past
  cases action with
  | announce uuid => exact worked stepped fun _ _ _ acted => works_announce acted
  | take uuid => exact worked stepped fun _ _ distinct acted => works_take distinct acted
  | report uuid event => exact worked stepped fun _ _ distinct acted => works_report distinct acted
  | fail uuid error => exact worked stepped fun _ _ _ acted => works_fail acted
  | die uuid flushed =>
    refine worked stepped ?_
    intro gpu after _ acted
    cases acted
    exact works_die flushed
  | deliver uuid stream =>
    refine ⟨order.deliver stepped, fun id past => ?_⟩
    simp only [schedulerStep, Scheduler.deliver] at stepped
    split at stepped
    · obtain ⟨gpu, -, rest⟩ := Option.bind_eq_some_iff.mp stepped
      obtain ⟨⟨event, after⟩, -, same⟩ := Option.bind_eq_some_iff.mp rest
      cases same
      exact past
    · cases stepped
  | loop tick => exact order.loop polled stepped
  | request operation =>
    simp only [schedulerStep] at stepped
    split at stepped
    · rename_i requested
      obtain ⟨db, performed, rfl⟩ := Option.map_eq_some_iff.mp stepped
      have shards := sameShards_of_eq (perform_requested_shards requested performed)
      exact ⟨order.proceed rfl rfl shards, fun id past => (shards.ended id).mpr past⟩
    · cases stepped

theorem initializeDevices_shards (devices : List GpuInfo) (db : Database) :
    (initializeDevices devices db).shards = db.shards := by
  have registered : ∀ current : Database, (devices.foldl register current).shards = current.shards := by
    induction devices with
    | nil => exact fun _ => rfl
    | cons info rest hypothesis =>
      intro current
      rw [List.foldl_cons, hypothesis]
      unfold register
      split
      · rfl
      · rfl
  exact registered _

theorem launched_order {devices : List GpuInfo} (distinct : (devices.map (·.uuid)).Nodup)
    (pid : GpuUuid → Nat) (now : Time) {db : Database} (completed : Completed db) :
    SchedulerOrder (launched devices pid now db) where
  unique := by
    simp only [Table.Unique, launched, List.map_map]
    exact distinct
  polled := trivial
  leased event member := by cases member
  gpus gpu member := by
    obtain ⟨info, -, rfl⟩ := List.mem_map.mp member
    refine ⟨trivial, ?_, List.nodup_nil, ?_, ?_, ?_, ?_, ?_, ?_⟩
    · simp
    · simp
    · simp
    · intro id named
      cases named
    · simp
    · simp
    · simp
  completed := by
    intro id row found
    have shards : (launched devices pid now db).db.shards = db.shards.map (interruptShard now) :=
      initializeDevices_shards devices _
    have kept : ∀ row, (interruptShard now row).id = row.id := by
      intro row
      unfold interruptShard
      split
      · rfl
      · rfl
    rw [Database.shard?, shards, Table.lookup_map kept] at found
    obtain ⟨before, old, rfl⟩ := Option.map_eq_some_iff.mp found
    unfold interruptShard
    split
    · exact ⟨fun _ => rfl, fun _ => rfl⟩
    · exact completed id before old

/-- In every run in which no `STARTED` event is left behind when the failure of its
assignment is made up, a shard that has ended stays so, and its completion time is
set exactly then. -/
theorem ended_shards_stay {devices : List GpuInfo} (distinct : (devices.map (·.uuid)).Nodup)
    {pid : GpuUuid → Nat} {now : Time} {db : Database} (completed : Completed db)
    (run : (scheduling verification settings).Run StartsPolled (launched devices pid now db) scheduler) :
    Completed scheduler.db ∧
    ∀ later, (scheduling verification settings).Run StartsPolled scheduler later →
      ∀ id, Ended scheduler.db id → Ended later.db id := by
  have order : SchedulerOrder scheduler :=
    Machine.Run.invariant run (fun _ _ _ order polled stepped => (order.step polled stepped).1)
      (launched_order distinct pid now completed)
  refine ⟨order.completed, fun later rest id past => ?_⟩
  have both : SchedulerOrder later ∧ Ended later.db id := by
    apply Machine.Run.invariant rest
    · intro before action after sound polled stepped
      obtain ⟨order, past⟩ := sound
      obtain ⟨kept, stays⟩ := order.step polled stepped
      exact ⟨kept, stays id past⟩
    · exact ⟨order, past⟩
  exact both.2

/-- The `STARTED` event of the first shard, which is named by the time of its lease. -/
def startedEvent : WorkerEvent where
  eventType := .started
  gpuUuid := "GPU-0"
  workerPid := 7
  jobId := some 1
  shardId := some 24
  leaseToken := some 24

/-- The worker starts its assignment and dies; both events are recorded in order. -/
def polledInOrder : List SchedulerAction :=
  dispatchedRun ++ [turn 25, .take "GPU-0", .report "GPU-0" startedEvent, .deliver "GPU-0" none, .die "GPU-0" 0,
    turn 26, turn 27, turn 28]

theorem ended_shards_stay_failed :
    Completed (played polledInOrder).db ∧ ∀ later,
      (scheduling refusing sampleSettings).Run StartsPolled (played polledInOrder) later → Ended later.db 24 := by
  have distinct : ([sampleGpu].map (·.uuid)).Nodup := by decide
  have empty : Completed ({} : Database) := by
    intro id row found
    cases found
  have run : (scheduling refusing sampleSettings).Run StartsPolled launchedOne (played polledInOrder) :=
    Machine.replay_run polledInOrder rfl
  obtain ⟨completed, stays⟩ := ended_shards_stay distinct empty run
  exact ⟨completed, fun later rest => stays later rest 24 ⟨_, rfl, rfl⟩⟩

/-- The worker starts its assignment and dies before the event is polled; the failure
of the assignment is recorded. -/
def interruptedRun : List SchedulerAction :=
  dispatchedRun ++ [.take "GPU-0", .report "GPU-0" startedEvent, .die "GPU-0" 1, turn 25, turn 26, turn 27]

/-- The event of the dead worker is polled after that. -/
def lateRun : List SchedulerAction :=
  [turn 28, turn 29, turn 30, turn 31, .deliver "GPU-0" (some 0), turn 33, turn 34]

def revived : Scheduler :=
  ((scheduling refusing sampleSettings).replay Machine.anyAction lateRun (played interruptedRun)).getD launchedOne

/-- The failed shard runs again, with its completion time still set. -/
theorem ended_shard_revived :
    (scheduling refusing sampleSettings).Run Machine.anyAction launchedOne (played interruptedRun) ∧
    Ended (played interruptedRun).db 24 ∧
    (scheduling refusing sampleSettings).Run Machine.anyAction (played interruptedRun) revived ∧
    (∃ row, revived.db.shard? 24 = some row ∧ row.status = .running ∧ row.completedAt = some 27) ∧
    ¬ Completed revived.db := by
  refine ⟨Machine.replay_run interruptedRun rfl, ⟨_, rfl, rfl⟩, Machine.replay_run lateRun rfl, ⟨_, rfl, rfl, rfl⟩, ?_⟩
  intro completed
  have closed := (completed 24 _ rfl).mp rfl
  cases closed

end TronForge.Generator
