import TronForge.Generator.ShardStatuses
import TronForge.Library.Lifecycle

/-! The streams of one GPU: what its worker has written and will write about a shard,
behind the events polled already, starts nothing that has ended before, and no two of
its workers name the same shard. -/

namespace TronForge.Generator

open Library Lifecycle

variable {db : Database} {batch : List WorkerEvent}
  {gpu after : Gpu} {event : WorkerEvent}

/-- What an event starts or ends, if it names a shard. -/
def WorkerEvent.mark? (event : WorkerEvent) : Option (Mark ShardId) :=
  match event.shardId with
  | none => none
  | some shardId =>
    if event.eventType = .started then some (.starts shardId)
    else if Gpu.closing event.eventType then some (.ends shardId)
    else none

def marks (events : List WorkerEvent) : List (Mark ShardId) := events.filterMap WorkerEvent.mark?

/-- What the worker is about to write. -/
def WorkerState.owed : WorkerState → List (Mark ShardId)
  | .accepted assignment => [.starts assignment.shardId]
  | _ => []

def WorkerCommand.shard? : WorkerCommand → Option ShardId
  | .assign assignment => some assignment.shardId
  | .cancelJob _ => none

/-- The shards in the command queue. -/
def Gpu.queued (gpu : Gpu) : List ShardId := gpu.commands.filterMap WorkerCommand.shard?

/-- What the present worker has written, and what it will write at least. -/
def Gpu.outlook (gpu : Gpu) : List (Mark ShardId) :=
  marks gpu.pending ++ gpu.worker.owed ++ gpu.queued.map .starts

/-- The shards the present worker works on or has queued. -/
def Gpu.taken (gpu : Gpu) : List ShardId :=
  ((Gpu.working? gpu.worker).map (·.shardId)).toList ++ gpu.queued

/-- The shards that the handle and the present worker know of. -/
def Gpu.names (gpu : Gpu) : List ShardId :=
  gpu.outlook.map Mark.key ++ gpu.taken ++ (gpu.assignment.map (·.shardId)).toList

@[simp] theorem marks_nil : marks [] = [] := rfl

@[simp] theorem marks_append (first second : List WorkerEvent) :
    marks (first ++ second) = marks first ++ marks second := List.filterMap_append

theorem marks_cons (event : WorkerEvent) (rest : List WorkerEvent) :
    marks (event :: rest) = event.mark?.toList ++ marks rest := by
  cases marked : event.mark? <;> simp [marks, marked]

theorem marks_single (event : WorkerEvent) : marks [event] = event.mark?.toList := by
  rw [marks_cons, marks_nil, List.append_nil]

theorem mark?_ends {shardId : ShardId} : event.mark? = some (.ends shardId) ↔
    event.shardId = some shardId ∧ Gpu.closing event.eventType = true := by
  unfold WorkerEvent.mark?
  cases event.shardId with
  | none => simp
  | some other => cases event.eventType <;> simp [Gpu.closing]

theorem mark?_starts {shardId : ShardId} : event.mark? = some (.starts shardId) ↔
    event.shardId = some shardId ∧ event.eventType = .started := by
  unfold WorkerEvent.mark?
  cases event.shardId with
  | none => simp
  | some other => cases event.eventType <;> simp [Gpu.closing]

/-- The streams of a GPU are in order behind the batch, and its shards are its own:
no two of its workers name the same. -/
structure GpuOrder (db : Database) (batch : List WorkerEvent) (gpu : Gpu) : Prop where
  outlook : Ordered (Ended db) (marks batch ++ gpu.outlook)
  late : ∀ events ∈ gpu.late, Ordered (Ended db) (marks batch ++ marks events)
  distinct : gpu.taken.Nodup
  pending : ∀ event ∈ gpu.pending, event.gpuUuid = gpu.uuid
  lateOwn : ∀ events ∈ gpu.late, ∀ event ∈ events, event.gpuUuid = gpu.uuid
  leased : ∀ id ∈ gpu.names, LeasedTo db id gpu.uuid
  lateLeased : ∀ events ∈ gpu.late, ∀ mark ∈ marks events, LeasedTo db mark.key gpu.uuid
  apart : ∀ events ∈ gpu.late, ∀ mark ∈ marks events, mark.key ∉ gpu.names
  lateApart : ∀ (i j : Nat) left right, gpu.late[i]? = some left → gpu.late[j]? = some right → i ≠ j →
    ∀ mark ∈ marks left, ∀ other ∈ marks right, mark.key ≠ other.key

/-- A step of the present worker. -/
structure Works (gpu after : Gpu) : Prop where
  uuid : after.uuid = gpu.uuid
  late : after.late = gpu.late
  assignment : after.assignment = gpu.assignment
  pending : ∀ event ∈ after.pending, event ∈ gpu.pending ∨ event.gpuUuid = gpu.uuid
  taken : after.taken.Sublist gpu.taken
  named : ∀ mark ∈ after.outlook, mark.key ∈ gpu.names
  ordered : ∀ (ended : ShardId → Prop) before, Ordered ended (before ++ gpu.outlook) →
    Ordered ended (before ++ after.outlook)

theorem GpuOrder.works (order : GpuOrder db batch gpu) (works : Works gpu after) : GpuOrder db batch after := by
  have names : ∀ id ∈ after.names, id ∈ gpu.names := by
    intro id member
    rcases List.mem_append.mp member with inside | assigned
    · rcases List.mem_append.mp inside with written | taken
      · obtain ⟨mark, marked, rfl⟩ := List.mem_map.mp written
        exact works.named mark marked
      · exact List.mem_append_left _ (List.mem_append_right _ (works.taken.subset taken))
    · rw [works.assignment] at assigned
      exact List.mem_append_right _ assigned
  refine ⟨works.ordered _ _ order.outlook, ?_, order.distinct.sublist works.taken, ?_, ?_, ?_, ?_, ?_, ?_⟩
  · rw [works.late]
    exact order.late
  · intro event member
    rw [works.uuid]
    rcases works.pending event member with old | own
    · exact order.pending event old
    · exact own
  · rw [works.late, works.uuid]
    exact order.lateOwn
  · intro id member
    rw [works.uuid]
    exact order.leased id (names id member)
  · rw [works.late, works.uuid]
    exact order.lateLeased
  · rw [works.late]
    intro events member mark marked named
    exact order.apart events member mark marked (names _ named)
  · rw [works.late]
    exact order.lateApart

/-- A step after which the stream lacks at most some of what was to come. -/
theorem works_of_sublist (uuid : after.uuid = gpu.uuid) (late : after.late = gpu.late)
    (assignment : after.assignment = gpu.assignment)
    (pending : ∀ event ∈ after.pending, event ∈ gpu.pending ∨ event.gpuUuid = gpu.uuid)
    (taken : after.taken.Sublist gpu.taken) (outlook : after.outlook.Sublist gpu.outlook) : Works gpu after where
  uuid := uuid
  late := late
  assignment := assignment
  pending := pending
  taken := taken
  named mark member := by
    apply List.mem_append_left
    apply List.mem_append_left
    exact List.mem_map_of_mem (outlook.subset member)
  ordered _ _ ordered := ordered.sublist (outlook.append_left _)

/-- An event without a mark, from a worker that owes and holds no more than before. -/
theorem works_of_unmarked (unmarked : event.mark? = none) (own : event.gpuUuid = gpu.uuid) {worker : WorkerState}
    (owed : worker.owed.Sublist gpu.worker.owed)
    (working : (Gpu.working? worker).toList.Sublist (Gpu.working? gpu.worker).toList) :
    Works gpu { gpu with worker, pending := gpu.pending ++ [event] } := by
  refine works_of_sublist rfl rfl rfl ?_ ?_ ?_
  · intro other member
    rcases List.mem_append.mp member with old | new
    · exact .inl old
    · rw [List.mem_singleton.mp new]
      exact .inr own
  · simp only [Gpu.taken]
    refine List.Sublist.append ?_ (List.Sublist.refl _)
    rw [Option.toList_map, Option.toList_map]
    exact working.map _
  · simp only [Gpu.outlook, marks_append, marks_single, unmarked, Option.toList_none, List.append_nil]
    exact (owed.append_left _).append_right _

/-- The last event of an assignment: nothing that is to come names its shard. -/
theorem works_of_ends {assignment : WorkAssignment} (working : Gpu.working? gpu.worker = some assignment)
    (distinct : gpu.taken.Nodup) (marked : event.mark? = some (.ends assignment.shardId))
    (own : event.gpuUuid = gpu.uuid) {commands : List WorkerCommand} (fewer : commands.Sublist gpu.commands) :
    Works gpu { gpu with worker := .reported, commands, pending := gpu.pending ++ [event] } := by
  have queue : (commands.filterMap WorkerCommand.shard?).Sublist gpu.queued := fewer.filterMap _
  have held : gpu.taken = assignment.shardId :: gpu.queued := by
    rw [Gpu.taken, working]
    rfl
  rw [held] at distinct
  obtain ⟨fresh, -⟩ := List.nodup_cons.mp distinct
  have spoken : assignment.shardId ∈ gpu.names := by
    apply List.mem_append_left
    apply List.mem_append_right
    rw [held]
    exact List.mem_cons_self
  have outlook : ({ gpu with worker := .reported, commands, pending := gpu.pending ++ [event] } : Gpu).outlook =
      marks gpu.pending ++ [.ends assignment.shardId] ++
        (commands.filterMap WorkerCommand.shard?).map .starts := by
    simp [Gpu.outlook, marks_single, marked, WorkerState.owed, Gpu.queued]
  have kept : (marks gpu.pending ++ (commands.filterMap WorkerCommand.shard?).map Mark.starts).Sublist
      gpu.outlook := by
    rw [Gpu.outlook, List.append_assoc]
    refine List.Sublist.append_left ?_ _
    exact (queue.map _).trans (List.sublist_append_right _ _)
  refine ⟨rfl, rfl, rfl, ?_, ?_, ?_, ?_⟩
  · intro other member
    rcases List.mem_append.mp member with old | new
    · exact .inl old
    · rw [List.mem_singleton.mp new]
      exact .inr own
  · rw [held]
    exact queue.trans (List.sublist_cons_self _ _)
  · rw [outlook]
    intro mark member
    rw [List.append_assoc, List.mem_append, List.mem_append, List.mem_singleton] at member
    have inside (present : mark ∈ marks gpu.pending ++ (commands.filterMap WorkerCommand.shard?).map Mark.starts) :
        mark.key ∈ gpu.names := by
      apply List.mem_append_left
      apply List.mem_append_left
      exact List.mem_map_of_mem (kept.subset present)
    rcases member with written | rfl | queued
    · exact inside (List.mem_append_left _ written)
    · exact spoken
    · exact inside (List.mem_append_right _ queued)
  · intro ended before ordered
    have rest := ordered.sublist (kept.append_left before)
    rw [outlook, ← List.append_assoc, ← List.append_assoc]
    rw [← List.append_assoc] at rest
    refine rest.insert ?_ ?_
    · have first : Ordered ended (before ++ marks gpu.pending) :=
        rest.sublist (List.sublist_append_left _ _)
      rw [ordered_append]
      exact ⟨first, trivial⟩
    · intro key ends starts
      cases List.mem_singleton.mp ends
      obtain ⟨other, queued, same⟩ := List.mem_map.mp starts
      cases same
      exact fresh (queue.subset queued)

theorem works_announce (acted : gpu.announce = some after) : Works gpu after := by
  unfold Gpu.announce at acted
  split at acted
  case h_6 | h_7 | h_8 | h_9 => cases acted
  all_goals
    cases acted
    refine works_of_unmarked rfl rfl ?_ ?_
    · exact List.nil_sublist _
    · exact List.nil_sublist _

theorem works_fail {error : String} (acted : gpu.fail error = some after) : Works gpu after := by
  unfold Gpu.fail at acted
  split at acted
  case h_1 | h_2 | h_3 => cases acted
  cases acted
  refine works_of_unmarked rfl rfl ?_ ?_
  · exact List.nil_sublist _
  · exact List.nil_sublist _

theorem works_die (flushed : Nat) : Works gpu (gpu.die flushed) := by
  refine works_of_sublist rfl rfl rfl ?_ ?_ ?_
  · intro event member
    exact .inl (List.mem_of_mem_take member)
  · exact List.sublist_append_right _ _
  · simp only [Gpu.outlook, Gpu.die, WorkerState.owed, List.append_nil]
    refine List.Sublist.append ?_ (List.Sublist.refl _)
    exact (List.Sublist.filterMap _ (List.take_sublist _ _)).trans (List.sublist_append_left _ _)

theorem works_report (distinct : gpu.taken.Nodup) (acted : gpu.report event = some after) :
    Works gpu after := by
  unfold Gpu.report at acted
  split at acted
  · cases acted
  · rename_i assignment working
    split at acted
    · rename_i about
      obtain ⟨own, -, -, named, -⟩ := about
      obtain ⟨worker, reported, rfl⟩ := Option.map_eq_some_iff.mp acted
      have ends (closing : Gpu.closing event.eventType = true) :
          Works gpu { gpu with worker := .reported, pending := gpu.pending ++ [event] } :=
        works_of_ends working distinct (mark?_ends.mpr ⟨named, closing⟩) own (List.Sublist.refl _)
      unfold Gpu.afterReport at reported
      split at reported
      · rename_i state
        rw [state] at working
        cases working
        split at reported
        · rename_i started
          cases reported
          have marked : event.mark? = some (.starts assignment.shardId) := mark?_starts.mpr ⟨named, started⟩
          have same : ({ gpu with worker := .running assignment, pending := gpu.pending ++ [event] } : Gpu).outlook =
              gpu.outlook := by
            simp [Gpu.outlook, marks_single, marked, WorkerState.owed, Gpu.queued, state]
          refine works_of_sublist rfl rfl rfl ?_ ?_ ?_
          · intro other member
            rcases List.mem_append.mp member with old | new
            · exact .inl old
            · rw [List.mem_singleton.mp new]
              exact .inr own
          · simp [Gpu.taken, state, Gpu.working?, Gpu.queued]
          · rw [same]
        · split at reported
          · rename_i failed
            cases reported
            exact ends (by rw [failed]; rfl)
          · cases reported
      · rename_i state
        rw [state] at working
        cases working
        split at reported
        · rename_i progress
          cases reported
          have unmarked : event.mark? = none := by
            simp [WorkerEvent.mark?, named, progress, Gpu.closing]
          refine works_of_unmarked unmarked own ?_ ?_
          · exact List.nil_sublist _
          · rw [state]
        · split at reported
          · rename_i closing
            cases reported
            exact ends closing
          · cases reported
      · cases reported
    · cases acted

theorem works_of_cancel {jobId : JobId} {rest : List WorkerCommand}
    (commands : gpu.commands = .cancelJob jobId :: rest) : Works gpu { gpu with commands := rest } := by
  have same : rest.filterMap WorkerCommand.shard? = gpu.queued := by
    rw [Gpu.queued, commands, List.filterMap_cons]
    rfl
  refine works_of_sublist rfl rfl rfl (fun event member => .inl member) ?_ ?_
  · simp only [Gpu.taken]
    refine List.Sublist.append (List.Sublist.refl _) ?_
    exact same ▸ List.Sublist.refl _
  · simp only [Gpu.outlook]
    refine List.Sublist.append (List.Sublist.refl _) ?_
    exact (same ▸ List.Sublist.refl _ : (rest.filterMap WorkerCommand.shard?).Sublist gpu.queued).map _

theorem works_take (distinct : gpu.taken.Nodup) (acted : gpu.take = some after) : Works gpu after := by
  unfold Gpu.take at acted
  split at acted
  · rename_i assignment rest state commands
    cases acted
    refine works_of_sublist rfl rfl rfl (fun event member => .inl member) ?_ ?_
    · simp [Gpu.taken, Gpu.queued, Gpu.working?, state, commands, WorkerCommand.shard?]
    · simp [Gpu.outlook, Gpu.queued, WorkerState.owed, state, commands, WorkerCommand.shard?]
  · rename_i jobId rest state commands
    cases acted
    exact works_of_cancel commands
  · rename_i assignment jobId rest state commands
    cases acted
    exact works_of_cancel commands
  · rename_i assignment other rest state commands
    cases acted
    have working : Gpu.working? gpu.worker = some assignment := by rw [state]; rfl
    refine works_of_ends working distinct (mark?_ends.mpr ⟨rfl, rfl⟩) rfl ?_
    rw [commands]
    exact List.sublist_cons_self _ _
  · cases acted

/-- Steps that leave the streams alone. -/
theorem GpuOrder.same (order : GpuOrder db batch gpu) (uuid : after.uuid = gpu.uuid)
    (pending : after.pending = gpu.pending) (worker : after.worker = gpu.worker)
    (queued : after.queued = gpu.queued) (late : after.late = gpu.late)
    (assignment : after.assignment = gpu.assignment) : GpuOrder db batch after := by
  refine order.works (works_of_sublist uuid late assignment ?_ ?_ ?_)
  · intro event member
    exact .inl (pending ▸ member)
  · rw [Gpu.taken, worker, queued, Gpu.taken]
  · rw [Gpu.outlook, pending, worker, queued, Gpu.outlook]

/-- More events in the batch, which end nothing that is still to start. -/
theorem GpuOrder.append (order : GpuOrder db batch gpu) {added : List WorkerEvent}
    (own : Ordered (Ended db) (marks batch ++ marks added))
    (apart : ∀ id, .ends id ∈ marks added → .starts id ∉ gpu.outlook)
    (lateApart : ∀ id, .ends id ∈ marks added → ∀ events ∈ gpu.late, .starts id ∉ marks events) :
    GpuOrder db (batch ++ added) gpu where
  outlook := by
    rw [marks_append]
    exact order.outlook.insert own apart
  late events member := by
    rw [marks_append]
    exact (order.late events member).insert own fun id ends => lateApart id ends events member
  distinct := order.distinct
  pending := order.pending
  lateOwn := order.lateOwn
  leased := order.leased
  lateLeased := order.lateLeased
  apart := order.apart
  lateApart := order.lateApart

theorem names_of_outlook {mark : Mark ShardId} (member : mark ∈ gpu.outlook) : mark.key ∈ gpu.names :=
  List.mem_append_left _ (List.mem_append_left _ (List.mem_map_of_mem member))

theorem mem_marks_cons {mark : Mark ShardId} (marked : event.mark? = some mark) (rest : List WorkerEvent) :
    mark ∈ marks (event :: rest) := by
  rw [marks_cons, marked]
  exact List.mem_append_left _ (List.mem_singleton.mpr rfl)

theorem marks_subset {rest : List WorkerEvent} {mark : Mark ShardId} (member : mark ∈ marks rest) :
    mark ∈ marks (event :: rest) := by
  rw [marks_cons]
  exact List.mem_append_right _ member

/-- The handle may lose its assignment. -/
theorem GpuOrder.polled (order : GpuOrder db batch gpu) (event : WorkerEvent) :
    GpuOrder db batch (gpu.polled event) := by
  have names : ∀ id ∈ (gpu.polled event).names, id ∈ gpu.names := by
    intro id member
    rcases List.mem_append.mp member with inside | assigned
    · exact List.mem_append_left _ inside
    · apply List.mem_append_right
      simp only [Gpu.polled] at assigned
      split at assigned
      · cases assigned
      · exact assigned
  refine ⟨order.outlook, order.late, order.distinct, order.pending, order.lateOwn, ?_, order.lateLeased, ?_,
    order.lateApart⟩
  · exact fun id member => order.leased id (names id member)
  · exact fun events member mark marked named => order.apart events member mark marked (names _ named)

/-- The next event of the present worker moves to the batch. -/
theorem GpuOrder.deliver (order : GpuOrder db batch gpu) {rest : List WorkerEvent}
    (pending : gpu.pending = event :: rest) :
    GpuOrder db (batch ++ [event]) { gpu with pending := rest } := by
  have outlook : gpu.outlook = event.mark?.toList ++ ({ gpu with pending := rest } : Gpu).outlook := by
    simp only [Gpu.outlook, pending, marks_cons, List.append_assoc]
    rfl
  have fewer : ({ gpu with pending := rest } : Gpu).outlook.Sublist gpu.outlook := by
    rw [outlook]
    exact List.sublist_append_right _ _
  have names : ∀ id ∈ ({ gpu with pending := rest } : Gpu).names, id ∈ gpu.names := by
    intro id member
    rcases List.mem_append.mp member with inside | assigned
    · rcases List.mem_append.mp inside with written | taken
      · obtain ⟨mark, marked, rfl⟩ := List.mem_map.mp written
        exact names_of_outlook (fewer.subset marked)
      · exact List.mem_append_left _ (List.mem_append_right _ taken)
    · exact List.mem_append_right _ assigned
  have whole := order.outlook
  rw [outlook, ← marks_single, ← List.append_assoc, ← marks_append] at whole
  refine ⟨whole, ?_, order.distinct, ?_, order.lateOwn, ?_, order.lateLeased, ?_, order.lateApart⟩
  · intro events member
    rw [marks_append]
    refine (order.late events member).insert ?_ ?_
    · rw [← marks_append]
      exact whole.sublist (List.sublist_append_left _ _)
    · intro id ends starts
      have spoken : Mark.key (.ends id) ∈ gpu.names := by
        apply names_of_outlook
        rw [outlook, ← marks_single]
        exact List.mem_append_left _ ends
      exact order.apart events member _ starts spoken
  · exact fun other member => order.pending other (by rw [pending]; exact List.mem_cons_of_mem _ member)
  · exact fun id member => order.leased id (names id member)
  · exact fun events member mark marked named => order.apart events member mark marked (names _ named)

/-- The next event of a dead worker moves to the batch. -/
theorem GpuOrder.deliver_late (order : GpuOrder db batch gpu) {index : Nat} {rest : List WorkerEvent}
    (stream : gpu.late[index]? = some (event :: rest)) :
    GpuOrder db (batch ++ [event]) { gpu with late := gpu.late.set index rest } := by
  have member : event :: rest ∈ gpu.late := List.mem_of_getElem? stream
  have whole := order.late _ member
  rw [marks_cons, ← marks_single, ← List.append_assoc, ← marks_append] at whole
  have own : Ordered (Ended db) (marks batch ++ marks [event]) := by
    rw [← marks_append]
    exact whole.sublist (List.sublist_append_left _ _)
  have first : ∀ mark ∈ marks [event], mark ∈ marks (event :: rest) := by
    intro mark marked
    rw [marks_cons, ← marks_single]
    exact List.mem_append_left _ marked
  have streams (i : Nat) {events : List WorkerEvent} (found : (gpu.late.set index rest)[i]? = some events) :
      ∃ before, gpu.late[i]? = some before ∧ ∀ mark ∈ marks events, mark ∈ marks before := by
    rw [List.getElem?_set] at found
    split at found
    · rename_i same
      split at found
      · cases found
        rw [← same]
        exact ⟨_, stream, fun mark marked => marks_subset marked⟩
      · cases found
    · exact ⟨events, found, fun mark marked => marked⟩
  refine ⟨?_, ?_, order.distinct, order.pending, ?_, order.leased, ?_, ?_, ?_⟩
  · rw [marks_append]
    refine order.outlook.insert own ?_
    intro id ends starts
    have spoken : id ∈ gpu.names := names_of_outlook starts
    exact order.apart _ member _ (first _ ends) spoken
  · intro events present
    obtain ⟨i, found⟩ := List.mem_iff_getElem?.mp present
    rw [List.getElem?_set] at found
    split at found
    · split at found
      · cases found
        exact whole
      · cases found
    · rename_i other
      rw [marks_append]
      refine (order.late events (List.mem_of_getElem? found)).insert own ?_
      intro id ends starts
      exact order.lateApart index i _ _ stream found other _ (first _ ends) _ starts rfl
  · intro events present other inside
    rcases List.mem_or_eq_of_mem_set present with old | rfl
    · exact order.lateOwn events old other inside
    · exact order.lateOwn _ member other (List.mem_cons_of_mem _ inside)
  · intro events present mark marked
    obtain ⟨i, found⟩ := List.mem_iff_getElem?.mp present
    obtain ⟨before, old, kept⟩ := streams i found
    exact order.lateLeased before (List.mem_of_getElem? old) mark (kept mark marked)
  · intro events present mark marked
    obtain ⟨i, found⟩ := List.mem_iff_getElem?.mp present
    obtain ⟨before, old, kept⟩ := streams i found
    exact order.apart before (List.mem_of_getElem? old) mark (kept mark marked)
  · intro i j left right leftFound rightFound different mark marked other otherMarked
    obtain ⟨leftBefore, leftOld, leftKept⟩ := streams i leftFound
    obtain ⟨rightBefore, rightOld, rightKept⟩ := streams j rightFound
    exact order.lateApart i j _ _ leftOld rightOld different mark (leftKept mark marked) other
      (rightKept other otherMarked)

theorem GpuOrder.respawn (order : GpuOrder db batch gpu) (pid : Nat) :
    GpuOrder db batch (gpu.respawn pid) := by
  have written : ∀ mark ∈ marks gpu.pending, mark.key ∈ gpu.names := by
    intro mark marked
    exact names_of_outlook (List.mem_append_left _ (List.mem_append_left _ marked))
  have spoken : (gpu.respawn pid).names = [] := rfl
  have streams (i : Nat) {events : List WorkerEvent} (found : (gpu.late ++ [gpu.pending])[i]? = some events) :
      gpu.late[i]? = some events ∨ i = gpu.late.length ∧ events = gpu.pending := by
    rw [List.getElem?_append] at found
    split at found
    · exact .inl found
    · rename_i beyond
      obtain ⟨last, same⟩ := List.getElem?_eq_some_iff.mp found
      rw [List.length_singleton] at last
      right
      have position : i - gpu.late.length = 0 := by omega
      simp only [position, List.getElem_singleton] at same
      exact ⟨by omega, same.symm⟩
  refine ⟨?_, ?_, List.nodup_nil, by simp [Gpu.respawn], ?_, ?_, ?_, ?_, ?_⟩
  · have first := order.outlook.sublist (List.sublist_append_left _ _)
    simpa [Gpu.outlook, Gpu.respawn, WorkerState.owed, Gpu.queued] using first
  · intro events member
    rcases List.mem_append.mp member with old | new
    · exact order.late events old
    · rw [List.mem_singleton.mp new]
      refine order.outlook.sublist (List.Sublist.append_left ?_ _)
      rw [Gpu.outlook, List.append_assoc]
      exact List.sublist_append_left _ _
  · intro events member event inside
    rcases List.mem_append.mp member with old | new
    · exact order.lateOwn events old event inside
    · rw [List.mem_singleton.mp new] at inside
      exact order.pending event inside
  · rw [spoken]
    simp
  · intro events member mark marked
    rcases List.mem_append.mp member with old | new
    · exact order.lateLeased events old mark marked
    · rw [List.mem_singleton.mp new] at marked
      exact order.leased _ (written mark marked)
  · rw [spoken]
    simp
  · intro i j left right leftFound rightFound different mark marked other otherMarked same
    rcases streams i leftFound with leftOld | ⟨leftLast, rfl⟩
    · rcases streams j rightFound with rightOld | ⟨-, rfl⟩
      · exact order.lateApart i j _ _ leftOld rightOld different mark marked other otherMarked same
      · apply order.apart left (List.mem_of_getElem? leftOld) mark marked
        rw [same]
        exact written other otherMarked
    · rcases streams j rightFound with rightOld | ⟨rightLast, -⟩
      · apply order.apart right (List.mem_of_getElem? rightOld) other otherMarked
        rw [← same]
        exact written mark marked
      · exact different (leftLast.trans rightLast.symm)

end TronForge.Generator
