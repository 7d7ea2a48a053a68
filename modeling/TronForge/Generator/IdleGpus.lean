import TronForge.Generator.Scheduler

/-! Why a GPU in `idle_gpus` has nothing assigned. Between two dispatches a
worker earns its GPU one place among the idle ones: the place is owed while the
worker boots or works, then it travels as a `READY` event through the queue and
the polled batch, and it is spent by the next dispatch. Nothing may hold a
second place, so a respawned worker must not find one left by its predecessor. -/

namespace TronForge.Generator

open Library

variable {batch : List WorkerEvent} {gpu : Gpu} {event : WorkerEvent}

def WorkerEvent.ready (event : WorkerEvent) : Bool := decide (event.eventType = .ready)

def WorkerEvent.closing (event : WorkerEvent) : Bool := Gpu.closing event.eventType

/-- The `READY` events of a list, and those of one GPU. -/
def readies (events : List WorkerEvent) : Nat := events.countP WorkerEvent.ready

def readiesOf (uuid : GpuUuid) (events : List WorkerEvent) : Nat :=
  events.countP fun event => event.ready && decide (event.gpuUuid = uuid)

def WorkerState.booting : WorkerState → Bool
  | .launched | .starting | .selfTesting => true
  | _ => false

/-- Whether the worker still has a `READY` event to emit. -/
def WorkerState.owes : WorkerState → Nat
  | .launched | .starting | .selfTesting | .accepted _ | .running _ | .reported => 1
  | .waiting | .stopping | .exited => 0

def WorkerCommand.assigns : WorkerCommand → Bool
  | .assign _ => true
  | .cancelJob _ => false

/-- Whether a GPU is idle once a batch of events is handled. -/
def settled (uuid : GpuUuid) : List WorkerEvent → Bool → Bool
  | [], idle => idle
  | event :: rest, idle =>
    settled uuid rest (if event.gpuUuid = uuid then Gpu.idleAfter event.eventType idle else idle)

/-- Whether the worker of a GPU has an assignment queued or running. -/
def Gpu.holds (gpu : Gpu) : Bool :=
  (Gpu.working? gpu.worker).isSome || gpu.commands.any WorkerCommand.assigns

/-- The places among the idle GPUs that a GPU holds in any form. -/
def places (batch : List WorkerEvent) (gpu : Gpu) : Nat :=
  (settled gpu.uuid batch gpu.idle).toNat + readies gpu.pending + gpu.worker.owes +
    gpu.commands.countP WorkerCommand.assigns

/-- No `READY` event comes before a closing one. -/
def ClosesFirst : List WorkerEvent → Prop
  | [] => True
  | event :: rest => event.closing = true ∨ event.ready = false ∧ ClosesFirst rest

/-- While the handle holds an assignment, its closing event is still to be
polled, and no `READY` event is ahead of it. -/
structure Held (batch : List WorkerEvent) (gpu : Gpu) : Prop where
  busy : gpu.idle = false
  polled : readiesOf gpu.uuid batch = 0
  closes : ClosesFirst gpu.pending
  reported : gpu.worker = .reported → ∃ event ∈ gpu.pending, event.closing = true
  booted : gpu.worker.booting = false

structure GpuSound (batch : List WorkerEvent) (gpu : Gpu) : Prop where
  places : places batch gpu ≤ 1
  own : ∀ event ∈ gpu.pending, event.gpuUuid = gpu.uuid
  late : ∀ events ∈ gpu.late, ∀ event ∈ events, event.gpuUuid = gpu.uuid ∧ event.ready = false
  held : gpu.assignment ≠ none → Held batch gpu
  free : gpu.idle = true ∨ readiesOf gpu.uuid batch ≠ 0 → gpu.holds = false

theorem settled_append (uuid : GpuUuid) (left right : List WorkerEvent) (idle : Bool) :
    settled uuid (left ++ right) idle = settled uuid right (settled uuid left idle) := by
  induction left generalizing idle with
  | nil => rfl
  | cons event rest ih => exact ih _

/-- Without a `READY` event of the GPU, handling a batch does not make it idle. -/
theorem settled_le {uuid : GpuUuid} {events : List WorkerEvent} (quiet : readiesOf uuid events = 0)
    (idle : Bool) : (settled uuid events idle).toNat ≤ idle.toNat := by
  induction events generalizing idle with
  | nil => exact Nat.le_refl _
  | cons event rest ih =>
    have last := List.countP_eq_zero.mp quiet
    have remaining : readiesOf uuid rest = 0 :=
      List.countP_eq_zero.mpr fun other member => last other (List.mem_cons_of_mem _ member)
    refine (ih remaining _).trans ?_
    by_cases own : event.gpuUuid = uuid
    · have notReady : event.eventType ≠ .ready := by
        intro ready
        exact last event (by simp) (by simp [WorkerEvent.ready, ready, own])
      cases type : event.eventType <;> simp_all [Gpu.idleAfter]
    · simp [own]

/-- A worker that owes nothing, with no assignment queued, holds none. -/
theorem holds_of_owes {gpu : Gpu} (owes : gpu.worker.owes = 0)
    (commands : gpu.commands.countP WorkerCommand.assigns = 0) : gpu.holds = false := by
  have working : Gpu.working? gpu.worker = none := by
    cases worker : gpu.worker <;> simp [worker, WorkerState.owes, Gpu.working?] at owes ⊢
  have queued : gpu.commands.any WorkerCommand.assigns = false := by
    rw [List.any_eq_false]
    exact List.countP_eq_zero.mp commands
  simp [Gpu.holds, working, queued]

@[simp] theorem readies_nil : readies [] = 0 := rfl

@[simp] theorem readiesOf_nil (uuid : GpuUuid) : readiesOf uuid [] = 0 := rfl

theorem readies_append (left right : List WorkerEvent) :
    readies (left ++ right) = readies left + readies right :=
  List.countP_append

theorem readies_cons (event : WorkerEvent) (rest : List WorkerEvent) :
    readies (event :: rest) = readies rest + event.ready.toNat := by
  cases known : event.ready <;> simp [readies, known]

theorem readiesOf_append (uuid : GpuUuid) (left right : List WorkerEvent) :
    readiesOf uuid (left ++ right) = readiesOf uuid left + readiesOf uuid right :=
  List.countP_append

theorem readiesOf_cons_own {uuid : GpuUuid} (own : event.gpuUuid = uuid) (rest : List WorkerEvent) :
    readiesOf uuid (event :: rest) = readiesOf uuid rest + event.ready.toNat := by
  cases known : event.ready <;> simp [readiesOf, known, own]

theorem readiesOf_cons_other {uuid : GpuUuid} (other : event.gpuUuid ≠ uuid)
    (rest : List WorkerEvent) : readiesOf uuid (event :: rest) = readiesOf uuid rest := by
  simp [readiesOf, other]

theorem closesFirst_of_readies {events : List WorkerEvent} (none : readies events = 0) :
    ClosesFirst events := by
  induction events with
  | nil => trivial
  | cons event rest ih =>
    rw [readies_cons] at none
    have quiet : event.ready = false := by
      cases known : event.ready with
      | false => rfl
      | true => simp [known] at none
    exact .inr ⟨quiet, ih (by omega)⟩

theorem ClosesFirst.append {events : List WorkerEvent} (closes : ClosesFirst events)
    (last : event.ready = true → ∃ earlier ∈ events, earlier.closing = true) :
    ClosesFirst (events ++ [event]) := by
  induction events with
  | nil =>
    right
    refine ⟨?_, trivial⟩
    by_contra isReady
    obtain ⟨earlier, member, -⟩ := last (by simpa using isReady)
    simp at member
  | cons first rest ih =>
    rcases closes with closing | ⟨quiet, remaining⟩
    · exact .inl closing
    · by_cases closing : first.closing = true
      · exact .inl closing
      · refine .inr ⟨quiet, ih remaining ?_⟩
        intro isReady
        obtain ⟨earlier, member, closes⟩ := last isReady
        rcases List.mem_cons.mp member with rfl | old
        · exact absurd closes closing
        · exact ⟨earlier, old, closes⟩

theorem ClosesFirst.take {events : List WorkerEvent} (closes : ClosesFirst events) (count : Nat) :
    ClosesFirst (events.take count) := by
  induction events generalizing count with
  | nil => simpa using closes
  | cons first rest ih =>
    cases count with
    | zero => trivial
    | succ count =>
      rcases closes with closing | ⟨quiet, remaining⟩
      · exact .inl closing
      · exact .inr ⟨quiet, ih remaining count⟩

/-- An event of the worker: what it still owes covers the `READY` it emits, and
its last event for an assignment is a closing one. -/
theorem GpuSound.emit (sound : GpuSound batch gpu) {worker : WorkerState}
    (own : event.gpuUuid = gpu.uuid) (owes : worker.owes + event.ready.toNat ≤ gpu.worker.owes)
    (boots : worker.booting = true → gpu.worker.booting = true)
    (earned : event.ready = true → gpu.worker = .reported ∨ gpu.worker.booting = true)
    (reported : worker = .reported → event.closing = true)
    (works : (Gpu.working? worker).isSome = true → (Gpu.working? gpu.worker).isSome = true) :
    GpuSound batch { gpu with worker, pending := gpu.pending ++ [event] } where
  places := by
    have before := sound.places
    simp only [Generator.places, Gpu.uuid, readies_append, readies_cons, readies_nil] at before owes ⊢
    omega
  own other member := by
    rcases List.mem_append.mp member with old | new
    · exact sound.own other old
    · rw [List.mem_singleton.mp new]
      exact own
  late := sound.late
  held assigned := by
    have held := sound.held assigned
    refine ⟨held.busy, held.polled, ?_, ?_, ?_⟩
    · apply held.closes.append
      intro isReady
      rcases earned isReady with same | booting
      · exact held.reported same
      · simp [held.booted] at booting
    · intro same
      exact ⟨event, by simp, reported same⟩
    · cases known : worker.booting with
      | false => rfl
      | true => exact absurd (boots known) (by simp [held.booted])
  free place := by
    obtain ⟨idle, queued⟩ := Bool.or_eq_false_iff.mp (sound.free place)
    refine Bool.or_eq_false_iff.mpr ⟨?_, queued⟩
    cases known : (Gpu.working? worker).isSome with
    | false => rfl
    | true => exact absurd (works known) (by simp only [idle, Bool.false_eq_true, not_false_eq_true])

/-- The steps of a worker leave its GPU's name and its place among the idle. -/
structure SameGpu (gpu next : Gpu) : Prop where
  uuid : next.uuid = gpu.uuid
  idle : next.idle = gpu.idle

theorem GpuSound.announce (sound : GpuSound batch gpu) {next : Gpu} (announced : gpu.announce = some next) :
    GpuSound batch next ∧ SameGpu gpu next := by
  cases worker : gpu.worker with
  | waiting | accepted _ | running _ | exited => simp [Gpu.announce, worker] at announced
  | _ =>
    simp only [Gpu.announce, worker, Option.some.injEq] at announced
    subst announced
    refine ⟨sound.emit rfl ?_ ?_ ?_ ?_ ?_, rfl, rfl⟩
    all_goals simp [worker, WorkerState.owes, WorkerState.booting, WorkerEvent.ready, Gpu.working?]

theorem GpuSound.report (sound : GpuSound batch gpu) {next : Gpu}
    (reported : gpu.report event = some next) : GpuSound batch next ∧ SameGpu gpu next := by
  unfold Gpu.report at reported
  split at reported
  · cases reported
  · rename_i assignment working
    split at reported
    · rename_i about
      obtain ⟨worker, moved, rfl⟩ := Option.map_eq_some_iff.mp reported
      -- A worker inside an assignment emits no `READY` and closes it with its last event.
      have facts : gpu.worker.owes = 1 ∧ event.ready = false ∧ worker.owes = 1 ∧
          worker.booting = false ∧ (worker = .reported → event.closing = true) := by
        cases state : gpu.worker <;> simp only [state, Gpu.working?, reduceCtorEq] at working
        all_goals
          cases type : event.eventType <;>
            simp_all [Gpu.afterReport, Gpu.closing, WorkerEvent.ready, WorkerEvent.closing]
        all_goals
          subst moved
          simp [WorkerState.owes, WorkerState.booting]
      obtain ⟨owed, quiet, owes, booted, closing⟩ := facts
      refine ⟨sound.emit about.1 ?_ ?_ ?_ closing fun _ => by simp [working], rfl, rfl⟩
      · simp [owed, quiet, owes]
      · simp [booted]
      · simp [quiet]
    · cases reported

/-- Dropping a command keeps every place but the one it may carry. -/
theorem GpuSound.drop (sound : GpuSound batch gpu) {command : WorkerCommand}
    {rest : List WorkerCommand} (commands : gpu.commands = command :: rest) (worker : WorkerState)
    (owes : worker.owes ≤ gpu.worker.owes + command.assigns.toNat) (booted : worker.booting = false)
    (reported : worker = .reported → gpu.worker = .reported)
    (works : (Gpu.working? worker).isSome = true →
      (Gpu.working? gpu.worker).isSome = true ∨ command.assigns = true) :
    GpuSound batch { gpu with worker, commands := rest } where
  places := by
    have before := sound.places
    have counted : gpu.commands.countP WorkerCommand.assigns =
        rest.countP WorkerCommand.assigns + command.assigns.toNat := by
      rw [commands]
      cases known : command.assigns <;> simp [known]
    simp only [Generator.places, Gpu.uuid, counted] at before ⊢
    omega
  own := sound.own
  late := sound.late
  held assigned := by
    have held := sound.held assigned
    exact ⟨held.busy, held.polled, held.closes, fun same => held.reported (reported same), booted⟩
  free place := by
    obtain ⟨idle, queued⟩ := Bool.or_eq_false_iff.mp (sound.free place)
    rw [commands, List.any_cons, Bool.or_eq_false_iff] at queued
    refine Bool.or_eq_false_iff.mpr ⟨?_, queued.2⟩
    cases known : (Gpu.working? worker).isSome with
    | false => rfl
    | true =>
      rcases works known with old | assigns
      · exact absurd old (by simp only [idle, Bool.false_eq_true, not_false_eq_true])
      · exact absurd assigns (by simp only [queued.1, Bool.false_eq_true, not_false_eq_true])

theorem GpuSound.take (sound : GpuSound batch gpu) {next : Gpu} (taken : gpu.take = some next) :
    GpuSound batch next ∧ SameGpu gpu next := by
  unfold Gpu.take at taken
  split at taken
  · rename_i assignment rest worker commands
    cases taken
    have kept := sound.drop commands (.accepted assignment)
      (by simp [WorkerState.owes, WorkerCommand.assigns, worker]) rfl (by simp)
      fun _ => .inr rfl
    exact ⟨kept, rfl, rfl⟩
  · rename_i jobId rest worker commands
    cases taken
    have kept := sound.drop commands gpu.worker (by omega) (by simp [worker, WorkerState.booting])
      (fun same => same) fun works => .inl works
    exact ⟨kept, rfl, rfl⟩
  · rename_i assignment jobId rest worker commands
    cases taken
    have kept := sound.drop commands gpu.worker (by omega) (by simp [worker, WorkerState.booting])
      (fun same => same) fun works => .inl works
    exact ⟨kept, rfl, rfl⟩
  · rename_i assignment other rest worker commands
    cases taken
    have kept := sound.drop commands gpu.worker (by omega) (by simp [worker, WorkerState.booting])
      (fun same => same) fun works => .inl works
    refine ⟨kept.emit rfl ?_ ?_ ?_ ?_ ?_, rfl, rfl⟩
    all_goals simp [worker, WorkerState.owes, WorkerState.booting, WorkerEvent.ready,
      WorkerEvent.closing, Gpu.closing, Gpu.overlapping, Gpu.working?]
  · cases taken

theorem GpuSound.fail (sound : GpuSound batch gpu) {error : String} {next : Gpu}
    (failed : gpu.fail error = some next) : GpuSound batch next ∧ SameGpu gpu next := by
  unfold Gpu.fail at failed
  split at failed
  case h_4 =>
    cases failed
    refine ⟨sound.emit rfl ?_ ?_ ?_ ?_ ?_, rfl, rfl⟩
    all_goals simp [WorkerState.owes, WorkerState.booting, WorkerEvent.ready, Gpu.working?]
  all_goals cases failed

theorem GpuSound.die (sound : GpuSound batch gpu) (flushed : Nat) :
    GpuSound batch (gpu.die flushed) ∧ SameGpu gpu (gpu.die flushed) := by
  refine ⟨⟨?_, ?_, sound.late, ?_, ?_⟩, rfl, rfl⟩
  · have before := sound.places
    have fewer : readies (gpu.pending.take flushed) ≤ readies gpu.pending :=
      (List.take_sublist _ _).countP_le
    have nothing : WorkerState.exited.owes = 0 := rfl
    simp only [Generator.places, Gpu.die, Gpu.uuid, nothing] at before ⊢
    omega
  · intro event member
    exact sound.own event (List.mem_of_mem_take member)
  · intro assigned
    have held := sound.held assigned
    exact ⟨held.busy, held.polled, held.closes.take flushed, by simp [Gpu.die], rfl⟩
  · intro place
    have before := sound.free place
    simp only [Gpu.holds, Bool.or_eq_false_iff] at before
    simp [Gpu.holds, Gpu.die, Gpu.working?, before.2]

end TronForge.Generator
