import TronForge.Generator.IdleGpus

/-! The runs of the scheduler: as long as no worker is respawned while its GPU
still holds a place among the idle ones, an idle GPU has nothing assigned, no
dispatch finds a GPU assigned, and a claim finds every worker free. -/

namespace TronForge.Generator

open Library

variable {verification : Verification} {settings : Settings} {scheduler next : Scheduler}
  {batch : List WorkerEvent} {gpu : Gpu} {event : WorkerEvent}

/-- Events of other GPUs in the batch do not matter. -/
theorem GpuSound.rebatch (sound : GpuSound batch gpu) {other : List WorkerEvent}
    (fewer : readiesOf gpu.uuid other ≤ readiesOf gpu.uuid batch)
    (same : (settled gpu.uuid other gpu.idle).toNat ≤ (settled gpu.uuid batch gpu.idle).toNat) :
    GpuSound other gpu where
  places := by
    have before := sound.places
    unfold Generator.places at before ⊢
    omega
  own := sound.own
  late := sound.late
  held assigned := by
    have held := sound.held assigned
    have polled := held.polled
    exact ⟨held.busy, by omega, held.closes, held.reported, held.booted⟩
  free place := by
    apply sound.free
    rcases place with idle | ready
    · exact .inl idle
    · exact .inr (by omega)

/-- Handling events that bring no `READY` for the GPU takes no place. -/
theorem GpuSound.append (sound : GpuSound batch gpu) {events : List WorkerEvent}
    (quiet : readiesOf gpu.uuid events = 0) : GpuSound (batch ++ events) gpu := by
  apply sound.rebatch
  · rw [readiesOf_append, quiet, Nat.add_zero]
  · rw [settled_append]
    exact settled_le quiet _

/-- A polled event of the present worker moves from the queue to the batch. -/
theorem GpuSound.deliver (sound : GpuSound batch gpu) {rest : List WorkerEvent}
    (pending : gpu.pending = event :: rest) :
    GpuSound (batch ++ [event]) ({ gpu with pending := rest }.polled event) := by
  have own : event.gpuUuid = gpu.uuid := sound.own event (by simp [pending])
  have counted : readiesOf gpu.uuid (batch ++ [event]) =
      readiesOf gpu.uuid batch + event.ready.toNat := by
    rw [readiesOf_append, readiesOf_cons_own own, readiesOf_nil, Nat.zero_add]
  have before := sound.places
  simp only [Generator.places, pending, readies_cons] at before
  refine ⟨?_, ?_, sound.late, ?_, ?_⟩
  · have bounded : (settled gpu.uuid (batch ++ [event]) gpu.idle).toNat ≤
        (settled gpu.uuid batch gpu.idle).toNat + event.ready.toNat := by
      cases ready : event.ready with
      | true =>
        have most := Bool.toNat_le (settled gpu.uuid (batch ++ [event]) gpu.idle)
        simp only [Bool.toNat_true]
        omega
      | false =>
        rw [settled_append]
        exact settled_le (by rw [readiesOf_cons_own own, ready]; rfl) _
    simp only [Generator.places, Gpu.polled, Gpu.uuid] at bounded before ⊢
    omega
  · intro other member
    exact sound.own other (by simp [pending, show other ∈ rest from member])
  · intro assigned
    simp only [Gpu.polled, ne_eq, ite_eq_left_iff, Bool.not_eq_true, Classical.not_imp] at assigned
    obtain ⟨notClosing, assigned⟩ := assigned
    have held := sound.held assigned
    have closes := held.closes
    rw [pending] at closes
    rcases closes with closing | ⟨quiet, remaining⟩
    · simp [WorkerEvent.closing, notClosing] at closing
    · refine ⟨held.busy, ?_, remaining, ?_, held.booted⟩
      · have polled := held.polled
        have same : readiesOf gpu.uuid (batch ++ [event]) = 0 := by simp [counted, quiet, polled]
        exact same
      · intro reported
        obtain ⟨other, member, closing⟩ := held.reported reported
        rw [pending] at member
        rcases List.mem_cons.mp member with rfl | old
        · simp [WorkerEvent.closing, notClosing] at closing
        · exact ⟨other, old, closing⟩
  · intro place
    show gpu.holds = false
    cases ready : event.ready with
    | true =>
      simp only [ready, Bool.toNat_true] at before
      exact holds_of_owes (by omega) (by omega)
    | false =>
      apply sound.free
      rcases place with idle | more
      · exact .inl idle
      · right
        have same : readiesOf gpu.uuid (batch ++ [event]) ≠ 0 := more
        simpa [counted, ready] using same

/-- A polled event of a dead worker is no `READY`; at most it clears the handle. -/
theorem GpuSound.deliver_late (sound : GpuSound batch gpu) {index : Nat} {rest : List WorkerEvent}
    (stream : gpu.late[index]? = some (event :: rest)) :
    GpuSound (batch ++ [event]) ({ gpu with late := gpu.late.set index rest }.polled event) := by
  have member : event :: rest ∈ gpu.late := List.mem_of_getElem? stream
  obtain ⟨own, quiet⟩ := sound.late _ member event (by simp)
  have kept : GpuSound (batch ++ [event]) gpu :=
    sound.append (by rw [readiesOf_cons_own own, quiet]; rfl)
  refine ⟨kept.places, kept.own, ?_, ?_, kept.free⟩
  · intro events present other inside
    rcases List.mem_or_eq_of_mem_set present with old | rfl
    · exact sound.late events old other inside
    · exact sound.late _ member other (List.mem_cons_of_mem _ inside)
  · intro assigned
    simp only [Gpu.polled, ne_eq, ite_eq_left_iff, Bool.not_eq_true, Classical.not_imp] at assigned
    have held := kept.held assigned.2
    exact ⟨held.busy, held.polled, held.closes, held.reported, held.booted⟩

/-- The place of a handled `READY` becomes the GPU's place among the idle ones. -/
theorem GpuSound.handle (sound : GpuSound (event :: batch) gpu) (own : event.gpuUuid = gpu.uuid) :
    GpuSound batch (gpu.handled event.eventType) := by
  have fewer : readiesOf gpu.uuid batch ≤ readiesOf gpu.uuid (event :: batch) := by
    rw [readiesOf_cons_own own]
    omega
  have notReady : readiesOf gpu.uuid (event :: batch) = 0 → event.eventType ≠ .ready := by
    intro quiet ready
    rw [readiesOf_cons_own own] at quiet
    simp [WorkerEvent.ready, ready] at quiet
  have idle : (gpu.handled event.eventType).idle = true →
      gpu.idle = true ∨ readiesOf gpu.uuid (event :: batch) ≠ 0 := by
    intro idle
    by_contra neither
    obtain ⟨busy, quiet⟩ := not_or.mp neither
    have type := notReady (not_not.mp quiet)
    cases same : event.eventType <;> simp_all [Gpu.handled, Gpu.idleAfter]
  refine ⟨?_, sound.own, sound.late, ?_, ?_⟩
  · have before := sound.places
    simp only [Generator.places, settled, own, ↓reduceIte] at before
    exact before
  · intro assigned
    have held := sound.held assigned
    refine ⟨?_, ?_, held.closes, held.reported, held.booted⟩
    · by_contra busy
      rcases idle (by simpa using busy) with before | ready
      · simp [held.busy] at before
      · exact ready held.polled
    · have polled := held.polled
      show readiesOf gpu.uuid batch = 0
      omega
  · intro place
    apply sound.free
    rcases place with nowIdle | ready
    · exact idle nowIdle
    · right
      have more : readiesOf gpu.uuid batch ≠ 0 := ready
      omega

/-- No place is left to a worker that is about to be respawned: once the polled
events are handled its GPU is not idle, and no `READY` event of it is left in
the queue. -/
structure Placeless (batch : List WorkerEvent) (gpu : Gpu) : Prop where
  idle : settled gpu.uuid batch gpu.idle = false
  pending : readies gpu.pending = 0

instance (batch : List WorkerEvent) (gpu : Gpu) : Decidable (Placeless batch gpu) :=
  decidable_of_iff (settled gpu.uuid batch gpu.idle = false ∧ readies gpu.pending = 0)
    ⟨fun ⟨idle, pending⟩ => ⟨idle, pending⟩, fun placeless => ⟨placeless.idle, placeless.pending⟩⟩

theorem GpuSound.respawn (sound : GpuSound batch gpu) (placeless : Placeless batch gpu) (pid : Nat) :
    GpuSound batch (gpu.respawn pid) where
  places := by
    have idle := placeless.idle
    have launched : WorkerState.launched.owes = 1 := rfl
    simp only [Generator.places, Gpu.respawn, Gpu.uuid, launched, readies_nil, List.countP_nil] at idle ⊢
    simp [idle]
  own := by simp [Gpu.respawn]
  late events member event inside := by
    rcases List.mem_append.mp member with old | new
    · exact sound.late events old event inside
    · rw [List.mem_singleton.mp new] at inside
      refine ⟨sound.own event inside, ?_⟩
      have none := List.countP_eq_zero.mp placeless.pending event inside
      simpa using none
  held assigned := absurd rfl assigned
  free _ := rfl

theorem GpuSound.cancel (sound : GpuSound batch gpu) (jobId : JobId) :
    GpuSound batch (gpu.cancel jobId) ∧ SameGpu gpu (gpu.cancel jobId) := by
  unfold Gpu.cancel
  split
  · split
    · refine ⟨⟨?_, sound.own, sound.late, ?_, ?_⟩, rfl, rfl⟩
      · have before := sound.places
        simp only [Generator.places, Gpu.uuid, List.countP_append] at before ⊢
        simpa [WorkerCommand.assigns] using before
      · intro assigned
        have held := sound.held assigned
        exact ⟨held.busy, held.polled, held.closes, held.reported, held.booted⟩
      · intro place
        have before := sound.free place
        simpa [Gpu.holds, WorkerCommand.assigns] using before
    · exact ⟨sound, rfl, rfl⟩
  · exact ⟨sound, rfl, rfl⟩

/-- An idle GPU is free: nothing is assigned to it, queued for it or running. -/
theorem GpuSound.unassigned (sound : GpuSound batch gpu) (idle : gpu.idle = true) :
    gpu.assignment = none := by
  by_contra assigned
  simp [(sound.held assigned).busy] at idle

theorem GpuSound.dispatched (sound : GpuSound [] gpu) (idle : gpu.idle = true)
    (assignment : WorkAssignment) : GpuSound [] (gpu.dispatched assignment) := by
  have before := sound.places
  have one : [WorkerCommand.assign assignment].countP WorkerCommand.assigns = 1 := rfl
  simp only [Generator.places, settled, idle, Bool.toNat_true] at before
  refine ⟨?_, sound.own, sound.late, ?_, ?_⟩
  · simp only [Generator.places, Gpu.dispatched, settled, Bool.toNat_false, List.countP_append, one]
    omega
  · intro _
    have pending : readies gpu.pending = 0 := by omega
    refine ⟨rfl, rfl, closesFirst_of_readies pending, ?_, ?_⟩
    · intro reported
      have same : gpu.worker = .reported := reported
      have owes : gpu.worker.owes = 1 := by simp [same, WorkerState.owes]
      omega
    · show gpu.worker.booting = false
      have owes : gpu.worker.owes = 0 := by omega
      cases worker : gpu.worker <;> simp [worker, WorkerState.owes, WorkerState.booting] at owes ⊢
  · intro place
    rcases place with nowIdle | ready
    · cases nowIdle
    · exact absurd rfl ready

/-- Past the polled events. -/
def Stage.pastEvents : Stage → Bool
  | .draining | .claiming | .filling _ => true
  | .polling | .handling | .raised _ => false

structure SchedulerSound (scheduler : Scheduler) : Prop where
  unique : Table.Unique Gpu.uuid scheduler.gpus
  gpus : ∀ gpu ∈ scheduler.gpus, GpuSound scheduler.batch gpu
  filling : ∀ remaining, scheduler.stage = .filling remaining → remaining.Nodup ∧
    ∀ uuid ∈ remaining, ∃ gpu ∈ scheduler.gpus, gpu.uuid = uuid ∧ gpu.idle = true
  handled : scheduler.stage.pastEvents = true → scheduler.batch = []
  dispatches : ∀ uuid, scheduler.stage ≠ .raised (.alreadyAssigned uuid)

/-- A change of the GPUs, each under its own name. -/
theorem SchedulerSound.map (sound : SchedulerSound scheduler) {change : Gpu → Gpu}
    (gpus : next.gpus = scheduler.gpus.map change)
    (kept : ∀ gpu ∈ scheduler.gpus, GpuSound next.batch (change gpu) ∧ (change gpu).uuid = gpu.uuid)
    (filling : ∀ remaining, next.stage = .filling remaining → remaining.Nodup ∧
      ∀ uuid ∈ remaining, ∃ gpu ∈ scheduler.gpus, gpu.uuid = uuid ∧ (change gpu).idle = true)
    (handled : next.stage.pastEvents = true → next.batch = [])
    (dispatches : ∀ uuid, next.stage ≠ .raised (.alreadyAssigned uuid)) : SchedulerSound next where
  unique := by
    rw [gpus]
    exact sound.unique.map fun gpu member => (kept gpu member).2
  gpus := by
    rw [gpus]
    intro gpu member
    obtain ⟨before, present, rfl⟩ := List.mem_map.mp member
    exact (kept before present).1
  filling remaining stage := by
    obtain ⟨distinct, idle⟩ := filling remaining stage
    refine ⟨distinct, ?_⟩
    intro uuid member
    obtain ⟨gpu, present, own, still⟩ := idle uuid member
    rw [gpus]
    exact ⟨change gpu, List.mem_map.mpr ⟨gpu, present, rfl⟩, (kept gpu present).2.trans own, still⟩
  handled := handled
  dispatches := dispatches

/-- Steps that touch neither the GPUs nor the batch. -/
theorem SchedulerSound.stage (sound : SchedulerSound scheduler) (gpus : next.gpus = scheduler.gpus)
    (batch : next.batch = scheduler.batch)
    (filling : ∀ remaining, next.stage = .filling remaining → remaining.Nodup ∧
      ∀ uuid ∈ remaining, ∃ gpu ∈ scheduler.gpus, gpu.uuid = uuid ∧ gpu.idle = true)
    (handled : next.stage.pastEvents = true → scheduler.batch = [])
    (dispatches : ∀ uuid, next.stage ≠ .raised (.alreadyAssigned uuid)) : SchedulerSound next :=
  have same : next.gpus = scheduler.gpus.map fun gpu => gpu := by simp [gpus]
  sound.map same (fun gpu member => ⟨batch ▸ sound.gpus gpu member, rfl⟩) filling
    (fun past => batch.trans (handled past)) dispatches

/-- The steps between two looks at the GPUs. -/
theorem SchedulerSound.proceed (sound : SchedulerSound scheduler) (gpus : next.gpus = scheduler.gpus)
    (batch : next.batch = scheduler.batch) (emptied : scheduler.batch = [])
    (stage : next.stage = .polling ∨ next.stage = .draining ∨ next.stage = .claiming) :
    SchedulerSound next := by
  refine sound.stage gpus batch ?_ (fun _ => emptied) ?_
  · intro remaining filling
    rcases stage with same | same | same <;> simp [same] at filling
  · intro uuid raised
    rcases stage with same | same | same <;> simp [same] at raised

/-- The loop ends with an error other than the one of `dispatch`. -/
theorem SchedulerSound.raise (sound : SchedulerSound scheduler) (gpus : next.gpus = scheduler.gpus)
    (batch : next.batch = scheduler.batch) {error : SchedulerError} (stage : next.stage = .raised error)
    (other : ∀ uuid, error ≠ .alreadyAssigned uuid) : SchedulerSound next := by
  refine sound.stage gpus batch ?_ ?_ ?_
  · intro remaining filling
    simp [stage] at filling
  · intro past
    simp [stage, Stage.pastEvents] at past
  · intro uuid raised
    rw [stage, Stage.raised.injEq] at raised
    exact other uuid raised

theorem SchedulerSound.eq_of_gpu? (sound : SchedulerSound scheduler) {uuid : GpuUuid} {other : Gpu}
    (found : scheduler.gpu? uuid = some gpu) (member : other ∈ scheduler.gpus)
    (own : other.uuid = uuid) : other = gpu :=
  Table.eq_of_key sound.unique member (Table.mem_of_lookup found)
    (own.trans (Table.key_of_lookup found).symm)

/-- One worker step. -/
theorem SchedulerSound.onGpu (sound : SchedulerSound scheduler) {uuid : GpuUuid}
    {act : Gpu → Option Gpu} (acted : scheduler.onGpu uuid act = some next)
    (keeps : ∀ gpu after, GpuSound scheduler.batch gpu → act gpu = some after →
      GpuSound scheduler.batch after ∧ SameGpu gpu after) : SchedulerSound next := by
  obtain ⟨gpu, found, rest⟩ := Option.bind_eq_some_iff.mp acted
  obtain ⟨after, moved, same⟩ := Option.bind_eq_some_iff.mp rest
  cases same
  have kept : ∀ other ∈ scheduler.gpus, other.uuid = uuid →
      GpuSound scheduler.batch after ∧ SameGpu other after := by
    intro other member own
    obtain rfl := sound.eq_of_gpu? found member own
    exact keeps other after (sound.gpus other member) moved
  refine sound.map rfl ?_ ?_ sound.handled sound.dispatches
  · intro other member
    by_cases own : other.uuid = uuid
    · simp only [own, ↓reduceIte]
      obtain ⟨safe, same⟩ := kept other member own
      exact ⟨safe, same.uuid.trans own⟩
    · simp only [own, ↓reduceIte]
      exact ⟨sound.gpus other member, trivial⟩
  · intro remaining stage
    obtain ⟨distinct, idle⟩ := sound.filling remaining stage
    refine ⟨distinct, ?_⟩
    intro name member
    obtain ⟨other, present, own, still⟩ := idle name member
    refine ⟨other, present, own, ?_⟩
    by_cases acting : other.uuid = uuid
    · simp only [acting, ↓reduceIte]
      exact (kept other present acting).2.idle.trans still
    · simp only [acting, ↓reduceIte]
      exact still

theorem SchedulerSound.deliver (sound : SchedulerSound scheduler) {uuid : GpuUuid}
    {stream : Option Nat} (delivered : scheduler.deliver uuid stream = some next) :
    SchedulerSound next := by
  unfold Scheduler.deliver at delivered
  split at delivered
  · rename_i polling
    obtain ⟨gpu, found, rest⟩ := Option.bind_eq_some_iff.mp delivered
    obtain ⟨⟨event, after⟩, taken, same⟩ := Option.bind_eq_some_iff.mp rest
    cases same
    have member := Table.mem_of_lookup found
    have safe := sound.gpus gpu member
    have name : gpu.uuid = uuid := Table.key_of_lookup found
    have moved : GpuSound (scheduler.batch ++ [event]) (after.polled event) ∧
        event.gpuUuid = gpu.uuid ∧ (after.polled event).uuid = gpu.uuid := by
      unfold Gpu.next? at taken
      split at taken
      · split at taken
        · cases taken
        · rename_i pending
          cases taken
          exact ⟨safe.deliver pending, safe.own event (by simp [pending]), rfl⟩
      · split at taken
        · rename_i late
          cases taken
          exact ⟨safe.deliver_late late, (safe.late _ (List.mem_of_getElem? late) event (by simp)).1, rfl⟩
        · cases taken
    obtain ⟨moved, own, same⟩ := moved
    have stage : ∀ remaining, scheduler.stage ≠ .filling remaining := by simp [polling]
    have polls : scheduler.stage.pastEvents ≠ true := by simp [polling, Stage.pastEvents]
    refine sound.map rfl ?_ (fun remaining filling => absurd filling (stage remaining))
      (fun past => absurd past polls) sound.dispatches
    intro other present
    by_cases acting : other.uuid = uuid
    · simp only [acting, ↓reduceIte]
      exact ⟨moved, same.trans name⟩
    · simp only [acting, ↓reduceIte]
      have others : event.gpuUuid ≠ other.uuid := fun same => acting (same.symm.trans (own.trans name))
      refine ⟨(sound.gpus other present).append ?_, trivial⟩
      rw [readiesOf_cons_other others, readiesOf_nil]
  · cases delivered

/-- The places of the dead workers are gone when they are respawned. -/
def RestartsPlaceless (scheduler : Scheduler) : SchedulerAction → Prop
  | .loop _ => scheduler.stage = .polling →
      ∀ gpu ∈ scheduler.gpus, gpu.dead = true → Placeless scheduler.batch gpu
  | _ => True

instance (scheduler : Scheduler) : (action : SchedulerAction) →
    Decidable (RestartsPlaceless scheduler action)
  | .loop _ => inferInstanceAs (Decidable (scheduler.stage = .polling → ∀ gpu ∈ scheduler.gpus, _))
  | .announce _ | .take _ | .report .. | .fail .. | .die .. | .deliver .. | .request _ =>
    inferInstanceAs (Decidable True)

/-- The events made up for dead workers are failures. -/
theorem readiesOf_synthetic (uuid : GpuUuid) (gpus : List Gpu) :
    readiesOf uuid (Scheduler.synthetic gpus) = 0 := by
  apply List.countP_eq_zero.mpr
  intro event member
  obtain ⟨gpu, -, made⟩ := List.mem_filterMap.mp member
  split at made
  · obtain ⟨assignment, -, rfl⟩ := Option.map_eq_some_iff.mp made
    simp [WorkerEvent.ready, Gpu.interrupted]
  · cases made

theorem SchedulerSound.restart (sound : SchedulerSound scheduler) (tick : Tick)
    (placeless : ∀ gpu ∈ scheduler.gpus, gpu.dead = true → Placeless scheduler.batch gpu) :
    SchedulerSound (scheduler.restartDeadWorkers tick) := by
  refine sound.map rfl ?_ ?_ ?_ ?_
  · intro gpu member
    have safe := sound.gpus gpu member
    by_cases dead : gpu.dead = true
    · simp only [dead, ↓reduceIte]
      have respawned := safe.respawn (placeless gpu member dead) (tick.pid gpu.uuid)
      exact ⟨respawned.append (readiesOf_synthetic _ _), rfl⟩
    · simp only [dead]
      exact ⟨safe.append (readiesOf_synthetic _ _), rfl⟩
  · intro remaining filling
    cases filling
  · intro past
    cases past
  · intro uuid raised
    cases raised

theorem SchedulerSound.handleEvent (sound : SchedulerSound scheduler) (tick : Tick)
    {rest : List WorkerEvent} (handling : scheduler.stage = .handling)
    (batch : scheduler.batch = event :: rest) :
    SchedulerSound (scheduler.handleEvent verification tick event rest) := by
  unfold Scheduler.handleEvent
  split
  · exact sound.raise rfl rfl rfl (by simp)
  · refine sound.map rfl ?_ ?_ ?_ ?_
    · intro gpu member
      have safe : GpuSound (event :: rest) gpu := batch ▸ sound.gpus gpu member
      by_cases own : gpu.uuid = event.gpuUuid
      · simp only [own, ↓reduceIte]
        exact ⟨safe.handle own.symm, own⟩
      · simp only [own, ↓reduceIte]
        have other : event.gpuUuid ≠ gpu.uuid := fun same => own same.symm
        have same : settled gpu.uuid (event :: rest) gpu.idle = settled gpu.uuid rest gpu.idle := by
          simp only [settled, other, ↓reduceIte]
        exact ⟨safe.rebatch (readiesOf_cons_other other rest).ge (by rw [same]), trivial⟩
    · intro remaining filling
      have stage : scheduler.stage = .filling remaining := filling
      simp [handling] at stage
    · intro past
      have same : scheduler.stage.pastEvents = true := past
      simp [handling, Stage.pastEvents] at same
    · exact sound.dispatches

theorem SchedulerSound.checkActiveJob (sound : SchedulerSound scheduler) (tick : Tick)
    (emptied : scheduler.batch = []) : SchedulerSound (scheduler.checkActiveJob tick) := by
  unfold Scheduler.checkActiveJob
  split
  · exact sound.proceed rfl rfl emptied (.inr (.inl rfl))
  · rename_i jobId _
    simp only
    split
    · refine sound.map rfl ?_ (fun _ filling => by cases filling) (fun _ => emptied)
        (fun _ raised => by cases raised)
      intro gpu member
      obtain ⟨safe, same⟩ := (sound.gpus gpu member).cancel jobId
      exact ⟨safe, same.uuid⟩
    · exact sound.proceed rfl rfl emptied (.inr (.inl rfl))

theorem SchedulerSound.startFilling (sound : SchedulerSound scheduler)
    (emptied : scheduler.batch = []) : SchedulerSound scheduler.startFilling := by
  refine sound.stage rfl rfl ?_ (fun _ => emptied) ?_
  · intro remaining filling
    unfold Scheduler.startFilling at filling
    simp only at filling
    split at filling
    · cases filling
    · cases filling
      have perm : List.Perm scheduler.sortedIdle
          ((scheduler.gpus.filter (·.idle)).map Gpu.uuid) := List.perm_insertionSort _ _
      refine ⟨?_, ?_⟩
      · rw [perm.nodup_iff]
        exact (List.Sublist.map _ List.filter_sublist).nodup sound.unique
      · intro uuid member
        obtain ⟨gpu, present, own⟩ := List.mem_map.mp (perm.mem_iff.mp member)
        obtain ⟨inside, idle⟩ := List.mem_filter.mp present
        exact ⟨gpu, inside, own, idle⟩
  · intro uuid raised
    unfold Scheduler.startFilling at raised
    simp only at raised
    split at raised <;> cases raised

theorem SchedulerSound.claimIfReady (sound : SchedulerSound scheduler) (tick : Tick)
    (claiming : scheduler.stage = .claiming) : SchedulerSound (scheduler.claimIfReady settings tick) := by
  have emptied : scheduler.batch = [] := sound.handled (by rw [claiming]; rfl)
  unfold Scheduler.claimIfReady
  split
  · cases claimNextJob (scheduler.gpus.map (·.info.benchmarkRate)).sum settings.jobTimeoutSeconds
        tick.now tick.draw tick.locked scheduler.db with
    | mk claimed db =>
      have committed : SchedulerSound { scheduler with db, activeJobId := claimed } :=
        sound.proceed rfl rfl emptied (.inr (.inr claiming))
      exact committed.startFilling emptied
  · exact sound.startFilling emptied

theorem SchedulerSound.dispatch (sound : SchedulerSound scheduler) {uuid : GpuUuid}
    {rest : List GpuUuid} (assignment : WorkAssignment)
    (filling : scheduler.stage = .filling (uuid :: rest)) :
    SchedulerSound (scheduler.dispatch uuid assignment rest) := by
  obtain ⟨distinct, idle⟩ := sound.filling _ filling
  have apart := List.nodup_cons.mp distinct
  have emptied : scheduler.batch = [] := sound.handled (by rw [filling]; rfl)
  unfold Scheduler.dispatch
  split
  · exact sound.raise rfl rfl rfl (by simp)
  · rename_i gpu found
    obtain ⟨other, member, own, isIdle⟩ := idle uuid (by simp)
    obtain rfl := sound.eq_of_gpu? found member own
    have safe := sound.gpus other member
    rw [emptied] at safe
    split
    · rename_i assigned
      exact absurd (safe.unassigned isIdle) assigned
    · split
      · exact sound.raise rfl rfl rfl (by simp)
      · refine sound.map rfl ?_ ?_ (fun _ => emptied) (fun _ raised => by cases raised)
        · intro gpu present
          by_cases acting : gpu.uuid = uuid
          · simp only [acting, ↓reduceIte]
            obtain rfl := sound.eq_of_gpu? found present acting
            show GpuSound scheduler.batch _ ∧ _
            rw [emptied]
            exact ⟨safe.dispatched isIdle assignment, acting⟩
          · simp only [acting, ↓reduceIte]
            exact ⟨sound.gpus gpu present, trivial⟩
        · intro remaining filling
          cases filling
          refine ⟨apart.2, ?_⟩
          intro name inside
          obtain ⟨gpu, present, named, still⟩ := idle name (List.mem_cons_of_mem _ inside)
          have acting : gpu.uuid ≠ uuid := by
            rintro rfl
            exact apart.1 (named ▸ inside)
          exact ⟨gpu, present, named, by simpa only [acting, ↓reduceIte] using still⟩

theorem SchedulerSound.fillIdleGpu (sound : SchedulerSound scheduler) {tick : Tick} {uuid : GpuUuid}
    {rest : List GpuUuid} (filling : scheduler.stage = .filling (uuid :: rest))
    (filled : scheduler.fillIdleGpu settings tick uuid rest = some next) : SchedulerSound next := by
  obtain ⟨distinct, idle⟩ := sound.filling _ filling
  have skips (after : Scheduler) (gpus : after.gpus = scheduler.gpus) (batch : after.batch = scheduler.batch)
      (stage : after.stage = .filling rest) : SchedulerSound after := by
    have emptied : scheduler.batch = [] := sound.handled (by rw [filling]; rfl)
    refine sound.stage gpus batch ?_ (fun _ => emptied) (by simp [stage])
    intro remaining same
    rw [stage] at same
    cases same
    exact ⟨(List.nodup_cons.mp distinct).2, fun name inside => idle name (List.mem_cons_of_mem _ inside)⟩
  unfold Scheduler.fillIdleGpu at filled
  split at filled
  · split at filled
    · cases filled
    · split at filled
      · cases filled
        exact skips _ rfl rfl rfl
      · cases filled
        exact skips _ rfl rfl rfl
      · rename_i db _
        cases filled
        have committed : SchedulerSound { scheduler with db } :=
          sound.stage rfl rfl sound.filling sound.handled sound.dispatches
        exact committed.dispatch _ filling
      · cases filled
        exact sound.raise rfl rfl rfl (by simp)
  · cases filled

theorem SchedulerSound.loop (sound : SchedulerSound scheduler) {tick : Tick}
    (placeless : RestartsPlaceless scheduler (.loop tick))
    (stepped : scheduler.loop verification settings tick = some next) : SchedulerSound next := by
  unfold Scheduler.loop at stepped
  split at stepped
  · rename_i polling
    cases stepped
    exact sound.restart tick (placeless polling)
  · rename_i handling
    split at stepped
    · rename_i batch
      cases stepped
      exact sound.handleEvent tick handling batch
    · rename_i emptied
      cases stepped
      exact sound.checkActiveJob tick emptied
  · rename_i draining
    cases stepped
    exact sound.proceed rfl rfl (sound.handled (by rw [draining]; rfl)) (.inr (.inr rfl))
  · rename_i claiming
    cases stepped
    exact sound.claimIfReady tick claiming
  · rename_i filled
    cases stepped
    exact sound.proceed rfl rfl (sound.handled (by rw [filled]; rfl)) (.inl rfl)
  · rename_i filling
    exact sound.fillIdleGpu filling stepped
  · cases stepped

theorem SchedulerSound.step (sound : SchedulerSound scheduler) {action : SchedulerAction}
    (placeless : RestartsPlaceless scheduler action)
    (stepped : schedulerStep verification settings action scheduler = some next) :
    SchedulerSound next := by
  cases action with
  | announce uuid => exact sound.onGpu stepped fun _ _ safe acted => safe.announce acted
  | take uuid => exact sound.onGpu stepped fun _ _ safe acted => safe.take acted
  | report uuid event => exact sound.onGpu stepped fun _ _ safe acted => safe.report acted
  | fail uuid error => exact sound.onGpu stepped fun _ _ safe acted => safe.fail acted
  | die uuid flushed =>
    refine sound.onGpu stepped ?_
    intro gpu after safe acted
    cases acted
    exact safe.die flushed
  | deliver uuid stream => exact sound.deliver stepped
  | loop tick => exact sound.loop placeless stepped
  | request operation =>
    simp only [schedulerStep] at stepped
    split at stepped
    · obtain ⟨db, -, rfl⟩ := Option.map_eq_some_iff.mp stepped
      exact sound.stage rfl rfl sound.filling sound.handled sound.dispatches
    · cases stepped

theorem launched_sound {devices : List GpuInfo} (distinct : (devices.map (·.uuid)).Nodup)
    (pid : GpuUuid → Nat) (now : Time) (db : Database) :
    SchedulerSound (launched devices pid now db) where
  unique := by
    simp only [Table.Unique, launched, List.map_map]
    exact distinct
  gpus gpu member := by
    obtain ⟨info, -, rfl⟩ := List.mem_map.mp member
    have one : settled info.uuid [] false = false := rfl
    refine ⟨?_, by simp, by simp, fun assigned => absurd rfl assigned, fun _ => rfl⟩
    simp [places, launched, WorkerState.owes, Gpu.uuid, one]
  filling remaining filling := by cases filling
  handled past := by cases past
  dispatches uuid raised := by cases raised

/-- In every run in which no worker is respawned while its GPU holds a place
among the idle ones: a GPU in `idle_gpus` has no assignment in its handle and a
worker with none queued or running; no dispatch finds its GPU assigned; and a
claim finds no worker with an assignment. -/
theorem idle_gpus_free {devices : List GpuInfo} (distinct : (devices.map (·.uuid)).Nodup)
    {pid : GpuUuid → Nat} {now : Time} {db : Database}
    (run : (scheduling verification settings).Run RestartsPlaceless (launched devices pid now db)
      scheduler) :
    (∀ gpu ∈ scheduler.gpus, gpu.idle = true → gpu.assignment = none ∧ gpu.holds = false) ∧
    (∀ uuid, scheduler.stage ≠ .raised (.alreadyAssigned uuid)) ∧
    (scheduler.stage = .claiming → scheduler.claims = true →
      ∀ gpu ∈ scheduler.gpus, gpu.holds = false) := by
  have sound : SchedulerSound scheduler :=
    Machine.Run.invariant run (fun _ _ _ sound placeless stepped => sound.step placeless stepped)
      (launched_sound distinct pid now db)
  refine ⟨?_, sound.dispatches, ?_⟩
  · intro gpu member idle
    have safe := sound.gpus gpu member
    exact ⟨safe.unassigned idle, safe.free (.inl idle)⟩
  · intro _ claims gpu member
    have idle : gpu.idle = true := by
      simp only [Scheduler.claims, Scheduler.allIdle, Bool.and_eq_true, List.all_eq_true] at claims
      exact claims.2 gpu member
    exact (sound.gpus gpu member).free (.inl idle)

def sampleSettings : Settings where
  jobTimeoutSeconds := 86400
  shardSeconds := 10
  kernelBatchMs := 500

/-- One step of the loop at a time; the time also names the next shard. -/
def turn (now : Time) : SchedulerAction :=
  .loop { now, shardId := now, leaseToken := now, draw := sampleDraw }

/-- A worker boots and its three events are polled, restarted around, handled
one by one, up to the check of the active job. -/
def booted (now : Time) : List SchedulerAction :=
  List.replicate 3 (.announce "GPU-0") ++ List.replicate 3 (.deliver "GPU-0" none) ++
    List.replicate 4 (turn now)

/-- The GPU is ready, a job is created and claimed, and its first shard is
dispatched. -/
def dispatchedRun : List SchedulerAction :=
  booted 20 ++ [turn 21, turn 22, .request (.create sampleJob), turn 23, turn 24]

def launchedOne : Scheduler := launched [sampleGpu] (fun _ => 7) 10 {}

def played (actions : List SchedulerAction) : Scheduler :=
  ((scheduling refusing sampleSettings).replay Machine.anyAction actions launchedOne).getD launchedOne

theorem idle_gpus_free_dispatched : (played dispatchedRun).stage ≠ .raised (.alreadyAssigned "GPU-0") := by
  have distinct : ([sampleGpu].map (·.uuid)).Nodup := by decide
  have run : (scheduling refusing sampleSettings).Run RestartsPlaceless launchedOne
      (played dispatchedRun) := Machine.replay_run dispatchedRun rfl
  exact (idle_gpus_free distinct run).2.1 "GPU-0"

/-- The worker of the idle GPU dies; its successor is dispatched to before it
has booted, and its `READY` event makes the busy GPU idle again. -/
def diedIdle : List SchedulerAction :=
  booted 20 ++ [turn 21, turn 22, turn 23, .die "GPU-0" 0, turn 24, turn 25, turn 26,
    .request (.create sampleJob), turn 27, turn 28, turn 29] ++ booted 30

/-- The scheduler goes on with the assigned GPU among the idle ones. -/
def dispatchedTwice : List SchedulerAction := diedIdle ++ [turn 31, turn 32, turn 33, turn 34]

/-- After the death of an idle worker, a GPU in `idle_gpus` has an assignment,
and the next dispatch finds it assigned. -/
theorem idle_gpu_assigned :
    ((scheduling refusing sampleSettings).Run Machine.anyAction launchedOne (played diedIdle) ∧
      ∃ gpu ∈ (played diedIdle).gpus, gpu.idle = true ∧ gpu.assignment ≠ none) ∧
    ((scheduling refusing sampleSettings).Run Machine.anyAction launchedOne (played dispatchedTwice) ∧
      (played dispatchedTwice).stage = .raised (.alreadyAssigned "GPU-0")) := by
  refine ⟨⟨Machine.replay_run diedIdle rfl, _, .head _, rfl, ?_⟩, Machine.replay_run dispatchedTwice rfl, rfl⟩
  intro unassigned
  cases unassigned

end TronForge.Generator
