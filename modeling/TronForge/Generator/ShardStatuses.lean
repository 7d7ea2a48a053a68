import TronForge.Generator.Scheduler

/-! What an event does to the shard that it names: `STARTED` makes it run, the last
event of an assignment completes it, and no other event touches its status. -/

namespace TronForge.Generator

open Library

variable {verification : Verification} {db after : Database} {event : WorkerEvent}

/-- A shard row after an event for it. -/
structure ShardAfter (event : WorkerEvent) (row next : GenerationShard) : Prop where
  id : next.id = row.id
  gpuUuid : next.gpuUuid = row.gpuUuid
  started : event.eventType = .started → next.status = .running ∧ next.completedAt = row.completedAt
  closed : Gpu.closing event.eventType = true → next.status.active = false ∧ next.completedAt.isSome = true
  other : event.eventType ≠ .started → Gpu.closing event.eventType = false →
    next.status = row.status ∧ next.completedAt = row.completedAt

/-- An event changes at most the row of the shard it names, under its present lease. -/
def ShardsAfter (event : WorkerEvent) (db after : Database) : Prop :=
  after.shards = db.shards ∨
  ∃ shard change, db.matchingShard event = some shard ∧ (∀ row, ShardAfter event row (change row)) ∧
    ∀ id, after.shard? id = if id = shard.id then (db.shard? id).map change else db.shard? id

theorem shard?_modifyShard {shardId : ShardId} {change : GenerationShard → GenerationShard}
    (kept : ∀ row, (change row).id = row.id) (id : ShardId) :
    (db.modifyShard shardId change).shard? id =
      if id = shardId then (db.shard? id).map change else db.shard? id :=
  Table.lookup_modify kept id

theorem shardsAfter_modifyShard {shard : GenerationShard} (named : db.matchingShard event = some shard)
    {change : GenerationShard → GenerationShard} (changes : ∀ row, ShardAfter event row (change row)) :
    ShardsAfter event db (db.modifyShard shard.id change) :=
  .inr ⟨shard, change, named, changes, shard?_modifyShard fun row => (changes row).id⟩

/-- The row of one shard is changed so; the others stay. -/
def ChangesShard (shardId : ShardId) (change : GenerationShard → GenerationShard) (db after : Database) : Prop :=
  ∀ id, after.shard? id = if id = shardId then (db.shard? id).map change else db.shard? id

/-- A change that leaves a completed shard completed. -/
structure KeepsClosed (change : GenerationShard → GenerationShard) : Prop where
  id : ∀ row, (change row).id = row.id
  gpuUuid : ∀ row, (change row).gpuUuid = row.gpuUuid
  completedAt : ∀ row, (change row).completedAt = row.completedAt
  closed : ∀ row, row.status.active = false → (change row).status.active = false

/-- What is written to the shard of a counted winner event. -/
theorem recordWinner_shard {entropy : Nat} {now : Time} {shard : GenerationShard} {address offset : String}
    (recorded : recordWinner verification entropy now event shard address offset db = some after) :
    ∃ change, KeepsClosed change ∧ ChangesShard shard.id change db after := by
  have unchanged (same : after.shards = db.shards) :
      ∃ change, KeepsClosed change ∧ ChangesShard shard.id change db after := by
    refine ⟨id, ⟨fun _ => rfl, fun _ => rfl, fun _ => rfl, fun _ closed => closed⟩, fun asked => ?_⟩
    rw [Option.map_id, Database.shard?, same]
    split <;> rfl
  have rejected {message : String} (made : rejectWinner event shard message now db = after) :
      ∃ change, KeepsClosed change ∧ ChangesShard shard.id change db after := by
    subst made
    refine ⟨fun row => { row with status := .failed, failureMessage := some message },
      ⟨fun _ => rfl, fun _ => rfl, fun _ => rfl, fun _ _ => rfl⟩, ?_⟩
    exact shard?_modifyShard fun _ => rfl
  unfold recordWinner at recorded
  split at recorded
  · cases recorded
  · cases recorded
    refine ⟨fun row => { row with status := .canceled },
      ⟨fun _ => rfl, fun _ => rfl, fun _ => rfl, fun _ _ => rfl⟩, ?_⟩
    exact shard?_modifyShard fun _ => rfl
  · exact rejected (Option.some.inj recorded)
  · exact rejected (Option.some.inj recorded)
  · cases recorded
    exact unchanged rfl
  · split at recorded
    · cases recorded
      exact unchanged rfl
    · cases recorded

/-- A row that the last event of an assignment completes. -/
theorem shardAfter_closed {row next : GenerationShard} (closing : Gpu.closing event.eventType = true)
    (id : next.id = row.id) (gpuUuid : next.gpuUuid = row.gpuUuid) (closed : next.status.active = false)
    (completed : next.completedAt.isSome = true) : ShardAfter event row next where
  id := id
  gpuUuid := gpuUuid
  started other := by
    rw [other] at closing
    cases closing
  closed _ := ⟨closed, completed⟩
  other _ open_ := by
    rw [closing] at open_
    cases open_

/-- A row that neither starts nor ends. -/
theorem shardAfter_other {row next : GenerationShard} (notStarted : event.eventType ≠ .started)
    (open_ : Gpu.closing event.eventType = false) (id : next.id = row.id) (gpuUuid : next.gpuUuid = row.gpuUuid)
    (status : next.status = row.status) (completed : next.completedAt = row.completedAt) :
    ShardAfter event row next where
  id := id
  gpuUuid := gpuUuid
  started other := absurd other notStarted
  closed closing := by
    rw [open_] at closing
    cases closing
  other _ _ := ⟨status, completed⟩

theorem shardAfter_started {row next : GenerationShard} (started : event.eventType = .started)
    (id : next.id = row.id) (gpuUuid : next.gpuUuid = row.gpuUuid) (running : next.status = .running)
    (completed : next.completedAt = row.completedAt) : ShardAfter event row next where
  id := id
  gpuUuid := gpuUuid
  started _ := ⟨running, completed⟩
  closed closing := by
    rw [started] at closing
    cases closing
  other notStarted := absurd started notStarted

theorem recordFound_shards {entropy : Nat} {now : Time} {shard : GenerationShard}
    (found : event.eventType = .found) (named : db.matchingShard event = some shard)
    (recorded : recordFound verification entropy now event shard db = some after) :
    ShardsAfter event db after := by
  obtain ⟨change, keeps, changed⟩ : ∃ change, KeepsClosed change ∧
      ChangesShard shard.id change (countFound now event shard db) after := by
    unfold recordFound at recorded
    split at recorded
    · exact recordWinner_shard recorded
    · cases recorded
      refine ⟨fun row => { row with
          status := .failed
          failureMessage := some "CUDA winner event is missing its address or offset." },
        ⟨fun _ => rfl, fun _ => rfl, fun _ => rfl, fun _ _ => rfl⟩, ?_⟩
      exact shard?_modifyShard fun _ => rfl
  let counted (row : GenerationShard) : GenerationShard := { row with
    status := .found, processed := processedAfter event row, completedAt := some now }
  refine .inr ⟨shard, change ∘ counted, named, ?_, ?_⟩
  · intro row
    have closing : Gpu.closing event.eventType = true := by rw [found]; rfl
    refine shardAfter_closed closing (keeps.id _) (keeps.gpuUuid _) (keeps.closed _ rfl) ?_
    rw [Function.comp_apply, keeps.completedAt]
    rfl
  · intro id
    have kept : ∀ row, (counted row).id = row.id := fun _ => rfl
    have first : (countFound now event shard db).shard? id =
        if id = shard.id then (db.shard? id).map counted else db.shard? id := shard?_modifyShard kept id
    rw [changed id, first]
    split
    · rw [Option.map_map]
    · rfl

theorem recordShard_shards {entropy : Nat} {now : Time} {shard : GenerationShard}
    (named : db.matchingShard event = some shard)
    (recorded : recordShard verification entropy now event shard db = some after) :
    ShardsAfter event db after := by
  cases kind : event.eventType with
  | found =>
    simp only [recordShard, kind] at recorded
    exact recordFound_shards kind named recorded
  | started =>
    simp only [recordShard, kind] at recorded
    cases recorded
    exact shardsAfter_modifyShard named fun row => shardAfter_started kind rfl rfl rfl rfl
  | progress =>
    simp only [recordShard, kind] at recorded
    cases recorded
    have changed : ShardsAfter event db (db.modifyShard shard.id fun row =>
        { row with processed := processedAfter event row }) :=
      shardsAfter_modifyShard named fun row =>
        shardAfter_other (by rw [kind]; simp) (by rw [kind]; rfl) rfl rfl rfl rfl
    exact changed
  | exhausted | canceled | failed =>
    simp only [recordShard, kind] at recorded
    cases recorded
    exact shardsAfter_modifyShard named fun row =>
      shardAfter_closed (by rw [kind]; rfl) rfl rfl rfl rfl
  | starting | selfTesting | ready | stopped =>
    simp only [recordShard, kind] at recorded
    cases recorded
    exact .inl rfl

theorem recordEvent_shards {entropy : Nat} {now : Time}
    (recorded : recordEvent verification entropy now event db = some after) : ShardsAfter event db after := by
  unfold recordEvent at recorded
  split at recorded
  · cases recorded
    exact .inl rfl
  · simp only at recorded
    split at recorded
    · cases recorded
      exact .inl rfl
    · rename_i shard named
      have changed : ShardsAfter event (db.modifyDevice event.gpuUuid (deviceAfter now event)) after :=
        recordShard_shards named recorded
      exact changed

/-- The shard is no longer assigned or running. -/
def Ended (db : Database) (id : ShardId) : Prop := ∃ row, db.shard? id = some row ∧ row.status.active = false

/-- A shard's completion time is set exactly if it has ended. -/
def Completed (db : Database) : Prop :=
  ∀ id row, db.shard? id = some row → (row.completedAt.isSome = true ↔ row.status.active = false)

/-- The shard was leased to that GPU. -/
def LeasedTo (db : Database) (id : ShardId) (uuid : GpuUuid) : Prop :=
  ∃ row, db.shard? id = some row ∧ row.gpuUuid = uuid

theorem matchingShard_found {shard : GenerationShard} (named : db.matchingShard event = some shard) :
    event.shardId = some shard.id ∧ db.shard? shard.id = some shard := by
  unfold Database.matchingShard at named
  split at named
  · rename_i shardId leaseToken asked leased
    obtain ⟨found, -⟩ := Option.filter_eq_some_iff.mp named
    have key : shard.id = shardId := Table.key_of_lookup found
    subst key
    exact ⟨asked, found⟩
  · cases named

/-- How a row looks after an event that names the shard or another one. -/
theorem ShardsAfter.row (changed : ShardsAfter event db after) (id : ShardId) :
    after.shard? id = db.shard? id ∨ event.shardId = some id ∧
      ∃ row next, db.shard? id = some row ∧ after.shard? id = some next ∧ ShardAfter event row next := by
  rcases changed with same | ⟨shard, change, named, changes, rows⟩
  · left
    rw [Database.shard?, same, Database.shard?]
  · rw [rows id]
    split
    · rename_i own
      right
      subst own
      obtain ⟨asked, found⟩ := matchingShard_found named
      exact ⟨asked, shard, change shard, found, by rw [found]; rfl, changes shard⟩
    · exact .inl rfl

/-- Only the last event of an assignment ends its shard. -/
theorem ShardsAfter.ended (changed : ShardsAfter event db after) {id : ShardId} (past : Ended after id) :
    Ended db id ∨ Gpu.closing event.eventType = true ∧ event.shardId = some id := by
  obtain ⟨next, found, closed⟩ := past
  rcases changed.row id with same | ⟨named, row, other, before, after, change⟩
  · exact .inl ⟨next, same.symm.trans found, closed⟩
  · rw [after] at found
    cases found
    cases closing : Gpu.closing event.eventType with
    | true => exact .inr ⟨rfl, named⟩
    | false =>
      left
      refine ⟨row, before, ?_⟩
      by_cases started : event.eventType = .started
      · rw [(change.started started).1] at closed
        cases closed
      · rw [← (change.other started closing).1]
        exact closed

/-- Only a `STARTED` event brings a shard back. -/
theorem ShardsAfter.keepsEnded (changed : ShardsAfter event db after) {id : ShardId} (past : Ended db id)
    (fresh : event.eventType = .started → event.shardId ≠ some id) : Ended after id := by
  obtain ⟨row, found, closed⟩ := past
  rcases changed.row id with same | ⟨named, other, next, before, after, change⟩
  · exact ⟨row, same.trans found, closed⟩
  · rw [found] at before
    cases before
    refine ⟨next, after, ?_⟩
    cases closing : Gpu.closing event.eventType with
    | true => exact (change.closed closing).1
    | false =>
      have notStarted : event.eventType ≠ .started := fun started => fresh started named
      rw [(change.other notStarted closing).1]
      exact closed

theorem ShardsAfter.leasedTo (changed : ShardsAfter event db after) {id : ShardId} {uuid : GpuUuid}
    (leased : LeasedTo db id uuid) : LeasedTo after id uuid := by
  obtain ⟨row, found, own⟩ := leased
  rcases changed.row id with same | ⟨-, other, next, before, after, change⟩
  · exact ⟨row, same.trans found, own⟩
  · rw [found] at before
    cases before
    exact ⟨next, after, change.gpuUuid.trans own⟩

theorem ShardsAfter.completed (changed : ShardsAfter event db after) (completed : Completed db)
    (fresh : event.eventType = .started → ∀ id, event.shardId = some id → ¬ Ended db id) : Completed after := by
  intro id next found
  rcases changed.row id with same | ⟨named, row, other, before, after, change⟩
  · exact completed id next (same.symm.trans found)
  · rw [after] at found
    cases found
    have iff := completed id row before
    by_cases started : event.eventType = .started
    · obtain ⟨running, kept⟩ := change.started started
      have open_ : row.status.active ≠ false := fun closed => fresh started id named ⟨row, before, closed⟩
      rw [running, kept, iff]
      exact ⟨fun closed => absurd closed open_, fun impossible => by cases impossible⟩
    · cases closing : Gpu.closing event.eventType with
      | true =>
        obtain ⟨closed, set⟩ := change.closed closing
        simp only [closed, set]
      | false =>
        obtain ⟨status, kept⟩ := change.other started closing
        rw [status, kept, iff]

end TronForge.Generator
