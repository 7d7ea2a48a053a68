import TronForge.Generator.Worker

/-! The batches of one assignment follow one another in its range, and fill it when the
assignment is exhausted. -/

namespace TronForge.Generator

open Library

variable {process : WorkerProcess} {assignment : WorkAssignment}

/-- The range that an assignment leases. -/
def WorkAssignment.range (assignment : WorkAssignment) : Interval := ⟨assignment.rangeStart, assignment.rangeCount⟩

/-- The shard was reported exhausted. -/
def Execution.Exhausts (execution : Execution) : Prop :=
  ∃ event ∈ execution.events, event.eventType = .exhausted

/-- The batches go on from what was processed, and to the end of the range if it is exhausted. -/
def Execution.TilesFrom (execution : Execution) (assignment : WorkAssignment) (processed : Nat) : Prop :=
  ∃ stop, Tiles (assignment.rangeStart + processed) execution.batches stop ∧ stop ≤ assignment.range.next ∧
    (execution.Exhausts → stop = assignment.range.next)

theorem batchCount_le (processed adaptiveBatchSize chainCount : Nat) :
    batchCount assignment processed adaptiveBatchSize chainCount ≤ assignment.rangeCount - processed := by
  have least := Nat.min_le_right (min adaptiveBatchSize maximumNativeBatch) (assignment.rangeCount - processed)
  simp only [batchCount]
  split
  · exact (Nat.sub_le _ _).trans least
  · exact least

/-- An execution without a batch. -/
theorem Execution.tilesFrom_nil {processed : Nat} (inside : processed ≤ assignment.rangeCount)
    {events : List WorkerEvent} {ending : Ending}
    (finished : (⟨[], events, ending⟩ : Execution).Exhausts → assignment.rangeCount ≤ processed) :
    (⟨[], events, ending⟩ : Execution).TilesFrom assignment processed := by
  refine ⟨_, rfl, Nat.add_le_add_left inside _, ?_⟩
  intro exhausts
  have full := finished exhausts
  exact congrArg (assignment.rangeStart + ·) (inside.antisymm full)

/-- An execution that ends with a batch and does not exhaust the range. -/
theorem Execution.tilesFrom_last {processed count : Nat} (fits : count ≤ assignment.rangeCount - processed)
    (inside : processed ≤ assignment.rangeCount) {events : List WorkerEvent} {ending : Ending}
    (open_ : ¬ (⟨[⟨assignment.rangeStart + processed, count⟩], events, ending⟩ : Execution).Exhausts) :
    (⟨[⟨assignment.rangeStart + processed, count⟩], events, ending⟩ : Execution).TilesFrom assignment processed := by
  refine ⟨_, ⟨rfl, rfl⟩, ?_, fun exhausts => absurd exhausts open_⟩
  simp only [Interval.next, WorkAssignment.range]
  omega

theorem not_exhausts_nil {batches : List Interval} {ending : Ending} :
    ¬ (⟨batches, [], ending⟩ : Execution).Exhausts :=
  fun ⟨_, member, _⟩ => by cases member

theorem exhausts_single {batches : List Interval} {event : WorkerEvent} {ending : Ending}
    (exhausts : (⟨batches, [event], ending⟩ : Execution).Exhausts) : event.eventType = .exhausted := by
  obtain ⟨other, member, type⟩ := exhausts
  rw [List.mem_singleton.mp member] at type
  exact type

/-- The loop submits batches that tile what it processes. -/
theorem cudaLoop_tilesFrom (turns : List Turn) {processed : Nat} (inside : processed ≤ assignment.rangeCount)
    (adaptiveRate : Nat) : (cudaLoop process assignment turns processed adaptiveRate).TilesFrom assignment processed := by
  induction turns generalizing processed adaptiveRate with
  | nil =>
    rw [cudaLoop]
    split
    · rename_i full
      exact Execution.tilesFrom_nil inside fun _ => full
    · exact Execution.tilesFrom_nil inside fun exhausts => absurd exhausts not_exhausts_nil
  | cons turn rest hypothesis =>
    rw [cudaLoop]
    split
    · rename_i full
      exact Execution.tilesFrom_nil inside fun _ => full
    · split
      · exact Execution.tilesFrom_nil inside fun exhausts => absurd exhausts not_exhausts_nil
      · split
        · exact Execution.tilesFrom_nil inside fun exhausts => (by cases exhausts_single exhausts)
        · simp only
          have fits := @batchCount_le assignment processed (max 1 (turn.scaled adaptiveRate)) turn.chainCount
          generalize batchCount assignment processed (max 1 (turn.scaled adaptiveRate)) turn.chainCount = count at fits
          split
          · exact Execution.tilesFrom_last fits inside not_exhausts_nil
          · exact Execution.tilesFrom_last fits inside fun exhausts => (by cases exhausts_single exhausts)
          · exact Execution.tilesFrom_last fits inside not_exhausts_nil
          · exact Execution.tilesFrom_last fits inside fun exhausts => (by cases exhausts_single exhausts)
          · obtain ⟨stop, tiles, within, finished⟩ := hypothesis (by omega : processed + count ≤ assignment.rangeCount)
              (max 1 ((adaptiveRate * 3 + max 1 turn.observedRate) / 4))
            refine ⟨stop, ⟨rfl, ?_⟩, within, ?_⟩
            · rw [Interval.next, Nat.add_assoc]
              exact tiles
            · rintro ⟨event, member, type⟩
              rcases List.mem_cons.mp member with rfl | later
              · cases type
              · exact finished ⟨event, later, type⟩

/-- The batches of an assignment tile a front part of its range, or all of it when the
assignment is exhausted. -/
theorem executeCudaAssignment_tiles (process : WorkerProcess) (assignment : WorkAssignment) (turns : List Turn) :
    ∃ stop, Tiles assignment.rangeStart (executeCudaAssignment process assignment turns).batches stop ∧
      stop ≤ assignment.range.next ∧
      ((executeCudaAssignment process assignment turns).Exhausts → stop = assignment.range.next) := by
  obtain ⟨stop, tiles, within, finished⟩ := @cudaLoop_tilesFrom process assignment turns 0 (Nat.zero_le _)
    (max 1 assignment.simulatedRate)
  have batches : (executeCudaAssignment process assignment turns).batches =
      (cudaLoop process assignment turns 0 (max 1 assignment.simulatedRate)).batches := by
    rw [executeCudaAssignment, WorkerProcess.finish]
    split <;> rfl
  refine ⟨stop, by rw [batches]; exact tiles, within, ?_⟩
  rintro ⟨event, member, type⟩
  apply finished
  rw [executeCudaAssignment, WorkerProcess.finish] at member
  split at member
  · rcases List.mem_append.mp member with inside | added
    · rcases List.mem_cons.mp inside with rfl | later
      · cases type
      · exact ⟨event, later, type⟩
    · rw [List.mem_singleton.mp added] at type
      cases type
  · rcases List.mem_cons.mp member with rfl | later
    · cases type
    · exact ⟨event, later, type⟩

/-- A simulated assignment submits nothing. -/
theorem simulatedLoop_batches (turns : List (List Control)) (processed : Nat) :
    (simulatedLoop process assignment turns processed).batches = [] := by
  induction turns generalizing processed with
  | nil =>
    rw [simulatedLoop]
    split <;> rfl
  | cons commands rest hypothesis =>
    rw [simulatedLoop]
    split
    · rfl
    · split
      · rfl
      · split
        · rfl
        · exact hypothesis _

theorem executeSimulatedAssignment_batches (process : WorkerProcess) (assignment : WorkAssignment)
    (turns : List (List Control)) : (executeSimulatedAssignment process assignment turns).batches = [] := by
  rw [executeSimulatedAssignment, WorkerProcess.finish]
  split
  · exact simulatedLoop_batches turns 0
  · exact simulatedLoop_batches turns 0

end TronForge.Generator
