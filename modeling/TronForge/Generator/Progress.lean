import TronForge.Generator.Batches
import TronForge.Generator.Fleet

/-! The stream of events of a worker: its counts go up, and what ends it counts nothing
that was not reported before. -/

namespace TronForge.Generator

open Library

/-- The events that count for the job. -/
def WorkerEventType.counts : WorkerEventType → Bool
  | .progress | .found => true
  | _ => false

/-- The events that only settle the shard. -/
def WorkerEventType.settles : WorkerEventType → Bool
  | .exhausted | .canceled => true
  | _ => false

/-- What was reported after one more event. -/
def reached (processed : Nat) (event : WorkerEvent) : Nat :=
  if event.eventType.counts then event.processedTotal.toNat else processed

/-- The event of an assignment fits what was reported before. -/
structure WorkAssignment.InTurn (assignment : WorkAssignment) (processed : Nat) (event : WorkerEvent) : Prop where
  gpuUuid : event.gpuUuid = assignment.gpuUuid
  shardId : event.shardId = some assignment.shardId
  leaseToken : event.leaseToken = some assignment.leaseToken
  counted : event.eventType.counts = true →
    processed ≤ event.processedTotal.toNat ∧ event.processedTotal.toNat ≤ assignment.rangeCount
  settled : event.eventType.settles = true → event.processedTotal.toNat ≤ processed

/-- Every event of a stream fits the events before it. -/
def WorkAssignment.CountsUp (assignment : WorkAssignment) : Nat → List WorkerEvent → Prop
  | _, [] => True
  | processed, event :: rest =>
    assignment.InTurn processed event ∧ assignment.CountsUp (reached processed event) rest

section
variable {assignment : WorkAssignment} {processed : Nat} {event : WorkerEvent} {events : List WorkerEvent}

theorem WorkAssignment.InTurn.le_reached (turn : assignment.InTurn processed event) :
    processed ≤ reached processed event := by
  unfold reached
  split
  · rename_i counts
    exact (turn.counted counts).1
  · exact le_rfl

theorem WorkAssignment.InTurn.reached_le (turn : assignment.InTurn processed event)
    (inside : processed ≤ assignment.rangeCount) : reached processed event ≤ assignment.rangeCount := by
  unfold reached
  split
  · rename_i counts
    exact (turn.counted counts).2
  · exact inside

/-- What counts or settles was reported then. -/
theorem WorkAssignment.InTurn.total_le (turn : assignment.InTurn processed event)
    (matters : event.eventType.counts = true ∨ event.eventType.settles = true) :
    event.processedTotal.toNat ≤ reached processed event := by
  rcases matters with counts | settles
  · rw [reached, if_pos counts]
  · exact (turn.settled settles).trans turn.le_reached

namespace WorkAssignment.CountsUp

theorem concat (up : assignment.CountsUp processed events)
    (last : assignment.InTurn (events.foldl reached processed) event) :
    assignment.CountsUp processed (events ++ [event]) := by
  induction events generalizing processed with
  | nil => exact ⟨last, trivial⟩
  | cons first rest hypothesis => exact ⟨up.1, hypothesis up.2 last⟩

/-- The event at an index fits what was reported up to it. -/
theorem inTurn (up : assignment.CountsUp processed events) {index : Nat} (found : events[index]? = some event) :
    assignment.InTurn ((events.take index).foldl reached processed) event := by
  induction events generalizing processed index with
  | nil => cases found
  | cons first rest hypothesis =>
    cases index with
    | zero =>
      cases found
      exact up.1
    | succ index => exact hypothesis up.2 found

theorem foldl_le (up : assignment.CountsUp processed events) (inside : processed ≤ assignment.rangeCount) :
    events.foldl reached processed ≤ assignment.rangeCount := by
  induction events generalizing processed with
  | nil => exact inside
  | cons first rest hypothesis => exact hypothesis up.2 (up.1.reached_le inside)

theorem take (up : assignment.CountsUp processed events) (count : Nat) :
    assignment.CountsUp processed (events.take count) := by
  induction events generalizing processed count with
  | nil =>
    rw [List.take_nil]
    exact up
  | cons first rest hypothesis =>
    cases count with
    | zero => trivial
    | succ count => exact ⟨up.1, hypothesis up.2 count⟩

theorem le_foldl (up : assignment.CountsUp processed events) : processed ≤ events.foldl reached processed := by
  induction events generalizing processed with
  | nil => exact le_rfl
  | cons first rest hypothesis => exact up.1.le_reached.trans (hypothesis up.2)

/-- What counts or settles is still reported later. -/
theorem total_le (up : assignment.CountsUp processed events) {index count : Nat} (found : events[index]? = some event)
    (earlier : index < count) (matters : event.eventType.counts = true ∨ event.eventType.settles = true) :
    event.processedTotal.toNat ≤ (events.take count).foldl reached processed := by
  induction events generalizing processed index count with
  | nil => cases found
  | cons first rest hypothesis =>
    obtain ⟨count, rfl⟩ : ∃ less, count = less + 1 := ⟨count - 1, by omega⟩
    cases index with
    | zero =>
      cases found
      exact (up.1.total_le matters).trans (up.2.take count).le_foldl
    | succ index => exact hypothesis up.2 found (Nat.lt_of_succ_lt_succ earlier)

end WorkAssignment.CountsUp

end

section Streams
variable {process : WorkerProcess} {assignment : WorkAssignment} {processed : Nat}

theorem report_settles (own : process.gpuUuid = assignment.gpuUuid) {eventType : WorkerEventType}
    (counts : eventType.counts = false) {total : Nat} (small : eventType.settles = true → total ≤ processed) :
    assignment.InTurn processed (process.report assignment eventType total) where
  gpuUuid := own
  shardId := rfl
  leaseToken := rfl
  counted impossible := by
    rw [WorkerProcess.report, counts] at impossible
    cases impossible
  settled settles := small settles

theorem report_counts (own : process.gpuUuid = assignment.gpuUuid) {eventType : WorkerEventType}
    (settles : eventType.settles = false) {count : Nat} (fits : processed + count ≤ assignment.rangeCount) :
    assignment.InTurn processed (process.report assignment eventType (processed + count)) where
  gpuUuid := own
  shardId := rfl
  leaseToken := rfl
  counted _ := ⟨Nat.le_add_right _ _, fits⟩
  settled impossible := by
    rw [WorkerProcess.report, settles] at impossible
    cases impossible

/-- What a report adds to its counters does not matter here. -/
theorem WorkAssignment.InTurn.adding {event : WorkerEvent} (turn : assignment.InTurn processed event) (delta rate : Int)
    (address offset : Option String) : assignment.InTurn processed
      { event with attemptsDelta := delta, observedRate := rate, address := address, offset := offset } :=
  ⟨turn.gpuUuid, turn.shardId, turn.leaseToken, turn.counted, turn.settled⟩

theorem countsUp_single {event : WorkerEvent} (turn : assignment.InTurn processed event) :
    assignment.CountsUp processed [event] :=
  ⟨turn, trivial⟩

theorem countsUp_settled (own : process.gpuUuid = assignment.gpuUuid) {eventType : WorkerEventType}
    (counts : eventType.counts = false) : assignment.CountsUp processed [process.report assignment eventType processed] :=
  countsUp_single (report_settles own counts fun _ => le_rfl)

/-- The events of the loop go on from what was processed. -/
theorem cudaLoop_countsUp (own : process.gpuUuid = assignment.gpuUuid) (turns : List Turn)
    (inside : processed ≤ assignment.rangeCount) (adaptiveRate : Nat) :
    assignment.CountsUp processed (cudaLoop process assignment turns processed adaptiveRate).events := by
  induction turns generalizing processed adaptiveRate with
  | nil =>
    rw [cudaLoop]
    split
    · exact countsUp_settled own rfl
    · trivial
  | cons turn rest hypothesis =>
    rw [cudaLoop]
    split
    · exact countsUp_settled own rfl
    · split
      · trivial
      · split
        · exact countsUp_settled own rfl
        · simp only
          have fits := @batchCount_le assignment processed (max 1 (turn.scaled adaptiveRate)) turn.chainCount
          generalize batchCount assignment processed (max 1 (turn.scaled adaptiveRate)) turn.chainCount = count at fits
          have within : processed + count ≤ assignment.rangeCount := by omega
          split
          · trivial
          · exact countsUp_settled own rfl
          · trivial
          · exact countsUp_single ((report_counts own rfl within).adding _ _ _ _)
          · exact ⟨(report_counts own rfl within).adding _ _ none none, hypothesis within _⟩

theorem simulatedLoop_countsUp (own : process.gpuUuid = assignment.gpuUuid) (turns : List (List Control))
    (inside : processed ≤ assignment.rangeCount) :
    assignment.CountsUp processed (simulatedLoop process assignment turns processed).events := by
  induction turns generalizing processed with
  | nil =>
    rw [simulatedLoop]
    split
    · exact countsUp_settled own rfl
    · trivial
  | cons commands rest hypothesis =>
    rw [simulatedLoop]
    split
    · exact countsUp_settled own rfl
    · split
      · trivial
      · split
        · exact countsUp_settled own rfl
        · have fits := Nat.min_le_right assignment.kernelBatchSize (assignment.rangeCount - processed)
          generalize min assignment.kernelBatchSize (assignment.rangeCount - processed) = count at fits ⊢
          have within : processed + count ≤ assignment.rangeCount := by omega
          exact ⟨(report_counts own rfl within).adding _ 0 none none, hypothesis within⟩

/-- The handler of an exception adds an event that counts nothing. -/
theorem finish_countsUp (own : process.gpuUuid = assignment.gpuUuid) {execution : Execution}
    (up : assignment.CountsUp 0 execution.events) :
    assignment.CountsUp 0 (process.finish assignment execution).events := by
  rw [WorkerProcess.finish]
  split
  · have turn := @report_settles process assignment (execution.events.foldl reached 0) own .failed rfl 0
      fun impossible => by cases impossible
    exact up.concat ⟨turn.gpuUuid, turn.shardId, turn.leaseToken, turn.counted, turn.settled⟩
  · exact up

end Streams

/-- The stream of a worker counts up. -/
theorem FleetWorker.countsUp (worker : FleetWorker) (own : worker.process.gpuUuid = worker.assignment.gpuUuid) :
    worker.assignment.CountsUp 0 worker.execution.events := by
  have started := @report_settles worker.process worker.assignment 0 own .started rfl 0 fun _ => le_rfl
  rw [FleetWorker.execution]
  split
  · exact finish_countsUp own ⟨started, cudaLoop_countsUp own _ (Nat.zero_le _) _⟩
  · exact finish_countsUp own ⟨started, simulatedLoop_countsUp own _ (Nat.zero_le _)⟩

end TronForge.Generator
