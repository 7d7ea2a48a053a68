import TronForge.Generator.Batches

/-! What a worker reports of one assignment: progress that adds up, and one report at the
end. -/

namespace TronForge.Generator

open Library

variable {process : WorkerProcess} {assignment : WorkAssignment} {turns : List Turn}

/-- Progress reports that lead from one total to another by what they add. -/
def ProgressTo : Int → List WorkerEvent → Int → Prop
  | start, [], stop => start = stop
  | start, event :: rest, stop =>
    event.eventType = .progress ∧ event.processedTotal = start + event.attemptsDelta ∧
      ProgressTo event.processedTotal rest stop

/-- The response to the batch of a turn was received. -/
def Turn.answered (turn : Turn) (assignment : WorkAssignment) : Bool :=
  match turn.submitError, awaitResponse assignment turn.polls with
  | none, .answered _ => true
  | _, _ => false

/-- The candidates of the batches whose responses were received. -/
def receivedCount (assignment : WorkAssignment) : List Interval → List Turn → Nat
  | batch :: batches, turn :: turns =>
    (if turn.answered assignment then batch.count else 0) + receivedCount assignment batches turns
  | _, _ => 0

/-- The one report at the end of an assignment that was not interrupted by an exception. -/
structure WorkerEvent.Closes (event : WorkerEvent) (reached : Int) (received : Nat) : Prop where
  kind : event.eventType = .exhausted ∨ event.eventType = .found ∨ event.eventType = .canceled
  adds : event.processedTotal = reached + event.attemptsDelta
  total : event.processedTotal = received

/-- What is reported last: nothing while the loop runs or when it raises. -/
def Ending.ClosedBy (ending : Ending) (reached : Int) (received : Nat) (last : List WorkerEvent) : Prop :=
  match ending with
  | .returned _ => ∃ event, last = [event] ∧ event.Closes reached received
  | .running | .raised _ => last = []

/-- The reports of a loop that goes on from `processed`. -/
structure Execution.Reports (execution : Execution) (assignment : WorkAssignment) (turns : List Turn)
    (processed : Nat) : Prop where
  sizes : ∀ batch ∈ execution.batches, 1 ≤ batch.count ∧ batch.count ≤ maximumNativeBatch
  within : ∀ event ∈ execution.events, event.processedTotal ≤ assignment.rangeCount
  grammar : ∃ progress last reached, execution.events = progress ++ last ∧ ProgressTo processed progress reached ∧
    execution.ending.ClosedBy reached (processed + receivedCount assignment execution.batches turns) last

theorem batchCount_bounds {processed adaptiveBatchSize chainCount : Nat} (open_ : processed < assignment.rangeCount)
    (positive : 1 ≤ adaptiveBatchSize) :
    1 ≤ batchCount assignment processed adaptiveBatchSize chainCount ∧
      batchCount assignment processed adaptiveBatchSize chainCount ≤ maximumNativeBatch := by
  have least : 1 ≤ min (min adaptiveBatchSize maximumNativeBatch) (assignment.rangeCount - processed) :=
    Nat.le_min.mpr ⟨Nat.le_min.mpr ⟨positive, by decide⟩, Nat.sub_pos_of_lt open_⟩
  have most : min (min adaptiveBatchSize maximumNativeBatch) (assignment.rangeCount - processed) ≤ maximumNativeBatch :=
    (Nat.min_le_left _ _).trans (Nat.min_le_right _ _)
  simp only [batchCount]
  split
  · -- at least one whole chain is left after the rounding
    rename_i chained
    have chain := Nat.sub_add_cancel (Nat.mod_le
      (min (min adaptiveBatchSize maximumNativeBatch) (assignment.rangeCount - processed)) chainCount)
    have short := Nat.mod_lt (min (min adaptiveBatchSize maximumNativeBatch) (assignment.rangeCount - processed))
      chained.1
    exact ⟨by omega, (Nat.sub_le _ _).trans most⟩
  · exact ⟨least, most⟩

/-- A response ends a batch, one way or another. -/
theorem Turn.outcome_of_answered {turn : Turn} {payload : Payload} (sent : turn.submitError = none)
    (awaited : awaitResponse assignment turn.polls = .answered payload) (count : Nat) :
    turn.outcome assignment count = .searched ∨ (∃ address offset, turn.outcome assignment count = .found address offset) ∨
      ∃ error, turn.outcome assignment count = .raised error := by
  simp only [Turn.outcome, sent, awaited]
  split
  · exact .inr (.inr ⟨_, rfl⟩)
  · split
    · exact .inr (.inr ⟨_, rfl⟩)
    · split
      · split
        · exact .inr (.inl ⟨_, _, rfl⟩)
        · exact .inr (.inr ⟨_, rfl⟩)
      · exact .inl rfl

/-- A batch counts exactly if its response was received. -/
theorem Turn.outcome_answered (turn : Turn) (count : Nat) :
    match turn.outcome assignment count with
    | .searched | .found _ _ => turn.answered assignment = true
    | .canceled _ => turn.answered assignment = false
    | .pending => awaitResponse assignment turn.polls = .pending
    | .raised _ => True := by
  cases sent : turn.submitError with
  | some error => simp only [Turn.outcome, sent]
  | none =>
    cases awaited : awaitResponse assignment turn.polls with
    | pending => simp only [Turn.outcome, sent, awaited]
    | canceled shutdown => simp only [Turn.outcome, Turn.answered, sent, awaited]
    | raised error => simp only [Turn.outcome, sent, awaited]
    | answered payload =>
      have answered : turn.answered assignment = true := by simp only [Turn.answered, sent, awaited]
      rcases Turn.outcome_of_answered sent awaited count with searched | ⟨address, offset, found⟩ | ⟨error, raised⟩
      · rw [searched]
        exact answered
      · rw [found]
        exact answered
      · rw [raised]
        trivial

/-- A response, or a command, ends the wait. -/
theorem awaitResponse_ends {polls : List Poll} (responds : ∃ poll ∈ polls, poll.response ≠ .nothing) :
    awaitResponse assignment polls ≠ .pending := by
  induction polls with
  | nil =>
    obtain ⟨poll, member, -⟩ := responds
    cases member
  | cons first rest hypothesis =>
    rw [awaitResponse]
    split
    · simp
    · split
      · simp
      · cases response : first.response with
        | payload payload => simp
        | raised error => simp
        | nothing =>
          obtain ⟨poll, member, responded⟩ := responds
          rcases List.mem_cons.mp member with rfl | later
          · exact absurd response responded
          · exact hypothesis ⟨poll, later, responded⟩

theorem Turn.outcome_ends {turn : Turn} (responds : ∃ poll ∈ turn.polls, poll.response ≠ .nothing) (count : Nat) :
    turn.outcome assignment count ≠ .pending := by
  intro pending
  have waits := @Turn.outcome_answered assignment turn count
  rw [pending] at waits
  exact awaitResponse_ends responds waits

section Steps
variable {processed count : Nat} {batches : List Interval} {turn : Turn} {event : WorkerEvent} {ending : Ending}

theorem Execution.reports_silent (sizes : ∀ batch ∈ batches, 1 ≤ batch.count ∧ batch.count ≤ maximumNativeBatch)
    (open_ : ∀ shutdown, ending ≠ .returned shutdown) :
    (⟨batches, [], ending⟩ : Execution).Reports assignment turns processed where
  sizes := sizes
  within := by simp
  grammar := by
    refine ⟨[], [], processed, rfl, rfl, ?_⟩
    cases ending with
    | running => rfl
    | raised error => rfl
    | returned shutdown => exact absurd rfl (open_ shutdown)

theorem Execution.reports_closing {shutdown : Bool}
    (sizes : ∀ batch ∈ batches, 1 ≤ batch.count ∧ batch.count ≤ maximumNativeBatch)
    (within : event.processedTotal ≤ assignment.rangeCount)
    (closes : event.Closes processed (processed + receivedCount assignment batches turns)) :
    (⟨batches, [event], .returned shutdown⟩ : Execution).Reports assignment turns processed where
  sizes := sizes
  within other member := by
    rw [List.mem_singleton.mp member]
    exact within
  grammar := ⟨[], [event], processed, rfl, rfl, event, rfl, closes⟩

/-- A batch that was searched, and the reports after it. -/
theorem Execution.Reports.cons {execution : Execution} {batch : Interval}
    (reports : execution.Reports assignment turns (processed + batch.count))
    (size : 1 ≤ batch.count ∧ batch.count ≤ maximumNativeBatch) (answered : turn.answered assignment = true)
    (kind : event.eventType = .progress) (adds : event.attemptsDelta = batch.count)
    (total : event.processedTotal = processed + batch.count)
    (fits : processed + batch.count ≤ assignment.rangeCount) :
    Execution.Reports { execution with batches := batch :: execution.batches, events := event :: execution.events }
      assignment (turn :: turns) processed where
  sizes := List.forall_mem_cons.mpr ⟨size, reports.sizes⟩
  within := by
    refine List.forall_mem_cons.mpr ⟨?_, reports.within⟩
    rw [total]
    exact_mod_cast fits
  grammar := by
    obtain ⟨progress, last, reached, events, goesOn, closed⟩ := reports.grammar
    refine ⟨event :: progress, last, reached, by rw [events, List.cons_append], ⟨kind, by rw [total, adds], ?_⟩, ?_⟩
    · rw [total]
      exact_mod_cast goesOn
    · simp only [receivedCount, answered, ↓reduceIte]
      rw [← Nat.add_assoc]
      exact closed

end Steps

/-- The reports of the loop, whatever the turns bring. -/
theorem cudaLoop_reports (turns : List Turn) {processed : Nat} (inside : processed ≤ assignment.rangeCount)
    (adaptiveRate : Nat) : (cudaLoop process assignment turns processed adaptiveRate).Reports assignment turns processed := by
  induction turns generalizing processed adaptiveRate with
  | nil =>
    rw [cudaLoop]
    split
    · exact Execution.reports_closing (by simp) (Int.ofNat_le.mpr inside) ⟨.inl rfl, (Int.add_zero _).symm, rfl⟩
    · exact Execution.reports_silent (by simp) (by simp)
  | cons turn rest hypothesis =>
    rw [cudaLoop]
    split
    · exact Execution.reports_closing (by simp) (Int.ofNat_le.mpr inside) ⟨.inl rfl, (Int.add_zero _).symm, rfl⟩
    · rename_i open_
      split
      · exact Execution.reports_silent (by simp) (by simp)
      · split
        · exact Execution.reports_closing (by simp) (Int.ofNat_le.mpr inside)
            ⟨.inr (.inr rfl), (Int.add_zero _).symm, rfl⟩
        · simp only
          have size := @batchCount_bounds assignment processed (max 1 (turn.scaled adaptiveRate)) turn.chainCount
            (Nat.lt_of_not_le open_) (Nat.le_max_left _ _)
          have fits := @batchCount_le assignment processed (max 1 (turn.scaled adaptiveRate)) turn.chainCount
          generalize batchCount assignment processed (max 1 (turn.scaled adaptiveRate)) turn.chainCount = count
            at size fits
          have room : processed + count ≤ assignment.rangeCount := by omega
          have one : ∀ batch ∈ [(⟨assignment.rangeStart + processed, count⟩ : Interval)],
              1 ≤ batch.count ∧ batch.count ≤ maximumNativeBatch := List.forall_mem_singleton.mpr size
          have counted := @Turn.outcome_answered assignment turn count
          split
          · exact Execution.reports_silent one (by simp)
          · rename_i shutdown outcome
            rw [outcome] at counted
            refine Execution.reports_closing one (Int.ofNat_le.mpr inside)
              ⟨.inr (.inr rfl), (Int.add_zero _).symm, ?_⟩
            simp [receivedCount, counted, WorkerProcess.report]
          · exact Execution.reports_silent one (by simp)
          · rename_i address offset outcome
            rw [outcome] at counted
            refine Execution.reports_closing one (Int.ofNat_le.mpr room) ⟨.inr (.inl rfl), rfl, ?_⟩
            simp [receivedCount, counted, WorkerProcess.report]
          · rename_i outcome
            rw [outcome] at counted
            exact (hypothesis room _).cons size counted rfl rfl rfl room

/-- Every turn searches at least one candidate, so with enough responses the loop ends. -/
theorem cudaLoop_ends (turns : List Turn) {processed : Nat} (adaptiveRate : Nat)
    (responds : ∀ turn ∈ turns, ∃ poll ∈ turn.polls, poll.response ≠ .nothing)
    (enough : assignment.rangeCount ≤ processed + turns.length) :
    (cudaLoop process assignment turns processed adaptiveRate).ending ≠ .running := by
  induction turns generalizing processed adaptiveRate with
  | nil =>
    rw [List.length_nil, Nat.add_zero] at enough
    rw [cudaLoop, if_pos enough]
    simp
  | cons turn rest hypothesis =>
    rw [cudaLoop]
    split
    · simp
    · rename_i open_
      split
      · simp
      · split
        · simp
        · simp only
          have size := @batchCount_bounds assignment processed (max 1 (turn.scaled adaptiveRate)) turn.chainCount
            (Nat.lt_of_not_le open_) (Nat.le_max_left _ _)
          generalize batchCount assignment processed (max 1 (turn.scaled adaptiveRate)) turn.chainCount = count at size
          have ends := @Turn.outcome_ends assignment turn (responds turn List.mem_cons_self) count
          split
          · rename_i pending
            exact absurd pending ends
          · simp
          · simp
          · simp
          · refine hypothesis _ (fun other member => responds other (List.mem_cons_of_mem _ member)) ?_
            rw [List.length_cons] at enough
            omega

/-- What is reported last of an assignment: the end of the loop, or the exception that the
handler has caught. -/
def WorkerProcess.ClosedBy (process : WorkerProcess) (assignment : WorkAssignment) (ending : Ending) (reached : Int)
    (received : Nat) (last : List WorkerEvent) : Prop :=
  match ending with
  | .running => last = []
  | .returned _ => ∃ event, last = [event] ∧ event.Closes reached received
  | .raised error => last = [{ process.report assignment .failed 0 with error := some error }]

theorem finish_events {execution : Execution} {reached : Int} {received : Nat} {front last : List WorkerEvent}
    (events : execution.events = front ++ last) (closed : execution.ending.ClosedBy reached received last) :
    ∃ last, (process.finish assignment execution).events = front ++ last ∧
      process.ClosedBy assignment (process.finish assignment execution).ending reached received last := by
  rw [WorkerProcess.finish]
  cases ended : execution.ending with
  | running =>
    rw [ended] at closed
    exact ⟨last, events, by rw [ended]; exact closed⟩
  | returned shutdown =>
    rw [ended] at closed
    exact ⟨last, events, by rw [ended]; exact closed⟩
  | raised error =>
    rw [ended] at closed
    obtain rfl : last = [] := closed
    refine ⟨_, ?_, rfl⟩
    rw [events, List.append_nil]

theorem finish_within {execution : Execution} (within : ∀ event ∈ execution.events, event.processedTotal ≤ assignment.rangeCount) :
    ∀ event ∈ (process.finish assignment execution).events, event.processedTotal ≤ assignment.rangeCount := by
  intro event member
  rw [WorkerProcess.finish] at member
  split at member
  · rcases List.mem_append.mp member with inside | added
    · exact within event inside
    · rw [List.mem_singleton.mp added]
      exact Int.natCast_nonneg _
  · exact within event member

@[simp] theorem finish_batches {execution : Execution} : (process.finish assignment execution).batches = execution.batches := by
  rw [WorkerProcess.finish]
  split <;> rfl

theorem finish_running {execution : Execution} :
    (process.finish assignment execution).ending = execution.ending := by
  rw [WorkerProcess.finish]
  split <;> rfl

/-- For every assignment and whatever its turns bring, the worker reports that it has started,
then progress whose totals grow by what each report adds, and then, once the loop has ended,
exactly one report: of its end, with the candidates of the batches whose responses were
received, or of the exception. No total exceeds the range, every batch has between 1 and
67,108,864 candidates, and with a response to every batch the loop ends. -/
theorem cuda_assignment_reports (process : WorkerProcess) (assignment : WorkAssignment) (turns : List Turn) :
    (∃ progress last reached, (executeCudaAssignment process assignment turns).events =
        process.report assignment .started 0 :: progress ++ last ∧
      ProgressTo 0 progress reached ∧
      process.ClosedBy assignment (executeCudaAssignment process assignment turns).ending reached
        (receivedCount assignment (executeCudaAssignment process assignment turns).batches turns) last) ∧
    (∀ event ∈ (executeCudaAssignment process assignment turns).events, event.processedTotal ≤ assignment.rangeCount) ∧
    (∀ batch ∈ (executeCudaAssignment process assignment turns).batches, 1 ≤ batch.count ∧ batch.count ≤ 67108864) ∧
    ((∀ turn ∈ turns, ∃ poll ∈ turn.polls, poll.response ≠ .nothing) → assignment.rangeCount ≤ turns.length →
      (executeCudaAssignment process assignment turns).ending ≠ .running) := by
  have reports := @cudaLoop_reports process assignment turns 0 (Nat.zero_le _) (max 1 assignment.simulatedRate)
  refine ⟨?_, ?_, ?_, ?_⟩
  · obtain ⟨progress, last, reached, events, goesOn, closed⟩ := reports.grammar
    rw [Nat.zero_add] at closed
    have started : process.report assignment .started 0 ::
        (cudaLoop process assignment turns 0 (max 1 assignment.simulatedRate)).events =
          process.report assignment .started 0 :: progress ++ last := by
      rw [events, List.cons_append]
    obtain ⟨final, reported, finished⟩ := @finish_events process assignment
      { cudaLoop process assignment turns 0 (max 1 assignment.simulatedRate) with events := _ } _ _ _ _ started closed
    exact ⟨progress, final, reached, reported, goesOn, by rw [executeCudaAssignment, finish_batches]; exact finished⟩
  · apply finish_within
    exact List.forall_mem_cons.mpr ⟨Int.natCast_nonneg _, reports.within⟩
  · rw [executeCudaAssignment, finish_batches]
    exact reports.sizes
  · intro responds enough
    rw [executeCudaAssignment, finish_running]
    exact cudaLoop_ends turns _ responds (by rwa [Nat.zero_add])

def alignedAssignment : WorkAssignment where
  jobId := 1
  shardId := 2
  leaseToken := 3
  gpuUuid := "GPU-0"
  clientPublicKey := "0279be667ef9dcbbac55a06295ce870b07029bfcdb2dce28d959f2815b16f81798"
  pattern := "2x2"
  addressPrefix := "TDv"
  suffix := "9K"
  rangeStart := 1
  rangeCount := 130
  kernelBatchSize := 128
  simulatedRate := 128

def alignedTurn (attempts : Int) : Turn where
  scaled := id
  chainCount := 64
  polls := [⟨[], .nothing⟩, ⟨[], .payload { attempts := some attempts }⟩]
  observedRate := 128

/-- The second batch is all that is left, less than one whole round of chains. -/
example : (executeCudaAssignment ⟨"GPU-0", 7⟩ alignedAssignment [alignedTurn 128, alignedTurn 2]).batches =
    [⟨1, 128⟩, ⟨129, 2⟩] := by decide

theorem cuda_assignment_reports_aligned :
    (executeCudaAssignment ⟨"GPU-0", 7⟩ alignedAssignment
      (alignedTurn 128 :: List.replicate 129 (alignedTurn 2))).ending ≠ .running := by
  apply (cuda_assignment_reports ⟨"GPU-0", 7⟩ alignedAssignment
    (alignedTurn 128 :: List.replicate 129 (alignedTurn 2))).2.2.2
  · intro turn member
    have kind : turn = alignedTurn 128 ∨ turn = alignedTurn 2 := by simpa using member
    rcases kind with rfl | rfl
    · exact ⟨⟨[], .payload { attempts := some 128 }⟩, by simp [alignedTurn], by simp⟩
    · exact ⟨⟨[], .payload { attempts := some 2 }⟩, by simp [alignedTurn], by simp⟩
  · simp [alignedAssignment]

end TronForge.Generator
