import TronForge.Generator.Repository
import TronForge.Library.Tiling

/-! What a worker does with an assignment: the batches it submits and the events it
emits, given the commands and the responses that it meets on the way. -/

namespace TronForge.Generator

open Library

/-- A command in the queue of a worker that runs an assignment. -/
inductive Control where
  | shutdown
  | cancelJob (jobId : JobId)
  | assign
  deriving DecidableEq, Repr

/-- `drain_control_commands`: whether the assignment is canceled and the worker shut down. -/
def drainControlCommands (assignment : WorkAssignment) : List Control → Except String (Bool × Bool)
  | [] => return (false, false)
  | .shutdown :: rest => do
    let (canceled, _) ← drainControlCommands assignment rest
    return (canceled, true)
  | .cancelJob jobId :: rest => do
    let (canceled, shutdown) ← drainControlCommands assignment rest
    return (canceled || decide (jobId = assignment.jobId), shutdown)
  | .assign :: _ => throw "Worker received overlapping assignments."

/-- A response of the native process, as far as the worker reads it: a count that is no
number, or an address or offset that is no text, is missing. -/
structure Payload where
  attempts : Option Int
  found : Bool := false
  address : Option String := none
  offset : Option String := none
  deriving DecidableEq, Repr

/-- What `read_response` comes to. -/
inductive Response where
  | nothing
  | payload (payload : Payload)
  | raised (error : String)
  deriving DecidableEq, Repr

/-- One turn of waiting: the commands that are drained, and the response after them. -/
structure Poll where
  commands : List Control := []
  response : Response
  deriving DecidableEq, Repr

/-- What a turn of the loop meets. `scaled` is the rate times the target seconds of a
batch, and `observedRate` comes from the clock. -/
structure Turn where
  commands : List Control := []
  scaled : Nat → Nat
  chainCount : Nat
  submitError : Option String := none
  polls : List Poll
  observedRate : Nat

/-- How an assignment ended, so far. -/
inductive Ending where
  | running
  | returned (shutdown : Bool)
  | raised (error : String)
  deriving DecidableEq, Repr

/-- The batches that were submitted, the events that were emitted, and the end. -/
structure Execution where
  batches : List Interval := []
  events : List WorkerEvent := []
  ending : Ending
  deriving DecidableEq, Repr

/-- The process of a worker. -/
structure WorkerProcess where
  gpuUuid : GpuUuid
  pid : Nat
  deriving DecidableEq, Repr

/-- `emit` for an assignment. -/
def WorkerProcess.report (process : WorkerProcess) (assignment : WorkAssignment) (eventType : WorkerEventType)
    (processedTotal : Nat) : WorkerEvent where
  eventType := eventType
  gpuUuid := process.gpuUuid
  workerPid := process.pid
  jobId := some assignment.jobId
  shardId := some assignment.shardId
  leaseToken := some assignment.leaseToken
  processedTotal := processedTotal

/-- `maximum_native_batch`. -/
def maximumNativeBatch : Nat := 67108864

/-- The count of the next batch. -/
def batchCount (assignment : WorkAssignment) (processed adaptiveBatchSize chainCount : Nat) : Nat :=
  let batchCount := min (min adaptiveBatchSize maximumNativeBatch) (assignment.rangeCount - processed)
  if chainCount > 0 ∧ batchCount ≥ chainCount then batchCount - batchCount % chainCount else batchCount

/-- How the wait for a response ends. -/
inductive Awaited where
  | pending
  | canceled (shutdown : Bool)
  | raised (error : String)
  | answered (payload : Payload)
  deriving DecidableEq, Repr

/-- The loop that waits for a response. -/
def awaitResponse (assignment : WorkAssignment) : List Poll → Awaited
  | [] => .pending
  | poll :: rest =>
    match drainControlCommands assignment poll.commands with
    | .error error => .raised error
    | .ok (canceled, shutdown) =>
      if canceled || shutdown then .canceled shutdown
      else
        match poll.response with
        | .nothing => awaitResponse assignment rest
        | .payload payload => .answered payload
        | .raised error => .raised error

/-- What comes of a batch. -/
inductive BatchOutcome where
  | pending
  | canceled (shutdown : Bool)
  | raised (error : String)
  | found (address offset : String)
  | searched
  deriving DecidableEq, Repr

/-- A batch from its submission to the check of its response. -/
def Turn.outcome (turn : Turn) (assignment : WorkAssignment) (count : Nat) : BatchOutcome :=
  match turn.submitError with
  | some error => .raised error
  | none =>
    match awaitResponse assignment turn.polls with
    | .pending => .pending
    | .canceled shutdown => .canceled shutdown
    | .raised error => .raised error
    | .answered payload =>
      match payload.attempts with
      | none => .raised "Native CUDA search returned invalid JSON output."
      | some attempts =>
        if attempts ≠ count then .raised "Native CUDA search reported an unexpected attempt count."
        else if payload.found then
          match payload.address, payload.offset with
          | some address, some offset => .found address offset
          | _, _ => .raised "Native CUDA winner did not include an address and offset."
        else .searched

/-- The loop of `execute_cuda_assignment`. A turn after the last one is not made yet. -/
def cudaLoop (process : WorkerProcess) (assignment : WorkAssignment) : List Turn → (processed adaptiveRate : Nat) →
    Execution
  | [], processed, _ =>
    if assignment.rangeCount ≤ processed then
      ⟨[], [process.report assignment .exhausted processed], .returned false⟩
    else ⟨[], [], .running⟩
  | turn :: rest, processed, adaptiveRate =>
    if assignment.rangeCount ≤ processed then
      ⟨[], [process.report assignment .exhausted processed], .returned false⟩
    else
      match drainControlCommands assignment turn.commands with
      | .error error => ⟨[], [], .raised error⟩
      | .ok (canceled, shutdown) =>
        if canceled || shutdown then
          ⟨[], [process.report assignment .canceled processed], .returned shutdown⟩
        else
          let count := batchCount assignment processed (max 1 (turn.scaled adaptiveRate)) turn.chainCount
          let batch : Interval := ⟨assignment.rangeStart + processed, count⟩
          let observedRate := max 1 turn.observedRate
          match turn.outcome assignment count with
          | .pending => ⟨[batch], [], .running⟩
          | .canceled shutdown => ⟨[batch], [process.report assignment .canceled processed], .returned shutdown⟩
          | .raised error => ⟨[batch], [], .raised error⟩
          | .found address offset =>
            ⟨[batch], [{ process.report assignment .found (processed + count) with
              attemptsDelta := count, observedRate := observedRate, address := some address, offset := some offset }], .returned false⟩
          | .searched =>
            let execution := cudaLoop process assignment rest (processed + count)
              (max 1 ((adaptiveRate * 3 + observedRate) / 4))
            { execution with
              batches := batch :: execution.batches
              events := { process.report assignment .progress (processed + count) with
                attemptsDelta := count, observedRate := observedRate } :: execution.events }

/-- The handler around an assignment: an exception becomes a `FAILED` event. -/
def WorkerProcess.finish (process : WorkerProcess) (assignment : WorkAssignment) (execution : Execution) : Execution :=
  match execution.ending with
  | .raised error =>
    { execution with events := execution.events ++ [{ process.report assignment .failed 0 with error := some error }] }
  | _ => execution

/-- `execute_cuda_assignment`, as `cuda_worker_main` runs it. -/
def executeCudaAssignment (process : WorkerProcess) (assignment : WorkAssignment) (turns : List Turn) : Execution :=
  let execution := cudaLoop process assignment turns 0 (max 1 assignment.simulatedRate)
  process.finish assignment
    { execution with events := process.report assignment .started 0 :: execution.events }

/-- The loop of `execute_simulated_assignment`; a turn drains these commands. -/
def simulatedLoop (process : WorkerProcess) (assignment : WorkAssignment) : List (List Control) → (processed : Nat) →
    Execution
  | [], processed =>
    if assignment.rangeCount ≤ processed then
      ⟨[], [process.report assignment .exhausted processed], .returned false⟩
    else ⟨[], [], .running⟩
  | commands :: rest, processed =>
    if assignment.rangeCount ≤ processed then
      ⟨[], [process.report assignment .exhausted processed], .returned false⟩
    else
      match drainControlCommands assignment commands with
      | .error error => ⟨[], [], .raised error⟩
      | .ok (canceled, shutdown) =>
        if canceled || shutdown then
          ⟨[], [process.report assignment .canceled processed], .returned shutdown⟩
        else
          let count := min assignment.kernelBatchSize (assignment.rangeCount - processed)
          let execution := simulatedLoop process assignment rest (processed + count)
          { execution with
            events := { process.report assignment .progress (processed + count) with
              attemptsDelta := count } :: execution.events }

/-- `execute_simulated_assignment`, as `simulator_worker_main` runs it. -/
def executeSimulatedAssignment (process : WorkerProcess) (assignment : WorkAssignment) (turns : List (List Control)) :
    Execution :=
  let execution := simulatedLoop process assignment turns 0
  process.finish assignment
    { execution with events := process.report assignment .started 0 :: execution.events }

end TronForge.Generator
