import TronForge.Generator.Store

/-! Transactions that overlap on one job at READ COMMITTED. A session runs its
operation on the rows it has read; only `FOR UPDATE` takes the row lock; an
object already loaded is not refreshed by a later select; the write updates the
changed columns of the row by its key and waits for a lock held by another. -/

namespace TronForge.Generator

open Library

abbrev SessionId := Nat

/-- A session with the job and the result as it last read them, and the other
rows its operation reads. -/
structure Session where
  id : SessionId
  operation : Operation
  loaded : GenerationJob
  seen : Option GenerationResult
  devices : List GpuDevice
  shards : List GenerationShard

/-- The tables as the session's objects show them. -/
def Session.view (session : Session) : Database where
  jobs := [session.loaded]
  results := session.seen.toList
  devices := session.devices
  shards := session.shards

/-- The committed row with its result, its lock, the open sessions, and whether
a cancel request was answered with the canceled job. -/
structure Shared where
  row : GenerationJob
  result : Option GenerationResult := none
  lock : Option SessionId := none
  sessions : List Session := []
  acknowledged : Bool := false

/-- The operations whose first read of the job is `FOR UPDATE`. -/
def Operation.locking : Operation → Bool
  | .submit .. | .claim .. | .allocate .. => true
  | _ => false

/-- Every operation but the insertion of a job works on an existing row. -/
def Operation.inserts : Operation → Bool
  | .create _ => true
  | _ => false

/-- A winner event with address and offset reaches `finalize_candidate`, whose
select takes the lock after the job was loaded without it. -/
def Session.finalizes (session : Session) : Bool :=
  match session.operation with
  | .record event _ _ => event.eventType = .found && event.address.isSome && event.offset.isSome &&
      (session.view.device? event.gpuUuid).isSome && (session.view.matchingShard event).isSome
  | _ => false

/-- Whether the answer to a cancel request shows the job canceled. -/
def Session.acknowledges (session : Session) : Bool :=
  match session.operation with
  | .cancel user jobId now => decide ((cancelJob user now jobId session.view).1 = .canceled)
  | _ => false

/-- One column of an update: written if the object changed it. -/
def column [DecidableEq α] (loaded changed stored : α) : α :=
  if changed = loaded then stored else changed

/-- The update of the row by an object loaded as `loaded` and left as `changed`. -/
def flush (loaded changed stored : GenerationJob) : GenerationJob :=
  { stored with
    status := column loaded.status changed.status stored.status
    attempts := column loaded.attempts changed.attempts stored.attempts
    searchRate := column loaded.searchRate changed.searchRate stored.searchRate
    searchOrigin := column loaded.searchOrigin changed.searchOrigin stored.searchOrigin
    nextOffset := column loaded.nextOffset changed.nextOffset stored.nextOffset
    failureCode := column loaded.failureCode changed.failureCode stored.failureCode
    failureMessage := column loaded.failureMessage changed.failureMessage stored.failureMessage
    startedAt := column loaded.startedAt changed.startedAt stored.startedAt
    completedAt := column loaded.completedAt changed.completedAt stored.completedAt
    deadlineAt := column loaded.deadlineAt changed.deadlineAt stored.deadlineAt }

@[simp] theorem column_self [DecidableEq α] (value stored : α) : column value value stored = stored := by
  simp [column]

@[simp] theorem flush_self (loaded stored : GenerationJob) : flush loaded loaded stored = stored := by
  simp [flush]

inductive Action where
  | open_ (id : SessionId) (operation : Operation) (devices : List GpuDevice)
      (shards : List GenerationShard)
  | lock (id : SessionId)
  | commit (id : SessionId)
  | abandon (id : SessionId)

namespace Shared

def session? (shared : Shared) (id : SessionId) : Option Session :=
  Table.lookup (·.id) id shared.sessions

/-- The session is gone, and with it the lock it held. -/
def close (id : SessionId) (shared : Shared) : Shared :=
  { shared with
    sessions := shared.sessions.filter (·.id ≠ id)
    lock := if shared.lock = some id then none else shared.lock }

/-- The first read of a session. -/
def open_ (id : SessionId) (operation : Operation) (devices : List GpuDevice)
    (shards : List GenerationShard) (shared : Shared) : Option Shared :=
  if (∃ session ∈ shared.sessions, session.id = id) ∨ operation.inserts = true ∨
      operation.locking = true ∧ shared.lock ≠ none then none
  else some { shared with
    sessions := ⟨id, operation, shared.row, shared.result, devices, shards⟩ :: shared.sessions
    lock := if operation.locking then some id else shared.lock }

/-- The `FOR UPDATE` of `finalize_candidate` in a winner's session: the result
is read now, the job keeps the columns it was loaded with. -/
def take (session : Session) (shared : Shared) : Option Shared :=
  if session.finalizes = true ∧ shared.lock = none then
    some { shared with
      lock := some session.id
      sessions := Table.modify (·.id) session.id (fun session => { session with seen := shared.result })
        shared.sessions }
  else none

/-- The write of a session whose operation left the tables of its view as
`after`. It waits for the lock of another session, and a second result violates
the unique constraint on its job. -/
def write (session : Session) (after : Database) (shared : Shared) : Option Shared :=
  let changed := (after.job? session.loaded.id).getD session.loaded
  if (session.operation.locking = true ∨ session.finalizes = true) ∧ shared.lock ≠ some session.id then
    none
  else if changed ≠ session.loaded ∧ shared.lock ≠ none ∧ shared.lock ≠ some session.id then none
  else if after.results ≠ session.view.results ∧ shared.result ≠ none then none
  else some (close session.id { shared with
    row := flush session.loaded changed shared.row
    result := if after.results = session.view.results then shared.result else after.results.head?
    acknowledged := shared.acknowledged || session.acknowledges })

end Shared

/-- One action on the shared row; a transaction that raises can only be
abandoned. -/
def overlapStep (verification : Verification) : Action → Shared → Option Shared
  | .open_ id operation devices shards, shared => shared.open_ id operation devices shards
  | .lock id, shared => (shared.session? id).bind fun session => shared.take session
  | .commit id, shared => (shared.session? id).bind fun session =>
      (perform verification session.operation session.view).bind fun after =>
        shared.write session after
  | .abandon id, shared => some (shared.close id)

def overlap (verification : Verification) : Machine Shared Action := ⟨overlapStep verification⟩

end TronForge.Generator
