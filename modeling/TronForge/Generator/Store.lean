import TronForge.Library.Machine
import TronForge.Generator.Repository

/-! The generator's tables as a state machine: its actions are the committed
transactions of the scheduler and of the routes, with what each of them draws
from outside. A transaction that raises commits nothing and is no action. -/

namespace TronForge.Generator

open Library

inductive Operation where
  | create (job : GenerationJob)
  | boot (devices : List GpuInfo)
  | recover (now : Time)
  | claim (combinedRate timeoutSeconds : Nat) (now : Time) (draw : Fin (secp256k1Order - 1))
      (locked : JobId → Bool)
  | allocate (jobId : JobId) (gpuUuid : GpuUuid) (shardSeconds kernelBatchMs : Nat) (lease : Lease)
  | record (event : WorkerEvent) (entropy : Nat) (now : Time)
  | check (jobId : JobId) (now : Time)
  | cancel (user : UserId) (jobId : JobId) (now : Time)
  | submit (jobId : JobId) (workerId address offset : String) (entropy : Nat) (now : Time)
  | offline

/-- A new row of `create_job`: queued, without offsets, under an unused key. -/
def Created (db : Database) (job : GenerationJob) : Prop :=
  job.status = .queued ∧ job.searchOrigin = none ∧ job.nextOffset = none ∧
    ∀ other ∈ db.jobs, other.id ≠ job.id

instance (db : Database) (job : GenerationJob) : Decidable (Created db job) :=
  inferInstanceAs (Decidable (_ ∧ _ ∧ _ ∧ _))

/-- The committed effect of `allocate_shard`, if it commits. -/
def Allocation.committed (db : Database) : Allocation → Option Database
  | .refused => some db
  | .exhausted after => some after
  | .assigned _ after => some after
  | .duplicateRangeStart => none

def perform (verification : Verification) : Operation → Database → Option Database
  | .create job, db => if Created db job then some { db with jobs := job :: db.jobs } else none
  | .boot devices, db => some (initializeDevices devices db)
  | .recover now, db => some (recoverInterruptedWork now db)
  | .claim combinedRate timeoutSeconds now draw locked, db =>
    some (claimNextJob combinedRate timeoutSeconds now draw locked db).2
  | .allocate jobId gpuUuid shardSeconds kernelBatchMs lease, db =>
    if ∀ shard ∈ db.shards, shard.id ≠ lease.shardId then
      (allocateShard jobId gpuUuid shardSeconds kernelBatchMs lease db).committed db
    else none
  | .record event entropy now, db => recordEvent verification entropy now event db
  | .check jobId now, db => some (activeJobStatus now jobId db).2
  | .cancel user jobId now, db => some (cancelJob user now jobId db).2
  | .submit jobId workerId address offset entropy now, db =>
    submitCandidate verification entropy now jobId workerId address offset db
  | .offline, db => some (markDevicesOffline db)

def store (verification : Verification) : Machine Database Operation := ⟨perform verification⟩

/-- The tables reached from an empty database by any transactions in any order. -/
def Reachable (verification : Verification) (db : Database) : Prop :=
  (store verification).Run Machine.anyAction {} db

/-- A verifier that turns every candidate down. -/
def refusing : Verification where
  verifyCandidate _ _ _ _ := .error "Candidate is not a valid TRON Base58Check address."
  combinePrivateKey _ _ := .error "The combined private key is outside the valid secp256k1 range."
  verifyPrivateKeyAddress _ _ := .ok ()
  decrypt := some
  encrypt _ value := value

/-- A draw, a job and a GPU for the runs that stand beside the theorems. -/
def sampleDraw : Fin (secp256k1Order - 1) := ⟨99, by decide⟩

def sampleJob : GenerationJob where
  id := 1
  userId := 1
  patternType := .twoByTwo
  addressPrefix := "TAa"
  suffix := "zz"
  clientPublicKey := "02aa"
  encryptedBasePrivateKey := some "secret"
  matchSpec := { prefixOptions := [['T'], ['A'], ['a', 'A']], suffixOptions := [['z', 'Z'], ['z', 'Z']] }
  createdAt := 10

def sampleGpu : GpuInfo where
  deviceIndex := 0
  uuid := "GPU-0"
  name := "sample"
  memoryTotalMb := 24000
  benchmarkRate := 5

end TronForge.Generator
