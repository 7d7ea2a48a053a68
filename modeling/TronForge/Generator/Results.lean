import TronForge.Generator.Database

/-! `finalize_candidate` and the routes that create a job, cancel it and submit
a candidate for it, each as one transaction on the tables. -/

namespace TronForge.Generator

open Library

/-- `VERIFIER_VERSION`. -/
def verifierVersion : String := "cpu-v1"

/-- What `finalize_candidate` calls: the checks of `patterns` and
`server_wallet`, whose `ValueError` carries a text, and the secret box.
`decrypt` yields nothing where the box raises; `encrypt` draws on entropy. -/
structure Verification where
  verifyCandidate : (clientPublicKey offset submittedAddress : String) → MatchSpec →
    Except String String
  combinePrivateKey : (basePrivateKey offset : String) → Except String String
  verifyPrivateKeyAddress : (privateKey expectedAddress : String) → Except String Unit
  decrypt : String → Option String
  encrypt : (entropy : Nat) → String → String

/-- The outcomes of `finalize_candidate`; only `accepted` writes. `raises` is an
exception that none of its callers handles. -/
inductive Finalized where
  | jobNotFound
  | stateConflict (message : String)
  | verificationError (message : String)
  | raises
  | repeated (address : String)
  | accepted (result : GenerationResult)
  deriving DecidableEq

/-- The checks between reading the job and storing its result: the address and
private key, or the text of the `ValueError`; nothing if the box raises. -/
def Verification.check (verification : Verification) (job : GenerationJob)
    (address offset : String) : Option (Except String (String × String)) :=
  match verification.verifyCandidate job.clientPublicKey offset address job.matchSpec with
  | .error message => some (.error message)
  | .ok verified =>
    match job.encryptedBasePrivateKey with
    | none => some (.error "Job does not contain a server-generated private key share.")
    | some encrypted =>
      match verification.decrypt encrypted with
      | none => none
      | some base => some do
        let privateKey ← verification.combinePrivateKey base offset
        verification.verifyPrivateKeyAddress privateKey verified
        return (verified, privateKey)

def finalizeCandidate (verification : Verification) (entropy : Nat) (now : Time) (db : Database)
    (jobId : JobId) (workerId address offset : String) : Finalized :=
  match db.job? jobId with
  | none => .jobNotFound
  | some job =>
    match db.result? jobId with
    | some result => .repeated result.address
    | none =>
      if ¬ job.status.accepting then
        .stateConflict ("Job in " ++ job.status.value ++ " state does not accept candidates.")
      else
        match verification.check job address offset with
        | none => .raises
        | some (.error message) => .verificationError message
        | some (.ok (verified, privateKey)) => .accepted {
            jobId := job.id
            workerId := workerId
            address := verified
            encryptedOffset := verification.encrypt entropy offset
            encryptedPrivateKey := verification.encrypt (entropy + 1) privateKey
            verifierVersion := verifierVersion
            verifiedAt := now }

/-- The rows an accepted candidate adds and changes. -/
def Database.accept (result : GenerationResult) (now : Time) (db : Database) : Database :=
  { db.modifyJob result.jobId fun job => { job with status := .ready, completedAt := some now } with
    results := result :: db.results }

/-- The unique constraints of `generation_results` at commit. -/
def Database.admits (result : GenerationResult) (db : Database) : Bool :=
  db.results.all fun other => other.jobId ≠ result.jobId && other.address ≠ result.address

/-- `submit_candidate`; nothing if its commit raises. -/
def submitCandidate (verification : Verification) (entropy : Nat) (now : Time) (jobId : JobId)
    (workerId address offset : String) (db : Database) : Option Database :=
  match finalizeCandidate verification entropy now db jobId workerId address offset with
  | .accepted result => if db.admits result then some (db.accept result now) else none
  | .raises => none
  | _ => some db

/-- The row `create_job` stores for an accepted payload. -/
def newJob (id : JobId) (user : UserId) (pattern : PatternType) (addressPrefix suffix : String)
    (publicKey encryptedKey : String) (spec : MatchSpec) (now : Time) : GenerationJob where
  id := id
  userId := user
  patternType := pattern
  addressPrefix := addressPrefix
  suffix := suffix
  clientPublicKey := publicKey
  encryptedBasePrivateKey := some encryptedKey
  matchSpec := spec
  createdAt := now

/-- `get_owned_job`. -/
def Database.ownedJob? (db : Database) (user : UserId) (id : JobId) : Option GenerationJob :=
  (db.job? id).filter fun job => job.userId = user

inductive CancelResponse where
  | notFound
  | canceled
  | conflict (detail : String)
  deriving DecidableEq

def cancelJob (user : UserId) (now : Time) (jobId : JobId) (db : Database) :
    CancelResponse × Database :=
  match db.ownedJob? user jobId with
  | none => (.notFound, db)
  | some job =>
    if job.status = .canceled then (.canceled, db)
    else if job.status.terminal then
      (.conflict ("A " ++ job.status.value ++ " job cannot be canceled."), db)
    else (.canceled, db.modifyJob jobId fun job =>
      { job with status := .canceled, completedAt := some now })

end TronForge.Generator
