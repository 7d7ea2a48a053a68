import TronForge.Funding.CreateFunding
import TronForge.Generator.StoredResults
import TronForge.Library.Outcome

/-! What the routes of a job answer with: the rows that a user owns, each with the
private key of its result taken out of the secret box. The routes that write commit
first and read the row again, so that other transactions may come in between. -/

namespace TronForge.Service

open Library
open Generator (UserId JobId Time PatternType JobStatus Database GenerationJob Operation perform Verification)

/-- `observed_search_rate`; `quotient` is `int(attempts / elapsed)` in floating point,
with the elapsed microseconds. -/
def observedSearchRate (quotient : (attempts elapsed : Nat) → Nat) (now : Time) (job : GenerationJob) : Option Nat :=
  match job.startedAt with
  | none => none
  | some started =>
    let ended := job.completedAt.getD now
    if job.attempts = 0 ∨ ended ≤ started then none else some (max 1 (quotient job.attempts (ended - started)))

structure GenerationResultRead where
  address : String
  privateKey : String
  verifiedAt : Time
  deriving DecidableEq, Repr

structure GenerationJobRead where
  id : JobId
  pattern : PatternType
  addressPrefix : String
  suffix : String
  status : JobStatus
  attempts : Nat
  searchRate : Nat
  observedRate : Option Nat
  createdAt : Time
  updatedAt : Time
  startedAt : Option Time
  completedAt : Option Time
  failureCode : Option String
  failureMessage : Option String
  result : Option GenerationResultRead
  deriving DecidableEq, Repr

/-- What the answers are made with: the secret box, and the division of the rates. -/
structure Reader where
  decrypt : String → Option String
  quotient : (attempts elapsed : Nat) → Nat

/-- When an answer is made: the clock, and the column `updated_at`, which no transaction reads. -/
structure Moment where
  now : Time
  updatedAt : JobId → Time

section
variable (reader : Reader)

def GenerationJobRead.of (moment : Moment) (job : GenerationJob) (result : Option GenerationResultRead) :
    GenerationJobRead where
  id := job.id
  pattern := job.patternType
  addressPrefix := job.addressPrefix
  suffix := job.suffix
  status := job.status
  attempts := job.attempts
  searchRate := job.searchRate
  observedRate := observedSearchRate reader.quotient moment.now job
  createdAt := job.createdAt
  updatedAt := moment.updatedAt job.id
  startedAt := job.startedAt
  completedAt := job.completedAt
  failureCode := job.failureCode
  failureMessage := job.failureMessage
  result := result

inductive RouteError where
  | notFound
  | notLoaded
  | badQuery
  | raised
  deriving DecidableEq, Repr

/-- `serialize_job`; the box may raise. -/
def serializeJob (moment : Moment) (db : Database) (job : GenerationJob) : Except RouteError GenerationJobRead :=
  match db.result? job.id with
  | none => return .of reader moment job none
  | some stored =>
    match reader.decrypt stored.encryptedPrivateKey with
    | none => throw .raised
    | some privateKey => return .of reader moment job (some ⟨stored.address, privateKey, stored.verifiedAt⟩)

/-- A row of `get_owned_job`, as an answer. -/
def readOwned (missing : RouteError) (user : UserId) (jobId : JobId) (moment : Moment) (db : Database) :
    Except RouteError GenerationJobRead :=
  match db.ownedJob? user jobId with
  | none => throw missing
  | some job => serializeJob reader moment db job

/-- The route `get_job`. -/
def getJob : UserId → JobId → Moment → Database → Except RouteError GenerationJobRead := readOwned reader .notFound

/-- The end of `create_job` and of `cancel_job`, behind their commits. -/
def loadCommitted : UserId → JobId → Moment → Database → Except RouteError GenerationJobRead :=
  readOwned reader .notLoaded

/-- `ORDER BY created_at DESC`. -/
def newerFirst (left right : GenerationJob) : Bool := decide (right.createdAt ≤ left.createdAt)

def ownedJobs (user : UserId) (db : Database) : List GenerationJob :=
  (db.jobs.filter fun job => job.userId = user).mergeSort newerFirst

/-- `count_owned_jobs`. -/
def countOwnedJobs (user : UserId) (db : Database) : Nat := db.jobs.countP fun job => job.userId = user

structure JobListResponse where
  items : List GenerationJobRead
  total : Nat
  limit : Int
  offset : Int
  deriving DecidableEq, Repr

/-- The route `list_jobs`. -/
def listJobs (user : UserId) (limit offset : Int) (moment : Moment) (db : Database) : Except RouteError JobListResponse :=
  if ¬ (1 ≤ limit ∧ limit ≤ 100) ∨ offset < 0 then throw .badQuery
  else do
    let items ← (((ownedJobs user db).drop offset.toNat).take limit.toNat).mapM (serializeJob reader moment db)
    return ⟨items, countOwnedJobs user db, limit, offset⟩

end

/-- The tables with the idempotency keys of the jobs, the rows that `create_job` and `cancel_job`
have committed and not yet read again, and whom the server has shown what. -/
structure JobServer where
  db : Database := {}
  keys : List ((UserId × String) × JobId) := []
  committed : List (UserId × JobId) := []
  shown : List (UserId × GenerationJobRead) := []

/-- `create` and `cancel` are the routes up to their commits, `load` is the end of both, and
`existing` is the answer of `create_job` to a key that has its job. -/
inductive ServerAction where
  | transact (operation : Operation)
  | create (idempotencyKey : Option String) (job : GenerationJob)
  | existing (user : UserId) (key : String) (moment : Moment)
  | cancel (user : UserId) (jobId : JobId) (moment : Moment)
  | load (user : UserId) (jobId : JobId) (moment : Moment)
  | get (user : UserId) (jobId : JobId) (moment : Moment)
  | list (user : UserId) (limit offset : Int) (moment : Moment)

namespace JobServer

/-- What an answer adds to what was shown. -/
def show_ (server : JobServer) (user : UserId) (reads : Except RouteError (List GenerationJobRead)) : JobServer :=
  match reads with
  | .error _ => server
  | .ok reads => { server with shown := reads.map (user, ·) ++ server.shown }

def showOne (server : JobServer) (user : UserId) (read : Except RouteError GenerationJobRead) : JobServer :=
  server.show_ user (read.map ([·]))

/-- The job of a key. -/
def keyed? (server : JobServer) (user : UserId) (key : String) : Option GenerationJob :=
  (Table.lookup Prod.fst (user, key) server.keys).bind fun entry => server.db.ownedJob? user entry.2

/-- `uq_job_user_idempotency` lets a new row with a safe key pass; a missing key never meets another. -/
def admits (server : JobServer) (user : UserId) (idempotencyKey : Option String) : Bool :=
  idempotencyKey.all fun key =>
    Funding.idempotencyKeySafe key && (Table.lookup Prod.fst (user, key) server.keys).isNone

/-- The new row of `create_job`. -/
def create (verification : Verification) (idempotencyKey : Option String) (job : GenerationJob) (server : JobServer) :
    Option JobServer :=
  if server.admits job.userId idempotencyKey then
    (perform verification (.create job) server.db).map fun db => { server with
      db := db
      keys := (idempotencyKey.map fun key => ((job.userId, key), job.id)).toList ++ server.keys
      committed := (job.userId, job.id) :: server.committed }
  else none

/-- `cancel_job`: a canceled job is shown at once, another one that ended is refused. -/
def cancel (verification : Verification) (reader : Reader) (user : UserId) (jobId : JobId) (moment : Moment)
    (server : JobServer) : Option JobServer :=
  match server.db.ownedJob? user jobId with
  | none => some server
  | some job =>
    if job.status = .canceled then some (server.showOne user (serializeJob reader moment server.db job))
    else if job.status.terminal then some server
    else (perform verification (.cancel user jobId moment.now) server.db).map fun db =>
      { server with db := db, committed := (user, jobId) :: server.committed }

def act (verification : Verification) (reader : Reader) : ServerAction → JobServer → Option JobServer
  | .transact operation, server => (perform verification operation server.db).map fun db => { server with db := db }
  | .create idempotencyKey job, server => server.create verification idempotencyKey job
  | .existing user key moment, server =>
    (server.keyed? user key).map fun job => server.showOne user (serializeJob reader moment server.db job)
  | .cancel user jobId moment, server => server.cancel verification reader user jobId moment
  | .load user jobId moment, server =>
    if (user, jobId) ∈ server.committed then
      some ({ server with committed := server.committed.erase (user, jobId) }.showOne user
        (loadCommitted reader user jobId moment server.db))
    else none
  | .get user jobId moment, server => some (server.showOne user (getJob reader user jobId moment server.db))
  | .list user limit offset moment, server =>
    some (server.show_ user ((listJobs reader user limit offset moment server.db).map (·.items)))

end JobServer

def jobServer (verification : Verification) (reader : Reader) : Machine JobServer ServerAction :=
  ⟨JobServer.act verification reader⟩

variable {reader : Reader} {db : Database} {job : GenerationJob} {read : GenerationJobRead} {user : UserId} {moment : Moment}

/-- Where an answer comes from: a request of its user, and the stored result. -/
structure Shows (reader : Reader) (db : Database) (user : UserId) (read : GenerationJobRead) : Prop where
  request : ∃ request ∈ db.jobs.map GenerationJob.request, request.id = read.id ∧ request.userId = user ∧
    request.patternType = read.pattern ∧ request.addressPrefix = read.addressPrefix ∧ request.suffix = read.suffix
  result : ∀ result ∈ read.result, ∃ stored ∈ db.results, stored.jobId = read.id ∧
    stored.address = result.address ∧ stored.verifiedAt = result.verifiedAt ∧
    reader.decrypt stored.encryptedPrivateKey = some result.privateKey

theorem serializeJob_shows (member : job ∈ db.jobs) (serialized : serializeJob reader moment db job = .ok read) :
    Shows reader db job.userId read := by
  have request (result : Option GenerationResultRead) : ∃ request ∈ db.jobs.map GenerationJob.request,
      request.id = job.id ∧ request.userId = job.userId ∧ request.patternType = job.patternType ∧
      request.addressPrefix = job.addressPrefix ∧ request.suffix = job.suffix :=
    ⟨job.request, List.mem_map_of_mem member, rfl, rfl, rfl, rfl, rfl⟩
  unfold serializeJob at serialized
  split at serialized
  · cases serialized
    exact ⟨request none, fun result shown => by cases shown⟩
  · rename_i stored known
    split at serialized
    · cases serialized
    · rename_i privateKey opened
      cases serialized
      refine ⟨request none, ?_⟩
      intro result shown
      cases shown
      exact ⟨stored, Table.mem_of_lookup known, Table.key_of_lookup known, rfl, rfl, opened⟩

/-- The row of a user, as that user is shown it. -/
theorem ownedJob_shows {jobId : JobId} (owned : db.ownedJob? user jobId = some job)
    (serialized : serializeJob reader moment db job = .ok read) : Shows reader db user read := by
  obtain ⟨found, owner⟩ := Option.filter_eq_some_iff.mp owned
  have shows_ := serializeJob_shows (Table.mem_of_lookup found) serialized
  rwa [decide_eq_true_eq.mp owner] at shows_

theorem readOwned_shows {missing : RouteError} {jobId : JobId}
    (answered : readOwned reader missing user jobId moment db = .ok read) : Shows reader db user read := by
  unfold readOwned at answered
  split at answered
  · cases answered
  · rename_i job owned
    exact ownedJob_shows owned answered

theorem mem_ownedJobs (member : job ∈ ownedJobs user db) : job ∈ db.jobs ∧ job.userId = user := by
  have unsorted := List.mem_mergeSort.mp member
  obtain ⟨present, owner⟩ := List.mem_filter.mp unsorted
  exact ⟨present, decide_eq_true_eq.mp owner⟩

theorem listJobs_shows {limit offset : Int} {listed : JobListResponse}
    (answered : listJobs reader user limit offset moment db = .ok listed) (member : read ∈ listed.items) :
    Shows reader db user read := by
  unfold listJobs at answered
  split at answered
  · cases answered
  · obtain ⟨items, made, rest⟩ := bind_eq_ok answered
    cases rest
    obtain ⟨job, present, serialized⟩ := (forall₂_covers (mapM_eq_ok made)).2 read member
    obtain ⟨known, owner⟩ := mem_ownedJobs (List.mem_of_mem_drop (List.mem_of_mem_take present))
    have shows_ := serializeJob_shows known serialized
    rwa [owner] at shows_

end TronForge.Service
