import TronForge.Library.Concurrent
import TronForge.Library.Decimal
import TronForge.Funding.Ledger

/-! `create_funding` as a program over its statements, and what the database answers to
each of them under `READ COMMITTED`. -/

namespace TronForge.Funding

open Library
open Generator (UserId JobId JobStatus)

inductive FundingMode where
  | disabled | simulator | live
  deriving DecidableEq, Repr

/-- The settings that the routes read. -/
structure Settings where
  fundingMode : FundingMode
  fundingNetwork : String
  fundingContractAddress : String
  fundingDailyLimitUsdt : Decimal

/-- `int(Decimal(settings.funding_daily_limit_usdt) * 1_000_000)`. -/
def Settings.dailyLimit (settings : Settings) : Nat := (settings.fundingDailyLimitUsdt.times (.ofNat 1000000)).truncate

structure FundingCreate where
  amount : Decimal

def FundingCreate.amountMicroUsdt (payload : FundingCreate) : Nat := (payload.amount.times (.ofNat 1000000)).truncate

/-- `IDEMPOTENCY_KEY`. -/
def idempotencyKeySafe (key : String) : Bool :=
  decide (1 ≤ key.length ∧ key.length ≤ 128) &&
    key.toList.all fun symbol => symbol.isAlphanum || ['_', '.', ':', '-'].contains symbol

/-- What the route reads of a job and its result. -/
structure FundedJob where
  id : JobId
  userId : UserId
  status : JobStatus
  resultAddress : Option String
  deriving DecidableEq, Repr

/-- The destination, if the wallet can be funded. -/
def FundedJob.destination (job : FundedJob) : Option String :=
  if job.status = .ready ∨ job.status = .ownershipVerified then job.resultAddress else none

/-- What the route sets in a new row; the other columns have their defaults. -/
structure NewFunding where
  userId : UserId
  jobId : JobId
  idempotencyKey : String
  destinationAddress : String
  amountMicroUsdt : Nat
  network : String
  contractAddress : String
  status : FundingStatus

def NewFunding.row (funding : NewFunding) (id : FundingId) (createdAt updatedAt : Time) : FundingRow where
  id := id
  userId := funding.userId
  jobId := funding.jobId
  idempotencyKey := funding.idempotencyKey
  destinationAddress := funding.destinationAddress
  amountMicroUsdt := funding.amountMicroUsdt
  network := funding.network
  contractAddress := funding.contractAddress
  status := funding.status
  createdAt := createdAt
  updatedAt := updatedAt

structure FundingRead where
  id : FundingId
  jobId : JobId
  sourceAddress : Option String
  destinationAddress : String
  amountUsdt : String
  network : String
  contractAddress : String
  status : FundingStatus
  txid : Option String
  explorerUrl : Option String
  failureCode : Option String
  failureMessage : Option String
  createdAt : Time
  updatedAt : Time
  broadcastAt : Option Time
  confirmedAt : Option Time
  deriving DecidableEq, Repr

/-- `format_micro_usdt`: no zeros at the end of the fraction. -/
def formatMicroUsdt (value : Nat) : String :=
  let fraction := (Nat.toDigits 10 (value % 1000000 + 1000000)).tail.reverse.dropWhile (· = '0')
  if fraction = [] then toString (value / 1000000)
  else toString (value / 1000000) ++ "." ++ String.ofList fraction.reverse

def transactionExplorerUrl (network : String) (txid : Option String) : Option String :=
  txid.bind fun txid =>
    let host := if network = "mainnet" then some "https://tronscan.org"
      else if network = "nile" then some "https://nile.tronscan.org"
      else if network = "shasta" then some "https://shasta.tronscan.org"
      else none
    host.map fun host => host ++ "/#/transaction/" ++ txid

def serializeFunding (funding : FundingRow) : FundingRead where
  id := funding.id
  jobId := funding.jobId
  sourceAddress := funding.sourceAddress
  destinationAddress := funding.destinationAddress
  amountUsdt := formatMicroUsdt funding.amountMicroUsdt
  network := funding.network
  contractAddress := funding.contractAddress
  status := funding.status
  txid := funding.txid
  explorerUrl := transactionExplorerUrl funding.network funding.txid
  failureCode := funding.failureCode
  failureMessage := funding.failureMessage
  createdAt := funding.createdAt
  updatedAt := funding.updatedAt
  broadcastAt := funding.broadcastAt
  confirmedAt := funding.confirmedAt

inductive RequestError where
  | httpException (statusCode : Nat) (detail : String)
  | integrityError
  | unexpected (message : String)
  deriving DecidableEq, Repr

/-- The statements of the route, and its readings of the clock. -/
inductive RequestCall where
  | lockUser (user : UserId)
  | ownedJob (jobId : JobId) (user : UserId)
  | existing (jobId : JobId)
  | now
  | reservedSince (user : UserId) (dayStart : Time)
  | insert (funding : NewFunding)
  | commit
  | rollback
  | refresh (id : FundingId)

/-- The lock tells whether there is such a user; the insert yields the row of the session. -/
abbrev RequestReply : RequestCall → Type
  | .lockUser _ => Bool
  | .ownedJob .. => Option FundedJob
  | .existing _ => Option FundingRow
  | .now => Time
  | .reservedSince .. => Nat
  | .insert _ => FundingRow
  | .commit => Unit
  | .rollback => Unit
  | .refresh _ => FundingRow

abbrev requestCalls : Interface := ⟨RequestCall, RequestReply⟩

abbrev RequestTask := Program requestCalls RequestError

def statement (operation : RequestCall) : RequestTask (RequestReply operation) :=
  Program.perform (I := requestCalls) operation

def reject (statusCode : Nat) (detail : String) : RequestTask α := .raise (.httpException statusCode detail)

/-- The handler of an `IntegrityError`. -/
def alreadyFunded (jobId : JobId) (amountMicroUsdt : Nat) : RequestTask FundingRead := do
  statement .rollback
  match ← statement (.existing jobId) with
  | some existing =>
    if existing.amountMicroUsdt = amountMicroUsdt then return serializeFunding existing
    else reject 409 "A funding request already exists."
  | none => reject 409 "A funding request already exists."

/-- `db.add` and `db.commit`: the insert is flushed, then committed. -/
def storeFunding (funding : NewFunding) : RequestTask FundingRow := do
  let row ← statement (.insert funding)
  statement .commit
  return row

def addFunding (funding : NewFunding) : RequestTask FundingRead := do
  match ← (storeFunding funding).attempt with
  | .error .integrityError => alreadyFunded funding.jobId funding.amountMicroUsdt
  | .error error => .raise error
  | .ok row => do
    let stored ← statement (.refresh row.id)
    return serializeFunding stored

/-- The check of the daily limit and what comes after it. -/
def reserveFunding (dailyLimit : Nat) (funding : NewFunding) : RequestTask FundingRead := do
  let now ← statement .now
  let reservedToday ← statement (.reservedSince funding.userId (startOfDay now))
  if dailyLimit < reservedToday + funding.amountMicroUsdt then
    reject 409 "This funding request would exceed the configured daily USDT limit."
  else addFunding funding

/-- The route under the lock of its user. -/
def createLocked (settings : Settings) (user : UserId) (jobId : JobId) (payload : FundingCreate) (key : String) :
    RequestTask FundingRead := do
  match ← statement (.ownedJob jobId user) with
  | none => reject 404 "Generation job not found."
  | some job =>
    match job.destination with
    | none => reject 409 "Only a verified, completed wallet can be funded."
    | some address =>
      match ← statement (.existing job.id) with
      | some existing =>
        if existing.amountMicroUsdt ≠ payload.amountMicroUsdt then
          reject 409 "This wallet already has a funding request for a different amount."
        else return serializeFunding existing
      | none => reserveFunding settings.dailyLimit {
          userId := user
          jobId := job.id
          idempotencyKey := key
          destinationAddress := address
          amountMicroUsdt := payload.amountMicroUsdt
          network := settings.fundingNetwork
          contractAddress := settings.fundingContractAddress
          status := .requested }

def createFunding (settings : Settings) (user : UserId) (jobId : JobId) (payload : FundingCreate)
    (idempotencyKey : Option String) : RequestTask FundingRead :=
  if settings.fundingMode = .disabled then reject 503 "Wallet funding is disabled on this server."
  else
    match idempotencyKey.filter idempotencyKeySafe with
    | none => reject 400 "A 1-128 character safe ASCII Idempotency-Key is required."
    | some key => do
      if ← statement (.lockUser user) then createLocked settings user jobId payload key
      else reject 401 "User is unavailable."

/-- A request as it arrives. -/
structure FundingRequest where
  user : UserId
  jobId : JobId
  payload : FundingCreate
  idempotencyKey : Option String

/-- What the surroundings decide about a statement: it fails, the database does it, it does
it and the reply is lost, or what else the reply depends on. -/
inductive RequestAnswer where
  | fails (error : RequestError)
  | done
  | doneThenFails (error : RequestError)
  | noUser
  | job (job : Option FundedJob)
  | time (now : Time)
  | inserted (id : FundingId) (createdAt updatedAt : Time)

/-- The constraints on the amount and on unique columns, against the committed rows. -/
def NewFunding.admitted (funding : NewFunding) (rows : List FundingRow) : Bool :=
  decide (1000000 ≤ funding.amountMicroUsdt ∧ funding.amountMicroUsdt ≤ 1500000000) &&
    rows.all fun row => decide (row.jobId ≠ funding.jobId) &&
      !(decide (row.userId = funding.userId) && decide (row.idempotencyKey = funding.idempotencyKey))

/-- The statement of a session, if the answer is possible. A lock that another session
holds is waited for, and so is the insert of a key that another session has inserted. -/
def respondRequest (session : Nat) (ledger : Ledger) : (operation : RequestCall) → RequestAnswer →
    Option (Except RequestError (RequestReply operation) × Ledger)
  | _, .fails error => some (.error error, ledger)
  | .lockUser user, .done =>
    if ledger.holder user = none ∨ ledger.holder user = some session then some (.ok true, ledger.lock session user)
    else none
  | .lockUser _, .noUser => some (.ok false, ledger)
  | .ownedJob jobId user, .job job =>
    if job.all fun job => decide (job.id = jobId ∧ job.userId = user) then some (.ok job, ledger) else none
  | .existing jobId, .done => some (.ok (ledger.rows.find? fun row => decide (row.jobId = jobId)), ledger)
  | .now, .time now => if ledger.clock ≤ now then some (.ok now, ledger.tick now) else none
  | .reservedSince user dayStart, .done => some (.ok (reservedSince user dayStart ledger.rows), ledger)
  | .insert funding, .inserted id createdAt updatedAt =>
    if ledger.clock ≤ createdAt ∧ createdAt ≤ updatedAt ∧
        (∀ known ∈ ledger.pending.map Prod.snd ++ ledger.rows, known.id ≠ id) ∧
        funding.admitted ledger.rows ∧ funding.admitted ((ledger.others session).map Prod.snd) then
      some (.ok (funding.row id createdAt updatedAt),
        (ledger.tick updatedAt).insert session (funding.row id createdAt updatedAt))
    else none
  | .insert funding, .done => if funding.admitted ledger.rows then none else some (.error .integrityError, ledger)
  | .commit, .done => some (.ok (), ledger.commit session)
  | .commit, .doneThenFails error => some (.error error, ledger.commit session)
  | .rollback, .done => some (.ok (), ledger.rollback session)
  | .refresh id, .done =>
    (ledger.rows.find? fun row => decide (row.id = id)).map fun row => (.ok row, ledger)
  | _, _ => none

/-- The sessions of all requests. -/
def requests (settings : Settings) : Sharing requestCalls RequestError FundingRead Ledger where
  Task := FundingRequest
  Answer := RequestAnswer
  code request := createFunding settings request.user request.jobId request.payload request.idempotencyKey
  respond := respondRequest
  release := Ledger.rollback

end TronForge.Funding
