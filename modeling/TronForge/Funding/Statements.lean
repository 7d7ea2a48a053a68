import TronForge.Funding.Processor
import TronForge.Funding.Reservations

/-! The repository of the processor as programs over its statements, beside the sessions of
the requests. -/

namespace TronForge.Funding

open Library

/-- The statements of the repository, the readings of the clock and the calls to the gateway
and the secret box. -/
inductive StoreCall where
  | selectInterrupted
  | selectNext
  | get (id : FundingId)
  | commit (written : Table)
  | now
  | prepareTransfer (fundingId : FundingId) (destination : String) (amountMicroUsdt : Nat) (contractAddress : String)
  | broadcast (fundingId : FundingId) (signedPayload expectedTxid : String)
  | receipt (txid contractAddress destination : String) (amountMicroUsdt : Nat)
  | encrypt (value : String)

abbrev StoreReply : StoreCall → Type
  | .selectInterrupted => Table
  | .selectNext => Option FundingTransaction
  | .get _ => Option FundingTransaction
  | .commit _ => Unit
  | .now => Time
  | .prepareTransfer .. => PreparedTransfer
  | .broadcast .. => Unit
  | .receipt .. => ReceiptResult
  | .encrypt _ => String

abbrev storeCalls : Interface := ⟨StoreCall, StoreReply⟩

abbrev StoreTask := Program storeCalls Raised

def query (operation : StoreCall) : StoreTask (StoreReply operation) := Program.perform (I := storeCalls) operation

/-- `recover_interrupted_work`. -/
def recoverWork : StoreTask Unit := do
  let interrupted ← query .selectInterrupted
  let now ← query .now
  query (.commit (interrupted.filterMap (recoverInterrupted now)))

/-- `claim_next`; only a requested record is written. -/
def claimNext : StoreTask (Option FundingTransaction) := do
  match ← query .selectNext with
  | none => return none
  | some funding =>
    if funding.status = .requested then do
      let now ← query .now
      query (.commit [claim now funding])
      return some (claim now funding)
    else return some funding

/-- A guarded update: the record is read by its key, and committed if the guard allows it. -/
def updateRecord (id : FundingId) (mark : Mark) : StoreTask Unit := do
  match ← query (.get id) with
  | none => return ()
  | some funding => do
    let now ← query .now
    match mark.writes now funding with
    | none => return ()
    | some after => query (.commit [after])

/-- The statements behind the calls of the processor. -/
def implement : (operation : Operation) → StoreTask (Reply operation)
  | .recoverInterruptedWork => recoverWork
  | .claimNext => claimNext
  | .update id mark => updateRecord id mark
  | .prepareTransfer id destination amount contract => query (.prepareTransfer id destination amount contract)
  | .broadcast id payload txid => query (.broadcast id payload txid)
  | .receipt txid contract destination amount => query (.receipt txid contract destination amount)
  | .encrypt value => query (.encrypt value)
  | .now => query .now

/-- The processor, statement by statement. -/
def storeProcessor (decrypt : String → Option String) (timeoutSeconds : Nat) : Process storeCalls Raised where
  start := (processor decrypt timeoutSeconds).start.handle implement
  body := (processor decrypt timeoutSeconds).body.handle implement

/-- The rows as the processor maps them. -/
def Ledger.records (ledger : Ledger) : Table := ledger.rows.map FundingRow.toFundingTransaction

/-- The row after the update of the written records. -/
def FundingRow.write (written : Table) (row : FundingRow) : FundingRow :=
  match written.find? fun after => decide (after.id = row.id) with
  | some after => { row with toFundingTransaction := after }
  | none => row

def Ledger.write (written : Table) (ledger : Ledger) : Ledger := { ledger with rows := ledger.rows.map (·.write written) }

inductive StoreAnswer where
  | fails (error : Raised)
  | done
  | doneThenFails (error : Raised)
  | chosen (funding : FundingTransaction)
  | nothing
  | time (now : Time)
  | transfer (prepared : PreparedTransfer)
  | sent (result : Except Raised Unit)
  | receipt (result : ReceiptResult)
  | ciphertext (token : String)

/-- A statement of the processor, if the answer is possible. -/
def respondStore (decrypt : String → Option String) (ledger : Ledger) : (operation : StoreCall) → StoreAnswer →
    Option (Except Raised (StoreReply operation) × Ledger)
  | _, .fails error => some (.error error, ledger)
  | .selectInterrupted, .done =>
    some (.ok (ledger.records.filter fun funding => decide (funding.status = .preparing)), ledger)
  | .selectNext, .chosen funding =>
    if funding ∈ ledger.records ∧ claimable ledger.records funding = true then some (.ok (some funding), ledger) else none
  | .selectNext, .nothing =>
    if ledger.records.any fun funding => funding.status.processable then none else some (.ok none, ledger)
  | .get id, .done => some (.ok (ledger.records.find? fun funding => decide (funding.id = id)), ledger)
  | .commit written, .done =>
    if UniqueTxids (ledger.write written).records then some (.ok (), ledger.write written) else none
  | .commit written, .doneThenFails error =>
    if UniqueTxids (ledger.write written).records then some (.error error, ledger.write written) else none
  | .now, .time now => if ledger.clock ≤ now then some (.ok now, ledger.tick now) else none
  | .prepareTransfer .., .transfer prepared => some (.ok prepared, ledger)
  | .broadcast .., .sent result => some (result, ledger)
  | .receipt .., .receipt result => some (.ok result, ledger)
  | .encrypt value, .ciphertext token => if decrypt token = some value then some (.ok token, ledger) else none
  | _, _ => none

/-- The sessions of the requests over the shared ledger. -/
abbrev Sessions := Pool requestCalls RequestError FundingRead Ledger

/-- The processor among the requests. -/
def storeSurroundings (settings : Settings) (decrypt : String → Option String) :
    Surroundings storeCalls Raised Sessions where
  Answer := StoreAnswer
  Change := (requests settings).Event
  respond sessions operation answer :=
    (respondStore decrypt sessions.world operation answer).map fun (reply, after) =>
      (reply, { sessions with world := after })
  interfere sessions event := (requests settings).step event sessions

end TronForge.Funding
