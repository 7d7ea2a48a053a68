import TronForge.Library.Program
import TronForge.Funding.Repository

/-! `FundingProcessor` as a program over its repository, its gateway, the
secret box and the clock. Each call may raise; the handlers are those of the
source. -/

namespace TronForge.Funding

open Library

/-- An exception as the processor tells them apart; the text is `str(exc)`. -/
inductive Raised where
  | fundingNetworkError (message : String)
  | fundingRejected (message : String)
  | unexpected (message : String)
  deriving DecidableEq, Repr

inductive ReceiptState where
  | pending | confirmed | failed | unknown | notFound
  deriving DecidableEq, Repr

structure ReceiptResult where
  state : ReceiptState
  message : Option String := none
  deriving DecidableEq, Repr

structure PreparedTransfer where
  sourceAddress : String
  txid : String
  signedPayload : String
  expiresAt : Time
  deriving DecidableEq, Repr

/-- The calls of the processor. `broadcast` names its record only for the
history: the gateway receives the payload and the transaction id. -/
inductive Operation where
  | recoverInterruptedWork
  | claimNext
  | update (id : FundingId) (mark : Mark)
  | prepareTransfer (fundingId : FundingId) (destination : String) (amountMicroUsdt : Nat)
      (contractAddress : String)
  | broadcast (fundingId : FundingId) (signedPayload expectedTxid : String)
  | receipt (txid contractAddress destination : String) (amountMicroUsdt : Nat)
  | encrypt (value : String)
  | now

abbrev Reply : Operation → Type
  | .recoverInterruptedWork => Unit
  | .claimNext => Option FundingTransaction
  | .update _ _ => Unit
  | .prepareTransfer .. => PreparedTransfer
  | .broadcast .. => Unit
  | .receipt .. => ReceiptResult
  | .encrypt _ => String
  | .now => Time

abbrev calls : Interface := ⟨Operation, Reply⟩

abbrev Task := Program calls Raised

def call (operation : Operation) : Task (Reply operation) :=
  Program.perform (I := calls) operation

def store (id : FundingId) (mark : Mark) : Task Unit := call (.update id mark)

/-- `SecretBox.decrypt`; an undecipherable token raises. -/
def decrypted (decrypt : String → Option String) (token : String) : Task String :=
  match decrypt token with
  | some value => pure value
  | none => .raise (.unexpected "InvalidToken")

/-- Python's `message or fallback`: an empty text counts as missing. -/
def messageOr (message : Option String) (fallback : String) : String :=
  match message with
  | some text => if text = "" then fallback else text
  | none => fallback

def prepare (funding : FundingTransaction) : Task Unit := do
  match ← (call (.prepareTransfer funding.id funding.destinationAddress
      funding.amountMicroUsdt funding.contractAddress)).attempt with
  | .error (.fundingNetworkError message) => store funding.id (.retryPreparation message)
  | .error (.fundingRejected message) =>
    store funding.id (.failed "transfer_rejected" message)
  | .error error => .raise error
  | .ok prepared => do
    let encrypted ← call (.encrypt prepared.signedPayload)
    store funding.id (.prepared prepared.sourceAddress prepared.txid encrypted
      prepared.expiresAt)

def broadcast (decrypt : String → Option String) (funding : FundingTransaction) : Task Unit :=
  match funding.txid, funding.encryptedSignedTransaction with
  | some txid, some encrypted => do
    match ← (decrypted decrypt encrypted >>= fun payload =>
        call (.broadcast funding.id payload txid)).attempt with
    | .error (.fundingNetworkError message) => store funding.id (.unknown message)
    | .error (.fundingRejected message) =>
      if funding.status = .unknown then store funding.id (.unknown message)
      else store funding.id (.failed "broadcast_rejected" message)
    | .error error => .raise error
    | .ok () => store funding.id .broadcast
  | _, _ => store funding.id (.failed "signed_transaction_missing"
      "The persisted signed transaction is incomplete.")

/-- The last branch of `_confirm`: an unexpired uncertain transaction is sent
again, anything else is only noted as checked. -/
def rebroadcast (decrypt : String → Option String) (timeoutSeconds : Nat)
    (funding : FundingTransaction) : Task Unit :=
  match funding.status, funding.transactionExpiresAt with
  | .unknown, some expires => do
    let now ← call .now
    if now < expires ∧ funding.encryptedSignedTransaction.isSome then
      broadcast decrypt funding
    else store funding.id (.checked timeoutSeconds)
  | _, _ => store funding.id (.checked timeoutSeconds)

def confirm (decrypt : String → Option String) (timeoutSeconds : Nat)
    (funding : FundingTransaction) : Task Unit :=
  match funding.txid with
  | none => store funding.id (.failed "transaction_id_missing"
      "Funding transaction ID is missing.")
  | some txid => do
    match ← (call (.receipt txid funding.contractAddress funding.destinationAddress
        funding.amountMicroUsdt)).attempt with
    | .error (.fundingNetworkError message) => store funding.id (.unknown message)
    | .error error => .raise error
    | .ok receipt =>
      match receipt.state with
      | .confirmed => store funding.id .confirmed
      | .unknown => store funding.id (.unknown (messageOr receipt.message
          "The successful receipt could not be matched to the expected transfer."))
      | .failed => store funding.id (.failed "execution_failed"
          (messageOr receipt.message "The TRC-20 transfer execution failed."))
      | .pending | .notFound => rebroadcast decrypt timeoutSeconds funding

def process (decrypt : String → Option String) (timeoutSeconds : Nat)
    (funding : FundingTransaction) : Task Unit :=
  match funding.status with
  | .preparing => prepare funding
  | .signed => broadcast decrypt funding
  | .broadcast | .unknown => confirm decrypt timeoutSeconds funding
  | .requested | .confirmed | .failed => pure ()

/-- One turn of the loop in `run`; an exception of `_process` is logged and
leaves the record to reconciliation, any other one ends the process. -/
def turn (decrypt : String → Option String) (timeoutSeconds : Nat) : Task Unit := do
  match ← call .claimNext with
  | none => pure ()
  | some funding =>
    match ← (process decrypt timeoutSeconds funding).attempt with
    | .ok () => pure ()
    | .error _ => store funding.id (.unknown
        "An internal funding worker error occurred; reconciliation will continue.")

/-- `FundingProcessor.run`: recovery once, then the loop. -/
def processor (decrypt : String → Option String) (timeoutSeconds : Nat) : Process calls Raised where
  start := call .recoverInterruptedWork
  body := turn decrypt timeoutSeconds

end TronForge.Funding
