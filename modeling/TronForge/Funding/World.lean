import TronForge.Funding.Processor

/-! The world of the funding processor: the stored records, the transactions
the node has accepted, and the history of what was committed and sent. The
surroundings choose the answer to every call; `respond` checks the choice and
computes its effect, so a schedule of choices can be replayed. -/

namespace TronForge.Funding

open Library

/-- History entries, newest first in the history. -/
inductive Event where
  | prepared (id : FundingId) (ciphertext txid : String)
  | broadcast (id : FundingId) (payload txid : String)
  | rejected (id : FundingId) (payload txid : String) (status : Option FundingStatus) (held : Bool)
  | settled (id : FundingId) (status : FundingStatus)
  | failedReceipt (txid : String)
  deriving DecidableEq, Repr

structure World where
  records : Table := []
  accepted : List (String × String) := []
  history : List Event := []
  deriving DecidableEq, Repr

/-- The history entry of an update that wrote over record `id`. -/
def Mark.event (id : FundingId) : Mark → List Event
  | .prepared _ txid encrypted _ => [.prepared id encrypted txid]
  | .confirmed => [.settled id .confirmed]
  | .failed _ _ => [.settled id .failed]
  | _ => []

/-- The world after an update of record `id`; `none` if the unique constraint
rejects the commit. A missing record or a refused guard leaves the world alone. -/
def commit (id : FundingId) (mark : Mark) (now : Time) (world : World) : Option World :=
  match world.records.find? (·.id = id) with
  | none => some world
  | some funding =>
    match mark.writes now funding with
    | none => some world
    | some after =>
      let records := replace after world.records
      if UniqueTxids records then
        some { world with records, history := mark.event id ++ world.history }
      else none

/-- `recover_interrupted_work` over the whole table, in one commit. -/
def recovered (now : Time) (world : World) : World :=
  { world with records := world.records.map fun funding =>
      (recoverInterrupted now funding).getD funding }

/-- The world after `claim_next` returned `funding`. -/
def claimed (now : Time) (funding : FundingTransaction) (world : World) : World :=
  { world with records := replace (claim now funding) world.records }

/-- What the surroundings decide about one call. A commit may also reach the
database and still raise in the processor. -/
inductive Answer where
  | fails (error : Raised)
  | committed (now : Time)
  | committedThenFails (now : Time) (error : Raised)
  | claimed (funding : FundingTransaction) (now : Time)
  | claimedThenFails (funding : FundingTransaction) (now : Time) (error : Raised)
  | nothingToClaim
  | transfer (prepared : PreparedTransfer)
  | broadcast (accepted : Bool) (result : Except Raised Unit)
  | receipt (result : ReceiptResult)
  | ciphertext (token : String)
  | time (now : Time)

/-- The stored status of a record. -/
def World.status? (world : World) (id : FundingId) : Option FundingStatus :=
  (world.records.find? (·.id = id)).map (·.status)

/-- A broadcast reaches the node or not, whatever it answers. A rejection is
noted with the stored status and whether the node holds the transaction. -/
def sent (id : FundingId) (payload txid : String) (accepted : Bool) (result : Except Raised Unit)
    (world : World) : World :=
  let held := if accepted then (payload, txid) :: world.accepted else world.accepted
  let rejections : List Event := match result with
    | .error (.fundingRejected _) =>
      [.rejected id payload txid (world.status? id) (decide ((payload, txid) ∈ held))]
    | _ => []
  { world with
    accepted := held
    history := rejections ++ .broadcast id payload txid :: world.history }

def received (txid : String) (result : ReceiptResult) (world : World) : World :=
  if result.state = .failed then { world with history := .failedReceipt txid :: world.history }
  else world

/-- The reply and the next world for an admissible answer. -/
def respond (decrypt : String → Option String) (world : World) :
    (operation : Operation) → Answer → Option (Except Raised (Reply operation) × World)
  | .broadcast id payload txid, .broadcast accepted result =>
    some (result, sent id payload txid accepted result world)
  | .broadcast .., _ => none
  | _, .fails error => some (.error error, world)
  | .recoverInterruptedWork, .committed now => some (.ok (), recovered now world)
  | .recoverInterruptedWork, .committedThenFails now error =>
    some (.error error, recovered now world)
  | .update id mark, .committed now => (commit id mark now world).map (.ok (), ·)
  | .update id mark, .committedThenFails now error =>
    (commit id mark now world).map (.error error, ·)
  | .claimNext, .claimed funding now =>
    if funding ∈ world.records ∧ claimable world.records funding = true then
      some (.ok (some (claim now funding)), claimed now funding world)
    else none
  | .claimNext, .claimedThenFails funding now error =>
    if funding ∈ world.records ∧ claimable world.records funding = true then
      some (.error error, claimed now funding world)
    else none
  | .claimNext, .nothingToClaim =>
    if world.records.any (·.status.processable) then none else some (.ok none, world)
  | .prepareTransfer .., .transfer prepared => some (.ok prepared, world)
  | .receipt txid _ _ _, .receipt result => some (.ok result, received txid result world)
  | .encrypt value, .ciphertext token =>
    if decrypt token = some value then some (.ok token, world) else none
  | .now, .time now => some (.ok now, world)
  | _, _ => none

/-- The API adds funding requests at any time, under an unused key. -/
def Requested (funding : FundingTransaction) : Prop :=
  funding.status = .requested ∧ funding.txid = none ∧ funding.encryptedSignedTransaction = none

instance (funding : FundingTransaction) : Decidable (Requested funding) :=
  inferInstanceAs (Decidable (_ ∧ _ ∧ _))

def request (world : World) (funding : FundingTransaction) : Option World :=
  if Requested funding ∧ ∀ other ∈ world.records, other.id ≠ funding.id then
    some { world with records := funding :: world.records }
  else none

def surroundings (decrypt : String → Option String) : Surroundings calls Raised World where
  Answer := Answer
  Change := FundingTransaction
  respond := respond decrypt
  interfere := request

end TronForge.Funding
