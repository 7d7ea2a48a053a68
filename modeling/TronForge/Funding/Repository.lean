import Mathlib.Data.List.Nodup

/-! The funding table and the guarded updates of `FundingRepository`. Every
update opens a session, reads the record by its key, returns early when its
guard refuses the stored status, and otherwise commits. -/

namespace TronForge.Funding

abbrev FundingId := Nat

/-- A UTC instant in microseconds. -/
abbrev Time := Nat

inductive FundingStatus where
  | requested | preparing | signed | broadcast | confirmed | failed | unknown
  deriving DecidableEq, Repr

def FundingStatus.processable : FundingStatus → Bool
  | .requested | .signed | .broadcast | .unknown => true
  | .preparing | .confirmed | .failed => false

/-- The states a record never leaves. -/
def FundingStatus.settled : FundingStatus → Bool
  | .confirmed | .failed => true
  | _ => false

/-- The states from which a signature can still be stored. -/
def FundingStatus.unsigned : FundingStatus → Bool
  | .requested | .preparing => true
  | _ => false

structure FundingTransaction where
  id : FundingId
  destinationAddress : String
  amountMicroUsdt : Nat
  contractAddress : String
  status : FundingStatus
  createdAt : Time
  updatedAt : Time
  sourceAddress : Option String := none
  txid : Option String := none
  encryptedSignedTransaction : Option String := none
  transactionExpiresAt : Option Time := none
  attemptCount : Nat := 0
  failureCode : Option String := none
  failureMessage : Option String := none
  broadcastAt : Option Time := none
  confirmedAt : Option Time := none
  lastCheckedAt : Option Time := none
  deriving DecidableEq, Repr

abbrev Table := List FundingTransaction

/-- Python's `text[:length]`. -/
def slice (text : String) (length : Nat) : String := String.ofList (text.toList.take length)

/-- `recover_interrupted_work` on one record. -/
def recoverInterrupted (now : Time) (funding : FundingTransaction) : Option FundingTransaction :=
  if funding.status = .preparing then
    some { funding with
      status := .requested
      failureCode := some "worker_restarted"
      failureMessage := some "Funding preparation will be retried after worker restart."
      updatedAt := now }
  else none

/-- The part of `claim_next` that writes: only a requested record changes. -/
def claim (now : Time) (funding : FundingTransaction) : FundingTransaction :=
  if funding.status = .requested then
    { funding with
      status := .preparing
      attemptCount := funding.attemptCount + 1
      failureCode := none
      failureMessage := none
      updatedAt := now }
  else funding

/-- `BROADCAST` first, then `UNKNOWN`, then `SIGNED`, then `REQUESTED`. -/
def priority : FundingStatus → Nat
  | .broadcast => 0
  | .unknown => 1
  | .signed => 2
  | _ => 3

/-- The `ORDER BY` of `claim_next`; rows with equal keys come in any order. -/
def claimsBefore (left right : FundingTransaction) : Bool :=
  decide (priority left.status < priority right.status ∨
    priority left.status = priority right.status ∧
      (left.updatedAt < right.updatedAt ∨
        left.updatedAt = right.updatedAt ∧ left.createdAt < right.createdAt))

/-- A row the `SELECT ... LIMIT 1` of `claim_next` may return. -/
def claimable (records : Table) (funding : FundingTransaction) : Bool :=
  funding.status.processable &&
    records.all fun other => !(other.status.processable && claimsBefore other funding)

def markPrepared (sourceAddress txid encrypted : String) (expiresAt now : Time)
    (funding : FundingTransaction) : Option FundingTransaction :=
  if funding.status ≠ .preparing then none
  else some { funding with
    sourceAddress := some sourceAddress
    txid := some txid
    encryptedSignedTransaction := some encrypted
    transactionExpiresAt := some expiresAt
    status := .signed
    updatedAt := now }

def retryPreparation (message : String) (now : Time) (funding : FundingTransaction) :
    Option FundingTransaction :=
  if funding.status ≠ .preparing then none
  else some { funding with
    status := .requested
    failureCode := some "node_unavailable"
    failureMessage := some (slice message 1000)
    updatedAt := now }

def markBroadcast (now : Time) (funding : FundingTransaction) : Option FundingTransaction :=
  if funding.status ≠ .signed ∧ funding.status ≠ .unknown then none
  else some { funding with
    status := .broadcast
    broadcastAt := some (funding.broadcastAt.getD now)
    lastCheckedAt := some now
    failureCode := none
    failureMessage := none
    updatedAt := now }

def markUnknown (message : String) (now : Time) (funding : FundingTransaction) :
    Option FundingTransaction :=
  if funding.status = .confirmed ∨ funding.status = .failed then none
  else some { funding with
    status := .unknown
    lastCheckedAt := some now
    failureCode := some "broadcast_outcome_unknown"
    failureMessage := some (slice message 1000)
    updatedAt := now }

/-- Whether `mark_checked` finds the confirmation overdue. -/
def confirmationDelayed (timeoutSeconds : Nat) (now : Time) (funding : FundingTransaction) : Bool :=
  decide (funding.status = .broadcast) &&
    match funding.broadcastAt with
    | some since => decide (timeoutSeconds * 1000000 < now - since)
    | none => false

def markChecked (timeoutSeconds : Nat) (now : Time) (funding : FundingTransaction) :
    Option FundingTransaction :=
  if confirmationDelayed timeoutSeconds now funding then
    some { funding with
      lastCheckedAt := some now
      status := .unknown
      failureCode := some "confirmation_delayed"
      failureMessage := some ("No solidified receipt was found before the confirmation timeout. " ++
        "The original transaction will continue to be reconciled.")
      updatedAt := now }
  else some { funding with lastCheckedAt := some now, updatedAt := now }

def markConfirmed (now : Time) (funding : FundingTransaction) : Option FundingTransaction :=
  some { funding with
    status := .confirmed
    confirmedAt := some now
    lastCheckedAt := some now
    failureCode := none
    failureMessage := none
    encryptedSignedTransaction := none
    updatedAt := now }

def markFailed (code message : String) (now : Time) (funding : FundingTransaction) :
    Option FundingTransaction :=
  if funding.status = .confirmed then none
  else some { funding with
    status := .failed
    failureCode := some (slice code 64)
    failureMessage := some (slice message 1000)
    lastCheckedAt := some now
    encryptedSignedTransaction := none
    updatedAt := now }

/-- The updates of one record, read by its key. -/
inductive Mark where
  | prepared (sourceAddress txid encrypted : String) (expiresAt : Time)
  | retryPreparation (message : String)
  | broadcast
  | unknown (message : String)
  | checked (timeoutSeconds : Nat)
  | confirmed
  | failed (code message : String)

/-- What the update commits, `none` when its guard returns first. -/
def Mark.writes (now : Time) (funding : FundingTransaction) : Mark → Option FundingTransaction
  | .prepared source txid encrypted expires => markPrepared source txid encrypted expires now funding
  | .retryPreparation message => Funding.retryPreparation message now funding
  | .broadcast => markBroadcast now funding
  | .unknown message => markUnknown message now funding
  | .checked timeout => markChecked timeout now funding
  | .confirmed => markConfirmed now funding
  | .failed code message => markFailed code message now funding

/-- The unique constraint on `txid`; empty values do not collide. -/
def UniqueTxids (records : Table) : Prop := (records.filterMap (·.txid)).Nodup

instance (records : Table) : Decidable (UniqueTxids records) :=
  inferInstanceAs (Decidable (records.filterMap (·.txid)).Nodup)

/-- Write one record back under its primary key. -/
def replace (after : FundingTransaction) (records : Table) : Table :=
  records.map fun other => if other.id = after.id then after else other

theorem mem_replace {after other : FundingTransaction} {records : Table}
    (member : other ∈ replace after records) :
    other = after ∨ other ∈ records ∧ other.id ≠ after.id := by
  obtain ⟨before, present, same⟩ := List.mem_map.mp member
  by_cases key : before.id = after.id
  · left
    simpa [key] using same.symm
  · right
    simp only [key, ↓reduceIte] at same
    subst other
    exact ⟨present, key⟩

theorem mem_replace_self {before after : FundingTransaction} {records : Table}
    (member : before ∈ records) (key : before.id = after.id) : after ∈ replace after records :=
  List.mem_map.mpr ⟨before, member, by simp [key]⟩

theorem mem_replace_of_ne {after other : FundingTransaction} {records : Table}
    (member : other ∈ records) (different : other.id ≠ after.id) : other ∈ replace after records :=
  List.mem_map.mpr ⟨other, member, by simp [different]⟩

theorem ids_replace (after : FundingTransaction) (records : Table) :
    (replace after records).map (·.id) = records.map (·.id) := by
  rw [replace, List.map_map]
  apply List.map_congr_left
  intro other _
  by_cases key : other.id = after.id <;> simp [key]

/-- What one update can do to a record: store a signed payload over a preparing
record, move it without touching its payload, or settle it. -/
inductive Written (mark : Mark) (funding after : FundingTransaction) : Prop where
  | prepared (source ciphertext hash : String) (expires : Time)
      (request : mark = .prepared source hash ciphertext expires)
      (before : funding.status = .preparing) (status : after.status = .signed)
      (txid : after.txid = some hash)
      (payload : after.encryptedSignedTransaction = some ciphertext)
  | moved (txid : after.txid = funding.txid)
      (payload : after.encryptedSignedTransaction = funding.encryptedSignedTransaction)
      (settled : after.status.settled = funding.status.settled)
      (unsigned : after.status.unsigned = true → funding.status.unsigned = true)
      (failed : after.status = .failed → funding.status = .failed)
      (request : (∀ source hash ciphertext expires, mark ≠ .prepared source hash ciphertext expires) ∧
        mark ≠ .confirmed ∧ ∀ code message, mark ≠ .failed code message)
  | confirmed (request : mark = .confirmed) (txid : after.txid = funding.txid)
      (payload : after.encryptedSignedTransaction = none) (status : after.status = .confirmed)
  | failed (code message : String) (request : mark = .failed code message)
      (txid : after.txid = funding.txid) (payload : after.encryptedSignedTransaction = none)
      (status : after.status = .failed)

theorem Mark.written {mark : Mark} {now : Time} {funding after : FundingTransaction}
    (writes : mark.writes now funding = some after) :
    after.id = funding.id ∧ Written mark funding after := by
  cases mark with
  | prepared source hash ciphertext expires =>
    simp only [Mark.writes, markPrepared] at writes
    split at writes
    · cases writes
    · rename_i preparing
      cases writes
      exact ⟨rfl, .prepared source ciphertext hash expires rfl (not_not.mp preparing) rfl rfl rfl⟩
  | retryPreparation message =>
    simp only [Mark.writes, Funding.retryPreparation] at writes
    split at writes
    · cases writes
    · rename_i preparing
      cases writes
      have status := not_not.mp preparing
      exact ⟨rfl, .moved rfl rfl (by simp [status, FundingStatus.settled])
        (by simp [status, FundingStatus.unsigned]) (by simp) (by simp)⟩
  | broadcast =>
    simp only [Mark.writes, markBroadcast] at writes
    split at writes
    · cases writes
    · rename_i sendable
      cases writes
      have status : funding.status = .signed ∨ funding.status = .unknown := by
        by_contra neither
        exact sendable ⟨fun same => neither (.inl same), fun same => neither (.inr same)⟩
      refine ⟨rfl, .moved rfl rfl ?_ (by simp [FundingStatus.unsigned]) (by simp) (by simp)⟩
      rcases status with same | same <;> simp [same, FundingStatus.settled]
  | unknown message =>
    simp only [Mark.writes, markUnknown] at writes
    split at writes
    · cases writes
    · rename_i unsettled
      cases writes
      refine ⟨rfl, .moved rfl rfl ?_ (by simp [FundingStatus.unsigned]) (by simp) (by simp)⟩
      cases same : funding.status <;> simp [same, FundingStatus.settled] at unsettled ⊢
  | checked timeout =>
    simp only [Mark.writes, markChecked] at writes
    split at writes
    · rename_i delayed
      cases writes
      have status : funding.status = .broadcast := by
        simp only [confirmationDelayed, Bool.and_eq_true, decide_eq_true_eq] at delayed
        exact delayed.1
      exact ⟨rfl, .moved rfl rfl (by simp [status, FundingStatus.settled])
        (by simp [FundingStatus.unsigned]) (by simp) (by simp)⟩
    · cases writes
      exact ⟨rfl, .moved rfl rfl rfl id id (by simp)⟩
  | confirmed =>
    cases writes
    exact ⟨rfl, .confirmed rfl rfl rfl rfl⟩
  | failed code message =>
    simp only [Mark.writes, markFailed] at writes
    split at writes
    · cases writes
    · cases writes
      exact ⟨rfl, .failed code message rfl rfl rfl rfl⟩

end TronForge.Funding
