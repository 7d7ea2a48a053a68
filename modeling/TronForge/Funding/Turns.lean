import TronForge.Funding.Evolution

/-! What a turn of the loop does to the record it claimed: no path through the
handlers ends before an update of that record is answered, and every update the
turn makes is one that the claimed status accepts. -/

namespace TronForge.Funding

open Library

variable {decrypt : String → Option String} {timeoutSeconds : Nat} {funding : FundingTransaction}

/-- Calls that neither claim nor update. -/
def Silent : Operation → Prop
  | .update _ _ | .claimNext | .recoverInterruptedWork => False
  | _ => True

/-- Calls that update allowed records only, and claim none. -/
def Updates (allowed : FundingId → Prop) : Operation → Prop
  | .update id _ => allowed id
  | .claimNext | .recoverInterruptedWork => False
  | _ => True

/-- Calls on a claimed record: its updates are never refused. -/
def Works (funding : FundingTransaction) : Operation → Prop
  | .update id mark => id = funding.id ∧ ∀ now, (mark.writes now funding).isSome = true
  | .claimNext | .recoverInterruptedWork => False
  | _ => True

/-- An update that was answered without an exception. -/
def updated : (operation : Operation) → Except Raised (Reply operation) → Bool
  | .update _ _, .ok _ => true
  | _, _ => false

/-- The program cannot end before an update of the claimed record is answered. -/
def Touching (funding : FundingTransaction) : Task α → Prop
  | .done _ => False
  | .raise _ => True
  | .call operation next => Works funding operation ∧ ∀ reply : Except Raised (Reply operation),
      if updated operation reply then (next reply).CallsOnly (Updates (· = funding.id)) else Touching funding (next reply)

theorem Works.updates {operation : Operation} (works : Works funding operation) : Updates (· = funding.id) operation := by
  cases operation with
  | update id mark => exact works.1
  | claimNext => exact works
  | recoverInterruptedWork => exact works
  | _ => trivial

theorem Touching.callsOnly {task : Task α} (touching : Touching funding task) :
    task.CallsOnly (Updates (· = funding.id)) := by
  induction task with
  | done value => cases touching
  | raise error => trivial
  | call operation next ih =>
    obtain ⟨works, rest⟩ := touching
    refine ⟨works.updates, ?_⟩
    intro reply
    have after := rest reply
    split at after
    · exact after
    · exact ih reply after

theorem touching_store {mark : Mark} (accepted : ∀ now, (mark.writes now funding).isSome = true) :
    Touching funding (store funding.id mark) := by
  refine ⟨⟨rfl, accepted⟩, ?_⟩
  intro reply
  cases reply with
  | error error => trivial
  | ok done => trivial

/-- Silent calls come first. -/
theorem touching_of_silent {task : Task α} {rest : α → Task β} (silent : task.CallsOnly Silent)
    (touching : ∀ value, Touching funding (rest value)) : Touching funding (task >>= rest) := by
  induction task with
  | done value => exact touching value
  | raise error => trivial
  | call operation next ih =>
    obtain ⟨quiet, remaining⟩ := silent
    constructor
    · cases operation <;> trivial
    · intro reply
      have never : updated operation reply = false := by
        cases operation <;> first | rfl | cases quiet
      rw [never]
      exact ih reply (remaining reply)

/-- A handler that touches the record makes up for an exception. -/
theorem Touching.handled {task : Task α} {rest : Except Raised α → Task β} (touching : Touching funding task)
    (handler : ∀ error, Touching funding (rest (.error error)))
    (goesOn : ∀ value, (rest (.ok value)).CallsOnly (Updates (· = funding.id))) :
    Touching funding (task.attempt >>= rest) := by
  induction task with
  | done value => cases touching
  | raise error => exact handler error
  | call operation next ih =>
    obtain ⟨works, remaining⟩ := touching
    refine ⟨works, ?_⟩
    intro reply
    have after := remaining reply
    by_cases answered : updated operation reply = true
    · rw [if_pos answered] at after ⊢
      refine Program.CallsOnly.bind after.attempt ?_
      intro outcome
      cases outcome with
      | error error => exact (handler error).callsOnly
      | ok value => exact goesOn value
    · rw [if_neg answered] at after ⊢
      exact ih reply after

theorem silent_call {operation : Operation} (silent : Silent operation) : (call operation).CallsOnly Silent :=
  Program.callsOnly_perform silent

/-- The marks that a status accepts. -/
theorem accepts_unknown (message : String) (unsettled : funding.status.settled = false) (now : Time) :
    ((Mark.unknown message).writes now funding).isSome = true := by
  cases status : funding.status <;> simp [status, FundingStatus.settled, Mark.writes, markUnknown] at unsettled ⊢

theorem accepts_failed (code message : String) (unsettled : funding.status.settled = false) (now : Time) :
    ((Mark.failed code message).writes now funding).isSome = true := by
  cases status : funding.status <;> simp [status, FundingStatus.settled, Mark.writes, markFailed] at unsettled ⊢

theorem accepts_checked (timeout : Nat) (now : Time) :
    ((Mark.checked timeout).writes now funding).isSome = true := by
  simp only [Mark.writes, markChecked]
  split <;> rfl

theorem prepare_touching (preparing : funding.status = .preparing) : Touching funding (prepare funding) := by
  have unsettled : funding.status.settled = false := by simp [preparing, FundingStatus.settled]
  apply touching_of_silent (silent_call (by trivial)).attempt
  intro outcome
  split
  · exact touching_store fun now => by simp [Mark.writes, retryPreparation, preparing]
  · exact touching_store (accepts_failed _ _ unsettled)
  · trivial
  · apply touching_of_silent (silent_call (by trivial))
    intro ciphertext
    exact touching_store fun now => by simp [Mark.writes, markPrepared, preparing]

theorem broadcast_touching (sendable : funding.status = .signed ∨ funding.status = .unknown) :
    Touching funding (broadcast decrypt funding) := by
  have unsettled : funding.status.settled = false := by
    rcases sendable with same | same <;> simp [same, FundingStatus.settled]
  unfold broadcast
  split
  · have silent (encrypted txid : String) : (decrypted decrypt encrypted >>= fun payload =>
        call (.broadcast funding.id payload txid)).CallsOnly Silent := by
      apply Program.CallsOnly.bind
      · unfold decrypted
        split <;> trivial
      · intro payload
        exact silent_call (by trivial)
    apply touching_of_silent (Program.CallsOnly.attempt (silent _ _))
    intro outcome
    split
    · exact touching_store (accepts_unknown _ unsettled)
    · split
      · exact touching_store (accepts_unknown _ unsettled)
      · exact touching_store (accepts_failed _ _ unsettled)
    · trivial
    · apply touching_store
      intro now
      rcases sendable with same | same <;> simp [Mark.writes, markBroadcast, same]
  · exact touching_store (accepts_failed _ _ unsettled)

theorem rebroadcast_touching : Touching funding (rebroadcast decrypt timeoutSeconds funding) := by
  unfold rebroadcast
  split
  · rename_i expires unknown _
    apply touching_of_silent (silent_call (by trivial))
    intro now
    split
    · exact broadcast_touching (.inr unknown)
    · exact touching_store (accepts_checked _)
  · exact touching_store (accepts_checked _)

theorem confirm_touching (unsettled : funding.status.settled = false) :
    Touching funding (confirm decrypt timeoutSeconds funding) := by
  unfold confirm
  split
  · exact touching_store (accepts_failed _ _ unsettled)
  · apply touching_of_silent (silent_call (by trivial)).attempt
    intro outcome
    split
    · exact touching_store (accepts_unknown _ unsettled)
    · trivial
    · split
      · exact touching_store fun now => rfl
      · exact touching_store (accepts_unknown _ unsettled)
      · exact touching_store (accepts_failed _ _ unsettled)
      · exact rebroadcast_touching
      · exact rebroadcast_touching

/-- The statuses of a claimed record. -/
def FundingStatus.claimed : FundingStatus → Bool
  | .preparing | .signed | .broadcast | .unknown => true
  | .requested | .confirmed | .failed => false

theorem process_touching (claimed : funding.status.claimed = true) :
    Touching funding (process decrypt timeoutSeconds funding) := by
  unfold process
  split
  · rename_i status
    exact prepare_touching status
  · rename_i status
    exact broadcast_touching (.inl status)
  · rename_i status
    exact confirm_touching (by simp [status, FundingStatus.settled])
  · rename_i status
    exact confirm_touching (by simp [status, FundingStatus.settled])
  all_goals
    rename_i status
    simp [status, FundingStatus.claimed] at claimed

/-- The rest of a turn once a record is claimed. -/
def turnOn (decrypt : String → Option String) (timeoutSeconds : Nat) (funding : FundingTransaction) : Task Unit := do
  match ← (process decrypt timeoutSeconds funding).attempt with
  | .ok () => pure ()
  | .error _ => store funding.id (.unknown
      "An internal funding worker error occurred; reconciliation will continue.")

theorem turnOn_touching (claimed : funding.status.claimed = true) :
    Touching funding (turnOn decrypt timeoutSeconds funding) := by
  have unsettled : funding.status.settled = false := by
    cases status : funding.status <;> simp [status, FundingStatus.claimed, FundingStatus.settled] at claimed ⊢
  apply (process_touching claimed).handled
  · intro error
    exact touching_store (accepts_unknown _ unsettled)
  · intro value
    trivial

theorem claim_claimed (now : Time) (processable : funding.status.processable = true) :
    (claim now funding).status.claimed = true := by
  unfold claim
  split
  · rfl
  · rename_i unrequested
    cases status : funding.status <;>
      simp [status, FundingStatus.claimed, FundingStatus.processable] at processable unrequested ⊢

/-- What follows a reply of `claim_next`. -/
def afterClaim (decrypt : String → Option String) (timeoutSeconds : Nat) :
    Except Raised (Option FundingTransaction) → Task Unit
  | .ok none => .done ()
  | .ok (some funding) => turnOn decrypt timeoutSeconds funding
  | .error error => .raise error

theorem turn_eq (decrypt : String → Option String) (timeoutSeconds : Nat) :
    turn decrypt timeoutSeconds = .call .claimNext (afterClaim decrypt timeoutSeconds) := by
  refine congrArg (Program.call (I := calls) .claimNext) (funext ?_)
  intro reply
  cases reply with
  | error error => rfl
  | ok found => cases found <;> rfl

end TronForge.Funding
