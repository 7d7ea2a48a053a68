import TronForge.Funding.Payments

/-! What one call of the processor may do to the stored records, said once: each
record is kept, recovered, claimed, or written by the update of its own key. -/

namespace TronForge.Funding

open Library

variable {decrypt : String → Option String}

/-- The time that an answer stores. -/
def Answer.stores : Answer → Option Time
  | .committed now | .committedThenFails now _ | .claimed _ now | .claimedThenFails _ now _ => some now
  | _ => none

/-- The record that an answer claims; only `claim_next` is answered with a record. -/
def Answer.picks : Answer → Option FundingTransaction
  | .claimed funding _ | .claimedThenFails funding _ _ => some funding
  | _ => none

/-- What one answered call may do to one record. -/
inductive Evolves (operation : Operation) (answer : Answer) (funding after : FundingTransaction) : Prop where
  | kept (same : after = funding)
  | recovered (now : Time) (request : operation = .recoverInterruptedWork) (stores : answer.stores = some now)
      (recovers : recoverInterrupted now funding = some after)
  | claimed (now : Time) (request : operation = .claimNext) (stores : answer.stores = some now)
      (picks : answer.picks = some funding) (same : after = claim now funding)
  | written (now : Time) (mark : Mark) (request : operation = .update funding.id mark)
      (stores : answer.stores = some now) (writes : mark.writes now funding = some after)

section
variable {operation : Operation} {answer : Answer} {funding after : FundingTransaction}

theorem Evolves.id (evolves : Evolves operation answer funding after) : after.id = funding.id := by
  cases evolves with
  | kept same => rw [same]
  | recovered now request stores recovers =>
    unfold recoverInterrupted at recovers
    split at recovers
    · cases recovers
      rfl
    · cases recovers
  | claimed now request stores picks same =>
    rw [same]
    exact (moved_claim now funding).id
  | written now mark request stores writes => exact (Mark.written writes).1

/-- A stored transaction id is never erased. -/
theorem Evolves.txid (evolves : Evolves operation answer funding after)
    (stored : funding.txid.isSome = true) : after.txid.isSome = true := by
  cases evolves with
  | kept same => rwa [same]
  | recovered now request stores recovers =>
    unfold recoverInterrupted at recovers
    split at recovers
    · cases recovers
      exact stored
    · cases recovers
  | claimed now request stores picks same =>
    rw [same, (moved_claim now funding).txid]
    exact stored
  | written now mark request stores writes =>
    cases (Mark.written writes).2 with
    | prepared _ _ _ _ _ _ _ txid _ => simp [txid]
    | moved txid _ _ _ _ _ => rwa [txid]
    | confirmed _ txid _ _ => rwa [txid]
    | failed _ _ _ txid _ _ => rwa [txid]

/-- Only its own update confirms a record. -/
theorem Evolves.confirmed (evolves : Evolves operation answer funding after)
    (confirmed : after.status = .confirmed) :
    funding.status = .confirmed ∨ operation = .update funding.id .confirmed := by
  cases evolves with
  | kept same =>
    rw [same] at confirmed
    exact .inl confirmed
  | recovered now request stores recovers =>
    unfold recoverInterrupted at recovers
    split at recovers
    · cases recovers
      cases confirmed
    · cases recovers
  | claimed now request stores picks same =>
    subst same
    unfold claim at confirmed
    split at confirmed
    · cases confirmed
    · exact .inl confirmed
  | written now mark request stores writes =>
    cases mark with
    | confirmed => exact .inr request
    | prepared source txid encrypted expires =>
      simp only [Mark.writes, markPrepared] at writes
      split at writes <;> cases writes
      cases confirmed
    | retryPreparation message =>
      simp only [Mark.writes, Funding.retryPreparation] at writes
      split at writes <;> cases writes
      cases confirmed
    | broadcast =>
      simp only [Mark.writes, markBroadcast] at writes
      split at writes <;> cases writes
      cases confirmed
    | unknown message =>
      simp only [Mark.writes, markUnknown] at writes
      split at writes <;> cases writes
      cases confirmed
    | checked timeout =>
      simp only [Mark.writes, markChecked] at writes
      split at writes <;> cases writes
      · cases confirmed
      · exact .inl confirmed
    | failed code message =>
      simp only [Mark.writes, markFailed] at writes
      split at writes <;> cases writes
      cases confirmed

end

/-- What one call may do to the table. -/
def Evolved (operation : Operation) (answer : Answer) (records after : Table) : Prop :=
  ∃ change : FundingTransaction → FundingTransaction, after = records.map change ∧
    ∀ funding ∈ records, Evolves operation answer funding (change funding)

theorem Evolved.refl {operation : Operation} {answer : Answer} (records : Table) :
    Evolved operation answer records records :=
  ⟨fun funding => funding, (List.map_id' records).symm, fun _ _ => .kept rfl⟩

theorem commit_evolves {world after : World} {id : FundingId} {mark : Mark} {now : Time} {answer : Answer}
    (stores : answer.stores = some now) (ids : (world.records.map (·.id)).Nodup)
    (committed : commit id mark now world = some after) :
    Evolved (.update id mark) answer world.records after.records := by
  rcases commit_cases committed with rfl | ⟨funding, member, written, rfl, writes, -, rfl⟩
  · exact .refl _
  · refine ⟨_, rfl, ?_⟩
    intro other present
    by_cases own : other.id = written.id
    · have same : other.id = funding.id := own.trans (Mark.written writes).1
      obtain rfl : other = funding := List.inj_on_of_nodup_map ids present member same
      rw [if_pos own]
      exact .written now mark rfl stores writes
    · simp only [own, ↓reduceIte]
      exact .kept rfl

/-- Every call answers each stored record with one evolution. -/
theorem respond_evolves {world after : World} {operation : Operation} {answer : Answer}
    {reply : Except Raised (Reply operation)} (ids : (world.records.map (·.id)).Nodup)
    (answered : respond decrypt world operation answer = some (reply, after)) :
    Evolved operation answer world.records after.records := by
  have still : after.records = world.records → Evolved operation answer world.records after.records := by
    intro same
    rw [same]
    exact .refl _
  cases operation with
  | recoverInterruptedWork =>
    have recovers : ∀ now, answer.stores = some now → after = recovered now world →
        Evolved .recoverInterruptedWork answer world.records after.records := by
      intro now stores same
      refine ⟨_, congrArg World.records same, ?_⟩
      intro funding _
      cases result : recoverInterrupted now funding with
      | none => exact .kept rfl
      | some written => exact .recovered now rfl stores result
    cases answer with
    | fails error => exact still (congrArg World.records (respond_fails answered))
    | committed now =>
      simp only [respond, Option.some.injEq, Prod.mk.injEq] at answered
      exact recovers now rfl answered.2.symm
    | committedThenFails now error =>
      simp only [respond, Option.some.injEq, Prod.mk.injEq] at answered
      exact recovers now rfl answered.2.symm
    | _ => simp [respond] at answered
  | claimNext =>
    have claims : ∀ now, ∀ claimed ∈ world.records, answer.stores = some now → answer.picks = some claimed →
        after.records = replace (claim now claimed) world.records →
        Evolved .claimNext answer world.records after.records := by
      intro now claimed member stores picks same
      refine ⟨_, same, ?_⟩
      intro other present
      have key : (claim now claimed).id = claimed.id := (moved_claim now claimed).id
      by_cases own : other.id = (claim now claimed).id
      · obtain rfl : other = claimed := List.inj_on_of_nodup_map ids present member (own.trans key)
        simp only [own, ↓reduceIte]
        exact .claimed now rfl stores picks rfl
      · simp only [own, ↓reduceIte]
        exact .kept rfl
    cases answer with
    | fails error => exact still (congrArg World.records (respond_fails answered))
    | claimed funding now =>
      simp only [respond] at answered
      split at answered
      · rename_i allowed
        cases answered
        exact claims now funding allowed.1 rfl rfl rfl
      · cases answered
    | claimedThenFails funding now error =>
      simp only [respond] at answered
      split at answered
      · rename_i allowed
        cases answered
        exact claims now funding allowed.1 rfl rfl rfl
      · cases answered
    | nothingToClaim =>
      simp only [respond] at answered
      split at answered
      · cases answered
      · cases answered
        exact still rfl
    | _ => simp [respond] at answered
  | update id mark =>
    cases answer with
    | fails error => exact still (congrArg World.records (respond_fails answered))
    | committed now =>
      obtain ⟨next, committed, same⟩ := Option.map_eq_some_iff.mp answered
      cases same
      exact commit_evolves rfl ids committed
    | committedThenFails now error =>
      obtain ⟨next, committed, same⟩ := Option.map_eq_some_iff.mp answered
      cases same
      exact commit_evolves rfl ids committed
    | _ => simp [respond] at answered
  | broadcast id payload txid =>
    cases answer <;> simp only [respond, reduceCtorEq] at answered
    cases answered
    exact still rfl
  | receipt txid contract destination amount =>
    apply still
    cases answer <;> simp only [respond, reduceCtorEq] at answered
    · cases answered
      rfl
    · cases answered
      unfold received
      split <;> rfl
  | encrypt value =>
    apply still
    cases answer <;> simp only [respond, reduceCtorEq] at answered
    · cases answered
      rfl
    · split at answered
      · cases answered
        rfl
      · cases answered
  | prepareTransfer funding destination amount contract =>
    apply still
    cases answer <;> simp only [respond, reduceCtorEq] at answered
    · cases answered
      rfl
    · cases answered
      rfl
  | now =>
    apply still
    cases answer <;> simp only [respond, reduceCtorEq] at answered
    · cases answered
      rfl
    · cases answered
      rfl

/-- The record returned by a claim is stored. -/
theorem claimed_stored {world after : World} {answer : Answer} {funding : FundingTransaction}
    (answered : respond decrypt world .claimNext answer = some (.ok (some funding), after)) :
    funding ∈ after.records := by
  cases answer with
  | claimed claimed now =>
    simp only [respond] at answered
    split at answered
    · rename_i allowed
      cases answered
      exact mem_replace_self allowed.1 (moved_claim now claimed).id.symm
    · cases answered
  | claimedThenFails claimed now error =>
    simp only [respond] at answered
    split at answered
    · cases answered
    · cases answered
  | nothingToClaim =>
    simp only [respond] at answered
    split at answered
    · cases answered
    · cases answered
  | _ => simp [respond] at answered

theorem Evolved.ids {operation : Operation} {answer : Answer} {records after : Table}
    (evolved : Evolved operation answer records after) : after.map (·.id) = records.map (·.id) := by
  obtain ⟨change, rfl, evolves⟩ := evolved
  rw [List.map_map]
  exact List.map_congr_left fun funding member => (evolves funding member).id

/-- How an update is answered. -/
theorem respond_update {world after : World} {id : FundingId} {mark : Mark} {answer : Answer}
    {reply : Except Raised Unit}
    (answered : respond decrypt world (.update id mark) answer = some (reply, after)) :
    after = world ∧ (∃ error, reply = .error error) ∨
      ∃ now, (answer = .committed now ∨ ∃ error, answer = .committedThenFails now error) ∧
        commit id mark now world = some after := by
  cases answer with
  | fails error =>
    simp only [respond, Option.some.injEq, Prod.mk.injEq] at answered
    exact .inl ⟨answered.2.symm, error, answered.1.symm⟩
  | committed now =>
    obtain ⟨next, committed, same⟩ := Option.map_eq_some_iff.mp answered
    cases same
    exact .inr ⟨now, .inl rfl, committed⟩
  | committedThenFails now error =>
    obtain ⟨next, committed, same⟩ := Option.map_eq_some_iff.mp answered
    cases same
    exact .inr ⟨now, .inr ⟨error, rfl⟩, committed⟩
  | _ => simp [respond] at answered

/-- Every update stores its time. -/
theorem Mark.writes_updatedAt {mark : Mark} {now : Time} {funding written : FundingTransaction}
    (writes : mark.writes now funding = some written) : written.updatedAt = now := by
  cases mark with
  | prepared source txid encrypted expires =>
    simp only [Mark.writes, markPrepared] at writes
    split at writes <;> cases writes
    rfl
  | retryPreparation message =>
    simp only [Mark.writes, Funding.retryPreparation] at writes
    split at writes <;> cases writes
    rfl
  | broadcast =>
    simp only [Mark.writes, markBroadcast] at writes
    split at writes <;> cases writes
    rfl
  | unknown message =>
    simp only [Mark.writes, markUnknown] at writes
    split at writes <;> cases writes
    rfl
  | checked timeout =>
    simp only [Mark.writes, markChecked] at writes
    split at writes <;> cases writes <;> rfl
  | confirmed =>
    cases writes
    rfl
  | failed code message =>
    simp only [Mark.writes, markFailed] at writes
    split at writes <;> cases writes
    rfl

end TronForge.Funding
