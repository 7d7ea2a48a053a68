import TronForge.Funding.CreateFunding

/-! What each statement of a request does to the ledger, and why a request never commits
more than the daily limit bears. -/

namespace TronForge.Funding

open Library
open Generator (UserId JobId)

variable {settings : Settings} {limit session : Nat} {ledger after : Ledger}

theorem Relies.refl (session : Nat) (ledger : Ledger) : Relies session ledger ledger :=
  ⟨Nat.le_refl _, rfl, fun _ held => ⟨held, fun _ => Nat.le_refl _⟩⟩

theorem Relies.trans {middle : Ledger} (first : Relies session ledger middle) (second : Relies session middle after) :
    Relies session ledger after where
  clock := Nat.le_trans first.clock second.clock
  own := second.own.trans first.own
  held user held := by
    obtain ⟨kept, less⟩ := first.held user held
    obtain ⟨still, lesser⟩ := second.held user kept
    exact ⟨still, fun since => Nat.le_trans (lesser since) (less since)⟩

/-- Only a commit can take something from the other sessions. -/
theorem respondRequest_spares {operation : RequestCall} {answer : RequestAnswer}
    {reply : Except RequestError (RequestReply operation)} (quiet : operation ≠ .commit) (valid : ledger.Valid limit)
    (responded : respondRequest session ledger operation answer = some (reply, after)) :
    after.Valid limit ∧ Spares Relies session ledger after := by
  have same : ledger.Valid limit ∧ Spares Relies session ledger ledger := ⟨valid, fun other _ => .refl other ledger⟩
  unfold respondRequest at responded
  split at responded
  case h_1 =>
    cases responded
    exact same
  case h_2 =>
    split at responded
    · rename_i free
      cases responded
      exact ⟨⟨valid.ids, valid.limits⟩, fun other different => relies_lock free different⟩
    · cases responded
  case h_3 =>
    cases responded
    exact same
  case h_4 =>
    split at responded
    · cases responded
      exact same
    · cases responded
  case h_5 =>
    cases responded
    exact same
  case h_6 =>
    split at responded
    · rename_i later
      cases responded
      exact ⟨⟨valid.ids, valid.limits⟩, fun other _ => relies_tick later⟩
    · cases responded
  case h_7 =>
    cases responded
    exact same
  case h_8 funding id createdAt updatedAt =>
    split at responded
    · rename_i possible
      obtain ⟨later, ordered, fresh, -⟩ := possible
      cases responded
      have ticked : (ledger.tick updatedAt).Valid limit := ⟨valid.ids, valid.limits⟩
      have inserted := @Ledger.Valid.insert limit session _ ticked (funding.row id createdAt updatedAt) fresh
      exact ⟨inserted, fun other different =>
        (relies_tick (Nat.le_trans later ordered)).trans (relies_insert _ different)⟩
    · cases responded
  case h_9 =>
    split at responded
    · cases responded
    · cases responded
      exact same
  case h_10 => exact absurd rfl quiet
  case h_11 => exact absurd rfl quiet
  case h_12 =>
    cases responded
    exact ⟨valid.rollback, fun other different => relies_rollback different⟩
  case h_13 =>
    obtain ⟨row, -, shown⟩ := Option.map_eq_some_iff.mp responded
    cases shown
    exact same
  case h_14 => cases responded

/-- The program can go on from here. -/
abbrev Continues (limit session : Nat) (task : RequestTask α) (ledger : Ledger) : Prop :=
  Environment.Keeps ⟨fun world operation reply next => ∃ answer, respondRequest session world operation answer =
    some (reply, next), Relies session⟩ (Ledger.Valid limit) (Spares Relies session) task ledger

/-- The rule for every statement but a commit. -/
theorem Continues.statement {operation : RequestCall} (quiet : operation ≠ .commit)
    {next : Except RequestError (RequestReply operation) → RequestTask α} (knows : Ledger → Prop)
    (stable : ∀ before after, knows before → Relies session before after → knows after) (known : knows ledger)
    (goesOn : ∀ current answer reply after, knows current →
      respondRequest session current operation answer = some (reply, after) → Continues limit session (next reply) after) :
    Continues limit session (.call operation next) ledger := by
  apply Environment.Keeps.call knows stable known
  intro current reply after knowsCurrent valid performed
  obtain ⟨answer, responded⟩ := performed
  obtain ⟨kept, spared⟩ := respondRequest_spares quiet valid responded
  exact ⟨kept, spared, goesOn current answer reply after knowsCurrent responded⟩

/-- The rule for a statement of which only the reply matters. -/
theorem Continues.anyStatement {operation : RequestCall} (quiet : operation ≠ .commit)
    {next : Except RequestError (RequestReply operation) → RequestTask α}
    (goesOn : ∀ reply after, Continues limit session (next reply) after) :
    Continues limit session (.call operation next) ledger :=
  .statement quiet (fun _ => True) (fun _ _ _ _ => trivial) trivial fun _ _ reply after _ _ => goesOn reply after

/-- The session holds the lock, and what was reserved still bears the amount. -/
structure Reserved (limit session : Nat) (funding : NewFunding) (first : Nat) (ledger : Ledger) : Prop where
  held : ledger.holder funding.userId = some session
  clock : first ≤ ledger.clock / dayMicroseconds
  bearable : reservedSince funding.userId (first * dayMicroseconds) ledger.rows + funding.amountMicroUsdt ≤
    limit

theorem Reserved.relies {funding : NewFunding} {first : Nat} (reserved : Reserved limit session funding first ledger)
    (relies : Relies session ledger after) : Reserved limit session funding first after := by
  obtain ⟨held, less⟩ := relies.held _ reserved.held
  exact ⟨held, Nat.le_trans reserved.clock (Nat.div_le_div_right relies.clock),
    Nat.le_trans (Nat.add_le_add_right (less _) _) reserved.bearable⟩

/-- The row that the session inserted is the reserved one. -/
structure Inserted (limit session : Nat) (funding : NewFunding) (first : Nat) (ledger : Ledger) : Prop
    extends Reserved limit session funding first ledger where
  row : ∃ id createdAt updatedAt, ledger.own session = [funding.row id createdAt updatedAt] ∧
    first ≤ createdAt / dayMicroseconds

theorem Inserted.relies {funding : NewFunding} {first : Nat} (inserted : Inserted limit session funding first ledger)
    (relies : Relies session ledger after) : Inserted limit session funding first after where
  toReserved := inserted.toReserved.relies relies
  row := by
    rw [relies.own]
    exact inserted.row

/-- The day of a new row is borne by what was reserved since an earlier midnight. -/
theorem Inserted.bears {funding : NewFunding} {first : Nat} (inserted : Inserted limit session funding first ledger)
    (valid : ledger.Valid limit) (user : UserId) (day : Nat) :
    spentOn user day (ledger.own session) + spentOn user day ledger.rows ≤ limit := by
  obtain ⟨id, createdAt, updatedAt, own, later⟩ := inserted.row
  rw [own]
  by_cases counted : funding.userId = user ∧ createdAt / dayMicroseconds = day
  · obtain ⟨rfl, rfl⟩ := counted
    have alone : spentOn funding.userId (createdAt / dayMicroseconds) [funding.row id createdAt updatedAt] ≤
        funding.amountMicroUsdt := by
      rw [spentOn, total, List.filter_cons]
      split
      · exact Nat.le_refl _
      · exact Nat.zero_le _
    calc
      spentOn funding.userId (createdAt / dayMicroseconds) [funding.row id createdAt updatedAt] +
          spentOn funding.userId (createdAt / dayMicroseconds) ledger.rows ≤
          funding.amountMicroUsdt + reservedSince funding.userId (first * dayMicroseconds) ledger.rows :=
        Nat.add_le_add alone (spentOn_le_reservedSince later _)
      _ ≤ limit := by
        rw [Nat.add_comm]
        exact inserted.bearable
  · have nothing : spentOn user day [funding.row id createdAt updatedAt] = 0 := by
      apply total_none
      intro row member
      obtain rfl := List.mem_singleton.mp member
      by_cases owner : funding.userId = user
      · have otherDay : createdAt / dayMicroseconds ≠ day := fun same => counted ⟨owner, same⟩
        simp [NewFunding.row, otherDay]
      · simp [NewFunding.row, owner]
    rw [nothing, Nat.zero_add]
    exact valid.limits user day

/-- The commit of a reserved row is borne and takes nothing from others. -/
theorem Inserted.commit {funding : NewFunding} {first : Nat} (inserted : Inserted limit session funding first ledger)
    (valid : ledger.Valid limit) :
    (ledger.commit session).Valid limit ∧ Spares Relies session ledger (ledger.commit session) := by
  refine ⟨valid.commit (inserted.bears valid), ?_⟩
  intro other different
  apply relies_commit ?_ different
  intro row member
  obtain ⟨id, createdAt, updatedAt, own, -⟩ := inserted.row
  rw [own] at member
  obtain rfl := List.mem_singleton.mp member
  exact inserted.held

theorem alreadyFunded_continues (jobId : JobId) (amountMicroUsdt : Nat) :
    Continues limit session (alreadyFunded jobId amountMicroUsdt) ledger := by
  apply Continues.anyStatement (by simp)
  intro reply after
  cases reply with
  | error error => trivial
  | ok done =>
    apply Continues.anyStatement (by simp)
    intro reply after
    cases reply with
    | error error => trivial
    | ok existing =>
      cases existing with
      | none => trivial
      | some existing =>
        show Continues limit session (if _ then _ else _) after
        split
        · trivial
        · trivial

/-- A request whose row was not stored. -/
theorem notStored_continues (funding : NewFunding) (error : RequestError) (ledger : Ledger) :
    Continues limit session (match (.error error : Except RequestError FundingRow) with
      | .error .integrityError => alreadyFunded funding.jobId funding.amountMicroUsdt
      | .error error => .raise error
      | .ok row => do
        let stored ← statement (.refresh row.id)
        return serializeFunding stored) ledger := by
  cases error with
  | integrityError => exact alreadyFunded_continues _ _
  | httpException statusCode detail => trivial
  | unexpected message => trivial

theorem addFunding_continues {funding : NewFunding} {first : Nat} (reserved : Reserved limit session funding first ledger) :
    Continues limit session (addFunding funding) ledger := by
  apply Continues.statement (by simp) (Reserved limit session funding first)
    (fun _ _ known relies => known.relies relies) reserved
  intro current answer reply inserted known responded
  cases reply with
  | error error => exact notStored_continues funding error inserted
  | ok row =>
    have stored : Inserted limit session funding first inserted := by
      cases answer with
      | inserted id createdAt updatedAt =>
        simp only [respondRequest] at responded
        split at responded
        · rename_i possible
          cases responded
          obtain ⟨later, ordered, -⟩ := possible
          have ticked := known.relies (relies_tick (Nat.le_trans later ordered))
          refine ⟨⟨ticked.held, ticked.clock, ticked.bearable⟩, id, createdAt, updatedAt, ?_, ?_⟩
          · simp [Ledger.own, Ledger.insert, Ledger.others, List.filter_filter]
          · exact Nat.le_trans known.clock (Nat.div_le_div_right later)
        · cases responded
      | done =>
        simp only [respondRequest] at responded
        split at responded
        · cases responded
        · cases responded
      | _ => cases responded
    apply Environment.Keeps.call (Inserted limit session funding first)
      (fun _ _ known relies => known.relies relies) stored
    intro current reply committed known valid performed
    obtain ⟨answer, responded⟩ := performed
    cases answer with
    | fails error =>
      cases responded
      exact ⟨valid, fun other _ => .refl other _, notStored_continues funding error _⟩
    | done =>
      cases responded
      obtain ⟨kept, spared⟩ := known.commit valid
      refine ⟨kept, spared, ?_⟩
      apply Continues.anyStatement (by simp)
      intro reply after
      cases reply with
      | error error => trivial
      | ok stored => trivial
    | doneThenFails error =>
      cases responded
      obtain ⟨kept, spared⟩ := known.commit valid
      exact ⟨kept, spared, notStored_continues funding error _⟩
    | _ => cases responded

theorem reserveFunding_continues {funding : NewFunding} (held : ledger.holder funding.userId = some session) :
    Continues limit session (reserveFunding limit funding) ledger := by
  have stays (before after : Ledger) (held : before.holder funding.userId = some session)
      (relies : Relies session before after) : after.holder funding.userId = some session := (relies.held _ held).1
  apply Continues.statement (by simp) (fun current => current.holder funding.userId = some session) stays held
  intro current answer reply ticked held responded
  cases reply with
  | error error => trivial
  | ok now =>
    have known : ticked.holder funding.userId = some session ∧ now ≤ ticked.clock := by
      cases answer with
      | time now =>
        simp only [respondRequest] at responded
        split at responded
        · cases responded
          exact ⟨held, Nat.le_refl _⟩
        · cases responded
      | _ => cases responded
    apply Continues.statement (by simp) (fun current => current.holder funding.userId = some session ∧ now ≤ current.clock)
      (fun before after known relies => ⟨stays before after known.1 relies, Nat.le_trans known.2 relies.clock⟩) known
    intro current answer reply after known responded
    cases reply with
    | error error => trivial
    | ok reservedToday =>
      have summed : after = current ∧ reservedToday = reservedSince funding.userId (startOfDay now) current.rows := by
        cases answer with
        | done =>
          cases responded
          exact ⟨rfl, rfl⟩
        | _ => cases responded
      obtain ⟨rfl, summed⟩ := summed
      show Continues limit session (if _ then _ else _) after
      split
      · trivial
      · rename_i fits
        rw [summed, startOfDay] at fits
        exact addFunding_continues ⟨known.1, Nat.div_le_div_right known.2, Nat.le_of_not_lt fits⟩

theorem createLocked_continues {user : UserId} (jobId : JobId) (payload : FundingCreate) (key : String)
    (held : ledger.holder user = some session) :
    Continues settings.dailyLimit session (createLocked settings user jobId payload key) ledger := by
  have stays (before after : Ledger) (held : before.holder user = some session)
      (relies : Relies session before after) : after.holder user = some session := (relies.held _ held).1
  apply Continues.statement (by simp) (fun current => current.holder user = some session) stays held
  intro current answer reply after held responded
  cases reply with
  | error error => trivial
  | ok job =>
    cases job with
    | none => trivial
    | some job =>
      have still : after.holder user = some session := by
        cases answer with
        | job view =>
          simp only [respondRequest] at responded
          split at responded
          · cases responded
            exact held
          · cases responded
        | _ => cases responded
      dsimp only [Program.bind]
      cases job.destination with
      | none => trivial
      | some address =>
        apply Continues.statement (by simp) (fun current => current.holder user = some session) stays still
        intro current answer reply after held responded
        cases reply with
        | error error => trivial
        | ok existing =>
          cases existing with
          | some existing =>
            show Continues settings.dailyLimit session (if _ then _ else _) after
            split
            · trivial
            · trivial
          | none =>
            apply reserveFunding_continues
            cases answer with
            | done =>
              simp only [respondRequest, Option.some.injEq, Prod.mk.injEq] at responded
              obtain ⟨-, rfl⟩ := responded
              exact held
            | _ => cases responded

/-- A request can go on from any ledger. -/
theorem createFunding_continues (user : UserId) (jobId : JobId) (payload : FundingCreate)
    (idempotencyKey : Option String) (ledger : Ledger) :
    Continues settings.dailyLimit session (createFunding settings user jobId payload idempotencyKey) ledger := by
  unfold createFunding
  split
  · trivial
  · split
    · trivial
    · rename_i key _
      apply Continues.statement (by simp) (fun _ => True) (fun _ _ _ _ => trivial) trivial
      intro current answer reply after _ responded
      cases reply with
      | error error => trivial
      | ok locked =>
        cases locked with
        | false => trivial
        | true =>
          apply createLocked_continues
          cases answer with
          | done =>
            simp only [respondRequest] at responded
            split at responded
            · cases responded
              simp [Ledger.lock]
            · cases responded
          | _ => cases responded

end TronForge.Funding
