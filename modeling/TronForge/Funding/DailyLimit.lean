import Mathlib.Tactic.NormNum
import TronForge.Funding.Statements

/-! The daily limit of a user, among any requests and whatever the processor does: requests
reserve under the lock of their user, and the processor revives no failed record. -/

namespace TronForge.Funding

open Library
open Generator (UserId)

variable {settings : Settings} {limit : Nat} {decrypt : String → Option String} {timeoutSeconds : Nat} {ledger : Ledger}

/-- What a written record keeps of the record that was read. -/
structure Kept (before after : FundingTransaction) : Prop where
  id : after.id = before.id
  amount : after.amountMicroUsdt = before.amountMicroUsdt
  createdAt : after.createdAt = before.createdAt
  failed : before.status = .failed → after.status = .failed

theorem kept_recoverInterrupted {now : Time} {funding after : FundingTransaction}
    (written : recoverInterrupted now funding = some after) : Kept funding after := by
  unfold recoverInterrupted at written
  split at written
  · rename_i preparing
    cases written
    exact ⟨rfl, rfl, rfl, by simp [preparing]⟩
  · cases written

theorem kept_claim (now : Time) (funding : FundingTransaction) : Kept funding (claim now funding) := by
  unfold claim
  split
  · rename_i requested
    exact ⟨rfl, rfl, rfl, by simp [requested]⟩
  · exact ⟨rfl, rfl, rfl, fun failed => failed⟩

/-- Only a confirmation, which no guard holds back, could revive a failed record. -/
theorem Mark.kept {mark : Mark} {now : Time} {funding after : FundingTransaction}
    (writes : mark.writes now funding = some after) (alive : mark = .confirmed → funding.status ≠ .failed) :
    Kept funding after := by
  cases mark with
  | prepared source txid encrypted expires =>
    simp only [Mark.writes, markPrepared] at writes
    split at writes
    · cases writes
    · rename_i preparing
      cases writes
      exact ⟨rfl, rfl, rfl, by simp [not_not.mp preparing]⟩
  | retryPreparation message =>
    simp only [Mark.writes, Funding.retryPreparation] at writes
    split at writes
    · cases writes
    · rename_i preparing
      cases writes
      exact ⟨rfl, rfl, rfl, by simp [not_not.mp preparing]⟩
  | broadcast =>
    simp only [Mark.writes, markBroadcast] at writes
    split at writes
    · cases writes
    · rename_i sendable
      cases writes
      refine ⟨rfl, rfl, rfl, ?_⟩
      intro failed
      exact absurd ⟨by simp [failed], by simp [failed]⟩ sendable
  | unknown message =>
    simp only [Mark.writes, markUnknown] at writes
    split at writes
    · cases writes
    · rename_i unsettled
      cases writes
      exact ⟨rfl, rfl, rfl, fun failed => absurd (.inr failed) unsettled⟩
  | checked timeout =>
    simp only [Mark.writes, markChecked] at writes
    split at writes
    · rename_i delayed
      cases writes
      refine ⟨rfl, rfl, rfl, ?_⟩
      intro failed
      simp [confirmationDelayed, failed] at delayed
    · cases writes
      exact ⟨rfl, rfl, rfl, fun failed => failed⟩
  | confirmed =>
    cases writes
    exact ⟨rfl, rfl, rfl, fun failed => absurd failed (alive rfl)⟩
  | failed code message =>
    simp only [Mark.writes, markFailed] at writes
    split at writes
    · cases writes
    · cases writes
      exact ⟨rfl, rfl, rfl, fun _ => rfl⟩

/-- Every written record keeps a record of the ledger. -/
def WritesKept (written : Table) (ledger : Ledger) : Prop :=
  ∀ after ∈ written, ∃ funding ∈ ledger.records, Kept funding after

theorem mem_records {funding : FundingTransaction} :
    funding ∈ ledger.records ↔ ∃ row ∈ ledger.rows, row.toFundingTransaction = funding := List.mem_map

theorem Ledger.Valid.rows_unique (valid : ledger.Valid limit) : (ledger.rows.map fun row => row.id).Nodup := by
  have ids := valid.ids
  rw [List.map_append] at ids
  exact ids.of_append_right

theorem Ledger.Valid.eq_of_id (valid : ledger.Valid limit) {left right : FundingTransaction}
    (leftMember : left ∈ ledger.records) (rightMember : right ∈ ledger.records) (same : left.id = right.id) :
    left = right := by
  obtain ⟨row, present, rfl⟩ := mem_records.mp leftMember
  obtain ⟨other, there, rfl⟩ := mem_records.mp rightMember
  rw [List.inj_on_of_nodup_map valid.rows_unique present there same]

/-- A write changes a row to a written record that keeps it, if at all. -/
theorem write_kept (valid : ledger.Valid limit) {written : Table} (kept : WritesKept written ledger) {row : FundingRow}
    (member : row ∈ ledger.rows) : (row.write written).userId = row.userId ∧
      Kept row.toFundingTransaction (row.write written).toFundingTransaction := by
  unfold FundingRow.write
  split
  · rename_i after found
    have key : after.id = row.id := by simpa using List.find?_some found
    obtain ⟨funding, present, keeps⟩ := kept after (List.mem_of_find?_eq_some found)
    have same : funding = row.toFundingTransaction :=
      valid.eq_of_id present (List.mem_map_of_mem member) (keeps.id.symm.trans key)
    exact ⟨rfl, same ▸ keeps⟩
  · exact ⟨rfl, ⟨rfl, rfl, rfl, fun failed => failed⟩⟩

/-- A write that keeps its records keeps the limit, and every session can bear it. -/
theorem Ledger.Valid.write (valid : ledger.Valid limit) {written : Table} (kept : WritesKept written ledger) :
    (ledger.write written).Valid limit ∧ ∀ session, Relies session ledger (ledger.write written) := by
  have less (wanted : FundingRow → Bool) (fits : ∀ row ∈ ledger.rows,
      wanted (row.write written) = true → wanted row = true) :
      total wanted (ledger.rows.map (·.write written)) ≤ total wanted ledger.rows :=
    total_map_le fun row member => ⟨(write_kept valid kept member).2.amount, fits row member⟩
  refine ⟨⟨?_, ?_⟩, ?_⟩
  · have same : (ledger.rows.map (·.write written)).map (fun row => row.id) = ledger.rows.map fun row => row.id := by
      rw [List.map_map]
      exact List.map_congr_left fun row member => (write_kept valid kept member).2.id
    have ids := valid.ids
    rw [List.map_append] at ids ⊢
    change ((ledger.pending.map Prod.snd).map (fun row => row.id) ++
      (ledger.rows.map (·.write written)).map fun row => row.id).Nodup
    rw [same]
    exact ids
  · intro user day
    refine Nat.le_trans (less _ ?_) (valid.limits user day)
    intro row member counted
    obtain ⟨owner, keeps⟩ := write_kept valid kept member
    simp only [Bool.and_eq_true, decide_eq_true_eq, owner, keeps.createdAt] at counted ⊢
    exact ⟨counted.1, fun failed => counted.2 (keeps.failed failed)⟩
  · intro session
    refine ⟨Nat.le_refl _, rfl, fun user held => ⟨held, fun since => less _ ?_⟩⟩
    intro row member counted
    obtain ⟨owner, keeps⟩ := write_kept valid kept member
    simp only [Bool.and_eq_true, decide_eq_true_eq, owner, keeps.createdAt, reserved_iff] at counted ⊢
    exact ⟨counted.1, fun failed => counted.2 (keeps.failed failed)⟩

/-- Requests only add rows. -/
theorem respondRequest_rows {session : Nat} {after : Ledger} {operation : RequestCall} {answer : RequestAnswer}
    {reply : Except RequestError (RequestReply operation)}
    (responded : respondRequest session ledger operation answer = some (reply, after)) {row : FundingRow}
    (member : row ∈ ledger.rows) : row ∈ after.rows := by
  unfold respondRequest at responded
  split at responded
  case h_10 | h_11 =>
    cases responded
    exact List.mem_append_right _ member
  case h_13 =>
    obtain ⟨_, -, shown⟩ := Option.map_eq_some_iff.mp responded
    cases shown
    exact member
  case h_14 => cases responded
  case h_1 | h_3 | h_5 | h_7 | h_12 =>
    cases responded
    exact member
  all_goals
    split at responded <;> cases responded
    exact member

/-- No step of a session loses a record. -/
theorem step_records {sessions after : Sessions} {event : (requests settings).Event}
    (stepped : (requests settings).step event sessions = some after) {funding : FundingTransaction}
    (member : funding ∈ sessions.world.records) : funding ∈ after.world.records := by
  obtain ⟨row, present, rfl⟩ := mem_records.mp member
  refine mem_records.mpr ⟨row, ?_, rfl⟩
  cases event with
  | arrive id request =>
    simp only [Sharing.step] at stepped
    split at stepped
    · cases stepped
      exact present
    · cases stepped
  | answer id answer =>
    obtain ⟨thread, -, stepped⟩ := Option.bind_eq_some_iff.mp stepped
    obtain ⟨⟨program, world⟩, performed, stepped⟩ := Option.bind_eq_some_iff.mp stepped
    cases stepped
    cases code : thread.program with
    | done value =>
      rw [code] at performed
      cases performed
    | raise error =>
      rw [code] at performed
      cases performed
    | call operation next =>
      rw [code] at performed
      obtain ⟨⟨reply, next⟩, responded, same⟩ := Option.map_eq_some_iff.mp performed
      cases same
      exact respondRequest_rows responded present
  | leave id =>
    cases stepped
    exact present

/-- The ledger is valid and every session can go on. -/
abbrev SessionsSound (settings : Settings) (sessions : Sessions) : Prop :=
  sessions.Sound (requests settings) Relies (Ledger.Valid settings.dailyLimit)

theorem SessionsSound.step {sessions after : Sessions} (sound : SessionsSound settings sessions)
    {event : (requests settings).Event} (stepped : (requests settings).step event sessions = some after) :
    SessionsSound settings after := by
  apply Pool.Sound.step sound ?_ ?_ stepped
  · intro id request world _
    exact createFunding_continues _ _ _ _ world
  · intro id world valid
    exact ⟨valid.rollback, fun other different => relies_rollback different⟩

/-- The task of the processor can go on from here. -/
abbrev StoreSafe (settings : Settings) (decrypt : String → Option String) (post : Except Raised α → Sessions → Prop)
    (task : StoreTask α) (sessions : Sessions) : Prop :=
  (storeSurroundings settings decrypt).environment.Safe (SessionsSound settings) post task sessions

/-- A fact about the ledger that requests do not change. -/
def Lasting (settings : Settings) (knows : Ledger → Prop) : Prop :=
  ∀ (before after : Sessions) (event : (requests settings).Event),
    knows before.world → (requests settings).step event before = some after → knows after.world

theorem lasting_true (settings : Settings) : Lasting settings fun _ => True := fun _ _ _ _ _ => trivial

theorem lasting_record (settings : Settings) (funding : FundingTransaction) :
    Lasting settings fun ledger => funding ∈ ledger.records := fun _ _ _ known stepped => step_records stepped known

theorem lasting_writes (settings : Settings) (written : Table) : Lasting settings (WritesKept written) := by
  intro before after event known stepped record member
  obtain ⟨funding, present, kept⟩ := known record member
  exact ⟨funding, step_records stepped present, kept⟩

section Queries
variable {sessions : Sessions} {post : Except Raised α → Sessions → Prop}

/-- The rule for one statement of the processor. -/
theorem StoreSafe.query {operation : StoreCall} {next : Except Raised (StoreReply operation) → StoreTask α}
    (knows : Ledger → Prop) (lasting : Lasting settings knows) (known : knows sessions.world)
    (goesOn : ∀ (current : Sessions) answer reply after, knows current.world → current.world.Valid settings.dailyLimit →
      respondStore decrypt current.world operation answer = some (reply, after) →
      after.Valid settings.dailyLimit ∧ (∀ session, Relies session current.world after) ∧
        StoreSafe settings decrypt post (next reply) ⟨after, current.threads⟩) :
    StoreSafe settings decrypt post (.call operation next) sessions := by
  apply Environment.Safe.call fun current => knows current.world
  · rintro before after knowsBefore ⟨event, stepped⟩
    exact lasting before after event knowsBefore stepped
  · exact known
  · intro current reply after knowsCurrent sound performed
    obtain ⟨answer, responded⟩ := performed
    obtain ⟨⟨given, next⟩, answered, same⟩ := Option.map_eq_some_iff.mp responded
    cases same
    obtain ⟨valid, borne, rest⟩ := goesOn current answer _ _ knowsCurrent sound.world answered
    exact ⟨sound.outside valid borne, rest⟩

/-- A statement that writes nothing. -/
theorem respondStore_quiet {operation : StoreCall} {answer : StoreAnswer} {after : Ledger}
    {reply : Except Raised (StoreReply operation)} (quiet : ∀ written, operation ≠ .commit written)
    (valid : ledger.Valid limit) (responded : respondStore decrypt ledger operation answer = some (reply, after)) :
    after.Valid limit ∧ (∀ session, Relies session ledger after) ∧ after.rows = ledger.rows := by
  have same : ledger.Valid limit ∧ (∀ session, Relies session ledger ledger) ∧ ledger.rows = ledger.rows :=
    ⟨valid, fun session => .refl session ledger, rfl⟩
  unfold respondStore at responded
  split at responded
  case h_6 => exact absurd rfl (quiet _)
  case h_7 => exact absurd rfl (quiet _)
  case h_8 =>
    split at responded
    · rename_i later
      cases responded
      exact ⟨⟨valid.ids, valid.limits⟩, fun session => relies_tick later, rfl⟩
    · cases responded
  case h_3 | h_4 | h_12 =>
    split at responded <;> cases responded
    exact same
  case h_13 => cases responded
  all_goals
    cases responded
    exact same

/-- A statement that writes nothing, when only the reply matters. -/
theorem StoreSafe.anyQuery {operation : StoreCall} (quiet : ∀ written, operation ≠ .commit written)
    {next : Except Raised (StoreReply operation) → StoreTask α}
    (goesOn : ∀ reply sessions, StoreSafe settings decrypt post (next reply) sessions) :
    StoreSafe settings decrypt post (.call operation next) sessions := by
  apply StoreSafe.query _ (lasting_true settings) trivial
  intro current answer reply after _ valid responded
  obtain ⟨kept, borne, -⟩ := respondStore_quiet quiet valid responded
  exact ⟨kept, borne, goesOn _ _⟩

/-- The reading of the clock keeps what is known of the records. -/
theorem StoreSafe.now {knows : Table → Prop} (lasting : Lasting settings fun ledger => knows ledger.records)
    (known : knows sessions.world.records) {next : Except Raised Time → StoreTask α}
    (goesOn : ∀ reply (sessions : Sessions), knows sessions.world.records →
      StoreSafe settings decrypt post (next reply) sessions) :
    StoreSafe settings decrypt post (.call .now next) sessions := by
  apply StoreSafe.query _ lasting known
  intro current answer reply after knowsCurrent valid responded
  obtain ⟨kept, borne, rows⟩ := respondStore_quiet (by simp) valid responded
  refine ⟨kept, borne, goesOn reply ⟨after, current.threads⟩ ?_⟩
  rw [Ledger.records, rows]
  exact knowsCurrent

/-- The rule for a commit. -/
theorem StoreSafe.commit {written : Table} (kept : WritesKept written sessions.world)
    {next : Except Raised Unit → StoreTask α}
    (goesOn : ∀ reply (sessions : Sessions), (reply = .ok () → ∃ before : Ledger, before.Valid settings.dailyLimit ∧
      WritesKept written before ∧ sessions.world = before.write written) →
      StoreSafe settings decrypt post (next reply) sessions) :
    StoreSafe settings decrypt post (.call (.commit written) next) sessions := by
  apply StoreSafe.query _ (lasting_writes settings written) kept
  intro current answer reply after kept valid responded
  have written_ := valid.write kept
  cases answer with
  | fails error =>
    cases responded
    exact ⟨valid, fun session => .refl session _, goesOn _ _ (by simp)⟩
  | done =>
    simp only [respondStore] at responded
    split at responded
    · cases responded
      exact ⟨written_.1, written_.2, goesOn _ _ fun _ => ⟨current.world, valid, kept, rfl⟩⟩
    · cases responded
  | doneThenFails error =>
    simp only [respondStore] at responded
    split at responded
    · cases responded
      exact ⟨written_.1, written_.2, goesOn _ _ (by simp)⟩
    · cases responded
  | _ => cases responded

end Queries

section Tasks
variable {sessions : Sessions}

/-- Any outcome of a task. -/
def anyEnd : Except Raised α → Sessions → Prop := fun _ _ => True

/-- The last statement of a task, which writes what it keeps. -/
theorem commit_safe {written : Table} (kept : WritesKept written sessions.world) :
    StoreSafe settings decrypt anyEnd (query (.commit written)) sessions := by
  apply StoreSafe.commit kept
  intro reply after _
  cases reply with
  | error error => trivial
  | ok done => trivial

theorem writesKept_single {funding after : FundingTransaction} (member : funding ∈ ledger.records)
    (kept : Kept funding after) : WritesKept [after] ledger := by
  intro written present
  obtain rfl := List.mem_singleton.mp present
  exact ⟨funding, member, kept⟩

theorem recoverWork_safe : StoreSafe settings decrypt anyEnd recoverWork sessions := by
  apply StoreSafe.query _ (lasting_true settings) trivial
  intro current answer reply after _ valid responded
  obtain ⟨kept, borne, rows⟩ := respondStore_quiet (by simp) valid responded
  refine ⟨kept, borne, ?_⟩
  cases reply with
  | error error => trivial
  | ok interrupted =>
    have found : ∀ funding ∈ interrupted, funding ∈ after.records := by
      cases answer with
      | done =>
        cases responded
        exact fun funding member => (List.mem_filter.mp member).1
      | _ => cases responded
    apply @StoreSafe.now _ settings decrypt _ _ (fun records => ∀ funding ∈ interrupted, funding ∈ records)
    · exact fun before after event known stepped funding member => step_records stepped (known funding member)
    · exact found
    · intro reply ticked found
      cases reply with
      | error error => trivial
      | ok now =>
        apply commit_safe
        intro written member
        obtain ⟨funding, present, recovered⟩ := List.mem_filterMap.mp member
        exact ⟨funding, found funding present, kept_recoverInterrupted recovered⟩

/-- The claimed record is a stored one. -/
def claimedStored : Except Raised (Option FundingTransaction) → Sessions → Prop
  | .ok (some funding), sessions => funding ∈ sessions.world.records
  | _, _ => True

theorem mem_write {funding after : FundingTransaction} (member : funding ∈ ledger.records) (same : after.id = funding.id) :
    after ∈ (ledger.write [after]).records := by
  obtain ⟨row, present, rfl⟩ := mem_records.mp member
  refine mem_records.mpr ⟨row.write [after], List.mem_map_of_mem present, ?_⟩
  simp [FundingRow.write, same]

theorem claimNext_safe : StoreSafe settings decrypt claimedStored claimNext sessions := by
  apply StoreSafe.query _ (lasting_true settings) trivial
  intro current answer reply after _ valid responded
  obtain ⟨kept, borne, rows⟩ := respondStore_quiet (by simp) valid responded
  refine ⟨kept, borne, ?_⟩
  cases reply with
  | error error => trivial
  | ok chosen =>
    cases chosen with
    | none => trivial
    | some funding =>
      have stored : funding ∈ after.records := by
        cases answer with
        | chosen other =>
          simp only [respondStore] at responded
          split at responded
          · rename_i possible
            cases responded
            exact possible.1
          · cases responded
        | nothing =>
          simp only [respondStore] at responded
          split at responded <;> cases responded
        | _ => cases responded
      show StoreSafe settings decrypt claimedStored (if _ then _ else _) ⟨after, current.threads⟩
      split
      · apply @StoreSafe.now _ settings decrypt _ _ (fun records => funding ∈ records)
        · exact lasting_record settings funding
        · exact stored
        · intro reply ticked stored
          cases reply with
          | error error => trivial
          | ok now =>
            apply StoreSafe.commit (writesKept_single stored (kept_claim now funding))
            intro reply after committed
            cases reply with
            | error error => trivial
            | ok done =>
              obtain ⟨before, valid, kept, same⟩ := committed rfl
              obtain ⟨other, member, keeps⟩ := kept _ List.mem_cons_self
              show claim now funding ∈ after.world.records
              rw [same]
              exact mem_write member keeps.id
      · exact stored

/-- What an update writes, if the record it found is not failed where it confirms. -/
theorem markedRecord_safe {funding : FundingTransaction} {mark : Mark} {now : Time} (member : funding ∈ sessions.world.records)
    (alive : mark = .confirmed → funding.status ≠ .failed) :
    StoreSafe settings decrypt anyEnd (match mark.writes now funding with
      | none => pure ()
      | some after => query (.commit [after])) sessions := by
  cases writes : mark.writes now funding with
  | none => trivial
  | some written => exact commit_safe (writesKept_single member (Mark.kept writes alive))

/-- An update, if a confirmation finds no failed record. -/
theorem updateRecord_safe {id : FundingId} {mark : Mark} (knows : Ledger → Prop) (lasting : Lasting settings knows)
    (known : knows sessions.world) (alive : ∀ current : Ledger, knows current → current.Valid settings.dailyLimit →
      mark = .confirmed → ∀ funding ∈ current.records, funding.id = id → funding.status ≠ .failed) :
    StoreSafe settings decrypt anyEnd (updateRecord id mark) sessions := by
  apply StoreSafe.query knows lasting known
  intro current answer reply after knowsCurrent valid responded
  obtain ⟨kept, borne, rows⟩ := respondStore_quiet (by simp) valid responded
  refine ⟨kept, borne, ?_⟩
  cases reply with
  | error error => trivial
  | ok found =>
    cases found with
    | none => trivial
    | some funding =>
      have stored : funding ∈ after.records ∧ (mark = .confirmed → funding.status ≠ .failed) := by
        cases answer with
        | done =>
          simp only [respondStore, Option.some.injEq, Prod.mk.injEq, Except.ok.injEq] at responded
          obtain ⟨found, rfl⟩ := responded
          have member := List.mem_of_find?_eq_some found
          have key : funding.id = id := by simpa using List.find?_some found
          exact ⟨member, fun confirmed => alive current.world knowsCurrent valid confirmed funding member key⟩
        | _ => cases responded
      apply @StoreSafe.now _ settings decrypt _ _ (fun records => funding ∈ records)
      · exact lasting_record settings funding
      · exact stored.1
      · intro reply ticked member
        cases reply with
        | error error => trivial
        | ok now => exact markedRecord_safe member stored.2

/-- A call of the processor that confirms nothing. -/
theorem implement_safe {operation : Operation} (harmless : ∀ id, operation ≠ .update id .confirmed) :
    StoreSafe settings decrypt anyEnd (implement operation) sessions := by
  have external {operation : StoreCall} (quiet : ∀ written, operation ≠ .commit written) :
      StoreSafe settings decrypt anyEnd (query operation) sessions := by
    apply StoreSafe.anyQuery quiet
    intro reply after
    cases reply with
    | error error => trivial
    | ok value => trivial
  cases operation with
  | recoverInterruptedWork => exact recoverWork_safe
  | claimNext => exact claimNext_safe.weaken fun _ _ _ => trivial
  | update id mark =>
    apply updateRecord_safe (fun _ => True) (lasting_true settings) trivial
    rintro - - - rfl
    exact absurd rfl (harmless id)
  | prepareTransfer id destination amount contract => exact external (by simp)
  | broadcast id payload txid => exact external (by simp)
  | receipt txid contract destination amount => exact external (by simp)
  | encrypt value => exact external (by simp)
  | now => exact external (by simp)

end Tasks

/-- The task confirms nothing. -/
def Harmless : Task α → Prop
  | .done _ => True
  | .raise _ => True
  | .call operation next => (∀ id, operation ≠ .update id .confirmed) ∧ ∀ reply, Harmless (next reply)

section Harmless
variable {sessions : Sessions}

theorem Harmless.safe {task : Task α} (harmless : Harmless task) :
    StoreSafe settings decrypt anyEnd (task.handle implement) sessions := by
  induction task generalizing sessions with
  | done value => trivial
  | raise error => trivial
  | call operation next hypothesis =>
    apply (implement_safe harmless.1).handled
    intro reply current _
    exact hypothesis reply (harmless.2 reply)

theorem Harmless.bind {task : Task α} (harmless : Harmless task) {rest : α → Task β}
    (goesOn : ∀ value, Harmless (rest value)) : Harmless (task.bind rest) := by
  induction task with
  | done value => exact goesOn value
  | raise error => trivial
  | call operation next hypothesis => exact ⟨harmless.1, fun reply => hypothesis reply (harmless.2 reply)⟩

theorem Harmless.attempt {task : Task α} (harmless : Harmless task) : Harmless task.attempt := by
  induction task with
  | done value => trivial
  | raise error => trivial
  | call operation next hypothesis => exact ⟨harmless.1, fun reply => hypothesis reply (harmless.2 reply)⟩

theorem harmless_call {operation : Operation} (harmless : ∀ id, operation ≠ .update id .confirmed) :
    Harmless (call operation) := by
  refine ⟨harmless, ?_⟩
  intro reply
  cases reply with
  | error error => trivial
  | ok value => trivial

theorem harmless_store {id : FundingId} {mark : Mark} (harmless : mark ≠ .confirmed) : Harmless (store id mark) :=
  harmless_call (by simp [harmless])

theorem prepare_harmless (funding : FundingTransaction) : Harmless (prepare funding) := by
  apply Harmless.bind (harmless_call (by simp)).attempt
  intro outcome
  cases outcome with
  | error error =>
    cases error with
    | fundingNetworkError message => exact harmless_store (by simp)
    | fundingRejected message => exact harmless_store (by simp)
    | unexpected message => trivial
  | ok prepared =>
    apply Harmless.bind (harmless_call (by simp))
    exact fun encrypted => harmless_store (by simp)

theorem broadcast_harmless (funding : FundingTransaction) : Harmless (broadcast decrypt funding) := by
  unfold broadcast
  split
  · rename_i txid encrypted _ _
    have sending : Harmless (decrypted decrypt encrypted >>= fun payload => call (.broadcast funding.id payload txid)) := by
      unfold decrypted
      split
      · exact harmless_call (by simp)
      · trivial
    apply Harmless.bind sending.attempt
    intro outcome
    cases outcome with
    | error error =>
      cases error with
      | fundingNetworkError message => exact harmless_store (by simp)
      | fundingRejected message =>
        show Harmless (if _ then _ else _)
        split
        · exact harmless_store (by simp)
        · exact harmless_store (by simp)
      | unexpected message => trivial
    | ok sent => exact harmless_store (by simp)
  · exact harmless_store (by simp)

theorem rebroadcast_harmless (funding : FundingTransaction) : Harmless (rebroadcast decrypt timeoutSeconds funding) := by
  unfold rebroadcast
  split
  · apply Harmless.bind (harmless_call (by simp))
    intro now
    show Harmless (if _ then _ else _)
    split
    · exact broadcast_harmless funding
    · exact harmless_store (by simp)
  · exact harmless_store (by simp)

/-- The confirmation of a record that was claimed alive. -/
theorem confirm_handled {funding : FundingTransaction} (member : funding ∈ sessions.world.records)
    (alive : funding.status ≠ .failed) :
    StoreSafe settings decrypt anyEnd ((confirm decrypt timeoutSeconds funding).handle implement) sessions := by
  unfold confirm
  split
  · exact (harmless_store (by simp)).safe
  · rename_i txid _
    let remembered : Except Raised ReceiptResult → Sessions → Prop := fun _ current => funding ∈ current.world.records
    have asked : StoreSafe settings decrypt remembered (implement (.receipt txid funding.contractAddress
        funding.destinationAddress funding.amountMicroUsdt)) sessions := by
      apply StoreSafe.query _ (lasting_record settings funding) member
      intro current answer reply after known valid responded
      obtain ⟨kept, borne, rows⟩ := respondStore_quiet (by simp) valid responded
      have still : funding ∈ after.records := by
        rw [Ledger.records, rows]
        exact known
      refine ⟨kept, borne, ?_⟩
      cases reply with
      | error error => exact still
      | ok receipt => exact still
    apply asked.handled
    intro reply current known
    cases reply with
    | error error =>
      cases error with
      | fundingNetworkError message => exact (harmless_store (by simp)).safe
      | fundingRejected message => trivial
      | unexpected message => trivial
    | ok receipt =>
      obtain ⟨state, message⟩ := receipt
      cases state with
      | confirmed =>
        have updated : StoreSafe settings decrypt anyEnd (implement (.update funding.id .confirmed)) current := by
          show StoreSafe settings decrypt anyEnd (updateRecord funding.id .confirmed) current
          apply updateRecord_safe _ (lasting_record settings funding) known
          intro ledger known valid _ other present same
          rw [valid.eq_of_id present known same]
          exact alive
        apply updated.handled
        intro reply after _
        cases reply with
        | error error => trivial
        | ok done => trivial
      | unknown => exact (harmless_store (by simp)).safe
      | failed => exact (harmless_store (by simp)).safe
      | pending => exact (rebroadcast_harmless funding).safe
      | notFound => exact (rebroadcast_harmless funding).safe

theorem process_handled {funding : FundingTransaction} (member : funding ∈ sessions.world.records) :
    StoreSafe settings decrypt anyEnd ((process decrypt timeoutSeconds funding).handle implement) sessions := by
  unfold process
  cases status : funding.status with
  | preparing => exact (prepare_harmless funding).safe
  | signed => exact (broadcast_harmless funding).safe
  | broadcast => exact confirm_handled member (by simp [status])
  | unknown => exact confirm_handled member (by simp [status])
  | requested => trivial
  | confirmed => trivial
  | failed => trivial

/-- What a turn does with the record that it claimed. -/
theorem claimed_handled {funding : FundingTransaction} (member : funding ∈ sessions.world.records) :
    StoreSafe settings decrypt anyEnd (((process decrypt timeoutSeconds funding).attempt.bind fun
      | .ok () => pure ()
      | .error _ => store funding.id (.unknown
        "An internal funding worker error occurred; reconciliation will continue.")).handle implement) sessions := by
  rw [Program.handle_bind, Program.handle_attempt]
  have processed : StoreSafe settings decrypt anyEnd
      ((process decrypt timeoutSeconds funding).handle implement) sessions := process_handled member
  have attempted : StoreSafe settings decrypt anyEnd ((process decrypt timeoutSeconds funding).handle implement).attempt
      sessions := processed.attempt fun _ _ _ => trivial
  apply attempted.bind
  · intro outcome after _
    cases outcome with
    | ok value => trivial
    | error error => exact (harmless_store (by simp)).safe
  · exact fun _ _ _ => trivial

theorem turn_handled : StoreSafe settings decrypt anyEnd ((turn decrypt timeoutSeconds).handle implement) sessions := by
  apply claimNext_safe.handled
  intro reply current stored
  cases reply with
  | error error => trivial
  | ok chosen =>
    cases chosen with
    | none => trivial
    | some funding => exact claimed_handled stored

end Harmless

/-- The ledgers that the processor and the requests reach together from an empty table. -/
def ReachesLedger (settings : Settings) (decrypt : String → Option String) (timeoutSeconds : Nat) (ledger : Ledger) :
    Prop :=
  ∃ threads phase, (storeProcessor decrypt timeoutSeconds).Run (storeSurroundings settings decrypt).environment
    (⟨{}, []⟩, .down) (⟨ledger, threads⟩, phase)

theorem ReachesLedger.valid (reached : ReachesLedger settings decrypt timeoutSeconds ledger) :
    ledger.Valid settings.dailyLimit := by
  obtain ⟨threads, phase, run⟩ := reached
  have sound : SessionsSound settings (⟨ledger, threads⟩ : Sessions) := by
    refine Process.run_valid ?_ ?_ ?_ ?_ run
    · intro sessions _
      have started : Harmless (processor decrypt timeoutSeconds).start := harmless_call (by simp)
      exact started.safe.weaken fun _ _ _ => trivial
    · intro sessions _
      exact turn_handled.weaken fun _ _ _ => trivial
    · rintro sessions next sound ⟨event, stepped⟩
      exact sound.step stepped
    · exact ⟨⟨List.nodup_nil, fun _ _ => Nat.zero_le _⟩, fun _ member => by cases member⟩
  exact sound.world

/-- Whatever the requests and the processor do: what a user's records of a day amount to, if
they have not failed, is within the daily limit. A limit of at most 28 digits is exact in the
arithmetic of the context. -/
theorem daily_limit_kept (reached : ReachesLedger settings decrypt timeoutSeconds ledger) (user : UserId) (day : Nat) :
    (spentOn user day ledger.rows : ℚ) ≤ (settings.fundingDailyLimitUsdt.times (.ofNat 1000000)).value ∧
      (settings.fundingDailyLimitUsdt.coefficient < 10 ^ Decimal.precision →
        (spentOn user day ledger.rows : ℚ) ≤ settings.fundingDailyLimitUsdt.value * 1000000) := by
  have within : (spentOn user day ledger.rows : ℚ) ≤ (settings.fundingDailyLimitUsdt.times (.ofNat 1000000)).value := by
    calc
      (spentOn user day ledger.rows : ℚ) ≤ (settings.dailyLimit : ℚ) := by exact_mod_cast reached.valid.limits user day
      _ ≤ _ := Decimal.truncate_le_value _
  refine ⟨within, ?_⟩
  intro fits
  have exact_ := Decimal.times_value fits 6
  norm_num at exact_
  rw [exact_] at within
  exact within

/-- A schedule that plays from the empty table reaches the ledger it ends in. -/
theorem reachesLedger_of_replay {settings : Settings} {decrypt : String → Option String} {timeoutSeconds : Nat}
    {ledger : Ledger} (moves : List (storeSurroundings settings decrypt).Move)
    (played : ((storeSurroundings settings decrypt).replay (storeProcessor decrypt timeoutSeconds) moves
      (⟨{}, []⟩, .down)).map (·.1.world) = some ledger) : ReachesLedger settings decrypt timeoutSeconds ledger := by
  obtain ⟨⟨⟨world, threads⟩, phase⟩, replayed, rfl⟩ := Option.map_eq_some_iff.mp played
  exact ⟨threads, phase, (storeSurroundings settings decrypt).replay_run _ replayed⟩

def sampleSettings : Settings where
  fundingMode := .simulator
  fundingNetwork := "nile"
  fundingContractAddress := "TUsdt"
  fundingDailyLimitUsdt := ⟨1500, 0⟩

def sampleFunding (jobId : Generator.JobId) : FundingRequest := ⟨1, jobId, ⟨⟨1000, 0⟩⟩, some "key"⟩

/-- The record of the first request. -/
def midnightFunding : FundingTransaction where
  id := 1
  destinationAddress := "TDest"
  amountMicroUsdt := 1000000000
  contractAddress := "TUsdt"
  status := .requested
  createdAt := 86400000000
  updatedAt := 86400000001

/-- Two requests of one user at midnight: the second waits for the lock, finds the day of
the first one full and is turned down, while the processor claims the first. -/
def midnightMoves : List (storeSurroundings sampleSettings some).Move :=
  [.interfere (.arrive 1 (sampleFunding 1)), .interfere (.arrive 2 (sampleFunding 2)), .proceed,
    .interfere (.answer 1 .done), .answer .done, .interfere (.answer 1 (.job (some ⟨1, 1, .ready, some "TDest"⟩))),
    .interfere (.answer 1 .done), .interfere (.answer 1 (.time 86399999999)), .interfere (.answer 1 .done),
    .interfere (.answer 1 (.inserted 1 86400000000 86400000001)), .answer (.time 86400000002), .answer .done, .proceed,
    .interfere (.answer 1 .done), .interfere (.answer 2 .done), .interfere (.answer 1 .done), .interfere (.leave 1),
    .interfere (.answer 2 (.job (some ⟨2, 1, .ready, some "TDest"⟩))), .interfere (.answer 2 .done),
    .interfere (.answer 2 (.time 86400000003)), .interfere (.answer 2 .done), .interfere (.leave 2),
    .answer (.chosen midnightFunding), .answer (.time 86400000004), .answer .done]

def midnightLedger : Ledger :=
  (((storeSurroundings sampleSettings some).replay (storeProcessor some 600) midnightMoves
    (⟨{}, []⟩, .down)).map (·.1.world)).getD {}

theorem daily_limit_kept_midnight : (spentOn 1 1 midnightLedger.rows : ℚ) ≤
    (sampleSettings.fundingDailyLimitUsdt.times (.ofNat 1000000)).value ∧
      (sampleSettings.fundingDailyLimitUsdt.coefficient < 10 ^ Decimal.precision →
        (spentOn 1 1 midnightLedger.rows : ℚ) ≤ sampleSettings.fundingDailyLimitUsdt.value * 1000000) := by
  have reached : ReachesLedger sampleSettings some 600 midnightLedger := reachesLedger_of_replay midnightMoves rfl
  exact daily_limit_kept reached 1 1

end TronForge.Funding
