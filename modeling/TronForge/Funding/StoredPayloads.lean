import Mathlib.Data.List.Induction
import TronForge.Funding.Evolution

/-! Which records can still be reconciled: a signed, broadcast or unknown record
needs its transaction id and its signed transaction. One update breaks this: the
mark of the generic handler on a record that is still being prepared. -/

namespace TronForge.Funding

open Library

variable {decrypt : String → Option String} {timeoutSeconds : Nat}

/-- The statuses that promise reconciliation of an original transaction. -/
def FundingStatus.reconciled : FundingStatus → Bool
  | .signed | .broadcast | .unknown => true
  | .requested | .preparing | .confirmed | .failed => false

/-- A record that promises reconciliation has its original transaction, and a
record that has none promises nothing. -/
structure Reconcilable (funding : FundingTransaction) : Prop where
  stored : funding.status.reconciled = true →
    funding.txid.isSome = true ∧ funding.encryptedSignedTransaction.isSome = true
  missing : funding.txid = none → funding.encryptedSignedTransaction = none →
    funding.status = .requested ∨ funding.status = .preparing ∨ funding.status = .failed

/-- The promise is kept by any status, as long as the transaction stays. -/
theorem Reconcilable.kept {funding after : FundingTransaction} (before : Reconcilable funding)
    (promised : funding.status.reconciled = true) (txid : after.txid = funding.txid)
    (payload : after.encryptedSignedTransaction = funding.encryptedSignedTransaction) :
    Reconcilable after := by
  obtain ⟨hash, ciphertext⟩ := before.stored promised
  constructor
  · intro _
    rw [txid, payload]
    exact ⟨hash, ciphertext⟩
  · intro missing
    rw [txid] at missing
    simp [missing] at hash

def PayloadsStored (world : World) : Prop := ∀ funding ∈ world.records, Reconcilable funding

section
variable {operation : Operation} {answer : Answer} {funding after : FundingTransaction}

/-- A call keeps a record reconcilable, unless it marks a record unknown that is
still unsigned or confirms one without a transaction id. -/
theorem Evolves.reconcilable (evolves : Evolves operation answer funding after)
    (before : Reconcilable funding)
    (paid : after.status = .confirmed → after.txid.isSome = true)
    (signed : ∀ message, operation = .update funding.id (.unknown message) →
      funding.status.unsigned = false) : Reconcilable after := by
  cases evolves with
  | kept same => rwa [same]
  | recovered now request stores recovers =>
    unfold recoverInterrupted at recovers
    split at recovers
    · cases recovers
      exact ⟨by simp [FundingStatus.reconciled], fun _ _ => .inl rfl⟩
    · cases recovers
  | claimed now request stores picks same =>
    subst same
    unfold claim
    split
    · exact ⟨by simp [FundingStatus.reconciled], fun _ _ => .inr (.inl rfl)⟩
    · exact before
  | written now mark request stores writes =>
    cases mark with
    | confirmed =>
      cases writes
      have txid := paid rfl
      refine ⟨by simp [FundingStatus.reconciled], ?_⟩
      intro missing
      exact absurd (congrArg Option.isSome missing) (by simp [txid])
    | prepared source txid encrypted expires =>
      simp only [Mark.writes, markPrepared] at writes
      split at writes <;> cases writes
      exact ⟨fun _ => ⟨rfl, rfl⟩, by simp⟩
    | retryPreparation message =>
      simp only [Mark.writes, Funding.retryPreparation] at writes
      split at writes <;> cases writes
      exact ⟨by simp [FundingStatus.reconciled], fun _ _ => .inl rfl⟩
    | broadcast =>
      simp only [Mark.writes, markBroadcast] at writes
      split at writes
      · cases writes
      · rename_i sendable
        cases writes
        have promised : funding.status.reconciled = true := by
          cases same : funding.status <;> simp [same, FundingStatus.reconciled] at sendable ⊢
        exact before.kept promised rfl rfl
    | unknown message =>
      have unsigned := signed message request
      simp only [Mark.writes, markUnknown] at writes
      split at writes
      · cases writes
      · rename_i unsettled
        cases writes
        have promised : funding.status.reconciled = true := by
          cases same : funding.status <;>
            simp [same, FundingStatus.reconciled, FundingStatus.unsigned] at unsettled unsigned ⊢
        exact before.kept promised rfl rfl
    | checked timeout =>
      simp only [Mark.writes, markChecked] at writes
      split at writes
      · rename_i delayed
        cases writes
        have promised : funding.status.reconciled = true := by
          simp only [confirmationDelayed, Bool.and_eq_true, decide_eq_true_eq] at delayed
          simp [delayed.1, FundingStatus.reconciled]
        exact before.kept promised rfl rfl
      · cases writes
        exact ⟨before.stored, before.missing⟩
    | failed code message =>
      simp only [Mark.writes, markFailed] at writes
      split at writes <;> cases writes
      exact ⟨by simp [FundingStatus.reconciled], fun _ _ => .inr (.inr rfl)⟩

end

/-- Every confirmed record has a transaction id. -/
structure Paid (world : World) : Prop where
  ids : (world.records.map (·.id)).Nodup
  confirmed : ∀ funding ∈ world.records, funding.status = .confirmed → funding.txid.isSome = true

/-- Some transaction id is stored for a record. -/
def Identified (id : FundingId) (world : World) : Prop :=
  ∃ stored ∈ world.records, stored.id = id ∧ stored.txid.isSome = true

theorem Identified.evolved {world after : World} {operation : Operation} {answer : Answer} {id : FundingId}
    (identified : Identified id world) (evolved : Evolved operation answer world.records after.records) :
    Identified id after := by
  obtain ⟨change, same, evolves⟩ := evolved
  obtain ⟨stored, member, key, txid⟩ := identified
  refine ⟨change stored, ?_, (evolves stored member).id.trans key, (evolves stored member).txid txid⟩
  rw [same]
  exact List.mem_map_of_mem member

/-- A call keeps the confirmed records paid, if it confirms only identified ones. -/
theorem Paid.evolved {world after : World} {operation : Operation} {answer : Answer} (paid : Paid world)
    (evolved : Evolved operation answer world.records after.records)
    (backed : ∀ id, operation = .update id .confirmed → Identified id world) : Paid after := by
  constructor
  · rw [evolved.ids]
    exact paid.ids
  · intro written member confirmed
    obtain ⟨change, same, evolves⟩ := evolved
    rw [same] at member
    obtain ⟨funding, present, rfl⟩ := List.mem_map.mp member
    apply (evolves funding present).txid
    rcases (evolves funding present).confirmed confirmed with already | request
    · exact paid.confirmed funding present already
    · obtain ⟨stored, known, key, txid⟩ := backed funding.id request
      obtain rfl := List.inj_on_of_nodup_map paid.ids known present key
      exact txid

theorem Paid.interfered {world after : World} {funding : FundingTransaction} (paid : Paid world)
    (requested : request world funding = some after) : Paid after := by
  unfold request at requested
  split at requested
  · rename_i fresh
    cases requested
    obtain ⟨⟨status, -, -⟩, unused⟩ := fresh
    constructor
    · refine List.nodup_cons.mpr ⟨?_, paid.ids⟩
      intro member
      obtain ⟨other, present, key⟩ := List.mem_map.mp member
      exact unused other present key
    · intro other member confirmed
      rcases List.mem_cons.mp member with rfl | present
      · simp [status] at confirmed
      · exact paid.confirmed other present confirmed
  · cases requested

/-- The processor confirms only the record it claimed, and only by its
transaction id. -/
def ConfirmsOwn (funding : FundingTransaction) (operation : Operation) : Prop :=
  ∀ id, operation = .update id .confirmed → id = funding.id ∧ funding.txid.isSome = true

theorem store_confirmsOwn {funding : FundingTransaction} {id : FundingId} {mark : Mark}
    (harmless : mark ≠ .confirmed) : (store id mark).CallsOnly (ConfirmsOwn funding) := by
  apply Program.callsOnly_perform
  intro other same
  cases same
  exact absurd rfl harmless

theorem call_confirmsOwn {funding : FundingTransaction} {operation : Operation}
    (harmless : ∀ id mark, operation ≠ .update id mark) :
    (call operation).CallsOnly (ConfirmsOwn funding) :=
  Program.callsOnly_perform fun id same => absurd same (harmless id _)

theorem broadcast_confirmsOwn (funding : FundingTransaction) :
    (broadcast decrypt funding).CallsOnly (ConfirmsOwn funding) := by
  unfold broadcast
  split
  · rename_i txid ciphertext _ _
    apply Program.CallsOnly.bind
    · apply Program.CallsOnly.attempt
      apply Program.CallsOnly.bind
      · unfold decrypted
        split <;> trivial
      · intro payload
        exact call_confirmsOwn (by simp)
    · intro outcome
      split
      · exact store_confirmsOwn (by simp)
      · split
        · exact store_confirmsOwn (by simp)
        · exact store_confirmsOwn (by simp)
      · trivial
      · exact store_confirmsOwn (by simp)
  · exact store_confirmsOwn (by simp)

theorem prepare_confirmsOwn (funding : FundingTransaction) :
    (prepare funding).CallsOnly (ConfirmsOwn funding) := by
  unfold prepare
  apply Program.CallsOnly.bind
  · exact (call_confirmsOwn (by simp)).attempt
  · intro outcome
    split
    · exact store_confirmsOwn (by simp)
    · exact store_confirmsOwn (by simp)
    · trivial
    · apply Program.CallsOnly.bind
      · exact call_confirmsOwn (by simp)
      · intro ciphertext
        exact store_confirmsOwn (by simp)

theorem rebroadcast_confirmsOwn (funding : FundingTransaction) :
    (rebroadcast decrypt timeoutSeconds funding).CallsOnly (ConfirmsOwn funding) := by
  unfold rebroadcast
  split
  · apply Program.CallsOnly.bind
    · exact call_confirmsOwn (by simp)
    · intro now
      split
      · exact broadcast_confirmsOwn funding
      · exact store_confirmsOwn (by simp)
  · exact store_confirmsOwn (by simp)

theorem confirm_confirmsOwn (funding : FundingTransaction) :
    (confirm decrypt timeoutSeconds funding).CallsOnly (ConfirmsOwn funding) := by
  unfold confirm
  split
  · exact store_confirmsOwn (by simp)
  · rename_i txid known
    apply Program.CallsOnly.bind
    · exact (call_confirmsOwn (by simp)).attempt
    · intro outcome
      split
      · exact store_confirmsOwn (by simp)
      · trivial
      · split
        · apply Program.callsOnly_perform
          intro id same
          cases same
          exact ⟨rfl, by simp [known]⟩
        · exact store_confirmsOwn (by simp)
        · exact store_confirmsOwn (by simp)
        · exact rebroadcast_confirmsOwn funding
        · exact rebroadcast_confirmsOwn funding

theorem process_confirmsOwn (funding : FundingTransaction) :
    (process decrypt timeoutSeconds funding).CallsOnly (ConfirmsOwn funding) := by
  unfold process
  split
  · exact prepare_confirmsOwn funding
  · exact broadcast_confirmsOwn funding
  · exact confirm_confirmsOwn funding
  · exact confirm_confirmsOwn funding
  all_goals trivial

/-- What the processor relies on while it works on a claimed record. -/
structure Backed (funding : FundingTransaction) (world : World) : Prop where
  paid : Paid world
  identified : funding.txid.isSome = true → Identified funding.id world

theorem Backed.interfered {world after : World} {funding other : FundingTransaction}
    (backed : Backed funding world) (requested : request world other = some after) :
    Backed funding after := by
  refine ⟨backed.paid.interfered requested, ?_⟩
  intro known
  obtain ⟨stored, member, key, txid⟩ := backed.identified known
  exact ⟨stored, mem_request member requested, key, txid⟩

/-- The work on a claimed record keeps every confirmed record paid. -/
theorem process_paid {world : World} {funding : FundingTransaction} (backed : Backed funding world) :
    (surroundings decrypt).environment.Safe Paid (fun _ current => Backed funding current)
      (process decrypt timeoutSeconds funding).attempt world := by
  refine Environment.Safe.of_callsOnly (process_confirmsOwn funding).attempt ?_ ?_
    (fun _ known => known.paid) backed
  · rintro current operation reply after confirms known ⟨answer, answered⟩
    have evolved := respond_evolves known.paid.ids answered
    constructor
    · apply known.paid.evolved evolved
      intro id same
      obtain ⟨rfl, txid⟩ := confirms id same
      exact known.identified txid
    · intro txid
      exact (known.identified txid).evolved evolved
  · rintro before after known ⟨other, requested⟩
    exact known.interfered requested

/-- A call that confirms nothing. -/
def Unconfirming (operation : Operation) : Prop := ∀ id, operation ≠ .update id .confirmed

theorem unconfirming_paid {world : World} {task : Task α} (only : task.CallsOnly Unconfirming)
    (paid : Paid world) :
    (surroundings decrypt).environment.Safe Paid (fun _ current => Paid current) task world := by
  refine Environment.Safe.of_callsOnly only ?_ ?_ (fun _ known => known) paid
  · rintro current operation reply after unconfirmed known ⟨answer, answered⟩
    apply known.evolved (respond_evolves known.ids answered)
    intro other same
    exact absurd same (unconfirmed other)
  · rintro before after known ⟨other, requested⟩
    exact known.interfered requested

theorem turn_paid {world : World} (paid : Paid world) :
    (surroundings decrypt).environment.Safe Paid anyOutcome (turn decrypt timeoutSeconds) world := by
  apply Environment.Safe.call Paid
  · rintro before after known ⟨other, requested⟩
    exact known.interfered requested
  · exact paid
  intro current reply after known _ performed
  obtain ⟨answer, answered⟩ := performed
  have evolved := respond_evolves known.ids answered
  have kept : Paid after := known.evolved evolved (by simp)
  refine ⟨kept, ?_⟩
  rcases reply with error | claimed
  · trivial
  · cases claimed with
    | none => trivial
    | some funding =>
      have backed : Backed funding after := by
        refine ⟨kept, ?_⟩
        intro txid
        exact ⟨funding, claimed_stored answered, rfl, txid⟩
      show (surroundings decrypt).environment.Safe Paid anyOutcome (Program.attempt _ >>= _) after
      apply (process_paid backed).bind
      · intro outcome next worked
        cases outcome with
        | ok value => trivial
        | error error =>
          have only : (store funding.id (.unknown
              "An internal funding worker error occurred; reconciliation will continue.")).CallsOnly
              Unconfirming := Program.callsOnly_perform (by simp [Unconfirming])
          exact (unconfirming_paid only worked.paid).weaken fun _ _ _ => trivial
      · intro error next _
        trivial

/-- In every run, with no condition, confirmed records have a transaction id. -/
theorem Reaches.paid {world : World} (reached : Reaches decrypt timeoutSeconds world) : Paid world := by
  obtain ⟨phase, run⟩ := reached
  have empty : Paid {} := ⟨List.nodup_nil, by simp⟩
  have kept : Paid (world, phase).1 := by
    refine Process.run_valid ?_ ?_ ?_ empty run
    · intro world paid
      have only : (call .recoverInterruptedWork).CallsOnly Unconfirming :=
        Program.callsOnly_perform (by simp [Unconfirming])
      exact (unconfirming_paid only paid).weaken fun _ _ _ => trivial
    · intro world paid
      exact (turn_paid paid).weaken fun _ _ _ => trivial
    · rintro world next paid ⟨funding, requested⟩
      exact paid.interfered requested
  exact kept

/-- The answers with which an update reaches the database. -/
def Answer.commits : Answer → Bool
  | .committed _ | .committedThenFails _ _ => true
  | _ => false

/-- A move that commits `mark_unknown` on a record still stored as requested or
preparing. -/
def marksUnsigned : (surroundings decrypt).Move → World × Phase calls Raised → Bool
  | .answer answer, (world, phase) =>
    match phase.awaited with
    | some (.update id (.unknown _)) =>
      Answer.commits answer && (world.status? id).any FundingStatus.unsigned
    | _ => false
  | _, _ => false

theorem commits_of_changed {world after : World} {id : FundingId} {mark : Mark} {answer : Answer}
    {reply : Except Raised Unit}
    (answered : respond decrypt world (.update id mark) answer = some (reply, after)) :
    Answer.commits answer = true ∨ after = world := by
  rcases respond_update answered with ⟨same, -⟩ | ⟨now, rfl | ⟨error, rfl⟩, -⟩
  · exact .inr same
  · exact .inl rfl
  · exact .inl rfl

/-- The step lemma: a move that marks no unsigned record keeps the payloads. -/
theorem PayloadsStored.moved {process : Process calls Raised} {world after : World}
    {phase next : Phase calls Raised} {move : (surroundings decrypt).Move}
    (sound : Sound decrypt world) (stored : PayloadsStored world) (paid : Paid after)
    (moved : (surroundings decrypt).move process move (world, phase) = some (after, next))
    (quiet : marksUnsigned move (world, phase) = false) : PayloadsStored after := by
  rcases (surroundings decrypt).move_cases process moved with
    rfl | ⟨funding, rfl, requested⟩ | ⟨answer, operation, reply, rfl, waiting, answered⟩
  · exact stored
  · simp only [surroundings, request] at requested
    split at requested
    · rename_i fresh
      cases requested
      intro other member
      rcases List.mem_cons.mp member with rfl | present
      · obtain ⟨⟨status, -, -⟩, -⟩ := fresh
        exact ⟨by simp [status, FundingStatus.reconciled], fun _ _ => .inl status⟩
      · exact stored other present
    · cases requested
  · by_cases changed : after = world
    · rwa [changed]
    · obtain ⟨change, same, evolves⟩ := respond_evolves sound.ids answered
      intro written member
      have confirmed := paid.confirmed written member
      rw [same] at member
      obtain ⟨funding, present, rfl⟩ := List.mem_map.mp member
      apply (evolves funding present).reconcilable (stored funding present) confirmed
      rintro message rfl
      have commits := (commits_of_changed answered).resolve_right changed
      simpa [marksUnsigned, waiting, commits, sound.status?_eq present] using quiet

/-- What a move that marks an unsigned record answers. -/
theorem marksUnsigned_cases {world : World} {phase : Phase calls Raised}
    {move : (surroundings decrypt).Move} (marks : marksUnsigned move (world, phase) = true) :
    ∃ answer message, move = .answer answer ∧ Answer.commits answer = true ∧
      ∃ funding ∈ world.records, funding.status.unsigned = true ∧
        phase.awaited = some (.update funding.id (.unknown message)) := by
  cases move with
  | answer answer =>
    simp only [marksUnsigned] at marks
    split at marks
    · rename_i id message waiting
      obtain ⟨commits, unsigned⟩ := Bool.and_eq_true_iff.mp marks
      obtain ⟨status, known, unsigned⟩ := (Option.any_eq_true _ _).mp unsigned
      obtain ⟨funding, found, rfl⟩ := Option.map_eq_some_iff.mp known
      have key : funding.id = id := by simpa using List.find?_some found
      refine ⟨answer, message, rfl, commits, funding, List.mem_of_find?_eq_some found, unsigned, ?_⟩
      rw [key]
      exact waiting
    · cases marks
  | _ => cases marks

/-- Marking an unsigned record unknown commits and leaves it without a transaction. -/
theorem commit_unknown_unsigned {world : World} {funding : FundingTransaction} (sound : Sound decrypt world)
    (member : funding ∈ world.records) (unsigned : funding.status.unsigned = true) (message : String)
    (now : Time) :
    ∃ after, commit funding.id (.unknown message) now world = some after ∧ ¬ PayloadsStored after := by
  have writes : ∃ written, markUnknown message now funding = some written ∧
      written.id = funding.id ∧ written.txid = funding.txid ∧ written.status = .unknown := by
    cases same : funding.status <;> simp [same, FundingStatus.unsigned, markUnknown] at unsigned ⊢
  obtain ⟨written, writes, id, txid, status⟩ := writes
  have unprepared : funding.txid = none := by
    cases sound.payloads funding member with
    | unprepared _ txid _ _ => exact txid
    | prepared _ _ _ _ _ signed _ => simp [unsigned] at signed
  have unique : UniqueTxids (replace written world.records) := by
    have same : (replace written world.records).filterMap (·.txid) = world.records.filterMap (·.txid) := by
      unfold replace
      rw [List.filterMap_map]
      apply List.filterMap_congr
      intro other present
      by_cases own : other.id = written.id
      · obtain rfl := sound.eq_of_id present member (own.trans id)
        simp [own, txid]
      · simp [own]
    rw [UniqueTxids, same]
    exact sound.txids
  refine ⟨{ world with
    records := replace written world.records
    history := Mark.event funding.id (.unknown message) ++ world.history }, ?_, ?_⟩
  · unfold commit
    simp only [find_of_mem sound.ids member, Mark.writes, writes, unique, ↓reduceIte]
  · intro stored
    have present : written ∈ replace written world.records := mem_replace_self member id.symm
    obtain ⟨hash, -⟩ := (stored written present).stored (by simp [status, FundingStatus.reconciled])
    simp [txid, unprepared] at hash

/-- A move that marks an unsigned record is possible and breaks the promise. -/
theorem marksUnsigned_breaks (process : Process calls Raised) {world : World}
    {phase : Phase calls Raised} {move : (surroundings decrypt).Move} (sound : Sound decrypt world)
    (marks : marksUnsigned move (world, phase) = true) :
    ∃ after next, (surroundings decrypt).move process move (world, phase) = some (after, next) ∧
      ¬ PayloadsStored after := by
  obtain ⟨answer, message, rfl, commits, funding, member, unsigned, waiting⟩ := marksUnsigned_cases marks
  cases answer with
  | committed now =>
    obtain ⟨after, committed, broken⟩ := commit_unknown_unsigned sound member unsigned message now
    have answered : (surroundings decrypt).respond world (.update funding.id (.unknown message))
        (.committed now) = some (.ok (), after) := by
      simp [surroundings, respond, committed]
    obtain ⟨next, moved⟩ := (surroundings decrypt).move_awaited process waiting answered
    exact ⟨after, next, moved, broken⟩
  | committedThenFails now error =>
    obtain ⟨after, committed, broken⟩ := commit_unknown_unsigned sound member unsigned message now
    have answered : (surroundings decrypt).respond world (.update funding.id (.unknown message))
        (.committedThenFails now error) = some (.error error, after) := by
      simp [surroundings, respond, committed]
    obtain ⟨next, moved⟩ := (surroundings decrypt).move_awaited process waiting answered
    exact ⟨after, next, moved, broken⟩
  | _ => cases commits

/-- In every run, the records of every state visited keep their promise exactly
when no move of the run marks an unsigned record unknown. -/
theorem payloads_stored_iff (decrypt : String → Option String) (timeoutSeconds : Nat)
    (moves : List (surroundings decrypt).Move) :
    (∀ visited, visited <+: moves → ∀ world phase,
      (surroundings decrypt).replay (processor decrypt timeoutSeconds) visited ({}, .down) =
        some (world, phase) → PayloadsStored world) ↔
    ∀ visited move, visited ++ [move] <+: moves → ∀ state,
      (surroundings decrypt).replay (processor decrypt timeoutSeconds) visited ({}, .down) =
        some state → marksUnsigned move state = false := by
  have reaches {visited world phase} (played : (surroundings decrypt).replay
      (processor decrypt timeoutSeconds) visited ({}, .down) = some (world, phase)) :
      Reaches decrypt timeoutSeconds world :=
    ⟨phase, (surroundings decrypt).replay_run _ played⟩
  constructor
  · rintro stored visited move front ⟨world, phase⟩ played
    by_contra marks
    obtain ⟨after, next, moved, broken⟩ :=
      marksUnsigned_breaks (processor decrypt timeoutSeconds) (reaches played).sound (by simpa using marks)
    apply broken
    apply stored (visited ++ [move]) front after next
    rw [Surroundings.replay_append, played]
    simp [Surroundings.replay, moved]
  · intro quiet visited
    induction visited using List.reverseRec with
    | nil =>
      rintro - world phase played
      cases played
      simp [PayloadsStored]
    | append_singleton visited move ih =>
      rintro front world phase played
      have earlier : visited <+: moves := (List.prefix_append visited [move]).trans front
      have paid := (reaches played).paid
      rw [Surroundings.replay_append] at played
      obtain ⟨⟨before, position⟩, first, last⟩ := Option.bind_eq_some_iff.mp played
      obtain ⟨middle, moved, done⟩ := Option.bind_eq_some_iff.mp last
      cases done
      exact PayloadsStored.moved (reaches first).sound (ih earlier before position first) paid moved
        (quiet visited move front _ first)

/-- The database is away for one commit: the signature of a claimed request is
not stored, and the handler of the loop marks the request unknown. -/
def lostSignatureMoves : List (surroundings some).Move :=
  [.interfere sampleRequest, .proceed, .answer (.committed 20), .proceed,
    .answer (.claimed sampleRequest 30),
    .answer (.transfer ⟨"TSource", "ab12", "payload", 90⟩), .answer (.ciphertext "payload"),
    .answer (.fails (.unexpected "connection is closed")), .answer (.committed 40)]

def unsignedUnknown : FundingTransaction :=
  { sampleRequest with
    status := .unknown
    attemptCount := 1
    failureCode := some "broadcast_outcome_unknown"
    failureMessage :=
      some "An internal funding worker error occurred; reconciliation will continue."
    lastCheckedAt := some 40
    updatedAt := 40 }

/-- A reachable state holds an unknown record without a transaction. -/
theorem unsigned_marked_unknown :
    Reaches some 300 { records := [unsignedUnknown] } ∧
      ¬ PayloadsStored { records := [unsignedUnknown] } := by
  refine ⟨reaches_of_replay 300 lostSignatureMoves (by decide), ?_⟩
  intro stored
  obtain ⟨hash, -⟩ := (stored unsignedUnknown (by simp)).stored rfl
  cases hash

end TronForge.Funding
