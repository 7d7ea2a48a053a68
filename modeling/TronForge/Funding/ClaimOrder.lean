import Mathlib.Data.List.Infix
import TronForge.Funding.Turns

/-! In which order the processor claims records. Whatever a turn does to the record
it claimed, it stores a new time for it, so a record of the same rank that waits is
claimed before. The rank itself comes first: a record behind it may wait forever. -/

namespace TronForge.Funding

open Library

variable {decrypt : String → Option String} {timeoutSeconds : Nat} {funding waiting : FundingTransaction}
  {id : FundingId} {world after : World}

/-- The record that a move claims. -/
def claimOf : (surroundings decrypt).Move → Option FundingTransaction
  | .answer answer => answer.picks
  | _ => none

/-- The time that a move stores. -/
def timeOf : (surroundings decrypt).Move → Option Time
  | .answer answer => answer.stores
  | _ => none

/-- The record has a later time than the one that waits. -/
def Overtaken (id : FundingId) (waiting : FundingTransaction) (records : Table) : Prop :=
  ∃ stored ∈ records, stored.id = id ∧ waiting.updatedAt < stored.updatedAt

section Effects
variable {operation : Operation} {answer : Answer} {reply : Except Raised (Reply operation)} {mark : Mark} {now : Time}

/-- Only a claim, a recovery or an update of its own touches a record. -/
theorem Evolves.untouched (evolves : Evolves operation answer waiting funding)
    (processable : waiting.status.processable = true)
    (unclaimed : ∀ claimed, answer.picks = some claimed → claimed.id ≠ waiting.id)
    (apart : ∀ mark, operation ≠ .update waiting.id mark) : funding = waiting := by
  cases evolves with
  | kept same => exact same
  | recovered now request stores recovers =>
    unfold recoverInterrupted at recovers
    split at recovers
    · rename_i preparing
      simp [preparing, FundingStatus.processable] at processable
    · cases recovers
  | claimed now request stores picks same => exact absurd rfl (unclaimed waiting picks)
  | written now mark request stores writes => exact absurd request (apart mark)

/-- A record never falls back behind a time that all later ones exceed. -/
theorem Evolves.later {since : Time} (evolves : Evolves operation answer waiting funding)
    (later : ∀ now, answer.stores = some now → since < now) (passed : since < waiting.updatedAt) :
    since < funding.updatedAt := by
  cases evolves with
  | kept same => rwa [same]
  | recovered now request stores recovers =>
    unfold recoverInterrupted at recovers
    split at recovers
    · cases recovers
      exact later now stores
    · cases recovers
  | claimed now request stores picks same =>
    rw [same, claim]
    split
    · exact later now stores
    · exact passed
  | written now mark request stores writes =>
    rw [Mark.writes_updatedAt writes]
    exact later now stores

theorem Overtaken.evolved {records later : Table} (overtaken : Overtaken id waiting records)
    (evolved : Evolved operation answer records later)
    (times : ∀ now, answer.stores = some now → waiting.updatedAt < now) : Overtaken id waiting later := by
  obtain ⟨stored, member, key, passed⟩ := overtaken
  obtain ⟨change, rfl, evolves⟩ := evolved
  exact ⟨change stored, List.mem_map_of_mem member, (evolves stored member).id.trans key,
    (evolves stored member).later times passed⟩

theorem Overtaken.mono {records wider : Table} (overtaken : Overtaken id waiting records)
    (kept : ∀ stored ∈ records, stored ∈ wider) : Overtaken id waiting wider := by
  obtain ⟨stored, member, key, passed⟩ := overtaken
  exact ⟨stored, kept stored member, key, passed⟩

theorem silent_records (ids : (world.records.map (·.id)).Nodup) (silent : Silent operation)
    (answered : respond decrypt world operation answer = some (reply, after)) : after.records = world.records := by
  obtain ⟨change, same, evolves⟩ := respond_evolves ids answered
  rw [same]
  conv_rhs => rw [← List.map_id world.records]
  apply List.map_congr_left
  intro funding member
  cases evolves funding member with
  | kept same => exact same
  | recovered now request stores recovers =>
    subst request
    cases silent
  | claimed now request stores picks same =>
    subst request
    cases silent
  | written now mark request stores writes =>
    subst request
    cases silent

/-- A commit that is answered stores its time. -/
theorem respond_update_stores {reply : Except Raised Unit}
    (answered : respond decrypt world (.update id mark) answer = some (reply, after)) :
    after = world ∧ (∃ error, reply = .error error) ∨
      ∃ now, answer.stores = some now ∧ commit id mark now world = some after := by
  rcases respond_update answered with unchanged | ⟨now, rfl | ⟨error, rfl⟩, committed⟩
  · exact .inl unchanged
  · exact .inr ⟨now, rfl, committed⟩
  · exact .inr ⟨now, rfl, committed⟩

/-- An accepted commit on the claimed record overtakes every earlier one. -/
theorem claimed_commit (ids : (world.records.map (·.id)).Nodup) (stored : funding ∈ world.records)
    (accepted : (mark.writes now funding).isSome = true) (later : waiting.updatedAt < now)
    (committed : commit funding.id mark now world = some after) : Overtaken funding.id waiting after.records := by
  obtain ⟨written, writes⟩ := Option.isSome_iff_exists.mp accepted
  have own := (Mark.written writes).1
  simp only [commit, find_of_mem ids stored, writes] at committed
  split at committed
  · cases committed
    refine ⟨written, mem_replace_self stored own.symm, own, ?_⟩
    rw [Mark.writes_updatedAt writes]
    exact later
  · cases committed

/-- What a claim does to the table, whether or not it is then lost. -/
theorem respond_claim {reply : Except Raised (Option FundingTransaction)}
    (answered : respond decrypt world .claimNext answer = some (reply, after)) :
    answer.picks = none ∧ ((∃ error, reply = .error error) ∨ reply = .ok none) ∨
      ∃ claimed now, answer.picks = some claimed ∧ claimed ∈ world.records ∧
        claimable world.records claimed = true ∧ after = Funding.claimed now claimed world ∧
        (reply = .ok (some (claim now claimed)) ∨ ∃ error, reply = .error error) := by
  cases answer with
  | fails error =>
    cases answered
    exact .inl ⟨rfl, .inl ⟨error, rfl⟩⟩
  | claimed claimed now =>
    simp only [respond] at answered
    split at answered
    · rename_i allowed
      cases answered
      exact .inr ⟨claimed, now, rfl, allowed.1, allowed.2, rfl, .inl rfl⟩
    · cases answered
  | claimedThenFails claimed now error =>
    simp only [respond] at answered
    split at answered
    · rename_i allowed
      cases answered
      exact .inr ⟨claimed, now, rfl, allowed.1, allowed.2, rfl, .inr ⟨error, rfl⟩⟩
    · cases answered
  | nothingToClaim =>
    simp only [respond] at answered
    split at answered
    · cases answered
    · cases answered
      exact .inl ⟨rfl, .inr rfl⟩
  | _ => simp [respond] at answered

/-- Only `claim_next` is answered with a record. -/
theorem picks_claimNext {claimed : FundingTransaction} (picks : answer.picks = some claimed)
    (answered : respond decrypt world operation answer = some (reply, after)) : operation = .claimNext := by
  cases answer with
  | claimed funding now => cases operation <;> first | rfl | cases answered
  | claimedThenFails funding now error => cases operation <;> first | rfl | cases answered
  | _ => cases picks

end Effects

/-- Where a process stands that claims at the head of its turns only, and updates
allowed records only. -/
def Placed (decrypt : String → Option String) (timeoutSeconds : Nat) (allowed : FundingId → Prop) :
    Phase calls Raised → Prop
  | .down => True
  | .starting task => task.CallsOnly fun operation : Operation => operation = .recoverInterruptedWork
  | .looping task => task = turn decrypt timeoutSeconds ∨ task.CallsOnly (Updates allowed)

section
variable {allowed : FundingId → Prop} {phase next : Phase calls Raised} {move : (surroundings decrypt).Move}

/-- The reply of a claim is followed by updates of the claimed record. -/
theorem afterClaim_updates {answer : Answer} {reply : Except Raised (Option FundingTransaction)}
    (answered : respond decrypt world .claimNext answer = some (reply, after))
    (picks : ∀ claimed, answer.picks = some claimed → allowed claimed.id) :
    (afterClaim decrypt timeoutSeconds reply).CallsOnly (Updates allowed) := by
  rcases respond_claim answered with ⟨-, reply⟩ | ⟨claimed, now, picked, -, processable, -, reply⟩
  · rcases reply with ⟨error, rfl⟩ | rfl <;> trivial
  · rcases reply with rfl | ⟨error, rfl⟩
    · have key := (moved_claim now claimed).id
      simp only [claimable, Bool.and_eq_true] at processable
      apply (turnOn_touching (claim_claimed now processable.1)).callsOnly.mono
      intro operation updates
      cases operation with
      | update other mark =>
        have own : other = claimed.id := updates.trans key
        rw [own]
        exact picks claimed picked
      | claimNext => cases updates
      | recoverInterruptedWork => cases updates
      | _ => trivial
    · trivial

theorem Placed.moved (place : Placed decrypt timeoutSeconds allowed phase)
    (moved : (surroundings decrypt).move (processor decrypt timeoutSeconds) move (world, phase) = some (after, next))
    (picks : ∀ claimed, claimOf move = some claimed → allowed claimed.id) :
    Placed decrypt timeoutSeconds allowed next := by
  cases move with
  | proceed =>
    cases phase with
    | down =>
      cases moved
      refine ⟨rfl, ?_⟩
      intro reply
      cases reply <;> trivial
    | starting task =>
      cases task with
      | done value =>
        cases moved
        exact .inl rfl
      | raise error =>
        cases moved
        trivial
      | call operation rest => cases moved
    | looping task =>
      cases task with
      | done value =>
        cases moved
        exact .inl rfl
      | raise error =>
        cases moved
        trivial
      | call operation rest => cases moved
  | crash =>
    cases moved
    trivial
  | interfere change =>
    obtain ⟨result, requested, same⟩ := Option.map_eq_some_iff.mp moved
    cases same
    exact place
  | answer answer =>
    obtain ⟨operation, rest, reply, answered, ⟨rfl, rfl⟩ | ⟨rfl, rfl⟩⟩ := (surroundings decrypt).answer_cases _ moved
    · exact place.2 reply
    · rcases place with again | only
      · rw [turn_eq] at again
        cases again
        exact .inr (afterClaim_updates answered picks)
      · exact .inr (only.2 reply)

theorem placed {state : World × Phase calls Raised}
    (run : (processor decrypt timeoutSeconds).Run (surroundings decrypt).environment ({}, .down) state) :
    Placed decrypt timeoutSeconds (fun _ => True) state.2 := by
  induction run with
  | refl => trivial
  | tail _ step ih =>
    obtain ⟨move, moved⟩ := (surroundings decrypt).exists_move _ step
    exact ih.moved moved fun _ _ => trivial

/-- A placed process updates allowed records. -/
theorem Placed.awaited {mark : Mark} (place : Placed decrypt timeoutSeconds allowed phase)
    (awaits : phase.awaited = some (.update id mark)) : allowed id := by
  cases phase with
  | down => cases awaits
  | starting task =>
    cases task with
    | call operation rest =>
      cases awaits
      cases place.1
    | _ => cases awaits
  | looping task =>
    cases task with
    | call operation rest =>
      cases awaits
      rcases place with again | only
      · rw [turn_eq] at again
        cases again
      · exact only.1
    | _ => cases awaits

/-- A claim happens at the head of a turn. -/
theorem claim_phase {claimed : FundingTransaction} (place : Placed decrypt timeoutSeconds allowed phase)
    (claims : claimOf move = some claimed)
    (moved : (surroundings decrypt).move (processor decrypt timeoutSeconds) move (world, phase) = some (after, next)) :
    ∃ answer reply, move = .answer answer ∧ phase = .looping (turn decrypt timeoutSeconds) ∧
      respond decrypt world .claimNext answer = some (reply, after) ∧
        next = .looping (afterClaim decrypt timeoutSeconds reply) := by
  cases move with
  | answer answer =>
    obtain ⟨operation, rest, reply, answered, ⟨rfl, rfl⟩ | ⟨rfl, rfl⟩⟩ := (surroundings decrypt).answer_cases _ moved
    · cases (picks_claimNext claims answered).symm.trans place.1
    · cases picks_claimNext claims answered
      rcases place with again | only
      · rw [turn_eq] at again
        cases again
        exact ⟨answer, reply, rfl, by rw [turn_eq], answered, rfl⟩
      · cases only.1
  | _ => cases claims

/-- The state right after a claim. -/
theorem claim_moved {claimed : FundingTransaction} (place : Placed decrypt timeoutSeconds allowed phase)
    (claims : claimOf move = some claimed)
    (moved : (surroundings decrypt).move (processor decrypt timeoutSeconds) move (world, phase) = some (after, next)) :
    claimed ∈ world.records ∧ claimable world.records claimed = true ∧
      ∃ now task, after = Funding.claimed now claimed world ∧ next = .looping task ∧
        Touching (claim now claimed) task := by
  obtain ⟨answer, reply, rfl, -, answered, rfl⟩ := claim_phase place claims moved
  rcases respond_claim answered with ⟨none, -⟩ | ⟨found, now, picks, present, allowed, rfl, reply⟩
  · cases claims.symm.trans none
  · cases claims.symm.trans picks
    refine ⟨present, allowed, now, _, rfl, rfl, ?_⟩
    rcases reply with rfl | ⟨error, rfl⟩
    · simp only [claimable, Bool.and_eq_true] at allowed
      exact turnOn_touching (claim_claimed now allowed.1)
    · trivial

/-- The loop works on the claimed record, with no update of it answered yet. -/
def Working (id : FundingId) (world : World) (phase : Phase calls Raised) : Prop :=
  ∃ claimed task, phase = .looping task ∧ claimed ∈ world.records ∧ claimed.id = id ∧ Touching claimed task

/-- The work on a claimed record ends with an update of it, unless the process goes down. -/
theorem Working.moved (working : Working id world phase) (ids : (world.records.map (·.id)).Nodup)
    (moved : (surroundings decrypt).move (processor decrypt timeoutSeconds) move (world, phase) = some (after, next))
    (later : ∀ now, timeOf move = some now → waiting.updatedAt < now)
    (fallen : next = .down → Overtaken id waiting after.records) :
    Overtaken id waiting after.records ∨ Working id after next := by
  obtain ⟨claimed, task, rfl, member, rfl, touching⟩ := working
  cases move with
  | proceed =>
    cases task with
    | done value => cases touching
    | raise error =>
      cases moved
      exact .inl (fallen rfl)
    | call operation rest => cases moved
  | crash =>
    cases moved
    exact .inl (fallen rfl)
  | interfere change =>
    obtain ⟨result, requested, same⟩ := Option.map_eq_some_iff.mp moved
    cases same
    exact .inr ⟨claimed, task, rfl, mem_request member requested, rfl, touching⟩
  | answer answer =>
    obtain ⟨operation, rest, reply, answered, ⟨impossible, -⟩ | ⟨same, rfl⟩⟩ :=
      (surroundings decrypt).answer_cases _ moved
    · cases impossible
    · cases same
      obtain ⟨works, remaining⟩ := touching
      have further := remaining reply
      cases operation with
      | update key mark =>
        obtain ⟨rfl, accepted⟩ := works
        rcases respond_update_stores answered with ⟨rfl, error, rfl⟩ | ⟨now, stores, committed⟩
        · exact .inr ⟨claimed, _, rfl, member, rfl, further⟩
        · exact .inl (claimed_commit ids member (accepted now) (later now stores) committed)
      | claimNext => cases works
      | recoverInterruptedWork => cases works
      | _ =>
        have same := silent_records ids (by trivial) answered
        exact .inr ⟨claimed, _, rfl, by rwa [same], rfl, further⟩

/-- A record waits, unclaimed, since another one was claimed. -/
structure Waits (decrypt : String → Option String) (timeoutSeconds : Nat) (id : FundingId)
    (waiting : FundingTransaction) (state : World × Phase calls Raised) : Prop where
  place : Placed decrypt timeoutSeconds (· ≠ waiting.id) state.2
  member : waiting ∈ state.1.records
  standing : Overtaken id waiting state.1.records ∨ Working id state.1 state.2

/-- Every move but its claim keeps the record waiting. -/
theorem Waits.moved (waits : Waits decrypt timeoutSeconds id waiting (world, phase))
    (ids : (world.records.map (·.id)).Nodup) (processable : waiting.status.processable = true)
    (moved : (surroundings decrypt).move (processor decrypt timeoutSeconds) move (world, phase) = some (after, next))
    (later : ∀ now, timeOf move = some now → waiting.updatedAt < now)
    (fallen : next = .down → Overtaken id waiting after.records)
    (unclaimed : ∀ claimed, claimOf move = some claimed → claimed.id ≠ waiting.id) :
    Waits decrypt timeoutSeconds id waiting (after, next) := by
  refine ⟨waits.place.moved moved unclaimed, ?_, ?_⟩
  · rcases (surroundings decrypt).move_cases _ moved with
      rfl | ⟨change, rfl, requested⟩ | ⟨answer, operation, reply, rfl, awaits, answered⟩
    · exact waits.member
    · exact mem_request waits.member requested
    · obtain ⟨change, same, evolves⟩ := respond_evolves ids answered
      have kept : change waiting = waiting := by
        apply (evolves waiting waits.member).untouched processable unclaimed
        rintro mark rfl
        exact waits.place.awaited awaits rfl
      rw [same]
      have carried : change waiting ∈ world.records.map change := List.mem_map_of_mem waits.member
      rwa [kept] at carried
  · rcases waits.standing with overtaken | working
    · left
      rcases (surroundings decrypt).move_cases _ moved with
        rfl | ⟨change, rfl, requested⟩ | ⟨answer, operation, reply, rfl, -, answered⟩
      · exact overtaken
      · exact overtaken.mono fun stored present => mem_request present requested
      · exact overtaken.evolved (respond_evolves ids answered) later
    · exact working.moved ids moved later fallen

end

/-- Along a run the record keeps waiting, until it is claimed. -/
theorem Waits.replay {start last : World × Phase calls Raised} {moves : List (surroundings decrypt).Move}
    (waits : Waits decrypt timeoutSeconds id waiting start) (processable : waiting.status.processable = true)
    (run : (processor decrypt timeoutSeconds).Run (surroundings decrypt).environment ({}, .down) start)
    (played : (surroundings decrypt).replay (processor decrypt timeoutSeconds) moves start = some last)
    (later : ∀ now ∈ moves.filterMap timeOf, waiting.updatedAt < now)
    (stored : ∀ visited, visited <+: moves → ∀ world,
      (surroundings decrypt).replay (processor decrypt timeoutSeconds) visited start = some (world, .down) →
        Overtaken id waiting world.records)
    (unclaimed : ∀ claimed ∈ moves.filterMap claimOf, claimed.id ≠ waiting.id) :
    Waits decrypt timeoutSeconds id waiting last := by
  induction moves generalizing start with
  | nil =>
    cases played
    exact waits
  | cons move moves ih =>
    obtain ⟨middle, moved, remaining⟩ := Option.bind_eq_some_iff.mp played
    have sound : Sound decrypt start.1 := Reaches.sound ⟨start.2, run⟩
    have further : Waits decrypt timeoutSeconds id waiting middle := by
      apply waits.moved sound.ids processable moved
      · intro now stores
        exact later now (List.mem_filterMap.mpr ⟨move, List.mem_cons_self, stores⟩)
      · intro fallen
        apply stored [move] (by simp) middle.1
        simp only [Surroundings.replay, moved, ← fallen]
        rfl
      · intro claimed claims
        exact unclaimed claimed (List.mem_filterMap.mpr ⟨move, List.mem_cons_self, claims⟩)
    apply ih further (run.tail ((surroundings decrypt).move_step _ moved)) remaining
    · intro now present
      obtain ⟨one, there, stores⟩ := List.mem_filterMap.mp present
      exact later now (List.mem_filterMap.mpr ⟨one, List.mem_cons_of_mem _ there, stores⟩)
    · intro visited leading world reached
      apply stored (move :: visited) ((List.prefix_cons_inj move).mpr leading) world
      simp only [Surroundings.replay, moved]
      exact reached
    · intro claimed present
      obtain ⟨one, there, claims⟩ := List.mem_filterMap.mp present
      exact unclaimed claimed (List.mem_filterMap.mpr ⟨one, List.mem_cons_of_mem _ there, claims⟩)

/-- Between two claims of one record, every other record that could be claimed and
whose status is not behind is claimed too. -/
theorem waiting_claimed_between (decrypt : String → Option String) (timeoutSeconds : Nat)
    (before start last final : World × Phase calls Raised) (first second : (surroundings decrypt).Move)
    (moves : List (surroundings decrypt).Move) (funding again waiting : FundingTransaction)
    (run : (processor decrypt timeoutSeconds).Run (surroundings decrypt).environment ({}, .down) before)
    (claims : claimOf first = some funding)
    (opened : (surroundings decrypt).move (processor decrypt timeoutSeconds) first before = some start)
    (played : (surroundings decrypt).replay (processor decrypt timeoutSeconds) moves start = some last)
    (later : ∀ now ∈ moves.filterMap timeOf, waiting.updatedAt < now)
    (stored : ∀ visited, visited <+: moves → ∀ world,
      (surroundings decrypt).replay (processor decrypt timeoutSeconds) visited start = some (world, .down) →
        Overtaken funding.id waiting world.records)
    (reclaims : claimOf second = some again) (same : again.id = funding.id)
    (closed : (surroundings decrypt).move (processor decrypt timeoutSeconds) second last = some final)
    (member : waiting ∈ before.1.records) (other : waiting.id ≠ funding.id)
    (processable : waiting.status.processable = true)
    (ranked : priority waiting.status ≤ priority again.status) :
    ∃ claimed ∈ moves.filterMap claimOf, claimed.id = waiting.id := by
  by_contra never
  push Not at never
  have further := run.tail ((surroundings decrypt).move_step _ opened)
  have waits : Waits decrypt timeoutSeconds funding.id waiting start := by
    obtain ⟨answer, reply, -, head, -, -⟩ := claim_phase (placed run) claims opened
    obtain ⟨present, -, now, task, recorded, working, touching⟩ := claim_moved (placed run) claims opened
    have key := (moved_claim now funding).id
    have turning : Placed decrypt timeoutSeconds (· ≠ waiting.id) before.2 := by
      rw [head]
      exact .inl rfl
    refine ⟨turning.moved opened ?_, ?_, .inr ⟨claim now funding, task, working, ?_, key, touching⟩⟩
    · intro claimed picked
      cases claims.symm.trans picked
      exact other.symm
    · rw [recorded]
      exact mem_replace_of_ne member (by rwa [key])
    · rw [recorded]
      exact mem_replace_self present key.symm
  have waited := waits.replay processable further played later stored never
  have whole := further.trans ((surroundings decrypt).replay_run _ played)
  have sound : Sound decrypt last.1 := Reaches.sound ⟨last.2, whole⟩
  obtain ⟨answer, reply, -, head, -, -⟩ := claim_phase (placed whole) reclaims closed
  obtain ⟨found, claimable, -⟩ := claim_moved (placed whole) reclaims closed
  have overtaken : Overtaken funding.id waiting last.1.records := by
    rcases waited.standing with overtaken | ⟨claimed, task, looping, -, -, touching⟩
    · exact overtaken
    · cases head.symm.trans looping
      rw [turn_eq] at touching
      cases touching.1
  obtain ⟨record, there, own, passed⟩ := overtaken
  obtain rfl := sound.eq_of_id there found (own.trans same.symm)
  have before : claimsBefore waiting record = true := by
    rcases Nat.lt_or_eq_of_le ranked with ahead | level <;> simp [claimsBefore, *]
  simp only [Funding.claimable, Bool.and_eq_true, List.all_eq_true] at claimable
  have refused := claimable.2 waiting waited.member
  simp [processable, before] at refused

/-- Two requests whose preparation finds no node: each is claimed again only
after the other. -/
def retriedMoves : List (surroundings some).Move :=
  [.answer (.fails (.fundingNetworkError "down")), .answer (.committed 40), .proceed,
    .answer (.claimed { sampleRequest with id := 2 } 50),
    .answer (.fails (.fundingNetworkError "down")), .answer (.committed 60), .proceed]

def retriedRequest : FundingTransaction :=
  { sampleRequest with
    attemptCount := 1
    failureCode := some "node_unavailable"
    failureMessage := some "down"
    updatedAt := 40 }

def retriedStart : List (surroundings some).Move :=
  [.interfere sampleRequest, .interfere { sampleRequest with id := 2 }, .proceed, .answer (.committed 20), .proceed]

theorem waiting_claimed_between_retries :
    ∃ claimed ∈ retriedMoves.filterMap claimOf, claimed.id = 2 := by
  have run := (surroundings some).replay_run (processor some 300)
    (rfl : (surroundings some).replay (processor some 300) retriedStart ({}, .down) = some _)
  refine waiting_claimed_between some 300 _ _ _ _ (.answer (.claimed sampleRequest 30))
    (.answer (.claimed retriedRequest 70)) retriedMoves sampleRequest retriedRequest
    { sampleRequest with id := 2 } run rfl rfl rfl (by decide) ?_ rfl rfl rfl (by decide) (by decide) (by decide) (by decide)
  intro visited leading world fallen
  have present := (List.mem_inits visited retriedMoves).mpr leading
  simp only [retriedMoves, List.inits, List.map_cons, List.map_nil, List.mem_cons, List.not_mem_nil, or_false] at present
  rcases present with rfl | rfl | rfl | rfl | rfl | rfl | rfl | rfl <;> cases fallen

/-- A record is processable, and the loop runs, in every state along the moves. -/
def StaysProcessable (decrypt : String → Option String) (timeoutSeconds : Nat) (id : FundingId)
    (moves : List (surroundings decrypt).Move) (start : World × Phase calls Raised) : Prop :=
  ∀ visited ∈ moves.inits,
    ∀ state ∈ (surroundings decrypt).replay (processor decrypt timeoutSeconds) visited start,
      state.2.inLoop = true ∧ ∃ funding ∈ state.1.records, funding.id = id ∧ funding.status.processable = true

/-- A transaction whose broadcast found no node, and that expired unseen. -/
def expiredRecord : FundingTransaction :=
  { sampleRequest with
    status := .unknown
    sourceAddress := some "TSource"
    txid := some "ab12"
    encryptedSignedTransaction := some "payload"
    transactionExpiresAt := some 90
    attemptCount := 1
    failureCode := some "broadcast_outcome_unknown"
    failureMessage := some "down"
    lastCheckedAt := some 60
    updatedAt := 60 }

def expiredStart : List (surroundings some).Move :=
  [.interfere sampleRequest, .proceed, .answer (.committed 20), .proceed,
    .answer (.claimed sampleRequest 30), .answer (.transfer ⟨"TSource", "ab12", "payload", 90⟩),
    .answer (.ciphertext "payload"), .answer (.committed 40), .proceed,
    .answer (.claimed
      { expiredRecord with
        status := .signed, failureCode := none, failureMessage := none, lastCheckedAt := none, updatedAt := 40 } 50),
    .answer (.broadcast false (.error (.fundingNetworkError "down"))), .answer (.committed 60), .proceed,
    .interfere { sampleRequest with id := 2, createdAt := 65, updatedAt := 65 }]

/-- Its receipt is never found, and its expiry has passed. -/
def expiredMoves : List (surroundings some).Move :=
  [.answer (.receipt ⟨.notFound, none⟩), .answer (.time 95), .answer (.committed 100), .proceed]

/-- The unknown record is claimed twice in a row while a request waits. -/
theorem request_passed_over :
    ¬ ∀ (decrypt : String → Option String) (timeoutSeconds : Nat)
      (before start last final : World × Phase calls Raised)
      (first second : (surroundings decrypt).Move) (moves : List (surroundings decrypt).Move)
      (funding again waiting : FundingTransaction),
      (processor decrypt timeoutSeconds).Run (surroundings decrypt).environment ({}, .down) before →
      claimOf first = some funding →
      (surroundings decrypt).move (processor decrypt timeoutSeconds) first before = some start →
      (surroundings decrypt).replay (processor decrypt timeoutSeconds) moves start = some last →
      claimOf second = some again → again.id = funding.id →
      (surroundings decrypt).move (processor decrypt timeoutSeconds) second last = some final →
      (∀ claimed ∈ moves.filterMap claimOf, claimed.id ≠ funding.id) →
      waiting ∈ before.1.records → waiting.id ≠ funding.id →
      StaysProcessable decrypt timeoutSeconds waiting.id moves start →
      ∃ claimed ∈ moves.filterMap claimOf, claimed.id = waiting.id := by
  intro claimed
  have reached := (surroundings some).replay_run (processor some 300)
    (rfl : (surroundings some).replay (processor some 300) expiredStart ({}, .down) = some _)
  obtain ⟨record, present, -⟩ := claimed some 300 _ _ _ _ (.answer (.claimed expiredRecord 70))
    (.answer (.claimed { expiredRecord with lastCheckedAt := some 100, updatedAt := 100 } 110)) expiredMoves
    expiredRecord _ { sampleRequest with id := 2, createdAt := 65, updatedAt := 65 } reached rfl rfl rfl rfl rfl rfl
    (by decide) (by decide) (by decide) (by unfold StaysProcessable; decide)
  cases present

end TronForge.Funding
