import TronForge.Library.Machine
import TronForge.Bot.ApiClient

/-! The tasks of the client keep its history in order, in any interleaving. A task relies
on what it has sent, on the tokens that were issued, and on the lock. -/

namespace TronForge.Bot

open Library

variable {settings : ApiSettings} {id other : RequestId} {task : Task} {world before after : ApiWorld}
  {sofar : List Traffic} {known : List Renewal}

/-- The client holds the latest token of the history, tokens that are stored were issued,
and the history is in order. -/
structure ApiWorld.Valid (world : ApiWorld) : Prop where
  current : (renewals world.history).head? = world.token.map fun token => ⟨token, world.nextAuthAt⟩
  issued : ∀ token ∈ tokens world.history, token ∈ world.issued
  orderly : Orderly world.history

/-- What a task may rely on: others do not act in its name, and while it holds the lock the
token stays. -/
structure Relies (id : RequestId) (before after : ApiWorld) : Prop where
  grows : ∃ more, after.history = more ++ before.history ∧ ∀ event ∈ more, event.sender ≠ id
  clock : before.clock ≤ after.clock
  issued : ∀ token ∈ before.issued, token ∈ after.issued
  locked : before.authLock = some id → after.authLock = some id ∧ renewals after.history = renewals before.history

theorem Relies.refl (id : RequestId) (world : ApiWorld) : Relies id world world :=
  ⟨⟨[], rfl, by simp⟩, le_rfl, fun _ member => member, fun held => ⟨held, rfl⟩⟩

theorem Relies.trans {middle : ApiWorld} (first : Relies id before middle) (next : Relies id middle after) :
    Relies id before after where
  grows := by
    obtain ⟨more, same, others⟩ := first.grows
    obtain ⟨later, sameLater, othersLater⟩ := next.grows
    refine ⟨later ++ more, by rw [sameLater, same, List.append_assoc], ?_⟩
    intro event member
    rcases List.mem_append.mp member with new | old
    · exact othersLater event new
    · exact others event old
  clock := first.clock.trans next.clock
  issued token member := next.issued token (first.issued token member)
  locked held := by
    obtain ⟨still, same⟩ := first.locked held
    obtain ⟨stillLater, sameLater⟩ := next.locked still
    exact ⟨stillLater, sameLater.trans same⟩

/-- Tokens stay issued. -/
theorem Relies.tokens {token : Token} (relies : Relies id before after) (member : token ∈ tokens before.history) :
    token ∈ Bot.tokens after.history := by
  obtain ⟨more, same, -⟩ := relies.grows
  rw [same, tokens_append]
  exact List.mem_append_right _ member

section Effects

theorem relies_wait (elapsed : Instant) : Relies id world (world.wait elapsed) :=
  ⟨⟨[], rfl, by simp⟩, Nat.le_add_right _ _, fun _ member => member, fun held => ⟨held, rfl⟩⟩

/-- Events that store no token. -/
theorem relies_log {event : ApiEvent} (others : event.sender ≠ other) (quiet : event.renewal = none) :
    Relies other world (world.log event) where
  grows := ⟨[event], rfl, by simpa using others⟩
  clock := le_rfl
  issued _ member := member
  locked held := ⟨held, List.filterMap_cons_none quiet⟩

theorem relies_acquire (free : world.authLock = none) : Relies other world (world.acquire id) where
  grows := ⟨[], rfl, by simp⟩
  clock := le_rfl
  issued _ member := member
  locked held := by
    rw [free] at held
    cases held

theorem relies_release (different : other ≠ id) : Relies other world (world.release id) := by
  unfold ApiWorld.release
  split
  · rename_i mine
    refine ⟨⟨[], rfl, by simp⟩, le_rfl, fun _ member => member, ?_⟩
    intro held
    exact absurd (Option.some.inj (held.symm.trans mine)) different
  · exact .refl other world

theorem relies_issue {token : Token} : Relies other world { world with issued := token :: world.issued } :=
  ⟨⟨[], rfl, by simp⟩, le_rfl, fun _ member => List.mem_cons_of_mem _ member, fun held => ⟨held, rfl⟩⟩

theorem relies_renew {token : Token} {seconds : Nat} (held : world.authLock = some id) (different : other ≠ id) :
    Relies other world (world.renew id token seconds) where
  grows := ⟨[.renewed id token _], rfl, by simpa [ApiEvent.sender] using Ne.symm different⟩
  clock := le_rfl
  issued _ member := member
  locked its := absurd (Option.some.inj (its.symm.trans held)) different

theorem ApiWorld.Valid.wait (valid : world.Valid) (elapsed : Instant) : (world.wait elapsed).Valid :=
  ⟨valid.current, valid.issued, valid.orderly⟩

theorem ApiWorld.Valid.log (valid : world.Valid) {event : ApiEvent} (quiet : event.renewal = none)
    (orderly : Orderly (event :: world.history)) : (world.log event).Valid where
  current := by
    have same : renewals (event :: world.history) = renewals world.history := List.filterMap_cons_none quiet
    simp only [ApiWorld.log, same]
    exact valid.current
  issued token member := by
    have same : renewals (event :: world.history) = renewals world.history := List.filterMap_cons_none quiet
    simp only [ApiWorld.log, tokens, same] at member
    exact valid.issued token member
  orderly := orderly

theorem ApiWorld.Valid.acquire (valid : world.Valid) : (world.acquire id).Valid :=
  ⟨valid.current, valid.issued, valid.orderly⟩

theorem ApiWorld.Valid.release (valid : world.Valid) : (world.release id).Valid := by
  unfold ApiWorld.release
  split
  · exact ⟨valid.current, valid.issued, valid.orderly⟩
  · exact valid

theorem ApiWorld.Valid.issue (valid : world.Valid) {token : Token} :
    ApiWorld.Valid { world with issued := token :: world.issued } :=
  ⟨valid.current, fun token member => List.mem_cons_of_mem _ (valid.issued token member), valid.orderly⟩

theorem ApiWorld.Valid.renew (valid : world.Valid) {token : Token} {seconds : Nat} {moment : Instant}
    (issued : token ∈ world.issued) (distinct : token ∉ tokens world.history)
    (posted : lastPost id world.history = some moment)
    (due : Due moment (traffic id world.history) (renewals world.history)) : (world.renew id token seconds).Valid where
  current := rfl
  issued stored member := by
    rcases List.mem_cons.mp member with rfl | old
    · exact issued
    · exact valid.issued stored old
  orderly := .renewed distinct posted due valid.orderly

end Effects

/-- How the calls of a task are answered, and what others do. -/
abbrev apiEnvironment (id : RequestId) : Environment apiCalls ApiError ApiWorld :=
  ⟨fun world operation reply after => ∃ answer : ApiAnswer,
    answerApi id (world.wait answer.elapsed) operation answer.outcome = some (reply, after), Relies id⟩

/-- What holds of a returned value; an exception says nothing. -/
def Returning (post : α → ApiWorld → Prop) : Except ApiError α → ApiWorld → Prop
  | .ok value, world => post value world
  | .error _, _ => True

/-- The program can go on from here, and what it returns satisfies `post`. -/
abbrev Yields (id : RequestId) (post : α → ApiWorld → Prop) (program : ApiTask α) (world : ApiWorld) : Prop :=
  (apiEnvironment id).Assures ApiWorld.Valid (Spares Relies id) (Returning post) program world

section Rules
variable {program : ApiTask α} {post : α → ApiWorld → Prop}

theorem Yields.bind {first : β → ApiWorld → Prop} {start : ApiTask β} {rest : β → ApiTask α}
    (yields : Yields id first start world) (resume : ∀ value current, first value current → Yields id post (rest value) current) :
    Yields id post (start >>= rest) world :=
  Environment.Assures.bind yields resume fun _ _ _ => trivial

theorem Yields.weaken {first : α → ApiWorld → Prop} (yields : Yields id first program world)
    (implies : ∀ value current, first value current → post value current) : Yields id post program world := by
  apply Environment.Assures.weaken yields
  intro outcome current known
  cases outcome with
  | ok value => exact implies value current known
  | error error => trivial

theorem Yields.catching (yields : Yields id post program world) : Yields id post (catching program) world := by
  let ended : Except ApiError α → ApiWorld → Prop := Returning post
  have attempted : Yields id ended program.attempt world :=
    Environment.Assures.attempt yields fun _ _ known => known
  apply attempted.bind
  intro outcome current known
  cases outcome with
  | ok value => exact known
  | error error => trivial

/-- The rule for one call: what the task knows stays true until the answer. -/
theorem Yields.ask {operation : ApiCall} {post : ApiReply operation → ApiWorld → Prop} (knows : ApiWorld → Prop)
    (stable : ∀ before after, knows before → Relies id before after → knows after) (known : knows world)
    (answer : ∀ current outcome reply after, knows current → current.Valid →
      answerApi id current operation outcome = some (reply, after) →
      after.Valid ∧ Spares Relies id current after ∧ Returning post reply after) :
    Yields id post (ask operation) world := by
  apply Environment.Assures.perform knows stable known
  intro current reply after knowsCurrent valid performed
  obtain ⟨⟨outcome, elapsed⟩, answered⟩ := performed
  have waited : Relies id current (current.wait elapsed) := relies_wait elapsed
  obtain ⟨kept, spares, ends⟩ :=
    answer _ outcome reply after (stable _ _ knowsCurrent waited) (valid.wait elapsed) answered
  exact ⟨kept, fun other different => (relies_wait elapsed).trans (spares other different), ends⟩

end Rules

/-- What a task has done so far. -/
structure Knows (id : RequestId) (task : Task) (sofar : List Traffic) (world : ApiWorld) : Prop where
  called : .called id task ∈ world.history
  traffic : traffic id world.history = sofar

/-- A task holds the lock, so the token stays. -/
structure Holding (id : RequestId) (task : Task) (sofar : List Traffic) (known : List Renewal) (world : ApiWorld) :
    Prop extends Knows id task sofar world where
  held : world.authLock = some id
  known : renewals world.history = known

/-- A task has posted a login. -/
structure Posted (id : RequestId) (task : Task) (sofar : List Traffic) (known : List Renewal) (moment : Instant)
    (world : ApiWorld) : Prop extends Holding id task sofar known world where
  posted : lastPost id world.history = some moment

/-- There is a token, and those that were rejected have been replaced. -/
def Usable (sofar : List Traffic) (known : List Renewal) : Prop :=
  known ≠ [] ∧ ∀ rejected, Rejected rejected sofar → rejected ∈ (known.map (·.token)).tail

/-- A task can send. -/
structure Ready (id : RequestId) (task : Task) (sofar : List Traffic) (world : ApiWorld) : Prop
    extends Knows id task sofar world where
  usable : Usable sofar (renewals world.history)

theorem Knows.stable (knows : Knows id task sofar before) (relies : Relies id before after) :
    Knows id task sofar after := by
  obtain ⟨more, same, others⟩ := relies.grows
  constructor
  · rw [same]
    exact List.mem_append_right _ knows.called
  · rw [same, traffic_append others]
    exact knows.traffic

theorem Holding.stable (holding : Holding id task sofar known before) (relies : Relies id before after) :
    Holding id task sofar known after where
  toKnows := holding.toKnows.stable relies
  held := (relies.locked holding.held).1
  known := (relies.locked holding.held).2.trans holding.known

theorem Posted.stable {moment : Instant} (posted : Posted id task sofar known moment before)
    (relies : Relies id before after) : Posted id task sofar known moment after where
  toHolding := posted.toHolding.stable relies
  posted := by
    obtain ⟨more, same, others⟩ := relies.grows
    rw [same, lastPost_append others]
    exact posted.posted

theorem Usable.append (usable : Usable sofar known) (more : List Renewal) : Usable sofar (more ++ known) := by
  cases more with
  | nil => exact usable
  | cons latest more =>
    refine ⟨List.cons_ne_nil _ _, ?_⟩
    intro rejected member
    have old := List.mem_of_mem_tail (usable.2 rejected member)
    simp only [List.cons_append, List.map_cons, List.tail_cons, List.map_append]
    exact List.mem_append_right _ old

theorem Ready.stable (ready : Ready id task sofar before) (relies : Relies id before after) :
    Ready id task sofar after where
  toKnows := ready.toKnows.stable relies
  usable := by
    obtain ⟨more, same, -⟩ := relies.grows
    rw [same, renewals, List.filterMap_append]
    exact ready.usable.append _

/-- The token that a forced task calls stale is the one that was rejected. -/
def Asked (force : Bool) (staleToken : Option Token) (sofar : List Traffic) : Prop :=
  ∀ rejected, Rejected rejected sofar → force = true ∧ staleToken = some rejected

theorem Due.mono {moment later : Instant} (due : Due moment sofar known) (ordered : moment ≤ later) :
    Due later sofar known := by
  intro rejected member current inUse
  rcases due rejected member current inUse with same | expired
  · exact .inl same
  · exact .inr (expired.trans ordered)

theorem ApiWorld.Valid.token (valid : world.Valid) :
    (renewals world.history).head?.map (·.token) = world.token := by
  rw [valid.current]
  cases world.token <;> rfl

theorem ApiWorld.Valid.isCurrent (valid : world.Valid) (current : world.tokenIsCurrent = true) :
    renewals world.history ≠ [] := by
  intro none_
  have absent := valid.token
  rw [none_] at absent
  simp [ApiWorld.tokenIsCurrent, ← absent] at current

theorem ApiWorld.Valid.notCurrent (valid : world.Valid) (expired : world.tokenIsCurrent = false) :
    ∀ current ∈ (renewals world.history).head?, current.nextAuthAt ≤ world.clock := by
  intro current inUse
  rw [valid.current] at inUse
  obtain ⟨token, present, rfl⟩ := Option.map_eq_some_iff.mp inUse
  simpa [ApiWorld.tokenIsCurrent, present] using expired

theorem tokenIsCurrent_yields (knows : ApiWorld → Prop)
    (stable : ∀ before after, knows before → Relies id before after → knows after) (holds : knows world) :
    Yields id (fun value current => knows current ∧ current.Valid ∧ value = current.tokenIsCurrent)
      (ask .tokenIsCurrent) world := by
  apply Yields.ask knows stable holds
  intro current outcome reply after knowsCurrent valid answered
  cases ApiOutcome.whenDone_some answered
  exact ⟨valid, fun other _ => .refl other _, knowsCurrent, valid, rfl⟩

theorem token_yields (knows : ApiWorld → Prop)
    (stable : ∀ before after, knows before → Relies id before after → knows after) (holds : knows world) :
    Yields id (fun value current => knows current ∧ current.Valid ∧ value = current.token) (ask .token) world := by
  apply Yields.ask knows stable holds
  intro current outcome reply after knowsCurrent valid answered
  cases ApiOutcome.whenDone_some answered
  exact ⟨valid, fun other _ => .refl other _, knowsCurrent, valid, rfl⟩

/-- Under the lock: either the token is good, or a login is due. -/
theorem alreadyRenewed_yields {force : Bool} {staleToken : Option Token}
    (holding : Holding id task sofar known world) (asked : Asked force staleToken sofar) :
    Yields id (fun renewed current => Holding id task sofar known current ∧
      if renewed then Usable sofar known else Due current.clock sofar known) (alreadyRenewed force staleToken) world := by
  have stable (before after : ApiWorld) (holds : Holding id task sofar known before) (relies : Relies id before after) :
      Holding id task sofar known after := holds.stable relies
  cases force with
  | false =>
    have unrejected (rejected : Token) : ¬ Rejected rejected sofar := fun member => by cases (asked rejected member).1
    apply (tokenIsCurrent_yields _ stable holding).weaken
    rintro renewed current ⟨holds, valid, same⟩
    refine ⟨holds, ?_⟩
    cases renewed with
    | false => exact fun rejected member => absurd member (unrejected rejected)
    | true => exact ⟨holds.known ▸ valid.isCurrent same.symm, fun rejected member => absurd member (unrejected rejected)⟩
  | true =>
    cases staleToken with
    | none =>
      refine ⟨holding, ?_⟩
      intro rejected member
      cases (asked rejected member).2
    | some stale =>
      have only (rejected : Token) (member : Rejected rejected sofar) : rejected = stale :=
        (Option.some.inj (asked rejected member).2).symm
      have read : Yields id (fun token current => Holding id task sofar known current ∧
          known.head?.map (·.token) = token) (ask .token) world := by
        apply (token_yields _ stable holding).weaken
        rintro token current ⟨holds, valid, same⟩
        exact ⟨holds, by rw [same, ← valid.token, holds.known]⟩
      apply read.bind
      rintro token current ⟨holds, same⟩
      by_cases again : token = some stale
      · simp only [again, ne_eq, not_true_eq_false, ↓reduceIte]
        refine ⟨holds, ?_⟩
        intro rejected member current inUse
        left
        rw [only rejected member]
        rw [Option.mem_def.mp inUse, again] at same
        exact Option.some.inj same
      · simp only [again, ne_eq, not_false_eq_true, ↓reduceIte]
        apply (tokenIsCurrent_yields _ stable holds).weaken
        rintro renewed current ⟨holds, valid, current_⟩
        refine ⟨holds, ?_⟩
        cases renewed with
        | false =>
          intro rejected member latest inUse
          exact .inr (valid.notCurrent current_.symm latest (holds.known ▸ inUse))
        | true =>
          have nonempty : known ≠ [] := holds.known ▸ valid.isCurrent current_.symm
          refine ⟨nonempty, ?_⟩
          intro rejected member
          have issued : rejected ∈ tokens current.history := valid.orderly.rejected_issued (holds.traffic ▸ member)
          rw [tokens, holds.known] at issued
          cases known with
          | nil => exact absurd rfl nonempty
          | cons latest earlier =>
            rcases List.mem_cons.mp issued with inUse | replaced
            · refine absurd (same.symm.trans ?_) again
              rw [← only rejected member, inUse]
              rfl
            · exact replaced

theorem post_yields {username password : String} (holding : Holding id task sofar known world)
    (due : Due world.clock sofar known) :
    Yields id (fun _ current => ∃ moment, Posted id task sofar known moment current ∧ Due moment sofar known)
      (ask (.post username password)) world := by
  apply Yields.ask (fun current => Holding id task sofar known current ∧ Due current.clock sofar known)
    (fun _ _ holds relies => ⟨holds.1.stable relies, holds.2.mono relies.clock⟩) ⟨holding, due⟩
  rintro current outcome reply after ⟨holds, dueNow⟩ valid answered
  rcases ApiOutcome.whenSent_some answered with ⟨rfl, rfl⟩ | ⟨⟨error, rfl⟩, rfl⟩
  · refine ⟨valid.log rfl (.posted valid.orderly), fun other different => relies_log different.symm rfl,
      current.clock, ?_, dueNow⟩
    exact ⟨⟨⟨List.mem_cons_of_mem _ holds.called, holds.traffic⟩, holds.held, holds.known⟩,
      by simp [ApiWorld.log, lastPost, ApiEvent.post]⟩
  · exact ⟨valid, fun other _ => .refl other _, trivial⟩

/-- A token that a login returns is new. -/
theorem loginResponse_yields {moment : Instant} (posted : Posted id task sofar known moment world) :
    Yields id (fun response current => Posted id task sofar known moment current ∧
      ∀ token, ApiWorld.issues response = some token → token ∈ current.issued ∧ token ∉ known.map (·.token))
      (ask .loginResponse) world := by
  apply Yields.ask _ (fun _ _ holds relies => Posted.stable holds relies) posted
  intro current outcome reply after posted valid answered
  rcases ApiOutcome.whenReceived_some answered with ⟨response, rfl, received⟩ | ⟨⟨error, rfl⟩, rfl⟩
  · unfold ApiWorld.receive at received
    split at received
    · rename_i none_
      cases received
      refine ⟨valid, fun other _ => .refl other _, posted, ?_⟩
      intro token issued
      cases none_.symm.trans issued
    · rename_i token some_
      split at received
      · cases received
      · rename_i fresh
        cases received
        refine ⟨valid.issue, fun other _ => relies_issue, posted.stable relies_issue, ?_⟩
        intro issued same
        obtain rfl : token = issued := Option.some.inj (some_.symm.trans same)
        refine ⟨List.mem_cons_self, ?_⟩
        intro member
        rw [← posted.known] at member
        exact fresh (valid.issued token member)
  · exact ⟨valid, fun other _ => .refl other _, trivial⟩

/-- The token of a login is stored, and what was rejected is replaced. -/
theorem renew_yields {token : Token} {seconds : Nat} {moment : Instant}
    (posted : Posted id task sofar known moment world) (due : Due moment sofar known) (issued : token ∈ world.issued)
    (distinct : token ∉ known.map (·.token)) :
    Yields id (fun _ current => Ready id task sofar current) (ask (.renew token seconds)) world := by
  apply Yields.ask (fun current => Posted id task sofar known moment current ∧ token ∈ current.issued)
    (fun _ _ holds relies => ⟨holds.1.stable relies, relies.issued _ holds.2⟩) ⟨posted, issued⟩
  rintro current outcome reply after ⟨posted, issued⟩ valid answered
  cases ApiOutcome.whenDone_some answered
  have fresh : token ∉ tokens current.history := by
    rw [tokens, posted.known]
    exact distinct
  have dueNow : Due moment (traffic id current.history) (renewals current.history) := by
    rw [posted.traffic, posted.known]
    exact due
  refine ⟨valid.renew issued fresh posted.posted dueNow, fun other different => relies_renew posted.held different, ?_⟩
  refine ⟨⟨List.mem_cons_of_mem _ posted.called, posted.traffic⟩, List.cons_ne_nil _ _, ?_⟩
  intro rejected member
  exact valid.orderly.rejected_issued (posted.traffic ▸ member)

/-- A login that is due. -/
theorem logIn_yields (holding : Holding id task sofar known world) (due : Due world.clock sofar known) :
    Yields id (fun _ current => Ready id task sofar current) (logIn settings) world := by
  have responds : Yields id (fun response current => ∃ moment, Due moment sofar known ∧
      Posted id task sofar known moment current ∧
      ∀ token, ApiWorld.issues response = some token → token ∈ current.issued ∧ token ∉ known.map (·.token))
      (do ask (.post settings.adminUsername settings.adminPassword); ask .loginResponse) world := by
    apply (post_yields holding due).bind
    rintro _ current ⟨moment, posted, dueThen⟩
    exact (loginResponse_yields posted).weaken fun response later holds => ⟨moment, dueThen, holds⟩
  apply responds.catching.bind
  rintro response current ⟨moment, dueThen, posted, fresh⟩
  cases success : response.isSuccess with
  | false => trivial
  | true =>
    cases granted : response.tokenResponse with
    | none => trivial
    | some tokenResponse =>
      have issues : ApiWorld.issues response = some tokenResponse.accessToken := by
        simp [ApiWorld.issues, success, granted]
      obtain ⟨issued, distinct⟩ := fresh _ issues
      simp only [Bool.not_true, Bool.false_eq_true, ↓reduceIte]
      exact renew_yields posted dueThen issued distinct

theorem renewLocked_yields {force : Bool} {staleToken : Option Token} (holding : Holding id task sofar known world)
    (asked : Asked force staleToken sofar) :
    Yields id (fun _ current => Ready id task sofar current) (renewLocked settings force staleToken) world := by
  apply (alreadyRenewed_yields holding asked).bind
  rintro renewed current ⟨holds, learned⟩
  cases renewed with
  | true =>
    refine ⟨holds.toKnows, ?_⟩
    rw [holds.known]
    exact learned
  | false => exact logIn_yields holds learned

theorem Ready.release (ready : Ready id task sofar world) : Ready id task sofar (world.release id) := by
  unfold ApiWorld.release
  split
  · exact ⟨⟨ready.called, ready.traffic⟩, ready.usable⟩
  · exact ready

theorem release_yields (knows : ApiWorld → Prop)
    (stable : ∀ before after, knows before → Relies id before after → knows after)
    (released : ∀ current, knows current → knows (current.release id)) (holds : knows world) :
    Yields id (fun _ current => knows current) (ask .release) world := by
  apply Yields.ask knows stable holds
  intro current outcome reply after knowsCurrent valid answered
  cases ApiOutcome.whenDone_some answered
  exact ⟨valid.release, fun other different => relies_release different, released current knowsCurrent⟩

/-- `async with`: the lock is given up whether the body returns or raises. -/
theorem withAuthLock_yields {body : ApiTask Unit} (knows : Knows id task sofar world)
    (runs : ∀ current known, Holding id task sofar known current →
      Yields id (fun _ later => Ready id task sofar later) body current) :
    Yields id (fun _ current => Ready id task sofar current) (withAuthLock body) world := by
  have acquires : Yields id (fun _ current => ∃ known, Holding id task sofar known current) (ask .acquire) world := by
    apply Yields.ask _ (fun _ _ holds relies => Knows.stable holds relies) knows
    intro current outcome reply after holds valid answered
    have done := ApiOutcome.whenDone_some answered
    split at done
    · rename_i free
      cases done
      exact ⟨valid.acquire, fun other _ => relies_acquire free, renewals current.history, ⟨holds.called, holds.traffic⟩,
        rfl, rfl⟩
    · cases done
  apply acquires.bind
  rintro _ current ⟨known, holding⟩
  let ended : Except ApiError Unit → ApiWorld → Prop := Returning fun _ later => Ready id task sofar later
  have attempted : Yields id ended body.attempt current :=
    Environment.Assures.attempt (runs current known holding) fun _ _ ready => ready
  apply attempted.bind
  intro outcome later ready
  cases outcome with
  | ok value =>
    apply (release_yields (Ready id task sofar) (fun _ _ holds relies => holds.stable relies)
      (fun _ holds => holds.release) ready).bind
    exact fun _ _ holds => holds
  | error error =>
    apply (release_yields (fun _ => True) (fun _ _ _ _ => trivial) (fun _ _ => trivial) trivial).bind
    exact fun _ _ _ => trivial

theorem authenticate_yields {force : Bool} {staleToken : Option Token} (knows : Knows id task sofar world)
    (asked : Asked force staleToken sofar) :
    Yields id (fun _ current => Ready id task sofar current) (authenticate settings force staleToken) world := by
  have checks : Yields id (fun current later => Knows id task sofar later ∧
      (current = true → Usable sofar (renewals later.history)))
      (if force then pure false else ask .tokenIsCurrent) world := by
    cases force with
    | true =>
      refine ⟨knows, ?_⟩
      intro impossible
      cases impossible
    | false =>
      apply (tokenIsCurrent_yields _ (fun _ _ holds relies => Knows.stable holds relies) knows).weaken
      rintro current later ⟨holds, valid, same⟩
      refine ⟨holds, ?_⟩
      rintro rfl
      refine ⟨valid.isCurrent same.symm, ?_⟩
      intro rejected member
      cases (asked rejected member).1
  apply checks.bind
  rintro current later ⟨holds, usable⟩
  cases current with
  | true => exact ⟨holds, usable rfl⟩
  | false => exact withAuthLock_yields holds fun _ _ holding => renewLocked_yields holding asked

/-- A request sends its own call, and learns the answer. -/
theorem exchange_yields {call : Call} {token : Token} (knows : Knows id (.request call) sofar world)
    (issued : token ∈ tokens world.history) (attempt : Attempt call token sofar) :
    Yields id (fun response current => Knows id (.request call)
      (.answered response.statusCode :: .sent (call.authorized token) :: sofar) current)
      (exchange (call.authorized token)) world := by
  have sends : Yields id (fun _ current => Knows id (.request call) (.sent (call.authorized token) :: sofar) current)
      (ask (.send (call.authorized token))) world := by
    apply Yields.ask (fun current => Knows id (.request call) sofar current ∧ token ∈ tokens current.history)
      (fun _ _ holds relies => ⟨holds.1.stable relies, relies.tokens holds.2⟩) ⟨knows, issued⟩
    rintro current outcome reply after ⟨holds, issued⟩ valid answered
    rcases ApiOutcome.whenSent_some answered with ⟨rfl, rfl⟩ | ⟨⟨error, rfl⟩, rfl⟩
    · refine ⟨valid.log rfl (.sent holds.called issued (holds.traffic ▸ attempt) valid.orderly),
        fun other different => relies_log different.symm rfl, List.mem_cons_of_mem _ holds.called, ?_⟩
      simp only [ApiWorld.log, traffic_sent, holds.traffic]
    · exact ⟨valid, fun other _ => .refl other _, trivial⟩
  have answers (current : ApiWorld) (sent : Knows id (.request call) (.sent (call.authorized token) :: sofar) current) :
      Yields id (fun response later => Knows id (.request call)
        (.answered response.statusCode :: .sent (call.authorized token) :: sofar) later) (ask .response) current := by
    apply Yields.ask _ (fun _ _ holds relies => Knows.stable holds relies) sent
    intro current outcome reply after holds valid answered
    rcases ApiOutcome.whenReceived_some answered with ⟨response, rfl, received⟩ | ⟨⟨error, rfl⟩, rfl⟩
    · cases received
      refine ⟨valid.log rfl (.answered valid.orderly), fun other different => relies_log different.symm rfl,
        List.mem_cons_of_mem _ holds.called, ?_⟩
      simp only [ApiWorld.log, traffic_answered, holds.traffic]
    · exact ⟨valid, fun other _ => .refl other _, trivial⟩
  exact (sends.bind fun _ current sent => answers current sent).catching

/-- The token that a task reads once it is ready. -/
theorem readyToken_yields (ready : Ready id task sofar world) :
    Yields id (fun value current => ∃ token, value = some token ∧ Knows id task sofar current ∧
      token ∈ tokens current.history ∧ ¬ Rejected token sofar) (ask .token) world := by
  apply (token_yields _ (fun _ _ holds relies => Ready.stable holds relies) ready).weaken
  rintro value current ⟨holds, valid, rfl⟩
  cases inUse : (renewals current.history).head? with
  | none => exact absurd (List.head?_eq_none_iff.mp inUse) holds.usable.1
  | some latest =>
    have same := valid.token
    rw [inUse] at same
    refine ⟨latest.token, same.symm, holds.toKnows, List.mem_map_of_mem (List.mem_of_mem_head? inUse), ?_⟩
    intro rejected
    exact valid.orderly.current_ne (holds.usable.2 latest.token rejected) inUse rfl

theorem finish_yields (response : Response) : Yields id (fun _ _ => True) (finish response) world := by
  unfold finish
  split
  · trivial
  · trivial

theorem retry_yields {call : Call} {token : Token}
    (knows : Knows id (.request call) [.answered 401, .sent (call.authorized token)] world) :
    Yields id (fun _ _ => True) (retry settings call (some token)
      (setHeader "Authorization" (bearer (some token)) (call.headers.getD []))) world := by
  have asked : Asked true (some token) [.answered 401, .sent (call.authorized token)] := by
    rintro rejected ⟨message, earlier, same, carries⟩
    cases same
    rw [carries.injective Call.authorized_carries]
    exact ⟨rfl, rfl⟩
  apply (authenticate_yields knows asked).bind
  intro _ current ready
  apply (readyToken_yields ready).bind
  rintro value current ⟨next, rfl, holds, issued, good⟩
  have different : token ≠ next := by
    rintro rfl
    exact good ⟨_, [], rfl, Call.authorized_carries⟩
  have same : call.message (setHeader "Authorization" (bearer (some next))
      (setHeader "Authorization" (bearer (some token)) (call.headers.getD []))) = call.authorized next := by
    rw [setHeader_setHeader]
    rfl
  rw [same]
  apply (exchange_yields holds issued (.inr ⟨token, different, rfl⟩)).bind
  intro response later _
  exact finish_yields response

theorem request_yields {call : Call} (knows : Knows id (.request call) [] world) :
    Yields id (fun _ _ => True) (request settings call) world := by
  have asked : Asked false none [] := by
    rintro rejected ⟨message, earlier, same, -⟩
    cases same
  apply (authenticate_yields knows asked).bind
  intro _ current ready
  apply (readyToken_yields ready).bind
  rintro value current ⟨token, rfl, holds, issued, -⟩
  apply (exchange_yields holds issued (.inl rfl)).bind
  intro response later answered
  by_cases unauthorized : response.statusCode = 401
  · simp only [unauthorized, ↓reduceIte]
    rw [unauthorized] at answered
    exact retry_yields answered
  · simp only [unauthorized, ↓reduceIte]
    exact finish_yields response

theorem task_yields (task : Task) : Yields id (fun _ _ => True) ((apiTasks settings).code task) world := by
  have begins : Yields id (fun _ current => Knows id task [] current) (ask (.begins task)) world := by
    apply Yields.ask (fun _ => True) (fun _ _ _ _ => trivial) trivial
    intro current outcome reply after _ valid answered
    have done := ApiOutcome.whenDone_some answered
    split at done
    · rename_i first
      cases done
      refine ⟨valid.log rfl (.called first valid.orderly), fun other different => relies_log different.symm rfl,
        List.mem_cons_self, ?_⟩
      have silent : traffic id (current.history ++ []) = traffic id [] := traffic_append first
      rwa [List.append_nil] at silent
    · cases done
  apply begins.bind
  intro _ current knows
  cases task with
  | authenticate =>
    have asked : Asked false none [] := by
      rintro rejected ⟨message, earlier, same, -⟩
      cases same
    apply (authenticate_yields knows asked).bind
    exact fun _ _ _ => trivial
  | request call =>
    apply (request_yields knows).bind
    exact fun _ _ _ => trivial

/-- All tasks of one client side by side. -/
def apiMachine (settings : ApiSettings) :
    Machine (Pool apiCalls ApiError (Option Response) ApiWorld) (apiTasks settings).Event where
  step := (apiTasks settings).step

/-- The client after any interleaving of its tasks, from the start. -/
def ReachesClient (settings : ApiSettings) (world : ApiWorld) : Prop :=
  ∃ threads, (apiMachine settings).Run Machine.anyAction ⟨{}, []⟩ ⟨world, threads⟩

theorem ApiWorld.Valid.initial : ({} : ApiWorld).Valid where
  current := rfl
  issued := by simp [tokens, renewals]
  orderly := .nil

theorem ReachesClient.valid (reached : ReachesClient settings world) : world.Valid := by
  obtain ⟨threads, run⟩ := reached
  have sound : Pool.Sound (apiTasks settings) Relies ApiWorld.Valid ⟨world, threads⟩ := by
    refine run.invariant ?_ ⟨.initial, by simp⟩
    intro before event after sound _ stepped
    refine sound.step ?_ ?_ stepped
    · intro id task world _
      exact (task_yields task).keeps
    · intro id world valid
      exact ⟨valid.release, fun other different => relies_release different⟩
  exact sound.world

end TronForge.Bot
