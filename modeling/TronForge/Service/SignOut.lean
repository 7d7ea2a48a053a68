import TronForge.Library.Machine
import TronForge.Service.SessionRuns

/-! Logout: it settles the sessions it was sent for, unless they are renewed before it
finds them. With this, every run of login, renewal and logout requests keeps its
history in order. -/

namespace TronForge.Service

open Library

variable {settings : AuthSettings} {hashing : Hashing} {request : RequestId} {store after : SessionStore}

/-- What a logout knows while it runs. -/
abbrev SettlesIn (request : RequestId) (waits : Token → SessionId → Prop) (store : SessionStore) : Prop :=
  Settles request waits store.history

theorem SettlesIn.relies {waits : Token → SessionId → Prop} (settles : SettlesIn request waits store)
    (relies : Relies request store after) : SettlesIn request waits after := by
  obtain ⟨more, same, others⟩ := relies.grows
  rw [SettlesIn, same]
  exact settles.append others

/-- The sessions that the cookie opens. -/
def ofCookie (cookie : Option Token) : Token → SessionId → Prop := fun token _ => cookie = some token

/-- The one session that a logout has found for its cookie. -/
def foundFor (cookie : Option Token) (found : SessionId) : Token → SessionId → Prop :=
  fun token session => cookie = some token ∧ session = found

/-- The row of a session whose latest token is the cookie has its hash. -/
theorem SessionStore.Valid.row_of_latest (valid : store.Valid hashing) {session : SessionId} {token : Token}
    (current : latest session store.history = some token) :
    ∃ row ∈ store.sessions, row.id = session ∧ row.refreshTokenHash = hashing.digest token := by
  obtain ⟨row, member, rfl⟩ := valid.known session token current
  obtain ⟨stored, own, hash⟩ := valid.tokens row member
  obtain rfl : stored = token := Option.some.inj (own.symm.trans current)
  exact ⟨row, member, rfl, hash⟩

/-- A logout answers once it waits for nothing. -/
theorem signedOut_goesOn (knows : SessionStore → Prop)
    (stable : ∀ before after, knows before → Relies request before after → knows after) (known : knows store)
    (settled : ∀ current, knows current → current.Valid hashing → SettlesIn request nothing current) :
    GoesOn hashing request (do ask .signedOut; return SessionResponse.signedOut) store := by
  apply Environment.Keeps.call knows stable known
  intro current reply after knowsCurrent valid performed
  obtain ⟨answer, responded⟩ := performed
  cases answer <;> simp only [respondSession, reduceCtorEq] at responded
  cases responded
  refine ⟨valid.signedOut (settled current knowsCurrent valid), ?_, trivial⟩
  intro other different
  exact relies_log (by simp [SessionEvent.sender]) rfl

/-- What the end of a logout knows: the session it found is revoked, or it found none. -/
theorem settled_goesOn (settles : SettlesIn request nothing store) :
    GoesOn hashing request (do ask .signedOut; return SessionResponse.signedOut) store :=
  signedOut_goesOn (SettlesIn request nothing) (fun _ _ known relies => known.relies relies) settles
    fun _ known _ => known

/-- A logout that finds no session has none to wait for. -/
theorem matching_none_settles {token : Token} (valid : store.Valid hashing)
    (settles : SettlesIn request (ofCookie (some token)) store) {answer : SessionAnswer}
    (responded : respondSession request store (.matching (hashing.digest token)) answer = some (.ok none, after)) :
    SettlesIn request nothing after := by
  obtain rfl := respondSession_asks rfl responded
  cases answer <;> simp only [respondSession, reduceCtorEq, Option.some.injEq, Prod.mk.injEq, Except.ok.injEq,
    and_true, Option.map_eq_none_iff] at responded
  apply settles.refine valid.orderly
  rintro presented session same current
  cases same
  obtain ⟨row, member, -, hash⟩ := valid.row_of_latest current
  have absent := List.find?_eq_none.mp responded row member
  simp [hash] at absent

/-- A logout that finds a session waits for this one only. -/
theorem matching_some_settles (collisionFree : hashing.CollisionFree) {token : Token}
    (formed : wellFormed token = true) (valid : store.Valid hashing)
    (settles : SettlesIn request (ofCookie (some token)) store) {answer : SessionAnswer} {found : SessionId}
    (responded : respondSession request store (.matching (hashing.digest token)) answer =
      some (.ok (some found), after)) : SettlesIn request (foundFor (some token) found) after := by
  obtain rfl := respondSession_asks rfl responded
  cases answer <;> simp only [respondSession, reduceCtorEq, Option.some.injEq, Prod.mk.injEq, Except.ok.injEq,
    and_true, Option.map_eq_some_iff] at responded
  obtain ⟨row, search, rfl⟩ := responded
  apply settles.refine valid.orderly
  rintro presented session same current
  cases same
  have hash : row.refreshTokenHash = hashing.digest token := by simpa using List.find?_some search
  have own := valid.token_of_hash collisionFree (List.mem_of_find?_eq_some search) formed hash
  exact .inr ⟨rfl, latest_injective valid.distinct current own⟩

theorem lockMatching_settles {token : Token} {session : SessionId} (valid : store.Valid hashing)
    (settles : SettlesIn request (foundFor (some token) session) store) {answer : SessionAnswer}
    (responded : respondSession request store (.lockMatching session (hashing.digest token)) answer =
      some (.ok none, after)) : SettlesIn request nothing after := by
  cases answer <;> simp only [respondSession, reduceCtorEq] at responded
  · cases responded
  · split at responded
    · split at responded
      · cases responded
      · rename_i absent
        cases responded
        apply settles.refine valid.orderly
        rintro presented owner ⟨same, rfl⟩ current
        cases same
        obtain ⟨row, member, own, hash⟩ := valid.row_of_latest current
        have missing := List.find?_eq_none.mp absent row member
        simp [own, hash] at missing
    · cases responded

/-- A logout whose session is revoked has settled it. -/
theorem revoked_settles {cookie : Option Token} {session : AuthSession} (valid : store.Valid hashing)
    (stored : session ∈ store.sessions) (revoked : session.revokedAt.isSome = true)
    (settles : SettlesIn request (foundFor cookie session.id) store) : SettlesIn request nothing store := by
  apply settles.refine valid.orderly
  rintro token owner ⟨-, rfl⟩ _
  exact .inl ((valid.revoked session stored).mp revoked)

/-- The commit of a revocation settles the session. -/
theorem revoke_settles {cookie : Option Token} {session : SessionId}
    (valid : (store.log (.revoked request session)).Valid hashing)
    (settles : SettlesIn request (foundFor cookie session) store) :
    SettlesIn request nothing (store.log (.revoked request session)) := by
  have still : Settles request (foundFor cookie session) (.revoked request session :: store.history) :=
    @Settles.append store.history [.revoked request session] request _ settles (by simp [SessionEvent.sender])
  apply still.refine valid.orderly
  rintro token owner ⟨-, rfl⟩ _
  exact .inl ⟨request, List.mem_cons_self⟩

/-- What follows once the logout has locked the session it found. -/
theorem revokeLocked_goesOn {cookie : Option Token} {session : AuthSession} (locked : Locked request session store)
    (settles : SettlesIn request (foundFor cookie session.id) store) :
    GoesOn hashing request ((if session.revokedAt.isSome then pure ()
      else do
        let now ← ask .now
        ask (.commit (.revoke session.id now)) : SessionTask Unit) >>= fun _ => do
          ask .signedOut
          return SessionResponse.signedOut) store := by
  have stable (before after : SessionStore)
      (known : Locked request session before ∧ SettlesIn request (foundFor cookie session.id) before)
      (relies : Relies request before after) :
      Locked request session after ∧ SettlesIn request (foundFor cookie session.id) after :=
    ⟨relies.locked _ known.1, known.2.relies relies⟩
  by_cases revoked : session.revokedAt.isSome = true
  · simp only [revoked, ↓reduceIte, Program.pure_eq, Program.done_bind]
    apply signedOut_goesOn _ stable ⟨locked, settles⟩
    rintro current ⟨locked, settles⟩ valid
    exact revoked_settles valid locked.stored revoked settles
  · simp only [revoked]
    apply GoesOn.ask rfl _ stable ⟨locked, settles⟩
    intro reply store known
    rcases reply with error | now
    · trivial
    · apply GoesOn.commit _ stable known
      · rintro current newId after ⟨locked, settles⟩ valid wrote
        cases wrote
        refine ⟨valid.revoke locked.stored, fun other different => relies_revoke locked different, ?_⟩
        intro reply
        rcases reply with error | _
        · trivial
        · exact settled_goesOn (revoke_settles (valid.revoke locked.stored) settles)
      · intro current error _
        trivial

theorem revokeSession_goesOn (collisionFree : hashing.CollisionFree) {token : Token}
    (formed : wellFormed token = true) (settles : SettlesIn request (ofCookie (some token)) store) :
    GoesOn hashing request (revokeSession (hashing.digest token) >>= fun _ => do
      ask .signedOut
      return SessionResponse.signedOut) store := by
  apply GoesOn.quiet rfl (SettlesIn request (ofCookie (some token))) (fun _ _ known relies => known.relies relies)
    settles
  intro current answer reply after settles valid responded
  rcases reply with error | _ | found
  · trivial
  · exact settled_goesOn (matching_none_settles valid settles responded)
  · have waiting := matching_some_settles collisionFree formed valid settles responded
    apply GoesOn.quiet rfl (SettlesIn request (foundFor (some token) found))
      (fun _ _ known relies => known.relies relies) waiting
    intro current answer reply after settles valid responded
    rcases reply with error | _ | row
    · trivial
    · exact settled_goesOn (lockMatching_settles valid settles responded)
    · obtain ⟨locked, rfl, -, history⟩ := respondSession_lockMatching responded
      have still : SettlesIn request (foundFor (some token) row.id) after := by
        rw [SettlesIn, history]
        exact settles
      exact revokeLocked_goesOn locked still

/-- The cookies that a logout looks up are the well-formed ones. -/
theorem cookieHash_eq_some {cookie : Option Token} {hash : Token} :
    (cookie.filter (· ≠ [])).bind (refreshHash hashing) = some hash ↔
      ∃ token, cookie = some token ∧ wellFormed token = true ∧ hash = hashing.digest token := by
  constructor
  · intro hashed
    obtain ⟨token, filtered, hashed⟩ := Option.bind_eq_some_iff.mp hashed
    obtain ⟨present, -⟩ := Option.filter_eq_some_iff.mp filtered
    unfold refreshHash at hashed
    split at hashed
    · rename_i formed
      exact ⟨token, present, formed, (Option.some.inj hashed).symm⟩
    · cases hashed
  · rintro ⟨token, rfl, formed, rfl⟩
    have nonempty : token ≠ [] := by
      rintro rfl
      simp [wellFormed] at formed
    simp [Option.filter_some, refreshHash, formed, nonempty]

theorem logoutBrowserSession_goesOn (collisionFree : hashing.CollisionFree)
    (checkOrigin : Except SessionError Bool) (refreshCookie : Option Token) :
    GoesOn hashing request (logoutBrowserSession hashing checkOrigin refreshCookie) store := by
  apply Environment.Keeps.call (fun _ => True) (fun _ _ _ _ => trivial) trivial
  intro current reply after _ valid performed
  obtain ⟨answer, responded⟩ := performed
  cases answer <;> simp only [respondSession, reduceCtorEq] at responded
  split at responded
  · rename_i first
    cases responded
    have sent : ∀ other, other ≠ request → Relies other current (current.log (.logoutSent request refreshCookie)) :=
      fun other different => relies_log (by simpa [SessionEvent.sender] using Ne.symm different) rfl
    refine ⟨valid.logoutSent first, sent, ?_⟩
    have settles : SettlesIn request (ofCookie refreshCookie) (current.log (.logoutSent request refreshCookie)) :=
      settles_logoutSent first
    cases checkOrigin with
    | error error => trivial
    | ok trusted =>
      cases hashed : (refreshCookie.filter (· ≠ [])).bind (refreshHash hashing) with
      | none =>
        simp only [raised, Program.done_bind, Program.pure_eq]
        apply signedOut_goesOn (SettlesIn request (ofCookie refreshCookie))
          (fun _ _ known relies => known.relies relies) settles
        intro store settles valid
        apply settles.refine valid.orderly
        rintro token session rfl current
        have formed := valid.wellFormed_of_latest current
        rw [cookieHash_eq_some.mpr ⟨token, rfl, formed, rfl⟩] at hashed
        cases hashed
      | some hash =>
        obtain ⟨token, rfl, formed, rfl⟩ := cookieHash_eq_some.mp hashed
        simp only [raised, Program.done_bind]
        exact revokeSession_goesOn collisionFree formed settles
  · cases responded

/-- All browser requests side by side. -/
def browserMachine (settings : AuthSettings) (hashing : Hashing) :
    Machine (Pool sessionCalls SessionError SessionResponse SessionStore)
      (browserRequests settings hashing).Event where
  step := (browserRequests settings hashing).step

/-- The stored sessions after any interleaving of requests, from an empty store. -/
def ReachesSessions (settings : AuthSettings) (hashing : Hashing) (store : SessionStore) : Prop :=
  ∃ threads, (browserMachine settings hashing).Run Machine.anyAction ⟨{}, []⟩ ⟨store, threads⟩

theorem SessionStore.Valid.empty : ({} : SessionStore).Valid hashing where
  ids := List.nodup_nil
  tokens := by simp
  known := by simp [latest]
  revoked := by simp
  revokedKnown := by simp [Revoked]
  distinct := List.nodup_nil
  drawn := by simp [storedTokens]
  fresh := List.nodup_nil
  formed := by simp
  orderly := .nil

theorem ReachesSessions.valid (collisionFree : hashing.CollisionFree)
    (reached : ReachesSessions settings hashing store) : store.Valid hashing := by
  obtain ⟨threads, run⟩ := reached
  have sound : Pool.Sound (browserRequests settings hashing) Relies (SessionStore.Valid hashing) ⟨store, threads⟩ := by
    refine run.invariant ?_ ⟨.empty, by simp⟩
    intro before event after sound _ stepped
    refine sound.step ?_ ?_ stepped
    · intro request task store _
      cases task with
      | login checkOrigin payload => exact issueToken_goesOn checkOrigin payload
      | refresh checkOrigin cookie => exact refreshBrowserSession_goesOn collisionFree checkOrigin cookie
      | logout checkOrigin cookie => exact logoutBrowserSession_goesOn collisionFree checkOrigin cookie
    · intro request store valid
      exact ⟨valid.release, fun other different => relies_release different⟩
  exact sound.world

/-- A token with which a refresh of the session would be accepted, were it to find the
row now. -/
def Acceptable (hashing : Hashing) (store : SessionStore) (session : SessionId) (token : Token) : Prop :=
  ∃ row ∈ store.sessions, row.id = session ∧ row.revokedAt = none ∧
    refreshHash hashing token = some row.refreshTokenHash

theorem Acceptable.latest (collisionFree : hashing.CollisionFree) (valid : store.Valid hashing)
    {session : SessionId} {token : Token} (acceptable : Acceptable hashing store session token) :
    latest session store.history = some token := by
  obtain ⟨row, member, rfl, -, hashed⟩ := acceptable
  unfold refreshHash at hashed
  split at hashed
  · rename_i formed
    exact valid.token_of_hash collisionFree member formed (Option.some.inj hashed).symm
  · cases hashed

/-- A schedule that plays from the empty store reaches the store it ends in. -/
theorem reachesSessions_of_replay (events : List (browserRequests settings hashing).Event)
    (played : ((browserMachine settings hashing).replay Machine.anyAction events ⟨{}, []⟩).map (·.world) =
      some store) : ReachesSessions settings hashing store := by
  obtain ⟨⟨world, threads⟩, replayed, rfl⟩ := Option.map_eq_some_iff.mp played
  exact ⟨threads, Machine.replay_run events replayed⟩

def sampleAuth : AuthSettings := ⟨"admin", 30⟩

/-- Hashes in the clear. -/
def clearHashing : Hashing := ⟨fun token => token, fun _ _ => true⟩

theorem clearHashing_collisionFree : clearHashing.CollisionFree := fun _ _ _ _ same => same

def sampleToken (symbol : Char) : Token := List.replicate 64 symbol

def sampleAdmin : User := ⟨1, "admin", "hash", true⟩

/-- A browser signs in and gets its first token. -/
def signInEvents : List (browserRequests sampleAuth clearHashing).Event :=
  [.arrive 1 (.login (.ok true) ⟨"admin", "password"⟩), .answer 1 (.user (some sampleAdmin)),
    .answer 1 (.accessToken "bearer" 1800), .answer 1 (.token (sampleToken 'a')), .answer 1 (.time 10),
    .answer 1 (.committed 1 none), .leave 1]

/-- Two tabs: a renewal locks the session before the logout does, so the logout waits,
finds the hash changed and answers; the renewed token is then accepted. -/
def twoTabsEvents : List (browserRequests sampleAuth clearHashing).Event :=
  signInEvents ++
    ([.arrive 2 (.refresh (.ok true) (some (sampleToken 'a'))), .arrive 3 (.logout (.ok true) (some (sampleToken 'a'))),
      .answer 3 .done, .answer 2 .done, .answer 2 .done, .answer 3 .done, .answer 2 (.user (some sampleAdmin)),
      .answer 2 (.time 20), .answer 2 (.token (sampleToken 'b')), .answer 2 (.time 21),
      .answer 2 (.committed 0 none), .answer 3 .done, .answer 3 .done, .leave 3,
      .answer 2 (.accessToken "bearer" 1800), .leave 2,
      .arrive 4 (.refresh (.ok true) (some (sampleToken 'b'))), .answer 4 .done, .answer 4 .done,
      .answer 4 (.user (some sampleAdmin)), .answer 4 (.time 30), .answer 4 (.token (sampleToken 'c')),
      .answer 4 (.time 31), .answer 4 (.committed 0 none)] :
      List (browserRequests sampleAuth clearHashing).Event)

def twoTabsStore : SessionStore :=
  (((browserMachine sampleAuth clearHashing).replay Machine.anyAction twoTabsEvents ⟨{}, []⟩).map (·.world)).getD {}

def twoTabsHistory : History :=
  [.rotated 4 1 (sampleToken 'b') (sampleToken 'c'), .signedOut 3,
    .rotated 2 1 (sampleToken 'a') (sampleToken 'b'), .logoutSent 3 (some (sampleToken 'a')),
    .added 1 (sampleToken 'a')]

theorem twoTabsStore_reached : ReachesSessions sampleAuth clearHashing twoTabsStore :=
  reachesSessions_of_replay twoTabsEvents rfl

theorem twoTabsStore_history : twoTabsStore.history = twoTabsHistory := by decide +kernel

/-- In any interleaving of login, renewal and logout requests: no token is accepted
twice, an accepted token is the one most recently stored for its session, and no session
has two acceptable tokens. -/
theorem refresh_tokens_single_use (collisionFree : hashing.CollisionFree)
    (reached : ReachesSessions settings hashing store) :
    (acceptedTokens store.history).Nodup ∧
    (∀ later request session token next earlier,
      store.history = later ++ .rotated request session token next :: earlier →
        latest session earlier = some token ∧ ¬ Revoked session earlier) ∧
    ∀ session left right, Acceptable hashing store session left → Acceptable hashing store session right →
      left = right := by
  have valid := reached.valid collisionFree
  refine ⟨valid.orderly.acceptedTokens_nodup valid.distinct, ?_, ?_⟩
  · intro later request session token next earlier split
    have orderly := valid.orderly
    rw [split] at orderly
    cases orderly.of_append with
    | rotated current unrevoked _ => exact ⟨current, unrevoked⟩
  · intro session left right leftAcceptable rightAcceptable
    have first := leftAcceptable.latest collisionFree valid
    have second := rightAcceptable.latest collisionFree valid
    exact Option.some.inj (first.symm.trans second)

theorem refresh_tokens_single_use_two_tabs : (acceptedTokens twoTabsStore.history).Nodup :=
  (refresh_tokens_single_use clearHashing_collisionFree twoTabsStore_reached).1

/-- Once a logout that was sent with the valid token of a session has answered, no token
of the session is accepted. -/
def SignedOutForGood (history : History) : Prop :=
  ∀ later request between token before session,
    history = later ++ .signedOut request :: (between ++ .logoutSent request (some token) :: before) →
      latest session before = some token → ¬ Revoked session before → ¬ Accepts session later

/-- No session is renewed between the sending of a logout with its token and the answer. -/
def LogoutsUndisturbed (history : History) : Prop :=
  ∀ later request between token before session,
    history = later ++ .signedOut request :: (between ++ .logoutSent request (some token) :: before) →
      latest session before = some token → ¬ Accepts session between

/-- In every run in which no renewal comes between a logout and its answer, a logout is
final. -/
theorem undisturbed_logouts_final (collisionFree : hashing.CollisionFree)
    (reached : ReachesSessions settings hashing store) (undisturbed : LogoutsUndisturbed store.history) :
    SignedOutForGood store.history := by
  intro later request between token before session split current _
  have orderly := (reached.valid collisionFree).orderly
  rw [split] at orderly
  have revoked : Revoked session (between ++ .logoutSent request (some token) :: before) := by
    cases orderly.of_append with
    | signedOut settles _ =>
      rcases settles between token before session rfl current with accepted | revoked | waits
      · exact absurd accepted (undisturbed later request between token before session split current)
      · exact revoked
      · exact waits.elim
  rw [List.append_cons] at orderly
  have front := orderly.not_accepts revoked
  rintro ⟨renewer, presented, next, member⟩
  exact front ⟨renewer, presented, next, List.mem_append_left _ member⟩

/-- A browser signs in and out, and its token is presented again. -/
def signOutEvents : List (browserRequests sampleAuth clearHashing).Event :=
  signInEvents ++
    ([.arrive 2 (.logout (.ok true) (some (sampleToken 'a'))), .answer 2 .done, .answer 2 .done, .answer 2 .done,
      .answer 2 (.time 20), .answer 2 (.committed 0 none), .answer 2 .done, .leave 2,
      .arrive 3 (.refresh (.ok true) (some (sampleToken 'a'))), .answer 3 .done, .answer 3 .done,
      .answer 3 (.user (some sampleAdmin)), .leave 3] :
      List (browserRequests sampleAuth clearHashing).Event)

def signOutStore : SessionStore :=
  (((browserMachine sampleAuth clearHashing).replay Machine.anyAction signOutEvents ⟨{}, []⟩).map (·.world)).getD {}

theorem undisturbed_logouts_final_sign_out : SignedOutForGood signOutStore.history := by
  have history : signOutStore.history = [.signedOut 2, .revoked 2 1, .logoutSent 2 (some (sampleToken 'a')),
      .added 1 (sampleToken 'a')] := by decide +kernel
  refine undisturbed_logouts_final clearHashing_collisionFree
    (reachesSessions_of_replay signOutEvents rfl) ?_
  rintro later request between token before session split - ⟨renewer, presented, next, member⟩
  have inside : .rotated renewer session presented next ∈ signOutStore.history := by
    rw [split]
    exact List.mem_append_right _ (List.mem_cons_of_mem _ (List.mem_append_left _ member))
  simp [history] at inside

/-- After the logout of one tab has answered, the token that the other tab got from a
concurrent renewal is accepted. -/
theorem logout_overtaken :
    ReachesSessions sampleAuth clearHashing twoTabsStore ∧ ¬ SignedOutForGood twoTabsStore.history := by
  refine ⟨twoTabsStore_reached, ?_⟩
  intro final
  rw [twoTabsStore_history] at final
  refine final [.rotated 4 1 (sampleToken 'b') (sampleToken 'c')] 3 [.rotated 2 1 (sampleToken 'a') (sampleToken 'b')]
    (sampleToken 'a') [.added 1 (sampleToken 'a')] 1 rfl ?_ ?_ ⟨4, _, _, List.mem_cons_self⟩
  · rfl
  · simp [Revoked]

end TronForge.Service
