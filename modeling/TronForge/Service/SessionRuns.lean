import TronForge.Service.SessionLocks

/-! Every request keeps what holds of the stored sessions, in any interleaving: login
stores a token of its own, and a renewal rotates only the row it has locked. -/

namespace TronForge.Service

open Library

variable {settings : AuthSettings} {hashing : Hashing} {request : RequestId} {store after : SessionStore}

/-- The program can go on from here. -/
abbrev GoesOn (hashing : Hashing) (request : RequestId) (task : SessionTask α) (store : SessionStore) : Prop :=
  Environment.Keeps ⟨fun world operation reply next => ∃ answer, respondSession request world operation answer =
    some (reply, next), Relies request⟩ (SessionStore.Valid hashing) (Spares Relies request) task store

/-- The calls that write no history. -/
def SessionCall.quiet : SessionCall → Bool
  | .commit _ | .logoutSent _ | .signedOut => false
  | _ => true

theorem respondSession_spares {operation : SessionCall} {answer : SessionAnswer}
    {reply : Except SessionError (SessionReply operation)} (quiet : operation.quiet = true)
    (valid : store.Valid hashing) (responded : respondSession request store operation answer = some (reply, after)) :
    after.Valid hashing ∧ Spares Relies request store after := by
  have same : store.Valid hashing ∧ Spares Relies request store store := ⟨valid, fun other _ => .refl other store⟩
  by_cases asks : operation.asks = true
  · obtain rfl := respondSession_asks asks responded
    exact same
  cases operation with
  | lockMatching session hash =>
    cases answer <;> simp only [respondSession, reduceCtorEq] at responded
    · cases responded
      exact same
    · split at responded
      · rename_i free
        split at responded
        · cases responded
          exact ⟨valid.lock session, fun other different => relies_lock free different⟩
        · cases responded
          exact same
      · cases responded
  | freshToken =>
    cases answer <;> simp only [respondSession, reduceCtorEq] at responded
    · cases responded
      exact same
    · split at responded
      · rename_i possible
        cases responded
        exact ⟨valid.draw possible.1 possible.2, fun other _ => relies_draw _⟩
      · cases responded
  | commit write => cases quiet
  | logoutSent cookie => cases quiet
  | signedOut => cases quiet
  | _ => exact absurd rfl asks

/-- The rule for every call that writes no history. -/
theorem GoesOn.quiet {operation : SessionCall} (quiet : operation.quiet = true)
    {next : Except SessionError (SessionReply operation) → SessionTask α} (knows : SessionStore → Prop)
    (stable : ∀ before after, knows before → Relies request before after → knows after) (known : knows store)
    (goesOn : ∀ current answer reply after, knows current → current.Valid hashing →
      respondSession request current operation answer = some (reply, after) →
      GoesOn hashing request (next reply) after) :
    GoesOn hashing request (.call operation next) store := by
  apply Environment.Keeps.call knows stable known
  intro current reply after knowsCurrent valid performed
  obtain ⟨answer, responded⟩ := performed
  obtain ⟨kept, spared⟩ := respondSession_spares quiet valid responded
  exact ⟨kept, spared, goesOn current answer reply after knowsCurrent valid responded⟩

/-- The rule for a call that only reads. -/
theorem GoesOn.ask {operation : SessionCall} (asks : operation.asks = true)
    {next : Except SessionError (SessionReply operation) → SessionTask α} (knows : SessionStore → Prop)
    (stable : ∀ before after, knows before → Relies request before after → knows after) (known : knows store)
    (goesOn : ∀ reply after, knows after → GoesOn hashing request (next reply) after) :
    GoesOn hashing request (.call operation next) store := by
  have quiet : operation.quiet = true := by
    cases operation <;> first | rfl | cases asks
  apply GoesOn.quiet quiet knows stable known
  intro current answer reply after knowsCurrent _ responded
  obtain rfl := respondSession_asks asks responded
  exact goesOn reply after knowsCurrent

/-- The rule for a call of which only the reply matters. -/
theorem GoesOn.askAny {operation : SessionCall} (asks : operation.asks = true)
    {next : Except SessionError (SessionReply operation) → SessionTask α}
    (goesOn : ∀ reply after, GoesOn hashing request (next reply) after) :
    GoesOn hashing request (.call operation next) store :=
  .ask asks (fun _ => True) (fun _ _ _ _ => trivial) trivial fun reply after _ => goesOn reply after

/-- A drawn token is well-formed, and nobody has stored it. -/
theorem respondSession_freshToken {answer : SessionAnswer} {token : Token} (valid : store.Valid hashing)
    (responded : respondSession request store .freshToken answer = some (.ok token, after)) :
    wellFormed token = true ∧ Unstored request token after ∧
      ∀ session, Locked request session store → Locked request session after := by
  cases answer <;> simp only [respondSession, reduceCtorEq] at responded
  · cases responded
  · split at responded
    · rename_i possible
      cases responded
      exact ⟨possible.1, valid.unstored_draw possible.2, fun _ locked => ⟨locked.stored, locked.held⟩⟩
    · cases responded

/-- The row that a `SELECT ... FOR UPDATE` returns is locked and has the hash. -/
theorem respondSession_lockMatching {session : SessionId} {hash : Token} {answer : SessionAnswer} {row : AuthSession}
    (responded : respondSession request store (.lockMatching session hash) answer = some (.ok (some row), after)) :
    Locked request row after ∧ row.id = session ∧ row.refreshTokenHash = hash ∧ after.history = store.history := by
  cases answer <;> simp only [respondSession, reduceCtorEq] at responded
  · cases responded
  · split at responded
    · split at responded
      · rename_i found
        cases responded
        obtain ⟨rfl, hashed⟩ : row.id = session ∧ row.refreshTokenHash = hash := by
          simpa using List.find?_some found
        exact ⟨⟨List.mem_of_find?_eq_some found, by simp [SessionStore.lock]⟩, rfl, hashed, rfl⟩
      · cases responded
    · cases responded

/-- The rule for a commit. -/
theorem GoesOn.commit {write : SessionWrite} {next : Except SessionError Unit → SessionTask α}
    (knows : SessionStore → Prop)
    (stable : ∀ before after, knows before → Relies request before after → knows after) (known : knows store)
    (writes : ∀ current newId after, knows current → current.Valid hashing →
      current.write request newId write = some after →
      after.Valid hashing ∧ Spares Relies request current after ∧
        ∀ reply, GoesOn hashing request (next reply) (after.release request))
    (failed : ∀ current error, knows current → GoesOn hashing request (next (.error error)) current) :
    GoesOn hashing request (.call (.commit write) next) store := by
  apply Environment.Keeps.call knows stable known
  intro current reply after knowsCurrent valid performed
  obtain ⟨answer, responded⟩ := performed
  cases answer <;> simp only [respondSession, reduceCtorEq] at responded
  · cases responded
    exact ⟨valid, fun other _ => .refl other _, failed _ _ knowsCurrent⟩
  · obtain ⟨written, wrote, same⟩ := Option.map_eq_some_iff.mp responded
    cases same
    obtain ⟨kept, spared, goesOn⟩ := writes current _ written knowsCurrent valid wrote
    exact ⟨kept.release, fun other different => (spared other different).trans (relies_release different),
      goesOn _⟩

theorem issueFor_goesOn (browserLogin : Bool) (user : User) :
    GoesOn hashing request (issueFor settings hashing browserLogin user) store := by
  apply GoesOn.askAny rfl
  intro reply store
  rcases reply with error | ⟨token, expiresIn⟩
  · trivial
  · cases browserLogin with
    | false => trivial
    | true =>
      apply GoesOn.quiet rfl (fun _ => True) (fun _ _ _ _ => trivial) trivial
      intro current answer reply drawn _ valid responded
      rcases reply with error | refreshToken
      · trivial
      · obtain ⟨formed, unstored, -⟩ := respondSession_freshToken valid responded
        apply GoesOn.ask rfl (Unstored request refreshToken)
          (fun _ _ known relies => relies.unstored _ known) unstored
        intro reply store unstored
        rcases reply with error | now
        · trivial
        · apply GoesOn.commit (Unstored request refreshToken) (fun _ _ known relies => relies.unstored _ known) unstored
          · intro current newId after unstored valid wrote
            simp only [refreshHash, formed, ↓reduceIte, SessionStore.write] at wrote
            split at wrote
            · rename_i possible
              cases wrote
              refine ⟨valid.add unstored rfl possible.2 rfl, fun other different =>
                relies_add valid unstored different, ?_⟩
              intro reply
              cases reply <;> trivial
            · cases wrote
          · intro current error _
            trivial

theorem issueToken_goesOn (checkOrigin : Except SessionError Bool) (payload : LoginRequest) :
    GoesOn hashing request (issueToken settings hashing checkOrigin payload) store := by
  cases checkOrigin with
  | error error => trivial
  | ok browserLogin =>
    by_cases admin : payload.username = settings.adminUsername
    · simp only [issueToken, raised, admin, ↓reduceIte, Program.done_bind]
      apply GoesOn.askAny rfl
      intro reply store
      rcases reply with error | _ | user
      · trivial
      · trivial
      · show GoesOn hashing request (if _ then _ else _) store
        split
        · trivial
        · exact issueFor_goesOn browserLogin user
    · simp only [issueToken, raised, admin, ↓reduceIte, Program.done_bind, Program.pure_eq]
      trivial

/-- The renewal of a locked session that is not revoked, by its latest token. -/
theorem rotateSession_goesOn (collisionFree : hashing.CollisionFree) {session : AuthSession} {refreshToken : Token}
    (user : User) (locked : Locked request session store) (formed : wellFormed refreshToken = true)
    (hash : session.refreshTokenHash = hashing.digest refreshToken) (unrevoked : session.revokedAt = none) :
    GoesOn hashing request (rotateSession settings hashing refreshToken session user) store := by
  apply GoesOn.quiet rfl (Locked request session) (fun _ _ known relies => relies.locked _ known) locked
  intro current answer reply drawn locked valid responded
  rcases reply with error | next
  · trivial
  · obtain ⟨formedNext, unstored, keeps⟩ := respondSession_freshToken valid responded
    have both : Locked request session drawn ∧ Unstored request next drawn := ⟨keeps session locked, unstored⟩
    have stable (before after : SessionStore) (known : Locked request session before ∧ Unstored request next before)
        (relies : Relies request before after) : Locked request session after ∧ Unstored request next after :=
      ⟨relies.locked _ known.1, relies.unstored _ known.2⟩
    apply GoesOn.ask rfl _ stable both
    intro reply store both
    rcases reply with error | now
    · trivial
    · apply GoesOn.commit _ stable both
      · rintro current newId after ⟨locked, unstored⟩ valid wrote
        simp only [refreshHash, formedNext, ↓reduceIte, SessionStore.write] at wrote
        split at wrote
        · cases wrote
          have latest_ := valid.token_of_hash collisionFree locked.stored formed hash
          refine ⟨valid.rotate locked.stored latest_ unrevoked unstored, fun other different =>
            relies_rotate valid locked unstored different, ?_⟩
          intro reply
          rcases reply with error | _
          · trivial
          · apply GoesOn.askAny rfl
            intro reply store
            rcases reply with error | ⟨token, expiresIn⟩ <;> trivial
        · cases wrote
      · intro current error _
        trivial

theorem renewSession_goesOn (collisionFree : hashing.CollisionFree) {session : AuthSession} {refreshToken : Token}
    (locked : Locked request session store) (formed : wellFormed refreshToken = true)
    (hash : session.refreshTokenHash = hashing.digest refreshToken) :
    GoesOn hashing request (renewSession settings hashing refreshToken session) store := by
  have stable (before after : SessionStore) (known : Locked request session before)
      (relies : Relies request before after) : Locked request session after := relies.locked _ known
  apply GoesOn.ask rfl _ stable locked
  intro reply store locked
  rcases reply with error | user
  · trivial
  · show GoesOn hashing request (if _ then _ else _) store
    split
    · trivial
    · rename_i unrevoked
      apply GoesOn.ask rfl _ stable locked
      intro reply store locked
      rcases reply with error | now
      · trivial
      · show GoesOn hashing request (if _ then _ else _) store
        split
        · trivial
        · cases user with
          | none => trivial
          | some user =>
            show GoesOn hashing request (if _ then _ else _) store
            split
            · trivial
            · exact rotateSession_goesOn collisionFree user locked formed hash (by simpa using unrevoked)

theorem refreshBrowserSession_goesOn (collisionFree : hashing.CollisionFree)
    (checkOrigin : Except SessionError Bool) (refreshCookie : Option Token) :
    GoesOn hashing request (refreshBrowserSession settings hashing checkOrigin refreshCookie) store := by
  cases checkOrigin with
  | error error => trivial
  | ok trusted =>
    simp only [refreshBrowserSession, raised, Program.done_bind]
    cases refreshCookie.filter (· ≠ []) with
    | none => trivial
    | some refreshToken =>
      by_cases formed : wellFormed refreshToken = true
      · simp only [refreshHash, formed, ↓reduceIte, selectForUpdate]
        apply GoesOn.askAny rfl
        intro reply store
        rcases reply with error | _ | session
        · trivial
        · trivial
        · apply GoesOn.quiet rfl (fun _ => True) (fun _ _ _ _ => trivial) trivial
          intro current answer reply after _ _ responded
          rcases reply with error | _ | row
          · trivial
          · trivial
          · obtain ⟨locked, -, hash, -⟩ := respondSession_lockMatching responded
            exact renewSession_goesOn collisionFree locked formed hash
      · simp only [refreshHash, formed]
        trivial

end TronForge.Service
