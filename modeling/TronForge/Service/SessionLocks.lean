import TronForge.Service.BrowserSessions

/-! What holds of the stored sessions whatever the requests do, what a request may
rely on while the others go on, and what each call does to both. -/

namespace TronForge.Service

open Library

variable {hashing : Hashing} {request other : RequestId} {store after : SessionStore}

/-- Different refresh tokens have different hashes. -/
def Hashing.CollisionFree (hashing : Hashing) : Prop :=
  ∀ left right, wellFormed left = true → wellFormed right = true →
    hashing.digest left = hashing.digest right → left = right

/-- Each row has the hash of its latest token, tokens are stored once and only after
they were drawn, and the history is in order. -/
structure SessionStore.Valid (hashing : Hashing) (store : SessionStore) : Prop where
  ids : Table.Unique AuthSession.id store.sessions
  tokens : ∀ session ∈ store.sessions, ∃ token, latest session.id store.history = some token ∧
    session.refreshTokenHash = hashing.digest token
  known : ∀ session token, latest session store.history = some token →
    ∃ row ∈ store.sessions, row.id = session
  revoked : ∀ session ∈ store.sessions, session.revokedAt.isSome = true ↔ Revoked session.id store.history
  revokedKnown : ∀ session, Revoked session store.history → ∃ row ∈ store.sessions, row.id = session
  distinct : (storedTokens store.history).Nodup
  drawn : ∀ token ∈ storedTokens store.history, token ∈ store.drawn.map Prod.snd
  fresh : (store.drawn.map Prod.snd).Nodup
  formed : ∀ pair ∈ store.drawn, wellFormed pair.2 = true
  orderly : Orderly store.history

/-- A token that the request has drawn and nobody has stored. -/
structure Unstored (request : RequestId) (token : Token) (store : SessionStore) : Prop where
  drawn : (request, token) ∈ store.drawn
  unused : token ∉ storedTokens store.history

/-- A row that the request has locked. -/
structure Locked (request : RequestId) (session : AuthSession) (store : SessionStore) : Prop where
  stored : session ∈ store.sessions
  held : store.holder session.id = some request

/-- What a request may rely on: its locked rows and its unstored tokens stay, and the
others add to the history. -/
structure Relies (request : RequestId) (before after : SessionStore) : Prop where
  grows : ∃ more, after.history = more ++ before.history ∧ ∀ event ∈ more, event.sender ≠ some request
  locked : ∀ session, Locked request session before → Locked request session after
  unstored : ∀ token, Unstored request token before → Unstored request token after

theorem Relies.refl (request : RequestId) (store : SessionStore) : Relies request store store :=
  ⟨⟨[], rfl, by simp⟩, fun _ locked => locked, fun _ unstored => unstored⟩

theorem Relies.trans {middle : SessionStore} (first : Relies request store middle)
    (second : Relies request middle after) : Relies request store after where
  grows := by
    obtain ⟨more, same, others⟩ := first.grows
    obtain ⟨later, sameLater, othersLater⟩ := second.grows
    refine ⟨later ++ more, by rw [sameLater, same, List.append_assoc], ?_⟩
    intro event member
    rcases List.mem_append.mp member with new | old
    · exact othersLater event new
    · exact others event old
  locked session locked := second.locked session (first.locked session locked)
  unstored token unstored := second.unstored token (first.unstored token unstored)

/-- A hash finds the session whose latest token has it. -/
theorem SessionStore.Valid.token_of_hash (valid : store.Valid hashing) (collisionFree : hashing.CollisionFree)
    {session : AuthSession} (member : session ∈ store.sessions) {token : Token}
    (formed : wellFormed token = true) (hash : session.refreshTokenHash = hashing.digest token) :
    latest session.id store.history = some token := by
  obtain ⟨stored, current, own⟩ := valid.tokens session member
  obtain ⟨⟨drawer, drawn⟩, present, rfl⟩ :=
    List.mem_map.mp (valid.drawn stored (mem_storedTokens_of_latest current))
  have same : drawn = token :=
    collisionFree drawn token (valid.formed _ present) formed (own.symm.trans hash)
  rw [current, same]

/-- Stored tokens are well-formed. -/
theorem SessionStore.Valid.wellFormed_of_latest (valid : store.Valid hashing) {session : SessionId} {token : Token}
    (current : latest session store.history = some token) : wellFormed token = true := by
  obtain ⟨⟨drawer, drawn⟩, present, rfl⟩ :=
    List.mem_map.mp (valid.drawn token (mem_storedTokens_of_latest current))
  exact valid.formed _ present

section Effects

theorem relies_lock {session : SessionId} (free : store.holder session = none ∨ store.holder session = some request)
    (different : other ≠ request) : Relies other store (store.lock request session) where
  grows := ⟨[], rfl, by simp⟩
  locked row locked := by
    refine ⟨locked.stored, ?_⟩
    have elsewhere : row.id ≠ session := by
      rintro rfl
      rcases free with none_ | mine
      · exact absurd (locked.held.symm.trans none_) (by simp)
      · exact different (Option.some.inj (locked.held.symm.trans mine))
    simp only [SessionStore.lock, elsewhere, if_false]
    exact locked.held
  unstored _ unstored := ⟨unstored.drawn, unstored.unused⟩

theorem relies_release (different : other ≠ request) : Relies other store (store.release request) where
  grows := ⟨[], rfl, by simp⟩
  locked row locked := by
    refine ⟨locked.stored, ?_⟩
    have apart : store.holder row.id ≠ some request := by
      rw [locked.held]
      exact fun same => different (Option.some.inj same)
    simp only [SessionStore.release, apart, if_false]
    exact locked.held
  unstored _ unstored := ⟨unstored.drawn, unstored.unused⟩

theorem relies_draw (token : Token) : Relies other store (store.draw request token) where
  grows := ⟨[], rfl, by simp⟩
  locked _ locked := ⟨locked.stored, locked.held⟩
  unstored _ unstored := ⟨List.mem_cons_of_mem _ unstored.drawn, unstored.unused⟩

/-- Events that store nothing. -/
theorem relies_log {event : SessionEvent} (others : event.sender ≠ some other)
    (quiet : storedTokens (event :: store.history) = storedTokens store.history) :
    Relies other store (store.log event) where
  grows := ⟨[event], rfl, by simpa using others⟩
  locked _ locked := ⟨locked.stored, locked.held⟩
  unstored _ unstored := ⟨unstored.drawn, by rw [SessionStore.log, quiet]; exact unstored.unused⟩

theorem SessionStore.Valid.lock (valid : store.Valid hashing) (session : SessionId) :
    (store.lock request session).Valid hashing :=
  ⟨valid.ids, valid.tokens, valid.known, valid.revoked, valid.revokedKnown, valid.distinct, valid.drawn, valid.fresh,
    valid.formed, valid.orderly⟩

theorem SessionStore.Valid.release (valid : store.Valid hashing) : (store.release request).Valid hashing :=
  ⟨valid.ids, valid.tokens, valid.known, valid.revoked, valid.revokedKnown, valid.distinct, valid.drawn, valid.fresh,
    valid.formed, valid.orderly⟩

theorem SessionStore.Valid.draw (valid : store.Valid hashing) {token : Token} (formed : wellFormed token = true)
    (fresh : ∀ pair ∈ store.drawn, pair.2 ≠ token) : (store.draw request token).Valid hashing where
  ids := valid.ids
  tokens := valid.tokens
  known := valid.known
  revoked := valid.revoked
  revokedKnown := valid.revokedKnown
  distinct := valid.distinct
  drawn stored member := List.mem_cons_of_mem _ (valid.drawn stored member)
  fresh := by
    refine List.nodup_cons.mpr ⟨?_, valid.fresh⟩
    intro again
    obtain ⟨pair, member, same⟩ := List.mem_map.mp again
    exact fresh pair member same
  formed pair member := by
    rcases List.mem_cons.mp member with rfl | old
    · exact formed
    · exact valid.formed pair old
  orderly := valid.orderly

/-- A drawn token is not stored yet. -/
theorem SessionStore.Valid.unstored_draw (valid : store.Valid hashing) {token : Token}
    (fresh : ∀ pair ∈ store.drawn, pair.2 ≠ token) : Unstored request token (store.draw request token) := by
  refine ⟨List.mem_cons_self, ?_⟩
  intro stored
  obtain ⟨pair, member, same⟩ := List.mem_map.mp (valid.drawn token stored)
  exact fresh pair member same

theorem SessionStore.Valid.logoutSent (valid : store.Valid hashing) {cookie : Option Token}
    (first : ∀ event ∈ store.history, event.sender ≠ some request) :
    (store.log (.logoutSent request cookie)).Valid hashing where
  ids := valid.ids
  tokens := valid.tokens
  known := valid.known
  revoked session member := by simpa [Revoked, SessionStore.log] using valid.revoked session member
  revokedKnown session := by simpa [Revoked, SessionStore.log] using valid.revokedKnown session
  distinct := valid.distinct
  drawn := valid.drawn
  fresh := valid.fresh
  formed := valid.formed
  orderly := .logoutSent (fun _ again => first _ again rfl) valid.orderly

theorem SessionStore.Valid.signedOut (valid : store.Valid hashing) (settles : Settles request nothing store.history) :
    (store.log (.signedOut request)).Valid hashing where
  ids := valid.ids
  tokens := valid.tokens
  known := valid.known
  revoked session member := by simpa [Revoked, SessionStore.log] using valid.revoked session member
  revokedKnown session := by simpa [Revoked, SessionStore.log] using valid.revokedKnown session
  distinct := valid.distinct
  drawn := valid.drawn
  fresh := valid.fresh
  formed := valid.formed
  orderly := .signedOut settles valid.orderly

/-- A new session with a drawn token. -/
theorem SessionStore.Valid.add (valid : store.Valid hashing) {session : AuthSession} {token : Token}
    (unstored : Unstored request token store) (hash : session.refreshTokenHash = hashing.digest token)
    (newId : ∀ row ∈ store.sessions, row.id ≠ session.id) (unrevoked : session.revokedAt = none) :
    (store.add session token).Valid hashing where
  ids := by
    refine List.nodup_cons.mpr ⟨?_, valid.ids⟩
    intro again
    obtain ⟨row, member, same⟩ := List.mem_map.mp again
    exact newId row member same
  tokens row member := by
    rcases List.mem_cons.mp member with rfl | old
    · exact ⟨token, by simp [SessionStore.add, latest], hash⟩
    · obtain ⟨stored, current, own⟩ := valid.tokens row old
      refine ⟨stored, ?_, own⟩
      have apart : session.id ≠ row.id := (newId row old).symm
      simpa [SessionStore.add, latest, apart] using current
  known id stored current := by
    by_cases own : session.id = id
    · exact ⟨session, List.mem_cons_self, own⟩
    · obtain ⟨row, member, same⟩ := valid.known id stored (by simpa [SessionStore.add, latest, own] using current)
      exact ⟨row, List.mem_cons_of_mem _ member, same⟩
  revoked row member := by
    have same : Revoked row.id (store.add session token).history ↔ Revoked row.id store.history := by
      simp [Revoked, SessionStore.add]
    rw [same]
    rcases List.mem_cons.mp member with rfl | old
    · rw [unrevoked]
      constructor
      · intro some_
        cases some_
      · intro before
        obtain ⟨known, present, own⟩ := valid.revokedKnown row.id before
        exact absurd own (newId known present)
    · exact valid.revoked row old
  revokedKnown id revoked := by
    obtain ⟨row, member, same⟩ := valid.revokedKnown id (by simpa [Revoked, SessionStore.add] using revoked)
    exact ⟨row, List.mem_cons_of_mem _ member, same⟩
  distinct := List.nodup_cons.mpr ⟨unstored.unused, valid.distinct⟩
  drawn stored member := by
    rcases List.mem_cons.mp member with rfl | old
    · exact List.mem_map.mpr ⟨_, unstored.drawn, rfl⟩
    · exact valid.drawn stored old
  fresh := valid.fresh
  formed := valid.formed
  orderly := by
    refine .added ?_ valid.orderly
    cases current : latest session.id store.history with
    | none => rfl
    | some stored =>
      obtain ⟨row, member, same⟩ := valid.known session.id stored current
      exact absurd same (newId row member)

theorem relies_add {session : AuthSession} {token : Token} (valid : store.Valid hashing)
    (unstored : Unstored request token store) (different : other ≠ request) :
    Relies other store (store.add session token) where
  grows := ⟨[.added session.id token], rfl, by simp [SessionEvent.sender]⟩
  locked _ locked := ⟨List.mem_cons_of_mem _ locked.stored, locked.held⟩
  unstored stored mine := by
    refine ⟨mine.drawn, ?_⟩
    intro member
    rcases List.mem_cons.mp member with rfl | old
    · have same := List.inj_on_of_nodup_map valid.fresh mine.drawn unstored.drawn rfl
      exact different (congrArg Prod.fst same)
    · exact mine.unused old

/-- Changing a row that the request has locked takes nothing from the others. -/
theorem relies_modify {session : AuthSession} {change : AuthSession → AuthSession} {event : SessionEvent}
    (locked : Locked request session store) (others : event.sender ≠ some other)
    (stores : ∀ token, Unstored other token store → token ∉ storedTokens (event :: store.history))
    (different : other ≠ request) : Relies other store ((store.modify session.id change).log event) where
  grows := ⟨[event], rfl, by simpa using others⟩
  locked row its := by
    refine ⟨Table.mem_modify_of_ne its.stored ?_, its.held⟩
    intro same
    have holder := its.held
    rw [same, locked.held] at holder
    exact different (Option.some.inj holder).symm
  unstored token mine := ⟨mine.drawn, stores token mine⟩

theorem relies_rotate {session : AuthSession} {change : AuthSession → AuthSession} {presented next : Token}
    (valid : store.Valid hashing) (locked : Locked request session store) (unstored : Unstored request next store)
    (different : other ≠ request) : Relies other store
      ((store.modify session.id change).log (.rotated request session.id presented next)) := by
  refine relies_modify locked (by simp [SessionEvent.sender]) ?_ different
  intro stored mine member
  rcases List.mem_cons.mp member with rfl | old
  · have same := List.inj_on_of_nodup_map valid.fresh mine.drawn unstored.drawn rfl
    exact different (congrArg Prod.fst same)
  · exact mine.unused old

theorem relies_revoke {session : AuthSession} {change : AuthSession → AuthSession}
    (locked : Locked request session store) (different : other ≠ request) :
    Relies other store ((store.modify session.id change).log (.revoked request session.id)) :=
  relies_modify locked (by simp [SessionEvent.sender]) (fun _ mine => mine.unused) different

/-- A locked session with its latest token is renewed. -/
theorem SessionStore.Valid.rotate (valid : store.Valid hashing) {session : AuthSession} {presented next : Token}
    {expiresAt : Instant} (stored : session ∈ store.sessions)
    (current : latest session.id store.history = some presented) (unrevoked : session.revokedAt = none)
    (unstored : Unstored request next store) :
    ((store.modify session.id fun row =>
      { row with refreshTokenHash := hashing.digest next, expiresAt := expiresAt }).log
        (.rotated request session.id presented next)).Valid hashing where
  ids := valid.ids.modify fun _ _ => rfl
  tokens row member := by
    rcases Table.mem_modify member with ⟨old, -, own, rfl⟩ | ⟨old, apart⟩
    · exact ⟨next, by simp [SessionStore.log, latest, own], rfl⟩
    · obtain ⟨token, known, hash⟩ := valid.tokens row old
      refine ⟨token, ?_, hash⟩
      simpa [SessionStore.log, SessionStore.modify, latest, Ne.symm apart] using known
  known id token known := by
    have row : ∃ row ∈ store.sessions, row.id = id := by
      by_cases own : session.id = id
      · exact ⟨session, stored, own⟩
      · exact valid.known id token (by simpa [SessionStore.log, SessionStore.modify, latest, own] using known)
    exact Table.exists_modify row fun _ _ => rfl
  revoked row member := by
    have same : Revoked row.id (.rotated request session.id presented next :: store.history) ↔
        Revoked row.id store.history := by
      simp [Revoked]
    refine Iff.trans ?_ same.symm
    rcases Table.mem_modify member with ⟨old, present, -, rfl⟩ | ⟨old, -⟩
    · exact valid.revoked old present
    · exact valid.revoked row old
  revokedKnown id revoked := by
    have before : Revoked id store.history := by
      simpa [Revoked, SessionStore.log, SessionStore.modify] using revoked
    exact Table.exists_modify (valid.revokedKnown id before) fun _ _ => rfl
  distinct := List.nodup_cons.mpr ⟨unstored.unused, valid.distinct⟩
  drawn token member := by
    rcases List.mem_cons.mp member with rfl | old
    · exact List.mem_map.mpr ⟨_, unstored.drawn, rfl⟩
    · exact valid.drawn token old
  fresh := valid.fresh
  formed := valid.formed
  orderly := by
    refine .rotated current ?_ valid.orderly
    intro revoked
    have some_ := (valid.revoked session stored).mpr revoked
    simp [unrevoked] at some_

/-- A locked session is revoked. -/
theorem SessionStore.Valid.revoke (valid : store.Valid hashing) {session : AuthSession} {revokedAt : Instant}
    (stored : session ∈ store.sessions) :
    ((store.modify session.id fun row => { row with revokedAt := some revokedAt }).log
      (.revoked request session.id)).Valid hashing where
  ids := valid.ids.modify fun _ _ => rfl
  tokens row member := by
    rcases Table.mem_modify member with ⟨old, present, -, rfl⟩ | ⟨old, -⟩
    · exact valid.tokens old present
    · exact valid.tokens row old
  known id token known := Table.exists_modify (valid.known id token known) fun _ _ => rfl
  revoked row member := by
    rcases Table.mem_modify member with ⟨old, -, own, rfl⟩ | ⟨old, apart⟩
    · simp [Revoked, SessionStore.log, own]
    · refine (valid.revoked row old).trans ?_
      simp [Revoked, SessionStore.log, SessionStore.modify, apart]
  revokedKnown id revoked := by
    have row : ∃ row ∈ store.sessions, row.id = id := by
      by_cases own : id = session.id
      · exact ⟨session, stored, own.symm⟩
      · exact valid.revokedKnown id
          (by simpa [Revoked, SessionStore.log, SessionStore.modify, own] using revoked)
    exact Table.exists_modify row fun _ _ => rfl
  distinct := valid.distinct
  drawn := valid.drawn
  fresh := valid.fresh
  formed := valid.formed
  orderly := .revoked valid.orderly

end Effects

end TronForge.Service
