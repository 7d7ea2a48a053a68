import Mathlib.Data.List.Nodup

/-! What happened to browser sessions, newest first: which refresh tokens were
stored and accepted, which sessions were revoked, and which logouts were sent and
answered. -/

namespace TronForge.Service

abbrev SessionId := Nat

abbrev RequestId := Nat

/-- A refresh token, or a hash of one. -/
abbrev Token := List Char

inductive SessionEvent where
  | added (session : SessionId) (token : Token)
  | rotated (request : RequestId) (session : SessionId) (presented next : Token)
  | revoked (request : RequestId) (session : SessionId)
  | logoutSent (request : RequestId) (cookie : Option Token)
  | signedOut (request : RequestId)
  deriving DecidableEq, Repr

abbrev History := List SessionEvent

/-- The request that an event says has sent a logout. -/
def SessionEvent.sender : SessionEvent → Option RequestId
  | .logoutSent request _ => some request
  | _ => none

/-- The token most recently stored for a session. -/
def latest (session : SessionId) : History → Option Token
  | [] => none
  | .added other token :: earlier => if other = session then some token else latest session earlier
  | .rotated _ other _ next :: earlier => if other = session then some next else latest session earlier
  | _ :: earlier => latest session earlier

def storedTokens : History → List Token :=
  List.filterMap fun
    | .added _ token => some token
    | .rotated _ _ _ next => some next
    | _ => none

/-- The tokens that a refresh accepted. -/
def acceptedTokens : History → List Token :=
  List.filterMap fun
    | .rotated _ _ presented _ => some presented
    | _ => none

def Accepts (session : SessionId) (history : History) : Prop :=
  ∃ request presented next, .rotated request session presented next ∈ history

def Revoked (session : SessionId) (history : History) : Prop :=
  ∃ request, .revoked request session ∈ history

/-- Every session whose latest token the logout presented when it was sent has
since been renewed, is revoked, or is one that the logout still waits for. -/
def Settles (request : RequestId) (waits : Token → SessionId → Prop) (history : History) : Prop :=
  ∀ between token before session, history = between ++ .logoutSent request (some token) :: before →
    latest session before = some token →
      Accepts session between ∨ Revoked session history ∨ waits token session

/-- The logout waits for no session. -/
def nothing : Token → SessionId → Prop := fun _ _ => False

/-- The order of events: sessions are added once, only the latest token of a
session that is not revoked is accepted, requests send one logout, and an
answered logout settles what it was sent for. -/
inductive Orderly : History → Prop where
  | nil : Orderly []
  | added {session : SessionId} {token : Token} (unknown : latest session earlier = none)
      (rest : Orderly earlier) : Orderly (.added session token :: earlier)
  | rotated {request : RequestId} {session : SessionId} {presented next : Token}
      (current : latest session earlier = some presented) (valid : ¬ Revoked session earlier)
      (rest : Orderly earlier) : Orderly (.rotated request session presented next :: earlier)
  | revoked {request : RequestId} {session : SessionId} (rest : Orderly earlier) :
      Orderly (.revoked request session :: earlier)
  | logoutSent {request : RequestId} {cookie : Option Token}
      (first : ∀ other, .logoutSent request other ∉ earlier) (rest : Orderly earlier) :
      Orderly (.logoutSent request cookie :: earlier)
  | signedOut {request : RequestId} (settles : Settles request nothing earlier) (rest : Orderly earlier) :
      Orderly (.signedOut request :: earlier)

section
variable {session other : SessionId} {token : Token} {history earlier later : History}

theorem mem_storedTokens_of_latest (current : latest session history = some token) :
    token ∈ storedTokens history := by
  induction history with
  | nil => cases current
  | cons event earlier ih =>
    cases event with
    | added owner stored =>
      simp only [latest] at current
      split at current
      · cases current
        simp [storedTokens]
      · exact List.mem_cons_of_mem _ (ih current)
    | rotated request owner presented next =>
      simp only [latest] at current
      split at current
      · cases current
        simp [storedTokens]
      · exact List.mem_cons_of_mem _ (ih current)
    | _ => exact ih current

/-- A token is the latest of one session only. -/
theorem latest_injective (distinct : (storedTokens history).Nodup)
    (left : latest session history = some token) (right : latest other history = some token) :
    session = other := by
  induction history with
  | nil => cases left
  | cons event earlier ih =>
    have stored {owner : SessionId} {next : Token} (fresh : next ∉ storedTokens earlier)
        (rest : (storedTokens earlier).Nodup)
        (left : (if owner = session then some next else latest session earlier) = some token)
        (right : (if owner = other then some next else latest other earlier) = some token) :
        session = other := by
      split at left
      · rename_i mine
        cases left
        split at right
        · rename_i its
          exact mine.symm.trans its
        · exact absurd (mem_storedTokens_of_latest right) fresh
      · split at right
        · cases right
          exact absurd (mem_storedTokens_of_latest left) fresh
        · exact ih rest left right
    cases event with
    | added owner next =>
      obtain ⟨fresh, rest⟩ := List.nodup_cons.mp distinct
      exact stored fresh rest left right
    | rotated request owner presented next =>
      obtain ⟨fresh, rest⟩ := List.nodup_cons.mp distinct
      exact stored fresh rest left right
    | _ => exact ih distinct left right

theorem Orderly.of_append (orderly : Orderly (later ++ earlier)) : Orderly earlier := by
  induction later with
  | nil => exact orderly
  | cons event later ih =>
    cases orderly with
    | added _ rest => exact ih rest
    | rotated _ _ rest => exact ih rest
    | revoked rest => exact ih rest
    | logoutSent _ rest => exact ih rest
    | signedOut _ rest => exact ih rest

/-- Until a session is renewed its latest token stays. -/
theorem Orderly.accepts_or_latest (orderly : Orderly (later ++ earlier))
    (current : latest session earlier = some token) :
    Accepts session later ∨ latest session (later ++ earlier) = some token := by
  induction later with
  | nil => exact .inr current
  | cons event later ih =>
    have more (rest : Orderly (later ++ earlier)) :
        Accepts session (event :: later) ∨ latest session (later ++ earlier) = some token := by
      rcases ih rest with ⟨request, presented, next, member⟩ | same
      · exact .inl ⟨request, presented, next, List.mem_cons_of_mem _ member⟩
      · exact .inr same
    cases orderly with
    | @added _ owner stored unknown rest =>
      rcases more rest with accepted | same
      · exact .inl accepted
      · right
        have apart : owner ≠ session := by
          rintro rfl
          exact absurd (same.symm.trans unknown) (by simp)
        simpa [latest, apart] using same
    | @rotated _ request owner presented next _ _ rest =>
      by_cases own : owner = session
      · subst own
        exact .inl ⟨request, presented, next, by simp⟩
      · simpa [latest, own] using more rest
    | revoked rest => exact more rest
    | logoutSent _ rest => exact more rest
    | signedOut _ rest => exact more rest

/-- An accepted token is no longer the latest of any session. -/
theorem Orderly.latest_ne_accepted (orderly : Orderly history) (distinct : (storedTokens history).Nodup)
    (accepted : token ∈ acceptedTokens history) :
    token ∈ storedTokens history ∧ latest session history ≠ some token := by
  induction orderly generalizing session with
  | nil => cases accepted
  | @added earlier owner next _ _ ih =>
    obtain ⟨fresh, rest⟩ := List.nodup_cons.mp distinct
    have old := fun session => @ih session rest accepted
    refine ⟨List.mem_cons_of_mem _ (old session).1, ?_⟩
    simp only [latest]
    split
    · rintro same
      cases same
      exact fresh (old session).1
    · exact (old session).2
  | @rotated earlier request owner presented next current _ _ ih =>
    obtain ⟨fresh, rest⟩ := List.nodup_cons.mp distinct
    have known : token ∈ storedTokens earlier := by
      rcases List.mem_cons.mp accepted with rfl | before
      · exact mem_storedTokens_of_latest current
      · exact (@ih session rest before).1
    refine ⟨List.mem_cons_of_mem _ known, ?_⟩
    simp only [latest]
    split
    · rintro same
      cases same
      exact fresh known
    · rename_i apart
      rcases List.mem_cons.mp accepted with rfl | before
      · intro same
        exact apart (latest_injective rest current same)
      · exact (@ih session rest before).2
  | revoked _ ih => exact ih distinct accepted
  | logoutSent _ _ ih => exact ih distinct accepted
  | signedOut _ _ ih => exact ih distinct accepted

/-- No token is accepted twice. -/
theorem Orderly.acceptedTokens_nodup (orderly : Orderly history)
    (distinct : (storedTokens history).Nodup) : (acceptedTokens history).Nodup := by
  induction orderly with
  | nil => exact List.nodup_nil
  | added _ _ ih => exact ih (List.nodup_cons.mp distinct).2
  | @rotated earlier request owner presented next current _ orderly ih =>
    obtain ⟨-, rest⟩ := List.nodup_cons.mp distinct
    refine List.nodup_cons.mpr ⟨?_, ih rest⟩
    intro again
    exact (orderly.latest_ne_accepted rest again).2 current
  | revoked _ ih => exact ih distinct
  | logoutSent _ _ ih => exact ih distinct
  | signedOut _ _ ih => exact ih distinct

/-- A revoked session is never renewed. -/
theorem Orderly.not_accepts (orderly : Orderly (later ++ earlier)) (revoked : Revoked session earlier) :
    ¬ Accepts session later := by
  rintro ⟨request, presented, next, member⟩
  obtain ⟨front, rest, rfl⟩ := List.append_of_mem member
  rw [List.append_assoc, List.cons_append] at orderly
  cases orderly.of_append with
  | rotated _ valid _ =>
    obtain ⟨revoker, before⟩ := revoked
    exact valid ⟨revoker, List.mem_append_right _ before⟩

/-- Events of other requests leave a logout settled. -/
theorem Settles.append {request : RequestId} {waits : Token → SessionId → Prop}
    (settles : Settles request waits earlier) (others : ∀ event ∈ later, event.sender ≠ some request) :
    Settles request waits (later ++ earlier) := by
  intro between presented before owner split current
  rcases List.append_eq_append_iff.mp split with ⟨middle, rfl, inside⟩ | ⟨middle, rfl, outside⟩
  · rcases settles middle presented before owner inside current with
      ⟨renewer, token, next, member⟩ | ⟨revoker, member⟩ | waiting
    · exact .inl ⟨renewer, token, next, List.mem_append_right _ member⟩
    · exact .inr (.inl ⟨revoker, List.mem_append_right _ member⟩)
    · exact .inr (.inr waiting)
  · cases middle with
    | nil =>
      rcases settles [] presented before owner outside.symm current with
        ⟨renewer, token, next, member⟩ | ⟨revoker, member⟩ | waiting
      · cases member
      · exact .inr (.inl ⟨revoker, List.mem_append_right _ member⟩)
      · exact .inr (.inr waiting)
    | cons event middle =>
      obtain ⟨rfl, -⟩ := List.cons.inj outside
      exact absurd rfl (others _ (List.mem_append_right _ List.mem_cons_self))

/-- What the logout learns about the sessions it waits for, if their token is still
the latest. -/
theorem Settles.refine {request : RequestId} {waits still : Token → SessionId → Prop} (orderly : Orderly history)
    (settles : Settles request waits history)
    (learns : ∀ token session, waits token session → latest session history = some token →
      Revoked session history ∨ still token session) : Settles request still history := by
  intro between presented before owner split current
  rcases settles between presented before owner split current with accepted | revoked | waiting
  · exact .inl accepted
  · exact .inr (.inl revoked)
  · subst split
    rw [List.append_cons] at orderly
    rcases orderly.accepts_or_latest current with ⟨renewer, token, next, member⟩ | same
    · rcases List.mem_append.mp member with inside | last
      · exact .inl ⟨renewer, token, next, inside⟩
      · simp at last
    · rw [← List.append_cons] at same
      exact .inr (learns presented owner waiting same)

/-- A logout that has just been sent waits for the sessions of its cookie. -/
theorem settles_logoutSent {request : RequestId} {cookie : Option Token}
    (first : ∀ event ∈ history, event.sender ≠ some request) :
    Settles request (fun token _ => cookie = some token) (.logoutSent request cookie :: history) := by
  intro between presented before owner split _
  cases between with
  | nil =>
    obtain ⟨same, -⟩ := List.cons.inj split
    cases same
    exact .inr (.inr rfl)
  | cons event between =>
    obtain ⟨-, rest⟩ := List.cons.inj split
    have member : .logoutSent request (some presented) ∈ history := by
      rw [rest]
      exact List.mem_append_right _ List.mem_cons_self
    exact absurd rfl (first _ member)

end

end TronForge.Service
