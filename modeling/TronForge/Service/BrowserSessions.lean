import TronForge.Library.Concurrent
import TronForge.Service.SessionHistory

/-! The browser sessions of the authentication routes: login, renewal and logout as
programs over their statements, and what the database answers under row locks. -/

namespace TronForge.Service

open Library

abbrev Instant := Nat

structure AuthSession where
  id : SessionId
  userId : Nat
  refreshTokenHash : Token
  expiresAt : Instant
  revokedAt : Option Instant := none
  deriving DecidableEq, Repr

structure User where
  id : Nat
  username : String
  passwordHash : String
  isActive : Bool
  deriving DecidableEq, Repr

/-- The settings that the routes read. -/
structure AuthSettings where
  adminUsername : String
  browserSessionDays : Nat

/-- The hash functions the routes call: `hashlib.sha256` as hexadecimal text, and
`verify_password`. -/
structure Hashing where
  digest : Token → Token
  verifyPassword : String → String → Bool

inductive SessionError where
  | httpException (statusCode : Nat) (detail : String)
  | unexpected (message : String)
  deriving DecidableEq, Repr

/-- `REFRESH_TOKEN_RE.fullmatch`. -/
def wellFormed (token : Token) : Bool :=
  decide (token.length = 64) &&
    token.all fun symbol => symbol.isAlphanum || symbol = '_' || symbol = '-'

def refreshHash (hashing : Hashing) (token : Token) : Option Token :=
  if wellFormed token then some (hashing.digest token) else none

/-- What a transaction writes with its commit. The tokens themselves are not
stored; they are named for the history. -/
inductive SessionWrite where
  | add (userId : Nat) (token : Token) (refreshTokenHash : Option Token) (expiresAt : Instant)
  | rotate (session : SessionId) (presented next : Token) (refreshTokenHash : Option Token) (expiresAt : Instant)
  | revoke (session : SessionId) (revokedAt : Instant)

/-- The calls of the routes. `logoutSent` and `signedOut` mark for the history when
a logout is sent and when it answers. -/
inductive SessionCall where
  | matching (refreshTokenHash : Token)
  | lockMatching (session : SessionId) (refreshTokenHash : Token)
  | userNamed (username : String)
  | user (id : Nat)
  | accessToken (subject : Nat)
  | now
  | freshToken
  | commit (write : SessionWrite)
  | logoutSent (cookie : Option Token)
  | signedOut

abbrev SessionReply : SessionCall → Type
  | .matching _ => Option SessionId
  | .lockMatching .. => Option AuthSession
  | .userNamed _ => Option User
  | .user _ => Option User
  | .accessToken _ => String × Nat
  | .now => Instant
  | .freshToken => Token
  | .commit _ => Unit
  | .logoutSent _ => Unit
  | .signedOut => Unit

abbrev sessionCalls : Interface := ⟨SessionCall, SessionReply⟩

abbrev SessionTask := Program sessionCalls SessionError

def ask (operation : SessionCall) : SessionTask (SessionReply operation) :=
  Program.perform (I := sessionCalls) operation

/-- `SELECT ... WHERE refresh_token_hash = ... FOR UPDATE`: the row that the statement
finds, then its lock and the condition again on the committed row. -/
def selectForUpdate (refreshTokenHash : Token) : SessionTask (Option AuthSession) := do
  match ← ask (.matching refreshTokenHash) with
  | none => return none
  | some session => ask (.lockMatching session refreshTokenHash)

/-- What the routes answer; the cookie is the refresh token that is set. -/
inductive SessionResponse where
  | token (accessToken : String) (expiresIn : Nat) (cookie : Option Token)
  | signedOut
  deriving DecidableEq, Repr

structure LoginRequest where
  username : String
  password : String

/-- A request with what `_check_origin` says of it. -/
inductive BrowserRequest where
  | login (checkOrigin : Except SessionError Bool) (payload : LoginRequest)
  | refresh (checkOrigin : Except SessionError Bool) (refreshCookie : Option Token)
  | logout (checkOrigin : Except SessionError Bool) (refreshCookie : Option Token)

def raised : Except SessionError α → SessionTask α
  | .ok value => .done value
  | .error error => .raise error

def unauthorizedSession : SessionTask α :=
  .raise (.httpException 401 "Browser session is no longer valid. Please sign in again.")

def invalidCredentials : SessionTask α := .raise (.httpException 401 "Invalid username or password.")

def AuthSettings.expiry (settings : AuthSettings) (now : Instant) : Instant :=
  now + settings.browserSessionDays * 86400000000

/-- What `issue_token` does for a user whose password is right. -/
def issueFor (settings : AuthSettings) (hashing : Hashing) (browserLogin : Bool) (user : User) :
    SessionTask SessionResponse := do
  let (token, expiresIn) ← ask (.accessToken user.id)
  if browserLogin then
    let refreshToken ← ask .freshToken
    let now ← ask .now
    ask (.commit (.add user.id refreshToken (refreshHash hashing refreshToken) (settings.expiry now)))
    return .token token expiresIn (some refreshToken)
  else return .token token expiresIn none

def issueToken (settings : AuthSettings) (hashing : Hashing) (checkOrigin : Except SessionError Bool)
    (payload : LoginRequest) : SessionTask SessionResponse := do
  let browserLogin ← raised checkOrigin
  let user ← if payload.username = settings.adminUsername then ask (.userNamed settings.adminUsername)
    else pure none
  match user with
  | none => invalidCredentials
  | some user =>
    if !hashing.verifyPassword payload.password user.passwordHash || !user.isActive then invalidCredentials
    else issueFor settings hashing browserLogin user

/-- The end of `refresh_browser_session`: the hash of the locked session is rotated. -/
def rotateSession (settings : AuthSettings) (hashing : Hashing) (refreshToken : Token) (session : AuthSession)
    (user : User) : SessionTask SessionResponse := do
  let nextRefreshToken ← ask .freshToken
  let now ← ask .now
  ask (.commit (.rotate session.id refreshToken nextRefreshToken (refreshHash hashing nextRefreshToken)
    (settings.expiry now)))
  let (accessToken, expiresIn) ← ask (.accessToken user.id)
  return .token accessToken expiresIn (some nextRefreshToken)

/-- `refresh_browser_session` once its session is locked. -/
def renewSession (settings : AuthSettings) (hashing : Hashing) (refreshToken : Token) (session : AuthSession) :
    SessionTask SessionResponse := do
  let user ← ask (.user session.userId)
  if session.revokedAt.isSome then unauthorizedSession
  else
    let now ← ask .now
    if session.expiresAt ≤ now then unauthorizedSession
    else
      match user with
      | none => unauthorizedSession
      | some user =>
        if !user.isActive || user.username ≠ settings.adminUsername then unauthorizedSession
        else rotateSession settings hashing refreshToken session user

def refreshBrowserSession (settings : AuthSettings) (hashing : Hashing)
    (checkOrigin : Except SessionError Bool) (refreshCookie : Option Token) : SessionTask SessionResponse := do
  let _ ← raised checkOrigin
  match refreshCookie.filter (· ≠ []) with
  | none => unauthorizedSession
  | some refreshToken =>
    match refreshHash hashing refreshToken with
    | none => unauthorizedSession
    | some hash =>
      match ← selectForUpdate hash with
      | none => unauthorizedSession
      | some session => renewSession settings hashing refreshToken session

/-- The part of `logout_browser_session` that revokes the session it finds. -/
def revokeSession (refreshTokenHash : Token) : SessionTask Unit := do
  match ← selectForUpdate refreshTokenHash with
  | none => pure ()
  | some session =>
    if session.revokedAt.isSome then pure ()
    else
      let now ← ask .now
      ask (.commit (.revoke session.id now))

def logoutBrowserSession (hashing : Hashing) (checkOrigin : Except SessionError Bool)
    (refreshCookie : Option Token) : SessionTask SessionResponse := do
  ask (.logoutSent refreshCookie)
  let _ ← raised checkOrigin
  match (refreshCookie.filter (· ≠ [])).bind (refreshHash hashing) with
  | none => pure ()
  | some hash => revokeSession hash
  ask .signedOut
  return .signedOut

/-- The stored sessions, who holds the lock on each row, and the tokens that each
request has drawn. -/
structure SessionStore where
  sessions : List AuthSession := []
  holder : SessionId → Option RequestId := fun _ => none
  drawn : List (RequestId × Token) := []
  history : History := []

namespace SessionStore

def lock (request : RequestId) (session : SessionId) (store : SessionStore) : SessionStore :=
  { store with holder := fun other => if other = session then some request else store.holder other }

/-- The end of a transaction gives up its locks. -/
def release (request : RequestId) (store : SessionStore) : SessionStore :=
  { store with holder := fun session =>
      if store.holder session = some request then none else store.holder session }

def draw (request : RequestId) (token : Token) (store : SessionStore) : SessionStore :=
  { store with drawn := (request, token) :: store.drawn }

def log (event : SessionEvent) (store : SessionStore) : SessionStore :=
  { store with history := event :: store.history }

def add (session : AuthSession) (token : Token) (store : SessionStore) : SessionStore :=
  { store with
    sessions := session :: store.sessions
    history := .added session.id token :: store.history }

def modify (session : SessionId) (change : AuthSession → AuthSession) (store : SessionStore) : SessionStore :=
  { store with sessions := Table.modify AuthSession.id session change store.sessions }

/-- The constraint on the hashes. -/
def Unused (hash : Token) (store : SessionStore) : Prop :=
  ∀ session ∈ store.sessions, session.refreshTokenHash ≠ hash

instance (hash : Token) (store : SessionStore) : Decidable (store.Unused hash) :=
  inferInstanceAs (Decidable (∀ _ ∈ _, _))

/-- The rows after a commit, unless a constraint rejects it. A new row has an id of
its own. -/
def write (request : RequestId) (newId : SessionId) (store : SessionStore) : SessionWrite → Option SessionStore
  | .add userId token (some hash) expiresAt =>
    if store.Unused hash ∧ ∀ session ∈ store.sessions, session.id ≠ newId then
      some (store.add ⟨newId, userId, hash, expiresAt, none⟩ token)
    else none
  | .rotate session presented next (some hash) expiresAt =>
    if store.Unused hash then
      some ((store.modify session fun row =>
        { row with refreshTokenHash := hash, expiresAt := expiresAt }).log (.rotated request session presented next))
    else none
  | .revoke session revokedAt =>
    some ((store.modify session fun row => { row with revokedAt := some revokedAt }).log (.revoked request session))
  | .add _ _ none _ | .rotate _ _ _ none _ => none

end SessionStore

/-- What the surroundings decide about a call: it fails, it is done, or what else the
reply depends on. A commit may reach the database and still raise. -/
inductive SessionAnswer where
  | fails (error : SessionError)
  | done
  | committed (newId : SessionId) (failure : Option SessionError)
  | user (user : Option User)
  | accessToken (token : String) (expiresIn : Nat)
  | time (now : Instant)
  | token (token : Token)

/-- The call of a request, if the answer is possible. A lock that another request
holds is waited for. Tokens are fresh, and a request sends one logout. -/
def respondSession (request : RequestId) (store : SessionStore) : (operation : SessionCall) → SessionAnswer →
    Option (Except SessionError (SessionReply operation) × SessionStore)
  | .logoutSent cookie, .done =>
    if ∀ event ∈ store.history, event.sender ≠ some request then
      some (.ok (), store.log (.logoutSent request cookie))
    else none
  | .logoutSent _, _ => none
  | .signedOut, .done => some (.ok (), store.log (.signedOut request))
  | .signedOut, _ => none
  | _, .fails error => some (.error error, store)
  | .matching hash, .done =>
    some (.ok ((store.sessions.find? fun session => decide (session.refreshTokenHash = hash)).map (·.id)), store)
  | .lockMatching session hash, .done =>
    if store.holder session = none ∨ store.holder session = some request then
      match store.sessions.find? fun row => decide (row.id = session ∧ row.refreshTokenHash = hash) with
      | some row => some (.ok (some row), store.lock request session)
      | none => some (.ok none, store)
    else none
  | .userNamed _, .user user => some (.ok user, store)
  | .user _, .user user => some (.ok user, store)
  | .accessToken _, .accessToken token expiresIn => some (.ok (token, expiresIn), store)
  | .now, .time now => some (.ok now, store)
  | .freshToken, .token token =>
    if wellFormed token ∧ ∀ pair ∈ store.drawn, pair.2 ≠ token then some (.ok token, store.draw request token)
    else none
  | .commit write, .committed newId failure =>
    (store.write request newId write).map fun after =>
      ((match failure with | none => .ok () | some error => .error error), after.release request)
  | _, _ => none

/-- The calls that only read. -/
def SessionCall.asks : SessionCall → Bool
  | .matching _ | .userNamed _ | .user _ | .accessToken _ | .now => true
  | _ => false

theorem respondSession_asks {request : RequestId} {store after : SessionStore} {operation : SessionCall}
    {answer : SessionAnswer} {reply : Except SessionError (SessionReply operation)} (asks : operation.asks = true)
    (responded : respondSession request store operation answer = some (reply, after)) : after = store := by
  cases operation with
  | matching hash =>
    cases answer <;> simp only [respondSession, reduceCtorEq] at responded <;> cases responded <;> rfl
  | userNamed username =>
    cases answer <;> simp only [respondSession, reduceCtorEq] at responded <;> cases responded <;> rfl
  | user id =>
    cases answer <;> simp only [respondSession, reduceCtorEq] at responded <;> cases responded <;> rfl
  | accessToken subject =>
    cases answer <;> simp only [respondSession, reduceCtorEq] at responded <;> cases responded <;> rfl
  | now =>
    cases answer <;> simp only [respondSession, reduceCtorEq] at responded <;> cases responded <;> rfl
  | _ => cases asks

def browserRequests (settings : AuthSettings) (hashing : Hashing) :
    Sharing sessionCalls SessionError SessionResponse SessionStore where
  Task := BrowserRequest
  Answer := SessionAnswer
  code
    | .login checkOrigin payload => issueToken settings hashing checkOrigin payload
    | .refresh checkOrigin cookie => refreshBrowserSession settings hashing checkOrigin cookie
    | .logout checkOrigin cookie => logoutBrowserSession hashing checkOrigin cookie
  respond := respondSession
  release := SessionStore.release

end TronForge.Service
