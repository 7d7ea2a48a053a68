import TronForge.Library.Concurrent
import TronForge.Bot.ApiTraffic

/-! `TronForgeApiClient`: `authenticate` and `request` as programs over their calls, and
how the client, the clock and the server answer them. Between any two calls others may
run, at the suspension points of the source and also elsewhere. -/

namespace TronForge.Bot

open Library

structure TokenResponse where
  accessToken : Token
  tokenType : String := "bearer"
  expiresIn : Int
  deriving DecidableEq, Repr

/-- What the body of a response has as `detail`; each item of a list as its text. -/
inductive Detail where
  | messages (items : List String)
  | text (detail : String)
  | none
  deriving DecidableEq, Repr

/-- A response, with its body as `response_error` and as `TokenResponse` read it. -/
structure Response where
  statusCode : Nat
  detail : Detail := .none
  tokenResponse : Option TokenResponse := none
  deriving DecidableEq, Repr

/-- `response.is_success`. -/
def Response.isSuccess (response : Response) : Bool := 200 ≤ response.statusCode && response.statusCode < 300

inductive ApiError where
  | tronForgeApiError (message : String)
  | httpError
  | validationError
  | unexpected (message : String)
  deriving DecidableEq, Repr

def responseError (response : Response) : String :=
  match response.detail with
  | .messages items => " ".intercalate items
  | .text detail => detail
  | .none => "TronForge API returned HTTP " ++ toString response.statusCode ++ "."

/-- The settings that the client reads. -/
structure ApiSettings where
  adminUsername : String
  adminPassword : String

/-- The calls of the client. `post` and `loginResponse` are the two ends of a login, `send`
and `response` those of another request; `begins` marks for the history that a task starts. -/
inductive ApiCall where
  | begins (task : Task)
  | tokenIsCurrent
  | token
  | acquire
  | release
  | post (username password : String)
  | loginResponse
  | renew (token : Token) (seconds : Nat)
  | send (message : Message)
  | response

abbrev ApiReply : ApiCall → Type
  | .begins _ => Unit
  | .tokenIsCurrent => Bool
  | .token => Option Token
  | .acquire => Unit
  | .release => Unit
  | .post .. => Unit
  | .loginResponse => Response
  | .renew .. => Unit
  | .send _ => Unit
  | .response => Response

abbrev apiCalls : Interface := ⟨ApiCall, ApiReply⟩

abbrev ApiTask := Program apiCalls ApiError

def ask (operation : ApiCall) : ApiTask (ApiReply operation) := Program.perform (I := apiCalls) operation

/-- `except httpx.HTTPError`. -/
def connecting (error : ApiError) : ApiError :=
  if error = .httpError then .tronForgeApiError "Cannot connect to the TronForge API." else error

def catching (task : ApiTask α) : ApiTask α := do
  match ← task.attempt with
  | .ok value => return value
  | .error error => .raise (connecting error)

/-- `async with self.auth_lock`. -/
def withAuthLock (body : ApiTask Unit) : ApiTask Unit := do
  ask .acquire
  let ended ← body.attempt
  ask .release
  match ended with
  | .ok () => return ()
  | .error error => .raise error

/-- The seconds after which the client renews a token. -/
def renewalDelay (expiresIn : Int) : Nat :=
  let expiresIn := max 1 expiresIn
  let renewalMargin := min 60 (max 1 (expiresIn / 10))
  (max 1 (expiresIn - renewalMargin)).toNat

/-- The login of `authenticate`. -/
def logIn (settings : ApiSettings) : ApiTask Unit := do
  let response ← catching do
    ask (.post settings.adminUsername settings.adminPassword)
    ask .loginResponse
  if !response.isSuccess then .raise (.tronForgeApiError (responseError response))
  else
    match response.tokenResponse with
    | none => .raise .validationError
    | some tokenResponse => ask (.renew tokenResponse.accessToken (renewalDelay tokenResponse.expiresIn))

/-- The two conditions under which `authenticate` returns once it has the lock. -/
def alreadyRenewed (force : Bool) (staleToken : Option Token) : ApiTask Bool :=
  if !force then ask .tokenIsCurrent
  else
    match staleToken with
    | none => pure false
    | some staleToken => do
      -- Another request may have renewed the token that received the 401.
      if (← ask .token) ≠ some staleToken then ask .tokenIsCurrent else return false

/-- `authenticate` once it has the lock. -/
def renewLocked (settings : ApiSettings) (force : Bool) (staleToken : Option Token) : ApiTask Unit := do
  if ← alreadyRenewed force staleToken then return () else logIn settings

def authenticate (settings : ApiSettings) (force : Bool) (staleToken : Option Token) : ApiTask Unit := do
  if ← (if force then pure false else ask .tokenIsCurrent) then return ()
  else withAuthLock (renewLocked settings force staleToken)

/-- `self.client.request`. -/
def exchange (message : Message) : ApiTask Response :=
  catching do
    ask (.send message)
    ask .response

def finish (response : Response) : ApiTask Response :=
  if !response.isSuccess then .raise (.tronForgeApiError (responseError response)) else return response

/-- What `request` does with the 401 to its first message. -/
def retry (settings : ApiSettings) (call : Call) (sentToken : Option Token) (requestHeaders : Headers) :
    ApiTask Response := do
  authenticate settings true sentToken
  let token ← ask .token
  let response ← exchange (call.message (setHeader "Authorization" (bearer token) requestHeaders))
  finish response

def request (settings : ApiSettings) (call : Call) : ApiTask Response := do
  authenticate settings false none
  let sentToken ← ask .token
  let requestHeaders := setHeader "Authorization" (bearer sentToken) (call.headers.getD [])
  let response ← exchange (call.message requestHeaders)
  if response.statusCode = 401 then retry settings call sentToken requestHeaders
  else finish response

/-- The client, the clock, the tokens that the server has issued, and what happened. -/
structure ApiWorld where
  token : Option Token := none
  nextAuthAt : Instant := 0
  authLock : Option RequestId := none
  clock : Instant := 0
  issued : List Token := []
  history : History := []
  deriving DecidableEq, Repr

namespace ApiWorld

def wait (elapsed : Instant) (world : ApiWorld) : ApiWorld := { world with clock := world.clock + elapsed }

def log (event : ApiEvent) (world : ApiWorld) : ApiWorld := { world with history := event :: world.history }

/-- `_token_is_current`. -/
def tokenIsCurrent (world : ApiWorld) : Bool := world.token.isSome && world.clock < world.nextAuthAt

def acquire (id : RequestId) (world : ApiWorld) : ApiWorld := { world with authLock := some id }

def release (id : RequestId) (world : ApiWorld) : ApiWorld :=
  if world.authLock = some id then { world with authLock := none } else world

/-- The two assignments after a login. -/
def renew (id : RequestId) (token : Token) (seconds : Nat) (world : ApiWorld) : ApiWorld :=
  { world with
    token := some token
    nextAuthAt := world.clock + seconds * second
    history := .renewed id token (world.clock + seconds * second) :: world.history }

/-- The token that a login response issues. -/
def issues (response : Response) : Option Token :=
  if response.isSuccess then response.tokenResponse.map (·.accessToken) else none

end ApiWorld

/-- What the surroundings decide about a call: it is done, it raises, or the response. -/
inductive ApiOutcome where
  | done
  | fails (error : ApiError)
  | responds (response : Response)

/-- The outcome of a call, and the time until then. -/
structure ApiAnswer where
  outcome : ApiOutcome
  elapsed : Instant := 0

section Outcomes
variable {α : Type} {world after : ApiWorld} {outcome : ApiOutcome} {reply : Except ApiError α}

/-- The answer to a call that is done at once. -/
def ApiOutcome.whenDone (outcome : ApiOutcome) (result : Option (Except ApiError α × ApiWorld)) :
    Option (Except ApiError α × ApiWorld) :=
  match outcome with
  | .done => result
  | .fails _ | .responds _ => none

/-- The answer to a call that sends something, or raises. -/
def ApiOutcome.whenSent (outcome : ApiOutcome) (world sent : ApiWorld) : Option (Except ApiError Unit × ApiWorld) :=
  match outcome with
  | .done => some (.ok (), sent)
  | .fails error => some (.error error, world)
  | .responds _ => none

/-- The answer to a call that waits for a response, or raises. -/
def ApiOutcome.whenReceived (outcome : ApiOutcome) (world : ApiWorld) (received : Response → Option ApiWorld) :
    Option (Except ApiError Response × ApiWorld) :=
  match outcome with
  | .responds response => (received response).map fun after => (.ok response, after)
  | .fails error => some (.error error, world)
  | .done => none

theorem ApiOutcome.whenDone_some {result : Option (Except ApiError α × ApiWorld)}
    (answered : outcome.whenDone result = some (reply, after)) : result = some (reply, after) := by
  cases outcome with
  | done => exact answered
  | fails error => cases answered
  | responds response => cases answered

theorem ApiOutcome.whenSent_some {sent : ApiWorld} {reply : Except ApiError Unit}
    (answered : outcome.whenSent world sent = some (reply, after)) :
    reply = .ok () ∧ after = sent ∨ (∃ error, reply = .error error) ∧ after = world := by
  cases outcome with
  | done =>
    cases answered
    exact .inl ⟨rfl, rfl⟩
  | fails error =>
    cases answered
    exact .inr ⟨⟨error, rfl⟩, rfl⟩
  | responds response => cases answered

theorem ApiOutcome.whenReceived_some {received : Response → Option ApiWorld} {reply : Except ApiError Response}
    (answered : outcome.whenReceived world received = some (reply, after)) :
    (∃ response, reply = .ok response ∧ received response = some after) ∨
      (∃ error, reply = .error error) ∧ after = world := by
  cases outcome with
  | done => cases answered
  | fails error =>
    cases answered
    exact .inr ⟨⟨error, rfl⟩, rfl⟩
  | responds response =>
    obtain ⟨later, received, same⟩ := Option.map_eq_some_iff.mp answered
    cases same
    exact .inl ⟨response, rfl, received⟩

end Outcomes

/-- The server issues each token once. -/
def ApiWorld.receive (world : ApiWorld) (response : Response) : Option ApiWorld :=
  match issues response with
  | none => some world
  | some token => if token ∈ world.issued then none else some { world with issued := token :: world.issued }

/-- The call of a task, if the outcome is possible. A lock that is held is waited for. -/
def answerApi (id : RequestId) (world : ApiWorld) (operation : ApiCall) (outcome : ApiOutcome) :
    Option (Except ApiError (ApiReply operation) × ApiWorld) :=
  match operation with
  | .begins task =>
    outcome.whenDone <|
      if ∀ event ∈ world.history, event.sender ≠ id then some (.ok (), world.log (.called id task)) else none
  | .tokenIsCurrent => outcome.whenDone (some (.ok world.tokenIsCurrent, world))
  | .token => outcome.whenDone (some (.ok world.token, world))
  | .acquire => outcome.whenDone (if world.authLock = none then some (.ok (), world.acquire id) else none)
  | .release => outcome.whenDone (some (.ok (), world.release id))
  | .post .. => outcome.whenSent world (world.log (.posted id world.clock))
  | .loginResponse => outcome.whenReceived world world.receive
  | .renew token seconds => outcome.whenDone (some (.ok (), world.renew id token seconds))
  | .send message => outcome.whenSent world (world.log (.sent id message))
  | .response =>
    outcome.whenReceived world fun response => some (world.log (.answered id response.statusCode))

/-- Any number of tasks of one client. A task that is canceled gives up the lock. -/
def apiTasks (settings : ApiSettings) : Sharing apiCalls ApiError (Option Response) ApiWorld where
  Task := Task
  Answer := ApiAnswer
  code task := do
    ask (.begins task)
    match task with
    | .authenticate =>
      authenticate settings false none
      return none
    | .request call => do
      let response ← request settings call
      return some response
  respond id world operation answer := answerApi id (world.wait answer.elapsed) operation answer.outcome
  release := ApiWorld.release

end TronForge.Bot
