import Mathlib.Data.List.Nodup
import Mathlib.Data.List.Infix

/-! What the Telegram bot's API client sends, and what happened to its requests and to its
token, newest first. -/

namespace TronForge.Bot

abbrev Token := String

abbrev RequestId := Nat

/-- Nanoseconds. -/
abbrev Instant := Nat

def second : Instant := 1000000000

/-- A dict of headers, in insertion order. -/
abbrev Headers := List (String × String)

/-- `headers[name] = value`. -/
def setHeader (name value : String) : Headers → Headers
  | [] => [(name, value)]
  | (key, old) :: rest => if key = name then (key, value) :: rest else (key, old) :: setHeader name value rest

/-- The arguments of `request`; the JSON body as its text. -/
structure Call where
  method : String
  path : String
  jsonBody : Option String
  headers : Option Headers
  deriving DecidableEq, Repr

/-- What the HTTP client is told to send. -/
structure Message where
  method : String
  path : String
  json : Option String
  headers : Headers
  deriving DecidableEq, Repr

/-- The f-string of the Authorization header. -/
def bearer : Option Token → String
  | none => "Bearer None"
  | some token => "Bearer " ++ token

/-- `path.lstrip("/")`. -/
def lstrip (path : String) : String := String.ofList (path.toList.dropWhile (· = '/'))

def Call.message (call : Call) (headers : Headers) : Message := ⟨call.method, lstrip call.path, call.jsonBody, headers⟩

/-- The message of a call under a token. -/
def Call.authorized (call : Call) (token : Token) : Message :=
  call.message (setHeader "Authorization" (bearer (some token)) (call.headers.getD []))

def Message.Carries (token : Token) (message : Message) : Prop :=
  message.headers.lookup "Authorization" = some (bearer (some token))

/-- What runs in the client: `authenticate` alone, or `request`. -/
inductive Task where
  | authenticate
  | request (call : Call)
  deriving DecidableEq, Repr

/-- What a task does. A login is posted, and later its token is stored. -/
inductive ApiEvent where
  | called (id : RequestId) (task : Task)
  | sent (id : RequestId) (message : Message)
  | answered (id : RequestId) (statusCode : Nat)
  | posted (id : RequestId) (moment : Instant)
  | renewed (id : RequestId) (token : Token) (nextAuthAt : Instant)
  deriving DecidableEq, Repr

abbrev History := List ApiEvent

def ApiEvent.sender : ApiEvent → RequestId
  | .called id _ | .sent id _ | .answered id _ | .posted id _ | .renewed id _ _ => id

structure Renewal where
  token : Token
  nextAuthAt : Instant
  deriving DecidableEq, Repr

def ApiEvent.renewal : ApiEvent → Option Renewal
  | .renewed _ token nextAuthAt => some ⟨token, nextAuthAt⟩
  | _ => none

/-- The logins that succeeded. -/
def renewals (history : History) : List Renewal := history.filterMap ApiEvent.renewal

def tokens (history : History) : List Token := (renewals history).map (·.token)

/-- What a request has sent, and the answers to it. -/
inductive Traffic where
  | sent (message : Message)
  | answered (statusCode : Nat)
  deriving DecidableEq, Repr

def Traffic.message : Traffic → Option Message
  | .sent message => some message
  | .answered _ => none

def ApiEvent.traffic (id : RequestId) : ApiEvent → Option Traffic
  | .sent sender message => if sender = id then some (.sent message) else none
  | .answered sender statusCode => if sender = id then some (.answered statusCode) else none
  | _ => none

def traffic (id : RequestId) (history : History) : List Traffic := history.filterMap (ApiEvent.traffic id)

def ApiEvent.post (id : RequestId) : ApiEvent → Option Instant
  | .posted sender moment => if sender = id then some moment else none
  | _ => none

/-- When a task last posted a login. -/
def lastPost (id : RequestId) (history : History) : Option Instant := history.findSome? (ApiEvent.post id)

/-- The last answer was 401, to a message with the token. -/
def Rejected (token : Token) (sofar : List Traffic) : Prop :=
  ∃ message earlier, sofar = .answered 401 :: .sent message :: earlier ∧ message.Carries token

/-- A token whose 401 makes a task log in is the token in use, or the token in use has
expired. -/
def Due (moment : Instant) (sofar : List Traffic) (known : List Renewal) : Prop :=
  ∀ rejected, Rejected rejected sofar → ∀ current ∈ known.head?, current.token = rejected ∨ current.nextAuthAt ≤ moment

/-- A first message, or the second one after a 401, under another token. -/
def Attempt (call : Call) (token : Token) (sofar : List Traffic) : Prop :=
  sofar = [] ∨ ∃ rejected, rejected ≠ token ∧ sofar = [.answered 401, .sent (call.authorized rejected)]

/-- The order of events: tasks start once, send their own call under tokens that were
issued, and log in only when it is due. -/
inductive Orderly : History → Prop where
  | nil : Orderly []
  | called {id : RequestId} {task : Task} (first : ∀ event ∈ earlier, event.sender ≠ id) (rest : Orderly earlier) :
      Orderly (.called id task :: earlier)
  | sent {id : RequestId} {call : Call} {token : Token} (own : .called id (.request call) ∈ earlier)
      (issued : token ∈ tokens earlier) (attempt : Attempt call token (traffic id earlier)) (rest : Orderly earlier) :
      Orderly (.sent id (call.authorized token) :: earlier)
  | answered {id : RequestId} {statusCode : Nat} (rest : Orderly earlier) :
      Orderly (.answered id statusCode :: earlier)
  | posted {id : RequestId} {moment : Instant} (rest : Orderly earlier) : Orderly (.posted id moment :: earlier)
  | renewed {id : RequestId} {token : Token} {moment nextAuthAt : Instant} (distinct : token ∉ tokens earlier)
      (posted : lastPost id earlier = some moment) (due : Due moment (traffic id earlier) (renewals earlier))
      (rest : Orderly earlier) : Orderly (.renewed id token nextAuthAt :: earlier)

section
variable {name other value : String} {headers : Headers}

theorem lookup_setHeader : (setHeader name value headers).lookup name = some value := by
  induction headers with
  | nil => simp [setHeader]
  | cons entry rest hypothesis =>
    obtain ⟨key, old⟩ := entry
    by_cases own : key = name
    · simp [setHeader, own]
    · have apart : (name == key) = false := by simpa using Ne.symm own
      simp only [setHeader, own, ↓reduceIte, List.lookup_cons, apart]
      exact hypothesis

/-- The other headers stay. -/
theorem lookup_setHeader_ne (different : other ≠ name) :
    (setHeader name value headers).lookup other = headers.lookup other := by
  induction headers with
  | nil =>
    have apart : (other == name) = false := by simpa using different
    simp [setHeader, List.lookup_cons, apart]
  | cons entry rest hypothesis =>
    obtain ⟨key, old⟩ := entry
    by_cases own : key = name
    · have apart : (other == key) = false := by simpa [own] using different
      simp [setHeader, own, List.lookup_cons, own ▸ apart]
    · simp only [setHeader, own, ↓reduceIte, List.lookup_cons]
      rw [hypothesis]

/-- The second assignment of a header replaces the first. -/
theorem setHeader_setHeader {later : String} :
    setHeader name later (setHeader name value headers) = setHeader name later headers := by
  induction headers with
  | nil => simp [setHeader]
  | cons entry rest hypothesis =>
    obtain ⟨key, old⟩ := entry
    by_cases own : key = name
    · simp [setHeader, own]
    · simp [setHeader, own, hypothesis]

end

section
variable {call : Call} {token other : Token} {message : Message}

theorem Call.authorized_carries : (call.authorized token).Carries token := lookup_setHeader

theorem Message.Carries.injective (left : message.Carries token) (right : message.Carries other) : token = other := by
  have same : bearer (some token) = bearer (some other) := Option.some.inj (left.symm.trans right)
  simpa [bearer] using same

end

section
variable {id : RequestId} {event : ApiEvent} {history earlier later more : History} {token : Token}

@[simp] theorem traffic_sent {message : Message} :
    traffic id (.sent id message :: history) = .sent message :: traffic id history :=
  List.filterMap_cons_some (if_pos rfl)

@[simp] theorem traffic_answered {statusCode : Nat} :
    traffic id (.answered id statusCode :: history) = .answered statusCode :: traffic id history :=
  List.filterMap_cons_some (if_pos rfl)

theorem traffic_append (others : ∀ event ∈ more, event.sender ≠ id) : traffic id (more ++ history) = traffic id history := by
  have none_ : more.filterMap (ApiEvent.traffic id) = [] := by
    rw [List.filterMap_eq_nil_iff]
    intro event member
    have apart := others event member
    cases event with
    | sent sender message => exact if_neg apart
    | answered sender statusCode => exact if_neg apart
    | _ => rfl
  rw [traffic, List.filterMap_append, none_, List.nil_append, traffic]

theorem lastPost_append (others : ∀ event ∈ more, event.sender ≠ id) :
    lastPost id (more ++ history) = lastPost id history := by
  have none_ : more.findSome? (ApiEvent.post id) = none := by
    rw [List.findSome?_eq_none_iff]
    intro event member
    have apart := others event member
    cases event with
    | posted sender moment => exact if_neg apart
    | _ => rfl
  rw [lastPost, List.findSome?_append, none_, Option.none_or, lastPost]

theorem tokens_append : tokens (later ++ earlier) = tokens later ++ tokens earlier := by
  rw [tokens, renewals, List.filterMap_append, List.map_append]
  rfl

theorem mem_of_traffic {message : Message} (member : .sent message ∈ traffic id history) : .sent id message ∈ history := by
  obtain ⟨event, present, same⟩ := List.mem_filterMap.mp member
  cases event with
  | sent sender content =>
    simp only [ApiEvent.traffic] at same
    split at same
    · rename_i own
      cases same
      rwa [← own]
    · cases same
  | answered sender statusCode =>
    simp only [ApiEvent.traffic] at same
    split at same
    · cases same
    · cases same
  | _ => cases same

theorem Orderly.of_append (orderly : Orderly (later ++ earlier)) : Orderly earlier := by
  induction later with
  | nil => exact orderly
  | cons event later hypothesis =>
    cases orderly with
    | called _ rest => exact hypothesis rest
    | sent _ _ _ rest => exact hypothesis rest
    | answered rest => exact hypothesis rest
    | posted rest => exact hypothesis rest
    | renewed _ _ _ rest => exact hypothesis rest

/-- The server's tokens are distinct. -/
theorem Orderly.tokens_nodup (orderly : Orderly history) : (tokens history).Nodup := by
  induction orderly with
  | nil => exact List.nodup_nil
  | renewed distinct _ _ _ hypothesis => exact List.nodup_cons.mpr ⟨distinct, hypothesis⟩
  | called _ _ hypothesis => exact hypothesis
  | sent _ _ _ _ hypothesis => exact hypothesis
  | answered _ hypothesis => exact hypothesis
  | posted _ hypothesis => exact hypothesis

/-- A token under which a message was sent was issued before. -/
theorem Orderly.issued (orderly : Orderly history) {message : Message} (member : .sent id message ∈ history)
    (carries : message.Carries token) : token ∈ tokens history := by
  induction orderly with
  | nil => cases member
  | sent _ issued _ _ hypothesis =>
    rcases List.mem_cons.mp member with same | old
    · cases same
      obtain rfl := carries.injective Call.authorized_carries
      exact issued
    · exact hypothesis old
  | called _ _ hypothesis => exact hypothesis (by simpa using member)
  | answered _ hypothesis => exact hypothesis (by simpa using member)
  | posted _ hypothesis => exact hypothesis (by simpa using member)
  | renewed _ _ _ _ hypothesis => exact List.mem_cons_of_mem _ (hypothesis (by simpa using member))

theorem Orderly.rejected_issued (orderly : Orderly history) (rejected : Rejected token (traffic id history)) :
    token ∈ tokens history := by
  obtain ⟨message, before, same, carries⟩ := rejected
  have member : .sent message ∈ traffic id history := by
    rw [same]
    exact List.mem_cons_of_mem _ List.mem_cons_self
  exact orderly.issued (mem_of_traffic member) carries

/-- A task that starts is not known yet, so each has one call. -/
theorem Orderly.called_unique (orderly : Orderly history) {task same : Task} (left : .called id task ∈ history)
    (right : .called id same ∈ history) : task = same := by
  induction orderly with
  | nil => cases left
  | called first _ hypothesis =>
    rcases List.mem_cons.mp left with new | old
    · rcases List.mem_cons.mp right with again | before
      · cases new
        cases again
        rfl
      · cases new
        exact absurd rfl (first _ before)
    · rcases List.mem_cons.mp right with again | before
      · cases again
        exact absurd rfl (first _ old)
      · exact hypothesis old before
  | sent _ _ _ _ hypothesis => exact hypothesis (by simpa using left) (by simpa using right)
  | answered _ hypothesis => exact hypothesis (by simpa using left) (by simpa using right)
  | posted _ hypothesis => exact hypothesis (by simpa using left) (by simpa using right)
  | renewed _ _ _ _ hypothesis => exact hypothesis (by simpa using left) (by simpa using right)

/-- The messages of a request. -/
def messages (id : RequestId) (history : History) : List Message := (traffic id history).filterMap Traffic.message

@[simp] theorem messages_sent {sender : RequestId} {message : Message} :
    messages id (.sent sender message :: history) =
      if sender = id then message :: messages id history else messages id history := by
  by_cases own : sender = id
  · subst own
    rw [messages, traffic_sent, if_pos rfl]
    rfl
  · simp [messages, traffic, ApiEvent.traffic, own]

@[simp] theorem messages_answered {sender : RequestId} {statusCode : Nat} :
    messages id (.answered sender statusCode :: history) = messages id history := by
  by_cases own : sender = id
  · subst own
    rw [messages, traffic_answered]
    rfl
  · simp [messages, traffic, ApiEvent.traffic, own]

theorem Orderly.messages_le_two (orderly : Orderly history) : (messages id history).length ≤ 2 := by
  induction orderly with
  | nil => exact Nat.zero_le 2
  | @sent earlier sender call token _ _ attempt _ hypothesis =>
    by_cases own : sender = id
    · subst own
      have few : (messages sender earlier).length ≤ 1 := by
        rcases attempt with first | ⟨rejected, -, second⟩
        · rw [messages, first]
          exact Nat.zero_le 1
        · rw [messages, second]
          exact le_rfl
      simpa using few
    · simpa [own] using hypothesis
  | answered _ hypothesis => simpa using hypothesis
  | called _ _ hypothesis => exact hypothesis
  | posted _ hypothesis => exact hypothesis
  | renewed _ _ _ _ hypothesis => exact hypothesis

/-- A token that has been replaced is not in use again. -/
theorem Orderly.current_ne (orderly : Orderly history) (replaced : token ∈ (tokens history).tail) {current : Renewal}
    (inUse : (renewals history).head? = some current) : current.token ≠ token := by
  obtain ⟨rest, split⟩ := List.head?_eq_some_iff.mp inUse
  have distinct := orderly.tokens_nodup
  rw [tokens, split] at distinct replaced
  obtain ⟨fresh, -⟩ := List.nodup_cons.mp distinct
  rintro rfl
  exact fresh replaced

/-- Two logins for 401 answers to one token: when the second was posted, the token then in
use had expired. -/
theorem Orderly.expired_between {first : RequestId} {next replacement : Token} {nextAuthAt firstUntil : Instant}
    (orderly : Orderly (.renewed id next nextAuthAt :: (later ++ .renewed first replacement firstUntil :: earlier)))
    (again : Rejected token (traffic id (later ++ .renewed first replacement firstUntil :: earlier)))
    (before : Rejected token (traffic first earlier)) :
    ∃ current moment, (renewals (later ++ .renewed first replacement firstUntil :: earlier)).head? = some current ∧
      lastPost id (later ++ .renewed first replacement firstUntil :: earlier) = some moment ∧
      current.nextAuthAt ≤ moment := by
  cases orderly with
  | @renewed _ _ _ moment _ _ posted due rest =>
    have old : token ∈ tokens earlier := by
      cases rest.of_append with
      | renewed _ _ _ older => exact older.rejected_issued before
    have replaced : token ∈ (tokens (later ++ .renewed first replacement firstUntil :: earlier)).tail := by
      rw [tokens_append]
      show token ∈ (tokens later ++ replacement :: tokens earlier).tail
      cases tokens later with
      | nil => exact old
      | cons latest others => exact List.mem_append_right _ (List.mem_cons_of_mem _ old)
    cases inUse : (renewals (later ++ .renewed first replacement firstUntil :: earlier)).head? with
    | none =>
      rw [tokens, List.head?_eq_none_iff.mp inUse] at replaced
      cases replaced
    | some current =>
      refine ⟨current, moment, rfl, posted, ?_⟩
      rcases due token again current inUse with same | expired
      · exact absurd same (rest.current_ne replaced inUse)
      · exact expired

end

end TronForge.Bot
