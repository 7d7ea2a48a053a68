import TronForge.Bot.ApiRuns

/-! What the 401 answers to one token lead to, and what a request sends, in any interleaving
of the client's tasks. -/

namespace TronForge.Bot

open Library

variable {settings : ApiSettings} {id : RequestId} {world : ApiWorld}

/-- The headers of a call, other than the one the client sets, are sent as they are. -/
theorem Call.authorized_lookup {call : Call} {token : Token} {name : String} (different : name ≠ "Authorization") :
    (call.authorized token).headers.lookup name = (call.headers.getD []).lookup name :=
  lookup_setHeader_ne different

/-- A schedule that plays from the start reaches the client it ends with. -/
theorem reachesClient_of_replay (events : List (apiTasks settings).Event)
    (played : ((apiMachine settings).replay Machine.anyAction events ⟨{}, []⟩).map (·.world) = some world) :
    ReachesClient settings world := by
  obtain ⟨⟨final, threads⟩, replayed, rfl⟩ := Option.map_eq_some_iff.mp played
  exact ⟨threads, Machine.replay_run events replayed⟩

def sampleSettings : ApiSettings := ⟨"admin", "password"⟩

def sampleCall (path : String) : Call := ⟨"POST", path, some "\x7b\x7d", some [("Idempotency-Key", "once")]⟩

def doneAfter (elapsed : Instant) : ApiAnswer := ⟨.done, elapsed⟩

def grants (token : Token) (expiresIn : Int) : ApiAnswer :=
  ⟨.responds { statusCode := 200, tokenResponse := some { accessToken := token, expiresIn := expiresIn } }, 0⟩

def respondsWith (statusCode : Nat) : ApiAnswer := ⟨.responds { statusCode := statusCode }, 0⟩

def answersTo (id : RequestId) (answers : List ApiAnswer) : List (apiTasks sampleSettings).Event :=
  answers.map (.answer id)

/-- Two requests share the first token. Its 401 answers arrive before and after its
replacement, which lasts one second, has expired. -/
def lateRejection : List (apiTasks sampleSettings).Event :=
  List.flatten [
    [.arrive 1 (.request (sampleCall "/gpus")), .arrive 2 (.request (sampleCall "/jobs"))],
    answersTo 1 (List.replicate 5 (doneAfter 0)),
    answersTo 1 (grants "token-1" 1800 :: List.replicate 4 (doneAfter 0)),
    answersTo 2 (List.replicate 4 (doneAfter 0)),
    answersTo 1 (respondsWith 401 :: List.replicate 3 (doneAfter 0)),
    answersTo 1 (grants "token-2" 1 :: List.replicate 4 (doneAfter 0)),
    answersTo 1 [respondsWith 200],
    [.leave 1],
    answersTo 2 (respondsWith 401 :: doneAfter (2 * second) :: List.replicate 3 (doneAfter 0)),
    answersTo 2 [grants "token-3" 1800, doneAfter 0]]

/-- The client after the second login for the 401 to the first token. -/
def lateWorld : ApiWorld :=
  (((apiMachine sampleSettings).replay Machine.anyAction lateRejection ⟨{}, []⟩).map (·.world)).getD {}

theorem lateWorld_reached : ReachesClient sampleSettings lateWorld :=
  reachesClient_of_replay lateRejection rfl

/-- What happened up to the first of these logins, and between them. -/
def lateEarlier : History :=
  [.posted 1 0, .answered 1 401, .sent 2 ((sampleCall "/jobs").authorized "token-1"),
    .called 2 (.request (sampleCall "/jobs")), .sent 1 ((sampleCall "/gpus").authorized "token-1"),
    .renewed 1 "token-1" (1740 * second), .posted 1 0, .called 1 (.request (sampleCall "/gpus"))]

def lateMiddle : History :=
  [.posted 2 (2 * second), .answered 2 401, .answered 1 200, .sent 1 ((sampleCall "/gpus").authorized "token-2")]

theorem lateWorld_history : lateWorld.history =
    .renewed 2 "token-3" (1742 * second) :: (lateMiddle ++ .renewed 1 "token-2" second :: lateEarlier) := by
  decide +kernel

/-- In any interleaving of the client's tasks, with a server that issues each token once:
if two logins succeed for 401 answers to one token, then when the second was posted the
token in use had come to its renewal; a request sends only its own call, under a token,
at most twice, and the second time after a 401 and under another token. The token in use
is the newest one; the replacement of the rejected token may be an older one, and last longer. -/
theorem client_renews_once (reached : ReachesClient settings world) :
    (∀ later id next nextAuthAt middle first replacement firstNext earlier token,
      world.history = later ++ .renewed id next nextAuthAt ::
        (middle ++ .renewed first replacement firstNext :: earlier) →
      Rejected token (traffic id (middle ++ .renewed first replacement firstNext :: earlier)) →
      Rejected token (traffic first earlier) →
      ∃ current moment, (renewals (middle ++ .renewed first replacement firstNext :: earlier)).head? = some current ∧
        lastPost id (middle ++ .renewed first replacement firstNext :: earlier) = some moment ∧
        current.nextAuthAt ≤ moment) ∧
    (∀ later id message earlier, world.history = later ++ .sent id message :: earlier →
      ∃ call token, (∀ task, .called id task ∈ world.history ↔ task = .request call) ∧
        message = call.authorized token ∧
        (∀ name, name ≠ "Authorization" → message.headers.lookup name = (call.headers.getD []).lookup name) ∧
        Attempt call token (traffic id earlier)) ∧
    ∀ id, (messages id world.history).length ≤ 2 := by
  have orderly := reached.valid.orderly
  refine ⟨?_, ?_, fun id => orderly.messages_le_two⟩
  · intro later id next nextAuthAt middle first replacement firstNext earlier token split again before
    rw [split] at orderly
    exact orderly.of_append.expired_between again before
  · intro later id message earlier split
    have part : Orderly (.sent id message :: earlier) := by
      rw [split] at orderly
      exact orderly.of_append
    cases part with
    | @sent _ _ call token own issued attempt rest =>
      have known : .called id (.request call) ∈ world.history := by
        rw [split]
        exact List.mem_append_right _ (List.mem_cons_of_mem _ own)
      refine ⟨call, token, ?_, rfl, fun name different => Call.authorized_lookup different, attempt⟩
      intro task
      constructor
      · intro member
        exact orderly.called_unique member known
      · rintro rfl
        exact known

theorem client_renews_once_late : ∃ current moment,
    (renewals (lateMiddle ++ .renewed 1 "token-2" second :: lateEarlier)).head? = some current ∧
      lastPost 2 (lateMiddle ++ .renewed 1 "token-2" second :: lateEarlier) = some moment ∧
      current.nextAuthAt ≤ moment :=
  (client_renews_once lateWorld_reached).1 [] 2 "token-3" (1742 * second) lateMiddle 1 "token-2" second lateEarlier
    "token-1" lateWorld_history
    ⟨(sampleCall "/jobs").authorized "token-1", [], rfl, Call.authorized_carries⟩
    ⟨(sampleCall "/gpus").authorized "token-1", [], rfl, Call.authorized_carries⟩

/-- A second login for 401 answers to one token was posted before the replacement from
the first had come to its renewal. -/
def RenewedEarly (history : History) : Prop :=
  ∃ later id next nextAuthAt middle first replacement firstNext earlier token moment,
    history = later ++ .renewed id next nextAuthAt :: (middle ++ .renewed first replacement firstNext :: earlier) ∧
    Rejected token (traffic id (middle ++ .renewed first replacement firstNext :: earlier)) ∧
    Rejected token (traffic first earlier) ∧
    lastPost id (middle ++ .renewed first replacement firstNext :: earlier) = some moment ∧ moment < firstNext

/-- As before, but the replacement of the first token is rejected too, and replaced by a
token that lasts one second. -/
def replacedTwice : List (apiTasks sampleSettings).Event :=
  List.flatten [
    [.arrive 1 (.request (sampleCall "/gpus")), .arrive 2 (.request (sampleCall "/jobs")),
      .arrive 3 (.request (sampleCall "/fleet"))],
    answersTo 1 (List.replicate 5 (doneAfter 0)),
    answersTo 1 (grants "token-1" 1800 :: List.replicate 4 (doneAfter 0)),
    answersTo 2 (List.replicate 4 (doneAfter 0)),
    answersTo 1 (respondsWith 401 :: List.replicate 3 (doneAfter 0)),
    answersTo 1 (grants "token-2" 1800 :: List.replicate 4 (doneAfter 0)),
    answersTo 1 [respondsWith 200],
    [.leave 1],
    answersTo 3 (List.replicate 4 (doneAfter 0)),
    answersTo 3 (respondsWith 401 :: List.replicate 3 (doneAfter 0)),
    answersTo 3 (grants "token-3" 1 :: List.replicate 4 (doneAfter 0)),
    answersTo 3 [respondsWith 200],
    [.leave 3],
    answersTo 2 (respondsWith 401 :: doneAfter (2 * second) :: List.replicate 3 (doneAfter 0)),
    answersTo 2 [grants "token-4" 1800, doneAfter 0]]

def replacedWorld : ApiWorld :=
  (((apiMachine sampleSettings).replay Machine.anyAction replacedTwice ⟨{}, []⟩).map (·.world)).getD {}

/-- What happened between the two logins for the first token. -/
def replacedMiddle : History :=
  [.posted 2 (2 * second), .answered 2 401, .answered 3 200, .sent 3 ((sampleCall "/fleet").authorized "token-3"),
    .renewed 3 "token-3" second, .posted 3 0, .answered 3 401, .sent 3 ((sampleCall "/fleet").authorized "token-2"),
    .called 3 (.request (sampleCall "/fleet")), .answered 1 200, .sent 1 ((sampleCall "/gpus").authorized "token-2")]

/-- A late 401 to the first token leads to a login although its replacement has 1738
seconds left, because the token in use has expired. -/
theorem client_renews_early : ReachesClient sampleSettings replacedWorld ∧ RenewedEarly replacedWorld.history := by
  refine ⟨reachesClient_of_replay replacedTwice rfl, ?_⟩
  have history : replacedWorld.history = .renewed 2 "token-4" (1742 * second) ::
      (replacedMiddle ++ .renewed 1 "token-2" (1740 * second) :: lateEarlier) := by
    decide +kernel
  refine ⟨[], 2, "token-4", 1742 * second, replacedMiddle, 1, "token-2", 1740 * second, lateEarlier, "token-1",
    2 * second, history, ?_, ?_, rfl, by decide⟩
  · exact ⟨(sampleCall "/jobs").authorized "token-1", [], rfl, Call.authorized_carries⟩
  · exact ⟨(sampleCall "/gpus").authorized "token-1", [], rfl, Call.authorized_carries⟩

end TronForge.Bot
