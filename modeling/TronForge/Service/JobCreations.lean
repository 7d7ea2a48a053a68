import TronForge.Funding.CreateFunding
import TronForge.Generator.StoredResults
import TronForge.Library.Machine
import TronForge.Service.JobRequests

/-! `create_job` as a program over its statements, any number of requests side by side with
any other transactions: requests with one key of one user get one job. -/

namespace TronForge.Service

open Library
open Generator (UserId JobId Time GenerationJob StoredRequest)
open Funding (idempotencyKeySafe)

/-- A job with its idempotency key. -/
structure KeyedJob where
  job : GenerationJob
  idempotencyKey : Option String

/-- The columns that no later transaction changes. -/
def KeyedJob.columns (row : KeyedJob) : StoredRequest × Option String := (row.job.request, row.idempotencyKey)

structure CreateRequest where
  user : UserId
  payload : GenerationJobCreate
  idempotencyKey : Option String

/-- The answer to a request, with the lasting columns of its job. -/
inductive CreateAnswer where
  | created (job : StoredRequest)
  | rejected (code : Nat) (detail : String)

inductive CreateError where
  | integrityError
  | unavailable (message : String)

inductive CreateCall where
  | existing (user : UserId) (key : String)
  | store (request : CreateRequest)
  | rollback
  | owned (jobId : JobId) (user : UserId)
  | answer (request : CreateRequest) (answer : CreateAnswer)
  | transact

abbrev CreateReply : CreateCall → Type
  | .existing .. | .owned .. => Option GenerationJob
  | .store _ => GenerationJob
  | .rollback | .answer .. | .transact => Unit

abbrev createCalls : Interface := ⟨CreateCall, CreateReply⟩

abbrev CreateTask := Program createCalls CreateError

def createCall (operation : CreateCall) : CreateTask (CreateReply operation) := @Program.perform createCalls _ operation

/-- The search for the job of a key. -/
def findExisting (user : UserId) : Option String → CreateTask (Option GenerationJob)
  | none => return none
  | some key => createCall (.existing user key)

/-- What follows the commit of a new row. -/
def finishStore (request : CreateRequest) : Except CreateError GenerationJob → CreateTask CreateAnswer
  | .ok job => do
    match ← createCall (.owned job.id request.user) with
    | some created => return .created created.request
    | none => return .rejected 500 "Generation job was created but could not be loaded."
  | .error .integrityError => do
    createCall .rollback
    match ← findExisting request.user request.idempotencyKey with
    | some existing => return .created existing.request
    | none => return .rejected 409 "Generation job already exists."
  | .error error => .raise error

def createJob (request : CreateRequest) : CreateTask CreateAnswer :=
  if request.idempotencyKey.any fun key => !idempotencyKeySafe key then
    return .rejected 400 "Idempotency-Key must be 1-128 safe ASCII characters."
  else do
    match ← findExisting request.user request.idempotencyKey with
    | some existing => return .created existing.request
    | none =>
      let stored ← (createCall (.store request)).attempt
      finishStore request stored

/-- The table of jobs, and the answers so far. -/
structure JobDesk where
  jobs : List KeyedJob := []
  answers : List (CreateRequest × CreateAnswer) := []

/-- What the surroundings decide about a statement: it fails, it is done, a row is committed
under what was drawn for it, or so and the reply is lost, or another transaction is committed. -/
inductive DeskAnswer where
  | fails (message : String)
  | done
  | stored (id : JobId) (secret : Nat) (encrypt : String → String) (now : Time)
  | storedThenFails (id : JobId) (secret : Nat) (encrypt : String → String) (now : Time) (message : String)
  | rewritten (jobs : List KeyedJob)

namespace JobDesk

def columns (desk : JobDesk) : List (StoredRequest × Option String) := desk.jobs.map KeyedJob.columns

/-- The rows under one key. -/
def keyed (user : UserId) (key : String) (row : KeyedJob) : Bool :=
  decide (row.job.userId = user ∧ row.idempotencyKey = some key)

/-- `uq_job_user_idempotency` lets a new row pass; a missing key never meets another. -/
def admits (desk : JobDesk) (request : CreateRequest) : Bool :=
  request.idempotencyKey.all fun key => !desk.jobs.any (keyed request.user key)

def add (desk : JobDesk) (request : CreateRequest) (id : JobId) (secret : Nat) (encrypt : String → String) (now : Time) :
    JobDesk :=
  { desk with jobs := ⟨createdJob request.payload secret encrypt id request.user now, request.idempotencyKey⟩ ::
      desk.jobs }

/-- A new row can be committed: its key is free, and so is the identifier drawn for it. -/
def Accepts (desk : JobDesk) (request : CreateRequest) (id : JobId) : Prop :=
  desk.admits request = true ∧ ∀ row ∈ desk.jobs, row.job.id ≠ id

instance (desk : JobDesk) (request : CreateRequest) (id : JobId) : Decidable (desk.Accepts request id) :=
  inferInstanceAs (Decidable (_ ∧ _))

end JobDesk

/-- The statement of a request, if the answer is possible. -/
def respondCreate (_thread : Nat) (desk : JobDesk) : (operation : CreateCall) → DeskAnswer →
    Option (Except CreateError (CreateReply operation) × JobDesk)
  | _, .fails message => some (.error (.unavailable message), desk)
  | .existing user key, .done => some (.ok ((desk.jobs.find? (JobDesk.keyed user key)).map (·.job)), desk)
  | .store request, .done => if desk.admits request then none else some (.error .integrityError, desk)
  | .store request, .stored id secret encrypt now =>
    if desk.Accepts request id then
      some (.ok (createdJob request.payload secret encrypt id request.user now), desk.add request id secret encrypt now)
    else none
  | .store request, .storedThenFails id secret encrypt now message =>
    if desk.Accepts request id then
      some (.error (.unavailable message), desk.add request id secret encrypt now)
    else none
  | .rollback, .done => some (.ok (), desk)
  | .owned jobId user, .done =>
    some (.ok ((desk.jobs.find? fun row => decide (row.job.id = jobId ∧ row.job.userId = user)).map (·.job)), desk)
  | .answer request answer, .done => some (.ok (), { desk with answers := (request, answer) :: desk.answers })
  | .transact, .rewritten jobs =>
    if jobs.map KeyedJob.columns = desk.columns then some (.ok (), { desk with jobs := jobs }) else none
  | _, _ => none

inductive DeskTask where
  | create (request : CreateRequest)
  | transact

def DeskTask.code : DeskTask → CreateTask Unit
  | .create request => do
    let answer ← createJob request
    createCall (.answer request answer)
  | .transact => createCall .transact

/-- All requests and transactions side by side. -/
def creations : Sharing createCalls CreateError Unit JobDesk where
  Task := DeskTask
  Answer := DeskAnswer
  code := DeskTask.code
  respond := respondCreate
  release _ desk := desk

/-- The tables and answers after any interleaving. -/
def ReachesDesk (desk : JobDesk) : Prop :=
  ∃ threads, (Machine.mk creations.step).Run Machine.anyAction ⟨{}, []⟩ ⟨desk, threads⟩

/-- What an answer says of the table: the row of a created job has the user and the key of
its request, and only a request with an unsafe key is rejected. -/
def Answerable (columns : List (StoredRequest × Option String)) (request : CreateRequest) : CreateAnswer → Prop
  | .created job => (job, request.idempotencyKey) ∈ columns ∧ job.userId = request.user
  | .rejected code _ => code = 400 ∧ ∃ key, request.idempotencyKey = some key ∧ idempotencyKeySafe key = false

/-- There is a row under the key of a request. -/
def Taken (request : CreateRequest) (columns : List (StoredRequest × Option String)) : Prop :=
  ∃ key job, request.idempotencyKey = some key ∧ (job, some key) ∈ columns ∧ job.userId = request.user

namespace JobDesk

/-- Rows are only added. -/
def Grows (before after : JobDesk) : Prop := ∀ row ∈ before.columns, row ∈ after.columns

/-- The unique columns, and true answers. -/
structure Valid (desk : JobDesk) : Prop where
  ids : Table.Unique (fun row => row.1.id) desk.columns
  keys : ∀ key first second, (first, some key) ∈ desk.columns → (second, some key) ∈ desk.columns →
    first.userId = second.userId → first = second
  answers : ∀ pair ∈ desk.answers, Answerable desk.columns pair.1 pair.2

end JobDesk

open JobDesk (Grows)

variable {desk after : JobDesk} {request : CreateRequest}

theorem Answerable.grows {answer : CreateAnswer} (answerable : Answerable desk.columns request answer)
    (grows : Grows desk after) : Answerable after.columns request answer := by
  cases answer with
  | created job => exact ⟨grows _ answerable.1, answerable.2⟩
  | rejected code detail => exact answerable

theorem Taken.grows (taken : Taken request desk.columns) (grows : Grows desk after) : Taken request after.columns := by
  obtain ⟨key, job, asked, member, owner⟩ := taken
  exact ⟨key, job, asked, grows _ member, owner⟩

/-- A request is only given an answer that says the truth. -/
def CreateCall.Truthful (desk : JobDesk) : CreateCall → Prop
  | .answer request reply => Answerable desk.columns request reply
  | _ => True

theorem keyed_iff {user : UserId} {key : String} {row : KeyedJob} :
    JobDesk.keyed user key row = true ↔ row.job.userId = user ∧ row.idempotencyKey = some key := decide_eq_true_iff

theorem mem_columns {job : StoredRequest} {key : Option String} :
    (job, key) ∈ desk.columns ↔ ∃ row ∈ desk.jobs, row.job.request = job ∧ row.idempotencyKey = key := by
  simp [JobDesk.columns, KeyedJob.columns]

/-- The constraint looks for the key of the request. -/
theorem admits_iff : desk.admits request = true ↔ ¬ Taken request desk.columns := by
  cases asked : request.idempotencyKey with
  | none => simp [JobDesk.admits, Taken, asked]
  | some key =>
    simp only [JobDesk.admits, asked, Option.all_some, Bool.not_eq_eq_eq_not, Bool.not_true, List.any_eq_false]
    constructor
    · rintro free ⟨other, job, same, member, owner⟩
      obtain rfl : key = other := Option.some.inj (asked.symm.trans same)
      obtain ⟨row, present, rfl, own⟩ := mem_columns.mp member
      exact free row present (keyed_iff.mpr ⟨owner, own⟩)
    · intro free row member keyed
      obtain ⟨owner, own⟩ := keyed_iff.mp keyed
      exact free ⟨key, row.job.request, asked, mem_columns.mpr ⟨row, member, rfl, own⟩, owner⟩

/-- A new row meets no row of its key and of its identifier. -/
theorem JobDesk.Valid.add (valid : desk.Valid) {id : JobId} {secret : Nat} {encrypt : String → String} {now : Time}
    (accepts : desk.Accepts request id) :
    (desk.add request id secret encrypt now).Valid ∧ Grows desk (desk.add request id secret encrypt now) := by
  have grows : Grows desk (desk.add request id secret encrypt now) := fun row member => List.mem_cons_of_mem _ member
  have free : ¬ Taken request desk.columns := admits_iff.mp accepts.1
  refine ⟨⟨?_, ?_, ?_⟩, grows⟩
  · have fresh : id ∉ desk.columns.map fun row => row.1.id := by
      intro member
      obtain ⟨⟨job, key⟩, known, same⟩ := List.mem_map.mp member
      obtain ⟨row, present, rfl, -⟩ := mem_columns.mp known
      exact accepts.2 row present same
    exact List.nodup_cons.mpr ⟨fresh, valid.ids⟩
  · intro key first second member other owner
    rcases List.mem_cons.mp member with new | old
    · have asked : request.idempotencyKey = some key := (congrArg Prod.snd new).symm
      have own : first.userId = request.user := congrArg (fun row => row.1.userId) new
      rcases List.mem_cons.mp other with newAgain | oldAgain
      · exact (congrArg Prod.fst new).trans (congrArg Prod.fst newAgain).symm
      · exact absurd ⟨key, second, asked, oldAgain, owner.symm.trans own⟩ free
    · rcases List.mem_cons.mp other with newAgain | oldAgain
      · have asked : request.idempotencyKey = some key := (congrArg Prod.snd newAgain).symm
        have own : second.userId = request.user := congrArg (fun row => row.1.userId) newAgain
        exact absurd ⟨key, first, asked, old, owner.trans own⟩ free
      · exact valid.keys key first second old oldAgain owner
  · intro pair member
    exact (valid.answers pair member).grows grows

/-- What every statement keeps. -/
theorem respondCreate_keeps (thread : Nat) {operation : CreateCall} {answer : DeskAnswer}
    {reply : Except CreateError (CreateReply operation)} (valid : desk.Valid)
    (truthful : operation.Truthful desk)
    (responded : respondCreate thread desk operation answer = some (reply, after)) :
    after.Valid ∧ Grows desk after := by
  have same : desk.Valid ∧ Grows desk desk := ⟨valid, fun _ member => member⟩
  unfold respondCreate at responded
  split at responded
  case h_1 | h_2 | h_6 | h_7 =>
    cases responded
    exact same
  case h_3 =>
    split at responded <;> cases responded
    exact same
  case h_4 | h_5 =>
    split at responded <;> cases responded
    rename_i accepts
    exact valid.add accepts
  case h_8 =>
    cases responded
    refine ⟨⟨valid.ids, valid.keys, ?_⟩, same.2⟩
    intro pair member
    rcases List.mem_cons.mp member with rfl | old
    · exact truthful
    · exact valid.answers pair old
  case h_9 =>
    split at responded <;> cases responded
    rename_i jobs kept
    have columns : JobDesk.columns { desk with jobs := jobs } = desk.columns := kept
    refine ⟨⟨?_, ?_, ?_⟩, ?_⟩
    · rw [columns]
      exact valid.ids
    · rw [columns]
      exact valid.keys
    · rw [columns]
      exact valid.answers
    · intro row member
      rw [columns]
      exact member
  case h_10 => cases responded

section Rules
variable {thread : Nat}

/-- The program can go on from here among the others, and ends with `post`. -/
abbrev Ends (thread : Nat) (post : Except CreateError α → JobDesk → Prop) (program : CreateTask α) (desk : JobDesk) :
    Prop :=
  (creations.environment (fun _ => Grows) thread).Assures JobDesk.Valid (Spares (fun _ => Grows) thread) post program
    desk

/-- The rule for one statement: what the request knows stays true until the answer. -/
theorem ends_call {operation : CreateCall} {post : Except CreateError (CreateReply operation) → JobDesk → Prop}
    (knows : JobDesk → Prop) (stable : ∀ before after, knows before → Grows before after → knows after)
    (known : knows desk)
    (truthful : ∀ current, knows current → operation.Truthful current)
    (ends : ∀ current answer reply after, knows current → current.Valid →
      respondCreate thread current operation answer = some (reply, after) → knows after → post reply after) :
    Ends thread post (createCall operation) desk := by
  apply Environment.Assures.perform knows stable known
  intro current reply after knowsCurrent valid performed
  obtain ⟨answer, responded⟩ := performed
  obtain ⟨kept, grows⟩ := respondCreate_keeps thread valid (truthful current knowsCurrent) responded
  exact ⟨kept, fun _ _ => grows,
    ends current answer reply after knowsCurrent valid responded (stable _ _ knowsCurrent grows)⟩

/-- The answer to a search under the key of a request. -/
def Finds (request : CreateRequest) : Except CreateError (Option GenerationJob) → JobDesk → Prop
  | .ok (some job), desk => Answerable desk.columns request (.created job.request)
  | .ok none, desk => ¬ Taken request desk.columns
  | .error _, _ => True

theorem find_keyed {key : String} (asked : request.idempotencyKey = some key) :
    Finds request (.ok ((desk.jobs.find? (JobDesk.keyed request.user key)).map (·.job))) desk := by
  cases found : desk.jobs.find? (JobDesk.keyed request.user key) with
  | some row =>
    obtain ⟨owner, own⟩ := keyed_iff.mp (List.find?_some found)
    exact ⟨mem_columns.mpr ⟨row, List.mem_of_find?_eq_some found, rfl, own.trans asked.symm⟩, owner⟩
  | none =>
    rintro ⟨other, job, same, member, owner⟩
    obtain rfl : key = other := Option.some.inj (asked.symm.trans same)
    obtain ⟨row, present, rfl, own⟩ := mem_columns.mp member
    exact List.find?_eq_none.mp found row present (keyed_iff.mpr ⟨owner, own⟩)

theorem ends_findExisting (knows : JobDesk → Prop)
    (stable : ∀ before after, knows before → Grows before after → knows after) (known : knows desk) :
    Ends thread (fun outcome current => knows current ∧ Finds request outcome current)
      (findExisting request.user request.idempotencyKey) desk := by
  cases asked : request.idempotencyKey with
  | none =>
    refine ⟨known, ?_⟩
    rintro ⟨key, job, same, -⟩
    cases asked.symm.trans same
  | some key =>
    apply ends_call knows stable known
    · intro current _
      trivial
    · intro current answer reply after _ _ responded knowsAfter
      refine ⟨knowsAfter, ?_⟩
      cases answer <;> simp only [respondCreate, reduceCtorEq] at responded <;> cases responded
      · trivial
      · exact find_keyed asked

/-- The outcome of the commit of a new row. -/
def Stores (request : CreateRequest) : Except CreateError GenerationJob → JobDesk → Prop
  | .ok job, desk => Answerable desk.columns request (.created job.request)
  | .error .integrityError, desk => Taken request desk.columns
  | .error (.unavailable _), _ => True

theorem ends_store : Ends thread (Stores request) (createCall (.store request)) desk := by
  apply ends_call (fun _ => True) (fun _ _ _ _ => trivial) trivial
  · intro current _
    trivial
  · intro current answer reply after _ _ responded _
    cases answer <;> simp only [respondCreate, reduceCtorEq] at responded
    case fails =>
      cases responded
      trivial
    case done =>
      split at responded <;> cases responded
      rename_i taken
      exact not_not.mp fun free => taken (admits_iff.mpr free)
    case stored =>
      split at responded <;> cases responded
      exact ⟨List.mem_cons_self, rfl⟩
    case storedThenFails =>
      split at responded <;> cases responded
      trivial

/-- The answer to the search for a new row by its identifier. -/
def Owns (request : CreateRequest) : Except CreateError (Option GenerationJob) → JobDesk → Prop
  | .ok (some job), desk => Answerable desk.columns request (.created job.request)
  | .ok none, _ => False
  | .error _, _ => True

/-- The new row is found, since no other row has its identifier. -/
theorem ends_owned {job : GenerationJob} (stored : Answerable desk.columns request (.created job.request)) :
    Ends thread (Owns request) (createCall (.owned job.id request.user)) desk := by
  apply ends_call (fun current => Answerable current.columns request (.created job.request))
    (fun _ _ answerable grows => answerable.grows grows) stored
  · intro current _
    trivial
  · intro current answer reply after known valid responded _
    cases answer <;> simp only [respondCreate, reduceCtorEq] at responded <;> cases responded
    · trivial
    · obtain ⟨row, present, same, own⟩ := mem_columns.mp known.1
      cases found : current.jobs.find? fun row => decide (row.job.id = job.id ∧ row.job.userId = request.user) with
      | none =>
        refine List.find?_eq_none.mp found row present (decide_eq_true ⟨?_, ?_⟩)
        · exact congrArg StoredRequest.id same
        · exact (congrArg StoredRequest.userId same).trans known.2
      | some other =>
        have wanted := List.find?_some found
        simp only [decide_eq_true_eq] at wanted
        obtain ⟨identifier, owner⟩ := wanted
        have member : (other.job.request, other.idempotencyKey) ∈ current.columns :=
          mem_columns.mpr ⟨other, List.mem_of_find?_eq_some found, rfl, rfl⟩
        have one := Table.eq_of_key valid.ids member known.1 identifier
        have key : other.idempotencyKey = request.idempotencyKey := congrArg Prod.snd one
        rw [key] at member
        exact ⟨member, owner⟩

/-- The outcome of a request. -/
def Answers (request : CreateRequest) : Except CreateError CreateAnswer → JobDesk → Prop
  | .ok answer, desk => Answerable desk.columns request answer
  | .error _, _ => True

theorem ends_finishStore {stored : Except CreateError GenerationJob} (stores : Stores request stored desk) :
    Ends thread (Answers request) (finishStore request stored) desk := by
  cases stored with
  | ok job =>
    apply Environment.Assures.bind (ends_owned stores)
    · intro found current owns
      cases found with
      | none => exact owns.elim
      | some created => exact owns
    · intro _ _ _
      trivial
  | error error =>
    cases error with
    | unavailable message => trivial
    | integrityError =>
      -- the row that stood in the way is committed, so the second search finds it
      have back : Ends thread (fun _ current => Taken request current.columns) (createCall .rollback) desk := by
        apply ends_call (fun current => Taken request current.columns) (fun _ _ taken grows => taken.grows grows) stores
        · intro current _
          trivial
        · intro _ _ _ _ _ _ _ taken
          exact taken
      apply Environment.Assures.bind back
      · intro _ middle taken
        apply Environment.Assures.bind (ends_findExisting (fun current => Taken request current.columns)
          (fun _ _ taken grows => taken.grows grows) taken)
        · intro found current known
          obtain ⟨taken, finds⟩ := known
          cases found with
          | none => exact absurd taken finds
          | some existing => exact finds
        · intro _ _ _
          trivial
      · intro _ _ _
        trivial

theorem ends_createJob : Ends thread (Answers request) (createJob request) desk := by
  unfold createJob
  split
  · rename_i rejected
    cases asked : request.idempotencyKey with
    | none => simp [asked] at rejected
    | some key => exact ⟨rfl, key, asked, by simpa [asked] using rejected⟩
  · apply Environment.Assures.bind (ends_findExisting (fun _ => True) (fun _ _ _ _ => trivial) trivial)
    · intro found current known
      cases found with
      | some existing => exact known.2
      | none =>
        let stored : Except CreateError (Except CreateError GenerationJob) → JobDesk → Prop
          | .ok outcome, world => Stores request outcome world
          | .error _, _ => True
        have attempted : Ends thread stored (createCall (.store request)).attempt current :=
          Environment.Assures.attempt ends_store fun _ _ stores => stores
        apply Environment.Assures.bind attempted
        · intro outcome later stores
          exact ends_finishStore stores
        · intro _ _ _
          trivial
    · intro _ _ _
      trivial

/-- Every task can run among the others. -/
theorem deskTask_keeps (task : DeskTask) :
    (creations.environment (fun _ => Grows) thread).Keeps JobDesk.Valid (Spares (fun _ => Grows) thread) task.code
      desk := by
  cases task with
  | create request =>
    have created : Ends thread (Answers request) (createJob request) desk := ends_createJob
    have ends : Ends thread (fun _ _ => True) (DeskTask.create request).code desk := by
      apply Environment.Assures.bind created
      · intro answer current answerable
        apply ends_call (fun current => Answerable current.columns request answer)
          (fun _ _ known grows => known.grows grows) answerable
        · intro later known
          exact known
        · intros
          trivial
      · intro _ _ _
        trivial
    exact ends.keeps
  | transact =>
    have ends : Ends thread (fun _ _ => True) DeskTask.transact.code desk := by
      apply ends_call (fun _ => True) (fun _ _ _ _ => trivial) trivial
      · intro current _
        trivial
      · intros
        trivial
    exact ends.keeps

end Rules

theorem ReachesDesk.valid (reached : ReachesDesk desk) : desk.Valid := by
  obtain ⟨threads, run⟩ := reached
  have sound : Pool.Sound creations (fun _ => Grows) JobDesk.Valid ⟨desk, threads⟩ := by
    refine run.invariant ?_ ?_
    · intro before event after sound _ stepped
      refine sound.step ?_ ?_ stepped
      · intro id task world _
        exact deskTask_keeps task
      · intro id world valid
        exact ⟨valid, fun _ _ _ member => member⟩
    · exact ⟨⟨List.nodup_nil, by simp [JobDesk.columns], by simp⟩, by simp⟩
  exact sound.world

/-- Whatever requests and transactions run side by side: a created job is a row of its user
under the key of its request, requests of a user with one key are answered with one job, and
only an unsafe key is rejected. -/
theorem job_creations_agree (reached : ReachesDesk desk) :
    (∀ request answer, (request, answer) ∈ desk.answers → Answerable desk.columns request answer) ∧
      ∀ request other key first second, (request, .created first) ∈ desk.answers →
        (other, .created second) ∈ desk.answers → request.user = other.user → request.idempotencyKey = some key →
        other.idempotencyKey = some key → first = second := by
  have valid := reached.valid
  refine ⟨fun request answer member => valid.answers _ member, ?_⟩
  intro request other key first second member again owner asked askedAgain
  obtain ⟨row, own⟩ := valid.answers _ member
  obtain ⟨rowAgain, ownAgain⟩ := valid.answers _ again
  rw [asked] at row
  rw [askedAgain] at rowAgain
  exact valid.keys key first second row rowAgain (own.trans (owner.trans ownAgain.symm))

/-- Two requests with one key, for different wallets. -/
def tabRequest (suffix : String) : CreateRequest := ⟨1, ⟨.twoByTwo, "TDv".toList, suffix.toList⟩, some "wallet-1"⟩

/-- Both find no job; the second commit meets the row of the first. -/
def tabEvents : List creations.Event :=
  let encrypt (plain : String) : String := plain
  [.arrive 1 (.create (tabRequest "9K")), .answer 1 .done, .arrive 2 (.create (tabRequest "Kb")), .answer 2 .done,
    .answer 1 (.stored 7 2 encrypt 5), .answer 2 .done, .answer 1 .done, .answer 1 .done, .answer 2 .done,
    .answer 2 .done, .answer 2 .done]

def tabDesk : JobDesk :=
  (((Machine.mk creations.step).replay Machine.anyAction tabEvents ⟨{}, []⟩).map (·.world)).getD {}

theorem tabDesk_reached : ReachesDesk tabDesk := by
  obtain ⟨⟨world, threads⟩, replayed, same⟩ :
      ∃ pool, (Machine.mk creations.step).replay Machine.anyAction tabEvents ⟨{}, []⟩ = some pool ∧
        pool.world = tabDesk := ⟨_, rfl, rfl⟩
  subst same
  exact ⟨threads, Machine.replay_run tabEvents replayed⟩

/-- The second request is answered with the job of the first. -/
theorem job_creations_agree_tabs : ∃ first second, tabDesk.answers =
      [(tabRequest "Kb", .created second), (tabRequest "9K", .created first)] ∧
    Answerable tabDesk.columns (tabRequest "Kb") (.created second) ∧ first = second := by
  obtain ⟨answerable, agree⟩ := job_creations_agree tabDesk_reached
  refine ⟨_, _, rfl, answerable _ _ List.mem_cons_self, ?_⟩
  exact agree (tabRequest "9K") (tabRequest "Kb") "wallet-1" _ _ (List.mem_cons_of_mem _ List.mem_cons_self)
    List.mem_cons_self rfl rfl rfl

end TronForge.Service
