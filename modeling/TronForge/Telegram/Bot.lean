import TronForge.Telegram.Runtime

/-! The whole bot: updates that come in any order, handlers and monitors that take turns,
the storage of the forms, and the registries of the monitors. -/

namespace TronForge.Telegram

open Library
open Generator (JobId)
open Funding (FundingRead)

abbrev MonitorId := Nat

/-- What the event loop runs: an update, a turn of a monitor, or what a monitor leaves to
be done after its end. -/
inductive BotTask where
  | update (update : Update)
  | monitor (id : MonitorId) (watch : JobWatch) (previousText : String)
  | monitorFunding (id : MonitorId) (watch : FundingWatch) (previousText : String)
  | jobDone (jobId : Uuid)
  | fundingDone (jobId : JobId)
  deriving DecidableEq, Repr

/-- A call that was made, and the end of one that was waited for. -/
inductive BotEvent where
  | called (task : BotTask) (call : BotCall)
  | answered (task : BotTask) (call : BotCall) (succeeded : Bool)
  deriving DecidableEq, Repr

/-- `tasks` and `fundingTasks` hold the monitors by their jobs, `ended` those that are done. -/
structure BotWorld where
  forms : FormKey → Form := fun _ => {}
  tasks : Uuid → Option MonitorId := fun _ => none
  fundingTasks : JobId → Option MonitorId := fun _ => none
  ended : List MonitorId := []
  nextMonitor : MonitorId := 0
  arrived : List Update := []
  history : List BotEvent := []

inductive BotAnswer where
  | failed (error : BotError)
  | done
  | job (job : JobRead)
  | jobs (jobs : List JobRead)
  | fleet (fleet : FleetRead)
  | funding (funding : FundingRead)
  deriving DecidableEq, Repr

namespace BotWorld

def record (world : BotWorld) (event : BotEvent) : BotWorld := { world with history := event :: world.history }

def setForm (world : BotWorld) (key : FormKey) (form : Form) : BotWorld :=
  { world with forms := fun asked => if asked = key then form else world.forms asked }

/-- `existing is not None and not existing.done()`. -/
def busy (world : BotWorld) (existing : Option MonitorId) : Bool :=
  existing.any fun id => id ∉ world.ended

def register (world : BotWorld) (jobId : Uuid) : BotWorld :=
  { world with
    tasks := fun asked => if asked = jobId then some world.nextMonitor else world.tasks asked
    nextMonitor := world.nextMonitor + 1 }

def registerFunding (world : BotWorld) (jobId : JobId) : BotWorld :=
  { world with
    fundingTasks := fun asked => if asked = jobId then some world.nextMonitor else world.fundingTasks asked
    nextMonitor := world.nextMonitor + 1 }

/-- The call of a task, carried out or sent off. -/
def issue (task : BotTask) (before : BotWorld) (call : BotCall) : Issued BotError BotTask BotWorld (BotReply call) :=
  let world := before.record (.called task call)
  match call with
  | .getForm key => .atOnce (.ok (world.forms key)) world []
  | .clearForm key => .atOnce (.ok ()) (world.setForm key {}) []
  | .setState key state => .atOnce (.ok ()) (world.setForm key { world.forms key with state := some state }) []
  | .updateData key field =>
    .atOnce (.ok ()) (world.setForm key { world.forms key with data := (world.forms key).data.store field }) []
  | .monitor watch =>
    if world.busy (world.tasks watch.jobId) then .atOnce (.ok ()) world []
    else .atOnce (.ok ()) (world.register watch.jobId) [.monitor world.nextMonitor watch ""]
  | .monitorFunding watch =>
    if world.busy (world.fundingTasks watch.jobId) then .atOnce (.ok ()) world []
    else .atOnce (.ok ()) (world.registerFunding watch.jobId) [.monitorFunding world.nextMonitor watch ""]
  | .popTask jobId =>
    .atOnce (.ok ()) { world with tasks := fun asked => if asked = jobId then none else world.tasks asked } []
  | .popFundingTask jobId =>
    .atOnce (.ok ()) { world with fundingTasks := fun asked => if asked = jobId then none else world.fundingTasks asked } []
  | _ => .waits world

/-- The reply to a call, if the answer fits it. -/
def reply : (call : BotCall) → BotAnswer → Option (Except BotError (BotReply call))
  | _, .failed error => some (.error error)
  | .createJob .., .job job | .getJob _, .job job | .cancelJob _, .job job => some (.ok job)
  | .listJobs _, .jobs jobs => some (.ok jobs)
  | .getGpuFleet, .fleet fleet => some (.ok fleet)
  | .createFunding .., .funding funding | .getFunding _, .funding funding => some (.ok funding)
  | .send .., .done | .edit .., .done | .answerCallback .., .done | .sleep _, .done => some (.ok ())
  | _, _ => none

def respond (task : BotTask) (world : BotWorld) (call : BotCall) (answer : BotAnswer) :
    Option (Except BotError (BotReply call) × BotWorld) :=
  (reply call answer).map fun result => (result, world.record (.answered task call result.isOk))

/-- The end of a task: a monitor is done, and its callback is called soon. -/
def finished : BotTask → BotWorld → BotWorld × List BotTask
  | .monitor id watch _, world => ({ world with ended := id :: world.ended }, [.jobDone watch.jobId])
  | .monitorFunding id watch _, world => ({ world with ended := id :: world.ended }, [.fundingDone watch.jobId])
  | _, world => (world, [])

/-- Telegram numbers private chats upwards from one, and other chats below zero. -/
def genuine (update : Update) : Bool := update.chat.all fun chat => decide (chat.type = .privateChat ↔ 0 < chat.id)

def receive : BotTask → BotWorld → Option BotWorld
  | .update update, world =>
    if genuine update then some { world with arrived := update :: world.arrived } else none
  | _, _ => none

end BotWorld

section
variable (settings : BotSettings) (formatCount : Nat → String) (digits : DigitSet)

def BotTask.code : BotTask → BotProgram (Option BotTask)
  | .update incoming => do
    handleUpdate settings formatCount digits incoming
    return none
  | .monitor id watch previousText => do
    let shown ← monitorTurn settings formatCount watch previousText
    return shown.map fun text => .monitor id watch text
  | .monitorFunding id watch previousText => do
    let shown ← fundingTurn watch previousText
    return shown.map fun text => .monitorFunding id watch text
  | .jobDone jobId => do
    ask (.popTask jobId)
    return none
  | .fundingDone jobId => do
    ask (.popFundingTask jobId)
    return none

def bot : Cooperative botCalls BotError BotWorld where
  Task := BotTask
  Answer := BotAnswer
  code := BotTask.code settings formatCount digits
  issue := BotWorld.issue
  respond := BotWorld.respond
  finished := BotWorld.finished
  arrived := BotWorld.receive

/-- A pool that the bot can reach from its start. -/
def Reachable (pool : (bot settings formatCount digits).Pool) : Prop :=
  (bot settings formatCount digits).machine.Run Machine.anyAction ⟨{}, [], []⟩ pool

end

end TronForge.Telegram
