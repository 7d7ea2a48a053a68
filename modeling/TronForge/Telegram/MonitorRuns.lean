import TronForge.Library.Accounts
import TronForge.Telegram.Deliveries

/-! A monitor hands over its wallet once: what it may still deliver is on an account, which
no retry fills again. -/

namespace TronForge.Telegram

open Library
open Cooperative (Account Affords Balanced Priced)

/-- A message with a private key. -/
def BotCall.carriesKey : BotCall → Bool
  | .send _ (.wallet ..) _ => true
  | _ => false

/-- The end of a delivery by a monitor. -/
def BotEvent.delivers (id : MonitorId) : BotEvent → Bool
  | .answered (.monitor own _ _) call succeeded => decide (own = id) && call.carriesKey && succeeded
  | _ => false

/-- How many wallets a monitor has delivered. -/
def deliveries (id : MonitorId) (history : List BotEvent) : Nat := history.countP (BotEvent.delivers id)

/-- A delivery that no one may make yet. -/
def pendingDelivery (id : MonitorId) (world : BotWorld) : Int := if world.nextMonitor ≤ id then 1 else 0

/-- The delivery that a turn of the monitor may still make. -/
def deliveryCost (id : MonitorId) : BotTask → Int
  | .monitor own _ _ => if own = id then 1 else 0
  | _ => 0

section Account
variable {settings : BotSettings} {digits : DigitSet} {formatCount : Nat → String} {id : MonitorId} {task : BotTask}
  {world : BotWorld}

theorem deliveryCost_nonneg (task : BotTask) : 0 ≤ deliveryCost id task := by
  cases task with
  | monitor own watch previousText =>
    rw [deliveryCost]
    split <;> norm_num
  | _ => exact le_rfl

/-- A delivery is on the account of its monitor from the start to the end of that. -/
def deliveryAccount (settings : BotSettings) (formatCount : Nat → String) (digits : DigitSet) (id : MonitorId) :
    Account (bot settings formatCount digits) where
  charge world := deliveries id world.history + pendingDelivery id world
  cost := deliveryCost id
  nonneg := deliveryCost_nonneg

def deliveryPrice (id : MonitorId) (task : BotTask) (call : BotCall) (reply : Except BotError (BotReply call)) : Nat :=
  if (BotEvent.answered task call reply.isOk).delivers id then 1 else 0

theorem deliveries_called (call : BotCall) (history : List BotEvent) :
    deliveries id (.called task call :: history) = deliveries id history :=
  List.countP_cons_of_neg (by simp [BotEvent.delivers])

theorem deliveries_answered {call : BotCall} (succeeded : Bool) (history : List BotEvent) :
    deliveries id (.answered task call succeeded :: history) =
      deliveries id history + if (BotEvent.answered task call succeeded).delivers id then 1 else 0 :=
  List.countP_cons

/-- The monitor with the next identifier takes over its delivery. -/
theorem pending_taken (next id : Nat) :
    (if next + 1 ≤ id then (1 : Int) else 0) + (if next = id then 1 else 0) ≤ if next ≤ id then 1 else 0 := by
  rcases Nat.lt_trichotomy next id with less | same | more
  · rw [if_pos (Nat.succ_le_of_lt less), if_neg less.ne, if_pos less.le]
    norm_num
  · rw [if_neg (by omega), if_pos same, if_pos same.le]
    norm_num
  · rw [if_neg (by omega), if_neg more.ne', if_neg (by omega)]
    norm_num

theorem pending_kept (next id : Nat) : (if next + 1 ≤ id then (1 : Int) else 0) ≤ if next ≤ id then 1 else 0 := by
  have taken := pending_taken next id
  have own : (0 : Int) ≤ if next = id then 1 else 0 := by split <;> norm_num
  omega

/-- No call lets a delivery come up again. -/
theorem issue_pending (call : BotCall) : pendingDelivery id (BotWorld.issue task world call).world +
    ((BotWorld.issue task world call).tasks.map (deliveryCost id)).sum ≤ pendingDelivery id world := by
  cases call with
  | monitor watch =>
    simp only [BotWorld.issue]
    split
    · exact (add_zero _).le
    · have taken := pending_taken world.nextMonitor id
      rwa [← add_zero (if world.nextMonitor = id then (1 : Int) else 0)] at taken
  | monitorFunding watch =>
    simp only [BotWorld.issue]
    split
    · exact (add_zero _).le
    · have kept := pending_kept world.nextMonitor id
      rwa [← add_zero (if world.nextMonitor + 1 ≤ id then (1 : Int) else 0)] at kept
  | _ => exact (add_zero _).le

theorem issue_charge (call : BotCall) :
    (deliveryAccount settings formatCount digits id).charge (BotWorld.issue task world call).world +
      (deliveryAccount settings formatCount digits id).total (BotWorld.issue task world call).tasks ≤
      (deliveryAccount settings formatCount digits id).charge world := by
  have pending := @issue_pending id task world call
  have history : deliveries id (BotWorld.issue task world call).world.history = deliveries id world.history := by
    rw [issue_history, deliveries_called]
  show (deliveries id (BotWorld.issue task world call).world.history : Int) + pendingDelivery id _ +
    ((BotWorld.issue task world call).tasks.map (deliveryCost id)).sum ≤ deliveries id world.history + pendingDelivery id _
  rw [history]
  omega

theorem delivery_priced : Priced (deliveryAccount settings formatCount digits id) task (deliveryPrice id task) where
  atOnce {world call reply after started} issued := by
    have spent := @issue_charge settings digits formatCount id task world call
    rw [show BotWorld.issue task world call = .atOnce reply after started from issued] at spent
    exact spent.trans (le_add_of_nonneg_right (Int.natCast_nonneg _))
  waits {world call after} issued := by
    have spent := @issue_charge settings digits formatCount id task world call
    rw [show BotWorld.issue task world call = .waits after from issued] at spent
    exact (le_add_of_nonneg_right (Account.total_nonneg _)).trans spent
  responds {world call answer reply after} responded := by
    obtain ⟨result, -, same⟩ := Option.map_eq_some_iff.mp responded
    cases same
    show (deliveries id (.answered task call reply.isOk :: world.history) : Int) + pendingDelivery id world ≤
      deliveries id world.history + pendingDelivery id world + deliveryPrice id task call reply
    rw [deliveries_answered, deliveryPrice]
    push_cast
    omega

/-! ### One turn -/

/-- Only a wallet that was sent costs anything. -/
theorem deliveryPrice_free {call : BotCall} (plain : call.carriesKey = false) (reply : Except BotError (BotReply call)) :
    deliveryPrice id task call reply = 0 := by
  rw [deliveryPrice]
  cases task with
  | monitor own watch previousText => simp [BotEvent.delivers, plain]
  | _ => rfl

theorem deliveryPrice_failed {call : BotCall} (error : BotError) : deliveryPrice id task call (.error error) = 0 := by
  rw [deliveryPrice]
  cases task with
  | monitor own watch previousText => simp [BotEvent.delivers, Except.isOk, Except.toBool]
  | _ => rfl

theorem deliveryPrice_le {call : BotCall} (reply : Except BotError (BotReply call)) : deliveryPrice id task call reply ≤ 1 := by
  rw [deliveryPrice]
  split <;> norm_num

/-- What sends no wallet leaves the whole budget. -/
theorem costs_plain {α : Type} {program : BotProgram α} {budget : Nat}
    (abides : Program.Abides (I := botCalls) (fun call : BotCall => call.carriesKey = false) (fun _ => True) program) :
    program.Costs (deliveryPrice id task) (fun _ left => left = budget) (fun _ left => left = budget) budget :=
  (abides.costs fun _ plain reply => deliveryPrice_free plain reply).weaken (fun _ _ known => known.2) fun _ _ same => same

theorem costs_sendResult {place : ChatId} {job : JobRead} :
    (sendResult settings place job).Costs (deliveryPrice id task) (fun _ _ => True) (fun _ left => left = 1) 1 := by
  cases result : job.result with
  | none =>
    simp only [sendResult, walletResult, result]
    rfl
  | some wallet =>
    simp only [sendResult, walletResult, result]
    apply Program.costs_perform
    · intro reply
      apply deliveryPrice_le
    · exact fun _ => trivial
    · intro error
      rw [deliveryPrice_failed]

theorem costs_deliver {watch : JobWatch} {job : JobRead} :
    (deliver settings watch job).Costs (deliveryPrice id task) (fun _ _ => True) (fun _ left => left = 1) 1 := by
  unfold deliver
  split
  · exact costs_sendResult
  · have attempted : (sendResult settings watch.recipientUserId job).attempt.Costs (deliveryPrice id task)
        (fun outcome left => ∀ error, outcome = .error error → left = 1) (fun _ left => left = 1) 1 :=
      costs_sendResult.attempt (fun _ _ _ _ failed => by cases failed) fun _ _ same _ _ => same
    refine attempted.bind ?_
    intro outcome left known
    cases outcome with
    | ok sent => trivial
    | error error =>
      cases known error rfl
      have notice (text : String) : Program.Abides (I := botCalls) (fun call : BotCall => call.carriesKey = false)
          (fun _ => True)
          (if watch.chatId = watch.recipientUserId then pure () else ask (.send watch.chatId (.text text) .none)) := by
        split
        · trivial
        · exact @abides_ask (fun call => call.carriesKey = false) (.send watch.chatId (.text text) .none) rfl
      cases error with
      | telegramForbidden => exact (costs_plain (notice _)).weaken (fun _ _ _ => trivial) fun _ _ same => same
      | telegramBadRequest message => exact (costs_plain (notice _)).weaken (fun _ _ _ => trivial) fun _ _ same => same
      | _ => rfl

theorem costs_finishJob {watch : JobWatch} {job : JobRead} :
    (finishJob settings watch job).Costs (deliveryPrice id task) (fun finished left => finished = false → left = 1)
      (fun _ left => left = 1) 1 := by
  unfold finishJob
  split
  · exact costs_deliver.bind fun _ _ _ ended => by cases ended
  · exact fun _ => rfl

/-- A turn that goes on has delivered nothing. -/
theorem costs_monitorTurn {watch : JobWatch} {previousText : String} :
    (monitorTurn settings formatCount watch previousText).Costs (deliveryPrice id task)
      (fun shown left => shown.isSome = true → left = 1) (fun _ _ => True) 1 := by
  have paused (shown : String) (error : BotError) :
      (pause shown error).Costs (deliveryPrice id task) (fun shown left => shown.isSome = true → left = 1)
        (fun _ _ => True) 1 :=
    (costs_plain (abides_pause fun _ => rfl)).weaken (fun _ _ same _ => same) fun _ _ _ => trivial
  have asked : (ask (.getJob watch.jobId)).attempt.Costs (deliveryPrice id task) (fun _ left => left = 1)
      (fun _ _ => True) 1 :=
    (costs_plain (abides_ask rfl)).attempt (fun _ _ same => same) fun _ _ same => same
  refine asked.bind ?_
  intro outcome left same
  cases same
  cases outcome with
  | error error => exact paused previousText error
  | ok job =>
    have shown : (showProgress watch.chatId watch.messageId previousText (jobProgress formatCount job)
        (progressMarkup job)).attempt.Costs (deliveryPrice id task) (fun _ left => left = 1) (fun _ _ => True) 1 :=
      (costs_plain (abides_showProgress fun _ => rfl)).attempt (fun _ _ same => same) fun _ _ same => same
    refine shown.bind ?_
    intro outcome left same
    cases same
    cases outcome with
    | error error => exact paused previousText error
    | ok edited =>
      have finished : (finishJob settings watch job).attempt.Costs (deliveryPrice id task)
          (fun outcome left => outcome ≠ .ok true → left = 1) (fun _ _ => True) 1 := by
        apply costs_finishJob.attempt
        · intro finished left going other
          cases finished with
          | false => exact going rfl
          | true => exact absurd rfl other
        · exact fun _ _ same _ => same
      refine finished.bind ?_
      intro outcome left going
      cases outcome with
      | error error =>
        cases going (by simp)
        exact paused _ error
      | ok finished =>
        cases finished with
        | true => exact fun goesOn => by cases goesOn
        | false =>
          cases going (by simp)
          have slept : (ask (.sleep .pollInterval)).Costs (deliveryPrice id task) (fun _ left => left = 1)
              (fun _ left => left = 1) 1 := costs_plain (abides_ask rfl)
          exact (slept.weaken (fun _ _ same => same) fun _ _ _ => trivial).bind fun _ _ same _ => same

/-! ### All tasks -/

/-- A task that delivers nothing under this account. -/
theorem affords_plain {program : BotProgram (Option BotTask)} {bound : Int}
    (plain : ∀ call reply, deliveryPrice id task call reply = 0)
    (abides : Program.Abides (I := botCalls) (fun _ => True) (fun outcome => ∀ next ∈ outcome, deliveryCost id next = 0) program)
    (within : (deliveryAccount settings formatCount digits id).charge world ≤ bound) :
    Affords (deliveryAccount settings formatCount digits id) task program world bound := by
  apply @Priced.affords _ _ _ _ _ _ _ _ _ _ 0 delivery_priced
  · refine (abides.costs fun call _ reply => plain call reply).weaken ?_ fun _ _ _ => trivial
    intro outcome left known
    cases outcome with
    | none => exact Int.natCast_nonneg _
    | some next =>
      show deliveryCost id next ≤ (left : Nat)
      rw [known.1 next rfl]
      exact Int.natCast_nonneg _
  · simpa using within

theorem delivery_balanced : Balanced (deliveryAccount settings formatCount digits id) where
  codes task world := by
    cases task with
    | update incoming =>
      have abides : (handleUpdate settings formatCount digits incoming >>= closing).Abides (fun _ => True)
          (fun outcome => ∀ next ∈ outcome, deliveryCost id next = 0) :=
        (Program.abides_always _).bind fun _ _ next member => by cases member
      exact affords_plain (fun _ _ => rfl) abides (add_zero _).ge
    | monitor own watch previousText =>
      by_cases mine : own = id
      · subst mine
        have budget : (deliveryAccount settings formatCount digits own).cost (.monitor own watch previousText) = (1 : Nat) :=
          if_pos rfl
        rw [budget]
        refine delivery_priced.affords ?_ le_rfl
        refine costs_monitorTurn.bind ?_
        intro shown left goesOn
        cases shown with
        | none => exact Int.natCast_nonneg _
        | some text =>
          cases goesOn rfl
          exact (if_pos rfl).le
      · have plain (call : BotCall) (reply : Except BotError (BotReply call)) :
            deliveryPrice id (.monitor own watch previousText) call reply = 0 := by
          simp [deliveryPrice, BotEvent.delivers, mine]
        have abides : (BotTask.code settings formatCount digits (.monitor own watch previousText)).Abides (fun _ => True)
            (fun outcome => ∀ next ∈ outcome, deliveryCost id next = 0) := by
          refine (Program.abides_always (monitorTurn settings formatCount watch previousText)).bind ?_
          intro shown _ next member
          obtain ⟨text, -, rfl⟩ := Option.mem_map.mp member
          exact if_neg mine
        exact affords_plain plain abides (le_add_of_nonneg_right (Account.nonneg _ _))
    | monitorFunding own watch previousText =>
      have abides : (BotTask.code settings formatCount digits (.monitorFunding own watch previousText)).Abides
          (fun _ => True) (fun outcome => ∀ next ∈ outcome, deliveryCost id next = 0) := by
        refine (Program.abides_always (fundingTurn watch previousText)).bind ?_
        intro shown _ next member
        obtain ⟨text, -, rfl⟩ := Option.mem_map.mp member
        rfl
      exact affords_plain (fun _ _ => rfl) abides (add_zero _).ge
    | jobDone jobId =>
      have abides : (BotTask.code settings formatCount digits (.jobDone jobId)).Abides (fun _ => True)
          (fun outcome => ∀ next ∈ outcome, deliveryCost id next = 0) :=
        (Program.abides_always (ask (.popTask jobId))).bind fun _ _ next member => by cases member
      exact affords_plain (fun _ _ => rfl) abides (add_zero _).ge
    | fundingDone jobId =>
      have abides : (BotTask.code settings formatCount digits (.fundingDone jobId)).Abides (fun _ => True)
          (fun outcome => ∀ next ∈ outcome, deliveryCost id next = 0) :=
        (Program.abides_always (ask (.popFundingTask jobId))).bind fun _ _ next member => by cases member
      exact affords_plain (fun _ _ => rfl) abides (add_zero _).ge
  ends task world := by
    cases task with
    | _ => exact (add_zero _).le
  arrives {task world after} came := by
    cases task with
    | update incoming =>
      simp only [bot, BotWorld.receive] at came
      split at came
      · cases came
        exact (add_zero _).le
      · cases came
    | _ => cases came

/-- No monitor delivers its wallet twice, however often it has to try. -/
theorem monitor_delivers_once {pool : (bot settings formatCount digits).Pool}
    (reachable : Reachable settings formatCount digits pool) (id : MonitorId) :
    deliveries id pool.world.history ≤ 1 := by
  have within : (deliveries id pool.world.history : Int) + pendingDelivery id pool.world ≤ 1 :=
    Cooperative.run_within (@delivery_balanced settings digits formatCount id) reachable
  have pending : 0 ≤ pendingDelivery id pool.world := by
    rw [pendingDelivery]
    split <;> norm_num
  omega

end Account

theorem watch_delivers_once : ∃ pool, Reachable ownerSettings toString DigitSet.plain pool ∧
    deliveries 0 pool.world.history = 1 ∧ deliveries 0 pool.world.history ≤ 1 := by
  obtain ⟨pool, reachable, delivered⟩ := replay_reachable watchActions (fun world =>
    decide (deliveries 0 world.history = 1)) rfl
  exact ⟨pool, reachable, of_decide_eq_true delivered, monitor_delivers_once reachable 0⟩

end TronForge.Telegram
