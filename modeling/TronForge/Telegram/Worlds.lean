import TronForge.Telegram.Permissions

/-! What a call does to the world of the bot, and that the calls which a task may make at
any time keep it sound. -/

namespace TronForge.Telegram

open Library
open Cooperative (Harmless)

section Worlds
variable {settings : BotSettings} {digits : DigitSet} {task : BotTask} {call : BotCall}
  {world after : BotWorld}

theorem BotWorld.Grows.refl (world : BotWorld) : world.Grows world := ⟨fun _ member => member, fun _ member => member⟩

theorem BotWorld.Grows.trans {middle : BotWorld} (first : world.Grows middle) (second : middle.Grows after) :
    world.Grows after where
  arrived update member := second.arrived update (first.arrived update member)
  history event member := second.history event (first.history event member)

/-- A handler that has asked for a call has asked for it ever after. -/
theorem BotWorld.Grows.asked (grown : world.Grows after)
    (asked : ∃ incoming, BotEvent.called (.update incoming) call ∈ world.history) :
    ∃ incoming, BotEvent.called (.update incoming) call ∈ after.history := by
  obtain ⟨incoming, member⟩ := asked
  exact ⟨incoming, grown.history _ member⟩

theorem BotTask.Permits.mono (permits : task.Permits settings digits world call) (grown : world.Grows after) :
    task.Permits settings digits after call := by
  cases task with
  | update incoming => exact ⟨grown.arrived _ permits.1, permits.2⟩
  | monitor id watch previousText => exact ⟨grown.asked permits.1, permits.2⟩
  | monitorFunding id watch previousText => exact ⟨grown.asked permits.1, permits.2⟩
  | jobDone jobId => exact permits
  | fundingDone jobId => exact permits

theorem BotTask.Good.mono (good : task.Good world) (grown : world.Grows after) : task.Good after := by
  cases task with
  | update incoming => exact ⟨grown.arrived _ good.1, good.2⟩
  | monitor id watch previousText => exact grown.asked good
  | monitorFunding id watch previousText => exact grown.asked good
  | jobDone jobId => trivial
  | fundingDone jobId => trivial

variable (settings) (digits) in
/-- What the bot keeps. -/
def promise (formatCount : Nat → String) : (bot settings formatCount digits).Promise where
  valid := BotWorld.Sound settings digits
  grows := BotWorld.Grows
  good := BotTask.Good
  refl := BotWorld.Grows.refl
  trans first second := first.trans second
  lasts good grown := BotTask.Good.mono good grown

/-! ### What a call does to the world -/

theorem issue_arrived : (BotWorld.issue task world call).world.arrived = world.arrived := by
  cases call with
  | monitor watch =>
    simp only [BotWorld.issue]
    split <;> rfl
  | monitorFunding watch =>
    simp only [BotWorld.issue]
    split <;> rfl
  | _ => rfl

theorem issue_history : (BotWorld.issue task world call).world.history = .called task call :: world.history := by
  cases call with
  | monitor watch =>
    simp only [BotWorld.issue]
    split <;> rfl
  | monitorFunding watch =>
    simp only [BotWorld.issue]
    split <;> rfl
  | _ => rfl

theorem issue_grows : world.Grows (BotWorld.issue task world call).world where
  arrived update member := by
    rw [issue_arrived]
    exact member
  history event member := by
    rw [issue_history]
    exact List.mem_cons_of_mem _ member

/-- The calls that change a form. -/
def BotCall.changesForm : BotCall → Bool
  | .setState .. | .updateData .. => true
  | _ => false

theorem issue_forms (kept : call.changesForm = false) (key : FormKey) :
    (BotWorld.issue task world call).world.forms key = world.forms key ∨
      (BotWorld.issue task world call).world.forms key = {} := by
  cases call with
  | clearForm own =>
    by_cases same : key = own
    · exact .inr (if_pos same)
    · exact .inl (if_neg same)
  | setState own state => cases kept
  | updateData own field => cases kept
  | monitor watch =>
    left
    simp only [BotWorld.issue]
    split <;> rfl
  | monitorFunding watch =>
    left
    simp only [BotWorld.issue]
    split <;> rfl
  | _ => exact .inl rfl

theorem empty_sound : Form.Sound digits {} :=
  ⟨rfl, fun _ stored => by cases stored⟩

/-- A world changes soundly if its new calls are permitted and its new forms are sound. -/
theorem BotWorld.Sound.change (sound : world.Sound settings digits) (same : after.arrived = world.arrived)
    (grown : world.Grows after) (history : ∀ task call, BotEvent.called task call ∈ after.history →
      BotEvent.called task call ∈ world.history ∨ task.Permits settings digits world call)
    (forms : ∀ key, after.forms key = world.forms key ∨ (after.forms key).Sound digits ∧ (after.forms key ≠ {} →
      ∃ incoming ∈ world.arrived, incoming.authorized settings = true ∧ incoming.formKey = some key)) :
    after.Sound settings digits := by
  refine ⟨by rw [same]; exact sound.genuine, ?_, ?_, ?_⟩
  · intro key
    rcases forms key with old | fresh
    · rw [old]
      exact sound.forms key
    · exact fresh.1
  · intro key some_
    rw [same]
    rcases forms key with old | fresh
    · rw [old] at some_
      exact sound.owned key some_
    · exact fresh.2 some_
  · intro task call member
    rcases history task call member with old | fresh
    · exact (sound.history task call old).mono grown
    · exact fresh.mono grown

theorem BotWorld.Sound.issue (sound : world.Sound settings digits) (kept : call.changesForm = false)
    (permits : task.Permits settings digits world call) :
    (BotWorld.issue task world call).world.Sound settings digits := by
  refine sound.change issue_arrived issue_grows ?_ ?_
  · intro other asked member
    rw [issue_history] at member
    rcases List.mem_cons.mp member with same | old
    · cases same
      exact .inr permits
    · exact .inl old
  · intro key
    rcases issue_forms kept key with old | cleared
    · exact .inl old
    · rw [cleared]
      exact .inr ⟨empty_sound, fun some_ => absurd rfl some_⟩

theorem BotWorld.Sound.answered (sound : world.Sound settings digits) (succeeded : Bool) :
    (world.record (.answered task call succeeded)).Sound settings digits := by
  have grown : world.Grows (world.record (.answered task call succeeded)) :=
    ⟨fun _ member => member, fun _ member => List.mem_cons_of_mem _ member⟩
  refine sound.change rfl grown ?_ fun key => .inl rfl
  intro other asked member
  rcases List.mem_cons.mp member with same | old
  · cases same
  · exact .inl old

variable (settings) (digits) in
/-- The calls that a task may make at any time. -/
def BotTask.allows : BotTask → BotCall → Prop
  | .update incoming, call => incoming.permits settings digits call
  | .monitor _ watch _, call => Update.permitsWatch settings watch call
  | .monitorFunding _ watch _, call => Update.permitsFundingWatch watch call
  | .jobDone jobId, call => call = .popTask jobId
  | .fundingDone jobId, call => call = .popFundingTask jobId

theorem allows_permits (good : task.Good world) (allows : task.allows settings digits call) :
    task.Permits settings digits world call := by
  cases task with
  | update incoming => exact ⟨good.1, .inl allows⟩
  | monitor id watch previousText => exact ⟨good, allows⟩
  | monitorFunding id watch previousText => exact ⟨good, allows⟩
  | jobDone jobId => exact allows
  | fundingDone jobId => exact allows

theorem allows_kept (allows : task.allows settings digits call) : call.changesForm = false := by
  cases call with
  | setState key state => cases task <;> cases allows
  | updateData key field => cases task <;> cases allows
  | _ => rfl

/-- Only permitted calls start monitors. -/
theorem issue_tasks (allows : task.allows settings digits call) :
    ∀ started ∈ (BotWorld.issue task world call).tasks, started.Good (BotWorld.issue task world call).world := by
  cases call with
  | monitor watch =>
    cases task with
    | update incoming =>
      intro started member
      have history := @issue_history (.update incoming) (.monitor watch) world
      simp only [BotWorld.issue] at member history ⊢
      split at member
      · cases member
      · rename_i free
        rw [if_neg free] at history ⊢
        cases List.mem_singleton.mp member
        exact ⟨incoming, history ▸ List.mem_cons_self⟩
    | monitor id own previousText => cases allows
    | monitorFunding id own previousText => cases allows
    | jobDone jobId => cases allows
    | fundingDone jobId => cases allows
  | monitorFunding watch =>
    cases task with
    | update incoming =>
      intro started member
      have history := @issue_history (.update incoming) (.monitorFunding watch) world
      simp only [BotWorld.issue] at member history ⊢
      split at member
      · cases member
      · rename_i free
        rw [if_neg free] at history ⊢
        cases List.mem_singleton.mp member
        exact ⟨incoming, history ▸ List.mem_cons_self⟩
    | monitor id own previousText => cases allows
    | monitorFunding id own previousText => cases allows
    | jobDone jobId => cases allows
    | fundingDone jobId => cases allows
  | _ =>
    intro started member
    cases member

theorem allows_harmless (formatCount : Nat → String) :
    Harmless (promise settings digits formatCount) task (task.allows settings digits) where
  atOnce {before call reply after started} sound good allows issued := by
    have left : after = (BotWorld.issue task before call).world := by
      rw [show BotWorld.issue task before call = .atOnce reply after started from issued]
      rfl
    have tasks : started = (BotWorld.issue task before call).tasks := by
      rw [show BotWorld.issue task before call = .atOnce reply after started from issued]
      rfl
    rw [left, tasks]
    exact ⟨BotWorld.Sound.issue sound (allows_kept allows) (allows_permits good allows), issue_grows, issue_tasks allows⟩
  waits {before call after} sound good allows issued := by
    have left : after = (BotWorld.issue task before call).world := by
      rw [show BotWorld.issue task before call = .waits after from issued]
      rfl
    rw [left]
    exact ⟨BotWorld.Sound.issue sound (allows_kept allows) (allows_permits good allows), issue_grows⟩
  responds {before call answer reply after} sound good allows responded := by
    obtain ⟨result, -, same⟩ := Option.map_eq_some_iff.mp responded
    cases same
    exact ⟨BotWorld.Sound.answered sound _, fun _ member => member, fun _ member => List.mem_cons_of_mem _ member⟩

end Worlds

end TronForge.Telegram
