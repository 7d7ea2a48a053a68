import TronForge.Telegram.Forms

/-! The middleware and the router in front of the handlers, and what holds in every world
that the bot can reach: who may ask for a call, where a private key may go, what the forms
hold, and where the buttons lead. -/

namespace TronForge.Telegram

open Library
open Native (Text)
open Cooperative (Obeyed)

section Dispatch
variable {settings : BotSettings} {digits : DigitSet} {formatCount : Nat → String} {world : BotWorld}
  {update : Update} {key : FormKey} {handler : Handler} {state : Option FormState}

/-- The handlers of messages, and the states that they wait in. -/
theorem messageHandler_cases {username text : Text} (found : messageHandler username state text = some handler) :
    handler = .start ∨ handler = .cancelForm ∨ state = some .walletPrefix ∧ handler = .receivePrefix ∨
      state = some .walletSuffix ∧ handler = .receiveSuffix ∨
      state = some .fundingAmount ∧ handler = .receiveFundingAmount := by
  unfold messageHandler at found
  split at found
  · cases found
    exact .inl rfl
  · split at found
    · cases found
      exact .inr (.inl rfl)
    · split at found
      · cases found
      · cases state with
        | none => cases found
        | some state =>
          cases state with
          | walletPrefix => exact .inr (.inr (.inl ⟨rfl, (Option.some.inj found).symm⟩))
          | walletSuffix => exact .inr (.inr (.inr (.inl ⟨rfl, (Option.some.inj found).symm⟩)))
          | fundingAmount => exact .inr (.inr (.inr (.inr ⟨rfl, (Option.some.inj found).symm⟩)))
          | walletConfirmation => cases found

/-- Only a chat where forms are filled in has a form. -/
theorem opensDelivery_state (sound : world.Sound settings digits) (good : BotTask.Good (.update update) world)
    (opens : update.opensDelivery settings = true) (keyed : update.formKey = some key) :
    world.forms key = {} := by
  by_contra some_
  obtain ⟨other, arrived, authorized, same⟩ := sound.owned key some_
  obtain ⟨sender, chat, user, place, ways⟩ := allowed_cases authorized
  simp only [Update.opensDelivery, Bool.and_eq_true, Bool.not_eq_true'] at opens
  obtain ⟨⟨⟨unrestricted, closed⟩, private_⟩, -⟩ := opens
  obtain ⟨own, here, isPrivate⟩ := (Option.any_eq_true _ _).mp private_
  rcases ways with shared | ⟨-, restricted, -⟩ | ⟨-, -, group, -, -⟩
  · rw [closed] at shared
    cases shared
  · rw [unrestricted] at restricted
    cases restricted
  · have ours := good.2
    have theirs := sound.genuine other arrived
    simp only [BotWorld.genuine, here, place, Option.all_some, decide_eq_true_eq] at ours theirs
    obtain ⟨asker, asked, ownKey⟩ := Option.map_eq_some_iff.mp keyed
    simp only [Update.formKey, user, place, Option.map_some, Option.getD_some, Option.some.injEq] at same
    rw [here] at ownKey
    have sameId : chat.id = own.id := by
      rw [← ownKey] at same
      exact congrArg FormKey.chat same
    have positive := ours.mp (of_decide_eq_true isPrivate)
    rw [← sameId] at positive
    rw [Chat.isGroup, theirs.mpr positive] at group
    cases group

theorem keeps_runMessage {sender : Option Sender} {chat : Chat} {text : Option Text} (sound : world.Sound settings digits)
    (good : BotTask.Good (.update (.message sender chat text)) world)
    (keyed : Update.formKey (.message sender chat text) = some key)
    (found : Update.handler settings (world.forms key).state (.message sender chat text) = some handler)
    (through : Update.authorized settings (.message sender chat text) = true ∨
      Update.opensDelivery settings (.message sender chat text) = true) :
    KeepsSound settings digits formatCount (.update (.message sender chat text))
      (runMessage settings digits key chat (text.getD []) handler >>= closing) world := by
  have authorized (waiting : FormState) (state : (world.forms key).state = some waiting) :
      Update.authorized settings (.message sender chat text) = true := by
    rcases through with authorized | opens
    · exact authorized
    · rw [opensDelivery_state sound good opens keyed] at state
      cases state
  rcases messageHandler_cases found with rfl | rfl | ⟨state, rfl⟩ | ⟨state, rfl⟩ | ⟨state, rfl⟩
  · exact keeps_minds minds_start sound good
  · exact keeps_minds minds_cancelForm sound good
  · exact keeps_receivePrefix sound good (authorized _ state) keyed state
  · exact keeps_receiveSuffix sound good (authorized _ state) keyed state
  · exact keeps_receiveFundingAmount sound good (authorized _ state) keyed state

-- Its first step is to parse an identifier, which is not to be unfolded.
attribute [local irreducible] revealJob in
theorem keeps_runCallback {sender : Sender} {message : Option (Chat × MessageId)} {data : Option Text}
    (sound : world.Sound settings digits) (good : BotTask.Good (.update (.callback sender message data)) world)
    (keyed : Update.formKey (.callback sender message data) = some key)
    (pressed : Update.pressed (.callback sender message data) = some handler)
    (authorized : Update.authorized settings (.callback sender message data) = true) :
    KeepsSound settings digits formatCount (.update (.callback sender message data))
      (runCallback settings formatCount digits key sender message (data.getD []) handler >>= closing) world := by
  cases handler with
  | home => exact keeps_minds minds_home sound good
  | choosePattern => exact keeps_minds minds_choosePattern sound good
  | receivePattern => exact keeps_receivePattern sound good authorized keyed
  | cancelConfirmation => exact keeps_minds minds_cancelConfirmation sound good
  | createJob => exact keeps_minds (minds_createJob authorized pressed) sound good
  | gpuStatus => exact keeps_minds (minds_gpuStatus ⟨authorized, pressed⟩) sound good
  | recentJobs => exact keeps_minds (minds_recentJobs ⟨authorized, pressed⟩) sound good
  | cancelJob => exact keeps_minds (minds_cancelJob authorized pressed) sound good
  | watchJob => exact keeps_minds (minds_watchJob authorized pressed) sound good
  | revealJob => exact keeps_minds (minds_revealJob authorized pressed) sound good
  | startFunding => exact keeps_startFunding sound good authorized keyed
  | cancelFunding => exact keeps_minds minds_cancelFunding sound good
  | confirmFunding => exact keeps_confirmFunding sound good authorized pressed
  | _ => exact keeps_minds trivial sound good

/-- What is not let through is refused. -/
theorem minds_refused {program : BotProgram Unit} (closed : (update.authorized settings || update.opensDelivery settings) = false) :
    Minds settings digits update (guarded settings update program) := by
  unfold guarded
  rw [closed, if_neg Bool.false_ne_true]
  cases update with
  | message sender chat text =>
    cases sender with
    | none => trivial
    | some sender => exact abides_ask trivial
  | callback sender message data => exact abides_ask trivial

theorem callback_closed {sender : Sender} {message : Option (Chat × MessageId)} {data : Option Text} :
    Update.opensDelivery settings (.callback sender message data) = false := by
  simp [Update.opensDelivery, Update.isStartMessage]

theorem keeps_handleUpdate (sound : world.Sound settings digits) (good : BotTask.Good (.update update) world) :
    KeepsSound settings digits formatCount (.update update)
      (handleUpdate settings formatCount digits update >>= closing) world := by
  unfold handleUpdate
  cases keyed : update.formKey with
  | none =>
    cases update.handler settings none with
    | none => exact keeps_minds trivial sound good
    | some handler =>
      dsimp only
      cases through : update.authorized settings || update.opensDelivery settings with
      | true =>
        unfold guarded
        rw [through, if_pos rfl]
        exact keeps_minds trivial sound good
      | false => exact keeps_minds (minds_refused through) sound good
  | some key =>
    dsimp only
    rw [bind_bind]
    apply keeps_getForm
    obtain ⟨read, still⟩ := sound.read good key
    cases found : update.handler settings (world.forms key).state with
    | none => exact keeps_minds trivial read still
    | some handler =>
      dsimp only
      cases through : update.authorized settings || update.opensDelivery settings with
      | true =>
        unfold guarded
        rw [through, if_pos rfl]
        cases update with
        | message sender chat text =>
          exact keeps_runMessage read still keyed found ((Bool.or_eq_true _ _).mp through)
        | callback sender message data =>
          rw [callback_closed, Bool.or_false] at through
          exact keeps_runCallback read still keyed found through
      | false => exact keeps_minds (minds_refused through) read still

end Dispatch

section Runs
variable {settings : BotSettings} {digits : DigitSet} {formatCount : Nat → String} {task : BotTask}
  {world after : BotWorld}

theorem BotWorld.Sound.receive (sound : world.Sound settings digits) (came : BotWorld.receive task world = some after) :
    after.Sound settings digits ∧ world.Grows after ∧ task.Good after := by
  cases task with
  | update incoming =>
    simp only [BotWorld.receive] at came
    split at came
    · rename_i genuine
      cases came
      have grown : world.Grows { world with arrived := incoming :: world.arrived } :=
        ⟨fun _ member => List.mem_cons_of_mem _ member, fun _ member => member⟩
      refine ⟨⟨?_, sound.forms, ?_, ?_⟩, grown, List.mem_cons_self, genuine⟩
      · intro update member
        rcases List.mem_cons.mp member with rfl | old
        · exact genuine
        · exact sound.genuine update old
      · intro key some_
        obtain ⟨update, member, known⟩ := sound.owned key some_
        exact ⟨update, grown.arrived update member, known⟩
      · intro task call member
        exact (sound.history task call member).mono grown
    · cases came
  | _ => cases came

theorem BotWorld.Sound.finished (sound : world.Sound settings digits) :
    (BotWorld.finished task world).1.Sound settings digits ∧ world.Grows (BotWorld.finished task world).1 ∧
      ∀ next ∈ (BotWorld.finished task world).2, next.Good (BotWorld.finished task world).1 := by
  cases task with
  | monitor id watch previousText =>
    refine ⟨⟨sound.genuine, sound.forms, sound.owned, sound.history⟩,
      ⟨fun _ member => member, fun _ member => member⟩, ?_⟩
    intro next member
    cases List.mem_singleton.mp member
    trivial
  | monitorFunding id watch previousText =>
    refine ⟨⟨sound.genuine, sound.forms, sound.owned, sound.history⟩,
      ⟨fun _ member => member, fun _ member => member⟩, ?_⟩
    intro next member
    cases List.mem_singleton.mp member
    trivial
  | _ => exact ⟨sound, .refl world, fun next member => absurd member List.not_mem_nil⟩

/-- What a task may go on with. -/
def BotTask.Follows (task : BotTask) (outcome : Option BotTask) : Prop :=
  ∀ next ∈ outcome, ∀ world, task.Good world → next.Good world

/-- A task that makes allowed calls only keeps what the bot keeps. -/
theorem keeps_allowed {program : BotProgram (Option BotTask)} (sound : world.Sound settings digits)
    (good : task.Good world)
    (abides : program.Abides (task.allows settings digits) task.Follows) :
    KeepsSound settings digits formatCount task program world :=
  (allows_harmless formatCount).keeps sound good abides fun _ world follows fit next member =>
    follows next member world fit

theorem keeps_code (sound : world.Sound settings digits) (good : task.Good world) :
    KeepsSound settings digits formatCount task (task.code settings formatCount digits) world := by
  cases task with
  | update incoming => exact keeps_handleUpdate sound good
  | monitor id watch previousText =>
    apply keeps_allowed sound good
    refine abides_monitorTurn.bind ?_
    intro shown _ next member world fit
    obtain ⟨text, -, rfl⟩ := Option.mem_map.mp member
    exact fit
  | monitorFunding id watch previousText =>
    apply keeps_allowed sound good
    refine abides_fundingTurn.bind ?_
    intro shown _ next member world fit
    obtain ⟨text, -, rfl⟩ := Option.mem_map.mp member
    exact fit
  | jobDone jobId =>
    apply keeps_allowed sound good
    have own : (BotTask.jobDone jobId).allows settings digits (.popTask jobId) := rfl
    refine (abides_ask own).bind ?_
    intro popped _ next member
    cases member
  | fundingDone jobId =>
    apply keeps_allowed sound good
    have own : (BotTask.fundingDone jobId).allows settings digits (.popFundingTask jobId) := rfl
    refine (abides_ask own).bind ?_
    intro popped _ next member
    cases member

theorem bot_obeyed : Obeyed (promise settings digits formatCount) where
  arrives sound came := BotWorld.Sound.receive sound came
  codes good sound := keeps_code sound good
  ends _ sound := BotWorld.Sound.finished sound

theorem initial_sound : BotWorld.Sound settings digits {} where
  genuine _ member := absurd member List.not_mem_nil
  forms _ := empty_sound
  owned _ some_ := absurd rfl some_
  history _ _ member := absurd member List.not_mem_nil

/-- Every world that the bot reaches is sound. -/
theorem reachable_sound {pool : (bot settings formatCount digits).Pool}
    (reachable : Reachable settings formatCount digits pool) : BotWorld.Sound settings digits pool.world :=
  (Cooperative.run_sound initial_sound bot_obeyed reachable).world

end Runs

end TronForge.Telegram
