import Mathlib.Data.List.DropRight
import TronForge.Telegram.Handling

/-! The handlers that fill in the forms. Between two waits a handler is alone with its
form, so the form it has read is the form it changes. -/

namespace TronForge.Telegram

open Library
open Generator (PatternType)
open Native (Text)
open Cooperative (Keeps Obeyed)
open Service (pythonSpace stripSpace Unpadded stripSpace_unpadded validateCustomPrefix validateSuffix customPrefix_iff
  suffix_iff Fits PatternType.ofName ofName_iff patternLengths)

section Inputs
variable {text : Text} {pattern : PatternType}

theorem unpadded_stripSpace (text : Text) : Unpadded (stripSpace text) := by
  have kept : stripSpace text = (text.dropWhile pythonSpace).rdropWhile pythonSpace := rfl
  constructor
  · intro character first
    have leading : stripSpace text <+: text.dropWhile pythonSpace := kept ▸ List.rdropWhile_prefix _ _
    obtain ⟨rest, whole⟩ := leading
    have head : (text.dropWhile pythonSpace).head? = some character := by
      rw [← whole, List.head?_append, first]
      rfl
    have stopped := List.head?_dropWhile_not pythonSpace text
    rw [head] at stopped
    simpa using stopped
  · intro character last
    rw [kept] at last
    have some_ : (text.dropWhile pythonSpace).rdropWhile pythonSpace ≠ [] := by
      intro none_
      rw [none_] at last
      cases last
    have stopped := List.rdropWhile_last_not pythonSpace (text.dropWhile pythonSpace) some_
    rw [List.getLast?_eq_getLast_of_ne_nil some_] at last
    cases last
    simpa using stopped

theorem stripSpace_stripSpace (text : Text) : stripSpace (stripSpace text) = stripSpace text :=
  stripSpace_unpadded (unpadded_stripSpace text)

theorem validateCustomPrefix_fits {result : Text} (accepted : validateCustomPrefix pattern text = .ok result) :
    ∃ afterT, result = 'T' :: afterT ∧ FitsPrefix pattern afterT := by
  have stripped : validateCustomPrefix pattern (stripSpace text) = .ok result := by
    rw [validateCustomPrefix, stripSpace_stripSpace]
    exact accepted
  obtain ⟨same, length, known, first⟩ := (customPrefix_iff (unpadded_stripSpace text)).mp stripped
  exact ⟨_, same, length, known, first⟩

theorem validateSuffix_fits {result : Text} (accepted : validateSuffix pattern text = .ok result) :
    result.length = (patternLengths pattern).2 ∧ ∀ character ∈ result, character ∈ Native.base58Alphabet := by
  have stripped : validateSuffix pattern (stripSpace text) = .ok result := by
    rw [validateSuffix, stripSpace_stripSpace]
    exact accepted
  obtain ⟨same, length, known⟩ := (suffix_iff (unpadded_stripSpace text)).mp stripped
  exact same ▸ ⟨length, known⟩

end Inputs

section Steps
variable {settings : BotSettings} {digits : DigitSet} {formatCount : Nat → String} {task : BotTask}
  {world : BotWorld} {key : FormKey}

/-- The rest of an update when its handler has returned. -/
abbrev closing : Unit → BotProgram (Option BotTask) := fun _ => .done none

/-- What the bot keeps is kept by the rest of a task. -/
def KeepsSound (settings : BotSettings) (digits : DigitSet) (formatCount : Nat → String) (task : BotTask)
    (program : BotProgram (Option BotTask)) (world : BotWorld) : Prop :=
  Keeps (promise settings digits formatCount) task program world

theorem keeps_getForm {rest : Form → BotProgram (Option BotTask)}
    (keeps : KeepsSound settings digits formatCount task (rest (world.forms key))
      (BotWorld.issue task world (.getForm key)).world) :
    KeepsSound settings digits formatCount task (ask (.getForm key) >>= rest) world :=
  ⟨@issue_grows task (.getForm key) world, fun _ member => absurd member List.not_mem_nil, keeps⟩

theorem keeps_clearForm {rest : Unit → BotProgram (Option BotTask)}
    (keeps : KeepsSound settings digits formatCount task (rest ()) (BotWorld.issue task world (.clearForm key)).world) :
    KeepsSound settings digits formatCount task (ask (.clearForm key) >>= rest) world :=
  ⟨@issue_grows task (.clearForm key) world, fun _ member => absurd member List.not_mem_nil, keeps⟩

theorem keeps_setState {state : FormState} {rest : Unit → BotProgram (Option BotTask)}
    (keeps : KeepsSound settings digits formatCount task (rest ())
      (BotWorld.issue task world (.setState key state)).world) :
    KeepsSound settings digits formatCount task (ask (.setState key state) >>= rest) world :=
  ⟨@issue_grows task (.setState key state) world, fun _ member => absurd member List.not_mem_nil, keeps⟩

theorem keeps_updateData {field : FormField} {rest : Unit → BotProgram (Option BotTask)}
    (keeps : KeepsSound settings digits formatCount task (rest ())
      (BotWorld.issue task world (.updateData key field)).world) :
    KeepsSound settings digits formatCount task (ask (.updateData key field) >>= rest) world :=
  ⟨@issue_grows task (.updateData key field) world, fun _ member => absurd member List.not_mem_nil, keeps⟩

variable {update : Update} {after : BotWorld}

/-- A handler that makes permitted calls only keeps what the bot keeps. -/
theorem keeps_minds {program : BotProgram Unit} (minds : Minds settings digits update program)
    (sound : world.Sound settings digits) (good : BotTask.Good (.update update) world) :
    KeepsSound settings digits formatCount (.update update) (program >>= closing) world := by
  have abides : (program >>= closing).Abides (update.permits settings digits) (· = none) := minds.bind fun _ _ => rfl
  refine (allows_harmless formatCount).keeps sound good abides ?_
  intro outcome world none_ _ next member
  rw [none_] at member
  cases member

/-- A form that was filled in between two waits. -/
theorem BotWorld.Sound.fill (sound : world.Sound settings digits) (good : BotTask.Good (.update update) world)
    (authorized : update.authorized settings = true) (keyed : update.formKey = some key)
    (same : after.arrived = world.arrived)
    (history : ∃ calls : List BotCall, after.history = calls.map (.called (.update update)) ++ world.history ∧
      ∀ call ∈ calls, update.permits settings digits call ∨ update.permitsField settings call)
    (others : ∀ asked, asked ≠ key → after.forms asked = world.forms asked) (form : (after.forms key).Sound digits) :
    after.Sound settings digits := by
  obtain ⟨calls, whole, permitted⟩ := history
  have grown : world.Grows after :=
    ⟨fun _ member => same ▸ member, fun _ member => whole ▸ List.mem_append_right _ member⟩
  refine sound.change same grown ?_ ?_
  · intro task call member
    rw [whole] at member
    rcases List.mem_append.mp member with new | old
    · obtain ⟨own, inside, shape⟩ := List.mem_map.mp new
      cases shape
      exact .inr ⟨good.1, permitted call inside⟩
    · exact .inl old
  · intro asked
    by_cases own : asked = key
    · subst own
      exact .inr ⟨form, fun _ => ⟨update, good.1, authorized, keyed⟩⟩
    · exact .inl (others asked own)

theorem BotTask.Good.same (good : BotTask.Good (.update update) world) (same : after.arrived = world.arrived) :
    BotTask.Good (.update update) after := by
  obtain ⟨member, genuine⟩ := good
  exact ⟨same ▸ member, genuine⟩

theorem forms_setState {state : FormState} :
    (BotWorld.issue task world (.setState key state)).world.forms key = { world.forms key with state := some state } :=
  if_pos rfl

theorem forms_updateData {field : FormField} : (BotWorld.issue task world (.updateData key field)).world.forms key =
    { world.forms key with data := (world.forms key).data.store field } :=
  if_pos rfl

theorem forms_clearForm : (BotWorld.issue task world (.clearForm key)).world.forms key = {} := if_pos rfl

theorem setForm_other {asked : FormKey} {form : Form} (other : asked ≠ key) :
    (world.setForm key form).forms asked = world.forms asked := if_neg other

variable {chat : Chat} {message : Option (Chat × MessageId)} {sender : Sender}

theorem storedPattern_known {form : Form} {pattern : PatternType} (stored : form.data.pattern = some pattern.value.toList) :
    storedPattern form = .done pattern := by
  simp only [storedPattern, stored, ofName_iff.mpr rfl]
  rfl

theorem bind_bind {α β γ : Type} (program : BotProgram α) (middle : α → BotProgram β) (last : β → BotProgram γ) :
    (program >>= middle) >>= last = program >>= fun value => middle value >>= last :=
  Program.bind_assoc program middle last

theorem keeps_receivePattern {data : Text} (sound : world.Sound settings digits)
    (good : BotTask.Good (.update update) world) (authorized : update.authorized settings = true)
    (keyed : update.formKey = some key) :
    KeepsSound settings digits formatCount (.update update) (receivePattern key message data >>= closing) world := by
  cases found : PatternType.ofName ((data.dropWhile (· ≠ ':')).drop 1) with
  | none =>
    simp only [receivePattern, found]
    exact keeps_minds (abides_ask trivial) sound good
  | some pattern =>
    simp only [receivePattern, found]
    rw [bind_bind]
    apply keeps_setState
    rw [bind_bind]
    apply keeps_updateData
    apply keeps_minds
    · cases message with
      | none => exact abides_ask trivial
      | some place =>
        dsimp only
        split
        · exact abides_ask_bind trivial fun _ => abides_ask trivial
        · exact abides_ask_bind trivial fun _ => abides_ask trivial
    · refine sound.fill good authorized keyed rfl
        ⟨[.updateData key (.pattern pattern.value.toList), .setState key .walletPrefix], rfl, ?_⟩ ?_ ?_
      · intro call member
        simp only [List.mem_cons, List.not_mem_nil, or_false] at member
        rcases member with rfl | rfl
        · exact .inr ⟨authorized, keyed⟩
        · exact .inr ⟨authorized, keyed⟩
      · intro asked other
        exact (setForm_other other).trans (setForm_other other)
      · rw [forms_updateData, forms_setState]
        exact ⟨⟨pattern, rfl⟩, (sound.forms key).amount⟩
    · exact good.same rfl

/-- A form that is read again is the same, and so is all that it holds. -/
theorem BotWorld.Sound.read (sound : world.Sound settings digits) (good : BotTask.Good (.update update) world)
    (key : FormKey) : (BotWorld.issue (.update update) world (.getForm key)).world.Sound settings digits ∧
      BotTask.Good (.update update) (BotWorld.issue (.update update) world (.getForm key)).world :=
  ⟨sound.issue rfl ⟨good.1, .inl trivial⟩, good.same rfl⟩

theorem keeps_receivePrefix {text : Text} (sound : world.Sound settings digits)
    (good : BotTask.Good (.update update) world) (authorized : update.authorized settings = true)
    (keyed : update.formKey = some key) (waiting : (world.forms key).state = some .walletPrefix) :
    KeepsSound settings digits formatCount (.update update) (receivePrefix key chat text >>= closing) world := by
  have holds := (sound.forms key).state
  simp only [Form.Holds, waiting] at holds
  obtain ⟨pattern, stored⟩ := holds
  rw [receivePrefix, bind_bind]
  apply keeps_getForm
  obtain ⟨read, still⟩ := sound.read good key
  rw [storedPattern_known stored, Program.done_bind]
  cases accepted : validateCustomPrefix pattern text with
  | error error => exact keeps_minds (abides_ask (offers_forceReply _ _)) read still
  | ok addressPrefix =>
    obtain ⟨afterT, shape, fits⟩ := validateCustomPrefix_fits accepted
    dsimp only
    rw [bind_bind]
    apply keeps_updateData
    rw [bind_bind]
    apply keeps_setState
    apply keeps_minds (abides_ask (offers_forceReply _ _))
    · refine read.fill still authorized keyed rfl
        ⟨[.setState key .walletSuffix, .updateData key (.addressPrefix addressPrefix)], rfl, ?_⟩ ?_ ?_
      · intro call member
        simp only [List.mem_cons, List.not_mem_nil, or_false] at member
        rcases member with rfl | rfl
        · exact .inr ⟨authorized, keyed⟩
        · exact .inr ⟨authorized, keyed⟩
      · intro asked other
        exact (setForm_other other).trans (setForm_other other)
      · rw [forms_setState, forms_updateData]
        exact ⟨⟨pattern, afterT, stored, congrArg some shape, fits⟩, (sound.forms key).amount⟩
    · exact good.same rfl

theorem keeps_receiveSuffix {text : Text} (sound : world.Sound settings digits)
    (good : BotTask.Good (.update update) world) (authorized : update.authorized settings = true)
    (keyed : update.formKey = some key) (waiting : (world.forms key).state = some .walletSuffix) :
    KeepsSound settings digits formatCount (.update update) (receiveSuffix key chat text >>= closing) world := by
  have holds := (sound.forms key).state
  simp only [Form.Holds, waiting] at holds
  obtain ⟨pattern, afterT, stored, front, fits⟩ := holds
  rw [receiveSuffix, bind_bind]
  apply keeps_getForm
  obtain ⟨read, still⟩ := sound.read good key
  rw [storedPattern_known stored, Program.done_bind]
  cases accepted : validateSuffix pattern text with
  | error error => exact keeps_minds (abides_ask (offers_forceReply _ _)) read still
  | ok suffix =>
    obtain ⟨length, known⟩ := validateSuffix_fits accepted
    dsimp only
    rw [bind_bind]
    apply keeps_updateData
    rw [bind_bind]
    apply keeps_setState
    rw [front]
    apply keeps_minds (abides_ask offers_confirmationMenu)
    · refine read.fill still authorized keyed rfl
        ⟨[.setState key .walletConfirmation, .updateData key (.suffix suffix)], rfl, ?_⟩ ?_ ?_
      · intro call member
        simp only [List.mem_cons, List.not_mem_nil, or_false] at member
        rcases member with rfl | rfl
        · exact .inr ⟨authorized, keyed⟩
        · exact .inr ⟨authorized, keyed⟩
      · intro asked other
        exact (setForm_other other).trans (setForm_other other)
      · rw [forms_setState, forms_updateData]
        exact ⟨⟨pattern, afterT, suffix, stored, front, rfl, fits.length, length, fits.known, known, fits.first⟩,
          (sound.forms key).amount⟩
    · exact good.same rfl

theorem keeps_receiveFundingAmount {text : Text} (sound : world.Sound settings digits)
    (good : BotTask.Good (.update update) world) (authorized : update.authorized settings = true)
    (keyed : update.formKey = some key) (waiting : (world.forms key).state = some .fundingAmount) :
    KeepsSound settings digits formatCount (.update update)
      (receiveFundingAmount digits key chat text >>= closing) world := by
  have holds := (sound.forms key).state
  simp only [Form.Holds, waiting] at holds
  obtain ⟨id, stored⟩ := holds
  simp only [receiveFundingAmount]
  cases accepted : acceptsAmount digits (stripSpace text) with
  | false => exact keeps_minds (abides_ask trivial) sound good
  | true =>
    rw [Bool.not_true, if_neg Bool.false_ne_true, bind_bind]
    apply keeps_getForm
    obtain ⟨read, still⟩ := sound.read good key
    rw [stored, Option.map_some, parseUuid_uuidText]
    dsimp only
    rw [bind_bind]
    apply keeps_updateData
    apply keeps_minds (abides_ask offers_fundingConfirmationMenu)
    · refine read.fill still authorized keyed rfl ⟨[.updateData key (.fundingAmount (stripSpace text))], rfl, ?_⟩ ?_ ?_
      · intro call member
        cases List.mem_singleton.mp member
        exact .inr ⟨authorized, keyed⟩
      · intro asked other
        exact setForm_other other
      · rw [forms_updateData]
        refine ⟨?_, ?_⟩
        · show Form.Holds ⟨(world.forms key).state, _⟩
          rw [Form.Holds, waiting]
          exact ⟨id, stored⟩
        · intro raw same
          cases same
          exact accepted
    · exact good.same rfl

theorem keeps_startFunding {data : Text} (sound : world.Sound settings digits)
    (good : BotTask.Good (.update update) world) (authorized : update.authorized settings = true)
    (keyed : update.formKey = some key) :
    KeepsSound settings digits formatCount (.update update)
      (startFunding digits settings key message data >>= closing) world := by
  unfold startFunding
  split
  · exact keeps_minds (abides_ask trivial) sound good
  · cases message with
    | none => exact keeps_minds (abides_ask trivial) sound good
    | some place =>
      cases parsed : parseUuid digits (afterLastColon data) with
      | error error => exact keeps_minds (abides_ask trivial) sound good
      | ok id =>
        dsimp only
        rw [bind_bind]
        apply keeps_clearForm
        rw [bind_bind]
        apply keeps_setState
        rw [bind_bind]
        apply keeps_updateData
        apply keeps_minds
        · exact abides_ask_bind trivial fun _ => abides_ask trivial
        · refine sound.fill good authorized keyed rfl
            ⟨[.updateData key (.fundingJobId (uuidText id)), .setState key .fundingAmount, .clearForm key], rfl, ?_⟩ ?_ ?_
          · intro call member
            simp only [List.mem_cons, List.not_mem_nil, or_false] at member
            rcases member with rfl | rfl | rfl
            · exact .inr ⟨authorized, keyed⟩
            · exact .inr ⟨authorized, keyed⟩
            · exact .inl trivial
          · intro asked other
            exact (setForm_other other).trans ((setForm_other other).trans (setForm_other other))
          · rw [forms_updateData, forms_setState, forms_clearForm]
            exact ⟨⟨id, rfl⟩, fun raw same => by cases same⟩
        · exact good.same rfl

/-- A confirmation reads an amount that was accepted, and the job of the button. -/
theorem keeps_confirmFunding {place : Option (Chat × MessageId)} {data : Option Text}
    (sound : world.Sound settings digits)
    (good : BotTask.Good (.update (.callback sender place data)) world)
    (authorized : Update.authorized settings (.callback sender place data) = true)
    (pressed : Update.pressed (.callback sender place data) = some .confirmFunding) :
    KeepsSound settings digits formatCount (.update (.callback sender place data))
      (confirmFunding digits settings key place (data.getD []) >>= closing) world := by
  unfold confirmFunding
  cases enabled : settings.fundingEnabled with
  | false =>
    cases place <;> exact keeps_minds (abides_ask trivial) sound good
  | true =>
    cases place with
    | none => exact keeps_minds (abides_ask trivial) sound good
    | some place =>
      dsimp only
      rw [bind_bind]
      apply keeps_getForm
      obtain ⟨read, still⟩ := sound.read good key
      cases confirmed : confirmedFunding digits (data.getD []) (world.forms key).data with
      | none => exact keeps_minds (abides_ask_bind trivial fun _ => abides_ask trivial) read still
      | some funding =>
        obtain ⟨id, amount⟩ := funding
        have known : parseUuid digits (afterLastColon (data.getD [])) = .ok id ∧
            (world.forms key).data.fundingAmount = some amount := by
          rw [confirmedFunding] at confirmed
          split at confirmed
          · rename_i named _ stored
            split at confirmed
            · cases confirmed
              exact ⟨named, stored⟩
            · cases confirmed
          · cases confirmed
        exact keeps_minds (minds_submitFunding authorized pressed enabled known.1 ((sound.forms key).amount _ known.2))
          read still

end Steps

end TronForge.Telegram
