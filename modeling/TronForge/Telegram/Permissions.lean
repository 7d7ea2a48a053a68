import TronForge.Telegram.Bot
import TronForge.Telegram.Offers

/-! Which calls a task of the bot may make: those that its update asks for, if the
middleware lets it through, or those of a monitor that such an update has started. -/

namespace TronForge.Telegram

open Library
open Generator (PatternType)
open Native (Text)
open Service (Fits patternLengths)

/-- Where the wallets that an update asks for may go. -/
def BotSettings.destination (settings : BotSettings) (update : Update) : Option ChatId :=
  if settings.publicAccess then update.chat.map (·.id)
  else if settings.restrictUserId then some settings.allowedUserId
  else some settings.allowedGroupId

namespace Update

/-- The handler of a pressed button. -/
def pressed : Update → Option Handler
  | .callback _ _ data => data.bind callbackHandler
  | .message .. => none

/-- The job that a pressed button names. -/
def names (digits : DigitSet) (id : Uuid) : Update → Prop
  | .callback _ _ data => parseUuid digits (afterLastColon (data.getD [])) = .ok id
  | .message .. => False

/-- A monitor that the update may start: it shows the progress in the message of the
button, and sends the wallet to its chat or to who pressed it. -/
def watches (watch : JobWatch) : Update → Prop
  | .callback sender (some (place, id)) _ =>
    watch.chatId = place.id ∧ watch.messageId = id ∧ watch.recipientUserId = sender.id
  | _ => False

/-- A monitor of a funding that the update may start, in the message of the button. -/
def watchesFunding (watch : FundingWatch) : Update → Prop
  | .callback _ (some (place, id)) _ => watch.chatId = place.id ∧ watch.messageId = id
  | _ => False

variable (settings : BotSettings) (digits : DigitSet)

/-- What a monitor of a job may do. -/
def permitsWatch (watch : JobWatch) : BotCall → Prop
  | .send place (.wallet ..) markup =>
    place = (if settings.broadcastResultsToChat then watch.chatId else watch.recipientUserId) ∧ markup.Offers
  | .send _ (.text _) markup | .edit _ _ _ markup => markup.Offers
  | .getJob id => id = watch.jobId
  | .sleep _ => True
  | _ => False

def permitsFundingWatch (watch : FundingWatch) : BotCall → Prop
  | .edit _ _ _ markup => markup.Offers
  | .getFunding id => id = watch.jobId
  | .sleep _ => True
  | _ => False

/-- What a handler may do for an update, but for the fields of its form. -/
def permits (update : Update) : BotCall → Prop
  | .send place (.wallet ..) markup =>
    update.authorized settings = true ∧ update.pressed = some .revealJob ∧ settings.destination update = some place ∧
      markup.Offers
  | .send _ (.text _) markup | .edit _ _ _ markup => markup.Offers
  | .createJob .. => update.authorized settings = true ∧ update.pressed = some .createJob
  | .cancelJob id => update.authorized settings = true ∧ update.pressed = some .cancelJob ∧ update.names digits id
  | .getJob id => update.authorized settings = true ∧
      (update.pressed = some .watchJob ∨ update.pressed = some .revealJob) ∧ update.names digits id
  | .listJobs _ => update.authorized settings = true ∧ update.pressed = some .recentJobs
  | .getGpuFleet => update.authorized settings = true ∧ update.pressed = some .gpuStatus
  | .createFunding id amount => update.authorized settings = true ∧ settings.fundingEnabled = true ∧
      update.pressed = some .confirmFunding ∧ update.names digits id ∧ acceptsAmount digits amount = true
  | .monitor watch => update.authorized settings = true ∧
      (update.pressed = some .createJob ∨ update.pressed = some .watchJob) ∧ update.watches watch
  | .monitorFunding watch => update.authorized settings = true ∧ settings.fundingEnabled = true ∧
      update.pressed = some .confirmFunding ∧ update.watchesFunding watch
  | .getForm _ | .clearForm _ | .answerCallback .. | .sleep _ => True
  | _ => False

/-- The fields of a form belong to who is allowed to fill it in. -/
def permitsField (update : Update) : BotCall → Prop
  | .setState key _ | .updateData key _ => update.authorized settings = true ∧ update.formKey = some key
  | _ => False

end Update

section
variable (settings : BotSettings) (digits : DigitSet)

/-- What a task may do in a world: a monitor needs an update whose handler has started it. -/
def BotTask.Permits (world : BotWorld) : BotTask → BotCall → Prop
  | .update incoming, call => incoming ∈ world.arrived ∧
      (incoming.permits settings digits call ∨ incoming.permitsField settings call)
  | .monitor _ watch _, call => (∃ incoming, BotEvent.called (.update incoming) (.monitor watch) ∈ world.history) ∧
      Update.permitsWatch settings watch call
  | .monitorFunding _ watch _, call =>
      (∃ incoming, BotEvent.called (.update incoming) (.monitorFunding watch) ∈ world.history) ∧
      Update.permitsFundingWatch watch call
  | .jobDone jobId, call => call = .popTask jobId
  | .fundingDone jobId, call => call = .popFundingTask jobId

/-- The tasks that permitted calls start. -/
def BotTask.Good : BotTask → BotWorld → Prop
  | .update incoming, world => incoming ∈ world.arrived ∧ BotWorld.genuine incoming = true
  | .monitor _ watch _, world => ∃ incoming, BotEvent.called (.update incoming) (.monitor watch) ∈ world.history
  | .monitorFunding _ watch _, world =>
    ∃ incoming, BotEvent.called (.update incoming) (.monitorFunding watch) ∈ world.history
  | _, _ => True

/-- Nothing that has arrived or happened is forgotten. -/
structure BotWorld.Grows (before after : BotWorld) : Prop where
  arrived : ∀ update ∈ before.arrived, update ∈ after.arrived
  history : ∀ event ∈ before.history, event ∈ after.history

/-- The part of a prefix in what a form must fit. -/
structure FitsPrefix (pattern : PatternType) (afterT : Text) : Prop where
  length : afterT.length = (patternLengths pattern).1
  known : ∀ character ∈ afterT, character ∈ Native.base58Alphabet
  first : Native.charAt afterT 0 ∈ Native.allowedFirstCustom

/-- What a form holds in each of its states. -/
def Form.Holds (form : Form) : Prop :=
  match form.state with
  | none => form.data = {}
  | some .walletPrefix => ∃ pattern : PatternType, form.data.pattern = some pattern.value.toList
  | some .walletSuffix => ∃ (pattern : PatternType) (afterT : Text), form.data.pattern = some pattern.value.toList ∧
      form.data.addressPrefix = some ('T' :: afterT) ∧ FitsPrefix pattern afterT
  | some .walletConfirmation => ∃ (pattern : PatternType) (afterT suffix : Text),
      form.data.pattern = some pattern.value.toList ∧ form.data.addressPrefix = some ('T' :: afterT) ∧
      form.data.suffix = some suffix ∧ Fits pattern afterT suffix
  | some .fundingAmount => ∃ id : Uuid, form.data.fundingJobId = some (uuidText id)

/-- A form is filled in up to its state, and an amount in it was accepted. -/
structure Form.Sound (form : Form) : Prop where
  state : form.Holds
  amount : ∀ raw, form.data.fundingAmount = some raw → acceptsAmount digits raw = true

/-- What holds of every world of the bot. -/
structure BotWorld.Sound (world : BotWorld) : Prop where
  genuine : ∀ incoming ∈ world.arrived, BotWorld.genuine incoming = true
  forms : ∀ key, (world.forms key).Sound digits
  owned : ∀ key, world.forms key ≠ {} →
    ∃ incoming ∈ world.arrived, incoming.authorized settings = true ∧ incoming.formKey = some key
  history : ∀ task call, BotEvent.called task call ∈ world.history → task.Permits settings digits world call

end

end TronForge.Telegram
