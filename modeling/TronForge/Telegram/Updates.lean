import TronForge.Telegram.Texts

/-! What reaches the Telegram bot: messages and pressed buttons, who may use the wallet
commands, and which handler of the router an update is for. -/

namespace TronForge.Telegram

open Native (Text)
open Service (pythonSpace)

/-- The ids of users and chats; a private chat has the id of its user. -/
abbrev ChatId := Int

abbrev MessageId := Nat

inductive ChatType where
  | privateChat | group | supergroup | channel
  deriving DecidableEq, Repr

structure Sender where
  id : ChatId
  isBot : Bool
  deriving DecidableEq, Repr

structure Chat where
  id : ChatId
  type : ChatType
  deriving DecidableEq, Repr

/-- `chat.type in ("group", "supergroup")`. -/
def Chat.isGroup (chat : Chat) : Bool := chat.type = .group || chat.type = .supergroup

/-- An update; a button stands under a message, if Telegram still has it. -/
inductive Update where
  | message (sender : Option Sender) (chat : Chat) (text : Option Text)
  | callback (sender : Sender) (message : Option (Chat × MessageId)) (data : Option Text)
  deriving DecidableEq, Repr

/-- `event_from_user`. -/
def Update.sender : Update → Option Sender
  | .message user _ _ => user
  | .callback user _ _ => some user

/-- `event_chat`. -/
def Update.chat : Update → Option Chat
  | .message _ place _ => some place
  | .callback _ place _ => place.map (·.1)

/-- The settings that `run` hands to the router and to the runtime, and the name of the bot. -/
structure BotSettings where
  allowedUserId : ChatId
  restrictUserId : Bool
  allowedGroupId : ChatId
  publicAccess : Bool
  fundingEnabled : Bool
  username : Text := []
  deriving DecidableEq, Repr

/-- The argument that `run` computes for the runtime. -/
def BotSettings.broadcastResultsToChat (settings : BotSettings) : Bool :=
  settings.publicAccess || (!settings.restrictUserId && settings.allowedGroupId != 0)

/-- `wallet_commands_allowed`. -/
def walletCommandsAllowed (settings : BotSettings) (user : Option Sender) (chat : Option Chat) : Bool :=
  match user with
  | none => false
  | some user =>
    if user.isBot then false
    else if settings.publicAccess then chat.any fun chat => chat.type = .privateChat || chat.isGroup
    else
      let userAllowed := !settings.restrictUserId || (decide (0 < settings.allowedUserId) && user.id = settings.allowedUserId)
      if !userAllowed then false
      else chat.any fun chat =>
        if chat.type = .privateChat then settings.restrictUserId
        else chat.isGroup && settings.allowedGroupId != 0 && chat.id = settings.allowedGroupId

/-- What the middleware asks of an update. -/
def Update.authorized (settings : BotSettings) (update : Update) : Bool :=
  walletCommandsAllowed settings update.sender update.chat

/-- The first word of a text. -/
def firstWord (text : Text) : Text := (text.dropWhile pythonSpace).takeWhile fun character => !pythonSpace character

/-- `_is_start_message`. -/
def Update.isStartMessage : Update → Bool
  | .message _ _ (some text) => (firstWord text).takeWhile (· ≠ '@') = "/start".toList
  | _ => false

/-- The command of a text, as the filters of the router parse it: a mention must be of
this bot. -/
def command (username text : Text) : Option Text :=
  match firstWord text with
  | '/' :: rest =>
    let name := rest.takeWhile (· ≠ '@')
    let mention := (rest.dropWhile (· ≠ '@')).drop 1
    if mention = [] ∨ mention.map Char.toLower = username.map Char.toLower then some name else none
  | _ => none

/-- `WalletForm` and `FundingForm`. -/
inductive FormState where
  | walletPrefix | walletSuffix | walletConfirmation | fundingAmount
  deriving DecidableEq, Repr

/-- The keys of the form data. -/
structure FormData where
  pattern : Option Text := none
  addressPrefix : Option Text := none
  suffix : Option Text := none
  fundingJobId : Option Text := none
  fundingAmount : Option Text := none
  deriving DecidableEq, Repr

structure Form where
  state : Option FormState := none
  data : FormData := {}
  deriving DecidableEq, Repr

/-- A form belongs to a user in a chat. -/
structure FormKey where
  chat : ChatId
  user : ChatId
  deriving DecidableEq, Repr

/-- Where the form of an update is stored; a button without a message belongs to the
private chat of its user. -/
def Update.formKey (update : Update) : Option FormKey :=
  update.sender.map fun sender => ⟨(update.chat.map (·.id)).getD sender.id, sender.id⟩

/-- The handlers of the router. -/
inductive Handler where
  | start | cancelForm | receivePrefix | receiveSuffix | receiveFundingAmount
  | home | choosePattern | receivePattern | cancelConfirmation | createJob
  | gpuStatus | recentJobs | cancelJob | watchJob | revealJob
  | startFunding | cancelFunding | confirmFunding
  deriving DecidableEq, Repr

/-- The data that a callback handler is registered for, and whether as the start of it. -/
def callbackFilters : List (Text × Bool × Handler) :=
  [("menu:home".toList, false, .home), ("menu:new".toList, false, .choosePattern),
    ("pattern:".toList, true, .receivePattern), ("form:cancel".toList, false, .cancelConfirmation),
    ("form:create".toList, false, .createJob), ("menu:gpus".toList, false, .gpuStatus),
    ("menu:jobs".toList, false, .recentJobs), ("job:cancel:".toList, true, .cancelJob),
    ("job:watch:".toList, true, .watchJob), ("job:reveal:".toList, true, .revealJob),
    ("job:fund:".toList, true, .startFunding), ("funding:cancel".toList, false, .cancelFunding),
    ("funding:confirm:".toList, true, .confirmFunding)]

def callbackHandler (data : Text) : Option Handler :=
  (callbackFilters.find? fun (wanted, starts, _) =>
    if starts then wanted.isPrefixOf data else wanted = data).map fun (_, _, handler) => handler

/-- The handler of a message: commands first, then the field that the form waits for. -/
def messageHandler (username : Text) (state : Option FormState) (text : Text) : Option Handler :=
  if command username text = some "start".toList then some .start
  else if command username text = some "cancel".toList then some .cancelForm
  else if text = [] then none
  else
    match state with
    | some .walletPrefix => some .receivePrefix
    | some .walletSuffix => some .receiveSuffix
    | some .fundingAmount => some .receiveFundingAmount
    | some .walletConfirmation | none => none

/-- The handler whose filters an update passes. -/
def Update.handler (settings : BotSettings) (state : Option FormState) : Update → Option Handler
  | .message _ _ text => messageHandler settings.username state (text.getD [])
  | .callback _ _ data => data.bind callbackHandler

end TronForge.Telegram
