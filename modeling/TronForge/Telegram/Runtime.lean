import TronForge.Telegram.Handlers

/-! The monitors of `BotRuntime`: one turn of their loops, which ends with the text that
was shown last, or with nothing if the loop is left. -/

namespace TronForge.Telegram

open Library
open Generator (JobStatus)

/-- What a monitor does about an exception of its turn. -/
def pause (shown : String) : BotError → BotProgram (Option String)
  | .telegramRetryAfter retryAfter => do
    ask (.sleep (.seconds retryAfter))
    return some shown
  | .telegramForbidden => pure none
  | .telegramBadRequest _ | .tronForgeApiError _ => do
    ask (.sleep .pollInterval)
    return some shown
  | error => .raise error

def notModified (message : String) : Bool := decide ("message is not modified".toList <:+: message.toLower.toList)

/-- Edit the message of a monitor, if its text is another one. -/
def showProgress (chat : ChatId) (message : MessageId) (previousText text : String) (markup : Markup) :
    BotProgram Unit :=
  if text = previousText then pure ()
  else do
    match ← (ask (.edit chat message text markup)).attempt with
    | .ok () => pure ()
    | .error (.telegramBadRequest description) =>
      if notModified description then pure () else .raise (.telegramBadRequest description)
    | .error error => .raise error

section
variable (settings : BotSettings) (formatCount : Nat → String)

/-- Send the wallet of a job, which raises without a result. -/
def sendResult (chat : ChatId) (job : JobRead) : BotProgram Unit :=
  match walletResult job with
  | .error error => .raise error
  | .ok content => ask (.send chat content (walletResultMenu job.id settings.fundingEnabled))

/-- The end of a ready job. -/
def deliver (watch : JobWatch) (job : JobRead) : BotProgram Unit :=
  if settings.broadcastResultsToChat then sendResult settings watch.chatId job
  else do
    match ← (sendResult settings watch.recipientUserId job).attempt with
    | .ok () => pure ()
    | .error .telegramForbidden | .error (.telegramBadRequest _) =>
      if watch.chatId = watch.recipientUserId then pure ()
      else ask (.send watch.chatId (.text ("Wallet ready, but I cannot message the requester privately. " ++
        "Open a private chat with this bot, send /start, then use Recent jobs → Reveal in this group.")) .none)
    | .error error => .raise error

def JobStatus.delivers : JobStatus → Bool
  | .ready | .ownershipVerified => true
  | _ => false

/-- Whether the monitor of a job returns after this answer. -/
def finishJob (watch : JobWatch) (job : JobRead) : BotProgram Bool :=
  if JobStatus.delivers job.status then do
    deliver settings watch job
    return true
  else pure job.status.terminal

def progressMarkup (job : JobRead) : Markup := if job.status.terminal then .none else cancelJobMenu job.id

/-- A turn of `_monitor`. -/
def monitorTurn (watch : JobWatch) (previousText : String) : BotProgram (Option String) := do
  match ← (ask (.getJob watch.jobId)).attempt with
  | .error error => pause previousText error
  | .ok job =>
    let text := jobProgress formatCount job
    match ← (showProgress watch.chatId watch.messageId previousText text (progressMarkup job)).attempt with
    | .error error => pause previousText error
    | .ok () =>
      match ← (finishJob settings watch job).attempt with
      | .error error => pause text error
      | .ok true => pure none
      | .ok false => do
        ask (.sleep .pollInterval)
        return some text

/-- A turn of `_monitor_funding`. -/
def fundingTurn (watch : FundingWatch) (previousText : String) : BotProgram (Option String) := do
  match ← (ask (.getFunding watch.jobId)).attempt with
  | .error error => pause previousText error
  | .ok funding =>
    let text := fundingProgress funding
    match ← (showProgress watch.chatId watch.messageId previousText text .none).attempt with
    | .error error => pause previousText error
    | .ok () =>
      if funding.status = .confirmed ∨ funding.status = .failed then pure none
      else do
        ask (.sleep .pollInterval)
        return some text

end

end TronForge.Telegram
