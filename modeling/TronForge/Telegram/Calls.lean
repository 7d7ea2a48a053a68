import TronForge.Library.Cooperative
import TronForge.Telegram.Updates

/-! The calls of the bot: to its form storage and its monitors, which are done at once,
and to Telegram and to the API client, for which it waits. -/

namespace TronForge.Telegram

open Library
open Generator (JobId PatternType)
open Native (Text)
open Funding (FundingRead)

/-- The exceptions that the bot tells apart. -/
inductive BotError where
  | telegramBadRequest (message : String)
  | telegramForbidden
  | telegramRetryAfter (retryAfter : Nat)
  | tronForgeApiError (message : String)
  | valueError (message : String)
  | unexpected (message : String)
  deriving DecidableEq, Repr

/-- A message with a private key, or any other text. -/
inductive Content where
  | text (text : String)
  | wallet (wallet : WalletRead) (observedRate : Option Nat)
  deriving DecidableEq, Repr

/-- The arguments of `monitor`. -/
structure JobWatch where
  chatId : ChatId
  messageId : MessageId
  jobId : Uuid
  recipientUserId : ChatId
  deriving DecidableEq, Repr

/-- The arguments of `monitor_funding`. -/
structure FundingWatch where
  chatId : ChatId
  messageId : MessageId
  jobId : JobId
  deriving DecidableEq, Repr

/-- What is stored under one key of the form data. -/
inductive FormField where
  | pattern (value : Text)
  | addressPrefix (value : Text)
  | suffix (value : Text)
  | fundingJobId (value : Text)
  | fundingAmount (value : Text)
  deriving DecidableEq, Repr

/-- `update_data`. -/
def FormData.store (data : FormData) : FormField → FormData
  | .pattern value => { data with pattern := some value }
  | .addressPrefix value => { data with addressPrefix := some value }
  | .suffix value => { data with suffix := some value }
  | .fundingJobId value => { data with fundingJobId := some value }
  | .fundingAmount value => { data with fundingAmount := some value }

inductive Delay where
  | pollInterval
  | seconds (count : Nat)
  deriving DecidableEq, Repr

inductive BotCall where
  | getForm (key : FormKey)
  | clearForm (key : FormKey)
  | setState (key : FormKey) (state : FormState)
  | updateData (key : FormKey) (field : FormField)
  | monitor (watch : JobWatch)
  | monitorFunding (watch : FundingWatch)
  | popTask (jobId : Uuid)
  | popFundingTask (jobId : JobId)
  | send (chat : ChatId) (content : Content) (markup : Markup)
  | edit (chat : ChatId) (message : MessageId) (text : String) (markup : Markup)
  | answerCallback (text : String) (showAlert : Bool)
  | createJob (pattern : PatternType) (addressPrefix suffix : Text)
  | getJob (id : Uuid)
  | listJobs (limit : Nat)
  | cancelJob (id : Uuid)
  | getGpuFleet
  | createFunding (id : Uuid) (amount : Text)
  | getFunding (id : JobId)
  | sleep (delay : Delay)
  deriving DecidableEq, Repr

abbrev BotReply : BotCall → Type
  | .getForm _ => Form
  | .createJob .. | .getJob _ | .cancelJob _ => JobRead
  | .listJobs _ => List JobRead
  | .getGpuFleet => FleetRead
  | .createFunding .. | .getFunding _ => FundingRead
  | _ => Unit

abbrev botCalls : Interface := ⟨BotCall, BotReply⟩

abbrev BotProgram := Program botCalls BotError

def ask (call : BotCall) : BotProgram (BotReply call) := Program.perform (I := botCalls) call

/-- The calls to the API client. -/
def BotCall.toApi : BotCall → Bool
  | .createJob .. | .getJob _ | .listJobs _ | .cancelJob _ | .getGpuFleet | .createFunding .. | .getFunding _ => true
  | _ => false

/-- The calls to Telegram. -/
def BotCall.toTelegram : BotCall → Bool
  | .send .. | .edit .. | .answerCallback .. => true
  | _ => false

/-- The calls for which a thread waits. -/
def BotCall.waits : BotCall → Bool
  | .sleep _ => true
  | call => call.toApi || call.toTelegram

/-- `wallet_result`. -/
def walletResult (job : JobRead) : Except BotError Content :=
  match job.result with
  | none => .error (.valueError "Job does not contain a wallet result.")
  | some wallet => .ok (.wallet wallet job.observedRate)

end TronForge.Telegram
