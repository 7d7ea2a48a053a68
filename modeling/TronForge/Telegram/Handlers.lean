import TronForge.Funding.Amounts
import TronForge.Telegram.Calls

/-! The handlers of the bot's router behind the middleware that guards them. Every handler
is the program of its source; the form storage answers without a wait. -/

namespace TronForge.Telegram

open Library
open Generator (JobStatus PatternType)
open Native (Text)
open Service (PatternType.ofName validateCustomPrefix validateSuffix stripSpace)

def forceReply (placeholder : String) (chat : Chat) : Markup :=
  if chat.isGroup then .forceReply placeholder else .none

section Menus

def start (settings : BotSettings) (key : FormKey) (chat : Chat) : BotProgram Unit := do
  ask (.clearForm key)
  if !settings.publicAccess && !settings.restrictUserId && chat.type = .privateChat then
    ask (.send chat.id (.text ("Private delivery is ready. Return to the configured group to request " ++
      "or reveal wallets.")) .none)
  else ask (.send chat.id (.text ("<b>TronForge Wallet Generator</b>\n\n" ++
    "Create a TRON vanity wallet using every available GPU on this server.")) mainMenu)

def cancelForm (key : FormKey) (chat : Chat) : BotProgram Unit := do
  ask (.clearForm key)
  ask (.send chat.id (.text "Wallet form canceled.") mainMenu)

/-- `callback.message.edit_text`, where there is a message. -/
def editMessage (message : Option (Chat × MessageId)) (text : String) (markup : Markup) : BotProgram Unit :=
  match message with
  | none => pure ()
  | some (chat, id) => ask (.edit chat.id id text markup)

def home (key : FormKey) (message : Option (Chat × MessageId)) : BotProgram Unit := do
  ask (.clearForm key)
  editMessage message "<b>TronForge Wallet Generator</b>\n\nChoose an action." mainMenu
  ask (.answerCallback "" false)

def choosePattern (key : FormKey) (message : Option (Chat × MessageId)) : BotProgram Unit := do
  ask (.clearForm key)
  editMessage message ("<b>Choose a wallet pattern</b>\n\n" ++
    "The first number is the prefix length after T. The second is the suffix length.") patternMenu
  ask (.answerCallback "" false)

def cancelConfirmation (key : FormKey) (message : Option (Chat × MessageId)) : BotProgram Unit := do
  ask (.clearForm key)
  editMessage message "Wallet form canceled." mainMenu
  ask (.answerCallback "" false)

def cancelFunding (key : FormKey) (message : Option (Chat × MessageId)) : BotProgram Unit := do
  ask (.clearForm key)
  editMessage message "Funding request canceled." mainMenu
  ask (.answerCallback "" false)

end Menus

section WalletForm

def prefixPrompt (pattern : PatternType) : String :=
  "<b>" ++ patternLabel pattern ++ " prefix</b>\n\nSend exactly <b>" ++
    String.ofList (pattern.value.toList.takeWhile (· ≠ 'x')) ++
    "</b> characters after the fixed <b>T</b>.\nThe first character must be uppercase or 9. Do not type the T."

def receivePattern (key : FormKey) (message : Option (Chat × MessageId)) (data : Text) : BotProgram Unit :=
  match PatternType.ofName ((data.dropWhile (· ≠ ':')).drop 1) with
  | none => ask (.answerCallback "Unsupported pattern." true)
  | some pattern => do
    ask (.setState key .walletPrefix)
    ask (.updateData key (.pattern pattern.value.toList))
    match message with
    | none => pure ()
    | some (chat, id) =>
      if chat.isGroup then
        ask (.send chat.id (.text (prefixPrompt pattern ++ "\n\nReply to this message with your prefix."))
          (.forceReply "Prefix after T"))
      else ask (.edit chat.id id (prefixPrompt pattern) .none)
    ask (.answerCallback "" false)

/-- `PatternType(data["pattern"])`, where nothing catches the exceptions. -/
def storedPattern (form : Form) : BotProgram PatternType :=
  match form.data.pattern with
  | none => .raise (.unexpected "KeyError: pattern")
  | some name =>
    match PatternType.ofName name with
    | none => .raise (.valueError "not a valid PatternType")
    | some pattern => pure pattern

def receivePrefix (key : FormKey) (chat : Chat) (text : Text) : BotProgram Unit := do
  let form ← ask (.getForm key)
  let pattern ← storedPattern form
  match validateCustomPrefix pattern text with
  | .error error =>
    ask (.send chat.id (.text ("Invalid prefix: " ++ escape error.message)) (forceReply "Try prefix again" chat))
  | .ok addressPrefix => do
    ask (.updateData key (.addressPrefix addressPrefix))
    ask (.setState key .walletSuffix)
    ask (.send chat.id (.text ("Prefix accepted: <code>" ++ escapeText addressPrefix ++
      "</code>\n\nNow send exactly <b>" ++ String.ofList ((pattern.value.toList.dropWhile (· ≠ 'x')).drop 1) ++
      "</b> suffix characters." ++ if chat.isGroup then " Reply to this message." else "")) (forceReply "Suffix" chat))

def receiveSuffix (key : FormKey) (chat : Chat) (text : Text) : BotProgram Unit := do
  let form ← ask (.getForm key)
  let pattern ← storedPattern form
  match validateSuffix pattern text with
  | .error error =>
    ask (.send chat.id (.text ("Invalid suffix: " ++ escape error.message)) (forceReply "Try suffix again" chat))
  | .ok suffix => do
    ask (.updateData key (.suffix suffix))
    ask (.setState key .walletConfirmation)
    match form.data.addressPrefix with
    | none => .raise (.unexpected "KeyError: prefix")
    | some addressPrefix =>
      ask (.send chat.id (.text ("<b>Confirm generation</b>\n\nPattern: <b>" ++ patternLabel pattern ++
        "</b>\nPreview: <code>" ++ escapeText addressPrefix ++ middleDots addressPrefix suffix ++ escapeText suffix ++
        "</code>\n\nAll available GPUs will work on this job.")) confirmationMenu)

/-- `create_job` from the form data. -/
def submitForm (key : FormKey) (sender : Sender) (chat : Chat) (id : MessageId) (pattern : PatternType)
    (addressPrefix suffix : Text) : BotProgram Unit := do
  ask (.clearForm key)
  ask (.answerCallback "Creating job…" false)
  ask (.edit chat.id id "Creating the generation job…" .none)
  match ← (ask (.createJob pattern addressPrefix suffix)).attempt with
  | .error (.tronForgeApiError message) =>
    ask (.edit chat.id id ("Could not create the job: " ++ escape message) mainMenu)
  | .error error => .raise error
  | .ok job => do
    ask (.edit chat.id id "Generation job created. Waiting for scheduler…" .none)
    ask (.monitor ⟨chat.id, id, job.id, sender.id⟩)

def createJob (key : FormKey) (sender : Sender) (message : Option (Chat × MessageId)) : BotProgram Unit :=
  match message with
  | none => ask (.answerCallback "Message is unavailable." true)
  | some (chat, id) => do
    let form ← ask (.getForm key)
    match form.data.pattern.bind PatternType.ofName, form.data.addressPrefix, form.data.suffix with
    | some pattern, some addressPrefix, some suffix => submitForm key sender chat id pattern addressPrefix suffix
    | _, _, _ => do
      ask (.clearForm key)
      ask (.answerCallback "The form expired. Start again." true)

end WalletForm

section Jobs
variable (formatCount : Nat → String) (digits : DigitSet)

def gpuStatus (message : Option (Chat × MessageId)) : BotProgram Unit :=
  match message with
  | none => ask (.answerCallback "" false)
  | some (chat, id) => do
    let shown ← (do
      let fleet ← ask .getGpuFleet
      ask (.edit chat.id id (gpuFleetMessage formatCount fleet) mainMenu)).attempt
    match shown with
    | .ok () => pure ()
    | .error (.tronForgeApiError message) =>
      ask (.edit chat.id id ("Could not load GPU status: " ++ escape message) mainMenu)
    | .error error => .raise error
    ask (.answerCallback "" false)

/-- The buttons of a job in the list. -/
def jobActions (fundingEnabled : Bool) (job : JobRead) : List JobAction :=
  match job.status with
  | .queued | .searching | .verifying => [.watch, .cancel]
  | .ready | .ownershipVerified =>
    if job.result.isSome then if fundingEnabled then [.reveal, .fund] else [.reveal] else []
  | .failed | .canceled | .timedOut => []

def jobLine (job : JobRead) : String :=
  "<code>" ++ shortId job.id ++ "</code> · " ++ job.pattern.value ++ " · <b>" ++ job.status.value ++ "</b>"

def recentJobs (settings : BotSettings) (message : Option (Chat × MessageId)) : BotProgram Unit :=
  match message with
  | none => ask (.answerCallback "" false)
  | some (chat, id) => do
    match ← (ask (.listJobs 8)).attempt with
    | .error (.tronForgeApiError message) =>
      ask (.edit chat.id id ("Could not load jobs: " ++ escape message) mainMenu)
    | .error error => .raise error
    | .ok [] => ask (.edit chat.id id "No generation jobs yet." mainMenu)
    | .ok jobs =>
      let buttons := jobs.flatMap fun job =>
        (jobActions settings.fundingEnabled job).map fun action => (job.id, shortId job.id, action)
      ask (.edit chat.id id ("\n".intercalate (["<b>Recent generation jobs</b>", ""] ++ jobs.map jobLine))
        (recentJobsMenu buttons))
    ask (.answerCallback "" false)

/-- `uuid.UUID` of the end of the data. -/
def readJobId (data : Text) : BotProgram Uuid :=
  match parseUuid digits (afterLastColon data) with
  | .error message => .raise (.valueError message)
  | .ok id => pure id

/-- The end of a handler that catches `ValueError` and `TronForgeApiError`. -/
def alertError : BotError → BotProgram Unit
  | .valueError message | .tronForgeApiError message => ask (.answerCallback message true)
  | error => .raise error

def cancelJob (message : Option (Chat × MessageId)) (data : Text) : BotProgram Unit :=
  match message with
  | none => ask (.answerCallback "" false)
  | some (chat, id) => do
    let canceled ← (do
      let jobId ← readJobId digits data
      ask (.cancelJob jobId)).attempt
    match canceled with
    | .error error => alertError error
    | .ok _ => do
      ask (.edit chat.id id "Generation canceled." mainMenu)
      ask (.answerCallback "" false)

def watchJob (sender : Sender) (message : Option (Chat × MessageId)) (data : Text) : BotProgram Unit :=
  match message with
  | none => ask (.answerCallback "" false)
  | some (chat, id) => do
    let read ← (do
      let jobId ← readJobId digits data
      ask (.getJob jobId)).attempt
    match read with
    | .error error => alertError error
    | .ok job => do
      ask (.edit chat.id id (jobProgress formatCount job) .none)
      ask (.monitor ⟨chat.id, id, job.id, sender.id⟩)
      ask (.answerCallback "Monitoring resumed." false)

/-- `result_chat_id`. -/
def resultChatId (settings : BotSettings) (sender : Sender) (message : Option (Chat × MessageId)) : ChatId :=
  match message with
  | none => sender.id
  | some (chat, _) =>
    let sharedGroup := !settings.restrictUserId && chat.isGroup && settings.allowedGroupId != 0 &&
      chat.id = settings.allowedGroupId
    if settings.publicAccess || sharedGroup then chat.id else sender.id

/-- The part of `reveal_job` that may raise. -/
def sendWallet (settings : BotSettings) (sender : Sender) (message : Option (Chat × MessageId)) (data : Text) :
    BotProgram Unit := do
  let jobId ← readJobId digits data
  let job ← ask (.getJob jobId)
  match job.result with
  | none => .raise (.tronForgeApiError "This wallet is not ready.")
  | some wallet => ask (.send (resultChatId settings sender message) (.wallet wallet job.observedRate)
      (walletResultMenu job.id settings.fundingEnabled))

def revealJob (settings : BotSettings) (sender : Sender) (message : Option (Chat × MessageId)) (data : Text) :
    BotProgram Unit := do
  match ← (sendWallet digits settings sender message data).attempt with
  | .ok () => ask (.answerCallback "Wallet data sent." false)
  | .error .telegramForbidden | .error (.telegramBadRequest _) =>
    ask (.answerCallback (if settings.publicAccess || !settings.restrictUserId then "Cannot send the wallet to this chat."
      else "Open this bot in private, send /start, then press Reveal again.") true)
  | .error error => alertError error

end Jobs

section Funding
variable (digits : DigitSet)

def startFunding (settings : BotSettings) (key : FormKey) (message : Option (Chat × MessageId)) (data : Text) :
    BotProgram Unit :=
  if !settings.fundingEnabled then ask (.answerCallback "Telegram funding is disabled." true)
  else
    match message, parseUuid digits (afterLastColon data) with
    | none, _ => ask (.answerCallback "Message is unavailable." true)
    | some _, .error _ => ask (.answerCallback "Invalid wallet job." true)
    | some (chat, _), .ok jobId => do
      ask (.clearForm key)
      ask (.setState key .fundingAmount)
      ask (.updateData key (.fundingJobId (uuidText jobId)))
      ask (.send chat.id (.text ("<b>Fund wallet</b>\n\nSend an amount from <b>1 to 1,500 USDT</b> " ++
        "with no more than six decimal places.")) (.forceReply "USDT amount"))
      ask (.answerCallback "" false)

/-- What the form takes as an amount: `FUNDING_AMOUNT`, from 1 to 1500. -/
def acceptsAmount (raw : Text) : Bool :=
  let rest := digits.after raw
  let shaped := decide (digits.leading raw ≠ []) &&
    (rest = [] || (rest.head? = some '.' && rest.tail.all digits.isDigit &&
      decide (1 ≤ rest.tail.length ∧ rest.tail.length ≤ 6)))
  shaped && (Decimal.read digits raw).any fun amount =>
    (Decimal.ofNat 1).atMost amount && amount.atMost (.ofNat 1500)

def receiveFundingAmount (key : FormKey) (chat : Chat) (text : Text) : BotProgram Unit :=
  let raw := stripSpace text
  if !acceptsAmount digits raw then
    ask (.send chat.id (.text "Invalid amount. Send a value between 1 and 1,500 with up to six decimals.")
      (.forceReply "USDT amount"))
  else do
    let form ← ask (.getForm key)
    match form.data.fundingJobId.map (parseUuid digits) with
    | some (.ok jobId) => do
      ask (.updateData key (.fundingAmount raw))
      ask (.send chat.id (.text ("<b>Confirm USDT funding</b>\n\nAmount: <b>" ++ escapeText raw ++
        " USDT</b>\nWallet job: <code>" ++ shortId jobId ++ "</code>\n\n" ++
        "The request becomes irreversible after its signed transaction is broadcast.")) (fundingConfirmationMenu jobId))
    | _ => do
      ask (.clearForm key)
      ask (.send chat.id (.text "The funding form expired. Open the wallet again.") .none)

/-- `confirm_funding` of a form that names the job of the button. -/
def submitFunding (key : FormKey) (chat : Chat) (id : MessageId) (jobId : Uuid) (amount : Text) : BotProgram Unit := do
  ask (.answerCallback "Submitting funding request…" false)
  match ← (ask (.createFunding jobId amount)).attempt with
  | .error (.tronForgeApiError message) =>
    ask (.edit chat.id id ("Could not create funding request: " ++ escape message) mainMenu)
  | .error error => .raise error
  | .ok funding => do
    ask (.clearForm key)
    ask (.edit chat.id id "Funding request created. Waiting for signer…" .none)
    ask (.monitorFunding ⟨chat.id, id, funding.jobId⟩)

/-- The job and the amount of a form, if it is about the job of the button. -/
def confirmedFunding (data : Text) (form : FormData) : Option (Uuid × Text) :=
  match parseUuid digits (afterLastColon data), form.fundingJobId, form.fundingAmount with
  | .ok jobId, some stored, some amount => if stored = uuidText jobId then some (jobId, amount) else none
  | _, _, _ => none

def confirmFunding (settings : BotSettings) (key : FormKey) (message : Option (Chat × MessageId)) (data : Text) :
    BotProgram Unit :=
  match settings.fundingEnabled, message with
  | true, some (chat, id) => do
    let form ← ask (.getForm key)
    match confirmedFunding digits data form.data with
    | some (jobId, amount) => submitFunding key chat id jobId amount
    | none => do
      ask (.clearForm key)
      ask (.answerCallback "The funding form expired. Start again." true)
  | _, _ => ask (.answerCallback "Telegram funding is disabled." true)

end Funding

section Dispatch
variable (settings : BotSettings) (formatCount : Nat → String) (digits : DigitSet)

/-- The handlers that are registered for messages. -/
def runMessage (key : FormKey) (chat : Chat) (text : Text) : Handler → BotProgram Unit
  | .start => start settings key chat
  | .cancelForm => cancelForm key chat
  | .receivePrefix => receivePrefix key chat text
  | .receiveSuffix => receiveSuffix key chat text
  | .receiveFundingAmount => receiveFundingAmount digits key chat text
  | _ => pure ()

/-- The handlers that are registered for buttons. -/
def runCallback (key : FormKey) (sender : Sender) (message : Option (Chat × MessageId)) (data : Text) :
    Handler → BotProgram Unit
  | .home => home key message
  | .choosePattern => choosePattern key message
  | .receivePattern => receivePattern key message data
  | .cancelConfirmation => cancelConfirmation key message
  | .createJob => createJob key sender message
  | .gpuStatus => gpuStatus formatCount message
  | .recentJobs => recentJobs settings message
  | .cancelJob => cancelJob digits message data
  | .watchJob => watchJob formatCount digits sender message data
  | .revealJob => revealJob digits settings sender message data
  | .startFunding => startFunding digits settings key message data
  | .cancelFunding => cancelFunding key message
  | .confirmFunding => confirmFunding digits settings key message data
  | _ => pure ()

def runHandler (key : FormKey) (handler : Handler) : Update → BotProgram Unit
  | .message _ chat text => runMessage settings digits key chat (text.getD []) handler
  | .callback sender message data => runCallback settings formatCount digits key sender message (data.getD []) handler

/-- What the middleware answers to a message it refuses. -/
def refusal (update : Update) (sender : Sender) (chat : Chat) : String :=
  if chat.isGroup && update.isStartMessage &&
      (!settings.restrictUserId || settings.allowedUserId = 0 || sender.id = settings.allowedUserId) then
    "To authorize this group, set this value in backend/.env and restart the bot:\n\n" ++
      "<code>TRONFORGE_TELEGRAM_ALLOWED_GROUP_ID=" ++ toString chat.id ++ "</code>"
  else if settings.restrictUserId && settings.allowedUserId = 0 && chat.type = .privateChat then
    "Bot setup is incomplete. Add this value to backend/app/local_constants.py and restart:\n\n" ++
      "<code>TELEGRAM_ALLOWED_USER_ID = " ++ toString sender.id ++ "</code>"
  else "Access denied."

/-- A private chat that opens itself for delivery. -/
def Update.opensDelivery (update : Update) : Bool :=
  !settings.restrictUserId && !settings.publicAccess &&
    update.chat.any (fun chat => chat.type = .privateChat) && update.isStartMessage

/-- `OperatorOnlyMiddleware.__call__`. -/
def guarded (update : Update) (handler : BotProgram Unit) : BotProgram Unit :=
  if update.authorized settings || update.opensDelivery settings then handler
  else
    match update with
    | .callback .. => ask (.answerCallback "Wallet controls are available only in the configured group." true)
    | .message none .. => pure ()
    | .message (some sender) chat _ => ask (.send chat.id (.text (refusal settings update sender chat)) .none)

/-- An update on its way through the form storage, the filters and the middleware. -/
def handleUpdate (update : Update) : BotProgram Unit :=
  match update.formKey with
  | none =>
    match update.handler settings none with
    | none => pure ()
    | some _ => guarded settings update (.raise (.unexpected "missing argument: state"))
  | some key => do
    let form ← ask (.getForm key)
    match update.handler settings form.state with
    | none => pure ()
    | some handler => guarded settings update (runHandler settings formatCount digits key handler update)

end Dispatch

end TronForge.Telegram
