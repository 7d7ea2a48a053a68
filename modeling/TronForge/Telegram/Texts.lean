import TronForge.Funding.CreateFunding
import TronForge.Library.Digits
import TronForge.Service.ServerWallet
import TronForge.Service.Validators

/-! What the Telegram bot writes: the texts of its messages, its keyboards, and the
identifiers in the data of its buttons. -/

namespace TronForge.Telegram

open Generator (JobStatus PatternType GpuStatus)
open Native (Text hexCharacter)
open Funding (FundingRead FundingStatus)
open Library (DigitSet)
open Service (intBase16)

/-- `uuid.UUID`. -/
abbrev Uuid := Fin (2 ^ 128)

/-- `GenerationResultRead`, as far as the bot reads it. -/
structure WalletRead where
  address : String
  privateKey : String
  deriving DecidableEq, Repr

/-- `GenerationJobRead`, as far as the bot reads it. -/
structure JobRead where
  id : Uuid
  pattern : PatternType
  addressPrefix : Text
  suffix : Text
  status : JobStatus
  attempts : Nat
  observedRate : Option Nat
  failureMessage : Option String
  result : Option WalletRead
  deriving DecidableEq, Repr

structure DeviceRead where
  deviceIndex : Int
  name : String
  status : GpuStatus
  benchmarkRate : Nat
  deriving DecidableEq, Repr

structure FleetRead where
  mode : String
  total : Nat
  ready : Nat
  searching : Nat
  combinedBenchmarkRate : Nat
  devices : List DeviceRead
  deriving DecidableEq, Repr

/-! ### Identifiers -/

/-- The 32 digits of a UUID. -/
def uuidHex (id : Uuid) : Text := (Library.Digits.fixed 16 32 id.val).map hexCharacter

/-- `str(uuid)`. -/
def uuidText (id : Uuid) : Text :=
  let hex := uuidHex id
  hex.take 8 ++ '-' :: (hex.drop 8).take 4 ++ '-' :: (hex.drop 12).take 4 ++ '-' :: (hex.drop 16).take 4 ++
    '-' :: hex.drop 20

/-- `text.replace(pattern, "")`; `skip` characters of an occurrence are still to be left out. -/
def removeAll (pattern : Text) : (skip : Nat) → Text → Text
  | _, [] => []
  | skip + 1, _ :: rest => removeAll pattern skip rest
  | 0, character :: rest =>
    if pattern.isPrefixOf (character :: rest) then removeAll pattern (pattern.length - 1) rest
    else character :: removeAll pattern 0 rest

/-- `text.strip("{}")`. -/
def stripBraces (text : Text) : Text :=
  let brace (character : Char) : Bool := character = '\x7b' || character = '\x7d'
  ((text.dropWhile brace).reverse.dropWhile brace).reverse

/-- `uuid.UUID(text)`, with the text of its `ValueError`. -/
def parseUuid (digits : DigitSet) (text : Text) : Except String Uuid := do
  let hex := removeAll "uuid:".toList 0 (removeAll "urn:".toList 0 text)
  let hex := (stripBraces hex).filter (· ≠ '-')
  if hex.length ≠ 32 then throw "badly formed hexadecimal UUID string"
  else
    let value ← intBase16 digits hex
    if fits : 0 ≤ value ∧ value.toNat < 2 ^ 128 then return ⟨value.toNat, fits.2⟩
    else throw "int is out of range (need a 128-bit value)"

/-- `text.rsplit(":", 1)[1]` of a text with a colon. -/
def afterLastColon (text : Text) : Text := (text.reverse.takeWhile (· ≠ ':')).reverse

/-! ### Messages -/

/-- `html.escape`. -/
def escape (text : String) : String :=
  text.toList.foldl (fun escaped character => escaped ++
    match character with
    | '&' => "&amp;"
    | '<' => "&lt;"
    | '>' => "&gt;"
    | '\x22' => "&quot;"
    | '\x27' => "&#x27;"
    | other => String.singleton other) ""

def escapeText (text : Text) : String := escape (String.ofList text)

def statusLabel : JobStatus → String
  | .queued => "Waiting in queue"
  | .searching => "Searching"
  | .verifying => "Verifying result"
  | .ready | .ownershipVerified => "Wallet ready"
  | .failed => "Failed"
  | .canceled => "Canceled"
  | .timedOut => "Timed out"

def fundingLabel : FundingStatus → String
  | .requested => "Queued"
  | .preparing => "Preparing transaction"
  | .signed => "Signed securely"
  | .broadcast => "Waiting for solidification"
  | .confirmed => "Confirmed"
  | .failed => "Failed"
  | .unknown => "Reconciling uncertain broadcast"

def gpuStatusValue : GpuStatus → String
  | .starting => "starting"
  | .selfTesting => "self_testing"
  | .ready => "ready"
  | .searching => "searching"
  | .unhealthy => "unhealthy"
  | .offline => "offline"

def shortId (id : Uuid) : String := String.ofList ((uuidText id).take 8)

/-- The dots between the ends of a pattern. -/
def middleDots (addressPrefix suffix : Text) : String :=
  String.ofList (List.replicate (max 5 (34 - addressPrefix.length - suffix.length)) '•')

section
variable (formatCount : Nat → String)

/-- `job_progress`; `formatCount` stands for `format_count`, which rounds floats. -/
def jobProgress (job : JobRead) : String :=
  let rateLine := match job.observedRate with
    | some rate => "Observed average: <b>" ++ formatCount rate ++ "/s</b>"
    | none =>
      if job.status = .queued then "Observed average: <b>waiting for GPU</b>"
      else "Observed average: <b>measuring…</b>"
  "\n".intercalate (["<b>TRON wallet generation</b>", "",
    "Status: <b>" ++ statusLabel job.status ++ "</b>",
    "Pattern: <code>" ++ escapeText job.addressPrefix ++ middleDots job.addressPrefix job.suffix ++
      escapeText job.suffix ++ "</code>",
    "Candidates checked: <b>" ++ formatCount job.attempts ++ "</b>", rateLine,
    "Job: <code>" ++ shortId job.id ++ "</code>"] ++
    match job.failureMessage with
    | some message => if message = "" then [] else ["", "Reason: " ++ escape message]
    | none => [])

def gpuFleetMessage (fleet : FleetRead) : String :=
  "\n".intercalate (["<b>GPU fleet</b>", "", "Mode: <b>" ++ escape fleet.mode ++ "</b>",
    "Devices: <b>" ++ toString fleet.total ++ "</b>", "Ready: <b>" ++ toString fleet.ready ++ "</b>",
    "Searching: <b>" ++ toString fleet.searching ++ "</b>",
    "Combined benchmark: <b>" ++ formatCount fleet.combinedBenchmarkRate ++ "/s</b>"] ++
    fleet.devices.flatMap fun device => ["",
      "GPU " ++ toString device.deviceIndex ++ ": <b>" ++ escape device.name ++ "</b>",
      "Status: " ++ escape (gpuStatusValue device.status) ++ " · benchmark " ++ formatCount device.benchmarkRate ++ "/s"])

end

/-- `funding_progress`. -/
def fundingProgress (funding : FundingRead) : String :=
  "\n".intercalate (["<b>TRON USDT funding</b>", "", "Status: <b>" ++ fundingLabel funding.status ++ "</b>",
    "Amount: <b>" ++ escape funding.amountUsdt ++ " USDT</b>",
    "Destination: <code>" ++ escape funding.destinationAddress ++ "</code>",
    "Network: <b>" ++ escape funding.network.toUpper ++ "</b>"] ++
    (match funding.txid with
      | some txid => if txid = "" then [] else ["", "Transaction: <code>" ++ escape txid ++ "</code>"]
      | none => []) ++
    (match funding.failureMessage with
      | some message => if message = "" then [] else ["", "Detail: " ++ escape message]
      | none => []) ++
    if funding.status = .unknown then
      ["", "The original transaction is still being reconciled. Do not create a replacement."]
    else [])

/-! ### Keyboards -/

structure Button where
  text : String
  callbackData : Text
  deriving DecidableEq, Repr

/-- What comes with a message: rows of buttons, or `ForceReply` with its placeholder. -/
inductive Markup where
  | none
  | buttons (rows : List (List Button))
  | forceReply (placeholder : String)
  deriving DecidableEq, Repr

/-- What a button of the recent jobs does. -/
inductive JobAction where
  | watch | cancel | reveal | fund
  deriving DecidableEq, Repr

def JobAction.value : JobAction → Text
  | .watch => "watch".toList
  | .cancel => "cancel".toList
  | .reveal => "reveal".toList
  | .fund => "fund".toList

def JobAction.verb : JobAction → String
  | .watch => "Watch"
  | .cancel => "Cancel"
  | .reveal => "Show"
  | .fund => "Fund"

/-- The data of a button that acts on a job. -/
def jobData (action : JobAction) (id : Uuid) : Text := "job:".toList ++ action.value ++ ':' :: uuidText id

def patternData (pattern : PatternType) : Text := "pattern:".toList ++ pattern.value.toList

def confirmData (id : Uuid) : Text := "funding:confirm".toList ++ ':' :: uuidText id

def patternLabel (pattern : PatternType) : String :=
  String.ofList (pattern.value.toList.flatMap fun character => if character = 'x' then " × ".toList else [character])

def mainMenu : Markup := .buttons [[⟨"Generate wallet", "menu:new".toList⟩],
  [⟨"Recent jobs", "menu:jobs".toList⟩, ⟨"GPU status", "menu:gpus".toList⟩]]

def patternMenu : Markup := .buttons [
  [⟨"2 × 2", patternData .twoByTwo⟩, ⟨"3 × 4", patternData .threeByFour⟩],
  [⟨"2 × 5", patternData .twoByFive⟩, ⟨"4 × 3", patternData .fourByThree⟩],
  [⟨"Back", "menu:home".toList⟩]]

def confirmationMenu : Markup := .buttons [[⟨"Start generation", "form:create".toList⟩],
  [⟨"Cancel", "form:cancel".toList⟩]]

def cancelJobMenu (id : Uuid) : Markup := .buttons [[⟨"Cancel generation", jobData .cancel id⟩]]

def recentJobsMenu (jobs : List (Uuid × String × JobAction)) : Markup :=
  .buttons ((jobs.map fun (id, label, action) => [⟨action.verb ++ " " ++ label, jobData action id⟩]) ++
    [[⟨"Back", "menu:home".toList⟩]])

def walletResultMenu (id : Uuid) (fundingEnabled : Bool) : Markup :=
  if fundingEnabled then .buttons [[⟨"Fund wallet with USDT", jobData .fund id⟩]] else .none

def fundingConfirmationMenu (id : Uuid) : Markup := .buttons [[⟨"Confirm funding", confirmData id⟩],
  [⟨"Cancel", "funding:cancel".toList⟩]]

end TronForge.Telegram
