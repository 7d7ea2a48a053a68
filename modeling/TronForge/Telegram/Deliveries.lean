import TronForge.Telegram.Guard

/-! What the history of the bot shows: where private keys were sent, who has asked for each
call to the API, what the forms hold, and where the buttons lead. -/

namespace TronForge.Telegram

open Library
open Native (Text)
open Service (GenerationJobCreate request_iff)

/-- Actions that play to a pool with a property reach one. -/
theorem replay_reachable {settings : BotSettings} {formatCount : Nat → String} {digits : DigitSet}
    (actions : List (bot settings formatCount digits).Event) (holds : BotWorld → Bool)
    (played : ((bot settings formatCount digits).machine.replay Machine.anyAction actions ⟨{}, [], []⟩).any
      (fun pool => holds pool.world) = true) :
    ∃ pool, Reachable settings formatCount digits pool ∧ holds pool.world = true := by
  obtain ⟨pool, ends, member⟩ := (Option.any_eq_true _ _).mp played
  exact ⟨pool, Machine.replay_run actions ends, member⟩

/-! A bot of one user, and what that user sends. -/

def ownerSettings : BotSettings := ⟨7, true, 0, false, true, []⟩

def ownerPress (data : Text) : Update := .callback ⟨7, false⟩ (some (⟨7, .privateChat⟩, 3)) (some data)

def ownerText (text : Text) : Update := .message (some ⟨7, false⟩) ⟨7, .privateChat⟩ (some text)

def readyJob : JobRead := ⟨5, .twoByTwo, "TAB".toList, "cd".toList, .ready, 9, none, none, some ⟨"T", "k"⟩⟩

abbrev OwnerEvent := (bot ownerSettings toString DigitSet.plain).Event

def revealActions : List OwnerEvent :=
  [.arrive (.update (ownerPress (jobData .reveal 5))), .start 0 0, .answer 0 (.job readyJob)]

def formActions : List OwnerEvent :=
  [.arrive (.update (ownerPress (patternData .twoByTwo))), .start 0 0,
    .arrive (.update (ownerText "AB".toList)), .start 0 1, .arrive (.update (ownerText "cd".toList)), .start 0 2]

def watchActions : List OwnerEvent :=
  [.arrive (.update (ownerPress (jobData .watch 5))), .start 0 0, .answer 0 (.job readyJob), .answer 0 .done,
    .start 0 1, .answer 1 (.job readyJob), .answer 1 .done, .answer 1 .done]

def fundActions : List OwnerEvent :=
  [.arrive (.update (ownerPress (jobData .fund 5))), .start 0 0,
    .arrive (.update (ownerText "2.50".toList)), .start 0 1,
    .arrive (.update (ownerPress (confirmData 5))), .start 0 2, .answer 2 .done]

/-- The update that a task runs for: its own, or one whose handler has asked for this monitor. -/
def BotTask.RunsFor (world : BotWorld) (update : Update) : BotTask → Prop
  | .update incoming => incoming = update
  | .monitor _ watch _ => BotEvent.called (.update update) (.monitor watch) ∈ world.history
  | .monitorFunding _ watch _ => BotEvent.called (.update update) (.monitorFunding watch) ∈ world.history
  | .jobDone _ | .fundingDone _ => False

/-- What a pressed button asks of the API. -/
def Update.requests (settings : BotSettings) (digits : DigitSet) (update : Update) : BotCall → Prop
  | .createJob .. => update.pressed = some .createJob
  | .cancelJob id => update.pressed = some .cancelJob ∧ update.names digits id
  | .getJob id => (update.pressed = some .watchJob ∨ update.pressed = some .revealJob) ∧ update.names digits id
  | .createFunding id amount => settings.fundingEnabled = true ∧ update.pressed = some .confirmFunding ∧
      update.names digits id ∧ acceptsAmount digits amount = true
  | .listJobs _ => update.pressed = some .recentJobs
  | .getGpuFleet => update.pressed = some .gpuStatus
  | _ => False

/-- What a task asks of the API for its update: a monitor only reads what it watches. -/
def BotTask.requests (settings : BotSettings) (digits : DigitSet) (update : Update) : BotTask → BotCall → Prop
  | .update _, call => update.requests settings digits call
  | .monitor _ watch _, call => (update.pressed = some .createJob ∨ update.pressed = some .watchJob) ∧
      update.watches watch ∧ call = .getJob watch.jobId
  | .monitorFunding _ watch _, call => settings.fundingEnabled = true ∧ update.pressed = some .confirmFunding ∧
      update.watchesFunding watch ∧ call = .getFunding watch.jobId
  | _, _ => False

/-- The markup that comes with a call to Telegram. -/
def BotCall.shownMarkup : BotCall → Markup
  | .send _ _ markup | .edit _ _ _ markup => markup
  | _ => .none

section History
variable {settings : BotSettings} {digits : DigitSet} {formatCount : Nat → String}
  {pool : (bot settings formatCount digits).Pool} {task : BotTask} {call : BotCall} {place : ChatId}
  {wallet : WalletRead} {observedRate : Option Nat} {markup : Markup}

theorem permitsField_changesForm {update : Update} (permits : update.permitsField settings call) :
    call.changesForm = true := by
  cases call with
  | setState key state => rfl
  | updateData key field => rfl
  | _ => cases permits

/-- What a handler has called is what its update permits. -/
theorem handler_permitted {world : BotWorld} {update : Update} (sound : world.Sound settings digits)
    (called : BotEvent.called (.update update) call ∈ world.history) (kept : call.changesForm = false) :
    update ∈ world.arrived ∧ update.permits settings digits call := by
  obtain ⟨arrived, own | field⟩ := sound.history _ _ called
  · exact ⟨arrived, own⟩
  · rw [permitsField_changesForm field] at kept
    cases kept

/-- A private key is sent only to where the update may have it that its task runs for. -/
theorem wallets_stay_inside (reachable : Reachable settings formatCount digits pool)
    (sent : BotEvent.called task (.send place (.wallet wallet observedRate) markup) ∈ pool.world.history) :
    ∃ update ∈ pool.world.arrived, task.RunsFor pool.world update ∧ update.authorized settings = true ∧
      settings.destination update = some place := by
  have sound := reachable_sound reachable
  have permits := sound.history _ _ sent
  cases task with
  | update incoming =>
    obtain ⟨arrived, own⟩ := handler_permitted sound sent rfl
    exact ⟨incoming, arrived, rfl, own.1, own.2.2.1⟩
  | monitor id watch previousText =>
    obtain ⟨⟨incoming, asked⟩, target, -⟩ := permits
    obtain ⟨arrived, authorized, -, watches⟩ := handler_permitted sound asked rfl
    refine ⟨incoming, arrived, asked, authorized, ?_⟩
    cases incoming with
    | message sender chat text => cases watches
    | callback sender message data =>
      cases message with
      | none => cases watches
      | some shown =>
        obtain ⟨chat, -, recipient⟩ := watches
        rw [authorized_destination authorized, target, chat, recipient]
  | monitorFunding id watch previousText => cases permits.2
  | jobDone jobId => cases permits
  | fundingDone jobId => cases permits

theorem wallet_sent_to_owner : ∃ pool, Reachable ownerSettings toString DigitSet.plain pool ∧
    ∃ update ∈ pool.world.arrived,
      (BotTask.update (ownerPress (jobData .reveal 5))).RunsFor pool.world update ∧
      update.authorized ownerSettings = true ∧ ownerSettings.destination update = some 7 := by
  obtain ⟨pool, reachable, sent⟩ := replay_reachable revealActions (fun world => decide (BotEvent.called
    (.update (ownerPress (jobData .reveal 5))) (.send 7 (.wallet ⟨"T", "k"⟩ none) (walletResultMenu 5 true)) ∈
      world.history)) rfl
  exact ⟨pool, reachable, wallets_stay_inside reachable (of_decide_eq_true sent)⟩

/-- A monitor asks the API for its job only. -/
theorem permitsWatch_api {watch : JobWatch} (permits : Update.permitsWatch settings watch call)
    (toApi : call.toApi = true) : call = .getJob watch.jobId := by
  cases call with
  | getJob id => exact congrArg _ permits
  | createJob pattern addressPrefix suffix => cases permits
  | listJobs limit => cases permits
  | cancelJob id => cases permits
  | getGpuFleet => cases permits
  | createFunding id amount => cases permits
  | getFunding id => cases permits
  | _ => cases toApi

theorem permitsFundingWatch_api {watch : FundingWatch} (permits : Update.permitsFundingWatch watch call)
    (toApi : call.toApi = true) : call = .getFunding watch.jobId := by
  cases call with
  | getFunding id => exact congrArg _ permits
  | createJob pattern addressPrefix suffix => cases permits
  | getJob id => cases permits
  | listJobs limit => cases permits
  | cancelJob id => cases permits
  | getGpuFleet => cases permits
  | createFunding id amount => cases permits
  | _ => cases toApi

theorem permits_api {update : Update} (permits : update.permits settings digits call) (toApi : call.toApi = true) :
    update.authorized settings = true ∧ update.requests settings digits call := by
  cases call with
  | createJob pattern addressPrefix suffix => exact permits
  | getJob id => exact permits
  | listJobs limit => exact permits
  | cancelJob id => exact permits
  | getGpuFleet => exact permits
  | createFunding id amount => exact permits
  | getFunding id => cases permits
  | _ => cases toApi

theorem toApi_keepsForm (toApi : call.toApi = true) : call.changesForm = false := by
  cases call with
  | setState key state => cases toApi
  | updateData key field => cases toApi
  | _ => rfl

/-- The API is called for authorized updates only, and as the update asks that the task runs for. -/
theorem api_calls_requested (reachable : Reachable settings formatCount digits pool)
    (called : BotEvent.called task call ∈ pool.world.history) (toApi : call.toApi = true) :
    ∃ update ∈ pool.world.arrived, task.RunsFor pool.world update ∧ update.authorized settings = true ∧
      task.requests settings digits update call := by
  have sound := reachable_sound reachable
  have permits := sound.history _ _ called
  cases task with
  | update incoming =>
    obtain ⟨arrived, own⟩ := handler_permitted sound called (toApi_keepsForm toApi)
    exact ⟨incoming, arrived, rfl, permits_api own toApi⟩
  | monitor id watch previousText =>
    obtain ⟨⟨incoming, asked⟩, own⟩ := permits
    obtain ⟨arrived, authorized, pressed, watches⟩ := handler_permitted sound asked rfl
    exact ⟨incoming, arrived, asked, authorized, pressed, watches, permitsWatch_api own toApi⟩
  | monitorFunding id watch previousText =>
    obtain ⟨⟨incoming, asked⟩, own⟩ := permits
    obtain ⟨arrived, authorized, enabled, pressed, watches⟩ := handler_permitted sound asked rfl
    exact ⟨incoming, arrived, asked, authorized, enabled, pressed, watches, permitsFundingWatch_api own toApi⟩
  | jobDone jobId =>
    rw [show call = .popTask jobId from permits] at toApi
    cases toApi
  | fundingDone jobId =>
    rw [show call = .popFundingTask jobId from permits] at toApi
    cases toApi

theorem reveal_requested : ∃ pool, Reachable ownerSettings toString DigitSet.plain pool ∧
    ∃ update ∈ pool.world.arrived,
      (BotTask.update (ownerPress (jobData .reveal 5))).RunsFor pool.world update ∧
      update.authorized ownerSettings = true ∧
      (BotTask.update (ownerPress (jobData .reveal 5))).requests ownerSettings DigitSet.plain update (.getJob 5) := by
  obtain ⟨pool, reachable, sent⟩ := replay_reachable revealActions (fun world => decide (BotEvent.called
    (.update (ownerPress (jobData .reveal 5))) (.getJob 5) ∈ world.history)) rfl
  exact ⟨pool, reachable, api_calls_requested reachable (of_decide_eq_true sent) rfl⟩

/-- What can be confirmed is what the server takes. -/
theorem confirmation_accepted (reachable : Reachable settings formatCount digits pool) {key : FormKey}
    (waiting : (pool.world.forms key).state = some .walletConfirmation) :
    ∃ pattern addressPrefix suffix, (pool.world.forms key).data.pattern = some pattern.value.toList ∧
      (pool.world.forms key).data.addressPrefix = some addressPrefix ∧
      (pool.world.forms key).data.suffix = some suffix ∧
      (⟨pattern, addressPrefix, suffix⟩ : GenerationJobCreate).validatePattern = .ok () := by
  have holds := ((reachable_sound reachable).forms key).state
  simp only [Form.Holds, waiting] at holds
  obtain ⟨pattern, afterT, suffix, stored, front, back, fits⟩ := holds
  exact ⟨pattern, _, suffix, stored, front, back, request_iff.mpr fits⟩

theorem form_accepted : ∃ pool, Reachable ownerSettings toString DigitSet.plain pool ∧
    ∃ pattern addressPrefix suffix, (pool.world.forms ⟨7, 7⟩).data.pattern = some pattern.value.toList ∧
      (pool.world.forms ⟨7, 7⟩).data.addressPrefix = some addressPrefix ∧
      (pool.world.forms ⟨7, 7⟩).data.suffix = some suffix ∧
      (⟨pattern, addressPrefix, suffix⟩ : GenerationJobCreate).validatePattern = .ok () := by
  obtain ⟨pool, reachable, waiting⟩ := replay_reachable formActions (fun world =>
    decide ((world.forms ⟨7, 7⟩).state = some .walletConfirmation)) rfl
  exact ⟨pool, reachable, confirmation_accepted reachable (of_decide_eq_true waiting)⟩

/-- Forms are filled in for authorized users only. -/
theorem forms_authorized (reachable : Reachable settings formatCount digits pool) {key : FormKey}
    (filled : pool.world.forms key ≠ {}) :
    ∃ update ∈ pool.world.arrived, update.authorized settings = true ∧ update.formKey = some key :=
  (reachable_sound reachable).owned key filled

theorem form_authorized : ∃ pool, Reachable ownerSettings toString DigitSet.plain pool ∧
    ∃ update ∈ pool.world.arrived, update.authorized ownerSettings = true ∧ update.formKey = some ⟨7, 7⟩ := by
  obtain ⟨pool, reachable, filled⟩ := replay_reachable formActions (fun world =>
    decide (world.forms ⟨7, 7⟩ ≠ {})) rfl
  exact ⟨pool, reachable, forms_authorized reachable (of_decide_eq_true filled)⟩

theorem allowed_offers (permits : task.Permits settings digits pool.world call) : call.shownMarkup.Offers := by
  cases task with
  | update incoming =>
    rcases permits.2 with own | field
    · cases call with
      | send place content markup =>
        cases content with
        | text text => exact own
        | wallet wallet observedRate => exact own.2.2.2
      | edit chat message text markup => exact own
      | _ => trivial
    · cases call with
      | send place content markup => cases field
      | edit chat message text markup => cases field
      | _ => trivial
  | monitor id watch previousText =>
    cases call with
    | send place content markup =>
      cases content with
      | text text => exact permits.2
      | wallet wallet observedRate => exact permits.2.2
    | edit chat message text markup => exact permits.2
    | _ => trivial
  | monitorFunding id watch previousText =>
    cases call with
    | send place content markup => cases permits.2
    | edit chat message text markup => exact permits.2
    | _ => trivial
  | jobDone jobId =>
    rw [show call = .popTask jobId from permits]
    trivial
  | fundingDone jobId =>
    rw [show call = .popFundingTask jobId from permits]
    trivial

/-- Every button that the bot has shown leads to a handler that understands it. -/
theorem buttons_understood (reachable : Reachable settings formatCount digits pool)
    (called : BotEvent.called task call ∈ pool.world.history) {rows : List (List Button)}
    (shown : call.shownMarkup = .buttons rows) {row : List Button} (line : row ∈ rows) {button : Button}
    (inside : button ∈ row) : ∃ offer : Offer, button.callbackData = offer.data ∧ offer.Understood := by
  have offers := allowed_offers ((reachable_sound reachable).history _ _ called)
  rw [shown] at offers
  obtain ⟨offer, same⟩ := offers row line button inside
  exact ⟨offer, same, offer.understood⟩

theorem fund_button_understood : ∃ offer : Offer, jobData .fund 5 = offer.data ∧ offer.Understood := by
  obtain ⟨pool, reachable, sent⟩ := replay_reachable revealActions (fun world => decide (BotEvent.called
    (.update (ownerPress (jobData .reveal 5))) (.send 7 (.wallet ⟨"T", "k"⟩ none) (walletResultMenu 5 true)) ∈
      world.history)) rfl
  exact buttons_understood reachable (of_decide_eq_true sent) rfl List.mem_cons_self List.mem_cons_self

end History

end TronForge.Telegram
