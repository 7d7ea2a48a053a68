import TronForge.Telegram.Worlds

/-! The handlers make the calls that their updates permit, and the turns of a monitor
those that the monitor permits. -/

namespace TronForge.Telegram

open Library
open Generator (JobStatus PatternType)
open Native (Text)

section Programs
variable {α β : Type} {allowed : BotCall → Prop} {returns : β → Prop} {call : BotCall}

theorem abides_ask (permitted : allowed call) : Program.Abides (I := botCalls) allowed (fun _ => True) (ask call) :=
  Program.abides_perform permitted fun _ => trivial

theorem abides_ask_bind {rest : BotReply call → BotProgram β} (permitted : allowed call)
    (resume : ∀ reply, (rest reply).Abides allowed returns) : (ask call >>= rest).Abides allowed returns :=
  (abides_ask permitted).bind fun reply _ => resume reply

theorem abides_attempt_bind {program : BotProgram α} {rest : Except BotError α → BotProgram β}
    (abides : program.Abides allowed fun _ => True) (resume : ∀ outcome, (rest outcome).Abides allowed returns) :
    (program.attempt >>= rest).Abides allowed returns := by
  have attempted : program.attempt.Abides allowed fun _ => True := abides.attempt (fun _ _ => trivial) fun _ => trivial
  exact attempted.bind fun outcome _ => resume outcome

end Programs

section Markups
variable {id : Uuid}

theorem offered_fixed {data : Text} (handler : Handler) (listed : (data, false, handler) ∈ callbackFilters) :
    ∃ offer : Offer, data = offer.data := ⟨.fixed data handler listed, rfl⟩

theorem offered_job (action : JobAction) (id : Uuid) : ∃ offer : Offer, jobData action id = offer.data :=
  ⟨.job action id, rfl⟩

theorem offered_pattern (pattern : PatternType) : ∃ offer : Offer, patternData pattern = offer.data :=
  ⟨.pattern pattern, rfl⟩

theorem offers_buttons {rows : List (List Button)}
    (known : ∀ button ∈ rows.flatten, ∃ offer : Offer, button.callbackData = offer.data) :
    (Markup.buttons rows).Offers :=
  fun _ row _ button => known _ (List.mem_flatten.mpr ⟨_, row, button⟩)

theorem offers_mainMenu : mainMenu.Offers := by
  apply offers_buttons
  intro button member
  simp only [List.flatten_cons, List.flatten_nil, List.append_nil, List.cons_append, List.nil_append,
    List.mem_cons, List.not_mem_nil, or_false] at member
  rcases member with rfl | rfl | rfl
  · exact offered_fixed .choosePattern (by decide)
  · exact offered_fixed .recentJobs (by decide)
  · exact offered_fixed .gpuStatus (by decide)

theorem offers_patternMenu : patternMenu.Offers := by
  apply offers_buttons
  intro button member
  simp only [List.flatten_cons, List.flatten_nil, List.append_nil, List.cons_append, List.nil_append,
    List.mem_cons, List.not_mem_nil, or_false] at member
  rcases member with rfl | rfl | rfl | rfl | rfl
  · exact offered_pattern _
  · exact offered_pattern _
  · exact offered_pattern _
  · exact offered_pattern _
  · exact offered_fixed .home (by decide)

theorem offers_confirmationMenu : confirmationMenu.Offers := by
  apply offers_buttons
  intro button member
  simp only [List.flatten_cons, List.flatten_nil, List.append_nil, List.cons_append, List.nil_append,
    List.mem_cons, List.not_mem_nil, or_false] at member
  rcases member with rfl | rfl
  · exact offered_fixed .createJob (by decide)
  · exact offered_fixed .cancelConfirmation (by decide)

theorem offers_cancelJobMenu : (cancelJobMenu id).Offers := by
  apply offers_buttons
  intro button member
  cases List.mem_singleton.mp member
  exact offered_job .cancel id

theorem offers_recentJobsMenu (jobs : List (Uuid × String × JobAction)) : (recentJobsMenu jobs).Offers := by
  apply offers_buttons
  intro button member
  obtain ⟨row, rows, inside⟩ := List.mem_flatten.mp member
  rcases List.mem_append.mp rows with job | back
  · obtain ⟨⟨id, label, action⟩, -, rfl⟩ := List.mem_map.mp job
    cases List.mem_singleton.mp inside
    exact offered_job action id
  · cases List.mem_singleton.mp back
    cases List.mem_singleton.mp inside
    exact offered_fixed .home (by decide)

theorem offers_walletResultMenu (fundingEnabled : Bool) : (walletResultMenu id fundingEnabled).Offers := by
  rw [walletResultMenu]
  split
  · apply offers_buttons
    intro button member
    cases List.mem_singleton.mp member
    exact offered_job .fund id
  · trivial

theorem offers_fundingConfirmationMenu : (fundingConfirmationMenu id).Offers := by
  apply offers_buttons
  intro button member
  simp only [List.flatten_cons, List.flatten_nil, List.append_nil, List.cons_append, List.nil_append,
    List.mem_cons, List.not_mem_nil, or_false] at member
  rcases member with rfl | rfl
  · exact ⟨.confirm id, rfl⟩
  · exact offered_fixed .cancelFunding (by decide)

theorem offers_forceReply (placeholder : String) (chat : Chat) : (forceReply placeholder chat).Offers := by
  rw [forceReply]
  split <;> trivial

end Markups

section Handlers
variable {settings : BotSettings} {digits : DigitSet} {formatCount : Nat → String} {key : FormKey} {chat : Chat}
  {update : Update} {sender : Sender} {message : Option (Chat × MessageId)} {data : Option Text}

/-- Nothing more is asked of what a handler returns. -/
abbrev Minds (settings : BotSettings) (digits : DigitSet) (update : Update) (program : BotProgram Unit) : Prop :=
  program.Abides (update.permits settings digits) fun _ => True

theorem minds_editMessage {text : String} {markup : Markup} (offers : markup.Offers) :
    Minds settings digits update (editMessage message text markup) := by
  cases message with
  | none => trivial
  | some place => exact abides_ask offers

theorem minds_start : Minds settings digits update (start settings key chat) := by
  apply abides_ask_bind trivial
  intro _
  split
  · exact abides_ask trivial
  · exact abides_ask offers_mainMenu

theorem minds_cancelForm : Minds settings digits update (cancelForm key chat) :=
  abides_ask_bind trivial fun _ => abides_ask offers_mainMenu

/-- The handlers that clear the form and show a menu. -/
theorem minds_menu {text : String} {markup : Markup} (offers : markup.Offers) :
    Minds settings digits update (do
      ask (.clearForm key)
      editMessage message text markup
      ask (.answerCallback "" false)) := by
  apply abides_ask_bind trivial
  intro _
  exact (minds_editMessage offers).bind fun _ _ => abides_ask trivial

theorem minds_home : Minds settings digits update (home key message) := by
  unfold home
  exact minds_menu offers_mainMenu

theorem minds_choosePattern : Minds settings digits update (choosePattern key message) := by
  unfold choosePattern
  exact minds_menu offers_patternMenu

theorem minds_cancelConfirmation : Minds settings digits update (cancelConfirmation key message) := by
  unfold cancelConfirmation
  exact minds_menu offers_mainMenu

theorem minds_cancelFunding : Minds settings digits update (cancelFunding key message) := by
  unfold cancelFunding
  exact minds_menu offers_mainMenu

theorem minds_alertError {error : BotError} : Minds settings digits update (alertError error) := by
  cases error with
  | valueError message => exact abides_ask trivial
  | tronForgeApiError message => exact abides_ask trivial
  | _ => trivial

theorem minds_gpuStatus (asked : update.authorized settings = true ∧ update.pressed = some .gpuStatus) :
    Minds settings digits update (gpuStatus formatCount message) := by
  cases message with
  | none => exact abides_ask trivial
  | some place =>
    apply abides_attempt_bind
    · exact abides_ask_bind asked fun _ => abides_ask offers_mainMenu
    · intro outcome
      cases outcome with
      | ok shown => exact abides_ask trivial
      | error error =>
        cases error with
        | tronForgeApiError message => exact abides_ask_bind offers_mainMenu fun _ => abides_ask trivial
        | _ => trivial

theorem minds_recentJobs (asked : update.authorized settings = true ∧ update.pressed = some .recentJobs) :
    Minds settings digits update (recentJobs settings message) := by
  cases message with
  | none => exact abides_ask trivial
  | some place =>
    apply abides_attempt_bind (abides_ask asked)
    intro outcome
    cases outcome with
    | ok jobs =>
      cases jobs with
      | nil => exact abides_ask_bind offers_mainMenu fun _ => abides_ask trivial
      | cons job rest => exact abides_ask_bind (offers_recentJobsMenu _) fun _ => abides_ask trivial
    | error error =>
      cases error with
      | tronForgeApiError message => exact abides_ask_bind offers_mainMenu fun _ => abides_ask trivial
      | _ => trivial

/-- A read identifier is the one that the button names. -/
theorem abides_readJobId {returns : Uuid → Prop} {allowed : BotCall → Prop} {text : Text}
    (known : ∀ id, parseUuid digits (afterLastColon text) = .ok id → returns id) :
    Program.Abides (I := botCalls) allowed returns (readJobId digits text) := by
  rw [readJobId]
  split
  · trivial
  · rename_i id read
    exact known id read

theorem minds_cancelJob (authorized : Update.authorized settings (.callback sender message data) = true)
    (pressed : Update.pressed (.callback sender message data) = some .cancelJob) :
    Minds settings digits (.callback sender message data) (cancelJob digits message (data.getD [])) := by
  cases message with
  | none => exact abides_ask trivial
  | some place =>
    apply abides_attempt_bind
    · exact (abides_readJobId fun id read => read).bind fun id named => abides_ask ⟨authorized, pressed, named⟩
    · intro outcome
      cases outcome with
      | ok job => exact abides_ask_bind offers_mainMenu fun _ => abides_ask trivial
      | error error => exact minds_alertError

theorem minds_watchJob (authorized : Update.authorized settings (.callback sender message data) = true)
    (pressed : Update.pressed (.callback sender message data) = some .watchJob) :
    Minds settings digits (.callback sender message data) (watchJob formatCount digits sender message (data.getD [])) := by
  cases message with
  | none => exact abides_ask trivial
  | some place =>
    apply abides_attempt_bind
    · exact (abides_readJobId fun id read => read).bind fun id named => abides_ask ⟨authorized, .inl pressed, named⟩
    · intro outcome
      cases outcome with
      | ok job =>
        apply abides_ask_bind trivial
        intro _
        exact abides_ask_bind ⟨authorized, .inr pressed, rfl, rfl, rfl⟩ fun _ => abides_ask trivial
      | error error => exact minds_alertError

/-- Who may use the wallet commands, by the three ways to run the bot. -/
theorem allowed_cases {user : Option Sender} {place : Option Chat}
    (allowed : walletCommandsAllowed settings user place = true) :
    ∃ sender chat, user = some sender ∧ place = some chat ∧
      (settings.publicAccess = true ∨
        settings.publicAccess = false ∧ settings.restrictUserId = true ∧ sender.id = settings.allowedUserId ∨
        settings.publicAccess = false ∧ settings.restrictUserId = false ∧ chat.isGroup = true ∧
          settings.allowedGroupId ≠ 0 ∧ chat.id = settings.allowedGroupId) := by
  cases user with
  | none => cases allowed
  | some sender =>
    cases place with
    | none => simp [walletCommandsAllowed] at allowed
    | some chat =>
      refine ⟨sender, chat, rfl, rfl, ?_⟩
      obtain ⟨allowedUserId, restrictUserId, allowedGroupId, publicAccess, fundingEnabled, username⟩ := settings
      cases publicAccess with
      | true => exact .inl rfl
      | false =>
        cases restrictUserId with
        | true =>
          have known : sender.id = allowedUserId := by
            by_contra other
            simp [walletCommandsAllowed, other] at allowed
          exact .inr (.inl ⟨rfl, rfl, known⟩)
        | false =>
          have group : sender.isBot = false ∧ chat.type ≠ .privateChat ∧ allowedGroupId ≠ 0 ∧ chat.isGroup = true ∧
              chat.id = allowedGroupId := by
            simpa [walletCommandsAllowed, and_assoc, and_left_comm] using allowed
          obtain ⟨-, -, chosen, isGroup, here⟩ := group
          exact .inr (.inr ⟨rfl, rfl, isGroup, chosen, here⟩)

/-- Where the wallet goes that an authorized button asks for. -/
theorem authorized_destination {place : Chat × MessageId}
    (authorized : Update.authorized settings (.callback sender (some place) data) = true) :
    settings.destination (.callback sender (some place) data) =
      some (if settings.broadcastResultsToChat then place.1.id else sender.id) := by
  obtain ⟨_, _, same, there, ways⟩ := allowed_cases authorized
  cases same
  cases there
  rcases ways with shared | ⟨closed, restricted, known⟩ | ⟨closed, openTo, group, chosen, here⟩
  · simp [BotSettings.destination, BotSettings.broadcastResultsToChat, Update.chat, shared]
  · simp [BotSettings.destination, BotSettings.broadcastResultsToChat, closed, restricted, known]
  · simp [BotSettings.destination, BotSettings.broadcastResultsToChat, closed, openTo, chosen, here]

theorem authorized_resultChatId (authorized : Update.authorized settings (.callback sender message data) = true) :
    settings.destination (.callback sender message data) = some (resultChatId settings sender message) := by
  obtain ⟨_, chat, same, there, ways⟩ := allowed_cases authorized
  cases same
  cases message with
  | none => cases there
  | some place =>
    cases there
    rcases ways with shared | ⟨closed, restricted, known⟩ | ⟨closed, openTo, group, chosen, here⟩
    · simp [BotSettings.destination, resultChatId, Update.chat, shared]
    · simp [BotSettings.destination, resultChatId, closed, restricted, known]
    · simp [BotSettings.destination, resultChatId, closed, openTo, group, chosen, here]

theorem minds_revealJob (authorized : Update.authorized settings (.callback sender message data) = true)
    (pressed : Update.pressed (.callback sender message data) = some .revealJob) :
    Minds settings digits (.callback sender message data) (revealJob digits settings sender message (data.getD [])) := by
  apply abides_attempt_bind
  · refine (abides_readJobId fun id read => read).bind ?_
    intro id named
    apply abides_ask_bind ⟨authorized, .inr pressed, named⟩
    intro job
    cases result : job.result with
    | none => trivial
    | some wallet =>
      exact abides_ask ⟨authorized, pressed, authorized_resultChatId authorized, offers_walletResultMenu _⟩
  · intro outcome
    cases outcome with
    | ok sent => exact abides_ask trivial
    | error error =>
      cases error with
      | telegramForbidden => exact abides_ask trivial
      | telegramBadRequest message => exact abides_ask trivial
      | valueError message => exact abides_ask trivial
      | tronForgeApiError message => exact abides_ask trivial
      | _ => trivial

theorem minds_submitForm {place : Chat × MessageId} {pattern : PatternType} {addressPrefix suffix : Text}
    (authorized : Update.authorized settings (.callback sender (some place) data) = true)
    (pressed : Update.pressed (.callback sender (some place) data) = some .createJob) :
    Minds settings digits (.callback sender (some place) data)
      (submitForm key sender place.1 place.2 pattern addressPrefix suffix) := by
  apply abides_ask_bind trivial
  intro _
  apply abides_ask_bind trivial
  intro _
  apply abides_ask_bind trivial
  intro _
  apply abides_attempt_bind (abides_ask ⟨authorized, pressed⟩)
  intro outcome
  cases outcome with
  | ok job => exact abides_ask_bind trivial fun _ => abides_ask ⟨authorized, .inl pressed, rfl, rfl, rfl⟩
  | error error =>
    cases error with
    | tronForgeApiError message => exact abides_ask offers_mainMenu
    | _ => trivial

theorem minds_createJob (authorized : Update.authorized settings (.callback sender message data) = true)
    (pressed : Update.pressed (.callback sender message data) = some .createJob) :
    Minds settings digits (.callback sender message data) (createJob key sender message) := by
  cases message with
  | none => exact abides_ask trivial
  | some place =>
    apply abides_ask_bind trivial
    intro form
    split
    · exact minds_submitForm authorized pressed
    · exact abides_ask_bind trivial fun _ => abides_ask trivial

/-- The end of a confirmation whose amount was accepted. -/
theorem minds_submitFunding {place : Chat × MessageId} {id : Uuid} {amount : Text}
    (authorized : Update.authorized settings (.callback sender (some place) data) = true)
    (pressed : Update.pressed (.callback sender (some place) data) = some .confirmFunding)
    (enabled : settings.fundingEnabled = true) (named : Update.names digits id (.callback sender (some place) data))
    (accepted : acceptsAmount digits amount = true) :
    Minds settings digits (.callback sender (some place) data) (submitFunding key place.1 place.2 id amount) := by
  apply abides_ask_bind trivial
  intro _
  apply abides_attempt_bind (abides_ask ⟨authorized, enabled, pressed, named, accepted⟩)
  intro outcome
  cases outcome with
  | ok funding =>
    apply abides_ask_bind trivial
    intro _
    exact abides_ask_bind trivial fun _ => abides_ask ⟨authorized, enabled, pressed, rfl, rfl⟩
  | error error =>
    cases error with
    | tronForgeApiError message => exact abides_ask offers_mainMenu
    | _ => trivial

end Handlers

section Monitors
variable {settings : BotSettings} {formatCount : Nat → String} {watch : JobWatch} {funding : FundingWatch}
  {allowed : BotCall → Prop}

theorem abides_pause {shown : String} {error : BotError} (sleeps : ∀ delay, allowed (.sleep delay)) :
    (pause shown error).Abides allowed fun _ => True := by
  cases error with
  | telegramRetryAfter retryAfter => exact abides_ask_bind (sleeps _) fun _ => trivial
  | telegramForbidden => trivial
  | telegramBadRequest message => exact abides_ask_bind (sleeps _) fun _ => trivial
  | tronForgeApiError message => exact abides_ask_bind (sleeps _) fun _ => trivial
  | _ => trivial

theorem abides_showProgress {chat : ChatId} {message : MessageId} {previousText text : String} {markup : Markup}
    (edits : ∀ text, allowed (.edit chat message text markup)) :
    (showProgress chat message previousText text markup).Abides allowed fun _ => True := by
  rw [showProgress]
  split
  · trivial
  · apply abides_attempt_bind (abides_ask (edits text))
    intro outcome
    cases outcome with
    | ok shown => trivial
    | error error =>
      cases error with
      | telegramBadRequest description =>
        dsimp only
        split <;> trivial
      | _ => trivial

theorem offers_progressMarkup (job : JobRead) : (progressMarkup job).Offers := by
  rw [progressMarkup]
  split
  · trivial
  · exact offers_cancelJobMenu

theorem abides_sendResult {chat : ChatId} {job : JobRead}
    (sends : ∀ wallet rate, allowed (.send chat (.wallet wallet rate) (walletResultMenu job.id settings.fundingEnabled))) :
    (sendResult settings chat job).Abides allowed fun _ => True := by
  cases result : job.result with
  | none =>
    simp only [sendResult, walletResult, result]
    trivial
  | some wallet =>
    simp only [sendResult, walletResult, result]
    exact abides_ask (sends wallet job.observedRate)

theorem abides_deliver {job : JobRead} :
    (deliver settings watch job).Abides (Update.permitsWatch settings watch) fun _ => True := by
  rw [deliver]
  split
  · rename_i shared
    exact abides_sendResult fun wallet rate => ⟨by rw [if_pos shared], offers_walletResultMenu _⟩
  · rename_i private_
    apply abides_attempt_bind
    · exact abides_sendResult fun wallet rate => ⟨by rw [if_neg private_], offers_walletResultMenu _⟩
    · intro outcome
      cases outcome with
      | ok sent => trivial
      | error error =>
        cases error with
        | telegramForbidden =>
          dsimp only
          split
          · trivial
          · exact abides_ask trivial
        | telegramBadRequest message =>
          dsimp only
          split
          · trivial
          · exact abides_ask trivial
        | _ => trivial

theorem abides_finishJob {job : JobRead} :
    (finishJob settings watch job).Abides (Update.permitsWatch settings watch) fun _ => True := by
  rw [finishJob]
  split
  · exact abides_deliver.bind fun _ _ => trivial
  · trivial

theorem abides_monitorTurn {previousText : String} :
    (monitorTurn settings formatCount watch previousText).Abides (Update.permitsWatch settings watch) fun _ => True := by
  refine abides_attempt_bind (@abides_ask _ (.getJob watch.jobId) rfl) ?_
  intro outcome
  cases outcome with
  | error error => exact abides_pause fun _ => trivial
  | ok job =>
    apply abides_attempt_bind (abides_showProgress fun text => offers_progressMarkup job)
    intro outcome
    cases outcome with
    | error error => exact abides_pause fun _ => trivial
    | ok shown =>
      apply abides_attempt_bind abides_finishJob
      intro outcome
      cases outcome with
      | error error => exact abides_pause fun _ => trivial
      | ok finished =>
        cases finished with
        | true => trivial
        | false => exact abides_ask_bind trivial fun _ => trivial

theorem abides_fundingTurn {previousText : String} :
    (fundingTurn funding previousText).Abides (Update.permitsFundingWatch funding) fun _ => True := by
  refine abides_attempt_bind (@abides_ask _ (.getFunding funding.jobId) rfl) ?_
  intro outcome
  cases outcome with
  | error error => exact abides_pause fun _ => trivial
  | ok read =>
    apply abides_attempt_bind (abides_showProgress fun text => trivial)
    intro outcome
    cases outcome with
    | error error => exact abides_pause fun _ => trivial
    | ok shown =>
      dsimp only
      split
      · trivial
      · exact abides_ask_bind trivial fun _ => trivial

end Monitors

end TronForge.Telegram
