import TronForge.Funding.Invariant

/-! Every program of the funding processor keeps the invariant, whatever the
calls answer, so every run with crashes and restarts keeps it. -/

namespace TronForge.Funding

open Library

variable {decrypt : String → Option String} {timeoutSeconds : Nat}

/-- Any outcome of a program. -/
def anyOutcome : Except Raised α → World → Prop := fun _ _ => True

/-- The program can be continued from here without breaking the invariant. -/
abbrev SafeTask (decrypt : String → Option String) (task : Task α) (world : World) : Prop :=
  (surroundings decrypt).environment.Safe (Sound decrypt) anyOutcome task world

/-- New requests do not remove stored records. -/
theorem mem_request {world after : World} {funding other : FundingTransaction}
    (member : funding ∈ world.records) (requested : request world other = some after) :
    funding ∈ after.records := by
  unfold request at requested
  split at requested
  · cases requested
    exact List.mem_cons_of_mem _ member
  · cases requested

/-- New requests leave the history and the node alone. -/
theorem request_frame {world after : World} {other : FundingTransaction}
    (requested : request world other = some after) :
    after.history = world.history ∧ after.accepted = world.accepted := by
  unfold request at requested
  split at requested
  · cases requested
    exact ⟨rfl, rfl⟩
  · cases requested

theorem respond_fails {world after : World} {operation : Operation}
    {reply : Except Raised (Reply operation)} {error : Raised}
    (answered : respond decrypt world operation (.fails error) = some (reply, after)) :
    after = world := by
  cases operation <;> simp [respond] at answered <;> exact answered.2.symm

/-- An update answered in any way keeps the invariant. -/
theorem update_sound {world after : World} {id : FundingId} {mark : Mark} {answer : Answer}
    {reply : Except Raised Unit} (sound : Sound decrypt world)
    (excuse : ∀ code message, mark = .failed code message →
      ∀ funding ∈ world.records, funding.id = id → Excused decrypt world funding)
    (answered : respond decrypt world (.update id mark) answer = some (reply, after)) :
    Sound decrypt after := by
  cases answer with
  | fails error => exact respond_fails answered ▸ sound
  | committed now =>
    obtain ⟨next, committed, same⟩ := Option.map_eq_some_iff.mp answered
    cases same
    exact sound.commit committed excuse
  | committedThenFails now error =>
    obtain ⟨next, committed, same⟩ := Option.map_eq_some_iff.mp answered
    cases same
    exact sound.commit committed excuse
  | _ => simp [respond] at answered

/-- Storing a mark is safe; a failure needs an excuse that others keep. -/
theorem store_safe {world : World} {id : FundingId} {mark : Mark} (knows : World → Prop)
    (stable : ∀ before after, knows before → (∃ other, request before other = some after) →
      knows after) (known : knows world)
    (excuse : ∀ current, knows current → Sound decrypt current → ∀ code message,
      mark = .failed code message → ∀ funding ∈ current.records, funding.id = id →
        Excused decrypt current funding) :
    SafeTask decrypt (store id mark) world := by
  apply Environment.Safe.call knows stable known
  intro current reply after knowsCurrent sound performed
  obtain ⟨answer, answered⟩ := performed
  refine ⟨update_sound sound (excuse current knowsCurrent sound) answered, ?_⟩
  cases reply <;> trivial

theorem store_safe_of_ne {world : World} {id : FundingId} {mark : Mark}
    (harmless : ∀ code message, mark ≠ .failed code message) :
    SafeTask decrypt (store id mark) world :=
  store_safe (fun _ => True) (fun _ _ _ _ => trivial) trivial
    fun _ _ _ code message same => absurd same (harmless code message)

/-- A record whose transaction id is missing may be failed: nothing was sent. -/
theorem excused_of_txid {world : World} {funding : FundingTransaction} (sound : Sound decrypt world)
    (member : funding ∈ world.records) (missing : funding.txid = none) :
    Excused decrypt world funding := by
  intro ciphertext hash payload prepared
  cases sound.payloads funding member with
  | unprepared never _ _ _ => simp [never] at prepared
  | prepared _ _ _ txid _ _ _ => simp [missing] at txid

/-- A record still without a stored payload may be failed. -/
theorem store_failed_safe {world : World} {funding : FundingTransaction} {code message : String}
    (member : funding ∈ world.records)
    (missing : ∀ current, Sound decrypt current → funding ∈ current.records →
      Excused decrypt current funding) :
    SafeTask decrypt (store funding.id (.failed code message)) world := by
  apply store_safe (fun current => funding ∈ current.records)
  · rintro before after known ⟨other, requested⟩
    exact mem_request known requested
  · exact member
  · intro current known sound _ _ _ other present same
    obtain rfl := sound.eq_of_id present known same
    exact missing current sound known

theorem prepare_safe {world : World} {funding : FundingTransaction} (member : funding ∈ world.records)
    (preparing : funding.status = .preparing) : SafeTask decrypt (prepare funding) world := by
  apply Environment.Safe.call (fun current => funding ∈ current.records)
  · rintro before after known ⟨other, requested⟩
    exact mem_request known requested
  · exact member
  intro current reply after known sound performed
  obtain ⟨answer, answered⟩ := performed
  have same : after = current := by
    cases answer <;> simp [surroundings, respond] at answered <;> exact answered.2.symm
  subst same
  refine ⟨sound, ?_⟩
  rcases reply with error | prepared
  · cases error with
    | fundingNetworkError message => exact store_safe_of_ne (by simp)
    | fundingRejected message =>
      apply store_failed_safe known
      intro later soundLater member
      apply excused_of_txid soundLater member
      cases soundLater.payloads funding member with
      | unprepared _ txid _ _ => exact txid
      | prepared _ _ _ _ _ signed _ => simp [preparing, FundingStatus.unsigned] at signed
    | unexpected message => trivial
  · apply Environment.Safe.call (fun _ => True) (fun _ _ _ _ => trivial) trivial
    intro later token next _ soundLater performed
    obtain ⟨answer, answered⟩ := performed
    have same : next = later := by
      cases answer with
      | fails error =>
        simp only [surroundings, respond, Option.some.injEq, Prod.mk.injEq] at answered
        exact answered.2.symm
      | ciphertext text =>
        simp only [surroundings, respond] at answered
        split at answered
        · cases answered; rfl
        · cases answered
      | _ => simp [surroundings, respond] at answered
    subst same
    refine ⟨soundLater, ?_⟩
    cases token with
    | error error => trivial
    | ok text => exact store_safe_of_ne (by simp)

/-- What a rejected broadcast of a signed record leaves behind: the node does
not hold the payload, or the history says that it does. -/
theorem sent_rejected {world : World} {funding : FundingTransaction} {payload hash message : String}
    {accepted : Bool} (sound : Sound decrypt world) (member : funding ∈ world.records)
    (signed : funding.status = .signed) :
    (payload, hash) ∉ (sent funding.id payload hash accepted
        (.error (.fundingRejected message)) world).accepted ∨
      .rejected funding.id payload hash (some .signed) true ∈
        (sent funding.id payload hash accepted (.error (.fundingRejected message)) world).history := by
  have status : world.status? funding.id = some .signed := by rw [sound.status?_eq member, signed]
  by_cases held : (payload, hash) ∈ (if accepted then (payload, hash) :: world.accepted
      else world.accepted)
  · right
    simp only [sent, status, held, decide_true]
    exact List.mem_append_left _ (by simp)
  · exact .inl held

/-- What the processor knows after a rejected broadcast of a signed record. -/
def Rejected (funding : FundingTransaction) (payload hash : String) (world : World) : Prop :=
  funding ∈ world.records ∧ ((payload, hash) ∉ world.accepted ∨
    .rejected funding.id payload hash (some .signed) true ∈ world.history)

/-- The failure stored after a rejected broadcast is excused. -/
theorem store_rejected_safe {world : World} {funding : FundingTransaction}
    {ciphertext hash payload code message : String} (txid : funding.txid = some hash)
    (stored : funding.encryptedSignedTransaction = some ciphertext)
    (deciphered : decrypt ciphertext = some payload) (rejected : Rejected funding payload hash world) :
    SafeTask decrypt (store funding.id (.failed code message)) world := by
  apply store_safe (Rejected funding payload hash)
  · rintro before after ⟨member, outcome⟩ ⟨other, requested⟩
    obtain ⟨history, accepted⟩ := request_frame requested
    refine ⟨mem_request member requested, ?_⟩
    rw [history, accepted]
    exact outcome
  · exact rejected
  · rintro current ⟨member, outcome⟩ sound _ _ _ other present same token hash' text prepared plain
    obtain rfl := sound.eq_of_id present member same
    cases sound.payloads other present with
    | unprepared _ missing _ _ => simp [missing] at txid
    | prepared token' other' once known kept _ _ =>
      rw [once, List.mem_singleton, Prod.mk.injEq] at prepared
      obtain ⟨rfl, rfl⟩ := prepared
      obtain rfl : hash' = hash := Option.some.inj (known.symm.trans txid)
      have own : token = ciphertext := by
        rcases kept with kept | ⟨erased, _⟩
        · exact Option.some.inj (kept.symm.trans stored)
        · simp [erased] at stored
      subst own
      obtain rfl : text = payload := Option.some.inj (plain.symm.trans deciphered)
      rcases outcome with unheld | noted
      · exact .inl unheld
      · exact .inr (.inr noted)

theorem broadcast_safe {world : World} {funding : FundingTransaction} (member : funding ∈ world.records)
    (sendable : funding.status = .signed ∨ funding.status = .unknown) :
    SafeTask decrypt (broadcast decrypt funding) world := by
  have unsettled : funding.status.settled = false := by
    rcases sendable with same | same <;> simp [same, FundingStatus.settled]
  unfold broadcast
  cases txid : funding.txid with
  | none =>
    apply store_failed_safe member
    intro current sound present
    exact excused_of_txid sound present txid
  | some hash =>
    cases stored : funding.encryptedSignedTransaction with
    | none =>
      apply store_failed_safe member
      intro current sound present
      cases sound.payloads funding present with
      | unprepared _ missing _ _ => simp [missing] at txid
      | prepared _ _ _ _ payload _ _ => simp [stored, unsettled] at payload
    | some ciphertext =>
      cases deciphered : decrypt ciphertext with
      | none =>
        simp only [decrypted, deciphered]
        trivial
      | some payload =>
        simp only [decrypted, deciphered]
        apply Environment.Safe.call (fun current => funding ∈ current.records)
        · rintro before after known ⟨other, requested⟩
          exact mem_request known requested
        · exact member
        intro current reply after known sound performed
        obtain ⟨answer, answered⟩ := performed
        cases answer <;> simp only [surroundings, respond, reduceCtorEq] at answered
        rename_i accepted result
        cases answered
        have soundAfter := sound.sent known unsettled txid stored deciphered accepted reply
        refine ⟨soundAfter, ?_⟩
        rcases reply with error | _
        · cases error with
          | fundingNetworkError message => exact store_safe_of_ne (by simp)
          | unexpected message => trivial
          | fundingRejected message =>
            by_cases unknown : funding.status = .unknown
            · simp only [unknown]
              exact store_safe_of_ne (by simp)
            · have signed : funding.status = .signed := sendable.resolve_right unknown
              simp only [unknown, ↓reduceIte]
              exact store_rejected_safe txid stored deciphered
                ⟨known, sent_rejected sound known signed⟩
        · exact store_safe_of_ne (by simp)

/-- A solidified failed receipt excuses the failure it leads to. -/
theorem store_failed_receipt_safe {world : World} {funding : FundingTransaction}
    {hash code message : String} (txid : funding.txid = some hash)
    (member : funding ∈ world.records) (noted : .failedReceipt hash ∈ world.history) :
    SafeTask decrypt (store funding.id (.failed code message)) world := by
  apply store_safe fun current => funding ∈ current.records ∧ .failedReceipt hash ∈ current.history
  · rintro before after ⟨known, receipt⟩ ⟨other, requested⟩
    refine ⟨mem_request known requested, ?_⟩
    rw [(request_frame requested).1]
    exact receipt
  · exact ⟨member, noted⟩
  · rintro current ⟨known, receipt⟩ sound _ _ _ other present same token hash' text prepared _
    obtain rfl := sound.eq_of_id present known same
    cases sound.payloads other present with
    | unprepared _ missing _ _ => simp [missing] at txid
    | prepared _ _ once stored _ _ _ =>
      rw [once, List.mem_singleton, Prod.mk.injEq] at prepared
      obtain ⟨-, rfl⟩ := prepared
      obtain rfl : hash' = hash := Option.some.inj (stored.symm.trans txid)
      exact .inr (.inl receipt)

theorem rebroadcast_safe {world : World} {funding : FundingTransaction}
    (member : funding ∈ world.records) :
    SafeTask decrypt (rebroadcast decrypt timeoutSeconds funding) world := by
  unfold rebroadcast
  split
  · rename_i expires unknown _
    apply Environment.Safe.call (fun current => funding ∈ current.records)
    · rintro before after known ⟨other, requested⟩
      exact mem_request known requested
    · exact member
    intro current reply after known sound performed
    obtain ⟨answer, answered⟩ := performed
    have same : after = current := by
      cases answer <;> simp [surroundings, respond] at answered <;> exact answered.2.symm
    subst same
    refine ⟨sound, ?_⟩
    rcases reply with error | now
    · trivial
    · show SafeTask decrypt (if _ then _ else _) after
      split
      · exact broadcast_safe known (.inr unknown)
      · exact store_safe_of_ne (by simp)
  · exact store_safe_of_ne (by simp)

theorem confirm_safe {world : World} {funding : FundingTransaction}
    (member : funding ∈ world.records) :
    SafeTask decrypt (confirm decrypt timeoutSeconds funding) world := by
  unfold confirm
  cases txid : funding.txid with
  | none =>
    apply store_failed_safe member
    intro current sound present
    exact excused_of_txid sound present txid
  | some hash =>
    apply Environment.Safe.call (fun current => funding ∈ current.records)
    · rintro before after known ⟨other, requested⟩
      exact mem_request known requested
    · exact member
    intro current reply after known sound performed
    obtain ⟨answer, answered⟩ := performed
    cases answer with
    | fails error =>
      simp only [surroundings, respond, Option.some.injEq, Prod.mk.injEq] at answered
      obtain ⟨rfl, rfl⟩ := answered
      refine ⟨sound, ?_⟩
      cases error with
      | fundingNetworkError message => exact store_safe_of_ne (by simp)
      | _ => trivial
    | receipt result =>
      simp only [surroundings, respond, Option.some.injEq, Prod.mk.injEq] at answered
      obtain ⟨rfl, rfl⟩ := answered
      refine ⟨sound.received hash result, ?_⟩
      have kept : funding ∈ (received hash result current).records := by
        unfold received
        split <;> exact known
      obtain ⟨state, message⟩ := result
      cases state with
      | confirmed => exact store_safe_of_ne (by simp)
      | unknown => exact store_safe_of_ne (by simp)
      | failed =>
        apply store_failed_receipt_safe txid kept
        simp [received]
      | pending => exact rebroadcast_safe kept
      | notFound => exact rebroadcast_safe kept
    | _ => simp [surroundings, respond] at answered

theorem process_safe {world : World} {funding : FundingTransaction}
    (member : funding ∈ world.records) :
    SafeTask decrypt (process decrypt timeoutSeconds funding) world := by
  unfold process
  cases status : funding.status with
  | preparing => exact prepare_safe member status
  | signed => exact broadcast_safe member (.inl status)
  | broadcast => exact confirm_safe member
  | unknown => exact confirm_safe member
  | _ => trivial

theorem turn_safe {world : World} : SafeTask decrypt (turn decrypt timeoutSeconds) world := by
  apply Environment.Safe.call (fun _ => True) (fun _ _ _ _ => trivial) trivial
  intro current reply after _ sound performed
  obtain ⟨answer, answered⟩ := performed
  cases answer with
  | fails error =>
    simp only [surroundings, respond, Option.some.injEq, Prod.mk.injEq] at answered
    obtain ⟨rfl, rfl⟩ := answered
    exact ⟨sound, trivial⟩
  | claimed funding now =>
    simp only [surroundings, respond] at answered
    split at answered
    · rename_i allowed
      cases answered
      refine ⟨sound.claimed now allowed.1, ?_⟩
      have member : claim now funding ∈ (claimed now funding current).records :=
        mem_replace_self allowed.1 (moved_claim now funding).id.symm
      show SafeTask decrypt (Program.attempt _ >>= _) _
      apply Environment.Safe.bind
      · have safe : SafeTask decrypt (process decrypt timeoutSeconds (claim now funding)) _ :=
          process_safe member
        show SafeTask decrypt _ _
        exact safe.attempt fun _ _ _ => trivial
      · intro outcome next _
        cases outcome with
        | ok value => trivial
        | error error => exact store_safe_of_ne (by simp)
      · intro error next _
        trivial
    · cases answered
  | claimedThenFails funding now error =>
    simp only [surroundings, respond] at answered
    split at answered
    · rename_i allowed
      cases answered
      exact ⟨sound.claimed now allowed.1, trivial⟩
    · cases answered
  | nothingToClaim =>
    simp only [surroundings, respond] at answered
    split at answered
    · cases answered
    · cases answered
      exact ⟨sound, trivial⟩
  | _ => simp [surroundings, respond] at answered

theorem recover_safe {world : World} : SafeTask decrypt (call .recoverInterruptedWork) world := by
  apply Environment.Safe.call (fun _ => True) (fun _ _ _ _ => trivial) trivial
  intro current reply after _ sound performed
  obtain ⟨answer, answered⟩ := performed
  have kept : Sound decrypt after := by
    cases answer with
    | fails error =>
      simp only [surroundings, respond, Option.some.injEq, Prod.mk.injEq] at answered
      exact answered.2 ▸ sound
    | committed now =>
      simp only [surroundings, respond, Option.some.injEq, Prod.mk.injEq] at answered
      exact answered.2 ▸ sound.recovered now
    | committedThenFails now error =>
      simp only [surroundings, respond, Option.some.injEq, Prod.mk.injEq] at answered
      exact answered.2 ▸ sound.recovered now
    | _ => simp [surroundings, respond] at answered
  refine ⟨kept, ?_⟩
  cases reply <;> trivial

/-- The runs of the deployed processor, with every choice of its surroundings. -/
def Reaches (decrypt : String → Option String) (timeoutSeconds : Nat) (world : World) : Prop :=
  ∃ phase, (processor decrypt timeoutSeconds).Run (surroundings decrypt).environment
    ({}, .down) (world, phase)

/-- Every world of every run is sound. -/
theorem Reaches.sound {world : World} (reached : Reaches decrypt timeoutSeconds world) :
    Sound decrypt world := by
  obtain ⟨phase, run⟩ := reached
  have kept : Sound decrypt (world, phase).1 := by
    refine Process.run_valid ?_ ?_ ?_ sound_empty run
    · intro world _
      exact recover_safe.weaken fun _ _ _ => trivial
    · intro world _
      exact turn_safe.weaken fun _ _ _ => trivial
    · rintro world next sound ⟨funding, requested⟩
      exact sound.request requested
  exact kept

end TronForge.Funding
