import TronForge.Funding.Safety

/-! What the runs of the funding processor promise: one payload for each
record, sent only while the record is open, and failures that the node and its
receipts bear out. -/

namespace TronForge.Funding

open Library

variable {decrypt : String → Option String} {timeoutSeconds : Nat} {world : World}

/-- A schedule that plays from the empty world reaches the world it ends in. -/
theorem reaches_of_replay (timeoutSeconds : Nat) (moves : List (surroundings decrypt).Move)
    (played : ((surroundings decrypt).replay (processor decrypt timeoutSeconds) moves
      ({}, .down)).map (·.1) = some world) : Reaches decrypt timeoutSeconds world := by
  obtain ⟨⟨final, phase⟩, replayed, rfl⟩ := Option.map_eq_some_iff.mp played
  exact ⟨phase, (surroundings decrypt).replay_run _ replayed⟩

/-- A committed payload stays in its record until the record settles. -/
theorem Sound.stored (sound : Sound decrypt world) {funding : FundingTransaction}
    (member : funding ∈ world.records) {ciphertext hash : String}
    (prepared : .prepared funding.id ciphertext hash ∈ world.history) :
    preparations funding.id world.history = [(ciphertext, hash)] ∧ funding.txid = some hash ∧
      (funding.encryptedSignedTransaction = some ciphertext ∨
        funding.encryptedSignedTransaction = none ∧ funding.status.settled = true) := by
  have listed := mem_preparations.mpr prepared
  cases sound.payloads funding member with
  | unprepared never _ _ _ => simp [never] at listed
  | prepared token other once txid payload _ _ =>
    rw [once, List.mem_singleton, Prod.mk.injEq] at listed
    obtain ⟨rfl, rfl⟩ := listed
    exact ⟨once, txid, payload⟩

theorem Sound.broadcasts_agree (sound : Sound decrypt world) {id : FundingId}
    {first second : String × String} (left : first ∈ broadcasts id world.history)
    (right : second ∈ broadcasts id world.history) : first = second := by
  obtain ⟨funding, member, rfl⟩ := sound.owned _ (mem_broadcasts.mp left) id rfl
  cases sound.payloads funding member with
  | unprepared _ _ _ unsent => simp [unsent] at left
  | prepared ciphertext hash _ _ _ _ same =>
    obtain ⟨firstPlain, firstHash⟩ := same first left
    obtain ⟨secondPlain, secondHash⟩ := same second right
    have plain : first.1 = second.1 := Option.some.inj (firstPlain.symm.trans secondPlain)
    exact Prod.ext plain (firstHash.trans secondHash.symm)

theorem Sound.preparations_once (sound : Sound decrypt world) (id : FundingId) :
    (preparations id world.history).length ≤ 1 := by
  cases listed : preparations id world.history with
  | nil => simp
  | cons first rest =>
    have member : first ∈ preparations id world.history := by simp [listed]
    obtain ⟨funding, present, rfl⟩ := sound.owned _ (mem_preparations.mp member) id rfl
    obtain ⟨once, -⟩ := sound.stored present (mem_preparations.mp member)
    simp [← listed, once]

/-- In every run, with any answers, crashes and restarts: the broadcasts of a
record all carry one payload; each comes after the commit of that payload and
before the record settles; the payload is committed once and stays stored while
the record is open; and a record settles exactly when a settlement is committed. -/
theorem one_payload_per_record (reached : Reaches decrypt timeoutSeconds world) (id : FundingId) :
    (∀ first ∈ broadcasts id world.history, ∀ second ∈ broadcasts id world.history,
      first = second) ∧
    (∀ later payload txid earlier,
      world.history = later ++ .broadcast id payload txid :: earlier →
        (∃ ciphertext, .prepared id ciphertext txid ∈ earlier ∧ decrypt ciphertext = some payload) ∧
          ∀ status, .settled id status ∉ earlier) ∧
    (preparations id world.history).length ≤ 1 ∧
    ∀ funding ∈ world.records, funding.id = id →
      (∀ ciphertext txid, .prepared id ciphertext txid ∈ world.history →
        funding.txid = some txid ∧ (funding.encryptedSignedTransaction = some ciphertext ∨
          funding.encryptedSignedTransaction = none ∧ funding.status.settled = true)) ∧
      (funding.status.settled = true ↔ ∃ status, .settled id status ∈ world.history) := by
  have sound := reached.sound
  refine ⟨?_, ?_, sound.preparations_once id, ?_⟩
  · intro first left second right
    exact sound.broadcasts_agree left right
  · intro later payload txid earlier split
    have ordered := sound.ordered
    rw [split] at ordered
    exact ordered.before
  · rintro funding member rfl
    refine ⟨?_, sound.settled funding member⟩
    intro ciphertext txid prepared
    obtain ⟨-, hash, payload⟩ := sound.stored member prepared
    exact ⟨hash, payload⟩

/-- A request as the API stores it. -/
def sampleRequest : FundingTransaction where
  id := 1
  destinationAddress := "TDest"
  amountMicroUsdt := 1000000
  contractAddress := "TUsdt"
  status := .requested
  createdAt := 10
  updatedAt := 10

/-- From the request to the committed signature, with a secret box that stores
its values in the clear. -/
def signingMoves : List (surroundings some).Move :=
  [.interfere sampleRequest, .proceed, .answer (.committed 20), .proceed,
    .answer (.claimed sampleRequest 30),
    .answer (.transfer ⟨"TSource", "ab12", "payload", 90⟩), .answer (.ciphertext "payload"),
    .answer (.committed 40), .proceed]

/-- The record once its signature is committed. -/
def signedRequest : FundingTransaction :=
  { sampleRequest with
    status := .signed
    sourceAddress := some "TSource"
    txid := some "ab12"
    encryptedSignedTransaction := some "payload"
    transactionExpiresAt := some 90
    attemptCount := 1
    updatedAt := 40 }

/-- A payment that crashes after the node accepted it, is sent again after the
restart and then confirmed. -/
def confirmedMoves : List (surroundings some).Move :=
  signingMoves ++
    ([.answer (.claimed signedRequest 50), .answer (.broadcast true (.ok ())), .crash, .proceed,
      .answer (.committed 60), .proceed, .answer (.claimed signedRequest 70),
      .answer (.broadcast true (.ok ())), .answer (.committed 80), .proceed,
      .answer (.claimed { signedRequest with
        status := .broadcast, broadcastAt := some 80, lastCheckedAt := some 80, updatedAt := 80 } 81),
      .answer (.receipt ⟨.confirmed, none⟩), .answer (.committed 82)] :
      List (surroundings some).Move)

def confirmedWorld : World where
  records := [{ signedRequest with
    status := .confirmed
    encryptedSignedTransaction := none
    broadcastAt := some 80
    confirmedAt := some 82
    lastCheckedAt := some 82
    updatedAt := 82 }]
  accepted := [("payload", "ab12"), ("payload", "ab12")]
  history := [.settled 1 .confirmed, .broadcast 1 "payload" "ab12", .broadcast 1 "payload" "ab12",
    .prepared 1 "payload" "ab12"]

theorem one_payload_per_record_confirmed :
    (∀ first ∈ broadcasts 1 confirmedWorld.history, ∀ second ∈ broadcasts 1 confirmedWorld.history,
      first = second) ∧
    (preparations 1 confirmedWorld.history).length ≤ 1 := by
  have reached : Reaches some 300 confirmedWorld := reaches_of_replay 300 confirmedMoves (by decide)
  have kept := one_payload_per_record reached 1
  exact ⟨kept.1, kept.2.2.1⟩

/-- A failed record with a transaction id never reached the node, or its failure
was reported by a solidified receipt. -/
def FailuresBorneOut (world : World) : Prop :=
  ∀ funding ∈ world.records, funding.status = .failed → ∀ txid, funding.txid = some txid →
    (∀ payload, (payload, txid) ∉ world.accepted) ∨ .failedReceipt txid ∈ world.history

/-- The node never rejected a payload it held while its record was stored as
signed. -/
def NoDisputedRejection (history : List Event) : Prop :=
  ∀ id payload txid, .rejected id payload txid (some .signed) true ∉ history

/-- What the node accepted under a record's transaction id is that record's own
payload. -/
theorem Sound.accepted_payload (sound : Sound decrypt world) {funding : FundingTransaction}
    (member : funding ∈ world.records) {payload hash : String} (txid : funding.txid = some hash)
    (held : (payload, hash) ∈ world.accepted) :
    ∃ ciphertext, (ciphertext, hash) ∈ preparations funding.id world.history ∧
      decrypt ciphertext = some payload := by
  obtain ⟨id, broadcast⟩ := sound.accepted _ held
  obtain ⟨owner, present, rfl⟩ := sound.owned _ broadcast id rfl
  have sent := mem_broadcasts.mpr broadcast
  cases sound.payloads owner present with
  | unprepared _ _ _ unsent => simp [unsent] at sent
  | prepared ciphertext other once own _ _ same =>
    obtain ⟨plain, rfl⟩ := same _ sent
    obtain rfl := sound.eq_of_txid present member own txid
    exact ⟨ciphertext, by simp [once], plain⟩

/-- In every run in which the node never rejected, for a record still stored as
signed, a payload it held, every failure is borne out. -/
theorem failures_borne_out (reached : Reaches decrypt timeoutSeconds world)
    (undisputed : NoDisputedRejection world.history) : FailuresBorneOut world := by
  intro funding member failed hash txid
  have sound := reached.sound
  by_cases receipt : .failedReceipt hash ∈ world.history
  · exact .inr receipt
  · left
    intro payload held
    obtain ⟨ciphertext, prepared, plain⟩ := sound.accepted_payload member txid held
    rcases sound.excused funding member failed ciphertext hash payload prepared plain with
      unheld | noted | disputed
    · exact unheld held
    · exact receipt noted
    · exact undisputed _ _ _ disputed

/-- A transfer the node turned down without accepting it. -/
def refusedMoves : List (surroundings some).Move :=
  signingMoves ++
    [.answer (.claimed signedRequest 50),
      .answer (.broadcast false (.error (.fundingRejected "CONTRACT_VALIDATE_ERROR"))),
      .answer (.committed 60)]

/-- The record after a rejection. -/
def failedRequest (message : String) : FundingTransaction :=
  { signedRequest with
    status := .failed
    encryptedSignedTransaction := none
    failureCode := some "broadcast_rejected"
    failureMessage := some message
    lastCheckedAt := some 60
    updatedAt := 60 }

def refusedWorld : World where
  records := [failedRequest "CONTRACT_VALIDATE_ERROR"]
  history := [.settled 1 .failed, .rejected 1 "payload" "ab12" (some .signed) false,
    .broadcast 1 "payload" "ab12", .prepared 1 "payload" "ab12"]

theorem failures_borne_out_refused : FailuresBorneOut refusedWorld :=
  failures_borne_out (reaches_of_replay 300 refusedMoves (by decide))
    (by simp [NoDisputedRejection, refusedWorld])

/-- The node accepts the payload, the processor crashes before it can store the
broadcast, and the payload is rejected as expired when it is sent again. -/
def resentMoves : List (surroundings some).Move :=
  signingMoves ++
    ([.answer (.claimed signedRequest 50), .answer (.broadcast true (.ok ())), .crash, .proceed,
      .answer (.committed 55), .proceed, .answer (.claimed signedRequest 57),
      .answer (.broadcast false (.error (.fundingRejected "TRANSACTION_EXPIRATION_ERROR"))),
      .answer (.committed 60)] :
      List (surroundings some).Move)

def resentWorld : World where
  records := [failedRequest "TRANSACTION_EXPIRATION_ERROR"]
  accepted := [("payload", "ab12")]
  history := [.settled 1 .failed, .rejected 1 "payload" "ab12" (some .signed) true,
    .broadcast 1 "payload" "ab12", .broadcast 1 "payload" "ab12", .prepared 1 "payload" "ab12"]

/-- The record is failed although the node holds its payload and no receipt
reported a failure. -/
theorem accepted_transfer_failed :
    Reaches some 300 resentWorld ∧ ¬ FailuresBorneOut resentWorld := by
  refine ⟨reaches_of_replay 300 resentMoves (by decide), ?_⟩
  intro borneOut
  rcases borneOut (failedRequest "TRANSACTION_EXPIRATION_ERROR") (by simp [resentWorld]) rfl "ab12" rfl
    with unheld | receipt
  · exact unheld "payload" (by simp [resentWorld])
  · simp [resentWorld] at receipt

end TronForge.Funding
