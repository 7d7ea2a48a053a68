import Mathlib.Data.List.Pairwise
import TronForge.Library.Table
import TronForge.Funding.World

/-! What every reachable world of the funding processor satisfies: at most one
payload is ever prepared for a record, only that payload is sent, settled
records stay silent, and every failure has an excuse. -/

namespace TronForge.Funding

/-- The ciphertexts and transaction ids committed for a record. -/
def preparations (id : FundingId) (history : List Event) : List (String × String) :=
  history.filterMap fun
    | .prepared other ciphertext txid => if other = id then some (ciphertext, txid) else none
    | _ => none

/-- The payloads and transaction ids broadcast for a record. -/
def broadcasts (id : FundingId) (history : List Event) : List (String × String) :=
  history.filterMap fun
    | .broadcast other payload txid => if other = id then some (payload, txid) else none
    | _ => none

def Event.record? : Event → Option FundingId
  | .prepared id _ _ | .broadcast id _ _ | .rejected id _ _ _ _ | .settled id _ => some id
  | .failedReceipt _ => none

@[simp] theorem preparations_append (id : FundingId) (later earlier : List Event) :
    preparations id (later ++ earlier) = preparations id later ++ preparations id earlier :=
  List.filterMap_append

@[simp] theorem broadcasts_append (id : FundingId) (later earlier : List Event) :
    broadcasts id (later ++ earlier) = broadcasts id later ++ broadcasts id earlier :=
  List.filterMap_append

@[simp] theorem preparations_event (id : FundingId) (source txid ciphertext : String)
    (expires : Time) :
    preparations id (Mark.event id (.prepared source txid ciphertext expires)) = [(ciphertext, txid)] := by
  simp [preparations, Mark.event]

@[simp] theorem broadcasts_event (id other : FundingId) (mark : Mark) :
    broadcasts id (mark.event other) = [] := by
  cases mark <;> simp [broadcasts, Mark.event]

theorem mem_preparations {id : FundingId} {history : List Event} {ciphertext txid : String} :
    (ciphertext, txid) ∈ preparations id history ↔ .prepared id ciphertext txid ∈ history := by
  constructor
  · intro member
    obtain ⟨event, present, selected⟩ := List.mem_filterMap.mp member
    cases event with
    | prepared other token hash =>
      by_cases same : other = id
      · simp only [same, ↓reduceIte, Option.some.injEq, Prod.mk.injEq] at selected
        obtain ⟨rfl, rfl⟩ := selected
        simpa [same] using present
      · simp [same] at selected
    | _ => simp at selected
  · intro present
    exact List.mem_filterMap.mpr ⟨_, present, by simp⟩

theorem mem_broadcasts {id : FundingId} {history : List Event} {payload txid : String} :
    (payload, txid) ∈ broadcasts id history ↔ .broadcast id payload txid ∈ history := by
  constructor
  · intro member
    obtain ⟨event, present, selected⟩ := List.mem_filterMap.mp member
    cases event with
    | broadcast other token hash =>
      by_cases same : other = id
      · simp only [same, ↓reduceIte, Option.some.injEq, Prod.mk.injEq] at selected
        obtain ⟨rfl, rfl⟩ := selected
        simpa [same] using present
      · simp [same] at selected
    | _ => simp at selected
  · intro present
    exact List.mem_filterMap.mpr ⟨_, present, by simp⟩

/-- How a record's columns follow the history: nothing was prepared for it, or
exactly one payload was, it is stored until the record settles, and it is the
only one ever sent. -/
inductive PayloadSound (decrypt : String → Option String) (history : List Event)
    (funding : FundingTransaction) : Prop where
  | unprepared (never : preparations funding.id history = []) (txid : funding.txid = none)
      (payload : funding.encryptedSignedTransaction = none)
      (unsent : broadcasts funding.id history = [])
  | prepared (ciphertext hash : String) (once : preparations funding.id history = [(ciphertext, hash)])
      (txid : funding.txid = some hash)
      (payload : funding.encryptedSignedTransaction = some ciphertext ∨
        funding.encryptedSignedTransaction = none ∧ funding.status.settled = true)
      (signed : funding.status.unsigned = false)
      (same : ∀ pair ∈ broadcasts funding.id history, decrypt ciphertext = some pair.1 ∧ pair.2 = hash)

/-- Every broadcast comes after the commit of its payload and before the record
settles. -/
inductive Ordered (decrypt : String → Option String) : List Event → Prop where
  | nil : Ordered decrypt []
  | broadcast {id : FundingId} (prepared : ∃ ciphertext, .prepared id ciphertext txid ∈ earlier ∧
        decrypt ciphertext = some payload)
      (unsettled : ∀ status, .settled id status ∉ earlier) (rest : Ordered decrypt earlier) :
      Ordered decrypt (.broadcast id payload txid :: earlier)
  | other (silent : ∀ id payload txid, event ≠ .broadcast id payload txid)
      (rest : Ordered decrypt earlier) : Ordered decrypt (event :: earlier)

/-- Why a prepared record may be failed: the node never accepted its payload, a
solidified receipt reported failure, or the node rejected, while the record was
still stored as signed, a payload it held. -/
def Excused (decrypt : String → Option String) (world : World) (funding : FundingTransaction) : Prop :=
  ∀ ciphertext hash payload, (ciphertext, hash) ∈ preparations funding.id world.history →
    decrypt ciphertext = some payload →
    (payload, hash) ∉ world.accepted ∨ .failedReceipt hash ∈ world.history ∨
      .rejected funding.id payload hash (some .signed) true ∈ world.history

structure Sound (decrypt : String → Option String) (world : World) : Prop where
  ids : (world.records.map (·.id)).Nodup
  txids : UniqueTxids world.records
  payloads : ∀ funding ∈ world.records, PayloadSound decrypt world.history funding
  settled : ∀ funding ∈ world.records, funding.status.settled = true ↔
    ∃ status, .settled funding.id status ∈ world.history
  owned : ∀ event ∈ world.history, ∀ id, event.record? = some id →
    ∃ funding ∈ world.records, funding.id = id
  ordered : Ordered decrypt world.history
  accepted : ∀ pair ∈ world.accepted, ∃ id, .broadcast id pair.1 pair.2 ∈ world.history
  excused : ∀ funding ∈ world.records, funding.status = .failed → Excused decrypt world funding

variable {decrypt : String → Option String} {world : World}

theorem sound_empty : Sound decrypt {} where
  ids := List.nodup_nil
  txids := List.nodup_nil
  payloads := by simp
  settled := by simp
  owned := by simp
  ordered := .nil
  accepted := by simp
  excused := by simp

theorem Ordered.append {later earlier : List Event}
    (silent : ∀ event ∈ later, ∀ id payload txid, event ≠ .broadcast id payload txid)
    (rest : Ordered decrypt earlier) : Ordered decrypt (later ++ earlier) := by
  induction later with
  | nil => exact rest
  | cons event later ih =>
    exact .other (silent event (by simp)) (ih fun other member => silent other (by simp [member]))

/-- A broadcast found anywhere in an ordered history has its payload committed
before it, and no settlement. -/
theorem Ordered.before {later earlier : List Event} {id : FundingId} {payload txid : String}
    (ordered : Ordered decrypt (later ++ .broadcast id payload txid :: earlier)) :
    (∃ ciphertext, .prepared id ciphertext txid ∈ earlier ∧ decrypt ciphertext = some payload) ∧
      ∀ status, .settled id status ∉ earlier := by
  induction later with
  | nil =>
    cases ordered with
    | broadcast prepared unsettled rest => exact ⟨prepared, unsettled⟩
    | other silent rest => exact absurd rfl (silent _ _ _)
  | cons event later ih =>
    cases ordered with
    | broadcast prepared unsettled rest => exact ih rest
    | other silent rest => exact ih rest

theorem Sound.eq_of_id (sound : Sound decrypt world) {left right : FundingTransaction}
    (leftMember : left ∈ world.records) (rightMember : right ∈ world.records)
    (same : left.id = right.id) : left = right :=
  List.inj_on_of_nodup_map sound.ids leftMember rightMember same

theorem find_of_mem {records : Table} (ids : (records.map (·.id)).Nodup) {funding : FundingTransaction}
    (member : funding ∈ records) : records.find? (·.id = funding.id) = some funding :=
  Library.Table.lookup_of_mem ids member

theorem Sound.status?_eq (sound : Sound decrypt world) {funding : FundingTransaction}
    (member : funding ∈ world.records) : world.status? funding.id = some funding.status := by
  simp [World.status?, find_of_mem sound.ids member]

theorem Sound.eq_of_txid (sound : Sound decrypt world) {left right : FundingTransaction}
    {hash : String} (leftMember : left ∈ world.records) (rightMember : right ∈ world.records)
    (leftHash : left.txid = some hash) (rightHash : right.txid = some hash) : left = right := by
  let agree (a b : FundingTransaction) : Prop :=
    ∀ value, a.txid = some value → b.txid = some value → a = b
  have symmetric : Std.Symm agree :=
    ⟨fun _ _ related value first second => (related value second first).symm⟩
  have distinct : world.records.Pairwise agree := by
    apply (List.pairwise_filterMap.mp sound.txids).imp
    intro a b apart value first second
    exact absurd rfl (apart value first value second)
  exact distinct.forall_of_forall (fun _ _ _ _ _ => rfl) leftMember rightMember hash leftHash rightHash

/-- A record moved without touching its payload. -/
structure Moved (funding after : FundingTransaction) : Prop where
  id : after.id = funding.id
  txid : after.txid = funding.txid
  payload : after.encryptedSignedTransaction = funding.encryptedSignedTransaction
  settled : after.status.settled = funding.status.settled
  unsigned : after.status.unsigned = true → funding.status.unsigned = true
  failed : after.status = .failed → funding.status = .failed

theorem Moved.refl (funding : FundingTransaction) : Moved funding funding :=
  ⟨rfl, rfl, rfl, rfl, fun unsigned => unsigned, fun failed => failed⟩

theorem PayloadSound.moved {history : List Event} {funding after : FundingTransaction}
    (sound : PayloadSound decrypt history funding) (moved : Moved funding after) :
    PayloadSound decrypt history after := by
  cases sound with
  | unprepared never txid payload unsent =>
    exact .unprepared (by rw [moved.id]; exact never) (moved.txid.trans txid)
      (moved.payload.trans payload) (by rw [moved.id]; exact unsent)
  | prepared ciphertext hash once txid payload signed same =>
    refine .prepared ciphertext hash (by rw [moved.id]; exact once) (moved.txid.trans txid) ?_ ?_
      (by rw [moved.id]; exact same)
    · rw [moved.payload, moved.settled]
      exact payload
    · by_contra unsigned
      simp [moved.unsigned (by simpa using unsigned)] at signed

/-- History entries about other records leave a record's columns explained. -/
theorem PayloadSound.congr {history longer : List Event} {funding : FundingTransaction}
    (sound : PayloadSound decrypt history funding)
    (prepared : preparations funding.id longer = preparations funding.id history)
    (sent : broadcasts funding.id longer = broadcasts funding.id history) :
    PayloadSound decrypt longer funding := by
  cases sound with
  | unprepared never txid payload unsent =>
    exact .unprepared (prepared.trans never) txid payload (sent.trans unsent)
  | prepared ciphertext hash once txid payload signed same =>
    exact .prepared ciphertext hash (prepared.trans once) txid payload signed (by rw [sent]; exact same)

theorem PayloadSound.settle {history : List Event} {funding after : FundingTransaction}
    (sound : PayloadSound decrypt history funding) (id : after.id = funding.id)
    (txid : after.txid = funding.txid) (payload : after.encryptedSignedTransaction = none)
    (settled : after.status.settled = true) : PayloadSound decrypt history after := by
  cases sound with
  | unprepared never hash _ unsent =>
    exact .unprepared (by rw [id]; exact never) (txid.trans hash) payload (by rw [id]; exact unsent)
  | prepared ciphertext hash once stored _ _ same =>
    refine .prepared ciphertext hash (by rw [id]; exact once) (txid.trans stored)
      (.inr ⟨payload, settled⟩) ?_ (by rw [id]; exact same)
    cases same : after.status <;> simp [same, FundingStatus.settled, FundingStatus.unsigned] at settled ⊢

/-- Moving records, each under its own key, keeps the invariant. -/
theorem Sound.moved (sound : Sound decrypt world) (change : FundingTransaction → FundingTransaction)
    (moved : ∀ funding ∈ world.records, Moved funding (change funding)) :
    Sound decrypt { world with records := world.records.map change } where
  ids := by
    have same : (world.records.map change).map (·.id) = world.records.map (·.id) := by
      rw [List.map_map]
      exact List.map_congr_left fun funding member => (moved funding member).id
    rw [same]
    exact sound.ids
  txids := by
    have same : (world.records.map change).filterMap (·.txid) = world.records.filterMap (·.txid) := by
      rw [List.filterMap_map]
      exact List.filterMap_congr fun funding member => (moved funding member).txid
    rw [UniqueTxids, same]
    exact sound.txids
  payloads := by
    intro after member
    obtain ⟨funding, present, rfl⟩ := List.mem_map.mp member
    exact (sound.payloads funding present).moved (moved funding present)
  settled := by
    intro after member
    obtain ⟨funding, present, rfl⟩ := List.mem_map.mp member
    rw [(moved funding present).settled, (moved funding present).id]
    exact sound.settled funding present
  owned := by
    intro event member id about
    obtain ⟨funding, present, same⟩ := sound.owned event member id about
    exact ⟨change funding, List.mem_map.mpr ⟨funding, present, rfl⟩, (moved funding present).id.trans same⟩
  ordered := sound.ordered
  accepted := sound.accepted
  excused := by
    intro after member failed
    obtain ⟨funding, present, rfl⟩ := List.mem_map.mp member
    have excuse := sound.excused funding present ((moved funding present).failed failed)
    intro ciphertext hash payload prepared
    rw [(moved funding present).id] at prepared ⊢
    exact excuse ciphertext hash payload prepared

theorem moved_recoverInterrupted (now : Time) (funding : FundingTransaction) :
    Moved funding ((recoverInterrupted now funding).getD funding) := by
  unfold recoverInterrupted
  split
  · rename_i status
    exact ⟨rfl, rfl, rfl, by simp [status, FundingStatus.settled],
      by simp [status, FundingStatus.unsigned], by simp⟩
  · exact .refl funding

theorem moved_claim (now : Time) (funding : FundingTransaction) : Moved funding (claim now funding) := by
  unfold claim
  split
  · rename_i status
    exact ⟨rfl, rfl, rfl, by simp [status, FundingStatus.settled],
      by simp [status, FundingStatus.unsigned], by simp⟩
  · exact .refl funding

theorem Sound.recovered (sound : Sound decrypt world) (now : Time) :
    Sound decrypt (recovered now world) :=
  sound.moved _ fun funding _ => moved_recoverInterrupted now funding

/-- Replacing one stored record by a moved copy. -/
theorem Sound.replaced (sound : Sound decrypt world) {funding after : FundingTransaction}
    (member : funding ∈ world.records) (moved : Moved funding after) :
    Sound decrypt { world with records := replace after world.records } := by
  apply sound.moved
  intro other present
  by_cases key : other.id = after.id
  · have same : other = funding := sound.eq_of_id present member (key.trans moved.id)
    subst same
    simpa [key] using moved
  · simpa [key] using Moved.refl other

theorem Sound.claimed (sound : Sound decrypt world) (now : Time) {funding : FundingTransaction}
    (member : funding ∈ world.records) : Sound decrypt (claimed now funding world) :=
  sound.replaced member (moved_claim now funding)

theorem Excused.mono {later : World} {funding after : FundingTransaction}
    (excuse : Excused decrypt world funding) (same : after.id = funding.id)
    (prepared : preparations funding.id later.history = preparations funding.id world.history)
    (accepted : later.accepted = world.accepted)
    (kept : ∀ event ∈ world.history, event ∈ later.history) : Excused decrypt later after := by
  intro ciphertext hash payload member deciphered
  rw [same, prepared] at member
  rw [same, accepted]
  rcases excuse ciphertext hash payload member deciphered with unheld | receipt | rejection
  · exact .inl unheld
  · exact .inr (.inl (kept _ receipt))
  · exact .inr (.inr (kept _ rejection))

/-- An update either returns early or writes one record back with its event. -/
theorem commit_cases {id : FundingId} {mark : Mark} {now : Time} {after : World}
    (committed : commit id mark now world = some after) :
    after = world ∨ ∃ funding ∈ world.records, ∃ written, funding.id = id ∧
      mark.writes now funding = some written ∧ UniqueTxids (replace written world.records) ∧
      after = { world with records := replace written world.records,
                           history := mark.event id ++ world.history } := by
  unfold commit at committed
  cases found : world.records.find? (·.id = id) with
  | none =>
    simp only [found, Option.some.injEq] at committed
    exact .inl committed.symm
  | some funding =>
    have key : funding.id = id := by simpa using List.find?_some found
    cases writes : mark.writes now funding with
    | none =>
      simp only [found, writes, Option.some.injEq] at committed
      exact .inl committed.symm
    | some written =>
      simp only [found, writes] at committed
      split at committed
      · rename_i unique
        cases committed
        exact .inr ⟨funding, List.mem_of_find?_eq_some found, written, key, writes, unique, rfl⟩
      · cases committed

/-- Replacing a record while noting one settlement or preparation of it. The
last premise says how the new columns follow the longer history. -/
theorem Sound.written (sound : Sound decrypt world) {funding after : FundingTransaction}
    {events : List Event} (member : funding ∈ world.records) (key : after.id = funding.id)
    (unique : UniqueTxids (replace after world.records))
    (about : ∀ event ∈ events, event.record? = some funding.id)
    (silent : ∀ event ∈ events, ∀ id payload txid, event ≠ .broadcast id payload txid)
    (payload : PayloadSound decrypt (events ++ world.history) after)
    (settled : after.status.settled = true ↔ ∃ status, .settled after.id status ∈ events ++ world.history)
    (excused : after.status = .failed → Excused decrypt
      { world with records := replace after world.records, history := events ++ world.history } after) :
    Sound decrypt
      { world with records := replace after world.records, history := events ++ world.history } := by
  have prepared {other : FundingTransaction} (different : other.id ≠ after.id) :
      preparations other.id (events ++ world.history) = preparations other.id world.history := by
    have none : preparations other.id events = [] := by
      apply List.eq_nil_iff_forall_not_mem.mpr
      rintro ⟨ciphertext, hash⟩ present
      have owner := about _ (mem_preparations.mp present)
      simp only [Event.record?, Option.some.injEq] at owner
      exact different (owner.trans key.symm)
    simp [none]
  have sent (id : FundingId) :
      broadcasts id (events ++ world.history) = broadcasts id world.history := by
    have none : broadcasts id events = [] := by
      apply List.eq_nil_iff_forall_not_mem.mpr
      rintro ⟨token, hash⟩ present
      exact silent _ (mem_broadcasts.mp present) _ _ _ rfl
    simp [none]
  constructor
  · exact (ids_replace after world.records).symm ▸ sound.ids
  · exact unique
  · intro other present
    rcases mem_replace present with rfl | ⟨old, different⟩
    · exact payload
    · exact (sound.payloads other old).congr (prepared different) (sent other.id)
  · intro other present
    rcases mem_replace present with rfl | ⟨old, different⟩
    · exact settled
    · rw [sound.settled other old]
      constructor
      · rintro ⟨status, noted⟩
        exact ⟨status, List.mem_append_right _ noted⟩
      · rintro ⟨status, noted⟩
        rcases List.mem_append.mp noted with new | noted
        · have owner := about _ new
          simp only [Event.record?, Option.some.injEq] at owner
          exact absurd (owner.trans key.symm) different
        · exact ⟨status, noted⟩
  · intro event noted id owner
    rcases List.mem_append.mp noted with new | noted
    · have own := (about event new).symm.trans owner
      exact ⟨after, mem_replace_self member key.symm, key.trans (Option.some.inj own)⟩
    · obtain ⟨other, present, same⟩ := sound.owned event noted id owner
      by_cases own : other.id = after.id
      · exact ⟨after, mem_replace_self member key.symm, own.symm.trans same⟩
      · exact ⟨other, mem_replace_of_ne present own, same⟩
  · exact sound.ordered.append silent
  · intro pair held
    obtain ⟨id, noted⟩ := sound.accepted pair held
    exact ⟨id, List.mem_append_right _ noted⟩
  · intro other present failed
    rcases mem_replace present with rfl | ⟨old, different⟩
    · exact excused failed
    · exact (sound.excused other old failed).mono rfl (prepared different) rfl
        fun _ noted => List.mem_append_right _ noted

/-- A committed update keeps the invariant; failing a record needs an excuse. -/
theorem Sound.commit (sound : Sound decrypt world) {id : FundingId} {mark : Mark} {now : Time}
    {after : World} (committed : commit id mark now world = some after)
    (excuse : ∀ code message, mark = .failed code message →
      ∀ funding ∈ world.records, funding.id = id → Excused decrypt world funding) :
    Sound decrypt after := by
  rcases commit_cases committed with rfl | ⟨funding, member, written, key, writes, unique, rfl⟩
  · exact sound
  subst key
  obtain ⟨same, change⟩ := Mark.written writes
  have settledNow (event : written.status.settled = true)
      (noted : .settled funding.id written.status ∈ mark.event funding.id) :
      written.status.settled = true ↔
        ∃ status, .settled written.id status ∈ mark.event funding.id ++ world.history := by
    refine ⟨fun _ => ⟨written.status, ?_⟩, fun _ => event⟩
    rw [same]
    exact List.mem_append_left _ noted
  cases change with
  | prepared source ciphertext hash expires request before status txid payload =>
    subst request
    have old := sound.payloads funding member
    cases old with
    | prepared _ _ _ _ _ signed _ => simp [before, FundingStatus.unsigned] at signed
    | unprepared never _ _ unsent =>
      apply sound.written member same unique
      · simp [Mark.event, Event.record?]
      · simp [Mark.event]
      · refine .prepared ciphertext hash ?_ txid (.inl payload) (by rw [status]; rfl) ?_
        · simp [same, never]
        · simp [same, unsent]
      · have unsettled := sound.settled funding member
        simp only [before, FundingStatus.settled, Bool.false_eq_true, false_iff] at unsettled
        simpa [status, FundingStatus.settled, Mark.event, same] using unsettled
      · simp [status]
  | moved txid payload settled unsigned failed request =>
    have noEvent : mark.event funding.id = [] := by
      obtain ⟨notPrepared, notConfirmed, notFailed⟩ := request
      cases mark with
      | prepared source hash ciphertext expires => exact absurd rfl (notPrepared _ _ _ _)
      | confirmed => exact absurd rfl notConfirmed
      | failed code message => exact absurd rfl (notFailed _ _)
      | _ => rfl
    rw [noEvent]
    exact sound.replaced member ⟨same, txid, payload, settled, unsigned, failed⟩
  | confirmed request txid payload status =>
    subst request
    have settles : written.status.settled = true := by simp [status, FundingStatus.settled]
    apply sound.written member same unique
    · simp [Mark.event, Event.record?]
    · simp [Mark.event]
    · exact ((sound.payloads funding member).settle same txid payload settles).congr
        (by simp [Mark.event, preparations]) (by simp)
    · exact settledNow settles (by simp [Mark.event, status])
    · simp [status]
  | failed code message request txid payload status =>
    subst request
    have settles : written.status.settled = true := by simp [status, FundingStatus.settled]
    apply sound.written member same unique
    · simp [Mark.event, Event.record?]
    · simp [Mark.event]
    · exact ((sound.payloads funding member).settle same txid payload settles).congr
        (by simp [Mark.event, preparations]) (by simp)
    · exact settledNow settles (by simp [Mark.event, status])
    · intro _
      exact (excuse code message rfl funding member rfl).mono same
        (by simp [Mark.event, preparations]) rfl (fun _ noted => List.mem_append_right _ noted)

/-- Noting something that is no payload, broadcast or settlement of a record. -/
theorem Sound.noted (sound : Sound decrypt world) {event : Event}
    (anonymous : event.record? = none) :
    Sound decrypt { world with history := event :: world.history } := by
  have longer : event :: world.history = [event] ++ world.history := rfl
  have quiet : ∃ txid, event = .failedReceipt txid := by
    cases event <;> simp [Event.record?] at anonymous
    exact ⟨_, rfl⟩
  obtain ⟨txid, rfl⟩ := quiet
  refine ⟨sound.ids, sound.txids, ?_, ?_, ?_, ?_, ?_, ?_⟩
  · intro funding member
    exact (sound.payloads funding member).congr (by simp [preparations]) (by simp [broadcasts])
  · intro funding member
    simpa using sound.settled funding member
  · intro other member id about
    rcases List.mem_cons.mp member with rfl | old
    · simp [Event.record?] at about
    · exact sound.owned other old id about
  · exact .other (by simp) sound.ordered
  · intro pair held
    obtain ⟨id, noted⟩ := sound.accepted pair held
    exact ⟨id, List.mem_cons_of_mem _ noted⟩
  · intro funding member failed
    exact (sound.excused funding member failed).mono rfl (by simp [preparations]) rfl
      fun _ noted => List.mem_cons_of_mem _ noted

theorem Sound.received (sound : Sound decrypt world) (txid : String) (result : ReceiptResult) :
    Sound decrypt (received txid result world) := by
  unfold Funding.received
  split
  · exact sound.noted rfl
  · exact sound

/-- Sending the stored payload of an unsettled record keeps the invariant. -/
theorem Sound.sent (sound : Sound decrypt world) {funding : FundingTransaction}
    (member : funding ∈ world.records) (unsettled : funding.status.settled = false)
    {ciphertext hash payload : String} (txid : funding.txid = some hash)
    (stored : funding.encryptedSignedTransaction = some ciphertext)
    (deciphered : decrypt ciphertext = some payload) (accepted : Bool)
    (result : Except Raised Unit) :
    Sound decrypt (sent funding.id payload hash accepted result world) := by
  obtain ⟨once, same⟩ : preparations funding.id world.history = [(ciphertext, hash)] ∧
      ∀ pair ∈ broadcasts funding.id world.history,
        decrypt ciphertext = some pair.1 ∧ pair.2 = hash := by
    cases sound.payloads funding member with
    | unprepared _ none _ _ => simp [none] at txid
    | prepared token other once known kept _ same =>
      obtain rfl : other = hash := Option.some.inj (known.symm.trans txid)
      have token : token = ciphertext := by
        rcases kept with kept | ⟨_, settled⟩
        · exact Option.some.inj (kept.symm.trans stored)
        · simp [settled] at unsettled
      subst token
      exact ⟨once, same⟩
  have noted : .prepared funding.id ciphertext hash ∈ world.history := by
    rw [← mem_preparations, once]
    simp
  have open_ (status : FundingStatus) : .settled funding.id status ∉ world.history := by
    intro settlement
    have settled := (sound.settled funding member).mpr ⟨status, settlement⟩
    simp [settled] at unsettled
  have quiet (id : FundingId) : preparations id (Funding.sent funding.id payload hash accepted
      result world).history = preparations id world.history := by
    rcases result with error | _
    · cases error <;> simp [Funding.sent, preparations]
    · simp [Funding.sent, preparations]
  have sends (id : FundingId) : broadcasts id (Funding.sent funding.id payload hash accepted
      result world).history =
        if funding.id = id then (payload, hash) :: broadcasts id world.history
        else broadcasts id world.history := by
    rcases result with error | _
    · cases error <;> by_cases own : funding.id = id <;> simp [Funding.sent, broadcasts, own]
    · by_cases own : funding.id = id <;> simp [Funding.sent, broadcasts, own]
  have kept : ∀ event ∈ world.history, event ∈ (Funding.sent funding.id payload hash accepted
      result world).history := by
    intro event member
    simp [Funding.sent, member]
  refine ⟨sound.ids, sound.txids, ?_, ?_, ?_, ?_, ?_, ?_⟩
  · intro other present
    by_cases own : funding.id = other.id
    · obtain rfl := sound.eq_of_id member present own
      refine .prepared ciphertext hash (by rw [quiet, once]) txid (.inl stored) ?_ ?_
      · cases sound.payloads funding member with
        | unprepared _ none _ _ => simp [none] at txid
        | prepared _ _ _ _ _ signed _ => exact signed
      · intro pair sentPair
        simp only [sends, ↓reduceIte, List.mem_cons] at sentPair
        rcases sentPair with rfl | old
        · exact ⟨deciphered, rfl⟩
        · exact same pair old
    · exact (sound.payloads other present).congr (quiet _) (by simp [sends, own])
  · intro other present
    rw [sound.settled other present]
    constructor
    · rintro ⟨status, settlement⟩
      exact ⟨status, kept _ settlement⟩
    · rintro ⟨status, settlement⟩
      rcases result with error | _
      · cases error <;> exact ⟨status, by simpa [Funding.sent] using settlement⟩
      · exact ⟨status, by simpa [Funding.sent] using settlement⟩
  · intro event present id about
    have own : event ∈ world.history ∨ event.record? = some funding.id := by
      rcases result with error | _
      · cases error <;> simp only [Funding.sent, List.mem_append, List.mem_cons, List.not_mem_nil,
          or_false, false_or] at present
        · rcases present with rfl | old
          · exact .inr rfl
          · exact .inl old
        · rcases present with rfl | rfl | old
          · exact .inr rfl
          · exact .inr rfl
          · exact .inl old
        · rcases present with rfl | old
          · exact .inr rfl
          · exact .inl old
      · simp only [Funding.sent, List.nil_append, List.mem_cons] at present
        rcases present with rfl | old
        · exact .inr rfl
        · exact .inl old
    rcases own with old | own
    · exact sound.owned event old id about
    · exact ⟨funding, member, Option.some.inj (own.symm.trans about)⟩
  · have first : Ordered decrypt (.broadcast funding.id payload hash :: world.history) :=
      .broadcast ⟨ciphertext, noted, deciphered⟩ open_ sound.ordered
    rcases result with error | _
    · cases error with
      | fundingRejected message => exact .other (by simp) first
      | _ => exact first
    · exact first
  · intro pair held
    have old : pair = (payload, hash) ∨ pair ∈ world.accepted := by
      cases accepted with
      | false => exact .inr held
      | true => simpa [Funding.sent] using held
    rcases old with rfl | old
    · exact ⟨funding.id, by simp [Funding.sent]⟩
    · obtain ⟨id, event⟩ := sound.accepted pair old
      exact ⟨id, kept _ event⟩
  · intro other present failed token code text prepared plain
    rw [quiet] at prepared
    have different : other ≠ funding := by
      rintro rfl
      simp [failed, FundingStatus.settled] at unsettled
    have apart : code ≠ hash := by
      rintro rfl
      cases sound.payloads other present with
      | unprepared never _ _ _ => simp [never] at prepared
      | prepared _ own onceOther txidOther _ _ _ =>
        rw [onceOther, List.mem_singleton, Prod.mk.injEq] at prepared
        obtain ⟨-, rfl⟩ := prepared
        exact different (sound.eq_of_txid present member txidOther txid)
    rcases sound.excused other present failed token code text prepared plain with
      unheld | receipt | rejection
    · left
      cases accepted <;> simp [Funding.sent, unheld, apart]
    · exact .inr (.inl (kept _ receipt))
    · exact .inr (.inr (kept _ rejection))

/-- A new request under an unused key keeps the invariant. -/
theorem Sound.request (sound : Sound decrypt world) {funding : FundingTransaction} {after : World}
    (requested : request world funding = some after) : Sound decrypt after := by
  unfold Funding.request at requested
  split at requested
  · rename_i allowed
    obtain ⟨⟨status, txid, payload⟩, fresh⟩ := allowed
    cases requested
    have unknown (event : Event) (present : event ∈ world.history) :
        event.record? ≠ some funding.id := by
      intro about
      obtain ⟨other, member, same⟩ := sound.owned event present _ about
      exact fresh other member same
    refine ⟨?_, ?_, ?_, ?_, ?_, sound.ordered, sound.accepted, ?_⟩
    · simp only [List.map_cons, List.nodup_cons]
      refine ⟨?_, sound.ids⟩
      intro member
      obtain ⟨other, present, same⟩ := List.mem_map.mp member
      exact fresh other present same
    · simpa [UniqueTxids, txid] using sound.txids
    · intro other member
      rcases List.mem_cons.mp member with rfl | old
      · refine .unprepared ?_ txid payload ?_
        · apply List.eq_nil_iff_forall_not_mem.mpr
          rintro ⟨token, hash⟩ present
          exact unknown _ (mem_preparations.mp present) rfl
        · apply List.eq_nil_iff_forall_not_mem.mpr
          rintro ⟨token, hash⟩ present
          exact unknown _ (mem_broadcasts.mp present) rfl
      · exact sound.payloads other old
    · intro other member
      rcases List.mem_cons.mp member with rfl | old
      · simp only [status, FundingStatus.settled, Bool.false_eq_true, false_iff, not_exists]
        intro settled present
        exact unknown _ present rfl
      · exact sound.settled other old
    · intro event present id about
      obtain ⟨other, member, same⟩ := sound.owned event present id about
      exact ⟨other, List.mem_cons_of_mem _ member, same⟩
    · intro other member failed
      rcases List.mem_cons.mp member with rfl | old
      · simp [status] at failed
      · exact sound.excused other old failed
  · cases requested

end TronForge.Funding
