import Mathlib.Algebra.GroupWithZero.Nat
import Mathlib.Data.List.Perm.Basic
import Mathlib.Order.Nat
import TronForge.Funding.Repository
import TronForge.Generator.Database

/-! The funding table as requests and the processor share it: the committed rows, the rows
that open sessions have inserted, and who holds the lock on a user. -/

namespace TronForge.Funding

open Generator (UserId JobId)

/-- A row with the columns that only requests read. -/
structure FundingRow extends FundingTransaction where
  userId : UserId
  jobId : JobId
  idempotencyKey : String
  network : String
  deriving DecidableEq, Repr

/-- `RESERVED_DAILY_STATUSES`. -/
def FundingStatus.reserved : FundingStatus → Bool
  | .requested | .preparing | .signed | .broadcast | .confirmed | .unknown => true
  | .failed => false

def dayMicroseconds : Nat := 86400000000

/-- `replace(hour=0, minute=0, second=0, microsecond=0)`. -/
def startOfDay (now : Time) : Time := now / dayMicroseconds * dayMicroseconds

/-- `func.sum(FundingTransaction.amount_micro_usdt)` over the wanted rows. -/
def total (wanted : FundingRow → Bool) (rows : List FundingRow) : Nat :=
  ((rows.filter wanted).map fun row => row.amountMicroUsdt).sum

/-- The sum that `create_funding` checks; the day has no end. -/
def reservedSince (user : UserId) (dayStart : Time) : List FundingRow → Nat :=
  total fun row => decide (row.userId = user) && decide (dayStart ≤ row.createdAt) && row.status.reserved

/-- The amounts of a user's records of one day that have not failed. -/
def spentOn (user : UserId) (day : Nat) : List FundingRow → Nat :=
  total fun row => decide (row.userId = user) && decide (row.createdAt / dayMicroseconds = day) &&
    decide (row.status ≠ .failed)

structure Ledger where
  clock : Time := 0
  rows : List FundingRow := []
  pending : List (Nat × FundingRow) := []
  holder : UserId → Option Nat := fun _ => none

namespace Ledger

/-- The rows a session has inserted and not committed. -/
def own (session : Nat) (ledger : Ledger) : List FundingRow :=
  (ledger.pending.filter fun entry => decide (entry.1 = session)).map Prod.snd

def others (session : Nat) (ledger : Ledger) : List (Nat × FundingRow) :=
  ledger.pending.filter fun entry => !decide (entry.1 = session)

/-- `SELECT ... FOR UPDATE` on the row of the user. -/
def lock (session : Nat) (user : UserId) (ledger : Ledger) : Ledger :=
  { ledger with holder := fun other => if other = user then some session else ledger.holder other }

/-- The row of the session is stored for itself; a request inserts once. -/
def insert (session : Nat) (row : FundingRow) (ledger : Ledger) : Ledger :=
  { ledger with pending := (session, row) :: ledger.others session }

/-- The end of a transaction gives up its locks and what it did not commit. -/
def rollback (session : Nat) (ledger : Ledger) : Ledger :=
  { ledger with
    pending := ledger.others session
    holder := fun user => if ledger.holder user = some session then none else ledger.holder user }

def commit (session : Nat) (ledger : Ledger) : Ledger :=
  { ledger.rollback session with rows := ledger.own session ++ ledger.rows }

/-- The clock is read. -/
def tick (now : Time) (ledger : Ledger) : Ledger := { ledger with clock := now }

end Ledger

section Sums
variable {wanted other : FundingRow → Bool} {rows : List FundingRow}

theorem total_mono (wider : ∀ row ∈ rows, wanted row = true → other row = true) : total wanted rows ≤ total other rows := by
  induction rows with
  | nil => exact le_rfl
  | cons row rest hypothesis =>
    have below := hypothesis fun row member => wider row (List.mem_cons_of_mem _ member)
    simp only [total, List.filter_cons] at below ⊢
    cases first : wanted row with
    | false =>
      rw [if_neg Bool.false_ne_true]
      split
      · exact below.trans (Nat.le_add_left _ _)
      · exact below
    | true =>
      rw [if_pos rfl, if_pos (wider row List.mem_cons_self first)]
      exact Nat.add_le_add_left below _

theorem total_append (more : List FundingRow) : total wanted (more ++ rows) = total wanted more + total wanted rows := by
  rw [total, List.filter_append, List.map_append, List.sum_append]
  rfl

theorem total_none (none_ : ∀ row ∈ rows, wanted row = false) : total wanted rows = 0 := by
  have empty : rows.filter wanted = [] := List.filter_eq_nil_iff.mpr fun row member => by simp [none_ row member]
  rw [total, empty]
  rfl

/-- Rows that keep their amounts and are not wanted anew. -/
theorem total_map_le {change : FundingRow → FundingRow}
    (kept : ∀ row ∈ rows, (change row).amountMicroUsdt = row.amountMicroUsdt ∧
      (wanted (change row) = true → wanted row = true)) : total wanted (rows.map change) ≤ total wanted rows := by
  induction rows with
  | nil => exact le_rfl
  | cons row rest hypothesis =>
    have below := hypothesis fun row member => kept row (List.mem_cons_of_mem _ member)
    obtain ⟨amount, old⟩ := kept row List.mem_cons_self
    simp only [total, List.map_cons, List.filter_cons] at below ⊢
    cases first : wanted (change row) with
    | false =>
      rw [if_neg Bool.false_ne_true]
      split
      · exact below.trans (Nat.le_add_left _ _)
      · exact below
    | true =>
      rw [if_pos rfl, if_pos (old first), List.map_cons, List.map_cons, List.sum_cons, List.sum_cons, amount]
      exact Nat.add_le_add_left below _

end Sums

theorem reserved_iff (status : FundingStatus) : status.reserved = true ↔ status ≠ .failed := by
  cases status <;> simp [FundingStatus.reserved]

/-- What is spent on a day is among what is reserved since an earlier midnight. -/
theorem spentOn_le_reservedSince {user : UserId} {first day : Nat} (later : first ≤ day) (rows : List FundingRow) :
    spentOn user day rows ≤ reservedSince user (first * dayMicroseconds) rows := by
  apply total_mono
  intro row _ counted
  simp only [Bool.and_eq_true, decide_eq_true_eq, reserved_iff] at counted ⊢
  obtain ⟨⟨owner, rfl⟩, status⟩ := counted
  refine ⟨⟨owner, ?_⟩, status⟩
  calc
    first * dayMicroseconds ≤ row.createdAt / dayMicroseconds * dayMicroseconds := Nat.mul_le_mul_right _ later
    _ ≤ row.createdAt := Nat.div_mul_le_self _ _

/-- The limit is kept, and no two rows, committed or not, share a key. -/
structure Ledger.Valid (limit : Nat) (ledger : Ledger) : Prop where
  ids : ((ledger.pending.map Prod.snd ++ ledger.rows).map fun row => row.id).Nodup
  limits : ∀ user day, spentOn user day ledger.rows ≤ limit

/-- What a session may rely on: its own row stays, and what is reserved under its lock
does not grow. -/
structure Relies (session : Nat) (before after : Ledger) : Prop where
  clock : before.clock ≤ after.clock
  own : after.own session = before.own session
  held : ∀ user, before.holder user = some session → after.holder user = some session ∧
    ∀ since, reservedSince user since after.rows ≤ reservedSince user since before.rows

section Effects
variable {limit session other : Nat} {ledger : Ledger}

theorem Ledger.own_others (different : other ≠ session) (ledger : Ledger) :
    (ledger.others session).filter (fun entry => decide (entry.1 = other)) =
      ledger.pending.filter fun entry => decide (entry.1 = other) := by
  rw [Ledger.others, List.filter_filter]
  apply List.filter_congr
  intro entry _
  by_cases mine : entry.1 = other
  · simp [mine, different]
  · simp [mine]

theorem relies_tick {now : Time} (later : ledger.clock ≤ now) : Relies session ledger (ledger.tick now) :=
  ⟨later, rfl, fun _ held => ⟨held, fun _ => le_rfl⟩⟩

theorem relies_lock {user : UserId} (free : ledger.holder user = none ∨ ledger.holder user = some session)
    (different : other ≠ session) : Relies other ledger (ledger.lock session user) where
  clock := le_rfl
  own := rfl
  held locked held := by
    refine ⟨?_, fun _ => le_rfl⟩
    have elsewhere : locked ≠ user := by
      rintro rfl
      rcases free with none_ | mine
      · rw [none_] at held
        cases held
      · rw [mine] at held
        exact different (Option.some.inj held).symm
    simp only [Ledger.lock, elsewhere, if_false]
    exact held

theorem relies_insert (row : FundingRow) (different : other ≠ session) :
    Relies other ledger (ledger.insert session row) where
  clock := le_rfl
  own := by
    have mine : decide (session = other) = false := decide_eq_false (Ne.symm different)
    simp only [Ledger.own, Ledger.insert, List.filter_cons, mine, Bool.false_eq_true, if_false,
      Ledger.own_others different]
  held _ held := ⟨held, fun _ => le_rfl⟩

theorem holder_rollback {user : UserId} (held : ledger.holder user = some other) (different : other ≠ session) :
    (ledger.rollback session).holder user = some other := by
  have apart : ledger.holder user ≠ some session := by
    rw [held]
    exact fun same => different (Option.some.inj same)
  simp only [Ledger.rollback, apart, if_false]
  exact held

theorem relies_rollback (different : other ≠ session) : Relies other ledger (ledger.rollback session) where
  clock := le_rfl
  own := by rw [Ledger.own, Ledger.own, Ledger.rollback, Ledger.own_others different]
  held _ held := ⟨holder_rollback held different, fun _ => le_rfl⟩

/-- A commit grows the sums of no user whom somebody else holds. -/
theorem relies_commit (owned : ∀ row ∈ ledger.own session, ledger.holder row.userId = some session)
    (different : other ≠ session) : Relies other ledger (ledger.commit session) where
  clock := le_rfl
  own := by rw [Ledger.own, Ledger.own, Ledger.commit, Ledger.rollback, Ledger.own_others different]
  held user held := by
    refine ⟨holder_rollback held different, ?_⟩
    intro since
    have nothing : reservedSince user since (ledger.own session) = 0 := by
      apply total_none
      intro row member
      have elsewhere : row.userId ≠ user := by
        rintro rfl
        rw [owned row member] at held
        exact different (Option.some.inj held).symm
      simp [elsewhere]
    calc
      reservedSince user since (ledger.own session ++ ledger.rows) =
          reservedSince user since (ledger.own session) + reservedSince user since ledger.rows := total_append _
      _ = reservedSince user since ledger.rows := by rw [nothing, Nat.zero_add]
      _ ≤ reservedSince user since ledger.rows := le_rfl

theorem Ledger.Valid.insert (valid : ledger.Valid limit) {row : FundingRow}
    (fresh : ∀ known ∈ ledger.pending.map Prod.snd ++ ledger.rows, known.id ≠ row.id) :
    (ledger.insert session row).Valid limit := by
  refine ⟨?_, valid.limits⟩
  have fewer : ((ledger.others session).map Prod.snd ++ ledger.rows).Sublist
      (ledger.pending.map Prod.snd ++ ledger.rows) :=
    (List.filter_sublist.map Prod.snd).append (List.Sublist.refl _)
  simp only [Ledger.insert, List.map_cons, List.cons_append]
  apply List.nodup_cons.mpr
  refine ⟨?_, valid.ids.sublist (fewer.map _)⟩
  intro again
  obtain ⟨known, member, same⟩ := List.mem_map.mp again
  exact fresh known (fewer.subset member) same

theorem Ledger.Valid.rollback (valid : ledger.Valid limit) : (ledger.rollback session).Valid limit := by
  refine ⟨?_, valid.limits⟩
  have fewer : ((ledger.others session).map Prod.snd ++ ledger.rows).Sublist
      (ledger.pending.map Prod.snd ++ ledger.rows) :=
    (List.filter_sublist.map Prod.snd).append (List.Sublist.refl _)
  exact valid.ids.sublist (fewer.map _)

/-- What a session commits, it may commit if the limit bears it. -/
theorem Ledger.Valid.commit (valid : ledger.Valid limit)
    (bearable : ∀ user day, spentOn user day (ledger.own session) + spentOn user day ledger.rows ≤ limit) :
    (ledger.commit session).Valid limit := by
  constructor
  · have parted := List.filter_append_perm (fun entry : Nat × FundingRow => decide (entry.1 = session)) ledger.pending
    have moved : ((ledger.others session).map Prod.snd ++ (ledger.own session ++ ledger.rows)).Perm
        (ledger.pending.map Prod.snd ++ ledger.rows) := by
      rw [← List.append_assoc]
      apply List.Perm.append_right
      rw [Ledger.own, Ledger.others, ← List.map_append]
      exact (List.perm_append_comm.trans parted).map Prod.snd
    exact (moved.map _).nodup_iff.mpr valid.ids
  · intro user day
    exact (Nat.le_of_eq (total_append _)).trans (bearable user day)

end Effects

end TronForge.Funding
