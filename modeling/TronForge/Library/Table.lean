import Mathlib.Algebra.GroupWithZero.Nat
import Mathlib.Data.List.Nodup

/-! Tables as lists of rows under a primary key: lookup by key, and an update
of the row with a given key. -/

namespace TronForge.Library.Table

variable {Row Key : Type} (key : Row → Key)

/-- No two rows share a primary key. -/
def Unique (rows : List Row) : Prop := (rows.map key).Nodup

variable [DecidableEq Key]

def lookup (id : Key) (rows : List Row) : Option Row := rows.find? fun row => decide (key row = id)

/-- Change the row with the given key; an absent key changes nothing. -/
def modify (id : Key) (change : Row → Row) (rows : List Row) : List Row :=
  rows.map fun row => if key row = id then change row else row

variable {key} {rows : List Row} {id : Key} {row other : Row} {change : Row → Row}

theorem mem_of_lookup (found : lookup key id rows = some row) : row ∈ rows :=
  List.mem_of_find?_eq_some found

theorem key_of_lookup (found : lookup key id rows = some row) : key row = id := by
  simpa using List.find?_some found

theorem key_ne_of_lookup (absent : lookup key id rows = none) (member : row ∈ rows) :
    key row ≠ id := by
  simpa using List.find?_eq_none.mp absent row member

omit [DecidableEq Key] in
theorem eq_of_key (unique : Unique key rows) (left : row ∈ rows) (right : other ∈ rows)
    (same : key row = key other) : row = other :=
  List.inj_on_of_nodup_map unique left right same

theorem lookup_of_mem (unique : Unique key rows) (member : row ∈ rows) :
    lookup key (key row) rows = some row := by
  cases found : lookup key (key row) rows with
  | none => exact absurd rfl (key_ne_of_lookup found member)
  | some other =>
    have same := eq_of_key unique (mem_of_lookup found) member (key_of_lookup found)
    rw [same]

theorem mem_modify (member : row ∈ modify key id change rows) :
    (∃ old ∈ rows, key old = id ∧ row = change old) ∨ row ∈ rows ∧ key row ≠ id := by
  obtain ⟨old, present, same⟩ := List.mem_map.mp member
  by_cases own : key old = id
  · left
    exact ⟨old, present, own, by simpa [own] using same.symm⟩
  · right
    simp only [own, ↓reduceIte] at same
    subst row
    exact ⟨present, own⟩

theorem mem_modify_self (member : row ∈ rows) (own : key row = id) :
    change row ∈ modify key id change rows :=
  List.mem_map.mpr ⟨row, member, by simp [own]⟩

theorem mem_modify_of_ne (member : row ∈ rows) (different : key row ≠ id) :
    row ∈ modify key id change rows :=
  List.mem_map.mpr ⟨row, member, by simp [different]⟩

theorem lookup_cons : lookup key id (row :: rows) = if key row = id then some row else lookup key id rows := by
  by_cases own : key row = id <;> simp [lookup, own]

theorem lookup_map (kept : ∀ row, key (change row) = key row) :
    lookup key id (rows.map change) = (lookup key id rows).map change := by
  induction rows with
  | nil => rfl
  | cons head rest hypothesis =>
    rw [List.map_cons, lookup_cons, lookup_cons, hypothesis, kept]
    split
    · rfl
    · rfl

/-- A row is changed exactly where its key is the one modified. -/
theorem lookup_modify (kept : ∀ row, key (change row) = key row) (asked : Key) :
    lookup key asked (modify key id change rows) =
      if asked = id then (lookup key asked rows).map change else lookup key asked rows := by
  induction rows with
  | nil => simp [lookup, modify]
  | cons head rest hypothesis =>
    have split : modify key id change (head :: rest) =
        (if key head = id then change head else head) :: modify key id change rest := rfl
    have keyed : key (if key head = id then change head else head) = key head := by
      split
      · exact kept head
      · rfl
    simp only [lookup] at hypothesis ⊢
    rw [split, List.find?_cons, List.find?_cons, hypothesis, keyed]
    by_cases same : key head = asked
    · subst same
      by_cases own : key head = id <;> simp [own]
    · simp [same]

omit [DecidableEq Key] in
theorem keys_map (kept : ∀ row ∈ rows, key (change row) = key row) :
    (rows.map change).map key = rows.map key := by
  rw [List.map_map]
  exact List.map_congr_left fun row member => kept row member

theorem keys_modify (kept : ∀ row ∈ rows, key (change row) = key row) :
    (modify key id change rows).map key = rows.map key := by
  apply keys_map
  intro row member
  by_cases own : key row = id
  · simp only [own, ↓reduceIte]
    exact (kept row member).trans own
  · simp [own]

/-- The keys stay if the rows of the key keep it. -/
theorem keys_modify_own (kept : ∀ row ∈ rows, key row = id → key (change row) = id) :
    (modify key id change rows).map key = rows.map key := by
  apply keys_map
  intro row member
  by_cases own : key row = id
  · rw [if_pos own, kept row member own, own]
  · rw [if_neg own]

/-- No key is lost. -/
theorem exists_modify {asked : Key} (present : ∃ row ∈ rows, key row = asked)
    (kept : ∀ row ∈ rows, key (change row) = key row) : ∃ row ∈ modify key id change rows, key row = asked := by
  have member : asked ∈ (modify key id change rows).map key := by
    rw [keys_modify kept]
    exact List.mem_map.mpr present
  exact List.mem_map.mp member

omit [DecidableEq Key] in
theorem Unique.map (unique : Unique key rows) (kept : ∀ row ∈ rows, key (change row) = key row) :
    Unique key (rows.map change) := by
  rw [Unique, keys_map kept]
  exact unique

theorem Unique.modify (unique : Unique key rows) (kept : ∀ row ∈ rows, key (change row) = key row) :
    Unique key (modify key id change rows) := by
  rw [Unique, keys_modify kept]
  exact unique

/-- An absent key changes nothing. -/
theorem modify_absent (absent : ∀ row ∈ rows, key row ≠ id) : modify key id change rows = rows := by
  conv_rhs => rw [← List.map_id rows]
  apply List.map_congr_left
  intro row member
  exact if_neg (absent row member)

omit [DecidableEq Key] in
theorem Unique.filter (unique : Unique key rows) (wanted : Row → Bool) : Unique key (rows.filter wanted) :=
  unique.sublist (List.filter_sublist.map key)

/-- A row that grows makes the total grow. -/
theorem sum_modify {weight : Row → Nat} {more : Nat} (unique : Unique key rows) (member : row ∈ rows)
    (own : key row = id) (grows : weight (change row) = weight row + more) :
    ((modify key id change rows).map weight).sum = (rows.map weight).sum + more := by
  induction rows with
  | nil => cases member
  | cons head rest hypothesis =>
    obtain ⟨fresh, unique⟩ := List.nodup_cons.mp unique
    have split : modify key id change (head :: rest) =
        (if key head = id then change head else head) :: modify key id change rest := rfl
    rw [split, List.map_cons, List.sum_cons, List.map_cons, List.sum_cons]
    rcases List.mem_cons.mp member with rfl | later
    · have others : modify key id change rest = rest := modify_absent fun other present same =>
        fresh (List.mem_map.mpr ⟨other, present, same.trans own.symm⟩)
      rw [if_pos own, grows, others]
      omega
    · have different : key head ≠ id := fun same =>
        fresh (List.mem_map.mpr ⟨row, later, own.trans same.symm⟩)
      rw [if_neg different, hypothesis unique later]
      omega

end TronForge.Library.Table
