import Mathlib.Data.List.Nodup
import Mathlib.Data.List.Perm.Basic
import Mathlib.Order.Bounds.Basic
import Mathlib.Order.MinMax

/-! Work split over workers: cells written by key, items taken exactly once, and
the least of what was submitted. -/

namespace TronForge.Library

section Cells
variable {Cell : Type}

/-- Cells written by key hold their value; the others are left alone. -/
theorem getD_foldl_set (value : Nat → Cell) (keys : List Nat) (cells : List Cell) {index : Nat}
    (inside : index < cells.length) (fallback : Cell) :
    (keys.foldl (fun cells key => cells.set key (value key)) cells).getD index fallback =
      if index ∈ keys then value index else cells.getD index fallback := by
  induction keys generalizing cells with
  | nil => simp
  | cons key rest ih =>
    rw [List.foldl_cons, ih _ (by simpa using inside)]
    by_cases later : index ∈ rest
    · rw [if_pos later, if_pos (List.mem_cons_of_mem _ later)]
    · rw [if_neg later]
      by_cases here : index = key
      · subst here
        simp [inside]
      · rw [if_neg (by simp [here, later]), List.getD, List.getD,
          List.getElem?_set_ne (fun same => here same.symm)]

@[simp] theorem length_foldl_set (value : Nat → Cell) (keys : List Nat) (cells : List Cell) :
    (keys.foldl (fun cells key => cells.set key (value key)) cells).length = cells.length := by
  induction keys generalizing cells with
  | nil => rfl
  | cons key rest ih => rw [List.foldl_cons, ih, List.length_set]

end Cells

section Items
variable {Worker Item : Type}

/-- Workers with different keys share no item. -/
theorem nodup_flatMap_of_key {workers : List Worker} {items : Worker → List Item} (key : Item → Worker)
    (distinct : workers.Nodup) (once : ∀ worker ∈ workers, (items worker).Nodup)
    (keyed : ∀ worker ∈ workers, ∀ item ∈ items worker, key item = worker) :
    (workers.flatMap items).Nodup := by
  rw [List.nodup_flatMap]
  refine ⟨once, ?_⟩
  apply distinct.imp_of_mem
  intro first second firstMember secondMember differ item firstItem secondItem
  apply differ
  rw [← keyed first firstMember item firstItem, ← keyed second secondMember item secondItem]

/-- A list without repetition that has the members of a range is the range, in some order. -/
theorem perm_range {items : List Nat} {count : Nat} (once : items.Nodup)
    (covers : ∀ item, item ∈ items ↔ item < count) : items.Perm (List.range count) := by
  rw [List.perm_ext_iff_of_nodup once List.nodup_range]
  intro item
  rw [covers, List.mem_range]

end Items

section Least
variable {Index : Type} [LinearOrder Index]

/-- The running minimum is one of the submitted indices or the start, and below all of them. -/
theorem foldl_min_isLeast (indices : List Index) (start : Index) :
    IsLeast ({index | index ∈ indices} ∪ {start}) (indices.foldl min start) := by
  induction indices generalizing start with
  | nil => simp
  | cons index rest ih =>
    rw [List.foldl_cons]
    obtain ⟨member, below⟩ := ih (min start index)
    constructor
    · rcases member with inside | same
      · exact .inl (List.mem_cons_of_mem _ inside)
      · rw [Set.mem_singleton_iff] at same
        rw [same]
        rcases min_choice start index with first | second
        · rw [first]
          exact .inr rfl
        · rw [second]
          exact .inl List.mem_cons_self
    · have least := below (.inr rfl)
      rintro other (inside | same)
      · rcases List.mem_cons.mp inside with rfl | later
        · exact least.trans (min_le_right _ _)
        · exact below (.inl later)
      · rw [Set.mem_singleton_iff.mp same]
        exact least.trans (min_le_left _ _)

/-- Only the set of submitted indices matters. -/
theorem foldl_min_congr {left right : List Index} (same : ∀ index, index ∈ left ↔ index ∈ right)
    (start : Index) : left.foldl min start = right.foldl min start := by
  have members : {index | index ∈ left} = {index | index ∈ right} := Set.ext same
  have first := foldl_min_isLeast left start
  rw [members] at first
  exact first.unique (foldl_min_isLeast right start)

end Least

end TronForge.Library
