import Mathlib.Data.List.Pairwise
import Mathlib.Tactic.NormNum.Basic
import Mathlib.Order.Basic

/-! Intervals of numbers that follow one another without a gap. -/

namespace TronForge.Library

/-- An interval: its first number and how many there are. -/
structure Interval where
  first : Nat
  count : Nat
  deriving DecidableEq, Repr

/-- The number after the last. -/
def Interval.next (interval : Interval) : Nat := interval.first + interval.count

def Interval.Has (interval : Interval) (number : Nat) : Prop := interval.first ≤ number ∧ number < interval.next

/-- Two intervals without a common number. -/
def Interval.Apart (left right : Interval) : Prop := ∀ number, ¬ (left.Has number ∧ right.Has number)

theorem Interval.Apart.symm {left right : Interval} (apart : left.Apart right) : right.Apart left :=
  fun number both => apart number ⟨both.2, both.1⟩

theorem Interval.apart_of_before {left right : Interval} (before : left.next ≤ right.first) : left.Apart right := by
  rintro number ⟨⟨_, below⟩, above, _⟩
  omega

/-- One interval lies in another. -/
def Interval.Inside (inner outer : Interval) : Prop := outer.first ≤ inner.first ∧ inner.next ≤ outer.next

theorem Interval.Apart.inside {left right innerLeft innerRight : Interval} (apart : left.Apart right)
    (insideLeft : innerLeft.Inside left) (insideRight : innerRight.Inside right) : innerLeft.Apart innerRight := by
  rintro number ⟨⟨leftLow, leftHigh⟩, rightLow, rightHigh⟩
  apply apart number
  constructor
  · exact ⟨insideLeft.1.trans leftLow, leftHigh.trans_le insideLeft.2⟩
  · exact ⟨insideRight.1.trans rightLow, rightHigh.trans_le insideRight.2⟩

/-- The intervals tile the numbers from `start` up to `stop`, in their order. -/
def Tiles : Nat → List Interval → Nat → Prop
  | start, [], stop => start = stop
  | start, interval :: rest, stop => interval.first = start ∧ Tiles interval.next rest stop

namespace Tiles
variable {start middle stop : Nat} {intervals more : List Interval}

theorem le (tiles : Tiles start intervals stop) : start ≤ stop := by
  induction intervals generalizing start with
  | nil => exact Nat.le_of_eq tiles
  | cons interval rest hypothesis =>
    obtain ⟨rfl, rest⟩ := tiles
    exact (Nat.le_add_right _ _).trans (hypothesis rest)

theorem append (front : Tiles start intervals middle) (back : Tiles middle more stop) :
    Tiles start (intervals ++ more) stop := by
  induction intervals generalizing start with
  | nil =>
    obtain rfl : start = middle := front
    exact back
  | cons interval rest hypothesis =>
    obtain ⟨first, rest⟩ := front
    exact ⟨first, hypothesis rest⟩

/-- One more interval at the end. -/
theorem concat (front : Tiles start intervals middle) (count : Nat) :
    Tiles start (intervals ++ [⟨middle, count⟩]) (middle + count) :=
  front.append ⟨rfl, rfl⟩

theorem within (tiles : Tiles start intervals stop) {interval : Interval} (member : interval ∈ intervals) :
    start ≤ interval.first ∧ interval.next ≤ stop := by
  induction intervals generalizing start with
  | nil => cases member
  | cons head rest hypothesis =>
    obtain ⟨rfl, tail⟩ := tiles
    cases member with
    | head => exact ⟨le_rfl, tail.le⟩
    | tail _ inside =>
      obtain ⟨low, high⟩ := hypothesis tail inside
      exact ⟨(Nat.le_add_right _ _).trans low, high⟩

/-- No number is in two of the intervals. -/
theorem pairwise_apart (tiles : Tiles start intervals stop) : intervals.Pairwise Interval.Apart := by
  induction intervals generalizing start with
  | nil => exact .nil
  | cons head rest hypothesis =>
    obtain ⟨rfl, tail⟩ := tiles
    refine .cons ?_ (hypothesis tail)
    intro interval member
    exact Interval.apart_of_before (tail.within member).1

/-- The intervals have exactly the numbers between. -/
theorem has_iff (tiles : Tiles start intervals stop) (number : Nat) :
    (∃ interval ∈ intervals, interval.Has number) ↔ start ≤ number ∧ number < stop := by
  constructor
  · rintro ⟨interval, member, low, high⟩
    obtain ⟨above, below⟩ := tiles.within member
    exact ⟨above.trans low, high.trans_le below⟩
  · induction intervals generalizing start with
    | nil =>
      rintro ⟨low, high⟩
      obtain rfl : start = stop := tiles
      omega
    | cons head rest hypothesis =>
      obtain ⟨rfl, tail⟩ := tiles
      rintro ⟨low, high⟩
      by_cases here : number < head.next
      · exact ⟨head, List.mem_cons_self, low, here⟩
      · obtain ⟨interval, member, has⟩ := hypothesis tail ⟨Nat.le_of_not_lt here, high⟩
        exact ⟨interval, List.mem_cons_of_mem _ member, has⟩

end Tiles

end TronForge.Library
