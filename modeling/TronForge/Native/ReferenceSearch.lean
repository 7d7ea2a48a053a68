import TronForge.Native.RequestValidation

/-! What the reference search reports for a request that it accepts: the least offset
whose point is finite and matches, or the whole range as attempts. -/

namespace TronForge.Native

open Library

section
variable {P : CurvePoint} {afterT suffix : Text} {start count : Nat} {result : SearchResult}

/-- A search finds something exactly if the range holds a match. -/
theorem Finds.found_iff (finds : Finds P afterT suffix start count result) :
    result.found = true ↔ ∃ index < count, OffsetMatches P afterT suffix (start + index) := by
  cases finds with
  | winner inside hit least => exact iff_of_true rfl ⟨_, inside, hit⟩
  | nothing misses =>
    refine iff_of_false Bool.false_ne_true ?_
    intro found
    obtain ⟨index, inside, hit⟩ := found
    exact misses index inside hit

/-- The first match of the range is the one that is reported. -/
theorem Finds.first (finds : Finds P afterT suffix start count result) {index : Nat} (inside : index < count)
    (hit : OffsetMatches P afterT suffix (start + index))
    (least : ∀ earlier < index, ¬ OffsetMatches P afterT suffix (start + earlier)) :
    result = ⟨true, pointAddress (P + (start + index) • generator), scalarHex (start + index), index + 1⟩ :=
  finds.unique (.winner inside hit least)

theorem Finds.attempts (finds : Finds P afterT suffix start count result) (nothing : result.found = false) :
    result.attempts = count := by
  cases finds with
  | winner inside hit least => cases nothing
  | nothing misses => rfl

end

/-- An accepted request is searched for its least match: it is reported with its offset
in sixty-four hexadecimal digits, its address and the candidates up to it; otherwise
all candidates were tried. A point at infinity matches nothing and ends nothing. -/
theorem searchCpu_first_match (request : SearchRequest) (P : CurvePoint) (start : Nat)
    (searchable : Searchable request P start) :
    ∃ result, searchCpu request = .ok result ∧
      (result.found = true ↔
        ∃ index < request.rangeCount, OffsetMatches P request.afterT request.suffix (start + index)) ∧
      (∀ index < request.rangeCount, OffsetMatches P request.afterT request.suffix (start + index) →
        (∀ earlier < index, ¬ OffsetMatches P request.afterT request.suffix (start + earlier)) →
          result.offsetHex = (Digits.fixed 16 64 (start + index)).map hexCharacter ∧
          parseRangeStart result.offsetHex = .ok ((start + index : Nat) : Int) ∧
          result.address = pointAddress (P + (start + index) • generator) ∧ result.attempts = index + 1) ∧
      (result.found = false → result.attempts = request.rangeCount) := by
  obtain ⟨result, returned, finds⟩ := searchCpu_finds searchable
  refine ⟨result, returned, finds.found_iff, ?_, finds.attempts⟩
  intro index inside hit least
  have last := searchable.last
  have fits : start + index < 256 ^ 32 := lt_trans (by omega) groupOrder_lt
  rw [finds.first inside hit least]
  exact ⟨scalarHex_digits _, parseRangeStart_scalarHex fits, rfl, rfl⟩

/-- A range that begins at infinity. -/
theorem searchCpu_first_match_cancelling :
    ∃ result, searchCpu cancellingRequest = .ok result ∧
      (result.found = true ↔ ∃ index < 2, OffsetMatches (-generator) "Dv".toList "9K".toList (1 + index)) := by
  obtain ⟨result, returned, found, -, -⟩ := searchCpu_first_match cancellingRequest _ 1 cancellingRequest_searchable
  exact ⟨result, returned, found⟩

end TronForge.Native
