import TronForge.Native.HostAddress
import TronForge.Native.PublicKeys

/-! The reference search on the processor: it walks the range point by point, skips
the point at infinity, and returns the first offset whose address matches. -/

namespace TronForge.Native

/-- `SearchRequest`; `afterT` is its `prefix`. -/
structure SearchRequest where
  publicKeyHex : Text
  pattern : Text
  afterT : Text
  suffix : Text
  rangeStart : Text
  rangeCount : Nat
  deriving DecidableEq, Repr

/-- `SearchResult` without the elapsed time. -/
structure SearchResult where
  found : Bool
  address : Text
  offsetHex : Text
  attempts : Nat
  deriving DecidableEq, Repr

/-- What the loop of `search_cpu` returns for its remaining candidates. -/
def searchLoop (afterT suffix : Text) (start : Int) : Nat → Nat → CurvePoint → Except HostError SearchResult
  | 0, index, _ => return ⟨false, [], [], index⟩
  | remaining + 1, index, current =>
    if current = 0 then searchLoop afterT suffix start remaining (index + 1) (current + generator)
    else
      match pointToAddress (pointBytes current) with
      | .error error => throw (.address error)
      | .ok address =>
        if matchesPattern address afterT suffix then
          (scalarToHex (start + index)).map fun offset => ⟨true, address, offset, index + 1⟩
        else searchLoop afterT suffix start remaining (index + 1) (current + generator)

/-- `search_cpu`. -/
def searchCpu (request : SearchRequest) : Except HostError SearchResult :=
  match validatePattern request.pattern request.afterT request.suffix with
  | .error error => throw (.pattern error)
  | .ok () =>
    if request.rangeCount = 0 then throw .noCandidates
    else
      match publicPoint request.publicKeyHex with
      | .error error => throw error
      | .ok base =>
        match parseRangeStart request.rangeStart with
        | .error error => throw error
        | .ok start =>
          if start ≤ 0 then throw .startLow
          else if (groupOrder : Int) ≤ start + (request.rangeCount - 1 : Nat) then throw .crossesOrder
          else searchLoop request.afterT request.suffix start request.rangeCount 0 (start.toNat • generator + base)

/-- A request whose range of offsets from a public point may be searched. -/
structure Searchable (request : SearchRequest) (P : CurvePoint) (start : Nat) : Prop where
  pattern : validatePattern request.pattern request.afterT request.suffix = .ok ()
  key : publicPoint request.publicKeyHex = .ok P
  parsed : parseRangeStart request.rangeStart = .ok (start : Int)
  count : 0 < request.rangeCount
  positive : 0 < start
  last : start + (request.rangeCount - 1) < groupOrder

/-- The address of a finite point. -/
def pointAddress (P : CurvePoint) : Text := deviceTronAddressFromPublicKey (pointBytes P)

/-- The offset leads to a finite point whose address matches. -/
def OffsetMatches (P : CurvePoint) (afterT suffix : Text) (offset : Nat) : Prop :=
  P + offset • generator ≠ 0 ∧ matchesPattern (pointAddress (P + offset • generator)) afterT suffix = true

instance (P : CurvePoint) (afterT suffix : Text) : DecidablePred (OffsetMatches P afterT suffix) :=
  fun _ => inferInstanceAs (Decidable (_ ∧ _))

theorem pointToAddress_pointBytes {P : CurvePoint} (finite : P ≠ 0) :
    pointToAddress (pointBytes P) = .ok (pointAddress P) :=
  pointToAddress_eq (length_pointBytes finite)

/-- What a search of an accepted request returns: the first match, or none. -/
inductive Finds (P : CurvePoint) (afterT suffix : Text) (start count : Nat) : SearchResult → Prop
  | winner {index : Nat} (inside : index < count) (hit : OffsetMatches P afterT suffix (start + index))
      (least : ∀ earlier < index, ¬ OffsetMatches P afterT suffix (start + earlier)) :
      Finds P afterT suffix start count
        ⟨true, pointAddress (P + (start + index) • generator), scalarHex (start + index), index + 1⟩
  | nothing (misses : ∀ index < count, ¬ OffsetMatches P afterT suffix (start + index)) :
      Finds P afterT suffix start count ⟨false, [], [], count⟩

theorem scalarToHex_below {scalar : Nat} (below : scalar < groupOrder) :
    scalarToHex (scalar : Int) = .ok (scalarHex scalar) := by
  have fits : ((scalar : Nat) : Int).natAbs < 256 ^ 32 := below.trans groupOrder_lt
  rw [scalarToHex, if_pos fits]
  rfl

section
variable {P : CurvePoint} {afterT suffix : Text} {start count : Nat}

/-- One turn of the loop. -/
theorem searchLoop_step (remaining index : Nat) {current : CurvePoint}
    (here : current = P + (start + index) • generator) :
    searchLoop afterT suffix start (remaining + 1) index current =
      if OffsetMatches P afterT suffix (start + index) then
        (scalarToHex (start + index : Int)).map fun offset => ⟨true, pointAddress current, offset, index + 1⟩
      else searchLoop afterT suffix start remaining (index + 1) (current + generator) := by
  have meaning : OffsetMatches P afterT suffix (start + index) ↔
      current ≠ 0 ∧ matchesPattern (pointAddress current) afterT suffix = true := by
    rw [here]
    rfl
  rw [searchLoop]
  by_cases infinite : current = 0
  · have miss : ¬ OffsetMatches P afterT suffix (start + index) := fun hit => (meaning.mp hit).1 infinite
    rw [if_pos infinite, if_neg miss]
  · rw [if_neg infinite, pointToAddress_pointBytes infinite]
    simp only [meaning, infinite, ne_eq, not_false_eq_true, true_and]

theorem searchLoop_finds {remaining index : Nat} {current : CurvePoint} (split : index + remaining = count)
    (last : start + (count - 1) < groupOrder) (here : current = P + (start + index) • generator)
    (misses : ∀ earlier < index, ¬ OffsetMatches P afterT suffix (start + earlier)) :
    ∃ result, searchLoop afterT suffix start remaining index current = .ok result ∧
      Finds P afterT suffix start count result := by
  induction remaining generalizing index current with
  | zero =>
    rw [Nat.add_zero] at split
    rw [split] at misses
    exact ⟨_, by rw [searchLoop, split]; rfl, .nothing misses⟩
  | succ remaining hypothesis =>
    rw [searchLoop_step remaining index here]
    by_cases hit : OffsetMatches P afterT suffix (start + index)
    · have text := scalarToHex_below (by omega : start + index < groupOrder)
      rw [Nat.cast_add] at text
      rw [if_pos hit, text, here]
      exact ⟨_, rfl, .winner (by omega) hit misses⟩
    · rw [if_neg hit]
      apply hypothesis (by omega)
      · rw [here, add_assoc, ← succ_nsmul, Nat.add_assoc]
      · intro earlier below
        rcases Nat.lt_succ_iff_lt_or_eq.mp below with before | same
        · exact misses earlier before
        · rw [same]
          exact hit

end

/-- The results of a request are unique. -/
theorem Finds.unique {P : CurvePoint} {afterT suffix : Text} {start count : Nat} {result other : SearchResult}
    (first : Finds P afterT suffix start count result) (second : Finds P afterT suffix start count other) :
    result = other := by
  cases first with
  | winner inside hit least =>
    rename_i index
    cases second with
    | winner otherInside otherHit otherLeast =>
      rename_i otherIndex
      have notBelow : ¬ index < otherIndex := fun below => otherLeast index below hit
      have notAbove : ¬ otherIndex < index := fun below => least otherIndex below otherHit
      have same : index = otherIndex := by omega
      rw [same]
    | nothing misses => exact absurd hit (misses _ inside)
  | nothing misses =>
    cases second with
    | winner inside hit least => exact absurd hit (misses _ inside)
    | nothing _ => rfl

/-- An accepted request is searched to its end. -/
theorem searchCpu_finds {request : SearchRequest} {P : CurvePoint} {start : Nat}
    (searchable : Searchable request P start) :
    ∃ result, searchCpu request = .ok result ∧
      Finds P request.afterT request.suffix start request.rangeCount result := by
  have last := searchable.last
  have positive := searchable.positive
  have count := searchable.count
  have inside : ¬ (groupOrder : Int) ≤ (start : Int) + (request.rangeCount - 1 : Nat) := by omega
  have here : start • generator + P = P + (start + 0) • generator := by rw [Nat.add_zero, add_comm]
  rw [searchCpu, searchable.pattern]
  simp only [if_neg count.ne', searchable.key, searchable.parsed]
  rw [if_neg (by omega), if_neg inside, Int.toNat_natCast]
  exact searchLoop_finds (Nat.zero_add _) last here (fun earlier below => absurd below (by omega))

/-- `search_cpu` accepts exactly these requests. -/
theorem searchCpu_ok_iff (request : SearchRequest) :
    (∃ result, searchCpu request = .ok result) ↔ ∃ P start, Searchable request P start := by
  constructor
  · rintro ⟨result, returned⟩
    rw [searchCpu] at returned
    split at returned
    · cases returned
    · rename_i pattern
      split at returned
      · cases returned
      · rename_i count
        split at returned
        · cases returned
        · rename_i base key
          split at returned
          · cases returned
          · rename_i start parsed
            split at returned
            · cases returned
            · rename_i positive
              split at returned
              · cases returned
              · rename_i last
                have whole : ((start.toNat : Nat) : Int) = start := by omega
                refine ⟨base, start.toNat, pattern, key, by rw [whole, parsed], by omega, by omega, by omega⟩
  · rintro ⟨P, start, searchable⟩
    obtain ⟨result, returned, -⟩ := searchCpu_finds searchable
    exact ⟨result, returned⟩

end TronForge.Native
