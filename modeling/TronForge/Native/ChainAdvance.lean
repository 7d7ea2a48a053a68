import TronForge.Native.KernelPoints

/-! One step of the chains: a batch of inverses from one inversion, and every point
moved by the stride, whatever mixture of cases the batch holds. -/

namespace TronForge.Native.CudaChain

/-- Going up, the running inverse is the inverse of the running product. -/
theorem inverseLoop_holds {values : List Field} {residues : List Residue}
    (held : List.Forall₂ Holds values residues) {previous : Field} {b : Residue} (product : Holds previous b)
    (nonzero : b ≠ 0) : Holds (inverseLoop previous values).1 b⁻¹ ∧
      List.Forall₂ Holds (inverseLoop previous values).2 (residues.map (·⁻¹)) := by
  induction held generalizing previous b with
  | nil => exact ⟨product.inverse, .nil⟩
  | @cons value a rest residues same held hypothesis =>
    have factorHolds : Holds (if fieldIsZero value then fieldFromSmall 1 else value) (factorOf a) := factor_holds same
    obtain ⟨inverse, inverses⟩ := hypothesis (product.multiply factorHolds)
      (mul_ne_zero nonzero (factorOf_ne_zero a))
    constructor
    · exact inverse.stepDown factorHolds (factorOf_ne_zero a)
    · have zero_iff : fieldIsZero value = true ↔ a = 0 := same.isZero_iff
      have first : Holds (if fieldIsZero value then .zero
          else fieldMultiply (inverseLoop (fieldMultiply previous
            (if fieldIsZero value then fieldFromSmall 1 else value)) rest).1 previous) a⁻¹ := by
        by_cases zero : a = 0
        · rw [if_pos (zero_iff.mpr zero), zero, inv_zero]
          exact holds_zero
        · rw [if_neg (fun isZero => zero (zero_iff.mp isZero)), ← factorOf_nonzero zero]
          exact inverse.lastInverse product nonzero
      exact .cons first inverses

/-- A batch of inverses, zero for zero. -/
theorem fieldInverseBatch_holds {values : List Field} {residues : List Residue}
    (held : List.Forall₂ Holds values residues) :
    List.Forall₂ Holds (fieldInverseBatch values) (residues.map (·⁻¹)) :=
  (inverseLoop_holds held holds_one one_ne_zero).2

theorem routine_multiply (left right : Field) :
    FieldRoutines.fieldMultiply left right = fieldMultiply left right := (rfl)

theorem routine_subtract (left right : Field) :
    FieldRoutines.fieldSubtract left right = fieldSubtract left right := (rfl)

theorem routine_square (value : Field) : Native.fieldSquare value = fieldSquare value := by
  rw [Native.fieldSquare, routine_multiply, fieldSquare]

/-- The chord in the routines of this field. -/
theorem pointAddWithInverse_eq (left right : Point) (inverse : Field) :
    pointAddWithInverse left right inverse =
      (let slope := fieldMultiply (fieldSubtract right.y left.y) inverse
       let outputX := fieldSubtract (fieldSubtract (fieldSquare slope) left.x) right.x
       ⟨outputX, fieldSubtract (fieldMultiply slope (fieldSubtract left.x outputX)) left.y, false⟩) := by
  rw [pointAddWithInverse]
  simp only [routine_square, routine_multiply, routine_subtract]

/-- A point and the inverse of its delta give the next point; at infinity both
deltas are zero. -/
theorem advance_represents {stride point : Point} {S P : CurvePoint} (strideStands : Represents stride S)
    (strideFinite : S ≠ 0) (stands : Represents point P) :
    ∃ c, Holds (strideDeltas stride point).1 c ∧ ∀ inverse, Holds inverse c⁻¹ →
      Represents (advance stride point inverse (strideDeltas stride point).2) (P + S) := by
  cases stands with
  | infinity x y =>
    refine ⟨0, holds_zero, ?_⟩
    intro inverse _
    rw [zero_add]
    exact strideStands
  | @finite x y a b holdsX holdsY onCurve =>
    cases strideStands with
    | infinity strideX strideY => exact absurd rfl strideFinite
    | @finite strideX strideY strideA strideB strideHoldsX strideHoldsY strideOnCurve =>
      have pointStands := Represents.finite holdsX holdsY onCurve
      have strideStands := Represents.finite strideHoldsX strideHoldsY strideOnCurve
      have difference := strideHoldsX.subtract holdsX
      refine ⟨strideA - a, difference, ?_⟩
      intro inverse holdsInverse
      have zero_iff : fieldIsZero inverse = true ↔ (strideA - a)⁻¹ = 0 := holdsInverse.isZero_iff
      by_cases same : strideA = a
      · have zero : fieldIsZero inverse = true := by rw [zero_iff, same, sub_self, inv_zero]
        have routine : advance ⟨strideX, strideY, false⟩ ⟨x, y, false⟩ inverse
            (strideDeltas ⟨strideX, strideY, false⟩ ⟨x, y, false⟩).2 =
            pointAdd ⟨x, y, false⟩ ⟨strideX, strideY, false⟩ := by
          rw [advance, if_neg Bool.false_ne_true, if_pos zero]
        rw [routine]
        exact represents_add pointStands strideStands
      · have nonzero : fieldIsZero inverse = false := by
          rw [Bool.eq_false_iff, ne_eq, zero_iff, inv_eq_zero]
          exact sub_ne_zero.mpr same
        have differ : FieldRoutines.fieldEqual x strideX = false := by
          rw [Bool.eq_false_iff, ne_eq, holdsX.equal_iff strideHoldsX]
          exact fun equal => same equal.symm
        have routine : advance ⟨strideX, strideY, false⟩ ⟨x, y, false⟩ inverse
            (strideDeltas ⟨strideX, strideY, false⟩ ⟨x, y, false⟩).2 =
            pointAddWithInverse ⟨x, y, false⟩ ⟨strideX, strideY, false⟩ inverse := by
          rw [pointAddWithInverse_eq, advance, if_neg Bool.false_ne_true, nonzero, if_neg Bool.false_ne_true,
            strideDeltas, if_neg Bool.false_ne_true]
        rw [routine]
        exact represents_chord pointStands strideStands rfl rfl differ holdsInverse difference

theorem advanceEach_represents {stride : Point} {S : CurvePoint} (strideStands : Represents stride S)
    (strideFinite : S ≠ 0) {points : List Point} {places : List CurvePoint}
    (stand : List.Forall₂ Represents points places) :
    ∃ residues, List.Forall₂ Holds ((points.map (strideDeltas stride)).map Prod.fst) residues ∧
      ∀ inverses, List.Forall₂ Holds inverses (residues.map (·⁻¹)) →
        List.Forall₂ Represents
          ((points.zip (inverses.zip ((points.map (strideDeltas stride)).map Prod.snd))).map
            fun entry => advance stride entry.1 entry.2.1 entry.2.2)
          (places.map (· + S)) := by
  induction stand with
  | nil => exact ⟨[], .nil, fun inverses _ => by simp⟩
  | @cons point place rest places stands stand hypothesis =>
    obtain ⟨c, delta, next⟩ := advance_represents strideStands strideFinite stands
    obtain ⟨residues, deltas, nexts⟩ := hypothesis
    refine ⟨c :: residues, .cons delta deltas, ?_⟩
    intro inverses held
    cases held with
    | cons first others => exact .cons (next _ first) (nexts _ others)

/-- One step moves every chain of the thread by the stride. -/
theorem advanceAll_represents {stride : Point} {S : CurvePoint} (strideStands : Represents stride S)
    (strideFinite : S ≠ 0) {points : List Point} {places : List CurvePoint}
    (stand : List.Forall₂ Represents points places) :
    List.Forall₂ Represents (advanceAll stride points) (places.map (· + S)) := by
  obtain ⟨residues, deltas, nexts⟩ := advanceEach_represents strideStands strideFinite stand
  exact nexts _ (fieldInverseBatch_holds deltas)

end TronForge.Native.CudaChain
