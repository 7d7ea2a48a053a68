import TronForge.Native.ChainLaws
import TronForge.Native.GeneratorPoint
import TronForge.Native.LegacyLaws

/-! The point routines of both headers on canonical coordinates of the curve: what they
return is again on the curve, and is the sum of the points. -/

namespace TronForge.Native

open FieldRoutines FieldRepresentation

section
variable {F : Type} [FieldRepresentation F]

/-- Canonical coordinates, which satisfy the equation unless the point is at infinity. -/
structure OnCurve (point : AffinePoint F) : Prop where
  x : value point.x < fieldPrime
  y : value point.y < fieldPrime
  equation : point.infinity = false → value point.y ^ 2 % fieldPrime = (value point.x ^ 3 + 7) % fieldPrime

theorem OnCurve.nonsingular {point : AffinePoint F} (onCurve : OnCurve point) (finite : point.infinity = false) :
    secp256k1.Nonsingular (value point.x : Residue) (value point.y : Residue) := by
  have residues := (ZMod.natCast_eq_natCast_iff' _ _ fieldPrime).mpr (onCurve.equation finite)
  rw [nonsingular_iff_equation]
  push_cast at residues
  exact residues

/-- The point of the curve that the coordinates belong to. -/
def OnCurve.point {point : AffinePoint F} (onCurve : OnCurve point) : CurvePoint :=
  if finite : point.infinity = false then .some _ _ (onCurve.nonsingular finite) else 0

theorem holds_value {element : F} (canonical : value element < fieldPrime) :
    Holds element (value element : Residue) :=
  (ZMod.val_natCast_of_lt canonical).symm

theorem OnCurve.represents {point : AffinePoint F} (onCurve : OnCurve point) : Represents point onCurve.point := by
  obtain ⟨x, y, infinity⟩ := point
  cases infinity with
  | true => exact .infinity x y
  | false => exact .finite (holds_value onCurve.x) (holds_value onCurve.y) (onCurve.nonsingular rfl)

/-- Coordinates that stand for a point of the curve are on it. -/
theorem Represents.onCurve {point : AffinePoint F} {P : CurvePoint} (stands : Represents point P)
    (canonical : point.infinity = true → value point.x < fieldPrime ∧ value point.y < fieldPrime) :
    ∃ onCurve : OnCurve point, onCurve.point = P := by
  cases stands with
  | infinity x y => exact ⟨⟨(canonical rfl).1, (canonical rfl).2, nofun⟩, rfl⟩
  | @finite x y a b holdsX holdsY smooth =>
    have sameX : value x = a.val := holdsX
    have sameY : value y = b.val := holdsY
    have equation : value y ^ 2 % fieldPrime = (value x ^ 3 + 7) % fieldPrime := by
      rw [← ZMod.natCast_eq_natCast_iff', sameX, sameY]
      push_cast
      rw [ZMod.natCast_zmod_val, ZMod.natCast_zmod_val]
      exact (nonsingular_iff_equation a b).mp smooth
    have onCurve : OnCurve (⟨x, y, false⟩ : AffinePoint F) :=
      ⟨sameX ▸ residue_val_lt a, sameY ▸ residue_val_lt b, fun _ => equation⟩
    refine ⟨onCurve, ?_⟩
    have castX : (value x : Residue) = a := by rw [sameX, ZMod.natCast_zmod_val]
    have castY : (value y : Residue) = b := by rw [sameY, ZMod.natCast_zmod_val]
    simp only [OnCurve.point, dif_pos, WeierstrassCurve.Affine.Point.some.injEq]
    exact ⟨castX, castY⟩

theorem atInfinity_canonical : value (.atInfinity : AffinePoint F).x < fieldPrime ∧
    value (.atInfinity : AffinePoint F).y < fieldPrime := by
  have zero : value (fieldZero : F) < fieldPrime := by
    rw [FieldRepresentation.zero]
    exact small_lt_fieldPrime (by omega)
  exact ⟨zero, zero⟩

/-- A doubled point at infinity is the value-initialised one. -/
theorem pointDouble_infinity {point : AffinePoint F} (infinite : (pointDouble point).infinity = true) :
    pointDouble point = .atInfinity := by
  unfold pointDouble at infinite ⊢
  split at infinite
  · rename_i exceptional
    rw [if_pos exceptional]
  · cases infinite

theorem OnCurve.add {left right : AffinePoint F} (first : OnCurve left) (second : OnCurve right) :
    ∃ sum : OnCurve (pointAdd left right), sum.point = first.point + second.point := by
  apply (represents_add first.represents second.represents).onCurve
  intro infinite
  cases leftInfinity : left.infinity with
  | true =>
    rw [pointAdd, if_pos leftInfinity]
    exact ⟨second.x, second.y⟩
  | false =>
    cases rightInfinity : right.infinity with
    | true =>
      rw [pointAdd, if_neg (by rw [leftInfinity]; exact Bool.false_ne_true), if_pos rightInfinity]
      exact ⟨first.x, first.y⟩
    | false =>
      rw [pointAdd_infinity leftInfinity rightInfinity infinite]
      exact atInfinity_canonical

theorem OnCurve.double {point : AffinePoint F} (onCurve : OnCurve point) :
    ∃ sum : OnCurve (pointDouble point), sum.point = onCurve.point + onCurve.point := by
  apply (represents_double onCurve.represents).onCurve
  intro infinite
  rw [pointDouble_infinity infinite]
  exact atInfinity_canonical

/-- The chord through two finite points, given the inverse of the difference in `x`. -/
theorem OnCurve.chord {left right : AffinePoint F} (first : OnCurve left) (second : OnCurve right)
    (leftFinite : left.infinity = false) (rightFinite : right.infinity = false)
    (apart : value left.x ≠ value right.x) {inverse : F} (canonical : value inverse < fieldPrime)
    (inverts : (value inverse : Residue) * (value right.x - value left.x) = 1) :
    ∃ sum : OnCurve (pointAddWithInverse left right inverse), sum.point = first.point + second.point := by
  have difference := (holds_value second.x).subtract (holds_value first.x)
  have differ : fieldEqual left.x right.x = false := by
    rw [Bool.eq_false_iff, ne_eq, FieldRepresentation.equal]
    exact apart
  have inverted : Holds inverse ((value right.x : Residue) - value left.x)⁻¹ := by
    rw [← eq_inv_of_mul_eq_one_left inverts]
    exact holds_value canonical
  apply (represents_chord first.represents second.represents leftFinite rightFinite differ inverted difference).onCurve
  intro infinite
  cases infinite

end

/-- The routines over a field compute the group law. -/
structure GroupLaw (F : Type) [FieldRepresentation F] : Prop where
  add (left right : AffinePoint F) (first : OnCurve left) (second : OnCurve right) :
    ∃ sum : OnCurve (pointAdd left right), sum.point = first.point + second.point
  double (point : AffinePoint F) (onCurve : OnCurve point) :
    ∃ sum : OnCurve (pointDouble point), sum.point = onCurve.point + onCurve.point
  chord (left right : AffinePoint F) (inverse : F) (first : OnCurve left) (second : OnCurve right)
    (leftFinite : left.infinity = false) (rightFinite : right.infinity = false)
    (apart : value left.x ≠ value right.x) (canonical : value inverse < fieldPrime)
    (inverts : (value inverse : Residue) * (value right.x - value left.x) = 1) :
    ∃ sum : OnCurve (pointAddWithInverse left right inverse), sum.point = first.point + second.point
  cancelled (left right : AffinePoint F) (leftFinite : left.infinity = false) (rightFinite : right.infinity = false)
    (infinite : (pointAdd left right).infinity = true) : pointAdd left right = .atInfinity
  halved (point : AffinePoint F) (infinite : (pointDouble point).infinity = true) : pointDouble point = .atInfinity

/-- The routines of both headers compute the group law of the curve. -/
theorem pointRoutines_groupLaw : GroupLaw CudaSecp.Field ∧ GroupLaw CudaChain.Field := by
  have law (F : Type) [FieldRepresentation F] : GroupLaw F := by
    refine ⟨?_, ?_, ?_, ?_, ?_⟩
    · intro left right first second
      exact first.add second
    · intro point onCurve
      exact onCurve.double
    · intro left right inverse first second leftFinite rightFinite apart canonical inverts
      exact first.chord second leftFinite rightFinite apart canonical inverts
    · intro left right leftFinite rightFinite infinite
      exact pointAdd_infinity leftFinite rightFinite infinite
    · intro point infinite
      exact pointDouble_infinity infinite
  exact ⟨law CudaSecp.Field, law CudaChain.Field⟩

end TronForge.Native
