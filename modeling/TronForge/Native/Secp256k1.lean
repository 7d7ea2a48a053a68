import Mathlib.AlgebraicGeometry.EllipticCurve.Affine.Point
import Mathlib.FieldTheory.Finite.Basic
import TronForge.Native.Modulus
import TronForge.Native.Points

/-! The point routines compute the group law of secp256k1, whatever representation
of the field they are written over. -/

namespace TronForge.Native

open FieldRoutines

/-- The field of the curve. -/
abbrev Residue : Type := ZMod fieldPrime

theorem residue_val_lt (a : Residue) : a.val < fieldPrime := ZMod.val_lt a

/-- The inverse by Fermat. -/
theorem pow_prime_sub_two (a : Residue) : a ^ (fieldPrime - 2) = a⁻¹ := by
  have order : fieldPrime - 1 = fieldPrime - 2 + 1 := by norm_num [fieldPrime]
  by_cases zero : a = 0
  · have positive : fieldPrime - 2 ≠ 0 := by norm_num [fieldPrime]
    rw [zero, zero_pow positive, inv_zero]
  · have fermat := ZMod.pow_card_sub_one_eq_one zero
    rw [order, pow_succ] at fermat
    exact eq_inv_of_mul_eq_one_left fermat

/-- `y^2 = x^3 + 7`. -/
def secp256k1 : WeierstrassCurve.Affine Residue := ⟨0, 0, 0, 0, 7⟩

abbrev CurvePoint : Type := secp256k1.Point

/-- A representation of residues by canonical values and the routines over it. -/
class FieldRepresentation (F : Type) extends FieldRoutines F where
  value : F → Nat
  zero : value fieldZero = 0
  fromSmall (small : Nat) (bound : small < 2 ^ 32) : value (fieldFromSmall small) = small
  isZero (element : F) : fieldIsZero element = true ↔ value element = 0
  equal (left right : F) : fieldEqual left right = true ↔ value left = value right
  negate (element : F) (a : Residue) (same : value element = a.val) :
    value (fieldNegate element) = (-a).val
  subtract (left right : F) (a b : Residue) (first : value left = a.val) (second : value right = b.val) :
    value (fieldSubtract left right) = (a - b).val
  multiply (left right : F) (a b : Residue) (first : value left = a.val) (second : value right = b.val) :
    value (fieldMultiply left right) = (a * b).val
  inverse (element : F) (a : Residue) (same : value element = a.val) :
    value (fieldInverse element) = (a⁻¹).val

section
variable {F : Type} [FieldRepresentation F]

/-- The element holds the canonical value of the residue. -/
def Holds (element : F) (residue : Residue) : Prop :=
  FieldRepresentation.value element = residue.val

theorem holds_zero : Holds (fieldZero : F) 0 := by
  rw [Holds, FieldRepresentation.zero, ZMod.val_zero]

theorem small_lt_fieldPrime {small : Nat} (bound : small < 2 ^ 32) : small < fieldPrime := by
  unfold fieldPrime
  omega

theorem holds_fromSmall (small : Nat) (bound : small < 2 ^ 32) :
    Holds (fieldFromSmall small : F) (small : Residue) := by
  rw [Holds, FieldRepresentation.fromSmall small bound, ZMod.val_natCast_of_lt (small_lt_fieldPrime bound)]

theorem holds_one : Holds (fieldFromSmall 1 : F) 1 := by
  have one := holds_fromSmall (F := F) 1 (by omega)
  rw [Nat.cast_one] at one
  exact one

theorem Holds.negate {element : F} {a : Residue} (same : Holds element a) :
    Holds (fieldNegate element) (-a) :=
  FieldRepresentation.negate element a same

theorem Holds.subtract {left right : F} {a b : Residue} (first : Holds left a) (second : Holds right b) :
    Holds (fieldSubtract left right) (a - b) :=
  FieldRepresentation.subtract left right a b first second

theorem Holds.multiply {left right : F} {a b : Residue} (first : Holds left a) (second : Holds right b) :
    Holds (fieldMultiply left right) (a * b) :=
  FieldRepresentation.multiply left right a b first second

theorem Holds.square {element : F} {a : Residue} (same : Holds element a) :
    Holds (fieldSquare element) (a ^ 2) := by
  rw [pow_two]
  exact same.multiply same

theorem Holds.inverse {element : F} {a : Residue} (same : Holds element a) :
    Holds (fieldInverse element) a⁻¹ :=
  FieldRepresentation.inverse element a same

theorem Holds.isZero_iff {element : F} {a : Residue} (same : Holds element a) :
    fieldIsZero element = true ↔ a = 0 := by
  rw [FieldRepresentation.isZero, same, ZMod.val_eq_zero]

theorem Holds.equal_iff {left right : F} {a b : Residue} (first : Holds left a) (second : Holds right b) :
    fieldEqual left right = true ↔ a = b := by
  rw [FieldRepresentation.equal, first, second]
  exact (ZMod.val_injective fieldPrime).eq_iff

/-- In a running product a zero counts as one, so no factor is zero. -/
def factorOf (a : Residue) : Residue := if a = 0 then 1 else a

theorem factorOf_zero : factorOf 0 = 1 := if_pos rfl

theorem factorOf_nonzero {a : Residue} (nonzero : a ≠ 0) : factorOf a = a := if_neg nonzero

theorem factorOf_ne_zero (a : Residue) : factorOf a ≠ 0 := by
  by_cases zero : a = 0
  · rw [zero, factorOf_zero]
    exact one_ne_zero
  · rw [factorOf_nonzero zero]
    exact zero

theorem factor_holds {element : F} {a : Residue} (same : Holds element a) :
    Holds (if fieldIsZero element then fieldFromSmall 1 else element) (factorOf a) := by
  by_cases zero : a = 0
  · rw [if_pos (same.isZero_iff.mpr zero), zero, factorOf_zero]
    exact holds_one
  · rw [if_neg (fun isZero => zero (same.isZero_iff.mp isZero)), factorOf_nonzero zero]
    exact same

/-- The inverse of a running product, taken one factor down. -/
theorem Holds.stepDown {inverse factor : F} {b c : Residue} (holdsInverse : Holds inverse (b * c)⁻¹)
    (holdsFactor : Holds factor c) (nonzero : c ≠ 0) : Holds (fieldMultiply inverse factor) b⁻¹ := by
  have product := holdsInverse.multiply holdsFactor
  rwa [mul_inv, mul_assoc, inv_mul_cancel₀ nonzero, mul_one] at product

/-- The inverse of the last factor of a running product. -/
theorem Holds.lastInverse {inverse previous : F} {b c : Residue} (holdsInverse : Holds inverse (b * c)⁻¹)
    (holdsPrevious : Holds previous b) (nonzero : b ≠ 0) : Holds (fieldMultiply inverse previous) c⁻¹ := by
  have product := holdsInverse.multiply holdsPrevious
  rwa [mul_inv, mul_comm b⁻¹, mul_assoc, inv_mul_cancel₀ nonzero, mul_one] at product

/-- The affine point stands for the point of the curve; one at infinity may carry
any coordinates. -/
inductive Represents : AffinePoint F → CurvePoint → Prop
  | infinity (x y : F) : Represents ⟨x, y, true⟩ 0
  | finite {x y : F} {a b : Residue} (first : Holds x a) (second : Holds y b)
      (onCurve : secp256k1.Nonsingular a b) : Represents ⟨x, y, false⟩ (.some a b onCurve)

theorem represents_atInfinity : Represents (.atInfinity : AffinePoint F) 0 := .infinity _ _

theorem Represents.infinity_iff {point : AffinePoint F} {P : CurvePoint} (stands : Represents point P) :
    point.infinity = true ↔ P = 0 := by
  cases stands with
  | infinity x y => simp
  | finite first second onCurve => simp [WeierstrassCurve.Affine.Point.some_ne_zero]

theorem negY_secp256k1 (a b : Residue) : secp256k1.negY a b = -b := by
  simp [WeierstrassCurve.Affine.negY, secp256k1]

theorem addX_secp256k1 (a b slope : Residue) : secp256k1.addX a b slope = slope ^ 2 - a - b := by
  simp [WeierstrassCurve.Affine.addX, secp256k1]

theorem addY_secp256k1 (a b c slope : Residue) :
    secp256k1.addY a b c slope = slope * (a - secp256k1.addX a b slope) - c := by
  simp only [WeierstrassCurve.Affine.addY, WeierstrassCurve.Affine.negAddY, negY_secp256k1]
  ring

theorem two_ne_zero_residue : (2 : Residue) ≠ 0 := by
  have small : ((2 : Nat) : Residue).val = 2 := ZMod.val_natCast_of_lt (small_lt_fieldPrime (by omega))
  intro zero
  rw [Nat.cast_ofNat, zero, ZMod.val_zero] at small
  omega

/-- The chord through two points with different `x`. -/
theorem represents_chord {left right : AffinePoint F} {P Q : CurvePoint} {inverseDenominator : F}
    (first : Represents left P) (second : Represents right Q) (leftFinite : left.infinity = false)
    (rightFinite : right.infinity = false) (differ : fieldEqual left.x right.x = false)
    {c : Residue} (inverse : Holds inverseDenominator c⁻¹)
    (difference : Holds (fieldSubtract right.x left.x) c) :
    Represents (pointAddWithInverse left right inverseDenominator) (P + Q) := by
  cases first with
  | infinity x y => cases leftFinite
  | @finite x1 y1 a1 b1 holdsX1 holdsY1 onCurve1 =>
    cases second with
    | infinity x y => cases rightFinite
    | @finite x2 y2 a2 b2 holdsX2 holdsY2 onCurve2 =>
      have apart : a1 ≠ a2 := by
        intro same
        rw [(holdsX1.equal_iff holdsX2).mpr same] at differ
        cases differ
      have denominator : c = a2 - a1 := by
        have both : (a2 - a1).val = c.val := (holdsX2.subtract holdsX1).symm.trans difference
        exact (ZMod.val_injective fieldPrime both).symm
      have slope : secp256k1.slope a1 a2 b1 b2 = (b2 - b1) * c⁻¹ := by
        rw [WeierstrassCurve.Affine.slope_of_X_ne apart, denominator, div_eq_mul_inv,
          ← neg_sub b2 b1, ← neg_sub a2 a1, inv_neg, neg_mul_neg]
      have holdsSlope := (holdsY2.subtract holdsY1).multiply inverse
      rw [← slope] at holdsSlope
      have holdsX := (holdsSlope.square.subtract holdsX1).subtract holdsX2
      rw [← addX_secp256k1] at holdsX
      have holdsY := (holdsSlope.multiply (holdsX1.subtract holdsX)).subtract holdsY1
      rw [← addY_secp256k1] at holdsY
      rw [WeierstrassCurve.Affine.Point.add_of_X_ne apart]
      exact .finite holdsX holdsY _

theorem represents_double {point : AffinePoint F} {P : CurvePoint} (stands : Represents point P) :
    Represents (pointDouble point) (P + P) := by
  cases stands with
  | infinity x y =>
    rw [add_zero]
    exact represents_atInfinity
  | @finite x y a b holdsX holdsY onCurve =>
    by_cases zero : b = 0
    · have opposite : b = secp256k1.negY a b := by rw [negY_secp256k1, zero, neg_zero]
      have routine : pointDouble (⟨x, y, false⟩ : AffinePoint F) = .atInfinity := by
        simp [pointDouble, holdsY.isZero_iff.mpr zero]
      rw [routine, WeierstrassCurve.Affine.Point.add_self_of_Y_eq opposite]
      exact represents_atInfinity
    · have apart : b ≠ secp256k1.negY a b := by
        rw [negY_secp256k1]
        intro same
        have double : 2 * b = 0 := by linear_combination same
        exact zero ((mul_eq_zero.mp double).resolve_left two_ne_zero_residue)
      have nonzero : fieldIsZero y = false :=
        Bool.eq_false_iff.mpr (fun isZero => zero (holdsY.isZero_iff.mp isZero))
      have slope : secp256k1.slope a a b b = ((3 : Nat) : Residue) * a ^ 2 * (((2 : Nat) : Residue) * b)⁻¹ := by
        rw [WeierstrassCurve.Affine.slope_of_Y_ne rfl apart, negY_secp256k1, div_eq_mul_inv]
        simp [secp256k1, two_mul]
      have holdsThree := holds_fromSmall (F := F) 3 (by omega)
      have holdsTwo := holds_fromSmall (F := F) 2 (by omega)
      have holdsSlope := (holdsThree.multiply holdsX.square).multiply (holdsTwo.multiply holdsY).inverse
      rw [← slope] at holdsSlope
      have abscissa : secp256k1.addX a a (secp256k1.slope a a b b) =
          secp256k1.slope a a b b ^ 2 - ((2 : Nat) : Residue) * a := by
        rw [addX_secp256k1, Nat.cast_ofNat]
        ring
      have holdsOutX := holdsSlope.square.subtract (holdsTwo.multiply holdsX)
      rw [← abscissa] at holdsOutX
      have holdsOutY := (holdsSlope.multiply (holdsX.subtract holdsOutX)).subtract holdsY
      rw [← addY_secp256k1] at holdsOutY
      rw [WeierstrassCurve.Affine.Point.add_self_of_Y_ne apart, pointDouble, if_neg (by simp [nonzero])]
      exact .finite holdsOutX holdsOutY _

/-- `point_add` is the group law, with its doubling, its cancellation and its
points at infinity. -/
theorem represents_add {left right : AffinePoint F} {P Q : CurvePoint} (first : Represents left P)
    (second : Represents right Q) : Represents (pointAdd left right) (P + Q) := by
  by_cases leftInfinite : left.infinity = true
  · rw [pointAdd, if_pos leftInfinite, first.infinity_iff.mp leftInfinite, zero_add]
    exact second
  by_cases rightInfinite : right.infinity = true
  · rw [pointAdd, if_neg leftInfinite, if_pos rightInfinite, second.infinity_iff.mp rightInfinite, add_zero]
    exact first
  have leftFinite := Bool.eq_false_iff.mpr leftInfinite
  have rightFinite := Bool.eq_false_iff.mpr rightInfinite
  cases equal : fieldEqual left.x right.x with
  | false =>
    have routine : pointAdd left right =
        pointAddWithInverse left right (fieldInverse (fieldSubtract right.x left.x)) := by
      rw [pointAdd, if_neg leftInfinite, if_neg rightInfinite, if_neg (by simp [equal])]
      rfl
    rw [routine]
    cases first with
    | infinity x y => cases leftFinite
    | finite holdsX1 holdsY1 onCurve1 =>
      cases second with
      | infinity x y => cases rightFinite
      | finite holdsX2 holdsY2 onCurve2 =>
        have difference := holdsX2.subtract holdsX1
        exact represents_chord (.finite holdsX1 holdsY1 onCurve1) (.finite holdsX2 holdsY2 onCurve2) rfl rfl
          equal difference.inverse difference
  | true =>
    cases first with
    | infinity x y => cases leftFinite
    | @finite x1 y1 a1 b1 holdsX1 holdsY1 onCurve1 =>
      cases second with
      | infinity x y => cases rightFinite
      | @finite x2 y2 a2 b2 holdsX2 holdsY2 onCurve2 =>
        have sameX : a1 = a2 := (holdsX1.equal_iff holdsX2).mp equal
        subst sameX
        cases equalY : fieldEqual y1 y2 with
        | true =>
          have sameY : b1 = b2 := (holdsY1.equal_iff holdsY2).mp equalY
          subst sameY
          have routine : pointAdd (⟨x1, y1, false⟩ : AffinePoint F) ⟨x2, y2, false⟩ =
              pointDouble ⟨x1, y1, false⟩ := by
            simp only [pointAdd, equal, equalY, Bool.false_eq_true, if_true, if_false]
          rw [routine]
          exact represents_double (.finite holdsX1 holdsY1 onCurve1)
        | false =>
          have apart : b1 ≠ b2 := by
            intro same
            rw [(holdsY1.equal_iff holdsY2).mpr same] at equalY
            cases equalY
          have opposite : b1 = secp256k1.negY a1 b2 :=
            WeierstrassCurve.Affine.Y_eq_of_X_eq onCurve1.1 onCurve2.1 rfl |>.resolve_left apart
          have routine : pointAdd (⟨x1, y1, false⟩ : AffinePoint F) ⟨x2, y2, false⟩ = .atInfinity := by
            simp only [pointAdd, equal, equalY, Bool.false_eq_true, if_true, if_false]
          rw [routine, WeierstrassCurve.Affine.Point.add_of_Y_eq rfl opposite]
          exact represents_atInfinity

theorem Represents.coordinates {point : AffinePoint F} {P : CurvePoint} (stands : Represents point P)
    (finite : P ≠ 0) : ∃ a b, ∃ onCurve : secp256k1.Nonsingular a b, P = .some a b onCurve ∧
      point.infinity = false ∧ Holds point.x a ∧ Holds point.y b := by
  cases stands with
  | infinity x y => exact absurd rfl finite
  | finite holdsX holdsY onCurve => exact ⟨_, _, onCurve, rfl, rfl, holdsX, holdsY⟩

theorem represents_opposite {point : AffinePoint F} {P : CurvePoint} (stands : Represents point P)
    (finite : point.infinity = false) : Represents point.opposite (-P) := by
  cases stands with
  | infinity x y => cases finite
  | @finite x y a b holdsX holdsY onCurve =>
    have holdsNegated := holdsY.negate
    rw [← negY_secp256k1 a b] at holdsNegated
    rw [WeierstrassCurve.Affine.Point.neg_some]
    exact .finite holdsX holdsNegated _

end

/-- A point with `x = 0` has order three. -/
theorem abscissa_ne_zero {a b : Residue} {onCurve : secp256k1.Nonsingular a b}
    (free : 3 • (WeierstrassCurve.Affine.Point.some a b onCurve : CurvePoint) ≠ 0)
    (nonzero : b ≠ 0) : a ≠ 0 := by
  intro zero
  apply free
  have apart : b ≠ secp256k1.negY a b := by
    rw [negY_secp256k1]
    intro same
    have double : 2 * b = 0 := by linear_combination same
    exact nonzero ((mul_eq_zero.mp double).resolve_left two_ne_zero_residue)
  have slope : secp256k1.slope a a b b = 0 := by
    rw [WeierstrassCurve.Affine.slope_of_Y_ne rfl apart]
    simp [secp256k1, zero]
  have double : (WeierstrassCurve.Affine.Point.some a b onCurve : CurvePoint) + .some a b onCurve =
      -.some a b onCurve := by
    rw [WeierstrassCurve.Affine.Point.add_self_of_Y_ne apart, WeierstrassCurve.Affine.Point.neg_some]
    simp only [WeierstrassCurve.Affine.Point.some.injEq]
    rw [addY_secp256k1, addX_secp256k1, negY_secp256k1, slope, zero]
    constructor
    · ring
    · ring
  rw [succ_nsmul, two_nsmul, double, neg_add_cancel]

/-- A point with `y = 0` has order two. -/
theorem ordinate_ne_zero {a b : Residue} {onCurve : secp256k1.Nonsingular a b}
    (free : 2 • (WeierstrassCurve.Affine.Point.some a b onCurve : CurvePoint) ≠ 0) : b ≠ 0 := by
  intro zero
  apply free
  have opposite : b = secp256k1.negY a b := by rw [negY_secp256k1, zero, neg_zero]
  rw [two_nsmul, WeierstrassCurve.Affine.Point.add_self_of_Y_eq opposite]

/-- With zero coordinates on the left, as a value-initialised point has them, the
chord to the opposite of a point does not give that opposite. -/
theorem chord_from_infinity {F : Type} [FieldRepresentation F] {point : AffinePoint F} {Q : CurvePoint}
    (stands : Represents point Q) (two : 2 • Q ≠ 0) (three : 3 • Q ≠ 0) {inverse : F} {b : Residue}
    (holdsX : Holds point.x b) (holdsInverse : Holds inverse (b - 0)⁻¹) :
    ¬ Represents (pointAddWithInverse .atInfinity point.opposite inverse) (-Q) := by
  have finite : Q ≠ 0 := by
    rintro rfl
    exact two (nsmul_zero 2)
  obtain ⟨a, e, onCurve, rfl, pointFinite, holdsA, holdsE⟩ := stands.coordinates finite
  have nonzeroE : e ≠ 0 := ordinate_ne_zero two
  have nonzeroA : a ≠ 0 := abscissa_ne_zero three nonzeroE
  have same : b = a := ZMod.val_injective fieldPrime (holdsX.symm.trans holdsA)
  rw [same, sub_zero] at holdsInverse
  have zero : Holds (fieldZero : F) 0 := holds_zero
  have holdsSlope := (holdsE.negate.subtract zero).multiply holdsInverse
  have holdsOutX := (holdsSlope.square.subtract zero).subtract holdsA
  have holdsOutY := (holdsSlope.multiply (zero.subtract holdsOutX)).subtract zero
  intro represents
  rw [WeierstrassCurve.Affine.Point.neg_some] at represents
  obtain ⟨a', e', onCurve', equal, -, holdsX', holdsY'⟩ := represents.coordinates
    (WeierstrassCurve.Affine.Point.some_ne_zero _)
  obtain ⟨rfl, rfl⟩ := WeierstrassCurve.Affine.Point.some.inj equal
  have sameX := ZMod.val_injective fieldPrime (holdsX'.symm.trans holdsOutX)
  have sameY := ZMod.val_injective fieldPrime (holdsY'.symm.trans holdsOutY)
  rw [negY_secp256k1, ← sameX] at sameY
  have double : 2 * e = 0 := by
    have cancelled : a⁻¹ * a = 1 := inv_mul_cancel₀ nonzeroA
    linear_combination -sameY - e * cancelled
  exact nonzeroE ((mul_eq_zero.mp double).resolve_left two_ne_zero_residue)

end TronForge.Native
