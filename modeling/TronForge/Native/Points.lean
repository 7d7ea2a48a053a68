import Mathlib.Data.List.Basic

/-! The affine point routines, which both kernels' headers spell over a field type
of their own. -/

namespace TronForge.Native

/-- The field routines a point routine calls. -/
class FieldRoutines (F : Type) where
  fieldZero : F
  fieldFromSmall : Nat → F
  fieldIsZero : F → Bool
  fieldEqual : F → F → Bool
  fieldNegate : F → F
  fieldSubtract : F → F → F
  fieldMultiply : F → F → F
  fieldInverse : F → F

open FieldRoutines

/-- `AffinePoint` and `Point`. -/
structure AffinePoint (F : Type) where
  x : F
  y : F
  infinity : Bool
  deriving DecidableEq, Repr

section
variable {F : Type} [FieldRoutines F]

/-- A value-initialised point. -/
def AffinePoint.atInfinity : AffinePoint F := ⟨fieldZero, fieldZero, true⟩

instance : Inhabited (AffinePoint F) := ⟨.atInfinity⟩

def fieldSquare (value : F) : F := fieldMultiply value value

def pointDouble (point : AffinePoint F) : AffinePoint F :=
  if point.infinity || fieldIsZero point.y then .atInfinity
  else
    let numerator := fieldMultiply (fieldFromSmall 3) (fieldSquare point.x)
    let denominator := fieldMultiply (fieldFromSmall 2) point.y
    let slope := fieldMultiply numerator (fieldInverse denominator)
    let outputX := fieldSubtract (fieldSquare slope) (fieldMultiply (fieldFromSmall 2) point.x)
    let outputY := fieldSubtract (fieldMultiply slope (fieldSubtract point.x outputX)) point.y
    ⟨outputX, outputY, false⟩

/-- The chord of two points, given the inverse of their difference in `x`. -/
def pointAddWithInverse (left right : AffinePoint F) (inverseDenominator : F) : AffinePoint F :=
  let slope := fieldMultiply (fieldSubtract right.y left.y) inverseDenominator
  let outputX := fieldSubtract (fieldSubtract (fieldSquare slope) left.x) right.x
  let outputY := fieldSubtract (fieldMultiply slope (fieldSubtract left.x outputX)) left.y
  ⟨outputX, outputY, false⟩

def pointAdd (left right : AffinePoint F) : AffinePoint F :=
  if left.infinity then right
  else if right.infinity then left
  else if fieldEqual left.x right.x then
    if fieldEqual left.y right.y then pointDouble left else .atInfinity
  else
    let inverse := fieldInverse (fieldSubtract right.x left.x)
    let slope := fieldMultiply (fieldSubtract right.y left.y) inverse
    let outputX := fieldSubtract (fieldSubtract (fieldSquare slope) left.x) right.x
    let outputY := fieldSubtract (fieldMultiply slope (fieldSubtract left.x outputX)) left.y
    ⟨outputX, outputY, false⟩

/-- Two finite points that cancel give the value-initialised point. -/
theorem pointAdd_infinity {left right : AffinePoint F} (leftFinite : left.infinity = false)
    (rightFinite : right.infinity = false) (infinite : (pointAdd left right).infinity = true) :
    pointAdd left right = .atInfinity := by
  simp only [pointAdd, pointDouble, leftFinite, rightFinite, Bool.false_eq_true, if_false, Bool.false_or]
    at infinite ⊢
  split at infinite
  · split at infinite
    · split at infinite
      · simp_all
      · cases infinite
    · simp_all
  · cases infinite

/-- `negative_table`. -/
def AffinePoint.opposite (point : AffinePoint F) : AffinePoint F :=
  ⟨point.x, fieldNegate point.y, false⟩

end

end TronForge.Native
