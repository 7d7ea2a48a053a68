import TronForge.Native.GroupOrder
import TronForge.Native.Secp256k1

/-! The generator has prime order: a ladder in scaled coordinates, which needs no
inverse, reaches its opposite one step before. -/

namespace TronForge.Native

def generatorAbscissa : Nat := 0x79be667ef9dcbbac55a06295ce870b07029bfcdb2dce28d959f2815b16f81798

def generatorOrdinate : Nat := 0x483ada7726a3c4655da4fbfc0e1108a8fd17b448a68554199c47d08ffb10d4b8

theorem small_ne_zero {small : Nat} (positive : 0 < small) (bound : small < 2 ^ 32) :
    (small : Residue) ≠ 0 := by
  have value : (small : Residue).val = small := ZMod.val_natCast_of_lt (small_lt_fieldPrime bound)
  intro zero
  rw [zero, ZMod.val_zero] at value
  omega

theorem equation_iff (a b : Residue) : secp256k1.Equation a b ↔ b ^ 2 = a ^ 3 + 7 := by
  rw [WeierstrassCurve.Affine.equation_iff]
  simp [secp256k1]

/-- Every point of the curve is a smooth one. -/
theorem nonsingular_iff_equation (a b : Residue) : secp256k1.Nonsingular a b ↔ b ^ 2 = a ^ 3 + 7 := by
  have discriminant : secp256k1.Δ ≠ 0 := by
    have value : secp256k1.Δ = -((21168 : Nat) : Residue) := by
      simp only [WeierstrassCurve.Δ, WeierstrassCurve.b₂, WeierstrassCurve.b₄, WeierstrassCurve.b₆,
        WeierstrassCurve.b₈, secp256k1]
      norm_num
    rw [value]
    exact neg_ne_zero.mpr (small_ne_zero (by omega) (by omega))
  rw [← WeierstrassCurve.Affine.equation_iff_nonsingular_of_Δ_ne_zero discriminant, equation_iff]

theorem generator_nonsingular :
    secp256k1.Nonsingular (generatorAbscissa : Residue) (generatorOrdinate : Residue) := by
  have onCurve : generatorOrdinate ^ 2 % fieldPrime = (generatorAbscissa ^ 3 + 7) % fieldPrime := by
    decide +kernel
  have residues := (ZMod.natCast_eq_natCast_iff' _ _ _).mpr onCurve
  rw [nonsingular_iff_equation]
  push_cast at residues
  exact residues

/-- The generator `G`. -/
def generator : CurvePoint := .some _ _ generator_nonsingular

/-- A point in scaled coordinates: `x` times the square and `y` times the cube of `z`. -/
structure Scaled where
  x : Nat
  y : Nat
  z : Nat
  deriving DecidableEq, Repr

def mulMod (left right : Nat) : Nat := left * right % fieldPrime

def subMod (left right : Nat) : Nat := (left + (fieldPrime - right % fieldPrime)) % fieldPrime

theorem cast_mulMod (left right : Nat) : ((mulMod left right : Nat) : Residue) = left * right := by
  rw [mulMod, ZMod.natCast_mod, Nat.cast_mul]

theorem cast_subMod (left right : Nat) : ((subMod left right : Nat) : Residue) = left - right := by
  have below : right % fieldPrime ≤ fieldPrime := (Nat.mod_lt right fieldPrime_prime.pos).le
  rw [subMod, ZMod.natCast_mod, Nat.cast_add, Nat.cast_sub below, ZMod.natCast_self, ZMod.natCast_mod,
    zero_sub, sub_eq_add_neg]

/-- The doubling in scaled coordinates; none where `z` vanishes. -/
def Scaled.double (point : Scaled) : Option Scaled :=
  let square := mulMod point.y point.y
  let shift := mulMod 4 (mulMod point.x square)
  let tangent := mulMod 3 (mulMod point.x point.x)
  let x := subMod (mulMod tangent tangent) (mulMod 2 shift)
  let y := subMod (mulMod tangent (subMod shift x)) (mulMod 8 (mulMod square square))
  let z := mulMod 2 (mulMod point.y point.z)
  if z = 0 then none else some ⟨x, y, z⟩

/-- The sum with the generator in scaled coordinates. -/
def Scaled.addGenerator (point : Scaled) : Option Scaled :=
  let square := mulMod point.z point.z
  let width := subMod (mulMod generatorAbscissa square) point.x
  let height := subMod (mulMod generatorOrdinate (mulMod square point.z)) point.y
  let widthSquare := mulMod width width
  let widthCube := mulMod widthSquare width
  let base := mulMod point.x widthSquare
  let x := subMod (subMod (mulMod height height) widthCube) (mulMod 2 base)
  let y := subMod (mulMod height (subMod base x)) (mulMod point.y widthCube)
  let z := mulMod point.z width
  if z = 0 then none else some ⟨x, y, z⟩

/-- The scaled coordinates are those of the point. -/
structure Scales (point : Scaled) (P : CurvePoint) : Prop where
  scaled : (point.z : Residue) ≠ 0
  stands : ∃ a b, ∃ onCurve : secp256k1.Nonsingular a b, P = .some a b onCurve ∧
    (point.x : Residue) = a * (point.z : Residue) ^ 2 ∧ (point.y : Residue) = b * (point.z : Residue) ^ 3

theorem cast_ne_zero_of_mod {number : Nat} (below : number < fieldPrime) (some : number ≠ 0) :
    (number : Residue) ≠ 0 := by
  intro zero
  have value := ZMod.val_natCast_of_lt below
  rw [zero, ZMod.val_zero] at value
  exact some value.symm

theorem mulMod_lt (left right : Nat) : mulMod left right < fieldPrime :=
  Nat.mod_lt _ fieldPrime_prime.pos

theorem Scales.double {point doubled : Scaled} {P : CurvePoint} (scales : Scales point P)
    (result : point.double = some doubled) : Scales doubled (P + P) := by
  obtain ⟨scaled, a, b, onCurve, rfl, abscissa, ordinate⟩ := scales
  simp only [Scaled.double] at result
  split at result
  · cases result
  rename_i nonzero
  cases result
  have zNonzero := cast_ne_zero_of_mod (mulMod_lt _ _) nonzero
  have zValue : ((mulMod 2 (mulMod point.y point.z) : Nat) : Residue) = 2 * b * (point.z : Residue) ^ 4 := by
    rw [cast_mulMod, cast_mulMod, ordinate, Nat.cast_ofNat]
    ring
  have bNonzero : b ≠ 0 := by
    intro zero
    rw [zValue, zero, mul_zero, zero_mul] at zNonzero
    exact zNonzero rfl
  have doubleNonzero : 2 * b ≠ 0 := mul_ne_zero two_ne_zero_residue bNonzero
  have apart : b ≠ secp256k1.negY a b := by
    rw [negY_secp256k1]
    intro same
    exact doubleNonzero (by linear_combination same)
  have tangent : secp256k1.slope a a b b * (2 * b) = 3 * a ^ 2 := by
    have shape : secp256k1.slope a a b b = 3 * a ^ 2 / (2 * b) := by
      rw [WeierstrassCurve.Affine.slope_of_Y_ne rfl apart, negY_secp256k1]
      simp [secp256k1, two_mul]
    rw [shape, div_mul_cancel₀ _ doubleNonzero]
  refine ⟨zNonzero, _, _, _, WeierstrassCurve.Affine.Point.add_self_of_Y_ne apart, ?_, ?_⟩
  · rw [zValue, addX_secp256k1]
    simp only [cast_subMod, cast_mulMod, abscissa, ordinate, Nat.cast_ofNat]
    linear_combination
      -(secp256k1.slope a a b b * (2 * b) + 3 * a ^ 2) * (point.z : Residue) ^ 8 * tangent
  · rw [zValue, addY_secp256k1, addX_secp256k1]
    simp only [cast_subMod, cast_mulMod, abscissa, ordinate, Nat.cast_ofNat]
    linear_combination
      -(12 * a * b ^ 2 - (3 * a ^ 2) ^ 2 - secp256k1.slope a a b b * (2 * b) * (3 * a ^ 2) -
        (secp256k1.slope a a b b * (2 * b)) ^ 2) * (point.z : Residue) ^ 12 * tangent

theorem Scales.addGenerator {point sum : Scaled} {P : CurvePoint} (scales : Scales point P)
    (result : point.addGenerator = some sum) : Scales sum (P + generator) := by
  obtain ⟨scaled, a, b, onCurve, rfl, abscissa, ordinate⟩ := scales
  simp only [Scaled.addGenerator] at result
  split at result
  · cases result
  rename_i nonzero
  cases result
  have zNonzero := cast_ne_zero_of_mod (mulMod_lt _ _) nonzero
  have zValue : ((mulMod point.z (subMod (mulMod generatorAbscissa (mulMod point.z point.z)) point.x) : Nat) :
      Residue) = ((generatorAbscissa : Residue) - a) * (point.z : Residue) ^ 3 := by
    rw [cast_mulMod, cast_subMod, cast_mulMod, cast_mulMod, abscissa]
    ring
  have apart : a ≠ (generatorAbscissa : Residue) := by
    intro same
    rw [zValue, same, sub_self, zero_mul] at zNonzero
    exact zNonzero rfl
  have width : (generatorAbscissa : Residue) - a ≠ 0 := sub_ne_zero.mpr apart.symm
  have chord : secp256k1.slope a generatorAbscissa b generatorOrdinate * ((generatorAbscissa : Residue) - a) =
      (generatorOrdinate : Residue) - b := by
    rw [WeierstrassCurve.Affine.slope_of_X_ne apart, ← neg_sub (generatorOrdinate : Residue) b,
      ← neg_sub (generatorAbscissa : Residue) a, neg_div_neg_eq, div_mul_cancel₀ _ width]
  generalize slopeEq : secp256k1.slope a generatorAbscissa b generatorOrdinate = slope at chord
  refine ⟨zNonzero, _, _, _, WeierstrassCurve.Affine.Point.add_of_X_ne apart, ?_, ?_⟩
  · rw [zValue, addX_secp256k1, slopeEq]
    simp only [cast_subMod, cast_mulMod, abscissa, ordinate, Nat.cast_ofNat]
    linear_combination
      -(slope * ((generatorAbscissa : Residue) - a) + ((generatorOrdinate : Residue) - b)) *
        (point.z : Residue) ^ 6 * chord
  · rw [zValue, addY_secp256k1, addX_secp256k1, slopeEq]
    simp only [cast_subMod, cast_mulMod, abscissa, ordinate, Nat.cast_ofNat]
    linear_combination
      -((2 * a + (generatorAbscissa : Residue)) * ((generatorAbscissa : Residue) - a) ^ 2 -
        ((generatorOrdinate : Residue) - b) ^ 2 -
        slope * ((generatorAbscissa : Residue) - a) * ((generatorOrdinate : Residue) - b) -
        (slope * ((generatorAbscissa : Residue) - a)) ^ 2) * (point.z : Residue) ^ 9 * chord

/-- The multiple of the generator by the bits, most significant first. -/
def ladder : List Bool → Scaled → Option Scaled
  | [], point => some point
  | bit :: rest, point =>
    point.double.bind fun doubled =>
      (if bit then doubled.addGenerator else some doubled).bind (ladder rest)

/-- The number of the bits below a leading one. -/
def laddered (bits : List Bool) (start : Nat) : Nat := bits.foldl (fun number bit => 2 * number + bit.toNat) start

theorem ladder_scales (bits : List Bool) {start : Nat} {point result : Scaled}
    (scales : Scales point (start • generator)) (reached : ladder bits point = some result) :
    Scales result (laddered bits start • generator) := by
  induction bits generalizing start point with
  | nil =>
    cases reached
    exact scales
  | cons bit rest hypothesis =>
    simp only [ladder, Option.bind_eq_some_iff] at reached
    obtain ⟨doubled, doubling, next, adding, further⟩ := reached
    have twice := scales.double doubling
    rw [← two_nsmul, ← mul_nsmul'] at twice
    apply hypothesis ?_ further
    cases bit with
    | false =>
      cases adding
      simpa using twice
    | true =>
      have more := twice.addGenerator adding
      rwa [← succ_nsmul] at more

theorem generator_scales : Scales ⟨generatorAbscissa, generatorOrdinate, 1⟩ ((1 : Nat) • generator) := by
  refine ⟨by simp, _, _, generator_nonsingular, one_nsmul _, by simp, by simp⟩

/-- The bits of `n - 1` below its leading one. -/
def orderBits : List Bool := (List.range 255).reverse.map (groupOrder - 1).testBit

theorem orderBits_number : laddered orderBits 1 = groupOrder - 1 := by decide +kernel

/-- The scaled coordinates are those of the generator's opposite. -/
def Scaled.isOpposite (point : Scaled) : Bool :=
  point.x == mulMod generatorAbscissa (mulMod point.z point.z) &&
    point.y == subMod 0 (mulMod generatorOrdinate (mulMod (mulMod point.z point.z) point.z))

theorem ladder_order :
    (ladder orderBits ⟨generatorAbscissa, generatorOrdinate, 1⟩).any Scaled.isOpposite = true := by
  decide +kernel

theorem Scales.opposite {point : Scaled} {P : CurvePoint} (scales : Scales point P)
    (opposite : point.isOpposite = true) : P = -generator := by
  obtain ⟨scaled, a, b, onCurve, rfl, abscissa, ordinate⟩ := scales
  rw [Scaled.isOpposite, Bool.and_eq_true, beq_iff_eq, beq_iff_eq] at opposite
  obtain ⟨first, second⟩ := opposite
  rw [first, cast_mulMod, cast_mulMod, ← pow_two] at abscissa
  rw [second, cast_subMod, cast_mulMod, cast_mulMod, cast_mulMod, Nat.cast_zero] at ordinate
  have sameX : a = (generatorAbscissa : Residue) :=
    (mul_right_cancel₀ (pow_ne_zero 2 scaled) abscissa).symm
  have sameY : b = -(generatorOrdinate : Residue) := by
    apply mul_right_cancel₀ (pow_ne_zero 3 scaled)
    linear_combination -ordinate
  rw [generator, WeierstrassCurve.Affine.Point.neg_some, WeierstrassCurve.Affine.Point.some.injEq]
  exact ⟨sameX, by rw [sameY, negY_secp256k1]⟩

/-- The order of the generator. -/
theorem groupOrder_nsmul_generator : groupOrder • generator = 0 := by
  obtain ⟨result, reached, opposite⟩ := (Option.any_eq_true _ _).mp ladder_order
  have before := (ladder_scales orderBits generator_scales reached).opposite opposite
  rw [orderBits_number] at before
  have last : groupOrder = groupOrder - 1 + 1 := (Nat.sub_add_cancel groupOrder_prime.pos).symm
  rw [last, succ_nsmul, before, neg_add_cancel]

theorem generator_ne_zero : generator ≠ 0 := WeierstrassCurve.Affine.Point.some_ne_zero _

theorem addOrderOf_generator : addOrderOf generator = groupOrder :=
  addOrderOf_eq_prime groupOrder_nsmul_generator generator_ne_zero

/-- Multiples of the generator below its order are apart. -/
theorem nsmul_generator_eq_zero_iff (scalar : Nat) : scalar • generator = 0 ↔ groupOrder ∣ scalar := by
  rw [← addOrderOf_generator, addOrderOf_dvd_iff_nsmul_eq_zero]

theorem nsmul_generator_ne_zero {scalar : Nat} (positive : 0 < scalar) (below : scalar < groupOrder) :
    scalar • generator ≠ 0 := by
  rw [ne_eq, nsmul_generator_eq_zero_iff]
  exact Nat.not_dvd_of_pos_of_lt positive below

end TronForge.Native
