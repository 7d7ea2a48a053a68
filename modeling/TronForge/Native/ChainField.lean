import TronForge.Library.Limbs
import TronForge.Native.Points

/-! The field of the chained kernels: four 64-bit limbs with wrapping arithmetic,
where a carry shows as a sum below its summand. -/

namespace TronForge.Native.CudaChain

open Library

/-- `Field`: limbs, least significant first. -/
structure Field where
  limbs : List UInt64
  size : limbs.length = 4
  deriving DecidableEq, Repr

def Field.zero : Field := ⟨[0, 0, 0, 0], rfl⟩

instance : Inhabited Field := ⟨.zero⟩

def addWithCarry (left right carry : UInt64) : UInt64 × UInt64 :=
  let first := left + right
  let firstCarry : UInt64 := if first < left then 1 else 0
  let second := first + carry
  let secondCarry : UInt64 := if second < first then 1 else 0
  (second, firstCarry + secondCarry)

def subtractWithBorrow (left right borrow : UInt64) : UInt64 × UInt64 :=
  let first := left - right
  let firstBorrow : UInt64 := if left < right then 1 else 0
  let second := first - borrow
  let secondBorrow : UInt64 := if first < borrow then 1 else 0
  (second, firstBorrow + secondBorrow)

def addRaw (left right : Field) : Field × UInt64 :=
  let sum := Limbs.pass (fun pair => addWithCarry pair.1 pair.2)
    (left.limbs.zip right.limbs) 0
  (⟨sum.1, by simp [sum, left.size, right.size]⟩, sum.2)

def subtractRaw (left right : Field) : Field × UInt64 :=
  let difference := Limbs.pass (fun pair => subtractWithBorrow pair.1 pair.2)
    (left.limbs.zip right.limbs) 0
  (⟨difference.1, by simp [difference, left.size, right.size]⟩, difference.2)

def prime : Field :=
  ⟨[0xfffffffefffffc2f, 0xffffffffffffffff, 0xffffffffffffffff, 0xffffffffffffffff], rfl⟩

def greaterThanOrEqualPrime (value : Field) : Bool :=
  Limbs.atLeast (value.limbs.reverse.zip prime.limbs.reverse)

def fieldIsZero (value : Field) : Bool := value.limbs.foldl (· ||| ·) 0 == 0

def fieldEqual (left right : Field) : Bool :=
  (left.limbs.zipWith (· ^^^ ·) right.limbs).foldl (· ||| ·) 0 == 0

/-- The high word of a product. -/
def umul64hi (left right : UInt64) : UInt64 := UInt64.ofNat (left.toNat * right.toNat / 2 ^ 64)

/-- One step of `multiply_full`: the product of two limbs onto an old word. -/
def multiplyStep (left : UInt64) (pair : UInt64 × UInt64) (carry : UInt64) : UInt64 × UInt64 :=
  let low := left * pair.1
  let high := umul64hi left pair.1
  let first := pair.2 + low
  let firstCarry : UInt64 := if first < pair.2 then 1 else 0
  let second := first + carry
  let secondCarry : UInt64 := if second < first then 1 else 0
  (second, high + firstCarry + secondCarry)

def multiplyFull (left right : Field) : List UInt64 :=
  Limbs.multiply multiplyStep 0 id right.limbs left.limbs (List.replicate 4 0)

def reductionConstant : UInt64 := 0x1000003d1

/-- A sum and its carry. -/
def addTo (summand addend : UInt64) : UInt64 × UInt64 :=
  let sum := summand + addend
  (sum, if sum < summand then 1 else 0)

/-- A limb of the accumulator with the low word of its own high limb, the high
word of the one below and the carry. -/
def foldLimb (limb low high carry : UInt64) : UInt64 × UInt64 :=
  let (sum, carry1) := addTo limb low
  let (sum, carry2) := addTo sum high
  let (sum, carry3) := addTo sum carry
  (sum, carry1 + carry2 + carry3)

/-- `accumulator`; the fifth limb is what the first fold leaves above 256 bits. -/
structure Accumulator where
  limb0 : UInt64
  limb1 : UInt64
  limb2 : UInt64
  limb3 : UInt64
  top : UInt64
  deriving DecidableEq, Repr

def limb (words : List UInt64) (index : Nat) : UInt64 := words.getD index 0

/-- The first part of `reduce`: the high four words times the constant onto the
low four. -/
def foldHigh (input : List UInt64) : Accumulator :=
  let low (index : Nat) := limb input (index + 4) * reductionConstant
  let high (index : Nat) := umul64hi (limb input (index + 4)) reductionConstant
  let (limb0, carry) := addTo (limb input 0) (low 0)
  let (limb1, carry) := foldLimb (limb input 1) (low 1) (high 0) carry
  let (limb2, carry) := foldLimb (limb input 2) (low 2) (high 1) carry
  let (limb3, carry) := foldLimb (limb input 3) (low 3) (high 2) carry
  ⟨limb0, limb1, limb2, limb3, high 3 + carry⟩

/-- The second part: the fifth limb times the constant, with the carry out of the
fourth limb in its place. -/
def foldTop (accumulator : Accumulator) : Accumulator :=
  let foldedLow := accumulator.top * reductionConstant
  let foldedHigh := umul64hi accumulator.top reductionConstant
  let (limb0, carry) := addTo accumulator.limb0 foldedLow
  let (sum, carry1) := addTo accumulator.limb1 foldedHigh
  let (limb1, carry2) := addTo sum carry
  let (limb2, carry) := addTo accumulator.limb2 (carry1 + carry2)
  let (limb3, carry) := addTo accumulator.limb3 carry
  ⟨limb0, limb1, limb2, limb3, carry⟩

/-- The carry is passed on while there is one. -/
def passCarry (limb carry : UInt64) : UInt64 × UInt64 :=
  if carry ≠ 0 then addTo limb 1 else (limb, carry)

/-- The third part: a carry out of the fourth limb is folded once more. -/
def foldCarry (accumulator : Accumulator) : Field :=
  if accumulator.top ≠ 0 then
    let (limb0, carry) := addTo accumulator.limb0 (accumulator.top * reductionConstant)
    let (limb1, carry) := passCarry accumulator.limb1 carry
    let (limb2, carry) := passCarry accumulator.limb2 carry
    let (limb3, _) := passCarry accumulator.limb3 carry
    ⟨[limb0, limb1, limb2, limb3], rfl⟩
  else ⟨[accumulator.limb0, accumulator.limb1, accumulator.limb2, accumulator.limb3], rfl⟩

def reduce (input : List UInt64) : Field :=
  let output := foldCarry (foldTop (foldHigh input))
  if greaterThanOrEqualPrime output then (subtractRaw output prime).1 else output

def fieldAdd (left right : Field) : Field :=
  let (low, carry) := addRaw left right
  reduce (low.limbs ++ [carry, 0, 0, 0])

def fieldSubtract (left right : Field) : Field :=
  let (output, borrow) := subtractRaw left right
  if borrow ≠ 0 then (addRaw output prime).1 else output

def fieldNegate (value : Field) : Field :=
  if fieldIsZero value then .zero else (subtractRaw prime value).1

def fieldMultiply (left right : Field) : Field := reduce (multiplyFull left right)

def fieldSquare (value : Field) : Field := fieldMultiply value value

def fieldFromSmall (value : UInt64) : Field := ⟨[value, 0, 0, 0], rfl⟩

/-- `p - 2`. -/
def inverseExponent : List UInt64 :=
  [0xfffffffefffffc2d, 0xffffffffffffffff, 0xffffffffffffffff, 0xffffffffffffffff]

def exponentBit (bit : Nat) : Bool :=
  (limb inverseExponent (bit >>> 6) >>> UInt64.ofNat (bit &&& 63)) &&& 1 != 0

/-- One turn of `field_inverse`: the result so far and the squared base. -/
def inverseStep (state : Field × Field) (bit : Nat) : Field × Field :=
  (if exponentBit bit then fieldMultiply state.1 state.2 else state.1, fieldSquare state.2)

def fieldInverse (value : Field) : Field :=
  ((List.range 256).foldl inverseStep (fieldFromSmall 1, value)).1

instance : FieldRoutines Field where
  fieldZero := .zero
  fieldFromSmall small := fieldFromSmall (UInt64.ofNat small)
  fieldIsZero := fieldIsZero
  fieldEqual := fieldEqual
  fieldNegate := fieldNegate
  fieldSubtract := fieldSubtract
  fieldMultiply := fieldMultiply
  fieldInverse := fieldInverse

abbrev Point : Type := AffinePoint Field

def pointDouble : Point → Point := Native.pointDouble

def pointAdd : Point → Point → Point := Native.pointAdd

/-- The two loops of `field_inverse_batch`: down the values with the running
product, and back up with the inverse of it. A zero value counts as one. -/
def inverseLoop (previous : Field) : List Field → Field × List Field
  | [] => (fieldInverse previous, [])
  | value :: rest =>
    let factor := if fieldIsZero value then fieldFromSmall 1 else value
    match inverseLoop (fieldMultiply previous factor) rest with
    | (inverse, inverses) =>
      (fieldMultiply inverse factor,
        (if fieldIsZero value then .zero else fieldMultiply inverse previous) :: inverses)

def fieldInverseBatch (values : List Field) : List Field := (inverseLoop (fieldFromSmall 1) values).2

/-- The bytes of a limb, most significant first. -/
def limbBytes (limb : UInt64) : List UInt8 :=
  (List.range 8).map fun byte => (limb >>> UInt64.ofNat (56 - byte * 8)).toUInt8

def fieldToBigEndian (value : Field) : List UInt8 := value.limbs.reverse.flatMap limbBytes

def pointToPublicKey (point : Point) : List UInt8 :=
  fieldToBigEndian point.x ++ fieldToBigEndian point.y

end TronForge.Native.CudaChain
