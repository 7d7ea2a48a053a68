import TronForge.Library.Limbs
import TronForge.Native.Points

/-! The field of the other kernels and of the host's tables: eight 32-bit limbs,
with sums and products held in 64-bit words. -/

namespace TronForge.Native.CudaSecp

open Library

/-- `Field`: limbs, least significant first. -/
structure Field where
  limbs : List UInt32
  size : limbs.length = 8
  deriving DecidableEq, Repr

def Field.zero : Field := ⟨List.replicate 8 0, rfl⟩

instance : Inhabited Field := ⟨.zero⟩

def fieldPrimeLimb (index : Nat) : UInt32 :=
  if index = 0 then 0xfffffc2f else if index = 1 then 0xfffffffe else 0xffffffff

def prime : Field := ⟨(List.range 8).map fieldPrimeLimb, rfl⟩

/-- `field_compare` is at least zero. -/
def fieldAtLeast (left right : Field) : Bool :=
  Limbs.atLeast (left.limbs.reverse.zip right.limbs.reverse)

def fieldIsZero (value : Field) : Bool := value.limbs.foldl (· ||| ·) 0 == 0

def fieldEqual (left right : Field) : Bool :=
  (left.limbs.zipWith (· ^^^ ·) right.limbs).foldl (· ||| ·) 0 == 0

/-- One limb of `field_subtract_raw`. -/
def subtractLimb (left right : UInt32) (borrow : UInt64) : UInt32 × UInt64 :=
  let subtrahend := right.toUInt64 + borrow
  ((left.toUInt64 - subtrahend).toUInt32, if left.toUInt64 < subtrahend then 1 else 0)

def fieldSubtractRaw (left right : Field) : Field :=
  let difference := Limbs.pass (fun pair => subtractLimb pair.1 pair.2) (left.limbs.zip right.limbs) 0
  ⟨difference.1, by simp [difference, left.size, right.size]⟩

def limbMask : UInt64 := 0xffffffff

/-- The carries of one pass over `accumulator[18]`: each word but the last is cut
to 32 bits. -/
def normalise : List UInt64 → UInt64 → List UInt64
  | [], _ => []
  | [last], carry => [last + carry]
  | word :: rest, carry => ((word + carry) &&& limbMask) :: normalise rest ((word + carry) >>> 32)

/-- One high word times `2^32 + 977` onto the words eight and seven below it; the
flag tells whether a high word was found. -/
def foldWord (state : List UInt64 × Bool) (index : Nat) : List UInt64 × Bool :=
  let value := state.1.getD index 0
  if value == 0 then state
  else
    let words := state.1.set index 0
    let words := words.set (index - 8) (words.getD (index - 8) 0 + value * 977)
    (words.set (index - 7) (words.getD (index - 7) 0 + value), true)

/-- The indices from the last one down to eight. -/
def highIndices : List Nat := [17, 16, 15, 14, 13, 12, 11, 10, 9, 8]

def foldWords (words : List UInt64) : List UInt64 × Bool := highIndices.foldl foldWord (words, false)

/-- At most `count` passes, until one finds no high word. -/
def passes : Nat → List UInt64 → List UInt64
  | 0, words => words
  | count + 1, words =>
    match foldWords (normalise words 0) with
    | (folded, hasHighLimb) => if hasHighLimb then passes count folded else folded

def lowLimbs (words : List UInt64) : Field :=
  ⟨(List.range 8).map fun index => (words.getD index 0).toUInt32, by simp⟩

def reduceAccumulator (accumulator : List UInt64) : Field :=
  let output := lowLimbs (passes 12 accumulator)
  if fieldAtLeast output prime then fieldSubtractRaw output prime else output

def fieldAdd (left right : Field) : Field :=
  reduceAccumulator
    (left.limbs.zipWith (fun first second => first.toUInt64 + second.toUInt64) right.limbs ++
      List.replicate 10 0)

def fieldNegate (value : Field) : Field :=
  if fieldIsZero value then .zero else fieldSubtractRaw prime value

def fieldSubtract (left right : Field) : Field := fieldAdd left (fieldNegate right)

/-- One step of the product: `combined` and what it carries. -/
def multiplyStep (left : UInt32) (pair : UInt32 × UInt32) (carry : UInt64) : UInt32 × UInt64 :=
  let combined := left.toUInt64 * pair.1.toUInt64 + pair.2.toUInt64 + carry
  (combined.toUInt32, combined >>> 32)

/-- `product[16]`. -/
def productLimbs (left right : Field) : List UInt32 :=
  Limbs.multiply multiplyStep 0 UInt64.toUInt32 right.limbs left.limbs (List.replicate 8 0)

def fieldMultiply (left right : Field) : Field :=
  reduceAccumulator ((productLimbs left right).map UInt32.toUInt64 ++ [0, 0])

def fieldSquare (value : Field) : Field := fieldMultiply value value

def fieldFromSmall (value : UInt32) : Field := ⟨value :: List.replicate 7 0, rfl⟩

/-- The bits of `p - 2`. -/
def exponentBit (bit : Nat) : Bool :=
  let limb := bit / 32
  let exponentLimb : UInt32 :=
    if limb = 0 then 0xfffffc2d else if limb = 1 then 0xfffffffe else 0xffffffff
  (exponentLimb >>> UInt32.ofNat (bit % 32)) &&& 1 != 0

/-- One turn of `field_inverse`. -/
def inverseStep (value : Field) (result : Field) (bit : Nat) : Field :=
  let result := fieldSquare result
  if exponentBit bit then fieldMultiply result value else result

def fieldInverse (value : Field) : Field :=
  (List.range 256).reverse.foldl (inverseStep value) (fieldFromSmall 1)

instance : FieldRoutines Field where
  fieldZero := .zero
  fieldFromSmall small := fieldFromSmall (UInt32.ofNat small)
  fieldIsZero := fieldIsZero
  fieldEqual := fieldEqual
  fieldNegate := fieldNegate
  fieldSubtract := fieldSubtract
  fieldMultiply := fieldMultiply
  fieldInverse := fieldInverse

abbrev AffinePoint : Type := Native.AffinePoint Field

def pointDouble : AffinePoint → AffinePoint := Native.pointDouble

def pointAdd : AffinePoint → AffinePoint → AffinePoint := Native.pointAdd

def pointAddWithInverse : AffinePoint → AffinePoint → Field → AffinePoint := Native.pointAddWithInverse

def fieldFromBigEndian (input : List UInt8) : Field :=
  ⟨(List.range 8).map fun limb =>
    let byte (index : Nat) := (input.getD (28 - limb * 4 + index) 0).toUInt32
    byte 0 <<< 24 ||| byte 1 <<< 16 ||| byte 2 <<< 8 ||| byte 3, by simp⟩

/-- The bytes of a limb, most significant first. -/
def limbBytes (limb : UInt32) : List UInt8 :=
  [(limb >>> 24).toUInt8, (limb >>> 16).toUInt8, (limb >>> 8).toUInt8, limb.toUInt8]

def fieldToBigEndian (value : Field) : List UInt8 := value.limbs.reverse.flatMap limbBytes

def pointToPublicKey (point : AffinePoint) : List UInt8 :=
  fieldToBigEndian point.x ++ fieldToBigEndian point.y

def generatorX : List UInt8 :=
  [0x79, 0xbe, 0x66, 0x7e, 0xf9, 0xdc, 0xbb, 0xac, 0x55, 0xa0, 0x62,
    0x95, 0xce, 0x87, 0x0b, 0x07, 0x02, 0x9b, 0xfc, 0xdb, 0x2d, 0xce,
    0x28, 0xd9, 0x59, 0xf2, 0x81, 0x5b, 0x16, 0xf8, 0x17, 0x98]

def generatorY : List UInt8 :=
  [0x48, 0x3a, 0xda, 0x77, 0x26, 0xa3, 0xc4, 0x65, 0x5d, 0xa4, 0xfb,
    0xfc, 0x0e, 0x11, 0x08, 0xa8, 0xfd, 0x17, 0xb4, 0x48, 0xa6, 0x85,
    0x54, 0x19, 0x9c, 0x47, 0xd0, 0x8f, 0xfb, 0x10, 0xd4, 0xb8]

def generatorPoint : AffinePoint := ⟨fieldFromBigEndian generatorX, fieldFromBigEndian generatorY, false⟩

/-- The loop of `scalar_multiply_u64`, which has no turn left once the scalar is
shifted out. -/
def scalarLoop : Nat → UInt64 → AffinePoint → AffinePoint → AffinePoint
  | 0, _, result, _ => result
  | turns + 1, scalar, result, addend =>
    if scalar = 0 then result
    else
      let result := if scalar &&& 1 ≠ 0 then pointAdd result addend else result
      let scalar := scalar >>> 1
      let addend := if scalar ≠ 0 then pointDouble addend else addend
      scalarLoop turns scalar result addend

def scalarMultiplyU64 (scalar : UInt64) : AffinePoint :=
  scalarLoop 64 scalar .atInfinity generatorPoint

end TronForge.Native.CudaSecp
