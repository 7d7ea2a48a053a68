import Mathlib.Data.Nat.Bitwise
import TronForge.Native.Pattern

/-! The prefilter on payloads: a prefix becomes at most eight intervals of
25-byte numbers, one for each choice of the letters whose other case is also a
Base58 character, and a payload is compared with their first 21 bytes. -/

namespace TronForge.Native

open Library

/-- What `host_prefix_bound` may throw. -/
inductive BoundError where
  | invalidCharacter
  | overflow
  | underflow
  deriving DecidableEq, Repr

def BoundError.message : BoundError → String
  | .invalidCharacter => "Prefix contains a character outside the Base58 alphabet."
  | .overflow => "Base58 prefix bound exceeded 25 bytes."
  | .underflow => "Cannot subtract from a zero Base58 bound."

/-- `HostBase58Integer`: 25 bytes, most significant first. -/
abbrev HostBase58Integer := List UInt8

def HostBase58Integer.zero : HostBase58Integer := List.replicate 25 0

def hostBase58Digit (value : Char) : Except BoundError Nat :=
  if value ∈ base58Alphabet then return base58Alphabet.idxOf value else throw .invalidCharacter

def multiplyByte (multiplier : UInt32) (byte : UInt8) (carry : UInt32) : UInt32 × UInt8 :=
  let product := byte.toUInt32 * multiplier + carry
  (product >>> 8, product.toUInt8)

def hostMultiplySmall (multiplier : UInt32) (value : HostBase58Integer) :
    Except BoundError HostBase58Integer :=
  match value.mapAccumr (multiplyByte multiplier) 0 with
  | (carry, bytes) => if carry ≠ 0 then throw .overflow else return bytes

/-- The loop of `host_add_small` ends with the carry. -/
def addByte (byte : UInt8) (carry : UInt32) : UInt32 × UInt8 :=
  if carry ≠ 0 then
    let sum := byte.toUInt32 + carry
    (sum >>> 8, sum.toUInt8)
  else (carry, byte)

def hostAddSmall (addend : UInt32) (value : HostBase58Integer) : Except BoundError HostBase58Integer :=
  match value.mapAccumr addByte addend with
  | (carry, bytes) => if carry ≠ 0 then throw .overflow else return bytes

/-- The loop of `host_subtract_one` returns at the first byte that is not zero. -/
def subtractByte (byte : UInt8) (borrow : Bool) : Bool × UInt8 :=
  if borrow then if byte ≠ 0 then (false, byte - 1) else (true, 0xff) else (false, byte)

def hostSubtractOne (value : HostBase58Integer) : Except BoundError HostBase58Integer :=
  match value.mapAccumr subtractByte true with
  | (borrow, bytes) => if borrow then throw .underflow else return bytes

def hostPushCharacter (value : HostBase58Integer) (character : Char) :
    Except BoundError HostBase58Integer := do
  let value ← hostMultiplySmall 58 value
  let digit ← hostBase58Digit character
  hostAddSmall (UInt32.ofNat digit) value

def hostPrefixBound (addressPrefix : Text) (upper : Bool) : Except BoundError HostBase58Integer := do
  let value ← addressPrefix.foldlM hostPushCharacter .zero
  let value ← if upper then hostAddSmall 1 value else pure value
  let value ← (List.range (34 - addressPrefix.length)).foldlM (fun value _ => hostMultiplySmall 58 value) value
  if upper then hostSubtractOne value else pure value

def hostBase58Contains (value : Char) : Bool := decide (value ∈ base58Alphabet)

/-- The letter in its other case. -/
def alternative (value : Char) : Char :=
  if 'A' ≤ value ∧ value ≤ 'Z' then Char.ofNat (value.toNat + 32)
  else if 'a' ≤ value ∧ value ≤ 'z' then Char.ofNat (value.toNat - 32)
  else value

def flipCase (value : Char) : Char :=
  if 'A' ≤ value ∧ value ≤ 'Z' then Char.ofNat (value.toNat + 32) else Char.ofNat (value.toNat - 32)

def twoCased (value : Char) : Bool := alternative value != value && hostBase58Contains (alternative value)

def variablePositions (requested : Text) : List Nat :=
  (List.range' 1 (requested.length - 1)).filter fun index => twoCased (charAt requested index)

/-- The letter at a variable position changes its case in half of the variants. -/
def flipMarked (variant : Nat) (actual : Text) (mark : Nat × Nat) : Text :=
  if (variant >>> mark.2) &&& 1 = 0 then actual else actual.modify (mark.1 + 1) flipCase

/-- `actual_prefix` of one variant. -/
def actualPrefix (requested : Text) (variant : Nat) : Text :=
  (variablePositions requested).zipIdx.foldl (flipMarked variant) ('T' :: requested)

def prefixInterval (requested : Text) (variant : Nat) : Except BoundError PrefixInterval := do
  let minimum ← hostPrefixBound (actualPrefix requested variant) false
  let maximum ← hostPrefixBound (actualPrefix requested variant) true
  return ⟨minimum.take 21, maximum.take 21⟩

def populatePrefixIntervals (pattern : DevicePattern) (requested : Text) :
    Except BoundError DevicePattern := do
  let intervals ← (List.range (1 <<< (variablePositions requested).length)).mapM (prefixInterval requested)
  return { pattern with intervals }

def deviceComparePayload : List UInt8 → List UInt8 → Int
  | left :: leftRest, right :: rightRest =>
    if left < right then -1 else if left > right then 1 else deviceComparePayload leftRest rightRest
  | _, _ => 0

def devicePayloadMayMatchPrefix (payload : List UInt8) (pattern : DevicePattern) : Bool :=
  pattern.intervals.any fun interval =>
    decide (deviceComparePayload payload interval.min ≥ 0) &&
      decide (deviceComparePayload payload interval.max ≤ 0)

def byteAt (bytes : List UInt8) (index : Nat) : UInt8 := bytes.getD index 0

/-- A comparison that is settled by the first byte that differs. -/
def hostCompareByte (encoded bound : List UInt8) (comparison : Int) (index : Nat) : Int :=
  if comparison = 0 ∧ byteAt encoded index ≠ byteAt bound index then
    if byteAt encoded index < byteAt bound index then -1 else 1
  else comparison

def hostPayloadMayMatchPrefix (encoded : HostBase58Integer) (pattern : DevicePattern) : Bool :=
  pattern.intervals.any fun interval =>
    decide ((List.range 21).foldl (hostCompareByte encoded interval.min) 0 ≥ 0) &&
      decide ((List.range 21).foldl (hostCompareByte encoded interval.max) 0 ≤ 0)

end TronForge.Native
