import Mathlib.Algebra.Group.Nat.Defs
import Mathlib.Data.List.Basic

/-! SHA-256 over lists of bytes, as the standard states it: padding, the message
schedule as a recurrence, and the compression of one block after another. -/

namespace TronForge.Library.Sha256

def rotateRight (value amount : UInt32) : UInt32 := value >>> amount ||| value <<< (32 - amount)

def choice (x y z : UInt32) : UInt32 := (x &&& y) ^^^ (~~~x &&& z)

def majority (x y z : UInt32) : UInt32 := (x &&& y) ^^^ (x &&& z) ^^^ (y &&& z)

def bigSigmaZero (x : UInt32) : UInt32 := rotateRight x 2 ^^^ rotateRight x 13 ^^^ rotateRight x 22

def bigSigmaOne (x : UInt32) : UInt32 := rotateRight x 6 ^^^ rotateRight x 11 ^^^ rotateRight x 25

def smallSigmaZero (x : UInt32) : UInt32 := rotateRight x 7 ^^^ rotateRight x 18 ^^^ x >>> 3

def smallSigmaOne (x : UInt32) : UInt32 := rotateRight x 17 ^^^ rotateRight x 19 ^^^ x >>> 10

def roundConstants : List UInt32 := [
  0x428a2f98, 0x71374491, 0xb5c0fbcf, 0xe9b5dba5, 0x3956c25b, 0x59f111f1, 0x923f82a4, 0xab1c5ed5,
  0xd807aa98, 0x12835b01, 0x243185be, 0x550c7dc3, 0x72be5d74, 0x80deb1fe, 0x9bdc06a7, 0xc19bf174,
  0xe49b69c1, 0xefbe4786, 0x0fc19dc6, 0x240ca1cc, 0x2de92c6f, 0x4a7484aa, 0x5cb0a9dc, 0x76f988da,
  0x983e5152, 0xa831c66d, 0xb00327c8, 0xbf597fc7, 0xc6e00bf3, 0xd5a79147, 0x06ca6351, 0x14292967,
  0x27b70a85, 0x2e1b2138, 0x4d2c6dfc, 0x53380d13, 0x650a7354, 0x766a0abb, 0x81c2c92e, 0x92722c85,
  0xa2bfe8a1, 0xa81a664b, 0xc24b8b70, 0xc76c51a3, 0xd192e819, 0xd6990624, 0xf40e3585, 0x106aa070,
  0x19a4c116, 0x1e376c08, 0x2748774c, 0x34b0bcb5, 0x391c0cb3, 0x4ed8aa4a, 0x5b9cca4f, 0x682e6ff3,
  0x748f82ee, 0x78a5636f, 0x84c87814, 0x8cc70208, 0x90befffa, 0xa4506ceb, 0xbef9a3f7, 0xc67178f2]

/-- The eight working variables. -/
structure Chaining where
  a : UInt32
  b : UInt32
  c : UInt32
  d : UInt32
  e : UInt32
  f : UInt32
  g : UInt32
  h : UInt32
  deriving DecidableEq, Repr

def Chaining.initial : Chaining :=
  ⟨0x6a09e667, 0xbb67ae85, 0x3c6ef372, 0xa54ff53a, 0x510e527f, 0x9b05688c, 0x1f83d9ab, 0x5be0cd19⟩

def Chaining.add (left right : Chaining) : Chaining :=
  ⟨left.a + right.a, left.b + right.b, left.c + right.c, left.d + right.d, left.e + right.e,
    left.f + right.f, left.g + right.g, left.h + right.h⟩

/-- The message schedule of a block. -/
def schedule (block : Nat → UInt32) (t : Nat) : UInt32 :=
  if t < 16 then block t
  else smallSigmaOne (schedule block (t - 2)) + schedule block (t - 7) +
    smallSigmaZero (schedule block (t - 15)) + schedule block (t - 16)
termination_by t

/-- One turn of the compression. -/
def turn (words : Nat → UInt32) (state : Chaining) (t : Nat) : Chaining :=
  let temporaryOne := state.h + bigSigmaOne state.e + choice state.e state.f state.g +
    roundConstants.getD t 0 + words t
  let temporaryTwo := bigSigmaZero state.a + majority state.a state.b state.c
  ⟨temporaryOne + temporaryTwo, state.a, state.b, state.c, state.d + temporaryOne, state.e, state.f, state.g⟩

def compress (state : Chaining) (block : Nat → UInt32) : Chaining :=
  ((List.range 64).foldl (turn (schedule block)) state).add state

/-- A word of a block, most significant byte first. -/
def blockWord (bytes : List UInt8) (block t : Nat) : UInt32 :=
  (bytes.getD (64 * block + 4 * t) 0).toUInt32 <<< 24 |||
  (bytes.getD (64 * block + 4 * t + 1) 0).toUInt32 <<< 16 |||
  (bytes.getD (64 * block + 4 * t + 2) 0).toUInt32 <<< 8 |||
  (bytes.getD (64 * block + 4 * t + 3) 0).toUInt32

/-- The length in bits, as eight bytes. -/
def lengthBytes (length : Nat) : List UInt8 :=
  (List.range 8).map fun index => UInt8.ofNat (length * 8 / 256 ^ (7 - index))

/-- What is appended to a message: one bit, zeros to the end of a block, the length. -/
def padding (length : Nat) : List UInt8 :=
  0x80 :: (List.replicate ((119 - length % 64) % 64) 0 ++ lengthBytes length)

def wordBytes (word : UInt32) : List UInt8 :=
  [(word >>> 24).toUInt8, (word >>> 16).toUInt8, (word >>> 8).toUInt8, word.toUInt8]

def Chaining.bytes (state : Chaining) : List UInt8 :=
  [state.a, state.b, state.c, state.d, state.e, state.f, state.g, state.h].flatMap wordBytes

def digest (message : List UInt8) : List UInt8 :=
  let padded := message ++ padding message.length
  ((List.range (padded.length / 64)).foldl
    (fun state block => compress state (blockWord padded block)) .initial).bytes

theorem length_digest (message : List UInt8) : (digest message).length = 32 := by
  simp [digest, Chaining.bytes, wordBytes]

theorem schedule_block (block : Nat → UInt32) {t : Nat} (first : t < 16) : schedule block t = block t := by
  rw [schedule, if_pos first]

theorem schedule_recurrence (block : Nat → UInt32) {t : Nat} (later : 16 ≤ t) :
    schedule block t = smallSigmaOne (schedule block (t - 2)) + schedule block (t - 7) +
      smallSigmaZero (schedule block (t - 15)) + schedule block (t - 16) := by
  rw [schedule, if_neg (Nat.not_lt.mpr later)]

section
variable {message : List UInt8}

/-- A message of at most 55 bytes is one block. -/
theorem length_padded (short : message.length ≤ 55) : (message ++ padding message.length).length = 64 := by
  have room : (119 - message.length % 64) % 64 = 55 - message.length := by omega
  simp [padding, lengthBytes, room]
  omega

theorem digest_short (short : message.length ≤ 55) :
    digest message = (compress .initial (blockWord (message ++ padding message.length) 0)).bytes := by
  rw [digest, length_padded short]
  rfl

end

end TronForge.Library.Sha256
