import TronForge.Native.Address

/-! The hashes and the address pipeline of the device. -/

namespace TronForge.Native

def keccakRoundConstants : List UInt64 := [
  0x0000000000000001, 0x0000000000008082, 0x800000000000808a,
  0x8000000080008000, 0x000000000000808b, 0x0000000080000001,
  0x8000000080008081, 0x8000000000008009, 0x000000000000008a,
  0x0000000000000088, 0x0000000080008009, 0x000000008000000a,
  0x000000008000808b, 0x800000000000008b, 0x8000000000008089,
  0x8000000000008003, 0x8000000000008002, 0x8000000000000080,
  0x000000000000800a, 0x800000008000000a, 0x8000000080008081,
  0x8000000000008080, 0x0000000080000001, 0x8000000080008008]

def keccakRotation : List UInt64 := [
  0,  1,  62, 28, 27, 36, 44, 6,  55, 20, 3,  10, 43,
  25, 39, 41, 45, 15, 21, 8,  18, 2,  61, 56, 14]

def sha256Constants : List UInt32 := [
  0x428a2f98, 0x71374491, 0xb5c0fbcf, 0xe9b5dba5, 0x3956c25b, 0x59f111f1,
  0x923f82a4, 0xab1c5ed5, 0xd807aa98, 0x12835b01, 0x243185be, 0x550c7dc3,
  0x72be5d74, 0x80deb1fe, 0x9bdc06a7, 0xc19bf174, 0xe49b69c1, 0xefbe4786,
  0x0fc19dc6, 0x240ca1cc, 0x2de92c6f, 0x4a7484aa, 0x5cb0a9dc, 0x76f988da,
  0x983e5152, 0xa831c66d, 0xb00327c8, 0xbf597fc7, 0xc6e00bf3, 0xd5a79147,
  0x06ca6351, 0x14292967, 0x27b70a85, 0x2e1b2138, 0x4d2c6dfc, 0x53380d13,
  0x650a7354, 0x766a0abb, 0x81c2c92e, 0x92722c85, 0xa2bfe8a1, 0xa81a664b,
  0xc24b8b70, 0xc76c51a3, 0xd192e819, 0xd6990624, 0xf40e3585, 0x106aa070,
  0x19a4c116, 0x1e376c08, 0x2748774c, 0x34b0bcb5, 0x391c0cb3, 0x4ed8aa4a,
  0x5b9cca4f, 0x682e6ff3, 0x748f82ee, 0x78a5636f, 0x84c87814, 0x8cc70208,
  0x90befffa, 0xa4506ceb, 0xbef9a3f7, 0xc67178f2]

def rotateLeft (value amount : UInt64) : UInt64 :=
  if amount = 0 then value else value <<< amount ||| value >>> (64 - amount)

def deviceRotateRight (value amount : UInt32) : UInt32 := value >>> amount ||| value <<< (32 - amount)

/-- `load_little_endian` of the eight bytes at an offset. -/
def loadLittleEndian (bytes : List UInt8) (offset : Nat) : UInt64 :=
  (List.range 8).foldl
    (fun value index => value ||| (bytes.getD (offset + index) 0).toUInt64 <<< UInt64.ofNat (index * 8)) 0

def storeLittleEndian (value : UInt64) : List UInt8 :=
  (List.range 8).map fun index => (value >>> UInt64.ofNat (index * 8)).toUInt8

def lane (state : List UInt64) (index : Nat) : UInt64 := state.getD index 0

/-- One round of `keccak_permute`, the same on the host and on the device. -/
def keccakRound (state : List UInt64) (roundConstant : UInt64) : List UInt64 :=
  let columns := (List.range 5).map fun x =>
    lane state x ^^^ lane state (x + 5) ^^^ lane state (x + 10) ^^^ lane state (x + 15) ^^^
      lane state (x + 20)
  let deltas := (List.range 5).map fun x =>
    lane columns ((x + 4) % 5) ^^^ rotateLeft (lane columns ((x + 1) % 5)) 1
  let state := (List.range 25).map fun index => lane state index ^^^ lane deltas (index % 5)
  let moved := (List.range 25).foldl
    (fun moved index =>
      let x := index % 5
      let y := index / 5
      moved.set (y + 5 * ((2 * x + 3 * y) % 5))
        (rotateLeft (lane state index) (lane keccakRotation index)))
    (List.replicate 25 0)
  let state := (List.range 25).map fun index =>
    let x := index % 5
    let y := index / 5
    lane moved index ^^^
      (~~~lane moved ((x + 1) % 5 + 5 * y) &&& lane moved ((x + 2) % 5 + 5 * y))
  state.set 0 (lane state 0 ^^^ roundConstant)

def keccakPermute (state : List UInt64) : List UInt64 := keccakRoundConstants.foldl keccakRound state

/-- `device_keccak_256_64`: one block, with the padding in two lanes. -/
def deviceKeccak25664 (input : List UInt8) : List UInt8 :=
  let absorbed := (List.range 8).map fun index => loadLittleEndian input (index * 8)
  let state := absorbed ++ [1, 0, 0, 0, 0, 0, 0, 0, 0x8000000000000000] ++ List.replicate 8 0
  let state := keccakPermute state
  (List.range 4).flatMap fun index => storeLittleEndian (lane state index)

def word (schedule : List UInt32) (index : Nat) : UInt32 := schedule.getD index 0

/-- The sixteen words of the block: the input, one bit, and the size in bits. -/
def initialSchedule (input : List UInt8) : List UInt32 :=
  let schedule := (List.range input.length).foldl
    (fun schedule index => schedule.set (index / 4)
      (word schedule (index / 4) |||
        (input.getD index 0).toUInt32 <<< UInt32.ofNat (24 - index % 4 * 8)))
    (List.replicate 16 0)
  let schedule := schedule.set (input.length / 4)
    (word schedule (input.length / 4) ||| 0x80 <<< UInt32.ofNat (24 - input.length % 4 * 8))
  let bitSize := UInt64.ofNat input.length * 8
  (schedule.set 14 (bitSize >>> 32).toUInt32).set 15 bitSize.toUInt32

/-- The rolling schedule: from the sixteenth turn on a word is replaced first. -/
def nextSchedule (schedule : List UInt32) (index : Nat) : List UInt32 :=
  if index ≥ 16 then
    let previous15 := word schedule ((index - 15) % 16)
    let previous2 := word schedule ((index - 2) % 16)
    let sigmaZero := deviceRotateRight previous15 7 ^^^ deviceRotateRight previous15 18 ^^^ previous15 >>> 3
    let sigmaOne := deviceRotateRight previous2 17 ^^^ deviceRotateRight previous2 19 ^^^ previous2 >>> 10
    schedule.set (index % 16)
      (word schedule (index % 16) + (sigmaZero + word schedule ((index - 7) % 16) + sigmaOne))
  else schedule

structure Sha256State where
  a : UInt32 := 0x6a09e667
  b : UInt32 := 0xbb67ae85
  c : UInt32 := 0x3c6ef372
  d : UInt32 := 0xa54ff53a
  e : UInt32 := 0x510e527f
  f : UInt32 := 0x9b05688c
  g : UInt32 := 0x1f83d9ab
  h : UInt32 := 0x5be0cd19

def sha256Turn (turn : List UInt32 × Sha256State) (index : Nat) : List UInt32 × Sha256State :=
  let schedule := nextSchedule turn.1 index
  let state := turn.2
  let sumOne := deviceRotateRight state.e 6 ^^^ deviceRotateRight state.e 11 ^^^ deviceRotateRight state.e 25
  let choice := (state.e &&& state.f) ^^^ (~~~state.e &&& state.g)
  let temporaryOne := state.h + sumOne + choice + word sha256Constants index + word schedule (index % 16)
  let sumZero := deviceRotateRight state.a 2 ^^^ deviceRotateRight state.a 13 ^^^ deviceRotateRight state.a 22
  let majority := (state.a &&& state.b) ^^^ (state.a &&& state.c) ^^^ (state.b &&& state.c)
  let temporaryTwo := sumZero + majority
  (schedule, ⟨temporaryOne + temporaryTwo, state.a, state.b, state.c, state.d + temporaryOne, state.e,
    state.f, state.g⟩)

/-- The bytes of a word, most significant first. -/
def wordBytes (word : UInt32) : List UInt8 :=
  [(word >>> 24).toUInt8, (word >>> 16).toUInt8, (word >>> 8).toUInt8, word.toUInt8]

def deviceSha256SingleBlock (input : List UInt8) : List UInt8 :=
  let initial : Sha256State := {}
  let final := ((List.range 64).foldl sha256Turn (initialSchedule input, initial)).2
  [final.a + initial.a, final.b + initial.b, final.c + initial.c, final.d + initial.d,
    final.e + initial.e, final.f + initial.f, final.g + initial.g, final.h + initial.h].flatMap wordBytes

def deviceTronPayloadFromPublicKey (publicKey : List UInt8) : List UInt8 :=
  0x41 :: ((deviceKeccak25664 publicKey).drop 12).take 20

/-- The first four bytes of the double hash of a payload. -/
def deviceChecksum (payload : List UInt8) : List UInt8 :=
  (deviceSha256SingleBlock (deviceSha256SingleBlock payload)).take 4

def deviceTronAddressFromPayload (payload : List UInt8) : Text :=
  deviceBase58 (payload ++ deviceChecksum payload)

def deviceTronAddressFromPublicKey (publicKey : List UInt8) : Text :=
  deviceTronAddressFromPayload (deviceTronPayloadFromPublicKey publicKey)

theorem length_deviceKeccak25664 (input : List UInt8) : (deviceKeccak25664 input).length = 32 := by
  simp [deviceKeccak25664, storeLittleEndian]

theorem tronPayload_fromPublicKey (publicKey : List UInt8) :
    TronPayload (deviceTronPayloadFromPublicKey publicKey) := by
  constructor
  · simp [deviceTronPayloadFromPublicKey, length_deviceKeccak25664]
  · rfl

theorem length_deviceChecksum (payload : List UInt8) : (deviceChecksum payload).length = 4 := by
  simp [deviceChecksum, deviceSha256SingleBlock, wordBytes]

/-- The device's address as a text of its bytes. -/
theorem deviceAddress_text (publicKey : List UInt8) : deviceTronAddressFromPublicKey publicKey =
    base58Text (deviceTronPayloadFromPublicKey publicKey ++
      deviceChecksum (deviceTronPayloadFromPublicKey publicKey)) := by
  have tron := tronPayload_fromPublicKey publicKey
  have size := length_deviceChecksum (deviceTronPayloadFromPublicKey publicKey)
  rw [deviceTronAddressFromPublicKey, deviceTronAddressFromPayload, deviceBase58_eq (by simp [tron.size, size])]

end TronForge.Native
