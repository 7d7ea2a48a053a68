import Mathlib.Algebra.Group.Nat.Defs
import Mathlib.Data.List.Basic
import Mathlib.Logic.Function.Iterate

/-! Keccak-256 over lists of bytes: the five steps of a round on a state of lanes,
the sponge with its padding, and the tables from their definitions. -/

namespace TronForge.Library.Keccak

/-- A state: the lane of every column and row, both below five. -/
abbrev State : Type := Nat → Nat → UInt64

def rotate (value amount : UInt64) : UInt64 :=
  if amount = 0 then value else value <<< amount ||| value >>> (64 - amount)

def column (state : State) (x : Nat) : UInt64 :=
  state x 0 ^^^ state x 1 ^^^ state x 2 ^^^ state x 3 ^^^ state x 4

def theta (state : State) : State := fun x y =>
  state x y ^^^ (column state ((x + 4) % 5) ^^^ rotate (column state ((x + 1) % 5)) 1)

/-- The walk over the columns and rows, and the offset at each place. -/
def offsetWalk : List ((Nat × Nat) × Nat) :=
  ((List.range 24).foldl
    (fun walk t =>
      let (x, y) := walk.2
      (walk.1 ++ [((x, y), (t + 1) * (t + 2) / 2 % 64)], (y, (2 * x + 3 * y) % 5)))
    ([], (1, 0))).1

def offset (x y : Nat) : Nat := (offsetWalk.lookup (x, y)).getD 0

def rho (state : State) : State := fun x y => rotate (state x y) (UInt64.ofNat (offset x y))

def pi (state : State) : State := fun x y => state ((x + 3 * y) % 5) x

def chi (state : State) : State := fun x y =>
  state x y ^^^ (~~~state ((x + 1) % 5) y &&& state ((x + 2) % 5) y)

def iota (roundConstant : UInt64) (state : State) : State := fun x y =>
  if x = 0 ∧ y = 0 then state x y ^^^ roundConstant else state x y

def round (state : State) (roundConstant : UInt64) : State :=
  iota roundConstant (chi (pi (rho (theta state))))

/-- One step of the register behind the round constants. -/
def shift (register : Nat) : Nat :=
  let moved := register * 2
  if 256 ≤ moved then (moved - 256) ^^^ 0x71 else moved

/-- The bit of the register after so many steps. -/
def registerBit (steps : Nat) : Nat := shift^[steps % 255] 1 % 2

def roundConstant (index : Nat) : UInt64 :=
  (List.range 7).foldl (fun constant bit =>
    constant ||| UInt64.ofNat (registerBit (bit + 7 * index) * 2 ^ (2 ^ bit - 1))) 0

def permute (state : State) : State :=
  (List.range 24).foldl (fun state index => round state (roundConstant index)) state

def rate : Nat := 136

/-- Eight bytes as a lane, least significant first. -/
def laneOf (bytes : List UInt8) (start : Nat) : UInt64 :=
  (List.range 8).foldl
    (fun value index => value ||| (bytes.getD (start + index) 0).toUInt64 <<< UInt64.ofNat (index * 8)) 0

def laneBytes (value : UInt64) : List UInt8 :=
  (List.range 8).map fun index => (value >>> UInt64.ofNat (index * 8)).toUInt8

/-- The first seventeen lanes take a block. -/
def absorb (state : State) (bytes : List UInt8) (start : Nat) : State :=
  permute fun x y => if x + 5 * y < 17 then state x y ^^^ laneOf bytes (start + (x + 5 * y) * 8) else state x y

/-- From the first to the last padding bit, which may share their byte. -/
def padding (length : Nat) : List UInt8 :=
  let missing := rate - length % rate
  if missing = 1 then [0x81] else 0x01 :: (List.replicate (missing - 2) 0 ++ [0x80])

def digest (message : List UInt8) : List UInt8 :=
  let padded := message ++ padding message.length
  let state := (List.range (padded.length / rate)).foldl
    (fun state block => absorb state padded (block * rate)) (fun _ _ => 0)
  (List.range 4).flatMap fun x => laneBytes (state x 0)

theorem length_padding (length : Nat) : (padding length).length = rate - length % rate := by
  have below := Nat.mod_lt length (by decide : 0 < rate)
  simp only [padding]
  split
  · rename_i one
    rw [one, List.length_singleton]
  · simp only [List.length_cons, List.length_append, List.length_replicate, List.length_nil]
    omega

end TronForge.Library.Keccak
