import Mathlib.Data.List.GetD
import TronForge.Library.Coverage
import TronForge.Library.Keccak
import TronForge.Native.DeviceHash

/-! The host's `keccak_256` is the general sponge, and the single block of the device
is the same digest of sixty-four bytes. -/

namespace TronForge.Native

open Library

/-- The lanes of a block are added to the state, which is then permuted. -/
def absorbBlock (state : List UInt64) (bytes : List UInt8) (start : Nat) : List UInt64 :=
  keccakPermute (state.mapIdx fun index value =>
    if index < 136 / 8 then value ^^^ loadLittleEndian bytes (start + index * 8) else value)

/-- `keccak_256`. -/
def keccak256 (data : List UInt8) : List UInt8 :=
  let blocks := data.length / 136
  let state := (List.range blocks).foldl (fun state block => absorbBlock state data (block * 136))
    (List.replicate 25 0)
  let rest := data.drop (blocks * 136)
  let block := rest ++ List.replicate (136 - rest.length) 0
  let block := block.set rest.length (block.getD rest.length 0 ^^^ 0x01)
  let block := block.set 135 (block.getD 135 0 ^^^ 0x80)
  let state := absorbBlock state block 0
  (List.range 4).flatMap fun index => storeLittleEndian (lane state index)

/-- The list holds the lanes of the state, row after row. -/
structure Lanes (lanes : List UInt64) (state : Keccak.State) : Prop where
  length : lanes.length = 25
  lane_eq : ∀ x < 5, ∀ y < 5, lane lanes (x + 5 * y) = state x y

theorem lane_map (f : Nat → UInt64) {count index : Nat} (inside : index < count) :
    lane ((List.range count).map f) index = f index := by
  simp [lane, inside]

theorem place_mod {x y : Nat} (inside : x < 5) : (x + 5 * y) % 5 = x := by omega

theorem place_div {x y : Nat} (inside : x < 5) : (x + 5 * y) / 5 = y := by omega

theorem place_lt {x y : Nat} (insideX : x < 5) (insideY : y < 5) : x + 5 * y < 25 := by omega

theorem rotateLeft_eq (value amount : UInt64) : rotateLeft value amount = Keccak.rotate value amount := rfl

/-- The table of rotations is the walk's. -/
theorem keccakRotation_eq {x y : Nat} (insideX : x < 5) (insideY : y < 5) :
    lane keccakRotation (x + 5 * y) = UInt64.ofNat (Keccak.offset x y) := by
  have all : ∀ y < 5, ∀ x < 5, lane keccakRotation (x + 5 * y) = UInt64.ofNat (Keccak.offset x y) := by decide
  exact all y insideY x insideX

theorem keccakRoundConstants_eq : keccakRoundConstants = (List.range 24).map Keccak.roundConstant := by
  decide +kernel

section
variable {lanes : List UInt64} {state : Keccak.State}

/-- The columns' parities and what they add to each lane. -/
theorem theta_lanes (holds : Lanes lanes state) {x y : Nat} (insideX : x < 5) (insideY : y < 5) :
    lane lanes (x + 5 * y) ^^^ lane ((List.range 5).map fun x =>
      lane ((List.range 5).map fun x => lane lanes x ^^^ lane lanes (x + 5) ^^^ lane lanes (x + 10) ^^^
        lane lanes (x + 15) ^^^ lane lanes (x + 20)) ((x + 4) % 5) ^^^
      rotateLeft (lane ((List.range 5).map fun x => lane lanes x ^^^ lane lanes (x + 5) ^^^
        lane lanes (x + 10) ^^^ lane lanes (x + 15) ^^^ lane lanes (x + 20)) ((x + 1) % 5)) 1) x =
      Keccak.theta state x y := by
  have column {x : Nat} (inside : x < 5) : lane ((List.range 5).map fun x => lane lanes x ^^^ lane lanes (x + 5) ^^^
      lane lanes (x + 10) ^^^ lane lanes (x + 15) ^^^ lane lanes (x + 20)) x = Keccak.column state x := by
    have entry := holds.lane_eq x inside
    rw [lane_map _ inside, Keccak.column, ← entry 0 (by omega), ← entry 1 (by omega), ← entry 2 (by omega),
      ← entry 3 (by omega), ← entry 4 (by omega)]
    rfl
  rw [lane_map _ insideX, column (Nat.mod_lt _ (by omega)), column (Nat.mod_lt _ (by omega)),
    holds.lane_eq x insideX y insideY, rotateLeft_eq, Keccak.theta]

/-- Where a lane moves, and where the lane of a place comes from. -/
def movedTo (index : Nat) : Nat := index / 5 + 5 * ((2 * (index % 5) + 3 * (index / 5)) % 5)

def movedFrom (place : Nat) : Nat := (place % 5 + 3 * (place / 5)) % 5 + 5 * (place % 5)

theorem movedFrom_movedTo {index : Nat} (inside : index < 25) : movedFrom (movedTo index) = index := by
  have all : ∀ index < 25, movedFrom (movedTo index) = index := by decide
  exact all index inside

theorem movedTo_movedFrom {place : Nat} (inside : place < 25) :
    movedFrom place < 25 ∧ movedTo (movedFrom place) = place := by
  have all : ∀ place < 25, movedFrom place < 25 ∧ movedTo (movedFrom place) = place := by decide
  exact all place inside

/-- The moves, place by place. -/
theorem moved_byPlace (lanes : List UInt64) :
    (List.range 25).foldl (fun moved index => moved.set (movedTo index)
        (rotateLeft (lane lanes index) (lane keccakRotation index))) (List.replicate 25 0) =
      ((List.range 25).map movedTo).foldl (fun moved place => moved.set place
        (rotateLeft (lane lanes (movedFrom place)) (lane keccakRotation (movedFrom place))))
        (List.replicate 25 0) := by
  rw [List.foldl_map]
  apply List.foldl_ext
  intro moved index member
  rw [movedFrom_movedTo (List.mem_range.mp member)]

/-- The rotated lanes in their new places. -/
theorem moved_lane (lanes : List UInt64) {place : Nat} (inside : place < 25) :
    lane ((List.range 25).foldl (fun moved index => moved.set (movedTo index)
      (rotateLeft (lane lanes index) (lane keccakRotation index))) (List.replicate 25 0)) place =
    rotateLeft (lane lanes (movedFrom place)) (lane keccakRotation (movedFrom place)) := by
  obtain ⟨source, back⟩ := movedTo_movedFrom inside
  have reached : place ∈ (List.range 25).map movedTo := List.mem_map.mpr ⟨_, List.mem_range.mpr source, back⟩
  rw [moved_byPlace, lane, getD_foldl_set (fun place =>
    rotateLeft (lane lanes (movedFrom place)) (lane keccakRotation (movedFrom place))) _ _ (by simpa using inside),
    if_pos reached]

theorem keccakRound_lanes (holds : Lanes lanes state) (roundConstant : UInt64) :
    Lanes (keccakRound lanes roundConstant) (Keccak.round state roundConstant) := by
  unfold keccakRound
  extract_lets columns deltas added moved mixed
  have addedLanes : Lanes added (Keccak.theta state) := by
    refine ⟨by simp [added], ?_⟩
    intro x insideX y insideY
    rw [lane_map _ (place_lt insideX insideY), place_mod insideX]
    exact theta_lanes holds insideX insideY
  have movedLanes : Lanes moved (Keccak.pi (Keccak.rho (Keccak.theta state))) := by
    have places : moved.length = 25 := by
      have length := congrArg List.length (moved_byPlace added)
      rw [length_foldl_set (fun place =>
        rotateLeft (lane added (movedFrom place)) (lane keccakRotation (movedFrom place)))] at length
      exact length
    refine ⟨places, ?_⟩
    intro x insideX y insideY
    have fromX : (x + 3 * y) % 5 < 5 := Nat.mod_lt _ (by omega)
    have place : movedFrom (x + 5 * y) = (x + 3 * y) % 5 + 5 * x := by
      rw [movedFrom, place_mod insideX, place_div insideX]
    have here := moved_lane added (place_lt insideX insideY)
    rw [place, addedLanes.lane_eq _ fromX x insideX, keccakRotation_eq fromX insideX, rotateLeft_eq] at here
    exact here
  have mixedLanes : Lanes mixed (Keccak.chi (Keccak.pi (Keccak.rho (Keccak.theta state)))) := by
    refine ⟨by simp [mixed], ?_⟩
    intro x insideX y insideY
    have next : (x + 1) % 5 < 5 := Nat.mod_lt _ (by omega)
    have afterNext : (x + 2) % 5 < 5 := Nat.mod_lt _ (by omega)
    rw [lane_map _ (place_lt insideX insideY)]
    simp only [place_mod insideX, place_div insideX]
    rw [movedLanes.lane_eq x insideX y insideY, movedLanes.lane_eq _ next y insideY,
      movedLanes.lane_eq _ afterNext y insideY, Keccak.chi]
  refine ⟨by simp [mixed], ?_⟩
  intro x insideX y insideY
  have here := mixedLanes.lane_eq x insideX y insideY
  have inside : x + 5 * y < mixed.length := by
    rw [mixedLanes.length]
    exact place_lt insideX insideY
  rw [Keccak.round, Keccak.iota, ← here]
  by_cases first : x = 0 ∧ y = 0
  · obtain ⟨rfl, rfl⟩ := first
    rw [if_pos ⟨rfl, rfl⟩, lane, List.getD, List.getElem?_set_self inside]
    rfl
  · have apart : 0 ≠ x + 5 * y := by omega
    rw [if_neg first, lane, List.getD, List.getElem?_set_ne apart]
    rfl

theorem keccakPermute_lanes (holds : Lanes lanes state) : Lanes (keccakPermute lanes) (Keccak.permute state) := by
  rw [keccakPermute, Keccak.permute, keccakRoundConstants_eq, List.foldl_map]
  generalize List.range 24 = indices
  induction indices generalizing lanes state with
  | nil => exact holds
  | cons index rest hypothesis => exact hypothesis (keccakRound_lanes holds _)

/-- A block is absorbed from wherever its bytes are. -/
theorem absorbBlock_lanes (holds : Lanes lanes state) {bytes padded : List UInt8} {start place : Nat}
    (same : ∀ index < 136, bytes.getD (start + index) 0 = padded.getD (place + index) 0) :
    Lanes (absorbBlock lanes bytes start) (Keccak.absorb state padded place) := by
  apply keccakPermute_lanes
  refine ⟨by rw [List.length_mapIdx, holds.length], ?_⟩
  intro x insideX y insideY
  have here := holds.lane_eq x insideX y insideY
  have inside : x + 5 * y < lanes.length := by
    rw [holds.length]
    exact place_lt insideX insideY
  have mapped : lane (lanes.mapIdx fun index value =>
      if index < 136 / 8 then value ^^^ loadLittleEndian bytes (start + index * 8) else value) (x + 5 * y) =
      if x + 5 * y < 136 / 8 then lane lanes (x + 5 * y) ^^^ loadLittleEndian bytes (start + (x + 5 * y) * 8)
      else lane lanes (x + 5 * y) := by
    simp [lane, inside]
  rw [mapped, here]
  by_cases absorbed : x + 5 * y < 17
  · have loaded : loadLittleEndian bytes (start + (x + 5 * y) * 8) =
        Keccak.laneOf padded (place + (x + 5 * y) * 8) := by
      rw [loadLittleEndian, Keccak.laneOf]
      apply List.foldl_ext
      intro value index member
      have inBlock : (x + 5 * y) * 8 + index < 136 := by
        rw [List.mem_range] at member
        omega
      rw [Nat.add_assoc, same _ inBlock, Nat.add_assoc]
    rw [if_pos absorbed, if_pos absorbed, loaded]
  · rw [if_neg absorbed, if_neg absorbed]

end

/-- The lanes of a digest. -/
theorem digest_lanes {lanes : List UInt64} {state : Keccak.State} (holds : Lanes lanes state) :
    ((List.range 4).flatMap fun index => storeLittleEndian (lane lanes index)) =
      (List.range 4).flatMap fun x => Keccak.laneBytes (state x 0) := by
  apply List.flatMap_congr
  intro x member
  rw [List.mem_range] at member
  have entry := holds.lane_eq x (by omega) 0 (by omega)
  rw [← entry]
  rfl

theorem zero_lanes : Lanes (List.replicate 25 0) (fun _ _ => 0) := by
  refine ⟨rfl, ?_⟩
  intro x insideX y insideY
  have inside := place_lt insideX insideY
  rw [lane, List.getD, List.getElem?_replicate, if_pos inside]
  rfl

/-- The last block of the host: what is left of the data, with the two padding bits. -/
theorem lastBlock_eq {rest : List UInt8} (short : rest.length < 136) {length : Nat} (left : length % 136 = rest.length) :
    ((((rest ++ List.replicate (136 - rest.length) 0).set rest.length
      ((rest ++ List.replicate (136 - rest.length) 0).getD rest.length 0 ^^^ 0x01)).set 135
      (((rest ++ List.replicate (136 - rest.length) 0).set rest.length
        ((rest ++ List.replicate (136 - rest.length) 0).getD rest.length 0 ^^^ 0x01)).getD 135 0 ^^^ 0x80))) =
      rest ++ Keccak.padding length := by
  obtain ⟨zeros, missing⟩ : ∃ zeros, 136 - rest.length = zeros + 1 := ⟨135 - rest.length, by omega⟩
  have marked : (rest ++ List.replicate (136 - rest.length) 0).set rest.length
      ((rest ++ List.replicate (136 - rest.length) 0).getD rest.length 0 ^^^ 0x01) =
      rest ++ 0x01 :: List.replicate zeros 0 := by
    rw [missing, List.replicate_succ, List.set_append_right _ _ le_rfl, Nat.sub_self, List.set_cons_zero]
    simp
  rw [marked, Keccak.padding, Keccak.rate, left, missing, List.set_append_right _ _ (by omega)]
  have offset : 135 - rest.length = zeros := by omega
  rw [offset, List.getD_append_right _ _ _ _ (by omega), offset]
  cases zeros with
  | zero => rfl
  | succ zeros =>
    have apart : ¬ zeros + 1 + 1 = 1 := by omega
    rw [if_neg apart, List.replicate_succ', List.set_cons_succ, List.set_append_right _ _ (by simp),
      List.getD_cons_succ, List.getD_append_right _ _ _ _ (by simp)]
    simp

/-- Whole blocks of the data, absorbed one after another. -/
theorem foldl_absorbBlock {data : List UInt8} (padding : List UInt8) {indices : List Nat}
    (inData : ∀ block ∈ indices, (block + 1) * 136 ≤ data.length) {lanes : List UInt64} {state : Keccak.State}
    (holds : Lanes lanes state) :
    Lanes (indices.foldl (fun state block => absorbBlock state data (block * 136)) lanes)
      (indices.foldl (fun state block => Keccak.absorb state (data ++ padding) (block * Keccak.rate)) state) := by
  induction indices generalizing lanes state with
  | nil => exact holds
  | cons block rest hypothesis =>
    have whole := inData block List.mem_cons_self
    apply hypothesis (fun other member => inData other (List.mem_cons_of_mem _ member))
    apply absorbBlock_lanes holds
    intro index inside
    rw [Keccak.rate, List.getD_append _ _ _ _ (by omega)]

/-- The host's digest is the sponge's. -/
theorem keccak256_eq (data : List UInt8) : keccak256 data = Keccak.digest data := by
  have split := Nat.div_add_mod' data.length 136
  have below := Nat.mod_lt data.length (by omega : 0 < 136)
  have left : (data.drop (data.length / 136 * 136)).length = data.length % 136 := by
    rw [List.length_drop]
    omega
  have blocks : (data ++ Keccak.padding data.length).length / Keccak.rate = data.length / 136 + 1 := by
    rw [List.length_append, Keccak.length_padding, Keccak.rate]
    omega
  have inData : ∀ block ∈ List.range (data.length / 136), (block + 1) * 136 ≤ data.length := by
    intro block member
    have upto : (block + 1) * 136 ≤ data.length / 136 * 136 := Nat.mul_le_mul_right _ (List.mem_range.mp member)
    omega
  have absorbed := foldl_absorbBlock (Keccak.padding data.length) inData zero_lanes
  have rest : (data ++ Keccak.padding data.length).drop (data.length / 136 * 136) =
      data.drop (data.length / 136 * 136) ++ Keccak.padding data.length := List.drop_append_of_le_length (by omega)
  simp only [keccak256, Keccak.digest, lastBlock_eq (left.trans_lt below) left.symm, blocks, List.range_succ,
    List.foldl_append, List.foldl_cons, List.foldl_nil]
  apply digest_lanes
  apply absorbBlock_lanes absorbed
  intro index inside
  rw [← rest, Nat.zero_add, List.getD, List.getD, List.getElem?_drop, Keccak.rate]

theorem loadLittleEndian_append_left {front : List UInt8} (back : List UInt8) {start : Nat}
    (inside : start + 8 ≤ front.length) : loadLittleEndian (front ++ back) start = loadLittleEndian front start := by
  apply List.foldl_ext
  intro value index member
  rw [List.mem_range] at member
  rw [List.getD_append _ _ _ _ (by omega)]

theorem loadLittleEndian_append_right (front back : List UInt8) (start : Nat) :
    loadLittleEndian (front ++ back) (front.length + start) = loadLittleEndian back start := by
  apply List.foldl_ext
  intro value index member
  rw [List.getD_append_right _ _ _ _ (by omega), Nat.add_assoc, Nat.add_sub_cancel_left]

theorem mapIdx_replicate (f : Nat → UInt64 → UInt64) (count : Nat) (value : UInt64) :
    (List.replicate count value).mapIdx f = (List.range count).map fun index => f index value := by
  apply List.ext_getElem
  · simp
  · intro index inside _
    simp

/-- The device's single block is the host's digest of sixty-four bytes. -/
theorem deviceKeccak25664_eq {publicKey : List UInt8} (size : publicKey.length = 64) :
    deviceKeccak25664 publicKey = keccak256 publicKey := by
  have short : publicKey.length < 136 := by omega
  have last := lastBlock_eq short (Nat.mod_eq_of_lt short)
  have lanes : (List.replicate 25 (0 : UInt64)).mapIdx (fun index value =>
        if index < 136 / 8 then value ^^^ loadLittleEndian (publicKey ++ Keccak.padding 64) (0 + index * 8)
        else value) =
      ((List.range 8).map fun index => loadLittleEndian publicKey (index * 8)) ++
        [1, 0, 0, 0, 0, 0, 0, 0, 0x8000000000000000] ++ List.replicate 8 0 := by
    have padded : ((List.range 17).map fun index => if 8 + index < 136 / 8 then
          0 ^^^ loadLittleEndian (publicKey ++ Keccak.padding 64) (0 + (8 + index) * 8) else 0) =
        (List.range 17).map fun index => if 8 + index < 136 / 8 then
          0 ^^^ loadLittleEndian (Keccak.padding 64) (index * 8) else 0 := by
      apply List.map_congr_left
      intro index _
      have place : 0 + (8 + index) * 8 = publicKey.length + index * 8 := by omega
      rw [place, loadLittleEndian_append_right]
    have absorbed : ((List.range 8).map fun index => if index < 136 / 8 then
          0 ^^^ loadLittleEndian (publicKey ++ Keccak.padding 64) (0 + index * 8) else 0) =
        (List.range 8).map fun index => loadLittleEndian publicKey (index * 8) := by
      apply List.map_congr_left
      intro index member
      rw [List.mem_range] at member
      rw [if_pos (by omega), loadLittleEndian_append_left _ (by omega), UInt64.zero_xor, Nat.zero_add]
    have values : ((List.range 17).map fun index => if 8 + index < 136 / 8 then
          0 ^^^ loadLittleEndian (Keccak.padding 64) (index * 8) else 0) =
        [1, 0, 0, 0, 0, 0, 0, 0, 0x8000000000000000] ++ List.replicate 8 0 := by decide
    have places : List.range 25 = List.range 8 ++ (List.range 17).map (8 + ·) := rfl
    rw [mapIdx_replicate, places, List.map_append, List.map_map]
    simp only [Function.comp_def]
    rw [absorbed, padded, values, List.append_assoc]
  have blocks : publicKey.length / 136 = 0 := Nat.div_eq_of_lt short
  rw [size] at last blocks
  simp only [keccak256, deviceKeccak25664, size, blocks, List.range_zero, List.foldl_nil, Nat.zero_mul,
    List.drop_zero, last, absorbBlock, lanes]

end TronForge.Native
