import Mathlib.Data.Finset.Card
import TronForge.Library.Coverage
import TronForge.Native.ChainReuse
import TronForge.Native.GenerateWallet

/-! The bands of the wallet command. A device stays in its band as long as the counter
of attempts does not overflow, so the searched offsets are apart and all of them counted. -/

namespace TronForge.Native

open Library

/-- The offsets of a request, from its start on. -/
def SearchRequest.offsets (request : SearchRequest) : List Nat :=
  match parseRangeStart request.rangeStart with
  | .ok first => List.range' first.toNat request.rangeCount
  | .error _ => []

/-- The offsets that were searched. -/
def Generation.offsets (generation : Generation) : List Nat :=
  generation.searched.flatMap fun entry => entry.2.offsets

/-- The offsets that a device searched, in their order. -/
def Generation.deviceOffsets (generation : Generation) (device : Nat) : List Nat :=
  (generation.searched.filter fun entry => decide (entry.1 = device)).flatMap fun entry => entry.2.offsets

/-- The text of the band start is that of a number. -/
theorem deviceBandStart_eq {device : Nat} (fits : device < 2 ^ 128) :
    deviceBandStart device = scalarHex (device * 2 ^ 128 + 1) := by
  have power : (2 : Nat) ^ 128 = 16 ^ 32 := by norm_num
  rw [power] at fits ⊢
  rw [deviceBandStart, ← List.map_append, Digits.fixed_append (by norm_num) fits (by norm_num), scalarHex_digits]

section Attempts
variable {session : Session} {request : SearchRequest} {fault : Option Fault} {result : SearchResult}

theorem searchResult_attempts {winningIndex : Nat} (returned : searchResult request winningIndex = .ok result) :
    result.attempts = request.rangeCount := by
  rw [searchResult] at returned
  split at returned
  · cases returned
    rfl
  · obtain ⟨winningOffset, -, returned⟩ := bind_eq_ok returned
    obtain ⟨verified, -, returned⟩ := bind_eq_ok returned
    split at returned
    · cases returned
    · cases returned
      rfl

theorem complete_attempts {prepared : Prepared}
    (returned : (session.complete request prepared fault).result = .ok result) :
    result.attempts = request.rangeCount := by
  rw [Session.complete] at returned
  split at returned
  · cases returned
  · simp only at returned
    split at returned
    · cases returned
    · split at returned
      · cases returned
      · exact searchResult_attempts returned

/-- A search that returned attempted the whole range. -/
theorem search_attempts (returned : (session.search request fault).result = .ok result) :
    result.attempts = request.rangeCount := by
  rw [Session.search] at returned
  split at returned
  · cases returned
  · split at returned
    · cases returned
    · exact complete_attempts returned

/-- The attempts of the results are added up, and the sum does not overflow. -/
theorem foldlM_accumulate {results : List SearchResult} {state final : Nat × SearchResult}
    (small : ∀ result ∈ results, result.attempts < 2 ^ 64) (bounded : state.1 < 2 ^ 64)
    (returned : results.foldlM accumulate state = .ok final) :
    final.1 = state.1 + (results.map SearchResult.attempts).sum ∧ final.1 < 2 ^ 64 := by
  induction results generalizing state with
  | nil =>
    cases returned
    exact ⟨rfl, bounded⟩
  | cons result rest hypothesis =>
    rw [List.foldlM_cons] at returned
    obtain ⟨next, first, returned⟩ := bind_eq_ok returned
    rw [accumulate] at first
    split at first
    · cases first
    · rename_i room
      cases first
      have one := small result List.mem_cons_self
      obtain ⟨total, below⟩ := hypothesis (fun other member => small other (List.mem_cons_of_mem _ member))
        (by omega) returned
      refine ⟨?_, below⟩
      rw [total, List.map_cons, List.sum_cons]
      simp only
      omega

/-- Results whose attempts fit are added up, and a winner is chosen if there is one. -/
theorem foldlM_fits {results : List SearchResult} {state : Nat × SearchResult}
    (fits : state.1 + (results.map SearchResult.attempts).sum < 2 ^ 64) :
    ∃ final, results.foldlM accumulate state = .ok final ∧
      (final.2.found = true ↔ state.2.found = true ∨ ∃ result ∈ results, result.found = true) := by
  induction results generalizing state with
  | nil => exact ⟨state, rfl, by simp⟩
  | cons result rest hypothesis =>
    rw [List.map_cons, List.sum_cons] at fits
    have room : ¬ 2 ^ 64 - 1 - result.attempts < state.1 := by omega
    obtain ⟨final, returned, chosen⟩ := @hypothesis (state.1 + result.attempts,
      if result.found && (!state.2.found || decide (result.offsetHex < state.2.offsetHex)) then result else state.2)
      (by simp only; omega)
    refine ⟨final, ?_, ?_⟩
    · rw [List.foldlM_cons, accumulate, if_neg room]
      exact returned
    · have here : (if result.found && (!state.2.found || decide (result.offsetHex < state.2.offsetHex)) then result
          else state.2).found = true ↔ state.2.found = true ∨ result.found = true := by
        cases own : result.found with
        | false => simp
        | true =>
          cases before : state.2.found with
          | false => simp [own]
          | true =>
            split
            · simp [own]
            · simp [before]
      rw [chosen, here, or_assoc, List.exists_mem_cons_iff]

end Attempts

namespace WalletCommand
variable (command : WalletCommand)

/-- The chunk of a device. -/
def chunk (device : Nat) : Nat := command.chunkCounts.getD device 0

/-- The offset at which a device starts its turn. -/
def turnStart (turn device : Nat) : Nat := device * 2 ^ 128 + 1 + turn * command.chunk device

def turnShard (turn device : Nat) : SearchRequest :=
  command.shard (scalarHex (command.turnStart turn device)) (command.chunk device)

/-- The devices are an `int`, and the chunks are short enough for a search. -/
structure Sized : Prop where
  devices : command.chunkCounts.length < 2 ^ 31
  chunks : ∀ count ∈ command.chunkCounts, count ≤ 2 ^ 26

theorem chunkCounts_eq : command.chunkCounts = (List.range command.chunkCounts.length).map command.chunk := by
  apply List.ext_getElem
  · simp
  · intro device inside _
    simp [chunk, inside]

variable {command}

theorem chunk_le_sum (device : Nat) : command.chunk device ≤ command.chunkCounts.sum := by
  rw [chunk, List.getD_eq_getElem?_getD]
  cases found : command.chunkCounts[device]? with
  | none => exact Nat.zero_le _
  | some count => exact List.le_sum_of_mem (List.mem_of_getElem? found)

end WalletCommand

/-- Every device searched its shards of so many turns. -/
structure Generation.Walked (command : WalletCommand) (turns : Nat) (generation : Generation) : Prop where
  searched : generation.searched = (List.range turns).flatMap fun turn =>
    (List.range command.chunkCounts.length).map fun device => (device, command.turnShard turn device)
  attempts : generation.totalAttempts = turns * command.chunkCounts.sum
  bounded : generation.totalAttempts < 2 ^ 64

/-- Every device is ready for its next turn. -/
structure Generation.Ahead (command : WalletCommand) (turns : Nat) (generation : Generation) : Prop
    extends generation.Walked command turns where
  sessions : generation.sessions.length = command.chunkCounts.length
  nextOffsets : generation.nextOffsets =
    (List.range command.chunkCounts.length).map fun device => scalarHex (command.turnStart turns device)

theorem zipIdx_map_range {Item : Type} (item : Nat → Item) (count : Nat) :
    ((List.range count).map item).zipIdx = (List.range count).map fun index => (item index, index) := by
  apply List.ext_getElem
  · simp
  · intro index inside _
    simp

section Turn
variable {command : WalletCommand} {turns : Nat} {generation : Generation}

/-- The counter bounds how far a device went into its band. -/
theorem Generation.Walked.depth (walked : generation.Walked command turns) (device : Nat) :
    turns * command.chunk device < 2 ^ 64 := by
  have bounded := walked.bounded
  rw [walked.attempts] at bounded
  exact (Nat.mul_le_mul_left turns (command.chunk_le_sum device)).trans_lt bounded

theorem Generation.Ahead.shards (ahead : generation.Ahead command turns) :
    List.zipWith command.shard generation.nextOffsets command.chunkCounts =
      (List.range command.chunkCounts.length).map (command.turnShard turns) := by
  rw [ahead.nextOffsets]
  conv_lhs => rw [command.chunkCounts_eq]
  simp only [List.length_map, List.length_range, List.zipWith_map, List.zipWith_self]
  rfl

/-- The searches of a turn attempt the chunks. -/
theorem Generation.Ahead.attempted (ahead : generation.Ahead command turns) {fault : Nat → Option Fault}
    {results : List SearchResult}
    (returned : ((((generation.sessions.zip ((List.range command.chunkCounts.length).map
      (command.turnShard turns))).zipIdx).map fun entry => entry.1.1.search entry.1.2 (fault entry.2)).mapM
        SearchRun.result) = .ok results) :
    results.map SearchResult.attempts = command.chunkCounts := by
  have each := List.forall₂_map_left_iff.mp (mapM_eq_ok returned)
  have attempts := each.imp fun entry result ran => search_attempts ran
  have same : results.map SearchResult.attempts = (((generation.sessions.zip ((List.range
      command.chunkCounts.length).map (command.turnShard turns))).zipIdx.map Prod.fst).map Prod.snd).map
        SearchRequest.rangeCount := by
    rw [List.map_map, List.map_map, ← List.forall₂_eq_eq_eq, List.forall₂_map_left_iff, List.forall₂_map_right_iff]
    exact attempts.flip
  have long : ((List.range command.chunkCounts.length).map (command.turnShard turns)).length ≤
      generation.sessions.length := by
    simp [ahead.sessions]
  rw [same, List.zipIdx_map_fst, List.map_snd_zip long, List.map_map]
  exact command.chunkCounts_eq.symm

/-- A device moves to the start of its next turn. -/
theorem advanceBand_scalarHex {device scalar count : Nat} {text : Text} (fits : scalar < 256 ^ 32)
    (advanced : advanceBand device (scalarHex scalar) count = .ok text) : text = scalarHex (scalar + count) := by
  obtain ⟨next, moved, advanced⟩ := bind_eq_ok advanced
  rw [addToOffset_eq (parseRangeStart_scalarHex fits)] at moved
  split at moved
  · cases moved
    split at advanced
    · cases advanced
    · cases advanced
      rfl
  · cases moved

/-- The bands and the chunks of the devices. -/
theorem Generation.Ahead.bands (ahead : generation.Ahead command turns) :
    (generation.nextOffsets.zip command.chunkCounts).zipIdx = (List.range command.chunkCounts.length).map fun device =>
      ((scalarHex (command.turnStart turns device), command.chunk device), device) := by
  rw [ahead.nextOffsets]
  conv_lhs => rw [command.chunkCounts_eq]
  rw [List.length_map, List.length_range, List.zip_map', zipIdx_map_range]

/-- The devices move on together. -/
theorem Generation.Ahead.advanced (ahead : generation.Ahead command turns) (sized : command.Sized)
    {texts : List Text}
    (returned : ((generation.nextOffsets.zip command.chunkCounts).zipIdx.mapM fun entry =>
      advanceBand entry.2 entry.1.1 entry.1.2) = .ok texts) :
    texts = (List.range command.chunkCounts.length).map fun device =>
      scalarHex (command.turnStart (turns + 1) device) := by
  rw [ahead.bands] at returned
  have each := List.forall₂_map_left_iff.mp (mapM_eq_ok returned)
  have moved : List.Forall₂ (fun device text => text = scalarHex (command.turnStart (turns + 1) device))
      (List.range command.chunkCounts.length) texts := by
    refine ((List.forall₂_and_left _ _).mpr ⟨fun device inside => List.mem_range.mp inside, each⟩).imp ?_
    rintro device text ⟨inside, one⟩
    have devices := sized.devices
    have depth := ahead.depth device
    have fits : command.turnStart turns device < 256 ^ 32 := by
      rw [WalletCommand.turnStart]
      norm_num at depth ⊢
      omega
    rw [advanceBand_scalarHex fits one, WalletCommand.turnStart, WalletCommand.turnStart, Nat.add_mul, Nat.one_mul,
      Nat.add_assoc]
  rw [← List.forall₂_eq_eq_eq, List.forall₂_map_right_iff]
  exact moved.flip

/-- One turn of the loop searches the next shard of every device. -/
theorem Generation.Ahead.turn (ahead : generation.Ahead command turns) (sized : command.Sized)
    {fault : Nat → Option Fault} {after : Generation} {wallet : Option Wallet}
    (returned : generation.turn command fault = .ok (after, wallet)) :
    after.Walked command (turns + 1) ∧ (wallet = none → after.Ahead command (turns + 1)) := by
  rw [Generation.turn, ahead.shards] at returned
  obtain ⟨results, ran, returned⟩ := bind_eq_ok returned
  obtain ⟨⟨totalAttempts, winner⟩, added, returned⟩ := bind_eq_ok returned
  have attempted := ahead.attempted ran
  have small : ∀ result ∈ results, result.attempts < 2 ^ 64 := by
    intro result member
    have chunk : result.attempts ∈ command.chunkCounts := by
      rw [← attempted]
      exact List.mem_map_of_mem member
    exact (sized.chunks _ chunk).trans_lt (by norm_num)
  obtain ⟨total, bounded⟩ := foldlM_accumulate small ahead.bounded added
  have walked (sessions : List Session) (nextOffsets : List Text) : (Generation.mk sessions nextOffsets totalAttempts
      (generation.searched ++ ((List.range command.chunkCounts.length).map (command.turnShard turns)).zipIdx.map
        fun entry => (entry.2, entry.1))).Walked command (turns + 1) := by
    constructor
    · rw [ahead.searched, zipIdx_map_range, List.map_map, List.range_succ, List.flatMap_append, List.flatMap_singleton]
      rfl
    · rw [Nat.add_mul, Nat.one_mul, ← ahead.attempts]
      simp only at total
      rw [total, attempted]
    · exact bounded
  simp only at returned
  split at returned
  · obtain ⟨found, -, returned⟩ := bind_eq_ok returned
    cases returned
    exact ⟨walked _ _, fun none => (by cases none)⟩
  · obtain ⟨texts, moved, returned⟩ := bind_eq_ok returned
    cases returned
    refine ⟨walked _ _, fun _ => ?_⟩
    exact ⟨walked _ _, by simp [ahead.sessions], ahead.advanced sized moved⟩

/-- The loop makes turns, all of them if it ends without a wallet. -/
theorem Generation.Ahead.loop (ahead : generation.Ahead command turns) (sized : command.Sized)
    {faults : List (Nat → Option Fault)} {final : Generation} {wallet : Option Wallet}
    (returned : generation.loop command faults = .ok (final, wallet)) :
    ∃ made ≤ faults.length, (wallet = none → made = faults.length) ∧ final.Walked command (turns + made) := by
  induction faults generalizing generation turns with
  | nil =>
    cases returned
    exact ⟨0, Nat.le_refl 0, fun _ => rfl, ahead.toWalked⟩
  | cons fault rest hypothesis =>
    rw [Generation.loop] at returned
    obtain ⟨⟨after, found⟩, ran, returned⟩ := bind_eq_ok returned
    obtain ⟨walked, further⟩ := ahead.turn sized ran
    cases found with
    | some recovered =>
      cases returned
      exact ⟨1, Nat.succ_le_succ (Nat.zero_le _), fun none_ => (by cases none_), walked⟩
    | none =>
      obtain ⟨made, most, whole, walked⟩ := hypothesis (further rfl) returned
      refine ⟨made + 1, Nat.succ_le_succ most, fun none_ => congrArg (· + 1) (whole none_), ?_⟩
      rw [Nat.add_right_comm, Nat.add_assoc] at walked
      exact walked

end Turn

section Walked
variable {command : WalletCommand} {turns : Nat} {generation : Generation}

/-- A shard has the offsets from its start on. -/
theorem WalletCommand.shard_offsets {start : Nat} (fits : start < 256 ^ 32) (count : Nat) :
    (command.shard (scalarHex start) count).offsets = List.range' start count := by
  have parsed := parseRangeStart_scalarHex fits
  simp only [SearchRequest.offsets, WalletCommand.shard, parsed, Int.toNat_natCast]

theorem WalletCommand.turnShard_offsets {turn device : Nat} (fits : command.turnStart turn device < 256 ^ 32) :
    (command.turnShard turn device).offsets = List.range' (command.turnStart turn device) (command.chunk device) :=
  WalletCommand.shard_offsets fits _

theorem Generation.Walked.fits (walked : generation.Walked command turns) (sized : command.Sized) {turn device : Nat}
    (made : turn < turns) (inside : device < command.chunkCounts.length) :
    command.turnStart turn device < 256 ^ 32 := by
  have devices := sized.devices
  have depth := walked.depth device
  have earlier := Nat.mul_le_mul_right (command.chunk device) made.le
  rw [WalletCommand.turnStart]
  norm_num at depth ⊢
  omega

/-- The chunks of a device follow one another. -/
theorem flatMap_range' (start count turns : Nat) :
    ((List.range turns).flatMap fun turn => List.range' (start + turn * count) count) =
      List.range' start (turns * count) := by
  induction turns with
  | zero => simp
  | succ turns hypothesis =>
    rw [List.range_succ, List.flatMap_append, hypothesis, List.flatMap_singleton, Nat.succ_mul, ← List.range'_append_1]

theorem Generation.Walked.deviceOffsets (walked : generation.Walked command turns) (sized : command.Sized)
    {device : Nat} (inside : device < command.chunkCounts.length) :
    generation.deviceOffsets device = List.range' (device * 2 ^ 128 + 1) (turns * command.chunk device) := by
  have own (turn : Nat) : (((List.range command.chunkCounts.length).map fun device =>
      (device, command.turnShard turn device)).filter fun entry => decide (entry.1 = device)) =
        [(device, command.turnShard turn device)] := by
    rw [List.filter_map]
    have only : (List.range command.chunkCounts.length).filter ((fun entry : Nat × SearchRequest =>
        decide (entry.1 = device)) ∘ fun device => (device, command.turnShard turn device)) = [device] := by
      rw [← List.replicate_one, ← List.count_eq_one_of_mem List.nodup_range (List.mem_range.mpr inside)]
      exact List.filter_eq device
    rw [only]
    rfl
  rw [Generation.deviceOffsets, walked.searched, List.filter_flatMap, List.flatMap_assoc, ← flatMap_range']
  apply List.flatMap_congr
  intro turn member
  rw [own, List.flatMap_singleton]
  exact WalletCommand.turnShard_offsets (walked.fits sized (List.mem_range.mp member) inside)

/-- Nothing was searched for a device that is not there. -/
theorem Generation.Walked.deviceOffsets_none (walked : generation.Walked command turns) {device : Nat}
    (outside : ¬ device < command.chunkCounts.length) : generation.deviceOffsets device = [] := by
  rw [Generation.deviceOffsets, walked.searched, List.flatMap_eq_nil_iff]
  intro entry member
  obtain ⟨searched, same⟩ := List.mem_filter.mp member
  obtain ⟨turn, -, made⟩ := List.mem_flatMap.mp searched
  obtain ⟨index, inside, rfl⟩ := List.mem_map.mp made
  obtain rfl : index = device := of_decide_eq_true same
  exact absurd (List.mem_range.mp inside) outside

/-- The turn and the device of an offset. -/
def WalletCommand.owner (command : WalletCommand) (offset : Nat) : Nat × Nat :=
  ((offset % 2 ^ 128 - 1) / command.chunk (offset / 2 ^ 128), offset / 2 ^ 128)

theorem Generation.Walked.owner (walked : generation.Walked command turns) {turn device offset : Nat}
    (made : turn < turns) (above : command.turnStart turn device ≤ offset)
    (below : offset < command.turnStart turn device + command.chunk device) :
    command.owner offset = (turn, device) := by
  have depth := walked.depth device
  have next : (turn + 1) * command.chunk device ≤ turns * command.chunk device := Nat.mul_le_mul_right _ made
  rw [WalletCommand.turnStart] at above below
  rw [Nat.add_mul, Nat.one_mul] at next
  have band : offset / 2 ^ 128 = device := by
    norm_num at above below depth ⊢
    omega
  have inner : offset % 2 ^ 128 - 1 = offset - (device * 2 ^ 128 + 1) := by
    norm_num at above below depth ⊢
    omega
  have quotient : (offset - (device * 2 ^ 128 + 1)) / command.chunk device = turn := by
    rw [Nat.div_eq_iff (by omega)]
    omega
  rw [WalletCommand.owner, band, inner, quotient]

/-- No offset was searched twice. -/
theorem Generation.Walked.nodup (walked : generation.Walked command turns) (sized : command.Sized) :
    generation.offsets.Nodup := by
  have pairs : generation.searched = ((List.range turns).product (List.range command.chunkCounts.length)).map
      fun worker => (worker.2, command.turnShard worker.1 worker.2) := by
    rw [walked.searched, List.product, List.map_flatMap]
    simp only [List.map_map]
    rfl
  rw [Generation.offsets, pairs, List.flatMap_map]
  apply nodup_flatMap_of_key command.owner (List.nodup_range.product List.nodup_range)
  · rintro ⟨turn, device⟩ member
    obtain ⟨made, inside⟩ := List.mem_product.mp member
    rw [WalletCommand.turnShard_offsets (walked.fits sized (List.mem_range.mp made) (List.mem_range.mp inside))]
    exact List.nodup_range'
  · rintro ⟨turn, device⟩ member offset has
    obtain ⟨made, inside⟩ := List.mem_product.mp member
    rw [WalletCommand.turnShard_offsets (walked.fits sized (List.mem_range.mp made) (List.mem_range.mp inside)),
      List.mem_range'_1] at has
    exact walked.owner (List.mem_range.mp made) has.1 has.2

/-- As many offsets were searched as the counter says. -/
theorem Generation.Walked.length (walked : generation.Walked command turns) (sized : command.Sized) :
    generation.offsets.length = generation.totalAttempts := by
  have turnLength (turn : Nat) (made : turn < turns) : (((List.range command.chunkCounts.length).map fun device =>
      (device, command.turnShard turn device)).flatMap fun entry => entry.2.offsets).length =
        command.chunkCounts.sum := by
    rw [List.flatMap_map, List.length_flatMap]
    conv_rhs => rw [command.chunkCounts_eq]
    congr 1
    apply List.map_congr_left
    intro device inside
    rw [WalletCommand.turnShard_offsets (walked.fits sized made (List.mem_range.mp inside)), List.length_range']
  rw [Generation.offsets, walked.searched, walked.attempts, List.flatMap_assoc, List.length_flatMap]
  have constant : (List.range turns).map (fun turn => (((List.range command.chunkCounts.length).map fun device =>
      (device, command.turnShard turn device)).flatMap fun entry => entry.2.offsets).length) =
        List.replicate turns command.chunkCounts.sum := by
    rw [List.eq_replicate_iff]
    refine ⟨by simp, ?_⟩
    intro length member
    obtain ⟨turn, made, rfl⟩ := List.mem_map.mp member
    exact turnLength turn (List.mem_range.mp made)
  rw [constant, List.sum_replicate, smul_eq_mul]

end Walked

/-- The loop starts with every device at the start of its band. -/
theorem generationStart_ahead {pattern afterT suffix basePrivateKey : Text} {perDeviceChunk : Nat}
    {devices : List (Session × Session)} {command : WalletCommand} {start : Generation}
    (started : generationStart pattern afterT suffix basePrivateKey perDeviceChunk devices = .ok (command, start))
    (fits : devices.length < 2 ^ 31) :
    start.Ahead command 0 ∧ command.Sized ∧ command.chunkCounts.length = devices.length := by
  rw [generationStart] at started
  split at started
  · cases started
  · split at started
    · cases started
    · rename_i chunk
      split at started
      · cases started
      · obtain ⟨basePublicKey, -, started⟩ := bind_eq_ok started
        cases started
        have long : ((devices.map fun device => chooseChunk perDeviceChunk device.1 device.2).map Prod.snd).length =
            devices.length := by
          rw [List.length_map, List.length_map]
        refine ⟨⟨⟨rfl, (Nat.zero_mul _).symm, by norm_num⟩, by simp, ?_⟩, ⟨long.trans_lt fits, ?_⟩, long⟩
        · simp only [long]
          apply List.map_congr_left
          intro device inside
          have below := (List.mem_range.mp inside).trans fits
          rw [deviceBandStart_eq (below.trans (by norm_num)), WalletCommand.turnStart, Nat.zero_mul, Nat.add_zero]
        · intro count member
          simp only [List.map_map, List.mem_map, Function.comp_apply] at member
          obtain ⟨device, -, rfl⟩ := member
          rw [chooseChunk]
          split
          · simp only
            omega
          · split
            · have shorter := Nat.sub_le perDeviceChunk (perDeviceChunk % device.1.configuration.chains)
              simp only
              omega
            · simp only
              omega

/-- The offsets of a band share its leading digits. -/
theorem take_scalarHex {device inner : Nat} (fits : device < 2 ^ 128) (inside : inner < 2 ^ 128) :
    (scalarHex (device * 2 ^ 128 + inner)).take 32 = (deviceBandStart device).take 32 := by
  have power : (2 : Nat) ^ 128 = 16 ^ 32 := by norm_num
  rw [power] at fits inside ⊢
  have digits := Digits.fixed_append (by norm_num : 0 < 16) fits inside
  rw [scalarHex_digits, ← digits, List.map_append, deviceBandStart, List.take_left' (by simp), List.take_left' (by simp)]

section Idle
variable {command : WalletCommand} {turns : Nat} {generation : Generation} {mode : SearchMode} {P : CurvePoint}

/-- A turn in which every device may launch its shard and finds nothing in it. -/
structure WalletCommand.Idle (command : WalletCommand) (P : CurvePoint) (turn : Nat) : Prop where
  launchable : ∀ device < command.chunkCounts.length,
    Launchable (command.turnShard turn device) P (command.turnStart turn device)
  misses : ∀ device < command.chunkCounts.length, ∀ index < command.chunk device,
    ¬ OffsetMatches P command.afterT command.suffix (command.turnStart turn device + index)

/-- A device that stays in its band moves on. -/
theorem advanceBand_inside {device inner count : Nat} (fits : device < 2 ^ 31) (positive : 0 < inner)
    (inside : inner + count < 2 ^ 128) :
    advanceBand device (scalarHex (device * 2 ^ 128 + inner)) count =
      .ok (scalarHex (device * 2 ^ 128 + (inner + count))) := by
  have below : device * 2 ^ 128 + inner + count < groupOrder := by
    norm_num [groupOrder] at fits inside ⊢
    omega
  have moved := addToOffset_scalarHex (by omega : 0 < device * 2 ^ 128 + inner + count) below
  have leading := take_scalarHex (fits.trans (by norm_num)) inside
  rw [Nat.add_assoc] at moved
  rw [advanceBand, moved, ok_bind]
  exact if_neg (not_not.mpr leading)

/-- The counter does not let a device leave its band. -/
theorem WalletCommand.turn_inside (room : (turns + 1) * command.chunkCounts.sum < 2 ^ 64) (device : Nat) :
    1 + turns * command.chunk device + command.chunk device < 2 ^ 128 := by
  have depth := (Nat.mul_le_mul_left (turns + 1) (command.chunk_le_sum device)).trans_lt room
  rw [Nat.add_mul, Nat.one_mul] at depth
  norm_num at depth ⊢
  omega

theorem Generation.Ahead.advances (ahead : generation.Ahead command turns) (sized : command.Sized)
    (room : (turns + 1) * command.chunkCounts.sum < 2 ^ 64) :
    ∃ texts, ((generation.nextOffsets.zip command.chunkCounts).zipIdx.mapM fun entry =>
      advanceBand entry.2 entry.1.1 entry.1.2) = .ok texts := by
  have each : ∀ entry ∈ (generation.nextOffsets.zip command.chunkCounts).zipIdx,
      ∃ text, advanceBand entry.2 entry.1.1 entry.1.2 = .ok text ∧ True := by
    intro entry member
    rw [ahead.bands] at member
    obtain ⟨device, inside, rfl⟩ := List.mem_map.mp member
    have moved := advanceBand_inside ((List.mem_range.mp inside).trans sized.devices) (by omega)
      (WalletCommand.turn_inside room device)
    rw [← Nat.add_assoc] at moved
    exact ⟨_, moved, trivial⟩
  obtain ⟨texts, returned, -⟩ := mapM_forall₂ each
  exact ⟨texts, returned⟩

/-- The searches of a turn that nothing ends return without a winner. -/
theorem WalletCommand.Sized.searches_idle (sized : command.Sized)
    (ready : ∀ session ∈ generation.sessions, Ready mode session) (chained : mode.isChained = true)
    (idle : command.Idle P turns)
    (room : (turns + 1) * command.chunkCounts.sum < 2 ^ 64) :
    ∃ results, ((((generation.sessions.zip ((List.range command.chunkCounts.length).map
      (command.turnShard turns))).zipIdx).map fun entry => entry.1.1.search entry.1.2 none).mapM
        SearchRun.result) = .ok results ∧ ∀ result ∈ results, result.found = false := by
  have each : ∀ run ∈ ((generation.sessions.zip ((List.range command.chunkCounts.length).map
      (command.turnShard turns))).zipIdx).map fun entry => entry.1.1.search entry.1.2 none,
      ∃ result, run.result = .ok result ∧ result.found = false := by
    intro run member
    obtain ⟨⟨⟨session, shard⟩, index⟩, paired, rfl⟩ := List.mem_map.mp member
    obtain ⟨present, made⟩ := List.of_mem_zip (List.fst_mem_of_mem_zipIdx paired)
    obtain ⟨device, inside, rfl⟩ := List.mem_map.mp made
    have launchable := idle.launchable device (List.mem_range.mp inside)
    have devices := (List.mem_range.mp inside).trans sized.devices
    have stays := WalletCommand.turn_inside room device
    have before : command.turnStart turns device + (command.turnShard turns device).rangeCount < groupOrder := by
      rw [WalletCommand.turnStart, show (command.turnShard turns device).rangeCount = command.chunk device from rfl]
      norm_num [groupOrder] at devices stays ⊢
      omega
    obtain ⟨result, returned, finds⟩ := (ready session present).search_launchable chained launchable before
    refine ⟨_, returned, ?_⟩
    cases finds with
    | winner inside_ hit least => exact absurd hit (idle.misses device (List.mem_range.mp inside) _ inside_)
    | nothing misses => rfl
  obtain ⟨results, returned, nothing⟩ := mapM_forall₂ each
  refine ⟨results, returned, ?_⟩
  intro result member
  obtain ⟨run, -, none_⟩ := (forall₂_covers nothing).2 result member
  exact none_

/-- A turn that nothing ends goes on to the next one. -/
theorem Generation.Ahead.turn_idle (ahead : generation.Ahead command turns) (sized : command.Sized)
    (ready : ∀ session ∈ generation.sessions, Ready mode session) (chained : mode.isChained = true)
    (idle : command.Idle P turns) (room : (turns + 1) * command.chunkCounts.sum < 2 ^ 64) :
    ∃ after, generation.turn command (fun _ => none) = .ok (after, none) ∧ after.Ahead command (turns + 1) ∧
      ∀ session ∈ after.sessions, Ready mode session := by
  obtain ⟨results, searched, nothing⟩ := sized.searches_idle ready chained idle room
  have fits : generation.totalAttempts + (results.map SearchResult.attempts).sum < 2 ^ 64 := by
    have attempted := @Generation.Ahead.attempted command turns generation ahead (fun _ => none) results searched
    rw [ahead.attempts, attempted, ← Nat.succ_mul]
    exact room
  obtain ⟨⟨totalAttempts, winner⟩, added, chosen⟩ := @foldlM_fits results
    (generation.totalAttempts, (⟨false, [], [], 0⟩ : SearchResult)) fits
  have none_ : winner.found = false := by
    rw [Bool.eq_false_iff, ne_eq, chosen]
    rintro (before | ⟨result, member, found⟩)
    · cases before
    · rw [nothing result member] at found
      cases found
  obtain ⟨texts, moved⟩ := ahead.advances sized room
  have turned : ∃ after, generation.turn command (fun _ => none) = .ok (after, none) ∧
      after.sessions = (((generation.sessions.zip ((List.range command.chunkCounts.length).map
        (command.turnShard turns))).zipIdx).map fun entry => entry.1.1.search entry.1.2 none).map SearchRun.session := by
    rw [Generation.turn, ahead.shards]
    simp only [searched, ok_bind, added, none_, Bool.false_eq_true, if_false, moved]
    exact ⟨_, rfl, rfl⟩
  obtain ⟨after, returned, sessions⟩ := turned
  refine ⟨after, returned, (ahead.turn sized returned).2 rfl, ?_⟩
  rw [sessions]
  intro session member
  obtain ⟨run, ran, rfl⟩ := List.mem_map.mp member
  obtain ⟨⟨⟨before, shard⟩, index⟩, paired, rfl⟩ := List.mem_map.mp ran
  have present := (List.of_mem_zip (List.fst_mem_of_mem_zipIdx paired)).1
  exact ((ready before present).search chained shard none).1

/-- Turns that nothing ends are all made. -/
theorem Generation.Ahead.loop_idle {count : Nat} (ahead : generation.Ahead command turns) (sized : command.Sized)
    (ready : ∀ session ∈ generation.sessions, Ready mode session) (chained : mode.isChained = true)
    (idle : ∀ turn < turns + count, command.Idle P turn) (room : (turns + count) * command.chunkCounts.sum < 2 ^ 64) :
    ∃ final, generation.loop command (List.replicate count fun _ => none) = .ok (final, none) := by
  induction count generalizing generation turns with
  | zero => exact ⟨generation, rfl⟩
  | succ count hypothesis =>
    have next : turns + (count + 1) = turns + 1 + count := by omega
    rw [next] at idle room
    have sooner := (Nat.mul_le_mul_right command.chunkCounts.sum (Nat.le_add_right (turns + 1) count)).trans_lt room
    obtain ⟨after, turned, further, still⟩ := ahead.turn_idle sized ready chained (idle turns (by omega)) sooner
    obtain ⟨final, returned⟩ := hypothesis further still idle room
    refine ⟨final, ?_⟩
    rw [List.replicate_succ, Generation.loop, turned]
    exact returned

end Idle

section Unmatched
variable {address : Text} {code : Nat}

/-- A digit from 1 to 9 of a number. -/
def digitAt (code index : Nat) : Char := Nat.digitChar (code / 9 ^ index % 9 + 1)

/-- A digit has no other case. -/
theorem looseEqual_digitAt {character : Char} {index : Nat} (equal : looseEqual character (digitAt code index) = true) :
    character.toNat - 49 = code / 9 ^ index % 9 := by
  have plain : ∀ digit < 9, (Nat.digitChar (digit + 1)).isAlpha = false ∧
      (Nat.digitChar (digit + 1)).toNat - 49 = digit := by decide
  obtain ⟨letter, number⟩ := plain _ (Nat.mod_lt (code / 9 ^ index) (by norm_num))
  rw [looseEqual, digitAt, letter, Bool.and_false, Bool.false_and, Bool.or_false, beq_iff_eq] at equal
  rw [equal, number]

/-- The number whose digits stand where a pattern of four and three would have them. -/
def codeOf (address : Text) : Nat :=
  let digit (index : Nat) : Nat := (charAt address index).toNat - 49
  digit 2 + 9 * (digit 3 + 9 * (digit 30 + 9 * (digit 31 + 9 * (digit 32 + 9 * digit 33))))

theorem codeOf_eq (fits : code < 9 ^ 6)
    (matched : matchesPattern address ['A', digitAt code 0, digitAt code 1]
      [digitAt code 2, digitAt code 3, digitAt code 4, digitAt code 5] = true) : codeOf address = code := by
  simp only [matchesPattern, Bool.and_eq_true, decide_eq_true_eq, List.all_eq_true, List.mem_range, List.length_cons,
    List.length_nil] at matched
  obtain ⟨⟨⟨length, -⟩, front⟩, back⟩ := matched
  rw [length] at back
  have second := looseEqual_digitAt (front 1 (by norm_num))
  have third := looseEqual_digitAt (front 2 (by norm_num))
  have last0 := looseEqual_digitAt (back 0 (by norm_num))
  have last1 := looseEqual_digitAt (back 1 (by norm_num))
  have last2 := looseEqual_digitAt (back 2 (by norm_num))
  have last3 := looseEqual_digitAt (back 3 (by norm_num))
  norm_num at second third last0 last1 last2 last3 fits
  unfold codeOf
  simp only
  omega

/-- Few addresses leave a request that none of them matches. -/
theorem exists_unmatched (addresses : List Text) (few : addresses.length < 9 ^ 6) : ∃ afterT suffix,
    validatePattern "3x4".toList afterT suffix = .ok () ∧
    ∀ address ∈ addresses, matchesPattern address afterT suffix = false := by
  have short : (addresses.map codeOf).toFinset.card < (Finset.range (9 ^ 6)).card := by
    refine (List.toFinset_card_le _).trans_lt ?_
    rw [List.length_map, Finset.card_range]
    exact few
  obtain ⟨code, inside, free⟩ := Finset.exists_mem_notMem_of_card_lt_card short
  refine ⟨['A', digitAt code 0, digitAt code 1],
    [digitAt code 2, digitAt code 3, digitAt code 4, digitAt code 5], ?_, ?_⟩
  · have known : ∀ digit < 9, Nat.digitChar (digit + 1) ∈ base58Alphabet := by decide
    have digits (index : Nat) : digitAt code index ∈ base58Alphabet := known _ (Nat.mod_lt _ (by norm_num))
    have characters : ¬ ∃ character ∈ ['A', digitAt code 0, digitAt code 1] ++
        [digitAt code 2, digitAt code 3, digitAt code 4, digitAt code 5], character ∉ base58Alphabet := by
      rintro ⟨character, member, unknown⟩
      simp only [List.cons_append, List.nil_append, List.mem_cons, List.not_mem_nil, or_false] at member
      rcases member with rfl | rfl | rfl | rfl | rfl | rfl | rfl
      · exact unknown (by decide)
      all_goals exact unknown (digits _)
    have lengths : patternLengths.lookup "3x4".toList = some (3, 4) := rfl
    have first : charAt ['A', digitAt code 0, digitAt code 1] 0 ∈ allowedFirstCustom :=
      (by decide : 'A' ∈ allowedFirstCustom)
    simp only [validatePattern, lengths, if_neg characters, if_neg (not_not.mpr first)]
    exact if_neg (by simp)
  · intro address member
    rw [Bool.eq_false_iff]
    intro matched
    apply free
    rw [← codeOf_eq (Finset.mem_range.mp inside) matched]
    exact List.mem_toFinset.mpr (List.mem_map_of_mem member)

end Unmatched

/-- The shard of a turn that lies below the order may be launched. -/
theorem WalletCommand.turnShard_launchable {command : WalletCommand} {turn device : Nat} {P : CurvePoint}
    (valid : validatePattern command.pattern command.afterT command.suffix = .ok ())
    (key : publicPoint command.basePublicKey = .ok P) (count : 0 < command.chunk device)
    (limit : command.chunk device ≤ 2 ^ 26) (below : command.turnStart turn device + command.chunk device < groupOrder)
    (finite : P + command.turnStart turn device • generator ≠ 0) :
    Launchable (command.turnShard turn device) P (command.turnStart turn device) where
  pattern := valid
  key := key
  parsed := parseRangeStart_scalarHex (by
    have order := groupOrder_lt
    omega)
  count := count
  positive := Nat.add_pos_left (Nat.succ_pos _) _
  last := by
    simp only [turnShard, shard]
    omega
  limit := limit
  finite := finite

/-- The command for devices that all take the same chunk. -/
def alikeCommand (pattern afterT suffix : Text) (base count devices : Nat) : WalletCommand :=
  ⟨pattern, afterT, suffix, scalarHex base, bytesToHex (compressedBytes (base • generator)), List.replicate devices count⟩

section Alike
variable {pattern afterT suffix : Text} {session : Session} {base count devices : Nat}

theorem generationStart_alike (valid : validatePattern pattern afterT suffix = .ok ())
    (chosen : chooseChunk count session session = (session, count)) (positive : 0 < count) (limit : count ≤ 2 ^ 26)
    (some_ : 0 < devices) (basePositive : 0 < base) (below : base < groupOrder) :
    generationStart pattern afterT suffix (scalarHex base) count (List.replicate devices (session, session)) =
      .ok (alikeCommand pattern afterT suffix base count devices,
        ⟨List.replicate devices session, (List.range devices).map deviceBandStart, 0, []⟩) := by
  have compressed := compressedPublicKey_scalarHex basePositive below (rfl : base • generator = base • generator)
  have sized : ¬ (count = 0 ∨ 2 ^ 26 < count) := by omega
  have present : List.replicate devices (session, session) ≠ [] := by simp [some_.ne']
  simp only [generationStart, valid, if_neg sized, if_neg present, compressed, ok_bind, List.map_replicate, chosen,
    List.length_replicate]
  rfl

theorem alikeCommand_chunk {device : Nat} (inside : device < devices) :
    (alikeCommand pattern afterT suffix base count devices).chunk device = count := by
  simp [alikeCommand, WalletCommand.chunk, inside]

/-- A turn of such devices whose addresses do not match ends nothing. -/
theorem alikeCommand_idle {turn : Nat} (valid : validatePattern pattern afterT suffix = .ok ()) (positive : 0 < count)
    (limit : count ≤ 2 ^ 26) (basePositive : 0 < base) (few : devices ≤ 2 ^ 31)
    (room : base + (turn + 1) * count < 2 ^ 64)
    (misses : ∀ device < devices, ∀ index < count, matchesPattern
      (pointAddress (base • generator + (device * 2 ^ 128 + 1 + turn * count + index) • generator)) afterT suffix = false) :
    (alikeCommand pattern afterT suffix base count devices).Idle (base • generator) turn := by
  have length : (alikeCommand pattern afterT suffix base count devices).chunkCounts.length = devices :=
    List.length_replicate
  have starts (device : Nat) (inside : device < devices) :
      (alikeCommand pattern afterT suffix base count devices).turnStart turn device =
        device * 2 ^ 128 + 1 + turn * count := by
    rw [WalletCommand.turnStart, alikeCommand_chunk inside]
  rw [Nat.add_mul, Nat.one_mul] at room
  constructor
  · intro device member
    have inside : device < devices := member.trans_eq length
    have below : base + (device * 2 ^ 128 + 1 + turn * count) + count < groupOrder := by
      norm_num [groupOrder] at few room ⊢
      omega
    have chunk := @alikeCommand_chunk pattern afterT suffix base count devices device inside
    apply WalletCommand.turnShard_launchable valid
    · exact publicPoint_compressed (nsmul_generator_ne_zero basePositive (by omega))
    · rw [chunk]
      exact positive
    · rw [chunk]
      exact limit
    · rw [chunk, starts device inside]
      omega
    · rw [starts device inside, ← add_nsmul]
      exact nsmul_generator_ne_zero (by omega) (by omega)
  · intro device member index short hit
    have inside : device < devices := member.trans_eq length
    rw [alikeCommand_chunk inside] at short
    have matched := hit.2
    rw [starts device inside, show (alikeCommand pattern afterT suffix base count devices).afterT = afterT from rfl,
      show (alikeCommand pattern afterT suffix base count devices).suffix = suffix from rfl,
      misses device inside index short] at matched
    cases matched

end Alike

/-- A session of a small device, whose chains divide a short chunk. -/
theorem small_session : ∃ session, Session.create .chained16 smallDevice (fun _ => default) = .ok session ∧
    Ready .chained16 session ∧ chooseChunk 16384 session session = (session, 16384) := by
  obtain ⟨session, created⟩ := create_chained (rfl : SearchMode.chained16.isChained = true) smallDevice fun _ => default
  have tuned : tuneLaunchConfiguration .chained16 smallDevice = .ok ⟨.chained16, 64, 4, 16, 4096⟩ := rfl
  have chains : session.configuration.chains = 4096 := by
    rw [Except.ok.inj ((create_configuration created).symm.trans tuned)]
  refine ⟨session, created, (create_fresh created).ready rfl, ?_⟩
  simp only [chooseChunk, chains]
  rfl

/-- After any number of turns that did not throw, all devices have made the same number of
them, the chunks of every device follow one another from the start of its band and stay in it,
no offset was searched twice, and the counter is the number of the searched offsets. -/
theorem bands_searched_once {pattern afterT suffix basePrivateKey : Text} {perDeviceChunk : Nat}
    {devices : List (Session × Session)} {command : WalletCommand} {start final : Generation}
    (started : generationStart pattern afterT suffix basePrivateKey perDeviceChunk devices = .ok (command, start))
    (fits : devices.length < 2 ^ 31) {faults : List (Nat → Option Fault)} {wallet : Option Wallet}
    (returned : start.loop command faults = .ok (final, wallet)) :
    (∃ turns ≤ faults.length, (wallet = none → turns = faults.length) ∧
      final.totalAttempts = turns * command.chunkCounts.sum ∧
      ∀ device < devices.length, final.deviceOffsets device =
        List.range' (device * 2 ^ 128 + 1) (turns * command.chunkCounts.getD device 0)) ∧
    (∀ device, ∀ offset ∈ final.deviceOffsets device, device * 2 ^ 128 ≤ offset ∧ offset < (device + 1) * 2 ^ 128) ∧
    final.offsets.Nodup ∧
    final.totalAttempts = final.offsets.toFinset.card := by
  obtain ⟨ahead, sized, long⟩ := generationStart_ahead started fits
  obtain ⟨turns, most, whole, walked⟩ := ahead.loop sized returned
  rw [Nat.zero_add] at walked
  have once := walked.nodup sized
  refine ⟨⟨turns, most, whole, walked.attempts, ?_⟩, ?_, once, ?_⟩
  · intro device inside
    rw [← long] at inside
    exact walked.deviceOffsets sized inside
  · intro device offset member
    by_cases inside : device < command.chunkCounts.length
    · rw [walked.deviceOffsets sized inside, List.mem_range'_1] at member
      have depth := walked.depth device
      norm_num at member depth ⊢
      omega
    · rw [walked.deviceOffsets_none inside] at member
      cases member
  · rw [List.toFinset_card_of_nodup once, walked.length sized]

/-- Two turns of two devices, whose chains divide their chunks and which find nothing. -/
theorem bands_searched_once_twice : ∃ session command start final afterT suffix,
    Session.create .chained16 smallDevice (fun _ => default) = .ok session ∧
    generationStart "3x4".toList afterT suffix (scalarHex 1) 16384 [(session, session), (session, session)] =
      .ok (command, start) ∧
    start.loop command [fun _ => none, fun _ => none] = .ok (final, none) ∧
    final.deviceOffsets 0 = List.range' 1 32768 ∧ final.deviceOffsets 1 = List.range' (2 ^ 128 + 1) 32768 ∧
    final.offsets.Nodup ∧ final.offsets.toFinset.card = 65536 ∧ final.totalAttempts = 65536 := by
  obtain ⟨session, created, ready, chosen⟩ := small_session
  have one : 1 < groupOrder := by norm_num [groupOrder]
  obtain ⟨afterT, suffix, valid, free⟩ := exists_unmatched ((List.range' 1 32768 ++ List.range' (2 ^ 128 + 1) 32768).map
    fun offset => pointAddress (1 • generator + offset • generator)) (by simp)
  have started := @generationStart_alike "3x4".toList afterT suffix session 1 16384 2 valid chosen (by norm_num)
    (by norm_num) (by norm_num) Nat.one_pos one
  obtain ⟨ahead, sized, -⟩ := generationStart_ahead started (by norm_num)
  have idle : ∀ turn < 0 + 2, (alikeCommand "3x4".toList afterT suffix 1 16384 2).Idle (1 • generator) turn := by
    intro turn early
    apply alikeCommand_idle valid (by norm_num) (by norm_num) Nat.one_pos (by norm_num) (by omega)
    intro device inside index short
    have searched : device * 2 ^ 128 + 1 + turn * 16384 + index ∈
        List.range' 1 32768 ++ List.range' (2 ^ 128 + 1) 32768 := by
      rw [List.mem_append, List.mem_range'_1, List.mem_range'_1]
      omega
    exact free _ (List.mem_map_of_mem searched)
  have ready_ : ∀ member ∈ List.replicate 2 session, Ready .chained16 member := by
    intro member inside
    rw [List.eq_of_mem_replicate inside]
    exact ready
  obtain ⟨final, returned⟩ := ahead.loop_idle sized ready_ rfl idle (by norm_num [alikeCommand])
  obtain ⟨⟨turns, -, made, attempts, contiguous⟩, -, once, counted⟩ := bands_searched_once started (by norm_num) returned
  obtain rfl : turns = 2 := made rfl
  have first := contiguous 0 (by norm_num)
  have second := contiguous 1 (by norm_num)
  rw [attempts] at counted
  rw [Nat.zero_mul, Nat.zero_add] at first
  rw [Nat.one_mul] at second
  exact ⟨session, _, _, final, afterT, suffix, created, started, returned, first, second, once, counted.symm, attempts⟩

end TronForge.Native
