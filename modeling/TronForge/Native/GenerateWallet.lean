import TronForge.Native.Session

/-! The wallet command: every device walks a band of offsets of its own, chunk after
chunk, until one of them has a winner. -/

namespace TronForge.Native

open Library

/-- `add_private_key_offset`. -/
def addPrivateKeyOffset (privateKeyHex offset : Text) : Except HostError Text := do
  let base ← privateScalar privateKeyHex
  let increment ← parseRangeStart offset
  if increment ≤ 0 ∨ (groupOrder : Int) ≤ increment then throw .offsetRange
  let result := (base + increment.toNat) % groupOrder
  if result = 0 then throw .recovery
  scalarToHex result

/-- `derive_tron_address`. -/
def deriveTronAddress (privateKeyHex : Text) : Except HostError Text := do
  let scalar ← privateScalar privateKeyHex
  match pointToAddress (pointBytes (scalar • generator)) with
  | .error error => throw (.address error)
  | .ok address => return address

/-- `device_band_start`: the device, an `int`, and one, in thirty-two digits each. -/
def deviceBandStart (device : Nat) : Text :=
  (Digits.fixed 16 32 device).map hexCharacter ++ (Digits.fixed 16 32 1).map hexCharacter

/-- What the command was given, its base key, and the chunk of every device. -/
structure WalletCommand where
  pattern : Text
  afterT : Text
  suffix : Text
  basePrivateKey : Text
  basePublicKey : Text
  chunkCounts : List Nat

/-- The state of the loop, with the shards that were searched. -/
structure Generation where
  sessions : List Session
  nextOffsets : List Text
  totalAttempts : Nat := 0
  searched : List (Nat × SearchRequest) := []

/-- The contents of the wallet file. -/
structure Wallet where
  address : Text
  publicKey : Text
  privateKey : Text
  deriving DecidableEq, Repr

/-- The session and the chunk of a device: batches where the chunk is short for its
chains, else a chunk that the chains divide. -/
def chooseChunk (perDeviceChunk : Nat) (chained batched : Session) : Session × Nat :=
  let chains := chained.configuration.chains
  if chains > 0 ∧ perDeviceChunk < wrap (chains * 4) then (batched, perDeviceChunk)
  else if chains > 0 then (chained, perDeviceChunk - perDeviceChunk % chains)
  else (chained, perDeviceChunk)

/-- `generate-wallet` up to its loop, given the sessions that the constructors make for
every device in the two modes, and the random base key. -/
def generationStart (pattern afterT suffix basePrivateKey : Text) (perDeviceChunk : Nat)
    (devices : List (Session × Session)) : Except HostError (WalletCommand × Generation) :=
  match validatePattern pattern afterT suffix with
  | .error error => throw (.pattern error)
  | .ok () =>
    if perDeviceChunk = 0 ∨ 2 ^ 26 < perDeviceChunk then throw .chunkCount
    else if devices = [] then throw .noGeneration
    else do
      let chosen := devices.map fun device => chooseChunk perDeviceChunk device.1 device.2
      let basePublicKey ← compressedPublicKey basePrivateKey
      return (⟨pattern, afterT, suffix, basePrivateKey, basePublicKey, chosen.map Prod.snd⟩,
        { sessions := chosen.map Prod.fst, nextOffsets := (List.range devices.length).map deviceBandStart })

/-- The shard of a device. -/
def WalletCommand.shard (command : WalletCommand) (nextOffset : Text) (chunkCount : Nat) : SearchRequest :=
  ⟨command.basePublicKey, command.pattern, command.afterT, command.suffix, nextOffset, chunkCount⟩

/-- The attempts so far and the winner so far, with one more result. -/
def accumulate (state : Nat × SearchResult) (result : SearchResult) : Except HostError (Nat × SearchResult) :=
  if 2 ^ 64 - 1 - result.attempts < state.1 then throw .attemptsOverflow
  else
    return (state.1 + result.attempts,
      if result.found && (!state.2.found || decide (result.offsetHex < state.2.offsetHex)) then result else state.2)

/-- The next offset of a device, in its band. -/
def advanceBand (device : Nat) (nextOffset : Text) (chunkCount : Nat) : Except HostError Text := do
  let nextOffset ← addToOffset nextOffset chunkCount
  if nextOffset.take 32 ≠ (deviceBandStart device).take 32 then throw .bandExhausted
  return nextOffset

/-- The wallet of a winner, which must have its address. -/
def recoverWallet (command : WalletCommand) (winner : SearchResult) : Except HostError Wallet := do
  let finalPrivateKey ← addPrivateKeyOffset command.basePrivateKey winner.offsetHex
  let verifiedAddress ← deriveTronAddress finalPrivateKey
  if verifiedAddress ≠ winner.address then throw .recoveredMismatch
  let finalPublicKey ← compressedPublicKey finalPrivateKey
  return ⟨verifiedAddress, finalPublicKey, finalPrivateKey⟩

/-- One turn of the loop, where the search of a device may meet a failure. -/
def Generation.turn (command : WalletCommand) (generation : Generation) (fault : Nat → Option Fault) :
    Except HostError (Generation × Option Wallet) := do
  let shards := List.zipWith command.shard generation.nextOffsets command.chunkCounts
  let runs := (generation.sessions.zip shards).zipIdx.map fun entry =>
    entry.1.1.search entry.1.2 (fault entry.2)
  let results ← runs.mapM SearchRun.result
  let (totalAttempts, winner) ← results.foldlM accumulate (generation.totalAttempts, ⟨false, [], [], 0⟩)
  let generation := { generation with
    sessions := runs.map SearchRun.session
    totalAttempts := totalAttempts
    searched := generation.searched ++ shards.zipIdx.map fun entry => (entry.2, entry.1) }
  if winner.found then
    let wallet ← recoverWallet command winner
    return (generation, some wallet)
  else
    let nextOffsets ← (generation.nextOffsets.zip command.chunkCounts).zipIdx.mapM fun entry =>
      advanceBand entry.2 entry.1.1 entry.1.2
    return ({ generation with nextOffsets := nextOffsets }, none)

/-- The loop for at most so many turns; it ends with the first winner. -/
def Generation.loop (command : WalletCommand) : Generation → List (Nat → Option Fault) →
    Except HostError (Generation × Option Wallet)
  | generation, [] => return (generation, none)
  | generation, fault :: rest => do
    let (generation, wallet) ← generation.turn command fault
    match wallet with
    | some wallet => return (generation, some wallet)
    | none => generation.loop command rest

section Recovery
variable {base offset : Nat}

/-- The base key and an offset that does not cancel it make a private key. -/
theorem addPrivateKeyOffset_scalarHex (positive : 0 < base) (below : base < groupOrder) (offsetPositive : 0 < offset)
    (offsetBelow : offset < groupOrder) (finite : (base + offset) % groupOrder ≠ 0) :
    addPrivateKeyOffset (scalarHex base) (scalarHex offset) = .ok (scalarHex ((base + offset) % groupOrder)) := by
  have parsed := parseRangeStart_scalarHex (offsetBelow.trans groupOrder_lt)
  have inside : ¬ ((offset : Int) ≤ 0 ∨ (groupOrder : Int) ≤ offset) := by omega
  have reduced := Nat.mod_lt (base + offset) (Nat.zero_lt_of_lt below)
  rw [addPrivateKeyOffset, privateScalar_scalarHex positive below, parsed]
  simp only [bind, Except.bind, if_neg inside, Int.toNat_natCast, if_neg finite]
  exact scalarToHex_below reduced

theorem deriveTronAddress_scalarHex (positive : 0 < base) (below : base < groupOrder) {P : CurvePoint}
    (same : base • generator = P) (finite : P ≠ 0) :
    deriveTronAddress (scalarHex base) = .ok (pointAddress P) := by
  rw [deriveTronAddress, privateScalar_scalarHex positive below]
  simp only [bind, Except.bind, same, pointToAddress_pointBytes finite]
  rfl

/-- The wallet of a winner of the base key has its address. -/
theorem recoverWallet_ok {command : WalletCommand} {winner : SearchResult} (key : command.basePrivateKey = scalarHex base)
    (positive : 0 < base) (below : base < groupOrder) (offsetPositive : 0 < offset) (offsetBelow : offset < groupOrder)
    (text : winner.offsetHex = scalarHex offset) (finite : base • generator + offset • generator ≠ 0)
    (address : winner.address = pointAddress (base • generator + offset • generator)) :
    ∃ wallet, recoverWallet command winner = .ok wallet ∧ wallet.address = winner.address ∧
      wallet.privateKey = scalarHex ((base + offset) % groupOrder) := by
  have sum : ((base + offset) % groupOrder) • generator = base • generator + offset • generator := by
    rw [← addOrderOf_generator, mod_addOrderOf_nsmul, add_nsmul]
  have nonzero : (base + offset) % groupOrder ≠ 0 := by
    intro zero
    rw [zero, zero_nsmul] at sum
    exact finite sum.symm
  have reduced := Nat.mod_lt (base + offset) (Nat.zero_lt_of_lt below)
  have added := addPrivateKeyOffset_scalarHex positive below offsetPositive offsetBelow nonzero
  generalize base • generator + offset • generator = P at sum finite address
  have derived := deriveTronAddress_scalarHex (Nat.pos_of_ne_zero nonzero) reduced sum finite
  have compressed := compressedPublicKey_scalarHex (Nat.pos_of_ne_zero nonzero) reduced sum
  have accepted : ¬ pointAddress P ≠ winner.address := not_not.mpr address.symm
  refine ⟨⟨pointAddress P, bytesToHex (compressedBytes P), scalarHex ((base + offset) % groupOrder)⟩, ?_,
    address.symm, rfl⟩
  rw [recoverWallet, key, text, added]
  simp only [bind, Except.bind, derived, if_neg accepted, compressed]
  rfl

end Recovery

end TronForge.Native
