import TronForge.Native.OffsetBands
import TronForge.Native.SessionResults
import TronForge.Service.Winners

/-! The wallets that `generate-wallet` writes: the private key of a file opens its
address, and no winner of a device is lost on the way to its file. -/

namespace TronForge.Native

open Library
open Service (searchCpu_found one_lt_groupOrder double_finite)

variable {base : Nat} {afterT suffix : Text} {result : SearchResult}

/-- A winner for the point of a base key. -/
structure Winner (base : Nat) (afterT suffix : Text) (offset : Nat) (result : SearchResult) : Prop where
  positive : 0 < offset
  below : offset < groupOrder
  hit : OffsetMatches (base • generator) afterT suffix offset
  address : result.address = pointAddress (base • generator + offset • generator)
  text : result.offsetHex = scalarHex offset

/-- A result is a winner or says that there is none. -/
def Genuine (base : Nat) (afterT suffix : Text) (result : SearchResult) : Prop :=
  result.found = true → ∃ offset, Winner base afterT suffix offset result

/-- The verification by the processor lets only winners through. -/
theorem searchResult_genuine {request : SearchRequest} {winningIndex : Nat} (finite : base • generator ≠ 0)
    (key : request.publicKeyHex = bytesToHex (compressedBytes (base • generator)))
    (returned : searchResult request winningIndex = .ok result) :
    Genuine base request.afterT request.suffix result := by
  intro found
  unfold searchResult at returned
  split at returned
  · cases returned
    cases found
  · obtain ⟨winningOffset, -, returned⟩ := bind_eq_ok returned
    obtain ⟨⟨flag, address, offset, attempts⟩, searched, returned⟩ := bind_eq_ok returned
    cases flag with
    | false => cases returned
    | true =>
      simp only [Bool.not_true, Bool.false_or] at returned
      split at returned
      · cases returned
      · rename_i same
        cases returned
        have texts : offset = winningOffset := by simpa using same
        obtain ⟨P, start, index, searchable, inside, hit, atAddress, atOffset⟩ := searchCpu_found searched
        have known : publicPoint request.publicKeyHex = .ok (base • generator) := by
          rw [key]
          exact publicPoint_compressed finite
        obtain rfl : P = base • generator := Except.ok.inj (searchable.key.symm.trans known)
        have positive := searchable.positive
        have last := searchable.last
        simp only at last inside
        exact ⟨start + index, by omega, by omega, hit, atAddress, texts.symm.trans atOffset⟩

/-- Whatever the session went through before, its search returns winners only. -/
theorem search_genuine {session : Session} {request : SearchRequest} {fault : Option Fault}
    (finite : base • generator ≠ 0)
    (key : request.publicKeyHex = bytesToHex (compressedBytes (base • generator)))
    (returned : (session.search request fault).result = .ok result) :
    Genuine base request.afterT request.suffix result := by
  obtain ⟨after, prepared, -, outcome⟩ := search_result returned
  exact searchResult_genuine finite key outcome

/-- The chosen winner is one of the results. -/
theorem foldlM_genuine {results : List SearchResult} {state final : Nat × SearchResult}
    (genuine : ∀ result ∈ results, Genuine base afterT suffix result) (first : Genuine base afterT suffix state.2)
    (returned : results.foldlM accumulate state = .ok final) : Genuine base afterT suffix final.2 := by
  induction results generalizing state with
  | nil =>
    cases returned
    exact first
  | cons result rest hypothesis =>
    rw [List.foldlM_cons] at returned
    obtain ⟨next, added, returned⟩ := bind_eq_ok returned
    refine hypothesis (fun other member => genuine other (List.mem_cons_of_mem _ member)) ?_ returned
    unfold accumulate at added
    split at added
    · cases added
    · cases added
      simp only
      split
      · exact genuine result List.mem_cons_self
      · exact first

/-- A wallet whose private key opens its address, which fits the pattern. -/
structure Wallet.Opens (wallet : Wallet) (afterT suffix : Text) : Prop where
  key : ∃ scalar, 0 < scalar ∧ scalar < groupOrder ∧ wallet.privateKey = scalarHex scalar ∧
    wallet.publicKey = bytesToHex (compressedBytes (scalar • generator)) ∧
    wallet.address = pointAddress (scalar • generator)
  fits : matchesPattern wallet.address afterT suffix = true

theorem recoverWallet_publicKey {command : WalletCommand} {wallet : Wallet}
    (returned : recoverWallet command result = .ok wallet) :
    compressedPublicKey wallet.privateKey = .ok wallet.publicKey := by
  unfold recoverWallet at returned
  obtain ⟨privateKey, -, returned⟩ := bind_eq_ok returned
  obtain ⟨address, -, returned⟩ := bind_eq_ok returned
  simp only at returned
  split at returned
  · cases returned
  · obtain ⟨publicKey, compressed, returned⟩ := bind_eq_ok returned
    cases returned
    exact compressed

/-- The wallet of a winner is recovered, and its key opens the winner's address. -/
theorem recoverWallet_winner {command : WalletCommand} (key : command.basePrivateKey = scalarHex base)
    (positive : 0 < base) (below : base < groupOrder) {offset : Nat} (winner : Winner base afterT suffix offset result) :
    ∃ wallet, recoverWallet command result = .ok wallet ∧ wallet.Opens afterT suffix := by
  obtain ⟨finite, matched⟩ := winner.hit
  obtain ⟨wallet, returned, address, privateKey⟩ :=
    recoverWallet_ok key positive below winner.positive winner.below winner.text finite winner.address
  have sum : base • generator + offset • generator = (base + offset) • generator := (add_nsmul _ _ _).symm
  obtain ⟨nonzero, small, reduced⟩ := Service.reduced_scalar (sum ▸ finite)
  have compressed := recoverWallet_publicKey returned
  rw [privateKey, compressedPublicKey_scalarHex nonzero small reduced] at compressed
  refine ⟨wallet, returned, ⟨(base + offset) % groupOrder, nonzero, small, privateKey, ?_, ?_⟩, ?_⟩
  · rw [reduced]
    exact (Except.ok.inj compressed).symm
  · rw [reduced, address, winner.address, sum]
  · rw [address, winner.address]
    exact matched

/-- The searches of a turn. -/
def Generation.runs (command : WalletCommand) (generation : Generation) (fault : Nat → Option Fault) : List SearchRun :=
  ((generation.sessions.zip (List.zipWith command.shard generation.nextOffsets command.chunkCounts)).zipIdx).map
    fun entry => entry.1.1.search entry.1.2 (fault entry.2)

/-- What the command keeps from its start. -/
structure WalletCommand.For (command : WalletCommand) (base : Nat) (afterT suffix : Text) : Prop where
  privateKey : command.basePrivateKey = scalarHex base
  publicKey : command.basePublicKey = bytesToHex (compressedBytes (base • generator))
  afterT : command.afterT = afterT
  suffix : command.suffix = suffix

theorem generationStart_for {pattern : Text} {perDeviceChunk : Nat} {devices : List (Session × Session)}
    {command : WalletCommand} {start : Generation} (positive : 0 < base) (below : base < groupOrder)
    (started : generationStart pattern afterT suffix (scalarHex base) perDeviceChunk devices = .ok (command, start)) :
    command.For base afterT suffix := by
  unfold generationStart at started
  split at started
  · cases started
  · split at started
    · cases started
    · split at started
      · cases started
      · obtain ⟨publicKey, compressed, rest⟩ := bind_eq_ok started
        cases rest
        have known := compressedPublicKey_scalarHex positive below (rfl : base • generator = base • generator)
        exact ⟨rfl, Except.ok.inj (compressed.symm.trans known), rfl, rfl⟩

section Turns
variable {command : WalletCommand} {generation : Generation} {fault : Nat → Option Fault} {results : List SearchResult}

theorem runs_genuine (made : command.For base afterT suffix) (finite : base • generator ≠ 0)
    (ran : (generation.runs command fault).mapM SearchRun.result = .ok results) :
    ∀ result ∈ results, Genuine base afterT suffix result := by
  intro result member
  obtain ⟨run, present, returned⟩ := (forall₂_covers (mapM_eq_ok ran)).2 result member
  obtain ⟨⟨⟨session, shard⟩, index⟩, paired, rfl⟩ := List.mem_map.mp present
  have zipped := (List.of_mem_zip (List.fst_mem_of_mem_zipIdx paired)).2
  obtain ⟨nextOffset, chunkCount, rfl⟩ : ∃ nextOffset chunkCount, shard = command.shard nextOffset chunkCount := by
    rw [← List.map_uncurry_zip_eq_zipWith] at zipped
    obtain ⟨pair, -, rfl⟩ := List.mem_map.mp zipped
    exact ⟨pair.1, pair.2, rfl⟩
  have key : (command.shard nextOffset chunkCount).publicKeyHex = bytesToHex (compressedBytes (base • generator)) :=
    made.publicKey
  rw [← made.afterT, ← made.suffix]
  exact search_genuine finite key returned

/-- A turn that ends with a wallet ends with one that opens. -/
theorem Generation.turn_opens (made : command.For base afterT suffix) (positive : 0 < base) (below : base < groupOrder)
    {after : Generation} {wallet : Wallet} (returned : generation.turn command fault = .ok (after, some wallet)) :
    wallet.Opens afterT suffix := by
  have finite := nsmul_generator_ne_zero positive below
  unfold Generation.turn at returned
  obtain ⟨results, ran, returned⟩ := bind_eq_ok returned
  obtain ⟨⟨totalAttempts, winner⟩, added, returned⟩ := bind_eq_ok returned
  have genuine := foldlM_genuine (runs_genuine made finite ran) (fun found => (by cases found)) added
  simp only at returned
  split at returned
  · rename_i found
    obtain ⟨recovered, kept, returned⟩ := bind_eq_ok returned
    cases returned
    obtain ⟨offset, winner_⟩ := genuine found
    obtain ⟨expected, known, opens⟩ := recoverWallet_winner made.privateKey positive below winner_
    rw [Except.ok.inj (kept.symm.trans known)]
    exact opens
  · obtain ⟨texts, -, returned⟩ := bind_eq_ok returned
    cases returned

/-- A turn in which every search returns and a device found something ends with a wallet. -/
theorem Generation.turn_keeps (made : command.For base afterT suffix) (positive : 0 < base) (below : base < groupOrder)
    (ran : (generation.runs command fault).mapM SearchRun.result = .ok results)
    (found : ∃ result ∈ results, result.found = true)
    (fits : generation.totalAttempts + (results.map SearchResult.attempts).sum < 2 ^ 64) :
    ∃ after wallet, generation.turn command fault = .ok (after, some wallet) := by
  have finite := nsmul_generator_ne_zero positive below
  obtain ⟨⟨totalAttempts, winner⟩, added, kept⟩ := @foldlM_fits results
    (generation.totalAttempts, (⟨false, [], [], 0⟩ : SearchResult)) fits
  have genuine := foldlM_genuine (runs_genuine made finite ran) (fun found => (by cases found)) added
  have chosen : winner.found = true := kept.mpr (.inr found)
  obtain ⟨offset, winner_⟩ := genuine chosen
  obtain ⟨wallet, recovered, -⟩ := recoverWallet_winner made.privateKey positive below winner_
  have searched : (((generation.sessions.zip (List.zipWith command.shard generation.nextOffsets
      command.chunkCounts)).zipIdx).map fun entry => entry.1.1.search entry.1.2 (fault entry.2)).mapM
        SearchRun.result = .ok results := ran
  unfold Generation.turn
  simp only [searched, ok_bind, added, chosen, if_true, recovered]
  exact ⟨_, _, rfl⟩

end Turns

/-- From any state of the loop on, whatever the sessions met before and meet now: the
wallet that ends the command opens its address, and a turn in which the search of every device
returns and any of them found something ends the command with a wallet as long as the counter
of attempts does not overflow. The exception of a device comes before the winner of another one. -/
theorem generated_wallets_open {pattern : Text} {perDeviceChunk : Nat} {devices : List (Session × Session)}
    {command : WalletCommand} {start : Generation} (positive : 0 < base) (below : base < groupOrder)
    (started : generationStart pattern afterT suffix (scalarHex base) perDeviceChunk devices = .ok (command, start))
    (generation : Generation) :
    (∀ faults after wallet, generation.loop command faults = .ok (after, some wallet) → wallet.Opens afterT suffix) ∧
      ∀ fault rest results, (generation.runs command fault).mapM SearchRun.result = .ok results →
        (∃ result ∈ results, result.found = true) →
        generation.totalAttempts + (results.map SearchResult.attempts).sum < 2 ^ 64 →
        ∃ after wallet, generation.loop command (fault :: rest) = .ok (after, some wallet) := by
  have made := generationStart_for positive below started
  constructor
  · intro faults
    induction faults generalizing generation with
    | nil =>
      intro after wallet returned
      cases returned
    | cons fault rest hypothesis =>
      intro after wallet returned
      rw [Generation.loop] at returned
      obtain ⟨⟨middle, found⟩, turned, returned⟩ := bind_eq_ok returned
      cases found with
      | some recovered =>
        cases returned
        exact Generation.turn_opens made positive below turned
      | none => exact hypothesis middle after wallet returned
  · intro fault rest results ran found fits
    obtain ⟨after, wallet, turned⟩ := Generation.turn_keeps made positive below ran found fits
    refine ⟨after, wallet, ?_⟩
    rw [Generation.loop, turned]
    rfl

/-- A request whose first offset gives the double of the generator. -/
def doubleRequest (pattern afterT suffix : Text) (count : Nat) : SearchRequest :=
  ⟨bytesToHex (compressedBytes (1 • generator)), pattern, afterT, suffix, scalarHex 1, count⟩

/-- A chained session finds the double, whatever it searched before. -/
theorem Ready.finds_double {mode : SearchMode} {session : Session} (ready : Ready mode session)
    (chained : mode.isChained = true) {pattern : Text} (valid : validatePattern pattern afterT suffix = .ok ())
    (matched : matchesPattern (pointAddress (1 • generator + 1 • generator)) afterT suffix = true) {count : Nat}
    (positive : 0 < count) (limit : count ≤ 2 ^ 26) :
    ∃ result : SearchResult, (session.search (doubleRequest pattern afterT suffix count) none).result =
      .ok { result with attempts := count } ∧ result.found = true := by
  have order : 2 ^ 26 < groupOrder - 1 := by norm_num [groupOrder]
  have launchable : Launchable (doubleRequest pattern afterT suffix count) (1 • generator) 1 := {
    pattern := valid
    key := publicPoint_compressed (nsmul_generator_ne_zero Nat.one_pos one_lt_groupOrder)
    parsed := parseRangeStart_scalarHex (one_lt_groupOrder.trans groupOrder_lt)
    count := positive
    positive := Nat.one_pos
    last := by
      simp only [doubleRequest]
      omega
    limit := limit
    finite := double_finite }
  have before : 1 + (doubleRequest pattern afterT suffix count).rangeCount < groupOrder := by
    simp only [doubleRequest]
    omega
  obtain ⟨result, returned, finds⟩ := ready.search_launchable chained launchable before
  exact ⟨result, returned, Service.found_of_hit finds positive ⟨double_finite, matched⟩⟩

/-- One device, which finds the double of the generator at its first offset. -/
theorem generated_wallet_opens_double : ∃ session command start after wallet afterT suffix,
    Session.create .chained16 smallDevice (fun _ => default) = .ok session ∧
    generationStart "2x2".toList afterT suffix (scalarHex 1) 16384 [(session, session)] = .ok (command, start) ∧
    start.loop command [fun _ => none] = .ok (after, some wallet) ∧ wallet.Opens afterT suffix := by
  obtain ⟨session, created, ready, chosen⟩ := small_session
  obtain ⟨accepted, matched⟩ := Service.ownPayload_matches (1 • generator + 1 • generator)
  obtain ⟨-, valid⟩ := Service.validatePattern_native accepted
  have shape : (Service.ownPayload (pointAddress (1 • generator + 1 • generator))).pattern.value.toList =
      "2x2".toList := rfl
  rw [shape] at valid
  generalize (Service.ownPayload (pointAddress (1 • generator + 1 • generator))).addressPrefix.tail = afterT
    at matched valid
  generalize (Service.ownPayload (pointAddress (1 • generator + 1 • generator))).suffix = suffix at matched valid
  have band : deviceBandStart 0 = scalarHex 1 := deviceBandStart_eq (by norm_num)
  obtain ⟨command, start, started, sessions, nextOffsets, counts, attempts, shard⟩ : ∃ command start,
      generationStart "2x2".toList afterT suffix (scalarHex 1) 16384 [(session, session)] = .ok (command, start) ∧
      start.sessions = [session] ∧ start.nextOffsets = [scalarHex 1] ∧ command.chunkCounts = [16384] ∧
      start.totalAttempts = 0 ∧ command.shard (scalarHex 1) 16384 =
        doubleRequest "2x2".toList afterT suffix 16384 := by
    refine ⟨_, _, @generationStart_alike "2x2".toList afterT suffix session 1 16384 1 valid chosen (by norm_num)
      (by norm_num) Nat.one_pos Nat.one_pos one_lt_groupOrder, rfl, ?_, rfl, rfl, rfl⟩
    rw [List.range_one, List.map_singleton, band]
  obtain ⟨result, returned, found⟩ := @Ready.finds_double afterT suffix .chained16 session ready rfl "2x2".toList valid
    matched 16384 (by norm_num) (by norm_num)
  rw [← shard] at returned
  have ran : (start.runs command fun _ => none).mapM SearchRun.result = .ok [{ result with attempts := 16384 }] := by
    simp only [Generation.runs, sessions, nextOffsets, counts, List.zipWith_cons_cons, List.zipWith_nil_right,
      List.zip_cons_cons, List.zip_nil_right, List.zipIdx_cons, List.zipIdx_nil, List.map_cons, List.map_nil,
      List.mapM_cons, List.mapM_nil, bind, Except.bind, pure, Except.pure]
    rw [returned]
  have room : start.totalAttempts +
      (([{ result with attempts := 16384 }] : List SearchResult).map SearchResult.attempts).sum < 2 ^ 64 := by
    rw [attempts]
    norm_num
  obtain ⟨opens, keeps⟩ := generated_wallets_open Nat.one_pos one_lt_groupOrder started start
  obtain ⟨after, wallet, ended⟩ := keeps (fun _ => none) [] _ ran ⟨_, List.mem_singleton_self _, found⟩ room
  exact ⟨session, command, start, after, wallet, afterT, suffix, created, started, ended, opens _ _ _ ended⟩

end TronForge.Native
