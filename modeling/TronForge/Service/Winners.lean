import TronForge.Native.RequestValidation
import TronForge.Native.SearchCpu
import TronForge.Service.ServerWallet

/-! The server accepts what the reference search finds: its own derivation, its
matcher and its scalar arithmetic agree with the native ones on every winner. -/

namespace TronForge.Service

open Library
open Generator (Database GenerationJob GenerationResult finalizeCandidate submitCandidate)
open Native (Text charAt base58Alphabet scalarHex bytesToHex CurvePoint generator groupOrder pointBytes pointAddress
  compressedBytes SearchRequest searchCpu Searchable OffsetMatches)

section
variable {P : CurvePoint}

theorem tronAddress_pointAddress (finite : P ≠ 0) : tronAddressFromPublicKey (pointBytes P) = pointAddress P :=
  serverAddress_eq (Native.length_pointBytes finite)

theorem validate_pointAddress (finite : P ≠ 0) : validateTronAddress (pointAddress P) = true := by
  have payload := Native.hostPayload_eq (Native.length_pointBytes finite)
  have tron := Native.tronPayload_fromPublicKey (pointBytes P)
  rw [← payload, Native.hostPayload, Native.keccak256_eq] at tron
  rw [validateTronAddress_eq_true, ← tronAddress_pointAddress finite]
  exact ⟨_, Nat.succ.inj tron.size, rfl⟩

/-- The form of the address of a point. -/
theorem pointAddress_form (P : CurvePoint) : (pointAddress P).length = 34 ∧ charAt (pointAddress P) 0 = 'T' ∧
    ∀ character ∈ pointAddress P, character ∈ base58Alphabet := by
  have tron := Native.tronPayload_fromPublicKey (pointBytes P)
  have size := Native.length_deviceChecksum (Native.deviceTronPayloadFromPublicKey (pointBytes P))
  have address := Native.base58Text_address tron size
  rw [pointAddress, Native.deviceAddress_text]
  exact ⟨address.length, Native.base58Text_first tron size, address.known⟩

theorem addScalar_scalarBytes {offset : Nat} (below : offset < groupOrder)
    (reached : P + offset • generator ≠ 0) :
    addScalar P (Native.scalarBytes offset) = .ok (P + offset • generator) := by
  have value := Native.bytesValue_scalarBytes (below.trans Native.groupOrder_lt)
  have inside : ¬ (groupOrder ≤ offset ∨ P + offset • generator = 0) :=
    not_or.mpr ⟨Nat.not_le.mpr below, reached⟩
  rw [addScalar, Native.length_scalarBytes, if_neg (lt_irrefl 32)]
  simp only [value]
  rw [if_neg inside]
  rfl

theorem deriveCandidateAddress_eq {offset : Nat} (finite : P ≠ 0) (below : offset < groupOrder)
    (reached : P + offset • generator ≠ 0) :
    deriveCandidateAddress (bytesToHex (compressedBytes P)) (scalarHex offset) =
      .ok (pointAddress (P + offset • generator)) := by
  have parsed : parsePublicKey (compressedBytes P) = .ok P := by
    rw [parsePublicKey, Native.decodePoint_compressedBytes finite]
    rfl
  rw [deriveCandidateAddress, fromHex_bytesToHex, ok_bind, parsed, ok_bind, fromHex_scalarHex, ok_bind,
    addScalar_scalarBytes below reached, ok_bind, tronAddress_pointAddress reached]
  exact pure_ok _

/-- The server's checks accept the address of a point that matches. -/
theorem verifyCandidate_eq {offset : Nat} {afterT suffix : Text} (accepted : Native.Accepted afterT suffix)
    (finite : P ≠ 0) (below : offset < groupOrder) (hit : OffsetMatches P afterT suffix offset) :
    verifyCandidate (bytesToHex (compressedBytes P)) (scalarHex offset) (pointAddress (P + offset • generator))
      (compileMatchSpec ('T' :: afterT) suffix) = .ok (pointAddress (P + offset • generator)) := by
  obtain ⟨reached, matched⟩ := hit
  obtain ⟨length, first, known⟩ := pointAddress_form (P + offset • generator)
  rw [← addressMatchesSpec_eq accepted length first known] at matched
  rw [verifyCandidate, validate_pointAddress reached, deriveCandidateAddress_eq finite below reached]
  rw [Bool.not_true, if_neg Bool.false_ne_true, ok_bind, if_neg (not_not.mpr rfl), matched, Bool.not_true,
    if_neg Bool.false_ne_true]
  exact pure_ok _

end

theorem combinePrivateKey_eq (digits : DigitSet) {secret offset : Nat} (secretFits : secret < groupOrder)
    (offsetFits : offset < groupOrder) (nonzero : (secret + offset) % groupOrder ≠ 0) :
    combinePrivateKey digits (scalarHex secret) (scalarHex offset) =
      .ok (scalarHex ((secret + offset) % groupOrder)) := by
  have first := intBase16_scalarHex digits (secretFits.trans Native.groupOrder_lt)
  have second := intBase16_scalarHex digits (offsetFits.trans Native.groupOrder_lt)
  have combined : ((secret : Int) + offset) % (groupOrder : Int) = ((secret + offset) % groupOrder : Nat) := by
    push_cast
    rfl
  have positive : ¬ (((secret + offset) % groupOrder : Nat) : Int) = 0 := by exact_mod_cast nonzero
  rw [combinePrivateKey, first, ok_bind, second, ok_bind]
  simp only [combined, if_neg positive, Int.toNat_natCast]
  exact pure_ok _

theorem verifyPrivateKeyAddress_eq {scalar : Nat} (positive : 0 < scalar) (below : scalar < groupOrder) :
    verifyPrivateKeyAddress (scalarHex scalar) (pointAddress (scalar • generator)) = .ok () := by
  have value := Native.bytesValue_scalarBytes (below.trans Native.groupOrder_lt)
  have finite := Native.nsmul_generator_ne_zero positive below
  have point : privateKeyPoint (Native.scalarBytes scalar) = .ok (scalar • generator) := by
    rw [privateKeyPoint, value, if_pos ⟨positive, below⟩]
    exact pure_ok _
  rw [verifyPrivateKeyAddress, fromHex_scalarHex, ok_bind, point, ok_bind, tronAddress_pointAddress finite,
    if_neg (not_not.mpr rfl)]
  exact pure_ok _

/-- What a successful search returned. -/
theorem found_winner {P : CurvePoint} {afterT suffix : Text} {start count : Nat} {result : Native.SearchResult}
    (finds : Native.Finds P afterT suffix start count result) (found : result.found = true) :
    ∃ index < count, OffsetMatches P afterT suffix (start + index) ∧
      result.address = pointAddress (P + (start + index) • generator) ∧
      result.offsetHex = scalarHex (start + index) := by
  cases finds with
  | winner inside hit least => exact ⟨_, inside, hit, rfl, rfl⟩
  | nothing misses => cases found

/-- A search over a match finds one. -/
theorem found_of_hit {P : CurvePoint} {afterT suffix : Text} {start count index : Nat} {result : Native.SearchResult}
    (finds : Native.Finds P afterT suffix start count result) (inside : index < count)
    (hit : OffsetMatches P afterT suffix (start + index)) : result.found = true := by
  cases finds with
  | winner _ _ _ => rfl
  | nothing misses => exact absurd hit (misses index inside)

theorem searchCpu_found {request : SearchRequest} {address offset : Text} {attempts : Nat}
    (found : searchCpu request = .ok ⟨true, address, offset, attempts⟩) :
    ∃ P start index, Searchable request P start ∧ index < request.rangeCount ∧
      OffsetMatches P request.afterT request.suffix (start + index) ∧
      address = pointAddress (P + (start + index) • generator) ∧ offset = scalarHex (start + index) := by
  obtain ⟨P, start, searchable⟩ := (Native.searchCpu_ok_iff request).mp ⟨_, found⟩
  obtain ⟨result, returned, finds⟩ := Native.searchCpu_finds searchable
  rw [returned] at found
  have same := Except.ok.inj found
  rw [same] at finds
  obtain ⟨index, inside, winner⟩ := found_winner finds rfl
  exact ⟨P, start, index, searchable, inside, winner⟩

/-- The key that `create_job` stores is the point of its secret. -/
theorem publicPoint_created {secret : Nat} (finite : secret • generator ≠ 0) :
    Native.publicPoint (createServerKeyShare secret).2 = .ok (secret • generator) :=
  Native.publicPoint_compressed finite

/-- The reduced scalar of a finite point. -/
theorem reduced_scalar {scalar : Nat} (finite : scalar • generator ≠ 0) : 0 < scalar % groupOrder ∧
    scalar % groupOrder < groupOrder ∧ (scalar % groupOrder) • generator = scalar • generator := by
  have order := Native.addOrderOf_generator
  refine ⟨?_, ?_, ?_⟩
  · rw [ne_eq, Native.nsmul_generator_eq_zero_iff] at finite
    exact Nat.emod_pos_of_not_dvd finite
  · exact Nat.mod_lt _ Native.groupOrder_prime.pos
  · rw [← order, mod_addOrderOf_nsmul]

/-- The checks of the server on a winner of its own job. -/
theorem check_winner {digits : DigitSet} {decrypt : String → Option String} {encrypt : Nat → String → String}
    {payload : GenerationJobCreate} {secret offset : Nat} {job : GenerationJob} {token : String}
    (accepted : payload.validatePattern = .ok ()) (positive : 0 < secret) (below : secret < groupOrder)
    (created : CreatedFrom payload secret job) (held : job.encryptedBasePrivateKey = some token)
    (share : decrypt token = some (String.ofList (createServerKeyShare secret).1)) (inside : offset < groupOrder)
    (hit : OffsetMatches (secret • generator) payload.addressPrefix.tail payload.suffix offset) :
    (serverVerification digits decrypt encrypt).check job
        (String.ofList (pointAddress ((secret + offset) • generator))) (String.ofList (scalarHex offset)) =
      some (.ok (String.ofList (pointAddress ((secret + offset) • generator)),
        String.ofList (scalarHex ((secret + offset) % groupOrder)))) := by
  obtain ⟨whole, native⟩ := validatePattern_native accepted
  have finite := Native.nsmul_generator_ne_zero positive below
  have sum : secret • generator + offset • generator = (secret + offset) • generator := (add_nsmul _ _ _).symm
  obtain ⟨nonzero, small, reduced⟩ := reduced_scalar (sum ▸ hit.1)
  have verified := verifyCandidate_eq (Native.validatePattern_ok native) finite inside hit
  rw [sum, ← whole] at verified
  have derived := verifyPrivateKeyAddress_eq nonzero small
  rw [reduced] at derived
  have combined := combinePrivateKey_eq digits below inside nonzero.ne'
  generalize pointAddress ((secret + offset) • generator) = address at verified derived ⊢
  have first : (serverVerification digits decrypt encrypt).verifyCandidate job.clientPublicKey
      (String.ofList (scalarHex offset)) (String.ofList address) job.matchSpec = .ok (String.ofList address) := by
    have read : (⟨job.matchSpec.version, job.matchSpec.prefixOptions, job.matchSpec.suffixOptions⟩ : MatchSpec) =
        compileMatchSpec payload.addressPrefix payload.suffix := by
      rw [created.matchSpec]
      rfl
    have key : job.clientPublicKey.toList = bytesToHex (compressedBytes (secret • generator)) := by
      rw [created.clientPublicKey, String.toList_ofList]
      rfl
    simp only [serverVerification, read, key, String.toList_ofList, verified]
    rfl
  have second : (serverVerification digits decrypt encrypt).combinePrivateKey
      (String.ofList (createServerKeyShare secret).1) (String.ofList (scalarHex offset)) = .ok (String.ofList (scalarHex ((secret + offset) % groupOrder))) := by
    simp only [serverVerification, createServerKeyShare, String.toList_ofList, combined]
    rfl
  have third : (serverVerification digits decrypt encrypt).verifyPrivateKeyAddress
      (String.ofList (scalarHex ((secret + offset) % groupOrder))) (String.ofList address) = .ok () := by
    simp only [serverVerification, String.toList_ofList, derived]
  have opened : (serverVerification digits decrypt encrypt).decrypt token =
      some (String.ofList (createServerKeyShare secret).1) := share
  simp only [Generator.Verification.check, first, held, opened, second, third, ok_bind, pure_ok]

/-- Whatever range of offsets the reference search walked for an accepted job, the
server accepts what it found, while the job accepts candidates: it stores one result,
with that address and the sum of both shares as its private key, and the commit
succeeds unless another job has the same address. -/
theorem winner_finalized {digits : DigitSet} {decrypt : String → Option String} {encrypt : Nat → String → String}
    (box : ∀ entropy value, decrypt (encrypt entropy value) = some value) {payload : GenerationJobCreate}
    (accepted : payload.validatePattern = .ok ()) {secret : Nat} (positive : 0 < secret) (below : secret < groupOrder)
    {job : GenerationJob} (created : CreatedFrom payload secret job) {token : String}
    (held : job.encryptedBasePrivateKey = some token)
    (share : decrypt token = some (String.ofList (createServerKeyShare secret).1)) {rangeStart : Text}
    {rangeCount : Nat} {address offset : Text} {attempts : Nat}
    (found : searchCpu ⟨job.clientPublicKey.toList, payload.pattern.value.toList, payload.addressPrefix.tail,
      payload.suffix, rangeStart, rangeCount⟩ = .ok ⟨true, address, offset, attempts⟩)
    {db : Database} (row : db.job? job.id = some job) (accepting : job.status.accepting = true)
    (unfinished : db.result? job.id = none) (entropy : Nat) (now : Generator.Time) (workerId : String) :
    ∃ (shift : Nat) (result : GenerationResult), intBase16 digits offset = .ok (shift : Int) ∧
      finalizeCandidate (serverVerification digits decrypt encrypt) entropy now db job.id workerId
        (String.ofList address) (String.ofList offset) = .accepted result ∧
      ((db.accept result now).results.filter fun stored => stored.jobId = job.id) = [result] ∧
      result.address = String.ofList address ∧
      (secret + shift) % groupOrder ∈ Set.Icc 1 (groupOrder - 1) ∧
      decrypt result.encryptedPrivateKey = some (String.ofList (scalarHex ((secret + shift) % groupOrder))) ∧
      tronAddressFromPublicKey (pointBytes (((secret + shift) % groupOrder) • generator)) = address ∧
      ((∀ other ∈ db.results, other.address ≠ result.address) →
        submitCandidate (serverVerification digits decrypt encrypt) entropy now job.id workerId (String.ofList address)
          (String.ofList offset) db = some (db.accept result now)) := by
  have finite := Native.nsmul_generator_ne_zero positive below
  obtain ⟨P, start, index, searchable, inside, hit, atAddress, atOffset⟩ := searchCpu_found found
  have key : Native.publicPoint job.clientPublicKey.toList = .ok (secret • generator) := by
    rw [created.clientPublicKey, String.toList_ofList]
    exact publicPoint_created finite
  have same : P = secret • generator := Except.ok.inj (searchable.key.symm.trans key)
  have last : start + (rangeCount - 1) < groupOrder := searchable.last
  have bounded : index < rangeCount := inside
  have shiftBelow : start + index < groupOrder := by omega
  rw [same] at hit atAddress
  have sum : secret • generator + (start + index) • generator = (secret + (start + index)) • generator :=
    (add_nsmul _ _ _).symm
  have checked := @check_winner digits decrypt encrypt payload secret (start + index) job token accepted positive below
    created held share shiftBelow hit
  have derived := tronAddress_pointAddress hit.1
  rw [← atAddress, sum] at derived
  obtain ⟨nonzero, small, reduced⟩ := reduced_scalar (sum ▸ hit.1)
  rw [← sum, ← atAddress, ← atOffset] at checked
  have finalized : finalizeCandidate (serverVerification digits decrypt encrypt) entropy now db job.id workerId
      (String.ofList address) (String.ofList offset) = .accepted
        { jobId := job.id
          workerId := workerId
          address := String.ofList address
          encryptedOffset := encrypt entropy (String.ofList offset)
          encryptedPrivateKey :=
            encrypt (entropy + 1) (String.ofList (scalarHex ((secret + (start + index)) % groupOrder)))
          verifierVersion := Generator.verifierVersion
          verifiedAt := now } := by
    simp only [finalizeCandidate, row, unfinished, accepting, checked, not_true_eq_false, if_false]
    rfl
  have others : ∀ other ∈ db.results, other.jobId ≠ job.id := fun other => Table.key_ne_of_lookup unfinished
  refine ⟨start + index, _, ?_, finalized, ?_, rfl, ⟨nonzero, Nat.le_sub_one_of_lt small⟩, box _ _, ?_, ?_⟩
  · rw [atOffset]
    exact intBase16_scalarHex digits (shiftBelow.trans Native.groupOrder_lt)
  · rw [Database.accept, List.filter_cons_of_pos (by simp), List.filter_eq_nil_iff.mpr]
    intro other member
    simpa using others other member
  · rw [reduced, derived]
  · intro free
    rw [submitCandidate, finalized]
    have admitted : Database.admits _ db = true := List.all_eq_true.mpr fun other member => by
      simpa using ⟨others other member, free other member⟩
    exact if_pos admitted

/-- The request for the shortest pattern of an address. -/
def ownPayload (address : Text) : GenerationJobCreate :=
  ⟨.twoByTwo, ['T', charAt address 1, charAt address 2], [charAt address 32, charAt address 33]⟩

/-- Every address of a point may be asked for, and matches its own request. -/
theorem ownPayload_matches (P : CurvePoint) : (ownPayload (pointAddress P)).validatePattern = .ok () ∧
    Native.matchesPattern (pointAddress P) (ownPayload (pointAddress P)).addressPrefix.tail
      (ownPayload (pointAddress P)).suffix = true := by
  obtain ⟨length, first, known⟩ := pointAddress_form P
  have second : charAt (pointAddress P) 1 ∈ Native.allowedFirstCustom := by
    rw [pointAddress, Native.deviceAddress_text]
    exact Native.base58Text_second (Native.tronPayload_fromPublicKey (pointBytes P))
      (Native.length_deviceChecksum (Native.deviceTronPayloadFromPublicKey (pointBytes P)))
  generalize pointAddress P = address at length first known second
  have known_ {index : Nat} (inside : index < 34) : charAt address index ∈ base58Alphabet :=
    known _ (Native.charAt_mem (by rw [length]; exact inside))
  have custom : firstCustomCharacter (charAt address 1) = true := by
    have all : ∀ character ∈ Native.allowedFirstCustom, firstCustomCharacter character = true := by decide
    exact all _ second
  have characters : ¬ ∃ character ∈ (ownPayload address).addressPrefix ++ (ownPayload address).suffix,
      character ∉ base58Alphabet := by
    rintro ⟨character, member, unknown⟩
    simp only [ownPayload, List.cons_append, List.nil_append, List.mem_cons, List.not_mem_nil, or_false] at member
    rcases member with rfl | rfl | rfl | rfl | rfl
    · exact unknown (by decide)
    all_goals exact unknown (known_ (by omega))
  have reflexive (character : Char) : Native.looseEqual character character = true := by simp [Native.looseEqual]
  constructor
  · have lengths : ¬ ((ownPayload address).addressPrefix.length ≠ 2 + 1 ∨
        (ownPayload address).suffix.length ≠ 2) := by
      simp [ownPayload]
    have head : ¬ (ownPayload address).addressPrefix.head? ≠ some 'T' := by simp [ownPayload]
    have asked : charAt (ownPayload address).addressPrefix 1 = charAt address 1 := rfl
    unfold GenerationJobCreate.validatePattern
    simp only [if_neg head, if_neg characters, asked, custom]
    exact if_neg lengths
  · have pick (left right : Char) : charAt [left, right] 0 = left ∧ charAt [left, right] 1 = right :=
      ⟨rfl, rfl⟩
    simp [Native.matchesPattern, ownPayload, length, first, List.range_succ, reflexive, pick]

theorem one_lt_groupOrder : 1 < groupOrder := by norm_num [groupOrder]

/-- The double of the generator, which the samples find, is a point. -/
theorem double_finite : 1 • generator + 1 • generator ≠ 0 := by
  rw [← add_nsmul]
  exact Native.nsmul_generator_ne_zero (by omega) (by norm_num [groupOrder])

/-- A job whose secret is one finds the double of the generator. -/
theorem winner_finalized_double :
    ∃ (payload : GenerationJobCreate) (address offset : String) (result : GenerationResult),
      finalizeCandidate (serverVerification .plain some fun _ value => value) 0 0
        { jobs := [createdJob payload 1 id 1 1 0] } 1 "gpu" address offset = .accepted result := by
  have finite := Native.nsmul_generator_ne_zero Nat.one_pos one_lt_groupOrder
  obtain ⟨accepted, matched⟩ := ownPayload_matches (1 • generator + 1 • generator)
  obtain ⟨whole, native⟩ := validatePattern_native accepted
  generalize ownPayload (pointAddress (1 • generator + 1 • generator)) = payload at accepted matched whole native
  have created := createdJob_createdFrom payload 1 id 1 1 0
  have key : Native.publicPoint (createdJob payload 1 id 1 1 0).clientPublicKey.toList = .ok (1 • generator) := by
    rw [created.clientPublicKey, String.toList_ofList]
    exact publicPoint_created finite
  have searchable : Searchable ⟨(createdJob payload 1 id 1 1 0).clientPublicKey.toList,
      payload.pattern.value.toList, payload.addressPrefix.tail, payload.suffix, ['1'], 1⟩ (1 • generator) 1 :=
    ⟨native, key, rfl, Nat.one_pos, Nat.one_pos, one_lt_groupOrder⟩
  obtain ⟨⟨flag, address, offset, attempts⟩, returned, finds⟩ := Native.searchCpu_finds searchable
  have found : flag = true := found_of_hit finds Nat.zero_lt_one ⟨double_finite, matched⟩
  rw [found] at returned
  have row : ({ jobs := [createdJob payload 1 id 1 1 0] } : Database).job? 1 =
      some (createdJob payload 1 id 1 1 0) := rfl
  have unfinished : ({ jobs := [createdJob payload 1 id 1 1 0] } : Database).result? 1 = none := rfl
  obtain ⟨shift, result, -, finalized, -⟩ := winner_finalized (fun _ _ => rfl) accepted Nat.one_pos
    one_lt_groupOrder created rfl rfl returned row rfl unfinished 0 0 "gpu"
  exact ⟨payload, String.ofList address, String.ofList offset, result, finalized⟩

end TronForge.Service
