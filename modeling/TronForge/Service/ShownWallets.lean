import TronForge.Service.JobReads
import TronForge.Service.Winners

/-! The wallets that the server shows: over every run of the transactions and of the
routes of a job, the shown key opens the shown address, the address fits the shown
pattern, and what was shown once never changes. -/

namespace TronForge.Service

open Library
open Generator (UserId JobId Database GenerationJob Operation finalizeCandidate submitCandidate perform perform_keeps StoredRequest
  ResultsSound resultsSound_empty)
open Native (Text scalarHex generator groupOrder pointAddress)

/-- A stored request that `validate_pattern` accepted and `create_job` compiled. -/
def AcceptedRequest (request : StoredRequest) : Prop :=
  ∃ payload : GenerationJobCreate, payload.validatePattern = .ok () ∧ request.patternType = payload.pattern ∧
    request.addressPrefix = String.ofList payload.addressPrefix ∧ request.suffix = String.ofList payload.suffix ∧
    request.matchSpec = (compileMatchSpec payload.addressPrefix payload.suffix).stored

/-- New jobs are those of `create_job`; the transactions are otherwise arbitrary. -/
def CreatesJobs (_server : JobServer) : ServerAction → Prop
  | .transact (.create job) | .create _ job => ∃ payload secret, payload.validatePattern = .ok () ∧ CreatedFrom payload secret job
  | _ => True

theorem acceptable_created {payload : GenerationJobCreate} {secret : Nat} {job : GenerationJob}
    (accepted : payload.validatePattern = .ok ()) (created : CreatedFrom payload secret job) :
    AcceptedRequest job.request :=
  ⟨payload, accepted, created.patternType, created.addressPrefix, created.suffix, created.matchSpec⟩

/-- A private key that opens an address of a pattern. -/
def Opens (privateKey address : Text) (afterT suffix : Text) : Prop :=
  ∃ scalar, 0 < scalar ∧ scalar < groupOrder ∧ privateKey = scalarHex scalar ∧
    address = pointAddress (scalar • generator) ∧ Native.matchesPattern address afterT suffix = true

theorem verifyCandidate_ok {clientPublicKey offset submittedAddress verified : Text} {spec : MatchSpec}
    (accepted : verifyCandidate clientPublicKey offset submittedAddress spec = .ok verified) :
    addressMatchesSpec verified spec = true := by
  unfold verifyCandidate at accepted
  split at accepted
  · cases accepted
  · obtain ⟨derived, -, rest⟩ := bind_eq_ok accepted
    split at rest
    · cases rest
    · split at rest
      · cases rest
      · rename_i matched
        cases rest
        simpa using matched

theorem combinePrivateKey_ok {digits : DigitSet} {basePrivateKey offset privateKey : Text}
    (combined : combinePrivateKey digits basePrivateKey offset = .ok privateKey) :
    ∃ scalar, 0 < scalar ∧ scalar < groupOrder ∧ privateKey = scalarHex scalar := by
  unfold combinePrivateKey at combined
  obtain ⟨base, -, combined⟩ := bind_eq_ok combined
  obtain ⟨added, -, combined⟩ := bind_eq_ok combined
  have order : (0 : Int) < groupOrder := by exact_mod_cast Native.groupOrder_prime.pos
  have nonnegative := Int.emod_nonneg (base + added) order.ne'
  have below := Int.emod_lt_of_pos (base + added) order
  simp only at combined
  split at combined
  · cases combined
  · cases combined
    exact ⟨_, by omega, by omega, rfl⟩

theorem verifyPrivateKeyAddress_ok {scalar : Nat} (positive : 0 < scalar) (below : scalar < groupOrder)
    {address : Text} (verified : verifyPrivateKeyAddress (scalarHex scalar) address = .ok ()) :
    address = pointAddress (scalar • generator) := by
  have value := Native.bytesValue_scalarBytes (below.trans Native.groupOrder_lt)
  have point : privateKeyPoint (Native.scalarBytes scalar) = .ok (scalar • generator) := by
    rw [privateKeyPoint, value, if_pos ⟨positive, below⟩]
    exact pure_ok _
  rw [verifyPrivateKeyAddress, fromHex_scalarHex, ok_bind, point, ok_bind,
    tronAddress_pointAddress (Native.nsmul_generator_ne_zero positive below)] at verified
  split at verified
  · cases verified
  · rename_i same
    exact (not_not.mp same).symm

variable {digits : DigitSet} {decrypt : String → Option String} {encrypt : Nat → String → String}

/-- What the server's checks let through opens an address of the requested pattern. -/
theorem check_opens {job : GenerationJob} (acceptable : AcceptedRequest job.request)
    {address offset verified privateKey : String}
    (checked : (serverVerification digits decrypt encrypt).check job address offset = some (.ok (verified, privateKey))) :
    Opens privateKey.toList verified.toList job.addressPrefix.toList.tail job.suffix.toList := by
  obtain ⟨payload, accepted, pattern, addressPrefix, suffix, spec⟩ := acceptable
  unfold Generator.Verification.check at checked
  split at checked
  · cases checked
  · rename_i first candidate
    split at checked
    · cases checked
    · split at checked
      · cases checked
      · rename_i base opened
        obtain ⟨combined, sum, rest⟩ := bind_eq_ok (Option.some.inj checked)
        obtain ⟨unit_, derived, rest⟩ := bind_eq_ok rest
        cases rest
        simp only [serverVerification] at candidate sum derived
        obtain ⟨found, matched, rfl⟩ := map_eq_ok candidate
        obtain ⟨key, added, rfl⟩ := map_eq_ok sum
        obtain ⟨scalar, positive, below, rfl⟩ := combinePrivateKey_ok added
        simp only [String.toList_ofList] at derived ⊢
        have same := verifyPrivateKeyAddress_ok positive below derived
        obtain ⟨whole, native⟩ := validatePattern_native accepted
        obtain ⟨length, head, known⟩ := pointAddress_form (scalar • generator)
        rw [← same] at length head known
        have matches_ := verifyCandidate_ok matched
        have read : (⟨job.matchSpec.version, job.matchSpec.prefixOptions, job.matchSpec.suffixOptions⟩ : MatchSpec) =
            compileMatchSpec ('T' :: payload.addressPrefix.tail) payload.suffix := by
          rw [← whole]
          exact congrArg (fun stored : Generator.MatchSpec =>
            (⟨stored.version, stored.prefixOptions, stored.suffixOptions⟩ : MatchSpec)) spec
        rw [read, addressMatchesSpec_eq (Native.validatePattern_ok native) length head known] at matches_
        have shownPrefix : job.addressPrefix.toList.tail = payload.addressPrefix.tail := by
          rw [show job.addressPrefix = String.ofList payload.addressPrefix from addressPrefix, String.toList_ofList]
        have shownSuffix : job.suffix.toList = payload.suffix := by
          rw [show job.suffix = String.ofList payload.suffix from suffix, String.toList_ofList]
        rw [shownPrefix, shownSuffix]
        exact ⟨scalar, positive, below, rfl, same, matches_⟩

/-- The tables stand, and every answer came from them. -/
structure AnswersSound (digits : DigitSet) (decrypt : String → Option String) (encrypt : Nat → String → String)
    (reader : Reader) (server : JobServer) : Prop where
  tables : ResultsSound (serverVerification digits decrypt encrypt) AcceptedRequest server.db
  answers : ∀ answer ∈ server.shown, Shows reader server.db answer.1 answer.2

theorem Shows.keeps {reader : Reader} {db after : Database} {user : UserId} {read : GenerationJobRead}
    (shows_ : Shows reader db user read) (results : ∀ result ∈ db.results, result ∈ after.results)
    (requests : ∀ request ∈ db.jobs.map GenerationJob.request, request ∈ after.jobs.map GenerationJob.request) :
    Shows reader after user read := by
  constructor
  · obtain ⟨request, member, fields⟩ := shows_.request
    exact ⟨request, requests request member, fields⟩
  · intro result shown
    obtain ⟨stored, member, fields⟩ := shows_.result result shown
    exact ⟨stored, results stored member, fields⟩

section
variable {reader : Reader} {server after : JobServer}

theorem AnswersSound.show_ (sound : AnswersSound digits decrypt encrypt reader server) (user : UserId)
    {reads : Except RouteError (List GenerationJobRead)}
    (known : ∀ list, reads = .ok list → ∀ read ∈ list, Shows reader server.db user read) :
    AnswersSound digits decrypt encrypt reader (server.show_ user reads) := by
  cases reads with
  | error error => exact sound
  | ok list =>
    refine ⟨sound.tables, ?_⟩
    intro answer member
    rcases List.mem_append.mp member with new | old
    · obtain ⟨read, present, rfl⟩ := List.mem_map.mp new
      exact known list rfl read present
    · exact sound.answers answer old

theorem AnswersSound.showOne (sound : AnswersSound digits decrypt encrypt reader server) (user : UserId)
    {answered : Except RouteError GenerationJobRead}
    (known : ∀ read, answered = .ok read → Shows reader server.db user read) :
    AnswersSound digits decrypt encrypt reader (server.showOne user answered) := by
  apply sound.show_ user
  intro list same read member
  obtain ⟨shown, found, rfl⟩ := map_eq_ok same
  obtain rfl := List.mem_singleton.mp member
  exact known _ found

/-- A transaction takes nothing away that an answer came from. -/
theorem AnswersSound.perform (sound : AnswersSound digits decrypt encrypt reader server) {operation : Operation}
    (fine : ∀ job, operation = .create job → AcceptedRequest job.request) {db : Database}
    (performed : perform (serverVerification digits decrypt encrypt) operation server.db = some db)
    {next : JobServer} (tables : next.db = db) (shown : next.shown = server.shown) :
    AnswersSound digits decrypt encrypt reader next := by
  obtain ⟨results, requests⟩ := perform_keeps performed
  constructor
  · rw [tables]
    exact sound.tables.perform fine performed
  · intro answer member
    rw [shown] at member
    rw [tables]
    exact (sound.answers answer member).keeps results requests

theorem AnswersSound.cancel (sound : AnswersSound digits decrypt encrypt reader server) {user : UserId} {jobId : JobId}
    {moment : Moment}
    (canceled : server.cancel (serverVerification digits decrypt encrypt) reader user jobId moment = some after) :
    AnswersSound digits decrypt encrypt reader after := by
  unfold JobServer.cancel at canceled
  split at canceled
  · cases canceled
    exact sound
  · rename_i job owned
    split at canceled
    · cases canceled
      exact sound.showOne user fun read serialized => ownedJob_shows owned serialized
    · split at canceled
      · cases canceled
        exact sound
      · obtain ⟨db, performed, rfl⟩ := Option.map_eq_some_iff.mp canceled
        exact sound.perform (fun job create => by cases create) performed rfl rfl

theorem AnswersSound.step (sound : AnswersSound digits decrypt encrypt reader server) {action : ServerAction}
    (creates : CreatesJobs server action)
    (acted : JobServer.act (serverVerification digits decrypt encrypt) reader action server = some after) :
    AnswersSound digits decrypt encrypt reader after := by
  cases action with
  | transact operation =>
    obtain ⟨db, performed, rfl⟩ := Option.map_eq_some_iff.mp acted
    have fine : ∀ job, operation = .create job → AcceptedRequest job.request := by
      intro job create
      subst create
      obtain ⟨payload, secret, accepted, created⟩ := creates
      exact acceptable_created accepted created
    exact sound.perform fine performed rfl rfl
  | create idempotencyKey job =>
    simp only [JobServer.act, JobServer.create] at acted
    split at acted
    · obtain ⟨db, performed, rfl⟩ := Option.map_eq_some_iff.mp acted
      obtain ⟨payload, secret, accepted, created⟩ := creates
      have fine : ∀ other, Operation.create job = .create other → AcceptedRequest other.request := by
        intro other same
        cases same
        exact acceptable_created accepted created
      exact sound.perform fine performed rfl rfl
    · cases acted
  | existing user key moment =>
    obtain ⟨job, keyed, rfl⟩ := Option.map_eq_some_iff.mp acted
    obtain ⟨entry, -, owned⟩ := Option.bind_eq_some_iff.mp keyed
    exact sound.showOne user fun read serialized => ownedJob_shows owned serialized
  | cancel user jobId moment => exact sound.cancel acted
  | load user jobId moment =>
    simp only [JobServer.act] at acted
    split at acted
    · cases acted
      have same : AnswersSound digits decrypt encrypt reader
          { server with committed := server.committed.erase (user, jobId) } := ⟨sound.tables, sound.answers⟩
      exact same.showOne user fun read answered => readOwned_shows answered
    · cases acted
  | get user jobId moment =>
    cases acted
    exact sound.showOne user fun read answered => readOwned_shows answered
  | list user limit offset moment =>
    cases acted
    apply sound.show_ user
    intro list answered read member
    obtain ⟨listed, found, rfl⟩ := map_eq_ok answered
    exact listJobs_shows found member

theorem answersSound (run : (jobServer (serverVerification digits decrypt encrypt) reader).Run CreatesJobs {} server) :
    AnswersSound digits decrypt encrypt reader server :=
  run.invariant (fun _ _ _ sound creates acted => sound.step creates acted)
    ⟨resultsSound_empty, fun answer member => by cases member⟩

/-- A job of the secret one, its winner, a repeated request of its owner and a read. -/
theorem double_shown : ∃ (server : JobServer) (read : GenerationJobRead) (result : GenerationResultRead),
    (jobServer (serverVerification .plain some fun _ value => value) ⟨some, fun _ _ => 0⟩).Run CreatesJobs {} server ∧
      server.shown = [(1, read), (1, read)] ∧ read.result = some result := by
  obtain ⟨accepted, matched⟩ := ownPayload_matches (1 • generator + 1 • generator)
  generalize ownPayload (pointAddress (1 • generator + 1 • generator)) = payload at accepted matched
  have created := createdJob_createdFrom payload 1 id 1 1 0
  have checked := @check_winner .plain some (fun _ value => value) payload 1 1 (createdJob payload 1 id 1 1 0) _ accepted
    Nat.one_pos one_lt_groupOrder created rfl rfl one_lt_groupOrder ⟨double_finite, matched⟩
  generalize String.ofList (pointAddress ((1 + 1) • generator)) = address at checked
  have finalized : ∃ result, finalizeCandidate (serverVerification .plain some fun _ value => value) 0 0
      { jobs := [createdJob payload 1 id 1 1 0] } 1 "gpu" address (String.ofList (scalarHex 1)) = .accepted result ∧
      result.jobId = 1 := by
    have row : ({ jobs := [createdJob payload 1 id 1 1 0] } : Database).job? 1 =
        some (createdJob payload 1 id 1 1 0) := rfl
    have unfinished : ({ jobs := [createdJob payload 1 id 1 1 0] } : Database).result? 1 = none := rfl
    have open_ : ¬ ¬ (createdJob payload 1 id 1 1 0).status.accepting = true := not_not.mpr rfl
    simp only [finalizeCandidate, row, unfinished, if_neg open_, checked]
    exact ⟨_, rfl, rfl⟩
  obtain ⟨result, accepted_, owner⟩ := finalized
  have submitted : submitCandidate (serverVerification .plain some fun _ value => value) 0 0 1 "gpu" address
      (String.ofList (scalarHex 1)) { jobs := [createdJob payload 1 id 1 1 0] } =
        some (Database.accept result 0 { jobs := [createdJob payload 1 id 1 1 0] }) := by
    rw [submitCandidate, accepted_]
    exact if_pos rfl
  obtain ⟨jobId, workerId, stored, offset_, key, version, verified⟩ := result
  obtain rfl : jobId = 1 := owner
  let server : JobServer :=
    ⟨Database.accept ⟨1, workerId, stored, offset_, key, version, verified⟩ 0
      { jobs := [createdJob payload 1 id 1 1 0] }, [((1, "k"), 1)], [(1, 1)], []⟩
  let moment : Moment := ⟨0, fun _ => 0⟩
  obtain ⟨job, read, owned, serialized, wallet⟩ : ∃ job read, server.db.ownedJob? 1 1 = some job ∧
      serializeJob ⟨some, fun _ _ => 0⟩ moment server.db job = .ok read ∧ read.result = some ⟨stored, key, verified⟩ :=
    ⟨_, _, rfl, rfl, rfl⟩
  have gets (shown : List (UserId × GenerationJobRead)) :
      JobServer.act (serverVerification .plain some fun _ value => value) ⟨some, fun _ _ => 0⟩ (.get 1 1 moment)
        { server with shown := shown } = some { server with shown := (1, read) :: shown } := by
    simp only [JobServer.act, getJob, readOwned, owned, serialized]
    rfl
  have repeats (shown : List (UserId × GenerationJobRead)) :
      JobServer.act (serverVerification .plain some fun _ value => value) ⟨some, fun _ _ => 0⟩
        (.existing 1 "k" moment) { server with shown := shown } = some { server with shown := (1, read) :: shown } := by
    have keyed : JobServer.keyed? { server with shown := shown } 1 "k" = some job := owned
    simp only [JobServer.act, keyed, Option.map_some, serialized]
    rfl
  have create : JobServer.act (serverVerification .plain some fun _ value => value) ⟨some, fun _ _ => 0⟩
      (.create (some "k") (createdJob payload 1 id 1 1 0)) {} =
        some ⟨{ jobs := [createdJob payload 1 id 1 1 0] }, [((1, "k"), 1)], [(1, 1)], []⟩ := by
    have fresh : Generator.Created {} (createdJob payload 1 id 1 1 0) :=
      ⟨rfl, rfl, rfl, fun other member => (by cases member)⟩
    have admitted : JobServer.admits {} (createdJob payload 1 id 1 1 0).userId (some "k") = true := rfl
    simp only [JobServer.act, JobServer.create, if_pos admitted, perform, if_pos fresh]
    rfl
  have submit : JobServer.act (serverVerification .plain some fun _ value => value) ⟨some, fun _ _ => 0⟩
      (.transact (.submit 1 "gpu" address (String.ofList (scalarHex 1)) 0 0))
      ⟨{ jobs := [createdJob payload 1 id 1 1 0] }, [((1, "k"), 1)], [(1, 1)], []⟩ = some server := by
    simp only [JobServer.act, perform, submitted]
    rfl
  refine ⟨{ server with shown := [(1, read), (1, read)] }, read, _, ?_, rfl, wallet⟩
  refine Relation.ReflTransGen.tail ?_ ⟨.get 1 1 moment, trivial, gets _⟩
  refine @Relation.ReflTransGen.tail _ _ _ server _ ?_ ⟨.existing 1 "k" moment, trivial, repeats []⟩
  refine Relation.ReflTransGen.tail ?_ ⟨.transact (.submit 1 "gpu" address (String.ofList (scalarHex 1)) 0 0), trivial,
    submit⟩
  exact .single ⟨.create (some "k") (createdJob payload 1 id 1 1 0), ⟨payload, 1, accepted, created⟩, create⟩

/-- Whatever the generator, the workers, the routes and the users did, in any order: an
answer with a result went to the owner of the job, its private key opens its address,
and the address fits the pattern that the same answer names. -/
theorem shown_wallets_open (box : ∀ entropy value, decrypt (encrypt entropy value) = some value)
    {quotient : (attempts elapsed : Nat) → Nat}
    (run : (jobServer (serverVerification digits decrypt encrypt) ⟨decrypt, quotient⟩).Run CreatesJobs {} server)
    {user : UserId} {read : GenerationJobRead} (shown : (user, read) ∈ server.shown) {result : GenerationResultRead}
    (wallet : read.result = some result) :
    (∃ job ∈ server.db.jobs, job.id = read.id ∧ job.userId = user) ∧
      Opens result.privateKey.toList result.address.toList read.addressPrefix.toList.tail read.suffix.toList := by
  have sound := answersSound run
  have shows_ := sound.answers (user, read) shown
  obtain ⟨request, present, id, owner, -, addressPrefix, suffix⟩ := shows_.request
  obtain ⟨stored, member, keyed, address, -, opened⟩ := shows_.result result wallet
  obtain ⟨requested, known, same, job, rfl, given, offset, privateKey, entropy, checked, -, encrypted⟩ :=
    sound.tables.backed stored member
  have unique := Table.eq_of_key sound.tables.ids known present (same.trans (keyed.trans id.symm))
  subst unique
  constructor
  · obtain ⟨row, inside, projected⟩ := List.mem_map.mp present
    refine ⟨row, inside, ?_, ?_⟩
    · exact (congrArg StoredRequest.id projected).trans id
    · exact (congrArg StoredRequest.userId projected).trans owner
  · have opens := check_opens (sound.tables.requests _ present) checked
    rw [encrypted] at opened
    have decrypted := box (entropy + 1) privateKey
    have same_ : privateKey = result.privateKey := Option.some.inj (decrypted.symm.trans opened)
    rw [same_, address] at opens
    have shownPrefix : job.addressPrefix = read.addressPrefix := addressPrefix
    have shownSuffix : job.suffix = read.suffix := suffix
    rwa [shownPrefix, shownSuffix] at opens

/-- The double of the generator, shown to the owner of its job. -/
theorem wallet_shown : ∃ (server : JobServer) (read : GenerationJobRead) (result : GenerationResultRead),
    (1, read) ∈ server.shown ∧ read.result = some result ∧
      (∃ job ∈ server.db.jobs, job.id = read.id ∧ job.userId = 1) ∧
      Opens result.privateKey.toList result.address.toList read.addressPrefix.toList.tail read.suffix.toList := by
  obtain ⟨server, read, result, run, shown, wallet⟩ := double_shown
  have member : (1, read) ∈ server.shown := by
    rw [shown]
    exact List.mem_cons_self
  exact ⟨server, read, result, member, wallet, shown_wallets_open (fun _ _ => rfl) run member wallet⟩

/-- Two answers about one job go to one user and show the same wallet once they show one;
two jobs never show the same address. -/
theorem shown_wallets_agree {reader : Reader}
    (run : (jobServer (serverVerification digits decrypt encrypt) reader).Run CreatesJobs {} server)
    {user other : UserId} {read later : GenerationJobRead} (shown : (user, read) ∈ server.shown)
    (again : (other, later) ∈ server.shown) {result next : GenerationResultRead} (wallet : read.result = some result)
    (walletAgain : later.result = some next) :
    (read.id = later.id → user = other ∧ result = next) ∧ (read.id ≠ later.id → result.address ≠ next.address) := by
  have sound := answersSound run
  have first := sound.answers _ shown
  have second := sound.answers _ again
  obtain ⟨stored, member, keyed, address, verified, opened⟩ := first.result result wallet
  obtain ⟨kept, memberAgain, keyedAgain, addressAgain, verifiedAgain, openedAgain⟩ := second.result next walletAgain
  constructor
  · intro same
    obtain ⟨request, present, id, owner, -⟩ := first.request
    obtain ⟨requestAgain, presentAgain, idAgain, ownerAgain, -⟩ := second.request
    have one := Table.eq_of_key sound.tables.ids present presentAgain (id.trans (same.trans idAgain.symm))
    have row := Table.eq_of_key sound.tables.jobs member memberAgain (keyed.trans (same.trans keyedAgain.symm))
    subst one
    subst row
    refine ⟨owner.symm.trans ownerAgain, ?_⟩
    have key : result.privateKey = next.privateKey := Option.some.inj (opened.symm.trans openedAgain)
    cases result
    cases next
    simp only [GenerationResultRead.mk.injEq]
    exact ⟨address.symm.trans addressAgain, key, verified.symm.trans verifiedAgain⟩
  · intro different same
    have row := Table.eq_of_key sound.tables.addresses member memberAgain
      (address.trans (same.trans addressAgain.symm))
    subst row
    exact different (keyed.symm.trans keyedAgain)

/-- The double of the generator, shown twice. -/
theorem wallet_shown_twice : ∃ (server : JobServer) (user other : UserId) (read later : GenerationJobRead)
    (result next : GenerationResultRead), server.shown = [(user, read), (other, later)] ∧
      read.result = some result ∧ later.result = some next ∧
      (read.id = later.id → user = other ∧ result = next) ∧ (read.id ≠ later.id → result.address ≠ next.address) := by
  obtain ⟨server, read, result, run, shown, wallet⟩ := double_shown
  have later : (1, read) ∈ server.shown := by
    rw [shown]
    exact List.mem_cons_self
  have earlier : (1, read) ∈ server.shown := by
    rw [shown]
    exact List.mem_cons_of_mem _ List.mem_cons_self
  exact ⟨server, 1, 1, read, read, result, result, shown, wallet, wallet,
    shown_wallets_agree run earlier later wallet wallet⟩

end

end TronForge.Service
