import TronForge.Generator.Effects

/-! When overlapping transactions keep a terminal status: as long as no session
that read the job without its lock goes on to set another status after a
terminal one was committed in between. -/

namespace TronForge.Generator

open Library

variable {verification : Verification} {shared next : Shared} {session : Session}

/-- Another session committed a terminal status after this one read the job,
whose own checks passed and set a different status. -/
def Stale (verification : Verification) (shared : Shared) (session : Session) : Prop :=
  shared.row.status.terminal = true ∧ session.loaded.status ≠ shared.row.status ∧
    ∃ status ∈ session.aim verification, status ≠ shared.row.status

instance (shared : Shared) (session : Session) : Decidable (Stale verification shared session) :=
  inferInstanceAs (Decidable (_ ∧ _ ∧ ∃ status ∈ session.aim verification, _))

/-- A winner event without address or offset, for a job read as terminal but
not as failed. -/
def Unaddressed (verification : Verification) (session : Session) : Prop :=
  session.lacksCandidate = true ∧ session.aim verification ≠ none ∧
    session.loaded.status.terminal = true ∧ session.loaded.status ≠ .failed

instance (session : Session) : Decidable (Unaddressed verification session) :=
  inferInstanceAs (Decidable (_ ∧ _ ∧ _ ∧ _))

/-- No commit of a session that read the job without its lock is stale or lacks
its candidate. -/
def Undisturbed (verification : Verification) (shared : Shared) : Action → Prop
  | .commit id => ∀ session ∈ shared.sessions, session.id = id → session.operation.locking = false →
      ¬ Stale verification shared session ∧ ¬ Unaddressed verification session
  | _ => True

instance (shared : Shared) : (action : Action) → Decidable (Undisturbed verification shared action)
  | .commit _ => inferInstanceAs (Decidable (∀ session ∈ shared.sessions, _))
  | .open_ .. | .lock _ | .abandon _ => inferInstanceAs (Decidable True)

/-- Before any session is opened: a stored result belongs to a ready job. -/
structure Initial (shared : Shared) : Prop where
  sessions : shared.sessions = []
  lock : shared.lock = none
  result : shared.result ≠ none → shared.row.status = .ready ∨ shared.row.status = .ownershipVerified
  acknowledged : shared.acknowledged = false

structure Consistent (shared : Shared) : Prop where
  ids : Table.Unique (·.id) shared.sessions
  existing : ∀ session ∈ shared.sessions, session.operation.inserts = false
  same : ∀ session ∈ shared.sessions, session.loaded.id = shared.row.id
  terminal : ∀ session ∈ shared.sessions, session.loaded.status.terminal = true →
    shared.row.status = session.loaded.status
  fresh : ∀ session ∈ shared.sessions, session.operation.locking = true →
    shared.lock = some session.id ∧ session.loaded = shared.row
  result : shared.result ≠ none → shared.row.status = .ready ∨ shared.row.status = .ownershipVerified
  acknowledged : shared.acknowledged = true → shared.row.status = .canceled

theorem Initial.consistent (initial : Initial shared) : Consistent shared where
  ids := by simp [Table.Unique, initial.sessions]
  existing := by simp [initial.sessions]
  same := by simp [initial.sessions]
  terminal := by simp [initial.sessions]
  fresh := by simp [initial.sessions]
  result := initial.result
  acknowledged := by simp [initial.acknowledged]

theorem mem_close {id : SessionId} :
    session ∈ (shared.close id).sessions ↔ session ∈ shared.sessions ∧ session.id ≠ id := by
  simp [Shared.close]

theorem lock_close {id other : SessionId} (different : other ≠ id) (held : shared.lock = some other) :
    (shared.close id).lock = some other := by
  simp [Shared.close, held, different]

theorem Consistent.close (consistent : Consistent shared) (id : SessionId) :
    Consistent (shared.close id) where
  ids := (List.Sublist.map _ List.filter_sublist).nodup consistent.ids
  existing session member := consistent.existing session (mem_close.mp member).1
  same session member := consistent.same session (mem_close.mp member).1
  terminal session member := consistent.terminal session (mem_close.mp member).1
  fresh session member locking := by
    obtain ⟨present, different⟩ := mem_close.mp member
    obtain ⟨held, loaded⟩ := consistent.fresh session present locking
    exact ⟨lock_close different held, loaded⟩
  result := consistent.result
  acknowledged := consistent.acknowledged

theorem Consistent.open_ (consistent : Consistent shared) {id : SessionId} {operation : Operation}
    {devices : List GpuDevice} {shards : List GenerationShard}
    (opened : shared.open_ id operation devices shards = some next) : Consistent next := by
  unfold Shared.open_ at opened
  split at opened
  · cases opened
  · rename_i allowed
    cases opened
    simp only [not_or, not_exists, not_and] at allowed
    obtain ⟨unused, existing, free⟩ := allowed
    refine ⟨?_, ?_, ?_, ?_, ?_, consistent.result, consistent.acknowledged⟩
    · simp only [Table.Unique, List.map_cons, List.nodup_cons]
      refine ⟨?_, consistent.ids⟩
      intro member
      obtain ⟨other, present, same⟩ := List.mem_map.mp member
      exact unused other present same
    · intro session member
      rcases List.mem_cons.mp member with rfl | old
      · simpa using existing
      · exact consistent.existing session old
    · intro session member
      rcases List.mem_cons.mp member with rfl | old
      · rfl
      · exact consistent.same session old
    · intro session member terminal
      rcases List.mem_cons.mp member with rfl | old
      · rfl
      · exact consistent.terminal session old terminal
    · intro session member locking
      rcases List.mem_cons.mp member with rfl | old
      · exact ⟨by simp only [locking, ↓reduceIte], rfl⟩
      · obtain ⟨held, loaded⟩ := consistent.fresh session old locking
        refine ⟨?_, loaded⟩
        cases takes : operation.locking with
        | false => simpa [takes] using held
        | true => exact absurd (free takes) (by simp [held])

theorem Consistent.take (consistent : Consistent shared) (taken : shared.take session = some next) :
    Consistent next := by
  unfold Shared.take at taken
  split at taken
  · rename_i allowed
    cases taken
    have old : ∀ other ∈ Table.modify (·.id) session.id
        (fun session => { session with seen := shared.result }) shared.sessions,
        ∃ before ∈ shared.sessions, other.operation = before.operation ∧ other.loaded = before.loaded := by
      intro other member
      rcases Table.mem_modify member with ⟨before, present, -, rfl⟩ | ⟨present, -⟩
      · exact ⟨before, present, rfl, rfl⟩
      · exact ⟨other, present, rfl, rfl⟩
    refine ⟨consistent.ids.modify fun _ _ => rfl, ?_, ?_, ?_, ?_, consistent.result,
      consistent.acknowledged⟩
    · intro other member
      obtain ⟨before, present, operation, -⟩ := old other member
      exact operation ▸ consistent.existing before present
    · intro other member
      obtain ⟨before, present, -, loaded⟩ := old other member
      exact loaded ▸ consistent.same before present
    · intro other member
      obtain ⟨before, present, -, loaded⟩ := old other member
      exact loaded ▸ consistent.terminal before present
    · intro other member locking
      obtain ⟨before, present, operation, -⟩ := old other member
      obtain ⟨held, -⟩ := consistent.fresh before present (operation ▸ locking)
      simp [allowed.2] at held
  · cases taken

/-- What a committed write did, beside what the operation left in the view. -/
structure Wrote (session : Session) (aim : Option JobStatus) (shared next : Shared) : Prop where
  sessions : ∀ other ∈ next.sessions, other ∈ shared.sessions ∧ other.id ≠ session.id
  ids : Table.Unique (·.id) next.sessions
  id : next.row.id = shared.row.id
  status : next.row.status = shared.row.status ∨
    ∃ status ∈ aim, status ≠ session.loaded.status ∧ next.row.status = status
  aimed : ∀ status ∈ aim, status ≠ session.loaded.status → next.row.status = status
  others : ∀ other, other ≠ session.id → shared.lock = some other →
    next.row = shared.row ∧ next.lock = some other
  result : next.result = shared.result ∨ aim = some .ready
  acknowledged : next.acknowledged = (shared.acknowledged || session.acknowledges)

theorem write_wrote (consistent : Consistent shared) {after : Database} {aim : Option JobStatus}
    {changed : GenerationJob}
    (leaves : Leaves aim session.loaded session.seen.toList after changed)
    (written : shared.write session after = some next) : Wrote session aim shared next := by
  have found : (after.job? session.loaded.id).getD session.loaded = changed := by
    have known : after.job? session.loaded.id = some changed := by
      simp [Database.job?, Table.lookup, leaves.jobs, leaves.id]
    simp [known]
  unfold Shared.write at written
  simp only [found] at written
  split at written
  · cases written
  · split at written
    · cases written
    · rename_i mayWrite
      split at written
      · cases written
      · cases written
        refine ⟨?_, ?_, rfl, ?_, ?_, ?_, ?_, rfl⟩
        · intro other member
          exact mem_close.mp member
        · exact (List.Sublist.map _ List.filter_sublist).nodup consistent.ids
        · by_cases kept : changed.status = session.loaded.status
          · left
            simp [Shared.close, flush, column, kept]
          · right
            cases aim with
            | none => exact absurd leaves.status kept
            | some status =>
              have set : changed.status = status := leaves.status
              refine ⟨status, rfl, set ▸ kept, ?_⟩
              simpa [Shared.close, flush, column, kept] using set
        · intro status member different
          obtain rfl := member
          have set : changed.status = status := leaves.status
          simp [Shared.close, flush, column, set, different]
        · intro other different held
          have unchanged : changed = session.loaded := by
            by_contra writes
            apply mayWrite
            refine ⟨writes, by simp [held], ?_⟩
            rw [held]
            simpa using different
          exact ⟨by simp [Shared.close, unchanged], lock_close different held⟩
        · rcases leaves.results with same | ⟨ready, -⟩
          · left
            have unchanged : after.results = session.view.results := same
            simp [Shared.close, unchanged]
          · exact .inr ready

/-- A write keeps the stored status if its session sets no other one. -/
theorem Wrote.keeps_terminal {aim : Option JobStatus} (wrote : Wrote session aim shared next)
    (aimed : ∀ status ∈ aim, status ≠ session.loaded.status → status = shared.row.status) :
    next.row.status = shared.row.status := by
  rcases wrote.status with same | ⟨status, member, different, set⟩
  · exact same
  · exact set.trans (aimed status member different)

theorem aim_undisturbed (notStale : ¬ Stale verification shared session)
    (addressed : ¬ Unaddressed verification session) (terminal : shared.row.status.terminal = true)
    {status : JobStatus} (member : status ∈ session.aim verification)
    (different : status ≠ session.loaded.status) : status = shared.row.status := by
  by_contra other
  by_cases same : session.loaded.status = shared.row.status
  · have loadedTerminal : session.loaded.status.terminal = true := same ▸ terminal
    obtain ⟨rfl, lacks⟩ := Session.aim_terminal member loadedTerminal
    refine addressed ⟨lacks, ?_, loadedTerminal, fun failed => different failed.symm⟩
    rw [member]
    simp
  · exact notStale ⟨terminal, same, status, member, other⟩

/-- Once a write keeps terminal statuses, it keeps the whole invariant. -/
theorem Consistent.wrote (consistent : Consistent shared) {aim : Option JobStatus}
    (wrote : Wrote session aim shared next)
    (kept : shared.row.status.terminal = true → next.row.status = shared.row.status)
    (ready : aim = some .ready → session.loaded.status ≠ .ready)
    (answered : session.acknowledges = true → next.row.status = .canceled) : Consistent next where
  ids := wrote.ids
  existing other member := consistent.existing other (wrote.sessions other member).1
  same other member := (consistent.same other (wrote.sessions other member).1).trans wrote.id.symm
  terminal other member terminal := by
    have same := consistent.terminal other (wrote.sessions other member).1 terminal
    rw [kept (same ▸ terminal)]
    exact same
  fresh other member locking := by
    obtain ⟨present, different⟩ := wrote.sessions other member
    obtain ⟨held, loaded⟩ := consistent.fresh other present locking
    obtain ⟨row, lock⟩ := wrote.others other.id different held
    exact ⟨lock, loaded.trans row.symm⟩
  result stored := by
    rcases wrote.result with same | set
    · rw [same] at stored
      have status := consistent.result stored
      have terminal : shared.row.status.terminal = true := by
        rcases status with same | same <;> simp [same, JobStatus.terminal]
      rw [kept terminal]
      exact status
    · left
      exact wrote.aimed .ready set fun same => ready set same.symm
  acknowledged answer := by
    rw [wrote.acknowledged, Bool.or_eq_true] at answer
    rcases answer with before | now
    · have canceled := consistent.acknowledged before
      rw [kept (by simp [canceled, JobStatus.terminal])]
      exact canceled
    · exact answered now

/-- An undisturbed commit keeps the invariant and every terminal status. -/
theorem Consistent.commit (consistent : Consistent shared) {after : Database}
    (member : session ∈ shared.sessions)
    (undisturbed : session.operation.locking = false →
      ¬ Stale verification shared session ∧ ¬ Unaddressed verification session)
    (performed : perform verification session.operation session.view = some after)
    (written : shared.write session after = some next) :
    Consistent next ∧ (shared.row.status.terminal = true → next.row.status = shared.row.status) := by
  cases locking : session.operation.locking with
  | true =>
    obtain ⟨aim, changed, leaves, accepting⟩ := session.leaves_locking locking performed
    have wrote := write_wrote consistent leaves written
    obtain ⟨-, loaded⟩ := consistent.fresh session member locking
    have kept : shared.row.status.terminal = true → next.row.status = shared.row.status := by
      intro terminal
      apply wrote.keeps_terminal
      intro status aimed _
      have open_ := accepting status aimed
      simp [loaded, JobStatus.accepting_eq_not_terminal, terminal] at open_
    refine ⟨consistent.wrote wrote kept ?_ ?_, kept⟩
    · intro ready same
      have open_ := accepting .ready ready
      simp [same, JobStatus.accepting] at open_
    · intro answered
      have unlocked := (Session.acknowledges_cases verification answered).1
      simp [locking] at unlocked
  | false =>
    obtain ⟨notStale, addressed⟩ := undisturbed locking
    obtain ⟨changed, leaves⟩ := session.leaves locking (consistent.existing session member) performed
    have wrote := write_wrote consistent leaves written
    have kept : shared.row.status.terminal = true → next.row.status = shared.row.status := by
      intro terminal
      apply wrote.keeps_terminal
      intro status aimed different
      exact aim_undisturbed notStale addressed terminal aimed different
    refine ⟨consistent.wrote wrote kept ?_ ?_, kept⟩
    · intro ready same
      have failed := (Session.aim_terminal ready (by simp [same, JobStatus.terminal])).1
      cases failed
    · intro answered
      rcases (Session.acknowledges_cases verification answered).2 with
        canceled | ⟨open_, aimed⟩
      · have terminal : session.loaded.status.terminal = true := by simp [canceled, JobStatus.terminal]
        have same := consistent.terminal session member terminal
        rw [kept (same ▸ terminal)]
        exact same.trans canceled
      · apply wrote.aimed .canceled aimed
        intro same
        simp [← same, JobStatus.terminal] at open_

/-- A committed write of a stale session, or of one that lacks its candidate, does
replace the terminal status. -/
theorem Consistent.disturbed_overwrites (consistent : Consistent shared) {after : Database}
    (member : session ∈ shared.sessions) (unlocked : session.operation.locking = false)
    (disturbed : Stale verification shared session ∨ Unaddressed verification session)
    (performed : perform verification session.operation session.view = some after)
    (written : shared.write session after = some next) :
    shared.row.status.terminal = true ∧ next.row.status ≠ shared.row.status := by
  obtain ⟨changed, leaves⟩ := session.leaves unlocked (consistent.existing session member) performed
  have wrote := write_wrote consistent leaves written
  rcases disturbed with ⟨terminal, apart, status, aimed, other⟩ | ⟨-, aims, terminal, notFailed⟩
  · have notTerminal : session.loaded.status.terminal ≠ true :=
      fun loaded => apart (consistent.terminal session member loaded).symm
    have different : status ≠ session.loaded.status := by
      rintro rfl
      rcases Session.aim_cases aimed with loaded | ⟨queued, active⟩
      · exact notTerminal loaded
      · simp [queued, JobStatus.active] at active
    rw [wrote.aimed status aimed different]
    exact ⟨terminal, other⟩
  · obtain ⟨status, aimed⟩ := Option.ne_none_iff_exists'.mp aims
    obtain ⟨rfl, -⟩ := Session.aim_terminal aimed terminal
    have same := consistent.terminal session member terminal
    rw [wrote.aimed .failed aimed fun failed => notFailed failed.symm, same]
    exact ⟨terminal, fun failed => notFailed failed.symm⟩

theorem Consistent.step (consistent : Consistent shared) {action : Action}
    (undisturbed : Undisturbed verification shared action)
    (stepped : overlapStep verification action shared = some next) :
    Consistent next ∧ (shared.row.status.terminal = true → next.row.status = shared.row.status) := by
  cases action with
  | open_ id operation devices shards =>
    refine ⟨consistent.open_ stepped, fun _ => ?_⟩
    simp only [overlapStep, Shared.open_] at stepped
    split at stepped
    · cases stepped
    · cases stepped
      rfl
  | lock id =>
    obtain ⟨session, -, taken⟩ := Option.bind_eq_some_iff.mp stepped
    refine ⟨consistent.take taken, fun _ => ?_⟩
    unfold Shared.take at taken
    split at taken
    · cases taken
      rfl
    · cases taken
  | commit id =>
    obtain ⟨session, found, rest⟩ := Option.bind_eq_some_iff.mp stepped
    obtain ⟨after, performed, written⟩ := Option.bind_eq_some_iff.mp rest
    have member := Table.mem_of_lookup found
    exact consistent.commit member (undisturbed session member (Table.key_of_lookup found)) performed
      written
  | abandon id =>
    cases stepped
    exact ⟨consistent.close id, fun _ => rfl⟩

/-- The condition is exact: a step that fails it replaces a terminal status. -/
theorem Consistent.undisturbed_iff (consistent : Consistent shared) {action : Action}
    (stepped : overlapStep verification action shared = some next) :
    Undisturbed verification shared action ↔
      (shared.row.status.terminal = true → next.row.status = shared.row.status) := by
  refine ⟨fun undisturbed => (consistent.step undisturbed stepped).2, fun kept => ?_⟩
  cases action with
  | commit id =>
    obtain ⟨session, found, rest⟩ := Option.bind_eq_some_iff.mp stepped
    obtain ⟨after, performed, written⟩ := Option.bind_eq_some_iff.mp rest
    intro other member named unlocked
    have key := (Table.key_of_lookup found).trans named.symm
    obtain rfl := Table.eq_of_key consistent.ids (Table.mem_of_lookup found) member key
    rw [← not_or]
    intro disturbed
    obtain ⟨terminal, replaced⟩ := consistent.disturbed_overwrites member unlocked disturbed performed written
    exact replaced (kept terminal)
  | _ => trivial

/-- The runs in which no unlocked session is disturbed. -/
abbrev UndisturbedRun (verification : Verification) : Shared → Shared → Prop :=
  (overlap verification).Run (Undisturbed verification)

theorem UndisturbedRun.consistent {start : Shared} (run : UndisturbedRun verification start shared)
    (initial : Consistent start) : Consistent shared :=
  Machine.Run.invariant run (fun _ _ _ consistent undisturbed stepped =>
    (consistent.step undisturbed stepped).1) initial

theorem UndisturbedRun.keeps_terminal {later : Shared} (run : UndisturbedRun verification shared later)
    (consistent : Consistent shared) (terminal : shared.row.status.terminal = true) :
    later.row.status = shared.row.status := by
  have both : Consistent later ∧ later.row.status = shared.row.status := by
    apply Machine.Run.invariant run
    · intro before action after ⟨consistent, same⟩ undisturbed stepped
      obtain ⟨consistentAfter, kept⟩ := consistent.step undisturbed stepped
      exact ⟨consistentAfter, (kept (same ▸ terminal)).trans same⟩
    · exact ⟨consistent, rfl⟩
  exact both.2

/-- In every undisturbed run a terminal status is final, a stored result
excludes the canceled, timed out and queued statuses, and a job whose cancel
was acknowledged is not ready. A next step keeps a terminal status if and only if
it is undisturbed. -/
theorem terminal_status_kept {start : Shared} (initial : Initial start)
    (run : UndisturbedRun verification start shared) :
    (shared.row.status.terminal = true → ∀ later, UndisturbedRun verification shared later →
      later.row.status = shared.row.status) ∧
    (shared.result ≠ none → shared.row.status ≠ .canceled ∧ shared.row.status ≠ .timedOut ∧
      shared.row.status ≠ .queued) ∧
    (shared.acknowledged = true → shared.row.status ≠ .ready) ∧
    ∀ action next, overlapStep verification action shared = some next →
      (Undisturbed verification shared action ↔
        (shared.row.status.terminal = true → next.row.status = shared.row.status)) := by
  have consistent := run.consistent initial.consistent
  refine ⟨?_, ?_, ?_, fun action next stepped => consistent.undisturbed_iff stepped⟩
  · intro terminal later rest
    exact rest.keeps_terminal consistent terminal
  · intro stored
    rcases consistent.result stored with same | same <;> simp [same]
  · intro answered
    simp [consistent.acknowledged answered]

/-- A verifier that accepts every candidate. -/
def accepting : Verification where
  verifyCandidate _ _ address _ := .ok address
  combinePrivateKey base _ := .ok base
  verifyPrivateKeyAddress _ _ := .ok ()
  decrypt := some
  encrypt _ value := value

/-- A job under search, before any session is opened. -/
def contested : Shared where
  row := { sampleJob with
    status := .searching
    searchOrigin := some 100
    nextOffset := some 150
    startedAt := some 20
    deadlineAt := some 90 }

theorem contested_initial : Initial contested :=
  ⟨rfl, rfl, fun stored => absurd rfl stored, rfl⟩

/-- A candidate is submitted and accepted, then a cancel request finds the job
ready. -/
def submittedFirst : List Action :=
  [.open_ 1 (.submit 1 "worker" "TAabcd" "00" 0 30) [] [], .commit 1,
    .open_ 2 (.cancel 1 1 40) [] [], .commit 2]

def readyShared : Shared :=
  (((overlap accepting).replay (Undisturbed accepting) submittedFirst contested).getD contested)

theorem terminal_status_kept_ready :
    readyShared.result ≠ none ∧ readyShared.row.status ≠ .canceled := by
  have run : UndisturbedRun accepting contested readyShared := Machine.replay_run submittedFirst rfl
  have stored : readyShared.result ≠ none := by
    intro absent
    cases absent
  exact ⟨stored, ((terminal_status_kept contested_initial run).2.1 stored).1⟩

/-- The winner event of the shard leased to the one device. -/
def winnerEvent : WorkerEvent where
  eventType := .found
  gpuUuid := "GPU-0"
  workerPid := 7
  jobId := some 1
  shardId := some 1
  leaseToken := some 1
  processedTotal := 12
  address := some "TAabcd"
  offset := some "6c"

def leasedShard : GenerationShard where
  id := 1
  jobId := 1
  gpuUuid := "GPU-0"
  leaseToken := 1
  rangeStart := 100
  rangeCount := 50
  status := .running
  assignedAt := 25

def busyDevice : GpuDevice where
  uuid := "GPU-0"
  deviceIndex := 0
  name := "sample"
  memoryTotalMb := 24000
  kernelVersion := "v1"
  status := .searching

/-- The cancel request read the job before the candidate was committed. -/
def canceledLast : List Action :=
  [.open_ 1 (.cancel 1 1 30) [] [], .open_ 2 (.submit 1 "worker" "TAabcd" "00" 0 31) [] [], .commit 2,
    .commit 1]

/-- The winner event loaded the job before the cancel request was committed. -/
def acknowledgedFirst : List Action :=
  [.open_ 1 (.record winnerEvent 0 30) [busyDevice] [leasedShard], .open_ 2 (.cancel 1 1 31) [] [],
    .commit 2, .lock 1, .commit 1]

def overlapped (actions : List Action) : Shared :=
  ((overlap accepting).replay Machine.anyAction actions contested).getD contested

/-- A found wallet ends up behind `CANCELED`, and a job whose cancel was
acknowledged ends up `READY`. -/
theorem terminal_status_overwritten :
    ((overlap accepting).Run Machine.anyAction contested (overlapped canceledLast) ∧
      (overlapped canceledLast).result ≠ none ∧
      (overlapped canceledLast).row.status = .canceled) ∧
    ((overlap accepting).Run Machine.anyAction contested (overlapped acknowledgedFirst) ∧
      (overlapped acknowledgedFirst).acknowledged = true ∧
      (overlapped acknowledgedFirst).row.status = .ready) := by
  refine ⟨⟨Machine.replay_run canceledLast rfl, ?_, rfl⟩, Machine.replay_run acknowledgedFirst rfl, rfl, rfl⟩
  intro absent
  cases absent

end TronForge.Generator
