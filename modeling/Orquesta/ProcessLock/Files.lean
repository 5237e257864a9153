import Orquesta.Library.Script

/-!
# The process lock

Processes take turns by a lock file.  A process writes a candidate under a name that is used
once, and links it to the name of the lock, which fails while a lock is there.  The lock of a
process that is dead is removed by whoever creates the recovery claim of that lock, and a claim
is removed by nobody else: a process that dies with one leaves the lock to an explicit repair.

`acquireExclusiveProcessLock` and `releaseExclusiveProcessLock` are scripts of operations on
these files.  One operation is one access to one name.  A file is created empty and then
written, and a process may stop between any two operations.

Whatever is done under the lock is a `Call`: it acquires the lock, does its operation on what
the lock protects, releases the lock and returns.

The names of a lock are made from one path, and what is written in its files is made by the code
itself; so path checks, the making of directories, and the formats of nonces and times are left
out, as are failures of the file system other than `EEXIST` and `ENOENT`.

## Main definitions

* `Locks`: the files, and what is known about processes
* `acquireExclusiveProcessLock`, `recoverDeadLock`, `releaseExclusiveProcessLock`
* `Call`, `Call.step`, `withLock`
* `Locks.Free`: the lock can be taken

## Main results

* `acquire_of_free`, `acquire_of_not_free`: when the lock is taken
* `Acquires.of_free`, `Acquires.of_returns`: what a call returns
* `Call.Stops.operation`: where a call stops, its operation may stop
-/

namespace Orquesta.ProcessLock

open Script Function

/-- A UUID, as a number. -/
abbrev Nonce := Nat

/-! ## The files -/

/-- What `process.kill(pid, 0)` tells. -/
inductive ProcessState
  | live | dead | unverifiable
deriving DecidableEq

/-- What is read of a lock file; the other members are made from these. -/
structure Metadata where
  pid : Nat
  nonce : Nonce
deriving DecidableEq

/-- The names of a lock. -/
inductive Path
  | lock
  | candidate (nonce : Nonce)
  | recovery (nonce : Nonce)
deriving DecidableEq

/-- A file, known by the attempt that has created it: `dev` and `ino`. -/
inductive Inode
  | candidate (nonce : Nonce)
  | claim (nonce : Nonce)
deriving DecidableEq

/-- The attempt that has created the file. -/
def Inode.nonce : Inode → Nonce
  | candidate nonce => nonce
  | claim nonce => nonce

structure Locks where
  /-- The file of a name. -/
  entry : Path → Option Inode
  /-- The content of a file, once it is complete. -/
  content : Inode → Option Metadata
  processState : Nat → ProcessState

namespace Locks

variable (L : Locks) (path : Path) (file : Inode) (metadata : Metadata) (pid : Nat)

def create : Locks :=
  { L with entry := update L.entry path (some file), content := update L.content file none }

def write : Locks := { L with content := update L.content file (some metadata) }

def link : Locks := { L with entry := update L.entry path (some file) }

def remove : Locks := { L with entry := update L.entry path none }

/-- The process is dead. -/
def die : Locks := { L with processState := update L.processState pid .dead }

end Locks

/-! ## Failures -/

inductive FailureCode
  | locked | unverifiable | unavailable | recoveryRequired | recoveryFailed | lost | noEntry
deriving DecidableEq

def FailureCode.text (codePrefix : String) : FailureCode → String
  | locked => codePrefix ++ "_LOCKED"
  | unverifiable => codePrefix ++ "_LOCK_UNVERIFIABLE"
  | unavailable => codePrefix ++ "_LOCK_UNAVAILABLE"
  | recoveryRequired => codePrefix ++ "_LOCK_RECOVERY_REQUIRED"
  | recoveryFailed => codePrefix ++ "_LOCK_RECOVERY_FAILED"
  | lost => codePrefix ++ "_LOCK_LOST"
  | noEntry => "ENOENT"

structure Failure where
  code : FailureCode
  message : String

abbrev Op := Script Locks Failure

/-! ## Operations -/

/-- `realRegularFile` -/
def realRegularFile (path : Path) : Op (Option Inode) := reads (·.entry path)

/-- `open(path, "wx")`; the result is whether the file was created. -/
def openExclusive (path : Path) (file : Inode) : Op Bool :=
  .op (fun L => if L.entry path = none then L.create path file else L) fun L =>
    pure (L.entry path = none)

/-- `linkSync`, of the candidate to the name of the lock; the result is whether the name was
free. -/
def linkCandidate (nonce : Nonce) : Op Bool :=
  .op (fun L => match L.entry (.candidate nonce) with
      | some file => if L.entry .lock = none then L.link .lock file else L
      | none => L)
    fun L => if L.entry (.candidate nonce) = none then
        fail ⟨.unavailable, "Process lock could not be published atomically"⟩
      else pure (L.entry .lock = none)

def unlink (path : Path) : Op Unit :=
  .op (·.remove path) fun L =>
    if L.entry path = none then fail ⟨.noEntry, "no such file or directory, unlink"⟩ else pure ()

def processState (pid : Nat) : Op ProcessState := reads (·.processState pid)

def readMetadata (path : Path) : Op (Option (Metadata × Inode)) := do
  match ← realRegularFile path with
  | none => return none
  | some before =>
    match ← reads fun L => (L.entry path).map L.content with
    | none => return none
    | some none => fail ⟨.unverifiable, "Process lock metadata could not be read"⟩
    | some (some metadata) =>
      match ← realRegularFile path with
      | none => return none
      | some after =>
        check (before = after) ⟨.unverifiable, "Process lock changed while it was inspected"⟩
        return some (metadata, after)

/-- The result is whether the file was created; `EEXIST` is the other outcome. -/
def writeCandidate (path : Path) (file : Inode) (metadata : Metadata) : Op Bool := do
  if ← openExclusive path file then
    act (·.write file metadata)
    let details ← realRegularFile path
    check (details = some file)
      ⟨.unavailable, "Process lock candidate identity changed after write"⟩
    return true
  else return false

def unlinkOwned (path : Path) (file : Inode) : Op Unit := do
  let current ← realRegularFile path
  check (current = some file) ⟨.lost, "Process lock artifact ownership changed"⟩
  unlink path

/-- The part of `recoverDeadLock` that has the claim. -/
def removeDeadLock (observed : Metadata × Inode) : Op Unit := do
  match ← readMetadata .lock with
  | none => return ()
  | some current =>
    if current ≠ observed then return ()
    else match ← processState current.1.pid with
      | .live => fail ⟨.locked, "Process lock owner is live after recovery claim"⟩
      | .unverifiable => fail ⟨.unverifiable, "Process lock owner liveness is unverifiable"⟩
      | .dead =>
        let candidate ← realRegularFile (.candidate current.1.nonce)
        check (candidate = some current.2)
          ⟨.recoveryFailed, "Dead process lock candidate identity is unavailable"⟩
        unlinkOwned .lock current.2
        unlinkOwned (.candidate current.1.nonce) current.2

/-- `recoverDeadLock`, by the process and in the attempt with the nonce. -/
def recoverDeadLock (pid : Nat) (nonce : Nonce) : Op Unit := do
  match ← readMetadata .lock with
  | none => return ()
  | some observed =>
    match ← processState observed.1.pid with
    | .live => fail ⟨.locked, "Process lock is held by another live operation"⟩
    | .unverifiable => fail ⟨.unverifiable, "Process lock owner liveness is unverifiable"⟩
    | .dead =>
      let path := Path.recovery observed.1.nonce
      match ← (writeCandidate path (.claim nonce) ⟨pid, nonce⟩).settle with
      | .error _ => fail ⟨.recoveryFailed, "Dead process lock could not be claimed for recovery"⟩
      | .ok false =>
        fail ⟨.recoveryRequired,
          "Dead-owner recovery is already claimed; retry after it finishes " ++
          "or explicitly resolve the stranded claim"⟩
      | .ok true =>
        let outcome ← (removeDeadLock observed).settle
        unlinkOwned path (.claim nonce)
        attempt outcome

structure Lock where
  metadata : Metadata
  details : Inode

/-- The attempts of `acquireExclusiveProcessLock`, each with its nonce. -/
def acquireAttempts (pid : Nat) : List Nonce → Op Lock
  | [] => fail ⟨.unavailable, "Process lock acquisition did not converge"⟩
  | nonce :: rest => do
    let file := Inode.candidate nonce
    if ← writeCandidate (.candidate nonce) file ⟨pid, nonce⟩ then
      match ← (linkCandidate nonce).settle with
      | .error e =>
        unlinkOwned (.candidate nonce) file
        fail e
      | .ok false =>
        unlinkOwned (.candidate nonce) file
        recoverDeadLock pid nonce
        acquireAttempts pid rest
      | .ok true =>
        let published ← readMetadata .lock
        let candidate ← realRegularFile (.candidate nonce)
        check (published.map Prod.snd = some file ∧ candidate = some file)
          ⟨.unverifiable, "Published process lock identity is not exact"⟩
        return ⟨⟨pid, nonce⟩, file⟩
    else acquireAttempts pid rest

/-- `acquireExclusiveProcessLock`, by the process and with the nonces that `randomUUID` returns. -/
def acquireExclusiveProcessLock (pid : Nat) (nonce : Nat → Nonce) : Op Lock :=
  acquireAttempts pid ((List.range 4).map nonce)

def releaseExclusiveProcessLock (lock : Lock) : Op Unit := do
  let path := Path.candidate lock.metadata.nonce
  let published ← readMetadata .lock
  let candidate ← readMetadata path
  check (∀ found ∈ [published, candidate],
      found.map (fun (metadata, file) => (metadata.nonce, file)) =
        some (lock.metadata.nonce, lock.details))
    ⟨.lost, "Process lock ownership was lost before release"⟩
  unlinkOwned .lock lock.details
  unlinkOwned path lock.details

/-! ## Calls under the lock -/

/-- The lock files, and what the lock protects. -/
structure Shared (τ : Type) where
  locks : Locks
  store : τ

/-- What a call still has to do. -/
inductive Call (τ ε α : Type)
  | acquiring (script : Op Lock) (operation : Script τ ε α)
  | holding (lock : Lock) (operation : Script τ ε α)
  | releasing (script : Op Unit) (result : Except ε α)
  | returned (result : Except (Failure ⊕ ε) α)

variable {τ ε α : Type}

/-- A lock that cannot be released fails a call that has not failed. -/
def outcome (released : Except Failure Unit) : Except ε α → Except (Failure ⊕ ε) α
  | .error e => .error (.inr e)
  | .ok a =>
    match released with
    | .ok () => .ok a
    | .error e => .error (.inl e)

/-- The next operation of a call. -/
def Call.step : Call τ ε α → Shared τ → Call τ ε α × Shared τ
  | acquiring (.op effect next) operation, s =>
    (acquiring (next s.locks) operation, { s with locks := effect s.locks })
  | acquiring (.done (.ok lock)) operation, s => (holding lock operation, s)
  | acquiring (.done (.error e)) _, s => (returned (.error (.inl e)), s)
  | holding lock (.op effect next), s =>
    (holding lock (next s.store), { s with store := effect s.store })
  | holding lock (.done result), s => (releasing (releaseExclusiveProcessLock lock) result, s)
  | releasing (.op effect next) result, s =>
    (releasing (next s.locks) result, { s with locks := effect s.locks })
  | releasing (.done released) result, s => (returned (outcome released result), s)
  | returned result, s => (returned result, s)

/-- The call and what it has made of the files, after so many operations. -/
def Call.after : Nat → Call τ ε α → Shared τ → Call τ ε α × Shared τ
  | 0, call, s => (call, s)
  | n + 1, call, s => after n (call.step s).1 (call.step s).2

/-- The call, begun in the first state, may stop in the second. -/
def Call.Stops (call : Call τ ε α) (s t : Shared τ) : Prop := ∃ n, (call.after n s).2 = t

/-- The call, begun in the state and not disturbed, returns. -/
def Call.Returns (call : Call τ ε α) (s t : Shared τ) (result : Except (Failure ⊕ ε) α) : Prop :=
  ∃ n, call.after n s = (.returned result, t)

/-- `withLock`, by the process and with the nonces that `randomUUID` returns. -/
def withLock (pid : Nat) (nonce : Nat → Nonce) (operation : Script τ ε α) : Call τ ε α :=
  .acquiring (acquireExclusiveProcessLock pid nonce) operation

/-! ## Where a call stops -/

section Stops

variable {s t : Shared τ}

theorem Call.stops_iff {call : Call τ ε α} :
    call.Stops s t ↔ t = s ∨ (call.step s).1.Stops (call.step s).2 t := by
  constructor
  · rintro ⟨n, rfl⟩
    cases n with
    | zero => exact .inl rfl
    | succ n => exact .inr ⟨n, rfl⟩
  · rintro (rfl | ⟨n, rfl⟩)
    · exact ⟨0, rfl⟩
    · exact ⟨n + 1, rfl⟩

theorem Call.store_of_returned {result : Except (Failure ⊕ ε) α}
    (h : (returned result : Call τ ε α).Stops s t) : t.store = s.store := by
  obtain ⟨n, rfl⟩ := h
  induction n with
  | zero => rfl
  | succ n ih => exact ih

theorem Call.store_of_releasing {script : Op Unit} {result : Except ε α}
    (h : (releasing script result : Call τ ε α).Stops s t) : t.store = s.store := by
  induction script generalizing s with
  | done released =>
    rcases stops_iff.mp h with rfl | h
    · rfl
    · exact store_of_returned h
  | op effect next ih =>
    rcases stops_iff.mp h with rfl | h
    · rfl
    · exact (ih _ h :)

theorem Call.operation_of_holding {lock : Lock} {operation : Script τ ε α}
    (h : (holding lock operation).Stops s t) : operation.Stops s.store t.store := by
  induction operation generalizing s with
  | done result =>
    rcases stops_iff.mp h with rfl | h
    · exact rfl
    · exact store_of_releasing h
  | op effect next ih =>
    rcases stops_iff.mp h with rfl | h
    · exact .inl rfl
    · exact .inr (ih s.store h)

/-- Where a call stops, what the lock protects is as if its operation had stopped. -/
theorem Call.Stops.operation {script : Op Lock} {operation : Script τ ε α}
    (h : (acquiring script operation).Stops s t) : operation.Stops s.store t.store := by
  induction script generalizing s with
  | done acquired =>
    rcases stops_iff.mp h with rfl | h
    · exact stops_after 0 operation _
    · cases acquired with
      | ok lock => exact operation_of_holding h
      | error e =>
        rw [store_of_returned h]
        exact stops_after 0 operation _
  | op effect next ih =>
    rcases stops_iff.mp h with rfl | h
    · exact stops_after 0 operation _
    · exact (ih _ h :)

end Stops

/-! ## What a call returns -/

section Returns

variable {s t : Shared τ} {result : Except (Failure ⊕ ε) α}

theorem Call.returns_iff {call : Call τ ε α} :
    call.Returns s t result ↔ (call.step s).1.Returns (call.step s).2 t result := by
  constructor
  · rintro ⟨n, hn⟩
    cases n with
    | zero =>
      cases hn
      exact ⟨0, rfl⟩
    | succ n => exact ⟨n, hn⟩
  · rintro ⟨n, hn⟩
    exact ⟨n + 1, hn⟩

theorem Call.returns_returned {r : Except (Failure ⊕ ε) α} :
    (returned r : Call τ ε α).Returns s t result ↔ t = s ∧ result = r := by
  constructor
  · rintro ⟨n, hn⟩
    induction n with
    | zero =>
      cases hn
      exact ⟨rfl, rfl⟩
    | succ n ih => exact ih hn
  · rintro ⟨rfl, rfl⟩
    exact ⟨0, rfl⟩

theorem Call.returns_releasing {script : Op Unit} {r : Except ε α} :
    (releasing script r : Call τ ε α).Returns s t result ↔
      t = { s with locks := (script.run s.locks).1 } ∧
      result = outcome (script.run s.locks).2 r := by
  induction script generalizing s with
  | done released => exact returns_iff.trans returns_returned
  | op effect next ih => exact returns_iff.trans (ih s.locks)

theorem Call.returns_holding {lock : Lock} {operation : Script τ ε α} :
    (holding lock operation).Returns s t result ↔
      t = ⟨((releaseExclusiveProcessLock lock).run s.locks).1, (operation.run s.store).1⟩ ∧
        result = outcome ((releaseExclusiveProcessLock lock).run s.locks).2
          (operation.run s.store).2 := by
  induction operation generalizing s with
  | done r => exact returns_iff.trans returns_releasing
  | op effect next ih => exact returns_iff.trans (ih s.store)

/-- A call that gets the lock does its operation and releases the lock, and one that does not get
it fails. -/
theorem Call.returns_acquiring {script : Op Lock} {operation : Script τ ε α} :
    (acquiring script operation).Returns s t result ↔ match script.run s.locks with
      | (L, .ok lock) => (holding lock operation).Returns ⟨L, s.store⟩ t result
      | (L, .error e) => t = ⟨L, s.store⟩ ∧ result = .error (.inl e) := by
  induction script generalizing s with
  | done acquired =>
    cases acquired with
    | ok lock => exact returns_iff
    | error e => exact returns_iff.trans returns_returned
  | op effect next ih => exact returns_iff.trans (ih s.locks)

end Returns

/-! ## When the lock is taken -/

/-- An acquisition that nothing disturbs gets the lock: there is none, or it is the lock of a dead
process, whose candidate is there and which nobody has claimed. -/
def Locks.Free (L : Locks) : Prop :=
  ∀ file ∈ L.entry .lock, ∃ metadata ∈ L.content file, L.processState metadata.pid = .dead ∧
    L.entry (.recovery metadata.nonce) = none ∧ L.entry (.candidate metadata.nonce) = some file

/-- No file was created with one of the nonces. -/
structure Locks.Unused (L : Locks) (nonce : Nat → Nonce) : Prop where
  candidate : ∀ k, L.entry (.candidate (nonce k)) = none
  file : ∀ path, ∀ file ∈ L.entry path, ∀ k, file.nonce ≠ nonce k

/-- The lock is published and can be released. -/
structure Locks.Holds (L : Locks) (lock : Lock) : Prop where
  details : lock.details = .candidate lock.metadata.nonce
  published : L.entry .lock = some lock.details
  candidate : L.entry (.candidate lock.metadata.nonce) = some lock.details
  content : L.content lock.details = some lock.metadata

section Run

variable {L : Locks} {path : Path} {file : Inode} {metadata : Metadata}

theorem run_readMetadata (hentry : L.entry path = some file) :
    (readMetadata path).run L = (L, match L.content file with
      | some metadata => .ok (some (metadata, file))
      | none => .error ⟨.unverifiable, "Process lock metadata could not be read"⟩) := by
  cases hcontent : L.content file with
  | none => simp [readMetadata, realRegularFile, hentry, hcontent, fail, run]
  | some metadata => simp [readMetadata, realRegularFile, hentry, hcontent, run_check_pos]

theorem run_writeCandidate (hentry : L.entry path = none) :
    (writeCandidate path file metadata).run L = ((L.create path file).write file metadata,
      .ok true) := by
  have hopen : (openExclusive path file).run L = (L.create path file, .ok true) := by
    simp [openExclusive, hentry, run, pure]
  simp [writeCandidate, hopen, realRegularFile, Locks.create, Locks.write, run_check_pos]

theorem run_unlinkOwned (hentry : L.entry path = some file) :
    (unlinkOwned path file).run L = (L.remove path, .ok ()) := by
  simp [unlinkOwned, realRegularFile, hentry, run_check_pos, unlink, run, pure]

theorem run_release {lock : Lock} (h : L.Holds lock) : (releaseExclusiveProcessLock lock).run L =
    ((L.remove .lock).remove (.candidate lock.metadata.nonce), .ok ()) := by
  have hcandidate : (L.remove .lock).entry (.candidate lock.metadata.nonce) =
      some lock.details := by
    simpa [Locks.remove] using h.candidate
  simp [releaseExclusiveProcessLock, run_readMetadata h.published, run_readMetadata h.candidate,
    h.content, run_check_pos, run_unlinkOwned h.published, run_unlinkOwned hcandidate]

end Run

section Acquire

variable {L : Locks} {pid : Nat} {n : Nonce} {rest : List Nonce} {file : Inode}
    {metadata : Metadata}

/-- The lock files after the lock was taken in the attempt. -/
def Locks.taken (L : Locks) (pid : Nat) (n : Nonce) : Locks :=
  ((L.create (.candidate n) (.candidate n)).write (.candidate n) ⟨pid, n⟩).link .lock (.candidate n)

/-- The lock files after an attempt that has found a lock. -/
def Locks.tried (L : Locks) (pid : Nat) (n : Nonce) : Locks :=
  ((L.create (.candidate n) (.candidate n)).write (.candidate n) ⟨pid, n⟩).remove (.candidate n)

/-- The lock files after the lock of a dead process was claimed in the attempt. -/
def Locks.claimed (L : Locks) (pid : Nat) (n dead : Nonce) : Locks :=
  (L.create (.recovery dead) (.claim n)).write (.claim n) ⟨pid, n⟩

theorem holds_taken : (L.taken pid n).Holds ⟨⟨pid, n⟩, .candidate n⟩ := by
  constructor <;> simp [Locks.taken, Locks.create, Locks.write, Locks.link]

/-- An attempt takes a lock that is not there. -/
theorem run_attempt_of_none (hlock : L.entry .lock = none) (hnew : L.entry (.candidate n) = none) :
    (acquireAttempts pid (n :: rest)).run L = (L.taken pid n, .ok ⟨⟨pid, n⟩, .candidate n⟩) := by
  have hlink : (linkCandidate n).run ((L.create (.candidate n) (.candidate n)).write (.candidate n)
      ⟨pid, n⟩) = (L.taken pid n, .ok true) := by
    simp [linkCandidate, Locks.create, Locks.write, Locks.taken, hlock, run, pure]
  have hholds : (L.taken pid n).Holds ⟨⟨pid, n⟩, .candidate n⟩ := holds_taken
  simp [acquireAttempts, run_writeCandidate hnew, hlink, run_readMetadata hholds.published,
    hholds.content, realRegularFile, hholds.candidate, run_check_pos]

/-- An attempt that finds a lock tries to recover it. -/
theorem run_attempt_of_some (hlock : L.entry .lock = some file)
    (hnew : L.entry (.candidate n) = none) :
    (acquireAttempts pid (n :: rest)).run L =
      andThen ((recoverDeadLock pid n).run (L.tried pid n)) fun _ => acquireAttempts pid rest := by
  have hlink : (linkCandidate n).run ((L.create (.candidate n) (.candidate n)).write (.candidate n)
      ⟨pid, n⟩) = ((L.create (.candidate n) (.candidate n)).write (.candidate n) ⟨pid, n⟩,
      .ok false) := by
    simp [linkCandidate, Locks.create, Locks.write, hlock, run, pure]
  have hunlink : (unlinkOwned (.candidate n) (.candidate n)).run ((L.create (.candidate n)
      (.candidate n)).write (.candidate n) ⟨pid, n⟩) = (L.tried pid n, .ok ()) :=
    run_unlinkOwned (update_self ..)
  simp [acquireAttempts, run_writeCandidate hnew, hlink, hunlink]

theorem tried_entry (hnew : L.entry (.candidate n) = none) : (L.tried pid n).entry = L.entry := by
  rw [← update_eq_self (.candidate n) L.entry, hnew]
  exact update_idem ..

theorem run_processState (pid : Nat) : (processState pid).run L = (L, .ok (L.processState pid)) :=
  rfl

section Recover

variable (hlock : L.entry .lock = some file) (hfile : file.nonce ≠ n)
  (hcontent : L.content file = some metadata) (hdead : L.processState metadata.pid = .dead)
  (hclaim : L.entry (.recovery metadata.nonce) = none)
include hlock hfile hcontent hdead hclaim

omit hfile in
/-- The recovery of a lock that nobody has claimed. -/
theorem run_recover_of_dead : (recoverDeadLock pid n).run L =
    andThen ((removeDeadLock (metadata, file)).settle.run (L.claimed pid n metadata.nonce))
      fun outcome => unlinkOwned (.recovery metadata.nonce) (.claim n) >>= fun _ =>
      attempt outcome := by
  simp only [recoverDeadLock, run_bind, run_readMetadata hlock, hcontent, andThen_ok,
    run_processState, hdead, run_settle, run_writeCandidate hclaim]
  rfl

omit hclaim in
theorem run_removeDeadLock :
    (removeDeadLock (metadata, file)).run (L.claimed pid n metadata.nonce) =
    if L.entry (.candidate metadata.nonce) = some file then
      (((L.claimed pid n metadata.nonce).remove .lock).remove (.candidate metadata.nonce), .ok ())
    else (L.claimed pid n metadata.nonce,
      .error ⟨.recoveryFailed, "Dead process lock candidate identity is unavailable"⟩) := by
  have hcontent' : (L.claimed pid n metadata.nonce).content file = some metadata := by
    have hne : file ≠ .claim n := fun h => hfile (h ▸ rfl)
    simp [Locks.claimed, Locks.create, Locks.write, hne, hcontent]
  have hlock' : (L.claimed pid n metadata.nonce).entry .lock = some file := by
    simpa [Locks.claimed, Locks.create, Locks.write] using hlock
  have hdead' : (L.claimed pid n metadata.nonce).processState metadata.pid = .dead := hdead
  have hcandidate' : (L.claimed pid n metadata.nonce).entry (.candidate metadata.nonce) =
      L.entry (.candidate metadata.nonce) := by
    simp [Locks.claimed, Locks.create, Locks.write]
  split_ifs with hcandidate
  · have hlast : ((L.claimed pid n metadata.nonce).remove .lock).entry (.candidate metadata.nonce) =
        some file := by
      rw [← hcandidate, ← hcandidate']
      simp [Locks.remove]
    simp [removeDeadLock, run_readMetadata hlock', hcontent', run_processState, hdead',
      realRegularFile, hcandidate', hcandidate, run_check_pos, run_unlinkOwned hlock',
      run_unlinkOwned hlast]
  · simp [removeDeadLock, run_readMetadata hlock', hcontent', run_processState, hdead',
      realRegularFile, hcandidate', check, hcandidate, run]

end Recover

variable {nonce : Nat → Nonce}

/-- The names and the processes are as before, and so is every file of another attempt. -/
structure Locks.AsBefore (nonce : Nat → Nonce) (L L' : Locks) : Prop where
  entry : L'.entry = L.entry
  content : ∀ file, (∀ k, file.nonce ≠ nonce k) → L'.content file = L.content file
  processState : L'.processState = L.processState

theorem Locks.AsBefore.free_iff {L' : Locks} (h : L.AsBefore nonce L') (hnew : L.Unused nonce) :
    L'.Free ↔ L.Free := by
  unfold Locks.Free
  rw [h.entry, h.processState]
  refine forall_congr' fun file => forall_congr' fun hfile => ?_
  rw [h.content file (hnew.file _ file hfile)]

theorem Locks.AsBefore.unused {L' : Locks} {nonce' : Nat → Nonce} (h : L.AsBefore nonce L')
    (hnew : L.Unused nonce') : L'.Unused nonce' := by
  obtain ⟨hcandidate, hfile⟩ := hnew
  exact ⟨h.entry ▸ hcandidate, h.entry ▸ hfile⟩

theorem tried_asBefore (pid k : Nat) (hnew : L.Unused nonce) :
    L.AsBefore nonce (L.tried pid (nonce k)) where
  entry := tried_entry (hnew.candidate k)
  content file hfile := by
    have hne : file ≠ .candidate (nonce k) := fun h => hfile k (h ▸ rfl)
    simp [Locks.tried, Locks.create, Locks.write, Locks.remove, hne]
  processState := rfl

/-- A lock that is not free is not recovered. -/
theorem recover_of_not_free (pid k : Nat) (hnew : L.Unused nonce) (h : ¬ L.Free) :
    ∃ L' e, (recoverDeadLock pid (nonce k)).run L = (L', .error e) ∧ L.AsBefore nonce L' := by
  have hsame : L.AsBefore nonce L := ⟨rfl, fun _ _ => rfl, rfl⟩
  obtain ⟨file, hlock, hfree⟩ := not_forall₂.mp h
  have hread := run_readMetadata hlock
  cases hcontent : L.content file with
  | none =>
    rw [hcontent] at hread
    rw [recoverDeadLock, run_bind, hread]
    exact ⟨L, _, rfl, hsame⟩
  | some metadata =>
    rw [hcontent] at hread
    cases hstate : L.processState metadata.pid with
    | live =>
      rw [recoverDeadLock, run_bind, hread, andThen_ok, run_bind, run_processState, hstate]
      exact ⟨L, _, rfl, hsame⟩
    | unverifiable =>
      rw [recoverDeadLock, run_bind, hread, andThen_ok, run_bind, run_processState, hstate]
      exact ⟨L, _, rfl, hsame⟩
    | dead =>
      cases hclaim : L.entry (.recovery metadata.nonce) with
      | some claim =>
        have hopen : (writeCandidate (.recovery metadata.nonce) (.claim (nonce k))
            ⟨pid, nonce k⟩).run L = (L, .ok false) := by
          simp [writeCandidate, openExclusive, hclaim, run, pure, Script.bind, bind]
        simp only [recoverDeadLock, run_bind, hread, andThen_ok, run_processState, hstate,
          run_settle, hopen]
        exact ⟨L, _, rfl, hsame⟩
      | none =>
        have hcandidate : L.entry (.candidate metadata.nonce) ≠ some file := fun hcandidate =>
          hfree ⟨metadata, hcontent, hstate, hclaim, hcandidate⟩
        rw [run_recover_of_dead hlock hcontent hstate hclaim, run_settle,
          run_removeDeadLock hlock (hnew.file _ file hlock k) hcontent hstate, if_neg hcandidate,
          andThen_ok, run_bind, run_unlinkOwned (update_self ..)]
        refine ⟨_, _, rfl, ?_, fun file hfile => ?_, rfl⟩
        · rw [← update_eq_self (.recovery metadata.nonce) L.entry, hclaim]
          exact update_idem ..
        · have hne : file ≠ .claim (nonce k) := fun h => hfile k (h ▸ rfl)
          simp [Locks.claimed, Locks.create, Locks.write, Locks.remove, hne]

/-- A lock that is not free is not taken. -/
theorem acquire_of_not_free (pid : Nat) (hnew : L.Unused nonce) (h : ¬ L.Free) :
    ∃ L' e, (acquireExclusiveProcessLock pid nonce).run L = (L', .error e) ∧
    L.AsBefore nonce L' := by
  obtain ⟨file, hlock, -⟩ := not_forall₂.mp h
  have htried := tried_asBefore pid 0 hnew
  obtain ⟨L', e, hrun, hsame⟩ := recover_of_not_free pid 0 (htried.unused hnew)
    ((htried.free_iff hnew).not.mpr h)
  refine ⟨L', e, ?_, hsame.entry.trans htried.entry, fun file hfile => ?_, hsame.processState⟩
  · exact (run_attempt_of_some hlock (hnew.candidate 0)).trans (by rw [hrun]; rfl)
  · exact (hsame.content file hfile).trans (htried.content file hfile)

/-- What is left of the lock files once a lock was taken and released: names have only gone. -/
structure Locks.Reduced (L L' : Locks) : Prop where
  lock : L'.entry .lock = none
  entry : ∀ path, L'.entry path = none ∨ L'.entry path = L.entry path
  processState : L'.processState = L.processState

theorem reduced_taken : L.Reduced (((L.taken pid n).remove .lock).remove (.candidate n)) where
  lock := by simp [Locks.remove]
  entry path := by
    by_cases hcandidate : path = .candidate n
    · simp [Locks.remove, hcandidate]
    · by_cases hpath : path = .lock
      · simp [Locks.remove, hpath]
      · simp [Locks.remove, Locks.taken, Locks.link, Locks.create, Locks.write, hcandidate, hpath]
  processState := rfl

theorem Locks.Reduced.trans {L₁ L₂ L₃ : Locks} (h : L₁.Reduced L₂) (h' : L₂.Reduced L₃) :
    L₁.Reduced L₃ where
  lock := h'.lock
  entry path := by
    rcases h'.entry path with hnone | hsame
    · exact .inl hnone
    · rw [hsame]
      exact h.entry path
  processState := h'.processState.trans h.processState

/-- What was taken and released is free. -/
theorem Locks.Reduced.free {L L' : Locks} (h : L.Reduced L') : L'.Free := by
  intro file hfile
  rw [h.lock] at hfile
  cases hfile

theorem Locks.Reduced.unused {L L' : Locks} {nonce : Nat → Nonce} (h : L.Reduced L')
    (hnew : L.Unused nonce) : L'.Unused nonce where
  candidate k := by
    rcases h.entry (.candidate (nonce k)) with hnone | hsame
    · exact hnone
    · rw [hsame]
      exact hnew.candidate k
  file path file hfile := by
    rcases h.entry path with hnone | hsame
    · rw [hnone] at hfile
      cases hfile
    · rw [hsame] at hfile
      exact hnew.file path file hfile

/-- The lock of a dead process is recovered. -/
theorem recover_of_free (pid k : Nat) (hnew : L.Unused nonce) (h : L.Free)
    (hlock : L.entry .lock = some file) :
    ∃ L', (recoverDeadLock pid (nonce k)).run L = (L', .ok ()) ∧ L.Reduced L' := by
  obtain ⟨metadata, hcontent, hdead, hclaim, hcandidate⟩ := h file hlock
  refine ⟨(((L.claimed pid (nonce k) metadata.nonce).remove .lock).remove (.candidate
    metadata.nonce)).remove (.recovery metadata.nonce), ?_, ?_⟩
  · rw [run_recover_of_dead hlock hcontent hdead hclaim, run_settle,
      run_removeDeadLock hlock (hnew.file _ file hlock k) hcontent hdead, if_pos hcandidate,
      andThen_ok,
      run_bind, run_unlinkOwned (by simp [Locks.remove, Locks.claimed, Locks.create, Locks.write])]
    rfl
  · refine ⟨by simp [Locks.remove], fun path => ?_, rfl⟩
    by_cases hremoved : path = .recovery metadata.nonce ∨ path = .candidate metadata.nonce ∨
      path = .lock
    · rcases hremoved with rfl | rfl | rfl <;> simp [Locks.remove]
    · obtain ⟨hrecovery, hcandidate, hlock⟩ := not_or.mp hremoved |>.imp_right not_or.mp
      simp [Locks.remove, Locks.claimed, Locks.create, Locks.write, hrecovery, hcandidate, hlock]

/-- A lock that is free is taken, and once it is released it is free again. -/
theorem acquire_of_free (pid : Nat) (hnew : L.Unused nonce) (h : L.Free) :
    ∃ L' lock, (acquireExclusiveProcessLock pid nonce).run L = (L', .ok lock) ∧ L'.Holds lock ∧
      L.Reduced ((L'.remove .lock).remove (.candidate lock.metadata.nonce)) := by
  cases hlock : L.entry .lock with
  | none =>
    exact ⟨_, _, run_attempt_of_none hlock (hnew.candidate 0), holds_taken, reduced_taken⟩
  | some file =>
    -- The first attempt recovers the lock, and the second one takes it.
    have htried := tried_asBefore pid 0 hnew
    obtain ⟨L', hrun, hreduced⟩ := recover_of_free pid 0 (htried.unused hnew)
      ((htried.free_iff hnew).mpr h) (htried.entry ▸ hlock)
    have hreduced' : L.Reduced L' :=
      ⟨hreduced.lock, htried.entry ▸ hreduced.entry, hreduced.processState⟩
    have hsecond := (hreduced'.unused hnew).candidate 1
    have htaken : (acquireExclusiveProcessLock pid nonce).run L =
        (L'.taken pid (nonce 1), .ok ⟨⟨pid, nonce 1⟩, .candidate (nonce 1)⟩) := by
      refine (run_attempt_of_some hlock (hnew.candidate 0)).trans ?_
      rw [hrun, andThen_ok]
      exact run_attempt_of_none hreduced.lock hsecond
    exact ⟨_, _, htaken, holds_taken, hreduced'.trans reduced_taken⟩

end Acquire

/-! ## Calls that nothing disturbs -/

/-- The script takes the lock if it is free, and only then, and once it is released it is free
again. -/
structure Acquires (script : Op Lock) (L : Locks) : Prop where
  taken : L.Free → ∃ L' lock, script.run L = (L', .ok lock) ∧ L'.Holds lock ∧
    L.Reduced ((L'.remove .lock).remove (.candidate lock.metadata.nonce))
  refused : ¬ L.Free → ∃ L' e, script.run L = (L', .error e)

theorem acquires_acquireExclusiveProcessLock {L : Locks} {nonce : Nat → Nonce} (pid : Nat)
    (hnew : L.Unused nonce) : Acquires (acquireExclusiveProcessLock pid nonce) L where
  taken := acquire_of_free pid hnew
  refused h := by
    obtain ⟨L', e, hrun, -⟩ := acquire_of_not_free pid hnew h
    exact ⟨L', e, hrun⟩

section

variable {script : Op Lock} {L : Locks} {operation : Script τ ε α} {s : τ} {t : Shared τ}
  (h : Acquires script L)
include h

/-- If the lock is free, then a call does its operation and returns its result. -/
theorem Acquires.of_free (hfree : L.Free) : ∃ L', L.Reduced L' ∧ ∀ t result,
    (Call.acquiring script operation).Returns ⟨L, s⟩ t result ↔
      t = ⟨L', (operation.run s).1⟩ ∧ result = outcome (.ok ()) (operation.run s).2 := by
  obtain ⟨L₁, lock, hrun, hholds, hreduced⟩ := h.taken hfree
  refine ⟨_, hreduced, fun t result => ?_⟩
  simp only [Call.returns_acquiring, hrun, Call.returns_holding, run_release hholds]

/-- A call does its operation or nothing. -/
theorem Acquires.store {result : Except (Failure ⊕ ε) α}
    (hreturns : (Call.acquiring script operation).Returns ⟨L, s⟩ t result) :
    t.store = s ∨ t.store = (operation.run s).1 := by
  by_cases hfree : L.Free
  · obtain ⟨L', -, hiff⟩ := h.of_free hfree
    exact .inr (((hiff t result).mp hreturns).1 ▸ rfl)
  · obtain ⟨L', e, hrun⟩ := h.refused hfree
    rw [Call.returns_acquiring, hrun] at hreturns
    exact .inl (hreturns.1 ▸ rfl)

/-- A call that succeeds has found the lock free, and its operation has succeeded. -/
theorem Acquires.of_returns {a : α}
    (hreturns : (Call.acquiring script operation).Returns ⟨L, s⟩ t (.ok a)) :
    L.Free ∧ L.Reduced t.locks ∧ operation.run s = (t.store, .ok a) := by
  by_cases hfree : L.Free
  · obtain ⟨L', hreduced, hiff⟩ := h.of_free hfree
    obtain ⟨rfl, hresult⟩ := (hiff t _).mp hreturns
    refine ⟨hfree, hreduced, Prod.ext rfl ?_⟩
    cases hrun : (operation.run s).2 with
    | ok => rw [hrun] at hresult; exact Except.ok.inj hresult ▸ rfl
    | error => rw [hrun] at hresult; cases hresult
  · obtain ⟨L', e, hrun⟩ := h.refused hfree
    rw [Call.returns_acquiring, hrun] at hreturns
    cases hreturns.2

theorem Acquires.returns (hfree : L.Free) {s' : τ} {a : α} (hrun : operation.run s = (s', .ok a)) :
    ∃ L', L.Reduced L' ∧ (Call.acquiring script operation).Returns ⟨L, s⟩ ⟨L', s'⟩ (.ok a) := by
  obtain ⟨L', hreduced, hiff⟩ := h.of_free hfree
  refine ⟨L', hreduced, (hiff _ _).mpr ?_⟩
  rw [hrun]
  exact ⟨rfl, rfl⟩

end

/-! ## The lock of a dead process -/

/-- No lock is there, and all processes are live. -/
def noLocks : Locks := ⟨fun _ => none, fun _ => none, fun _ => .live⟩

/-- What process 1 leaves of the lock when it dies with it. -/
def deadLock : Locks := (noLocks.taken 1 0).die 1

theorem free_deadLock : deadLock.Free := by
  rintro file ⟨⟩
  exact ⟨⟨1, 0⟩, rfl, rfl, rfl, rfl⟩

theorem unused_deadLock : deadLock.Unused (· + 4) where
  candidate _ := rfl
  file path file hfile k := by
    cases path with
    | lock =>
      cases hfile
      exact nofun
    | candidate n =>
      cases n with
      | zero =>
        cases hfile
        exact nofun
      | succ n => cases hfile
    | recovery => cases hfile

end Orquesta.ProcessLock
