import Orquesta.MessageLedger.Records
import Orquesta.ProcessLock.Files

/-!
# The files of a message

The ledger keeps three files for a message: the durable record, an envelope that announces
the next one, and the next record itself, which is then renamed over the durable one.
`record` and `read` are scripts of operations on them.  One operation is one access to one
file; a file is created empty and then written byte by byte, and a script may stop between
any two.

The scripts are what runs while the process lock of the message is held, and `withProcessLock`
acquires it, again and again while another process has it.  Path checks, directory synchronisation,
retries of an operation that failed transiently, and the store of an earlier version, which `record`
and `read` refuse to go on with, are left out.

## Main definitions

* `File`, `Disk`
* `recoverPendingRecord`, `publishRecord`
* `DeliveryInput`, `record`, `read`
* `withProcessLock`

## Main results

* `recordIn_eq_ok`, `envelopeIn_eq_ok`: what is read
* `through_writeExclusive`: what is there while a file is written
-/

namespace Orquesta.MessageLedger

open Script Checked List Function Option

abbrev Bytes := List UInt8

inductive File
  | durable | pending | commit
deriving DecidableEq

abbrev Disk := File → Option Bytes

abbrev Op := Script Disk Failure

def MAX_RECORD_BYTES : Nat := 16 * 1024

variable (P : Platform) (messageId : String)

/-! ## Reading -/

/-- The document in a file, if the file has an admitted size. -/
def parse (limit : Nat) (bytes : Bytes) : Option Document :=
  if bytes.length ≤ 0 ∨ limit < bytes.length then none else P.json.read bytes

/-- `readRecordAt`, of the content of the file. -/
def recordIn : Option Bytes → Except Failure (Option Record)
  | none => .ok none
  | some bytes =>
    match parse P MAX_RECORD_BYTES bytes with
    | some (.record record) =>
      match validateRecord P record messageId with
      | .ok () => .ok (some record)
      | .error .identityConflict => .error .identityConflict
      | .error _ => .error .malformedFailClosed
    | _ => .error .malformedFailClosed

/-- `validatePendingEnvelope`. -/
def validatePendingEnvelope (envelope : Envelope) : Bool :=
  envelope.messageId = messageId && envelope.previousDigest.all isActionFingerprint &&
    isActionFingerprint envelope.nextDigest &&
    (validateRecord P envelope.nextRecord messageId).isOk &&
    (P.digest envelope.nextRecord).text = envelope.nextDigest

/-- `readPendingEnvelope`, of the content of the file. -/
def envelopeIn : Option Bytes → Except Failure (Option Envelope)
  | none => .ok none
  | some bytes =>
    match parse P (MAX_RECORD_BYTES * 2) bytes with
    | some (.envelope envelope) =>
      if validatePendingEnvelope P messageId envelope then .ok (some envelope)
      else .error .pendingFailClosed
    | _ => .error .pendingFailClosed

def readRecordAt (file : File) : Op (Option Record) := do
  let content ← reads (· file)
  attempt (recordIn P messageId content)

def readPendingEnvelope : Op (Option Envelope) := do
  let content ← reads (· .pending)
  attempt (envelopeIn P messageId content)

@[simp] theorem readOnly_readRecordAt (f : File) : (readRecordAt P messageId f).ReadOnly :=
  (readOnly_reads _).bind fun _ => readOnly_attempt _

@[simp] theorem run_readRecordAt (f : File) (d : Disk) :
    (readRecordAt P messageId f).run d = (d, recordIn P messageId (d f)) := rfl

@[simp] theorem readOnly_readPendingEnvelope : (readPendingEnvelope P messageId).ReadOnly :=
  (readOnly_reads _).bind fun _ => readOnly_attempt _

@[simp] theorem run_readPendingEnvelope (d : Disk) :
    (readPendingEnvelope P messageId).run d = (d, envelopeIn P messageId (d .pending)) := rfl

variable {P messageId}

variable {content : Option Bytes}

/-- What a record is read as, if it is read at all. -/
theorem recordIn_eq_ok {found : Option Record} (h : recordIn P messageId content = .ok found) :
    content.map P.json.read = found.map fun r => some (.record r) := by
  cases content with
  | none =>
    cases h
    rfl
  | some bs =>
    simp only [recordIn, parse] at h
    split at h
    · rename_i r hps
      split at hps
      · cases hps
      · split at h <;> cases h
        rw [map_some, hps, map_some]
    · cases h

theorem envelopeIn_eq_ok {found : Option Envelope}
    (h : envelopeIn P messageId content = .ok found) :
    content.map P.json.read = found.map fun env => some (.envelope env) := by
  cases content with
  | none =>
    cases h
    rfl
  | some bs =>
    simp only [envelopeIn, parse] at h
    split at h
    · rename_i env hps
      split at hps
      · cases hps
      · split at h <;> cases h
        rw [map_some, hps, map_some]
    · cases h

theorem eq_none_of_recordIn (h : recordIn P messageId content = .ok none) : content = none := by
  cases content with
  | none => rfl
  | some bs => cases recordIn_eq_ok h

variable (P messageId)

/-! ## Writing -/

def put (file : File) (content : Option Bytes) : Op Unit := act fun disk => update disk file content

def unlink (file : File) : Op Unit := put file none

def append (file : File) (byte : UInt8) : Op Unit :=
  act fun disk => update disk file ((disk file).map (· ++ [byte]))

def writeExclusive (file : File) (bytes : Bytes) : Op Unit := do
  let existing ← reads (· file)
  check (existing = none) .fileExists
  put file (some [])
  forEach bytes (append file)

/-- `rename`, of the next record over the durable one. -/
def renameCommit : Op Unit :=
  act fun disk => update (update disk .durable (disk .commit)) .commit none

section Through

variable {κ : Type} {R : κ → κ → Prop} [Std.Refl R] {G : κ → Disk → Prop} {k : κ} {d : Disk}

/-- A file is written: every beginning of it is there at some time. -/
theorem through_writeExclusive {f : File} {bs : Bytes} {Q : κ → Disk → Except Failure Unit → Prop}
    (hfre : d f = none) (hst : G k d)
    (hG : ∀ n, G k (update d f (some (bs.take n))))
    (hQ : Q k (update d f (some bs)) (.ok ())) :
    (writeExclusive f bs).Through R G k d Q := by
  refine through_reads_bind ?_
  refine through_check_bind hfre ?_
  refine through_act_bind hst (refl_of R k) ?_
  -- The loop has written what is not left to be written.
  have hloop : (forEach bs (append f)).Through R G k (update d f (some [])) fun k' s r =>
      r = .ok () ∧ k' = k ∧ ∃ n, bs.length ≤ n ∧ s = update d f (some (bs.take n)) := by
    refine (through_forEach (fun rest k' s => k' = k ∧ ∃ n, bs.drop n = rest ∧
      s = update d f (some (bs.take n))) ?_ ?_ ⟨rfl, 0, rfl, rfl⟩).imp ?_
    · rintro _ _ _ ⟨rfl, n, -, rfl⟩
      exact hG n
    · rintro byte rest _ _ ⟨rfl, n, hdrop, rfl⟩
      have hn : n < bs.length := by
        by_contra hle
        rw [drop_of_length_le (not_lt.mp hle)] at hdrop
        cases hdrop
      rw [drop_eq_getElem_cons hn] at hdrop
      obtain ⟨rfl, rfl⟩ := cons.inj hdrop
      have hnx : update (update d f (some (bs.take n))) f
          (((update d f (some (bs.take n))) f).map (· ++ [bs[n]])) =
          update d f (some (bs.take (n + 1))) := by
        rw [update_idem, update_self, map_some, take_succ_eq_append_getElem hn]
      refine through_act (hG n) (refl_of R _) ?_ ⟨rfl, rfl, n + 1, rfl, ?_⟩
      · rw [hnx]
        exact hG (n + 1)
      · exact hnx
    · rintro k' s r - ⟨rfl, rfl, n, hdrop, rfl⟩
      exact ⟨rfl, rfl, n, drop_eq_nil_iff.mp hdrop, rfl⟩
  refine hloop.imp ?_
  rintro k' s r - ⟨rfl, rfl, n, hn, rfl⟩
  rw [take_of_length_le hn]
  exact hQ

end Through

/-! ## Recovery and publication -/

def recordDigest (record : Option Record) : Option String :=
  record.map fun record => (P.digest record).text

/-- The next record is renamed over the durable one and read again, and its envelope is removed. -/
def replaceDurable (nextDigest : String) (failure : Failure) : Op Unit := do
  renameCommit
  let verified ← readRecordAt P messageId .durable
  check (recordDigest P verified = some nextDigest) failure
  unlink .pending

def recoverPendingRecord : Op Unit := do
  let pending ← readPendingEnvelope P messageId
  let commit ← readRecordAt P messageId .commit
  match pending with
  | none => check (commit = none) .orphanCommitFailClosed
  | some pending => do
    check (∀ record ∈ commit, (P.digest record).text = pending.nextDigest) .pendingCommitConflict
    let current ← readRecordAt P messageId .durable
    if recordDigest P current = some pending.nextDigest then do
      unlink .commit
      unlink .pending
    else do
      check (recordDigest P current = pending.previousDigest) .pendingPreviousStateConflict
      attempt (assertForwardTransition current pending.nextRecord)
      -- A next record that is there is complete, or it could not be read.
      if commit = none then writeExclusive .commit (P.json.line (.record pending.nextRecord))
        else pure ()
      replaceDurable P messageId pending.nextDigest .recoveryVerificationFailed

def envelopeFor (previous : Option Record) (record : Record) : Envelope where
  messageId := record.messageId
  previousDigest := recordDigest P previous
  nextDigest := (P.digest record).text
  nextRecord := record

def publishRecord (previous : Option Record) (record : Record) : Op Unit := do
  writeExclusive .pending (P.json.line (.envelope (envelopeFor P previous record)))
  writeExclusive .commit (P.json.line (.record record))
  replaceDurable P messageId (P.digest record).text .publishVerificationFailed

/-! ## The ledger -/

structure DeliveryInput where
  (actionFingerprint correlationId projectId targetAgentId : String)
  (threadId turnId : Option String)
  state : DeliveryState
  errorCode : Option String

/-- The record that is proposed, at the time the clock gives. -/
def DeliveryInput.proposed (input : DeliveryInput) (messageId observedAt : String) : Record where
  messageId := messageId
  actionFingerprint := input.actionFingerprint
  correlationId := input.correlationId
  projectId := input.projectId
  targetAgentId := input.targetAgentId
  threadId := input.threadId
  turnId := input.turnId
  state := input.state
  observedAt := observedAt
  errorCode := input.errorCode

/-- The checks of `record` before it takes the lock. -/
def propose (input : DeliveryInput) (observedAt : String) : Except Failure Record := do
  ensure (isActionFingerprint input.actionFingerprint) .actionFingerprintInvalid
  exactIdentity messageId "message_id"
  exactIdentity input.correlationId "correlation_id"
  exactIdentity input.projectId "project_id"
  exactIdentity input.targetAgentId "target_agent_id"
  exactNullableIdentity input.threadId "thread_id"
  exactNullableIdentity input.turnId "turn_id"
  validateRecord P (input.proposed messageId observedAt) messageId
  return input.proposed messageId observedAt

/-- `record`; the result is whether the record was written. -/
def record (input : DeliveryInput) (observedAt : String) : Op Bool := do
  let proposed ← attempt (propose P messageId input observedAt)
  recoverPendingRecord P messageId
  let current ← readRecordAt P messageId .durable
  if ← attempt (judge current proposed) then do
    publishRecord P messageId current proposed
    return true
  else
    return false

def read : Op (Option Record) := do
  attempt (exactIdentity messageId "message_id")
  recoverPendingRecord P messageId
  readRecordAt P messageId .durable

/-! ## The lock -/

/-- The attempts of `withProcessLock` to acquire the lock, each with its nonces. -/
def acquireLock (pid : Nat) : List (Nat → ProcessLock.Nonce) → ProcessLock.Op ProcessLock.Lock
  | [] => fail ⟨.unavailable, "message_ledger_lock_unavailable"⟩
  | nonce :: rest => do
    match ← (ProcessLock.acquireExclusiveProcessLock pid nonce).settle with
    | .ok lock => return lock
    | .error e =>
      if (e.code = .locked ∨ e.code = .unavailable) ∧ ¬ rest.isEmpty then acquireLock pid rest
      else fail e

/-- `withProcessLock`, by the process and with the nonces that `randomUUID` returns. -/
def withProcessLock {α : Type} (pid : Nat) (nonce : Nat → ProcessLock.Nonce) (operation : Op α) :
    ProcessLock.Call Disk Failure α :=
  .acquiring (acquireLock pid ((List.range 200).map fun i k => nonce (4 * i + k))) operation

end Orquesta.MessageLedger
