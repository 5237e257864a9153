import Mathlib.Data.List.Chain
import Orquesta.Contract.Values
import Orquesta.Library.Codec
import Orquesta.Library.Utf16

/-!
# Delivery records

What the message ledger keeps of the delivery of a message, and when one record may follow
another.  A record is written once for each state it passes through, in the order of
`ALLOWED_FORWARD`; the identities of the message stay the same all the way, and the thread
and the turn stay the same once they are known.

## Main definitions

* `DeliveryState`, `STATE_RANK`, `ALLOWED_FORWARD`
* `Record`, `validateRecord`
* `assertIdentityProgression`, `assertForwardTransition`
* `judge`: what `record` decides about a proposed record

## Main results

* `judge_eq_true`: when a proposed record is written
* `Path.movesForward`: what is true of every sequence of durable records
-/

namespace Orquesta.MessageLedger

open Checked Contract List

/-! ## States -/

inductive DeliveryState
  | queued | threadReady | turnStarting | dispatchAccepted | turnStarted | completed | failed
deriving DecidableEq

def STATE_RANK : DeliveryState → Nat
  | .queued => 0
  | .threadReady => 1
  | .turnStarting => 2
  | .dispatchAccepted => 3
  | .turnStarted => 4
  | .completed => 5
  | .failed => 5

def TERMINAL_STATES : List DeliveryState := [.completed, .failed]

def ALLOWED_FORWARD : DeliveryState → List DeliveryState
  | .queued => [.threadReady, .failed]
  | .threadReady => [.turnStarting, .failed]
  | .turnStarting => [.dispatchAccepted, .turnStarted, .completed, .failed]
  | .dispatchAccepted => [.turnStarted, .completed, .failed]
  | .turnStarted => [.completed, .failed]
  | .completed => []
  | .failed => []

variable {state : DeliveryState}

theorem rank_lt_of_allowed {next : DeliveryState} (h : next ∈ ALLOWED_FORWARD state) :
    STATE_RANK state < STATE_RANK next := by
  revert h
  cases state <;> cases next <;> decide

theorem not_terminal_of_allowed {next : DeliveryState} (h : next ∈ ALLOWED_FORWARD state) :
    state ∉ TERMINAL_STATES := by
  revert h
  cases state <;> cases next <;> decide

/-! ## Failures -/

inductive Failure
  /-- A field is not a text of an admitted length without blanks around it. -/
  | fieldInvalid (field : String)
  | actionFingerprintInvalid | actionFingerprintMismatch | recordInvalid | identityConflict
  | malformedFailClosed | pendingFailClosed | orphanCommitFailClosed | pendingCommitConflict
  | pendingPreviousStateConflict | recoveryVerificationFailed | publishVerificationFailed
  | transitionInvalid | stateConflict
  /-- `open` with `O_EXCL` finds the file. -/
  | fileExists

def Failure.message : Failure → String
  | .fieldInvalid field => "message_ledger_" ++ field ++ "_invalid"
  | .actionFingerprintInvalid => "message_action_fingerprint_invalid"
  | .actionFingerprintMismatch => "message_action_fingerprint_mismatch"
  | .recordInvalid => "message_ledger_record_invalid"
  | .identityConflict => "message_ledger_identity_conflict"
  | .malformedFailClosed => "message_ledger_malformed_fail_closed"
  | .pendingFailClosed => "message_ledger_pending_fail_closed"
  | .orphanCommitFailClosed => "message_ledger_orphan_commit_fail_closed"
  | .pendingCommitConflict => "message_ledger_pending_commit_conflict"
  | .pendingPreviousStateConflict => "message_ledger_pending_previous_state_conflict"
  | .recoveryVerificationFailed => "message_ledger_recovery_verification_failed"
  | .publishVerificationFailed => "message_ledger_publish_verification_failed"
  | .transitionInvalid => "message_ledger_transition_invalid"
  | .stateConflict => "message_ledger_state_conflict"
  | .fileExists => "EEXIST"

/-! ## Records -/

structure Record where
  (messageId actionFingerprint correlationId projectId targetAgentId : String)
  (threadId turnId : Option String)
  state : DeliveryState
  observedAt : String
  errorCode : Option String
deriving DecidableEq

def MAX_IDENTITY_LENGTH : Nat := 512

def MAX_ERROR_CODE_LENGTH : Nat := 256

def exactIdentity (value field : String) (maxLength : Nat := MAX_IDENTITY_LENGTH) :
    Except Failure Unit :=
  ensure (value ≠ "" ∧ utf16Length value ≤ maxLength ∧ trim value = value) (.fieldInvalid field)

def exactNullableIdentity (value : Option String) (field : String) : Except Failure Unit :=
  match value with
  | none => .ok ()
  | some value => exactIdentity value field

/-- `/^[a-f0-9]{64}$/u`. -/
def isActionFingerprint (value : String) : Bool :=
  value.toList.length = 64 && value.toList.all fun c => c.isDigit || ('a' ≤ c && c ≤ 'f')

/-- A digest in hexadecimal digits. -/
structure Digest where
  text : String
  isHex : isActionFingerprint text

/-- The envelope in which the next record is announced. -/
structure Envelope where
  messageId : String
  previousDigest : Option String
  nextDigest : String
  nextRecord : Record
deriving DecidableEq

/-- What the files of the ledger contain. -/
inductive Document
  | record (record : Record)
  | envelope (envelope : Envelope)
deriving DecidableEq

/-- What the ledger takes from Node: whether a text is an instant as `toISOString` writes it, the
digest of a record's text, and `JSON`. -/
structure Platform where
  isIsoInstant : String → Bool
  digest : Record → Digest
  json : Codec Document

/-- The fields that are there belong to the state. -/
def fieldsFit (record : Record) : Bool :=
  (match record.state with
    | .queued => record.threadId.isNone && record.turnId.isNone
    | .threadReady | .turnStarting => record.threadId.isSome && record.turnId.isNone
    | .dispatchAccepted | .turnStarted | .completed => record.threadId.isSome &&
        record.turnId.isSome
    | .failed => record.errorCode.isSome) &&
  (record.state = .failed || record.errorCode.isNone)

variable (P : Platform)

/-- `validateRecord`, of a record with the right keys. -/
def validateRecord (record : Record) (expectedMessageId : String) : Except Failure Unit := do
  ensure (isActionFingerprint record.actionFingerprint) .recordInvalid
  exactIdentity record.messageId "message_id"
  ensure (record.messageId = expectedMessageId) .identityConflict
  exactIdentity record.observedAt "observed_at"
  ensure (P.isIsoInstant record.observedAt) .recordInvalid
  exactNullableIdentity record.threadId "thread_id"
  exactNullableIdentity record.turnId "turn_id"
  match record.errorCode with
  | none => pure ()
  | some code => exactIdentity code "error_code" MAX_ERROR_CODE_LENGTH
  ensure (fieldsFit record) .recordInvalid
  exactIdentity record.correlationId "correlation_id"
  exactIdentity record.projectId "project_id"
  exactIdentity record.targetAgentId "target_agent_id"

/-! ## One record after another -/

def assertIdentityProgression (current next : Record) : Except Failure Unit :=
  ensure (current.actionFingerprint = next.actionFingerprint ∧ current.projectId = next.projectId ∧
    current.targetAgentId = next.targetAgentId ∧ current.correlationId = next.correlationId ∧
    (current.threadId ≠ none → next.threadId = current.threadId) ∧
    (current.turnId ≠ none → next.turnId = current.turnId)) .identityConflict

def assertForwardTransition (current : Option Record) (next : Record) : Except Failure Unit :=
  match current with
  | none => ensure (next.state = .queued) .transitionInvalid
  | some current => do
    assertIdentityProgression current next
    ensure (next.state ∈ ALLOWED_FORWARD current.state) .transitionInvalid

/-- What `record` decides about a proposed record while it holds the lock: whether to write it. -/
def judge (current : Option Record) (proposed : Record) : Except Failure Bool :=
  match current with
  | none => do
    assertForwardTransition none proposed
    return true
  | some current => do
    ensure (current.actionFingerprint = proposed.actionFingerprint) .actionFingerprintMismatch
    assertIdentityProgression current proposed
    ensure (STATE_RANK current.state = STATE_RANK proposed.state → current.state = proposed.state)
      .stateConflict
    if STATE_RANK proposed.state ≤ STATE_RANK current.state ∨ current.state ∈ TERMINAL_STATES then
      return false
    else
      assertForwardTransition (some current) proposed
      return true

/-- The identities of the message are the same, and those of the thread and the turn once they are
known. -/
structure SameIdentities (current next : Record) : Prop where
  actionFingerprint : next.actionFingerprint = current.actionFingerprint
  projectId : next.projectId = current.projectId
  targetAgentId : next.targetAgentId = current.targetAgentId
  correlationId : next.correlationId = current.correlationId
  threadId : current.threadId ≠ none → next.threadId = current.threadId
  turnId : current.turnId ≠ none → next.turnId = current.turnId

/-- A record may become the durable one after another. -/
inductive Forward : Option Record → Record → Prop
  | first {next : Record} : next.state = .queued → Forward none next
  | next {current next : Record} : SameIdentities current next →
      next.state ∈ ALLOWED_FORWARD current.state → Forward (some current) next

variable {cur next : Record}

theorem assertIdentityProgression_eq_ok {u : Unit} :
    assertIdentityProgression cur next = .ok u ↔ SameIdentities cur next := by
  rw [assertIdentityProgression, ensure_eq_ok]
  constructor <;> rintro ⟨hfp, hproj, htg, hcor, hth, htn⟩
  all_goals exact ⟨hfp.symm, hproj.symm, htg.symm, hcor.symm, hth, htn⟩

variable {cur : Option Record}

theorem assertForwardTransition_eq_ok {u : Unit} :
    assertForwardTransition cur next = .ok u ↔ Forward cur next := by
  cases cur with
  | none =>
    rw [assertForwardTransition, ensure_eq_ok]
    exact ⟨.first, fun h => by cases h; assumption⟩
  | some cur =>
    simp only [assertForwardTransition, bind_eq_ok, assertIdentityProgression_eq_ok, ensure_eq_ok]
    constructor
    · rintro ⟨-, heq, halw⟩
      exact .next heq halw
    · rintro ⟨⟩
      exact ⟨(), ‹_›, ‹_›⟩

theorem forward_of_judge (h : judge cur next = .ok true) :
    Forward cur next := by
  cases cur with
  | none =>
    simp only [judge, bind_eq_ok, assertForwardTransition_eq_ok] at h
    obtain ⟨-, h, -⟩ := h
    exact h
  | some cur =>
    simp only [judge, bind_eq_ok] at h
    obtain ⟨-, -, -, -, -, -, h⟩ := h
    split at h
    · cases h
    · simp only [bind_eq_ok, assertForwardTransition_eq_ok] at h
      obtain ⟨-, h, -⟩ := h
      exact h

theorem judge_of_forward (h : Forward cur next) : judge cur next = .ok true := by
  cases h with
  | first hq =>
    simp only [judge, bind_eq_ok, assertForwardTransition_eq_ok]
    exact ⟨(), .first hq, rfl⟩
  | next hsam halw =>
    rename_i cur
    have hrank := rank_lt_of_allowed halw
    simp only [judge, bind_eq_ok, ensure_eq_ok, assertIdentityProgression_eq_ok]
    refine ⟨(), hsam.actionFingerprint.symm, (), hsam, (), fun heq => absurd heq hrank.ne, ?_⟩
    rw [if_neg (not_or.mpr ⟨not_le.mpr hrank, not_terminal_of_allowed halw⟩)]
    simp only [bind_eq_ok, assertForwardTransition_eq_ok]
    exact ⟨(), .next hsam halw, rfl⟩

/-! ## Sequences of records -/

/-- A sequence of durable records. -/
inductive Path : List Record → Prop
  | nil : Path []
  | snoc {records : List Record} {next : Record} : Path records → Forward records.getLast? next →
      Path (records ++ [next])

/-- The records of a message only move forward. -/
structure MovesForward (records : List Record) : Prop where
  starts : ∀ record ∈ records.head?, record.state = .queued
  steps : records.IsChain fun record next => next.state ∈ ALLOWED_FORWARD record.state
  identities : ∀ record ∈ records, ∀ other ∈ records,
    record.actionFingerprint = other.actionFingerprint ∧
      record.correlationId = other.correlationId ∧
      record.projectId = other.projectId ∧ record.targetAgentId = other.targetAgentId
  writtenOnce : records.Pairwise fun record later =>
    (record.threadId ≠ none → later.threadId = record.threadId) ∧
      (record.turnId ≠ none → later.turnId = record.turnId)
  atMostFive : records.length ≤ 5 + 1
  final : records.Pairwise fun record _ => record.state ∉ TERMINAL_STATES

theorem SameIdentities.trans {a b c : Record} (h : SameIdentities a b) (h' : SameIdentities b c) :
    SameIdentities a c where
  actionFingerprint := h'.actionFingerprint.trans h.actionFingerprint
  projectId := h'.projectId.trans h.projectId
  targetAgentId := h'.targetAgentId.trans h.targetAgentId
  correlationId := h'.correlationId.trans h.correlationId
  threadId hne := by
    have hb := h.threadId hne
    rw [← hb]
    exact h'.threadId (hb ▸ hne)
  turnId hne := by
    have hb := h.turnId hne
    rw [← hb]
    exact h'.turnId (hb ▸ hne)

variable {rs : List Record}

/-- Every record of a path has the identities of the last one, and a lower rank. -/
theorem Path.last {last : Record} (h : Path (rs ++ [last])) :
    ∀ r ∈ rs, SameIdentities r last ∧ STATE_RANK r.state < STATE_RANK last.state := by
  generalize hall : rs ++ [last] = all at h
  induction h generalizing rs last with
  | nil => simp at hall
  | @snoc front next hpath hfw ih =>
    obtain ⟨rfl, hnx⟩ := append_inj' hall rfl
    cases hnx
    intro r hmem
    obtain rfl | ⟨pre, prev, rfl⟩ := eq_nil_or_concat' rs
    · cases hmem
    · rw [getLast?_concat] at hfw
      cases hfw with
      | next heq halw =>
        have hrank := rank_lt_of_allowed halw
        rcases mem_append.mp hmem with hmem | hmem
        · obtain ⟨hearlier, hlower⟩ := ih rfl r hmem
          exact ⟨hearlier.trans heq, hlower.trans hrank⟩
        · rw [mem_singleton.mp hmem]
          exact ⟨heq, hrank⟩

/-- The ranks of a path grow. -/
theorem Path.ranks (h : Path rs) :
    rs.Pairwise fun r later => STATE_RANK r.state < STATE_RANK later.state := by
  induction h with
  | nil => exact .nil
  | snoc hpath hfw ih =>
    refine pairwise_append.mpr ⟨ih, pairwise_singleton _ _, fun r hmem last hls => ?_⟩
    rw [mem_singleton.mp hls]
    exact ((hpath.snoc hfw).last r hmem).2

/-- A path has no two records of one state. -/
theorem Path.nodup_states (h : Path rs) : (rs.map (·.state)).Nodup := by
  rw [Nodup, pairwise_map]
  exact h.ranks.imp fun hlt heq => hlt.ne (congrArg STATE_RANK heq)

theorem rank_le (state : DeliveryState) : STATE_RANK state ≤ 5 := by
  cases state <;> decide

/-- The ranks are below six, so there are at most six of them. -/
theorem Path.length_le (h : Path rs) : rs.length ≤ 5 + 1 := by
  have hso : (rs.map fun r => STATE_RANK r.state).Pairwise (· < ·) := pairwise_map.mpr h.ranks
  have hsub : rs.map (fun r => STATE_RANK r.state) ⊆ range 6 := by
    intro rank hrank
    obtain ⟨r, -, rfl⟩ := mem_map.mp hrank
    exact mem_range.mpr (Nat.lt_succ_of_le (rank_le r.state))
  have hnd : (rs.map fun r => STATE_RANK r.state).Nodup := hso.imp Nat.ne_of_lt
  simpa using (subperm_of_subset hnd hsub).length_le

theorem rank_of_terminal (h : state ∈ TERMINAL_STATES) : STATE_RANK state = 5 := by
  revert h
  cases state <;> decide

theorem Path.movesForward (h : Path rs) : MovesForward rs := by
  induction h with
  | nil => exact ⟨nofun, .nil, nofun, .nil, Nat.zero_le _, .nil⟩
  | @snoc front next hpath hfw ih =>
    have hall := hpath.snoc hfw
    have hls := hall.last
    -- What holds between every earlier record and the last holds along the sequence.
    have hprs : ∀ {R : Record → Record → Prop}, front.Pairwise R → (∀ r ∈ front, R r next) →
        (front ++ [next]).Pairwise R := by
      intro R hfrt hnx
      refine pairwise_append.mpr ⟨hfrt, pairwise_singleton _ _, fun r hmem last hmem' => ?_⟩
      rw [mem_singleton.mp hmem']
      exact hnx r hmem
    have heq : ∀ r ∈ front ++ [next], r.actionFingerprint = next.actionFingerprint ∧
        r.correlationId = next.correlationId ∧ r.projectId = next.projectId ∧
        r.targetAgentId = next.targetAgentId := by
      intro r hmem
      rcases mem_append.mp hmem with hmem | hmem
      · obtain ⟨hidt, -⟩ := hls r hmem
        exact ⟨hidt.actionFingerprint.symm, hidt.correlationId.symm,
          hidt.projectId.symm, hidt.targetAgentId.symm⟩
      · rw [mem_singleton.mp hmem]
        exact ⟨rfl, rfl, rfl, rfl⟩
    refine ⟨?_, ?_, ?_, ?_, hall.length_le, ?_⟩
    · intro r hhe
      cases front with
      | nil =>
        cases hhe
        cases hfw
        assumption
      | cons first rest => exact ih.starts r hhe
    · refine isChain_append.mpr ⟨ih.steps, .singleton _, ?_⟩
      rintro prev hprev _ ⟨⟩
      rw [Option.mem_def.mp hprev] at hfw
      cases hfw with
      | next _ halw => exact halw
    · intro r hmem o hmem'
      obtain ⟨hfp, hcor, hproj, htg⟩ := heq r hmem
      obtain ⟨hfp', hcor', hproj', htg'⟩ := heq o hmem'
      exact ⟨hfp.trans hfp'.symm, hcor.trans hcor'.symm, hproj.trans hproj'.symm,
        htg.trans htg'.symm⟩
    · exact hprs ih.writtenOnce fun r hmem =>
        ⟨(hls r hmem).1.threadId, (hls r hmem).1.turnId⟩
    · refine hprs ih.final fun r hmem htm => ?_
      have hrank := (hls r hmem).2
      rw [rank_of_terminal htm] at hrank
      exact absurd (rank_le next.state) (not_le.mpr hrank)

end Orquesta.MessageLedger
