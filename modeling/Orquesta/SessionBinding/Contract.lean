import Mathlib.Data.List.Dedup
import Orquesta.Contract.Values
import Orquesta.Library.Report
import Orquesta.Library.UtcTimestamp

/-!
# The session-binding contract

`session-binding-state-v1`: which sessions exist for which agent, who owns an
agent and who is being prepared to take over.  The contract is a schema and the
checks of `sessionBindingStateV1Errors` on top of it.

A row is a record with the types the schema gives its members, so what is left of
the schema here are its patterns and ranges.  The members `schema_version` and
`session_kind` have one value each and are left out; `thread_id` is never null, by
its type.

The source walks the rows once and fills maps and sets on the way; a check that
looks into one of them is a check against the rows before the current one (`scan`)
or, after the walk, against all of them.  Reports are sorted at the end, so the
order in which maps are listed does not show.

## Main definitions

* `Session`, `SessionBindingState`
* `lifecycle`: `SESSION_BINDING_LIFECYCLE`
* `sessionBindingLifecycleErrors`, `sessionBindingStateV1Errors`
* `validateContract`
-/

namespace Orquesta.SessionBinding

open Report UtcTimestamp
open Orquesta.Contract (isAlphanumeric isHexChar)

/-! ## Rows -/

inductive HandoffStatus
  | pending | accepted | failed
deriving DecidableEq

inductive RotationState
  | active | rotationPreparing | rotationPending | rotationRequired | draining | checkpointed
  | successorWarming | successorVerified | superseded | failed | retired
deriving DecidableEq

inductive OwnershipStatus
  | owner | candidate | superseded | retired
deriving DecidableEq

inductive BindingStatus
  | bound | provisioning | authorityUnverified | conflict
deriving DecidableEq

inductive Visibility
  | codexTask | desktopOnly
deriving DecidableEq

inductive AttachmentToolState
  | supported | unsupported
deriving DecidableEq

/-- `SessionBindingV1` -/
structure Session where
  (sessionId agentId threadId : String)
  sessionGeneration : Nat
  attachmentToolState : Option AttachmentToolState
  handoffStatus : HandoffStatus
  (handoffTurnId acceptedAt : Option String)
  rotationState : RotationState
  ownershipStatus : OwnershipStatus
  acceptsNewWork : Bool
  bindingStatus : BindingStatus
  (replacesSessionId retryOfSessionId replacedBySessionId : Option String)
  visibility : Visibility
  profileId : String
  (runtimeAuthorityId provisioningRequestId placementIntentId taskId : Option String)
  (ownershipStartedAt ownershipEndedAt : Option String)
  (createdAt updatedAt : String)
deriving DecidableEq

/-- `SessionBindingStateV1` -/
structure SessionBindingState where
  projectId : String
  revision : Nat
  sessions : List Session
deriving DecidableEq

structure SchemaError where
  (path code message : String)

/-! ## Schema -/

def MAX_SAFE_INTEGER : Nat := 9007199254740991

/-- `[A-Za-z0-9._:-]` -/
def isIdentifierChar (c : Char) : Bool := isAlphanumeric c || c ∈ ['.', '_', ':', '-']

/-- `^[A-Za-z0-9][A-Za-z0-9._:-]{0,n}$` -/
def isIdentifier (n : Nat) (s : String) : Bool :=
  match s.toList with
  | [] => false
  | c :: cs => isAlphanumeric c && cs.all isIdentifierChar && cs.length ≤ n

/-- `^PI-[a-f0-9]{12}$` -/
def isPlacementIntentId (s : String) : Bool :=
  s.toList.take 3 = ['P', 'I', '-'] && (s.toList.drop 3).length = 12 &&
    (s.toList.drop 3).all isHexChar

variable (state : SessionBindingState) (key : Session → Option String)
  (earlier sessions : List Session) (path : String) (s : Session)

def patternError (pattern : String → Bool) (s : String) : List SchemaError :=
  reportIf (¬ pattern s) ⟨path, "pattern", "must match the required pattern"⟩

/-- A string that matches, or null. -/
def nullableError (pattern : String → Bool) (o : Option String) : List SchemaError :=
  reportIf (¬ o.all pattern) ⟨path, "anyOf", "must match an allowed schema"⟩

def sessionSchemaErrors : List SchemaError :=
  patternError (path ++ ".session_id") (isIdentifier 127) s.sessionId ++
  patternError (path ++ ".agent_id") (isIdentifier 127) s.agentId ++
  patternError (path ++ ".thread_id") (isIdentifier 255) s.threadId ++
  reportIf (s.sessionGeneration < 1)
    ⟨path ++ ".session_generation", "minimum", "must be at least 1"⟩ ++
  reportIf (MAX_SAFE_INTEGER < s.sessionGeneration)
    ⟨path ++ ".session_generation", "maximum", "must be at most 9007199254740991"⟩ ++
  nullableError (path ++ ".handoff_turn_id") (isIdentifier 255) s.handoffTurnId ++
  nullableError (path ++ ".accepted_at") matchesPattern s.acceptedAt ++
  nullableError (path ++ ".replaces_session_id") (isIdentifier 127) s.replacesSessionId ++
  nullableError (path ++ ".replaced_by_session_id") (isIdentifier 127) s.replacedBySessionId ++
  nullableError (path ++ ".retry_of_session_id") (isIdentifier 127) s.retryOfSessionId ++
  patternError (path ++ ".profile_id") (isIdentifier 255) s.profileId ++
  nullableError (path ++ ".runtime_authority_id") (isIdentifier 255) s.runtimeAuthorityId ++
  nullableError (path ++ ".provisioning_request_id") (isIdentifier 255) s.provisioningRequestId ++
  nullableError (path ++ ".placement_intent_id") isPlacementIntentId s.placementIntentId ++
  nullableError (path ++ ".task_id") (isIdentifier 127) s.taskId ++
  nullableError (path ++ ".ownership_started_at") matchesPattern s.ownershipStartedAt ++
  nullableError (path ++ ".ownership_ended_at") matchesPattern s.ownershipEndedAt ++
  patternError (path ++ ".created_at") matchesPattern s.createdAt ++
  patternError (path ++ ".updated_at") matchesPattern s.updatedAt

def sessionPath (index : Nat) : String := s!"$.sessions[{index}]"

/-- `validateSchema` with the schema of the contract. -/
def schemaErrors : List SchemaError :=
  patternError "$.project_id" (isIdentifier 127) state.projectId ++
  reportIf (MAX_SAFE_INTEGER < state.revision)
    ⟨"$.revision", "maximum", "must be at most 9007199254740991"⟩ ++
  scan (fun earlier s => sessionSchemaErrors (sessionPath earlier.length) s) state.sessions

/-! ## One row -/

/-- What a lifecycle asks of a value that may be missing. -/
inductive Presence
  | required | absent
deriving DecidableEq

inductive OwnershipWindow
  | open | none | closed
deriving DecidableEq

structure Lifecycle where
  ownership : OwnershipStatus
  handoff : HandoffStatus
  bindings : List BindingStatus
  (accepts acceptedEvidence : Bool)
  (runtimeAuthority replacedBy : Presence)
  ownershipWindow : OwnershipWindow

/-- `SESSION_BINDING_LIFECYCLE` -/
def lifecycle : RotationState → Lifecycle
  | .active | .rotationPreparing | .rotationPending =>
    ⟨.owner, .accepted, [.bound], true, true, .required, .absent, .open⟩
  | .rotationRequired | .draining | .checkpointed =>
    ⟨.owner, .accepted, [.bound], false, true, .required, .absent, .open⟩
  | .successorWarming => ⟨.candidate, .pending, [.provisioning], false, false, .absent,
      .absent, .none⟩
  | .successorVerified => ⟨.candidate, .accepted, [.bound], false, true, .required, .absent, .none⟩
  | .superseded => ⟨.superseded, .accepted, [.bound], false, true, .required, .required, .closed⟩
  | .failed =>
    ⟨.candidate, .failed, [.authorityUnverified, .conflict], false, false, .absent, .absent, .none⟩
  | .retired => ⟨.retired, .accepted, [.bound], false, true, .required, .absent, .closed⟩

def FOUNDATION_AGENT_IDS : List String := ["orchestrator", "orquesta-admin", "user-support"]

def validAt (o : Option String) : Bool := o.any isValidUtcTimestamp

/-- Both are valid timestamps, and they compare as `p` says. -/
def both (p : String → String → Bool) : Option String → Option String → Bool
  | some a, some b => isValidUtcTimestamp a && isValidUtcTimestamp b && p a b
  | _, _ => false

def Session.provenance : List (Option String) :=
  [s.provisioningRequestId, s.placementIntentId, s.taskId]

def Session.hasPlacementProvenance : Bool := s.provenance.all Option.isSome

def Session.hasNoPlacementProvenance : Bool := s.provenance.all Option.isNone

def foundationProfile (agentId : String) : String := "foundation:" ++ agentId ++ ":v1"

def claimsFoundationNamespace (profileId : String) : Bool :=
  "foundation:".toList.isPrefixOf profileId.toList

/-- The checks on the identity of an initial binding. -/
def initialIdentityErrors : List SchemaError :=
  if s.agentId ∈ FOUNDATION_AGENT_IDS then
    reportIf (s.profileId ≠ foundationProfile s.agentId ∨ ¬ s.hasNoPlacementProvenance)
      ⟨path, "session_binding_foundation_identity",
        "reserved foundation agents require their exact foundation profile and " ++
        "cannot claim placement provenance"⟩
  else if claimsFoundationNamespace s.profileId then
    [⟨path ++ ".profile_id", "session_binding_foundation_namespace",
      "foundation profile namespace is reserved for canonical foundation agents"⟩]
  else
    reportIf (¬ s.hasPlacementProvenance) ⟨path, "session_binding_placement_provenance_required",
      "nonfoundation initial bindings require exact placement provenance"⟩

/-- The checks on lineage and provenance. -/
def lineageErrors : List SchemaError :=
  reportIf (s.sessionGeneration = 1 ∧ s.replacesSessionId ≠ none)
    ⟨path ++ ".replaces_session_id", "session_binding_initial_lineage",
      "generation one is an initial binding and cannot replace another session"⟩ ++
  reportIf (s.sessionGeneration = 1 ∧ (lifecycle s.rotationState).ownership = .candidate)
    ⟨path, "session_binding_initial_candidate",
      "generation one must be an accepted owner lineage, not a rotation attempt"⟩ ++
  reportIf (1 < s.sessionGeneration ∧ s.replacesSessionId = none)
    ⟨path ++ ".replaces_session_id", "session_binding_successor_lineage",
      "every generation after one requires predecessor lineage"⟩ ++
  reportIf ((lifecycle s.rotationState).replacedBy = .required ∧ s.replacedBySessionId = none)
    ⟨path ++ ".replaced_by_session_id", "session_binding_superseded_successor",
      "superseded session must name its active successor"⟩ ++
  reportIf ((lifecycle s.rotationState).replacedBy = .absent ∧ s.replacedBySessionId ≠ none)
    ⟨path ++ ".replaced_by_session_id", "session_binding_cutover_state",
      "only an atomically superseded predecessor may name its successor"⟩ ++
  reportIf (¬ s.hasPlacementProvenance ∧ ¬ s.hasNoPlacementProvenance)
    ⟨path, "session_binding_placement_provenance_partial",
      "placement request, intent, and task provenance must be all present or all null"⟩ ++
  if s.sessionGeneration = 1 then initialIdentityErrors path s else []

/-- The checks on handoff evidence and runtime authority. -/
def evidenceErrors : List SchemaError :=
  reportIf ((lifecycle s.rotationState).acceptedEvidence ∧
      ¬ (s.handoffTurnId.isSome ∧ validAt s.acceptedAt))
    ⟨path, "session_binding_accepted_evidence",
      "accepted lifecycle requires thread_id, handoff_turn_id, and a valid " ++
      "accepted_at timestamp"⟩ ++
  reportIf (¬ (lifecycle s.rotationState).acceptedEvidence ∧
      (s.handoffTurnId ≠ none ∨ s.acceptedAt ≠ none))
    ⟨path, "session_binding_unaccepted_evidence",
      "pending or failed lifecycle cannot carry accepted turn or timestamp evidence"⟩ ++
  reportIf (s.acceptedAt ≠ none ∧ ¬ validAt s.acceptedAt)
    ⟨path ++ ".accepted_at", "timestamp", "must be a real UTC timestamp"⟩ ++
  (if ¬ isValidUtcTimestamp s.createdAt ∨ ¬ isValidUtcTimestamp s.updatedAt then
    [⟨path, "session_binding_timestamp", "created_at and updated_at must be real UTC timestamps"⟩]
  else
    reportIf (s.updatedAt < s.createdAt)
      ⟨path ++ ".updated_at", "session_binding_update_chronology",
        "updated_at must not precede created_at"⟩ ++
    reportIf ((lifecycle s.rotationState).acceptedEvidence ∧
        ∃ a ∈ s.acceptedAt, isValidUtcTimestamp a ∧ (a < s.createdAt ∨ s.updatedAt < a))
      ⟨path ++ ".accepted_at", "session_binding_acceptance_chronology",
        "accepted_at must fall between created_at and updated_at"⟩) ++
  reportIf ((lifecycle s.rotationState).runtimeAuthority = .required ∧ s.runtimeAuthorityId = none)
    ⟨path ++ ".runtime_authority_id", "session_binding_runtime_authority",
      "accepted binding requires runtime authority evidence"⟩ ++
  reportIf ((lifecycle s.rotationState).runtimeAuthority = .absent ∧ s.runtimeAuthorityId ≠ none)
    ⟨path ++ ".runtime_authority_id", "session_binding_unaccepted_authority",
      "pending and failed sessions cannot claim runtime authority"⟩

/-- The checks on the ownership interval. -/
def ownershipErrors : List SchemaError :=
  reportIf ((lifecycle s.rotationState).ownershipWindow = .none ∧
      (s.ownershipStartedAt ≠ none ∨ s.ownershipEndedAt ≠ none))
    ⟨path, "session_binding_ownership_window",
      "candidate sessions cannot claim an ownership interval"⟩ ++
  reportIf ((lifecycle s.rotationState).ownershipWindow = .open ∧
      (¬ validAt s.ownershipStartedAt ∨ s.ownershipEndedAt ≠ none))
    ⟨path, "session_binding_ownership_window",
      "current owner requires a started and open ownership interval"⟩ ++
  reportIf ((lifecycle s.rotationState).ownershipWindow = .closed ∧
      (¬ validAt s.ownershipStartedAt ∨ ¬ validAt s.ownershipEndedAt))
    ⟨path, "session_binding_ownership_window",
      "terminal owner history requires a closed ownership interval"⟩ ++
  reportIf (both (· < ·) s.ownershipStartedAt s.acceptedAt)
    ⟨path ++ ".ownership_started_at", "session_binding_ownership_chronology",
      "ownership cannot begin before accepted handoff evidence"⟩ ++
  reportIf (both (· < ·) s.ownershipStartedAt (some s.createdAt))
    ⟨path ++ ".ownership_started_at", "session_binding_ownership_chronology",
      "ownership cannot begin before the session row exists"⟩ ++
  reportIf (both (· ≤ ·) s.ownershipEndedAt s.ownershipStartedAt)
    ⟨path ++ ".ownership_ended_at", "session_binding_ownership_chronology",
      "ownership must end after it begins"⟩ ++
  reportIf (both (· < ·) (some s.updatedAt) s.ownershipStartedAt)
    ⟨path ++ ".ownership_started_at", "session_binding_ownership_chronology",
      "ownership start cannot follow the row update timestamp"⟩ ++
  reportIf (validAt s.ownershipEndedAt ∧ s.ownershipEndedAt ≠ some s.updatedAt)
    ⟨path ++ ".ownership_ended_at", "session_binding_ownership_chronology",
      "terminal row update must be the immutable ownership end timestamp"⟩

def sessionBindingLifecycleErrors (path : String) : List SchemaError :=
  reportIf (s.ownershipStatus ≠ (lifecycle s.rotationState).ownership ∨
      s.handoffStatus ≠ (lifecycle s.rotationState).handoff ∨
      s.bindingStatus ∉ (lifecycle s.rotationState).bindings ∨
      s.acceptsNewWork ≠ (lifecycle s.rotationState).accepts)
    ⟨path, "session_binding_lifecycle_matrix",
      "ownership, handoff, binding, and work authority must match rotation_state"⟩ ++
  lineageErrors path s ++ evidenceErrors path s ++ ownershipErrors path s

/-! ## All rows -/

def Session.isCandidate : Bool := s.ownershipStatus = .candidate

def Session.isLiveCandidate : Bool :=
  s.rotationState ∈ [RotationState.successorWarming, .successorVerified]

def Session.isBoundNonterminal : Bool :=
  s.handoffStatus = .accepted && s.bindingStatus = .bound &&
    s.rotationState ∉ [RotationState.superseded, .failed, .retired]

/-- `sessionKey`, compared member by member.  Identifiers are ASCII, where the order of code units
is that of characters. -/
def Session.precedes (l r : Session) : Bool :=
  l.agentId < r.agentId ∨ (l.agentId = r.agentId ∧ (l.sessionGeneration < r.sessionGeneration ∨
    (l.sessionGeneration = r.sessionGeneration ∧ l.sessionId ≤ r.sessionId)))

def ordered : List Session := sessions.insertionSort fun l r => l.precedes r

/-- `sessionsById.get`: of two rows with one id, the first. -/
def sessionById (id : String) : Option Session := sessions.find? fun s => s.sessionId = id

/-- Is the key of `s` taken by a row before it?  The source keeps the id of the first row with
that key and reads an empty id as none. -/
def claimedByOther : Bool :=
  (key s).isSome && (earlier.find? fun r => key r = key s ∧ r.sessionId ≠ "").any
    fun r => r.sessionId ≠ s.sessionId

/-- The value of a member where the row is an initial binding. -/
def initially : Option String :=
  if s.sessionGeneration = 1 ∧ s.replacesSessionId = none then key s else none

/-- The body of the first loop over the rows. -/
def rowErrors : List SchemaError :=
  reportIf (∃ r ∈ earlier, r.sessionId = s.sessionId)
    ⟨sessionPath earlier.length ++ ".session_id", "session_binding_session_id_unique",
      "session_id must be unique"⟩ ++
  reportIf (s.rotationState ≠ .failed ∧ ∃ r ∈ earlier, r.rotationState ≠ .failed ∧
      r.agentId = s.agentId ∧ r.sessionGeneration = s.sessionGeneration)
    ⟨sessionPath earlier.length ++ ".session_generation", "session_binding_generation_unique",
      "each agent can have only one nonfailed session for a generation"⟩ ++
  reportIf (claimedByOther (fun r => some r.threadId) earlier s)
    ⟨sessionPath earlier.length ++ ".thread_id", "session_binding_thread_unique",
      "thread_id must not bind more than one session"⟩ ++
  sessionBindingLifecycleErrors s (sessionPath earlier.length) ++
  reportIf (claimedByOther (initially (·.provisioningRequestId)) earlier s)
    ⟨sessionPath earlier.length ++ ".provisioning_request_id", "session_binding_request_unique",
      "one placement request cannot create multiple initial sessions"⟩ ++
  reportIf (claimedByOther (initially (·.taskId)) earlier s)
    ⟨sessionPath earlier.length ++ ".task_id", "session_binding_task_unique",
      "one placement task cannot create multiple initial sessions"⟩

/-- Agent, generation and predecessor.  The source joins the three with NUL characters, which no
identifier contains. -/
def Session.lineage : Option (String × Nat × String) :=
  s.replacesSessionId.map fun id => (s.agentId, s.sessionGeneration, id)

def lineageText : String × Nat × String → String
  | (agentId, generation, id) => agentId ++ "\x00" ++ toString generation ++ "\x00" ++ id

/-- The rows with each key, key by key. -/
def grouped {κ : Type} [DecidableEq κ] (key : Session → Option κ) (sessions : List Session) :
    List (κ × List Session) :=
  (sessions.filterMap key).dedup.map fun k => (k, sessions.filter fun s => key s = some k)

/-- Report every key that more than one row has. -/
def groupErrors {κ : Type} [DecidableEq κ] (key : Session → Option κ) (code : String)
    (message : κ → String) (sessions : List Session) : List SchemaError :=
  (grouped key sessions).flatMap fun g =>
    reportIf (1 < g.2.length) ⟨"$.sessions", code, message g.1⟩

def ownerErrors : List SchemaError :=
  ((sessions.filter (·.isBoundNonterminal)).map (·.agentId)).dedup.flatMap fun agentId =>
    reportIf ((sessions.filter fun s => s.ownershipStatus = .owner ∧ s.agentId = agentId).length ≠
      1)
      ⟨"$.sessions", "session_binding_owner_unique",
        "agent " ++ agentId ++ " must have exactly one current owner"⟩

def activeRuntimeAuthorities : List String :=
  ((sessions.filter (·.isBoundNonterminal)).filterMap (·.runtimeAuthorityId)).dedup

/-- The predecessor of a live candidate. -/
def Session.livePredecessor : Option String :=
  if s.isLiveCandidate then s.replacesSessionId else none

/-- The lineage of a failed attempt that retries no other. -/
def Session.initialFailedLineage : Option (String × Nat × String) :=
  if s.retryOfSessionId = none ∧ s.rotationState = .failed then s.lineage else none

/-- The attempts of one lineage, once one has failed, go back to one that failed. -/
def retryLineageErrors : List SchemaError :=
  (grouped Session.lineage sessions).flatMap fun g =>
    let roots := g.2.filter fun s => s.retryOfSessionId = none
    reportIf ((∃ s ∈ g.2, s.rotationState = .failed) ∧
        (roots.length ≠ 1 ∨ ∃ s ∈ roots.head?, s.rotationState ≠ .failed))
      ⟨"$.sessions", "session_binding_retry_lineage", "replacement lineage " ++ lineageText g.1 ++
        " must be one unbranched chain rooted at its first failed attempt"⟩

/-! ## Links between rows -/

/-- How far the replacement has come: a failed attempt of an earlier time, a candidate before the
cut-over, or a completed one. -/
def replacementPhaseErrors (predecessor : Session) : List SchemaError :=
  if s.rotationState = .failed ∧
      predecessor.ownershipStatus ∈ [OwnershipStatus.superseded, .retired] then
    reportIf (¬ both (· < ·) (some s.updatedAt) predecessor.ownershipEndedAt)
      ⟨path ++ ".updated_at", "session_binding_failed_attempt_chronology",
        "a retained failed attempt must finish before its predecessor ownership ends"⟩
  else match predecessor.replacedBySessionId with
    | none =>
      reportIf (both (· ≤ ·) (some s.createdAt) (some predecessor.updatedAt))
        ⟨path ++ ".created_at", "session_binding_candidate_chronology",
          "a pre-cutover successor must be created after its checkpointed " ++
          "predecessor transition"⟩ ++
      reportIf (s.ownershipStatus ≠ .candidate ∨
          s.rotationState ∉ [RotationState.successorWarming, .successorVerified, .failed] ∨
          predecessor.ownershipStatus ≠ .owner ∨ predecessor.rotationState ≠ .checkpointed)
        ⟨path ++ ".replaces_session_id", "session_binding_replacement_pre_cutover",
          "one-way replacement is allowed only while a successor candidate waits for " ++
          "atomic cutover"⟩
    | some successorId =>
      if successorId ≠ s.sessionId then
        [⟨path ++ ".replaces_session_id", "session_binding_replacement_symmetric",
          "completed replacement links must be symmetric"⟩]
      else
        reportIf (predecessor.ownershipEndedAt ≠ s.ownershipStartedAt)
          ⟨path ++ ".ownership_started_at", "session_binding_cutover_timestamp",
            "completed predecessor and successor rows must share immutable ownership-edge evidence"⟩

/-- The checks of a row that replaces `predecessor`. -/
def replacesErrors (predecessor : Session) : List SchemaError :=
  reportIf (predecessor.agentId ≠ s.agentId)
    ⟨path ++ ".replaces_session_id", "session_binding_replacement_agent",
      "replacement links must stay within one agent"⟩ ++
  reportIf (predecessor.provenance ≠ s.provenance)
    ⟨path ++ ".replaces_session_id", "session_binding_replacement_provenance",
      "replacement lineage must preserve immutable placement provenance"⟩ ++
  reportIf (predecessor.runtimeAuthorityId.isSome ∧ s.runtimeAuthorityId.isSome ∧
      predecessor.runtimeAuthorityId ≠ s.runtimeAuthorityId)
    ⟨path ++ ".runtime_authority_id", "session_binding_replacement_runtime_authority",
      "replacement lineage cannot cross runtime authority"⟩ ++
  reportIf (s.sessionGeneration ≠ predecessor.sessionGeneration + 1)
    ⟨path ++ ".session_generation", "session_binding_replacement_generation",
      "successor generation must be exactly predecessor generation plus one"⟩ ++
  replacementPhaseErrors path s predecessor

/-- The check of a row that retries `failedAttempt`. -/
def retryErrors (failedAttempt : Session) : List SchemaError :=
  reportIf (failedAttempt.rotationState ≠ .failed ∨ failedAttempt.agentId ≠ s.agentId ∨
      failedAttempt.sessionGeneration ≠ s.sessionGeneration ∨
      failedAttempt.replacesSessionId ≠ s.replacesSessionId ∨
      ¬ both (· < ·) (some failedAttempt.updatedAt) (some s.createdAt))
    ⟨path ++ ".retry_of_session_id", "session_binding_retry_provenance",
      "retry must bind the immediately failed attempt for the same agent, generation, " ++
      "and predecessor"⟩

/-- The checks of a row that `successor` replaced. -/
def replacedByErrors (successor : Session) : List SchemaError :=
  reportIf (successor.agentId ≠ s.agentId)
    ⟨path ++ ".replaced_by_session_id", "session_binding_replacement_agent",
      "replacement links must stay within one agent"⟩ ++
  reportIf (successor.sessionGeneration ≠ s.sessionGeneration + 1)
    ⟨path ++ ".session_generation", "session_binding_replacement_generation",
      "successor generation must be exactly predecessor generation plus one"⟩ ++
  reportIf (successor.replacesSessionId ≠ some s.sessionId)
    ⟨path ++ ".replaced_by_session_id", "session_binding_replacement_symmetric",
      "replacement links must be symmetric"⟩ ++
  reportIf (s.ownershipStatus ≠ .superseded ∨
      successor.ownershipStatus ∉ [OwnershipStatus.owner, .superseded, .retired])
    ⟨path ++ ".replaced_by_session_id", "session_binding_replacement_cutover",
      "a completed replacement must lead to a current or historically superseded owner"⟩ ++
  reportIf (s.ownershipEndedAt ≠ successor.ownershipStartedAt)
    ⟨path ++ ".ownership_ended_at", "session_binding_cutover_timestamp",
      "completed replacement must preserve immutable predecessor-end and successor-start evidence"⟩

/-- Follow one link of a row: a link to no row is `missing`, a link to a row is checked. -/
def linkErrors (link : Option String) (missing : SchemaError)
    (check : Session → List SchemaError) : List SchemaError :=
  match link with
  | none => []
  | some id =>
    match sessionById sessions id with
    | none => [missing]
    | some target => check target

/-- The body of the second loop over the rows. -/
def rowLinkErrors : List SchemaError :=
  linkErrors sessions s.replacesSessionId
    ⟨path ++ ".replaces_session_id", "session_binding_replacement_reference",
      "replaced session must exist"⟩ (replacesErrors path s) ++
  linkErrors sessions s.retryOfSessionId
    ⟨path ++ ".retry_of_session_id", "session_binding_retry_reference",
      "retry source session must exist"⟩ (retryErrors path s) ++
  linkErrors sessions s.replacedBySessionId
    ⟨path ++ ".replaced_by_session_id", "session_binding_replacement_reference",
      "successor session must exist"⟩ (replacedByErrors path s)

/-- Report each row from which following `link` comes back to a row met before.  A walk that meets
none twice has ended after as many steps as there are rows. -/
def cycleErrors (link : Session → Option String) (code message : String)
    (sessions : List Session) : List SchemaError :=
  sessions.flatMap fun s =>
    reportIf (revisits Session.sessionId link (sessionById sessions) (sessions.length + 1) []
      (some s)) ⟨"$.sessions", code, message⟩

/-! ## The contract -/

def sessionBindingStateV1Errors : List SchemaError :=
  reportIf (state.sessions ≠ ordered state.sessions)
    ⟨"$.sessions", "session_binding_sorted",
      "sessions must be sorted by agent_id, session_generation, and session_id"⟩ ++
  scan rowErrors state.sessions ++
  ownerErrors state.sessions ++
  reportIf (1 < (activeRuntimeAuthorities state.sessions).length)
    ⟨"$.sessions", "session_binding_runtime_authority_unique",
      "all nonterminal accepted bindings in one project must share one runtime authority"⟩ ++
  groupErrors Session.livePredecessor "session_binding_candidate_unique"
    (fun id => "predecessor " ++ id ++ " has more than one nonfailed successor candidate")
    state.sessions ++
  groupErrors Session.retryOfSessionId "session_binding_retry_branch"
    (fun id => "failed attempt " ++ id ++ " has more than one direct retry") state.sessions ++
  groupErrors Session.initialFailedLineage "session_binding_retry_root_unique"
    (fun l => "replacement lineage " ++ lineageText l ++
      " has more than one initial failed attempt") state.sessions ++
  retryLineageErrors state.sessions ++
  scan (fun earlier s => rowLinkErrors state.sessions (sessionPath earlier.length) s)
    state.sessions ++
  cycleErrors Session.replacedBySessionId "session_binding_replacement_cycle"
    "replacement links must be acyclic" state.sessions ++
  cycleErrors Session.retryOfSessionId "session_binding_retry_cycle"
    "retry provenance must be acyclic" state.sessions

def SchemaError.precedes (l r : SchemaError) : Bool :=
  l.path < r.path ∨ (l.path = r.path ∧ (l.code < r.code ∨
    (l.code = r.code ∧ l.message ≤ r.message)))

def sortErrors (errors : List SchemaError) : List SchemaError :=
  errors.insertionSort fun l r => l.precedes r

structure Validation where
  ok : Bool
  errors : List SchemaError

/-- `validateContract("session-binding-state-v1", state)` -/
def validateContract : Validation :=
  let errors := schemaErrors state ++ sessionBindingStateV1Errors state
  ⟨errors.length = 0, sortErrors errors⟩

end Orquesta.SessionBinding
