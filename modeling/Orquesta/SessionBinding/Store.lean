import Orquesta.SessionBinding.Valid

/-!
# The session-binding store

The mutations of `SessionBindingStore` on the state in the binding file.  A mutation
computes the next rows from the current ones; `mutate` then compares the revision,
sorts the rows and validates the result before it is written.  A mutation that finds
its own effect already there returns no rows and nothing is written.

The lock and the file operations are left out here: each mutation is one step on the
state.  The verifier of runtime authorities belongs to the caller and is a parameter;
its failures are the caller's own.

## Main definitions

* `mutate` and the eight mutations
* `Mutation`, `Mutation.apply`: a mutation with its input
* `Reachable`: the states that mutations reach from a fresh one

## Main results

* `mutate_eq_ok`: when a mutation succeeds, and with what
-/

namespace Orquesta.SessionBinding

open Checked UtcTimestamp

structure StoreError where
  (code message : String)
deriving DecidableEq

structure MutationResult where
  changed : Bool
  state : SessionBindingState

/-- `verifyRuntimeAuthority` of the store's options, for the given project. -/
abbrev Verifier := Option (String → Except StoreError Unit)

def RotationState.text : RotationState → String
  | .active => "active"
  | .rotationPreparing => "rotation_preparing"
  | .rotationPending => "rotation_pending"
  | .rotationRequired => "rotation_required"
  | .draining => "draining"
  | .checkpointed => "checkpointed"
  | .successorWarming => "successor_warming"
  | .successorVerified => "successor_verified"
  | .superseded => "superseded"
  | .failed => "failed"
  | .retired => "retired"

/-! ## Inputs -/

def assertExpectedRevision (value : Int) : Except StoreError Unit :=
  ensure (0 ≤ value ∧ value ≤ MAX_SAFE_INTEGER)
    ⟨"SESSION_BINDING_REVISION_INVALID", "expectedRevision must be a nonnegative safe integer"⟩

def assertRealUtcTimestamp (value field : String) : Except StoreError Unit :=
  ensure (isValidUtcTimestamp value)
    ⟨"SESSION_BINDING_TIMESTAMP_INVALID", field ++ " must be a real canonical UTC timestamp"⟩

/-- `maximumLength` is 128 or 256. -/
def assertCanonicalIdentifier (value field : String) (maximumLength : Nat) :
    Except StoreError Unit :=
  ensure (isIdentifier (maximumLength - 1) value)
    ⟨"SESSION_BINDING_INPUT_INVALID", field ++ " must be a canonical identifier of at most " ++
      toString maximumLength ++ " characters"⟩

def assertLater (value previous field : String) : Except StoreError Unit := do
  assertRealUtcTimestamp value field
  ensure (previous < value)
    ⟨"SESSION_BINDING_TIMESTAMP_CONFLICT",
      field ++ " must be later than the prior durable transition"⟩

/-! ## The commit -/

variable (sessions : List Session) (verifier : Verifier) (state file : SessionBindingState)
  (input : UpsertAcceptedBindingInput) (projectId : String) (expectedRevision : Int)
  (sessionId failedSessionId predecessorSessionId successorSessionId : String)
  (target : RotationState) (bindingStatus : BindingStatus) (successorThreadId changedAt : String)

def validateState : Except StoreError SessionBindingState := do
  ensure (validateContract state).ok
    ⟨"SESSION_BINDING_STATE_INVALID", "session binding state failed canonical validation: " ++
      ", ".intercalate ((validateContract state).errors.map fun e => e.path ++ ":" ++ e.code)⟩
  return state

/-- `#readUnlocked` of a file that holds a state. -/
def readUnlocked :
    Except StoreError SessionBindingState := do
  ensure (validateContract state).ok
    ⟨"SESSION_BINDING_STATE_UNSUPPORTED", "session_binding_state_contract_invalid"⟩
  ensure (state.projectId = projectId)
    ⟨"SESSION_BINDING_STATE_UNSUPPORTED", "session_binding_foreign_project"⟩
  return state

/-- `#mutate`: no rows means that there is nothing to do. -/
def mutate (guard : Except StoreError Unit)
    (update : SessionBindingState → Except StoreError (Option (List Session))) :
    Except StoreError MutationResult := do
  assertExpectedRevision expectedRevision
  let current ← readUnlocked file projectId
  guard
  match ← update current with
  | none => return ⟨false, current⟩
  | some sessions =>
    ensure ((current.revision : Int) = expectedRevision)
      ⟨"SESSION_BINDING_REVISION_CONFLICT", "expected revision " ++ toString expectedRevision ++
        ", observed " ++ toString current.revision⟩
    let next ← validateState ⟨current.projectId, current.revision + 1, ordered sessions⟩
    return ⟨true, next⟩

/-- `#runtimeAuthorityGuard`: without a verifier no accepted binding is written. -/
def runtimeAuthorityGuard (runtimeAuthorityId : String) :
    Except StoreError (Except StoreError Unit) :=
  match verifier with
  | none => .error ⟨"SESSION_BINDING_RUNTIME_AUTHORITY_VERIFIER_REQUIRED",
      "accepted binding writes require a runtime authority verifier"⟩
  | some verify => .ok (verify runtimeAuthorityId)

/-- `#assertSessionIdentityAvailable` -/
def assertSessionIdentityAvailable (incoming : Session) :
    Except StoreError Unit := do
  ensure (¬ ∃ s ∈ state.sessions, s.agentId = incoming.agentId ∧
      s.sessionGeneration = incoming.sessionGeneration ∧ s.rotationState ≠ .failed)
    ⟨"SESSION_BINDING_GENERATION_CONFLICT", "agent " ++ incoming.agentId ++ " generation " ++
      toString incoming.sessionGeneration ++ " already exists"⟩
  ensure (¬ ∃ s ∈ state.sessions, s.threadId = incoming.threadId)
    ⟨"SESSION_BINDING_THREAD_CONFLICT", "thread " ++ incoming.threadId ++ " is already bound"⟩

/-- Replace the row with the given id. -/
def updateRow (id : String) (f : Session → Session) : List Session :=
  sessions.map fun s => if s.sessionId = id then f s else s

/-! ## Accepted bindings -/

structure UpsertAcceptedBindingInput where
  projectId : String
  expectedRevision : Int
  (sessionId agentId threadId handoffTurnId acceptedAt runtimeAuthorityId : String)
  visibility : Visibility
  profileId : String
  (requestId placementIntentId taskId : Option String)
  attachmentToolState : Option AttachmentToolState

def acceptedRecord : Session where
  sessionId := input.sessionId
  agentId := input.agentId
  threadId := input.threadId
  sessionGeneration := 1
  attachmentToolState := some (input.attachmentToolState.getD .unsupported)
  handoffStatus := .accepted
  handoffTurnId := some input.handoffTurnId
  acceptedAt := some input.acceptedAt
  rotationState := .active
  ownershipStatus := .owner
  acceptsNewWork := true
  bindingStatus := .bound
  replacesSessionId := none
  retryOfSessionId := none
  replacedBySessionId := none
  visibility := input.visibility
  profileId := input.profileId
  runtimeAuthorityId := some input.runtimeAuthorityId
  provisioningRequestId := input.requestId
  placementIntentId := input.placementIntentId
  taskId := input.taskId
  ownershipStartedAt := some input.acceptedAt
  ownershipEndedAt := none
  createdAt := input.acceptedAt
  updatedAt := input.acceptedAt

/-- A foundation binding has its fixed identity, any other a complete placement. -/
def assertBindingIdentity (foundationEntry : Bool) : Except StoreError Unit :=
  if foundationEntry then do
    ensure (input.agentId ∈ FOUNDATION_AGENT_IDS ∧
      input.profileId = foundationProfile input.agentId)
      ⟨"SESSION_BINDING_FOUNDATION_AGENT_INVALID", "foundation binding identity is not canonical"⟩
    ensure (input.requestId = none ∧ input.placementIntentId = none ∧ input.taskId = none)
      ⟨"SESSION_BINDING_INPUT_INVALID", "foundation bindings cannot claim placement provenance"⟩
  else do
    ensure (input.agentId ∉ FOUNDATION_AGENT_IDS)
      ⟨"SESSION_BINDING_FOUNDATION_AGENT_RESERVED", "agentId " ++ input.agentId ++
        " must use the foundation binding entry point"⟩
    ensure (¬ claimsFoundationNamespace input.profileId)
      ⟨"SESSION_BINDING_FOUNDATION_PROFILE_RESERVED", "foundation profile namespace is reserved"⟩
    -- a missing value fails the pattern of an identifier
    assertCanonicalIdentifier (input.requestId.getD "") "requestId" 256
    assertCanonicalIdentifier (input.placementIntentId.getD "") "placementIntentId" 128
    ensure (input.placementIntentId.any isPlacementIntentId)
      ⟨"SESSION_BINDING_INPUT_INVALID", "placementIntentId must be a canonical placement identity"⟩
    assertCanonicalIdentifier (input.taskId.getD "") "taskId" 128

/-- The authorities of the bound sessions, null among them. -/
def existingAuthorities : List (Option String) :=
  ((sessions.filter (·.isBoundNonterminal)).map (·.runtimeAuthorityId)).dedup

def acceptedUpdate (record : Session) (state : SessionBindingState) :
    Except StoreError (Option (List Session)) :=
  match sessionById state.sessions record.sessionId with
  | some existing =>
    if existing = record then return none
    else throw ⟨"SESSION_BINDING_CONFLICT", "session_id " ++ record.sessionId ++
      " already has different binding evidence"⟩
  | none => do
    ensure (¬ (record.provisioningRequestId ≠ none ∧ ∃ s ∈ state.sessions,
        s.provisioningRequestId = record.provisioningRequestId ∧ s.sessionGeneration = 1 ∧
          s.replacesSessionId = none))
      ⟨"SESSION_BINDING_REQUEST_CONFLICT", "request_id " ++ record.provisioningRequestId.getD "" ++
        " already created another persistent session"⟩
    ensure (¬ (record.taskId ≠ none ∧ ∃ s ∈ state.sessions, s.taskId = record.taskId ∧
        s.sessionGeneration = 1 ∧ s.replacesSessionId = none))
      ⟨"SESSION_BINDING_TASK_CONFLICT", "task_id " ++ record.taskId.getD "" ++
        " already created another persistent session"⟩
    assertSessionIdentityAvailable state record
    ensure (¬ (none ∈ existingAuthorities state.sessions ∨
        1 < (existingAuthorities state.sessions).length ∨
        ((existingAuthorities state.sessions).length = 1 ∧
          record.runtimeAuthorityId ∉ existingAuthorities state.sessions)))
      ⟨"SESSION_BINDING_RUNTIME_AUTHORITY_CONFLICT",
        "accepted binding would split project runtime authority"⟩
    ensure (¬ ∃ s ∈ state.sessions, s.agentId = record.agentId ∧ s.ownershipStatus = .owner)
      ⟨"SESSION_BINDING_OWNER_CONFLICT", "agent " ++ record.agentId ++
        " already has a current owner"⟩
    return some (state.sessions ++ [record])

/-- `#upsertAcceptedBinding` -/
def upsertAcceptedBinding (foundationEntry : Bool) :
    Except StoreError MutationResult := do
  assertCanonicalIdentifier input.projectId "projectId" 128
  assertCanonicalIdentifier input.sessionId "sessionId" 128
  assertCanonicalIdentifier input.agentId "agentId" 128
  assertCanonicalIdentifier input.threadId "threadId" 256
  assertCanonicalIdentifier input.handoffTurnId "handoffTurnId" 256
  assertCanonicalIdentifier input.runtimeAuthorityId "runtimeAuthorityId" 256
  assertCanonicalIdentifier input.profileId "profileId" 256
  assertBindingIdentity input foundationEntry
  assertRealUtcTimestamp input.acceptedAt "acceptedAt"
  let guard ← runtimeAuthorityGuard verifier input.runtimeAuthorityId
  mutate file input.projectId input.expectedRevision guard (acceptedUpdate (acceptedRecord input))

/-- The identity of a foundation binding follows from its agent. -/
def upsertAcceptedFoundationBinding : Except StoreError MutationResult := do
  ensure (input.agentId ∈ FOUNDATION_AGENT_IDS)
    ⟨"SESSION_BINDING_FOUNDATION_AGENT_INVALID", "foundation binding agent_id is not canonical"⟩
  upsertAcceptedBinding verifier file
    { input with
      profileId := foundationProfile input.agentId
      requestId := none
      placementIntentId := none
      taskId := none } true

def upsertAcceptedPersistentBinding : Except StoreError MutationResult :=
  upsertAcceptedBinding verifier file input false

/-! ## Rotation -/

/-- `OWNER_TRANSITIONS` -/
def ownerTransitions : RotationState → List RotationState
  | .active => [.rotationPreparing]
  | .rotationPreparing => [.rotationPending]
  | .rotationPending => [.rotationRequired, .draining]
  | .rotationRequired => [.draining]
  | .draining => [.checkpointed]
  | _ => []

/-- `OWNER_ACCEPTING_STATES` -/
def ownerAcceptingStates : List RotationState := [.active, .rotationPreparing, .rotationPending]

def ownerTransitionUpdate (state : SessionBindingState) :
    Except StoreError (Option (List Session)) := do
  let current ← require
    ((sessionById state.sessions sessionId).filter fun s => s.ownershipStatus = .owner)
    ⟨"SESSION_BINDING_OWNER_NOT_FOUND", "current owner session " ++ sessionId ++ " was not found"⟩
  if current.rotationState = target then
    ensure (current.updatedAt = changedAt) ⟨"SESSION_BINDING_DUPLICATE_EVIDENCE_CONFLICT",
      "rotation transition already exists with a different timestamp"⟩
    return none
  else
    ensure (target ∈ ownerTransitions current.rotationState)
      ⟨"SESSION_BINDING_ROTATION_TRANSITION_INVALID",
        current.rotationState.text ++ " cannot transition to " ++ target.text⟩
    assertLater changedAt current.updatedAt "changedAt"
    return some (updateRow state.sessions current.sessionId fun s =>
      { s with
        rotationState := target
        acceptsNewWork := decide (target ∈ ownerAcceptingStates)
        updatedAt := changedAt })

def transitionOwnerRotation : Except StoreError MutationResult :=
  mutate file projectId expectedRevision (.ok ()) (ownerTransitionUpdate sessionId target changedAt)

/-- The owner a candidate is to replace. -/
def Session.isCheckpointedOwner (s : Session) : Bool :=
  s.ownershipStatus = .owner && s.rotationState = .checkpointed

def rotationProfile (agentId : String) (generation : Nat) : String :=
  "session-rotation:" ++ agentId ++ ":generation-" ++ toString generation

/-- The row of a first attempt to replace `predecessor`. -/
def stagedCandidate (predecessor : Session) (sessionId threadId changedAt : String) : Session where
  sessionId := sessionId
  agentId := predecessor.agentId
  threadId := threadId
  sessionGeneration := predecessor.sessionGeneration + 1
  attachmentToolState := some .unsupported
  handoffStatus := .pending
  handoffTurnId := none
  acceptedAt := none
  rotationState := .successorWarming
  ownershipStatus := .candidate
  acceptsNewWork := false
  bindingStatus := .provisioning
  replacesSessionId := some predecessor.sessionId
  retryOfSessionId := none
  replacedBySessionId := none
  visibility := predecessor.visibility
  profileId := rotationProfile predecessor.agentId (predecessor.sessionGeneration + 1)
  runtimeAuthorityId := none
  provisioningRequestId := predecessor.provisioningRequestId
  placementIntentId := predecessor.placementIntentId
  taskId := predecessor.taskId
  ownershipStartedAt := none
  ownershipEndedAt := none
  createdAt := changedAt
  updatedAt := changedAt

def stageUpdate (state : SessionBindingState) : Except StoreError (Option (List Session)) := do
  let predecessor ← require
    ((sessionById state.sessions predecessorSessionId).filter (·.isCheckpointedOwner))
    ⟨"SESSION_BINDING_PREDECESSOR_NOT_CHECKPOINTED",
      "rotation successor requires the checkpointed current owner"⟩
  match sessionById state.sessions successorSessionId with
  | some existing =>
    ensure (existing.agentId = predecessor.agentId ∧ existing.threadId = successorThreadId ∧
        existing.sessionGeneration = predecessor.sessionGeneration + 1 ∧
        existing.rotationState = .successorWarming ∧
        existing.replacesSessionId = some predecessor.sessionId ∧
        existing.createdAt = changedAt ∧ existing.updatedAt = changedAt)
      ⟨"SESSION_BINDING_CONFLICT", "successor session_id " ++ successorSessionId ++
        " already has different evidence"⟩
    return none
  | none =>
    assertLater changedAt predecessor.updatedAt "changedAt"
    let successor := stagedCandidate predecessor successorSessionId successorThreadId changedAt
    assertSessionIdentityAvailable state successor
    ensure (¬ ∃ s ∈ state.sessions, s.agentId = predecessor.agentId ∧
        s.ownershipStatus = .candidate)
      ⟨"SESSION_BINDING_CANDIDATE_CONFLICT", "agent " ++ predecessor.agentId ++
        " already has a rotation candidate"⟩
    return some (state.sessions ++ [successor])

def stageRotationCandidate : Except StoreError MutationResult :=
  mutate file projectId expectedRevision (.ok ())
    (stageUpdate predecessorSessionId successorSessionId successorThreadId changedAt)

def verifyUpdate (handoffTurnId acceptedAt runtimeAuthorityId : String)
    (state : SessionBindingState) : Except StoreError (Option (List Session)) := do
  let candidate ← require
    ((sessionById state.sessions successorSessionId).filter (·.isCandidate))
    ⟨"SESSION_BINDING_CANDIDATE_NOT_FOUND", "rotation candidate " ++ successorSessionId ++
      " was not found"⟩
  if candidate.rotationState = .successorVerified then
    ensure (candidate.handoffTurnId = some handoffTurnId ∧
        candidate.acceptedAt = some acceptedAt ∧
        candidate.runtimeAuthorityId = some runtimeAuthorityId)
      ⟨"SESSION_BINDING_ACCEPTANCE_CONFLICT", "verified successor has different handoff evidence"⟩
    return none
  else
    ensure (candidate.rotationState = .successorWarming)
      ⟨"SESSION_BINDING_ROTATION_TRANSITION_INVALID", "only a warming successor can be verified"⟩
    let predecessorId ← require candidate.replacesSessionId
      ⟨"SESSION_BINDING_ROTATION_TRANSITION_INVALID", "only a warming successor can be verified"⟩
    let predecessor ← require
      ((sessionById state.sessions predecessorId).filter (·.isCheckpointedOwner))
      ⟨"SESSION_BINDING_PREDECESSOR_NOT_CHECKPOINTED",
        "verified successor must retain a checkpointed predecessor owner"⟩
    ensure (predecessor.runtimeAuthorityId = some runtimeAuthorityId)
      ⟨"SESSION_BINDING_RUNTIME_AUTHORITY_CONFLICT",
        "successor runtime authority differs from its predecessor"⟩
    assertLater acceptedAt candidate.updatedAt "acceptedAt"
    return some (updateRow state.sessions candidate.sessionId fun s =>
      { s with
        handoffStatus := .accepted
        handoffTurnId := some handoffTurnId
        acceptedAt := some acceptedAt
        rotationState := .successorVerified
        bindingStatus := .bound
        runtimeAuthorityId := some runtimeAuthorityId
        updatedAt := acceptedAt })

def verifyRotationCandidate (handoffTurnId acceptedAt runtimeAuthorityId : String) :
    Except StoreError MutationResult := do
  assertRealUtcTimestamp acceptedAt "acceptedAt"
  let guard ← runtimeAuthorityGuard verifier runtimeAuthorityId
  mutate file projectId expectedRevision guard
    (verifyUpdate successorSessionId handoffTurnId acceptedAt runtimeAuthorityId)

/-- The cut-over: the predecessor ends when the candidate begins. -/
def cutOver (predecessor candidate : Session) (changedAt : String) : List Session :=
  sessions.map fun s =>
    if s.sessionId = predecessor.sessionId then
      { s with
        rotationState := .superseded
        ownershipStatus := .superseded
        acceptsNewWork := false
        replacedBySessionId := some candidate.sessionId
        ownershipEndedAt := some changedAt
        updatedAt := changedAt }
    else if s.sessionId = candidate.sessionId then
      { s with
        rotationState := .active
        ownershipStatus := .owner
        acceptsNewWork := true
        ownershipStartedAt := some changedAt
        updatedAt := changedAt }
    else s

/-- The row `candidate` has taken over from, once it has. -/
def supersededPredecessor (candidate : Session) : Option Session :=
  if candidate.ownershipStatus = .owner ∧ candidate.rotationState = .active then
    (candidate.replacesSessionId.bind (sessionById sessions)).filter fun p =>
      p.ownershipStatus = .superseded ∧ p.replacedBySessionId = some candidate.sessionId
  else none

def laterOf (a b : String) : String := if b < a then a else b

def acceptUpdate (state : SessionBindingState) : Except StoreError (Option (List Session)) := do
  let candidate ← require (sessionById state.sessions successorSessionId)
    ⟨"SESSION_BINDING_CANDIDATE_NOT_FOUND", "rotation candidate " ++ successorSessionId ++
      " was not found"⟩
  match supersededPredecessor state.sessions candidate with
  | some predecessor =>
    ensure (predecessor.ownershipEndedAt = some changedAt ∧
        candidate.ownershipStartedAt = some changedAt)
      ⟨"SESSION_BINDING_DUPLICATE_EVIDENCE_CONFLICT",
        "cutover already exists with a different timestamp"⟩
    return none
  | none =>
    ensure (candidate.ownershipStatus = .candidate ∧ candidate.rotationState = .successorVerified)
      ⟨"SESSION_BINDING_ROTATION_TRANSITION_INVALID", "only a verified successor can become owner"⟩
    let predecessorId ← require candidate.replacesSessionId
      ⟨"SESSION_BINDING_ROTATION_TRANSITION_INVALID", "only a verified successor can become owner"⟩
    let predecessor ← require
      ((sessionById state.sessions predecessorId).filter (·.isCheckpointedOwner))
      ⟨"SESSION_BINDING_PREDECESSOR_NOT_CHECKPOINTED",
        "candidate cutover requires its checkpointed predecessor owner"⟩
    ensure (predecessor.agentId = candidate.agentId ∧
        predecessor.runtimeAuthorityId = candidate.runtimeAuthorityId)
      ⟨"SESSION_BINDING_ROTATION_AUTHORITY_CONFLICT",
        "candidate cannot take ownership across agent or runtime authority"⟩
    assertLater changedAt (laterOf predecessor.updatedAt candidate.updatedAt) "changedAt"
    return some (cutOver state.sessions predecessor candidate changedAt)

def acceptRotationCandidate : Except StoreError MutationResult :=
  mutate file projectId expectedRevision (.ok ()) (acceptUpdate successorSessionId changedAt)

def failUpdate (state : SessionBindingState) : Except StoreError (Option (List Session)) := do
  let candidate ← require
    ((sessionById state.sessions successorSessionId).filter (·.isCandidate))
    ⟨"SESSION_BINDING_CANDIDATE_NOT_FOUND", "rotation candidate " ++ successorSessionId ++
      " was not found"⟩
  if candidate.rotationState = .failed then
    ensure (candidate.bindingStatus = bindingStatus)
      ⟨"SESSION_BINDING_FAILURE_CONFLICT", "failed successor has different failure classification"⟩
    ensure (candidate.updatedAt = changedAt)
      ⟨"SESSION_BINDING_DUPLICATE_EVIDENCE_CONFLICT",
        "failed candidate already exists with a different timestamp"⟩
    return none
  else
    ensure (candidate.rotationState = .successorWarming ∧ candidate.replacesSessionId ≠ none)
      ⟨"SESSION_BINDING_ROTATION_TRANSITION_INVALID",
        "only an unaccepted warming successor can fail"⟩
    assertLater changedAt candidate.updatedAt "changedAt"
    return some (updateRow state.sessions candidate.sessionId fun s =>
      { s with
        handoffStatus := .failed
        handoffTurnId := none
        acceptedAt := none
        rotationState := .failed
        bindingStatus := bindingStatus
        runtimeAuthorityId := none
        acceptsNewWork := false
        updatedAt := changedAt })

def failRotationCandidate : Except StoreError MutationResult :=
  mutate file projectId expectedRevision (.ok ())
    (failUpdate successorSessionId bindingStatus changedAt)

/-- The row of a further attempt after `failedCandidate`. -/
def retryCandidate (failedCandidate : Session) (sessionId threadId changedAt : String) : Session :=
  { failedCandidate with
    attachmentToolState := some .unsupported
    sessionId := sessionId
    threadId := threadId
    handoffStatus := .pending
    rotationState := .successorWarming
    bindingStatus := .provisioning
    runtimeAuthorityId := none
    retryOfSessionId := some failedCandidate.sessionId
    createdAt := changedAt
    updatedAt := changedAt }

def retryUpdate (state : SessionBindingState) : Except StoreError (Option (List Session)) := do
  let failedCandidate ← require
    ((sessionById state.sessions failedSessionId).filter fun s =>
      s.rotationState = .failed ∧ s.ownershipStatus = .candidate)
    ⟨"SESSION_BINDING_FAILED_CANDIDATE_NOT_FOUND", "retry requires the failed successor snapshot"⟩
  let predecessorId ← require failedCandidate.replacesSessionId
    ⟨"SESSION_BINDING_FAILED_CANDIDATE_NOT_FOUND", "retry requires the failed successor snapshot"⟩
  let predecessor ← require
    ((sessionById state.sessions predecessorId).filter (·.isCheckpointedOwner))
    ⟨"SESSION_BINDING_PREDECESSOR_NOT_CHECKPOINTED",
      "retry must retain the checkpointed predecessor owner"⟩
  match sessionById state.sessions successorSessionId with
  | some existing =>
    ensure (existing.agentId = failedCandidate.agentId ∧
        existing.sessionGeneration = failedCandidate.sessionGeneration ∧
        existing.threadId = successorThreadId ∧
        existing.replacesSessionId = failedCandidate.replacesSessionId ∧
        existing.retryOfSessionId = some failedCandidate.sessionId ∧
        existing.rotationState = .successorWarming ∧ existing.ownershipStatus = .candidate)
      ⟨"SESSION_BINDING_RETRY_ALREADY_APPLIED", "retry session_id " ++ successorSessionId ++
        " already exists with different failed-attempt binding"⟩
    return none
  | none =>
    ensure (¬ ∃ s ∈ state.sessions, s.retryOfSessionId = some failedCandidate.sessionId)
      ⟨"SESSION_BINDING_RETRY_SOURCE_STALE", "failed attempt " ++ failedCandidate.sessionId ++
        " already has a direct retry"⟩
    assertLater changedAt (laterOf failedCandidate.updatedAt predecessor.updatedAt) "changedAt"
    let retry := retryCandidate failedCandidate successorSessionId successorThreadId changedAt
    assertSessionIdentityAvailable state retry
    return some (state.sessions ++ [retry])

def retryFailedRotationCandidate : Except StoreError MutationResult :=
  mutate file projectId expectedRevision (.ok ())
    (retryUpdate failedSessionId successorSessionId successorThreadId changedAt)

def retireUpdate (state : SessionBindingState) : Except StoreError (Option (List Session)) := do
  let owner ← require (sessionById state.sessions sessionId)
    ⟨"SESSION_BINDING_OWNER_NOT_FOUND", "owner session " ++ sessionId ++ " was not found"⟩
  if owner.rotationState = .retired ∧ owner.ownershipStatus = .retired then
    ensure (owner.ownershipEndedAt = some changedAt)
      ⟨"SESSION_BINDING_RETIREMENT_CONFLICT", "retired binding has different terminal evidence"⟩
    return none
  else
    ensure (owner.ownershipStatus = .owner ∧ owner.rotationState ∈ [RotationState.active,
        .rotationPreparing, .rotationPending, .rotationRequired, .draining, .checkpointed])
      ⟨"SESSION_BINDING_OWNER_NOT_FOUND", "session " ++ sessionId ++ " is not a current owner"⟩
    ensure (¬ ∃ s ∈ state.sessions, s.replacesSessionId = some owner.sessionId ∧
        s.isLiveCandidate)
      ⟨"SESSION_BINDING_RETIREMENT_PENDING_ROTATION",
        "owner cannot retire while a live successor candidate exists"⟩
    assertLater changedAt owner.updatedAt "changedAt"
    return some (updateRow state.sessions owner.sessionId fun s =>
      { s with
        rotationState := .retired
        ownershipStatus := .retired
        acceptsNewWork := false
        ownershipEndedAt := some changedAt
        updatedAt := changedAt })

def retireOwnerBinding : Except StoreError MutationResult :=
  mutate file projectId expectedRevision (.ok ()) (retireUpdate sessionId changedAt)

/-! ## Runs -/

/-- `ensureAuthority` with the policy `create_fresh`, where there is no binding file. -/
def createFresh : Except StoreError SessionBindingState := validateState ⟨projectId, 0, []⟩

/-- A mutation with its input. -/
inductive Mutation
  | upsertFoundation (input : UpsertAcceptedBindingInput)
  | upsertPersistent (input : UpsertAcceptedBindingInput)
  | transition (projectId : String) (expectedRevision : Int) (sessionId : String)
      (target : RotationState) (changedAt : String)
  | stage (projectId : String) (expectedRevision : Int)
      (predecessorSessionId successorSessionId successorThreadId changedAt : String)
  | verify (projectId : String) (expectedRevision : Int)
      (successorSessionId handoffTurnId acceptedAt runtimeAuthorityId : String)
  | accept (projectId : String) (expectedRevision : Int) (successorSessionId changedAt : String)
  | fail (projectId : String) (expectedRevision : Int) (successorSessionId : String)
      (bindingStatus : BindingStatus) (changedAt : String)
  | retry (projectId : String) (expectedRevision : Int)
      (failedSessionId successorSessionId successorThreadId changedAt : String)
  | retire (projectId : String) (expectedRevision : Int) (sessionId changedAt : String)

def Mutation.apply : Mutation → Except StoreError MutationResult
  | upsertFoundation input => upsertAcceptedFoundationBinding verifier file input
  | upsertPersistent input => upsertAcceptedPersistentBinding verifier file input
  | transition p r id target at' => transitionOwnerRotation file p r id target at'
  | stage p r pred succ thread at' => stageRotationCandidate file p r pred succ thread at'
  | verify p r succ turn at' authority =>
    verifyRotationCandidate verifier file p r succ turn at' authority
  | accept p r succ at' => acceptRotationCandidate file p r succ at'
  | fail p r succ binding at' => failRotationCandidate file p r succ binding at'
  | retry p r failed succ thread at' => retryFailedRotationCandidate file p r failed succ thread at'
  | retire p r id at' => retireOwnerBinding file p r id at'

/-- The states of a project's binding file.  The verifier may differ from call to call. -/
inductive Reachable : SessionBindingState → Prop
  | fresh {projectId : String} {state : SessionBindingState}
      (h : createFresh projectId = .ok state) :
      Reachable state
  | step {state : SessionBindingState} {verifier : Verifier} {m : Mutation} {r : MutationResult}
      (h : Reachable state) (hm : m.apply verifier state = .ok r) : Reachable r.state

variable {file state : SessionBindingState} {projectId : String} {expectedRevision : Int}
  {guard : Except StoreError Unit}
  {f : SessionBindingState → Except StoreError (Option (List Session))} {r : MutationResult}

theorem validateState_eq_ok {next : SessionBindingState} :
    validateState state = .ok next ↔ Accepted state ∧ state = next := by
  simp [validateState, ← validateContract_ok]

/-- The commit, from outside: nothing to do, or the rows of the update, sorted and accepted, under
the next revision. -/
theorem mutate_eq_ok : mutate file projectId expectedRevision guard f = .ok r ↔
    (0 ≤ expectedRevision ∧ expectedRevision ≤ MAX_SAFE_INTEGER) ∧ Accepted file ∧
      file.projectId = projectId ∧ guard = .ok () ∧
      ((f file = .ok none ∧ r = ⟨false, file⟩) ∨
        ∃ ss, f file = .ok (some ss) ∧ (file.revision : Int) = expectedRevision ∧
          Accepted ⟨file.projectId, file.revision + 1, ordered ss⟩ ∧
          r = ⟨true, ⟨file.projectId, file.revision + 1, ordered ss⟩⟩) := by
  simp only [mutate, assertExpectedRevision, readUnlocked, chain_eq_ok, validateContract_ok]
  constructor
  · rintro ⟨hrev, cur, ⟨hacc, hproj, rfl⟩, hg, res, hup, hres⟩
    refine ⟨hrev, hacc, hproj, hg, ?_⟩
    cases res with
    | none => exact .inl ⟨hup, (pure_eq_ok.mp hres).symm⟩
    | some ss =>
      simp only [chain_eq_ok, validateState_eq_ok] at hres
      obtain ⟨hex, next, ⟨hnx, rfl⟩, rfl⟩ := hres
      exact .inr ⟨ss, hup, hex, hnx, rfl⟩
  · rintro ⟨hrev, hacc, hproj, hg, hres⟩
    refine ⟨hrev, file, ⟨hacc, hproj, rfl⟩, hg, ?_⟩
    rcases hres with ⟨hup, rfl⟩ | ⟨ss, hup, hex, hnx, rfl⟩
    · exact ⟨none, hup, rfl⟩
    · refine ⟨some ss, hup, ?_⟩
      simp only [chain_eq_ok, validateState_eq_ok]
      exact ⟨hex, _, ⟨hnx, rfl⟩, rfl⟩

end Orquesta.SessionBinding
