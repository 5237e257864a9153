import Orquesta.Projector.Input

/-!
# Reducers for Work Orders and branches

The reducers that create a Work Order, move its status, and open and move its
branches.  Each first checks its event against the immutable plan and the
current state, then replaces the Work Order.

## Main definitions

* `acceptedReviewCount`, `assertAwaitingAcceptanceGates`, `branchVerificationComplete`
* `acceptedCurrentTurn`, `executionWindowElapsed`
* `reduceWorkOrderCreated`, `reduceWorkOrderStatus`, `reduceBranchInitialized`,
  `reduceAttemptOpened`, `reduceBranchStatus`
-/

namespace Orquesta

open Checked

variable (env : Environment)

/-! ## Acceptance gates -/

variable (P : Projection) (h : EventHeader) (w : WorkOrder) (b : Branch) (p : BranchStatusChanged)
  (occurredAt : Time)

def allBranchesAccepted : Prop :=
  w.branches.values.length = w.plan.1.branches.length ∧
    ∀ b ∈ w.branches.values, b.state = .accepted
deriving Decidable

/-- The current result of the final branch. -/
def WorkOrder.finalResult : Option BranchResult :=
  (w.plan.1.finalBranchRef.bind w.branches.get?).bind Branch.result

def Plan.assignees (p : Plan) : List Ref := p.branches.map PlanBranch.assigneeRef

/-- An accepted review without blocking findings, by a reviewer who is no assignee. -/
def ReviewRecord.isClean (p : Plan) (r : ReviewRecord) : Prop :=
  r.status = .accepted ∧ r.findings.critical = 0 ∧ r.findings.important = 0 ∧
    r.reviewerRef ∉ p.assignees
deriving Decidable

/-- The reviews of a result. -/
def WorkOrder.reviewsOf (resultHash : Digest) : List ReviewRecord :=
  w.acceptance.reviews.values.filter (·.resultHash = resultHash)

/-- The number of distinct clean reviewers of the final result, or `-1` when there is no result
or one of its reviews is not clean. -/
def acceptedReviewCount : Int :=
  match w.finalResult with
  | none => -1
  | some result =>
    let reviews := w.reviewsOf (env.resultHash result)
    if ∀ r ∈ reviews, r.isClean w.plan.1 then
      ((reviews.map ReviewRecord.reviewerRef).dedup.length : Int)
    else -1

def WorkOrder.hasOpenAttention : Prop := ∃ a ∈ w.attention.values, a.isOpen
deriving Decidable

def assertAwaitingAcceptanceGates : Projected Unit :=
  ensure (w.acceptance.contextBudget.isSome ∧ allBranchesAccepted w ∧ ¬ w.hasOpenAttention ∧
      (w.plan.1.reviewMinimum.count : Int) ≤ acceptedReviewCount env w)
    ⟨.acceptanceGates, "The Work Order does not satisfy its immutable acceptance gates"⟩

/-- Whether a branch has a passed record for one verification requirement. -/
def Branch.meets (criterionId : Ref) (req : VerificationRequirement) : Prop :=
  ∃ record ∈ b.verificationByCriterion.get? (criterionId, req.verificationRef.id),
    record.status = .passed ∧ record.kind = req.kind ∧
      record.verificationRef = req.verificationRef
deriving Decidable

def Plan.criterion? (p : Plan) (criterionId : Ref) : Option Criterion :=
  p.criteria.find? (·.criterionId = criterionId)

/-- Every requirement of a criterion is met; an unknown criterion is not. -/
def Branch.meetsCriterion (p : Plan) (b : Branch) (criterionId : Ref) : Prop :=
  ∃ c ∈ p.criterion? criterionId, ∀ req ∈ c.verificationRequirements, b.meets criterionId req
deriving Decidable

def branchVerificationComplete : Prop :=
  b.result.isSome ∧ ∀ c ∈ b.requiredCriterionIds, b.meetsCriterion w.plan.1 c
deriving Decidable

/-! ## Creating and moving a Work Order -/

/-- The Work Order a created event starts from. -/
def createdWorkOrder (e : Event) (p : WorkOrderCreated) (plan : NormalizedPlan)
    (batchId : Option Ref) : WorkOrder where
  workOrderId := e.header.workOrderId
  planSnapshotRef := e.header.planSnapshotRef
  planHash := e.header.planHash
  plan := plan
  engineContractVersion := p.engineContractVersion
  revision := 1
  status := .starting
  createdAt := e.header.occurredAt
  startedAt := none
  deadlineAt := p.deadlineAt
  stopReason := none
  branches := .empty
  attention := .empty
  acceptance := ⟨none, .empty, none, []⟩
  pendingProjectionInput := some { openedInput env e batchId .command with
    priorWorkOrderRevision := 0, targetWorkOrderRevision := 1 }

/-- An existing Work Order with the same identifier is replaced, not checked for. -/
def reduceWorkOrderCreated (e : Event) (p : WorkOrderCreated)
    (batchId : Option Ref) : Projected Projection := do
  let plan ← require p.plan.normalized?
    ⟨.invalid, "The Work Order plan is not a valid normalized V1 plan"⟩
  ensure (plan.1.planSnapshotId = e.header.planSnapshotRef ∧ plan.1.planHash = e.header.planHash)
    ⟨.planBinding, "The created Work Order does not match its plan snapshot binding"⟩
  ensure (e.header.occurredAt < p.deadlineAt)
    ⟨.invalid, "The Work Order deadline must be after creation"⟩
  ensure (p.revision.all (· = 1) ∧ p.status.all (· = .starting) ∧
      p.createdAt.all (· = e.header.occurredAt))
    ⟨.invalid, "Created-event derived fields do not match the V1 initial state"⟩
  return P.replaceWorkOrder (createdWorkOrder env e p plan batchId)

/-- The Work Order after a status change. -/
def WorkOrder.withStatus (status : WorkOrderStatus) (reason : String) (occurredAt : Time) :
    WorkOrder :=
  { w with
    status
    startedAt :=
      if status = .running ∧ w.startedAt = none then some occurredAt else w.startedAt
    stopReason := if status.isTerminal ∨ status = .cancelling then some reason else w.stopReason }

/-- Both acceptance states require the gates. -/
def checkAcceptanceGates (toStatus : WorkOrderStatus) : Projected Unit :=
  if toStatus = .awaitingAcceptance ∨ toStatus = .accepted then
    assertAwaitingAcceptanceGates env w
  else return ()

def reduceWorkOrderStatus (fromStatus toStatus : WorkOrderStatus)
    (reason : String) : Projected Projection := do
  let w ← requireWorkOrder P h
  ensure (w.status = fromStatus ∧ toStatus ∈ fromStatus.transitions)
    ⟨.transition, "Illegal Work Order transition"⟩
  ensure (¬ w.status.isTerminal) ⟨.transition, "A terminal Work Order cannot be reopened"⟩
  checkAcceptanceGates env w toStatus
  ensure (toStatus = .accepted →
      w.acceptance.decision.map AcceptanceRecord.decision = some .accepted)
    ⟨.acceptanceGates, "A terminal accepted state requires the current accepted decision"⟩
  ensure (fromStatus = .awaitingAcceptance → toStatus = .paused →
      w.acceptance.decision.map AcceptanceRecord.decision = some .rejected)
    ⟨.acceptanceGates, "Leaving acceptance for rework requires a recorded rejection"⟩
  return P.replaceWorkOrder (w.withStatus toStatus reason h.occurredAt)

def reduceContextBudget (receipt : ContextBudgetReceipt) :
    Projected Projection := do
  let w ← requireWorkOrder P h
  ensure (receipt.budgetTokens = w.plan.1.contextDuplicationBudgetTokens ∧
      receipt.duplicateContextTokens ≤ receipt.budgetTokens)
    ⟨.invalid, "The context budget receipt does not satisfy the immutable plan budget"⟩
  match w.acceptance.contextBudget with
  | some existing => do
    ensure (existing = receipt)
      ⟨.idConflict, "The context budget receipt cannot be replaced"⟩
    return P
  | none =>
    let acceptance := { w.acceptance with contextBudget := some receipt }
    return P.replaceWorkOrder { w with acceptance }

/-! ## Branches -/

def reduceBranchInitialized (branch : PlanBranch)
    (state : BranchState) (requiredCriterionIds : List Ref) : Projected Projection := do
  let w ← requireWorkOrder P h
  let planned ← require (w.plan.1.branches.find? (·.branchRef = branch.branchRef))
    ⟨.planBinding, "The initialized branch does not match the immutable plan"⟩
  ensure (planned = branch)
    ⟨.planBinding, "The initialized branch does not match the immutable plan"⟩
  ensure (state = .blocked ∨ state = .ready)
    ⟨.invalid, "event.payload.state must be one of: blocked, ready"⟩
  ensure (requiredCriterionIds ≠ [] ∧ requiredCriterionIds.length ≤ 64 ∧
      requiredCriterionIds.Nodup)
    ⟨.invalid, "event.payload.required_criterion_ids must contain unique values"⟩
  let required := requiredCriterionIds.insertionSort (· ≤ ·)
  ensure ((∀ c ∈ required, c ∈ w.plan.1.criterionIds) ∧
      (planned.role = .integration → required = w.plan.1.criterionIds.insertionSort (· ≤ ·)))
    ⟨.planBinding, "Branch criterion bindings do not match the immutable plan"⟩
  let initial := planned.initial required state
  ensure (¬ isObjectPrototypeKey branch.branchRef)
    ⟨.idConflict, "A branch identifier was reused with conflicting content"⟩
  match w.branches.get? branch.branchRef with
  | some existing => do
    ensure (existing = initial)
      ⟨.idConflict, "A branch identifier was reused with conflicting content"⟩
    return P
  | none => return P.replaceWorkOrder (w.setBranch initial)

def dispatchIdInUse (dispatchId : Ref) : Prop :=
  ∃ b ∈ w.branches.values, b.dispatchId = some dispatchId ∨
    ∃ a ∈ b.attemptHistory.values, a.dispatchId = some dispatchId
deriving Decidable

/-- The lifecycle check of the projector: no violation over the Work Order's own effects. -/
def requireLifecycleSnapshot : Projected Unit :=
  ensure (lifecycleViolations env w (workOrderEffects w.workOrderId P.outbox) = [])
    ⟨.receiptBinding, "The receipt does not close one coherent provider-effect lifecycle"⟩

/-- What the history keeps of the current attempt of a branch. -/
def Branch.attemptRecord : AttemptRecord :=
  ⟨b.attempt, b.dispatchId, b.state, b.delivery, b.result, b.finishedAt⟩

/-- The branch view at the start of a new attempt. -/
def Branch.openAttempt (p : AttemptOpened) : Branch :=
  { b with
    state := .dispatchPending, attempt := p.attempt, dispatchId := some p.dispatchId
    packetRef := some p.packetRef, attemptStartedAt := some p.attemptStartedAt
    attemptDeadlineAt := some p.attemptDeadlineAt, retryAt := none, delivery := none
    threadIdentity := none, runtimeIdentity := none, openUserInput := none
    pendingUserInputEffectId := none, pendingUserInputResponseRef := none, result := none
    verificationByCriterion := .empty, lastProgressAt := none, finishedAt := none
    attemptHistory :=
      if 0 < b.attempt then b.attemptHistory.set b.attempt b.attemptRecord else b.attemptHistory
    lastRuntimeObservation := none, threadCreateEffectId := none
    threadCreateDeliveryHash := none, turnStartEffectId := none, turnStartDeliveryHash := none
    cancelEffectId := none }

/-- A V2 attempt starts from a coherent branch with nothing unresolved. -/
def checkNothingUnresolved : Projected Unit :=
  if w.engineContractVersion = .v2 then do
    requireLifecycleSnapshot env P w
    ensure (unresolvedEffectIds b (workOrderEffects w.workOrderId P.outbox) = []) ⟨.transition,
      "A new attempt cannot start while an earlier provider mutation remains unresolved"⟩
  else return ()

def reduceAttemptOpened (p : AttemptOpened) :
    Projected Projection := do
  let w ← requireWorkOrder P h
  let b ← requireBranch w p.branchRef
  ensure (b.state = .ready ∨ b.state = .retryable ∨ b.state = .failed)
    ⟨.transition, "Cannot open an attempt from branch state"⟩
  checkNothingUnresolved env P w b
  ensure (1 ≤ p.attempt ∧ p.attempt ≤ w.plan.1.retryPolicy.maxAttempts)
    ⟨.invalid, "event.payload.attempt must be an integer from 1 to max_attempts"⟩
  ensure (p.attempt = b.attempt + 1)
    ⟨.transition, "Branch attempts must increase by exactly one"⟩
  ensure (¬ dispatchIdInUse w p.dispatchId)
    ⟨.idConflict, "A dispatch identifier was reused"⟩
  ensure (p.attemptStartedAt < p.attemptDeadlineAt ∧ p.attemptDeadlineAt ≤ w.deadlineAt)
    ⟨.invalid, "The attempt deadline is outside its bounded Work Order window"⟩
  ensure (p.packetHash.all (· = p.packetRef.hash))
    ⟨.planBinding, "Attempt packet hash does not match its content reference"⟩
  ensure (p.retryAt = none)
    ⟨.invalid, "A newly opened attempt cannot retain a retry timer"⟩
  return P.replaceWorkOrder (w.setBranch (b.openAttempt p))

/-! ## Provider stages -/

/-- The attempt or the Work Order has reached its deadline; without an attempt it has. -/
def executionWindowElapsed : Prop :=
  match b.attemptDeadlineAt with
  | none => True
  | some deadline => deadline ≤ occurredAt ∨ w.deadlineAt ≤ occurredAt

instance (w : WorkOrder) (b : Branch) (t : Time) : Decidable (executionWindowElapsed w b t) :=
  match h : b.attemptDeadlineAt with
  | none => isTrue (by simp [executionWindowElapsed, h])
  | some d => decidable_of_iff (d ≤ t ∨ w.deadlineAt ≤ t) (by simp [executionWindowElapsed, h])

/-- `effectDeliveryHash`. -/
def effectDeliveryHash (e : Effect) : Option Digest :=
  e.delivery.map (env.deliveryHash e.toEffectIdentity)

def effectMatchesCurrentAttempt (e : EffectSeed) (w : WorkOrder) (b : Branch) : Prop :=
  e.workOrderId = w.workOrderId ∧ e.branchRef = b.branchRef ∧ e.attempt = b.attempt ∧
    some e.dispatchId = b.dispatchId ∧ e.providerRef = b.providerRef
deriving Decidable

/-- The effect has delivery evidence of this classification. -/
def Effect.classifiedAs (e : Effect) (c : Classification) : Prop :=
  e.delivery.map Delivery.classification = some c
deriving Decidable

/-- The runtime identity recorded with an effect's delivery. -/
def Effect.deliveredIdentity (e : Effect) : Option RuntimeIdentity :=
  e.delivery.bind Delivery.runtimeIdentity

/-- The classification of the current stage of a branch. -/
def Branch.deliveryClass : Option Classification := b.delivery.map BranchDelivery.classification

def acceptedCurrentTurn : Prop :=
  b.deliveryClass = some .accepted ∧ b.runtimeIdentity ≠ none ∧
    ∃ e ∈ b.turnStartEffectId.bind P.outbox.get?,
      e.effectContractVersion = .v2 ∧ e.effectKind = .turnStart ∧
      effectMatchesCurrentAttempt e.toEffectSeed w b ∧ e.status = .delivered ∧
      e.classifiedAs .accepted ∧ e.deliveredIdentity = b.runtimeIdentity ∧
      e.targetRuntimeIdentity = b.threadIdentity ∧
      e.predecessorEffectId = b.threadCreateEffectId ∧
      e.predecessorDeliveryHash = b.threadCreateDeliveryHash ∧
      b.turnStartDeliveryHash = effectDeliveryHash env e
deriving Decidable

/-- The thread was created, no turn start exists, and the time for one has passed. -/
def acceptedThreadWithoutTurnAfterDeadline : Prop :=
  (∃ e ∈ b.threadCreateEffectId.bind P.outbox.get?,
      e.effectContractVersion = .v2 ∧ e.effectKind = .threadCreate ∧
      effectMatchesCurrentAttempt e.toEffectSeed w b ∧ e.status = .delivered ∧
      e.classifiedAs .accepted ∧ e.deliveredIdentity = b.threadIdentity ∧
      e.predecessorEffectId = none ∧ e.predecessorDeliveryHash = none ∧
      e.targetRuntimeIdentity = none ∧ b.threadCreateDeliveryHash = effectDeliveryHash env e) ∧
    b.turnStartEffectId = none ∧
    (∀ c ∈ P.outbox.values, ¬ (c.effectContractVersion = .v2 ∧
      effectMatchesCurrentAttempt c.toEffectSeed w b ∧ c.effectKind = .turnStart)) ∧
    executionWindowElapsed w b occurredAt
deriving Decidable

/-! ## Moving a branch -/

/-- The pending V1 user-input effects that were created at this time. -/
def legacyInputEffects : List Effect :=
  P.outbox.values.filter fun e =>
    e.effectContractVersion = .v1 ∧ effectMatchesCurrentAttempt e.toEffectSeed w b ∧
      e.effectKind = .userInputSubmit ∧ e.status = .pending ∧ e.createdAt = occurredAt

def legacyResolution : Prop :=
  b.pendingUserInputEffectId = none ∧ b.pendingUserInputResponseRef = none ∧
    w.engineContractVersion = .v1 ∧ (legacyInputEffects P w b occurredAt).length = 1
deriving Decidable

/-- The pending V2 submission of a branch was accepted by the current turn. -/
def durableV2Resolution : Prop :=
  ∃ e ∈ b.pendingUserInputEffectId.bind P.outbox.get?,
    e.effectContractVersion = .v2 ∧ effectMatchesCurrentAttempt e.toEffectSeed w b ∧
    e.effectKind = .userInputSubmit ∧ e.status = .delivered ∧ e.classifiedAs .accepted ∧
    e.deliveredIdentity = b.runtimeIdentity
deriving Decidable

/-- The resolution a `waiting_for_user → running` transition has to carry. -/
def resolveUserInput : Projected ResolvedUserInput := do
  ensure (¬ executionWindowElapsed w b occurredAt)
    ⟨.transition, "User input cannot resume an attempt after its execution deadline"⟩
  let mismatch : ProjectionError := ⟨.transition,
    "Resolving user input must bind the one current request and response reference"⟩
  let requestId ← require p.resolvedRequestId mismatch
  let responseRef ← require p.responseRef mismatch
  let request ← require b.openUserInput mismatch
  ensure (requestId = request.requestId) mismatch
  ensure (legacyResolution P w b occurredAt ∨
      (durableV2Resolution P w b ∧ b.pendingUserInputResponseRef = some responseRef)) mismatch
  return ⟨request.requestId, responseRef, occurredAt⟩

/-- Only a transition that resumes a waiting branch carries a resolution. -/
def userInputResolution : Projected (Option ResolvedUserInput) :=
  if p.fromState = .waitingForUser ∧ p.toState = .running then do
    let resolved ← resolveUserInput P w b p occurredAt
    return some resolved
  else do
    ensure (p.resolvedRequestId = none ∧ p.responseRef = none)
      ⟨.invalid, "Only a waiting-for-user transition may carry a user-input resolution"⟩
    return none

/-- The branch view after a status change; `resolved` is what a resolved user input leaves. -/
def Branch.withState (state : BranchState) (reason : String) (retryAt : Option Time)
    (resolved : Option ResolvedUserInput) (occurredAt : Time) : Branch :=
  let abandonsSettledUserInput := b.state = .waitingForUser ∧ b.pendingUserInputEffectId = none ∧
    (state = .cancelling ∨ state.isTerminal)
  { b with
    state, retryAt
    finishedAt := if state.isTerminal then some occurredAt else none
    lastTransitionReason := some reason
    openUserInput :=
      if resolved.isSome ∨ abandonsSettledUserInput then none else b.openUserInput
    pendingUserInputEffectId := if resolved.isSome then none else b.pendingUserInputEffectId
    pendingUserInputResponseRef :=
      if resolved.isSome then none else b.pendingUserInputResponseRef
    lastResolvedUserInput := if resolved.isSome then resolved else b.lastResolvedUserInput }

/-- Exactly a transition to `retryable` carries a retry time, inside the Work Order window. -/
def checkRetryTime : Projected Unit :=
  if p.toState = .retryable then do
    let retryAt ← require p.retryAt
      ⟨.invalid, "A retryable branch transition requires its durable retry time"⟩
    ensure (occurredAt ≤ retryAt ∧ retryAt < w.deadlineAt)
      ⟨.invalid, "The retry time must be within the remaining Work Order window"⟩
  else
    ensure (p.retryAt = none) ⟨.invalid, "Only a retryable transition may carry a retry time"⟩

def reduceBranchStatus :
    Projected Projection := do
  let w ← requireWorkOrder P h
  let b ← requireBranch w p.branchRef
  ensure (b.state = p.fromState ∧ p.toState ∈ p.fromState.transitions)
    ⟨.transition, "Illegal branch transition"⟩
  ensure (p.fromState = .dispatchPending → p.toState = .failed →
      b.deliveryClass = some .notSent ∨
      acceptedThreadWithoutTurnAfterDeadline env P w b h.occurredAt)
    ⟨.transition, "A pending dispatch may fail only when not sent or when an accepted thread " ++
      "cannot start a turn after deadline"⟩
  let resolved ← userInputResolution P w b p h.occurredAt
  checkRetryTime w p h.occurredAt
  ensure (p.toState = .accepted → branchVerificationComplete w b) ⟨.acceptanceGates,
    "A branch requires a current result and every plan-bound verification before acceptance"⟩
  ensure (p.toState = .accepted → w.plan.1.finalBranchRef = some b.branchRef →
      (w.plan.1.reviewMinimum.count : Int) ≤ acceptedReviewCount env w)
    ⟨.acceptanceGates, "The final branch requires clean independent reviews of its current result"⟩
  return P.replaceWorkOrder
    (w.setBranch (b.withState p.toState p.reason p.retryAt resolved h.occurredAt))

end Orquesta
