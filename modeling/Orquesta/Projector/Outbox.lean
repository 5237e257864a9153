import Orquesta.Projector.Observations

/-!
# Reducers for outbox effects

An effect is enqueued once, with identifiers that hash its request, and from
then on only its progress changes.  A worker claims it under a lease, whose
token fences every later action; it is sent, renewed or requeued under that
token, and settled or cancelled.

## Main definitions

* `normalizeEffect`, `reduceOutboxEnqueued`
* `transitionOutbox`: what every status change of an effect has in common
* `reduceOutboxClaimed`, `reduceOutboxSendBegun`, `reduceOutboxLeaseRenewed`,
  `reduceOutboxRequeued`, `reduceOutboxSendExpired`, `reduceOutboxSettled`, `reduceOutboxCancelled`
-/

namespace Orquesta

open Checked

variable (env : Environment)

/-! ## Enqueueing -/

/-- A new effect: the request of an enqueue event with no progress yet. -/
def EffectRecord.newEffect (r : EffectRecord) : Effect :=
  { r with
    leaseGeneration := 0, lastLeaseId := none, fencingHistory := [], settlementPolicy := none
    packetVerificationReceipt := none, lastDeliveryReason := none }

variable (P : Projection) (w : WorkOrder) (h : EventHeader) (e : Effect) (effectId : Ref)

def normalizeEffect (r : EffectRecord) : Projected Effect := do
  ensure (1 ≤ r.attempt ∧ r.status = .pending)
    ⟨.invalid, "event.payload.effect.status must be one of: pending"⟩
  ensure (r.lease = none) ⟨.invalid, "A new outbox effect cannot already be leased"⟩
  ensure (r.delivery = none)
    ⟨.invalid, "A new outbox effect cannot already have delivery evidence"⟩
  match r.effectContractVersion with
  | .v1 => do
    ensure r.LegacyShape ⟨.invalid, "event.payload.effect is not supported"⟩
    ensure (r.workOrderId = h.workOrderId ∧ r.createdAt = h.occurredAt ∧
        r.updatedAt = h.occurredAt)
      ⟨.planBinding, "The legacy outbox effect does not match its event binding"⟩
    return r.newEffect
  | .v2 => do
    ensure (1 ≤ r.operationGeneration)
      ⟨.invalid, "event.payload.effect.operation_generation must be an integer"⟩
    ensure (r.workOrderId = h.workOrderId ∧ r.originSourceId = h.sourceId ∧
        r.createdAt = h.occurredAt ∧ r.updatedAt = h.occurredAt)
      ⟨.planBinding, "The outbox effect does not match its event binding"⟩
    ensure (r.predecessorEffectId = none ↔ r.predecessorDeliveryHash = none) ⟨.planBinding,
      "An effect predecessor identifier and delivery hash must be present together"⟩
    ensure (r.operationGeneration = 1 ↔ r.generationPredecessorEffectId = none) ⟨.planBinding,
      "Effect generation 1 must be a root and every successor must name its generation predecessor"⟩
    ensure (r.effectId = env.derivedId .effect (.effectSeed r.toEffectSeed) ∧
        r.idempotencyKey = env.derivedId .idempotency (.effectSeed r.toEffectSeed))
      ⟨.planBinding, "The effect identifiers do not hash the exact immutable V2 effect identity"⟩
    return r.newEffect

def assertEffectMatchesEngineContract (e : EffectSeed) : Projected Unit :=
  ensure (e.effectContractVersion = w.engineContractVersion)
    ⟨.version, "An outbox effect cannot implicitly change the Work Order engine contract"⟩

def assertWorkOrderEffectContracts : Projected Unit :=
  ensure (∀ e ∈ P.outbox.values, e.workOrderId = w.workOrderId →
      e.effectContractVersion = w.engineContractVersion)
    ⟨.version, "A Work Order stream cannot mix or implicitly upgrade engine effect contracts"⟩

/-- The branch state a fresh effect of each kind belongs to. -/
def EffectKind.expectedBranchState : EffectKind → BranchState
  | .threadCreate | .turnStart => .dispatchPending
  | .userInputSubmit => .waitingForUser
  | .turnCancel => .cancelling

/-- A later generation of a start stage. -/
def EffectSeed.isStartGeneration (e : EffectSeed) : Prop :=
  e.effectContractVersion = .v2 ∧ 1 < e.operationGeneration ∧ e.effectKind.isStart
deriving Decidable

section Enqueue

variable (P : Projection) (w : WorkOrder) (b : Branch) (h : EventHeader) (e : Effect)

variable (responseRef : Option ContentRef)

/-- The semantic operation of an effect on a branch. -/
def Effect.scopeBinding : OperationScopeBinding where
  effectKind := e.effectKind
  providerRef := e.providerRef
  packetRef := e.packetRef
  packetHash := e.packetHash
  predecessorEffectId := e.predecessorEffectId
  predecessorDeliveryHash := e.predecessorDeliveryHash
  targetRuntimeIdentity := e.targetRuntimeIdentity
  requestId := if e.effectKind = .userInputSubmit then b.openUserInput.map (·.requestId) else none
  responseRef := if e.effectKind = .userInputSubmit then responseRef else none

/-- The policy that settled a generation predecessor decides when and by whom its successor may
be enqueued. -/
def checkGenerationPolicy (predecessor : Effect) (policy : SettlementPolicy) :
    Projected Unit := do
  let invalid : ProjectionError :=
    ⟨.settlementPolicy, "The predecessor settlement does not authorize an Effect generation"⟩
  let policy ← (normalizeSettlementPolicyRecordV2 policy).mapError fun _ => invalid
  ensure (policy.disposition = .retryCandidate ∧ policy.retryScope = .effectGeneration) invalid
  let settled ← require predecessor.delivery invalid
  let schedule ← (deriveEffectGenerationRetryScheduleV2 policy w.plan.1.retryPolicy
    predecessor.operationGeneration settled.recordedAt b.attemptDeadlineAt w.deadlineAt).mapError
      fun _ => invalid
  ensure (schedule.permitted ∧ schedule.eligibleAt ≤ h.occurredAt) ⟨.transition,
    "The Effect generation is exhausted or has not reached its durable retry time"⟩
  let source := w.pendingProjectionInput.map PendingInput.sourceType
  if e.isStartGeneration ∧ b.state = .dispatchPending then
    ensure ((source = some .observation ∨ source = some .providerSettlement) ∧
        policy.retryMode = .automatic ∧ schedule.delayMs = 0 ∧
        h.occurredAt = settled.recordedAt)
      ⟨.settlementPolicy,
        "An in-batch start successor requires an immediate automatic generation policy"⟩
  else
    ensure (source = some .command) ⟨.sourceClass,
      "A deferred or explicit Effect generation requires a command input"⟩
  ensure (e.isStartGeneration → b.state = .retryable → b.retryAt = some schedule.eligibleAt)
    ⟨.settlementPolicy, "A deferred start generation must consume its exact durable retry time"⟩

/-- A later generation succeeds the exact generation that was proven not sent. -/
def checkGenerationPredecessor : Projected Unit :=
  if e.effectContractVersion = .v2 ∧ 1 < e.operationGeneration then do
    let mismatch : ProjectionError := ⟨.outboxBinding,
      "An Effect generation successor requires the exact proven-not-sent predecessor"⟩
    let predecessor ← require (e.generationPredecessorEffectId.bind P.outbox.get?) mismatch
    ensure (predecessor.effectContractVersion = .v2 ∧ predecessor.status = .notSent ∧
      predecessor.operationLane = e.operationLane ∧ predecessor.providerRef = e.providerRef ∧
      predecessor.operationScopeHash = e.operationScopeHash ∧
      predecessor.operationGeneration + 1 = e.operationGeneration) mismatch
    match predecessor.settlementPolicy with
    | some policy => checkGenerationPolicy w b h e predecessor policy
    | none => return ()
  else return ()

/-- A V2 effect builds on the accepted stage before it. -/
def checkStagePredecessor : Projected Unit :=
  let predecessor := e.predecessorEffectId.bind P.outbox.get?
  let predecessorHash := predecessor.bind (effectDeliveryHash env)
  match e.effectKind with
  | .threadCreate =>
    ensure (e.predecessorEffectId = none ∧ e.predecessorDeliveryHash = none ∧
        e.targetRuntimeIdentity = none ∧ b.threadIdentity = none ∧
        b.threadCreateEffectId = none ∧ b.turnStartEffectId = none)
      ⟨.planBinding, "Thread creation must be the first exact provider effect of an attempt"⟩
  | .turnStart =>
    ensure ((∃ p ∈ predecessor, p.effectKind = .threadCreate ∧ p.status = .delivered ∧
          p.workOrderId = e.workOrderId ∧ p.branchRef = e.branchRef ∧ p.attempt = e.attempt ∧
          p.dispatchId = e.dispatchId ∧ b.threadCreateEffectId = some p.effectId) ∧
        b.threadCreateDeliveryHash = predecessorHash ∧
        e.predecessorDeliveryHash = predecessorHash ∧
        e.targetRuntimeIdentity = b.threadIdentity ∧ b.turnStartEffectId = none)
      ⟨.planBinding, "Turn start must bind the exact accepted thread creation and target thread"⟩
  | .userInputSubmit | .turnCancel =>
    ensure ((∃ p ∈ predecessor, p.effectKind = .turnStart ∧ p.status = .delivered ∧
          b.turnStartEffectId = some p.effectId) ∧
        b.turnStartDeliveryHash = predecessorHash ∧
        e.predecessorDeliveryHash = predecessorHash ∧
        e.targetRuntimeIdentity = b.runtimeIdentity)
      ⟨.planBinding, "A turn mutation must bind the exact accepted current turn"⟩

/-- `ACTIVE_CANCEL_EFFECT_STATES`. -/
def EffectStatus.isActiveCancel (s : EffectStatus) : Bool := s.isUnresolved || s = .delivered

/-- One start stage, and one cancellation, of an attempt is active at a time. -/
def checkSingleActive : Projected Unit := do
  ensure (e.effectKind.isStart → ∀ c ∈ P.outbox.values, ¬ (c.workOrderId = e.workOrderId ∧
      c.branchRef = e.branchRef ∧ c.attempt = e.attempt ∧ c.dispatchId = e.dispatchId ∧
      c.effectKind.isStart ∧ c.status.isUnresolved))
    ⟨.transition, "Only one nonterminal provider start stage may exist for an attempt"⟩
  ensure (e.effectKind = .turnCancel → b.cancelEffectId = none ∧ ∀ c ∈ P.outbox.values,
      ¬ (c.effectContractVersion = .v2 ∧ effectMatchesCurrentAttempt c.toEffectSeed w b ∧
        c.effectKind = .turnCancel ∧ c.status.isActiveCancel))
    ⟨.transition, "Only one current V2 cancellation effect may remain active for an attempt"⟩

/-- The checks every new effect passes before its stage is looked at. -/
def checkEnqueued : Projected Unit := do
  ensure (b.attempt = e.attempt ∧ b.dispatchId = some e.dispatchId ∧
      b.providerRef = e.providerRef ∧ e.providerRef ∈ w.plan.1.allowedProviderRefs)
    ⟨.planBinding, "The outbox effect does not match the current branch attempt"⟩
  ensure (if e.isStartGeneration then b.state = .dispatchPending ∨ b.state = .retryable
      else b.state = e.effectKind.expectedBranchState)
    ⟨.transition, "A new outbox effect does not match the current branch lifecycle"⟩
  ensure (e.effectContractVersion = .v2 → e.effectKind = .userInputSubmit →
      b.openUserInput ≠ none ∧ responseRef ≠ none)
    ⟨.planBinding,
      "A user-input effect operation scope requires one exact open request and response"⟩
  ensure (e.effectContractVersion = .v2 → e.operationScopeHash =
      env.deriveEffectOperationScopeHashV2 (e.scopeBinding b responseRef))
    ⟨.planBinding,
      "The outbox effect operation scope does not bind the exact semantic provider mutation"⟩
  checkGenerationPredecessor P w b h e
  ensure (e.effectKind = .turnCancel ∨ ¬ executionWindowElapsed w b h.occurredAt)
    ⟨.transition, "A forward outbox effect cannot be enqueued after its execution deadline"⟩
  ensure (e.effectKind.isStart → b.packetRef = some ⟨e.packetRef, e.packetHash⟩)
    ⟨.planBinding, "The outbox effect packet does not match the immutable attempt packet"⟩

/-- The branch after a V2 effect was enqueued for it. -/
def Branch.withEnqueued : Branch :=
  if e.isStartGeneration then
    { b with
      state := .dispatchPending, retryAt := none, delivery := none, finishedAt := none
      lastTransitionReason := some "effect_generation_activated" }
  else match e.effectKind with
    | .userInputSubmit => { b with
        pendingUserInputEffectId := some e.effectId, pendingUserInputResponseRef := responseRef }
    | .turnCancel => { b with cancelEffectId := some e.effectId }
    | .threadCreate | .turnStart => b

end Enqueue

/-- Store a new effect; an equal one is left as it is, a different one under its identifier is a
conflict. -/
def storeNewEffect : Projected (Option Projection) :=
  match P.outbox.get? e.effectId with
  | some existing => do
    ensure (existing = e)
      ⟨.idConflict, "An outbox effect identifier was reused with conflicting content"⟩
    return none
  | none => return some (P.setEffect e)

def reduceOutboxEnqueued (r : EffectRecord) (responseRef : Option ContentRef) :
    Projected Projection := do
  let w ← requireWorkOrder P h
  let e ← normalizeEffect env h r
  assertEffectMatchesEngineContract w e.toEffectSeed
  ensure ((responseRef.isSome ↔ e.effectKind = .userInputSubmit) ∨
      (e.effectContractVersion = .v1 ∧ responseRef = none))
    ⟨.outboxBinding, "Only a V2 user-input submission may bind one response content reference"⟩
  let b ← requireBranch w e.branchRef
  checkEnqueued env P w b h e responseRef
  if e.effectContractVersion = .v1 then
    let stored ← storeNewEffect P e
    return stored.getD P
  else
    checkStagePredecessor env P b e
    checkSingleActive P w b e
    match ← storeNewEffect P e with
    | none => return P
    | some stored => do
      ensure (e.effectKind = .userInputSubmit → b.pendingUserInputEffectId = none)
        ⟨.transition, "Only one user-input submission may be active for the current request"⟩
      return stored.replaceWorkOrder (w.setBranch (b.withEnqueued e responseRef))

/-! ## Leases and status changes -/

variable (identity : EffectIdentity) (l : Lease)

/-- A lease with a positive generation and a nonempty window. -/
def normalizeLease : Projected Unit :=
  ensure (1 ≤ l.generation ∧ l.claimedAt ≤ l.heartbeatAt ∧ l.heartbeatAt < l.expiresAt)
    ⟨.invalid, "event.payload.lease has an invalid time window"⟩

def expectedLeaseExpiry (occurredAt : Time) : Time :=
  occurredAt + w.plan.1.leasePolicy.leaseDurationMs

/-- The effect an outbox event is about, with its request unchanged. -/
def requireOutboxEffect : Projected Effect := do
  let e ← require (P.outbox.get? effectId)
    ⟨.outboxMissing, "The outbox effect does not exist"⟩
  ensure (e.workOrderId = h.workOrderId)
    ⟨.outboxBinding, "An outbox update cannot cross its immutable Work Order boundary"⟩
  let w ← requireWorkOrder P h
  assertEffectMatchesEngineContract w e.toEffectSeed
  ensure (e.toEffectIdentity = identity)
    ⟨.outboxImmutable, "An outbox update attempted to mutate immutable request data"⟩
  return e

/-- Whether a start effect is the current provider stage of its branch. -/
def currentStartStage (b : Branch) (e : EffectSeed) : Prop :=
  match e.effectKind with
  | .threadCreate => b.threadCreateEffectId = none ∧ b.threadIdentity = none
  | _ => e.predecessorEffectId = b.threadCreateEffectId ∧
      e.predecessorDeliveryHash = b.threadCreateDeliveryHash ∧
      e.targetRuntimeIdentity = b.threadIdentity ∧ b.turnStartEffectId = none

instance (b : Branch) (e : EffectSeed) : Decidable (currentStartStage b e) :=
  match h : e.effectKind with
  | .threadCreate =>
    decidable_of_iff (b.threadCreateEffectId = none ∧ b.threadIdentity = none)
      (by simp [currentStartStage, h])
  | .turnStart | .userInputSubmit | .turnCancel =>
    decidable_of_iff (e.predecessorEffectId = b.threadCreateEffectId ∧
        e.predecessorDeliveryHash = b.threadCreateDeliveryHash ∧
        e.targetRuntimeIdentity = b.threadIdentity ∧ b.turnStartEffectId = none)
      (by simp [currentStartStage, h])

/-- The branch and Work Order let a worker act on the effect. -/
def checkWorkerStage (b : Branch) (e : Effect) : Projected Unit :=
  match e.effectKind with
  | .threadCreate | .turnStart => do
    ensure (b.state = .dispatchPending ∧ (w.status = .starting ∨ w.status = .running))
      ⟨.transition, "A start effect requires a current pending branch in a runnable Work Order"⟩
    ensure (e.effectContractVersion = .v2 → currentStartStage b e.toEffectSeed)
      ⟨.outboxBinding, "The start effect is not the one current V2 provider stage"⟩
  | .userInputSubmit =>
    ensure (w.status = .running ∧
        ((e.effectContractVersion = .v1 ∧ b.state = .running) ∨
          (e.effectContractVersion = .v2 ∧ b.state = .waitingForUser ∧
            b.pendingUserInputEffectId = some e.effectId)))
      ⟨.transition, "A user-input effect requires the one current waiting submission"⟩
  | .turnCancel =>
    ensure (b.state = .cancelling ∧ (e.effectContractVersion = .v2 →
        e.targetRuntimeIdentity = b.runtimeIdentity ∧
        e.predecessorEffectId = b.turnStartEffectId ∧
        e.predecessorDeliveryHash = b.turnStartDeliveryHash))
      ⟨.transition, "A cancel effect requires the exact current cancelling branch"⟩

def assertOutboxWorkerActionEligible :
    Projected Unit := do
  let w ← requireWorkOrder P h
  assertEffectMatchesEngineContract w e.toEffectSeed
  assertWorkOrderEffectContracts P w
  let b ← requireBranch w e.branchRef
  ensure (e.workOrderId = w.workOrderId ∧ e.attempt = b.attempt ∧
      some e.dispatchId = b.dispatchId ∧ e.providerRef = b.providerRef)
    ⟨.outboxBinding, "The outbox effect no longer binds the current branch attempt"⟩
  checkWorkerStage w b e
  ensure (e.effectKind = .turnCancel ∨ ¬ executionWindowElapsed w b h.occurredAt)
    ⟨.transition,
      "A forward effect cannot start or renew after its attempt or Work Order deadline"⟩

/-- A status change of an effect: legal, not back in time, and without touching the request.
`mutate` completes the effect with its new status and time. -/
def transitionOutbox (status : EffectStatus) (mutate : Effect → Projected Effect) :
    Projected Effect := do
  let e ← requireOutboxEffect P h effectId identity
  ensure (status ∈ e.status.transitions) ⟨.transition, "Illegal outbox transition"⟩
  ensure (e.updatedAt ≤ h.occurredAt)
    ⟨.transition, "An outbox transition cannot move its durable time backwards"⟩
  let next ← mutate e
  ensure (next.toEffectIdentity = e.toEffectIdentity)
    ⟨.outboxImmutable, "An outbox transition mutated immutable request data"⟩
  return { next with status, updatedAt := h.occurredAt }

/-- The effect after a claim under a new lease. -/
def Effect.claim : Effect :=
  { e with
    lease := some l, leaseGeneration := l.generation, lastLeaseId := some l.leaseId
    fencingHistory := if e.effectContractVersion = .v2 then e.fencingHistory ++ [l.token]
      else e.fencingHistory }

def reduceOutboxClaimed : Projected Projection := do
  let w ← requireWorkOrder P h
  let current ← requireOutboxEffect P h effectId identity
  assertOutboxWorkerActionEligible P h current
  let next ← transitionOutbox P h effectId identity .claimed fun e => do
    normalizeLease l
    ensure (l.generation = e.leaseGeneration + 1 ∧ l.claimedAt = h.occurredAt ∧
        l.heartbeatAt = h.occurredAt ∧ l.expiresAt = expectedLeaseExpiry w h.occurredAt)
      ⟨.transition, "A claim must advance one generation and use the plan-bound lease window"⟩
    ensure (e.effectContractVersion = .v2 → e.fencingHistory.length = e.leaseGeneration)
      ⟨.transition, "A V2 claim requires contiguous projector-derived fencing history"⟩
    return e.claim l
  return P.setEffect next

/-- `SEND_AUTHORIZATION_CONTRACT_VERSION`. -/
def SEND_AUTHORIZATION_CONTRACT_VERSION : Nat := 2

/-- `normalizeSendAuthorizationOperationScopeBindingV2`: the scope is derived from the effect. -/
def scopeBindingValid (s : OperationScopeBinding) (e : EffectIdentity) : Prop :=
  s.effectKind = e.effectKind ∧ s.providerRef = e.providerRef ∧ s.packetRef = e.packetRef ∧
    s.packetHash = e.packetHash ∧ s.predecessorEffectId = e.predecessorEffectId ∧
    s.predecessorDeliveryHash = e.predecessorDeliveryHash ∧
    s.targetRuntimeIdentity = e.targetRuntimeIdentity ∧
    (if e.effectKind = .threadCreate then
        s.predecessorEffectId = none ∧ s.predecessorDeliveryHash = none ∧
          s.targetRuntimeIdentity = none
      else s.predecessorEffectId ≠ none ∧ s.predecessorDeliveryHash ≠ none ∧
        s.targetRuntimeIdentity ≠ none) ∧
    (if e.effectKind = .userInputSubmit then s.requestId ≠ none ∧ s.responseRef ≠ none
      else s.requestId = none ∧ s.responseRef = none) ∧
    env.deriveEffectOperationScopeHashV2 s = e.operationScopeHash
deriving Decidable

/-- A V2 send carries its packet proof and scope exactly when the settlement epoch is active. -/
def checkSendAuthorization (authorization : Option SendAuthorization) : Projected Unit :=
  match P.providerSettlementEpoch, e.effectContractVersion with
  | some epoch, .v2 => do
    let a ← require authorization ⟨.packetVerification,
      "An Effect V2 send begin requires the complete send-authorization V2 event"⟩
    let r := a.packetVerificationReceipt
    ensure (r.effectIdentity = e.toEffectIdentity ∧ r.workOrderId = w.workOrderId ∧
        r.workOrderRevision ≤ w.revision ∧ r.planSnapshotRef = w.planSnapshotRef ∧
        r.planHash = w.planHash ∧ r.engineContractVersion = w.engineContractVersion ∧
        env.packetReceiptBinds r w.plan e.branchRef)
      ⟨.packetVerification, "Packet verification receipt does not bind the current immutable " ++
        "Work Order plan and Effect"⟩
    ensure (scopeBindingValid env a.operationScopeBinding e.toEffectIdentity)
      ⟨.packetVerification,
        "Send authorization operation scope does not bind the projected Effect"⟩
    ensure (epoch.sendAuthorizationContractVersion = SEND_AUTHORIZATION_CONTRACT_VERSION ∧
        a.sendAuthorizationContractVersion = SEND_AUTHORIZATION_CONTRACT_VERSION ∧
        a.providerSettlementCutoverId = epoch.cutoverId ∧
        some a.leaseExpiresAt = e.lease.map Lease.expiresAt)
      ⟨.providerSettlementCutover,
        "Send authorization must bind the active V2 cutover and exact entry lease window"⟩
  | _, _ => ensure (authorization = none) ⟨.providerSettlementCutover,
      "Packet-authorized send begin requires the durable provider-settlement cutover epoch"⟩

def reduceOutboxSendBegun (p : SendBegun) :
    Projected Projection := do
  let current ← requireOutboxEffect P h p.effectId p.effect
  assertOutboxWorkerActionEligible P h current
  let w ← requireWorkOrder P h
  checkSendAuthorization env P w current p.authorization
  let next ← transitionOutbox P h p.effectId p.effect .sending fun e => do
    let stale : ProjectionError := ⟨.transition, "Send begin requires the current lease token"⟩
    let l ← require e.lease stale
    ensure (l.token = p.fencingToken ∧ h.occurredAt < l.expiresAt) stale
    return match p.authorization with
      | some a => { e with packetVerificationReceipt := some a.packetVerificationReceipt }
      | none => e
  return P.setEffect next

def reduceOutboxLeaseRenewed : Projected Projection := do
  let w ← requireWorkOrder P h
  let e ← requireOutboxEffect P h effectId identity
  assertOutboxWorkerActionEligible P h e
  let unleased : ProjectionError :=
    ⟨.transition, "Only a currently leased outbox effect may renew its lease"⟩
  ensure (e.status = .claimed ∨ e.status = .sending) unleased
  let held ← require e.lease unleased
  normalizeLease l
  ensure (l.token = held.token ∧ l.claimedAt = held.claimedAt ∧
      held.heartbeatAt < l.heartbeatAt ∧ held.expiresAt < l.expiresAt ∧
      l.heartbeatAt = h.occurredAt ∧ l.expiresAt = expectedLeaseExpiry w h.occurredAt ∧
      h.occurredAt < held.expiresAt ∧ e.updatedAt ≤ h.occurredAt)
    ⟨.transition, "A lease renewal must extend the current immutable lease token"⟩
  return P.setEffect { e with lease := some l, updatedAt := h.occurredAt }

def reduceOutboxRequeued (token : FencingToken) (reason : String) :
    Projected Projection := do
  let next ← transitionOutbox P h effectId identity .pending fun e => do
    let stale : ProjectionError := ⟨.transition, "Requeue requires the current lease token"⟩
    let l ← require e.lease stale
    ensure (l.token = token ∧ l.expiresAt ≤ h.occurredAt) stale
    return { e with lease := none, packetVerificationReceipt := none,
                    lastDeliveryReason := some reason }
  return P.setEffect next

/-! ## Settlement -/

/-- `normalizeDelivery`. -/
def normalizeDelivery (d : Delivery) (expected : Classification) : Projected Unit :=
  ensure (d.classification = expected)
    ⟨.invalid, "event.payload.delivery.classification does not match"⟩

/-- Only an observation, or a provider settlement, may persist a settlement policy. -/
def WorkOrder.settlesFromObservation : Prop :=
  ∃ pending ∈ w.pendingProjectionInput,
    pending.sourceType = .observation ∨ pending.sourceType = .providerSettlement
deriving Decidable

/-- The V2 part of a send expiration binds the lease that expired. -/
def checkSendExpiry (binding : Option SendExpiryBinding) : Projected (Option SettlementPolicy) :=
  match e.effectContractVersion with
  | .v2 => do
    ensure w.settlesFromObservation
      ⟨.sourceClass, "A live V2 send expiration must be an atomic observation input"⟩
    let v2 ← require binding ⟨.invalid, "event.payload.fencing_token must be an object"⟩
    ensure (v2.fencingToken = l.token ∧ v2.leaseExpiresAt = l.expiresAt)
      ⟨.transition, "V2 send expiration must bind the exact current lease token and window"⟩
    let policy ← normalizeSettlementPolicyRecord v2.settlementPolicy e.effectKind .controlPlane
      .deliveryUnknown
    return some policy
  | .v1 => do
    ensure (binding = none)
      ⟨.invalid, "Historical V1 send expiration cannot carry V2 lifecycle fields"⟩
    return e.settlementPolicy

def reduceOutboxSendExpired (d : Delivery) (binding : Option SendExpiryBinding) :
    Projected Projection := do
  let w ← requireWorkOrder P h
  let next ← transitionOutbox P h effectId identity .deliveryUnknown fun e => do
    let live : ProjectionError :=
      ⟨.transition, "Only an expired sending lease may become delivery unknown"⟩
    let l ← require e.lease live
    ensure (l.expiresAt ≤ h.occurredAt) live
    normalizeDelivery d .deliveryUnknown
    ensure (d.runtimeIdentity = none ∧ d.recordedAt = h.occurredAt) ⟨.invalid,
      "An expired send must record local ambiguity without inventing runtime identity"⟩
    let policy ← checkSendExpiry w e l binding
    return { e with lease := none, delivery := some d, settlementPolicy := policy }
  let stored := P.setEffect next
  if next.effectContractVersion = .v2 ∧ next.effectKind.isStart then
    let b ← requireBranch w next.branchRef
    return stored.replaceWorkOrder (w.setBranch
      { b with delivery := some ⟨.deliveryUnknown, h.occurredAt⟩ })
  else return stored

/-- A settlement is fenced by the live lease; reconciling an ambiguous delivery has none. -/
def checkSettlementToken (token : Option FencingToken) : Projected Unit :=
  if e.status = .deliveryUnknown then
    ensure (token = none) ⟨.transition,
      "Ambiguous-delivery reconciliation cannot reuse an expired worker lease"⟩
  else do
    let stale : ProjectionError :=
      ⟨.transition, "Delivery settlement requires the current lease fencing token"⟩
    let t ← require token stale
    let l ← require e.lease stale
    ensure (l.token = t ∧ h.occurredAt < l.expiresAt) stale

/-- The policy an effect has after a settlement. -/
def settledPolicy (d : Delivery) (policy : Option SettlementPolicy) :
    Projected (Option SettlementPolicy) :=
  match policy with
  | some policy => do
    ensure (e.effectContractVersion = .v2 ∧ w.settlesFromObservation) ⟨.settlementPolicy,
      "Only an atomic V2 observation settlement may persist shared policy"⟩
    let derived ← normalizeSettlementPolicyRecord policy e.effectKind policy.settlementSource
      d.classification
    return some derived
  | none => do
    ensure (e.settlementPolicy = none) ⟨.settlementPolicy,
      "A settled V2 generation cannot replace its durable settlement policy"⟩
    return none

/-- The branch whose current cancellation the effect is. -/
def requireCurrentCancel (message : String) : Projected Branch := do
  let b ← requireBranch w e.branchRef
  ensure (b.cancelEffectId = some e.effectId) ⟨.outboxBinding, message⟩
  return b

def reduceOutboxSettled (c : Classification) (p : OutboxSettled) : Projected Projection := do
  let w ← requireWorkOrder P h
  let next ← transitionOutbox P h p.effectId p.effect c.settledStatus fun e => do
    checkSettlementToken h e p.fencingToken
    normalizeDelivery p.delivery c
    ensure (p.delivery.recordedAt = h.occurredAt)
      ⟨.invalid, "Delivery evidence time must equal the event time"⟩
    let policy ← settledPolicy w e p.delivery p.settlementPolicy
    return { e with lease := none, delivery := some p.delivery, settlementPolicy := policy }
  let stored := P.setEffect next
  if next.effectContractVersion = .v2 ∧ next.effectKind = .turnCancel then
    let b ← requireCurrentCancel w next
      "A cancellation settlement must bind the one current cancel effect"
    if c = .notSent then
      return stored.replaceWorkOrder (w.setBranch { b with cancelEffectId := none })
    else return stored
  else return stored

def reduceOutboxCancelled (reason : String) : Projected Projection := do
  let w ← requireWorkOrder P h
  let next ← transitionOutbox P h effectId identity .cancelled fun e =>
    return { e with lease := none, lastDeliveryReason := some reason }
  let stored := P.setEffect next
  match next.effectContractVersion, next.effectKind with
  | .v2, .turnCancel => do
    let b ← requireCurrentCancel w next
      "A locally cancelled provider cancellation must be the one current effect"
    return stored.replaceWorkOrder (w.setBranch { b with cancelEffectId := none })
  | .v2, .userInputSubmit => do
    let b ← requireBranch w next.branchRef
    ensure (b.pendingUserInputEffectId = some next.effectId) ⟨.outboxBinding,
      "A locally cancelled user-input effect must be the one pending submission"⟩
    return stored.replaceWorkOrder (w.setBranch { b with
      openUserInput := none, pendingUserInputEffectId := none,
      pendingUserInputResponseRef := none })
  | _, _ => return stored

end Orquesta
