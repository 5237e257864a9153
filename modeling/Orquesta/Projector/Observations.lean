import Orquesta.Projector.WorkOrder

/-!
# Reducers for observations, evidence and attention

A runtime observation is projected together with what it settled: when it
classifies a provider effect, that effect must already hold the same
classification, time and runtime identity, and be the current stage of its
branch.  Verification and review records bind the hash of the current result.

## Main definitions

* `normalizeSettlementPolicyRecord`
* `reduceRuntimeObserved`, in the order of the source: `requireSettledStage`, `requireActiveTurn`,
  `Branch.settle`, `Branch.observe`
* `reduceVerification`, `reduceReview`, `reduceAcceptance`
* `reduceLateObservation`, `reduceRecoveryProbeRecorded`
* `reduceAttentionOpened`, `reduceAttentionResolved`
-/

namespace Orquesta

open Checked

variable (env : Environment)

variable (b : Branch) (P : Projection) (h : EventHeader)

variable (o : Observation)

/-- The event retains the observation it was caused by. -/
def normalizeObservationFromEvent : Projected Unit :=
  ensure (o.observationId = h.sourceId ∧ o.workOrderId = h.workOrderId ∧
      o.planSnapshotRef = h.planSnapshotRef ∧ o.planHash = h.planHash)
    ⟨.planBinding, "The retained runtime observation does not match the event binding"⟩

/-- The settlement source and classification a current settlement observation asserts. -/
def ObservationPayload.assertedCertainty :
    ObservationPayload → Option (EffectKind × SettlementSource × Classification)
  | effectSettlement b c provenance => some (b.effectKind, provenance.source, c)
  | sendExpiration b _ _ _ => some (b.effectKind, .controlPlane, .deliveryUnknown)
  | presendFailure b _ _ _ => some (b.effectKind, .controlPlane, .notSent)
  | _ => none

/-- A policy record that satisfies the shared certainty rules and binds the settlement. -/
def normalizeSettlementPolicyRecord (policy : SettlementPolicy) (kind : EffectKind)
    (source : SettlementSource) (classification : Classification) : Projected SettlementPolicy :=
  match normalizeSettlementPolicyRecordV2 policy with
  | .error _ => throw
      ⟨.settlementPolicy, "Settlement policy does not satisfy the shared V2 certainty rules"⟩
  | .ok derived => do
    ensure (derived.effectKind = kind ∧ derived.settlementSource = source ∧
        derived.classification = classification)
      ⟨.settlementPolicy,
        "Settlement policy does not bind the retained provider settlement envelope"⟩
    return derived

/-- Exactly the current settlement observations retain a policy. -/
def checkRetainedPolicy (p : ObservationPayload) (policy : Option SettlementPolicy) :
    Projected Unit :=
  match p.assertedCertainty with
  | some (kind, source, classification) => do
    let policy ← require policy ⟨.settlementPolicy,
      "A V2 provider lifecycle observation must retain its shared certainty policy"⟩
    let _ ← normalizeSettlementPolicyRecord policy kind source classification
    return ()
  | none => ensure (policy = none) ⟨.settlementPolicy,
      "Only a V2 provider lifecycle observation may retain a settlement policy"⟩

/-- The branch states in which an observation may be current. -/
def ObservationPayload.allowedStates : ObservationPayload → List BranchState
  | effectSettlement _ _ _ | sendExpiration _ _ _ _ | effectDelivery _ _ =>
    [.dispatchPending, .deliveryUnknown, .waitingForUser, .cancelling]
  | presendFailure _ _ _ _ => [.dispatchPending, .waitingForUser, .cancelling]
  | dispatchAccepted _ _ _ | dispatchNotSent _ _ _ _ => [.dispatchPending, .deliveryUnknown]
  | progress _ _ _ => [.running, .waitingForUser, .cancelling]
  | resultSubmitted _ _ _ _ => [.running]
  | failed _ _ _ => [.running, .waitingForUser, .verifying, .cancelling]
  | timedOut _ _ _ => [.dispatchPending, .running, .waitingForUser]
  | deliveryUnknown _ _ _ _ => [.dispatchPending, .running, .deliveryUnknown]
  | cancelled _ _ _ => [.cancelling]
  | userInputRequested _ _ _ => [.running]
  | rateLimited _ _ _ | unavailable _ _ _ =>
    [.dispatchPending, .running, .waitingForUser, .deliveryUnknown]
  | workOrderStarted | workOrderCancelled _ | verification _ | review _ => []

/-- The effect a delivery observation settled. -/
structure SettledStage where
  classification : Classification
  effect : Effect
  deliveryHash : Digest
  legacy : Bool

section Stage

variable (P : Projection) (w : WorkOrder) (b : Branch) (h : EventHeader) (p : RuntimeObserved)

variable (c : Classification)

/-- The V1 turn starts an unannotated delivery can be about. -/
def legacyDeliveries : List Effect :=
  P.outbox.values.filter fun e =>
    e.effectContractVersion = .v1 ∧ effectMatchesCurrentAttempt e.toEffectSeed w b ∧
      e.effectKind = .turnStart ∧ e.status = c.settledStatus ∧
      ∃ d ∈ e.delivery, d.classification = c ∧
        (d.recordedAt = h.occurredAt ∨ (c = .deliveryUnknown ∧ d.recordedAt ≤ h.occurredAt)) ∧
        d.runtimeIdentity = p.runtimeIdentity

/-- The effect an observation names, or the one V1 effect it can mean. -/
def requireDeliveryEffect : Projected (Effect × Bool) :=
  match p.annotation with
  | some a => do
    let e ← require (P.outbox.get? a.deliveryEffectId) ⟨.outboxBinding,
      "The runtime observation does not bind the exact settled provider effect"⟩
    ensure (e.effectKind = a.effectKind) ⟨.outboxBinding,
      "The runtime observation does not bind the exact settled provider effect"⟩
    return (e, false)
  | none => do
    ensure (p.observation.payload.binding? = none) ⟨.outboxBinding,
      "A V2 provider delivery observation must identify its exact effect and stage"⟩
    ensure (w.engineContractVersion = .v1) ⟨.outboxBinding,
      "An unannotated legacy delivery cannot cross a V2 provider stage"⟩
    match legacyDeliveries P w b h p c with
    | [e] => return (e, true)
    | _ => throw ⟨.outboxBinding,
        "A legacy delivery event must resolve one exact historical V1 effect"⟩

/-- The settled effect is the current stage of its branch. -/
def checkCurrentStage (e : Effect) (legacy : Bool) : Projected Unit := do
  ensure (legacy = false → e.effectKind = .threadCreate →
      b.threadCreateEffectId = none ∧ b.threadIdentity = none)
    ⟨.outboxBinding, "Thread creation delivery is not the current provider stage"⟩
  ensure (legacy = false → e.effectKind = .turnStart →
      b.turnStartEffectId = none ∧ e.predecessorEffectId = b.threadCreateEffectId ∧
      e.predecessorDeliveryHash = b.threadCreateDeliveryHash ∧
      e.targetRuntimeIdentity = b.threadIdentity)
    ⟨.outboxBinding, "Turn start delivery is not bound to the current thread stage"⟩
  ensure (e.effectKind = .userInputSubmit → b.pendingUserInputEffectId = some e.effectId)
    ⟨.outboxBinding, "User-input delivery is not the current pending submission"⟩
  ensure (e.effectKind = .turnCancel →
      b.state = .cancelling ∧
      (b.cancelEffectId = some e.effectId ∨ (c = .notSent ∧ b.cancelEffectId = none)) ∧
      e.targetRuntimeIdentity = b.runtimeIdentity)
    ⟨.outboxBinding, "Cancel delivery is not bound to the current cancelling turn"⟩

/-- The effect fields of the observation name the settled effect; the historical names carry none
and mean a turn start. -/
def checkPayloadBinding (o : ObservationPayload) (e : Effect) : Projected Unit :=
  match o.binding? with
  | some binding =>
    ensure (binding.effectId = e.effectId ∧ e.effectContractVersion = .v2 ∧
        binding.effectKind = e.effectKind)
      ⟨.outboxBinding, "The V2 delivery payload does not bind the exact provider effect"⟩
  | none =>
    ensure (e.effectKind = .turnStart) ⟨.outboxBinding,
      "Legacy branch.dispatch observations are aliases only for final turn start delivery"⟩

/-- The effect a classified observation has settled, checked against what the event repeats. -/
def requireSettledStage : Projected SettledStage := do
  let (e, legacy) ← requireDeliveryEffect P w b h p c
  let mismatch : ProjectionError := ⟨.outboxBinding,
    "The runtime observation does not bind the exact settled provider effect"⟩
  let d ← require e.delivery mismatch
  ensure (e.status = c.settledStatus ∧ e.branchRef = b.branchRef ∧ e.attempt = b.attempt ∧
      some e.dispatchId = b.dispatchId ∧ d.classification = c ∧
      (d.recordedAt = h.occurredAt ∨
        (legacy ∧ c = .deliveryUnknown ∧ d.recordedAt ≤ h.occurredAt)) ∧
      d.runtimeIdentity = p.runtimeIdentity) mismatch
  checkPayloadBinding p.observation.payload e
  checkCurrentStage b c e legacy
  return ⟨c, e, env.deliveryHash e.toEffectIdentity d, legacy⟩

/-- The stage an observation settled; one that settles nothing carries no annotation. -/
def settledStage? : Projected (Option SettledStage) :=
  match p.observation.payload.deliveryClassification? with
  | some c => do
    let stage ← requireSettledStage env P w b h p c
    return some stage
  | none => do
    ensure (p.annotation = none) ⟨.outboxBinding,
      "Only a provider delivery observation may carry effect stage annotations"⟩
    return none

/-- Turn-bound observations are about the accepted current turn. -/
def requireActiveTurn : Projected Unit :=
  if p.observation.payload.turnBound then
    match p.activeTurn with
    | some turn => do
      let mismatch : ProjectionError := ⟨.outboxBinding,
        "The runtime fact is not bound to the exact accepted current turn"⟩
      let e ← require (P.outbox.get? turn.activeTurnEffectId) mismatch
      ensure (e.effectContractVersion = .v2 ∧ e.effectKind = .turnStart ∧ e.status = .delivered ∧
        some e.effectId = b.turnStartEffectId ∧ e.branchRef = b.branchRef ∧
        e.attempt = b.attempt ∧ some e.dispatchId = b.dispatchId ∧
        turn.activeRuntimeIdentity = b.runtimeIdentity ∧
        turn.activeRuntimeIdentity = e.deliveredIdentity) mismatch
    | none => do
      ensure (w.engineContractVersion = .v1) ⟨.outboxBinding,
        "An unannotated legacy runtime fact cannot cross a V2 provider stage"⟩
      ensure ((P.outbox.values.filter fun e =>
          e.effectContractVersion = .v1 ∧ effectMatchesCurrentAttempt e.toEffectSeed w b ∧
          e.effectKind = .turnStart ∧ e.status = .delivered ∧
          e.deliveredIdentity = b.runtimeIdentity).length = 1)
        ⟨.outboxBinding,
          "An unannotated historical runtime fact must resolve one exact legacy V1 turn"⟩
  else
    ensure (p.activeTurn = none)
      ⟨.outboxBinding, "This runtime observation cannot carry a current-turn binding"⟩

end Stage

/-! ## The branch after an observation -/

/-- An accepted effect becomes the current stage of its branch. -/
def Branch.settleAccepted (stage : SettledStage) (identity : Option RuntimeIdentity)
    (occurredAt : Time) : Projected Branch :=
  if stage.legacy then
    return { b with delivery := some ⟨.accepted, occurredAt⟩, runtimeIdentity := identity }
  else match stage.effect.effectKind with
  | .threadCreate => do
    let mismatch : ProjectionError :=
      ⟨.outboxBinding, "Thread creation must persist one exact thread-only identity"⟩
    let thread ← require identity mismatch
    ensure (thread.threadId ≠ none ∧ thread.turnId = none ∧ b.threadCreateEffectId = none ∧
      b.threadIdentity = none) mismatch
    -- thread creation resolves only the first stage, so its ambiguity is cleared
    return { b with
      delivery := none, threadIdentity := identity
      threadCreateEffectId := some stage.effect.effectId
      threadCreateDeliveryHash := some stage.deliveryHash }
  | .turnStart => do
    let mismatch : ProjectionError :=
      ⟨.outboxBinding, "Turn start must persist a turn on the exact accepted thread predecessor"⟩
    let turn ← require identity mismatch
    let thread ← require b.threadIdentity mismatch
    ensure (turn.threadId ≠ none ∧ turn.turnId ≠ none ∧
      stage.effect.targetRuntimeIdentity = b.threadIdentity ∧ turn.threadId = thread.threadId ∧
      stage.effect.predecessorEffectId = b.threadCreateEffectId ∧
      stage.effect.predecessorDeliveryHash = b.threadCreateDeliveryHash) mismatch
    return { b with
      delivery := some ⟨.accepted, occurredAt⟩, runtimeIdentity := identity
      turnStartEffectId := some stage.effect.effectId
      turnStartDeliveryHash := some stage.deliveryHash }
  | .userInputSubmit => do
    ensure ((b.state = .waitingForUser ∨ b.state = .cancelling) ∧
        b.pendingUserInputEffectId = some stage.effect.effectId ∧
        b.pendingUserInputResponseRef ≠ none ∧ identity ≠ none ∧ identity = b.runtimeIdentity ∧
        identity = stage.effect.targetRuntimeIdentity ∧ b.openUserInput ≠ none)
      ⟨.outboxBinding, "User-input delivery must bind the one pending current request"⟩
    if b.state = .cancelling then
      return { b with pendingUserInputEffectId := none, pendingUserInputResponseRef := none,
                      openUserInput := none }
    else return b
  | .turnCancel => do
    ensure (b.state = .cancelling ∧ identity ≠ none ∧ identity = b.runtimeIdentity ∧
        identity = stage.effect.deliveredIdentity ∧
        stage.effect.targetRuntimeIdentity = b.runtimeIdentity)
      ⟨.outboxBinding, "Cancel delivery must bind the exact current cancelling turn"⟩
    return b

/-- An effect proven not sent leaves its stage open. -/
def Branch.settleNotSent (e : Effect) (occurredAt : Time) : Projected Branch :=
  match e.effectKind with
  | .threadCreate | .turnStart => return { b with delivery := some ⟨.notSent, occurredAt⟩ }
  | .userInputSubmit => do
    ensure (b.pendingUserInputEffectId = some e.effectId ∧ b.pendingUserInputResponseRef ≠ none)
      ⟨.outboxBinding, "Not-sent user input does not bind the pending submission"⟩
    return { b with
      pendingUserInputEffectId := none, pendingUserInputResponseRef := none
      openUserInput := if b.state = .cancelling then none else b.openUserInput }
  | .turnCancel => return b

/-- The branch after its effect was settled. -/
def Branch.settle (stage : SettledStage) (identity : Option RuntimeIdentity)
    (occurredAt : Time) : Projected Branch :=
  match stage.classification with
  | .accepted => b.settleAccepted stage identity occurredAt
  | .notSent => b.settleNotSent stage.effect occurredAt
  | .deliveryUnknown =>
    if stage.effect.effectKind.isStart then
      return { b with delivery := some ⟨.deliveryUnknown, occurredAt⟩ }
    else return b

/-- The branch after an observation that settles no effect. -/
def Branch.observe (o : ObservationPayload) (identity : Option RuntimeIdentity)
    (occurredAt : Time) : Branch :=
  match o with
  | .progress _ _ _ => { b with lastProgressAt := some occurredAt }
  | .resultSubmitted _ _ artifacts evidence =>
    { b with result := some ⟨b.attempt, artifacts, evidence, occurredAt⟩ }
  | .userInputRequested _ requestId promptRef =>
    { b with openUserInput := some ⟨requestId, promptRef, occurredAt⟩ }
  | .cancelled _ _ _ =>
    { b with runtimeIdentity := identity <|> b.runtimeIdentity, cancelEffectId := none }
  | _ => b

/-- The branch after a runtime observation that settled `stage`, if it settled anything. -/
def Branch.afterObservation (stage : Option SettledStage) (p : RuntimeObserved)
    (occurredAt : Time) : Projected Branch :=
  let observed := { b with lastRuntimeObservation := some p.observation }
  match stage with
  | some stage => observed.settle stage p.runtimeIdentity occurredAt
  | none => return observed.observe p.observation.payload p.runtimeIdentity occurredAt

def reduceRuntimeObserved (p : RuntimeObserved) :
    Projected Projection := do
  let w ← requireWorkOrder P h
  normalizeObservationFromEvent h p.observation
  let o := p.observation.payload
  checkRetainedPolicy o p.settlementPolicy
  match o.branchRef? with
  | none => return P
  | some r => do
    let b ← requireBranch w r
    ensure (b.state ∈ o.allowedStates) ⟨.transition,
      "A runtime observation cannot mutate a non-current or terminal branch"⟩
    ensure (o.attempt?.all (· = b.attempt)) ⟨.transition,
      "A current runtime observation must match the current branch attempt"⟩
    ensure (o.dispatchId?.all (some · = b.dispatchId)) ⟨.transition,
      "A current runtime observation must match the current dispatch identifier"⟩
    ensure (¬ (o.inExecutionWindow ∧ executionWindowElapsed w b h.occurredAt)) ⟨.transition,
      "A forward runtime observation cannot advance an attempt after its execution deadline"⟩
    let stage ← settledStage? env P w b h p
    requireActiveTurn P w b p
    ensure (o.isTimeout → b.attemptDeadlineAt.any (· ≤ h.occurredAt)) ⟨.transition,
      "An attempt timeout cannot be recorded before its immutable deadline"⟩
    let next ← b.afterObservation stage p h.occurredAt
    return P.replaceWorkOrder (w.setBranch next)

/-! ## Verification, review and acceptance -/

def reduceVerification (resultHash : Digest) :
    Projected Projection := do
  let w ← requireWorkOrder P h
  normalizeObservationFromEvent h o
  match o.payload with
  | .verification p => do
    let b ← requireBranch w p.branchRef
    ensure (b.state = .verifying ∧ b.result.map env.resultHash = some resultHash)
      ⟨.transition, "Verification requires a submitted current result"⟩
    ensure (p.criterionId ∈ b.requiredCriterionIds)
      ⟨.planBinding, "Verification criterion is not assigned to this branch"⟩
    let mismatch : ProjectionError :=
      ⟨.planBinding, "Verification does not match an immutable plan requirement"⟩
    let criterion ← require (w.plan.1.criterion? p.criterionId) mismatch
    let requirement ← require (criterion.verificationRequirements.find?
      (·.verificationRef.id = p.verificationRef.id)) mismatch
    ensure (requirement.kind = p.kind ∧ requirement.verificationRef = p.verificationRef) mismatch
    ensure (p.kind = .human → o.actorId ∉ w.plan.1.assignees)
      ⟨.planBinding, "Human verification must be independent of all assignees"⟩
    let key := (p.criterionId, p.verificationRef.id)
    let record : VerificationRecord :=
      ⟨p.criterionId, p.verificationRef, p.kind, p.status, p.evidenceRefs, o.actorId, h.occurredAt⟩
    ensure (¬ isObjectPrototypeKey p.verificationRef.id ∧
        (b.verificationByCriterion.get? key).all (· = record))
      ⟨.idConflict, "A verification identifier was reused with conflicting content"⟩
    return P.replaceWorkOrder (w.setBranch
      { b with verificationByCriterion := b.verificationByCriterion.set key record })
  | _ => throw ⟨.invalid, "A verification event must retain a verification observation"⟩

def reduceReview (resultHash : Digest) :
    Projected Projection := do
  let w ← requireWorkOrder P h
  normalizeObservationFromEvent h o
  match o.payload with
  | .review p => do
    let b ← requireBranch w p.branchRef
    ensure ((b.state = .verifying ∨ b.state = .accepted) ∧
        b.result.map env.resultHash = some resultHash)
      ⟨.transition, "Review requires a submitted final-branch result"⟩
    ensure (w.plan.1.finalBranchRef = some b.branchRef ∧ o.actorId ∉ w.plan.1.assignees)
      ⟨.planBinding, "Review must be independent and target the final result branch"⟩
    let record : ReviewRecord :=
      ⟨p.reviewId, b.branchRef, resultHash, p.status, p.findings, p.evidenceRefs, o.actorId,
        h.occurredAt⟩
    ensure (¬ isObjectPrototypeKey p.reviewId ∧
        (w.acceptance.reviews.get? p.reviewId).all (· = record))
      ⟨.idConflict, "A review identifier was reused with conflicting content"⟩
    let acceptance := { w.acceptance with reviews := w.acceptance.reviews.set p.reviewId record }
    return P.replaceWorkOrder { w with acceptance }
  | _ => throw ⟨.invalid, "A review event must retain a review observation"⟩

def reduceAcceptance (record : AcceptanceRecord) :
    Projected Projection := do
  let w ← requireWorkOrder P h
  ensure (w.status = .awaitingAcceptance)
    ⟨.transition, "Acceptance can only be recorded while awaiting acceptance"⟩
  ensure (record.decidedAt = h.occurredAt)
    ⟨.invalid, "Acceptance decision time must equal the event time"⟩
  ensure (w.acceptance.decision.map AcceptanceRecord.decision ≠ some .accepted)
    ⟨.idConflict, "An accepted decision cannot be replaced"⟩
  ensure (∀ entry ∈ w.acceptance.decisionHistory, entry.sourceId ≠ h.sourceId)
    ⟨.idConflict, "An acceptance decision source was reused"⟩
  let entry : AcceptanceHistoryEntry :=
    { record with sourceId := h.sourceId, appliedRevision := h.targetWorkOrderRevision }
  let acceptance := { w.acceptance with
    decision := some record, decisionHistory := w.acceptance.decisionHistory ++ [entry] }
  return P.replaceWorkOrder { w with acceptance }

/-! ## Quarantine and recovery probes -/

def reduceLateObservation (late : LateObservation) :
    Projected Projection := do
  normalizeObservationFromEvent h late.observation
  let record : LateRecord := { late with quarantinedAt := h.occurredAt }
  let id := late.observation.observationId
  ensure (¬ isObjectPrototypeKey id ∧ (P.lateObservations.get? id).all (· = record))
    ⟨.idConflict, "A quarantined observation identifier was reused"⟩
  return { P with lateObservations := P.lateObservations.set id record }

/-- A recovery probe is only journalled; the projection does not change. -/
def reduceRecoveryProbeRecorded
    (identity : EffectIdentity) (ledger : RecoveryProbeLedger) : Projected Projection := do
  normalizeObservationFromEvent h o
  match o.payload with
  | .effectSettlement binding c (.recoveryProbe probeReceiptRef mutationKey) => do
    let mismatch : ProjectionError :=
      ⟨.recoveryProbe, "Recovery probe must target the exact durably ambiguous V2 effect"⟩
    let e ← require (P.outbox.get? identity.effectId) mismatch
    ensure (e.effectContractVersion = .v2 ∧ e.status = .deliveryUnknown ∧
      e.toEffectIdentity = identity) mismatch
    ensure (ledger.effectId = e.effectId ∧ ledger.probeReceiptRef = probeReceiptRef ∧
        ledger.mutationIdempotencyKey = e.idempotencyKey ∧
        ledger.mutationIdempotencyKey = mutationKey ∧ ledger.classification = c)
      ⟨.recoveryProbe, "Recovery probe ledger does not bind the exact effect mutation and outcome"⟩
    let _ ← normalizeSettlementPolicyRecord ledger.settlementPolicy binding.effectKind
      .recoveryProbe c
    return P
  | _ =>
    throw ⟨.recoveryProbe, "Recovery probe journal must retain an exact V2 recovery settlement"⟩

/-! ## Attention -/

def reduceAttentionOpened (a : AttentionPayload) :
    Projected Projection := do
  let w ← requireWorkOrder P h
  ensure (a.openedAt = h.occurredAt) ⟨.invalid, "Attention open time must equal the event time"⟩
  ensure (a.branchRef.all fun r => isObjectPrototypeKey r ∨ (w.branches.get? r).isSome)
    ⟨.branchMissing, "The event references an unknown branch"⟩
  ensure (a.effectId.all fun id => ∃ e ∈ P.outbox.get? id,
      e.workOrderId = w.workOrderId ∧ some e.branchRef = a.branchRef)
    ⟨.outboxBinding, "Effect-scoped attention must bind an effect in the same Work Order branch"⟩
  let attention : Attention := { a with resolution := none }
  ensure (¬ isObjectPrototypeKey a.attentionId ∧
      (w.attention.get? a.attentionId).all (· = attention))
    ⟨.idConflict, "An attention identifier was reused"⟩
  return P.replaceWorkOrder { w with attention := w.attention.set a.attentionId attention }

def reduceAttentionResolved (attentionId : Ref)
    (resolutionRef : ContentRef) (evidenceRefs : List Ref) : Projected Projection := do
  let w ← requireWorkOrder P h
  let a ← require (w.attention.get? attentionId)
    ⟨.attentionMissing, "The attention record does not exist"⟩
  ensure a.isOpen ⟨.transition, "Attention is already resolved"⟩
  let resolved := { a with resolution := some ⟨resolutionRef, evidenceRefs, h.occurredAt⟩ }
  return P.replaceWorkOrder { w with attention := w.attention.set attentionId resolved }

end Orquesta
