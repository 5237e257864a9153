import Orquesta.Projector.Outbox

/-!
# Closing an input with its receipt

The receipt of an input binds the complete batch and closes it only in a state
that holds together: the settlement in the batch has exactly the consequence its
policy demands, an expired send leaves one attention and one audit record, and
every branch of a V2 Work Order agrees with its effects.

## Main definitions

* `validateSettlementPolicyEventCoherence`: decider and policy agree on what follows a settlement
* `validateDurableInputClosure`: branches, effects and attention agree
* `reduceReceipt`
-/

namespace Orquesta

open Checked

variable (env : Environment)

/-! ## Reading a batch -/

variable (effectId : Ref) (e : Event)

/-- The policy an event of a settlement batch carries. -/
def Event.policyEntry? : Option SettlementPolicy :=
  match e.body with
  | .runtimeObserved p =>
    if p.observation.payload.isCurrentSettlement then p.settlementPolicy else none
  | .outboxSettled _ p => if p.effect.effectContractVersion = .v2 then p.settlementPolicy else none
  | .outboxSendExpired _ identity _ binding =>
    if identity.effectContractVersion = .v2 then binding.map SendExpiryBinding.settlementPolicy
    else none
  | .recoveryProbeRecorded o _ ledger =>
    if o.payload.settlementName = some .effectSettlement then some ledger.settlementPolicy else none
  | _ => none

/-- The event audits a current settlement: as a runtime observation or as a recovery probe. -/
def Event.isSemantic : Bool :=
  match e.body with
  | .runtimeObserved p => p.observation.payload.isCurrentSettlement
  | .recoveryProbeRecorded o _ _ => o.payload.settlementName = some .effectSettlement
  | _ => false

/-- The event is a runtime audit of a current settlement. -/
def Event.isRuntimeAudit : Bool :=
  match e.body with
  | .runtimeObserved p => p.observation.payload.isCurrentSettlement
  | _ => false

/-- What the settlement checks read of an outbox transition of a V2 effect. -/
structure SettlementTransition where
  effectId : Ref
  effectKind : EffectKind
  classification : Classification
  fencingToken : Option FencingToken
  evidenceRefs : List Ref

/-- `settlementEvents`: the settlements and send expirations of V2 effects. -/
def Event.settlement? : Option SettlementTransition :=
  match e.body with
  | .outboxSettled c p =>
    if p.effect.effectContractVersion = .v2 then
      some ⟨p.effectId, p.effect.effectKind, c, p.fencingToken, e.evidenceRefs⟩
    else none
  | .outboxSendExpired id identity _ binding =>
    if identity.effectContractVersion = .v2 then
      some ⟨id, identity.effectKind, .deliveryUnknown, binding.map (·.fencingToken), e.evidenceRefs⟩
    else none
  | _ => none

/-- The event expires the send of a V2 effect. -/
def Event.expiredSend? : Option Ref :=
  match e.body with
  | .outboxSendExpired id identity _ _ =>
    if identity.effectContractVersion = .v2 then some id else none
  | _ => none

/-- `successorEvents`: the enqueued later generations. -/
def Event.successor? : Option EffectRecord :=
  match e.body with
  | .outboxEnqueued r _ =>
    if r.effectContractVersion = .v2 ∧ r.generationPredecessorEffectId ≠ none then some r else none
  | _ => none

def Event.probeLedger? : Option RecoveryProbeLedger :=
  match e.body with
  | .recoveryProbeRecorded _ _ ledger => some ledger
  | _ => none

/-- The observation of a pre-send failure that is annotated with this effect. -/
def Event.presendFailureOf? : Option Observation :=
  match e.body with
  | .runtimeObserved p =>
    if p.observation.payload.settlementName = some .presendFailure ∧
        p.annotation.map (·.deliveryEffectId) = some effectId then some p.observation else none
  | _ => none

/-- The attention of one kind opened for an effect. -/
def Event.attentionFor? (kind : AttentionKind) (effectId : Ref) (e : Event) :
    Option AttentionPayload :=
  match e.body with
  | .attentionOpened a => if a.kind = kind ∧ a.effectId = some effectId then some a else none
  | _ => none

/-- The event moves this branch to `failed`. -/
def Event.failsBranch (branchRef : Ref) (e : Event) : Bool :=
  match e.body with
  | .branchStatusChanged p => p.branchRef = branchRef ∧ p.toState = .failed
  | _ => false

section Coherence

variable (events : List Event)

def settlementPolicyEntriesFromBatch : Projected (List SettlementPolicy) := do
  ensure (∀ e ∈ events, e.isRuntimeAudit → e.policyEntry?.isSome) ⟨.settlementPolicy,
    "A current provider settlement runtime audit requires its canonical policy"⟩
  return events.filterMap Event.policyEntry?

def canonicalSettlementPolicyFromBatch : Projected (Option SettlementPolicy) := do
  match ← settlementPolicyEntriesFromBatch events with
  | [] => return none
  | policy :: rest => do
    let mismatch : ProjectionError := ⟨.settlementPolicy,
      "Every event in one provider settlement must carry the same canonical policy"⟩
    checkAll (policy :: rest) fun candidate => do
      let _ ← (normalizeSettlementPolicyRecordV2 candidate).mapError fun _ => mismatch
      return ()
    ensure (∀ candidate ∈ rest, candidate = policy) mismatch
    return some policy

/-- The one outbox transition a policy is about; an inconclusive probe of an effect that is
ambiguous already has none. -/
def policySettlement (policy : SettlementPolicy) : Projected (Option SettlementTransition) :=
  match (events.filterMap Event.settlement?).filter (·.effectKind = policy.effectKind) with
  | [] => do
    ensure (policy.classification = .deliveryUnknown) ⟨.settlementPolicy,
      "One provider settlement policy must bind one exact outbox terminal transition"⟩
    ensure (∃ l ∈ events.filterMap Event.probeLedger?, l.classification = .deliveryUnknown)
      ⟨.settlementPolicy,
        "A delivery ambiguity requires either one outbox transition or one " ++
        "inconclusive probe ledger"⟩
    return none
  | [t] => do
    ensure (t.classification = policy.classification) ⟨.settlementPolicy,
      "Settlement classification does not match its exact outbox transition"⟩
    return some t
  | _ => throw ⟨.settlementPolicy,
      "One provider settlement policy must bind one exact outbox terminal transition"⟩

/-- The runtime audit and the attention of a pre-send failure repeat its evidence. -/
def presendEvidenceBinds (batch : Batch) (policy : SettlementPolicy) (effectId : Ref)
    (t : SettlementTransition) : Bool :=
  match events.filterMap (Event.presendFailureOf? effectId),
    events.filterMap fun d => (d.attentionFor? .providerEffectPresendFailure effectId).map
      (·, d.evidenceRefs) with
  | [o], [(a, attentionEvidence)] =>
    match o.payload with
    | .presendFailure _ token reason recordRef =>
      batch.actorId = o.actorId ∧ reason = policy.reason ∧ t.fencingToken = some token ∧
        a.detailRef = recordRef ∧ recordRef.id ∈ t.evidenceRefs ∧ recordRef.id ∈ attentionEvidence
    | _ => false
  | _, _ => false

/-- A pre-send control-plane failure closes one claimed effect into operator-only recovery. -/
def presendFailureCoherent (w : WorkOrder) (batch : Batch) (policy : SettlementPolicy)
    (effectId : Ref) (settlement : Option SettlementTransition) (settled : Option Effect) : Prop :=
  policy.settlementSource = .controlPlane ∧ policy.classification = .notSent ∧
    policy.disposition = .operatorAttention ∧ policy.retryScope = .none ∧
    policy.retryMode = .none ∧ batch.actorType = .system ∧
    (∃ e ∈ settled, e.status = .notSent ∧ e.lease = none ∧
      (w.branches.get? e.branchRef).map Branch.state = some .failed ∧
      (events.filter (Event.failsBranch e.branchRef)).length = 1) ∧
    settlement.any (presendEvidenceBinds events batch policy effectId)
deriving Decidable

/-- What has to follow a start that was proven not sent: an immediate successor, a retryable
branch with its retry time, or a failed branch, as the retry schedule says. -/
def checkRetryOutcome (b : Branch) (schedule : RetrySchedule) (successors : List EffectRecord) :
    Projected Unit := do
  let immediateSuccessor := schedule.permitted ∧ schedule.automatic ∧ schedule.delayMs = 0
  ensure (successors.length = if immediateSuccessor then 1 else 0) ⟨.settlementPolicy,
    "The settlement batch does not contain its exact authorized Effect-generation action"⟩
  if immediateSuccessor then
    ensure (b.state = .dispatchPending ∧
        successors.head?.map (·.operationGeneration) = some schedule.nextGeneration)
      ⟨.settlementPolicy,
        "An immediate successor must reactivate the same pending dispatch generation"⟩
  else if schedule.permitted then
    ensure (b.state = .retryable ∧ b.retryAt = some schedule.eligibleAt) ⟨.settlementPolicy,
      "A deferred or explicit generation must retain its exact durable retry schedule"⟩
  else
    ensure (b.state = .failed) ⟨.settlementPolicy,
      "An exhausted Effect generation must fail without falling back to a branch attempt"⟩

/-- The consequence of a settlement whose policy allows another generation. -/
def checkRetryCandidate (w : WorkOrder) (policy : SettlementPolicy) (settled : Option Effect)
    (successors : List EffectRecord) : Projected Unit := do
  let unproven : ProjectionError := ⟨.settlementPolicy,
    "A retry candidate must retain one exact proven-not-sent Effect generation"⟩
  let e ← require settled unproven
  ensure (e.status = .notSent ∧ policy.retryScope = .effectGeneration) unproven
  if policy.effectKind.isStart then
    let b ← require (w.branches.get? e.branchRef) unproven
    let d ← require e.delivery unproven
    let schedule ← (deriveEffectGenerationRetryScheduleV2 policy w.plan.1.retryPolicy
      e.operationGeneration d.recordedAt b.attemptDeadlineAt w.deadlineAt).mapError fun _ =>
      unproven
    checkRetryOutcome b schedule successors
  else
    ensure (successors = []) ⟨.settlementPolicy,
      "Input and cancel generations are activated only by their explicit command lifecycle"⟩

/-- The batch of a current settlement contains what its policy demands and nothing else. -/
def validateSettlementPolicyEventCoherence (P : Projection) (w : WorkOrder) (batch : Batch) :
    Projected Unit := do
  let entries ← settlementPolicyEntriesFromBatch events
  if events.any Event.isSemantic ∨ events.filterMap Event.expiredSend? ≠ [] then
    ensure (entries ≠ []) ⟨.settlementPolicy,
      "A current provider settlement batch requires one canonical policy"⟩
    let canonical ← canonicalSettlementPolicyFromBatch events
    let policy ← require canonical ⟨.settlementPolicy,
      "A current provider settlement batch requires one canonical policy"⟩
    ensure (∀ e ∈ events, e.eventType ≠ .attemptOpened) ⟨.settlementPolicy,
      "A provider settlement may authorize only an Effect generation, never a branch attempt"⟩
    let settlement ← policySettlement events policy
    let effectId ← require (settlement.map (·.effectId) <|>
        (events.filterMap Event.probeLedger?).head?.map (·.effectId))
      ⟨.settlementPolicy, "A provider settlement policy must bind one Effect identifier"⟩
    let successors := events.filterMap Event.successor?
    ensure (∀ r ∈ successors, r.generationPredecessorEffectId = some effectId)
      ⟨.settlementPolicy, "A settlement batch cannot activate an unrelated Effect generation"⟩
    let settled := P.outbox.get? effectId
    ensure (settlement.isSome →
        ∀ retained ∈ settled.bind Effect.settlementPolicy, retained = policy)
      ⟨.settlementPolicy, "The projected Effect does not retain the settlement batch policy"⟩
    if policy.disposition = .retryCandidate then
      checkRetryCandidate w policy settled successors
    else
      ensure (successors = []) ⟨.settlementPolicy,
        "Only a retry-candidate settlement may activate an Effect generation"⟩
      ensure (policy.reason.isPresendFailure →
          presendFailureCoherent events w batch policy effectId settlement settled)
        ⟨.settlementPolicy, "A pre-send control-plane failure must close one claimed Effect " ++
          "into operator-only recovery"⟩

end Coherence

/-! ## Probes, expirations and send authorizations -/

/-- A recovery probe is journalled in its receipt, under a probe identifier used only once. -/
def validateRecoveryProbeReceipt (P : Projection) (receipt : Receipt) (events : List Event) :
    Projected Unit :=
  match events.filterMap Event.probeLedger? with
  | [] => ensure (receipt.result.recoveryProbeLedger = none)
      ⟨.recoveryProbe, "Only a semantic recovery-probe event may create a probe ledger receipt"⟩
  | [ledger] => do
    ensure (receipt.result.recoveryProbeLedger = some ledger) ⟨.recoveryProbe,
      "Recovery probe event and observation receipt must carry one exact ledger entry"⟩
    ensure (∀ r ∈ P.observationReceipts.values, ∀ prior ∈ r.result.recoveryProbeLedger,
        prior.probeReceiptRef.id ≠ ledger.probeReceiptRef.id)
      ⟨.recoveryProbeReused,
        "Recovery probe receipt identifier cannot be reused by another observation"⟩
  | _ => throw ⟨.recoveryProbe,
      "Recovery probe event and observation receipt must carry one exact ledger entry"⟩

/-- The event audits the expiration of this effect's send. -/
def Event.auditsExpiry : Bool :=
  match e.body with
  | .runtimeObserved p => p.observation.payload.settlementName = some .sendExpiration ∧
      p.annotation.map (·.deliveryEffectId) = some effectId
  | _ => false

/-- The event quarantines a callback that came after this effect's lease. -/
def Event.quarantinesCallback : Bool :=
  match e.body with
  | .lateObservationQuarantined r =>
    r.observation.payload.settlementName = some .effectSettlement ∧
      r.observation.payload.binding?.map (·.effectId) = some effectId ∧
      r.reason = "stale_effect_lease"
  | _ => false

def validateSendExpiryReceipt (receipt : Receipt) (events : List Event) : Projected Unit :=
  match events.filterMap Event.expiredSend? with
  | [] => return ()
  | [effectId] =>
    let late := (events.filter (Event.quarantinesCallback effectId)).length
    ensure ((events.filterMap (Event.attentionFor? .deliveryUnknown effectId)).length = 1 ∧
        (events.filter (Event.auditsExpiry effectId)).length + late = 1 ∧
        (late = 1 → receipt.result.quarantinedReason = some "stale_effect_lease"))
      ⟨.sendExpiry,
        "V2 send expiration requires exact effect attention and one authoritative audit outcome"⟩
  | _ => throw ⟨.sendExpiry, "One observation may expire only one V2 send"⟩

/-- A V2 send event that carries its authorization. -/
def Event.authorizedSend? : Option (SendEvent × SendAuthorization) :=
  match e.body with
  | .outboxSendBegun p =>
    if p.effect.effectContractVersion = .v2 then
      p.authorization.map (⟨e.eventId, e.header, p, e.evidenceRefs⟩, ·)
    else none
  | _ => none

def validateSendAuthorizationReceipt (receipt : Receipt) (events : List Event) : Projected Unit :=
  match events.filterMap Event.authorizedSend? with
  | [] => return ()
  | [(send, a)] => do
    ensure (receipt.sourceType = .internalAction) ⟨.packetVerification,
      "One packet-authorized send must close with one internal-action receipt"⟩
    let mismatch : ProjectionError := ⟨.packetVerification,
      "Send authorization result must repeat the exact durable lease and packet proof"⟩
    let result ← require receipt.result.sendAuthorization mismatch
    ensure (result.internalActionId = receipt.sourceId ∧
      result.workOrderId = receipt.workOrderId ∧
      result.workOrderRevision = receipt.appliedRevision ∧
      result.effectId = send.payload.effectId ∧
      result.fencingToken = send.payload.fencingToken ∧
      result.packetVerificationReceipt = a.packetVerificationReceipt) mismatch
    if a.sendAuthorizationContractVersion = SEND_AUTHORIZATION_CONTRACT_VERSION then
      let bundle ← require result.sendAuthorizationBundle ⟨.packetVerification,
        "Send authorization receipt does not contain one exact content-addressed bundle"⟩
      ensure (env.sendAuthorizationBundleValid bundle) ⟨.packetVerification,
        "Send authorization receipt does not contain one exact content-addressed bundle"⟩
      ensure (bundle.sendEvent = send ∧ bundle.batchId = receipt.batchId) ⟨.packetVerification,
        "Send authorization bundle does not bind the exact atomic send event and batch"⟩
    else
      ensure (result.sendAuthorizationBundle = none) mismatch
  | _ => throw ⟨.packetVerification,
      "One packet-authorized send must close with one internal-action receipt"⟩

/-! ## The settlement bundle -/

/-- How a settlement entered and what it refers to. -/
def ObservationPayload.ingress? : ObservationPayload → Option (IngressKind × ContentRef)
  | sendExpiration _ _ _ ref => some (.expiryReceipt, ref)
  | presendFailure _ _ _ ref => some (.controlPlaneFailure, ref)
  | effectSettlement _ _ (.recoveryProbe ref _) => some (.recoveryProbe, ref)
  | effectSettlement _ _ (.workerResult _ ref) => some (.workerResult, ref)
  | _ => none

/-- `payload.classification`, which only a settlement has among the current observations. -/
def ObservationPayload.settlementClassification? : ObservationPayload → Option Classification
  | effectSettlement _ c _ => some c
  | _ => none

/-- The one current settlement observation every audit event of the batch retains. -/
def providerSettlementObservation (domainEvents : List Event) : Projected Observation :=
  match (domainEvents.filterMap (·.body.observation?)).filter
      (·.payload.isCurrentSettlement) with
  | [] => throw ⟨.providerSettlementBundle,
      "A provider-settlement bundle requires its original current V2 observation envelope"⟩
  | o :: rest => do
    ensure (∀ other ∈ rest, other = o) ⟨.providerSettlementBundle,
      "Every provider-settlement audit event must retain the same original observation"⟩
    return o

def providerSettlementManifestHash (domainEvents : List Event) : Digest :=
  env.canonicalHash (.eventManifest
    (domainEvents.map fun e => (e.eventId, e.eventType, env.eventHash e)))

def Effect.binding (e : Effect) : EffectBinding :=
  ⟨e.effectId, e.effectKind, e.branchRef, e.attempt, e.dispatchId⟩

def validateProviderSettlementReceiptBundle (P : Projection) (receipt : Receipt)
    (domainEvents : List Event) : Projected Unit :=
  if receipt.sourceType = .providerSettlement then do
    let epoch ← require P.providerSettlementEpoch ⟨.providerSettlementCutover,
      "A provider-settlement receipt requires the durable global cutover epoch"⟩
    let unbound : ProjectionError := ⟨.providerSettlementBundle,
      "The provider-settlement bundle does not bind its epoch, observation, and immutable effect"⟩
    let bundle ← require receipt.settlementBundle unbound
    let o ← providerSettlementObservation domainEvents
    let e ← require (P.outbox.get? bundle.effectBinding.effectId) ⟨.providerSettlementBundle,
      "A provider-settlement receipt must bind one projected provider effect"⟩
    ensure (bundle.cutoverId = epoch.cutoverId ∧
      some bundle.observationName = o.payload.settlementName ∧
      bundle.effectBinding = e.binding ∧ bundle.effectContractVersion = e.effectContractVersion ∧
      bundle.mutationIdempotencyKey = e.idempotencyKey ∧
      o.payload.binding? = some e.binding ∧ e.effectContractVersion = .v2) unbound
    let policy ← canonicalSettlementPolicyFromBatch domainEvents
    ensure (some (bundle.ingressKind, bundle.provenanceRef) = o.payload.ingress? ∧
        some bundle.effectiveClassification =
          (policy.map (·.classification) <|> o.payload.settlementClassification?) ∧
        bundle.settlementPolicyHash =
          policy.map (fun p => env.canonicalHash (.settlementPolicy p)) ∧
        bundle.domainEventManifestHash = providerSettlementManifestHash env domainEvents)
      ⟨.providerSettlementBundle, "The provider-settlement bundle does not bind its provenance, " ++
        "policy, or complete event manifest"⟩
    ensure (policy = none →
        domainEvents.map Event.eventType = [.lateObservationQuarantined])
      ⟨.providerSettlementBundle,
        "Only a stale settlement quarantine may close without a canonical settlement policy"⟩
  else return ()

end Orquesta
