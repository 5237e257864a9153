import Orquesta.State.Records

/-!
# Business events and receipts

An accepted input is one atomic batch: its domain events, all with the same
header, followed by the receipt that closes it.  `EventBody` has one constructor
for each event type, except that the three settlement events and the four
receipt events, which share a reducer, are one constructor each with the
classification or source class as an argument.

Optional fields that the projector only accepts together are one optional
record: the effect annotations of a runtime observation, its current-turn
binding, the send authorization, and the V2 part of a send expiration.

## Main definitions

* `EventHeader`, `EventBody`, `Event`, `BusinessEvent`
* `Receipt`, `StoredReceipt`
* `Batch`
* `EventBody.eventType`
-/

namespace Orquesta

/-- `BUSINESS_EVENT_TYPES`, without the two cutover events. -/
inductive EventType
  | workOrderCreated | workOrderStatusChanged | contextBudgetVerified | branchInitialized
  | attemptOpened | branchStatusChanged | runtimeObserved | verificationRecorded | reviewRecorded
  | acceptanceRecorded | lateObservationQuarantined | recoveryProbeRecorded | outboxEnqueued
  | outboxClaimed | outboxSendBegun | outboxLeaseRenewed | outboxRequeued | outboxSendExpired
  | outboxSettled (classification : Classification)
  | outboxCancelled
  | received (sourceType : SourceType)
  | attentionOpened | attentionResolved
deriving DecidableEq

/-- The payload fields every domain event of an input repeats. -/
structure EventHeader where
  (workOrderId planSnapshotRef : Ref)
  planHash : Digest
  sourceId : Ref
  (priorWorkOrderRevision targetWorkOrderRevision : Nat)
  occurredAt : Time
deriving DecidableEq

structure WorkOrderCreated where
  plan : Plan
  deadlineAt : Time
  engineContractVersion : ContractVersion
  revision : Option Nat
  status : Option WorkOrderStatus
  createdAt : Option Time
deriving DecidableEq

structure AttemptOpened where
  branchRef : Ref
  attempt : Nat
  dispatchId : Ref
  (attemptStartedAt attemptDeadlineAt : Time)
  packetRef : ContentRef
  packetHash : Option Digest
  retryAt : Option Time
deriving DecidableEq

structure BranchStatusChanged where
  branchRef : Ref
  (fromState toState : BranchState)
  reason : String
  retryAt : Option Time
  resolvedRequestId : Option Ref
  responseRef : Option ContentRef
deriving DecidableEq

/-- `delivery_effect_id` and `effect_kind` of a runtime observation. -/
structure EffectAnnotation where
  deliveryEffectId : Ref
  effectKind : EffectKind
deriving DecidableEq

/-- `active_turn_effect_id` and `active_runtime_identity` of a runtime observation. -/
structure ActiveTurn where
  activeTurnEffectId : Ref
  activeRuntimeIdentity : Option RuntimeIdentity
deriving DecidableEq

structure RuntimeObserved where
  observation : Observation
  runtimeIdentity : Option RuntimeIdentity
  annotation : Option EffectAnnotation
  activeTurn : Option ActiveTurn
  settlementPolicy : Option SettlementPolicy
deriving DecidableEq

structure LateObservation where
  observation : Observation
  reason : String
  artifactRefs : List ContentRef
  evidenceRefs : List Ref
deriving DecidableEq

structure RecoveryProbeLedger where
  effectId : Ref
  probeReceiptRef : ContentRef
  mutationIdempotencyKey : Ref
  classification : Classification
  settlementPolicy : SettlementPolicy
deriving DecidableEq

/-- The semantic operation an effect's operation scope is the hash of. -/
structure OperationScopeBinding where
  effectKind : EffectKind
  (providerRef packetRef : Ref)
  packetHash : Digest
  predecessorEffectId : Option Ref
  predecessorDeliveryHash : Option Digest
  targetRuntimeIdentity : Option RuntimeIdentity
  requestId : Option Ref
  responseRef : Option ContentRef
deriving DecidableEq

/-- What a send begin carries once the provider-settlement epoch is active. -/
structure SendAuthorization where
  packetVerificationReceipt : PacketVerificationReceipt
  sendAuthorizationContractVersion : Nat
  leaseExpiresAt : Time
  providerSettlementCutoverId : Ref
  operationScopeBinding : OperationScopeBinding
deriving DecidableEq

structure SendBegun where
  effectId : Ref
  effect : EffectIdentity
  fencingToken : FencingToken
  authorization : Option SendAuthorization
deriving DecidableEq

/-- The V2 part of a send expiration. -/
structure SendExpiryBinding where
  fencingToken : FencingToken
  leaseExpiresAt : Time
  expiryTriggerRef : ContentRef
  settlementPolicy : SettlementPolicy
deriving DecidableEq

structure OutboxSettled where
  effectId : Ref
  effect : EffectIdentity
  fencingToken : Option FencingToken
  delivery : Delivery
  settlementPolicy : Option SettlementPolicy
deriving DecidableEq

/-! ## Receipts -/

/-- A send event on its own, as a send authorization bundle repeats it. -/
structure SendEvent where
  eventId : Ref
  header : EventHeader
  payload : SendBegun
  evidenceRefs : List Ref
deriving DecidableEq

structure SendAuthorizationBundle where
  sendEvent : SendEvent
  batchId : Ref
  bundleHash : Digest
deriving DecidableEq

structure SendAuthorizationResult where
  (internalActionId workOrderId : Ref)
  workOrderRevision : Nat
  effectId : Ref
  fencingToken : FencingToken
  packetVerificationReceipt : PacketVerificationReceipt
  sendAuthorizationBundle : Option SendAuthorizationBundle
deriving DecidableEq

/-- One window of the provider entry chain of an authorized send. -/
structure ProviderEntryWindow where
  windowSequence : Nat
  sourceEventId : Ref
  leaseExpiresAt : Time
  authorizedFencingToken : FencingToken
  windowHash : Digest
deriving DecidableEq

/-- The fields of a receipt's result that the projector reads. -/
structure ReceiptResult where
  quarantinedReason : Option String
  recoveryProbeLedger : Option RecoveryProbeLedger
  sendAuthorization : Option SendAuthorizationResult
  providerEntryWindowContinuation : Option ProviderEntryWindow
deriving DecidableEq

inductive IngressKind
  | workerResult | recoveryProbe | expiryReceipt | controlPlaneFailure
deriving DecidableEq

structure ProviderSettlementBundle where
  cutoverId : Ref
  observationName : SettlementObservationName
  effectBinding : EffectBinding
  effectContractVersion : ContractVersion
  mutationIdempotencyKey : Ref
  ingressKind : IngressKind
  provenanceRef : ContentRef
  effectiveClassification : Classification
  settlementPolicyHash : Option Digest
  domainEventManifestHash : Digest
deriving DecidableEq

structure Receipt where
  sourceId : Ref
  sourceType : SourceType
  (identityHash payloadHash : Digest)
  workOrderId : Ref
  appliedRevision : Nat
  batchId : Ref
  eventIds : List Ref
  result : ReceiptResult
  settlementBundle : Option ProviderSettlementBundle
deriving DecidableEq

/-- A projected receipt: what it closed, with the hash of every event of the input. -/
structure StoredReceipt extends Receipt where
  eventHashes : OrderedMap Ref Digest
deriving DecidableEq

/-! ## Events -/

inductive EventBody
  | workOrderCreated (payload : WorkOrderCreated)
  | workOrderStatusChanged (fromStatus toStatus : WorkOrderStatus) (reason : String)
  | contextBudgetVerified (receipt : ContextBudgetReceipt)
  | branchInitialized (branch : PlanBranch) (state : BranchState) (requiredCriterionIds : List Ref)
  | attemptOpened (payload : AttemptOpened)
  | branchStatusChanged (payload : BranchStatusChanged)
  | runtimeObserved (payload : RuntimeObserved)
  | verificationRecorded (observation : Observation) (resultHash : Digest)
  | reviewRecorded (observation : Observation) (resultHash : Digest)
  | acceptanceRecorded (record : AcceptanceRecord)
  | lateObservationQuarantined (record : LateObservation)
  | recoveryProbeRecorded (observation : Observation) (effect : EffectIdentity)
      (ledger : RecoveryProbeLedger)
  | outboxEnqueued (effect : EffectRecord) (userInputResponseRef : Option ContentRef)
  | outboxClaimed (effectId : Ref) (effect : EffectIdentity) (lease : Lease)
  | outboxSendBegun (payload : SendBegun)
  | outboxLeaseRenewed (effectId : Ref) (effect : EffectIdentity) (lease : Lease)
  | outboxRequeued (effectId : Ref) (effect : EffectIdentity) (fencingToken : FencingToken)
      (reason : String)
  | outboxSendExpired (effectId : Ref) (effect : EffectIdentity) (delivery : Delivery)
      (binding : Option SendExpiryBinding)
  | outboxSettled (classification : Classification) (payload : OutboxSettled)
  | outboxCancelled (effectId : Ref) (effect : EffectIdentity) (reason : String)
  | received (sourceType : SourceType) (receipt : Receipt)
  | attentionOpened (attention : AttentionPayload)
  | attentionResolved (attentionId : Ref) (resolutionRef : ContentRef) (evidenceRefs : List Ref)
deriving DecidableEq

def EventBody.eventType : EventBody → EventType
  | workOrderCreated _ => .workOrderCreated
  | workOrderStatusChanged _ _ _ => .workOrderStatusChanged
  | contextBudgetVerified _ => .contextBudgetVerified
  | branchInitialized _ _ _ => .branchInitialized
  | attemptOpened _ => .attemptOpened
  | branchStatusChanged _ => .branchStatusChanged
  | runtimeObserved _ => .runtimeObserved
  | verificationRecorded _ _ => .verificationRecorded
  | reviewRecorded _ _ => .reviewRecorded
  | acceptanceRecorded _ => .acceptanceRecorded
  | lateObservationQuarantined _ => .lateObservationQuarantined
  | recoveryProbeRecorded _ _ _ => .recoveryProbeRecorded
  | outboxEnqueued _ _ => .outboxEnqueued
  | outboxClaimed _ _ _ => .outboxClaimed
  | outboxSendBegun _ => .outboxSendBegun
  | outboxLeaseRenewed _ _ _ => .outboxLeaseRenewed
  | outboxRequeued _ _ _ _ => .outboxRequeued
  | outboxSendExpired _ _ _ _ => .outboxSendExpired
  | outboxSettled c _ => .outboxSettled c
  | outboxCancelled _ _ _ => .outboxCancelled
  | received t _ => .received t
  | attentionOpened _ => .attentionOpened
  | attentionResolved _ _ _ => .attentionResolved

/-- The observation an event retains, `payload.observation || payload.record.observation`. -/
def EventBody.observation? : EventBody → Option Observation
  | runtimeObserved p => some p.observation
  | verificationRecorded o _ | reviewRecorded o _ | recoveryProbeRecorded o _ _ => some o
  | lateObservationQuarantined r => some r.observation
  | _ => none

structure Event where
  eventId : Ref
  header : EventHeader
  body : EventBody
  evidenceRefs : List Ref
deriving DecidableEq

/-- The type of an event. -/
def Event.eventType (e : Event) : EventType := e.body.eventType

inductive CutoverEventKind
  | activated | received
deriving DecidableEq

/-- One of the two global events that activate the provider-settlement contract. -/
structure CutoverEvent where
  eventId : Ref
  kind : CutoverEventKind
  payloadHash : Digest
  evidenceRefs : List Ref
deriving DecidableEq

inductive BusinessEvent
  | domain (event : Event)
  | cutover (event : CutoverEvent)
deriving DecidableEq

def BusinessEvent.eventId : BusinessEvent → Ref
  | domain e => e.eventId
  | cutover e => e.eventId

/-- The domain event, if it is one. -/
def BusinessEvent.domain? : BusinessEvent → Option Event
  | domain e => some e
  | cutover _ => none

inductive ActorType
  | system
  | other (name : Ref)
deriving DecidableEq

/-- An atomic ledger batch, the context its events are projected in. -/
structure Batch where
  batchId : Option Ref
  actorType : ActorType
  (actorId correlationId : Ref)
  expectedRevision : Nat
  events : List BusinessEvent

/-- The domain events of a batch. -/
def Batch.domainEvents (b : Batch) : List Event := b.events.filterMap BusinessEvent.domain?

end Orquesta
