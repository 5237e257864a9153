import Orquesta.Lifecycle

/-!
# Entering an input into the projection

Every domain event belongs to one input of one Work Order.  The first event of a
batch fixes the source class of the input by the batch's receipt; from then on
the Work Order holds the input as pending, and only events of that input are
accepted until the receipt closes it.  An event that has already been projected
is recognised by its identifier and hash, and leaves the projection alone.

## Main definitions

* `ProjectionError`
* `WorkOrderStatus.transitions`, `BranchState.transitions`, `EffectStatus.transitions`
* `validateAtomicBatchStart`, `beginInput`

## Main results

* `beginInput_proceed`: what an input that is entered has been checked for
-/

namespace Orquesta

open Checked

/-- The codes of `BusinessProjectionError`. -/
inductive ProjectionErrorCode
  | invalid | version | idConflict | sourceClass | providerSettlementCutover
  | providerSettlementRoute | providerSettlementBundle | receiptBinding | revision
  | workOrderMissing | branchMissing | outboxMissing | attentionMissing | planBinding | transition
  | acceptanceGates | recoveryProbe | recoveryProbeReused | settlementPolicy | outboxBinding
  | outboxImmutable | packetVerification | sendExpiry | providerEntryWindow

structure ProjectionError where
  code : ProjectionErrorCode
  message : String

/-- A projection step: it fails, or gives a value. -/
abbrev Projected := Except ProjectionError

/-! ## Tables -/

/-- `WORK_ORDER_TRANSITIONS`. -/
def WorkOrderStatus.transitions : WorkOrderStatus → List WorkOrderStatus
  | .starting => [.running, .paused, .cancelling, .failed, .cancelled]
  | .running => [.paused, .awaitingAcceptance, .cancelling, .failed, .cancelled]
  | .paused => [.running, .cancelling, .failed, .cancelled]
  | .awaitingAcceptance => [.paused, .cancelling, .accepted, .failed, .cancelled]
  | .cancelling => [.failed, .cancelled]
  | .accepted | .failed | .cancelled => []

/-- `BRANCH_TRANSITIONS`. -/
def BranchState.transitions : BranchState → List BranchState
  | .blocked => [.ready, .cancelling, .failed, .cancelled]
  | .ready => [.dispatchPending, .cancelling, .failed, .cancelled]
  | .dispatchPending => [.running, .retryable, .deliveryUnknown, .cancelling, .failed, .cancelled]
  | .running =>
    [.waitingForUser, .verifying, .retryable, .deliveryUnknown, .cancelling, .failed, .cancelled]
  | .waitingForUser => [.running, .cancelling, .failed, .cancelled]
  | .verifying => [.accepted, .cancelling, .failed, .cancelled]
  | .accepted => []
  | .retryable => [.dispatchPending, .cancelling, .failed, .cancelled]
  | .deliveryUnknown => [.dispatchPending, .running, .retryable, .cancelling, .failed, .cancelled]
  | .cancelling => [.failed, .cancelled]
  | .failed => [.dispatchPending, .cancelling, .cancelled]
  | .cancelled => []

/-- `OUTBOX_TRANSITIONS`. -/
def EffectStatus.transitions : EffectStatus → List EffectStatus
  | .pending => [.claimed, .cancelled]
  | .claimed => [.pending, .sending, .notSent, .cancelled]
  | .sending => [.delivered, .notSent, .deliveryUnknown]
  | .deliveryUnknown => [.delivered, .notSent]
  | .delivered | .notSent | .cancelled => []

/-- `INTERNAL_ONLY_EVENT_TYPES`. -/
def EventType.isInternalOnly : EventType → Bool
  | .outboxClaimed | .outboxSendBegun | .outboxLeaseRenewed | .outboxRequeued | .outboxSendExpired
  | .received .internalAction => true
  | _ => false

/-- `BATCH_EVENT_TYPES`: the domain events each source class may cause. -/
def SourceType.allows : SourceType → EventType → Bool
  | .command, t => match t with
    | .workOrderCreated | .workOrderStatusChanged | .contextBudgetVerified | .branchInitialized
    | .attemptOpened | .branchStatusChanged | .acceptanceRecorded | .outboxEnqueued
    | .outboxCancelled | .attentionOpened | .attentionResolved => true
    | _ => false
  | .observation, t => match t with
    | .workOrderStatusChanged | .attemptOpened | .branchStatusChanged | .runtimeObserved
    | .verificationRecorded | .reviewRecorded | .lateObservationQuarantined
    | .recoveryProbeRecorded | .outboxEnqueued | .outboxSettled _ | .outboxSendExpired
    | .outboxCancelled | .attentionOpened | .attentionResolved => true
    | _ => false
  | .providerSettlement, t => match t with
    | .workOrderStatusChanged | .branchStatusChanged | .runtimeObserved
    | .lateObservationQuarantined | .recoveryProbeRecorded | .outboxEnqueued | .outboxSettled _
    | .outboxSendExpired | .outboxCancelled | .attentionOpened | .attentionResolved => true
    | _ => false
  | .internalAction, t => t.isInternalOnly

/-- `receiptSourceType`. -/
def EventType.receiptSourceType : EventType → Option SourceType
  | .received t => some t
  | _ => none

/-- `inferSourceType`: the source class an event has on its own. -/
def EventType.inferSourceType : EventType → Option SourceType
  | .workOrderCreated => some .command
  | .outboxClaimed | .outboxSendBegun | .outboxLeaseRenewed | .outboxRequeued
  | .outboxSendExpired => some .internalAction
  | .runtimeObserved | .verificationRecorded | .reviewRecorded | .lateObservationQuarantined
  | .recoveryProbeRecorded | .outboxSettled _ => some .observation
  | t => t.receiptSourceType

/-- `PROVIDER_SETTLEMENT_SENSITIVE_EVENTS`. -/
def EventType.isSettlementSensitive : EventType → Bool
  | .recoveryProbeRecorded | .outboxSettled _ | .outboxSendExpired => true
  | _ => false

/-- The keys a portable reference can share with the members every plain object inherits from
`Object.prototype`: reading one of them never gives `undefined`. -/
def isObjectPrototypeKey (key : Ref) : Prop :=
  key ∈ ["constructor", "hasOwnProperty", "isPrototypeOf", "propertyIsEnumerable",
    "toLocaleString", "toString", "valueOf"]
deriving Decidable

def assertEventAllowedForSource (t : EventType) (s : SourceType) : Projected Unit :=
  ensure (t.receiptSourceType = some s ∨ s.allows t) ⟨.sourceClass, "Event is not allowed in input"⟩

/-! ## Updating and reading the projection -/

/-- The three receipt maps. -/
inductive ReceiptNamespace
  | command | observation | internal
deriving DecidableEq

/-- `RECEIPT_TYPES`: the map a receipt of each source class is kept in. -/
def SourceType.receiptNamespace : SourceType → ReceiptNamespace
  | .command => .command
  | .observation | .providerSettlement => .observation
  | .internalAction => .internal

namespace Projection

variable (P : Projection)

def receipts : ReceiptNamespace → OrderedMap Ref StoredReceipt
  | .command => P.commandReceipts
  | .observation => P.observationReceipts
  | .internal => P.internalReceipts

def setReceipt (r : StoredReceipt) : ReceiptNamespace → Projection
  | .command => { P with commandReceipts := P.commandReceipts.set r.sourceId r }
  | .observation => { P with observationReceipts := P.observationReceipts.set r.sourceId r }
  | .internal => { P with internalReceipts := P.internalReceipts.set r.sourceId r }

def replaceWorkOrder (w : WorkOrder) : Projection :=
  { P with workOrders := P.workOrders.set w.workOrderId w }

def setEffect (e : Effect) : Projection := { P with outbox := P.outbox.set e.effectId e }

end Projection

/-- Replace one branch of a Work Order. -/
def WorkOrder.setBranch (w : WorkOrder) (b : Branch) : WorkOrder :=
  { w with branches := w.branches.set b.branchRef b }

variable (P : Projection) (sourceId : Ref)

def requireWorkOrder (h : EventHeader) : Projected WorkOrder :=
  require (P.workOrders.get? h.workOrderId) ⟨.workOrderMissing, "The Work Order does not exist"⟩

def requireBranch (w : WorkOrder) (r : Ref) : Projected Branch :=
  require (w.branches.get? r) ⟨.branchMissing, "The event references an unknown branch"⟩

/-- The receipts stored under a source identifier. -/
def receiptMatches : List (ReceiptNamespace × StoredReceipt) :=
  [ReceiptNamespace.command, .observation, .internal].filterMap fun n =>
    ((P.receipts n).get? sourceId).map (n, ·)

/-- An inherited key is found in all three maps at once. -/
def findReceipt : Projected (Option (ReceiptNamespace × StoredReceipt)) := do
  ensure (¬ isObjectPrototypeKey sourceId ∧ (receiptMatches P sourceId).length ≤ 1)
    ⟨.idConflict, "A source identifier exists in multiple receipt namespaces"⟩
  return (receiptMatches P sourceId).head?

/-- The Work Orders whose pending input has a source identifier. -/
def pendingSources : List WorkOrder :=
  P.workOrders.values.filter fun w =>
    w.pendingProjectionInput.map PendingInput.sourceId = some sourceId

def findPendingSource : Projected (Option WorkOrder) := do
  ensure ((pendingSources P sourceId).length ≤ 1)
    ⟨.idConflict, "A source identifier is pending for multiple Work Orders"⟩
  return (pendingSources P sourceId).head?

/-! ## The first event of a batch -/

section Batch

variable (P : Projection)

/-- The provider-settlement route: after the cutover, settlements use their own source class, and
that class carries nothing but one current settlement observation. -/
def validateProviderSettlementBatchRoute (domainEvents : List Event) (s : SourceType) :
    Projected Unit :=
  let payloads := (domainEvents.filterMap (·.body.observation?)).map Observation.payload
  let current := payloads.filter ObservationPayload.isCurrentSettlement
  let legacy := payloads.filter ObservationPayload.isLegacySettlement
  let sensitive := current ≠ [] ∨ legacy ≠ [] ∨
    domainEvents.any fun e => e.eventType.isSettlementSensitive
  if s = .providerSettlement then do
    ensure P.providerSettlementEpoch.isSome ⟨.providerSettlementCutover,
      "The dedicated provider-settlement source cannot precede its durable cutover epoch"⟩
    ensure (current ≠ [] ∧ legacy = []) ⟨.providerSettlementRoute,
      "The dedicated provider-settlement source requires one current V2 settlement envelope"⟩
    ensure ((payloads.map ObservationPayload.settlementName).dedup.length ≤ 1 ∧
        payloads.all ObservationPayload.isCurrentSettlement)
      ⟨.providerSettlementRoute, "A provider-settlement batch cannot mix current, legacy, or " ++
        "unrelated observation contracts"⟩
  else
    ensure (¬ (P.providerSettlementEpoch.isSome ∧ sensitive)) ⟨.providerSettlementRoute,
      "Post-cutover provider settlement must use the dedicated source and receipt"⟩

/-- Check a whole batch when its first event is projected, and read off its source class. -/
def validateAtomicBatchStart (e : Event) : Option Batch → Projected (Option SourceType)
  | none => return none
  | some b => do
    ensure (2 ≤ b.events.length ∧ b.events.length ≤ 513) ⟨.receiptBinding,
      "A Business batch must contain domain events followed by one receipt"⟩
    if b.events.head?.map BusinessEvent.eventId ≠ some e.eventId then
      return none
    else
      let events ← require (b.events.mapM BusinessEvent.domain?) ⟨.receiptBinding,
        "Every event in an atomic input must carry one exact source and revision binding"⟩
      let domainEvents := events.dropLast
      let s ← require (events.getLast?.bind (·.eventType.receiptSourceType)) ⟨.receiptBinding,
        "A Business batch must end with its single receipt event"⟩
      ensure (∀ d ∈ domainEvents, d.eventType.receiptSourceType = none) ⟨.receiptBinding,
        "A Business batch must end with its single receipt event"⟩
      let binding ← require (events.head?.map Event.header) ⟨.receiptBinding,
        "Every event in an atomic input must carry one exact source and revision binding"⟩
      ensure (∀ d ∈ events, d.header = binding) ⟨.receiptBinding,
        "Every event in an atomic input must carry one exact source and revision binding"⟩
      checkAll domainEvents fun d => assertEventAllowedForSource d.eventType s
      validateProviderSettlementBatchRoute P domainEvents s
      ensure (binding.targetWorkOrderRevision =
          if s = .internalAction then binding.priorWorkOrderRevision
          else binding.priorWorkOrderRevision + 1)
        ⟨.revision, "The receipt source class does not match its business revision window"⟩
      return some s

end Batch

/-! ## Entering an event -/

/-- The outcome of `beginInput`. -/
inductive Begun
  | duplicate
  | proceed (projection : Projection)

section Begin

variable (env : Environment) (P : Projection) (e : Event) (batchId : Option Ref)
  (batchSourceType : Option SourceType)

/-- An event of the input that is already pending. -/
def continueInput (w : WorkOrder) (pending : PendingInput) : Projected Begun := do
  ensure (pending.sourceId = e.header.sourceId ∧
      pending.priorWorkOrderRevision = e.header.priorWorkOrderRevision ∧
      pending.targetWorkOrderRevision = e.header.targetWorkOrderRevision ∧
      pending.occurredAt = e.header.occurredAt ∧
      (pending.batchId = none ∨ batchId = none ∨ pending.batchId = batchId))
    ⟨.revision, "A different input cannot enter an incomplete projection input"⟩
  ensure (¬ (w.status.isTerminal ∧ e.eventType.receiptSourceType = none))
    ⟨.transition, "Only the current receipt may follow a terminal transition in the same input"⟩
  match e.eventType.receiptSourceType with
  | some s => do
    ensure (pending.sourceType = s)
      ⟨.sourceClass, "Receipt type does not match its input events"⟩
    checkAll pending.eventTypes fun t => assertEventAllowedForSource t s
  | none => assertEventAllowedForSource e.eventType pending.sourceType
  match pending.eventHashes.get? e.eventId with
  | some hash => do
    ensure (hash = env.eventHash e)
      ⟨.idConflict, "An event identifier was reused with conflicting content"⟩
    return .duplicate
  | none =>
    return .proceed (P.replaceWorkOrder { w with
      pendingProjectionInput := some { pending with
        eventIds := pending.eventIds ++ [e.eventId]
        eventTypes := pending.eventTypes ++ [e.eventType]
        eventHashes := pending.eventHashes.set e.eventId (env.eventHash e) } })

/-- The input a first event opens. -/
def openedInput (s : SourceType) : PendingInput where
  sourceId := e.header.sourceId
  sourceType := s
  priorWorkOrderRevision := e.header.priorWorkOrderRevision
  targetWorkOrderRevision := e.header.targetWorkOrderRevision
  occurredAt := e.header.occurredAt
  batchId := batchId
  eventIds := [e.eventId]
  eventTypes := [e.eventType]
  eventHashes := OrderedMap.empty.set e.eventId (env.eventHash e)

/-- The first event of a new input. -/
def openInput (w : WorkOrder) : Projected Begun := do
  ensure (¬ w.status.isTerminal ∨ e.eventType = .lateObservationQuarantined) ⟨.transition,
    "A new input cannot mutate a terminal Work Order; late facts must be quarantined"⟩
  let s ← require (batchSourceType <|> e.eventType.inferSourceType) ⟨.sourceClass,
    "The first event requires an atomic batch receipt to establish its source class"⟩
  assertEventAllowedForSource e.eventType s
  let expectedTarget := if s = .internalAction then w.revision else w.revision + 1
  ensure (e.header.priorWorkOrderRevision = w.revision ∧
      e.header.targetWorkOrderRevision = expectedTarget)
    ⟨.revision, "The event does not advance the Work Order revision correctly"⟩
  return .proceed (P.replaceWorkOrder { w with
    revision := expectedTarget, pendingProjectionInput := some (openedInput env e batchId s) })

def beginInput : Projected Begun := do
  let receipt ← findReceipt P e.header.sourceId
  match receipt with
  | some (_, r) => do
    ensure ((P.workOrders.get? e.header.workOrderId).isSome ∧
        r.workOrderId = e.header.workOrderId ∧
        r.eventHashes.get? e.eventId = some (env.eventHash e))
      ⟨.idConflict, "A received source or event identifier was reused with conflicting content"⟩
    return .duplicate
  | none => do
    let elsewhere ← findPendingSource P e.header.sourceId
    ensure (elsewhere.all (·.workOrderId = e.header.workOrderId))
      ⟨.idConflict, "A pending source identifier was reused for another Work Order"⟩
    match P.workOrders.get? e.header.workOrderId with
    | none => do
      ensure (e.eventType = .workOrderCreated)
        ⟨.workOrderMissing, "The event references an unknown Work Order"⟩
      ensure (e.header.priorWorkOrderRevision = 0 ∧ e.header.targetWorkOrderRevision = 1)
        ⟨.revision, "A Work Order must be created from revision 0 to revision 1"⟩
      ensure ((batchSourceType <|> e.eventType.inferSourceType) = some .command)
        ⟨.sourceClass, "Only a command may create a Work Order"⟩
      return .proceed P
    | some w => do
      ensure (w.planSnapshotRef = e.header.planSnapshotRef ∧ w.planHash = e.header.planHash)
        ⟨.planBinding, "The event plan binding does not match the Work Order"⟩
      ensure (w.createdAt ≤ e.header.occurredAt)
        ⟨.invalid, "An event cannot predate its Work Order"⟩
      match w.pendingProjectionInput with
      | some pending => continueInput env P e batchId w pending
      | none => openInput env P e batchId batchSourceType w

end Begin

end Orquesta
