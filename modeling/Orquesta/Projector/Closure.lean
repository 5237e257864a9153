import Orquesta.Projector.Receipt

/-!
# The projection of a business event

At the receipt of an input every branch of a V2 Work Order must agree with its
effects and attention.  `projectBusinessEventV1` dispatches one event to its
reducer; `replayBusinessProjectionV1` folds it over a ledger.

## Main definitions

* `checkBranchClosed`, `validateDurableInputClosure`
* `reduceReceipt`
* `projectBusinessEventV1`, `replayBusinessProjectionV1`
-/

namespace Orquesta

open Checked

variable (env : Environment)

/-! ## Closure -/

section Closure

variable (P : Projection) (w : WorkOrder) (b : Branch)

def hasOpenCancelAttention : Prop :=
  ∃ a ∈ w.attention.values, a.isOpen ∧ a.branchRef = some b.branchRef ∧ a.kind.isCancel
deriving Decidable

def hasOpenDeliveryReconciliationAttention (e : Effect) : Prop :=
  ∃ a ∈ w.attention.values, a.isOpen ∧ a.branchRef = some b.branchRef ∧ a.kind.isRecovery ∧
    a.effectId = some e.effectId
deriving Decidable

/-- The current cancellation of a cancelling branch is active and targets its turn. -/
def exactCurrentCancelEffect : Prop :=
  ∃ e ∈ b.cancelEffectId.bind P.outbox.get?,
    e.effectContractVersion = .v2 ∧ e.effectKind = .turnCancel ∧
    effectMatchesCurrentAttempt e.toEffectSeed w b ∧ e.status.isActiveCancel ∧
    e.predecessorEffectId = b.turnStartEffectId ∧
    e.predecessorDeliveryHash = b.turnStartDeliveryHash ∧
    e.targetRuntimeIdentity = b.runtimeIdentity ∧
    (e.status = .delivered → e.classifiedAs .accepted ∧
      e.deliveredIdentity = b.runtimeIdentity) ∧
    (e.status = .deliveryUnknown → e.classifiedAs .deliveryUnknown) ∧
    (e.status ≠ .delivered → e.status ≠ .deliveryUnknown → e.delivery = none)
deriving Decidable

/-- The effects of the current attempt. -/
def currentMutations : List Effect :=
  P.outbox.values.filter fun e => effectMatchesCurrentAttempt e.toEffectSeed w b

def unresolvedStarts : List Effect :=
  (currentMutations P w b).filter fun e => e.effectKind.isStart ∧ e.status.isUnresolved

/-- The unsent or unsettled start stages a dispatch-pending branch waits for. -/
def currentStarts : List Effect :=
  P.outbox.values.filter fun e =>
    e.workOrderId = w.workOrderId ∧ e.branchRef = b.branchRef ∧ e.attempt = b.attempt ∧
      some e.dispatchId = b.dispatchId ∧ e.effectKind.isStart ∧
      (e.status = .pending ∨ e.status = .claimed ∨ e.status = .sending)

/-- A retained user-input submission is unresolved. -/
def retainedInputUnresolved : Prop :=
  ∀ id ∈ b.pendingUserInputEffectId, ∃ e ∈ P.outbox.get? id,
    e.effectContractVersion = .v2 ∧ e.workOrderId = w.workOrderId ∧
    e.branchRef = b.branchRef ∧ e.effectKind = .userInputSubmit ∧ e.status.isUnresolved
deriving Decidable

/-- A delivery-unknown branch has one ambiguous start, nothing else unresolved, and attention. -/
def ambiguityRetained : Prop :=
  match unresolvedStarts P w b with
  | [e] => (e.status = .sending ∨ e.status = .deliveryUnknown) ∧
      (e.status = .deliveryUnknown → b.deliveryClass = some .deliveryUnknown) ∧
      (∀ c ∈ currentMutations P w b, c.status.isUnresolved → c.effectId = e.effectId) ∧
      hasOpenDeliveryReconciliationAttention w b e
  | _ => False

instance : Decidable (ambiguityRetained P w b) :=
  match h : unresolvedStarts P w b with
  | [] => isFalse (by simp [ambiguityRetained, h])
  | [e] => decidable_of_iff ((e.status = .sending ∨ e.status = .deliveryUnknown) ∧
      (e.status = .deliveryUnknown → b.deliveryClass = some .deliveryUnknown) ∧
      (∀ c ∈ currentMutations P w b, c.status.isUnresolved → c.effectId = e.effectId) ∧
      hasOpenDeliveryReconciliationAttention w b e) (by simp [ambiguityRetained, h])
  | _ :: _ :: _ => isFalse (by simp [ambiguityRetained, h])

/-- The states that hold an accepted current turn. -/
def BranchState.isTurnBound : BranchState → Bool
  | .running | .waitingForUser | .verifying | .cancelling => true
  | _ => false

/-- A cancelling branch keeps an open request only while its answer may have been sent. -/
def cancelInputRetained : Prop :=
  b.openUserInput = none ∨ ∃ e ∈ b.pendingUserInputEffectId.bind P.outbox.get?,
    e.status = .sending ∨ e.status = .deliveryUnknown
deriving Decidable

/-- The closure checks on one branch. -/
def checkBranchClosed : Projected Unit := do
  ensure (retainedInputUnresolved P w b) ⟨.receiptBinding,
    "A retained user-input submission must remain one unresolved exact V2 effect"⟩
  ensure (b.state = .dispatchPending → (currentStarts P w b).length = 1) ⟨.receiptBinding,
    "A dispatch-pending branch must close with exactly one unresolved provider start stage"⟩
  ensure (b.state = .deliveryUnknown → ambiguityRetained P w b) ⟨.receiptBinding,
    "A delivery-unknown branch must retain one exact ambiguous start and reconciliation attention"⟩
  ensure (b.state ≠ .deliveryUnknown → b.state ≠ .dispatchPending → unresolvedStarts P w b = [])
    ⟨.receiptBinding,
      "Only a dispatch or reconciliation branch may retain an unresolved provider start"⟩
  ensure (b.state.isTurnBound → acceptedCurrentTurn env P w b)
    ⟨.receiptBinding, "A turn-bound branch must retain one accepted current provider turn"⟩
  ensure (b.state.isTerminal → ∀ e ∈ currentMutations P w b, ¬ e.status.isUnresolved)
    ⟨.receiptBinding, "A terminal branch cannot retain an unresolved current provider mutation"⟩
  ensure (b.state.isTerminal → b.openUserInput = none)
    ⟨.receiptBinding, "A terminal branch cannot retain an open user-input request"⟩
  ensure (b.state = .cancelling → cancelInputRetained P b) ⟨.receiptBinding,
    "A cancelling branch may retain an open user-input request only while its exact submission " ++
      "may already have been sent"⟩
  ensure (b.state = .cancelling →
      exactCurrentCancelEffect P w b ∨ hasOpenCancelAttention w b) ⟨.receiptBinding,
    "A cancelling runtime must retain one exact cancel effect or explicit cancel attention"⟩

/-- The branch states a paused Work Order may close with. -/
def BranchState.closesPaused : BranchState → Bool
  | .blocked | .deliveryUnknown | .cancelling | .accepted | .failed | .cancelled => true
  | _ => false

/-- The branch states a cancelling Work Order may close with. -/
def BranchState.closesCancelling : BranchState → Bool
  | .deliveryUnknown | .cancelling | .accepted | .failed | .cancelled => true
  | _ => false

/-- The closure checks that depend on the Work Order status. -/
def checkStatusClosed : Projected Unit := do
  ensure (w.status.isTerminal → (∀ b ∈ w.branches.values, b.state.isTerminal) ∧
      ∀ e ∈ P.outbox.values, e.workOrderId = w.workOrderId → ¬ e.status.isUnresolved)
    ⟨.receiptBinding,
      "A terminal Work Order requires terminal branches and no unresolved effect from any attempt"⟩
  ensure (w.status = .paused → ∀ b ∈ w.branches.values, b.state.closesPaused)
    ⟨.receiptBinding, "A paused Work Order cannot retain forward-runnable branch views"⟩
  ensure (w.status = .cancelling → (∀ b ∈ w.branches.values, b.state.closesCancelling) ∧
      ∀ e ∈ P.outbox.values, ¬ (e.workOrderId = w.workOrderId ∧ e.effectKind.isStart ∧
        (e.status = .pending ∨ e.status = .claimed)))
    ⟨.receiptBinding,
      "A cancelling Work Order cannot retain runnable branches or orphaned unsent starts"⟩

/-- A V1 Work Order only keeps its contract; a V2 one closes with a coherent lifecycle. -/
def validateDurableInputClosure : Projected Unit := do
  assertWorkOrderEffectContracts P w
  if w.engineContractVersion = .v2 then
    requireLifecycleSnapshot env P w
    checkAll w.branches.values (checkBranchClosed env P w)
    checkStatusClosed P w
  else return ()

end Closure

/-! ## Provider entry windows -/

/-- The send event of a batch under the current send-authorization contract. -/
def Event.authorizesEntry (e : Event) : Bool :=
  match e.body with
  | .outboxSendBegun p => p.authorization.any
      (·.sendAuthorizationContractVersion = SEND_AUTHORIZATION_CONTRACT_VERSION)
  | _ => false

/-- The effect whose lease an event renews. -/
def Event.renewedEffectId? (e : Event) : Option (Ref × Ref) :=
  match e.body with
  | .outboxLeaseRenewed effectId _ _ => some (e.eventId, effectId)
  | _ => none

variable (P : Projection) (receipt : StoredReceipt)

/-- The entry window chain of an effect that is sending after the cutover. -/
def advanceProviderEntryWindow (eventId : Ref)
    (e : Effect) (next : ProviderEntryWindow) : Projected Projection := do
  let broken : ProjectionError := ⟨.providerEntryWindow,
    "Lease renewal does not extend the exact committed provider entry window chain"⟩
  let index ← require (P.providerEntryWindows.get? e.effectId) ⟨.providerEntryWindow,
    "Sending renewal has no materialized base provider entry window"⟩
  let sendReceipt ← require (P.internalReceipts.get? index.sendAuthorizationReceiptId) broken
  let (base, _) ← require (env.baseEntryWindow sendReceipt) broken
  ensure (base = e.toEffectIdentity) ⟨.providerEntryWindow,
    "Provider entry window base authorization does not bind the renewed Effect"⟩
  let current ← require (P.internalReceipts.get? index.currentWindowReceiptId)
    ⟨.providerEntryWindow, "Provider entry window index points to a missing internal receipt"⟩
  let nextIndex ← require (env.advanceEntryWindow sendReceipt current index next receipt) broken
  ensure (next.sourceEventId = eventId ∧ some next.leaseExpiresAt = e.lease.map Lease.expiresAt ∧
      some next.authorizedFencingToken = e.lease.map Lease.token)
    ⟨.providerEntryWindow, "Provider entry continuation does not bind the current renewed lease"⟩
  return { P with providerEntryWindows := P.providerEntryWindows.set e.effectId nextIndex }

/-- A renewal carries a continuation exactly when its effect is sending after the cutover. -/
def renewProviderEntryWindow (eventId effectId : Ref) : Projected Projection :=
  let effect := (P.outbox.get? effectId).filter fun e =>
    e.effectContractVersion = .v2 ∧ e.status = .sending ∧ P.providerSettlementEpoch.isSome
  match effect, receipt.result.providerEntryWindowContinuation with
  | none, none => return P
  | none, some _ => throw ⟨.providerEntryWindow,
      "Only a post-cutover sending V2 lease renewal may carry a provider entry continuation"⟩
  | some _, none => throw ⟨.providerEntryWindow,
      "Post-cutover sending V2 lease renewal requires its committed provider entry continuation"⟩
  | some e, some next => advanceProviderEntryWindow env P receipt eventId e next

/-- The entry windows after the receipt of a batch with these domain events. -/
def enterProviderWindow (events : List Event) : Projected Projection :=
  if events.any Event.authorizesEntry then do
    let (effect, index) ← require (env.baseEntryWindow receipt) ⟨.providerEntryWindow,
      "Provider entry window requires the exact projected send receipt closure"⟩
    ensure (P.providerEntryWindows.get? effect.effectId = none) ⟨.providerEntryWindow,
      "A send authorization Effect may materialize only one base provider entry window"⟩
    return { P with providerEntryWindows := P.providerEntryWindows.set effect.effectId index }
  else
    match events.findSome? Event.renewedEffectId? with
    | none => return P
    | some (eventId, effectId) => renewProviderEntryWindow env P receipt eventId effectId

def materializeProviderEntryWindow : Option Batch → Projected Projection
  | none => return P
  | some batch => enterProviderWindow env P receipt batch.domainEvents

/-! ## The receipt -/

/-- The receipt is the single and last receipt event of its batch. -/
def validateReceiptBatch (e : Event) (batch : Batch) : Projected Unit :=
  ensure (2 ≤ batch.events.length ∧
      (∃ last ∈ batch.events.getLast?.bind BusinessEvent.domain?,
        last.eventId = e.eventId ∧ last.eventType = e.eventType) ∧
      (batch.domainEvents.filter (·.eventType.receiptSourceType ≠ none)).length = 1)
    ⟨.receiptBinding, "The receipt must be the single final receipt event in its atomic batch"⟩

def normalizeReceipt (receipt : Receipt) (s : SourceType) (e : Event) (pending : PendingInput)
    (batchId : Option Ref) : Projected StoredReceipt := do
  ensure (receipt.sourceType = s ∧
      (receipt.settlementBundle.isSome ↔ s = .providerSettlement))
    ⟨.invalid, "event.payload.receipt.source_type does not match"⟩
  ensure (1 ≤ receipt.eventIds.length ∧ receipt.eventIds.length ≤ 511 ∧ receipt.eventIds.Nodup)
    ⟨.invalid, "event.payload.receipt.event_ids must contain from 1 to 511 values"⟩
  ensure (receipt.sourceId = e.header.sourceId ∧ receipt.workOrderId = e.header.workOrderId ∧
      receipt.appliedRevision = e.header.targetWorkOrderRevision ∧
      pending.eventIds.getLast? = some e.eventId ∧
      receipt.eventIds = pending.eventIds.dropLast ∧
      pending.batchId.all (· = receipt.batchId) ∧ batchId.all (· = receipt.batchId))
    ⟨.receiptBinding, "The receipt does not bind the complete atomic input"⟩
  return { receipt with eventHashes := pending.eventHashes }

/-- The checks on the batch of an observation or provider settlement. -/
def validateObservationBatch (w : WorkOrder) (s : SourceType) (receipt : Receipt)
    (batch : Batch) : Projected Unit :=
  if s = .observation ∨ s = .providerSettlement then do
    validateRecoveryProbeReceipt P receipt batch.domainEvents
    validateSettlementPolicyEventCoherence batch.domainEvents P w batch
    validateSendExpiryReceipt receipt batch.domainEvents
  else return ()

/-- The checks a receipt makes on the batch it closes, when it is projected with one. -/
def validateReceiptContext (w : WorkOrder) (s : SourceType) (e : Event)
    (receipt : Receipt) : Option Batch → Projected Unit
  | none => ensure (s ≠ .providerSettlement) ⟨.providerSettlementBundle,
      "A provider-settlement bundle requires its original current V2 observation envelope"⟩
  | some batch => do
    validateReceiptBatch e batch
    validateObservationBatch P w s receipt batch
    validateSendAuthorizationReceipt env receipt batch.domainEvents
    validateProviderSettlementReceiptBundle env P receipt batch.domainEvents.dropLast

def reduceReceipt (e : Event) (s : SourceType) (receipt : Receipt)
    (batch : Option Batch) : Projected Projection := do
  let w ← requireWorkOrder P e.header
  let unopened : ProjectionError :=
    ⟨.receiptBinding, "A receipt must close its current projection input"⟩
  let pending ← require w.pendingProjectionInput unopened
  ensure (pending.sourceId = e.header.sourceId) unopened
  ensure (pending.sourceType = s)
    ⟨.sourceClass, "Receipt source type does not match its domain events"⟩
  checkAll pending.eventTypes fun t => assertEventAllowedForSource t s
  ensure (e.header.targetWorkOrderRevision =
      if s = .internalAction then e.header.priorWorkOrderRevision
      else e.header.priorWorkOrderRevision + 1)
    ⟨.revision, "The receipt source class does not match its business revision window"⟩
  let stored ← normalizeReceipt receipt s e pending (batch.bind Batch.batchId)
  validateReceiptContext env P w s e receipt batch
  validateDurableInputClosure env P w
  match ← findReceipt P receipt.sourceId with
  | some collision => do
    ensure (collision = (s.receiptNamespace, stored))
      ⟨.idConflict, "A receipt identifier was reused with conflicting content"⟩
    return P
  | none => do
    let entered ← materializeProviderEntryWindow env P stored batch
    return (entered.replaceWorkOrder { w with pendingProjectionInput := none }).setReceipt stored
      s.receiptNamespace

/-! ## Projecting and replaying -/

def projectProviderSettlementCutoverEvent (e : CutoverEvent) : Option Batch → Projected Projection
  | none => throw ⟨.providerSettlementCutover,
      "Provider-settlement cutover events require their complete atomic batch"⟩
  | some batch => do
    let epoch ← require (env.settlementEpoch batch) ⟨.providerSettlementCutover,
      "Provider-settlement cutover batch is not the exact canonical activation unit"⟩
    let ordinal := match e.kind with | .activated => 0 | .received => 1
    ensure (batch.events[ordinal]? = some (.cutover e)) ⟨.providerSettlementCutover,
      "The projected cutover event is not in its canonical batch position"⟩
    match P.providerSettlementEpoch with
    | some active => do
      ensure (active = epoch) ⟨.idConflict,
        "Provider-settlement contract was already activated by a different epoch"⟩
      return P
    | none => do
      ensure (e.kind = .activated) ⟨.providerSettlementCutover,
        "The cutover receipt cannot be projected before its activation event"⟩
      ensure (epoch.preCutoverProjectionHash = env.projectionHash P) ⟨.providerSettlementCutover,
        "Cutover readiness does not bind the exact pre-activation Business projection"⟩
      return { P with providerSettlementEpoch := some epoch }

/-- `REDUCERS`. -/
def reduceEvent (e : Event) (batch : Option Batch) : Projected Projection :=
  let h := e.header
  match e.body with
  | .workOrderCreated p => reduceWorkOrderCreated env P e p (batch.bind Batch.batchId)
  | .workOrderStatusChanged fromStatus toStatus reason =>
    reduceWorkOrderStatus env P h fromStatus toStatus reason
  | .contextBudgetVerified receipt => reduceContextBudget P h receipt
  | .branchInitialized branch state required => reduceBranchInitialized P h branch state required
  | .attemptOpened p => reduceAttemptOpened env P h p
  | .branchStatusChanged p => reduceBranchStatus env P h p
  | .runtimeObserved p => reduceRuntimeObserved env P h p
  | .verificationRecorded o hash => reduceVerification env P h o hash
  | .reviewRecorded o hash => reduceReview env P h o hash
  | .acceptanceRecorded record => reduceAcceptance P h record
  | .lateObservationQuarantined record => reduceLateObservation P h record
  | .recoveryProbeRecorded o identity ledger => reduceRecoveryProbeRecorded P h o identity ledger
  | .outboxEnqueued r responseRef => reduceOutboxEnqueued env P h r responseRef
  | .outboxClaimed id identity lease => reduceOutboxClaimed P h id identity lease
  | .outboxSendBegun p => reduceOutboxSendBegun env P h p
  | .outboxLeaseRenewed id identity lease => reduceOutboxLeaseRenewed P h id identity lease
  | .outboxRequeued id identity token reason => reduceOutboxRequeued P h id identity token reason
  | .outboxSendExpired id identity d binding =>
    reduceOutboxSendExpired P h id identity d binding
  | .outboxSettled c p => reduceOutboxSettled P h c p
  | .outboxCancelled id identity reason => reduceOutboxCancelled P h id identity reason
  | .received s receipt => reduceReceipt env P e s receipt batch
  | .attentionOpened a => reduceAttentionOpened P h a
  | .attentionResolved id ref evidence => reduceAttentionResolved P h id ref evidence

def projectBusinessEventV1 (e : BusinessEvent) (batch : Option Batch) : Projected Projection :=
  match e with
  | .cutover e => projectProviderSettlementCutoverEvent env P e batch
  | .domain e => do
    let batchSourceType ← validateAtomicBatchStart P e batch
    match ← beginInput env P e (batch.bind Batch.batchId) batchSourceType with
    | .duplicate => return P
    | .proceed begun => reduceEvent env begun e batch

/-- A ledger entry: an atomic batch, or an event on its own. -/
inductive ReplayEntry
  | batch (b : Batch)
  | event (e : BusinessEvent)

/-- Each event of an entry, with the context it is projected in. -/
def ReplayEntry.steps : ReplayEntry → List (BusinessEvent × Option Batch)
  | batch b => b.events.map (·, some b)
  | event e => [(e, none)]

/-- Project one event in its context. -/
def projectStep (s : BusinessEvent × Option Batch) : Projected Projection :=
  projectBusinessEventV1 env P s.1 s.2

def replayBusinessProjectionV1 (entries : List ReplayEntry) (P : Projection) :
    Projected Projection := do
  let final ← runAll (projectStep env) P (entries.flatMap ReplayEntry.steps)
  ensure (∀ w ∈ final.workOrders.values, w.pendingProjectionInput = none)
    ⟨.receiptBinding, "Replay ended with an input that has no durable receipt"⟩
  return final

end Orquesta
