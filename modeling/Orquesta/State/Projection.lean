import Orquesta.State.Events

/-!
# The business projection and its environment

A Work Order gathers its plan, branches, attention and acceptance evidence; the
projection gathers the Work Orders, the outbox they share, and the receipt of
every input.

Hashing, the derivation of identifiers from hashes, and the normalisers of the
packet store, the send authorization, the provider entry window and the
settlement cutover live outside the decision core.  They are the fields of an
`Environment`, and every definition and theorem is about an arbitrary one.

## Main definitions

* `PendingInput`, `WorkOrder`, `Projection`, `initialBusinessProjectionV1`
* `Preimage`: everything that is hashed
* `Environment`
-/

namespace Orquesta

/-- The input whose events are being projected, until its receipt closes it. -/
structure PendingInput where
  sourceId : Ref
  sourceType : SourceType
  (priorWorkOrderRevision targetWorkOrderRevision : Nat)
  occurredAt : Time
  batchId : Option Ref
  eventIds : List Ref
  eventTypes : List EventType
  eventHashes : OrderedMap Ref Digest

structure WorkOrder where
  (workOrderId planSnapshotRef : Ref)
  planHash : Digest
  plan : NormalizedPlan
  engineContractVersion : ContractVersion
  revision : Nat
  status : WorkOrderStatus
  createdAt : Time
  startedAt : Option Time
  deadlineAt : Time
  stopReason : Option String
  branches : OrderedMap Ref Branch
  attention : OrderedMap Ref Attention
  acceptance : Acceptance
  pendingProjectionInput : Option PendingInput

/-- A quarantined observation. -/
structure LateRecord extends LateObservation where
  quarantinedAt : Time
deriving DecidableEq

/-- The position of an effect's provider entry window chain. -/
structure ProviderEntryWindowIndex where
  (sendAuthorizationReceiptId currentWindowReceiptId : Ref)
  currentWindowSequence : Nat
  currentWindowHash : Digest

/-- The active provider-settlement contract. -/
structure SettlementEpoch where
  cutoverId : Ref
  sendAuthorizationContractVersion : Nat
  preCutoverProjectionHash : Digest
deriving DecidableEq

structure Projection where
  workOrders : OrderedMap Ref WorkOrder
  (commandReceipts observationReceipts internalReceipts : OrderedMap Ref StoredReceipt)
  providerEntryWindows : OrderedMap Ref ProviderEntryWindowIndex
  outbox : OrderedMap Ref Effect
  lateObservations : OrderedMap Ref LateRecord
  providerSettlementEpoch : Option SettlementEpoch

def initialBusinessProjectionV1 : Projection where
  workOrders := .empty
  commandReceipts := .empty
  observationReceipts := .empty
  internalReceipts := .empty
  providerEntryWindows := .empty
  outbox := .empty
  lateObservations := .empty
  providerSettlementEpoch := none

/-! ## What is hashed -/

/-- The lane of an effect: one mutating provider kind of one branch attempt. -/
structure OperationLane where
  (workOrderId branchRef : Ref)
  attempt : Nat
  dispatchId : Ref
  effectKind : EffectKind
deriving DecidableEq

/-- `V2_OPERATION_GOAL_FIELDS` of an effect. -/
def EffectSeed.operationLane (s : EffectSeed) : OperationLane :=
  ⟨s.workOrderId, s.branchRef, s.attempt, s.dispatchId, s.effectKind⟩

/-- The values whose canonical hash the decision core takes. -/
inductive Preimage
  | effectSeed (seed : EffectSeed)
  | delivery (effect : EffectIdentity) (delivery : Delivery)
  | branchResult (result : BranchResult)
  | operationLane (lane : OperationLane)
  | operationGoal (laneId : Ref) (operationScopeHash : Digest)
  | operationScope (binding : OperationScopeBinding)
  | settlementPolicy (policy : SettlementPolicy)
  | event (event : Event)
  | eventManifest (entries : List (Ref × EventType × Digest))
  | eventSeed (ordinal : Nat) (header : EventHeader) (body : EventBody) (evidenceRefs : List Ref)
  | dispatch (workOrderId branchRef : Ref) (attempt : Nat) (packetRef : ContentRef)
  | attention (workOrderId sourceId : Ref) (kind : AttentionKind) (branchRef : Option Ref)
  | receiptEvent (batchId : Ref) (sourceId : Ref)

/-- The prefixes of derived identifiers. -/
inductive IdPrefix
  | effect | idempotency | lane | goal | event | dispatch | attention

/-- The functions the decision core takes from outside. -/
structure Environment where
  /-- SHA-256 of the canonical JSON. -/
  canonicalHash : Preimage → Digest
  /-- A prefix and the first 32 digits of the hash. -/
  derivedId : IdPrefix → Preimage → Ref
  /-- The hash of a whole projection, which a cutover binds. -/
  projectionHash : Projection → Digest
  /-- `deriveProviderSettlementEpochFromBatchV1`. -/
  settlementEpoch : Batch → Option SettlementEpoch
  /-- `normalizeDispatchPacketVerificationReceiptV1`, with the comparison of the content
  references, permission and isolation modes that the plan model leaves out. -/
  packetReceiptBinds : PacketVerificationReceipt → NormalizedPlan → Ref → Bool
  /-- `normalizeSendAuthorizationBundleV1`. -/
  sendAuthorizationBundleValid : SendAuthorizationBundle → Bool
  /-- `createCommittedSendAuthorizationProofV2` and `createProviderEntryWindowIndexV1`: the effect
  the committed send is for, and its base index. -/
  baseEntryWindow : StoredReceipt → Option (EffectIdentity × ProviderEntryWindowIndex)
  /-- The current window of an index and its successor: `currentProviderEntryWindow`,
  `normalizeProviderEntryWindowReceiptClosureV1` and `advanceProviderEntryWindowIndexV1`. -/
  advanceEntryWindow : StoredReceipt → StoredReceipt → ProviderEntryWindowIndex →
    ProviderEntryWindow → StoredReceipt → Option ProviderEntryWindowIndex

namespace Environment

variable (env : Environment)

/-- `effectDeliveryHash`, for an effect with delivery evidence. -/
def deliveryHash (e : EffectIdentity) (d : Delivery) : Digest := env.canonicalHash (.delivery e d)

def resultHash (r : BranchResult) : Digest := env.canonicalHash (.branchResult r)

def eventHash (e : Event) : Digest := env.canonicalHash (.event e)

/-- The operation scope of a binding: the hash of the fields its effect kind is scoped by. -/
def deriveEffectOperationScopeHashV2 (b : OperationScopeBinding) : Digest :=
  env.canonicalHash (.operationScope (match b.effectKind with
    | .threadCreate =>
      { b with predecessorEffectId := none, predecessorDeliveryHash := none,
               targetRuntimeIdentity := none, requestId := none, responseRef := none }
    | .turnStart => { b with requestId := none, responseRef := none }
    | .turnCancel => { b with packetRef := "", packetHash := "", requestId := none,
                              responseRef := none }
    | .userInputSubmit => { b with packetRef := "", packetHash := "" }))

def effectOperationLaneIdV2 (s : EffectSeed) : Ref :=
  env.derivedId .lane (.operationLane s.operationLane)

def effectOperationGoalIdV2 (s : EffectSeed) : Ref :=
  env.derivedId .goal (.operationGoal (env.effectOperationLaneIdV2 s) s.operationScopeHash)

end Environment

end Orquesta
