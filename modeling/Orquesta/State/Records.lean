import Orquesta.Contract.Inputs
import Orquesta.Library.OrderedMap

/-!
# Effects, branches and acceptance evidence

The records a Work Order is made of: outbox effects with their leases and
settlements, branches with their current attempt, attention, and the evidence
acceptance is decided on.

An effect's request data is split from its progress.  `EffectSeed` is what its
identifiers hash, `EffectIdentity` adds the identifiers and is never changed
after the effect is enqueued, `Effect` adds what the outbox transitions change.
A contract-V1 effect has none of the fields that V2 added; it carries their
default values here.

## Main definitions

* `EffectSeed`, `EffectIdentity`, `Effect`
* `Branch`, `PlanBranch.initial`
* `Attention`, `Acceptance`
-/

namespace Orquesta

/-- The two contract versions, of a Work Order's engine and of an effect. -/
inductive ContractVersion
  | v1 | v2
deriving DecidableEq

inductive WorkOrderStatus
  | starting | running | paused | awaitingAcceptance | cancelling | accepted | failed | cancelled
deriving DecidableEq

/-- `TERMINAL_WORK_ORDER_STATES`. -/
def WorkOrderStatus.isTerminal : WorkOrderStatus → Bool
  | .accepted | .failed | .cancelled => true
  | _ => false

inductive BranchState
  | blocked | ready | dispatchPending | running | waitingForUser | verifying | accepted | retryable
  | deliveryUnknown | cancelling | failed | cancelled
deriving DecidableEq

/-- `TERMINAL_BRANCH_STATE_SET`. -/
def BranchState.isTerminal : BranchState → Bool
  | .accepted | .failed | .cancelled => true
  | _ => false

inductive EffectStatus
  | pending | claimed | sending | deliveryUnknown | delivered | notSent | cancelled
deriving DecidableEq

/-- `V2_UNRESOLVED_EFFECT_STATUSES`. -/
def EffectStatus.isUnresolved : EffectStatus → Bool
  | .pending | .claimed | .sending | .deliveryUnknown => true
  | .delivered | .notSent | .cancelled => false

/-- The status a settlement with this classification moves an effect to. -/
def Classification.settledStatus : Classification → EffectStatus
  | .accepted => .delivered
  | .notSent => .notSent
  | .deliveryUnknown => .deliveryUnknown

/-- The source classes of an input. -/
inductive SourceType
  | command | observation | providerSettlement | internalAction
deriving DecidableEq

/-! ## Outbox effects -/

structure Lease where
  (leaseId ownerId : Ref)
  generation : Nat
  (claimedAt heartbeatAt expiresAt : Time)
deriving DecidableEq

/-- The fencing token of a lease. -/
def Lease.token (l : Lease) : FencingToken := ⟨l.leaseId, l.ownerId, l.generation⟩

/-- The evidence a settlement leaves on an effect. -/
structure Delivery where
  classification : Classification
  evidenceRefs : List Ref
  runtimeIdentity : Option RuntimeIdentity
  recordedAt : Time
deriving DecidableEq

/-- The request data the effect and idempotency identifiers are derived from. -/
structure EffectSeed where
  effectContractVersion : ContractVersion
  (workOrderId branchRef : Ref)
  attempt : Nat
  dispatchId : Ref
  effectKind : EffectKind
  originSourceId : Ref
  operationScopeHash : Digest
  operationGeneration : Nat
  generationPredecessorEffectId : Option Ref
  (providerRef packetRef : Ref)
  packetHash : Digest
  predecessorEffectId : Option Ref
  predecessorDeliveryHash : Option Digest
  targetRuntimeIdentity : Option RuntimeIdentity
deriving DecidableEq

/-- The immutable fields of an effect. -/
structure EffectIdentity extends EffectSeed where
  (effectId idempotencyKey : Ref)
  createdAt : Time
deriving DecidableEq

/-- The fields an enqueue event carries. -/
structure EffectRecord extends EffectIdentity where
  status : EffectStatus
  lease : Option Lease
  delivery : Option Delivery
  updatedAt : Time
deriving DecidableEq

/-- What binds a packet verification receipt to one effect of one Work Order. -/
structure PacketVerificationReceipt where
  receiptHash : Digest
  effectIdentity : EffectIdentity
  workOrderId : Ref
  workOrderRevision : Nat
  planSnapshotRef : Ref
  planHash : Digest
  engineContractVersion : ContractVersion
deriving DecidableEq

/-- A projected outbox effect. -/
structure Effect extends EffectRecord where
  leaseGeneration : Nat
  lastLeaseId : Option Ref
  fencingHistory : List FencingToken
  settlementPolicy : Option SettlementPolicy
  packetVerificationReceipt : Option PacketVerificationReceipt
  lastDeliveryReason : Option String
deriving DecidableEq

/-- The V2-only request fields hold their defaults, as they do for a historical V1 effect. -/
def EffectSeed.LegacyShape (s : EffectSeed) : Prop :=
  s.effectContractVersion = .v1 ∧ s.originSourceId = "" ∧ s.operationScopeHash = "" ∧
    s.operationGeneration = 0 ∧ s.generationPredecessorEffectId = none ∧
    s.predecessorEffectId = none ∧ s.predecessorDeliveryHash = none ∧
    s.targetRuntimeIdentity = none
deriving Decidable

/-! ## Branches -/

structure BranchDelivery where
  classification : Classification
  observedAt : Time
deriving DecidableEq

structure OpenUserInput where
  requestId : Ref
  promptRef : ContentRef
  requestedAt : Time
deriving DecidableEq

structure ResolvedUserInput where
  requestId : Ref
  responseRef : ContentRef
  resolvedAt : Time
deriving DecidableEq

structure BranchResult where
  attempt : Nat
  artifactRefs : List ContentRef
  evidenceRefs : List Ref
  submittedAt : Time
deriving DecidableEq

structure VerificationRecord where
  criterionId : Ref
  verificationRef : ContentRef
  kind : VerificationKind
  status : VerificationStatus
  evidenceRefs : List Ref
  verifierRef : Ref
  recordedAt : Time
deriving DecidableEq

/-- What is kept of an attempt once a later one is opened. -/
structure AttemptRecord where
  attempt : Nat
  dispatchId : Option Ref
  state : BranchState
  delivery : Option BranchDelivery
  result : Option BranchResult
  finishedAt : Option Time
deriving DecidableEq

structure Branch extends PlanBranch where
  requiredCriterionIds : List Ref
  state : BranchState
  attempt : Nat
  dispatchId : Option Ref
  packetRef : Option ContentRef
  (attemptStartedAt attemptDeadlineAt retryAt : Option Time)
  delivery : Option BranchDelivery
  (threadIdentity runtimeIdentity : Option RuntimeIdentity)
  openUserInput : Option OpenUserInput
  pendingUserInputEffectId : Option Ref
  pendingUserInputResponseRef : Option ContentRef
  result : Option BranchResult
  verificationByCriterion : OrderedMap (Ref × Ref) VerificationRecord
  (lastProgressAt finishedAt : Option Time)
  attemptHistory : OrderedMap Nat AttemptRecord
  lastRuntimeObservation : Option Observation
  threadCreateEffectId : Option Ref
  threadCreateDeliveryHash : Option Digest
  turnStartEffectId : Option Ref
  turnStartDeliveryHash : Option Digest
  cancelEffectId : Option Ref
  lastTransitionReason : Option String
  lastResolvedUserInput : Option ResolvedUserInput
deriving DecidableEq

/-- The branch view `reduceBranchInitialized` creates. -/
def PlanBranch.initial (planned : PlanBranch) (requiredCriterionIds : List Ref)
    (state : BranchState) : Branch :=
  { planned with
    requiredCriterionIds, state, attempt := 0, dispatchId := none, packetRef := none
    attemptStartedAt := none, attemptDeadlineAt := none, retryAt := none, delivery := none
    threadIdentity := none, runtimeIdentity := none, openUserInput := none
    pendingUserInputEffectId := none, pendingUserInputResponseRef := none, result := none
    verificationByCriterion := .empty, lastProgressAt := none, finishedAt := none
    attemptHistory := .empty, lastRuntimeObservation := none, threadCreateEffectId := none
    threadCreateDeliveryHash := none, turnStartEffectId := none, turnStartDeliveryHash := none
    cancelEffectId := none, lastTransitionReason := none, lastResolvedUserInput := none }

/-! ## Attention and acceptance -/

/-- The attention kinds the lifecycle reads; the projector accepts any other name as well. -/
inductive AttentionKind
  | deliveryUnknown | timeoutRequiresReconciliation | cancelRequiresDispatchReconciliation
  | cancelRequiresRuntimeIdentity | cancelNotSent | providerEffectPresendFailure
  | providerRateLimited | providerUnavailable
  | other (kind : Ref)
deriving DecidableEq

/-- `V2_RECOVERY_ATTENTION_KINDS`. -/
def AttentionKind.isRecovery : AttentionKind → Bool
  | .deliveryUnknown | .timeoutRequiresReconciliation
  | .cancelRequiresDispatchReconciliation => true
  | _ => false

/-- `V2_OPERATOR_ATTENTION_KINDS`. -/
def AttentionKind.isOperator : AttentionKind → Bool
  | .providerEffectPresendFailure => true
  | _ => false

/-- The attention kinds that may stand in for a cancel effect. -/
def AttentionKind.isCancel : AttentionKind → Bool
  | .cancelRequiresRuntimeIdentity | .cancelRequiresDispatchReconciliation
  | .cancelNotSent => true
  | _ => false

structure AttentionPayload where
  attentionId : Ref
  kind : AttentionKind
  (branchRef effectId : Option Ref)
  detailRef : ContentRef
  evidenceRefs : List Ref
  openedAt : Time
deriving DecidableEq

structure AttentionResolution where
  resolutionRef : ContentRef
  evidenceRefs : List Ref
  resolvedAt : Time
deriving DecidableEq

/-- An attention record; it is open until it has a resolution. -/
structure Attention extends AttentionPayload where
  resolution : Option AttentionResolution
deriving DecidableEq

def Attention.isOpen (a : Attention) : Bool := a.resolution.isNone

structure ContextBudgetReceipt where
  (budgetTokens duplicateContextTokens : Nat)
  evidenceRefs : List Ref
deriving DecidableEq

structure ReviewRecord where
  (reviewId branchRef : Ref)
  resultHash : Digest
  status : ReviewStatus
  findings : ReviewFindings
  evidenceRefs : List Ref
  reviewerRef : Ref
  recordedAt : Time
deriving DecidableEq

structure AcceptanceRecord where
  decision : AcceptanceDecision
  evidenceRefs : List Ref
  comment : String
  decidedBy : Ref
  decidedAt : Time
deriving DecidableEq

structure AcceptanceHistoryEntry extends AcceptanceRecord where
  sourceId : Ref
  appliedRevision : Nat

structure Acceptance where
  contextBudget : Option ContextBudgetReceipt
  reviews : OrderedMap Ref ReviewRecord
  decision : Option AcceptanceRecord
  decisionHistory : List AcceptanceHistoryEntry

end Orquesta
