import Orquesta.Settlement

/-!
# Commands and runtime observations

The two kinds of public input.  An envelope carries its identity, the plan
binding, the revision it was issued against and one payload; the payload types
follow the source's payload schemas, after normalisation.

Payload hashes and the provenance class of an actor are checked before a
decision is made and are not read afterwards; they are left out.

## Main definitions

* `ObservationPayload`, `Observation`
* `ObservationPayload.branchRef?`, `attempt?`, `dispatchId?`: the fields the currency checks read
-/

namespace Orquesta

/-- A provider's name for an operation; at least one field is present in a normalised identity. -/
structure RuntimeIdentity where
  (operationId threadId turnId : Option Ref)
deriving DecidableEq

/-- The identity of one lease. -/
structure FencingToken where
  (leaseId ownerId : Ref)
  generation : Nat
deriving DecidableEq

/-- The fields by which an observation names one outbox effect. -/
structure EffectBinding where
  effectId : Ref
  effectKind : EffectKind
  branchRef : Ref
  attempt : Nat
  dispatchId : Ref
deriving DecidableEq

/-- Where a settlement's evidence comes from. -/
inductive SettlementProvenance
  | workerResult (workerFencingToken : FencingToken) (workerResultRef : ContentRef)
  | recoveryProbe (probeReceiptRef : ContentRef) (mutationIdempotencyKey : Ref)
deriving DecidableEq

def SettlementProvenance.source : SettlementProvenance → SettlementSource
  | .workerResult _ _ => .workerResult
  | .recoveryProbe _ _ => .recoveryProbe

inductive VerificationStatus
  | passed | failed
deriving DecidableEq

inductive ReviewStatus
  | accepted | rejected
deriving DecidableEq

structure ReviewFindings where
  (critical important minor : Nat)
deriving DecidableEq

structure VerificationPayload where
  (branchRef criterionId : Ref)
  verificationRef : ContentRef
  kind : VerificationKind
  status : VerificationStatus
  evidenceRefs : List Ref
deriving DecidableEq

structure ReviewPayload where
  (branchRef reviewId : Ref)
  status : ReviewStatus
  findings : ReviewFindings
  evidenceRefs : List Ref
deriving DecidableEq

/-- The normalised observation payloads, one constructor for each observation name. -/
inductive ObservationPayload
  | workOrderStarted
  | workOrderCancelled (reason : String)
  | effectDelivery (binding : EffectBinding) (classification : Classification)
  | dispatchAccepted (branchRef : Ref) (attempt : Nat) (dispatchId : Ref)
  | dispatchNotSent (branchRef : Ref) (attempt : Nat) (dispatchId : Ref) (reason : String)
  | progress (branchRef : Ref) (attempt : Nat) (message : String)
  | resultSubmitted (branchRef : Ref) (attempt : Nat) (artifactRefs : List ContentRef)
      (evidenceRefs : List Ref)
  | failed (branchRef : Ref) (attempt : Nat) (failureCode : Ref)
  | timedOut (branchRef : Ref) (attempt : Nat) (timeoutMs : Nat)
  | deliveryUnknown (branchRef : Ref) (attempt : Nat) (dispatchId : Ref) (detail : String)
  | cancelled (branchRef : Ref) (attempt : Nat) (reason : String)
  | userInputRequested (branchRef : Ref) (requestId : Ref) (promptRef : ContentRef)
  | verification (payload : VerificationPayload)
  | review (payload : ReviewPayload)
  | rateLimited (branchRef : Ref) (attempt : Nat) (retryAfterMs : Nat)
  | unavailable (branchRef : Ref) (attempt : Nat) (detail : String)
  | effectSettlement (binding : EffectBinding) (classification : Classification)
      (provenance : SettlementProvenance)
  | sendExpiration (binding : EffectBinding) (expiredFencingToken : FencingToken)
      (leaseExpiresAt : Time) (expiryReceiptRef : ContentRef)
  | presendFailure (binding : EffectBinding) (claimedFencingToken : FencingToken)
      (failureReason : SettlementReason) (failureRecordRef : ContentRef)
deriving DecidableEq

/-- The names in `PROVIDER_SETTLEMENT_CURRENT_OBSERVATIONS`. -/
inductive SettlementObservationName
  | effectSettlement | sendExpiration | presendFailure
deriving DecidableEq

namespace ObservationPayload

/-- `payload.branch_ref`, for the observations that are about one branch. -/
def branchRef? : ObservationPayload → Option Ref
  | workOrderStarted | workOrderCancelled _ => none
  | effectDelivery b _ | effectSettlement b _ _ | sendExpiration b _ _ _ | presendFailure b _ _ _ =>
    some b.branchRef
  | dispatchAccepted r _ _ | dispatchNotSent r _ _ _ | progress r _ _ | resultSubmitted r _ _ _
  | failed r _ _ | timedOut r _ _ | deliveryUnknown r _ _ _ | cancelled r _ _
  | userInputRequested r _ _ | rateLimited r _ _ | unavailable r _ _ => some r
  | verification p => some p.branchRef
  | review p => some p.branchRef

/-- `payload.attempt`, where the payload has one. -/
def attempt? : ObservationPayload → Option Nat
  | effectDelivery b _ | effectSettlement b _ _ | sendExpiration b _ _ _ | presendFailure b _ _ _ =>
    some b.attempt
  | dispatchAccepted _ a _ | dispatchNotSent _ a _ _ | progress _ a _ | resultSubmitted _ a _ _
  | failed _ a _ | timedOut _ a _ | deliveryUnknown _ a _ _ | cancelled _ a _
  | rateLimited _ a _ | unavailable _ a _ => some a
  | workOrderStarted | workOrderCancelled _ | userInputRequested _ _ _ | verification _
  | review _ => none

/-- `payload.dispatch_id`, where the payload has one. -/
def dispatchId? : ObservationPayload → Option Ref
  | effectDelivery b _ | effectSettlement b _ _ | sendExpiration b _ _ _ | presendFailure b _ _ _ =>
    some b.dispatchId
  | dispatchAccepted _ _ d | dispatchNotSent _ _ d _ | deliveryUnknown _ _ d _ => some d
  | _ => none

/-- The effect binding of a provider-effect observation. -/
def binding? : ObservationPayload → Option EffectBinding
  | effectDelivery b _ | effectSettlement b _ _ | sendExpiration b _ _ _ | presendFailure b _ _ _ =>
    some b
  | _ => none

/-- The names in `EXECUTION_WINDOW_OBSERVATIONS`: facts that may only move an attempt forward
before its deadline. -/
def inExecutionWindow : ObservationPayload → Bool
  | progress _ _ _ | resultSubmitted _ _ _ _ | userInputRequested _ _ _ => true
  | _ => false

/-- The names in `TURN_BOUND_OBSERVATIONS`: facts about the accepted current turn. -/
def turnBound : ObservationPayload → Bool
  | progress _ _ _ | resultSubmitted _ _ _ _ | failed _ _ _ | userInputRequested _ _ _ => true
  | _ => false

/-- `branch.timed_out`. -/
def isTimeout : ObservationPayload → Bool
  | timedOut _ _ _ => true
  | _ => false

/-- The three current V2 provider-lifecycle observations. -/
def isCurrentSettlement : ObservationPayload → Bool
  | effectSettlement _ _ _ | sendExpiration _ _ _ _ | presendFailure _ _ _ _ => true
  | _ => false

/-- The name of a current settlement observation. -/
def settlementName : ObservationPayload → Option SettlementObservationName
  | effectSettlement _ _ _ => some .effectSettlement
  | sendExpiration _ _ _ _ => some .sendExpiration
  | presendFailure _ _ _ _ => some .presendFailure
  | _ => none

/-- The historical settlement names, `PROVIDER_SETTLEMENT_LEGACY_OBSERVATIONS`. -/
def isLegacySettlement : ObservationPayload → Bool
  | effectDelivery _ _ | dispatchAccepted _ _ _ | dispatchNotSent _ _ _ _
  | deliveryUnknown _ _ _ _ => true
  | _ => false

/-- The delivery class an observation settles an effect with, if it settles one. -/
def deliveryClassification? : ObservationPayload → Option Classification
  | effectDelivery _ c | effectSettlement _ c _ => some c
  | sendExpiration _ _ _ _ => some .deliveryUnknown
  | presendFailure _ _ _ _ => some .notSent
  | dispatchAccepted _ _ _ => some .accepted
  | dispatchNotSent _ _ _ _ => some .notSent
  | deliveryUnknown _ _ _ _ => some .deliveryUnknown
  | _ => none

end ObservationPayload

structure Observation where
  (observationId workOrderId planSnapshotRef : Ref)
  planHash : Digest
  workOrderRevision : Nat
  actorId : Ref
  payload : ObservationPayload
deriving DecidableEq

inductive AcceptanceDecision
  | accepted | rejected
deriving DecidableEq

end Orquesta
