import Orquesta.Contract.Normalize
import Orquesta.Library.Noted

/-!
# The acceptance evaluator

`evaluateBusinessAcceptanceV1` decides whether a finished Work Order is acceptable.
Its input is a raw plan and a raw snapshot of what the branches, verifiers and
reviewers reported.  It bounds the input, normalises the plan, and then collects
every reason against acceptance; the plan is accepted when there is none.

Only the first reason against a malformed input, plan or snapshot is reported; after
that every validator runs and the reasons add up, so the validators are `Noted`
computations.

## Main definitions

* `preflightInput`: the bounds on the input
* `validateBranches`, `validateCriterionResults`, `validateReviews`,
  `validateVerificationChecks`, …
* `evaluateBusinessAcceptanceV1`
-/

namespace Orquesta.Contract

open Noted

/-- A reason against acceptance. -/
inductive ReasonCode
  | businessAcceptanceInputInvalid | businessAcceptancePlanInvalid
  | businessAcceptanceSnapshotInvalid | workOrderIdInvalid | snapshotProjectRefInvalid
  | snapshotProjectRefMismatch | snapshotPlanSnapshotIdInvalid | snapshotPlanSnapshotIdMismatch
  | snapshotPlanHashInvalid | snapshotPlanHashMismatch | snapshotPlanRevisionInvalid
  | snapshotPlanRevisionMismatch | snapshotWorkOrderRevisionInvalid | branchResultsInvalid
  | branchSetMismatch | branchResultInvalid | branchRefInvalid | branchResultDuplicate
  | branchEvidenceInvalid | branchArtifactRefsInvalid | integrationBranchNotAccepted
  | workBranchNotVerifiedOrAccepted | criterionResultsInvalid | criterionResultSetMismatch
  | criterionResultInvalid | criterionIdInvalid | criterionResultDuplicate | criterionNotPassed
  | criterionEvidenceInvalid | reviewsInvalid | reviewCountBelowMinimum | reviewInvalid
  | reviewBranchRefInvalid | reviewBranchMismatch | reviewIdInvalid | reviewDuplicate
  | reviewerRefInvalid | reviewerDuplicate | reviewNotIndependent | reviewNotAccepted
  | reviewFindingsInvalid | reviewBlockingFindingsPresent | reviewEvidenceInvalid
  | pendingAttentionRefsInvalid | pendingAttentionPresent | openRiskRefsInvalid | openRisksPresent
  | unverifiedRefsInvalid | unverifiedRefsPresent | verificationChecksInvalid
  | verificationCheckInvalid | verificationCheckBranchRefInvalid | verificationCheckBranchMismatch
  | verificationCheckCriterionIdInvalid | verificationCheckCriterionUnknown
  | verificationCheckKindInvalid | verificationCheckVerifierRefInvalid
  | verificationCheckVerifierDuplicate | humanVerifierNotIndependent | verificationCheckRefInvalid
  | verificationCheckDuplicate | verificationCheckNotPlanBound | verificationCheckNotPassed
  | verificationCheckEvidenceInvalid | verificationCheckEvidenceReused
  | verificationRequirementMissing | criterionDeterministicVerificationMissing
  | criterionHumanVerificationMissing | criterionEvidenceNotBoundToChecks

namespace ReasonCode

/-- The text of a reason code. -/
def text : ReasonCode → String
  | businessAcceptanceInputInvalid => "business_acceptance_input_invalid"
  | businessAcceptancePlanInvalid => "business_acceptance_plan_invalid"
  | businessAcceptanceSnapshotInvalid => "business_acceptance_snapshot_invalid"
  | workOrderIdInvalid => "work_order_id_invalid"
  | snapshotProjectRefInvalid => "snapshot_project_ref_invalid"
  | snapshotProjectRefMismatch => "snapshot_project_ref_mismatch"
  | snapshotPlanSnapshotIdInvalid => "snapshot_plan_snapshot_id_invalid"
  | snapshotPlanSnapshotIdMismatch => "snapshot_plan_snapshot_id_mismatch"
  | snapshotPlanHashInvalid => "snapshot_plan_hash_invalid"
  | snapshotPlanHashMismatch => "snapshot_plan_hash_mismatch"
  | snapshotPlanRevisionInvalid => "snapshot_plan_revision_invalid"
  | snapshotPlanRevisionMismatch => "snapshot_plan_revision_mismatch"
  | snapshotWorkOrderRevisionInvalid => "snapshot_work_order_revision_invalid"
  | branchResultsInvalid => "branch_results_invalid"
  | branchSetMismatch => "branch_set_mismatch"
  | branchResultInvalid => "branch_result_invalid"
  | branchRefInvalid => "branch_ref_invalid"
  | branchResultDuplicate => "branch_result_duplicate"
  | branchEvidenceInvalid => "branch_evidence_invalid"
  | branchArtifactRefsInvalid => "branch_artifact_refs_invalid"
  | integrationBranchNotAccepted => "integration_branch_not_accepted"
  | workBranchNotVerifiedOrAccepted => "work_branch_not_verified_or_accepted"
  | criterionResultsInvalid => "criterion_results_invalid"
  | criterionResultSetMismatch => "criterion_result_set_mismatch"
  | criterionResultInvalid => "criterion_result_invalid"
  | criterionIdInvalid => "criterion_id_invalid"
  | criterionResultDuplicate => "criterion_result_duplicate"
  | criterionNotPassed => "criterion_not_passed"
  | criterionEvidenceInvalid => "criterion_evidence_invalid"
  | reviewsInvalid => "reviews_invalid"
  | reviewCountBelowMinimum => "review_count_below_minimum"
  | reviewInvalid => "review_invalid"
  | reviewBranchRefInvalid => "review_branch_ref_invalid"
  | reviewBranchMismatch => "review_branch_mismatch"
  | reviewIdInvalid => "review_id_invalid"
  | reviewDuplicate => "review_duplicate"
  | reviewerRefInvalid => "reviewer_ref_invalid"
  | reviewerDuplicate => "reviewer_duplicate"
  | reviewNotIndependent => "review_not_independent"
  | reviewNotAccepted => "review_not_accepted"
  | reviewFindingsInvalid => "review_findings_invalid"
  | reviewBlockingFindingsPresent => "review_blocking_findings_present"
  | reviewEvidenceInvalid => "review_evidence_invalid"
  | pendingAttentionRefsInvalid => "pending_attention_refs_invalid"
  | pendingAttentionPresent => "pending_attention_present"
  | openRiskRefsInvalid => "open_risk_refs_invalid"
  | openRisksPresent => "open_risks_present"
  | unverifiedRefsInvalid => "unverified_refs_invalid"
  | unverifiedRefsPresent => "unverified_refs_present"
  | verificationChecksInvalid => "verification_checks_invalid"
  | verificationCheckInvalid => "verification_check_invalid"
  | verificationCheckBranchRefInvalid => "verification_check_branch_ref_invalid"
  | verificationCheckBranchMismatch => "verification_check_branch_mismatch"
  | verificationCheckCriterionIdInvalid => "verification_check_criterion_id_invalid"
  | verificationCheckCriterionUnknown => "verification_check_criterion_unknown"
  | verificationCheckKindInvalid => "verification_check_kind_invalid"
  | verificationCheckVerifierRefInvalid => "verification_check_verifier_ref_invalid"
  | verificationCheckVerifierDuplicate => "verification_check_verifier_duplicate"
  | humanVerifierNotIndependent => "human_verifier_not_independent"
  | verificationCheckRefInvalid => "verification_check_ref_invalid"
  | verificationCheckDuplicate => "verification_check_duplicate"
  | verificationCheckNotPlanBound => "verification_check_not_plan_bound"
  | verificationCheckNotPassed => "verification_check_not_passed"
  | verificationCheckEvidenceInvalid => "verification_check_evidence_invalid"
  | verificationCheckEvidenceReused => "verification_check_evidence_reused"
  | verificationRequirementMissing => "verification_requirement_missing"
  | criterionDeterministicVerificationMissing => "criterion_deterministic_verification_missing"
  | criterionHumanVerificationMissing => "criterion_human_verification_missing"
  | criterionEvidenceNotBoundToChecks => "criterion_evidence_not_bound_to_checks"

end ReasonCode

/-- A validator: reasons are its remarks, evidence is what it gathers. -/
abbrev Evaluate := Noted ReasonCode Ref

/-! ## Limits and field names -/

def MAX_INPUT_BYTES : Nat := 262144
def MAX_INPUT_DEPTH : Nat := 16
def MAX_INPUT_NODES : Nat := 8192
def MAX_ARRAY_ITEMS : Nat := 1024
def MAX_REF_BYTES : Nat := 256
def MAX_TEXT_BYTES : Nat := 32768
def MAX_SAFE_INTEGER : Int := 9007199254740991

def INPUT_FIELDS : List String := ["plan", "snapshot"]

def SNAPSHOT_FIELDS : List String :=
  ["work_order_id", "project_ref", "plan_snapshot_id", "plan_hash", "plan_revision",
    "work_order_revision", "branches", "criterion_results", "reviews", "pending_attention_refs",
    "open_risk_refs", "unverified_refs", "verification_checks"]

def BRANCH_RESULT_FIELDS : List String := ["branch_ref", "status", "artifact_refs", "evidence_refs"]

def CRITERION_RESULT_FIELDS : List String := ["criterion_id", "status", "evidence_refs"]

def REVIEW_FIELDS : List String :=
  ["branch_ref", "review_id", "reviewer_ref", "status", "findings", "evidence_refs"]

def REVIEW_FINDING_FIELDS : List String := ["critical", "important", "minor"]

def VERIFICATION_CHECK_FIELDS : List String :=
  ["branch_ref", "criterion_id", "kind", "verifier_ref", "verification_ref", "status",
    "evidence_refs"]

/-! ## Values -/

variable (assignees : List Ref) (snapshot : Raw) (plan : WorkOrderPlan) (branchRef : Ref)
  (value : Raw) (reasonCode : ReasonCode)

/-- `value[name]` -/
def member (name : String) : Raw :=
  match value with
  | .obj ms => field ms name
  | _ => .null

def hasExactFields (fields : List String) : Bool :=
  match value with
  | .obj ms => ms.length = fields.length && fields.all (· ∈ ms.map Prod.fst) &&
      (ms.map Prod.fst).all (· ∈ fields)
  | _ => false

/-- `value === text` -/
def isText (text : String) : Bool :=
  match value with
  | .str s => s = text
  | _ => false

/-- The string `value` is, if it is one that matches. -/
def textMatching (pattern : String → Bool) (value : Raw) : Option String :=
  match value with
  | .str s => if pattern s then some s else none
  | _ => none

/-- `isPortableRef`, on strings -/
def isPortableText (s : String) : Bool :=
  trim s = s && s ≠ "" && s.utf8ByteSize ≤ MAX_REF_BYTES && matchesRef s

/-- The portable reference `value` is, if it is one. -/
def portableRef : Option Ref := textMatching isPortableText value

def isPortableRef : Bool := (portableRef value).isSome

/-- The content-addressed reference `value` is, if it is one. -/
def contentAddressedRef : Option ContentRef :=
  if hasExactFields value CONTENT_REF_FIELDS then
    match portableRef (member value "id"), textMatching isSha256 (member value "hash") with
    | some id, some hash => some ⟨id, hash⟩
    | _, _ => none
  else none

/-- The number `value` is, if it is a safe integer of at least `minimum`. -/
def safeInteger (minimum : Int) (value : Raw) : Option Int :=
  match value with
  | .num n => if minimum ≤ n ∧ n ≤ MAX_SAFE_INTEGER then some n else none
  | _ => none

/-- `isCount` -/
def count : Option Int := safeInteger 0 value

/-! ## Preflight -/

/-- What one value adds to the byte count, the names of its members included. -/
def inputWeights : Json.Weights Int where
  null := 4
  bool _ := 4
  num _ := 24
  str s := s.utf8ByteSize + 2
  arr _ := 2
  obj _ := 2
  name k := k.utf8ByteSize + 3

/-- The checks on one value that do not look below it. -/
def inputFits : Bool :=
  match value with
  | .str s => s.utf8ByteSize ≤ MAX_TEXT_BYTES * 2
  | .arr xs => xs.length ≤ MAX_ARRAY_ITEMS
  | _ => true

/-- The stack of `preflightInput`, each value with its depth; `budget` is how many values it may
still look at, `bytes` the bytes counted so far. -/
def preflightInputWalk : (budget bytes : Nat) → List (Raw × Nat) → Bool
  | _, _, [] => true
  | 0, _, _ :: _ => false
  | budget + 1, bytes, (value, depth) :: stack =>
    depth ≤ MAX_INPUT_DEPTH && inputFits value &&
      bytes + inputWeights.own value ≤ MAX_INPUT_BYTES &&
      preflightInputWalk budget (bytes + inputWeights.own value)
        ((value.children.map fun v => (v, depth + 1)).reverse ++ stack)

def preflightInput (root : Raw) : Bool := preflightInputWalk MAX_INPUT_NODES 0 [(root, 0)]

/-! ## Lists of references -/

/-- Read references into a set: whether every entry was a new reference, and the set. -/
def collectRefs : Bool → List Ref → List Raw → Bool × List Ref
  | valid, seen, [] => (valid, seen)
  | valid, seen, x :: xs =>
    match portableRef x with
    | some ref => if ref ∈ seen then collectRefs false seen xs
        else collectRefs valid (seen ++ [ref]) xs
    | none => collectRefs false seen xs

/-- `validateEvidenceRefs`; the value is the verdict and the references found. -/
def validateEvidenceRefs : Evaluate (Bool × List Ref) :=
  match value with
  | .arr xs =>
    if xs.length = 0 ∨ 128 < xs.length then do
      remark reasonCode
      return (false, [])
    else do
      let found := collectRefs true [] xs
      let _ ← expect found.1 reasonCode
      return found
  | _ => do
    remark reasonCode
    return (false, [])

/-- Read content-addressed references with distinct identifiers. -/
def collectArtifacts : Bool → List Ref → List Raw → Bool
  | valid, _, [] => valid
  | valid, ids, x :: xs =>
    match contentAddressedRef x with
    | some ref => if ref.id ∈ ids then collectArtifacts false ids xs
        else collectArtifacts valid (ids ++ [ref.id]) xs
    | none => collectArtifacts false ids xs

def validateArtifactRefs : Evaluate Bool :=
  match value with
  | .arr xs => expect (0 < xs.length && xs.length ≤ 128 && collectArtifacts true [] xs) reasonCode
  | _ => expect false reasonCode

def validateEmptyRefList (invalidCode presentCode : ReasonCode) : Evaluate Unit :=
  match value with
  | .arr xs =>
    if 128 < xs.length then remark invalidCode
    else do
      let _ ← expect (xs.length = 0) presentCode
      let _ ← expect (xs.all isPortableRef) invalidCode
  | _ => remark invalidCode

/-! ## Identity -/

/-- `/^WO-[a-f0-9]{32}$/u` -/
def isWorkOrderId (s : String) : Bool :=
  s.toList.take 3 = ['W', 'O', '-'] && (s.toList.drop 3).length = 32 &&
    (s.toList.drop 3).all isHexChar

/-- A field of the snapshot that has to repeat a field of the plan. -/
def expectSame {α : Type} [DecidableEq α] (read : Option α) (planned : α)
    (invalidCode mismatchCode : ReasonCode) : Evaluate Bool :=
  match read with
  | none => expect false invalidCode
  | some a => expect (a = planned) mismatchCode

def validateSnapshotIdentity : Evaluate Unit := do
  let _ ← expect (textMatching isWorkOrderId (member snapshot "work_order_id")).isSome
    .workOrderIdInvalid
  let _ ← expectSame (portableRef (member snapshot "project_ref")) plan.content.projectRef
    .snapshotProjectRefInvalid .snapshotProjectRefMismatch
  let _ ← expectSame (textMatching isPlanSnapshotId (member snapshot "plan_snapshot_id"))
    plan.planSnapshotId .snapshotPlanSnapshotIdInvalid .snapshotPlanSnapshotIdMismatch
  let _ ← expectSame (textMatching isSha256 (member snapshot "plan_hash")) plan.planHash
    .snapshotPlanHashInvalid .snapshotPlanHashMismatch
  let _ ← expectSame (safeInteger 1 (member snapshot "plan_revision")) plan.content.revision
    .snapshotPlanRevisionInvalid .snapshotPlanRevisionMismatch
  let _ ← expect (safeInteger 1 (member snapshot "work_order_revision")).isSome
    .snapshotWorkOrderRevisionInvalid

/-! ## Branches -/

/-- Add to a set of references, in the order of insertion. -/
def insertRef (ref : Ref) (refs : List Ref) : List Ref := if ref ∈ refs then refs else refs ++ [ref]

/-- The status a planned branch has to report, by its role. -/
def expectBranchStatus (planned : Option WorkOrderBranch) (status : Raw) : Evaluate Bool :=
  match planned.map WorkOrderBranch.role with
  | none => return true
  | some .integration => expect (isText status "accepted") .integrationBranchNotAccepted
  | some .work => expect (isText status "verified" || isText status "accepted")
      .workBranchNotVerifiedOrAccepted

/-- The planned branch of this name; the names of a plan's branches are distinct. -/
def plannedBranch (ref : Ref) : Option WorkOrderBranch :=
  plan.content.branches.find? (·.branchRef = ref)

def validateBranchResult (resultRefs : List Ref) (result : Raw) : Evaluate (List Ref) :=
  if !hasExactFields result BRANCH_RESULT_FIELDS then do
    remark .branchResultInvalid
    return resultRefs
  else
    match portableRef (member result "branch_ref") with
    | none => do
      remark .branchRefInvalid
      return resultRefs
    | some ref => do
      let _ ← expect (ref ∉ resultRefs) .branchResultDuplicate
      let evidence ← validateEvidenceRefs (member result "evidence_refs") .branchEvidenceInvalid
      gather evidence.2
      let _ ← validateArtifactRefs (member result "artifact_refs") .branchArtifactRefsInvalid
      let _ ← expectBranchStatus (plannedBranch plan ref) (member result "status")
      return insertRef ref resultRefs

/-- Results were given for exactly the planned names. -/
def sameRefs (results planned : List Ref) : Bool :=
  results.length = planned.length && results.all (· ∈ planned)

def validateBranches : Evaluate Unit :=
  match member snapshot "branches" with
  | .arr results =>
    if 64 < results.length then do
      remark .branchResultsInvalid
      remark .branchSetMismatch
    else do
      let resultRefs ← results.foldlM (validateBranchResult plan) []
      let _ ← expect (sameRefs resultRefs (branchRefs plan.content.branches)) .branchSetMismatch
  | _ => do
    remark .branchResultsInvalid
    remark .branchSetMismatch

/-! ## Criteria -/

/-- The criteria seen so far, and the evidence of those whose evidence is valid. -/
structure CriterionResults where
  resultIds : List Ref
  resultsById : List (Ref × List Ref)

def validateCriterionResult (s : CriterionResults) (result : Raw) : Evaluate CriterionResults :=
  if !hasExactFields result CRITERION_RESULT_FIELDS then do
    remark .criterionResultInvalid
    return s
  else
    match portableRef (member result "criterion_id") with
    | none => do
      remark .criterionIdInvalid
      return s
    | some id => do
      let first ← expect (id ∉ s.resultIds) .criterionResultDuplicate
      let _ ← expect (isText (member result "status") "passed") .criterionNotPassed
      let evidence ← validateEvidenceRefs (member result "evidence_refs")
        .criterionEvidenceInvalid
      gather evidence.2
      return ⟨insertRef id s.resultIds,
        if first && evidence.1 then s.resultsById ++ [(id, evidence.2)] else s.resultsById⟩

def criterionIds : List Ref :=
  plan.content.acceptancePolicy.criteria.map AcceptanceCriterion.criterionId

def validateCriterionResults : Evaluate (List (Ref × List Ref)) :=
  match member snapshot "criterion_results" with
  | .arr results =>
    if 64 < results.length then do
      remark .criterionResultsInvalid
      remark .criterionResultSetMismatch
      return []
    else do
      let s ← results.foldlM validateCriterionResult ⟨[], []⟩
      let _ ← expect (sameRefs s.resultIds (criterionIds plan)) .criterionResultSetMismatch
      return s.resultsById
  | _ => do
    remark .criterionResultsInvalid
    remark .criterionResultSetMismatch
    return []

/-! ## Reviews -/

def assigneeRefs : List Ref := plan.content.branches.map WorkOrderBranch.assigneeRef

/-- The branch that is reviewed and verified: the integration branch, or else the first work
branch. -/
def acceptanceBranchRef : Option Ref :=
  match plan.content.integrationBranchRef with
  | some ref => some ref
  | none => (plan.content.branches.find? (·.role = .work)).map WorkOrderBranch.branchRef

/-- A field that has to be a reference not in the set yet; the value is the verdict and the set. -/
def expectNewRef (seen : List Ref) (invalidCode duplicateCode : ReasonCode) :
    Evaluate (Bool × List Ref) :=
  match portableRef value with
  | none => do
    remark invalidCode
    return (false, seen)
  | some ref => do
    let fresh ← expect (ref ∉ seen) duplicateCode
    return (fresh, insertRef ref seen)

structure Reviews where
  (reviewIds reviewerRefs : List Ref)
  validReviewCount : Nat

def validateFindings (findings : Raw) : Evaluate Bool :=
  if !hasExactFields findings REVIEW_FINDING_FIELDS then expect false .reviewFindingsInvalid
  else
    match count (member findings "critical"), count (member findings "important"),
      count (member findings "minor") with
    | some critical, some important, some _ =>
      expect (critical ≤ 0 && important ≤ 0) .reviewBlockingFindingsPresent
    | _, _, _ => expect false .reviewFindingsInvalid

/-- An independent reviewer: not the assignee of any branch. -/
def expectIndependent : Evaluate Bool :=
  match portableRef value with
  | none => return true
  | some ref => expect (ref ∉ assignees) .reviewNotIndependent

def validateReview (s : Reviews) (review : Raw) : Evaluate Reviews :=
  if !hasExactFields review REVIEW_FIELDS then do
    remark .reviewInvalid
    return s
  else do
    let branch ← expectSame (portableRef (member review "branch_ref")) branchRef
      .reviewBranchRefInvalid .reviewBranchMismatch
    let id ← expectNewRef (member review "review_id") s.reviewIds .reviewIdInvalid .reviewDuplicate
    let reviewer ← expectNewRef (member review "reviewer_ref") s.reviewerRefs .reviewerRefInvalid
      .reviewerDuplicate
    let independent ← expectIndependent assignees (member review "reviewer_ref")
    let status ← expect (isText (member review "status") "accepted") .reviewNotAccepted
    let findings ← validateFindings (member review "findings")
    let evidence ← validateEvidenceRefs (member review "evidence_refs") .reviewEvidenceInvalid
    gather evidence.2
    let valid := branch && id.1 && reviewer.1 && independent && status && findings && evidence.1
    return ⟨id.2, reviewer.2, s.validReviewCount + if valid then 1 else 0⟩

def validateReviews : Evaluate Unit :=
  match member snapshot "reviews" with
  | .arr reviews =>
    if 64 < reviews.length then do
      remark .reviewsInvalid
      remark .reviewCountBelowMinimum
    else do
      let s ← reviews.foldlM (validateReview (assigneeRefs plan) branchRef) ⟨[], [], 0⟩
      let _ ← expect (plan.content.acceptancePolicy.reviewMinimum.count ≤ s.validReviewCount)
        .reviewCountBelowMinimum
  | _ => do
    remark .reviewsInvalid
    remark .reviewCountBelowMinimum

/-! ## Verification checks -/

/-- A check that counts: for which criterion, which requirement it meets, and its evidence.  The
source keys a requirement by its kind, identifier and hash, joined by a character that no
reference contains. -/
structure AcceptedCheck where
  criterionId : Ref
  requirement : VerificationRequirement
  evidenceRefs : List Ref

structure Checks where
  (verificationRefIds verifierRefs evidenceOwners : List Ref)
  accepted : List AcceptedCheck

/-- The criterion of the plan with this identifier; they are distinct. -/
def plannedCriterion (id : Ref) : Option AcceptanceCriterion :=
  plan.content.acceptancePolicy.criteria.find? (·.criterionId = id)

/-- `criteriaById.get(value)` -/
def criterionOf : Option AcceptanceCriterion :=
  match value with
  | .str id => plannedCriterion plan id
  | _ => none

def checkKind : Option VerificationKind :=
  match value with
  | .str s => (Enumeration.names VerificationKind).lookup s
  | _ => none

def expectCriterion : Evaluate Bool :=
  match portableRef value with
  | none => expect false .verificationCheckCriterionIdInvalid
  | some id => expect (plannedCriterion plan id).isSome .verificationCheckCriterionUnknown

/-- A human verifier is not the assignee of any branch. -/
def expectIndependentVerifier (kind : Option VerificationKind) (value : Raw) : Evaluate Bool :=
  match kind, portableRef value with
  | some .human, some ref => expect (ref ∉ assignees) .humanVerifierNotIndependent
  | _, _ => return true

def expectNewVerificationRef (ref : Option ContentRef) (seen : List Ref) :
    Evaluate (Bool × List Ref) :=
  match ref with
  | none => do
    remark .verificationCheckRefInvalid
    return (false, seen)
  | some ref => do
    let fresh ← expect (ref.id ∉ seen) .verificationCheckDuplicate
    return (fresh, insertRef ref.id seen)

/-- The requirement a check names has to be one its criterion has. -/
def expectPlanBound (criterion : Option AcceptanceCriterion)
    (requirement : Option VerificationRequirement) : Evaluate Bool :=
  match criterion, requirement with
  | some criterion, some requirement =>
    expect (requirement ∈ criterion.verificationRequirements) .verificationCheckNotPlanBound
  | _, _ => return true

/-- No reference may be evidence twice; those that are not stay owned by their first check. -/
def ownEvidence : List Ref → List Ref → Evaluate (Bool × List Ref)
  | owners, [] => return (true, owners)
  | owners, ref :: refs => do
    let fresh ← expect (ref ∉ owners) .verificationCheckEvidenceReused
    let rest ← ownEvidence (insertRef ref owners) refs
    return (fresh && rest.1, rest.2)

def validateVerificationCheck (s : Checks) (check : Raw) : Evaluate Checks :=
  if !hasExactFields check VERIFICATION_CHECK_FIELDS then do
    remark .verificationCheckInvalid
    return s
  else do
    let criterion := criterionOf plan (member check "criterion_id")
    let kind := checkKind (member check "kind")
    let verificationRef := contentAddressedRef (member check "verification_ref")
    let requirement := do return ⟨← kind, ← verificationRef⟩
    let branch ← expectSame (portableRef (member check "branch_ref")) branchRef
      .verificationCheckBranchRefInvalid .verificationCheckBranchMismatch
    let criterionKnown ← expectCriterion plan (member check "criterion_id")
    let kindValid ← expect kind.isSome .verificationCheckKindInvalid
    let verifier ← expectNewRef (member check "verifier_ref") s.verifierRefs
      .verificationCheckVerifierRefInvalid .verificationCheckVerifierDuplicate
    let independent ← expectIndependentVerifier (assigneeRefs plan) kind
      (member check "verifier_ref")
    let ref ← expectNewVerificationRef verificationRef s.verificationRefIds
    let planBound ← expectPlanBound criterion requirement
    let status ← expect (isText (member check "status") "passed") .verificationCheckNotPassed
    let evidence ← validateEvidenceRefs (member check "evidence_refs")
      .verificationCheckEvidenceInvalid
    let owned ← ownEvidence s.evidenceOwners evidence.2
    gather evidence.2
    let valid := branch && criterionKnown && kindValid && verifier.1 && independent && ref.1 &&
      planBound && status && evidence.1 && owned.1
    return ⟨ref.2, verifier.2, owned.2,
      match valid, criterion, requirement with
      | true, some criterion, some requirement =>
        s.accepted ++ [⟨criterion.criterionId, requirement, evidence.2⟩]
      | _, _, _ => s.accepted⟩

/-- `setsEqual` -/
def setsEqual (left right : List Ref) : Bool :=
  left.all (· ∈ right) && right.all (· ∈ left)

/-- What the accepted checks have to establish for one criterion. -/
def validateCriterion (criterionResults : List (Ref × List Ref)) (accepted : List AcceptedCheck)
    (criterion : AcceptanceCriterion) : Evaluate Unit := do
  let checks := accepted.filter (·.criterionId = criterion.criterionId)
  let _ ← expect (criterion.verificationRequirements.all (· ∈ checks.map AcceptedCheck.requirement))
    .verificationRequirementMissing
  let _ ← expect (criterion.verification = .humanOnly ||
      checks.any (·.requirement.kind = .deterministic)) .criterionDeterministicVerificationMissing
  let _ ← expect (criterion.verification = .deterministic ||
      checks.any (·.requirement.kind = .human)) .criterionHumanVerificationMissing
  match criterionResults.lookup criterion.criterionId with
  | none => return ()
  | some evidenceRefs => do
    let _ ← expect (setsEqual evidenceRefs (checks.flatMap AcceptedCheck.evidenceRefs))
      .criterionEvidenceNotBoundToChecks

def validateVerificationChecks (criterionResults : List (Ref × List Ref)) : Evaluate Unit :=
  match member snapshot "verification_checks" with
  | .arr checks =>
    if 128 < checks.length then remark .verificationChecksInvalid
    else do
      let s ← checks.foldlM (validateVerificationCheck plan branchRef) ⟨[], [], [], []⟩
      plan.content.acceptancePolicy.criteria.foldlM
        (fun _ criterion => validateCriterion criterionResults s.accepted criterion) ()
  | _ => remark .verificationChecksInvalid

/-! ## The evaluator -/

structure AcceptanceResult where
  accepted : Bool
  reasonCodes : List String
  evidenceRefs : List Ref

def invalidResult : AcceptanceResult := ⟨false, [reasonCode.text], []⟩

/-- Everything that is checked once the plan and the shape of the snapshot are known. -/
def evaluateSnapshot (snapshot : Raw) : Evaluate Unit := do
  validateSnapshotIdentity snapshot plan
  validateBranches snapshot plan
  let criterionResults ← validateCriterionResults snapshot plan
  validateReviews snapshot plan branchRef
  validateEmptyRefList (member snapshot "pending_attention_refs") .pendingAttentionRefsInvalid
    .pendingAttentionPresent
  validateEmptyRefList (member snapshot "open_risk_refs") .openRiskRefsInvalid .openRisksPresent
  validateEmptyRefList (member snapshot "unverified_refs") .unverifiedRefsInvalid
    .unverifiedRefsPresent
  validateVerificationChecks snapshot plan branchRef criterionResults

/-- `[...set].sort()` -/
def sortedSet (texts : List String) : List String := texts.dedup.insertionSort (· ≤ ·)

def evaluateBusinessAcceptanceV1 (H : Sha256) (input : Raw) : AcceptanceResult :=
  if !(preflightInput input && hasExactFields input INPUT_FIELDS) then
    invalidResult .businessAcceptanceInputInvalid
  else
    match normalizeBusinessWorkOrderPlanV1 H (member input "plan") with
    | .error _ => invalidResult .businessAcceptancePlanInvalid
    | .ok plan =>
      if !hasExactFields (member input "snapshot") SNAPSHOT_FIELDS then
        invalidResult .businessAcceptanceSnapshotInvalid
      else
        match acceptanceBranchRef plan with
        -- a plan without a work branch would throw, and the exception is reported as this
        | none => invalidResult .businessAcceptanceInputInvalid
        | some branchRef =>
          let result := evaluateSnapshot plan branchRef (member input "snapshot")
          ⟨result.remarks.isEmpty, sortedSet (result.remarks.map ReasonCode.text),
            sortedSet result.gathered⟩

end Orquesta.Contract
