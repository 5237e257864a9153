import Orquesta.Contract.Plan
import Orquesta.Contract.Values

/-!
# The plan normaliser

`normalizeBusinessWorkOrderPlanV1` turns a raw plan into the plan snapshot a Work
Order executes: strings are trimmed, lists are sorted, every cross-field rule is
checked, and the snapshot is named by the hash of its canonical text.  A snapshot is
itself a raw plan (`WorkOrderPlan.toJson`), and it is read again by every boundary,
by the decider and by the projector.

The digest is a parameter: `Sha256` is any function whose values have the shape of a
SHA-256 digest.

## Main definitions

* `WorkOrderPlan`: the normalised plan, with all of its fields
* `normalizeBusinessWorkOrderPlanV1`, and a normaliser for each part of a plan
* `WorkOrderPlan.toJson`: the object the normaliser returns
-/

namespace Orquesta.Contract

open Checked CONTRACT_LIMITS Json

/-- The digest of a text, as 64 lowercase hexadecimal characters. -/
structure Sha256 where
  digest : String → Digest
  isSha256 : ∀ t, isSha256 (digest t)

/-! ## Enumerations -/

/-- An enumerated field: the values it accepts, in the order the source lists them.  What is
asked of the names is decided value by value. -/
class Enumeration (α : Type) where
  values : List α
  name : α → String
  mem_values : ∀ a, a ∈ values := by intro a; cases a <;> decide
  name_injective : ∀ a b, name a = name b → a = b := by intro a b; cases a <;> cases b <;> decide
  trim_name : ∀ a, trim (name a) = name a := by intro a; cases a <;> decide +kernel
  fits_name : ∀ a, fitsText (name a) := by intro a; cases a <;> decide +kernel

namespace Enumeration

variable {α : Type} [Enumeration α]

def names (α : Type) [Enumeration α] : List (String × α) :=
  (values (α := α)).map fun a => (name a, a)

theorem lookup_names {s : String} {a : α} : (names α).lookup s = some a ↔ name a = s := by
  constructor
  · intro h
    obtain ⟨b, -, hb⟩ := List.mem_map.mp (mem_of_lookup h)
    cases hb
    rfl
  · rintro rfl
    cases h : (names α).lookup (name a) with
    | none =>
      refine absurd ?_ (lookup_eq_none.mp h)
      rw [names, List.map_map]
      exact List.mem_map_of_mem (f := name) (mem_values a)
    | some b =>
      obtain ⟨c, -, hc⟩ := List.mem_map.mp (mem_of_lookup h)
      obtain ⟨hnm, rfl⟩ := Prod.mk.inj hc
      rw [name_injective c a hnm]

def toJson (a : α) : Raw := .str (name a)

end Enumeration

inductive AcceptanceVerification
  | deterministic | mixed | humanOnly
deriving DecidableEq

inductive Isolation
  | readOnly | worktree | sandbox | remote
deriving DecidableEq

inductive PermissionMode
  | readOnly | workspaceWrite
deriving DecidableEq

inductive ProviderSelection
  | fixed | fallbackAllowed
deriving DecidableEq

/-- `ACCEPTANCE_VERIFICATION_MODES` -/
instance : Enumeration AcceptanceVerification where
  values := [.deterministic, .mixed, .humanOnly]
  name
    | .deterministic => "deterministic"
    | .mixed => "mixed"
    | .humanOnly => "human_only"

/-- `VERIFICATION_REQUIREMENT_KINDS` -/
instance : Enumeration VerificationKind where
  values := [.deterministic, .human]
  name
    | .deterministic => "deterministic"
    | .human => "human"

def ReviewMinimum.text : ReviewMinimum → String
  | .light => "light"
  | .normal => "normal"
  | .strict => "strict"

/-- `REVIEW_MINIMUMS` -/
instance : Enumeration ReviewMinimum where
  values := [.light, .normal, .strict]
  name := ReviewMinimum.text

/-- `BRANCH_ROLES` -/
instance : Enumeration BranchRole where
  values := [.work, .integration]
  name
    | .work => "work"
    | .integration => "integration"

/-- `BRANCH_ISOLATION_MODES` -/
instance : Enumeration Isolation where
  values := [.readOnly, .worktree, .sandbox, .remote]
  name
    | .readOnly => "read-only"
    | .worktree => "worktree"
    | .sandbox => "sandbox"
    | .remote => "remote"

/-- `PERMISSION_MODES` -/
instance : Enumeration PermissionMode where
  values := [.readOnly, .workspaceWrite]
  name
    | .readOnly => "read-only"
    | .workspaceWrite => "workspace-write"

/-- `PROVIDER_SELECTION_MODES` -/
instance : Enumeration ProviderSelection where
  values := [.fixed, .fallbackAllowed]
  name
    | .fixed => "fixed"
    | .fallbackAllowed => "fallback_allowed"

/-- `RETRYABLE_RUNTIME_OBSERVATIONS` -/
instance : Enumeration RetryableObservation where
  values := [.dispatchNotSent]
  name
    | .dispatchNotSent => "branch.dispatch.not_sent"

/-- `permissionRank` -/
def PermissionMode.rank : PermissionMode → Nat
  | .readOnly => 0
  | .workspaceWrite => 1

/-! ## Content references -/

def CONTENT_REF_FIELDS : List String := ["id", "hash"]

variable (plan : List (String × Raw)) (input : Raw) (rootRefs : List ContentRef)
  (branches : List WorkOrderBranch) (acceptancePolicy : AcceptancePolicy)

def normalizeContentRef (path : String) : Check ContentRef := do
  let ref ← assertExactFields input CONTENT_REF_FIELDS CONTENT_REF_FIELDS path
  let id ← assertRef (field ref "id") (path ++ ".id")
  let hash ← assertPattern (field ref "hash") (path ++ ".hash") isSha256
    "a lowercase SHA-256 hash"
  return ⟨id, hash⟩

/-- `assertUniqueField` -/
def assertUniqueField {α : Type} (keys : List α) [DecidableEq α] (name path : String) :
    Check Unit :=
  ensure keys.Nodup ⟨path ++ "." ++ name, .duplicate, "must be unique"⟩

/-- `assertUniqueContentRefId` -/
def assertUniqueContentRefId (refs : List ContentRef) (name path : String) : Check Unit :=
  ensure (refs.map ContentRef.id).Nodup
    ⟨path ++ "." ++ name ++ ".id", .duplicate, "must be unique"⟩

/-! ## Acceptance policy -/

def VERIFICATION_REQUIREMENT_FIELDS : List String := ["kind", "verification_ref"]

def ACCEPTANCE_CRITERION_FIELDS : List String :=
  ["criterion_id", "description", "verification", "verification_requirements"]

def ACCEPTANCE_POLICY_FIELDS : List String := ["criteria", "review_minimum"]

structure AcceptanceCriterion where
  criterionId : Ref
  description : String
  verification : AcceptanceVerification
  verificationRequirements : List VerificationRequirement

structure AcceptancePolicy where
  criteria : List AcceptanceCriterion
  reviewMinimum : ReviewMinimum

/-- The order of verification requirements: by reference, then by kind. -/
def requirementLe (a b : VerificationRequirement) : Prop :=
  a.verificationRef.id < b.verificationRef.id ∨
    (a.verificationRef.id = b.verificationRef.id ∧
      Enumeration.name a.kind ≤ Enumeration.name b.kind)
deriving Decidable

/-- Which kinds of requirement a verification mode asks for. -/
def AcceptanceVerification.Matches (mode : AcceptanceVerification)
    (requirements : List VerificationRequirement) : Prop :=
  let deterministic := (requirements.filter (·.kind = .deterministic)).length
  let human := requirements.length - deterministic
  match mode with
  | .deterministic => 1 ≤ deterministic ∧ human = 0
  | .humanOnly => 1 ≤ human ∧ deterministic = 0
  | .mixed => 1 ≤ deterministic ∧ 1 ≤ human

instance (mode : AcceptanceVerification) (requirements : List VerificationRequirement) :
    Decidable (mode.Matches requirements) := by
  unfold AcceptanceVerification.Matches
  cases mode <;> exact inferInstanceAs (Decidable (_ ∧ _))

def normalizeVerificationRequirement (path : String) :
    Check VerificationRequirement := do
  let requirement ← assertExactFields input VERIFICATION_REQUIREMENT_FIELDS
    VERIFICATION_REQUIREMENT_FIELDS path
  let kind ← assertEnum (field requirement "kind") (Enumeration.names VerificationKind)
    (path ++ ".kind")
  let verificationRef ← normalizeContentRef (field requirement "verification_ref")
    (path ++ ".verification_ref")
  return ⟨kind, verificationRef⟩

def normalizeVerificationRequirements (path : String)
    (verificationMode : AcceptanceVerification) : Check (List VerificationRequirement) := do
  let entries ← assertArray input path 1 maxVerificationRequirementsPerCriterion
  let requirements ← readEach
    (fun i entry => normalizeVerificationRequirement entry (path ++ "[" ++ toString i ++ "]"))
    0 entries
  ensure (requirements.map (·.verificationRef.id)).Nodup
    ⟨path, .duplicate, "must contain unique verification reference IDs"⟩
  ensure (verificationMode.Matches requirements)
    ⟨path, .verificationModeMismatch, "must exactly satisfy the " ++
      Enumeration.name verificationMode ++ " verification mode"⟩
  return requirements.insertionSort requirementLe

def normalizeAcceptanceCriterion (i : Nat) (input : Raw) : Check AcceptanceCriterion := do
  let path := "plan.acceptance_policy.criteria[" ++ toString i ++ "]"
  let criterion ← assertExactFields input ACCEPTANCE_CRITERION_FIELDS
    ACCEPTANCE_CRITERION_FIELDS path
  let verification ← assertEnum (field criterion "verification")
    (Enumeration.names AcceptanceVerification) (path ++ ".verification")
  let criterionId ← assertRef (field criterion "criterion_id") (path ++ ".criterion_id")
  let description ← assertString (field criterion "description") (path ++ ".description") 8192
  let verificationRequirements ← normalizeVerificationRequirements
    (field criterion "verification_requirements") (path ++ ".verification_requirements")
    verification
  return ⟨criterionId, description, verification, verificationRequirements⟩

def normalizeAcceptancePolicy : Check AcceptancePolicy := do
  let policy ← assertExactFields input ACCEPTANCE_POLICY_FIELDS ACCEPTANCE_POLICY_FIELDS
    "plan.acceptance_policy"
  let entries ← assertArray (field policy "criteria") "plan.acceptance_policy.criteria" 1
    maxAcceptanceCriteria
  let criteria ← readEach normalizeAcceptanceCriterion 0 entries
  assertUniqueField (criteria.map AcceptanceCriterion.criterionId) "criterion_id"
    "plan.acceptance_policy.criteria"
  let reviewMinimum ← assertEnum (field policy "review_minimum")
    (Enumeration.names ReviewMinimum) "plan.acceptance_policy.review_minimum"
  return ⟨criteria.insertionSort fun a b => a.criterionId ≤ b.criterionId, reviewMinimum⟩

/-! ## Retry, lease and provider policy -/

def RETRY_POLICY_FIELDS : List String :=
  ["max_attempts", "attempt_timeout_ms", "max_elapsed_ms", "backoff_initial_ms", "backoff_max_ms",
    "retryable_observations"]

def LEASE_POLICY_FIELDS : List String :=
  ["lease_duration_ms", "heartbeat_interval_ms", "max_recovery_probes"]

def PROVIDER_POLICY_FIELDS : List String := ["allowed_provider_refs", "selection"]

structure ProviderPolicy where
  allowedProviderRefs : List Ref
  selection : ProviderSelection

def normalizeRetryableObservation (i : Nat) (name : Raw) : Check RetryableObservation :=
  let path := "plan.retry_policy.retryable_observations[" ++ toString i ++ "]"
  match name with
  | .str "branch.delivery_unknown" => invalid path .deliveryAmbiguity
      "delivery_unknown requires reconciliation and must never be automatically retryable"
  | name => assertEnum name (Enumeration.names RetryableObservation) path

def normalizeRetryPolicy : Check RetryPolicy := do
  let policy ← assertExactFields input RETRY_POLICY_FIELDS RETRY_POLICY_FIELDS "plan.retry_policy"
  let entries ← assertArray (field policy "retryable_observations")
    "plan.retry_policy.retryable_observations" 0
    (Enumeration.values (α := RetryableObservation)).length
  let retryable ← readEach normalizeRetryableObservation 0 entries
  ensure retryable.Nodup ⟨"plan.retry_policy.retryable_observations", .duplicate, "must be unique"⟩
  let maxAttempts ← assertInteger (field policy "max_attempts") "plan.retry_policy.max_attempts" 1 5
  let attemptTimeoutMs ← assertInteger (field policy "attempt_timeout_ms")
    "plan.retry_policy.attempt_timeout_ms" 1000 86400000
  let maxElapsedMs ← assertInteger (field policy "max_elapsed_ms")
    "plan.retry_policy.max_elapsed_ms" 1000 604800000
  let backoffInitialMs ← assertInteger (field policy "backoff_initial_ms")
    "plan.retry_policy.backoff_initial_ms" 0 3600000
  let backoffMaxMs ← assertInteger (field policy "backoff_max_ms")
    "plan.retry_policy.backoff_max_ms" 0 86400000
  -- sorting leaves the list as it is: at most one observation can be named
  let normalized : RetryPolicy := ⟨maxAttempts, attemptTimeoutMs, maxElapsedMs, backoffInitialMs,
    backoffMaxMs, retryable⟩
  ensure (attemptTimeoutMs ≤ maxElapsedMs) ⟨"plan.retry_policy.attempt_timeout_ms",
    .inconsistentLimit, "must not exceed max_elapsed_ms"⟩
  ensure (backoffInitialMs ≤ backoffMaxMs) ⟨"plan.retry_policy.backoff_initial_ms",
    .inconsistentLimit, "must not exceed backoff_max_ms"⟩
  return normalized

def normalizeLeasePolicy : Check LeasePolicy := do
  let policy ← assertExactFields input LEASE_POLICY_FIELDS LEASE_POLICY_FIELDS "plan.lease_policy"
  let leaseDurationMs ← assertInteger (field policy "lease_duration_ms")
    "plan.lease_policy.lease_duration_ms" 5000 3600000
  let heartbeatIntervalMs ← assertInteger (field policy "heartbeat_interval_ms")
    "plan.lease_policy.heartbeat_interval_ms" 1000 600000
  let maxRecoveryProbes ← assertInteger (field policy "max_recovery_probes")
    "plan.lease_policy.max_recovery_probes" 1 20
  ensure (heartbeatIntervalMs < leaseDurationMs) ⟨"plan.lease_policy.heartbeat_interval_ms",
    .inconsistentLimit, "must be less than lease_duration_ms"⟩
  return ⟨leaseDurationMs, heartbeatIntervalMs, maxRecoveryProbes⟩

def normalizeProviderPolicy : Check ProviderPolicy := do
  let policy ← assertExactFields input PROVIDER_POLICY_FIELDS PROVIDER_POLICY_FIELDS
    "plan.provider_policy"
  let allowedProviderRefs ← normalizeUniqueRefs (field policy "allowed_provider_refs")
    "plan.provider_policy.allowed_provider_refs" 1 maxProviderRefs
  let selection ← assertEnum (field policy "selection") (Enumeration.names ProviderSelection)
    "plan.provider_policy.selection"
  ensure (selection = .fixed → allowedProviderRefs.length = 1)
    ⟨"plan.provider_policy.allowed_provider_refs", .providerCount,
      "fixed selection requires exactly one provider reference"⟩
  ensure (selection = .fallbackAllowed → 2 ≤ allowedProviderRefs.length)
    ⟨"plan.provider_policy.allowed_provider_refs", .providerCount,
      "fallback_allowed selection requires at least two provider references"⟩
  return ⟨allowedProviderRefs, selection⟩

/-! ## Branches -/

def BRANCH_FIELDS : List String :=
  ["branch_ref", "task_intent_ref", "execution_plan_ref", "context_pack_ref", "dependencies",
    "role", "parallelizable", "isolation", "assignee_ref", "provider_ref", "permission_mode"]

structure WorkOrderBranch where
  branchRef : Ref
  (taskIntentRef executionPlanRef contextPackRef : ContentRef)
  dependencies : List Ref
  role : BranchRole
  parallelizable : Bool
  isolation : Isolation
  (assigneeRef providerRef : Ref)
  permissionMode : PermissionMode

def normalizeBranch (i : Nat) (input : Raw) : Check WorkOrderBranch := do
  let path := "plan.branches[" ++ toString i ++ "]"
  let branch ← assertExactFields input BRANCH_FIELDS BRANCH_FIELDS path
  let branchRef ← assertRef (field branch "branch_ref") (path ++ ".branch_ref")
  let taskIntentRef ← normalizeContentRef (field branch "task_intent_ref")
    (path ++ ".task_intent_ref")
  let executionPlanRef ← normalizeContentRef (field branch "execution_plan_ref")
    (path ++ ".execution_plan_ref")
  let contextPackRef ← normalizeContentRef (field branch "context_pack_ref")
    (path ++ ".context_pack_ref")
  let dependencies ← normalizeUniqueRefs (field branch "dependencies") (path ++ ".dependencies") 0
    maxDependenciesPerBranch
  let role ← assertEnum (field branch "role") (Enumeration.names BranchRole) (path ++ ".role")
  let parallelizable ← assertBoolean (field branch "parallelizable") (path ++ ".parallelizable")
  let isolation ← assertEnum (field branch "isolation") (Enumeration.names Isolation)
    (path ++ ".isolation")
  let assigneeRef ← assertRef (field branch "assignee_ref") (path ++ ".assignee_ref")
  let providerRef ← assertRef (field branch "provider_ref") (path ++ ".provider_ref")
  let permissionMode ← assertEnum (field branch "permission_mode")
    (Enumeration.names PermissionMode) (path ++ ".permission_mode")
  ensure (branchRef ∉ dependencies)
    ⟨path ++ ".dependencies", .selfDependency, "must not contain its own branch_ref"⟩
  ensure (¬ (role = .integration ∧ parallelizable))
    ⟨path ++ ".parallelizable", .integrationParallel, "must be false for integration"⟩
  ensure (isolation = .readOnly → permissionMode = .readOnly)
    ⟨path ++ ".permission_mode", .isolationPermission,
      "must be read-only when isolation is read-only"⟩
  ensure (parallelizable → permissionMode = .workspaceWrite → isolation ≠ .readOnly)
    ⟨path ++ ".isolation", .parallelIsolation,
      "must isolate parallel writes with worktree, sandbox, or remote"⟩
  return ⟨branchRef, taskIntentRef, executionPlanRef, contextPackRef, dependencies, role,
    parallelizable, isolation, assigneeRef, providerRef, permissionMode⟩

/-- `byRef.get(ref).dependencies` -/
def dependenciesOf (ref : Ref) : List Ref :=
  ((branches.find? (·.branchRef = ref)).map WorkOrderBranch.dependencies).getD []

def branchRefs : List Ref := branches.map WorkOrderBranch.branchRef

def assertAcyclic : Check Unit := do
  checkAll branches fun branch =>
    checkAll branch.dependencies fun dependency =>
      ensure (dependency ∈ branchRefs branches)
        ⟨"plan.branches." ++ branch.branchRef ++ ".dependencies", .unknownDependency,
          "references unknown branch " ++ dependency⟩
  ensure (Digraph.visitAll (dependenciesOf branches) (branches.length + 1)
      (branchRefs branches)).isOk
    ⟨"plan.branches", .dependencyCycle, "must form an acyclic dependency graph"⟩

/-- What the integration branch transitively collects. -/
def reachableFrom (ref : Ref) : List Ref :=
  let stack := (dependenciesOf branches ref).reverse
  Digraph.collect (dependenciesOf branches)
    (stack.length + Digraph.edgesLeft (dependenciesOf branches) (branchRefs branches) []) stack []

def validateIntegration : Option Ref → Check Unit
  | none => ensure (branches.filter (·.role = .integration) = [])
      ⟨"plan.integration_branch_ref", .integrationMismatch,
        "must identify the declared integration branch"⟩
  | some ref => do
    ensure ((branches.filter (·.role = .integration)).map WorkOrderBranch.branchRef = [ref])
      ⟨"plan.integration_branch_ref", .integrationMismatch,
        "must identify the single declared integration branch"⟩
    checkAll branches fun branch =>
      ensure (branch.branchRef ≠ ref → ref ∉ branch.dependencies)
        ⟨"plan.branches." ++ branch.branchRef ++ ".dependencies", .integrationTerminal,
          "must not depend on the terminal integration branch"⟩
    let missing := (branches.filter fun b =>
      b.role = .work ∧ b.branchRef ∉ reachableFrom branches ref).map WorkOrderBranch.branchRef
    ensure (missing = [])
      ⟨"plan.integration_branch_ref", .integrationCoverage,
        "integration must transitively collect every work branch: " ++
          ", ".intercalate (missing.insertionSort (· ≤ ·))⟩

/-! ## Plans -/

def PLAN_REQUIRED_FIELDS : List String :=
  ["version", "project_ref", "revision", "supersedes_plan_ref", "title", "desired_outcome",
    "acceptance_policy", "task_intent_ref", "execution_plan_ref", "context_pack_ref", "branches",
    "integration_branch_ref", "max_concurrency", "context_duplication_budget_tokens",
    "retry_policy", "lease_policy", "provider_policy", "permission_mode"]

def PLAN_FIELDS : List String := PLAN_REQUIRED_FIELDS ++ ["plan_snapshot_id", "plan_hash"]

theorem nodup_PLAN_FIELDS : PLAN_FIELDS.Nodup := by
  simp [PLAN_FIELDS, PLAN_REQUIRED_FIELDS]

theorem nodup_PLAN_REQUIRED_FIELDS : PLAN_REQUIRED_FIELDS.Nodup :=
  nodup_PLAN_FIELDS.sublist (List.sublist_append_left _ _)

/-- What a plan snapshot is hashed over. -/
structure PlanContent where
  projectRef : Ref
  revision : Nat
  supersedesPlanRef : Option Ref
  (title desiredOutcome : String)
  acceptancePolicy : AcceptancePolicy
  (taskIntentRef executionPlanRef contextPackRef : ContentRef)
  branches : List WorkOrderBranch
  integrationBranchRef : Option Ref
  (maxConcurrency contextDuplicationBudgetTokens : Nat)
  retryPolicy : RetryPolicy
  leasePolicy : LeasePolicy
  providerPolicy : ProviderPolicy
  permissionMode : PermissionMode

structure WorkOrderPlan where
  planSnapshotId : Ref
  planHash : Digest
  content : PlanContent

/-- A field that holds `null` or a value. -/
def assertNullable {α : Type} (read : Raw → Check α) : Raw → Check (Option α)
  | .null => .ok none
  | value => some <$> read value

/-- The revision chain: every revision after the first names the snapshot it replaces. -/
def normalizeRevision : Check (Nat × Option Ref) := do
  let revision ← assertInteger (field plan "revision") "plan.revision" 1 1000000
  let supersedesPlanRef ← assertNullable (assertPattern · "plan.supersedes_plan_ref"
    isPlanSnapshotId "a BPS- reference with 32 lowercase hexadecimal characters")
    (field plan "supersedes_plan_ref")
  ensure (revision = 1 → supersedesPlanRef = none)
    ⟨"plan.supersedes_plan_ref", .revisionChain, "must be null for revision 1"⟩
  ensure (1 < revision → supersedesPlanRef ≠ none)
    ⟨"plan.supersedes_plan_ref", .revisionChain, "is required after revision 1"⟩
  return (revision, supersedesPlanRef)

/-- The content references a branch names. -/
def WorkOrderBranch.contentRefs (b : WorkOrderBranch) : List ContentRef :=
  [b.taskIntentRef, b.executionPlanRef, b.contextPackRef]

/-- Every content reference of a plan. -/
def planContentRefs : List ContentRef :=
  rootRefs ++ branches.flatMap WorkOrderBranch.contentRefs ++
    acceptancePolicy.criteria.flatMap fun c =>
      c.verificationRequirements.map VerificationRequirement.verificationRef

/-- The first identifier that occurs a second time. -/
def firstRepeated : List Ref → List Ref → Option Ref
  | _, [] => none
  | seen, id :: ids => if id ∈ seen then some id else firstRepeated (id :: seen) ids

def assertPlanContentRefIdsUnique : Check Unit :=
  match firstRepeated [] ((planContentRefs rootRefs branches acceptancePolicy).map
      ContentRef.id) with
  | none => .ok ()
  | some id => invalid "plan.content_refs" .contentRefIdConflict
      ("content reference id " ++ id ++ " must identify exactly one object within a plan")

/-- The branches of a plan, in the order they are given. -/
def readBranches : Check (List WorkOrderBranch) := do
  let entries ← assertArray input "plan.branches" 1 maxBranches
  let branches ← readEach normalizeBranch 0 entries
  assertUniqueField (branchRefs branches) "branch_ref" "plan.branches"
  assertUniqueContentRefId (branches.map WorkOrderBranch.taskIntentRef) "task_intent_ref"
    "plan.branches"
  assertUniqueContentRefId (branches.map WorkOrderBranch.executionPlanRef) "execution_plan_ref"
    "plan.branches"
  assertUniqueContentRefId (branches.map WorkOrderBranch.contextPackRef) "context_pack_ref"
    "plan.branches"
  assertPlanContentRefIdsUnique rootRefs branches acceptancePolicy
  assertAcyclic branches
  return branches

/-- The provider and permission ceilings of a plan, over its branches. -/
def checkBranchCeilings (providerPolicy : ProviderPolicy) (permissionMode : PermissionMode) :
    Check Unit :=
  checkAll branches fun branch => do
    ensure (branch.providerRef ∈ providerPolicy.allowedProviderRefs)
      ⟨"plan.branches." ++ branch.branchRef ++ ".provider_ref", .providerPolicy,
        "is outside provider_policy"⟩
    ensure (branch.permissionMode.rank ≤ permissionMode.rank)
      ⟨"plan.branches." ++ branch.branchRef ++ ".permission_mode", .permissionCeiling,
        "exceeds the plan permission_mode"⟩

def workBranchCount : Nat := (branches.filter (·.role = .work)).length

/-- `max_concurrency`, with the rules on the number of work branches before it. -/
def normalizeConcurrency (integrationBranchRef : Option Ref) : Check Nat := do
  ensure (workBranchCount branches ≠ 0)
    ⟨"plan.branches", .workBranchMissing, "must contain at least one work branch"⟩
  ensure (1 < workBranchCount branches → integrationBranchRef ≠ none)
    ⟨"plan.integration_branch_ref", .integrationRequired,
      "is required when more than one work branch contributes to the outcome"⟩
  let maxConcurrency ← assertInteger input "plan.max_concurrency" 1 maxBranches
  ensure (maxConcurrency ≤ workBranchCount branches)
    ⟨"plan.max_concurrency", .concurrencyLimit, "must not exceed the number of work branches"⟩
  return maxConcurrency

/-- `BUSINESS_WORK_ORDER_PLAN_VERSION` -/
def isPlanVersion : Raw → Bool
  | .num n => n = 1
  | _ => false

/-- Everything of a plan but its name: the fields, in the order the source reads them. -/
def readContent : Check PlanContent := do
  ensure (isPlanVersion (field plan "version"))
    ⟨"plan.version", .version, "must be 1"⟩
  let projectRef ← assertRef (field plan "project_ref") "plan.project_ref"
  let (revision, supersedesPlanRef) ← normalizeRevision plan
  let providerPolicy ← normalizeProviderPolicy (field plan "provider_policy")
  let permissionMode ← assertEnum (field plan "permission_mode")
    (Enumeration.names PermissionMode) "plan.permission_mode"
  let acceptancePolicy ← normalizeAcceptancePolicy (field plan "acceptance_policy")
  let taskIntentRef ← normalizeContentRef (field plan "task_intent_ref") "plan.task_intent_ref"
  let executionPlanRef ← normalizeContentRef (field plan "execution_plan_ref")
    "plan.execution_plan_ref"
  let contextPackRef ← normalizeContentRef (field plan "context_pack_ref") "plan.context_pack_ref"
  let branches ← readBranches (field plan "branches")
    [taskIntentRef, executionPlanRef, contextPackRef] acceptancePolicy
  let integrationBranchRef ← assertNullable (assertRef · "plan.integration_branch_ref")
    (field plan "integration_branch_ref")
  validateIntegration branches integrationBranchRef
  checkBranchCeilings branches providerPolicy permissionMode
  let maxConcurrency ← normalizeConcurrency (field plan "max_concurrency") branches
    integrationBranchRef
  let title ← assertString (field plan "title") "plan.title" 1024
  let desiredOutcome ← assertString (field plan "desired_outcome") "plan.desired_outcome" 8192
  let contextDuplicationBudgetTokens ← assertInteger
    (field plan "context_duplication_budget_tokens") "plan.context_duplication_budget_tokens" 0
    100000000
  let retryPolicy ← normalizeRetryPolicy (field plan "retry_policy")
  let leasePolicy ← normalizeLeasePolicy (field plan "lease_policy")
  return {
    projectRef, revision, supersedesPlanRef, title, desiredOutcome, acceptancePolicy
    taskIntentRef, executionPlanRef, contextPackRef
    branches := branches.insertionSort fun a b => a.branchRef ≤ b.branchRef
    integrationBranchRef, maxConcurrency, contextDuplicationBudgetTokens, retryPolicy
    leasePolicy, providerPolicy, permissionMode }

/-! ## Plans as raw values -/

def natJson (n : Nat) : Raw := .num n

def nullableJson {α : Type} (toJson : α → Raw) : Option α → Raw
  | none => .null
  | some a => toJson a

def refsJson (refs : List Ref) : Raw := .arr (refs.map .str)

def contentRefJson (r : ContentRef) : Raw := .obj [("id", .str r.id), ("hash", .str r.hash)]

def requirementJson (r : VerificationRequirement) : Raw :=
  .obj [("kind", Enumeration.toJson r.kind), ("verification_ref", contentRefJson r.verificationRef)]

def AcceptanceCriterion.toJson (c : AcceptanceCriterion) : Raw :=
  .obj [("criterion_id", .str c.criterionId), ("description", .str c.description),
    ("verification", Enumeration.toJson c.verification),
    ("verification_requirements", .arr (c.verificationRequirements.map requirementJson))]

def AcceptancePolicy.toJson (p : AcceptancePolicy) : Raw :=
  .obj [("criteria", .arr (p.criteria.map AcceptanceCriterion.toJson)),
    ("review_minimum", Enumeration.toJson p.reviewMinimum)]

def retryPolicyJson (r : RetryPolicy) : Raw :=
  .obj [("max_attempts", natJson r.maxAttempts), ("attempt_timeout_ms", natJson r.attemptTimeoutMs),
    ("max_elapsed_ms", natJson r.maxElapsedMs), ("backoff_initial_ms", natJson r.backoffInitialMs),
    ("backoff_max_ms", natJson r.backoffMaxMs),
    ("retryable_observations", .arr (r.retryableObservations.map Enumeration.toJson))]

def leasePolicyJson (l : LeasePolicy) : Raw :=
  .obj [("lease_duration_ms", natJson l.leaseDurationMs),
    ("heartbeat_interval_ms", natJson l.heartbeatIntervalMs),
    ("max_recovery_probes", natJson l.maxRecoveryProbes)]

def ProviderPolicy.toJson (p : ProviderPolicy) : Raw :=
  .obj [("allowed_provider_refs", refsJson p.allowedProviderRefs),
    ("selection", Enumeration.toJson p.selection)]

def WorkOrderBranch.toJson (b : WorkOrderBranch) : Raw :=
  .obj [("branch_ref", .str b.branchRef), ("task_intent_ref", contentRefJson b.taskIntentRef),
    ("execution_plan_ref", contentRefJson b.executionPlanRef),
    ("context_pack_ref", contentRefJson b.contextPackRef),
    ("dependencies", refsJson b.dependencies), ("role", Enumeration.toJson b.role),
    ("parallelizable", .bool b.parallelizable), ("isolation", Enumeration.toJson b.isolation),
    ("assignee_ref", .str b.assigneeRef), ("provider_ref", .str b.providerRef),
    ("permission_mode", Enumeration.toJson b.permissionMode)]

/-- The members of the content object after `version`. -/
def PlanContent.members (c : PlanContent) : List (String × Raw) :=
  [("project_ref", .str c.projectRef), ("revision", natJson c.revision),
    ("supersedes_plan_ref", nullableJson .str c.supersedesPlanRef), ("title", .str c.title),
    ("desired_outcome", .str c.desiredOutcome), ("acceptance_policy", c.acceptancePolicy.toJson),
    ("task_intent_ref", contentRefJson c.taskIntentRef),
    ("execution_plan_ref", contentRefJson c.executionPlanRef),
    ("context_pack_ref", contentRefJson c.contextPackRef),
    ("branches", .arr (c.branches.map WorkOrderBranch.toJson)),
    ("integration_branch_ref", nullableJson .str c.integrationBranchRef),
    ("max_concurrency", natJson c.maxConcurrency),
    ("context_duplication_budget_tokens", natJson c.contextDuplicationBudgetTokens),
    ("retry_policy", retryPolicyJson c.retryPolicy),
    ("lease_policy", leasePolicyJson c.leasePolicy), ("provider_policy", c.providerPolicy.toJson),
    ("permission_mode", Enumeration.toJson c.permissionMode)]

def PlanContent.toJson (c : PlanContent) : Raw := .obj (("version", .num 1) :: c.members)

/-- The plan object the normaliser returns. -/
def WorkOrderPlan.toJson (p : WorkOrderPlan) : Raw :=
  .obj (("version", .num 1) :: ("plan_snapshot_id", .str p.planSnapshotId) ::
    ("plan_hash", .str p.planHash) :: p.content.members)

/-! ## The normaliser -/

def canonicalHash (H : Sha256) (value : Raw) : Digest := H.digest (canonicalJson value)

/-- `BPS-${planHash.slice(0, 32)}` -/
def planSnapshotIdOf (planHash : Digest) : Ref := "BPS-" ++ String.ofList (planHash.toList.take 32)

/-- The snapshot of a content: the content, named by its hash. -/
def PlanContent.snapshot (H : Sha256) (c : PlanContent) : WorkOrderPlan :=
  let planHash := canonicalHash H c.toJson
  ⟨planSnapshotIdOf planHash, planHash, c⟩

/-- A name supplied with a plan has to be the name its content has. -/
def checkSupplied (name : String) (pattern : String → Bool) (description expected : String) :
    Check Unit :=
  match plan.lookup name with
  | none => .ok ()
  | some value => do
    let supplied ← assertPattern value ("plan." ++ name) pattern description
    ensure (supplied = expected)
      ⟨"plan." ++ name, .hashMismatch, "does not match canonical plan content"⟩

def normalizeBusinessWorkOrderPlanV1 (H : Sha256) (input : Raw) : Check WorkOrderPlan := do
  let _ ← preflightJson input "plan" maxPlanBytes
  let plan ← assertExactFields input PLAN_FIELDS PLAN_REQUIRED_FIELDS "plan"
  let content ← readContent plan
  let snapshot := content.snapshot H
  checkSupplied plan "plan_hash" isSha256 "a lowercase SHA-256 hash" snapshot.planHash
  checkSupplied plan "plan_snapshot_id" isPlanSnapshotId
    "a BPS- reference with 32 lowercase hexadecimal characters" snapshot.planSnapshotId
  return snapshot

end Orquesta.Contract
