import Orquesta.Library.Digraph

/-!
# The immutable Work Order plan

A Work Order executes one plan snapshot: a dependency graph of branches, the
acceptance policy their results are measured by, and the retry, lease and
provider policies that bound every attempt.

The projector reads only a part of a snapshot: free text, content references that
only the packet compiler reads, isolation and permission modes are left out here.
`Plan.Valid` are the rules of the normaliser for that part; every snapshot the
normaliser returns satisfies them (`Contract.valid_toPlan`).  What a Work Order
holds is a `NormalizedPlan`, a plan together with the proof of those rules, so no
later definition can hold an inadmissible one.

## Main definitions

* `Plan`, `Plan.Valid`, `NormalizedPlan`
* `Plan.normalized?`: the plan, if it is one
* `Plan.finalBranchRef`: the branch whose result is reviewed and accepted
-/

namespace Orquesta

/-- A portable reference: an identifier the callers supply or the engine derives. -/
abbrev Ref := String

/-- A lowercase SHA-256 digest. -/
abbrev Digest := String

/-- A canonical UTC timestamp, in milliseconds. -/
abbrev Time := Int

/-- A reference to content by identifier and digest. -/
structure ContentRef where
  id : Ref
  hash : Digest
deriving DecidableEq

inductive VerificationKind
  | deterministic | human
deriving DecidableEq

structure VerificationRequirement where
  kind : VerificationKind
  verificationRef : ContentRef
deriving DecidableEq

structure Criterion where
  criterionId : Ref
  verificationRequirements : List VerificationRequirement
deriving DecidableEq

inductive ReviewMinimum
  | light | normal | strict
deriving DecidableEq

/-- `REVIEW_COUNTS`: the number of independent clean reviews each level asks for. -/
def ReviewMinimum.count : ReviewMinimum → Nat
  | .light => 0
  | .normal => 1
  | .strict => 2

/-- The only runtime observation a plan may declare automatically retryable. -/
inductive RetryableObservation
  | dispatchNotSent
deriving DecidableEq

structure RetryPolicy where
  (maxAttempts attemptTimeoutMs maxElapsedMs backoffInitialMs backoffMaxMs : Nat)
  retryableObservations : List RetryableObservation
deriving DecidableEq

structure LeasePolicy where
  (leaseDurationMs heartbeatIntervalMs maxRecoveryProbes : Nat)
deriving DecidableEq

inductive BranchRole
  | work | integration
deriving DecidableEq

structure PlanBranch where
  branchRef : Ref
  dependencies : List Ref
  role : BranchRole
  (assigneeRef providerRef : Ref)
deriving DecidableEq

structure Plan where
  planSnapshotId : Ref
  planHash : Digest
  criteria : List Criterion
  reviewMinimum : ReviewMinimum
  branches : List PlanBranch
  integrationBranchRef : Option Ref
  (maxConcurrency contextDuplicationBudgetTokens : Nat)
  retryPolicy : RetryPolicy
  leasePolicy : LeasePolicy
  allowedProviderRefs : List Ref
deriving DecidableEq

/-- `normalizeRetryPolicy`: the admitted ranges and the two consistency rules. -/
def RetryPolicy.Valid (r : RetryPolicy) : Prop :=
  (1 ≤ r.maxAttempts ∧ r.maxAttempts ≤ 5) ∧
    (1000 ≤ r.attemptTimeoutMs ∧ r.attemptTimeoutMs ≤ 86400000) ∧
    (1000 ≤ r.maxElapsedMs ∧ r.maxElapsedMs ≤ 604800000) ∧
    r.backoffInitialMs ≤ 3600000 ∧ r.backoffMaxMs ≤ 86400000 ∧
    r.attemptTimeoutMs ≤ r.maxElapsedMs ∧ r.backoffInitialMs ≤ r.backoffMaxMs ∧
    r.retryableObservations.Nodup
deriving Decidable

/-- `normalizeLeasePolicy`. -/
def LeasePolicy.Valid (l : LeasePolicy) : Prop :=
  (5000 ≤ l.leaseDurationMs ∧ l.leaseDurationMs ≤ 3600000) ∧
    (1000 ≤ l.heartbeatIntervalMs ∧ l.heartbeatIntervalMs ≤ 600000) ∧
    (1 ≤ l.maxRecoveryProbes ∧ l.maxRecoveryProbes ≤ 20) ∧
    l.heartbeatIntervalMs < l.leaseDurationMs
deriving Decidable

/-- `normalizeVerificationRequirements`, for the fields kept here. -/
def Criterion.Valid (c : Criterion) : Prop :=
  c.verificationRequirements ≠ [] ∧ c.verificationRequirements.length ≤ 16 ∧
    (c.verificationRequirements.map (·.verificationRef.id)).Nodup
deriving Decidable

/-- `normalizeBranch`, for the fields kept here. -/
def PlanBranch.Valid (b : PlanBranch) : Prop := b.dependencies.Nodup ∧ b.branchRef ∉ b.dependencies
deriving Decidable

namespace Plan

variable (p : Plan)

def branchRefs : List Ref := p.branches.map PlanBranch.branchRef

def criterionIds : List Ref := p.criteria.map Criterion.criterionId

def workBranches : List PlanBranch := p.branches.filter (·.role = .work)

def integrationBranches : List PlanBranch := p.branches.filter (·.role = .integration)

/-- The branch whose result is the result of the Work Order: the integration branch, or the
first (and then only) branch. -/
def finalBranchRef : Option Ref :=
  p.integrationBranchRef <|> p.branches.head?.map PlanBranch.branchRef

def dependenciesOf (ref : Ref) : List Ref :=
  ((p.branches.find? (·.branchRef = ref)).map PlanBranch.dependencies).getD []

/-- `assertAcyclic`: every dependency is a branch and the graph has no cycle. -/
def Acyclic : Prop :=
  (∀ b ∈ p.branches, ∀ d ∈ b.dependencies, d ∈ p.branchRefs) ∧
    (Digraph.visitAll p.dependenciesOf (p.branches.length + 1) p.branchRefs).isOk
deriving Decidable

/-- What a branch transitively collects. -/
def reachableFrom (ref : Ref) : List Ref :=
  let stack := (p.dependenciesOf ref).reverse
  Digraph.collect p.dependenciesOf
    (stack.length + Digraph.edgesLeft p.dependenciesOf p.branchRefs []) stack []

/-- `validateIntegration`: the integration branch is the declared one, nothing depends on it,
and it transitively collects every work branch. -/
def IntegrationValid : Option Ref → Prop
  | none => p.integrationBranches = []
  | some r =>
    p.integrationBranches.map PlanBranch.branchRef = [r] ∧
      (∀ b ∈ p.branches, b.branchRef ≠ r → r ∉ b.dependencies) ∧
      ∀ w ∈ p.workBranches, w.branchRef ∈ p.reachableFrom r

instance : (r : Option Ref) → Decidable (p.IntegrationValid r)
  | none => inferInstanceAs (Decidable (_ = _))
  | some _ => inferInstanceAs (Decidable (_ ∧ _))

/-- The rules of `normalizeBusinessWorkOrderPlanV1` for the fields kept here. -/
@[mk_iff]
structure Valid : Prop where
  retryPolicy : p.retryPolicy.Valid
  leasePolicy : p.leasePolicy.Valid
  providers : p.allowedProviderRefs ≠ [] ∧ p.allowedProviderRefs.Nodup
  criteria : p.criteria ≠ [] ∧ p.criteria.length ≤ 64 ∧ p.criterionIds.Nodup ∧
    ∀ c ∈ p.criteria, c.Valid
  branches : p.branches ≠ [] ∧ p.branches.length ≤ 64 ∧ p.branchRefs.Nodup ∧
    ∀ b ∈ p.branches, b.Valid
  acyclic : p.Acyclic
  integration : p.IntegrationValid p.integrationBranchRef
  providerPolicy : ∀ b ∈ p.branches, b.providerRef ∈ p.allowedProviderRefs
  integrationRequired : 1 < p.workBranches.length → p.integrationBranchRef ≠ none
  concurrency : 1 ≤ p.maxConcurrency ∧ p.maxConcurrency ≤ p.workBranches.length
  contextBudget : p.contextDuplicationBudgetTokens ≤ 100000000

instance : Decidable p.Valid := decidable_of_iff' _ (valid_iff p)

end Plan

/-- A plan that has passed the normaliser. -/
abbrev NormalizedPlan := { p : Plan // p.Valid }

/-- The plan, if every rule holds. -/
def Plan.normalized? (p : Plan) : Option NormalizedPlan :=
  if h : p.Valid then some ⟨p, h⟩ else none

end Orquesta
