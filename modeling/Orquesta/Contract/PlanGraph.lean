import Orquesta.Contract.Idempotence

/-!
# Plan graphs

The normaliser searches the dependency graph of a plan twice: depth first for a
cycle, and with a worklist for what the integration branch collects.  What the two
searches accept is said here without them.  The projector holds the part of a plan it
reads, and the rules the normaliser has checked for it.

## Main definitions

* `DependsOn`: one branch names another as a dependency
* `Schedulable`: the plan graphs that can be run to the end
* `WorkOrderPlan.toPlan`: what the projector reads of a plan

## Main results

* `schedulable_iff`: the two checks accept exactly these, and such a plan never gets stuck
* `valid_toPlan`: what the normaliser returns is valid for the projector
-/

namespace Orquesta.Contract

open Checked List Relation

variable {bs : List WorkOrderBranch}

/-- The branch `r` names `d` as a dependency. -/
def DependsOn (branches : List WorkOrderBranch) (r d : Ref) : Prop :=
  ∃ b ∈ branches, b.branchRef = r ∧ d ∈ b.dependencies

/-- Either there is no integration branch, or the one that is named collects every work branch and
nothing waits for it. -/
def Integrates (branches : List WorkOrderBranch) : Option Ref → Prop
  | none => ∀ b ∈ branches, b.role ≠ .integration
  | some r => ∃ i ∈ branches, i.branchRef = r ∧ (∀ b ∈ branches, b.role = .integration ↔ b = i) ∧
    (∀ b ∈ branches, r ∉ b.dependencies) ∧
    ∀ b ∈ branches, b.role = .work → TransGen (DependsOn branches) r b.branchRef

structure Schedulable (branches : List WorkOrderBranch) (integrationBranchRef : Option Ref) :
    Prop where
  closed : ∀ b ∈ branches, ∀ d ∈ b.dependencies, d ∈ branchRefs branches
  acyclic : ∀ r, ¬TransGen (DependsOn branches) r r
  integrates : Integrates branches integrationBranchRef

theorem edge_eq_dependsOn (hnd : (branchRefs bs).Nodup) :
    Digraph.Edge (dependenciesOf bs) = DependsOn bs := by
  funext r d
  refine propext ⟨fun h => ?_, ?_⟩
  · by_cases hr : r ∈ branchRefs bs
    · obtain ⟨b, hb, rfl⟩ := mem_map.mp hr
      rw [Digraph.Edge, dependenciesOf_mem hnd hb] at h
      exact ⟨b, hb, rfl, h⟩
    · rw [Digraph.Edge, dependenciesOf_of_not_mem hr] at h
      cases h
  · rintro ⟨b, hb, rfl, hd⟩
    rwa [Digraph.Edge, dependenciesOf_mem hnd hb]

theorem acyclic_iff (hnd : (branchRefs bs).Nodup) (hcl : Closed bs) :
    Acyclic bs ↔ ∀ r, ¬TransGen (DependsOn bs) r r := by
  rw [← edge_eq_dependsOn hnd]
  constructor
  · intro h r hcycle
    obtain ⟨d, hd, -⟩ := TransGen.head'_iff.mp hcycle
    rw [edge_eq_dependsOn hnd] at hd
    obtain ⟨b, hb, rfl, -⟩ := hd
    exact (h.2 _ (mem_map_of_mem hb)).not_transGen hcycle
  · have hedge : ∀ a d, Digraph.Edge (dependenciesOf bs) a d → a ∈ branchRefs bs ∧
        d ∈ branchRefs bs := by
      rw [edge_eq_dependsOn hnd]
      rintro _ d ⟨b, hb, rfl, hd⟩
      exact ⟨mem_map_of_mem hb, hcl b hb d hd⟩
    exact fun h => ⟨hcl, fun r _ => Digraph.grounded_of_acyclic hedge h r⟩

theorem collects_iff (hnd : (branchRefs bs).Nodup) {r d : Ref} :
    Collects bs r d ↔ TransGen (DependsOn bs) r d := by
  rw [TransGen.head'_iff, ← edge_eq_dependsOn hnd]
  rfl

theorem integrates_iff (hnd : (branchRefs bs).Nodup)
    (hacy : ∀ r, ¬TransGen (DependsOn bs) r r) {ref : Option Ref} :
    IntegrationOk bs ref ↔ Integrates bs ref := by
  cases ref with
  | none => rfl
  | some r =>
    simp only [IntegrationOk, Integrates, collects_iff hnd]
    constructor
    · rintro ⟨hone, hls, hcol⟩
      obtain ⟨i, hi, rfl⟩ := map_eq_singleton_iff.mp hone
      have hmem : ∀ b, b ∈ bs ∧ b.role = .integration ↔ b = i := by
        intro b
        rw [← mem_singleton (a := b), ← hi, mem_filter, decide_eq_true_eq]
      refine ⟨i, ((hmem i).mpr rfl).1, rfl, fun b hb => ⟨fun hrole => (hmem b).mp ⟨hb, hrole⟩, ?_⟩,
        fun b hb hdep => ?_, hcol⟩
      · rintro rfl
        exact ((hmem b).mpr rfl).2
      · -- the integration branch itself would wait for itself
        by_cases hself : b.branchRef = i.branchRef
        · exact hacy _ (.single ⟨b, hb, hself, hdep⟩)
        · exact hls b hb hself hdep
    · rintro ⟨i, hi, rfl, hrole, hls, hcol⟩
      refine ⟨map_eq_singleton_iff.mpr ⟨i, ?_, rfl⟩, fun b hb _ => hls b hb, hcol⟩
      have hpm : (bs.filter (·.role = .integration)).Perm [i] := by
        refine (perm_ext_iff_of_nodup (hnd.of_map.filter _) (nodup_singleton i)).mpr fun b => ?_
        rw [mem_filter, decide_eq_true_eq, mem_singleton]
        exact ⟨fun h => (hrole b h.1).mp h.2, by rintro rfl; exact ⟨hi, (hrole b hi).mpr rfl⟩⟩
      exact perm_singleton.mp hpm

/-- As long as a branch is left, one is left that waits for none of those. -/
theorem Acyclic.exists_ready (h : Acyclic bs) (hnd : (branchRefs bs).Nodup) (A : Set Ref)
    {b : WorkOrderBranch} (hb : b ∈ bs) (hl : b.branchRef ∉ A) :
    ∃ b ∈ bs, b.branchRef ∉ A ∧ ∀ d ∈ b.dependencies, d ∈ A := by
  generalize hr : b.branchRef = r at hl
  have hgrounded := h.2 r (hr ▸ mem_map_of_mem hb)
  induction hgrounded generalizing b with
  | intro r _ ih =>
    by_cases hrdy : ∀ d ∈ b.dependencies, d ∈ A
    · exact ⟨b, hb, hr ▸ hl, hrdy⟩
    · push Not at hrdy
      obtain ⟨d, hd, hdleft⟩ := hrdy
      obtain ⟨b', hb', hd'⟩ := mem_map.mp (h.1 b hb d hd)
      refine ih d ?_ hb' hd' hdleft
      rwa [Digraph.Edge, ← hr, dependenciesOf_mem hnd hb]

/-- **The plan graphs that are accepted** are those that can be run to the end: whatever set of
branches is done, an accepted plan has a branch that is ready next. -/
theorem schedulable_iff (hnd : (branchRefs branches).Nodup) (ref : Option Ref) :
    ((do assertAcyclic branches; validateIntegration branches ref) = .ok () ↔
      Schedulable branches ref) ∧
    ∀ (H : Sha256) (raw : Raw) (plan : WorkOrderPlan), normalizeBusinessWorkOrderPlanV1 H raw =
      .ok plan → ∀ A : Set Ref, (∃ b ∈ plan.content.branches, b.branchRef ∉ A) →
        ∃ b ∈ plan.content.branches, b.branchRef ∉ A ∧ ∀ d ∈ b.dependencies, d ∈ A := by
  constructor
  · simp only [chain_eq_ok, assertAcyclic_eq_ok hnd]
    constructor
    · rintro ⟨hac, hint⟩
      have hacyclic := (acyclic_iff hnd hac.1).mp hac
      exact ⟨hac.1, hacyclic,
        (integrates_iff hnd hacyclic).mp ((validateIntegration_eq_ok hnd hac.1).mp hint)⟩
    · rintro ⟨hclosed, hacyclic, hint⟩
      exact ⟨(acyclic_iff hnd hclosed).mpr hacyclic,
        (validateIntegration_eq_ok hnd hclosed).mpr ((integrates_iff hnd hacyclic).mpr hint)⟩
  · rintro H raw plan hplan A ⟨b, hb, hleft⟩
    obtain ⟨-, ms, c, hreads, rfl⟩ := normalizeBusinessWorkOrderPlanV1_eq_ok.mp hplan
    have hrules : PlanRules c c.branches := hreads.content.branches.ok fun _ _ => PlanRules.perm
    exact hrules.acyclic.exists_ready hrules.refs A hb hleft

/-- A work branch, and the integration branch that waits for it. -/
def workThenIntegration : List WorkOrderBranch :=
  [⟨"work", ⟨"1", ""⟩, ⟨"2", ""⟩, ⟨"3", ""⟩, [], .work, false, .worktree, "a", "p", .readOnly⟩,
    ⟨"join", ⟨"4", ""⟩, ⟨"5", ""⟩, ⟨"6", ""⟩, ["work"], .integration, false, .worktree, "a", "p",
      .readOnly⟩]

theorem schedulable_workThenIntegration : (branchRefs workThenIntegration).Nodup ∧
    Schedulable workThenIntegration (some "join") :=
  ⟨by decide, (schedulable_iff (by decide) _).1.mp rfl⟩

/-! ## What the projector reads -/

def WorkOrderBranch.toPlanBranch (b : WorkOrderBranch) : PlanBranch :=
  ⟨b.branchRef, b.dependencies, b.role, b.assigneeRef, b.providerRef⟩

def WorkOrderPlan.toPlan (plan : WorkOrderPlan) : Plan where
  planSnapshotId := plan.planSnapshotId
  planHash := plan.planHash
  criteria := plan.content.acceptancePolicy.criteria.map fun c =>
    ⟨c.criterionId, c.verificationRequirements⟩
  reviewMinimum := plan.content.acceptancePolicy.reviewMinimum
  branches := plan.content.branches.map WorkOrderBranch.toPlanBranch
  integrationBranchRef := plan.content.integrationBranchRef
  maxConcurrency := plan.content.maxConcurrency
  contextDuplicationBudgetTokens := plan.content.contextDuplicationBudgetTokens
  retryPolicy := plan.content.retryPolicy
  leasePolicy := plan.content.leasePolicy
  allowedProviderRefs := plan.content.providerPolicy.allowedProviderRefs

section toPlan

variable {plan : WorkOrderPlan} {raw : Raw}

theorem branches_toPlan :
    plan.toPlan.branches = plan.content.branches.map WorkOrderBranch.toPlanBranch := rfl

theorem branchRefs_toPlan : plan.toPlan.branchRefs = branchRefs plan.content.branches :=
  map_map ..

theorem dependenciesOf_toPlan :
    plan.toPlan.dependenciesOf = dependenciesOf plan.content.branches := by
  funext r
  simp only [Plan.dependenciesOf, dependenciesOf, branches_toPlan, find?_map, Option.map_map]
  rfl

theorem reachableFrom_toPlan (r : Ref) :
    plan.toPlan.reachableFrom r = reachableFrom plan.content.branches r := by
  rw [Plan.reachableFrom, dependenciesOf_toPlan, branchRefs_toPlan, reachableFrom]

theorem filter_role_toPlan (role : BranchRole) : plan.toPlan.branches.filter (·.role = role) =
    (plan.content.branches.filter (·.role = role)).map WorkOrderBranch.toPlanBranch := by
  rw [branches_toPlan, filter_map]
  rfl

theorem valid_retryPolicy {r : RetryPolicy} (h : ReadsRetryPolicy raw r) : r.Valid := by
  obtain ⟨_, -, ⟨-, ha⟩, ⟨-, ht⟩, ⟨-, he⟩, ⟨-, hi⟩, ⟨-, hm⟩, ⟨_, -, -, -, hobservations⟩,
    hte, him⟩ := h
  exact ⟨ha, ht, he, hi.2, hm.2, hte, him, hobservations⟩

theorem valid_leasePolicy {l : LeasePolicy} (h : ReadsLeasePolicy raw l) : l.Valid := by
  obtain ⟨_, -, ⟨-, hd⟩, ⟨-, hb⟩, ⟨-, hp⟩, hlt⟩ := h
  exact ⟨hd, hb, hp, hlt⟩

theorem valid_criterion {c : AcceptanceCriterion} (h : ReadsCriterion raw c) :
    Criterion.Valid ⟨c.criterionId, c.verificationRequirements⟩ := by
  obtain ⟨_, -, -, -, -, hrequirements⟩ := h
  exact ⟨length_pos_iff.mp hrequirements.length.1, hrequirements.length.2,
    (hrequirements.ok fun _ _ => RequirementsOk.perm).1⟩

theorem valid_branch {b : WorkOrderBranch} (h : ReadsBranch raw b) : b.toPlanBranch.Valid := by
  obtain ⟨_, -, -, -, -, -, hdependencies, -, -, -, -, -, -, hok⟩ := h
  exact ⟨hdependencies.ok fun _ _ hp => hp.nodup_iff.mp, hok.notSelf⟩

theorem PlanRules.acyclic_toPlan (h : PlanRules plan.content plan.content.branches) :
    plan.toPlan.Acyclic := by
  have hchecked : assertAcyclic plan.content.branches = .ok () :=
    (assertAcyclic_eq_ok h.refs).mpr h.acyclic
  simp only [assertAcyclic, chain_eq_ok, checkAll_eq_ok] at hchecked
  rwa [Plan.Acyclic, branchRefs_toPlan, dependenciesOf_toPlan, branches_toPlan, length_map,
    forall_mem_map]

theorem PlanRules.integration_toPlan (h : PlanRules plan.content plan.content.branches) :
    plan.toPlan.IntegrationValid plan.toPlan.integrationBranchRef := by
  have hchecked : validateIntegration plan.content.branches plan.content.integrationBranchRef =
      .ok () :=
    (validateIntegration_eq_ok h.refs h.acyclic.1).mpr h.integration
  rw [show plan.toPlan.integrationBranchRef = plan.content.integrationBranchRef from rfl]
  cases hr : plan.content.integrationBranchRef with
  | none =>
    simp only [hr, validateIntegration, ensure_eq_ok] at hchecked
    rw [Plan.IntegrationValid, Plan.integrationBranches, filter_role_toPlan, hchecked, map_nil]
  | some r =>
    simp only [hr, validateIntegration, chain_eq_ok, checkAll_eq_ok] at hchecked
    obtain ⟨hone, hlast, hmissing⟩ := hchecked
    rw [Plan.IntegrationValid, Plan.integrationBranches, Plan.workBranches, filter_role_toPlan,
      filter_role_toPlan, branches_toPlan, forall_mem_map, forall_mem_map, List.map_map]
    refine ⟨hone, hlast, fun b hb => ?_⟩
    rw [reachableFrom_toPlan]
    simp only [map_eq_nil_iff, filter_eq_nil_iff, decide_eq_true_eq, not_and, not_not] at hmissing
    obtain ⟨hb, hwork⟩ := mem_filter.mp hb
    exact hmissing b hb (of_decide_eq_true hwork)

/-- **What the normaliser returns is valid for the projector.** -/
theorem valid_toPlan {H : Sha256} (h : normalizeBusinessWorkOrderPlanV1 H raw = .ok plan) :
    plan.toPlan.Valid := by
  obtain ⟨-, ms, c, hreads, rfl⟩ := normalizeBusinessWorkOrderPlanV1_eq_ok.mp h
  have hcontent := hreads.content
  have hrules : PlanRules c c.branches := hcontent.branches.ok fun _ _ => PlanRules.perm
  obtain ⟨_, -, hproviders, -⟩ := hcontent.providerPolicy
  obtain ⟨_, -, hcriteria, -⟩ := hcontent.acceptancePolicy
  exact {
    retryPolicy := valid_retryPolicy hcontent.retryPolicy
    leasePolicy := valid_leasePolicy hcontent.leasePolicy
    providers := ⟨length_pos_iff.mp hproviders.length.1, hproviders.ok fun _ _ hp =>
      hp.nodup_iff.mp⟩
    criteria := by
      simp only [Plan.criterionIds, WorkOrderPlan.toPlan, length_map, List.map_map, forall_mem_map,
        ne_eq, map_eq_nil_iff]
      refine ⟨length_pos_iff.mp hcriteria.length.1, hcriteria.length.2,
        hcriteria.ok fun _ _ hp => (hp.map _).nodup_iff.mp, fun c hc => ?_⟩
      obtain ⟨_, hc⟩ := hcriteria.forall hc
      exact valid_criterion hc
    branches := by
      simp only [branchRefs_toPlan, branches_toPlan, length_map, forall_mem_map, ne_eq,
        map_eq_nil_iff]
      refine ⟨length_pos_iff.mp hcontent.branches.length.1, hcontent.branches.length.2, hrules.refs,
        fun b hb => ?_⟩
      obtain ⟨_, hb⟩ := hcontent.branches.forall hb
      exact valid_branch hb
    acyclic := hrules.acyclic_toPlan
    integration := hrules.integration_toPlan
    providerPolicy := forall_mem_map.mpr hrules.providers
    integrationRequired := by
      rw [Plan.workBranches, filter_role_toPlan, length_map]
      exact hrules.integrationRequired
    concurrency := by
      rw [Plan.workBranches, filter_role_toPlan, length_map]
      exact ⟨hcontent.maxConcurrency.2.1, hrules.concurrency⟩
    contextBudget := hcontent.contextBudget.2.2 }

end toPlan

end Orquesta.Contract
