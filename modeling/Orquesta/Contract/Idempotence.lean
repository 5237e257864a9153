import Orquesta.Contract.Readings

/-!
# Normalising a plan twice

A plan snapshot is read again wherever a Work Order goes on, so the normaliser has to
take its own result back.  The cross-field rules are order free: a dependency graph
is acyclic, and covered by its integration branch, however its branches are listed.
Every field of a snapshot reads as itself (`Contract.Readings`).  What can fail is
the preflight: the snapshot carries its identifier and its hash, which the plan it
was made from may lack, and the limits on values and bytes are checked on the whole
object each time.

## Main definitions

* `PlanRules`: the cross-field rules
* `ReadsContent`: the raw plans that read as a content
* `RoomForName`: the plan leaves room for the fields the snapshot adds

## Main results

* `normalizeBusinessWorkOrderPlanV1_eq_ok`: what the normaliser accepts
* `normalize_again_iff`: a snapshot is accepted again, unchanged, exactly when there is room
-/

namespace Orquesta.Contract

open Checked CONTRACT_LIMITS List Reading Function Json

/-! ## The dependency graph -/

section Graph

variable {bs bs' : List WorkOrderBranch}

theorem dependenciesOf_of_not_mem {r : Ref} (h : r ∉ branchRefs bs) : dependenciesOf bs r = [] := by
  have hfi : bs.find? (·.branchRef = r) = none := by
    rw [find?_eq_none]
    intro b hb hr
    exact h (decide_eq_true_eq.mp hr ▸ mem_map_of_mem hb)
  rw [dependenciesOf, hfi]
  rfl

variable (hnd : (branchRefs bs).Nodup)
include hnd

theorem dependenciesOf_mem {b : WorkOrderBranch} (hb : b ∈ bs) :
    dependenciesOf bs b.branchRef = b.dependencies := by
  have hfi : bs.find? (·.branchRef = b.branchRef) = some b := by
    induction bs with
    | nil => cases hb
    | cons c cs ih =>
      rw [branchRefs, map_cons, nodup_cons] at hnd
      rcases mem_cons.mp hb with rfl | hb
      · simp
      · have hne : c.branchRef ≠ b.branchRef := fun h => hnd.1 (h ▸ mem_map_of_mem hb)
        rw [find?_cons_of_neg (by simpa using hne)]
        exact ih hnd.2 hb
  rw [dependenciesOf, hfi]
  rfl

/-- The graph does not depend on the order in which branches are listed. -/
theorem dependenciesOf_perm (hp : bs.Perm bs') : dependenciesOf bs = dependenciesOf bs' := by
  have hrf : (branchRefs bs).Perm (branchRefs bs') := hp.map _
  funext r
  by_cases hr : r ∈ branchRefs bs
  · obtain ⟨b, hb, rfl⟩ := mem_map.mp hr
    rw [dependenciesOf_mem hnd hb, dependenciesOf_mem (hrf.nodup_iff.mp hnd) (hp.subset hb)]
  · rw [dependenciesOf_of_not_mem hr, dependenciesOf_of_not_mem fun h => hr (hrf.mem_iff.mpr h)]

variable (branches : List WorkOrderBranch)

/-- Every dependency names a branch. -/
def Closed : Prop := ∀ b ∈ branches, ∀ d ∈ b.dependencies, d ∈ branchRefs branches

theorem Closed.dependenciesOf (h : Closed bs) :
    ∀ r ∈ branchRefs bs, dependenciesOf bs r ⊆ branchRefs bs := by
  intro r hr
  obtain ⟨b, hb, rfl⟩ := mem_map.mp hr
  rw [dependenciesOf_mem hnd hb]
  exact h b hb

/-- No branch waits for itself, directly or through others. -/
def Acyclic : Prop :=
  Closed branches ∧
    ∀ r ∈ branchRefs branches, Digraph.Grounded (dependenciesOf branches) r

theorem assertAcyclic_eq_ok {u : Unit} : assertAcyclic bs = .ok u ↔ Acyclic bs := by
  simp only [assertAcyclic, chain_eq_ok, checkAll_eq_ok]
  refine and_congr_right fun hcl => ?_
  have hlen : bs.length = (branchRefs bs).length := by simp [branchRefs]
  rw [hlen]
  exact Digraph.visitAll_isOk_iff (Closed.dependenciesOf hnd hcl)

theorem Acyclic.perm (hp : bs.Perm bs') (h : Acyclic bs) : Acyclic bs' := by
  have hrf : ∀ r, r ∈ branchRefs bs ↔ r ∈ branchRefs bs' :=
    fun r => (hp.map WorkOrderBranch.branchRef).mem_iff
  refine ⟨fun b hb d hd => (hrf d).mp (h.1 b (hp.symm.subset hb) d hd), fun r hr => ?_⟩
  rw [← dependenciesOf_perm hnd hp]
  exact h.2 r ((hrf r).mpr hr)

/-- `b` is collected by `r`: it is a dependency of `r`, or of something `r` collects. -/
def Collects (r b : Ref) : Prop :=
  ∃ d ∈ dependenciesOf branches r,
    Relation.ReflTransGen (Digraph.Edge (dependenciesOf branches)) d b

theorem mem_reachableFrom (hcl : Closed bs) {r b : Ref} (hr : r ∈ branchRefs bs) :
    b ∈ reachableFrom bs r ↔ Collects bs r b := by
  rw [reachableFrom, Digraph.mem_collect_iff hnd (hcl.dependenciesOf hnd)
    (fun d hd => hcl.dependenciesOf hnd r hr (mem_reverse.mp hd)) (Nat.le_refl _)]
  simp [Collects]

/-- The integration branch is the declared one, nothing waits for it, and it collects every work
branch. -/
def IntegrationOk : Option Ref → Prop
  | none => ∀ b ∈ branches, b.role ≠ .integration
  | some r =>
    (branches.filter (·.role = .integration)).map WorkOrderBranch.branchRef = [r] ∧
      (∀ b ∈ branches, b.branchRef ≠ r → r ∉ b.dependencies) ∧
      ∀ b ∈ branches, b.role = .work → Collects branches r b.branchRef

theorem validateIntegration_eq_ok (hcl : Closed bs) {ref : Option Ref} {u : Unit} :
    validateIntegration bs ref = .ok u ↔ IntegrationOk bs ref := by
  cases ref with
  | none => simp [validateIntegration, IntegrationOk]
  | some r =>
    simp only [validateIntegration, chain_eq_ok, checkAll_eq_ok, IntegrationOk]
    refine and_congr_right fun hint => and_congr_right fun _ => ?_
    have hr : r ∈ branchRefs bs := by
      have hmem : r ∈ (bs.filter (·.role = .integration)).map WorkOrderBranch.branchRef :=
        hint ▸ mem_singleton_self r
      obtain ⟨b, hb, rfl⟩ := mem_map.mp hmem
      exact mem_map_of_mem (mem_filter.mp hb).1
    simp only [map_eq_nil_iff, filter_eq_nil_iff, decide_eq_true_eq, not_and, not_not,
      mem_reachableFrom hnd hcl hr]

theorem IntegrationOk.perm (hp : bs.Perm bs') {ref : Option Ref} (h : IntegrationOk bs ref) :
    IntegrationOk bs' ref := by
  cases ref with
  | none => exact fun b hb => h b (hp.symm.subset hb)
  | some r =>
    obtain ⟨h₁, h₂, h₃⟩ := h
    refine ⟨?_, fun b hb => h₂ b (hp.symm.subset hb), fun b hb hrole => ?_⟩
    · have hpm := ((hp.filter (·.role = .integration)).map WorkOrderBranch.branchRef).symm
      rw [h₁] at hpm
      exact perm_singleton.mp hpm
    · rw [Collects, ← dependenciesOf_perm hnd hp]
      exact h₃ b (hp.symm.subset hb) hrole

end Graph

/-! ## The rules of a plan -/

theorem firstRepeated_eq_none (seen ids : List Ref) :
    firstRepeated seen ids = none ↔ ids.Nodup ∧ ∀ id ∈ ids, id ∉ seen := by
  induction ids generalizing seen with
  | nil => simp [firstRepeated]
  | cons id ids ih =>
    rw [firstRepeated]
    split
    case isTrue h => simp [h]
    case isFalse h =>
      rw [ih, nodup_cons, forall_mem_cons]
      constructor
      · rintro ⟨hnd, hse⟩
        exact ⟨⟨fun hmem => hse id hmem mem_cons_self, hnd⟩, h,
          fun x hx hs => hse x hx (mem_cons_of_mem _ hs)⟩
      · rintro ⟨⟨hid, hnd⟩, -, hse⟩
        refine ⟨hnd, fun x hx hs => ?_⟩
        rcases mem_cons.mp hs with rfl | hs
        · exact hid hx
        · exact hse x hx hs

/-- The rules `normalizeBusinessWorkOrderPlanV1` checks across the branches of a plan. -/
structure PlanRules (c : PlanContent) (branches : List WorkOrderBranch) : Prop where
  refs : (branchRefs branches).Nodup
  taskIntents : ((branches.map WorkOrderBranch.taskIntentRef).map ContentRef.id).Nodup
  executionPlans : ((branches.map WorkOrderBranch.executionPlanRef).map ContentRef.id).Nodup
  contextPacks : ((branches.map WorkOrderBranch.contextPackRef).map ContentRef.id).Nodup
  contentRefs : ((planContentRefs [c.taskIntentRef, c.executionPlanRef, c.contextPackRef] branches
    c.acceptancePolicy).map ContentRef.id).Nodup
  acyclic : Acyclic branches
  integration : IntegrationOk branches c.integrationBranchRef
  providers : ∀ b ∈ branches, b.providerRef ∈ c.providerPolicy.allowedProviderRefs
  permissions : ∀ b ∈ branches, b.permissionMode.rank ≤ c.permissionMode.rank
  work : workBranchCount branches ≠ 0
  integrationRequired : 1 < workBranchCount branches → c.integrationBranchRef ≠ none
  concurrency : c.maxConcurrency ≤ workBranchCount branches

variable {c : PlanContent} {bs : List WorkOrderBranch}

theorem PlanRules.perm {bs' : List WorkOrderBranch}
    (hp : bs.Perm bs') (h : PlanRules c bs) : PlanRules c bs' := by
  have hwork : workBranchCount bs = workBranchCount bs' := (hp.filter _).length_eq
  exact {
    refs := (hp.map _).nodup_iff.mp h.refs
    taskIntents := ((hp.map _).map _).nodup_iff.mp h.taskIntents
    executionPlans := ((hp.map _).map _).nodup_iff.mp h.executionPlans
    contextPacks := ((hp.map _).map _).nodup_iff.mp h.contextPacks
    contentRefs := by
      refine (Perm.map ContentRef.id ?_).nodup_iff.mp h.contentRefs
      exact ((hp.flatMap_right _).append_left _).append_right _
    acyclic := h.acyclic.perm h.refs hp
    integration := h.integration.perm h.refs hp
    providers := fun b hb => h.providers b (hp.symm.subset hb)
    permissions := fun b hb => h.permissions b (hp.symm.subset hb)
    work := hwork ▸ h.work
    integrationRequired := hwork ▸ h.integrationRequired
    concurrency := hwork ▸ h.concurrency }

/-! ## Reading a whole plan -/

abbrev ReadsBranches (c : PlanContent) : Raw → List WorkOrderBranch → Prop :=
  ReadsSorted 1 maxBranches ReadsBranch (PlanRules c) (fun a b => a.branchRef ≤ b.branchRef)

/-- The members of a raw plan read as the content `c`. -/
structure ReadsContent (ms : List (String × Raw)) (c : PlanContent) : Prop where
  version : isPlanVersion (field ms "version")
  projectRef : ReadsRef (field ms "project_ref") c.projectRef
  revision : ReadsNat 1 1000000 (field ms "revision") c.revision
  supersedes : ReadsNullable (ReadsPattern isPlanSnapshotId) (field ms "supersedes_plan_ref")
    c.supersedesPlanRef
  firstRevision : c.revision = 1 → c.supersedesPlanRef = none
  laterRevision : 1 < c.revision → c.supersedesPlanRef ≠ none
  title : ReadsString 1024 (field ms "title") c.title
  desiredOutcome : ReadsString 8192 (field ms "desired_outcome") c.desiredOutcome
  acceptancePolicy : ReadsAcceptancePolicy (field ms "acceptance_policy") c.acceptancePolicy
  taskIntentRef : ReadsContentRef (field ms "task_intent_ref") c.taskIntentRef
  executionPlanRef : ReadsContentRef (field ms "execution_plan_ref") c.executionPlanRef
  contextPackRef : ReadsContentRef (field ms "context_pack_ref") c.contextPackRef
  branches : ReadsBranches c (field ms "branches") c.branches
  integrationBranchRef : ReadsNullable ReadsRef (field ms "integration_branch_ref")
    c.integrationBranchRef
  maxConcurrency : ReadsNat 1 maxBranches (field ms "max_concurrency") c.maxConcurrency
  contextBudget : ReadsNat 0 100000000 (field ms "context_duplication_budget_tokens")
    c.contextDuplicationBudgetTokens
  retryPolicy : ReadsRetryPolicy (field ms "retry_policy") c.retryPolicy
  leasePolicy : ReadsLeasePolicy (field ms "lease_policy") c.leasePolicy
  providerPolicy : ReadsProviderPolicy (field ms "provider_policy") c.providerPolicy
  permissionMode : ReadsEnum (field ms "permission_mode") c.permissionMode

variable {ms : List (String × Raw)}

theorem normalizeRevision_eq_ok {r : Nat × Option Ref} : normalizeRevision ms = .ok r ↔
      ReadsNat 1 1000000 (field ms "revision") r.1 ∧
        ReadsNullable (ReadsPattern isPlanSnapshotId) (field ms "supersedes_plan_ref") r.2 ∧
        (r.1 = 1 → r.2 = none) ∧ (1 < r.1 → r.2 ≠ none) := by
  simp only [normalizeRevision, bind_eq_ok, assertInteger_eq_ok, ensure_eq_ok, unit_exists,
    pure_eq_ok, assertNullable_eq_ok (R := ReadsPattern isPlanSnapshotId)
      (fun _ _ => assertPattern_eq_ok) (by simp [ReadsPattern])]
  constructor
  · rintro ⟨n, hn, o, ho, h₁, h₂, rfl⟩
    exact ⟨hn, ho, h₁, h₂⟩
  · rintro ⟨hn, ho, h₁, h₂⟩
    exact ⟨_, hn, _, ho, h₁, h₂, rfl⟩

variable {u : Unit}

theorem assertPlanContentRefIdsUnique_eq_ok {roots : List ContentRef} {policy : AcceptancePolicy} :
    assertPlanContentRefIdsUnique roots bs policy = .ok u ↔
      ((planContentRefs roots bs policy).map ContentRef.id).Nodup := by
  rw [assertPlanContentRefIdsUnique]
  have h := firstRepeated_eq_none [] ((planContentRefs roots bs policy).map ContentRef.id)
  split
  case h_1 hno => simpa using h.mp hno
  case h_2 hsm =>
    simp only [invalid_eq_ok, false_iff]
    intro hnd
    rw [h.mpr ⟨hnd, by simp⟩] at hsm
    cases hsm

variable {raw : Raw} {n : Nat}

theorem normalizeConcurrency_eq_ok {ref : Option Ref} : normalizeConcurrency raw bs ref = .ok n ↔
      workBranchCount bs ≠ 0 ∧ (1 < workBranchCount bs → ref ≠ none) ∧
        ReadsNat 1 maxBranches raw n ∧ n ≤ workBranchCount bs := by
  simp only [normalizeConcurrency, chain_eq_ok, assertInteger_eq_ok]
  constructor
  · rintro ⟨h₁, h₂, m, hm, hle, rfl⟩
    exact ⟨h₁, h₂, hm, hle⟩
  · rintro ⟨h₁, h₂, hm, hle⟩
    exact ⟨h₁, h₂, n, hm, hle, rfl⟩

theorem readBranches_eq_ok {roots : List ContentRef} {policy : AcceptancePolicy} :
    readBranches raw roots policy = .ok bs ↔
      (∃ xs, raw = .arr xs ∧ (1 ≤ xs.length ∧ xs.length ≤ maxBranches) ∧
        Forall₂ ReadsBranch xs bs) ∧
      (branchRefs bs).Nodup ∧
      ((bs.map WorkOrderBranch.taskIntentRef).map ContentRef.id).Nodup ∧
      ((bs.map WorkOrderBranch.executionPlanRef).map ContentRef.id).Nodup ∧
      ((bs.map WorkOrderBranch.contextPackRef).map ContentRef.id).Nodup ∧
      ((planContentRefs roots bs policy).map ContentRef.id).Nodup ∧ Acyclic bs := by
  simp only [readBranches, chain_eq_ok, assertArray_eq_ok, assertUniqueField,
    assertUniqueContentRefId, assertPlanContentRefIdsUnique_eq_ok,
    readEach_eq_ok (R := ReadsBranch) fun _ _ _ => normalizeBranch_eq_ok]
  constructor
  · rintro ⟨xs, ⟨hxs, hlen⟩, us, hrd, hnd, ht, he, hc, hrf, hac, rfl⟩
    exact ⟨⟨xs, hxs, hlen, hrd⟩, hnd, ht, he, hc, hrf, (assertAcyclic_eq_ok hnd).mp hac⟩
  · rintro ⟨⟨xs, hxs, hlen, hrd⟩, hnd, ht, he, hc, hrf, hac⟩
    exact ⟨xs, ⟨hxs, hlen⟩, bs, hrd, hnd, ht, he, hc, hrf, (assertAcyclic_eq_ok hnd).mpr hac, rfl⟩

theorem checkBranchCeilings_eq_ok {p : ProviderPolicy} {m : PermissionMode} :
    checkBranchCeilings bs p m = .ok u ↔ (∀ b ∈ bs, b.providerRef ∈ p.allowedProviderRefs) ∧
        ∀ b ∈ bs, b.permissionMode.rank ≤ m.rank := by
  simp only [checkBranchCeilings, checkAll_eq_ok, chain_eq_ok]
  exact ⟨fun h => ⟨fun b hb => (h b hb).1, fun b hb => (h b hb).2⟩,
    fun h b hb => ⟨h.1 b hb, h.2 b hb⟩⟩

theorem readContent_eq_ok : readContent ms = .ok c ↔ ReadsContent ms c := by
  simp only [readContent, bind_eq_ok, ensure_eq_ok, unit_exists, assertRef_eq_ok,
    normalizeRevision_eq_ok, normalizeProviderPolicy_eq_ok, assertEnum_names_eq_ok,
    normalizeAcceptancePolicy_eq_ok, normalizeContentRef_eq_ok, readBranches_eq_ok,
    assertNullable_eq_ok (R := ReadsRef) (fun _ _ => assertRef_eq_ok) (by simp [ReadsRef]),
    checkBranchCeilings_eq_ok, normalizeConcurrency_eq_ok, assertString_eq_ok,
    assertInteger_eq_ok, normalizeRetryPolicy_eq_ok, normalizeLeasePolicy_eq_ok, pure_eq_ok]
  constructor
  · rintro ⟨hver, _, hproj, ⟨_, _⟩, ⟨hrev, hsup, hfst, hlt⟩, _, hprov, _, hmode, _, hacc, _,
      htk, _, hexec, _, hctx, us, ⟨⟨xs, hxs, hlen, hrd⟩, hnd, ht, he, hc, hrf, hac⟩, _, hint,
      hval, hceil, _, ⟨hwork, hreq, hmax, hle⟩, _, htitle, _, hout, _, hctxb, _, hrt, _, hlease,
      rfl⟩
    exact ⟨hver, hproj, hrev, hsup, hfst, hlt, htitle, hout, hacc, htk, hexec, hctx,
      ⟨xs, us, hxs, hlen, hrd, ⟨hnd, ht, he, hc, hrf, hac,
        (validateIntegration_eq_ok hnd hac.1).mp hval, hceil.1, hceil.2, hwork, hreq, hle⟩, rfl⟩,
      hint, hmax, hctxb, hrt, hlease, hprov, hmode⟩
  · intro h
    obtain ⟨xs, us, hxs, hlen, hrd, hru, hsort⟩ := h.branches
    exact ⟨h.version, _, h.projectRef, (c.revision, c.supersedesPlanRef),
      ⟨h.revision, h.supersedes, h.firstRevision, h.laterRevision⟩, _, h.providerPolicy, _,
      h.permissionMode, _, h.acceptancePolicy, _, h.taskIntentRef, _, h.executionPlanRef, _,
      h.contextPackRef, us, ⟨⟨xs, hxs, hlen, hrd⟩, hru.refs, hru.taskIntents,
        hru.executionPlans, hru.contextPacks, hru.contentRefs, hru.acyclic⟩, _,
      h.integrationBranchRef, (validateIntegration_eq_ok hru.refs hru.acyclic.1).mpr
        hru.integration, ⟨hru.providers, hru.permissions⟩, _,
      ⟨hru.work, hru.integrationRequired, h.maxConcurrency, hru.concurrency⟩, _, h.title,
      _, h.desiredOutcome, _, h.contextBudget, _, h.retryPolicy, _, h.leasePolicy, by
        rw [hsort]⟩

/-- A name supplied with a plan, if there is one, is the expected one. -/
def SuppliedOk (ms : List (String × Raw)) (name expected : String) : Prop :=
  ∀ v, ms.lookup name = some v → v = .str expected

theorem checkSupplied_eq_ok {name description exp : String} {pat : String → Bool} (hexp : pat exp) :
    checkSupplied ms name pat description exp = .ok u ↔ SuppliedOk ms name exp := by
  unfold checkSupplied SuppliedOk
  cases ms.lookup name with
  | none => simp
  | some v =>
    simp only [chain_eq_ok, assertPattern_eq_ok, Option.some.injEq, forall_eq']
    constructor
    · rintro ⟨s, ⟨rfl, -⟩, rfl⟩
      rfl
    · rintro rfl
      exact ⟨exp, ⟨rfl, hexp⟩, rfl⟩

theorem isPlanSnapshotId_of_isSha256 {h : Digest} (hh : isSha256 h) :
    isPlanSnapshotId (planSnapshotIdOf h) := by
  simp only [isSha256, Bool.and_eq_true, all_eq_true, decide_eq_true_eq] at hh
  have hlst : (planSnapshotIdOf h).toList = ['B', 'P', 'S', '-'] ++ h.toList.take 32 := by
    rw [planSnapshotIdOf, String.toList_append, String.toList_ofList, String.toList_ofList]
  simp only [isPlanSnapshotId, hlst, Bool.and_eq_true, all_eq_true, decide_eq_true_eq]
  refine ⟨⟨rfl, ?_⟩, fun c hc => hh.2 c (mem_of_mem_take hc)⟩
  change (h.toList.take 32).length = 32
  rw [length_take, hh.1]
  rfl

section Snapshot

variable (H : Sha256) (c : PlanContent)

theorem isSha256_snapshot : isSha256 (c.snapshot H).planHash := H.isSha256 _

theorem isPlanSnapshotId_snapshot : isPlanSnapshotId (c.snapshot H).planSnapshotId :=
  isPlanSnapshotId_of_isSha256 (H.isSha256 _)

end Snapshot

/-- The preflight of a plan. -/
def PlanFits (raw : Raw) : Prop :=
  raw.nodes ≤ maxInputNodes ∧ raw.fits fitsText maxInputDepth ∧ textSize raw ≤ maxPlanBytes

/-- The members of a raw plan that is accepted as the content `c`. -/
structure ReadsPlan (H : Sha256) (raw : Raw) (ms : List (String × Raw)) (c : PlanContent) :
    Prop where
  eq : raw = .obj ms
  allowed : ∀ m ∈ ms, m.1 ∈ PLAN_FIELDS
  required : ∀ name ∈ PLAN_REQUIRED_FIELDS, name ∈ ms.map Prod.fst
  content : ReadsContent ms c
  planHash : SuppliedOk ms "plan_hash" (c.snapshot H).planHash
  planSnapshotId : SuppliedOk ms "plan_snapshot_id" (c.snapshot H).planSnapshotId

variable {H : Sha256}

/-- **What the normaliser accepts**, and what it returns. -/
theorem normalizeBusinessWorkOrderPlanV1_eq_ok {q : WorkOrderPlan} :
    normalizeBusinessWorkOrderPlanV1 H raw = .ok q ↔
      PlanFits raw ∧ ∃ ms c, ReadsPlan H raw ms c ∧ c.snapshot H = q := by
  simp only [normalizeBusinessWorkOrderPlanV1, chain_eq_ok, preflightJson_eq_ok,
    assertExactFields_eq_ok, readContent_eq_ok, checkSupplied_eq_ok (isSha256_snapshot H _),
    checkSupplied_eq_ok (isPlanSnapshotId_snapshot H _)]
  constructor
  · rintro ⟨_, ⟨hft, -⟩, ms, ⟨heq, hallow, hreq⟩, c, hc, hh, hid, rfl⟩
    exact ⟨hft, ms, c, ⟨heq, hallow, hreq, hc, hh, hid⟩, rfl⟩
  · rintro ⟨hft, ms, c, ⟨heq, hallow, hreq, hc, hh, hid⟩, rfl⟩
    exact ⟨_, ⟨hft, rfl⟩, ms, ⟨heq, hallow, hreq⟩, c, hc, hh, hid, rfl⟩

/-! ## The snapshot read again -/

instance : Reading (ReadsString 1024) .str 0 := readsString_reading (by decide)

instance : Reading (ReadsBranches c) (fun bs => .arr (bs.map WorkOrderBranch.toJson)) 3 :=
  have : Std.Total fun a b : WorkOrderBranch => a.branchRef ≤ b.branchRef :=
    ⟨fun _ _ => le_total _ _⟩
  have : IsTrans WorkOrderBranch fun a b => a.branchRef ≤ b.branchRef := ⟨fun _ _ _ => le_trans⟩
  readsSorted_reading (fun _ _ hp h => h.perm hp) (by decide)

/-- The members of a snapshot. -/
def WorkOrderPlan.members (q : WorkOrderPlan) : List (String × Raw) :=
  ("version", .num 1) :: ("plan_snapshot_id", .str q.planSnapshotId) ::
    ("plan_hash", .str q.planHash) :: q.content.members

theorem readsContent_members {q : WorkOrderPlan} (h : ReadsContent ms q.content) :
    ReadsContent q.members q.content where
  version := rfl
  projectRef := again h.projectRef
  revision := again h.revision
  supersedes := again h.supersedes
  firstRevision := h.firstRevision
  laterRevision := h.laterRevision
  title := again h.title
  desiredOutcome := again h.desiredOutcome
  acceptancePolicy := again h.acceptancePolicy
  taskIntentRef := again h.taskIntentRef
  executionPlanRef := again h.executionPlanRef
  contextPackRef := again h.contextPackRef
  branches := again h.branches
  integrationBranchRef := again h.integrationBranchRef
  maxConcurrency := again h.maxConcurrency
  contextBudget := again h.contextBudget
  retryPolicy := again h.retryPolicy
  leasePolicy := again h.leasePolicy
  providerPolicy := again h.providerPolicy
  permissionMode := again h.permissionMode

theorem PlanContent.names_members (c : PlanContent) :
    (("version", num 1) :: c.members).map Prod.fst = PLAN_REQUIRED_FIELDS := rfl

/-- A content that reads as itself is a plan without a name. -/
theorem ReadsContent.readsPlan (h : ReadsContent (("version", .num 1) :: c.members) c)
    (H : Sha256) :
    ReadsPlan H c.toJson (("version", .num 1) :: c.members) c where
  eq := rfl
  allowed m hm := mem_append_left _ (c.names_members ▸ mem_map_of_mem hm)
  required name hnm := c.names_members ▸ hnm
  content := h
  planHash := by
    intro v hv
    cases hv
  planSnapshotId := by
    intro v hv
    cases hv

theorem ReadsPlan.again (h : ReadsPlan H raw ms c) :
    ReadsPlan H (c.snapshot H).toJson (c.snapshot H).members c where
  eq := rfl
  allowed m hm := by
    rcases mem_cons.mp hm with rfl | hm
    · exact mem_append_left _ (by decide)
    rcases mem_cons.mp hm with rfl | hm
    · exact mem_append_right _ (mem_cons_self)
    rcases mem_cons.mp hm with rfl | hm
    · exact mem_append_right _ (mem_cons_of_mem _ mem_cons_self)
    have hnm : m.1 ∈ (("version", num 1) :: c.members).map Prod.fst :=
      mem_map_of_mem (mem_cons_of_mem _ hm)
    exact mem_append_left _ (c.names_members ▸ hnm)
  required name hnm := by
    rw [← c.names_members, map_cons, mem_cons] at hnm
    rcases hnm with rfl | hnm
    · exact mem_cons_self
    · exact mem_cons_of_mem _ (mem_cons_of_mem _ (mem_cons_of_mem _ hnm))
  content := readsContent_members (q := c.snapshot H) h.content
  planHash := by
    intro v hv
    exact (Option.some.inj hv).symm
  planSnapshotId := by
    intro v hv
    exact (Option.some.inj hv).symm

theorem ReadsContent.version_eq (h : ReadsContent ms c) : field ms "version" = .num 1 := by
  have hv := h.version
  cases hf : field ms "version" with
  | num n => rw [hf] at hv; simpa [isPlanVersion] using hv
  | null | bool | str | arr | obj => rw [hf] at hv; cases hv

/-- The members of a content render what was read. -/
theorem renders_content (h : ReadsContent ms c) :
    (("version", .num 1) :: c.members).Forall fun m => Renders 6 (field ms m.1) m.2 :=
  have hver : Renders 6 (field ms "version") (.num 1) := by
    rw [h.version_eq]
    exact ⟨fun _ => .num 1, .num⟩
  ⟨hver, renders h.projectRef, renders h.revision, renders h.supersedes, renders h.title,
    renders h.desiredOutcome, renders h.acceptancePolicy, renders h.taskIntentRef,
    renders h.executionPlanRef, renders h.contextPackRef, renders h.branches,
    renders h.integrationBranchRef, renders h.maxConcurrency, renders h.contextBudget,
    renders h.retryPolicy, renders h.leasePolicy, renders h.providerPolicy,
      renders h.permissionMode⟩

theorem ReadsContent.shape (h : ReadsContent ms c) : Shape fitsText c.toJson maxInputDepth :=
  (Shape.obj ((renders_content h).imp fun _ hm => hm.shape)).mono (by decide)

theorem ReadsContent.shape_snapshot (h : ReadsContent ms c) :
    Shape fitsText (c.snapshot H).toJson maxInputDepth := by
  obtain ⟨hver, hmembers⟩ := (forall_cons _ _ _).mp ((renders_content h).imp fun _ hm => hm.shape)
  have hid : Shape fitsText (.str (c.snapshot H).planSnapshotId) 6 :=
    Reading.shape (R := ReadsPattern isPlanSnapshotId) ⟨rfl, isPlanSnapshotId_snapshot H c⟩
      (Nat.zero_le _)
  have hh : Shape fitsText (.str (c.snapshot H).planHash) 6 :=
    Reading.shape (R := ReadsPattern isSha256) ⟨rfl, isSha256_snapshot H c⟩ (Nat.zero_le _)
  exact (Shape.obj ((forall_cons _ _ _).mpr ⟨hver, (forall_cons _ _ _).mpr ⟨hid,
    (forall_cons _ _ _).mpr ⟨hh, hmembers⟩⟩⟩)).mono (by decide)

/-! A rendered content is a document: no member name is given twice. -/

theorem wellFormed_obj {ns : List String} (hn : ns.Nodup)
    (hnms : ms.map Prod.fst = ns) (hv : ms.Forall fun m => m.2.WellFormed) :
    (obj ms).WellFormed := by
  refine ⟨hnms ▸ hn, ?_⟩
  clear hn hnms
  induction ms with
  | nil => trivial
  | cons m ms ih =>
    obtain ⟨hm, hms⟩ := (forall_cons _ _ _).mp hv
    exact ⟨hm, ih hms⟩

theorem wellFormed_arr_map {α : Type} {f : α → Raw} (l : List α) (h : ∀ a, (f a).WellFormed) :
    (arr (l.map f)).WellFormed := by
  induction l with
  | nil => trivial
  | cons a l ih => exact ⟨h a, ih⟩

theorem wellFormed_contentRefJson (r : ContentRef) : (contentRefJson r).WellFormed :=
  wellFormed_obj (show CONTENT_REF_FIELDS.Nodup by decide) rfl ⟨trivial, trivial⟩

theorem wellFormed_requirementJson (r : VerificationRequirement) : (requirementJson r).WellFormed :=
  wellFormed_obj (show VERIFICATION_REQUIREMENT_FIELDS.Nodup by decide) rfl
    ⟨trivial, wellFormed_contentRefJson _⟩

theorem wellFormed_refsJson (l : List Ref) : (refsJson l).WellFormed :=
  wellFormed_arr_map l fun _ => trivial

theorem wellFormed_nullableRef (o : Option Ref) : (nullableJson str o : Raw).WellFormed := by
  cases o <;> trivial

theorem AcceptanceCriterion.wellFormed_toJson (c : AcceptanceCriterion) : c.toJson.WellFormed :=
  wellFormed_obj (show ACCEPTANCE_CRITERION_FIELDS.Nodup by decide) rfl
    ⟨trivial, trivial, trivial, wellFormed_arr_map _ wellFormed_requirementJson⟩

theorem AcceptancePolicy.wellFormed_toJson (p : AcceptancePolicy) : p.toJson.WellFormed :=
  wellFormed_obj (show ACCEPTANCE_POLICY_FIELDS.Nodup by decide) rfl
    ⟨wellFormed_arr_map _ AcceptanceCriterion.wellFormed_toJson, trivial⟩

theorem wellFormed_retryPolicyJson (r : RetryPolicy) : (retryPolicyJson r).WellFormed :=
  wellFormed_obj (show RETRY_POLICY_FIELDS.Nodup by decide) rfl
    ⟨trivial, trivial, trivial, trivial, trivial, wellFormed_arr_map _ fun _ => trivial⟩

theorem wellFormed_leasePolicyJson (l : LeasePolicy) : (leasePolicyJson l).WellFormed :=
  wellFormed_obj (show LEASE_POLICY_FIELDS.Nodup by decide) rfl ⟨trivial, trivial, trivial⟩

theorem ProviderPolicy.wellFormed_toJson (p : ProviderPolicy) : p.toJson.WellFormed :=
  wellFormed_obj (show PROVIDER_POLICY_FIELDS.Nodup by decide) rfl
    ⟨wellFormed_refsJson _, trivial⟩

theorem WorkOrderBranch.wellFormed_toJson (b : WorkOrderBranch) : b.toJson.WellFormed :=
  wellFormed_obj (show BRANCH_FIELDS.Nodup by simp [BRANCH_FIELDS]) rfl
    ⟨trivial, wellFormed_contentRefJson _, wellFormed_contentRefJson _,
      wellFormed_contentRefJson _, wellFormed_refsJson _, trivial, trivial, trivial, trivial,
      trivial, trivial⟩

theorem PlanContent.wellFormed_members (c : PlanContent) :
    (("version", .num 1) :: c.members).Forall fun m => m.2.WellFormed :=
  ⟨trivial, trivial, trivial, wellFormed_nullableRef _, trivial, trivial,
    c.acceptancePolicy.wellFormed_toJson, wellFormed_contentRefJson _,
    wellFormed_contentRefJson _, wellFormed_contentRefJson _,
    wellFormed_arr_map _ WorkOrderBranch.wellFormed_toJson, wellFormed_nullableRef _, trivial,
    trivial, wellFormed_retryPolicyJson _, wellFormed_leasePolicyJson _,
    c.providerPolicy.wellFormed_toJson, trivial⟩

theorem PlanContent.wellFormed_toJson (c : PlanContent) : c.toJson.WellFormed :=
  wellFormed_obj nodup_PLAN_REQUIRED_FIELDS rfl c.wellFormed_members

/-! ## Room for the name -/

/-- `raw` has a member of this name. -/
def hasMember (raw : Raw) (name : String) : Bool :=
  match raw with
  | .obj ms => name ∈ ms.map Prod.fst
  | _ => false

/-- The bytes of a plan's canonical text once its strings are trimmed. -/
def trimmedSize (raw : Raw) : Nat := raw.weigh (trimmed (textWeights toString))

/-- The plan leaves room for the identifier and the hash a snapshot carries: for as many more
values as it lacks, and for their text. -/
def RoomForName (raw : Raw) : Prop :=
  raw.nodes + (if hasMember raw "plan_hash" then 0 else 1) +
      (if hasMember raw "plan_snapshot_id" then 0 else 1) ≤ maxInputNodes ∧
    trimmedSize raw + (if hasMember raw "plan_hash" then 0 else 79) +
      (if hasMember raw "plan_snapshot_id" then 0 else 58) ≤ maxPlanBytes

/-- The members of a snapshot by its name that the plan has too. -/
def suppliedMembers (raw : Raw) (q : WorkOrderPlan) : List (String × Raw) :=
  [("plan_snapshot_id", .str q.planSnapshotId), ("plan_hash", .str q.planHash)].filter
    fun m => hasMember raw m.1

/-- What a plan renders: its content, and its name where it has one. -/
def rendering (raw : Raw) (q : WorkOrderPlan) : List (String × Raw) :=
  ("version", .num 1) :: q.content.members ++ suppliedMembers raw q

section Again

variable {H : Sha256} {raw : Raw} {ms : List (String × Raw)} {c : PlanContent}

theorem nodup_rendering (raw : Raw) (q : WorkOrderPlan) :
    ((rendering raw q).map Prod.fst).Nodup := by
  rw [rendering, map_append, PlanContent.names_members]
  exact nodup_PLAN_FIELDS.sublist ((filter_sublist.map Prod.fst).append_left _)

theorem wellFormed_rendering (raw : Raw) (q : WorkOrderPlan) :
    (obj (rendering raw q)).WellFormed := by
  refine wellFormed_obj (nodup_rendering raw q) rfl
    (forall_append.mpr ⟨q.content.wellFormed_members, ?_⟩)
  refine forall_iff_forall_mem.mpr fun m hm => ?_
  rcases mem_pair.mp (mem_filter.mp hm).1 with rfl | rfl <;> trivial

section

variable (h : ReadsPlan H raw ms c)
include h

theorem ReadsPlan.hasMembers : HasMembers ((rendering raw (c.snapshot H)).map Prod.fst) raw ms := by
  have hhas (name : String) : hasMember raw name ↔ name ∈ ms.map Prod.fst := by
    rw [h.eq, hasMember, decide_eq_true_eq]
  rw [rendering, map_append, PlanContent.names_members]
  refine ⟨h.eq, fun m hm => ?_, fun name hnm => ?_⟩
  · have hm' := (hhas m.1).mpr (mem_map_of_mem hm)
    refine mem_append.mpr ((mem_append.mp (h.allowed m hm)).imp_right fun hnm => ?_)
    rcases mem_pair.mp hnm with heq | heq <;> rw [heq] at hm' ⊢ <;> simp [suppliedMembers, hm']
  · refine (mem_append.mp hnm).elim (h.required name) fun hnm => ?_
    obtain ⟨m, hm, rfl⟩ := mem_map.mp hnm
    exact (hhas m.1).mp (mem_filter.mp hm).2

theorem ReadsPlan.renders :
    (rendering raw (c.snapshot H)).Forall fun m => Renders 6 (field ms m.1) m.2 := by
  refine forall_append.mpr ⟨renders_content h.content, forall_iff_forall_mem.mpr fun m hm => ?_⟩
  have hlk := lookup_field (h.hasMembers.required m.1 (mem_map_of_mem (mem_append_right _ hm)))
  rcases mem_pair.mp (mem_filter.mp hm).1 with rfl | rfl
  · exact Reading.renders (R := ReadsPattern isPlanSnapshotId)
      ⟨h.planSnapshotId _ hlk, isPlanSnapshotId_snapshot H c⟩
  · exact Reading.renders (R := ReadsPattern isSha256) ⟨h.planHash _ hlk, isSha256_snapshot H c⟩

variable (hwf : raw.WellFormed)
include hwf

/-- A plan differs from what it renders only by order and white space. -/
theorem ReadsPlan.alike : raw.Alike TrimsTo (.obj (rendering raw (c.snapshot H))) :=
  h.hasMembers.alike (nodup_rendering ..) hwf rfl h.renders

/-- The weight of a snapshot, from the weight of the plan it was made from. -/
theorem ReadsPlan.weigh_snapshot (w : Weights Int) :
    (c.snapshot H).toJson.weigh w + w.obj
    (18 + ((if hasMember raw "plan_snapshot_id" then 1 else 0) +
        if hasMember raw "plan_hash" then 1 else 0)) =
      raw.weigh (trimmed w) + w.obj 20 + ((if hasMember raw "plan_snapshot_id" then 0 else
            w.name "plan_snapshot_id" + w.str (c.snapshot H).planSnapshotId) +
          if hasMember raw "plan_hash" then 0 else
            w.name "plan_hash" + w.str (c.snapshot H).planHash) := by
  have hraw : raw.weigh (trimmed w) = (obj (rendering raw (c.snapshot H))).weigh w :=
    (h.alike hwf).weigh_eq (fun _ _ htr => congrArg w.str htr) hwf (wellFormed_rendering ..)
  have hlen : (c.snapshot H).content.members.length = 17 := rfl
  rw [hraw, rendering, suppliedMembers, WorkOrderPlan.toJson, weigh_obj, weigh_obj]
  cases hid : hasMember raw "plan_snapshot_id" <;> cases hh : hasMember raw "plan_hash" <;>
    simp [hid, hh, weigh, hlen] <;> omega

theorem ReadsPlan.nodes_snapshot :
    (c.snapshot H).toJson.nodes = raw.nodes + (if hasMember raw "plan_hash" then 0 else 1) +
      (if hasMember raw "plan_snapshot_id" then 0 else 1) := by
  have hw := h.weigh_snapshot hwf nodeWeights
  change (c.snapshot H).toJson.nodes + 1 = raw.nodes + 1 +
    ((if hasMember raw "plan_snapshot_id" then 0 else 0 + 1) +
      if hasMember raw "plan_hash" then 0 else 0 + 1) at hw
  rw [Nat.zero_add] at hw
  omega

theorem ReadsPlan.textSize_snapshot : textSize (c.snapshot H).toJson = trimmedSize raw +
      (if hasMember raw "plan_hash" then 0 else 79) +
      (if hasMember raw "plan_snapshot_id" then 0 else 58) := by
  have hw := h.weigh_snapshot hwf (textWeights toString)
  have hid : (textWeights (ν := Int) toString).name "plan_snapshot_id" = 19 := by
    rfl
  have hh : (textWeights (ν := Int) toString).name "plan_hash" = 12 := by rfl
  have hidText : (textWeights (ν := Int) toString).str (c.snapshot H).planSnapshotId = 38 :=
    (plainText_of_isPlanSnapshotId (isPlanSnapshotId_snapshot H c)).quoted
  have hhashText : (textWeights (ν := Int) toString).str (c.snapshot H).planHash = 66 :=
    (plainText_of_isSha256 (isSha256_snapshot H c)).quoted
  have hobj : ∀ n, (textWeights (ν := Int) toString).obj n = 2 + (n - 1) := fun _ => rfl
  rw [hid, hh, hidText, hhashText, hobj, hobj] at hw
  rw [textSize, trimmedSize]
  generalize hasMember raw "plan_snapshot_id" = suppliedId at hw ⊢
  generalize hasMember raw "plan_hash" = suppliedHash at hw ⊢
  cases suppliedId <;> cases suppliedHash <;> simp at hw ⊢ <;> omega

theorem ReadsPlan.planFits_snapshot : PlanFits (c.snapshot H).toJson ↔ RoomForName raw := by
  rw [PlanFits, RoomForName, h.nodes_snapshot hwf, h.textSize_snapshot hwf]
  exact and_congr_right fun _ => and_iff_right h.content.shape_snapshot.fits

end

end Again

/-! ## Plans at the limit

A family of plans in which every text is a run of one letter, so that its size is its length. -/

def run (n : Nat) : String := String.ofList (replicate n 'a')

theorem toList_run (n : Nat) : (run n).toList = replicate n 'a' := String.toList_ofList

theorem plainText_run (n : Nat) : PlainText (run n) n := by
  have h := PlainText.of_chars (s := run n) fun c hc => by
    rw [toList_run] at hc
    rw [eq_of_mem_replicate hc]
    decide
  rwa [toList_run, length_replicate] at h

theorem run_injective : Injective run := fun m n h => by
  have hlen := congrArg (fun s => s.toList.length) h
  simpa [toList_run] using hlen

theorem replicate_lt (m k : Nat) : replicate m 'a' < replicate (m + k + 1) 'a' := by
  induction m with
  | zero => exact Lex.nil
  | succ m ih =>
    rw [Nat.add_right_comm m 1 k, Nat.add_right_comm (m + k) 1 1, replicate_succ, replicate_succ]
    exact Lex.cons ih

theorem run_lt {m : Nat} (h : m < n) : run m < run n := by
  obtain ⟨k, rfl⟩ := Nat.exists_eq_add_of_lt h
  rw [String.lt_iff_toList_lt, toList_run, toList_run]
  exact replicate_lt m k

theorem isRef_run (hpos : 0 < n) (hle : n ≤ 256) : IsRef (run n) := by
  refine ⟨?_, by rw [(plainText_run n).size]; exact hle⟩
  cases n with
  | zero => cases hpos
  | succ n =>
    rw [matchesRef, toList_run, replicate_succ, Bool.and_eq_true]
    exact ⟨by decide, all_eq_true.mpr fun c hc => eq_of_mem_replicate hc ▸ by decide⟩

theorem readsRef_run (hpos : 0 < n) (hle : n ≤ 256) : ReadsRef (.str (run n)) (run n) :=
  ⟨_, rfl, (plainText_run n).trim, isRef_run hpos hle⟩

theorem readsString_run {maximumBytes : Nat} (hpos : 0 < n) (hle : n ≤ maximumBytes) :
    ReadsString maximumBytes (.str (run n)) (run n) := by
  have hsz := (plainText_run n).size
  refine ⟨_, rfl, (plainText_run n).trim, ?_, by rw [hsz]; exact hle⟩
  intro hem
  rw [hem] at hsz
  exact hpos.ne hsz

theorem isSha256_run : isSha256 (run 64) := by
  rw [isSha256, toList_run]
  decide

/-- A digest that does not look at its text. -/
def fixedDigest : Sha256 := ⟨fun _ => run 64, fun _ => isSha256_run⟩

def runRef (n : Nat) : ContentRef := ⟨run n, run 64⟩

theorem readsContentRef_run (hpos : 0 < n) (hle : n ≤ 256) :
    ReadsContentRef (contentRefJson (runRef n)) (runRef n) :=
  ⟨_, .of_names rfl, readsRef_run hpos hle, rfl, isSha256_run⟩

def runCriterion (d n : Nat) : AcceptanceCriterion :=
  ⟨run n, run d, .deterministic, [⟨.deterministic, runRef n⟩]⟩

theorem readsCriterion_run {d : Nat} (hd : 0 < d) (hd' : d ≤ 8192) (hn : 0 < n) (hn' : n ≤ 256) :
    ReadsCriterion (runCriterion d n).toJson (runCriterion d n) := by
  refine ⟨_, .of_names rfl, readsRef_run hn hn', readsString_run hd hd', rfl, ?_⟩
  exact ⟨_, [⟨.deterministic, runRef n⟩], rfl,
    by simp [runCriterion, maxVerificationRequirementsPerCriterion],
    .cons ⟨_, .of_names rfl, rfl, readsContentRef_run hn hn'⟩ .nil,
    ⟨by simp, by simp [AcceptanceVerification.Matches, runCriterion]⟩, rfl⟩

def runRetryPolicy : RetryPolicy := ⟨1, 1000, 1000, 0, 0, []⟩

def runLeasePolicy : LeasePolicy := ⟨5000, 1000, 1⟩

theorem readsRetryPolicy_run : ReadsRetryPolicy (retryPolicyJson runRetryPolicy) runRetryPolicy :=
  ⟨_, .of_names rfl, ⟨rfl, by decide⟩, ⟨rfl, by decide⟩, ⟨rfl, by decide⟩, ⟨rfl, by decide⟩,
    ⟨rfl, by decide⟩, ⟨_, rfl, by decide, .nil, nodup_nil⟩, by decide, by decide⟩

theorem readsLeasePolicy_run : ReadsLeasePolicy (leasePolicyJson runLeasePolicy) runLeasePolicy :=
  ⟨_, .of_names rfl, ⟨rfl, by decide⟩, ⟨rfl, by decide⟩, ⟨rfl, by decide⟩, by decide⟩

/-- A plan with one branch, and with `k` criteria whose descriptions have `d` characters. -/
def runPlan (k d : Nat) : PlanContent where
  projectRef := run 1
  revision := 1
  supersedesPlanRef := none
  title := run 1
  desiredOutcome := run 1
  acceptancePolicy := ⟨(range k).map fun i => runCriterion d (i + 7), .light⟩
  taskIntentRef := runRef 1
  executionPlanRef := runRef 2
  contextPackRef := runRef 3
  branches := [⟨run 1, runRef 4, runRef 5, runRef 6, [], .work, false, .worktree, run 1, run 1,
    .workspaceWrite⟩]
  integrationBranchRef := none
  maxConcurrency := 1
  contextDuplicationBudgetTokens := 0
  retryPolicy := runRetryPolicy
  leasePolicy := runLeasePolicy
  providerPolicy := ⟨[run 1], .fixed⟩
  permissionMode := .workspaceWrite

theorem planRules_run (k d : Nat) : PlanRules (runPlan k d) (runPlan k d).branches where
  refs := by simp [runPlan, branchRefs]
  taskIntents := by simp [runPlan]
  executionPlans := by simp [runPlan]
  contextPacks := by simp [runPlan]
  contentRefs := by
    have hids : (planContentRefs [(runPlan k d).taskIntentRef, (runPlan k d).executionPlanRef,
        (runPlan k d).contextPackRef] (runPlan k d).branches (runPlan k d).acceptancePolicy).map
          ContentRef.id = ([1, 2, 3, 4, 5, 6] ++ (range k).map (· + 7)).map run := by
      simp [planContentRefs, runPlan, WorkOrderBranch.contentRefs, runCriterion, runRef,
        flatMap_map, comp_def, map_flatMap]
      exact map_eq_flatMap.symm
    rw [hids]
    refine Nodup.map run_injective (nodup_append.mpr ⟨by decide, ?_, ?_⟩)
    · exact nodup_range.map fun _ _ h => Nat.add_right_cancel h
    · intro a ha b hb
      obtain ⟨i, -, rfl⟩ := mem_map.mp hb
      have : a ≤ 6 := by simp at ha; omega
      omega
  acyclic := by
    refine ⟨by simp [Closed, runPlan], fun r _ => ⟨r, fun s hs => ?_⟩⟩
    have hno : dependenciesOf (runPlan k d).branches r = [] := by
      rw [dependenciesOf]
      cases h : (runPlan k d).branches.find? (·.branchRef = r) with
      | none => rfl
      | some b =>
        have hb := mem_of_find?_eq_some h
        rw [mem_singleton.mp hb]
        rfl
    rw [Digraph.Edge, hno] at hs
    cases hs
  integration := by simp [runPlan, IntegrationOk]
  providers := by simp [runPlan]
  permissions := by simp [runPlan]
  work := by simp [runPlan, workBranchCount]
  integrationRequired := by simp [runPlan, workBranchCount]
  concurrency := by simp [runPlan, workBranchCount]

theorem readsContent_run {k d : Nat} (hk : 0 < k) (hk' : k ≤ 64) (hd : 0 < d) (hd' : d ≤ 8192) :
    ReadsContent (("version", .num 1) :: (runPlan k d).members) (runPlan k d) where
  version := rfl
  projectRef := readsRef_run (by decide) (by decide)
  revision := ⟨rfl, by simp [runPlan]⟩
  supersedes := rfl
  firstRevision _ := rfl
  laterRevision h := absurd h (by simp [runPlan])
  title := readsString_run (by decide) (by decide)
  desiredOutcome := readsString_run (by decide) (by decide)
  acceptancePolicy := by
    refine ⟨_, .of_names rfl, ⟨_, (runPlan k d).acceptancePolicy.criteria, rfl, ?_, ?_, ?_, ?_⟩,
      rfl⟩
    · simpa [runPlan, maxAcceptanceCriteria] using ⟨hk, hk'⟩
    · rw [forall₂_map_left_iff, forall₂_same]
      intro c hc
      obtain ⟨i, hi, rfl⟩ := mem_map.mp hc
      have := mem_range.mp hi
      exact readsCriterion_run hd hd' (by omega) (by omega)
    · have hids : (runPlan k d).acceptancePolicy.criteria.map AcceptanceCriterion.criterionId =
          ((range k).map (· + 7)).map run := by
        simp [runPlan, runCriterion, comp_def]
      change (map _ _).Nodup
      rw [hids]
      exact (nodup_range.map fun _ _ h => Nat.add_right_cancel h).map run_injective
    · refine Pairwise.insertionSort_eq (pairwise_map.mpr ?_)
      exact pairwise_lt_range.imp fun h => (run_lt (by omega)).le
  taskIntentRef := readsContentRef_run (by decide) (by decide)
  executionPlanRef := readsContentRef_run (by decide) (by decide)
  contextPackRef := readsContentRef_run (by decide) (by decide)
  branches := by
    refine ⟨_, (runPlan k d).branches, rfl,
      by simp [runPlan, maxBranches], .cons ?_ .nil, planRules_run k d, rfl⟩
    exact ⟨_, .of_names rfl, readsRef_run (by decide) (by decide),
      readsContentRef_run (by decide) (by decide), readsContentRef_run (by decide) (by decide),
      readsContentRef_run (by decide) (by decide),
      ⟨_, [], rfl, by decide, .nil, nodup_nil, rfl⟩, rfl, rfl, rfl,
      readsRef_run (by decide) (by decide), readsRef_run (by decide) (by decide), rfl,
      ⟨by simp, by simp, by simp, by simp⟩⟩
  integrationBranchRef := rfl
  maxConcurrency := ⟨rfl, by simp [runPlan, maxBranches]⟩
  contextBudget := ⟨rfl, by simp [runPlan]⟩
  retryPolicy := readsRetryPolicy_run
  leasePolicy := readsLeasePolicy_run
  providerPolicy := ⟨_, .of_names rfl,
    ⟨_, [run 1], rfl, by simp [runPlan,
      maxProviderRefs], .cons (readsRef_run (by decide) (by decide)) .nil,
      nodup_singleton _, rfl⟩, rfl, fun _ => rfl, fun h => by cases h⟩
  permissionMode := rfl

/-- The weights of the canonical text. -/
abbrev textW : Weights Int := textWeights toString

theorem textW_run (n : Nat) : textW.str (run n) = n + 2 := (plainText_run n).quoted

section

variable (w : Weights Int) (k d n : Nat)

theorem weigh_runCriterion : (runCriterion d n).toJson.weigh w + 3 * w.str (run 0) =
    (runCriterion 0 0).toJson.weigh w + w.str (run d) + 2 * w.str (run n) := by
  simp only [runCriterion, runRef, AcceptanceCriterion.toJson, requirementJson, contentRefJson,
    weigh, weighMembers, weighAll, map_cons, map_nil, length_cons, length_nil]
  omega

/-- A plan of the family weighs what its criteria and the rest of it weigh. -/
theorem weigh_runPlan :
    (runPlan k d).toJson.weigh w + w.arr 0 = (runPlan 0 0).toJson.weigh w + w.arr k +
    ((range k).map fun i => (runCriterion d (i + 7)).toJson.weigh w).sum := by
  simp only [PlanContent.toJson, PlanContent.members, AcceptancePolicy.toJson, runPlan, weigh_obj,
    weigh_arr, map_cons, map_nil, map_map, sum_cons, sum_nil, length_cons, length_nil, length_map,
    length_range, comp_def, range_zero]
  omega

end

/-- The content as a document. -/
def PlanContent.document (c : PlanContent) : RawDocument := ⟨c.toJson, c.wellFormed_toJson⟩

theorem PlanContent.hasMember_toJson (c : PlanContent) (name : String) :
    hasMember c.toJson name = decide (name ∈ PLAN_REQUIRED_FIELDS) := by
  rw [← c.names_members]
  rfl

section Document

variable {c : PlanContent} (h : ReadsContent (("version", .num 1) :: c.members) c)
include h

/-- What a content that reads as itself is accepted as. -/
theorem ReadsContent.normalize_eq (H : Sha256) (hns : c.toJson.nodes ≤ maxInputNodes)
    (hsz : textSize c.toJson ≤ maxPlanBytes) :
    normalizeBusinessWorkOrderPlanV1 H c.document.1 = .ok (c.snapshot H) :=
  normalizeBusinessWorkOrderPlanV1_eq_ok.mpr ⟨⟨hns, h.shape.fits, hsz⟩, _, c, h.readsPlan H, rfl⟩

theorem ReadsContent.roomForName_iff : RoomForName c.toJson ↔
    c.toJson.nodes + 2 ≤ maxInputNodes ∧ textSize c.toJson + 137 ≤ maxPlanBytes := by
  have hh : hasMember c.toJson "plan_hash" = false := by
    rw [c.hasMember_toJson]
    simp [PLAN_REQUIRED_FIELDS]
  have hid : hasMember c.toJson "plan_snapshot_id" = false := by
    rw [c.hasMember_toJson]
    simp [PLAN_REQUIRED_FIELDS]
  -- What reads as itself has nothing to trim.
  have halike : c.toJson.Alike TrimsTo c.toJson := HasMembers.alike (.of_names c.names_members)
    nodup_PLAN_REQUIRED_FIELDS c.wellFormed_toJson c.names_members (renders_content h)
  have hsz : trimmedSize c.toJson = textSize c.toJson :=
    halike.weigh_eq (fun _ _ htr => by rw [htr]) c.wellFormed_toJson c.wellFormed_toJson
  simp only [RoomForName, hh, hid, hsz, Bool.false_eq_true, if_false, Nat.add_assoc]

end Document

/-- The criteria of a plan of the family, with their commas. -/
def runCriteriaSize (k d : Nat) : Nat :=
  2 + (k - 1) + ((range k).map fun i => 225 + d + 2 * (i + 7)).sum

/-- **The size of a plan of the family.** -/
theorem textSize_runPlan (k d : Nat) :
    textSize (runPlan k d).toJson = 1430 + runCriteriaSize k d := by
  have hcr : (runCriterion 0 0).toJson.weigh textW = 225 := rfl
  have hrs : (runPlan 0 0).toJson.weigh textW = 1432 := by
    simp only [PlanContent.toJson, PlanContent.members, runPlan, contentRefJson, runRef,
      WorkOrderBranch.toJson, weigh, weighMembers, weighAll, map_cons, map_nil, textW_run]
    rfl
  have hcri (n : Nat) : (runCriterion d n).toJson.weigh textW = 225 + d + 2 * n := by
    have hsz := weigh_runCriterion textW d n
    rw [textW_run, textW_run, textW_run, hcr] at hsz
    omega
  have hsz := weigh_runPlan textW k d
  simp only [hrs, hcri] at hsz
  change textSize _ + 2 = 1432 + (2 + (k - 1)) + _ at hsz
  rw [runCriteriaSize]
  omega

theorem nodes_runPlan (k d : Nat) : (runPlan k d).toJson.nodes = 57 + 10 * k := by
  have hsz := weigh_runPlan nodeWeights k d
  have hcr : ∀ n, (runCriterion d n).toJson.weigh nodeWeights = 10 := fun _ => by rfl
  simp only [hcr, map_const', length_range, sum_replicate_nat] at hsz
  change (runPlan k d).toJson.nodes + 1 = 57 + 1 + _ at hsz
  omega

/-! ## Normalising again -/

/-- **Normalising again.**  The normaliser takes a snapshot it returned back, unchanged, exactly
when the plan it was made from leaves room for the snapshot's name. -/
theorem normalize_again_iff (H : Sha256) (p : RawDocument) (q : WorkOrderPlan)
    (h : normalizeBusinessWorkOrderPlanV1 H p.1 = .ok q) :
    normalizeBusinessWorkOrderPlanV1 H q.toJson = .ok q ↔ RoomForName p.1 := by
  obtain ⟨-, ms, c, hplan, rfl⟩ := normalizeBusinessWorkOrderPlanV1_eq_ok.mp h
  have hagain : (∃ ms' c', ReadsPlan H (c.snapshot H).toJson ms' c' ∧
      c'.snapshot H = c.snapshot H) :=
    ⟨_, c, hplan.again, rfl⟩
  rw [normalizeBusinessWorkOrderPlanV1_eq_ok, and_iff_left hagain, hplan.planFits_snapshot p.2]

/-- A plan with one criterion comes back unchanged. -/
theorem normalize_again_runPlan :
    normalizeBusinessWorkOrderPlanV1 fixedDigest (runPlan 1 1).document.1 =
        .ok ((runPlan 1 1).snapshot fixedDigest) ∧
      normalizeBusinessWorkOrderPlanV1 fixedDigest ((runPlan 1 1).snapshot fixedDigest).toJson =
        .ok ((runPlan 1 1).snapshot fixedDigest) := by
  have h := readsContent_run (k := 1) (d := 1) (by decide) (by decide) (by decide) (by decide)
  have hsize := textSize_runPlan 1 1
  have hnodes := nodes_runPlan 1 1
  have hok := h.normalize_eq fixedDigest (by rw [hnodes]; decide) (by rw [hsize]; decide)
  refine ⟨hok, (normalize_again_iff fixedDigest _ _ hok).mpr ?_⟩
  rw [PlanContent.document, h.roomForName_iff, hnodes, hsize]
  decide

/-- A plan of 262135 bytes is accepted; its snapshot would need 262272. -/
theorem runPlan_not_normalized_again :
    normalizeBusinessWorkOrderPlanV1 fixedDigest (runPlan 32 7876).document.1 =
        .ok ((runPlan 32 7876).snapshot fixedDigest) ∧
      normalizeBusinessWorkOrderPlanV1 fixedDigest ((runPlan 32 7876).snapshot fixedDigest).toJson ≠
        .ok ((runPlan 32 7876).snapshot fixedDigest) := by
  have h := readsContent_run (k := 32) (d := 7876) (by decide) (by decide) (by decide) (by decide)
  have hsize := textSize_runPlan 32 7876
  have hnodes := nodes_runPlan 32 7876
  refine ⟨h.normalize_eq fixedDigest (by rw [hnodes]; decide) (by rw [hsize]; decide), ?_⟩
  intro hagain
  have hroom : RoomForName (runPlan 32 7876).toJson :=
    ((h.readsPlan fixedDigest).planFits_snapshot (PlanContent.wellFormed_toJson _)).mp
      (normalizeBusinessWorkOrderPlanV1_eq_ok.mp hagain).1
  rw [h.roomForName_iff, hsize] at hroom
  exact absurd hroom.2 (by decide)

end Orquesta.Contract
