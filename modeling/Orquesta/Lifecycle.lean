import Orquesta.State.Projection
import Orquesta.Library.Lineage

/-!
# The provider-effect lifecycle

The lifecycle meaning the decider and the projector share.  The effects of a
branch are grouped into operation goals; within a goal, explicit generations
form the retry lineage, and recovery attention mirrors ambiguity.  A Work Order
is coherent when no violation is found; the projector demands it at every
receipt.

The source sorts effects, goals and attention before it looks at them, so that
the list of violations does not depend on insertion order.  Here they are read
in insertion order; only whether the list is empty is ever used.

## Main definitions

* `attemptScope`, `goalDisposition`
* `branchViolations`, `lifecycleViolations`
* `unresolvedEffects`

## Main results

* `goal_lineage`: in a coherent Work Order every operation goal is a lineage, in which a member is
  retired when it was proven not sent
-/

namespace Orquesta

open List Prod

/-- Where an effect stands relative to the current attempt of a branch. -/
inductive AttemptScope
  | unbound | current | prior | future
deriving DecidableEq

def attemptScope (e : EffectSeed) (b : Branch) : AttemptScope :=
  if e.branchRef ≠ b.branchRef then .unbound
  else if e.attempt = b.attempt ∧ some e.dispatchId = b.dispatchId then .current
  else if e.attempt < b.attempt ∨ (e.attempt = b.attempt ∧ some e.dispatchId ≠ b.dispatchId) then
    .prior
  else .future

inductive GoalDisposition
  | operatorAttention | achieved | retryable | abandoned | ambiguous | open
deriving DecidableEq

def goalDisposition (e : Effect) : GoalDisposition :=
  if e.status = .notSent ∧ e.settlementPolicy.map SettlementPolicy.disposition =
      some .operatorAttention then .operatorAttention
  else match e.status with
    | .delivered => .achieved
    | .notSent => .retryable
    | .cancelled => .abandoned
    | .deliveryUnknown => .ambiguous
    | .pending | .claimed | .sending => .open

/-- The violation codes. -/
inductive Violation
  | effectContractVersionMismatch | effectMapIdentityMismatch | effectBranchIdentityMismatch
  | effectOperationGenerationInvalid | effectAheadOfBranchAttempt | effectIdentityDuplicate
  | operationGenerationCycle | operationGenerationRootHasPredecessor
  | operationGenerationPredecessorMissing | operationGenerationPredecessorOrphaned
  | operationGenerationGoalMismatch | operationGenerationGap
  | operationGenerationPredecessorNotRetryable | operationGenerationDuplicate
  | operationGenerationFork | multipleUnresolvedGenerationsForOperationGoal
  | multipleUnresolvedEffectsForOperationLane | attentionMapIdentityMismatch
  | recoveryAttentionEffectMissing | recoveryAttentionEffectNotRecoverable
  | deliveryUnknownRecoveryAttentionMissing | operatorAttentionEffectMismatch
  | operatorAttentionMissing | recoveryAttentionBranchMissing

/-- Report `v` when `c` holds. -/
def violationIf (c : Prop) [Decidable c] (v : Violation) : List Violation :=
  if c then [v] else []

@[simp] theorem violationIf_eq_nil {c : Prop} [Decidable c] {v : Violation} :
    violationIf c v = [] ↔ ¬ c := by
  unfold violationIf
  split <;> simp_all

/-- The outbox entries of a Work Order. -/
def workOrderEffects (workOrderId : Ref) (outbox : OrderedMap Ref Effect) : List (Ref × Effect) :=
  outbox.entries.filter fun p => p.2.workOrderId = workOrderId

/-- The entries of one branch. -/
def branchEffects (b : Branch) (effects : List (Ref × Effect)) : List (Ref × Effect) :=
  effects.filter fun p => p.2.branchRef = b.branchRef

def invalidEffectViolations (b : Branch) (key : Ref) (e : Effect) : List Violation :=
  violationIf (e.effectContractVersion ≠ .v2) .effectContractVersionMismatch ++
  violationIf (e.effectId ≠ key) .effectMapIdentityMismatch ++
  violationIf (e.operationGeneration < 1) .effectOperationGenerationInvalid ++
  violationIf (attemptScope e.toEffectSeed b = .future) .effectAheadOfBranchAttempt

/-- The entries that take part in generation lineages. -/
def lineageEffects (entries : List (Ref × Effect)) : List Effect :=
  (entries.map snd).filter fun e =>
    e.effectContractVersion = .v2 ∧ 1 ≤ e.operationGeneration

/-- `effectEntryById`: the first entry with an effect identifier. -/
def effectEntryById (lineage : List Effect) (effectId : Ref) : Option Effect :=
  lineage.find? (·.effectId = effectId)

/-- Whether following generation predecessors from `effectId` meets `target` within `n` steps. -/
def generationReaches (lineage : List Effect) (target : Ref) : Nat → Ref → Bool
  | 0, _ => false
  | n + 1, effectId =>
    match (effectEntryById lineage effectId).bind (·.generationPredecessorEffectId) with
    | none => false
    | some p => p = target || generationReaches lineage target n p

section Goals

variable (env : Environment)

variable (lineage : List Effect)

/-- The checks on one member of an operation goal. -/
def memberViolations (goalId : Ref) (m : Effect) : List Violation :=
  if m.operationGeneration = 1 then
    violationIf (m.generationPredecessorEffectId ≠ none) .operationGenerationRootHasPredecessor
  else match m.generationPredecessorEffectId with
    | none => [.operationGenerationPredecessorMissing]
    | some p =>
      match effectEntryById lineage p with
      | none => [.operationGenerationPredecessorOrphaned]
      | some predecessor =>
        violationIf (env.effectOperationGoalIdV2 predecessor.toEffectSeed ≠ goalId)
          .operationGenerationGoalMismatch ++
        violationIf (predecessor.operationGeneration + 1 ≠ m.operationGeneration)
          .operationGenerationGap ++
        violationIf (predecessor.status ≠ .notSent) .operationGenerationPredecessorNotRetryable

/-- The members of an operation goal. -/
def goalMembers (goalId : Ref) : List Effect :=
  lineage.filter fun e => env.effectOperationGoalIdV2 e.toEffectSeed = goalId

/-- The checks on one operation goal. -/
def goalViolations (goalId : Ref) : List Violation :=
  let members := goalMembers env lineage goalId
  members.flatMap (memberViolations env lineage goalId) ++
  violationIf (¬ (members.map (·.operationGeneration)).Nodup) .operationGenerationDuplicate ++
  violationIf (¬ (members.filterMap (·.generationPredecessorEffectId)).Nodup)
    .operationGenerationFork ++
  violationIf (1 < members.countP (·.status.isUnresolved))
    .multipleUnresolvedGenerationsForOperationGoal

/-- The checks on one operation lane. -/
def laneViolations (laneId : Ref) : List Violation :=
  violationIf
    (1 < (lineage.filter fun e => env.effectOperationLaneIdV2 e.toEffectSeed = laneId).countP
      (·.status.isUnresolved))
    .multipleUnresolvedEffectsForOperationLane

/-- The identity, lineage, goal and lane checks on the effects of a branch. -/
def lineageViolations : List Violation :=
  violationIf (¬ (lineage.map (·.effectId)).Nodup) .effectIdentityDuplicate ++
  violationIf (∃ e ∈ lineage, generationReaches lineage e.effectId lineage.length e.effectId)
    .operationGenerationCycle ++
  ((lineage.map fun e => env.effectOperationGoalIdV2 e.toEffectSeed).dedup.flatMap
    (goalViolations env lineage)) ++
  ((lineage.map fun e => env.effectOperationLaneIdV2 e.toEffectSeed).dedup.flatMap
    (laneViolations env lineage))

end Goals

/-! ## Attention -/

section Attention

variable (attention : OrderedMap Ref Attention) (b : Branch) (entries : List (Ref × Effect))

/-- `effectById`: a later entry hides an earlier one with the same identifier. -/
def effectById (effectId : Ref) : Option Effect :=
  (entries.map snd).reverse.find? (·.effectId = effectId)

/-- The open attention of a branch of the kinds selected by `p`. -/
def openBranchAttention (p : AttentionKind → Bool) : List (Ref × Attention) :=
  attention.entries.filter fun q => q.2.isOpen && q.2.branchRef = some b.branchRef && p q.2.kind

def recoveryAttentionViolations (q : Ref × Attention) : List Violation :=
  violationIf (q.2.attentionId ≠ q.1) .attentionMapIdentityMismatch ++
  match q.2.effectId.bind (effectById entries) with
  | none => [.recoveryAttentionEffectMissing]
  | some bound => violationIf (bound.status ≠ .sending ∧ bound.status ≠ .deliveryUnknown)
      .recoveryAttentionEffectNotRecoverable

/-- The effects the open recovery attention of a branch is bound to. -/
def recoveryAttentionEffectIds : List Ref :=
  (openBranchAttention attention b AttentionKind.isRecovery).filterMap fun q =>
    (q.2.effectId.bind (effectById entries)).map (·.effectId)

/-- The effect an open operator attention record is bound to. -/
def operatorAttentionEffect (q : Ref × Attention) : Option Effect :=
  if q.2.attentionId = q.1 then
    (q.2.effectId.bind (effectById entries)).filter (goalDisposition · = .operatorAttention)
  else none

def operatorAttentionEffectIds : List Ref :=
  (openBranchAttention attention b AttentionKind.isOperator).filterMap fun q =>
    (operatorAttentionEffect entries q).map (·.effectId)

def attentionViolations : List Violation :=
  (openBranchAttention attention b AttentionKind.isRecovery).flatMap
    (recoveryAttentionViolations entries) ++
  (entries.flatMap fun p => violationIf
    (p.2.status = .deliveryUnknown ∧ p.2.effectId ∉ recoveryAttentionEffectIds attention b entries)
    .deliveryUnknownRecoveryAttentionMissing) ++
  ((openBranchAttention attention b AttentionKind.isOperator).flatMap fun q => violationIf
    (operatorAttentionEffect entries q = none) .operatorAttentionEffectMismatch) ++
  (entries.flatMap fun p => violationIf
    (goalDisposition p.2 = .operatorAttention ∧
      p.2.effectId ∉ operatorAttentionEffectIds attention b entries)
    .operatorAttentionMissing)

end Attention

/-! ## Branches and Work Orders -/

section WorkOrder

variable (env : Environment)

/-- The violations of one branch, `deriveBranchLifecycleSnapshot(..).violations`. -/
def branchViolations (attention : OrderedMap Ref Attention) (b : Branch)
    (effects : List (Ref × Effect)) : List Violation :=
  let entries := branchEffects b effects
  (entries.flatMap fun p => invalidEffectViolations b p.1 p.2) ++
  lineageViolations env (lineageEffects entries) ++
  attentionViolations attention b entries

/-- `unresolved_effect_ids` of one branch. -/
def unresolvedEffectIds (b : Branch) (effects : List (Ref × Effect)) : List Ref :=
  ((branchEffects b effects).filter (·.2.status.isUnresolved)).map (·.2.effectId)

/-- Whether a reference names no branch of the Work Order. -/
def WorkOrder.branchMissing (w : WorkOrder) : Option Ref → Bool
  | none => true
  | some r => (w.branches.get? r).isNone

/-- The violations of a Work Order over its own outbox entries,
`deriveLifecycleSnapshot(..).violations`. -/
def lifecycleViolations (w : WorkOrder) (effects : List (Ref × Effect)) : List Violation :=
  match w.engineContractVersion with
  | .v1 => []
  | .v2 =>
    (w.branches.values.flatMap fun b => branchViolations env w.attention b effects) ++
    (effects.flatMap fun p => violationIf (w.branchMissing (some p.2.branchRef))
      .effectBranchIdentityMismatch) ++
    ((w.attention.entries.filter fun q => q.2.isOpen && q.2.kind.isRecovery).flatMap fun q =>
      violationIf (q.2.attentionId ≠ q.1 ∧ w.branchMissing q.2.branchRef)
        .attentionMapIdentityMismatch ++
      violationIf (w.branchMissing q.2.branchRef) .recoveryAttentionBranchMissing)

/-! ## Coherent Work Orders -/

/-- Branches are stored under their own references. -/
def WorkOrder.BranchKeys (w : WorkOrder) : Prop :=
  ∀ r b, w.branches.get? r = some b → b.branchRef = r

variable {env} {w : WorkOrder} {es : List (Ref × Effect)}

theorem branchViolations_eq_nil (hv : w.engineContractVersion = .v2)
    (h : lifecycleViolations env w es = []) {b : Branch} (hb : b ∈ w.branches.values) :
    branchViolations env w.attention b es = [] := by
  simp only [lifecycleViolations, hv, append_eq_nil_iff, flatMap_eq_nil_iff] at h
  exact h.1.1 b hb

/-- Every effect of a coherent Work Order belongs to one of its branches. -/
theorem exists_branch_of_coherent (hv : w.engineContractVersion = .v2)
    (h : lifecycleViolations env w es = []) {p : Ref × Effect} (hp : p ∈ es) :
    ∃ b, w.branches.get? p.2.branchRef = some b := by
  simp only [lifecycleViolations, hv, append_eq_nil_iff, flatMap_eq_nil_iff,
    violationIf_eq_nil, WorkOrder.branchMissing, Option.isNone_iff_eq_none] at h
  exact Option.ne_none_iff_exists'.mp (h.1.2 p hp)

theorem invalidEffectViolations_eq_nil {b : Branch} {attention : OrderedMap Ref Attention}
    (h : branchViolations env attention b es = []) {p : Ref × Effect} (hp : p ∈ es)
    (hr : p.2.branchRef = b.branchRef) :
    p.2.effectContractVersion = .v2 ∧ p.2.effectId = p.1 ∧ 1 ≤ p.2.operationGeneration ∧
      attemptScope p.2.toEffectSeed b ≠ .future := by
  simp only [branchViolations, append_eq_nil_iff, flatMap_eq_nil_iff] at h
  have hmem : p ∈ branchEffects b es := mem_filter.mpr ⟨hp, by simpa using hr⟩
  have := h.1.1 p hmem
  simp only [invalidEffectViolations, append_eq_nil_iff, violationIf_eq_nil, ne_eq,
    not_not, Nat.not_lt] at this
  exact ⟨this.1.1.1, this.1.1.2, this.1.2, this.2⟩

theorem mem_lineageEffects {b : Branch} {e : Effect} : e ∈ lineageEffects (branchEffects b es) ↔
      (∃ k, (k, e) ∈ es) ∧ e.branchRef = b.branchRef ∧
        e.effectContractVersion = .v2 ∧ 1 ≤ e.operationGeneration := by
  simp only [lineageEffects, branchEffects, mem_filter, mem_map, Prod.exists,
    decide_eq_true_eq]
  constructor
  · rintro ⟨⟨k, _, ⟨hk, hr⟩, rfl⟩, hv, hg⟩
    exact ⟨⟨k, hk⟩, hr, hv, hg⟩
  · rintro ⟨⟨k, hk⟩, hr, hv, hg⟩
    exact ⟨⟨k, e, ⟨hk, hr⟩, rfl⟩, hv, hg⟩

theorem goalViolations_eq_nil {b : Branch} {attention : OrderedMap Ref Attention}
    (h : branchViolations env attention b es = []) {e : Effect}
    (he : e ∈ lineageEffects (branchEffects b es)) :
    goalViolations env (lineageEffects (branchEffects b es))
      (env.effectOperationGoalIdV2 e.toEffectSeed) = [] := by
  simp only [branchViolations, lineageViolations, append_eq_nil_iff,
    flatMap_eq_nil_iff, mem_dedup, mem_map, forall_exists_index, and_imp] at h
  exact h.1.2.1.2 _ e he rfl

/-- A member that is not a root names a member one generation earlier that was proven not sent. -/
theorem exists_predecessor {lineage : List Effect} {goalId : Ref} {m : Effect}
    (h : memberViolations env lineage goalId m = []) :
    m.operationGeneration = 1 ∨ ∃ p ∈ lineage, env.effectOperationGoalIdV2 p.toEffectSeed = goalId ∧
      p.operationGeneration + 1 = m.operationGeneration ∧ p.status = .notSent := by
  unfold memberViolations at h
  split at h
  · exact Or.inl ‹_›
  · right
    split at h
    · cases h
    · split at h
      · cases h
      · rename_i predecessor hfi
        simp only [append_eq_nil_iff, violationIf_eq_nil, ne_eq, not_not] at h
        exact ⟨predecessor, mem_of_find?_eq_some hfi, h.1.1, h.1.2, h.2⟩

/-- **Every operation goal of a coherent Work Order is a lineage**: its generations are distinct,
and what precedes a generation was proven not sent. -/
theorem goal_lineage (hv : w.engineContractVersion = .v2) (hkeys : w.BranchKeys)
    (h : lifecycleViolations env w es = []) (ref goalId : Ref) :
    Lineage (fun e => (∃ k, (k, e) ∈ es) ∧ e.branchRef = ref ∧
        env.effectOperationGoalIdV2 e.toEffectSeed = goalId)
      (fun e => e.operationGeneration) (fun e => e.status = .notSent) := by
  -- every member lies in the branch's lineage entries, whose goal was checked
  have key : ∀ e, (∃ k, (k, e) ∈ es) → e.branchRef = ref →
      ∃ b, branchViolations env w.attention b es = [] ∧ b.branchRef = ref ∧
        e ∈ lineageEffects (branchEffects b es) := by
    rintro e ⟨k, hk⟩ hr
    obtain ⟨b, hb⟩ := exists_branch_of_coherent hv h hk
    have href : b.branchRef = ref := (hkeys _ b hb).trans hr
    have hnil := branchViolations_eq_nil hv h (OrderedMap.mem_values_of_get? hb)
    obtain ⟨hver, -, hgen, -⟩ := invalidEffectViolations_eq_nil hnil hk (hr.trans href.symm)
    exact ⟨b, hnil, href, mem_lineageEffects.mpr ⟨⟨k, hk⟩, hr.trans href.symm, hver, hgen⟩⟩
  refine ⟨?_, ?_, ?_⟩
  · rintro a c ⟨ha, hra, hga⟩ ⟨hc, hrc, hgc⟩ hgen
    obtain ⟨b, hnil, href, hmem⟩ := key a ha hra
    have hcmem : c ∈ lineageEffects (branchEffects b es) := by
      obtain ⟨b', -, href', hmem'⟩ := key c hc hrc
      obtain ⟨-, -, hver, hpos⟩ := mem_lineageEffects.mp hmem'
      exact mem_lineageEffects.mpr ⟨hc, hrc.trans href.symm, hver, hpos⟩
    have hgoal := goalViolations_eq_nil hnil hmem
    simp only [goalViolations, append_eq_nil_iff, violationIf_eq_nil, not_not] at hgoal
    refine inj_on_of_nodup_map hgoal.1.1.2 ?_ ?_ hgen
    · exact mem_filter.mpr ⟨hmem, by simp⟩
    · exact mem_filter.mpr ⟨hcmem, by simp [hga, hgc]⟩
  · rintro a ⟨ha, hra, hga⟩
    obtain ⟨b, hnil, href, hmem⟩ := key a ha hra
    have hgoal := goalViolations_eq_nil hnil hmem
    simp only [goalViolations, append_eq_nil_iff, flatMap_eq_nil_iff] at hgoal
    have hself : a ∈ goalMembers env (lineageEffects (branchEffects b es))
        (env.effectOperationGoalIdV2 a.toEffectSeed) := mem_filter.mpr ⟨hmem, by simp⟩
    rcases exists_predecessor (hgoal.1.1.1 a hself) with hro | ⟨p, hp, hpg, hgen, hsts⟩
    · exact Or.inl (Nat.le_of_eq hro)
    · obtain ⟨hpe, hpr, -, -⟩ := mem_lineageEffects.mp hp
      exact Or.inr ⟨p, ⟨hpe, hpr.trans href, hpg.trans hga⟩, hgen, hsts⟩
  · rintro a ⟨ha, hra, -⟩
    obtain ⟨b, -, -, hmem⟩ := key a ha hra
    exact (mem_lineageEffects.mp hmem).2.2.2

end WorkOrder

end Orquesta
