import Orquesta.LeaseFencing

/-!
# At-most-once provider mutation

An operation goal is one provider mutation of one attempt: its effects are the
generations in which it was tried.  A later generation is enqueued only when the
earlier one was proven not sent, so at most one of them can have reached the
provider; and one effect is sent at most once, because a lease that was sent is
never claimed again.

## Main definitions

* `OperationGoal`, `goalEffects`
* `EffectStatus.mayHaveMutated`

## Main results

* `coherent_of_closed`: a closed V2 Work Order has no lifecycle violation
* `at_most_one_provider_mutation`: **at most once**
-/

namespace Orquesta

open Checked FencedLease OrderedMap

variable {env : Environment} {P : Projection} {hist : List Event}

/-- One provider mutation of one attempt, which several generations may try. -/
structure OperationGoal extends OperationLane where
  operationScopeHash : Digest
deriving DecidableEq

def EffectSeed.operationGoal (s : EffectSeed) : OperationGoal :=
  ⟨s.operationLane, s.operationScopeHash⟩

/-- The effects of a goal. -/
def goalEffects (P : Projection) (goal : OperationGoal) : List Effect :=
  P.outbox.values.filter (·.operationGoal = goal)

/-- The statuses of an effect the provider may have acted on. -/
def EffectStatus.mayHaveMutated : EffectStatus → Bool
  | .sending | .deliveryUnknown | .delivered => true
  | .pending | .claimed | .notSent | .cancelled => false

/-- The event is a `business.outbox.send_begun` event of the effect. -/
def Event.beginsSend (effectId : Ref) (e : Event) : Bool :=
  match e.body with
  | .outboxSendBegun p => p.effectId = effectId
  | _ => false

/-- A closed V2 Work Order has a coherent lifecycle. -/
theorem coherent_of_closed (h : History env hist P) {id : Ref} {w : WorkOrder}
    (hw : P.workOrders.get? id = some w) (hv : w.engineContractVersion = .v2)
    (hp : w.pendingProjectionInput = none) :
    lifecycleViolations env w (workOrderEffects w.workOrderId P.outbox) = [] := by
  have hcl := h.closed id w hw hp
  simp only [validateDurableInputClosure, requireLifecycleSnapshot, hv, chain_eq_ok, if_true] at hcl
  exact hcl.2.1

theorem mem_goalEffects {goal : OperationGoal} {x : Effect} :
    x ∈ goalEffects P goal ↔ x ∈ P.outbox.values ∧ x.operationGoal = goal := by
  simp [goalEffects]

/-- In a closed V2 Work Order the effects of a goal are members of one lineage, in which what was
proven not sent is retired. -/
theorem exists_goal_lineage (h : History env hist P) {goal : OperationGoal} {w : WorkOrder}
    (hw : P.workOrders.get? goal.workOrderId = some w) (hv : w.engineContractVersion = .v2)
    (hp : w.pendingProjectionInput = none) :
    ∃ Mem : Effect → Prop, Lineage Mem (fun x => x.operationGeneration)
        (fun x => x.status = .notSent) ∧ ∀ x ∈ goalEffects P goal, Mem x := by
  obtain ⟨hid, hkeys⟩ := h.wellKeyed.workOrders _ w hw
  -- the lifecycle groups effects by the goal identifier, a hash of lane and scope
  refine ⟨_, goal_lineage hv hkeys (coherent_of_closed h hw hv hp) goal.branchRef
    (env.derivedId .goal (.operationGoal (env.derivedId .lane (.operationLane goal.toOperationLane))
      goal.operationScopeHash)), ?_⟩
  intro x hx
  obtain ⟨hval, rfl⟩ := mem_goalEffects.mp hx
  obtain ⟨k, hk⟩ := mem_values.mp hval
  exact ⟨⟨k, mem_workOrderEffects.mpr ⟨hk, hid.symm⟩⟩, rfl, rfl⟩

theorem not_notSent_of_mayHaveMutated {x : Effect} (h : x.status.mayHaveMutated) :
    ¬ x.status = .notSent := by
  intro hx
  rw [hx] at h
  cases h

/-- A send event of an effect is a send of its lease. -/
theorem beginsSend_eq (eid : Ref) (e : Event) :
    e.beginsSend eid = ((e.leaseAction? eid).map Action.isSend).getD false := by
  unfold Event.beginsSend Event.leaseAction?
  cases e.body <;> first | rfl | (dsimp only; split <;> simp_all [Action.isSend])

/-- No effect is sent twice. -/
theorem countP_beginsSend_le_one (h : History env hist P) (eid : Ref) :
    hist.countP (Event.beginsSend eid) ≤ 1 := by
  have hcnt : hist.countP (Event.beginsSend eid) =
      (leaseActions eid hist).countP Action.isSend := by
    rw [leaseActions, List.countP_filterMap]
    exact List.countP_congr fun e _ => by rw [beginsSend_eq]
  have hle := h.lease_run eid
  rw [hcnt]
  cases hx : P.outbox.get? eid with
  | none =>
    rw [hx] at hle
    rw [show leaseActions eid hist = [] from hle]
    exact Nat.zero_le 1
  | some x =>
    rw [hx] at hle
    obtain ⟨s, run, -⟩ := hle
    exact run.countP_send_le_one

theorem Projection.WellKeyed.nodup_values (hk : P.WellKeyed) : P.outbox.values.Nodup := by
  have hkeys : P.outbox.values.map (fun x => x.effectId) = P.outbox.keys := by
    rw [values, keys, List.map_map]
    refine List.map_congr_left fun p hp => ?_
    exact hk.outbox p.1 p.2 (get?_eq_some.mpr hp)
  have hn : (P.outbox.values.map fun x => x.effectId).Nodup := by
    rw [hkeys]
    exact P.outbox.nodup
  exact hn.of_map

/-- **At-most-once provider mutation.**  After every accepted run, in every V2 Work Order whose last
input is closed, at most one effect of an operation goal may have mutated the provider, and then
every other one is proven not sent; and no effect was sent twice. -/
theorem at_most_one_provider_mutation {steps : List (BusinessEvent × Option Batch)}
    (hrun : runAll (projectStep env) initialBusinessProjectionV1 steps = .ok P) :
    (∀ goal w, P.workOrders.get? goal.workOrderId = some w → w.engineContractVersion = .v2 →
      w.pendingProjectionInput = none →
      (goalEffects P goal).countP (·.status.mayHaveMutated) ≤ 1 ∧
      ∀ x ∈ goalEffects P goal, x.status.mayHaveMutated →
        ∀ y ∈ goalEffects P goal, y ≠ x → y.status = .notSent) ∧
    ∀ effectId, (enteredEvents env initialBusinessProjectionV1 steps).countP
      (Event.beginsSend effectId) ≤ 1 := by
  have hist := history_of_run hrun
  refine ⟨fun goal w hw hv hp => ?_, countP_beginsSend_le_one hist⟩
  obtain ⟨Mem, hlin, hmem⟩ := exists_goal_lineage hist hw hv hp
  refine ⟨?_, fun x hx hmut y hy hne => ?_⟩
  · exact hlin.countP_le_one (hist.wellKeyed.nodup_values.filter _) hmem
      fun _ => not_notSent_of_mayHaveMutated
  · by_contra hns
    exact hne (hlin.eq_of_not_retired (hmem y hy) (hmem x hx) hns
      (not_notSent_of_mayHaveMutated hmut))

/-- An effect is sent, and then its successor. -/
theorem at_most_one_provider_mutation_sentAgain : ∃ P x y,
    runAll (projectStep plainEnvironment) initialBusinessProjectionV1 sentAgain = .ok P ∧
    goalEffects P threadCreation.operationGoal = [x, y] ∧ y.status = .sending ∧
    x.status = .notSent ∧
    (enteredEvents plainEnvironment initialBusinessProjectionV1 sentAgain).countP
      (Event.beginsSend "effect") ≤ 1 := by
  obtain ⟨P, x, y, w, hrun, hgoal, hne, hsending, hw, hv, hpending⟩ : ∃ P x y w,
      runAll (projectStep plainEnvironment) initialBusinessProjectionV1 sentAgain = .ok P ∧
      goalEffects P threadCreation.operationGoal = [x, y] ∧ x ≠ y ∧ y.status = .sending ∧
      P.workOrders.get? "workOrder" = some w ∧ w.engineContractVersion = .v2 ∧
      w.pendingProjectionInput = none :=
    ⟨_, _, _, _, rfl, rfl, by decide, rfl, rfl, rfl, rfl⟩
  obtain ⟨hone, hsends⟩ := at_most_one_provider_mutation hrun
  obtain ⟨-, hothers⟩ := hone threadCreation.operationGoal w hw hv hpending
  rw [hgoal] at hothers
  have hretired : x.status = .notSent := hothers y (by simp) (by rw [hsending]; rfl) x (by simp) hne
  exact ⟨P, x, y, hrun, hgoal, hsending, hretired, hsends "effect"⟩

end Orquesta
