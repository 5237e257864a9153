import Orquesta.ExecutionKernel.Startable
import Orquesta.Library.Rows

/-!
# Cycles of dependencies

`reconcileTasks` looks for a cycle among the definitions of one call.  Tasks that the call leaves
out keep the dependencies they have; so two calls, neither of which has a cycle, can leave one
(`two_calls_leave_a_cycle`).  No cycle arises as long as no dependency of a definition leads,
through tasks that are left out, back to a task that is defined: a cycle is then one of the
definitions, which is refused, or one of the records from before.

## Main definitions

* `recorded`, `combined`: what tasks depend on, before and after a call
* `LeftOut`: the dependencies of the tasks that a call leaves out
* `Separate`, `SeparateStep`: the condition on a call
* `Stuck`: tasks that wait for each other

## Main results

* `acyclic_of_separate`, `two_calls_leave_a_cycle`
-/

namespace Orquesta.ExecutionKernel

open Checked Contract List OrderedMap Rows Relation

variable {P : Platform} {s s' : KernelState} {ts : OrderedMap Name TaskRecord} {now : Option Time}
    {id : Name}

variable (tasks : OrderedMap Name TaskRecord)

/-- What a task depends on. -/
def recorded (id : Name) : List Name := ((tasks.get? id).map (·.dependencies)).getD []

/-- What a task depends on when definitions are taken over. -/
def combined (definitions : List TaskDefinition) (id : Name) : List Name :=
  ((find (·.taskId) id definitions).map (·.dependencies)).getD (recorded tasks id)

def Acyclic (dependencies : Name → List Name) : Prop :=
  ∀ id, ¬TransGen (Digraph.Edge dependencies) id id

/-- A task that the definitions leave out depends on a task. -/
def LeftOut (definitions : List TaskDefinition) (id other : Name) : Prop :=
  id ∉ definitions.map (·.taskId) ∧ other ∈ recorded tasks id

/-- No definition depends on a task that leads, through tasks that are left out, to a definition. -/
def Separate (P : Platform) (state : KernelState) (inputs : List TaskInput) : Prop :=
  ∀ definitions, inputs.mapM (normalizeTaskDefinition P) = .ok definitions →
    ∀ d ∈ definitions, ∀ id ∈ d.dependencies, ∀ d' ∈ definitions,
      ¬TransGen (LeftOut state.tasks definitions) id d'.taskId

/-- One call, whose definitions are separate. -/
def SeparateStep (P : Platform) (state state' : KernelState) : Prop :=
  (∃ inputs now, Separate P state inputs ∧ reconcileTasks P state inputs now = .ok state') ∨
    (∃ taskId now claim, claimDispatch P state taskId now = .ok (state', claim)) ∨
    ∃ event, applyKernelEvent state event = .ok state'

/-- The tasks have not ended, and each of them waits for one of them. -/
def Stuck (ids : List Name) : Prop :=
  ids ≠ [] ∧ ∀ id ∈ ids, ∃ record, tasks.get? id = some record ∧ ¬record.state.isTerminal ∧
    ∃ other ∈ ids, other ∈ record.dependencies

/-! ## What calls do to the dependencies -/

theorem recorded_refreshEligibility :
    recorded (refreshEligibility s now).tasks = recorded s.tasks := by
  funext id
  rw [recorded, tasks_refreshEligibility, get?_mapValues, recorded]
  cases s.tasks.get? id with
  | none => rfl
  | some r =>
    simp only [Option.map_some, refreshRecord]
    split <;> rfl

theorem recorded_set {r r' : TaskRecord} (hget : ts.get? id = some r)
    (hdp : r'.dependencies = r.dependencies) :
    recorded (ts.set id r') = recorded ts := by
  funext o
  by_cases heq : id = o
  · subst heq
    rw [recorded, get?_set_self, recorded, hget]
    simp [hdp]
  · rw [recorded, get?_set_of_ne _ _ heq, recorded]

theorem combined_of_mem {defs : List TaskDefinition} (hnd : (defs.map (·.taskId)).Nodup)
    {d : TaskDefinition}
    (hd : d ∈ defs) : combined ts defs d.taskId = d.dependencies := by
  rw [combined, find_of_nodup hnd hd]
  rfl

theorem combined_of_not_mem {defs : List TaskDefinition} (hid : id ∉ defs.map (·.taskId)) :
    combined ts defs id = recorded ts id := by
  cases hfind : find (·.taskId) id defs with
  | none =>
    rw [combined, hfind]
    rfl
  | some d => exact absurd (key_of_find hfind ▸ mem_map_of_mem (mem_of_find hfind)) hid

theorem recorded_reconcile {is : List TaskInput} (h : reconcileTasks P s is now = .ok s') :
    ∃ defs, is.mapM (normalizeTaskDefinition P) = .ok defs ∧ assertAcyclic defs = .ok () ∧
      (defs.map (·.taskId)).Nodup ∧ recorded s'.tasks = combined s.tasks defs := by
  obtain ⟨defs, taken, rfl, hrd, hchecked, htak, -⟩ := exists_takenOver h
  refine ⟨defs, hrd, hchecked, htak.nodup, ?_⟩
  rw [recorded_refreshEligibility]
  funext id
  by_cases hid : id ∈ defs.map (·.taskId)
  · obtain ⟨d, hd, rfl⟩ := mem_map.mp hid
    rw [combined_of_mem htak.nodup hd, recorded, htak.written d hd]
    cases s.tasks.get? d.taskId <;> rfl
  · rw [combined_of_not_mem hid, recorded, htak.kept id hid]
    rfl

theorem dependenciesIn_of_mem {defs : List TaskDefinition} (hnd : (defs.map (·.taskId)).Nodup)
    {d : TaskDefinition} (hd : d ∈ defs) : dependenciesIn defs d.taskId = d.dependencies := by
  have hnd' : (defs.reverse.map (·.taskId)).Nodup := by
    rw [map_reverse]
    exact nodup_reverse.mpr hnd
  have hfind := find_of_nodup hnd' (mem_reverse.mpr hd)
  rw [Rows.find] at hfind
  rw [dependenciesIn, hfind]
  rfl

theorem exists_of_edge {defs : List TaskDefinition} {id other : Name}
    (h : Digraph.Edge (dependenciesIn defs) id other) :
    ∃ d ∈ defs, d.taskId = id ∧ other ∈ d.dependencies := by
  rw [Digraph.Edge, dependenciesIn] at h
  cases hfind : defs.reverse.find? (·.taskId = id) with
  | none => simp [hfind] at h
  | some d =>
    rw [hfind] at h
    exact ⟨d, mem_reverse.mp (mem_of_find?_eq_some hfind), by simpa using find?_some hfind, h⟩

/-- Definitions that pass the check have no cycle among them. -/
theorem acyclic_dependenciesIn {defs : List TaskDefinition} (h : assertAcyclic defs = .ok ()) :
    Acyclic (dependenciesIn defs) := by
  simp only [assertAcyclic, chain_eq_ok, mapError_eq_ok] at h
  obtain ⟨visited, hvisit, -⟩ := h
  intro id hcycle
  obtain ⟨_, hedge, -⟩ := TransGen.head'_iff.mp hcycle
  obtain ⟨d, hd, rfl, -⟩ := exists_of_edge hedge
  refine ((Digraph.visitAll_isOk_iff fun id _ other ho => ?_).mp (isOk_iff.mpr ⟨visited, hvisit⟩) _
    (mem_append_left _ (mem_map_of_mem hd))).not_transGen hcycle
  obtain ⟨d', hd', -, hmem⟩ := exists_of_edge ho
  exact mem_append_right _ (mem_flatMap.mpr ⟨d', hd', hmem⟩)

theorem recorded_claim {tid : Name} {c : Claim} (h : claimDispatch P s tid now = .ok (s', c)) :
    recorded s'.tasks = recorded s.tasks := by
  have hrf : recorded (refreshEligibility (normalizeState s) now).tasks = recorded s.tasks :=
    recorded_refreshEligibility
  simp only [claimDispatch, chain_eq_ok, require_eq_ok, ite_eq_ok] at h
  obtain ⟨t, hget, ⟨-, heq⟩ | ⟨-, -, -, heq⟩⟩ := h
  · cases heq
    exact hrf
  · cases heq
    have hdp : (claimRecord P tid t now).dependencies = t.dependencies := rfl
    exact (recorded_set hget hdp).trans hrf

theorem dependencies_updateRecord {e : EventInput} {eid tid : Name} {t upd : TaskRecord}
    (h : updateRecord e eid tid t = .ok upd) : upd.dependencies = t.dependencies := by
  unfold updateRecord at h
  split at h <;> simp only [chain_eq_ok, ite_eq_ok] at h <;> grind

theorem recorded_event {e : EventInput} (h : applyKernelEvent s e = .ok s') :
    recorded s'.tasks = recorded s.tasks := by
  obtain ⟨eid, tid, -, -, ⟨-, rfl⟩ | ⟨-, t, upd, hget, -, -, -, -, hup, rfl⟩⟩ :=
    applyKernelEvent_eq_ok.mp h
  · rfl
  · rw [recorded_refreshEligibility]
    exact recorded_set hget (dependencies_updateRecord hup)

/-! ## Histories -/

/-- Without a cycle there are no tasks that wait for each other. -/
theorem Acyclic.not_stuck (h : Acyclic (recorded ts)) (ids : List Name) : ¬Stuck ts ids := by
  rintro ⟨hne, hst⟩
  refine hne (Digraph.eq_nil_of_acyclic h fun id hid => ?_)
  obtain ⟨r, hget, -, o, ho, hdp⟩ := hst id hid
  refine ⟨o, ho, ?_⟩
  rw [Digraph.Edge, recorded, hget]
  exact hdp

theorem acyclic_reconcile {is : List TaskInput} (hsep : Separate P s is)
    (h : reconcileTasks P s is now = .ok s') (hac : Acyclic (recorded s.tasks)) :
    Acyclic (recorded s'.tasks) := by
  obtain ⟨defs, hrd, hchecked, hnd, heq⟩ := recorded_reconcile h
  rw [heq]
  have hleft {a b : Name} (hab : Digraph.Outward (Digraph.Edge (combined s.tasks defs))
      (· ∈ defs.map (·.taskId)) a b) : LeftOut s.tasks defs a b :=
    ⟨hab.2, combined_of_not_mem hab.2 ▸ hab.1⟩
  refine Digraph.acyclic_of_parts (· ∈ defs.map (·.taskId)) (fun a hcycle => ?_)
    (fun a hcycle => ?_) fun a b c ha hab hpath hc => ?_
  · -- A cycle of definitions is refused.
    refine acyclic_dependenciesIn hchecked a (TransGen.mono (fun a b hab => ?_) _ _ hcycle)
    obtain ⟨d, hd, rfl⟩ := mem_map.mp hab.2.1
    have hedge := hab.1
    rwa [Digraph.Edge, combined_of_mem hnd hd, ← dependenciesIn_of_mem hnd hd] at hedge
  · -- A cycle of records was there before.
    exact hac a (TransGen.mono (fun a b hab => (hleft hab).2) _ _ hcycle)
  · obtain ⟨d, hd, rfl⟩ := mem_map.mp ha
    obtain ⟨d', hd', rfl⟩ := mem_map.mp hc
    rw [Digraph.Edge, combined_of_mem hnd hd] at hab
    exact hsep defs hrd d hd b hab d' hd' (TransGen.mono (fun _ _ => hleft) _ _ hpath)

theorem SeparateStep.acyclic (h : SeparateStep P s s') (hac : Acyclic (recorded s.tasks)) :
    Acyclic (recorded s'.tasks) := by
  rcases h with ⟨is, now, hsep, hok⟩ | ⟨tid, now, c, hok⟩ | ⟨e, hok⟩
  · exact acyclic_reconcile hsep hok hac
  · rwa [recorded_claim hok]
  · rwa [recorded_event hok]

/-- **If all calls are separate, then no tasks depend on each other in a cycle, and none wait for
each other.** -/
theorem acyclic_of_separate {maxConcurrent : ℕ+} {updatedAt : Option Time} {state : KernelState}
    (h : ReflTransGen (SeparateStep P) (createKernelState maxConcurrent updatedAt) state) :
    Acyclic (recorded state.tasks) ∧ ∀ ids, ¬Stuck state.tasks ids := by
  have hacyclic : Acyclic (recorded state.tasks) := by
    induction h with
    | refl =>
      intro id hcycle
      obtain ⟨_, hedge, -⟩ := TransGen.head'_iff.mp hcycle
      cases hedge
    | tail _ hstep ih => exact hstep.acyclic ih
  exact ⟨hacyclic, hacyclic.not_stuck⟩

/-- Definitions that no record depends on are separate. -/
theorem separate_of_unneeded {is : List TaskInput} {defs : List TaskDefinition}
    (hrd : is.mapM (normalizeTaskDefinition P) = .ok defs)
    (h : ∀ record ∈ s.tasks.values, ∀ d ∈ defs, d.taskId ∉ record.dependencies) :
    Separate P s is := by
  intro defs' hrd' _ _ _ _ d hd hpath
  obtain rfl := Except.ok.inj (hrd.symm.trans hrd')
  obtain ⟨id, -, -, hmem⟩ := TransGen.tail'_iff.mp hpath
  rw [recorded] at hmem
  cases hget : s.tasks.get? id with
  | none => simp [hget] at hmem
  | some record =>
    rw [hget] at hmem
    exact h record (mem_values_of_get? hget) d hd hmem

/-- Two tasks, of which the second depends on the first. -/
def firstCall : List TaskInput :=
  [{ taskId := "T-1" }, { taskId := "T-2", dependencies := ["T-1"] }]

/-- A task that depends on one of an earlier call, and a task that depends on it. -/
def secondCall : List TaskInput :=
  [{ taskId := "T-4", dependencies := ["T-3", "T-1"] },
    { taskId := "T-3", dependencies := ["T-2"] }]

theorem acyclic_of_separate_secondCall : ∃ before state,
    reconcileTasks plainPlatform (createKernelState 1 none) firstCall none = .ok before ∧
      reconcileTasks plainPlatform before secondCall none = .ok state ∧
      state.tasks.values.map (·.dependencies.map Name.text) = [[], ["T-1"], ["T-1", "T-3"],
        ["T-2"]] ∧
      Acyclic (recorded state.tasks) ∧ ∀ ids, ¬Stuck state.tasks ids := by
  have hruns : (do
      let before ← reconcileTasks plainPlatform (createKernelState 1 none) firstCall none
      let state ← reconcileTasks plainPlatform before secondCall none
      let defs ← secondCall.mapM (normalizeTaskDefinition plainPlatform)
      return (state.tasks.values.map fun task : TaskRecord => task.dependencies.map Name.text,
        decide (∀ record ∈ before.tasks.values, ∀ d ∈ defs, d.taskId ∉ record.dependencies))) =
      .ok ([[], ["T-1"], ["T-1", "T-3"], ["T-2"]], true) := by decide
  simp only [bind_eq_ok, pure_eq_ok, Prod.mk.injEq, decide_eq_true_eq] at hruns
  obtain ⟨before, hfirst, state, hsecond, defs, hdefs, htasks, hunneeded⟩ := hruns
  have hstart : Separate plainPlatform (createKernelState 1 none) firstCall :=
    fun _ _ _ _ _ _ _ _ hpath => by
      obtain ⟨_, -, -, hmem⟩ := TransGen.tail'_iff.mp hpath
      cases hmem
  exact ⟨before, state, hfirst, hsecond, htasks, acyclic_of_separate
    ((ReflTransGen.single (.inl ⟨firstCall, none, hstart, hfirst⟩)).tail
      (.inl ⟨secondCall, none, separate_of_unneeded hdefs hunneeded, hsecond⟩))⟩

/-- Two calls, each with one task that depends on the task of the other. -/
def twoCalls (maxConcurrent : ℕ+) : Except Thrown KernelState := do
  let state ← reconcileTasks plainPlatform (createKernelState maxConcurrent none)
    [{ taskId := "T-1", dependencies := ["T-2"] }] none
  reconcileTasks plainPlatform state [{ taskId := "T-2", dependencies := ["T-1"] }] none

/-- Both calls are accepted, and the tasks depend on each other. -/
theorem two_calls_leave_a_cycle :
    ∃ state, twoCalls 1 = .ok state ∧ ¬Acyclic (recorded state.tasks) := by
  have hrecorded : (twoCalls 1).map (fun state => (recorded state.tasks firstTask,
      recorded state.tasks secondTask)) = .ok ([secondTask], [firstTask]) := by decide
  obtain ⟨state, hok, heq⟩ := map_eq_ok.mp hrecorded
  obtain ⟨hfirst, hother⟩ := Prod.mk.inj heq
  refine ⟨state, hok, fun h => h firstTask (.head (b := secondTask) ?_ (.single ?_))⟩
  · rw [Digraph.Edge, hfirst]
    exact mem_singleton_self _
  · rw [Digraph.Edge, hother]
    exact mem_singleton_self _

end Orquesta.ExecutionKernel
