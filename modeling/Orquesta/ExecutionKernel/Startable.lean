import Orquesta.ExecutionKernel.TickOutcomes

/-!
# Which tasks a tick may start

A tick starts only tasks that are eligible once the definitions are taken over.  Taking them
over keeps the state and the retry of every task that exists; so a task that is started was
new, or it was `Startable` before the tick: nothing holds it back, and every task it depends
on is accepted.

## Main definitions

* `DependenciesMet`, `Startable`

## Main results

* `exists_takenOver`, `adopted_iff`: what taking over definitions does to the tasks
* `startable_of_started`: what is known of a task that a tick starts
* `started_eq_planned_iff`: when a tick starts what is planned
-/

namespace Orquesta.ExecutionKernel

open Checked Contract List OrderedMap

variable {P : Platform} {ts : OrderedMap Name TaskRecord} {r : TaskRecord}
  {now : Option Time} {id : Name}

/-- Every task that the record depends on is accepted. -/
def DependenciesMet (tasks : OrderedMap Name TaskRecord) (record : TaskRecord) : Prop :=
  ∀ id ∈ record.dependencies, ∃ dependency, tasks.get? id = some dependency ∧
    dependency.state = .accepted

/-- The task becomes eligible when eligibility is refreshed. -/
def Startable (tasks : OrderedMap Name TaskRecord) (now : Option Time) (record : TaskRecord) :
    Prop :=
  record.isLeftAlone now = false ∧ DependenciesMet tasks record

/-- A dependency is missing, unresolved or blocked unless it is accepted. -/
theorem desired_eq_eligible_iff :
    (dependencyStatus ts r).desired = .eligible ↔ DependenciesMet ts r := by
  have hiff : (dependencyStatus ts r).desired = .eligible ↔
      (dependencyStatus ts r).missing = [] ∧ (dependencyStatus ts r).unresolved = [] ∧
      (dependencyStatus ts r).terminalBlockers = [] := by
    unfold DependencyStatus.desired
    split
    · rename_i h
      refine iff_of_false nofun fun hall => ?_
      rcases h with h | h | h
      · exact h hall.1
      · exact h hall.2.1
      · exact h hall.2.2
    · rename_i h
      push Not at h
      exact iff_of_true rfl h
  rw [hiff, dependencyStatus, filter_eq_nil_iff, filter_eq_nil_iff, filter_eq_nil_iff,
    ← forall₂_and, ← forall₂_and, DependenciesMet]
  refine forall₂_congr fun id _ => ?_
  cases hget : ts.get? id with
  | none => cases isInherited id <;> simp
  | some dep => cases hst : dep.state <;> simp [TaskState.isTerminal, hst]

theorem refreshRecord_eq_eligible_iff :
    (refreshRecord ts now r).state = .eligible ↔ Startable ts now r := by
  rw [Startable]
  cases h : r.isLeftAlone now with
  | true =>
    rw [refreshRecord_of_leftAlone h]
    refine iff_of_false (fun hst => ?_) nofun
    simp [TaskRecord.isLeftAlone, hst, TaskState.isTerminal, TaskState.isActive] at h
  | false =>
    rw [refreshRecord, h, ← desired_eq_eligible_iff]
    simp

/-! ## Reading definitions -/

theorem mem_of_uniqueStrings {values : List String} {field : String} {ns : List Name}
    (h : uniqueStrings values field = .ok ns) {n : Name} :
    n ∈ ns ↔ ∃ v ∈ values, trim v = n.text := by
  simp only [uniqueStrings, chain_eq_ok, mapM_eq_ok] at h
  obtain ⟨read, hrd, rfl⟩ := h
  rw [mem_uniqueNames]
  constructor
  · intro hn
    have hmem : Except.ok n ∈ read.map (Except.ok (ε := Thrown)) := mem_map_of_mem hn
    rw [← hrd, mem_map] at hmem
    obtain ⟨⟨v, index⟩, hv, hok⟩ := hmem
    exact ⟨v, mem_of_getElem? (mk_mem_zipIdx_iff_getElem?.mp hv), nonempty_eq_ok.mp hok⟩
  · rintro ⟨v, hv, htr⟩
    obtain ⟨index, hix, rfl⟩ := getElem_of_mem hv
    have hmem : nonempty values[index] (field ++ "[" ++ toString index ++ "]") ∈ read.map .ok := by
      rw [← hrd, mem_map]
      exact ⟨(values[index], index), mk_mem_zipIdx_iff_getElem?.mpr (getElem?_eq_getElem hix),
        rfl⟩
    rw [nonempty_eq_ok.mpr htr, mem_map] at hmem
    obtain ⟨_, hn, heq⟩ := hmem
    cases heq
    exact hn

/-- What is read of a definition. -/
structure ReadAs (input : TaskInput) (definition : TaskDefinition) : Prop where
  taskId : trim input.taskId = definition.taskId.text
  initialState : definition.initialState = input.state
  dependencies : ∀ n : Name, n ∈ definition.dependencies ↔
    ∃ value ∈ input.dependencies, trim value = n.text

variable {d : TaskDefinition}

theorem readAs_of_normalize {i : TaskInput} (h : normalizeTaskDefinition P i = .ok d) :
    ReadAs i d := by
  simp only [normalizeTaskDefinition, chain_eq_ok] at h
  obtain ⟨tid, htaskId, _, -, _, -, _, -, dependencies, hdeps, _, -, rfl⟩ := h
  exact ⟨nonempty_eq_ok.mp htaskId, rfl, fun n => mem_of_uniqueStrings hdeps⟩

variable {defs : List TaskDefinition}

/-- Every definition is read from an input, and every input is read. -/
theorem readAs_of_mapM {is : List TaskInput} (h : is.mapM (normalizeTaskDefinition P) = .ok defs) :
    (∀ d ∈ defs, ∃ i ∈ is, ReadAs i d) ∧ ∀ i ∈ is, ∃ d ∈ defs, ReadAs i d := by
  rw [mapM_eq_ok] at h
  constructor
  · intro d hd
    have hmem : Except.ok d ∈ defs.map (Except.ok (ε := Thrown)) := mem_map_of_mem hd
    rw [← h, mem_map] at hmem
    obtain ⟨i, hin, hok⟩ := hmem
    exact ⟨i, hin, readAs_of_normalize hok⟩
  · intro i hin
    have hmem := mem_map_of_mem (f := normalizeTaskDefinition P) hin
    rw [h, mem_map] at hmem
    obtain ⟨d, hd, hok⟩ := hmem
    exact ⟨d, hd, readAs_of_normalize hok.symm⟩

/-! ## Taking over definitions -/

/-- The record of a task that exists, with what a definition says anew. -/
def TaskRecord.redefined (record : TaskRecord) (definition : TaskDefinition) : TaskRecord :=
  { record with
    dependencies := definition.dependencies
    priority := definition.priority
    createdAt := definition.createdAt }

/-- What a definition makes of the record of its task, or of none. -/
def TaskDefinition.write (P : Platform) (now : Option Time) (definition : TaskDefinition) :
    Option TaskRecord → TaskRecord
  | none => newRecord P definition now
  | some record => record.redefined definition

variable {acc acc' : Reconciling}

/-- One definition writes one record, and gives no other identity to a task that is not finished. -/
theorem reconcileTask_eq_ok (hok : reconcileTask P now acc d = .ok acc') :
    d.taskId ∉ acc.seen ∧ acc'.seen = d.taskId :: acc.seen ∧ acc'.tasks = acc.tasks.set d.taskId
        (d.write P now (acc.tasks.get? d.taskId)) ∧
      ∀ cur, acc.tasks.get? d.taskId = some cur →
        cur.executionKey = d.executionKey P ∨ cur.state.isTerminal := by
  simp only [reconcileTask, chain_eq_ok] at hok
  obtain ⟨hse, hok⟩ := hok
  refine ⟨hse, ?_⟩
  cases hget : acc.tasks.get? d.taskId with
  | none =>
    simp only [hget, chain_eq_ok] at hok
    obtain ⟨-, rfl⟩ := hok
    exact ⟨rfl, rfl, fun _ h => by cases h⟩
  | some cur =>
    simp only [hget, chain_eq_ok, ite_eq_ok] at hok
    obtain ⟨hid, hok⟩ := hok
    have hft (r : TaskRecord) (hrec : some cur = some r) :
        r.executionKey = d.executionKey P ∨ r.state.isTerminal :=
      Option.some.inj hrec ▸ hid
    obtain ⟨⟨hdeps, hpriority, hcrd⟩, rfl⟩ | ⟨-, rfl⟩ := hok
    · -- Nothing is new, so writing the record again changes nothing.
      have heq : cur.redefined d = cur := by
        rw [TaskRecord.redefined, ← hdeps, ← hpriority, ← hcrd]
      refine ⟨rfl, ?_, hft⟩
      rw [TaskDefinition.write, heq, set_of_get? hget]
    · exact ⟨rfl, rfl, hft⟩

/-- The tasks once definitions are taken over, before eligibility is refreshed. -/
structure TakenOver (P : Platform) (now : Option Time) (definitions : List TaskDefinition)
    (before tasks : OrderedMap Name TaskRecord) : Prop where
  nodup : (definitions.map (·.taskId)).Nodup
  fits : ∀ d ∈ definitions, ∀ record, before.get? d.taskId = some record →
    record.executionKey = d.executionKey P ∨ record.state.isTerminal
  written : ∀ d ∈ definitions, tasks.get? d.taskId = some (d.write P now (before.get? d.taskId))
  kept : ∀ id ∉ definitions.map (·.taskId), tasks.get? id = before.get? id

theorem takenOver_of_runAll (hrun : runAll (reconcileTask P now) acc defs = .ok acc') :
    TakenOver P now defs acc.tasks acc'.tasks ∧ ∀ d ∈ defs, d.taskId ∉ acc.seen := by
  induction defs generalizing acc with
  | nil =>
    cases hrun
    exact ⟨⟨nodup_nil, by simp, by simp, fun _ _ => rfl⟩, by simp⟩
  | cons d rest ih =>
    obtain ⟨acc₁, hok, hrun⟩ := runAll_cons_eq_ok.mp hrun
    obtain ⟨hnew, hse, htks, hft⟩ := reconcileTask_eq_ok hok
    obtain ⟨hrs, hunseen⟩ := ih hrun
    simp only [hse, mem_cons, not_or] at hunseen
    have hd : d.taskId ∉ rest.map (·.taskId) := by
      intro hmem
      obtain ⟨e, he, heq⟩ := mem_map.mp hmem
      exact (hunseen e he).1 heq
    have hoth (id : Name) (hne : id ≠ d.taskId) : acc₁.tasks.get? id = acc.tasks.get? id := by
      rw [htks, get?_set_of_ne _ _ (Ne.symm hne)]
    refine ⟨⟨nodup_cons.mpr ⟨hd, hrs.nodup⟩, forall_mem_cons.mpr ⟨hft, fun e he => ?_⟩,
      forall_mem_cons.mpr ⟨?_, fun e he => ?_⟩, fun id hid => ?_⟩,
      forall_mem_cons.mpr ⟨hnew, fun e he => (hunseen e he).2⟩⟩
    · rw [← hoth e.taskId (hunseen e he).1]
      exact hrs.fits e he
    · rw [hrs.kept d.taskId hd, htks, get?_set_self]
    · rw [hrs.written e he, hoth e.taskId (hunseen e he).1]
    · rw [map_cons, mem_cons, not_or] at hid
      rw [hrs.kept id hid.2, hoth id hid.1]

namespace TakenOver

variable {pre : OrderedMap Name TaskRecord} {old : TaskRecord}
  (h : TakenOver P now defs pre ts)
include h

/-- A task that exists stays, as it was or redefined. -/
theorem of_some (hold : pre.get? id = some old) : ∃ r, ts.get? id = some r ∧
    (r = old ∨ ∃ d ∈ defs, d.taskId = id ∧ r = old.redefined d) := by
  by_cases hid : id ∈ defs.map (·.taskId)
  · obtain ⟨d, hd, rfl⟩ := mem_map.mp hid
    refine ⟨old.redefined d, ?_, .inr ⟨d, hd, rfl, rfl⟩⟩
    rw [h.written d hd, hold]
    rfl
  · exact ⟨old, (h.kept id hid).trans hold, .inl rfl⟩

/-- A task that did not exist is the one of a definition. -/
theorem of_none (hold : pre.get? id = none) (hget : ts.get? id = some r) :
    ∃ d ∈ defs, d.taskId = id ∧ r = newRecord P d now := by
  by_cases hid : id ∈ defs.map (·.taskId)
  · obtain ⟨d, hd, rfl⟩ := mem_map.mp hid
    rw [h.written d hd, hold] at hget
    cases hget
    exact ⟨d, hd, rfl, rfl⟩
  · rw [h.kept id hid, hold] at hget
    cases hget

end TakenOver

/-- What `reconcileTasks` does when it succeeds. -/
theorem exists_takenOver {s reconciled : KernelState} {is : List TaskInput}
    (h : reconcileTasks P s is now = .ok reconciled) :
    ∃ defs taken, reconciled = refreshEligibility taken now ∧
      is.mapM (normalizeTaskDefinition P) = .ok defs ∧ assertAcyclic defs = .ok () ∧
      TakenOver P now defs s.tasks taken.tasks ∧
      taken.maxConcurrent = s.maxConcurrent := by
  simp only [reconcileTasks, chain_eq_ok] at h
  obtain ⟨defs, hdefs, hacy, acc, hrun, h⟩ := h
  have htak : TakenOver P now defs s.tasks acc.tasks := (takenOver_of_runAll hrun).1
  refine ⟨defs, ?_⟩
  split at h <;>
    exact ⟨_, (pure_eq_ok.mp h).symm, hdefs, hacy, htak, rfl⟩

/-! ## Definitions that are adopted -/

/-- The record says what the definition says. -/
structure TaskRecord.Carries (P : Platform) (record : TaskRecord) (definition : TaskDefinition) :
    Prop where
  executionRevision : record.executionRevision = definition.executionRevision
  cycleId : record.cycleId = definition.cycleId
  executionKey : record.executionKey = definition.executionKey P
  dependencies : record.dependencies = definition.dependencies
  priority : record.priority = definition.priority
  createdAt : record.createdAt = definition.createdAt

/-- Eligibility does not change what a record says of its definition. -/
theorem carries_refreshRecord : (refreshRecord ts now r).Carries P d ↔ r.Carries P d := by
  unfold refreshRecord
  split
  · exact Iff.rfl
  · exact ⟨fun ⟨h₁, h₂, h₃, h₄, h₅, h₆⟩ => ⟨h₁, h₂, h₃, h₄, h₅, h₆⟩,
      fun ⟨h₁, h₂, h₃, h₄, h₅, h₆⟩ => ⟨h₁, h₂, h₃, h₄, h₅, h₆⟩⟩

/-- **When the definitions that are taken over are adopted.**  The identity of a task that exists
is not written again, and a task that has finished stays so under its old identity. -/
theorem adopted_iff (P : Platform) (state : KernelState) (inputs : List TaskInput)
    (now : Option Time) {definitions : List TaskDefinition} {reconciled : KernelState}
    (hread : inputs.mapM (normalizeTaskDefinition P) = .ok definitions)
    (h : reconcileTasks P state inputs now = .ok reconciled) :
    ((∀ d ∈ definitions, ∃ record, reconciled.tasks.get? d.taskId = some record ∧
      record.Carries P d) ↔
      ∀ d ∈ definitions, ∀ old, state.tasks.get? d.taskId = some old →
        old.executionRevision = d.executionRevision ∧ old.cycleId = d.cycleId ∧
          old.executionKey = d.executionKey P) ∧
    ∀ d ∈ definitions, ∀ old, state.tasks.get? d.taskId = some old → old.state.isTerminal →
      reconciled.tasks.get? d.taskId = some (old.redefined d) := by
  obtain ⟨definitions', taken, rfl, hread', -, htaken, -⟩ := exists_takenOver h
  rw [hread] at hread'
  cases hread'
  have hget (d : TaskDefinition) (hd : d ∈ definitions) :
    (refreshEligibility taken now).tasks.get? d.taskId =
        some (refreshRecord taken.tasks now (d.write P now (state.tasks.get? d.taskId))) := by
    rw [tasks_refreshEligibility, get?_mapValues, htaken.written d hd, Option.map_some]
  refine ⟨forall₂_congr fun d hd => ?_, fun d hd old hold hterminal => ?_⟩
  · simp only [hget d hd, Option.some.injEq, exists_eq_left', carries_refreshRecord]
    cases hold : state.tasks.get? d.taskId with
    | none => exact iff_of_true ⟨rfl, rfl, rfl, rfl, rfl, rfl⟩ fun _ hnone => by cases hnone
    | some old =>
      simp only [Option.some.injEq, forall_eq']
      exact ⟨fun h => ⟨h.executionRevision, h.cycleId, h.executionKey⟩,
        fun ⟨hrevision, hcycle, hkey⟩ => ⟨hrevision, hcycle, hkey, rfl, rfl, rfl⟩⟩
  · rw [hget d hd, hold, TaskDefinition.write, refreshRecord_of_leftAlone]
    simp [TaskRecord.isLeftAlone, TaskRecord.redefined, hterminal]

/-- A task that is finished when it is defined. -/
def finishedTask : TaskInput := { taskId := "T-1", state := .accepted }

/-- The finished task with another priority, and a task that depends on it. -/
def finishedAgain : List TaskInput :=
  [{ finishedTask with priority := some 5 }, { taskId := "T-2", dependencies := ["T-1"] }]

theorem adopted_finishedTask : ∃ before definitions reconciled,
    reconcileTasks plainPlatform (createKernelState 1 none) [finishedTask] none = .ok before ∧
      reconcileTasks plainPlatform before finishedAgain none = .ok reconciled ∧
      reconciled.tasks.values.map (fun record => (record.priority, record.state)) =
        [(some 5, .accepted), (none, .eligible)] ∧
      finishedAgain.mapM (normalizeTaskDefinition plainPlatform) = .ok definitions ∧
      ∀ d ∈ definitions, ∃ record, reconciled.tasks.get? d.taskId = some record ∧
        record.Carries plainPlatform d := by
  have hruns : (do
      let before ← reconcileTasks plainPlatform (createKernelState 1 none) [finishedTask] none
      let reconciled ← reconcileTasks plainPlatform before finishedAgain none
      let definitions ← finishedAgain.mapM (normalizeTaskDefinition plainPlatform)
      return (reconciled.tasks.values.map fun record : TaskRecord =>
        (record.priority, record.state),
        decide (∀ d ∈ definitions, ∀ old ∈ before.tasks.get? d.taskId,
          old.executionRevision = d.executionRevision ∧ old.cycleId = d.cycleId ∧
            old.executionKey = d.executionKey plainPlatform))) =
      .ok ([(some 5, .accepted), (none, .eligible)], true) := by decide
  simp only [bind_eq_ok, pure_eq_ok, Prod.mk.injEq, decide_eq_true_eq] at hruns
  obtain ⟨before, hfirst, reconciled, hsecond, definitions, hread, htasks, hsame⟩ := hruns
  exact ⟨before, definitions, reconciled, hfirst, hsecond, htasks, hread,
    (adopted_iff plainPlatform before finishedAgain none hread hsecond).1.mpr hsame⟩

/-- A finished task is defined with a new revision; it stays finished in the old one, and the task
that depends on it may start. -/
theorem redefined_not_adopted : (do
      let state ← reconcileTasks plainPlatform (createKernelState 1 none) [finishedTask] none
      let state ← reconcileTasks plainPlatform state [{ taskId := "T-1", executionRevision := 2 },
        { taskId := "T-2", dependencies := ["T-1"] }] none
      return state.tasks.values.map fun record => (record.executionRevision.val, record.state)) =
    Except.ok (ε := Thrown) [(1, .accepted), (1, .eligible)] := by
  decide

/-! ## Tasks that a tick starts -/

theorem startAll_sublist {st : Dispatch → Outcome} {dispatches : List Dispatch} :
    (startAll st dispatches).1.Sublist dispatches := by
  induction dispatches with
  | nil => exact .slnil
  | cons d rest ih =>
    rw [startAll]
    split
    · exact singleton_sublist.mpr mem_cons_self
    · exact ih.cons_cons d

section Tick

variable {s reconciled claimed : KernelState} {is : List TaskInput} {obs : Time}
  {limit : Rat} {sel : Selection} {dispatches : List Dispatch}

/-- A selection is made among the tasks that are taken over, refreshed once. -/
theorem exists_selected (hrcl : reconcileTasks P s is (some obs) = .ok reconciled)
    (hslt : selectDispatches P reconciled (some obs) limit = .ok sel) :
    ∃ defs ts, is.mapM (normalizeTaskDefinition P) = .ok defs ∧
      TakenOver P (some obs) defs s.tasks ts ∧
      ∀ id, sel.state.tasks.get? id = (ts.get? id).map (refreshRecord ts (some obs)) := by
  obtain ⟨defs, taken, rfl, hdefs, -, htak, -⟩ := exists_takenOver hrcl
  refine ⟨defs, taken.tasks, hdefs, htak, fun id => ?_⟩
  -- The selection refreshes once more, which changes nothing.
  have href : Refreshed (normalizeState (refreshEligibility taken (some obs)))
      (some obs) := refreshed_refreshEligibility taken (some obs)
  rw [(selected_of_selectDispatches hslt).state_eq, tasks_refreshEligibility_of_refreshed href]
  change (refreshEligibility taken (some obs)).tasks.get? id = _
  rw [tasks_refreshEligibility, get?_mapValues]

/-- The parts of a tick up to its claims. -/
theorem claimSelected_eq_ok (h : claimSelected P s is obs limit = .ok (sel, claimed, dispatches)) :
    ∃ reconciled, reconcileTasks P s is (some obs) = .ok reconciled ∧
      selectDispatches P reconciled (some obs) limit = .ok sel ∧
      Claims P sel.state obs claimed dispatches ∧
      ∃ p, planDispatchTick P s is obs limit = .ok p ∧ p.dispatches = dispatches := by
  have hok := h
  simp only [claimSelected, bind_eq_ok] at hok
  obtain ⟨reconciled, hrcl, sel', hslt, -⟩ := hok
  obtain ⟨claimed', dispatches', hcs, hpl, hcd⟩ := claimSelected_eq_plan hrcl hslt
  rw [h] at hcs
  cases hcs
  exact ⟨reconciled, hrcl, hslt, hcd, _, hpl, rfl⟩

/-- A task that is claimed by a tick is startable once the definitions are taken over. -/
theorem startable_of_claimed {ts : OrderedMap Name TaskRecord}
    (hsel : ∀ id, sel.state.tasks.get? id =
      (ts.get? id).map (refreshRecord ts (some obs)))
    (hcs : Claims P sel.state obs claimed dispatches) :
    ∀ d ∈ dispatches, ∃ r, ts.get? d.taskId = some r ∧ Startable ts (some obs) r := by
  intro d hd
  obtain ⟨t, hget, hel, -⟩ := hcs.eligible d hd
  rw [hsel, Option.map_eq_some_iff] at hget
  obtain ⟨r, hrec, rfl⟩ := hget
  exact ⟨r, hrec, refreshRecord_eq_eligible_iff.mp hel⟩

/-- What is known of the dispatches that a tick starts. -/
theorem startable_of_started {retry : RetryOptions} {st : Dispatch → Outcome}
    (hstd : (runDispatchTick P s is st obs limit retry).started ≠ []) :
    ∃ defs ts, is.mapM (normalizeTaskDefinition P) = .ok defs ∧
      TakenOver P (some obs) defs s.tasks ts ∧
      ((runDispatchTick P s is st obs limit retry).started.map (·.taskId)).Nodup ∧
      ∀ d ∈ (runDispatchTick P s is st obs limit retry).started,
        ∃ r, ts.get? d.taskId = some r ∧ Startable ts (some obs) r := by
  cases hcs : claimSelected P s is obs limit with
  | error thrown => simp [runDispatchTick, hcs] at hstd
  | ok claims =>
    obtain ⟨sel, claimed, dispatches⟩ := claims
    obtain ⟨reconciled, hrcl, hslt, hcd, -⟩ := claimSelected_eq_ok hcs
    have hsublist : (runDispatchTick P s is st obs limit retry).started.Sublist
        dispatches := by
      simp only [runDispatchTick, hcs]
      exact startAll_sublist
    obtain ⟨defs, ts, hdefs, htak, hsel⟩ := exists_selected hrcl hslt
    exact ⟨defs, ts, hdefs, htak, (hsublist.map _).nodup hcd.nodup,
      fun d hd => startable_of_claimed hsel hcd d (hsublist.subset hd)⟩

end Tick

/-! ## The plan of a tick -/

section Plan

variable {st : Dispatch → Outcome} {dispatches : List Dispatch}

/-- Every start is called unless one before the last throws. -/
theorem startAll_eq_iff : (startAll st dispatches).1 = dispatches ↔
    ∀ d ∈ dispatches.dropLast, ∀ reason, st d ≠ .threw reason := by
  induction dispatches with
  | nil => simp [startAll]
  | cons d rest ih =>
    rw [startAll]
    cases hd : st d with
    | threw reason =>
      cases rest with
      | nil => simp
      | cons e rest => simp [hd]
    | settled o =>
      cases rest with
      | nil => simp [startAll]
      | cons e rest => simpa [hd] using ih

/-- The tasks that may start. -/
def eligibleCount (state : KernelState) : Nat := state.tasks.values.countP (·.state = .eligible)

/-- A selection takes as many eligible tasks as there are slots and the limit allows. -/
theorem length_selected {s : KernelState} {limit : Rat} {sel : Selection}
    (href : Refreshed s now) (hslt : selectDispatches P s now limit = .ok sel) :
    sel.dispatches.length = min limit.num.toNat
      (min (s.maxConcurrent - activeCount s) (eligibleCount s)) := by
  simp only [selectDispatches, chain_eq_ok] at hslt
  obtain ⟨-, rfl⟩ := hslt
  have htks : (refreshEligibility (normalizeState s) now).tasks = s.tasks :=
    tasks_refreshEligibility_of_refreshed (show Refreshed (normalizeState s) now from href)
  have hmax : (refreshEligibility (normalizeState s) now).maxConcurrent = s.maxConcurrent :=
    maxConcurrent_refreshEligibility _ _
  simp only [length_map, length_take, length_insertionSort, htks, hmax, activeCount, eligibleCount,
    values, countP_map, ← countP_eq_length_filter, Function.comp_def]
  omega

/-- **When a tick starts the dispatches that are planned for it.**  A limit that is no count is
refused by both. -/
theorem started_eq_planned_iff (P : Platform) (state : KernelState) (tasks : List TaskInput)
    (start : Dispatch → Outcome) (observedAt : Time) (limit : Rat) (retry : RetryOptions)
    {reconciled : KernelState}
    (hreconcile : reconcileTasks P state tasks (some observedAt) = .ok reconciled) :
    (¬ (limit.den = 1 ∧ 0 ≤ limit.num) ∧
        (∃ thrown, planDispatchTick P state tasks observedAt limit = .error thrown) ∧
        (runDispatchTick P state tasks start observedAt limit retry).started = []) ∨
      ∃ plan, planDispatchTick P state tasks observedAt limit = .ok plan ∧
        plan.dispatches.length = min limit.num.toNat
          (min (reconciled.maxConcurrent - activeCount reconciled) (eligibleCount reconciled)) ∧
        ((runDispatchTick P state tasks start observedAt limit retry).started = plan.dispatches ↔
          ∀ d ∈ plan.dispatches.dropLast, ∀ reason, start d ≠ .threw reason) := by
  cases hselect : selectDispatches P reconciled (some observedAt) limit with
  | error thrown =>
    have hlimit : ¬ (limit.den = 1 ∧ 0 ≤ limit.num) := by
      intro hlimit
      rw [selectDispatches, ensure, if_pos hlimit] at hselect
      cases hselect
    have hclaims : claimSelected P state tasks observedAt limit = .error thrown :=
      bind_eq_error.mpr (.inr ⟨_, hreconcile, bind_eq_error.mpr (.inl hselect)⟩)
    refine .inl ⟨hlimit, ⟨thrown, ?_⟩, ?_⟩
    · exact bind_eq_error.mpr (.inr ⟨_, hreconcile, bind_eq_error.mpr (.inl hselect)⟩)
    · rw [runDispatchTick, hclaims]
  | ok selection =>
    obtain ⟨claimed, dispatches, hclaims, hplan, hclaimed⟩ :=
      claimSelected_eq_plan hreconcile hselect
    refine .inr ⟨_, hplan, ?_, ?_⟩
    · obtain ⟨-, taken, rfl, -⟩ := exists_takenOver hreconcile
      rw [← length_selected (refreshed_refreshEligibility taken _) hselect]
      simp only [planDispatchTick, hreconcile, chain_eq_ok, mapM_eq_ok, Except.ok.injEq,
        exists_eq_left', hselect] at hplan
      obtain ⟨read, hread, heq⟩ := hplan
      obtain rfl : read = dispatches := congrArg Plan.dispatches heq
      simpa using (congrArg length hread).symm
    · simp only [runDispatchTick, hclaims]
      exact startAll_eq_iff

end Plan

/-- The start of every task throws. -/
def startNone (_ : Dispatch) : Outcome := .threw (.error (.json (.text "offline")))

theorem started_eq_planned_twoTasks :
    ∃ plan, planDispatchTick plainPlatform (createKernelState 2 none)
        [{ taskId := "T-1" }, { taskId := "T-2" }] epoch 2 = .ok plan ∧ plan.dispatches.length = 2 ∧
      (runDispatchTick plainPlatform (createKernelState 2 none)
        [{ taskId := "T-1" }, { taskId := "T-2" }] startFirst epoch 2 {}).started =
        plan.dispatches := by
  have hplanned := started_eq_planned_iff plainPlatform (createKernelState 2 none)
    [{ taskId := "T-1" }, { taskId := "T-2" }] startFirst epoch 2 {} rfl
  obtain ⟨hlimit, -⟩ | ⟨plan, hplan, hlength, hstarted⟩ := hplanned
  · exact absurd ⟨rfl, by decide⟩ hlimit
  · refine ⟨plan, hplan, hlength, hstarted.mpr fun d _ reason => ?_⟩
    unfold startFirst
    split <;> exact nofun

/-- Two dispatches are planned; the first start throws, and the second is not called. -/
theorem planned_not_started : (planDispatchTick plainPlatform (createKernelState 2 none)
        [{ taskId := "T-1" }, { taskId := "T-2" }] epoch 2).toOption.map
        (·.dispatches.map (·.taskId.text)) = some ["T-1", "T-2"] ∧
      (runDispatchTick plainPlatform (createKernelState 2 none)
        [{ taskId := "T-1" }, { taskId := "T-2" }] startNone epoch 2 {}).started.map
        (·.taskId.text) = ["T-1"] :=
  ⟨by decide, by decide⟩

end Orquesta.ExecutionKernel
