import Orquesta.ExecutionKernel.Translators

/-!
# A tick of the scheduler

`runDispatchTick` takes over the task definitions, claims as many eligible tasks as there
are slots, starts them all with the adapter, and only then records the outcomes one after
the other.  `planDispatchTick` says beforehand which dispatches a tick would claim.

A tick is modelled with the calls it makes: `started` lists the dispatches with which
`adapter.start` was called, also when the tick throws afterwards.

## Main definitions

* `Outcome`, `Settled`, `Reason`, `StartResult`: what a start may do
* `planDispatchTick`, `runDispatchTick`

## Main results

* `refreshed_refreshEligibility`: refreshing eligibility once more changes no task
* `claimSelected_eq_plan`: a tick claims the dispatches that are planned
-/

namespace Orquesta.ExecutionKernel

open Checked Contract List OrderedMap Function

/-! ## What a start may do -/

/-- Why a start failed. -/
inductive Reason
  /-- An `Error`, with its message. -/
  | error (message : JsValue)
  /-- Any other value, as `String` writes it; there are values it cannot write. -/
  | other (text : Option String)

/-- The value `reason instanceof Error ? reason.message : String(reason)`. -/
def Reason.message : Reason → Except Thrown JsValue
  | .error message => .ok message
  | .other (some text) => .ok (.json (.text text))
  | .other none => .error (.typeError "Cannot convert object to primitive value")

/-- The fields that are read of an accepted start. -/
structure StartResult where
  acceptedAt : JsValue := .json .absent
  correlationId : JsValue := .json .absent
  threadId : JsValue := .json .absent
  turnId : JsValue := .json .absent
  modelEvidence : JsValue := .json .absent
  runtimeProfile : JsValue := .json .absent

/-- How the promise of a start is settled. -/
inductive Settled
  | fulfilled (value : StartResult)
  | rejected (reason : Reason)

inductive Outcome
  | settled (outcome : Settled)
  /-- The call itself throws. -/
  | threw (reason : Reason)

/-- The calls of `adapter.start` for the claims, up to the first that throws. -/
def startAll (start : Dispatch → Outcome) :
    List Dispatch → List Dispatch × Except Reason (List (Dispatch × Settled))
  | [] => ([], .ok [])
  | dispatch :: rest =>
    match start dispatch with
    | .threw reason => ([dispatch], .error reason)
    | .settled outcome =>
      let (started, outcomes) := startAll start rest
      (dispatch :: started, ((dispatch, outcome) :: ·) <$> outcomes)

/-! ## The tick -/

variable (P : Platform)

/-- What is reported of a dispatch. -/
inductive DispatchResult
  | dispatching (dispatch : Dispatch) (acceptedAt : Time) (value : StartResult)
  | retryQueued (dispatch : Dispatch) (retryAt : Time)

structure Plan where
  state : KernelState
  dispatches : List Dispatch
  (considered availableSlots : Nat)
  observedAt : Time

variable (state : KernelState)

def planDispatchTick (tasks : List TaskInput) (observedAt : Time) (limit : Rat) :
    Except Thrown Plan := do
  let reconciled ← reconcileTasks P state tasks (some observedAt)
  let selection ← selectDispatches P reconciled (some observedAt) limit
  let dispatches ← selection.dispatches.mapM fun candidate => do
    let task ← require (selection.state.tasks.get? candidate.taskId)
      (.typeError "Cannot read properties of undefined (reading 'task_id')")
    return ⟨candidate.taskId, candidate.executionKey, dispatchIdFor P candidate.taskId
      task.executionRevision task.cycleId candidate.nextAttempt, candidate.nextAttempt⟩
  return ⟨selection.state, dispatches, selection.dispatches.length, selection.availableSlots,
    observedAt⟩

def claimCandidate (now : Option Time) (acc : KernelState × List Dispatch) (candidate : Candidate) :
    Except Thrown (KernelState × List Dispatch) := do
  let (state, claim) ← claimDispatch P acc.1 candidate.taskId now
  match claim with
  | .claimed dispatch => return (state, acc.2 ++ [dispatch])
  | .alreadyActive .. => return (state, acc.2)

/-- The tick up to the calls of the adapter. -/
def claimSelected (tasks : List TaskInput) (observedAt : Time) (limit : Rat) :
    Except Thrown (Selection × KernelState × List Dispatch) := do
  let reconciled ← reconcileTasks P state tasks (some observedAt)
  let selection ← selectDispatches P reconciled (some observedAt) limit
  let claimed ← runAll (claimCandidate P (some observedAt)) (selection.state, [])
    selection.dispatches
  return (selection, claimed)

/-- The event for a start that was accepted. -/
def acceptedEvent (dispatch : Dispatch) (value : StartResult) (acceptedAt : Time) :
    Except Thrown EventInput := do
  let correlationId ← value.correlationId.clone
  let threadId ← value.threadId.clone
  let turnId ← value.turnId.clone
  let modelEvidence ← value.modelEvidence.clone
  let runtimeProfile ← value.runtimeProfile.clone
  return {
    eventId := dispatch.dispatchId ++ ":" ++ EventType.dispatchAccepted.text
    type := .dispatchAccepted
    taskId := dispatch.taskId.text
    dispatchId := some dispatch.dispatchId
    correlationId, threadId, turnId, modelEvidence, runtimeProfile
    observedAt := some acceptedAt }

/-- The event for a start that failed. -/
def failedEvent (dispatch : Dispatch) (observedAt retryAt : Time) (message : Field) :
    EventInput where
  eventId := dispatch.dispatchId ++ ":" ++ EventType.attemptFailed.text
  type := .attemptFailed
  taskId := dispatch.taskId.text
  dispatchId := some dispatch.dispatchId
  observedAt := some observedAt
  retryAt := some retryAt
  error := message

def acceptedAt (observedAt : Time) (value : StartResult) : Except Thrown Time :=
  if value.acceptedAt.truthy then toISOString (P.dateOf value.acceptedAt) else .ok observedAt

/-- The body of the loop over the outcomes. -/
def settle (retry : RetryOptions) (observedAt : Time) (acc : KernelState × List DispatchResult) :
    Dispatch × Settled → Except Thrown (KernelState × List DispatchResult)
  | (dispatch, .fulfilled value) => do
    let acceptedAt ← acceptedAt P observedAt value
    let event ← acceptedEvent dispatch value acceptedAt
    let state ← applyKernelEvent acc.1 event
    return (state, acc.2 ++ [.dispatching dispatch acceptedAt value])
  | (dispatch, .rejected reason) => do
    let delay ← retryDelayMs dispatch.attempt retry
    let retryAt ← addMilliseconds observedAt delay
    let message ← reason.message
    let message ← message.clone
    let state ← applyKernelEvent acc.1 (failedEvent dispatch observedAt retryAt message)
    return (state, acc.2 ++ [.retryQueued dispatch retryAt])

structure TickResult where
  state : KernelState
  results : List DispatchResult
  (considered availableSlotsBeforeClaim : Nat)

/-- A tick: the calls of `adapter.start`, and what the tick returns or throws. -/
structure Tick where
  started : List Dispatch
  outcome : Except (Thrown ⊕ Reason) TickResult

def runDispatchTick (tasks : List TaskInput) (start : Dispatch → Outcome)
    (observedAt : Time) (limit : Rat) (retry : RetryOptions) : Tick :=
  match claimSelected P state tasks observedAt limit with
  | .error thrown => ⟨[], .error (.inl thrown)⟩
  | .ok (selection, claimed, claims) =>
    { started := (startAll start claims).1
      outcome := do
        let outcomes ← (startAll start claims).2.mapError .inr
        let (state, results) ← (runAll (settle P retry observedAt) (claimed, []) outcomes).mapError
          .inl
        return ⟨state, results, selection.dispatches.length, selection.availableSlots⟩ }

/-! ## Refreshing eligibility twice -/

section Refresh

variable {s : KernelState} {ts ts' : OrderedMap Name TaskRecord} {now : Option Time}
  {tid : Name} {rec : TaskRecord}

/-- How a task has finished, if it has. -/
def TaskRecord.finished (record : TaskRecord) : Option TaskState :=
  if record.state.isTerminal then some record.state else none

/-- The same tasks have finished in the same way. -/
def SameFinished (tasks tasks' : OrderedMap Name TaskRecord) : Prop :=
  ∀ id, (tasks.get? id).map TaskRecord.finished = (tasks'.get? id).map TaskRecord.finished

theorem finished_eq_finished {rec rec' : TaskRecord} (h : rec.finished = rec'.finished) :
    rec.state.isTerminal = rec'.state.isTerminal ∧ (rec.state = .failed ↔ rec'.state = .failed) ∧
      (rec.state = .cancelled ↔ rec'.state = .cancelled) := by
  revert h
  unfold TaskRecord.finished
  cases rec.state <;> cases rec'.state <;> decide

/-- Only finished tasks decide about the tasks that depend on them. -/
theorem dependencyStatus_congr (h : SameFinished ts ts') (rec : TaskRecord) :
    dependencyStatus ts rec = dependencyStatus ts' rec := by
  unfold dependencyStatus
  congr 1
  all_goals
    refine filter_congr fun id _ => ?_
    have hid := h id
    cases hr : ts.get? id <;> cases hr' : ts'.get? id <;> rw [hr, hr'] at hid
    · cases hid
    · cases hid
    · obtain ⟨hterminal, hfailed, hcancelled⟩ := finished_eq_finished (Option.some.inj hid)
      simp only [Option.isNone_some, hterminal, hfailed, hcancelled]

theorem refreshRecord_congr (h : SameFinished ts ts') (now : Option Time) (rec : TaskRecord) :
    refreshRecord ts now rec = refreshRecord ts' now rec := by
  rw [refreshRecord, refreshRecord, dependencyStatus_congr h]

theorem desired_eq (st : DependencyStatus) :
    st.desired = .eligible ∨ st.desired = .waitingForDependency := by
  unfold DependencyStatus.desired
  split
  · exact .inr rfl
  · exact .inl rfl

theorem finished_refreshRecord : (refreshRecord ts now rec).finished = rec.finished := by
  cases h : rec.isLeftAlone now with
  | true => rw [refreshRecord_of_leftAlone h]
  | false =>
    have hop := h
    simp only [TaskRecord.isLeftAlone, Bool.or_eq_false_iff] at hop
    rw [refreshRecord, h, TaskRecord.finished, TaskRecord.finished, hop.1.1.1.1]
    rcases desired_eq (dependencyStatus ts rec) with hst | hst <;> simp [hst] <;> rfl

theorem sameFinished_refreshEligibility :
    SameFinished (refreshEligibility s now).tasks s.tasks := by
  intro id
  rw [tasks_refreshEligibility, get?_mapValues, Option.map_map]
  exact congrArg (Option.map · _) (funext fun _ => finished_refreshRecord)

theorem refreshRecord_idem (ts : OrderedMap Name TaskRecord) (now : Option Time)
    (rec : TaskRecord) :
    refreshRecord ts now (refreshRecord ts now rec) = refreshRecord ts now rec := by
  cases h : rec.isLeftAlone now with
  | true => rw [refreshRecord_of_leftAlone h, refreshRecord_of_leftAlone h]
  | false =>
    -- The state is one that is computed from the dependencies, which are as before.
    have hsts : dependencyStatus ts (refreshRecord ts now rec) =
        dependencyStatus ts rec := by
      rw [refreshRecord, h]
      rfl
    have hst : (refreshRecord ts now rec).state = (dependencyStatus ts rec).desired := by
      rw [refreshRecord, h]
      rfl
    have hblocker : (refreshRecord ts now rec).blockerReason =
        (dependencyStatus ts rec).blockerReason := by
      rw [refreshRecord, h]
      rfl
    generalize refreshRecord ts now rec = refreshed at hsts hst hblocker
    have hnot : refreshed.isLeftAlone now = false ∧ refreshed.state ≠ .retryQueued := by
      rcases desired_eq (dependencyStatus ts rec) with h | h <;>
        simp [TaskRecord.isLeftAlone, hst, h, TaskState.isTerminal, TaskState.isActive]
    rw [refreshRecord, hnot.1, if_neg hnot.2, hsts, ← hst, ← hblocker]
    rfl

/-- Refreshing would change no task. -/
def Refreshed (now : Option Time) : Prop :=
  ∀ id record, state.tasks.get? id = some record → refreshRecord state.tasks now record = record

theorem refreshed_refreshEligibility (s : KernelState) (now : Option Time) :
    Refreshed (refreshEligibility s now) now := by
  intro id rec hget
  rw [refreshRecord_congr sameFinished_refreshEligibility]
  rw [tasks_refreshEligibility, get?_mapValues, Option.map_eq_some_iff] at hget
  obtain ⟨pre, -, rfl⟩ := hget
  exact refreshRecord_idem _ _ _

theorem tasks_refreshEligibility_of_refreshed (h : Refreshed s now) :
    (refreshEligibility s now).tasks = s.tasks := by
  rw [tasks_refreshEligibility]
  exact mapValues_eq_self h

end Refresh

/-! ## The claims of a tick -/

section Claims

/-- The dispatch of a task that is claimed next. -/
def dispatchOf (taskId : Name) (task : TaskRecord) : Dispatch :=
  ⟨taskId, task.executionKey, dispatchIdFor P taskId task.executionRevision task.cycleId
    (task.attempt + 1), task.attempt + 1⟩

variable {P} {s : KernelState} {now : Option Time} {tid : Name} {task : TaskRecord}

/-- A claim neither finishes a task nor makes one unfinished. -/
theorem sameFinished_claim (hget : s.tasks.get? tid = some task) (h : task.state = .eligible) :
    SameFinished (s.tasks.set tid (claimRecord P tid task now)) s.tasks := by
  intro id
  rw [get?_set]
  split
  · rename_i heq
    subst heq
    rw [hget, Option.map_some, Option.map_some, TaskRecord.finished, TaskRecord.finished, h]
    rfl
  · rfl

/-- The state after the claim of an eligible task. -/
structure ClaimedNext (P : Platform) (state : KernelState) (now : Option Time) (taskId : Name)
    (task : TaskRecord) (state' : KernelState) : Prop where
  tasks : state'.tasks = state.tasks.set taskId (claimRecord P taskId task now)
  maxConcurrent : state'.maxConcurrent = state.maxConcurrent
  appliedEventIds : ∀ id, id ∈ state'.appliedEventIds ↔ id ∈ state.appliedEventIds

theorem ClaimedNext.refreshed {s' : KernelState} (h : ClaimedNext P s now tid task s')
    (href : Refreshed s now) (hget : s.tasks.get? tid = some task)
    (hel : task.state = .eligible) : Refreshed s' now := by
  intro id rec hid
  rw [h.tasks, get?_set] at hid
  rw [h.tasks, refreshRecord_congr (sameFinished_claim hget hel)]
  split at hid
  · cases hid
    exact refreshRecord_of_leftAlone (isLeftAlone_of_isActive rfl)
  · exact href id rec hid

theorem ClaimedNext.activeCount {s' : KernelState} (h : ClaimedNext P s now tid task s')
    (hget : s.tasks.get? tid = some task) (hel : task.state = .eligible) :
    activeCount s' = activeCount s + 1 := by
  have hcnt := countP_values_set (p := (·.state.isActive)) (a := claimRecord P tid task now) hget
  rw [hel] at hcnt
  rw [ExecutionKernel.activeCount, h.tasks]
  exact hcnt

theorem claimDispatch_of_eligible (href : Refreshed s now)
    (hget : s.tasks.get? tid = some task) (hel : task.state = .eligible)
    (hslot : activeCount s < s.maxConcurrent) :
    ∃ s', claimDispatch P s tid now = .ok (s', .claimed (dispatchOf P tid task)) ∧
      ClaimedNext P s now tid task s' := by
  have htks : (refreshEligibility (normalizeState s) now).tasks = s.tasks :=
    tasks_refreshEligibility_of_refreshed (show Refreshed (normalizeState s) now from href)
  have hslot' : activeCount (refreshEligibility (normalizeState s) now) <
      (refreshEligibility (normalizeState s) now).maxConcurrent := by
    rw [maxConcurrent_refreshEligibility, activeCount, htks]
    exact hslot
  have hget' := htks ▸ hget
  refine ⟨{ refreshEligibility (normalizeState s) now with
    tasks := (refreshEligibility (normalizeState s) now).tasks.set tid (claimRecord P tid task now)
    revision := (refreshEligibility (normalizeState s) now).revision + 1
    updatedAt := now <|> (refreshEligibility (normalizeState s) now).updatedAt }, ?_, ?_⟩
  · simp only [claimDispatch, bind_eq_ok, require_eq_ok]
    refine ⟨task, hget', ?_⟩
    rw [if_neg (by simp [hel, TaskState.isActive])]
    simp only [chain_eq_ok]
    exact ⟨hel, hslot', rfl⟩
  · refine ⟨congrArg (·.set tid (claimRecord P tid task now)) htks,
      maxConcurrent_refreshEligibility _ _, fun id => ?_⟩
    rw [appliedEventIds_refreshEligibility]
    exact mem_uniqueNames

/-- The records after the claims of some tasks. -/
structure ClaimedAll (P : Platform) (state : KernelState) (now : Option Time) (ids : List Name)
    (state' : KernelState) : Prop where
  claimed : ∀ id ∈ ids, ∀ task, state.tasks.get? id = some task →
    state'.tasks.get? id = some (claimRecord P id task now)
  kept : ∀ id ∉ ids, state'.tasks.get? id = state.tasks.get? id
  appliedEventIds : ∀ id, id ∈ state'.appliedEventIds ↔ id ∈ state.appliedEventIds

/-- A loop of claims takes every task, if they are eligible and there are slots for them. -/
theorem runAll_claimCandidate {cs : List Candidate} (ds : List Dispatch)
    (href : Refreshed s now) (hnd : (cs.map (·.taskId)).Nodup)
    (hel : ∀ c ∈ cs, ∃ task, s.tasks.get? c.taskId = some task ∧
      task.state = .eligible ∧ c.executionKey = task.executionKey ∧
      c.nextAttempt = task.attempt + 1)
    (hslots : cs.length ≤ s.maxConcurrent - activeCount s) :
    ∃ s' planned, runAll (claimCandidate P now) (s, ds) cs = .ok (s', ds ++ planned) ∧
      (cs.map fun c => (s.tasks.get? c.taskId).map (dispatchOf P c.taskId)) = planned.map some ∧
      ClaimedAll P s now (cs.map (·.taskId)) s' := by
  induction cs generalizing s ds with
  | nil =>
    refine ⟨s, [], by simp, rfl, ?_⟩
    exact ⟨nofun, fun _ _ => rfl, fun _ => Iff.rfl⟩
  | cons c rest ih =>
    obtain ⟨task, hget, hst, -, -⟩ := hel c mem_cons_self
    rw [map_cons, nodup_cons] at hnd
    rw [length_cons] at hslots
    obtain ⟨next, hcla, hnx⟩ := claimDispatch_of_eligible (P := P) href hget hst (by omega)
    have hoth {c' : Candidate} (hc' : c' ∈ rest) : c.taskId ≠ c'.taskId := fun heq =>
      hnd.1 (heq ▸ mem_map_of_mem hc')
    have hget' {c' : Candidate} (hc' : c' ∈ rest) :
        next.tasks.get? c'.taskId = s.tasks.get? c'.taskId := by
      rw [hnx.tasks, get?_set_of_ne _ _ (hoth hc')]
    obtain ⟨s', planned, hrun, hpld, hall⟩ := ih
      (ds ++ [dispatchOf P c.taskId task]) (hnx.refreshed href hget hst)
      hnd.2 (fun c' hc' => hget' hc' ▸ hel c' (mem_cons_of_mem c hc'))
      (by rw [hnx.activeCount hget hst, hnx.maxConcurrent]; omega)
    refine ⟨s', dispatchOf P c.taskId task :: planned, ?_, ?_, ?_⟩
    · refine runAll_cons_eq_ok.mpr ⟨_, ?_, (by simpa using hrun)⟩
      simp only [claimCandidate, bind_eq_ok]
      exact ⟨_, hcla, rfl⟩
    · rw [map_cons, map_cons, ← hpld, hget]
      exact congrArg _ (map_congr_left fun c' hc' => by rw [hget' hc'])
    · refine ⟨fun id hid task' htk' => ?_, fun id hid => ?_, fun id => ?_⟩
      · rcases mem_cons.mp hid with rfl | hid
        · -- The task claimed first is none of the others.
          rw [hget] at htk'
          cases htk'
          rw [hall.kept _ hnd.1, hnx.tasks, get?_set_self]
        · obtain ⟨c', hc', rfl⟩ := mem_map.mp hid
          exact hall.claimed _ hid _ (hget' hc' ▸ htk')
      · rw [map_cons, mem_cons, not_or] at hid
        rw [hall.kept _ hid.2, hnx.tasks, get?_set_of_ne _ _ (Ne.symm hid.1)]
      · exact (hall.appliedEventIds id).trans (hnx.appliedEventIds id)

/-- What a selection is made of. -/
structure Selected (state : KernelState) (now : Option Time) (selection : Selection) : Prop where
  state_eq : selection.state = refreshEligibility (normalizeState state) now
  nodup : (selection.dispatches.map (·.taskId)).Nodup
  eligible : ∀ c ∈ selection.dispatches, ∃ task, selection.state.tasks.get? c.taskId = some task ∧
    task.state = .eligible ∧ c.executionKey = task.executionKey ∧ c.nextAttempt = task.attempt + 1
  slots : selection.dispatches.length ≤ selection.state.maxConcurrent - activeCount selection.state

theorem selected_of_selectDispatches {limit : Rat} {sel : Selection}
    (h : selectDispatches P s now limit = .ok sel) : Selected s now sel := by
  simp only [selectDispatches, chain_eq_ok] at h
  obtain ⟨-, rfl⟩ := h
  set refreshed := refreshEligibility (normalizeState s) now
  set eligible := refreshed.tasks.entries.filter fun entry => entry.2.state = .eligible
  have hpm := perm_insertionSort (comesFirst P · ·) eligible
  refine ⟨rfl, ?_, ?_, ?_⟩
  · -- The names are among the keys, which are distinct.
    simp only [map_map, comp_def]
    refine ((take_sublist _ _).map _).nodup ?_
    refine (hpm.map _).nodup_iff.mpr ?_
    exact (filter_sublist.map _).nodup refreshed.tasks.nodup
  · intro c hc
    obtain ⟨⟨id, rec⟩, hmem, rfl⟩ := mem_map.mp hc
    obtain ⟨hentry, hst⟩ := mem_filter.mp (hpm.mem_iff.mp (mem_of_mem_take hmem))
    exact ⟨rec, get?_eq_some.mpr hentry, of_decide_eq_true hst, rfl, rfl⟩
  · simp only [length_map, length_take]
    exact (min_le_left _ _).trans (min_le_left _ _)

/-- The claims of a tick: the state after them, and the dispatches. -/
structure Claims (P : Platform) (selected : KernelState) (observedAt : Time) (claimed : KernelState)
    (dispatches : List Dispatch) : Prop where
  nodup : (dispatches.map (·.taskId)).Nodup
  eligible : ∀ d ∈ dispatches, ∃ task, selected.tasks.get? d.taskId = some task ∧
    task.state = .eligible ∧ d = dispatchOf P d.taskId task
  all : ClaimedAll P selected (some observedAt) (dispatches.map (·.taskId)) claimed

/-- **A tick claims the dispatches that are planned.** -/
theorem claimSelected_eq_plan {ts : List TaskInput} {obs : Time} {limit : Rat}
    {reconciled : KernelState} {sel : Selection}
    (hrcl : reconcileTasks P s ts (some obs) = .ok reconciled)
    (hslt : selectDispatches P reconciled (some obs) limit = .ok sel) :
    ∃ claimed ds, claimSelected P s ts obs limit = .ok (sel, claimed, ds) ∧
      planDispatchTick P s ts obs limit = .ok ⟨sel.state, ds,
        sel.dispatches.length, sel.availableSlots, obs⟩ ∧
      Claims P sel.state obs claimed ds := by
  have hsel := selected_of_selectDispatches hslt
  have href : Refreshed sel.state (some obs) := by
    rw [hsel.state_eq]
    exact refreshed_refreshEligibility _ _
  obtain ⟨claimed, ds, hrun, hpld, hall⟩ :=
    runAll_claimCandidate (P := P) [] href hsel.nodup hsel.eligible hsel.slots
  have hids : sel.dispatches.map (·.taskId) = ds.map (·.taskId) := by
    have hmap := congrArg (map (Option.map Dispatch.taskId)) hpld
    rw [map_map, map_map] at hmap
    refine (Option.some_injective _).list_map ?_
    rw [map_map, map_map]
    refine Eq.trans (map_congr_left fun c hc => ?_) hmap
    obtain ⟨task, hget, -⟩ := hsel.eligible c hc
    simp [hget, dispatchOf]
  refine ⟨claimed, ds, ?_, ?_, ⟨hids ▸ hsel.nodup, ?_, hids ▸ hall⟩⟩
  · simp only [claimSelected, chain_eq_ok]
    exact ⟨reconciled, hrcl, sel, hslt, _, hrun, rfl⟩
  · simp only [planDispatchTick, chain_eq_ok, mapM_eq_ok]
    refine ⟨reconciled, hrcl, sel, hslt, ds, ?_, rfl⟩
    -- Every candidate is read as the dispatch that was claimed for it.
    have hrd := congrArg (map fun o => require o (Thrown.typeError "")) hpld
    rw [map_map, map_map] at hrd
    refine Eq.trans (map_congr_left fun c hc => ?_) hrd
    obtain ⟨task, hget, -, hkey, hatt⟩ := hsel.eligible c hc
    simp only [comp_apply, hget, hkey, hatt, Option.map_some]
    rfl
  · intro d hd
    have hmem : some d ∈ ds.map some := mem_map_of_mem hd
    rw [← hpld, mem_map] at hmem
    obtain ⟨c, hc, hd⟩ := hmem
    obtain ⟨task, hget, hst, -⟩ := hsel.eligible c hc
    rw [hget, Option.map_some, Option.some.injEq] at hd
    subst hd
    exact ⟨task, hget, hst, rfl⟩

end Claims

end Orquesta.ExecutionKernel
