import Orquesta.ExecutionKernel.Startable

/-!
# Live tasks

A task is live while it is claimed, dispatching, running or waiting for its user.  A live task
is never claimed again; it keeps its dispatch, and only an event of its own makes it leave.

## Main definitions

* `IsHeld`: a task is live under a dispatch

## Main results

* `IsHeld.applyKernelEvent`: the events that end a live task
* `IsHeld.claimed`: the claims of a tick leave live tasks alone
* `IsHeld.settleAll`, `isHeld_of_fulfilled`: what is live once the outcomes of a tick are recorded
-/

namespace Orquesta.ExecutionKernel

open Checked Contract List OrderedMap

variable {P : Platform} {s s' : KernelState} {tid : Name} {did : String}

/-- The task is live under the dispatch. -/
def IsHeld (state : KernelState) (taskId : Name) (dispatchId : String) : Prop :=
  ∃ record, state.tasks.get? taskId = some record ∧ record.state.isLive ∧
    record.dispatchId = some dispatchId

/-- A task is live under one dispatch. -/
theorem IsHeld.unique {did' : String} (h : IsHeld s tid did) (h' : IsHeld s tid did') :
    did = did' := by
  obtain ⟨r, hget, -, hdsp⟩ := h
  obtain ⟨r', hget', -, hdsp'⟩ := h'
  rw [hget] at hget'
  cases hget'
  exact Option.some.inj (hdsp.symm.trans hdsp')

theorem isLeftAlone_of_isLive {r : TaskRecord} {now : Option Time} (h : r.state.isLive) :
    r.isLeftAlone now := by
  simp only [TaskState.isLive, Bool.or_eq_true, decide_eq_true_eq] at h
  rcases h with h | h
  · exact isLeftAlone_of_isActive h
  · simp [TaskRecord.isLeftAlone, h]

/-! ## Events -/

/-- The events that take a live task out of the live states. -/
def EventType.isFinal : EventType → Bool
  | .turnCompleted | .attemptFailed | .userInputResolved | .taskCancelled | .taskFailed => true
  | _ => false

theorem updateRecord_keeps {e : EventInput} {eid : Name} {t upd : TaskRecord}
    (hlv : t.state.isLive) (hadm : TRANSITIONS e.type t.state)
    (hfin : e.type.isFinal = false)
    (hok : updateRecord e eid tid t = .ok upd) :
    upd.state.isLive ∧ upd.dispatchId = t.dispatchId := by
  unfold updateRecord at hok
  cases hty : e.type <;> simp only [hty] at hok hadm hfin
  case dispatchAccepted =>
    simp only [chain_eq_ok] at hok
    obtain ⟨_, -, _, -, _, -, rfl⟩ := hok
    exact ⟨rfl, rfl⟩
  case turnStarted =>
    cases hok
    exact ⟨rfl, rfl⟩
  case progressObserved =>
    cases hok
    exact ⟨hlv, rfl⟩
  case modelObserved | runtimeErrorObserved =>
    simp only [chain_eq_ok] at hok
    obtain ⟨_, -, rfl⟩ := hok
    exact ⟨hlv, rfl⟩
  case userInputRequired =>
    simp only [chain_eq_ok] at hok
    obtain ⟨_, -, rfl⟩ := hok
    exact ⟨rfl, rfl⟩
  case verificationAccepted | retryDue =>
    -- These are not admitted in a live state.
    exfalso
    revert hlv hadm
    cases t.state <;> decide
  all_goals cases hfin

/-- A live task stays so, unless an event of its own ends it. -/
theorem IsHeld.applyKernelEvent {e : EventInput} (h : IsHeld s tid did)
    (hok : applyKernelEvent s e = .ok s') :
    IsHeld s' tid did ∨ (trim e.taskId = tid.text ∧ e.type.isFinal ∧
        ∃ r, s.tasks.get? tid = some r ∧ r.dispatchId = some did ∧
          TRANSITIONS e.type r.state ∧ isStale e r = false) := by
  obtain ⟨r, hget, hlv, hdsp⟩ := h
  obtain ⟨eid, tid', hid, htk, hcas⟩ := applyKernelEvent_eq_ok.mp hok
  rcases hcas with ⟨-, rfl⟩ | ⟨-, t, upd, htaskGet, hadm, hstl, -, -, hup, rfl⟩
  · exact .inl ⟨r, hget, hlv, hdsp⟩
  by_cases heq : tid = tid'
  · subst heq
    rw [hget] at htaskGet
    cases htaskGet
    cases hfin : e.type.isFinal with
    | true => exact .inr ⟨htk, rfl, r, hget, hdsp, hadm, hstl⟩
    | false =>
      obtain ⟨hlv', hdsp'⟩ := updateRecord_keeps hlv hadm hfin hup
      refine .inl ⟨upd, ?_, hlv', hdsp'.trans hdsp⟩
      exact get?_refreshEligibility_of_leftAlone (get?_set_self _ _ _) (isLeftAlone_of_isLive hlv')
  · refine .inl ⟨r, ?_, hlv, hdsp⟩
    refine get?_refreshEligibility_of_leftAlone ?_ (isLeftAlone_of_isLive hlv)
    change (s.tasks.set tid' upd).get? tid = some r
    rw [get?_set_of_ne _ _ (Ne.symm heq), hget]

/-! ## The claims of a tick -/

section Tick

variable {is : List TaskInput} {obs : Time} {limit : Rat} {sel : Selection}
  {claims : KernelState} {ds : List Dispatch}

/-- A live task is not claimed by a tick, and stays live. -/
theorem IsHeld.claimed (h : IsHeld s tid did)
    (hcs : claimSelected P s is obs limit = .ok (sel, claims, ds)) :
    tid ∉ ds.map (·.taskId) ∧ IsHeld claims tid did := by
  obtain ⟨r, hget, hlv, hdsp⟩ := h
  obtain ⟨reconciled, hrcl, hslt, hcd, -⟩ := claimSelected_eq_ok hcs
  obtain ⟨defs, ts, -, htak, hsel⟩ := exists_selected hrcl hslt
  -- The definitions leave the state and the dispatch of the task as they are.
  obtain ⟨taken, htakenGet, hlv', hdsp'⟩ : ∃ taken, ts.get? tid = some taken ∧
      taken.state.isLive ∧ taken.dispatchId = some did := by
    obtain ⟨taken, htk, rfl | ⟨d, -, -, rfl⟩⟩ := htak.of_some hget
    · exact ⟨taken, htk, hlv, hdsp⟩
    · exact ⟨_, htk, hlv, hdsp⟩
  have halo : taken.isLeftAlone (some obs) := isLeftAlone_of_isLive hlv'
  have hnot : tid ∉ ds.map (·.taskId) := by
    intro hmem
    obtain ⟨d, hd, rfl⟩ := mem_map.mp hmem
    obtain ⟨started, hstd, hstb, -⟩ := startable_of_claimed hsel hcd d hd
    rw [htakenGet] at hstd
    cases hstd
    rw [halo] at hstb
    cases hstb
  refine ⟨hnot, taken, ?_, hlv', hdsp'⟩
  rw [hcd.all.kept tid hnot, hsel, htakenGet, Option.map_some, refreshRecord_of_leftAlone halo]

/-! ## The outcomes of a tick -/

variable {retry : RetryOptions} {os : Dispatch → Settled}
  {acc acc' : KernelState × List DispatchResult}

/-- A live task of which a tick records nothing stays live. -/
theorem IsHeld.settleAll (h : IsHeld acc.1 tid did) (hnot : tid ∉ ds.map (·.taskId))
    (hrun : settleAll P retry obs os acc ds = .ok acc') :
    IsHeld acc'.1 tid did := by
  obtain ⟨r, hget, hlv, hdsp⟩ := h
  exact ⟨r, settleAll_kept hnot hget (fun _ _ _ _ => isLeftAlone_of_isLive hlv) hrun, hlv, hdsp⟩

/-- A claimed task whose start was accepted is live, whether its event is taken or not. -/
theorem isHeld_of_fulfilled (hnd : (ds.map (·.taskId)).Nodup)
    (hcd : AllClaimed acc.1 ds) {d : Dispatch} (hd : d ∈ ds) {v : StartResult}
    (hout : os d = .fulfilled v)
    (hrun : settleAll P retry obs os acc ds = .ok acc') :
    IsHeld acc'.1 d.taskId d.dispatchId := by
  induction ds generalizing acc with
  | nil => cases hd
  | cons e rest ih =>
    obtain ⟨acc₁, hok, hrs⟩ := settleAll_cons.mp hrun
    have hnd' := nodup_cons.mp hnd
    rcases mem_cons.mp hd with rfl | hd
    · obtain ⟨t, hget, hcdd⟩ := hcd d mem_cons_self
      refine IsHeld.settleAll ?_ hnd'.1 hrs
      by_cases hnew : Unapplied acc.1 (outcomeEventId d (.settled (os d)))
      · obtain ⟨-, ⟨upd, hget₁, hset⟩, -⟩ := settle_taken hok hget hcdd hnew
        have hrcd := hset.recorded
        rw [hout] at hrcd
        exact ⟨upd, hget₁, by rw [hrcd.2.1]; rfl, hrcd.1⟩
      · exact ⟨t, settle_ignored hok hget hnew, by rw [hcdd.state]; rfl, hcdd.dispatchId⟩
    · exact ih hnd'.2 (hcd.settle hnd hok) hd hrs

/-- The outcomes of a tick that can be recorded are, or their events were applied before. -/
theorem exists_settleAll (hnd : (ds.map (·.taskId)).Nodup) (hcd : AllClaimed acc.1 ds)
    (hrecb : ∀ d ∈ ds, Recordable P retry obs d (.settled (os d))) :
    ∃ acc', ExecutionKernel.settleAll P retry obs os acc ds = .ok acc' := by
  induction ds generalizing acc with
  | nil => exact ⟨acc, rfl⟩
  | cons d rest ih =>
    obtain ⟨t, hget, hcdd⟩ := hcd d mem_cons_self
    obtain ⟨acc₁, hok⟩ := exists_settle acc hget hcdd (hrecb d mem_cons_self)
    obtain ⟨acc', hrun⟩ := ih (nodup_cons.mp hnd).2 (hcd.settle hnd hok)
      fun e he => hrecb e (mem_cons_of_mem d he)
    exact ⟨acc', settleAll_cons.mpr ⟨acc₁, hok, hrun⟩⟩

end Tick

end Orquesta.ExecutionKernel
