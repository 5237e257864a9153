import Orquesta.ExecutionKernel.Tick

/-!
# What a tick records

All starts of a tick are made before any outcome is recorded, and an outcome that the
kernel refuses makes the tick throw: then what was recorded so far is lost with what was
not.  `started_recorded_iff` says for every adapter when every dispatch that was started is
recorded.

An outcome can fail to be recorded by itself (`Recordable`), because its event was applied
before, because another dispatch of the tick has the same identity, or because a later
outcome is dated after its retry (`NotOvertaken`).

## Main definitions

* `Recorded`
* `Recordable`, `AllRecordable`

## Main results

* `started_recorded_iff`
-/

namespace Orquesta.ExecutionKernel

open Checked Contract List Prod

/-! ## Recorded outcomes -/

/-- The identity that is kept of a value. -/
def JsValue.identity (value : JsValue) : Option Name :=
  match value.clone with
  | .ok (.text s) => (nonempty s "").toOption
  | _ => none

/-- The error that is kept of a reason. -/
def Reason.errorName (reason : Reason) : Option Name :=
  match reason.message >>= JsValue.clone with
  | .ok message => ((message.orElse "attempt_failed").nonempty "").toOption
  | .error _ => none

/-- The record of a task says what became of its dispatch. -/
def Outcome.IsRecordedIn (dispatch : Dispatch) (task : TaskRecord) : Outcome → Prop
  | .settled (.fulfilled value) =>
    task.dispatchId = some dispatch.dispatchId ∧ task.state = .dispatching ∧
    task.correlationId = value.correlationId.identity ∧ task.threadId = value.threadId.identity ∧
    task.turnId = value.turnId.identity
  | .settled (.rejected reason) | .threw reason =>
    task.dispatchId = some dispatch.dispatchId ∧ task.state = .retryQueued ∧
    ∃ error, reason.errorName = some error ∧ task.lastError = some error

def Recorded (state : KernelState) (dispatch : Dispatch) (outcome : Outcome) : Prop :=
  ∃ task, state.tasks.get? dispatch.taskId = some task ∧ outcome.IsRecordedIn dispatch task

/-! ## Outcomes that can be recorded -/

variable (P : Platform) (retry : RetryOptions) (observedAt : Time)

/-- The time from which a dispatch that failed is tried again. -/
def retryTime (dispatch : Dispatch) : Except Thrown Time := do
  let delay ← retryDelayMs dispatch.attempt retry
  addMilliseconds observedAt delay

/-- The value survives a round trip through JSON. -/
def JsValue.IsSerializable (value : JsValue) : Prop := ∃ field, value.clone = .ok field

/-- The value is missing, or it is a text that is not blank. -/
def JsValue.IsIdentity (value : JsValue) : Prop :=
  ∃ field, value.clone = .ok field ∧ (field.truthy → ∃ s, field = .text s ∧ trim s ≠ "")

/-- The outcome of a start is one the kernel can record. -/
def Recordable (dispatch : Dispatch) : Outcome → Prop
  | .settled (.fulfilled value) =>
    (∃ time, acceptedAt P observedAt value = .ok time) ∧
    value.correlationId.IsIdentity ∧ value.threadId.IsIdentity ∧ value.turnId.IsIdentity ∧
    value.modelEvidence.IsSerializable ∧ value.runtimeProfile.IsSerializable
  | .settled (.rejected reason) =>
    (∃ time, retryTime retry observedAt dispatch = .ok time) ∧ reason.errorName.isSome
  | .threw _ => False

/-- The id of the event for an outcome. -/
def outcomeEventId (dispatch : Dispatch) : Outcome → String
  | .settled (.fulfilled _) => dispatch.dispatchId ++ ":" ++ EventType.dispatchAccepted.text
  | _ => dispatch.dispatchId ++ ":" ++ EventType.attemptFailed.text

/-- The time of the event for an outcome. -/
def Settled.time : Settled → Except Thrown Time
  | .fulfilled value => acceptedAt P observedAt value
  | .rejected _ => .ok observedAt

/-- The retry of a dispatch is not due when a later outcome is recorded. -/
def NotOvertaken (dispatch : Dispatch) : Outcome → Outcome → Prop
  | .settled (.rejected _), .settled (.fulfilled value) =>
    ∀ retryAt time, retryTime retry observedAt dispatch = .ok retryAt →
      acceptedAt P observedAt value = .ok time → time < retryAt
  | _, _ => True

/-- The outcomes of the dispatches can all be recorded, one after the other. -/
@[mk_iff]
structure AllRecordable (state : KernelState) (start : Dispatch → Outcome)
    (dispatches : List Dispatch) : Prop where
  recordable : ∀ d ∈ dispatches, Recordable P retry observedAt d (start d)
  unapplied : ∀ d ∈ dispatches, Unapplied state (outcomeEventId d (start d))
  distinct : dispatches.Pairwise fun d e =>
    trim (outcomeEventId d (start d)) ≠ trim (outcomeEventId e (start e))
  notOvertaken : dispatches.Pairwise fun d e =>
    NotOvertaken P retry observedAt d (start d) (start e)

/-! ## One outcome -/

/-- The event for an outcome, and what is reported. -/
def settledEvent (dispatch : Dispatch) : Settled → Except Thrown (EventInput × DispatchResult)
  | .fulfilled value => do
    let acceptedAt ← acceptedAt P observedAt value
    let event ← acceptedEvent dispatch value acceptedAt
    return (event, .dispatching dispatch acceptedAt value)
  | .rejected reason => do
    let retryAt ← retryTime retry observedAt dispatch
    let message ← reason.message >>= JsValue.clone
    return (failedEvent dispatch observedAt retryAt message, .retryQueued dispatch retryAt)

variable {P retry observedAt} {state : KernelState} {dp : Dispatch} {o : Settled}
  {tk : TaskRecord} {e : EventInput} {res : DispatchResult}

/-- An outcome is recorded by its event. -/
theorem settle_eq_ok {acc acc' : KernelState × List DispatchResult} :
    settle P retry observedAt acc (dp, o) = .ok acc' ↔
      ∃ e res, settledEvent P retry observedAt dp o = .ok (e, res) ∧
        applyKernelEvent acc.1 e = .ok acc'.1 ∧ acc'.2 = acc.2 ++ [res] := by
  obtain ⟨s', results'⟩ := acc'
  cases o with
  | fulfilled v =>
    simp only [settle, settledEvent, chain_eq_ok, mk.injEq]
    constructor
    · rintro ⟨t, hti, e, hevt, s₁, hok, rfl, rfl⟩
      exact ⟨e, _, ⟨t, hti, e, hevt, rfl, rfl⟩, hok, rfl⟩
    · rintro ⟨e, _, ⟨t, hti, _, hevt, rfl, rfl⟩, hok, rfl⟩
      exact ⟨t, hti, _, hevt, s', hok, rfl, rfl⟩
  | rejected reason =>
    simp only [settle, settledEvent, retryTime, chain_eq_ok, mk.injEq]
    constructor
    · rintro ⟨delay, hde, due, hrt, m, hmsg, field, hfd', s₁, hok, rfl, rfl⟩
      exact ⟨_, _, ⟨due, ⟨delay, hde, hrt⟩, field, ⟨m, hmsg, hfd'⟩, rfl, rfl⟩, hok,
        rfl⟩
    · rintro ⟨_, _, ⟨due, ⟨delay, hde, hrt⟩, field, ⟨m, hmsg, hfd'⟩, rfl, rfl⟩, hok,
        rfl⟩
      exact ⟨delay, hde, due, hrt, m, hmsg, field, hfd', s', hok, rfl, rfl⟩

/-- What every event for an outcome has in common. -/
structure IsEventOf (P : Platform) (observedAt : Time) (dispatch : Dispatch) (outcome : Settled)
    (event : EventInput) : Prop where
  eventId : event.eventId = outcomeEventId dispatch (.settled outcome)
  taskId : event.taskId = dispatch.taskId.text
  dispatchId : event.dispatchId = some dispatch.dispatchId
  admitted : TRANSITIONS event.type .claimed
  time : ∃ time, outcome.time P observedAt = .ok time ∧ event.observedAt = some time

theorem isEventOf_settledEvent (h : settledEvent P retry observedAt dp o = .ok (e, res)) :
    IsEventOf P observedAt dp o e := by
  cases o with
  | fulfilled v =>
    simp only [settledEvent, acceptedEvent, chain_eq_ok, mk.injEq] at h
    obtain ⟨t, hti, _, ⟨_, -, _, -, _, -, _, -, _, -, rfl⟩, rfl, -⟩ := h
    exact ⟨rfl, rfl, rfl, rfl, t, hti, rfl⟩
  | rejected reason =>
    simp only [settledEvent, chain_eq_ok, mk.injEq] at h
    obtain ⟨due, -, field, -, rfl, -⟩ := h
    exact ⟨rfl, rfl, rfl, rfl, observedAt, rfl, rfl⟩

theorem Field.nonempty_eq_ok {v : Field} {field : String} {n : Name} :
    v.nonempty field = .ok n ↔ ∃ s, v = .text s ∧ trim s = n.text := by
  cases v with
  | text s => simp [Field.nonempty, ExecutionKernel.nonempty_eq_ok]
  | absent => exact iff_of_false nofun nofun
  | other => exact iff_of_false nofun nofun

/-- The record of a task that was just claimed for the dispatch. -/
structure IsClaimed (dispatch : Dispatch) (task : TaskRecord) : Prop where
  state : task.state = .claimed
  dispatchId : task.dispatchId = some dispatch.dispatchId
  correlationId : task.correlationId = none
  threadId : task.threadId = none
  turnId : task.turnId = none

variable {v : JsValue}

theorem identity_eq_some {s : String} {n : Name}
    (hcln : v.clone = .ok (.text s)) (h : trim s = n.text) : v.identity = some n := by
  rw [JsValue.identity, hcln]
  simp only [nonempty_eq_ok.mpr h]
  rfl

theorem identity_eq_none {field : Field} (hcln : v.clone = .ok field)
    (h : field.truthy = false) : v.identity = none := by
  rw [JsValue.identity, hcln]
  cases field with
  | absent => rfl
  | other => rfl
  | text s =>
    obtain rfl : s = "" := by simpa [Field.truthy] using h
    rfl

/-- An identity is taken over if it is missing or a text that is not blank. -/
theorem orKeep_none_eq_ok {field : Field} {text : String} {id : Option Name}
    (hcln : v.clone = .ok field) :
    field.orKeep text none = .ok id ↔ v.IsIdentity ∧ id = v.identity := by
  have hid : v.IsIdentity ↔ (field.truthy → ∃ s, field = .text s ∧ trim s ≠ "") := by
    simp only [JsValue.IsIdentity, hcln, Except.ok.injEq, exists_eq_left']
  rw [hid]
  unfold Field.orKeep
  cases htruthy : field.truthy with
  | false =>
    rw [identity_eq_none hcln htruthy]
    exact ⟨fun h => ⟨nofun, (Except.ok.inj h).symm⟩, fun h => congrArg Except.ok h.2.symm⟩
  | true =>
    simp only [if_true, map_eq_ok, forall_const]
    constructor
    · rintro ⟨name, hok, rfl⟩
      cases field with
      | absent => cases hok
      | other => cases hok
      | text s =>
        have hnm := nonempty_eq_ok.mp hok
        exact ⟨⟨s, rfl, hnm ▸ name.nonblank⟩, (identity_eq_some hcln hnm).symm⟩
    · rintro ⟨⟨s, rfl, hs⟩, rfl⟩
      obtain ⟨name, hnm⟩ := exists_name hs
      exact ⟨name, nonempty_eq_ok.mpr hnm, (identity_eq_some hcln hnm).symm⟩

variable {eventId taskId : Name} {upd : TaskRecord}

/-- The record after an accepted start. -/
theorem updateRecord_fulfilled {v : StartResult} (hcd : IsClaimed dp tk)
    (h : settledEvent P retry observedAt dp (.fulfilled v) = .ok (e, res)) :
    updateRecord e eventId taskId tk = .ok upd ↔
      (v.correlationId.IsIdentity ∧ v.threadId.IsIdentity ∧ v.turnId.IsIdentity) ∧
      upd = { tk with
        state := .dispatching
        dispatchAcceptedAt := e.observedAt
        correlationId := v.correlationId.identity
        threadId := v.threadId.identity
        turnId := v.turnId.identity
        modelEvidence := if e.modelEvidence.truthy then e.modelEvidence else tk.modelEvidence
        runtimeProfile :=
          if e.runtimeProfile.truthy then e.runtimeProfile else tk.runtimeProfile } := by
  simp only [settledEvent, acceptedEvent, chain_eq_ok, mk.injEq] at h
  obtain ⟨t, hti, _, ⟨correlation, hcor, thread, hth, turn, htn, _, -, _, -, rfl⟩, rfl, -⟩ := h
  simp only [updateRecord, hcd.correlationId, hcd.threadId, hcd.turnId, chain_eq_ok,
    orKeep_none_eq_ok hcor, orKeep_none_eq_ok hth, orKeep_none_eq_ok htn]
  constructor
  · rintro ⟨_, ⟨hc, rfl⟩, _, ⟨ht, rfl⟩, _, ⟨hu, rfl⟩, rfl⟩
    exact ⟨⟨hc, ht, hu⟩, rfl⟩
  · rintro ⟨⟨hc, ht, hu⟩, rfl⟩
    exact ⟨_, ⟨hc, rfl⟩, _, ⟨ht, rfl⟩, _, ⟨hu, rfl⟩, rfl⟩

/-- The record after a start that failed. -/
theorem updateRecord_rejected {reason : Reason}
    (h : settledEvent P retry observedAt dp (.rejected reason) = .ok (e, res)) :
    updateRecord e eventId taskId tk = .ok upd ↔
      ∃ err due, reason.errorName = some err ∧ retryTime retry observedAt dp = .ok due ∧
      upd = { tk with
          state := .retryQueued, retryAt := some due, lastError := some err } := by
  simp only [settledEvent, chain_eq_ok, mk.injEq] at h
  obtain ⟨due, hrt, field, hfd', rfl, -⟩ := h
  have hnm (err : Name) : reason.errorName = some err ↔
      (field.orElse "attempt_failed").nonempty "event.error" = .ok err := by
    rw [Reason.errorName, bind_eq_ok.mpr hfd', toOption_eq_some, Field.nonempty_eq_ok,
      Field.nonempty_eq_ok]
  simp only [updateRecord, failedEvent, chain_eq_ok, hnm, hrt, Except.ok.injEq]
  constructor
  · rintro ⟨err, herr, rfl⟩
    exact ⟨err, due, herr, rfl, rfl⟩
  · rintro ⟨err, _, herr, rfl, rfl⟩
    exact ⟨err, herr, rfl⟩

/-- An outcome can be recorded if its event can be made and applied to the record of the task. -/
theorem recordable_iff (hcd : IsClaimed dp tk) (eventId taskId : Name) :
    Recordable P retry observedAt dp (.settled o) ↔
      ∃ e res upd, settledEvent P retry observedAt dp o = .ok (e, res) ∧
        updateRecord e eventId taskId tk = .ok upd := by
  cases o with
  | fulfilled v =>
    rw [Recordable]
    constructor
    · rintro ⟨⟨t, hti⟩, hcor, hth, htn, ⟨ev, hev⟩, ⟨profile, hprof⟩⟩
      obtain ⟨e, res, hevt⟩ : ∃ e res, settledEvent P retry observedAt dp (.fulfilled v) =
          .ok (e, res) := by
        obtain ⟨correlation, hcor, -⟩ := hcor
        obtain ⟨thread, hth, -⟩ := hth
        obtain ⟨turn, htn, -⟩ := htn
        simp only [settledEvent, acceptedEvent, hti, hcor, hth, htn, hev, hprof]
        exact ⟨_, _, rfl⟩
      exact ⟨e, res, _, hevt, (updateRecord_fulfilled hcd hevt).mpr ⟨⟨hcor, hth, htn⟩, rfl⟩⟩
    · rintro ⟨e, res, upd, hevt, hup⟩
      obtain ⟨⟨hcor, hth, htn⟩, -⟩ := (updateRecord_fulfilled hcd hevt).mp hup
      simp only [settledEvent, acceptedEvent, chain_eq_ok] at hevt
      obtain ⟨t, hti, _, ⟨_, -, _, -, _, -, ev, hev, profile, hprof, -⟩, -⟩ := hevt
      exact ⟨⟨t, hti⟩, hcor, hth, htn, ⟨ev, hev⟩, ⟨profile, hprof⟩⟩
  | rejected reason =>
    rw [Recordable]
    constructor
    · rintro ⟨⟨t, hti⟩, herr⟩
      obtain ⟨err, herr⟩ := Option.isSome_iff_exists.mp herr
      obtain ⟨m, hmsg⟩ : ∃ m, (reason.message >>= JsValue.clone) = .ok m := by
        rw [Reason.errorName] at herr
        split at herr
        · exact ⟨_, ‹_›⟩
        · cases herr
      have hevt : settledEvent P retry observedAt dp (.rejected reason) =
          .ok (failedEvent dp observedAt t m, .retryQueued dp t) := by
        rw [settledEvent, hti, hmsg]
        rfl
      exact ⟨_, _, _, hevt, (updateRecord_rejected hevt).mpr ⟨err, t, herr, hti, rfl⟩⟩
    · rintro ⟨e, res, upd, hevt, hup⟩
      obtain ⟨err, due, herr, hrt, -⟩ := (updateRecord_rejected hevt).mp hup
      exact ⟨⟨due, hrt⟩, Option.isSome_iff_exists.mpr ⟨err, herr⟩⟩

/-- What is known of a task whose outcome was recorded. -/
structure IsSettled (retry : RetryOptions) (observedAt : Time) (dispatch : Dispatch)
    (outcome : Settled) (task : TaskRecord) : Prop where
  recorded : (Outcome.settled outcome).IsRecordedIn dispatch task
  retryAt : ∀ reason, outcome = .rejected reason →
    ∃ retryAt, retryTime retry observedAt dispatch = .ok retryAt ∧ task.retryAt = some retryAt

theorem isSettled_of_updateRecord (hcd : IsClaimed dp tk)
    (hevt : settledEvent P retry observedAt dp o = .ok (e, res))
    (hup : updateRecord e eventId taskId tk = .ok upd) :
    IsSettled retry observedAt dp o upd := by
  cases o with
  | fulfilled v =>
    obtain ⟨-, rfl⟩ := (updateRecord_fulfilled hcd hevt).mp hup
    exact ⟨⟨hcd.dispatchId, rfl, rfl, rfl, rfl⟩, nofun⟩
  | rejected reason =>
    obtain ⟨err, due, herr, hrt, rfl⟩ := (updateRecord_rejected hevt).mp hup
    exact ⟨⟨hcd.dispatchId, rfl, err, herr, rfl⟩, fun _ _ => ⟨due, hrt, rfl⟩⟩

theorem observedAt_lt_retryTime {due : Time} (h : retryTime retry observedAt dp = .ok due) :
    observedAt < due := by
  obtain ⟨delay, hde, hrt⟩ := bind_eq_ok.mp h
  change observedAt.ms < due.ms
  rw [addMilliseconds_eq_ok.mp hrt]
  exact lt_add_of_pos_right _ (retryDelayMs_pos hde)

/-- The record of a settled task is left alone at the time of its own event. -/
theorem IsSettled.isLeftAlone (h : IsSettled retry observedAt dp o tk) {t : Time}
    (hti : o.time P observedAt = .ok t) : tk.isLeftAlone (some t) := by
  cases o with
  | fulfilled v =>
    have hst : tk.state = .dispatching := h.recorded.2.1
    exact isLeftAlone_of_isActive (by rw [hst]; rfl)
  | rejected reason =>
    have hst : tk.state = .retryQueued := h.recorded.2.1
    obtain ⟨due, hrt, hrty⟩ := h.retryAt reason rfl
    cases hti
    have hnotDue : ¬ due ≤ observedAt := Time.not_le.mpr (observedAt_lt_retryTime hrt)
    simp [TaskRecord.isLeftAlone, TaskRecord.isDue, hst, hrty, hnotDue]

variable {acc acc' : KernelState × List DispatchResult}

/-- An outcome that can be recorded is, unless its event was applied before. -/
theorem exists_settle (acc : KernelState × List DispatchResult)
    (hget : acc.1.tasks.get? dp.taskId = some tk)
    (hcd : IsClaimed dp tk)
    (hrecb : Recordable P retry observedAt dp (.settled o)) :
    ∃ acc', settle P retry observedAt acc (dp, o) = .ok acc' := by
  have hbk : trim (outcomeEventId dp (.settled o)) ≠ "" := by
    cases o <;> exact trim_ne_empty (c := ':') (by simp [outcomeEventId]) (by decide)
  obtain ⟨eventId, hid⟩ := exists_name hbk
  obtain ⟨e, res, upd, hevt, hup⟩ := (recordable_iff hcd eventId dp.taskId).mp hrecb
  have hof := isEventOf_settledEvent hevt
  have hid' : trim e.eventId = eventId.text := by rw [hof.eventId, hid]
  have htk : trim e.taskId = dp.taskId.text := by rw [hof.taskId, dp.taskId.trimmed]
  obtain ⟨state', hap⟩ : ∃ state', applyKernelEvent acc.1 e = .ok state' := by
    by_cases hapd : eventId ∈ acc.1.appliedEventIds
    · exact ⟨_, applyKernelEvent_eq_ok.mpr ⟨eventId, dp.taskId, hid', htk, .inl ⟨hapd, rfl⟩⟩⟩
    · have hadm : TRANSITIONS e.type tk.state := by
        rw [hcd.state]
        exact hof.admitted
      have hstl : isStale e tk = false := isStale_of_eq (by rw [hof.dispatchId, hcd.dispatchId])
      have hth : e.threadId.differs tk.threadId = false := by
        rw [hcd.threadId]
        rfl
      have htn : e.turnId.differs tk.turnId = false := by
        rw [hcd.turnId]
        rfl
      exact ⟨_, applyKernelEvent_eq_ok.mpr ⟨eventId, dp.taskId, hid', htk, .inr ⟨hapd, tk,
        upd, hget, hadm, hstl, hth, htn, hup, rfl⟩⟩⟩
  exact ⟨(state', acc.2 ++ [res]), settle_eq_ok.mpr ⟨e, res, hevt, hap, rfl⟩⟩

section Settle

variable (hok : settle P retry observedAt acc (dp, o) = .ok acc')
include hok

/-- A claimed task whose event was not applied before is settled. -/
theorem settle_taken (hget : acc.1.tasks.get? dp.taskId = some tk) (hcd : IsClaimed dp tk)
    (hnew : Unapplied acc.1 (outcomeEventId dp (.settled o))) :
    Recordable P retry observedAt dp (.settled o) ∧
    (∃ upd, acc'.1.tasks.get? dp.taskId = some upd ∧ IsSettled retry observedAt dp o upd) ∧
    ∀ text, Unapplied acc'.1 text ↔
      Unapplied acc.1 text ∧ trim (outcomeEventId dp (.settled o)) ≠ trim text := by
  obtain ⟨e, res, hevt, hap, -⟩ := settle_eq_ok.mp hok
  have hof := isEventOf_settledEvent hevt
  obtain ⟨t, hti, hobs⟩ := hof.time
  obtain ⟨eventId, taskId, hid, htk, hcas⟩ := applyKernelEvent_eq_ok.mp hap
  obtain rfl : dp.taskId = taskId := Name.ext (by rw [← htk, hof.taskId, dp.taskId.trimmed])
  rw [hof.eventId] at hid
  rcases hcas with ⟨hapd, -⟩ | ⟨-, tk', upd, hget', -, -, -, -, hup, hst⟩
  · exact absurd hapd ((unapplied_iff hid).mp hnew)
  · rw [hget] at hget'
    cases hget'
    have hset := isSettled_of_updateRecord hcd hevt hup
    refine ⟨(recordable_iff hcd eventId _).mpr ⟨e, res, upd, hevt, hup⟩, ⟨upd, ?_, hset⟩,
      fun text => ?_⟩
    · rw [hst, hobs]
      exact get?_refreshEligibility_of_leftAlone (OrderedMap.get?_set_self _ _ _)
        (hset.isLeftAlone hti)
    · rw [hst, unapplied_recordEvent, hid]

/-- A claimed task whose event was applied before stays claimed. -/
theorem settle_ignored (hget : acc.1.tasks.get? dp.taskId = some tk)
    (hapd : ¬ Unapplied acc.1 (outcomeEventId dp (.settled o))) :
    acc'.1.tasks.get? dp.taskId = some tk := by
  obtain ⟨e, res, hevt, hap, -⟩ := settle_eq_ok.mp hok
  obtain ⟨eventId, taskId, hid, -, hcas⟩ := applyKernelEvent_eq_ok.mp hap
  rw [(isEventOf_settledEvent hevt).eventId] at hid
  rcases hcas with ⟨-, hst⟩ | ⟨hnew, -⟩
  · rw [hst]
    exact hget
  · exact absurd ((unapplied_iff hid).mpr hnew) hapd

/-- What an outcome does to the other tasks. -/
theorem settle_frame {id : Name} (hne : id ≠ dp.taskId) (hget : acc.1.tasks.get? id = some tk) :
    (¬ Unapplied acc.1 (outcomeEventId dp (.settled o)) ∧ acc'.1.tasks.get? id = some tk) ∨
    ∃ ts t, o.time P observedAt = .ok t ∧
    acc'.1.tasks.get? id = some (refreshRecord ts (some t) tk) := by
  obtain ⟨e, res, hevt, hap, -⟩ := settle_eq_ok.mp hok
  have hof := isEventOf_settledEvent hevt
  obtain ⟨t, hti, hobs⟩ := hof.time
  rcases get?_applyKernelEvent_of_ne hap hof.taskId hne hget with ⟨hapd, hkp⟩ | ⟨ts, href⟩
  · exact .inl ⟨hof.eventId ▸ hapd, hkp⟩
  · exact .inr ⟨ts, t, hti, hobs ▸ href⟩

/-- A record that is left alone at the time of an outcome is kept. -/
theorem settle_kept {id : Name} (hne : id ≠ dp.taskId) (hget : acc.1.tasks.get? id = some tk)
    (halo : ∀ t, o.time P observedAt = .ok t → tk.isLeftAlone (some t)) :
    acc'.1.tasks.get? id = some tk := by
  rcases settle_frame hok hne hget with ⟨-, hkp⟩ | ⟨ts, t, hti, href⟩
  · exact hkp
  · rw [href, refreshRecord_of_leftAlone (halo t hti)]

end Settle

/-! ## All outcomes -/

section Run

variable {st : Dispatch → Outcome} {os : Dispatch → Settled} {ds : List Dispatch}
  {id : Name}

/-- The outcomes are recorded one after the other. -/
def settleAll (P : Platform) (retry : RetryOptions) (observedAt : Time)
    (outcomes : Dispatch → Settled) (acc : KernelState × List DispatchResult)
    (dispatches : List Dispatch) : Except Thrown (KernelState × List DispatchResult) :=
  runAll (settle P retry observedAt) acc (dispatches.map fun d => (d, outcomes d))

variable {d : Dispatch}

theorem settleAll_cons : settleAll P retry observedAt os acc (d :: ds) = .ok acc' ↔
      ∃ acc₁, settle P retry observedAt acc (d, os d) = .ok acc₁ ∧
        settleAll P retry observedAt os acc₁ ds = .ok acc' :=
  runAll_cons_eq_ok

/-- What no outcome touches is kept. -/
theorem settleAll_kept (hid : id ∉ ds.map (·.taskId)) (hget : acc.1.tasks.get? id = some tk)
    (halo : ∀ d ∈ ds, ∀ t, (os d).time P observedAt = .ok t → tk.isLeftAlone (some t))
    (hrun : settleAll P retry observedAt os acc ds = .ok acc') :
    acc'.1.tasks.get? id = some tk := by
  induction ds generalizing acc with
  | nil =>
    cases hrun
    exact hget
  | cons d rest ih =>
    rw [map_cons, mem_cons, not_or] at hid
    obtain ⟨acc₁, hok, hrun⟩ := settleAll_cons.mp hrun
    have hget₁ := settle_kept hok hid.1 hget (halo d mem_cons_self)
    exact ih hid.2 hget₁ (fun e he => halo e (mem_cons_of_mem d he)) hrun

/-- The states of a task that waits to be claimed. -/
def TaskState.isIdle (state : TaskState) : Bool :=
  state = .eligible || state = .waitingForDependency

theorem isIdle_refreshRecord {ts : OrderedMap Name TaskRecord} {now : Option Time}
    (h : tk.isLeftAlone now = false) : (refreshRecord ts now tk).state.isIdle := by
  rw [refreshRecord, h]
  rcases desired_eq (dependencyStatus ts tk) with hst | hst <;>
    simp [TaskState.isIdle, hst]

theorem isLeftAlone_of_isIdle {now : Option Time} (h : tk.state.isIdle) :
    tk.isLeftAlone now = false := by
  simp only [TaskState.isIdle, Bool.or_eq_true, decide_eq_true_eq] at h
  rcases h with h | h <;> simp [TaskRecord.isLeftAlone, h, TaskState.isTerminal, TaskState.isActive]

/-- A task that waits to be claimed goes on waiting. -/
theorem settleAll_idle (hid : id ∉ ds.map (·.taskId)) (hget : acc.1.tasks.get? id = some tk)
    (hidle : tk.state.isIdle)
    (hrun : settleAll P retry observedAt os acc ds = .ok acc') :
    ∃ tk', acc'.1.tasks.get? id = some tk' ∧ tk'.state.isIdle := by
  induction ds generalizing acc tk with
  | nil =>
    cases hrun
    exact ⟨tk, hget, hidle⟩
  | cons d rest ih =>
    rw [map_cons, mem_cons, not_or] at hid
    obtain ⟨acc₁, hok, hrun⟩ := settleAll_cons.mp hrun
    rcases settle_frame hok hid.1 hget with ⟨-, hkp⟩ | ⟨ts, t, -, href⟩
    · exact ih hid.2 hkp hidle hrun
    · exact ih hid.2 href (isIdle_refreshRecord (isLeftAlone_of_isIdle hidle)) hrun

/-- The dispatches are those of tasks that were just claimed. -/
def AllClaimed (state : KernelState) (dispatches : List Dispatch) : Prop :=
  ∀ d ∈ dispatches, ∃ task, state.tasks.get? d.taskId = some task ∧ IsClaimed d task

theorem IsClaimed.isLeftAlone (h : IsClaimed dp tk) (now : Option Time) : tk.isLeftAlone now :=
  isLeftAlone_of_isActive (by rw [h.state]; rfl)

theorem AllClaimed.settle (h : AllClaimed acc.1 (d :: ds)) (hnd : ((d :: ds).map (·.taskId)).Nodup)
    (hok : settle P retry observedAt acc (d, o) = .ok acc') : AllClaimed acc'.1 ds := by
  rw [map_cons, nodup_cons] at hnd
  intro e he
  obtain ⟨tk, hget, hcd⟩ := h e (mem_cons_of_mem d he)
  have hne : e.taskId ≠ d.taskId := fun heq => hnd.1 (heq ▸ mem_map_of_mem he)
  exact ⟨tk, settle_kept hok hne hget fun t _ => hcd.isLeftAlone _, hcd⟩

/-- The first outcome is recorded, and the others can be after it. -/
theorem allRecordable_cons {state state' : KernelState} (hst : ∀ t, Unapplied state' t ↔
      Unapplied state t ∧ trim (outcomeEventId d (st d)) ≠ trim t) :
    AllRecordable P retry observedAt state st (d :: ds) ↔
      Recordable P retry observedAt d (st d) ∧ Unapplied state (outcomeEventId d (st d)) ∧
      (∀ e ∈ ds, NotOvertaken P retry observedAt d (st d) (st e)) ∧
      AllRecordable P retry observedAt state' st ds := by
  simp only [allRecordable_iff, forall_mem_cons, pairwise_cons, hst, imp_and, forall_and]
  tauto

theorem isLeftAlone_retryQueued {due t : Time} (hst : tk.state = .retryQueued)
    (hrt : tk.retryAt = some due) : tk.isLeftAlone (some t) ↔ t < due := by
  rw [← Time.not_le]
  simp [TaskRecord.isLeftAlone, TaskRecord.isDue, hst, hrt, TaskState.isTerminal,
    TaskState.isActive]

/-- A task whose retry is queued at the end was not overtaken by an outcome. -/
theorem lt_retryAt_of_settleAll {due : Time} {final : TaskRecord}
    (hid : id ∉ ds.map (·.taskId)) (hget : acc.1.tasks.get? id = some tk)
    (hst : tk.state = .retryQueued) (hrt : tk.retryAt = some due)
    (hnd : (ds.map (·.taskId)).Nodup) (hcd : AllClaimed acc.1 ds)
    (hstt : ∀ d ∈ ds, st d = .settled (os d))
    (hall : AllRecordable P retry observedAt acc.1 st ds)
    (hrun : settleAll P retry observedAt os acc ds = .ok acc')
    (hfin : acc'.1.tasks.get? id = some final) (hq : final.state = .retryQueued) :
    ∀ d ∈ ds, ∀ t, (os d).time P observedAt = .ok t → t < due := by
  induction ds generalizing acc with
  | nil => exact nofun
  | cons d rest ih =>
    rw [map_cons, mem_cons, not_or] at hid
    obtain ⟨acc₁, hok, hrun⟩ := settleAll_cons.mp hrun
    obtain ⟨claimed, hgetd, hcdd⟩ := hcd d mem_cons_self
    have hstdd := hstt d mem_cons_self
    have hnew := hstdd ▸ hall.unapplied d mem_cons_self
    obtain ⟨-, -, hun⟩ := settle_taken hok hgetd hcdd hnew
    rw [← hstdd] at hun
    rcases settle_frame hok hid.1 hget with ⟨hapd, -⟩ | ⟨ts, t, hti, href⟩
    · exact absurd hnew hapd
    -- If the retry were due, the task would be idle from here on.
    have hlt : t < due := by
      rw [← isLeftAlone_retryQueued hst hrt]
      by_contra hdue
      obtain ⟨final', hfin', hidle⟩ := settleAll_idle hid.2 href
        (isIdle_refreshRecord (Bool.not_eq_true _ ▸ hdue)) hrun
      rw [hfin] at hfin'
      cases hfin'
      rw [hq] at hidle
      cases hidle
    rw [refreshRecord_of_leftAlone ((isLeftAlone_retryQueued hst hrt).mpr hlt)] at href
    have hrs := ih hid.2 href (nodup_cons.mp hnd).2 (hcd.settle hnd hok)
      (fun e he => hstt e (mem_cons_of_mem d he)) ((allRecordable_cons hun).mp hall).2.2.2
      hrun
    refine forall_mem_cons.mpr ⟨fun t' hti' => ?_, hrs⟩
    rw [hti] at hti'
    cases hti'
    exact hlt

/-- A recorded outcome stays recorded if no later outcome overtakes it. -/
theorem notOvertaken_iff (hid : d.taskId ∉ ds.map (·.taskId))
    (hget : acc.1.tasks.get? d.taskId = some tk)
    (hset : IsSettled retry observedAt d (os d) tk) (hstdd : st d = .settled (os d))
    (hnd : (ds.map (·.taskId)).Nodup) (hcd : AllClaimed acc.1 ds)
    (hstt : ∀ e ∈ ds, st e = .settled (os e))
    (hall : AllRecordable P retry observedAt acc.1 st ds)
    (hrun : settleAll P retry observedAt os acc ds = .ok acc') :
    (∀ e ∈ ds, NotOvertaken P retry observedAt d (st d) (st e)) ↔ Recorded acc'.1 d (st d) := by
  have hkp (halo : ∀ e ∈ ds, ∀ t, (os e).time P observedAt = .ok t →
      tk.isLeftAlone (some t)) : Recorded acc'.1 d (st d) :=
    ⟨tk, settleAll_kept hid hget halo hrun, hstdd ▸ hset.recorded⟩
  cases hout : os d with
  | fulfilled v =>
    rw [hout] at hset hstdd
    have hst : tk.state = .dispatching := hset.recorded.2.1
    refine iff_of_true (fun e _ => ?_) (hkp fun _ _ _ _ =>
      isLeftAlone_of_isActive (by rw [hst]; rfl))
    rw [hstdd]
    trivial
  | rejected reason =>
    rw [hout] at hset hstdd
    have hst : tk.state = .retryQueued := hset.recorded.2.1
    obtain ⟨due, hrt, hrty⟩ := hset.retryAt reason rfl
    constructor
    · intro hnot
      refine hkp fun e he t hti => (isLeftAlone_retryQueued hst hrty).mpr ?_
      have hnote := hnot e he
      rw [hstdd, hstt e he] at hnote
      cases he' : os e with
      | fulfilled v =>
        rw [he'] at hnote hti
        exact hnote due t hrt hti
      | rejected reason' =>
        rw [he'] at hti
        cases hti
        exact observedAt_lt_retryTime hrt
    · rintro ⟨final, hfin, hrcd⟩ e he
      rw [hstdd] at hrcd
      have hlt := lt_retryAt_of_settleAll hid hget hst hrty hnd hcd hstt hall hrun hfin
        hrcd.2.1 e he
      rw [hstdd, hstt e he]
      cases he' : os e with
      | rejected reason' => trivial
      | fulfilled v =>
        intro due' t hrt' hti
        rw [hrt] at hrt'
        cases hrt'
        exact hlt t (he' ▸ hti)

/-- All outcomes are recorded if and only if they can be. -/
theorem settleAll_recorded_iff (acc : KernelState × List DispatchResult)
    (hnd : (ds.map (·.taskId)).Nodup)
    (hcd : AllClaimed acc.1 ds)
    (hstt : ∀ d ∈ ds, st d = .settled (os d)) :
    (∃ acc', settleAll P retry observedAt os acc ds = .ok acc' ∧
      ∀ d ∈ ds, Recorded acc'.1 d (st d)) ↔
      AllRecordable P retry observedAt acc.1 st ds := by
  induction ds generalizing acc with
  | nil => exact iff_of_true ⟨acc, rfl, nofun⟩ ⟨nofun, nofun, .nil, .nil⟩
  | cons d rest ih =>
    obtain ⟨tk, hget, hcdd⟩ := hcd d mem_cons_self
    have hstdd := hstt d mem_cons_self
    have hstartr := fun e he => hstt e (mem_cons_of_mem d he)
    have hid : d.taskId ∉ rest.map (·.taskId) := (nodup_cons.mp hnd).1
    have hnodupr := (nodup_cons.mp hnd).2
    constructor
    · rintro ⟨acc', hrun, hrcd⟩
      obtain ⟨acc₁, hok, hrun⟩ := settleAll_cons.mp hrun
      have hcd₁ := hcd.settle hnd hok
      by_cases hnew : Unapplied acc.1 (outcomeEventId d (.settled (os d)))
      · obtain ⟨hrecb, ⟨upd, hget₁, hset⟩, hun⟩ := settle_taken hok hget hcdd hnew
        rw [← hstdd] at hrecb hun hnew
        have hrs := (ih acc₁ hnodupr hcd₁ hstartr).mp ⟨acc', hrun,
          fun e he => hrcd e (mem_cons_of_mem d he)⟩
        have hnot := (notOvertaken_iff hid hget₁ hset hstdd hnodupr hcd₁ hstartr hrs hrun).mpr
          (hrcd d mem_cons_self)
        exact (allRecordable_cons hun).mpr ⟨hrecb, hnew, hnot, hrs⟩
      · -- The event is ignored, so the task stays claimed to the end.
        have hget' := settleAll_kept hid (settle_ignored hok hget hnew)
          (fun _ _ _ _ => hcdd.isLeftAlone _) hrun
        obtain ⟨final, hfin, hrecordedd⟩ := hrcd d mem_cons_self
        rw [hget'] at hfin
        cases hfin
        rw [hstdd] at hrecordedd
        have hst := hcdd.state
        cases hout : os d <;> rw [hout] at hrecordedd <;>
          · rw [hrecordedd.2.1] at hst
            cases hst
    · intro hall
      have hnew := hstdd ▸ hall.unapplied d mem_cons_self
      obtain ⟨acc₁, hok⟩ := exists_settle acc hget hcdd (hstdd ▸ hall.recordable d mem_cons_self)
      obtain ⟨-, ⟨upd, hget₁, hset⟩, hun⟩ := settle_taken hok hget hcdd hnew
      rw [← hstdd] at hun
      obtain ⟨-, -, hnot, hrs⟩ := (allRecordable_cons hun).mp hall
      have hcd₁ := hcd.settle hnd hok
      obtain ⟨acc', hrun, hrcd⟩ := (ih acc₁ hnodupr hcd₁ hstartr).mpr hrs
      have hrecordedd := (notOvertaken_iff hid hget₁ hset hstdd hnodupr hcd₁ hstartr hrs hrun).mp
        hnot
      exact ⟨acc', settleAll_cons.mpr ⟨acc₁, hok, hrun⟩, forall_mem_cons.mpr ⟨hrecordedd, hrcd⟩⟩

end Run

/-! ## The tick -/

section Tick

variable {st : Dispatch → Outcome} {ds : List Dispatch}

/-- The outcome of a start that does not throw. -/
def settledOf (start : Dispatch → Outcome) (dispatch : Dispatch) : Settled :=
  match start dispatch with
  | .settled outcome => outcome
  | .threw reason => .rejected reason

theorem settled_settledOf (h : ∀ reason, st dp ≠ .threw reason) :
    st dp = .settled (settledOf st dp) := by
  unfold settledOf
  split
  · assumption
  · exact absurd ‹_› (h _)

theorem startAll_of_settled (h : ∀ d ∈ ds, ∀ reason, st d ≠ .threw reason) :
    startAll st ds = (ds, .ok (ds.map fun d => (d, settledOf st d))) := by
  induction ds with
  | nil => rfl
  | cons d rest ih =>
    have hd := settled_settledOf (h d mem_cons_self)
    rw [startAll, hd, ih fun e he => h e (mem_cons_of_mem d he)]
    rfl

/-- A call that throws is the end of the starts. -/
theorem startAll_of_threw {reason : Reason} (hmem : dp ∈ ds)
    (h : st dp = .threw reason) : ∃ reason', (startAll st ds).2 = .error reason' := by
  induction ds with
  | nil => cases hmem
  | cons d rest ih =>
    rw [startAll]
    split
    · exact ⟨_, rfl⟩
    · rename_i hd
      rcases mem_cons.mp hmem with rfl | hmem
      · rw [h] at hd
        cases hd
      · obtain ⟨reason', hrs⟩ := ih hmem
        refine ⟨reason', ?_⟩
        change _ <$> (startAll st rest).2 = _
        rw [hrs]
        rfl

theorem Claims.allClaimed {selected claimed : KernelState}
    (h : Claims P selected observedAt claimed ds) : AllClaimed claimed ds := by
  intro d hd
  obtain ⟨tk, hget, -, hdsp⟩ := h.eligible d hd
  refine ⟨_, h.all.claimed d.taskId (mem_map_of_mem hd) tk hget, rfl, ?_, rfl, rfl, rfl⟩
  rw [hdsp]
  rfl

theorem allRecordable_congr {state' : KernelState}
    (h : ∀ id, id ∈ state'.appliedEventIds ↔ id ∈ state.appliedEventIds) :
    AllRecordable P retry observedAt state' st ds ↔
      AllRecordable P retry observedAt state st ds := by
  have hun (t : String) : Unapplied state' t ↔ Unapplied state t :=
    forall_congr' fun id => imp_congr_left (h id)
  simp only [allRecordable_iff, hun]

/-- **When a tick records every dispatch that it started.** -/
theorem started_recorded_iff (P : Platform) (state : KernelState) (tasks : List TaskInput)
    (start : Dispatch → Outcome) (observedAt : Time) (limit : Rat) (retry : RetryOptions) :
    (∃ result, (runDispatchTick P state tasks start observedAt limit retry).outcome = .ok result ∧
        ∀ d ∈ (runDispatchTick P state tasks start observedAt limit retry).started,
          Recorded result.state d (start d)) ↔
      ∃ plan, planDispatchTick P state tasks observedAt limit = .ok plan ∧
        AllRecordable P retry observedAt plan.state start plan.dispatches := by
  by_cases haccepted : ∃ reconciled selection, reconcileTasks P state tasks (some observedAt) =
      .ok reconciled ∧ selectDispatches P reconciled (some observedAt) limit = .ok selection
  · obtain ⟨reconciled, selection, hreconcile, hselect⟩ := haccepted
    obtain ⟨claimed, dispatches, hclaims, hplan, hclaimed⟩ :=
      claimSelected_eq_plan hreconcile hselect
    simp only [hplan, Except.ok.injEq, exists_eq_left', runDispatchTick, hclaims]
    by_cases hthrew : ∃ d ∈ dispatches, ∃ reason, start d = .threw reason
    · -- The tick throws what the start threw.
      obtain ⟨d, hd, reason, hd'⟩ := hthrew
      obtain ⟨reason', herror⟩ := startAll_of_threw hd hd'
      refine iff_of_false ?_ fun hall => ?_
      · rintro ⟨result, hok, -⟩
        rw [herror] at hok
        cases hok
      · have hrecordable := hall.recordable d hd
        rw [hd'] at hrecordable
        exact hrecordable
    · push Not at hthrew
      have hstart := fun d hd => settled_settledOf (hthrew d hd)
      rw [startAll_of_settled hthrew, ← allRecordable_congr hclaimed.all.appliedEventIds,
        ← settleAll_recorded_iff (claimed, []) hclaimed.nodup hclaimed.allClaimed hstart]
      simp only [chain_eq_ok, mapError_eq_ok, Except.ok.injEq, exists_eq_left', settleAll]
      constructor
      · rintro ⟨result, ⟨acc', hrun, rfl⟩, hrecorded⟩
        exact ⟨acc', hrun, hrecorded⟩
      · rintro ⟨acc', hrun, hrecorded⟩
        exact ⟨_, ⟨acc', hrun, rfl⟩, hrecorded⟩
  · refine iff_of_false ?_ ?_
    · rintro ⟨result, hok, -⟩
      rw [runDispatchTick] at hok
      split at hok
      · cases hok
      · rename_i selection claimed claims hclaims
        simp only [claimSelected, chain_eq_ok] at hclaims
        obtain ⟨reconciled, hreconcile, selection, hselect, -⟩ := hclaims
        exact haccepted ⟨reconciled, selection, hreconcile, hselect⟩
    · rintro ⟨plan, hplan, -⟩
      simp only [planDispatchTick, bind_eq_ok] at hplan
      obtain ⟨reconciled, hreconcile, selection, hselect, -⟩ := hplan
      exact haccepted ⟨reconciled, selection, hreconcile, hselect⟩

/-- The first task is accepted; the start of every other fails with a message that is blank. -/
def startFirst (dispatch : Dispatch) : Outcome :=
  if dispatch.taskId.text = "T-1" then
    .settled (.fulfilled { threadId := .json (.text "thread-1"), turnId := .json (.text "turn-1") })
  else .settled (.rejected (.error (.json (.text ""))))

/-- Two tasks are started, the first is accepted, and the tick throws. -/
theorem started_not_recorded :
    let tick := runDispatchTick plainPlatform (createKernelState 2 none)
      [{ taskId := "T-1" }, { taskId := "T-2" }] startFirst epoch 2 {}
    tick.started.map (·.taskId.text) = ["T-1", "T-2"] ∧
      tick.outcome = .error (.inl (.typeError "event.error must be a non-empty string")) :=
  ⟨by decide, rfl⟩

end Tick

end Orquesta.ExecutionKernel
