import Orquesta.ExecutionKernel.State

/-!
# The events of the execution kernel

`applyKernelEvent` moves one task along the table `TRANSITIONS`.  An event whose id was
applied before is ignored; one that the table, the dispatch or the identity of the runtime
does not admit is refused.

## Main definitions

* `EventInput`, `TRANSITIONS`, `applyKernelEvent`

## Main results

* `applyKernelEvent_eq_ok`: when an event is taken, and with what result
* `get?_refreshEligibility_of_leftAlone`: which records `refreshEligibility` leaves alone
-/

namespace Orquesta.ExecutionKernel

open Checked Contract OrderedMap

def EventType.text : EventType → String
  | .dispatchAccepted => "dispatch_accepted"
  | .turnStarted => "turn_started"
  | .progressObserved => "progress_observed"
  | .modelObserved => "model_observed"
  | .runtimeErrorObserved => "runtime_error_observed"
  | .userInputRequired => "user_input_required"
  | .userInputResolved => "user_input_resolved"
  | .turnCompleted => "turn_completed"
  | .verificationAccepted => "verification_accepted"
  | .attemptFailed => "attempt_failed"
  | .retryDue => "retry_due"
  | .taskCancelled => "task_cancelled"
  | .taskFailed => "task_failed"

/-- The states in which an event is admitted. -/
def TRANSITIONS : EventType → TaskState → Bool
  | .dispatchAccepted, state => state ∈ [.claimed, .dispatching]
  | .turnStarted, state => state ∈ [.claimed, .dispatching, .running]
  | .progressObserved, state => state ∈ [.running]
  | .modelObserved, state => state ∈ [.dispatching, .running]
  | .runtimeErrorObserved, state => state ∈ [.dispatching, .running]
  | .userInputRequired, state => state ∈ [.dispatching, .running]
  | .userInputResolved, state => state ∈ [.waitingForUser]
  | .turnCompleted, state => state ∈ [.running]
  | .verificationAccepted, state => state ∈ [.verifying]
  | .attemptFailed, state => state ∈ [.claimed, .dispatching, .running, .verifying]
  | .retryDue, state => state ∈ [.retryQueued]
  | .taskCancelled, state => !state.isTerminal
  | .taskFailed, state => !state.isTerminal

/-- An event, after its round trip through JSON. -/
structure EventInput where
  eventId : String
  type : EventType
  taskId : String
  dispatchId : Option String := none
  correlationId : Field := .absent
  threadId : Field := .absent
  turnId : Field := .absent
  modelEvidence : Field := .absent
  runtimeProfile : Field := .absent
  model : Field := .absent
  error : Field := .absent
  reason : Field := .absent
  status : Field := .absent
  retryAt : Option Time := none
  observedAt : Option Time := none

/-- `nonempty`, of a value that need not be a text. -/
def Field.nonempty (value : Field) (field : String) : Except Thrown Name :=
  match value with
  | .text s => ExecutionKernel.nonempty s field
  | _ => .error (.typeError (field ++ " must be a non-empty string"))

/-- `value ?? fallback`. -/
def Field.orElse (value : Field) (fallback : String) : Field :=
  match value with
  | .absent => .text fallback
  | value => value

/-- `value ? nonempty(value, field) : current`. -/
def Field.orKeep (value : Field) (field : String) (current : Option Name) :
    Except Thrown (Option Name) :=
  if value.truthy then some <$> value.nonempty field else .ok current

/-- `value && id && value !== id`. -/
def Field.differs (value : Field) (id : Option Name) : Bool :=
  match id with
  | none => false
  | some id =>
    match value with
    | .text s => s ≠ "" && s ≠ id.text
    | value => value.truthy

/-- The value in a text; the elements of an array are left out. -/
def Field.shown : Field → String
  | .absent => "null"
  | .text s => s
  | .other (.bool b) => toString b
  | .other (.num n) => toString n
  | .other _ => "[object Object]"

/-- The dispatch of the event is not the one of the task. -/
def isStale (event : EventInput) (task : TaskRecord) : Bool :=
  match event.dispatchId, task.dispatchId with
  | some e, some t => e ≠ "" && t ≠ "" && e ≠ t
  | _, _ => false

/-- What the event does to the record of its task. -/
def updateRecord (event : EventInput) (eventId taskId : Name) (task : TaskRecord) :
    Except Thrown TaskRecord :=
  match event.type with
  | .dispatchAccepted => do
    let correlationId ← event.correlationId.orKeep "event.correlation_id" task.correlationId
    let threadId ← event.threadId.orKeep "event.thread_id" task.threadId
    let turnId ← event.turnId.orKeep "event.turn_id" task.turnId
    return { task with
      state := .dispatching
      dispatchAcceptedAt := event.observedAt
      correlationId, threadId, turnId
      modelEvidence := if event.modelEvidence.truthy then event.modelEvidence
        else task.modelEvidence
      runtimeProfile :=
        if event.runtimeProfile.truthy then event.runtimeProfile else task.runtimeProfile }
  | .turnStarted => return { task with state := .running, turnStartedAt := event.observedAt }
  | .progressObserved => return { task with lastProgressAt := event.observedAt }
  | .modelObserved => do
    let model ← event.model.nonempty "event.model"
    return { task with actualModel := some model, actualModelEvidenceRef := some eventId }
  | .runtimeErrorObserved => do
    let error ← (event.error.orElse "runtime_error").nonempty "event.error"
    return { task with lastError := some error }
  | .userInputRequired => do
    let reason ← (event.reason.orElse "user_input_required").nonempty "event.reason"
    return { task with state := .waitingForUser, blockerReason := some reason.text }
  | .userInputResolved => return { task with state := .pending, blockerReason := none }
  | .turnCompleted => do
    let status ←
      if event.status.truthy then event.status.nonempty "event.status"
      else ExecutionKernel.nonempty "completed" "event.status"
    return { task with
      state := .verifying, lastProgressAt := event.observedAt, runtimeStatus := some status }
  | .verificationAccepted => return { task with state := .accepted, finishedAt := event.observedAt }
  | .attemptFailed => do
    let error ← (event.error.orElse "attempt_failed").nonempty "event.error"
    return { task with state := .retryQueued, retryAt := event.retryAt, lastError := some error }
  | .retryDue => do
    ensure (∀ retryAt ∈ task.retryAt, ∀ observedAt ∈ event.observedAt, retryAt ≤ observedAt)
      (.error ("retry_not_due:" ++ taskId.text))
    return { task with state := .pending, retryAt := none }
  | .taskCancelled => return { task with state := .cancelled, finishedAt := event.observedAt }
  | .taskFailed => do
    let error ← (event.error.orElse "task_failed").nonempty "event.error"
    return { task with state := .failed, lastError := some error, finishedAt := event.observedAt }

/-- The state in which the event is recorded, before eligibility is refreshed. -/
def recordEvent (state : KernelState) (event : EventInput) (eventId taskId : Name)
    (task : TaskRecord) : KernelState :=
  let logged : LoggedEvent := ⟨eventId, event.type, taskId, event.dispatchId, event.correlationId,
    event.threadId, event.turnId, event.observedAt⟩
  let recentEvents := state.recentEvents ++ [logged]
  { state with
    tasks := state.tasks.set taskId task
    appliedEventIds := state.appliedEventIds ++ [eventId]
    recentEvents := recentEvents.drop (recentEvents.length - 256)
    revision := state.revision + 1
    updatedAt := event.observedAt }

def applyKernelEvent (state : KernelState) (event : EventInput) : Except Thrown KernelState := do
  let state := normalizeState state
  let eventId ← nonempty event.eventId "event.event_id"
  let taskId ← nonempty event.taskId "event.task_id"
  if eventId ∈ state.appliedEventIds then return state
  else
    let task ← require (state.tasks.get? taskId) (.error ("task_not_found:" ++ taskId.text))
    ensure (TRANSITIONS event.type task.state)
      (.error ("invalid_transition:" ++ task.state.text ++ ":" ++ event.type.text))
    ensure (!isStale event task) (.error ("stale_dispatch:" ++ event.dispatchId.getD ""))
    ensure (!event.threadId.differs task.threadId)
      (.error ("runtime_thread_mismatch:" ++ event.threadId.shown))
    ensure (!event.turnId.differs task.turnId)
      (.error ("runtime_turn_mismatch:" ++ event.turnId.shown))
    let updated ← updateRecord event eventId taskId task
    return refreshEligibility (recordEvent state event eventId taskId updated) event.observedAt

/-- No event was applied under this id. -/
def Unapplied (state : KernelState) (eventId : String) : Prop :=
  ∀ applied ∈ state.appliedEventIds, applied.text ≠ trim eventId
deriving Decidable

/-! ## What refreshing eligibility changes -/

variable {s : KernelState} {now : Option Time} {id : Name} {r : TaskRecord}

@[simp] theorem tasks_refreshEligibility (s : KernelState) (now : Option Time) :
    (refreshEligibility s now).tasks = s.tasks.mapValues (refreshRecord s.tasks now) := by
  unfold refreshEligibility
  split <;> rfl

@[simp] theorem appliedEventIds_refreshEligibility (s : KernelState) (now : Option Time) :
    (refreshEligibility s now).appliedEventIds = s.appliedEventIds := by
  unfold refreshEligibility
  split <;> rfl

@[simp] theorem maxConcurrent_refreshEligibility (s : KernelState) (now : Option Time) :
    (refreshEligibility s now).maxConcurrent = s.maxConcurrent := by
  unfold refreshEligibility
  split <;> rfl

theorem refreshRecord_of_leftAlone {ts : OrderedMap Name TaskRecord}
    (h : r.isLeftAlone now) : refreshRecord ts now r = r := if_pos h

theorem get?_refreshEligibility_of_leftAlone (hid : s.tasks.get? id = some r)
    (h : r.isLeftAlone now) : (refreshEligibility s now).tasks.get? id = some r := by
  rw [tasks_refreshEligibility, get?_mapValues, hid, Option.map_some, refreshRecord_of_leftAlone h]

theorem isLeftAlone_of_isActive (h : r.state.isActive) : r.isLeftAlone now := by
  simp [TaskRecord.isLeftAlone, h]

/-! ## The ids of events -/

theorem exists_name {t : String} (h : trim t ≠ "") : ∃ n : Name, trim t = n.text :=
  ⟨⟨trim t, trim_trim t, h⟩, rfl⟩

theorem unapplied_iff {t : String} {eid : Name} (h : trim t = eid.text) :
    Unapplied s t ↔ eid ∉ s.appliedEventIds := by
  rw [Unapplied, h]
  constructor
  · exact fun hall hmem => hall eid hmem rfl
  · exact fun hnot applied hmem htx => hnot (Name.ext htx ▸ hmem)

/-- The ids of events have a colon in them, so they are not blank. -/
theorem exists_eventName (id rest : String) : ∃ n : Name, trim (id ++ (":" ++ rest)) = n.text := by
  refine exists_name (trim_ne_empty (c := ':') ?_ (by decide))
  simp

variable {e : EventInput}

/-- Recording an event adds its id. -/
theorem unapplied_recordEvent {eid tid : Name} {t : TaskRecord} {text : String} :
    Unapplied (refreshEligibility (recordEvent (normalizeState s) e eid tid t) now)
        text ↔ Unapplied s text ∧ eid.text ≠ trim text := by
  simp [Unapplied, recordEvent, normalizeState, or_imp, forall_and]

/-! ## Events that are taken -/

theorem isStale_of_eq (h : e.dispatchId = task.dispatchId) : isStale e task = false := by
  rw [isStale, h]
  cases task.dispatchId <;> simp

theorem nonempty_eq_ok {v field : String} {n : Name} :
    nonempty v field = .ok n ↔ trim v = n.text := by
  unfold nonempty
  split
  · rename_i h
    constructor
    · rintro ⟨⟩
      rfl
    · intro htx
      obtain ⟨t, htrimmed, hnonblank⟩ := n
      cases htx
      rfl
  · rename_i h
    refine iff_of_false nofun fun htx => n.nonblank ?_
    rw [← htx]
    exact not_not.mp h

/-- An event is ignored, because it was applied before, or taken. -/
theorem applyKernelEvent_eq_ok {s' : KernelState} :
    applyKernelEvent s e = .ok s' ↔ ∃ eid tid, trim e.eventId = eid.text ∧
        trim e.taskId = tid.text ∧ ((eid ∈ s.appliedEventIds ∧ s' = normalizeState s) ∨
          (eid ∉ s.appliedEventIds ∧ ∃ t upd, s.tasks.get? tid = some t ∧
            TRANSITIONS e.type t.state ∧ isStale e t = false ∧
            e.threadId.differs t.threadId = false ∧
            e.turnId.differs t.turnId = false ∧
            updateRecord e eid tid t = .ok upd ∧
            s' = refreshEligibility (recordEvent (normalizeState s) e eid tid upd)
                e.observedAt)) := by
  have htks : (normalizeState s).tasks = s.tasks := rfl
  have hids (eid : Name) : eid ∈ (normalizeState s).appliedEventIds ↔
      eid ∈ s.appliedEventIds := mem_uniqueNames
  simp only [applyKernelEvent, bind_eq_ok, nonempty_eq_ok]
  refine exists_congr fun eid => ?_
  rw [← exists_and_left]
  refine exists_congr fun tid => and_congr_right fun _ => and_congr_right fun _ => ?_
  rw [ite_eq_ok, hids]
  simp only [chain_eq_ok, require_eq_ok, htks, Bool.not_eq_true', eq_comm (a := s')]
  refine or_congr_right (and_congr_right fun _ => exists_congr fun t => ?_)
  constructor
  · rintro ⟨hget, hadm, hstl, hth, htn, upd, hup, hst⟩
    exact ⟨upd, hget, hadm, hstl, hth, htn, hup, hst⟩
  · rintro ⟨upd, hget, hadm, hstl, hth, htn, hup, hst⟩
    exact ⟨hget, hadm, hstl, hth, htn, upd, hup, hst⟩

/-- What an event does to the other tasks: nothing, or their eligibility is refreshed. -/
theorem get?_applyKernelEvent_of_ne {s' : KernelState} {tid : Name}
    (hok : applyKernelEvent s e = .ok s') (htk : e.taskId = tid.text)
    (hne : id ≠ tid) (hget : s.tasks.get? id = some r) :
    (¬ Unapplied s e.eventId ∧ s'.tasks.get? id = some r) ∨
      ∃ ts, s'.tasks.get? id = some (refreshRecord ts e.observedAt r) := by
  obtain ⟨eid, tid', hid, htk', hcas⟩ := applyKernelEvent_eq_ok.mp hok
  obtain rfl : tid = tid' := Name.ext (by rw [← htk', htk, tid.trimmed])
  rcases hcas with ⟨hapd, rfl⟩ | ⟨-, t, upd, -, -, -, -, -, -, rfl⟩
  · exact .inl ⟨fun hnew => (unapplied_iff hid).mp hnew hapd, hget⟩
  · refine .inr ⟨s.tasks.set tid upd, ?_⟩
    rw [tasks_refreshEligibility, get?_mapValues]
    have hget' : (s.tasks.set tid upd).get? id = some r := by
      rw [get?_set_of_ne _ _ hne.symm, hget]
    exact congrArg (Option.map _) hget'

end Orquesta.ExecutionKernel
