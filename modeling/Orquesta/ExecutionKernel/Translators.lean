import Mathlib.Tactic.Positivity
import Orquesta.ExecutionKernel.Events

/-!
# From reports of the runtime to events of the kernel

Two components translate what a runtime reports into events of the kernel: the App Server
bridge (`handleAdapterEvent`) and the Desktop controller (`applyRuntimeNotification`, and
`recoverTurn` for the reports it asks for when a project is opened).

## Main definitions

* `DispatchRecord`, `AdapterEvent`, `handleAdapterEvent`
* `Notification`, `applyRuntimeNotification`, `observeNotification`
* `recoverTurn`
-/

namespace Orquesta.ExecutionKernel

open Checked Contract

/-! ## Delays -/

/-- The options of `retryDelayMs`. -/
structure RetryOptions where
  baseMs : Rat := 10000
  maxMs : Rat := 300000

def isPositiveInteger (q : Rat) : Bool := q.den = 1 && 1 ≤ q.num

def retryDelayMs (attempt : Nat) (retry : RetryOptions) : Except Thrown Int := do
  let attempt ← positiveInteger attempt "attempt"
  ensure (isPositiveInteger retry.baseMs) (.typeError "baseMs must be a positive integer")
  ensure (isPositiveInteger retry.maxMs) (.typeError "maxMs must be a positive integer")
  return min (retry.baseMs.num * 2 ^ min (attempt.val - 1) 30) retry.maxMs.num

/-- `new Date(Date.parse(time) + milliseconds).toISOString()`. -/
def addMilliseconds (time : Time) (milliseconds : Int) : Except Thrown Time :=
  toISOString (some (time.ms + milliseconds))

/-- A delay is at least a millisecond. -/
theorem retryDelayMs_pos {a : Nat} {retry : RetryOptions} {delay : Int}
    (h : retryDelayMs a retry = .ok delay) : 0 < delay := by
  simp only [retryDelayMs, chain_eq_ok, isPositiveInteger, Bool.and_eq_true, decide_eq_true_eq] at h
  obtain ⟨n, -, ⟨-, hbase⟩, ⟨-, hmax⟩, rfl⟩ := h
  have hpow : (0 : Int) < 2 ^ min (n.val - 1) 30 := by positivity
  exact lt_min (mul_pos hbase hpow) hmax

theorem addMilliseconds_eq_ok {t later : Time} {milliseconds : Int} :
    addMilliseconds t milliseconds = .ok later ↔ later.ms = t.ms + milliseconds := by
  unfold addMilliseconds toISOString
  split
  · rename_i hno
    cases hno
  · rename_i ms hsm
    cases hsm
    split
    · constructor
      · rintro ⟨⟩
        rfl
      · intro hms
        obtain ⟨ms, hrange⟩ := later
        cases hms
        rfl
    · rename_i hrange
      refine iff_of_false nofun fun hms => hrange ?_
      rw [← hms]
      exact later.inRange

/-! ## The App Server bridge -/

/-- What the bridge keeps of a dispatch it has started. -/
structure DispatchRecord where
  taskId : Name
  dispatchId : String
  attempt : Nat
  correlationId : String
  threadId : Name
  turnId : Option Name

inductive AdapterReport
  | dispatchAccepted | turnStarted
  | progressObserved (eventMethod itemId : Option String)
  | modelObserved (model : Option String)
  | runtimeError (willRetry : Bool)
  | approvalRequested (requestId : Option String)
  | turnCompleted (status : Option String)
deriving DecidableEq

/-- An event of the adapter, as far as the bridge reads it. -/
structure AdapterEvent where
  correlationId : String
  (threadId turnId : Option String)
  report : AdapterReport

def Field.ofOption : Option String → Field
  | none => .absent
  | some s => .text s

/-- `value || fallback`. -/
def orText (value : Option String) (fallback : String) : String :=
  match value with
  | none | some "" => fallback
  | some s => s

/-- `value && id && value !== id`. -/
def differs (value : Option String) (id : Option Name) : Bool := (Field.ofOption value).differs id

def runtimeIdentityMatches (event : AdapterEvent) (record : DispatchRecord) : Bool :=
  !differs event.threadId (some record.threadId) && !differs event.turnId record.turnId

def baseKernelEvent (type : EventType) (event : AdapterEvent) (record : DispatchRecord)
    (observedAt : Time) (suffix : String) : EventInput where
  eventId := record.dispatchId ++ ":" ++ type.text ++ if suffix = "" then "" else ":" ++ suffix
  type := type
  taskId := record.taskId.text
  dispatchId := some record.dispatchId
  correlationId := .text record.correlationId
  threadId := .ofOption (event.threadId <|> some record.threadId.text)
  turnId := .ofOption (event.turnId <|> record.turnId.map (·.text))
  observedAt := some observedAt

/-- The event of the kernel for a report on a dispatch that the bridge knows.  `sequence` is the
number of events it has derived before. -/
def handleAdapterEvent (retry : RetryOptions) (sequence : Nat) (observedAt : Time)
    (record : DispatchRecord) (event : AdapterEvent) : Except Thrown (Option EventInput) := do
  if !runtimeIdentityMatches event record then return none
  else
    match event.report with
    | .dispatchAccepted => return none
    | .turnStarted => return some (baseKernelEvent .turnStarted event record observedAt "")
    | .progressObserved eventMethod itemId =>
      return some (baseKernelEvent .progressObserved event record observedAt
        (orText eventMethod "progress" ++ ":" ++ orText itemId (toString (sequence + 1))))
    | .modelObserved model =>
      if orText model "" = "" then return none
      else
        return some { baseKernelEvent .modelObserved event record observedAt (orText model "") with
          model := .ofOption model }
    | .runtimeError willRetry =>
      return some { baseKernelEvent .runtimeErrorObserved event record observedAt
          (toString (sequence + 1)) with
        error := .text (if willRetry then "codex_runtime_error_retrying" else
          "codex_runtime_error") }
    | .approvalRequested requestId =>
      return some { baseKernelEvent .userInputRequired event record observedAt
          (orText requestId "approval") with
        reason := .text "codex_approval_required" }
    | .turnCompleted status =>
      if status = some "completed" then
        return some { baseKernelEvent .turnCompleted event record observedAt "" with
          status := .ofOption status }
      else
        let delay ← retryDelayMs record.attempt retry
        let retryAt ← addMilliseconds observedAt delay
        return some { baseKernelEvent .attemptFailed event record observedAt "" with
          retryAt := some retryAt
          error := .text ("codex_turn_" ++ orText status "failed") }

section

variable {retry : RetryOptions} {sequence : Nat} {obs : Time} {r : DispatchRecord}
  {e : AdapterEvent}

theorem eventId_baseKernelEvent (type : EventType) (e : AdapterEvent) (r : DispatchRecord)
    (obs : Time) :
    (baseKernelEvent type e r obs "").eventId = r.dispatchId ++ (":" ++ type.text) := by
  simp [baseKernelEvent, String.append_assoc]

/-- The event for the end of a turn as completed. -/
def completedTurn (event : AdapterEvent) (record : DispatchRecord) (observedAt : Time) :
    EventInput :=
  { baseKernelEvent .turnCompleted event record observedAt "" with status := .text "completed" }

/-- The event for the end of a turn in any other way. -/
def failedTurn (event : AdapterEvent) (record : DispatchRecord) (observedAt retryAt : Time)
    (status : Option String) : EventInput :=
  { baseKernelEvent .attemptFailed event record observedAt "" with
    retryAt := some retryAt
    error := .text ("codex_turn_" ++ orText status "failed") }

theorem handleAdapterEvent_ended {st : Option String} {derived : Option EventInput}
    (h : runtimeIdentityMatches e r = true) (hsts : st ≠ some "completed")
    (hrep : e.report = .turnCompleted st) :
    handleAdapterEvent retry sequence obs r e = .ok derived ↔
      ∃ delay due, retryDelayMs r.attempt retry = .ok delay ∧ addMilliseconds obs delay = .ok due ∧
        derived = some (failedTurn e r obs due st) := by
  rw [handleAdapterEvent, h, hrep]
  simp only [Bool.not_true, Bool.false_eq_true, if_false, if_neg hsts, chain_eq_ok,
    eq_comm (a := derived), exists_and_left, failedTurn]

end

/-! ## The Desktop controller -/

inductive Notification
  | turnStarted
  | agentMessage (suffix : String)
  | modelObserved (suffix : String) (actualModel : Option String)
  | turnCompleted
  | turnFailed (text : Option String)
  | other

/-- The event for a task of the Desktop. -/
def desktopEvent (taskId : Name) (task : TaskRecord) (observedAt : Time) (suffix : String)
    (type : EventType) : EventInput where
  eventId := task.dispatchId.getD "null" ++ suffix
  type := type
  taskId := taskId.text
  dispatchId := task.dispatchId
  threadId := .ofOption (task.threadId.map (·.text))
  turnId := .ofOption (task.turnId.map (·.text))
  observedAt := some observedAt

def applyRuntimeNotification (state : KernelState) (taskId : Name) (task : TaskRecord)
    (observedAt : Time) : Notification → Except Thrown KernelState
  | .turnStarted =>
    applyKernelEvent state
    (desktopEvent taskId task observedAt ":desktop:turn_started" .turnStarted)
  | .agentMessage suffix =>
    applyKernelEvent state
      (desktopEvent taskId task observedAt (":desktop:progress:" ++ suffix) .progressObserved)
  | .modelObserved suffix actualModel =>
    if orText actualModel "" = "" then .ok state
    else
      applyKernelEvent state
        { desktopEvent taskId task observedAt (":desktop:model:" ++ suffix) .modelObserved with
          model := .ofOption actualModel }
  | .turnCompleted =>
    applyKernelEvent state
      { desktopEvent taskId task observedAt ":desktop:turn_completed" .turnCompleted with
        status := .text "completed" }
  | .turnFailed text =>
    applyKernelEvent state
      { desktopEvent taskId task observedAt ":desktop:turn_failed" .taskFailed with
        error := (Field.ofOption text).orElse "codex_turn_failed" }
  | .other => .ok state

/-- What `observe` does once it has found the task: a task that is not active is passed over. -/
def observeNotification (state : KernelState) (taskId : Name) (task : TaskRecord)
    (observedAt : Time) (notification : Notification) : Except Thrown KernelState :=
  if task.state.isActive then applyRuntimeNotification state taskId task observedAt notification
  else .ok state

/-- The body of the loop of `recoverLoadedRoot`, for an active task whose thread is found and
whose turn has the given status.  The clock is read for the start and for the event after it. -/
def recoverTurn (state : KernelState) (taskId : Name) (task : TaskRecord)
    (startedAt observedAt : Time) (turnStatus : Option String) : Except Thrown KernelState :=
  let isRunning := ((state.tasks.get? taskId).map (·.state)) = some .running
  let started := desktopEvent taskId task startedAt ":recovery:turn_started" .turnStarted
  let completed := { desktopEvent taskId task observedAt ":recovery:turn_completed"
    .turnCompleted with status := .text "completed" }
  if turnStatus = some "completed" then do
    let state ← if isRunning then .ok state else applyKernelEvent state started
    applyKernelEvent state completed
  else if turnStatus = some "inProgress" ∧ ¬ isRunning then applyKernelEvent state started
  else
    match turnStatus with
    | some status =>
      if status ∈ ["failed", "interrupted", "cancelled"] then
        applyKernelEvent state
          { desktopEvent taskId task observedAt ":recovery:turn_failed" .taskFailed with
            error := .text ("recovery_turn_" ++ status) }
      else .ok state
    | none => .ok state

end Orquesta.ExecutionKernel
