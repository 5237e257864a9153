import Orquesta.ExecutionKernel.Translators

/-!
# The end of a turn

What becomes of the final report on a turn.  Two components report that a turn has ended,
and the table of transitions decides what the kernel makes of it.  A turn that ends as
completed is taken only from a task that is running; so it is lost if the report of its
start was lost, or while the task waits for its user.

`absorbed_iff` says for every live task and every final report when the task is taken out
of the states in which it occupies a slot or waits.

## Main definitions

* `FinalReport`, `absorb`
* `Absorbed`, `Absorbable`
* `Reachable`

## Main results

* `absorbed_iff`
* `final_report_refused`: two reachable states in which the end of a turn is refused
-/

namespace Orquesta.ExecutionKernel

open Checked Contract OrderedMap Option

/-- A final report on the current dispatch of a task. -/
inductive FinalReport
  /-- The App Server says that the turn has ended; the bridge knows the dispatch under this
  correlation, thread and turn. -/
  | adapter (correlationId : String) (thread : Name) (turn : Option Name) (attempt : Nat)
      (threadId turnId : Option String) (status : Option String)
  /-- The Desktop is told that the turn is completed. -/
  | turnCompleted
  | turnFailed (text : Option String)
  /-- The Desktop has read the status of the turn, which is not in progress. -/
  | recovered (status : String) (startedAt : Time)

/-- What the component that receives the report does with it, once it has found the task that the
report is about: the bridge by its record of the dispatch, the Desktop by the turn. -/
def absorb (retry : RetryOptions) (state : KernelState) (taskId : Name) (task : TaskRecord)
    (observedAt : Time) : FinalReport → Except Thrown KernelState
  | .adapter correlationId thread turn attempt threadId turnId status => do
    let record : DispatchRecord :=
      ⟨taskId, task.dispatchId.getD "", attempt, correlationId, thread, turn⟩
    match ← handleAdapterEvent retry 0 observedAt record
        ⟨correlationId, threadId, turnId, .turnCompleted status⟩ with
    | none => return state
    | some event => applyKernelEvent state event
  | .turnCompleted => observeNotification state taskId task observedAt .turnCompleted
  | .turnFailed text => observeNotification state taskId task observedAt (.turnFailed text)
  | .recovered status startedAt =>
    if task.state.isActive then recoverTurn state taskId task startedAt observedAt (some status)
    else .ok state

/-- The task has left the states in which it occupies a slot or waits for its user. -/
def Ended (state : KernelState) (taskId : Name) : Prop :=
  ∃ task, state.tasks.get? taskId = some task ∧ task.state.isLive = false

def Absorbed (retry : RetryOptions) (state : KernelState) (taskId : Name) (task : TaskRecord)
    (observedAt : Time) (report : FinalReport) : Prop :=
  ∃ state', absorb retry state taskId task observedAt report = .ok state' ∧ Ended state' taskId

/-- When a final report takes its task out of the live states. -/
def Absorbable (retry : RetryOptions) (state : KernelState) (task : TaskRecord)
    (dispatchId : String)
    (observedAt : Time) : FinalReport → Prop
  | .adapter _ thread turn attempt threadId turnId status =>
    differs threadId (some thread) = false ∧ differs turnId turn = false ∧
    differs (threadId <|> some thread.text) task.threadId = false ∧
    differs (turnId <|> turn.map (·.text)) task.turnId = false ∧
    if status = some "completed" then
      task.state = .running ∧ Unapplied state (dispatchId ++ ":turn_completed")
    else
      task.state ≠ .waitingForUser ∧ Unapplied state (dispatchId ++ ":attempt_failed") ∧
      ∃ delay retryAt, retryDelayMs attempt retry = .ok delay ∧
        addMilliseconds observedAt delay = .ok retryAt
  | .turnCompleted =>
    task.state = .running ∧ Unapplied state (dispatchId ++ ":desktop:turn_completed")
  | .turnFailed text =>
    task.state.isActive ∧ Unapplied state (dispatchId ++ ":desktop:turn_failed") ∧
    ∀ t ∈ text, trim t ≠ ""
  | .recovered status _ =>
    task.state.isActive ∧
    if status = "completed" then
      Unapplied state (dispatchId ++ ":recovery:turn_completed") ∧
      (task.state = .running ∨ Unapplied state (dispatchId ++ ":recovery:turn_started"))
    else
      status ∈ ["failed", "interrupted", "cancelled"] ∧
      Unapplied state (dispatchId ++ ":recovery:turn_failed")

variable {retry : RetryOptions} {state : KernelState} {taskId : Name} {task : TaskRecord}
  {observedAt startedAt : Time} {dispatchId : String}

/-! ## One event -/

/-- The outcome is a state in which the task has ended. -/
def Ends (outcome : Except Thrown KernelState) (taskId : Name) : Prop :=
  ∃ state, outcome = .ok state ∧ Ended state taskId

section

variable (hget : state.tasks.get? taskId = some task) (hlive : task.state.isLive)
include hget hlive

theorem not_ends_ok : ¬ Ends (.ok state) taskId := by
  rintro ⟨_, ⟨⟩, t', hget', hend⟩
  cases hget.symm.trans hget'
  cases hlive.symm.trans hend

variable {e : EventInput} {eid : Name} {id suffix : String}
  (hid : e.eventId = id ++ (":" ++ suffix)) (htk : e.taskId = taskId.text)
  (hdispatch : e.dispatchId = task.dispatchId)
include hid htk hdispatch

/-- An event that would end the task does so unless it is refused or was applied before. -/
theorem ends_iff {c : Prop} (hup : ∀ eid, (∃ upd, updateRecord e eid taskId task = .ok upd) ↔ c)
    (hends : ∀ eid upd, updateRecord e eid taskId task = .ok upd →
      upd.state.isLive = false ∧ upd.isLeftAlone e.observedAt) :
    Ends (applyKernelEvent state e) taskId ↔
      TRANSITIONS e.type task.state ∧ Unapplied state (id ++ (":" ++ suffix)) ∧
      e.threadId.differs task.threadId = false ∧ e.turnId.differs task.turnId = false ∧ c := by
  obtain ⟨eid, hnm⟩ := exists_eventName id suffix
  rw [unapplied_iff hnm, ← hup eid]
  rw [← hid] at hnm
  have htr : trim e.taskId = taskId.text := by rw [htk, taskId.trimmed]
  constructor
  · rintro ⟨state', hok, hend⟩
    obtain ⟨eid', taskId', hnm', htr', hcas⟩ := applyKernelEvent_eq_ok.mp hok
    obtain rfl : eid = eid' := Name.ext (hnm.symm.trans hnm')
    obtain rfl : taskId = taskId' := Name.ext (htr.symm.trans htr')
    rcases hcas with ⟨-, rfl⟩ | ⟨hnew, task', upd, hget', hadm, -, hth, htn, hok, -⟩
    · exact absurd ⟨_, rfl, hend⟩ (not_ends_ok hget hlive)
    · cases hget.symm.trans hget'
      exact ⟨hadm, hnew, hth, htn, upd, hok⟩
  · rintro ⟨hadm, hnew, hth, htn, upd, hok⟩
    obtain ⟨hend, halo⟩ := hends eid upd hok
    refine ⟨_, applyKernelEvent_eq_ok.mpr ⟨eid, taskId, hnm, htr, .inr ⟨hnew, task, upd, hget,
      hadm, isStale_of_eq hdispatch, hth, htn, hok, rfl⟩⟩, upd, ?_, hend⟩
    exact get?_refreshEligibility_of_leftAlone (get?_set_self _ _ _) halo

omit hget hlive hid htk hdispatch

theorem differs_self (id : Option Name) :
    (Field.ofOption (id.map (·.text))).differs id = false := by
  cases id with
  | none => rfl
  | some id => simp [Field.ofOption, Field.differs]

/-! ## What each component derives -/

theorem updateRecord_turnCompleted (eid taskId : Name) (task : TaskRecord)
    (hty : e.type = .turnCompleted) (hsts : e.status = .text "completed") :
    ∃ st, updateRecord e eid taskId task = .ok { task with
      state := .verifying, lastProgressAt := e.observedAt, runtimeStatus := some st } := by
  obtain ⟨st, hok⟩ : ∃ st, nonempty "completed" "event.status" = .ok st := ⟨_, rfl⟩
  refine ⟨st, ?_⟩
  simp only [updateRecord, hty, hsts, Field.truthy, Field.nonempty, hok]
  rfl

include hget hlive hid htk hdispatch

/-- The end of a turn as completed is taken from a task that is running. -/
theorem completes_iff (hty : e.type = .turnCompleted) (hsts : e.status = .text "completed") :
    Ends (applyKernelEvent state e) taskId ↔ task.state = .running ∧
      Unapplied state (id ++ (":" ++ suffix)) ∧
      e.threadId.differs task.threadId = false ∧ e.turnId.differs task.turnId = false := by
  have hup := fun eid => updateRecord_turnCompleted eid taskId task hty hsts
  have hadm : TRANSITIONS e.type task.state ↔ task.state = .running := by
    simp [hty, TRANSITIONS]
  rw [ends_iff hget hlive hid htk hdispatch (fun eid => iff_true_intro ?_), hadm, and_true]
  · intro eid upd hok
    obtain ⟨st, hup⟩ := hup eid
    cases hup.symm.trans hok
    exact ⟨rfl, rfl⟩
  · obtain ⟨st, hup⟩ := hup eid
    exact ⟨_, hup⟩

/-- The failure of a task is taken in every live state. -/
theorem fails_iff (hty : e.type = .taskFailed) (hth : e.threadId.differs task.threadId = false)
    (htn : e.turnId.differs task.turnId = false) :
    Ends (applyKernelEvent state e) taskId ↔ Unapplied state (id ++ (":" ++ suffix)) ∧
      ∃ err, (e.error.orElse "task_failed").nonempty "event.error" = .ok err := by
  have hadm : TRANSITIONS e.type task.state := by
    rw [hty]
    revert hlive
    cases task.state <;> decide
  have hup : ∀ eid, (∃ upd, updateRecord e eid taskId task = .ok upd) ↔
      ∃ err, (e.error.orElse "task_failed").nonempty "event.error" = .ok err := by
    simp only [updateRecord, hty, chain_eq_ok]
    intro _
    constructor
    · rintro ⟨_, err, herr, -⟩
      exact ⟨err, herr⟩
    · rintro ⟨err, herr⟩
      exact ⟨_, err, herr, rfl⟩
  rw [ends_iff hget hlive hid htk hdispatch hup]
  · simp only [hadm, hth, htn, true_and]
  · intro eid upd hok
    simp only [updateRecord, hty, chain_eq_ok] at hok
    obtain ⟨err, -, rfl⟩ := hok
    exact ⟨rfl, rfl⟩

/-- The failure of an attempt is taken from a task that is active. -/
theorem retries_iff {due : Time} {text : String} (hty : e.type = .attemptFailed)
    (herr : e.error = .text text)
    (htx : trim text ≠ "") (hrty : e.retryAt = some due)
    (hobs : e.observedAt = some observedAt) (hlt : observedAt.ms < due.ms) :
    Ends (applyKernelEvent state e) taskId ↔
      task.state ≠ .waitingForUser ∧ Unapplied state (id ++ (":" ++ suffix)) ∧
      e.threadId.differs task.threadId = false ∧ e.turnId.differs task.turnId = false := by
  have hadm : TRANSITIONS e.type task.state ↔ task.state ≠ .waitingForUser := by
    rw [hty]
    revert hlive
    cases task.state <;> decide
  rw [ends_iff hget hlive hid htk hdispatch (fun eid => iff_true_intro ?_), hadm, and_true]
  · intro eid upd hok
    simp only [updateRecord, hty, chain_eq_ok] at hok
    obtain ⟨err, -, rfl⟩ := hok
    -- The retry is not due when it is queued.
    have hnotDue : ¬ due ≤ observedAt := fun hle => absurd hle (not_le.mpr hlt)
    refine ⟨rfl, ?_⟩
    simp [TaskRecord.isLeftAlone, TaskRecord.isDue, hrty, hobs, hnotDue]
  · obtain ⟨err, hnm⟩ := exists_name htx
    simp only [updateRecord, hty, herr, chain_eq_ok]
    exact ⟨_, err, nonempty_eq_ok.mpr hnm, rfl⟩

end

section

variable {e : AdapterEvent} {record : DispatchRecord}

variable (hget : state.tasks.get? taskId = some task) (hlive : task.state.isLive)
  (htk : record.taskId = taskId) (hdispatch : task.dispatchId = some record.dispatchId)
include hget hlive htk hdispatch

theorem completedTurn_ends_iff :
    Ends (applyKernelEvent state (completedTurn e record observedAt)) taskId ↔
      task.state = .running ∧ Unapplied state (record.dispatchId ++ ":turn_completed") ∧
      differs (e.threadId <|> some record.threadId.text) task.threadId = false ∧
      differs (e.turnId <|> record.turnId.map (·.text)) task.turnId = false := by
  have hid : (completedTurn e record observedAt).eventId = _ :=
    eventId_baseKernelEvent .turnCompleted e record observedAt
  have hiff := completes_iff hget hlive hid (congrArg Name.text htk) hdispatch.symm rfl rfl
  exact hiff

theorem failedTurn_ends_iff {st : Option String} {delay : Int} {due : Time}
    (hde : retryDelayMs record.attempt retry = .ok delay)
    (hrt : addMilliseconds observedAt delay = .ok due) :
    Ends (applyKernelEvent state (failedTurn e record observedAt due st)) taskId ↔
      task.state ≠ .waitingForUser ∧ Unapplied state (record.dispatchId ++ ":attempt_failed") ∧
      differs (e.threadId <|> some record.threadId.text) task.threadId = false ∧
      differs (e.turnId <|> record.turnId.map (·.text)) task.turnId = false := by
  have htx : trim ("codex_turn_" ++ orText st "failed") ≠ "" :=
    trim_ne_empty (c := 'c') (by simp) (by decide)
  have hlt : observedAt.ms < due.ms := by
    rw [addMilliseconds_eq_ok.mp hrt]
    exact lt_add_of_pos_right _ (retryDelayMs_pos hde)
  have hid : (failedTurn e record observedAt due st).eventId = _ :=
    eventId_baseKernelEvent .attemptFailed e record observedAt
  have hiff := retries_iff hget hlive hid (congrArg Name.text htk) hdispatch.symm rfl rfl htx
    rfl rfl hlt
  exact hiff

end

section

variable (hget : state.tasks.get? taskId = some task) (hlive : task.state.isLive)
  (hdispatch : task.dispatchId = some dispatchId)
include hget hlive hdispatch

variable {th uid st : Option String}

/-- The bridge's report is absorbed if the bridge derives an event and the event ends the task. -/
theorem absorbed_adapter {cid : String} {thread : Name} {t : Option Name} {a : Nat} :
    Absorbed retry state taskId task observedAt (.adapter cid thread t a th uid st) ↔
      ∃ derived, handleAdapterEvent retry 0 observedAt ⟨taskId, dispatchId, a, cid, thread, t⟩
          ⟨cid, th, uid, .turnCompleted st⟩ = .ok (some derived) ∧
        Ends (applyKernelEvent state derived) taskId := by
  simp only [Absorbed, absorb, hdispatch, getD_some, bind_eq_ok]
  constructor
  · rintro ⟨state', ⟨derived, hder, hok⟩, hend⟩
    cases derived with
    | none =>
      cases hok
      exact absurd ⟨_, rfl, hend⟩ (not_ends_ok hget hlive)
    | some derived => exact ⟨derived, hder, state', hok, hend⟩
  · rintro ⟨derived, hder, state', hok, hend⟩
    exact ⟨state', ⟨some derived, hder, hok⟩, hend⟩

theorem absorbed_adapter_iff {cid : String} {thread : Name} {t : Option Name} {a : Nat} :
    Absorbed retry state taskId task observedAt (.adapter cid thread t a th uid st) ↔
      Absorbable retry state task dispatchId observedAt (.adapter cid thread t a th uid st) := by
  rw [absorbed_adapter hget hlive hdispatch, Absorbable]
  set record : DispatchRecord := ⟨taskId, dispatchId, a, cid, thread, t⟩
  set e : AdapterEvent := ⟨cid, th, uid, .turnCompleted st⟩
  have hidentity : runtimeIdentityMatches e record = true ↔
      differs th (some thread) = false ∧ differs uid t = false := by
    simp [runtimeIdentityMatches, e, record]
  cases hmat : runtimeIdentityMatches e record with
  | false =>
    -- The bridge drops a report on another thread or turn.
    rw [handleAdapterEvent, hmat]
    refine iff_of_false ?_ ?_
    · rintro ⟨_, hder, -⟩
      cases hder
    · rintro ⟨hth, htn, -⟩
      rw [hidentity.mpr ⟨hth, htn⟩] at hmat
      cases hmat
  | true =>
    obtain ⟨hth, htn⟩ := hidentity.mp hmat
    simp only [hth, htn, true_and]
    by_cases hsts : st = some "completed"
    · have hder : handleAdapterEvent retry 0 observedAt record e =
          .ok (some (completedTurn e record observedAt)) := by
        rw [handleAdapterEvent, hmat, show e.report = .turnCompleted _ from congrArg _ hsts]
        rfl
      simp only [hder, if_pos hsts, Except.ok.injEq, some.injEq, exists_eq_left']
      rw [completedTurn_ends_iff hget hlive rfl hdispatch]
      tauto
    · rw [if_neg hsts]
      simp only [handleAdapterEvent_ended hmat hsts rfl, some.injEq]
      constructor
      · rintro ⟨_, ⟨delay, due, hde, hrt, rfl⟩, hends⟩
        obtain ⟨hact, hnew, h₁, h₂⟩ :=
          (failedTurn_ends_iff hget hlive rfl hdispatch hde hrt).mp hends
        exact ⟨h₁, h₂, hact, hnew, delay, due, hde, hrt⟩
      · rintro ⟨h₁, h₂, hact, hnew, delay, due, hde, hrt⟩
        exact ⟨_, ⟨delay, due, hde, hrt, rfl⟩,
          (failedTurn_ends_iff hget hlive rfl hdispatch hde hrt).mpr ⟨hact, hnew, h₁, h₂⟩⟩

end

/-! ## The reports of the Desktop -/

theorem desktop_eventId (suffix : String) (hdispatch : task.dispatchId = some dispatchId) :
    task.dispatchId.getD "null" ++ suffix = dispatchId ++ suffix := by
  rw [hdispatch, getD_some]

/-- The event for the end of a turn as completed, as the Desktop derives it. -/
def desktopCompleted (taskId : Name) (task : TaskRecord) (observedAt : Time) (source : String) :
    EventInput :=
  { desktopEvent taskId task observedAt (":" ++ (source ++ ":turn_completed")) .turnCompleted with
    status := .text "completed" }

def desktopFailed (taskId : Name) (task : TaskRecord) (observedAt : Time) (source : String)
    (error : Field) : EventInput :=
  { desktopEvent taskId task observedAt (":" ++ (source ++ ":turn_failed")) .taskFailed with
    error := error }

section

variable (hget : state.tasks.get? taskId = some task) (hlive : task.state.isLive)
  (hdispatch : task.dispatchId = some dispatchId)
include hget hlive hdispatch

theorem desktopCompleted_ends_iff (observedAt : Time) (src : String) :
    Ends (applyKernelEvent state (desktopCompleted taskId task observedAt src)) taskId ↔
      task.state = .running ∧
      Unapplied state (dispatchId ++ (":" ++ (src ++ ":turn_completed"))) := by
  rw [completes_iff hget hlive (desktop_eventId _ hdispatch) rfl rfl rfl rfl]
  exact and_congr_right fun _ => and_iff_left ⟨differs_self _, differs_self _⟩

theorem desktopFailed_ends_iff (observedAt : Time) (src : String) (err : Field) :
    Ends (applyKernelEvent state (desktopFailed taskId task observedAt src err)) taskId ↔
      Unapplied state (dispatchId ++ (":" ++ (src ++ ":turn_failed"))) ∧
      ∃ n, (err.orElse "task_failed").nonempty "event.error" = .ok n :=
  fails_iff hget hlive (desktop_eventId _ hdispatch) rfl rfl rfl (differs_self _) (differs_self _)

theorem absorbed_turnCompleted_iff : Absorbed retry state taskId task observedAt .turnCompleted ↔
      Absorbable retry state task dispatchId observedAt .turnCompleted := by
  have hiff := desktopCompleted_ends_iff hget hlive hdispatch observedAt "desktop"
  rw [Absorbed, absorb, observeNotification, Absorbable]
  split
  · exact hiff
  · rename_i hinactive
    refine iff_of_false (not_ends_ok hget hlive) ?_
    rintro ⟨hrun, -⟩
    exact hinactive (by rw [hrun]; rfl)

theorem absorbed_turnFailed_iff {text : Option String} :
    Absorbed retry state taskId task observedAt (.turnFailed text) ↔
      Absorbable retry state task dispatchId observedAt (.turnFailed text) := by
  have herr : (∃ n, (((Field.ofOption text).orElse "codex_turn_failed").orElse
      "task_failed").nonempty "event.error" = .ok n) ↔ ∀ t ∈ text, trim t ≠ "" := by
    cases text with
    | none => exact iff_of_true ⟨_, rfl⟩ nofun
    | some t =>
      refine Iff.trans (b := trim t ≠ "") ?_ (by simp)
      exact ⟨fun ⟨n, hok⟩ => nonempty_eq_ok.mp hok ▸ n.nonblank,
        fun ht => (exists_name ht).imp fun _ hnm => nonempty_eq_ok.mpr hnm⟩
  have hiff := desktopFailed_ends_iff hget hlive hdispatch observedAt "desktop"
    ((Field.ofOption text).orElse "codex_turn_failed")
  rw [herr] at hiff
  rw [Absorbed, absorb, observeNotification, Absorbable]
  split
  · rename_i hact
    exact hiff.trans (and_iff_right hact).symm
  · rename_i hinactive
    exact iff_of_false (not_ends_ok hget hlive) fun h => hinactive h.1

end

/-! ## Recovery -/

/-- The event for the start of a turn that recovery finds. -/
def recoveryStarted (taskId : Name) (task : TaskRecord) (observedAt : Time) : EventInput :=
  desktopEvent taskId task observedAt ":recovery:turn_started" .turnStarted

/-- The record of a task whose turn has started. -/
def TaskRecord.started (task : TaskRecord) (observedAt : Time) : TaskRecord :=
  { task with state := .running, turnStartedAt := some observedAt }

variable {state' : KernelState}

section

variable (hget : state.tasks.get? taskId = some task)
  (hdispatch : task.dispatchId = some dispatchId)
include hget hdispatch

/-- The start of a turn that recovery reports makes an active task run, once. -/
theorem recoveryStarted_eq_ok (hact : task.state.isActive)
    (hnm : trim (dispatchId ++ ":recovery:turn_started") = eid.text) :
    applyKernelEvent state (recoveryStarted taskId task observedAt) = .ok state' ↔
      (¬ Unapplied state (dispatchId ++ ":recovery:turn_started") ∧ state' = normalizeState state) ∨
      (Unapplied state (dispatchId ++ ":recovery:turn_started") ∧
        state' = refreshEligibility (recordEvent (normalizeState state)
          (recoveryStarted taskId task observedAt) eid taskId (task.started observedAt))
          (some observedAt)) := by
  have hid : (recoveryStarted taskId task observedAt).eventId = _ := desktop_eventId _ hdispatch
  have hadm : TRANSITIONS (recoveryStarted taskId task observedAt).type task.state := by
    change TRANSITIONS .turnStarted task.state
    revert hact
    cases task.state <;> decide
  rw [applyKernelEvent_eq_ok, unapplied_iff hnm, not_not, hid]
  constructor
  · rintro ⟨eid', taskId', hid', htk', hcas⟩
    obtain rfl : eid = eid' := Name.ext (hnm.symm.trans hid')
    obtain rfl : taskId = taskId' := Name.ext (taskId.trimmed.symm.trans htk')
    refine hcas.imp_right ?_
    rintro ⟨hnew, task', upd, hget', -, -, -, -, hup, rfl⟩
    rw [hget] at hget'
    cases hget'
    cases hup
    exact ⟨hnew, rfl⟩
  · intro hcas
    refine ⟨eid, taskId, hnm, taskId.trimmed, hcas.imp_right ?_⟩
    rintro ⟨hnew, rfl⟩
    exact ⟨hnew, task, task.started observedAt, hget, hadm, isStale_of_eq rfl, differs_self _,
      differs_self _, rfl, rfl⟩

theorem recoveryCompleted_ends_iff (hact : task.state.isActive) (hnot : task.state ≠ .running) :
    (∃ state', (∃ state₁, applyKernelEvent state (recoveryStarted taskId task startedAt) =
        .ok state₁ ∧
        applyKernelEvent state₁ (desktopCompleted taskId task observedAt "recovery") = .ok state') ∧
        Ended state' taskId) ↔
      Unapplied state (dispatchId ++ ":recovery:turn_completed") ∧
      Unapplied state (dispatchId ++ ":recovery:turn_started") := by
  obtain ⟨eid, hnm⟩ := exists_eventName dispatchId "recovery:turn_started"
  have hlive : task.state.isLive := by simp [TaskState.isLive, hact]
  set state₂ := refreshEligibility (recordEvent (normalizeState state)
    (recoveryStarted taskId task startedAt) eid taskId (task.started startedAt)) (some startedAt)
  have hget₂ : state₂.tasks.get? taskId = some (task.started startedAt) :=
    get?_refreshEligibility_of_leftAlone (get?_set_self _ _ _) (isLeftAlone_of_isActive rfl)
  -- After the start the end is taken; its id is not that of the start.
  have hends₂ := desktopCompleted_ends_iff hget₂ rfl hdispatch observedAt "recovery"
  have hne : eid.text ≠ trim (dispatchId ++ (":" ++ ("recovery" ++ ":turn_completed"))) :=
    hnm ▸ trim_append_ne dispatchId (by decide) (by decide) (by decide) (by decide) (by decide)
  have hun : Unapplied state₂ (dispatchId ++ (":" ++ ("recovery" ++ ":turn_completed"))) ↔
      Unapplied state (dispatchId ++ ":recovery:turn_completed") :=
    unapplied_recordEvent.trans (and_iff_left hne)
  constructor
  · rintro ⟨state', ⟨state₁, hst, hok⟩, hend⟩
    rcases (recoveryStarted_eq_ok hget hdispatch hact hnm).mp hst with ⟨-, rfl⟩ | ⟨hnew, rfl⟩
    · -- The start is ignored, so the task does not run.
      have hget₁ : (normalizeState state).tasks.get? taskId = some task := hget
      exact absurd ((desktopCompleted_ends_iff hget₁ hlive hdispatch observedAt "recovery").mp
        ⟨state', hok, hend⟩).1 hnot
    · exact ⟨hun.mp (hends₂.mp ⟨state', hok, hend⟩).2, hnew⟩
  · rintro ⟨hcmp, hstd⟩
    obtain ⟨state', hok, hend⟩ := hends₂.mpr ⟨rfl, hun.mpr hcmp⟩
    exact ⟨state', ⟨state₂, (recoveryStarted_eq_ok hget hdispatch hact hnm).mpr
      (.inr ⟨hstd, rfl⟩), hok⟩, hend⟩

/-- Recovery that finds no end as completed reports a failure, or nothing that ends the task. -/
theorem recoverTurn_ends_iff {st : String} (hact : task.state.isActive)
    (hlive : task.state.isLive) (hcmp : st ≠ "completed") :
    Ends (recoverTurn state taskId task startedAt observedAt (some st)) taskId ↔
      st ∈ ["failed", "interrupted", "cancelled"] ∧
      Unapplied state (dispatchId ++ ":recovery:turn_failed") := by
  simp only [recoverTurn, hget, map_some, some.injEq, if_neg hcmp]
  by_cases hpg : st = "inProgress" ∧ ¬ task.state = .running
  · rw [if_pos hpg]
    refine iff_of_false ?_ ?_
    · rintro ⟨state', hok, hend⟩
      obtain ⟨eid, hnm⟩ := exists_eventName dispatchId "recovery:turn_started"
      rcases (recoveryStarted_eq_ok hget hdispatch hact hnm).mp hok with ⟨-, rfl⟩ | ⟨-, rfl⟩
      · exact absurd ⟨_, rfl, hend⟩ (not_ends_ok hget hlive)
      · exact not_ends_ok (get?_refreshEligibility_of_leftAlone (get?_set_self _ _ _)
          (isLeftAlone_of_isActive rfl)) rfl ⟨_, rfl, hend⟩
    · rw [hpg.1]
      exact fun h => absurd h.1 (by decide)
  rw [if_neg hpg]
  by_cases hfl : st ∈ ["failed", "interrupted", "cancelled"]
  · rw [if_pos hfl, and_iff_right hfl]
    have htx : trim ("recovery_turn_" ++ st) ≠ "" := trim_ne_empty (c := 'r') (by simp) (by decide)
    refine (desktopFailed_ends_iff hget hlive hdispatch observedAt "recovery"
      (.text ("recovery_turn_" ++ st))).trans (and_iff_left ?_)
    exact (exists_name htx).imp fun _ hnm => nonempty_eq_ok.mpr hnm
  · rw [if_neg hfl]
    exact iff_of_false (not_ends_ok hget hlive) fun h => hfl h.1

theorem absorbed_recovered_iff {st : String} (hlive : task.state.isLive) :
    Absorbed retry state taskId task observedAt (.recovered st startedAt) ↔
      Absorbable retry state task dispatchId observedAt (.recovered st startedAt) := by
  rw [Absorbed, absorb, Absorbable]
  by_cases hact : task.state.isActive = true
  swap
  · rw [if_neg hact]
    exact iff_of_false (not_ends_ok hget hlive) fun h => hact h.1
  rw [if_pos hact, and_iff_right hact]
  by_cases hcmp : st = "completed"
  · subst hcmp
    rw [if_pos rfl]
    by_cases hrun : task.state = .running
    · -- the end is reported by itself
      simp only [recoverTurn, hget, map_some, hrun, if_true, bind_eq_ok, Except.ok.injEq,
        exists_eq_left', true_or, and_true]
      exact (desktopCompleted_ends_iff hget hlive hdispatch observedAt "recovery").trans
        (and_iff_right hrun)
    · -- the end is reported after a start
      simp only [recoverTurn, hget, map_some, some.injEq, hrun, if_true, if_false, bind_eq_ok,
        false_or]
      exact recoveryCompleted_ends_iff hget hdispatch hact hrun
  · rw [if_neg hcmp]
    exact recoverTurn_ends_iff hget hdispatch hact hlive hcmp

end

/-! ## A first task -/

/-- The states that the operations of the kernel reach. -/
inductive Reachable (P : Platform) : KernelState → Prop
  | create (maxConcurrent : ℕ+) (updatedAt : Option Time) :
    Reachable P (createKernelState maxConcurrent updatedAt)
  | reconcile {state state' : KernelState} (inputs : List TaskInput) (now : Option Time) :
    Reachable P state → reconcileTasks P state inputs now = .ok state' → Reachable P state'
  | claim {state state' : KernelState} {claim : Claim} (taskId : Name) (now : Option Time) :
    Reachable P state → claimDispatch P state taskId now = .ok (state', claim) → Reachable P state'
  | event {state state' : KernelState} (event : EventInput) :
    Reachable P state → applyKernelEvent state event = .ok state' → Reachable P state'

def firstThread : Name := ⟨"thread-1", by decide, by decide⟩

def firstTurn : Name := ⟨"turn-1", by decide, by decide⟩

/-- An event of the first task. -/
def eventOfFirstTask (type : EventType) : EventInput where
  eventId := type.text
  type := type
  taskId := "T-1"
  dispatchId := some "D-ET1111"
  threadId := .text "thread-1"
  turnId := .text "turn-1"
  observedAt := some epoch

/-- The first task is claimed, and events of it are taken. -/
def claimFirstTask (types : List EventType) : Except Thrown KernelState := do
  let state ← reconcileTasks plainPlatform (createKernelState 2 none) [{ taskId := "T-1" }]
    (some epoch)
  let (state, _) ← claimDispatch plainPlatform state firstTask (some epoch)
  runAll applyKernelEvent state (types.map eventOfFirstTask)

theorem reachable_claimFirstTask (types : List EventType) {state : KernelState}
    (h : claimFirstTask types = .ok state) : Reachable plainPlatform state := by
  simp only [claimFirstTask, bind_eq_ok] at h
  obtain ⟨state₁, hrcl, ⟨state₂, claim⟩, hcla, hrun⟩ := h
  have hcd := Reachable.claim firstTask _ (.reconcile _ _ (.create 2 none) hrcl) hcla
  exact runAll_invariant (fun e _ _ _ h hok => .event e h hok) hcd hrun

/-- The end of the first task's turn, as the App Server reports it. -/
def firstTurnCompleted : FinalReport :=
  .adapter "c-1" firstThread (some firstTurn) 1 (some "thread-1") (some "turn-1") (some "completed")

/-! ## Every final report -/

/-- **When a final report takes its task out of the live states.** -/
theorem absorbed_iff (report : FinalReport) (hget : state.tasks.get? taskId = some task)
    (hlive : task.state.isLive) (hdispatch : task.dispatchId = some dispatchId) :
    Absorbed retry state taskId task observedAt report ↔
      Absorbable retry state task dispatchId observedAt report := by
  cases report with
  | adapter => exact absorbed_adapter_iff hget hlive hdispatch
  | turnCompleted => exact absorbed_turnCompleted_iff hget hlive hdispatch
  | turnFailed => exact absorbed_turnFailed_iff hget hlive hdispatch
  | recovered => exact absorbed_recovered_iff hget hdispatch hlive

/-- A task runs, and its turn ends. -/
theorem absorbed_iff_running :
    ∃ state task, claimFirstTask [.dispatchAccepted, .turnStarted] = .ok state ∧
    state.tasks.get? firstTask = some task ∧ task.state.isLive ∧
    task.dispatchId = some "D-ET1111" ∧
    Absorbed {} state firstTask task epoch firstTurnCompleted :=
  ⟨_, _, rfl, rfl, rfl, rfl, (absorbed_iff firstTurnCompleted rfl rfl rfl).mpr
    ⟨by decide, by decide, by decide, by decide, rfl, by decide⟩⟩

/-- The end of a turn whose start was not reported, and of one that has asked its user. -/
theorem final_report_refused :
    (∃ state task, Reachable plainPlatform state ∧ state.tasks.get? firstTask = some task ∧
      task.state = .dispatching ∧ task.dispatchId = some "D-ET1111" ∧
      ¬ Absorbed {} state firstTask task epoch firstTurnCompleted) ∧
    ∃ state task, Reachable plainPlatform state ∧ state.tasks.get? firstTask = some task ∧
      task.state = .waitingForUser ∧ task.dispatchId = some "D-ET1111" ∧
      ¬ Absorbed {} state firstTask task epoch firstTurnCompleted :=
  ⟨⟨_, _, reachable_claimFirstTask [.dispatchAccepted] rfl, rfl, rfl, rfl,
      fun h => nomatch ((absorbed_adapter_iff rfl rfl rfl).mp h).2.2.2.2.1⟩,
    ⟨_, _, reachable_claimFirstTask [.dispatchAccepted, .userInputRequired] rfl, rfl, rfl, rfl,
      fun h => nomatch ((absorbed_adapter_iff rfl rfl rfl).mp h).2.2.2.2.1⟩⟩

end Orquesta.ExecutionKernel
