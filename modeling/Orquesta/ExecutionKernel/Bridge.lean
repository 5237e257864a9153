import Orquesta.ExecutionKernel.Tick

/-!
# The App Server bridge

`createAppServerExecutionBridge` is the adapter with which the scheduler starts turns on a
Codex App Server.  A start is asynchronous: it subscribes, resolves its task, creates or
resumes a thread and starts a turn, and between any two of these steps other starts go on and
reports of the App Server arrive.

A `System` is a kernel state together with a bridge and the tick that is in flight, if there
is one.  A history is a list of actions: a tick begins, one of its starts gets the next
answer, the App Server reports, the tick ends, the driver applies an event.

## Main definitions

* `Bridge`, `Start`, `Phase`, `Answer`
* `System`, `Action`, `System.act`, `System.run`
-/

namespace Orquesta.ExecutionKernel

open Checked Contract Function

/-! ## Sessions and records -/

/-- What is known of the failure of a call. -/
structure Failure where
  reason : Reason
  code : Option String
  dispatchAccepted : Option Bool

/-- `start_turn_stage`. -/
inductive TurnStage
  | notIssued | issued | accepted
deriving DecidableEq

structure StartFailure where
  code : String
  dispatchAccepted : Option Bool

/-- What the bridge keeps of the thread of a task. -/
structure Session where
  threadId : Name
  acceptedTurns : Nat
  stage : TurnStage
  lastStartFailure : Option StartFailure
  (runtimeProfile modelEvidence : JsValue)

/-- `requireResolvedStart` throws. -/
def Session.isUnresolved (session : Session) : Bool :=
  session.lastStartFailure.map (·.code) = some "runtime_outcome_unknown" ||
    (session.stage = .issued &&
      session.lastStartFailure.bind (·.dispatchAccepted) ≠ some false)

structure BridgeRecord extends DispatchRecord where
  input : Dispatch
  completed : Bool

/-- The part of a task that is read when its turn is started. -/
structure TaskSpec where
  (cwd threadName prompt continuationPrompt : Field)

structure BridgeOptions where
  maxTasks : ℕ+ := ⟨2, Nat.two_pos⟩
  retry : RetryOptions := {}
  /-- The adapter can resume threads. -/
  canResume : Bool := true
  /-- The adapter can name threads. -/
  canName : Bool := true

/-- The state of the bridge.  `dispatches` and `byCorrelation` have the same records, here under
their correlation. -/
structure Bridge where
  taskIds : List Name
  sessions : Name → Option Session
  records : String → Option BridgeRecord
  /-- How the subscription was settled. -/
  subscription : Option (Except Failure Unit)
  eventSequence : Nat
  /-- The events that were emitted. -/
  emitted : List EventInput

def Bridge.new : Bridge := ⟨[], fun _ => none, fun _ => none, none, 0, []⟩

def correlationOf (dispatchId : String) : String := "orquesta-execution:" ++ dispatchId

/-! ## Starts -/

/-- How far a start has come: the call whose answer it awaits, or how it was settled. -/
inductive Phase
  | subscribing | resolving
  | creating (spec : TaskSpec)
  | naming (spec : TaskSpec)
  | resuming (spec : TaskSpec)
  | starting
  | settled (outcome : Settled)

structure Start where
  dispatch : Dispatch
  /-- The id of the dispatch, trimmed. -/
  dispatchId : String
  phase : Phase

def Start.isReserved (start : Start) : Bool :=
  match start.phase with
  | .settled _ => false
  | _ => true

def Thrown.reason : Thrown → Reason
  | .typeError message | .rangeError message | .error message => .error (.json (.text message))

def failed (message : String) : Phase := .settled (.rejected (.error (.json (.text message))))

variable (options : BridgeOptions)

/-- The synchronous part of `start`.  Two dispatches of a tick are of different tasks, so none joins
the start of another. -/
def Bridge.start (bridge : Bridge) (started : List Start) (dispatch : Dispatch) : Bridge × Start :=
  match nonempty dispatch.dispatchId "dispatch.dispatch_id" with
  | .error thrown => (bridge, ⟨dispatch, "", .settled (.rejected thrown.reason)⟩)
  | .ok dispatchId =>
    let refused (message : String) : Bridge × Start :=
      (bridge, ⟨dispatch, dispatchId.text, failed message⟩)
    if started.any fun start => start.isReserved && start.dispatchId = dispatchId.text then
      refused ("dispatch_payload_conflict:" ++ dispatchId.text)
    else
      match bridge.records (correlationOf dispatchId.text) with
      | some record =>
        if record.input ≠ dispatch then refused ("dispatch_payload_conflict:" ++ dispatchId.text)
        else refused ("duplicate_dispatch:" ++ dispatchId.text)
      | none =>
        if started.any fun start => start.isReserved && start.dispatch.taskId = dispatch.taskId then
          refused ("task_start_in_progress:" ++ dispatch.taskId.text)
        else if dispatch.taskId ∉ bridge.taskIds ∧ options.maxTasks ≤ bridge.taskIds.length then
          refused ("app_server_proof_task_limit:" ++ toString options.maxTasks.val)
        else
          ({ bridge with taskIds :=
              if dispatch.taskId ∈ bridge.taskIds then bridge.taskIds
              else bridge.taskIds ++ [dispatch.taskId] },
            ⟨dispatch, dispatchId.text, .subscribing⟩)

/-- The starts of a tick, in order. -/
def Bridge.startAll (bridge : Bridge) : List Start → List Dispatch → Bridge × List Start
  | started, [] => (bridge, started)
  | started, dispatch :: rest =>
    let (bridge, start) := bridge.start options started dispatch
    bridge.startAll (started ++ [start]) rest

/-! ## Answers -/

structure CreatedThread where
  threadId : Field
  (runtimeProfile modelEvidence : JsValue)

/-- The next answer that a start gets. -/
inductive Answer
  | subscribed (result : Except Failure Unit)
  | resolved (spec : Except Reason (Option TaskSpec))
  | created (result : Except Failure CreatedThread)
  | named (result : Except Failure Unit)
  | resumed (result : Except Failure Unit)
  /-- The turn id, and the time the clock gives. -/
  | turnStarted (result : Except Failure Field) (clock : Option Time)

def rejected (failure : Failure) : Phase := .settled (.rejected failure.reason)

def CONTINUATION_PROMPT : String :=
  "Continue the assigned task from the existing thread context. Do not repeat completed work."

/-- The last part of `performStart`, up to the call of `startTurn`. -/
def Bridge.beginTurn (bridge : Bridge) (start : Start) (spec : TaskSpec) (session : Session) :
    Bridge × Phase :=
  let field (name : String) := "task " ++ start.dispatch.taskId.text ++ name
  let prompt :=
    if 0 < session.acceptedTurns then
      (spec.continuationPrompt.orElse CONTINUATION_PROMPT).nonempty (field ".continuation_prompt")
    else spec.prompt.nonempty (field ".prompt")
  match prompt with
  | .error thrown => (bridge, .settled (.rejected thrown.reason))
  | .ok _ =>
    let record : BridgeRecord := {
      taskId := start.dispatch.taskId
      dispatchId := start.dispatchId
      attempt := start.dispatch.attempt
      correlationId := correlationOf start.dispatchId
      threadId := session.threadId
      turnId := none
      input := start.dispatch
      completed := false }
    ({ bridge with
        records := update bridge.records (correlationOf start.dispatchId) (some record)
        sessions := update bridge.sessions start.dispatch.taskId
          (some { session with stage := .issued, lastStartFailure := none }) },
      .starting)

/-- `performStart` once the task is resolved. -/
def Bridge.openSession (bridge : Bridge) (start : Start) (spec : TaskSpec) : Bridge × Phase :=
  match spec.cwd.nonempty ("task " ++ start.dispatch.taskId.text ++ ".cwd") with
  | .error thrown => (bridge, .settled (.rejected thrown.reason))
  | .ok _ =>
    match bridge.sessions start.dispatch.taskId with
    | none => (bridge, .creating spec)
    | some session =>
      if session.isUnresolved then
        (bridge, failed ("turn_start_recovery_required:" ++ start.dispatch.taskId.text))
      else if options.canResume then (bridge, .resuming spec)
      else bridge.beginTurn start spec session

/-- `performStart` once a thread is created. -/
def Bridge.createSession (bridge : Bridge) (start : Start) (spec : TaskSpec)
    (created : CreatedThread) : Bridge × Phase :=
  match created.threadId.nonempty "createThread.thread_id" with
  | .error thrown => (bridge, .settled (.rejected thrown.reason))
  | .ok threadId =>
    let session : Session :=
      ⟨threadId, 0, .notIssued, none, created.runtimeProfile, created.modelEvidence⟩
    let bridge := { bridge with
      sessions := update bridge.sessions start.dispatch.taskId (some session) }
    if spec.threadName.truthy && options.canName then
      match spec.threadName.nonempty ("task " ++ start.dispatch.taskId.text ++ ".thread_name") with
      | .error thrown => (bridge, .settled (.rejected thrown.reason))
      | .ok _ => (bridge, .naming spec)
    else bridge.beginTurn start spec session

/-- The turn of the start was not accepted. -/
def Bridge.refuseTurn (bridge : Bridge) (start : Start) (failure : Failure) : Bridge :=
  { bridge with
    records := update bridge.records (correlationOf start.dispatchId) none
    sessions := update bridge.sessions start.dispatch.taskId
      ((bridge.sessions start.dispatch.taskId).map fun session =>
        { session with
          lastStartFailure :=
            some ⟨orText failure.code "codex_adapter_failed", failure.dispatchAccepted⟩ }) }

/-- The turn of the start was accepted under the id. -/
def Bridge.acceptTurn (bridge : Bridge) (start : Start) (turnId : Name) : Bridge :=
  { bridge with
    records := update bridge.records (correlationOf start.dispatchId)
      ((bridge.records (correlationOf start.dispatchId)).map fun record =>
        { record with turnId := some turnId })
    sessions := update bridge.sessions start.dispatch.taskId
      ((bridge.sessions start.dispatch.taskId).map fun session =>
        { session with
          acceptedTurns := session.acceptedTurns + 1
          stage := .accepted
          lastStartFailure := none }) }

variable (P : Platform)

/-- The result of a start whose turn was accepted. -/
def Bridge.startResult (bridge : Bridge) (start : Start) (turnId : Name) (clock : Option Time) :
    Except Thrown StartResult := do
  let time ← require clock (.rangeError "Invalid time value")
  let session ← require (bridge.sessions start.dispatch.taskId) (.typeError "session is undefined")
  let runtimeProfile ← session.runtimeProfile.clone
  let modelEvidence ← session.modelEvidence.clone
  return {
    acceptedAt := .json (.text (P.isoString time))
    correlationId := .json (.text (correlationOf start.dispatchId))
    threadId := .json (.text session.threadId.text)
    turnId := .json (.text turnId.text)
    modelEvidence := .json modelEvidence
    runtimeProfile := .json runtimeProfile }

/-- A start gets its next answer; an answer to another call changes nothing. -/
def Bridge.answer (bridge : Bridge) (start : Start) (answer : Answer) : Bridge × Phase :=
  match start.phase, answer with
  | .subscribing, .subscribed result =>
    -- The promise of the subscription is kept, also when it fails.
    let result := bridge.subscription.getD result
    ({ bridge with subscription := some result },
      match result with
      | .error failure => rejected failure
      | .ok () => .resolving)
  | .resolving, .resolved (.error reason) => (bridge, .settled (.rejected reason))
  | .resolving, .resolved (.ok none) =>
    (bridge, failed ("resolveTask returned an invalid task for " ++ start.dispatch.taskId.text))
  | .resolving, .resolved (.ok (some spec)) => bridge.openSession options start spec
  | .creating _, .created (.error failure) => (bridge, rejected failure)
  | .creating spec, .created (.ok created) => bridge.createSession options start spec created
  | .naming _, .named (.error failure) | .resuming _, .resumed (.error failure) =>
    (bridge, rejected failure)
  | .naming spec, .named (.ok ()) | .resuming spec, .resumed (.ok ()) =>
    match bridge.sessions start.dispatch.taskId with
    | none => (bridge, failed "session is undefined")
    | some session => bridge.beginTurn start spec session
  | .starting, .turnStarted (.error failure) _ =>
      (bridge.refuseTurn start failure, rejected failure)
  | .starting, .turnStarted (.ok turnId) clock =>
    match turnId.nonempty "startTurn.turn_id" with
    | .error thrown => (bridge, .settled (.rejected thrown.reason))
    | .ok turnId =>
      let accepted := bridge.acceptTurn start turnId
      match accepted.startResult P start turnId clock with
      | .error thrown => (accepted, .settled (.rejected thrown.reason))
      | .ok value => (accepted, .settled (.fulfilled value))
  | phase, _ => (bridge, phase)

/-! ## Reports -/

/-- The sequence of events advances with the report. -/
def AdapterReport.advances (report : AdapterReport) (clock : Option Time) : Bool :=
  match report with
  | .dispatchAccepted => false
  | .modelObserved model => orText model "" ≠ ""
  | .turnCompleted status => status = some "completed" || clock.isSome
  | _ => true

/-- The App Server reports an event; the clock may fail. -/
def Bridge.report (bridge : Bridge) (event : AdapterEvent) (clock : Option Time) : Bridge :=
  match bridge.records event.correlationId with
  | none => bridge
  | some record =>
    if event.report = .dispatchAccepted ∨ runtimeIdentityMatches event record.toDispatchRecord =
        false then
      bridge
    else
      let completed := match event.report with
        | .turnCompleted _ => true
        | _ => record.completed
      let derived := clock.bind fun time =>
        (handleAdapterEvent options.retry bridge.eventSequence time record.toDispatchRecord
          event).toOption.join
      { bridge with
        records := update bridge.records event.correlationId (some { record with completed })
        eventSequence :=
          if event.report.advances clock then bridge.eventSequence + 1 else bridge.eventSequence
        emitted := bridge.emitted ++ derived.toList }

/-! ## The system -/

/-- A tick that awaits its starts. -/
structure InFlight where
  claimed : KernelState
  starts : List Start
  observedAt : Time
  retry : RetryOptions

/-- A kernel state that is driven with a bridge.  `accepted` lists the turns that the App Server has
accepted, by task and dispatch, and `used` the dispatches that were started. -/
structure System where
  kernel : KernelState
  bridge : Bridge
  tick : Option InFlight
  accepted : List (Name × String)
  used : List String

def System.new (kernel : KernelState) : System := ⟨kernel, .new, none, [], []⟩

inductive Action
  | beginTick (tasks : List TaskInput) (observedAt : Time) (limit : Rat) (retry : RetryOptions)
  | answer (taskId : Name) (answer : Answer)
  | report (event : AdapterEvent) (clock : Option Time)
  | endTick
  /-- One of the events that the bridge has emitted is applied. -/
  | applyEmitted (index : Nat)
  | resolveInput (event : EventInput)
  | retryDue (event : EventInput)

/-- The tick up to the starts. -/
def System.beginTick (system : System) (tasks : List TaskInput) (observedAt : Time) (limit : Rat)
    (retry : RetryOptions) : System :=
  match claimSelected P system.kernel tasks observedAt limit with
  | .error _ => system
  | .ok (_, claimed, dispatches) =>
    let (bridge, starts) := system.bridge.startAll options [] dispatches
    { system with
      bridge
      tick := some ⟨claimed, starts, observedAt, retry⟩
      used := system.used ++ dispatches.map fun dispatch => trim dispatch.dispatchId }

/-- The turns that are accepted with an answer. -/
def Start.acceptedWith (start : Start) (answer : Answer) : List (Name × String) :=
  match start.phase, answer with
  | .starting, .turnStarted (.ok _) _ => [(start.dispatch.taskId, start.dispatchId)]
  | _, _ => []

def System.answer (system : System) (tick : InFlight) (taskId : Name) (answer : Answer) : System :=
  match tick.starts.find? (·.dispatch.taskId = taskId) with
  | none => system
  | some start =>
    let (bridge, phase) := system.bridge.answer options P start answer
    { system with
      bridge
      tick := some { tick with
        starts := tick.starts.map fun s => if s.dispatch.taskId = taskId then
          { s with phase } else s }
      accepted := system.accepted ++ start.acceptedWith answer }

def Start.outcome (start : Start) : Option (Dispatch × Settled) :=
  match start.phase with
  | .settled outcome => some (start.dispatch, outcome)
  | _ => none

/-- The tick records its outcomes, once every start is settled; the kernel state stays as it was if
the tick throws. -/
def System.endTick (system : System) (tick : InFlight) : System :=
  match tick.starts.mapM Start.outcome with
  | none => system
  | some outcomes =>
    match runAll (settle P tick.retry tick.observedAt) (tick.claimed, []) outcomes with
    | .error _ => { system with tick := none }
    | .ok (kernel, _) => { system with kernel, tick := none }

/-- The driver applies an event; an event that is refused changes nothing. -/
def System.applyEvent (system : System) (event : EventInput) : System :=
  { system with kernel := (applyKernelEvent system.kernel event).toOption.getD system.kernel }

/-- The kernel state is not touched while a tick is in flight. -/
def System.act (system : System) (action : Action) : System :=
  match action, system.tick with
  | .beginTick tasks observedAt limit retry, none =>
    system.beginTick options P tasks observedAt limit retry
  | .answer taskId answer, some tick => system.answer options P tick taskId answer
  | .report event clock, _ => { system with bridge := system.bridge.report options event clock }
  | .endTick, some tick => system.endTick P tick
  | .applyEmitted index, none =>
    match system.bridge.emitted[index]? with
    | none => system
    | some event => system.applyEvent event
  | .resolveInput event, none => system.applyEvent { event with type := .userInputResolved }
  | .retryDue event, none => system.applyEvent { event with type := .retryDue }
  | _, _ => system

def System.run (system : System) (actions : List Action) : System :=
  actions.foldl (System.act options P) system

end Orquesta.ExecutionKernel
