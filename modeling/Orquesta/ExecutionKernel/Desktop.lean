import Orquesta.ExecutionKernel.Startable

/-!
# The Desktop controller

`DesktopExecutionKernelController` keeps a kernel state for each project root and the
messages it was asked to dispatch.  Its operations are queued, so a history of a controller
is a list of calls that are served one after the other.

A call carries what its environment answers: the real path of the root, what is read from
the state file, the readings of the clock, the answers of the runtime, and whether the state
can be written.

## Main definitions

* `Controller`, `DispatchCall`, `Controller.dispatch`
* `OpenCall`, `Controller.openRoot`, `ObserveCall`, `Controller.observe`
* `serveAll`: the dispatches of a history, each with the messages that were sent meanwhile
-/

namespace Orquesta.ExecutionKernel

open Checked Contract

/-! ## The controller -/

/-- A message to be dispatched; what is only handed on to the runtime is left out. -/
structure DispatchInput where
  (rootPath correlationId : String)
  recommendedModel : Option String := none
  requestedModel : Option String := none

structure Controller where
  roots : OrderedMap String KernelState
  dispatchInputs : OrderedMap String DispatchInput

def Controller.new : Controller := ⟨.empty, .empty⟩

def MAX_CONCURRENT_TASKS : ℕ+ := ⟨2, Nat.two_pos⟩

/-- Why an operation rejects. -/
inductive Refusal
  /-- The file system, the clock or the runtime failed. -/
  | environment | capacityFull
  | thrown (error : Thrown)
  | threw (reason : Reason)
  | notDispatched (taskId : String)

/-- What reading the state file of a root gives. -/
inductive StateFile
  | missing | unreadable
  | stored (state : KernelState)

/-- The state of a root, from memory or from its file. -/
def Controller.load (controller : Controller) (root : String) (file : StateFile)
    (loadedAt : Option Time) : Except Refusal (Controller × KernelState) :=
  match controller.roots.get? root, file, loadedAt with
  | some cached, _, _ => .ok (controller, cached)
  | none, .stored state, _ =>
    .ok ({ controller with roots := controller.roots.set root state }, state)
  | none, .missing, some now =>
    let state := createKernelState MAX_CONCURRENT_TASKS (some now)
    .ok ({ controller with roots := controller.roots.set root state }, state)
  | none, _, _ => .error .environment

/-- The state of a root is kept once it is written. -/
def Controller.persist (controller : Controller) (root : String) (state : KernelState)
    (written : Bool) : Except Refusal Controller :=
  if written then .ok { controller with roots := controller.roots.set root state }
  else .error .environment

/-! ## Dispatching a message -/

variable (P : Platform)

variable (controller : Controller) (call : DispatchCall) (state : KernelState)

/-- `state.tasks[text]`. -/
def lookupTask (text : String) : Option TaskRecord :=
  (state.tasks.entries.find? fun entry => entry.1.text = text).map Prod.snd

def definitionFrom (entry : Name × TaskRecord) : TaskInput where
  taskId := entry.1.text
  dependencies := entry.2.dependencies.map (·.text)
  priority := entry.2.priority.map fun n => (n.val : Int)
  createdAt := entry.2.createdAt.map P.isoString
  executionRevision := entry.2.executionRevision.val
  cycleId := entry.2.cycleId.text

def definitionsFromState : List TaskInput := state.tasks.entries.map (definitionFrom P)

structure RuntimeModelEvidence where
  (recommendedModel requestedModel appliedModel actualModel : Option String)
  actualModelEvidence : String

def modelEvidenceForKernel (evidence : RuntimeModelEvidence) : Field :=
  let text : Option String → Json Int
    | none => .null
    | some s => .str s
  .other (.obj [("recommended_model", text evidence.recommendedModel),
    ("requested_model", text evidence.requestedModel),
    ("applied_model", text evidence.appliedModel),
    ("actual_model", text evidence.actualModel),
    ("actual_model_evidence", .str evidence.actualModelEvidence)])

/-- What becomes of a message that is sent. -/
inductive SendOutcome
  | fulfilled (threadId turnId : JsValue) (modelEvidence : RuntimeModelEvidence)
  | rejected (reason : Reason)

structure DispatchCall where
  input : DispatchInput
  /-- The real path of the root, if there is one. -/
  canonicalRoot : Option String
  file : StateFile
  /-- The readings of the clock, where it gives a date. -/
  (loadedAt createdAt observedAt : Option Time)
  send : DispatchInput → SendOutcome
  acceptedAt : DispatchInput → Option Time
  written : Bool

/-- `adapter.start` of the tick. -/
def DispatchCall.start (inputs : OrderedMap String DispatchInput) (dispatch : Dispatch) : Outcome :=
  let fails (message : String) : Outcome := .settled (.rejected (.error (.json (.text message))))
  match inputs.get? dispatch.taskId.text with
  | none => fails ("Desktop dispatch input is unavailable for " ++ dispatch.taskId.text)
  | some request =>
    match call.send request with
    | .rejected reason => .settled (.rejected reason)
    | .fulfilled threadId turnId modelEvidence =>
      match call.acceptedAt request with
      | none => fails "Invalid time value"
      | some time => .settled (.fulfilled {
          acceptedAt := .json (.text (P.isoString time))
          correlationId := .json (.text request.correlationId)
          threadId, turnId
          modelEvidence := .json (modelEvidenceForKernel modelEvidence) })

/-- The messages for which `runtime.sendMessage` is called. -/
def sentMessages (inputs : OrderedMap String DispatchInput) (started : List Dispatch) :
    List String :=
  (started.map (·.taskId)).filterMap fun id => (inputs.get? id.text).map (·.correlationId)

structure DispatchReply where
  (threadId turnId : JsValue)
  (recommendedModel requestedModel : Option String)
  appliedModel : Option (Json Int)

/-- `task.model_evidence?.applied_model ?? null`. -/
def appliedModel (task : TaskRecord) : Option (Json Int) :=
  match task.modelEvidence with
  | .other (.obj members) =>
    match members.lookup "applied_model" with
    | none | some .null => none
    | some model => some model
  | _ => none

/-- What the call returns once the tick is over. -/
def DispatchCall.reply (taskId : String) (result : TickResult) : Except Refusal DispatchReply :=
  let named : DispatchResult → Bool
    | .dispatching dispatch _ _ | .retryQueued dispatch _ => dispatch.taskId.text = taskId
  match result.results.find? named, lookupTask result.state taskId with
  | some (.dispatching _ _ value), some task =>
    let chosen := orText call.input.requestedModel "" ≠ "" ∨
      orText call.input.recommendedModel "" ≠ ""
    if value.threadId.truthy ∧ value.turnId.truthy then
      .ok ⟨value.threadId, value.turnId, if chosen then call.input.recommendedModel else none,
        if chosen then call.input.requestedModel else none, appliedModel task⟩
    else .error (.notDispatched taskId)
  | _, _ => .error (.notDispatched taskId)

/-- The controller after a call, the messages sent during it, and what it returns. -/
structure Dispatched where
  controller : Controller
  sent : List String
  reply : Except Refusal DispatchReply

def messageTaskId (correlationId : String) : String := "desktop-" ++ correlationId

/-- The definition of a message that has no task yet. -/
def DispatchCall.newDefinitions : Except Refusal (List TaskInput) :=
  if (lookupTask state (messageTaskId call.input.correlationId)).isSome then .ok []
  else
    match call.createdAt with
    | none => .error .environment
    | some time => .ok [{
        taskId := messageTaskId call.input.correlationId
        priority := some (state.tasks.entries.length + 1)
        createdAt := some (P.isoString time) }]

/-- The call, once the state is loaded and the message is kept. -/
def Controller.dispatchLoaded (root : String) (state : KernelState) : Dispatched :=
  match call.newDefinitions P state, call.observedAt with
  | .ok new, some observedAt =>
    let tick := runDispatchTick P state (definitionsFromState P state ++ new)
      (call.start P controller.dispatchInputs) observedAt MAX_SAFE_INTEGER {}
    let sent := sentMessages controller.dispatchInputs tick.started
    match tick.outcome with
    | .error (.inl error) => ⟨controller, sent, .error (.thrown error)⟩
    | .error (.inr reason) => ⟨controller, sent, .error (.threw reason)⟩
    | .ok result =>
      match controller.persist root result.state call.written with
      | .error refusal => ⟨controller, sent, .error refusal⟩
      | .ok controller =>
        ⟨controller, sent, call.reply (messageTaskId call.input.correlationId) result⟩
  | _, _ => ⟨controller, [], .error .environment⟩

/-- The message is kept for the tick. -/
def Controller.keep (root : String) : Controller :=
  { controller with
    dispatchInputs := controller.dispatchInputs.set (messageTaskId call.input.correlationId)
      { call.input with rootPath := root } }

def Controller.dispatch : Dispatched :=
  match call.canonicalRoot with
  | none => ⟨controller, [], .error .environment⟩
  | some root =>
    match controller.load root call.file call.loadedAt with
    | .error refusal => ⟨controller, [], .error refusal⟩
    | .ok (controller, state) =>
      if (lookupTask state (messageTaskId call.input.correlationId)).isNone ∧
          state.maxConcurrent ≤ activeCount state then
        ⟨controller, [], .error .capacityFull⟩
      else (controller.keep call root).dispatchLoaded P call root state

/-! ## Opening a root -/

structure ProjectThread where
  id : String
  archived : Bool

structure OpenCall where
  canonicalRoot : Option String
  file : StateFile
  loadedAt : Option Time
  /-- The threads of the project, if the runtime lists them. -/
  threads : Option (List ProjectThread)
  /-- The status of the turn of a task, if the runtime answers. -/
  turnStatus : Name → Option (Option String)
  (startedAt observedAt : Name → Option Time)
  written : Bool

/-- The body of the loop of `recoverLoadedRoot`. -/
def OpenCall.recoverTask (call : OpenCall) (threads : List ProjectThread) (next : KernelState)
    (entry : Name × TaskRecord) : Except Refusal KernelState := do
  let (taskId, task) := entry
  if !task.state.isActive then return next
  else
    let observedAt ← require (call.observedAt taskId) .environment
    match task.threadId, task.turnId with
    | some threadId, some _ =>
      let unavailable (error : String) : EventInput :=
        { desktopEvent taskId task observedAt ":recovery:thread_unavailable" .taskFailed with
          error := .text error }
      -- Of two threads with the same id the later counts.
      match threads.reverse.find? (·.id = threadId.text) with
      | none => (applyKernelEvent next (unavailable "recovery_thread_missing")).mapError .thrown
      | some thread =>
        if thread.archived then
          (applyKernelEvent next (unavailable "recovery_thread_archived")).mapError .thrown
        else
          let turnStatus ← require (call.turnStatus taskId) .environment
          let startedAt ← require (call.startedAt taskId) .environment
          (recoverTurn next taskId task startedAt observedAt turnStatus).mapError .thrown
    | _, _ =>
      let missing : EventInput :=
        { desktopEvent taskId task observedAt ":recovery:missing_identity" .taskFailed with
          threadId := .absent, turnId := .absent
          error := .text "recovery_missing_runtime_identity" }
      (applyKernelEvent next missing).mapError .thrown

def Controller.openRoot (call : OpenCall) : Controller :=
  match call.canonicalRoot with
  | none => controller
  | some root =>
    match controller.load root call.file call.loadedAt with
    | .error _ => controller
    | .ok (controller, state) =>
      let opened : Except Refusal Controller := do
        let threads ← require call.threads .environment
        let recovered ← runAll (call.recoverTask threads) state state.tasks.entries
        controller.persist root recovered call.written
      opened.toOption.getD controller

/-! ## Observing a notification -/

inductive NotificationKind
  | turnStarted | turnCompleted | turnFailed | agentMessage | modelObserved | providerEvent

def NotificationKind.text : NotificationKind → String
  | .turnStarted => "turn_started"
  | .turnCompleted => "turn_completed"
  | .turnFailed => "turn_failed"
  | .agentMessage => "agent_message"
  | .modelObserved => "model_observed"
  | .providerEvent => "provider_event"

structure RuntimeNotification where
  kind : NotificationKind
  threadId : String
  (turnId text actualModel : Option String)

def eventSuffix (notification : RuntimeNotification) : String :=
  String.ofList ((P.sha256Hex
    (String.intercalate "\x00" [notification.kind.text, notification.threadId,
    notification.turnId.getD "", notification.text.getD ""])).toList.take 12)

/-- What `applyRuntimeNotification` makes of a notification. -/
def RuntimeNotification.read (notification : RuntimeNotification) : Notification :=
  match notification.kind with
  | .turnStarted => .turnStarted
  | .turnCompleted => .turnCompleted
  | .turnFailed => .turnFailed notification.text
  | .agentMessage => .agentMessage (eventSuffix P notification)
  | .modelObserved => .modelObserved (eventSuffix P notification) notification.actualModel
  | .providerEvent => .other

structure ObserveCall where
  notification : RuntimeNotification
  /-- The roots that the caller allows. -/
  allowed : String → Bool
  observedAt : Option Time
  written : Bool

/-- The first task of a state that has the thread, and the turn if both are known. -/
def taskWithIdentity (threadId : String) (turnId : Option String) : Option (Name × TaskRecord) :=
  state.tasks.entries.find? fun entry =>
    entry.2.threadId.map (·.text) = some threadId ∧ differs turnId entry.2.turnId = false

def Controller.taskForRuntimeIdentity (threadId : String)
    (turnId : Option String) : Option (String × KernelState × Name × TaskRecord) :=
  controller.roots.entries.findSome? fun (root, state) =>
    (taskWithIdentity state threadId turnId).map fun (id, task) => (root, state, id, task)

def Controller.observe (call : ObserveCall) : Controller :=
  match controller.taskForRuntimeIdentity call.notification.threadId call.notification.turnId with
  | none => controller
  | some (root, state, id, task) =>
    if !call.allowed root || !task.state.isActive then controller
    else
      let observed : Except Refusal Controller := do
        let observedAt ← require call.observedAt .environment
        let next ← (applyRuntimeNotification state id task observedAt
          (call.notification.read P)).mapError
          .thrown
        controller.persist root next call.written
      observed.toOption.getD controller

/-! ## Histories -/

inductive Call
  | openRoot (call : OpenCall)
  | dispatch (call : DispatchCall)
  | observe (call : ObserveCall)

/-- A dispatch of a history: its message, and the messages sent meanwhile. -/
structure Entry where
  correlationId : String
  sent : List String

def Controller.serve : Call → Controller × List Entry
  | .openRoot call => (controller.openRoot call, [])
  | .observe call => (controller.observe P call, [])
  | .dispatch call =>
    let dispatched := controller.dispatch P call
    (dispatched.controller, [⟨call.input.correlationId, dispatched.sent⟩])

/-- The dispatches of a history. -/
def serveAll : Controller → List Call → List Entry
  | _, [] => []
  | controller, call :: rest => (controller.serve P call).2 ++
      serveAll (controller.serve P call).1 rest

end Orquesta.ExecutionKernel
