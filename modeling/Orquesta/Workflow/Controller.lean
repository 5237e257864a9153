import Orquesta.Library.Async
import Orquesta.Library.OrderedMap
import Orquesta.Workflow.Batches

/-!
# The controller of workflows

`WorkflowRunController` starts batches, cancels them, and goes on to the next attempt when the
runtime reports the end of a turn; after a restart `reconcileProject` goes on with the batches
that were left.

Each call is an asynchronous task.  A change of the stored batches is one step: the queue of a
project lets one change at a time read, change and replace the stored file.  The queue is first in,
first out; here the changes that wait may go on in any order, so every run of the code is among the
runs here.  A result is created empty and then written byte by byte.  The turns that the runtime has
started, and that have neither ended nor been interrupted, are part of the state; no call reads
them.

## Main definitions

* `Shared`: the stored batches, the results, the memory of the controller, and the live turns
* `Label`
* `startNext`, `finish`, `fail`, `startBatch`, `cancelBatch`, `handleRuntimeNotification`,
  `handleRuntimeApproval`, `reconcileProject`
* `Call`, `program`
-/

namespace Orquesta.Workflow

open Checked Contract RunRuntime Async Function

/-- Where an attempt is stored. -/
structure Place where
  (rootPath batchId attemptId : String)
deriving DecidableEq

structure AttemptLocation extends Place where
  projectId : String

/-- A turn that was started for an attempt. -/
structure Turn where
  place : Place
  (threadId turnId : String)

/-- What the calls share: for each project the stored batches and the results, the maps of the
controller, and the turns that are live. -/
structure Shared where
  state : String → WorkflowState
  results : Place → Option Bytes
  locationByThread : OrderedMap String AttemptLocation
  responseByThread : OrderedMap String Text
  live : List Turn

structure BatchInput where
  (projectId rootPath batchId : String)

structure StartInput where
  (projectId rootPath workflowId : String)
  repetitions : Nat

/-- What a step is about to do. -/
inductive Label
  /-- Only the memory of the controller is touched. -/
  | memory
  | create (rootPath : String)
  | claim (rootPath batchId : String)
  | startRun (place : Place)
  | started (place : Place) (result : Started)
  | startFailed (place : Place)
  | finish (place : Place)
  | fail (place : Place)
  | beginCancel (rootPath batchId : String)
  /-- A turn is interrupted, to cancel the batch. -/
  | cancelTurn (rootPath batchId threadId turnId : String)
  | endCancel (rootPath batchId : String)
  | interrupt (threadId turnId : String)
  | respond
  | readState (rootPath : String)
  | createResult (place : Place)
  | writeResult (place : Place)
  | readResult (place : Place)
  | readThread (threadId : String)
  /-- A turn ends on its own. -/
  | turnEnds

variable {P : Platform}

abbrev Op (P : Platform) := Async Shared (Answer P) Label String

/-! ## The stored batches -/

/-- A state that is longer is neither written nor read. -/
def checkSize (P : Platform) (state : WorkflowState) : Except String Unit :=
  ensure (P.stateBytes state ≤ MAX_STATE_BYTES) "workflow state exceeds the supported size"

/-- `readWorkflowState`. -/
def loadState (x : Answer P) (s : Shared) (rootPath : String) : Except String WorkflowState := do
  checkSize P (s.state rootPath)
  parseWorkflowState P (s.state rootPath)
  match x.refused with
  | some e => .error e
  | none => .ok (s.state rootPath)

variable (s : Shared) (place : Place) (location : AttemptLocation)

def Shared.putState (rootPath : String) (state : WorkflowState) : Shared :=
  { s with state := update s.state rootPath state }

/-- `writeWorkflowState`. -/
def writeWorkflowState (x : Answer P) (s : Shared) (rootPath : String) (state : WorkflowState) :
    Shared × Except String Unit :=
  match parseWorkflowState P state >>= fun _ => checkSize P state, x.refused with
  | .error e, _ => (s, .error e)
  | .ok (), some e => (s, .error e)
  | .ok (), none => (s.putState rootPath state, .ok ())

/-- The stored state is read, changed and stored again, or it is left as it is. -/
def change {α : Type} (rootPath : String)
    (f : WorkflowState → Except String (Option WorkflowState × α)) (x : Answer P) (s : Shared) :
    Shared × Except String α :=
  match loadState x s rootPath >>= f with
  | .error e => (s, .error e)
  | .ok (none, a) => (s, .ok a)
  | .ok (some state, a) =>
    let written := writeWorkflowState x s rootPath state
    (written.1, written.2.map fun _ => a)

/-- A change of the stored batches, of which the queue of the project lets one at a time go on. -/
def mutate {α : Type} (label : Label) (rootPath : String)
    (f : Answer P → WorkflowState → Except String (Option WorkflowState × α)) : Op P α :=
  await label fun x s => change rootPath (f x) x s

def WorkflowState.findBatch (state : WorkflowState) (batchId : String) : Option Batch :=
  Rows.find Batch.batchId batchId state.batches

def WorkflowState.replaceBatch (state : WorkflowState) (batchId : String) (next : Batch) :
    WorkflowState :=
  { state with batches := Rows.replace Batch.batchId batchId next state.batches }

/-- A change of one batch. -/
def changeBatch {α : Type} (batchId : String) (missing : Except String α)
    (f : Batch → Except String (Option Batch × α)) (state : WorkflowState) :
    Except String (Option WorkflowState × α) :=
  match state.findBatch batchId with
  | none => missing.map fun a => (none, a)
  | some batch => (f batch).map fun (next, a) => (next.map (state.replaceBatch batchId), a)

/-- `readWorkflowState`. -/
def readWorkflowState (rootPath : String) : Op P WorkflowState :=
  await (.readState rootPath) fun x s => (s, loadState x s rootPath)

def updateAttempt (label : Label) (place : Place) (status : BatchStatus → BatchStatus)
    (update : Answer P → Attempt → Attempt) : Op P Batch :=
  mutate label place.rootPath fun x =>
    changeBatch place.batchId (.error "workflow batch no longer exists") fun batch =>
      (batch.update place.attemptId status (update x) x.now.text).map fun next => (some next, next)

def remember (f : Shared → Shared) : Op P Unit := await .memory fun _ s => (f s, .ok ())

/-- Nothing is remembered of a thread. -/
def Shared.forget (threadId : Option String) : Shared :=
  match given threadId with
  | none => s
  | some threadId =>
    { s with
      locationByThread := s.locationByThread.erase threadId
      responseByThread := s.responseByThread.erase threadId }

/-! ## The next attempt -/

def claim (input : BatchInput) : Op P (Option String) :=
  mutate (.claim input.rootPath input.batchId) input.rootPath fun x =>
    changeBatch input.batchId (.ok none) fun batch =>
      .ok (match batch.claim x.now.text with
        | none => (none, none)
        | some (next, attemptId) => (some next, some attemptId))

/-- The profile in which a workflow has to run. -/
def workflowBoundary : Boundary := ⟨"read-only", "never", "disabled"⟩

/-- A turn is started: from now on it is live. -/
def startWorkflowRun : Op P Started :=
  await (.startRun place) fun x s =>
    (match x.started with
      | .error _ => s
      | .ok result => { s with live := ⟨place, result.threadId, result.turnId⟩ :: s.live },
          x.started)

/-- The attempt with its turn, whatever it was. -/
def Attempt.begin (attempt : Attempt) (result : Started) : Attempt :=
  { attempt with
    status := .running
    threadId := some result.threadId
    turnId := some result.turnId }

/-- The attempt as failed, whatever it was. -/
def Attempt.fail (attempt : Attempt) (errorCode : String) (errorMessage : Text) (x : Answer P) :
    Attempt :=
  { attempt with
    status := .failed
    errorCode := some errorCode
    errorMessage := some (errorMessage.take 4096)
    completedAt := some x.now.text
    durationMs := duration P attempt.startedAt x.now.text }

def launch : Op P Unit := do
  let result ← startWorkflowRun location.toPlace
  if result.runtimeBoundary ≠ workflowBoundary then
    attempt (.error "read_only_boundary_violation: workflow runtime profile mismatch")
  else do
    let _ ← updateAttempt (.started location.toPlace result) location.toPlace (fun _ => .running)
      fun _ attempt => attempt.begin result
    remember fun s => { s with locationByThread := s.locationByThread.set result.threadId location }

def startErrorCode (message : String) : String :=
  if includes message.toList "read_only_boundary_violation".toList then
    "read_only_boundary_violation"
  else "runtime_unavailable"

/-- One attempt is started; whether it was. -/
def tryLaunch : Op P Bool :=
  (do launch location; return true).recover fun message => do
    let _ ← updateAttempt (.startFailed location.toPlace) location.toPlace id
      fun x attempt => attempt.fail (startErrorCode message) message x
    return false

/-- The loop of `startNext`.  Each round takes an attempt that was queued. -/
def startNextWithin (input : BatchInput) : Nat → Op P Unit
  | 0 => return ()
  | rounds + 1 => do
    match ← claim input with
    | none => return ()
    | some attemptId =>
      if ← tryLaunch ⟨⟨input.rootPath, input.batchId, attemptId⟩, input.projectId⟩ then return ()
      else startNextWithin input rounds

/-- A batch has at most `MAX_ATTEMPTS` attempts, so there is always a round left that finds none. -/
def startNext (input : BatchInput) : Op P Unit := startNextWithin input (MAX_ATTEMPTS + 1)

def AttemptLocation.batch : BatchInput := ⟨location.projectId, location.rootPath, location.batchId⟩

/-! ## The end of an attempt -/

def Shared.putResult (content : Option Bytes) : Shared :=
  { s with results := update s.results place content }

/-- `open` with the flag `wx`: whether the file was created. -/
def createResult (place : Place) : Op P Bool :=
  await (.createResult place) fun x s =>
    match x.refused, s.results place with
    | some e, _ => (s, .error e)
    | none, some _ => (s, .ok false)
    | none, none => (s.putResult place (some []), .ok true)

def appendResult (byte : UInt8) : Op P Unit :=
  await (.writeResult place) fun x s =>
    match x.refused with
    | some e => (s, .error e)
    | none => (s.putResult place ((s.results place).map (· ++ [byte])), .ok ())

def readWorkflowResult : Op P Text :=
  await (.readResult place) fun x s =>
    (s, match x.refused, s.results place with
      | some e, _ => .error e
      | none, none => .error "ENOENT"
      | none, some bytes =>
        if MAX_RESULT_BYTES < bytes.length then .error "workflow result exceeds the supported size"
        else .ok (toUtf16 (P.decode bytes)))

/-- The result is written, or the one that is there is the same. -/
def storeResult (source : Text) : Op P Unit := do
  if ← createResult place then forEach (encode source) (appendResult place)
  else do
    let existing ← readWorkflowResult place
    attempt (ensure (existing = source)
      "existing workflow result differs from the recovered result")

def writeWorkflowResult (output : Text) : Op P Unit := do
  attempt (ensure (trimUnits output ≠ []) "workflow completed without a result")
  attempt (ensure ((encode output).length ≤ MAX_RESULT_BYTES)
    "workflow result exceeds the supported size")
  storeResult place (resultSource output)

/-- The attempt with its result, whatever it was. -/
def Attempt.complete (attempt : Attempt) (place : Place) (checks : List WorkflowCheck)
    (output : Text) (x : Answer P) : Attempt :=
  { attempt with
    status := .completed
    resultPath := some (P.resultPath place.rootPath place.batchId place.attemptId)
    resultPreview := some ((trimUnits output).take 1024)
    checkOutcome := some (evaluate P checks output).1
    failedCheckIndexes := (evaluate P checks output).2
    errorCode := none
    errorMessage := none
    completedAt := some x.now.text
    durationMs := duration P attempt.startedAt x.now.text }

/-- The part of `finish` that completes the attempt. -/
def recordResult (checks : List WorkflowCheck) (output : Text) : Op P Batch := do
  writeWorkflowResult place output
  updateAttempt (.finish place) place id fun x current => current.complete place checks output x

/-- What follows when an attempt has ended. -/
def goOn (threadId : Option String) : Op P Unit := do
  remember fun s => s.forget threadId
  startNext location.batch

def finish (location : AttemptLocation) (output : Text) : Op P Unit := do
  let state ← readWorkflowState location.rootPath
  match state.findBatch location.batchId with
  | none => return ()
  | some batch =>
    match (batch.findAttempt location.attemptId).filter Attempt.isActive with
    | none => return ()
    | some attempt => do
      let _ ← recordResult location.toPlace batch.definitionSnapshot.checks output
      goOn location attempt.threadId

def fail (location : AttemptLocation) (code : String) (message : Text) : Op P Unit := do
  let batch ← updateAttempt (.fail location.toPlace) location.toPlace id
    fun x attempt => attempt.fail code message x
  goOn location ((batch.findAttempt location.attemptId).bind Attempt.threadId)

/-! ## Starting and cancelling -/

def Batch.queuedAttempt (batchId createdAt : String) (index : Nat) : Attempt where
  attemptId := batchId ++ ":" ++ toString (index + 1)
  ordinal := index + 1
  status := .queued
  threadId := none
  turnId := none
  resultPath := none
  resultPreview := none
  checkOutcome := none
  failedCheckIndexes := []
  errorCode := none
  errorMessage := none
  createdAt := createdAt
  startedAt := none
  completedAt := none
  durationMs := none

/-- A new batch. -/
def StartInput.created (input : StartInput) (definition : WorkflowDefinition)
    (batchId createdAt : String) : Batch where
  batchId := batchId
  workflowId := definition.workflowId
  definitionSnapshot := definition
  requestedRuns := input.repetitions
  status := .queued
  attempts := (List.range input.repetitions).map (Batch.queuedAttempt batchId createdAt)
  createdAt := createdAt
  completedAt := none

def createBatch (input : StartInput) : Op P String :=
  mutate (.create input.rootPath) input.rootPath fun x state => do
    let definition ← require (state.definitions.find? (·.workflowId = input.workflowId))
      "workflow definition was not found"
    ensure (isSafeId x.createdId ∧ ¬∃ batch ∈ state.batches, batch.batchId = x.createdId)
      "workflow batch id is invalid or duplicated"
    let created := input.created definition x.createdId x.now.text
    return (some { state with batches := state.batches ++ [created] }, x.createdId)

def startBatch (input : StartInput) : Op P Unit := do
  attempt (ensure (isSafeId input.projectId ∧ isSafeId input.workflowId)
    "workflow start identity is invalid")
  attempt (ensure (1 ≤ input.repetitions ∧ input.repetitions ≤ MAX_ATTEMPTS)
    "workflow repetition count is invalid")
  let batchId ← createBatch input
  startNext ⟨input.projectId, input.rootPath, batchId⟩

/-- The turns that are still live when one was interrupted. -/
def Shared.interrupt (threadId turnId : String) : Shared :=
  { s with live := s.live.filter fun turn => ¬(turn.threadId = threadId ∧ turn.turnId = turnId) }

def interruptTurn (label : Label) (threadId turnId : String) : Op P Unit :=
  await label fun x s =>
    (match x.interrupted with
      | .error _ => s
      | .ok () => s.interrupt threadId turnId, x.interrupted)

/-- What `cancelBatch` claimed: the time, and the thread and the turn to interrupt. -/
structure Cancellation where
  completedAt : String
  turn : Option (String × String)

/-- The turn of the attempt that is active. -/
def Batch.activeTurn (batch : Batch) : Option (String × String) := do
  let active ← batch.attempts.find? Attempt.isActive
  return (← given active.threadId, ← given active.turnId)

def beginCancel (rootPath batchId : String) : Op P Cancellation :=
  mutate (.beginCancel rootPath batchId) rootPath fun x =>
    changeBatch batchId (.error "workflow batch is not active") fun batch => do
      ensure (¬batch.status.isEnded) "workflow batch is not active"
      return (some (batch.beginCancel x.now.text), ⟨x.now.text, batch.activeTurn⟩)

/-- The threads of the attempts that are still active. -/
def Batch.activeThreads (batch : Batch) : List (Option String) :=
  (batch.attempts.filter Attempt.isActive).map Attempt.threadId

def endCancel (rootPath batchId completedAt : String) : Op P Unit := do
  let threads ← mutate (.endCancel rootPath batchId) rootPath fun x =>
    changeBatch batchId (.error "workflow batch no longer exists") fun batch =>
      .ok (some (batch.endCancel P completedAt x.now.text), batch.activeThreads)
  remember fun s => threads.foldl Shared.forget s

def cancelBatch (rootPath batchId : String) : Op P Unit := do
  let cancellation ← beginCancel rootPath batchId
  match cancellation.turn with
  | none => endCancel rootPath batchId cancellation.completedAt
  | some (threadId, turnId) => do
    interruptTurn (.cancelTurn rootPath batchId threadId turnId) threadId turnId
    endCancel rootPath batchId cancellation.completedAt

/-! ## Reports of the runtime -/

/-- The attempt of a thread, if it is in an allowed project. -/
def lookupThread (threadId : String) (allowedRootPath : Option String) :
    Op P (Option AttemptLocation) :=
  await .memory fun _ s =>
    (s, .ok ((s.locationByThread.get? threadId).filter fun location =>
      (given allowedRootPath).all fun allowed => P.resolve location.rootPath = P.resolve allowed))

def readInspectionThread (threadId : String) : Op P (ThreadHistory Text) :=
  await (.readThread threadId) fun x s => (s, x.history)

/-- The text, unless it is `null` or empty. -/
def present (text : Option Text) : Option Text := text.filter (· ≠ [])

/-- The final text of a turn: the one that was reported, or the one in the history. -/
def finalResponse (threadId : String) : Op P (Option Text) := do
  match present (← await .memory fun _ s => (s, .ok (s.responseByThread.get? threadId))) with
  | some response => return some response
  | none => return present (← readInspectionThread threadId).finalResponse

def handleTurnCompleted (threadId : String) : Op P Unit := do
  match ← finalResponse threadId with
  | none => fail location "empty_result" "workflow completed without a final response"
  | some response => finish location response

def handleRuntimeNotification (notification : Notification Text) (allowedRootPath : Option String) :
    Op P Bool := do
  match ← lookupThread notification.threadId allowedRootPath with
  | none => return false
  | some location =>
    match notification.kind, present notification.text with
    | .agentMessage, some text => do
      remember fun s =>
        { s with responseByThread := s.responseByThread.set notification.threadId text }
      return true
    | .turnFailed, _ => do
      fail location "runtime_turn_failed" (notification.text.getD "workflow turn failed")
      return true
    | .turnCompleted, _ => do
      handleTurnCompleted location notification.threadId
      return true
    | _, _ => return true

def respondToApproval : Op P Unit := await .respond fun x s => (s, x.responded)

def handleRuntimeApproval (approval : Approval) (allowedRootPath : Option String) : Op P Bool := do
  match ← lookupThread approval.threadId allowedRootPath with
  | none => return false
  | some location => do
    ignore (if approval.decision.isSome then respondToApproval else pure ())
    ignore (interruptTurn (.interrupt approval.threadId approval.turnId) approval.threadId
      approval.turnId)
    fail location "read_only_boundary_violation"
      "workflow requested an operation that requires approval"
    return true

/-! ## After a restart -/

/-- The end of an attempt as its history tells it. -/
def settle : Except String (ThreadHistory Text) → Op P Unit
  | .error message => fail location "runtime_interrupted" message
  | .ok history =>
    match history.status, present history.finalResponse with
    | .completed, some response => finish location response
    | .failed, _ | .unknown, _ => fail location "runtime_turn_failed"
        ("workflow runtime returned " ++ history.status.text)
    | _, _ => return ()

def reconcileRunning (running : Attempt) : Op P Unit :=
  match given running.threadId with
  | none => fail location "runtime_interrupted" "workflow runtime thread id is unavailable"
  | some threadId => do
    remember fun s => { s with locationByThread := s.locationByThread.set threadId location }
    let history ← (Except.ok <$> readInspectionThread threadId).recover fun e => pure (.error e)
    settle location history

def Batch.findStatus (batch : Batch) (status : AttemptStatus) : Option Attempt :=
  batch.attempts.find? (·.status = status)

def reconcileBatch (projectId rootPath : String) (batch : Batch) : Op P Unit :=
  let location (attempt : Attempt) : AttemptLocation :=
    ⟨⟨rootPath, batch.batchId, attempt.attemptId⟩, projectId⟩
  if batch.status = .cancelling then cancelBatch rootPath batch.batchId
  else match batch.findStatus .starting, batch.findStatus .running with
    | some starting, _ => fail (location starting) "start_outcome_unknown"
        ("workflow runtime acceptance was interrupted; the attempt was not started again " ++
          "to avoid a duplicate")
    | none, none => startNext ⟨projectId, rootPath, batch.batchId⟩
    | none, some running => reconcileRunning (location running) running

def reconcileProject (projectId rootPath : String) : Op P Unit := do
  let state ← readWorkflowState rootPath
  forEach (state.batches.filter (! ·.status.isEnded)) (reconcileBatch projectId rootPath)

/-! ## Calls -/

inductive Call
  | startBatch (input : StartInput)
  | cancelBatch (rootPath batchId : String)
  | notification (notification : Notification Text) (allowedRootPath : Option String)
  | approval (approval : Approval) (allowedRootPath : Option String)
  | reconcile (projectId rootPath : String)
  /-- Not a call of the controller: a turn of the runtime ends on its own. -/
  | turnEnds (threadId turnId : String)

/-- The task of a call; what it returns does not matter to the others. -/
def program : Call → Op P Unit
  | .startBatch input => startBatch input
  | .cancelBatch rootPath batchId => cancelBatch rootPath batchId
  | .notification notification allowedRootPath => do
    let _ ← handleRuntimeNotification notification allowedRootPath
    return ()
  | .approval approval allowedRootPath => do
    let _ ← handleRuntimeApproval approval allowedRootPath
    return ()
  | .reconcile projectId rootPath => reconcileProject projectId rootPath
  | .turnEnds threadId turnId => await .turnEnds fun _ s => (s.interrupt threadId turnId, .ok ())

end Orquesta.Workflow
