import Orquesta.Contract.Values
import Orquesta.Library.Rows
import Orquesta.RunRuntime

/-!
# Workflow batches

A batch runs a workflow several times, one attempt after another.  The project keeps a record of
each batch with its attempts, and the result of an attempt that succeeded in a file of its own.

What the runtime returns is a `Text`, whose surrogates need not be paired; so are the preview of a
result and an error message, which may be a part of it.

## Main definitions

* `Attempt`, `Batch`, `WorkflowState`, `parseWorkflowState`
* `resultSource`, `encode`: a result as it is written
* `evaluate`: which checks a result fails
* `terminalBatch`: the batch, ended if all its attempts are
* `Batch.claim`, `Batch.update`, `Batch.beginCancel`, `Batch.endCancel`: the changes of a batch
* `plainPlatform`, `plainDefinition`: for examples
-/

namespace Orquesta.Workflow

open Checked Contract RunRuntime

/-! ## Records -/

inductive CheckKind
  | contains | notContains

structure WorkflowCheck where
  kind : CheckKind
  text : String
  caseSensitive : Bool

structure WorkflowDefinition where
  (workflowId name prompt : String)
  checks : List WorkflowCheck
  (createdAt updatedAt : String)

inductive AttemptStatus
  | queued | starting | running | completed | failed | cancelled
deriving DecidableEq

inductive CheckOutcome
  | passed | failed | unassessed

structure Attempt where
  attemptId : String
  ordinal : Nat
  status : AttemptStatus
  (threadId turnId resultPath : Option String)
  resultPreview : Option Text
  checkOutcome : Option CheckOutcome
  failedCheckIndexes : List Nat
  errorCode : Option String
  errorMessage : Option Text
  createdAt : String
  (startedAt completedAt : Option String)
  durationMs : Option Nat

/-- `ACTIVE_ATTEMPTS.has(attempt.status)`. -/
def Attempt.isActive (attempt : Attempt) : Bool := attempt.status ∈ [.starting, .running]

def Attempt.isTerminal (attempt : Attempt) : Bool :=
  attempt.status ∈ [.completed, .failed, .cancelled]

inductive BatchStatus
  | queued | running | cancelling | completed | partlyCompleted | failed | cancelled
deriving DecidableEq

def BatchStatus.isEnded (status : BatchStatus) : Bool :=
  status ∈ [.completed, .partlyCompleted, .failed, .cancelled]

structure Batch where
  (batchId workflowId : String)
  definitionSnapshot : WorkflowDefinition
  requestedRuns : Nat
  status : BatchStatus
  attempts : List Attempt
  createdAt : String
  completedAt : Option String

structure WorkflowState where
  definitions : List WorkflowDefinition
  batches : List Batch

def MAX_DEFINITIONS : Nat := 100

def MAX_ATTEMPTS : Nat := 50

def MAX_STATE_BYTES : Nat := 4194304

def MAX_RESULT_BYTES : Nat := 1048576

/-- What the controller takes from Node: dates, lower case, how bytes are read as a text, how long a
state is when it is written, and paths. -/
structure Platform where
  /-- `Number.isFinite(Date.parse(text))`. -/
  isDate : String → Bool
  isDate_epoch : isDate "1970-01-01T00:00:00.000Z"
  /-- The milliseconds from one time to another, and none if it was earlier. -/
  elapsed : String → String → Nat
  /-- `toLocaleLowerCase`. -/
  lowerCase : Text → Text
  decode : Bytes → String
  decode_utf8 : ∀ text, decode (utf8 text) = text
  /-- The bytes of `JSON.stringify(state, null, 2)` and a line end. -/
  stateBytes : WorkflowState → Nat
  /-- `path.resolve`. -/
  resolve : String → String
  /-- `workflowResultPath`. -/
  resultPath : String → String → String → String
  resultPath_short : ∀ rootPath batchId attemptId,
    utf16Length (resultPath rootPath batchId attemptId) ≤ 32768

variable (P : Platform)

abbrev Answer := RunRuntime.Answer P.isDate Text

/-! ## What can be stored -/

def isCheck (check : WorkflowCheck) : Bool := trim check.text ≠ "" && utf16Length check.text ≤ 1024

def isDefinition (definition : WorkflowDefinition) : Bool :=
  isSafeId definition.workflowId && trim definition.name ≠ "" &&
    utf16Length definition.name ≤ 256 &&
    trim definition.prompt ≠ "" && utf16Length definition.prompt ≤ 65536 &&
    definition.checks.length ≤ 16 && definition.checks.all isCheck &&
      P.isDate definition.createdAt &&
    P.isDate definition.updatedAt

def isAttempt (attempt : Attempt) : Bool :=
  isSafeId attempt.attemptId && 1 ≤ attempt.ordinal && attempt.ordinal ≤ MAX_ATTEMPTS &&
    isNullableText attempt.threadId 128 && isNullableText attempt.turnId 128 &&
    isNullableText attempt.resultPath 32768 && attempt.resultPreview.all (·.length ≤ 1024) &&
    attempt.failedCheckIndexes.length ≤ 16 && attempt.failedCheckIndexes.all (· < 16) &&
    isNullableText attempt.errorCode 128 && attempt.errorMessage.all (·.length ≤ 4096) &&
    P.isDate attempt.createdAt && attempt.startedAt.all P.isDate && attempt.completedAt.all P.isDate

variable (batch : Batch)

/-- What is checked of a batch apart from its attempts. -/
def isBatchFrame : Bool :=
  isSafeId batch.batchId && isSafeId batch.workflowId && isDefinition P batch.definitionSnapshot &&
    1 ≤ batch.requestedRuns && batch.requestedRuns ≤ MAX_ATTEMPTS && P.isDate batch.createdAt &&
    batch.completedAt.all P.isDate && batch.workflowId = batch.definitionSnapshot.workflowId

def isBatch : Bool :=
  isBatchFrame P batch && batch.attempts.length = batch.requestedRuns &&
    batch.attempts.all (isAttempt P) && (batch.attempts.map Attempt.attemptId).Nodup &&
    (batch.attempts.map Attempt.ordinal).Nodup

/-- `parseWorkflowState`, of a state with the right shape. -/
def parseWorkflowState (state : WorkflowState) : Except String Unit := do
  ensure (state.definitions.length ≤ MAX_DEFINITIONS ∧ state.definitions.all (isDefinition P) ∧
    state.batches.all (isBatch P)) "workflow state has an invalid versioned shape"
  ensure (state.definitions.map WorkflowDefinition.workflowId).Nodup
    "workflow state contains duplicate definition ids"
  ensure (state.batches.map Batch.batchId).Nodup "workflow state contains duplicate batch ids"

/-! ## Results -/

/-- `trim`; no white space has a surrogate. -/
def trimUnits (text : Text) : Text :=
  let isSpace (u : UInt16) := isWhiteSpace (Char.ofNat u.toNat)
  (text.dropWhile isSpace).rdropWhile isSpace

/-- The bytes with which a text is written. -/
def encode (text : Text) : Bytes := utf8 (toWellFormed text)

/-- The check is not met by the output. -/
def WorkflowCheck.fails (check : WorkflowCheck) (output : Text) : Bool :=
  let found := if check.caseSensitive then includes output (toUtf16 check.text)
    else includes (P.lowerCase output) (P.lowerCase check.text)
  match check.kind with
  | .contains => !found
  | .notContains => found

def failedChecks (checks : List WorkflowCheck) (output : Text) : List Nat :=
  (checks.zipIdx.filter fun entry => entry.1.fails P output).map (·.2)

def evaluate (checks : List WorkflowCheck) (output : Text) : CheckOutcome × List Nat :=
  if checks.length = 0 then (.unassessed, [])
  else if failedChecks P checks output = [] then (.passed, [])
  else (.failed, failedChecks P checks output)

/-- The result with a line end. -/
def resultSource (output : Text) : Text :=
  if output.getLast? = some 10 then output else output ++ [10]

/-! ## Changes of a batch -/

variable {P}

def terminalBatch (now : String) : Batch :=
  if batch.attempts.any (! ·.isTerminal) then batch
  else
    let completed := batch.attempts.countP (·.status = .completed)
    let failed := batch.attempts.countP (·.status = .failed)
    let status : BatchStatus :=
      if batch.status = .cancelling ∨ completed = 0 ∧ failed = 0 then .cancelled
      else if completed = batch.attempts.length then .completed
      else if completed = 0 then .failed
      else .partlyCompleted
    { batch with status := status, completedAt := some now }

/-- The batch with another record of the attempt. -/
def Batch.replaceAttempt (attemptId : String) (next : Attempt) : Batch :=
  { batch with attempts := Rows.replace Attempt.attemptId attemptId next batch.attempts }

def Batch.findAttempt (attemptId : String) : Option Attempt :=
  Rows.find Attempt.attemptId attemptId batch.attempts

/-- The next attempt is claimed, if there is one and none is active. -/
def Batch.claim (now : String) : Option (Batch × String) :=
  if batch.status = .cancelling ∨ batch.status.isEnded ∨
    batch.attempts.any Attempt.isActive then none
  else (batch.attempts.find? (·.status = .queued)).map fun queued =>
    (batch.replaceAttempt queued.attemptId
      { queued with status := .starting, startedAt := some now }, queued.attemptId)

/-- The change that `updateAttempt` makes. -/
def Batch.update (batch : Batch) (attemptId : String) (status : BatchStatus → BatchStatus)
    (update : Attempt → Attempt) (now : String) : Except String Batch :=
  match batch.findAttempt attemptId with
  | none => .error "workflow attempt no longer exists"
  | some attempt =>
    .ok (terminalBatch ({ batch with status := status batch.status }.replaceAttempt attemptId
      (update attempt)) now)

/-- The first change of `cancelBatch`: what has no turn yet is cancelled. -/
def Batch.beginCancel (completedAt : String) : Batch :=
  { batch with
    status := .cancelling
    attempts := batch.attempts.map fun attempt =>
      if attempt.status = .queued ∨ attempt.status = .starting then
        { attempt with status := .cancelled, completedAt := some completedAt }
      else attempt }

variable (P) in
/-- `duration`. -/
def duration (startedAt : Option String) (now : String) : Option Nat :=
  (given startedAt).map fun started => P.elapsed started now

variable (P) in
/-- The last change of `cancelBatch`: whatever is still active is cancelled. -/
def Batch.endCancel (completedAt now : String) : Batch :=
  { batch with
    status := .cancelled
    completedAt := some completedAt
    attempts := batch.attempts.map fun attempt =>
      if attempt.isActive then
        { attempt with
          status := .cancelled
          completedAt := some completedAt
          durationMs := duration P attempt.startedAt now }
      else attempt }

/-! ## For examples -/

/-- A platform whose dates are those that `toISOString` writes, and on which a record takes a
kilobyte. -/
def plainPlatform : Platform where
  isDate := isIsoTime
  isDate_epoch := by decide
  elapsed _ _ := 0
  lowerCase := id
  decode := decodeUtf8
  decode_utf8 := decodeUtf8_utf8
  stateBytes state := 1024 * (state.definitions.length + (state.batches.map fun batch =>
    1 + batch.attempts.length).sum)
  resolve := id
  resultPath _ _ _ := "/project/results/attempt.md"
  resultPath_short _ _ _ := by decide

def noon : String := "2026-01-01T12:00:00.000Z"

def plainDefinition : WorkflowDefinition := ⟨"workflow", "name", "prompt", [], noon, noon⟩

end Orquesta.Workflow
