import Orquesta.Contract.Values
import Orquesta.Library.Digraph
import Orquesta.Library.OrderedMap
import Orquesta.Library.Utf16

/-!
# The state of the execution kernel

The tasks of the execution kernel and the functions that do not look at events:
`reconcileTasks` takes over task definitions, `refreshEligibility` says which tasks may
start, `selectDispatches` chooses among them and `claimDispatch` takes one.

A name is a text that is not blank and has no white space at its ends, as `nonempty`
returns it, and a time is one that a `Date` can hold; so the checks that the source repeats
on values it has stored cannot fail here.  A task is found under its own name, which is
therefore no field of its record.  The tasks stand in the order in which they were added, where
an object of JavaScript has the names that are array indices first.

`Platform` stands for what the kernel takes from Node: the digest, the collation of
`localeCompare` and the reading of dates.

## Main definitions

* `KernelState`, `TaskRecord`, `TaskState`
* `refreshEligibility`, `reconcileTasks`, `selectDispatches`, `claimDispatch`
* `plainPlatform`: for examples
-/

namespace Orquesta.ExecutionKernel

open Checked Contract List

/-! ## Values -/

/-- What is thrown. -/
inductive Thrown
  | typeError (message : String)
  | rangeError (message : String)
  | error (message : String)
deriving DecidableEq

/-- A text as `nonempty` returns it. -/
@[ext] structure Name where
  text : String
  trimmed : trim text = text
  nonblank : text ≠ ""
deriving DecidableEq

def nonempty (value field : String) : Except Thrown Name :=
  if h : trim value ≠ "" then .ok ⟨trim value, trim_trim value, h⟩
  else .error (.typeError (field ++ " must be a non-empty string"))

variable {s t u : String}

theorem trim_ne_empty {c : Char} (hmem : c ∈ s.toList) (hc : isWhiteSpace c = false) :
    trim s ≠ "" := by
  intro hem
  have hnil := toList_trim s
  rw [hem, String.toList_empty, eq_comm, rdropWhile_eq_nil_iff] at hnil
  -- The character is dropped at the front or at the back, and it is not white space.
  rw [← takeWhile_append_dropWhile (p := isWhiteSpace) (l := s.toList), mem_append] at hmem
  rcases hmem with hmem | hmem
  · rw [mem_takeWhile_imp hmem] at hc
    cases hc
  · rw [hnil c hmem] at hc
    cases hc

/-- What follows is kept if it neither starts nor ends with white space. -/
theorem toList_trim_append (s : String) (hne : t.toList ≠ [])
    (hfst : isWhiteSpace (t.toList.head hne) = false)
    (hls : isWhiteSpace (t.toList.getLast hne) = false) :
    (trim (s ++ t)).toList = s.toList.dropWhile isWhiteSpace ++ t.toList := by
  have hdrop : (s ++ t).toList.dropWhile isWhiteSpace = s.toList.dropWhile isWhiteSpace ++
      t.toList := by
    rw [String.toList_append, dropWhile_append]
    split
    · rename_i hem
      rw [isEmpty_iff.mp hem, nil_append, dropWhile_eq_self_iff]
      intro hpos
      rw [← head_eq_getElem_zero hne, hfst]
      exact Bool.false_ne_true
    · rfl
  rw [toList_trim, hdrop, rdropWhile_eq_self_iff]
  intro hne'
  rw [getLast_append_of_ne_nil _ hne, hls]
  exact Bool.false_ne_true

theorem append_cancel_left (h : s ++ t = s ++ u) : t = u := by
  have hlst := congrArg String.toList h
  rw [String.toList_append, String.toList_append, append_right_inj] at hlst
  exact String.toList_injective hlst

/-- Texts that differ after a common part differ after trimming. -/
theorem trim_append_ne (s : String) (hne : t.toList ≠ []) (hne' : u.toList ≠ [])
    (ht : isWhiteSpace (t.toList.head hne) = false ∧ isWhiteSpace (t.toList.getLast hne) = false)
    (hu : isWhiteSpace (u.toList.head hne') = false ∧ isWhiteSpace (u.toList.getLast hne') = false)
    (h : t ≠ u) : trim (s ++ t) ≠ trim (s ++ u) := by
  intro heq
  have hlst := congrArg String.toList heq
  rw [toList_trim_append s hne ht.1 ht.2, toList_trim_append s hne' hu.1 hu.2] at hlst
  exact h (String.toList_injective (List.append_cancel_left hlst))

/-- The milliseconds a `Date` can hold. -/
def MAX_TIME : Nat := 8640000000000000

/-- A time, in milliseconds. -/
structure Time where
  ms : Int
  inRange : ms.natAbs ≤ MAX_TIME
deriving DecidableEq

instance : LT Time := ⟨fun s t => s.ms < t.ms⟩
instance : LE Time := ⟨fun s t => s.ms ≤ t.ms⟩
instance (s t : Time) : Decidable (s ≤ t) := inferInstanceAs (Decidable (s.ms ≤ t.ms))

def epoch : Time := ⟨0, by decide⟩

theorem Time.not_le {s t : Time} : ¬ s ≤ t ↔ t < s := Int.not_le

/-- `new Date(ms).toISOString()`. -/
def toISOString (ms : Option Int) : Except Thrown Time :=
  match ms with
  | none => .error (.rangeError "Invalid time value")
  | some ms =>
    if h : ms.natAbs ≤ MAX_TIME then .ok ⟨ms, h⟩ else .error (.rangeError "Invalid time value")

/-- `sort()`: by code units. -/
def sortNames (names : List Name) : List Name :=
  names.insertionSort fun a b => utf16CodeUnits a.text ≤ utf16CodeUnits b.text

/-- `uniqueStrings`, for names. -/
def uniqueNames (names : List Name) : List Name := sortNames names.dedup

@[simp] theorem mem_uniqueNames {ns : List Name} {n : Name} : n ∈ uniqueNames ns ↔ n ∈ ns := by
  rw [uniqueNames, sortNames, mem_insertionSort, mem_dedup]

/-- A value after a round trip through JSON.  Among the values that are not texts only their
truth matters. -/
inductive Field
  | absent
  | text (s : String)
  | other (value : Json Int)

def Field.truthy : Field → Bool
  | .absent => false
  | .text s => s ≠ ""
  | .other (.bool b) => b
  | .other (.num n) => n ≠ 0
  | .other _ => true

/-- A value an adapter returns: one that JSON can hold, one that it drops or writes as `null`
although it is true (a function, a symbol, an infinity), and one it cannot write at all. -/
inductive JsValue
  | json (field : Field)
  | dropped | unserializable

def JsValue.truthy : JsValue → Bool
  | .json field => field.truthy
  | .dropped | .unserializable => true

/-- `JSON.parse(JSON.stringify(value))`. -/
def JsValue.clone : JsValue → Except Thrown Field
  | .json field => .ok field
  | .dropped => .ok .absent
  | .unserializable => .error (.typeError "value cannot be serialized")

/-- What the kernel takes from Node.  `dateOf` is the time of `new Date(value)`, `isoString` the
text of a time. -/
structure Platform where
  sha256Hex : String → String
  localeCompare : String → String → Int
  parseDate : String → Option Int
  dateOf : JsValue → Option Int
  isoString : Time → String

/-! ## Tasks -/

inductive TaskState
  | pending | eligible | claimed | dispatching | running | waitingForUser | waitingForDependency
  | retryQueued | verifying | accepted | failed | cancelled
deriving DecidableEq

def TaskState.text : TaskState → String
  | .pending => "pending"
  | .eligible => "eligible"
  | .claimed => "claimed"
  | .dispatching => "dispatching"
  | .running => "running"
  | .waitingForUser => "waiting_for_user"
  | .waitingForDependency => "waiting_for_dependency"
  | .retryQueued => "retry_queued"
  | .verifying => "verifying"
  | .accepted => "accepted"
  | .failed => "failed"
  | .cancelled => "cancelled"

/-- `ACTIVE_STATES`. -/
def TaskState.isActive : TaskState → Bool
  | .claimed | .dispatching | .running => true
  | _ => false

/-- The states of a task whose dispatch is live. -/
def TaskState.isLive (state : TaskState) : Bool := state.isActive || state = .waitingForUser

/-- `TERMINAL_STATES`. -/
def TaskState.isTerminal : TaskState → Bool
  | .accepted | .failed | .cancelled => true
  | _ => false

structure TaskRecord where
  dependencies : List Name
  priority : Option ℕ+
  createdAt : Option Time
  executionRevision : ℕ+
  cycleId : Name
  executionKey : String
  state : TaskState
  blockerReason : Option String
  attempt : Nat
  dispatchId : Option String
  (correlationId threadId turnId : Option Name)
  retryAt : Option Time
  (lastError actualModel actualModelEvidenceRef : Option Name)
  (modelEvidence runtimeProfile : Field)
  runtimeStatus : Option Name
  (claimedAt dispatchAcceptedAt turnStartedAt lastProgressAt finishedAt : Option Time)

inductive EventType
  | dispatchAccepted | turnStarted | progressObserved | modelObserved | runtimeErrorObserved
  | userInputRequired | userInputResolved | turnCompleted | verificationAccepted | attemptFailed
  | retryDue | taskCancelled | taskFailed

/-- `eventForLog`. -/
structure LoggedEvent where
  eventId : Name
  type : EventType
  taskId : Name
  dispatchId : Option String
  (correlationId threadId turnId : Field)
  observedAt : Option Time

structure KernelState where
  revision : Nat
  maxConcurrent : ℕ+
  tasks : OrderedMap Name TaskRecord
  appliedEventIds : List Name
  recentEvents : List LoggedEvent
  updatedAt : Option Time

def createKernelState (maxConcurrent : ℕ+) (updatedAt : Option Time) : KernelState where
  revision := 0
  maxConcurrent := maxConcurrent
  tasks := .empty
  appliedEventIds := []
  recentEvents := []
  updatedAt := updatedAt

/-- `normalizeState`; of what it does to a state that is one already, the order of the event
ids is left. -/
def normalizeState (state : KernelState) : KernelState :=
  { state with appliedEventIds := uniqueNames state.appliedEventIds }

/-! ## Identities -/

variable (P : Platform)

def stableHash (tag : String) (parts : List String) : String :=
  tag ++ "-" ++ String.ofList ((P.sha256Hex (String.intercalate "\x00" parts)).toList.take 16)

variable (definition : TaskDefinition) (state : KernelState) (taskId : Name) (record : TaskRecord)
  (now : Option Time)

def executionKeyFor (executionRevision : ℕ+) (cycleId : Name) : String :=
  stableHash P "E" [taskId.text, toString executionRevision.val, cycleId.text]

def dispatchIdFor (executionRevision : ℕ+) (cycleId : Name) (attempt : Nat) : String :=
  stableHash P "D" [executionKeyFor P taskId executionRevision cycleId, toString attempt]

/-! ## Eligibility -/

/-- The names every object has: `state.tasks[name]` is never undefined for them. -/
def objectPrototypeNames : List String :=
  ["constructor", "__defineGetter__", "__defineSetter__", "hasOwnProperty", "__lookupGetter__",
    "__lookupSetter__", "isPrototypeOf", "propertyIsEnumerable", "toString", "valueOf", "__proto__",
    "toLocaleString"]

def isInherited (id : Name) : Bool := id.text ∈ objectPrototypeNames

structure DependencyStatus where
  (missing unresolved terminalBlockers : List Name)

def dependencyStatus (tasks : OrderedMap Name TaskRecord) (record : TaskRecord) :
    DependencyStatus where
  missing := record.dependencies.filter fun id => (tasks.get? id).isNone && !isInherited id
  unresolved := record.dependencies.filter fun id =>
    match tasks.get? id with
    | none => isInherited id
    | some dependency => !dependency.state.isTerminal
  terminalBlockers := record.dependencies.filter fun id =>
    match tasks.get? id with
    | none => false
    | some dependency => dependency.state = .failed || dependency.state = .cancelled

def DependencyStatus.desired (status : DependencyStatus) : TaskState :=
  if status.missing ≠ [] ∨ status.unresolved ≠ [] ∨ status.terminalBlockers ≠ [] then
    .waitingForDependency
  else .eligible

def DependencyStatus.blockerReason (status : DependencyStatus) : Option String :=
  if status.terminalBlockers ≠ [] then some "dependency_terminal_without_acceptance"
  else if status.missing ≠ [] then some "dependency_missing"
  else if status.unresolved ≠ [] then some "dependency_incomplete"
  else none

/-- The retry of the task is due. -/
def TaskRecord.isDue : Bool :=
  match record.retryAt, now with
  | some retryAt, some now => retryAt ≤ now
  | _, _ => false

/-- The loop of `refreshEligibility` leaves the record alone. -/
def TaskRecord.isLeftAlone : Bool :=
  record.state.isTerminal || record.state.isActive || record.state = .verifying ||
    record.state = .waitingForUser || (record.state = .retryQueued && !record.isDue now)

/-- The body of the loop of `refreshEligibility`.  It changes no finished task into another, and
only these decide about the tasks that depend on them; so the order of the loop is of no
account. -/
def refreshRecord (tasks : OrderedMap Name TaskRecord) (now : Option Time) (record : TaskRecord) :
    TaskRecord :=
  if record.isLeftAlone now then record
  else
    { record with
      retryAt := if record.state = .retryQueued then none else record.retryAt
      state := (dependencyStatus tasks record).desired
      blockerReason := (dependencyStatus tasks record).blockerReason }

def refreshEligibility : KernelState :=
  let refreshed := { state with tasks := state.tasks.mapValues (refreshRecord state.tasks now) }
  if state.tasks.values.any fun record =>
      (refreshRecord state.tasks now record).state ≠ record.state ||
        (refreshRecord state.tasks now record).blockerReason ≠ record.blockerReason then
    { refreshed with revision := state.revision + 1, updatedAt := now <|> state.updatedAt }
  else refreshed

/-! ## Task definitions -/

/-- A task definition as it is given, with the defaults of the source. -/
structure TaskInput where
  taskId : String
  dependencies : List String := []
  priority : Option Int := none
  createdAt : Option String := none
  executionRevision : Int := 1
  cycleId : String := "implementation-1"
  state : TaskState := .pending

structure TaskDefinition where
  taskId : Name
  dependencies : List Name
  priority : Option ℕ+
  createdAt : Option Time
  executionRevision : ℕ+
  cycleId : Name
  initialState : TaskState

def positiveInteger (value : Int) (field : String) : Except Thrown ℕ+ :=
  if h : 0 < value.toNat then .ok ⟨value.toNat, h⟩
  else .error (.typeError (field ++ " must be a positive integer"))

def timestamp (value : Option String) (field : String) : Except Thrown (Option Time) :=
  match value with
  | none | some "" => .ok none
  | some text =>
    match P.parseDate text with
    | none => .error (.typeError (field ++ " must be an ISO timestamp"))
    | some ms => some <$> toISOString (some ms)

def uniqueStrings (values : List String) (field : String) : Except Thrown (List Name) := do
  let names ← values.zipIdx.mapM fun (value, index) =>
    nonempty value (field ++ "[" ++ toString index ++ "]")
  return uniqueNames names

def normalizeTaskDefinition (value : TaskInput) : Except Thrown TaskDefinition := do
  let taskId ← nonempty value.taskId "task.task_id"
  let executionRevision ← positiveInteger value.executionRevision "task.execution_revision"
  let cycleId ← nonempty value.cycleId "task.cycle_id"
  let priority ← value.priority.mapM fun n =>
    positiveInteger n ("task " ++ taskId.text ++ ".priority")
  let dependencies ← uniqueStrings value.dependencies ("task " ++ taskId.text ++ ".dependencies")
  let createdAt ← timestamp P value.createdAt ("task " ++ taskId.text ++ ".created_at")
  return ⟨taskId, dependencies, priority, createdAt, executionRevision, cycleId, value.state⟩

def TaskDefinition.executionKey : String :=
  executionKeyFor P definition.taskId definition.executionRevision definition.cycleId

/-- The dependencies in the definitions; of two definitions of one task the later counts. -/
def dependenciesIn (definitions : List TaskDefinition) (id : Name) : List Name :=
  ((definitions.reverse.find? (·.taskId = id)).map (·.dependencies)).getD []

def assertAcyclic (definitions : List TaskDefinition) : Except Thrown Unit := do
  let nodes := definitions.map (·.taskId) ++ definitions.flatMap (·.dependencies)
  let _ ← (Digraph.visitAll (dependenciesIn definitions) (nodes.length + 1) nodes).mapError
    fun trail => .error ("dependency_cycle:" ++ "->".intercalate (trail.map Name.text))
  return ()

/-- The record of a task that is new. -/
def newRecord : TaskRecord where
  dependencies := definition.dependencies
  priority := definition.priority
  createdAt := definition.createdAt
  executionRevision := definition.executionRevision
  cycleId := definition.cycleId
  executionKey := definition.executionKey P
  state := definition.initialState
  blockerReason := none
  attempt := 0
  dispatchId := none
  correlationId := none
  threadId := none
  turnId := none
  retryAt := none
  lastError := none
  actualModel := none
  actualModelEvidenceRef := none
  modelEvidence := .absent
  runtimeProfile := .absent
  runtimeStatus := none
  claimedAt := none
  dispatchAcceptedAt := none
  turnStartedAt := none
  lastProgressAt := none
  finishedAt := if definition.initialState.isTerminal then now else none

/-- What the loop of `reconcileTasks` has done so far. -/
structure Reconciling where
  tasks : OrderedMap Name TaskRecord
  seen : List Name
  changed : Bool

def identityChanged (id : Name) : Thrown := .error ("active_execution_identity_changed:" ++ id.text)

/-- The body of the loop of `reconcileTasks`. -/
def reconcileTask (acc : Reconciling) (definition : TaskDefinition) :
    Except Thrown Reconciling := do
  ensure (definition.taskId ∉ acc.seen) (.error ("duplicate_task:" ++ definition.taskId.text))
  let seen := definition.taskId :: acc.seen
  match acc.tasks.get? definition.taskId with
  | none =>
    -- What every object inherits passes for a task that is being executed.
    ensure (!isInherited definition.taskId) (identityChanged definition.taskId)
    return ⟨acc.tasks.set definition.taskId (newRecord P definition now), seen, true⟩
  | some current =>
    ensure (current.executionKey = definition.executionKey P ∨ current.state.isTerminal)
      (identityChanged definition.taskId)
    if current.dependencies = definition.dependencies ∧ current.priority = definition.priority ∧
        current.createdAt = definition.createdAt then
      return { acc with seen }
    else
      return ⟨acc.tasks.set definition.taskId { current with
          dependencies := definition.dependencies
          priority := definition.priority
          createdAt := definition.createdAt }, seen, true⟩

def reconcileTasks (inputs : List TaskInput) (now : Option Time) :
    Except Thrown KernelState := do
  let state := normalizeState state
  let definitions ← inputs.mapM (normalizeTaskDefinition P)
  assertAcyclic definitions
  let acc ← runAll (reconcileTask P now) ⟨state.tasks, [], false⟩ definitions
  let reconciled := { state with tasks := acc.tasks }
  if acc.changed then
    return refreshEligibility
      { reconciled with revision := state.revision + 1, updatedAt := now <|> state.updatedAt } now
  else return refreshEligibility reconciled now

/-! ## Dispatches -/

def activeCount : Nat := state.tasks.values.countP (·.state.isActive)

def MAX_SAFE_INTEGER : Int := 9007199254740991

/-- `candidateCompare left right ≤ 0`. -/
def comesFirst (left right : Name × TaskRecord) : Bool :=
  let priority (record : TaskRecord) : Int :=
    (record.priority.map fun n => (n.val : Int)).getD MAX_SAFE_INTEGER
  let created (record : TaskRecord) : Int := (record.createdAt.map (·.ms)).getD MAX_SAFE_INTEGER
  if priority left.2 ≠ priority right.2 then priority left.2 ≤ priority right.2
  else if created left.2 ≠ created right.2 then created left.2 ≤ created right.2
  else P.localeCompare left.1.text right.1.text ≤ 0

structure Candidate where
  taskId : Name
  executionKey : String
  nextAttempt : Nat

structure Selection where
  state : KernelState
  dispatches : List Candidate
  availableSlots : Nat

def selectDispatches (limit : Rat) :
    Except Thrown Selection := do
  ensure (limit.den = 1 ∧ 0 ≤ limit.num) (.typeError "limit must be a non-negative integer")
  let state := refreshEligibility (normalizeState state) now
  let slots := min (state.maxConcurrent - activeCount state) limit.num.toNat
  let eligible := state.tasks.entries.filter fun entry => entry.2.state = .eligible
  return {
    state
    dispatches := ((eligible.insertionSort (comesFirst P · ·)).take slots).map fun (id, record) =>
      ⟨id, record.executionKey, record.attempt + 1⟩
    availableSlots := slots }

structure Dispatch where
  taskId : Name
  (executionKey dispatchId : String)
  attempt : Nat
deriving DecidableEq

/-- A claim: the task is taken now, or it was taken before. -/
inductive Claim
  | claimed (dispatch : Dispatch)
  | alreadyActive (taskId : Name) (executionKey : String) (dispatchId : Option String)
      (attempt : Nat)

/-- The record of a task that is claimed. -/
def claimRecord : TaskRecord :=
  { record with
    attempt := record.attempt + 1
    dispatchId := some (dispatchIdFor P taskId record.executionRevision record.cycleId
      (record.attempt + 1))
    state := .claimed
    claimedAt := now
    dispatchAcceptedAt := none
    turnStartedAt := none
    lastProgressAt := none
    lastError := none
    correlationId := none
    threadId := none
    turnId := none
    actualModel := none
    actualModelEvidenceRef := none
    modelEvidence := .absent
    runtimeProfile := .absent
    runtimeStatus := none
    blockerReason := none }

def claimDispatch : Except Thrown (KernelState × Claim) := do
  let state := refreshEligibility (normalizeState state) now
  let task ← require (state.tasks.get? taskId) (.error ("task_not_found:" ++ taskId.text))
  if task.state.isActive then
    return (state, .alreadyActive taskId task.executionKey task.dispatchId task.attempt)
  else
    ensure (task.state = .eligible)
      (.error ("task_not_eligible:" ++ taskId.text ++ ":" ++ task.state.text))
    ensure (activeCount state < state.maxConcurrent) (.error "no_available_slots")
    let claimed := claimRecord P taskId task now
    return ({ state with
        tasks := state.tasks.set taskId claimed
        revision := state.revision + 1
        updatedAt := now <|> state.updatedAt },
      .claimed ⟨taskId, task.executionKey,
        dispatchIdFor P taskId task.executionRevision task.cycleId
        (task.attempt + 1), task.attempt + 1⟩)

/-! ## A platform for examples -/

def later : Time := ⟨11000, by decide⟩

/-- The digest of a text are the digits and capital letters in it, and two times can be written. -/
def plainPlatform : Platform where
  sha256Hex text := String.ofList (text.toList.filter fun c => c.isDigit || c.isUpper)
  localeCompare a b := if a < b then -1 else if a = b then 0 else 1
  parseDate
    | "1970-01-01T00:00:00.000Z" => some 0
    | "1970-01-01T00:00:11.000Z" => some 11000
    | _ => none
  dateOf
    | .json (.text "1970-01-01T00:00:00.000Z") => some 0
    | .json (.text "1970-01-01T00:00:11.000Z") => some 11000
    | _ => none
  isoString time :=
    if time = later then "1970-01-01T00:00:11.000Z" else "1970-01-01T00:00:00.000Z"

def firstTask : Name := ⟨"T-1", by decide, by decide⟩

def secondTask : Name := ⟨"T-2", by decide, by decide⟩

end Orquesta.ExecutionKernel
