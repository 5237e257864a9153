import Mathlib.Data.Rat.Defs
import Orquesta.Contract.Normalize

/-!
# The receipt of a context pack

`reconcileContextReceiptV2` reads what an execution reports about its context pack, decides what
becomes of the task, and moves the control plane of the project.  The outcome is written down as a
branch delta, whose id is a digest of its content.  A delta that was seen before moves nothing.

The content has the time of the observation in it, so a receipt that is delivered twice at two
times gives two deltas (`ResumePlan`).

## Main definitions

* `acceptanceState`, `successfulState`: the decision
* `reconcileContextReceiptV2`

## Main results

* `reconcile_eq_ok`: what a call that succeeds returns
-/

namespace Orquesta.ContextReceipts

open Checked Contract List

/-! ## Values -/

/-- JSON as JavaScript holds it: `undefined` is the number that is none. -/
abbrev Value := Json (Option ℚ)

abbrev undefined : Value := .num none

def get (value : Value) (name : String) : Value :=
  match value with
  | .obj ms => (ms.lookup name).getD undefined
  | _ => undefined

def setMember (name : String) (v : Value) : List (String × Value) → List (String × Value)
  | [] => [(name, v)]
  | m :: ms => if m.1 = name then (name, v) :: ms else m :: setMember name v ms

def set (value : Value) (name : String) (v : Value) : Value :=
  match value with
  | .obj ms => .obj (setMember name v ms)
  | _ => value

def isTruthy : Value → Bool
  | .null | .num none => false
  | .bool b => b
  | .num (some q) => q ≠ 0
  | .str s => s ≠ ""
  | .arr _ | .obj _ => true

def isObject : Value → Bool
  | .obj _ => true
  | _ => false

/-- `===`; two lists or objects that were read apart are never the same. -/
def strictEq : Value → Value → Bool
  | .null, .null => true
  | .bool a, .bool b => a = b
  | .num a, .num b => a = b
  | .str a, .str b => a = b
  | _, _ => false

def isText (v : Value) (s : String) : Bool := strictEq v (.str s)

/-- `Array.isArray(value) ? value : []` -/
def elements : Value → List Value
  | .arr xs => xs
  | _ => []

/-- What JavaScript itself does. -/
structure Platform where
  sha256 : Sha256
  /-- `JSON.stringify` of a number. -/
  number : ℚ → String
  /-- `value > 0` where the value is a text, a list or an object. -/
  coercesPositive : Value → Bool
  /-- `new Date(text).toISOString()`, if the text is a date. -/
  isoString : String → Option String
  /-- `String(value)` -/
  text : Value → String
  localeCompare : String → String → Ordering
  now : String
  /-- Writing a property of a value that is not an object. -/
  assign : Value → String → Value → Option Value
  /-- The properties of a value that is not an object. -/
  spread : Value → List (String × Value)

inductive Failure
  /-- `field must be an object` -/
  | notAnObject (field : String)
  /-- `field must be an ISO timestamp` -/
  | notATimestamp (field : String)
  /-- `field is required` -/
  | missing (field : String)
  /-- `context_receipt_binding_mismatch` -/
  | bindingMismatch | typeError

variable (P : Platform)

def Platform.positive : Value → Bool
  | .null | .num none => false
  | .bool b => b
  | .num (some q) => 0 < q
  | v => P.coercesPositive v

def Platform.write (value : Value) (name : String) (v : Value) : Except Failure Value :=
  if isObject value then .ok (set value name v) else require (P.assign value name v) .typeError

def object (value : Value) (field : String) : Except Failure Value := do
  ensure (isObject value) (.notAnObject field)
  return value

def timestamp (value : Value) (field : String) : Except Failure String :=
  match value with
  | .str s => require (P.isoString s) (.notATimestamp field)
  | _ => .error (.notATimestamp field)

/-! ## The decision -/

inductive Transition
  | correctionRequired | needsContext | verificationIncomplete | terminalAccepted
  | continuationReady | waitingForUser | localAccepted
  deriving DecidableEq

def Transition.name : Transition → String
  | .correctionRequired => "correction_required"
  | .needsContext => "needs_context"
  | .verificationIncomplete => "verification_incomplete"
  | .terminalAccepted => "terminal_accepted"
  | .continuationReady => "continuation_ready"
  | .waitingForUser => "waiting_for_user"
  | .localAccepted => "local_accepted"

inductive Attention
  | none | blocker | userAction | terminal
  deriving DecidableEq

def Attention.name : Attention → String
  | .none => "none"
  | .blocker => "blocker"
  | .userAction => "user_action"
  | .terminal => "terminal"

inductive OrchestratorAction
  | reviewCorrection | requestContextExpansion | scheduleCorrection | continueVerification
  | completeWorkstream | scheduleContinuation | requestUserInput | acceptLocalResult

def OrchestratorAction.name : OrchestratorAction → String
  | .reviewCorrection => "review_correction"
  | .requestContextExpansion => "request_context_expansion"
  | .scheduleCorrection => "schedule_correction"
  | .continueVerification => "continue_verification"
  | .completeWorkstream => "complete_workstream"
  | .scheduleContinuation => "schedule_continuation"
  | .requestUserInput => "request_user_input"
  | .acceptLocalResult => "accept_local_result"

structure Decision where
  state : Transition
  attention : Attention
  action : OrchestratorAction
  summary : String

/-- `results.some(({ status }) => status === "failed")`; there is nothing to read from `null`. -/
def someFailed : List Value → Except Failure Bool
  | [] => .ok false
  | .null :: _ | .num none :: _ => .error .typeError
  | e :: es => if isText (get e "status") "failed" then .ok true else someFailed es

def criterionIds (entries : List Value) : List String :=
  entries.filterMap fun e =>
    match get e "criterion_id" with
    | .str s => if trim s = "" then none else some s
    | _ => none

def acceptanceState (receipt pack : Value) : Except Failure (Option Decision) := do
  let results := elements (get receipt "acceptance_results")
  if P.positive (get receipt "incorrect_project_facts") ||
      P.positive (get receipt "user_corrections") then
    return some ⟨.correctionRequired, .blocker, .reviewCorrection,
      "The execution used incorrect project facts or required user correction."⟩
  if !(elements (get receipt "missing_context")).isEmpty then
    return some ⟨.needsContext, .blocker, .requestContextExpansion,
      "The bounded context was insufficient and needs explicit expansion."⟩
  if ← someFailed results then
    return some ⟨.correctionRequired, .blocker, .scheduleCorrection,
      "At least one acceptance criterion failed."⟩
  let expected := (criterionIds (elements (get pack "coverage_matrix"))).eraseDups
  let observed := criterionIds results
  if results.isEmpty || results.any (fun e => !isText (get e "status") "passed") ||
    ¬ observed.Nodup ||
      (!expected.isEmpty && observed.any (· ∉ expected)) || expected.any (· ∉ observed) then
    return some ⟨.verificationIncomplete, .none, .continueVerification,
      "Acceptance evidence is incomplete or does not match the Context Pack criteria."⟩
  return none

def successfulState (envelope : Value) (terminalOutcomeCompleted : Bool) : Decision :=
  if terminalOutcomeCompleted then
    ⟨.terminalAccepted, .terminal, .completeWorkstream, "The terminal outcome is accepted."⟩
  else if isText (get envelope "continue_policy") "continue_until_terminal" then
    ⟨.continuationReady, .none, .scheduleContinuation,
      "The local deliverable passed and the parent workstream should continue."⟩
  else if isText (get envelope "continue_policy") "await_user" then
    ⟨.waitingForUser, .userAction, .requestUserInput,
      "The local deliverable passed and the task is waiting for the user."⟩
  else ⟨.localAccepted, .none, .acceptLocalResult, "The bounded local deliverable is accepted."⟩

/-! ## Reconciling a receipt -/

structure Input where
  (projectControlPlane taskEnvelope contextPack contextReceipt : Value)
  terminalOutcomeCompleted : Bool
  priorBranchDeltaIds : List String
  observedAt : Value

structure Result where
  (branchDelta projectControlPlane : Value)
  (duplicate wakeOrchestrator notifyUser : Bool)
  attention : Attention
  reason : OrchestratorAction

def orElse (value fallback : Value) : Value := if isTruthy value then value else fallback

def deltaContent (i : Input) (decision : Decision) (time : String) : List (String × Value) :=
  [("version", .num (some 2)), ("project_id", get i.projectControlPlane "project_id"),
    ("workstream_id", get i.taskEnvelope "workstream_id"),
    ("task_intent_id", get i.taskEnvelope "task_intent_id"),
    ("task_envelope_id", get i.taskEnvelope "task_envelope_id"),
    ("context_pack_id", get i.contextPack "context_pack_id"),
    ("receipt_id", get i.contextReceipt "receipt_id"), ("transition", .str decision.state.name),
    ("attention", .str decision.attention.name), ("orchestrator_action", .str decision.action.name),
    ("summary", .str decision.summary),
    ("acceptance", .obj [("passed", .bool (decision.state ∈ [.localAccepted, .continuationReady,
      .terminalAccepted, .waitingForUser])),
      ("results", orElse (get i.contextReceipt "acceptance_results") (.arr []))]),
    ("context_observation", .obj [
      ("initial_token_estimate", get i.contextReceipt "initial_token_estimate"),
      ("additional_tokens", get i.contextReceipt "additional_tokens"),
      ("compaction_count", get i.contextReceipt "compaction_count"),
      ("missing_context", orElse (get i.contextReceipt "missing_context") (.arr [])),
      ("user_corrections", get i.contextReceipt "user_corrections"),
      ("incorrect_project_facts", get i.contextReceipt "incorrect_project_facts")]),
    ("observed_at", .str time)]

def canonical (value : Value) : String :=
  value.canonicalJson fun n => (n.map P.number).getD "undefined"

def branchDeltaId (content : List (String × Value)) : String :=
  "BD-" ++ String.ofList ((P.sha256.digest (canonical P (.obj content))).toList.take 16)

/-- `n + 1` for a double that is an integer.  From `2 ^ 53` on the doubles are even, and the sum is
rounded to the neighbour that is divisible by 4. -/
def increment (n : Int) : Int :=
  if -2 ^ 53 ≤ n ∧ n < 2 ^ 53 then n + 1 else if n % 4 = 0 then n else n + 2

def nextRevision : Value → Value
  | .num (some q) => .num (some (if q.den = 1 then increment q.num else 1))
  | _ => .num (some 1)

def refreshWorkstream (i : Input) (decision : Decision) (workstream : Value) :
    Except Failure Value := do
  ensure (workstream matches .obj _ | .arr _ | .str _ | .bool _ | .num (some _)) .typeError
  if strictEq (get workstream "workstream_id") (get i.taskEnvelope "workstream_id") then
    let summary := if i.terminalOutcomeCompleted then "Terminal outcome accepted."
      else decision.summary
    let members := match workstream with
      | .obj ms => ms
      | _ => P.spread workstream
    return .obj (setMember "summary" (.str summary)
      (setMember "state" (.str decision.state.name) members))
  return workstream

def advance (i : Input) (decision : Decision) (time : String) : Except Failure Value := do
  let revision := nextRevision (get i.projectControlPlane "revision")
  let next := set (set i.projectControlPlane "revision" revision) "updated_at" (.str time)
  let active := get next "active_workstream"
  if strictEq (get active "workstream_id") (get i.taskEnvelope "workstream_id") then
    let active ← P.write active "next_decision" (.str decision.action.name)
    let active ← P.write active "current_goal" (if i.terminalOutcomeCompleted then
      .str "Terminal outcome accepted." else get i.taskEnvelope "terminal_outcome")
    return set next "active_workstream" active
  match get next "background_workstreams" with
  | .arr ws =>
    return set next "background_workstreams" (.arr (← ws.mapM (refreshWorkstream P i decision)))
  | _ => return next

def nextControlPlane (i : Input) (decision : Decision) (time : String) (duplicate : Bool) :
    Except Failure Value :=
  if duplicate then .ok i.projectControlPlane else advance P i decision time

/-- `new Set(value || [])` -/
def setOf : Value → Except Failure (List Value)
  | .arr xs => .ok xs
  | .str s => .ok (s.toList.map fun c => .str (String.singleton c))
  | v => if isTruthy v then .error .typeError else .ok []

def reconcileContextReceiptV2 (i : Input) : Except Failure Result := do
  let _ ← object i.projectControlPlane "projectControlPlane"
  let envelope ← object i.taskEnvelope "taskEnvelope"
  let pack ← object i.contextPack "contextPack"
  let receipt ← object i.contextReceipt "contextReceipt"
  let time ← timestamp P (orElse i.observedAt (get receipt "created_at")) "observedAt"
  ensure (strictEq (get receipt "context_pack_id") (get pack "context_pack_id") &&
    strictEq (get receipt "task_intent_id") (get pack "task_intent_id") &&
    strictEq (get pack "task_intent_id") (get envelope "task_intent_id") &&
    strictEq (get pack "task_envelope_id") (get envelope "task_envelope_id")) .bindingMismatch
  let decision := (← acceptanceState P receipt pack).getD
    (successfulState envelope i.terminalOutcomeCompleted)
  let content := deltaContent i decision time
  let id := branchDeltaId P content
  let duplicate : Bool := id ∈ i.priorBranchDeltaIds
  let next ← nextControlPlane P i decision time duplicate
  let notifyOn ← setOf (get (get envelope "notification_policy") "notify_on")
  return {
    branchDelta := .obj (content ++ [("branch_delta_id", .str id)])
    projectControlPlane := next
    duplicate
    wakeOrchestrator := !duplicate && decision.attention ∈ [.blocker, .userAction, .terminal]
    notifyUser := !duplicate && decision.attention ≠ .none &&
      notifyOn.any (isText · decision.attention.name)
    attention := decision.attention
    reason := decision.action }

/-- The decision on a receipt and the time it is observed at. -/
structure Decides (i : Input) (decision : Decision) (time : String) : Prop where
  acceptance : ∃ o, acceptanceState P i.contextReceipt i.contextPack = .ok o ∧
    o.getD (successfulState i.taskEnvelope i.terminalOutcomeCompleted) = decision
  observed : timestamp P (orElse i.observedAt (get i.contextReceipt "created_at")) "observedAt" =
    .ok time

variable {P} {i : Input} {r : Result} {decision : Decision} {time : String}

theorem reconcile_eq_ok (h : reconcileContextReceiptV2 P i = .ok r) : ∃ decision time,
    Decides P i decision time ∧ isObject i.projectControlPlane ∧
    r.branchDelta = .obj (deltaContent i decision time ++
      [("branch_delta_id", .str (branchDeltaId P (deltaContent i decision time)))]) ∧
    r.duplicate = decide (branchDeltaId P (deltaContent i decision time) ∈ i.priorBranchDeltaIds) ∧
    nextControlPlane P i decision time r.duplicate = .ok r.projectControlPlane := by
  simp only [reconcileContextReceiptV2, object, chain_eq_ok] at h
  obtain ⟨-, ⟨hcp, -⟩, -, ⟨-, rfl⟩, -, ⟨-, rfl⟩, -, ⟨-, rfl⟩, time, hti, -, o, ho, next, hnx, -,
    -, rfl⟩ := h
  exact ⟨_, time, ⟨⟨o, ho, rfl⟩, hti⟩, hcp, rfl, rfl, hnx⟩

/-- A control plane that is moved stays one. -/
theorem isObject_nextControlPlane {duplicate : Bool} {next : Value}
    (hobj : isObject i.projectControlPlane)
    (h : nextControlPlane P i decision time duplicate = .ok next) : isObject next := by
  cases duplicate with
  | true =>
    cases h
    exact hobj
  | false =>
    obtain ⟨ms, hms⟩ : ∃ ms, i.projectControlPlane = .obj ms := by
      cases hcp : i.projectControlPlane <;> simp_all [isObject]
    simp only [nextControlPlane, advance, Bool.false_eq_true, if_false, hms] at h
    split at h
    · simp only [chain_eq_ok] at h
      obtain ⟨-, -, active, -, rfl⟩ := h
      rfl
    · split at h
      · simp only [chain_eq_ok] at h
        obtain ⟨ws, -, rfl⟩ := h
        rfl
      · obtain rfl := pure_eq_ok.mp h
        rfl

end Orquesta.ContextReceipts
