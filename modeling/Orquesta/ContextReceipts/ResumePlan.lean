import Orquesta.ContextReceipts.Reconciler
import Orquesta.Library.UtcTimestamp
import Orquesta.Library.Utf16

/-!
# Resuming from branch deltas

`createOrchestratorResumePlan` turns the branch deltas that no earlier plan has consumed into
actions of the orchestrator, the oldest first and at most `maxReceipts` of them.

The reconciler and the plan name the actions by texts, each with its own list.  Two of the
reconciler's texts are not in the plan's list and fall through to `record_result`: a task that is
finished does not close its goal, and one that is not verified is not verified further
(`right_action_iff`).

## Main definitions

* `createOrchestratorResumePlan`
* `FallsShort`, `Covers`: what a receipt says, in terms of its fields

## Main results

* `right_action_iff`: which receipts reach the action meant for their outcome
-/

namespace Orquesta.ContextReceipts

open Checked Contract List Json

/-! ## The plan -/

def uniqueStrings (values : List Value) : List String :=
  (values.filterMap fun
    | .str s => if trim s = "" then none else some (trim s)
    | _ => none).eraseDups.insertionSort fun s t => utf16CodeUnits s ≤ utf16CodeUnits t

inductive PlanAction
  | expandContext | scheduleCorrection | queueUserTask | dispatchContinuation | closeParentGoal
  | scheduleVerification | recordResult

def PlanAction.name : PlanAction → String
  | .expandContext => "expand_context"
  | .scheduleCorrection => "schedule_correction"
  | .queueUserTask => "queue_user_task"
  | .dispatchContinuation => "dispatch_continuation"
  | .closeParentGoal => "close_parent_goal"
  | .scheduleVerification => "schedule_verification"
  | .recordResult => "record_result"

def actionForDelta (delta : Value) : PlanAction :=
  let action := get delta "orchestrator_action"
  if isText action "request_context_expansion" then .expandContext
  else if isText action "schedule_correction" || isText action "review_correction" then
    .scheduleCorrection
  else if isText action "request_user_input" then .queueUserTask
  else if isText action "schedule_continuation" then .dispatchContinuation
  else if isText action "accept_terminal_result" then .closeParentGoal
  else if isText action "verify_local_result" then .scheduleVerification
  else .recordResult

structure Action where
  branchDeltaId : String
  (receiptId workstreamId taskIntentId : Value)
  action : PlanAction
  (transition attention summary : Value)
  evidenceRefs : List Value

structure ResumePacket where
  (projectId controlPlaneRevision activeWorkstream projectGoal acceptedDecisions : Value)
  unresolvedIssues : Value
  actions : List Action

structure Plan where
  wakeReasons : List String
  resumePacket : Option ResumePacket
  nextState : Value

def Plan.actions (p : Plan) : List Action := (p.resumePacket.map ResumePacket.actions).getD []

variable (P : Platform)

/-- The deltas that are not consumed, with their ids. -/
def openDeltas (consumed : List String) (branchDeltas : List Value) : List (String × Value) :=
  branchDeltas.filterMap fun delta =>
    match get delta "branch_delta_id" with
    | .str id => if id ∈ consumed then none else some (id, delta)
    | _ => none

/-- `left` does not come after `right`. -/
def inOrder (left right : String × Value) : Bool :=
  ((P.localeCompare (P.text (get left.2 "observed_at")) (P.text (get right.2 "observed_at"))).then
    (P.localeCompare left.1 right.1)) ≠ .gt

def limit (maxReceipts : Option Int) : Nat := (max 1 (maxReceipts.getD 25)).toNat

theorem limit_pos (lim : Option Int) : 0 < limit lim := by
  simp only [limit]
  omega

def pendingDeltas (consumed : List String) (branchDeltas : List Value) (maxReceipts : Option Int) :
    List (String × Value) :=
  ((openDeltas consumed branchDeltas).insertionSort fun l r => inOrder P l r).take
    (limit maxReceipts)

def planAction (delta : String × Value) : Action where
  branchDeltaId := delta.1
  receiptId := get delta.2 "receipt_id"
  workstreamId := get delta.2 "workstream_id"
  taskIntentId := get delta.2 "task_intent_id"
  action := actionForDelta delta.2
  transition := get delta.2 "transition"
  attention := get delta.2 "attention"
  summary := get delta.2 "summary"
  evidenceRefs := [get delta.2 "receipt_id", .str delta.1]

def consumedIds (orchestrationState : Value) : List String :=
  uniqueStrings (elements (get orchestrationState "consumed_branch_delta_ids"))

/-- `maxReceipts` is none where it is not an integer. -/
def createOrchestratorResumePlan (controlPlane : Value) (branchDeltas : List Value)
    (orchestrationState observedAt : Value) (maxReceipts : Option Int) : Except Failure Plan := do
  ensure (controlPlane matches .obj _ | .arr _) (.missing "projectControlPlane")
  ensure (!(orchestrationState matches .null | .num none)) .typeError
  let consumed := consumedIds orchestrationState
  let actions := (pendingDeltas P consumed branchDeltas maxReceipts).map planAction
  let wakeReasons := uniqueStrings (actions.filterMap fun a =>
    match a.attention with
    | .str s => if s ∈ ["blocker", "user_action", "terminal"] then
        some (.str (s ++ ":" ++ a.action.name)) else none
    | _ => none)
  let packet : ResumePacket := {
    projectId := get controlPlane "project_id"
    controlPlaneRevision := get controlPlane "revision"
    activeWorkstream := get controlPlane "active_workstream"
    projectGoal := orElse (get controlPlane "project_brief") (.obj [])
    acceptedDecisions := orElse (get controlPlane "decision_ledger") (.arr [])
    unresolvedIssues := orElse (get controlPlane "risk_and_approval") (.obj [])
    actions }
  return {
    wakeReasons
    resumePacket := if actions.isEmpty then none else some packet
    nextState := .obj [("version", .num (some 2)), ("project_id", get controlPlane "project_id"),
      ("control_plane_revision", get controlPlane "revision"),
      ("consumed_branch_delta_ids", .arr ((uniqueStrings
        ((consumed ++ actions.map Action.branchDeltaId).map .str)).map .str)),
      ("last_processed_at", orElse observedAt (.str P.now))] }

variable {P}

theorem actions_eq {controlPlane st observedAt : Value} {deltas : List Value} {lim : Option Int}
    {plan : Plan} (h : createOrchestratorResumePlan P controlPlane deltas st observedAt lim =
      .ok plan) :
    plan.actions = (pendingDeltas P (consumedIds st) deltas lim).map planAction := by
  simp only [createOrchestratorResumePlan, chain_eq_ok] at h
  obtain ⟨-, -, rfl⟩ := h
  simp only [Plan.actions]
  split
  · simp_all
  · rfl

/-! ## The action for an outcome -/

/-- The action that is meant for an outcome. -/
def Transition.planned : Transition → PlanAction
  | .terminalAccepted => .closeParentGoal
  | .continuationReady => .dispatchContinuation
  | .waitingForUser => .queueUserTask
  | .correctionRequired => .scheduleCorrection
  | .needsContext => .expandContext
  | .verificationIncomplete => .scheduleVerification
  | .localAccepted => .recordResult

variable {i : Input} {dc : Decision} {t : String} {r : Result}

theorem Decides.outcome (h : Decides P i dc t) : (dc.state, dc.action) ∈
    [(.correctionRequired, .reviewCorrection), (.needsContext, .requestContextExpansion),
      (.correctionRequired, .scheduleCorrection), (.verificationIncomplete, .continueVerification),
      (.terminalAccepted, .completeWorkstream), (.continuationReady, .scheduleContinuation),
      (.waitingForUser, .requestUserInput), (.localAccepted, .acceptLocalResult)] := by
  obtain ⟨o, ho, rfl⟩ := h.acceptance
  cases o with
  | none =>
    simp only [Option.getD_none, successfulState]
    split_ifs <;> simp
  | some d =>
    simp only [acceptanceState, chain_eq_ok, ite_eq_ok, Option.some.injEq, reduceCtorEq, and_false,
      or_false] at ho
    obtain ⟨-, rfl⟩ | ⟨-, ⟨-, rfl⟩ | ⟨-, failed, -, ⟨-, rfl⟩ | ⟨-, -, rfl⟩⟩⟩ := ho <;> simp

theorem planned_iff (h : Decides P i dc t) {delta : Value}
    (hdelta : get delta "orchestrator_action" = .str dc.action.name) :
    actionForDelta delta = dc.state.planned ↔
      dc.state ≠ .terminalAccepted ∧ dc.state ≠ .verificationIncomplete := by
  have hout := h.outcome
  simp only [actionForDelta, hdelta]
  generalize dc.state = s at *
  generalize dc.action = a at *
  simp only [mem_cons, Prod.mk.injEq, not_mem_nil, or_false] at hout
  obtain ⟨rfl, rfl⟩ | ⟨rfl, rfl⟩ | ⟨rfl, rfl⟩ | ⟨rfl, rfl⟩ | ⟨rfl, rfl⟩ | ⟨rfl, rfl⟩ | ⟨rfl, rfl⟩ |
      ⟨rfl, rfl⟩ := hout <;>
    simp [isText, strictEq, OrchestratorAction.name, Transition.planned]

/-- The execution was corrected, needs more context, or failed a criterion. -/
def FallsShort (P : Platform) (receipt : Value) : Prop :=
  P.positive (get receipt "incorrect_project_facts") ∨ P.positive (get receipt "user_corrections") ∨
    elements (get receipt "missing_context") ≠ [] ∨
    ∃ e ∈ elements (get receipt "acceptance_results"), get e "status" = .str "failed"

/-- Something has passed and nothing else is reported, and the criteria that are named are those of
the pack, each of them once. -/
structure Covers (receipt pack : Value) : Prop where
  reported : elements (get receipt "acceptance_results") ≠ []
  passed : ∀ e ∈ elements (get receipt "acceptance_results"), get e "status" = .str "passed"
  once : (criterionIds (elements (get receipt "acceptance_results"))).Nodup
  only : criterionIds (elements (get pack "coverage_matrix")) ≠ [] →
    criterionIds (elements (get receipt "acceptance_results")) ⊆
      criterionIds (elements (get pack "coverage_matrix"))
  all : criterionIds (elements (get pack "coverage_matrix")) ⊆
    criterionIds (elements (get receipt "acceptance_results"))

theorem isText_iff {v : Value} {s : String} : isText v s ↔ v = .str s := by
  cases v <;> simp [isText, strictEq]

theorem someFailed_eq_ok {es : List Value} {failed : Bool} (h : someFailed es = .ok failed) :
    failed ↔ ∃ e ∈ es, get e "status" = .str "failed" := by
  induction es using someFailed.induct with
  | case1 =>
    cases h
    simp
  | case2 | case3 => nomatch h
  | case4 e es hnull hnone hfailed =>
    rw [someFailed, if_pos hfailed] at h <;> try assumption
    cases h
    simp [isText_iff.mp hfailed]
  | case5 e es hnull hnone hpassed ih =>
    rw [someFailed, if_neg hpassed] at h <;> try assumption
    simp [ih h, mt isText_iff.mpr hpassed]

theorem covers_iff {receipt pack : Value} : Covers receipt pack ↔
    let results := elements (get receipt "acceptance_results")
    let expected := (criterionIds (elements (get pack "coverage_matrix"))).eraseDups
    let observed := criterionIds results
    ¬ (results.isEmpty || results.any (fun e => !isText (get e "status") "passed") ||
      ¬ observed.Nodup || (!expected.isEmpty && observed.any (· ∉ expected)) ||
      expected.any (· ∉ observed)) := by
  have hexpected (ids : List String) : ids.eraseDups = [] ↔ ids = [] := by
    simp [eq_nil_iff_forall_not_mem]
  constructor
  · rintro ⟨hreported, hpassed, honce, honly, hall⟩
    simp_all [isText_iff, Classical.or_iff_not_imp_left, subset_def]
  · intro h
    constructor <;> simp_all [isText_iff, Classical.or_iff_not_imp_left, subset_def]

/-- The two outcomes that miss their action, in terms of what is received. -/
theorem Decides.state_iff (h : Decides P i dc t) :
    dc.state ≠ .terminalAccepted ∧ dc.state ≠ .verificationIncomplete ↔
      FallsShort P i.contextReceipt ∨
        Covers i.contextReceipt i.contextPack ∧ i.terminalOutcomeCompleted = false := by
  obtain ⟨o, ho, rfl⟩ := h.acceptance
  simp only [acceptanceState, chain_eq_ok, ite_eq_ok] at ho
  obtain ⟨hpositive, rfl⟩ | ⟨hpositive, ⟨hmissing, rfl⟩ | ⟨hmissing, failed, hfailed, ho⟩⟩ := ho
  · have hshort : FallsShort P i.contextReceipt :=
      or_assoc.mp (.inl (by simpa using hpositive))
    simp [hshort]
  · have hshort : FallsShort P i.contextReceipt := by simp_all [FallsShort]
    simp [hshort]
  · have hshort : FallsShort P i.contextReceipt ↔ failed := by
      rw [someFailed_eq_ok hfailed]
      simp_all [FallsShort]
    obtain ⟨hyes, rfl⟩ | ⟨hno, ⟨hcovers, rfl⟩ | ⟨hcovers, rfl⟩⟩ := ho
    · simp [hshort, hyes]
    · have hopen : ¬ Covers i.contextReceipt i.contextPack := fun h => covers_iff.mp h hcovers
      simp [hshort, hno, hopen]
    · have hcovered : Covers i.contextReceipt i.contextPack := covers_iff.mpr hcovers
      simp only [hshort, hno, hcovered, Option.getD_none, successfulState]
      cases i.terminalOutcomeCompleted <;> split_ifs <;> simp_all

/-- The reconciler adds the id to a content without one. -/
theorem get_branchDelta_id {dc : Decision} (h : r.branchDelta =
    .obj (deltaContent i dc t ++
      [("branch_delta_id", .str (branchDeltaId P (deltaContent i dc t)))])) :
    get r.branchDelta "branch_delta_id" = .str (branchDeltaId P (deltaContent i dc t)) := by
  rw [h]
  simp [get, deltaContent, lookup_cons]

/-- A plan made from one delta that is not consumed has one action, the one for this delta. -/
theorem plan_of_branchDelta (h : reconcileContextReceiptV2 P i = .ok r) {st : Value}
    (observedAt : Value)
    (lim : Option Int) (hst : !(st matches .null | .num none)) {id : String}
    (hid : get r.branchDelta "branch_delta_id" = .str id) (hnew : id ∉ consumedIds st) :
    ∃ plan, createOrchestratorResumePlan P r.projectControlPlane [r.branchDelta] st observedAt lim =
      .ok plan ∧ plan.actions = [planAction (id, r.branchDelta)] := by
  obtain ⟨dc, t, -, hobj, -, -, hnx⟩ := reconcile_eq_ok h
  have hobject := isObject_nextControlPlane hobj hnx
  have hok : ∃ plan, createOrchestratorResumePlan P r.projectControlPlane
    [r.branchDelta] st observedAt
      lim = .ok plan := by
    simp only [createOrchestratorResumePlan, chain_eq_ok]
    refine ⟨_, ?_, hst, rfl⟩
    cases hcp : r.projectControlPlane <;> simp_all [isObject]
  obtain ⟨plan, hpl⟩ := hok
  obtain ⟨n, hn⟩ := Nat.exists_eq_succ_of_ne_zero (limit_pos lim).ne'
  refine ⟨plan, hpl, ?_⟩
  rw [actions_eq hpl, pendingDeltas, hn]
  simp [openDeltas, hid, hnew]

/-- **Which receipts reach the action of their outcome.**  The plan made from the delta of a receipt
has one action for it, and it is the one meant for the outcome if the execution falls short, or if
it covers the criteria and the terminal outcome is open; in no other case. -/
theorem right_action_iff (P : Platform) (i : Input) (r : Result)
    (h : reconcileContextReceiptV2 P i = .ok r) (state observedAt : Value)
    (maxReceipts : Option Int)
    (hstate : !(state matches .null | .num none))
    (hnew : ∀ id ∈ consumedIds state, get r.branchDelta "branch_delta_id" ≠ .str id) :
    ∃ plan, createOrchestratorResumePlan P r.projectControlPlane [r.branchDelta] state observedAt
        maxReceipts = .ok plan ∧
      ((∃ a t, plan.actions = [a] ∧ get r.branchDelta "branch_delta_id" = .str a.branchDeltaId ∧
        a.transition = .str (Transition.name t) ∧ a.action = t.planned) ↔
      FallsShort P i.contextReceipt ∨
        Covers i.contextReceipt i.contextPack ∧ i.terminalOutcomeCompleted = false) := by
  obtain ⟨dc, time, hdecides, -, hdelta, -⟩ := reconcile_eq_ok h
  have hid := get_branchDelta_id hdelta
  obtain ⟨plan, hplan, hactions⟩ := plan_of_branchDelta h observedAt maxReceipts hstate hid
    fun hmem => hnew _ hmem hid
  have htransition : get r.branchDelta "transition" = .str dc.state.name := by
    rw [hdelta]
    rfl
  have haction : get r.branchDelta "orchestrator_action" = .str dc.action.name := by
    rw [hdelta]
    rfl
  have hname {t : Transition} (ht : dc.state.name = t.name) : dc.state = t := by
    revert ht
    cases dc.state <;> cases t <;> decide
  refine ⟨plan, hplan, ?_⟩
  rw [hactions, hid, ← hdecides.state_iff, ← planned_iff hdecides haction]
  constructor
  · rintro ⟨a, t, ha, -, ht, hplanned⟩
    obtain rfl := cons.inj ha |>.1
    obtain rfl := hname (str.inj (htransition.symm.trans ht))
    exact hplanned
  · intro hplanned
    exact ⟨_, dc.state, rfl, rfl, htransition, hplanned⟩

/-- 64 bits of the character codes, as hexadecimal characters. -/
def bitDigest : Sha256 where
  digest text := String.ofList ((range 64).map fun k =>
    if ((text.toList.map Char.toNat).foldl (fun n c => 31 * n + c) 0).testBit k then '1' else '0')
  isSha256 text := by
    simp only [isSha256, String.toList_ofList, length_map, length_range, decide_true, Bool.true_and,
      all_eq_true, mem_map]
    rintro c ⟨k, -, rfl⟩
    split <;> decide

/-- Integers, times that are written out and texts in the order of their characters. -/
def plainPlatform : Platform where
  sha256 := bitDigest
  number q := toString q.num
  coercesPositive _ := false
  isoString text := if UtcTimestamp.isValidUtcTimestamp text then some text else none
  text
    | .str s => s
    | _ => "[object Object]"
  localeCompare := compare
  now := "2026-01-01T12:00:00.000Z"
  assign _ _ _ := none
  spread _ := []

/-- A receipt whose two criteria have passed, for a task that then waits for the user. -/
def passedReceipt (terminalOutcomeCompleted : Bool) : Input where
  projectControlPlane := .obj [("project_id", .str "project"), ("revision", .num (some 3))]
  taskEnvelope := .obj [("task_envelope_id", .str "envelope"), ("task_intent_id", .str "intent"),
    ("workstream_id", .str "workstream"), ("continue_policy", .str "await_user")]
  contextPack := .obj [("context_pack_id", .str "pack"), ("task_envelope_id", .str "envelope"),
    ("task_intent_id", .str "intent"), ("coverage_matrix",
      .arr [.obj [("criterion_id", .str "tests")], .obj [("criterion_id", .str "docs")]])]
  contextReceipt := .obj [("receipt_id", .str "receipt"), ("context_pack_id", .str "pack"),
    ("task_intent_id", .str "intent"), ("user_corrections", .num (some 0)), ("acceptance_results",
      .arr [.obj [("criterion_id", .str "docs"), ("status", .str "passed")],
        .obj [("criterion_id", .str "tests"), ("status", .str "passed")]])]
  terminalOutcomeCompleted
  priorBranchDeltaIds := []
  observedAt := .str "2026-01-01T11:30:00.000Z"

theorem right_action_passedReceipt : ∃ r plan a,
    reconcileContextReceiptV2 plainPlatform (passedReceipt false) = .ok r ∧
    createOrchestratorResumePlan plainPlatform r.projectControlPlane [r.branchDelta]
    (.obj []) undefined
      none = .ok plan ∧ plan.actions = [a] ∧ a.transition = .str "waiting_for_user" ∧
      a.action = .queueUserTask := by
  obtain ⟨plan, hplan, hiff⟩ := right_action_iff plainPlatform (passedReceipt false) _ rfl (.obj [])
    undefined none rfl (by simp [consumedIds, uniqueStrings, get, elements])
  have hcovers : Covers (passedReceipt false).contextReceipt (passedReceipt false).contextPack :=
    covers_iff.mpr (by decide)
  obtain ⟨a, t, ha, -, ht, haction⟩ := hiff.mpr (.inr ⟨hcovers, rfl⟩)
  have hwaiting : a.transition = .str "waiting_for_user" := by
    obtain rfl := cons.inj ((actions_eq hplan).symm.trans ha) |>.1
    rfl
  obtain rfl : t = .waitingForUser := by
    have hname := str.inj (ht.symm.trans hwaiting)
    revert hname
    cases t <;> decide
  exact ⟨_, plan, a, rfl, hplan, ha, hwaiting, haction⟩

/-- A finished task is recorded, its goal stays open. -/
theorem terminal_recorded : ∃ r plan,
    reconcileContextReceiptV2 plainPlatform (passedReceipt true) = .ok r ∧
    get r.branchDelta "transition" = .str "terminal_accepted" ∧
    createOrchestratorResumePlan plainPlatform r.projectControlPlane [r.branchDelta]
    (.obj []) undefined
      none = .ok plan ∧ plan.actions.map Action.action = [.recordResult] :=
  ⟨_, _, rfl, rfl, rfl, rfl⟩

end Orquesta.ContextReceipts
