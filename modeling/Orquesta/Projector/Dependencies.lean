import Orquesta.LeaseFencing

/-!
# The order of a plan

The projector starts a branch without looking at the branches its plan makes it wait for: which
branch becomes ready when is left to the decider.  As long as no branch is let go before the
branches it waits for are accepted, what is attempted or sent later has its dependencies accepted
too.

## Main definitions

* `WorkOrder.Eligible`: the dependencies of a branch are accepted
* `Event.InTurn`: the event lets no branch go too early

## Main results

* `dependency_order`
-/

namespace Orquesta

open Checked List Relation OrderedMap

variable {env : Environment} {P P' : Projection} {e : Event} {batch : Option Batch}
    {w : WorkOrder} {r : Ref}

/-- Every dependency that the plan gives the branch is accepted. -/
def WorkOrder.Eligible (w : WorkOrder) (r : Ref) : Prop :=
  ∀ p ∈ w.plan.1.branches, p.branchRef = r → ∀ d ∈ p.dependencies, w.Accepted d

/-- The event creates no Work Order again, and lets no branch go before it is eligible. -/
structure Event.InTurn (e : Event) (P : Projection) : Prop where
  new : e.eventType = .workOrderCreated → P.workOrders.get? e.header.workOrderId = none
  eligible : ∀ w, P.workOrders.get? e.header.workOrderId = some w →
    ∀ r, e.body.Releases w.branches r → w.Eligible r

/-- A step whose event comes in turn. -/
def OrderedStep (env : Environment) (P P' : Projection) : Prop :=
  ∃ step, projectStep env P step = .ok P' ∧ ∀ e, step.1 = .domain e → e.InTurn P

/-- The Work Orders keep their plans, and what is accepted in them stays accepted. -/
def Projection.Follows (P P' : Projection) : Prop := ∀ id w, P.workOrders.get? id = some w →
    ∃ w', P'.workOrders.get? id = some w' ∧ w'.plan = w.plan ∧ ∀ r, w.Accepted r → w'.Accepted r

def Projection.InOrder (P : Projection) : Prop :=
  ∀ id w, P.workOrders.get? id = some w → ∀ r, w.Released r → w.Eligible r

/-! ## Runs -/

theorem follows_of_enters (hk : P.WellKeyed) (hturn : e.InTurn P)
    (hent : Enters env P e batch P') : P.Follows P' := by
  intro id w hw
  by_cases hid : id = e.header.workOrderId
  · subst hid
    obtain ⟨hid, hkeys⟩ := hk.workOrders _ w hw
    cases enters_cases hk hent with
    | created p plan batchId body =>
      rw [hturn.new (by rw [Event.eventType, body]; rfl)] at hw
      cases hw
    | wrote v revision pending Q own begun inner writes =>
      cases own.symm.trans hw
      obtain ⟨w', hw', heq⟩ := writes.own
      exact ⟨w', hw', heq.plan, heq.accepted hkeys⟩
    | closed v revision pending Q source receipt stored own begun body context closure closes =>
      cases own.symm.trans hw
      rw [closes.workOrders, ← hid]
      exact ⟨_, get?_set_self _ (w.withInput revision pending).workOrderId _, rfl, fun _ => (·)⟩
  · exact ⟨w, (frame_of_enters hk hid hent).1.trans hw, rfl, fun _ => (·)⟩

/-- A branch that is let go after an event was let go before, or the event lets it go. -/
theorem released_of_enters (hk : P.WellKeyed) (hent : Enters env P e batch P') {id : Ref}
    {w' : WorkOrder}
    (hw' : P'.workOrders.get? id = some w') (hr : w'.Released r) :
    ∃ w, P.workOrders.get? id = some w ∧
      (w.Released r ∨ id = e.header.workOrderId ∧ e.body.Releases w.branches r) := by
  by_cases hid : id = e.header.workOrderId
  · subst hid
    cases enters_cases hk hent with
    | created p plan batchId body workOrders =>
      rw [workOrders, if_pos rfl] at hw'
      cases hw'
      obtain ⟨b, hb, -⟩ := hr
      simp [createdWorkOrder] at hb
    | wrote w revision pending Q own begun inner writes =>
      obtain ⟨v, hv, heq⟩ := writes.own
      cases hw'.symm.trans hv
      exact ⟨w, own, (heq.released (hk.workOrders _ w own).2 r hr).imp_right fun h => ⟨rfl, h⟩⟩
    | closed w revision pending Q source receipt stored own begun body context closure closes =>
      rw [closes.workOrders, ← (hk.workOrders _ w own).1] at hw'
      cases (get?_set_self _ (w.withInput revision pending).workOrderId _).symm.trans hw'
      exact ⟨w, own, .inl hr⟩
  · exact ⟨w', (frame_of_enters hk hid hent).1.symm.trans hw', .inl hr⟩

theorem inOrder_of_enters (hk : P.WellKeyed) (hturn : e.InTurn P) (hent : Enters env P e batch P')
    (hP : P.InOrder) : P'.InOrder := by
  intro id w' hw' r hr
  obtain ⟨w, hw, hreleased⟩ := released_of_enters hk hent hw' hr
  have heligible : w.Eligible r := by
    rcases hreleased with hreleased | ⟨rfl, hreleased⟩
    · exact hP id w hw r hreleased
    · exact hturn.eligible w hw r hreleased
  obtain ⟨w'', hw'', hplan, haccepted⟩ := follows_of_enters hk hturn hent id w hw
  cases hw'.symm.trans hw''
  exact fun p hp href d hd => haccepted d (heligible p (hplan ▸ hp) href d hd)

theorem OrderedStep.sound (h : OrderedStep env P P') (hk : P.WellKeyed) (hP : P.InOrder) :
    P'.WellKeyed ∧ P'.InOrder ∧ P.Follows P' := by
  obtain ⟨step, hstp, hturn⟩ := h
  rcases projectStep_cases hstp with ⟨e, he, -, hent⟩ | ⟨-, epoch, rfl⟩
  · exact ⟨hk.enters hent, inOrder_of_enters hk (hturn e he) hent hP,
      follows_of_enters hk (hturn e he) hent⟩
  · exact ⟨⟨hk.workOrders, hk.outbox⟩, hP, fun id w hw => ⟨w, hw, rfl, fun _ => (·)⟩⟩

theorem ordered_run (hk : P.WellKeyed) (hP : P.InOrder) (h : ReflTransGen (OrderedStep env) P P') :
    P'.WellKeyed ∧ P'.InOrder ∧ P.Follows P' := by
  induction h with
  | refl => exact ⟨hk, hP, fun id w hw => ⟨w, hw, rfl, fun _ => (·)⟩⟩
  | tail _ hstp ih =>
    obtain ⟨hk₁, hP₁, hfol⟩ := ih
    obtain ⟨hk', hP', hlt⟩ := hstp.sound hk₁ hP₁
    refine ⟨hk', hP', fun id w hw => ?_⟩
    obtain ⟨w₁, hw₁, hpl, hacc⟩ := hfol id w hw
    obtain ⟨w', hw', hpl', hacc'⟩ := hlt id w₁ hw₁
    exact ⟨w', hw', hpl'.trans hpl, fun r hr => hacc' r (hacc r hr)⟩

/-! ## What is attempted and sent -/

/-- An effect is enqueued for a branch that has an attempt. -/
theorem released_of_enqueued {record : EffectRecord} {ref : Option ContentRef} (hk : P.WellKeyed)
    (hbody : e.body = .outboxEnqueued record ref) (hent : Enters env P e batch P') :
    ∃ w, P.workOrders.get? e.header.workOrderId = some w ∧ w.Released record.branchRef := by
  cases enters_cases hk hent with
  | created _ _ _ body => cases hbody.symm.trans body
  | closed _ _ _ _ _ _ _ _ _ body => cases hbody.symm.trans body
  | wrote w revision pending Q own begun inner writes reduced =>
    subst begun
    simp only [reduceEvent, hbody, reduceOutboxEnqueued, checkEnqueued, chain_eq_ok,
      requireWorkOrder_eq_ok, requireBranch_eq_ok] at reduced
    obtain ⟨w', hw', x, hx, -, -, b, hb, ⟨⟨-, hdsp, -⟩, -⟩, -⟩ := reduced
    obtain rfl : w.withInput revision pending = w' := by
      simpa [Projection.replaceWorkOrder, WorkOrder.withInput, (hk.workOrders _ w own).1] using hw'
    obtain ⟨rfl, -⟩ := of_normalizeEffect hx
    exact ⟨w, own, b, hb, .inl (by simp [hdsp])⟩

theorem Plan.edge_cases {p : Plan} {r d : Ref} (h : Digraph.Edge p.dependenciesOf r d) :
    ∃ b ∈ p.branches, b.branchRef = r ∧ d ∈ b.dependencies := by
  rw [Digraph.Edge, Plan.dependenciesOf] at h
  cases hfind : p.branches.find? (·.branchRef = r) with
  | none => simp [hfind] at h
  | some b => exact ⟨b, mem_of_find?_eq_some hfind,
      by simpa using find?_some hfind, by simpa [hfind] using h⟩

/-- What is reached from an eligible branch is accepted, so all work branches are, when the
integration branch was let go. -/
theorem accepted_of_integration (h : ∀ r, w.Released r → w.Eligible r)
    (hr : w.plan.1.integrationBranchRef = some r) (hrel : w.Released r) :
    ∀ p ∈ w.plan.1.workBranches, w.Accepted p.branchRef := by
  have hval := w.plan.2.integration
  rw [hr] at hval
  obtain ⟨-, -, hreach⟩ := hval
  have hnext : ∀ a d, w.Accepted a → Digraph.Edge w.plan.1.dependenciesOf a d → w.Accepted d := by
    rintro a d ⟨b, hb, hstate⟩ hedge
    obtain ⟨q, hq, href, hd⟩ := Plan.edge_cases hedge
    exact h a ⟨b, hb, .inr (by simp [hstate])⟩ q hq href d hd
  intro p hp
  refine Digraph.collect_sound hnext _ _ [] (fun d hd => ?_) (by simp) _ (hreach p hp)
  obtain ⟨q, hq, href, hd⟩ := Plan.edge_cases (mem_reverse.mp hd)
  exact h r hrel q hq href d hd

/-- **Dependency order.**  When every event comes in turn, every branch with an attempt and every
branch an effect is enqueued for has its dependencies accepted, the integration branch all work
branches; and an accepted branch stays accepted. -/
theorem dependency_order (h : ReflTransGen (OrderedStep env) initialBusinessProjectionV1 P) :
    (∀ id w, P.workOrders.get? id = some w → ∀ r b, w.branches.get? r = some b →
      b.dispatchId ≠ none → w.Eligible r ∧ (w.plan.1.integrationBranchRef = some r →
        ∀ p ∈ w.plan.1.workBranches, w.Accepted p.branchRef)) ∧
    (∀ e batch record ref P', e.body = .outboxEnqueued record ref → Enters env P e batch P' →
      ∃ w, P.workOrders.get? e.header.workOrderId = some w ∧ w.Eligible record.branchRef) ∧
    ∀ P', ReflTransGen (OrderedStep env) P P' → P.Follows P' := by
  obtain ⟨hk, hP, -⟩ := ordered_run (@History.nil env).wellKeyed
    (fun id w hw => by simp [initialBusinessProjectionV1] at hw) h
  refine ⟨fun id w hw r b hb hdispatch => ?_, fun e batch record ref P' hbody henters => ?_,
    fun P' hlater => (ordered_run hk hP hlater).2.2⟩
  · have hreleased : w.Released r := ⟨b, hb, .inl hdispatch⟩
    exact ⟨hP id w hw r hreleased, fun hr => accepted_of_integration (hP id w hw) hr hreleased⟩
  · obtain ⟨w, hw, hreleased⟩ := released_of_enqueued hk hbody henters
    exact ⟨w, hw, hP _ w hw _ hreleased⟩

/-! ## An example -/

def integrationBranch : PlanBranch :=
  ⟨"integration", ["branch"], .integration, "assignee", "provider"⟩

/-- A Work Order with a work branch and an integration branch that waits for it is created, an
attempt is opened and its effect is enqueued. -/
def twoBranches (state : BranchState) (attempted : Ref) : List (BusinessEvent × Option Batch) :=
  plainInput "create" .command 0 1 0
    [.workOrderCreated ⟨{ plainPlan with
        branches := [plainBranch, integrationBranch], integrationBranchRef := some "integration" },
        100000, .v2, none, none, none⟩,
      .branchInitialized plainBranch .ready ["criterion"],
      .branchInitialized integrationBranch state ["criterion"],
      .attemptOpened ⟨attempted, 1, "dispatch", 0, 1000, ⟨"packet", "hash"⟩, none, none⟩,
      .outboxEnqueued ⟨{ threadCreation with branchRef := attempted }, .pending, none,
        none, 0⟩ none]

theorem eligible_branch {w : WorkOrder} (h : w.plan.1.branches = [plainBranch, integrationBranch]) :
    w.Eligible "branch" := by
  intro p hp href d hd
  simp only [h, mem_cons, not_mem_nil, or_false] at hp
  rcases hp with rfl | rfl
  · cases hd
  · simp [integrationBranch] at href

/-- The work branch waits for nothing, and the integration branch is not let go. -/
theorem orderedStep_twoBranches (n : Fin (twoBranches .blocked "branch").length)
    (hstep : projectStep plainEnvironment P ((twoBranches .blocked "branch").get n) = .ok P')
    (hnew : ∀ e, ((twoBranches .blocked "branch").get n).1 = .domain e →
      e.eventType = .workOrderCreated → P.workOrders.get? e.header.workOrderId = none)
    (hbranch : ∀ e, ((twoBranches .blocked "branch").get n).1 = .domain e →
      ∀ w, P.workOrders.get? e.header.workOrderId = some w →
        w.plan.1.branches = [plainBranch, integrationBranch] ∧
          ∀ r, e.body.Releases w.branches r → r = "branch") :
    OrderedStep plainEnvironment P P' := by
  refine ⟨_, hstep, fun e he => ⟨hnew e he, fun w hw r hr => ?_⟩⟩
  obtain ⟨hplan, hreleases⟩ := hbranch e he w hw
  rw [hreleases r hr]
  exact eligible_branch hplan

/-- The integration branch is blocked, and the work branch is attempted. -/
theorem dependency_order_twoBranches : ∃ P w b,
    ReflTransGen (OrderedStep plainEnvironment) initialBusinessProjectionV1 P ∧
    P.workOrders.get? "workOrder" = some w ∧ w.branches.get? "branch" = some b ∧
    b.dispatchId = some "dispatch" ∧ w.Eligible "branch" := by
  have hcreated : OrderedStep plainEnvironment initialBusinessProjectionV1 _ :=
    orderedStep_twoBranches ⟨0, by decide⟩ rfl
      (fun _ _ _ => rfl) (fun e he w hw => by cases he; cases hw)
  have hready := (ReflTransGen.single hcreated).tail
    (orderedStep_twoBranches ⟨1, by decide⟩ rfl
      (fun _ he => by cases he; nofun)
      (fun _ he w hw => by cases he; cases hw; exact ⟨rfl, fun r hr => hr.1.symm⟩))
  have hblocked := hready.tail
    (orderedStep_twoBranches ⟨2, by decide⟩ rfl
      (fun _ he => by cases he; nofun)
      (fun _ he w hw => by cases he; cases hw; exact ⟨rfl, fun r hr => nomatch hr.2⟩))
  have hopened := hblocked.tail
    (orderedStep_twoBranches ⟨3, by decide⟩ rfl
      (fun _ he => by cases he; nofun)
      (fun _ he w hw => by cases he; cases hw; exact ⟨rfl, fun r hr => hr.1.symm⟩))
  exact ⟨_, _, _, hopened, rfl, rfl, rfl,
    ((dependency_order hopened).1 "workOrder" _ rfl "branch" _ rfl
      (Option.some_ne_none "dispatch")).1⟩

/-- The integration branch is made ready and attempted at once. -/
theorem twoBranches_not_eligible : ∃ P w b x,
    runAll (projectStep plainEnvironment) initialBusinessProjectionV1
    (twoBranches .ready "integration") =
        .ok P ∧
      P.workOrders.get? "workOrder" = some w ∧ w.engineContractVersion = .v2 ∧
      w.branches.get? "integration" = some b ∧ b.dispatchId = some "dispatch" ∧
      P.outbox.get? "effect" = some x ∧ x.branchRef = "integration" ∧
          ¬ w.Eligible "integration" := by
  refine ⟨_, _, _, _, rfl, rfl, rfl, rfl, rfl, rfl, rfl, fun h => ?_⟩
  obtain ⟨b, hb, hstate⟩ := h integrationBranch (mem_cons_of_mem _ mem_cons_self) rfl "branch"
    mem_cons_self
  cases hb
  cases hstate

end Orquesta
