import Orquesta.Projector.Frame

/-!
# Event histories

The history of a projection is the list of domain events that were entered into
it, in order.  An event that is recognised as already projected, and the two
cutover events, leave the Work Orders and the outbox alone and are not part of
it.  Every run of `projectBusinessEventV1` from the initial projection has a
history, and invariants are proved by induction over histories.

## Main definitions

* `Enters env P e batch P'`: the event `e` is entered into `P` and gives `P'`
* `enteredEvents`: the events a run enters
* `History env hist P`

## Main results

* `begun_cases`: what entering an event does
* `history_of_run`: every run from the initial projection has a history
* `History.wellKeyed`: every record is stored under its own identifier
-/

namespace Orquesta

open Checked OrderedMap

variable {env : Environment} {P P' Q : Projection} {e : Event} {bid : Option Ref}
  {s : Option SourceType} {w : WorkOrder}

/-! ## Entering an event -/

/-- A Work Order with an input entered. -/
def WorkOrder.withInput (w : WorkOrder) (revision : Nat) (pending : PendingInput) : WorkOrder :=
  { w with revision, pendingProjectionInput := some pending }

theorem continueInput_cases {pend : PendingInput}
    (hb : continueInput env P e bid w pend = .ok (.proceed Q)) :
    ∃ pend, Q = P.replaceWorkOrder (w.withInput w.revision pend) := by
  simp only [continueInput, chain_eq_ok] at hb
  obtain ⟨-, -, hb⟩ := hb
  cases hh : pend.eventHashes.get? e.eventId with
  | some hash =>
    simp only [hh] at hb
    split at hb <;> simp at hb
  | none =>
    simp only [hh] at hb
    split at hb <;> simp only [chain_eq_ok] at hb
    · obtain ⟨-, -, hQ⟩ := hb
      cases hQ
      exact ⟨_, rfl⟩
    · obtain ⟨-, hQ⟩ := hb
      cases hQ
      exact ⟨_, rfl⟩

/-- What entering an event does to the projection: it creates a Work Order, or the Work Order of
the header gets a pending input. -/
theorem begun_cases (hb : beginInput env P e bid s = .ok (.proceed Q)) :
    findReceipt P e.header.sourceId = .ok none ∧
      ((P.workOrders.get? e.header.workOrderId = none ∧ e.eventType = .workOrderCreated ∧ Q = P) ∨
        ∃ w revision pend, P.workOrders.get? e.header.workOrderId = some w ∧
          Q = P.replaceWorkOrder (w.withInput revision pend)) := by
  obtain ⟨receipt, hfi, hb⟩ := bind_eq_ok.mp hb
  cases receipt with
  | some r => simp at hb
  | none =>
    simp only [chain_eq_ok] at hb
    obtain ⟨elsewhere, -, -, hb⟩ := hb
    refine ⟨hfi, ?_⟩
    split at hb <;> simp only [chain_eq_ok] at hb
    · rename_i hget
      obtain ⟨ht, -, -, hQ⟩ := hb
      cases hQ
      exact Or.inl ⟨hget, ht, rfl⟩
    · rename_i w hget
      obtain ⟨-, -, hb⟩ := hb
      right
      split at hb
      · obtain ⟨pend, rfl⟩ := continueInput_cases hb
        exact ⟨w, w.revision, pend, hget, rfl⟩
      · simp only [openInput, chain_eq_ok] at hb
        obtain ⟨-, src, -, -, -, hQ⟩ := hb
        cases hQ
        exact ⟨w, _, _, hget, rfl⟩

/-! ## Histories -/

/-- The event is entered into `P`, not recognised as already projected, and reduced to `P'`. -/
def Enters (env : Environment) (P : Projection) (e : Event) (batch : Option Batch)
    (P' : Projection) : Prop :=
  ∃ s Q, validateAtomicBatchStart P e batch = .ok s ∧
    beginInput env P e (batch.bind Batch.batchId) s = .ok (.proceed Q) ∧
    reduceEvent env Q e batch = .ok P'

/-- The event a step enters, if it is not recognised as already projected. -/
def enteredEvent (env : Environment) (P : Projection) : BusinessEvent × Option Batch → Option Event
  | (.cutover _, _) => none
  | (.domain e, batch) =>
    match validateAtomicBatchStart P e batch with
    | .error _ => none
    | .ok s =>
      match beginInput env P e (batch.bind Batch.batchId) s with
      | .ok (.proceed _) => some e
      | _ => none

/-- The events a run enters, in order. -/
def enteredEvents (env : Environment) :
    Projection → List (BusinessEvent × Option Batch) → List Event
  | _, [] => []
  | P, step :: rest =>
    match projectStep env P step with
    | .error _ => []
    | .ok P' => (enteredEvent env P step).toList ++ enteredEvents env P' rest

/-- A projected event was entered, or it leaves everything but the settlement epoch alone. -/
theorem projectStep_cases {step : BusinessEvent × Option Batch}
    (h : projectStep env P step = .ok P') :
    (∃ e, step.1 = .domain e ∧ enteredEvent env P step = some e ∧ Enters env P e step.2 P') ∨
      (enteredEvent env P step = none ∧
        ∃ epoch, P' = { P with providerSettlementEpoch := epoch }) := by
  obtain ⟨ev, batch⟩ := step
  unfold projectStep projectBusinessEventV1 at h
  cases ev with
  | cutover c =>
    right
    refine ⟨rfl, ?_⟩
    cases batch with
    | none => simp [projectProviderSettlementCutoverEvent] at h
    | some b =>
      simp only [projectProviderSettlementCutoverEvent, chain_eq_ok, require_eq_ok] at h
      obtain ⟨epoch, -, -, hrs⟩ := h
      split at hrs <;> simp only [chain_eq_ok] at hrs
      · obtain ⟨-, rfl⟩ := hrs
        exact ⟨P.providerSettlementEpoch, rfl⟩
      · obtain ⟨-, -, rfl⟩ := hrs
        exact ⟨some epoch, rfl⟩
  | domain e =>
    simp only [bind_eq_ok] at h
    obtain ⟨s, hs, begun, hb, hrs⟩ := h
    cases begun with
    | duplicate =>
      obtain rfl : P = P' := by simpa using hrs
      exact Or.inr ⟨by simp [enteredEvent, hs, hb], P.providerSettlementEpoch, rfl⟩
    | proceed Q =>
      exact Or.inl ⟨e, rfl, by simp [enteredEvent, hs, hb], s, Q, hs, hb, hrs⟩

/-- `P` is reached from the initial projection by entering the events of `hist`. -/
inductive History (env : Environment) : List Event → Projection → Prop
  | nil : History env [] initialBusinessProjectionV1
  | entered {hist : List Event} {P P' : Projection} {e : Event} {batch : Option Batch} :
      History env hist P → Enters env P e batch P' → History env (hist ++ [e]) P'
  | epoch {hist : List Event} {P : Projection} (epoch : Option SettlementEpoch) :
      History env hist P → History env hist { P with providerSettlementEpoch := epoch }

/-- **Every run has a history.** -/
theorem history_of_run {steps : List (BusinessEvent × Option Batch)}
    (h : runAll (projectStep env) initialBusinessProjectionV1 steps = .ok P) :
    History env (enteredEvents env initialBusinessProjectionV1 steps) P := by
  -- the run is extended step by step at its end, so the history so far is carried along
  suffices H : ∀ hist P₀, History env hist P₀ → runAll (projectStep env) P₀ steps = .ok P →
      History env (hist ++ enteredEvents env P₀ steps) P from H [] _ .nil h
  intro hist P₀ h₀ hrun
  clear h
  induction steps generalizing hist P₀ with
  | nil =>
    cases hrun
    simpa [enteredEvents] using h₀
  | cons step rest ih =>
    obtain ⟨P₁, hstp, hrs⟩ := runAll_cons_eq_ok.mp hrun
    have hcons : enteredEvents env P₀ (step :: rest) =
        (enteredEvent env P₀ step).toList ++ enteredEvents env P₁ rest := by
      simp [enteredEvents, hstp]
    rw [hcons, ← List.append_assoc]
    apply ih _ _ _ hrs
    rcases projectStep_cases hstp with ⟨e, -, he, hent⟩ | ⟨he, epoch, rfl⟩
    · rw [he]
      exact h₀.entered hent
    · rw [he, Option.toList_none, List.append_nil]
      exact h₀.epoch epoch

/-! ## Creation and receipt -/

variable {batch : Option Batch}

/-- Provider entry windows are the only thing a receipt materialises. -/
theorem materializeProviderEntryWindow_eq {stored : StoredReceipt}
    (h : materializeProviderEntryWindow env P stored batch = .ok P') :
    ∃ windows, P' = { P with providerEntryWindows := windows } := by
  cases batch with
  | none =>
    obtain rfl : P = P' := by simpa [materializeProviderEntryWindow] using h
    exact ⟨P.providerEntryWindows, rfl⟩
  | some batch =>
    simp only [materializeProviderEntryWindow, enterProviderWindow] at h
    split at h
    · simp only [chain_eq_ok] at h
      obtain ⟨_, -, -, rfl⟩ := h
      exact ⟨_, rfl⟩
    · split at h
      · obtain rfl : P = P' := by simpa using h
        exact ⟨P.providerEntryWindows, rfl⟩
      · simp only [renewProviderEntryWindow] at h
        split at h
        · obtain rfl : P = P' := by simpa using h
          exact ⟨P.providerEntryWindows, rfl⟩
        · simp at h
        · simp at h
        · simp only [advanceProviderEntryWindow, chain_eq_ok, require_eq_ok] at h
          obtain ⟨_, -, _, -, _, -, -, _, -, _, -, -, rfl⟩ := h
          exact ⟨_, rfl⟩

/-- The projection after a receipt, with the input closed. -/
structure ClosedBy (P P' : Projection) (w : WorkOrder) (stored : StoredReceipt)
    (n : ReceiptNamespace) : Prop where
  workOrders : P'.workOrders =
    P.workOrders.set w.workOrderId { w with pendingProjectionInput := none }
  outbox : P'.outbox = P.outbox
  epoch : P'.providerSettlementEpoch = P.providerSettlementEpoch
  receipt : (P'.receipts n).get? stored.sourceId = some stored
  receipts : ∀ m id, m ≠ n ∨ id ≠ stored.sourceId → (P'.receipts m).get? id = (P.receipts m).get? id

/-- What a receipt has been checked for, and what it does. -/
theorem reduceReceipt_cases {src : SourceType} {receipt : Receipt}
    (hr : reduceReceipt env P e src receipt batch = .ok P') :
    ∃ w pend stored, P.workOrders.get? e.header.workOrderId = some w ∧
      w.pendingProjectionInput = some pend ∧ pend.sourceId = e.header.sourceId ∧
      normalizeReceipt receipt src e pend (batch.bind Batch.batchId) = .ok stored ∧
      validateReceiptContext env P w src e receipt batch = .ok () ∧
      validateDurableInputClosure env P w = .ok () ∧
      ((findReceipt P receipt.sourceId ≠ .ok none ∧ P' = P) ∨
        (findReceipt P receipt.sourceId = .ok none ∧
          ClosedBy P P' w stored src.receiptNamespace)) := by
  simp only [reduceReceipt, chain_eq_ok, requireWorkOrder_eq_ok, require_eq_ok] at hr
  obtain ⟨w, hw, pend, hp, hsrc, -, -, -, stored, hst, hctx, hcl, found, hfd, hrs⟩ := hr
  refine ⟨w, pend, stored, hw, hp, hsrc, hst, hctx, hcl, ?_⟩
  cases found with
  | some collision =>
    simp only [chain_eq_ok] at hrs
    exact Or.inl ⟨by simp [hfd], hrs.2.symm⟩
  | none =>
    simp only [chain_eq_ok] at hrs
    obtain ⟨entered, hent, rfl⟩ := hrs
    obtain ⟨windows, rfl⟩ := materializeProviderEntryWindow_eq hent
    refine Or.inr ⟨hfd, ?_⟩
    cases src.receiptNamespace <;>
    · constructor
      · rfl
      · rfl
      · rfl
      · exact get?_set_self ..
      · intro m id hm
        cases m
        all_goals first
          | rfl
          | exact get?_set_of_ne _ _ fun heq => hm.elim (· rfl) (· heq.symm)

/-! ## Records are stored under their own identifiers -/

theorem Projection.WellKeyed.replaceWorkOrder (hk : P.WellKeyed) (hb : w.BranchKeys) :
    (P.replaceWorkOrder w).WellKeyed where
  workOrders k w' hw' := by
    simp only [Projection.replaceWorkOrder, get?_set] at hw'
    split at hw'
    · cases hw'
      exact ⟨‹_›, hb⟩
    · exact hk.workOrders k w' hw'
  outbox := hk.outbox

/-- Entering an event keeps every record under its own identifier. -/
theorem Projection.WellKeyed.begun (hk : P.WellKeyed)
    (hb : beginInput env P e bid s = .ok (.proceed Q)) : Q.WellKeyed := by
  rcases (begun_cases hb).2 with ⟨-, -, rfl⟩ | ⟨w, revision, pend, hw, rfl⟩
  · exact hk
  · exact hk.replaceWorkOrder (w := w.withInput revision pend) (hk.workOrders _ w hw).2

theorem Projection.WellKeyed.writes {h : EventHeader} {free : Ref → Prop} (hk : P.WellKeyed)
    (hw : P.workOrders.get? h.workOrderId = some w) (hwr : Writes h free w P P') :
    P'.WellKeyed where
  workOrders k w' hw' := by
    obtain ⟨hid, hkeys⟩ := hk.workOrders _ w hw
    by_cases hkey : k = h.workOrderId
    · subst hkey
      obtain ⟨own, hown, hsam⟩ := hwr.own
      obtain rfl : own = w' := Option.some.inj (hown.symm.trans hw')
      exact ⟨hsam.workOrderId.trans hid, hsam.branchKeys hkeys⟩
    · rw [hwr.others k hkey] at hw'
      exact hk.workOrders k w' hw'
  outbox k x hx := by
    rcases hwr.outbox with heq | ⟨x', -, -, heq⟩
    · rw [heq] at hx
      exact hk.outbox k x hx
    · rw [heq, get?_set] at hx
      split at hx
      · cases hx
        assumption
      · exact hk.outbox k x hx

/-! ## What one event does -/

/-- The three things an entered event does: it creates its Work Order, it writes inside the pending
input of its Work Order, or it closes that input.  `Q` is the projection with the input entered. -/
inductive EnterCase (env : Environment) (P : Projection) (e : Event) (batch : Option Batch)
    (P' : Projection) : Prop
  | created (p : WorkOrderCreated) (plan : NormalizedPlan) (batchId : Option Ref)
      (body : e.body = .workOrderCreated p)
      (workOrders : ∀ id, P'.workOrders.get? id = if e.header.workOrderId = id
        then some (createdWorkOrder env e p plan batchId) else P.workOrders.get? id)
      (outbox : P'.outbox = P.outbox)
  | wrote (w : WorkOrder) (revision : Nat) (pending : PendingInput) (Q : Projection)
      (own : P.workOrders.get? e.header.workOrderId = some w)
      (begun : Q = P.replaceWorkOrder (w.withInput revision pending))
      (inner : e.eventType ≠ .workOrderCreated ∧ e.eventType.receiptSourceType = none)
      (writes : Writes e.header (e.body.Releases w.branches) (w.withInput revision pending) Q P')
      (reduced : reduceEvent env Q e batch = .ok P')
  | closed (w : WorkOrder) (revision : Nat) (pending : PendingInput) (Q : Projection)
      (source : SourceType) (receipt : Receipt) (stored : StoredReceipt)
      (own : P.workOrders.get? e.header.workOrderId = some w)
      (begun : Q = P.replaceWorkOrder (w.withInput revision pending))
      (body : e.body = .received source receipt)
      (context : validateReceiptContext env Q (w.withInput revision pending) source e receipt
        batch = .ok ())
      (closure : validateDurableInputClosure env Q (w.withInput revision pending) = .ok ())
      (closes : ClosedBy Q P' (w.withInput revision pending) stored source.receiptNamespace)

/-- **What an entered event does.** -/
theorem enters_cases (hk : P.WellKeyed) (h : Enters env P e batch P') :
    EnterCase env P e batch P' := by
  obtain ⟨s, Q, hs, hb, hr⟩ := h
  have hkQ := hk.begun hb
  have hfi : findReceipt P e.header.sourceId = .ok none := (begun_cases hb).1
  rcases hbody : e.body with p | _ | _ | _ | _ | _ | _ | _ | _ | _ | _ | _ | _ | _ | _ | _ | _ |
    _ | _ | _ | ⟨source, receipt⟩ | _ | _
  case workOrderCreated =>
    rw [reduceEvent, hbody] at hr
    simp only [reduceWorkOrderCreated, chain_eq_ok] at hr
    obtain ⟨plan, -, -, -, -, rfl⟩ := hr
    refine .created p plan (batch.bind Batch.batchId) hbody (fun id => ?_) ?_
    · rcases (begun_cases hb).2 with ⟨-, -, rfl⟩ | ⟨w, revision, pend, hw, rfl⟩
      · exact get?_set ..
      · have hid := (hk.workOrders _ w hw).1
        simp only [Projection.replaceWorkOrder, get?_set, createdWorkOrder,
          WorkOrder.withInput, hid]
        split <;> rfl
    · rcases (begun_cases hb).2 with ⟨-, -, rfl⟩ | ⟨w, revision, pend, hw, rfl⟩ <;> rfl
  case received =>
    rw [reduceEvent, hbody] at hr
    rcases (begun_cases hb).2 with ⟨-, ht, -⟩ | ⟨w, revision, pend, hw, rfl⟩
    · simp [Event.eventType, hbody, EventBody.eventType] at ht
    · have hid : w.workOrderId = e.header.workOrderId := (hk.workOrders _ w hw).1
      obtain ⟨w', pend', stored, hw', -, -, hst, hctx, hclosed, hrs⟩ := reduceReceipt_cases hr
      obtain rfl : w.withInput revision pend = w' := by
        simpa [Projection.replaceWorkOrder, WorkOrder.withInput, hid] using hw'
      rcases hrs with ⟨hne, -⟩ | ⟨-, hcl⟩
      · simp only [normalizeReceipt, chain_eq_ok] at hst
        rw [hst.2.2.1.1] at hne
        exact absurd hfi hne
      · exact .closed w revision pend _ source receipt stored hw rfl hbody hctx hclosed hcl
  all_goals
    have hi : e.eventType ≠ .workOrderCreated ∧ e.eventType.receiptSourceType = none := by
      simp [Event.eventType, hbody, EventBody.eventType, EventType.receiptSourceType]
    rcases (begun_cases hb).2 with ⟨-, ht, -⟩ | ⟨w, revision, pend, hw, rfl⟩
    · exact absurd ht hi.1
    · have hid : w.workOrderId = e.header.workOrderId := (hk.workOrders _ w hw).1
      refine .wrote w revision pend _ hw rfl hi ?_ hr
      refine reduceEvent_writes (w := w.withInput revision pend) hkQ ?_ hi.1 hi.2 hr
      simp [Projection.replaceWorkOrder, WorkOrder.withInput, hid]

theorem Projection.WellKeyed.enters (hk : P.WellKeyed) (h : Enters env P e batch P') :
    P'.WellKeyed := by
  cases enters_cases hk h with
  | created p plan bid body workOrders outbox =>
    refine ⟨fun k w hw => ?_, by rw [outbox]; exact hk.outbox⟩
    rw [workOrders] at hw
    split at hw
    · cases hw
      exact ⟨‹_›, fun r b hb => by simp [createdWorkOrder] at hb⟩
    · exact hk.workOrders k w hw
  | wrote w revision pend Q own begun inner writes reduced =>
    subst begun
    have hkw := hk.workOrders _ w own
    refine (hk.replaceWorkOrder (w := w.withInput revision pend) hkw.2).writes ?_ writes
    simp [Projection.replaceWorkOrder, WorkOrder.withInput, hkw.1]
  | closed w revision pend Q src receipt stored own begun body context closure closes =>
    subst begun
    have hkw := hk.workOrders _ w own
    refine ⟨fun k w' hw' => ?_, by rw [closes.outbox]; exact hk.outbox⟩
    simp only [closes.workOrders, get?_set, Projection.replaceWorkOrder] at hw'
    split at hw'
    · cases hw'
      exact ⟨‹_›, hkw.2⟩
    · exact hk.workOrders k w' hw'

theorem History.wellKeyed {hist : List Event} (h : History env hist P) : P.WellKeyed := by
  induction h with
  | nil => exact ⟨by simp [initialBusinessProjectionV1], by simp [initialBusinessProjectionV1]⟩
  | entered _ hent ih => exact ih.enters hent
  | epoch epoch _ ih => exact ⟨ih.workOrders, ih.outbox⟩

end Orquesta
