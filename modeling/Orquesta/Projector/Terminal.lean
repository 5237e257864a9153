import Orquesta.LeaseFencing

/-!
# Terminal Work Orders

A Work Order that is accepted, failed or cancelled is frozen.  It takes no new input but late
observations, and an input that is pending when it ends takes nothing more but its receipt; both
are decided in `beginInput`, before any reducer is called.

## Main definitions

* `Frozen`: the Work Order and its effects are as they were
* `Adds`: what a batch for a terminal Work Order may change

## Main results

* `begin_terminal`: what may be entered for a terminal Work Order
* `terminal_frozen`
* `others_untouched`, `replay_coherent`: what others cannot change
-/

namespace Orquesta

open Checked List OrderedMap

variable {env : Environment} {P P₁ P' : Projection} {e : Event} {batch : Option Batch} {id : Ref}
  {w : WorkOrder}

/-! ## What may change -/

/-- Only the revision and the pending input are others. -/
def WorkOrder.Advances (w w' : WorkOrder) : Prop :=
  ∃ revision pending, w.revision ≤ revision ∧
    w' = { w with revision, pendingProjectionInput := pending }

/-- The Work Order has ended. -/
def Terminal (id : Ref) (P : Projection) : Prop :=
  ∃ w, P.workOrders.get? id = some w ∧ w.status.isTerminal

/-- The Work Order and its effects are as they were, but for the revision and the pending input. -/
structure Frozen (id : Ref) (P P' : Projection) : Prop where
  workOrder : ∃ w w', P.workOrders.get? id = some w ∧ P'.workOrders.get? id = some w' ∧
    w.Advances w'
  effects : SameEffects id P P'

/-- Only the Work Order advances, and late observations and receipts are added. -/
structure Adds (id : Ref) (P P' : Projection) : Prop extends Frozen id P P' where
  workOrders : ∀ k ≠ id, P'.workOrders.get? k = P.workOrders.get? k
  outbox : P'.outbox = P.outbox
  epoch : P'.providerSettlementEpoch = P.providerSettlementEpoch
  late : ∀ k r, P.lateObservations.get? k = some r → P'.lateObservations.get? k = some r
  receipts : ∀ n k r, (P.receipts n).get? k = some r → (P'.receipts n).get? k = some r

theorem Frozen.terminal (h : Frozen id P P') (htm : Terminal id P) : Terminal id P' := by
  obtain ⟨w, hw, hend⟩ := htm
  obtain ⟨_, _, hw', hnx, revision, pend, -, rfl⟩ := h.workOrder
  cases hw.symm.trans hw'
  exact ⟨_, hnx, hend⟩

theorem Frozen.refl (h : Terminal id P) : Frozen id P P := by
  obtain ⟨w, hw, -⟩ := h
  exact ⟨⟨w, w, hw, hw, w.revision, w.pendingProjectionInput, le_rfl, rfl⟩, rfl⟩

theorem Frozen.trans (h : Frozen id P P₁) (h' : Frozen id P₁ P') : Frozen id P P' := by
  obtain ⟨w, _, hw, hw₁, _, _, hle, rfl⟩ := h.workOrder
  obtain ⟨_, _, hw₁', hw', revision, pend, hle', rfl⟩ := h'.workOrder
  cases hw₁.symm.trans hw₁'
  exact ⟨⟨w, _, hw, hw', revision, pend, hle.trans hle', rfl⟩, h.effects.trans h'.effects⟩

theorem Adds.refl (h : Terminal id P) : Adds id P P :=
  ⟨.refl h, fun _ _ => rfl, rfl, rfl, fun _ _ => (·), fun _ _ _ => (·)⟩

theorem Adds.trans (h : Adds id P P₁) (h' : Adds id P₁ P') : Adds id P P' where
  toFrozen := h.toFrozen.trans h'.toFrozen
  workOrders k hne := (h'.workOrders k hne).trans (h.workOrders k hne)
  outbox := h'.outbox.trans h.outbox
  epoch := h'.epoch.trans h.epoch
  late k r hr := h'.late k r (h.late k r hr)
  receipts n k r hr := h'.receipts n k r (h.receipts n k r hr)

/-! ## One event -/

/-- An event that a terminal Work Order takes: a late observation, or the receipt of an input. -/
def Event.isLate (e : Event) : Prop :=
  e.eventType = .lateObservationQuarantined ∨ e.eventType.receiptSourceType ≠ none

/-- A terminal Work Order takes a late observation as a new input, and the receipt of a pending
one. -/
theorem begin_terminal {bid : Option Ref} {s : Option SourceType} {begun : Begun}
    (hw : P.workOrders.get? e.header.workOrderId = some w) (htm : w.status.isTerminal)
    (hb : beginInput env P e bid s = .ok begun) :
    (findReceipt P e.header.sourceId = .ok none → e.isLate) ∧
      (begun = .duplicate ∨ findReceipt P e.header.sourceId = .ok none ∧ ∃ revision pend,
        w.revision ≤ revision ∧
        begun = .proceed (P.replaceWorkOrder (w.withInput revision pend))) := by
  obtain ⟨receipt, hfi, hb⟩ := bind_eq_ok.mp hb
  cases receipt with
  | some r =>
    simp only [chain_eq_ok] at hb
    exact ⟨by simp [hfi], .inl hb.2.symm⟩
  | none =>
    simp only [hw, chain_eq_ok] at hb
    obtain ⟨elsewhere, -, -, -, -, hb⟩ := hb
    cases hp : w.pendingProjectionInput with
    | some pend =>
      rw [hp] at hb
      have hreceipt : e.eventType.receiptSourceType ≠ none := by
        simp only [continueInput, chain_eq_ok] at hb
        exact fun hno => hb.2.1 ⟨htm, hno⟩
      refine ⟨fun _ => .inr hreceipt, ?_⟩
      cases begun with
      | duplicate => exact .inl rfl
      | proceed Q =>
        obtain ⟨pend', rfl⟩ := continueInput_cases hb
        exact .inr ⟨hfi, w.revision, pend', le_rfl, rfl⟩
    | none =>
      simp only [hp, openInput, chain_eq_ok] at hb
      obtain ⟨hlate, src, -, -, -, rfl⟩ := hb
      refine ⟨fun _ => .inl (by simpa [htm] using hlate), .inr ⟨hfi, _, _, ?_, rfl⟩⟩
      split <;> omega

theorem receipts_of_findReceipt {sourceId : Ref} (h : findReceipt P sourceId = .ok none)
    (n : ReceiptNamespace) : (P.receipts n).get? sourceId = none := by
  simp only [findReceipt, chain_eq_ok, head?_eq_none_iff, receiptMatches, filterMap_eq_nil_iff,
    Option.map_eq_none_iff] at h
  exact h.2 n (by cases n <;> decide)

/-- Such events enter no provider entry window. -/
theorem windows_of_isLate {stored : StoredReceipt}
    (hb : ∀ b ∈ batch, ∀ x ∈ b.domainEvents, x.isLate)
    (h : materializeProviderEntryWindow env P stored batch = .ok P') :
    P'.providerEntryWindows = P.providerEntryWindows := by
  cases batch with
  | none => rw [← Except.ok.inj h]
  | some b =>
    have hno : ∀ x ∈ b.domainEvents, x.authorizesEntry = false ∧ x.renewedEffectId? = none := by
      intro x hx
      have hlate := hb b rfl x hx
      obtain ⟨eid, header, body, ev⟩ := x
      cases body
      case lateObservationQuarantined | received => exact ⟨rfl, rfl⟩
      all_goals simp [Event.isLate, Event.eventType, EventBody.eventType,
        EventType.receiptSourceType] at hlate
    rw [materializeProviderEntryWindow, enterProviderWindow,
      if_neg (by simpa using fun x hx => (hno x hx).1), findSome?_eq_none_iff.mpr fun x hx =>
      (hno x hx).2] at h
    rw [← Except.ok.inj h]

theorem adds_of_enters (hk : P.WellKeyed) (h : Terminal e.header.workOrderId P)
    (hent : Enters env P e batch P') : Adds e.header.workOrderId P P' ∧
      ((e.eventType.receiptSourceType ≠ none → ∀ b ∈ batch, ∀ x ∈ b.domainEvents, x.isLate) →
        P'.providerEntryWindows = P.providerEntryWindows) := by
  obtain ⟨w, hw, htm⟩ := h
  obtain ⟨s, Q, -, hb, hr⟩ := hent
  have hid := (hk.workOrders _ w hw).1
  obtain ⟨hkind, ⟨⟨⟩⟩ | ⟨hfi, revision, pend, hle, ⟨⟩⟩⟩ := begin_terminal hw htm hb
  replace hkind := hkind hfi
  obtain ⟨eid, header, body, ev⟩ := e
  cases body
  case lateObservationQuarantined late =>
    simp only [reduceEvent, reduceLateObservation, chain_eq_ok] at hr
    obtain ⟨-, ⟨-, hsam⟩, rfl⟩ := hr
    refine ⟨⟨⟨⟨w, _, hw, ?_, revision, some pend, hle, rfl⟩, rfl⟩, fun k hne => ?_, rfl, rfl,
      fun k r hr => ?_, fun n => ?_⟩, fun _ => rfl⟩
    · rw [← hid]
      exact get?_set_self ..
    · exact get?_set_of_ne _ _ (hid.trans_ne hne.symm)
    · -- a record under the same identifier is the same one
      change (P.lateObservations.get? _).all _ at hsam
      rw [get?_set]
      split
      · rename_i heq
        rw [heq, hr] at hsam
        exact congrArg some (of_decide_eq_true hsam).symm
      · exact hr
    · cases n <;> exact fun _ _ => id
  case received source receipt =>
    simp only [reduceEvent, reduceReceipt, normalizeReceipt, chain_eq_ok, requireWorkOrder_eq_ok]
      at hr
    obtain ⟨w', hw', _, -, -, -, -, -, stored, ⟨-, -, ⟨hsource, -⟩, rfl⟩, -, -, found, hfd, hr⟩ :=
      hr
    obtain rfl : w.withInput revision pend = w' := by
      simpa [Projection.replaceWorkOrder, WorkOrder.withInput, hid] using hw'
    -- no receipt of the source is there yet
    obtain rfl : none = found := Except.ok.inj (hfi.symm.trans (hsource ▸ hfd))
    obtain ⟨entered, hentered, hr⟩ := bind_eq_ok.mp hr
    obtain rfl := pure_eq_ok.mp hr
    have hwindows := fun hall => windows_of_isLate hall hentered
    obtain ⟨windows, rfl⟩ := materializeProviderEntryWindow_eq hentered
    have hnew := receipts_of_findReceipt hfi
    rw [← hsource] at hnew
    cases source.receiptNamespace <;>
    · refine ⟨⟨⟨⟨w, _, hw, ?_, revision, none, hle, rfl⟩, rfl⟩, fun k hne => ?_, rfl, rfl,
        fun _ _ => id,
        fun n k r hr => ?_⟩, fun hall => hwindows (hall (Option.some_ne_none source))⟩
      · rw [← hid]
        exact get?_set_self ..
      · have hne' := hid.trans_ne hne.symm
        exact (get?_set_of_ne _ _ hne').trans (get?_set_of_ne _ _ hne')
      · cases n
        all_goals first
          | exact hr
          | refine (get?_set_of_ne _ _ ?_).trans hr
            rintro rfl
            cases (hnew _).symm.trans hr
  all_goals
    simp [Event.isLate, Event.eventType, EventBody.eventType, EventType.receiptSourceType] at hkind

/-! ## Runs -/

theorem frozen_step {step : BusinessEvent × Option Batch} (hk : P.WellKeyed) (h : Terminal id P)
    (hstp : projectStep env P step = .ok P') : P'.WellKeyed ∧ Frozen id P P' := by
  rcases projectStep_cases hstp with ⟨e, -, -, hent⟩ | ⟨-, epoch, rfl⟩
  · refine ⟨hk.enters hent, ?_⟩
    by_cases hid : id = e.header.workOrderId
    · subst hid
      exact (adds_of_enters hk h hent).1.toFrozen
    · obtain ⟨heq, hefs⟩ := frame_of_enters hk hid hent
      obtain ⟨w, w', hw, hw', hadvances⟩ := (Frozen.refl h).workOrder
      exact ⟨⟨w, w', hw, heq.trans hw', hadvances⟩, hefs⟩
  · obtain ⟨hwo, -⟩ := Frozen.refl h
    exact ⟨⟨hk.workOrders, hk.outbox⟩, hwo, rfl⟩

theorem frozen_run {later : List (BusinessEvent × Option Batch)} (hk : P.WellKeyed)
    (h : Terminal id P)
    (hrun : runAll (projectStep env) P later = .ok P') : P'.WellKeyed ∧ Frozen id P P' := by
  have hstp : ∀ step ∈ later, ∀ P₁ P₂, P₁.WellKeyed ∧ Frozen id P P₁ →
      projectStep env P₁ step = .ok P₂ → P₂.WellKeyed ∧ Frozen id P P₂ := by
    rintro step - P₁ P₂ ⟨hk₁, hfrozen⟩ hstp
    exact (frozen_step hk₁ (hfrozen.terminal h) hstp).imp_right hfrozen.trans
  exact runAll_invariant hstp ⟨hk, .refl h⟩ hrun

/-! ## Batches -/

/-- An event for a terminal Work Order is entered or changes nothing. -/
theorem late_of_step (h : Terminal e.header.workOrderId P)
    (hstp : projectStep env P (.domain e, batch) = .ok P') :
    (findReceipt P e.header.sourceId = .ok none → e.isLate) ∧
      (P' = P ∨ findReceipt P e.header.sourceId = .ok none ∧ Enters env P e batch P') := by
  obtain ⟨w, hw, htm⟩ := h
  obtain ⟨s, hval, hstp⟩ := bind_eq_ok.mp hstp
  obtain ⟨begun, hb, hstp⟩ := bind_eq_ok.mp hstp
  obtain ⟨hlate, rfl | ⟨hfi, revision, pend, -, rfl⟩⟩ := begin_terminal hw htm hb
  · exact ⟨hlate, .inl (pure_eq_ok.mp hstp).symm⟩
  · exact ⟨hlate, .inr ⟨hfi, s, _, hval, hb, hstp⟩⟩

/-- The rest of an input, after its events `done`. -/
theorem adds_of_rest (done rest : List Event) {header : EventHeader} (hk : P.WellKeyed)
    (h : Terminal header.workOrderId P) (hheader : ∀ x ∈ rest, x.header = header)
    (hbt : ∀ b ∈ batch, b.domainEvents = done ++ rest)
    (hi : ∀ x ∈ rest.dropLast, x.eventType.receiptSourceType = none)
    (hdn : findReceipt P header.sourceId = .ok none → ∀ x ∈ done, x.isLate)
    (hrun : runAll (projectStep env) P (rest.map (.domain ·, batch)) = .ok P') :
    Adds header.workOrderId P P' ∧ P'.providerEntryWindows = P.providerEntryWindows := by
  induction rest generalizing done P with
  | nil =>
    cases hrun
    exact ⟨.refl h, rfl⟩
  | cons e rest ih =>
    obtain rfl : e.header = header := hheader e mem_cons_self
    obtain ⟨P₁, hstp, htail⟩ := runAll_cons_eq_ok.mp hrun
    have hrs := fun x hx => hheader x (mem_cons_of_mem e hx)
    have hsp : ∀ b ∈ batch, b.domainEvents = done ++ [e] ++ rest := by simpa using hbt
    obtain ⟨hls, hi⟩ : (e.eventType.receiptSourceType ≠ none → rest = []) ∧
        ∀ x ∈ rest.dropLast, x.eventType.receiptSourceType = none := by
      cases rest with
      | nil => exact ⟨fun _ => rfl, hi⟩
      | cons y l => exact ⟨absurd (hi e mem_cons_self), fun x hx => hi x (mem_cons_of_mem e hx)⟩
    obtain ⟨hlate, hcas⟩ := late_of_step h hstp
    have hall : findReceipt P e.header.sourceId = .ok none → ∀ x ∈ done ++ [e], x.isLate := by
      intro hno
      simpa using fun x hx => hx.elim (hdn hno x) (· ▸ hlate hno)
    rcases hcas with rfl | ⟨hfi, hent⟩
    · exact ih _ hk h hrs hsp hi hall htail
    · obtain ⟨hadds, hwindows⟩ := adds_of_enters hk h hent
      obtain ⟨hadds', hwindows'⟩ := ih _ (hk.enters hent) (hadds.terminal h) hrs hsp hi
        (fun _ => hall hfi) htail
      refine ⟨hadds.trans hadds', hwindows'.trans (hwindows fun hreceipt b hb => ?_)⟩
      rw [hsp b hb, hls hreceipt, append_nil]
      exact hall hfi

theorem eq_map_domain {l : List BusinessEvent} {es : List Event}
    (h : l.mapM BusinessEvent.domain? = some es) : l = es.map .domain := by
  induction l generalizing es with
  | nil =>
    cases h
    rfl
  | cons x l ih =>
    simp only [mapM_cons, Option.bind_eq_bind, Option.bind_eq_some_iff] at h
    obtain ⟨e, he, rest, hrs, ⟨⟩⟩ := h
    cases x with
    | cutover c => cases he
    | domain x =>
      cases he
      rw [ih hrs, map_cons]

/-- The events of a batch have one header, and only the last is a receipt. -/
theorem of_validateAtomicBatchStart {b : Batch} {s : Option SourceType}
    (hhe : b.events.head? = some (.domain e)) (h : validateAtomicBatchStart P e (some b) = .ok s) :
    ∃ es : List Event, b.events = es.map .domain ∧ (∀ x ∈ es, x.header = e.header) ∧
      ∀ x ∈ es.dropLast, x.eventType.receiptSourceType = none := by
  simp only [validateAtomicBatchStart, chain_eq_ok] at h
  obtain ⟨-, h⟩ := h
  rw [if_neg (by simp [hhe, BusinessEvent.eventId])] at h
  simp only [chain_eq_ok, require_eq_ok] at h
  obtain ⟨es, hevents, _, -, hi, header, hfst, hheader, -⟩ := h
  have hmap := eq_map_domain hevents
  rw [hmap] at hhe
  cases es with
  | nil => cases hhe
  | cons x l =>
    cases hhe
    cases hfst
    exact ⟨_, hmap, hheader, hi⟩

/-- A ledger entry for a terminal Work Order. -/
theorem adds_of_entry {entry : ReplayEntry} (hk : P.WellKeyed) (h : Terminal e.header.workOrderId P)
    (hhe : entry.steps.head? = some (.domain e, batch))
    (hrun : runAll (projectStep env) P entry.steps = .ok P') :
    Adds e.header.workOrderId P P' ∧ P'.providerEntryWindows = P.providerEntryWindows := by
  cases entry with
  | event x =>
    cases hhe
    exact adds_of_rest [] [e] hk h (by simp) (by simp) (by simp) (by simp) hrun
  | batch b =>
    simp only [ReplayEntry.steps, head?_map, Option.map_eq_some_iff, Prod.mk.injEq] at hhe
    obtain ⟨_, hhe, rfl, rfl⟩ := hhe
    have hfst := hrun
    rw [ReplayEntry.steps, eq_cons_of_mem_head? hhe] at hfst
    obtain ⟨_, hstp, -⟩ := runAll_cons_eq_ok.mp hfst
    obtain ⟨s, hval, -⟩ := bind_eq_ok.mp hstp
    obtain ⟨es, hmap, hheader, hi⟩ := of_validateAtomicBatchStart hhe hval
    rw [ReplayEntry.steps, hmap, map_map] at hrun
    have hdomain : b.domainEvents = es := by
      rw [Batch.domainEvents, hmap, filterMap_map]
      exact filterMap_some
    exact adds_of_rest [] es hk h hheader (by simpa using hdomain) hi (by simp) hrun

/-! ## Terminal Work Orders are frozen -/

/-- **A terminal Work Order is frozen**, and so are its effects, whatever is accepted later.  And
what is accepted for it advances its revision and adds late observations and receipts. -/
theorem terminal_frozen {steps later : List (BusinessEvent × Option Batch)}
    (hrun : runAll (projectStep env) initialBusinessProjectionV1 steps = .ok P) (h : Terminal id P)
    (hlater : runAll (projectStep env) P later = .ok P') :
    Frozen id P P' ∧ ∀ (entry : ReplayEntry) e batch P'', e.header.workOrderId = id →
      entry.steps.head? = some (.domain e, batch) →
      runAll (projectStep env) P' entry.steps = .ok P'' →
      Adds id P' P'' ∧ P''.providerEntryWindows = P'.providerEntryWindows := by
  obtain ⟨hk, hfrozen⟩ := frozen_run (history_of_run hrun).wellKeyed h hlater
  refine ⟨hfrozen, ?_⟩
  rintro entry e batch P'' rfl hhead hentry
  exact adds_of_entry hk (hfrozen.terminal h) hhead hentry

/-! ## An example -/

/-- The effect of the only branch is not sent, and the Work Order fails with it. -/
def failedWorkOrder : List (BusinessEvent × Option Batch) :=
  sentEffect ++ provenNotSent
    [.branchStatusChanged ⟨"branch", .dispatchPending, .failed, "not sent", none, none, none⟩,
      .workOrderStatusChanged .starting .failed "stopped"]

/-- The start is observed later. -/
def lateStart : List (BusinessEvent × Option Batch) :=
  plainInput "late" .observation 2 3 6000
    [.lateObservationQuarantined
      ⟨⟨"late", "workOrder", "plan", "hash", 2, "actor", .workOrderStarted⟩, "late", [], []⟩]

theorem terminal_frozen_failedWorkOrder : ∃ P P' w,
    runAll (projectStep plainEnvironment) initialBusinessProjectionV1 failedWorkOrder = .ok P ∧
      P.workOrders.get? "workOrder" = some w ∧ w.branches.values.map Branch.state = [.failed] ∧
      (P.outbox.values.map fun x => x.status) = [.notSent] ∧ Terminal "workOrder" P ∧
      runAll (projectStep plainEnvironment) P lateStart = .ok P' ∧ Frozen "workOrder" P P' :=
  ⟨_, _, _, rfl, rfl, rfl, rfl, ⟨_, rfl, rfl⟩, rfl,
    (@terminal_frozen plainEnvironment _ _ _ failedWorkOrder lateStart rfl ⟨_, rfl, rfl⟩ rfl).1⟩

/-! ## Other Work Orders -/

/-- **Work Orders do not interfere.**  Whatever is accepted for others, in any number and order,
leaves a Work Order and its effects as they were. -/
theorem others_untouched {past steps : List (BusinessEvent × Option Batch)}
    (hpast : runAll (projectStep env) initialBusinessProjectionV1 past = .ok P)
    (hrun : runAll (projectStep env) P steps = .ok P')
    (hothers : ∀ step ∈ steps, ∀ e, step.1 = .domain e → e.header.workOrderId ≠ id) :
    P'.workOrders.get? id = P.workOrders.get? id ∧ SameEffects id P P' := by
  refine (runAll_invariant (fun step hstep Q Q' (hQ : (∃ hist, History env hist Q) ∧
      Q.workOrders.get? id = P.workOrders.get? id ∧ SameEffects id P Q) hok => ?_)
    ⟨⟨_, history_of_run hpast⟩, rfl, rfl⟩ hrun).2
  obtain ⟨⟨hist, hhist⟩, hget, hsame⟩ := hQ
  rcases projectStep_cases hok with ⟨e, he, -, henters⟩ | ⟨-, epoch, rfl⟩
  · obtain ⟨hget', hsame'⟩ := frame_of_enters hhist.wellKeyed (hothers step hstep e he).symm henters
    exact ⟨⟨_, hhist.entered henters⟩, hget'.trans hget, Eq.trans hsame hsame'⟩
  · exact ⟨⟨_, hhist.epoch epoch⟩, hget, hsame⟩

/-- Another Work Order is created while an effect is sent, and it fails. -/
def otherWorkOrder : List (BusinessEvent × Option Batch) :=
  inputOf "other" "create other" .command 0 1 6000
    [.workOrderCreated ⟨plainPlan, 100000, .v1, none, none, none⟩,
      .workOrderStatusChanged .starting .failed "stopped"]

theorem others_untouched_otherWorkOrder : ∃ P P' w x other,
    runAll (projectStep plainEnvironment) initialBusinessProjectionV1 sentEffect = .ok P ∧
      runAll (projectStep plainEnvironment) P otherWorkOrder = .ok P' ∧
      P'.workOrders.get? "other" = some other ∧ other.status = .failed ∧
      P.workOrders.get? "workOrder" = some w ∧ P'.workOrders.get? "workOrder" = some w ∧
      P.outbox.get? "effect" = some x ∧ x.workOrderId = "workOrder" ∧ x.status = .sending ∧
      SameEffects "workOrder" P P' := by
  obtain ⟨P, P', w, x, other, hpast, hrun, hother, hfailed, hw, hx, hid, hsending⟩ :
      ∃ P P' w x other,
      runAll (projectStep plainEnvironment) initialBusinessProjectionV1 sentEffect = .ok P ∧
      runAll (projectStep plainEnvironment) P otherWorkOrder = .ok P' ∧
      P'.workOrders.get? "other" = some other ∧ other.status = .failed ∧
      P.workOrders.get? "workOrder" = some w ∧
      P.outbox.get? "effect" = some x ∧ x.workOrderId = "workOrder" ∧ x.status = .sending :=
    ⟨_, _, _, _, _, rfl, rfl, rfl, rfl, rfl, rfl, rfl, rfl⟩
  obtain ⟨hsame, heffects⟩ := @others_untouched plainEnvironment P P' "workOrder" sentEffect
    otherWorkOrder hpast hrun (by simp [otherWorkOrder, inputOf])
  exact ⟨P, P', w, x, other, hpast, hrun, hother, hfailed, hw, hsame.trans hw, hx, hid, hsending,
    heffects⟩

/-- **What a receipt has checked stays true.**  In every ledger that is replayed, each Work Order
passes the closure checks at the end, whatever was accepted for others since. -/
theorem replay_coherent {entries : List ReplayEntry}
    (h : replayBusinessProjectionV1 env entries initialBusinessProjectionV1 = .ok P)
    (hw : P.workOrders.get? id = some w) : validateDurableInputClosure env P w = .ok () := by
  simp only [replayBusinessProjectionV1, chain_eq_ok] at h
  obtain ⟨final, hrun, hclosed, rfl⟩ := h
  exact (history_of_run hrun).closed id w hw (hclosed w (mem_values_of_get? hw))

theorem replay_coherent_sentAgain : ∃ P w, replayBusinessProjectionV1 plainEnvironment
    (sentAgain.map fun step => .event step.1) initialBusinessProjectionV1 = .ok P ∧
      P.workOrders.get? "workOrder" = some w ∧ w.engineContractVersion = .v2 ∧
      validateDurableInputClosure plainEnvironment P w = .ok () :=
  ⟨_, _, rfl, rfl, rfl, @replay_coherent plainEnvironment _ "workOrder" _
    (sentAgain.map fun step => .event step.1) rfl rfl⟩

end Orquesta
