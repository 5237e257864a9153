import Orquesta.Projector.Inversion

/-!
# What an event may write

A reducer other than the creation of a Work Order and the receipt writes to the
Work Order of its header, to one outbox effect of that Work Order, and to the
quarantine; it keeps the binding of the Work Order and the pending input, and
never changes what was requested of an effect.  Everything else in the
projection is the frame of the event.

## Main definitions

* `WorkOrder.SameInput`: what stays fixed in the Work Order an event is about
* `OutboxWrite`, `Writes`: what a reducer may write
* `Inside`: what a reducer that is not about the outbox may write
* `Projection.WellKeyed`: every record is stored under its own identifier

## Main results

* `reduceEvent_inside`: only outbox events write effects
* `reduceEvent_writes`: every event but a creation and a receipt only writes that much
-/

namespace Orquesta

open Checked OrderedMap Option

/-! ## The frame -/

/-- The branch is accepted. -/
def WorkOrder.Accepted (w : WorkOrder) (r : Ref) : Prop :=
  ∃ b, w.branches.get? r = some b ∧ b.state = .accepted

/-- The branch was let go. -/
def WorkOrder.Released (w : WorkOrder) (r : Ref) : Prop :=
  ∃ b, w.branches.get? r = some b ∧ b.Released

/-- The binding, the clock and the input of a Work Order, which an event inside the input keeps. -/
structure WorkOrder.SameInput (free : Ref → Prop) (w w' : WorkOrder) : Prop where
  workOrderId : w'.workOrderId = w.workOrderId
  planSnapshotRef : w'.planSnapshotRef = w.planSnapshotRef
  planHash : w'.planHash = w.planHash
  plan : w'.plan = w.plan
  engineContractVersion : w'.engineContractVersion = w.engineContractVersion
  revision : w'.revision = w.revision
  createdAt : w'.createdAt = w.createdAt
  deadlineAt : w'.deadlineAt = w.deadlineAt
  pending : w'.pendingProjectionInput = w.pendingProjectionInput
  branchKeys : w.BranchKeys → w'.BranchKeys
  accepted : w.BranchKeys → ∀ r, w.Accepted r → w'.Accepted r
  released : w.BranchKeys → ∀ r, w'.Released r → w.Released r ∨ free r

/-- At most one effect is written; it belongs to the Work Order of the header, and what was
requested of it stays. -/
def OutboxWrite (h : EventHeader) (outbox outbox' : OrderedMap Ref Effect) : Prop :=
  outbox' = outbox ∨ ∃ e, e.workOrderId = h.workOrderId ∧
    (∀ old, outbox.get? e.effectId = some old → old.toEffectIdentity = e.toEffectIdentity) ∧
    outbox' = outbox.set e.effectId e

/-- What the reducer of an event with header `h` may write, if it lets the branches in `free` go. -/
structure Writes (h : EventHeader) (free : Ref → Prop) (w : WorkOrder) (P P' : Projection) :
    Prop where
  own : ∃ w', P'.workOrders.get? h.workOrderId = some w' ∧ w.SameInput free w'
  others : ∀ id, id ≠ h.workOrderId → P'.workOrders.get? id = P.workOrders.get? id
  outbox : OutboxWrite h P.outbox P'.outbox
  receipts : ∀ n, P'.receipts n = P.receipts n
  epoch : P'.providerSettlementEpoch = P.providerSettlementEpoch

theorem WorkOrder.BranchKeys.setBranch {w : WorkOrder} (h : w.BranchKeys) (b : Branch) :
    (w.setBranch b).BranchKeys := by
  intro r b' hb'
  simp only [WorkOrder.setBranch, get?_set] at hb'
  split at hb'
  · cases hb'
    assumption
  · exact h r b' hb'

variable {free : Ref → Prop}

theorem WorkOrder.Moves.accepted {w : WorkOrder} {b' : Branch} (h : w.Moves free b')
    (hkeys : w.BranchKeys) (r : Ref) (hr : w.Accepted r) : (w.setBranch b').Accepted r := by
  obtain ⟨b, hb, hst⟩ := hr
  simp only [Accepted, setBranch, get?_set]
  split
  · rename_i heq
    subst heq
    rcases h with ⟨hno, -⟩ | ⟨r, b₀, hb₀, hmv⟩
    · cases hno.symm.trans hb
    · rw [hmv.branchRef, hkeys r b₀ hb₀, hb₀] at hb
      cases hb
      exact ⟨b', rfl, hmv.accepted hst⟩
  · exact ⟨b, hb, hst⟩

theorem WorkOrder.Moves.released {w : WorkOrder} {b' : Branch} (h : w.Moves free b')
    (hkeys : w.BranchKeys) (r : Ref) (hr : (w.setBranch b').Released r) :
    w.Released r ∨ free r := by
  obtain ⟨b, hb, hreleased⟩ := hr
  simp only [setBranch, get?_set] at hb
  split at hb
  · rename_i heq
    cases hb
    subst heq
    rcases h with ⟨-, hfree⟩ | ⟨r, b₀, hb₀, hmv⟩
    · exact .inr (hfree hreleased)
    · rw [hmv.branchRef]
      rw [hkeys r b₀ hb₀]
      exact (hmv.released hreleased).imp_left fun h => ⟨b₀, hb₀, h⟩
  · exact .inl ⟨b, hb, hreleased⟩

namespace WorkOrder.SameInput

variable {w : WorkOrder}

theorem refl (w : WorkOrder) : w.SameInput free w := by
  constructor <;> simp +contextual

theorem setBranch {b : Branch} (hb : w.Moves free b) : w.SameInput free (w.setBranch b) where
  workOrderId := rfl
  planSnapshotRef := rfl
  planHash := rfl
  plan := rfl
  engineContractVersion := rfl
  revision := rfl
  createdAt := rfl
  deadlineAt := rfl
  pending := rfl
  branchKeys h := h.setBranch b
  accepted := hb.accepted
  released := hb.released

theorem withStatus (w : WorkOrder) (st : WorkOrderStatus) (reason : String) (t : Time) :
    w.SameInput free (w.withStatus st reason t) := by
  constructor <;> first | rfl | exact id | exact fun _ _ => id | exact fun _ _ => .inl

theorem withAcceptance (w : WorkOrder) (a : Acceptance) :
    w.SameInput free { w with acceptance := a } := by
  constructor <;> first | rfl | exact id | exact fun _ _ => id | exact fun _ _ => .inl

theorem withAttention (w : WorkOrder) (a : OrderedMap Ref Attention) :
    w.SameInput free { w with attention := a } := by
  constructor <;> first | rfl | exact id | exact fun _ _ => id | exact fun _ _ => .inl

end WorkOrder.SameInput

namespace Writes

variable {h : EventHeader} {w w' : WorkOrder} {P : Projection} {e : Effect}

theorem refl (hw : P.workOrders.get? h.workOrderId = some w) : Writes h free w P P :=
  ⟨⟨w, hw, .refl w⟩, fun _ _ => rfl, Or.inl rfl, fun _ => rfl, rfl⟩

theorem replaceWorkOrder (hid : w.workOrderId = h.workOrderId) (hs : w.SameInput free w') :
    Writes h free w P (P.replaceWorkOrder w') where
  own := ⟨w', by simp [Projection.replaceWorkOrder, hs.workOrderId, hid], hs⟩
  others id hne := by
    simp [Projection.replaceWorkOrder, hs.workOrderId, hid, hne.symm]
  outbox := Or.inl rfl
  receipts n := by cases n <;> rfl
  epoch := rfl

/-- Writing an effect as well: it is new, or its request is that of the old one. -/
theorem setEffect {P' : Projection} (hw : Writes h free w (P.setEffect e) P')
    (hout : P'.outbox = (P.setEffect e).outbox) (he : e.workOrderId = h.workOrderId)
    (hold : ∀ old, P.outbox.get? e.effectId = some old →
      old.toEffectIdentity = e.toEffectIdentity) : Writes h free w P P' where
  own := hw.own
  others := hw.others
  outbox := Or.inr ⟨e, he, hold, hout⟩
  receipts n := (hw.receipts n).trans (by cases n <;> rfl)
  epoch := hw.epoch

end Writes

/-! ## Events that are not about the outbox -/

section Inside

variable {env : Environment} {h : EventHeader} {w : WorkOrder} {P P' : Projection}

/-- The branch has failed and was never attempted. -/
def FailedUnattempted (branches : OrderedMap Ref Branch) (r : Ref) : Prop :=
  ∃ b, branches.get? r = some b ∧ b.state = .failed ∧ b.dispatchId = none

/-- The branches that an event lets go: they are made ready, or started after they failed without an
attempt. -/
def EventBody.Releases (body : EventBody) (branches : OrderedMap Ref Branch) (r : Ref) : Prop :=
  match body with
  | .branchInitialized branch state _ => branch.branchRef = r ∧ state = .ready
  | .branchStatusChanged p => p.branchRef = r ∧ (p.fromState = .blocked ∧ p.toState = .ready ∨
      p.toState = .dispatchPending ∧ FailedUnattempted branches r)
  | .attemptOpened p => p.branchRef = r ∧ FailedUnattempted branches r
  | _ => False

/-- What an event that is not about the outbox may write: its Work Order, or the quarantine. -/
inductive Inside (e : Event) (P : Projection) : Projection → Prop
  | same : Inside e P P
  | workOrder {w w' : WorkOrder} (hw : P.workOrders.get? e.header.workOrderId = some w)
    (hsame : w.SameInput (e.body.Releases w.branches) w') : Inside e P (P.replaceWorkOrder w')
  | quarantine (late : OrderedMap Ref LateRecord) : Inside e P { P with lateObservations := late }

theorem Inside.outbox {e : Event} (hin : Inside e P P') : P'.outbox = P.outbox := by
  cases hin <;> rfl

theorem Inside.branch {e : Event} {b : Branch}
    (hw : P.workOrders.get? e.header.workOrderId = some w)
    (hb : w.Moves (e.body.Releases w.branches) b) :
    Inside e P (P.replaceWorkOrder (w.setBranch b)) := .workOrder hw (.setBranch hb)

theorem moves_of_afterObservation {r : Ref} {b b' : Branch} {stage : Option SettledStage}
    {p : RuntimeObserved}
    {t : Time} (hb : w.branches.get? r = some b) (h : b.afterObservation stage p t = .ok b') :
    w.Moves free b' := by
  suffices hsame : b'.branchRef = b.branchRef ∧ b'.state = b.state ∧
    b'.dispatchId = b.dispatchId from
    .inr ⟨r, b, hb, .of_eq hsame.1 hsame.2.1 hsame.2.2⟩
  simp only [Branch.afterObservation, Branch.settle, Branch.settleAccepted, Branch.settleNotSent,
    Branch.observe] at h
  repeat' split at h
  all_goals
    simp only [chain_eq_ok] at h
    grind

/-- The events that write outbox effects. -/
def EventType.isOutbox : EventType → Bool
  | .outboxEnqueued | .outboxClaimed | .outboxSendBegun | .outboxLeaseRenewed | .outboxRequeued
  | .outboxSendExpired | .outboxSettled _ | .outboxCancelled => true
  | _ => false

/-- No other event inside an input touches the outbox. -/
theorem reduceEvent_inside {e : Event} {batch : Option Batch} (hc : e.eventType ≠ .workOrderCreated)
    (hrec : e.eventType.receiptSourceType = none) (hout : e.eventType.isOutbox = false)
    (hr : reduceEvent env P e batch = .ok P') : Inside e P P' := by
  obtain ⟨eid, header, body, ev⟩ := e
  unfold reduceEvent at hr
  cases body <;> dsimp only at hr ⊢ <;> try (cases hout; done)
  case workOrderCreated => exact absurd rfl hc
  case received => simp [Event.eventType, EventBody.eventType, EventType.receiptSourceType] at hrec
  case workOrderStatusChanged =>
    simp only [reduceWorkOrderStatus, chain_eq_ok, requireWorkOrder_eq_ok] at hr
    obtain ⟨w, hw, -, -, -, -, -, rfl⟩ := hr
    exact .workOrder hw (.withStatus ..)
  case contextBudgetVerified =>
    simp only [reduceContextBudget, chain_eq_ok, requireWorkOrder_eq_ok] at hr
    obtain ⟨w, hw, -, hr⟩ := hr
    split at hr
    · obtain ⟨-, rfl⟩ := by simpa only [chain_eq_ok] using hr
      exact .same
    · cases hr
      exact .workOrder hw (.withAcceptance ..)
  case branchInitialized =>
    simp only [reduceBranchInitialized, chain_eq_ok, requireWorkOrder_eq_ok] at hr
    obtain ⟨w, hw, planned, -, rfl, hstate, -, -, -, hr⟩ := hr
    split at hr
    · obtain ⟨-, rfl⟩ := by simpa only [chain_eq_ok] using hr
      exact .same
    · cases hr
      refine .branch hw (.inl ⟨‹_›, fun hreleased => ⟨rfl, ?_⟩⟩)
      rcases hstate with rfl | rfl <;> simp_all [PlanBranch.initial, Branch.Released]
  case attemptOpened =>
    simp only [reduceAttemptOpened, chain_eq_ok, requireWorkOrder_eq_ok, requireBranch_eq_ok] at hr
    obtain ⟨w, hw, b, hb, hst, -, -, -, -, -, -, -, rfl⟩ := hr
    refine .branch hw (.inr ⟨_, b, hb, rfl, fun hacc => by simp [hacc] at hst, fun _ => ?_⟩)
    by_cases hreleased : b.Released
    · exact .inl hreleased
    · rcases hst with hst | hst | hst <;>
        simp_all [Branch.Released, EventBody.Releases, FailedUnattempted]
  case branchStatusChanged =>
    simp only [reduceBranchStatus, chain_eq_ok, requireWorkOrder_eq_ok, requireBranch_eq_ok] at hr
    obtain ⟨w, hw, b, hb, ⟨hfrom, hto⟩, -, resolved, -, -, -, -, rfl⟩ := hr
    refine .branch hw (.inr ⟨_, b, hb, rfl, fun hacc => ?_, fun hreleased => ?_⟩)
    · simp [← hfrom, hacc, BranchState.transitions] at hto
    · by_cases hheld : b.Released
      · exact .inl hheld
      · cases hstate : b.state <;> simp_all [Branch.Released, Branch.withState, EventBody.Releases,
          FailedUnattempted, BranchState.transitions] <;> grind
  case runtimeObserved =>
    simp only [reduceRuntimeObserved, chain_eq_ok, requireWorkOrder_eq_ok] at hr
    obtain ⟨w, hw, -, -, hr⟩ := hr
    split at hr
    · cases hr
      exact .same
    · simp only [chain_eq_ok, requireBranch_eq_ok] at hr
      obtain ⟨b, hb, -, -, -, -, stage, -, -, -, next, hnx, rfl⟩ := hr
      exact .branch hw (moves_of_afterObservation hb hnx)
  case verificationRecorded =>
    simp only [reduceVerification, chain_eq_ok, requireWorkOrder_eq_ok] at hr
    obtain ⟨w, hw, -, hr⟩ := hr
    split at hr
    · simp only [chain_eq_ok, requireBranch_eq_ok] at hr
      obtain ⟨b, hb, -, -, c, -, req, -, -, -, -, rfl⟩ := hr
      exact .branch hw (.inr ⟨_, b, hb, .of_eq rfl rfl rfl⟩)
    · cases hr
  case reviewRecorded =>
    simp only [reduceReview, chain_eq_ok, requireWorkOrder_eq_ok] at hr
    obtain ⟨w, hw, -, hr⟩ := hr
    split at hr
    · simp only [chain_eq_ok] at hr
      obtain ⟨b, -, -, -, -, rfl⟩ := hr
      exact .workOrder hw (.withAcceptance ..)
    · cases hr
  case acceptanceRecorded =>
    simp only [reduceAcceptance, chain_eq_ok, requireWorkOrder_eq_ok] at hr
    obtain ⟨w, hw, -, -, -, -, rfl⟩ := hr
    exact .workOrder hw (.withAcceptance ..)
  case lateObservationQuarantined =>
    simp only [reduceLateObservation, chain_eq_ok] at hr
    obtain ⟨-, -, rfl⟩ := hr
    exact .quarantine _
  case recoveryProbeRecorded =>
    -- a journalled probe changes nothing
    simp only [reduceRecoveryProbeRecorded, chain_eq_ok] at hr
    obtain ⟨-, hr⟩ := hr
    split at hr
    · simp only [chain_eq_ok] at hr
      obtain ⟨e, -, -, -, policy, -, rfl⟩ := hr
      exact .same
    · cases hr
  case attentionOpened =>
    simp only [reduceAttentionOpened, chain_eq_ok, requireWorkOrder_eq_ok] at hr
    obtain ⟨w, hw, -, -, -, -, rfl⟩ := hr
    exact .workOrder hw (.withAttention ..)
  case attentionResolved =>
    simp only [reduceAttentionResolved, chain_eq_ok, requireWorkOrder_eq_ok] at hr
    obtain ⟨w, hw, a, -, -, rfl⟩ := hr
    exact .workOrder hw (.withAttention ..)

/-- An outbox event replaces an effect, or it enqueues one. -/
theorem reduceEvent_updates {e : Event} {b : Option Batch} (hout : e.eventType.isOutbox)
    (hr : reduceEvent env P e b = .ok P') : (∃ id x next, Updates P e.header id x next P') ∨
      ∃ r rref, reduceOutboxEnqueued env P e.header r rref = .ok P' := by
  obtain ⟨eid, header, body, ev⟩ := e
  unfold reduceEvent at hr
  cases body <;> dsimp only at hr <;> try (cases hout; done)
  case outboxEnqueued => exact .inr ⟨_, _, hr⟩
  case outboxClaimed =>
    obtain ⟨x, hu, -⟩ := reduceOutboxClaimed_updates hr
    exact .inl ⟨_, _, _, hu⟩
  case outboxSendBegun =>
    obtain ⟨x, l, hu, -⟩ := reduceOutboxSendBegun_updates hr
    exact .inl ⟨_, _, _, hu⟩
  case outboxLeaseRenewed =>
    obtain ⟨x, held, hu, -⟩ := reduceOutboxLeaseRenewed_updates hr
    exact .inl ⟨_, _, _, hu⟩
  case outboxRequeued =>
    obtain ⟨x, l, hu, -⟩ := reduceOutboxRequeued_updates hr
    exact .inl ⟨_, _, _, hu⟩
  case outboxSendExpired =>
    obtain ⟨_, x, l, policy, hu, -⟩ := reduceOutboxSendExpired_updates hr
    exact .inl ⟨_, _, _, hu⟩
  case outboxSettled =>
    obtain ⟨x, policy, hu, -⟩ := reduceOutboxSettled_updates hr
    exact .inl ⟨_, _, _, hu⟩
  case outboxCancelled =>
    obtain ⟨x, hu, -⟩ := reduceOutboxCancelled_updates hr
    exact .inl ⟨_, _, _, hu⟩

end Inside

/-! ## All events -/

/-- Every record is stored under its own identifier. -/
structure Projection.WellKeyed (P : Projection) : Prop where
  workOrders : ∀ k w, P.workOrders.get? k = some w → w.workOrderId = k ∧ w.BranchKeys
  outbox : ∀ k e, P.outbox.get? k = some e → e.effectId = k

section Reducers

variable {env : Environment} {h : EventHeader} {w : WorkOrder} {P P' : Projection}
  (hk : P.WellKeyed) (hw : P.workOrders.get? h.workOrderId = some w)
include hk hw

/-- A new version of an effect that an update was allowed to read, with or without a branch. -/
theorem Updates.writes {id : Ref} {e next : Effect} (hu : Updates P h id e next P') :
    Writes h free w P P' := by
  have hnx : next.workOrderId = h.workOrderId :=
    (congrArg (fun i : EffectIdentity => i.workOrderId) hu.request).trans hu.workOrderId
  have hold : ∀ old, P.outbox.get? next.effectId = some old →
      old.toEffectIdentity = next.toEffectIdentity := by
    intro old hold
    have hkey : next.effectId = e.effectId := congrArg EffectIdentity.effectId hu.request
    rw [hkey, hk.outbox id e hu.found, hu.found] at hold
    exact some.inj hold ▸ hu.request.symm
  rcases hu.written with rfl | ⟨w', b, hw', hb, rfl⟩
  · exact Writes.setEffect (.refl hw) rfl hnx hold
  · obtain rfl : w = w' := some.inj (hw.symm.trans hw')
    exact Writes.setEffect (.replaceWorkOrder (hk.workOrders _ w hw).1 (.setBranch (hb _)))
      rfl hnx hold

theorem reduceOutboxEnqueued_writes {r : EffectRecord} {rref : Option ContentRef}
    (hr : reduceOutboxEnqueued env P h r rref = .ok P') : Writes h free w P P' := by
  rcases reduceOutboxEnqueued_cases hr with rfl | ⟨w', e, b, hw', he, hno, hP⟩
  · exact .refl hw
  obtain rfl : w = w' := some.inj (hw.symm.trans hw')
  obtain ⟨rfl, -, -, hid⟩ := of_normalizeEffect he
  rcases hP with rfl | ⟨hb, rfl⟩
  · exact Writes.setEffect (.refl hw) rfl hid (by simp [hno])
  · exact Writes.setEffect (.replaceWorkOrder (hk.workOrders _ w hw).1 (.setBranch (hb _))) rfl hid
      (by simp [hno])

end Reducers

variable {env : Environment} {w : WorkOrder} {P P' : Projection} {e : Event}

theorem Inside.writes (hin : Inside e P P') (hk : P.WellKeyed)
    (hw : P.workOrders.get? e.header.workOrderId = some w) :
    Writes e.header (e.body.Releases w.branches) w P P' := by
  cases hin with
  | same => exact .refl hw
  | workOrder hw' heq =>
    obtain rfl := some.inj (hw.symm.trans hw')
    exact .replaceWorkOrder (hk.workOrders _ _ hw).1 heq
  | quarantine late =>
    exact ⟨⟨w, hw, .refl w⟩, fun _ _ => rfl, Or.inl rfl, fun n => by cases n <;> rfl, rfl⟩

/-- **The frame of an event.**  Apart from the creation of a Work Order and the receipt, an event
writes at most its own Work Order, one of its effects, and the quarantine. -/
theorem reduceEvent_writes {b : Option Batch} (hk : P.WellKeyed)
    (hw : P.workOrders.get? e.header.workOrderId = some w) (hc : e.eventType ≠ .workOrderCreated)
    (hrec : e.eventType.receiptSourceType = none) (hr : reduceEvent env P e b = .ok P') :
    Writes e.header (e.body.Releases w.branches) w P P' := by
  by_cases hout : e.eventType.isOutbox = false
  · exact (reduceEvent_inside hc hrec hout hr).writes hk hw
  · rcases reduceEvent_updates (by simpa using hout) hr with ⟨id, x, next, hu⟩ | ⟨r, rref, hr⟩
    · exact hu.writes hk hw
    · exact reduceOutboxEnqueued_writes hk hw hr

end Orquesta
