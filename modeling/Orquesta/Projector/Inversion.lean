import Orquesta.Projector.Closure

/-!
# What a reducer of the outbox does

One lemma for each reducer says what it has checked, as far as leases are concerned,
and which effect it has stored.  Later proofs cite these and never unfold a reducer.

## Main definitions

* `Branch.Released`: a branch was let go
* `WorkOrder.Moves`: what may become of a branch
* `Updates`: an effect is replaced by one with the same request

## Main results

* `of_transitionOutbox`: what every status change of an effect has been checked for
* `reduceOutboxEnqueued_cases`, `reduceOutboxClaimed_updates`, … : one for each reducer
-/

namespace Orquesta

open Checked

variable {env : Environment} {P P' : Projection} {h : EventHeader} {w : WorkOrder} {b : Branch}

@[simp] theorem requireWorkOrder_eq_ok :
    requireWorkOrder P h = .ok w ↔ P.workOrders.get? h.workOrderId = some w := by
  simp [requireWorkOrder]

@[simp] theorem requireBranch_eq_ok {r : Ref} :
    requireBranch w r = .ok b ↔ w.branches.get? r = some b := by
  simp [requireBranch]

/-- The branch was let go: it has an attempt, or it is in a state from which it gets on. -/
def Branch.Released (b : Branch) : Prop :=
  b.dispatchId ≠ none ∨ b.state ∉ [.blocked, .failed, .cancelling, .cancelled]

/-- What one branch may become: it stays accepted, and it is let go only if it is `free`. -/
structure Branch.Moves (free : Prop) (b b' : Branch) : Prop where
  branchRef : b'.branchRef = b.branchRef
  accepted : b.state = .accepted → b'.state = .accepted
  released : b'.Released → b.Released ∨ free

/-- The branch is new, or it takes the place of one. -/
def WorkOrder.Moves (free : Ref → Prop) (w : WorkOrder) (b' : Branch) : Prop :=
  (w.branches.get? b'.branchRef = none ∧ (b'.Released → free b'.branchRef)) ∨
    ∃ r b, w.branches.get? r = some b ∧ b.Moves (free r) b'

variable {free : Ref → Prop}

/-- A change that leaves the state and the attempt. -/
theorem Branch.Moves.of_eq {free : Prop} {b b' : Branch} (href : b'.branchRef = b.branchRef)
    (hstate : b'.state = b.state) (hdispatch : b'.dispatchId = b.dispatchId) : b.Moves free b' where
  branchRef := href
  accepted := hstate.trans
  released h := .inl (by rwa [Branch.Released, hstate, hdispatch] at h)

/-! ## New effects -/

theorem of_normalizeEffect {r : EffectRecord} {e : Effect} (he : normalizeEffect env h r = .ok e) :
    e = r.newEffect ∧ r.status = .pending ∧ r.lease = none ∧ r.workOrderId = h.workOrderId := by
  simp only [normalizeEffect, chain_eq_ok] at he
  obtain ⟨⟨-, hsts⟩, hle, -, he⟩ := he
  split at he <;> simp only [chain_eq_ok] at he
  · obtain ⟨-, ⟨hid, -⟩, rfl⟩ := he
    exact ⟨rfl, hsts, hle, hid⟩
  · obtain ⟨-, ⟨hid, -⟩, -, -, -, rfl⟩ := he
    exact ⟨rfl, hsts, hle, hid⟩

theorem of_storeNewEffect {e : Effect} {stored : Option Projection}
    (hs : storeNewEffect P e = .ok stored) :
    stored = none ∨ P.outbox.get? e.effectId = none ∧ stored = some (P.setEffect e) := by
  unfold storeNewEffect at hs
  split at hs
  · simp only [chain_eq_ok] at hs
    obtain ⟨-, -, rfl⟩ := hs
    exact .inl rfl
  · rename_i hget
    cases hs
    exact .inr ⟨hget, rfl⟩

/-- No effect is enqueued for an accepted branch. -/
theorem moves_withEnqueued {e : Effect} {rref : Option ContentRef}
    (hb : w.branches.get? e.branchRef = some b)
    (hchd : checkEnqueued env P w b h e rref = .ok ()) : w.Moves free (b.withEnqueued e rref) := by
  simp only [checkEnqueued, chain_eq_ok] at hchd
  obtain ⟨⟨-, hdispatch, -⟩, hst, -⟩ := hchd
  refine .inr ⟨_, b, hb, ?_, fun hacc => ?_, fun _ => .inl (.inl (by simp [hdispatch]))⟩
  · unfold Branch.withEnqueued
    split
    · rfl
    · cases e.effectKind <;> rfl
  · rw [hacc] at hst
    cases hk : e.effectKind <;> split at hst <;> simp [hk, EffectKind.expectedBranchState] at hst

/-- An effect that was there is left, and one that was not is stored. -/
theorem reduceOutboxEnqueued_cases {r : EffectRecord} {rref : Option ContentRef}
    (hr : reduceOutboxEnqueued env P h r rref = .ok P') :
    P' = P ∨ ∃ w e b, P.workOrders.get? h.workOrderId = some w ∧ normalizeEffect env h r = .ok e ∧
      P.outbox.get? e.effectId = none ∧
      (P' = P.setEffect e ∨
        (∀ free, w.Moves free b) ∧ P' = (P.setEffect e).replaceWorkOrder (w.setBranch b)) := by
  simp only [reduceOutboxEnqueued, chain_eq_ok, requireWorkOrder_eq_ok, requireBranch_eq_ok] at hr
  obtain ⟨w, hw, e, he, -, -, b, hb, hchd, hr⟩ := hr
  split at hr <;> simp only [chain_eq_ok] at hr
  · obtain ⟨stored, hsd, rfl⟩ := hr
    rcases of_storeNewEffect hsd with rfl | ⟨hno, rfl⟩
    · exact .inl rfl
    · exact .inr ⟨w, e, b, hw, he, hno, .inl rfl⟩
  · obtain ⟨-, -, stored, hsd, hr⟩ := hr
    rcases of_storeNewEffect hsd with rfl | ⟨hno, rfl⟩
    · cases hr
      exact .inl rfl
    · simp only [chain_eq_ok] at hr
      obtain ⟨-, -, rfl⟩ := hr
      exact .inr ⟨w, e, _, hw, he, hno, .inr ⟨fun _ => moves_withEnqueued hb hchd, rfl⟩⟩

/-! ## Updates -/

variable {eid : Ref} {ident : EffectIdentity} {e next : Effect}

theorem of_requireOutboxEffect (he : requireOutboxEffect P h eid ident = .ok e) :
    P.outbox.get? eid = some e ∧ e.workOrderId = h.workOrderId := by
  simp only [requireOutboxEffect, chain_eq_ok, require_eq_ok] at he
  obtain ⟨_, hget, hid, -, -, -, -, rfl⟩ := he
  exact ⟨hget, hid⟩

/-- The effect that is stored under the identifier is replaced by one with the same request, and a
branch of the Work Order may change with it. -/
structure Updates (P : Projection) (h : EventHeader) (effectId : Ref) (e next : Effect)
    (P' : Projection) :
    Prop where
  found : P.outbox.get? effectId = some e
  workOrderId : e.workOrderId = h.workOrderId
  request : next.toEffectIdentity = e.toEffectIdentity
  written : P' = P.setEffect next ∨ ∃ w b, P.workOrders.get? h.workOrderId = some w ∧
    (∀ free, w.Moves free b) ∧ P' = (P.setEffect next).replaceWorkOrder (w.setBranch b)

theorem Updates.outbox (hu : Updates P h eid e next P') :
    P'.outbox = (P.setEffect next).outbox := by
  rcases hu.written with rfl | ⟨w, b, -, -, rfl⟩ <;> rfl

theorem updates_setEffect (he : requireOutboxEffect P h eid ident = .ok e)
    (hid : next.toEffectIdentity = e.toEffectIdentity) :
    Updates P h eid e next (P.setEffect next) :=
  ⟨(of_requireOutboxEffect he).1, (of_requireOutboxEffect he).2, hid, .inl rfl⟩

theorem updates_replaceBranch (hw : P.workOrders.get? h.workOrderId = some w)
    (he : requireOutboxEffect P h eid ident = .ok e)
    (hid : next.toEffectIdentity = e.toEffectIdentity) (hb : ∀ free, w.Moves free b) :
    Updates P h eid e next ((P.setEffect next).replaceWorkOrder (w.setBranch b)) :=
  ⟨(of_requireOutboxEffect he).1, (of_requireOutboxEffect he).2, hid, .inr ⟨w, b, hw, hb, rfl⟩⟩

theorem of_transitionOutbox {status : EffectStatus} {mutate : Effect → Projected Effect}
    (ht : transitionOutbox P h eid ident status mutate = .ok next) :
    ∃ e m, requireOutboxEffect P h eid ident = .ok e ∧ status ∈ e.status.transitions ∧
      mutate e = .ok m ∧ next = { m with status, updatedAt := h.occurredAt } := by
  simp only [transitionOutbox, chain_eq_ok] at ht
  obtain ⟨e, he, hst, -, m, hm, -, rfl⟩ := ht
  exact ⟨e, m, he, hst, hm, rfl⟩

theorem reduceOutboxClaimed_updates {l : Lease}
    (hr : reduceOutboxClaimed P h eid ident l = .ok P') :
    ∃ e, Updates P h eid e { e.claim l with status := .claimed, updatedAt := h.occurredAt } P' ∧
      .claimed ∈ e.status.transitions ∧ l.generation = e.leaseGeneration + 1 := by
  simp only [reduceOutboxClaimed, bind_eq_ok, pure_eq_ok] at hr
  obtain ⟨w, -, current, -, -, -, next, hnx, rfl⟩ := hr
  obtain ⟨e, m, he, hst, hm, rfl⟩ := of_transitionOutbox hnx
  simp only [bind_eq_ok, ensure_eq_ok, pure_eq_ok, unit_exists] at hm
  obtain ⟨-, ⟨hgen, -⟩, -, rfl⟩ := hm
  exact ⟨e, updates_setEffect he rfl, hst, hgen⟩

/-- The effect a send begin leaves: a packet proof is kept with it. -/
def Effect.authorized (e : Effect) : Option SendAuthorization → Effect
  | some a => { e with packetVerificationReceipt := some a.packetVerificationReceipt }
  | none => e

theorem reduceOutboxSendBegun_updates {p : SendBegun}
    (hr : reduceOutboxSendBegun env P h p = .ok P') :
    ∃ e l, Updates P h p.effectId e { e.authorized p.authorization with
        status := .sending, updatedAt := h.occurredAt } P' ∧
      .sending ∈ e.status.transitions ∧ e.lease = some l ∧ l.token = p.fencingToken ∧
      h.occurredAt < l.expiresAt := by
  simp only [reduceOutboxSendBegun, bind_eq_ok, pure_eq_ok] at hr
  obtain ⟨current, -, -, -, w, -, -, -, next, hnx, rfl⟩ := hr
  obtain ⟨e, m, he, hst, hm, rfl⟩ := of_transitionOutbox hnx
  simp only [bind_eq_ok, require_eq_ok, ensure_eq_ok, pure_eq_ok, unit_exists] at hm
  obtain ⟨l, hl, ⟨htok, hlv⟩, rfl⟩ := hm
  refine ⟨e, l, ?_, hst, hl, htok, hlv⟩
  cases p.authorization <;> exact updates_setEffect he rfl

theorem reduceOutboxLeaseRenewed_updates {l : Lease}
    (hr : reduceOutboxLeaseRenewed P h eid ident l = .ok P') :
    ∃ e held, Updates P h eid e { e with lease := some l, updatedAt := h.occurredAt } P' ∧
      (e.status = .claimed ∨ e.status = .sending) ∧ e.lease = some held ∧ l.token = held.token ∧
      h.occurredAt < held.expiresAt := by
  simp only [reduceOutboxLeaseRenewed, chain_eq_ok, require_eq_ok] at hr
  obtain ⟨w, -, e, he, -, hst, held, hhe, -, ⟨htok, -, -, -, -, -, hlv, -⟩, rfl⟩ := hr
  exact ⟨e, held, updates_setEffect he rfl, hst, hhe, htok, hlv⟩

theorem reduceOutboxRequeued_updates {token : FencingToken} {reason : String}
    (hr : reduceOutboxRequeued P h eid ident token reason = .ok P') :
    ∃ e l, Updates P h eid e { e with
        lease := none, packetVerificationReceipt := none, lastDeliveryReason := some reason
        status := .pending, updatedAt := h.occurredAt } P' ∧
      .pending ∈ e.status.transitions ∧ e.lease = some l ∧ l.token = token ∧
          l.expiresAt ≤ h.occurredAt := by
  simp only [reduceOutboxRequeued, chain_eq_ok] at hr
  obtain ⟨next, hnx, rfl⟩ := hr
  obtain ⟨e, m, he, hst, hm, rfl⟩ := of_transitionOutbox hnx
  simp only [chain_eq_ok, require_eq_ok] at hm
  obtain ⟨l, hl, ⟨htok, hover⟩, rfl⟩ := hm
  exact ⟨e, l, updates_setEffect he rfl, hst, hl, htok, hover⟩

/-- The effect a settlement leaves. -/
def Effect.settled (e : Effect) (c : Classification) (d : Delivery)
    (policy : Option SettlementPolicy) (occurredAt : Time) : Effect :=
  { e with
    lease := none, delivery := some d, settlementPolicy := policy
    status := c.settledStatus, updatedAt := occurredAt }

theorem reduceOutboxSendExpired_updates {d : Delivery} {binding : Option SendExpiryBinding}
    (hr : reduceOutboxSendExpired P h eid ident d binding = .ok P') :
    ∃ w e l policy, Updates P h eid e (e.settled .deliveryUnknown d policy h.occurredAt) P' ∧
      .deliveryUnknown ∈ e.status.transitions ∧ e.lease = some l ∧ l.expiresAt ≤ h.occurredAt ∧
      checkSendExpiry w e l binding = .ok policy := by
  simp only [reduceOutboxSendExpired, bind_eq_ok, requireWorkOrder_eq_ok] at hr
  obtain ⟨w, hw, next, hnx, hr⟩ := hr
  obtain ⟨e, m, he, hst, hm, rfl⟩ := of_transitionOutbox hnx
  simp only [chain_eq_ok, require_eq_ok] at hm
  obtain ⟨l, hl, hover, -, -, policy, hpolicy, rfl⟩ := hm
  refine ⟨w, e, l, policy, ?_, hst, hl, hover, hpolicy⟩
  split at hr
  · simp only [chain_eq_ok, requireBranch_eq_ok] at hr
    obtain ⟨b, hb, rfl⟩ := hr
    refine updates_replaceBranch hw he ?_ fun _ => .inr ⟨_, b, hb, .of_eq rfl rfl rfl⟩
    rfl
  · cases hr
    exact updates_setEffect he rfl

theorem moves_of_requireCurrentCancel {m : String} (hb : requireCurrentCancel w e m = .ok b) :
    w.Moves free { b with cancelEffectId := none } := by
  simp only [requireCurrentCancel, chain_eq_ok, requireBranch_eq_ok] at hb
  obtain ⟨_, hb, -, rfl⟩ := hb
  exact .inr ⟨_, _, hb, .of_eq rfl rfl rfl⟩

theorem reduceOutboxSettled_updates {c : Classification} {p : OutboxSettled}
    (hr : reduceOutboxSettled P h c p = .ok P') :
    ∃ e policy, Updates P h p.effectId e (e.settled c p.delivery policy h.occurredAt) P' ∧
      c.settledStatus ∈ e.status.transitions ∧
      checkSettlementToken h e p.fencingToken = .ok () := by
  simp only [reduceOutboxSettled, bind_eq_ok, requireWorkOrder_eq_ok] at hr
  obtain ⟨w, hw, next, hnx, hr⟩ := hr
  obtain ⟨e, m, he, hst, hm, rfl⟩ := of_transitionOutbox hnx
  simp only [chain_eq_ok] at hm
  obtain ⟨htok, -, -, policy, -, rfl⟩ := hm
  refine ⟨e, policy, ?_, hst, htok⟩
  split at hr
  · obtain ⟨b, hb, hr⟩ := bind_eq_ok.mp hr
    split at hr <;> cases hr
    · refine updates_replaceBranch hw he ?_ fun _ => moves_of_requireCurrentCancel hb
      rfl
    · exact updates_setEffect he rfl
  · cases hr
    exact updates_setEffect he rfl

/-- The effect a local cancellation leaves. -/
def Effect.cancelled (e : Effect) (reason : String) (occurredAt : Time) : Effect :=
  { e with
    lease := none, lastDeliveryReason := some reason, status := .cancelled
    updatedAt := occurredAt }

theorem reduceOutboxCancelled_updates {reason : String}
    (hr : reduceOutboxCancelled P h eid ident reason = .ok P') :
    ∃ e, Updates P h eid e (e.cancelled reason h.occurredAt) P' ∧
    .cancelled ∈ e.status.transitions := by
  simp only [reduceOutboxCancelled, bind_eq_ok, requireWorkOrder_eq_ok] at hr
  obtain ⟨w, hw, next, hnx, hr⟩ := hr
  obtain ⟨e, m, he, hst, hm, rfl⟩ := of_transitionOutbox hnx
  cases hm
  refine ⟨e, ?_, hst⟩
  split at hr
  · obtain ⟨b, hb, hr⟩ := bind_eq_ok.mp hr
    cases hr
    refine updates_replaceBranch hw he ?_ fun _ => moves_of_requireCurrentCancel hb
    rfl
  · simp only [chain_eq_ok, requireBranch_eq_ok] at hr
    obtain ⟨b, hb, -, rfl⟩ := hr
    refine updates_replaceBranch hw he ?_ fun _ => .inr ⟨_, b, hb, .of_eq rfl rfl rfl⟩
    rfl
  · cases hr
    exact updates_setEffect he rfl

end Orquesta
