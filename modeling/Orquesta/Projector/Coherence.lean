import Orquesta.Projector.History

/-!
# Coherence of closed Work Orders

The closure checks of a receipt read the Work Order and its own outbox effects,
and nothing else.  No event of another Work Order changes those, so every Work
Order without a pending input passes the closure checks in every projection that
a history reaches, not only at the moment of its last receipt.

## Main definitions

* `SameEffects id P P'`: the outbox entries of a Work Order are the same

## Main results

* `validateDurableInputClosure_congr`: the closure checks depend only on the Work Order's effects
* `History.closed`: **every closed Work Order passes the closure checks**
-/

namespace Orquesta

open Checked OrderedMap Option

variable {env : Environment} {P P' Q : Projection} {id : Ref} {w : WorkOrder} {b : Branch}
  {e : Event} {bt : Option Batch} {hist : List Event}

/-! ## What the closure checks read -/

/-- The two projections have the same outbox entries for one Work Order. -/
def SameEffects (id : Ref) (P P' : Projection) : Prop :=
  workOrderEffects id P.outbox = workOrderEffects id P'.outbox

theorem mem_workOrderEffects {outbox : OrderedMap Ref Effect} {k : Ref} {x : Effect} :
    (k, x) ∈ workOrderEffects id outbox ↔ outbox.get? k = some x ∧ x.workOrderId = id := by
  simp [workOrderEffects, get?_eq_some]

namespace SameEffects

theorem get?_eq (hs : SameEffects id P P') {k : Ref} {x : Effect} (hx : x.workOrderId = id) :
    P.outbox.get? k = some x ↔ P'.outbox.get? k = some x := by
  have h : (k, x) ∈ workOrderEffects id P.outbox ↔ (k, x) ∈ workOrderEffects id P'.outbox := by
    rw [hs]
  simpa [mem_workOrderEffects, hx] using h

/-- Looking an effect of the Work Order up gives the same answer. -/
theorem exists_mem_iff (hs : SameEffects id P P') {o : Option Ref} {φ : Effect → Prop}
    (hφ : ∀ x, φ x → x.workOrderId = id) :
    (∃ x ∈ o.bind P.outbox.get?, φ x) ↔ ∃ x ∈ o.bind P'.outbox.get?, φ x := by
  cases o with
  | none => simp
  | some k =>
    simp only [bind_some, mem_def]
    refine exists_congr fun x => ?_
    constructor
    · rintro ⟨hget, hx⟩
      exact ⟨(hs.get?_eq (hφ x hx)).mp hget, hx⟩
    · rintro ⟨hget, hx⟩
      exact ⟨(hs.get?_eq (hφ x hx)).mpr hget, hx⟩

/-- Selecting effects of the Work Order gives the same list. -/
theorem filter_values (hs : SameEffects id P P') {q : Effect → Bool}
    (hq : ∀ x, q x = true → x.workOrderId = id) :
    P.outbox.values.filter q = P'.outbox.values.filter q := by
  have key : ∀ m : OrderedMap Ref Effect,
      m.values.filter q = ((workOrderEffects id m).filter fun p => q p.2).map Prod.snd := by
    intro m
    rw [values, List.filter_map, workOrderEffects, List.filter_filter]
    congr 1
    refine List.filter_congr fun p _ => ?_
    cases hp : q p.2 with
    | false => simp [hp]
    | true => simp [hp, hq p.2 hp]
  rw [key, key, hs]

theorem forall_values_iff (hs : SameEffects id P P') {φ : Effect → Prop} :
    (∀ x ∈ P.outbox.values, x.workOrderId = id → φ x) ↔ ∀ x ∈ P'.outbox.values, x.workOrderId = id →
    φ x := by
  simp only [mem_values]
  constructor
  · rintro h x ⟨k, hk⟩ hx
    exact h x ⟨k, (hs.get?_eq hx).mpr hk⟩ hx
  · rintro h x ⟨k, hk⟩ hx
    exact h x ⟨k, (hs.get?_eq hx).mp hk⟩ hx

end SameEffects

section Congruence

variable (hs : SameEffects w.workOrderId P P')
include hs

theorem currentMutations_congr : currentMutations P w b = currentMutations P' w b :=
  hs.filter_values fun _ hx => (of_decide_eq_true hx).1

theorem unresolvedStarts_congr : unresolvedStarts P w b = unresolvedStarts P' w b := by
  rw [unresolvedStarts, currentMutations_congr hs, unresolvedStarts]

theorem currentStarts_congr : currentStarts P w b = currentStarts P' w b :=
  hs.filter_values fun _ hx => (of_decide_eq_true hx).1

theorem acceptedCurrentTurn_congr :
    acceptedCurrentTurn env P w b ↔ acceptedCurrentTurn env P' w b :=
  and_congr_right fun _ => and_congr_right fun _ => hs.exists_mem_iff fun _ hx => hx.2.2.1.1

theorem exactCurrentCancelEffect_congr :
    exactCurrentCancelEffect P w b ↔ exactCurrentCancelEffect P' w b :=
  hs.exists_mem_iff fun _ hx => hx.2.2.1.1

theorem retainedInputUnresolved_congr :
    retainedInputUnresolved P w b ↔ retainedInputUnresolved P' w b := by
  unfold retainedInputUnresolved
  refine forall₂_congr fun k _ => ?_
  simpa using hs.exists_mem_iff (o := some k) fun _ hx => hx.2.1

theorem ambiguityRetained_congr : ambiguityRetained P w b ↔ ambiguityRetained P' w b := by
  unfold ambiguityRetained
  rw [unresolvedStarts_congr hs, currentMutations_congr hs]

/-- Together with the retained submission, which belongs to the Work Order. -/
theorem cancelInputRetained_congr (hr : retainedInputUnresolved P w b) :
    cancelInputRetained P b → cancelInputRetained P' b := by
  rintro (hno | ⟨x, hx, hst⟩)
  · exact Or.inl hno
  · right
    obtain ⟨k, hk, hget⟩ := bind_eq_some_iff.mp hx
    obtain ⟨y, hy, -, hwo, -⟩ := hr k hk
    obtain rfl : y = x := some.inj (hy.symm.trans hget)
    refine ⟨y, ?_, hst⟩
    rw [hk]
    exact (hs.get?_eq hwo).mp hget

theorem checkBranchClosed_congr (h : checkBranchClosed env P w b = .ok ()) :
    checkBranchClosed env P' w b = .ok () := by
  simp only [checkBranchClosed, chain_eq_ok] at h ⊢
  obtain ⟨h₁, h₂, h₃, h₄, h₅, h₆, h₇, h₈, h₉⟩ := h
  refine ⟨(retainedInputUnresolved_congr hs).mp h₁, ?_, ?_, ?_, ?_, ?_, h₇, ?_, ?_⟩
  · rwa [← currentStarts_congr hs]
  · exact fun hb => (ambiguityRetained_congr hs).mp (h₃ hb)
  · rwa [← unresolvedStarts_congr hs]
  · exact fun hb => (acceptedCurrentTurn_congr hs).mp (h₅ hb)
  · rwa [← currentMutations_congr hs]
  · exact fun hb => cancelInputRetained_congr hs h₁ (h₈ hb)
  · exact fun hb => (h₉ hb).imp_left (exactCurrentCancelEffect_congr hs).mp

theorem checkStatusClosed_congr (h : checkStatusClosed P w = .ok ()) :
    checkStatusClosed P' w = .ok () := by
  simp only [checkStatusClosed, chain_eq_ok] at h ⊢
  obtain ⟨h₁, h₂, h₃⟩ := h
  refine ⟨fun ht => ⟨(h₁ ht).1, hs.forall_values_iff.mp (h₁ ht).2⟩, h₂, fun hc => ⟨(h₃ hc).1, ?_⟩⟩
  have hst := hs.forall_values_iff (φ := fun x =>
    ¬ (x.effectKind.isStart ∧ (x.status = .pending ∨ x.status = .claimed)))
  rintro x hx ⟨hwo, hrs⟩
  exact hst.mp (fun y hy hyw hy' => (h₃ hc).2 y hy ⟨hyw, hy'⟩) x hx hwo hrs

/-- **The closure checks read only the Work Order and its own effects.** -/
theorem validateDurableInputClosure_congr (h : validateDurableInputClosure env P w = .ok ()) :
    validateDurableInputClosure env P' w = .ok () := by
  simp only [validateDurableInputClosure, assertWorkOrderEffectContracts, requireLifecycleSnapshot,
    chain_eq_ok, ite_eq_ok, checkAll_eq_ok] at h ⊢
  refine ⟨hs.forall_values_iff.mp h.1, ?_⟩
  rcases h.2 with ⟨hv, hlf, hbrs, hsts⟩ | hv
  · refine Or.inl ⟨hv, ?_, fun b hb => checkBranchClosed_congr hs (hbrs b hb),
      checkStatusClosed_congr hs hsts⟩
    rwa [← show _ = _ from hs]
  · exact Or.inr hv

end Congruence

/-! ## Closed Work Orders stay closed -/

/-- An outbox write for one Work Order leaves the effects of the others alone. -/
theorem OutboxWrite.sameEffects {h : EventHeader} (hw : OutboxWrite h P.outbox P'.outbox)
    (hne : id ≠ h.workOrderId) : SameEffects id P P' := by
  rcases hw with heq | ⟨x, hx, hold, heq⟩
  · rw [SameEffects, heq]
  · rw [SameEffects, heq, workOrderEffects, workOrderEffects]
    refine (filter_entries_set ?_ fun old hget => ?_).symm
    · simpa [hx] using hne.symm
    · have : old.workOrderId = x.workOrderId :=
        congrArg (fun i : EffectIdentity => i.workOrderId) (hold old hget)
      simpa [this, hx] using hne.symm

/-- An event leaves the other Work Orders and their effects alone. -/
theorem frame_of_enters (hk : P.WellKeyed) (hne : id ≠ e.header.workOrderId)
    (h : Enters env P e bt P') :
    P'.workOrders.get? id = P.workOrders.get? id ∧ SameEffects id P P' := by
  cases enters_cases hk h with
  | created p plan bid body workOrders outbox =>
    exact ⟨(workOrders id).trans (if_neg hne.symm), by rw [SameEffects, outbox]⟩
  | wrote w revision pend Q own begun inner writes reduced =>
    subst begun
    refine ⟨(writes.others id hne).trans (get?_set_of_ne _ _ ?_), writes.outbox.sameEffects hne⟩
    exact (hk.workOrders _ w own).1.trans_ne hne.symm
  | closed w revision pend Q src receipt stored own begun body context closure closes =>
    subst begun
    have hid : w.workOrderId ≠ id := (hk.workOrders _ w own).1.trans_ne hne.symm
    refine ⟨?_, by rw [SameEffects, closes.outbox]; rfl⟩
    rw [closes.workOrders]
    exact (get?_set_of_ne _ _ hid).trans (get?_set_of_ne _ _ hid)

/-- The closure checks do not read the pending input or the revision. -/
theorem validateDurableInputClosure_of_outbox {w' : WorkOrder} (hout : P'.outbox = P.outbox)
    (hw : w' = { w with
      revision := w'.revision, pendingProjectionInput := w'.pendingProjectionInput })
    (h : validateDurableInputClosure env P w = .ok ()) :
    validateDurableInputClosure env P' w' = .ok () := by
  have hcl : validateDurableInputClosure env P w' = .ok () := by
    rw [hw]
    exact h
  exact validateDurableInputClosure_congr (by rw [SameEffects, hout]) hcl

/-- Every Work Order without a pending input passes the closure checks. -/
def Projection.ClosedCoherent (env : Environment) (P : Projection) : Prop :=
  ∀ id w, P.workOrders.get? id = some w → w.pendingProjectionInput = none →
    validateDurableInputClosure env P w = .ok ()

theorem Projection.ClosedCoherent.enters (hk : P.WellKeyed) (hc : P.ClosedCoherent env)
    (h : Enters env P e bt P') : P'.ClosedCoherent env := by
  intro id w hw hp
  by_cases hid : id = e.header.workOrderId
  · subst hid
    cases enters_cases hk h with
    | created p plan bid body workOrders outbox =>
      rw [workOrders, if_pos rfl] at hw
      cases hw
      simp [createdWorkOrder] at hp
    | wrote w₀ revision pend Q own begun inner writes reduced =>
      -- inside its input the Work Order has a pending input
      obtain ⟨w', hw', heq⟩ := writes.own
      obtain rfl : w' = w := some.inj (hw'.symm.trans hw)
      rw [heq.pending] at hp
      cases hp
    | closed w₀ revision pend Q src receipt stored own begun body context closure closes =>
      rw [closes.workOrders, ← (hk.workOrders _ w₀ own).1] at hw
      cases (get?_set_self ..).symm.trans hw
      exact validateDurableInputClosure_of_outbox closes.outbox rfl closure
  · obtain ⟨heq, hefs⟩ := frame_of_enters hk hid h
    rw [heq] at hw
    rw [← (hk.workOrders id w hw).1] at hefs
    exact validateDurableInputClosure_congr hefs (hc id w hw hp)

/-- **Closed Work Orders are coherent** in every projection that a history reaches. -/
theorem History.closed (h : History env hist P) : P.ClosedCoherent env := by
  induction h with
  | nil => intro id w hw; simp [initialBusinessProjectionV1] at hw
  | entered h₀ hent ih => exact ih.enters h₀.wellKeyed hent
  | epoch epoch _ ih =>
    exact fun id w hw hp => validateDurableInputClosure_of_outbox rfl rfl (ih id w hw hp)

end Orquesta
