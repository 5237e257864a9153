import Orquesta.Projector.Coherence
import Orquesta.Library.FencedLease

/-!
# Lease fencing

The outbox reducers refine the fenced-lease automaton: what a history does to one
effect is a run of the automaton, and the projected effect is the state that run
ends in.  The laws of the automaton are therefore laws of every accepted history.

## Main definitions

* `leaseActions effectId hist`: what a history does to one effect
* `Effect.LeaseState`: the abstraction relation

## Main results

* `reduceEvent_lease`: one event is one step of the automaton, or leaves the effect alone
* `History.lease_run`: every history refines the automaton
* `lease_fencing`: **the fencing law**
-/

namespace Orquesta

open Checked FencedLease OrderedMap

variable {env : Environment} {P P' Q : Projection} {e : Event} {b : Option Batch}
  {hist : List Event}

/-! ## The abstraction -/

def EffectStatus.leasePhase : EffectStatus → Phase
  | .pending => .idle
  | .claimed => .held
  | .sending => .sending
  | .deliveryUnknown => .ambiguous
  | .delivered | .notSent | .cancelled => .closed

/-- What an event does to the lease of one effect. -/
def Event.leaseAction? (effectId : Ref) (e : Event) : Option (Action FencingToken) :=
  let time := e.header.occurredAt
  match e.body with
  | .outboxClaimed id _ l => if id = effectId then some (.claim l.token time l.expiresAt) else none
  | .outboxSendBegun p => if p.effectId = effectId then some (.send p.fencingToken time) else none
  | .outboxLeaseRenewed id _ l =>
    if id = effectId then some (.renew l.token time l.expiresAt) else none
  | .outboxRequeued id _ token _ => if id = effectId then some (.requeue token time) else none
  | .outboxSendExpired id _ _ binding =>
    if id = effectId then some (.expire (binding.map SendExpiryBinding.fencingToken) time) else none
  | .outboxSettled _ p => if p.effectId = effectId then some (.settle p.fencingToken time) else none
  | .outboxCancelled id _ _ => if id = effectId then some .cancel else none
  | _ => none

/-- What a history does to the lease of one effect, in order. -/
def leaseActions (effectId : Ref) (hist : List Event) : List (Action FencingToken) :=
  hist.filterMap (Event.leaseAction? effectId)

/-- The state of the automaton an effect stands for; `fencing_history` is kept for V2 effects. -/
structure Effect.LeaseState (x : Effect) (s : State FencingToken) : Prop where
  phase : s.phase = x.status.leasePhase
  lease : s.lease = x.lease.map fun l => (l.token, l.expiresAt)
  generation : s.issued.length = x.leaseGeneration
  fencing : x.effectContractVersion = .v2 → s.issued = x.fencingHistory

/-- From every state it stands for, the effect `x` takes the step `a` to `x'`. -/
def LeaseStep (x : Effect) (a : Action FencingToken) (x' : Effect) : Prop :=
  ∀ s, x.LeaseState s → ∃ s', Step FencingToken.generation s a s' ∧ x'.LeaseState s'

/-! ## One effect -/

section Effects

attribute [local simp] EffectStatus.transitions EffectStatus.leasePhase Classification.settledStatus

variable {x : Effect} {l : Lease} {t : Time} {token : FencingToken}

theorem Effect.LeaseState.lease_eq {s : State FencingToken} (hs : x.LeaseState s)
    (hl : x.lease = some l) : s.lease = some (l.token, l.expiresAt) := by
  rw [hs.lease, hl]
  rfl

theorem claim_leaseStep (hst : .claimed ∈ x.status.transitions)
    (hg : l.generation = x.leaseGeneration + 1) :
    LeaseStep x (.claim l.token t l.expiresAt)
    { x.claim l with status := .claimed, updatedAt := t } := by
  intro s hs
  have hph : s.phase = .idle := by
    rw [hs.phase]
    cases hx : x.status <;> simp_all
  have hnx : l.token.generation = s.issued.length + 1 := hg.trans (by rw [hs.generation])
  refine ⟨_, .claim hph hnx, ⟨rfl, rfl, ?_, ?_⟩⟩
  · simp [Effect.claim, hg, hs.generation]
  · intro hv
    have hv : x.effectContractVersion = .v2 := hv
    simp [Effect.claim, hv, hs.fencing hv]

theorem send_leaseStep {authorization : Option SendAuthorization}
    (hst : .sending ∈ x.status.transitions) (hl : x.lease = some l) (htok : l.token = token)
    (hlv : t < l.expiresAt) :
    LeaseStep x (.send token t)
    { x.authorized authorization with status := .sending, updatedAt := t } := by
  intro s hs
  have hph : s.phase = .held := by
    rw [hs.phase]
    cases hx : x.status <;> simp_all
  refine ⟨_, .send hph (htok ▸ hs.lease_eq hl) hlv, ?_⟩
  cases authorization <;> exact ⟨rfl, hs.lease, hs.generation, hs.fencing⟩

theorem renew_leaseStep {l' : Lease} (hst : x.status = .claimed ∨ x.status = .sending)
    (hl : x.lease = some l) (htok : l'.token = l.token) (hlv : t < l.expiresAt) :
    LeaseStep x (.renew l'.token t l'.expiresAt) { x with lease := some l', updatedAt := t } := by
  intro s hs
  have hph : s.phase = .held ∨ s.phase = .sending := by
    rw [hs.phase]
    exact hst.imp (fun h => by rw [h]; rfl) fun h => by rw [h]; rfl
  exact ⟨_, .renew hph (htok ▸ hs.lease_eq hl) hlv, ⟨hs.phase, rfl, hs.generation, hs.fencing⟩⟩

theorem requeue_leaseStep {reason : String} (hst : .pending ∈ x.status.transitions)
    (hl : x.lease = some l) (htok : l.token = token) (hover : l.expiresAt ≤ t) :
    LeaseStep x (.requeue token t) { x with
      lease := none, packetVerificationReceipt := none, lastDeliveryReason := some reason
      status := .pending, updatedAt := t } := by
  intro s hs
  have hph : s.phase = .held := by
    rw [hs.phase]
    cases hx : x.status <;> simp_all
  exact ⟨_, .requeue hph (htok ▸ hs.lease_eq hl) hover, ⟨rfl, rfl, hs.generation, hs.fencing⟩⟩

theorem expire_leaseStep (d : Delivery) {w : WorkOrder} {binding : Option SendExpiryBinding}
    {policy : Option SettlementPolicy} (hst : .deliveryUnknown ∈ x.status.transitions)
    (hl : x.lease = some l) (hover : l.expiresAt ≤ t)
    (hb : checkSendExpiry w x l binding = .ok policy) :
    LeaseStep x (.expire (binding.map SendExpiryBinding.fencingToken) t)
      (x.settled .deliveryUnknown d policy t) := by
  intro s hs
  have hph : s.phase = .sending := by
    rw [hs.phase]
    cases hx : x.status <;> simp_all
  have heq : ∀ t' ∈ binding.map SendExpiryBinding.fencingToken, t' = l.token := by
    -- a V1 expiration names no token, a V2 one names that of the lease
    unfold checkSendExpiry at hb
    cases hv : x.effectContractVersion with
    | v1 => simp_all
    | v2 =>
      simp only [hv, chain_eq_ok, require_eq_ok] at hb
      obtain ⟨-, v2, rfl, ⟨htok, -⟩, -⟩ := hb
      simp [htok]
  exact ⟨_, .expire hph (hs.lease_eq hl) hover heq, ⟨rfl, rfl, hs.generation, hs.fencing⟩⟩

theorem settle_leaseStep (d : Delivery) (policy : Option SettlementPolicy) {h : EventHeader}
    {c : Classification} {token : Option FencingToken}
    (hst : c.settledStatus ∈ x.status.transitions)
    (htok : checkSettlementToken h x token = .ok ()) :
    LeaseStep x (.settle token h.occurredAt) (x.settled c d policy h.occurredAt) := by
  intro s hs
  unfold checkSettlementToken at htok
  split at htok
  · -- reconciling an ambiguous send resolves it
    rename_i hamb
    obtain rfl : token = none := by simpa using htok
    have hph : s.phase = .ambiguous := by rw [hs.phase, hamb]; rfl
    refine ⟨_, .reconcile hph, ⟨?_, rfl, hs.generation, hs.fencing⟩⟩
    rw [hamb] at hst
    cases c <;> simp_all [Effect.settled]
  · rename_i hamb
    simp only [chain_eq_ok, require_eq_ok] at htok
    obtain ⟨t, rfl, l, hl, rfl, hlv⟩ := htok
    have hph : s.phase = .held ∨ s.phase = .sending := by
      rw [hs.phase]
      cases hx : x.status <;> cases c <;> simp_all
    refine ⟨_, .settle hph (hs.lease_eq hl) hlv ?_, ⟨rfl, rfl, hs.generation, hs.fencing⟩⟩
    cases c <;> simp [Effect.settled]

theorem cancel_leaseStep (reason : String) (hst : .cancelled ∈ x.status.transitions) :
    LeaseStep x .cancel (x.cancelled reason t) := by
  intro s hs
  have hph : s.phase = .idle ∨ s.phase = .held := by
    rw [hs.phase]
    cases hx : x.status <;> simp_all
  exact ⟨_, .cancel hph, ⟨rfl, rfl, hs.generation, hs.fencing⟩⟩

end Effects

/-! ## One event -/

/-- What an event may do to the effect stored under `k`: take the step it stands for, or, when it
stands for none, leave the effect alone or enqueue it. -/
def LeaseEffect (e : Event) (k : Ref) (P P' : Projection) : Prop :=
  match e.leaseAction? k with
  | some a => ∃ x x', P.outbox.get? k = some x ∧ P'.outbox.get? k = some x' ∧ LeaseStep x a x'
  | none => P'.outbox.get? k = P.outbox.get? k ∨
      P.outbox.get? k = none ∧ ∃ x, P'.outbox.get? k = some x ∧ x.LeaseState .initial

theorem leaseEffect_of_same {k : Ref} (ha : e.leaseAction? k = none)
    (hout : P'.outbox = P.outbox) : LeaseEffect e k P P' := by
  rw [LeaseEffect, ha]
  exact Or.inl (by rw [hout])

/-- An update of the effect an event names is the step it stands for, and touches no other. -/
theorem leaseEffect_of_update {id k : Ref} {h : EventHeader} {x next : Effect}
    {a : Action FencingToken}
    (hk : P.WellKeyed) (ha : e.leaseAction? k = if id = k then some a else none)
    (hu : Updates P h id x next P') (hstp : LeaseStep x a next) : LeaseEffect e k P P' := by
  have hkey : next.effectId = id :=
    (congrArg EffectIdentity.effectId hu.request).trans (hk.outbox id x hu.found)
  rw [LeaseEffect, ha, hu.outbox, Projection.setEffect, hkey]
  by_cases hik : id = k
  · subst hik
    simp only [if_true]
    exact ⟨x, next, hu.found, get?_set_self .., hstp⟩
  · simp only [hik, if_false]
    exact Or.inl (get?_set_of_ne _ _ hik)

theorem reduceOutboxEnqueued_lease {k : Ref} {h : EventHeader} {r : EffectRecord}
    {rref : Option ContentRef} (ha : e.leaseAction? k = none)
    (hr : reduceOutboxEnqueued env P h r rref = .ok P') : LeaseEffect e k P P' := by
  rcases reduceOutboxEnqueued_cases hr with rfl | ⟨w, x, b, -, hx, hno, hP⟩
  · exact leaseEffect_of_same ha rfl
  obtain ⟨hnew, hst, hl, -⟩ := of_normalizeEffect hx
  have hout : P'.outbox = P.outbox.set x.effectId x := by
    rcases hP with rfl | ⟨-, rfl⟩ <;> rfl
  rw [LeaseEffect, ha, hout]
  by_cases hxk : x.effectId = k
  · subst hxk
    refine Or.inr ⟨hno, x, get?_set_self .., ?_⟩
    rw [hnew]
    refine ⟨?_, ?_, rfl, fun _ => rfl⟩
    · rw [EffectRecord.newEffect, hst]
      rfl
    · rw [EffectRecord.newEffect, hl]
      rfl
  · exact Or.inl (get?_set_of_ne _ _ hxk)

/-- **One event is one step.** -/
theorem reduceEvent_lease (hk : P.WellKeyed) (hc : e.eventType ≠ .workOrderCreated)
    (hrec : e.eventType.receiptSourceType = none) (hr : reduceEvent env P e b = .ok P')
    (k : Ref) : LeaseEffect e k P P' := by
  by_cases hout : e.eventType.isOutbox = false
  · refine leaseEffect_of_same ?_ (reduceEvent_inside hc hrec hout hr).outbox
    rw [Event.eventType] at hout
    unfold Event.leaseAction?
    cases hb : e.body <;> simp_all [EventBody.eventType, EventType.isOutbox]
  · obtain ⟨eid, header, body, ev⟩ := e
    unfold reduceEvent at hr
    cases body <;> dsimp only at hr <;> try exact absurd rfl hout
    case outboxEnqueued => exact reduceOutboxEnqueued_lease rfl hr
    case outboxClaimed =>
      obtain ⟨x, hu, hst, hl⟩ := reduceOutboxClaimed_updates hr
      exact leaseEffect_of_update hk rfl hu (claim_leaseStep hst hl)
    case outboxSendBegun =>
      obtain ⟨x, l, hu, hst, hl, htok, hlv⟩ := reduceOutboxSendBegun_updates hr
      exact leaseEffect_of_update hk rfl hu (send_leaseStep hst hl htok hlv)
    case outboxLeaseRenewed =>
      obtain ⟨x, held, hu, hst, hl, htok, hlv⟩ := reduceOutboxLeaseRenewed_updates hr
      exact leaseEffect_of_update hk rfl hu (renew_leaseStep hst hl htok hlv)
    case outboxRequeued =>
      obtain ⟨x, l, hu, hst, hl, htok, hover⟩ := reduceOutboxRequeued_updates hr
      exact leaseEffect_of_update hk rfl hu (requeue_leaseStep hst hl htok hover)
    case outboxSendExpired d _ =>
      obtain ⟨w, x, l, policy, hu, hst, hl, hover, hb⟩ := reduceOutboxSendExpired_updates hr
      exact leaseEffect_of_update hk rfl hu (expire_leaseStep d hst hl hover hb)
    case outboxSettled p =>
      obtain ⟨x, policy, hu, hst, htok⟩ := reduceOutboxSettled_updates hr
      exact leaseEffect_of_update hk rfl hu (settle_leaseStep p.delivery policy hst htok)
    case outboxCancelled reason =>
      obtain ⟨x, hu, hst⟩ := reduceOutboxCancelled_updates hr
      exact leaseEffect_of_update hk rfl hu (cancel_leaseStep (t := header.occurredAt) reason hst)

/-! ## Histories -/

theorem leaseActions_snoc (k : Ref) (hist : List Event) (e : Event) :
    leaseActions k (hist ++ [e]) = leaseActions k hist ++ (e.leaseAction? k).toList := by
  cases h : e.leaseAction? k <;> simp [leaseActions, h]

/-- What the history did to the effect stored under `k` is a run of the automaton that ends in the
effect; nothing was done to an effect that does not exist. -/
def LeaseRun (hist : List Event) (k : Ref) : Option Effect → Prop
  | some x => ∃ s, Run FencingToken.generation (leaseActions k hist) s ∧ x.LeaseState s
  | none => leaseActions k hist = []

theorem LeaseRun.step {k : Ref} (hrun : LeaseRun hist k (P.outbox.get? k))
    (h : LeaseEffect e k P P') : LeaseRun (hist ++ [e]) k (P'.outbox.get? k) := by
  unfold LeaseEffect at h
  split at h
  · rename_i a ha
    obtain ⟨x, x', hx, hx', hstp⟩ := h
    rw [hx] at hrun
    obtain ⟨s, run, hs⟩ := hrun
    obtain ⟨s', step, hs'⟩ := hstp s hs
    rw [hx', LeaseRun, leaseActions_snoc, ha]
    exact ⟨s', run.snoc step, hs'⟩
  · rename_i ha
    have hsam : leaseActions k (hist ++ [e]) = leaseActions k hist := by
      rw [leaseActions_snoc, ha, Option.toList_none, List.append_nil]
    rcases h with heq | ⟨hno, x, hx, hinit⟩
    · rw [heq]
      cases hget : P.outbox.get? k with
      | none =>
        rw [hget] at hrun
        exact hsam.trans hrun
      | some x =>
        rw [hget] at hrun
        obtain ⟨s, run, hs⟩ := hrun
        exact ⟨s, hsam ▸ run, hs⟩
    · rw [hno] at hrun
      rw [hx, LeaseRun, hsam, show leaseActions k hist = [] from hrun]
      exact ⟨_, .nil, hinit⟩

/-- The events that create or close an input do nothing to a lease. -/
theorem enters_lease (hk : P.WellKeyed) (h : Enters env P e b P') (k : Ref) :
    LeaseEffect e k P P' := by
  cases enters_cases hk h with
  | created p plan bid body workOrders outbox =>
    exact leaseEffect_of_same (by simp [Event.leaseAction?, body]) outbox
  | wrote w revision pend Q own begun inner writes reduced =>
    subst begun
    exact reduceEvent_lease (hk.replaceWorkOrder (w := w.withInput revision pend)
      (hk.workOrders _ w own).2) inner.1 inner.2 reduced k
  | closed w revision pend Q src receipt stored own begun body context closure closes =>
    subst begun
    exact leaseEffect_of_same (by simp [Event.leaseAction?, body]) closes.outbox

/-- **Histories refine the automaton.** -/
theorem History.lease_run (h : History env hist P) (k : Ref) :
    LeaseRun hist k (P.outbox.get? k) := by
  induction h with
  | nil => exact (rfl : leaseActions k [] = [])
  | entered h₀ hent ih => exact ih.step (enters_lease h₀.wellKeyed hent k)
  | epoch epoch _ ih => exact ih

/-- **Lease fencing.**  Let `actions` be what an accepted run did to one V2 effect.  Its claims have
the generations 1, 2, 3, … and `fencing_history` lists their tokens; a token is presented only
while it is the newest and was not requeued; a lease holder acts strictly before the expiry in
force, and a lease is taken away only at or after it; so no token is both sent and requeued. -/
theorem lease_fencing {steps : List (BusinessEvent × Option Batch)} {effectId : Ref} {x : Effect}
    (hrun : runAll (projectStep env) initialBusinessProjectionV1 steps = .ok P)
    (hx : P.outbox.get? effectId = some x) (hv : x.effectContractVersion = .v2) :
    let actions := leaseActions effectId (enteredEvents env initialBusinessProjectionV1 steps)
    ((claims actions).map FencingToken.generation = List.range' 1 (claims actions).length ∧
      x.fencingHistory = claims actions) ∧
    (∀ pre a post token, actions = pre ++ a :: post → a.presents = some token →
      (claims pre).getLast? = some token ∧ ∀ time, .requeue token time ∉ pre) ∧
    (∀ pre a post token time, actions = pre ++ a :: post →
      (a = .send token time ∨ (∃ expiry, a = .renew token time expiry) ∨
        a = .settle (some token) time) →
      ∃ expiry, inForce pre = some (token, expiry) ∧ time < expiry) ∧
    (∀ pre a post time, actions = pre ++ a :: post →
      ((∃ token, a = .requeue token time) ∨ ∃ token, a = .expire token time) →
      ∃ token expiry, inForce pre = some (token, expiry) ∧ expiry ≤ time) ∧
    ∀ token time time', .send token time ∈ actions → .requeue token time' ∉ actions := by
  intro actions
  have hlease := (history_of_run hrun).lease_run effectId
  rw [hx] at hlease
  obtain ⟨s, run, hs⟩ := hlease
  change Run FencingToken.generation actions s at run
  refine ⟨⟨run.generations, ?_⟩, ?_, ?_, ?_, ?_⟩
  · rw [← hs.fencing hv]
    exact run.issued_eq
  · intro pre a post token hsplit hpresents
    rw [hsplit] at run
    exact run.fenced hpresents
  · intro pre a post token time hsplit ha
    rw [hsplit] at run
    exact run.before_expiry ha
  · intro pre a post time hsplit ha
    rw [hsplit] at run
    exact run.after_expiry ha
  · intro token time time' hsend
    exact run.not_send_and_requeue hsend

/-! ## An example -/

/-- All hashes are alike but those of two generations, and there is no settlement epoch. -/
def plainEnvironment : Environment where
  canonicalHash _ := "hash"
  derivedId _
    | .effectSeed seed => if seed.operationGeneration = 1 then "effect" else "successor"
    | _ => "id"
  projectionHash _ := "hash"
  settlementEpoch _ := none
  packetReceiptBinds _ _ _ := false
  sendAuthorizationBundleValid _ := false
  baseEntryWindow _ := none
  advanceEntryWindow _ _ _ _ _ := none

def plainBranch : PlanBranch := ⟨"branch", [], .work, "assignee", "provider"⟩

/-- One branch, with one criterion. -/
def plainPlan : Plan where
  planSnapshotId := "plan"
  planHash := "hash"
  criteria := [⟨"criterion", [⟨.human, ⟨"check", "hash"⟩⟩]⟩]
  reviewMinimum := .light
  branches := [plainBranch]
  integrationBranchRef := none
  maxConcurrency := 1
  contextDuplicationBudgetTokens := 0
  retryPolicy := ⟨1, 1000, 1000, 0, 0, []⟩
  leasePolicy := ⟨5000, 1000, 1⟩
  allowedProviderRefs := ["provider"]

/-- The creation of the thread of the first attempt. -/
def threadCreation : EffectIdentity where
  effectContractVersion := .v2
  workOrderId := "workOrder"
  branchRef := "branch"
  attempt := 1
  dispatchId := "dispatch"
  effectKind := .threadCreate
  originSourceId := "create"
  operationScopeHash := "hash"
  operationGeneration := 1
  generationPredecessorEffectId := none
  providerRef := "provider"
  packetRef := "packet"
  packetHash := "hash"
  predecessorEffectId := none
  predecessorDeliveryHash := none
  targetRuntimeIdentity := none
  effectId := "effect"
  idempotencyKey := "effect"
  createdAt := 0

/-- Its successor, after it was proven not sent. -/
def nextCreation : EffectIdentity :=
  { threadCreation with
    originSourceId := "settle", operationGeneration := 2
    generationPredecessorEffectId := some "effect"
    effectId := "successor", idempotencyKey := "successor", createdAt := 5004 }

/-- The events of one input for a Work Order and its receipt, each on its own. -/
def inputOf (workOrderId sourceId : Ref) (sourceType : SourceType) (prior target : Nat)
    (occurredAt : Time) (bodies : List EventBody) : List (BusinessEvent × Option Batch) :=
  let ids := (List.range bodies.length).map fun i => sourceId ++ toString i
  let receipt : Receipt := ⟨sourceId, sourceType, "hash", "hash", workOrderId, target, "batch", ids,
    ⟨none, none, none, none⟩, none⟩
  (bodies ++ [EventBody.received sourceType receipt]).zipIdx.map fun entry =>
    (.domain ⟨sourceId ++ toString entry.2,
      ⟨workOrderId, "plan", "hash", sourceId, prior, target, occurredAt⟩, entry.1, []⟩, none)

abbrev plainInput := inputOf "workOrder"

/-- A Work Order is created with its first attempt.  The lease of its effect expires, and it is sent
under a second one. -/
def sentEffect : List (BusinessEvent × Option Batch) :=
  plainInput "create" .command 0 1 0
    [.workOrderCreated ⟨plainPlan, 100000, .v2, none, none, none⟩,
      .branchInitialized plainBranch .ready ["criterion"],
      .attemptOpened ⟨"branch", 1, "dispatch", 0, 50000, ⟨"packet", "hash"⟩, none, none⟩,
      .outboxEnqueued ⟨threadCreation, .pending, none, none, 0⟩ none] ++
  plainInput "claim" .internalAction 1 1 1
    [.outboxClaimed "effect" threadCreation ⟨"lease1", "owner", 1, 1, 1, 5001⟩] ++
  plainInput "requeue" .internalAction 1 1 5001
    [.outboxRequeued "effect" threadCreation ⟨"lease1", "owner", 1⟩ "expired"] ++
  plainInput "reclaim" .internalAction 1 1 5002
    [.outboxClaimed "effect" threadCreation ⟨"lease2", "owner", 2, 5002, 5002, 10002⟩] ++
  plainInput "send" .internalAction 1 1 5003
    [.outboxSendBegun ⟨"effect", threadCreation, ⟨"lease2", "owner", 2⟩, none⟩]

/-- The effect turns out not to be sent, and something follows from that. -/
def provenNotSent (consequences : List EventBody) : List (BusinessEvent × Option Batch) :=
  plainInput "settle" .observation 1 2 5004
    ([.outboxSettled .notSent ⟨"effect", threadCreation, some ⟨"lease2", "owner", 2⟩,
        ⟨.notSent, [], none, 5004⟩, none⟩,
      .runtimeObserved ⟨⟨"settle", "workOrder", "plan", "hash", 1, "actor",
        .effectDelivery ⟨"effect", .threadCreate, "branch", 1, "dispatch"⟩ .notSent⟩, none,
        some ⟨"effect", .threadCreate⟩, none, none⟩] ++ consequences)

/-- It is not sent, and its successor is. -/
def sentAgain : List (BusinessEvent × Option Batch) :=
  sentEffect ++ provenNotSent [.outboxEnqueued ⟨nextCreation, .pending, none, none, 5004⟩ none] ++
  plainInput "claim again" .internalAction 2 2 5005
    [.outboxClaimed "successor" nextCreation ⟨"lease3", "owner", 1, 5005, 5005, 10005⟩] ++
  plainInput "send again" .internalAction 2 2 5006
    [.outboxSendBegun ⟨"successor", nextCreation, ⟨"lease3", "owner", 1⟩, none⟩]

theorem lease_fencing_sentAgain : ∃ P x,
    runAll (projectStep plainEnvironment) initialBusinessProjectionV1 sentAgain = .ok P ∧
    P.outbox.get? "effect" = some x ∧ x.status = .notSent ∧
    claims (leaseActions "effect" (enteredEvents plainEnvironment initialBusinessProjectionV1
      sentAgain)) = [⟨"lease1", "owner", 1⟩, ⟨"lease2", "owner", 2⟩] := by
  obtain ⟨P, x, hrun, hx, hv, hstatus, hhistory⟩ : ∃ P x, runAll (projectStep plainEnvironment)
      initialBusinessProjectionV1 sentAgain = .ok P ∧ P.outbox.get? "effect" = some x ∧
      x.effectContractVersion = .v2 ∧ x.status = .notSent ∧
      x.fencingHistory = [⟨"lease1", "owner", 1⟩, ⟨"lease2", "owner", 2⟩] :=
    ⟨_, _, rfl, rfl, rfl, rfl, rfl⟩
  exact ⟨P, x, hrun, hx, hstatus, ((lease_fencing hrun hx hv).1.2).symm.trans hhistory⟩

end Orquesta
