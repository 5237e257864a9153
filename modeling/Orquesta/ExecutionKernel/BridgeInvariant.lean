import Orquesta.ExecutionKernel.BridgeAnswers
import Orquesta.ExecutionKernel.Live

/-!
# The open turns of a bridge

A turn is open from the time it is accepted until it is reported as completed.  Whether a second
turn of a task can be started while the first is open depends on the kernel, which decides when
a task is eligible again, and on the bridge, which refuses to go on after a start whose outcome
is not known.  The invariant `Inv` ties every open turn to a live task of the kernel, or to a
session that is blocked.

Every action keeps the invariant that is `Regular`.  The condition leaves out three ways to break
it: the driver resolves the input of a task whose turn is open, a start fails after its turn was
accepted, or a tick throws and forgets the turns it has started.

## Main definitions

* `System.IsOpen`, `NoOverlap`
* `Regular`: the condition on an action
* `Inv`: the invariant

## Main results

* `Inv.noOverlap`
* `Inv.beginTick`, `Inv.answer`, `Inv.completes`, `Inv.endTick`, `Inv.applyEmitted`,
  `Inv.resolveInput`, `Inv.retryDue`: each action keeps the invariant
-/

namespace Orquesta.ExecutionKernel

open Checked Contract List Function

/-! ## Statements -/

variable (system : System)

/-- The turn of the dispatch was accepted and is not reported as completed. -/
def System.IsOpen (taskId : Name) (dispatchId : String) : Prop :=
  (taskId, dispatchId) ∈ system.accepted ∧
    ∀ record, system.bridge.records (correlationOf dispatchId) = some record →
    record.completed = false

/-- No turn is started for a task that has an open turn. -/
def NoOverlap : Prop :=
  ∀ tick, system.tick = some tick → ∀ start ∈ tick.starts, start.phase = .starting →
    ∀ dispatchId, ¬ system.IsOpen start.dispatch.taskId dispatchId

/-- The condition on an action, in the state before it. -/
def Regular (P : Platform) (system : System) : Action → Prop
  -- The digests of the dispatches do not collide.
  | .beginTick tasks observedAt limit _ => ∀ plan,
    planDispatchTick P system.kernel tasks observedAt limit = .ok plan →
      (plan.dispatches.map fun dispatch => trim dispatch.dispatchId).Nodup ∧
      ∀ dispatch ∈ plan.dispatches, trim dispatch.dispatchId ∉ system.used
  -- A start does not fail after its turn was accepted.
  | .answer taskId (.turnStarted (.ok _) clock) => clock.isSome ∧
    ∀ session, system.bridge.sessions taskId = some session →
      session.runtimeProfile.IsSerializable ∧ session.modelEvidence.IsSerializable
  -- The outcomes of a tick can be recorded.
  | .endTick => ∀ tick, system.tick = some tick → ∀ outcomes,
    tick.starts.mapM Start.outcome = some outcomes →
      ∀ p ∈ outcomes, Recordable P tick.retry tick.observedAt p.1 (.settled p.2)
  -- No input is resolved for a task that has an open turn.
  | .resolveInput event => ∀ taskId : Name, trim event.taskId = taskId.text →
    ∀ dispatchId, ¬ system.IsOpen taskId dispatchId
  | _ => True

/-- Every action of a history meets the condition. -/
def AllRegular (options : BridgeOptions) (P : Platform) : System → List Action → Prop
  | _, [] => True
  | system, action :: rest =>
    Regular P system action ∧ AllRegular options P (system.act options P action) rest

/-! ## The invariant -/

/-- The kernel state that counts: that of the tick in flight, if there is one. -/
def System.effective : KernelState :=
  match system.tick with
  | none => system.kernel
  | some tick => tick.claimed

/-- A start that is not settled. -/
def System.Reserves (dispatchId : String) : Prop :=
  ∃ tick, system.tick = some tick ∧ ∃ start ∈ tick.starts, start.isReserved ∧
    start.dispatchId = dispatchId

/-- The turn of the dispatch was reported as completed, or it was never accepted and cannot be. -/
def System.IsDone (dispatchId : String) : Prop :=
  (∃ record, system.bridge.records (correlationOf dispatchId) = some record ∧ record.completed) ∨
    (system.bridge.records (correlationOf dispatchId) = none ∧ dispatchId ∈ system.used ∧
      ¬ system.Reserves dispatchId)

/-- Open turns of the task block its next start. -/
def System.IsSafe (taskId : Name) : Prop :=
  ∀ dispatchId, system.IsOpen taskId dispatchId → system.bridge.IsBlocked taskId

/-- The session of a task whose turn is being started. -/
def Bridge.HasIssued (bridge : Bridge) (taskId : Name) : Prop :=
  ∃ session, bridge.sessions taskId = some session ∧ session.stage = .issued ∧
    session.lastStartFailure = none

/-- What is known of a start, by how far it has come. -/
def PhaseOk (start : Start) : Prop :=
  match start.phase with
  | .subscribing | .resolving =>
    system.IsSafe start.dispatch.taskId ∧
      system.bridge.records (correlationOf start.dispatchId) = none
  | .creating _ | .naming _ | .resuming _ =>
    (∀ d, ¬ system.IsOpen start.dispatch.taskId d) ∧
      system.bridge.records (correlationOf start.dispatchId) = none
  | .starting =>
    (∀ d, ¬ system.IsOpen start.dispatch.taskId d) ∧
      system.bridge.HasIssued start.dispatch.taskId ∧
      ∃ record, system.bridge.records (correlationOf start.dispatchId) = some record
  | .settled (.rejected _) => system.IsSafe start.dispatch.taskId
  | .settled (.fulfilled _) => True

/-- What is known of the tick in flight. -/
structure TickInv (system : System) (tick : InFlight) : Prop where
  tasks : (tick.starts.map (·.dispatch.taskId)).Nodup
  ids : (tick.starts.map (·.dispatchId)).Nodup
  claimed : AllClaimed tick.claimed (tick.starts.map (·.dispatch))
  trimmed : ∀ start ∈ tick.starts, start.dispatchId = trim start.dispatch.dispatchId
  named : ∀ start ∈ tick.starts, start.isReserved → ∃ name : Name, start.dispatchId = name.text
  used : ∀ start ∈ tick.starts, start.dispatchId ∈ system.used
  fresh : ∀ start ∈ tick.starts, start.isReserved →
    ∀ taskId, (taskId, start.dispatchId) ∉ system.accepted
  phases : ∀ start ∈ tick.starts, PhaseOk system start

structure Inv (system : System) : Prop where
  /-- Records are kept under their correlation. -/
  keyed : ∀ correlationId record, system.bridge.records correlationId = some record →
    correlationId = correlationOf record.dispatchId ∧ ∃ name : Name, record.dispatchId = name.text
  /-- The record of an accepted turn is kept. -/
  recorded : ∀ taskId dispatchId, (taskId, dispatchId) ∈ system.accepted →
    ∃ record, system.bridge.records (correlationOf dispatchId) = some record
  /-- An open turn has a live task, or its session is blocked. -/
  held : ∀ taskId dispatchId, system.IsOpen taskId dispatchId → system.bridge.IsBlocked taskId ∨
    ∃ id, IsHeld system.effective taskId id ∧ trim id = dispatchId
  /-- Only what is done was reported as ended. -/
  emitted : ∀ event ∈ system.bridge.emitted, event.type.isFinal →
    (event.type = .turnCompleted ∨ event.type = .attemptFailed) ∧
      ∃ name : Name, event.dispatchId = some name.text ∧ system.IsDone name.text
  inFlight : ∀ tick, system.tick = some tick → TickInv system tick

variable {opts : BridgeOptions} {P : Platform} {sys : System}

theorem correlationOf_injective {a b : String} (h : correlationOf a = correlationOf b) : a = b :=
  append_cancel_left h

theorem Inv.noOverlap (h : Inv sys) : NoOverlap sys := by
  intro tick htc st hst hph
  have hok := (h.inFlight tick htc).phases st hst
  rw [PhaseOk, hph] at hok
  exact hok.1

/-- A turn that is done is not open. -/
theorem Inv.not_isOpen_of_isDone (h : Inv sys) {did : String} (hdn : sys.IsDone did)
    (tid : Name) : ¬ sys.IsOpen tid did := by
  rintro ⟨hacc, hop⟩
  rcases hdn with ⟨rec, hrec, hcmp⟩ | ⟨hno, -, -⟩
  · rw [hop rec hrec] at hcmp
    cases hcmp
  · obtain ⟨rec, hrec⟩ := h.recorded tid did hacc
    rw [hno] at hrec
    cases hrec

/-! ## Events of the driver -/

theorem Inv.ne_empty (h : Inv sys) {tid : Name} {did : String} (hop : sys.IsOpen tid did) :
    did ≠ "" := by
  obtain ⟨rec, hrec⟩ := h.recorded tid did hop.1
  obtain ⟨hkey, n, hnm⟩ := h.keyed _ rec hrec
  rw [correlationOf_injective hkey, hnm]
  exact n.nonblank

section

variable (h : Inv sys) (htc : sys.tick = none)
include h htc

/-- The kernel may change where no open turn depends on it. -/
theorem Inv.setKernel (kernel : KernelState) (hhe : ∀ tid id, sys.IsOpen tid (trim id)
    → IsHeld sys.kernel tid id → IsHeld kernel tid id) : Inv { sys with kernel } where
  keyed := h.keyed
  recorded := h.recorded
  held tid dispatchId hop := by
    have hefv : sys.effective = sys.kernel := by rw [System.effective, htc]
    have hefv' : System.effective { sys with kernel } = kernel := by
      rw [System.effective]
      simp only [htc]
    rcases h.held tid dispatchId hop with hbl | ⟨id, hid, rfl⟩
    · exact .inl hbl
    · refine .inr ⟨id, ?_, rfl⟩
      rw [hefv']
      exact hhe tid id hop (hefv ▸ hid)
  emitted := h.emitted
  inFlight tick hsm := by
    rw [htc] at hsm
    cases hsm

theorem Inv.applyEvent (e : EventInput) (hevt : ∀ tid id rec, sys.IsOpen tid
    (trim id) → e.type.isFinal → trim e.taskId = tid.text → rec.dispatchId = some id
    → isStale e rec = false → False) : Inv (sys.applyEvent e) := by
  refine h.setKernel htc _ fun tid id hop hid => ?_
  cases hok : applyKernelEvent sys.kernel e with
  | error => exact hid
  | ok kernel =>
    rcases hid.applyKernelEvent hok with hhe | ⟨htk, hfin, rec, -, hdsp, -, hstl⟩
    · exact hhe
    · exact (hevt tid id rec hop hfin htk hdsp hstl).elim

/-- An event that the bridge has emitted ends no open turn. -/
theorem Inv.applyEmitted {e : EventInput} (hmem : e ∈ sys.bridge.emitted) :
    Inv (sys.applyEvent e) := by
  refine h.applyEvent htc e fun tid id rec hop hfin _ hdsp hstl => ?_
  obtain ⟨-, n, hnm, hdn⟩ := h.emitted e hmem hfin
  -- The event is about the dispatch of the record, which is done.
  have hid : n.text = id := by
    simp only [isStale, hnm, hdsp, Bool.and_eq_false_iff, decide_eq_false_iff_not, not_not] at hstl
    rcases hstl with (hem | hem) | heq
    · exact absurd hem n.nonblank
    · rw [hem] at hop
      exact absurd rfl (h.ne_empty hop)
    · exact heq
  rw [← hid, n.trimmed] at hop
  exact h.not_isOpen_of_isDone hdn tid hop

theorem Inv.resolveInput {e : EventInput} (hreg : Regular P sys (.resolveInput e)) :
    Inv (sys.applyEvent { e with type := .userInputResolved }) :=
  h.applyEvent htc _ fun tid id _ hop _ htk _ _ => hreg tid htk (trim id) hop

theorem Inv.retryDue (e : EventInput) : Inv (sys.applyEvent { e with type := .retryDue }) :=
  h.applyEvent htc _ fun _ _ _ _ hfin _ _ _ => nomatch hfin

end

/-! ## Reports -/

/-- The events that the bridge derives. -/
theorem handleAdapterEvent_emits {retry : RetryOptions} {sequence : Nat} {t : Time}
    {rec : DispatchRecord} {e : AdapterEvent} {derived : EventInput}
    (h : handleAdapterEvent retry sequence t rec e = .ok (some derived))
    (hfin : derived.type.isFinal) :
    (derived.type = .turnCompleted ∨ derived.type = .attemptFailed) ∧
      derived.dispatchId = some rec.dispatchId ∧ ∃ status, e.report = .turnCompleted status := by
  unfold handleAdapterEvent at h
  split at h
  · cases h
  · split at h
    · cases h
    · cases h
      cases hfin
    · cases h
      cases hfin
    · split at h <;> cases h
      cases hfin
    · cases h
      cases hfin
    · cases h
      cases hfin
    · rename_i status hrep
      split at h
      · cases h
        exact ⟨.inl rfl, rfl, status, hrep⟩
      · simp only [chain_eq_ok, Option.some.injEq] at h
        obtain ⟨_, -, _, -, rfl⟩ := h
        exact ⟨.inr rfl, rfl, status, hrep⟩

/-- What a report may change: a record is completed, and events are emitted. -/
structure Bridge.Completes (bridge bridge' : Bridge) : Prop where
  sessions : bridge'.sessions = bridge.sessions
  records : ∀ correlationId,
    (bridge.records correlationId = none ∧ bridge'.records correlationId = none) ∨
      ∃ old new, bridge.records correlationId = some old ∧
        bridge'.records correlationId = some new ∧
        new.dispatchId = old.dispatchId ∧ (old.completed → new.completed = true)
  emitted : ∀ event ∈ bridge'.emitted, event.type.isFinal → event ∈ bridge.emitted ∨
    (event.type = .turnCompleted ∨ event.type = .attemptFailed) ∧
      ∃ correlationId record, bridge'.records correlationId = some record ∧
        event.dispatchId = some record.dispatchId ∧ record.completed

theorem Bridge.Completes.refl (b : Bridge) : b.Completes b where
  sessions := rfl
  records correlationId := by
    cases h : b.records correlationId with
    | none => exact .inl ⟨rfl, rfl⟩
    | some rec => exact .inr ⟨rec, rec, rfl, rfl, rfl, id⟩
  emitted _ h _ := .inl h

theorem Bridge.completes_report (opts : BridgeOptions) (b : Bridge) (event : AdapterEvent)
    (clock : Option Time) : b.Completes (b.report opts event clock) := by
  unfold Bridge.report
  cases hrec : b.records event.correlationId with
  | none => exact .refl b
  | some rec =>
    dsimp only
    split
    · exact .refl b
    · refine ⟨rfl, fun cid => ?_, fun e he hfin => ?_⟩
      · by_cases heq : cid = event.correlationId
        · subst heq
          refine .inr ⟨rec, _, hrec, update_self .., rfl, fun hcmp => ?_⟩
          split
          · rfl
          · exact hcmp
        · dsimp only
          rw [update_of_ne heq]
          exact (Bridge.Completes.refl b).records cid
      · rcases mem_append.mp he with he | he
        · exact .inl he
        · simp only [Option.mem_toList, Option.bind_eq_some_iff, Option.join_eq_some_iff,
            toOption_eq_some] at he
          obtain ⟨t, -, hok⟩ := he
          obtain ⟨hty, hdsp, status, hrep⟩ := handleAdapterEvent_emits hok hfin
          refine .inr ⟨hty, event.correlationId, _, update_self .., hdsp, ?_⟩
          rw [hrep]

/-- What is known of a start depends on its task and its record only. -/
theorem PhaseOk.mono {sys' : System} {st : Start} (h : PhaseOk sys st)
    (hop : ∀ d, sys'.IsOpen st.dispatch.taskId d → sys.IsOpen st.dispatch.taskId d)
    (hsessions : sys'.bridge.sessions st.dispatch.taskId = sys.bridge.sessions st.dispatch.taskId)
    (hno : sys.bridge.records (correlationOf st.dispatchId) = none →
      sys'.bridge.records (correlationOf st.dispatchId) = none)
    (hsm : (∃ rec, sys.bridge.records (correlationOf st.dispatchId) = some rec) →
      ∃ rec, sys'.bridge.records (correlationOf st.dispatchId) = some rec) :
    PhaseOk sys' st := by
  have hsafe : sys.IsSafe st.dispatch.taskId → sys'.IsSafe st.dispatch.taskId := by
    intro hsafe d hd
    rw [Bridge.IsBlocked, hsessions]
    exact hsafe d (hop d hd)
  have hclr : (∀ d, ¬ sys.IsOpen st.dispatch.taskId d) →
      ∀ d, ¬ sys'.IsOpen st.dispatch.taskId d := fun hclr d hd => hclr d (hop d hd)
  unfold PhaseOk at h ⊢
  cases hph : st.phase with
  | subscribing | resolving =>
    rw [hph] at h
    exact ⟨hsafe h.1, hno h.2⟩
  | creating | naming | resuming =>
    rw [hph] at h
    exact ⟨hclr h.1, hno h.2⟩
  | starting =>
    rw [hph] at h
    refine ⟨hclr h.1, ?_, hsm h.2.2⟩
    rw [Bridge.HasIssued, hsessions]
    exact h.2.1
  | settled o =>
    rw [hph] at h
    cases o with
    | rejected => exact hsafe h
    | fulfilled => trivial

section Report

variable {b' : Bridge}

theorem isOpen_of_completes (h : sys.bridge.Completes b') {tid : Name} {did : String}
    (hop : System.IsOpen { sys with bridge := b' } tid did) :
    sys.IsOpen tid did := by
  refine ⟨hop.1, fun rec hrec => ?_⟩
  rcases h.records (correlationOf did) with ⟨hno, -⟩ | ⟨old, new, hold, hnew, -, hcmp⟩
  · rw [hno] at hrec
    cases hrec
  · rw [hold] at hrec
    cases hrec
    have hnot := hop.2 new hnew
    cases hc : rec.completed with
    | false => rfl
    | true =>
      rw [hcmp hc] at hnot
      cases hnot

theorem isDone_of_completes (h : sys.bridge.Completes b') {did : String}
    (hdn : sys.IsDone did) : System.IsDone { sys with bridge := b' } did := by
  rcases h.records (correlationOf did) with ⟨hno, hno'⟩ | ⟨old, new, hold, hnew, -, hcmp⟩
  · rcases hdn with ⟨rec, hrec, -⟩ | ⟨-, hused, hrsv⟩
    · rw [hno] at hrec
      cases hrec
    · exact .inr ⟨hno', hused, hrsv⟩
  · rcases hdn with ⟨rec, hrec, hc⟩ | ⟨hno, -⟩
    · rw [hold] at hrec
      cases hrec
      exact .inl ⟨new, hnew, hcmp hc⟩
    · rw [hold] at hno
      cases hno

theorem Inv.completes (h : Inv sys) (hbr : sys.bridge.Completes b') :
    Inv { sys with bridge := b' } := by
  -- A record has the dispatch of the record before the report.
  have hkey : ∀ cid rec, b'.records cid = some rec →
      cid = correlationOf rec.dispatchId ∧ ∃ n : Name, rec.dispatchId = n.text := by
    intro cid rec hrec
    rcases hbr.records cid with ⟨-, hno⟩ | ⟨old, new, hold, hnew, heq, -⟩
    · rw [hno] at hrec
      cases hrec
    · rw [hnew] at hrec
      cases hrec
      rw [heq]
      exact h.keyed cid old hold
  have hsm : ∀ cid, (∃ rec, sys.bridge.records cid = some rec) →
      ∃ rec, b'.records cid = some rec := by
    rintro cid ⟨rec, hrec⟩
    rcases hbr.records cid with ⟨hno, -⟩ | ⟨_, new, -, hnew, -⟩
    · rw [hno] at hrec
      cases hrec
    · exact ⟨new, hnew⟩
  have hno : ∀ cid, sys.bridge.records cid = none → b'.records cid = none := by
    intro cid hno
    rcases hbr.records cid with ⟨-, hno'⟩ | ⟨old, _, hold, -⟩
    · exact hno'
    · rw [hno] at hold
      cases hold
  refine ⟨hkey, fun tid d hmem => hsm _ (h.recorded tid d hmem), ?_, ?_, ?_⟩
  · intro tid d hop
    rw [Bridge.IsBlocked, hbr.sessions]
    exact h.held tid d (isOpen_of_completes hbr hop)
  · intro e hmem hfin
    rcases hbr.emitted e hmem hfin with hmem | ⟨hty, cid, rec, hrec, hid, hc⟩
    · obtain ⟨hty, n, hnm, hdn⟩ := h.emitted e hmem hfin
      exact ⟨hty, n, hnm, isDone_of_completes hbr hdn⟩
    · obtain ⟨rfl, n, hnm⟩ := hkey cid rec hrec
      rw [hnm] at hrec hid
      exact ⟨hty, n, hid, .inl ⟨rec, hrec, hc⟩⟩
  · intro tick htc
    have hinv := h.inFlight tick htc
    refine { hinv with phases := fun st hst => ?_ }
    exact (hinv.phases st hst).mono (fun _ => isOpen_of_completes hbr)
      (congrFun hbr.sessions _) (hno _) (hsm _)

end Report

/-! ## Answers -/

section Answer

variable {tick : InFlight} {st : Start} {sub : Option (Except Failure Unit)}
  {ss : Option Session} {rec : Option BridgeRecord} {phase : Phase}
  {accepted : List (Name × String)}

/-- A start has got an answer. -/
def System.advance (tick : InFlight) (start : Start) (bridge : Bridge) (phase : Phase)
    (accepted : List (Name × String)) : System :=
  { system with
    bridge
    tick := some { tick with
      starts := tick.starts.map fun s =>
        if s.dispatch.taskId = start.dispatch.taskId then { s with phase } else s }
    accepted := system.accepted ++ accepted }

/-- The starts after an answer: the one that got it, and the others, which have other tasks and
other dispatches. -/
theorem mem_starts_advance (htc : TickInv sys tick) (hst : st ∈ tick.starts) {s : Start}
    (hs : s ∈ tick.starts.map fun s =>
      if s.dispatch.taskId = st.dispatch.taskId then { s with phase } else s) :
    s = { st with phase } ∨ s ∈ tick.starts ∧ s.dispatch.taskId ≠ st.dispatch.taskId ∧
      s.dispatchId ≠ st.dispatchId := by
  obtain ⟨s', hs', rfl⟩ := mem_map.mp hs
  split_ifs with heq
  · exact .inl (by rw [inj_on_of_nodup_map htc.tasks hs' hst heq])
  · refine .inr ⟨hs', heq, fun hid => heq ?_⟩
    rw [inj_on_of_nodup_map htc.ids hs' hst hid]

/-- What has to hold of the session, the record and the next phase of a start. -/
structure Allowed (system : System) (start : Start) (session : Option Session)
    (record : Option BridgeRecord) (phase : Phase) (accepted : List (Name × String)) : Prop where
  keyed : ∀ r, record = some r → r.dispatchId = start.dispatchId
  /-- The session of an open turn stays. -/
  session : session = system.bridge.sessions start.dispatch.taskId ∨
    ∀ d, ¬ system.IsOpen start.dispatch.taskId d
  /-- A record that is completed stays so, or goes away with its start. -/
  completed : ∀ r, system.bridge.records (correlationOf start.dispatchId) = some r → r.completed →
    (∃ r', record = some r' ∧ r'.completed) ∨
      (record = none ∧ ({ start with phase } : Start).isReserved = false)
  kept : start.isReserved ∨ record = system.bridge.records (correlationOf start.dispatchId)
  accepted : accepted = [] ∨ accepted = [(start.dispatch.taskId, start.dispatchId)] ∧
    record.isSome ∧ start.isReserved ∧ ({ start with phase } : Start).isReserved = false
  reserved : ({ start with phase } : Start).isReserved → start.isReserved

variable {next : System} (hnx : next =
  sys.advance tick st (sys.bridge.touch st sub ss rec) phase accepted)

section

variable (htc : TickInv sys tick) (hst : st ∈ tick.starts)
include htc hst

/-- A task that a tick has claimed is live. -/
theorem TickInv.isHeld : IsHeld tick.claimed st.dispatch.taskId st.dispatch.dispatchId := by
  obtain ⟨t, hget, hcd⟩ := htc.claimed st.dispatch (mem_map_of_mem hst)
  exact ⟨t, hget, by rw [hcd.state]; rfl, hcd.dispatchId⟩

variable (halw : Allowed sys st ss rec phase accepted)
include hnx halw

/-- A turn that is open after an answer was open before it, or is accepted with it. -/
theorem isOpen_advance {tid : Name} {did : String} (hop : next.IsOpen tid did) :
    sys.IsOpen tid did ∨ (tid, did) ∈ accepted := by
  subst hnx
  obtain ⟨hmem, hrcs⟩ := hop
  rcases mem_append.mp hmem with hmem | hmem
  · refine .inl ⟨hmem, fun r hr => hrcs r ?_⟩
    change (sys.bridge.touch st sub ss rec).records _ = _
    by_cases heq : correlationOf did = correlationOf st.dispatchId
    · -- No turn of the dispatch is accepted before, so the start is settled.
      rw [correlationOf_injective heq] at hmem hr ⊢
      rcases halw.kept with hrsv | hkp
      · exact absurd hmem (htc.fresh st hst hrsv tid)
      · rw [records_touch_self, hkp, hr]
    · rw [records_touch_of_ne heq, hr]
  · exact .inr hmem

/-- A dispatch that is done before an answer is done after it. -/
theorem isDone_advance (hsys : sys.tick = some tick) {did : String}
    (hdn : sys.IsDone did) : next.IsDone did := by
  -- A start that is reserved after the answer was reserved before it.
  have hreserves : ¬ sys.Reserves did → ¬ next.Reserves did := by
    subst hnx
    rintro hnot ⟨_, ⟨⟩, s, hs, hrsv, hid⟩
    rcases mem_starts_advance htc hst hs with rfl | ⟨hs, -, -⟩
    · exact hnot ⟨tick, hsys, st, hst, halw.reserved hrsv, hid⟩
    · exact hnot ⟨tick, hsys, s, hs, hrsv, hid⟩
  subst hnx
  by_cases heq : did = st.dispatchId
  · subst heq
    rcases hdn with ⟨r, hr, hcmp⟩ | ⟨hno, hused, hnot⟩
    · rcases halw.completed r hr hcmp with ⟨r', hr', hcmp'⟩ | ⟨hrec, hset⟩
      · exact .inl ⟨r', records_touch_self.trans hr', hcmp'⟩
      · refine .inr ⟨records_touch_self.trans hrec, htc.used st hst, ?_⟩
        rintro ⟨_, ⟨⟩, s, hs, hrsv, hid⟩
        rcases mem_starts_advance htc hst hs with rfl | ⟨-, -, hne⟩
        · rw [hset] at hrsv
          cases hrsv
        · exact hne hid
    · rcases halw.kept with hrsv | hkp
      · exact absurd ⟨tick, hsys, st, hst, hrsv, rfl⟩ hnot
      · exact .inr ⟨records_touch_self.trans (hkp.trans hno), hused, hreserves hnot⟩
  · have hsam : (sys.bridge.touch st sub ss rec).records
        (correlationOf did) = sys.bridge.records (correlationOf did) :=
      records_touch_of_ne fun h => heq (correlationOf_injective h)
    rcases hdn with ⟨r, hr, hcmp⟩ | ⟨hno, hused, hnot⟩
    · exact .inl ⟨r, hsam.trans hr, hcmp⟩
    · exact .inr ⟨hsam.trans hno, hused, hreserves hnot⟩

theorem TickInv.advance (hph : PhaseOk next { st with phase }) :
    ∀ tick', next.tick = some tick' → TickInv next tick' := by
  subst hnx
  rintro _ ⟨⟩
  -- An answer changes the phase of a start and nothing else of it.
  have hmap : ∀ {α : Type} (f : Start → α), (∀ s : Start, f { s with phase } = f s) →
      (tick.starts.map fun s =>
        if s.dispatch.taskId = st.dispatch.taskId then { s with phase } else s).map f =
      tick.starts.map f := by
    intro α f hf
    rw [map_map]
    refine map_congr_left fun s _ => ?_
    simp only [Function.comp]
    split_ifs
    · exact hf s
    · rfl
  refine ⟨?_, ?_, ?_, ?_, ?_, ?_, ?_, ?_⟩
  · rw [hmap (·.dispatch.taskId) fun _ => rfl]
    exact htc.tasks
  · rw [hmap (·.dispatchId) fun _ => rfl]
    exact htc.ids
  · dsimp only
    rw [hmap (·.dispatch) fun _ => rfl]
    exact htc.claimed
  all_goals
    intro s hs
    rcases mem_starts_advance htc hst hs with rfl | ⟨hs, htk, hid⟩
  · exact htc.trimmed st hst
  · exact htc.trimmed s hs
  · exact fun hrsv => htc.named st hst (halw.reserved hrsv)
  · exact htc.named s hs
  · exact htc.used st hst
  · exact htc.used s hs
  · intro hrsv tid hmem
    rcases mem_append.mp hmem with hmem | hmem
    · exact htc.fresh st hst (halw.reserved hrsv) tid hmem
    · rcases halw.accepted with rfl | ⟨-, -, -, hset⟩
      · cases hmem
      · rw [hset] at hrsv
        cases hrsv
  · intro hrsv tid hmem
    rcases mem_append.mp hmem with hmem | hmem
    · exact htc.fresh s hs hrsv tid hmem
    · rcases halw.accepted with rfl | ⟨rfl, -⟩
      · cases hmem
      · exact hid (Prod.mk.inj (mem_singleton.mp hmem)).2
  · exact hph
  · refine (htc.phases s hs).mono (fun d hop => ?_) (sessions_touch_of_ne htk) ?_ ?_
    · rcases isOpen_advance rfl htc hst halw hop with hop | hmem
      · exact hop
      · rcases halw.accepted with rfl | ⟨rfl, -⟩
        · cases hmem
        · exact absurd (Prod.mk.inj (mem_singleton.mp hmem)).1 htk
    all_goals
      have heq : (sys.bridge.touch st sub ss rec).records
          (correlationOf s.dispatchId) = sys.bridge.records (correlationOf s.dispatchId) :=
        records_touch_of_ne fun h => hid (correlationOf_injective h)
      exact fun h => heq ▸ h

end

include hnx in
theorem Inv.advance (h : Inv sys) (hsys : sys.tick = some tick) (hst : st ∈ tick.starts)
    (halw : Allowed sys st ss rec phase accepted)
    (hph : PhaseOk next { st with phase }) : Inv next := by
  have htc := h.inFlight tick hsys
  refine ⟨?_, ?_, ?_, ?_, htc.advance hnx hst halw hph⟩
  all_goals subst hnx
  · intro cid r hr
    change (sys.bridge.touch st sub ss rec).records cid = some r at hr
    by_cases heq : cid = correlationOf st.dispatchId
    · rw [heq, records_touch_self] at hr
      rcases halw.kept with hrsv | hkp
      · rw [halw.keyed r hr]
        exact ⟨heq, htc.named st hst hrsv⟩
      · rw [heq]
        exact h.keyed _ r (hkp ▸ hr)
    · rw [records_touch_of_ne heq] at hr
      exact h.keyed cid r hr
  · intro tid d hmem
    change ∃ r, (sys.bridge.touch st sub ss rec).records _ = some r
    rcases mem_append.mp hmem with hmem | hmem
    · by_cases heq : d = st.dispatchId
      · subst heq
        rcases halw.kept with hrsv | hkp
        · exact absurd hmem (htc.fresh st hst hrsv tid)
        · rw [records_touch_self, hkp]
          exact h.recorded tid _ hmem
      · rw [records_touch_of_ne fun h => heq (correlationOf_injective h)]
        exact h.recorded tid d hmem
    · rcases halw.accepted with rfl | ⟨rfl, hsm, -⟩
      · cases hmem
      · rw [(Prod.mk.inj (mem_singleton.mp hmem)).2, records_touch_self]
        exact Option.isSome_iff_exists.mp hsm
  · intro tid d hop
    rcases isOpen_advance rfl htc hst halw hop with hop | hmem
    · rcases h.held tid d hop with ⟨kept, hkp, hbl⟩ | ⟨id, hid, hd⟩
      · refine .inl ⟨kept, ?_, hbl⟩
        change (sys.bridge.touch st sub ss rec).sessions tid = some kept
        by_cases heq : tid = st.dispatch.taskId
        · subst heq
          rcases halw.session with hsam | hclr
          · rw [sessions_touch_self, hsam, hkp]
          · exact absurd hop (hclr d)
        · rw [sessions_touch_of_ne heq, hkp]
      · rw [System.effective, hsys] at hid
        exact .inr ⟨id, hid, hd⟩
    · rcases halw.accepted with rfl | ⟨rfl, -⟩
      · cases hmem
      · obtain ⟨rfl, rfl⟩ := Prod.mk.inj (mem_singleton.mp hmem)
        exact .inr ⟨_, htc.isHeld hst, (htc.trimmed st hst).symm⟩
  · intro e hmem hfin
    obtain ⟨hty, n, hnm, hdn⟩ := h.emitted e hmem hfin
    exact ⟨hty, n, hnm, isDone_advance rfl htc hst halw hsys hdn⟩

/-- A start that has passed the check of its session has no open turn, and no record yet. -/
theorem PhaseOk.clear (h : PhaseOk sys st) (hcls : st.Clears sys.bridge) :
    (∀ d, ¬ sys.IsOpen st.dispatch.taskId d) ∧ sys.bridge.records (correlationOf st.dispatchId) =
    none := by
  unfold PhaseOk at h
  rcases hcls with hopg | ⟨hrsg, hbl⟩
  · cases hph : st.phase <;> rw [hph] at h hopg
    case creating | naming | resuming => exact h
    all_goals cases hopg
  · rw [hrsg] at h
    exact ⟨fun d hop => hbl (h.1 d hop), h.2⟩

theorem PhaseOk.early (h : PhaseOk sys st) (hea : st.phase.isEarly) :
    sys.IsSafe st.dispatch.taskId ∧ sys.bridge.records (correlationOf st.dispatchId) = none := by
  unfold PhaseOk at h
  cases hph : st.phase <;> rw [hph] at h hea
  case subscribing | resolving => exact h
  all_goals cases hea

theorem PhaseOk.starting (h : PhaseOk sys st) (hstg : st.phase = .starting) :
    (∀ d, ¬ sys.IsOpen st.dispatch.taskId d) ∧ sys.bridge.HasIssued st.dispatch.taskId ∧
      ∃ rec, sys.bridge.records (correlationOf st.dispatchId) = some rec := by
  unfold PhaseOk at h
  rw [hstg] at h
  exact h

theorem isReserved_of_isEarly (h : st.phase.isEarly) : st.isReserved := by
  unfold Start.isReserved
  cases hph : st.phase <;> rw [hph] at h
  all_goals first | rfl | cases h

theorem isReserved_of_clears {b : Bridge} (h : st.Clears b) : st.isReserved := by
  unfold Start.isReserved
  rcases h with hopg | ⟨hrsg, -⟩
  · cases hph : st.phase <;> rw [hph] at hopg
    all_goals first | rfl | cases hopg
  · rw [hrsg]

theorem isReserved_of_starting (h : st.phase = .starting) : st.isReserved := by
  rw [Start.isReserved, h]

theorem not_isReserved_of_isRejected (h : phase.isRejected) :
    ({ st with phase } : Start).isReserved = false := by
  unfold Start.isReserved
  cases phase
  case settled => rfl
  all_goals cases h

theorem Answered.allowed (h : Inv sys) (hok : PhaseOk sys st)
    (hans : Answered sys.bridge st ss rec phase accepted) :
    Allowed sys st ss rec phase accepted := by
  -- The record of a dispatch is kept under its correlation.
  have hkey : ∀ r, sys.bridge.records (correlationOf st.dispatchId) = some r →
      r.dispatchId = st.dispatchId := fun r hr =>
    (correlationOf_injective (h.keyed _ r hr).1).symm
  cases hans with
  | stays =>
    exact ⟨hkey, .inl rfl, fun r hr hc => .inl ⟨r, hr, hc⟩, .inr rfl, .inl rfl, id⟩
  | early hea hph =>
    exact ⟨hkey, .inl rfl, fun r hr hc => .inl ⟨r, hr, hc⟩, .inr rfl, .inl rfl,
      fun _ => isReserved_of_isEarly hea⟩
  | opens hcls hph =>
    exact ⟨hkey, .inr (hok.clear hcls).1, fun r hr hc => .inl ⟨r, hr, hc⟩, .inr rfl, .inl rfl,
      fun _ => isReserved_of_clears hcls⟩
  | begins hcls hissued hflr hid hcmp =>
    refine ⟨?_, .inr (hok.clear hcls).1, ?_, .inl (isReserved_of_clears hcls), .inl rfl,
      fun _ => isReserved_of_clears hcls⟩
    · rintro r ⟨⟩
      exact hid
    · intro r hr
      rw [(hok.clear hcls).2] at hr
      cases hr
  | refused hstg hrej =>
    have hrsv := isReserved_of_starting hstg
    exact ⟨nofun, .inr (hok.starting hstg).1,
      fun _ _ _ => .inr ⟨rfl, not_isReserved_of_isRejected hrej⟩, .inl hrsv, .inl rfl,
      fun _ => hrsv⟩
  | unnamed hstg hrej =>
    have hrsv := isReserved_of_starting hstg
    exact ⟨hkey, .inl rfl, fun r hr hc => .inl ⟨r, hr, hc⟩, .inr rfl,
      .inr ⟨rfl, Option.isSome_iff_exists.mpr (hok.starting hstg).2.2, hrsv,
        not_isReserved_of_isRejected hrej⟩, fun _ => hrsv⟩
  | accepted hstg =>
    have hrsv := isReserved_of_starting hstg
    refine ⟨?_, .inr (hok.starting hstg).1, ?_, .inl hrsv, .inr ⟨rfl, ?_, hrsv, rfl⟩, fun _ => hrsv⟩
    · intro r hr
      obtain ⟨r', hr', rfl⟩ := Option.map_eq_some_iff.mp hr
      exact hkey r' hr'
    · intro r hr hc
      refine .inl ⟨_, Option.map_eq_some_iff.mpr ⟨r, hr, rfl⟩, ?_⟩
      exact hc
    · rw [Option.isSome_map]
      exact Option.isSome_iff_exists.mpr (hok.starting hstg).2.2

theorem phaseOk_of_isRejected (hrej : phase.isRejected) (hsafe : sys.IsSafe st.dispatch.taskId) :
    PhaseOk sys { st with phase } := by
  unfold PhaseOk
  cases phase
  case settled outcome =>
    cases outcome
    · cases hrej
    · exact hsafe
  all_goals cases hrej

include hnx in
/-- A start is known to be where its answer leads it. -/
theorem Answered.phaseOk (h : Inv sys) (hsys : sys.tick = some tick) (hst : st ∈ tick.starts)
    (hans : Answered sys.bridge st ss rec phase accepted) :
    PhaseOk next { st with phase } := by
  have htc := h.inFlight tick hsys
  have hok := htc.phases st hst
  have hop : ∀ d, next.IsOpen st.dispatch.taskId d →
      sys.IsOpen st.dispatch.taskId d ∨ (st.dispatch.taskId, d) ∈ accepted :=
    fun d => isOpen_advance hnx htc hst (hans.allowed h hok)
  have hses : next.bridge.sessions st.dispatch.taskId = ss := hnx ▸ sessions_touch_self
  have hrec : next.bridge.records (correlationOf st.dispatchId) = rec := hnx ▸ records_touch_self
  cases hans with
  | stays =>
    exact hok.mono (fun d hd => (hop d hd).resolve_right not_mem_nil) hses hrec.trans
      fun hsm => hsm.imp fun _ => hrec.trans
  | early hea hph =>
    obtain ⟨hsafe, hno⟩ := hok.early hea
    have hsafe' : next.IsSafe st.dispatch.taskId := by
      intro d hd
      obtain ⟨kept, hkp, hbl⟩ := hsafe d ((hop d hd).resolve_right not_mem_nil)
      exact ⟨kept, hses.trans hkp, hbl⟩
    rcases hph with rfl | hrej
    · exact ⟨hsafe', hrec.trans hno⟩
    · exact phaseOk_of_isRejected hrej hsafe'
  | opens hcls hph =>
    obtain ⟨hclr, hno⟩ := hok.clear hcls
    have hclr' := fun d hd => hclr d ((hop d hd).resolve_right not_mem_nil)
    rcases hph with hopg | hrej
    · unfold PhaseOk
      cases phase
      case creating | naming | resuming => exact ⟨hclr', hrec.trans hno⟩
      all_goals cases hopg
    · exact phaseOk_of_isRejected hrej fun d hd => absurd hd (hclr' d)
  | begins hcls hissued hflr hid hcmp =>
    exact ⟨fun d hd => (hok.clear hcls).1 d ((hop d hd).resolve_right not_mem_nil),
      ⟨_, hses, hissued, hflr⟩, _, hrec⟩
  | refused hstg hrej =>
    exact phaseOk_of_isRejected hrej fun d hd =>
      absurd ((hop d hd).resolve_right not_mem_nil) ((hok.starting hstg).1 d)
  | unnamed hstg hrej =>
    -- The turn is accepted and the start fails; the session stays as issued, which blocks it.
    obtain ⟨kept, hkp, hissued, hflr⟩ := (hok.starting hstg).2.1
    refine phaseOk_of_isRejected hrej fun _ _ => ⟨kept, hses.trans hkp, ?_⟩
    simp [Session.isUnresolved, hissued, hflr]
  | accepted hstg => trivial

theorem Inv.answer (h : Inv sys) (hsys : sys.tick = some tick) {tid : Name} {ans : Answer}
    (hreg : Regular P sys (.answer tid ans)) :
    Inv (sys.answer opts P tick tid ans) := by
  cases hfi : tick.starts.find? (·.dispatch.taskId = tid) with
  | none =>
    rw [System.answer, hfi]
    exact h
  | some st =>
    have htk : st.dispatch.taskId = tid := by simpa using find?_some hfi
    have hst := mem_of_find?_eq_some hfi
    have hok := (h.inFlight tick hsys).phases st hst
    obtain ⟨sub, ss, rec, htouch, hans⟩ : sys.bridge.Answers st (st.acceptedWith ans)
          (sys.bridge.answer opts P st ans) := by
      refine answers_answer ans ?_
      rintro hstg res clock rfl
      obtain ⟨ss, hses, -⟩ := (hok.starting hstg).2.1
      exact ⟨hreg.1, ss, hses, hreg.2 ss (htk ▸ hses)⟩
    have hadvance : sys.answer opts P tick tid ans = sys.advance tick st
      (sys.bridge.answer opts P st ans).1
          (sys.bridge.answer opts P st ans).2 (st.acceptedWith ans) := by
      simp only [System.answer, hfi, System.advance, htk]
    rw [hadvance, htouch]
    exact h.advance rfl hsys hst (hans.allowed h hok) (hans.phaseOk rfl h hsys hst)

end Answer

/-! ## Ticks -/

section Tick

variable {tasks : List TaskInput} {obs : Time} {limit : Rat} {retry : RetryOptions}
  {tick : InFlight}

theorem isReserved_of_begun {rs : String → Option BridgeRecord} {st : Start}
    (hbg : Begun rs st) (hrsv : st.isReserved) :
    (∃ n : Name, st.dispatchId = n.text) ∧ rs (correlationOf st.dispatchId) = none := by
  rcases hbg.2 with hrej | ⟨-, hnm, hno⟩
  · have hnot : st.isReserved = false := not_isReserved_of_isRejected hrej
    rw [hnot] at hrsv
    cases hrsv
  · exact ⟨hnm, hno⟩

theorem Inv.beginTick (h : Inv sys) (hsys : sys.tick = none)
    (hreg : Regular P sys (.beginTick tasks obs limit retry)) :
    Inv (sys.beginTick opts P tasks obs limit retry) := by
  unfold System.beginTick
  cases hcs : claimSelected P sys.kernel tasks obs limit with
  | error => exact h
  | ok res =>
    obtain ⟨sel, claimed, ds⟩ := res
    obtain ⟨-, -, -, hcd, p, hpl, rfl⟩ := claimSelected_eq_ok hcs
    obtain ⟨hnd, hfr⟩ := hreg p hpl
    obtain ⟨taskIds, starts, hsts, hdsps, hbg⟩ := begun_startAll opts sys.bridge [] p.dispatches
    rw [nil_append] at hsts
    dsimp only
    rw [hsts]
    have hefv : sys.effective = sys.kernel := by rw [System.effective, hsys]
    -- The ids of the starts are those of the dispatches, which are new.
    have hids : starts.map (·.dispatchId) = p.dispatches.map fun d => trim d.dispatchId := by
      rw [← hdsps, map_map]
      exact map_congr_left fun s hs => (hbg s hs).1
    have hnew : ∀ s ∈ starts, s.dispatchId ∉ sys.used := by
      intro s hs
      rw [(hbg s hs).1]
      exact hfr s.dispatch (hdsps ▸ mem_map_of_mem hs)
    -- A task that has an open turn is not claimed, unless its session is blocked.
    have hsafe : ∀ s ∈ starts, sys.IsSafe s.dispatch.taskId := by
      intro s hs d hop
      rcases h.held _ d hop with hbl | ⟨id, hid, -⟩
      · exact hbl
      · rw [hefv] at hid
        refine absurd ?_ (hid.claimed hcs).1
        rw [← hdsps, map_map]
        exact mem_map_of_mem hs
    refine ⟨h.keyed, h.recorded, ?_, ?_, ?_⟩
    · intro tid d hop
      rcases h.held tid d hop with hbl | ⟨id, hid, hd⟩
      · exact .inl hbl
      · rw [hefv] at hid
        exact .inr ⟨id, (hid.claimed hcs).2, hd⟩
    · intro e hmem hfin
      obtain ⟨hty, n, hnm, hdn⟩ := h.emitted e hmem hfin
      refine ⟨hty, n, hnm, ?_⟩
      rcases hdn with hcmp | ⟨hno, hused, -⟩
      · exact .inl hcmp
      · refine .inr ⟨hno, mem_append_left _ hused, ?_⟩
        rintro ⟨_, ⟨⟩, s, hs, -, hid⟩
        exact hnew s hs (hid ▸ hused)
    · rintro _ ⟨⟩
      refine ⟨?_, hids ▸ hnd, hdsps.symm ▸ hcd.allClaimed, fun s hs => (hbg s hs).1,
        fun s hs hrsv => (isReserved_of_begun (hbg s hs) hrsv).1, ?_, ?_, ?_⟩
      · have hnd' := hcd.nodup
        rwa [← hdsps, map_map] at hnd'
      · intro s hs
        exact mem_append_right _ (hids ▸ mem_map_of_mem hs)
      · intro s hs hrsv tid hmem
        obtain ⟨rec, hrec⟩ := h.recorded tid _ hmem
        rw [(isReserved_of_begun (hbg s hs) hrsv).2] at hrec
        cases hrec
      · intro s hs
        rcases (hbg s hs).2 with hrej | ⟨hph, -, hno⟩
        · exact phaseOk_of_isRejected hrej (hsafe s hs)
        · unfold PhaseOk
          rw [hph]
          exact ⟨hsafe s hs, hno⟩

theorem outcome_eq_some {st : Start} {p : Dispatch × Settled} : st.outcome = some p ↔
      ∃ o, st.phase = .settled o ∧ p = (st.dispatch, o) := by
  unfold Start.outcome
  cases st.phase with
  | settled o => simp [eq_comm]
  | _ => simp

/-- The outcomes of a tick, as a function of its dispatches. -/
theorem exists_outcomes {starts : List Start} {os : List (Dispatch × Settled)}
    (hnd : (starts.map (·.dispatch.taskId)).Nodup)
    (houts : starts.mapM Start.outcome = some os) :
    ∃ f : Dispatch → Settled, os = (starts.map (·.dispatch)).map (fun d => (d, f d)) ∧
      ∀ s ∈ starts, s.phase = .settled (f s.dispatch) := by
  induction starts generalizing os with
  | nil =>
    cases houts
    exact ⟨fun _ => .rejected (.other none), rfl, fun _ h => absurd h not_mem_nil⟩
  | cons s rest ih =>
    simp only [mapM_cons, Option.bind_eq_bind, Option.bind_eq_some_iff, Option.pure_def,
      Option.some.injEq] at houts
    obtain ⟨p, hs, os', hrs, rfl⟩ := houts
    obtain ⟨hnot, hnd⟩ := nodup_cons.mp hnd
    obtain ⟨f, rfl, hf⟩ := ih hnd hrs
    obtain ⟨o, hph, rfl⟩ := outcome_eq_some.mp hs
    -- The dispatches of a tick have different tasks.
    have hne : ∀ s' ∈ rest, s'.dispatch ≠ s.dispatch := by
      intro s' hs' heq
      refine hnot (mem_map.mpr ⟨s', hs', ?_⟩)
      rw [heq]
    refine ⟨update f s.dispatch o, ?_, ?_⟩
    · rw [map_cons, map_cons, update_self]
      refine congrArg _ ?_
      rw [map_map, map_map]
      refine map_congr_left fun s' hs' => ?_
      simp only [Function.comp, update_of_ne (hne s' hs')]
    · intro s' hs'
      rcases mem_cons.mp hs' with rfl | hs'
      · rw [update_self, hph]
      · rw [update_of_ne (hne s' hs'), hf s' hs']

theorem Inv.endTick (h : Inv sys) (hsys : sys.tick = some tick)
    (hreg : Regular P sys .endTick) : Inv (sys.endTick P tick) := by
  have htc := h.inFlight tick hsys
  unfold System.endTick
  cases hmap : tick.starts.mapM Start.outcome with
  | none => exact h
  | some os =>
    obtain ⟨f, houts, hphases⟩ := exists_outcomes htc.tasks hmap
    have hrecb := hreg tick hsys os hmap
    rw [houts] at hrecb
    have hnd : ((tick.starts.map (·.dispatch)).map (·.taskId)).Nodup := by
      rw [map_map]
      exact htc.tasks
    obtain ⟨⟨kernel, results⟩, hrun⟩ : ∃ acc, settleAll P tick.retry tick.observedAt f
        (tick.claimed, []) (tick.starts.map (·.dispatch)) = .ok acc :=
      exists_settleAll hnd htc.claimed fun d hd => hrecb (d, f d) (mem_map_of_mem hd)
    have hend : runAll (settle P tick.retry tick.observedAt) (tick.claimed, []) os =
        .ok (kernel, results) := houts ▸ hrun
    dsimp only
    rw [hend]
    refine ⟨h.keyed, h.recorded, ?_, ?_, fun _ hno => nomatch hno⟩
    · intro tid d hop
      rcases h.held tid d hop with hbl | ⟨id, hid, hd⟩
      · exact .inl hbl
      rw [System.effective, hsys] at hid
      by_cases hmem : tid ∈ (tick.starts.map (·.dispatch)).map (·.taskId)
      · rw [map_map] at hmem
        obtain ⟨s, hs, rfl⟩ := mem_map.mp hmem
        have hok := htc.phases s hs
        rw [PhaseOk, hphases s hs] at hok
        cases hout : f s.dispatch with
        | rejected reason =>
          rw [hout] at hok
          exact .inl (hok d hop)
        | fulfilled v =>
          -- The task was claimed under one dispatch only.
          rw [← hd, hid.unique (htc.isHeld hs)]
          exact .inr ⟨_, isHeld_of_fulfilled hnd htc.claimed (mem_map_of_mem hs) hout hrun,
            rfl⟩
      · exact .inr ⟨id, hid.settleAll hmem hrun, hd⟩
    · intro e hmem hfin
      obtain ⟨hty, n, hnm, hdn⟩ := h.emitted e hmem hfin
      refine ⟨hty, n, hnm, hdn.imp_right fun hdn => ⟨hdn.1, hdn.2.1, ?_⟩⟩
      rintro ⟨_, ⟨⟩, -⟩

end Tick

end Orquesta.ExecutionKernel
