import Mathlib.Data.List.Chain
import Orquesta.SessionBinding.Valid

/-!
# The ownership history of an agent

The contract checks rows and links one at a time.  Together the checks leave an
agent only one kind of history: its rows that are no candidates, in the order of
the file, are a gap-free chain of generations from one on, each handing over to the
next at the instant it ends.

The argument goes down the generations.  A row that is no candidate and not the
first must replace a row; a predecessor that names no replacement admits only
candidates, so this one names a replacement, and it can only be the row itself.  A
row that names a replacement is superseded, hence no candidate either.  Generations
are unique among such rows, so stepping down from any of them passes every smaller
one.

## Main definitions

* `history`: the rows of an agent that are no candidates
* `LinearHistory`
* `Owns`: a row owns its agent at an instant

## Main results

* `linearHistory_of_accepted`
-/

namespace Orquesta.SessionBinding

open Keyed UtcTimestamp List Option

/-! ## Generations without a gap -/

/-- Increasing numbers from `lo` on, with the one before each of them, are an interval. -/
theorem eq_range'_of_down (lo : Nat) {l : List Nat} (hso : l.Pairwise (· < ·))
    (hlo : ∀ g ∈ l, lo ≤ g) (hdown : ∀ g ∈ l, lo < g → g - 1 ∈ l) :
    l = range' lo l.length := by
  induction l generalizing lo with
  | nil => rfl
  | cons g l ih =>
    obtain ⟨hg, hl⟩ := pairwise_cons.mp hso
    -- the smallest number has none before it
    have hfst : g = lo := by
      by_contra hne
      have hlt : lo < g := lt_of_le_of_ne (hlo g mem_cons_self) (Ne.symm hne)
      rcases mem_cons.mp (hdown g mem_cons_self hlt) with heq | hmem
      · omega
      · have := hg _ hmem
        omega
    subst hfst
    rw [length_cons, range'_succ]
    congr 1
    refine ih (g + 1) hl (fun k hk => hg k hk) fun k hk hlt => ?_
    rcases mem_cons.mp (hdown k (mem_cons_of_mem _ hk) (by omega)) with heq | hmem
    · omega
    · exact hmem

/-! ## The order of the rows -/

theorem Session.precedes_iff {l r : Session} : l.precedes r ↔
    l.agentId < r.agentId ∨ (l.agentId = r.agentId ∧ (l.sessionGeneration < r.sessionGeneration ∨
        (l.sessionGeneration = r.sessionGeneration ∧ l.sessionId ≤ r.sessionId))) := by
  simp [precedes]

instance : Std.Total fun l r : Session => l.precedes r where
  total l r := by
    simp only [Session.precedes_iff]
    rcases lt_trichotomy l.agentId r.agentId with h | h | h
    · exact .inl (.inl h)
    · rcases lt_trichotomy l.sessionGeneration r.sessionGeneration with hg | hg | hg
      · exact .inl (.inr ⟨h, .inl hg⟩)
      · exact (le_total l.sessionId r.sessionId).imp (fun hid => .inr ⟨h, .inr ⟨hg, hid⟩⟩)
          fun hid => .inr ⟨h.symm, .inr ⟨hg.symm, hid⟩⟩
      · exact .inr (.inr ⟨h.symm, .inl hg⟩)
    · exact .inr (.inl h)

instance : IsTrans Session fun l r => l.precedes r where
  trans l m r hlm hmr := by
    rw [Session.precedes_iff] at *
    rcases hlm with h | ⟨h, h' | ⟨h', hid⟩⟩ <;> rcases hmr with k | ⟨k, k' | ⟨k', kid⟩⟩
    · exact .inl (h.trans k)
    · exact .inl (k ▸ h)
    · exact .inl (k ▸ h)
    · exact .inl (h ▸ k)
    · exact .inr ⟨h.trans k, .inl (h'.trans k')⟩
    · exact .inr ⟨h.trans k, .inl (k' ▸ h')⟩
    · exact .inl (h ▸ k)
    · exact .inr ⟨h.trans k, .inl (h' ▸ k')⟩
    · exact .inr ⟨h.trans k, .inr ⟨h'.trans k', hid.trans kid⟩⟩

theorem pairwise_of_eq_ordered {ss : List Session} (h : ss = ordered ss) :
    ss.Pairwise fun l r => l.precedes r := by
  rw [h]
  exact pairwise_insertionSort (fun l r : Session => l.precedes r) ss

/-! ## Rows that are no candidates -/

/-- The rows of an agent that are no candidates, in the order of the file. -/
def history (sessions : List Session) (agentId : String) : List Session :=
  sessions.filter fun s => s.agentId = agentId ∧ s.ownershipStatus ≠ .candidate

variable {ss : List Session} {aid : String} {r s : Session}

theorem mem_history :
    s ∈ history ss aid ↔ s ∈ ss ∧ s.agentId = aid ∧ s.ownershipStatus ≠ .candidate := by
  simp [history]

theorem Session.Lifecycled.ne_failed (h : s.Lifecycled) (hc : s.ownershipStatus ≠ .candidate) :
    s.rotationState ≠ .failed := by
  intro hf
  rw [h.ownership, hf] at hc
  exact hc rfl

/-- Only a superseded row names a replacement. -/
theorem Session.Lifecycled.superseded_of_replaced (h : s.Lifecycled)
    (hr : s.replacedBySessionId ≠ none) : s.ownershipStatus = .superseded := by
  have hne : (lifecycle s.rotationState).replacedBy ≠ .absent := fun habs =>
    hr (h.lineageOk.notReplaced habs)
  rw [h.ownership]
  revert hne
  cases s.rotationState <;> simp [lifecycle]

/-- The handover from one row to the next. -/
structure Succeeds (r s : Session) : Prop where
  replaces : s.replacesSessionId = some r.sessionId
  replacedBy : r.replacedBySessionId = some s.sessionId
  ended : r.ownershipEndedAt.isSome
  edge : s.ownershipStartedAt = r.ownershipEndedAt

/-- A replaced row, whatever replaces it, is no candidate. -/
theorem Replaces.predecessor_ne_candidate (h : Replaces s r) (hr : r.Lifecycled) :
    r.ownershipStatus ≠ .candidate := by
  have hph := h.phase
  unfold ReplacementPhase at hph
  split at hph
  next hfl =>
    intro hc
    simp [hc] at hfl
  next =>
    cases hby : r.replacedBySessionId with
    | none =>
      rw [hby] at hph
      simp [hph.2.2.2.1]
    | some id => simp [hr.superseded_of_replaced (by simp [hby])]

/-- A row that is no candidate takes over from the row it replaces. -/
theorem Replaces.succeeds (h : Replaces s r) (hr : r.Lifecycled) (hs : s.Lifecycled)
    (hc : s.ownershipStatus ≠ .candidate) (hid : s.replacesSessionId = some r.sessionId) :
    Succeeds r s := by
  have hph := h.phase
  unfold ReplacementPhase at hph
  rw [if_neg fun hfl => hs.ne_failed hc hfl.1] at hph
  cases hby : r.replacedBySessionId with
  | none =>
    rw [hby] at hph
    exact absurd hph.2.1 hc
  | some id =>
    rw [hby] at hph
    obtain ⟨rfl, hedge⟩ := hph
    have hsuper := hr.superseded_of_replaced (by simp [hby])
    have hcl : (lifecycle r.rotationState).ownershipWindow = .closed := by
      rw [hr.ownership] at hsuper
      revert hsuper
      cases r.rotationState <;> simp [lifecycle]
    have hend := (hr.ownershipOk.closed hcl).2
    refine ⟨hid, hby, ?_, hedge.symm⟩
    cases he : r.ownershipEndedAt with
    | none => simp [he, validAt] at hend
    | some _ => rfl

/-- One step down the generations. -/
theorem Consistent.exists_predecessor (h : Consistent ss) (hs : s ∈ history ss aid)
    (hg : 1 < s.sessionGeneration) : ∃ r ∈ history ss aid,
      s.sessionGeneration = r.sessionGeneration + 1 ∧ Succeeds r s := by
  obtain ⟨hmem, hag, hc⟩ := mem_history.mp hs
  have hlf := h.lifecycled s hmem
  obtain ⟨id, hid⟩ := ne_none_iff_exists'.mp (hlf.lineageOk.successor hg)
  obtain ⟨r, hr, rfl, hlk⟩ := h.replaces s hmem id hid
  have hrlife := h.lifecycled r hr
  exact ⟨r, mem_history.mpr ⟨hr, hlk.agent.trans hag, hlk.predecessor_ne_candidate hrlife⟩,
    hlk.generation, hlk.succeeds hrlife hlf hc hid⟩

/-- One row for each generation. -/
theorem Consistent.eq_of_generation (h : Consistent ss) (hr : r ∈ history ss aid)
    (hs : s ∈ history ss aid) (hg : r.sessionGeneration = s.sessionGeneration) :
    r = s := by
  obtain ⟨hr, hra, hrc⟩ := mem_history.mp hr
  obtain ⟨hs, hsa, hsc⟩ := mem_history.mp hs
  refine h.generations.eq_of_key hr hs
    (Session.generationKey_eq_some.mpr ⟨(h.lifecycled r hr).ne_failed hrc, hra, hg⟩)
    (Session.generationKey_eq_some.mpr ⟨(h.lifecycled s hs).ne_failed hsc, hsa, rfl⟩)

/-! ## The chain -/

variable {state : SessionBindingState}

theorem Accepted.generations_increase (h : Accepted state) : (history state.sessions aid).Pairwise
      fun r s => r.sessionGeneration < s.sessionGeneration := by
  have hso := (pairwise_of_eq_ordered h.sorted).filter
    fun s => decide (s.agentId = aid ∧ s.ownershipStatus ≠ .candidate)
  have hu := h.consistent.generations.filter
    fun s => decide (s.agentId = aid ∧ s.ownershipStatus ≠ .candidate)
  refine (hso.and hu).imp_of_mem fun {r s} hr hs hrs => ?_
  obtain ⟨hr, hra, hrc⟩ := mem_history.mp hr
  obtain ⟨hs, hsa, hsc⟩ := mem_history.mp hs
  have hne : r.sessionGeneration ≠ s.sessionGeneration := fun hg => hrs.2 _
    (Session.generationKey_eq_some.mpr ⟨(h.consistent.lifecycled r hr).ne_failed hrc, hra, hg⟩)
    (Session.generationKey_eq_some.mpr ⟨(h.consistent.lifecycled s hs).ne_failed hsc, hsa, rfl⟩)
  rcases Session.precedes_iff.mp hrs.1 with hlt | ⟨-, hlt | ⟨heq, -⟩⟩
  · exact absurd (hra.trans hsa.symm) hlt.ne
  · exact hlt
  · exact absurd heq hne

theorem Accepted.generations_eq (h : Accepted state) :
    (history state.sessions aid).map Session.sessionGeneration =
      range' 1 (history state.sessions aid).length := by
  have hrange := eq_range'_of_down 1 (l := (history state.sessions aid).map
    Session.sessionGeneration) ?_ ?_ ?_
  · rwa [length_map] at hrange
  · rw [pairwise_map]
    exact h.generations_increase
  · intro g hg
    obtain ⟨s, hs, rfl⟩ := mem_map.mp hg
    exact (h.schema s (mem_history.mp hs).1).one_le_generation
  · intro g hg hlt
    obtain ⟨s, hs, rfl⟩ := mem_map.mp hg
    obtain ⟨r, hr, hgen, -⟩ := h.consistent.exists_predecessor hs hlt
    exact mem_map.mpr ⟨r, hr, by omega⟩

theorem Accepted.isChain_history (h : Accepted state) :
    (history state.sessions aid).IsChain Succeeds := by
  have hss : ((history state.sessions aid).map Session.sessionGeneration).IsChain fun a b =>
      b = a + 1 := by
    rw [h.generations_eq]
    exact isChain_range' 1 _ 1
  rw [isChain_map] at hss
  refine hss.imp_of_mem_imp fun r s hr hs hgen => ?_
  -- the row that `s` takes over from has the generation of `r`
  have hone := (h.schema r (mem_history.mp hr).1).one_le_generation
  obtain ⟨p, hp, hpgen, hsuc⟩ := h.consistent.exists_predecessor hs (by omega)
  have hpr : p = r := h.consistent.eq_of_generation hp hr (by omega)
  exact hpr ▸ hsuc

/-! ## Intervals -/

/-- The row owns its agent at the instant `t`: its interval, closed on the left and open on the
right, contains `t`. -/
def Owns (s : Session) (t : Nat) : Prop :=
  ∃ start ∈ s.ownershipStartedAt, instant start ≤ t ∧ ∀ ended ∈ s.ownershipEndedAt,
    t < instant ended

theorem validAt_iff {o : Option String} : validAt o ↔ ∃ a, o = some a ∧ isValidUtcTimestamp a := by
  simp [validAt, Option.any_eq_true]

/-- A row that is no candidate has an interval, and it is not empty. -/
theorem Session.Lifecycled.interval (h : s.Lifecycled) (hc : s.ownershipStatus ≠ .candidate) :
    ∃ st ∈ s.ownershipStartedAt, ∀ ended ∈ s.ownershipEndedAt, instant st < instant ended := by
  rw [h.ownership] at hc
  have hwindow : (lifecycle s.rotationState).ownershipWindow = .open ∨
      (lifecycle s.rotationState).ownershipWindow = .closed := by
    revert hc
    cases s.rotationState <;> simp [lifecycle]
  rcases hwindow with hop | hcl
  · obtain ⟨hstd, hended⟩ := h.ownershipOk.opened hop
    obtain ⟨st, hst, -⟩ := validAt_iff.mp hstd
    refine ⟨st, hst, fun ended he => ?_⟩
    rw [hended] at he
    cases he
  · obtain ⟨hstd, hended⟩ := h.ownershipOk.closed hcl
    obtain ⟨st, hst, hval⟩ := validAt_iff.mp hstd
    obtain ⟨ended, hend, hval'⟩ := validAt_iff.mp hended
    refine ⟨st, hst, fun e he => ?_⟩
    obtain rfl : ended = e := some.inj (hend.symm.trans he)
    have hne := h.ownershipOk.nonempty
    rw [hst, hend, both_some] at hne
    have hlt : st < ended := by
      by_contra hle
      exact hne ⟨hval', hval, decide_eq_true (not_lt.mp hle)⟩
    exact instant_lt_instant hval hval' hlt

/-- A candidate owns nothing. -/
theorem Session.Lifecycled.ne_candidate_of_owns (h : s.Lifecycled) {t : Nat} (ho : Owns s t) :
    s.ownershipStatus ≠ .candidate := by
  intro hc
  rw [h.ownership] at hc
  have hwindow : (lifecycle s.rotationState).ownershipWindow = .none := by
    revert hc
    cases s.rotationState <;> simp [lifecycle]
  obtain ⟨st, hst, -⟩ := ho
  rw [(h.ownershipOk.unowned hwindow).1] at hst
  cases hst

/-- `r` is over when `s`, a row with a nonempty interval, begins. -/
def OverBefore (r s : Session) : Prop :=
  ∃ ended ∈ r.ownershipEndedAt, ∃ start ∈ s.ownershipStartedAt, instant ended ≤ instant start ∧
    ∀ e ∈ s.ownershipEndedAt, instant start < instant e

instance : Trans OverBefore OverBefore OverBefore where
  trans := by
    rintro q r s ⟨e, he, b, hb, heb, hr⟩ ⟨e', he', b', hb', heb', hs⟩
    exact ⟨e, he, b', hb', (heb.trans (hr e' he').le).trans heb', hs⟩

theorem Accepted.overBefore (h : Accepted state) :
    (history state.sessions aid).Pairwise OverBefore := by
  refine IsChain.pairwise (h.isChain_history.imp_of_mem_imp fun r s _ hs hsuc => ?_)
  obtain ⟨hs, -, hsc⟩ := mem_history.mp hs
  obtain ⟨st, hst, hinterval⟩ := (h.consistent.lifecycled s hs).interval hsc
  exact ⟨st, hsuc.edge ▸ hst, st, hst, le_rfl, hinterval⟩

theorem OverBefore.not_owns (h : OverBefore r s) {t : Nat} (hr : Owns r t) : ¬ Owns s t := by
  rintro ⟨st, hst, hle, -⟩
  obtain ⟨e, he, b, hb, heb, -⟩ := h
  obtain rfl : b = st := some.inj (hb.symm.trans hst)
  have hlt := hr.choose_spec.2.2 e he
  omega

theorem Accepted.owner_unique (h : Accepted state) {t : Nat} (hr : r ∈ state.sessions)
    (hs : s ∈ state.sessions) (hag : r.agentId = s.agentId) (hor : Owns r t) (hos : Owns s t) :
    r = s := by
  have hr' : r ∈ history state.sessions s.agentId :=
    mem_history.mpr ⟨hr, hag, (h.consistent.lifecycled r hr).ne_candidate_of_owns hor⟩
  have hs' : s ∈ history state.sessions s.agentId :=
    mem_history.mpr ⟨hs, rfl, (h.consistent.lifecycled s hs).ne_candidate_of_owns hos⟩
  by_contra hne
  have hdisjoint : (history state.sessions s.agentId).Pairwise fun r s => ¬ (Owns r t ∧ Owns s t) :=
    h.overBefore.imp fun hrs hboth => hrs.not_owns hboth.1 hboth.2
  have hsymm : Std.Symm fun r s => ¬ (Owns r t ∧ Owns s t) := ⟨fun _ _ hrs hsr => hrs hsr.symm⟩
  exact hdisjoint.forall hr' hs' hne ⟨hor, hos⟩

/-- A row that accepts work is the owner. -/
theorem Consistent.accepting_unique (h : Consistent ss) (hr : r ∈ ss)
    (hs : s ∈ ss) (hag : r.agentId = s.agentId) (har : r.acceptsNewWork)
    (has : s.acceptsNewWork) : r = s := by
  have howner : ∀ q ∈ ss, q.acceptsNewWork → q.ownershipStatus = .owner ∧ q.isBoundNonterminal := by
    intro q hq haq
    have hlf := h.lifecycled q hq
    have hbinding := hlf.binding
    rw [hlf.accepts] at haq
    simp only [Session.isBoundNonterminal, hlf.ownership, hlf.handoff]
    revert haq hbinding
    cases q.rotationState <;> simp [lifecycle]
  have hmem : ∀ q ∈ ss, q.acceptsNewWork → q.agentId = s.agentId → q ∈ ownersOf ss s.agentId := by
    intro q hq haq hqa
    simp [ownersOf, hq, (howner q hq haq).1, hqa]
  obtain ⟨owner, hone⟩ := length_eq_one_iff.mp (h.owners s hs (howner s hs has).2)
  have hr' := hmem r hr har hag
  have hs' := hmem s hs has rfl
  rw [hone, mem_singleton] at hr' hs'
  rw [hr', hs']

/-- The last row of a chain is the only one whose interval may be open. -/
theorem getLast?_of_isChain {l : List Session} (h : l.IsChain Succeeds) (hs : s ∈ l)
    (hop : s.ownershipEndedAt = none) : l.getLast? = some s := by
  obtain ⟨pre, after, rfl⟩ := append_of_mem hs
  cases after with
  | nil => simp
  | cons q after =>
    have hsq : Succeeds s q := (isChain_append.mp h).2.1.rel
    have hend := hsq.ended
    rw [hop] at hend
    cases hend

/-- An agent with rows has owned rows: a candidate replaces one. -/
theorem Accepted.history_ne_nil (h : Accepted state) (hs : s ∈ state.sessions) :
    history state.sessions s.agentId ≠ [] := by
  have hlf := h.consistent.lifecycled s hs
  by_cases hc : s.ownershipStatus = .candidate
  · have hone := (h.schema s hs).one_le_generation
    have hne : s.sessionGeneration ≠ 1 := fun hg =>
      hlf.lineageOk.initialOwner hg (hlf.ownership ▸ hc)
    obtain ⟨id, hid⟩ := ne_none_iff_exists'.mp (hlf.lineageOk.successor (by omega))
    obtain ⟨r, hr, -, hlk⟩ := h.consistent.replaces s hs id hid
    exact ne_nil_of_mem (mem_history.mpr
      ⟨hr, hlk.agent, hlk.predecessor_ne_candidate (h.consistent.lifecycled r hr)⟩)
  · exact ne_nil_of_mem (mem_history.mpr ⟨hs, rfl, hc⟩)

/-! ## The history is linear -/

/-- Rows with the generations from one on, each handing over to the next when it ends. -/
structure LinearHistory (rows : List Session) : Prop where
  generations : rows.map Session.sessionGeneration = range' 1 rows.length
  links : rows.IsChain Succeeds
  intervals : ∀ s ∈ rows, ∃ start ∈ s.ownershipStartedAt,
    ∀ ended ∈ s.ownershipEndedAt, instant start < instant ended
  openLast : ∀ s ∈ rows, s.ownershipEndedAt = none → rows.getLast? = some s

/-- Every state the contract accepts has a linear ownership history for each agent in it, at every
instant at most one owner, at most one row that accepts new work, and no thread in two rows. -/
theorem linearHistory_of_accepted (h : (validateContract state).ok) :
    (∀ q ∈ state.sessions, history state.sessions q.agentId ≠ [] ∧
      LinearHistory (history state.sessions q.agentId)) ∧
    (∀ t : Nat, ∀ r ∈ state.sessions, ∀ s ∈ state.sessions, r.agentId = s.agentId →
      Owns r t → Owns s t → r = s) ∧
    (∀ r ∈ state.sessions, ∀ s ∈ state.sessions, r.agentId = s.agentId →
      r.acceptsNewWork → s.acceptsNewWork → r = s) ∧
    (state.sessions.map Session.threadId).Nodup := by
  have haccepted := validateContract_ok.mp h
  refine ⟨fun q hq => ⟨haccepted.history_ne_nil hq, ?_⟩, ?_, ?_, ?_⟩
  · refine ⟨haccepted.generations_eq, haccepted.isChain_history, fun s hs => ?_, fun s hs => ?_⟩
    · obtain ⟨hs, -, hc⟩ := mem_history.mp hs
      exact (haccepted.consistent.lifecycled s hs).interval hc
    · exact getLast?_of_isChain haccepted.isChain_history hs
  · exact fun t r hr s hs => haccepted.owner_unique hr hs
  · exact fun r hr s hs => haccepted.consistent.accepting_unique hr hs
  · rw [Nodup, pairwise_map]
    exact haccepted.consistent.threads.imp fun hrs heq => hrs _ rfl (congrArg some heq.symm)

/-- A foundation agent's first session, superseded by its second one. -/
def handedOver : SessionBindingState where
  projectId := "p"
  revision := 8
  sessions :=
    let first : Session :=
      { sessionId := "s1", agentId := "orchestrator", threadId := "t1", sessionGeneration := 1,
        attachmentToolState := none, handoffStatus := .accepted, handoffTurnId := some "h1",
        acceptedAt := some "2026-01-01T00:00:00.000Z", rotationState := .superseded,
        ownershipStatus := .superseded, acceptsNewWork := false, bindingStatus := .bound,
        replacesSessionId := none, retryOfSessionId := none, replacedBySessionId := some "s2",
        visibility := .codexTask, profileId := "foundation:orchestrator:v1",
        runtimeAuthorityId := some "a", provisioningRequestId := none, placementIntentId := none,
        taskId := none, ownershipStartedAt := some "2026-01-01T00:00:00.000Z",
        ownershipEndedAt := some "2026-01-03T00:00:00.000Z",
        createdAt := "2026-01-01T00:00:00.000Z", updatedAt := "2026-01-03T00:00:00.000Z" }
    let second : Session :=
      { first with
        sessionId := "s2", threadId := "t2", sessionGeneration := 2, handoffTurnId := some "h2",
        acceptedAt := some "2026-01-02T00:00:00.000Z", rotationState := .active,
        ownershipStatus := .owner, acceptsNewWork := true, replacesSessionId := some "s1",
        replacedBySessionId := none, ownershipStartedAt := some "2026-01-03T00:00:00.000Z",
        ownershipEndedAt := none, createdAt := "2026-01-02T00:00:00.000Z" }
    [first, second]

theorem handedOver_ok : (validateContract handedOver).ok := by
  decide

theorem handedOver_linear : (history handedOver.sessions "orchestrator").length = 2 ∧
    LinearHistory (history handedOver.sessions "orchestrator") := by
  have h := linearHistory_of_accepted handedOver_ok
  exact ⟨rfl, (h.1 _ mem_cons_self).2⟩

end Orquesta.SessionBinding
