import Mathlib.Data.Nat.Digits.Lemmas
import Orquesta.SessionBinding.Candidates
import Orquesta.SessionBinding.Store

/-!
# Whether a checkpointed owner can get a successor

A checkpointed owner takes no new work; it waits for a successor.  Where no candidate
replaces it one is to be staged, and where the newest has failed that one is to be
retried.

Retrying always works.  Staging does not: `stageRotationCandidate` refuses while any
row of the agent is a candidate, and a failed attempt stays one for ever, also when a
later attempt has long become the owner and has been checkpointed in turn.

## Main results

* `Reachable.accepted`, `Reachable.length_le`: what holds in every reachable state
* `canRotate_iff`: exactly when a waiting owner can get a successor
-/

namespace Orquesta.SessionBinding

open Checked Keyed UtcTimestamp List

/-! ## Reachable states -/

variable {state file : SessionBindingState} {ss : List Session}

variable {update : SessionBindingState → Except StoreError (Option (List Session))}
    {r : MutationResult}

/-- An update adds at most one row. -/
def AddsAtMostOne (update : SessionBindingState → Except StoreError (Option (List Session))) :
    Prop :=
  ∀ file sessions, update file = .ok (some sessions) → sessions.length ≤ file.sessions.length + 1

/-- The rows that are returned, if any are, are at most `n`. -/
def AtMost (n : Nat) (result : Except StoreError (Option (List Session))) : Prop :=
  ∀ sessions, result = .ok (some sessions) → sessions.length ≤ n

theorem atMost_bind {n : Nat} {α : Type} {x : Except StoreError α}
    {f : α → Except StoreError (Option (List Session))} (h : ∀ a, AtMost n (f a)) :
    AtMost n (x >>= f) := by
  intro ss hok
  obtain ⟨a, -, ha⟩ := bind_eq_ok.mp hok
  exact h a ss ha

theorem atMost_some {n : Nat} (h : ss.length ≤ n) : AtMost n (pure (some ss)) := by
  rintro _ ⟨⟩
  exact h

theorem upsertAcceptedBinding_eq_mutate {verifier : Verifier} {i : UpsertAcceptedBindingInput}
    {foundationEntry : Bool} (h : upsertAcceptedBinding verifier file i foundationEntry = .ok r) :
    ∃ guard, mutate file i.projectId i.expectedRevision guard
      (acceptedUpdate (acceptedRecord i)) = .ok r := by
  simp only [upsertAcceptedBinding, chain_eq_ok] at h
  obtain ⟨-, -, -, -, -, -, -, -, -, guard, -, h⟩ := h
  exact ⟨guard, h⟩

/-- Every mutation is a commit of an update that adds at most one row. -/
theorem Mutation.exists_update {verifier : Verifier} {m : Mutation}
    (h : m.apply verifier file = .ok r) :
    ∃ pid expectedRevision guard update,
      AddsAtMostOne update ∧ mutate file pid expectedRevision guard update = .ok r := by
  have hacc (record : Session) : AddsAtMostOne (acceptedUpdate record) := by
    intro file
    unfold acceptedUpdate
    split
    · split <;> rintro _ ⟨⟩
    · iterate 5 refine atMost_bind fun _ => ?_
      exact atMost_some (by simp)
  cases m
  case upsertFoundation input =>
    simp only [Mutation.apply, upsertAcceptedFoundationBinding, chain_eq_ok] at h
    obtain ⟨guard, hm⟩ := upsertAcceptedBinding_eq_mutate h.2
    exact ⟨_, _, guard, _, hacc _, hm⟩
  case upsertPersistent input =>
    obtain ⟨guard, hm⟩ := upsertAcceptedBinding_eq_mutate h
    exact ⟨_, _, guard, _, hacc _, hm⟩
  case' verify =>
    simp only [Mutation.apply, verifyRotationCandidate, chain_eq_ok] at h
    obtain ⟨-, guard, -, hm⟩ := h
    refine ⟨_, _, guard, _, fun file => atMost_bind fun _ => ?_, hm⟩
  case' transition | stage | accept | fail | retry | retire =>
    refine ⟨_, _, _, _, fun file => atMost_bind fun _ => ?_, h⟩
  -- Each update makes its checks, and then changes rows or puts a new one to them.
  all_goals
    repeat' first
      | exact atMost_some (by simp [updateRow, cutOver])
      | refine atMost_bind fun _ => ?_
      | split
      | rintro _ ⟨⟩

theorem Reachable.accepted (h : Reachable state) : Accepted state := by
  induction h with
  | fresh h =>
    obtain ⟨hacc, rfl⟩ := validateState_eq_ok.mp h
    exact hacc
  | step _ hm _ =>
    obtain ⟨_, _, _, _, -, hmutate⟩ := Mutation.exists_update hm
    obtain ⟨-, hacc, -, -, ⟨-, rfl⟩ | ⟨ss, -, -, hnx, rfl⟩⟩ := mutate_eq_ok.mp hmutate
    · exact hacc
    · exact hnx

/-- No more rows than commits. -/
theorem Reachable.length_le (h : Reachable state) : state.sessions.length ≤ state.revision := by
  induction h with
  | fresh h =>
    obtain ⟨-, rfl⟩ := validateState_eq_ok.mp h
    exact le_rfl
  | step _ hm ih =>
    obtain ⟨_, _, _, update, hadds, hmutate⟩ := Mutation.exists_update hm
    obtain ⟨-, -, -, -, ⟨-, rfl⟩ | ⟨ss, hup, -, -, rfl⟩⟩ := mutate_eq_ok.mp hmutate
    · exact ih
    · have hlen := hadds _ _ hup
      have hpm := (ordered_perm ss).length_eq
      simp only
      omega

/-! ## A candidate row fits the schema -/

theorem identifier_chars {n : Nat} {id : String} (h : isIdentifier n id) :
    id.toList.all isIdentifierChar ∧ id.toList.length ≤ n + 1 := by
  unfold isIdentifier at h
  split at h
  · cases h
  next c cs hlst =>
    simp only [Bool.and_eq_true, decide_eq_true_eq] at h
    obtain ⟨⟨hc, hcs⟩, hlen⟩ := h
    rw [hlst]
    exact ⟨by simp [isIdentifierChar, hc, hcs], by simpa using hlen⟩

theorem isIdentifierChar_of_isDigit {c : Char} (h : c.isDigit) : isIdentifierChar c := by
  simp only [Char.isDigit, Bool.and_eq_true, decide_eq_true_eq] at h
  have hle : '0' ≤ c ∧ c ≤ '9' := ⟨h.1, h.2⟩
  simp [isIdentifierChar, Contract.isAlphanumeric, hle.1, hle.2]

/-- The profile a staged candidate is given is an identifier, whatever the agent. -/
theorem isIdentifier_rotationProfile {aid : String} {gen : Nat}
    (ha : isIdentifier 127 aid) (hg : gen ≤ MAX_SAFE_INTEGER) :
    isIdentifier 255 (rotationProfile aid gen) := by
  obtain ⟨hchars, hlen⟩ := identifier_chars ha
  have hdg : (toString gen).toList.all isIdentifierChar := by
    rw [Nat.toString_eq_repr, Nat.toList_repr, all_eq_true]
    exact fun c hc =>
      isIdentifierChar_of_isDigit (Nat.isDigit_of_mem_toDigits (by decide) le_rfl hc)
  have hdigitsLen : (toString gen).toList.length ≤ 16 := by
    rw [Nat.toString_eq_repr, String.length_toList]
    have hlt : MAX_SAFE_INTEGER < 10 ^ 16 := by norm_num [MAX_SAFE_INTEGER]
    exact Nat.repr_length gen 16 (Nat.succ_pos 15) (lt_of_le_of_lt hg hlt)
  have hlst : (rotationProfile aid gen).toList =
      's' :: ("ession-rotation:".toList ++ aid.toList ++ ":generation-".toList ++
        (toString gen).toList) := by
    have hparts : ∀ a b c d : String,
        (a ++ b ++ c ++ d).toList = a.toList ++ b.toList ++ c.toList ++ d.toList :=
          fun a b c d => by
      rw [String.toList_append, String.toList_append, String.toList_append]
    have hhe : ∀ a b c : List Char, "session-rotation:".toList ++ a ++ b ++ c =
        's' :: ("ession-rotation:".toList ++ a ++ b ++ c) := fun a b c => rfl
    exact (hparts _ _ _ _).trans (hhe _ _ _)
  unfold isIdentifier
  rw [hlst]
  simp only [Bool.and_eq_true, decide_eq_true_eq, all_append, length_append]
  refine ⟨⟨by decide, ⟨⟨by decide, hchars⟩, by decide⟩, hdg⟩, ?_⟩
  have h₁ : "ession-rotation:".toList.length = 16 := by decide
  have h₂ : ":generation-".toList.length = 12 := by decide
  omega

theorem matchesPattern_of_valid {s : String} (h : isValidUtcTimestamp s) : matchesPattern s := by
  rw [isValidUtcTimestamp, Option.any_eq_true] at h
  obtain ⟨f, hf, -⟩ := h
  simp [matchesPattern, hf]

/-! ## Fresh inputs -/

/-- The timestamps a row records. -/
def Session.timestamps (s : Session) : List String :=
  [s.createdAt, s.updatedAt] ++
    [s.acceptedAt, s.ownershipStartedAt, s.ownershipEndedAt].filterMap id

/-- An unused session and thread, and a time later than every recorded one. -/
structure Fresh (state : SessionBindingState) (sessionId threadId changedAt : String) : Prop where
  sessionId_ok : isIdentifier 127 sessionId
  threadId_ok : isIdentifier 255 threadId
  changedAt_ok : isValidUtcTimestamp changedAt
  unusedId : ∀ s ∈ state.sessions, s.sessionId ≠ sessionId
  unusedThread : ∀ s ∈ state.sessions, s.threadId ≠ threadId
  later : ∀ s ∈ state.sessions, ∀ t ∈ s.timestamps, t < changedAt

variable {sessionId threadId changedAt : String} {owner f s c p : Session}

theorem Fresh.updatedAt_lt (h : Fresh state sessionId threadId changedAt)
    (hs : s ∈ state.sessions) : s.updatedAt < changedAt :=
  h.later s hs _ (by simp [Session.timestamps])

theorem Fresh.sessionById_eq_none (h : Fresh state sessionId threadId changedAt) :
    sessionById state.sessions sessionId = none := by
  rw [sessionById, find?_eq_none]
  intro s hs
  simpa using h.unusedId s hs

/-! ## A joining candidate is committed -/

theorem Accepted.join (h : Accepted state) (hj : Joins state.sessions c p) (hc : c.SchemaOk)
    (hrev : state.revision < MAX_SAFE_INTEGER) :
    Accepted ⟨state.projectId, state.revision + 1, ordered (state.sessions ++ [c])⟩ := by
  have hpm : (c :: state.sessions).Perm (ordered (state.sessions ++ [c])) :=
    (perm_append_singleton c state.sessions).symm.trans (ordered_perm _).symm
  refine ⟨h.projectId, hrev, fun s hs => ?_, ordered_ordered _,
    (h.consistent.cons hj (h.schema p hj.mem).one_le_generation).perm hpm⟩
  rcases mem_cons.mp (hpm.mem_iff.mpr hs) with rfl | hs
  · exact hc
  · exact h.schema s hs

/-- The owner of an agent, waiting for a successor. -/
structure Waits (state : SessionBindingState) (owner : Session) : Prop where
  mem : owner ∈ state.sessions
  owns : owner.ownershipStatus = .owner
  checkpointed : owner.rotationState = .checkpointed

section

variable (h : Waits state owner) (ha : Accepted state)
include h ha

theorem Waits.sessionById_eq :
    (sessionById state.sessions owner.sessionId).filter (·.isCheckpointedOwner) = some owner := by
  rw [(sessionById_eq_some ha.consistent.ids).mpr ⟨h.mem, rfl⟩]
  simp [Session.isCheckpointedOwner, h.owns, h.checkpointed]

/-- A row of the next generation is a candidate for the waiting owner. -/
theorem Waits.candidate_of_next (hs : s ∈ state.sessions) (hag : s.agentId = owner.agentId)
    (hgen : s.sessionGeneration = owner.sessionGeneration + 1) :
    s.ownershipStatus = .candidate ∧ s.replacesSessionId = some owner.sessionId := by
  have hone := (ha.schema owner h.mem).one_le_generation
  have hlf := ha.consistent.lifecycled s hs
  obtain ⟨id, hid⟩ := Option.ne_none_iff_exists'.mp (hlf.lineageOk.successor (by omega))
  obtain ⟨r, hr, rfl, hlk⟩ := ha.consistent.replaces s hs id hid
  have howner : owner ∈ history state.sessions owner.agentId :=
    mem_history.mpr ⟨h.mem, rfl, by simp [h.owns]⟩
  have hr' : r ∈ history state.sessions owner.agentId := mem_history.mpr
    ⟨hr, hlk.agent.trans hag, hlk.predecessor_ne_candidate (ha.consistent.lifecycled r hr)⟩
  have hgen' := hlk.generation
  obtain rfl : r = owner := ha.consistent.eq_of_generation hr' howner (by omega)
  refine ⟨?_, hid⟩
  have hop : r.replacedBySessionId = none :=
    (ha.consistent.lifecycled r hr).lineageOk.notReplaced (by rw [h.checkpointed]; rfl)
  have hph := hlk.phase
  unfold ReplacementPhase at hph
  rw [if_neg (by simp [h.owns]), hop] at hph
  exact hph.2.1

theorem Waits.generation_le : owner.sessionGeneration ≤ state.sessions.length := by
  have hmem : owner.sessionGeneration ∈
      (history state.sessions owner.agentId).map Session.sessionGeneration :=
    mem_map_of_mem (mem_history.mpr ⟨h.mem, rfl, by simp [h.owns]⟩)
  rw [ha.generations_eq, mem_range'_1] at hmem
  have hlen : (history state.sessions owner.agentId).length ≤ state.sessions.length :=
    length_filter_le _ _
  omega

end

/-! ## Staging -/

/-- The mutation changes the state. -/
def Commits (result : Except StoreError MutationResult) : Prop := ∃ next, result = .ok ⟨true, next⟩

/-- Stage a first candidate for `owner`, at the current revision. -/
def stageFor (state : SessionBindingState) (owner : Session)
    (sessionId threadId changedAt : String) : Except StoreError MutationResult :=
  stageRotationCandidate state state.projectId state.revision owner.sessionId sessionId threadId
    changedAt

/-- Retry the failed candidate `f`, at the current revision. -/
def retryFor (state : SessionBindingState) (f : Session) (sessionId threadId changedAt : String) :
    Except StoreError MutationResult :=
  retryFailedRotationCandidate state state.projectId state.revision f.sessionId sessionId threadId
    changedAt

theorem commits_mutate_iff (ha : Accepted state) :
    Commits (mutate state state.projectId state.revision (.ok ()) update) ↔
      ∃ ss, update state = .ok (some ss) ∧
      Accepted ⟨state.projectId, state.revision + 1, ordered ss⟩ := by
  have hrev : (0 : Int) ≤ state.revision ∧ (state.revision : Int) ≤ MAX_SAFE_INTEGER :=
    ⟨Int.natCast_nonneg _, Int.ofNat_le.mpr ha.revision⟩
  constructor
  · rintro ⟨next, h⟩
    obtain ⟨-, -, -, -, ⟨-, habs⟩ | ⟨ss, hup, -, hnx, -⟩⟩ := mutate_eq_ok.mp h
    · cases habs
    · exact ⟨ss, hup, hnx⟩
  · rintro ⟨ss, hup, hnx⟩
    exact ⟨_, mutate_eq_ok.mpr ⟨hrev, ha, rfl, rfl, .inr ⟨ss, hup, rfl, hnx, rfl⟩⟩⟩

/-- A candidate replaces `owner`. -/
def CandidateFor (state : SessionBindingState) (owner c : Session) : Prop :=
  c ∈ state.sessions ∧ c.ownershipStatus = .candidate ∧ c.replacesSessionId = some owner.sessionId

/-- The newest of the candidates that replace `owner`. -/
def NewestFor (state : SessionBindingState) (owner f : Session) : Prop :=
  CandidateFor state owner f ∧ ∀ c, CandidateFor state owner c → c.createdAt ≤ f.createdAt

/-- The agent has no candidate row at all, live or failed. -/
def NoCandidateOf (state : SessionBindingState) (agentId : String) : Prop :=
  ∀ s ∈ state.sessions, s.agentId = agentId → s.ownershipStatus ≠ .candidate

theorem stagedCandidate_schemaOk (ho : owner.SchemaOk)
    (hfresh : Fresh state sessionId threadId changedAt)
    (hg : owner.sessionGeneration + 1 ≤ MAX_SAFE_INTEGER) :
    (stagedCandidate owner sessionId threadId changedAt).SchemaOk where
  sessionId := hfresh.sessionId_ok
  agentId := ho.agentId
  threadId := hfresh.threadId_ok
  one_le_generation := Nat.le_add_left 1 _
  generation_le := hg
  handoffTurnId := rfl
  acceptedAt := rfl
  replacesSessionId := ho.sessionId
  replacedBySessionId := rfl
  retryOfSessionId := rfl
  profileId := isIdentifier_rotationProfile ho.agentId hg
  runtimeAuthorityId := rfl
  provisioningRequestId := ho.provisioningRequestId
  placementIntentId := ho.placementIntentId
  taskId := ho.taskId
  ownershipStartedAt := rfl
  ownershipEndedAt := rfl
  createdAt := matchesPattern_of_valid hfresh.changedAt_ok
  updatedAt := matchesPattern_of_valid hfresh.changedAt_ok

theorem assertLater_eq_ok {v prev field : String} :
    assertLater v prev field = .ok () ↔ isValidUtcTimestamp v ∧ prev < v := by
  simp [assertLater, assertRealUtcTimestamp]

/-- When staging for a waiting owner returns the new rows. -/
theorem Waits.stageUpdate_eq (hw : Waits state owner) (ha : Accepted state)
    (hfresh : Fresh state sessionId threadId changedAt) {ss : List Session} :
    stageUpdate owner.sessionId sessionId threadId changedAt state = .ok (some ss) ↔
      NoCandidateOf state owner.agentId ∧
        ss = state.sessions ++ [stagedCandidate owner sessionId threadId changedAt] := by
  simp only [stageUpdate, chain_eq_ok, require_eq_ok, hw.sessionById_eq ha,
    hfresh.sessionById_eq_none, Option.some.injEq, exists_eq_left', assertLater_eq_ok,
    assertSessionIdentityAvailable]
  constructor
  · rintro ⟨-, -, hno, rfl⟩
    exact ⟨fun s hs hag hc => hno ⟨s, hs, hag, hc⟩, rfl⟩
  · rintro ⟨hno, rfl⟩
    refine ⟨⟨hfresh.changedAt_ok, hfresh.updatedAt_lt hw.mem⟩, ⟨?_, ?_⟩, ?_, rfl⟩
    · rintro ⟨s, hs, hag, hgen, -⟩
      exact hno s hs hag (hw.candidate_of_next ha hs hag hgen).1
    · rintro ⟨s, hs, hth⟩
      exact hfresh.unusedThread s hs hth
    · rintro ⟨s, hs, hag, hc⟩
      exact hno s hs hag hc

theorem Waits.commits_stage_iff (hw : Waits state owner) (h : Reachable state)
    (hfresh : Fresh state sessionId threadId changedAt) :
    Commits (stageFor state owner sessionId threadId changedAt) ↔
      NoCandidateOf state owner.agentId ∧ state.revision < MAX_SAFE_INTEGER := by
  have ha := h.accepted
  rw [stageFor, stageRotationCandidate, commits_mutate_iff ha]
  constructor
  · rintro ⟨ss, hup, hnx⟩
    exact ⟨((hw.stageUpdate_eq ha hfresh).mp hup).1, hnx.revision⟩
  · rintro ⟨hno, hrev⟩
    refine ⟨_, (hw.stageUpdate_eq ha hfresh).mpr ⟨hno, rfl⟩, ?_⟩
    have hgen : owner.sessionGeneration + 1 ≤ MAX_SAFE_INTEGER := by
      have hle := hw.generation_le ha
      have hlen := h.length_le
      omega
    refine ha.join (p := owner) ?_
      (stagedCandidate_schemaOk (ha.schema owner hw.mem) hfresh hgen) hrev
    refine ⟨hw.mem, hw.owns, hw.checkpointed,
      ⟨rfl, rfl, rfl, rfl, rfl, rfl, rfl, rfl, rfl, rfl, rfl, rfl, rfl, rfl, rfl, rfl,
        hfresh.changedAt_ok, hfresh.updatedAt_lt hw.mem⟩,
      hfresh.unusedId, hfresh.unusedThread, fun s hs hag hgen => ?_, .inl ⟨rfl, ?_⟩⟩
    · exact absurd (hw.candidate_of_next ha hs hag hgen).1 (hno s hs hag)
    · -- a failed attempt of this lineage would be a candidate of the agent
      intro s hs hfailed hlin
      have hc : s.ownershipStatus = .candidate := by
        rw [(ha.consistent.lifecycled s hs).ownership, hfailed]
        rfl
      have hag : s.agentId = owner.agentId := by
        cases hr : s.replacesSessionId with
        | none => simp [Session.lineage, hr, stagedCandidate] at hlin
        | some id =>
          simp only [Session.lineage, hr, stagedCandidate, Option.map_some, Option.some.injEq,
            Prod.mk.injEq] at hlin
          exact hlin.1
      exact hno s hs hag hc

/-! ## Retrying -/

/-- A candidate for a waiting owner belongs to its agent and to the next generation. -/
theorem CandidateFor.replaces (hc : CandidateFor state owner c) (hw : Waits state owner)
    (ha : Accepted state) : Replaces c owner := by
  obtain ⟨r, hr, hrid, hlk⟩ := ha.consistent.replaces c hc.1 _ hc.2.2
  obtain rfl : r = owner := ha.consistent.ids.eq_of_key hr hw.mem (congrArg some hrid) rfl
  exact hlk

theorem CandidateFor.lineage_eq (hc : CandidateFor state owner c) (hw : Waits state owner)
    (ha : Accepted state) : c.lineage =
      some (owner.agentId, owner.sessionGeneration + 1, owner.sessionId) := by
  have hlk := hc.replaces hw ha
  simp [Session.lineage, hc.2.2, ← hlk.agent, hlk.generation]

section

variable (hf : NewestFor state owner f) (hw : Waits state owner) (ha : Accepted state)
include hf hw ha

/-- Nothing retries the newest candidate: the retry would be newer. -/
theorem NewestFor.not_retried : ∀ s ∈ state.sessions, s.retryOfSessionId ≠ some f.sessionId := by
  intro s hs hrt
  obtain ⟨g, hg, hgid, hlk⟩ := ha.consistent.retry s hs _ hrt
  obtain rfl : g = f := ha.consistent.ids.eq_of_key hg hf.1.1 (congrArg some hgid) rfl
  have hrep := hf.1.replaces hw ha
  have hcand := hw.candidate_of_next ha hs (hlk.agent.symm.trans hrep.agent.symm)
    (hlk.generation.symm.trans hrep.generation)
  have hle := hf.2 s ⟨hs, hcand.1, hcand.2⟩
  have hcrd := not_lt.mp (ha.consistent.lifecycled g hg).evidenceOk.created_le
  have hlt : g.updatedAt < s.createdAt := of_decide_eq_true (both_some.mp hlk.later).2.2
  exact absurd (hle.trans hcrd) (not_le.mpr hlt)

omit hf hw ha in
/-- Nothing retries a candidate that has not failed. -/
theorem not_retried_of_ne_failed (ha : Accepted state) (hs : s ∈ state.sessions)
    (hlv : s.rotationState ≠ .failed) :
    ∀ z ∈ state.sessions, z.retryOfSessionId ≠ some s.sessionId := by
  intro z hz hrt
  obtain ⟨g, hg, hgid, hlk⟩ := ha.consistent.retry z hz _ hrt
  obtain rfl : g = s := ha.consistent.ids.eq_of_key hg hs (congrArg some hgid) rfl
  exact hlv hlk.failed

/-- When the newest candidate has failed, all have. -/
theorem NewestFor.all_failed (hfailed : f.rotationState = .failed)
    (hc : CandidateFor state owner c) : c.rotationState = .failed := by
  by_contra hlv
  have heq : c = f := ha.consistent.last_unique hf.1.1 (hf.1.lineage_eq hw ha) hfailed hc.1
    (hc.lineage_eq hw ha) hf.1.1 (hf.1.lineage_eq hw ha)
    (not_retried_of_ne_failed ha hc.1 hlv) (hf.not_retried hw ha)
  exact hlv (heq ▸ hfailed)

theorem retryCandidate_warmingFor (hfailed : f.rotationState = .failed)
    (hfresh : Fresh state sessionId threadId changedAt) :
    WarmingFor (retryCandidate f sessionId threadId changedAt) owner := by
  have hlf := ha.consistent.lifecycled f hf.1.1
  have hlk := hf.1.replaces hw ha
  obtain ⟨htn, hacc⟩ := hlf.evidenceOk.unaccepted (by rw [hfailed]; exact Bool.false_ne_true)
  obtain ⟨hstd, hend⟩ := hlf.ownershipOk.unowned (by rw [hfailed]; rfl)
  have hnotReplaced := hlf.lineageOk.notReplaced (by rw [hfailed]; rfl)
  have haccepts : f.acceptsNewWork = false := by
    rw [hlf.accepts, hfailed]
    rfl
  exact ⟨hlk.agent.symm, hlk.generation, rfl, htn, hacc, rfl, hf.1.2.1, haccepts, rfl,
    hf.1.2.2, hnotReplaced, rfl, hlk.provenance.symm, hstd, hend, rfl, hfresh.changedAt_ok,
    hfresh.updatedAt_lt hw.mem⟩

end

theorem retryCandidate_schemaOk (hf : f.SchemaOk)
    (hfresh : Fresh state sessionId threadId changedAt) :
    (retryCandidate f sessionId threadId changedAt).SchemaOk :=
  { hf with
    sessionId := hfresh.sessionId_ok
    threadId := hfresh.threadId_ok
    retryOfSessionId := hf.sessionId
    runtimeAuthorityId := rfl
    createdAt := matchesPattern_of_valid hfresh.changedAt_ok
    updatedAt := matchesPattern_of_valid hfresh.changedAt_ok }

theorem laterOf_lt {a b : String} (ha : a < changedAt) (hb : b < changedAt) :
    laterOf a b < changedAt := by
  unfold laterOf
  split
  · exact ha
  · exact hb

section

variable (hw : Waits state owner) (ha : Accepted state)
  (hfresh : Fresh state sessionId threadId changedAt) (hf : NewestFor state owner f)
  (hfailed : f.rotationState = .failed)
include hw ha hfresh hf hfailed

theorem Waits.retryUpdate_eq : retryUpdate f.sessionId sessionId threadId changedAt state =
      .ok (some (state.sessions ++ [retryCandidate f sessionId threadId changedAt])) := by
  have hfi : (sessionById state.sessions f.sessionId).filter (fun s =>
      s.rotationState = .failed ∧ s.ownershipStatus = .candidate) = some f := by
    rw [(sessionById_eq_some ha.consistent.ids).mpr ⟨hf.1.1, rfl⟩]
    simp [hfailed, hf.1.2.1]
  simp only [retryUpdate, chain_eq_ok, require_eq_ok, hfi, Option.some.injEq, exists_eq_left',
    hf.1.2.2, hw.sessionById_eq ha, hfresh.sessionById_eq_none, assertLater_eq_ok,
    assertSessionIdentityAvailable]
  have hlk := hf.1.replaces hw ha
  refine ⟨?_, ⟨hfresh.changedAt_ok, laterOf_lt (hfresh.updatedAt_lt hf.1.1)
    (hfresh.updatedAt_lt hw.mem)⟩, ⟨?_, ?_⟩, trivial⟩
  · rintro ⟨s, hs, hrt⟩
    exact hf.not_retried hw ha s hs hrt
  · rintro ⟨s, hs, hag, hgen, hlv⟩
    have hcand := hw.candidate_of_next ha hs (hag.trans hlk.agent.symm) (hgen.trans hlk.generation)
    exact hlv (hf.all_failed hw ha hfailed ⟨hs, hcand.1, hcand.2⟩)
  · rintro ⟨s, hs, hth⟩
    exact hfresh.unusedThread s hs hth

theorem Waits.commits_retry_iff : Commits (retryFor state f sessionId threadId changedAt) ↔
      state.revision < MAX_SAFE_INTEGER := by
  rw [retryFor, retryFailedRotationCandidate, commits_mutate_iff ha,
    hw.retryUpdate_eq ha hfresh hf hfailed]
  simp only [Except.ok.injEq, Option.some.injEq, exists_eq_left']
  constructor
  · exact fun hnx => hnx.revision
  · intro hrev
    have hlk := hf.1.replaces hw ha
    refine ha.join (p := owner) ?_ (retryCandidate_schemaOk (ha.schema f hf.1.1) hfresh) hrev
    refine ⟨hw.mem, hw.owns, hw.checkpointed, retryCandidate_warmingFor hf hw ha hfailed hfresh,
      hfresh.unusedId, hfresh.unusedThread, fun s hs hag hgen => ?_,
      .inr ⟨f, hf.1.1, rfl, ⟨hfailed, rfl, rfl, rfl, ?_⟩, hf.not_retried hw ha⟩⟩
    · have hcand := hw.candidate_of_next ha hs (hag.trans hlk.agent.symm)
        (hgen.trans hlk.generation)
      exact hf.all_failed hw ha hfailed ⟨hs, hcand.1, hcand.2⟩
    · exact both_some.mpr ⟨(ha.consistent.lifecycled f hf.1.1).evidenceOk.updated,
        hfresh.changedAt_ok, decide_eq_true (hfresh.updatedAt_lt hf.1.1)⟩

end

theorem exists_newest (hc : CandidateFor state owner c) : ∃ f, NewestFor state owner f := by
  classical
  let candidates := state.sessions.filter fun s =>
    s.ownershipStatus = .candidate ∧ s.replacesSessionId = some owner.sessionId
  have hmem : ∀ s, s ∈ candidates ↔ CandidateFor state owner s := fun s => by
    simp [candidates, CandidateFor]
  obtain ⟨f, hf, hmax⟩ := candidates.toFinset.exists_max_image Session.createdAt
    ⟨c, mem_toFinset.mpr ((hmem c).mpr hc)⟩
  exact ⟨f, (hmem f).mp (mem_toFinset.mp hf), fun s hs =>
    hmax s (mem_toFinset.mpr ((hmem s).mpr hs))⟩

/-! ## When rotation is open -/

/-- A waiting owner can get a successor: where no candidate replaces it one can be staged, and
where the newest has failed it can be retried. -/
def CanRotate (state : SessionBindingState) (owner : Session)
    (sessionId threadId changedAt : String) : Prop :=
  ((¬ ∃ c, CandidateFor state owner c) →
    Commits (stageFor state owner sessionId threadId changedAt)) ∧
  ∀ f, NewestFor state owner f → f.rotationState = .failed →
    Commits (retryFor state f sessionId threadId changedAt)

/-- A live candidate is under way; or the revision can still grow, and if no candidate replaces the
owner then the agent has no candidate row from an earlier generation either. -/
def RotationOpen (state : SessionBindingState) (owner : Session) : Prop :=
  (∃ c, CandidateFor state owner c ∧ c.rotationState ≠ .failed) ∨
  (state.revision < MAX_SAFE_INTEGER ∧
    ((∃ c, CandidateFor state owner c) ∨ NoCandidateOf state owner.agentId))

/-- Exactly when a waiting owner can get a successor, in every reachable state and for every fresh
input. -/
theorem canRotate_iff (h : Reachable state) (hw : Waits state owner)
    (hfresh : Fresh state sessionId threadId changedAt) :
    CanRotate state owner sessionId threadId changedAt ↔ RotationOpen state owner := by
  have ha := h.accepted
  constructor
  · rintro ⟨hstage, hretry⟩
    by_cases hexists : ∃ c, CandidateFor state owner c
    · obtain ⟨c, hc⟩ := hexists
      obtain ⟨f, hf⟩ := exists_newest hc
      by_cases hfailed : f.rotationState = .failed
      · exact .inr ⟨(hw.commits_retry_iff ha hfresh hf hfailed).mp (hretry f hf hfailed),
          .inl ⟨c, hc⟩⟩
      · exact .inl ⟨f, hf.1, hfailed⟩
    · obtain ⟨hno, hrevision⟩ := (hw.commits_stage_iff h hfresh).mp (hstage hexists)
      exact .inr ⟨hrevision, .inr hno⟩
  · rintro (⟨c, hc, hlive⟩ | ⟨hrevision, hopen⟩)
    · exact ⟨fun hnone => absurd ⟨c, hc⟩ hnone, fun f hf hfailed =>
        absurd (hf.all_failed hw ha hfailed hc) hlive⟩
    · refine ⟨fun hnone => ?_, fun f hf hfailed =>
        (hw.commits_retry_iff ha hfresh hf hfailed).mpr hrevision⟩
      exact (hw.commits_stage_iff h hfresh).mpr ⟨hopen.resolve_left hnone, hrevision⟩

/-! ## An agent that is locked out -/

def day (d : String) : String := "2026-01-" ++ d ++ "T00:00:00.000Z"

/-- The foundation agent's first session, brought to its checkpoint. -/
def firstCheckpoint : List Mutation :=
  [.upsertFoundation ⟨"p", 0, "s1", "orchestrator", "t1", "h1", day "01", "a", .codexTask, "", none,
      none, none, none⟩,
    .transition "p" 1 "s1" .rotationPreparing (day "02"),
    .transition "p" 2 "s1" .rotationPending (day "03"),
    .transition "p" 3 "s1" .draining (day "04"),
    .transition "p" 4 "s1" .checkpointed (day "05")]

/-- A first candidate fails, its retry takes over and comes to its own checkpoint. -/
def secondCheckpoint : List Mutation :=
  [.stage "p" 5 "s1" "s2" "t2" (day "06"),
    .fail "p" 6 "s2" .conflict (day "07"),
    .retry "p" 7 "s2" "s3" "t3" (day "08"),
    .verify "p" 8 "s3" "h3" (day "09") "a",
    .accept "p" 9 "s3" (day "10"),
    .transition "p" 10 "s3" .rotationPreparing (day "11"),
    .transition "p" 11 "s3" .rotationPending (day "12"),
    .transition "p" 12 "s3" .draining (day "13"),
    .transition "p" 13 "s3" .checkpointed (day "14")]

/-- Apply mutations in turn; the verifier accepts every authority. -/
def run (state : SessionBindingState) (ms : List Mutation) :
    Except StoreError SessionBindingState :=
  runAll (fun s m => MutationResult.state <$> m.apply (some fun _ => .ok ()) s) state ms

theorem Reachable.run {next : SessionBindingState} {ms : List Mutation} (h : Reachable state)
    (hrun : SessionBinding.run state ms = .ok next) : Reachable next := by
  refine runAll_invariant (fun m _ s s' hs hm => ?_) h hrun
  obtain ⟨r, hr, rfl⟩ := map_eq_ok.mp hm
  exact hs.step hr

/-- The first session at its checkpoint. -/
def firstOwner : Session where
  sessionId := "s1"
  agentId := "orchestrator"
  threadId := "t1"
  sessionGeneration := 1
  attachmentToolState := some .unsupported
  handoffStatus := .accepted
  handoffTurnId := some "h1"
  acceptedAt := some (day "01")
  rotationState := .checkpointed
  ownershipStatus := .owner
  acceptsNewWork := false
  bindingStatus := .bound
  replacesSessionId := none
  retryOfSessionId := none
  replacedBySessionId := none
  visibility := .codexTask
  profileId := "foundation:orchestrator:v1"
  runtimeAuthorityId := some "a"
  provisioningRequestId := none
  placementIntentId := none
  taskId := none
  ownershipStartedAt := some (day "01")
  ownershipEndedAt := none
  createdAt := day "01"
  updatedAt := day "05"

def failedAttempt : Session :=
  { stagedCandidate firstOwner "s2" "t2" (day "06") with
    handoffStatus := .failed
    rotationState := .failed
    bindingStatus := .conflict
    updatedAt := day "07" }

/-- The second session, of generation two, at its checkpoint. -/
def secondOwner : Session :=
  { retryCandidate failedAttempt "s3" "t3" (day "08") with
    handoffStatus := .accepted
    handoffTurnId := some "h3"
    acceptedAt := some (day "09")
    rotationState := .checkpointed
    ownershipStatus := .owner
    bindingStatus := .bound
    runtimeAuthorityId := some "a"
    ownershipStartedAt := some (day "10")
    updatedAt := day "14" }

def atFirstCheckpoint : SessionBindingState := ⟨"p", 5, [firstOwner]⟩

def lockedOut : SessionBindingState where
  projectId := "p"
  revision := 14
  sessions :=
    [{ firstOwner with
        rotationState := .superseded
        ownershipStatus := .superseded
        replacedBySessionId := some "s3"
        ownershipEndedAt := some (day "10")
        updatedAt := day "10" },
      failedAttempt, secondOwner]

theorem run_firstCheckpoint : run ⟨"p", 0, []⟩ firstCheckpoint = .ok atFirstCheckpoint := by
  decide +kernel

theorem run_secondCheckpoint : run atFirstCheckpoint secondCheckpoint = .ok lockedOut := by
  decide +kernel

theorem reachable_atFirstCheckpoint : Reachable atFirstCheckpoint := by
  have hfresh : createFresh "p" = .ok ⟨"p", 0, []⟩ := by rfl
  exact (Reachable.fresh hfresh).run run_firstCheckpoint

/-- At the first checkpoint a successor can be had. -/
theorem canRotate_atFirstCheckpoint : RotationOpen atFirstCheckpoint firstOwner ∧
    CanRotate atFirstCheckpoint firstOwner "s2" "t2" (day "06") := by
  have hwaits : Waits atFirstCheckpoint firstOwner := ⟨mem_singleton_self _, rfl, rfl⟩
  have hfresh : Fresh atFirstCheckpoint "s2" "t2" (day "06") := by
    refine ⟨by decide, by decide, by decide, ?_, ?_, ?_⟩
    · simp [atFirstCheckpoint, firstOwner]
    · simp [atFirstCheckpoint, firstOwner]
    · simp only [atFirstCheckpoint, mem_singleton, forall_eq]
      decide
  have hopen : RotationOpen atFirstCheckpoint firstOwner := by
    refine .inr ⟨by decide, .inr fun s hs _ => ?_⟩
    obtain rfl := mem_singleton.mp hs
    exact fun habs => by cases habs
  exact ⟨hopen, (canRotate_iff reachable_atFirstCheckpoint hwaits hfresh).mpr hopen⟩

/-- At the second checkpoint no candidate replaces the owner, and none can be staged. -/
theorem not_canRotate_lockedOut : Reachable lockedOut ∧ Waits lockedOut secondOwner ∧
    Fresh lockedOut "s4" "t4" (day "15") ∧ (¬ ∃ c, CandidateFor lockedOut secondOwner c) ∧
    stageFor lockedOut secondOwner "s4" "t4" (day "15") =
    .error ⟨"SESSION_BINDING_CANDIDATE_CONFLICT",
        "agent orchestrator already has a rotation candidate"⟩ ∧
    ¬ CanRotate lockedOut secondOwner "s4" "t4" (day "15") := by
  have hrefused : stageFor lockedOut secondOwner "s4" "t4" (day "15") =
      .error ⟨"SESSION_BINDING_CANDIDATE_CONFLICT",
        "agent orchestrator already has a rotation candidate"⟩ := by rfl
  have hnone : ¬ ∃ c, CandidateFor lockedOut secondOwner c := by
    rintro ⟨c, hc, -, hreplaces⟩
    simp only [lockedOut, mem_cons, not_mem_nil, or_false] at hc
    rcases hc with rfl | rfl | rfl
    all_goals simp [firstOwner, failedAttempt, secondOwner, retryCandidate, stagedCandidate]
      at hreplaces
  refine ⟨reachable_atFirstCheckpoint.run run_secondCheckpoint, ⟨?_, rfl, rfl⟩, ?_, hnone, hrefused,
    fun h => ?_⟩
  · simp [lockedOut]
  · refine ⟨by decide, by decide, by decide, ?_, ?_, ?_⟩
    · simp [lockedOut, firstOwner, failedAttempt, secondOwner, stagedCandidate, retryCandidate]
    · simp [lockedOut, firstOwner, failedAttempt, secondOwner, stagedCandidate, retryCandidate]
    · simp only [lockedOut, mem_cons, not_mem_nil, or_false, forall_eq_or_imp, forall_eq]
      decide
  · obtain ⟨next, hnext⟩ := h.1 hnone
    rw [hrefused] at hnext
    cases hnext

end Orquesta.SessionBinding
