import Orquesta.Library.Keyed
import Orquesta.SessionBinding.Contract

/-!
# What an accepted session-binding state satisfies

`validateContract` returns reports; here its acceptance is stated without them.
`Session.Lifecycled` is what the checks of one row come to, `Replaces`, `Retries`
and `ReplacedBy` what the checks of one link come to, and `Consistent` collects
what is asked of all rows together.  None of them mentions a position in the list,
so `Consistent` may be read off the rows in any order.

The two searches for cycles have no counterpart: a replacement link raises the
generation and a retry link goes back in time, so neither walk can return.

## Main results

* `sessionBindingLifecycleErrors_eq_nil`: one row
* `sessionBindingStateV1Errors_eq_nil`: all rows
* `validateContract_ok`: the contract
-/

namespace Orquesta.SessionBinding

open Keyed Report UtcTimestamp List

/-! ## One row -/

/-- The identity of an initial binding: that of a foundation agent, or placed. -/
def Session.InitialIdentity (s : Session) : Prop :=
  if s.agentId ∈ FOUNDATION_AGENT_IDS then
    s.profileId = foundationProfile s.agentId ∧ s.hasNoPlacementProvenance
  else ¬ claimsFoundationNamespace s.profileId ∧ s.hasPlacementProvenance

@[mk_iff]
structure Session.LineageOk (s : Session) : Prop where
  initial : s.sessionGeneration = 1 → s.replacesSessionId = none
  initialOwner : s.sessionGeneration = 1 → (lifecycle s.rotationState).ownership ≠ .candidate
  successor : 1 < s.sessionGeneration → s.replacesSessionId ≠ none
  replacedBy : (lifecycle s.rotationState).replacedBy = .required → s.replacedBySessionId ≠ none
  notReplaced : (lifecycle s.rotationState).replacedBy = .absent → s.replacedBySessionId = none
  provenance : s.hasPlacementProvenance ∨ s.hasNoPlacementProvenance
  identity : s.sessionGeneration = 1 → s.InitialIdentity

structure Session.EvidenceOk (s : Session) : Prop where
  accepted : (lifecycle s.rotationState).acceptedEvidence →
    s.handoffTurnId.isSome ∧ validAt s.acceptedAt
  unaccepted : ¬ (lifecycle s.rotationState).acceptedEvidence →
    s.handoffTurnId = none ∧ s.acceptedAt = none
  created : isValidUtcTimestamp s.createdAt
  updated : isValidUtcTimestamp s.updatedAt
  created_le : ¬ s.updatedAt < s.createdAt
  accepted_between : (lifecycle s.rotationState).acceptedEvidence →
    ∀ a ∈ s.acceptedAt, ¬ a < s.createdAt ∧ ¬ s.updatedAt < a
  authority : (lifecycle s.rotationState).runtimeAuthority = .required →
    s.runtimeAuthorityId ≠ none
  noAuthority : (lifecycle s.rotationState).runtimeAuthority = .absent →
    s.runtimeAuthorityId = none

@[mk_iff]
structure Session.OwnershipOk (s : Session) : Prop where
  unowned : (lifecycle s.rotationState).ownershipWindow = .none →
    s.ownershipStartedAt = none ∧ s.ownershipEndedAt = none
  opened : (lifecycle s.rotationState).ownershipWindow = .open →
    validAt s.ownershipStartedAt ∧ s.ownershipEndedAt = none
  closed : (lifecycle s.rotationState).ownershipWindow = .closed →
    validAt s.ownershipStartedAt ∧ validAt s.ownershipEndedAt
  accepted_le : ¬ both (· < ·) s.ownershipStartedAt s.acceptedAt
  created_le : ¬ both (· < ·) s.ownershipStartedAt (some s.createdAt)
  nonempty : ¬ both (· ≤ ·) s.ownershipEndedAt s.ownershipStartedAt
  le_updated : ¬ both (· < ·) (some s.updatedAt) s.ownershipStartedAt
  ended_eq : validAt s.ownershipEndedAt → s.ownershipEndedAt = some s.updatedAt

/-- The row agrees with the lifecycle of its rotation state. -/
@[mk_iff]
structure Session.Lifecycled (s : Session) : Prop where
  ownership : s.ownershipStatus = (lifecycle s.rotationState).ownership
  handoff : s.handoffStatus = (lifecycle s.rotationState).handoff
  binding : s.bindingStatus ∈ (lifecycle s.rotationState).bindings
  accepts : s.acceptsNewWork = (lifecycle s.rotationState).accepts
  lineageOk : s.LineageOk
  evidenceOk : s.EvidenceOk
  ownershipOk : s.OwnershipOk

variable {s : Session} {path : String}

theorem initialIdentityErrors_eq_nil : initialIdentityErrors path s = [] ↔ s.InitialIdentity := by
  unfold initialIdentityErrors Session.InitialIdentity
  split
  · simp [not_or]
  · split <;> simp_all

theorem lineageErrors_eq_nil : lineageErrors path s = [] ↔ s.LineageOk := by
  have hid : (if s.sessionGeneration = 1 then initialIdentityErrors path s else []) = [] ↔
      (s.sessionGeneration = 1 → s.InitialIdentity) := by
    split <;> simp_all [initialIdentityErrors_eq_nil]
  simp only [lineageErrors, append_eq_nil_iff, reportIf_eq_nil, hid, not_and, not_not, ne_eq,
    Session.lineageOk_iff, or_iff_not_imp_left, and_assoc]

theorem evidenceErrors_eq_nil : evidenceErrors path s = [] ↔ s.EvidenceOk := by
  simp only [evidenceErrors, append_eq_nil_iff, reportIf_eq_nil]
  constructor
  · rintro ⟨⟨⟨⟨⟨h₁, h₂⟩, h₃⟩, htimes⟩, h₄⟩, h₅⟩
    split at htimes
    · cases htimes
    next hval =>
      simp only [append_eq_nil_iff, reportIf_eq_nil] at htimes
      obtain ⟨hle, hbetween⟩ := htimes
      simp only [not_or, not_not] at hval
      refine ⟨fun h => ?_, fun h => ?_, hval.1, hval.2, hle, fun h a ha => ?_, ?_, ?_⟩
      · exact not_not.mp fun hn => h₁ ⟨h, hn⟩
      · exact not_not.mp fun hn => h₂ ⟨h, by rwa [not_and_or] at hn⟩
      · have ha' : isValidUtcTimestamp a := by
          have hat := not_not.mp fun hn => h₃ ⟨by rw [ha]; exact Option.some_ne_none a, hn⟩
          rw [ha] at hat
          exact hat
        rw [← not_or]
        exact fun hout => hbetween ⟨h, a, ha, ha', hout⟩
      · exact fun hr hn => h₄ ⟨hr, hn⟩
      · exact fun hr => not_not.mp fun hn => h₅ ⟨hr, hn⟩
  · intro h
    refine ⟨⟨⟨⟨⟨?_, ?_⟩, ?_⟩, ?_⟩, ?_⟩, ?_⟩
    · exact fun hn => hn.2 (h.accepted hn.1)
    · rintro ⟨hn, hsm⟩
      have hno := h.unaccepted hn
      exact hsm.elim (· hno.1) (· hno.2)
    · rintro ⟨hsm, hinv⟩
      by_cases he : (lifecycle s.rotationState).acceptedEvidence
      · exact hinv (h.accepted he).2
      · exact hsm (h.unaccepted he).2
    · rw [if_neg (by simp [h.created, h.updated])]
      simp only [append_eq_nil_iff, reportIf_eq_nil]
      refine ⟨h.created_le, ?_⟩
      rintro ⟨he, a, ha, -, hout⟩
      obtain ⟨hc, hu⟩ := h.accepted_between he a ha
      exact hout.elim hc hu
    · exact fun hn => h.authority hn.1 hn.2
    · exact fun hn => hn.2 (h.noAuthority hn.1)

theorem ownershipErrors_eq_nil : ownershipErrors path s = [] ↔ s.OwnershipOk := by
  simp only [ownershipErrors, append_eq_nil_iff, reportIf_eq_nil, not_and, not_or, not_not, ne_eq,
    Session.ownershipOk_iff, and_assoc]

theorem sessionBindingLifecycleErrors_eq_nil :
    sessionBindingLifecycleErrors s path = [] ↔ s.Lifecycled := by
  simp only [sessionBindingLifecycleErrors, append_eq_nil_iff, reportIf_eq_nil,
    lineageErrors_eq_nil, evidenceErrors_eq_nil, ownershipErrors_eq_nil, not_or, not_not, ne_eq,
    Session.lifecycled_iff, and_assoc]

/-! ## Links -/

/-- How far a replacement has come: an attempt that failed before its predecessor's time was over,
a candidate waiting for a checkpointed owner, or a completed cut-over. -/
def ReplacementPhase (s predecessor : Session) : Prop :=
  if s.rotationState = .failed ∧
      predecessor.ownershipStatus ∈ [OwnershipStatus.superseded, .retired] then
    both (· < ·) (some s.updatedAt) predecessor.ownershipEndedAt = true
  else match predecessor.replacedBySessionId with
    | none => ¬ both (· ≤ ·) (some s.createdAt) (some predecessor.updatedAt) ∧
        s.ownershipStatus = .candidate ∧
        s.rotationState ∈ [RotationState.successorWarming, .successorVerified, .failed] ∧
        predecessor.ownershipStatus = .owner ∧ predecessor.rotationState = .checkpointed
    | some id => id = s.sessionId ∧ predecessor.ownershipEndedAt = s.ownershipStartedAt

@[mk_iff]
structure Replaces (s predecessor : Session) : Prop where
  agent : predecessor.agentId = s.agentId
  provenance : predecessor.provenance = s.provenance
  authority : predecessor.runtimeAuthorityId.isSome → s.runtimeAuthorityId.isSome →
    predecessor.runtimeAuthorityId = s.runtimeAuthorityId
  generation : s.sessionGeneration = predecessor.sessionGeneration + 1
  phase : ReplacementPhase s predecessor

@[mk_iff]
structure Retries (s failedAttempt : Session) : Prop where
  failed : failedAttempt.rotationState = .failed
  agent : failedAttempt.agentId = s.agentId
  generation : failedAttempt.sessionGeneration = s.sessionGeneration
  predecessor : failedAttempt.replacesSessionId = s.replacesSessionId
  later : both (· < ·) (some failedAttempt.updatedAt) (some s.createdAt)

@[mk_iff]
structure ReplacedBy (s successor : Session) : Prop where
  agent : successor.agentId = s.agentId
  generation : successor.sessionGeneration = s.sessionGeneration + 1
  symmetric : successor.replacesSessionId = some s.sessionId
  superseded : s.ownershipStatus = .superseded
  owned : successor.ownershipStatus ∈ [OwnershipStatus.owner, .superseded, .retired]
  edge : s.ownershipEndedAt = successor.ownershipStartedAt

variable {t : Session}

theorem replacementPhaseErrors_eq_nil :
    replacementPhaseErrors path s t = [] ↔ ReplacementPhase s t := by
  unfold replacementPhaseErrors ReplacementPhase
  split
  · rw [reportIf_eq_nil, not_not]
  · cases t.replacedBySessionId with
    | none =>
      simp only [append_eq_nil_iff, reportIf_eq_nil, not_or, not_not, ne_eq]
    | some id =>
      by_cases hid : id = s.sessionId
      · simp [hid]
      · simp [hid]

theorem replacesErrors_eq_nil : replacesErrors path s t = [] ↔ Replaces s t := by
  simp only [replacesErrors, append_eq_nil_iff, reportIf_eq_nil, replacementPhaseErrors_eq_nil,
    not_and, not_not, ne_eq, replaces_iff, and_assoc]

theorem retryErrors_eq_nil : retryErrors path s t = [] ↔ Retries s t := by
  simp only [retryErrors, reportIf_eq_nil, not_or, not_not, ne_eq, retries_iff]

theorem replacedByErrors_eq_nil : replacedByErrors path s t = [] ↔ ReplacedBy s t := by
  simp only [replacedByErrors, append_eq_nil_iff, reportIf_eq_nil, not_or, not_not, ne_eq,
    replacedBy_iff, and_assoc]

/-- A link leads to a row, and the row is as `R` says. -/
def Linked (sessions : List Session) (link : Option String) (R : Session → Prop) : Prop :=
  ∀ id ∈ link, ∃ t ∈ sessions, t.sessionId = id ∧ R t

variable {ss : List Session}

theorem sessionById_eq_some (hids : Unshared (fun s => some s.sessionId) ss) {id : String} :
    sessionById ss id = some t ↔ t ∈ ss ∧ t.sessionId = id := by
  constructor
  · intro h
    exact ⟨mem_of_find?_eq_some h, by simpa using find?_some h⟩
  · rintro ⟨ht, rfl⟩
    cases h : sessionById ss t.sessionId with
    | none =>
      have hne := find?_eq_none.mp h t ht
      exact absurd (decide_eq_true rfl) hne
    | some r =>
      have hid : r.sessionId = t.sessionId := by simpa using find?_some h
      rw [hids.eq_of_key (mem_of_find?_eq_some h) ht (congrArg some hid) rfl]

theorem linkErrors_eq_nil (hids : Unshared (fun s => some s.sessionId) ss)
    {link : Option String} {missing : SchemaError} {check : Session → List SchemaError}
    {R : Session → Prop} (hR : ∀ t, check t = [] ↔ R t) :
    linkErrors ss link missing check = [] ↔ Linked ss link R := by
  cases link with
  | none => simp [linkErrors, Linked]
  | some id =>
    simp only [linkErrors, Linked, Option.mem_def, Option.some.injEq, forall_eq']
    cases h : sessionById ss id with
    | none =>
      have hno := find?_eq_none.mp h
      simp only [cons_ne_nil, false_iff, not_exists, not_and]
      exact fun t ht hid => absurd hid (by simpa using hno t ht)
    | some t =>
      obtain ⟨ht, hid⟩ := (sessionById_eq_some hids).mp h
      constructor
      · exact fun hc => ⟨t, ht, hid, (hR t).mp hc⟩
      · rintro ⟨r, hr, hrid, hRr⟩
        have hrt : r = t := hids.eq_of_key hr ht (congrArg some hrid) (congrArg some hid)
        exact (hR t).mpr (hrt ▸ hRr)

/-! ## All rows -/

/-- Agent and generation of a row that has not failed. -/
def Session.generationKey (s : Session) : Option (String × Nat) :=
  if s.rotationState = .failed then none else some (s.agentId, s.sessionGeneration)

theorem Session.generationKey_eq_some {aid : String} {gen : Nat} :
    s.generationKey = some (aid, gen) ↔
      s.rotationState ≠ .failed ∧ s.agentId = aid ∧ s.sessionGeneration = gen := by
  unfold generationKey
  split <;> simp_all

/-- The owners of an agent. -/
def ownersOf (sessions : List Session) (agentId : String) : List Session :=
  sessions.filter fun s => s.ownershipStatus = .owner ∧ s.agentId = agentId

/-- The attempts of a lineage that retry no other. -/
def rootsOf (sessions : List Session) (l : String × Nat × String) : List Session :=
  sessions.filter fun s => s.lineage = some l ∧ s.retryOfSessionId = none

/-- What the contract asks of the rows, whatever their order. -/
structure Consistent (sessions : List Session) : Prop where
  ids : Unshared (fun s => some s.sessionId) sessions
  generations : Unshared Session.generationKey sessions
  threads : Unshared (fun s => some s.threadId) sessions
  lifecycled : ∀ s ∈ sessions, s.Lifecycled
  requests : Unshared (initially (·.provisioningRequestId)) sessions
  tasks : Unshared (initially (·.taskId)) sessions
  owners : ∀ s ∈ sessions, s.isBoundNonterminal → (ownersOf sessions s.agentId).length = 1
  authority : ∀ r ∈ sessions, ∀ s ∈ sessions, r.isBoundNonterminal → s.isBoundNonterminal →
    ∀ a ∈ r.runtimeAuthorityId, ∀ b ∈ s.runtimeAuthorityId, a = b
  candidates : Unshared Session.livePredecessor sessions
  retries : Unshared Session.retryOfSessionId sessions
  retryRoots : Unshared Session.initialFailedLineage sessions
  retryLineage : ∀ s ∈ sessions, s.rotationState = .failed → ∀ l ∈ s.lineage,
    ∃ root, rootsOf sessions l = [root] ∧ root.rotationState = .failed
  replaces : ∀ s ∈ sessions, Linked sessions s.replacesSessionId (Replaces s)
  retry : ∀ s ∈ sessions, Linked sessions s.retryOfSessionId (Retries s)
  replacedBy : ∀ s ∈ sessions, Linked sessions s.replacedBySessionId (ReplacedBy s)

theorem scan_claimedByOther (hids : Unshared (fun s => some s.sessionId) ss)
    (hne : ∀ s ∈ ss, s.sessionId ≠ "") {key : Session → Option String}
    {e : Nat → SchemaError} :
    scan (fun earlier s => reportIf (claimedByOther key earlier s) (e earlier.length)) ss = []
      ↔ Unshared key ss := by
  refine scan_pairwise ?_
  rintro pre s after rfl
  rw [reportIf_eq_nil]
  constructor
  · intro h r hr k hkr hks
    apply h
    -- the first earlier row with the key is some row, and no earlier row has the id of `s`
    cases hfi : pre.find? fun r => key r = key s ∧ r.sessionId ≠ "" with
    | none =>
      have hno := find?_eq_none.mp hfi r hr
      simp [hkr, hks, hne r (by simp [hr])] at hno
    | some c =>
      have hc : c ∈ pre := mem_of_find?_eq_some hfi
      have hid : c.sessionId ≠ s.sessionId := fun hid =>
        (pairwise_append.mp hids).2.2 c hc s mem_cons_self _ rfl (congrArg some hid.symm)
      rw [claimedByOther, hfi]
      simp [hks, hid]
  · intro h hcd
    rw [claimedByOther, Bool.and_eq_true, Option.any_eq_true] at hcd
    obtain ⟨hsm, r, hfi, -⟩ := hcd
    obtain ⟨k, hk⟩ := Option.isSome_iff_exists.mp hsm
    have hr := find?_some hfi
    simp only [decide_eq_true_eq] at hr
    exact h r (mem_of_find?_eq_some hfi) k (hr.1.trans hk) hk

theorem scan_rowErrors (hne : ∀ s ∈ ss, s.sessionId ≠ "") : scan rowErrors ss = [] ↔
      Unshared (fun s => some s.sessionId) ss ∧ Unshared Session.generationKey ss ∧
      Unshared (fun s => some s.threadId) ss ∧ (∀ s ∈ ss, s.Lifecycled) ∧
      Unshared (initially (·.provisioningRequestId)) ss ∧
      Unshared (initially (·.taskId)) ss := by
  unfold rowErrors
  simp only [scan_append, and_assoc]
  have hids : scan (fun earlier (s : Session) => reportIf (∃ r ∈ earlier, r.sessionId = s.sessionId)
      (⟨sessionPath earlier.length ++ ".session_id", "session_binding_session_id_unique",
        "session_id must be unique"⟩ : SchemaError)) ss = [] ↔
      Unshared (fun s => some s.sessionId) ss := by
    refine scan_pairwise fun pre s after _ => ?_
    rw [reportIf_eq_nil]
    constructor
    · exact fun h r hr k hkr hks => h ⟨r, hr, Option.some.inj (hkr.trans hks.symm)⟩
    · rintro h ⟨r, hr, hid⟩
      exact h r hr _ rfl (congrArg some hid.symm)
  rw [hids]
  refine and_congr_right fun hu => and_congr ?_ (and_congr ?_ (and_congr ?_ (and_congr ?_ ?_)))
  · refine scan_pairwise fun pre s after _ => ?_
    rw [reportIf_eq_nil]
    constructor
    · rintro h r hr ⟨aid, gen⟩ hkr hks
      obtain ⟨hr', ha, hg⟩ := Session.generationKey_eq_some.mp hkr
      obtain ⟨hs', ha', hg'⟩ := Session.generationKey_eq_some.mp hks
      exact h ⟨hs', r, hr, hr', ha.trans ha'.symm, hg.trans hg'.symm⟩
    · rintro h ⟨hs', r, hr, hr', ha, hg⟩
      exact h r hr _ (Session.generationKey_eq_some.mpr ⟨hr', ha, hg⟩)
        (Session.generationKey_eq_some.mpr ⟨hs', rfl, rfl⟩)
  · exact scan_claimedByOther hu hne (e := fun n => ⟨sessionPath n ++ ".thread_id", _, _⟩)
  · exact scan_forall (P := Session.Lifecycled) fun _ _ => sessionBindingLifecycleErrors_eq_nil
  · exact scan_claimedByOther hu hne
      (e := fun n => ⟨sessionPath n ++ ".provisioning_request_id", _, _⟩)
  · exact scan_claimedByOther hu hne (e := fun n => ⟨sessionPath n ++ ".task_id", _, _⟩)

theorem ownerErrors_eq_nil : ownerErrors ss = [] ↔
    ∀ s ∈ ss, s.isBoundNonterminal → (ownersOf ss s.agentId).length = 1 := by
  simp only [ownerErrors, flatMap_eq_nil_iff, reportIf_eq_nil, mem_dedup, mem_map,
    mem_filter, not_not, ne_eq, ownersOf]
  constructor
  · exact fun h s hs hb => h s.agentId ⟨s, ⟨hs, hb⟩, rfl⟩
  · rintro h - ⟨s, ⟨hs, hb⟩, rfl⟩
    exact h s hs hb

theorem length_dedup_le_one {α : Type} [DecidableEq α] {l : List α} :
    l.dedup.length ≤ 1 ↔ ∀ a ∈ l, ∀ b ∈ l, a = b := by
  constructor
  · intro h a ha b hb
    rw [← mem_dedup] at ha hb
    obtain ⟨c, hc⟩ | hnil := (Nat.le_one_iff_eq_zero_or_eq_one.mp h).symm.imp
      length_eq_one_iff.mp length_eq_zero_iff.mp
    · rw [hc, mem_singleton] at ha hb
      rw [ha, hb]
    · rw [hnil] at ha
      exact absurd ha not_mem_nil
  · intro h
    have hnd := l.nodup_dedup
    match hd : l.dedup with
    | [] => simp
    | [_] => simp
    | a :: b :: rest =>
      have hab := h a (mem_dedup.mp (by simp [hd])) b (mem_dedup.mp (by simp [hd]))
      simp [hd, hab] at hnd

theorem activeRuntimeAuthorities_le_one : (activeRuntimeAuthorities ss).length ≤ 1 ↔
    ∀ r ∈ ss, ∀ s ∈ ss, r.isBoundNonterminal → s.isBoundNonterminal →
      ∀ a ∈ r.runtimeAuthorityId, ∀ b ∈ s.runtimeAuthorityId, a = b := by
  rw [activeRuntimeAuthorities, length_dedup_le_one]
  simp only [mem_filterMap, mem_filter]
  constructor
  · exact fun h r hr s hs hbr hbs a ha b hb => h a ⟨r, ⟨hr, hbr⟩, ha⟩ b ⟨s, ⟨hs, hbs⟩, hb⟩
  · rintro h a ⟨r, ⟨hr, hbr⟩, ha⟩ b ⟨s, ⟨hs, hbs⟩, hb⟩
    exact h r hr s hs hbr hbs a ha b hb

theorem groupErrors_eq_nil {κ : Type} [DecidableEq κ] {key : Session → Option κ} {code : String}
    {m : κ → String} :
    groupErrors key code m ss = [] ↔ Unshared key ss := by
  rw [unshared_iff_length_filter_le_one]
  simp only [groupErrors, grouped, flatMap_eq_nil_iff, mem_map, reportIf_eq_nil,
    mem_dedup, mem_filterMap, not_lt]
  constructor
  · intro h k
    by_cases hk : ∃ s ∈ ss, key s = some k
    · exact h _ ⟨k, hk, rfl⟩
    · have hno : (ss.filter fun s => key s = some k) = [] := by
        rw [filter_eq_nil_iff]
        intro s hs hks
        exact hk ⟨s, hs, by simpa using hks⟩
      simp [hno]
  · rintro h - ⟨k, -, rfl⟩
    exact h k

theorem retryLineageErrors_eq_nil : retryLineageErrors ss = [] ↔
    ∀ s ∈ ss, s.rotationState = .failed → ∀ l ∈ s.lineage,
      ∃ root, rootsOf ss l = [root] ∧ root.rotationState = .failed := by
  have hrts : ∀ l, ((ss.filter fun s => s.lineage = some l).filter
      fun s => s.retryOfSessionId = none) = rootsOf ss l := by
    intro l
    rw [filter_filter, rootsOf]
    congr 1
    funext s
    simp [Bool.and_comm]
  have hone : ∀ roots : List Session,
        ¬ (roots.length ≠ 1 ∨ ∃ s ∈ roots.head?, s.rotationState ≠ .failed) ↔
        ∃ root, roots = [root] ∧ root.rotationState = .failed := by
    intro roots
    match roots with
    | [] => simp
    | [root] => simp
    | _ :: _ :: _ => simp
  simp only [retryLineageErrors, grouped, flatMap_eq_nil_iff, mem_map, reportIf_eq_nil,
    mem_dedup, mem_filterMap]
  constructor
  · intro h s hs hf l hl
    have hg := h _ ⟨l, ⟨s, hs, hl⟩, rfl⟩
    rw [hrts, not_and] at hg
    exact (hone _).mp (hg ⟨s, by simp [hs, Option.mem_def.mp hl], hf⟩)
  · rintro h - ⟨l, -, rfl⟩ ⟨⟨s, hs, hf⟩, hbad⟩
    simp only [mem_filter, decide_eq_true_eq] at hs
    rw [hrts] at hbad
    exact (hone _).mpr (h s hs.1 hf l hs.2) hbad

theorem scan_rowLinkErrors (hids : Unshared (fun s => some s.sessionId) ss) :
    scan (fun earlier s => rowLinkErrors ss (sessionPath earlier.length) s) ss = [] ↔
      (∀ s ∈ ss, Linked ss s.replacesSessionId (Replaces s)) ∧
      (∀ s ∈ ss, Linked ss s.retryOfSessionId (Retries s)) ∧
      (∀ s ∈ ss, Linked ss s.replacedBySessionId (ReplacedBy s)) := by
  simp only [rowLinkErrors, scan_append, and_assoc]
  refine and_congr ?_ (and_congr ?_ ?_)
  · exact scan_forall (P := fun s => Linked ss s.replacesSessionId (Replaces s))
      fun _ _ => linkErrors_eq_nil hids fun _ => replacesErrors_eq_nil
  · exact scan_forall (P := fun s => Linked ss s.retryOfSessionId (Retries s))
      fun _ _ => linkErrors_eq_nil hids fun _ => retryErrors_eq_nil
  · exact scan_forall (P := fun s => Linked ss s.replacedBySessionId (ReplacedBy s))
      fun _ _ => linkErrors_eq_nil hids fun _ => replacedByErrors_eq_nil

theorem both_some {p : String → String → Bool} {a b : String} :
    both p (some a) (some b) ↔ isValidUtcTimestamp a ∧ isValidUtcTimestamp b ∧ p a b := by
  simp [both, and_assoc]

theorem cycleErrors_eq_nil {τ : Type} [Preorder τ] (rank : Session → τ)
    (hids : Unshared (fun s => some s.sessionId) ss) {link : Session → Option String}
    {code m : String}
    (hup : ∀ s ∈ ss, Linked ss (link s) fun t => rank s < rank t) :
    cycleErrors link code m ss = [] := by
  rw [cycleErrors, flatMap_eq_nil_iff]
  intro s hs
  rw [reportIf_eq_nil, Bool.not_eq_true]
  refine revisits_eq_false rank (fun a ha b hb hid => ?_) (fun a ha k b hk hfi => ?_) hs
  · rw [hids.eq_of_key ha hb (congrArg some hid) rfl]
  · obtain ⟨hb, hbk⟩ := (sessionById_eq_some hids).mp hfi
    obtain ⟨t, ht, htk, hlt⟩ := hup a ha k hk
    have htb : t = b := hids.eq_of_key ht hb (congrArg some htk) (congrArg some hbk)
    exact ⟨hb, htb ▸ hlt⟩

variable {st : SessionBindingState}

/-- The checks beyond the schema find nothing exactly when the rows are sorted and consistent. -/
theorem sessionBindingStateV1Errors_eq_nil (hne : ∀ s ∈ st.sessions, s.sessionId ≠ "") :
    sessionBindingStateV1Errors st = [] ↔ st.sessions = ordered st.sessions ∧
    Consistent st.sessions := by
  simp only [sessionBindingStateV1Errors, append_eq_nil_iff, reportIf_eq_nil, not_not, ne_eq,
    scan_rowErrors hne, ownerErrors_eq_nil, not_lt, activeRuntimeAuthorities_le_one,
    groupErrors_eq_nil, retryLineageErrors_eq_nil, and_assoc]
  refine and_congr_right fun _ => ?_
  constructor
  · rintro ⟨hids, hgen, hthr, hlf, hreq, htk, hown, hauth, hcand, hrt, hro, hline, hlk, -, -⟩
    obtain ⟨h₁, h₂, h₃⟩ := (scan_rowLinkErrors hids).mp hlk
    exact ⟨hids, hgen, hthr, hlf, hreq, htk, hown, hauth, hcand, hrt, hro, hline, h₁, h₂, h₃⟩
  · intro h
    refine ⟨h.ids, h.generations, h.threads, h.lifecycled, h.requests, h.tasks, h.owners,
      h.authority, h.candidates, h.retries, h.retryRoots, h.retryLineage,
      (scan_rowLinkErrors h.ids).mpr ⟨h.replaces, h.retry, h.replacedBy⟩, ?_, ?_⟩
    · -- a replacement is one generation later
      refine cycleErrors_eq_nil Session.sessionGeneration h.ids fun s hs id hid => ?_
      obtain ⟨t, ht, htid, hlk⟩ := h.replacedBy s hs id hid
      have hlt : s.sessionGeneration < t.sessionGeneration := by
        rw [hlk.generation]
        exact Nat.lt_succ_self _
      exact ⟨t, ht, htid, hlt⟩
    · -- what is retried was created before its retry
      refine cycleErrors_eq_nil (fun s => OrderDual.toDual s.createdAt) h.ids fun s hs id hid => ?_
      obtain ⟨t, ht, htid, hlk⟩ := h.retry s hs id hid
      have hlater := (both_some.mp hlk.later).2.2
      have hcrd := not_lt.mp (h.lifecycled t ht).evidenceOk.created_le
      exact ⟨t, ht, htid, OrderDual.toDual_lt_toDual.mpr
        (lt_of_le_of_lt hcrd (of_decide_eq_true hlater))⟩

/-! ## The contract -/

theorem isIdentifier_ne_empty {n : Nat} {id : String} (h : isIdentifier n id) : id ≠ "" := by
  rintro rfl
  cases h

/-- The patterns and ranges of a row. -/
@[mk_iff]
structure Session.SchemaOk (s : Session) : Prop where
  sessionId : isIdentifier 127 s.sessionId
  agentId : isIdentifier 127 s.agentId
  threadId : isIdentifier 255 s.threadId
  one_le_generation : 1 ≤ s.sessionGeneration
  generation_le : s.sessionGeneration ≤ MAX_SAFE_INTEGER
  handoffTurnId : s.handoffTurnId.all (isIdentifier 255)
  acceptedAt : s.acceptedAt.all matchesPattern
  replacesSessionId : s.replacesSessionId.all (isIdentifier 127)
  replacedBySessionId : s.replacedBySessionId.all (isIdentifier 127)
  retryOfSessionId : s.retryOfSessionId.all (isIdentifier 127)
  profileId : isIdentifier 255 s.profileId
  runtimeAuthorityId : s.runtimeAuthorityId.all (isIdentifier 255)
  provisioningRequestId : s.provisioningRequestId.all (isIdentifier 255)
  placementIntentId : s.placementIntentId.all isPlacementIntentId
  taskId : s.taskId.all (isIdentifier 127)
  ownershipStartedAt : s.ownershipStartedAt.all matchesPattern
  ownershipEndedAt : s.ownershipEndedAt.all matchesPattern
  createdAt : matchesPattern s.createdAt
  updatedAt : matchesPattern s.updatedAt

theorem sessionSchemaErrors_eq_nil : sessionSchemaErrors path s = [] ↔ s.SchemaOk := by
  simp only [sessionSchemaErrors, patternError, nullableError, append_eq_nil_iff, reportIf_eq_nil,
    not_not, not_lt, Session.schemaOk_iff, and_assoc]

/-- An accepted state. -/
structure Accepted (state : SessionBindingState) : Prop where
  projectId : isIdentifier 127 state.projectId
  revision : state.revision ≤ MAX_SAFE_INTEGER
  schema : ∀ s ∈ state.sessions, s.SchemaOk
  sorted : state.sessions = ordered state.sessions
  consistent : Consistent state.sessions

theorem schemaErrors_eq_nil : schemaErrors st = [] ↔
    isIdentifier 127 st.projectId ∧ st.revision ≤ MAX_SAFE_INTEGER ∧
    ∀ s ∈ st.sessions, s.SchemaOk := by
  have hrows : scan (fun earlier s => sessionSchemaErrors (sessionPath earlier.length) s)
      st.sessions = [] ↔ ∀ s ∈ st.sessions, s.SchemaOk :=
    scan_forall (P := Session.SchemaOk) fun _ _ => sessionSchemaErrors_eq_nil
  simp only [schemaErrors, patternError, append_eq_nil_iff, reportIf_eq_nil, not_not, not_lt,
    hrows, and_assoc]

/-- Acceptance, without the reports. -/
theorem validateContract_ok : (validateContract st).ok ↔ Accepted st := by
  have herrors : (validateContract st).ok ↔ schemaErrors st = [] ∧
      sessionBindingStateV1Errors st = [] := by
    simp [validateContract]
  rw [herrors, schemaErrors_eq_nil]
  constructor
  · rintro ⟨⟨hproj, hrev, hschema⟩, herrors⟩
    obtain ⟨hso, hconsistent⟩ := (sessionBindingStateV1Errors_eq_nil fun s hs =>
      isIdentifier_ne_empty (hschema s hs).sessionId).mp herrors
    exact ⟨hproj, hrev, hschema, hso, hconsistent⟩
  · intro h
    exact ⟨⟨h.projectId, h.revision, h.schema⟩, (sessionBindingStateV1Errors_eq_nil fun s hs =>
      isIdentifier_ne_empty (h.schema s hs).sessionId).mpr ⟨h.sorted, h.consistent⟩⟩

end Orquesta.SessionBinding
