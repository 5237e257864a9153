import Orquesta.SessionBinding.History

/-!
# Candidates

When may a candidate join the rows of an accepted state?  `Joins` collects what is
needed: the row is a fresh warming candidate for a checkpointed owner, no other row
that has not failed has its generation, and it is either the first attempt of its
lineage or the retry of a failed one that has no retry yet.  `Consistent.cons` says
that this is enough.

## Main results

* `Consistent.perm`: consistency does not depend on the order of the rows
* `Consistent.cons`: a candidate joins
* `Consistent.last_unique`: the attempts of a lineage are one chain
-/

namespace Orquesta.SessionBinding

open Keyed UtcTimestamp List Relation Option

variable {ss rows : List Session} {c p s : Session}

/-! ## The order of the rows -/

theorem Linked.mono {link : Option String} {R : Session → Prop} (h : Linked ss link R)
    (hsub : ∀ t ∈ ss, t ∈ rows) : Linked rows link R := by
  intro id hid
  obtain ⟨t, ht, htid, hR⟩ := h id hid
  exact ⟨t, hsub t ht, htid, hR⟩

theorem Consistent.perm (h : Consistent ss) (hp : ss.Perm rows) :
    Consistent rows := by
  have hmem : ∀ {t}, t ∈ rows → t ∈ ss := fun ht => hp.mem_iff.mpr ht
  have hsub : ∀ t ∈ ss, t ∈ rows := fun t ht => hp.mem_iff.mp ht
  refine ⟨h.ids.perm hp, h.generations.perm hp, h.threads.perm hp,
    fun t ht => h.lifecycled t (hmem ht), h.requests.perm hp, h.tasks.perm hp, ?_,
    fun r hr t ht => h.authority r (hmem hr) t (hmem ht), h.candidates.perm hp, h.retries.perm hp,
    h.retryRoots.perm hp, ?_, fun t ht => (h.replaces t (hmem ht)).mono hsub,
    fun t ht => (h.retry t (hmem ht)).mono hsub, fun t ht => (h.replacedBy t (hmem ht)).mono hsub⟩
  · intro t ht hbd
    rw [← h.owners t (hmem ht) hbd]
    exact (hp.symm.filter _).length_eq
  · intro t ht hf l hl
    obtain ⟨root, hrts, hro⟩ := h.retryLineage t (hmem ht) hf l hl
    refine ⟨root, ?_, hro⟩
    have hpm : (rootsOf rows l).Perm (rootsOf ss l) := hp.symm.filter _
    rw [hrts] at hpm
    exact perm_singleton.mp hpm

theorem ordered_perm (ss : List Session) : (ordered ss).Perm ss := perm_insertionSort _ _

theorem ordered_ordered (ss : List Session) : ordered ss = ordered (ordered ss) := by
  have hso : (ordered ss).Pairwise fun l r => l.precedes r :=
    pairwise_insertionSort (fun l r : Session => l.precedes r) ss
  exact hso.insertionSort_eq.symm

/-! ## A candidate joins -/

/-- `c` is a new row: a warming candidate that is to replace `p`. -/
structure WarmingFor (c p : Session) : Prop where
  agent : c.agentId = p.agentId
  generation : c.sessionGeneration = p.sessionGeneration + 1
  handoff : c.handoffStatus = .pending
  handoffTurn : c.handoffTurnId = none
  acceptedAt : c.acceptedAt = none
  rotation : c.rotationState = .successorWarming
  ownership : c.ownershipStatus = .candidate
  accepts : c.acceptsNewWork = false
  binding : c.bindingStatus = .provisioning
  replaces : c.replacesSessionId = some p.sessionId
  replacedBy : c.replacedBySessionId = none
  authority : c.runtimeAuthorityId = none
  provenance : c.provenance = p.provenance
  started : c.ownershipStartedAt = none
  ended : c.ownershipEndedAt = none
  updated : c.updatedAt = c.createdAt
  created : isValidUtcTimestamp c.createdAt
  later : p.updatedAt < c.createdAt

/-- The attempt `c` continues: none, or a failed one without a retry. -/
def Continues (sessions : List Session) (c : Session) : Prop :=
  (c.retryOfSessionId = none ∧
    ∀ s ∈ sessions, s.rotationState = .failed → s.lineage ≠ c.lineage) ∨
  ∃ f ∈ sessions, c.retryOfSessionId = some f.sessionId ∧ Retries c f ∧
    ∀ s ∈ sessions, s.retryOfSessionId ≠ some f.sessionId

structure Joins (sessions : List Session) (c p : Session) : Prop where
  mem : p ∈ sessions
  owner : p.ownershipStatus = .owner
  checkpointed : p.rotationState = .checkpointed
  warming : WarmingFor c p
  freshId : ∀ s ∈ sessions, s.sessionId ≠ c.sessionId
  freshThread : ∀ s ∈ sessions, s.threadId ≠ c.threadId
  alone : ∀ s ∈ sessions, s.agentId = c.agentId → s.sessionGeneration = c.sessionGeneration →
    s.rotationState = .failed
  continues : Continues sessions c

theorem WarmingFor.lifecycled (h : WarmingFor c p) (hp : p.Lifecycled)
    (hone : 1 ≤ p.sessionGeneration) : c.Lifecycled := by
  have hgen : c.sessionGeneration ≠ 1 := by
    rw [h.generation]
    omega
  have hprovenance : c.hasPlacementProvenance ∨ c.hasNoPlacementProvenance := by
    simp only [Session.hasPlacementProvenance, Session.hasNoPlacementProvenance, h.provenance]
    exact hp.lineageOk.provenance
  refine ⟨by rw [h.ownership, h.rotation]; rfl, by rw [h.handoff, h.rotation]; rfl, ?_,
    by rw [h.accepts, h.rotation]; rfl, ?_, ?_, ?_⟩
  · rw [h.binding, h.rotation]
    exact mem_singleton_self _
  · refine ⟨fun hg => absurd hg hgen, fun hg => absurd hg hgen, fun _ => by simp [h.replaces], ?_,
      fun _ => h.replacedBy, hprovenance, fun hg => absurd hg hgen⟩
    rw [h.rotation]
    exact fun habs => by cases habs
  · refine ⟨?_, fun _ => ⟨h.handoffTurn, h.acceptedAt⟩, h.created, h.updated ▸ h.created,
      ?_, ?_, ?_, fun _ => h.authority⟩
    · rw [h.rotation]
      exact fun habs => by cases habs
    · rw [h.updated]
      exact lt_irrefl _
    · rw [h.acceptedAt]
      exact fun _ a ha => by cases ha
    · rw [h.rotation]
      exact fun habs => by cases habs
  · refine ⟨fun _ => ⟨h.started, h.ended⟩, ?_, ?_, ?_, ?_, ?_, ?_, ?_⟩
    · rw [h.rotation]
      exact fun habs => by cases habs
    · rw [h.rotation]
      exact fun habs => by cases habs
    all_goals simp [h.started, h.ended, both, validAt]

theorem Joins.replaces (h : Joins ss c p) (hp : p.Lifecycled) : Replaces c p := by
  refine ⟨h.warming.agent.symm, h.warming.provenance.symm, ?_, h.warming.generation, ?_⟩
  · rw [h.warming.authority]
    exact fun _ habs => by cases habs
  · have hop : p.replacedBySessionId = none :=
    hp.lineageOk.notReplaced (by rw [h.checkpointed]; rfl)
    unfold ReplacementPhase
    rw [if_neg (by simp [h.warming.rotation]), hop]
    refine ⟨?_, h.warming.ownership, by simp [h.warming.rotation], h.owner, h.checkpointed⟩
    rw [both_some]
    exact fun hle => absurd (of_decide_eq_true hle.2.2) (not_le.mpr h.warming.later)

/-- A live candidate of `p` has the generation after it and has not failed. -/
theorem Consistent.failed_of_livePredecessor (h : Consistent ss) (hj : Joins ss c p)
    (hs : s ∈ ss) : s.livePredecessor ≠ some p.sessionId := by
  intro hlv
  unfold Session.livePredecessor at hlv
  split at hlv
  next hst =>
    obtain ⟨r, hr, hrid, hlk⟩ := h.replaces s hs _ hlv
    obtain rfl : r = p := h.ids.eq_of_key hr hj.mem (congrArg some hrid) rfl
    have hfl := hj.alone s hs (hlk.agent.symm.trans hj.warming.agent.symm)
      (hlk.generation.trans hj.warming.generation.symm)
    simp [Session.isLiveCandidate, hfl] at hst
  next => cases hlv

theorem Consistent.cons (h : Consistent ss) (hj : Joins ss c p)
    (hone : 1 ≤ p.sessionGeneration) : Consistent (c :: ss) := by
  have hlf := hj.warming.lifecycled (h.lifecycled p hj.mem) hone
  have hgen : c.sessionGeneration ≠ 1 := by
    rw [hj.warming.generation]
    omega
  have hini : ∀ key : Session → Option String, initially key c = none := fun key => by
    simp [initially, hgen]
  have hub : ¬ c.isBoundNonterminal := by
    simp [Session.isBoundNonterminal, hj.warming.handoff]
  have hsub : ∀ t ∈ ss, t ∈ c :: ss := fun t ht => mem_cons_of_mem c ht
  refine ⟨unshared_cons.mpr ⟨?_, h.ids⟩, unshared_cons.mpr ⟨?_, h.generations⟩,
    unshared_cons.mpr ⟨?_, h.threads⟩, forall_mem_cons.mpr ⟨hlf, h.lifecycled⟩,
    unshared_cons.mpr ⟨?_, h.requests⟩, unshared_cons.mpr ⟨?_, h.tasks⟩, ?owners, ?authority,
    unshared_cons.mpr ⟨?_, h.candidates⟩, unshared_cons.mpr ⟨?retries, h.retries⟩,
    unshared_cons.mpr ⟨?_, h.retryRoots⟩, ?lineage, ?replaces, ?retry, ?replacedBy⟩
  · rintro s hs - ⟨⟩ hid
    exact hj.freshId s hs (some.inj hid)
  · rintro s hs ⟨aid, gen⟩ hkc hks
    obtain ⟨-, ha, hg⟩ := Session.generationKey_eq_some.mp hkc
    obtain ⟨hs', ha', hg'⟩ := Session.generationKey_eq_some.mp hks
    exact hs' (hj.alone s hs (ha'.trans ha.symm) (hg'.trans hg.symm))
  · rintro s hs - ⟨⟩ hid
    exact hj.freshThread s hs (some.inj hid)
  · intro s _ k hk
    rw [hini] at hk
    cases hk
  · intro s _ k hk
    rw [hini] at hk
    cases hk
  case owners =>
    -- `c` is neither bound nor an owner
    intro s hs hbd
    rcases mem_cons.mp hs with rfl | hs
    · exact absurd hbd hub
    · have howners : ownersOf (c :: ss) s.agentId = ownersOf ss s.agentId := by
        simp [ownersOf, hj.warming.ownership]
      rw [howners]
      exact h.owners s hs hbd
  case authority =>
    intro r hr s hs hbr hbs
    rcases mem_cons.mp hr with rfl | hr
    · exact absurd hbr hub
    rcases mem_cons.mp hs with rfl | hs
    · exact absurd hbs hub
    exact h.authority r hr s hs hbr hbs
  · intro s hs k hk
    have hkp : c.livePredecessor = some p.sessionId := by
      simp [Session.livePredecessor, Session.isLiveCandidate, hj.warming.rotation,
        hj.warming.replaces]
    obtain rfl : p.sessionId = k := some.inj (hkp.symm.trans hk)
    exact h.failed_of_livePredecessor hj hs
  case retries =>
    intro s hs k hk
    rcases hj.continues with ⟨hno, -⟩ | ⟨f, -, hrt, -, hfst⟩
    · rw [hno] at hk
      cases hk
    · obtain rfl : f.sessionId = k := some.inj (hrt.symm.trans hk)
      exact hfst s hs
  · intro s _ k hk
    simp [Session.initialFailedLineage, hj.warming.rotation] at hk
  case lineage =>
    intro s hs hf l hl
    rcases mem_cons.mp hs with rfl | hs
    · rw [hj.warming.rotation] at hf
      cases hf
    · -- `c` is no root of a lineage in which an attempt has failed
      have hrts : rootsOf (c :: ss) l = rootsOf ss l := by
        rcases hj.continues with ⟨-, hfst⟩ | ⟨f, -, hrt, -⟩
        · have hcl : c.lineage ≠ some l := fun hcl => hfst s hs hf (hl.trans hcl.symm)
          simp [rootsOf, hcl]
        · simp [rootsOf, hrt]
      rw [hrts]
      exact h.retryLineage s hs hf l hl
  case replaces =>
    refine forall_mem_cons.mpr ⟨?_, fun s hs => (h.replaces s hs).mono hsub⟩
    intro id hid
    obtain rfl : p.sessionId = id := some.inj (hj.warming.replaces.symm.trans hid)
    exact ⟨p, hsub p hj.mem, rfl, hj.replaces (h.lifecycled p hj.mem)⟩
  case retry =>
    refine forall_mem_cons.mpr ⟨?_, fun s hs => (h.retry s hs).mono hsub⟩
    intro id hid
    rcases hj.continues with ⟨hno, -⟩ | ⟨f, hfmem, hrt, hf, -⟩
    · rw [hno] at hid
      cases hid
    · obtain rfl : f.sessionId = id := some.inj (hrt.symm.trans hid)
      exact ⟨f, hsub f hfmem, rfl, hf⟩
  case replacedBy =>
    refine forall_mem_cons.mpr ⟨?_, fun s hs => (h.replacedBy s hs).mono hsub⟩
    intro id hid
    rw [hj.warming.replacedBy] at hid
    cases hid

/-! ## The attempts of a lineage -/

/-- `y` is the retry of `x`. -/
def RetriedBy (sessions : List Session) (x y : Session) : Prop :=
  x ∈ sessions ∧ y ∈ sessions ∧ y.retryOfSessionId = some x.sessionId

theorem Consistent.retriedBy_rightUnique (h : Consistent ss) :
    Relator.RightUnique (RetriedBy ss) := by
  rintro x y z ⟨-, hy, hxy⟩ ⟨-, hz, hxz⟩
  exact h.retries.eq_of_key hy hz hxy hxz

variable {l : String × Nat × String}

theorem mem_rootsOf :
    s ∈ rootsOf ss l ↔ s ∈ ss ∧ s.lineage = some l ∧ s.retryOfSessionId = none := by
  simp [rootsOf]

variable {f x y : Session}

theorem Retries.lineage_eq (h : Retries s f) : f.lineage = s.lineage := by
  simp [Session.lineage, h.agent, h.generation, h.predecessor]

theorem Consistent.retry_earlier (h : Consistent ss) (hf : f ∈ ss)
    (hr : Retries s f) : instant f.createdAt < instant s.createdAt := by
  obtain ⟨hfu, hsc, hlt⟩ := both_some.mp hr.later
  have hev := (h.lifecycled f hf).evidenceOk
  exact instant_lt_instant hev.created hsc
    (lt_of_le_of_lt (not_lt.mp hev.created_le) (of_decide_eq_true hlt))

/-- Every attempt of a lineage goes back to a root, retry by retry. -/
theorem Consistent.exists_root (h : Consistent ss) :
    ∀ n : Nat, ∀ s ∈ ss, s.lineage = some l → instant s.createdAt = n →
      ∃ root ∈ rootsOf ss l, ReflTransGen (RetriedBy ss) root s := by
  -- induction on the instant of creation: what is retried was created earlier
  intro n
  induction n using Nat.strong_induction_on with
  | _ n ih =>
    rintro s hs hl rfl
    cases hrt : s.retryOfSessionId with
    | none => exact ⟨s, mem_rootsOf.mpr ⟨hs, hl, hrt⟩, .refl⟩
    | some id =>
      obtain ⟨f, hf, rfl, hlk⟩ := h.retry s hs id hrt
      obtain ⟨root, hro, hchain⟩ := ih _ (h.retry_earlier hf hlk) f hf (hlk.lineage_eq.trans hl) rfl
      exact ⟨root, hro, hchain.tail ⟨hf, hs, hrt⟩⟩

theorem eq_of_reflTransGen_of_last (hls : ∀ z ∈ ss, z.retryOfSessionId ≠ some x.sessionId)
    (h : ReflTransGen (RetriedBy ss) x y) : x = y := by
  rcases ReflTransGen.cases_head h with rfl | ⟨z, ⟨-, hz, hxz⟩, -⟩
  · rfl
  · exact absurd hxz (hls z hz)

/-- Once an attempt of a lineage has failed, its attempts are one chain: only one has no retry. -/
theorem Consistent.last_unique (h : Consistent ss) (hf : f ∈ ss) (hfl : f.lineage = some l)
    (hfail : f.rotationState = .failed) (hx : x ∈ ss) (hxl : x.lineage = some l)
    (hy : y ∈ ss) (hyl : y.lineage = some l)
    (hxlast : ∀ z ∈ ss, z.retryOfSessionId ≠ some x.sessionId)
    (hylast : ∀ z ∈ ss, z.retryOfSessionId ≠ some y.sessionId) : x = y := by
  obtain ⟨root, hrts, -⟩ := h.retryLineage f hf hfail l hfl
  obtain ⟨rx, hrx, hchainx⟩ := h.exists_root _ x hx hxl rfl
  obtain ⟨ry, hry, hchainy⟩ := h.exists_root _ y hy hyl rfl
  rw [hrts, mem_singleton] at hrx hry
  subst hrx hry
  rcases hchainx.total_of_right_unique h.retriedBy_rightUnique hchainy with hxy | hyx
  · exact eq_of_reflTransGen_of_last hxlast hxy
  · exact (eq_of_reflTransGen_of_last hylast hyx).symm

end Orquesta.SessionBinding
