import Orquesta.Contract.SnapshotSize

/-!
# A smallest snapshot

`SnapshotSize` bounds every accepted snapshot from below.  Here is one that
meets the bound: it reports on every branch, criterion and requirement of the
plan with the shortest names that are still free, and with a single piece of
evidence wherever one is asked for.

The checks are listed with the human ones first.  Only their verifiers have to
avoid the assignees, so they choose first among the one-character names; the
others then take what is left.

## Main definitions

* `smallestSnapshot`, and what is read from it, `smallestReading`

## Main results

* `acceptsSnapshot_smallest`: its fields are in order
* `smallestSnapshot_size`: it takes what every accepted snapshot takes, and no more
* `smallestSnapshot_shape`: it has the shape the preflight asks for
-/

namespace Orquesta.Contract

open Noted CONTRACT_LIMITS List Function Json

/-! ## The snapshot -/

/-- The hash of an artifact nobody looks at. -/
def someHash : Digest := run 64

def someWorkOrderId : Ref := String.ofList ('W' :: 'O' :: '-' :: replicate 32 'a')

def branchResultJson (ref : Ref) : Raw :=
  .obj [("branch_ref", .str ref), ("status", .str "accepted"),
    ("artifact_refs", .arr [contentRefJson ⟨"a", someHash⟩]), ("evidence_refs", refsJson ["a"])]

def CriterionResult.toJson (r : CriterionResult) : Raw :=
  .obj [("criterion_id", .str r.criterionId), ("status", .str "passed"),
    ("evidence_refs", refsJson r.evidenceRefs)]

def ReviewResult.toJson (branchRef : Ref) (r : ReviewResult) : Raw :=
  .obj [("branch_ref", .str branchRef), ("review_id", .str r.reviewId),
    ("reviewer_ref", .str r.reviewerRef), ("status", .str "accepted"),
    ("findings", .obj [("critical", .num 0), ("important", .num 0), ("minor", .num r.minor)]),
    ("evidence_refs", refsJson r.evidenceRefs)]

def VerificationCheck.toJson (branchRef : Ref) (c : VerificationCheck) : Raw :=
  .obj [("branch_ref", .str branchRef), ("criterion_id", .str c.criterionId),
    ("kind", Enumeration.toJson c.requirement.kind), ("verifier_ref", .str c.verifierRef),
    ("verification_ref", contentRefJson c.requirement.verificationRef), ("status", .str "passed"),
    ("evidence_refs", refsJson c.evidenceRefs)]

section Smallest

variable (plan : WorkOrderPlan)

/-- The requirements, those of humans first. -/
def orderedRequirements : List (Ref × VerificationRequirement) :=
  (boundRequirements plan).filter (·.2.kind = .human) ++
    (boundRequirements plan).filter fun b => !(b.2.kind = .human)

/-- As short as can be: humans that are no assignees first, then whoever is left. -/
def smallestVerifiers : List Ref :=
  pick (humanCount plan) (assigneeRefs plan) ++
    pick ((boundRequirements plan).length - humanCount plan)
      (pick (humanCount plan) (assigneeRefs plan))

def smallestChecks : List VerificationCheck :=
  ((orderedRequirements plan).zip
    ((smallestVerifiers plan).zip (pick (boundRequirements plan).length []))).map fun t =>
      ⟨t.1.1, t.1.2, t.2.1, [t.2.2]⟩

def smallestCriterionResults : List CriterionResult :=
  plan.content.acceptancePolicy.criteria.map fun c => ⟨c.criterionId,
    (checksFor (smallestChecks plan) c.criterionId).flatMap VerificationCheck.evidenceRefs⟩

def smallestReviews : List ReviewResult :=
  let n := plan.content.acceptancePolicy.reviewMinimum.count
  ((pick n []).zip (pick n (assigneeRefs plan))).map fun t => ⟨t.1, t.2, 0, ["a"]⟩

def smallestSnapshot (branchRef : Ref) : Raw :=
  .obj [("work_order_id", .str someWorkOrderId), ("project_ref", .str plan.content.projectRef),
    ("plan_snapshot_id", .str plan.planSnapshotId), ("plan_hash", .str plan.planHash),
    ("plan_revision", natJson plan.content.revision), ("work_order_revision", .num 1),
    ("branches", .arr ((branchRefs plan.content.branches).map branchResultJson)),
    ("criterion_results", .arr ((smallestCriterionResults plan).map CriterionResult.toJson)),
    ("reviews", .arr ((smallestReviews plan).map (ReviewResult.toJson branchRef))),
    ("pending_attention_refs", .arr []), ("open_risk_refs", .arr []), ("unverified_refs", .arr []),
    ("verification_checks", .arr ((smallestChecks plan).map (VerificationCheck.toJson branchRef)))]

def smallestReading (branchRef : Ref) : SnapshotReading where
  branchItems := (branchRefs plan.content.branches).map branchResultJson
  branchRefs := branchRefs plan.content.branches
  criterionItems := (smallestCriterionResults plan).map CriterionResult.toJson
  criterionResults := smallestCriterionResults plan
  reviewItems := (smallestReviews plan).map (ReviewResult.toJson branchRef)
  reviews := smallestReviews plan
  checkItems := (smallestChecks plan).map (VerificationCheck.toJson branchRef)
  checks := smallestChecks plan

theorem orderedRequirements_perm : (orderedRequirements plan).Perm (boundRequirements plan) :=
  filter_append_perm _ _

theorem humanCount_le : humanCount plan ≤ (boundRequirements plan).length := countP_le_length

end Smallest

theorem isRef_a : IsRef "a" := by decide

theorem isWorkOrderId_some : isWorkOrderId someWorkOrderId := by
  have h : someWorkOrderId.toList = 'W' :: 'O' :: '-' :: replicate 32 'a' := String.toList_ofList
  rw [isWorkOrderId, h]
  decide

theorem evidenceRefs_a : EvidenceRefs ["a"] := ⟨by simp, by simp, by simp, by simpa using isRef_a⟩

theorem readsBranchResult_json (plan : WorkOrderPlan) {ref : Ref} (href : IsRef ref) :
    ReadsBranchResult plan (branchResultJson ref) ref where
  fields := hasExactFields_of_names rfl
  branchRef := rfl
  isRef := href
  evidence := ⟨_, rfl, evidenceRefs_a⟩
  artifacts := ⟨_, [⟨"a", someHash⟩], rfl,
    .cons (readsArtifact_contentRefJson isRef_a isSha256_run) .nil, by simp, by simp, by simp⟩
  status _ _ := Or.inl rfl

theorem readsReview_json {as : List Ref} {br : Ref} (hbrn : IsRef br)
    {r : ReviewResult} (hid : IsRef r.reviewId) (hrv : IsRef r.reviewerRef)
    (hind : r.reviewerRef ∉ as) (hmin : 0 ≤ r.minor ∧ r.minor ≤ MAX_SAFE_INTEGER)
    (hev : EvidenceRefs r.evidenceRefs) :
    ReadsReview as br (r.toJson br) r :=
  ⟨hasExactFields_of_names rfl, ⟨rfl, hbrn⟩, ⟨rfl, hid⟩, ⟨rfl, hrv⟩, hind, rfl,
    ⟨hasExactFields_of_names rfl, rfl, rfl, rfl, hmin⟩, rfl, hev⟩

/-- A plan the evaluator can read a check for each requirement of. -/
structure FewChecks (plan : WorkOrderPlan) (branchRef : Ref) :
    Prop extends PlanFacts plan branchRef where
  few : (boundRequirements plan).length ≤ 128

section SmallestFacts

/-- A verification mode asks for the kinds of requirement it is about. -/
theorem AcceptanceVerification.Matches.exists_kind {mode : AcceptanceVerification}
    {rs : List VerificationRequirement} (h : mode.Matches rs) :
    (mode = .humanOnly ∨ ∃ r ∈ rs, r.kind = .deterministic) ∧
      (mode = .deterministic ∨ ∃ r ∈ rs, r.kind = .human) ∧ rs ≠ [] := by
  have hdet : 1 ≤ (rs.filter (·.kind = .deterministic)).length →
      ∃ r ∈ rs, r.kind = .deterministic := by
    intro hlen
    obtain ⟨r, hr⟩ := exists_mem_of_length_pos hlen
    rw [mem_filter, decide_eq_true_eq] at hr
    exact ⟨r, hr⟩
  have hhum : 1 ≤ rs.length - (rs.filter (·.kind = .deterministic)).length →
      ∃ r ∈ rs, r.kind = .human := by
    intro hlen
    have hsp := length_eq_length_filter_add (l := rs) (·.kind = .deterministic)
    have hpos : 0 < (rs.filter fun r => !decide (r.kind = .deterministic)).length := by omega
    obtain ⟨r, hr⟩ := exists_mem_of_length_pos hpos
    rw [mem_filter] at hr
    refine ⟨r, hr.1, ?_⟩
    cases hk : r.kind with
    | human => rfl
    | deterministic => simp [hk] at hr
  have hne : ∀ {k}, (∃ r ∈ rs, r.kind = k) → rs ≠ [] := by
    rintro k ⟨r, hr, -⟩
    exact ne_nil_of_mem hr
  cases mode with
  | deterministic => exact ⟨Or.inr (hdet h.1), Or.inl rfl, hne (hdet h.1)⟩
  | humanOnly => exact ⟨Or.inl rfl, Or.inr (hhum h.1), hne (hhum h.1)⟩
  | mixed => exact ⟨Or.inr (hdet h.1), Or.inr (hhum h.2), hne (hdet h.1)⟩

variable {plan : WorkOrderPlan} {br : Ref} (hp : FewChecks plan br)
include hp

theorem length_assigneeRefs_le : (assigneeRefs plan).length ≤ 64 := by
  rw [assigneeRefs, length_map]
  exact hp.branches_le

theorem smallestEvidence_facts :
    (pick (boundRequirements plan).length []).length = (boundRequirements plan).length ∧
      refBytes (pick (boundRequirements plan).length []) = leastEvidence
      (boundRequirements plan).length := by
  have hfew := hp.few
  obtain ⟨hlen, hby⟩ := pick_size (boundRequirements plan).length [] (by rw [length_nil]; omega)
  rw [shortCount, length_shortRefs_filter_nil] at hby
  refine ⟨hlen, ?_⟩
  rw [leastEvidence]
  omega

theorem smallestVerifiers_facts :
    (pick (humanCount plan) (assigneeRefs plan)).length = humanCount plan ∧
      (smallestVerifiers plan).length = (boundRequirements plan).length ∧
      (smallestVerifiers plan).Nodup ∧ (∀ s ∈ smallestVerifiers plan, IsRef s) ∧
      refBytes (smallestVerifiers plan) = leastVerifiers plan := by
  have hassignees := length_assigneeRefs_le hp
  have hhum := humanCount_le plan
  have hfew := hp.few
  obtain ⟨hlen₁, hby₁⟩ := pick_size (humanCount plan) (assigneeRefs plan) (by omega)
  obtain ⟨hlen₂, hby₂⟩ := pick_size ((boundRequirements plan).length - humanCount plan)
    (pick (humanCount plan) (assigneeRefs plan)) (by omega)
  have hcnt := shortCount_pick (humanCount plan) (assigneeRefs plan)
  have hfacts₁ := pick_facts (humanCount plan) (assigneeRefs plan)
  have hfacts₂ := pick_facts ((boundRequirements plan).length - humanCount plan)
    (pick (humanCount plan) (assigneeRefs plan))
  refine ⟨hlen₁, ?_, ?_, ?_, ?_⟩
  · rw [smallestVerifiers, length_append, hlen₁, hlen₂]
    omega
  · refine hfacts₁.1.append hfacts₂.1 fun s hs hs' => (hfacts₂.2 s hs').2 hs
  · intro s hs
    rcases mem_append.mp hs with hs | hs
    · exact (hfacts₁.2 s hs).1
    · exact (hfacts₂.2 s hs).1
  · rw [smallestVerifiers, refBytes_append, leastVerifiers, freeShortRefs]
    omega

/-- The checks as the three lists they were made from. -/
theorem smallestChecks_maps :
    ((smallestChecks plan).map fun c => ((c.criterionId, c.requirement), c.verifierRef)) =
        (orderedRequirements plan).zip (smallestVerifiers plan) ∧
      (smallestChecks plan).map VerificationCheck.evidenceRefs =
        (pick (boundRequirements plan).length []).map fun e => [e] := by
  obtain ⟨-, hvs, -⟩ := smallestVerifiers_facts hp
  obtain ⟨hev, -⟩ := smallestEvidence_facts hp
  have hordered := (orderedRequirements_perm plan).length_eq
  constructor
  · have hfst : ((smallestVerifiers plan).zip (pick (boundRequirements plan).length [])).map
        Prod.fst = smallestVerifiers plan := map_fst_zip (by omega)
    rw [smallestChecks, map_map]
    conv_rhs => rw [← hfst, zip_map_right]
    rfl
  · have hsnd : ((orderedRequirements plan).zip ((smallestVerifiers plan).zip
        (pick (boundRequirements plan).length []))).map (fun t => t.2.2) =
          pick (boundRequirements plan).length [] := by
      rw [show (fun t : (Ref × VerificationRequirement) × Ref × Ref => t.2.2) =
        Prod.snd ∘ Prod.snd from rfl, ← map_map, map_snd_zip (by rw [length_zip]; omega),
        map_snd_zip (by omega)]
    rw [smallestChecks, map_map]
    conv_rhs => rw [← hsnd, map_map]
    rfl

theorem smallestChecks_facts : ChecksApart (smallestChecks plan) ∧
    ((smallestChecks plan).map fun c => (c.criterionId, c.requirement)) = orderedRequirements plan ∧
    (smallestChecks plan).map VerificationCheck.verifierRef = smallestVerifiers plan ∧
    ∀ c ∈ smallestChecks plan, ∃ e, c.evidenceRefs = [e] ∧ IsRef e := by
  obtain ⟨hprs, hev⟩ := smallestChecks_maps hp
  obtain ⟨-, hlen, hnd, -⟩ := smallestVerifiers_facts hp
  have hpick := pick_facts (boundRequirements plan).length []
  have hordered := (orderedRequirements_perm plan).length_eq
  have hreqs : ((smallestChecks plan).map fun c => (c.criterionId, c.requirement)) =
      orderedRequirements plan := by
    have h := congrArg (map Prod.fst) hprs
    rw [map_map, map_fst_zip (by omega)] at h
    exact h
  have hvs : (smallestChecks plan).map VerificationCheck.verifierRef =
      smallestVerifiers plan := by
    have h := congrArg (map Prod.snd) hprs
    rw [map_map, map_snd_zip (by omega)] at h
    exact h
  refine ⟨⟨hvs ▸ hnd, ?_, ?_⟩, hreqs, hvs, fun c hc => ?_⟩
  · have hids : (smallestChecks plan).map (·.requirement.verificationRef.id) =
        (orderedRequirements plan).map (·.2.verificationRef.id) := by
      rw [← hreqs, map_map]
      rfl
    rw [hids, ((orderedRequirements_perm plan).map _).nodup_iff, boundRequirements, map_flatMap]
    simpa [map_map, comp_def] using hp.verificationRefs
  · rw [← pairwise_map (f := VerificationCheck.evidenceRefs) (R := Disjoint), hev, pairwise_map]
    refine Pairwise.imp ?_ hpick.1
    intro a b hab
    simpa using fun h => hab h.symm
  · have hmem : c.evidenceRefs ∈ (pick (boundRequirements plan).length []).map fun e => [e] :=
      hev ▸ mem_map_of_mem hc
    obtain ⟨e, he, heq⟩ := mem_map.mp hmem
    exact ⟨e, heq.symm, (hpick.2 e he).1⟩

/-- Human checks have verifiers that are no assignees. -/
theorem smallestChecks_independent {c : VerificationCheck} (hc : c ∈ smallestChecks plan)
    (hk : c.requirement.kind = .human) : c.verifierRef ∉ assigneeRefs plan := by
  obtain ⟨hprs, -⟩ := smallestChecks_maps hp
  obtain ⟨hlen, -⟩ := smallestVerifiers_facts hp
  have hmem : ((c.criterionId, c.requirement), c.verifierRef) ∈
      (orderedRequirements plan).zip (smallestVerifiers plan) := hprs ▸ mem_map_of_mem hc
  rw [orderedRequirements, smallestVerifiers, zip_append (by
    rw [hlen, humanCount, countP_eq_length_filter])] at hmem
  rcases mem_append.mp hmem with h | h
  · exact ((pick_facts _ _).2 _ (of_mem_zip h).2).2
  · have hnot := (mem_filter.mp (of_mem_zip h).1).2
    simp [hk] at hnot

theorem length_smallestChecks : (smallestChecks plan).length = (boundRequirements plan).length := by
  have h := congrArg length (smallestChecks_facts hp).2.1
  rw [length_map, (orderedRequirements_perm plan).length_eq] at h
  exact h

section

variable {cr : AcceptanceCriterion}
  (hcr : cr ∈ plan.content.acceptancePolicy.criteria)
include hcr

theorem exists_smallestCheck {r : VerificationRequirement} (hr : r ∈ cr.verificationRequirements) :
    ∃ c ∈ checksFor (smallestChecks plan) cr.criterionId, c.requirement = r := by
  have hmem : (cr.criterionId, r) ∈ orderedRequirements plan :=
    (orderedRequirements_perm plan).mem_iff.mpr (mem_boundRequirements.mpr ⟨cr, hcr, rfl, hr⟩)
  rw [← (smallestChecks_facts hp).2.1] at hmem
  obtain ⟨c, hc, heq⟩ := mem_map.mp hmem
  obtain ⟨hid, hreq⟩ := Prod.mk.inj heq
  exact ⟨c, mem_filter.mpr ⟨hc, decide_eq_true hid⟩, hreq⟩

theorem smallest_criterionMet :
    CriterionMet ((smallestCriterionResults plan).map fun r => (r.criterionId, r.evidenceRefs))
      (smallestChecks plan) cr := by
  obtain ⟨hdet, hhum, -⟩ := (hp.mode cr hcr).exists_kind
  refine ⟨fun r hr => exists_smallestCheck hp hcr hr, ?_, ?_, ?_⟩
  · refine hdet.imp_right ?_
    rintro ⟨r, hr, hk⟩
    obtain ⟨c, hc, rfl⟩ := exists_smallestCheck hp hcr hr
    exact ⟨c, hc, hk⟩
  · refine hhum.imp_right ?_
    rintro ⟨r, hr, hk⟩
    obtain ⟨c, hc, rfl⟩ := exists_smallestCheck hp hcr hr
    exact ⟨c, hc, hk⟩
  · intro refs hrf e
    obtain ⟨r, hr, heq⟩ := mem_map.mp (mem_of_lookup hrf)
    obtain ⟨k, -, rfl⟩ := mem_map.mp hr
    obtain ⟨hid, rfl⟩ := Prod.mk.inj heq
    have hid : k.criterionId = cr.criterionId := hid
    simp only [hid]

theorem smallest_evidence : EvidenceRefs ((checksFor (smallestChecks plan) cr.criterionId).flatMap
      VerificationCheck.evidenceRefs) := by
  obtain ⟨hapart, -, -, hone⟩ := smallestChecks_facts hp
  have hsub : (checksFor (smallestChecks plan) cr.criterionId).Sublist (smallestChecks plan) :=
    filter_sublist
  refine ⟨?_, ?_, ?_, ?_⟩
  · obtain ⟨r, hr⟩ := exists_mem_of_ne_nil _ (hp.mode cr hcr).exists_kind.2.2
    obtain ⟨c, hc, -⟩ := exists_smallestCheck hp hcr hr
    obtain ⟨e, he, -⟩ := hone c (hsub.subset hc)
    exact ne_nil_of_mem (mem_flatMap.mpr ⟨c, hc, he ▸ mem_cons_self⟩)
  · have hones : (checksFor (smallestChecks plan) cr.criterionId).map
      (fun c => c.evidenceRefs.length) =
          (checksFor (smallestChecks plan) cr.criterionId).map fun _ => 1 :=
      map_congr_left fun c hc => by
        obtain ⟨e, he, -⟩ := hone c (hsub.subset hc)
        rw [he]
        rfl
    have hlen := hsub.length_le.trans_eq (length_smallestChecks hp)
    rw [(evidenceBytes_flatMap _ _).2, hones, map_const', sum_replicate_nat, Nat.mul_one]
    exact hlen.trans hp.few
  · refine nodup_flatMap.mpr ⟨fun c hc => ?_, hapart.evidence.sublist hsub⟩
    obtain ⟨e, he, -⟩ := hone c (hsub.subset hc)
    rw [he]
    exact nodup_singleton e
  · intro s hs
    obtain ⟨c, hc, hs⟩ := mem_flatMap.mp hs
    obtain ⟨e, he, href⟩ := hone c (hsub.subset hc)
    rw [he, mem_singleton] at hs
    exact hs ▸ href

end

omit hp in
theorem count_le_two (min : ReviewMinimum) : min.count ≤ 2 := by
  cases min <;> decide

theorem smallestReviews_facts : (smallestReviews plan).map ReviewResult.reviewId =
        pick plan.content.acceptancePolicy.reviewMinimum.count [] ∧
      (smallestReviews plan).map ReviewResult.reviewerRef =
        pick plan.content.acceptancePolicy.reviewMinimum.count (assigneeRefs plan) ∧
      ∀ r ∈ smallestReviews plan, r.minor = 0 ∧ r.evidenceRefs = ["a"] := by
  have hassignees := length_assigneeRefs_le hp
  have hcnt := count_le_two plan.content.acceptancePolicy.reviewMinimum
  have hids := (pick_size plan.content.acceptancePolicy.reviewMinimum.count []
    (by rw [length_nil]; omega)).1
  have hrvs := (pick_size plan.content.acceptancePolicy.reviewMinimum.count (assigneeRefs plan)
    (by omega)).1
  refine ⟨?_, ?_, fun r hr => ?_⟩
  · rw [smallestReviews, map_map]
    exact map_fst_zip (by omega)
  · rw [smallestReviews, map_map]
    exact map_snd_zip (by omega)
  · obtain ⟨t, -, rfl⟩ := mem_map.mp hr
    exact ⟨rfl, rfl⟩

theorem readsReviews_smallest : ReadsReviews plan br (member (smallestSnapshot plan br) "reviews")
    ((smallestReviews plan).map (ReviewResult.toJson br)) (smallestReviews plan) := by
  obtain ⟨hids, hrvs, hconst⟩ := smallestReviews_facts hp
  have hcnt := count_le_two plan.content.acceptancePolicy.reviewMinimum
  have hpick₁ := pick_facts plan.content.acceptancePolicy.reviewMinimum.count []
  have hpick₂ := pick_facts plan.content.acceptancePolicy.reviewMinimum.count (assigneeRefs plan)
  have hlen : (smallestReviews plan).length =
      plan.content.acceptancePolicy.reviewMinimum.count := by
    rw [← length_map (f := ReviewResult.reviewId), hids]
    exact (pick_size _ [] (by rw [length_nil]; omega)).1
  refine ⟨rfl, by rw [length_map]; omega, ?_, hids ▸ hpick₁.1, hrvs ▸ hpick₂.1, hlen.ge⟩
  rw [forall₂_map_left_iff, forall₂_same]
  intro r hr
  have hid := hpick₁.2 r.reviewId (hids ▸ mem_map_of_mem hr)
  have hrv := hpick₂.2 r.reviewerRef (hrvs ▸ mem_map_of_mem hr)
  obtain ⟨hmin, hev⟩ := hconst r hr
  exact readsReview_json hp.acceptanceRef hid.1 hrv.1 hrv.2 (by rw [hmin]; decide)
    (hev ▸ evidenceRefs_a)

theorem plannedCriterion_of_mem {cr : AcceptanceCriterion}
    (h : cr ∈ plan.content.acceptancePolicy.criteria) :
    plannedCriterion plan cr.criterionId = some cr := by
  cases hfd : plannedCriterion plan cr.criterionId with
  | none =>
    have hno := find?_eq_none.mp hfd cr h
    simp at hno
  | some found =>
    have hmem := mem_of_find?_eq_some hfd
    have hid := criterionId_of_planned hfd
    exact congrArg some (inj_on_of_nodup_map hp.criterionIds hmem h hid)

theorem readsChecks_smallest : ReadsChecks plan br
    ((smallestCriterionResults plan).map fun r => (r.criterionId, r.evidenceRefs))
    (member (smallestSnapshot plan br) "verification_checks")
    ((smallestChecks plan).map (VerificationCheck.toJson br)) (smallestChecks plan) := by
  obtain ⟨hapart, hreqs, hvs, hone⟩ := smallestChecks_facts hp
  obtain ⟨-, -, -, hir, -⟩ := smallestVerifiers_facts hp
  refine ⟨rfl, ?_, ?_, hapart, fun _ hc => smallest_criterionMet hp hc⟩
  · rw [length_map, length_smallestChecks hp]
    exact hp.few
  rw [forall₂_map_left_iff, forall₂_same]
  intro c hc
  have hbd : (c.criterionId, c.requirement) ∈ boundRequirements plan := by
    refine (orderedRequirements_perm plan).mem_iff.mp ?_
    rw [← hreqs]
    exact mem_map_of_mem hc
  obtain ⟨cr, hcr, hid, hr⟩ := mem_boundRequirements.mp hbd
  obtain ⟨e, he, href⟩ := hone c hc
  have hpld : plannedCriterion plan c.criterionId = some cr := hid ▸ plannedCriterion_of_mem hp hcr
  have hvrf := hp.verificationRef cr hcr c.requirement hr
  exact {
    fields := hasExactFields_of_names rfl
    branchRef := ⟨rfl, hp.acceptanceRef⟩
    criterionId := ⟨rfl, hid ▸ hp.criterionId cr hcr⟩
    kind := rfl
    verifierRef := ⟨rfl, hir _ (hvs ▸ mem_map_of_mem hc)⟩
    independent := smallestChecks_independent hp hc
    verificationRef := readsArtifact_contentRefJson hvrf.1 hvrf.2
    planBound := ⟨cr, hpld, hr⟩
    status := rfl
    evidenceRefs := rfl
    evidence := by
      rw [he]
      exact ⟨by simp, by simp, by simp, by simpa using href⟩ }

/-- The smallest snapshot is accepted. -/
theorem acceptsSnapshot_smallest : AcceptsSnapshot plan br (smallestSnapshot plan br)
      (smallestReading plan br) where
  identity := ⟨⟨_, rfl, isWorkOrderId_some⟩, rfl, rfl, rfl, rfl, ⟨1, rfl, by decide, by decide⟩⟩
  branches := by
    refine ⟨rfl, ?_, ?_, Perm.refl _⟩
    · rw [smallestReading, length_map, branchRefs, length_map]
      exact hp.branches_le
    · rw [smallestReading, forall₂_map_left_iff, forall₂_same]
      intro ref href
      obtain ⟨b, hb, rfl⟩ := mem_map.mp href
      exact readsBranchResult_json plan (hp.branchRef b hb)
  criterionResults := by
    refine ⟨rfl, ?_, ?_, ?_⟩
    · rw [smallestReading, length_map, smallestCriterionResults, length_map]
      exact hp.criteria_le
    · rw [smallestReading, forall₂_map_left_iff, forall₂_same]
      intro r hr
      obtain ⟨cr, hcr, rfl⟩ := mem_map.mp hr
      exact ⟨hasExactFields_of_names rfl, rfl, hp.criterionId cr hcr, rfl, rfl,
        smallest_evidence hp hcr⟩
    · rw [smallestReading, smallestCriterionResults, map_map]
      exact Perm.refl _
  reviews := readsReviews_smallest hp
  attention := rfl
  risks := rfl
  unverified := rfl
  checks := readsChecks_smallest hp

/-! ## Its size -/

/-- The evidence of the checks: a reference each, as short as can be. -/
theorem smallestEvidence_size :
    ((smallestChecks plan).map fun c => evidenceBytes c.evidenceRefs).sum =
        leastEvidence (boundRequirements plan).length + 2 * (boundRequirements plan).length ∧
      ((smallestChecks plan).map fun c => c.evidenceRefs.length).sum =
          (boundRequirements plan).length := by
  obtain ⟨-, hev⟩ := smallestChecks_maps hp
  obtain ⟨hlen, hby⟩ := smallestEvidence_facts hp
  have hall : (smallestChecks plan).flatMap VerificationCheck.evidenceRefs =
      pick (boundRequirements plan).length [] := by
    rw [flatMap_def, hev, ← flatMap_def]
    exact flatMap_singleton' _
  obtain ⟨hsum, hln⟩ := evidenceBytes_flatMap (smallestChecks plan) VerificationCheck.evidenceRefs
  rw [← hsum, ← hln, hall, evidenceBytes, hlen, hby]
  exact ⟨rfl, rfl⟩

theorem smallestReviews_size :
    ((smallestReviews plan).map fun r => 201 + br.utf8ByteSize + r.reviewId.utf8ByteSize +
        r.reviewerRef.utf8ByteSize + evidenceBytes r.evidenceRefs).sum =
      plan.content.acceptancePolicy.reviewMinimum.count * (205 + br.utf8ByteSize) +
      leastReviewers plan ∧ ((smallestReviews plan).map fun r => 10 + r.evidenceRefs.length).sum =
        11 * plan.content.acceptancePolicy.reviewMinimum.count := by
  obtain ⟨hids, hrvs, hconst⟩ := smallestReviews_facts hp
  have hassignees := length_assigneeRefs_le hp
  have hcnt := count_le_two plan.content.acceptancePolicy.reviewMinimum
  obtain ⟨hidLen, hidBytes⟩ := pick_size plan.content.acceptancePolicy.reviewMinimum.count []
    (by rw [length_nil]; omega)
  obtain ⟨-, hrvb⟩ := pick_size plan.content.acceptancePolicy.reviewMinimum.count
    (assigneeRefs plan) (by omega)
  rw [shortCount, length_shortRefs_filter_nil] at hidBytes
  rw [← hids, refBytes, map_map] at hidBytes
  rw [← hids, length_map] at hidLen
  rw [← hrvs, refBytes, map_map] at hrvb
  have heach : (smallestReviews plan).map (fun r => 201 + br.utf8ByteSize +
      r.reviewId.utf8ByteSize + r.reviewerRef.utf8ByteSize + evidenceBytes r.evidenceRefs) =
      (smallestReviews plan).map fun r => (204 + br.utf8ByteSize) +
        (r.reviewId.utf8ByteSize + r.reviewerRef.utf8ByteSize) := by
    refine map_congr_left fun r hr => ?_
    have hone : evidenceBytes r.evidenceRefs = 3 := by
      rw [(hconst r hr).2]
      decide
    omega
  have hns : (smallestReviews plan).map (fun r => 10 + r.evidenceRefs.length) =
      (smallestReviews plan).map fun _ => 11 := by
    refine map_congr_left fun r hr => ?_
    rw [(hconst r hr).2]
    rfl
  constructor
  · rw [heach, sum_map_add (f := fun _ => 204 + br.utf8ByteSize),
      sum_map_add (f := fun r : ReviewResult => r.reviewId.utf8ByteSize), map_const',
      sum_replicate_nat, hidLen, leastReviewers, freeShortRefs, Nat.mul_add, Nat.mul_add]
    simp only [comp_def] at hidBytes hrvb
    omega
  · rw [hns, map_const', sum_replicate_nat, hidLen, Nat.mul_comm]

omit hp

theorem wellFormed_branchResultJson (ref : Ref) : (branchResultJson ref).WellFormed :=
  wellFormed_obj (show BRANCH_RESULT_FIELDS.Nodup by decide) rfl
    ⟨trivial, trivial, ⟨wellFormed_contentRefJson _, trivial⟩, wellFormed_refsJson _⟩

theorem branchResultJson_size (ref : Ref) :
    bytes (branchResultJson ref) = 158 + ref.utf8ByteSize ∧ (branchResultJson ref).nodes = 9 := by
  have hby : bytes (branchResultJson ref) = 2 + (13 + (ref.utf8ByteSize + 2) + 141) := by rfl
  exact ⟨by omega, rfl⟩

theorem CriterionResult.wellFormed_toJson (r : CriterionResult) : r.toJson.WellFormed :=
  wellFormed_obj (show CRITERION_RESULT_FIELDS.Nodup by decide) rfl
    ⟨trivial, trivial, wellFormed_refsJson _⟩

theorem ReviewResult.wellFormed_toJson (br : Ref) (r : ReviewResult) : (r.toJson br).WellFormed :=
  wellFormed_obj (show REVIEW_FIELDS.Nodup by decide) rfl
    ⟨trivial, trivial, trivial, trivial,
      wellFormed_obj (show REVIEW_FINDING_FIELDS.Nodup by decide) rfl ⟨trivial, trivial, trivial⟩,
      wellFormed_refsJson _⟩

theorem VerificationCheck.wellFormed_toJson (br : Ref) (c : VerificationCheck) :
    (c.toJson br).WellFormed :=
  wellFormed_obj (show VERIFICATION_CHECK_FIELDS.Nodup by decide) rfl
    ⟨trivial, trivial, trivial, trivial, wellFormed_contentRefJson _, trivial,
      wellFormed_refsJson _⟩

theorem wellFormed_smallestSnapshot (plan : WorkOrderPlan) (br : Ref) :
    (smallestSnapshot plan br).WellFormed :=
  wellFormed_obj nodup_SNAPSHOT_FIELDS rfl ⟨trivial, trivial, trivial, trivial, trivial, trivial,
      wellFormed_arr_map _ wellFormed_branchResultJson,
      wellFormed_arr_map _ CriterionResult.wellFormed_toJson,
      wellFormed_arr_map _ (ReviewResult.wellFormed_toJson br), trivial, trivial, trivial,
      wellFormed_arr_map _ (VerificationCheck.wellFormed_toJson br)⟩

include hp

/-- **The smallest snapshot takes no more than every accepted one does.** -/
theorem smallestSnapshot_size : 20 + bytes (smallestSnapshot plan br) = leastBytes plan br ∧
      1 + (smallestSnapshot plan br).nodes = leastNodes plan := by
  have h := acceptsSnapshot_smallest hp
  have hfs : hasExactFields (smallestSnapshot plan br) SNAPSHOT_FIELDS :=
    hasExactFields_of_names rfl
  have hwf := wellFormed_smallestSnapshot plan br
  have hmb : ∀ name ∈ SNAPSHOT_FIELDS, (member (smallestSnapshot plan br) name).WellFormed :=
    fun name => wellFormed_member hfs hwf
  obtain ⟨hby, hns⟩ := h.size hp.toPlanFacts hfs hwf
  obtain ⟨cbytes, cnodes⟩ := h.criteria_size hp.toPlanFacts (hmb _ (by decide))
  obtain ⟨kbytes, knodes⟩ := h.checks_size hp.toPlanFacts (hmb _ (by decide))
  obtain ⟨rbytes, rnodes⟩ := h.reviewItems_size (hmb _ (by decide))
  obtain ⟨rsum, rsum'⟩ := smallestReviews_size hp
  obtain ⟨esum, esum'⟩ := smallestEvidence_size hp
  obtain ⟨-, -, hvs, -⟩ := smallestChecks_facts hp
  obtain ⟨-, -, -, -, vsum⟩ := smallestVerifiers_facts hp
  have bbytes : ((smallestReading plan br).branchItems.map bytes).sum =
      ((branchRefs plan.content.branches).map fun ref => 158 + ref.utf8ByteSize).sum := by
    rw [smallestReading, map_map]
    exact congrArg _ (map_congr_left fun ref _ => (branchResultJson_size ref).1)
  have bnodes : ((smallestReading plan br).branchItems.map nodes).sum =
      9 * plan.content.branches.length := by
    have hnine : (branchRefs plan.content.branches).map (nodes ∘ branchResultJson) =
        (branchRefs plan.content.branches).map fun _ => 9 :=
      map_congr_left fun ref _ => (branchResultJson_size ref).2
    rw [smallestReading, map_map, hnine, map_const', sum_replicate_nat, Nat.mul_comm, branchRefs,
      length_map]
  constructor
  · rw [hby, bbytes, cbytes, kbytes, rbytes, leastBytes, sum_map_const_add (boundRequirements plan)]
    simp only [smallestReading, esum, rsum, hvs, vsum]
    omega
  · rw [hns, bnodes, cnodes, knodes, rnodes, leastNodes]
    simp only [smallestReading, esum', rsum']
    omega

/-! ## Its shape -/

omit hp

section Shape

variable {n : Nat}

theorem shape_of_isRef {s : Ref} (h : IsRef s) : Shape fitsText (.str s) n :=
  .str (decide_eq_true (h.2.trans (by decide)))

theorem shape_of_plainText {s : String} {k : Nat} (h : PlainText s k)
    (hk : k ≤ maxTextBytes * 2 := by decide) : Shape fitsText (.str s) n :=
  .str (decide_eq_true (h.size.trans_le hk))

theorem EvidenceRefs.shape {refs : List Ref} (h : EvidenceRefs refs) :
    Shape fitsText (refsJson refs) (n + 1) := by
  refine .arr ?_ (forall_mem_map.mpr fun r hr => shape_of_isRef (h.isRef r hr))
  rw [length_map]
  exact h.length_le.trans (by decide)

theorem shape_contentRefJson {ref : ContentRef} (hid : IsRef ref.id) (hh : isSha256 ref.hash) :
    Shape fitsText (contentRefJson ref) (n + 1) :=
  .obj ⟨shape_of_isRef hid, shape_of_plainText (plainText_of_isSha256 hh)⟩

theorem shape_branchResultJson {ref : Ref} (h : IsRef ref) :
    Shape fitsText (branchResultJson ref) (n + 3) :=
  have hartifact : ∀ x ∈ [contentRefJson ⟨"a", someHash⟩], Shape fitsText x (n + 1) :=
    forall_mem_singleton.mpr (shape_contentRefJson isRef_a isSha256_run)
  .obj ⟨shape_of_isRef h, .str (by decide), .arr (by decide) hartifact, evidenceRefs_a.shape⟩

end Shape

include hp

/-- **The smallest snapshot has the shape the preflight asks for.** -/
theorem smallestSnapshot_shape : Shape fitsText (smallestSnapshot plan br) 15 := by
  have hchk := readsChecks_smallest hp
  have hrvw := readsReviews_smallest hp
  have hem : Shape fitsText (.arr []) 14 := ⟨rfl, rfl⟩
  refine .obj ⟨shape_of_plainText (plainText_of_isWorkOrderId isWorkOrderId_some),
    shape_of_isRef hp.identity.projectRef,
    shape_of_plainText (plainText_of_isPlanSnapshotId hp.identity.planSnapshotId),
    shape_of_plainText (plainText_of_isSha256 hp.identity.planHash), .num, .num,
    .arr ?_ (forall_mem_map.mpr fun ref href => ?_), .arr ?_ (forall_mem_map.mpr fun r hr => ?_),
    .arr (hrvw.length_le.trans (by decide)) (forall_mem_map.mpr fun r hr => ?_), hem, hem, hem,
    .arr (hchk.length_le.trans (by decide)) (forall_mem_map.mpr fun c hc => ?_)⟩
  · rw [length_map, branchRefs, length_map]
    exact hp.branches_le.trans (by decide)
  · obtain ⟨b, hb, rfl⟩ := mem_map.mp href
    exact shape_branchResultJson (hp.branchRef b hb)
  · rw [length_map, smallestCriterionResults, length_map]
    exact hp.criteria_le.trans (by decide)
  · obtain ⟨cr, hcr, rfl⟩ := mem_map.mp hr
    exact .obj ⟨shape_of_isRef (hp.criterionId cr hcr), .str (by decide),
      (smallest_evidence hp hcr).shape⟩
  · have hr := forall₂_same.mp (forall₂_map_left_iff.mp hrvw.reads) r hr
    exact .obj ⟨shape_of_isRef hp.acceptanceRef, shape_of_isRef hr.reviewId.2,
      shape_of_isRef hr.reviewerRef.2, .str (by decide), .obj ⟨.num, .num, .num⟩, hr.evidence.shape⟩
  · have hc := forall₂_same.mp (forall₂_map_left_iff.mp hchk.reads) c hc
    exact .obj ⟨shape_of_isRef hp.acceptanceRef, shape_of_isRef hc.criterionId.2,
      .str (Enumeration.fits_name _),
      shape_of_isRef hc.verifierRef.2,
      shape_contentRefJson hc.verificationRef.isRef hc.verificationRef.isSha256,
      .str (by decide), hc.evidence.shape⟩

end SmallestFacts

end Orquesta.Contract
