import Orquesta.Contract.Acceptability

/-!
# What an accepted snapshot reports

`Contract.Accepted` says which snapshots are accepted.  From it follow the rules an
accepted snapshot keeps: every requirement has one check, and the evidence of a
criterion is that of its checks.  The evaluator carries what it has seen from item to
item, but its verdict is a conjunction of rules about the lists as a whole, so it
does not depend on the order in which anything is reported.

## Main definitions

* `VerificationCheck.view`: what the rules look at in a check

## Main results

* `accepted_sound`: what an accepted snapshot reports, in whatever order
-/

namespace Orquesta.Contract

open List Json

variable {a b x y snap snap' : Raw} {names : List String} {p : WorkOrderPlan}
  {ref : Ref}

/-- The same value, but for the order of elements and members. -/
abbrev Reordered (a b : Raw) : Prop := a.Alike (· = ·) b

/-- If the items read the same to `view` in whatever order, so does the array. -/
theorem Reordered.forall₂ {α β : Type} {R : Raw → α → Prop} (view : α → β) {xs : List Raw}
    {us : List α}
    (h : Reordered a b) (ha : a = .arr xs) (hrd : Forall₂ R xs us)
    (hitem : ∀ {x u y}, R x u → Reordered x y → ∃ v, R y v ∧ view v = view u) :
    ∃ ys vs, b = .arr ys ∧ ys.length = xs.length ∧ Forall₂ R ys vs ∧
    (us.map view).Perm (vs.map view) := by
  subst ha
  cases h with
  | @arr _ zs ys hlen h hpm =>
    have hall : Forall₂ Reordered xs zs := forall₂_iff_zip.mpr ⟨hlen, h⟩
    have hws : ∃ ws, Forall₂ R zs ws ∧ ws.map view = us.map view := by
      clear h hpm hlen
      induction hall generalizing us with
      | nil =>
        cases hrd
        exact ⟨[], .nil, rfl⟩
      | cons hxz _ ih =>
        cases hrd with
        | cons hxu hrs =>
          obtain ⟨v, hv, hview⟩ := hitem hxu hxz
          obtain ⟨ws, hws, hviews⟩ := ih hrs
          exact ⟨v :: ws, .cons hv hws, by rw [map_cons, map_cons, hview, hviews]⟩
    obtain ⟨ws, hws, hviews⟩ := hws
    obtain ⟨vs, hvs, heq⟩ := perm_comp_forall₂ hpm.symm hws
    exact ⟨ys, vs, rfl, hpm.length_eq.symm.trans hlen.symm, hvs, hviews ▸ (heq.map view).symm⟩

theorem Reordered.eq_str {s : String} (h : Reordered (.str s) a) : a = .str s := by
  cases h with
  | str h => rw [h]

theorem Reordered.eq_num {n : Int} (h : Reordered (.num n) a) : a = .num n := by
  cases h
  rfl

section Fields

/-- An object with these fields, and the same in some other order. -/
structure Moved (names : List String) (a b : Raw) : Prop where
  same : Reordered a b
  fields : hasExactFields a names

variable (h : Moved names a b)
include h

theorem Moved.after : hasExactFields b names := by
  obtain ⟨ms, ⟨rfl, halw, hreq⟩, hlen⟩ := hasExactFields_iff.mp h.fields
  cases h.same with
  | @obj _ ns hnms _ =>
    refine hasExactFields_iff.mpr ⟨ns, ⟨rfl, fun m hm => ?_, fun k hk => hnms.subset (hreq k hk)⟩,
      ?_⟩
    · obtain ⟨m', hm', heq⟩ := mem_map.mp (hnms.symm.subset (mem_map_of_mem hm))
      exact heq ▸ halw m' hm'
    · rw [← hlen]
      simpa using hnms.length_eq.symm

theorem Moved.below (k : String) (hk : k ∈ names := by decide) :
    Reordered (member a k) (member b k) := by
  obtain ⟨ns, ⟨rfl, -, hreq'⟩, -⟩ := hasExactFields_iff.mp h.after
  obtain ⟨ms, ⟨rfl, -, hreq⟩, -⟩ := hasExactFields_iff.mp h.fields
  cases h.same with
  | obj _ hvalues => exact hvalues (lookup_field (hreq k hk)) (lookup_field (hreq' k hk))

theorem Moved.str {k s : String} (hs : member a k = .str s) (hk : k ∈ names := by decide) :
    member b k = .str s :=
  (hs ▸ h.below k hk : Reordered (.str s) (member b k)).eq_str

theorem Moved.num {k : String} {n : Int} (hn : member a k = .num n) (hk : k ∈ names := by decide) :
    member b k = .num n :=
  (hn ▸ h.below k hk : Reordered (.num n) (member b k)).eq_num

theorem Moved.evidence {k : String} {refs : List Ref} (hrf : member a k = refsJson refs)
    (hev : EvidenceRefs refs) (hk : k ∈ names := by decide) :
    ∃ refs', member b k = refsJson refs' ∧ EvidenceRefs refs' ∧ refs'.toFinset = refs.toFinset := by
  obtain ⟨ys, vs, hys, -, hvs, hpm⟩ := (h.below k hk).forall₂ id hrf
    (forall₂_str.mpr ⟨rfl, hev.isRef⟩) fun {_ u _} hx hxy =>
      ⟨u, ⟨(hx.1 ▸ hxy : Reordered (.str u) _).eq_str, hx.2⟩, rfl⟩
  rw [map_id, map_id] at hpm
  obtain ⟨rfl, hir⟩ := forall₂_str.mp hvs
  refine ⟨vs, hys, ⟨fun hnil => hev.nonempty ?_, hpm.length_eq ▸ hev.length_le,
    hpm.nodup_iff.mp hev.nodup, hir⟩, toFinset_eq_of_perm _ _ hpm.symm⟩
  exact (hnil ▸ hpm).eq_nil

end Fields

theorem ReadsArtifact.reordered {ref : ContentRef} (h : ReadsArtifact x ref) (hxy : Reordered x y) :
    ReadsArtifact y ref :=
  have hm : Moved _ x y := ⟨hxy, h.fields⟩
  ⟨hm.after, hm.str h.id, h.isRef, hm.str h.hash, h.isSha256⟩

theorem Reordered.artifacts {xs : List Raw} {refs : List ContentRef} (hab : Reordered a b)
    (h : ReadsArtifacts a xs refs) : ∃ xs' refs', ReadsArtifacts b xs' refs' := by
  obtain ⟨ys, vs, rfl, -, hvs, hpm⟩ := hab.forall₂ id h.eq h.reads
    fun {_ u _} hx hxy => ⟨u, hx.reordered hxy, rfl⟩
  rw [map_id, map_id] at hpm
  refine ⟨ys, vs, rfl, hvs, fun hnil => h.nonempty ?_, hpm.length_eq ▸ h.length_le,
    (hpm.map _).nodup_iff.mp h.nodup⟩
  exact (hnil ▸ hpm).eq_nil

/-! ## Branches and criteria -/

theorem ReadsBranchResult.reordered {ref : Ref} (h : ReadsBranchResult p x ref)
    (hxy : Reordered x y) :
    ReadsBranchResult p y ref := by
  have hm : Moved _ x y := ⟨hxy, h.fields⟩
  obtain ⟨refs, hrf, hev⟩ := h.evidence
  obtain ⟨refs', hrf', hev', -⟩ := hm.evidence hrf hev
  obtain ⟨xs, artifacts, hart⟩ := h.artifacts
  refine ⟨hm.after, hm.str h.branchRef, h.isRef, ⟨refs', hrf', hev'⟩,
    (hm.below "artifact_refs").artifacts hart, fun planned hpld => ?_⟩
  exact (h.status planned hpld).imp (hm.str ·) (And.imp_right (hm.str ·))

theorem Reordered.branches {xs : List Raw} {refs : List Ref} (hab : Reordered a b)
    (h : ReadsBranchResults p a xs refs) : ∃ xs' refs', ReadsBranchResults p b xs' refs' := by
  obtain ⟨ys, vs, rfl, hlen, hvs, hpm⟩ := hab.forall₂ id h.eq h.reads
    fun {_ u _} hx hxy => ⟨u, hx.reordered hxy, rfl⟩
  rw [map_id, map_id] at hpm
  exact ⟨ys, vs, rfl, hlen ▸ h.length_le, hvs, hpm.symm.trans h.perm⟩

/-- What the rules look at in a criterion result. -/
def CriterionResult.view (r : CriterionResult) : Ref × Finset Ref :=
  (r.criterionId, r.evidenceRefs.toFinset)

theorem Reordered.criterionResults {xs : List Raw} {rs : List CriterionResult} (hab : Reordered a b)
    (h : ReadsCriterionResults p a xs rs) : ∃ xs' rs', ReadsCriterionResults p b xs' rs' ∧
      (rs.map CriterionResult.view).Perm (rs'.map CriterionResult.view) := by
  have hitem {x r y} (hx : ReadsCriterionResult x r) (hxy : Reordered x y) :
      ∃ r', ReadsCriterionResult y r' ∧ r'.view = r.view := by
    have hm : Moved _ x y := ⟨hxy, hx.fields⟩
    obtain ⟨refs, hrf, hev, heq⟩ := hm.evidence hx.evidenceRefs hx.evidence
    exact ⟨⟨r.criterionId, refs⟩, ⟨hm.after, hm.str hx.criterionId, hx.isRef, hm.str hx.status, hrf,
      hev⟩, Prod.ext rfl heq⟩
  obtain ⟨ys, vs, rfl, hlen, hvs, hpm⟩ := hab.forall₂ CriterionResult.view h.eq h.reads hitem
  have hids := hpm.map Prod.fst
  rw [map_map, map_map] at hids
  exact ⟨ys, vs, ⟨rfl, hlen ▸ h.length_le, hvs, hids.symm.trans h.perm⟩, hpm⟩

/-! ## Reviews -/

theorem ReadsFindings.reordered {n : Int} (h : ReadsFindings x n) (hxy : Reordered x y) :
    ReadsFindings y n :=
  have hm : Moved _ x y := ⟨hxy, h.fields⟩
  ⟨hm.after, hm.num h.critical, hm.num h.important, hm.num h.minor, h.minor_le⟩

theorem Reordered.reviews {xs : List Raw} {rs : List ReviewResult} (hab : Reordered a b)
    (h : ReadsReviews p ref a xs rs) : ∃ xs' rs', ReadsReviews p ref b xs' rs' := by
  have hitem {x r y} (hx : ReadsReview (assigneeRefs p) ref x r) (hxy : Reordered x y) :
      ∃ r', ReadsReview (assigneeRefs p) ref y r' ∧
        (r'.reviewId, r'.reviewerRef) = (r.reviewId, r.reviewerRef) := by
    have hm : Moved _ x y := ⟨hxy, hx.fields⟩
    obtain ⟨refs, hrf, hev, -⟩ := hm.evidence hx.evidenceRefs hx.evidence
    exact ⟨⟨r.reviewId, r.reviewerRef, r.minor, refs⟩, {
      fields := hm.after
      branchRef := hx.branchRef.imp_left (hm.str ·)
      reviewId := hx.reviewId.imp_left (hm.str ·)
      reviewerRef := hx.reviewerRef.imp_left (hm.str ·)
      independent := hx.independent
      status := hm.str hx.status
      findings := hx.findings.reordered (hm.below "findings")
      evidenceRefs := hrf
      evidence := hev }, rfl⟩
  obtain ⟨ys, vs, rfl, hlen, hvs, hpm⟩ :=
    hab.forall₂ (fun r => (r.reviewId, r.reviewerRef)) h.eq h.reads hitem
  have hids := hpm.map Prod.fst
  have hrvs := hpm.map Prod.snd
  rw [map_map, map_map] at hids hrvs
  have hcnt := hpm.length_eq
  rw [length_map, length_map] at hcnt
  exact ⟨ys, vs, rfl, hlen ▸ h.length_le, hvs, hids.nodup_iff.mp h.ids,
    hrvs.nodup_iff.mp h.reviewers, hcnt ▸ h.enough⟩

/-! ## Verification checks -/

/-- What the rules look at in a check. -/
def VerificationCheck.view (c : VerificationCheck) :
    Ref × VerificationRequirement × Ref × Finset Ref :=
  (c.criterionId, c.requirement, c.verifierRef, c.evidenceRefs.toFinset)

section Checks

variable {cs cs' : List VerificationCheck}
  (hpm : (cs.map VerificationCheck.view).Perm (cs'.map VerificationCheck.view))
include hpm

theorem ChecksApart.reordered (h : ChecksApart cs) : ChecksApart cs' where
  verifiers := by
    have hvs := hpm.map (·.2.2.1)
    rw [map_map, map_map] at hvs
    exact hvs.nodup_iff.mp h.verifiers
  verifications := by
    have hrf := hpm.map (·.2.1.verificationRef.id)
    rw [map_map, map_map] at hrf
    exact hrf.nodup_iff.mp h.verifications
  evidence := by
    have hprs : (cs.map VerificationCheck.view).Pairwise fun (b c : _ × _ × _ × Finset Ref) =>
        Disjoint b.2.2.2 c.2.2.2 :=
          pairwise_map.mpr (h.evidence.imp disjoint_toFinset_iff_disjoint.mpr)
    rw [hpm.pairwise_iff fun h => h.symm, pairwise_map] at hprs
    exact hprs.imp disjoint_toFinset_iff_disjoint.mp

theorem exists_checksFor {id : Ref} {p : Ref × VerificationRequirement × Ref × Finset Ref → Prop}
    (h : ∃ c ∈ checksFor cs id, p c.view) : ∃ c ∈ checksFor cs' id, p c.view := by
  obtain ⟨c, hc, hp⟩ := h
  rw [checksFor, mem_filter, decide_eq_true_eq] at hc
  obtain ⟨c', hc', hview⟩ := mem_map.mp (hpm.subset (mem_map_of_mem hc.1))
  have hid : c'.criterionId = c.criterionId := congrArg Prod.fst hview
  exact ⟨c', mem_filter.mpr ⟨hc', by rw [hid, decide_eq_true_eq]; exact hc.2⟩, hview ▸ hp⟩

theorem mem_evidence {id e : Ref}
    (h : e ∈ (checksFor cs id).flatMap VerificationCheck.evidenceRefs) :
    e ∈ (checksFor cs' id).flatMap VerificationCheck.evidenceRefs := by
  rw [mem_flatMap] at h ⊢
  simp only [← mem_toFinset] at h ⊢
  exact exists_checksFor hpm (p := (e ∈ ·.2.2.2)) h

theorem CriterionMet.reordered {rs rs' : List CriterionResult} {c : AcceptanceCriterion}
    (hrss : (rs.map CriterionResult.view).Perm (rs'.map CriterionResult.view))
    (hnd : (rs.map CriterionResult.criterionId).Nodup)
    (h : CriterionMet (rs.map fun r => (r.criterionId, r.evidenceRefs)) cs c) :
    CriterionMet (rs'.map fun r => (r.criterionId, r.evidenceRefs)) cs' c where
  requirements r hr := exists_checksFor hpm (p := (·.2.1 = r)) (h.requirements r hr)
  deterministic := h.deterministic.imp_right
    (exists_checksFor hpm (p := (·.2.1.kind = .deterministic)))
  human := h.human.imp_right (exists_checksFor hpm (p := (·.2.1.kind = .human)))
  evidence refs hrf e := by
    obtain ⟨r', hr', hpair⟩ := mem_map.mp (mem_of_lookup hrf)
    obtain ⟨hid, rfl⟩ := Prod.mk.inj hpair
    obtain ⟨r, hr, hview⟩ := mem_map.mp (hrss.symm.subset (mem_map_of_mem hr'))
    have heq : r.criterionId = r'.criterionId := congrArg Prod.fst hview
    have hev : r.evidenceRefs.toFinset = r'.evidenceRefs.toFinset := congrArg Prod.snd hview
    have hlk : (rs.map fun r => (r.criterionId, r.evidenceRefs)).lookup c.criterionId =
        some r.evidenceRefs := by
      rw [← hid, ← heq]
      exact lookup_of_mem (by rwa [map_map]) (mem_map_of_mem hr)
    rw [← mem_toFinset, ← hev, mem_toFinset, h.evidence r.evidenceRefs hlk]
    exact ⟨mem_evidence hpm, mem_evidence hpm.symm⟩

end Checks

theorem Reordered.checks {xs : List Raw} {cs : List VerificationCheck}
    {rs rs' : List CriterionResult}
    (hab : Reordered a b) (hrss : (rs.map CriterionResult.view).Perm (rs'.map CriterionResult.view))
    (hnd : (rs.map CriterionResult.criterionId).Nodup)
    (h : ReadsChecks p ref (rs.map fun r => (r.criterionId, r.evidenceRefs)) a xs cs) :
    ∃ xs' cs', ReadsChecks p ref (rs'.map fun r => (r.criterionId, r.evidenceRefs)) b xs' cs' := by
  have hitem {x c y} (hx : ReadsCheck p ref x c) (hxy : Reordered x y) :
      ∃ c', ReadsCheck p ref y c' ∧ c'.view = c.view := by
    have hm : Moved _ x y := ⟨hxy, hx.fields⟩
    obtain ⟨refs, hrf, hev, heq⟩ := hm.evidence hx.evidenceRefs hx.evidence
    refine ⟨{ c with evidenceRefs := refs }, { hx with
      fields := hm.after
      branchRef := hx.branchRef.imp_left (hm.str ·)
      criterionId := hx.criterionId.imp_left (hm.str ·)
      kind := hm.str hx.kind
      verifierRef := hx.verifierRef.imp_left (hm.str ·)
      verificationRef := hx.verificationRef.reordered (hm.below "verification_ref")
      status := hm.str hx.status
      evidenceRefs := hrf
      evidence := hev }, ?_⟩
    rw [VerificationCheck.view, heq]
    rfl
  obtain ⟨ys, vs, rfl, hlen, hvs, hpm⟩ := hab.forall₂ VerificationCheck.view h.eq h.reads hitem
  exact ⟨ys, vs, rfl, hlen ▸ h.length_le, hvs, h.apart.reordered hpm,
    fun criterion hcr => (h.met criterion hcr).reordered hpm hrss hnd⟩

/-! ## Snapshots -/

theorem AcceptsSnapshot.reordered {S : SnapshotReading} (hpl : PlanFacts p ref)
    (hmv : Moved SNAPSHOT_FIELDS snap snap')
    (h : AcceptsSnapshot p ref snap S) :
    ∃ S', AcceptsSnapshot p ref snap' S' := by
  have hem {v w : Raw} (hvw : Reordered v w) (hv : v = .arr []) : w = .arr [] := by
    subst hv
    cases hvw with
    | arr hlen _ hpm =>
      rw [eq_nil_of_length_eq_zero hlen.symm] at hpm
      rw [hpm.symm.eq_nil]
  obtain ⟨bx, bs, hbrs⟩ := (hmv.below "branches").branches h.branches
  obtain ⟨cx, cs, hcri, hrss⟩ := (hmv.below "criterion_results").criterionResults h.criterionResults
  obtain ⟨rx, rs, hrvw⟩ := (hmv.below "reviews").reviews h.reviews
  obtain ⟨kx, ks, hchk⟩ := (hmv.below "verification_checks").checks hrss
    (h.criterionResults.perm.nodup_iff.mpr hpl.criterionIds) h.checks
  obtain ⟨id, hid, hwo⟩ := h.identity.workOrderId
  obtain ⟨n, hn, hrev⟩ := h.identity.workOrderRevision
  exact ⟨⟨bx, bs, cx, cs, rx, rs, kx, ks⟩, {
    identity := {
      workOrderId := ⟨id, hmv.str hid, hwo⟩
      projectRef := hmv.str h.identity.projectRef
      planSnapshotId := hmv.str h.identity.planSnapshotId
      planHash := hmv.str h.identity.planHash
      planRevision := hmv.num h.identity.planRevision
      workOrderRevision := ⟨n, hmv.num hn, hrev⟩ }
    branches := hbrs
    criterionResults := hcri
    reviews := hrvw
    attention := hem (hmv.below "pending_attention_refs") h.attention
    risks := hem (hmv.below "open_risk_refs") h.risks
    unverified := hem (hmv.below "unverified_refs") h.unverified
    checks := hchk }⟩

theorem accepted_reordered {H : Sha256} {p s s' : RawDocument} (hmv : Reordered s.1 s'.1)
    (h : (evaluateBusinessAcceptanceV1 H (acceptanceInput p.1 s.1)).accepted) :
    (evaluateBusinessAcceptanceV1 H (acceptanceInput p.1 s'.1)).accepted := by
  obtain ⟨hpre, -, q, ref, S, hpl, hfacts, hfs, hsnap⟩ := evaluateBusinessAcceptanceV1_accepted.mp h
  have hweigh (w : Weights Int) : s.1.weigh w = s'.1.weigh w :=
    hmv.weigh_eq (fun _ _ h => congrArg w.str h) s.2 s'.2
  have hft {d : Nat} : s.1.fits fitsText d → s'.1.fits fitsText d :=
    hmv.fits (fun _ _ h => h ▸ id) s'.2
  refine evaluateBusinessAcceptanceV1_accepted.mpr ⟨?_, hasExactFields_of_names rfl, q, ref, ?_⟩
  · rw [preflightInput_iff, InputFits] at hpre ⊢
    simp only [nodes, acceptanceInput, weigh_obj, map_cons, map_nil, hweigh] at hpre ⊢
    refine hpre.imp_right (And.imp_right (And.imp_right (And.imp_left ?_)))
    simp only [fits, fitsMembers_eq, map_cons, map_nil, fitsAll_iff, forall_mem_cons]
    exact Or.imp (fun hnil => absurd hnil (cons_ne_nil _ _))
      (And.imp_right (And.imp_right (And.imp_left hft)))
  · have hm : Moved SNAPSHOT_FIELDS s.1 s'.1 := ⟨hmv, hfs⟩
    obtain ⟨S', hS'⟩ := hsnap.reordered hfacts hm
    exact ⟨S', hpl, hfacts, hm.after, hS'⟩

/-- **Acceptance is sound and does not look at the order.**  An accepted snapshot is in order and
reads as `S`: every requirement has one check, and a criterion has the evidence of its checks. -/
theorem accepted_sound (H : Sha256) (p s : RawDocument) :
    ((evaluateBusinessAcceptanceV1 H (acceptanceInput p.1 s.1)).accepted → ∃ plan branchRef S,
      normalizeBusinessWorkOrderPlanV1 H p.1 = .ok plan ∧
      acceptanceBranchRef plan = some branchRef ∧ AcceptsSnapshot plan branchRef s.1 S ∧
      (∀ criterion ∈ plan.content.acceptancePolicy.criteria,
        ∀ r ∈ criterion.verificationRequirements,
        ∃! c, c ∈ S.checks ∧ c.criterionId = criterion.criterionId ∧ c.requirement = r) ∧
      ∀ r ∈ S.criterionResults, ∀ e, e ∈ r.evidenceRefs ↔
        ∃ c ∈ S.checks, c.criterionId = r.criterionId ∧ e ∈ c.evidenceRefs) ∧
    ∀ s' : RawDocument, Reordered s.1 s'.1 →
      (evaluateBusinessAcceptanceV1 H (acceptanceInput p.1 s.1)).accepted =
        (evaluateBusinessAcceptanceV1 H (acceptanceInput p.1 s'.1)).accepted := by
  refine ⟨fun h => ?_, fun s' hmoved => ?_⟩
  · obtain ⟨-, -, plan, branchRef, S, hplan, hfacts, -,
        (hS : AcceptsSnapshot plan branchRef s.1 S)⟩ :=
      evaluateBusinessAcceptanceV1_accepted.mp h
    refine ⟨plan, branchRef, S, hplan, hfacts.acceptanceBranch, hS,
      fun criterion hcriterion r hr => ?_, fun r hr e => ?_⟩
    · obtain ⟨c, hc, rfl⟩ := (hS.checks.met criterion hcriterion).requirements r hr
      rw [checksFor, mem_filter, decide_eq_true_eq] at hc
      refine ⟨c, ⟨hc.1, hc.2, rfl⟩, ?_⟩
      rintro c' ⟨hc', -, hsame⟩
      exact inj_on_of_nodup_map hS.checks.apart.verifications hc' hc.1 (by rw [hsame])
    · rw [(hS.evidence_perm hfacts hr).mem_iff, mem_flatMap]
      simp [checksFor, and_assoc]
  · refine Bool.eq_iff_iff.mpr ⟨accepted_reordered hmoved, accepted_reordered ?_⟩
    exact hmoved.flip fun _ _ => Eq.symm

end Orquesta.Contract
