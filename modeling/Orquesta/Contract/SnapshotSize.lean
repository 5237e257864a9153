import Orquesta.Contract.ShortRefs

/-!
# The least size of an accepted snapshot

`preflightInput` bounds the evaluator's whole input, plan and snapshot
together.  A snapshot that is accepted has to report on every branch, criterion
and requirement of the plan and name as many reviews as the policy asks for, so
its size has a lower bound that depends on the plan alone.

The size of each item is a function of what was read from it (`….size`); the
items of a list are then summed over the plan, which they report on in some
order (`checks_perm`, `evidence_perm`).  Only evidence, verifiers and reviewers
are free, and `ShortRefs` bounds those.

## Main definitions

* `bytes`: the evaluator's byte count
* `boundRequirements`: the requirements of a plan, each with its criterion
* `leastBytes`, `leastNodes`: what a snapshot adds to the input, at least

## Main results

* `AcceptsSnapshot.least`
-/

namespace Orquesta.Contract

open Noted CONTRACT_LIMITS List Enumeration Json

/-! ## The size of what is reported -/

/-- The evaluator's byte count. -/
abbrev bytes (value : Raw) : Nat := value.weigh inputWeights

theorem sum_map_const_add {α : Type} (l : List α) (n : Nat) (f : α → Nat) :
    (l.map fun a => n + f a).sum = n * l.length + (l.map f).sum := by
  rw [sum_map_add, map_const', sum_replicate_nat, Nat.mul_comm]

variable {v res : Raw}

/-- The evaluator counts `b` bytes and `n` values in it. -/
@[mk_iff] structure Sized (value : Raw) (b n : Nat) : Prop where
  bytes : bytes value = b
  nodes : value.nodes = n

/-- What an object takes: its braces, the names of its members and the members. -/
theorem size_of_hasExactFields {ns : List String} {k : Nat} (h : hasExactFields v ns)
    (hwf : v.WellFormed) (hnd : ns.Nodup := by decide)
    (hk : (ns.map inputWeights.name).sum = k := by rfl) :
    Sized v (2 + k + (ns.map fun n => bytes (member v n)).sum)
      (1 + (ns.map fun n => (member v n).nodes).sum) := by
  constructor
  · rw [bytes, weigh_of_hasExactFields h hnd hwf, sum_map_add, hk, ← Nat.add_assoc]
    rfl
  · rw [nodes, weigh_of_hasExactFields h hnd hwf]
    simp only [nodeWeights, Nat.zero_add]
    rfl

theorem bytes_refsJson (l : List Ref) : bytes (refsJson l) = 2 + refBytes l + 2 * l.length := by
  rw [bytes, refsJson, weigh_arr_map]
  simp only [weigh, inputWeights, sum_map_add, map_const', sum_replicate_nat]
  rw [refBytes]
  omega

theorem nodes_refsJson (l : List Ref) : (refsJson l).nodes = 1 + l.length := by
  rw [refsJson, nodes, weigh_arr_map]
  simp [weigh, nodeWeights]

theorem bytes_arr (xs : List Raw) : bytes (.arr xs) = 2 + (xs.map bytes).sum := weigh_arr _ xs

theorem nodes_arr (xs : List Raw) : (arr xs).nodes = 1 + (xs.map nodes).sum := weigh_arr _ xs

@[simp] theorem bytes_str (s : String) : bytes (.str s) = s.utf8ByteSize + 2 := rfl

@[simp] theorem bytes_num (n : Int) : bytes (.num n) = 24 := rfl

@[simp] theorem nodes_str (s : String) : (str s : Raw).nodes = 1 := rfl

@[simp] theorem nodes_num (n : Int) : (num n : Raw).nodes = 1 := rfl

theorem ReadsArtifact.size {ref : ContentRef} (h : ReadsArtifact v ref) (hwf : v.WellFormed) :
    Sized v (82 + ref.id.utf8ByteSize) 3 := by
  have hh : ref.hash.utf8ByteSize = 64 := (plainText_of_isSha256 h.isSha256).size
  obtain ⟨hby, hns⟩ := size_of_hasExactFields (k := 12) h.fields hwf
  rw [sized_iff, hby, hns]
  simp only [CONTENT_REF_FIELDS, map_cons, map_nil, sum_cons, sum_nil, h.id, h.hash, bytes_str,
    nodes_str, hh]
  omega

/-- A list of artifacts is at least as large as a single one with a short name. -/
theorem ReadsArtifacts.size {xs : List Raw} {refs : List ContentRef}
    (h : ReadsArtifacts v xs refs) (hwf : v.WellFormed) :
    85 ≤ bytes v ∧ 4 ≤ v.nodes := by
  cases hrf : refs with
  | nil => exact absurd hrf h.nonempty
  | cons ref rest =>
    have hrds := h.reads
    rw [hrf] at hrds
    cases hrds with
    | @cons x _ xs _ hx hrs =>
      rw [h.eq] at hwf ⊢
      obtain ⟨hby, hns⟩ := hx.size (hwf.elem mem_cons_self)
      have hpos : 1 ≤ ref.id.utf8ByteSize := hx.isRef.size_pos
      rw [nodes, bytes, weigh_arr, weigh_arr, map_cons, map_cons, sum_cons, sum_cons]
      change 85 ≤ 2 + (bytes x + _) ∧ 4 ≤ 1 + (x.nodes + _)
      omega

variable {pl : WorkOrderPlan} {ref br : Ref}

theorem exists_plannedBranch (h : ref ∈ branchRefs pl.content.branches) :
    ∃ b, plannedBranch pl ref = some b := by
  obtain ⟨b, hb, hnm⟩ := mem_map.mp h
  exact Option.isSome_iff_exists.mp (find?_isSome.mpr ⟨b, hb, by simpa using hnm⟩)

/-- The least a result of the branch `ref` can take. -/
theorem ReadsBranchResult.size (h : ReadsBranchResult pl res ref) (hwf : res.WellFormed)
    (hpld : ref ∈ branchRefs pl.content.branches) :
    158 + ref.utf8ByteSize ≤ bytes res ∧ 9 ≤ res.nodes := by
  obtain ⟨refs, hrf, hev⟩ := h.evidence
  obtain ⟨xs, artifacts, hart⟩ := h.artifacts
  obtain ⟨abytes, anodes⟩ := hart.size (wellFormed_member h.fields hwf (by decide))
  obtain ⟨b, hb⟩ := exists_plannedBranch hpld
  have hsts : bytes (member res "status") = 10 ∧ (member res "status").nodes = 1 := by
    rcases h.status b hb with hs | ⟨-, hs⟩ <;> rw [hs] <;> exact ⟨rfl, rfl⟩
  have hlen := length_pos_iff.mpr hev.nonempty
  have hsum := length_le_refBytes hev.isRef
  obtain ⟨hby, hns⟩ := size_of_hasExactFields (k := 54) h.fields hwf
  rw [hby, hns]
  simp only [BRANCH_RESULT_FIELDS, map_cons, map_nil, sum_cons, sum_nil,
    h.branchRef, hrf, bytes_str, nodes_str, hsts, bytes_refsJson, nodes_refsJson]
  omega

/-- What a list of evidence takes, apart from its brackets. -/
def evidenceBytes (refs : List Ref) : Nat := refBytes refs + 2 * refs.length

theorem ReadsCriterionResult.size {r : CriterionResult}
    (h : ReadsCriterionResult res r) (hwf : res.WellFormed) :
    Sized res (54 + r.criterionId.utf8ByteSize + evidenceBytes r.evidenceRefs)
      (4 + r.evidenceRefs.length) := by
  have hsts : bytes (.str "passed") = 8 := rfl
  obtain ⟨hby, hns⟩ := size_of_hasExactFields (k := 40) h.fields hwf
  rw [sized_iff, hby, hns]
  simp only [CRITERION_RESULT_FIELDS, map_cons, map_nil, sum_cons, sum_nil,
    h.criterionId, h.status, h.evidenceRefs, hsts, bytes_str r.criterionId, nodes_str,
    bytes_refsJson, nodes_refsJson, evidenceBytes]
  omega

theorem ReadsFindings.size {findings : Raw} {n : Int} (h : ReadsFindings findings n)
    (hwf : findings.WellFormed) : Sized findings 105 4 := by
  obtain ⟨hby, hns⟩ := size_of_hasExactFields (k := 31) h.fields hwf
  rw [sized_iff, hby, hns]
  simp [REVIEW_FINDING_FIELDS, h.critical, h.important, h.minor]

theorem ReadsReview.size {as : List Ref} {review : Raw} {r : ReviewResult}
    (h : ReadsReview as br review r) (hwf : review.WellFormed) :
    Sized review (201 + br.utf8ByteSize + r.reviewId.utf8ByteSize +
      r.reviewerRef.utf8ByteSize + evidenceBytes r.evidenceRefs) (10 + r.evidenceRefs.length) := by
  have hsts : bytes (.str "accepted") = 10 := rfl
  obtain ⟨fbytes, fnodes⟩ := h.findings.size (wellFormed_member h.fields hwf (by decide))
  obtain ⟨hby, hns⟩ := size_of_hasExactFields (k := 76) h.fields hwf
  rw [sized_iff, hby, hns]
  simp only [REVIEW_FIELDS, map_cons, map_nil, sum_cons, sum_nil,
    h.branchRef.1, h.reviewId.1, h.reviewerRef.1, h.status, h.evidenceRefs, hsts,
    bytes_str br, bytes_str r.reviewId, bytes_str r.reviewerRef, fbytes, fnodes, nodes_str,
    bytes_refsJson, nodes_refsJson, evidenceBytes]
  omega

/-- What a check of this requirement takes, apart from its verifier and its evidence. -/
def requirementBytes (branchRef criterionId : Ref) (r : VerificationRequirement) : Nat :=
  196 + branchRef.utf8ByteSize + criterionId.utf8ByteSize +
    (name r.kind).utf8ByteSize + r.verificationRef.id.utf8ByteSize

theorem ReadsCheck.size {check : Raw}
    {c : VerificationCheck} (h : ReadsCheck pl br check c) (hwf : check.WellFormed) :
    Sized check (requirementBytes br c.criterionId c.requirement +
      c.verifierRef.utf8ByteSize + evidenceBytes c.evidenceRefs) (10 + c.evidenceRefs.length) := by
  have hsts : bytes (.str "passed") = 8 := rfl
  obtain ⟨rbytes, rnodes⟩ := h.verificationRef.size (wellFormed_member h.fields hwf (by decide))
  obtain ⟨hby, hns⟩ := size_of_hasExactFields (k := 94) h.fields hwf
  rw [sized_iff, hby, hns]
  simp only [VERIFICATION_CHECK_FIELDS, map_cons, map_nil, sum_cons, sum_nil,
    h.branchRef.1, h.criterionId.1, h.kind, toJson, h.verifierRef.1, h.status,
    h.evidenceRefs, hsts, bytes_str br, bytes_str c.criterionId,
    bytes_str (name _), bytes_str c.verifierRef, rbytes, rnodes, nodes_str,
    bytes_refsJson, nodes_refsJson, evidenceBytes, requirementBytes]
  omega

theorem nodup_SNAPSHOT_FIELDS : SNAPSHOT_FIELDS.Nodup := by simp [SNAPSHOT_FIELDS]

/-- The snapshot, apart from the items of its lists. -/
theorem AcceptsSnapshot.size {snap : Raw} {S : SnapshotReading} (h : AcceptsSnapshot pl br snap S)
    (hpl : PlanFacts pl br) (hfs : hasExactFields snap SNAPSHOT_FIELDS)
    (hwf : snap.WellFormed) :
    Sized snap (429 + pl.content.projectRef.utf8ByteSize + (S.branchItems.map bytes).sum +
        (S.criterionItems.map bytes).sum + (S.reviewItems.map bytes).sum +
        (S.checkItems.map bytes).sum)
      (14 + (S.branchItems.map nodes).sum + (S.criterionItems.map nodes).sum +
        (S.reviewItems.map nodes).sum + (S.checkItems.map nodes).sum) := by
  obtain ⟨id, hid, hisId⟩ := h.identity.workOrderId
  obtain ⟨n, hn, -⟩ := h.identity.workOrderRevision
  have hidSize : id.utf8ByteSize = 35 := (plainText_of_isWorkOrderId hisId).size
  have hsnap := (plainText_of_isPlanSnapshotId hpl.identity.planSnapshotId).size
  have hh := (plainText_of_isSha256 hpl.identity.planHash).size
  obtain ⟨hby, hns⟩ := size_of_hasExactFields (k := 222) hfs hwf nodup_SNAPSHOT_FIELDS
  rw [sized_iff, hby, hns]
  simp only [SNAPSHOT_FIELDS, map_cons, map_nil, sum_cons, sum_nil, hid, hn,
    h.identity.projectRef, h.identity.planSnapshotId, h.identity.planHash,
    h.identity.planRevision, natJson, h.branches.eq, h.criterionResults.eq, h.reviews.eq,
    h.attention, h.risks, h.unverified, h.checks.eq, bytes_arr, nodes_arr, bytes_str, bytes_num,
    nodes_str, nodes_num, hidSize, hsnap, hh]
  omega

/-! ## The least a snapshot can take -/

variable (plan : WorkOrderPlan)

/-- The requirements of a plan, each with its criterion. -/
def boundRequirements : List (Ref × VerificationRequirement) :=
  plan.content.acceptancePolicy.criteria.flatMap fun c =>
    c.verificationRequirements.map fun r => (c.criterionId, r)

def humanCount : Nat := (boundRequirements plan).countP (·.2.kind = .human)

/-- The one-character references that are not assignees. -/
def freeShortRefs : Nat := shortCount (assigneeRefs plan)

/-- Distinct evidence for `n` checks: `n` references, at most 62 of them of one character. -/
def leastEvidence (n : Nat) : Nat := 2 * n - min n 62

/-- Distinct verifiers for the requirements; a human one is not an assignee. -/
def leastVerifiers : Nat :=
  2 * (boundRequirements plan).length -
    min 62 (min (humanCount plan) (freeShortRefs plan) +
      ((boundRequirements plan).length - humanCount plan))

/-- Distinct reviewers that are not assignees. -/
def leastReviewers : Nat :=
  let n := plan.content.acceptancePolicy.reviewMinimum.count
  2 * n - min n (freeShortRefs plan)

/-- The values a snapshot adds to the input, at least. -/
def leastNodes : Nat :=
  15 + 9 * plan.content.branches.length + 4 * plan.content.acceptancePolicy.criteria.length +
    12 * (boundRequirements plan).length + 11 * plan.content.acceptancePolicy.reviewMinimum.count

/-- The bytes a snapshot adds to the input, at least. -/
def leastBytes (branchRef : Ref) : Nat :=
  449 + plan.content.projectRef.utf8ByteSize +
    ((branchRefs plan.content.branches).map fun ref => 158 + ref.utf8ByteSize).sum +
    ((criterionIds plan).map fun id => 54 + id.utf8ByteSize).sum +
    ((boundRequirements plan).map fun b => 4 + requirementBytes branchRef b.1 b.2).sum +
    leastVerifiers plan + 2 * leastEvidence (boundRequirements plan).length +
    plan.content.acceptancePolicy.reviewMinimum.count * (205 + branchRef.utf8ByteSize) +
    leastReviewers plan

section LowerBound

/-- What the items of a list take together. -/
structure ItemsSized (xs : List Raw) (b n : Nat) : Prop where
  bytes : (xs.map bytes).sum = b
  nodes : (xs.map nodes).sum = n

theorem sum_le_of_forall₂ {α β : Type} {R : α → β → Prop} {xs : List α} {vs : List β}
    (h : Forall₂ R xs vs) (f : α → Nat) (g : β → Nat)
    (hle : ∀ x ∈ xs, ∀ v ∈ vs, R x v → g v ≤ f x) : (vs.map g).sum ≤ (xs.map f).sum := by
  induction h with
  | nil => simp
  | cons hR _ ih =>
    have h₁ := hle _ mem_cons_self _ mem_cons_self hR
    have h₂ := ih fun x hx v hv => hle x (mem_cons_of_mem _ hx) v (mem_cons_of_mem _ hv)
    simp only [map_cons, sum_cons]
    omega

/-- A sum over items, grouped by a key. -/
theorem sum_by_key {α κ : Type} [DecidableEq κ] (key : α → κ) (f : α → Nat) {keys : List κ}
    (hnd : keys.Nodup) {l : List α} (hmem : ∀ a ∈ l, key a ∈ keys) :
    (keys.map fun k => ((l.filter (key · = k)).map f).sum).sum = (l.map f).sum := by
  induction l with
  | nil => simp
  | cons a l ih =>
    obtain ⟨ha, hl⟩ := forall_mem_cons.mp hmem
    have hsp : ∀ k, (((a :: l).filter (key · = k)).map f).sum =
        (if key a = k then f a else 0) + ((l.filter (key · = k)).map f).sum := by
      intro k
      by_cases h : key a = k <;> simp [h]
    have hone : (keys.map fun k => if key a = k then f a else 0).sum = f a := by
      have hrs : ∀ k ∈ keys.erase (key a), (if key a = k then f a else 0) = 0 := fun k hk =>
        if_neg fun heq => hnd.not_mem_erase (heq ▸ hk)
      rw [((perm_cons_erase ha).map _).sum_nat, map_cons, sum_cons, if_pos rfl,
        sum_eq_zero_iff.mpr (forall_mem_map.mpr hrs), Nat.add_zero]
    simp only [hsp, sum_map_add, hone, ih hl, map_cons, sum_cons]

theorem mem_boundRequirements {pl : WorkOrderPlan} {id : Ref} {r : VerificationRequirement} :
    (id, r) ∈ boundRequirements pl ↔ ∃ c ∈ pl.content.acceptancePolicy.criteria,
      c.criterionId = id ∧ r ∈ c.verificationRequirements := by
  simp only [boundRequirements, mem_flatMap, mem_map, Prod.mk.injEq]
  constructor
  · rintro ⟨c, hc, r', hr', rfl, rfl⟩
    exact ⟨c, hc, rfl, hr'⟩
  · rintro ⟨c, hc, rfl, hr⟩
    exact ⟨c, hc, r, hr, rfl, rfl⟩

variable {pl : WorkOrderPlan} {br : Ref} {snap : Raw} {S : SnapshotReading}

theorem PlanFacts.nodup_boundRequirements (hpl : PlanFacts pl br) :
    (boundRequirements pl).Nodup := by
  refine Nodup.of_map (fun b => b.2.verificationRef.id) ?_
  have h := hpl.verificationRefs
  rw [boundRequirements, map_flatMap]
  simpa [map_map, Function.comp_def] using h

section

variable (h : AcceptsSnapshot pl br snap S) (hpl : PlanFacts pl br)
include h hpl

/-- The checks of an accepted snapshot are one for each requirement. -/
theorem AcceptsSnapshot.checks_perm :
    (S.checks.map fun c => (c.criterionId, c.requirement)).Perm (boundRequirements pl) := by
  have hnd : (S.checks.map fun c => (c.criterionId, c.requirement)).Nodup := by
    refine Nodup.of_map (fun b => b.2.verificationRef.id) ?_
    rw [map_map]
    exact h.checks.apart.verifications
  refine (perm_ext_iff_of_nodup hnd hpl.nodup_boundRequirements).mpr ?_
  rintro ⟨id, r⟩
  rw [mem_boundRequirements]
  constructor
  · intro hmem
    obtain ⟨c, hc, heq⟩ := mem_map.mp hmem
    obtain ⟨x, -, hx⟩ := exists_of_forall₂ h.checks.reads hc
    obtain ⟨criterion, hcr, hr⟩ := hx.planBound
    cases heq
    exact ⟨criterion, mem_of_find?_eq_some hcr, criterionId_of_planned hcr, hr⟩
  · rintro ⟨criterion, hcr, rfl, hr⟩
    obtain ⟨c, hc, rfl⟩ := (h.checks.met criterion hcr).requirements r hr
    rw [checksFor, mem_filter, decide_eq_true_eq] at hc
    exact mem_map.mpr ⟨c, hc.1, by rw [hc.2]⟩

omit h hpl in
theorem evidenceBytes_perm {l l' : List Ref} (h : l.Perm l') :
    evidenceBytes l = evidenceBytes l' ∧ l.length = l'.length := by
  rw [evidenceBytes, evidenceBytes, refBytes, refBytes, (h.map _).sum_nat, h.length_eq]
  exact ⟨rfl, rfl⟩

omit h hpl in
theorem evidenceBytes_flatMap {α : Type} (l : List α) (f : α → List Ref) :
    evidenceBytes (l.flatMap f) = (l.map fun a => evidenceBytes (f a)).sum ∧
      (l.flatMap f).length = (l.map fun a => (f a).length).sum := by
  refine ⟨?_, by rw [length_flatMap]⟩
  induction l with
  | nil => rfl
  | cons a l ih =>
    rw [flatMap_cons, map_cons, sum_cons, ← ih]
    simp only [evidenceBytes, refBytes_append, length_append]
    omega

omit h hpl in
theorem ReadsChecks.evidence {rs : List (Ref × List Ref)} {v : Raw} {xs : List Raw}
    {cs : List VerificationCheck} (h : ReadsChecks pl br rs v xs cs) :
    ∀ c ∈ cs, EvidenceRefs c.evidenceRefs := by
  intro c hc
  obtain ⟨x, -, hx⟩ := exists_of_forall₂ h.reads hc
  exact hx.evidence

/-- The evidence of a criterion result is the evidence of its checks. -/
theorem AcceptsSnapshot.evidence_perm {r : CriterionResult} (hr : r ∈ S.criterionResults) :
    r.evidenceRefs.Perm ((checksFor S.checks r.criterionId).flatMap
      VerificationCheck.evidenceRefs) := by
  obtain ⟨x, -, hx⟩ := exists_of_forall₂ h.criterionResults.reads hr
  have hsub : (checksFor S.checks r.criterionId).Sublist S.checks := filter_sublist
  have hnd : ((checksFor S.checks r.criterionId).flatMap VerificationCheck.evidenceRefs).Nodup :=
    nodup_flatMap.mpr ⟨fun c hc => (h.checks.evidence c (hsub.subset hc)).nodup,
      h.checks.apart.evidence.sublist hsub⟩
  refine (perm_ext_iff_of_nodup hx.evidence.nodup hnd).mpr fun e => ?_
  have hid : r.criterionId ∈ criterionIds pl :=
    h.criterionResults.perm.mem_iff.mp (mem_map_of_mem hr)
  obtain ⟨criterion, hcr, hnm⟩ := mem_map.mp hid
  have hlk : (S.criterionResults.map fun r => (r.criterionId, r.evidenceRefs)).lookup
      r.criterionId = some r.evidenceRefs := by
    refine lookup_of_mem ?_ (mem_map_of_mem hr)
    rw [map_map]
    exact h.criterionResults.perm.nodup_iff.mpr hpl.criterionIds
  rw [← hnm]
  exact (h.checks.met criterion hcr).evidence r.evidenceRefs (hnm ▸ hlk) e

/-- The criterion results repeat the evidence of the checks, once. -/
theorem AcceptsSnapshot.criterionEvidence (f : List Ref → Nat)
    (hpm : ∀ l l', l.Perm l' → f l = f l') (hflat : ∀ cs : List VerificationCheck, f (cs.flatMap
    VerificationCheck.evidenceRefs) = (cs.map fun c => f c.evidenceRefs).sum) :
    (S.criterionResults.map fun r => f r.evidenceRefs).sum =
      (S.checks.map fun c => f c.evidenceRefs).sum := by
  have hnd := h.criterionResults.perm.nodup_iff.mpr hpl.criterionIds
  have hmem : ∀ c ∈ S.checks, c.criterionId ∈
      S.criterionResults.map CriterionResult.criterionId := by
    intro c hc
    have hbd := (h.checks_perm hpl).mem_iff.mp (mem_map_of_mem hc)
    obtain ⟨criterion, hcr, hnm, -⟩ := mem_boundRequirements.mp hbd
    exact h.criterionResults.perm.mem_iff.mpr (hnm ▸ mem_map_of_mem hcr)
  rw [← sum_by_key VerificationCheck.criterionId (fun c => f c.evidenceRefs) hnd hmem, map_map]
  refine congrArg sum (map_congr_left fun r hr => ?_)
  rw [hpm _ _ (h.evidence_perm hpl hr), hflat]
  rfl

/-- The least the checks and the evidence of the criterion results can take. -/
theorem AcceptsSnapshot.evidence_size :
    leastEvidence (boundRequirements pl).length + 2 * (boundRequirements pl).length ≤
        (S.checks.map fun c => evidenceBytes c.evidenceRefs).sum ∧
      (boundRequirements pl).length ≤ (S.checks.map fun c => c.evidenceRefs.length).sum := by
  have hlen := (h.checks_perm hpl).length_eq
  rw [length_map] at hlen
  obtain ⟨hby, hln⟩ := evidenceBytes_flatMap S.checks VerificationCheck.evidenceRefs
  have hnd : (S.checks.flatMap VerificationCheck.evidenceRefs).Nodup :=
    nodup_flatMap.mpr ⟨fun c hc => (h.checks.evidence c hc).nodup, h.checks.apart.evidence⟩
  have hir : ∀ e ∈ S.checks.flatMap VerificationCheck.evidenceRefs, IsRef e := by
    intro e he
    obtain ⟨c, hc, he⟩ := mem_flatMap.mp he
    exact (h.checks.evidence c hc).isRef e he
  have hmany := length_le_sum_of_one_le (S.checks.map fun c => c.evidenceRefs.length)
    (forall_mem_map.mpr fun c hc => length_pos_iff.mpr (h.checks.evidence c hc).nonempty)
  have htwo := two_mul_length_le hir
  have hsh := countP_isShort_le hnd hir [] fun _ _ => not_mem_nil
  rw [length_shortRefs_filter_nil] at hsh
  have hcnt := countP_le_length (p := isShort)
    (l := S.checks.flatMap VerificationCheck.evidenceRefs)
  rw [← hby, ← hln]
  rw [← hln, length_map] at hmany
  simp only [leastEvidence, evidenceBytes]
  omega

/-- The least the verifiers can take. -/
theorem AcceptsSnapshot.verifiers_size :
    leastVerifiers pl ≤ refBytes (S.checks.map VerificationCheck.verifierRef) := by
  have hpm := h.checks_perm hpl
  have hlen := hpm.length_eq
  rw [length_map] at hlen
  let isHuman : VerificationCheck → Bool := fun c => c.requirement.kind = .human
  have hhum : (S.checks.filter isHuman).length = humanCount pl := by
    rw [humanCount, ← hpm.countP_eq, countP_map, countP_eq_length_filter]
    rfl
  have hir : ∀ s ∈ S.checks.map VerificationCheck.verifierRef, IsRef s := by
    intro s hs
    obtain ⟨c, hc, rfl⟩ := mem_map.mp hs
    obtain ⟨x, -, hx⟩ := exists_of_forall₂ h.checks.reads hc
    exact hx.verifierRef.2
  have htwo := two_mul_length_le hir
  have hsh := countP_isShort_le h.checks.apart.verifiers hir [] fun _ _ => not_mem_nil
  rw [length_shortRefs_filter_nil] at hsh
  -- the short verifiers are those of human checks and those of deterministic ones
  have hsp := countP_eq_countP_filter_add S.checks (isShort ∘ VerificationCheck.verifierRef) isHuman
  have hhumans : (S.checks.filter isHuman).countP (isShort ∘ VerificationCheck.verifierRef) ≤
      freeShortRefs pl := by
    have hsub := (filter_sublist (p := isHuman) (l := S.checks)).map VerificationCheck.verifierRef
    have hle := countP_isShort_le (h.checks.apart.verifiers.sublist hsub)
      (fun s hs => hir s (hsub.subset hs)) (assigneeRefs pl) fun s hs => by
        obtain ⟨c, hc, rfl⟩ := mem_map.mp hs
        obtain ⟨hc, hk⟩ := mem_filter.mp hc
        obtain ⟨x, -, hx⟩ := exists_of_forall₂ h.checks.reads hc
        exact hx.independent (of_decide_eq_true hk)
    rwa [countP_map] at hle
  have hhumans' := countP_le_length (p := isShort ∘ VerificationCheck.verifierRef)
    (l := S.checks.filter isHuman)
  have hothers := countP_le_length (p := isShort ∘ VerificationCheck.verifierRef)
    (l := S.checks.filter fun c => !isHuman c)
  have hln := length_eq_length_filter_add (l := S.checks) isHuman
  rw [countP_map, length_map] at htwo
  rw [countP_map] at hsh
  simp only [leastVerifiers]
  omega

omit h hpl in
theorem AcceptsSnapshot.reviews_size (h : AcceptsSnapshot pl br snap S) :
    pl.content.acceptancePolicy.reviewMinimum.count * (205 + br.utf8ByteSize) + leastReviewers pl ≤
      (S.reviews.map fun r => 201 + br.utf8ByteSize + r.reviewId.utf8ByteSize +
        r.reviewerRef.utf8ByteSize + evidenceBytes r.evidenceRefs).sum ∧
      11 * pl.content.acceptancePolicy.reviewMinimum.count ≤
        (S.reviews.map fun r => 10 + r.evidenceRefs.length).sum := by
  have hrds : ∀ r ∈ S.reviews, IsRef r.reviewId ∧ IsRef r.reviewerRef ∧
      r.reviewerRef ∉ assigneeRefs pl ∧ EvidenceRefs r.evidenceRefs := by
    intro r hr
    obtain ⟨x, -, hx⟩ := exists_of_forall₂ h.reviews.reads hr
    exact ⟨hx.reviewId.2, hx.reviewerRef.2, hx.independent, hx.evidence⟩
  have hir : ∀ s ∈ S.reviews.map ReviewResult.reviewerRef, IsRef s :=
    forall_mem_map.mpr fun r hr => (hrds r hr).2.1
  have htwo := two_mul_length_le hir
  have hsh := countP_isShort_le h.reviews.reviewers hir (assigneeRefs pl)
    (forall_mem_map.mpr fun r hr => (hrds r hr).2.2.1)
  have hcnt := countP_le_length (p := isShort) (l := S.reviews.map ReviewResult.reviewerRef)
  have henough := h.reviews.enough
  have heach : (S.reviews.map fun r => 205 + br.utf8ByteSize +
      r.reviewerRef.utf8ByteSize).sum ≤ (S.reviews.map fun r => 201 + br.utf8ByteSize +
        r.reviewId.utf8ByteSize + r.reviewerRef.utf8ByteSize +
        evidenceBytes r.evidenceRefs).sum := by
    refine sum_le_sum fun r hr => ?_
    obtain ⟨hid, -, -, hev⟩ := hrds r hr
    have := hid.size_pos
    have := length_le_refBytes hev.isRef
    have := length_pos_iff.mpr hev.nonempty
    simp only [evidenceBytes]
    omega
  have hns : (S.reviews.map fun _ => 11).sum ≤
      (S.reviews.map fun r => 10 + r.evidenceRefs.length).sum := by
    refine sum_le_sum fun r hr => ?_
    have := length_pos_iff.mpr (hrds r hr).2.2.2.nonempty
    omega
  have hmul := Nat.mul_le_mul_right (205 + br.utf8ByteSize) henough
  have hby : (S.reviews.map fun r => r.reviewerRef.utf8ByteSize).sum =
      refBytes (S.reviews.map ReviewResult.reviewerRef) := by
    rw [refBytes, map_map]
    rfl
  rw [sum_map_add, map_const', sum_replicate_nat, hby] at heach
  rw [map_const', sum_replicate_nat] at hns
  rw [length_map] at htwo hcnt
  simp only [leastReviewers, freeShortRefs, shortCount]
  omega

omit h hpl in
theorem AcceptsSnapshot.branches_size (h : AcceptsSnapshot pl br snap S)
    (hwf : (member snap "branches").WellFormed) :
    ((branchRefs pl.content.branches).map fun ref => 158 + ref.utf8ByteSize).sum ≤
        (S.branchItems.map bytes).sum ∧
      9 * pl.content.branches.length ≤ (S.branchItems.map nodes).sum := by
  rw [h.branches.eq] at hwf
  have hsz : ∀ x ∈ S.branchItems, ∀ ref ∈ S.branchRefs, ReadsBranchResult pl x ref →
      158 + ref.utf8ByteSize ≤ bytes x ∧ 9 ≤ x.nodes := fun x hx ref href hR =>
    hR.size (hwf.elem hx) (h.branches.perm.mem_iff.mp href)
  have hby := sum_le_of_forall₂ h.branches.reads bytes (fun ref => 158 + ref.utf8ByteSize)
    fun x hx ref href hR => (hsz x hx ref href hR).1
  have hns := sum_le_of_forall₂ h.branches.reads nodes (fun _ => 9)
    fun x hx ref href hR => (hsz x hx ref href hR).2
  have hlen := h.branches.perm.length_eq
  rw [branchRefs, length_map] at hlen
  rw [map_const', sum_replicate_nat, hlen] at hns
  rw [(h.branches.perm.map _).sum_nat] at hby
  exact ⟨hby, by omega⟩

omit h hpl in
/-- The items of a list take what their contents take. -/
theorem sizes_of_forall₂ {β : Type} {R : Raw → β → Prop} {xs : List Raw} {vs : List β}
    {f g : β → Nat}
    (h : Forall₂ R xs vs) (hwf : (arr xs).WellFormed)
    (hsz : ∀ x v, R x v → x.WellFormed → Sized x (f v) (g v)) :
    ItemsSized xs (vs.map f).sum (vs.map g).sum := by
  induction h with
  | nil => exact ⟨rfl, rfl⟩
  | cons hR _ ih =>
    obtain ⟨hby, hns⟩ := hsz _ _ hR hwf.1
    obtain ⟨hby', hns'⟩ := ih hwf.2
    constructor <;> simp only [map_cons, sum_cons, hby, hns, hby', hns']

theorem AcceptsSnapshot.criteria_size (hwf : (member snap "criterion_results").WellFormed) :
    ItemsSized S.criterionItems (((criterionIds pl).map fun id => 54 + id.utf8ByteSize).sum +
        (S.checks.map fun c => evidenceBytes c.evidenceRefs).sum)
      (4 * pl.content.acceptancePolicy.criteria.length +
        (S.checks.map fun c => c.evidenceRefs.length).sum) := by
  rw [h.criterionResults.eq] at hwf
  obtain ⟨hby, hns⟩ := sizes_of_forall₂ h.criterionResults.reads hwf fun _ _ hR => hR.size
  have hlen := h.criterionResults.perm.length_eq
  have hids := ((h.criterionResults.perm.map fun id => 54 + id.utf8ByteSize).sum_nat)
  rw [criterionIds, length_map, length_map] at hlen
  rw [map_map] at hids
  constructor
  · rw [hby, sum_map_add (f := fun r : CriterionResult => 54 + r.criterionId.utf8ByteSize), ← hids,
      h.criterionEvidence hpl evidenceBytes (fun _ _ hp => (evidenceBytes_perm hp).1)
        fun cs => (evidenceBytes_flatMap cs _).1]
    rfl
  · rw [hns, sum_map_const_add, hlen, h.criterionEvidence hpl length (fun _ _ hp => hp.length_eq)
        fun cs => (evidenceBytes_flatMap cs _).2]

theorem AcceptsSnapshot.checks_size (hwf : (member snap "verification_checks").WellFormed) :
    ItemsSized S.checkItems (((boundRequirements pl).map fun b => requirementBytes br b.1 b.2).sum +
        refBytes (S.checks.map VerificationCheck.verifierRef) +
        (S.checks.map fun c => evidenceBytes c.evidenceRefs).sum)
      (10 * (boundRequirements pl).length + (S.checks.map fun c => c.evidenceRefs.length).sum) := by
  rw [h.checks.eq] at hwf
  obtain ⟨hby, hns⟩ := sizes_of_forall₂ h.checks.reads hwf fun _ _ hR => hR.size
  have hpm := h.checks_perm hpl
  have hlen := hpm.length_eq
  have hreqs := (hpm.map fun b => requirementBytes br b.1 b.2).sum_nat
  rw [length_map] at hlen
  rw [map_map] at hreqs
  constructor
  · rw [hby, sum_map_add (f := fun c : VerificationCheck =>
      requirementBytes br c.criterionId c.requirement + c.verifierRef.utf8ByteSize),
      sum_map_add, ← hreqs, refBytes, map_map]
    rfl
  · rw [hns, sum_map_const_add, hlen]

omit h hpl in
theorem AcceptsSnapshot.reviewItems_size (h : AcceptsSnapshot pl br snap S)
    (hwf : (member snap "reviews").WellFormed) :
    ItemsSized S.reviewItems (S.reviews.map fun r => 201 + br.utf8ByteSize +
        r.reviewId.utf8ByteSize + r.reviewerRef.utf8ByteSize + evidenceBytes r.evidenceRefs).sum
      (S.reviews.map fun r => 10 + r.evidenceRefs.length).sum := by
  rw [h.reviews.eq] at hwf
  exact sizes_of_forall₂ h.reviews.reads hwf fun _ _ hR => hR.size

/-- **The least a snapshot can take.** -/
theorem AcceptsSnapshot.least (hfs : hasExactFields snap SNAPSHOT_FIELDS) (hwf : snap.WellFormed) :
    (boundRequirements pl).length ≤ 128 ∧ leastBytes pl br ≤ 20 + bytes snap ∧
      leastNodes pl ≤ 1 + snap.nodes := by
  have hmb : ∀ n ∈ SNAPSHOT_FIELDS, (member snap n).WellFormed := fun n => wellFormed_member hfs hwf
  obtain ⟨hby, hns⟩ := h.size hpl hfs hwf
  obtain ⟨bbytes, bnodes⟩ := h.branches_size (hmb _ (by decide))
  obtain ⟨cbytes, cnodes⟩ := h.criteria_size hpl (hmb _ (by decide))
  obtain ⟨kbytes, knodes⟩ := h.checks_size hpl (hmb _ (by decide))
  obtain ⟨rbytes, rnodes⟩ := h.reviewItems_size (hmb _ (by decide))
  obtain ⟨rleast, rleast'⟩ := h.reviews_size
  obtain ⟨eleast, eleast'⟩ := h.evidence_size hpl
  have vleast := h.verifiers_size hpl
  have hlen := (h.checks_perm hpl).length_eq
  have hcnt := h.checks.reads.length_eq
  have hmax := h.checks.length_le
  rw [length_map] at hlen
  refine ⟨by omega, ?_, ?_⟩
  · rw [leastBytes, sum_map_const_add (boundRequirements pl), hby, cbytes, kbytes, rbytes]
    omega
  · rw [leastNodes, hns, cnodes, knodes, rnodes]
    omega

end

end LowerBound

end Orquesta.Contract
