import Orquesta.Contract.SmallestSnapshot

/-!
# Which plans can be accepted

A plan is accepted by the evaluator together with a snapshot, and the two share
one input.  Nothing in the normaliser reserves room in it: a plan may have up to
1024 requirements where the evaluator reads 128 checks, and it may fill the
evaluator's whole byte budget by itself.

`RoomForSnapshot` says what is left over for the snapshot, in terms of the plan.
That it is enough is `exists_accepted`, where the smallest snapshot is put in;
that it is needed is `roomForSnapshot_of_accepted`, by the lower bound of
`SnapshotSize`.

## Main results

* `exists_accepted_iff`: the plans that some snapshot is accepted for
-/

namespace Orquesta.Contract

open CONTRACT_LIMITS List

/-- The input leaves room for a snapshot that reports on the plan `q`, normalised from `p`. -/
def RoomForSnapshot (p : Raw) (q : WorkOrderPlan) : Prop :=
  (boundRequirements q).length ≤ 128 ∧
    p.nodes + leastNodes q ≤ MAX_INPUT_NODES ∧
    ∀ ref ∈ acceptanceBranchRef q, bytes p + leastBytes q ref ≤ MAX_INPUT_BYTES

/-- The evaluator's input. -/
def acceptanceInput (plan snapshot : Raw) : Raw := .obj [("plan", plan), ("snapshot", snapshot)]

section Input

variable (p s : Raw)

theorem nodes_acceptanceInput : (acceptanceInput p s).nodes = 1 + (p.nodes + s.nodes) := by
  have hns : (acceptanceInput p s).nodes = 1 + (0 + p.nodes + (0 + s.nodes)) := by rfl
  omega

theorem bytes_acceptanceInput : bytes (acceptanceInput p s) = 20 + (bytes p + bytes s) := by
  have hby : bytes (acceptanceInput p s) = 2 + (7 + bytes p + (11 + bytes s)) := by rfl
  omega

/-- The input has the shape the preflight asks for if its two parts do. -/
theorem inputFits_acceptanceInput {p s : Raw} (hp : Shape fitsText p 15)
    (hs : Shape fitsText s 15) : InputFits (acceptanceInput p s) 0 := by
  have hin : Shape fitsText (acceptanceInput p s) 16 := .obj ⟨hp, hs⟩
  exact ⟨Nat.zero_le _, hin.fits, hin.arrays⟩

end Input

section Plan

variable {H : Sha256} {p : RawDocument} {q : WorkOrderPlan}
  (h : normalizeBusinessWorkOrderPlanV1 H p.1 = .ok q)
include h

/-- What is known of a plan that was normalised, in the evaluator's terms. -/
theorem planFacts_of_normalized {ref : Ref} (href : acceptanceBranchRef q = some ref) :
    PlanFacts q ref := by
  obtain ⟨-, ms, c, hpl, rfl⟩ := normalizeBusinessWorkOrderPlanV1_eq_ok.mp h
  exact hpl.content.planFacts H href

/-- A plan that the normaliser accepts sits one level further down in the evaluator's input than
when it is normalised; but it is as shallow as what it renders. -/
theorem shape_of_normalized : Shape fitsText p.1 15 := by
  obtain ⟨⟨-, hft, -⟩, ms, c, hpl, -⟩ := normalizeBusinessWorkOrderPlanV1_eq_ok.mp h
  have halike := hpl.alike p.2
  have hshp := Shape.obj (hpl.renders.imp fun _ hm => hm.shape)
  have hshallow : p.1.fits (fun _ => true) 7 :=
    (halike.flip (fun _ _ _ => trivial : ∀ s t, _ → True)).fits (fun _ _ _ _ => rfl) p.2 hshp.fits
  refine ⟨Json.fits_within hft hshallow (by decide), ?_⟩
  exact (halike.weigh_eq (fun _ _ _ => rfl) p.2 (wellFormed_rendering ..)).trans hshp.arrays

theorem roomForSnapshot_of_accepted {s : RawDocument}
    (hacc : (evaluateBusinessAcceptanceV1 H (acceptanceInput p.1 s.1)).accepted) :
    RoomForSnapshot p.1 q := by
  obtain ⟨hpre, -, plan, branchRef, S, hnormal, hpl, hfs, hsnap⟩ :=
    evaluateBusinessAcceptanceV1_accepted.mp hacc
  obtain ⟨hns, hby, -⟩ := (preflightInput_iff _).mp hpre
  obtain rfl : q = plan := Except.ok.inj (h.symm.trans hnormal)
  obtain ⟨hfew, hleastBytes, hleastNodes⟩ := hsnap.least hpl hfs s.2
  change bytes _ ≤ _ at hby
  rw [nodes_acceptanceInput] at hns
  rw [bytes_acceptanceInput] at hby
  change leastBytes q branchRef ≤ 20 + bytes s.1 at hleastBytes
  change leastNodes q ≤ 1 + s.1.nodes at hleastNodes
  refine ⟨hfew, by omega, fun ref href => ?_⟩
  obtain rfl : branchRef = ref := Option.some.inj (hpl.acceptanceBranch.symm.trans href)
  omega

theorem exists_accepted (hroom : RoomForSnapshot p.1 q) :
    ∃ s : RawDocument, (evaluateBusinessAcceptanceV1 H (acceptanceInput p.1 s.1)).accepted := by
  obtain ⟨hfew, hns, hby⟩ := hroom
  obtain ⟨ref, href⟩ : ∃ ref, acceptanceBranchRef q = some ref := by
    obtain ⟨-, ms, c, hrd, rfl⟩ := normalizeBusinessWorkOrderPlanV1_eq_ok.mp h
    obtain ⟨ref, href, -⟩ := hrd.content.acceptanceBranch H
    exact ⟨ref, href⟩
  have hpl : FewChecks q ref := ⟨planFacts_of_normalized h href, hfew⟩
  have hwf := wellFormed_smallestSnapshot q ref
  have hfs : hasExactFields (smallestSnapshot q ref) SNAPSHOT_FIELDS := hasExactFields_of_names rfl
  have hsnap := acceptsSnapshot_smallest hpl
  have hshp := smallestSnapshot_shape hpl
  obtain ⟨hsz, hcnt⟩ := smallestSnapshot_size hpl
  have hby := hby ref href
  have hinputNodes : (acceptanceInput p.1 (smallestSnapshot q ref)).nodes ≤ MAX_INPUT_NODES := by
    rw [nodes_acceptanceInput]
    omega
  have hinputBytes : bytes (acceptanceInput p.1 (smallestSnapshot q ref)) ≤ MAX_INPUT_BYTES := by
    rw [bytes_acceptanceInput]
    omega
  have hpre : preflightInput (acceptanceInput p.1 (smallestSnapshot q ref)) :=
    (preflightInput_iff _).mpr ⟨hinputNodes, hinputBytes,
      inputFits_acceptanceInput (shape_of_normalized h) hshp⟩
  exact ⟨⟨_, hwf⟩, evaluateBusinessAcceptanceV1_accepted.mpr
    ⟨hpre, hasExactFields_of_names rfl, q, ref, _, h, hpl.1, hfs, hsnap⟩⟩

end Plan

/-- **Acceptability.**  Some snapshot is accepted together with a normalised plan exactly when
the plan leaves room for one. -/
theorem exists_accepted_iff (H : Sha256) (p : RawDocument) (q : WorkOrderPlan)
    (h : normalizeBusinessWorkOrderPlanV1 H p.1 = .ok q) :
    (∃ s : RawDocument, (evaluateBusinessAcceptanceV1 H (acceptanceInput p.1 s.1)).accepted) ↔
      RoomForSnapshot p.1 q :=
  ⟨fun ⟨_, haccepted⟩ => roomForSnapshot_of_accepted h haccepted, exists_accepted h⟩

theorem normalize_runPlan {k d : Nat} (hk : 0 < k) (hk' : k ≤ 64) (hd : 0 < d) (hd' : d ≤ 8192)
    (hsz : 1430 + runCriteriaSize k d ≤ maxPlanBytes) :
    normalizeBusinessWorkOrderPlanV1 fixedDigest (runPlan k d).document.1 =
      .ok ((runPlan k d).snapshot fixedDigest) := by
  refine (readsContent_run hk hk' hd hd').normalize_eq fixedDigest ?_ ?_
  · rw [nodes_runPlan, maxInputNodes]
    omega
  · rwa [textSize_runPlan]

/-- A plan with one criterion can be accepted. -/
theorem runPlan_acceptable : normalizeBusinessWorkOrderPlanV1 fixedDigest (runPlan 1 1).document.1 =
        .ok ((runPlan 1 1).snapshot fixedDigest) ∧
      ∃ s : RawDocument, (evaluateBusinessAcceptanceV1 fixedDigest
        (acceptanceInput (runPlan 1 1).document.1 s.1)).accepted := by
  have hok := normalize_runPlan (k := 1) (d := 1) (by decide) (by decide) (by decide) (by decide)
    (by decide)
  refine ⟨hok, (exists_accepted_iff fixedDigest _ _ hok).mpr ⟨?_, ?_, ?_⟩⟩
  · decide
  · decide
  · decide

/-- What a snapshot reports on the criteria and the requirements, at least. -/
theorem le_leastBytes (plan : WorkOrderPlan) (ref : Ref) :
    54 * plan.content.acceptancePolicy.criteria.length + 200 * (boundRequirements plan).length ≤
      leastBytes plan ref := by
  have hcri : ((criterionIds plan).map fun _ => 54).sum ≤
      ((criterionIds plan).map fun id => 54 + id.utf8ByteSize).sum :=
    sum_le_sum fun id _ => by omega
  have hreqs : ((boundRequirements plan).map fun _ => 200).sum ≤
      ((boundRequirements plan).map fun b => 4 + requirementBytes ref b.1 b.2).sum :=
    sum_le_sum fun b _ => by rw [requirementBytes]; omega
  rw [map_const', sum_replicate_nat] at hcri hreqs
  have hlen : (criterionIds plan).length = plan.content.acceptancePolicy.criteria.length :=
    length_map _
  rw [leastBytes]
  omega

/-- The criteria of a plan of the family. -/
theorem le_bytes_runPlan (k d : Nat) : k * (76 + d) ≤ bytes (runPlan k d).toJson := by
  have hstr (n : Nat) : inputWeights.str (run n) = n + 2 := congrArg (· + 2) (plainText_run n).size
  have hsh : 76 ≤ (runCriterion 0 0).toJson.weigh inputWeights := by decide
  have heach : ((range k).map fun _ => 76 + d).sum ≤
      ((range k).map fun i => (runCriterion d (i + 7)).toJson.weigh inputWeights).sum :=
    sum_le_sum fun i _ => by
      have hsz := weigh_runCriterion inputWeights d (i + 7)
      rw [hstr, hstr, hstr] at hsz
      omega
  have hsz := weigh_runPlan inputWeights k d
  have hbrackets : inputWeights.arr k = inputWeights.arr 0 := rfl
  rw [map_const', sum_replicate_nat, length_range] at heach
  change bytes _ + _ = _ at hsz
  omega

/-- A plan that fills the evaluator's input by itself is accepted by the normaliser. -/
theorem runPlan_not_acceptable :
    normalizeBusinessWorkOrderPlanV1 fixedDigest (runPlan 32 7876).document.1 =
        .ok ((runPlan 32 7876).snapshot fixedDigest) ∧
      ¬ ∃ s : RawDocument, (evaluateBusinessAcceptanceV1 fixedDigest
        (acceptanceInput (runPlan 32 7876).document.1 s.1)).accepted := by
  have hok := normalize_runPlan (k := 32) (d := 7876) (by decide) (by decide) (by decide)
    (by decide) (by decide)
  refine ⟨hok, fun ⟨s, hs⟩ => ?_⟩
  obtain ⟨-, -, hbytes⟩ := roomForSnapshot_of_accepted hok hs
  have hbytes := hbytes (run 1) rfl
  have hplan : 32 * (76 + 7876) ≤ bytes (runPlan 32 7876).document.1 := le_bytes_runPlan 32 7876
  have hleast := le_leastBytes ((runPlan 32 7876).snapshot fixedDigest) (run 1)
  have hcriteria :
      ((runPlan 32 7876).snapshot fixedDigest).content.acceptancePolicy.criteria.length = 32 := rfl
  have hrequirements : (boundRequirements ((runPlan 32 7876).snapshot fixedDigest)).length = 32 :=
    rfl
  rw [hcriteria, hrequirements] at hleast
  rw [MAX_INPUT_BYTES] at hbytes
  omega

end Orquesta.Contract
