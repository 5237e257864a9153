import Orquesta.OrganizationStore.Changes

/-!
# What an inspection finds

An inspection by a process that is alone with the files.  It reports `ready` if and only
if the files hold a sound version and no record of an unfinished change, and the record of
the last change, if there is one, is valid and fits the version.

## Main results

* `inspect_ready_iff`: when the store is ready
* `inspect_missing_iff`: when it is missing
-/

namespace Orquesta.OrganizationStore

open Script Checked Option

variable {B C : Type} {K : Kernel B C} {w : World}

/-! ## Inspections only read -/

theorem readOnly_present {α : Type} (o : Option α) (e : Failure) : (present o e).ReadOnly := by
  cases o <;> trivial

theorem readOnly_readController : (readController K).ReadOnly := by
  refine (readOnly_reads _).bind fun existing => ?_
  cases existing
  · exact readOnly_pure _
  · exact (readOnly_reads _).bind fun _ => (readOnly_present _ _).bind fun _ =>
      (readOnly_attempt _).bind fun _ => readOnly_pure _

theorem readOnly_inspectHead (tr : Option Transition) : (inspectHead K tr).ReadOnly := by
  refine (readOnly_readTarget _).bind fun _ => (readOnly_attempt _).bind fun version3 => ?_
  cases version3
  · exact readOnly_pure _
  · refine readOnly_readBundle.bind fun _ => readOnly_readController.bind fun _ =>
      (readOnly_attempt _).bind fun _ => (readOnly_present _ _).bind fun _ => ?_
    split <;> exact readOnly_pure _

theorem readOnly_readTransition : readTransition.ReadOnly := by
  refine (readOnly_reads _).bind fun existing => ?_
  cases existing
  · exact readOnly_pure _
  · exact (readOnly_reads _).bind fun _ => (readOnly_present _ _).bind fun _ => readOnly_pure _

theorem readOnly_inspectOrganizationV3 : (inspectOrganizationV3 K).ReadOnly := by
  refine (readOnly_reads _).bind fun _ => (readOnly_reads _).bind fun _ =>
    (readOnly_reads _).bind fun _ => (readOnly_reads _).bind fun _ =>
      readOnly_readTransition.bind fun _ => (readOnly_reads _).bind fun legacy => ?_
  cases legacy
  · simp only [Bool.false_eq_true, if_false]
    split
    · exact readOnly_pure _
    · split_ifs
      · exact (readOnly_reads _).bind fun _ => readOnly_pure _
      · exact readOnly_inspectHead _
      · exact readOnly_pure _
  · exact readOnly_pure _

/-! ## What is read -/

theorem run_readTransition : readTransition.run w = (w, .ok w.files.transition) := by
  rw [readTransition, run_bind, run_reads, andThen_ok]
  cases htra : w.files.transition with
  | none => rfl
  | some t =>
    rw [isSome_some, if_pos rfl, run_bind, run_reads, andThen_ok, htra]
    rfl

variable {c : Controller}

theorem run_readController (h : w.files.controller = some c) :
    (readController K).run w = (w, validateController K c >>= fun _ => .ok (some c)) := by
  rw [readController, run_bind, run_reads, andThen_ok, h, isSome_some, if_pos rfl, run_bind,
    run_reads, andThen_ok, h]
  simp only [present, run_bind, run_pure, andThen_ok, run_attempt]
  cases validateController K c <;> rfl

variable (K) in
/-- The head of an organization with these texts and this controller. -/
def headOf (ct : Target → Bytes) (controller : Controller)
    (tr : Option Transition) : Except Failure (Inspection B) := do
  let version3 ← K.isVersion3 (ct .organization)
  if version3 then
    let bundle ← K.parse (ct .agents) (ct .organization) (ct .formations) >>=
      K.createBundle
    validateController K controller
    let headHash ← organizationV3HeadHash K bundle
    if controller.organizationRevision = K.revision bundle ∧ controller.headHash = headHash then
      return inspectTransition K bundle controller headHash tr
    else return .unsupported "organization_v3_controller_head_mismatch"
  else return .migrationRequired "organization_v3_migration_required"

variable {ct : Target → Bytes}

theorem run_inspectHead (htg : ∀ t, w.files.target t = some (ct t))
    (hc : w.files.controller = some c)
    (tr : Option Transition) :
    (inspectHead K tr).run w = (w, headOf K ct c tr) := by
  have hbun : (readBundle K).run w = (w, K.parse (ct .agents) (ct .organization)
      (ct .formations) >>= K.createBundle) := by
    rw [readBundle, run_bind, run_readTarget (htg _), andThen_ok, run_bind,
      run_readTarget (htg _), andThen_ok, run_bind, run_readTarget (htg _), andThen_ok,
      run_attempt]
  rw [inspectHead, run_bind, run_readTarget (htg _), andThen_ok, run_bind, run_attempt, headOf]
  cases K.isVersion3 (ct .organization) with
  | error e => rfl
  | ok version3 =>
    cases version3
    · rfl
    · rw [andThen_ok, if_pos rfl, run_bind, hbun]
      cases K.parse (ct .agents) (ct .organization) (ct .formations) >>= K.createBundle with
      | error e => rfl
      | ok bundle =>
        rw [andThen_ok, run_bind, run_readController hc]
        cases validateController K c with
        | error e => rfl
        | ok u =>
          change andThen (w, .ok (some c)) _ = (w, organizationV3HeadHash K bundle >>= _)
          rw [andThen_ok, run_bind, run_attempt]
          cases organizationV3HeadHash K bundle with
          | error e => rfl
          | ok headHash =>
            rw [andThen_ok, run_bind, present, run_pure, andThen_ok]
            change _ = (w, if c.organizationRevision = K.revision bundle ∧
              c.headHash = headHash then _ else _)
            split_ifs <;> rfl

/-! ## What is found -/

/-- At rest: no record of an unfinished change. -/
def AtRest (files : Files) : Prop := ∀ t ∈ files.transition, t.status = .committed

theorem AtRest.filter_eq_none (h : AtRest w.files) :
    (w.files.transition.filter fun t => t.status ≠ .committed) = none := by
  rw [filter_eq_none_iff]
  intro t ht
  simpa using h t ht

section

variable (hleg : w.files.legacyMarkers = false) (hrs : AtRest w.files)
include hleg hrs

theorem run_inspect_of_empty (hhl : Holds (none : Option (Version B)) w.files) :
    (inspectOrganizationV3 K).run w = (w, .ok (if w.files.foreignRuntimeBinding then
      .unsupported "runtime_binding_requires_validated_receipt" else .missing)) := by
  simp only [inspectOrganizationV3, targetExists, run_bind, run_reads, run_readTransition,
    andThen_ok, hleg, hrs.filter_eq_none, hhl.target, hhl.controller]
  simp

theorem run_inspect_of_full (htg : ∀ t, w.files.target t = some (ct t))
    (hc : w.files.controller = some c) :
    (inspectOrganizationV3 K).run w = (w, headOf K ct c w.files.transition) := by
  simp only [inspectOrganizationV3, targetExists, run_bind, run_reads, run_readTransition,
    andThen_ok, hleg, hrs.filter_eq_none, htg, hc]
  simp [run_inspectHead htg hc]

/-- Any other state is reported as neither ready nor missing. -/
theorem run_inspect_of_partly (hem : ¬ Holds (none : Option (Version B)) w.files)
    (hfull : ¬ ((∀ t, (w.files.target t).isSome) ∧ w.files.controller.isSome)) :
    (inspectOrganizationV3 K).run w =
    (w, .ok (.migrationRequired "organization_v3_authority_partial")) := by
  simp only [inspectOrganizationV3, targetExists, run_bind, run_reads, run_readTransition,
    andThen_ok, hleg, hrs.filter_eq_none, Bool.false_eq_true, if_false]
  rw [if_neg, if_neg, run_pure]
  · rintro ⟨hags, horg, hfms, hctl⟩
    refine hfull ⟨fun t => ?_, hctl⟩
    cases t <;> assumption
  · rintro ⟨hags, horg, hfms, hctl⟩
    rw [not_isSome_iff_eq_none] at hags horg hfms hctl
    refine hem ⟨fun t => ?_, hctl⟩
    cases t <;> assumption

end

/-- Whatever is not reported as a migration or a recovery is found at rest. -/
theorem atRest_of_inspect {res : Except Failure (Inspection B)}
    (h : ((inspectOrganizationV3 K).run w).2 = res)
    (hmigration : ∀ reason, res ≠ .ok (.migrationRequired reason))
    (hrecovery : ∀ t, res ≠ .ok (.recoveryRequired t)) :
    w.files.legacyMarkers = false ∧ AtRest w.files := by
  have hleg : w.files.legacyMarkers = false := by
    by_contra hleg
    simp only [inspectOrganizationV3, targetExists, run_bind, run_reads, run_readTransition,
      andThen_ok, Bool.eq_true_of_not_eq_false hleg] at h
    exact hmigration _ h.symm
  refine ⟨hleg, fun t ht => ?_⟩
  by_contra hsts
  rw [Option.mem_def] at ht
  simp only [inspectOrganizationV3, targetExists, run_bind, run_reads, run_readTransition,
    andThen_ok, hleg, ht] at h
  refine hrecovery t (h.symm.trans ?_)
  simp [Option.filter, hsts]

/-- The files are all there, or none is, or some are. -/
theorem full_or_empty_or_partial (files : Files) :
    (∃ (ct : Target → Bytes) (c : Controller), (∀ t, files.target t = some (ct t)) ∧
        files.controller = some c) ∨
      Holds (none : Option (Version B)) files ∨
      ¬ Holds (none : Option (Version B)) files ∧
        ¬ ((∀ t, (files.target t).isSome) ∧ files.controller.isSome) := by
  by_cases hfull : (∀ t, (files.target t).isSome) ∧ files.controller.isSome
  · obtain ⟨hsm, hcsome⟩ := hfull
    exact .inl ⟨fun t => (files.target t).get (hsm t), files.controller.get hcsome,
      fun t => (some_get _).symm, (some_get _).symm⟩
  · by_cases hem : Holds (none : Option (Version B)) files
    · exact .inr (.inl hem)
    · exact .inr (.inr ⟨hem, hfull⟩)

/-! ## Ready -/

/-- The record of the last change fits the version. -/
structure Fits (K : Kernel B C) (v : Version B) (t : Transition) : Prop where
  valid : validateTransition K t = .ok ()
  status : t.status = .committed
  afterHeadHash : t.afterHeadHash = K.canonicalHash v.bundle
  organizationRevision : t.organizationRevision = K.revision v.bundle
  controllerAfter : t.controllerAfter = v.controller

/-- The files hold a version, and nothing speaks against it. -/
structure Ready (K : Kernel B C) (w : World) (v : Version B) (transition : Option Transition) :
    Prop where
  legacyMarkers : w.files.legacyMarkers = false
  holds : Holds (some v) w.files
  sound : v.Sound K
  controllerValid : validateController K v.controller = .ok ()
  record : w.files.transition = transition
  fits : ∀ t ∈ transition, Fits K v t

variable {b : B} {h : String} {tr : Option Transition}

theorem inspectTransition_eq_ready {b' : B} {c' : Controller} {h' : String}
    {tr' : Option Transition} :
    inspectTransition K b c h tr = .ready b' c' h' tr' ↔ b' = b ∧ c' = c ∧ h' = h ∧ tr' = tr ∧
        ∀ t ∈ tr, validateTransition K t = .ok () ∧ t.status = .committed ∧
          t.afterHeadHash = h ∧ t.organizationRevision = K.revision b ∧ t.controllerAfter = c := by
  cases tr with
  | none =>
    simp only [inspectTransition, Inspection.ready.injEq, not_mem_none, false_implies,
      implies_true, and_true]
    constructor
    · rintro ⟨rfl, rfl, rfl, rfl⟩
      exact ⟨rfl, rfl, rfl, rfl⟩
    · rintro ⟨rfl, rfl, rfl, rfl⟩
      exact ⟨rfl, rfl, rfl, rfl⟩
  | some t =>
    simp only [inspectTransition, mem_some_iff, forall_eq']
    cases validateTransition K t with
    | error e => simp
    | ok u =>
      by_cases hft : t.status = .committed ∧ t.afterHeadHash = h ∧
          t.organizationRevision = K.revision b ∧ t.controllerAfter = c
      · rw [if_pos hft]
        constructor
        · rintro ⟨⟩
          exact ⟨rfl, rfl, rfl, rfl, rfl, hft⟩
        · rintro ⟨rfl, rfl, rfl, rfl, -⟩
          rfl
      · simp [hft]

/-- When the head is ready. -/
theorem headOf_eq_ready (hK : K.Lawful) {c' : Controller} {tr' : Option Transition} :
    headOf K ct c tr = .ok (.ready b c' h tr') ↔ c' = c ∧ h = K.canonicalHash b ∧ tr' = tr ∧
        Version.Sound K ⟨ct, b, c⟩ ∧ validateController K c = .ok () ∧
        ∀ t ∈ tr, Fits K ⟨ct, b, c⟩ t := by
  constructor
  · intro hrdy
    simp only [headOf, chain_eq_ok, ite_eq_ok, reduceCtorEq, and_false, or_false,
      inspectTransition_eq_ready] at hrdy
    obtain ⟨version3, hversion3, rfl, bundle, hpss, hval, head, hhe, ⟨hrev, hh⟩, rfl,
      rfl, rfl, rfl, hft⟩ := hrdy
    have hcre : K.createBundle b = .ok b := by
      obtain ⟨parsed, -, hcre⟩ := hpss
      exact hK.create_idem hcre
    obtain rfl : K.canonicalHash b = h :=
      Except.ok.inj ((organizationV3HeadHash_of_create hcre).symm.trans hhe)
    obtain ⟨-, -, hnd, hids, hls, -⟩ := ensure_eq_ok.mp hval
    refine ⟨rfl, rfl, rfl, ⟨bind_eq_ok.mpr hpss, hversion3, hrev, hh, hnd, hids, hls⟩, hval,
      fun t ht => ?_⟩
    obtain ⟨hval, hsts, hhe, hrev, hctl⟩ := hft t ht
    exact ⟨hval, hsts, hhe, hrev, hctl⟩
  · rintro ⟨rfl, rfl, rfl, hso, hval, hft⟩
    simp only [headOf, chain_eq_ok, ite_eq_ok, reduceCtorEq, and_false, or_false,
      inspectTransition_eq_ready]
    exact ⟨true, hso.version3, rfl, b, bind_eq_ok.mp hso.parses, hval, K.canonicalHash b,
      organizationV3HeadHash_of_create (hso.create hK), ⟨hso.revision, hso.headHash⟩, rfl,
      trivial, rfl, trivial,
        fun t ht => ⟨(hft t ht).valid, (hft t ht).status, (hft t ht).afterHeadHash,
        (hft t ht).organizationRevision, (hft t ht).controllerAfter⟩⟩

theorem Ready.atRest {v : Version B} (h : Ready K w v tr) :
    AtRest w.files := by
  intro t ht
  rw [h.record] at ht
  exact (h.fits t ht).status

/-- The inspection of a process that is alone reports `ready` if and only if the store is. -/
theorem inspect_ready_iff (hK : K.Lawful) :
    ((inspectOrganizationV3 K).run w).2 = .ok (.ready b c h tr) ↔
      ∃ v, Ready K w v tr ∧ b = v.bundle ∧ c = v.controller ∧ h = K.canonicalHash v.bundle := by
  constructor
  · intro hrdy
    obtain ⟨hleg, hrs⟩ := atRest_of_inspect hrdy nofun nofun
    rcases full_or_empty_or_partial (B := B) w.files with
      ⟨ct, stored, htg, hsd⟩ | hem | ⟨hem, hfull⟩
    · rw [run_inspect_of_full hleg hrs htg hsd] at hrdy
      obtain ⟨rfl, rfl, rfl, hso, hval, hft⟩ := (headOf_eq_ready hK).mp hrdy
      exact ⟨⟨ct, _, _⟩, ⟨hleg, ⟨htg, hsd⟩, hso, hval, rfl, hft⟩, rfl, rfl,
        rfl⟩
    · rw [run_inspect_of_empty hleg hrs hem] at hrdy
      split_ifs at hrdy <;> cases hrdy
    · rw [run_inspect_of_partly hleg hrs hem hfull] at hrdy
      cases hrdy
  · rintro ⟨v, hrdy, rfl, rfl, rfl⟩
    rw [run_inspect_of_full hrdy.legacyMarkers hrdy.atRest hrdy.holds.target
      hrdy.holds.controller, hrdy.record]
    exact (headOf_eq_ready hK).mpr ⟨rfl, rfl, rfl, hrdy.sound, hrdy.controllerValid, hrdy.fits⟩

/-! ## Missing -/

/-- There is nothing, and nothing that stands in the way of a first version. -/
structure Missing (w : World) : Prop where
  legacyMarkers : w.files.legacyMarkers = false
  atRest : AtRest w.files
  target : ∀ t, w.files.target t = none
  controller : w.files.controller = none
  foreignRuntimeBinding : w.files.foreignRuntimeBinding = false

theorem headOf_ne_missing : headOf K ct c tr ≠ .ok .missing := by
  have hne (b : B) (h : String) : inspectTransition K b c h tr ≠ .missing := by
    unfold inspectTransition
    split <;> [skip; split <;> [skip; split_ifs]] <;> exact nofun
  simp [headOf, ite_eq_ok, hne]

theorem inspect_missing_iff : ((inspectOrganizationV3 K).run w).2 = .ok .missing ↔ Missing w := by
  constructor
  · intro hmis
    obtain ⟨hleg, hrs⟩ := atRest_of_inspect hmis nofun nofun
    rcases full_or_empty_or_partial (B := B) w.files with
      ⟨ct, stored, htg, hsd⟩ | hem | ⟨hem, hfull⟩
    · rw [run_inspect_of_full hleg hrs htg hsd] at hmis
      exact absurd hmis headOf_ne_missing
    · rw [run_inspect_of_empty hleg hrs hem] at hmis
      refine ⟨hleg, hrs, hem.target, hem.controller, ?_⟩
      by_contra hforeign
      simp [Bool.eq_true_of_not_eq_false hforeign] at hmis
    · rw [run_inspect_of_partly hleg hrs hem hfull] at hmis
      cases hmis
  · intro h
    rw [run_inspect_of_empty (B := B) h.legacyMarkers h.atRest ⟨h.target, h.controller⟩,
      h.foreignRuntimeBinding]
    rfl

end Orquesta.OrganizationStore
