import Orquesta.OrganizationStore.Inspection

/-!
# Committing a command, and writing the first version

What `commit` does in a store that is ready: nothing for a command that is applied already
or changes nothing, and otherwise the change from the version that was found to the next
one.  What `initialize` does in a store that is missing: the change from nothing to the
first version.  Of these changes it is said through which phases they pass.

## Main definitions

* `committedVersion`: the version a command leads to
* `firstVersion`: the version an initialization leads to

## Main results

* `through_commit`, `through_commit_ready`: the run of a commit
* `through_initializeStore`: the run of an initialization
-/

namespace Orquesta.OrganizationStore

open Script Checked List

variable {B C : Type} {K : Kernel B C} {w w₀ : World} {v : Version B} {cmd : C}
  {tr : Option Transition}

/-! ## The version a command leads to -/

variable {b : B} {h id : String}

/-- What a command that applies leads to. -/
theorem applied_spec (hK : K.Lawful) {b' : B} {ids : List String} (hb : K.createBundle b = .ok b)
    (hap : applyOrganizationControllerCommand K b cmd ids = .ok ⟨.applied, b', h⟩) :
    K.createBundle b' = .ok b' ∧ K.revision b' = K.revision b + 1 ∧ h = K.canonicalHash b' ∧
      K.commandId cmd ∉ ids ∧ isCommandId (K.commandId cmd) := by
  simp only [applyOrganizationControllerCommand, hb, chain_eq_ok, Except.ok.injEq, exists_eq_left',
    ite_eq_ok, Applied.mk.injEq, reduceCtorEq, false_and, and_false, exists_false, false_or] at hap
  obtain ⟨-, hid, -, hfr, -, -, -, -, -, next, -, -, -, -, validated, hcre, head, hhe, -,
    rfl, rfl⟩ := hap
  have hfixed := hK.create_idem hcre
  refine ⟨hfixed, ?_, ?_, hfr, hid ▸ hK.commandIdFor_format cmd⟩
  · rw [hK.create_revision hcre, hK.revision_withRevision]
  · exact Except.ok.inj (hhe.symm.trans (organizationV3HeadHash_of_create hfixed))

variable (K) in
/-- The version the command leads to, with the bundle it yields. -/
def successor (v : Version B) (cmd : C) (bundle : B) (updatedAt : String) : Version B :=
  { content := fun t => K.bytes t bundle
    bundle := bundle
    controller :=
      { organizationRevision := K.revision bundle
        headHash := K.canonicalHash bundle
        appliedCommandIds := v.controller.appliedCommandIds ++ [K.commandId cmd]
        lastCommandId := K.commandId cmd
        updatedAt := updatedAt } }

/-- A bundle that was created reads back as itself. -/
theorem parses_bytes (hK : K.Lawful) (hb : K.createBundle b = .ok b) :
    (K.parse (K.bytes .agents b) (K.bytes .organization b) (K.bytes .formations b) >>=
      K.createBundle) = .ok b :=
  bind_eq_ok.mpr ⟨b, hK.parse_bytes hb, hb⟩

theorem successor_succeeds (hK : K.Lawful) (hv : v.Sound K)
    (hap : applyOrganizationControllerCommand K v.bundle cmd
      v.controller.appliedCommandIds = .ok ⟨.applied, b, h⟩) (updatedAt : String) :
    (successor K v cmd b updatedAt).Succeeds K (some v) := by
  obtain ⟨hb, hrev, -, hfr, hid⟩ := applied_spec hK (hv.create hK) hap
  refine ⟨⟨parses_bytes hK hb, hK.version_bytes hb, rfl, rfl, ?_, ?_, ?_⟩, ?_, ?_⟩
  · exact nodup_append.mpr ⟨hv.nodup, nodup_singleton _, fun a ha b hb =>
      fun heq => hfr (mem_singleton.mp hb ▸ heq ▸ ha)⟩
  · intro id hmem
    rcases mem_append.mp hmem with hold | hls
    · exact hv.commandIds id hold
    · rw [mem_singleton.mp hls]
      exact hid
  · exact mem_append_right _ (mem_singleton.mpr rfl)
  · rintro v' ⟨⟩
    exact hv
  · rintro v' ⟨⟩
    exact hrev

/-! ## The run of a commit -/

theorem Ready.settled (h : Ready K w v tr) : Along K id w (.settled (some v) tr) w :=
  ⟨.refl id w, h.holds, h.record, fun t ht => (h.fits t ht).status⟩

theorem Ready.inspect (hK : K.Lawful) (h : Ready K w v tr) : ((inspectOrganizationV3 K).run w).2 =
      .ok (.ready v.bundle v.controller (K.canonicalHash v.bundle) tr) :=
  (inspect_ready_iff hK).mpr ⟨v, h, rfl, rfl, rfl⟩

variable (K) in
/-- The version a commit that starts in `w` leads to. -/
def committedVersion (w : World) (v : Version B) (cmd : C) (bundle : B) : Version B :=
  successor K v cmd bundle (w.clock w.ticks)

variable {A : Option (Version B) → Version B → Prop}

/-- A command that applies is committed if its change can be written. -/
theorem through_commit (hK : K.Lawful)
    (hrdy : Ready K w v tr) (hap : applyOrganizationControllerCommand K v.bundle cmd
      v.controller.appliedCommandIds = .ok ⟨.applied, b, h⟩)
    (hA : A (some v) (committedVersion K w v cmd b)) :
    (commit K cmd).Through (Phase.Reaches A) (Along K (K.commandId cmd) w)
      (.settled (some v) tr) w fun ph w' r =>
        CanChange K (some v) (committedVersion K w v cmd b) w.tick ∧
            ph = .finished (some v) (committedVersion K w v cmd b) ∧
            w'.ticks = w.ticks + 4 ∧
            w'.files.transition = some ((preparedRecord K (some v)
              (committedVersion K w v cmd b) w.tick).commit (w.clock (w.ticks + 3))) ∧
            (∃ res, r = .ok (.committed res)) ∨
          ¬ CanChange K (some v) (committedVersion K w v cmd b) w.tick ∧ ∃ e, r = .error e := by
  have hsuc := successor_succeeds hK hrdy.sound hap (w.clock w.ticks)
  obtain ⟨-, -, rfl, -, -⟩ := applied_spec hK (hrdy.sound.create hK) hap
  have hset : Along K (K.commandId cmd) w (.settled (some v) tr) w := hrdy.settled
  refine readOnly_inspectOrganizationV3.through_bind (hrdy.inspect hK) ?_
  refine through_attempt_bind hap (through_now_bind hset ?_)
  refine (through_writeChange hK hA hsuc (fun _ => rfl) hset.tick).bind ?_
  rintro ph w' r hw' (⟨hcan, rfl, htcs, hrec, res, rfl⟩ | ⟨hcannot, e, rfl⟩)
  · exact ⟨hw', .inl ⟨hcan, rfl, htcs, hrec, res, rfl⟩⟩
  · exact .inr ⟨hcannot, e, rfl⟩

/-- Any other command leaves the files as they are. -/
theorem through_commit_ready (hK : K.Lawful) (hrdy : Ready K w v tr)
    (hA : ∀ b h, applyOrganizationControllerCommand K v.bundle cmd
      v.controller.appliedCommandIds = .ok ⟨.applied, b, h⟩ →
      A (some v) (committedVersion K w v cmd b)) :
    (commit K cmd).Through (Phase.Reaches A) (Along K (K.commandId cmd) w)
      (.settled (some v) tr) w fun ph _ r =>
        ∀ res, r = .ok (.committed res) → ∃ b h,
          applyOrganizationControllerCommand K v.bundle cmd v.controller.appliedCommandIds =
              .ok ⟨.applied, b, h⟩ ∧
            ph = .finished (some v) (committedVersion K w v cmd b) := by
  have hset : Along K (K.commandId cmd) w (.settled (some v) tr) w := hrdy.settled
  cases hap : applyOrganizationControllerCommand K v.bundle cmd v.controller.appliedCommandIds with
  | error e =>
    refine readOnly_inspectOrganizationV3.through_bind (hrdy.inspect hK) ?_
    exact through_attempt_bind_error hap hset nofun
  | ok applied =>
    obtain ⟨st, b, h⟩ := applied
    cases st with
    | applied =>
      refine (through_commit hK hrdy hap (hA b h hap)).imp ?_
      rintro ph w' r - (⟨-, rfl, -⟩ | ⟨-, e, rfl⟩)
      · exact fun _ _ => ⟨b, h, rfl, rfl⟩
      · exact nofun
    | alreadyApplied =>
      refine readOnly_inspectOrganizationV3.through_bind (hrdy.inspect hK) ?_
      exact through_attempt_bind hap (through_now_bind hset (through_pure hset.tick nofun))
    | noChange =>
      refine readOnly_inspectOrganizationV3.through_bind (hrdy.inspect hK) ?_
      exact through_attempt_bind hap (through_now_bind hset (through_pure hset.tick nofun))

/-! ## The first version -/

variable (K) in
def firstVersion (bundle : B) (commandId updatedAt : String) : Version B where
  content := fun t => K.bytes t bundle
  bundle := bundle
  controller :=
    { organizationRevision := K.revision bundle
      headHash := K.canonicalHash bundle
      appliedCommandIds := [commandId]
      lastCommandId := commandId
      updatedAt := updatedAt }

theorem firstVersion_succeeds (hK : K.Lawful) (hb : K.createBundle b = .ok b) (hid : isCommandId id)
    (updatedAt : String) :
    (firstVersion K b id updatedAt).Succeeds K none := by
  refine ⟨⟨parses_bytes hK hb, hK.version_bytes hb, rfl, rfl, nodup_singleton _, ?_,
    mem_singleton.mpr rfl⟩, nofun, nofun⟩
  intro id' hmem
  rw [mem_singleton.mp hmem]
  exact hid

theorem Missing.settled (h : Missing w) : Along K id w (.settled none w.files.transition) w :=
  ⟨.refl id w, ⟨h.target, h.controller⟩, rfl, h.atRest⟩

/-- An initialization begins at most the change to its first version. -/
theorem through_initializeStore (hK : K.Lawful)
    (hmis : Missing w) {raw : B} (hA : ∀ b, K.createBundle raw = .ok b → isCommandId id →
      A none (firstVersion K b id (w.clock w.ticks))) :
    (initializeStore K raw id).Through (Phase.Reaches A) (Along K id w)
      (.settled none w.files.transition) w fun _ _ _ => True := by
  have hset : Along K id w (.settled none w.files.transition) w := hmis.settled
  refine readOnly_inspectOrganizationV3.through_bind (inspect_missing_iff.mpr hmis) ?_
  refine through_bind.mpr ?_
  cases hcre : K.createBundle raw with
  | error e => exact through_attempt_bind_error hcre hset trivial
  | ok b =>
    have hb := hK.create_idem hcre
    refine through_attempt_bind hcre (through_attempt_bind
      (organizationV3HeadHash_of_create hb) (through_now_bind hset ?_))
    by_cases hid : isCommandId id
    · refine (through_writeChange hK (hA b hcre hid) (firstVersion_succeeds hK hb hid _)
        (fun _ => rfl) hset.tick).imp ?_
      rintro ph w' r hw' (⟨-, -, -, -, res, rfl⟩ | ⟨-, e, rfl⟩)
      · exact ⟨hw', trivial⟩
      · trivial
    · -- A command id that is not valid is refused before anything is written.
      have hrfd : ∃ e, validateCommandId id = .error e := ⟨_, if_neg hid⟩
      obtain ⟨e, he⟩ := hrfd
      exact through_bind.mpr (through_attempt_bind_error he hset.tick trivial)

end Orquesta.OrganizationStore
