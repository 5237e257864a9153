import Orquesta.OrganizationStore.Scripts

/-!
# The phases of a change

The files of the store hold one version of the organization, or none.  A change leads
from one version to the next through three phases: it is being prepared, it is prepared,
it is finished.  What the files hold in each phase is said here, and that the transition
records written along the way are valid.

The phases are the abstract state of the store.  They say which files hold the old version
and which the new one, and leave open how far the staged files of a change that is being
prepared have come: those are what a crash may leave behind in any condition.

## Main definitions

* `Version`, `Holds`, `Version.Succeeds`
* `proposal`: the record of a change
* `Phase`, `InPhase`

## Main results

* `Records.validateTransition_iff`: when the record of a change is valid
-/

namespace Orquesta.OrganizationStore

open Checked

variable {B C : Type} (K : Kernel B C)

/-! ## Versions -/

/-- One version of the organization: the texts of its files, and what they say. -/
structure Version (B : Type) where
  content : Target → Bytes
  bundle : B
  controller : Controller

/-- The files hold the version, or nothing. -/
structure Holds (v : Option (Version B)) (files : Files) : Prop where
  target : ∀ t, files.target t = v.map (·.content t)
  controller : files.controller = v.map (·.controller)

/-- The texts of a version read as its bundle, and its controller names it. -/
structure Version.Sound (v : Version B) : Prop where
  parses : (K.parse (v.content .agents) (v.content .organization) (v.content .formations) >>=
    K.createBundle) = .ok v.bundle
  version3 : K.isVersion3 (v.content .organization) = .ok true
  revision : v.controller.organizationRevision = K.revision v.bundle
  headHash : v.controller.headHash = K.canonicalHash v.bundle
  nodup : v.controller.appliedCommandIds.Nodup
  commandIds : ∀ id ∈ v.controller.appliedCommandIds, isCommandId id
  last : v.controller.lastCommandId ∈ v.controller.appliedCommandIds

/-- The version can be written after the given one. -/
structure Version.Succeeds (old : Option (Version B)) (new : Version B) : Prop where
  sound : new.Sound K
  soundBefore : ∀ v ∈ old, v.Sound K
  revision : ∀ v ∈ old, K.revision new.bundle = K.revision v.bundle + 1

/-- The command that leads to a version. -/
def Version.id (v : Version B) : String := v.controller.lastCommandId

theorem Version.Sound.create {K : Kernel B C} {v : Version B} (hK : K.Lawful) (h : v.Sound K) :
    K.createBundle v.bundle = .ok v.bundle := by
  obtain ⟨parsed, -, hcre⟩ := bind_eq_ok.mp h.parses
  exact hK.create_idem hcre

theorem organizationV3HeadHash_of_create {K : Kernel B C} {b : B} (h : K.createBundle b = .ok b) :
    organizationV3HeadHash K b = .ok (K.canonicalHash b) := by
  rw [organizationV3HeadHash, h]
  rfl

/-! ## The records of a change -/

def record (old : Option (Version B)) (new : Version B) (t : Target) : TargetRecord :=
  { name := t
    targetPath := targetPath t
    stagingPath := stagingPath new.id t
    beforeSha256 := old.map fun v => K.sha256 (v.content t)
    sha256 := K.sha256 (new.content t) }

/-- The first record of the change from `old` to `new`. -/
def proposal (old : Option (Version B)) (new : Version B) (preparedAt : String) : Transition :=
  { status := .preparing
    commandId := new.id
    beforeHeadHash := old.map fun v => K.canonicalHash v.bundle
    afterHeadHash := K.canonicalHash new.bundle
    organizationRevision := K.revision new.bundle
    targets := TARGET_NAMES.map (record K old new)
    controllerBefore := old.map (·.controller)
    controllerAfter := new.controller
    preparedAt := preparedAt
    stagingCompletedAt := none
    committedAt := none }

def Transition.staged (t : Transition) (time : String) : Transition :=
  { t with status := .prepared, stagingCompletedAt := some time }

def Transition.commit (t : Transition) (time : String) : Transition :=
  { t with status := .committed, committedAt := some time }

/-- The transition records the change from `old` to `new`, whatever its status. -/
structure Records (old : Option (Version B)) (new : Version B) (t : Transition) : Prop where
  commandId : t.commandId = new.id
  beforeHeadHash : t.beforeHeadHash = old.map fun v => K.canonicalHash v.bundle
  afterHeadHash : t.afterHeadHash = K.canonicalHash new.bundle
  organizationRevision : t.organizationRevision = K.revision new.bundle
  targets : t.targets = TARGET_NAMES.map (record K old new)
  controllerBefore : t.controllerBefore = old.map (·.controller)
  controllerAfter : t.controllerAfter = new.controller

theorem records_proposal (old : Option (Version B)) (new : Version B) (time : String) :
    Records K old new (proposal K old new time) := by
  constructor <;> rfl

variable {K} {old : Option (Version B)} {new : Version B} {t : Transition}

theorem Records.staged (h : Records K old new t) (time : String) :
    Records K old new (t.staged time) :=
  { h with }

theorem Records.commit (h : Records K old new t) (time : String) :
    Records K old new (t.commit time) :=
  { h with }

/-! ## When a record is valid -/

theorem Version.Sound.validateController_iff {v : Version B} (hK : K.Lawful) (h : v.Sound K)
    (hdt : K.parsesAsDate v.controller.updatedAt) :
    validateController K v.controller = .ok () ↔ K.revision v.bundle ≤ MAX_SAFE_INTEGER := by
  rw [validateController, ensure_eq_ok, h.revision, h.headHash]
  constructor
  · exact fun hall => hall.1
  · exact fun hrev => ⟨hrev, hK.isDigest_canonicalHash _, h.nodup, h.commandIds, h.last, hdt⟩

/-- The times of a record are dates, one for each step it has reached. -/
structure Transition.Dated (K : Kernel B C) (t : Transition) : Prop where
  preparedAt : K.parsesAsDate t.preparedAt
  preparing : t.status = .preparing → t.stagingCompletedAt = none
  completed : t.status ≠ .preparing → t.stagingCompletedAt.any K.parsesAsDate
  uncommitted : t.status ≠ .committed → t.committedAt = none
  committed : t.status = .committed → t.committedAt.any K.parsesAsDate

/-- The times of a record do not run backwards. -/
def Transition.InOrder (t : Transition) : Prop :=
  ¬ isBefore t.stagingCompletedAt (some t.preparedAt) ∧
    ¬ isBefore t.committedAt t.stagingCompletedAt

theorem Records.validateChronology_iff (hK : K.Lawful) (h : Records K old new t) (hdd : t.Dated K) :
    validateChronology K t = .ok () ↔ K.revision new.bundle ≤ MAX_SAFE_INTEGER ∧ t.InOrder := by
  have hbf : t.beforeHeadHash.all K.isDigest := by
    rw [h.beforeHeadHash]
    cases old with
    | none => rfl
    | some v => exact hK.isDigest_canonicalHash _
  have haf : K.isDigest t.afterHeadHash := h.afterHeadHash ▸ hK.isDigest_canonicalHash _
  rw [validateChronology, ensure_eq_ok, h.organizationRevision]
  constructor
  · rintro ⟨-, -, hrev, -, -, -, -, -, hor⟩
    exact ⟨hrev, hor⟩
  · rintro ⟨hrev, hor⟩
    exact ⟨hbf, haf, hrev, hdd.preparedAt, hdd.preparing, hdd.completed, hdd.uncommitted,
      hdd.committed, hor⟩

section

variable (hK : K.Lawful) (h : Records K old new t) (hnew : new.Succeeds K old)
  (hdt : K.parsesAsDate new.controller.updatedAt)
  (hold : ∀ v ∈ old, K.parsesAsDate v.controller.updatedAt)
include hK h hnew hdt hold

theorem Records.validateControllers_iff :
    validateControllers K t = .ok () ↔ K.revision new.bundle ≤ MAX_SAFE_INTEGER := by
  have haf := hnew.sound.validateController_iff hK hdt
  unfold validateControllers
  rw [h.controllerBefore, h.controllerAfter, h.commandId, h.organizationRevision, h.afterHeadHash,
    h.beforeHeadHash, h.targets]
  -- A fresh change has nothing before it; any other follows a version that is valid when it is.
  cases old with
  | none =>
    simp only [chain_eq_ok, haf, Option.map_none]
    constructor
    · exact fun hall => hall.1
    · refine fun hrev =>
        ⟨hrev, ⟨hnew.sound.revision, hnew.sound.headHash, rfl, hnew.sound.last⟩, ?_⟩
      simp [record]
  | some v =>
    have hv := (hnew.soundBefore v rfl).validateController_iff hK (hold v rfl)
    have hrevision := hnew.revision v rfl
    simp only [chain_eq_ok, haf, Option.map_some, hv]
    constructor
    · exact fun hall => hall.1
    · refine fun hrev => ⟨hrev, by omega, ⟨hnew.sound.revision, hnew.sound.headHash, rfl,
        hnew.sound.last⟩, ⟨v.controller, rfl, (hnew.soundBefore v rfl).headHash, ?_⟩, ?_⟩
      · rw [(hnew.soundBefore v rfl).revision, hrevision]
      · simp [record]

omit hK h hnew hdt hold in
theorem Records.validateTargets (hK : K.Lawful) (h : Records K old new t) :
    checkAll t.targets (validateTarget K t.commandId) = .ok () := by
  rw [checkAll_eq_ok, h.targets, h.commandId]
  intro r hr
  obtain ⟨n, -, rfl⟩ := List.mem_map.mp hr
  have hbf : (record K old new n).beforeSha256.all K.isDigest := by
    cases old with
    | none => rfl
    | some v => exact hK.isDigest_sha256 _
  simp only [validateTarget, chain_eq_ok]
  exact ⟨⟨hbf, hK.isDigest_sha256 _⟩, rfl, rfl⟩

/-- The record of a change is valid if its revision can be counted and its times are in
order. -/
theorem Records.validateTransition_iff (hdd : t.Dated K) : validateTransition K t = .ok () ↔
      K.revision new.bundle ≤ MAX_SAFE_INTEGER ∧ t.InOrder := by
  have hid : isCommandId t.commandId := by
    rw [h.commandId]
    exact hnew.sound.commandIds _ hnew.sound.last
  have hnms : t.targets.map (·.name) = TARGET_NAMES := by
    rw [h.targets]
    rfl
  have hlen : t.targets.length = TARGET_NAMES.length := by
    rw [h.targets, List.length_map]
  simp only [validateTransition, chain_eq_ok, validateCommandId, h.validateChronology_iff hK hdd,
    h.validateControllers_iff hK hnew hdt hold, h.validateTargets hK, hnms, hlen, hid,
    true_and, and_true]
  constructor
  · exact fun hall => hall.1
  · refine fun hall => ⟨hall, ⟨by decide, fun _ => id⟩, hall.1⟩

end

/-! ## Phases -/

/-- The files of a prepared change: each target is still as before, its new text staged, or
the staged file has been moved over it; the controller comes last. -/
structure Moving (old : Option (Version B)) (new : Version B) (files : Files) : Prop where
  target : ∀ t, files.target t = old.map (·.content t) ∧
      files.staged new.id t = some (new.content t) ∨
    files.target t = some (new.content t) ∧ files.staged new.id t = none ∧
      old.map (·.content t) ≠ some (new.content t)
  controller : files.controller = old.map (·.controller) ∨
    files.controller = some new.controller ∧ ∀ t, files.target t = some (new.content t)

inductive Phase (B : Type)
  | settled (version : Option (Version B)) (transition : Option Transition)
  | preparing (old : Option (Version B)) (new : Version B)
  | prepared (old : Option (Version B)) (new : Version B)
  | finished (old : Option (Version B)) (new : Version B)

variable (K) in
/-- What the files hold in a phase.  The times of the records are readings of the clock, in
the order in which they were taken. -/
def InPhase : Phase B → World → Prop
  | .settled v transition, w =>
    Holds v w.files ∧ w.files.transition = transition ∧ ∀ t ∈ transition, t.status = .committed
  | .preparing old new, w =>
    Holds old w.files ∧
      ∃ i < w.ticks, w.files.transition = some (proposal K old new (w.clock i))
  | .prepared old new, w =>
    Moving old new w.files ∧ ∃ i j, i ≤ j ∧ j < w.ticks ∧
      w.files.transition = some ((proposal K old new (w.clock i)).staged (w.clock j))
  | .finished old new, w =>
    Holds (some new) w.files ∧ ∃ i j k, i ≤ j ∧ j ≤ k ∧ k < w.ticks ∧
      validateTransition K ((proposal K old new (w.clock i)).staged (w.clock j)) = .ok () ∧
      w.files.transition =
        some (((proposal K old new (w.clock i)).staged (w.clock j)).commit (w.clock k))

/-- How a phase follows another, where `A` says which changes may be begun. -/
inductive Phase.Next (A : Option (Version B) → Version B → Prop) : Phase B → Phase B → Prop
  | prepare {old : Option (Version B)} {new : Version B} (transition : Option Transition)
      (h : A old new) : Next A (.settled old transition) (.preparing old new)
  | abandon (old : Option (Version B)) (new : Version B) :
      Next A (.preparing old new) (.settled old none)
  | complete (old : Option (Version B)) (new : Version B) :
      Next A (.preparing old new) (.prepared old new)
  | finish (old : Option (Version B)) (new : Version B) :
      Next A (.prepared old new) (.finished old new)

abbrev Phase.Reaches (A : Option (Version B) → Version B → Prop) : Phase B → Phase B → Prop :=
  Relation.ReflTransGen (Phase.Next A)

/-- Where a store at rest can get to, up to the end of a change. -/
theorem Phase.Reaches.of_settled {A : Option (Version B) → Version B → Prop}
    {transition : Option Transition} {phase : Phase B}
    (h : Phase.Reaches A (.settled old transition) phase) :
    phase = .settled old transition ∨ phase = .settled old none ∨ ∃ new, A old new ∧
        (phase = .preparing old new ∨ phase = .prepared old new ∨ phase = .finished old new) := by
  induction h with
  | refl => exact .inl rfl
  | tail _ hnx ih =>
    rcases ih with rfl | rfl | ⟨new, hA, rfl | rfl | rfl⟩
    · cases hnx with
      | prepare _ hA => exact .inr (.inr ⟨_, hA, .inl rfl⟩)
    · cases hnx with
      | prepare _ hA => exact .inr (.inr ⟨_, hA, .inl rfl⟩)
    · cases hnx with
      | abandon => exact .inr (.inl rfl)
      | complete => exact .inr (.inr ⟨new, hA, .inr (.inl rfl)⟩)
    · cases hnx with
      | finish => exact .inr (.inr ⟨new, hA, .inr (.inr rfl)⟩)
    · cases hnx

/-- What no operation changes, but for the staged files of one command and the clock. -/
structure Later (id : String) (w w' : World) : Prop where
  clock : w'.clock = w.clock
  ticks : w.ticks ≤ w'.ticks
  legacyMarkers : w'.files.legacyMarkers = w.files.legacyMarkers
  foreignRuntimeBinding : w'.files.foreignRuntimeBinding = w.files.foreignRuntimeBinding
  staged : ∀ id' ≠ id, w'.files.staged id' = w.files.staged id'

theorem Later.refl (id : String) (w : World) : Later id w w :=
  ⟨rfl, le_rfl, rfl, rfl, fun _ _ => rfl⟩

variable (K) in
/-- In a phase, some time after a given world. -/
structure Along (id : String) (w₀ : World) (phase : Phase B) (w : World) : Prop where
  later : Later id w₀ w
  phase : InPhase K phase w

variable {id : String} {w₀ w : World} {phase : Phase B}

theorem InPhase.tick (h : InPhase K phase w) : InPhase K phase w.tick := by
  cases phase with
  | settled v transition => exact h
  | preparing old new =>
    obtain ⟨hfiles, i, hi, hrec⟩ := h
    exact ⟨hfiles, i, Nat.lt_succ_of_lt hi, hrec⟩
  | prepared old new =>
    obtain ⟨hfiles, i, j, hij, hj, hrec⟩ := h
    exact ⟨hfiles, i, j, hij, Nat.lt_succ_of_lt hj, hrec⟩
  | finished old new =>
    obtain ⟨hfiles, i, j, k, hij, hjk, hk, hval, hrec⟩ := h
    exact ⟨hfiles, i, j, k, hij, hjk, Nat.lt_succ_of_lt hk, hval, hrec⟩

theorem Along.tick (h : Along K id w₀ phase w) : Along K id w₀ phase w.tick :=
  ⟨⟨h.later.clock, Nat.le_succ_of_le h.later.ticks, h.later.legacyMarkers,
    h.later.foreignRuntimeBinding, h.later.staged⟩, h.phase.tick⟩

end Orquesta.OrganizationStore
