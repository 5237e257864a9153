import Orquesta.Library.Script
import Orquesta.OrganizationStore.Records

/-!
# The operations of the organization store

`inspect`, `initialize`, `commit` and `recover` as scripts of file operations.  One
operation here is one access to one file of the store: an existence test, a read, a
rename, an unlink.  A record is replaced by writing a candidate under a name used once
and renaming it over the record, so that a record is replaced in one operation; the
candidates are never read.  A staged file is created empty and then written byte by
byte, and a script may stop between any two.

The process lock is a protocol of its own and not part of these scripts: they are what
runs while it is held.  Path checks, directory synchronisation and retries of an
operation that failed transiently do not change a file's content and are left out.

## Main definitions

* `Files`, `World`
* `inspectOrganizationV3`
* `prepareTransition`, `rollForwardPrepared`
* `recover`, `initializeStore`, `commit`
-/

namespace Orquesta.OrganizationStore

open Script Function

/-- The files of the store. -/
structure Files where
  target : Target → Option Bytes
  controller : Option Controller
  transition : Option Transition
  /-- The staged file of a command and a target. -/
  staged : String → Target → Option Bytes
  /-- `inspectLegacyFoundationV2Markers` finds something. -/
  legacyMarkers : Bool
  /-- A runtime binding exists that is not the validated one. -/
  foreignRuntimeBinding : Bool

/-- The files, and what the clock says at each of its readings. -/
structure World where
  files : Files
  clock : Nat → String
  ticks : Nat

abbrev Op := Script World Failure

/-- Change the files. -/
def onFiles (f : Files → Files) : Op Unit := act fun w => { w with files := f w.files }

def setTarget (t : Target) (content : Option Bytes) (files : Files) : Files :=
  { files with target := update files.target t content }

def setStaged (id : String) (t : Target) (content : Option Bytes) (files : Files) : Files :=
  { files with
    staged := update files.staged id (update (files.staged id) t content) }

def World.tick (w : World) : World := { w with ticks := w.ticks + 1 }

/-- `clock()` -/
def now : Op String := do
  let time ← reads fun w => w.clock w.ticks
  act World.tick
  return time

def stateInvalid (path : String) : Failure :=
  ⟨"ORGANIZATION_STORE_STATE_INVALID", "Cannot read canonical JSON: " ++ path⟩

/-- A value that was read, or the failure to read it. -/
def present {α : Type} (o : Option α) (e : Failure) : Op α :=
  match o with
  | some a => pure a
  | none => fail e

def readTarget (t : Target) : Op Bytes := do
  present (← reads fun w => w.files.target t) (stateInvalid (targetPath t))

variable {B C : Type} (K : Kernel B C)

def readBundle : Op B := do
  let agents ← readTarget .agents
  let organization ← readTarget .organization
  let formations ← readTarget .formations
  attempt (K.parse agents organization formations >>= K.createBundle)

def readController : Op (Option Controller) := do
  let existing ← reads fun w => w.files.controller.isSome
  if existing then
    let controller ← present (← reads fun w => w.files.controller)
      (stateInvalid (statePath "organization-controller.json"))
    attempt (validateController K controller)
    return some controller
  else return none

/-! ## Inspection -/

inductive Inspection (B : Type)
  | missing
  | migrationRequired (reason : String)
  | recoveryRequired (transition : Transition)
  | unsupported (reason : String)
  | ready (bundle : B) (controller : Controller) (headHash : String)
      (transition : Option Transition)

def Inspection.status : Inspection B → String
  | missing => "missing"
  | migrationRequired _ => "migration_required"
  | recoveryRequired _ => "recovery_required"
  | unsupported _ => "unsupported"
  | ready .. => "ready"

variable (bundle : B) (id : String) (t : Target)

/-- The transition record against the head it should have led to. -/
def inspectTransition (controller : Controller) (headHash : String)
    (transition : Option Transition) : Inspection B :=
  match transition with
  | none => .ready bundle controller headHash none
  | some t =>
    match validateTransition K t with
    | .error _ => .unsupported "organization_v3_transition_invalid"
    | .ok () =>
      if t.status = .committed ∧ t.afterHeadHash = headHash ∧
          t.organizationRevision = K.revision bundle ∧ t.controllerAfter = controller then
        .ready bundle controller headHash (some t)
      else .unsupported "organization_v3_committed_transition_mismatch"

/-- The head of an organization whose files are all there. -/
def inspectHead (transition : Option Transition) : Op (Inspection B) := do
  let raw ← readTarget .organization
  let version3 ← attempt (K.isVersion3 raw)
  if version3 then
    let bundle ← readBundle K
    let stored ← readController K
    let headHash ← attempt (organizationV3HeadHash K bundle)
    let controller ← present stored
      ⟨"TypeError", "Cannot read properties of null (reading 'organization_revision')"⟩
    if controller.organizationRevision = K.revision bundle ∧ controller.headHash = headHash then
      return inspectTransition K bundle controller headHash transition
    else return .unsupported "organization_v3_controller_head_mismatch"
  else return .migrationRequired "organization_v3_migration_required"

def readTransition : Op (Option Transition) := do
  let existing ← reads fun w => w.files.transition.isSome
  if existing then
    let t ← present (← reads fun w => w.files.transition)
      (stateInvalid (statePath "organization-controller-transition.json"))
    return some t
  else return none

def targetExists : Op Bool := reads fun w => (w.files.target t).isSome

def inspectOrganizationV3 : Op (Inspection B) := do
  let agents ← targetExists .agents
  let organization ← targetExists .organization
  let formations ← targetExists .formations
  let controller ← reads fun w => w.files.controller.isSome
  let transition ← readTransition
  let legacy ← reads fun w => w.files.legacyMarkers
  if legacy then
    return .migrationRequired
      (if agents ∨ organization ∨ formations ∨ controller ∨ transition ≠ none then
        "foundation_v2_and_organization_v3_mixed" else "foundation_v2_migration_required")
  else match transition.filter fun t => t.status ≠ .committed with
    | some t => return .recoveryRequired t
    | none =>
      if ¬ agents ∧ ¬ organization ∧ ¬ formations ∧ ¬ controller then
        let foreign ← reads fun w => w.files.foreignRuntimeBinding
        return if foreign then .unsupported "runtime_binding_requires_validated_receipt"
          else .missing
      else if agents ∧ organization ∧ formations ∧ controller then inspectHead K transition
      else return .migrationRequired "organization_v3_authority_partial"

/-! ## Preparing a transition -/

/-- `observedHash` of a target -/
def targetHash : Op (Option String) := reads fun w => (w.files.target t).map K.sha256

/-- `observedHash` of a staged file -/
def stagedHash : Op (Option String) := reads fun w => (w.files.staged id t).map K.sha256

/-- Write a staged file, byte by byte. -/
def writeStaged (content : Bytes) : Op Unit := do
  onFiles (setStaged id t (some []))
  forEach content fun byte => onFiles fun files =>
    setStaged id t (some ((files.staged id t).getD [] ++ [byte])) files

/-- The record of a target in a transition. -/
def targetRecord : Op TargetRecord := do
  let before ← targetHash K t
  return ⟨t, targetPath t, stagingPath id t, before, K.sha256 (K.bytes t bundle)⟩

def stageTarget : Op Unit := do
  let existing ← reads fun w => (w.files.staged id t).isSome
  check (existing = false)
    ⟨"ORGANIZATION_STORE_STAGING_CONFLICT", "Staging artifact already exists: " ++ t.text⟩
  writeStaged id t (K.bytes t bundle)

def writeTransition (t : Transition) : Op Unit :=
  onFiles fun files => { files with transition := some t }

def prepareTransition (controllerBefore : Option Controller)
    (controllerAfter : Controller) (commandId : String) (beforeHeadHash : Option String) :
    Op Transition := do
  attempt (validateCommandId commandId)
  let agents ← targetRecord K bundle commandId .agents
  let organization ← targetRecord K bundle commandId .organization
  let formations ← targetRecord K bundle commandId .formations
  let afterHeadHash ← attempt (organizationV3HeadHash K bundle)
  let preparedAt ← now
  let transition : Transition :=
    { status := .preparing
      commandId := commandId
      beforeHeadHash := beforeHeadHash
      afterHeadHash := afterHeadHash
      organizationRevision := K.revision bundle
      targets := [agents, organization, formations]
      controllerBefore := controllerBefore
      controllerAfter := controllerAfter
      preparedAt := preparedAt
      stagingCompletedAt := none
      committedAt := none }
  writeTransition transition
  forEach TARGET_NAMES (stageTarget K bundle commandId)
  let stagingCompletedAt ← now
  let prepared := { transition with
    status := .prepared, stagingCompletedAt := some stagingCompletedAt }
  writeTransition prepared
  return prepared

/-! ## Rolling a transition forward -/

def recoveryConflict (message : String) : Failure :=
  ⟨"ORGANIZATION_STORE_RECOVERY_CONFLICT", message⟩

def recoveryIncomplete (message : String) : Failure :=
  ⟨"ORGANIZATION_STORE_RECOVERY_INCOMPLETE", message⟩

/-- Is the target already as it will be? -/
def assertRecoverableTarget (preparingOnly : Bool) (target : TargetRecord) :
    Op Bool := do
  let current ← targetHash K target.name
  check (¬ ((current ≠ target.beforeSha256 ∧ current ≠ some target.sha256) ∨
      (preparingOnly ∧ current ≠ target.beforeSha256)))
    (recoveryConflict ("Canonical target changed outside the prepared transition: " ++
      target.name.text))
  let staged ← stagedHash K id target.name
  check (¬ (staged ≠ none ∧ staged ≠ some target.sha256))
    (recoveryIncomplete ("Staged target hash mismatch: " ++ target.name.text))
  check (¬ (current = target.beforeSha256 ∧ ¬ preparingOnly ∧ staged ≠ some target.sha256))
    (recoveryIncomplete ("Missing verified staged target for " ++ target.name.text))
  return decide (current = some target.sha256)

/-- Which targets are already as they will be? -/
def assertRecoverableTargets (id : String) (preparingOnly : Bool) :
    List TargetRecord → Op (List (TargetRecord × Bool))
  | [] => pure []
  | target :: targets => do
    let isAfter ← assertRecoverableTarget K id preparingOnly target
    let rest ← assertRecoverableTargets id preparingOnly targets
    return (target, isAfter) :: rest

structure Recoverable where
  targetStates : List (TargetRecord × Bool)
  controllerIsAfter : Bool

def assertRecoverableTransitionState (t : Transition) (preparingOnly : Bool) :
    Op Recoverable := do
  let targetStates ← assertRecoverableTargets K t.commandId preparingOnly t.targets
  let observed ← reads fun w => w.files.controller.map fun c => K.sha256 (K.controllerBytes c)
  let isBefore := observed = t.controllerBefore.map fun c => K.sha256 (K.controllerBytes c)
  let isAfter := observed = some (K.sha256 (K.controllerBytes t.controllerAfter))
  check (¬ ((¬ isBefore ∧ ¬ isAfter) ∨ (preparingOnly ∧ ¬ isBefore)))
    (recoveryConflict "Organization controller changed outside the prepared transition")
  check (¬ (isAfter ∧ ∃ state ∈ targetStates, state.2 = false))
    (recoveryConflict "Organization controller advanced before every canonical target")
  return ⟨targetStates, decide isAfter⟩

/-- Rename the staged file over its target. -/
def renameStaged : Op Unit := do
  let existing ← reads fun w => (w.files.staged id t).isSome
  check (existing = true) ⟨"ENOENT", "no such file or directory, rename " ++ stagingPath id t⟩
  onFiles fun files => setStaged id t none (setTarget t (files.staged id t) files)

def publishTarget (state : TargetRecord × Bool) : Op Unit :=
  if state.2 then pure () else renameStaged id state.1.name

def removeStaged (target : TargetRecord) : Op Unit := onFiles (setStaged id target.name none)

structure Finalized (B : Type) where
  bundle : B
  controller : Controller
  headHash : String
  transition : Transition

/-- Write the controller, unless it is written already. -/
def advanceController (isAfter : Bool) (controller : Controller) : Op Unit :=
  if isAfter then pure ()
  else onFiles fun files => { files with controller := some controller }

def rollForwardPrepared (t : Transition) : Op (Finalized B) := do
  attempt (validateTransition K t)
  check (t.status = .prepared)
    (recoveryIncomplete "Organization v3 transition staging is not complete")
  let recoverable ← assertRecoverableTransitionState K t false
  forEach recoverable.targetStates (publishTarget t.commandId)
  let bundle ← readBundle K
  let headHash ← attempt (organizationV3HeadHash K bundle)
  check (headHash = t.afterHeadHash ∧ K.revision bundle = t.organizationRevision)
    ⟨"ORGANIZATION_STORE_POST_WRITE_MISMATCH", "Organization v3 roll-forward verification failed"⟩
  advanceController recoverable.controllerIsAfter t.controllerAfter
  let committedAt ← now
  let committed := { t with status := .committed, committedAt := some committedAt }
  writeTransition committed
  forEach t.targets (removeStaged t.commandId)
  return ⟨bundle, t.controllerAfter, headHash, committed⟩

/-- Prepare a change and roll it forward. -/
def writeChange (controllerBefore : Option Controller) (controllerAfter : Controller)
    (commandId : String) (beforeHeadHash : Option String) : Op (Finalized B) := do
  let transition ← prepareTransition K bundle controllerBefore controllerAfter commandId
    beforeHeadHash
  rollForwardPrepared K transition

/-! ## The store's operations -/

inductive Recovered (B : Type)
  | noRecoveryRequired (transitionStatus : Option TransitionStatus)
  | preparationAbandoned
  | commitFinalized (result : Finalized B)

/-- Remove a staged file of a preparation that is given up. -/
def abandonTarget (target : TargetRecord) : Op Unit := do
  let existing ← reads fun w => (w.files.staged id target.name).isSome
  if existing then
    let staged ← stagedHash K id target.name
    check (staged = some target.sha256)
      (recoveryIncomplete ("Preparing artifact hash mismatch: " ++ target.name.text))
    removeStaged id target
  else pure ()

def abandonPreparation (t : Transition) : Op Unit := do
  attempt (validateTransition K t)
  let _ ← assertRecoverableTransitionState K t true
  forEach t.targets (abandonTarget K t.commandId)
  onFiles fun files => { files with transition := none }

def recover : Op (Recovered B) := do
  let legacy ← reads fun w => w.files.legacyMarkers
  check (legacy = false)
    ⟨"ORGANIZATION_STORE_MIGRATION_REQUIRED",
      "Legacy Foundation authority blocks Organization recovery"⟩
  match ← readTransition with
  | none => return .noRecoveryRequired none
  | some t =>
    match t.status with
    | .preparing =>
      abandonPreparation K t
      return .preparationAbandoned
    | .prepared => return .commitFinalized (← rollForwardPrepared K t)
    | .committed => return .noRecoveryRequired (some .committed)

def recoveryRequired : Failure :=
  ⟨"ORGANIZATION_STORE_RECOVERY_REQUIRED", "Recover the prepared Organization v3 transition first"⟩

inductive Initialized (B : Type)
  | alreadyInitialized (bundle : B) (controller : Controller) (headHash : String)
      (transition : Option Transition)
  | initialized (result : Finalized B)

/-- Write the first version. -/
def initializeMissing (rawBundle : B) (commandId : String) : Op (Finalized B) := do
  let bundle ← attempt (K.createBundle rawBundle)
  let headHash ← attempt (organizationV3HeadHash K bundle)
  let updatedAt ← now
  let controller : Controller :=
    { organizationRevision := K.revision bundle
      headHash := headHash
      appliedCommandIds := [commandId]
      lastCommandId := commandId
      updatedAt := updatedAt }
  writeChange K bundle none controller commandId none

/-- `initialize`; `initialize` alone is a word of Lean. -/
def initializeStore (rawBundle : B) (commandId : String) : Op (Initialized B) := do
  match ← inspectOrganizationV3 K with
  | .ready bundle controller headHash transition =>
    return .alreadyInitialized bundle controller headHash transition
  | .recoveryRequired _ => fail recoveryRequired
  | .missing => return .initialized (← initializeMissing K rawBundle commandId)
  | state =>
    fail ⟨"ORGANIZATION_STORE_MIGRATION_REQUIRED",
      "Cannot initialize Organization v3 from " ++ state.status⟩

inductive Committed (B : Type)
  | alreadyApplied (bundle : B) (controller : Controller) (headHash : String)
  | noChange (bundle : B) (controller : Controller) (headHash : String)
  | committed (result : Finalized B)

/-- The commit of a command to the version that was found. -/
def commitReady (command : C) (bundle : B) (before : Controller) (headHash : String) :
    Op (Committed B) := do
  let applied ← attempt
    (applyOrganizationControllerCommand K bundle command before.appliedCommandIds)
  let updatedAt ← now
  let controller : Controller :=
    { organizationRevision := K.revision applied.bundle
      headHash := applied.headHash
      appliedCommandIds := before.appliedCommandIds ++ [K.commandId command]
      lastCommandId := K.commandId command
      updatedAt := updatedAt }
  match applied.status with
  | .alreadyApplied => return .alreadyApplied bundle before headHash
  | .noChange => return .noChange bundle before headHash
  | .applied =>
    return .committed (← writeChange K applied.bundle (some before) controller
      (K.commandId command) (some headHash))

def commit (command : C) : Op (Committed B) := do
  match ← inspectOrganizationV3 K with
  | .ready bundle controller headHash _ => commitReady K command bundle controller headHash
  | .recoveryRequired _ => fail recoveryRequired
  | state =>
    fail ⟨"ORGANIZATION_STORE_NOT_READY", "Organization v3 store is " ++ state.status⟩

end Orquesta.OrganizationStore
