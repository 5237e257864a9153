import Orquesta.Contract.Values

/-!
# The records of the organization store

The store keeps an organization in three files, beside them a controller record that
names the current head, and a transition record that says how far the last change has
come.  Here are these records and their validation.

Members with one admissible value (`schema_version`, `writer_epoch` and the
controller's `status`) are left out.  A record is the content of a file the store has
written; its text is a parameter of the kernel.

What the store takes from elsewhere is the `Kernel`: the bundle and the commands, their
validation, their texts and hashes.  Of them only the laws of `Kernel.Lawful` are used.
The hash is taken to be free of collisions.  No function into texts of 64 digits is, so
the format of a digest is a parameter as well, and what is used of it is that every hash
has it.

## Main definitions

* `Kernel`, `Kernel.Lawful`
* `applyOrganizationControllerCommand`
* `Controller`, `validateController`; `Transition`, `validateTransition`
-/

namespace Orquesta.OrganizationStore

open Checked
open Orquesta.Contract (isAlphanumeric)

structure Failure where
  (code message : String)

abbrev Bytes := List UInt8

/-- The files of a bundle, in the order of `TARGET_NAMES`. -/
inductive Target
  | agents | organization | formations
deriving DecidableEq

def TARGET_NAMES : List Target := [.agents, .organization, .formations]

def Target.text : Target → String
  | agents => "agents.json"
  | organization => "organization.json"
  | formations => "formations.json"

theorem mem_TARGET_NAMES (t : Target) : t ∈ TARGET_NAMES := by
  cases t <;> simp [TARGET_NAMES]

/-- Paths are relative to the project root. -/
def statePath (name : String) : String := ".orquesta/state/" ++ name

def targetPath (t : Target) : String := statePath t.text

def MAX_SAFE_INTEGER : Nat := 9007199254740991

/-! ## Commands -/

/-- The controller record. -/
structure Controller where
  organizationRevision : Nat
  headHash : String
  appliedCommandIds : List String
  (lastCommandId updatedAt : String)
deriving DecidableEq

/-- Bundles `B` and commands `C`, with what the store uses of them. -/
structure Kernel (B C : Type) where
  /-- `createOrganizationV3Bundle` -/
  createBundle : B → Except Failure B
  /-- `canonicalHash` of a bundle -/
  canonicalHash : B → String
  revision : B → Nat
  /-- Set the revision in all three parts. -/
  withRevision : Nat → B → B
  /-- `jsonBytes` of a part -/
  bytes : Target → B → Bytes
  /-- `JSON.parse` of the three parts -/
  parse : Bytes → Bytes → Bytes → Except Failure B
  /-- The `schema_version` in a text of the organization part is 3. -/
  isVersion3 : Bytes → Except Failure Bool
  controllerBytes : Controller → Bytes
  sha256 : Bytes → String
  /-- `/^[a-f0-9]{64}$/` -/
  isDigest : String → Bool
  /-- `Number.isFinite(Date.parse(text))` -/
  parsesAsDate : String → Bool
  commandId : C → String
  expectedRevision : C → Nat
  expectedHeadHash : C → String
  /-- `commandIdFor` -/
  commandIdFor : C → String
  /-- The kind and the shape of a command. -/
  checkCommand : C → Except Failure Unit
  /-- `validateControllerPayload`, first without and then with regard to the current bundle -/
  validateShape : C → Except Failure Unit
  validateAgainst : B → C → Except Failure Unit
  /-- The change of the command's kind. -/
  patch : B → C → Except Failure B

variable {B C : Type} (K : Kernel B C)

/-- `organizationV3HeadHash` -/
def organizationV3HeadHash (bundle : B) : Except Failure String := do
  let created ← K.createBundle bundle
  return K.canonicalHash created

inductive AppliedStatus
  | applied | alreadyApplied | noChange

structure Applied (B : Type) where
  status : AppliedStatus
  bundle : B
  headHash : String

def applyOrganizationControllerCommand (bundle : B) (command : C)
    (appliedCommandIds : List String) : Except Failure (Applied B) := do
  let current ← K.createBundle bundle
  K.checkCommand command
  ensure (K.commandId command = K.commandIdFor command)
    ⟨"ORGANIZATION_COMMAND_TAMPERED",
      "Organization Controller command id does not match its canonical content"⟩
  K.validateShape command
  if K.commandId command ∈ appliedCommandIds then
    let head ← organizationV3HeadHash K current
    return ⟨.alreadyApplied, current, head⟩
  else
    ensure (K.expectedRevision command = K.revision current)
      ⟨"ORGANIZATION_REVISION_CONFLICT", "expected revision " ++
        toString (K.expectedRevision command) ++ ", found " ++ toString (K.revision current)⟩
    let currentHead ← organizationV3HeadHash K current
    ensure (K.expectedHeadHash command = currentHead)
      ⟨"ORGANIZATION_HEAD_CONFLICT", "expected head " ++ K.expectedHeadHash command ++ ", found " ++
        currentHead⟩
    K.validateAgainst current command
    let next ← K.patch current command
    let nextHead ← organizationV3HeadHash K next
    if nextHead = currentHead then
      return ⟨.noChange, current, currentHead⟩
    else
      let validated ← K.createBundle (K.withRevision (K.revision current + 1) next)
      let head ← organizationV3HeadHash K validated
      return ⟨.applied, validated, head⟩

/-- `[A-Za-z0-9._-]` -/
def isCommandChar (c : Char) : Bool := isAlphanumeric c || c ∈ ['.', '_', '-']

/-- `/^[A-Za-z0-9][A-Za-z0-9._-]{0,127}$/u` -/
def isCommandId (s : String) : Bool :=
  match s.toList with
  | [] => false
  | c :: cs => isAlphanumeric c && cs.all isCommandChar && cs.length ≤ 127

/-- What the proofs use of the kernel. -/
structure Kernel.Lawful : Prop where
  /-- A created bundle is created from itself. -/
  create_idem : ∀ {b b'}, K.createBundle b = .ok b' → K.createBundle b' = .ok b'
  create_revision : ∀ {b b'}, K.createBundle b = .ok b' → K.revision b' = K.revision b
  revision_withRevision : ∀ n b, K.revision (K.withRevision n b) = n
  /-- Reading back what was written. -/
  parse_bytes : ∀ {b}, K.createBundle b = .ok b →
    K.parse (K.bytes .agents b) (K.bytes .organization b) (K.bytes .formations b) = .ok b
  /-- The head of parts of several bundles shows the revision of each. -/
  head_binds : ∀ {b₁ b₂ b₃ b b'}, K.createBundle b₁ = .ok b₁ → K.createBundle b₂ = .ok b₂ →
    K.createBundle b₃ = .ok b₃ → K.createBundle b' = .ok b' →
    (K.parse (K.bytes .agents b₁) (K.bytes .organization b₂) (K.bytes .formations b₃) >>=
      K.createBundle) = .ok b → K.canonicalHash b = K.canonicalHash b' →
    K.revision b₁ = K.revision b' ∧ K.revision b₂ = K.revision b' ∧ K.revision b₃ = K.revision b'
  version_bytes : ∀ {b}, K.createBundle b = .ok b →
    K.isVersion3 (K.bytes .organization b) = .ok true
  /-- The text of a controller shows its revision. -/
  controllerBytes_revision : ∀ {c c'}, K.controllerBytes c = K.controllerBytes c' →
    c.organizationRevision = c'.organizationRevision
  sha256_injective : Function.Injective K.sha256
  isDigest_sha256 : ∀ bytes, K.isDigest (K.sha256 bytes)
  isDigest_canonicalHash : ∀ b, K.isDigest (K.canonicalHash b)
  commandIdFor_format : ∀ c, isCommandId (K.commandIdFor c)

/-! ## The controller record -/

def validateController (c : Controller) : Except Failure Unit :=
  ensure (c.organizationRevision ≤ MAX_SAFE_INTEGER ∧ K.isDigest c.headHash ∧
      c.appliedCommandIds.Nodup ∧ (∀ id ∈ c.appliedCommandIds, isCommandId id) ∧
      c.lastCommandId ∈ c.appliedCommandIds ∧ K.parsesAsDate c.updatedAt)
    ⟨"ORGANIZATION_STORE_CONTROLLER_INVALID", "Organization controller state is invalid"⟩

/-! ## The transition record -/

inductive TransitionStatus
  | preparing | prepared | committed
deriving DecidableEq

structure TargetRecord where
  name : Target
  (targetPath stagingPath : String)
  beforeSha256 : Option String
  sha256 : String

structure Transition where
  status : TransitionStatus
  commandId : String
  beforeHeadHash : Option String
  afterHeadHash : String
  organizationRevision : Nat
  targets : List TargetRecord
  controllerBefore : Option Controller
  controllerAfter : Controller
  preparedAt : String
  (stagingCompletedAt committedAt : Option String)


def stagingPath (commandId : String) (t : Target) : String :=
  ".orquesta/runtime/organization-store-v3/" ++ commandId ++ "-" ++ t.text

def transitionInvalid (message : String) : Failure :=
  ⟨"ORGANIZATION_STORE_TRANSITION_INVALID", message⟩

def validateCommandId (commandId : String) : Except Failure Unit :=
  ensure (isCommandId commandId)
    ⟨"ORGANIZATION_STORE_COMMAND_INVALID", "Organization v3 command id is invalid"⟩

/-- Is `a` before `b`, where both are there? -/
def isBefore : Option String → Option String → Bool
  | some a, some b => a < b
  | _, _ => false

/-- The heads, the revision and the times of a transition. -/
def validateChronology (t : Transition) : Except Failure Unit :=
  ensure (t.beforeHeadHash.all K.isDigest ∧ K.isDigest t.afterHeadHash ∧
      t.organizationRevision ≤ MAX_SAFE_INTEGER ∧ K.parsesAsDate t.preparedAt ∧
      (t.status = .preparing → t.stagingCompletedAt = none) ∧
      (t.status ≠ .preparing → t.stagingCompletedAt.any K.parsesAsDate) ∧
      (t.status ≠ .committed → t.committedAt = none) ∧
      (t.status = .committed → t.committedAt.any K.parsesAsDate) ∧
      ¬ isBefore t.stagingCompletedAt (some t.preparedAt) ∧
      ¬ isBefore t.committedAt t.stagingCompletedAt)
    (transitionInvalid "Prepared Organization v3 transition chronology or head binding is invalid")

/-- The controllers of a transition: the one after it, and the one it follows. -/
def validateControllers (t : Transition) : Except Failure Unit := do
  validateController K t.controllerAfter
  match t.controllerBefore with
  | none => pure ()
  | some before => validateController K before
  ensure (t.controllerAfter.organizationRevision = t.organizationRevision ∧
      t.controllerAfter.headHash = t.afterHeadHash ∧
      t.controllerAfter.lastCommandId = t.commandId ∧
      t.commandId ∈ t.controllerAfter.appliedCommandIds)
    (transitionInvalid "Prepared Organization v3 transition controller binding is invalid")
  match t.beforeHeadHash with
  | none =>
    ensure (t.controllerBefore = none ∧ ∀ target ∈ t.targets, target.beforeSha256 = none)
      (transitionInvalid "Fresh Organization v3 transition cannot have a prior controller")
  | some beforeHeadHash =>
    ensure ((∃ before ∈ t.controllerBefore, before.headHash = beforeHeadHash ∧
          before.organizationRevision + 1 = t.organizationRevision) ∧
        ∀ target ∈ t.targets, target.beforeSha256 ≠ none)
      (transitionInvalid "Prepared Organization v3 transition prior controller binding is invalid")

def validateTarget (commandId : String) (target : TargetRecord) : Except Failure Unit := do
  ensure (target.beforeSha256.all K.isDigest ∧ K.isDigest target.sha256)
    (transitionInvalid "Prepared Organization v3 transition target is invalid")
  ensure (target.targetPath = OrganizationStore.targetPath target.name ∧
      target.stagingPath = OrganizationStore.stagingPath commandId target.name)
    (transitionInvalid "Prepared Organization v3 transition escapes its owned paths")

def validateTransition (t : Transition) : Except Failure Unit := do
  ensure (t.targets.length = TARGET_NAMES.length)
    (transitionInvalid "Prepared Organization v3 transition is invalid")
  validateCommandId t.commandId
  validateChronology K t
  ensure ((t.targets.map (·.name)).Nodup ∧ ∀ name ∈ TARGET_NAMES, name ∈ t.targets.map (·.name))
    (transitionInvalid
      "Prepared Organization v3 transition targets are not the exact authority set")
  validateControllers K t
  checkAll t.targets (validateTarget K t.commandId)

end Orquesta.OrganizationStore
