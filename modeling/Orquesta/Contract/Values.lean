import Mathlib.Data.List.DropRight
import Orquesta.Library.Checked
import Orquesta.Library.Json

/-!
# Reading contract values

The checks by which a raw JSON value becomes a contract value.  `preflightJson`
bounds a value before anything else reads it; `assertString`, `assertRef` and the
other `assert…` functions each read one value and name the path, the reason and
the message of a refusal.

Every check comes with one lemma that says which values it accepts and what it
returns.  The lemmas do not mention paths: they decide only what a refusal says.

A raw value is a JSON tree with integer numbers.  Anything else a JavaScript value
can be (an accessor, a symbol, a hole, a shared reference, a number that is not
finite) is refused by `preflightJson`, and every number the contract keeps is an
integer.

## Main definitions

* `ContractValidationError`, `CONTRACT_LIMITS`
* `preflightJson`, `assertExactFields`, `assertString`, `assertRef`, `assertInteger`, …

## Main results

* `preflightJson_eq_ok`: the bounds, as measures of the tree
* `assertString_eq_ok`, `assertRef_eq_ok`, …: what each check accepts
-/

namespace Orquesta.Contract

open Checked List Json

/-- A raw value as the contract reads it. -/
abbrev Raw := Json Int

/-- The values JavaScript objects can be: member names are distinct. -/
abbrev RawDocument := { j : Raw // j.WellFormed }

inductive Reason
  | nodeLimit | depthLimit | stringLimit | serializedSize | type | unknownField | required | format
  | enum | integerRange | arrayLimit | duplicate | version | revisionChain | hashMismatch
  | contentRefIdConflict | verificationModeMismatch | deliveryAmbiguity | inconsistentLimit
  | providerCount | selfDependency | integrationParallel | isolationPermission | parallelIsolation
  | unknownDependency | dependencyCycle | integrationMismatch | integrationTerminal
  | integrationCoverage | providerPolicy | permissionCeiling | workBranchMissing
  | integrationRequired | concurrencyLimit

structure ContractValidationError where
  path : String
  reason : Reason
  message : String

/-- A contract check. -/
abbrev Check := Except ContractValidationError

def invalid {α : Type} (path : String) (reason : Reason) (message : String) : Check α :=
  .error ⟨path, reason, message⟩

variable {path s : String}

@[simp] theorem invalid_eq_ok {α : Type} {reason : Reason} {m : String}
    {a : α} : invalid path reason m = .ok a ↔ False := by
  simp [invalid]

/-! ## Limits -/

namespace CONTRACT_LIMITS

def maxPlanBytes : Nat := 262144
def maxInputDepth : Nat := 16
def maxInputNodes : Nat := 8192
def maxBranches : Nat := 64
def maxAcceptanceCriteria : Nat := 64
def maxVerificationRequirementsPerCriterion : Nat := 16
def maxDependenciesPerBranch : Nat := 64
def maxProviderRefs : Nat := 16
def maxRefBytes : Nat := 256
def maxTextBytes : Nat := 32768

end CONTRACT_LIMITS

open CONTRACT_LIMITS

/-! ## Preflight -/

/-- One value still to be looked at. -/
structure Item where
  value : Raw
  path : String
  depth : Nat

/-- The values below an item, the last one first. -/
def Item.children (i : Item) : List Item :=
  match i.value with
  | .arr xs => (xs.zipIdx.map fun (x, n) =>
      ⟨x, i.path ++ "[" ++ toString n ++ "]", i.depth + 1⟩).reverse
  | .obj ms => (ms.map fun (k, v) => ⟨v, i.path ++ "." ++ k, i.depth + 1⟩).reverse
  | _ => []

/-- The checks on one value that do not look below it. -/
def Item.check (i : Item) : Check Unit :=
  match i.value with
  | .str s => ensure (s.utf8ByteSize ≤ maxTextBytes * 2)
      ⟨i.path, .stringLimit, "contains an excessively large string"⟩
  | .arr xs => ensure (xs.length ≤ maxInputNodes)
      ⟨i.path, .nodeLimit, "contains too many array entries"⟩
  | .obj ms => ensure (ms.length ≤ maxInputNodes)
      ⟨i.path, .nodeLimit, "contains too many object fields"⟩
  | _ => .ok ()

/-- The stack of `preflightJson`; `budget` is how many values it may still look at. -/
def preflightWalk (path : String) : Nat → List Item → Check Unit
  | _, [] => .ok ()
  | 0, _ :: _ => invalid path .nodeLimit "must contain at most 8192 values"
  | budget + 1, i :: stack => do
    ensure (i.depth ≤ maxInputDepth) ⟨i.path, .depthLimit, "must not exceed depth 16"⟩
    i.check
    preflightWalk path budget (i.children ++ stack)

def canonicalJson (value : Raw) : String := value.canonicalJson toString

def preflightJson (value : Raw) (path : String) (maximumBytes : Nat) : Check String := do
  preflightWalk path maxInputNodes [⟨value, path, 0⟩]
  let serialized := canonicalJson value
  ensure (serialized.utf8ByteSize ≤ maximumBytes) ⟨path, .serializedSize,
    "must serialize to at most " ++ toString maximumBytes ++ " bytes"⟩
  return serialized

/-- The strings `preflightJson` lets through. -/
def fitsText (s : String) : Bool := s.utf8ByteSize ≤ maxTextBytes * 2

/-- The part of the preflight that concerns one item and everything below it. -/
def Item.Fits (i : Item) : Prop :=
  i.depth ≤ maxInputDepth ∧ i.value.fits fitsText (maxInputDepth - i.depth)

theorem Item.children_map {β : Type} (i : Item) (f : Raw → Nat → β) :
    i.children.map (fun c => f c.value c.depth) =
      (i.value.children.map fun v => f v (i.depth + 1)).reverse := by
  obtain ⟨value, path, depth⟩ := i
  cases value with
  | arr xs =>
    simp only [children, Json.children, map_reverse, map_map]
    congr 1
    conv_rhs => rw [← zipIdx_map_fst 0 xs, map_map]
    rfl
  | obj ms =>
    simp only [children, Json.children, map_reverse, map_map]
    rfl
  | null | bool | num | str => rfl

theorem Item.nodes_eq (i : Item) :
    i.value.nodes = 1 + (i.children.map fun c => c.value.nodes).sum := by
  rw [i.children_map fun v _ => v.nodes, sum_reverse, Json.nodes_eq]

theorem Item.forall_children {i : Item} {P : Raw → Nat → Prop} :
    (∀ c ∈ i.children, P c.value c.depth) ↔ ∀ v ∈ i.value.children, P v (i.depth + 1) := by
  have hprs := i.children_map Prod.mk
  have hforall : (∀ c ∈ i.children, P c.value c.depth) ↔
      ∀ q ∈ i.children.map (fun c => (c.value, c.depth)), P q.1 q.2 := by
    rw [forall_mem_map]
  rw [hforall, hprs]
  simp only [mem_reverse, forall_mem_map]

theorem Item.fits_iff (i : Item) :
    i.Fits ↔ i.depth ≤ maxInputDepth ∧ (∀ s, i.value = .str s → fitsText s) ∧
      ∀ c ∈ i.children, c.Fits := by
  have hchn := i.forall_children (P := fun v d => d ≤ maxInputDepth ∧
    v.fits fitsText (maxInputDepth - d))
  rw [Fits, Json.fits_iff]
  refine and_congr_right fun hdp => and_congr_right fun _ => ?_
  refine Iff.trans ?_ hchn.symm
  cases hc : i.value.children with
  | nil => simp
  | cons c cs =>
    rw [Nat.sub_sub]
    constructor
    · rintro (h | ⟨hpos, h⟩)
      · cases h
      · exact fun v hv => ⟨by omega, h v hv⟩
    · intro h
      have := (h c mem_cons_self).1
      exact Or.inr ⟨by omega, fun v hv => (h v hv).2⟩

theorem Item.check_eq_ok {i : Item} {u : Unit} (hns : i.value.nodes ≤ maxInputNodes) :
    i.check = .ok u ↔ ∀ s, i.value = .str s → fitsText s := by
  obtain ⟨value, path, depth⟩ := i
  have hlen : value.children.length ≤ maxInputNodes :=
    (value.length_children_lt_nodes.trans_le hns).le
  cases value with
  | arr xs => simpa [check, Json.children] using hlen
  | obj ms => simpa [check, Json.children] using hlen
  | str s => simp [check, fitsText]
  | null | bool | num => simp [check]

/-- The walk succeeds when the values on the stack are few enough and each of them fits. -/
theorem preflightWalk_eq_ok {budget : Nat} {stack : List Item} {u : Unit}
    (hbudget : budget ≤ maxInputNodes) :
    preflightWalk path budget stack = .ok u ↔
      (stack.map fun i => i.value.nodes).sum ≤ budget ∧ ∀ i ∈ stack, i.Fits := by
  induction budget generalizing stack with
  | zero =>
    cases stack with
    | nil => simp [preflightWalk]
    | cons i stack =>
      have := i.value.nodes_pos
      simp only [preflightWalk, invalid_eq_ok, map_cons, sum_cons, false_iff]
      omega
  | succ budget ih =>
    cases stack with
    | nil => simp [preflightWalk]
    | cons i stack =>
      have hns := i.nodes_eq
      have hft := i.fits_iff
      simp only [preflightWalk, chain_eq_ok, ih (by omega), map_append, sum_append,
        forall_mem_append, map_cons, sum_cons, forall_mem_cons]
      constructor
      · rintro ⟨hdp, hck, hsum, hbw, hstk⟩
        have hle : i.value.nodes ≤ maxInputNodes := by omega
        exact ⟨by omega, hft.mpr ⟨hdp, (Item.check_eq_ok hle).mp hck, hbw⟩, hstk⟩
      · rintro ⟨hsum, hi, hstk⟩
        have hle : i.value.nodes ≤ maxInputNodes := by omega
        obtain ⟨hdp, hstr, hbw⟩ := hft.mp hi
        exact ⟨hdp, (Item.check_eq_ok hle).mpr hstr, by omega, hbw, hstk⟩

/-- The bytes of a value's canonical text. -/
def textSize (value : Raw) : Nat := value.weigh (textWeights toString)

variable {value : Raw}

variable {maximumBytes min max : Nat}

/-- **The preflight**, as bounds on the tree. -/
theorem preflightJson_eq_ok {t : String} : preflightJson value path maximumBytes = .ok t ↔
      (value.nodes ≤ maxInputNodes ∧ value.fits fitsText maxInputDepth ∧
        textSize value ≤ maximumBytes) ∧ canonicalJson value = t := by
  simp only [preflightJson, chain_eq_ok, preflightWalk_eq_ok (Nat.le_refl _), canonicalJson,
    utf8ByteSize_canonicalJson]
  simp [Item.Fits, textSize, and_assoc]

/-! ## Fields -/

/-- Read an object whose member names are known. -/
def assertExactFields (value : Raw) (allowed required : List String) (path : String) :
    Check (List (String × Raw)) :=
  match value with
  | .obj ms => do
    checkAll ms fun m =>
      ensure (m.1 ∈ allowed) ⟨path ++ "." ++ m.1, .unknownField, "is not supported"⟩
    checkAll required fun field =>
      ensure (field ∈ ms.map Prod.fst) ⟨path ++ "." ++ field, .required, "is required"⟩
    return ms
  | _ => invalid path .type "must be an object"

/-- A required field, read after `assertExactFields`. -/
def field (ms : List (String × Raw)) (name : String) : Raw := (ms.lookup name).getD .null

theorem assertExactFields_eq_ok {allowed required : List String} {ms : List (String × Raw)} :
    assertExactFields value allowed required path = .ok ms ↔
      value = .obj ms ∧ (∀ m ∈ ms, m.1 ∈ allowed) ∧ ∀ n ∈ required, n ∈ ms.map Prod.fst := by
  cases value with
  | obj ms' =>
    simp only [assertExactFields, chain_eq_ok, checkAll_eq_ok, obj.injEq]
    constructor
    · rintro ⟨h₁, h₂, rfl⟩
      exact ⟨rfl, h₁, h₂⟩
    · rintro ⟨rfl, h₁, h₂⟩
      exact ⟨h₁, h₂, rfl⟩
  | null | bool | num | str | arr => simp [assertExactFields]

theorem lookup_field {ms : List (String × Raw)} {n : String} (h : n ∈ ms.map Prod.fst) :
    ms.lookup n = some (field ms n) := by
  cases hl : ms.lookup n with
  | none => exact absurd h (lookup_eq_none.mp hl)
  | some v => simp [field, hl]

/-! ## Strings -/

/-- The characters `String.prototype.trim` removes. -/
def isWhiteSpace (c : Char) : Bool :=
  (9 ≤ c.toNat && c.toNat ≤ 13) || c.toNat = 32 || c.toNat = 160 || c.toNat = 5760 ||
    (8192 ≤ c.toNat && c.toNat ≤ 8202) || c.toNat = 8232 || c.toNat = 8233 || c.toNat = 8239 ||
    c.toNat = 8287 || c.toNat = 12288 || c.toNat = 65279

def trim (s : String) : String :=
  String.ofList ((s.toList.dropWhile isWhiteSpace).rdropWhile isWhiteSpace)

theorem toList_trim (s : String) :
    (trim s).toList = (s.toList.dropWhile isWhiteSpace).rdropWhile isWhiteSpace :=
  String.toList_ofList

@[simp] theorem trim_trim (s : String) : trim (trim s) = trim s := by
  have hfrt : ((s.toList.dropWhile isWhiteSpace).rdropWhile isWhiteSpace).dropWhile
      isWhiteSpace = (s.toList.dropWhile isWhiteSpace).rdropWhile isWhiteSpace := by
    rw [dropWhile_eq_self_iff]
    intro hl
    have hpfx := rdropWhile_prefix isWhiteSpace (l := s.toList.dropWhile isWhiteSpace)
    have hpos : 0 < (s.toList.dropWhile isWhiteSpace).length := hl.trans_le hpfx.length_le
    have hget := (prefix_iff_getElem.mp hpfx).2 0 hl
    rw [hget]
    exact dropWhile_get_zero_not isWhiteSpace s.toList hpos
  rw [trim, toList_trim, hfrt, rdropWhile_idempotent]
  rfl

theorem trim_of_forall (h : ∀ c ∈ s.toList, isWhiteSpace c = false) : trim s = s := by
  have hfrt : s.toList.dropWhile isWhiteSpace = s.toList :=
    dropWhile_eq_self_iff.mpr fun hl => by simp [h _ (getElem_mem hl)]
  have hback : s.toList.rdropWhile isWhiteSpace = s.toList := by
    rw [rdropWhile, dropWhile_eq_self_iff.mpr fun hl => ?_, reverse_reverse]
    exact Bool.eq_false_iff.mp (h _ (mem_reverse.mp (getElem_mem hl)))
  rw [trim, hfrt, hback, String.ofList_toList]

/-- A text of ASCII characters has one byte for each of them. -/
theorem utf8ByteSize_of_ascii (h : ∀ c ∈ s.toList, c.utf8Size = 1) :
    s.utf8ByteSize = s.toList.length := by
  have hlst : ∀ cs : List Char, (∀ c ∈ cs, c.utf8Size = 1) →
      (String.ofList cs).utf8ByteSize = cs.length := by
    intro cs
    induction cs with
    | nil => intro _; rfl
    | cons c cs ih =>
      intro h
      rw [forall_mem_cons] at h
      rw [String.ofList_cons, String.utf8ByteSize_append, String.utf8ByteSize_singleton, h.1,
        ih h.2, length_cons, Nat.add_comm]
  rw [← hlst s.toList h, String.ofList_toList]

/-- The measure of a value after its strings have been trimmed. -/
def trimmed (w : Weights Int) : Weights Int := { w with str := fun s => w.str (trim s) }

def assertString (value : Raw) (path : String) (maximumBytes : Nat) : Check String :=
  match value with
  | .str s => do
    ensure (trim s ≠ "") ⟨path, .type, "must be a non-empty string"⟩
    ensure ((trim s).utf8ByteSize ≤ maximumBytes)
      ⟨path, .stringLimit, "must be at most " ++ toString maximumBytes ++ " UTF-8 bytes"⟩
    return trim s
  | _ => invalid path .type "must be a non-empty string"

theorem assertString_eq_ok : assertString value path maximumBytes = .ok s ↔
      ∃ t, value = .str t ∧ trim t = s ∧ s ≠ "" ∧ s.utf8ByteSize ≤ maximumBytes := by
  cases value with
  | str t =>
    simp only [assertString, chain_eq_ok, str.injEq, exists_eq_left']
    constructor
    · rintro ⟨hne, hle, rfl⟩
      exact ⟨rfl, hne, hle⟩
    · rintro ⟨rfl, hne, hle⟩
      exact ⟨hne, hle, rfl⟩
  | null | bool | num | arr | obj => simp [assertString]

def isAlphanumeric (c : Char) : Bool :=
  ('A' ≤ c && c ≤ 'Z') || ('a' ≤ c && c ≤ 'z') || ('0' ≤ c && c ≤ '9')

/-- `[A-Za-z0-9._:/@+\-]` -/
def isRefChar (c : Char) : Bool := isAlphanumeric c || c ∈ ['.', '_', ':', '/', '@', '+', '-']

/-- `/^[A-Za-z0-9][A-Za-z0-9._:/@+\-]*$/u` -/
def matchesRef (s : String) : Bool :=
  match s.toList with
  | [] => false
  | c :: cs => isAlphanumeric c && cs.all isRefChar

def assertRef (value : Raw) (path : String) : Check String := do
  let normalized ← assertString value path maxRefBytes
  ensure (matchesRef normalized) ⟨path, .format, "must be a portable reference"⟩
  return normalized

/-- A portable reference. -/
def IsRef (s : String) : Prop := matchesRef s ∧ s.utf8ByteSize ≤ maxRefBytes
deriving Decidable

theorem IsRef.ne_empty (h : IsRef s) : s ≠ "" := by
  rintro rfl
  exact absurd h.1 (by decide)

theorem assertRef_eq_ok : assertRef value path = .ok s ↔ ∃ t, value = .str t ∧ trim t = s ∧
    IsRef s := by
  simp only [assertRef, chain_eq_ok, assertString_eq_ok]
  constructor
  · rintro ⟨s', ⟨t, rfl, rfl, -, hle⟩, hm, rfl⟩
    exact ⟨t, rfl, rfl, hm, hle⟩
  · rintro ⟨t, rfl, rfl, href⟩
    exact ⟨_, ⟨t, rfl, rfl, href.ne_empty, href.2⟩, href.1, rfl⟩

/-- `[a-f0-9]` -/
def isHexChar (c : Char) : Bool := ('a' ≤ c && c ≤ 'f') || ('0' ≤ c && c ≤ '9')

/-- `/^[a-f0-9]{64}$/u` -/
def isSha256 (s : String) : Bool := s.toList.length = 64 && s.toList.all isHexChar

/-- `/^BPS-[a-f0-9]{32}$/u` -/
def isPlanSnapshotId (s : String) : Bool :=
  s.toList.take 4 = ['B', 'P', 'S', '-'] && (s.toList.drop 4).length = 32 &&
    (s.toList.drop 4).all isHexChar

def assertPattern (value : Raw) (path : String) (pattern : String → Bool) (description : String) :
    Check String :=
  match value with
  | .str s =>
    if pattern s then .ok s else invalid path .format ("must be " ++ description)
  | _ => invalid path .format ("must be " ++ description)

theorem assertPattern_eq_ok {description : String} {pat : String → Bool} :
    assertPattern value path pat description = .ok s ↔ value = .str s ∧ pat s := by
  cases value with
  | str t =>
    simp only [assertPattern, str.injEq]
    split
    · constructor
      · intro h; cases h; exact ⟨rfl, ‹_›⟩
      · rintro ⟨rfl, -⟩; rfl
    · simp only [invalid_eq_ok, false_iff]
      rintro ⟨rfl, hp⟩
      exact absurd hp ‹_›
  | null | bool | num | arr | obj => simp [assertPattern]

/-! ## Enumerations, numbers and arrays -/

def assertEnum {α : Type} (value : Raw) (allowed : List (String × α)) (path : String) : Check α :=
  match value with
  | .str s => match allowed.lookup s with
    | some a => .ok a
    | none => invalid path .enum ("must be one of: " ++ ", ".intercalate (allowed.map Prod.fst))
  | _ => invalid path .enum ("must be one of: " ++ ", ".intercalate (allowed.map Prod.fst))

theorem assertEnum_eq_ok {α : Type} {allowed : List (String × α)} {a : α} :
    assertEnum value allowed path = .ok a ↔
      ∃ s, value = .str s ∧ allowed.lookup s = some a := by
  cases value with
  | str s => cases h : allowed.lookup s <;> simp [assertEnum, h]
  | null | bool | num | arr | obj => simp [assertEnum]

def assertInteger (value : Raw) (path : String) (minimum maximum : Nat) : Check Nat :=
  match value with
  | .num n =>
    if (minimum : Int) ≤ n ∧ n ≤ maximum then .ok n.toNat
    else invalid path .integerRange
      ("must be an integer from " ++ toString minimum ++ " to " ++ toString maximum)
  | _ => invalid path .integerRange
      ("must be an integer from " ++ toString minimum ++ " to " ++ toString maximum)

theorem assertInteger_eq_ok {n : Nat} : assertInteger value path min max = .ok n ↔
      value = .num n ∧ min ≤ n ∧ n ≤ max := by
  cases value with
  | num m =>
    simp only [assertInteger, num.injEq]
    split
    · simp only [Except.ok.injEq]
      omega
    · simp only [invalid_eq_ok, false_iff]
      omega
  | null | bool | str | arr | obj => simp [assertInteger]

def assertBoolean (value : Raw) (path : String) : Check Bool :=
  match value with
  | .bool b => .ok b
  | _ => invalid path .type "must be boolean"

theorem assertBoolean_eq_ok {b : Bool} : assertBoolean value path = .ok b ↔ value = .bool b := by
  cases value <;> simp [assertBoolean]

def assertArray (value : Raw) (path : String) (minimum maximum : Nat) : Check (List Raw) :=
  match value with
  | .arr xs => do
    ensure (minimum ≤ xs.length ∧ xs.length ≤ maximum) ⟨path, .arrayLimit,
      "must contain from " ++ toString minimum ++ " to " ++ toString maximum ++ " items"⟩
    return xs
  | _ => invalid path .type "must be an array"

theorem assertArray_eq_ok {xs : List Raw} : assertArray value path min max = .ok xs ↔
      value = .arr xs ∧ min ≤ xs.length ∧ xs.length ≤ max := by
  cases value with
  | arr ys =>
    simp only [assertArray, chain_eq_ok, arr.injEq]
    constructor
    · rintro ⟨h, rfl⟩; exact ⟨rfl, h⟩
    · rintro ⟨rfl, h⟩; exact ⟨h, rfl⟩
  | null | bool | num | str | obj => simp [assertArray]

/-- Read every element; `read` is given the element's index. -/
def readEach {α : Type} (read : Nat → Raw → Check α) : Nat → List Raw → Check (List α)
  | _, [] => .ok []
  | i, x :: xs => do
    let a ← read i x
    let as ← readEach read (i + 1) xs
    return a :: as

theorem readEach_eq_ok {α : Type} {read : Nat → Raw → Check α} {R : Raw → α → Prop}
    (hrd : ∀ i x a, read i x = .ok a ↔ R x a) {i : Nat} {xs : List Raw} {as : List α} :
    readEach read i xs = .ok as ↔ Forall₂ R xs as := by
  induction xs generalizing i as with
  | nil => cases as <;> simp [readEach]
  | cons x xs ih =>
    simp only [readEach, chain_eq_ok, hrd, ih, forall₂_cons_left_iff]
    constructor
    · rintro ⟨a, ha, l, hl, rfl⟩
      exact ⟨a, l, ha, hl, rfl⟩
    · rintro ⟨a, l, ha, hl, rfl⟩
      exact ⟨a, ha, l, hl, rfl⟩

def normalizeUniqueRefs (value : Raw) (path : String) (minimum maximum : Nat) :
    Check (List String) := do
  let input ← assertArray value path minimum maximum
  let normalized ← readEach
    (fun i entry => assertRef entry (path ++ "[" ++ toString i ++ "]")) 0 input
  ensure normalized.Nodup ⟨path, .duplicate, "must contain unique references"⟩
  return normalized.insertionSort (· ≤ ·)

/-- `value` reads as the reference `s`. -/
def ReadsRef (value : Raw) (s : String) : Prop := ∃ t, value = .str t ∧ trim t = s ∧ IsRef s

end Orquesta.Contract
