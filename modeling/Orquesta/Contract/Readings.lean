import Orquesta.Contract.Shape

/-!
# What the normaliser reads

For every part of a plan, the raw values its normaliser accepts and the value it
returns for them: a relation `Reads… raw v`, equivalent to the normaliser's success
whatever path it is called with.

Each relation is a `Reading`: a value that was read renders to a raw value that reads
as itself, differs from what was read only by order and white space, and stays within
a fixed depth.  The plan's own reading is put together from these.

## Main definitions

* `Reading R toJson depth`
* `ReadsString`, `ReadsContentRef`, `ReadsCriterion`, `ReadsBranch`, …

## Main results

* `normalizeContentRef_eq_ok`, `normalizeBranch_eq_ok`, …: success is the relation
* the relations as instances of `Reading`
-/

namespace Orquesta.Contract

open Checked CONTRACT_LIMITS List Prod Enumeration Json

variable {α β : Type}

/-- `t` is `s` without the white space around it. -/
abbrev TrimsTo (s t : String) : Prop := trim s = t

/-- `R` reads raw values as what `toJson` renders, up to white space and order. -/
class Reading (R : Raw → α → Prop) (toJson : outParam (α → Raw)) (depth : outParam Nat) : Prop where
  again : ∀ {raw v}, R raw v → R (toJson v) v
  alike : ∀ {raw v}, R raw v → raw.WellFormed → raw.Alike TrimsTo (toJson v)
  shape : ∀ {raw v}, R raw v → ∀ {d}, depth ≤ d → Shape fitsText (toJson v) d

/-! ## Leaves -/

def ReadsString (maximumBytes : Nat) (raw : Raw) (s : String) : Prop :=
  ∃ t, raw = .str t ∧ trim t = s ∧ s ≠ "" ∧ s.utf8ByteSize ≤ maximumBytes

theorem readsString_reading {maximumBytes : Nat} (h : maximumBytes ≤ maxTextBytes * 2) :
    Reading (ReadsString maximumBytes) .str 0 where
  again := by
    rintro _ _ ⟨t, -, rfl, hne, hle⟩
    exact ⟨_, rfl, trim_trim t, hne, hle⟩
  alike := by
    rintro _ _ ⟨t, rfl, rfl, -, -⟩ -
    exact .str rfl
  shape := by
    rintro _ _ ⟨t, -, rfl, -, hle⟩ d -
    exact .str (decide_eq_true (hle.trans h))

instance : Reading ReadsRef .str 0 where
  again := by
    rintro _ _ ⟨t, -, rfl, href⟩
    exact ⟨_, rfl, trim_trim t, href⟩
  alike := by
    rintro _ _ ⟨t, rfl, rfl, -⟩ -
    exact .str rfl
  shape := by
    rintro _ _ ⟨t, -, rfl, href⟩ d -
    exact .str (decide_eq_true (href.2.trans (by decide)))

def ReadsPattern (pattern : String → Bool) (raw : Raw) (s : String) : Prop :=
  raw = .str s ∧ pattern s

variable {c : Char}

/-- A character of one byte that is neither white space nor escaped. -/
def IsPlain (c : Char) : Prop :=
  isWhiteSpace c = false ∧ c.utf8Size = 1 ∧ escapeChar c = String.singleton c
deriving Decidable

theorem isPlain_of_isHexChar (h : isHexChar c) : IsPlain c := by
  have hall : ∀ n ∈ range' 97 6 ++ range' 48 10, IsPlain (Char.ofNat n) := by decide
  simp only [isHexChar, Bool.or_eq_true, Bool.and_eq_true, decide_eq_true_eq, Char.le_def,
    UInt32.le_iff_toNat_le] at h
  change (97 ≤ c.toNat ∧ c.toNat ≤ 102) ∨ 48 ≤ c.toNat ∧ c.toNat ≤ 57 at h
  rw [← Char.ofNat_toNat c]
  refine hall _ ?_
  simp only [mem_append, mem_range'_1]
  omega

/-- A text without white space, one byte to a character and without escapes. -/
structure PlainText (s : String) (bytes : Nat) : Prop where
  trim : trim s = s
  size : s.utf8ByteSize = bytes
  quoted : (quote s).utf8ByteSize = bytes + 2

variable {s path : String}

theorem PlainText.of_chars (h : ∀ c ∈ s.toList, IsPlain c) : PlainText s s.toList.length := by
  have hsz := utf8ByteSize_of_ascii fun c hc => (h c hc).2.1
  refine ⟨trim_of_forall fun c hc => (h c hc).1, hsz, ?_⟩
  rw [utf8ByteSize_quote fun c hc => (h c hc).2.2, hsz]

theorem plainText_of_isSha256 (h : isSha256 s) : PlainText s 64 := by
  simp only [isSha256, Bool.and_eq_true, all_eq_true, decide_eq_true_eq] at h
  exact h.1 ▸ .of_chars fun c hc => isPlain_of_isHexChar (h.2 c hc)

/-- A few characters that need no escape, then 32 hexadecimal digits. -/
theorem plainText_of_head (head : List Char) (hplain : head.Forall IsPlain)
    (h : s.toList.take head.length = head ∧ (s.toList.drop head.length).length = 32 ∧
      ∀ c ∈ s.toList.drop head.length, isHexChar c) : PlainText s (head.length + 32) := by
  obtain ⟨hhe, hlen, htail⟩ := h
  have hsp := take_append_drop head.length s.toList
  have hln : s.toList.length = head.length + 32 := by
    rw [← hsp, length_append, hhe, hlen]
  refine hln ▸ .of_chars fun c hc => ?_
  rw [← hsp, mem_append, hhe] at hc
  rcases hc with hc | hc
  · exact forall_iff_forall_mem.mp hplain c hc
  · exact isPlain_of_isHexChar (htail c hc)

theorem plainText_of_isPlanSnapshotId (h : isPlanSnapshotId s) :
    PlainText s 36 := by
  simp only [isPlanSnapshotId, Bool.and_eq_true, all_eq_true, decide_eq_true_eq] at h
  exact plainText_of_head ['B', 'P', 'S', '-'] (by decide) ⟨h.1.1, h.1.2, h.2⟩

theorem readsPattern_reading {pat : String → Bool}
    (h : ∀ s, pat s → trim s = s ∧ s.utf8ByteSize ≤ maxTextBytes * 2) :
    Reading (ReadsPattern pat) .str 0 where
  again h := ⟨rfl, h.2⟩
  alike := by
    rintro _ s ⟨rfl, hp⟩ -
    exact .str (h s hp).1
  shape := by
    rintro _ s ⟨-, hp⟩ d -
    exact .str (decide_eq_true (h s hp).2)

instance : Reading (ReadsPattern isSha256) .str 0 :=
  readsPattern_reading fun _ h =>
    ⟨(plainText_of_isSha256 h).trim, (plainText_of_isSha256 h).size ▸ by decide⟩

instance : Reading (ReadsPattern isPlanSnapshotId) .str 0 :=
  readsPattern_reading fun _ h =>
    ⟨(plainText_of_isPlanSnapshotId h).trim, (plainText_of_isPlanSnapshotId h).size ▸ by decide⟩

def ReadsEnum [Enumeration α] (raw : Raw) (a : α) : Prop := raw = toJson a

variable {raw : Raw}

theorem assertEnum_names_eq_ok [Enumeration α] {a : α} :
    assertEnum raw (names α) path = .ok a ↔ ReadsEnum raw a := by
  rw [assertEnum_eq_ok, ReadsEnum, toJson]
  simp only [lookup_names, exists_eq_right']

instance [Enumeration α] : Reading (ReadsEnum (α := α)) toJson 0 where
  again _ := rfl
  alike := by
    rintro _ a rfl -
    exact .str (trim_name a)
  shape _ _ _ := .str (fits_name _)

def ReadsNat (minimum maximum : Nat) (raw : Raw) (n : Nat) : Prop :=
  raw = .num n ∧ minimum ≤ n ∧ n ≤ maximum

variable {minimum maximum i : Nat}

instance : Reading (ReadsNat minimum maximum) natJson 0 where
  again h := ⟨rfl, h.2⟩
  alike := by
    rintro _ n ⟨rfl, -⟩ -
    exact .num _
  shape _ _ _ := .num

def ReadsBool (raw : Raw) (b : Bool) : Prop := raw = .bool b

instance : Reading ReadsBool .bool 0 where
  again _ := rfl
  alike := by
    rintro _ b rfl -
    exact .bool b
  shape _ _ _ := .bool

/-- `R`, or `null`. -/
def ReadsNullable (R : Raw → α → Prop) (raw : Raw) : Option α → Prop
  | none => raw = .null
  | some a => R raw a

variable {R : Raw → α → Prop}

theorem assertNullable_eq_ok {read : Raw → Check α}
    (hrd : ∀ raw a, read raw = .ok a ↔ R raw a) (hnull : ∀ a, ¬ R .null a) {o : Option α} :
    assertNullable read raw = .ok o ↔ ReadsNullable R raw o := by
  cases raw with
  | null => cases o <;> simp [assertNullable, ReadsNullable, hnull]
  | bool | num | str | arr | obj =>
    simp only [assertNullable, map_eq_ok, hrd]
    cases o <;> simp [ReadsNullable]

variable {toJson : α → Raw}

instance {depth : Nat} [h : Reading R toJson depth] :
    Reading (ReadsNullable R) (nullableJson toJson) depth where
  again := by
    rintro raw (_ | a) hr
    · rfl
    · exact h.again hr
  alike := by
    rintro raw (_ | a) hr hwf
    · obtain rfl : raw = .null := hr
      exact .null
    · exact h.alike hr hwf
  shape := by
    rintro raw (_ | a) hr d hd
    · exact .null
    · exact h.shape hr hd

/-! ## Arrays -/

theorem exists_of_forall₂ {R : β → α → Prop} {xs : List β} {us : List α}
    (h : Forall₂ R xs us) {u : α} (hu : u ∈ us) : ∃ x ∈ xs, R x u := by
  induction h with
  | nil => cases hu
  | cons hr _ ih =>
    rcases mem_cons.mp hu with rfl | hu
    · exact ⟨_, mem_cons_self, hr⟩
    · obtain ⟨x, hx, hr⟩ := ih hu
      exact ⟨x, mem_cons_of_mem _ hx, hr⟩

namespace Reading

variable {R : Raw → α → Prop} {toJson : α → Raw} {depth : Nat} [h : Reading R toJson depth]
  {xs : List Raw} {us vs : List α}
include h

theorem forall₂_again (hrd : Forall₂ R xs us) (hpm : vs.Perm us) :
    Forall₂ R (vs.map toJson) vs := by
  rw [forall₂_map_left_iff, forall₂_same]
  intro v hv
  obtain ⟨raw, -, hr⟩ := exists_of_forall₂ hrd (hpm.subset hv)
  exact h.again hr

theorem alike_arr (hrd : Forall₂ R xs us) (hpm : vs.Perm us) (hwf : (Json.arr xs).WellFormed) :
    (Json.arr xs).Alike TrimsTo (.arr (vs.map toJson)) := by
  refine Json.alike_arr.mpr ⟨us.map toJson, ?_, (hpm.map toJson).symm⟩
  rw [forall₂_map_right_iff]
  exact forall₂_iff_zip.mpr ⟨hrd.length_eq, fun hxu =>
    h.alike ((forall₂_iff_zip.mp hrd).2 hxu) (hwf.elem (of_mem_zip hxu).1)⟩

theorem shape_arr (hrd : Forall₂ R xs us) (hpm : vs.Perm us) (hlen : xs.length ≤ MAX_ARRAY_ITEMS)
    {d : Nat} (hd : depth + 1 ≤ d) : Shape fitsText (.arr (vs.map toJson)) d := by
  refine (Shape.arr ?_ (forall_mem_map.mpr fun v hv => ?_)).mono hd
  · rwa [length_map, hpm.length_eq, ← hrd.length_eq]
  · obtain ⟨raw, -, hr⟩ := exists_of_forall₂ hrd (hpm.subset hv)
    exact h.shape hr le_rfl

end Reading

/-- The elements of an array, read by `R`, that meet `ok` and are then sorted by `le`. -/
def ReadsSorted (minimum maximum : Nat) (R : Raw → α → Prop) (ok : List α → Prop)
    (le : α → α → Prop) [DecidableRel le] (raw : Raw) (vs : List α) : Prop :=
  ∃ xs us, raw = .arr xs ∧ (minimum ≤ xs.length ∧ xs.length ≤ maximum) ∧ Forall₂ R xs us ∧
    ok us ∧ us.insertionSort le = vs

theorem ReadsSorted.ok {ok : List α → Prop}
    {le : α → α → Prop} [DecidableRel le] (hpm : ∀ us vs, us.Perm vs → ok us → ok vs)
    {vs : List α} (h : ReadsSorted minimum maximum R ok le raw vs) : ok vs := by
  obtain ⟨_, us, _, _, _, hok, rfl⟩ := h
  exact hpm _ _ (perm_insertionSort le us).symm hok

section ReadsSorted

variable {ok : List α → Prop} {le : α → α → Prop} [DecidableRel le] {vs : List α}
  (h : ReadsSorted minimum maximum R ok le raw vs)
include h

theorem ReadsSorted.forall {v : α} (hv : v ∈ vs) : ∃ x, R x v := by
  obtain ⟨xs, us, -, -, hrd, -, rfl⟩ := h
  obtain ⟨x, -, hx⟩ := exists_of_forall₂ hrd ((perm_insertionSort le us).mem_iff.mp hv)
  exact ⟨x, hx⟩

theorem ReadsSorted.length : minimum ≤ vs.length ∧ vs.length ≤ maximum := by
  obtain ⟨xs, us, -, hlen, hrd, -, rfl⟩ := h
  rwa [length_insertionSort, ← hrd.length_eq]

end ReadsSorted

theorem readsSorted_reading {ok : List α → Prop}
    {le : α → α → Prop} [DecidableRel le] [Std.Total le] [IsTrans α le]
    {depth : Nat} [Reading R toJson depth]
    (hpm : ∀ us vs, us.Perm vs → ok us → ok vs)
    (hmax : maximum ≤ MAX_ARRAY_ITEMS) : Reading (ReadsSorted minimum maximum R ok le)
      (fun vs => .arr (vs.map toJson)) (depth + 1) where
  again := by
    rintro _ _ ⟨xs, us, -, hlen, hrd, hok, rfl⟩
    have hp := perm_insertionSort le us
    refine ⟨_, us.insertionSort le, rfl, ?_, Reading.forall₂_again hrd hp, hpm _ _ hp.symm hok,
      (pairwise_insertionSort le us).insertionSort_eq⟩
    rwa [length_map, hp.length_eq, ← hrd.length_eq]
  alike := by
    rintro _ _ ⟨xs, us, rfl, -, hrd, -, rfl⟩ hwf
    exact Reading.alike_arr hrd (perm_insertionSort le us) hwf
  shape := by
    rintro _ _ ⟨xs, us, -, ⟨-, hlen⟩, hrd, -, rfl⟩ d hd
    exact Reading.shape_arr hrd (perm_insertionSort le us) (hlen.trans hmax) hd

theorem readsRefs_reading (hmax : maximum ≤ MAX_ARRAY_ITEMS) :
    Reading (ReadsSorted minimum maximum ReadsRef Nodup (· ≤ ·)) refsJson 1 :=
  readsSorted_reading (fun _ _ hp => hp.nodup_iff.mp) hmax

theorem normalizeUniqueRefs_eq_ok {v : Raw} {refs : List Ref} :
    normalizeUniqueRefs v path minimum maximum = .ok refs ↔
      ReadsSorted minimum maximum ReadsRef Nodup (· ≤ ·) v refs := by
  simp only [normalizeUniqueRefs, chain_eq_ok, assertArray_eq_ok,
    readEach_eq_ok (R := ReadsRef) fun _ _ _ => assertRef_eq_ok]
  constructor
  · rintro ⟨xs, ⟨rfl, hlen⟩, us, hrd, hnd, rfl⟩
    exact ⟨xs, us, rfl, hlen, hrd, hnd, rfl⟩
  · rintro ⟨xs, us, rfl, hlen, hrd, hnd, rfl⟩
    exact ⟨xs, ⟨rfl, hlen⟩, us, hrd, hnd, rfl⟩

/-! ## Objects -/

/-- An object with exactly the members `names`. -/
structure HasMembers (names : List String) (raw : Raw) (ms : List (String × Raw)) : Prop where
  eq : raw = .obj ms
  allowed : ∀ m ∈ ms, m.1 ∈ names
  required : ∀ name ∈ names, name ∈ ms.map fst

variable {ms : List (String × Raw)}

theorem assertExactFields_eq_ok' {ns : List String} :
    assertExactFields raw ns ns path = .ok ms ↔ HasMembers ns raw ms := by
  rw [assertExactFields_eq_ok]
  exact ⟨fun ⟨h₁, h₂, h₃⟩ => ⟨h₁, h₂, h₃⟩, fun h => ⟨h.eq, h.allowed, h.required⟩⟩

/-- `json` renders what was read from `raw`. -/
structure Renders (depth : Nat) (raw json : Raw) : Prop where
  alike : raw.WellFormed → raw.Alike TrimsTo json
  shape : Shape fitsText json depth

theorem Reading.renders {depth d : Nat} [h : Reading R toJson depth] {v : α} {json : Raw}
    (hr : R raw v) (hd : depth ≤ d := by decide) (heq : toJson v = json := by rfl) :
    Renders d raw json :=
  heq ▸ ⟨h.alike hr, h.shape hr hd⟩

namespace HasMembers

variable {ns : List String} {raw : Raw} {ms : List (String × Raw)}

theorem wellFormed_field (h : HasMembers ns raw ms) (hwf : raw.WellFormed) {n : String}
    (hn : n ∈ ns) : (field ms n).WellFormed := by
  rw [h.eq] at hwf
  exact hwf.member (lookup_field (h.required n hn))

theorem length_eq (h : HasMembers ns raw ms) (hnd : ns.Nodup) (hwf : raw.WellFormed) :
    ms.length = ns.length := by
  rw [h.eq] at hwf
  have h₁ := (hwf.names.subperm fun _ hk => by
    obtain ⟨m, hm, rfl⟩ := mem_map.mp hk
    exact h.allowed m hm).length_le
  have h₂ := (hnd.subperm fun _ hk => h.required _ hk).length_le
  rw [length_map] at h₁ h₂
  omega

/-- The weight of such an object, field by field. -/
theorem weigh (h : HasMembers ns raw ms) (hnd : ns.Nodup) (hwf : raw.WellFormed) (w : Weights Int) :
    raw.weigh w = w.obj ns.length + (ns.map fun k => w.name k + (field ms k).weigh w).sum := by
  have hlen := h.length_eq hnd hwf
  rw [h.eq] at hwf ⊢
  rw [weigh_obj_of_names w hnd hwf.names h.allowed, hlen]
  congr 2
  refine map_congr_left fun k hk => ?_
  rw [lookup_field (h.required k hk)]
  rfl

/-- An object of which each member renders a field. -/
theorem alike (h : HasMembers ns raw ms) (hnd : ns.Nodup) (hwf : raw.WellFormed)
    {ms' : List (String × Raw)} (hnms : ms'.map fst = ns) {depth : Nat}
    (hfs : ms'.Forall fun m => Renders depth (field ms m.1) m.2) :
    raw.Alike TrimsTo (.obj ms') := by
  have hfd' {k} (hk : k ∈ ns) := h.wellFormed_field hwf hk
  obtain ⟨rfl, halw, hreq⟩ := h
  refine .obj ?_ fun {k v w} hv hw => ?_
  · rw [hnms]
    exact (perm_ext_iff_of_nodup hwf.names hnd).mpr fun k =>
      ⟨fun hk => by obtain ⟨m, hm, rfl⟩ := mem_map.mp hk; exact halw m hm, hreq k⟩
  · have hm := mem_of_lookup hw
    have hk : k ∈ ns := hnms ▸ mem_map_of_mem hm
    rw [lookup_field (hreq k hk)] at hv
    cases hv
    exact (forall_iff_forall_mem.mp hfs _ hm).alike (hfd' hk)

theorem of_names {ms : List (String × Raw)} (h : ms.map fst = ns) : HasMembers ns (.obj ms) ms :=
  ⟨rfl, fun _ hm => h ▸ mem_map_of_mem hm, fun _ hn => h ▸ hn⟩

end HasMembers

/-- An object reads as what it renders if each of its fields does. -/
theorem reading_obj (ns : List String) {members : α → List (String × Raw)} {depth : Nat}
    (hnd : ns.Nodup) (hnms : ∀ v, (members v).map fst = ns)
    (h : ∀ raw v, R raw v → R (.obj (members v)) v ∧ ∃ ms, HasMembers ns raw ms ∧
      (members v).Forall fun m => Renders depth (field ms m.1) m.2) :
    Reading R (fun v => .obj (members v)) (depth + 1) where
  again hr := (h _ _ hr).1
  alike := by
    intro raw v hr hwf
    obtain ⟨-, ms, hms, hfs⟩ := h raw v hr
    exact hms.alike hnd hwf (hnms v) hfs
  shape := by
    intro raw v hr d hd
    obtain ⟨-, ms, -, hfs⟩ := h raw v hr
    exact (Shape.obj (hfs.imp fun _ hm => hm.shape)).mono hd

open Reading (again renders)

/-! ## Content references -/

def ReadsContentRef (raw : Raw) (r : ContentRef) : Prop :=
  ∃ ms, HasMembers CONTENT_REF_FIELDS raw ms ∧ ReadsRef (field ms "id") r.id ∧
    ReadsPattern isSha256 (field ms "hash") r.hash

theorem normalizeContentRef_eq_ok {r : ContentRef} :
    normalizeContentRef raw path = .ok r ↔ ReadsContentRef raw r := by
  simp only [normalizeContentRef, chain_eq_ok, assertExactFields_eq_ok', assertRef_eq_ok,
    assertPattern_eq_ok, ReadsContentRef, ReadsPattern, ReadsRef]
  constructor
  · rintro ⟨ms, hms, id, hid, hash, hh, rfl⟩
    exact ⟨ms, hms, hid, hh⟩
  · rintro ⟨ms, hms, hid, hh⟩
    exact ⟨ms, hms, r.id, hid, r.hash, hh, rfl⟩

instance : Reading ReadsContentRef contentRefJson 1 := by
  refine reading_obj CONTENT_REF_FIELDS (by decide) (fun _ => rfl) ?_
  rintro raw r ⟨ms, hms, hid, hh⟩
  exact ⟨⟨_, .of_names rfl, again hid, again hh⟩, ms, hms, renders hid, renders hh⟩

/-! ## Acceptance policy -/

def ReadsRequirement (raw : Raw) (r : VerificationRequirement) : Prop :=
  ∃ ms, HasMembers VERIFICATION_REQUIREMENT_FIELDS raw ms ∧ ReadsEnum (field ms "kind") r.kind ∧
    ReadsContentRef (field ms "verification_ref") r.verificationRef

theorem normalizeVerificationRequirement_eq_ok {r : VerificationRequirement} :
    normalizeVerificationRequirement raw path = .ok r ↔ ReadsRequirement raw r := by
  simp only [normalizeVerificationRequirement, chain_eq_ok, assertExactFields_eq_ok',
    assertEnum_names_eq_ok, normalizeContentRef_eq_ok, ReadsRequirement]
  constructor
  · rintro ⟨ms, hms, kind, hk, ref, href, rfl⟩
    exact ⟨ms, hms, hk, href⟩
  · rintro ⟨ms, hms, hk, href⟩
    exact ⟨ms, hms, r.kind, hk, r.verificationRef, href, rfl⟩

instance : Reading ReadsRequirement requirementJson 2 := by
  refine reading_obj VERIFICATION_REQUIREMENT_FIELDS (by decide) (fun _ => rfl) ?_
  rintro raw r ⟨ms, hms, hk, href⟩
  exact ⟨⟨_, .of_names rfl, again hk, again href⟩, ms, hms, renders hk, renders href⟩

/-- What a verification mode asks of the requirements as a whole. -/
def RequirementsOk (mode : AcceptanceVerification) (rs : List VerificationRequirement) : Prop :=
  (rs.map (·.verificationRef.id)).Nodup ∧ mode.Matches rs

variable {mode : AcceptanceVerification} {rs : List VerificationRequirement}

theorem matches_perm {rs' : List VerificationRequirement}
    (hp : rs.Perm rs') (h : mode.Matches rs) : mode.Matches rs' := by
  simpa only [AcceptanceVerification.Matches, (hp.filter _).length_eq, hp.length_eq] using h

theorem RequirementsOk.perm {rs' : List VerificationRequirement}
    (hp : rs.Perm rs') (h : RequirementsOk mode rs) : RequirementsOk mode rs' :=
  ⟨(hp.map _).nodup_iff.mp h.1, matches_perm hp h.2⟩

abbrev ReadsRequirements (mode : AcceptanceVerification) :
    Raw → List VerificationRequirement → Prop :=
  ReadsSorted 1 maxVerificationRequirementsPerCriterion ReadsRequirement (RequirementsOk mode)
    requirementLe

theorem normalizeVerificationRequirements_eq_ok :
    normalizeVerificationRequirements raw path mode = .ok rs ↔ ReadsRequirements mode raw rs := by
  simp only [normalizeVerificationRequirements, chain_eq_ok, assertArray_eq_ok,
    readEach_eq_ok (R := ReadsRequirement) fun _ _ _ => normalizeVerificationRequirement_eq_ok]
  constructor
  · rintro ⟨xs, ⟨rfl, hlen⟩, us, hrd, hnd, hmode, rfl⟩
    exact ⟨xs, us, rfl, hlen, hrd, ⟨hnd, hmode⟩, rfl⟩
  · rintro ⟨xs, us, rfl, hlen, hrd, ⟨hnd, hmode⟩, rfl⟩
    exact ⟨xs, ⟨rfl, hlen⟩, us, hrd, hnd, hmode, rfl⟩

instance : Std.Total requirementLe where
  total a b := by
    rcases lt_trichotomy a.verificationRef.id b.verificationRef.id with h | h | h
    · exact Or.inl (Or.inl h)
    · rcases le_total (name a.kind) (name b.kind) with hk | hk
      · exact Or.inl (Or.inr ⟨h, hk⟩)
      · exact Or.inr (Or.inr ⟨h.symm, hk⟩)
    · exact Or.inr (Or.inl h)

instance : IsTrans VerificationRequirement requirementLe where
  trans a b c := by
    rintro (h | ⟨h, hk⟩) (h' | ⟨h', hk'⟩)
    · exact Or.inl (h.trans h')
    · exact Or.inl (h' ▸ h)
    · exact Or.inl (h ▸ h')
    · exact Or.inr ⟨h.trans h', hk.trans hk'⟩

instance : Reading (ReadsRequirements mode) (fun rs => .arr (rs.map requirementJson)) 3 :=
  readsSorted_reading (fun _ _ hp h => h.perm hp) (by decide)

def ReadsCriterion (raw : Raw) (c : AcceptanceCriterion) : Prop :=
  ∃ ms, HasMembers ACCEPTANCE_CRITERION_FIELDS raw ms ∧
    ReadsRef (field ms "criterion_id") c.criterionId ∧
    ReadsString 8192 (field ms "description") c.description ∧
    ReadsEnum (field ms "verification") c.verification ∧
    ReadsRequirements c.verification (field ms "verification_requirements")
      c.verificationRequirements

theorem normalizeAcceptanceCriterion_eq_ok {c : AcceptanceCriterion} :
    normalizeAcceptanceCriterion i raw = .ok c ↔ ReadsCriterion raw c := by
  simp only [normalizeAcceptanceCriterion, chain_eq_ok, assertExactFields_eq_ok',
    assertEnum_names_eq_ok, assertRef_eq_ok, assertString_eq_ok,
    normalizeVerificationRequirements_eq_ok]
  constructor
  · rintro ⟨ms, hms, mode, hmode, id, hid, t, htx, rs, hrs, rfl⟩
    exact ⟨ms, hms, hid, htx, hmode, hrs⟩
  · rintro ⟨ms, hms, hid, htx, hmode, hrs⟩
    exact ⟨ms, hms, _, hmode, _, hid, _, htx, _, hrs, rfl⟩

instance : Reading (ReadsString 8192) .str 0 := readsString_reading (by decide)

instance : Reading ReadsCriterion AcceptanceCriterion.toJson 4 := by
  refine reading_obj ACCEPTANCE_CRITERION_FIELDS (by decide) (fun _ => rfl) ?_
  rintro raw c ⟨ms, hms, hid, htx, hmode, hrs⟩
  exact ⟨⟨_, .of_names rfl, again hid, again htx, again hmode, again hrs⟩, ms, hms, renders hid,
    renders htx, renders hmode, renders hrs⟩

abbrev ReadsCriteria : Raw → List AcceptanceCriterion → Prop :=
  ReadsSorted 1 maxAcceptanceCriteria ReadsCriterion
    (fun cs => (cs.map AcceptanceCriterion.criterionId).Nodup)
    (fun a b => a.criterionId ≤ b.criterionId)

instance : Reading ReadsCriteria (fun cs => .arr (cs.map AcceptanceCriterion.toJson)) 5 :=
  have : Std.Total fun a b : AcceptanceCriterion => a.criterionId ≤ b.criterionId :=
    ⟨fun _ _ => le_total _ _⟩
  have : IsTrans AcceptanceCriterion fun a b => a.criterionId ≤ b.criterionId :=
    ⟨fun _ _ _ => le_trans⟩
  readsSorted_reading (fun _ _ hp => (hp.map _).nodup_iff.mp) (by decide)

def ReadsAcceptancePolicy (raw : Raw) (p : AcceptancePolicy) : Prop :=
  ∃ ms, HasMembers ACCEPTANCE_POLICY_FIELDS raw ms ∧
    ReadsCriteria (field ms "criteria") p.criteria ∧
    ReadsEnum (field ms "review_minimum") p.reviewMinimum

theorem normalizeAcceptancePolicy_eq_ok {p : AcceptancePolicy} :
    normalizeAcceptancePolicy raw = .ok p ↔ ReadsAcceptancePolicy raw p := by
  simp only [normalizeAcceptancePolicy, chain_eq_ok, assertExactFields_eq_ok', assertArray_eq_ok,
    readEach_eq_ok (R := ReadsCriterion) fun _ _ _ => normalizeAcceptanceCriterion_eq_ok,
    assertUniqueField, assertEnum_names_eq_ok]
  constructor
  · rintro ⟨ms, hms, xs, ⟨hxs, hlen⟩, us, hrd, hnd, minimum, hmin, rfl⟩
    exact ⟨ms, hms, ⟨xs, us, hxs, hlen, hrd, hnd, rfl⟩, hmin⟩
  · rintro ⟨ms, hms, ⟨xs, us, hxs, hlen, hrd, hnd, hsort⟩, hmin⟩
    exact ⟨ms, hms, xs, ⟨hxs, hlen⟩, us, hrd, hnd, _, hmin, by rw [hsort]⟩

instance : Reading ReadsAcceptancePolicy AcceptancePolicy.toJson 6 := by
  refine reading_obj ACCEPTANCE_POLICY_FIELDS (by decide) (fun _ => rfl) ?_
  rintro raw p ⟨ms, hms, hcs, hmin⟩
  exact ⟨⟨_, .of_names rfl, again hcs, again hmin⟩, ms, hms, renders hcs, renders hmin⟩

/-! ## Retry, lease and provider policy -/

theorem normalizeRetryableObservation_eq_ok {o : RetryableObservation} :
    normalizeRetryableObservation i raw = .ok o ↔ ReadsEnum raw o := by
  unfold normalizeRetryableObservation
  split
  · simp only [invalid_eq_ok, false_iff]
    cases o
    exact fun h => absurd (str.inj h) (by decide)
  · exact assertEnum_names_eq_ok

def ReadsRetryable (raw : Raw) (os : List RetryableObservation) : Prop :=
  ∃ xs, raw = .arr xs ∧ xs.length ≤ 1 ∧ Forall₂ ReadsEnum xs os ∧ os.Nodup

instance : Reading ReadsRetryable (fun os => .arr (os.map Enumeration.toJson)) 1 where
  again := by
    rintro _ os ⟨xs, -, hlen, hrd, hnd⟩
    refine ⟨_, rfl, ?_, Reading.forall₂_again hrd (.refl os), hnd⟩
    rwa [length_map, ← hrd.length_eq]
  alike := by
    rintro _ os ⟨xs, rfl, -, hrd, -⟩ hwf
    exact Reading.alike_arr hrd (.refl os) hwf
  shape := by
    rintro _ os ⟨xs, -, hlen, hrd, -⟩ d hd
    exact Reading.shape_arr hrd (.refl os) (hlen.trans (by decide)) hd

def ReadsRetryPolicy (raw : Raw) (r : RetryPolicy) : Prop :=
  ∃ ms, HasMembers RETRY_POLICY_FIELDS raw ms ∧
    ReadsNat 1 5 (field ms "max_attempts") r.maxAttempts ∧
    ReadsNat 1000 86400000 (field ms "attempt_timeout_ms") r.attemptTimeoutMs ∧
    ReadsNat 1000 604800000 (field ms "max_elapsed_ms") r.maxElapsedMs ∧
    ReadsNat 0 3600000 (field ms "backoff_initial_ms") r.backoffInitialMs ∧
    ReadsNat 0 86400000 (field ms "backoff_max_ms") r.backoffMaxMs ∧
    ReadsRetryable (field ms "retryable_observations") r.retryableObservations ∧
    r.attemptTimeoutMs ≤ r.maxElapsedMs ∧ r.backoffInitialMs ≤ r.backoffMaxMs

theorem normalizeRetryPolicy_eq_ok {r : RetryPolicy} :
    normalizeRetryPolicy raw = .ok r ↔ ReadsRetryPolicy raw r := by
  simp only [normalizeRetryPolicy, chain_eq_ok, assertExactFields_eq_ok', assertArray_eq_ok,
    readEach_eq_ok (R := ReadsEnum) fun _ _ _ => normalizeRetryableObservation_eq_ok,
    assertInteger_eq_ok]
  constructor
  · rintro ⟨ms, hms, xs, ⟨hxs, -, hlen⟩, os, hrd, hnd, a, ha, t, ht, e, he, b, hb, m, hm,
      hte, hbm, rfl⟩
    exact ⟨ms, hms, ha, ht, he, hb, hm, ⟨xs, hxs, hlen, hrd, hnd⟩, hte, hbm⟩
  · rintro ⟨ms, hms, ha, ht, he, hb, hm, ⟨xs, hxs, hlen, hrd, hnd⟩, hte, hbm⟩
    exact ⟨ms, hms, xs, ⟨hxs, Nat.zero_le _, hlen⟩, _, hrd, hnd, _, ha, _, ht, _, he, _, hb, _,
      hm, hte, hbm, rfl⟩

instance : Reading ReadsRetryPolicy retryPolicyJson 2 := by
  refine reading_obj RETRY_POLICY_FIELDS (by decide) (fun _ => rfl) ?_
  rintro raw r ⟨ms, hms, ha, ht, he, hb, hm, hos, hru⟩
  exact ⟨⟨_, .of_names rfl, again ha, again ht, again he, again hb, again hm, again hos, hru⟩,
    ms, hms, renders ha, renders ht, renders he, renders hb, renders hm, renders hos⟩

def ReadsLeasePolicy (raw : Raw) (l : LeasePolicy) : Prop :=
  ∃ ms, HasMembers LEASE_POLICY_FIELDS raw ms ∧
    ReadsNat 5000 3600000 (field ms "lease_duration_ms") l.leaseDurationMs ∧
    ReadsNat 1000 600000 (field ms "heartbeat_interval_ms") l.heartbeatIntervalMs ∧
    ReadsNat 1 20 (field ms "max_recovery_probes") l.maxRecoveryProbes ∧
    l.heartbeatIntervalMs < l.leaseDurationMs

theorem normalizeLeasePolicy_eq_ok {l : LeasePolicy} :
    normalizeLeasePolicy raw = .ok l ↔ ReadsLeasePolicy raw l := by
  simp only [normalizeLeasePolicy, chain_eq_ok, assertExactFields_eq_ok', assertInteger_eq_ok]
  constructor
  · rintro ⟨ms, hms, d, hd, b, hb, p, hp, hlt, rfl⟩
    exact ⟨ms, hms, hd, hb, hp, hlt⟩
  · rintro ⟨ms, hms, hd, hb, hp, hlt⟩
    exact ⟨ms, hms, _, hd, _, hb, _, hp, hlt, rfl⟩

instance : Reading ReadsLeasePolicy leasePolicyJson 1 := by
  refine reading_obj LEASE_POLICY_FIELDS (by decide) (fun _ => rfl) ?_
  rintro raw l ⟨ms, hms, hd, hb, hp, hlt⟩
  exact ⟨⟨_, .of_names rfl, again hd, again hb, again hp, hlt⟩, ms, hms, renders hd, renders hb,
    renders hp⟩

def ReadsProviderPolicy (raw : Raw) (p : ProviderPolicy) : Prop :=
  ∃ ms, HasMembers PROVIDER_POLICY_FIELDS raw ms ∧
    ReadsSorted 1 maxProviderRefs ReadsRef Nodup (· ≤ ·) (field ms "allowed_provider_refs")
      p.allowedProviderRefs ∧
    ReadsEnum (field ms "selection") p.selection ∧
    (p.selection = .fixed → p.allowedProviderRefs.length = 1) ∧
    (p.selection = .fallbackAllowed → 2 ≤ p.allowedProviderRefs.length)

theorem normalizeProviderPolicy_eq_ok {p : ProviderPolicy} :
    normalizeProviderPolicy raw = .ok p ↔ ReadsProviderPolicy raw p := by
  simp only [normalizeProviderPolicy, chain_eq_ok, assertExactFields_eq_ok',
    normalizeUniqueRefs_eq_ok, assertEnum_names_eq_ok]
  constructor
  · rintro ⟨ms, hms, refs, hrf, sel, hsel, hfixed, hfallback, rfl⟩
    exact ⟨ms, hms, hrf, hsel, hfixed, hfallback⟩
  · rintro ⟨ms, hms, hrf, hsel, hfixed, hfallback⟩
    exact ⟨ms, hms, _, hrf, _, hsel, hfixed, hfallback, rfl⟩

instance : Reading ReadsProviderPolicy ProviderPolicy.toJson 2 := by
  refine reading_obj PROVIDER_POLICY_FIELDS (by decide) (fun _ => rfl) ?_
  rintro raw p ⟨ms, hms, hrf, hsel, hru⟩
  exact ⟨⟨_, .of_names rfl, (readsRefs_reading (by decide)).again hrf, again hsel, hru⟩, ms,
    hms, (readsRefs_reading (by decide)).renders hrf, renders hsel⟩

/-! ## Branches -/

/-- The rules `normalizeBranch` checks on one branch. -/
structure WorkOrderBranch.Ok (b : WorkOrderBranch) : Prop where
  notSelf : b.branchRef ∉ b.dependencies
  integrationSerial : ¬ (b.role = .integration ∧ b.parallelizable)
  readOnly : b.isolation = .readOnly → b.permissionMode = .readOnly
  isolated : b.parallelizable → b.permissionMode = .workspaceWrite → b.isolation ≠ .readOnly

def ReadsBranch (raw : Raw) (b : WorkOrderBranch) : Prop :=
  ∃ ms, HasMembers BRANCH_FIELDS raw ms ∧ ReadsRef (field ms "branch_ref") b.branchRef ∧
    ReadsContentRef (field ms "task_intent_ref") b.taskIntentRef ∧
    ReadsContentRef (field ms "execution_plan_ref") b.executionPlanRef ∧
    ReadsContentRef (field ms "context_pack_ref") b.contextPackRef ∧
    ReadsSorted 0 maxDependenciesPerBranch ReadsRef Nodup (· ≤ ·) (field ms "dependencies")
      b.dependencies ∧
    ReadsEnum (field ms "role") b.role ∧
    ReadsBool (field ms "parallelizable") b.parallelizable ∧
    ReadsEnum (field ms "isolation") b.isolation ∧
    ReadsRef (field ms "assignee_ref") b.assigneeRef ∧
    ReadsRef (field ms "provider_ref") b.providerRef ∧
    ReadsEnum (field ms "permission_mode") b.permissionMode ∧ b.Ok

theorem normalizeBranch_eq_ok {b : WorkOrderBranch} :
    normalizeBranch i raw = .ok b ↔ ReadsBranch raw b := by
  simp only [normalizeBranch, chain_eq_ok, assertExactFields_eq_ok', assertRef_eq_ok,
    normalizeContentRef_eq_ok, normalizeUniqueRefs_eq_ok, assertEnum_names_eq_ok,
    assertBoolean_eq_ok]
  constructor
  · rintro ⟨ms, hms, _, href, _, ht, _, he, _, hc, _, hdeps, _, hrole, _, hpar, _, hiso, _, hass, _,
      hprov, _, hpm, h₁, h₂, h₃, h₄, rfl⟩
    exact ⟨ms, hms, href, ht, he, hc, hdeps, hrole, hpar, hiso, hass, hprov, hpm, h₁, h₂, h₃, h₄⟩
  · rintro ⟨ms, hms, href, ht, he, hc, hdeps, hrole, hpar, hiso, hass, hprov, hpm, h₁, h₂, h₃, h₄⟩
    exact ⟨ms, hms, _, href, _, ht, _, he, _, hc, _, hdeps, _, hrole, _, hpar, _, hiso, _, hass, _,
      hprov, _, hpm, h₁, h₂, h₃, h₄, rfl⟩

instance : Reading ReadsBranch WorkOrderBranch.toJson 2 := by
  refine reading_obj BRANCH_FIELDS (by decide) (fun _ => rfl) ?_
  rintro raw b ⟨ms, hms, href, ht, he, hc, hdeps, hrole, hpar, hiso, hass, hprov, hpm, hok⟩
  exact ⟨⟨_, .of_names rfl, again href, again ht, again he, again hc,
      (readsRefs_reading (by decide)).again hdeps, again hrole, again hpar, again hiso, again hass,
      again hprov, again hpm, hok⟩, ms, hms, renders href, renders ht, renders he, renders hc,
    (readsRefs_reading (by decide)).renders hdeps, renders hrole, renders hpar, renders hiso,
    renders hass, renders hprov, renders hpm⟩

end Orquesta.Contract
