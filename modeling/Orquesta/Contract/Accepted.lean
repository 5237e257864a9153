import Orquesta.Contract.Idempotence

/-!
# Which snapshots are accepted

The evaluator never stops at the first fault: it notes a reason for each and
accepts when it noted none.  So "accepted" is a statement about silence, and
silence is a conjunction: each part of the evaluator has a lemma `…_silent` that
says, without mentioning the remarks, what the part asks of the snapshot.

Parts that work through a list also carry what they have seen so far.  For those
the lemma is a `Takes`: which items are taken, what each is taken as, and what
taking it adds to what has been seen.  The distinctness rules of the evaluator
are then read off the whole list at once (`ChecksApart`, `ReadsReviews`).

## Main definitions

* `PlanFacts`: what the evaluator relies on in a plan
* `AcceptsSnapshot plan branchRef snapshot S`: the snapshot is in order and reads as `S`

## Main results

* `preflightInput_iff`: the preflight, as three bounds
* `evaluateBusinessAcceptanceV1_accepted`: which inputs are accepted
-/

namespace Orquesta.Contract

open Noted CONTRACT_LIMITS List Function Enumeration Json

/-- A content-addressed reference, as an object. -/
structure ReadsArtifact (value : Raw) (ref : ContentRef) : Prop where
  fields : hasExactFields value CONTENT_REF_FIELDS
  id : member value "id" = .str ref.id
  isRef : IsRef ref.id
  hash : member value "hash" = .str ref.hash
  isSha256 : isSha256 ref.hash

/-! ## Preflight -/

/-- The part of the preflight that concerns one value and everything below it. -/
def InputFits (value : Raw) (depth : Nat) : Prop :=
  depth ≤ MAX_INPUT_DEPTH ∧ value.fits fitsText (MAX_INPUT_DEPTH - depth) ∧
    value.weigh longArrays = 0

theorem inputFits_own (val : Raw) :
    inputFits val ↔ (∀ s, val = .str s → fitsText s) ∧ longArrays.own val = 0 := by
  cases val with
  | str s =>
    have heq : inputFits (.str s) = fitsText s := rfl
    simp [heq, longArrays, Weights.own]
  | arr xs => simp [inputFits, longArrays, Weights.own]
  | null | bool | num | obj => simp [inputFits, longArrays, Weights.own]

theorem inputFits_iff (val : Raw) (depth : Nat) :
    InputFits val depth ↔ depth ≤ MAX_INPUT_DEPTH ∧ inputFits val ∧
      ∀ v ∈ val.children, InputFits v (depth + 1) := by
  rw [InputFits, inputFits_own, fits_iff, weigh_eq, Nat.add_eq_zero_iff,
    List.sum_eq_zero_iff_forall_eq_nat, forall_mem_map]
  simp only [InputFits, Nat.sub_sub]
  constructor
  · rintro ⟨hdp, ⟨hstr, hbw⟩, hown, hlg⟩
    refine ⟨hdp, ⟨hstr, hown⟩, fun v hv => ?_⟩
    rcases hbw with hnil | ⟨hpos, hft⟩
    · rw [hnil] at hv
      cases hv
    · exact ⟨by omega, hft v hv, hlg v hv⟩
  · rintro ⟨hdp, ⟨hstr, hown⟩, hbw⟩
    refine ⟨hdp, ⟨hstr, ?_⟩, hown, fun v hv => (hbw v hv).2.2⟩
    rcases eq_nil_or_concat val.children with hnil | ⟨vs, v, hv⟩
    · exact Or.inl hnil
    · have hmem : v ∈ val.children := by simp [hv]
      have := (hbw v hmem).1
      exact Or.inr ⟨by omega, fun v hv => (hbw v hv).2.1⟩

/-- The walk goes through when the values on the stack are few and small enough. -/
theorem preflightInputWalk_iff {budget bs : Nat} {stack : List (Raw × Nat)}
    (hby : bs ≤ MAX_INPUT_BYTES) :
    preflightInputWalk budget bs stack ↔ (stack.map fun i => i.1.nodes).sum ≤ budget ∧
      bs + (stack.map fun i => i.1.weigh inputWeights).sum ≤ MAX_INPUT_BYTES ∧
      ∀ i ∈ stack, InputFits i.1 i.2 := by
  induction budget generalizing bs stack with
  | zero =>
    cases stack with
    | nil => simpa [preflightInputWalk] using hby
    | cons i stack =>
      have := i.1.nodes_pos
      simp only [preflightInputWalk, map_cons, sum_cons, Bool.false_eq_true, false_iff]
      omega
  | succ budget ih =>
    cases stack with
    | nil => simpa [preflightInputWalk] using hby
    | cons i stack =>
      obtain ⟨val, depth⟩ := i
      have hns := val.nodes_eq
      have hweigh := val.weigh_eq inputWeights
      have hft := inputFits_iff val depth
      by_cases hown : bs + inputWeights.own val ≤ MAX_INPUT_BYTES
      · simp only [preflightInputWalk, Bool.and_eq_true, decide_eq_true_eq, ih hown, map_append,
          map_reverse, map_map, sum_append, sum_reverse, forall_mem_append,
          mem_reverse, forall_mem_map, map_cons, sum_cons, forall_mem_cons,
          hown, and_true, hft]
        change _ ∧ (val.children.map nodes).sum + _ ≤ _ ∧
          _ + ((val.children.map (weigh inputWeights)).sum + _) ≤ _ ∧ _ ↔ _
        constructor
        · rintro ⟨⟨hdp, hi⟩, hn, hb, hbw, hstk⟩
          exact ⟨by omega, by omega, ⟨hdp, hi, hbw⟩, hstk⟩
        · rintro ⟨hn, hb, ⟨hdp, hi, hbw⟩, hstk⟩
          exact ⟨⟨hdp, hi⟩, by omega, by omega, hbw, hstk⟩
      · simp only [preflightInputWalk, Bool.and_eq_true, decide_eq_true_eq, hown, and_false,
          false_and, false_iff, map_cons, sum_cons]
        omega

theorem preflightInput_iff (i : Raw) : preflightInput i ↔ i.nodes ≤ MAX_INPUT_NODES ∧
      i.weigh inputWeights ≤ MAX_INPUT_BYTES ∧ InputFits i 0 := by
  rw [preflightInput, preflightInputWalk_iff (Nat.zero_le _)]
  simp

/-! ## Values -/

theorem isRefChar_code {c : Char} (h : isRefChar c) : 43 ≤ c.toNat ∧ c.toNat ≤ 122 := by
  simp only [isRefChar, isAlphanumeric, Bool.or_eq_true, Bool.and_eq_true, decide_eq_true_eq,
    Char.le_def, UInt32.le_iff_toNat_le] at h
  rcases h with ((h | h) | h) | h
  · exact ⟨le_trans (by decide) h.1, h.2.trans (by decide)⟩
  · exact ⟨le_trans (by decide) h.1, h.2⟩
  · exact ⟨le_trans (by decide) h.1, h.2.trans (by decide)⟩
  · simp only [mem_cons, not_mem_nil, or_false] at h
    rcases h with rfl | rfl | rfl | rfl | rfl | rfl | rfl <;> decide

variable {s : String}

theorem isRefChar_of_matchesRef (h : matchesRef s) : ∀ c ∈ s.toList, isRefChar c := by
  rw [matchesRef] at h
  split at h
  case h_1 => cases h
  case h_2 c cs hs =>
    rw [Bool.and_eq_true, all_eq_true] at h
    rw [hs]
    intro d hd
    rcases mem_cons.mp hd with rfl | hd
    · simp [isRefChar, h.1]
    · exact h.2 d hd

theorem isPortableText_iff (s : String) : isPortableText s ↔ IsRef s := by
  have htr : matchesRef s → trim s = s := by
    refine fun h => trim_of_forall fun c hc => ?_
    have := isRefChar_code (isRefChar_of_matchesRef h c hc)
    simp only [isWhiteSpace, Bool.or_eq_false_iff, Bool.and_eq_false_iff, decide_eq_false_iff_not]
    omega
  simp only [isPortableText, Bool.and_eq_true, decide_eq_true_eq]
  constructor
  · rintro ⟨⟨-, hle⟩, hm⟩
    exact ⟨hm, hle⟩
  · intro h
    exact ⟨⟨⟨htr h.1, h.ne_empty⟩, h.2⟩, h.1⟩

variable {val snap : Raw}

theorem textMatching_eq_some {pat : String → Bool} :
    textMatching pat val = some s ↔ val = .str s ∧ pat s := by
  cases val with
  | str t =>
    simp only [textMatching, str.injEq, Option.ite_none_right_eq_some, Option.some.injEq]
    constructor
    · rintro ⟨hp, rfl⟩
      exact ⟨rfl, hp⟩
    · rintro ⟨rfl, hp⟩
      exact ⟨hp, rfl⟩
  | null | bool | num | arr | obj => simp [textMatching]

variable {ref br : Ref}

theorem portableRef_eq_some : portableRef val = some ref ↔ val = .str ref ∧ IsRef ref := by
  rw [portableRef, textMatching_eq_some, isPortableText_iff]

theorem isText_iff {t : String} : isText val t ↔ val = .str t := by
  cases val <;> simp [isText]

theorem safeInteger_eq_some {min n : Int} :
    safeInteger min val = some n ↔ val = .num n ∧ min ≤ n ∧ n ≤ MAX_SAFE_INTEGER := by
  cases val with
  | num m =>
    simp only [safeInteger, num.injEq, Option.ite_none_right_eq_some, Option.some.injEq]
    constructor
    · rintro ⟨hn, rfl⟩
      exact ⟨rfl, hn⟩
    · rintro ⟨rfl, hn⟩
      exact ⟨hn, rfl⟩
  | null | bool | str | arr | obj => simp [safeInteger]

variable {ns : List String}

theorem hasExactFields_iff :
    hasExactFields val ns ↔ ∃ ms, HasMembers ns val ms ∧ ms.length = ns.length := by
  cases val with
  | obj ms =>
    simp only [hasExactFields, Bool.and_eq_true, decide_eq_true_eq, all_eq_true]
    constructor
    · rintro ⟨⟨hlen, hreq⟩, hall⟩
      exact ⟨ms, ⟨rfl, fun m hm => hall _ (mem_map_of_mem hm), hreq⟩, hlen⟩
    · rintro ⟨ms', ⟨heq, hall, hreq⟩, hlen⟩
      cases heq
      exact ⟨⟨hlen, hreq⟩, forall_mem_map.mpr hall⟩
  | null | bool | num | str | arr =>
    simp only [hasExactFields, Bool.false_eq_true, false_iff]
    rintro ⟨ms, h, -⟩
    cases h.eq

variable {ms : List (String × Raw)}

theorem hasExactFields_of_names (h : ms.map Prod.fst = ns) : hasExactFields (.obj ms) ns :=
  hasExactFields_iff.mpr ⟨ms, .of_names h, by rw [← h, length_map]⟩

theorem HasMembers.member_eq (h : HasMembers ns val ms) (n : String) :
    member val n = field ms n := by
  rw [h.eq]
  rfl

/-- An object weighs what its fields weigh. -/
theorem weigh_of_hasExactFields (h : hasExactFields val ns) (hnd : ns.Nodup) (hwf : val.WellFormed)
    (w : Weights Int) :
    val.weigh w = w.obj ns.length + (ns.map fun k => w.name k + (member val k).weigh w).sum := by
  obtain ⟨ms, hms, -⟩ := hasExactFields_iff.mp h
  rw [hms.weigh hnd hwf]
  simp only [hms.member_eq]

theorem wellFormed_member (h : hasExactFields val ns) (hwf : val.WellFormed) {n : String}
    (hn : n ∈ ns) :
    (member val n).WellFormed := by
  obtain ⟨ms, hms, -⟩ := hasExactFields_iff.mp h
  rw [hms.member_eq]
  exact hms.wellFormed_field hwf hn

theorem contentAddressedRef_eq_some {ref : ContentRef} :
    contentAddressedRef val = some ref ↔ ReadsArtifact val ref := by
  rw [contentAddressedRef]
  constructor
  · intro h
    split at h
    case isFalse => cases h
    case isTrue hfs =>
      split at h
      case h_2 => cases h
      case h_1 id hash hid hh =>
        cases h
        obtain ⟨hid, href⟩ := portableRef_eq_some.mp hid
        obtain ⟨hh, hsha⟩ := textMatching_eq_some.mp hh
        exact ⟨hfs, hid, href, hh, hsha⟩
  · intro h
    rw [if_pos h.fields, portableRef_eq_some.mpr ⟨h.id, h.isRef⟩,
      textMatching_eq_some.mpr ⟨h.hash, h.isSha256⟩]

theorem readsArtifact_contentRefJson {ref : ContentRef} (hid : IsRef ref.id)
    (hh : isSha256 ref.hash) : ReadsArtifact (contentRefJson ref) ref :=
  ⟨hasExactFields_of_names rfl, rfl, hid, rfl, hh⟩

/-! ## Lists of references -/

/-- A list that is accepted as evidence. -/
structure EvidenceRefs (refs : List Ref) : Prop where
  nonempty : refs ≠ []
  length_le : refs.length ≤ 128
  nodup : refs.Nodup
  isRef : ∀ r ∈ refs, IsRef r

variable {seen refs as : List Ref} {xs : List Raw}

section Collect

variable {α : Type} (read : Raw → Option α) (key : α → Ref)

/-- Read things with distinct keys: whether every entry was a new one, and the keys. -/
def collect : Bool → List Ref → List Raw → Bool × List Ref
  | valid, seen, [] => (valid, seen)
  | valid, seen, x :: xs =>
    match read x with
    | some a => if key a ∈ seen then collect false seen xs else collect valid (seen ++ [key a]) xs
    | none => collect false seen xs

variable {read key} {R : Raw → α → Prop} (hrd : ∀ x a, read x = some a ↔ R x a)
include hrd

theorem collect_admits {valid : Bool} {out : List Ref} :
    collect read key valid seen xs = (true, out) ↔ valid ∧ ∃ as, Forall₂ R xs as ∧
      Admits (fun s a => key a ∉ s) (fun s a => s ++ [key a]) seen as ∧
      out = as.foldl (fun s a => s ++ [key a]) seen := by
  induction xs generalizing valid seen with
  | nil => simp [collect, Admits, eq_comm]
  | cons x xs ih =>
    simp only [collect, forall₂_cons_left_iff]
    cases hx : read x with
    | none =>
      simp only [ih, Bool.false_eq_true, false_and, false_iff, not_and]
      rintro - ⟨_, ⟨a, as, hR, -⟩, -⟩
      rw [(hrd x a).mpr hR] at hx
      cases hx
    | some a =>
      have hu : ∀ b, R x b → b = a := fun b hb =>
        Option.some.inj (((hrd x b).mpr hb).symm.trans hx)
      simp only
      split
      case isTrue hse =>
        simp only [ih, Bool.false_eq_true, false_and, false_iff, not_and]
        rintro - ⟨_, ⟨b, as, hR, -, rfl⟩, ⟨hnew, -⟩, -⟩
        exact hnew (hu b hR ▸ hse)
      case isFalse hse =>
        rw [ih]
        refine and_congr_right fun _ => ?_
        constructor
        · rintro ⟨as, hall, hads, rfl⟩
          exact ⟨a :: as, ⟨a, as, (hrd x a).mp hx, hall, rfl⟩, ⟨hse, hads⟩, rfl⟩
        · rintro ⟨_, ⟨b, as, hR, hall, rfl⟩, ⟨-, hads⟩, rfl⟩
          obtain rfl := hu b hR
          exact ⟨as, hall, hads, rfl⟩

theorem collect_eq {out : List Ref} : collect read key true [] xs = (true, out) ↔
    ∃ as, Forall₂ R xs as ∧ (as.map key).Nodup ∧ out = as.map key := by
  have hads := admits_key (fun s : List Ref => s) key (fun s a => s ++ [key a]) (fun _ _ => rfl) []
  have hfold := seen_foldl (fun s : List Ref => s) (fun a => [key a]) (fun s a => s ++ [key a])
    (fun _ _ => rfl) []
  simp only [collect_admits hrd, hads, hfold, map_eq_flatMap]
  simp

end Collect

theorem collectRefs_eq {valid : Bool} :
    collectRefs valid seen xs = collect portableRef (fun ref => ref) valid seen xs := by
  induction xs generalizing valid seen with
  | nil => rfl
  | cons x xs ih =>
    simp only [collectRefs, collect, ih]
    cases portableRef x <;> rfl

theorem forall₂_str : Forall₂ (fun x ref => x = .str ref ∧ IsRef ref) xs refs ↔
    xs = refs.map .str ∧ ∀ r ∈ refs, IsRef r := by
  constructor
  · intro h
    induction h with
    | nil => simp
    | cons hx _ ih =>
      rw [hx.1, ih.1]
      exact ⟨rfl, forall_mem_cons.mpr ⟨hx.2, ih.2⟩⟩
  · rintro ⟨rfl, h⟩
    exact forall₂_map_left_iff.mpr (forall₂_same.mpr fun r hr => ⟨rfl, h r hr⟩)

theorem collectRefs_iff : collectRefs true [] xs = (true, refs) ↔
    xs = refs.map .str ∧ (∀ r ∈ refs, IsRef r) ∧ refs.Nodup := by
  rw [collectRefs_eq, collect_eq fun _ _ => portableRef_eq_some]
  simp only [map_id_fun', id_eq, forall₂_str, and_assoc]
  simp

theorem validateEvidenceRefs_quiet (h : EvidenceRefs refs) (code : ReasonCode) :
    Quiet (validateEvidenceRefs (refsJson refs) code) (true, refs) := by
  have hlen : ¬ ((refs.map str : List Raw).length = 0 ∨
      128 < (refs.map str : List Raw).length) := by
    have := length_pos_iff.mpr h.nonempty
    have := h.length_le
    rw [length_map]
    omega
  rw [refsJson, validateEvidenceRefs, if_neg hlen]
  simp [collectRefs_iff.mpr ⟨rfl, h.isRef, h.nodup⟩]

variable {code duplicateCode : ReasonCode}

theorem validateEvidenceRefs_silent : (validateEvidenceRefs val code).Silent ↔
      ∃ refs, val = refsJson refs ∧ EvidenceRefs refs := by
  constructor
  · intro h
    cases val with
    | arr xs =>
      rw [validateEvidenceRefs] at h
      split at h
      case isTrue => simp at h
      case isFalse hlen =>
        simp only [silent_bind, silent_expect, silent_pure, and_true] at h
        obtain ⟨hxs, href, hnd⟩ := collectRefs_iff.mp
          (show collectRefs true [] xs = (true, _) from Prod.ext h rfl)
        have hln := congrArg length hxs
        rw [length_map] at hln
        exact ⟨_, congrArg arr hxs, ne_nil_of_length_pos (by omega), by omega, hnd, href⟩
    | null | bool | num | str | obj => simp [validateEvidenceRefs] at h
  · rintro ⟨refs, rfl, h⟩
    exact (validateEvidenceRefs_quiet h code).1

theorem collectArtifacts_eq {valid : Bool} {ids : List Ref} :
    collectArtifacts valid ids xs = (collect contentAddressedRef ContentRef.id valid ids xs).1 := by
  induction xs generalizing valid ids with
  | nil => rfl
  | cons x xs ih =>
    simp only [collectArtifacts, collect, ih]
    cases contentAddressedRef x with
    | none => rfl
    | some ref => exact (apply_ite Prod.fst _ _ _).symm

theorem collectArtifacts_iff : collectArtifacts true [] xs ↔
    ∃ refs, Forall₂ ReadsArtifact xs refs ∧ (refs.map ContentRef.id).Nodup := by
  have hcollect (out : List Ref) : collect contentAddressedRef ContentRef.id true [] xs =
      (true, out) ↔ _ :=
    collect_eq fun _ _ => contentAddressedRef_eq_some
  rw [collectArtifacts_eq]
  constructor
  · intro h
    obtain ⟨refs, hall, hnd, -⟩ := (hcollect _).mp (Prod.ext h rfl)
    exact ⟨refs, hall, hnd⟩
  · rintro ⟨refs, hall, hnd⟩
    exact congrArg Prod.fst ((hcollect _).mpr ⟨refs, hall, hnd, rfl⟩)

/-- A list that is accepted as the artifacts of a branch. -/
@[mk_iff]
structure ReadsArtifacts (value : Raw) (xs : List Raw) (refs : List ContentRef) : Prop where
  eq : value = .arr xs
  reads : Forall₂ ReadsArtifact xs refs
  nonempty : refs ≠ []
  length_le : refs.length ≤ 128
  nodup : (refs.map ContentRef.id).Nodup

theorem validateArtifactRefs_silent :
    (validateArtifactRefs val code).Silent ↔ ∃ xs refs, ReadsArtifacts val xs refs := by
  cases val with
  | arr xs =>
    simp only [validateArtifactRefs, silent_expect, Bool.and_eq_true, decide_eq_true_eq,
      collectArtifacts_iff, readsArtifacts_iff, arr.injEq, exists_and_left, exists_eq_left']
    constructor
    · rintro ⟨⟨hpos, hle⟩, refs, hall, hnd⟩
      have hlen := hall.length_eq
      exact ⟨refs, hall, ne_nil_of_length_pos (by omega), by omega, hnd⟩
    · rintro ⟨refs, hall, hne, hle, hnd⟩
      have hlen := hall.length_eq
      have := length_pos_iff.mpr hne
      exact ⟨⟨by omega, by omega⟩, refs, hall, hnd⟩
  | null | bool | num | str | obj => simp [validateArtifactRefs, readsArtifacts_iff]

variable {invalidCode : ReasonCode}

theorem validateEmptyRefList_silent {presentCode : ReasonCode} :
    (validateEmptyRefList val invalidCode presentCode).Silent ↔ val = .arr [] := by
  cases val with
  | arr xs =>
    cases xs with
    | nil => simp [validateEmptyRefList]
    | cons x xs =>
      simp only [validateEmptyRefList, silent_ite, not_silent_remark, silent_bind, silent_expect]
      simp
  | null | bool | num | str | obj => simp [validateEmptyRefList]

/-! ## Identity -/

theorem plainText_of_isWorkOrderId (h : isWorkOrderId s) : PlainText s 35 := by
  simp only [isWorkOrderId, Bool.and_eq_true, all_eq_true, decide_eq_true_eq] at h
  exact plainText_of_head ['W', 'O', '-'] (by decide) ⟨h.1.1, h.1.2, h.2⟩

theorem expectSame_silent {α : Type} [DecidableEq α] {read : Option α} {planned : α}
    {mismatchCode : ReasonCode} :
    (expectSame read planned invalidCode mismatchCode).Silent ↔ read = some planned := by
  cases read <;> simp [expectSame]

/-- The fields of a snapshot that say which Work Order and which plan it is about. -/
@[mk_iff]
structure SnapshotIdentity (snapshot : Raw) (plan : WorkOrderPlan) : Prop where
  workOrderId : ∃ id, member snapshot "work_order_id" = .str id ∧ isWorkOrderId id
  projectRef : member snapshot "project_ref" = .str plan.content.projectRef
  planSnapshotId : member snapshot "plan_snapshot_id" = .str plan.planSnapshotId
  planHash : member snapshot "plan_hash" = .str plan.planHash
  planRevision : member snapshot "plan_revision" = natJson plan.content.revision
  workOrderRevision : ∃ n, member snapshot "work_order_revision" = .num n ∧
    1 ≤ n ∧ n ≤ MAX_SAFE_INTEGER

/-- The values a plan has to have for a snapshot to repeat them. -/
structure PlanIdentity (plan : WorkOrderPlan) : Prop where
  projectRef : IsRef plan.content.projectRef
  planSnapshotId : isPlanSnapshotId plan.planSnapshotId
  planHash : isSha256 plan.planHash
  revision_pos : 1 ≤ plan.content.revision
  revision_le : (plan.content.revision : Int) ≤ MAX_SAFE_INTEGER

variable {p : WorkOrderPlan}

theorem validateSnapshotIdentity_silent (hpl : PlanIdentity p) :
    (validateSnapshotIdentity snap p).Silent ↔ SnapshotIdentity snap p := by
  have hrev : (1 : Int) ≤ p.content.revision := Int.ofNat_le.mpr hpl.revision_pos
  simp only [validateSnapshotIdentity, silent_bind, silent_expect, expectSame_silent, silent_pure,
    and_true, Option.isSome_iff_exists, textMatching_eq_some, portableRef_eq_some,
    safeInteger_eq_some, snapshotIdentity_iff, hpl.projectRef, hpl.planSnapshotId, hpl.planHash,
    hpl.revision_le, hrev, natJson]

/-! ## Branches -/

theorem insertRef_of_not_mem (h : ref ∉ refs) : insertRef ref refs = refs ++ [ref] := if_neg h

/-- The status of a branch is one its role accepts. -/
def StatusOk (role : BranchRole) (status : Raw) : Prop :=
  status = .str "accepted" ∨ role = .work ∧ status = .str "verified"

theorem expectBranchStatus_silent {planned : Option WorkOrderBranch} {st : Raw} :
    (expectBranchStatus planned st).Silent ↔ ∀ b, planned = some b → StatusOk b.role st := by
  cases planned with
  | none => simp [expectBranchStatus]
  | some b => cases hrole : b.role <;>
      simp [expectBranchStatus, StatusOk, isText_iff, or_comm, hrole]

structure ReadsBranchResult (plan : WorkOrderPlan) (result : Raw) (ref : Ref) : Prop where
  fields : hasExactFields result BRANCH_RESULT_FIELDS
  branchRef : member result "branch_ref" = .str ref
  isRef : IsRef ref
  evidence : ∃ refs, member result "evidence_refs" = refsJson refs ∧ EvidenceRefs refs
  artifacts : ∃ xs refs, ReadsArtifacts (member result "artifact_refs") xs refs
  status : ∀ planned, plannedBranch plan ref = some planned →
    StatusOk planned.role (member result "status")

theorem takes_branchResult (p : WorkOrderPlan) :
    Takes (validateBranchResult p) (ReadsBranchResult p) (fun seen ref => ref ∉ seen)
      (fun seen ref => seen ++ [ref]) where
  reads {seen result} h := by
    rw [validateBranchResult, silent_unless (by simp)] at h
    cases href : portableRef (member result "branch_ref") with
    | none => simp [href] at h
    | some ref =>
      simp only [href, silent_bind, silent_expect, silent_gather, true_and,
        validateEvidenceRefs_silent, validateArtifactRefs_silent, expectBranchStatus_silent,
        silent_pure, and_true, decide_eq_true_eq] at h
      obtain ⟨hfs, hse, hev, hart, hsts⟩ := h
      obtain ⟨hrd, hir⟩ := portableRef_eq_some.mp href
      exact ⟨ref, ⟨hfs, hrd, hir, hev, hart, hsts⟩, hse⟩
  quiet {seen result ref} h hse := by
    obtain ⟨refs, hrf, hrefsOk⟩ := h.evidence
    have hev := validateEvidenceRefs_quiet hrefsOk .branchEvidenceInvalid
    rw [validateBranchResult, if_neg (by simp [h.fields]),
      portableRef_eq_some.mpr ⟨h.branchRef, h.isRef⟩]
    simp [hse, hrf, hev, validateArtifactRefs_silent.mpr h.artifacts,
      expectBranchStatus_silent.mpr h.status, insertRef_of_not_mem]

/-- Distinct references are those that were planned. -/
theorem nodup_and_sameRefs {results planned : List Ref} (hpl : planned.Nodup) :
    results.Nodup ∧ sameRefs results planned ↔ results.Perm planned := by
  simp only [sameRefs, Bool.and_eq_true, decide_eq_true_eq, all_eq_true]
  constructor
  · rintro ⟨hr, hlen, hsub⟩
    exact (hr.subperm hsub).perm_of_length_le hlen.ge
  · intro h
    exact ⟨h.nodup_iff.mpr hpl, h.length_eq, fun r hr => h.mem_iff.mp hr⟩

/-- What the evaluator finds in order about a list of branch results. -/
@[mk_iff]
structure ReadsBranchResults (plan : WorkOrderPlan) (value : Raw) (xs : List Raw)
    (refs : List Ref) : Prop where
  eq : value = .arr xs
  length_le : xs.length ≤ 64
  reads : Forall₂ (ReadsBranchResult plan) xs refs
  perm : refs.Perm (branchRefs plan.content.branches)

theorem validateBranches_silent (hpl : (branchRefs p.content.branches).Nodup) :
    (validateBranches snap p).Silent ↔
    ∃ xs refs, ReadsBranchResults p (member snap "branches") xs refs := by
  have hfold : ∀ refs : List Ref, refs.foldl (fun seen ref => seen ++ [ref]) [] = refs := by
    intro refs
    simpa using seen_foldl (fun s : List Ref => s) (fun b => [b]) (fun s b => s ++ [b])
      (fun _ _ => rfl) [] refs
  rw [validateBranches]
  cases member snap "branches" with
  | arr xs =>
    refine ((takes_branchResult p).silent_bounded (by simp)).trans ?_
    simp only [admits_new, hfold, silent_bind, silent_expect, silent_pure, and_true,
      nodup_and_sameRefs hpl, readsBranchResults_iff, arr.injEq, exists_and_left, exists_eq_left']
  | null | bool | num | str | obj => simp [readsBranchResults_iff]

/-! ## Criteria -/

/-- What a criterion result says. -/
structure CriterionResult where
  criterionId : Ref
  evidenceRefs : List Ref

structure ReadsCriterionResult (result : Raw) (r : CriterionResult) : Prop where
  fields : hasExactFields result CRITERION_RESULT_FIELDS
  criterionId : member result "criterion_id" = .str r.criterionId
  isRef : IsRef r.criterionId
  status : member result "status" = .str "passed"
  evidenceRefs : member result "evidence_refs" = refsJson r.evidenceRefs
  evidence : EvidenceRefs r.evidenceRefs

def CriterionResults.push (s : CriterionResults) (r : CriterionResult) : CriterionResults :=
  ⟨s.resultIds ++ [r.criterionId], s.resultsById ++ [(r.criterionId, r.evidenceRefs)]⟩

theorem takes_criterionResult : Takes validateCriterionResult ReadsCriterionResult
    (fun s r => r.criterionId ∉ s.resultIds) CriterionResults.push where
  reads {s result} h := by
    rw [validateCriterionResult, silent_unless (by simp)] at h
    cases hid : portableRef (member result "criterion_id") with
    | none => simp [hid] at h
    | some id =>
      simp only [hid, silent_bind, silent_expect, silent_gather, validateEvidenceRefs_silent,
        isText_iff, silent_pure, and_true, decide_eq_true_eq] at h
      obtain ⟨hfs, hse, hsts, refs, hrf, hev⟩ := h
      obtain ⟨hrd, hir⟩ := portableRef_eq_some.mp hid
      exact ⟨⟨id, refs⟩, ⟨hfs, hrd, hir, hsts, hrf, hev⟩, hse⟩
  quiet {s result r} h hse := by
    have hev := validateEvidenceRefs_quiet h.evidence .criterionEvidenceInvalid
    rw [validateCriterionResult, if_neg (by simp [h.fields]),
      portableRef_eq_some.mpr ⟨h.criterionId, h.isRef⟩]
    simp [h.evidenceRefs, hev, h.status, isText, hse, insertRef_of_not_mem, CriterionResults.push]

@[mk_iff]
structure ReadsCriterionResults (plan : WorkOrderPlan) (value : Raw) (xs : List Raw)
    (rs : List CriterionResult) : Prop where
  eq : value = .arr xs
  length_le : xs.length ≤ 64
  reads : Forall₂ ReadsCriterionResult xs rs
  perm : (rs.map CriterionResult.criterionId).Perm (criterionIds plan)

theorem criterionResults_foldl (rs : List CriterionResult) :
    rs.foldl CriterionResults.push ⟨[], []⟩ = ⟨rs.map CriterionResult.criterionId,
      rs.map fun r => (r.criterionId, r.evidenceRefs)⟩ := by
  have hids := seen_foldl CriterionResults.resultIds (fun r : CriterionResult => [r.criterionId])
    CriterionResults.push (fun _ _ => rfl) ⟨[], []⟩ rs
  have hrss := seen_foldl CriterionResults.resultsById
    (fun r : CriterionResult => [(r.criterionId, r.evidenceRefs)])
    CriterionResults.push (fun _ _ => rfl) ⟨[], []⟩ rs
  cases hfold : rs.foldl CriterionResults.push ⟨[], []⟩ with
  | mk ids results =>
    rw [hfold] at hids hrss
    simp_all [map_eq_flatMap]

theorem criterionResults_admits (rs : List CriterionResult) :
    Admits (fun s r => r.criterionId ∉ s.resultIds) CriterionResults.push ⟨[], []⟩ rs ↔
      (rs.map CriterionResult.criterionId).Nodup := by
  simpa using admits_key CriterionResults.resultIds CriterionResult.criterionId
    CriterionResults.push (fun _ _ => rfl) ⟨[], []⟩ rs

theorem validateCriterionResults_silent (hpl : (criterionIds p).Nodup) :
    (validateCriterionResults snap p).Silent ↔ ∃ xs rs,
      ReadsCriterionResults p (member snap "criterion_results") xs rs := by
  rw [validateCriterionResults]
  cases member snap "criterion_results" with
  | arr xs =>
    refine (takes_criterionResult.silent_bounded (by simp)).trans ?_
    simp only [criterionResults_admits, criterionResults_foldl, silent_bind, silent_expect,
      silent_pure, and_true, nodup_and_sameRefs hpl, readsCriterionResults_iff, arr.injEq,
      exists_and_left, exists_eq_left']
  | null | bool | num | str | obj => simp [readsCriterionResults_iff]

theorem validateCriterionResults_value {rs : List CriterionResult} (hpl : (criterionIds p).Nodup)
    (h : ReadsCriterionResults p (member snap "criterion_results") xs rs) :
    (validateCriterionResults snap p).value = rs.map fun r => (r.criterionId, r.evidenceRefs) := by
  have hnd := h.perm.nodup_iff.mpr hpl
  have hv := (takes_criterionResult.quiet_foldlM h.reads ((criterionResults_admits rs).mpr hnd)).2
  rw [criterionResults_foldl] at hv
  have hlen := h.length_le
  rw [validateCriterionResults, h.eq]
  simp only
  rw [if_neg (by omega), value_bind, hv]
  rfl

/-! ## Reviews -/

/-- What an accepted review says. -/
structure ReviewResult where
  (reviewId reviewerRef : Ref)
  minor : Int
  evidenceRefs : List Ref

structure ReadsFindings (findings : Raw) (n : Int) : Prop where
  fields : hasExactFields findings REVIEW_FINDING_FIELDS
  critical : member findings "critical" = .num 0
  important : member findings "important" = .num 0
  minor : member findings "minor" = .num n
  minor_le : 0 ≤ n ∧ n ≤ MAX_SAFE_INTEGER

theorem validateFindings_quiet {findings : Raw} {minor : Int} (h : ReadsFindings findings minor) :
    Quiet (validateFindings findings) true := by
  have hzero : safeInteger 0 (.num 0) = some 0 := by decide
  have hmin : safeInteger 0 (.num minor) = some minor := safeInteger_eq_some.mpr ⟨rfl, h.minor_le⟩
  rw [validateFindings, if_neg (by simp [h.fields])]
  simp only [count, h.critical, h.important, h.minor, hzero, hmin]
  simp

theorem validateFindings_silent {findings : Raw} :
    (validateFindings findings).Silent ↔ ∃ minor, ReadsFindings findings minor := by
  refine ⟨fun h => ?_, fun ⟨minor, h⟩ => (validateFindings_quiet h).1⟩
  rw [validateFindings, silent_unless (by simp)] at h
  obtain ⟨hfs, h⟩ := h
  split at h
  case h_1 critical important minor hcritical himportant hmin =>
    simp only [silent_expect, Bool.and_eq_true, decide_eq_true_eq] at h
    obtain ⟨hc, hcpos, -⟩ := safeInteger_eq_some.mp hcritical
    obtain ⟨hi, hipos, -⟩ := safeInteger_eq_some.mp himportant
    obtain ⟨hm, hbounds⟩ := safeInteger_eq_some.mp hmin
    obtain rfl : critical = 0 := by omega
    obtain rfl : important = 0 := by omega
    exact ⟨minor, hfs, hc, hi, hm, hbounds⟩
  case h_2 => simp at h

theorem expectNewRef_quiet (href : IsRef ref) (hse : ref ∉ seen) :
    Quiet (expectNewRef (.str ref) seen invalidCode duplicateCode) (true, seen ++ [ref]) := by
  rw [expectNewRef, portableRef_eq_some.mpr ⟨rfl, href⟩]
  simp [hse, insertRef_of_not_mem]

theorem expectNewRef_silent : (expectNewRef val seen invalidCode duplicateCode).Silent ↔
      ∃ ref, (val = .str ref ∧ IsRef ref) ∧ ref ∉ seen := by
  constructor
  · intro h
    rw [expectNewRef] at h
    cases href : portableRef val with
    | none => simp [href] at h
    | some ref =>
      simp only [href, silent_bind, silent_expect, silent_pure, and_true, decide_eq_true_eq] at h
      exact ⟨ref, portableRef_eq_some.mp href, h⟩
  · rintro ⟨ref, ⟨rfl, href⟩, hse⟩
    exact (expectNewRef_quiet href hse).1

/-- The part of a review that does not depend on the other reviews. -/
structure ReadsReview (assignees : List Ref) (branchRef : Ref) (review : Raw) (r : ReviewResult) :
    Prop where
  fields : hasExactFields review REVIEW_FIELDS
  branchRef : member review "branch_ref" = .str branchRef ∧ IsRef branchRef
  reviewId : member review "review_id" = .str r.reviewId ∧ IsRef r.reviewId
  reviewerRef : member review "reviewer_ref" = .str r.reviewerRef ∧ IsRef r.reviewerRef
  independent : r.reviewerRef ∉ assignees
  status : member review "status" = .str "accepted"
  findings : ReadsFindings (member review "findings") r.minor
  evidenceRefs : member review "evidence_refs" = refsJson r.evidenceRefs
  evidence : EvidenceRefs r.evidenceRefs

def Reviews.push (s : Reviews) (r : ReviewResult) : Reviews :=
  ⟨s.reviewIds ++ [r.reviewId], s.reviewerRefs ++ [r.reviewerRef], s.validReviewCount + 1⟩

theorem takes_review (as : List Ref) (br : Ref) : Takes (validateReview as br) (ReadsReview as br)
      (fun s r => r.reviewId ∉ s.reviewIds ∧ r.reviewerRef ∉ s.reviewerRefs) Reviews.push where
  reads {s review} h := by
    rw [validateReview, silent_unless (by simp)] at h
    simp only [silent_bind, silent_expect, silent_gather, silent_pure, and_true,
      expectSame_silent, portableRef_eq_some, expectNewRef_silent, isText_iff,
      validateFindings_silent, validateEvidenceRefs_silent] at h
    obtain ⟨hfs, hbrn, ⟨id, hid, hidNew⟩, ⟨reviewer, hrv, hreviewerNew⟩, hind,
      hsts, ⟨minor, hfindings⟩, refs, hrf, hev⟩ := h
    rw [expectIndependent, portableRef_eq_some.mpr hrv, silent_expect, decide_eq_true_eq] at hind
    exact ⟨⟨id, reviewer, minor, refs⟩, ⟨hfs, hbrn, hid, hrv, hind,
      hsts, hfindings, hrf, hev⟩, hidNew, hreviewerNew⟩
  quiet {s review r} h hnew := by
    have hrv := portableRef_eq_some.mpr ⟨rfl, h.reviewerRef.2⟩
    have hev := validateEvidenceRefs_quiet h.evidence .reviewEvidenceInvalid
    rw [validateReview, if_neg (by simp [h.fields])]
    simp [expectSame, portableRef_eq_some.mpr h.branchRef, h.reviewId.1,
      expectNewRef_quiet h.reviewId.2 hnew.1, h.reviewerRef.1,
      expectNewRef_quiet h.reviewerRef.2 hnew.2,
      expectIndependent, hrv, h.independent, h.status, isText, validateFindings_quiet h.findings,
      h.evidenceRefs, hev, Reviews.push]

@[mk_iff]
structure ReadsReviews (plan : WorkOrderPlan) (branchRef : Ref) (value : Raw) (xs : List Raw)
    (rs : List ReviewResult) : Prop where
  eq : value = .arr xs
  length_le : xs.length ≤ 64
  reads : Forall₂ (ReadsReview (assigneeRefs plan) branchRef) xs rs
  ids : (rs.map ReviewResult.reviewId).Nodup
  reviewers : (rs.map ReviewResult.reviewerRef).Nodup
  enough : plan.content.acceptancePolicy.reviewMinimum.count ≤ rs.length

theorem reviews_admits (rs : List ReviewResult) :
    Admits (fun s r => r.reviewId ∉ s.reviewIds ∧ r.reviewerRef ∉ s.reviewerRefs) Reviews.push
      ⟨[], [], 0⟩ rs ↔
      (rs.map ReviewResult.reviewId).Nodup ∧ (rs.map ReviewResult.reviewerRef).Nodup := by
  rw [admits_and]
  have hids := admits_key Reviews.reviewIds ReviewResult.reviewId Reviews.push (fun _ _ => rfl)
    ⟨[], [], 0⟩ rs
  have hrvs := admits_key Reviews.reviewerRefs ReviewResult.reviewerRef
    Reviews.push (fun _ _ => rfl) ⟨[], [], 0⟩ rs
  rw [hids, hrvs]
  simp

theorem reviews_count (s : Reviews) (rs : List ReviewResult) :
    (rs.foldl Reviews.push s).validReviewCount = s.validReviewCount + rs.length := by
  induction rs generalizing s with
  | nil => rfl
  | cons r rs ih =>
    rw [foldl_cons, ih, length_cons]
    simp only [Reviews.push]
    omega

theorem validateReviews_silent : (validateReviews snap p br).Silent ↔
      ∃ xs rs, ReadsReviews p br (member snap "reviews") xs rs := by
  rw [validateReviews]
  cases member snap "reviews" with
  | arr xs =>
    refine ((takes_review _ _).silent_bounded (by simp)).trans ?_
    simp only [reviews_admits, reviews_count, silent_bind, silent_expect, silent_pure, and_true,
      Nat.zero_add, decide_eq_true_eq, readsReviews_iff, arr.injEq, exists_and_left,
      exists_eq_left', and_assoc]
  | null | bool | num | str | obj => simp [readsReviews_iff]

/-! ## Verification checks -/

/-- What an accepted verification check says. -/
structure VerificationCheck where
  criterionId : Ref
  requirement : VerificationRequirement
  verifierRef : Ref
  evidenceRefs : List Ref

/-- The part of a check that does not depend on the other checks. -/
structure ReadsCheck (plan : WorkOrderPlan) (branchRef : Ref) (check : Raw)
    (c : VerificationCheck) : Prop where
  fields : hasExactFields check VERIFICATION_CHECK_FIELDS
  branchRef : member check "branch_ref" = .str branchRef ∧ IsRef branchRef
  criterionId : member check "criterion_id" = .str c.criterionId ∧ IsRef c.criterionId
  kind : member check "kind" = toJson c.requirement.kind
  verifierRef : member check "verifier_ref" = .str c.verifierRef ∧ IsRef c.verifierRef
  independent : c.requirement.kind = .human → c.verifierRef ∉ assigneeRefs plan
  verificationRef : ReadsArtifact (member check "verification_ref") c.requirement.verificationRef
  planBound : ∃ criterion, plannedCriterion plan c.criterionId = some criterion ∧
    c.requirement ∈ criterion.verificationRequirements
  status : member check "status" = .str "passed"
  evidenceRefs : member check "evidence_refs" = refsJson c.evidenceRefs
  evidence : EvidenceRefs c.evidenceRefs

def Checks.push (s : Checks) (c : VerificationCheck) : Checks where
  verificationRefIds := s.verificationRefIds ++ [c.requirement.verificationRef.id]
  verifierRefs := s.verifierRefs ++ [c.verifierRef]
  evidenceOwners := s.evidenceOwners ++ c.evidenceRefs
  accepted := s.accepted ++ [⟨c.criterionId, c.requirement, c.evidenceRefs⟩]

variable {kind : VerificationKind}

theorem checkKind_eq_some : checkKind val = some kind ↔ val = toJson kind := by
  cases val with
  | str s =>
    rw [checkKind, lookup_names, toJson, str.injEq, eq_comm]
  | null | bool | num | arr | obj => simp [checkKind, toJson]

theorem ownEvidence_quiet {owners : List Ref} (hnd : refs.Nodup) (h : ∀ r ∈ refs, r ∉ owners) :
    Quiet (ownEvidence owners refs) (true, owners ++ refs) := by
  induction refs generalizing owners with
  | nil => simp [ownEvidence]
  | cons r refs ih =>
    rw [nodup_cons] at hnd
    obtain ⟨hr, hrs⟩ := forall_mem_cons.mp h
    have hfr : ∀ r' ∈ refs, r' ∉ owners ++ [r] := by
      intro r' hr' hmem
      rcases mem_append.mp hmem with hmem | hmem
      · exact hrs r' hr' hmem
      · exact hnd.1 (mem_singleton.mp hmem ▸ hr')
    simp [ownEvidence, insertRef_of_not_mem hr, ih hnd.2 hfr, hr]

theorem not_mem_of_ownEvidence {owners : List Ref} (h : (ownEvidence owners refs).Silent) :
    ∀ r ∈ refs, r ∉ owners := by
  induction refs generalizing owners with
  | nil => exact fun _ hr => nomatch hr
  | cons r refs ih =>
    simp only [ownEvidence, silent_bind, silent_expect, silent_pure, and_true, decide_eq_true_eq]
      at h
    rw [insertRef_of_not_mem h.1] at h
    exact forall_mem_cons.mpr ⟨h.1, fun r' hr' hmem => ih h.2 r' hr' (mem_append_left _ hmem)⟩

theorem expectCriterion_silent :
    (expectCriterion p val).Silent ↔ ∃ id c, (val = .str id ∧ IsRef id) ∧
      plannedCriterion p id = some c := by
  constructor
  · intro h
    rw [expectCriterion] at h
    cases hid : portableRef val with
    | none => simp [hid] at h
    | some id =>
      simp only [hid, silent_expect, Option.isSome_iff_exists] at h
      obtain ⟨c, hcr⟩ := h
      exact ⟨id, c, portableRef_eq_some.mp hid, hcr⟩
  · rintro ⟨id, c, hid, hcr⟩
    simp [expectCriterion, portableRef_eq_some.mpr hid, hcr]

theorem expectNewVerificationRef_silent {ref : Option ContentRef} :
    (expectNewVerificationRef ref seen).Silent ↔ ∃ r, ref = some r ∧ r.id ∉ seen := by
  cases ref <;> simp [expectNewVerificationRef]

theorem expectIndependentVerifier_silent (href : IsRef ref) :
    (expectIndependentVerifier as (some kind) (.str ref)).Silent ↔ (kind = .human → ref ∉ as) := by
  cases kind <;> simp [expectIndependentVerifier, portableRef_eq_some.mpr ⟨rfl, href⟩]

theorem expectIndependentVerifier_value (href : IsRef ref) (h : kind = .human → ref ∉ as) :
    (expectIndependentVerifier as (some kind) (.str ref)).value = true := by
  cases kind <;> simp_all [expectIndependentVerifier, portableRef_eq_some.mpr ⟨rfl, href⟩]

theorem criterionId_of_planned {id : Ref} {c : AcceptanceCriterion}
    (h : plannedCriterion p id = some c) : c.criterionId = id := by
  simpa using find?_some h

theorem takes_check (p : WorkOrderPlan) (br : Ref) :
    Takes (validateVerificationCheck p br) (ReadsCheck p br)
      (fun s c => c.verifierRef ∉ s.verifierRefs ∧
        c.requirement.verificationRef.id ∉ s.verificationRefIds ∧
        ∀ e ∈ c.evidenceRefs, e ∉ s.evidenceOwners) Checks.push where
  reads {s check} h := by
    rw [validateVerificationCheck, silent_unless (by simp)] at h
    simp only [silent_bind, silent_expect, silent_gather, silent_pure, and_true,
      expectSame_silent, portableRef_eq_some, expectNewRef_silent, isText_iff,
      expectCriterion_silent, Option.isSome_iff_exists, expectNewVerificationRef_silent] at h
    obtain ⟨hfs, hbrn, ⟨id, criterion, hid, hcr⟩, ⟨kind, hk⟩,
      ⟨verifier, hvf, hverifierNew⟩, hind, ⟨ref, href, hrefNew⟩, hplanBound,
      hsts, hev, howned⟩ := h
    obtain ⟨refs, hrf, hev⟩ := validateEvidenceRefs_silent.mp hev
    rw [hrf, (validateEvidenceRefs_quiet hev _).2] at howned
    rw [hk, hvf.1, expectIndependentVerifier_silent hvf.2] at hind
    have hcriterionOf : criterionOf p (member check "criterion_id") = some criterion := by
      rw [hid.1]
      exact hcr
    rw [hcriterionOf, hk, href] at hplanBound
    refine ⟨⟨id, ⟨kind, ref⟩, verifier, refs⟩, ⟨hfs, hbrn, hid,
      checkKind_eq_some.mp hk, hvf, hind, contentAddressedRef_eq_some.mp href,
      ⟨criterion, hcr, ?_⟩, hsts, hrf, hev⟩, hverifierNew, hrefNew,
      not_mem_of_ownEvidence howned⟩
    simpa [expectPlanBound] using hplanBound
  quiet {s check c} h hok := by
    obtain ⟨hvf, href, howned⟩ := hok
    obtain ⟨criterion, hcr, hreq⟩ := h.planBound
    rw [validateVerificationCheck, if_neg (by simp [h.fields])]
    simp only [portableRef_eq_some.mpr h.branchRef, h.criterionId.1, checkKind_eq_some.mpr h.kind,
      h.verifierRef.1, contentAddressedRef_eq_some.mpr h.verificationRef, h.status, h.evidenceRefs,
      criterionOf, hcr]
    refine .bind (a := true) (by simp [expectSame]) ?_
    refine .bind (a := true)
      (by simp [expectCriterion, portableRef_eq_some.mpr ⟨rfl, h.criterionId.2⟩, hcr]) ?_
    refine .bind (a := true) (by simp) (.bind (expectNewRef_quiet h.verifierRef.2 hvf) ?_)
    refine .bind ⟨(expectIndependentVerifier_silent h.verifierRef.2).mpr h.independent,
      expectIndependentVerifier_value h.verifierRef.2 h.independent⟩ ?_
    refine .bind (a := (true, s.verificationRefIds ++ [c.requirement.verificationRef.id]))
      (by simp [expectNewVerificationRef, href, insertRef_of_not_mem]) ?_
    refine .bind (a := true) (by simp [expectPlanBound, hreq]) ?_
    refine .bind (a := true) (by simp [isText]) (.bind (validateEvidenceRefs_quiet h.evidence _) ?_)
    refine .bind (ownEvidence_quiet h.evidence.nodup howned) ?_
    simp [criterionId_of_planned hcr, Checks.push]

/-- The checks seen together: no verifier, verification or evidence counts twice. -/
@[mk_iff]
structure ChecksApart (cs : List VerificationCheck) : Prop where
  verifiers : (cs.map VerificationCheck.verifierRef).Nodup
  verifications : (cs.map (·.requirement.verificationRef.id)).Nodup
  evidence : cs.Pairwise fun b c => List.Disjoint b.evidenceRefs c.evidenceRefs

theorem checks_admits (cs : List VerificationCheck) :
    Admits (fun s c => c.verifierRef ∉ s.verifierRefs ∧
        c.requirement.verificationRef.id ∉ s.verificationRefIds ∧
        ∀ e ∈ c.evidenceRefs, e ∉ s.evidenceOwners) Checks.push ⟨[], [], [], []⟩ cs ↔
      ChecksApart cs := by
  have hvs := admits_key Checks.verifierRefs VerificationCheck.verifierRef Checks.push
    (fun _ _ => rfl) ⟨[], [], [], []⟩ cs
  have hrf := admits_key Checks.verificationRefIds
    (fun c : VerificationCheck => c.requirement.verificationRef.id) Checks.push
    (fun _ _ => rfl) ⟨[], [], [], []⟩ cs
  have hev := admits_keys Checks.evidenceOwners VerificationCheck.evidenceRefs Checks.push
    (fun _ _ => rfl) ⟨[], [], [], []⟩ cs
  rw [admits_and, admits_and, hvs, hrf, hev]
  simp only [not_mem_nil, not_false_eq_true, implies_true, and_true, checksApart_iff]

/-- What an accepted check establishes. -/
def VerificationCheck.accepted (c : VerificationCheck) : AcceptedCheck :=
  ⟨c.criterionId, c.requirement, c.evidenceRefs⟩

theorem checks_accepted (cs : List VerificationCheck) :
    (cs.foldl Checks.push ⟨[], [], [], []⟩).accepted = cs.map VerificationCheck.accepted := by
  rw [seen_foldl Checks.accepted (fun c : VerificationCheck => [c.accepted]) Checks.push
    (fun _ _ => rfl), map_eq_flatMap]
  rfl

/-- The checks that count for a criterion. -/
def checksFor (cs : List VerificationCheck) (id : Ref) : List VerificationCheck :=
  cs.filter (·.criterionId = id)

/-- The checks meet a criterion, and its result has their evidence. -/
structure CriterionMet (rs : List (Ref × List Ref)) (cs : List VerificationCheck)
    (criterion : AcceptanceCriterion) : Prop where
  requirements : ∀ r ∈ criterion.verificationRequirements,
    ∃ c ∈ checksFor cs criterion.criterionId, c.requirement = r
  deterministic : criterion.verification = .humanOnly ∨
    ∃ c ∈ checksFor cs criterion.criterionId, c.requirement.kind = .deterministic
  human : criterion.verification = .deterministic ∨
    ∃ c ∈ checksFor cs criterion.criterionId, c.requirement.kind = .human
  evidence : ∀ refs, rs.lookup criterion.criterionId = some refs → ∀ e, e ∈ refs ↔
    e ∈ (checksFor cs criterion.criterionId).flatMap VerificationCheck.evidenceRefs

theorem setsEqual_iff {left right : List Ref} :
    setsEqual left right ↔ ∀ e, e ∈ left ↔ e ∈ right := by
  simp only [setsEqual, Bool.and_eq_true, all_eq_true, decide_eq_true_eq]
  exact ⟨fun h e => ⟨h.1 e, h.2 e⟩, fun h => ⟨fun e => (h e).mp, fun e => (h e).mpr⟩⟩

theorem validateCriterion_silent {rs : List (Ref × List Ref)} {cs : List VerificationCheck}
    {criterion : AcceptanceCriterion} :
    (validateCriterion rs (cs.map VerificationCheck.accepted) criterion).Silent ↔
      CriterionMet rs cs criterion := by
  have hchk : (cs.map VerificationCheck.accepted).filter (·.criterionId = criterion.criterionId) =
        (checksFor cs criterion.criterionId).map VerificationCheck.accepted := by
    rw [filter_map]
    rfl
  have hany : ∀ kind : VerificationKind, ((checksFor cs criterion.criterionId).map
      VerificationCheck.accepted).any (·.requirement.kind = kind) ↔
        ∃ c ∈ checksFor cs criterion.criterionId, c.requirement.kind = kind := by
    intro kind
    rw [any_map, any_eq_true]
    exact exists_congr fun c => and_congr_right fun _ => decide_eq_true_iff
  simp only [validateCriterion, silent_bind, silent_expect, hchk, map_map, flatMap_map, all_eq_true,
    mem_map, decide_eq_true_eq, Bool.or_eq_true, hany, comp_def]
  constructor
  · rintro ⟨h₁, h₂, h₃, h₄⟩
    refine ⟨h₁, h₂, h₃, fun refs hrf => ?_⟩
    rw [hrf] at h₄
    simpa [setsEqual_iff, VerificationCheck.accepted] using h₄
  · intro h
    refine ⟨h.requirements, h.deterministic, h.human, ?_⟩
    cases hrf : rs.lookup criterion.criterionId with
    | none => simp
    | some refs => simpa [setsEqual_iff, VerificationCheck.accepted] using h.evidence refs hrf

@[mk_iff]
structure ReadsChecks (plan : WorkOrderPlan) (branchRef : Ref) (rs : List (Ref × List Ref))
    (value : Raw) (xs : List Raw) (cs : List VerificationCheck) : Prop where
  eq : value = .arr xs
  length_le : xs.length ≤ 128
  reads : Forall₂ (ReadsCheck plan branchRef) xs cs
  apart : ChecksApart cs
  met : ∀ criterion ∈ plan.content.acceptancePolicy.criteria, CriterionMet rs cs criterion

theorem validateVerificationChecks_silent {rs : List (Ref × List Ref)} :
    (validateVerificationChecks snap p br rs).Silent ↔
      ∃ xs cs, ReadsChecks p br rs (member snap "verification_checks") xs cs := by
  rw [validateVerificationChecks]
  cases member snap "verification_checks" with
  | arr xs =>
    refine ((takes_check _ _).silent_bounded (by simp)).trans ?_
    simp only [checks_admits, checks_accepted, silent_foldlM_unit, validateCriterion_silent,
      readsChecks_iff, arr.injEq, exists_and_left, exists_eq_left']
  | null | bool | num | str | obj => simp [readsChecks_iff]

/-! ## Normalised plans -/

/-- What every normalised plan has. -/
structure PlanFacts (plan : WorkOrderPlan) (acceptanceRef : Ref) : Prop where
  identity : PlanIdentity plan
  branches_le : plan.content.branches.length ≤ 64
  branchRefs : (branchRefs plan.content.branches).Nodup
  branchRef : ∀ b ∈ plan.content.branches, IsRef b.branchRef
  criteria_le : plan.content.acceptancePolicy.criteria.length ≤ 64
  criterionIds : (criterionIds plan).Nodup
  criterionId : ∀ c ∈ plan.content.acceptancePolicy.criteria, IsRef c.criterionId
  mode : ∀ c ∈ plan.content.acceptancePolicy.criteria,
    c.verification.Matches c.verificationRequirements
  verificationRefs : (plan.content.acceptancePolicy.criteria.flatMap fun c =>
    c.verificationRequirements.map (·.verificationRef.id)).Nodup
  verificationRef : ∀ c ∈ plan.content.acceptancePolicy.criteria,
    ∀ r ∈ c.verificationRequirements, IsRef r.verificationRef.id ∧ isSha256 r.verificationRef.hash
  acceptanceBranch : acceptanceBranchRef plan = some acceptanceRef
  acceptanceRef : IsRef acceptanceRef

theorem isRef_of_readsRef {raw : Raw} (h : ReadsRef raw s) : IsRef s := by
  obtain ⟨_, -, -, href⟩ := h
  exact href

theorem ReadsContent.acceptanceBranch {c : PlanContent} (h : ReadsContent ms c) (H : Sha256) :
    ∃ ref, acceptanceBranchRef (c.snapshot H) = some ref ∧ IsRef ref := by
  rw [acceptanceBranchRef, show (c.snapshot H).content = c from rfl]
  cases hi : c.integrationBranchRef with
  | some ref =>
    have href := h.integrationBranchRef
    rw [hi] at href
    exact ⟨ref, rfl, isRef_of_readsRef href⟩
  | none =>
    have hru : PlanRules c c.branches := h.branches.ok fun _ _ => PlanRules.perm
    obtain ⟨b, hb⟩ := exists_mem_of_length_pos (Nat.pos_of_ne_zero hru.work)
    rw [mem_filter, decide_eq_true_eq] at hb
    cases hfi : c.branches.find? (·.role = .work) with
    | none => exact absurd hb.2 (by simpa using find?_eq_none.mp hfi b hb.1)
    | some b' =>
      obtain ⟨_, _, -, href, -⟩ := h.branches.forall (mem_of_find?_eq_some hfi)
      exact ⟨b'.branchRef, rfl, isRef_of_readsRef href⟩

theorem ReadsContent.planFacts {c : PlanContent}
    (h : ReadsContent ms c) (H : Sha256) (href : acceptanceBranchRef (c.snapshot H) = some ref) :
    PlanFacts (c.snapshot H) ref := by
  have hru : PlanRules c c.branches := h.branches.ok fun _ _ => PlanRules.perm
  obtain ⟨_, -, hcri, -⟩ := h.acceptancePolicy
  have hcr : ∀ k ∈ c.acceptancePolicy.criteria, IsRef k.criterionId ∧
      k.verification.Matches k.verificationRequirements ∧
      ∀ r ∈ k.verificationRequirements, IsRef r.verificationRef.id ∧
        isSha256 r.verificationRef.hash := by
    intro k hk
    obtain ⟨_, _, -, hid, -, -, hreqs⟩ := hcri.forall hk
    refine ⟨isRef_of_readsRef hid, (hreqs.ok fun _ _ => RequirementsOk.perm).2, fun r hr => ?_⟩
    obtain ⟨_, _, -, -, _, -, hrid, hh⟩ := hreqs.forall hr
    exact ⟨isRef_of_readsRef hrid, hh.2⟩
  obtain ⟨ref', href', hir⟩ := h.acceptanceBranch H
  obtain rfl := Option.some.inj (href.symm.trans href')
  exact {
    identity := ⟨isRef_of_readsRef h.projectRef, isPlanSnapshotId_snapshot H c,
      isSha256_snapshot H c, h.revision.2.1,
      (Int.ofNat_le.mpr h.revision.2.2).trans (by decide)⟩
    branches_le := h.branches.length.2
    branchRefs := hru.refs
    branchRef := fun b hb => by
      obtain ⟨_, _, -, hb, -⟩ := h.branches.forall hb
      exact isRef_of_readsRef hb
    criteria_le := hcri.length.2
    criterionIds := hcri.ok fun _ _ hp => (hp.map _).nodup_iff.mp
    criterionId := fun k hk => (hcr k hk).1
    mode := fun k hk => (hcr k hk).2.1
    verificationRefs := by
      have hnd := hru.contentRefs
      rw [planContentRefs, map_append, map_flatMap] at hnd
      have hright := hnd.of_append_right
      simp only [map_map, comp_def] at hright
      exact hright
    verificationRef := fun k hk => (hcr k hk).2.2
    acceptanceBranch := href
    acceptanceRef := hir }

/-! ## The evaluator -/

/-- What an accepted snapshot reports: the raw items and what they say. -/
structure SnapshotReading where
  branchItems : List Raw
  branchRefs : List Ref
  criterionItems : List Raw
  criterionResults : List CriterionResult
  reviewItems : List Raw
  reviews : List ReviewResult
  checkItems : List Raw
  checks : List VerificationCheck

structure AcceptsSnapshot (plan : WorkOrderPlan) (branchRef : Ref) (snapshot : Raw)
    (S : SnapshotReading) : Prop where
  identity : SnapshotIdentity snapshot plan
  branches : ReadsBranchResults plan (member snapshot "branches") S.branchItems S.branchRefs
  criterionResults : ReadsCriterionResults plan (member snapshot "criterion_results")
    S.criterionItems S.criterionResults
  reviews : ReadsReviews plan branchRef (member snapshot "reviews") S.reviewItems S.reviews
  attention : member snapshot "pending_attention_refs" = .arr []
  risks : member snapshot "open_risk_refs" = .arr []
  unverified : member snapshot "unverified_refs" = .arr []
  checks : ReadsChecks plan branchRef
    (S.criterionResults.map fun r => (r.criterionId, r.evidenceRefs))
    (member snapshot "verification_checks") S.checkItems S.checks

theorem evaluateSnapshot_silent (hpl : PlanFacts p br) :
    (evaluateSnapshot p br snap).Silent ↔ ∃ S, AcceptsSnapshot p br snap S := by
  simp only [evaluateSnapshot, silent_bind, validateSnapshotIdentity_silent hpl.identity,
    validateBranches_silent hpl.branchRefs, validateCriterionResults_silent hpl.criterionIds,
    validateReviews_silent, validateEmptyRefList_silent]
  constructor
  · rintro ⟨hid, ⟨bx, bs, hbrs⟩, ⟨cx, cs, hcri⟩, ⟨rx, rs, hrvw⟩, hattention, hrisks,
      hunverified, hchk⟩
    rw [validateCriterionResults_value hpl.criterionIds hcri] at hchk
    obtain ⟨kx, ks, hchk⟩ := validateVerificationChecks_silent.mp hchk
    exact ⟨⟨bx, bs, cx, cs, rx, rs, kx, ks⟩, hid, hbrs, hcri, hrvw, hattention, hrisks,
      hunverified, hchk⟩
  · rintro ⟨S, h⟩
    refine ⟨h.identity, ⟨_, _, h.branches⟩, ⟨_, _, h.criterionResults⟩, ⟨_, _, h.reviews⟩,
      h.attention, h.risks, h.unverified, ?_⟩
    rw [validateCriterionResults_value hpl.criterionIds h.criterionResults]
    exact validateVerificationChecks_silent.mpr ⟨_, _, h.checks⟩

/-- **What the evaluator accepts.** -/
theorem evaluateBusinessAcceptanceV1_accepted {H : Sha256} {i : Raw} :
    (evaluateBusinessAcceptanceV1 H i).accepted ↔ preflightInput i ∧
        hasExactFields i INPUT_FIELDS ∧ ∃ p br S,
        normalizeBusinessWorkOrderPlanV1 H (member i "plan") = .ok p ∧
        PlanFacts p br ∧ hasExactFields (member i "snapshot") SNAPSHOT_FIELDS ∧
        AcceptsSnapshot p br (member i "snapshot") S := by
  rw [evaluateBusinessAcceptanceV1]
  split
  case isTrue hin =>
    rw [Bool.not_eq_true'] at hin
    simp only [invalidResult, Bool.false_eq_true, false_iff]
    rintro ⟨hpre, hfs, -⟩
    simp [hpre, hfs] at hin
  case isFalse hin =>
    rw [Bool.not_eq_true', Bool.not_eq_false, Bool.and_eq_true] at hin
    cases hpl : normalizeBusinessWorkOrderPlanV1 H (member i "plan") with
    | error e => simp [invalidResult]
    | ok p =>
      obtain ⟨-, ms, c, hrds, rfl⟩ := normalizeBusinessWorkOrderPlanV1_eq_ok.mp hpl
      obtain ⟨ref, href, -⟩ := hrds.content.acceptanceBranch H
      have hfacts := hrds.content.planFacts H href
      have heq : ∀ {ref'}, PlanFacts (c.snapshot H) ref' → ref' = ref := fun h =>
        Option.some.inj (h.acceptanceBranch.symm.trans href)
      simp only [href, Except.ok.injEq]
      split
      case isTrue hfs =>
        rw [Bool.not_eq_true'] at hfs
        simp [invalidResult, hfs]
      case isFalse hfs =>
        rw [Bool.not_eq_true', Bool.not_eq_false] at hfs
        have hsil : (evaluateSnapshot (c.snapshot H) ref (member i "snapshot")).remarks.isEmpty
            ↔ _ := isEmpty_iff.trans (evaluateSnapshot_silent hfacts)
        rw [hsil]
        constructor
        · rintro ⟨S, hS⟩
          exact ⟨hin.1, hin.2, _, ref, S, rfl, hfacts, hfs, hS⟩
        · rintro ⟨-, -, _, ref', S, rfl, hfacts', -, hS⟩
          exact ⟨S, heq hfacts' ▸ hS⟩

end Orquesta.Contract
