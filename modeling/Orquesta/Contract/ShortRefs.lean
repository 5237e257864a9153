import Mathlib.Algebra.Order.BigOperators.Group.List
import Orquesta.Contract.Accepted

/-!
# Short references

A portable reference starts with one of 62 letters and digits, so there are
62 references of one character and every other one takes at least two.
Whoever has to name `n` distinct references, none of them in a given list,
cannot do better than use up the free one-character names and go on with names
of two characters; `pick` does that, `two_mul_length_le` and
`countP_isShort_le` say that nobody does better.

The evaluator asks for distinct evidence, distinct verifiers and distinct
reviewers, and refuses reviewers and human verifiers that are assignees of the
plan.  This is where the least size of a snapshot stops being a plain sum over
the plan.
-/

namespace Orquesta.Contract

open List

/-! ## Short references -/

/-- The characters a reference may start with. -/
def refHeads : List Char := (range' 48 10 ++ range' 65 26 ++ range' 97 26).map Char.ofNat

theorem mem_refHeads {c : Char} : c ∈ refHeads ↔ isAlphanumeric c := by
  constructor
  · have hall : refHeads.all isAlphanumeric := by rfl
    exact all_eq_true.mp hall c
  · intro h
    simp only [isAlphanumeric, Bool.or_eq_true, Bool.and_eq_true, decide_eq_true_eq, Char.le_def,
      UInt32.le_iff_toNat_le] at h
    refine mem_map.mpr ⟨c.toNat, ?_, Char.ofNat_toNat c⟩
    simp only [mem_append, mem_range'_1]
    change ((65 ≤ c.toNat ∧ c.toNat ≤ 90) ∨ 97 ≤ c.toNat ∧ c.toNat ≤ 122) ∨ 48 ≤ c.toNat ∧
      c.toNat ≤ 57 at h
    omega

theorem nodup_refHeads : refHeads.Nodup := by
  have hcodes : refHeads.map Char.toNat = range' 48 10 ++ range' 65 26 ++ range' 97 26 := by rfl
  refine Nodup.of_map Char.toNat ?_
  rw [hcodes, nodup_append, nodup_append]
  refine ⟨⟨nodup_range' .., nodup_range' .., ?_⟩, nodup_range' .., ?_⟩
  all_goals
    simp only [mem_append, mem_range'_1]
    omega

/-- The references of one character. -/
def shortRefs : List Ref := refHeads.map fun c => String.ofList [c]

/-- References of two characters. -/
def longerRefs : List Ref := (refHeads ×ˢ refHeads).map fun p => String.ofList [p.1, p.2]

theorem length_shortRefs : shortRefs.length = 62 := by
  rw [shortRefs, length_map]
  rfl

theorem length_longerRefs : longerRefs.length = 3844 := by
  rw [longerRefs, length_map, length_product]
  rfl

theorem nodup_shortRefs : shortRefs.Nodup := by
  refine nodup_refHeads.map fun c d h => ?_
  simpa using String.ofList_injective h

theorem nodup_longerRefs : longerRefs.Nodup := by
  refine (nodup_refHeads.product nodup_refHeads).map fun p q h => ?_
  have := String.ofList_injective h
  exact Prod.ext (cons.inj this).1 (cons.inj (cons.inj this).2).1

theorem size_of_isRefChar {s : String} (h : ∀ c ∈ s.toList, isRefChar c) :
    s.utf8ByteSize = s.toList.length := by
  refine utf8ByteSize_of_ascii fun c hc => ?_
  have := isRefChar_code (h c hc)
  rw [Char.utf8Size_eq_one_iff, UInt32.le_iff_toNat_le]
  exact this.2.trans (by decide)

theorem IsRef.size {s : Ref} (h : IsRef s) : s.utf8ByteSize = s.toList.length :=
  size_of_isRefChar (isRefChar_of_matchesRef h.1)

theorem isRef_ofList {c : Char} {cs : List Char} (hc : c ∈ refHeads) (hcs : ∀ d ∈ cs, d ∈ refHeads)
    (hlen : cs.length < 256) :
    IsRef (String.ofList (c :: cs)) ∧ (String.ofList (c :: cs)).utf8ByteSize = cs.length + 1 := by
  have hm : matchesRef (String.ofList (c :: cs)) := by
    rw [matchesRef, String.toList_ofList, Bool.and_eq_true, all_eq_true]
    refine ⟨mem_refHeads.mp hc, fun d hd => ?_⟩
    simp [isRefChar, mem_refHeads.mp (hcs d hd)]
  have hsz : (String.ofList (c :: cs)).utf8ByteSize = cs.length + 1 := by
    rw [size_of_isRefChar (isRefChar_of_matchesRef hm), String.toList_ofList, length_cons]
  exact ⟨⟨hm, hsz ▸ hlen⟩, hsz⟩

theorem isRef_of_mem_shortRefs {s : Ref} (h : s ∈ shortRefs) : IsRef s ∧ s.utf8ByteSize = 1 := by
  obtain ⟨c, hc, rfl⟩ := mem_map.mp h
  exact isRef_ofList hc nofun (by decide)

theorem isRef_of_mem_longerRefs {s : Ref} (h : s ∈ longerRefs) : IsRef s ∧ s.utf8ByteSize = 2 := by
  obtain ⟨⟨c, d⟩, hp, rfl⟩ := mem_map.mp h
  obtain ⟨hc, hd⟩ := mem_product.mp hp
  exact isRef_ofList hc (forall_mem_singleton.mpr hd) (by simp)

theorem mem_shortRefs {s : Ref} (h : IsRef s) (hsz : s.utf8ByteSize ≤ 1) : s ∈ shortRefs := by
  rw [h.size] at hsz
  have hm := h.1
  rw [matchesRef] at hm
  split at hm
  case h_1 => cases hm
  case h_2 c cs hs =>
    rw [hs] at hsz
    obtain rfl : cs = [] := eq_nil_of_length_eq_zero (by simpa using hsz)
    rw [Bool.and_eq_true] at hm
    refine mem_map.mpr ⟨c, mem_refHeads.mpr hm.1, ?_⟩
    rw [← hs, String.ofList_toList]

theorem IsRef.size_pos {s : Ref} (h : IsRef s) : 1 ≤ s.utf8ByteSize := by
  rw [h.size]
  refine length_pos_iff.mpr fun hnil => h.ne_empty ?_
  rw [← String.ofList_toList (s := s), hnil]

/-- The bytes of all the references of a list. -/
def refBytes (l : List Ref) : Nat := (l.map String.utf8ByteSize).sum

def isShort (s : Ref) : Bool := s.utf8ByteSize ≤ 1

variable {l : List Ref}

theorem length_le_refBytes (h : ∀ s ∈ l, IsRef s) : l.length ≤ refBytes l := by
  have hle := length_le_sum_of_one_le (l.map String.utf8ByteSize) (forall_mem_map.mpr fun s hs =>
    (h s hs).size_pos)
  rwa [length_map] at hle

/-- A reference that is not short has at least two bytes. -/
theorem two_mul_length_le (h : ∀ s ∈ l, IsRef s) :
    2 * l.length ≤ refBytes l + l.countP isShort := by
  induction l with
  | nil => simp [refBytes]
  | cons s l ih =>
    obtain ⟨hs, hl⟩ := forall_mem_cons.mp h
    have := ih hl
    have hpos := hs.size_pos
    simp only [refBytes, map_cons, sum_cons, length_cons, countP_cons] at this ⊢
    by_cases hsh : isShort s
    · simp only [hsh, if_true]
      omega
    · have : ¬ s.utf8ByteSize ≤ 1 := by simpa [isShort] using hsh
      simp [hsh]
      omega

/-- At most as many of distinct references are short as there are short ones to choose from. -/
theorem countP_isShort_le (hnd : l.Nodup) (h : ∀ s ∈ l, IsRef s) (avoid : List Ref)
    (havoid : ∀ s ∈ l, s ∉ avoid) :
    l.countP isShort ≤ (shortRefs.filter (· ∉ avoid)).length := by
  rw [countP_eq_length_filter]
  refine ((hnd.filter _).subperm fun s hs => ?_).length_le
  rw [mem_filter] at hs
  exact mem_filter.mpr ⟨mem_shortRefs (h s hs.1) (by simpa [isShort] using hs.2),
    by simpa using havoid s hs.1⟩

/-! ## Choosing references -/

/-- The first `n` references, short ones first, that are not in `avoid`. -/
def pick (n : Nat) (avoid : List Ref) : List Ref :=
  ((shortRefs ++ longerRefs).filter (· ∉ avoid)).take n

/-- How many short references are not in `avoid`. -/
def shortCount (avoid : List Ref) : Nat := (shortRefs.filter (· ∉ avoid)).length

theorem disjoint_short_longer : Disjoint shortRefs longerRefs := by
  intro s hs hl
  have h₁ := (isRef_of_mem_shortRefs hs).2
  have h₂ := (isRef_of_mem_longerRefs hl).2
  omega

theorem pick_facts (n : Nat) (avoid : List Ref) :
    (pick n avoid).Nodup ∧ ∀ s ∈ pick n avoid, IsRef s ∧ s ∉ avoid := by
  have hnd : (shortRefs ++ longerRefs).Nodup :=
    nodup_shortRefs.append nodup_longerRefs disjoint_short_longer
  refine ⟨(hnd.filter _).sublist (take_sublist _ _), fun s hs => ?_⟩
  have hs := mem_filter.mp (mem_of_mem_take hs)
  refine ⟨?_, by simpa using hs.2⟩
  rcases mem_append.mp hs.1 with h | h
  · exact (isRef_of_mem_shortRefs h).1
  · exact (isRef_of_mem_longerRefs h).1

theorem length_le_filter_add (avoid : List Ref) (hnd : l.Nodup) :
    l.length ≤ (l.filter (· ∉ avoid)).length + avoid.length := by
  have hsub : (l.filter (· ∈ avoid)).length ≤ avoid.length :=
    ((hnd.filter _).subperm fun s hs => by simpa using (mem_filter.mp hs).2).length_le
  have hsp := length_eq_length_filter_add (l := l) (· ∈ avoid)
  simp only [decide_not] at *
  omega

theorem refBytes_append (l l' : List Ref) : refBytes (l ++ l') = refBytes l + refBytes l' := by
  simp [refBytes]

theorem refBytes_of_forall {k : Nat} (h : ∀ s ∈ l, s.utf8ByteSize = k) :
    refBytes l = k * l.length := by
  rw [refBytes, map_congr_left h, map_const', sum_replicate_nat, Nat.mul_comm]

theorem length_shortRefs_filter_nil : (shortRefs.filter (· ∉ ([] : List Ref))).length = 62 := by
  rw [filter_eq_self.mpr fun _ _ => by simp, length_shortRefs]

/-- Enough references can be chosen, and the choice is as short as possible. -/
theorem pick_size (n : Nat) (avoid : List Ref) (h : n + avoid.length ≤ 3844) :
    (pick n avoid).length = n ∧ refBytes (pick n avoid) + min n (shortCount avoid) = 2 * n := by
  have hlonger := length_le_filter_add avoid nodup_longerRefs
  rw [length_longerRefs] at hlonger
  have hsp : pick n avoid = (shortRefs.filter (· ∉ avoid)).take n ++
      (longerRefs.filter (· ∉ avoid)).take (n - shortCount avoid) := by
    rw [pick, filter_append, take_append]
    rfl
  have hsh : refBytes ((shortRefs.filter (· ∉ avoid)).take n) =
      1 * ((shortRefs.filter (· ∉ avoid)).take n).length :=
    refBytes_of_forall fun s hs =>
      (isRef_of_mem_shortRefs (mem_filter.mp (mem_of_mem_take hs)).1).2
  have hlg : refBytes ((longerRefs.filter (· ∉ avoid)).take (n - shortCount avoid)) =
      2 * ((longerRefs.filter (· ∉ avoid)).take (n - shortCount avoid)).length :=
    refBytes_of_forall fun s hs =>
      (isRef_of_mem_longerRefs (mem_filter.mp (mem_of_mem_take hs)).1).2
  rw [length_take] at hsh hlg
  rw [hsp, length_append, refBytes_append, hsh, hlg, length_take, length_take]
  simp only [shortCount] at *
  omega

/-- How many short references a choice uses up. -/
theorem shortCount_pick (n : Nat) (avoid : List Ref) :
    shortCount (pick n avoid) + min n (shortCount avoid) = 62 := by
  have hmem : ∀ s ∈ shortRefs, s ∈ pick n avoid ↔ s ∈ (shortRefs.filter (· ∉ avoid)).take n := by
    intro s hs
    rw [pick, filter_append, take_append, mem_append]
    refine ⟨fun h => h.resolve_right fun hlg => ?_, Or.inl⟩
    exact disjoint_short_longer hs (mem_filter.mp (mem_of_mem_take hlg)).1
  have htake : ((shortRefs.filter (· ∉ avoid)).take n).Sublist shortRefs :=
    (take_sublist _ _).trans filter_sublist
  have hused : (shortRefs.filter (· ∈ pick n avoid)).length = min n (shortCount avoid) := by
    rw [shortCount, ← length_take]
    refine Perm.length_eq ((perm_ext_iff_of_nodup (nodup_shortRefs.filter _)
      (nodup_shortRefs.sublist htake)).mpr fun s => ?_)
    rw [mem_filter, decide_eq_true_eq]
    exact ⟨fun ⟨hs, hp⟩ => (hmem s hs).mp hp,
      fun h => ⟨htake.subset h, (hmem s (htake.subset h)).mpr h⟩⟩
  have hsp := length_eq_length_filter_add (l := shortRefs) (· ∈ pick n avoid)
  rw [length_shortRefs, hused] at hsp
  rw [shortCount]
  simp only [decide_not] at *
  omega

end Orquesta.Contract
