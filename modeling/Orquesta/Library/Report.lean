import Mathlib.Data.List.Basic
import Mathlib.Order.Basic

/-!
# Reports

A validator of another kind than `Checked`: it looks at everything and returns
the list of what it found wrong.  A value is accepted when that list is empty.
`reportIf` is one check and `scan` a loop whose checks may look at the elements
before the current one, which is what a loop filling maps and sets amounts to.

`revisits` follows links from a given element and reports whether it comes back
to one it has seen.  Links along which some rank goes up strictly never lead back.

## Main results

* `reportIf_eq_nil`, `scan_eq_nil`, `scan_forall`, `scan_pairwise`: when nothing is found
* `revisits_eq_false`: the rank rule
-/

namespace Report

open List

variable {ε α κ : Type}

/-- Report `e` when `c` holds. -/
def reportIf (c : Prop) [Decidable c] (e : ε) : List ε := if c then [e] else []

@[simp] theorem reportIf_eq_nil {c : Prop} [Decidable c] {e : ε} : reportIf c e = [] ↔ ¬ c := by
  unfold reportIf
  split <;> simp_all

/-- The reports of `f` on each element of `rest`, given the elements before it. -/
def scanFrom (f : List α → α → List ε) : List α → List α → List ε
  | _, [] => []
  | earlier, a :: rest => f earlier a ++ scanFrom f (earlier ++ [a]) rest

def scan (f : List α → α → List ε) (l : List α) : List ε := scanFrom f [] l

variable {f : List α → α → List ε} {l : List α}

theorem scanFrom_eq_nil {earlier : List α} : scanFrom f earlier l = [] ↔
      ∀ pre a after, l = pre ++ a :: after → f (earlier ++ pre) a = [] := by
  induction l generalizing earlier with
  | nil => simp [scanFrom]
  | cons b l ih =>
    rw [scanFrom, append_eq_nil_iff, ih]
    constructor
    · rintro ⟨hb, hrs⟩ pre a after hsp
      cases pre with
      | nil =>
        obtain ⟨rfl, -⟩ := cons.inj hsp
        simpa using hb
      | cons c pre =>
        obtain ⟨rfl, htail⟩ := cons.inj hsp
        simpa using hrs pre a after htail
    · intro h
      refine ⟨by simpa using h [] b l rfl, fun pre a after hsp => ?_⟩
      simpa using h (b :: pre) a after (by rw [hsp, cons_append])

theorem scan_eq_nil : scan f l = [] ↔ ∀ pre a after, l = pre ++ a :: after → f pre a = [] := by
  rw [scan, scanFrom_eq_nil]
  simp only [nil_append]

/-- A scan whose check does not look back finds nothing when every element passes. -/
theorem scan_forall {P : α → Prop} (hf : ∀ pre a, f pre a = [] ↔ P a) :
    scan f l = [] ↔ ∀ a ∈ l, P a := by
  simp only [scan_eq_nil, hf]
  constructor
  · intro h a ha
    obtain ⟨pre, after, rfl⟩ := append_of_mem ha
    exact h pre a after rfl
  · rintro h pre a after rfl
    exact h a (by simp)

/-- Two checks in one loop are two loops. -/
theorem scan_append {g : List α → α → List ε} :
    scan (fun pre a => f pre a ++ g pre a) l = [] ↔ scan f l = [] ∧ scan g l = [] := by
  simp only [scan_eq_nil, append_eq_nil_iff]
  exact ⟨fun h => ⟨fun b a c hs => (h b a c hs).1, fun b a c hs => (h b a c hs).2⟩,
    fun h b a c hs => ⟨h.1 b a c hs, h.2 b a c hs⟩⟩

/-- A scan whose check compares with each earlier element finds nothing when no two elements
clash.  The check need only do so at the places of the list itself. -/
theorem scan_pairwise {R : α → α → Prop}
    (hf : ∀ pre a after, l = pre ++ a :: after → (f pre a = [] ↔ ∀ b ∈ pre, R b a)) :
    scan f l = [] ↔ l.Pairwise R := by
  have hplaces : scan f l = [] ↔ ∀ pre a after, l = pre ++ a :: after → ∀ b ∈ pre, R b a := by
    rw [scan_eq_nil]
    exact ⟨fun h b a c hs => (hf b a c hs).mp (h b a c hs), fun h b a c hs =>
      (hf b a c hs).mpr (h b a c hs)⟩
  rw [hplaces]
  clear hplaces hf
  constructor
  · intro h
    induction l with
    | nil => exact Pairwise.nil
    | cons b l ih =>
      refine Pairwise.cons (fun a ha => ?_) (ih fun pre a after hsp c hc => ?_)
      · obtain ⟨pre, after, rfl⟩ := append_of_mem ha
        exact h (b :: pre) a after rfl b mem_cons_self
      · exact h (b :: pre) a after (by rw [hsp, cons_append]) c
          (mem_cons_of_mem _ hc)
  · rintro h pre a after rfl b hb
    exact (pairwise_append.mp h).2.2 b hb a mem_cons_self

/-- Follow the links from `cursor`: is some element met twice?  The fuel bounds the walk. -/
def revisits [DecidableEq κ] (key : α → κ) (link : α → Option κ) (find : κ → Option α) :
    Nat → List κ → Option α → Bool
  | 0, _, _ => false
  | _, _, none => false
  | fuel + 1, visited, some a =>
    match link a with
    | none => false
    | some k =>
      if key a ∈ visited then true else revisits key link find fuel (key a :: visited) (find k)

/-- A walk along which a rank goes up strictly meets nothing twice. -/
theorem revisits_eq_false [DecidableEq κ] {τ : Type} [Preorder τ] {key : α → κ}
    {link : α → Option κ} {find : κ → Option α} {S : List α} (rank : α → τ)
    (hkey : ∀ a ∈ S, ∀ b ∈ S, key a = key b → rank a = rank b)
    (hup : ∀ a ∈ S, ∀ k b, link a = some k → find k = some b → b ∈ S ∧ rank a < rank b)
    {fuel : Nat} {a : α} (ha : a ∈ S) : revisits key link find fuel [] (some a) = false := by
  -- everything visited has a smaller rank than where the walk is
  have hwalk : ∀ fuel vis a, a ∈ S → (∀ v ∈ vis, ∃ c ∈ S, key c = v ∧ rank c < rank a) →
      revisits key link find fuel vis (some a) = false := by
    intro fuel
    induction fuel with
    | zero => intro vis a _ _; rfl
    | succ fuel ih =>
      intro vis a ha hvisited
      rw [revisits]
      cases hlk : link a with
      | none => rfl
      | some k =>
        have hnew : key a ∉ vis := by
          intro hmem
          obtain ⟨c, hc, hkc, hlt⟩ := hvisited _ hmem
          exact absurd (hkey c hc a ha hkc) hlt.ne
        simp only [if_neg hnew]
        cases hfi : find k with
        | none => cases fuel <;> rfl
        | some b =>
          obtain ⟨hb, hlt⟩ := hup a ha k b hlk hfi
          refine ih _ b hb fun v hv => ?_
          rcases mem_cons.mp hv with rfl | hv
          · exact ⟨a, ha, rfl, hlt⟩
          · obtain ⟨c, hc, hkc, hlt'⟩ := hvisited v hv
            exact ⟨c, hc, hkc, hlt'.trans hlt⟩
  exact hwalk fuel [] a ha fun _ hv => absurd hv not_mem_nil

end Report
