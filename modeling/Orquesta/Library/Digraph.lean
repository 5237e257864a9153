import Mathlib.Algebra.GroupWithZero.Nat
import Mathlib.Order.WellFoundedSet
import Orquesta.Library.Checked

/-!
# Traversals of a finite directed graph

A graph is given by its successor lists.  `visitAll` is the depth-first search that
stops at a node it is already visiting; it succeeds exactly when no node it is asked
for lies above a cycle (`visitAll_isOk_iff`).  `collect` is the worklist loop that
gathers what a stack of nodes leads to; it returns exactly the reachable nodes
(`mem_collect_iff`).  Neither answer depends on the order in which nodes or
successors are tried.

Both traversals carry a fuel argument.  The bounds in the two main results are the
ones their callers use, and there the fuel never runs out.

## Main definitions

* `visit`, `visitAll`: depth-first search for a cycle
* `collect`: the worklist
* `Outward`: the edges that do not start in a set

## Main results

* `visitAll_isOk_iff`, `mem_collect_iff`
* `acyclic_of_parts`: a graph of two parts without a cycle
-/

namespace Digraph

open List Relation Checked

variable {α : Type} [DecidableEq α] (succ : α → List α)

/-- `b` is a successor of `a`. -/
def Edge (a b : α) : Prop := b ∈ succ a

/-- No infinite path starts at `a`. -/
def Grounded (a : α) : Prop := Acc (fun b a => Edge succ a b) a

/-! ## Depth-first search -/

/-- Visit a node: the trail that led to it when it is being visited already, otherwise the nodes
visited so far. -/
def visit : Nat → List α → List α → α → Except (List α) (List α)
  | 0, visiting, _, _ => .error visiting.reverse
  | fuel + 1, visiting, visited, a =>
    if a ∈ visiting then .error (a :: visiting).reverse
    else if a ∈ visited then .ok visited
    else do
      let visited ← (succ a).foldlM (visit fuel (a :: visiting)) visited
      return a :: visited

/-- Visit every node of a list in turn. -/
def visitAll (fuel : Nat) (nodes : List α) : Except (List α) (List α) :=
  nodes.foldlM (visit succ fuel []) []

variable {succ}

omit [DecidableEq α] in
theorem Grounded.not_transGen {a : α} (h : Grounded succ a) : ¬ TransGen (Edge succ) a a := by
  induction h with
  | intro a _ ih =>
    intro hcycle
    obtain ⟨b, hab, hba⟩ := TransGen.head'_iff.mp hcycle
    exact ih b hab (TransGen.tail' hba hab)

variable {nodes : List α}

omit [DecidableEq α] in
/-- A finite graph without a cycle has no infinite path. -/
theorem grounded_of_acyclic (hedge : ∀ a b, Edge succ a b → a ∈ nodes ∧ b ∈ nodes)
    (h : ∀ a, ¬ TransGen (Edge succ) a a) (a : α) : Grounded succ a := by
  let below (b a : α) := TransGen (Edge succ) a b
  have : IsStrictOrder α below := { irrefl := h, trans := fun _ _ _ hab hbc => hbc.trans hab }
  have hwf := Set.wellFoundedOn_iff.mp (nodes.finite_toSet.wellFoundedOn (r := below))
  refine Subrelation.accessible (fun {b a} hab => ?_) (hwf.apply a)
  exact ⟨.single hab, (hedge a b hab).2, (hedge a b hab).1⟩

/-- Nodes of which every one has a successor among them are none, if there is no cycle. -/
theorem eq_nil_of_acyclic (h : ∀ a, ¬ TransGen (Edge succ) a a)
    (hnx : ∀ a ∈ nodes, ∃ b ∈ nodes, Edge succ a b) : nodes = [] := by
  -- The graph is cut down to the nodes.
  let inner (a : α) := (succ a).filter fun b => a ∈ nodes ∧ b ∈ nodes
  have hin {a b : α} : Edge inner a b ↔ Edge succ a b ∧ a ∈ nodes ∧ b ∈ nodes := by
    simp [Edge, inner]
  have hg : ∀ a, Grounded inner a := grounded_of_acyclic (fun a b hab => (hin.mp hab).2)
    fun a hcyc => h a (TransGen.mono (fun _ _ hbc => (hin.mp hbc).1) _ _ hcyc)
  refine eq_nil_iff_forall_not_mem.mpr fun a ha => ?_
  induction hg a with
  | intro a _ ih =>
    obtain ⟨b, hb, hab⟩ := hnx a ha
    exact ih b (hin.mpr ⟨hab, ha, hb⟩) hb

omit [DecidableEq α] in
/-- A search that succeeds has only grounded nodes in its result, and keeps what it had. -/
theorem foldlM_sound {f : List α → α → Except (List α) (List α)} {l : List α}
    (hf : ∀ vis a out, f vis a = .ok out → (∀ v ∈ vis, Grounded succ v) →
      (∀ v ∈ out, Grounded succ v) ∧ vis ⊆ out ∧ a ∈ out) {vis out : List α}
    (h : l.foldlM f vis = .ok out) (hv : ∀ v ∈ vis, Grounded succ v) :
    (∀ v ∈ out, Grounded succ v) ∧ vis ⊆ out ∧ ∀ a ∈ l, a ∈ out := by
  induction l generalizing vis with
  | nil =>
    cases h
    exact ⟨hv, Subset.refl _, by simp⟩
  | cons a l ih =>
    obtain ⟨mid, ha, hl⟩ := bind_eq_ok.mp h
    obtain ⟨hmid, hsub, hamid⟩ := hf vis a mid ha hv
    obtain ⟨hout, hsub', hmem⟩ := ih hl hmid
    refine ⟨hout, fun _ hv => hsub' (hsub hv), fun b hb => ?_⟩
    rcases mem_cons.mp hb with rfl | hb
    · exact hsub' hamid
    · exact hmem b hb

theorem visit_sound (fuel : Nat) : ∀ (visiting vis : List α) (a : α) (out : List α),
    visit succ fuel visiting vis a = .ok out → (∀ v ∈ vis, Grounded succ v) →
      (∀ v ∈ out, Grounded succ v) ∧ vis ⊆ out ∧ a ∈ out := by
  induction fuel with
  | zero => intro _ _ _ _ h; cases h
  | succ fuel ih =>
    intro visiting vis a out h hv
    rw [visit] at h
    split at h
    · cases h
    split at h
    case isTrue hmem =>
      cases h
      exact ⟨hv, Subset.refl _, hmem⟩
    case isFalse =>
      simp only [bind_eq_ok, pure_eq_ok] at h
      obtain ⟨mid, hmid, rfl⟩ := h
      obtain ⟨hg, hsub, hsucc⟩ := foldlM_sound (ih (a :: visiting)) hmid hv
      have ha : Grounded succ a := ⟨a, fun b hb => hg b (hsucc b hb)⟩
      refine ⟨?_, fun v hv => mem_cons_of_mem a (hsub hv), mem_cons_self⟩
      rintro v (_ | ⟨_, hv⟩)
      · exact ha
      · exact hg v hv

/-- With only grounded nodes ahead the search succeeds, as long as every node being visited leads
to the next one and the fuel covers the nodes not being visited. -/
theorem visit_complete (hcl : ∀ a ∈ nodes, succ a ⊆ nodes) (fuel : Nat) :
    ∀ (visiting vis : List α) (a : α), a ∈ nodes → Grounded succ a → visiting.Nodup →
      visiting ⊆ nodes → (∀ v ∈ visiting, TransGen (Edge succ) v a) →
      nodes.length + 1 ≤ fuel + visiting.length →
      ∃ out, visit succ fuel visiting vis a = .ok out := by
  induction fuel with
  | zero =>
    intro visiting _ _ _ _ hnd hsub _ hle
    have := (hnd.subperm hsub).length_le
    omega
  | succ fuel ih =>
    intro visiting vis a ha hg hnd hsub hpath hle
    have hnot : a ∉ visiting := fun h => hg.not_transGen (hpath a h)
    rw [visit, if_neg hnot]
    split
    · exact ⟨vis, rfl⟩
    -- every successor is visited below `a :: visiting`
    have hfold : ∀ (l : List α), l ⊆ succ a → ∀ vis : List α,
        ∃ out, l.foldlM (visit succ fuel (a :: visiting)) vis = .ok out := by
      intro l
      induction l with
      | nil => exact fun _ vis => ⟨vis, rfl⟩
      | cons b l ihl =>
        intro hl vis
        have hb : b ∈ succ a := hl mem_cons_self
        have hedge : Edge succ a b := hb
        obtain ⟨mid, hmid⟩ := ih (a :: visiting) vis b (hcl a ha hb)
          (hg.inv hedge) (nodup_cons.mpr ⟨hnot, hnd⟩)
          (cons_subset.mpr ⟨ha, hsub⟩)
          (by
            rintro v (_ | ⟨_, hv⟩)
            · exact .single hedge
            · exact (hpath v hv).tail hedge)
          (by rw [length_cons]; omega)
        obtain ⟨out, hout⟩ := ihl (fun c hc => hl (mem_cons_of_mem b hc)) mid
        exact ⟨out, by rw [foldlM_cons, hmid]; exact hout⟩
    obtain ⟨mid, hmid⟩ := hfold (succ a) (Subset.refl _) vis
    exact ⟨a :: mid, by rw [hmid]; rfl⟩

/-- **Cycle detection.**  The search over all nodes succeeds exactly when none of them starts an
infinite path. -/
theorem visitAll_isOk_iff (hcl : ∀ a ∈ nodes, succ a ⊆ nodes) :
    (visitAll succ (nodes.length + 1) nodes).isOk ↔ ∀ a ∈ nodes, Grounded succ a := by
  rw [isOk_iff]
  constructor
  · rintro ⟨out, h⟩ a ha
    obtain ⟨hg, -, hmem⟩ := foldlM_sound (visit_sound _ []) h (by simp)
    exact hg a (hmem a ha)
  · intro hg
    have hfold : ∀ (l : List α), l ⊆ nodes → ∀ vis : List α,
        ∃ out, l.foldlM (visit succ (nodes.length + 1) []) vis = .ok out := by
      intro l
      induction l with
      | nil => exact fun _ vis => ⟨vis, rfl⟩
      | cons a l ihl =>
        intro hl vis
        have ha := hl mem_cons_self
        obtain ⟨mid, hmid⟩ := visit_complete hcl (nodes.length + 1) [] vis a ha (hg a ha)
          nodup_nil (by simp) (by simp) (by simp)
        obtain ⟨out, hout⟩ := ihl (fun c hc => hl (mem_cons_of_mem a hc)) mid
        exact ⟨out, by rw [foldlM_cons, hmid]; exact hout⟩
    exact hfold nodes (Subset.refl _) []

/-! ## Two parts of a graph -/

section Parts

variable {r : α → α → Prop} {inside : α → Prop}

/-- The edges that start outside. -/
def Outward (r : α → α → Prop) (inside : α → Prop) (a b : α) : Prop := r a b ∧ ¬ inside a

omit [DecidableEq α] in
/-- From inside a path goes on inside, or it has left and is outside for good. -/
theorem inside_or_outside (hback : ∀ a b c, inside a → r a b → TransGen (Outward r inside) b c →
    ¬ inside c)
    {a b : α} (ha : inside a) (h : TransGen r a b) :
    (inside b ∧ TransGen (fun a b => r a b ∧ inside a ∧ inside b) a b) ∨
      ¬ inside b ∧ ∃ c d, inside c ∧ r c d ∧ ReflTransGen (Outward r inside) d b := by
  have hleaves {b c : α} (hb : inside b) (hbc : r b c) (hc : ¬ inside c) : ¬ inside c ∧
      ∃ a d, inside a ∧ r a d ∧ ReflTransGen (Outward r inside) d c := ⟨hc, b, c, hb, hbc, .refl⟩
  induction h with
  | @single b hab =>
    by_cases hb : inside b
    · exact .inl ⟨hb, .single ⟨hab, ha, hb⟩⟩
    · exact .inr (hleaves ha hab hb)
  | @tail b c _ hbc ih =>
    obtain ⟨hb, hpath⟩ | ⟨hb, x, d, hx, hxd, hpath⟩ := ih
    · by_cases hc : inside c
      · exact .inl ⟨hc, hpath.tail ⟨hbc, hb, hc⟩⟩
      · exact .inr (hleaves hb hbc hc)
    · have hpath' : TransGen (Outward r inside) d c := TransGen.tail' hpath ⟨hbc, hb⟩
      exact .inr ⟨hback x d c hx hxd hpath', x, d, hx, hxd, hpath'.to_reflTransGen⟩

omit [DecidableEq α] in
/-- From outside a path stays outside, or it comes inside. -/
theorem outward_or_inside {a b : α} (h : TransGen r a b) (ha : ¬ inside a) :
    TransGen (Outward r inside) a b ∨ ∃ d, inside d ∧ TransGen r a d ∧ ReflTransGen r d b := by
  induction h with
  | single hab => exact .inl (.single ⟨hab, ha⟩)
  | @tail b c hab hbc ih =>
    obtain hpath | ⟨d, hd, had, hdb⟩ := ih
    · by_cases hb : inside b
      · exact .inr ⟨b, hb, hab, .single hbc⟩
      · exact .inl (hpath.tail ⟨hbc, hb⟩)
    · exact .inr ⟨d, hd, had, hdb.tail hbc⟩

omit [DecidableEq α] in
/-- There is no cycle if there is none inside a set and none outside, and no path that leaves the
set comes back. -/
theorem acyclic_of_parts (inside : α → Prop)
    (hin : ∀ a, ¬ TransGen (fun a b => r a b ∧ inside a ∧ inside b) a a)
    (hout : ∀ a, ¬ TransGen (Outward r inside) a a)
    (hback : ∀ a b c, inside a → r a b → TransGen (Outward r inside) b c → ¬ inside c) (a : α) :
    ¬ TransGen r a a := by
  have hinside {d : α} (hd : inside d) : ¬ TransGen r d d := by
    intro hcycle
    obtain ⟨-, hpath⟩ | ⟨hnot, -⟩ := inside_or_outside hback hd hcycle
    · exact hin d hpath
    · exact hnot hd
  intro hcycle
  by_cases ha : inside a
  · exact hinside ha hcycle
  · obtain hpath | ⟨d, hd, had, hda⟩ := outward_or_inside hcycle ha
    · exact hout a hpath
    · exact hinside hd (TransGen.trans_right hda had)

end Parts

/-! ## Reachable nodes -/

variable (succ)

/-- The worklist: take the top of the stack, and push the successors of a node seen first. -/
def collect : Nat → List α → List α → List α
  | 0, _, reached => reached
  | _ + 1, [], reached => reached
  | fuel + 1, a :: stack, reached =>
    if a ∈ reached then collect fuel stack reached
    else collect fuel ((succ a).reverse ++ stack) (a :: reached)

/-- The edges that leave the nodes of a list not yet reached. -/
def edgesLeft (nodes reached : List α) : Nat :=
  ((nodes.filter (· ∉ reached)).map fun a => (succ a).length).sum

variable {succ}

theorem collect_sound {P : α → Prop} (hP : ∀ a b, P a → Edge succ a b → P b) (fuel : Nat) :
    ∀ stack reached : List α, (∀ a ∈ stack, P a) → (∀ a ∈ reached, P a) →
      ∀ a ∈ collect succ fuel stack reached, P a := by
  induction fuel with
  | zero => exact fun _ _ _ hr => hr
  | succ fuel ih =>
    intro stack reached hs hr
    cases stack with
    | nil => exact hr
    | cons a stack =>
      rw [forall_mem_cons] at hs
      rw [collect]
      split
      · exact ih stack reached hs.2 hr
      · refine ih _ _ ?_ (forall_mem_cons.mpr ⟨hs.1, hr⟩)
        intro b hb
        rcases mem_append.mp hb with hb | hb
        · exact hP a b hs.1 (mem_reverse.mp hb)
        · exact hs.2 b hb

variable (succ) in
theorem edgesLeft_cons {reached : List α} (hn : nodes.Nodup) {a : α} (ha : a ∈ nodes)
    (hr : a ∉ reached) :
    edgesLeft succ nodes reached = (succ a).length + edgesLeft succ nodes (a :: reached) := by
  have hpm := perm_cons_erase ha
  have hfil : ∀ r : List α, ((nodes.filter (· ∉ r)).map fun b => (succ b).length).sum =
      (((a :: nodes.erase a).filter (· ∉ r)).map fun b => (succ b).length).sum :=
    fun r => ((hpm.filter _).map _).sum_nat
  have herase : ∀ b ∈ nodes.erase a, (decide (b ∉ reached)) = decide (b ∉ a :: reached) := by
    intro b hb
    have hne : b ≠ a := fun h => hn.not_mem_erase (h ▸ hb)
    simp [hne]
  rw [edgesLeft, edgesLeft, hfil reached, hfil (a :: reached),
    filter_cons_of_pos (by simpa using hr), filter_cons_of_neg (by simp),
    filter_congr herase]
  simp

/-- What the loop returns contains the stack, and is closed under successors. -/
theorem collect_closed (hn : nodes.Nodup) (hcl : ∀ a ∈ nodes, succ a ⊆ nodes)
    (fuel : Nat) : ∀ stack reached : List α, stack ⊆ nodes →
      (∀ a ∈ reached, succ a ⊆ reached ++ stack) →
      stack.length + edgesLeft succ nodes reached ≤ fuel →
      reached ⊆ collect succ fuel stack reached ∧ stack ⊆ collect succ fuel stack reached ∧
        ∀ a ∈ collect succ fuel stack reached, succ a ⊆ collect succ fuel stack reached := by
  induction fuel with
  | zero =>
    intro stack reached _ hr hle
    obtain rfl : stack = [] := eq_nil_of_length_eq_zero (by omega)
    exact ⟨Subset.refl _, by simp, by simpa [collect] using hr⟩
  | succ fuel ih =>
    intro stack reached hs hr hle
    cases stack with
    | nil => exact ⟨Subset.refl _, by simp, by simpa [collect] using hr⟩
    | cons a stack =>
      have ⟨ha, hs'⟩ := cons_subset.mp hs
      rw [collect]
      split
      case isTrue hmem =>
        obtain ⟨h₁, h₂, h₃⟩ := ih stack reached hs' (fun b hb c hc => by
            rcases mem_append.mp (hr b hb hc) with h | h
            · exact mem_append_left _ h
            · rcases mem_cons.mp h with rfl | h
              · exact mem_append_left _ hmem
              · exact mem_append_right _ h)
          (by rw [length_cons] at hle; omega)
        exact ⟨h₁, cons_subset.mpr ⟨h₁ hmem, h₂⟩, h₃⟩
      case isFalse hmem =>
        have hedges := edgesLeft_cons succ hn ha hmem
        obtain ⟨h₁, h₂, h₃⟩ := ih ((succ a).reverse ++ stack) (a :: reached) (by
            intro b hb
            rcases mem_append.mp hb with hb | hb
            · exact hcl a ha (mem_reverse.mp hb)
            · exact hs' hb)
          (fun b hb c hc => by
            simp only [mem_append, mem_cons, mem_reverse]
            rcases mem_cons.mp hb with rfl | hb
            · exact Or.inr (Or.inl hc)
            · rcases mem_append.mp (hr b hb hc) with h | h
              · exact Or.inl (Or.inr h)
              · rcases mem_cons.mp h with rfl | h
                · exact Or.inl (Or.inl rfl)
                · exact Or.inr (Or.inr h))
          (by
            rw [length_append, length_reverse]
            rw [length_cons] at hle
            omega)
        have hreached := cons_subset.mp h₁
        refine ⟨hreached.2, cons_subset.mpr ⟨hreached.1, ?_⟩, h₃⟩
        exact fun b hb => h₂ (mem_append_right _ hb)

/-- **Reachability.**  The worklist returns exactly what the nodes on the stack lead to. -/
theorem mem_collect_iff (hn : nodes.Nodup)
    (hcl : ∀ a ∈ nodes, succ a ⊆ nodes) {stack : List α} (hs : stack ⊆ nodes) {fuel : Nat}
    (hfuel : stack.length + edgesLeft succ nodes [] ≤ fuel) {b : α} :
    b ∈ collect succ fuel stack [] ↔ ∃ a ∈ stack, ReflTransGen (Edge succ) a b := by
  constructor
  · exact collect_sound (P := fun b => ∃ a ∈ stack, ReflTransGen (Edge succ) a b)
      (fun _ _ ⟨c, hc, h⟩ he => ⟨c, hc, h.tail he⟩) fuel stack []
      (fun a ha => ⟨a, ha, .refl⟩) (by simp) b
  · rintro ⟨a, ha, hab⟩
    obtain ⟨-, hstk, hsucc⟩ := collect_closed hn hcl fuel stack [] hs (by simp) hfuel
    induction hab with
    | refl => exact hstk ha
    | tail _ he ih => exact hsucc _ ih he

end Digraph
