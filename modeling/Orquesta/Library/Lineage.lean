import Mathlib.Data.List.Nodup

/-!
# Lineages

A lineage is a family of members numbered by generation, in which no two members
share a generation and every member after the first has a retired predecessor
one generation earlier.  In a lineage only the last member can be live: this is
what makes "retry only what is proven dead" mean "at most one live try".

## Main definitions

* `Lineage Mem gen Retired`

## Main results

* `Lineage.retired_of_lt`: every member before another one is retired
* `Lineage.eq_of_not_retired`: **two live members are the same member**
* `Lineage.countP_le_one`: a list of distinct members has at most one live one
-/

variable {α : Type} {Mem Retired : α → Prop} {gen : α → Nat}

/-- Members with distinct generations, each with a retired predecessor unless it is a root. -/
structure Lineage (Mem : α → Prop) (gen : α → Nat) (Retired : α → Prop) : Prop where
  unique : ∀ a b, Mem a → Mem b → gen a = gen b → a = b
  predecessor : ∀ a, Mem a → gen a ≤ 1 ∨ ∃ p, Mem p ∧ gen p + 1 = gen a ∧ Retired p
  positive : ∀ a, Mem a → 1 ≤ gen a

namespace Lineage

/-- A lineage reaches down to generation one, and all it passes is retired. -/
theorem exists_retired_of_lt (h : Lineage Mem gen Retired) {b : α} (hb : Mem b) :
    ∀ g, 1 ≤ g → g < gen b → ∃ p, Mem p ∧ gen p = g ∧ Retired p := by
  -- induction on the distance between the generation looked for and that of `b`
  intro g hg hlt
  obtain ⟨n, hn⟩ : ∃ n, gen b = g + 1 + n := ⟨gen b - (g + 1), by omega⟩
  induction n generalizing b with
  | zero =>
    rcases h.predecessor b hb with hro | ⟨p, hp, hgen, hret⟩
    · omega
    · exact ⟨p, hp, by omega, hret⟩
  | succ n ih =>
    rcases h.predecessor b hb with hro | ⟨p, hp, hgen, -⟩
    · omega
    · exact ih hp (by omega) (by omega)

theorem retired_of_lt (h : Lineage Mem gen Retired) {a b : α} (ha : Mem a) (hb : Mem b)
    (hlt : gen a < gen b) : Retired a := by
  obtain ⟨p, hp, hgen, hret⟩ := h.exists_retired_of_lt hb (gen a) (h.positive a ha) hlt
  rwa [h.unique a p ha hp hgen.symm]

/-- **At most one live member.** -/
theorem eq_of_not_retired (h : Lineage Mem gen Retired) {a b : α} (ha : Mem a) (hb : Mem b)
    (hna : ¬ Retired a) (hnb : ¬ Retired b) : a = b := by
  rcases Nat.lt_trichotomy (gen a) (gen b) with hlt | heq | hgt
  · exact absurd (h.retired_of_lt ha hb hlt) hna
  · exact h.unique a b ha hb heq
  · exact absurd (h.retired_of_lt hb ha hgt) hnb

/-- A list of distinct members has at most one live one. -/
theorem countP_le_one (h : Lineage Mem gen Retired) {l : List α} {live : α → Bool}
    (hn : l.Nodup) (hm : ∀ a ∈ l, Mem a) (hlv : ∀ a, live a → ¬ Retired a) :
    l.countP live ≤ 1 := by
  rw [List.countP_eq_length_filter]
  have hmem : ∀ a ∈ l.filter live, Mem a ∧ ¬ Retired a := fun a ha =>
    ⟨hm a (List.mem_filter.mp ha).1, hlv a (List.mem_filter.mp ha).2⟩
  have hnf : (l.filter live).Nodup := hn.filter live
  match l.filter live, hmem, hnf with
  | [], _, _ => simp
  | [_], _, _ => simp
  | a :: b :: rest, hmem, hnf =>
    obtain ⟨ha, hna⟩ := hmem a (by simp)
    obtain ⟨hb, hnb⟩ := hmem b (by simp)
    have hab : a = b := h.eq_of_not_retired ha hb hna hnb
    simp [hab] at hnf

end Lineage
