import Mathlib.Data.List.Perm.Basic
import Mathlib.Data.List.Pairwise

/-!
# Lists whose elements share no key

An element may have a key.  A list is unshared for a choice of keys when no two of
its elements have the same one.  A uniqueness check that fills a set while it walks
a list, and one that counts the elements of each key afterwards, both come to this.

## Main results

* `Unshared.eq_of_key`: the element with a key is the only one
* `unshared_iff_length_filter_le_one`: counting, key by key
-/

namespace Keyed

open List

variable {α κ : Type} {key : α → Option κ} {l : List α}

/-- No two elements of the list have the same key. -/
def Unshared (key : α → Option κ) (l : List α) : Prop :=
  l.Pairwise fun a b => ∀ k, key a = some k → key b ≠ some k

theorem unshared_cons {a : α} :
    Unshared key (a :: l) ↔ (∀ b ∈ l, ∀ k, key a = some k → key b ≠ some k) ∧ Unshared key l :=
  pairwise_cons

theorem Unshared.perm {l' : List α} (h : Unshared key l) (hp : l.Perm l') : Unshared key l' := by
  refine hp.pairwise h fun {a b} hab k hb ha => ?_
  exact hab k ha hb

theorem Unshared.eq_of_key (h : Unshared key l) {a b : α} {k : κ} (ha : a ∈ l) (hb : b ∈ l)
    (hka : key a = some k) (hkb : key b = some k) : a = b := by
  induction l with
  | nil => exact absurd ha not_mem_nil
  | cons c l ih =>
    obtain ⟨hc, hl⟩ := unshared_cons.mp h
    rcases mem_cons.mp ha with rfl | ha'
    · rcases mem_cons.mp hb with rfl | hb'
      · rfl
      · exact absurd hkb (hc b hb' k hka)
    · rcases mem_cons.mp hb with rfl | hb'
      · exact absurd hka (hc a ha' k hkb)
      · exact ih hl ha' hb'

theorem unshared_iff_length_filter_le_one [DecidableEq κ] :
    Unshared key l ↔ ∀ k, (l.filter fun a => key a = some k).length ≤ 1 := by
  induction l with
  | nil => simp [Unshared]
  | cons a l ih =>
    rw [unshared_cons, ih]
    constructor
    · rintro ⟨ha, hl⟩ k
      by_cases hk : key a = some k
      · -- `a` takes the key, so nothing behind it may have it
        have hno : (l.filter fun b => key b = some k) = [] := by
          rw [filter_eq_nil_iff]
          intro b hb
          simpa using ha b hb k hk
        simp [hk, hno]
      · simpa [hk] using hl k
    · intro h
      refine ⟨fun b hb k hka hkb => ?_, fun k => ?_⟩
      · have hmem : b ∈ l.filter fun b => key b = some k := by simp [hb, hkb]
        have hpos := length_pos_of_mem hmem
        have hone := h k
        simp only [hka, decide_true, filter_cons_of_pos, length_cons] at hone
        omega
      · refine Nat.le_trans ?_ (h k)
        exact ((sublist_cons_self a l).filter _).length_le

end Keyed
