import Orquesta.Contract.Acceptance
import Orquesta.Library.Alike

/-!
# The shape of a value

The preflights of the normaliser and of the evaluator walk a whole value before
anything else reads it.  What they ask for, apart from sums, is a shape: bounded
strings, a bounded depth, and for the evaluator arrays that are not too long.

## Main definitions

* `Shape p value n`
-/

namespace Orquesta.Contract

open List Json

/-- Counts the arrays that are too long. -/
def longArrays : Weights Int where
  null := 0
  bool _ := 0
  num _ := 0
  str _ := 0
  arr n := if n ≤ MAX_ARRAY_ITEMS then 0 else 1
  obj _ := 0
  name _ := 0

/-- Every string meets `p`, there are at most `n` levels below, and no array is too long. -/
structure Shape (p : String → Bool) (value : Raw) (n : Nat) : Prop where
  fits : value.fits p n
  arrays : value.weigh longArrays = 0

namespace Shape

variable {p : String → Bool} {n : Nat}

theorem str {s : String} (h : p s) : Shape p (.str s) n := ⟨h, rfl⟩

theorem null : Shape p .null n := ⟨rfl, rfl⟩

theorem bool {b : Bool} : Shape p (.bool b) n := ⟨rfl, rfl⟩

theorem num {k : Int} : Shape p (.num k) n := ⟨rfl, rfl⟩

theorem arr {xs : List Raw} (hlen : xs.length ≤ MAX_ARRAY_ITEMS) (h : ∀ x ∈ xs, Shape p x n) :
    Shape p (.arr xs) (n + 1) := by
  constructor
  · rw [Json.fits, Json.fitsAll_iff]
    exact Or.inr ⟨Nat.succ_pos n, fun x hx => (h x hx).fits⟩
  · rw [Json.weigh_arr,
      List.sum_eq_zero_iff_forall_eq_nat.mpr (forall_mem_map.mpr fun x hx => (h x hx).arrays)]
    simp [longArrays, hlen]

theorem obj {ms : List (String × Raw)} (h : ms.Forall fun m => Shape p m.2 n) :
    Shape p (.obj ms) (n + 1) := by
  rw [forall_iff_forall_mem] at h
  constructor
  · rw [Json.fits, Json.fitsMembers_eq, Json.fitsAll_iff]
    exact Or.inr ⟨Nat.succ_pos n, forall_mem_map.mpr fun m hm => (h m hm).fits⟩
  · rw [Json.weigh_obj, List.sum_eq_zero_iff_forall_eq_nat.mpr (forall_mem_map.mpr fun m hm => ?_)]
    · rfl
    · rw [(h m hm).arrays]
      rfl

theorem mono {v : Raw} {m : Nat} (h : Shape p v n) (hle : n ≤ m) : Shape p v m :=
  ⟨fits_within h.fits h.fits hle, h.arrays⟩

end Shape

end Orquesta.Contract
