import Mathlib.Data.List.Perm.Basic
import Orquesta.Library.Json

/-!
# JSON values up to order

Two values are alike when one becomes the other by moving the elements of arrays and
the members of objects, at any depth, and by replacing strings by related ones.  What
is measured of a value by its parts does not tell alike values apart.

## Main definitions

* `Json.Alike text`

## Main results

* `Alike.flip`, `Alike.weigh_eq`, `Alike.fits`
-/

namespace Json

open List Prod

variable {ν : Type} {text text' : String → String → Prop} {a b : Json ν} {xs ys : List (Json ν)}
  {ms ns : List (String × Json ν)}

/-- The same value, but for the order of elements and members and up to `text` on strings. -/
inductive Alike (text : String → String → Prop) : Json ν → Json ν → Prop
  | null : Alike text .null .null
  | bool (b : Bool) : Alike text (.bool b) (.bool b)
  | num (n : ν) : Alike text (.num n) (.num n)
  | str {s t : String} (h : text s t) : Alike text (.str s) (.str t)
  | arr {xs zs ys : List (Json ν)} (hlength : xs.length = zs.length)
      (h : ∀ {x z}, (x, z) ∈ xs.zip zs → Alike text x z) (hperm : zs.Perm ys) :
      Alike text (.arr xs) (.arr ys)
  | obj {ms ns : List (String × Json ν)} (hnames : (ms.map fst).Perm (ns.map fst))
      (h : ∀ {k v w}, ms.lookup k = some v → ns.lookup k = some w → Alike text v w) :
      Alike text (.obj ms) (.obj ns)

theorem exists_lookup {k : String} (h : k ∈ ms.map fst) : ∃ v, ms.lookup k = some v := by
  cases hv : ms.lookup k with
  | none => exact absurd h (lookup_eq_none.mp hv)
  | some v => exact ⟨v, rfl⟩

theorem exists_mem_zip (h : xs.length = ys.length) {y : Json ν} (hy : y ∈ ys) :
    ∃ x, (x, y) ∈ xs.zip ys := by
  rw [← map_snd_zip h.ge] at hy
  obtain ⟨⟨x, _⟩, hm, rfl⟩ := mem_map.mp hy
  exact ⟨x, hm⟩

theorem alike_arr : Alike text (.arr xs) (.arr ys) ↔ ∃ zs, Forall₂ (Alike text) xs zs ∧
    zs.Perm ys := by
  constructor
  · intro h
    cases h with
    | arr hlen h hpm => exact ⟨_, forall₂_iff_zip.mpr ⟨hlen, h⟩, hpm⟩
  · rintro ⟨zs, hall, hpm⟩
    obtain ⟨hlen, h⟩ := forall₂_iff_zip.mp hall
    exact .arr hlen h hpm

theorem Alike.flip (htx : ∀ s t, text s t → text' t s) (h : Alike text a b) : Alike text' b a := by
  induction h with
  | null => exact .null
  | bool b => exact .bool b
  | num n => exact .num n
  | str h => exact .str (htx _ _ h)
  | arr hlen _ hpm ih =>
    have hall := (forall₂_iff_zip.mpr ⟨hlen, ih⟩).flip
    obtain ⟨ws, hws, hpm⟩ := perm_comp_forall₂ hpm.symm hall
    exact alike_arr.mpr ⟨ws, hws, hpm⟩
  | obj hnms _ ih => exact .obj hnms.symm fun hw hv => ih hv hw

/-- A weight of which `str` reads a string as `w` reads the related one. -/
theorem Alike.weigh_eq {w : Weights ν} {str : String → Nat}
    (htx : ∀ s t, text s t → str s = w.str t)
    (h : Alike text a b) (ha : a.WellFormed) (hb : b.WellFormed) :
    a.weigh { w with str := str } = b.weigh w := by
  induction h with
  | null | bool | num => rfl
  | str h => simpa [weigh] using htx _ _ h
  | @arr xs zs ys hlen _ hpm ih =>
    have hall : Forall₂ (fun x z => x.weigh { w with str := str } = z.weigh w) xs zs :=
      forall₂_iff_zip.mpr ⟨hlen, fun hxz =>
        ih hxz (ha.elem (of_mem_zip hxz).1) (hb.elem (hpm.subset (of_mem_zip hxz).2))⟩
    have hmap : xs.map (weigh { w with str := str }) = zs.map (weigh w) := by
      rw [← forall₂_eq_eq_eq, forall₂_map_left_iff, forall₂_map_right_iff]
      exact hall
    rw [weigh_arr, weigh_arr, hmap, (hpm.map _).sum_nat, hlen, hpm.length_eq]
  | @obj ms ns hnms _ ih =>
    have hlen : ms.length = ns.length := by simpa using hnms.length_eq
    have heq : ∀ k ∈ ms.map fst,
        ((ms.lookup k).map fun v => w.name k + v.weigh { w with str := str }).getD 0 =
          ((ns.lookup k).map fun v => w.name k + v.weigh w).getD 0 := by
      intro k hk
      obtain ⟨v, hv⟩ := exists_lookup hk
      obtain ⟨v', hv'⟩ := exists_lookup (hnms.subset hk)
      rw [hv, hv', Option.map_some, Option.map_some, ih hv hv' (ha.member hv) (hb.member hv')]
    rw [weigh_obj_of_names _ ha.names ha.names fun _ => mem_map_of_mem,
      weigh_obj_of_names w ha.names hb.names fun _ hm => hnms.symm.subset (mem_map_of_mem hm),
      hlen, map_congr_left heq]

/-- The same bound on depth holds for alike values, and a bound on strings for the related ones. -/
theorem Alike.fits {p q : String → Bool} (htx : ∀ s t, text s t → p s → q t) (h : Alike text a b)
    (hb : b.WellFormed) {d : Nat} (ha : a.fits p d) : b.fits q d := by
  induction h generalizing d with
  | null | bool | num => rfl
  | str h => simpa [Json.fits] using htx _ _ h (by simpa [Json.fits] using ha)
  | @arr xs zs ys hlen _ hpm ih =>
    rw [Json.fits, fitsAll_iff] at ha ⊢
    refine ha.imp (fun hnil => ?_) fun hall => ⟨hall.1, fun y hy => ?_⟩
    · subst hnil
      rw [eq_nil_of_length_eq_zero hlen.symm] at hpm
      exact hpm.symm.eq_nil
    · obtain ⟨x, hx⟩ := exists_mem_zip hlen (hpm.symm.subset hy)
      exact ih hx (hb.elem hy) (hall.2 x (of_mem_zip hx).1)
  | @obj ms ns hnms _ ih =>
    rw [Json.fits, fitsMembers_eq, fitsAll_iff] at ha ⊢
    refine ha.imp (fun hnil => ?_) fun hall => ⟨hall.1, fun y hy => ?_⟩
    · rw [map_eq_nil_iff] at hnil ⊢
      subst hnil
      exact map_eq_nil_iff.mp hnms.symm.eq_nil
    · obtain ⟨⟨k, v⟩, hm, rfl⟩ := mem_map.mp hy
      have hw := lookup_of_mem hb.names hm
      obtain ⟨v', hv'⟩ := exists_lookup (hnms.symm.subset (mem_map_of_mem hm))
      exact ih hv' hw (hb.member hw) (hall.2 v' (mem_map_of_mem (mem_of_lookup hv')))

end Json
