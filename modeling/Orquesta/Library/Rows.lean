import Mathlib.Data.List.Nodup

/-!
# Rows with a key

A table is a list of rows, each with a key.  A row is found by its key, and the first row with a
key is replaced by another one.

## Main definitions

* `Rows.find`, `Rows.replace`

## Main results

* `find_of_nodup`: a row is found by its key, if the keys are different
* `map_key_replace`: a replacement keeps the keys
-/

namespace Rows

open List

variable {α κ : Type} [DecidableEq κ]

/-- The first row with the key. -/
def find (key : α → κ) (k : κ) (rows : List α) : Option α := rows.find? (key · = k)

/-- The rows, with another one in the place of the first one with the key. -/
def replace (key : α → κ) (k : κ) (next : α) : List α → List α
  | [] => []
  | row :: rest => if key row = k then next :: rest else row :: replace key k next rest

variable {key : α → κ} {k : κ} {rows : List α} {row next : α}

theorem key_of_find (h : find key k rows = some row) : key row = k := by
  simpa using find?_some h

theorem mem_of_find (h : find key k rows = some row) : row ∈ rows := mem_of_find?_eq_some h

theorem find_of_nodup (h : (rows.map key).Nodup) (hrow : row ∈ rows) :
    find key (key row) rows = some row := by
  cases hfd : find key (key row) rows with
  | none =>
    have hno := find?_eq_none.mp hfd row hrow
    simp at hno
  | some o =>
    rw [inj_on_of_nodup_map h (mem_of_find hfd) hrow (key_of_find hfd)]

theorem mem_replace (h : row ∈ replace key k next rows) : row = next ∨ row ∈ rows := by
  induction rows with
  | nil => cases h
  | cons first rest ih =>
    unfold replace at h
    split at h
    · rcases mem_cons.mp h with rfl | h
      · exact .inl rfl
      · exact .inr (mem_cons_of_mem _ h)
    · rcases mem_cons.mp h with rfl | h
      · exact .inr mem_cons_self
      · exact (ih h).imp_right (mem_cons_of_mem _)

theorem mem_replace_of_ne (h : row ∈ rows) (hne : key row ≠ k) : row ∈ replace key k next rows := by
  induction rows with
  | nil => cases h
  | cons first rest ih =>
    unfold replace
    rcases mem_cons.mp h with rfl | h
    · rw [if_neg hne]
      exact mem_cons_self
    · split
      · exact mem_cons_of_mem _ h
      · exact mem_cons_of_mem _ (ih h)

theorem mem_replace_self (h : row ∈ rows) (hkey : key row = k) :
    next ∈ replace key k next rows := by
  induction rows with
  | nil => cases h
  | cons first rest ih =>
    unfold replace
    split_ifs with hfst
    · exact mem_cons_self
    · rcases mem_cons.mp h with rfl | h
      · exact absurd hkey hfst
      · exact mem_cons_of_mem _ (ih h)

/-- A replacement keeps what the new row has in common with the one that it replaces. -/
theorem map_replace {β : Type} {f : α → β} (h : ∀ o, find key k rows = some o → f next = f o) :
    (replace key k next rows).map f = rows.map f := by
  induction rows with
  | nil => rfl
  | cons first rest ih =>
    unfold find at h ih
    unfold replace
    split_ifs with hfst
    · rw [map_cons, map_cons, h first (find?_cons_of_pos (by simpa using hfst))]
    · rw [find?_cons_of_neg (by simpa using hfst)] at h
      rw [map_cons, map_cons, ih h]

theorem map_key_replace (hnx : key next = k) : (replace key k next rows).map key = rows.map key :=
  map_replace fun _ hoth => hnx.trans (key_of_find hoth).symm

end Rows
