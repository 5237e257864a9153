import Mathlib.Data.List.Nodup
import Mathlib.Data.List.Perm.Subperm

/-!
# Insertion-ordered finite maps

A finite map kept as an association list with distinct keys, in the order in
which the keys were first written: reading is by key, writing replaces in place
or appends.  Distinctness of the keys is a field, so every value and every
entry is found under exactly one key.

## Main definitions

* `OrderedMap κ α`, `OrderedMap.get?`, `OrderedMap.set`, `OrderedMap.erase`, `OrderedMap.values`
* `OrderedMap.mapValues`

## Main results

* `get?_set`: what a write does to every read
* `mem_values`: a value is listed iff some key reads it
* `countP_values_set`: a write moves a count by the old and the new value at its key
-/

variable {κ α : Type} [DecidableEq κ]

/-- Association lists in which no key occurs twice. -/
structure OrderedMap (κ α : Type) [DecidableEq κ] where
  entries : List (κ × α)
  nodup : (entries.map Prod.fst).Nodup

namespace OrderedMap

open List Prod

variable {m : OrderedMap κ α}

@[ext] theorem ext {m' : OrderedMap κ α} (h : m.entries = m'.entries) : m = m' := by
  cases m
  cases m'
  cases h
  rfl

instance [DecidableEq α] : DecidableEq (OrderedMap κ α) := fun m m' =>
  decidable_of_iff (m.entries = m'.entries) ⟨ext, fun h => h ▸ rfl⟩

/-- The map with no entries. -/
def empty : OrderedMap κ α := ⟨[], nodup_nil⟩

/-- The value at the first entry with key `k`. -/
def lookupList (k : κ) : List (κ × α) → Option α
  | [] => none
  | (k', a) :: rest => if k' = k then some a else lookupList k rest

/-- Replace the value at `k`, or append an entry. -/
def setList (k : κ) (a : α) : List (κ × α) → List (κ × α)
  | [] => [(k, a)]
  | (k', b) :: rest => if k' = k then (k, a) :: rest else (k', b) :: setList k a rest

variable {k : κ} {a : α} {l : List (κ × α)}

theorem mem_map_fst_setList {k' : κ} : k' ∈ (setList k a l).map fst ↔ k' = k ∨ k' ∈ l.map fst := by
  induction l with
  | nil => simp [setList]
  | cons p rest ih =>
    obtain ⟨k₀, b⟩ := p
    unfold setList
    split
    · rename_i h
      subst h
      simp
    · simp only [map_cons, mem_cons, ih]
      tauto

theorem nodup_setList (h : (l.map fst).Nodup) : ((setList k a l).map fst).Nodup := by
  induction l with
  | nil => simp [setList]
  | cons p rest ih =>
    obtain ⟨k₀, b⟩ := p
    simp only [map_cons, nodup_cons] at h
    unfold setList
    split
    · rename_i hk
      subst hk
      simpa using h
    · rename_i hk
      simp only [map_cons, nodup_cons, mem_map_fst_setList, not_or]
      exact ⟨⟨hk, h.1⟩, ih h.2⟩

/-- The value read at a key. -/
def get? (m : OrderedMap κ α) (k : κ) : Option α := lookupList k m.entries

/-- Write a value at a key. -/
def set (m : OrderedMap κ α) (k : κ) (a : α) : OrderedMap κ α :=
  ⟨setList k a m.entries, nodup_setList m.nodup⟩

/-- Remove the entry at a key. -/
def erase (m : OrderedMap κ α) (k : κ) : OrderedMap κ α :=
  ⟨m.entries.filter (·.1 ≠ k), m.nodup.sublist (filter_sublist.map Prod.fst)⟩

/-- The values, in key order. -/
def values (m : OrderedMap κ α) : List α := m.entries.map Prod.snd

/-- The keys, in insertion order. -/
def keys (m : OrderedMap κ α) : List κ := m.entries.map Prod.fst

@[simp] theorem get?_empty (k : κ) : (empty : OrderedMap κ α).get? k = none := rfl

theorem lookupList_setList (k k' : κ) (a : α) (l : List (κ × α)) :
    lookupList k' (setList k a l) = if k = k' then some a else lookupList k' l := by
  induction l with
  | nil => simp [setList, lookupList]
  | cons p rest ih =>
    obtain ⟨k₀, b⟩ := p
    unfold setList
    split
    · rename_i h
      subst h
      simp only [lookupList]
      split <;> rfl
    · rename_i h
      simp only [lookupList, ih]
      by_cases h₁ : k₀ = k'
      · have h₂ : k ≠ k' := fun hk => h (h₁.trans hk.symm)
        simp [h₁, h₂]
      · simp [h₁]

theorem get?_set (m : OrderedMap κ α) (k k' : κ) (a : α) :
    (m.set k a).get? k' = if k = k' then some a else m.get? k' :=
  lookupList_setList k k' a m.entries

@[simp] theorem get?_set_self (m : OrderedMap κ α) (k : κ) (a : α) :
    (m.set k a).get? k = some a := by
  simp [get?_set]

@[simp] theorem get?_set_of_ne (m : OrderedMap κ α) {k' : κ} (a : α) (h : k ≠ k') :
    (m.set k a).get? k' = m.get? k' := by
  simp [get?_set, h]

theorem lookupList_eq_some (h : (l.map Prod.fst).Nodup) : lookupList k l = some a ↔ (k, a) ∈ l := by
  induction l with
  | nil => simp [lookupList]
  | cons p rest ih =>
    obtain ⟨k₀, b⟩ := p
    simp only [map_cons, nodup_cons] at h
    simp only [lookupList, mem_cons, Prod.mk.injEq]
    by_cases hk : k₀ = k
    · subst hk
      have hnot : (k₀, a) ∉ rest := fun hm => h.1 (mem_map.mpr ⟨_, hm, rfl⟩)
      simp only [if_true, Option.some.injEq, true_and, hnot, or_false]
      exact eq_comm
    · simp only [hk, if_false, ih h.2, Ne.symm hk, false_and, false_or]

theorem get?_eq_some : m.get? k = some a ↔ (k, a) ∈ m.entries := lookupList_eq_some m.nodup

theorem mem_values : a ∈ m.values ↔ ∃ k, m.get? k = some a := by
  simp only [values, mem_map, Prod.exists, exists_eq_right, get?_eq_some]

theorem mem_values_of_get? (h : m.get? k = some a) : a ∈ m.values := mem_values.mpr ⟨k, h⟩

theorem countP_setList {p : α → Bool} {b : α} (h : lookupList k l = some b) :
    ((setList k a l).map snd).countP p + (if p b then 1 else 0) =
      (l.map snd).countP p + (if p a then 1 else 0) := by
  induction l with
  | nil => simp [lookupList] at h
  | cons q rest ih =>
    obtain ⟨k₀, c⟩ := q
    simp only [lookupList] at h
    simp only [setList]
    split at h
    · rename_i hk
      cases h
      simp only [hk, if_true, map_cons, countP_cons]
      omega
    · rename_i hk
      simp only [hk, if_false, map_cons, countP_cons]
      have := ih h
      omega

/-- A write at a present key moves a count by what it removes and what it adds. -/
theorem countP_values_set {p : α → Bool} {b : α} (h : m.get? k = some b) :
    (m.set k a).values.countP p + (if p b then 1 else 0) = m.values.countP p + (if p a then
      1 else 0) :=
  countP_setList h

theorem filter_setList {p : κ × α → Bool} (hnew : p (k, a) = false)
    (hold : ∀ b, lookupList k l = some b → p (k, b) = false) :
    (setList k a l).filter p = l.filter p := by
  induction l with
  | nil => simp [setList, hnew]
  | cons q rest ih =>
    obtain ⟨k₀, c⟩ := q
    simp only [lookupList] at hold
    by_cases hk : k₀ = k
    · subst hk
      have hc : p (k₀, c) = false := hold c (by simp)
      simp [setList, hnew, hc]
    · simp only [hk, if_false] at hold
      simp [setList, hk, filter_cons, ih hold]

/-- A write that a filter ignores, before and after, leaves the filtered entries alone. -/
theorem filter_entries_set {p : κ × α → Bool} (hnew : p (k, a) = false)
    (hold : ∀ b, m.get? k = some b → p (k, b) = false) :
    (m.set k a).entries.filter p = m.entries.filter p :=
  filter_setList hnew hold

/-- Writing the value that is read already changes nothing. -/
theorem set_of_get? (h : m.get? k = some a) : m.set k a = m := by
  have key : ∀ l : List (κ × α), lookupList k l = some a → setList k a l = l := by
    intro l
    induction l with
    | nil => simp [lookupList]
    | cons q rest ih =>
      obtain ⟨k₀, c⟩ := q
      intro hl
      simp only [lookupList] at hl
      split at hl
      · rename_i hk
        simp_all [setList]
      · rename_i hk
        simp [setList, hk, ih hl]
  exact ext (key m.entries h)

/-! ## Mapping the values -/

section Map

variable {β : Type}

/-- Apply a function to every value. -/
def mapValues (f : α → β) (m : OrderedMap κ α) : OrderedMap κ β :=
  ⟨m.entries.map fun p => (p.1, f p.2), by simpa [Function.comp_def] using m.nodup⟩

theorem lookupList_map (f : α → β) (k : κ) (l : List (κ × α)) :
    lookupList k (l.map fun p => (p.1, f p.2)) = (lookupList k l).map f := by
  induction l with
  | nil => rfl
  | cons q rest ih =>
    simp only [map_cons, lookupList, ih]
    split <;> rfl

@[simp] theorem get?_mapValues (f : α → β) (m : OrderedMap κ α) (k : κ) :
    (m.mapValues f).get? k = (m.get? k).map f :=
  lookupList_map f k m.entries

end Map

/-- A function that fixes every value that is read fixes the map. -/
theorem mapValues_eq_self {f : α → α} (h : ∀ k a, m.get? k = some a → f a = a) :
    m.mapValues f = m := by
  refine ext ((map_congr_left fun p hp => ?_).trans (map_id m.entries))
  exact Prod.ext rfl (h p.1 p.2 (get?_eq_some.mpr hp))

end OrderedMap
