import Mathlib.Algebra.GroupWithZero.Nat
import Mathlib.Data.List.Sort
import Mathlib.Data.String.Basic

/-!
# JSON values

JSON trees over a type of numbers, the text `JSON.stringify` prints for them, and
the canonical text in which the members of every object are sorted by name.

Validators bound a value before they read it: by its number of subvalues, by the
bytes of its text, by a byte estimate of their own.  All of these are sums of what
the single subvalues contribute, so they are one function, `Json.weigh`, at
different `Json.Weights`.  A weight does not depend on the order of array elements
or object members (`weigh_obj_perm`), and the members of an object
can be summed by name (`sum_members`).

## Main definitions

* `Json`, `Json.WellFormed`: values whose objects have distinct member names
* `Json.weigh w`, `Json.fits`: additive measures; the depth and string bound
* `Json.render`, `Json.canonicalJson`: the texts

## Main results

* `utf8ByteSize_canonicalJson`: the bytes of the canonical text are a weight
* `weigh_obj_of_names`: the weight of an object whose member names are known
-/

/-- A JSON value over a type of numbers. -/
inductive Json (ν : Type) where
  | null
  | bool (b : Bool)
  | num (n : ν)
  | str (s : String)
  | arr (elems : List (Json ν))
  | obj (members : List (String × Json ν))

namespace Json

open List

variable {ν : Type}

/-- What one value contributes to an additive measure; containers by their length. -/
structure Weights (ν : Type) where
  null : Nat
  bool : Bool → Nat
  num : ν → Nat
  str : String → Nat
  (arr obj : Nat → Nat)
  name : String → Nat

mutual

def weigh (w : Weights ν) : Json ν → Nat
  | .null => w.null
  | .bool b => w.bool b
  | .num n => w.num n
  | .str s => w.str s
  | .arr xs => w.arr xs.length + weighAll w xs
  | .obj ms => w.obj ms.length + weighMembers w ms

def weighAll (w : Weights ν) : List (Json ν) → Nat
  | [] => 0
  | x :: xs => weigh w x + weighAll w xs

def weighMembers (w : Weights ν) : List (String × Json ν) → Nat
  | [] => 0
  | (k, v) :: ms => w.name k + weigh w v + weighMembers w ms

end

/-- The number of values in a tree. -/
def nodeWeights : Weights ν where
  null := 1
  bool _ := 1
  num _ := 1
  str _ := 1
  arr _ := 1
  obj _ := 1
  name _ := 0

/-- The values in a tree, the root included. -/
def nodes (j : Json ν) : Nat := j.weigh nodeWeights

section Weigh

variable (w : Weights ν)

theorem weighAll_eq_sum (xs : List (Json ν)) : weighAll w xs = (xs.map (weigh w)).sum := by
  induction xs with
  | nil => rfl
  | cons x xs ih => simp [weighAll, ih]

theorem weighMembers_eq_sum (ms : List (String × Json ν)) :
    weighMembers w ms = (ms.map fun m => w.name m.1 + m.2.weigh w).sum := by
  induction ms with
  | nil => rfl
  | cons m ms ih => simp [weighMembers, ih]

theorem weigh_arr (xs : List (Json ν)) :
    (arr xs).weigh w = w.arr xs.length + (xs.map (weigh w)).sum := by
  rw [weigh, weighAll_eq_sum]

theorem weigh_obj (ms : List (String × Json ν)) :
    (obj ms).weigh w = w.obj ms.length + (ms.map fun m => w.name m.1 + m.2.weigh w).sum := by
  rw [weigh, weighMembers_eq_sum]

theorem weigh_obj_perm {ms ns : List (String × Json ν)} (h : ms.Perm ns) :
    (obj ms).weigh w = (obj ns).weigh w := by
  rw [weigh_obj, weigh_obj, h.length_eq, (h.map _).sum_nat]

/-- Weights read a container's members only through their own weights. -/
theorem weigh_arr_map {α : Type} (l : List α) (f : α → Json ν) :
    (arr (l.map f)).weigh w = w.arr l.length + (l.map fun a => (f a).weigh w).sum := by
  rw [weigh_arr, length_map, map_map]
  rfl

end Weigh

/-! ## One level -/

/-- The values directly below a value. -/
def children : Json ν → List (Json ν)
  | .arr xs => xs
  | .obj ms => ms.map Prod.snd
  | _ => []

/-- What a value contributes itself, the names of its members included. -/
def Weights.own (w : Weights ν) : Json ν → Nat
  | .null => w.null
  | .bool b => w.bool b
  | .num n => w.num n
  | .str s => w.str s
  | .arr xs => w.arr xs.length
  | .obj ms => w.obj ms.length + (ms.map fun m => w.name m.1).sum

theorem weigh_eq (w : Weights ν) (j : Json ν) :
    j.weigh w = w.own j + (j.children.map (weigh w)).sum := by
  cases j with
  | obj ms =>
    rw [weigh_obj, Weights.own, children, map_map, Nat.add_assoc]
    congr 1
    induction ms with
    | nil => rfl
    | cons m ms ih =>
      simp only [map_cons, sum_cons, Function.comp_apply, ih]
      omega
  | arr xs => rw [weigh_arr, Weights.own, children]
  | null | bool | num | str => simp [weigh, Weights.own, children]

theorem nodes_eq (j : Json ν) : j.nodes = 1 + (j.children.map nodes).sum := by
  have hown : (nodeWeights (ν := ν)).own j = 1 := by
    cases j <;> simp [Weights.own, nodeWeights]
  rw [nodes, weigh_eq, hown]
  rfl

theorem nodes_pos (j : Json ν) : 0 < j.nodes := by
  rw [nodes_eq]
  omega

theorem length_le_sum_nodes (xs : List (Json ν)) : xs.length ≤ (xs.map nodes).sum := by
  induction xs with
  | nil => simp
  | cons x xs ih =>
    have := x.nodes_pos
    simp only [length_cons, map_cons, sum_cons]
    omega

theorem length_children_lt_nodes (j : Json ν) : j.children.length < j.nodes := by
  have := length_le_sum_nodes j.children
  rw [nodes_eq]
  omega

/-! ## Member names -/

mutual

/-- Every object in the tree has distinct member names. -/
def WellFormed : Json ν → Prop
  | .arr xs => AllWellFormed xs
  | .obj ms => (ms.map Prod.fst).Nodup ∧ MembersWellFormed ms
  | _ => True

def AllWellFormed : List (Json ν) → Prop
  | [] => True
  | x :: xs => WellFormed x ∧ AllWellFormed xs

def MembersWellFormed : List (String × Json ν) → Prop
  | [] => True
  | (_, v) :: ms => WellFormed v ∧ MembersWellFormed ms

end

variable {xs : List (Json ν)}

theorem allWellFormed_iff : AllWellFormed xs ↔ ∀ x ∈ xs, x.WellFormed := by
  induction xs with
  | nil => simp [AllWellFormed]
  | cons x xs ih => simp [AllWellFormed, ih]

theorem membersWellFormed_iff {ms : List (String × Json ν)} :
    MembersWellFormed ms ↔ ∀ m ∈ ms, m.2.WellFormed := by
  induction ms with
  | nil => simp [MembersWellFormed]
  | cons m ms ih => simp [MembersWellFormed, ih]

theorem WellFormed.elem (h : (arr xs).WellFormed) {x : Json ν} (hx : x ∈ xs) : x.WellFormed :=
  allWellFormed_iff.mp h x hx

theorem WellFormed.names {ms : List (String × Json ν)} (h : (obj ms).WellFormed) :
    (ms.map Prod.fst).Nodup := h.1

variable {k s : String}

theorem mem_of_lookup {α : Type} {ms : List (String × α)} {v : α}
    (h : ms.lookup k = some v) : (k, v) ∈ ms := by
  induction ms with
  | nil => cases h
  | cons m ms ih =>
    obtain ⟨k', v'⟩ := m
    rw [lookup_cons] at h
    split at h
    case h_1 heq =>
      rw [beq_iff_eq] at heq
      cases h
      exact heq ▸ mem_cons_self
    case h_2 => exact mem_cons_of_mem _ (ih h)

theorem lookup_eq_none {α : Type} {ms : List (String × α)} :
    ms.lookup k = none ↔ k ∉ ms.map Prod.fst := by
  rw [lookup_eq_none_iff]
  constructor
  · intro h hk
    obtain ⟨m, hm, rfl⟩ := mem_map.mp hk
    exact absurd (h m hm) (by simp)
  · intro h m hm
    exact bne_iff_ne.mpr fun hk => h (hk ▸ mem_map_of_mem hm)

theorem lookup_of_mem {α : Type} {ms : List (String × α)} (hd : (ms.map Prod.fst).Nodup) {v : α}
    (h : (k, v) ∈ ms) : ms.lookup k = some v := by
  cases hl : ms.lookup k with
  | none => exact absurd (mem_map_of_mem h) (lookup_eq_none.mp hl)
  | some v' =>
    have heq := inj_on_of_nodup_map hd (mem_of_lookup hl) h rfl
    rw [(Prod.mk.inj heq).2]

theorem WellFormed.member {ms : List (String × Json ν)} (h : (obj ms).WellFormed) {v : Json ν}
    (hv : ms.lookup k = some v) : v.WellFormed :=
  membersWellFormed_iff.mp h.2 _ (mem_of_lookup hv)

/-- A sum over members with distinct names, taken over the names instead. -/
theorem sum_members {α : Type} (f : String → α → Nat) {ns : List String} (hn : ns.Nodup)
    {ms : List (String × α)} (hd : (ms.map Prod.fst).Nodup)
    (hsub : ∀ m ∈ ms, m.1 ∈ ns) :
    (ms.map fun m => f m.1 m.2).sum = (ns.map fun k => ((ms.lookup k).map (f k)).getD 0).sum := by
  induction ms with
  | nil => simp
  | cons m ms ih =>
    obtain ⟨k, v⟩ := m
    rw [map_cons, nodup_cons] at hd
    have hk : k ∈ ns := hsub (k, v) mem_cons_self
    have hrs := ih hd.2 fun m hm => hsub m (mem_cons_of_mem _ hm)
    rw [map_cons, sum_cons, hrs]
    -- bring `k` to the front of the names: elsewhere the new member is not looked up
    have hpm := perm_cons_erase hk
    rw [((hpm.map _).sum_nat), ((hpm.map fun n =>
      (((k, v) :: ms).lookup n |>.map (f n)).getD 0).sum_nat)]
    have hno : ms.lookup k = none := lookup_eq_none.mpr hd.1
    have htail : ∀ n ∈ ns.erase k, ((k, v) :: ms).lookup n = ms.lookup n := by
      intro n hmem
      have hne : (n == k) = false := beq_eq_false_iff_ne.mpr fun h => hn.not_mem_erase (h ▸ hmem)
      rw [lookup_cons, hne]
    have hmap : ((ns.erase k).map fun n => ((((k, v) :: ms).lookup n).map (f n)).getD 0) =
        (ns.erase k).map fun n => ((ms.lookup n).map (f n)).getD 0 :=
      map_congr_left fun n hn => by rw [htail n hn]
    rw [map_cons, map_cons, sum_cons, sum_cons, hmap, hno, lookup_cons, beq_self_eq_true]
    simp

/-- The weight of an object whose member names lie in a known list. -/
theorem weigh_obj_of_names (w : Weights ν) {ns : List String} (hn : ns.Nodup)
    {ms : List (String × Json ν)} (hd : (ms.map Prod.fst).Nodup)
    (hsub : ∀ m ∈ ms, m.1 ∈ ns) :
    (obj ms).weigh w = w.obj ms.length +
      (ns.map fun k => ((ms.lookup k).map fun v => w.name k + v.weigh w).getD 0).sum := by
  rw [weigh_obj, sum_members (fun k v => w.name k + v.weigh w) hn hd hsub]

/-! ## Depth and strings -/

mutual

/-- Every string meets `p` and no value is nested more than `d` levels deep. -/
def fits (p : String → Bool) : Json ν → Nat → Bool
  | .str s, _ => p s
  | .arr xs, d => fitsAll p xs d
  | .obj ms, d => fitsMembers p ms d
  | _, _ => true

def fitsAll (p : String → Bool) : List (Json ν) → Nat → Bool
  | [], _ => true
  | _ :: _, 0 => false
  | x :: xs, d + 1 => fits p x d && fitsAll p xs (d + 1)

def fitsMembers (p : String → Bool) : List (String × Json ν) → Nat → Bool
  | [], _ => true
  | _ :: _, 0 => false
  | (_, v) :: ms, d + 1 => fits p v d && fitsMembers p ms (d + 1)

end

variable {p : String → Bool}

theorem fitsAll_iff {d : Nat} : fitsAll p xs d ↔ xs = [] ∨ 0 < d ∧ ∀ x ∈ xs, x.fits p (d - 1) := by
  induction xs with
  | nil => simp [fitsAll]
  | cons x xs ih =>
    cases d with
    | zero => simp [fitsAll]
    | succ d =>
      simp only [fitsAll, Bool.and_eq_true, ih]
      cases xs <;> simp

theorem fitsMembers_eq (ms : List (String × Json ν)) (d : Nat) :
    fitsMembers p ms d = fitsAll p (ms.map Prod.snd) d := by
  induction ms with
  | nil => rfl
  | cons m ms ih => cases d <;> simp [fitsMembers, fitsAll, ih]

theorem fits_iff {j : Json ν} {d : Nat} : j.fits p d ↔ (∀ s, j = .str s → p s) ∧
      (j.children = [] ∨ 0 < d ∧ ∀ c ∈ j.children, c.fits p (d - 1)) := by
  cases j with
  | arr xs => simp [fits, children, fitsAll_iff]
  | obj ms => simp only [fits, fitsMembers_eq, fitsAll_iff, children]; simp
  | null | bool | num | str => simp [fits, children]

/-- The strings of `j` are bounded as `hp` says and its depth as `hq` does. -/
theorem fits_within {q : String → Bool} {j : Json ν} {c d e : Nat} (hp : j.fits p c)
    (hq : j.fits q d) (hle : d ≤ e) : j.fits p e := by
  induction d generalizing j c e with
  | zero =>
    obtain ⟨-, hleaf | ⟨hpos, -⟩⟩ := fits_iff.mp hq
    · exact fits_iff.mpr ⟨(fits_iff.mp hp).1, Or.inl hleaf⟩
    · exact absurd hpos (Nat.lt_irrefl 0)
  | succ d ih =>
    obtain ⟨hstr, hchn⟩ := fits_iff.mp hp
    obtain ⟨-, hleaf | ⟨-, hbw⟩⟩ := fits_iff.mp hq
    · exact fits_iff.mpr ⟨hstr, Or.inl hleaf⟩
    · refine fits_iff.mpr ⟨hstr, hchn.imp_right fun ⟨_, hchild⟩ => ⟨by omega, ?_⟩⟩
      exact fun x hx => ih (hchild x hx) (hbw x hx) (by omega)

/-! ## Text -/

def hexDigit (n : Nat) : Char := if n < 10 then Char.ofNat (48 + n) else Char.ofNat (87 + n)

/-- The escapes of `JSON.stringify`. -/
def escapeChar (c : Char) : String :=
  if c = '"' then "\\\""
  else if c = '\\' then "\\\\"
  else if c = '\n' then "\\n"
  else if c = '\r' then "\\r"
  else if c = '\t' then "\\t"
  else if c.toNat = 8 then "\\b"
  else if c.toNat = 12 then "\\f"
  else if c.toNat < 32 then
    String.ofList ['\\', 'u', '0', '0', hexDigit (c.toNat / 16), hexDigit (c.toNat % 16)]
  else String.singleton c

def escape (s : String) : String := s.toList.foldr (fun c rest => escapeChar c ++ rest) ""

def quote (s : String) : String := "\"" ++ escape s ++ "\""

theorem escape_eq_self (h : ∀ c ∈ s.toList, escapeChar c = String.singleton c) : escape s = s := by
  have hlst : ∀ cs : List Char, (∀ c ∈ cs, escapeChar c = String.singleton c) →
      cs.foldr (fun c rest => escapeChar c ++ rest) "" = String.ofList cs := by
    intro cs
    induction cs with
    | nil => intro _; rfl
    | cons c cs ih =>
      intro h
      rw [forall_mem_cons] at h
      rw [foldr_cons, ih h.2, h.1, String.ofList_cons]
  rw [escape, hlst s.toList h, String.ofList_toList]

theorem utf8ByteSize_quote (h : ∀ c ∈ s.toList, escapeChar c = String.singleton c) :
    (quote s).utf8ByteSize = s.utf8ByteSize + 2 := by
  have hquote : "\"".utf8ByteSize = 1 := by decide
  rw [quote, escape_eq_self h, String.utf8ByteSize_append, String.utf8ByteSize_append, hquote]
  omega

/-- Texts separated by commas. -/
def commaJoin : List String → String
  | [] => ""
  | [t] => t
  | t :: u :: ts => t ++ ("," ++ commaJoin (u :: ts))

theorem utf8ByteSize_commaJoin (ts : List String) :
    (commaJoin ts).utf8ByteSize = (ts.map String.utf8ByteSize).sum + (ts.length - 1) := by
  have hcomma : ",".utf8ByteSize = 1 := by decide
  induction ts with
  | nil => rfl
  | cons t ts ih =>
    cases ts with
    | nil => simp [commaJoin]
    | cons u ts =>
      rw [commaJoin, String.utf8ByteSize_append, String.utf8ByteSize_append, ih, hcomma]
      simp only [map_cons, sum_cons, length_cons]
      omega

section Text

variable (num : ν → String)

mutual

/-- `JSON.stringify`, with the members in the order they have. -/
def render : Json ν → String
  | .null => "null"
  | .bool b => if b then "true" else "false"
  | .num n => num n
  | .str s => quote s
  | .arr xs => "[" ++ commaJoin (renderAll xs) ++ "]"
  | .obj ms => "\x7b" ++ commaJoin (renderMembers ms) ++ "\x7d"

def renderAll : List (Json ν) → List String
  | [] => []
  | x :: xs => render x :: renderAll xs

def renderMembers : List (String × Json ν) → List String
  | [] => []
  | (k, v) :: ms => (quote k ++ ":" ++ render v) :: renderMembers ms

end

mutual

/-- `normalize`: the members of every object in the order of their names. -/
def normalize : Json ν → Json ν
  | .arr xs => .arr (normalizeAll xs)
  | .obj ms => .obj ((normalizeMembers ms).insertionSort fun m n => m.1 ≤ n.1)
  | j => j

def normalizeAll : List (Json ν) → List (Json ν)
  | [] => []
  | x :: xs => normalize x :: normalizeAll xs

def normalizeMembers : List (String × Json ν) → List (String × Json ν)
  | [] => []
  | (k, v) :: ms => (k, normalize v) :: normalizeMembers ms

end

def canonicalJson (j : Json ν) : String := j.normalize.render num

/-- What a value contributes to the bytes of its text. -/
def textWeights : Weights ν where
  null := 4
  bool b := if b then 4 else 5
  num n := (num n).utf8ByteSize
  str s := (quote s).utf8ByteSize
  arr n := 2 + (n - 1)
  obj n := 2 + (n - 1)
  name k := (quote k).utf8ByteSize + 1

theorem length_renderAll (xs : List (Json ν)) : (renderAll num xs).length = xs.length := by
  induction xs with
  | nil => rfl
  | cons x xs ih => simp [renderAll, ih]

theorem length_renderMembers (ms : List (String × Json ν)) :
    (renderMembers num ms).length = ms.length := by
  induction ms with
  | nil => rfl
  | cons m ms ih => simp [renderMembers, ih]

theorem utf8ByteSize_bracketed (l r : String) (hl : l.utf8ByteSize = 1) (hr : r.utf8ByteSize = 1)
    (ts : List String) : (l ++ commaJoin ts ++ r).utf8ByteSize =
      2 + (ts.length - 1) + (ts.map String.utf8ByteSize).sum := by
  rw [String.utf8ByteSize_append, String.utf8ByteSize_append, utf8ByteSize_commaJoin, hl, hr]
  omega

mutual

theorem utf8ByteSize_render : (j : Json ν) → (j.render num).utf8ByteSize = j.weigh (textWeights num)
  | .null => by rw [render, weigh]; rfl
  | .bool b => by cases b <;> rw [render, weigh] <;> rfl
  | .num _ => by rw [render, weigh, textWeights]
  | .str _ => by rw [render, weigh, textWeights]
  | .arr xs => by
    rw [render, weigh, utf8ByteSize_bracketed _ _ (by decide) (by decide), length_renderAll,
      utf8ByteSize_renderAll xs, textWeights]
  | .obj ms => by
    rw [render, weigh, utf8ByteSize_bracketed _ _ (by decide) (by decide), length_renderMembers,
      utf8ByteSize_renderMembers ms, textWeights]

theorem utf8ByteSize_renderAll : (xs : List (Json ν)) →
    ((renderAll num xs).map String.utf8ByteSize).sum = weighAll (textWeights num) xs
  | [] => rfl
  | x :: xs => by
    rw [renderAll, weighAll, map_cons, sum_cons, utf8ByteSize_render x, utf8ByteSize_renderAll xs]

theorem utf8ByteSize_renderMembers : (ms : List (String × Json ν)) →
    ((renderMembers num ms).map String.utf8ByteSize).sum = weighMembers (textWeights num) ms
  | [] => rfl
  | (k, v) :: ms => by
    have hcolon : ":".utf8ByteSize = 1 := by decide
    rw [renderMembers, weighMembers, map_cons, sum_cons, utf8ByteSize_renderMembers ms,
      String.utf8ByteSize_append, String.utf8ByteSize_append, utf8ByteSize_render v, hcolon]
    rfl

end

end Text

/-! ## The canonical order -/

theorem normalizeAll_eq_map (xs : List (Json ν)) : normalizeAll xs = xs.map normalize := by
  induction xs with
  | nil => rfl
  | cons x xs ih => rw [normalizeAll, map_cons, ih]

theorem normalizeMembers_eq_map (ms : List (String × Json ν)) :
    normalizeMembers ms = ms.map fun m => (m.1, m.2.normalize) := by
  induction ms with
  | nil => rfl
  | cons m ms ih => rw [normalizeMembers, map_cons, ih]

mutual

theorem weigh_normalize (w : Weights ν) : (j : Json ν) → j.normalize.weigh w = j.weigh w
  | .null | .bool _ | .num _ | .str _ => by rw [normalize]; all_goals simp
  | .arr xs => by
    rw [normalize, weigh, weigh, weighAll_normalizeAll w xs, normalizeAll_eq_map, length_map]
  | .obj ms => by
    rw [normalize, weigh_obj_perm w (perm_insertionSort _ _), weigh, weigh,
      weighMembers_normalizeMembers w ms, normalizeMembers_eq_map, length_map]

theorem weighAll_normalizeAll (w : Weights ν) :
    (xs : List (Json ν)) → weighAll w (normalizeAll xs) = weighAll w xs
  | [] => rfl
  | x :: xs => by
    rw [normalizeAll, weighAll, weighAll, weigh_normalize w x, weighAll_normalizeAll w xs]

theorem weighMembers_normalizeMembers (w : Weights ν) :
    (ms : List (String × Json ν)) → weighMembers w (normalizeMembers ms) = weighMembers w ms
  | [] => rfl
  | (k, v) :: ms => by
    rw [normalizeMembers, weighMembers, weighMembers, weigh_normalize w v,
      weighMembers_normalizeMembers w ms]

end

/-- The bytes of the canonical text, without sorting anything. -/
theorem utf8ByteSize_canonicalJson (num : ν → String) (j : Json ν) :
    (j.canonicalJson num).utf8ByteSize = j.weigh (textWeights num) := by
  rw [canonicalJson, utf8ByteSize_render, weigh_normalize]

end Json
