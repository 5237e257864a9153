import Mathlib.Algebra.GroupWithZero.Nat
import Mathlib.Algebra.BigOperators.Group.List.Basic

/-!
# UTF-16

The `length` of a text and its code units.

JavaScript has texts that are no `String`: any list of code units is one, and a surrogate may stand
alone.  When such a text is written in UTF-8, U+FFFD stands for each lone surrogate.

## Main definitions

* `utf16Length`, `utf16CodeUnits`
* `toUtf16`, `toWellFormed`: a `String` as code units, and what is written of code units
* `IsWellFormed`: no surrogate stands alone

## Main results

* `toWellFormed_toUtf16`
-/

/-- The code units of a character. -/
def utf16Units (c : Char) : Nat := if c.toNat < 65536 then 1 else 2

/-- The UTF-16 code units of a text, by which JavaScript compares texts. -/
def utf16CodeUnits (value : String) : List Nat :=
  value.toList.flatMap fun c =>
    if c.toNat < 65536 then [c.toNat]
    else [0xD800 + (c.toNat - 65536) / 1024, 0xDC00 + (c.toNat - 65536) % 1024]

/-- The `length` of a text, in UTF-16 code units. -/
def utf16Length (value : String) : Nat := (value.toList.map utf16Units).sum

/-! ## Texts with lone surrogates -/

/-- The character of a code unit that is not half of a pair. -/
def unitChar (u : Nat) : Char := if 0xD800 ≤ u ∧ u ≤ 0xDFFF then '�' else Char.ofNat u

/-- Pairs of surrogates are characters, and each lone one is replaced. -/
def wellFormedChars : List Nat → List Char
  | [] => []
  | [u] => [unitChar u]
  | u :: v :: units =>
    if (0xD800 ≤ u ∧ u ≤ 0xDBFF) ∧ 0xDC00 ≤ v ∧ v ≤ 0xDFFF then
      Char.ofNat (65536 + (u - 0xD800) * 1024 + (v - 0xDC00)) :: wellFormedChars units
    else unitChar u :: wellFormedChars (v :: units)

theorem wellFormedChars_cons {u : Nat} (h : u < 0xD800 ∨ 0xDBFF < u) (us : List Nat) :
    wellFormedChars (u :: us) = unitChar u :: wellFormedChars us := by
  cases us with
  | nil => rfl
  | cons v us => rw [wellFormedChars, if_neg (by omega)]

theorem wellFormedChars_utf16CodeUnits (v : String) :
    wellFormedChars (utf16CodeUnits v) = v.toList := by
  unfold utf16CodeUnits
  induction v.toList with
  | nil => rfl
  | cons c cs ih =>
    have hval : c.toNat < 0xD800 ∨ 0xDFFF < c.toNat ∧ c.toNat < 0x110000 := c.valid
    rw [List.flatMap_cons]
    split_ifs with hc
    · rw [List.singleton_append, wellFormedChars_cons (by omega), ih, unitChar, if_neg (by omega),
        Char.ofNat_toNat]
    · have hsum : 65536 + (0xD800 + (c.toNat - 65536) / 1024 - 0xD800) * 1024 +
          (0xDC00 + (c.toNat - 65536) % 1024 - 0xDC00) = c.toNat := by omega
      rw [List.cons_append, List.singleton_append, wellFormedChars, if_pos (by omega), ih, hsum,
        Char.ofNat_toNat]

theorem lt_of_mem_utf16CodeUnits {v : String} {u : Nat} (h : u ∈ utf16CodeUnits v) : u < 65536 := by
  obtain ⟨c, -, hc⟩ := List.mem_flatMap.mp h
  have hval : c.toNat < 0xD800 ∨ 0xDFFF < c.toNat ∧ c.toNat < 0x110000 := c.valid
  split_ifs at hc with hsm
  · rwa [List.mem_singleton.mp hc]
  · rcases List.mem_pair.mp hc with hc | hc <;> omega

/-- The text as code units. -/
def toUtf16 (value : String) : List UInt16 := (utf16CodeUnits value).map UInt16.ofNat

/-- `toWellFormed`: what is written of the code units. -/
def toWellFormed (units : List UInt16) : String :=
  String.ofList (wellFormedChars (units.map UInt16.toNat))

/-- No surrogate stands alone. -/
def IsWellFormed (units : List UInt16) : Prop := ∃ value, toUtf16 value = units

theorem toWellFormed_toUtf16 (v : String) : toWellFormed (toUtf16 v) = v := by
  have hmap : (toUtf16 v).map UInt16.toNat = utf16CodeUnits v := by
    rw [toUtf16, List.map_map]
    refine (List.map_congr_left (g := id) fun u hu => ?_).trans (List.map_id _)
    exact UInt16.toNat_ofNat_of_lt' (lt_of_mem_utf16CodeUnits hu)
  rw [toWellFormed, hmap, wellFormedChars_utf16CodeUnits, String.ofList_toList]

theorem toUtf16_append (v w : String) : toUtf16 (v ++ w) = toUtf16 v ++ toUtf16 w := by
  simp only [toUtf16, utf16CodeUnits, String.toList_append, List.flatMap_append, List.map_append]

/-- A line end changes nothing. -/
theorem isWellFormed_concat {us : List UInt16} : IsWellFormed (us ++ [10]) ↔ IsWellFormed us := by
  constructor
  · rintro ⟨v, hv⟩
    rcases List.eq_nil_or_concat v.toList with hnil | ⟨cs, c, hcs⟩
    · rw [toUtf16, utf16CodeUnits, hnil] at hv
      exact absurd (congrArg List.length hv) (by simp)
    · refine ⟨String.ofList cs, ?_⟩
      rw [toUtf16, utf16CodeUnits, hcs, List.concat_eq_append, List.flatMap_append,
        List.flatMap_singleton, List.map_append] at hv
      rw [toUtf16, utf16CodeUnits, String.toList_ofList]
      split_ifs at hv with hc
      · exact (List.append_inj' hv rfl).1
      · -- The second unit of a pair is no line end.
        rw [List.map_cons, List.append_cons, List.map_singleton] at hv
        have hlast := congrArg List.getLast? hv
        rw [List.getLast?_concat, List.getLast?_concat, Option.some.injEq] at hlast
        have hnat := congrArg UInt16.toNat hlast
        rw [UInt16.toNat_ofNat_of_lt' (by change _ < 65536; omega)] at hnat
        change _ = 10 at hnat
        omega
  · rintro ⟨v, rfl⟩
    exact ⟨v ++ "\n", toUtf16_append v "\n"⟩
