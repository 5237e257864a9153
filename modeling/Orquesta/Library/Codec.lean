import Mathlib.Logic.Encodable.Basic

/-!
# Documents as bytes

A document is written as a text that ends where it ends: no proper beginning of it is the
text of a document.  So a write that stops half way leaves either a whole document, with or
without the line feed after it, or something that is not read.

## Main definitions

* `Codec`: a way to write documents and to read them
* `Codec.line`: the bytes of a document and a line feed
* `Codec.ofEncodable`: a codec for every encodable type
* `Codec.startingWith`: an encoding with given values first

## Main results

* `Codec.read_take_line`: what a beginning of a line is read as
-/

/-- A way to write documents as bytes and to read them. -/
structure Codec (α : Type) where
  write : α → List UInt8
  read : List UInt8 → Option α
  write_ne_nil : ∀ a, write a ≠ []
  read_write : ∀ a, read (write a) = some a
  /-- A line feed after the text is skipped. -/
  read_line : ∀ a, read (write a ++ [10]) = some a
  /-- A text whose end is missing is not read. -/
  read_torn : ∀ a n, n < (write a).length → read ((write a).take n) = none

namespace Codec

open List Option

variable {α : Type} (codec : Codec α)

/-- A document and a line feed. -/
def line (a : α) : List UInt8 := codec.write a ++ [10]

@[simp]
theorem read_line_eq (a : α) : codec.read (codec.line a) = some a := codec.read_line a

/-- What a beginning of a line is read as. -/
theorem read_take_line (a : α) (n : Nat) :
    codec.read ((codec.line a).take n) = if n < (codec.write a).length then none else some a := by
  unfold line
  split_ifs with hn
  · rw [take_append_of_le_length hn.le]
    exact codec.read_torn a n hn
  · rw [take_append, take_of_length_le (not_lt.mp hn)]
    cases hrs : n - (codec.write a).length with
    | zero => rw [take_zero, append_nil, codec.read_write]
    | succ m => rw [take_succ_cons, take_nil, codec.read_line]

/-! ## A codec for every encodable type -/

section Unary

variable [Encodable α]

/-- A number as so many zeros and a one. -/
def unary (n : Nat) : List UInt8 := replicate n 0 ++ [1]

/-- The number of zeros before a one, if that is all there is, up to a line feed. -/
def readUnary : List UInt8 → Option Nat
  | [] => none
  | b :: bs =>
    if b = 0 then (readUnary bs).map (· + 1)
    else if b = 1 ∧ (bs = [] ∨ bs = [10]) then some 0
    else none

theorem readUnary_unary (n : Nat) (rest : List UInt8) (h : rest = [] ∨ rest = [10]) :
    readUnary (unary n ++ rest) = some n := by
  induction n with
  | zero => simp [unary, readUnary, h]
  | succ n ih =>
    rw [unary, replicate_succ, cons_append, cons_append, readUnary, if_pos rfl]
    rw [unary] at ih
    rw [ih]
    rfl

theorem readUnary_torn (n m : Nat) (h : m < (unary n).length) :
    readUnary ((unary n).take m) = none := by
  -- What is missing is the one, so only zeros are left.
  have htake : (unary n).take m = replicate m 0 := by
    have hm : m ≤ n := by simpa [unary, Nat.lt_succ_iff] using h
    rw [unary, take_append_of_le_length (by simpa using hm), take_replicate, Nat.min_eq_left hm]
  rw [htake]
  clear htake h
  induction m with
  | zero => rfl
  | succ m ih => rw [replicate_succ, readUnary, if_pos rfl, ih, map_none]

/-- A codec for every encodable type. -/
def ofEncodable (α : Type) [Encodable α] : Codec α where
  write a := unary (Encodable.encode a)
  read bytes := (readUnary bytes).bind Encodable.decode
  write_ne_nil a := by simp [unary]
  read_write a := by
    have h := readUnary_unary (Encodable.encode a) [] (.inl rfl)
    rw [append_nil] at h
    rw [h, bind_some, Encodable.encodek]
  read_line a := by
    rw [readUnary_unary _ [10] (.inr rfl), bind_some, Encodable.encodek]
  read_torn a n h := by
    rw [readUnary_torn _ _ h]
    rfl

/-- An encoding in which the given values come first, so that they are written shortly. -/
abbrev startingWith [DecidableEq α] (first : List α) : Encodable α where
  encode a := if a ∈ first then first.idxOf a else first.length + Encodable.encode a
  decode n := if n < first.length then first[n]? else Encodable.decode (n - first.length)
  encodek a := by
    by_cases h : a ∈ first
    · have hlt := idxOf_lt_length_of_mem h
      rw [if_pos h, if_pos hlt, getElem?_eq_getElem hlt, getElem_idxOf]
    · rw [if_neg h, if_neg (by omega), Nat.add_sub_cancel_left, Encodable.encodek]

end Unary

end Codec
