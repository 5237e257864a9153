import Mathlib.Data.String.Basic
import Mathlib.Tactic.Ring

/-!
# UTC timestamps

Timestamps as `Date.prototype.toISOString` writes them, `YYYY-MM-DDThh:mm:ss.sssZ`.
All of them have the same length and their parts are padded with zeros, from the
largest unit to the smallest, so they are compared as texts.

A text of that shape need not name a day that exists.  `isValidUtcTimestamp` asks
for one that does: reading the text as a date and writing it again gives the same
text.

## Main results

* `instant_lt_instant`: comparing the texts of valid timestamps compares the instants
-/

namespace UtcTimestamp

open List

structure Fields where
  (year month day hour minute second millisecond : Nat)

def isDigit (c : Char) : Bool := '0' ≤ c && c ≤ '9'

/-- The number digits write after `n`. -/
def valueFrom (n : Nat) (cs : List Char) : Nat := cs.foldl (fun n c => 10 * n + (c.toNat - 48)) n

/-- The number a list of decimal digits writes. -/
def number (cs : List Char) : Option Nat := if cs.all isDigit then some (valueFrom 0 cs) else none

/-- `/^\d{4}-\d{2}-\d{2}T\d{2}:\d{2}:\d{2}\.\d{3}Z$/`, with what the groups of digits say. -/
def fields (s : String) : Option Fields :=
  match s.toList with
  | [y₁, y₂, y₃, y₄, '-', m₁, m₂, '-', d₁, d₂, 'T', h₁, h₂, ':', n₁, n₂, ':', s₁, s₂, '.', f₁, f₂,
      f₃, 'Z'] => do
    return ⟨← number [y₁, y₂, y₃, y₄], ← number [m₁, m₂], ← number [d₁, d₂], ← number [h₁, h₂],
      ← number [n₁, n₂], ← number [s₁, s₂], ← number [f₁, f₂, f₃]⟩
  | _ => none

def matchesPattern (s : String) : Bool := (fields s).isSome

def isLeapYear (year : Nat) : Bool := year % 4 = 0 && (year % 100 ≠ 0 || year % 400 = 0)

def daysInMonth (year month : Nat) : Nat :=
  if month = 2 then (if isLeapYear year then 29 else 28)
  else if month ∈ [4, 6, 9, 11] then 30 else 31

/-- The day and the time of day exist. -/
def Fields.isValid (f : Fields) : Bool :=
  1 ≤ f.month && f.month ≤ 12 && 1 ≤ f.day && f.day ≤ daysInMonth f.year f.month &&
    f.hour < 24 && f.minute < 60 && f.second < 60

def isValidUtcTimestamp (s : String) : Bool := (fields s).any Fields.isValid

example : isValidUtcTimestamp "2024-02-29T23:59:59.999Z" := by decide

example : ¬ isValidUtcTimestamp "2023-02-29T00:00:00.000Z" := by decide

/-! ## Texts and numbers -/

theorem valueFrom_eq (n : Nat) (cs : List Char) :
    valueFrom n cs = n * 10 ^ cs.length + valueFrom 0 cs := by
  induction cs generalizing n with
  | nil => simp [valueFrom]
  | cons c cs ih =>
    have hcons : ∀ n, valueFrom n (c :: cs) = valueFrom (10 * n + (c.toNat - 48)) cs := fun _ => rfl
    rw [hcons, hcons, ih, ih (10 * 0 + _), length_cons, pow_succ]
    ring

theorem valueFrom_cons (c : Char) (cs : List Char) :
    valueFrom 0 (c :: cs) = (c.toNat - 48) * 10 ^ cs.length + valueFrom 0 cs := by
  have hcons : valueFrom 0 (c :: cs) = valueFrom (10 * 0 + (c.toNat - 48)) cs := rfl
  rw [hcons, valueFrom_eq, Nat.mul_zero, Nat.zero_add]

theorem toNat_of_isDigit {c : Char} (h : isDigit c) : 48 ≤ c.toNat ∧ c.toNat ≤ 57 := by
  simp only [isDigit, Bool.and_eq_true, decide_eq_true_eq] at h
  exact ⟨h.1, h.2⟩

variable {cs a b l m : List Char}

theorem valueFrom_lt (h : cs.all isDigit) : valueFrom 0 cs < 10 ^ cs.length := by
  induction cs with
  | nil => simp [valueFrom]
  | cons c cs ih =>
    simp only [all_cons, Bool.and_eq_true] at h
    have hc := toNat_of_isDigit h.1
    have hcs := ih h.2
    have hdigit : (c.toNat - 48) * 10 ^ cs.length ≤ 9 * 10 ^ cs.length :=
      Nat.mul_le_mul_right _ (by omega)
    rw [valueFrom_cons, length_cons, pow_succ]
    omega

/-- Texts of digits of one length are ordered as the numbers they write. -/
theorem valueFrom_lt_valueFrom (hlen : a.length = b.length)
    (ha : a.all isDigit) (hb : b.all isDigit) (hlt : a < b) : valueFrom 0 a < valueFrom 0 b := by
  induction a generalizing b with
  | nil =>
    rw [length_nil, eq_comm, length_eq_zero_iff] at hlen
    exact absurd hlt (by simp [hlen])
  | cons c a ih =>
    cases b with
    | nil => simp at hlen
    | cons d b =>
      simp only [all_cons, Bool.and_eq_true] at ha hb
      have hlen' : a.length = b.length := by simpa using hlen
      rw [valueFrom_cons, valueFrom_cons, ← hlen']
      rcases cons_lt_cons_iff.mp hlt with hcd | ⟨rfl, hab⟩
      · -- the rest of `a` is worth less than one more of the leading digit
        have hc := toNat_of_isDigit ha.1
        have hd := toNat_of_isDigit hb.1
        have hcd' : c.toNat < d.toNat := hcd
        have hrs := valueFrom_lt ha.2
        have hstp : (c.toNat - 48 + 1) * 10 ^ a.length ≤ (d.toNat - 48) * 10 ^ a.length :=
          Nat.mul_le_mul_right _ (by omega)
        rw [Nat.add_mul, Nat.one_mul] at hstp
        omega
      · have hab' := ih hlen' ha.2 hb.2 hab
        omega

theorem append_lt_append_iff (hlen : a.length = b.length) :
    a ++ l < b ++ m ↔ a < b ∨ a = b ∧ l < m := by
  induction a generalizing b with
  | nil =>
    rw [length_nil, eq_comm, length_eq_zero_iff] at hlen
    simp [hlen]
  | cons c a ih =>
    cases b with
    | nil => simp at hlen
    | cons d b =>
      have hlen' : a.length = b.length := by simpa using hlen
      rw [cons_append, cons_append, cons_lt_cons_iff, cons_lt_cons_iff, ih hlen']
      grind

/-! ## Instants -/

def daysInYear (year : Nat) : Nat := if isLeapYear year then 366 else 365

def daysBeforeYear : Nat → Nat
  | 0 => 0
  | year + 1 => daysBeforeYear year + daysInYear year

/-- The days of the year before the month, months counting from one. -/
def daysBeforeMonth (year : Nat) : Nat → Nat
  | 0 => 0
  | 1 => 0
  | month + 2 => daysBeforeMonth year (month + 1) + daysInMonth year (month + 1)

/-- The days from the beginning of the year zero. -/
def Fields.days (f : Fields) : Nat :=
  daysBeforeYear f.year + daysBeforeMonth f.year f.month + (f.day - 1)

/-- The milliseconds from the beginning of the year zero. -/
def Fields.instant (f : Fields) : Nat :=
  (((f.days * 24 + f.hour) * 60 + f.minute) * 60 + f.second) * 1000 + f.millisecond

/-- The instant a timestamp names. -/
def instant (s : String) : Nat := ((fields s).map Fields.instant).getD 0

theorem daysBeforeMonth_succ {year month : Nat} (h : 1 ≤ month) :
    daysBeforeMonth year (month + 1) = daysBeforeMonth year month + daysInMonth year month := by
  obtain ⟨m, rfl⟩ := Nat.exists_eq_add_of_le' h
  rfl

theorem daysBeforeMonth_mono (year : Nat) {m n : Nat} (hm : 1 ≤ m) (h : m ≤ n) :
    daysBeforeMonth year m ≤ daysBeforeMonth year n := by
  induction n, h using Nat.le_induction with
  | base => exact le_rfl
  | succ n hmn ih =>
    rw [daysBeforeMonth_succ (hm.trans hmn)]
    exact ih.trans (Nat.le_add_right _ _)

theorem daysBeforeMonth_thirteen (year : Nat) : daysBeforeMonth year 13 = daysInYear year := by
  cases hleap : isLeapYear year <;> simp [daysBeforeMonth, daysInMonth, daysInYear, hleap]

theorem daysBeforeYear_mono {y z : Nat} (h : y ≤ z) : daysBeforeYear y ≤ daysBeforeYear z := by
  induction z, h using Nat.le_induction with
  | base => exact le_rfl
  | succ z _ ih => exact ih.trans (Nat.le_add_right _ _)

/-- Fields in the order of time: the larger unit decides. -/
def Fields.Before (f g : Fields) : Prop :=
  f.year < g.year ∨ f.year = g.year ∧ (f.month < g.month ∨ f.month = g.month ∧
    (f.day < g.day ∨ f.day = g.day ∧ (f.hour < g.hour ∨ f.hour = g.hour ∧
      (f.minute < g.minute ∨ f.minute = g.minute ∧ (f.second < g.second ∨ f.second = g.second ∧
        f.millisecond < g.millisecond)))))

@[mk_iff]
structure Fields.InRange (f : Fields) : Prop where
  one_le_month : 1 ≤ f.month
  month_le : f.month ≤ 12
  one_le_day : 1 ≤ f.day
  day_le : f.day ≤ daysInMonth f.year f.month
  hour_lt : f.hour < 24
  minute_lt : f.minute < 60
  second_lt : f.second < 60

theorem Fields.isValid_iff {f : Fields} : f.isValid ↔ f.InRange := by
  simp only [isValid, Bool.and_eq_true, decide_eq_true_eq, inRange_iff, and_assoc]

variable {f g : Fields}

/-- A day lies before the first of every later month of its year. -/
theorem Fields.InRange.day_before_month (hf : f.InRange) {month : Nat} (h : f.month < month) :
    daysBeforeMonth f.year f.month + f.day ≤ daysBeforeMonth f.year month := by
  have hmono := daysBeforeMonth_mono f.year (Nat.le_add_left 1 f.month) h
  rw [daysBeforeMonth_succ hf.one_le_month] at hmono
  have hday := hf.day_le
  omega

theorem Fields.InRange.days_lt_of_year (hf : f.InRange) (h : f.year < g.year) :
    f.days < g.days := by
  have hyear := hf.day_before_month (Nat.lt_succ_of_le hf.month_le)
  rw [daysBeforeMonth_thirteen] at hyear
  have hmono : daysBeforeYear f.year + daysInYear f.year ≤ daysBeforeYear g.year :=
    daysBeforeYear_mono h
  have hday := hf.one_le_day
  unfold Fields.days
  omega

theorem Fields.InRange.days_lt_of_month (hf : f.InRange) (hy : f.year = g.year)
    (h : f.month < g.month) : f.days < g.days := by
  have hmonth := hf.day_before_month h
  have hday := hf.one_le_day
  unfold Fields.days
  rw [← hy]
  omega

theorem Fields.InRange.instant_lt (hf : f.InRange) (hms : f.millisecond < 1000)
    (h : f.Before g) : f.instant < g.instant := by
  have hhour := hf.hour_lt
  have hminute := hf.minute_lt
  have hsnd := hf.second_lt
  unfold Fields.instant
  -- a later day is later whatever the time of day; on one day the time decides
  rcases h with hy | ⟨hy, hm | ⟨hm, hd | ⟨hd, hti⟩⟩⟩
  · have hdays := hf.days_lt_of_year hy
    omega
  · have hdays := hf.days_lt_of_month hy hm
    omega
  · have hdays : f.days < g.days := by
      have hday := hf.one_le_day
      unfold Fields.days
      rw [← hy, ← hm]
      omega
    omega
  · have hdays : f.days = g.days := by
      unfold Fields.days
      rw [hy, hm, hd]
    omega

/-! ## The order of texts is the order of time -/

/-- The text of `f`, cut into its groups of digits. -/
structure Written (s : String) (f : Fields) : Type where
  (year month day hour minute second millisecond : List Char)
  toList_eq : s.toList = year ++ ('-' :: (month ++ ('-' :: (day ++ ('T' :: (hour ++ (':' ::
    (minute ++ (':' :: (second ++ ('.' :: (millisecond ++ ['Z']))))))))))))
  lengths : [year, month, day, hour, minute, second, millisecond].map length =
    [4, 2, 2, 2, 2, 2, 3]
  numbers : [year, month, day, hour, minute, second, millisecond].map number =
    [f.year, f.month, f.day, f.hour, f.minute, f.second, f.millisecond].map some

variable {s t : String}

theorem exists_written {f : Fields} (h : fields s = some f) : Nonempty (Written s f) := by
  unfold fields at h
  split at h
  next y₁ y₂ y₃ y₄ m₁ m₂ d₁ d₂ h₁ h₂ n₁ n₂ s₁ s₂ f₁ f₂ f₃ hs =>
    simp only [Option.bind_eq_bind, Option.bind_eq_some_iff, Option.pure_def] at h
    obtain ⟨y, hy, mo, hmo, d, hd, hh, hhh, n, hn, sec, hsec, ms, hms, hf⟩ := h
    cases hf
    exact ⟨⟨[y₁, y₂, y₃, y₄], [m₁, m₂], [d₁, d₂], [h₁, h₂], [n₁, n₂], [s₁, s₂], [f₁, f₂, f₃],
      hs, rfl, by simp [hy, hmo, hd, hhh, hn, hsec, hms]⟩⟩
  · cases h

theorem digits_of_number {n : Nat} (h : number cs = some n) :
    cs.all isDigit ∧ valueFrom 0 cs = n := by
  unfold number at h
  split at h
  next hdg => exact ⟨hdg, Option.some.inj h⟩
  · cases h

/-- One group of digits of two texts, with what follows it. -/
theorem group_lt {i j : Nat} (hlen : a.length = b.length)
    (ha : number a = some i) (hb : number b = some j) (h : a ++ l < b ++ m) :
    i < j ∨ i = j ∧ l < m := by
  obtain ⟨hda, rfl⟩ := digits_of_number ha
  obtain ⟨hdb, rfl⟩ := digits_of_number hb
  rcases (append_lt_append_iff hlen).mp h with hlt | ⟨rfl, hrs⟩
  · exact .inl (valueFrom_lt_valueFrom hlen hda hdb hlt)
  · exact .inr ⟨rfl, hrs⟩

theorem before_of_lt {f g : Fields} (hs : fields s = some f)
    (ht : fields t = some g) (h : s < t) : f.Before g := by
  obtain ⟨y, mo, d, hr, mi, se, ms, hlst, hlen, hnum⟩ := exists_written hs
  obtain ⟨y', mo', d', hr', mi', se', ms', hlst', hlen', hnum'⟩ := exists_written ht
  rw [String.lt_iff_toList_lt, hlst, hlst'] at h
  have hlens := hlen.trans hlen'.symm
  simp only [map_cons, map_nil, cons.injEq, and_true] at hlens hnum hnum'
  obtain ⟨l₁, l₂, l₃, l₄, l₅, l₆, l₇⟩ := hlens
  obtain ⟨n₁, n₂, n₃, n₄, n₅, n₆, n₇⟩ := hnum
  obtain ⟨n₁', n₂', n₃', n₄', n₅', n₆', n₇'⟩ := hnum'
  have hskip : ∀ {c : Char} {l m : List Char}, c :: l < c :: m → l < m := fun h => by
    simpa using h
  refine (group_lt l₁ n₁ n₁' h).imp_right fun ⟨hy, h⟩ => ⟨hy, ?_⟩
  refine (group_lt l₂ n₂ n₂' (hskip h)).imp_right fun ⟨hmo, h⟩ => ⟨hmo, ?_⟩
  refine (group_lt l₃ n₃ n₃' (hskip h)).imp_right fun ⟨hd, h⟩ => ⟨hd, ?_⟩
  refine (group_lt l₄ n₄ n₄' (hskip h)).imp_right fun ⟨hh, h⟩ => ⟨hh, ?_⟩
  refine (group_lt l₅ n₅ n₅' (hskip h)).imp_right fun ⟨hmi, h⟩ => ⟨hmi, ?_⟩
  refine (group_lt l₆ n₆ n₆' (hskip h)).imp_right fun ⟨hse, h⟩ => ⟨hse, ?_⟩
  rcases group_lt l₇ n₇ n₇' (hskip h) with hms | ⟨-, habs⟩
  · exact hms
  · exact absurd habs (lt_irrefl _)

theorem millisecond_lt {f : Fields} (h : fields s = some f) : f.millisecond < 1000 := by
  obtain ⟨_, _, _, _, _, _, ms, -, hlen, hnum⟩ := exists_written h
  simp only [map_cons, map_nil, cons.injEq, and_true] at hlen hnum
  obtain ⟨hdg, hv⟩ := digits_of_number hnum.2.2.2.2.2.2
  have hlt := valueFrom_lt hdg
  rw [hv, hlen.2.2.2.2.2.2] at hlt
  exact hlt

/-- Of two valid timestamps the smaller text names the earlier instant. -/
theorem instant_lt_instant (hs : isValidUtcTimestamp s) (ht : isValidUtcTimestamp t)
    (h : s < t) : instant s < instant t := by
  rw [isValidUtcTimestamp, Option.any_eq_true] at hs ht
  obtain ⟨f, hf, hfv⟩ := hs
  obtain ⟨g, hg, -⟩ := ht
  have hlt := (Fields.isValid_iff.mp hfv).instant_lt (millisecond_lt hf) (before_of_lt hf hg h)
  simpa [instant, hf, hg] using hlt

end UtcTimestamp
