import Mathlib.Data.List.Basic

/-!
# Checked computations

A validator is a chain of checks that either stops at the first failure or
returns a value.  It is written here in `Except`: `ensure` is one check,
`require` reads an optional value that must be there, `checkAll` is a loop of
checks.  Each has one lemma saying exactly when it succeeds, and `bind_eq_ok`
takes a chain apart, so a proof about a validator never unfolds `Except.bind`.

`runAll` folds a partial step over a list of inputs; `runAll_invariant` is the
rule by which a property kept by one step is kept by every successful run.

## Main definitions

* `ensure`, `require`, `checkAll`: the checks
* `runAll step s xs`: the run of `step` over `xs`

## Main results

* `bind_eq_ok`, `ensure_eq_ok`, `require_eq_ok`, `checkAll_eq_ok`: when a chain succeeds
* `runAll_invariant`: what each step keeps, each run keeps
-/

namespace Checked

variable {ε α β σ : Type}

/-- One check: fail with `e` unless `c` holds. -/
def ensure (c : Prop) [Decidable c] (e : ε) : Except ε Unit :=
  if c then .ok () else .error e

/-- Read a value that has to be present. -/
def require (o : Option α) (e : ε) : Except ε α :=
  match o with
  | some a => .ok a
  | none => .error e

/-- A loop of checks over a list. -/
def checkAll : List α → (α → Except ε Unit) → Except ε Unit
  | [], _ => .ok ()
  | a :: as, f => do f a; checkAll as f

variable {c : Prop} {e : ε}

@[simp] theorem ensure_eq_ok [Decidable c] {u : Unit} :
    ensure c e = .ok u ↔ c := by
  unfold ensure
  split <;> simp_all

variable {a : α}

@[simp] theorem require_eq_ok {o : Option α} : require o e = .ok a ↔ o = some a := by
  cases o <;> simp [require]

variable {x : Except ε α} {f : α → Except ε β}

@[simp] theorem bind_eq_ok {b : β} : (x >>= f) = .ok b ↔ ∃ a, x = .ok a ∧ f a = .ok b := by
  cases x <;> simp [bind, Except.bind]

theorem isOk_iff : x.isOk ↔ ∃ a, x = .ok a := by
  cases x <;> simp [Except.isOk, Except.toBool]

theorem bind_eq_error : (x >>= f) = .error e ↔ x = .error e ∨ ∃ a, x = .ok a ∧ f a = .error e := by
  cases x <;> simp [bind, Except.bind]

@[simp] theorem map_eq_ok {f : α → β} {b : β} : f <$> x = .ok b ↔ ∃ a, x = .ok a ∧ f a = b := by
  cases x <;> simp [Functor.map, Except.map]

@[simp] theorem pure_eq_ok {b : α} : (pure a : Except ε α) = .ok b ↔ a = b := by
  simp [pure, Except.pure]

@[simp] theorem throw_eq_ok : (throw e : Except ε α) = .ok a ↔ False := by
  simp [throw, throwThe, MonadExceptOf.throw]

@[simp] theorem mapError_eq_ok {ε' : Type} {f : ε → ε'} : x.mapError f = .ok a ↔ x = .ok a := by
  cases x <;> simp [Except.mapError]

theorem toOption_eq_some : x.toOption = some a ↔ x = .ok a := by
  cases x <;> simp [Except.toOption]

theorem unit_exists {p : Unit → Prop} : (∃ u, p u) ↔ p () := ⟨fun ⟨_, h⟩ => h, fun h => ⟨(), h⟩⟩

/-- The rules that take a chain of checks apart, as one for `simp only`. -/
theorem chain_eq_ok : (∀ {ε α β : Type} {x : Except ε α} {f : α → Except ε β} {b : β},
      (x >>= f) = .ok b ↔ ∃ a, x = .ok a ∧ f a = .ok b) ∧
    (∀ {ε : Type} {c : Prop} [Decidable c] {e : ε} {u : Unit}, ensure c e = .ok u ↔ c) ∧
    (∀ {ε α : Type} {a b : α}, (pure a : Except ε α) = .ok b ↔ a = b) ∧
    ∀ {p : Unit → Prop}, (∃ u, p u) ↔ p () :=
  ⟨bind_eq_ok, ensure_eq_ok, pure_eq_ok, unit_exists⟩

theorem ite_eq_ok [Decidable c] {y : Except ε α} :
    (if c then x else y) = .ok a ↔ (c ∧ x = .ok a) ∨ (¬ c ∧ y = .ok a) := by
  split <;> simp_all

@[simp] theorem checkAll_eq_ok {l : List α} {f : α → Except ε Unit} {u : Unit} :
    checkAll l f = .ok u ↔ ∀ a ∈ l, f a = .ok () := by
  induction l with
  | nil => simp [checkAll]
  | cons a as ih =>
    simp only [checkAll, bind_eq_ok, ih, List.mem_cons, forall_eq_or_imp]
    exact ⟨fun ⟨_, h, h'⟩ => ⟨h, h'⟩, fun ⟨h, h'⟩ => ⟨(), h, h'⟩⟩

variable {as : List α}

/-- A loop that reads every element succeeds if every reading does. -/
theorem mapM_eq_ok {bs : List β} : as.mapM f = .ok bs ↔ as.map f = bs.map .ok := by
  induction as generalizing bs with
  | nil => cases bs <;> simp
  | cons a as ih =>
    simp only [List.mapM_cons, bind_eq_ok, pure_eq_ok, ih]
    cases bs with
    | nil => simp
    | cons b bs => simp

/-- The run of a partial step over a list of inputs. -/
def runAll (step : σ → α → Except ε σ) : σ → List α → Except ε σ
  | s, [] => .ok s
  | s, a :: as => do
    let s' ← step s a
    runAll step s' as

variable {step : σ → α → Except ε σ} {s : σ}

@[simp] theorem runAll_nil : runAll step s [] = .ok s := rfl

theorem runAll_cons_eq_ok {t : σ} :
    runAll step s (a :: as) = .ok t ↔ ∃ s', step s a = .ok s' ∧ runAll step s' as = .ok t := by
  simp [runAll]

/-- **The invariant rule.**  What every step with an input of the list keeps, the run keeps. -/
theorem runAll_invariant {Inv : σ → Prop} (hstp : ∀ a ∈ as, ∀ s s', Inv s → step s a = .ok s' →
    Inv s') {t : σ}
    (hs : Inv s) (hrun : runAll step s as = .ok t) : Inv t := by
  induction as generalizing s with
  | nil =>
    cases hrun
    exact hs
  | cons a as ih =>
    obtain ⟨s', h, hrun⟩ := runAll_cons_eq_ok.mp hrun
    exact ih (fun b hb => hstp b (List.mem_cons_of_mem a hb))
      (hstp a List.mem_cons_self s s' hs h) hrun

end Checked
