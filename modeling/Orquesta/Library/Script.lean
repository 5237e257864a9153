import Mathlib.Data.List.Basic

/-!
# Scripts of atomic operations

A script runs operations on a shared state one after another.  Each operation is
atomic: it sees the state, changes it, and decides what comes next.  A script that
fails or stops leaves behind what it has done so far.

`run` is an undisturbed run.  `Stops p s t` says that `p`, started in `s`, may stop in
`t`: before its first operation, between two, or at its end.  `Through` says of one run
both what holds in every state on its way and what holds at its end; the states on the
way may be given marks that only grow, such as what has been written so far.

## Main definitions

* `Script`, with `act`, `reads`, `check`, `attempt`, `settle`, `forEach`
* `Script.run`, `Script.Stops`, `Script.ReadOnly`
* `Script.Sees`: what a script may read while the state changes
* `Script.Through`: an invariant along a run

## Main results

* `run_bind`, `run_act`, `run_reads`: undisturbed runs
* `Through.bind`, `through_act_bind`, `through_forEach`, `ReadOnly.through`: rules of `Through`
* `Through.run`, `Through.stops`: what it says about the end and about the stopping points
-/

/-- A script over the state `σ`, with failures in `ε` and results in `α`. -/
inductive Script (σ ε α : Type) : Type
  | done (result : Except ε α)
  | op (effect : σ → σ) (next : σ → Script σ ε α)

namespace Script

variable {σ ε α β γ : Type}

protected def bind : Script σ ε α → (α → Script σ ε β) → Script σ ε β
  | done (.ok a), f => f a
  | done (.error e), _ => done (.error e)
  | op effect next, f => op effect fun s => (next s).bind f

instance : Monad (Script σ ε) where
  pure a := done (.ok a)
  bind := Script.bind

/-- Change the state. -/
def act (f : σ → σ) : Script σ ε Unit := op f fun _ => done (.ok ())

/-- Read from the state. -/
def reads (f : σ → α) : Script σ ε α := op id fun s => done (.ok (f s))

/-- A computation that does not touch the state. -/
def attempt (x : Except ε α) : Script σ ε α := done x

def fail (e : ε) : Script σ ε α := done (.error e)

/-- Run a script and catch its failure. -/
def settle {ε' : Type} : Script σ ε α → Script σ ε' (Except ε α)
  | done r => done (.ok r)
  | op effect next => op effect fun s => (next s).settle

/-- One check: fail with `e` unless `c` holds. -/
def check (c : Prop) [Decidable c] (e : ε) : Script σ ε Unit :=
  if c then done (.ok ()) else done (.error e)

/-- Run a script for every member of a list, in order. -/
def forEach : List α → (α → Script σ ε Unit) → Script σ ε Unit
  | [], _ => done (.ok ())
  | a :: as, f => (f a).bind fun _ => forEach as f

/-! ## Undisturbed runs -/

/-- The state and the result at the end. -/
def run : Script σ ε α → σ → σ × Except ε α
  | done r, s => (s, r)
  | op effect next, s => (next s).run (effect s)

/-- Go on from a run that succeeded. -/
def andThen (x : σ × Except ε α) (f : α → Script σ ε β) : σ × Except ε β :=
  match x.2 with
  | .ok a => (f a).run x.1
  | .error e => (x.1, .error e)

theorem run_script_bind (p : Script σ ε α) (f : α → Script σ ε β) (s : σ) :
    (p.bind f).run s = andThen (p.run s) f := by
  induction p generalizing s with
  | done r => cases r <;> rfl
  | op e next ih => exact ih s (e s)

@[simp] theorem run_bind (p : Script σ ε α) (f : α → Script σ ε β) (s : σ) :
    (p >>= f).run s = andThen (p.run s) f := run_script_bind p f s

@[simp] theorem andThen_ok (s : σ) (a : α) (f : α → Script σ ε β) :
    andThen (s, .ok a) f = (f a).run s := rfl

@[simp] theorem andThen_error (s : σ) (e : ε) (f : α → Script σ ε β) :
    andThen (s, .error e) f = (s, .error e) := rfl

@[simp] theorem run_pure (a : α) (s : σ) : (pure a : Script σ ε α).run s = (s, .ok a) := rfl

@[simp] theorem run_act (f : σ → σ) (s : σ) : (act f : Script σ ε Unit).run s = (f s, .ok ()) := rfl

@[simp] theorem run_reads (f : σ → α) (s : σ) : (reads f : Script σ ε α).run s = (s, .ok (f s)) :=
  rfl

@[simp] theorem run_attempt (x : Except ε α) (s : σ) : (attempt x : Script σ ε α).run s = (s, x) :=
  rfl

@[simp] theorem run_settle {ε' : Type} (p : Script σ ε α) (s : σ) :
    (p.settle : Script σ ε' (Except ε α)).run s = ((p.run s).1, .ok (p.run s).2) := by
  induction p generalizing s with
  | done r => rfl
  | op effect next ih => exact ih s (effect s)

theorem run_check_pos {c : Prop} [Decidable c] {e : ε} (h : c) (s : σ) :
    (check c e : Script σ ε Unit).run s = (s, .ok ()) := by
  rw [check, if_pos h]
  rfl

@[simp] theorem run_forEach_nil (f : α → Script σ ε Unit) (s : σ) :
    (forEach [] f).run s = (s, .ok ()) := rfl

@[simp] theorem run_forEach_cons (a : α) (as : List α) (f : α → Script σ ε Unit) (s : σ) :
    (forEach (a :: as) f).run s = andThen ((f a).run s) fun _ => forEach as f :=
  run_script_bind _ _ s

variable {p : Script σ ε α}

theorem run_bind_eq_ok {f : α → Script σ ε β} {s : σ} {b : β} : ((p >>= f).run s).2 = .ok b ↔
      ∃ a, (p.run s).2 = .ok a ∧ ((f a).run (p.run s).1).2 = .ok b := by
  rw [run_bind, andThen]
  cases (p.run s).2 with
  | ok a => exact ⟨fun h => ⟨a, rfl, h⟩, fun ⟨_, ha, h⟩ => Except.ok.inj ha ▸ h⟩
  | error e => simp

theorem run_check_eq_ok {c : Prop} [Decidable c] {e : ε} {s : σ} {u : Unit} :
    ((check c e : Script σ ε Unit).run s).2 = .ok u ↔ c := by
  by_cases hc : c
  · rw [run_check_pos hc]
    exact iff_of_true rfl hc
  · rw [check, if_neg hc]
    exact iff_of_false nofun hc

/-! ## Scripts that only read -/

def ReadOnly : Script σ ε α → Prop
  | done _ => True
  | op effect next => (∀ s, effect s = s) ∧ ∀ s, (next s).ReadOnly

@[simp] theorem readOnly_pure (a : α) : (pure a : Script σ ε α).ReadOnly := trivial

@[simp] theorem readOnly_reads (f : σ → α) : (reads f : Script σ ε α).ReadOnly :=
  ⟨fun _ => rfl, fun _ => trivial⟩

@[simp] theorem readOnly_attempt (x : Except ε α) : (attempt x : Script σ ε α).ReadOnly := trivial

@[simp] theorem readOnly_check (c : Prop) [Decidable c] (e : ε) :
    (check c e : Script σ ε Unit).ReadOnly := by
  unfold check
  split <;> trivial

theorem ReadOnly.bind {f : α → Script σ ε β} (hp : p.ReadOnly)
    (hf : ∀ a, (f a).ReadOnly) : (p >>= f).ReadOnly := by
  induction p with
  | done r =>
    cases r with
    | ok a => exact hf a
    | error e => trivial
  | op effect next ih => exact ⟨hp.1, fun s => ih s (hp.2 s)⟩

theorem ReadOnly.run_state (hp : p.ReadOnly) (s : σ) : (p.run s).1 = s := by
  induction p generalizing s with
  | done r => rfl
  | op e next ih =>
    change ((next s).run (e s)).1 = s
    rw [hp.1 s]
    exact ih s (hp.2 s) s

/-! ## Reading while others write -/

/-- A script that reads each time in some state that satisfies `P`, not always the same one,
may give the result. -/
def Sees (P : σ → Prop) : Script σ ε α → Except ε α → Prop
  | done r, r' => r' = r
  | op _ next, r' => ∃ s, P s ∧ (next s).Sees P r'

section Sees

variable {P : σ → Prop}

theorem sees_bind_ok {f : α → Script σ ε β} {b : β} :
    (p >>= f).Sees P (.ok b) ↔ ∃ a, p.Sees P (.ok a) ∧ (f a).Sees P (.ok b) := by
  induction p with
  | done r =>
    cases r with
    | ok a => exact ⟨fun h => ⟨a, rfl, h⟩, fun ⟨_, ha, h⟩ => Except.ok.inj ha ▸ h⟩
    | error e =>
      constructor
      · exact nofun
      · rintro ⟨a, ha, -⟩
        cases ha
  | op effect next ih =>
    constructor
    · rintro ⟨s, hs, h⟩
      obtain ⟨a, ha, hf⟩ := (ih s).mp h
      exact ⟨a, ⟨s, hs, ha⟩, hf⟩
    · rintro ⟨a, ⟨s, hs, ha⟩, hf⟩
      exact ⟨s, hs, (ih s).mpr ⟨a, ha, hf⟩⟩

theorem sees_reads_ok {f : σ → α} {a : α} :
    (reads f : Script σ ε α).Sees P (.ok a) ↔ ∃ s, P s ∧ a = f s := by
  constructor
  · rintro ⟨s, hs, ha⟩
    exact ⟨s, hs, Except.ok.inj ha⟩
  · rintro ⟨s, hs, rfl⟩
    exact ⟨s, hs, rfl⟩

theorem sees_pure_ok {a b : α} : (pure a : Script σ ε α).Sees P (.ok b) ↔ b = a :=
  ⟨fun h => Except.ok.inj h, fun h => congrArg Except.ok h⟩

theorem sees_ite {c : Prop} [Decidable c] {p q : Script σ ε α} {r : Except ε α} :
    (if c then p else q).Sees P r ↔ c ∧ p.Sees P r ∨ ¬ c ∧ q.Sees P r := by
  split <;> simp_all

theorem sees_attempt_ok {x : Except ε α} {a : α} :
    (attempt x : Script σ ε α).Sees P (.ok a) ↔ x = .ok a := eq_comm

end Sees

/-! ## Stopping points -/

/-- The script, started in the first state, may stop in the second. -/
def Stops : Script σ ε α → σ → σ → Prop
  | done _, s, t => t = s
  | op effect next, s, t => t = s ∨ (next s).Stops (effect s) t

/-- The state after so many operations, or at the end. -/
def after : Nat → Script σ ε α → σ → σ
  | 0, _, s => s
  | _ + 1, done _, s => s
  | n + 1, op effect next, s => after n (next s) (effect s)

theorem stops_after (n : Nat) (p : Script σ ε α) (s : σ) : p.Stops s (after n p s) := by
  induction n generalizing p s with
  | zero =>
    cases p with
    | done r => exact rfl
    | op e next => exact .inl rfl
  | succ n ih =>
    cases p with
    | done r => exact rfl
    | op e next => exact .inr (ih (next s) (e s))

/-! ## Invariants along a run -/

section Through

variable {κ : Type} (R : κ → κ → Prop) (G : κ → σ → Prop)

/-- Every state of the run satisfies `G` at its mark, the marks grow along `R`, and the end
satisfies `Q`. -/
def Through : Script σ ε α → κ → σ → (κ → σ → Except ε α → Prop) → Prop
  | done r, k, s, Q => G k s ∧ Q k s r
  | op effect next, k, s, Q => G k s ∧ ∃ k', R k k' ∧ (next s).Through k' (effect s) Q

variable {R G} {k k' : κ} {s t : σ} {Q : κ → σ → Except ε α → Prop}

theorem Through.start (h : p.Through R G k s Q) : G k s := by
  cases p with
  | done r => exact h.1
  | op e next => exact h.1

theorem Through.imp {Q Q' : κ → σ → Except ε α → Prop}
    (h : p.Through R G k s Q) (himp : ∀ k s r, G k s → Q k s r → Q' k s r) :
    p.Through R G k s Q' := by
  induction p generalizing k s with
  | done r => exact ⟨h.1, himp _ _ _ h.1 h.2⟩
  | op e next ih =>
    obtain ⟨hst, k', hk, hnx⟩ := h
    exact ⟨hst, k', hk, ih s hnx⟩

/-- What is asked of the end of a script that another follows. -/
def Follows (R : κ → κ → Prop) (G : κ → σ → Prop) (f : α → Script σ ε β)
    (Q : κ → σ → Except ε β → Prop) (k : κ) (s : σ) : Except ε α → Prop
  | .ok a => (f a).Through R G k s Q
  | .error e => Q k s (.error e)

theorem through_bind {f : α → Script σ ε β} {Q : κ → σ → Except ε β → Prop} :
    (p >>= f).Through R G k s Q ↔ p.Through R G k s (Follows R G f Q) := by
  induction p generalizing k s with
  | done r =>
    cases r with
    | ok a => exact ⟨fun h => ⟨h.start, h⟩, fun h => h.2⟩
    | error e => exact Iff.rfl
  | op effect next ih =>
    exact and_congr_right fun _ => exists_congr fun k' => and_congr_right fun _ => ih s

theorem through_pure {a : α} (hs : G k s) (hQ : Q k s (.ok a)) :
    (pure a : Script σ ε α).Through R G k s Q := ⟨hs, hQ⟩

theorem through_act {f : σ → σ} {Q : κ → σ → Except ε Unit → Prop} (hs : G k s) (hk : R k k')
    (hfs : G k' (f s)) (hQ : Q k' (f s) (.ok ())) :
    (act f : Script σ ε Unit).Through R G k s Q := ⟨hs, k', hk, hfs, hQ⟩

/-! One rule for each way a script may begin. -/

section Bind

variable {f : α → Script σ ε β} {Q : κ → σ → Except ε β → Prop}

theorem Through.bind {P : κ → σ → Except ε α → Prop}
    (h : p.Through R G k s P) (hf : ∀ k s r, G k s → P k s r → Follows R G f Q k s r) :
    (p >>= f).Through R G k s Q := through_bind.mpr (h.imp hf)

theorem through_act_bind {g : σ → σ} {f : Unit → Script σ ε β} (hs : G k s) (hk : R k k')
    (h : (f ()).Through R G k' (g s) Q) : (act g >>= f).Through R G k s Q := ⟨hs, k', hk, h⟩

theorem through_attempt_bind {x : Except ε α} {a : α} (hx : x = .ok a)
    (h : (f a).Through R G k s Q) : (attempt x >>= f).Through R G k s Q := by
  subst hx
  exact h

theorem through_attempt_bind_error {x : Except ε α} {e : ε} (hx : x = .error e) (hs : G k s)
    (hQ : Q k s (.error e)) : (attempt x >>= f).Through R G k s Q := by
  subst hx
  exact ⟨hs, hQ⟩

theorem through_check_bind {c : Prop} [Decidable c] {e : ε} {f : Unit → Script σ ε β} (hc : c)
    (h : (f ()).Through R G k s Q) : (check c e >>= f).Through R G k s Q := by
  rw [check, if_pos hc]
  exact h

theorem through_check_bind_error {c : Prop} [Decidable c] {e : ε} {f : Unit → Script σ ε β}
    (hc : ¬ c) (hs : G k s) (hQ : Q k s (.error e)) :
    (check c e >>= f).Through R G k s Q := by
  rw [check, if_neg hc]
  exact ⟨hs, hQ⟩

variable [Std.Refl R]

theorem through_reads_bind {g : σ → α} (h : (f (g s)).Through R G k s Q) :
    (reads g >>= f).Through R G k s Q := ⟨h.start, k, refl_of R k, h⟩

/-- A script that only reads stays where it is. -/
theorem ReadOnly.through {Q : κ → σ → Except ε α → Prop} (hp : p.ReadOnly)
    (hs : G k s) (hQ : Q k s (p.run s).2) : p.Through R G k s Q := by
  induction p with
  | done r => exact ⟨hs, hQ⟩
  | op e next ih =>
    have hrun : ((op e next).run s).2 = ((next s).run s).2 := by
      change ((next s).run (e s)).2 = _
      rw [hp.1 s]
    refine ⟨hs, k, refl_of R k, ?_⟩
    rw [hp.1 s]
    exact ih s (hp.2 s) (hrun ▸ hQ)

theorem ReadOnly.through_bind {a : α} (hp : p.ReadOnly)
    (ha : (p.run s).2 = .ok a) (h : (f a).Through R G k s Q) :
    (p >>= f).Through R G k s Q :=
  Script.through_bind.mpr (hp.through h.start (ha ▸ h))

theorem ReadOnly.through_bind_error {e : ε} (hp : p.ReadOnly)
    (he : (p.run s).2 = .error e) (hs : G k s) (hQ : Q k s (.error e)) :
    (p >>= f).Through R G k s Q :=
  Script.through_bind.mpr (hp.through hs (he ▸ hQ))

end Bind

/-- A loop, with an invariant of what is still to be done. -/
theorem through_forEach {f : α → Script σ ε Unit} (I : List α → κ → σ → Prop)
    (hG : ∀ {as k s}, I as k s → G k s)
    (hstp : ∀ {a as k s}, I (a :: as) k s →
      (f a).Through R G k s fun k s r => r = .ok () ∧ I as k s) {as : List α} (h : I as k s) :
    (forEach as f).Through R G k s fun k s r => r = .ok () ∧ I [] k s := by
  induction as generalizing k s with
  | nil => exact ⟨hG h, rfl, h⟩
  | cons a as ih =>
    refine through_bind.mpr ((hstp h).imp ?_)
    rintro k s r - ⟨rfl, h⟩
    exact ih h

variable [Std.Refl R] [IsTrans κ R]

/-- The end of an undisturbed run. -/
theorem Through.run (h : p.Through R G k s Q) :
    ∃ k', R k k' ∧ G k' (p.run s).1 ∧ Q k' (p.run s).1 (p.run s).2 := by
  induction p generalizing k s with
  | done r => exact ⟨k, refl_of R k, h⟩
  | op e next ih =>
    obtain ⟨-, k', hk, hnx⟩ := h
    obtain ⟨k'', hk', hend⟩ := ih s hnx
    exact ⟨k'', trans_of R hk hk', hend⟩

/-- Where the script stops, the invariant holds. -/
theorem Through.stops (h : p.Through R G k s Q) (ht : p.Stops s t) : ∃ k', R k k' ∧ G k' t := by
  induction p generalizing k s with
  | done r =>
    obtain rfl : t = s := ht
    exact ⟨k, refl_of R k, h.1⟩
  | op e next ih =>
    obtain ⟨hs, k', hk, hnx⟩ := h
    rcases ht with rfl | ht
    · exact ⟨k, refl_of R k, hs⟩
    · obtain ⟨k'', hk', hend⟩ := ih s hnx ht
      exact ⟨k'', trans_of R hk hk', hend⟩

omit [Std.Refl R] [IsTrans κ R] in
/-- The marks along a run only grow. -/
theorem Through.grown {S : κ → κ → Prop} [Std.Refl S] [IsTrans κ S] (hS : ∀ {k k'}, R k k' → S k k')
    (h : p.Through R G k s Q) :
    p.Through R G k s fun k' s r => S k k' ∧ Q k' s r := by
  induction p generalizing k s with
  | done r => exact ⟨h.1, refl_of S k, h.2⟩
  | op e next ih =>
    obtain ⟨hs, k', hk, hnx⟩ := h
    exact ⟨hs, k', hk, (ih s hnx).imp fun _ _ _ _ ⟨hk', hQ⟩ => ⟨trans_of S (hS hk) hk', hQ⟩⟩

omit [Std.Refl R] [IsTrans κ R] in
/-- Marks of another kind, if they can follow. -/
theorem Through.simulate {κ' : Type} {R' : κ' → κ' → Prop} {G' : κ' → σ → Prop} (M : κ → κ' → Prop)
    (hM : ∀ {k k' l}, M k l → R k k' → ∃ l', R' l l' ∧ M k' l')
    (hG : ∀ {k l s}, M k l → G k s → G' l s) {l : κ'}
    (h : p.Through R G k s Q) (hkl : M k l) :
    p.Through R' G' l s fun l s r => ∃ k, M k l ∧ G k s ∧ Q k s r := by
  induction p generalizing k l s with
  | done r => exact ⟨hG hkl h.1, k, hkl, h⟩
  | op e next ih =>
    obtain ⟨hs, k', hk, hnx⟩ := h
    obtain ⟨l', hl, hkl'⟩ := hM hkl hk
    exact ⟨hG hkl hs, l', hl, ih s hnx hkl'⟩

end Through

end Script
