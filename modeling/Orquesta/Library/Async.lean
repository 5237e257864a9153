import Mathlib.Data.List.Basic
import Mathlib.Logic.Relation

/-!
# Tasks that take turns

A task is an asynchronous call: it does one step, is resumed with what the outside answers,
does the next step, and so on.  Other tasks on the same state go on in between.  A step has a
label that says what it is about to do; assumptions about answers and assertions of a proof
are stated at labels.

`Wp` is about a task that is alone: for all answers, the end satisfies the postcondition.
`Sound` is about a task among others: every step, from any state that satisfies the invariant and
the assertion at the label, is a step of the guarantee, which keeps the invariant and the
assertions of the others.  `Pool.sound_run` concludes for all interleavings.

## Main definitions

* `Async`, with `await`, `attempt`, `recover`, `ignore`, `forEach`
* `Async.Wp`: the weakest precondition of a task that is alone
* `Outline`, `Async.Sound`, `Async.Obeys`: a proof outline, and a task that follows it
* `Pool`, `Pool.act`, `Pool.run`: tasks that take turns

## Main results

* `wp_pure`, `wp_await`, `wp_bind`, `wp_forEach`: rules of `Wp`
* `sound_bind`, `sound_recover`: rules of `Sound`
* `Obeys.bind`, `Obeys.recover`, `obeys_forEach`, `obeys_await`: rules of `Obeys`
* `Pool.sound_run`: what holds in every state of a run, and between any two
-/

/-- An asynchronous call over the state `σ`, with answers in `ι` and labels in `l`. -/
inductive Async (σ ι l ε α : Type) : Type
  | done (result : Except ε α)
  | step (label : l) (effect : ι → σ → σ) (next : ι → σ → Async σ ι l ε α)

namespace Async

variable {σ ι l ε α β : Type}

protected def bind : Async σ ι l ε α → (α → Async σ ι l ε β) → Async σ ι l ε β
  | done (.ok a), f => f a
  | done (.error e), _ => done (.error e)
  | step label effect next, f => step label effect fun x s => (next x s).bind f

instance : Monad (Async σ ι l ε) where
  pure a := done (.ok a)
  bind := Async.bind

/-- One step: the state changes, and there is a result or a failure. -/
def await (label : l) (f : ι → σ → σ × Except ε α) : Async σ ι l ε α :=
  step label (fun x s => (f x s).1) fun x s => done (f x s).2

def attempt (x : Except ε α) : Async σ ι l ε α := done x

/-- `try … catch`. -/
def recover : Async σ ι l ε α → (ε → Async σ ι l ε α) → Async σ ι l ε α
  | done (.ok a), _ => done (.ok a)
  | done (.error e), h => h e
  | step label effect next, h => step label effect fun x s => (next x s).recover h

/-- A failure is ignored. -/
def ignore (t : Async σ ι l ε Unit) : Async σ ι l ε Unit := t.recover fun _ => done (.ok ())

/-- A call for every member of a list, in order. -/
def forEach : List β → (β → Async σ ι l ε Unit) → Async σ ι l ε Unit
  | [], _ => done (.ok ())
  | b :: bs, f => (f b).bind fun _ => forEach bs f

/-! ## A task that is alone -/

section Wp

variable (X : l → ι → Prop)

/-- For all answers that are admitted at their labels, the end satisfies `Q`. -/
def Wp : Async σ ι l ε α → (Except ε α → σ → Prop) → σ → Prop
  | done r, Q, s => Q r s
  | step label effect next, Q, s => ∀ x, X label x → (next x s).Wp Q (effect x s)

/-- What is asked of the end of a task that another follows. -/
def Then (f : α → Async σ ι l ε β) (Q : Except ε β → σ → Prop) : Except ε α → σ → Prop
  | .ok a, s => (f a).Wp X Q s
  | .error e, s => Q (.error e) s

variable {X} {s : σ} {t : Async σ ι l ε α} {Q : Except ε α → σ → Prop}

theorem Wp.imp {Q' : Except ε α → σ → Prop} (h : t.Wp X Q s)
    (himp : ∀ r s, Q r s → Q' r s) : t.Wp X Q' s := by
  induction t generalizing s with
  | done r => exact himp r s h
  | step label e next ih => exact fun x hx => ih x s (h x hx)

theorem Wp.and {Q' : Except ε α → σ → Prop} (h : t.Wp X Q s) (h' : t.Wp X Q' s) :
    t.Wp X (fun r s => Q r s ∧ Q' r s) s := by
  induction t generalizing s with
  | done r => exact ⟨h, h'⟩
  | step label e next ih => exact fun x hx => ih x s (h x hx) (h' x hx)

/-- A task that is alone comes to an end. -/
theorem Wp.exists (hX : ∀ label, ∃ x, X label x) (h : t.Wp X Q s) : ∃ r s, Q r s := by
  induction t generalizing s with
  | done r => exact ⟨r, s, h⟩
  | step label e next ih =>
    obtain ⟨x, hx⟩ := hX label
    exact ih x s (h x hx)

theorem wp_bind {f : α → Async σ ι l ε β} {Q : Except ε β → σ → Prop} :
    (t >>= f).Wp X Q s ↔ t.Wp X (Then X f Q) s := by
  induction t generalizing s with
  | done r => cases r <;> exact Iff.rfl
  | step label e next ih => exact forall₂_congr fun x _ => ih x s

theorem wp_pure {a : α} : (pure a : Async σ ι l ε α).Wp X Q s ↔ Q (.ok a) s := Iff.rfl

theorem wp_attempt {r : Except ε α} : (attempt r : Async σ ι l ε α).Wp X Q s ↔ Q r s := Iff.rfl

theorem wp_await {label : l} {f : ι → σ → σ × Except ε α} :
    (await label f).Wp X Q s ↔ ∀ x, X label x → Q (f x s).2 (f x s).1 := Iff.rfl

/-- A loop, with an invariant of what is still to be done. -/
theorem wp_forEach {f : β → Async σ ι l ε Unit} (I : List β → σ → Prop)
    {Q : Except ε Unit → σ → Prop}
    (hstp : ∀ {b bs s}, I (b :: bs) s → (f b).Wp X (fun r s => match r with
        | .ok () => I bs s
        | .error e => Q (.error e) s) s)
    (hend : ∀ {s}, I [] s → Q (.ok ()) s) {bs : List β} (h : I bs s) :
    (forEach bs f).Wp X Q s := by
  induction bs generalizing s with
  | nil => exact hend h
  | cons b bs ih =>
    refine wp_bind.mpr ((hstp h).imp ?_)
    rintro (e | ⟨⟩) s hs
    · exact hs
    · exact ih hs

-- From here on the rules are used, and no task is evaluated.
attribute [irreducible] Wp

end Wp

end Async

/-! ## A task among others -/

/-- A proof outline: an invariant, the assertion at each label, the condition under which a step is
taken, and what every step guarantees. -/
structure Outline (σ ι l : Type) where
  inv : σ → Prop
  pre : l → σ → Prop
  guard : l → ι → σ → Prop
  guarantee : σ → σ → Prop
  inv_of_guarantee : ∀ {s s'}, inv s → guarantee s s' → inv s'
  stable : ∀ {label s s'}, inv s → guarantee s s' → pre label s → pre label s'

namespace Async

variable {σ ι l ε α β : Type} (O : Outline σ ι l)

/-- The task follows the outline, and ends as the postcondition says. -/
def Sound : Async σ ι l ε α → (Except ε α → σ → Prop) → σ → Prop
  | done r, Q, s => Q r s
  | step label effect next, Q, s => O.pre label s ∧
      ∀ x s, O.inv s → O.pre label s → O.guard label x s →
        O.guarantee s (effect x s) ∧ (next x s).Sound Q (effect x s)

def SoundThen (f : α → Async σ ι l ε β) (Q : Except ε β → σ → Prop) : Except ε α → σ → Prop
  | .ok a, s => (f a).Sound O Q s
  | .error e, s => Q (.error e) s

variable {O} {s s' : σ}

variable {t : Async σ ι l ε α} {Q : Except ε α → σ → Prop}

theorem Sound.imp {Q' : Except ε α → σ → Prop} (h : t.Sound O Q s)
    (himp : ∀ r s, Q r s → Q' r s) : t.Sound O Q' s := by
  induction t generalizing s with
  | done r => exact himp r s h
  | step label e next ih =>
    refine ⟨h.1, fun x s hinv hpre hg => ?_⟩
    obtain ⟨hgu, hnx⟩ := h.2 x s hinv hpre hg
    exact ⟨hgu, ih x s hnx⟩

theorem sound_bind {f : α → Async σ ι l ε β} {Q : Except ε β → σ → Prop} :
    (t >>= f).Sound O Q s ↔ t.Sound O (SoundThen O f Q) s := by
  induction t generalizing s with
  | done r => cases r <;> exact Iff.rfl
  | step label e next ih =>
    refine and_congr_right fun _ => forall₂_congr fun x s => ?_
    exact forall₃_congr fun _ _ _ => and_congr_right fun _ => ih x s

theorem sound_await {label : l} {f : ι → σ → σ × Except ε α} :
    (await label f).Sound O Q s ↔ O.pre label s ∧ ∀ x s, O.inv s → O.pre label s →
      O.guard label x s → O.guarantee s (f x s).1 ∧ Q (f x s).2 (f x s).1 := Iff.rfl

theorem sound_recover {h : ε → Async σ ι l ε α} :
    (t.recover h).Sound O Q s ↔ t.Sound O (fun r s => match r with
      | .ok a => Q (.ok a) s
      | .error e => (h e).Sound O Q s) s := by
  induction t generalizing s with
  | done r => cases r <;> exact Iff.rfl
  | step label effect next ih =>
    refine and_congr_right fun _ => forall₂_congr fun x s => ?_
    exact forall₃_congr fun _ _ _ => and_congr_right fun _ => ih x s

/-- The steps of others do not disturb a task that follows the outline.  Only the assertion at its
next label is about the state; the end of a task is not disturbed if its postcondition is not. -/
theorem Sound.stable (h : t.Sound O (fun _ _ => True) s) (hinv : O.inv s)
    (hgu : O.guarantee s s') : t.Sound O (fun _ _ => True) s' := by
  cases t with
  | done r => trivial
  | step label e next => exact ⟨O.stable hinv hgu h.1, h.2⟩

/-! Often the assertions at the labels are not needed: then a task follows the outline from
wherever it starts. -/

variable (O) in
/-- The task follows the outline, from whatever state. -/
structure Obeys (t : Async σ ι l ε α) : Prop where
  sound : ∀ s, t.Sound O (fun _ _ => True) s

theorem obeys_done (r : Except ε α) : (done r : Async σ ι l ε α).Obeys O := ⟨fun _ => trivial⟩

theorem obeys_attempt (r : Except ε α) : (attempt r : Async σ ι l ε α).Obeys O := ⟨fun _ => trivial⟩

theorem obeys_pure (a : α) : (pure a : Async σ ι l ε α).Obeys O := ⟨fun _ => trivial⟩

theorem obeys_await {label : l} {f : ι → σ → σ × Except ε α} (hpre : ∀ s, O.pre label s)
    (h : ∀ x s, O.inv s → O.guard label x s → O.guarantee s (f x s).1) :
    (await label f).Obeys O :=
  ⟨fun s => ⟨hpre s, fun x s hinv _ hg => ⟨h x s hinv hg, trivial⟩⟩⟩

theorem Obeys.bind {f : α → Async σ ι l ε β} (ht : t.Obeys O)
    (hf : ∀ a, (f a).Obeys O) : (t >>= f).Obeys O := by
  constructor
  intro s
  refine sound_bind.mpr ((ht.sound s).imp ?_)
  rintro (e | a) s -
  · trivial
  · exact (hf a).sound s

theorem Obeys.recover {h : ε → Async σ ι l ε α} (ht : t.Obeys O)
    (hh : ∀ e, (h e).Obeys O) : (t.recover h).Obeys O := by
  constructor
  intro s
  refine sound_recover.mpr ((ht.sound s).imp ?_)
  rintro (e | a) s -
  · exact (hh e).sound s
  · trivial

theorem Obeys.ignore {t : Async σ ι l ε Unit} (ht : t.Obeys O) : t.ignore.Obeys O :=
  ht.recover fun _ => obeys_done _

theorem obeys_forEach {f : β → Async σ ι l ε Unit} (hf : ∀ b, (f b).Obeys O) (bs : List β) :
    (forEach bs f).Obeys O := by
  induction bs with
  | nil => exact obeys_done _
  | cons b bs ih => exact (hf b).bind fun _ => ih

end Async

/-! ## Tasks that take turns -/

/-- A shared state and the calls on it. -/
structure Pool (σ ι l ε α : Type) where
  shared : σ
  tasks : List (Async σ ι l ε α)

namespace Pool

variable {σ ι l ε α c : Type}

/-- A call begins, or the call with the given number is resumed with an answer. -/
inductive Action (c ι : Type)
  | call (call : c)
  | resume (i : Nat) (answer : ι)

/-- The label of the next step of a task. -/
def nextLabel (pool : Pool σ ι l ε α) (i : Nat) : Option l :=
  match pool.tasks[i]? with
  | some (.step label _ _) => some label
  | _ => none

variable (program : c → Async σ ι l ε α)

def act (pool : Pool σ ι l ε α) : Action c ι → Pool σ ι l ε α
  | .call call => { pool with tasks := pool.tasks ++ [program call] }
  | .resume i answer =>
    match pool.tasks[i]? with
    | some (.step _ effect next) =>
      ⟨effect answer pool.shared, pool.tasks.set i (next answer pool.shared)⟩
    | _ => pool

def run (pool : Pool σ ι l ε α) (actions : List (Action c ι)) : Pool σ ι l ε α :=
  actions.foldl (act program) pool

/-- The step that the action takes meets the condition. -/
def Guarded (O : Outline σ ι l) (pool : Pool σ ι l ε α) : Action c ι → Prop
  | .call _ => True
  | .resume i answer => ∀ label ∈ pool.nextLabel i, O.guard label answer pool.shared

/-- All steps of a run meet the condition. -/
def AllGuarded (O : Outline σ ι l) : Pool σ ι l ε α → List (Action c ι) → Prop
  | _, [] => True
  | pool, action :: rest => pool.Guarded O action ∧ (pool.act program action).AllGuarded O rest

/-- The labels of the steps that the actions take. -/
def labels : Pool σ ι l ε α → List (Action c ι) → List l
  | _, [] => []
  | pool, .call call :: rest => (pool.act program (.call call)).labels rest
  | pool, .resume i answer :: rest =>
    (pool.nextLabel i).toList ++ (pool.act program (.resume i answer)).labels rest

variable {program} {O : Outline σ ι l} {pool : Pool σ ι l ε α}

variable {as : List (Action c ι)}

/-- The invariant holds, and every task follows the outline. -/
structure Sound (O : Outline σ ι l) (pool : Pool σ ι l ε α) : Prop where
  inv : O.inv pool.shared
  tasks : ∀ task ∈ pool.tasks, task.Sound O (fun _ _ => True) pool.shared

/-- One action keeps a pool sound, and is a step of the guarantee or leaves the state alone. -/
theorem Sound.act (hpgm : ∀ call, (program call).Obeys O)
    (h : pool.Sound O) {a : Action c ι} (hgd : pool.Guarded O a) :
    (pool.act program a).Sound O ∧ ((pool.act program a).shared = pool.shared ∨
        O.guarantee pool.shared (pool.act program a).shared) := by
  cases a with
  | call call =>
    refine ⟨⟨h.inv, fun task htk => ?_⟩, .inl rfl⟩
    rcases List.mem_append.mp htk with htk | htk
    · exact h.tasks task htk
    · obtain rfl := List.mem_singleton.mp htk
      exact (hpgm call).sound pool.shared
  | resume i ans =>
    simp only [Pool.act]
    cases htk : pool.tasks[i]? with
    | none => exact ⟨h, .inl rfl⟩
    | some task =>
    cases task with
    | done r => exact ⟨h, .inl rfl⟩
    | step label e next =>
      have hmem := List.mem_of_getElem? htk
      have hlb : label ∈ pool.nextLabel i := by
        rw [nextLabel, htk]
        rfl
      have hso := h.tasks _ hmem
      obtain ⟨hgu, hnx⟩ := hso.2 ans pool.shared h.inv hso.1 (hgd label hlb)
      refine ⟨⟨O.inv_of_guarantee h.inv hgu, fun task htk => ?_⟩, .inr hgu⟩
      -- The task that stepped goes on, and the others are not disturbed.
      rcases List.mem_or_eq_of_mem_set htk with htk | rfl
      · exact (h.tasks task htk).stable h.inv hgu
      · exact hnx

/-- In every run whose steps meet their conditions the invariant holds at the end, and the run is a
sequence of steps of the guarantee. -/
theorem sound_run (hpgm : ∀ call, (program call).Obeys O)
    (h : pool.Sound O) (hgd : pool.AllGuarded program O as) :
    (pool.run program as).Sound O ∧
      Relation.ReflTransGen O.guarantee pool.shared (pool.run program as).shared := by
  induction as generalizing pool with
  | nil => exact ⟨h, .refl⟩
  | cons a rest ih =>
    obtain ⟨hso, hstp⟩ := h.act hpgm hgd.1
    obtain ⟨hend, hrs⟩ := ih hso hgd.2
    refine ⟨hend, ?_⟩
    rcases hstp with heq | hgu
    · rwa [heq] at hrs
    · exact .head hgu hrs

theorem run_append (pool : Pool σ ι l ε α) (as rest : List (Action c ι)) :
    pool.run program (as ++ rest) = (pool.run program as).run program rest :=
  List.foldl_append

theorem allGuarded_append {rest : List (Action c ι)} : pool.AllGuarded program O (as ++ rest) ↔
      pool.AllGuarded program O as ∧ (pool.run program as).AllGuarded program O rest := by
  induction as generalizing pool with
  | nil => exact ⟨fun h => ⟨trivial, h⟩, fun h => h.2⟩
  | cons a as ih =>
    rw [List.cons_append, AllGuarded, AllGuarded, ih, and_assoc]
    rfl

end Pool
