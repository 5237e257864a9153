import Orquesta.Library.Script

/-!
# Scripts among others

The operations of a script take turns with what others do to the same state.  `R` says what
the others may do between two of its operations, and `G` what one of its own may do.
`p.Guards R G s Q` says that `p`, begun in `s`, keeps to `G` and ends with `Q`, whatever the
others do along `R`.  If what each script may do is among what every other one expects, all of
them may run at once.

## Main definitions

* `Script.Guards`
* `Stable`: what the others keep

## Main results

* `Guards.rely`: the others may go on
* `Guards.bind`, `Guards.settle`, `guards_reads_bind`, `guards_act_bind`, `guards_check_bind`:
  one rule for each way to build a script
-/

namespace Script

variable {σ ε α β : Type} (R G : σ → σ → Prop)

/-- What the others keep. -/
def Stable (I : σ → Prop) : Prop := ∀ s t, I s → R s t → I t

/-- Whatever the others do along `R` before each operation, the operation keeps to `G`, and the end
satisfies `Q`. -/
def Guards : Script σ ε α → σ → (σ → Except ε α → Prop) → Prop
  | done r, s, Q => ∀ t, R s t → Q t r
  | op effect next, s, Q => ∀ t, R s t → G t (effect t) ∧ (next t).Guards (effect t) Q

variable {R G} {p : Script σ ε α} {s t : σ} {Q Q' : σ → Except ε α → Prop}

theorem Guards.imp (h : p.Guards R G s Q) (himp : ∀ t r, Q t r → Q' t r) : p.Guards R G s Q' := by
  induction p generalizing s with
  | done r => exact fun t hst => himp t r (h t hst)
  | op effect next ih =>
    intro t hst
    obtain ⟨hG, hnext⟩ := h t hst
    exact ⟨hG, ih t hnext⟩

theorem Guards.rely [IsTrans σ R] (h : p.Guards R G s Q) (hst : R s t) : p.Guards R G t Q := by
  cases p with
  | done r => exact fun u htu => h u (trans_of R hst htu)
  | op effect next => exact fun u htu => h u (trans_of R hst htu)

theorem guards_pure {a : α} (h : ∀ t, R s t → Q t (.ok a)) :
    (pure a : Script σ ε α).Guards R G s Q := h

theorem guards_fail {e : ε} (h : ∀ t, R s t → Q t (.error e)) :
    (fail e : Script σ ε α).Guards R G s Q := h

theorem Guards.settle {ε' : Type} (h : p.Guards R G s Q) :
    (p.settle : Script σ ε' (Except ε α)).Guards R G s fun t r => ∃ r', r = .ok r' ∧ Q t r' := by
  induction p generalizing s with
  | done r => exact fun t hst => ⟨r, rfl, h t hst⟩
  | op effect next ih =>
    intro t hst
    obtain ⟨hG, hnext⟩ := h t hst
    exact ⟨hG, ih t hnext⟩

theorem Stable.and {I J : σ → Prop} (hI : Stable R I) (hJ : Stable R J) :
    Stable R fun s => I s ∧ J s :=
  fun s t h hst => ⟨hI s t h.1 hst, hJ s t h.2 hst⟩

/-- What the others keep is also there after a script that leaves it alone. -/
theorem Guards.and {I : σ → Prop} (hI : Stable R I) (hG : Stable G I) (h : p.Guards R G s Q)
    (hs : I s) :
    p.Guards R G s fun t r => Q t r ∧ I t := by
  induction p generalizing s with
  | done r => exact fun t hst => ⟨h t hst, hI s t hs hst⟩
  | op effect next ih =>
    intro t hst
    obtain ⟨hop, hnext⟩ := h t hst
    exact ⟨hop, ih t hnext (hG t _ (hI s t hs hst) hop)⟩

/-- A script that only reads leaves what the others keep. -/
theorem ReadOnly.guards [Std.Refl G] {I : σ → Prop} (hI : Stable R I) (hp : p.ReadOnly) (hs : I s) :
    p.Guards R G s fun t _ => I t := by
  induction p generalizing s with
  | done r => exact fun t hst => hI s t hs hst
  | op effect next ih =>
    intro t hst
    rw [hp.1 t]
    exact ⟨refl_of G t, ih t (hp.2 t) (hI s t hs hst)⟩

section Bind

variable {f : α → Script σ ε β} {Q : σ → Except ε β → Prop}

theorem Guards.bind [Std.Refl R] {P : σ → Except ε α → Prop} (h : p.Guards R G s P)
    (hok : ∀ t a, P t (.ok a) → (f a).Guards R G t Q)
    (herror : ∀ t e, P t (.error e) → Q t (.error e)) :
    (p >>= f).Guards R G s Q := by
  induction p generalizing s with
  | done r =>
    cases r with
    | ok a => exact hok s a (h s (refl_of R s))
    | error e => exact fun t hst => herror t e (h t hst)
  | op effect next ih =>
    intro t hst
    obtain ⟨hG, hnext⟩ := h t hst
    exact ⟨hG, ih t hnext⟩

theorem guards_act_bind {g : σ → σ} {f : Unit → Script σ ε β}
    (h : ∀ t, R s t → G t (g t) ∧ (f ()).Guards R G (g t) Q) : (act g >>= f).Guards R G s Q := h

theorem guards_check_bind {c : Prop} [Decidable c] {e : ε} {f : Unit → Script σ ε β}
    (h : c → (f ()).Guards R G s Q) (he : ¬ c → ∀ t, R s t → Q t (.error e)) :
    (check c e >>= f).Guards R G s Q := by
  by_cases hc : c
  · rw [check, if_pos hc]
    exact h hc
  · rw [check, if_neg hc]
    exact he hc

variable [Std.Refl G]

theorem guards_reads_bind {g : σ → α} (h : ∀ t, R s t → (f (g t)).Guards R G t Q) :
    (reads g >>= f).Guards R G s Q := fun t hst => ⟨refl_of G t, h t hst⟩

end Bind

end Script
