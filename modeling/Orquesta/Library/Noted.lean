import Mathlib.Data.List.Lattice

/-!
# Computations that take notes

A validator that reports everything it finds wrong does not stop at the first
finding: it returns a value in any case, and with it the remarks it made.  Such a
computation is a `Noted`; it may also gather things on the way.

The question asked of it is whether it was silent, that is, made no remark.
Silence splits along `>>=` (`silent_bind`), so a validator is silent exactly when
each of its checks is.

## Main definitions

* `Noted ρ ε α`: a value with remarks `ρ` and gathered `ε`
* `Noted.Silent`: no remark was made
* `Noted.Quiet`: no remark was made, and this is the value

## Main results

* `silent_bind`: silence of a sequence
* `Takes.silent_bounded`, `Takes.quiet_foldlM`: what a silent loop has read
-/

/-- A value, the remarks made on the way to it, and what was gathered. -/
structure Noted (ρ ε α : Type) where
  value : α
  remarks : List ρ
  gathered : List ε

namespace Noted

open List

variable {ρ ε α β σ : Type}

instance : Monad (Noted ρ ε) where
  pure a := ⟨a, [], []⟩
  bind p f :=
    ⟨(f p.value).value, p.remarks ++ (f p.value).remarks, p.gathered ++ (f p.value).gathered⟩

/-- Make a remark. -/
def remark (r : ρ) : Noted ρ ε Unit := ⟨(), [r], []⟩

def gather (es : List ε) : Noted ρ ε Unit := ⟨(), [], es⟩

/-- Make a remark unless the condition holds; the value says whether it does. -/
def expect (c : Bool) (r : ρ) : Noted ρ ε Bool := if c then pure true else ⟨false, [r], []⟩

/-- No remark was made. -/
def Silent (p : Noted ρ ε α) : Prop := p.remarks = []

/-- No remark was made, and this is the value. -/
@[simp] abbrev Quiet (p : Noted ρ ε α) (a : α) : Prop := p.Silent ∧ p.value = a

@[simp] theorem silent_pure (a : α) : (pure a : Noted ρ ε α).Silent := rfl

@[simp] theorem value_pure (a : α) : (pure a : Noted ρ ε α).value = a := rfl

variable {p q : Noted ρ ε α}

@[simp] theorem silent_bind {f : α → Noted ρ ε β} :
    (p >>= f).Silent ↔ p.Silent ∧ (f p.value).Silent :=
  append_eq_nil_iff

@[simp] theorem value_bind {f : α → Noted ρ ε β} : (p >>= f).value = (f p.value).value := rfl

theorem Quiet.bind {a : α} {b : β} {f : α → Noted ρ ε β} (hp : Quiet p a) (hf : Quiet (f a) b) :
    Quiet (p >>= f) b := by
  obtain ⟨hsil, rfl⟩ := hp
  exact ⟨silent_bind.mpr ⟨hsil, hf.1⟩, hf.2⟩

@[simp] theorem not_silent_remark (r : ρ) : ¬ (remark r : Noted ρ ε Unit).Silent := cons_ne_nil _ _

@[simp] theorem silent_gather (es : List ε) : (gather es : Noted ρ ε Unit).Silent := rfl

@[simp] theorem silent_expect {c : Bool} {r : ρ} : (expect c r : Noted ρ ε Bool).Silent ↔ c := by
  cases c <;> simp [expect, Silent, pure]

@[simp] theorem value_expect {c : Bool} {r : ρ} : (expect c r : Noted ρ ε Bool).value = c := by
  cases c <;> rfl

@[simp] theorem silent_ite {c : Prop} [Decidable c] :
    (if c then p else q).Silent ↔ (c → p.Silent) ∧ (¬ c → q.Silent) := by
  split <;> simp [*]

/-- A check that makes a remark if it fails, and what is done if it does not. -/
theorem silent_unless {c : Bool} (hp : ¬ p.Silent) :
    (if !c then p else q).Silent ↔ c ∧ q.Silent := by
  cases c <;> simp [hp]

/-! ## Loops -/

variable {step : σ → α → Noted ρ ε σ}

@[simp] theorem silent_foldlM_cons {s : σ} {a : α} {as : List α} :
    ((a :: as).foldlM step s).Silent ↔ (step s a).Silent ∧
      (as.foldlM step (step s a).value).Silent := silent_bind

@[simp] theorem value_foldlM_cons {s : σ} {a : α} {as : List α} :
    ((a :: as).foldlM step s).value = (as.foldlM step (step s a).value).value := rfl

/-- A loop that carries no state is silent when every round is. -/
theorem silent_foldlM_unit {f : α → Noted ρ ε Unit} {as : List α} :
    (as.foldlM (fun _ a => f a) ()).Silent ↔ ∀ a ∈ as, (f a).Silent := by
  induction as with
  | nil => simp
  | cons a as ih => rw [silent_foldlM_cons, ih, forall_mem_cons]

/-- A state that takes in one thing after the other, each admissible when its turn comes. -/
def Admits (ok : σ → β → Prop) (push : σ → β → σ) : σ → List β → Prop
  | _, [] => True
  | s, b :: bs => ok s b ∧ Admits ok push (push s b) bs

/-- A round of a loop that reads one thing and takes it in. -/
structure Takes (step : σ → α → Noted ρ ε σ) (R : α → β → Prop) (ok : σ → β → Prop)
    (push : σ → β → σ) : Prop where
  reads : ∀ {s a}, (step s a).Silent → ∃ b, R a b ∧ ok s b
  quiet : ∀ {s a b}, R a b → ok s b → Quiet (step s a) (push s b)

namespace Takes

variable {R : α → β → Prop} {ok : σ → β → Prop} {push : σ → β → σ}

/-- What such a loop reads it has taken in. -/
theorem quiet_foldlM (h : Takes step R ok push) {s : σ} {as : List α} {bs : List β}
    (hbs : Forall₂ R as bs) (hads : Admits ok push s bs) :
    Quiet (as.foldlM step s) (bs.foldl push s) := by
  induction hbs generalizing s with
  | nil => exact ⟨rfl, rfl⟩
  | cons hR _ ih =>
    obtain ⟨hok, hrs⟩ := hads
    obtain ⟨hsil, hv⟩ := h.quiet hR hok
    rw [Quiet, silent_foldlM_cons, value_foldlM_cons, hv]
    exact ⟨⟨hsil, (ih hrs).1⟩, (ih hrs).2⟩

theorem reads_foldlM (h : Takes step R ok push) {s : σ} {as : List α}
    (hsil : (as.foldlM step s).Silent) : ∃ bs, Forall₂ R as bs ∧ Admits ok push s bs := by
  induction as generalizing s with
  | nil => exact ⟨[], .nil, trivial⟩
  | cons a as ih =>
    obtain ⟨hfst, hrs⟩ := silent_foldlM_cons.mp hsil
    obtain ⟨b, hR, hok⟩ := h.reads hfst
    rw [(h.quiet hR hok).2] at hrs
    obtain ⟨bs, hbs, hads⟩ := ih hrs
    exact ⟨b :: bs, .cons hR hbs, hok, hads⟩

/-- Such a loop, over a list that is not too long, is silent when everything can be read and is
admissible; what follows it sees the state that has taken everything in. -/
theorem silent_bounded {γ : Type} {n : Nat} {p : Noted ρ ε γ} (h : Takes step R ok push)
    (hp : ¬ p.Silent)
    {s : σ} {as : List α} {f : σ → Noted ρ ε γ} :
    (if n < as.length then p else as.foldlM step s >>= f).Silent ↔ as.length ≤ n ∧
      ∃ bs, Forall₂ R as bs ∧ Admits ok push s bs ∧ (f (bs.foldl push s)).Silent := by
  split_ifs with hlg
  · exact iff_of_false hp fun hsh => Nat.not_le.mpr hlg hsh.1
  · rw [silent_bind, and_iff_right (Nat.not_lt.mp hlg)]
    constructor
    · rintro ⟨hloop, hf⟩
      obtain ⟨bs, hbs, hads⟩ := h.reads_foldlM hloop
      exact ⟨bs, hbs, hads, (h.quiet_foldlM hbs hads).2 ▸ hf⟩
    · rintro ⟨bs, hbs, hads, hf⟩
      obtain ⟨hloop, hv⟩ := h.quiet_foldlM hbs hads
      exact ⟨hloop, hv ▸ hf⟩

end Takes

section Admits

variable {κ : Type} {push : σ → β → σ}

theorem admits_and {ok₁ ok₂ : σ → β → Prop} {s : σ} {bs : List β} :
    Admits (fun s b => ok₁ s b ∧ ok₂ s b) push s bs ↔ Admits ok₁ push s bs ∧
    Admits ok₂ push s bs := by
  induction bs generalizing s with
  | nil => simp [Admits]
  | cons b bs ih =>
    simp only [Admits, ih]
    tauto

variable (seen : σ → List κ)

/-- Each thing brings keys of its own, none of which was seen before. -/
theorem admits_keys (keys : β → List κ) (push : σ → β → σ)
    (hpush : ∀ s b, seen (push s b) = seen s ++ keys b) (s : σ)
    (bs : List β) :
    Admits (fun s b => ∀ k ∈ keys b, k ∉ seen s) push s bs ↔
      bs.Pairwise (fun b c => Disjoint (keys b) (keys c)) ∧ ∀ b ∈ bs, ∀ k ∈ keys b, k ∉ seen s := by
  induction bs generalizing s with
  | nil => simp [Admits]
  | cons b bs ih =>
    simp only [Admits, ih, hpush, pairwise_cons, forall_mem_cons, mem_append, not_or]
    constructor
    · rintro ⟨hb, hpair, hbs⟩
      exact ⟨⟨fun c hc k hkb hkc => (hbs c hc k hkc).2 hkb, hpair⟩, hb,
        fun c hc k hk => (hbs c hc k hk).1⟩
    · rintro ⟨⟨hdisj, hpair⟩, hb, hbs⟩
      exact ⟨hb, hpair, fun c hc k hk => ⟨hbs c hc k hk, fun hkb => hdisj c hc hkb hk⟩⟩

theorem admits_key (key : β → κ) (push : σ → β → σ)
    (hpush : ∀ s b, seen (push s b) = seen s ++ [key b]) (s : σ)
    (bs : List β) :
    Admits (fun s b => key b ∉ seen s) push s bs ↔ (bs.map key).Nodup ∧
    ∀ b ∈ bs, key b ∉ seen s := by
  have h := admits_keys seen (fun b => [key b]) push hpush s bs
  simp only [mem_singleton, forall_eq] at h
  rw [h, Nodup, pairwise_map]
  simp [List.Disjoint]

theorem admits_new {bs : List β} :
    Admits (fun (s : List β) b => b ∉ s) (fun s b => s ++ [b]) [] bs ↔ bs.Nodup := by
  have h := admits_key (fun s : List β => s) (fun b => b) (fun s b => s ++ [b])
    (fun _ _ => rfl) [] bs
  simpa using h

theorem seen_foldl (keys : β → List κ) (push : σ → β → σ)
    (hpush : ∀ s b, seen (push s b) = seen s ++ keys b)
    (s : σ) (bs : List β) : seen (bs.foldl push s) = seen s ++ bs.flatMap keys := by
  induction bs generalizing s with
  | nil => simp
  | cons b bs ih => rw [foldl_cons, ih, hpush, flatMap_cons, append_assoc]

end Admits

end Noted
