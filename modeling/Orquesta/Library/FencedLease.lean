import Mathlib.Data.List.Induction

/-!
# Fenced leases

The life of one job that competing workers claim, send, renew, requeue and
settle.  A claim issues the next token and a lease with an expiry; every later
action of a worker names its token.  While the lease runs its holder may send,
renew and settle; once it has expired the job may be requeued, or, if it was
being sent, declared ambiguous.

A run is a list of actions that the rules admit from the idle state.  The
theorems speak about every position of a run: what came before an action decides
which token it may carry and on which side of the expiry it may happen.

## Main definitions

* `FencedLease.Action`, `FencedLease.State`, `FencedLease.Step`, `FencedLease.Run`
* `claims`, `inForce`: the tokens issued by a list of actions, and the lease it leaves running

## Main results

* `Run.issued_eq`, `Run.generations`: tokens are issued with generations 1, 2, 3, …
* `Run.fenced`: an action carries the newest token, and that token was not requeued
* `Run.before_expiry`, `Run.after_expiry`: on which side of the expiry an action happens
* `Run.countP_send_le_one`: a job is sent at most once
* `Run.not_send_and_requeue`: a token that was sent is never requeued
-/

namespace FencedLease

open List Prod Option

variable {τ : Type}

inductive Phase
  | idle | held | sending | ambiguous | closed

/-- What a worker, or the control plane, does to a job.  A settlement without a token is the
reconciliation of an ambiguous send. -/
inductive Action (τ : Type)
  | claim (token : τ) (time expiry : Int)
  | send (token : τ) (time : Int)
  | renew (token : τ) (time expiry : Int)
  | requeue (token : τ) (time : Int)
  | expire (token : Option τ) (time : Int)
  | settle (token : Option τ) (time : Int)
  | cancel

/-- The token an action presents; a claim presents none, it issues one. -/
def Action.presents : Action τ → Option τ
  | send t _ | renew t _ _ | requeue t _ => some t
  | expire t _ | settle t _ => t
  | claim _ _ _ | cancel => none

def Action.issues : Action τ → Option τ
  | claim t _ _ => some t
  | _ => none

def Action.isSend : Action τ → Bool
  | send _ _ => true
  | _ => false

structure State (τ : Type) where
  phase : Phase
  lease : Option (τ × Int)
  issued : List τ

def State.initial : State τ := ⟨.idle, none, []⟩

variable (gen : τ → Nat)

/-- The rules. -/
inductive Step : State τ → Action τ → State τ → Prop
  | claim {s : State τ} {t : τ} {time expiry : Int} (idle : s.phase = .idle)
      (next : gen t = s.issued.length + 1) :
      Step s (.claim t time expiry) ⟨.held, some (t, expiry), s.issued ++ [t]⟩
  | send {s : State τ} {t : τ} {time expiry : Int} (held : s.phase = .held)
      (lease : s.lease = some (t, expiry)) (live : time < expiry) :
      Step s (.send t time) { s with phase := .sending }
  | renew {s : State τ} {t : τ} {time expiry expiry' : Int}
      (active : s.phase = .held ∨ s.phase = .sending) (lease : s.lease = some (t, expiry))
      (live : time < expiry) :
      Step s (.renew t time expiry') { s with lease := some (t, expiry') }
  | requeue {s : State τ} {t : τ} {time expiry : Int} (held : s.phase = .held)
      (lease : s.lease = some (t, expiry)) (expired : expiry ≤ time) :
      Step s (.requeue t time) { s with phase := .idle, lease := none }
  | expire {s : State τ} {t : τ} {token : Option τ} {time expiry : Int}
      (sending : s.phase = .sending) (lease : s.lease = some (t, expiry)) (expired : expiry ≤ time)
      (same : ∀ t' ∈ token, t' = t) :
      Step s (.expire token time) { s with phase := .ambiguous, lease := none }
  | settle {s : State τ} {t : τ} {time expiry : Int} {phase : Phase}
      (active : s.phase = .held ∨ s.phase = .sending) (lease : s.lease = some (t, expiry))
      (live : time < expiry) (settled : phase = .ambiguous ∨ phase = .closed) :
      Step s (.settle (some t) time) { s with phase, lease := none }
  | reconcile {s : State τ} {time : Int} (ambiguous : s.phase = .ambiguous) :
      Step s (.settle none time) { s with phase := .closed, lease := none }
  | cancel {s : State τ} (unsent : s.phase = .idle ∨ s.phase = .held) :
      Step s .cancel { s with phase := .closed, lease := none }

/-- The runs from the idle state, newest action last. -/
inductive Run : List (Action τ) → State τ → Prop
  | nil : Run [] .initial
  | snoc {as : List (Action τ)} {a : Action τ} {s s' : State τ} :
      Run as s → Step gen s a s' → Run (as ++ [a]) s'

/-- The tokens issued, in order. -/
def claims (as : List (Action τ)) : List τ := as.filterMap Action.issues

/-- The lease an action leaves running, given the one before it. -/
def Action.leaves (lease : Option (τ × Int)) : Action τ → Option (τ × Int)
  | claim t _ expiry | renew t _ expiry => some (t, expiry)
  | send _ _ => lease
  | requeue _ _ | expire _ _ | settle _ _ | cancel => none

/-- The lease in force after a list of actions. -/
def inForce (as : List (Action τ)) : Option (τ × Int) := as.foldl Action.leaves none

theorem claims_snoc (as : List (Action τ)) (a : Action τ) :
    claims (as ++ [a]) = claims as ++ a.issues.toList := by
  cases h : a.issues <;> simp [claims, h]

theorem inForce_snoc (as : List (Action τ)) (a : Action τ) :
    inForce (as ++ [a]) = a.leaves (inForce as) := by
  simp [inForce]

namespace Step

variable {gen} {s s' : State τ} {a : Action τ}

/-- A step issues the token of its action and no other. -/
theorem issued_eq (h : Step gen s a s') : s'.issued = s.issued ++ a.issues.toList := by
  cases h <;> simp [Action.issues]

theorem lease_eq (h : Step gen s a s') : s'.lease = a.leaves s.lease := by
  cases h <;> simp_all [Action.leaves]

/-- A presented token is that of the lease in force. -/
theorem presents_eq (h : Step gen s a s') {t : τ} (ht : a.presents = some t) :
    ∃ expiry, s.lease = some (t, expiry) := by
  cases h <;> simp_all [Action.presents]

end Step

/-- What holds along every run. -/
structure Inv (as : List (Action τ)) (s : State τ) : Prop where
  issued : s.issued = claims as
  lease : s.lease = inForce as
  generations : s.issued.map gen = range' 1 s.issued.length
  newest : ∀ t expiry, s.lease = some (t, expiry) → s.issued.getLast? = some t
  requeued : ∀ t time, Action.requeue t time ∈ as → t ∈ s.issued
  unrequeued : ∀ t expiry, s.lease = some (t, expiry) → ∀ time, Action.requeue t time ∉ as
  sends : as.countP Action.isSend = 0 ∨
    as.countP Action.isSend = 1 ∧ s.phase ≠ .idle ∧ s.phase ≠ .held
  apart : ∀ t time time', Action.send t time ∈ as → Action.requeue t time' ∉ as

namespace Inv

variable {gen} {as : List (Action τ)} {s s' : State τ} {a : Action τ}

/-- The next token is new: the generations of the issued ones are smaller. -/
theorem fresh (hi : Inv gen as s) {t : τ} (next : gen t = s.issued.length + 1) : t ∉ s.issued := by
  intro hmem
  have hgen : gen t ∈ range' 1 s.issued.length := by
    rw [← hi.generations]
    exact mem_map_of_mem hmem
  rw [mem_range'_1] at hgen
  omega

/-- Before a job is sent there is no send among its actions. -/
theorem not_mem_send (hi : Inv gen as s) (hp : s.phase = .idle ∨ s.phase = .held) (t : τ)
    (time : Int) : Action.send t time ∉ as := by
  intro hmem
  have hpos : 0 < as.countP Action.isSend := countP_pos_iff.mpr ⟨_, hmem, rfl⟩
  rcases hi.sends with h | ⟨-, hidle, hhe⟩
  · omega
  · exact hp.elim hidle hhe

section

variable (hi : Inv gen as s) (h : Step gen s a s')
include hi h

theorem generations_snoc : s'.issued.map gen = range' 1 s'.issued.length := by
  have hg := hi.generations
  cases h
  case claim t _ _ _ next =>
    simp only [map_append, hg, map_cons, map_nil, next, length_append, length_cons, length_nil,
      Nat.zero_add]
    rw [range'_concat]
    simp [Nat.add_comm]
  all_goals exact hg

theorem newest_snoc (t : τ) (expiry : Int) (hl : s'.lease = some (t, expiry)) :
    s'.issued.getLast? = some t := by
  cases h
  case claim => simp_all
  case send lease live => exact hi.newest t expiry hl
  case renew _ lease live =>
    simp only [some.injEq, mk.injEq] at hl
    exact hl.1 ▸ hi.newest _ _ lease
  all_goals simp at hl

theorem requeued_snoc (t : τ) (time : Int) (hm : Action.requeue t time ∈ as ++ [a]) :
    t ∈ s'.issued := by
  have hold : Action.requeue t time ∈ as → t ∈ s'.issued := fun hm => by
    rw [h.issued_eq]
    exact mem_append_left _ (hi.requeued t time hm)
  rcases mem_append.mp hm with hm | hm
  · exact hold hm
  · obtain rfl : Action.requeue t time = a := by simpa using hm
    cases h
    case requeue lease _ => exact mem_of_getLast? (hi.newest _ _ lease)

theorem unrequeued_snoc (t : τ) (expiry : Int) (hl : s'.lease = some (t, expiry)) (time : Int) :
    Action.requeue t time ∉ as ++ [a] := by
  have hold : Action.requeue t time ∉ as := by
    cases h
    case claim next =>
      simp only [some.injEq, mk.injEq] at hl
      exact fun hm => hi.fresh next (hl.1 ▸ hi.requeued t time hm)
    case send => exact hi.unrequeued t expiry hl time
    case renew _ lease live =>
      simp only [some.injEq, mk.injEq] at hl
      exact hl.1 ▸ hi.unrequeued _ _ lease time
    all_goals simp at hl
  rw [mem_append, not_or]
  refine ⟨hold, fun hm => ?_⟩
  obtain rfl : Action.requeue t time = a := by simpa using hm
  cases h
  simp at hl

theorem sends_snoc : (as ++ [a]).countP Action.isSend = 0 ∨
      (as ++ [a]).countP Action.isSend = 1 ∧ s'.phase ≠ .idle ∧ s'.phase ≠ .held := by
  have hs := hi.sends
  rw [countP_append]
  generalize as.countP Action.isSend = n at hs ⊢
  cases h with
  | settle active lease live settled =>
    rcases hs with rfl | ⟨rfl, -⟩ <;> rcases settled with rfl | rfl <;> simp [Action.isSend]
  | cancel unsent => rcases hs with rfl | ⟨rfl, -⟩ <;> simp [Action.isSend]
  | _ => simp_all [Action.isSend]

theorem apart_snoc (t : τ) (time time' : Int) (hs : Action.send t time ∈ as ++ [a]) :
    Action.requeue t time' ∉ as ++ [a] := by
  intro hr
  simp only [mem_append, mem_singleton] at hs hr
  rcases hs with hs | rfl <;> rcases hr with hr | hr
  · exact hi.apart t time time' hs hr
  · -- a job that is requeued was never sent
    subst hr
    cases h with
    | requeue held _ _ => exact hi.not_mem_send (Or.inr held) t time hs
  · -- a token that is sent under its lease was not requeued before
    cases h with
    | send _ lease _ => exact hi.unrequeued t _ lease time' hr
  · cases hr

theorem snoc : Inv gen (as ++ [a]) s' where
  issued := by rw [h.issued_eq, hi.issued, claims_snoc]
  lease := by rw [h.lease_eq, hi.lease, inForce_snoc]
  generations := hi.generations_snoc h
  newest := hi.newest_snoc h
  requeued := hi.requeued_snoc h
  unrequeued := hi.unrequeued_snoc h
  sends := hi.sends_snoc h
  apart := hi.apart_snoc h

end

end Inv

namespace Run

variable {gen} {as pre post : List (Action τ)} {s : State τ} {a : Action τ} {t : τ}

theorem inv (h : Run gen as s) : Inv gen as s := by
  induction h with
  | nil => constructor <;> simp [State.initial, claims, inForce]
  | snoc _ step ih => exact ih.snoc step

theorem of_snoc (h : Run gen (as ++ [a]) s) : ∃ t, Run gen as t ∧ Step gen t a s := by
  generalize hl : as ++ [a] = l at h
  cases h with
  | nil => simp at hl
  | snoc run step =>
    obtain ⟨rfl, ha⟩ := append_inj' hl rfl
    obtain rfl := singleton_inj.mp ha
    exact ⟨_, run, step⟩

section

variable (h : Run gen (pre ++ a :: post) s)
include h

/-- Every action of a run is a step from the state its predecessors lead to. -/
theorem split : ∃ t t', Run gen pre t ∧ Step gen t a t' := by
  -- induction on the actions after `a`, newest first
  induction post using reverseRecOn generalizing s with
  | nil =>
    obtain ⟨t, run, step⟩ := of_snoc h
    exact ⟨t, s, run, step⟩
  | append_singleton post b ih =>
    rw [← cons_append, ← append_assoc] at h
    obtain ⟨t, run, -⟩ := of_snoc h
    exact ih run

omit h in
theorem issued_eq (h : Run gen as s) : s.issued = claims as := h.inv.issued

omit h in
/-- **Generations.**  Tokens are issued with generations 1, 2, 3, … in order. -/
theorem generations (h : Run gen as s) : (claims as).map gen = range' 1 (claims as).length := by
  rw [← h.issued_eq]
  exact h.inv.generations

/-- **Fencing.**  A token is presented only while it is the newest one and was not requeued. -/
theorem fenced (ht : a.presents = some t) :
    (claims pre).getLast? = some t ∧ ∀ time, Action.requeue t time ∉ pre := by
  obtain ⟨s₁, s₂, run, step⟩ := h.split
  obtain ⟨expiry, hl⟩ := step.presents_eq ht
  exact ⟨run.issued_eq ▸ run.inv.newest t expiry hl, run.inv.unrequeued t expiry hl⟩

/-- The actions of a lease holder happen strictly before the expiry in force. -/
theorem before_expiry {time : Int}
    (ha : a = .send t time ∨ (∃ expiry, a = .renew t time expiry) ∨ a = .settle (some t) time) :
    ∃ expiry, inForce pre = some (t, expiry) ∧ time < expiry := by
  obtain ⟨s₁, s₂, run, step⟩ := h.split
  rw [← run.inv.lease]
  rcases ha with rfl | ⟨expiry, rfl⟩ | rfl
  · cases step with | send _ lease live => exact ⟨_, lease, live⟩
  · cases step with | renew _ lease live => exact ⟨_, lease, live⟩
  · cases step with | settle _ lease live _ => exact ⟨_, lease, live⟩

/-- A lease is ended from outside at or after the expiry in force. -/
theorem after_expiry {time : Int}
    (ha : (∃ t, a = .requeue t time) ∨ ∃ token, a = .expire token time) :
    ∃ t expiry, inForce pre = some (t, expiry) ∧ expiry ≤ time := by
  obtain ⟨s₁, s₂, run, step⟩ := h.split
  rw [← run.inv.lease]
  rcases ha with ⟨t, rfl⟩ | ⟨token, rfl⟩
  · cases step with | requeue _ lease expired => exact ⟨_, _, lease, expired⟩
  · cases step with | expire _ lease expired _ => exact ⟨_, _, lease, expired⟩

end

/-- **A job is sent at most once.** -/
theorem countP_send_le_one (h : Run gen as s) : as.countP Action.isSend ≤ 1 := by
  rcases h.inv.sends with h | ⟨h, -, -⟩ <;> omega

/-- **A token that was sent is never requeued.** -/
theorem not_send_and_requeue (h : Run gen as s) {time time' : Int}
    (hs : Action.send t time ∈ as) : Action.requeue t time' ∉ as :=
  h.inv.apart t time time' hs

end Run

end FencedLease
