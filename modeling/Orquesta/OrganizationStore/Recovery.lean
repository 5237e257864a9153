import Orquesta.OrganizationStore.Commit

/-!
# Recovery

What `recover` does in each phase of a change.  A change that is being prepared is given
up, one that is prepared is finished, and otherwise nothing is done.

Giving up a change deletes its staged files, and only those that are complete: a file that
was cut off while it was written makes recovery fail, and every later recovery with it.
So the operations of the store can be interrupted anywhere except while a staged file is
being written.

## Main definitions

* `StagedRight`: what giving up a change asks of its staged files

## Main results

* `through_recover_preparing`, `through_recover_prepared`, `run_recover_atRest`
-/

namespace Orquesta.OrganizationStore

open Script Checked Prod Option

variable {B C : Type} {K : Kernel B C} {old : Option (Version B)} {new : Version B}
  {w₀ w : World} {A : Option (Version B) → Version B → Prop}

/-! ## Nothing to recover -/

theorem run_recover_atRest (hleg : w.files.legacyMarkers = false) (hrs : AtRest w.files) :
    (recover K).run w = (w,
      .ok (.noRecoveryRequired (w.files.transition.map fun _ => .committed))) := by
  rw [recover, run_bind, run_reads, andThen_ok, run_bind, run_check_pos hleg, andThen_ok, run_bind,
    run_readTransition, andThen_ok]
  cases htra : w.files.transition with
  | none => rfl
  | some t =>
    have hsts := hrs t htra
    simp only [hsts]
    rfl

/-! ## Giving up a preparation -/

variable (K) in
/-- Every staged file of the change is complete. -/
def StagedRight (new : Version B) (w : World) : Prop :=
  ∀ t, ∀ content ∈ w.files.staged new.id t, K.sha256 content = K.sha256 (new.content t)

theorem recoverable_of_preparing (hhl : Holds old w.files) (hsg : StagedRight K new w)
    (t : Target) : Recoverable.Target K new.id true w (record K old new t) := by
  refine ⟨.inl (targetHash_of_holds new hhl t), ?_, nofun⟩
  cases hfile : w.files.staged new.id t with
  | none => exact .inl (by simp [record, hfile])
  | some c => exact .inr (by simp [record, hfile, hsg t c hfile])

variable {t : Transition}

theorem run_assertRecoverable_of_preparing (hK : K.Lawful) (hnew : new.Succeeds K old)
    (ht : Records K old new t) (hhl : Holds old w.files)
    (hsg : StagedRight K new w) :
    ∃ r, (assertRecoverableTransitionState K t true).run w = (w, .ok r) := by
  refine ⟨_, run_assertRecoverableTransitionState ?_ (.inl ⟨?_, ?_⟩)⟩
  · rw [ht.targets, ht.commandId]
    intro r hr
    obtain ⟨n, -, rfl⟩ := List.mem_map.mp hr
    exact recoverable_of_preparing hhl hsg n
  · rw [ht.controllerBefore, hhl.controller]
  · rw [ht.controllerAfter]
    exact hnew.controllerHash_ne hK hhl.controller

/-- A check of a target that passes has seen no incomplete staged file. -/
theorem staged_of_assertRecoverableTargets {id : String} {preparingOnly : Bool}
    {rs : List TargetRecord} {states : List (TargetRecord × Bool)}
    (h : ((assertRecoverableTargets K id preparingOnly rs).run w).2 = .ok states) :
    ∀ r ∈ rs, ∀ c ∈ w.files.staged id r.name, K.sha256 c = r.sha256 := by
  induction rs generalizing states with
  | nil => exact nofun
  | cons r rs ih =>
    obtain ⟨isAfter, hr, hrest⟩ := run_bind_eq_ok.mp h
    rw [readOnly_assertRecoverableTarget.run_state] at hrest
    obtain ⟨states, hrs, -⟩ := run_bind_eq_ok.mp hrest
    refine List.forall_mem_cons.mpr ⟨fun c hct => ?_, ih hrs⟩
    -- The second of the three checks is the one about the staged file.
    obtain ⟨cur, hcur, hr⟩ := run_bind_eq_ok.mp hr
    obtain ⟨_, hfst, hr⟩ := run_bind_eq_ok.mp hr
    obtain ⟨staged, hsg, hr⟩ := run_bind_eq_ok.mp hr
    obtain ⟨_, hck, -⟩ := run_bind_eq_ok.mp hr
    rw [run_check_eq_ok] at hck
    rw [(readOnly_check _ _).run_state] at hsg
    have hsm : staged = some (K.sha256 c) :=
      (Except.ok.inj hsg).symm.trans (congrArg (Option.map K.sha256) hct)
    subst hsm
    by_contra hne
    exact hck ⟨nofun, fun heq => hne (Option.some.inj heq)⟩

theorem stagedRight_of_assertRecoverable (ht : Records K old new t) {preparingOnly : Bool}
    {r : Recoverable}
    (h : ((assertRecoverableTransitionState K t preparingOnly).run w).2 = .ok r) :
    StagedRight K new w := by
  obtain ⟨states, hstates, -⟩ := run_bind_eq_ok.mp h
  rw [ht.targets, ht.commandId] at hstates
  intro n
  exact staged_of_assertRecoverableTargets hstates (record K old new n)
    (List.mem_map_of_mem (mem_TARGET_NAMES n))

/-- The loop that deletes the staged files finds them complete. -/
theorem through_abandonTargets {ts : List Target} (hsg : ∀ t ∈ ts, ∀ c ∈ w.files.staged new.id t,
      K.sha256 c = K.sha256 (new.content t))
    (h : Along K new.id w₀ (.preparing old new) w) :
    (forEach (ts.map (record K old new)) (abandonTarget K new.id)).Through (Phase.Reaches A)
      (Along K new.id w₀) (.preparing old new) w fun ph _ r =>
        r = .ok () ∧ ph = .preparing old new := by
  induction ts generalizing w with
  | nil => exact ⟨h, rfl, rfl⟩
  | cons t ts ih =>
    obtain ⟨ht, hts⟩ := List.forall_mem_cons.mp hsg
    refine through_bind.mpr (through_reads_bind ?_)
    cases hfile : w.files.staged new.id t with
    | none =>
      rw [record, hfile, isSome_none, if_neg Bool.false_ne_true]
      exact through_pure h (ih hts h)
    | some c =>
      rw [record, hfile, isSome_some, if_pos rfl]
      refine through_reads_bind (through_check_bind ?_ (through_act h .refl (h.stage t none) ?_))
      · rw [hfile, ← ht c hfile]
        rfl
      · refine ih (fun t' ht' c' hct' => ?_) (h.stage t none)
        -- A file that is still there was there before.
        by_cases heq : t' = t
        · subst heq
          simp at hct'
        · exact hts t' ht' c' (staged_setStaged_of_ne heq none w.files ▸ hct')

/-- A change that is being prepared is given up if its record is valid and its staged files
are complete; otherwise recovery fails and changes nothing. -/
theorem through_abandonPreparation (hK : K.Lawful) (hnew : new.Succeeds K old) {i : Nat}
    (ht : t = proposal K old new (w.clock i))
    (h : Along K new.id w₀ (.preparing old new) w) :
    (abandonPreparation K t).Through (Phase.Reaches A) (Along K new.id w₀) (.preparing old new) w
      fun ph _ r =>
        (validateTransition K t = .ok () ∧ StagedRight K new w) ∧ ph = .settled old none ∧
          r = .ok () ∨
          ¬ (validateTransition K t = .ok () ∧ StagedRight K new w) ∧ ∃ e, r = .error e := by
  subst ht
  have hrcs := records_proposal K old new (w.clock i)
  have hhl := h.phase.1
  cases hval : validateTransition K (proposal K old new (w.clock i)) with
  | error e => exact through_attempt_bind_error hval h (.inr ⟨fun hall => (nomatch hall.1), e, rfl⟩)
  | ok u =>
    refine through_attempt_bind hval ?_
    by_cases hsg : StagedRight K new w
    · obtain ⟨r, hrun⟩ := run_assertRecoverable_of_preparing hK hnew hrcs hhl hsg
      refine (readOnly_assertRecoverableTransitionState _).through_bind (congrArg snd hrun) ?_
      refine (through_abandonTargets (fun t _ => hsg t) h).bind ?_
      rintro ph w' r hw' ⟨rfl, rfl⟩
      have hset : Along K new.id w₀ (.settled old none)
          { w' with files := { w'.files with transition := none } } :=
        ⟨{ hw'.later with }, ⟨hw'.phase.1.target, hw'.phase.1.controller⟩, rfl, nofun⟩
      exact ⟨hw', _, .single (.abandon old new), hset, .inl ⟨⟨rfl, hsg⟩, rfl, rfl⟩⟩
    · cases hrun : ((assertRecoverableTransitionState K (proposal K old new (w.clock i)) true).run
          w).2 with
      | ok r => exact absurd (stagedRight_of_assertRecoverable hrcs hrun) hsg
      | error e =>
        exact (readOnly_assertRecoverableTransitionState _).through_bind_error hrun h
          (.inr ⟨fun hall => hsg hall.2, e, rfl⟩)

/-! ## Recovery in the phases of a change -/

section Begin

variable {κ : Type} {R : κ → κ → Prop} [Std.Refl R] {G : κ → World → Prop} {k : κ}
  {Q : κ → World → Except Failure (Recovered B) → Prop}

/-- Recovery begins by reading the record. -/
theorem through_recover (hleg : w.files.legacyMarkers = false)
    (h : (match w.files.transition with
      | none => (return .noRecoveryRequired none : Op (Recovered B))
      | some t => match t.status with
        | .preparing => (do
          abandonPreparation K t
          return .preparationAbandoned)
        | .prepared => (do return .commitFinalized (← rollForwardPrepared K t))
        | .committed => return .noRecoveryRequired (some .committed)).Through R G k w Q) :
    (recover K).Through R G k w Q := by
  refine through_reads_bind (through_check_bind hleg ?_)
  exact readOnly_readTransition.through_bind (congrArg snd run_readTransition) h

/-- At rest it ends there. -/
theorem through_recover_atRest (hleg : w.files.legacyMarkers = false) (hrs : AtRest w.files)
    (hw : G k w) (hQ : ∀ res, Q k w (.ok res)) : (recover K).Through R G k w Q := by
  refine through_recover hleg ?_
  cases ht : w.files.transition with
  | none => exact through_pure hw (hQ _)
  | some t =>
    simp only [hrs t ht]
    exact through_pure hw (hQ _)

end Begin

theorem through_recover_preparing (hK : K.Lawful) (hnew : new.Succeeds K old)
    (hleg : w.files.legacyMarkers = false) {i : Nat}
    (ht : w.files.transition = some (proposal K old new (w.clock i)))
    (h : Along K new.id w₀ (.preparing old new) w) :
    (recover K).Through (Phase.Reaches A) (Along K new.id w₀) (.preparing old new) w fun ph _ r =>
        (validateTransition K (proposal K old new (w.clock i)) = .ok () ∧ StagedRight K new w) ∧
            ph = .settled old none ∧ (∃ res, r = .ok res) ∨
          ¬ (validateTransition K (proposal K old new (w.clock i)) = .ok () ∧
            StagedRight K new w) ∧ ∃ e, r = .error e := by
  refine through_recover hleg ?_
  rw [ht]
  refine (through_abandonPreparation hK hnew rfl h).bind ?_
  rintro ph w' r hw' (⟨hcnd, rfl, rfl⟩ | ⟨hcnd, e, rfl⟩)
  · exact ⟨hw', .inl ⟨hcnd, rfl, _, rfl⟩⟩
  · exact .inr ⟨hcnd, e, rfl⟩

theorem through_recover_prepared (hK : K.Lawful) (hnew : new.Succeeds K old)
    (hleg : w.files.legacyMarkers = false) {i j : Nat} (hij : i ≤ j) (hj : j < w.ticks)
    (ht : t = (proposal K old new (w.clock i)).staged (w.clock j))
    (hrec : w.files.transition = some t) (h : Along K new.id w₀ (.prepared old new) w) :
    (recover K).Through (Phase.Reaches A) (Along K new.id w₀) (.prepared old new) w fun ph w' r =>
        validateTransition K t = .ok () ∧ ph = .finished old new ∧
            w'.files.transition = some (t.commit (w.clock w.ticks)) ∧ (∃ res, r = .ok res) ∨
          validateTransition K t ≠ .ok () ∧ ∃ e, r = .error e := by
  have hsts : t.status = .prepared := by
    rw [ht]
    rfl
  refine through_recover hleg ?_
  simp only [hrec, hsts]
  cases hval : validateTransition K t with
  | ok u =>
    refine (through_rollForwardPrepared hK hnew hij hj ht hval h).bind ?_
    rintro ph w' r hw' ⟨rfl, -, hfnd, rfl⟩
    exact ⟨hw', .inl ⟨rfl, rfl, hfnd, _, rfl⟩⟩
  | error e =>
    exact through_bind.mpr (through_attempt_bind_error hval h (.inr ⟨nofun, e, rfl⟩))

end Orquesta.OrganizationStore
