import Orquesta.OrganizationStore.Phases

/-!
# Preparing a change and rolling it forward

What `prepareTransition` and `rollForwardPrepared` do, phase by phase.  Each result is
one run of the script: which phases it passes through, so that a crash finds the store in
one of them, and where it ends.

Rolling forward starts from any state of a prepared change, not only from the one in which
preparing it ends.  So the same result serves the commit that has just prepared the change
and the recovery that finds it half moved.

## Main results

* `through_prepareTransition`: a change is prepared unless a file is staged already
* `through_rollForwardPrepared`: a prepared change with a valid record is finished
* `through_writeChange`: both together
-/

namespace Orquesta.OrganizationStore

open Script Checked List Function

variable {B C : Type} {K : Kernel B C} {old : Option (Version B)} {new : Version B}
  {id : String} {w₀ w : World} {ph : Phase B} {α : Type}
  {A : Option (Version B) → Version B → Prop}

/-! ## Single operations -/

variable {Q : Phase B → World → Except Failure α → Prop}

/-- Reading the clock. -/
theorem through_now_bind {f : String → Op α} (hw : Along K id w₀ ph w)
    (h : (f (w.clock w.ticks)).Through (Phase.Reaches A) (Along K id w₀) ph w.tick Q) :
    (now >>= f).Through (Phase.Reaches A) (Along K id w₀) ph w Q := by
  refine through_bind.mpr (through_reads_bind (through_act_bind hw .refl ?_))
  exact through_pure hw.tick h

@[simp] theorem staged_setStaged (id : String) (t : Target) (c : Option Bytes) (files : Files) :
    (setStaged id t c files).staged id t = c := by
  simp [setStaged]

theorem staged_setStaged_of_ne {t t' : Target} (h : t' ≠ t) (c : Option Bytes) (files : Files) :
    (setStaged id t c files).staged id t' = files.staged id t' := by
  simp [setStaged, h]

theorem staged_setStaged_of_id_ne {id' : String} (h : id' ≠ id) (t : Target) (c : Option Bytes)
    (files : Files) : (setStaged id t c files).staged id' = files.staged id' := by
  simp [setStaged, h]

@[simp] theorem setStaged_setStaged (id : String) (t : Target) (c d : Option Bytes)
    (files : Files) : setStaged id t c (setStaged id t d files) = setStaged id t c files := by
  simp [setStaged]

/-- While a change is being prepared its staged files may hold anything. -/
theorem Along.stage (h : Along K new.id w₀ (.preparing old new) w) (t : Target) (c : Option Bytes) :
    Along K new.id w₀ (.preparing old new) { w with files := setStaged new.id t c w.files } where
  later := { h.later with
      staged := fun id' hid => (staged_setStaged_of_id_ne hid t c w.files).trans
        (h.later.staged id' hid) }
  phase := ⟨⟨h.phase.1.target, h.phase.1.controller⟩, h.phase.2⟩

/-! ## Preparing -/

theorem through_writeStaged (h : Along K new.id w₀ (.preparing old new) w) (t : Target)
    (c : Bytes) :
    (writeStaged new.id t c).Through (Phase.Reaches A) (Along K new.id w₀) (.preparing old new) w
      fun ph w' r => r = .ok () ∧ ph = .preparing old new ∧
        w' = { w with files := setStaged new.id t (some c) w.files } := by
  refine through_act_bind h .refl ?_
  -- The loop has written `before`, and what is left completes it to the content.
  let I : List UInt8 → Phase B → World → Prop := fun rest ph w' =>
    ph = .preparing old new ∧ ∃ pre, pre ++ rest = c ∧
      w' = { w with files := setStaged new.id t (some pre) w.files }
  refine (through_forEach I ?_ ?_ ⟨rfl, [], rfl, rfl⟩).imp ?_
  · rintro rest ph w' ⟨rfl, pre, -, rfl⟩
    exact h.stage t _
  · rintro byte rest ph w' ⟨rfl, pre, hbf, rfl⟩
    refine through_act (h.stage t _) .refl ?_ ⟨rfl, rfl, pre ++ [byte], ?_, ?_⟩
    · exact (h.stage t _).stage t _
    · rw [append_assoc]
      exact hbf
    · simp
  · rintro ph w' r - ⟨rfl, rfl, pre, hbf, rfl⟩
    rw [append_nil] at hbf
    exact ⟨rfl, rfl, by rw [hbf]⟩

theorem through_stageTarget (h : Along K new.id w₀ (.preparing old new) w) (t : Target) :
    (stageTarget K new.bundle new.id t).Through (Phase.Reaches A) (Along K new.id w₀)
      (.preparing old new) w fun ph w' r => ph = .preparing old new ∧
        (w.files.staged new.id t = none ∧ r = .ok () ∧
            w' = { w with files := setStaged new.id t (some (K.bytes t new.bundle)) w.files } ∨
          w.files.staged new.id t ≠ none ∧ ∃ e, r = .error e) := by
  refine through_reads_bind ?_
  by_cases hsg : w.files.staged new.id t = none
  · refine through_check_bind (by rw [hsg]; rfl) ((through_writeStaged h t _).imp ?_)
    rintro ph w' r - ⟨rfl, rfl, rfl⟩
    exact ⟨rfl, .inl ⟨hsg, rfl, rfl⟩⟩
  · refine through_check_bind_error ?_ h ⟨rfl, .inr ⟨hsg, _, rfl⟩⟩
    simpa using hsg

theorem through_stageTargets {ts : List Target} (hts : ts.Nodup)
    (h : Along K new.id w₀ (.preparing old new) w) :
    (forEach ts (stageTarget K new.bundle new.id)).Through (Phase.Reaches A) (Along K new.id w₀)
      (.preparing old new) w fun ph w' r => ph = .preparing old new ∧
        ((∀ t ∈ ts, w.files.staged new.id t = none) ∧ r = .ok () ∧
            (∃ staged, w' = { w with files := { w.files with staged := staged } }) ∧
            (∀ t ∈ ts, w'.files.staged new.id t = some (K.bytes t new.bundle)) ∧
            (∀ t ∉ ts, w'.files.staged new.id t = w.files.staged new.id t) ∨
          (∃ t ∈ ts, w.files.staged new.id t ≠ none) ∧ ∃ e, r = .error e) := by
  induction ts generalizing w with
  | nil =>
    refine ⟨h, rfl, .inl ⟨by simp, rfl, ⟨w.files.staged, rfl⟩, by simp, by simp⟩⟩
  | cons t ts ih =>
    obtain ⟨ht, hts⟩ := nodup_cons.mp hts
    refine through_bind.mpr ((through_stageTarget h t).imp ?_)
    rintro ph w₁ r - ⟨rfl, ⟨hno, rfl, rfl⟩ | ⟨hsm, e, rfl⟩⟩
    · -- The other targets see the staged files they saw before.
      have hoth : ∀ t' ∈ ts, (setStaged new.id t (some (K.bytes t new.bundle)) w.files).staged
          new.id t' = w.files.staged new.id t' := by
        intro t' ht'
        have hne : t' ≠ t := fun heq => ht (heq ▸ ht')
        exact staged_setStaged_of_ne hne _ _
      refine (ih hts (h.stage t _)).imp ?_
      rintro ph w' r - ⟨rfl, ⟨hnones, rfl, ⟨staged, rfl⟩, hdn, hrs⟩ | ⟨⟨t', ht', hsm⟩, e, rfl⟩⟩
      · refine ⟨rfl, .inl ⟨?_, rfl, ⟨staged, rfl⟩, ?_, ?_⟩⟩
        · rintro t' (_ | ⟨_, ht'⟩)
          · exact hno
          · rw [← hoth t' ht']
            exact hnones t' ht'
        · rintro t' (_ | ⟨_, ht'⟩)
          · rw [hrs t ht]
            exact staged_setStaged _ _ _ _
          · exact hdn t' ht'
        · intro t' ht'
          rw [mem_cons, not_or] at ht'
          rw [hrs t' ht'.2]
          exact staged_setStaged_of_ne ht'.1 _ _
      · exact ⟨rfl, .inr ⟨⟨t', .tail _ ht', hoth t' ht' ▸ hsm⟩, e, rfl⟩⟩
    · exact ⟨rfl, .inr ⟨⟨t, .head _, hsm⟩, e, rfl⟩⟩

theorem targetHash_of_holds (new : Version B) (h : Holds old w.files) (t : Target) :
    (w.files.target t).map K.sha256 = (record K old new t).beforeSha256 := by
  rw [h.target t, Option.map_map]
  rfl

theorem through_targetRecord_bind {f : TargetRecord → Op α} (hhl : Holds old w.files)
    (hct : ∀ t, new.content t = K.bytes t new.bundle) (t : Target)
    (h : (f (record K old new t)).Through (Phase.Reaches A) (Along K id w₀) ph w Q) :
    (targetRecord K new.bundle new.id t >>= f).Through (Phase.Reaches A)
    (Along K id w₀) ph w Q := by
  refine through_bind.mpr (through_reads_bind (through_pure h.start ?_))
  rw [targetHash_of_holds new hhl, ← hct t]
  exact h

variable {tr : Option Transition}

/-- A change is prepared unless a file is staged already; then it fails after the first
record has been written. -/
theorem through_prepareTransition (hK : K.Lawful) (hA : A old new) (hnew : new.Succeeds K old)
    (hct : ∀ t, new.content t = K.bytes t new.bundle)
    (h : Along K new.id w₀ (.settled old tr) w) :
    (prepareTransition K new.bundle (old.map (·.controller)) new.controller new.id
        (old.map fun v => K.canonicalHash v.bundle)).Through
      (Phase.Reaches A) (Along K new.id w₀) (.settled old tr) w fun ph w' r =>
        (∀ t, w.files.staged new.id t = none) ∧ ph = .prepared old new ∧
            w'.ticks = w.ticks + 2 ∧ w'.files.transition = some
              ((proposal K old new (w.clock w.ticks)).staged (w.clock (w.ticks + 1))) ∧
            r = .ok ((proposal K old new (w.clock w.ticks)).staged (w.clock (w.ticks + 1))) ∨
          (∃ t, w.files.staged new.id t ≠ none) ∧ ph = .preparing old new ∧ ∃ e, r = .error e := by
  obtain ⟨hhl, -, -⟩ := h.phase
  have hid : validateCommandId new.id = .ok () :=
    ensure_eq_ok.mpr (hnew.sound.commandIds _ hnew.sound.last)
  have hhe := organizationV3HeadHash_of_create (hnew.sound.create hK)
  refine through_attempt_bind hid ?_
  refine through_targetRecord_bind hhl hct .agents ?_
  refine through_targetRecord_bind hhl hct .organization ?_
  refine through_targetRecord_bind hhl hct .formations ?_
  refine through_attempt_bind hhe (through_now_bind h ?_)
  -- The first record is written: from here on a crash finds a change being prepared.
  have hpreparing : Along K new.id w₀ (.preparing old new) { w.tick with files :=
        { w.files with transition := some (proposal K old new (w.clock w.ticks)) } } :=
    ⟨{ h.tick.later with }, ⟨⟨hhl.target, hhl.controller⟩, w.ticks, Nat.lt_succ_self _, rfl⟩⟩
  refine through_act_bind h.tick (.single (.prepare tr hA)) ?_
  refine (through_stageTargets (by decide : TARGET_NAMES.Nodup) hpreparing).bind ?_
  rintro ph w' r hw' ⟨rfl, ⟨hno, rfl, ⟨staged, rfl⟩, hdn, -⟩ | ⟨⟨t, -, hsm⟩, e, rfl⟩⟩
  · -- Everything is staged: the second record makes the change a prepared one.
    refine through_now_bind hw' (through_act_bind hw'.tick (.single (.complete old new)) ?_)
    have hmvg : Moving old new { w.files with
          transition := some ((proposal K old new (w.clock w.ticks)).staged (w.clock (w.ticks + 1)))
          staged := staged } :=
      ⟨fun t => .inl ⟨hhl.target t, (hdn t (mem_TARGET_NAMES t)).trans
        (congrArg some (hct t).symm)⟩, .inl hhl.controller⟩
    refine through_pure ⟨{ hw'.tick.later with }, hmvg, w.ticks, w.ticks + 1,
      Nat.le_succ _, Nat.lt_succ_self _, rfl⟩ (.inl ⟨?_, rfl, rfl, rfl, rfl⟩)
    exact fun t => hno t (mem_TARGET_NAMES t)
  · exact .inr ⟨⟨t, hsm⟩, rfl, e, rfl⟩

/-! ## Is the transition recoverable? -/

section Recoverable

variable {r : TargetRecord} {preparingOnly : Bool}

theorem readOnly_assertRecoverableTarget :
    (assertRecoverableTarget K id preparingOnly r).ReadOnly :=
  (readOnly_reads _).bind fun _ => (readOnly_check _ _).bind fun _ =>
    (readOnly_reads _).bind fun _ => (readOnly_check _ _).bind fun _ =>
      (readOnly_check _ _).bind fun _ => readOnly_pure _

theorem readOnly_assertRecoverableTargets (rs : List TargetRecord) :
    (assertRecoverableTargets K id preparingOnly rs).ReadOnly := by
  induction rs with
  | nil => exact readOnly_pure _
  | cons r rs ih =>
    exact readOnly_assertRecoverableTarget.bind fun _ => ih.bind fun _ => readOnly_pure _

theorem readOnly_assertRecoverableTransitionState (t : Transition) :
    (assertRecoverableTransitionState K t preparingOnly).ReadOnly :=
  (readOnly_assertRecoverableTargets _).bind fun _ => (readOnly_reads _).bind fun _ =>
    (readOnly_check _ _).bind fun _ => (readOnly_check _ _).bind fun _ => readOnly_pure _

variable (K) in
/-- The target has the text the record announces. -/
def isAfter (w : World) (r : TargetRecord) : Bool :=
  decide ((w.files.target r.name).map K.sha256 = some r.sha256)

variable (K) in
/-- The target and its staged file are as the record allows. -/
structure Recoverable.Target (id : String) (preparingOnly : Bool) (w : World) (r : TargetRecord) :
    Prop where
  current : (w.files.target r.name).map K.sha256 = r.beforeSha256 ∨
    preparingOnly = false ∧ (w.files.target r.name).map K.sha256 = some r.sha256
  staged : (w.files.staged id r.name).map K.sha256 = none ∨
    (w.files.staged id r.name).map K.sha256 = some r.sha256
  complete : (w.files.target r.name).map K.sha256 = r.beforeSha256 → preparingOnly = false →
    (w.files.staged id r.name).map K.sha256 = some r.sha256

theorem run_assertRecoverableTarget (h : Recoverable.Target K id preparingOnly w r) :
    (assertRecoverableTarget K id preparingOnly r).run w = (w, .ok (isAfter K w r)) := by
  rw [assertRecoverableTarget, targetHash, run_bind, run_reads, andThen_ok, run_bind, run_check_pos,
    andThen_ok, stagedHash, run_bind, run_reads, andThen_ok, run_bind, run_check_pos, andThen_ok,
    run_bind, run_check_pos, andThen_ok]
  · rfl
  · rintro ⟨hbf, hprep, hsg⟩
    exact hsg (h.complete hbf (by simpa using hprep))
  · rintro ⟨hsm, hoth⟩
    exact h.staged.elim hsm hoth
  · rcases h.current with hbf | ⟨rfl, haf⟩
    · simp [hbf]
    · simp [haf]

theorem run_assertRecoverableTargets {rs : List TargetRecord}
    (h : ∀ r ∈ rs, Recoverable.Target K id preparingOnly w r) :
    (assertRecoverableTargets K id preparingOnly rs).run w =
      (w, .ok (rs.map fun r => (r, isAfter K w r))) := by
  induction rs with
  | nil => rfl
  | cons r rs ih =>
    obtain ⟨hr, hrs⟩ := forall_mem_cons.mp h
    rw [assertRecoverableTargets, run_bind, run_assertRecoverableTarget hr, andThen_ok, run_bind,
      ih hrs, andThen_ok]
    rfl

variable (K) in
def controllerHash (c : Controller) : String := K.sha256 (K.controllerBytes c)

theorem controllerHash_ne (hK : K.Lawful) {c c' : Controller}
    (h : c.organizationRevision ≠ c'.organizationRevision) :
    controllerHash K c ≠ controllerHash K c' :=
  fun heq => h (hK.controllerBytes_revision (hK.sha256_injective heq))

/-- The state is recoverable if every target is, and the controller has moved only after all
of them. -/
theorem run_assertRecoverableTransitionState {t : Transition}
    (htgs : ∀ r ∈ t.targets, Recoverable.Target K t.commandId preparingOnly w r)
    (hctl : w.files.controller.map (controllerHash K) = t.controllerBefore.map (controllerHash K) ∧
          w.files.controller.map (controllerHash K) ≠ some (controllerHash K t.controllerAfter) ∨
      preparingOnly = false ∧
        w.files.controller.map (controllerHash K) = some (controllerHash K t.controllerAfter) ∧
          ∀ r ∈ t.targets, isAfter K w r) :
    (assertRecoverableTransitionState K t preparingOnly).run w =
      (w, .ok ⟨t.targets.map fun r => (r, isAfter K w r),
        decide (w.files.controller.map (controllerHash K) =
          some (controllerHash K t.controllerAfter))⟩) := by
  rw [assertRecoverableTransitionState, run_bind, run_assertRecoverableTargets htgs, andThen_ok,
    run_bind, run_reads, andThen_ok, run_bind, run_check_pos, andThen_ok, run_bind, run_check_pos,
    andThen_ok]
  · rfl
  · rintro ⟨haf, s, hst, hfls⟩
    rcases hctl with ⟨-, hne⟩ | ⟨-, -, hall⟩
    · exact hne haf
    · obtain ⟨r, hr, rfl⟩ := mem_map.mp hst
      rw [hall r hr] at hfls
      cases hfls
  · rcases hctl with ⟨hbf, -⟩ | ⟨rfl, haf, -⟩
    · rintro (⟨hne, -⟩ | ⟨-, hne⟩)
      · exact hne hbf
      · exact hne hbf
    · rintro (⟨-, hne⟩ | ⟨hfls, -⟩)
      · exact hne haf
      · cases hfls

end Recoverable

/-! ## A prepared change is recoverable -/

theorem Version.Succeeds.controllerHash_ne (hK : K.Lawful) (hnew : new.Succeeds K old)
    {c : Option Controller} (hc : c = old.map (·.controller)) :
    c.map (controllerHash K) ≠ some (controllerHash K new.controller) := by
  subst hc
  cases old with
  | none => exact nofun
  | some v =>
    intro heq
    refine OrganizationStore.controllerHash_ne hK ?_ (Option.some.inj heq)
    rw [hnew.sound.revision, (hnew.soundBefore v rfl).revision, hnew.revision v rfl]
    omega

/-- The hash of a target tells whether it has been moved. -/
theorem isAfter_record (hK : K.Lawful) (t : Target) :
    isAfter K w (record K old new t) ↔ w.files.target t = some (new.content t) := by
  simp only [isAfter, record, decide_eq_true_eq, Option.map_eq_some_iff]
  constructor
  · rintro ⟨c, hct, hh⟩
    rw [hct, hK.sha256_injective hh]
  · exact fun htg => ⟨_, htg, rfl⟩

theorem Moving.recoverable (hK : K.Lawful) (h : Moving old new w.files) (t : Target) :
    Recoverable.Target K new.id false w (record K old new t) := by
  rcases h.target t with ⟨htg, hsg⟩ | ⟨htg, hsg, hne⟩
  · refine ⟨.inl ?_, .inr ?_, fun _ _ => ?_⟩
    · simp [record, htg, comp_def]
    · simp [record, hsg]
    · simp [record, hsg]
  · refine ⟨.inr ⟨rfl, ?_⟩, .inl ?_, fun hbf => absurd ?_ hne⟩
    · simp [record, htg]
    · simp [record, hsg]
    · -- The old text would have the hash of the new one.
      cases old with
      | none => simp [record, htg] at hbf
      | some v =>
        simp only [record, htg, Option.map_some, Option.some.injEq] at hbf ⊢
        exact (hK.sha256_injective hbf).symm

theorem Moving.controller_recoverable (hK : K.Lawful) (hnew : new.Succeeds K old)
    (h : Moving old new w.files) :
    w.files.controller.map (controllerHash K) = (old.map (·.controller)).map (controllerHash K) ∧
          w.files.controller.map (controllerHash K) ≠ some (controllerHash K new.controller) ∨
      w.files.controller.map (controllerHash K) = some (controllerHash K new.controller) ∧
        ∀ r ∈ TARGET_NAMES.map (record K old new), isAfter K w r := by
  rcases h.controller with hbf | ⟨haf, htgs⟩
  · exact .inl ⟨congrArg _ hbf, hnew.controllerHash_ne hK hbf⟩
  · refine .inr ⟨by rw [haf]; rfl, fun r hr => ?_⟩
    obtain ⟨t, -, rfl⟩ := mem_map.mp hr
    exact (isAfter_record hK t).mpr (htgs t)

theorem run_assertRecoverable_of_moving (hK : K.Lawful) (hnew : new.Succeeds K old)
    {t : Transition} (ht : Records K old new t) (h : Moving old new w.files) :
    (assertRecoverableTransitionState K t false).run w =
      (w, .ok ⟨TARGET_NAMES.map fun t => (record K old new t, isAfter K w (record K old new t)),
        decide (w.files.controller.map (controllerHash K) =
          some (controllerHash K new.controller))⟩) := by
  rw [run_assertRecoverableTransitionState, ht.targets, ht.controllerAfter, map_map]
  · rfl
  · rw [ht.targets, ht.commandId]
    intro r hr
    obtain ⟨n, -, rfl⟩ := mem_map.mp hr
    exact h.recoverable hK n
  · rw [ht.targets, ht.controllerAfter, ht.controllerBefore]
    exact (h.controller_recoverable hK hnew).imp id fun haf => ⟨rfl, haf⟩

/-! ## Rolling forward -/

/-- Moving a staged file over its target keeps the change a prepared one. -/
theorem Moving.rename {t : Target} (h : Moving old new w.files)
    (hne : w.files.target t ≠ some (new.content t)) :
    Moving old new (setStaged new.id t none (setTarget t (w.files.staged new.id t) w.files)) := by
  obtain ⟨htg, hsg⟩ : w.files.target t = old.map (·.content t) ∧
      w.files.staged new.id t = some (new.content t) :=
    (h.target t).resolve_right fun hmv => hne hmv.1
  constructor
  · intro t'
    by_cases heq : t' = t
    · subst heq
      refine .inr ⟨?_, staged_setStaged _ _ _ _, fun hold => hne (htg.trans hold)⟩
      simp [setStaged, setTarget, hsg]
    · rw [staged_setStaged_of_ne heq]
      have hoth := h.target t'
      simpa [setStaged, setTarget, heq] using hoth
  · rcases h.controller with hbf | ⟨-, hall⟩
    · exact .inl hbf
    · exact absurd (hall t) hne

theorem Along.rename {t : Target} (h : Along K new.id w₀ (.prepared old new) w)
    (hne : w.files.target t ≠ some (new.content t)) :
    Along K new.id w₀ (.prepared old new) { w with
        files := setStaged new.id t none (setTarget t (w.files.staged new.id t) w.files) } where
  later := { h.later with
      staged := fun id' hid => (staged_setStaged_of_id_ne hid t _ _).trans
        (h.later.staged id' hid) }
  phase := ⟨h.phase.1.rename hne, h.phase.2⟩

theorem through_publishTargets (hK : K.Lawful) {ts : List Target} (hts : ts.Nodup)
    {after : Target → Bool} (haf : ∀ t ∈ ts, after t = isAfter K w (record K old new t))
    (h : Along K new.id w₀ (.prepared old new) w) :
    (forEach (ts.map fun t => (record K old new t, after t)) (publishTarget new.id)).Through
      (Phase.Reaches A) (Along K new.id w₀) (.prepared old new) w fun ph w' r =>
        r = .ok () ∧ ph = .prepared old new ∧ w'.ticks = w.ticks ∧
          w'.files.transition = w.files.transition ∧ w'.files.controller = w.files.controller ∧
          (∀ t ∈ ts, w'.files.target t = some (new.content t)) ∧
          ∀ t ∉ ts, w'.files.target t = w.files.target t := by
  induction ts generalizing w with
  | nil => exact ⟨h, rfl, rfl, rfl, rfl, rfl, by simp, by simp⟩
  | cons t ts ih =>
    obtain ⟨ht, hts⟩ := nodup_cons.mp hts
    obtain ⟨hat, haf⟩ := forall_mem_cons.mp haf
    refine through_bind.mpr ?_
    by_cases hmv : w.files.target t = some (new.content t)
    · -- Already moved: nothing is done for this target.
      rw [publishTarget, if_pos (hat.trans ((isAfter_record hK t).mpr hmv))]
      refine through_pure h ((ih hts haf h).imp ?_)
      rintro ph w' r - ⟨rfl, rfl, htcs, htra, hctl, hdn, hrs⟩
      refine ⟨rfl, rfl, htcs, htra, hctl, ?_, fun t' ht' => ?_⟩
      · exact forall_mem_cons.mpr ⟨(hrs t ht).trans hmv, hdn⟩
      · exact hrs t' fun hmem => ht' (.tail _ hmem)
    · have hfls : ¬ after t = true := by
        rw [hat, isAfter_record hK t]
        exact hmv
      have hsg : w.files.staged new.id t = some (new.content t) :=
        ((h.phase.1.target t).resolve_right fun hmove => hmv hmove.1).2
      have hoth : ∀ t' ≠ t, (setTarget t (w.files.staged new.id t) w.files).target t' =
          w.files.target t' := fun t' hne => update_of_ne hne _ _
      rw [publishTarget, if_neg hfls]
      refine through_reads_bind (through_check_bind ?_ (through_act h .refl (h.rename hmv) ?_))
      · simp [record, hsg]
      refine (ih hts ?_ (h.rename hmv)).imp ?_
      · intro t' ht'
        have hne : t' ≠ t := fun heq => ht (heq ▸ ht')
        rw [haf t' ht', isAfter, isAfter]
        exact congrArg (fun c => decide (Option.map K.sha256 c = _)) (hoth t' hne).symm
      · rintro ph w' r - ⟨rfl, rfl, htcs, htra, hctl, hdn, hrs⟩
        refine ⟨rfl, rfl, htcs, htra, hctl, ?_, fun t' ht' => ?_⟩
        · refine forall_mem_cons.mpr ⟨(hrs t ht).trans ?_, hdn⟩
          exact (update_self _ _ _).trans hsg
        · rw [mem_cons, not_or] at ht'
          exact (hrs t' ht'.2).trans (hoth t' ht'.1)

theorem readOnly_readTarget (t : Target) : (readTarget t).ReadOnly :=
  (readOnly_reads _).bind fun o => by cases o <;> trivial

theorem readOnly_readBundle : (readBundle K).ReadOnly :=
  (readOnly_readTarget _).bind fun _ => (readOnly_readTarget _).bind fun _ =>
    (readOnly_readTarget _).bind fun _ => readOnly_attempt _

theorem run_readTarget {t : Target} {c : Bytes} (h : w.files.target t = some c) :
    (readTarget t).run w = (w, .ok c) := by
  rw [readTarget, run_bind, run_reads, andThen_ok, h]
  rfl

/-- The files of a version read as its bundle. -/
theorem run_readBundle {v : Version B} (hso : v.Sound K)
    (h : ∀ t, w.files.target t = some (v.content t)) :
    (readBundle K).run w = (w, .ok v.bundle) := by
  rw [readBundle, run_bind, run_readTarget (h _), andThen_ok, run_bind, run_readTarget (h _),
    andThen_ok, run_bind, run_readTarget (h _), andThen_ok, run_attempt, hso.parses]

/-- The controller follows its targets, unless it is the new one already. -/
theorem through_advanceController (hK : K.Lawful) (hnew : new.Succeeds K old)
    (htgs : ∀ t, w.files.target t = some (new.content t))
    (h : Along K new.id w₀ (.prepared old new) w) :
    (advanceController (decide (w.files.controller.map (controllerHash K) =
        some (controllerHash K new.controller))) new.controller).Through (Phase.Reaches A)
      (Along K new.id w₀) (.prepared old new) w fun ph w' r =>
        r = .ok () ∧ ph = .prepared old new ∧ w'.ticks = w.ticks ∧
          w'.files.transition = w.files.transition ∧ Holds (some new) w'.files := by
  by_cases haf : w.files.controller.map (controllerHash K) = some (controllerHash K new.controller)
  · have hctl : w.files.controller = some new.controller :=
      (h.phase.1.controller.resolve_left fun hbf => hnew.controllerHash_ne hK hbf haf).1
    rw [advanceController, if_pos (decide_eq_true haf)]
    exact through_pure h ⟨rfl, rfl, rfl, rfl, htgs, hctl⟩
  · rw [advanceController, if_neg (by simpa using haf)]
    refine through_act h .refl ⟨{ h.later with }, ⟨h.phase.1.target, .inr ⟨rfl, htgs⟩⟩,
      h.phase.2⟩ ⟨rfl, rfl, rfl, rfl, htgs, rfl⟩

/-- Removing what is left of the staged files of a finished change. -/
theorem through_removeStaged (rs : List TargetRecord)
    (h : Along K new.id w₀ (.finished old new) w) :
    (forEach rs (removeStaged new.id)).Through (Phase.Reaches A) (Along K new.id w₀)
      (.finished old new) w fun ph w' r => r = .ok () ∧ ph = .finished old new ∧
        w'.ticks = w.ticks ∧ w'.files.transition = w.files.transition := by
  let I : List TargetRecord → Phase B → World → Prop := fun _ ph w' =>
    ph = .finished old new ∧ Along K new.id w₀ (.finished old new) w' ∧
      w'.ticks = w.ticks ∧ w'.files.transition = w.files.transition
  refine (through_forEach I ?_ ?_ ⟨rfl, h, rfl, rfl⟩).imp ?_
  · rintro rs ph w' ⟨rfl, hw', -⟩
    exact hw'
  · rintro r rs ph w' ⟨rfl, hw', htcs, htra⟩
    have hnx : Along K new.id w₀ (.finished old new)
        { w' with files := setStaged new.id r.name none w'.files } :=
      { later := { hw'.later with
            staged := fun id' hid =>
              (staged_setStaged_of_id_ne hid r.name none w'.files).trans
                (hw'.later.staged id' hid) }
        phase := ⟨⟨hw'.phase.1.target, hw'.phase.1.controller⟩, hw'.phase.2⟩ }
    exact through_act hw' .refl hnx ⟨rfl, rfl, hnx, htcs, htra⟩
  · rintro ph w' r - ⟨rfl, rfl, -, htcs, htra⟩
    exact ⟨rfl, rfl, htcs, htra⟩

/-- A prepared change with a valid record is finished, wherever its preparation or an earlier
attempt has left it. -/
theorem through_rollForwardPrepared (hK : K.Lawful) (hnew : new.Succeeds K old) {i j : Nat}
    (hij : i ≤ j) (hj : j < w.ticks) {t : Transition}
    (ht : t = (proposal K old new (w.clock i)).staged (w.clock j))
    (hval : validateTransition K t = .ok ())
    (h : Along K new.id w₀ (.prepared old new) w) :
    (rollForwardPrepared K t).Through (Phase.Reaches A) (Along K new.id w₀) (.prepared old new) w
      fun ph w' r => ph = .finished old new ∧ w'.ticks = w.ticks + 1 ∧
        w'.files.transition = some (t.commit (w.clock w.ticks)) ∧
        r = .ok ⟨new.bundle, new.controller, K.canonicalHash new.bundle,
            t.commit (w.clock w.ticks)⟩ := by
  subst ht
  have hch : Records K old new ((proposal K old new (w.clock i)).staged (w.clock j)) :=
    (records_proposal K old new _).staged _
  have hhe := organizationV3HeadHash_of_create (hnew.sound.create hK)
  refine through_attempt_bind hval (through_check_bind rfl ?_)
  -- The state is recoverable, and says which files are still to be moved.
  refine (readOnly_assertRecoverableTransitionState _).through_bind
    (congrArg Prod.snd (run_assertRecoverable_of_moving hK hnew hch h.phase.1)) ?_
  refine (through_publishTargets hK (by decide : TARGET_NAMES.Nodup) (fun _ _ => rfl) h).bind ?_
  rintro ph w₁ r hw₁ ⟨rfl, rfl, htcs, htra, hctl, htgs, -⟩
  replace htgs : ∀ n, w₁.files.target n = some (new.content n) :=
    fun n => htgs n (mem_TARGET_NAMES n)
  refine readOnly_readBundle.through_bind (congrArg Prod.snd (run_readBundle hnew.sound htgs)) ?_
  refine through_attempt_bind hhe (through_check_bind ⟨rfl, rfl⟩ ?_)
  rw [← hctl]
  refine (through_advanceController hK hnew htgs hw₁).bind ?_
  rintro ph w₂ r hw₂ ⟨rfl, rfl, htcs₂, htra₂, hhl⟩
  -- The last record finishes the change; what is left of the staged files is removed.
  have hck : w₂.clock = w.clock := hw₂.later.clock.trans h.later.clock.symm
  have hnow : w₂.ticks = w.ticks := htcs₂.trans htcs
  have hfnd : Along K new.id w₀ (.finished old new) { w₂.tick with
        files := { w₂.files with
          transition := some (((proposal K old new (w.clock i)).staged (w.clock j)).commit
            (w.clock w.ticks)) } } := by
    refine ⟨{ hw₂.tick.later with }, ⟨hhl.target, hhl.controller⟩, i, j, w.ticks, hij, hj.le,
      ?_, ?_, ?_⟩
    · exact hnow ▸ Nat.lt_succ_self w₂.ticks
    · exact hck ▸ hval
    · rw [← hck]
      rfl
  refine through_now_bind hw₂ (through_act_bind hw₂.tick (.single (.finish old new)) ?_)
  rw [hck, hnow]
  refine (through_removeStaged _ hfnd).bind ?_
  rintro ph w₃ r hw₃ ⟨rfl, rfl, htcs₃, htra₃⟩
  exact ⟨hw₃, rfl, htcs₃.trans (congrArg (· + 1) hnow), htra₃, rfl⟩

/-! ## A whole change -/

variable (K) in
/-- The record of a change that was prepared from `w` on. -/
def preparedRecord (old : Option (Version B)) (new : Version B) (w : World) : Transition :=
  (proposal K old new (w.clock w.ticks)).staged (w.clock (w.ticks + 1))

theorem records_preparedRecord (old : Option (Version B)) (new : Version B) (w : World) :
    Records K old new (preparedRecord K old new w) := (records_proposal K _ _ _).staged _

variable (K) in
/-- No file of the change is staged yet, and its record will be valid. -/
def CanChange (old : Option (Version B)) (new : Version B) (w : World) : Prop :=
  (∀ t, w.files.staged new.id t = none) ∧
    validateTransition K (preparedRecord K old new w) = .ok ()

/-- A change is written if it can be; otherwise it fails on the way. -/
theorem through_writeChange (hK : K.Lawful) (hA : A old new) (hnew : new.Succeeds K old)
    (hct : ∀ t, new.content t = K.bytes t new.bundle)
    (h : Along K new.id w₀ (.settled old tr) w) :
    (writeChange K new.bundle (old.map (·.controller)) new.controller new.id
        (old.map fun v => K.canonicalHash v.bundle)).Through
      (Phase.Reaches A) (Along K new.id w₀) (.settled old tr) w fun ph w' r =>
        CanChange K old new w ∧ ph = .finished old new ∧ w'.ticks = w.ticks + 3 ∧
            w'.files.transition =
            some ((preparedRecord K old new w).commit (w.clock (w.ticks + 2))) ∧
            (∃ res, r = .ok res) ∨
          ¬ CanChange K old new w ∧ ∃ e, r = .error e := by
  refine (through_prepareTransition hK hA hnew hct h).bind ?_
  rintro ph w₁ r hw₁ (⟨hno, rfl, htcs, -, rfl⟩ | ⟨⟨t, hsm⟩, rfl, e, rfl⟩)
  · cases hval : validateTransition K (preparedRecord K old new w) with
    | error e =>
      refine through_attempt_bind_error hval hw₁ (.inr ⟨fun hcan => ?_, e, rfl⟩)
      cases hval.symm.trans hcan.2
    | ok u =>
      have hck : w₁.clock = w.clock := hw₁.later.clock.trans h.later.clock.symm
      refine (through_rollForwardPrepared hK hnew (Nat.le_succ w.ticks) ?_ ?_ hval hw₁).imp ?_
      · rw [htcs]
        exact Nat.lt_succ_self _
      · rw [hck]
        rfl
      · rintro ph w₂ r - ⟨rfl, htcs₂, hrec₂, rfl⟩
        refine .inl ⟨⟨hno, hval⟩, rfl, ?_, ?_, _, rfl⟩
        · rw [htcs₂, htcs]
        · rw [hrec₂, hck, htcs]
  · exact .inr ⟨fun hcan => hsm (hcan.1 t), e, rfl⟩

end Orquesta.OrganizationStore
