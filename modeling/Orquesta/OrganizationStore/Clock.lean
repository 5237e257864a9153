import Orquesta.OrganizationStore.Commit

/-!
# A commit and the clock

A commit reads the clock four times: for the controller, when the change is being
prepared, when it is prepared and when it is finished.  The last three times are compared
as texts whenever the record is read again, by the commit itself and by every later
inspection.  So a change is committed and stays usable exactly if they do not run
backwards.

The result is about two commands committed one after the other, with nothing in between.
It also shows the two other things a commit needs: that no file of its command is staged,
and that the revision can be counted.

## Main results

* `usable_iff_clock_in_order`: the commit of a command is usable if and only if the clock
  does not run backwards between the times it records
-/

namespace Orquesta.OrganizationStore

open Script Checked List Function

variable {B C : Type} {K : Kernel B C} {w : World} {v : Version B} {cmd : C}
  {t : Option Transition}

theorem Ready.parsesAsDate (h : Ready K w v t) :
    K.parsesAsDate v.controller.updatedAt := (ensure_eq_ok.mp h.controllerValid).2.2.2.2.2

section Commit

variable {b : B} {h : String} (hK : K.Lawful) (hdates : ∀ n, K.parsesAsDate (w.clock n))
  (hready : Ready K w v t)
  (happly : applyOrganizationControllerCommand K v.bundle cmd
    v.controller.appliedCommandIds = .ok ⟨.applied, b, h⟩)

include hK hdates hready happly

/-- A record of a commit is valid if its revision can be counted and its times are in
order. -/
theorem Ready.validateTransition_iff {t : Transition}
    (ht : Records K (some v) (committedVersion K w v cmd b) t) (hdd : t.Dated K) :
    validateTransition K t = .ok () ↔ K.revision b ≤ MAX_SAFE_INTEGER ∧ t.InOrder := by
  refine ht.validateTransition_iff hK (successor_succeeds hK hready.sound happly _)
    (hdates _) ?_ hdd
  rintro v' ⟨⟩
  exact hready.parsesAsDate

theorem validate_preparedRecord_iff :
    validateTransition K (preparedRecord K (some v) (committedVersion K w v cmd b) w.tick) =
      .ok () ↔
      K.revision b ≤ MAX_SAFE_INTEGER ∧ ¬ w.clock (w.ticks + 2) < w.clock (w.ticks + 1) := by
  have hdd : (preparedRecord K (some v) (committedVersion K w v cmd b) w.tick).Dated K :=
    ⟨hdates _, nofun, fun _ => hdates _, fun _ => rfl, nofun⟩
  rw [hready.validateTransition_iff hK hdates happly (records_preparedRecord _ _ _) hdd]
  simp [Transition.InOrder, preparedRecord, Transition.staged, proposal, isBefore, World.tick]

theorem validate_finished_iff :
    validateTransition K ((preparedRecord K (some v) (committedVersion K w v cmd b)
        w.tick).commit (w.clock (w.ticks + 3))) = .ok () ↔
      K.revision b ≤ MAX_SAFE_INTEGER ∧ ¬ w.clock (w.ticks + 2) < w.clock (w.ticks + 1) ∧
        ¬ w.clock (w.ticks + 3) < w.clock (w.ticks + 2) := by
  have hdd : ((preparedRecord K (some v) (committedVersion K w v cmd b) w.tick).commit
      (w.clock (w.ticks + 3))).Dated K :=
    ⟨hdates _, nofun, fun _ => hdates _, fun hne => absurd rfl hne, fun _ => hdates _⟩
  rw [hready.validateTransition_iff hK hdates happly ((records_preparedRecord _ _ _).commit _) hdd]
  simp [Transition.InOrder, preparedRecord, Transition.staged, Transition.commit, proposal,
    isBefore, World.tick]

/-- When a command that applies is committed. -/
theorem committed_iff : (∃ res, ((commit K cmd).run w).2 = .ok (.committed res)) ↔
      (∀ t, w.files.staged (K.commandId cmd) t = none) ∧
        K.revision b ≤ MAX_SAFE_INTEGER ∧ ¬ w.clock (w.ticks + 2) < w.clock (w.ticks + 1) := by
  rw [← validate_preparedRecord_iff hK hdates hready happly]
  obtain ⟨ph, -, -, ⟨hcnd, -, -, -, hres⟩ | ⟨hcnd, e, hres⟩⟩ :=
    (through_commit (A := fun _ _ => True) hK hready happly trivial).run
  · exact iff_of_true hres hcnd
  · refine iff_of_false ?_ hcnd
    rintro ⟨res, hcm⟩
    rw [hres] at hcm
    cases hcm

omit hdates in
/-- The store after a commit. -/
theorem after_commit (hcm : ∃ res, ((commit K cmd).run w).2 = .ok (.committed res)) :
    Later (K.commandId cmd) w ((commit K cmd).run w).1 ∧
      ((commit K cmd).run w).1.ticks = w.ticks + 4 ∧
      InPhase K (.finished (some v) (committedVersion K w v cmd b)) ((commit K cmd).run w).1 ∧
      ((commit K cmd).run w).1.files.transition =
        some ((preparedRecord K (some v) (committedVersion K w v cmd b) w.tick).commit
          (w.clock (w.ticks + 3))) := by
  obtain ⟨ph, -, hal, ⟨-, rfl, htcs, hrec, -⟩ | ⟨-, e, hres⟩⟩ :=
    (through_commit (A := fun _ _ => True) hK hready happly trivial).run
  · exact ⟨hal.later, htcs, hal.phase, hrec⟩
  · obtain ⟨res, hcm⟩ := hcm
    rw [hres] at hcm
    cases hcm

/-- A commit leaves the store ready if the times it has recorded are in order. -/
theorem ready_after_commit (hcm : ∃ res, ((commit K cmd).run w).2 = .ok (.committed res))
    (hor : ¬ w.clock (w.ticks + 3) < w.clock (w.ticks + 2)) :
    Ready K ((commit K cmd).run w).1 (committedVersion K w v cmd b)
      (some ((preparedRecord K (some v) (committedVersion K w v cmd b) w.tick).commit
        (w.clock (w.ticks + 3)))) := by
  obtain ⟨-, hrev, hbf⟩ := (committed_iff hK hdates hready happly).mp hcm
  obtain ⟨hlt, -, ⟨hhl, -⟩, hrec⟩ := after_commit hK hready happly hcm
  have hso := (successor_succeeds hK hready.sound happly (w.clock w.ticks)).sound
  refine ⟨hlt.legacyMarkers.trans hready.legacyMarkers, hhl, hso,
    (hso.validateController_iff hK (hdates _)).mpr hrev, hrec, ?_⟩
  rintro t ⟨⟩
  exact ⟨(validate_finished_iff hK hdates hready happly).mpr ⟨hrev, hbf, hor⟩, rfl, rfl,
    rfl, rfl⟩

/-- The record of a commit fits the version that is found after it only if its times are in
order. -/
theorem ready_after_commit_iff (hcm : ∃ res, ((commit K cmd).run w).2 = .ok (.committed res)) :
    (∃ c h' t, ((inspectOrganizationV3 K).run ((commit K cmd).run w).1).2 = .ok (.ready b c h' t)) ↔
      ¬ w.clock (w.ticks + 3) < w.clock (w.ticks + 2) := by
  constructor
  · rintro ⟨c, h', t, hins⟩
    obtain ⟨v', hrdy', -⟩ := (inspect_ready_iff hK).mp hins
    obtain ⟨-, -, -, hrec⟩ := after_commit hK hready happly hcm
    have hft := hrdy'.fits _ (hrdy'.record.symm.trans hrec)
    exact ((validate_finished_iff hK hdates hready happly).mp hft.valid).2.2
  · exact fun hor =>
      ⟨_, _, _, (ready_after_commit hK hdates hready happly hcm hor).inspect hK⟩

end Commit

/-! ## A commit that stays usable -/

/-- A command is committed, the store is ready with the new bundle, and a further command can
be committed. -/
def Usable (K : Kernel B C) (w : World) (command further : C) (b : B) : Prop :=
  (∃ result, ((commit K command).run w).2 = .ok (.committed result)) ∧
    (∃ c h t, ((inspectOrganizationV3 K).run ((commit K command).run w).1).2 =
      .ok (.ready b c h t)) ∧
    ∃ result, ((commit K further).run ((commit K command).run w).1).2 = .ok (.committed result)

/-- In a store that is ready, the commit of a command that applies is usable if and only if
no file of the two commands is staged, both revisions can be counted, and the clock does not
run backwards between the times that are recorded in turn. -/
theorem usable_iff_clock_in_order (hK : K.Lawful) (w : World)
    (hdates : ∀ n, K.parsesAsDate (w.clock n)) {b b₁ b₂ : B} {c : Controller} {h h₁ h₂ : String}
    {transition : Option Transition} {command further : C}
    (hinspect : ((inspectOrganizationV3 K).run w).2 = .ok (.ready b c h transition))
    (happly : applyOrganizationControllerCommand K b command c.appliedCommandIds =
      .ok ⟨.applied, b₁, h₁⟩)
    (hfurther : applyOrganizationControllerCommand K b₁ further
      (c.appliedCommandIds ++ [K.commandId command]) = .ok ⟨.applied, b₂, h₂⟩) :
    Usable K w command further b₁ ↔ (∀ t, w.files.staged (K.commandId command) t = none) ∧
        (∀ t, w.files.staged (K.commandId further) t = none) ∧
        K.revision b + 2 ≤ MAX_SAFE_INTEGER ∧
        ¬ w.clock (w.ticks + 2) < w.clock (w.ticks + 1) ∧
        ¬ w.clock (w.ticks + 3) < w.clock (w.ticks + 2) ∧
        ¬ w.clock (w.ticks + 6) < w.clock (w.ticks + 5) := by
  obtain ⟨v, hready, rfl, rfl, rfl⟩ := (inspect_ready_iff hK).mp hinspect
  obtain ⟨hb₁, hrevision₁, -, -, -⟩ := applied_spec hK (hready.sound.create hK) happly
  obtain ⟨-, hrevision₂, -, hfresh, -⟩ := applied_spec hK hb₁ hfurther
  have hid : K.commandId further ≠ K.commandId command := fun heq =>
    hfresh (heq ▸ mem_append_right _ (mem_singleton.mpr rfl))
  -- The further commit starts where the first has left the clock and the staged files.
  have hnext (hcommitted : ∃ result, ((commit K command).run w).2 = .ok (.committed result))
      (horder : ¬ w.clock (w.ticks + 3) < w.clock (w.ticks + 2)) :
      (∃ result, ((commit K further).run ((commit K command).run w).1).2 =
        .ok (.committed result)) ↔
        (∀ t, w.files.staged (K.commandId further) t = none) ∧
          K.revision b₂ ≤ MAX_SAFE_INTEGER ∧ ¬ w.clock (w.ticks + 6) < w.clock (w.ticks + 5) := by
    obtain ⟨hlater, hticks, -, -⟩ := after_commit hK hready happly hcommitted
    have hiff := committed_iff hK (by rw [hlater.clock]; exact hdates)
      (ready_after_commit hK hdates hready happly hcommitted horder) hfurther
    rwa [hlater.clock, hticks, hlater.staged _ hid] at hiff
  rw [Usable]
  constructor
  · rintro ⟨hcommitted, hafter, hfurther⟩
    obtain ⟨hnone, -, hbefore⟩ := (committed_iff hK hdates hready happly).mp hcommitted
    have horder := (ready_after_commit_iff hK hdates hready happly hcommitted).mp hafter
    obtain ⟨hnone₂, hrevision, hbefore₂⟩ := (hnext hcommitted horder).mp hfurther
    exact ⟨hnone, hnone₂, by omega, hbefore, horder, hbefore₂⟩
  · rintro ⟨hnone, hnone₂, hrevision, hbefore, horder, hbefore₂⟩
    have hcommitted := (committed_iff hK hdates hready happly).mpr ⟨hnone, by omega, hbefore⟩
    exact ⟨hcommitted, (ready_after_commit_iff hK hdates hready happly hcommitted).mpr horder,
      (hnext hcommitted horder).mpr ⟨hnone₂, by omega, hbefore₂⟩⟩

/-! ### A store of counters

A bundle is a revision and a counter, both below 200, and there are two commands, each of
which counts on. -/

/-- The text of digits, one character for each byte. -/
def byteText (bytes : Bytes) : String := String.ofList (bytes.map fun byte => Char.ofNat byte.toNat)

theorem byteText_injective : Injective byteText := by
  have htoNat (byte : UInt8) : (Char.ofNat byte.toNat).toNat = byte.toNat := by
    have hval : byte.toNat.isValidChar := .inl (byte.toNat_lt.trans (by decide))
    rw [Char.ofNat, dif_pos hval]
    rfl
  have hchar : Injective fun byte : UInt8 => Char.ofNat byte.toNat := by
    intro a b heq
    exact UInt8.toNat_inj.mp ((htoNat a).symm.trans ((congrArg Char.toNat heq).trans (htoNat b)))
  intro bs bs' heq
  exact map_injective_iff.mpr hchar (String.ofList_injective heq)

def counterBytes (b : Nat × Nat) : Bytes := [UInt8.ofNat b.1, UInt8.ofNat b.2]

def counterFailure : Failure := ⟨"COUNTER", "out of range"⟩

def counterKernel : Kernel (Nat × Nat) Bool where
  createBundle b := if b.1 < 200 ∧ b.2 < 200 then .ok b else .error counterFailure
  canonicalHash b := byteText (counterBytes b)
  revision b := b.1
  withRevision n b := (n, b.2)
  bytes _ b := counterBytes b
  parse
    | [r, c], [r', c'], [r'', c''] =>
      if (r, c) = (r', c') ∧ (r, c) = (r'', c'') then .ok (r.toNat, c.toNat)
      else .error counterFailure
    | _, _, _ => .error counterFailure
  isVersion3 _ := .ok true
  controllerBytes c := replicate c.organizationRevision 0
  sha256 := byteText
  isDigest _ := true
  parsesAsDate _ := true
  commandId command := if command then "b" else "a"
  expectedRevision command := if command then 1 else 0
  expectedHeadHash command := byteText (if command then [1, 1] else [0, 0])
  commandIdFor command := if command then "b" else "a"
  checkCommand _ := .ok ()
  validateShape _ := .ok ()
  validateAgainst _ _ := .ok ()
  patch b _ := .ok (b.1, b.2 + 1)

theorem counterKernel_create {b : Nat × Nat} (h : counterKernel.createBundle b = .ok b) :
    b.1 < 200 ∧ b.2 < 200 := by
  obtain ⟨hb, -⟩ | ⟨-, heq⟩ := ite_eq_ok.mp h
  · exact hb
  · cases heq

theorem ofNat_inj {m n : Nat} (hm : m < 200) (hn : n < 200) (h : UInt8.ofNat m = UInt8.ofNat n) :
    m = n := by
  have heq := congrArg UInt8.toNat h
  simp only [UInt8.toNat_ofNat'] at heq
  omega

theorem counterKernel_lawful : counterKernel.Lawful where
  create_idem := by
    intro b b' h
    obtain ⟨hb, heq⟩ | ⟨-, heq⟩ := ite_eq_ok.mp h
    · cases heq
      exact if_pos hb
    · cases heq
  create_revision := by
    intro b b' h
    obtain ⟨-, heq⟩ | ⟨-, heq⟩ := ite_eq_ok.mp h
    · cases heq
      rfl
    · cases heq
  revision_withRevision := fun _ _ => rfl
  parse_bytes := by
    intro b h
    obtain ⟨hr, hc⟩ := counterKernel_create h
    have hbyte {n : Nat} (hn : n < 200) : (UInt8.ofNat n).toNat = n := by
      simp
      omega
    simp [counterKernel, counterBytes, hbyte hr, hbyte hc]
  head_binds := by
    intro b₁ b₂ b₃ b b' h₁ h₂ h₃ h' hps heq
    obtain ⟨parsed, hprs, hcre⟩ := bind_eq_ok.mp hps
    obtain ⟨⟨hsam₂, hsam₃⟩, hprs⟩ | ⟨-, hprs⟩ := ite_eq_ok.mp hprs
    · obtain ⟨-, hcrd⟩ | ⟨-, hcrd⟩ := ite_eq_ok.mp hcre
      · cases hprs
        cases hcrd
        have hby := byteText_injective heq
        simp only [counterBytes, cons.injEq, UInt8.ofNat_toNat] at hby
        have heq₁ := ofNat_inj (counterKernel_create h₁).1 (counterKernel_create h').1 hby.1
        have heq₂ := ofNat_inj (counterKernel_create h₁).1 (counterKernel_create h₂).1
          (congrArg Prod.fst hsam₂)
        have heq₃ := ofNat_inj (counterKernel_create h₁).1 (counterKernel_create h₃).1
          (congrArg Prod.fst hsam₃)
        exact ⟨heq₁, heq₂.symm.trans heq₁, heq₃.symm.trans heq₁⟩
      · cases hcrd
    · cases hprs
  version_bytes := fun _ => rfl
  controllerBytes_revision := by
    intro c c' h
    simpa [counterKernel] using congrArg length h
  sha256_injective := byteText_injective
  isDigest_sha256 := fun _ => rfl
  isDigest_canonicalHash := fun _ => rfl
  commandIdFor_format := by decide

/-- A store that is ready with both counters at zero. -/
def counterWorld (clock : Nat → String) : World where
  files :=
    { target := fun _ => some (counterBytes (0, 0))
      controller := some ⟨0, byteText [0, 0], ["i"], "i", ""⟩
      transition := none
      staged := fun _ _ => none
      legacyMarkers := false
      foreignRuntimeBinding := false }
  clock := clock
  ticks := 0

theorem usable_steadyClock : Usable counterKernel (counterWorld fun _ => "0") false true (1, 1) :=
  (usable_iff_clock_in_order counterKernel_lawful _ (fun _ => rfl) rfl rfl rfl).mpr
    ⟨fun _ => rfl, fun _ => rfl, by decide, by decide, by decide, by decide⟩

/-- The clock is set back before its fourth reading: the command is committed, and the store is
not ready afterwards. -/
theorem not_usable_clockSetBack :
    ((inspectOrganizationV3 counterKernel).run (counterWorld fun n => if n = 3 then
      "0" else "1")).2 =
        .ok (.ready (0, 0) ⟨0, byteText [0, 0], ["i"], "i", ""⟩ (byteText [0, 0]) none) ∧
      applyOrganizationControllerCommand counterKernel (0, 0) false ["i"] =
        .ok ⟨.applied, (1, 1), byteText [1, 1]⟩ ∧
      ¬ Usable counterKernel (counterWorld fun n => if n = 3 then "0" else "1") false true
          (1, 1) := by
  refine ⟨rfl, rfl, ?_⟩
  rintro ⟨-, ⟨c, h, t, hready⟩, -⟩
  have hunsupported : ((inspectOrganizationV3 counterKernel).run ((commit counterKernel false).run
      (counterWorld fun n => if n = 3 then "0" else "1")).1).2 =
        .ok (.unsupported "organization_v3_transition_invalid") := rfl
  rw [hunsupported] at hready
  cases hready

end Orquesta.OrganizationStore
