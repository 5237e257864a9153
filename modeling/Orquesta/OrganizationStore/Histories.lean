import Orquesta.OrganizationStore.Interruption
import Orquesta.OrganizationStore.Versions

/-!
# Histories of calls, crashes and inspections

One process at a time writes, as a call has the lock while it writes, by a call that goes on
operation by operation and may crash between any two.  Any number of other processes inspect the
store meanwhile, without the lock.

A history has written a list of versions, which only grows.  It grows when the record of a
change says that the change is prepared: from then on the change can be finished but not
given up.  Every file an inspection reads belongs to one of these versions, and what it
reports as ready is one of them.

## Main definitions

* `System`, `Step`
* `Tracks`: what the versions of a history are

## Main results

* `Tracks.step`: one step extends the versions
* `committed_exactly_once`: what is reported as ready
* `committed_not_alreadyApplied`: a command that is refused after a crash
-/

namespace Orquesta.OrganizationStore

open Script Checked List Option ProcessLock

variable {B C : Type} (K : Kernel B C)

/-! ## The system -/

/-- A call, with the command it has committed as its result. -/
def Call.script : Call B C → Op (Option C)
  | .initializeStore raw id => do
    let _ ← OrganizationStore.initializeStore K raw id
    return none
  | .commit command => do
    match ← OrganizationStore.commit K command with
    | .committed _ => return some command
    | _ => return none
  | .recover => do
    let _ ← OrganizationStore.recover K
    return none

/-- An inspection under way, and the commands that were committed when it began. -/
structure Reader (B C : Type) where
  script : Op (Inspection B)
  before : List C

/-- What an inspection has reported. -/
structure Report (B C : Type) where
  before : List C
  result : Except Failure (Inspection B)

structure System (B C : Type) where
  world : World
  /-- The call under way. -/
  writer : Option (Op (Option C))
  readers : List (Reader B C)
  /-- The calls that were begun. -/
  calls : List (Call B C)
  /-- The commands whose commit has returned `committed`. -/
  committed : List C
  reports : List (Report B C)

/-- The command a call acknowledges by its result. -/
def acknowledged : Except Failure (Option C) → List C
  | .ok (some command) => [command]
  | _ => []

inductive Step : System B C → System B C → Prop
  | call {s : System B C} (c : Call B C) (h : s.writer = none) :
      Step s { s with writer := some (c.script K), calls := c :: s.calls }
  | operate {s : System B C} {effect : World → World} {next : World → Op (Option C)}
      (h : s.writer = some (.op effect next)) :
      Step s { s with world := effect s.world, writer := some (next s.world) }
  | finish {s : System B C} {r : Except Failure (Option C)} (h : s.writer = some (.done r)) :
      Step s { s with writer := none, committed := acknowledged r ++ s.committed }
  | crash {s : System B C} : Step s { s with writer := none }
  -- An inspection changes no file, so only what it reads matters.
  | inspect {s : System B C} :
      Step s { s with readers := ⟨inspectOrganizationV3 K, s.committed⟩ :: s.readers }
  | read {s : System B C} {before after : List (Reader B C)} {reader : Reader B C}
      {effect : World → World} {next : World → Op (Inspection B)}
      (h : s.readers = before ++ reader :: after) (hscript : reader.script = .op effect next) :
      Step s { s with
        readers := before ++ { reader with script := next s.world } :: after }
  | report {s : System B C} {before after : List (Reader B C)} {reader : Reader B C}
      {r : Except Failure (Inspection B)} (h : s.readers = before ++ reader :: after)
      (hscript : reader.script = .done r) :
      Step s { s with
        readers := before ++ after, reports := ⟨reader.before, r⟩ :: s.reports }

abbrev Steps : System B C → System B C → Prop := Relation.ReflTransGen (Step K)

/-- A store without files, before the first call. -/
structure Fresh (s : System B C) : Prop where
  target : ∀ t, s.world.files.target t = none
  controller : s.world.files.controller = none
  transition : s.world.files.transition = none
  writer : s.writer = none
  readers : s.readers = []
  committed : s.committed = []
  reports : s.reports = []

/-! ## The phase of a history -/

/-- The version the files have at least. -/
def Phase.base : Phase B → Option (Version B)
  | .settled v _ => v
  | .preparing old _ => old
  | .prepared old _ => old
  | .finished _ new => some new

/-- The phase belongs to these versions. -/
def Fitting (calls : List (Call B C)) (vs : List (Version B)) : Phase B → Prop
  | .settled v _ => v = vs.getLast?
  | .preparing old new => old = vs.getLast? ∧ Follows K calls old new
  | .prepared old new => ∃ vs₀, vs = vs₀ ++ [new] ∧ old = vs₀.getLast?
  | .finished old new => ∃ vs₀, vs = vs₀ ++ [new] ∧ old = vs₀.getLast?

/-- The phase of a history with these versions, in which these commands are committed. -/
structure At (calls : List (Call B C)) (committed : List C) (phase : Phase B)
    (vs : List (Version B)) : Prop where
  versions : Versions K calls vs
  fitting : Fitting K calls vs phase
  committed : ∀ command ∈ committed, ∃ v ∈ phase.base,
    K.commandId command ∈ v.controller.appliedCommandIds

variable {K} {cs : List (Call B C)} {committed : List C} {vs vs₀ : List (Version B)}
  {ph ph' : Phase B} {new : Version B} {old : Option (Version B)} {w : World}

theorem Versions.of_snoc (h : Versions K cs (vs ++ [new])) :
    Versions K cs vs ∧ Follows K cs vs.getLast? new := by
  generalize hvs : vs ++ [new] = all at h
  cases h with
  | nil => simp at hvs
  | snoc h hnew =>
    obtain ⟨rfl, hls⟩ := append_inj' hvs rfl
    cases hls
    exact ⟨h, hnew⟩

variable {v : Version B}

/-- A version keeps the commands of the one before it. -/
theorem Follows.appliedCommandIds (h : Follows K cs old new) (hv : v ∈ old) :
    v.controller.appliedCommandIds ⊆ new.controller.appliedCommandIds := by
  cases hv
  obtain ⟨cmd, b, h, t, -, -, rfl⟩ := h
  exact subset_append_left _ _

theorem At.next (h : At K cs committed ph vs) (hnx : Phase.Next (Follows K cs) ph ph') :
    ∃ vs', vs <+: vs' ∧ At K cs committed ph' vs' := by
  cases hnx with
  | prepare t hfol =>
    exact ⟨vs, prefix_rfl, h.versions, ⟨h.fitting, hfol⟩, h.committed⟩
  | abandon old new => exact ⟨vs, prefix_rfl, h.versions, h.fitting.1, h.committed⟩
  | complete old new =>
    obtain ⟨rfl, hfol⟩ := h.fitting
    exact ⟨vs ++ [new], prefix_append _ _, h.versions.snoc hfol, ⟨vs, rfl, rfl⟩, h.committed⟩
  | finish old new =>
    obtain ⟨vs₀, rfl, rfl⟩ := h.fitting
    refine ⟨vs₀ ++ [new], prefix_rfl, h.versions, ⟨vs₀, rfl, rfl⟩, fun cmd hcmd => ?_⟩
    obtain ⟨v, hv, hid⟩ := h.committed cmd hcmd
    exact ⟨new, rfl, h.versions.of_snoc.2.appliedCommandIds hv hid⟩

/-- The versions grow with the phases. -/
theorem At.reaches (h : At K cs committed ph vs) (hreaches : Phase.Reaches (Follows K cs) ph ph') :
    ∃ vs', vs <+: vs' ∧ At K cs committed ph' vs' := by
  induction hreaches with
  | refl => exact ⟨vs, prefix_rfl, h⟩
  | tail _ hnx ih =>
    obtain ⟨vs₁, hpfx₁, h₁⟩ := ih
    obtain ⟨vs₂, hpfx₂, h₂⟩ := h₁.next hnx
    exact ⟨vs₂, hpfx₁.trans hpfx₂, h₂⟩

variable (K) in
/-- The files are in a phase of a history with these versions. -/
def Held (cs : List (Call B C)) (committed : List C) (vs : List (Version B)) (w : World) : Prop :=
  ∃ ph, At K cs committed ph vs ∧ InPhase K ph w

theorem Held.mono {cs' : List (Call B C)} (hcls : cs ⊆ cs')
    (h : Held K cs committed vs w) : Held K cs' committed vs w := by
  obtain ⟨ph, hat, hph⟩ := h
  refine ⟨ph, ⟨hat.versions.mono hcls, ?_, hat.committed⟩, hph⟩
  cases ph with
  | preparing old new => exact ⟨hat.fitting.1, hat.fitting.2.mono hcls⟩
  | _ => exact hat.fitting

/-- A finished change is at rest, so there are three cases. -/
theorem Held.cases (h : Held K cs committed vs w) :
    (∃ transition, At K cs committed (.settled vs.getLast? transition) vs ∧
        InPhase K (.settled vs.getLast? transition) w) ∨
      (∃ new, At K cs committed (.preparing vs.getLast? new) vs ∧
        InPhase K (.preparing vs.getLast? new) w) ∨
      ∃ vs₀ new, vs = vs₀ ++ [new] ∧ At K cs committed (.prepared vs₀.getLast? new) vs ∧
        InPhase K (.prepared vs₀.getLast? new) w := by
  obtain ⟨ph, hat, hph⟩ := h
  cases ph with
  | settled v transition =>
    obtain rfl : v = vs.getLast? := hat.fitting
    exact .inl ⟨transition, hat, hph⟩
  | preparing old new =>
    obtain ⟨rfl, -⟩ := hat.fitting
    exact .inr (.inl ⟨new, hat, hph⟩)
  | prepared old new =>
    obtain ⟨vs₀, rfl, rfl⟩ := hat.fitting
    exact .inr (.inr ⟨vs₀, new, rfl, hat, hph⟩)
  | finished old new =>
    obtain ⟨vs₀, rfl, rfl⟩ := hat.fitting
    obtain ⟨hhl, i, j, k, -, -, -, -, hrec⟩ := hph
    have hls : (vs₀ ++ [new]).getLast? = some new := by simp
    rw [hls]
    refine .inl ⟨_, ⟨hat.versions, hls.symm, hat.committed⟩, hhl, hrec, ?_⟩
    rintro t ⟨⟩
    rfl

theorem Held.versions (h : Held K cs committed vs w) : Versions K cs vs := by
  obtain ⟨ph, hat, -⟩ := h
  exact hat.versions

theorem written_of_holds (h : Holds vs.getLast? w.files) : Written vs w := by
  constructor
  · intro t content hct
    rw [h.target t] at hct
    obtain ⟨v, hv, rfl⟩ := map_eq_some_iff.mp hct
    exact ⟨v, mem_of_getLast? hv, rfl⟩
  · intro c hc
    rw [h.controller] at hc
    obtain ⟨v, hv, rfl⟩ := map_eq_some_iff.mp hc
    exact ⟨v, mem_of_getLast? hv, rfl⟩

theorem written_of_moving (h : Moving vs.getLast? new w.files) : Written (vs ++ [new]) w := by
  have hnew : new ∈ vs ++ [new] := mem_append_right _ (mem_singleton.mpr rfl)
  have hold : ∀ v ∈ vs.getLast?, v ∈ vs ++ [new] := fun v hv =>
    mem_append_left _ (mem_of_getLast? hv)
  constructor
  · intro t content hct
    rcases h.target t with ⟨htg, -⟩ | ⟨htg, -⟩
    · obtain ⟨v, hv, rfl⟩ := map_eq_some_iff.mp (htg.symm.trans hct)
      exact ⟨v, hold v hv, rfl⟩
    · exact ⟨new, hnew, (some.inj (htg.symm.trans hct)).symm⟩
  · intro c hc
    rcases h.controller with hctl | ⟨hctl, -⟩
    · obtain ⟨v, hv, rfl⟩ := map_eq_some_iff.mp (hctl.symm.trans hc)
      exact ⟨v, hold v hv, rfl⟩
    · exact ⟨new, hnew, (some.inj (hctl.symm.trans hc)).symm⟩

/-- What the files hold are parts of the versions. -/
theorem Held.written (h : Held K cs committed vs w) : Written vs w := by
  rcases h.cases with ⟨t, -, hhl, -⟩ | ⟨new, -, hhl, -⟩ | ⟨vs₀, new, rfl, -, hmvg, -⟩
  · exact written_of_holds hhl
  · exact written_of_holds hhl
  · exact written_of_moving hmvg

variable (K) in
/-- The controller that is stored knows the commands. -/
def Knows (commands : List C) (w : World) : Prop :=
  ∀ c ∈ w.files.controller, ∀ cmd ∈ commands, K.commandId cmd ∈ c.appliedCommandIds

theorem Held.knows (h : Held K cs committed vs w) : Knows K committed w := by
  intro c hc cmd hcmd
  rcases h.cases with ⟨t, hat, hhl, -⟩ | ⟨new, hat, hhl, -⟩ | ⟨vs₀, new, rfl, hat, hmvg, -⟩
  all_goals obtain ⟨v, hv, hid⟩ := hat.committed cmd hcmd
  · rw [hhl.controller, show vs.getLast? = some v from hv] at hc
    cases hc
    exact hid
  · rw [hhl.controller, show vs.getLast? = some v from hv] at hc
    cases hc
    exact hid
  · rcases hmvg.controller with hctl | ⟨hctl, -⟩
    · rw [hctl, show vs₀.getLast? = some v from hv] at hc
      cases hc
      exact hid
    · rw [hctl] at hc
      cases hc
      exact hat.versions.of_snoc.2.appliedCommandIds hv hid

/-! ## What a call does to the versions -/

instance : Std.Refl (α := List (Version B)) (· <+: ·) := ⟨fun _ => prefix_rfl⟩

variable (K) in
/-- The command passes the checks that do not look at the bundle. -/
def Admissible (cmd : C) : Prop :=
  K.checkCommand cmd = .ok () ∧ K.commandId cmd = K.commandIdFor cmd ∧
    K.validateShape cmd = .ok ()

variable {cmd : C}

theorem admissible_of_apply {b : B} {ids : List String} {applied : Applied B}
    (h : applyOrganizationControllerCommand K b cmd ids = .ok applied) : Admissible K cmd := by
  obtain ⟨cur, -, h⟩ := bind_eq_ok.mp h
  obtain ⟨⟨⟩, hck, h⟩ := bind_eq_ok.mp h
  obtain ⟨⟨⟩, hid, h⟩ := bind_eq_ok.mp h
  obtain ⟨⟨⟩, hshp, -⟩ := bind_eq_ok.mp h
  exact ⟨hck, ensure_eq_ok.mp hid, hshp⟩

variable (K) in
/-- At the end of a call: a command it acknowledges is committed. -/
def Acknowledges (cs : List (Call B C)) (committed : List C) (vs : List (Version B)) (w : World)
    (r : Except Failure (Option C)) : Prop :=
  ∀ cmd, r = .ok (some cmd) →
    Admissible K cmd ∧ Held K cs (cmd :: committed) vs w

variable (K) in
/-- What the script does is part of the history. -/
abbrev Continues (cs : List (Call B C)) (committed : List C) (vs : List (Version B)) (w : World)
    (p : Op (Option C)) : Prop :=
  p.Through (· <+: ·) (Held K cs committed) vs w (Acknowledges K cs committed)

/-- A run through phases is a run through versions. -/
theorem At.through {α : Type} {p : Op α} {id : String} {w₀ : World}
    {Q : Phase B → World → Except Failure α → Prop} (hat : At K cs committed ph vs)
    (h : p.Through (Phase.Reaches (Follows K cs)) (Along K id w₀) ph w Q) :
    p.Through (· <+: ·) (Held K cs committed) vs w fun vs w r =>
      ∃ ph, At K cs committed ph vs ∧ InPhase K ph w ∧ Q ph w r := by
  refine (h.simulate (At K cs committed) At.reaches (fun hat hal => ⟨_, hat, hal.phase⟩) hat).imp ?_
  rintro vs w r - ⟨ph, hat, hal, hQ⟩
  exact ⟨ph, hat, hal.phase, hQ⟩

theorem Held.atRest (h : Held K cs committed vs w) (hrs : AtRest w.files) :
    ∃ t, At K cs committed (.settled vs.getLast? t) vs ∧ InPhase K (.settled vs.getLast? t) w := by
  rcases h.cases with h | ⟨new, -, -, i, -, hrec⟩ | ⟨vs₀, new, -, -, -, i, j, -, -, hrec⟩
  · exact h
  · cases hrs _ hrec
  · cases hrs _ hrec

section Calls

variable (hK : K.Lawful) (h : Held K cs committed vs w)
include hK h

/-- The version that is found is the last one. -/
theorem Held.ready {transition : Option Transition} (hrdy : Ready K w v transition) :
    vs.getLast? = some v ∧ At K cs committed (.settled (some v) transition) vs := by
  obtain ⟨transition', hat, hhl, hrec, -⟩ := h.atRest hrdy.atRest
  obtain rfl : transition = transition' := hrdy.record.symm.trans hrec
  cases hls : vs.getLast? with
  | none =>
    have hno := (hhl.controller.symm.trans hrdy.holds.controller)
    rw [hls] at hno
    cases hno
  | some last =>
    rw [hls] at hhl hat
    have hct : v.content = last.content := funext fun t =>
      some.inj ((hrdy.holds.target t).symm.trans (hhl.target t))
    have hctl : v.controller = last.controller :=
      some.inj (hrdy.holds.controller.symm.trans hhl.controller)
    have hpss := (hat.versions.sound hK last (mem_of_getLast? hls)).parses
    rw [← hct] at hpss
    have hbun : v.bundle = last.bundle := Except.ok.inj (hrdy.sound.parses.symm.trans hpss)
    obtain rfl : v = last := by
      cases v
      cases last
      simp_all
    exact ⟨rfl, hat⟩

theorem continues_commit (hcall : .commit cmd ∈ cs) :
    Continues K cs committed vs w ((Call.commit cmd).script K) := by
  cases hins : ((inspectOrganizationV3 K).run w).2 with
  | error e =>
    exact through_bind.mpr (readOnly_inspectOrganizationV3.through_bind_error hins h nofun)
  | ok i =>
    cases i with
    | ready b c head t =>
      obtain ⟨v, hrdy, rfl, rfl, rfl⟩ := (inspect_ready_iff hK).mp hins
      obtain ⟨hls, hat⟩ := h.ready hK hrdy
      have hrun := hat.through (through_commit_ready (A := Follows K cs) hK hrdy
        fun b h hap => ⟨cmd, b, h, _, hcall, hap, rfl⟩)
      refine hrun.bind ?_
      rintro vs w' r hhe ⟨ph, hat, hph, hcm⟩
      cases r with
      | error e => exact nofun
      | ok reply =>
        cases reply with
        | committed res =>
          refine ⟨hhe, ?_⟩
          rintro _ ⟨⟩
          obtain ⟨b, h, hap, rfl⟩ := hcm res rfl
          refine ⟨admissible_of_apply hap, _, ⟨hat.versions, hat.fitting, ?_⟩, hph⟩
          refine forall_mem_cons.mpr ⟨⟨_, rfl, ?_⟩, hat.committed⟩
          exact mem_append_right _ (mem_singleton.mpr rfl)
        | _ => exact ⟨hhe, nofun⟩
    | _ =>
      exact through_bind.mpr (readOnly_inspectOrganizationV3.through_bind hins ⟨h, nofun⟩)

theorem continues_initializeStore {raw : B} {id : String} (hcall : .initializeStore raw id ∈ cs) :
    Continues K cs committed vs w ((Call.initializeStore raw id).script K) := by
  have hnothing {vs : List (Version B)} {w : World} (h : Held K cs committed vs w) :
      Continues K cs committed vs w (pure none) := ⟨h, nofun⟩
  cases hins : ((inspectOrganizationV3 K).run w).2 with
  | error e =>
    exact through_bind.mpr (readOnly_inspectOrganizationV3.through_bind_error hins h nofun)
  | ok i =>
    cases i with
    | missing =>
      have hmis := inspect_missing_iff.mp hins
      obtain ⟨t, hat, hhl, hrec, -⟩ := h.atRest hmis.atRest
      have hno : vs.getLast? = none :=
        map_eq_none_iff.mp (hhl.controller.symm.trans hmis.controller)
      rw [hno, ← hrec] at hat
      refine (hat.through (through_initializeStore (A := Follows K cs) hK hmis
        fun b hb hid => ⟨raw, id, b, _, hcall, hb, hid, rfl⟩)).bind ?_
      rintro vs w' r hhe -
      cases r with
      | error e => exact nofun
      | ok reply => exact hnothing hhe
    | ready b c head t =>
      exact through_bind.mpr (readOnly_inspectOrganizationV3.through_bind hins ⟨h, hnothing h⟩)
    | _ =>
      exact through_bind.mpr (readOnly_inspectOrganizationV3.through_bind hins ⟨h, nofun⟩)

theorem continues_recover : Continues K cs committed vs w (Call.recover.script K) := by
  have hso : ∀ v ∈ vs, v.Sound K := h.versions.sound hK
  -- Whatever recovery does on the way, it acknowledges no command.
  have hfsh {Q : List (Version B) → World → Except Failure (Recovered B) → Prop}
      (hrun : (recover K).Through (· <+: ·) (Held K cs committed) vs w Q) :
      Continues K cs committed vs w (Call.recover.script K) := by
    refine hrun.bind ?_
    rintro vs w' r hhe -
    cases r with
    | error e => exact nofun
    | ok reply => exact ⟨hhe, nofun⟩
  cases hleg : w.files.legacyMarkers with
  | true =>
    refine hfsh (Q := fun _ _ _ => True) (through_reads_bind ?_)
    refine through_check_bind_error ?_ h trivial
    rw [hleg]
    exact nofun
  | false =>
    rcases h.cases with ⟨transition, hat, hhl, hrec, hrs⟩ | ⟨new, hat, hph⟩ | ⟨vs₀, new,
      rfl, hat, hph⟩
    · refine hfsh (Q := fun _ _ _ => True) (through_recover_atRest hleg ?_ h fun _ => trivial)
      intro t ht
      exact hrs t (hrec ▸ ht)
    · have ⟨_, i, hi, hrec⟩ := hph
      have hnew : new.Succeeds K vs.getLast? := hat.fitting.2.succeeds hK
        fun v hv => hso v (mem_of_getLast? hv)
      exact hfsh (hat.through (through_recover_preparing hK hnew hleg hrec ⟨.refl new.id w, hph⟩))
    · have ⟨_, i, j, hij, hj, hrec⟩ := hph
      have hnew : new.Succeeds K vs₀.getLast? := hat.versions.of_snoc.2.succeeds hK
        fun v hv => hso v (mem_append_left _ (mem_of_getLast? hv))
      exact hfsh (hat.through
        (through_recover_prepared hK hnew hleg hij hj rfl hrec ⟨.refl new.id w, hph⟩))

theorem continues_call {c : Call B C} (hcall : c ∈ cs) :
    Continues K cs committed vs w (c.script K) := by
  cases c with
  | initializeStore raw id => exact continues_initializeStore hK h hcall
  | commit cmd => exact continues_commit hK h hcall
  | recover => exact continues_recover hK h

end Calls

/-! ## What a history has written -/

variable (K) in
/-- What is reported as ready is one of the versions, and knows the commands that were
committed before. -/
def Reported (vs : List (Version B)) (before : List C) (r : Except Failure (Inspection B)) : Prop :=
  ∀ b c head transition, r = .ok (.ready b c head transition) →
    ∃ v ∈ vs, b = v.bundle ∧ c = v.controller ∧ head = K.canonicalHash v.bundle ∧
      ∀ cmd ∈ before, K.commandId cmd ∈ c.appliedCommandIds

variable (K) in
/-- Whatever an inspection still reads, it will report one of the versions. -/
def WillReport (vs : List (Version B)) (reader : Reader B C) : Prop :=
  ∀ vs' cs, vs <+: vs' → Versions K cs vs' → ∀ r,
    reader.script.Sees (fun w => Written vs' w ∧ Knows K reader.before w) r →
      Reported K vs' reader.before r

variable (K) in
/-- The versions of a history. -/
structure Tracks (s : System B C) (vs : List (Version B)) : Prop where
  held : Held K s.calls s.committed vs s.world
  writer : ∀ p ∈ s.writer, Continues K s.calls s.committed vs s.world p
  admissible : ∀ cmd ∈ s.committed, Admissible K cmd
  before : ∀ reader ∈ s.readers, reader.before ⊆ s.committed
  readers : ∀ reader ∈ s.readers, WillReport K vs reader
  reports : ∀ report ∈ s.reports, Reported K vs report.before report.result

theorem Reported.mono {vs' : List (Version B)} {pre : List C}
    {r : Except Failure (Inspection B)} (hvs : vs <+: vs') (h : Reported K vs pre r) :
    Reported K vs' pre r := by
  intro b c head t hr
  obtain ⟨v, hv, hrs⟩ := h b c head t hr
  exact ⟨v, hvs.subset hv, hrs⟩

theorem WillReport.mono {vs' : List (Version B)} {reader : Reader B C} (hvs : vs <+: vs')
    (h : WillReport K vs reader) : WillReport K vs' reader :=
  fun vs'' cs hpfx => h vs'' cs (hvs.trans hpfx)

/-- An inspection that begins. -/
theorem willReport_inspect (hK : K.Lawful) (vs : List (Version B)) (pre : List C) :
    WillReport K vs ⟨inspectOrganizationV3 K, pre⟩ := by
  rintro vs' cs - hvers r hsees b c head transition rfl
  obtain ⟨v, hv, hb, hc, hhe, w, ⟨-, hknows⟩, hctl⟩ :=
    hvers.of_sees_ready hK (fun w hw => hw.1) hsees
  exact ⟨v, hv, hb, hc, hhe, hknows c hctl⟩

theorem Knows.mono {cmds cmds' : List C} (hsubset : cmds ⊆ cmds') (h : Knows K cmds' w) :
    Knows K cmds w :=
  fun c hc cmd hcmd => h c hc cmd (hsubset hcmd)

variable {s s' : System B C}

/-- One step extends the versions of a history. -/
theorem Tracks.step (hK : K.Lawful) (h : Tracks K s vs) (hstp : Step K s s') :
    ∃ vs', vs <+: vs' ∧ Tracks K s' vs' := by
  cases hstp with
  | call c hidle =>
    have hhe := h.held.mono (subset_cons_self c s.calls)
    refine ⟨vs, prefix_rfl, hhe, ?_, h.admissible, h.before, h.readers, h.reports⟩
    rintro p ⟨⟩
    exact continues_call hK hhe mem_cons_self
  | operate hwriter =>
    -- The run says which versions there are after the operation.
    obtain ⟨-, vs', hvs, hnx⟩ := h.writer _ hwriter
    refine ⟨vs', hvs, hnx.start, ?_, h.admissible, h.before,
      fun reader hrdr => (h.readers reader hrdr).mono hvs,
      fun report hrep => (h.reports report hrep).mono hvs⟩
    rintro p ⟨⟩
    exact hnx
  | @finish r hwriter =>
    obtain ⟨hhe, hacknowledges⟩ := h.writer _ hwriter
    refine ⟨vs, prefix_rfl, ?_⟩
    rcases r with e | _ | cmd
    · exact ⟨hhe, nofun, h.admissible, h.before, h.readers, h.reports⟩
    · exact ⟨hhe, nofun, h.admissible, h.before, h.readers, h.reports⟩
    · obtain ⟨hadmissible, hcm⟩ := hacknowledges cmd rfl
      exact ⟨hcm, nofun, forall_mem_cons.mpr ⟨hadmissible, h.admissible⟩,
        fun reader hrdr => Subset.trans (h.before reader hrdr) (subset_cons_self _ _),
        h.readers, h.reports⟩
  | crash => exact ⟨vs, prefix_rfl, h.held, nofun, h.admissible, h.before, h.readers, h.reports⟩
  | inspect =>
    exact ⟨vs, prefix_rfl, h.held, h.writer, h.admissible,
      forall_mem_cons.mpr ⟨Subset.refl _, h.before⟩,
      forall_mem_cons.mpr ⟨willReport_inspect hK vs _, h.readers⟩, h.reports⟩
  | @read before after reader effect next hrds hscr =>
    have hmem : reader ∈ s.readers := by
      rw [hrds]
      exact mem_append_right _ mem_cons_self
    -- What is read now belongs to the versions, so the inspection may have seen it.
    have hrdr : WillReport K vs { reader with script := next s.world } := by
      intro vs' cs hvs hvers r hsees
      refine h.readers reader hmem vs' cs hvs hvers r ?_
      rw [hscr]
      exact ⟨s.world, ⟨h.held.written.mono hvs.subset, h.held.knows.mono (h.before reader hmem)⟩,
        hsees⟩
    have hbf := h.before
    have hrok := h.readers
    rw [hrds, forall_mem_append, forall_mem_cons] at hbf hrok
    refine ⟨vs, prefix_rfl, h.held, h.writer, h.admissible, ?_, ?_, h.reports⟩
    · exact forall_mem_append.mpr ⟨hbf.1, forall_mem_cons.mpr hbf.2⟩
    · exact forall_mem_append.mpr ⟨hrok.1, forall_mem_cons.mpr ⟨hrdr, hrok.2.2⟩⟩
  | @report before after reader r hrds hscr =>
    have hbf := h.before
    have hrok := h.readers
    rw [hrds, forall_mem_append, forall_mem_cons] at hbf hrok
    have hreported : Reported K vs reader.before r := by
      refine hrok.2.1 vs s.calls prefix_rfl h.held.versions r ?_
      rw [hscr]
      exact rfl
    exact ⟨vs, prefix_rfl, h.held, h.writer, h.admissible, forall_mem_append.mpr ⟨hbf.1, hbf.2.2⟩,
      forall_mem_append.mpr ⟨hrok.1, hrok.2.2⟩,
      forall_mem_cons.mpr ⟨hreported, h.reports⟩⟩

theorem Fresh.tracks (h : Fresh s) : Tracks K s [] where
  held := by
    refine ⟨.settled none none, ⟨.nil, rfl, ?_⟩, ⟨h.target, h.controller⟩, h.transition, nofun⟩
    rw [h.committed]
    exact nofun
  writer := by
    rw [h.writer]
    exact nofun
  admissible := by
    rw [h.committed]
    exact nofun
  before := by
    rw [h.readers]
    exact nofun
  readers := by
    rw [h.readers]
    exact nofun
  reports := by
    rw [h.reports]
    exact nofun

/-- Every history has written versions. -/
theorem exists_tracks (hK : K.Lawful) (h₀ : Fresh s) (h : Steps K s s') : ∃ vs, Tracks K s' vs := by
  induction h with
  | refl => exact ⟨[], h₀.tracks⟩
  | tail _ hstp ih =>
    obtain ⟨vs, htr⟩ := ih
    obtain ⟨vs', -, htr'⟩ := htr.step hK hstp
    exact ⟨vs', htr'⟩

/-! ## Undisturbed calls -/

theorem steps_run (p : Op (Option C)) (s : System B C) (h : s.writer = some p) : Steps K s { s with
      world := (p.run s.world).1, writer := some (.done (p.run s.world).2) } := by
  induction p generalizing s with
  | done r =>
    obtain ⟨world, writer, readers, cs, committed, reports⟩ := s
    obtain rfl : writer = some (.done r) := h
    exact .refl
  | op e next ih => exact .head (.operate h) (ih s.world _ rfl)

/-- A call that goes on to its end. -/
theorem steps_call (c : Call B C) (s : System B C) (h : s.writer = none) : Steps K s { s with
      world := ((c.script K).run s.world).1
      calls := c :: s.calls
      committed := acknowledged ((c.script K).run s.world).2 ++ s.committed } := by
  refine .head (.call c h) (.tail (steps_run (c.script K) _ rfl) ?_)
  obtain ⟨world, writer, readers, cs, committed, reports⟩ := s
  obtain rfl : writer = none := h
  exact .finish rfl

theorem steps_after (n : Nat) (p : Op (Option C)) (s : System B C) (h : s.writer = some p) :
    ∃ writer,
    Steps K s { s with world := after n p s.world, writer := writer } := by
  induction n generalizing p s with
  | zero => exact ⟨s.writer, .refl⟩
  | succ n ih =>
    cases p with
    | done r => exact ⟨s.writer, .refl⟩
    | op e next =>
      obtain ⟨writer, hsteps⟩ :=
        ih (next s.world) { s with world := e s.world, writer := some (next s.world) } rfl
      exact ⟨writer, .head (.operate h) hsteps⟩

/-- A call that crashes after so many operations. -/
theorem steps_crash (c : Call B C) (n : Nat) (s : System B C) (h : s.writer = none) :
    Steps K s { s with
      world := after n (c.script K) s.world
      calls := c :: s.calls } := by
  obtain ⟨writer, hsteps⟩ := steps_after (K := K) n (c.script K)
    { s with writer := some (c.script K), calls := c :: s.calls } rfl
  refine .head (.call c h) (.tail hsteps ?_)
  obtain ⟨world, writer, readers, cs, committed, reports⟩ := s
  obtain rfl : writer = none := h
  exact .crash

theorem steps_reader {p : Op (Inspection B)} (hp : p.ReadOnly) (pre : List C)
    (s : System B C) (readers : List (Reader B C)) (h : s.readers = ⟨p, pre⟩ :: readers) :
    Steps K s { s with
      readers := readers, reports := ⟨pre, (p.run s.world).2⟩ :: s.reports } := by
  induction p generalizing s with
  | done r => exact .single (.report (show s.readers = [] ++ _ :: readers from h) rfl)
  | op e next ih =>
    have hst : e s.world = s.world := hp.1 s.world
    have hrun : ((Script.op e next).run s.world).2 = ((next s.world).run s.world).2 := by
      change ((next s.world).run (e s.world)).2 = _
      rw [hst]
    rw [hrun]
    exact .head (.read (show s.readers = [] ++ _ :: readers from h) rfl)
      (ih s.world (hp.2 s.world) _ rfl)

/-- An inspection that nothing disturbs. -/
theorem steps_inspect (s : System B C) : Steps K s { s with
      reports := ⟨s.committed, ((inspectOrganizationV3 K).run s.world).2⟩ :: s.reports } :=
  .head .inspect (steps_reader readOnly_inspectOrganizationV3 s.committed _ s.readers rfl)

/-! ## Exactly once -/

theorem Applies.nodup {b₀ b : B} {ids₀ ids : List String} {cmds : List C}
    (h : Applies K b₀ ids₀ cmds b ids) (h₀ : ids₀.Nodup) : ids.Nodup := by
  induction h with
  | nil => exact h₀
  | snoc _ hap ih =>
    refine concat_eq_append ▸ ih.concat fun hmem => ?_
    -- A command that is in the list already is not applied.
    obtain ⟨cur, -, hap⟩ := bind_eq_ok.mp hap
    obtain ⟨⟨⟩, -, hap⟩ := bind_eq_ok.mp hap
    obtain ⟨⟨⟩, -, hap⟩ := bind_eq_ok.mp hap
    obtain ⟨⟨⟩, -, hap⟩ := bind_eq_ok.mp hap
    rw [if_pos hmem] at hap
    obtain ⟨head, -, hap⟩ := bind_eq_ok.mp hap
    cases hap

/-- A command that is in the list already passes its checks and does nothing. -/
theorem apply_of_mem (hK : K.Lawful) (hv : v.Sound K) (hcmd : Admissible K cmd)
    (hid : K.commandId cmd ∈ v.controller.appliedCommandIds) :
    applyOrganizationControllerCommand K v.bundle cmd v.controller.appliedCommandIds =
      .ok ⟨.alreadyApplied, v.bundle, K.canonicalHash v.bundle⟩ := by
  obtain ⟨hck, hidFor, hshp⟩ := hcmd
  have hb : K.createBundle v.bundle = .ok v.bundle := hv.create hK
  refine bind_eq_ok.mpr ⟨_, hb, bind_eq_ok.mpr ⟨(), hck, ?_⟩⟩
  refine bind_eq_ok.mpr ⟨(), ensure_eq_ok.mpr hidFor, bind_eq_ok.mpr ⟨(), hshp, ?_⟩⟩
  rw [if_pos hid, organizationV3HeadHash_of_create hb]
  rfl

/-- A commit in a store that is not ready does nothing. -/
theorem run_commit_of_not_ready (h : ∀ b c head t,
      ((inspectOrganizationV3 K).run w).2 ≠ .ok (.ready b c head t)) :
    ((commit K cmd).run w).1 = w := by
  have hst : ((inspectOrganizationV3 K).run w).1 = w := readOnly_inspectOrganizationV3.run_state w
  rw [commit, run_bind]
  generalize (inspectOrganizationV3 K).run w = found at h hst ⊢
  obtain ⟨w', r⟩ := found
  obtain rfl : w' = w := hst
  rcases r with e | i
  · rfl
  · cases i with
    | ready b c head t => exact absurd rfl (h b c head t)
    | _ => rfl

/-- A commit of a command that is in the list already says so. -/
theorem run_commit_of_mem (hK : K.Lawful) {t : Option Transition}
    (hrdy : Ready K w v t) (hcmd : Admissible K cmd)
    (hid : K.commandId cmd ∈ v.controller.appliedCommandIds) :
    (commit K cmd).run w =
      (w.tick, .ok (.alreadyApplied v.bundle v.controller (K.canonicalHash v.bundle))) := by
  have hins : (inspectOrganizationV3 K).run w =
      (w, .ok (.ready v.bundle v.controller (K.canonicalHash v.bundle) t)) :=
    Prod.ext (readOnly_inspectOrganizationV3.run_state w) (hrdy.inspect hK)
  rw [commit, run_bind, hins, andThen_ok]
  change (commitReady K cmd _ _ _).run w = _
  rw [commitReady, apply_of_mem hK hrdy.sound hcmd hid]
  rfl

/-- To commit a command that was committed changes no file, and it says so where the store is
ready. -/
theorem Tracks.commit_again (hK : K.Lawful) (h : Tracks K s vs) (hcmd : cmd ∈ s.committed) :
    ((commit K cmd).run s.world).1.files = s.world.files ∧
      ∀ b c head transition, ((inspectOrganizationV3 K).run s.world).2 =
        .ok (.ready b c head transition) → K.commandId cmd ∈ c.appliedCommandIds ∧
          ((commit K cmd).run s.world).2 = .ok (.alreadyApplied b c head) := by
  by_cases hready : ∃ b c head transition,
      ((inspectOrganizationV3 K).run s.world).2 = .ok (.ready b c head transition)
  · obtain ⟨b, c, head, transition, hinspect⟩ := hready
    obtain ⟨v, hready, rfl, rfl, rfl⟩ := (inspect_ready_iff hK).mp hinspect
    have hid : K.commandId cmd ∈ v.controller.appliedCommandIds :=
      h.held.knows _ hready.holds.controller cmd hcmd
    have hrun := run_commit_of_mem hK hready (h.admissible cmd hcmd) hid
    refine ⟨by rw [hrun]; rfl, ?_⟩
    intro b c head transition' hinspect'
    rw [hinspect] at hinspect'
    cases hinspect'
    exact ⟨hid, by rw [hrun]⟩
  · have hnot : ∀ b c head transition,
        ((inspectOrganizationV3 K).run s.world).2 ≠ .ok (.ready b c head transition) :=
      fun b c head transition hinspect => hready ⟨b, c, head, transition, hinspect⟩
    refine ⟨by rw [run_commit_of_not_ready hnot], ?_⟩
    intro b c head transition hinspect
    exact absurd hinspect (hnot b c head transition)

/-- **Commits are atomic and happen once.**  Every version an inspection reports as ready is the
bundle of the one initialization that took effect, with the commands of its list applied once each
in this order.  A command whose commit has returned `committed` is in the list of every later
inspection; to commit it again changes no file, and where the store is ready and the lock can be
taken it returns that the command is applied already. -/
theorem committed_exactly_once (hK : K.Lawful) (s₀ s : System B C) (h₀ : Fresh s₀)
    (h : Steps K s₀ s) :
    ((∀ report ∈ s.reports, ∀ b c head transition,
      report.result ≠ .ok (.ready b c head transition)) ∨
      ∃ raw id₀ b₀, .initializeStore raw id₀ ∈ s.calls ∧ K.createBundle raw = .ok b₀ ∧
        ∀ report ∈ s.reports, ∀ b c head transition,
            report.result = .ok (.ready b c head transition) →
            ∃ commands, (∀ command ∈ commands, .commit command ∈ s.calls) ∧
              c.appliedCommandIds = id₀ :: commands.map K.commandId ∧
              c.appliedCommandIds.Nodup ∧
              Applies K b₀ [id₀] commands b c.appliedCommandIds ∧
              K.revision b = K.revision b₀ + commands.length ∧
              organizationV3HeadHash K b = .ok head ∧
              ∀ command ∈ report.before, K.commandId command ∈ c.appliedCommandIds) ∧
    (s.writer = none → ∀ command ∈ s.committed, ∀ (L : Locks) (pid : Nat) (nonce : Nat → Nonce),
      L.Unused nonce →
        (∀ t result, (withLock pid nonce (commit K command)).Returns ⟨L, s.world⟩ t result →
          t.store.files = s.world.files) ∧
        ∀ b c head transition, ((inspectOrganizationV3 K).run s.world).2 =
          .ok (.ready b c head transition) →
          K.commandId command ∈ c.appliedCommandIds ∧ (L.Free → ∃ t,
            (withLock pid nonce (commit K command)).Returns ⟨L, s.world⟩ t
              (.ok (.alreadyApplied b c head)))) := by
  obtain ⟨vs, htracks⟩ := exists_tracks hK h₀ h
  have hversions : Versions K s.calls vs := htracks.held.versions
  constructor
  · by_cases hne : vs = []
    · -- Nothing is written yet, so nothing is reported.
      left
      intro report hreport b c head transition hresult
      obtain ⟨v, hv, -⟩ := htracks.reports report hreport b c head transition hresult
      rw [hne] at hv
      cases hv
    · right
      obtain ⟨raw, id₀, b₀, hcall, hb₀, happlies⟩ := hversions.applies hne
      refine ⟨raw, id₀, b₀, hcall, hb₀, ?_⟩
      intro report hreport b c head transition hresult
      obtain ⟨v, hv, rfl, rfl, rfl, hbefore⟩ :=
        htracks.reports report hreport b c head transition hresult
      obtain ⟨commands, hcommands, hv'⟩ := happlies v hv
      exact ⟨commands, hcommands, hv'.ids_eq, hv'.nodup (nodup_singleton id₀), hv',
        hv'.revision_eq hK (hK.create_idem hb₀),
        organizationV3HeadHash_of_create ((hversions.sound hK v hv).create hK), hbefore⟩
  · intro hidle command hcommand L pid nonce hnew
    have hacquires := acquires_acquireExclusiveProcessLock pid hnew
    obtain ⟨hfiles, hready⟩ := htracks.commit_again hK hcommand
    refine ⟨fun t result hreturns => ?_, fun b c head transition hinspect => ?_⟩
    · rcases hacquires.store hreturns with hstore | hstore <;> rw [hstore]
      exact hfiles
    · obtain ⟨hmem, hrun⟩ := hready b c head transition hinspect
      refine ⟨hmem, fun hfree => ?_⟩
      obtain ⟨L', -, hreturns⟩ := hacquires.returns hfree (Prod.ext rfl hrun)
      exact ⟨_, hreturns⟩

/-- A store of counters is initialized, a command is committed, and the commit of another command
crashes after so many operations. -/
def crashedWorld (n : Nat) : World :=
  after n ((Call.commit true).script counterKernel) (((Call.commit false).script counterKernel).run
    (((Call.initializeStore (0, 0) "i").script counterKernel).run emptyWorld).1).1

theorem steps_crashedWorld (n : Nat) : ∃ s : System (Nat × Nat) Bool,
    Steps counterKernel ⟨emptyWorld, none, [], [], [], []⟩ s ∧ s.world = crashedWorld n ∧
      s.writer = none ∧ s.committed = [false] ∧ s.reports = [] :=
  ⟨_, ((steps_call (K := counterKernel) (.initializeStore (0, 0) "i")
    ⟨emptyWorld, none, [], [], [], []⟩ rfl).trans (steps_call (.commit false) _ rfl)).trans
      (steps_crash (.commit true) n _ rfl), rfl, rfl, rfl, rfl⟩

/-- The counters and the commands of a store that is ready. -/
def found (w : World) : Option ((Nat × Nat) × List String) :=
  match ((inspectOrganizationV3 counterKernel).run w).2 with
  | .ok (.ready b c _ _) => some (b, c.appliedCommandIds)
  | _ => none

theorem ready_of_found {b : Nat × Nat} {ids : List String} (h : found w = some (b, ids)) :
    ∃ c head transition, ((inspectOrganizationV3 counterKernel).run w).2 =
      .ok (.ready b c head transition) ∧ c.appliedCommandIds = ids := by
  unfold found at h
  split at h
  · rename_i hinspect
    cases h
    exact ⟨_, _, _, hinspect, rfl⟩
  · cases h

/-- After the recovery both commands are reported, and the first is applied already. -/
theorem committed_exactly_once_recovered :
    ∃ s : System (Nat × Nat) Bool, Steps counterKernel ⟨emptyWorld, none, [], [], [], []⟩ s ∧
      s.committed = [false] ∧ s.reports.map (·.before) = [[false]] ∧
      ∃ c head transition, ((inspectOrganizationV3 counterKernel).run s.world).2 =
          .ok (.ready (2, 2) c head transition) ∧ c.appliedCommandIds = ["i", "a", "b"] ∧
        ∃ t, (withLock 2 (· + 4) (commit counterKernel false)).Returns ⟨deadLock, s.world⟩ t
          (.ok (.alreadyApplied (2, 2) c head)) := by
  have hfresh : Fresh (B := Nat × Nat) (C := Bool) ⟨emptyWorld, none, [], [], [], []⟩ :=
    ⟨fun _ => rfl, rfl, rfl, rfl, rfl, rfl, rfl⟩
  have hfound : found (((Call.recover : Call (Nat × Nat) Bool).script counterKernel).run
      (crashedWorld 45)).1 = some ((2, 2), ["i", "a", "b"]) := by decide +kernel
  have hresult : (((Call.recover : Call (Nat × Nat) Bool).script counterKernel).run
      (crashedWorld 45)).2.toOption = some none := by decide +kernel
  obtain ⟨⟨_, _, _, _, _, _⟩, hcrashed, rfl, rfl, rfl, rfl⟩ := steps_crashedWorld 45
  have hsteps := (hcrashed.trans (steps_call .recover _ rfl)).trans (steps_inspect _)
  obtain ⟨c, head, transition, hinspect, hids⟩ := ready_of_found hfound
  rw [toOption_eq_some.mp hresult] at hsteps
  have hagain := (committed_exactly_once counterKernel_lawful _ _ hfresh hsteps).2 rfl false
    mem_cons_self
    deadLock 2 (· + 4) unused_deadLock
  refine ⟨_, hsteps, rfl, rfl, c, head, transition, hinspect, hids, ?_⟩
  exact (hagain.2 (2, 2) c head transition hinspect).2 free_deadLock

/-- Before the recovery the first command, which was committed, is refused. -/
theorem committed_not_alreadyApplied : ∃ s : System (Nat × Nat) Bool,
    Steps counterKernel ⟨emptyWorld, none, [], [], [], []⟩ s ∧ s.writer = none ∧
      false ∈ s.committed ∧
      ∃ t, (withLock 2 (· + 4) (commit counterKernel false)).Returns ⟨deadLock, s.world⟩ t
        (.error (.inr recoveryRequired)) := by
  obtain ⟨⟨_, _, _, _, _, _⟩, hcrashed, rfl, rfl, rfl, rfl⟩ := steps_crashedWorld 45
  have hacquires := acquires_acquireExclusiveProcessLock 2 unused_deadLock
  exact ⟨_, hcrashed, rfl, mem_cons_self, (hacquires.of_free free_deadLock).elim fun _ h =>
    ⟨_, (h.2 _ _).mpr ⟨rfl, rfl⟩⟩⟩

end Orquesta.OrganizationStore
