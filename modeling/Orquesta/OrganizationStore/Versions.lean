import Orquesta.OrganizationStore.Recovery

/-!
# The versions of a history, and reading them while they change

The calls of a history write one version after another: the first is the bundle of an
initialization, and each further one is what a committed command makes of the one before
it.  An inspection by another process reads the files one by one while they change, so
that each file it reads may belong to another version.  If it reports `ready`, then all of
them belong to the same one.

The reason is in the hashes.  The controller names the head of its version, the head of
what was read has to be that head, and the head shows the revision in each part.  Versions
of one history have different revisions, so the parts are those of the controller's
version.

## Main definitions

* `Call`, `Follows`, `Versions`
* `Applies`: commands applied one after another
* `Written`: the files hold parts of versions

## Main results

* `Versions.applies`: every version is the first bundle with commands applied
* `Versions.of_sees_ready`: what an inspection reports as ready is one of the versions
-/

namespace Orquesta.OrganizationStore

open Script Checked List

/-- The calls of the processes that write. -/
inductive Call (B C : Type)
  | initializeStore (rawBundle : B) (commandId : String)
  | commit (command : C)
  | recover

variable {B C : Type} (K : Kernel B C)

/-! ## The versions of a history -/

/-- One of the calls may write the version after the given one. -/
def Follows (calls : List (Call B C)) (old : Option (Version B)) (new : Version B) : Prop :=
  match old with
  | none => ∃ raw id b time, .initializeStore raw id ∈ calls ∧ K.createBundle raw = .ok b ∧
      isCommandId id ∧ new = firstVersion K b id time
  | some v => ∃ command b h time, .commit command ∈ calls ∧
      applyOrganizationControllerCommand K v.bundle command v.controller.appliedCommandIds =
        .ok ⟨.applied, b, h⟩ ∧ new = successor K v command b time

/-- The versions the calls have written, from the first to the last. -/
inductive Versions (calls : List (Call B C)) : List (Version B) → Prop
  | nil : Versions calls []
  | snoc {vs : List (Version B)} {new : Version B} (h : Versions calls vs)
      (hnew : Follows K calls vs.getLast? new) : Versions calls (vs ++ [new])

variable {K} {cs cs' : List (Call B C)} {vs vs' : List (Version B)} {v v' new : Version B}
  {old : Option (Version B)}

theorem Follows.mono (hcls : cs ⊆ cs') (h : Follows K cs old new) :
    Follows K cs' old new := by
  cases old with
  | none =>
    obtain ⟨raw, id, b, t, hmem, hrs⟩ := h
    exact ⟨raw, id, b, t, hcls hmem, hrs⟩
  | some v =>
    obtain ⟨cmd, b, h, t, hmem, hrs⟩ := h
    exact ⟨cmd, b, h, t, hcls hmem, hrs⟩

theorem Versions.mono (hcls : cs ⊆ cs') (h : Versions K cs vs) :
    Versions K cs' vs := by
  induction h with
  | nil => exact .nil
  | snoc _ hnew ih => exact ih.snoc (hnew.mono hcls)

theorem Follows.succeeds (hK : K.Lawful) (hold : ∀ v ∈ old, v.Sound K)
    (h : Follows K cs old new) : new.Succeeds K old := by
  cases old with
  | none =>
    obtain ⟨raw, id, b, t, -, hb, hid, rfl⟩ := h
    exact firstVersion_succeeds hK (hK.create_idem hb) hid t
  | some v =>
    obtain ⟨cmd, b, h, t, -, hap, rfl⟩ := h
    exact successor_succeeds hK (hold v rfl) hap t

theorem Follows.content (h : Follows K cs old new) (t : Target) :
    new.content t = K.bytes t new.bundle := by
  cases old with
  | none =>
    obtain ⟨raw, id, b, time, -, -, -, rfl⟩ := h
    rfl
  | some v =>
    obtain ⟨cmd, b, h, time, -, -, rfl⟩ := h
    rfl

section

variable (hK : K.Lawful) (h : Versions K cs vs)
include hK h

theorem Versions.sound : ∀ v ∈ vs, v.Sound K := by
  induction h with
  | nil => exact nofun
  | snoc _ hnew ih =>
    intro v hv
    rcases mem_append.mp hv with hv | hv
    · exact ih v hv
    · rw [mem_singleton.mp hv]
      exact (hnew.succeeds hK fun v hls => ih v (mem_of_getLast? hls)).sound

omit hK h in
theorem Versions.content (h : Versions K cs vs) :
    ∀ v ∈ vs, ∀ t, v.content t = K.bytes t v.bundle := by
  induction h with
  | nil => exact nofun
  | snoc _ hnew ih =>
    intro v hv
    rcases mem_append.mp hv with hv | hv
    · exact ih v hv
    · rw [mem_singleton.mp hv]
      exact hnew.content

/-- The last version has the greatest revision. -/
theorem Versions.revision_le :
    ∀ v ∈ vs, ∀ last ∈ vs.getLast?, K.revision v.bundle ≤ K.revision last.bundle := by
  induction h with
  | nil => exact nofun
  | @snoc vs new hvs hnew ih =>
    rintro v hv last hls
    obtain rfl : new = last := by simpa using hls
    rcases mem_append.mp hv with hv | hv
    · -- The last of the earlier versions lies between the two.
      obtain ⟨pre, hbf⟩ : ∃ pre, vs.getLast? = some pre :=
        ⟨_, getLast?_eq_some_getLast (ne_nil_of_mem hv)⟩
      have hle := ih v hv pre hbf
      have hsuc := hnew.succeeds hK fun v hls => hvs.sound hK v (mem_of_getLast? hls)
      have hnx := hsuc.revision pre hbf
      omega
    · rw [mem_singleton.mp hv]

theorem Versions.revision_lt (hnew : Follows K cs vs.getLast? new) (hv : v ∈ vs) :
    K.revision v.bundle < K.revision new.bundle := by
  obtain ⟨last, hls⟩ : ∃ last, vs.getLast? = some last :=
    ⟨_, getLast?_eq_some_getLast (ne_nil_of_mem hv)⟩
  have hle := h.revision_le hK v hv last hls
  have hsuc := hnew.succeeds hK fun v hls => h.sound hK v (mem_of_getLast? hls)
  have hnx := hsuc.revision last hls
  omega

/-- A version is known by its revision. -/
theorem Versions.eq_of_revision (hv : v ∈ vs) (hv' : v' ∈ vs)
    (heq : K.revision v.bundle = K.revision v'.bundle) : v = v' := by
  induction h with
  | nil => cases hv
  | @snoc vs new hvs hnew ih =>
    rcases mem_append.mp hv with hv | hv <;> rcases mem_append.mp hv' with hv' | hv'
    · exact ih hv hv'
    · rw [mem_singleton.mp hv'] at heq
      exact absurd heq (hvs.revision_lt hK hnew hv).ne
    · rw [mem_singleton.mp hv] at heq
      exact absurd heq (hvs.revision_lt hK hnew hv').ne'
    · rw [mem_singleton.mp hv, mem_singleton.mp hv']

end

/-! ## Commands applied one after another -/

variable (K) in
/-- The commands, applied once each in this order, lead from the first bundle to the second,
and extend the list of applied commands. -/
inductive Applies (b₀ : B) (ids₀ : List String) : List C → B → List String → Prop
  | nil : Applies b₀ ids₀ [] b₀ ids₀
  | snoc {cmds : List C} {b b' : B} {ids : List String} {command : C} {h : String}
      (hbefore : Applies b₀ ids₀ cmds b ids)
      (happly : applyOrganizationControllerCommand K b command ids = .ok ⟨.applied, b', h⟩) :
      Applies b₀ ids₀ (cmds ++ [command]) b' (ids ++ [K.commandId command])

variable {b₀ b : B} {ids₀ ids : List String} {cmds : List C}

theorem Applies.ids_eq (h : Applies K b₀ ids₀ cmds b ids) : ids = ids₀ ++ cmds.map K.commandId := by
  induction h with
  | nil => simp
  | snoc _ _ ih => simp [ih]

section

variable (hK : K.Lawful) (h : Applies K b₀ ids₀ cmds b ids) (hb₀ : K.createBundle b₀ = .ok b₀)
include hK h hb₀

theorem Applies.created : K.createBundle b = .ok b := by
  induction h with
  | nil => exact hb₀
  | snoc _ hap ih => exact (applied_spec hK ih hap).1

theorem Applies.revision_eq : K.revision b = K.revision b₀ + cmds.length := by
  induction h with
  | nil => rfl
  | snoc hbf hap ih =>
    rw [(applied_spec hK (hbf.created hK hb₀) hap).2.1, ih, length_append]
    rfl

end

/-- Every version is the bundle of one initialization with commands of the history applied. -/
theorem Versions.applies (h : Versions K cs vs) (hne : vs ≠ []) :
    ∃ raw id₀ b₀, .initializeStore raw id₀ ∈ cs ∧ K.createBundle raw = .ok b₀ ∧
      ∀ v ∈ vs, ∃ cmds, (∀ cmd ∈ cmds, .commit cmd ∈ cs) ∧
        Applies K b₀ [id₀] cmds v.bundle v.controller.appliedCommandIds := by
  induction h with
  | nil => exact absurd rfl hne
  | @snoc vs new hvs hnew ih =>
    cases hls : vs.getLast? with
    | none =>
      rw [hls] at hnew
      obtain ⟨raw, id, b, t, hmem, hb, -, rfl⟩ := hnew
      obtain rfl := getLast?_eq_none_iff.mp hls
      refine ⟨raw, id, b, hmem, hb, fun v hv => ?_⟩
      rw [mem_singleton.mp hv]
      exact ⟨[], nofun, .nil⟩
    | some last =>
      have hlastmem := mem_of_getLast? hls
      rw [hls] at hnew
      obtain ⟨cmd, b, h, t, hmem, hap, rfl⟩ := hnew
      obtain ⟨raw, id₀, b₀, hinit, hb₀, hall⟩ := ih (ne_nil_of_mem hlastmem)
      refine ⟨raw, id₀, b₀, hinit, hb₀, fun v hv => ?_⟩
      rcases mem_append.mp hv with hv | hv
      · exact hall v hv
      · obtain ⟨cmds, hcommands, happlies⟩ := hall last hlastmem
        rw [mem_singleton.mp hv]
        refine ⟨cmds ++ [cmd], fun c hc => ?_, happlies.snoc hap⟩
        rcases mem_append.mp hc with hc | hc
        · exact hcommands c hc
        · rw [mem_singleton.mp hc]
          exact hmem

/-! ## Reading while the files change -/

/-- What the files hold are parts of these versions. -/
structure Written (vs : List (Version B)) (w : World) : Prop where
  target : ∀ t, ∀ content ∈ w.files.target t, ∃ v ∈ vs, content = v.content t
  controller : ∀ c ∈ w.files.controller, ∃ v ∈ vs, c = v.controller

theorem Written.mono {w : World} (hvs : vs ⊆ vs') (h : Written vs w) : Written vs' w where
  target := fun t content hct =>
    (h.target t content hct).imp fun _ hv => ⟨hvs hv.1, hv.2⟩
  controller := fun c hc => (h.controller c hc).imp fun _ hv => ⟨hvs hv.1, hv.2⟩

section Sees

variable {P : World → Prop}

theorem sees_present {α : Type} {o : Option α} {e : Failure} {a : α}
    (h : (present o e).Sees P (.ok a)) : o = some a := by
  cases o with
  | none => cases h
  | some a' => exact congrArg some (sees_pure_ok.mp h).symm

theorem sees_readTarget {t : Target} {content : Bytes} (h : (readTarget t).Sees P (.ok content)) :
    ∃ w, P w ∧ w.files.target t = some content := by
  obtain ⟨o, ho, hct⟩ := sees_bind_ok.mp h
  obtain ⟨w, hw, rfl⟩ := sees_reads_ok.mp ho
  exact ⟨w, hw, sees_present hct⟩

variable {c : Controller}

theorem sees_readController (h : (readController K).Sees P (.ok (some c))) :
    ∃ w, P w ∧ w.files.controller = some c := by
  obtain ⟨existing, -, h⟩ := sees_bind_ok.mp h
  cases existing with
  | false => cases sees_pure_ok.mp h
  | true =>
    obtain ⟨o, ho, h⟩ := sees_bind_ok.mp h
    obtain ⟨w, hw, rfl⟩ := sees_reads_ok.mp ho
    obtain ⟨stored, hsd, h⟩ := sees_bind_ok.mp h
    obtain ⟨-, -, h⟩ := sees_bind_ok.mp h
    cases sees_pure_ok.mp h
    exact ⟨w, hw, sees_present hsd⟩

variable {b : B}

theorem sees_readBundle (h : (readBundle K).Sees P (.ok b)) :
    ∃ content : Target → Bytes, (∀ t, ∃ w, P w ∧ w.files.target t = some (content t)) ∧
      (K.parse (content .agents) (content .organization) (content .formations) >>=
        K.createBundle) = .ok b := by
  obtain ⟨agents, hags, h⟩ := sees_bind_ok.mp h
  obtain ⟨organization, horg, h⟩ := sees_bind_ok.mp h
  obtain ⟨formations, hfms, h⟩ := sees_bind_ok.mp h
  refine ⟨Target.rec agents organization formations, fun t => ?_, sees_attempt_ok.mp h⟩
  cases t with
  | agents => exact sees_readTarget hags
  | organization => exact sees_readTarget horg
  | formations => exact sees_readTarget hfms

variable {tr : Option Transition}

/-- An inspection that reports `ready` has read a bundle and a controller that names it. -/
theorem sees_inspectHead {h : String} {tr' : Option Transition}
    (hrdy : (inspectHead K tr).Sees P (.ok (.ready b c h tr'))) :
    (readBundle K).Sees P (.ok b) ∧ (readController K).Sees P (.ok (some c)) ∧
      organizationV3HeadHash K b = .ok h ∧ c.headHash = h := by
  obtain ⟨raw, -, hrdy⟩ := sees_bind_ok.mp hrdy
  obtain ⟨version3, -, hrdy⟩ := sees_bind_ok.mp hrdy
  cases version3 with
  | false => cases sees_pure_ok.mp hrdy
  | true =>
    obtain ⟨bundle, hbun, hrdy⟩ := sees_bind_ok.mp hrdy
    obtain ⟨stored, hsd, hrdy⟩ := sees_bind_ok.mp hrdy
    obtain ⟨head, hhe, hrdy⟩ := sees_bind_ok.mp hrdy
    obtain ⟨ctl, hctl, hrdy⟩ := sees_bind_ok.mp hrdy
    obtain rfl := sees_present hctl
    rcases sees_ite.mp hrdy with ⟨hmatch, hrdy⟩ | ⟨-, hrdy⟩
    · obtain ⟨rfl, rfl, rfl, -, -⟩ := inspectTransition_eq_ready.mp (sees_pure_ok.mp hrdy).symm
      exact ⟨hbun, hsd, sees_attempt_ok.mp hhe, hmatch.2⟩
    · cases sees_pure_ok.mp hrdy

theorem sees_inspectOrganizationV3 {h : String}
    (hrdy : (inspectOrganizationV3 K).Sees P (.ok (.ready b c h tr))) :
    ∃ tr', (inspectHead K tr').Sees P (.ok (.ready b c h tr)) := by
  obtain ⟨agents, -, hrdy⟩ := sees_bind_ok.mp hrdy
  obtain ⟨organization, -, hrdy⟩ := sees_bind_ok.mp hrdy
  obtain ⟨formations, -, hrdy⟩ := sees_bind_ok.mp hrdy
  obtain ⟨ctl, -, hrdy⟩ := sees_bind_ok.mp hrdy
  obtain ⟨tr', -, hrdy⟩ := sees_bind_ok.mp hrdy
  obtain ⟨legacy, -, hrdy⟩ := sees_bind_ok.mp hrdy
  rcases sees_ite.mp hrdy with ⟨-, hrdy⟩ | ⟨-, hrdy⟩
  · cases sees_pure_ok.mp hrdy
  · cases hfil : tr'.filter fun t => t.status ≠ .committed with
    | some t =>
      rw [hfil] at hrdy
      cases sees_pure_ok.mp hrdy
    | none =>
      rw [hfil] at hrdy
      rcases sees_ite.mp hrdy with ⟨-, hrdy⟩ | ⟨-, hrdy⟩
      · obtain ⟨foreign, -, hrdy⟩ := sees_bind_ok.mp hrdy
        cases foreign <;> cases sees_pure_ok.mp hrdy
      · rcases sees_ite.mp hrdy with ⟨-, hrdy⟩ | ⟨-, hrdy⟩
        · exact ⟨tr', hrdy⟩
        · cases sees_pure_ok.mp hrdy

/-- What is reported as ready is one of the versions, however its files were read. -/
theorem Versions.of_sees_ready (hK : K.Lawful) (h : Versions K cs vs)
    (hP : ∀ w, P w → Written vs w) {head : String}
    (hrdy : (inspectOrganizationV3 K).Sees P (.ok (.ready b c head tr))) :
    ∃ v ∈ vs, b = v.bundle ∧ c = v.controller ∧ head = K.canonicalHash v.bundle ∧
      ∃ w, P w ∧ w.files.controller = some c := by
  obtain ⟨tr', hhe⟩ := sees_inspectOrganizationV3 hrdy
  obtain ⟨hbun, hctl, hh, hnm⟩ := sees_inspectHead hhe
  obtain ⟨w, hw, hc⟩ := sees_readController hctl
  obtain ⟨v, hv, rfl⟩ := (hP w hw).controller c hc
  obtain ⟨content, hct, hpss⟩ := sees_readBundle hbun
  have hcre : K.createBundle b = .ok b := by
    obtain ⟨parsed, -, hcrd⟩ := bind_eq_ok.mp hpss
    exact hK.create_idem hcrd
  obtain rfl : K.canonicalHash b = head :=
    Except.ok.inj ((organizationV3HeadHash_of_create hcre).symm.trans hh)
  -- Each part belongs to some version, and the head shows that it is the controller's.
  have hprt : ∀ t, ∃ v' ∈ vs, content t = K.bytes t v'.bundle ∧ content t = v'.content t := by
    intro t
    obtain ⟨w', hw', htg⟩ := hct t
    obtain ⟨v', hv', heq⟩ := (hP w' hw').target t _ htg
    exact ⟨v', hv', heq.trans (h.content v' hv' t), heq⟩
  obtain ⟨v₁, hv₁, hby₁, heq₁⟩ := hprt .agents
  obtain ⟨v₂, hv₂, hby₂, heq₂⟩ := hprt .organization
  obtain ⟨v₃, hv₃, hby₃, heq₃⟩ := hprt .formations
  have hso := h.sound hK
  have hbinds := hpss
  rw [hby₁, hby₂, hby₃] at hbinds
  obtain ⟨hrev₁, hrev₂, hrev₃⟩ := hK.head_binds ((hso v₁ hv₁).create hK)
    ((hso v₂ hv₂).create hK) ((hso v₃ hv₃).create hK) ((hso v hv).create hK) hbinds
    (hnm.symm.trans (hso v hv).headHash)
  obtain rfl := h.eq_of_revision hK hv₁ hv hrev₁
  obtain rfl := h.eq_of_revision hK hv₂ hv₁ hrev₂
  obtain rfl := h.eq_of_revision hK hv₃ hv₂ hrev₃
  have hbun : b = v₃.bundle := by
    rw [heq₁, heq₂, heq₃] at hpss
    exact Except.ok.inj (hpss.symm.trans (hso v₃ hv).parses)
  exact ⟨v₃, hv, hbun, rfl, congrArg _ hbun, w, hw, hc⟩

end Sees

end Orquesta.OrganizationStore
