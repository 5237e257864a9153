import Orquesta.OrganizationStore.Clock
import Orquesta.OrganizationStore.Recovery
import Orquesta.ProcessLock.Files

/-!
# Operations that are interrupted

The process that initializes a store or commits a command stops anywhere, and another
process recovers the store.  Recovery succeeds, and the store holds the version before or
the version after the operation, if and only if the stopping point is `Interruptible` and the lock
of the store can be taken.

Of a change that is being prepared this asks that its staged files are complete.  A
staged file is created under its final name and then written, so a process that stops
while it writes leaves an incomplete one, and that stays so: recovery refuses to delete a
file it does not recognise, and every other operation waits for recovery.  Of the lock it asks that
the process has not stopped while it removed the lock of another dead process: then nobody gets the
lock any more.

## Main definitions

* `Interruptible`
* `Restores`, `Recovers`: the recovery, alone and by a process that takes the lock

## Main results

* `restores_commit_iff`, `restores_initializeStore_iff`, `recovers_iff_interruptible`
-/

namespace Orquesta.OrganizationStore

open Script Checked ProcessLock

variable {B C : Type} {K : Kernel B C} {old : Option (Version B)} {new : Version B}
  {w₀ w : World} {tr : Option Transition} {id : String}

/-- A clock whose readings are dates that do not decrease. -/
structure Steady (K : Kernel B C) (clock : Nat → String) : Prop where
  dates : ∀ n, K.parsesAsDate (clock n)
  order : ∀ {i j}, i ≤ j → ¬ clock j < clock i

/-- The record of an unfinished change has a revision that can be counted, and while the
change is being prepared every staged file has the hash that the record announces. -/
def Interruptible (K : Kernel B C) (w : World) : Prop :=
  ∀ t ∈ w.files.transition, t.status ≠ .committed →
    t.organizationRevision ≤ MAX_SAFE_INTEGER ∧
      (t.status = .preparing → ∀ r ∈ t.targets, ∀ content ∈ w.files.staged t.commandId r.name,
        K.sha256 content = r.sha256)

/-- Recovery succeeds, and an inspection after it finds what is asked. -/
def Restores (K : Kernel B C) (w : World) (expected : Inspection B → Prop) : Prop :=
  (∃ result, ((recover K).run w).2 = .ok result) ∧
    ∃ i, ((inspectOrganizationV3 K).run ((recover K).run w).1).2 = .ok i ∧ expected i

/-! ## The version at rest -/

/-- The store is at rest with the version, or with none. -/
def Rests (K : Kernel B C) (v : Option (Version B)) (w : World) : Prop :=
  match v with
  | none => Missing w
  | some v => ∃ transition, Ready K w v transition

/-- The version is found. -/
def Finds (K : Kernel B C) : Option (Version B) → Inspection B → Prop
  | none, i => i = .missing
  | some v, i => ∃ transition,
    i = .ready v.bundle v.controller (K.canonicalHash v.bundle) transition

theorem Rests.inspect (hK : K.Lawful) (h : Rests K old w) :
    ∃ i, ((inspectOrganizationV3 K).run w).2 = .ok i ∧ Finds K old i := by
  cases old with
  | none => exact ⟨_, inspect_missing_iff.mpr h, rfl⟩
  | some v =>
    obtain ⟨tr, hrdy⟩ := h
    exact ⟨_, hrdy.inspect hK, tr, rfl⟩

theorem Rests.legacyMarkers (h : Rests K old w) : w.files.legacyMarkers = false := by
  cases old with
  | none => exact Missing.legacyMarkers h
  | some v =>
    obtain ⟨tr, hrdy⟩ := h
    exact hrdy.legacyMarkers

/-- As long as the record is the one that was found, or is deleted, the store stays at rest. -/
theorem Rests.settled (h : Rests K old w₀) (hal : Along K id w₀ (.settled old tr) w)
    (htra : tr = w₀.files.transition ∨ tr = none) : Rests K old w := by
  obtain ⟨hhl, hrec, hrs⟩ := hal.phase
  cases old with
  | none =>
    have hmis : Missing w₀ := h
    refine ⟨hal.later.legacyMarkers.trans hmis.legacyMarkers, ?_, hhl.target,
      hhl.controller, hal.later.foreignRuntimeBinding.trans hmis.foreignRuntimeBinding⟩
    intro t ht
    exact hrs t (hrec ▸ ht)
  | some v =>
    obtain ⟨transition₀, hrdy⟩ := h
    refine ⟨tr, hal.later.legacyMarkers.trans hrdy.legacyMarkers, hhl, hrdy.sound,
      hrdy.controllerValid, hrec, fun t ht => ?_⟩
    rcases htra with rfl | rfl
    · exact hrdy.fits t (hrdy.record ▸ ht)
    · cases ht

theorem Rests.atRest (h : Rests K old w) : AtRest w.files := by
  cases old with
  | none => exact Missing.atRest h
  | some v =>
    obtain ⟨tr, hrdy⟩ := h
    exact hrdy.atRest

theorem interruptible_of_atRest (h : AtRest w.files) : Interruptible K w :=
  fun t ht hsts => absurd (h t ht) hsts

variable {exp : Inspection B → Prop}

/-- At rest there is nothing to recover. -/
theorem Rests.restores (hK : K.Lawful) (h : Rests K old w)
    (hex : ∀ i, Finds K old i → exp i) : Restores K w exp := by
  obtain ⟨i, hins, hfinds⟩ := h.inspect hK
  have hrun := run_recover_atRest (K := K) h.legacyMarkers h.atRest
  exact ⟨⟨_, congrArg Prod.snd hrun⟩, i, by rw [hrun]; exact hins, hex i hfinds⟩

theorem Rests.restores_iff (hK : K.Lawful) (h : Rests K old w) (hex : ∀ i, Finds K old i → exp i) :
    Restores K w exp ↔ Interruptible K w :=
  iff_of_true (h.restores hK hex) (interruptible_of_atRest h.atRest)

/-! ## The phases of one change -/

section Change

variable (hK : K.Lawful) (hclock : Steady K w.clock) (hnew : new.Succeeds K old)
  (hdt : K.parsesAsDate new.controller.updatedAt)
  (hold : ∀ v ∈ old, K.parsesAsDate v.controller.updatedAt)

include hK hclock hnew hdt hold

theorem validate_proposal_iff (i : Nat) :
    validateTransition K (proposal K old new (w.clock i)) = .ok () ↔
      K.revision new.bundle ≤ MAX_SAFE_INTEGER := by
  rw [(records_proposal K old new _).validateTransition_iff hK hnew hdt hold
    ⟨hclock.dates i, fun _ => rfl, fun hne => absurd rfl hne, fun _ => rfl, nofun⟩]
  exact and_iff_left ⟨Bool.false_ne_true, Bool.false_ne_true⟩

theorem validate_staged_iff {i j : Nat} (hij : i ≤ j) :
    validateTransition K ((proposal K old new (w.clock i)).staged (w.clock j)) = .ok () ↔
      K.revision new.bundle ≤ MAX_SAFE_INTEGER := by
  rw [((records_proposal K old new _).staged _).validateTransition_iff hK hnew hdt hold
    ⟨hclock.dates i, nofun, fun _ => hclock.dates j, fun _ => rfl, nofun⟩]
  refine and_iff_left ⟨?_, Bool.false_ne_true⟩
  simpa [Transition.staged, proposal, isBefore] using hclock.order hij

theorem validate_commit_iff {i j k : Nat} (hij : i ≤ j) (hjk : j ≤ k) : validateTransition K
        (((proposal K old new (w.clock i)).staged (w.clock j)).commit (w.clock k)) = .ok () ↔
      K.revision new.bundle ≤ MAX_SAFE_INTEGER := by
  rw [(((records_proposal K old new _).staged _).commit _).validateTransition_iff hK hnew hdt hold
    ⟨hclock.dates i, nofun, fun _ => hclock.dates j, fun hne => absurd rfl hne,
      fun _ => hclock.dates k⟩]
  refine and_iff_left ⟨?_, ?_⟩
  · simpa [Transition.staged, Transition.commit, proposal, isBefore] using hclock.order hij
  · simpa [Transition.staged, Transition.commit, proposal, isBefore] using hclock.order hjk

/-- A finished change leaves the store at rest with the new version. -/
theorem rests_of_finished (hleg : w.files.legacyMarkers = false)
    (h : InPhase K (.finished old new) w) : Rests K (some new) w := by
  obtain ⟨hhl, i, j, k, hij, hjk, -, hval, hrec⟩ := h
  have hrev := (validate_staged_iff hK hclock hnew hdt hold hij).mp hval
  refine ⟨_, hleg, hhl, hnew.sound, (hnew.sound.validateController_iff hK hdt).mpr hrev, hrec, ?_⟩
  rintro t ⟨⟩
  exact ⟨(validate_commit_iff hK hclock hnew hdt hold hij hjk).mpr hrev, rfl, rfl, rfl, rfl⟩

variable (hrests : Rests K old w₀) {exp : Inspection B → Prop}
  (hex : ∀ i, Finds K old i ∨ Finds K (some new) i → exp i)

include hrests hex

/-- A change that is being prepared is given up if its staged files are complete. -/
theorem restores_iff_of_preparing (h : Along K new.id w₀ (.preparing old new) w) :
    Restores K w exp ↔ Interruptible K w := by
  obtain ⟨-, i, -, hrec⟩ := h.phase
  have hleg : w.files.legacyMarkers = false := h.later.legacyMarkers.trans hrests.legacyMarkers
  -- What recovery asks is what the record says.
  have hcon : (validateTransition K (proposal K old new (w.clock i)) = .ok () ∧
      StagedRight K new w) ↔ Interruptible K w := by
    rw [validate_proposal_iff hK hclock hnew hdt hold]
    constructor
    · rintro ⟨hrev, hsg⟩ t ht -
      obtain rfl : proposal K old new (w.clock i) = t := Option.some.inj (hrec.symm.trans ht)
      refine ⟨hrev, fun _ r hr => ?_⟩
      obtain ⟨n, -, rfl⟩ := List.mem_map.mp hr
      exact hsg n
    · intro hint
      obtain ⟨hrev, hsg⟩ := hint _ hrec nofun
      exact ⟨hrev, fun n =>
        hsg rfl (record K old new n) (List.mem_map_of_mem (mem_TARGET_NAMES n))⟩
  rw [← hcon]
  obtain ⟨ph, -, hal, ⟨hcnd, rfl, hres⟩ | ⟨hcnd, e, hres⟩⟩ :=
    (through_recover_preparing (A := fun _ _ => True) hK hnew hleg hrec h).run
  · refine iff_of_true ⟨hres, ?_⟩ hcnd
    obtain ⟨found, hins, hfinds⟩ := (hrests.settled hal (.inr rfl)).inspect hK
    exact ⟨found, hins, hex found (.inl hfinds)⟩
  · refine iff_of_false ?_ hcnd
    rintro ⟨⟨res, hok⟩, -⟩
    rw [hres] at hok
    cases hok

/-- A prepared change is finished. -/
theorem restores_iff_of_prepared (h : Along K new.id w₀ (.prepared old new) w) :
    Restores K w exp ↔ Interruptible K w := by
  obtain ⟨-, i, j, hij, hj, hrec⟩ := h.phase
  have hleg : w.files.legacyMarkers = false := h.later.legacyMarkers.trans hrests.legacyMarkers
  have hcon : validateTransition K ((proposal K old new (w.clock i)).staged (w.clock j)) =
      .ok () ↔ Interruptible K w := by
    rw [validate_staged_iff hK hclock hnew hdt hold hij]
    constructor
    · rintro hrev t ht -
      obtain rfl : (proposal K old new (w.clock i)).staged (w.clock j) = t :=
        Option.some.inj (hrec.symm.trans ht)
      exact ⟨hrev, nofun⟩
    · exact fun hint => (hint _ hrec nofun).1
  rw [← hcon]
  obtain ⟨ph, -, hal, ⟨hcnd, rfl, -, hres⟩ | ⟨hcnd, e, hres⟩⟩ :=
    (through_recover_prepared (A := fun _ _ => True) hK hnew hleg hij hj rfl hrec h).run
  · refine iff_of_true ⟨hres, ?_⟩ hcnd
    have hsteady : Steady K ((recover K).run w).1.clock := by
      rw [hal.later.clock, ← h.later.clock]
      exact hclock
    obtain ⟨found, hins, hfinds⟩ := (rests_of_finished hK hsteady hnew hdt hold
      (hal.later.legacyMarkers.trans hrests.legacyMarkers) hal.phase).inspect hK
    exact ⟨found, hins, hex found (.inr hfinds)⟩
  · refine iff_of_false ?_ hcnd
    rintro ⟨⟨res, hok⟩, -⟩
    rw [hres] at hok
    cases hok

end Change

/-- Wherever a change is interrupted, recovery leads to the version before or after it if and
only if the stopping point is interruptible. -/
theorem restores_iff_of_reaches (hK : K.Lawful) (hclock : Steady K w.clock)
    (hrests : Rests K old w₀) {A : Option (Version B) → Version B → Prop} {ph : Phase B}
    (hreaches : Phase.Reaches A (.settled old w₀.files.transition) ph)
    (hA : ∀ new, A old new → new.id = id ∧ new.Succeeds K old ∧
      K.parsesAsDate new.controller.updatedAt)
    (hold : ∀ v ∈ old, K.parsesAsDate v.controller.updatedAt)
    (hal : Along K id w₀ ph w) (hex : ∀ i, Finds K old i → exp i)
    (hex' : ∀ new, A old new → ∀ i, Finds K (some new) i → exp i) :
    Restores K w exp ↔ Interruptible K w := by
  rcases hreaches.of_settled with rfl | rfl | ⟨new, hbg, hph⟩
  · exact (hrests.settled hal (.inl rfl)).restores_iff hK hex
  · exact (hrests.settled hal (.inr rfl)).restores_iff hK hex
  · obtain ⟨rfl, hnew, hdt⟩ := hA new hbg
    have hboth : ∀ i, Finds K old i ∨ Finds K (some new) i → exp i := fun i =>
      Or.rec (hex i) (hex' new hbg i)
    rcases hph with rfl | rfl | rfl
    · exact restores_iff_of_preparing hK hclock hnew hdt hold hrests hboth hal
    · exact restores_iff_of_prepared hK hclock hnew hdt hold hrests hboth hal
    · exact (rests_of_finished hK hclock hnew hdt hold
        (hal.later.legacyMarkers.trans hrests.legacyMarkers) hal.phase).restores_iff hK
        (hex' new hbg)

/-! ## Interrupted operations -/

/-- What may be found after a command was committed to the bundle, or was not. -/
def AfterCommit (K : Kernel B C) (b : B) (ids : List String) (command : C) (i : Inspection B) :
    Prop :=
  ∃ b' c h transition, i = .ready b' c h transition ∧
    (b' = b ∨ ∃ h, applyOrganizationControllerCommand K b command ids = .ok ⟨.applied, b', h⟩)

/-- What may be found after the store was initialized with the bundle, or was not. -/
def AfterInitialize (K : Kernel B C) (raw : B) (i : Inspection B) : Prop :=
  i = .missing ∨ ∃ b c h transition, i = .ready b c h transition ∧ K.createBundle raw = .ok b

/-- Wherever the commit of a command to a store that is ready stops, recovery leads to the store
before or after it if and only if the stopping point is interruptible. -/
theorem restores_commit_iff (hK : K.Lawful) (hclock : Steady K w.clock) {cmd : C} {b : B}
    {c : Controller}
    {h : String} {tr : Option Transition} {t : World}
    (hinspect : ((inspectOrganizationV3 K).run w).2 = .ok (.ready b c h tr))
    (hstops : (commit K cmd).Stops w t) :
    Restores K t (AfterCommit K b c.appliedCommandIds cmd) ↔ Interruptible K t := by
  obtain ⟨v, hready, rfl, rfl, rfl⟩ := (inspect_ready_iff hK).mp hinspect
  let A : Option (Version B) → Version B → Prop := fun old new => ∃ b h,
    applyOrganizationControllerCommand K v.bundle cmd v.controller.appliedCommandIds =
      .ok ⟨.applied, b, h⟩ ∧ old = some v ∧ new = committedVersion K w v cmd b
  obtain ⟨phase, hreaches, halong⟩ := (through_commit_ready (A := A) hK hready
    fun b h happly => ⟨b, h, happly, rfl, rfl⟩).stops hstops
  have hrests : Rests K (some v) w := ⟨tr, hready⟩
  refine restores_iff_of_reaches hK (halong.later.clock ▸ hclock) hrests
    (hready.record.symm ▸ hreaches) ?_ ?_ halong ?_ ?_
  · rintro new ⟨b, h, happly, -, rfl⟩
    exact ⟨rfl, successor_succeeds hK hready.sound happly _, hclock.dates _⟩
  · rintro v' ⟨⟩
    exact hready.parsesAsDate
  · rintro i ⟨transition', rfl⟩
    exact ⟨_, _, _, _, rfl, .inl rfl⟩
  · rintro new ⟨b, h, happly, -, rfl⟩ i ⟨transition', rfl⟩
    exact ⟨_, _, _, _, rfl, .inr ⟨h, happly⟩⟩

theorem restores_initializeStore_iff (hK : K.Lawful) (hclock : Steady K w.clock) {raw : B}
    {id : String}
    {t : World} (hinspect : ((inspectOrganizationV3 K).run w).2 = .ok .missing)
    (hstops : (initializeStore K raw id).Stops w t) :
    Restores K t (AfterInitialize K raw) ↔ Interruptible K t := by
  have hmissing := inspect_missing_iff.mp hinspect
  have hrests : Rests K none w := hmissing
  let A : Option (Version B) → Version B → Prop := fun old new => ∃ b,
    K.createBundle raw = .ok b ∧ isCommandId id ∧ old = none ∧
    new = firstVersion K b id (w.clock w.ticks)
  obtain ⟨phase, hreaches, halong⟩ := (through_initializeStore (A := A) hK hmissing
    fun b hb hid => ⟨b, hb, hid, rfl, rfl⟩).stops hstops
  refine restores_iff_of_reaches hK (halong.later.clock ▸ hclock) hrests hreaches ?_ nofun halong
    (fun i => .inl) ?_
  · rintro new ⟨b, hb, hid, -, rfl⟩
    exact ⟨rfl, firstVersion_succeeds hK (hK.create_idem hb) hid _, hclock.dates _⟩
  · rintro new ⟨b, hb, -, -, rfl⟩ i ⟨transition', rfl⟩
    exact .inr ⟨_, _, _, _, rfl, hb⟩

/-! ## Recovery by another process -/

/-- The process takes the lock and recovers the store, and an inspection after it finds what is
asked. -/
def Recovers (K : Kernel B C) (pid : Nat) (nonce : Nat → Nonce) (s : Shared World)
    (expected : Inspection B → Prop) : Prop :=
  ∃ t result i, (withLock pid nonce (recover K)).Returns s t (.ok result) ∧
    ((inspectOrganizationV3 K).run t.store).2 = .ok i ∧ expected i

theorem recovers_iff {L : Locks} {pid : Nat} {nonce : Nat → Nonce} (hnew : L.Unused nonce) :
    Recovers K pid nonce ⟨L, w⟩ exp ↔ L.Free ∧ Restores K w exp := by
  have hacquires := acquires_acquireExclusiveProcessLock pid hnew
  constructor
  · rintro ⟨t, result, i, hreturns, hinspect, hi⟩
    obtain ⟨hfree, -, hrun⟩ := hacquires.of_returns hreturns
    refine ⟨hfree, ⟨result, ?_⟩, i, ?_, hi⟩ <;> rw [hrun]
    exact hinspect
  · rintro ⟨hfree, ⟨result, hrun⟩, i, hinspect, hi⟩
    obtain ⟨L', -, hreturns⟩ := hacquires.returns hfree (Prod.ext rfl hrun)
    exact ⟨_, result, i, hreturns, hinspect, hi⟩

/-- **When an interrupted operation can be recovered.**  Wherever the process stops that commits a
command to a store that is ready, or initializes one that is missing, recovery by another process
succeeds and leads to the store before or after the operation if and only if the stopping point is
interruptible and the lock can be taken. -/
theorem recovers_iff_interruptible (hK : K.Lawful) (w : World) (hclock : Steady K w.clock)
    (L L' : Locks)
    (pid pid' : Nat) (nonce nonce' : Nat → Nonce) (hnew : (L'.die pid).Unused nonce') :
    (∀ (command : C) (b : B) (c : Controller) (h : String) (transition : Option
      Transition) (t : World),
      ((inspectOrganizationV3 K).run w).2 = .ok (.ready b c h transition) →
      (withLock pid nonce (commit K command)).Stops ⟨L, w⟩ ⟨L', t⟩ →
      (Recovers K pid' nonce' ⟨L'.die pid, t⟩ (AfterCommit K b c.appliedCommandIds command) ↔
        (L'.die pid).Free ∧ Interruptible K t)) ∧
    ∀ (raw : B) (id : String) (t : World), ((inspectOrganizationV3 K).run w).2 = .ok .missing →
      (withLock pid nonce (initializeStore K raw id)).Stops ⟨L, w⟩ ⟨L', t⟩ →
      (Recovers K pid' nonce' ⟨L'.die pid, t⟩ (AfterInitialize K raw) ↔
        (L'.die pid).Free ∧ Interruptible K t) := by
  constructor
  · intro command b c h transition t hinspect hstops
    rw [recovers_iff hnew, restores_commit_iff hK hclock hinspect hstops.operation]
  · intro raw id t hinspect hstops
    rw [recovers_iff hnew, restores_initializeStore_iff hK hclock hinspect hstops.operation]

/-- A store of counters before its first version. -/
def emptyWorld : World where
  files := ⟨fun _ => none, none, none, fun _ _ => none, false, false⟩
  clock := fun _ => "0"
  ticks := 0

/-- What process 1 has made of the store after so many operations of its call. -/
def stopped {α : Type} (operation : Op α) (w : World) (n : Nat) : World :=
  ((withLock 1 (fun k => k) operation).after n ⟨noLocks, w⟩).2.store

/-- A commit that stops after it has moved its first file, and an initialization that stops
after it has written its first record. -/
theorem recovers_halfway :
    Recovers counterKernel 2 (· + 4)
        ⟨deadLock, stopped (commit counterKernel false) (counterWorld fun _ => "0") 53⟩
        (AfterCommit counterKernel (0, 0) ["i"] false) ∧
      Recovers counterKernel 2 (· + 4)
        ⟨deadLock, stopped (initializeStore counterKernel (0, 0) "i") emptyWorld 24⟩
        (AfterInitialize counterKernel (0, 0)) := by
  have hsteady : Steady counterKernel fun _ => "0" := ⟨fun _ => rfl, fun _ => lt_irrefl _⟩
  constructor
  · refine ((recovers_iff_interruptible counterKernel_lawful
      (counterWorld fun _ => "0") hsteady noLocks (noLocks.taken 1 0) 1 2 (fun k => k) (· + 4)
      unused_deadLock).1 false (0, 0)
      ⟨0, byteText [0, 0], ["i"], "i", ""⟩ _ _ _ rfl ⟨53, rfl⟩).mpr ⟨free_deadLock, ?_⟩
    rintro t ⟨⟩ -
    exact ⟨by decide, nofun⟩
  · refine ((recovers_iff_interruptible counterKernel_lawful emptyWorld hsteady noLocks
      (noLocks.taken 1 0) 1 2 (fun k => k) (· + 4) unused_deadLock).2 (0, 0) "i" _ rfl
      ⟨24, rfl⟩).mpr ⟨free_deadLock, ?_⟩
    rintro t ⟨⟩ -
    exact ⟨by decide, fun _ r _ content hcontent => nomatch hcontent⟩

/-- A commit that stops after it has written the first byte of a staged file cannot be
recovered, though the lock can be taken. -/
theorem not_recovers_cutOff :
    ((inspectOrganizationV3 counterKernel).run (counterWorld fun _ => "0")).2 =
        .ok (.ready (0, 0) ⟨0, byteText [0, 0], ["i"], "i", ""⟩ (byteText [0, 0]) none) ∧
      (withLock 1 (fun k => k) (commit counterKernel false)).Stops
        ⟨noLocks, counterWorld fun _ => "0"⟩
        ⟨noLocks.taken 1 0, stopped (commit counterKernel false) (counterWorld fun _ => "0") 32⟩ ∧
      deadLock.Free ∧
      ¬ Recovers counterKernel 2 (· + 4)
        ⟨deadLock, stopped (commit counterKernel false) (counterWorld fun _ => "0") 32⟩
        (AfterCommit counterKernel (0, 0) ["i"] false) := by
  refine ⟨rfl, ⟨32, rfl⟩, free_deadLock, fun h => ?_⟩
  obtain ⟨-, ⟨result, hok⟩, -⟩ := (recovers_iff unused_deadLock).mp h
  have hfails : ((recover counterKernel).run
      (stopped (commit counterKernel false) (counterWorld fun _ => "0") 32)).2 =
        .error ⟨"ORGANIZATION_STORE_RECOVERY_INCOMPLETE",
          "Staged target hash mismatch: agents.json"⟩ := rfl
  rw [hfails] at hok
  cases hok

end Orquesta.OrganizationStore
