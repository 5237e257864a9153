import Mathlib.Data.List.Nodup
import Mathlib.Data.Nat.Pairing
import Orquesta.Library.Interference
import Orquesta.ProcessLock.Files

/-!
# Exclusion and reclaim

Any number of processes take and release the lock at once, operation by operation, and any of
them may die between two operations.  `Rely` says what a call can count on as long as its process
is live, and `Guarantee` what a call does itself; what one call guarantees is what every other
one relies on.  A call that has the lock keeps it until it releases it, and the release succeeds.
The lock of a process that died is taken over, unless a process died while it had a claim.

The nonces of a call are its own, a process that is reported dead does nothing any more, and a
number of a process is not used again.

## Main definitions

* `Rely`, `Guarantee`
* `System`, `System.Reached`: calls of several processes, and their histories

## Main results

* `guards_acquire`, `guards_release`: a call keeps to its guarantee
* `System.Safe.begin`, `System.Safe.operate`, `System.Safe.crash`: what every action keeps
* `System.Safe.exclusive`: at most one call has the lock
* `System.Spared.free`: the lock can be taken again
* `exclusion_and_reclaim`
-/

namespace Orquesta.ProcessLock

open Script Function

/-! ## Between two operations -/

/-- A candidate has its own name, and the lock is a candidate that is complete and has its name
still. -/
structure Locks.Tidy (L : Locks) : Prop where
  candidate : ∀ n file, L.entry (.candidate n) = some file → file = .candidate n
  lock : ∀ file, L.entry .lock = some file → ∃ pid n, file = .candidate n ∧
    L.entry (.candidate n) = some file ∧ L.content file = some ⟨pid, n⟩

section Rely

variable (pid : Nat) (own : Set Nonce)

/-- The process is live, and what is written in its files is its own. -/
structure Mine (L : Locks) : Prop where
  live : L.processState pid = .live
  content : ∀ file, file.nonce ∈ own → ∀ metadata ∈ L.content file, metadata.pid = pid
  tidy : L.Tidy

/-- What a call can count on while others act. -/
structure Rely (s t : Locks) : Prop where
  live : s.processState pid = .live → t.processState pid = .live
  dead : ∀ p, s.processState p = .dead → t.processState p = .dead
  content : ∀ file, file.nonce ∈ own → t.content file = s.content file
  tidy : s.Tidy → t.Tidy
  /-- A file of the call gets no name. -/
  named : ∀ path file, file.nonce ∈ own → t.entry path = some file → s.entry path = some file
  /-- A file of the call keeps its names. -/
  kept : Mine pid own s → ∀ path file, file.nonce ∈ own → s.entry path = some file →
    t.entry path = some file
  /-- A file of a dead process stays as it is and gets no name. -/
  left : ∀ file metadata, s.content file = some metadata → s.processState metadata.pid = .dead →
    t.content file = some metadata ∧ ∀ path, t.entry path = some file → s.entry path = some file
  /-- The lock of a dead process that the call has claimed is left to it. -/
  claimed : Mine pid own s → ∀ claim file metadata, claim.nonce ∈ own →
    s.entry (.recovery metadata.nonce) = some claim → s.content file = some metadata →
    s.processState metadata.pid = .dead →
      ∀ path, path = .lock ∨ path = .candidate metadata.nonce → s.entry path = some file →
        t.entry path = some file

/-- What an operation of a call may do to a name. -/
inductive Change (s t : Locks) (path : Path) : Prop
  | none (same : t.entry path = s.entry path)
  /-- The name had and has a file of the call, if any. -/
  | own (before : ∀ file ∈ s.entry path, file.nonce ∈ own)
      (after : ∀ file ∈ t.entry path, file.nonce ∈ own)
  /-- The name was one of a dead process, and the call has claimed its lock. -/
  | dead (file claim : Inode) (metadata : Metadata) (entry : s.entry path = some file)
      (content : s.content file = some metadata) (dead : s.processState metadata.pid = .dead)
      (claimed : s.entry (.recovery metadata.nonce) = some claim) (claim_own : claim.nonce ∈ own)
      (removed : t.entry path = none)

/-- What an operation of a call may do. -/
structure Guarantee (s t : Locks) : Prop where
  processState : t.processState = s.processState
  content : ∀ file, t.content file = s.content file ∨ file.nonce ∈ own
  mine : Mine pid own s → Mine pid own t
  entry : ∀ path, Change own s t path

variable {pid own} {s t u : Locks}

theorem Rely.mine (h : Rely pid own s t) (hs : Mine pid own s) : Mine pid own t where
  live := h.live hs.live
  content file hfile := h.content file hfile ▸ hs.content file hfile
  tidy := h.tidy hs.tidy

/-- Others that change neither files nor names may have processes die. -/
theorem rely_of_eq (hentry : t.entry = s.entry) (hcontent : t.content = s.content)
    (hlive : s.processState pid = .live → t.processState pid = .live)
    (hdead : ∀ p, s.processState p = .dead → t.processState p = .dead) : Rely pid own s t where
  live := hlive
  dead := hdead
  content _ _ := hcontent ▸ rfl
  tidy h := ⟨hentry ▸ h.candidate, hentry ▸ hcontent ▸ h.lock⟩
  named _ _ _ := hentry ▸ id
  kept _ _ _ _ := hentry ▸ id
  left _ _ h _ := ⟨hcontent ▸ h, fun _ => hentry ▸ id⟩
  claimed _ _ _ _ _ _ _ _ _ _ := hentry ▸ id

instance : Std.Refl (Rely pid own) := ⟨fun _ => rely_of_eq rfl rfl id fun _ => id⟩

instance : IsTrans Locks (Rely pid own) where
  trans s t u hst htu :=
    { live := htu.live ∘ hst.live
      dead := fun p hp => htu.dead p (hst.dead p hp)
      content := fun file hfile => (htu.content file hfile).trans (hst.content file hfile)
      tidy := htu.tidy ∘ hst.tidy
      named := fun path file hfile h => hst.named path file hfile (htu.named path file hfile h)
      left := fun file metadata hcontent hdead => by
        obtain ⟨hcontent', hnamed⟩ := hst.left file metadata hcontent hdead
        obtain ⟨hcontent'', hnamed'⟩ := htu.left file metadata hcontent' (hst.dead _ hdead)
        exact ⟨hcontent'', fun path h => hnamed path (hnamed' path h)⟩
      kept := fun hs path file hfile hentry =>
        htu.kept (hst.mine hs) path file hfile (hst.kept hs path file hfile hentry)
      claimed := fun hs claim file metadata hclaim hclaimed hcontent hdead path hpath h =>
        htu.claimed (hst.mine hs) claim file metadata hclaim (hst.kept hs _ claim hclaim hclaimed)
          (hst.left file metadata hcontent hdead).1 (hst.dead _ hdead) path hpath
          (hst.claimed hs claim file metadata hclaim hclaimed hcontent hdead path hpath h) }

instance : Std.Refl (Guarantee pid own) :=
  ⟨fun _ => ⟨rfl, fun _ => .inl rfl, id, fun _ => .none rfl⟩⟩

/-- A file of the call is not that of a dead process. -/
theorem Mine.other (hs : Mine pid own s) {file : Inode} {metadata : Metadata}
    (hcontent : s.content file = some metadata) (hdead : s.processState metadata.pid = .dead) :
    file.nonce ∉ own := fun hown => by
  rw [hs.content file hown metadata hcontent, hs.live] at hdead
  cases hdead

/-- The call names only its own files. -/
theorem Guarantee.named (h : Guarantee pid own s t) (path : Path) {file : Inode}
    (hfile : file.nonce ∉ own) (hentry : t.entry path = some file) :
    s.entry path = some file := by
  cases h.entry path with
  | none same => rw [← same, hentry]
  | own before after => exact absurd (after file hentry) hfile
  | dead file' claim metadata hentry' hcontent hdead hclaimed hclaim removed =>
    cases removed.symm.trans hentry

/-- What one call does is what another one counts on. -/
theorem Guarantee.rely {pid' : Nat} {own' : Set Nonce} (hapart : ∀ n ∈ own, n ∉ own')
    (hs : Mine pid own s) (h : Guarantee pid own s t) : Rely pid' own' s t where
  live := h.processState ▸ id
  dead := h.processState ▸ fun _ => id
  content file hfile := (h.content file).resolve_right fun hown => hapart _ hown hfile
  tidy _ := (h.mine hs).tidy
  named path file hfile := h.named path fun hown => hapart _ hown hfile
  kept hs' path file hfile hentry := by
    cases h.entry path with
    | none same => rw [same, hentry]
    | own before after => exact absurd hfile (hapart _ (before file hentry))
    | dead file' claim metadata hentry' hcontent hdead =>
      cases hentry.symm.trans hentry'
      rw [hs'.content file hfile metadata hcontent, hs'.live] at hdead
      cases hdead
  left file metadata hcontent hdead :=
    have hother := hs.other hcontent hdead
    ⟨((h.content file).resolve_right hother).trans hcontent, fun path => h.named path hother⟩
  claimed hs' claim file metadata hclaim hclaimed hcontent hdead path hpath hentry := by
    cases h.entry path with
    | none same => rw [same, hentry]
    | own before after => exact absurd (before file hentry) (hs.other hcontent hdead)
    | dead file' claim' metadata' hentry' hcontent' hdead' hclaimed' hclaim' =>
      cases hentry.symm.trans hentry'
      cases hcontent.symm.trans hcontent'
      cases hclaimed.symm.trans hclaimed'
      exact absurd hclaim (hapart _ hclaim')

/-- The script, run by the call, keeps to its guarantee. -/
abbrev Keeps (pid : Nat) (own : Set Nonce) {α : Type} (script : Op α) :=
  script.Guards (Rely pid own) (Guarantee pid own)

/-- The death of another process is nothing a call does not count on. -/
theorem rely_die {p : Nat} (hp : p ≠ pid) : Rely pid own s (s.die p) := by
  refine rely_of_eq rfl rfl (fun h => (update_of_ne (Ne.symm hp) ..).trans h) fun q hq => ?_
  by_cases hqp : q = p
  · rw [hqp]
    exact update_self ..
  · exact (update_of_ne hqp ..).trans hq

end Rely

/-! ## The operations of a call -/

section Guards

variable {pid : Nat} {own : Set Nonce} {s : Locks} {path : Path} {file : Inode}
    {metadata : Metadata}

/-- A name may be removed, if it is not that of a candidate that is the lock. -/
theorem guarantee_remove (h : Change own s (s.remove path) path)
    (hlock : ∀ n, path = .candidate n → s.entry .lock ≠ some (.candidate n)) :
    Guarantee pid own s (s.remove path) where
  processState := rfl
  content _ := .inl rfl
  mine hs := by
    have hbefore : ∀ path' file, (s.remove path).entry path' = some file →
        s.entry path' = some file := by
      intro path' file hentry
      by_cases hpath : path' = path
      · simp [Locks.remove, hpath] at hentry
      · exact (update_of_ne hpath ..).symm.trans hentry
    refine ⟨hs.live, hs.content, fun n file h => hs.tidy.candidate n file (hbefore _ _ h), ?_⟩
    intro file hentry
    obtain ⟨p, n, rfl, hcandidate, hcontent⟩ := hs.tidy.lock file (hbefore _ _ hentry)
    refine ⟨p, n, rfl, (update_of_ne (fun hpath => ?_) ..).trans hcandidate, hcontent⟩
    exact hlock n hpath.symm (hbefore _ _ hentry)
  entry path' := by
    by_cases hpath : path' = path
    · exact hpath ▸ h
    · exact .none (update_of_ne hpath ..)

variable (own) in
/-- The files of the call have no names but those of candidates and this one. -/
def Named (name : Option Path) (s : Locks) : Prop :=
  ∀ path file, s.entry path = some file → file.nonce ∈ own → path ∈ name ∨ ∃ n, path = .candidate n

variable {name name' : Option Path}

theorem Named.rely {t : Locks} (h : Named own name s) (hst : Rely pid own s t) :
    Named own name t :=
  fun path file hentry hown => h path file (hst.named path file hown hentry) hown

theorem Named.update {t : Locks} {entry : Option Inode} (h : Named own name s)
    (ht : t.entry = update s.entry path entry)
    (hpath : entry = none ∨ path ∈ name' ∨ ∃ n, path = .candidate n)
    (hname : ∀ path' ∈ name, path' ≠ path → path' ∈ name') : Named own name' t := by
  intro path' file' hentry hown
  rw [ht] at hentry
  by_cases hne : path' = path
  · subst hne
    rw [update_self] at hentry
    exact hpath.resolve_left (by simp [hentry])
  · exact (h path' file' ((update_of_ne hne ..).symm.trans hentry) hown).imp_left
      fun hmem => hname path' hmem hne

variable (pid own) in
/-- Where a call is, between operations. -/
structure At (name : Option Path) (s : Locks) : Prop where
  mine : Mine pid own s
  named : Named own name s

theorem stable_at : Stable (Rely pid own) (At pid own name) :=
  fun _ _ hs hst => ⟨hst.mine hs.mine, hs.named.rely hst⟩

section Own

variable (hfile : file.nonce ∈ own)
include hfile

theorem guarantee_removeOwn (hentry : s.entry path = some file)
    (hlock : ∀ n, path = .candidate n → s.entry .lock ≠ some (.candidate n)) :
    Guarantee pid own s (s.remove path) :=
  guarantee_remove (.own (fun _ h => Option.some.inj (hentry.symm.trans h) ▸ hfile)
    (by simp [Locks.remove])) hlock

theorem guarantee_write : Guarantee pid own s (s.write file ⟨pid, file.nonce⟩) where
  processState := rfl
  content file' := by
    by_cases heq : file' = file
    · exact .inr (heq ▸ hfile)
    · exact .inl (update_of_ne heq ..)
  mine hs := by
    refine ⟨hs.live, fun file' hfile' metadata' hcontent => ?_, hs.tidy.candidate,
      fun file' hlock => ?_⟩
    · by_cases heq : file' = file
      · subst heq
        simp only [Locks.write, update_self, Option.mem_some_iff] at hcontent
        exact hcontent ▸ rfl
      · exact hs.content file' hfile' metadata' ((update_of_ne heq ..).symm.trans hcontent)
    · obtain ⟨p, n, rfl, hcandidate, hcontent⟩ := hs.tidy.lock file' hlock
      by_cases heq : .candidate n = file
      · subst heq
        exact ⟨pid, n, rfl, hcandidate, update_self ..⟩
      · exact ⟨p, n, rfl, hcandidate, (update_of_ne heq ..).trans hcontent⟩
  entry _ := .none rfl

theorem change_of_new {t : Locks} (hentry : s.entry path = none)
    (ht : t.entry = update s.entry path (some file)) (path' : Path) : Change own s t path' := by
  by_cases hpath : path' = path
  · subst hpath
    refine .own (by simp [hentry]) fun file' hfile' => ?_
    rw [ht, update_self, Option.mem_some_iff] at hfile'
    exact hfile' ▸ hfile
  · exact .none (ht ▸ update_of_ne hpath ..)

omit hfile in
theorem guarantee_link {n : Nonce} (hn : n ∈ own) (hlock : s.entry .lock = none)
    (hcandidate : s.entry (.candidate n) = some (.candidate n))
    (hcontent : s.content (.candidate n) = some ⟨pid, n⟩) :
    Guarantee pid own s (s.link .lock (.candidate n)) where
  processState := rfl
  content _ := .inl rfl
  mine hs := by
    refine ⟨hs.live, hs.content, hs.tidy.candidate, fun file' hentry => ?_⟩
    simp only [Locks.link, update_self, Option.some.injEq] at hentry
    exact hentry ▸ ⟨pid, n, rfl, hcandidate, hcontent⟩
  entry := change_of_new hn hlock rfl

theorem guarantee_create (hentry : s.entry path = none) (hpath : path ≠ .lock)
    (hnew : ∀ n, path = .candidate n ↔ file = .candidate n) :
    Guarantee pid own s (s.create path file) where
  processState := rfl
  content file' := by
    by_cases heq : file' = file
    · exact .inr (heq ▸ hfile)
    · exact .inl (update_of_ne heq ..)
  mine hs := by
    refine ⟨hs.live, fun file' hfile' metadata' hcontent => ?_, fun n file' h => ?_,
      fun file' h => ?_⟩
    · by_cases heq : file' = file
      · subst heq
        simp [Locks.create] at hcontent
      · exact hs.content file' hfile' metadata' ((update_of_ne heq ..).symm.trans hcontent)
    · by_cases heq : .candidate n = path
      · simp only [Locks.create, heq, update_self, Option.some.injEq] at h
        exact h ▸ (hnew n).mp heq.symm
      · exact hs.tidy.candidate n file' ((update_of_ne heq ..).symm.trans h)
    · obtain ⟨p, n, rfl, hcandidate, hcontent⟩ :=
        hs.tidy.lock file' ((update_of_ne hpath.symm ..).symm.trans h)
      have hne : .candidate n ≠ path := fun heq => by
        rw [heq, hentry] at hcandidate
        cases hcandidate
      have hnew : .candidate n ≠ file := fun heq => hne ((hnew n).mpr heq.symm).symm
      exact ⟨p, n, rfl, (update_of_ne hne ..).trans hcandidate,
        (update_of_ne hnew ..).trans hcontent⟩
  entry := change_of_new hfile hentry rfl

/-- The file of the call has the name. -/
theorem stable_entry :
    Stable (Rely pid own) fun s => At pid own name s ∧ s.entry path = some file :=
  fun s t h hst => ⟨stable_at s t h.1 hst, hst.kept h.1.mine path file hfile h.2⟩

end Own

theorem guards_openExclusive_bind {α : Type} {f : Bool → Op α} {Q : Locks → Except Failure α → Prop}
    (hcreated : ∀ t, Rely pid own s t → t.entry path = none →
      Guarantee pid own t (t.create path file) ∧
      Keeps pid own (f true) (t.create path file) Q)
    (hexists : ∀ t, Rely pid own s t → Keeps pid own (f false) t Q) :
    Keeps pid own (openExclusive path file >>= f) s Q := by
  intro t hst
  change Guarantee pid own t (if t.entry path = none then _ else _) ∧
    (f (decide (t.entry path = none))).Guards _ _ (if t.entry path = none then _ else _) Q
  by_cases hentry : t.entry path = none
  · rw [if_pos hentry, decide_eq_true hentry]
    exact hcreated t hst hentry
  · rw [if_neg hentry, decide_eq_false hentry]
    exact ⟨refl_of (Guarantee pid own) t, hexists t hst⟩

theorem guards_writeCandidate (path : Path) (name : Option Path) (hfile : file.nonce ∈ own)
    (hpath : path ≠ .lock)
    (hnew : ∀ n, path = .candidate n ↔ file = .candidate n)
    (hname : path ∈ name ∨ ∃ n, path = .candidate n) (hs : At pid own none s) :
    Keeps pid own (writeCandidate path file ⟨pid, file.nonce⟩) s fun t r =>
      (r = .ok false ∧ At pid own none t) ∨ (r = .ok true ∧ At pid own name t ∧
        t.entry path = some file ∧ t.content file = some ⟨pid, file.nonce⟩) := by
  refine guards_openExclusive_bind (fun t hst hentry => ?_) fun t hst => ?_
  · have ht := stable_at s t hs hst
    have hG : Guarantee pid own t (t.create path file) := guarantee_create hfile hentry hpath hnew
    have hstable : Stable (Rely pid own) fun s => At pid own name s ∧ s.entry path = some file :=
      stable_entry hfile
    refine ⟨hG, guards_act_bind fun u htu => ?_⟩
    have hu := hstable _ u ⟨⟨hG.mine ht.mine, ht.named.update rfl (.inr hname) nofun⟩,
      update_self ..⟩ htu
    have hG' : Guarantee pid own u (u.write file ⟨pid, file.nonce⟩) := guarantee_write hfile
    refine ⟨hG', guards_reads_bind fun v huv => ?_⟩
    have hv := hstable _ v ⟨⟨hG'.mine hu.1.mine, hu.1.named⟩, hu.2⟩ huv
    refine guards_check_bind (fun _ => guards_pure fun w hvw => .inr ⟨rfl, ?_⟩) fun hne =>
      absurd hv.2 hne
    obtain ⟨hw, hwentry⟩ := hstable v w hv hvw
    refine ⟨hw, hwentry, ?_⟩
    rw [hvw.content file hfile, huv.content file hfile]
    exact update_self ..
  · exact guards_pure fun u htu => .inl ⟨rfl, stable_at t u (stable_at s t hs hst) htu⟩

theorem guards_unlinkOwned {I J : Locks → Prop} (hI : Stable (Rely pid own) I)
    (hJ : Stable (Rely pid own) J)
    (hs : I s) (hentry : ∀ t, I t → t.entry path = some file)
    (hG : ∀ t, I t → Guarantee pid own t (t.remove path)) (hIJ : ∀ t, I t → J (t.remove path)) :
    Keeps pid own (unlinkOwned path file) s fun t r => J t ∧ r = .ok () := by
  refine guards_reads_bind fun t hst => ?_
  have ht := hI s t hs hst
  refine guards_check_bind (fun _ u htu => ?_) fun hne => absurd (hentry t ht) hne
  have hu := hI t u ht htu
  refine ⟨hG u hu, ?_⟩
  simp only [hentry u hu, reduceCtorEq, if_false]
  exact guards_pure fun v huv => ⟨hJ _ v (hIJ u hu) huv, rfl⟩

/-- What nobody else changes is read. -/
theorem guards_readMetadata {I : Locks → Prop} (hI : Stable (Rely pid own) I) (hs : I s)
    (h : ∀ t, I t → t.entry path = some file ∧ t.content file = some metadata) :
    Keeps pid own (readMetadata path) s fun t r =>
      I t ∧ r = .ok (some (metadata, file)) := by
  refine guards_reads_bind fun t hst => ?_
  have ht := hI s t hs hst
  rw [(h t ht).1]
  refine guards_reads_bind fun u htu => ?_
  have hu := hI t u ht htu
  rw [(h u hu).1, Option.map_some, (h u hu).2]
  refine guards_reads_bind fun v huv => ?_
  have hv := hI u v hu huv
  rw [(h v hv).1]
  exact guards_check_bind (fun _ => guards_pure fun w hvw => ⟨hI v w hv hvw, rfl⟩) fun hne =>
    absurd rfl hne

theorem readOnly_readMetadata : (readMetadata path).ReadOnly := by
  refine (readOnly_reads _).bind fun before => ?_
  cases before with
  | none => exact readOnly_pure _
  | some before =>
    refine (readOnly_reads _).bind fun content => ?_
    rcases content with _ | _ | metadata
    · exact readOnly_pure _
    · trivial
    · refine (readOnly_reads _).bind fun after => ?_
      cases after with
      | none => exact readOnly_pure _
      | some after => exact (readOnly_check _ _).bind fun _ => readOnly_pure _

/-! ### Recovery -/

section Recover

variable {claim : Inode}

variable (pid own metadata claim) in
/-- The call has claimed the lock of a dead process. -/
structure Claims (s : Locks) : Prop extends At pid own (some (.recovery metadata.nonce)) s where
  own : claim.nonce ∈ own
  claimed : s.entry (.recovery metadata.nonce) = some claim
  dead : s.processState metadata.pid = .dead

variable (pid own metadata claim file path) in
/-- Besides, the file of the dead process has the name. -/
structure Names (s : Locks) : Prop where
  claims : Claims pid own metadata claim s
  content : s.content file = some metadata
  entry : s.entry path = some file

theorem stable_claims : Stable (Rely pid own) (Claims pid own metadata claim) := fun s t h hst =>
  ⟨stable_at s t h.toAt hst, h.own, hst.kept h.mine _ claim h.own h.claimed, hst.dead _ h.dead⟩

theorem stable_names (hpath : path = .lock ∨ path = .candidate metadata.nonce) :
    Stable (Rely pid own) (Names pid own path file metadata claim) := by
  rintro s t ⟨hclaims, hcontent, hentry⟩ hst
  exact ⟨stable_claims _ _ hclaims hst, (hst.left file metadata hcontent hclaims.dead).1,
    hst.claimed hclaims.mine claim file metadata hclaims.own hclaims.claimed hcontent hclaims.dead
      path hpath hentry⟩

/-- The candidate of a dead process is there when its lock is gone. -/
theorem stable_unlocked : Stable (Rely pid own) fun s =>
    Names pid own (.candidate metadata.nonce) file metadata claim s ∧ s.entry .lock ≠ some file :=
  fun s t h hst => ⟨stable_names (.inr rfl) s t h.1 hst,
    fun hlock => h.2 ((hst.left file metadata h.1.content h.1.claims.dead).2 .lock hlock)⟩

/-- If the lock of the dead process is read, it is there. -/
theorem guards_readMetadata_claimed (hs : Claims pid own metadata claim s) :
    Keeps pid own (readMetadata .lock) s fun t r =>
      Claims pid own metadata claim t ∧ ∀ file, r = .ok (some (metadata, file)) →
        t.content file = some metadata ∧ t.entry .lock = some file := by
  refine guards_reads_bind fun t hst => ?_
  have ht := stable_claims s t hs hst
  cases t.entry .lock with
  | none => exact guards_pure fun u htu => ⟨stable_claims t u ht htu, nofun⟩
  | some before =>
    refine guards_reads_bind fun u htu => ?_
    have hu := stable_claims t u ht htu
    rcases hread : (u.entry .lock).map u.content with _ | _ | found
    · exact guards_pure fun v huv => ⟨stable_claims u v hu huv, nofun⟩
    · exact guards_fail fun v huv => ⟨stable_claims u v hu huv, nofun⟩
    · obtain ⟨file, hentry, hcontent⟩ := Option.map_eq_some_iff.mp hread
      refine guards_reads_bind fun v huv => ?_
      have hv := stable_claims u v hu huv
      cases hafter : v.entry .lock with
      | none => exact guards_pure fun w hvw => ⟨stable_claims v w hv hvw, nofun⟩
      | some after =>
        refine guards_check_bind
          (fun _ => guards_pure fun w hvw => ⟨stable_claims v w hv hvw, ?_⟩)
          fun _ w hvw => ⟨stable_claims v w hv hvw, nofun⟩
        -- The content is that of the dead process, whose lock stays since it was read.
        rintro file' ⟨⟩
        have hv' := stable_names (.inl rfl) u v ⟨hu, hcontent, hentry⟩ huv
        cases hafter.symm.trans hv'.entry
        have hw := stable_names (.inl rfl) v w hv' hvw
        exact ⟨hw.content, hw.entry⟩

/-- The name of a dead process is removed. -/
theorem Names.remove (h : Names pid own path file metadata claim s)
    (hlock : ∀ n, path = .candidate n → s.entry .lock ≠ some (.candidate n))
    (hpath : .recovery metadata.nonce ≠ path) :
    Guarantee pid own s (s.remove path) ∧ Claims pid own metadata claim (s.remove path) := by
  have hG : Guarantee pid own s (s.remove path) := guarantee_remove (.dead file claim metadata
    h.entry h.content h.claims.dead h.claims.claimed h.claims.own (update_self ..)) hlock
  exact ⟨hG, ⟨hG.mine h.claims.mine, h.claims.named.update rfl (.inl rfl) fun _ hmem _ => hmem⟩,
    h.claims.own, (update_of_ne hpath ..).trans h.claims.claimed, h.claims.dead⟩

theorem Names.removeLock (h : Names pid own .lock file metadata claim s) :
    Guarantee pid own s (s.remove .lock) ∧ Claims pid own metadata claim (s.remove .lock) :=
  h.remove nofun nofun

theorem Names.removeCandidate
    (h : Names pid own (.candidate metadata.nonce) file metadata claim s ∧
      s.entry .lock ≠ some file) :
    Guarantee pid own s (s.remove (.candidate metadata.nonce)) ∧
      Claims pid own metadata claim (s.remove (.candidate metadata.nonce)) := by
  refine h.1.remove ?_ nofun
  rintro _ ⟨⟩ hentry
  exact h.2 (hentry.trans (congrArg some (h.1.claims.mine.tidy.candidate _ _ h.1.entry).symm))

theorem guards_removeDeadLock (hs : Claims pid own metadata claim s) :
    Keeps pid own (removeDeadLock (metadata, file)) s fun t _ =>
      Claims pid own metadata claim t := by
  refine (guards_readMetadata_claimed hs).bind ?_ fun t e h => h.1
  rintro t (_ | current) ⟨ht, hread⟩
  · exact guards_pure (stable_claims t · ht)
  · dsimp only
    by_cases hcurrent : current = (metadata, file)
    · subst hcurrent
      rw [if_neg (not_not_intro rfl)]
      have hlock : Stable (Rely pid own) (Names pid own .lock file metadata claim) :=
        stable_names (.inl rfl)
      refine guards_reads_bind fun u htu => ?_
      have hu := hlock t u ⟨ht, (hread file rfl).1, (hread file rfl).2⟩ htu
      rw [hu.claims.dead]
      refine guards_reads_bind fun v huv => ?_
      have hv := hlock u v hu huv
      refine guards_check_bind (fun hfound => ?_) fun _ w => stable_claims v w hv.claims
      refine (guards_unlinkOwned (hlock.and (stable_names (.inr rfl))) stable_unlocked
        ⟨hv, hv.claims, hv.content, hfound⟩ (fun w hw => hw.1.entry)
        (fun w hw => hw.1.removeLock.1) fun w hw =>
          ⟨⟨hw.1.removeLock.2, hw.1.content, ?_⟩, ?_⟩).bind ?_ fun w e hw => by cases hw.2
      · simpa [Locks.remove] using hw.2.entry
      · simp [Locks.remove]
      · rintro w ⟨⟩ ⟨hw, -⟩
        exact (guards_unlinkOwned stable_unlocked stable_claims hw (fun _ h => h.1.entry)
          (fun _ h => (Names.removeCandidate h).1) fun _ h => (Names.removeCandidate h).2).imp
            fun _ _ h => h.1
    · rw [if_pos hcurrent]
      exact guards_pure (stable_claims t · ht)

end Recover

theorem guards_recoverDeadLock {n : Nonce} (hn : n ∈ own) (hs : At pid own none s) :
    Keeps pid own (recoverDeadLock pid n) s fun t _ => At pid own none t := by
  have hstable : Stable (Rely pid own) (At pid own none) := stable_at
  refine (readOnly_readMetadata.guards hstable hs).bind ?_ fun t e ht => ht
  rintro t (_ | ⟨metadata, file⟩) ht
  · exact guards_pure (hstable t · ht)
  · refine guards_reads_bind fun u htu => ?_
    have hu := hstable t u ht htu
    cases hstate : u.processState metadata.pid with
    | live => exact guards_fail (hstable u · hu)
    | unverifiable => exact guards_fail (hstable u · hu)
    | dead =>
      have hclaim : (Inode.claim n).nonce ∈ own := hn
      refine ((guards_writeCandidate (.recovery metadata.nonce) (some (.recovery metadata.nonce))
        hclaim nofun (by simp) (.inl rfl) hu).and (fun _ _ h hst => hst.dead _ h)
        (fun _ _ h hst => by rwa [hst.processState]) hstate).settle.bind ?_ nofun
      rintro v _ ⟨_, ⟨⟩, ⟨rfl, hv⟩ | ⟨rfl, hv, hentry, -⟩, hdead⟩
      · exact guards_fail (hstable v · hv)
      · refine (guards_removeDeadLock ⟨hv, hclaim, hentry, hdead⟩).settle.bind ?_ nofun
        rintro w _ ⟨_, ⟨⟩, hw⟩
        have hG : ∀ x, Claims pid own metadata (.claim n) x →
            Guarantee pid own x (x.remove (.recovery metadata.nonce)) := fun x hx =>
          guarantee_removeOwn hclaim hx.claimed nofun
        refine (guards_unlinkOwned stable_claims hstable hw (fun _ h => h.claimed) hG
          fun x hx => ⟨(hG x hx).mine hx.mine, hx.named.update rfl (.inl rfl) ?_⟩).bind ?_ nofun
        · exact fun path hmem hne => absurd (Option.some.inj hmem).symm hne
        · rintro x ⟨⟩ ⟨hx, -⟩
          exact fun y hxy => hstable x y hx hxy

/-! ### Acquiring and releasing -/

variable (pid own) in
/-- The call has the lock. -/
structure Has (lock : Lock) (s : Locks) : Prop extends At pid own (some .lock) s where
  own : lock.metadata.nonce ∈ own
  holds : s.Holds lock

theorem Has.details {lock : Lock} (h : Has pid own lock s) : lock.details.nonce ∈ own := by
  rw [h.holds.details]
  exact h.own

theorem stable_has {lock : Lock} : Stable (Rely pid own) (Has pid own lock) := fun s t h hst =>
  ⟨stable_at s t h.toAt hst, h.own, h.holds.details,
    hst.kept h.mine _ _ h.details h.holds.published,
    hst.kept h.mine _ _ h.details h.holds.candidate,
    (hst.content _ h.details).trans h.holds.content⟩

variable (pid own) in
/-- How an acquisition ends. -/
def Acquired (t : Locks) : Except Failure Lock → Prop
  | .ok lock => Has pid own lock t
  | .error _ => At pid own none t

section Attempt

variable {n : Nonce} (hn : n ∈ own)
include hn

theorem guards_linkCandidate (hs : At pid own none s)
    (hentry : s.entry (.candidate n) = some (.candidate n))
    (hcontent : s.content (.candidate n) = some ⟨pid, n⟩) :
    Keeps pid own (linkCandidate n) s fun t r =>
      (r = .ok false ∧ At pid own none t ∧ t.entry (.candidate n) = some (.candidate n)) ∨
        (r = .ok true ∧ Has pid own ⟨⟨pid, n⟩, .candidate n⟩ t) := by
  have hfile : (Inode.candidate n).nonce ∈ own := hn
  intro t hst
  obtain ⟨ht, hentry⟩ := stable_entry hfile s t ⟨hs, hentry⟩ hst
  have hcontent := (hst.content _ hfile).trans hcontent
  simp only [hentry, reduceCtorEq, if_false]
  by_cases hlock : t.entry .lock = none
  · have hG : Guarantee pid own t (t.link .lock (.candidate n)) :=
      guarantee_link hn hlock hentry hcontent
    have hhas : Has pid own ⟨⟨pid, n⟩, .candidate n⟩ (t.link .lock (.candidate n)) :=
      ⟨⟨hG.mine ht.mine, ht.named.update rfl (.inr (.inl rfl)) nofun⟩, hn, rfl,
        by simp [Locks.link], by simpa [Locks.link] using hentry, hcontent⟩
    rw [if_pos hlock, decide_eq_true hlock]
    exact ⟨hG, guards_pure fun u htu => .inr ⟨rfl, stable_has _ u hhas htu⟩⟩
  · rw [if_neg hlock, decide_eq_false hlock]
    exact ⟨refl_of (Guarantee pid own) t, guards_pure fun u htu =>
      .inl ⟨rfl, stable_entry hfile t u ⟨ht, hentry⟩ htu⟩⟩

/-- The candidate of the attempt is removed. -/
theorem guards_unlinkCandidate
    (hs : At pid own none s ∧ s.entry (.candidate n) = some (.candidate n)) :
    Keeps pid own (unlinkOwned (.candidate n) (.candidate n)) s fun t r =>
      At pid own none t ∧ r = .ok () := by
  have hfile : (Inode.candidate n).nonce ∈ own := hn
  have hG : ∀ t, At pid own none t ∧ t.entry (.candidate n) = some (.candidate n) →
      Guarantee pid own t (t.remove (.candidate n)) := by
    refine fun t ht => guarantee_removeOwn hfile ht.2 ?_
    rintro _ ⟨⟩ hlock
    rcases ht.1.named _ _ hlock hn with hname | ⟨_, hname⟩ <;> cases hname
  exact guards_unlinkOwned (stable_entry hfile) stable_at hs (fun _ h => h.2) hG fun t ht =>
    ⟨(hG t ht).mine ht.1.mine, ht.1.named.update rfl (.inl rfl) nofun⟩

end Attempt

theorem guards_acquireAttempts {nonces : List Nonce} (hnonces : ∀ n ∈ nonces, n ∈ own)
    (hs : At pid own none s) :
    Keeps pid own (acquireAttempts pid nonces) s (Acquired pid own) := by
  induction nonces generalizing s with
  | nil => exact guards_fail (stable_at s · hs)
  | cons n rest ih =>
    have hn := hnonces n List.mem_cons_self
    have hrest := fun n hmem => hnonces n (List.mem_cons_of_mem _ hmem)
    have hfile : (Inode.candidate n).nonce ∈ own := hn
    refine (guards_writeCandidate (.candidate n) none hfile nofun (by simp) (.inr ⟨n, rfl⟩)
      hs).bind ?_ nofun
    rintro t _ (⟨⟨⟩, ht⟩ | ⟨⟨⟩, ht, hentry, hcontent⟩)
    · exact ih hrest ht
    · refine (guards_linkCandidate hn ht hentry hcontent).settle.bind ?_ nofun
      rintro u _ ⟨_, ⟨⟩, ⟨rfl, hu⟩ | ⟨rfl, hhas⟩⟩
      · refine (guards_unlinkCandidate hn hu).bind (fun v _ hv => ?_) nofun
        exact (guards_recoverDeadLock hn hv.1).bind (fun w _ hw => ih hrest hw) fun w e hw => hw
      · refine (guards_readMetadata stable_has hhas fun _ h =>
          ⟨h.holds.published, h.holds.content⟩).bind ?_ nofun
        rintro v _ ⟨hv, ⟨⟩⟩
        refine guards_reads_bind fun w hvw => ?_
        have hw := stable_has v w hv hvw
        exact guards_check_bind (fun _ => guards_pure (stable_has w · hw)) fun hne =>
          absurd ⟨rfl, hw.holds.candidate⟩ hne

theorem guards_acquire {nonce : Nat → Nonce} (hnonce : ∀ k, nonce k ∈ own)
    (hs : At pid own none s) :
    Keeps pid own (acquireExclusiveProcessLock pid nonce) s (Acquired pid own) :=
  guards_acquireAttempts (fun _ hn => by obtain ⟨k, -, rfl⟩ := List.mem_map.mp hn; exact hnonce k)
    hs

theorem guards_release {lock : Lock} (hs : Has pid own lock s) :
    Keeps pid own (releaseExclusiveProcessLock lock) s fun t r =>
      At pid own none t ∧ r = .ok () := by
  refine (guards_readMetadata stable_has hs fun _ h =>
    ⟨h.holds.published, h.holds.content⟩).bind ?_ nofun
  rintro t _ ⟨ht, ⟨⟩⟩
  refine (guards_readMetadata stable_has ht fun _ h =>
    ⟨h.holds.candidate, h.holds.content⟩).bind ?_ nofun
  rintro u _ ⟨hu, ⟨⟩⟩
  refine guards_check_bind (fun _ => ?_) fun hne => absurd (by simp) hne
  have hcandidate : Stable (Rely pid own) fun s => At pid own none s ∧
      s.entry (.candidate lock.metadata.nonce) = some lock.details := stable_entry hs.details
  have hG : ∀ v, Has pid own lock v → Guarantee pid own v (v.remove .lock) := fun v hv =>
    guarantee_removeOwn hv.details hv.holds.published nofun
  refine (guards_unlinkOwned stable_has hcandidate hu (fun _ h => h.holds.published) hG fun v hv =>
    ⟨⟨(hG v hv).mine hv.mine, hv.named.update rfl (.inl rfl) ?_⟩,
      by simpa [Locks.remove] using hv.holds.candidate⟩).bind ?_ nofun
  · exact fun path hmem hne => absurd (Option.some.inj hmem).symm hne
  · rintro v _ ⟨hv, -⟩
    rw [hs.holds.details] at hv ⊢
    exact guards_unlinkCandidate hs.own hv

end Guards

/-! ## Calls of several processes -/

variable {τ ε α : Type}

/-- A call of a process; the calls are numbered as they begin. -/
structure Caller (τ ε α : Type) where
  (pid number : Nat)
  call : Call τ ε α

def Call.isReturned : Call τ ε α → Bool
  | .returned _ => true
  | _ => false

/-- What the processes share, and their calls: those under way and those that have returned. -/
structure System (τ ε α : Type) where
  shared : Shared τ
  callers : List (Caller τ ε α)
  begun : Nat

namespace System

/-- No lock was ever taken, and no process is dead. -/
def new (store : τ) : System τ ε α :=
  ⟨⟨noLocks, store⟩, [], 0⟩

/-- A live process begins a call, with the nonces that are drawn for it. -/
def begin (nonce : Nat → Nat → Nonce) (pid : Nat) (call : (Nat → Nonce) → Call τ ε α)
    (system : System τ ε α) : System τ ε α :=
  if system.shared.locks.processState pid = .live then
    { system with
      callers := system.callers ++ [⟨pid, system.begun, call (nonce system.begun)⟩]
      begun := system.begun + 1 }
  else system

/-- A call goes on by one operation. -/
def operate (i : Nat) (system : System τ ε α) : System τ ε α :=
  match system.callers[i]? with
  | none => system
  | some caller =>
    { system with
      shared := (caller.call.step system.shared).2
      callers := system.callers.set i { caller with call := (caller.call.step system.shared).1 } }

/-- A process dies, and with it the calls that it has under way. -/
def crash (pid : Nat) (system : System τ ε α) : System τ ε α :=
  { system with
    shared := { system.shared with locks := system.shared.locks.die pid }
    callers := system.callers.filter fun caller => caller.pid ≠ pid ∨ caller.call.isReturned }

end System

/-! ## Every history -/

section Safe

/-- What is true of a call under way. -/
def Call.Safe (pid : Nat) (own : Set Nonce) (locks : Locks) : Call τ ε α → Prop
  | acquiring script _ => Mine pid own locks ∧ Keeps pid own script locks (Acquired pid own)
  | holding lock _ => Has pid own lock locks
  | releasing script _ => Mine pid own locks ∧
    Keeps pid own script locks fun t r => At pid own none t ∧ r = .ok ()
  | returned _ => Named own none locks

variable {pid : Nat} {own : Set Nonce} {call : Call τ ε α}

theorem Call.Safe.rely {s t : Locks} (h : call.Safe pid own s) (hst : Rely pid own s t) :
    call.Safe pid own t := by
  cases call with
  | acquiring script operation => exact ⟨hst.mine h.1, h.2.rely hst⟩
  | holding lock operation => exact stable_has s t h hst
  | releasing script result => exact ⟨hst.mine h.1, h.2.rely hst⟩
  | returned result => exact Named.rely h hst

/-- An operation of a call is one that others count on. -/
theorem Call.Safe.step {s : Shared τ} (h : call.Safe pid own s.locks) :
    (call.step s).1.Safe pid own (call.step s).2.locks ∧
      ∀ pid' own', (∀ n ∈ own, n ∉ own') → Rely pid' own' s.locks (call.step s).2.locks := by
  have hrefl := refl_of (Rely pid own) s.locks
  have hsame : ∀ pid' own', (∀ n ∈ own, n ∉ own') → Rely pid' own' s.locks s.locks :=
    fun pid' own' _ => refl_of (Rely pid' own') s.locks
  cases call with
  | acquiring script operation =>
    obtain ⟨hs, h⟩ := h
    cases script with
    | done acquired =>
      cases acquired with
      | ok lock => exact ⟨h _ hrefl, hsame⟩
      | error e => exact ⟨(h _ hrefl).named, hsame⟩
    | op effect next =>
      obtain ⟨hG, hnext⟩ := h _ hrefl
      exact ⟨⟨hG.mine hs, hnext⟩, fun _ _ hapart => hG.rely hapart hs⟩
  | holding lock operation =>
    cases operation with
    | done result => exact ⟨⟨h.mine, guards_release h⟩, hsame⟩
    | op effect next => exact ⟨h, hsame⟩
  | releasing script result =>
    obtain ⟨hs, h⟩ := h
    cases script with
    | done released => exact ⟨(h _ hrefl).1.named, hsame⟩
    | op effect next =>
      obtain ⟨hG, hnext⟩ := h _ hrefl
      exact ⟨⟨hG.mine hs, hnext⟩, fun _ _ hapart => hG.rely hapart hs⟩
  | returned result => exact ⟨h, hsame⟩

/-- The file was created. -/
def Locks.HasFile (L : Locks) (file : Inode) : Prop :=
  L.content file ≠ none ∨ ∃ path, L.entry path = some file

variable (nonce : Nat → Nat → Nonce)

/-- What is true of every history. -/
structure System.Safe (system : System τ ε α) : Prop where
  callers : ∀ caller ∈ system.callers, caller.number < system.begun ∧
    caller.call.Safe caller.pid (Set.range (nonce caller.number)) system.shared.locks
  numbers : (system.callers.map Caller.number).Nodup
  tidy : system.shared.locks.Tidy
  /-- Files are created by calls. -/
  created : ∀ file, system.shared.locks.HasFile file →
    ∃ k < system.begun, file.nonce ∈ Set.range (nonce k)

variable {nonce}

theorem mem_set_of_nodup {callers : List (Caller τ ε α)}
    (hnodup : (callers.map Caller.number).Nodup) {i : Nat}
    {caller caller' other : Caller τ ε α} (hi : callers[i]? = some caller)
    (h : other ∈ callers.set i caller') :
    other = caller' ∨ other ∈ callers ∧ other.number ≠ caller.number := by
  obtain ⟨j, hj⟩ := List.mem_iff_getElem?.mp h
  rw [List.getElem?_set] at hj
  split_ifs at hj with hij hlt
  · exact .inl (Option.some.inj hj).symm
  · refine .inr ⟨List.mem_of_getElem? hj, fun hnumber => hij ?_⟩
    have hlt : i < (callers.map Caller.number).length := by
      rw [List.length_map]
      exact (List.getElem?_eq_some_iff.mp hi).1
    refine (List.getElem?_inj hlt hnodup).mp ?_
    rw [List.getElem?_map, List.getElem?_map, hi, hj, Option.map_some, Option.map_some, hnumber]

section

variable {system : System τ ε α} {i : Nat}

theorem System.operate_of_none (hi : system.callers[i]? = none) : system.operate i = system := by
  rw [System.operate, hi]

variable {caller : Caller τ ε α} (hi : system.callers[i]? = some caller)
include hi

theorem System.operate_of_some : system.operate i =
    { system with
      shared := (caller.call.step system.shared).2
      callers := system.callers.set i
        { caller with call := (caller.call.step system.shared).1 } } := by
  rw [System.operate, hi]

theorem System.numbers_operate :
    (system.operate i).callers.map Caller.number = system.callers.map Caller.number := by
  rw [operate_of_some hi]
  obtain ⟨hlt, rfl⟩ := List.getElem?_eq_some_iff.mp hi
  rw [List.map_set, ← List.getElem_map Caller.number, List.set_getElem_self]
  rwa [List.length_map]

end

theorem System.safe_new (store : τ) : (System.new store : System τ ε α).Safe nonce :=
  ⟨nofun, .nil, ⟨nofun, nofun⟩, fun _ h => h.elim (absurd rfl) nofun⟩

theorem range_apart (hnonce : Injective2 nonce) {a b : Nat} (hne : a ≠ b) :
    ∀ n ∈ Set.range (nonce a), n ∉ Set.range (nonce b) := by
  rintro _ ⟨j, rfl⟩ ⟨k, hk⟩
  exact hne (hnonce hk).1.symm

section

variable {system : System τ ε α} (h : system.Safe nonce)
include h

theorem System.Safe.crash (p : Nat) : (system.crash p).Safe nonce where
  callers caller hcaller := by
    obtain ⟨hmem, hleft⟩ := List.mem_filter.mp hcaller
    obtain ⟨hnumber, hsafe⟩ := h.callers caller hmem
    refine ⟨hnumber, ?_⟩
    rcases of_decide_eq_true hleft with hne | hreturned
    · exact hsafe.rely (rely_die hne.symm)
    · cases hcall : caller.call with
      | returned result =>
        rw [hcall] at hsafe
        exact hsafe
      | _ => simp [hcall, Call.isReturned] at hreturned
  numbers := h.numbers.sublist (List.filter_sublist.map _)
  tidy := ⟨h.tidy.candidate, h.tidy.lock⟩
  created := h.created

variable (hnonce : Injective2 nonce)
include hnonce

/-- No file was created by the next call. -/
theorem System.Safe.unused {file : Inode} (hfile : system.shared.locks.HasFile file) :
    file.nonce ∉ Set.range (nonce system.begun) := by
  obtain ⟨k, hk, hnumber⟩ := h.created file hfile
  exact range_apart hnonce hk.ne _ hnumber

theorem System.Safe.begin (p : Nat) {newCall : (Nat → Nonce) → Call τ ε α}
    (hcall : ∀ own nonce' locks, (∀ k, nonce' k ∈ own) → At p own none locks →
      (newCall nonce').Safe p own locks) :
    (system.begin nonce p newCall).Safe nonce := by
  unfold System.begin
  split_ifs with hlive
  · refine ⟨fun caller hcaller => ?_, ?_, h.tidy, fun file hfile => ?_⟩
    · rcases List.mem_append.mp hcaller with hold | hnew
      · exact ⟨Nat.lt_succ_of_lt (h.callers caller hold).1, (h.callers caller hold).2⟩
      · cases List.mem_singleton.mp hnew
        refine ⟨Nat.lt_succ_self _, hcall _ _ _ (fun k => ⟨k, rfl⟩)
          ⟨⟨hlive, fun file hown metadata hcontent => ?_, h.tidy⟩, fun path file hentry hown => ?_⟩⟩
        · exact absurd hown (h.unused hnonce (.inl (Option.ne_none_iff_exists'.mpr ⟨_, hcontent⟩)))
        · exact absurd hown (h.unused hnonce (.inr ⟨path, hentry⟩))
    · rw [List.map_append]
      refine List.nodup_append.mpr ⟨h.numbers, List.pairwise_singleton ..,
        fun number hnumber k hk heq => ?_⟩
      obtain ⟨caller, hcaller, rfl⟩ := List.mem_map.mp hnumber
      cases List.mem_singleton.mp hk
      exact (h.callers caller hcaller).1.ne heq
    · obtain ⟨k, hk, hnumber⟩ := h.created file hfile
      exact ⟨k, Nat.lt_succ_of_lt hk, hnumber⟩
  · exact h

theorem System.Safe.operate (i : Nat) : (system.operate i).Safe nonce := by
  cases hi : system.callers[i]? with
  | none => rwa [operate_of_none hi]
  | some caller =>
    obtain ⟨hnumber, hsafe⟩ := h.callers caller (List.mem_of_getElem? hi)
    obtain ⟨hstep, hrely⟩ := hsafe.step
    have hnumbers := (numbers_operate hi).symm ▸ h.numbers
    rw [operate_of_some hi] at hnumbers ⊢
    refine ⟨fun other hother => ?_, hnumbers, (hrely 0 ∅ fun _ _ => id).tidy h.tidy,
      fun file hfile => ?_⟩
    · rcases mem_set_of_nodup h.numbers hi hother with rfl | ⟨hold, hne⟩
      · exact ⟨hnumber, hstep⟩
      · obtain ⟨hnumber', hsafe'⟩ := h.callers other hold
        exact ⟨hnumber', hsafe'.rely (hrely _ _ (range_apart hnonce hne.symm))⟩
    · by_cases hown : file.nonce ∈ Set.range (nonce caller.number)
      · exact ⟨caller.number, hnumber, hown⟩
      · have hst := hrely 0 {file.nonce} fun _ hmem heq => hown (heq ▸ hmem)
        exact h.created file (hfile.imp (hst.content file rfl ▸ id)
          (Exists.imp fun path => hst.named path file rfl))

/-- At most one call has the lock. -/
theorem System.Safe.exclusive {caller caller' : Caller τ ε α} (hcaller : caller ∈ system.callers)
    (hcaller' : caller' ∈ system.callers) {lock lock' : Lock} {operation operation' : Script τ ε α}
    (hholds : caller.call = .holding lock operation)
    (hholds' : caller'.call = .holding lock' operation') :
    caller.number = caller'.number := by
  have hhas := (h.callers caller hcaller).2
  have hhas' := (h.callers caller' hcaller').2
  rw [hholds] at hhas
  rw [hholds'] at hhas'
  have hsame := hhas.holds.published.symm.trans hhas'.holds.published
  rw [hhas.holds.details, hhas'.holds.details] at hsame
  by_contra hne
  have hnonces : lock.metadata.nonce = lock'.metadata.nonce :=
    Inode.candidate.inj (Option.some.inj hsame)
  exact range_apart hnonce hne _ hhas.own (hnonces ▸ hhas'.own)

end

/-! ## Reclaim -/

/-- A call that is gone: its process is dead, and it has left no claim. -/
structure Gone (own : Set Nonce) (s : Locks) : Prop where
  named : Named own (some .lock) s
  dead : ∀ file, file.nonce ∈ own → ∀ metadata ∈ s.content file,
    s.processState metadata.pid = .dead

theorem Gone.rely {s t : Locks} (h : Gone own s) (hst : Rely pid own s t) : Gone own t where
  named := h.named.rely hst
  dead file hown metadata hcontent :=
    hst.dead _ (h.dead file hown metadata (hst.content file hown ▸ hcontent))

variable (nonce) in
/-- The calls of the process have claimed no lock. -/
def System.Unclaimed (system : System τ ε α) (p : Nat) : Prop :=
  ∀ caller ∈ system.callers, caller.pid = p →
    Named (Set.range (nonce caller.number)) (some .lock) system.shared.locks

variable (nonce) in
/-- A call that has begun and is not there any more is gone. -/
def System.Spared (system : System τ ε α) : Prop :=
  ∀ k < system.begun, k ∉ system.callers.map Caller.number →
    Gone (Set.range (nonce k)) system.shared.locks

theorem Call.Safe.mine {locks : Locks} (h : call.Safe pid own locks)
    (hreturned : ¬ call.isReturned) : Mine pid own locks := by
  cases call with
  | acquiring script operation => exact h.1
  | holding lock operation => exact h.mine
  | releasing script result => exact h.1
  | returned result => exact absurd rfl hreturned

section

variable {system : System τ ε α} (hspared : system.Spared nonce)
include hspared

theorem System.Spared.begin (p : Nat) (newCall : (Nat → Nonce) → Call τ ε α) :
    (system.begin nonce p newCall).Spared nonce := by
  unfold System.begin
  split_ifs
  · intro k hk hgone
    rw [List.map_append, List.mem_append, not_or] at hgone
    exact hspared k (lt_of_le_of_ne (Nat.le_of_lt_succ hk)
      (List.ne_of_not_mem_cons hgone.2)) hgone.1
  · exact hspared

variable (h : system.Safe nonce)
include h

theorem System.Spared.crash {p : Nat} (hclaims : system.Unclaimed nonce p) :
    (system.crash p).Spared nonce := by
  intro k hk hgone
  by_cases hnumber : k ∈ system.callers.map Caller.number
  · obtain ⟨caller, hcaller, rfl⟩ := List.mem_map.mp hnumber
    obtain ⟨hpid, hreturned⟩ := not_or.mp fun hleft : caller.pid ≠ p ∨ caller.call.isReturned =>
      hgone (List.mem_map_of_mem (List.mem_filter.mpr ⟨hcaller, decide_eq_true hleft⟩))
    have hmine := (h.callers caller hcaller).2.mine hreturned
    refine ⟨hclaims caller hcaller (not_not.mp hpid), fun file hfile metadata hcontent => ?_⟩
    rw [hmine.content file hfile metadata hcontent, not_not.mp hpid]
    exact update_self ..
  · exact (hspared k hk hnumber).rely (rely_die (Nat.lt_succ_self p).ne)

variable (hnonce : Injective2 nonce)
include hnonce

theorem System.Spared.operate (i : Nat) : (system.operate i).Spared nonce := by
  cases hi : system.callers[i]? with
  | none => rwa [operate_of_none hi]
  | some caller =>
    have hmem := List.mem_of_getElem? hi
    intro k hk hgone
    rw [numbers_operate hi] at hgone
    rw [operate_of_some hi] at hk ⊢
    have hne : caller.number ≠ k := fun heq => hgone (heq ▸ List.mem_map_of_mem hmem)
    exact (hspared k hk hgone).rely
      ((h.callers caller hmem).2.step.2 0 _ (range_apart hnonce hne))

/-- Once all calls have returned or are gone, the lock can be taken. -/
theorem System.Spared.free (hreturned : ∀ caller ∈ system.callers, caller.call.isReturned) :
    system.shared.locks.Free ∧ system.shared.locks.Unused (nonce system.begun) := by
  -- A file that has a name which is not a candidate's is of a call that is gone.
  have hgone : ∀ path file, system.shared.locks.entry path = some file →
      (∀ n, path ≠ .candidate n) → ∃ own, file.nonce ∈ own ∧ Gone own system.shared.locks := by
    intro path file hentry hpath
    obtain ⟨k, hk, hfile⟩ := h.created file (.inr ⟨path, hentry⟩)
    refine ⟨_, hfile, hspared k hk fun hnumber => ?_⟩
    obtain ⟨caller, hcaller, rfl⟩ := List.mem_map.mp hnumber
    have hsafe := (h.callers caller hcaller).2
    have hcall := hreturned caller hcaller
    cases hcase : caller.call with
    | returned result =>
      rw [hcase] at hsafe
      rcases hsafe path file hentry hfile with hname | ⟨n, hname⟩
      · cases hname
      · exact hpath n hname
    | _ => simp [hcase, Call.isReturned] at hcall
  refine ⟨fun file hlock => ?_, fun k => ?_, fun path file hentry k heq =>
    h.unused hnonce (.inr ⟨path, hentry⟩) ⟨k, heq.symm⟩⟩
  · obtain ⟨p, n, rfl, hcandidate, hcontent⟩ := h.tidy.lock file hlock
    obtain ⟨own, hfile, hown⟩ := hgone _ _ hlock nofun
    refine ⟨⟨p, n⟩, hcontent, hown.dead _ hfile _ hcontent, ?_, hcandidate⟩
    refine Option.eq_none_iff_forall_ne_some.mpr fun claim hclaim => ?_
    obtain ⟨own', hfile', hown'⟩ := hgone _ _ hclaim nofun
    rcases hown'.named _ claim hclaim hfile' with hname | ⟨m, hname⟩ <;> cases hname
  · refine Option.eq_none_iff_forall_ne_some.mpr fun file hentry => ?_
    refine h.unused hnonce (.inr ⟨_, hentry⟩) ⟨k, ?_⟩
    rw [h.tidy.candidate _ file hentry]
    rfl

end

/-- The histories of the calls of any number of processes.  If it `spares`, then no process dies
while it has a claim, and a claim is there only inside `recoverDeadLock`. -/
inductive System.Reached (nonce : Nat → Nat → Nonce) (store : τ) (spares : Prop) :
    System τ ε α → Prop
  | new : Reached nonce store spares (System.new store)
  | call {system : System τ ε α} (pid : Nat) (operation : Script τ ε α)
      (h : Reached nonce store spares system) :
      Reached nonce store spares (system.begin nonce pid (withLock pid · operation))
  | operate {system : System τ ε α} (i : Nat) (h : Reached nonce store spares system) :
      Reached nonce store spares (system.operate i)
  | crash {system : System τ ε α} (pid : Nat) (h : Reached nonce store spares system)
      (hclaims : spares → system.Unclaimed nonce pid) :
      Reached nonce store spares (system.crash pid)

theorem System.Reached.operates {store : τ} {spares : Prop} {system : System τ ε α}
    (h : system.Reached nonce store spares) (i n : Nat) :
    ((System.operate i)^[n] system).Reached nonce store spares := by
  induction n generalizing system with
  | zero => exact h
  | succ n ih => exact ih (h.operate i)

/-- **The lock excludes, and it can be taken again.**  In every history at most one call has the
lock, and the release of a call that had it succeeds.  If no process died while it had a claim,
and no call is under way, then the next call that tries gets the lock. -/
theorem exclusion_and_reclaim {store : τ} {spares : Prop} {system : System τ ε α}
    (hnonce : Injective2 nonce) (hreached : system.Reached nonce store spares) :
    (∀ caller ∈ system.callers, ∀ caller' ∈ system.callers, ∀ lock lock' operation operation',
      caller.call = .holding lock operation → caller'.call = .holding lock' operation' →
        caller = caller') ∧
    (∀ caller ∈ system.callers, ∀ released result,
      caller.call = .releasing (.done released) result → released = .ok ()) ∧
    (spares → (∀ caller ∈ system.callers, caller.call.isReturned) → ∀ pid, ∃ locks lock,
      (acquireExclusiveProcessLock pid (nonce system.begun)).run system.shared.locks =
        (locks, .ok lock)) := by
  obtain ⟨hsafe, hspared⟩ : system.Safe nonce ∧ (spares → system.Spared nonce) := by
    induction hreached with
    | new => exact ⟨System.safe_new store, fun _ => nofun⟩
    | call pid operation h ih =>
      exact ⟨ih.1.begin hnonce pid fun own nonce' locks hown hat =>
        ⟨hat.mine, guards_acquire hown hat⟩, fun hspares => (ih.2 hspares).begin pid _⟩
    | operate i h ih =>
      exact ⟨ih.1.operate hnonce i, fun hspares => (ih.2 hspares).operate ih.1 hnonce i⟩
    | crash pid h hclaims ih =>
      exact ⟨ih.1.crash pid, fun hspares => (ih.2 hspares).crash ih.1 (hclaims hspares)⟩
  refine ⟨fun caller hcaller caller' hcaller' _ _ _ _ hholds hholds' => ?_,
    fun caller hcaller released result hcall => ?_, fun hspares hreturned pid => ?_⟩
  · exact List.inj_on_of_nodup_map hsafe.numbers hcaller hcaller'
      (hsafe.exclusive hnonce hcaller hcaller' hholds hholds')
  · have h := (hsafe.callers caller hcaller).2
    rw [hcall] at h
    exact (h.2 _ (refl_of _ _)).2
  · obtain ⟨hfree, hunused⟩ := (hspared hspares).free hsafe hnonce hreturned
    obtain ⟨locks, lock, hrun, -⟩ := acquire_of_free pid hunused hfree
    exact ⟨locks, lock, hrun⟩

end Safe

/-- Process 1 takes the lock, process 2 finds it taken, and process 1 dies. -/
def deadHolder : System Unit Unit Unit :=
  ((System.operate 1)^[20] (((System.operate 0)^[9] ((System.new ()).begin Nat.pair 1
    (withLock 1 · (pure ())))).begin Nat.pair 2 (withLock 2 · (pure ())))).crash 1

theorem exclusion_and_reclaim_deadHolder :
    deadHolder.shared.locks.entry .lock = some (.candidate (Nat.pair 0 0)) ∧ ∃ locks lock,
      (acquireExclusiveProcessLock 3 (Nat.pair deadHolder.begun)).run deadHolder.shared.locks =
        (locks, .ok lock) := by
  have hreached : deadHolder.Reached Nat.pair () True := by
    refine .crash 1 (.operates (.call 2 _ (.operates (.call 1 _ .new) 0 9)) 1 20) ?_
    rintro - caller - - path file hentry -
    cases path with
    | lock => exact .inl rfl
    | candidate n => exact .inr ⟨n, rfl⟩
    | recovery n => cases hentry
  exact ⟨by decide +kernel, (exclusion_and_reclaim (fun _ _ _ _ h => Nat.pair_eq_pair.mp h)
    hreached).2.2 trivial (by decide +kernel) 3⟩

end Orquesta.ProcessLock
