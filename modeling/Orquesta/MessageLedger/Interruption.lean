import Mathlib.Logic.Equiv.List
import Mathlib.Tactic.DeriveEncodable
import Orquesta.MessageLedger.Files

/-!
# Interrupted records

A process that records the next state of a delivery may die at any operation.  The envelope and
the next record are written in place, so it may leave a file of which the end is missing; then
`read` and `record` fail from there on, and nothing in the code removes the file.

`continues_iff` says that this is the only obstacle, besides records that are longer than the
ledger reads and a process lock that cannot be taken any more: if the files that are left are whole,
then `read` returns the record before the interrupted one or the interrupted one itself, and every
record that may follow is written.

## Main definitions

* `Left`: what an interrupted call may leave
* `IsReadable`: what is left can be read
* `Intact`, `remaining`: what is left is whole, and as what it is read
* `Continues`: the message can be continued

## Main results

* `left_of_stops`: where an interrupted call may stop
* `recovers_of_isReadable`: the recovery of what is left
* `isReadable_iff_intact`: what is left is read if it is whole
* `continues_iff`: when the message can be continued
* `interrupted_all_or_nothing`: what is read after a crash
* `empty_envelope_blocks`: an envelope that is left empty
-/

namespace Orquesta.MessageLedger

open Script Checked List Function Option
open ProcessLock (Locks Shared Nonce Acquires noLocks deadLock)

variable {P : Platform} {messageId : String}

/-! ## The three files -/

/-- The files with these contents. -/
def files (durable pending commit : Option Bytes) : Disk
  | .durable => durable
  | .pending => pending
  | .commit => commit

section Files

variable (d p c x : Option Bytes)

@[simp] theorem files_durable : files d p c .durable = d := rfl

@[simp] theorem files_pending : files d p c .pending = p := rfl

@[simp] theorem files_commit : files d p c .commit = c := rfl

@[simp] theorem update_files_durable : update (files d p c) .durable x = files x p c := by
  funext file
  cases file <;> rfl

@[simp] theorem update_files_pending : update (files d p c) .pending x = files d x c := by
  funext file
  cases file <;> rfl

@[simp] theorem update_files_commit : update (files d p c) .commit x = files d p x := by
  funext file
  cases file <;> rfl

end Files

/-! ## Undisturbed runs -/

section Run

variable {disk : Disk}

theorem run_append (f : File) (byte : UInt8) : (append f byte).run disk =
      (update disk f ((disk f).map (· ++ [byte])), .ok ()) := rfl

theorem run_forEach_append (f : File) (bytes pre : Bytes) :
    (forEach bytes (append f)).run (update disk f (some pre)) =
      (update disk f (some (pre ++ bytes)), .ok ()) := by
  induction bytes generalizing pre with
  | nil => rw [run_forEach_nil, append_nil]
  | cons byte rest ih =>
    rw [run_forEach_cons, run_append, andThen_ok, update_idem, update_self,
      map_some, ih, append_assoc, singleton_append]

theorem run_writeExclusive {f : File} (bytes : Bytes) (hfre : disk f = none) :
    (writeExclusive f bytes).run disk = (update disk f (some bytes), .ok ()) := by
  rw [writeExclusive, run_bind, run_reads, andThen_ok, run_bind, run_check_pos hfre, andThen_ok,
    run_bind, put, run_act, andThen_ok, run_forEach_append, nil_append]

theorem run_unlink (f : File) : (unlink f).run disk = (update disk f none, .ok ()) := rfl

end Run

/-! ## Where a call may stop -/

/-- The text of the envelope. -/
def envelopeLine (P : Platform) (previous : Option Record) (next : Record) : Bytes :=
  P.json.line (.envelope (envelopeFor P previous next))

def recordLine (P : Platform) (record : Record) : Bytes := P.json.line (.record record)

/-- What may be left by a call that records the next state of a message, from the content of the
durable record on. -/
inductive Left (P : Platform) (durable : Option Bytes) (previous : Option Record) (next : Record) :
    Disk → Prop
  | untouched : Left P durable previous next (files durable none none)
  | announcing (n : Nat) :
      Left P durable previous next
      (files durable (some ((envelopeLine P previous next).take n)) none)
  | writing (n : Nat) : Left P durable previous next
      (files durable (some (envelopeLine P previous next)) (some ((recordLine P next).take n)))
  | renamed : Left P durable previous next
      (files (some (recordLine P next)) (some (envelopeLine P previous next)) none)
  /-- The envelope is removed after the record was read again. -/
  | finished (fits : (recordLine P next).length ≤ MAX_RECORD_BYTES) :
      Left P durable previous next (files (some (recordLine P next)) none none)

section Stops

variable {durable : Option Bytes} {previous : Option Record} {next : Record} {disk : Disk}

/-- The marks of a run that needs none. -/
abbrev Anywhere (_ _ : Unit) : Prop := True

instance : Std.Refl Anywhere := ⟨fun _ => trivial⟩

instance : IsTrans Unit Anywhere := ⟨fun _ _ _ _ _ => trivial⟩

theorem length_of_recordIn {bytes : Bytes} {found : Option Record}
    (h : recordIn P messageId (some bytes) = .ok found) : bytes.length ≤ MAX_RECORD_BYTES := by
  by_contra hlen
  rw [recordIn, parse, if_pos (.inr (by omega))] at h
  cases h

theorem through_replaceDurable_left (hwr : Left P durable previous next
      (files durable (some (envelopeLine P previous next)) (some (recordLine P next))))
    (digest : String) (failure : Failure) :
    (replaceDurable P messageId digest failure).Through Anywhere
      (fun _ disk => Left P durable previous next disk) ()
      (files durable (some (envelopeLine P previous next)) (some (recordLine P next)))
      fun _ _ _ => True := by
  refine through_act_bind hwr (refl_of Anywhere ()) ?_
  rw [files_commit, update_files_durable, update_files_commit]
  have hrd := readOnly_readRecordAt P messageId .durable
  cases hver : recordIn P messageId (some (recordLine P next)) with
  | error e => exact hrd.through_bind_error hver .renamed trivial
  | ok verified =>
    refine hrd.through_bind hver ?_
    by_cases hdg : recordDigest P verified = some digest
    · refine through_check_bind hdg ?_
      refine through_act .renamed (refl_of Anywhere ()) ?_ trivial
      rw [update_files_pending]
      exact .finished (length_of_recordIn hver)
    · exact through_check_bind_error hdg .renamed trivial

theorem through_publishRecord_left : (publishRecord P messageId previous next).Through Anywhere
      (fun _ disk => Left P durable previous next disk) () (files durable none none)
      fun _ _ _ => True := by
  have hpd : (writeExclusive .pending (envelopeLine P previous next)).Through Anywhere
      (fun _ disk => Left P durable previous next disk) () (files durable none none)
      fun _ disk r => disk = files durable (some (envelopeLine P previous next)) none ∧
          r = .ok () := by
    refine through_writeExclusive rfl .untouched (fun n => ?_) ⟨update_files_pending .., rfl⟩
    rw [update_files_pending]
    exact .announcing n
  have han : Left P durable previous next
      (files durable (some (envelopeLine P previous next)) none) := by
    rw [← take_length (l := envelopeLine P previous next)]
    exact .announcing _
  have hcom : (writeExclusive .commit (recordLine P next)).Through Anywhere
      (fun _ disk => Left P durable previous next disk) ()
      (files durable (some (envelopeLine P previous next)) none) fun _ disk r =>
        disk = files durable (some (envelopeLine P previous next)) (some (recordLine P next)) ∧
          r = .ok () := by
    refine through_writeExclusive rfl han (fun n => ?_) ⟨update_files_commit .., rfl⟩
    rw [update_files_commit]
    exact .writing n
  refine hpd.bind ?_
  rintro ⟨⟩ _ _ - ⟨rfl, rfl⟩
  refine hcom.bind ?_
  rintro ⟨⟩ _ _ hwr ⟨rfl, rfl⟩
  exact through_replaceDurable_left hwr _ _

/-- Where a call that records the next state may stop. -/
theorem left_of_stops {input : DeliveryInput} {observedAt : String}
    (hprevious : recordIn P messageId durable = .ok previous)
    (hprop : propose P messageId input observedAt = .ok next) (hforward : Forward previous next)
    (hstops : (MessageLedger.record P messageId input observedAt).Stops
      (files durable none none) disk) :
    Left P durable previous next disk := by
  have hthrough : (MessageLedger.record P messageId input observedAt).Through Anywhere
      (fun _ disk => Left P durable previous next disk) () (files durable none none)
      fun _ _ _ => True := by
    refine through_attempt_bind hprop ?_
    have hset : (recoverPendingRecord P messageId).Through Anywhere
        (fun _ disk => Left P durable previous next disk) () (files durable none none)
        fun _ disk r => disk = files durable none none ∧ r = .ok () :=
      ⟨.untouched, (), trivial, .untouched, (), trivial, .untouched, rfl, rfl⟩
    refine hset.bind ?_
    rintro ⟨⟩ _ _ hleft ⟨rfl, rfl⟩
    unfold Follows
    refine (readOnly_readRecordAt P messageId .durable).through_bind hprevious ?_
    refine through_attempt_bind (judge_of_forward hforward) ?_
    rw [if_pos rfl]
    refine through_publishRecord_left.bind ?_
    rintro ⟨⟩ disk' r hl' -
    cases r with
    | error e => trivial
    | ok => exact ⟨hl', trivial⟩
  obtain ⟨-, -, hleft⟩ := hthrough.stops hstops
  exact hleft

end Stops

/-! ## Recovery -/

section Recovery

variable {d p c : Option Bytes} {previous current : Option Record} {next : Record}

theorem run_renameCommit (disk : Disk) : renameCommit.run disk =
    (update (update disk .durable (disk .commit)) .commit none, .ok ()) := rfl

theorem run_replaceDurable {content : Bytes} {verified : Option Record} {digest : String}
    (hrd : recordIn P messageId (some content) = .ok verified)
    (hdg : recordDigest P verified = some digest) (failure : Failure) :
    (replaceDurable P messageId digest failure).run (files d p (some content)) =
      (files (some content) none none, .ok ()) := by
  simp only [replaceDurable, run_bind, run_renameCommit, files_commit, update_files_durable,
    update_files_commit, andThen_ok, run_readRecordAt, files_durable, hrd, run_check_pos hdg,
    run_unlink, update_files_pending]

/-- A record that has become durable can be read. -/
theorem recordIn_of_replaceDurable {content : Bytes} {digest : String} {failure : Failure}
    (h : ((replaceDurable P messageId digest failure).run (files d p (some content))).2 = .ok ()) :
    ∃ verified, recordIn P messageId (some content) = .ok verified := by
  obtain ⟨⟨⟩, -, h⟩ := run_bind_eq_ok.mp h
  obtain ⟨verified, hver, -⟩ := run_bind_eq_ok.mp h
  rw [run_renameCommit, run_readRecordAt, files_commit, update_files_durable, update_files_commit]
    at hver
  exact ⟨verified, hver⟩

section Announced

variable {envelope : Envelope} {commit : Option Record}
  (hp : envelopeIn P messageId p = .ok (some envelope)) (hc : recordIn P messageId c = .ok commit)
  (hcom : ∀ record ∈ commit, (P.digest record).text = envelope.nextDigest)
include hp hc hcom

/-- A record that is durable already is not written again. -/
theorem run_recover_durable (hd : recordIn P messageId d = .ok current)
    (hdn : recordDigest P current = some envelope.nextDigest) :
    (recoverPendingRecord P messageId).run (files d p c) = (files d none none, .ok ()) := by
  simp only [recoverPendingRecord, run_bind, run_readPendingEnvelope, files_pending, hp, andThen_ok,
    run_readRecordAt, files_commit, hc, run_check_pos hcom, files_durable, hd, if_pos hdn,
    run_unlink, update_files_commit, update_files_pending]

variable (hd : recordIn P messageId d = .ok current)
  (hnew : recordDigest P current ≠ some envelope.nextDigest)
  (hprevious : recordDigest P current = envelope.previousDigest)
  (hforward : Forward current envelope.nextRecord)
include hd hnew hprevious hforward

/-- A record that was announced is written, if that was not done, and replaces the durable one. -/
theorem run_recover_replaces : (recoverPendingRecord P messageId).run (files d p c) =
      (replaceDurable P messageId envelope.nextDigest .recoveryVerificationFailed).run
        (files d p (some (c.getD (recordLine P envelope.nextRecord)))) := by
  have hassert : assertForwardTransition current envelope.nextRecord = .ok () :=
    assertForwardTransition_eq_ok.mpr hforward
  simp only [recoverPendingRecord, run_bind, run_readPendingEnvelope, files_pending, hp, andThen_ok,
    run_readRecordAt, files_commit, hc, run_check_pos hcom, files_durable, hd, if_neg hnew,
    run_check_pos hprevious, run_attempt, hassert]
  cases c with
  | none =>
    cases hc
    rw [if_pos rfl, run_bind, run_writeExclusive _ (files_commit d p none), update_files_commit]
    rfl
  | some content =>
    cases commit with
    | none => cases recordIn_eq_ok hc
    | some record => rfl

end Announced

end Recovery

/-! ## What is left can be read -/

section Readable

variable (P : Platform) (messageId : String) (next : Record) (disk : Disk)

/-- The durable record, if it can be read. -/
def current : Option Record := (recordIn P messageId (disk .durable)).toOption.join

/-- The next record was announced and is not durable. -/
def IsAnnounced : Prop :=
  disk .pending ≠ none ∧ recordDigest P (current P messageId disk) ≠ some (P.digest next).text
deriving Decidable

/-- The files that are left can be read, and so can the announced record once it is durable. -/
@[mk_iff] structure IsReadable : Prop where
  envelope : ∃ found, envelopeIn P messageId (disk .pending) = .ok found
  commit : ∃ found, recordIn P messageId (disk .commit) = .ok found
  durable : ∃ found, recordIn P messageId (disk .durable) = .ok found
  announced : IsAnnounced P messageId next disk →
    ∃ found, recordIn P messageId (some ((disk .commit).getD (recordLine P next))) = .ok found

/-- The recovery of what is left succeeds, and the message has the record. -/
def Recovers (found : Option Record) : Prop :=
  ∃ durable, (recoverPendingRecord P messageId).run disk = (files durable none none, .ok ()) ∧
    recordIn P messageId durable = .ok found

variable {P messageId next disk} {durable : Option Bytes} {previous : Option Record}

/-- What is left of an interrupted call: neither envelope nor next record, or both may be there, and
then they are read as what they were to be, if at all. -/
theorem Left.cases (h : Left P durable previous next disk) :
    (∃ d, disk = files d none none ∧ (d = durable ∨ d = some (recordLine P next))) ∨
      ∃ d p c, disk = files d (some p) c ∧ (d = durable ∨ d = some (recordLine P next)) ∧
        (∀ document, P.json.read p = some document →
          document = .envelope (envelopeFor P previous next)) ∧
        ∀ bytes ∈ c, ∀ document, P.json.read bytes = some document → document = .record next := by
  have htake : ∀ (written document : Document) (n : Nat),
      P.json.read ((P.json.line written).take n) = some document → document = written := by
    intro written document n hrd
    rw [P.json.read_take_line] at hrd
    split_ifs at hrd
    exact (some.inj hrd).symm
  have hwhole : ∀ written document : Document,
      P.json.read (P.json.line written) = some document → document = written := by
    intro written document hrd
    rw [P.json.read_line_eq] at hrd
    exact (some.inj hrd).symm
  cases h with
  | untouched => exact .inl ⟨durable, rfl, .inl rfl⟩
  | announcing n => exact .inr ⟨durable, _, none, rfl, .inl rfl, fun _ => htake _ _ n, nofun⟩
  | writing n =>
    refine .inr ⟨durable, _, _, rfl, .inl rfl, fun _ => hwhole _ _, ?_⟩
    rintro _ ⟨⟩
    exact fun _ => htake _ _ n
  | renamed => exact .inr ⟨_, _, none, rfl, .inr rfl, fun _ => hwhole _ _, nofun⟩
  | finished => exact .inl ⟨_, rfl, .inr rfl⟩

variable {found : Option Record}

/-- What a message is left with, from the content of the durable record on. -/
def remaining (durable : Option Bytes) (previous : Option Record) (next : Record) (disk : Disk) :
    Option Record :=
  if disk .pending = none ∧ disk .durable = durable then previous else some next

theorem current_eq (h : recordIn P messageId (disk .durable) = .ok found) :
    current P messageId disk = found := by
  rw [current, h]
  rfl

section

variable (hprevious : recordIn P messageId durable = .ok previous) {d : Option Bytes}
  (hd : d = durable ∨ d = some (recordLine P next)) (hfd : recordIn P messageId d = .ok found)
include hprevious hd hfd

/-- The durable record is the one before the interrupted call or the one it was to write. -/
theorem eq_of_recordIn : found = previous ∨ found = some next := by
  rcases hd with rfl | rfl
  · rw [hprevious] at hfd
    exact .inl (Except.ok.inj hfd).symm
  · have hrd := recordIn_eq_ok hfd
    rw [map_some, recordLine, P.json.read_line_eq] at hrd
    obtain ⟨record, rfl, hrec⟩ := map_eq_some_iff.mp hrd.symm
    cases hrec
    exact .inr rfl

/-- The durable record is the one before, as the next one has its own digest. -/
theorem eq_of_isAnnounced {p c : Option Bytes} (h : IsAnnounced P messageId next (files d p c)) :
    previous = found ∧ recordDigest P found ≠ some (P.digest next).text := by
  have hnew := h.2
  rw [current_eq hfd] at hnew
  rcases eq_of_recordIn hprevious hd hfd with rfl | rfl
  · exact ⟨rfl, hnew⟩
  · exact absurd rfl hnew

end

section

variable {c : Option Bytes}
  (hc : ∀ bytes ∈ c, ∀ document, P.json.read bytes = some document → document = .record next)
include hc

/-- The next record is read as itself, if it is read. -/
theorem recordIn_announced {found : Option Record}
    (hfd : recordIn P messageId (some (c.getD (recordLine P next))) = .ok found) :
    found = some next := by
  have hrd := recordIn_eq_ok hfd
  rw [map_some] at hrd
  obtain ⟨record, rfl, hrec⟩ := map_eq_some_iff.mp hrd.symm
  cases c with
  | none =>
    rw [getD_none, recordLine, P.json.read_line_eq] at hrec
    cases hrec
    rfl
  | some bytes =>
    cases hc bytes rfl _ hrec.symm
    rfl

omit hc in
theorem envelopeIn_announced {p : Bytes}
    (hp : ∀ document, P.json.read p = some document →
      document = .envelope (envelopeFor P previous next))
    {found : Option Envelope} (hfd : envelopeIn P messageId (some p) = .ok found) :
    found = some (envelopeFor P previous next) := by
  have hrd := envelopeIn_eq_ok hfd
  rw [map_some] at hrd
  obtain ⟨envelope, rfl, henv⟩ := map_eq_some_iff.mp hrd.symm
  cases hp _ henv.symm
  rfl

theorem digest_commit {commit : Option Record} (hcom : recordIn P messageId c = .ok commit) :
    ∀ record ∈ commit, (P.digest record).text = (envelopeFor P previous next).nextDigest := by
  rintro record ⟨⟩
  obtain ⟨bytes, rfl, hrd⟩ := map_eq_some_iff.mp (recordIn_eq_ok hcom)
  cases hc bytes rfl _ hrd
  rfl

end

section

variable (hleft : Left P durable previous next disk)
  (hprevious : recordIn P messageId durable = .ok previous) (hforward : Forward previous next)
include hleft hprevious hforward

theorem recovers_of_isReadable (h : IsReadable P messageId next disk) :
    ∃ found, Recovers P messageId disk found ∧ (found = previous ∨ found = some next) ∧
      (recordDigest P previous ≠ some (P.digest next).text →
        found = remaining durable previous next disk) := by
  obtain ⟨found, hfd⟩ := h.durable
  unfold remaining
  rcases hleft.cases with ⟨d, rfl, hd⟩ | ⟨d, p, c, rfl, hd, hp, hc⟩
  · have hboth := eq_of_recordIn hprevious hd hfd
    refine ⟨found, ⟨d, rfl, hfd⟩, hboth, fun _ => ?_⟩
    by_cases hsame : d = durable
    · rw [if_pos ⟨rfl, hsame⟩]
      subst hsame
      exact Except.ok.inj (hfd.symm.trans hprevious)
    · rw [if_neg fun h => hsame h.2]
      rw [hd.resolve_left hsame] at hfd
      exact recordIn_announced (c := none) nofun hfd
  · obtain ⟨envelope, henv⟩ := h.envelope
    obtain ⟨commit, hcom⟩ := h.commit
    cases envelopeIn_announced hp henv
    rw [if_neg fun h => by cases h.1]
    by_cases han : IsAnnounced P messageId next (files d (some p) c)
    · obtain ⟨rfl, hnew⟩ := eq_of_isAnnounced hprevious hd hfd han
      obtain ⟨verified, hver⟩ := h.announced han
      cases recordIn_announced hc hver
      refine ⟨some next, ⟨some (c.getD (recordLine P next)), ?_, hver⟩, .inr rfl, fun _ => rfl⟩
      rw [run_recover_replaces (d := d) (p := some p) (c := c) henv hcom
        (digest_commit hc hcom) hfd hnew rfl hforward]
      exact run_replaceDurable hver rfl _
    · have hdurable : recordDigest P found = some (P.digest next).text := by
        by_contra hnew
        refine han ⟨nofun, ?_⟩
        rw [current_eq hfd]
        exact hnew
      have hboth := eq_of_recordIn hprevious hd hfd
      refine ⟨found, ⟨d, run_recover_durable henv hcom (digest_commit hc hcom) hfd hdurable, hfd⟩,
        hboth, fun hdigest => hboth.resolve_left ?_⟩
      rintro rfl
      exact hdigest hdurable

theorem isReadable_of_run (hrun : ((recoverPendingRecord P messageId).run disk).2 = .ok ())
    (hdurable : disk .pending = none → ∃ found, recordIn P messageId (disk .durable) = .ok found) :
    IsReadable P messageId next disk := by
  rcases hleft.cases with ⟨d, rfl, hd⟩ | ⟨d, p, c, rfl, hd, hp, hc⟩
  · exact ⟨⟨none, rfl⟩, ⟨none, rfl⟩, hdurable rfl, fun han => absurd rfl han.1⟩
  · -- The recovery has read all of them.
    have hrd := hrun
    rw [recoverPendingRecord, run_bind_eq_ok] at hrd
    obtain ⟨envelope, henv, hrd⟩ := hrd
    cases envelopeIn_announced hp henv
    obtain ⟨commit, hcom, hrd⟩ := run_bind_eq_ok.mp hrd
    have hdg := @digest_commit _ _ _ previous _ hc _ hcom
    obtain ⟨⟨⟩, -, hrd⟩ := run_bind_eq_ok.mp hrd
    obtain ⟨found, hfd, -⟩ := run_bind_eq_ok.mp hrd
    rw [run_check_pos hdg] at hfd
    refine ⟨⟨_, henv⟩, ⟨_, hcom⟩, ⟨_, hfd⟩, fun han => ?_⟩
    obtain ⟨rfl, hnew⟩ := eq_of_isAnnounced hprevious hd hfd han
    rw [run_recover_replaces (d := d) (p := some p) (c := c) henv hcom hdg hfd hnew
      rfl hforward] at hrun
    exact recordIn_of_replaceDurable hrun

theorem isReadable_of_run_read (hid : exactIdentity messageId "message_id" = .ok ())
    (hrd : ((read P messageId).run disk).2 = .ok found) : IsReadable P messageId next disk := by
  rw [read, run_bind, run_attempt, hid, andThen_ok, run_bind_eq_ok] at hrd
  obtain ⟨⟨⟩, hrun, hfd⟩ := hrd
  refine isReadable_of_run hleft hprevious hforward hrun fun hpd => ⟨found, ?_⟩
  -- Without an envelope there is nothing to recover.
  rcases hleft.cases with ⟨d, rfl, -⟩ | ⟨d, p, c, rfl, -⟩
  · exact hfd
  · cases hpd

end

end Readable

/-! ## What is left is whole -/

section Intact

variable (P) in
/-- The text of the document is there, up to the line feed after it, and it is not longer than what
is read. -/
def IsWhole (limit : Nat) (document : Document) (bytes : Bytes) : Prop :=
  P.json.write document <+: bytes ∧ bytes.length ≤ limit
deriving Decidable

variable (P) in
/-- The envelope and the next record are whole, if they are there, and a next record that is yet to
be written is not too long. -/
@[mk_iff] structure Intact (previous : Option Record) (next : Record) (disk : Disk) : Prop where
  pending : ∀ bytes ∈ disk .pending,
    IsWhole P (MAX_RECORD_BYTES * 2) (.envelope (envelopeFor P previous next)) bytes
  commit : ∀ bytes ∈ disk .commit, IsWhole P MAX_RECORD_BYTES (.record next) bytes
  fits : disk .pending ≠ none → disk .commit = none → (recordLine P next).length ≤ MAX_RECORD_BYTES

variable {durable : Option Bytes} {previous : Option Record} {next : Record} {disk : Disk}

/-- A beginning of a line is read if it is whole. -/
theorem parse_take (limit : Nat) (document : Document) (n : Nat) :
    parse P limit ((P.json.line document).take n) =
      if IsWhole P limit document ((P.json.line document).take n) then some document else none := by
  have hstart : P.json.write document <+: (P.json.line document).take n ↔
      (P.json.write document).length ≤ n := by
    rw [prefix_take_iff]
    exact and_iff_right (prefix_append _ _)
  have hpos : 0 < (P.json.write document).length :=
    length_pos_of_ne_nil (P.json.write_ne_nil document)
  by_cases hwhole : (P.json.write document).length ≤ n
  · have hlen : 0 < ((P.json.line document).take n).length :=
      hpos.trans_le (hstart.mpr hwhole).length_le
    by_cases hfits : ((P.json.line document).take n).length ≤ limit
    · rw [if_pos ⟨hstart.mpr hwhole, hfits⟩, parse, if_neg (by omega), P.json.read_take_line,
        if_neg (not_lt.mpr hwhole)]
    · rw [if_neg fun h => hfits h.2, parse, if_pos (.inr (not_le.mp hfits))]
  · rw [if_neg fun h => hwhole (hstart.mp h.1), parse, P.json.read_take_line,
      if_pos (not_le.mp hwhole), ite_self]

variable (hval : validateRecord P next messageId = .ok ())
include hval

theorem recordIn_take (n : Nat) : recordIn P messageId (some ((recordLine P next).take n)) =
    if IsWhole P MAX_RECORD_BYTES (.record next) ((recordLine P next).take n) then .ok (some next)
    else .error .malformedFailClosed := by
  unfold recordLine
  rw [recordIn, parse_take]
  split_ifs <;> simp [hval]

/-- A record is read again if it is not too long. -/
theorem recordIn_recordLine : recordIn P messageId (some (recordLine P next)) =
    if (recordLine P next).length ≤ MAX_RECORD_BYTES then .ok (some next)
    else .error .malformedFailClosed := by
  have htake := recordIn_take hval (recordLine P next).length
  rw [take_length] at htake
  rw [htake]
  exact if_congr (and_iff_right (prefix_append _ _)) rfl rfl

theorem envelopeIn_take (n : Nat) :
    envelopeIn P messageId (some ((envelopeLine P previous next).take n)) =
      if IsWhole P (MAX_RECORD_BYTES * 2) (.envelope (envelopeFor P previous next))
        ((envelopeLine P previous next).take n) then .ok (some (envelopeFor P previous next))
      else .error .pendingFailClosed := by
  have hid : next.messageId = messageId := by
    simp only [validateRecord, bind_eq_ok, ensure_eq_ok] at hval
    obtain ⟨-, -, -, -, -, hid, -⟩ := hval
    exact hid
  have hprevious : (recordDigest P previous).all isActionFingerprint = true := by
    cases previous with
    | none => rfl
    | some record => exact (P.digest record).isHex
  have hvalid : validatePendingEnvelope P messageId (envelopeFor P previous next) = true := by
    simp [validatePendingEnvelope, envelopeFor, hid, hprevious, (P.digest next).isHex, hval,
      Except.isOk, Except.toBool]
  unfold envelopeLine
  rw [envelopeIn, parse_take]
  split_ifs <;> simp [hvalid]

omit hval in
theorem exists_ite_eq_ok {α : Type} {p : Prop} [Decidable p] {a : α} {e : Failure} :
    (∃ found, (if p then .ok a else .error e) = Except.ok found) ↔ p := by
  split_ifs with h <;> simp [h]

/-- What is left of an interrupted call is read if it is whole. -/
theorem isReadable_iff_intact (hleft : Left P durable previous next disk)
    (hprevious : recordIn P messageId durable = .ok previous)
    (hdigest : recordDigest P previous ≠ some (P.digest next).text) :
    IsReadable P messageId next disk ↔ Intact P previous next disk := by
  have hann {p : Bytes} {c : Option Bytes} :
      IsAnnounced P messageId next (files durable (some p) c) := by
    refine ⟨nofun, ?_⟩
    rw [current_eq hprevious]
    exact hdigest
  have henv := @envelopeIn_take _ _ previous _ hval (envelopeLine P previous next).length
  rw [take_length] at henv
  have hnone : recordIn P messageId none = .ok none := rfl
  have hnoEnvelope : envelopeIn P messageId none = .ok none := rfl
  rw [isReadable_iff, intact_iff]
  cases hleft with
  | untouched => simp [hnoEnvelope, hnone, hprevious, IsAnnounced]
  | announcing n =>
    simp [envelopeIn_take hval, hnone, hprevious, hann, recordIn_recordLine hval, exists_ite_eq_ok]
  | writing n => simp [henv, recordIn_take hval, hprevious, hann, exists_ite_eq_ok]
  | renamed =>
    have hnot (h : (recordLine P next).length ≤ MAX_RECORD_BYTES) : ¬ IsAnnounced P messageId next
        (files (some (recordLine P next)) (some (envelopeLine P previous next)) none) := by
      rintro ⟨-, hnew⟩
      rw [current_eq ((recordIn_recordLine hval).trans (if_pos h))] at hnew
      exact hnew rfl
    simp +contextual [henv, hnone, recordIn_recordLine hval, exists_ite_eq_ok, hnot]
  | finished fits => simp [hnoEnvelope, hnone, recordIn_recordLine hval, fits, IsAnnounced]

end Intact

/-! ## Continuing -/

section Continues

variable {disk : Disk} {durable : Option Bytes} {previous found : Option Record}
    {next later : Record}
  {input : DeliveryInput} {observedAt : String}

theorem valid_of_propose (h : propose P messageId input observedAt = .ok next) :
    exactIdentity messageId "message_id" = .ok () ∧ validateRecord P next messageId = .ok () := by
  simp only [propose, bind_eq_ok, ensure_eq_ok, pure_eq_ok] at h
  obtain ⟨_, -, ⟨⟩, hid, _, -, _, -, _, -, _, -, _, -, ⟨⟩, hval, rfl⟩ := h
  exact ⟨hid, hval⟩

theorem run_read_of_recovers (hid : exactIdentity messageId "message_id" = .ok ())
    (h : Recovers P messageId disk found) : ((read P messageId).run disk).2 = .ok found ∧
      Recovers P messageId ((read P messageId).run disk).1 found := by
  obtain ⟨durable, hrun, hfd⟩ := h
  rw [read, run_bind, run_attempt, hid, andThen_ok, run_bind, hrun, andThen_ok, run_readRecordAt]
  exact ⟨hfd, durable, rfl, hfd⟩

/-- The envelope and the next record are written, and the record replaces the durable one. -/
theorem run_publishRecord :
    (publishRecord P messageId previous next).run (files durable none none) =
    (replaceDurable P messageId (P.digest next).text .publishVerificationFailed).run
      (files durable (some (envelopeLine P previous next)) (some (recordLine P next))) := by
  rw [publishRecord, run_bind, run_writeExclusive _ (files_pending ..), andThen_ok,
    update_files_pending, run_bind, run_writeExclusive _ (files_commit ..), andThen_ok,
    update_files_commit]
  rfl

/-- A record that may follow is written, if it is not too long. -/
theorem run_record_of_recovers (hrecs : Recovers P messageId disk found)
    (hprop : propose P messageId input observedAt = .ok later) (hforward : Forward found later) :
    ((MessageLedger.record P messageId input observedAt).run disk).2 = .ok true ↔
      (recordLine P later).length ≤ MAX_RECORD_BYTES := by
  obtain ⟨durable, hrun, hfd⟩ := hrecs
  obtain ⟨-, hval⟩ := valid_of_propose hprop
  rw [MessageLedger.record, run_bind, run_attempt, hprop, andThen_ok, run_bind, hrun, andThen_ok,
    run_bind, run_readRecordAt, files_durable, hfd, andThen_ok, run_bind, run_attempt,
    judge_of_forward hforward, andThen_ok, if_pos rfl]
  have hrd := recordIn_recordLine hval
  by_cases hlen : (recordLine P later).length ≤ MAX_RECORD_BYTES
  · rw [if_pos hlen] at hrd
    rw [run_bind, run_publishRecord, run_replaceDurable hrd rfl]
    exact iff_of_true rfl hlen
  · refine iff_of_false (fun hok => ?_) hlen
    rw [if_neg hlen] at hrd
    rw [run_bind_eq_ok, run_publishRecord] at hok
    obtain ⟨⟨⟩, hpubd, -⟩ := hok
    obtain ⟨verified, hver⟩ := recordIn_of_replaceDurable hpubd
    cases hrd.symm.trans hver

/-! ## The lock -/

/-- The attempts to take the lock succeed if it is free. -/
theorem acquires_acquireLock {L : Locks} {nonce : Nat → Nonce} (pid : Nat) (hnew : L.Unused nonce) :
    Acquires (acquireLock pid ((List.range 200).map fun i k => nonce (4 * i + k))) L := by
  have hall : ∀ attempt ∈ (List.range 200).map fun i k => nonce (4 * i + k), L.Unused attempt := by
    intro attempt hattempt
    obtain ⟨i, -, rfl⟩ := mem_map.mp hattempt
    exact ⟨fun k => hnew.candidate _, fun path file hfile k => hnew.file path file hfile _⟩
  have hne : (List.range 200).map (fun i k => nonce (4 * i + k)) ≠ [] := by simp
  generalize (List.range 200).map (fun i k => nonce (4 * i + k)) = attempts at hall hne
  constructor
  · intro hfree
    obtain ⟨first, rest, rfl⟩ := exists_cons_of_ne_nil hne
    obtain ⟨L', lock, hrun, hlock⟩ :=
      ProcessLock.acquire_of_free pid (hall first mem_cons_self) hfree
    refine ⟨L', lock, ?_, hlock⟩
    rw [acquireLock, run_bind, run_settle, hrun]
    rfl
  · clear hne hnew
    intro hfree
    induction attempts generalizing L with
    | nil => exact ⟨L, _, rfl⟩
    | cons first rest ih =>
      obtain ⟨hfirst, hrest⟩ := forall_mem_cons.mp hall
      obtain ⟨L', e, hrun, hsame⟩ := ProcessLock.acquire_of_not_free pid hfirst hfree
      rw [acquireLock, run_bind, run_settle, hrun, andThen_ok]
      dsimp only
      split_ifs
      · exact ih (fun attempt h => hsame.unused (hrest attempt h))
          ((hsame.free_iff hfirst).not.mpr hfree)
      · exact ⟨L', e, rfl⟩

variable (P messageId previous next input observedAt) in
/-- The message can be continued by the process: it reads the record before the interrupted one or
that one, and what is to be recorded next, before or after the reading, is written if it may
follow. -/
def Continues (pid : Nat) (nonce nonce' : Nat → Nonce) (s : Shared Disk) : Prop :=
  ∃ found t, (withProcessLock pid nonce (read P messageId)).Returns s t (.ok found) ∧
    (found = previous ∨ found = some next) ∧
    ∀ later, propose P messageId input observedAt = .ok later → Forward found later →
      ∀ start ∈ [s, t], ∃ t',
        (withProcessLock pid nonce' (MessageLedger.record P messageId input observedAt)).Returns
        start t'
          (.ok true)

/-- **When an interrupted message can be continued.**  After a call that recorded the next state of
the message was interrupted at any operation, another process can continue the message if and only
if the lock can be taken, what is left is whole and what is to be recorded next is not too long.
The digests of the two records differ, or the ledger takes the one for the other. -/
theorem continues_iff {interrupted : DeliveryInput} {interruptedAt : String} {L L' : Locks}
    {pid pid' : Nat} {nonce nonce' nonce'' : Nat → Nonce}
    (hprevious : recordIn P messageId durable = .ok previous)
    (hpropose : propose P messageId interrupted interruptedAt = .ok next)
    (hforward : Forward previous next)
    (hdigest : recordDigest P previous ≠ some (P.digest next).text)
    (hstops : (withProcessLock pid nonce (MessageLedger.record P messageId interrupted
      interruptedAt)).Stops ⟨L, files durable none none⟩ ⟨L', disk⟩)
    (hnew : (L'.die pid).Unused nonce') (hnew' : (L'.die pid).Unused nonce'') :
    Continues P messageId previous next input observedAt pid' nonce' nonce'' ⟨L'.die pid, disk⟩ ↔
      (L'.die pid).Free ∧ Intact P previous next disk ∧
        ∀ later, propose P messageId input observedAt = .ok later →
          Forward (remaining durable previous next disk) later →
          (recordLine P later).length ≤ MAX_RECORD_BYTES := by
  have hleft := left_of_stops hprevious hpropose hforward hstops.operation
  obtain ⟨hid, hval⟩ := valid_of_propose hpropose
  rw [← isReadable_iff_intact hval hleft hprevious hdigest]
  have hacquires := acquires_acquireLock pid' hnew
  constructor
  · rintro ⟨found, t, hreturns, -, hrecord⟩
    obtain ⟨hfree, -, hread⟩ := hacquires.of_returns hreturns
    have hreadable := isReadable_of_run_read hleft hprevious hforward hid (congrArg Prod.snd hread)
    obtain ⟨found', hrecovers, -, hremaining⟩ :=
      recovers_of_isReadable hleft hprevious hforward hreadable
    obtain rfl : found' = found := Except.ok.inj
      ((run_read_of_recovers hid hrecovers).1.symm.trans (congrArg Prod.snd hread))
    rw [← hremaining hdigest]
    refine ⟨hfree, hreadable, fun later hlater hfollows => ?_⟩
    obtain ⟨t', hreturns'⟩ := hrecord later hlater hfollows _ mem_cons_self
    obtain ⟨-, -, hwritten⟩ := (acquires_acquireLock pid' hnew').of_returns hreturns'
    exact (run_record_of_recovers hrecovers hlater hfollows).mp (congrArg Prod.snd hwritten)
  · rintro ⟨hfree, hreadable, hfits⟩
    obtain ⟨found, hrecovers, hboth, hremaining⟩ :=
      recovers_of_isReadable hleft hprevious hforward hreadable
    rw [← hremaining hdigest] at hfits
    obtain ⟨L'', hreduced, hreturns⟩ := hacquires.returns hfree
      (Prod.ext rfl (run_read_of_recovers hid hrecovers).1)
    refine ⟨found, _, hreturns, hboth, fun later hlater hfollows start hstart => ?_⟩
    have hwrites {L : Locks} {disk : Disk} (hnew : L.Unused nonce'') (hfree : L.Free)
        (h : Recovers P messageId disk found) : ∃ t', (withProcessLock pid' nonce''
          (MessageLedger.record P messageId input observedAt)).Returns ⟨L, disk⟩ t' (.ok true) := by
      have hrun := (run_record_of_recovers h hlater hfollows).mpr (hfits later hlater hfollows)
      obtain ⟨L', -, hreturns⟩ := (acquires_acquireLock pid' hnew).returns hfree (Prod.ext rfl hrun)
      exact ⟨_, hreturns⟩
    rcases mem_pair.mp hstart with rfl | rfl
    · exact hwrites hnew' hfree hrecovers
    · exact hwrites (hreduced.unused hnew') hreduced.free (run_read_of_recovers hid hrecovers).2

/-- **An interrupted call is done or not done.**  Wherever it stops, whoever can read the message
finds the record before the call or the one it was to write, and the next reader finds the same. -/
theorem interrupted_all_or_nothing (hprevious : recordIn P messageId durable = .ok previous)
    (hpropose : propose P messageId input observedAt = .ok next) (hforward : Forward previous next)
    (hstops : (MessageLedger.record P messageId input observedAt).Stops
      (files durable none none) disk)
    (hread : ((read P messageId).run disk).2 = .ok found) : (found = previous ∨ found = some next) ∧
      ((read P messageId).run ((read P messageId).run disk).1).2 = .ok found := by
  have hleft := left_of_stops hprevious hpropose hforward hstops
  have hid := (valid_of_propose hpropose).1
  have hreadable := isReadable_of_run_read hleft hprevious hforward hid hread
  obtain ⟨found', hrecovers, hboth, -⟩ := recovers_of_isReadable hleft hprevious hforward hreadable
  obtain ⟨hread', hrecovers'⟩ := run_read_of_recovers hid hrecovers
  obtain rfl : found' = found := Except.ok.inj (hread'.symm.trans hread)
  exact ⟨hboth, (run_read_of_recovers hid hrecovers').1⟩

end Continues

/-! ## Two stops -/

section Example

instance encodableChar : Encodable Char :=
  Encodable.ofLeftInverse Char.toNat Char.ofNat Char.ofNat_toNat

instance encodableString : Encodable String :=
  Encodable.ofLeftInverse String.toList String.ofList fun _ => String.ofList_toList

deriving instance Encodable for DeliveryState

instance : Encodable Record :=
  Encodable.ofLeftInverse
    (fun r => (r.messageId, r.actionFingerprint, r.correlationId, r.projectId, r.targetAgentId,
      r.threadId, r.turnId, r.state, r.observedAt, r.errorCode))
    (fun (messageId, actionFingerprint, correlationId, projectId, targetAgentId, threadId,
        turnId, state, observedAt, errorCode) =>
      ⟨messageId, actionFingerprint, correlationId, projectId, targetAgentId, threadId,
        turnId, state, observedAt, errorCode⟩)
    fun _ => rfl

instance : Encodable Envelope :=
  Encodable.ofLeftInverse (fun e => (e.messageId, e.previousDigest, e.nextDigest, e.nextRecord))
    (fun (messageId, previousDigest, nextDigest, nextRecord) =>
      ⟨messageId, previousDigest, nextDigest, nextRecord⟩)
    fun _ => rfl

instance : Encodable Document :=
  Encodable.ofLeftInverse
    (fun document : Document => match document with
      | .record record => (.inl record : Record ⊕ Envelope)
      | .envelope envelope => .inr envelope)
    (Sum.elim .record .envelope) fun document => by cases document <;> rfl

def zeros : String := "0000000000000000000000000000000000000000000000000000000000000000"

def ones : String := "1111111111111111111111111111111111111111111111111111111111111111"

def queuedInput : DeliveryInput where
  actionFingerprint := zeros
  correlationId := "correlation"
  projectId := "project"
  targetAgentId := "agent"
  threadId := none
  turnId := none
  state := .queued
  errorCode := none

def threadReadyInput : DeliveryInput :=
  { queuedInput with threadId := some "thread", state := .threadReady }

def turnStartingInput : DeliveryInput := { threadReadyInput with state := .turnStarting }

def queued : Record := queuedInput.proposed "message" "noon"

def threadReady : Record := threadReadyInput.proposed "message" "noon"

def turnStarting : Record := turnStartingInput.proposed "message" "noon"

def queuedEnvelope : Envelope := ⟨"message", none, zeros, queued⟩

def threadReadyEnvelope : Envelope := ⟨"message", some zeros, ones, threadReady⟩

/-- A platform on which these documents have short texts, and the first record its own digest. -/
def plainPlatform : Platform where
  isIsoInstant _ := true
  digest record := if record.state = .queued then ⟨zeros, rfl⟩ else ⟨ones, rfl⟩
  json := @Codec.ofEncodable Document (Codec.startingWith [.envelope queuedEnvelope, .record queued,
    .record threadReady, .envelope threadReadyEnvelope, .record turnStarting])

theorem propose_queued : propose plainPlatform "message" queuedInput "noon" = .ok queued := rfl

/-- The first record of the message, as it is written. -/
abbrev recordQueued : Op Bool := MessageLedger.record plainPlatform "message" queuedInput "noon"

theorem stops_recordQueued (n : Nat) {disk : Disk}
    (h : ∀ f, after n recordQueued (files none none none) f = disk f) :
    recordQueued.Stops (files none none none) disk := by
  rw [← funext h]
  exact stops_after n recordQueued _

/-- Process 1 stops after so many operations of its call, with the lock. -/
theorem stops_withProcessLock (n : Nat) {input : DeliveryInput} {d disk : Disk}
    (hlocks : ((withProcessLock 1 (fun k => k) (MessageLedger.record plainPlatform "message" input
      "noon")).after n ⟨noLocks, d⟩).2.locks = noLocks.taken 1 0)
    (hdisk : ∀ f, ((withProcessLock 1 (fun k => k)
      (MessageLedger.record plainPlatform "message" input
      "noon")).after n ⟨noLocks, d⟩).2.store f = disk f) :
    (withProcessLock 1 (fun k => k)
      (MessageLedger.record plainPlatform "message" input "noon")).Stops
      ⟨noLocks, d⟩ ⟨noLocks.taken 1 0, disk⟩ := by
  refine ⟨n, ?_⟩
  rw [← hlocks, ← funext hdisk]

theorem unused_again : deadLock.Unused (· + 804) :=
  ⟨fun k => ProcessLock.unused_deadLock.candidate (k + 800),
    fun path file hfile k => ProcessLock.unused_deadLock.file path file hfile (k + 800)⟩

/-- A process that has announced its second record and dies: the record is found, and the third is
written. -/
theorem continues_announced :
    Continues plainPlatform "message" (some queued) threadReady turnStartingInput
    "noon" 2 (· + 4) (· + 804) ⟨deadLock,
      files (some [0, 1, 10]) (some [0, 0, 0, 1, 10]) none⟩ := by
  have hstops := @stops_withProcessLock 19 threadReadyInput (files (some [0, 1, 10]) none none)
    (files (some [0, 1, 10]) (some [0, 0, 0, 1, 10]) none) rfl (by rintro ⟨⟩ <;> rfl)
  have hprevious : recordIn plainPlatform "message" (some [0, 1, 10]) = .ok (some queued) := rfl
  have hpropose : propose plainPlatform "message" threadReadyInput "noon" = .ok threadReady := rfl
  have hlater : propose plainPlatform "message" turnStartingInput "noon" = .ok turnStarting := rfl
  have hdigest : recordDigest plainPlatform (some queued) ≠
      some (plainPlatform.digest threadReady).text := by
    decide
  have hforward : Forward (some queued) threadReady := assertForwardTransition_eq_ok.mp rfl
  refine (continues_iff hprevious hpropose hforward hdigest
    (by assumption) ProcessLock.unused_deadLock
    unused_again).mpr ⟨ProcessLock.free_deadLock, ⟨?_, nofun, fun _ _ => by decide⟩, ?_⟩
  · rintro bytes ⟨⟩
    exact ⟨⟨[10], rfl⟩, by decide⟩
  · intro later hpropose' _
    cases hlater.symm.trans hpropose'
    decide

theorem interrupted_all_or_nothing_announced : ((read plainPlatform "message").run
    ((read plainPlatform "message").run (files none (some [1, 10]) none)).1).2 =
    .ok (some queued) := by
  have hstops : recordQueued.Stops (files none none none) (files none (some [1, 10]) none) :=
    stops_recordQueued 7 (by rintro ⟨⟩ <;> rfl)
  have hnone : recordIn plainPlatform "message" none = .ok none := rfl
  have hread : ((read plainPlatform "message").run (files none (some [1, 10]) none)).2 =
    .ok (some queued) := rfl
  exact (interrupted_all_or_nothing hnone propose_queued (.first rfl) (by assumption) hread).2

/-- A process that dies when it has created the file of its envelope: no record of the message is
read or written any more, though the lock can be taken. -/
theorem empty_envelope_blocks :
    propose plainPlatform "message" queuedInput "noon" = .ok queued ∧ Forward none queued ∧
      (withProcessLock 1 (fun k => k) recordQueued).Stops ⟨noLocks, files none none none⟩
        ⟨noLocks.taken 1 0, files none (some []) none⟩ ∧
      ((read plainPlatform "message").run (files none (some []) none)).2 =
      .error .pendingFailClosed ∧
      (∀ input observedAt later, propose plainPlatform "message" input observedAt = .ok later →
        ((MessageLedger.record plainPlatform "message" input observedAt).run
          (files none (some []) none)).2 = .error .pendingFailClosed) ∧
      deadLock.Free ∧ ¬ Continues plainPlatform "message" none queued threadReadyInput
        "noon" 2 (· + 4)
        (· + 804) ⟨deadLock, files none (some []) none⟩ := by
  refine ⟨propose_queued, .first rfl, stops_withProcessLock 14 rfl (by rintro ⟨⟩ <;> rfl), rfl, ?_,
    ProcessLock.free_deadLock, ?_⟩
  · intro input observedAt later hpropose
    rw [MessageLedger.record, run_bind, run_attempt, hpropose, andThen_ok]
    rfl
  · rintro ⟨found, t, hreturns, -⟩
    obtain ⟨-, -, hread⟩ := (acquires_acquireLock 2 ProcessLock.unused_deadLock).of_returns hreturns
    cases congrArg Prod.snd hread

end Example

end Orquesta.MessageLedger
