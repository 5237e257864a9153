import Orquesta.MessageLedger.Interruption
import Orquesta.ProcessLock.Exclusion

/-!
# Histories of a message

Any number of processes record and read the delivery of a message, in any number of instances of
the ledger.  Their calls wait for the process lock and take turns operation by operation, and a
process may die between any two.  A history is a list of actions: a process begins a call, a call
goes on by one operation, or a process dies.  The queue of an instance only delays its calls; here a
call may wait at any time.

A system notes every content the durable record ever has.  These contents are records that only
move forward: `Tracks` says so of a single state, every operation keeps it, and the sequence
grows when a next record is renamed over the durable one.  As only one call at a time has the lock,
what one call does is not disturbed by the others.

## Main definitions

* `System`, `Action`, `System.run`
* `Tracks`: the durable records so far

## Main results

* `through_recoverPendingRecord`, `through_publishRecord`: what a call may leave behind
* `records_move_forward`: what is true of every history
-/

namespace Orquesta.MessageLedger

open Script Checked List Function

variable (P : Platform) (messageId : String) (nonce : Nat → Nat → ProcessLock.Nonce)

/-! ## The system -/

inductive Call
  | record (input : DeliveryInput) (observedAt : String)
  | read

/-- The checks before the lock is taken. -/
def Call.checked : Call → Except Failure Unit
  | .record input observedAt => do
    let _ ← propose P messageId input observedAt
  | .read => exactIdentity messageId "message_id"

/-- A call; the result is the state of a record that it reports as written. -/
def Call.script : Call → Op (Option DeliveryState)
  | .record input observedAt => do
    if ← MessageLedger.record P messageId input observedAt then return some input.state
    else return none
  | .read => do
    let _ ← MessageLedger.read P messageId
    return none

/-- A call on its way. -/
abbrev Turn := ProcessLock.Call Disk Failure (Option DeliveryState)

abbrev Caller := ProcessLock.Caller Disk Failure (Option DeliveryState)

/-- A call that begins. -/
def Call.begun (call : Call) (pid : Nat) (nonce : Nat → ProcessLock.Nonce) : Turn :=
  match call.checked P messageId with
  | .ok () => withProcessLock pid nonce (call.script P messageId)
  | .error e => .returned (.error (.inr e))

/-- The calls with the files of a message. -/
structure System where
  calls : ProcessLock.System Disk Failure (Option DeliveryState)
  /-- The contents that the durable record had, in order. -/
  log : List Bytes

namespace System

def new : System := ⟨.new fun _ => none, []⟩

def disk (system : System) : Disk := system.calls.shared.store

/-- What a call has returned as written. -/
def returned : Turn → Option DeliveryState
  | .returned result => result.toOption.join
  | _ => none

/-- The states for which a call of `record` has returned `true`. -/
def written (system : System) : List DeliveryState :=
  system.calls.callers.filterMap fun caller => returned caller.call

end System

inductive Action
  | call (pid : Nat) (call : Call)
  | operate (i : Nat)
  | crash (pid : Nat)

/-- The content of the durable record is noted when it changes. -/
def noted (before after : Disk) : List Bytes :=
  if after .durable = before .durable then [] else (after .durable).toList

def System.act (system : System) : Action → System
  | .call pid call =>
    { system with calls := system.calls.begin nonce pid (call.begun P messageId pid) }
  | .operate i =>
    let calls := system.calls.operate i
    ⟨calls, system.log ++ noted system.disk calls.shared.store⟩
  | .crash pid => { system with calls := system.calls.crash pid }

def System.run (system : System) (actions : List Action) : System :=
  actions.foldl (System.act P messageId nonce) system

/-! ## The durable records -/

/-- A content of the durable record, and the record it is read as. -/
structure Version where
  bytes : Bytes
  record : Record
  isRead : P.json.read bytes = some (.record record)

/-- The durable record has the last of the versions, and a next record is one that was announced. -/
structure Tracks (versions : List (Version P)) (disk : Disk) : Prop where
  path : Path (versions.map (·.record))
  durable : disk .durable = versions.getLast?.map (·.bytes)
  commit : ∀ bytes, disk .commit = some bytes → ∃ envelope content n,
    disk .pending = some content ∧ P.json.read content = some (.envelope envelope) ∧
      bytes = (P.json.line (.record envelope.nextRecord)).take n

variable {P messageId} {vs : List (Version P)} {d : Disk}

/-- The record that is read is that of the last version. -/
theorem Tracks.current (h : Tracks P vs d) {cur : Option Record}
    (hrd : recordIn P messageId (d .durable) = .ok cur) :
    cur = (vs.map (·.record)).getLast? := by
  have heq := recordIn_eq_ok hrd
  rw [h.durable] at heq
  rw [getLast?_map]
  cases hls : vs.getLast? with
  | none =>
    rw [hls] at heq
    exact Option.map_eq_none_iff.mp heq.symm
  | some v =>
    rw [hls, Option.map_some, Option.map_some, v.isRead] at heq
    obtain ⟨r, rfl, hrec⟩ := Option.map_eq_some_iff.mp heq.symm
    cases hrec
    rfl

/-! ## Scripts -/

/-- An operation adds at most one version. -/
def Grows (versions versions' : List (Version P)) : Prop :=
  versions' = versions ∨ ∃ next, versions' = versions ++ [next]

instance : Std.Refl (Grows (P := P)) := ⟨fun _ => .inl rfl⟩

instance : Std.Refl (α := List (Version P)) (· <+: ·) := ⟨fun _ => prefix_rfl⟩

instance : IsTrans (List (Version P)) (· <+: ·) := ⟨fun _ _ _ => IsPrefix.trans⟩

theorem Grows.isPrefix {vs vs' : List (Version P)} (h : Grows vs vs') : vs <+: vs' := by
  rcases h with rfl | ⟨next, rfl⟩
  · exact prefix_rfl
  · exact prefix_append _ _

section Through

variable {α : Type} {Q : List (Version P) → Disk → Except Failure α → Prop}

theorem through_readRecordAt {file : File} {f : Option Record → Op α} (htr : Tracks P vs d)
    (hok : ∀ found, recordIn P messageId (d file) = .ok found →
      (f found).Through Grows (Tracks P) vs d Q)
    (herr : ∀ e, Q vs d (.error e)) :
    (readRecordAt P messageId file >>= f).Through Grows (Tracks P) vs d Q := by
  have hrd := readOnly_readRecordAt P messageId file
  cases hfd : recordIn P messageId (d file) with
  | ok found => exact hrd.through_bind hfd (hok found hfd)
  | error e => exact hrd.through_bind_error hfd htr (herr e)

section

variable (h : Tracks P vs d)
include h

/-- A file that is not the durable record, and no next record without its envelope, may change. -/
theorem Tracks.update {f : File} {c : Option Bytes} (hfile : f ≠ .durable) (hcom :
    ∀ bs, update d f c .commit = some bs → ∃ env c' n,
    update d f c .pending = some c' ∧ P.json.read c' = some
    (.envelope env) ∧ bs = (P.json.line (.record env.nextRecord)).take n) :
    Tracks P vs (update d f c) where
  path := h.path
  durable := by
    rw [update_of_ne (Ne.symm hfile)]
    exact h.durable
  commit := hcom

theorem Tracks.unlinkCommit : Tracks P vs (Function.update d .commit none) :=
  h.update (by decide) fun bs hby => by
    rw [Function.update_self] at hby
    cases hby

/-- The envelope may change while there is no next record. -/
theorem Tracks.putPending (hcom : d .commit = none) (c : Option Bytes) :
    Tracks P vs (Function.update d .pending c) :=
  h.update (by decide) fun bs hby => by
    rw [Function.update_of_ne (by decide), hcom] at hby
    cases hby

/-- A beginning of the next record may be there once its envelope is. -/
theorem Tracks.putCommit {env : Envelope} {c : Bytes} (hpd : d .pending = some c)
    (hrd : P.json.read c = some (.envelope env)) (n : Nat) : Tracks P vs
      (Function.update d .commit (some ((P.json.line (.record env.nextRecord)).take n))) :=
  h.update (by decide) fun bs hby => by
    rw [Function.update_self] at hby
    refine ⟨env, c, n, ?_, hrd, (Option.some.inj hby).symm⟩
    rw [Function.update_of_ne (by decide), hpd]

/-- The next record becomes the durable one. -/
theorem Tracks.rename {next : Version P} (hcom : d .commit = some next.bytes)
    (hfw : Forward (vs.map (·.record)).getLast? next.record) :
    Tracks P (vs ++ [next])
    (Function.update (Function.update d .durable (d .commit)) .commit none) where
  path := by
    rw [map_append]
    exact h.path.snoc hfw
  durable := by
    rw [Function.update_of_ne (by decide), Function.update_self, hcom, getLast?_concat,
      Option.map_some]
  commit bytes hby := by
    rw [Function.update_self] at hby
    cases hby

end

/-- There is neither an envelope nor a next record. -/
def Settled (disk : Disk) : Prop := disk .pending = none ∧ disk .commit = none

/-- The next record that is read is the one that was announced. -/
theorem Tracks.read_commit (h : Tracks P vs d) {pend : Envelope} {commit : Record}
    (hpd : envelopeIn P messageId (d .pending) = .ok (some pend))
    (hcom : recordIn P messageId (d .commit) = .ok (some commit)) : commit = pend.nextRecord := by
  obtain ⟨bs, hby, hrd⟩ := Option.map_eq_some_iff.mp (recordIn_eq_ok hcom)
  obtain ⟨env, c, n, hct, henv, rfl⟩ := h.commit bs hby
  obtain ⟨c', hct', henv'⟩ := Option.map_eq_some_iff.mp (envelopeIn_eq_ok hpd)
  rw [hct] at hct'
  cases hct'
  rw [henv] at henv'
  cases henv'
  rw [P.json.read_take_line] at hrd
  split_ifs at hrd
  cases hrd
  rfl

section

variable (htr : Tracks P vs d)
include htr

theorem through_replaceDurable (next : Version P) (hcom : d .commit = some next.bytes)
    (hfw : Forward (vs.map (·.record)).getLast? next.record) (digest : String)
    (failure : Failure) :
    (replaceDurable P messageId digest failure).Through Grows (Tracks P) vs d
      fun vs' d' r => vs' = vs ++ [next] ∧ (r = .ok () → Settled d') := by
  have hrnd := htr.rename hcom hfw
  refine through_act_bind htr (.inr ⟨next, rfl⟩) ?_
  refine through_readRecordAt hrnd (fun verified _ => ?_) (fun _ => ⟨rfl, nofun⟩)
  by_cases hver : recordDigest P verified = some digest
  · refine through_check_bind hver ?_
    refine through_act hrnd (.inl rfl) (hrnd.putPending ?_ none) ⟨rfl, fun _ => ⟨?_, ?_⟩⟩
    · exact Function.update_self ..
    · exact Function.update_self ..
    · rw [Function.update_of_ne (by decide)]
      exact Function.update_self ..
  · exact through_check_bind_error hver hrnd ⟨rfl, nofun⟩

/-- The next record is written once its envelope is there. -/
theorem through_writeCommit {env : Envelope} {c : Bytes} (hfre : d .commit = none)
    (hpd : d .pending = some c)
    (hrd : P.json.read c = some (.envelope env)) :
    (writeExclusive .commit (P.json.line (.record env.nextRecord))).Through Grows (Tracks P)
      vs d fun vs' d' r => vs' = vs ∧ d' .commit = some (P.json.line (.record env.nextRecord)) ∧
      r = .ok () :=
  through_writeExclusive hfre htr (fun n => htr.putCommit hpd hrd n) ⟨rfl, update_self .., rfl⟩

theorem through_recoverPendingRecord :
    (recoverPendingRecord P messageId).Through Grows (Tracks P) vs d
      fun _ d' r => r = .ok () → Settled d' := by
  have hpendingRead := readOnly_readPendingEnvelope P messageId
  cases hpd : envelopeIn P messageId (d .pending) with
  | error e => exact hpendingRead.through_bind_error hpd htr (by rintro ⟨⟩)
  | ok pend =>
    refine hpendingRead.through_bind hpd
      (through_readRecordAt htr (fun commit hcom => ?_) (by rintro _ ⟨⟩))
    cases pend with
    | none =>
      by_cases hno : commit = none
      · subst hno
        rw [check, if_pos rfl]
        refine ⟨htr, fun _ => ⟨?_, eq_none_of_recordIn hcom⟩⟩
        exact Option.map_eq_none_iff.mp (envelopeIn_eq_ok hpd)
      · rw [check, if_neg hno]
        exact ⟨htr, by rintro ⟨⟩⟩
    | some pend =>
      by_cases hdg : ∀ record ∈ commit, (P.digest record).text = pend.nextDigest
      · refine through_check_bind hdg
          (through_readRecordAt htr (fun cur hcur => ?_) (by rintro _ ⟨⟩))
        by_cases hdn : recordDigest P cur = some pend.nextDigest
        · -- The next record is durable already.
          rw [if_pos hdn]
          have hunl := htr.unlinkCommit
          refine through_act_bind htr (.inl rfl) ?_
          refine through_act hunl (.inl rfl)
            (hunl.putPending (Function.update_self ..) none) fun _ => ⟨Function.update_self .., ?_⟩
          rw [Function.update_of_ne (by decide)]
          exact Function.update_self ..
        · rw [if_neg hdn]
          by_cases hprev : recordDigest P cur = pend.previousDigest
          · refine through_check_bind hprev ?_
            cases hfw : assertForwardTransition cur pend.nextRecord with
            | error e => exact through_attempt_bind_error rfl htr (by rintro ⟨⟩)
            | ok =>
              refine through_attempt_bind rfl ?_
              obtain ⟨c, hct, henv⟩ := Option.map_eq_some_iff.mp (envelopeIn_eq_ok hpd)
              have hnx : Forward (vs.map (·.record)).getLast? pend.nextRecord :=
                htr.current hcur ▸ assertForwardTransition_eq_ok.mp hfw
              cases commit with
              | none =>
                rw [if_pos rfl]
                refine (through_writeCommit htr (eq_none_of_recordIn hcom) hct henv).bind ?_
                rintro _ _ _ htr' ⟨rfl, hwr, rfl⟩
                exact (through_replaceDurable htr' ⟨_, _, P.json.read_line_eq _⟩ hwr hnx _ _).imp
                  fun _ _ _ _ h => h.2
              | some commit =>
                rw [if_neg (Option.some_ne_none _)]
                obtain ⟨bs, hby, hrd⟩ := Option.map_eq_some_iff.mp (recordIn_eq_ok hcom)
                rw [htr.read_commit hpd hcom] at hrd
                exact (through_replaceDurable htr ⟨_, _, hrd⟩ hby hnx _ _).imp fun _ _ _ _ h => h.2
          · exact through_check_bind_error hprev htr (by rintro ⟨⟩)
      · exact through_check_bind_error hdg htr (by rintro ⟨⟩)

theorem through_publishRecord (hset : Settled d) {next : Record} {prev : Option Record}
    (hfw : Forward (vs.map (·.record)).getLast? next) :
    (publishRecord P messageId prev next).Through Grows (Tracks P) vs d
      fun vs' _ r => r = .ok () → ∃ v, v.record = next ∧ vs' = vs ++ [v] := by
  have hpd : (writeExclusive .pending (P.json.line (.envelope (envelopeFor P prev next)))).Through
      Grows (Tracks P) vs d fun vs' d' r => vs' = vs ∧ d' .commit = none ∧
        d' .pending = some (P.json.line (.envelope (envelopeFor P prev next))) ∧ r = .ok () := by
    refine through_writeExclusive hset.1 htr (fun n => htr.putPending hset.2 _) ?_
    refine ⟨rfl, ?_, update_self .., rfl⟩
    rw [update_of_ne (by decide)]
    exact hset.2
  refine hpd.bind ?_
  rintro _ d₁ _ htr₁ ⟨rfl, hfre, han, rfl⟩
  refine (through_writeCommit htr₁ hfre han (P.json.read_line_eq _)).bind ?_
  rintro _ d₂ _ htr₂ ⟨rfl, hwr, rfl⟩
  exact (through_replaceDurable htr₂ ⟨_, _, P.json.read_line_eq _⟩ hwr hfw _ _).imp
    fun _ _ _ _ h _ => ⟨_, rfl, h.1⟩

end

/-! ## Calls -/

/-- At the end of a call: a record that it reports as written is the last one, and was not there
before the call. -/
def Reports (before : List (Version P)) (versions : List (Version P)) (_ : Disk)
    (r : Except Failure (Option DeliveryState)) : Prop :=
  ∀ state, r = .ok (some state) → ∃ front version, versions = front ++ [version] ∧
    before <+: front ∧ version.record.state = state

theorem through_record (htr : Tracks P vs d) (i : DeliveryInput) (obs : String) :
    (MessageLedger.record P messageId i obs).Through Grows (Tracks P) vs d
      fun vs' _ r => r = .ok true → ∃ front v, vs' = front ++ [v] ∧
        vs <+: front ∧ v.record.state = i.state := by
  unfold MessageLedger.record
  cases hprop : propose P messageId i obs with
  | error e => exact through_attempt_bind_error rfl htr (by rintro ⟨⟩)
  | ok proposed =>
    have hst : proposed.state = i.state := by
      simp only [propose, chain_eq_ok] at hprop
      obtain ⟨-, -, -, -, -, -, -, -, -, -, -, -, -, -, -, -, rfl⟩ := hprop
      rfl
    refine through_attempt_bind rfl
      (((through_recoverPendingRecord htr).grown Grows.isPrefix).bind ?_)
    rintro vs₁ d₁ r₁ htr₁ ⟨hgrown, hset⟩
    cases r₁ with
    | error e => rintro ⟨⟩
    | ok =>
      refine through_readRecordAt htr₁ (fun cur hcur => ?_) (by rintro _ ⟨⟩)
      cases hjudge : judge cur proposed with
      | error e => exact through_attempt_bind_error rfl htr₁ (by rintro ⟨⟩)
      | ok write =>
        refine through_attempt_bind rfl ?_
        cases write with
        | false => exact ⟨htr₁, by rintro ⟨⟩⟩
        | true =>
          have hfw : Forward (vs₁.map (·.record)).getLast? proposed :=
            htr₁.current hcur ▸ forward_of_judge hjudge
          refine (through_publishRecord htr₁ (hset rfl) hfw).bind ?_
          rintro vs₂ d₂ r₂ htr₂ hpubd
          cases r₂ with
          | error e => rintro ⟨⟩
          | ok =>
            obtain ⟨v, rfl, hvers⟩ := hpubd rfl
            exact ⟨htr₂, fun _ => ⟨vs₁, v, hvers, hgrown, hst⟩⟩

theorem through_read (htr : Tracks P vs d) :
    (MessageLedger.read P messageId).Through Grows (Tracks P) vs d fun _ _ _ => True := by
  unfold MessageLedger.read
  cases hid : exactIdentity messageId "message_id" with
  | error e => exact through_attempt_bind_error rfl htr trivial
  | ok =>
    refine through_attempt_bind rfl ((through_recoverPendingRecord htr).bind ?_)
    rintro vs' d' r htr' -
    cases r with
    | error e => trivial
    | ok => exact (readOnly_readRecordAt P messageId .durable).through htr' trivial

theorem through_script (htr : Tracks P vs d) (c : Call) :
    (c.script P messageId).Through Grows (Tracks P) vs d (Reports vs) := by
  cases c with
  | record i obs =>
    refine (through_record htr i obs).bind ?_
    rintro vs' d' r htr' hwr
    cases r with
    | error e => exact nofun
    | ok write =>
      cases write with
      | false => exact ⟨htr', nofun⟩
      | true =>
        refine ⟨htr', ?_⟩
        rintro _ ⟨⟩
        exact hwr rfl
  | read =>
    refine (through_read htr).bind ?_
    rintro vs' d' r htr' -
    cases r with
    | error e => exact nofun
    | ok found => exact ⟨htr', nofun⟩

end Through

/-! ## Every history -/

/-- What a call has reported as written, whether or not it has released the lock. -/
def reported : Turn → Option DeliveryState
  | .releasing _ result => result.toOption.join
  | call => System.returned call

def System.reports (system : System) : List DeliveryState :=
  system.calls.callers.filterMap fun caller => reported caller.call

variable (P messageId) in
/-- What a call may still do: it has its turn before it, or it has the lock and what it writes is
tracked. -/
def Ready (versions : List (Version P)) (disk : Disk) (reports : List DeliveryState) :
    Turn → Prop
  | .acquiring _ operation => ∃ call : Call, operation = call.script P messageId
  | .holding _ operation => operation.Through Grows (Tracks P) versions disk fun versions' _ r =>
    ∀ state, r = .ok (some state) → ∃ front version, versions' = front ++ [version] ∧
      version.record.state = state ∧ ∀ other ∈ reports, other ∈ front.map (·.record.state)
  | _ => True

variable (messageId) in
/-- What is known of a system: the log has the versions of the durable record, and each record that
was reported as written is one of them, another one for each call. -/
structure Inv (system : System) (versions : List (Version P)) : Prop where
  safe : system.calls.Safe nonce
  tracks : Tracks P versions system.disk
  log : system.log = versions.map (·.bytes)
  nodup : system.reports.Nodup
  reports : ∀ state ∈ system.reports, state ∈ versions.map (·.record.state)
  ready : ∀ caller ∈ system.calls.callers, Ready P messageId versions system.disk system.reports
    caller.call

variable {nonce}

theorem inv_new : Inv messageId nonce .new ([] : List (Version P)) where
  safe := ProcessLock.System.safe_new _
  tracks := ⟨.nil, rfl, nofun⟩
  log := rfl
  nodup := .nil
  reports := nofun
  ready := nofun

/-- A version that is added has another content than the one before it. -/
theorem Tracks.bytes_ne {next : Version P} {d' : Disk} (h : Tracks P vs d)
    (h' : Tracks P (vs ++ [next]) d') : d' .durable ≠ d .durable := by
  rw [h'.durable, h.durable, getLast?_concat, Option.map_some]
  intro heq
  obtain ⟨last, hls, hby⟩ := Option.map_eq_some_iff.mp heq.symm
  have hpath := h'.path
  rw [map_append] at hpath
  -- The same content is read as the same record, but the state of the next one has a higher rank.
  have hrank : STATE_RANK last.record.state < STATE_RANK next.record.state :=
    (hpath.last last.record (mem_map_of_mem (mem_of_getLast? hls))).2
  have hrd := last.isRead
  rw [hby, next.isRead] at hrd
  have hsam : next.record = last.record := by simpa using hrd
  rw [hsam] at hrank
  exact lt_irrefl _ hrank

/-- What is noted of an operation is the version it adds. -/
theorem noted_of_grows {vs' : List (Version P)} {d' : Disk} (h : Tracks P vs d)
    (h' : Tracks P vs' d') (hgrows : Grows vs vs') :
    vs'.map (·.bytes) = vs.map (·.bytes) ++ noted d d' := by
  rcases hgrows with rfl | ⟨next, rfl⟩
  · rw [noted, if_pos (h'.durable.trans h.durable.symm), append_nil]
  · rw [noted, if_neg (h.bytes_ne h'), h'.durable, getLast?_concat, map_append]
    rfl

variable {sys : System}

open ProcessLock in
theorem guards_acquireLock {pid : Nat} {own : Set Nonce} {s : Locks} {nonces : List (Nat → Nonce)}
    (hnonces : ∀ nonce ∈ nonces, ∀ k, nonce k ∈ own) (hs : At pid own none s) :
    Keeps pid own (acquireLock pid nonces) s (Acquired pid own) := by
  induction nonces generalizing s with
  | nil => exact guards_fail (stable_at s · hs)
  | cons nonce rest ih =>
    refine (guards_acquire (hnonces nonce mem_cons_self) hs).settle.bind ?_ nofun
    rintro t r ⟨_, ⟨⟩, ht⟩
    cases r with
    | ok lock => exact guards_pure (stable_has t · ht)
    | error e =>
      dsimp only
      split_ifs
      · exact ih (fun nonce hmem => hnonces nonce (mem_cons_of_mem _ hmem)) ht
      · exact guards_fail (stable_at t · ht)

theorem Ready.mono {rs rs' : List DeliveryState} {call : Turn}
    (h : Ready P messageId vs d rs call) (hsub : rs' ⊆ rs) : Ready P messageId vs d rs' call := by
  cases call with
  | holding lock operation =>
    refine Through.imp h fun vs' d' r _ hreport state hstate => ?_
    obtain ⟨front, version, hvs, hversion, hothers⟩ := hreport state hstate
    exact ⟨front, version, hvs, hversion, fun other hother => hothers other (hsub hother)⟩
  | _ => exact h

theorem filterMap_set_perm {α β : Type} {l : List α} {i : Nat} {a : α} (f : α → Option β)
    (hi : l[i]? = some a) (b : α) : ∃ rest, l.filterMap f ~ (f a).toList ++ rest ∧
    (l.set i b).filterMap f ~ (f b).toList ++ rest := by
  obtain ⟨hlt, rfl⟩ := List.getElem?_eq_some_iff.mp hi
  have hcons : ∀ a, (a :: l.eraseIdx i).filterMap f = (f a).toList ++
      (l.eraseIdx i).filterMap f := by
    intro a
    rw [filterMap_cons]
    cases f a <;> rfl
  refine ⟨(l.eraseIdx i).filterMap f, ?_, ?_⟩
  · rw [← hcons]
    exact ((getElem_cons_eraseIdx_perm hlt).symm).filterMap f
  · rw [← hcons]
    exact (set_perm_cons_eraseIdx hlt b).filterMap f

section

variable (h : Inv messageId nonce sys vs)
include h

theorem Inv.call (hnonce : Injective2 nonce) (pid : Nat) (c : Call) :
    Inv messageId nonce (sys.act P messageId nonce (.call pid c)) vs := by
  have hsafe : (sys.calls.begin nonce pid (c.begun P messageId pid)).Safe nonce := by
    refine h.safe.begin hnonce pid fun own nonce' locks hown hat => ?_
    unfold Call.begun
    split
    · refine ⟨hat.mine, guards_acquireLock (fun nonce hmem k => ?_) hat⟩
      obtain ⟨i, -, rfl⟩ := mem_map.mp hmem
      exact hown _
    · exact hat.named
  by_cases hlive : sys.calls.shared.locks.processState pid = .live
  · have hreports : (sys.act P messageId nonce (.call pid c)).reports = sys.reports := by
      unfold System.reports System.act ProcessLock.System.begin Call.begun
      dsimp only
      rw [if_pos hlive]
      cases c.checked P messageId <;>
        simp [reported, System.returned, withProcessLock, Except.toOption]
    have hdisk : (sys.act P messageId nonce (.call pid c)).disk = sys.disk := by
      unfold System.disk System.act ProcessLock.System.begin
      dsimp only
      rw [if_pos hlive]
    refine ⟨hsafe, hdisk ▸ h.tracks, h.log, hreports ▸ h.nodup, hreports ▸ h.reports, ?_⟩
    rw [hreports, hdisk]
    intro caller hcaller
    simp only [System.act, ProcessLock.System.begin, if_pos hlive, mem_append,
      mem_singleton] at hcaller
    rcases hcaller with hold | rfl
    · exact h.ready caller hold
    · unfold Call.begun
      split
      · exact ⟨c, rfl⟩
      · trivial
  · rw [System.act, ProcessLock.System.begin, if_neg hlive]
    exact h

theorem Inv.crash (pid : Nat) :
    Inv messageId nonce { sys with calls := sys.calls.crash pid } vs := by
  have hsub : ({ sys with calls := sys.calls.crash pid } : System).reports.Sublist sys.reports :=
    filter_sublist.filterMap _
  exact ⟨h.safe.crash pid, h.tracks, h.log, h.nodup.sublist hsub, fun state hstate =>
    h.reports state (hsub.subset hstate), fun caller hcaller =>
      (h.ready caller (mem_of_mem_filter hcaller)).mono hsub.subset⟩

section Operate

variable {i : Nat} {caller : Caller} {call : Turn} {shared : ProcessLock.Shared Disk}
  (hi : sys.calls.callers[i]? = some caller)
  (hsafe : ProcessLock.System.Safe nonce
    ⟨shared, sys.calls.callers.set i { caller with call := call }, sys.calls.begun⟩)
include hi hsafe

/-- The calls after one of them has gone on. -/
abbrev System.after (sys : System) (i : Nat) (caller : Caller) (call : Turn)
    (shared : ProcessLock.Shared Disk) : System :=
  ⟨⟨shared, sys.calls.callers.set i { caller with call := call }, sys.calls.begun⟩,
    sys.log ++ noted sys.disk shared.store⟩

omit hsafe in
/-- A call that reports nothing new. -/
theorem Inv.reports_after (shared : ProcessLock.Shared Disk)
    (hreport : reported call = none ∨ reported call = reported caller.call) :
    (sys.after i caller call shared).reports.Nodup ∧ (sys.after i caller call shared).reports ⊆
    sys.reports := by
  obtain ⟨rest, hbefore, hafter⟩ := filterMap_set_perm (fun caller => reported caller.call) hi
    { caller with call := call }
  have hsub : (sys.after i caller call shared).reports <+~ sys.reports := by
    refine (hafter.subperm.trans ?_).trans hbefore.symm.subperm
    dsimp only
    rcases hreport with hnone | hsame
    · rw [hnone]
      exact (sublist_append_right _ _).subperm
    · rw [hsame]
  obtain ⟨l, hperm, hl⟩ := id hsub
  exact ⟨hperm.nodup (h.nodup.sublist hl), hsub.subset⟩

/-- A call goes on outside of the files, and reports nothing new. -/
theorem Inv.quiet (hdisk : shared.store = sys.disk)
    (hreport : reported call = none ∨ reported call = reported caller.call)
    (hready : Ready P messageId vs sys.disk sys.reports call) :
    Inv messageId nonce (sys.after i caller call shared) vs := by
  obtain ⟨hnodup, hsub⟩ := h.reports_after hi shared hreport
  refine ⟨hsafe, ?_, ?_, hnodup, fun state hstate => h.reports state (hsub hstate),
    fun other hother => ?_⟩
  · change Tracks P vs shared.store
    rw [hdisk]
    exact h.tracks
  · change sys.log ++ noted sys.disk shared.store = _
    rw [hdisk, noted, if_pos rfl, append_nil]
    exact h.log
  · refine Ready.mono ?_ hsub
    change Ready P messageId vs shared.store _ _
    rw [hdisk]
    rcases mem_or_eq_of_mem_set hother with hold | rfl
    · exact h.ready other hold
    · exact hready

variable (hnonce : Injective2 nonce) {lock : ProcessLock.Lock}
  {operation : Op (Option DeliveryState)} (hcall : caller.call = .holding lock operation)
include hnonce hcall

omit hsafe in
/-- While a call has the lock, the others wait for it or have had it. -/
theorem Inv.others {other : Caller} (hother : other ∈ sys.calls.callers)
    (hne : other.number ≠ caller.number) {vs' : List (Version P)} {d' : Disk}
    {rs : List DeliveryState} : Ready P messageId vs' d' rs other.call := by
  have hready := h.ready other hother
  cases hwith : other.call with
  | acquiring script operation' =>
    rw [hwith] at hready
    exact hready
  | holding lock' operation' =>
    exact absurd (h.safe.exclusive hnonce hother (mem_of_getElem? hi) hwith hcall) hne
  | releasing | returned => trivial

/-- The call that has the lock does an operation on the files. -/
theorem Inv.write {e : Disk → Disk} {next : Disk → Op (Option DeliveryState)}
    (hop : operation = .op e next) (hdisk : shared.store = e sys.disk)
    (hnext : call = .holding lock (next sys.disk)) :
    ∃ vs' : List (Version P), Inv messageId nonce (sys.after i caller call shared) vs' := by
  have hready := h.ready caller (mem_of_getElem? hi)
  rw [hcall, hop] at hready
  obtain ⟨-, vs', hgrows, hthrough⟩ := hready
  subst hnext
  have hquiet : reported (.holding lock (next sys.disk)) = none := rfl
  obtain ⟨hnodup, hsub⟩ := h.reports_after hi shared (.inl hquiet)
  have hd : (sys.after i caller (.holding lock (next sys.disk)) shared).disk = e sys.disk := hdisk
  refine ⟨vs', hsafe, hd ▸ hthrough.start, ?_, hnodup, fun state hstate => ?_,
    fun other hother => ?_⟩
  · change sys.log ++ noted sys.disk shared.store = _
    rw [hdisk, noted_of_grows h.tracks hthrough.start hgrows, h.log]
  · exact (hgrows.isPrefix.map _).subset (h.reports state (hsub hstate))
  · rw [hd]
    rcases ProcessLock.mem_set_of_nodup h.safe.numbers hi hother with rfl | ⟨hold, hne⟩
    · exact Ready.mono hthrough hsub
    · exact h.others hi hnonce hcall hold hne

/-- The call that has the lock ends its operation. -/
theorem Inv.finish {res : Except Failure (Option DeliveryState)} (hop : operation = .done res)
    (hdisk : shared.store = sys.disk) {script : ProcessLock.Op Unit}
    (hnext : call = .releasing script res) :
    Inv messageId nonce (sys.after i caller call shared) vs := by
  have hready := h.ready caller (mem_of_getElem? hi)
  rw [hcall, hop] at hready
  obtain ⟨-, hreport⟩ := hready
  subst hnext
  rcases res with error | _ | state
  · exact h.quiet hi hsafe hdisk (.inl rfl) trivial
  · exact h.quiet hi hsafe hdisk (.inl rfl) trivial
  · obtain ⟨front, version, rfl, hversion, hothers⟩ := hreport state rfl
    obtain ⟨rest, hbefore, hafter⟩ := filterMap_set_perm (fun caller => reported caller.call) hi
      { caller with call := .releasing script (.ok (some state)) }
    rw [hcall] at hbefore
    have hperm : (sys.after i caller (.releasing script (.ok (some state))) shared).reports ~
        state :: sys.reports := hafter.trans (hbefore.symm.cons state)
    -- The state of the last version is not that of a version before it.
    have hnew : state ∉ sys.reports := fun hmem => by
      have hnodup := h.tracks.path.nodup_states
      rw [map_map, map_append] at hnodup
      exact (nodup_append.mp hnodup).2.2 state (hothers state hmem) state (by simp [hversion]) rfl
    have hd : (sys.after i caller (.releasing script (.ok (some state))) shared).disk = sys.disk :=
      hdisk
    refine ⟨hsafe, hd ▸ h.tracks, ?_, hperm.symm.nodup (nodup_cons.mpr ⟨hnew, h.nodup⟩),
      fun st hst => ?_, fun other hother => ?_⟩
    · change sys.log ++ noted sys.disk shared.store = _
      rw [hdisk, noted, if_pos rfl, append_nil]
      exact h.log
    · rcases mem_cons.mp (hperm.subset hst) with rfl | hold
      · simp [hversion]
      · exact h.reports st hold
    · rcases ProcessLock.mem_set_of_nodup h.safe.numbers hi hother with rfl | ⟨hold, hne⟩
      · trivial
      · exact h.others hi hnonce hcall hold hne

end Operate

theorem Inv.operate (hnonce : Injective2 nonce) (i : Nat) :
    ∃ vs' : List (Version P), Inv messageId nonce (sys.act P messageId nonce (.operate i)) vs' := by
  have hsafe := h.safe.operate hnonce i
  cases hi : sys.calls.callers[i]? with
  | none =>
    refine ⟨vs, ?_⟩
    have hsame : sys.act P messageId nonce (.operate i) = sys := by
      simp [System.act, ProcessLock.System.operate, hi, noted, System.disk]
    exact hsame.symm ▸ h
  | some caller =>
    have hact : sys.act P messageId nonce (.operate i) =
        sys.after i caller (caller.call.step sys.calls.shared).1
        (caller.call.step sys.calls.shared).2 := by
      simp [System.act, ProcessLock.System.operate, hi, System.after]
    rw [hact]
    simp only [ProcessLock.System.operate, hi] at hsafe
    have hready := h.ready caller (mem_of_getElem? hi)
    cases hcall : caller.call with
    | acquiring script operation =>
      rw [hcall] at hsafe hready
      rcases script with (error | lock) | ⟨effect, next⟩
      · exact ⟨vs, h.quiet hi hsafe rfl (.inl rfl) trivial⟩
      · refine ⟨vs, h.quiet hi hsafe rfl (.inl rfl) ?_⟩
        obtain ⟨c, rfl⟩ := hready
        refine Through.imp (through_script h.tracks c) fun vs' d' r _ hreports state hstate => ?_
        obtain ⟨front, version, hvs, hfront, hversion⟩ := hreports state hstate
        exact ⟨front, version, hvs, hversion, fun other hother =>
          (hfront.map _).subset (h.reports other hother)⟩
      · exact ⟨vs, h.quiet hi hsafe rfl (.inl rfl) hready⟩
    | holding lock operation =>
      rw [hcall] at hsafe
      cases operation with
      | done res => exact ⟨vs, h.finish hi hsafe hnonce hcall rfl rfl rfl⟩
      | op e next => exact h.write hi hsafe hnonce hcall rfl rfl rfl
    | releasing script result =>
      rw [hcall] at hsafe
      cases script with
      | done released =>
        refine ⟨vs, h.quiet hi hsafe rfl ?_ trivial⟩
        rw [hcall]
        rcases result with error | state
        · exact .inl rfl
        · cases released with
          | ok => exact .inr rfl
          | error e => exact .inl rfl
      | op effect next => exact ⟨vs, h.quiet hi hsafe rfl (.inr (by rw [hcall]; rfl)) trivial⟩
    | returned result =>
      rw [hcall] at hsafe
      exact ⟨vs, h.quiet hi hsafe rfl (.inr (by rw [hcall]; rfl)) trivial⟩

theorem Inv.run (hnonce : Injective2 nonce) (as : List Action) :
    ∃ vs' : List (Version P), Inv messageId nonce (sys.run P messageId nonce as) vs' := by
  induction as generalizing sys vs with
  | nil => exact ⟨vs, h⟩
  | cons a rest ih =>
    obtain ⟨vs', h'⟩ : ∃ vs' : List (Version P),
        Inv messageId nonce (sys.act P messageId nonce a) vs' := by
      cases a with
      | call pid c => exact ⟨vs, h.call hnonce pid c⟩
      | operate i => exact h.operate hnonce i
      | crash pid => exact ⟨vs, h.crash pid⟩
    exact ih h'

end

theorem System.written_sublist (sys : System) : sys.written.Sublist sys.reports := by
  unfold System.written System.reports
  induction sys.calls.callers with
  | nil => exact .slnil
  | cons caller callers ih =>
    rw [filterMap_cons, filterMap_cons]
    cases caller.call with
    | acquiring | holding => exact ih
    | releasing script result =>
      cases hreport : reported (.releasing script result) with
      | none => exact ih
      | some state => exact ih.cons state
    | returned result =>
      have hsame : reported (.returned result) = System.returned (.returned result) := rfl
      rw [hsame]
      cases System.returned (.returned result) with
      | none => exact ih
      | some state => exact ih.cons_cons state

/-- **The records of a message only move forward.**  In every history, the contents that the durable
record ever has are records that move forward, and for each state at most one call returns that it
has written its record. -/
theorem records_move_forward (P : Platform) (messageId : String)
    (nonce : Nat → Nat → ProcessLock.Nonce)
    (hnonce : Injective2 nonce) (actions : List Action) :
    ∃ records : List Record, ((System.new.run P messageId nonce actions).log.map P.json.read =
        records.map fun record => some (.record record)) ∧
      MovesForward records ∧ (System.new.run P messageId nonce actions).written.Nodup := by
  obtain ⟨versions, h⟩ : ∃ versions : List (Version P),
      Inv messageId nonce (System.new.run P messageId nonce actions) versions :=
        inv_new.run hnonce actions
  refine ⟨versions.map (·.record), ?_, h.tracks.path.movesForward, ?_⟩
  · rw [h.log, map_map, map_map]
    exact map_congr_left fun version _ => version.isRead
  · exact h.nodup.sublist (System.written_sublist _)

/-- Two processes record at once.  The first dies with the lock, when it has announced its record;
the second has found the lock taken, recovers it, and finishes the record of the first before its
own. -/
def contended : List Action :=
  [.call 1 (.record queuedInput "noon"), .call 2 (.record threadReadyInput "noon")] ++
    replicate 16 (.operate 0) ++ replicate 20 (.operate 1) ++ [.crash 1] ++
    replicate 80 (.operate 0)

theorem records_move_forward_contended :
    (System.new.run plainPlatform "message" Nat.pair contended).log =
        [recordLine plainPlatform queued, recordLine plainPlatform threadReady] ∧
      (System.new.run plainPlatform "message" Nat.pair contended).written = [.threadReady] ∧
      ∃ records : List Record, ((System.new.run plainPlatform "message" Nat.pair contended).log.map
          plainPlatform.json.read = records.map fun record => some (.record record)) ∧
        MovesForward records ∧
            (System.new.run plainPlatform "message" Nat.pair contended).written.Nodup :=
  ⟨by decide +kernel, by decide +kernel, records_move_forward plainPlatform "message" Nat.pair
    (fun _ _ _ _ h => Nat.pair_eq_pair.mp h) contended⟩

end Orquesta.MessageLedger
