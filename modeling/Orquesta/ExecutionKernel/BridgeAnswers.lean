import Orquesta.ExecutionKernel.Bridge
import Orquesta.ExecutionKernel.TickOutcomes

/-!
# The starts of a tick

A tick begins its starts one after the other, and each then gets its answers.  A start touches
the session of its own task and the record of its own dispatch, and nothing else of the
bridge.  `Answered` lists what an answer can do to the two, by how far the start has come;
`answers_answer` is the one place where `Bridge.answer` is unfolded.

## Main definitions

* `Bridge.IsBlocked`, `Start.Clears`
* `Begun`: what is known of a start that has got no answer
* `Bridge.touch`, `Answered`, `Bridge.Answers`

## Main results

* `begun_startAll`: the starts of a tick
* `exists_startResult`: when the start of an accepted turn succeeds
* `answers_answer`: what an answer changes
-/

namespace Orquesta.ExecutionKernel

open Checked Contract List Function

/-- The next start of the task is refused. -/
def Bridge.IsBlocked (bridge : Bridge) (taskId : Name) : Prop :=
  ∃ session, bridge.sessions taskId = some session ∧ session.isUnresolved

def Phase.isEarly : Phase → Bool
  | .subscribing | .resolving => true
  | _ => false

/-- The session is checked, and the turn is not started. -/
def Phase.isOpening : Phase → Bool
  | .creating _ | .naming _ | .resuming _ => true
  | _ => false

def Phase.isRejected : Phase → Bool
  | .settled (.rejected _) => true
  | _ => false

/-- The start has passed the check of its session, or passes it now. -/
def Start.Clears (start : Start) (bridge : Bridge) : Prop :=
  start.phase.isOpening ∨ (start.phase = .resolving ∧ ¬ bridge.IsBlocked start.dispatch.taskId)

/-! ## The starts of a tick -/

/-- A start that a tick has begun: it is refused at once, or it has no record yet. -/
def Begun (records : String → Option BridgeRecord) (start : Start) : Prop :=
  start.dispatchId = trim start.dispatch.dispatchId ∧ (start.phase.isRejected ∨
    start.phase = .subscribing ∧ (∃ name : Name, start.dispatchId = name.text) ∧
      records (correlationOf start.dispatchId) = none)

theorem begun_start (opts : BridgeOptions) (b : Bridge) (started : List Start) (d : Dispatch) :
    ∃ taskIds st, b.start opts started d = ({ b with taskIds }, st) ∧
      st.dispatch = d ∧ Begun b.records st := by
  unfold Bridge.start
  cases hid : nonempty d.dispatchId "dispatch.dispatch_id" with
  | error thrown =>
    refine ⟨b.taskIds, _, rfl, rfl, ?_, .inl rfl⟩
    unfold nonempty at hid
    split at hid
    · cases hid
    · rename_i hbk
      exact (not_not.mp hbk).symm
  | ok n =>
    have htr : n.text = trim d.dispatchId := (nonempty_eq_ok.mp hid).symm
    dsimp only
    split
    · exact ⟨b.taskIds, _, rfl, rfl, htr, .inl rfl⟩
    · cases hrec : b.records (correlationOf n.text) with
      | some r =>
        dsimp only
        split <;> exact ⟨b.taskIds, _, rfl, rfl, htr, .inl rfl⟩
      | none =>
        dsimp only
        split
        · exact ⟨b.taskIds, _, rfl, rfl, htr, .inl rfl⟩
        · split
          · exact ⟨b.taskIds, _, rfl, rfl, htr, .inl rfl⟩
          · exact ⟨_, _, rfl, rfl, htr, .inr ⟨rfl, ⟨n, rfl⟩, hrec⟩⟩

theorem begun_startAll (opts : BridgeOptions) (b : Bridge) (started : List Start)
    (ds : List Dispatch) :
    ∃ taskIds starts, b.startAll opts started ds = ({ b with taskIds }, started ++ starts) ∧
      starts.map (·.dispatch) = ds ∧ ∀ st ∈ starts, Begun b.records st := by
  induction ds generalizing b started with
  | nil =>
    rw [Bridge.startAll]
    exact ⟨b.taskIds, [], by rw [append_nil], rfl, fun _ h => absurd h not_mem_nil⟩
  | cons d rest ih =>
    obtain ⟨taskIds, st, hst, rfl, hbg⟩ := begun_start opts b started d
    obtain ⟨taskIds', starts, hsts, hdsps, hall⟩ := ih { b with taskIds } (started ++ [st])
    refine ⟨taskIds', st :: starts, ?_, by rw [map_cons, hdsps], ?_⟩
    · rw [Bridge.startAll, hst]
      exact hsts.trans (by rw [append_assoc, singleton_append])
    · intro s hs
      rcases mem_cons.mp hs with rfl | hs
      · exact hbg
      · exact hall s hs

/-! ## What an answer changes -/

/-- The part of the bridge that a start may touch is replaced. -/
def Bridge.touch (bridge : Bridge) (start : Start) (subscription : Option (Except Failure Unit))
    (session : Option Session) (record : Option BridgeRecord) : Bridge :=
  { bridge with
    subscription
    sessions := update bridge.sessions start.dispatch.taskId session
    records := update bridge.records (correlationOf start.dispatchId) record }

section Touch

variable {b : Bridge} {st : Start} {subscription : Option (Except Failure Unit)}
  {s : Option Session} {r : Option BridgeRecord}

@[simp]
theorem sessions_touch_self : (b.touch st subscription s r).sessions st.dispatch.taskId = s :=
  update_self ..

theorem sessions_touch_of_ne {tid : Name} (h : tid ≠ st.dispatch.taskId) :
    (b.touch st subscription s r).sessions tid = b.sessions tid :=
  update_of_ne h ..

@[simp]
theorem records_touch_self :
    (b.touch st subscription s r).records (correlationOf st.dispatchId) = r :=
  update_self ..

theorem records_touch_of_ne {cid : String} (h : cid ≠ correlationOf st.dispatchId) :
    (b.touch st subscription s r).records cid = b.records cid :=
  update_of_ne h ..

theorem touch_same (b : Bridge) (st : Start) (subscription : Option (Except Failure Unit)) :
    b.touch st subscription (b.sessions st.dispatch.taskId)
      (b.records (correlationOf st.dispatchId)) = { b with subscription } := by
  simp only [Bridge.touch, update_eq_self]

end Touch

/-- What an answer does to the session and the record of a start, its next phase, and the turns
that are accepted with it. -/
inductive Answered (bridge : Bridge) (start : Start) :
    Option Session → Option BridgeRecord → Phase →
    List (Name × String) → Prop
  | stays : Answered bridge start (bridge.sessions start.dispatch.taskId)
      (bridge.records (correlationOf start.dispatchId)) start.phase []
  | early {phase} : start.phase.isEarly → phase = .resolving ∨ phase.isRejected →
      Answered bridge start (bridge.sessions start.dispatch.taskId)
        (bridge.records (correlationOf start.dispatchId)) phase []
  | opens {session phase} : start.Clears bridge → phase.isOpening ∨ phase.isRejected →
      Answered bridge start session (bridge.records (correlationOf start.dispatchId)) phase []
  | begins {session : Session} {record : BridgeRecord} : start.Clears bridge →
      session.stage = .issued → session.lastStartFailure = none →
      record.dispatchId = start.dispatchId → record.completed = false →
      Answered bridge start (some session) (some record) .starting []
  | refused {session phase} : start.phase = .starting → phase.isRejected →
      Answered bridge start session none phase []
  /-- The turn was accepted under a blank id. -/
  | unnamed {phase} : start.phase = .starting → phase.isRejected →
      Answered bridge start (bridge.sessions start.dispatch.taskId)
        (bridge.records (correlationOf start.dispatchId)) phase
        [(start.dispatch.taskId, start.dispatchId)]
  | accepted {session} {turnId : Name} {value} : start.phase = .starting →
      Answered bridge start session
        ((bridge.records (correlationOf start.dispatchId)).map fun record =>
          { record with turnId := some turnId }) (.settled (.fulfilled value))
        [(start.dispatch.taskId, start.dispatchId)]

/-- The bridge and the phase that an answer leads to. -/
def Bridge.Answers (bridge : Bridge) (start : Start) (accepted : List (Name × String))
    (result : Bridge × Phase) : Prop :=
  ∃ subscription session record, result.1 = bridge.touch start subscription session record ∧
    Answered bridge start session record result.2 accepted

section Answers

variable {opts : BridgeOptions} {P : Platform} {b : Bridge} {st : Start} {spec : TaskSpec}
  {s : Session}

theorem answers_early {ph : Phase} (hea : st.phase.isEarly)
    (hph : ph = .resolving ∨ ph.isRejected) (subscription : Option (Except Failure Unit)) :
    b.Answers st [] ({ b with subscription }, ph) :=
  ⟨subscription, _, _, (touch_same b st subscription).symm, .early hea hph⟩

/-- A start goes on, and may have a new session. -/
theorem answers_opens {ph : Phase} (hcls : st.Clears b)
    (hph : ph.isOpening ∨ ph.isRejected) (kept : Option Session) :
    b.Answers st [] ({ b with sessions := update b.sessions st.dispatch.taskId kept }, ph) := by
  refine ⟨b.subscription, kept, _, ?_, .opens hcls hph⟩
  simp only [Bridge.touch, update_eq_self]

theorem answers_opens_same {ph : Phase} (hcls : st.Clears b)
    (hph : ph.isOpening ∨ ph.isRejected) : b.Answers st [] (b, ph) := by
  have h := answers_opens hcls hph (b.sessions st.dispatch.taskId)
  rwa [update_eq_self] at h

/-- The turn of a session that is kept, or was just created, is started. -/
theorem answers_beginTurn (hcls : st.Clears b) (kept : Option Session) (spec : TaskSpec)
    (s : Session) :
    b.Answers st [] (Bridge.beginTurn
      { b with sessions := update b.sessions st.dispatch.taskId kept } st spec s) := by
  unfold Bridge.beginTurn
  dsimp only
  split
  · exact answers_opens hcls (.inr rfl) kept
  · rw [update_idem]
    exact ⟨b.subscription, _, _, rfl, .begins hcls rfl rfl rfl rfl⟩

theorem answers_beginTurn_same (hcls : st.Clears b) : b.Answers st [] (b.beginTurn st spec s) := by
  have h := answers_beginTurn hcls (b.sessions st.dispatch.taskId) spec s
  rwa [update_eq_self] at h

theorem answers_openSession (hph : st.phase = .resolving) :
    b.Answers st [] (b.openSession opts st spec) := by
  have hea : st.phase.isEarly := by rw [hph]; rfl
  unfold Bridge.openSession
  split
  · exact answers_early hea (.inr rfl) b.subscription
  · cases hses : b.sessions st.dispatch.taskId with
    | none =>
      refine answers_opens_same (.inr ⟨hph, ?_⟩) (.inl rfl)
      rintro ⟨s, hsm, -⟩
      rw [hses] at hsm
      cases hsm
    | some s =>
      dsimp only
      split_ifs with hunresolved hresume
      · exact answers_early hea (.inr rfl) b.subscription
      all_goals
        have hcls : st.Clears b := by
          refine .inr ⟨hph, ?_⟩
          rintro ⟨s', hsm, hbl⟩
          rw [hses] at hsm
          cases hsm
          exact hunresolved hbl
      · exact answers_opens_same hcls (.inl rfl)
      · exact answers_beginTurn_same hcls

theorem answers_createSession {created : CreatedThread} (hph : st.phase = .creating spec) :
    b.Answers st [] (b.createSession opts st spec created) := by
  have hcls : st.Clears b := .inl (by rw [hph]; rfl)
  unfold Bridge.createSession
  split
  · exact answers_opens_same hcls (.inr rfl)
  · dsimp only
    split
    · split
      · exact answers_opens hcls (.inr rfl) _
      · exact answers_opens hcls (.inl rfl) _
    · exact answers_beginTurn hcls _ spec _

/-- The turn of a thread that was named or resumed is started. -/
theorem answers_turn (hcls : st.Clears b) :
    b.Answers st [] (match b.sessions st.dispatch.taskId with
      | none => (b, failed "session is undefined")
      | some s => b.beginTurn st spec s) := by
  cases hses : b.sessions st.dispatch.taskId with
  | none => exact answers_opens_same hcls (.inr rfl)
  | some s => exact answers_beginTurn_same hcls

/-- The start of an accepted turn succeeds, if the clock does and the session can be cloned. -/
theorem exists_startResult {uid : Name} {clock : Option Time} (hck : clock.isSome)
    (hses : b.sessions st.dispatch.taskId = some s)
    (hprof : s.runtimeProfile.IsSerializable) (hev : s.modelEvidence.IsSerializable) :
    ∃ v, (b.acceptTurn st uid).startResult P st uid clock = .ok v := by
  obtain ⟨t, rfl⟩ := Option.isSome_iff_exists.mp hck
  obtain ⟨profile, hprof⟩ := hprof
  obtain ⟨ev, hev⟩ := hev
  have hacc : (b.acceptTurn st uid).sessions st.dispatch.taskId = some { s with
        acceptedTurns := s.acceptedTurns + 1, stage := .accepted, lastStartFailure := none } := by
    simp only [Bridge.acceptTurn, update_self, hses, Option.map_some]
  simp only [Bridge.startResult, chain_eq_ok, require_eq_ok]
  exact ⟨_, t, rfl, _, hacc, profile, hprof, ev, hev, rfl⟩

/-- What an answer changes.  The start of an accepted turn is assumed to succeed. -/
theorem answers_answer (ans : Answer)
    (hreg : st.phase = .starting → ∀ res clock, ans = .turnStarted (.ok res) clock →
      clock.isSome ∧ ∃ s, b.sessions st.dispatch.taskId = some s ∧
        s.runtimeProfile.IsSerializable ∧ s.modelEvidence.IsSerializable) :
    b.Answers st (st.acceptedWith ans) (b.answer opts P st ans) := by
  have hsty : ∀ ph, st.phase = ph → b.Answers st [] (b, ph) := by
    rintro _ rfl
    exact ⟨b.subscription, _, _, (touch_same b st b.subscription).symm, .stays⟩
  unfold Bridge.answer Start.acceptedWith
  cases hph : st.phase with
  | subscribing =>
    have hea : st.phase.isEarly := by rw [hph]; rfl
    cases ans with
    | subscribed res =>
      refine answers_early hea ?_ _
      cases b.subscription.getD res with
      | error failure => exact .inr rfl
      | ok => exact .inl rfl
    | _ => exact hsty _ hph
  | resolving =>
    have hea : st.phase.isEarly := by rw [hph]; rfl
    cases ans with
    | resolved res =>
      rcases res with reason | _ | spec
      · exact answers_early hea (.inr rfl) b.subscription
      · exact answers_early hea (.inr rfl) b.subscription
      · exact answers_openSession hph
    | _ => exact hsty _ hph
  | creating spec =>
    cases ans with
    | created res =>
      cases res with
      | error failure => exact answers_opens_same (.inl (by rw [hph]; rfl)) (.inr rfl)
      | ok created => exact answers_createSession hph
    | _ => exact hsty _ hph
  | naming spec =>
    have hcls : st.Clears b := .inl (by rw [hph]; rfl)
    cases ans with
    | named res =>
      cases res with
      | error failure => exact answers_opens_same hcls (.inr rfl)
      | ok => exact answers_turn hcls
    | _ => exact hsty _ hph
  | resuming spec =>
    have hcls : st.Clears b := .inl (by rw [hph]; rfl)
    cases ans with
    | resumed res =>
      cases res with
      | error failure => exact answers_opens_same hcls (.inr rfl)
      | ok => exact answers_turn hcls
    | _ => exact hsty _ hph
  | starting =>
    cases ans with
    | turnStarted res clock =>
      cases res with
      | error failure =>
        exact ⟨b.subscription, _, _, rfl, .refused hph rfl⟩
      | ok uid =>
        dsimp only
        split
        · exact ⟨b.subscription, _, _, (touch_same b st b.subscription).symm, .unnamed hph rfl⟩
        · obtain ⟨hck, s, hses, hprof, hev⟩ := hreg hph _ _ rfl
          obtain ⟨v, hv⟩ := exists_startResult (P := P) hck hses hprof hev
          rw [hv]
          exact ⟨b.subscription, _, _, rfl, .accepted hph⟩
    | _ => exact hsty _ hph
  | settled o => exact hsty _ hph

end Answers

end Orquesta.ExecutionKernel
