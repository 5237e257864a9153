import Orquesta.Workflow.Controller

/-!
# Finished attempts and batches

The calls of one controller take turns at every `await`.  None of the changes of an attempt looks
again at its status: an attempt that was cancelled while its turn was being started is made
running, and its batch with it (`cancelled_becomes_running`).

`finished_stays` says what is needed so that nothing goes wrong.  A start must be answered, and
recorded, while its attempt is still starting.  The changes that end an attempt must find it
active, and its turn ended or interrupted; `fail` may be reached without that, because a failed
interruption is ignored there, and because an unknown outcome counts as a failure.  And a
cancellation must not begin between the answer and the record of a start.  A cancellation need
not find the turn it cancels interrupted: it does so itself.

## Main definitions

* `Batch.Orderly`, `Shared.Orderly`: one active attempt, and where the live turns are
* `Keeps`: what ended is as before
* `Regular`: the condition on a step
* `Before`: what is known when a cancellation goes on
* `Admits`: the steps of which the calls are made follow an outline

## Main results

* `Admits.program`: then all calls follow it
* `finished_stays`: what holds in every run whose steps are regular
* `cancelled_becomes_running`
-/

namespace Orquesta.Workflow

open Checked Contract RunRuntime Async List Function Rows

/-! ## What every step keeps -/

/-- The turn was started for an attempt of the batch. -/
def Turn.IsOf (turn : Turn) (rootPath batchId : String) : Prop :=
  turn.place.rootPath = rootPath ∧ turn.place.batchId = batchId

/-- The attempt is starting, or it runs the turn. -/
def Attempt.Carries (attempt : Attempt) (turn : Turn) : Prop :=
  attempt.status = .starting ∨
    attempt.status = .running ∧ attempt.threadId = some turn.threadId ∧
      attempt.turnId = some turn.turnId

def Attempt.isWaiting (attempt : Attempt) : Bool := attempt.status ∈ [.queued, .starting]

/-- At most one attempt is active, and none if the batch has ended; live turns are those of active
attempts. -/
structure Batch.Orderly (live : List Turn) (rootPath : String) (batch : Batch) : Prop where
  oneActive : ∀ attempt ∈ batch.attempts, ∀ other ∈ batch.attempts, attempt.isActive →
    other.isActive → attempt = other
  ended : batch.status.isEnded → ∀ attempt ∈ batch.attempts, attempt.isTerminal
  cancelling : batch.status = .cancelling → ∀ attempt ∈ batch.attempts, ¬attempt.isWaiting
  live : ∀ turn ∈ live, turn.IsOf rootPath batch.batchId →
    ∃ attempt ∈ batch.attempts, attempt.attemptId = turn.place.attemptId ∧ attempt.Carries turn

structure Shared.Orderly (P : Platform) (s : Shared) : Prop where
  stored : ∀ rootPath, parseWorkflowState P (s.state rootPath) = .ok ()
  batches : ∀ rootPath, ∀ batch ∈ (s.state rootPath).batches, batch.Orderly s.live rootPath
  named : ∀ turn ∈ s.live, turn.threadId ≠ "" ∧ turn.turnId ≠ ""
  known : ∀ turn ∈ s.live, ∃ batch ∈ (s.state turn.place.rootPath).batches,
    batch.batchId = turn.place.batchId

/-- How a batch may change. -/
structure Follows (batch next : Batch) : Prop where
  batchId : next.batchId = batch.batchId
  ended : batch.status.isEnded → next.status = batch.status
  cancelling : batch.status = .cancelling → next.status = .cancelling ∨ next.status = .cancelled
  terminal : ∀ attempt ∈ batch.attempts, attempt.isTerminal → attempt ∈ next.attempts

theorem Follows.refl (bt : Batch) : Follows bt bt := ⟨rfl, fun _ => rfl, .inl, fun _ hatt _ => hatt⟩

theorem Follows.trans {bt next later : Batch} (h : Follows bt next) (h' : Follows next later) :
    Follows bt later where
  batchId := h'.batchId.trans h.batchId
  ended hend := by
    have hnx := h.ended hend
    rw [h'.ended (hnx ▸ hend), hnx]
  cancelling hcan := by
    rcases h.cancelling hcan with hnx | hnx
    · exact h'.cancelling hnx
    · exact .inr ((h'.ended (by rw [hnx]; rfl)).trans hnx)
  terminal att hatt htm := h'.terminal att (h.terminal att hatt htm) htm

/-- What has ended is as it was: the attempts with their results, and the status of a batch. -/
structure Keeps (s s' : Shared) : Prop where
  batches : ∀ rootPath, ∀ batch ∈ (s.state rootPath).batches,
    ∃ next ∈ (s'.state rootPath).batches, Follows batch next
  results : ∀ rootPath, ∀ batch ∈ (s.state rootPath).batches, ∀ attempt ∈ batch.attempts,
    attempt.isTerminal → s'.results ⟨rootPath, batch.batchId, attempt.attemptId⟩ =
      s.results ⟨rootPath, batch.batchId, attempt.attemptId⟩

theorem Keeps.refl (s : Shared) : Keeps s s :=
  ⟨fun _ bt hbt => ⟨bt, hbt, .refl bt⟩, fun _ _ _ _ _ _ => rfl⟩

variable {s s' : Shared}

theorem Keeps.trans {s'' : Shared} (h : Keeps s s') (h' : Keeps s' s'') : Keeps s s'' where
  batches dir bt hbt := by
    obtain ⟨next, hnx, hfol⟩ := h.batches dir bt hbt
    obtain ⟨later, hlt, hfol'⟩ := h'.batches dir next hnx
    exact ⟨later, hlt, hfol.trans hfol'⟩
  results dir bt hbt att hatt htm := by
    obtain ⟨next, hnx, hfol⟩ := h.batches dir bt hbt
    have heq := h'.results dir next hnx att (hfol.terminal att hatt htm) htm
    rw [hfol.batchId] at heq
    exact heq.trans (h.results dir bt hbt att hatt htm)

/-- The batch is being cancelled, or was. -/
def Closing (rootPath batchId : String) (s : Shared) : Prop :=
  ∃ batch ∈ (s.state rootPath).batches, batch.batchId = batchId ∧
    (batch.status = .cancelling ∨ batch.status = .cancelled)

/-- What a step guarantees. -/
structure Step (P : Platform) (s s' : Shared) : Prop where
  keeps : Keeps s s'
  orderly : s'.Orderly P
  /-- No turn is started for a batch that is being cancelled. -/
  live : ∀ rootPath batchId, Closing rootPath batchId s → ∀ turn ∈ s'.live,
    turn.IsOf rootPath batchId → turn ∈ s.live

theorem Step.closing {P : Platform} (h : Step P s s') {dir bid : String}
    (hclg : Closing dir bid s) : Closing dir bid s' := by
  obtain ⟨bt, hbt, rfl, hsts⟩ := hclg
  obtain ⟨next, hnx, hfol⟩ := h.keeps.batches dir bt hbt
  refine ⟨next, hnx, hfol.batchId, ?_⟩
  rcases hsts with hsts | hsts
  · exact hfol.cancelling hsts
  · exact .inr ((hfol.ended (by rw [hsts]; rfl)).trans hsts)

theorem Step.trans {P : Platform} {s'' : Shared} (h : Step P s s') (h' : Step P s' s'') :
    Step P s s'' where
  keeps := h.keeps.trans h'.keeps
  orderly := h'.orderly
  live dir batchId hclg turn htn hof := h.live dir batchId hclg turn
      (h'.live dir batchId (h.closing hclg) turn htn hof) hof

/-! ## The conditions -/

def Shared.attemptAt (s : Shared) (place : Place) : Option Attempt :=
  ((s.state place.rootPath).findBatch place.batchId).bind (·.findAttempt place.attemptId)

/-- No turn of the attempt is live. -/
def Idle (place : Place) (s : Shared) : Prop := ∀ turn ∈ s.live, turn.place ≠ place

variable {P : Platform}

/-- The condition on a step. -/
def Regular : Label → Answer P → Shared → Prop
  | .startRun place, x, s => ∀ result, x.started = .ok result →
      (∃ attempt ∈ s.attemptAt place, attempt.status = .starting) ∧ Idle place s ∧
        result.threadId ≠ "" ∧ result.turnId ≠ ""
  | .started place result, _, s => (∀ attempt ∈ s.attemptAt place, attempt.status = .starting) ∧
      ∀ turn ∈ s.live, turn.place = place →
        turn.threadId = result.threadId ∧ turn.turnId = result.turnId
  | .startFailed place, _, s | .finish place, _, s | .fail place, _, s =>
      (∀ attempt ∈ s.attemptAt place, attempt.isActive) ∧ Idle place s
  | .createResult place, _, s | .writeResult place, _, s =>
      ∀ attempt ∈ s.attemptAt place, attempt.isActive
  | .beginCancel rootPath batchId, _, s => ∀ batch ∈ (s.state rootPath).findBatch batchId,
      ∀ attempt ∈ batch.attempts, attempt.status = .starting →
        Idle ⟨rootPath, batchId, attempt.attemptId⟩ s
  | _, _, _ => True

/-- What a cancellation knows as it goes on. -/
def Before : Label → Shared → Prop
  | .cancelTurn rootPath batchId threadId turnId, s => Closing rootPath batchId s ∧
      ∀ turn ∈ s.live, turn.IsOf rootPath batchId → turn.threadId = threadId ∧ turn.turnId = turnId
  | .endCancel rootPath batchId, s => Closing rootPath batchId s ∧
      ∀ turn ∈ s.live, ¬turn.IsOf rootPath batchId
  | _, _ => True

def outline (P : Platform) : Outline Shared (Answer P) Label where
  inv := Shared.Orderly P
  pre := Before
  guard := Regular
  guarantee := Step P
  inv_of_guarantee _ h := h.orderly
  stable {label s s'} _ h hbefore := by
    cases label with
    | cancelTurn rootPath batchId threadId turnId =>
      refine ⟨h.closing hbefore.1, fun turn hturn hof => ?_⟩
      exact hbefore.2 turn (h.live rootPath batchId hbefore.1 turn hturn hof) hof
    | endCancel rootPath batchId =>
      refine ⟨h.closing hbefore.1, fun turn hturn hof => ?_⟩
      exact hbefore.2 turn (h.live rootPath batchId hbefore.1 turn hturn hof) hof
    | _ => trivial

/-! ## Steps that change no batch -/

section Steps

variable {s s' : Shared}

variable {dir : String} {bt : Batch}

theorem Batch.Orderly.mono {live live' : List Turn} (h : bt.Orderly live dir) (hlv : live' ⊆ live) :
    bt.Orderly live' dir :=
  ⟨h.oneActive, h.ended, h.cancelling, fun t htn => h.live t (hlv htn)⟩

variable {att : Attempt}

theorem Batch.Orderly.not_cancelling {live : List Turn} (h : bt.Orderly live dir)
    (hatt : att ∈ bt.attempts)
    (hstg : att.status = .starting) : bt.status ≠ .cancelling := by
  intro hcan
  have hw := h.cancelling hcan att hatt
  rw [Attempt.isWaiting, hstg] at hw
  exact hw rfl

section

variable (hinv : s.Orderly P)
include hinv

/-- A step that touches neither batches nor results, and starts no turn. -/
theorem step_of_eq (hst : s'.state = s.state) (hrss : s'.results = s.results)
    (hlv : s'.live ⊆ s.live) : Step P s s' := by
  refine ⟨⟨?_, ?_⟩, ⟨?_, ?_, fun t htn => hinv.named t (hlv htn), ?_⟩, ?_⟩
  · intro dir bt hbt
    exact ⟨bt, by rwa [hst], .refl bt⟩
  · intro dir bt hbt att _ _
    rw [hrss]
  · intro dir
    rw [hst]
    exact hinv.stored dir
  · intro dir bt hbt
    rw [hst] at hbt
    exact (hinv.batches dir bt hbt).mono hlv
  · intro t htn
    rw [hst]
    exact hinv.known t (hlv htn)
  · intro _ _ _ t htn _
    exact hlv htn

theorem step_refl : Step P s s := step_of_eq hinv rfl rfl (Subset.refl _)

theorem step_interrupt (th uid : String) : Step P s (s.interrupt th uid) :=
  step_of_eq hinv rfl rfl (filter_subset_self _)

theorem step_forget (th : Option String) : Step P s (s.forget th) := by
  unfold Shared.forget
  split
  · exact step_refl hinv
  · exact step_of_eq hinv rfl rfl (Subset.refl _)

theorem step_forgetAll (threads : List (Option String)) :
    Step P s (threads.foldl Shared.forget s) := by
  induction threads generalizing s with
  | nil => exact step_refl hinv
  | cons th threads ih =>
    have hstp := step_forget hinv th
    exact hstp.trans (ih hstp.orderly)

omit hinv in
/-- The ids of stored batches and of their attempts are different. -/
theorem nodup_of_parse {state : WorkflowState} (h : parseWorkflowState P state = .ok ()) :
    (state.batches.map Batch.batchId).Nodup ∧ ∀ bt ∈ state.batches, isBatch P bt := by
  simp only [parseWorkflowState, bind_eq_ok, ensure_eq_ok, all_eq_true] at h
  obtain ⟨-, ⟨-, -, hbts⟩, -, -, hnd⟩ := h
  exact ⟨hnd, hbts⟩

omit hinv in
theorem nodup_of_isBatch (h : isBatch P bt) : (bt.attempts.map Attempt.attemptId).Nodup := by
  simp only [isBatch, Bool.and_eq_true, decide_eq_true_eq] at h
  exact h.1.2

omit hinv in
/-- The attempt at a place is the one with its ids. -/
theorem attemptAt_eq (hps : parseWorkflowState P (s.state dir) = .ok ())
    (hbt : bt ∈ (s.state dir).batches) (hatt : att ∈ bt.attempts) :
    s.attemptAt ⟨dir, bt.batchId, att.attemptId⟩ = some att := by
  obtain ⟨hnd, hbts⟩ := nodup_of_parse hps
  have hfd : (s.state dir).findBatch bt.batchId = some bt := find_of_nodup hnd hbt
  rw [Shared.attemptAt, hfd]
  exact find_of_nodup (nodup_of_isBatch (hbts bt hbt)) hatt

omit hinv in
theorem not_isTerminal_of_isActive (h : att.isActive) : ¬att.isTerminal := by
  revert h
  unfold Attempt.isActive Attempt.isTerminal
  cases att.status <;> decide

omit hinv in
theorem not_isWaiting_of_isTerminal (h : att.isTerminal) : ¬att.isWaiting := by
  revert h
  unfold Attempt.isWaiting Attempt.isTerminal
  cases att.status <;> decide

theorem step_putResult {p : Place} {c : Option Bytes} (hact : ∀ att ∈ s.attemptAt p, att.isActive) :
    Step P s (s.putResult p c) := by
  refine ⟨⟨(Keeps.refl s).batches, ?_⟩, { hinv with }, fun _ _ _ _ htn _ => htn⟩
  intro dir bt hbt att hatt htm
  refine update_of_ne ?_ _ _
  rintro rfl
  exact not_isTerminal_of_isActive (hact att (attemptAt_eq (hinv.stored dir) hbt hatt)) htm

theorem step_startRun {p : Place} {x : Answer P} {res : Started}
    (hreg : Regular (.startRun p) x s) (hstd : x.started = .ok res) :
    Step P s { s with live := ⟨p, res.threadId, res.turnId⟩ :: s.live } := by
  obtain ⟨⟨att, hatt, hstg⟩, -, hth, htn⟩ := hreg res hstd
  obtain ⟨bt, hbt, hfd⟩ := Option.bind_eq_some_iff.mp hatt
  have hmem := mem_of_find hbt
  have hbid : bt.batchId = p.batchId := key_of_find hbt
  have hnd := (nodup_of_parse (hinv.stored p.rootPath)).1
  refine ⟨⟨(Keeps.refl s).batches, (Keeps.refl s).results⟩,
    ⟨hinv.stored, fun dir o hoth => ?_, ?_, ?_⟩, ?_⟩
  · have hord := hinv.batches dir o hoth
    refine ⟨hord.oneActive, hord.ended, hord.cancelling, ?_⟩
    rintro t hmt ⟨rfl, hid⟩
    rcases mem_cons.mp hmt with rfl | hmt
    · -- The new turn is carried by the attempt that is starting.
      obtain rfl := inj_on_of_nodup_map hnd hoth hmem (hid.symm.trans hbid.symm)
      exact ⟨att, mem_of_find hfd, key_of_find hfd, .inl hstg⟩
    · exact hord.live t hmt ⟨rfl, hid⟩
  · intro t hmt
    rcases mem_cons.mp hmt with rfl | hmt
    · exact ⟨hth, htn⟩
    · exact hinv.named t hmt
  · intro t hmt
    rcases mem_cons.mp hmt with rfl | hmt
    · exact ⟨bt, hmem, hbid⟩
    · exact hinv.known t hmt
  · rintro dir bid ⟨o, hoth, rfl, hsts⟩ t hmt ⟨rfl, hid⟩
    rcases mem_cons.mp hmt with rfl | hmt
    · -- A batch that is being cancelled has no attempt that is starting.
      obtain rfl := inj_on_of_nodup_map hnd hoth hmem (hid.symm.trans hbid.symm)
      have hord := hinv.batches _ o hoth
      have hmemAttempt := mem_of_find hfd
      rcases hsts with hsts | hsts
      · exact absurd hsts (hord.not_cancelling hmemAttempt hstg)
      · have htm := hord.ended (by rw [hsts]; rfl) att hmemAttempt
        rw [Attempt.isTerminal, hstg] at htm
        cases htm
    · exact hmt

end

end Steps

/-! ## The changes of a batch -/

section Batches

variable {bt next : Batch} {live : List Turn} {dir now : String}

/-- What `terminalBatch` does: the status changes only if all attempts have ended, and then the
batch has. -/
structure Terminated (batch next : Batch) : Prop where
  batchId : next.batchId = batch.batchId
  attempts : next.attempts = batch.attempts
  status : next.status = batch.status ∨
    (∀ attempt ∈ batch.attempts, attempt.isTerminal) ∧ next.status.isEnded
  cancelling : batch.status = .cancelling → next.status = .cancelling ∨ next.status = .cancelled

theorem terminated_terminalBatch (bt : Batch) (now : String) :
    Terminated bt (terminalBatch bt now) := by
  unfold terminalBatch
  split
  · exact ⟨rfl, rfl, .inl rfl, .inl⟩
  · rename_i hno
    refine ⟨rfl, rfl, .inr ⟨fun att hatt => ?_, ?_⟩, fun h => .inr (if_pos (.inl h))⟩
    · by_contra hnot
      exact hno (any_eq_true.mpr ⟨att, hatt, by simpa using hnot⟩)
    · dsimp only
      split_ifs <;> rfl

section Replace

variable {attempts : List Attempt} {att o changed : Attempt}

theorem oneActive_of_id (aid : String) (hnd : (attempts.map Attempt.attemptId).Nodup)
    (h : ∀ att ∈ attempts, att.isActive → att.attemptId = aid) :
    ∀ att ∈ attempts, ∀ o ∈ attempts, att.isActive → o.isActive → att = o := by
  intro att hatt o hoth hact hoact
  refine inj_on_of_nodup_map hnd hatt hoth ?_
  rw [h att hatt hact, h o hoth hoact]

/-- What has ended is not replaced. -/
theorem mem_replace_of_isTerminal (hatt : att ∈ attempts)
    (hid : changed.attemptId = att.attemptId) (hop : ¬att.isTerminal)
    (hnd : ((replace Attempt.attemptId att.attemptId changed attempts).map
      Attempt.attemptId).Nodup) (hoth : o ∈ attempts) (htm : o.isTerminal) :
    o ∈ replace Attempt.attemptId att.attemptId changed attempts := by
  rw [map_key_replace hid] at hnd
  refine mem_replace_of_ne hoth fun heq => ?_
  rw [inj_on_of_nodup_map hnd hoth hatt heq] at htm
  exact hop htm

end Replace

section

variable (h : bt.Orderly live dir)
include h

/-- An attempt that is active is changed. -/
theorem follows_update {aid : String} {st : BatchStatus → BatchStatus} {f : Attempt → Attempt}
    {att : Attempt}
    (hfd : bt.findAttempt aid = some att)
    (hnx : bt.update aid st f now = .ok next)
    (hval : isBatch P next)
    (hact : att.isActive)
    (hid : (f att).attemptId = att.attemptId)
    (hw : ¬(f att).isWaiting)
    (hend : ¬(st bt.status).isEnded)
    (hcan : st bt.status = .cancelling ↔ bt.status = .cancelling)
    (hlv : ∀ t ∈ live, t.place = ⟨dir, bt.batchId, aid⟩ → (f att).Carries t) :
    Follows bt next ∧ next.Orderly live dir := by
  have hatt := mem_of_find hfd
  obtain rfl : att.attemptId = aid := key_of_find hfd
  have hop := not_isTerminal_of_isActive hact
  simp only [Batch.update, hfd, Except.ok.injEq] at hnx
  have hterm := terminated_terminalBatch
    ({ bt with status := st bt.status }.replaceAttempt att.attemptId (f att)) now
  rw [hnx] at hterm
  have hatts : next.attempts = replace Attempt.attemptId att.attemptId (f att) bt.attempts :=
    hterm.attempts
  have hnd := nodup_of_isBatch hval
  have hori : ∀ o ∈ next.attempts, o = f att ∨ o ∈ bt.attempts := by
    intro o hoth
    rw [hatts] at hoth
    exact mem_replace hoth
  refine ⟨⟨hterm.batchId, ?_, ?_, ?_⟩, ⟨?_, ?_, ?_, ?_⟩⟩
  · -- The batch has not ended, as the attempt is active.
    intro hbt
    exact absurd (h.ended hbt att hatt) hop
  · exact fun hbt => hterm.cancelling (hcan.mpr hbt)
  · intro o hoth htm
    rw [hatts] at hnd ⊢
    exact mem_replace_of_isTerminal hatt hid hop hnd hoth htm
  · refine oneActive_of_id att.attemptId hnd fun o hoth hoact => ?_
    rcases hori o hoth with rfl | hold
    · exact hid
    · rw [h.oneActive o hold att hatt hoact hact]
  · intro hnen o hoth
    rcases hterm.status with hsts | ⟨hall, -⟩
    · rw [hsts] at hnen
      exact absurd hnen hend
    · rw [hterm.attempts] at hoth
      exact hall o hoth
  · intro hnextCancelling o hoth
    have hbt : bt.status = .cancelling := by
      rcases hterm.status with hsts | ⟨-, hnen⟩
      · exact hcan.mp (hsts.symm.trans hnextCancelling)
      · rw [hnextCancelling] at hnen
        cases hnen
    rcases hori o hoth with rfl | hold
    · exact hw
    · exact h.cancelling hbt o hold
  · intro t htn hof
    have hof' : t.IsOf dir bt.batchId := ⟨hof.1, hof.2.trans hterm.batchId⟩
    obtain ⟨carrier, hcar, hcid, hcars⟩ := h.live t htn hof'
    rw [hatts]
    by_cases heq : carrier.attemptId = att.attemptId
    · refine ⟨f att, mem_replace_self hatt rfl, ?_, hlv t htn ?_⟩
      · rw [hid, ← heq, hcid]
      · rw [← hof'.1, ← hof'.2, ← heq, hcid]
    · exact ⟨carrier, mem_replace_of_ne hcar heq, hcid, hcars⟩

omit h in
/-- A live turn is that of an active attempt. -/
theorem Attempt.Carries.isActive {att : Attempt} {t : Turn} (h : att.Carries t) :
    att.isActive := by
  rcases h with h | ⟨h, -⟩ <;> rw [Attempt.isActive, h] <;> rfl

theorem follows_claim {aid : String} (hcla : bt.claim now = some (next, aid))
    (hval : isBatch P next) : Follows bt next ∧ next.Orderly live dir := by
  unfold Batch.claim at hcla
  split_ifs at hcla with hfre
  obtain ⟨hcan, hend, hno⟩ : bt.status ≠ .cancelling ∧ ¬bt.status.isEnded ∧
      ∀ att ∈ bt.attempts, ¬att.isActive := by
    simpa using hfre
  obtain ⟨queued, hfd, hnx⟩ := Option.map_eq_some_iff.mp hcla
  have hq := mem_of_find?_eq_some hfd
  have hsts : queued.status = .queued := by simpa using find?_some hfd
  cases hnx
  have hnd := nodup_of_isBatch hval
  refine ⟨⟨rfl, fun _ => rfl, .inl, ?_⟩,
    ⟨?_, fun hnot => absurd hnot hend, fun hnot => absurd hnot hcan, ?_⟩⟩
  · intro o hoth htm
    refine mem_replace_of_isTerminal hq rfl ?_ hnd hoth htm
    rw [Attempt.isTerminal, hsts]
    decide
  · -- The attempt that was claimed is the only one that is active.
    refine oneActive_of_id queued.attemptId hnd fun o hoth hact => ?_
    rcases mem_replace hoth with rfl | hold
    · rfl
    · exact absurd hact (hno o hold)
  · intro t htn hof
    obtain ⟨carrier, hcar, -, hcars⟩ := h.live t htn hof
    exact absurd hcars.isActive (hno carrier hcar)

/-- What has no turn is cancelled. -/
theorem follows_beginCancel
    (hend : ¬bt.status.isEnded)
    (hlv : ∀ att ∈ bt.attempts, att.status = .starting →
      ∀ t ∈ live, t.place ≠ ⟨dir, bt.batchId, att.attemptId⟩) :
    Follows bt (bt.beginCancel now) ∧ (bt.beginCancel now).Orderly live dir := by
  -- An attempt is as it was, or it was waiting and is cancelled.
  have hori : ∀ o ∈ (bt.beginCancel now).attempts, o.isTerminal ∨ o ∈ bt.attempts ∧
      ¬o.isWaiting := by
    intro o hoth
    obtain ⟨att, hatt, rfl⟩ := mem_map.mp hoth
    split_ifs with hw
    · exact .inl rfl
    · exact .inr ⟨hatt, by simpa [Attempt.isWaiting] using hw⟩
  have hkp : ∀ att ∈ bt.attempts, ¬att.isWaiting → att ∈ (bt.beginCancel now).attempts := by
    intro att hatt hnot
    refine mem_map.mpr ⟨att, hatt, if_neg ?_⟩
    simpa [Attempt.isWaiting] using hnot
  refine ⟨⟨rfl, fun hbt => absurd hbt hend, fun _ => .inl rfl, ?_⟩, ⟨?_, nofun, ?_, ?_⟩⟩
  · intro att hatt htm
    exact hkp att hatt (not_isWaiting_of_isTerminal htm)
  · intro first hfst second hsnd hfact hsact
    rcases hori first hfst with htm | ⟨hold, -⟩
    · exact absurd htm (not_isTerminal_of_isActive hfact)
    rcases hori second hsnd with htm | ⟨hold', -⟩
    · exact absurd htm (not_isTerminal_of_isActive hsact)
    exact h.oneActive first hold second hold' hfact hsact
  · intro _ o hoth
    rcases hori o hoth with htm | ⟨-, hnot⟩
    · exact not_isWaiting_of_isTerminal htm
    · exact hnot
  · intro t htn hof
    obtain ⟨carrier, hcar, hcid, hcars⟩ := h.live t htn hof
    refine ⟨carrier, hkp carrier hcar ?_, hcid, hcars⟩
    rcases hcars with hstg | ⟨hrun, -⟩
    · refine absurd ?_ (hlv carrier hcar hstg t htn)
      rw [← hof.1, ← show t.place.batchId = bt.batchId from hof.2, hcid]
    · rw [Attempt.isWaiting, hrun]
      decide

theorem follows_endCancel {cAt : String} (hsts : bt.status = .cancelling ∨ bt.status = .cancelled)
    (hlv : ∀ t ∈ live, ¬t.IsOf dir bt.batchId) :
    Follows bt (bt.endCancel P cAt now) ∧ (bt.endCancel P cAt now).Orderly live dir := by
  have hw : ∀ att ∈ bt.attempts, ¬att.isActive → att.isTerminal := by
    intro att hatt hnot
    rcases hsts with hsts | hsts
    · have hw := h.cancelling hsts att hatt
      revert hnot hw
      unfold Attempt.isWaiting Attempt.isActive Attempt.isTerminal
      cases att.status <;> decide
    · exact h.ended (by rw [hsts]; rfl) att hatt
  have htm : ∀ o ∈ (bt.endCancel P cAt now).attempts, o.isTerminal := by
    intro o hoth
    obtain ⟨att, hatt, rfl⟩ := mem_map.mp hoth
    split_ifs with hact
    · rfl
    · exact hw att hatt hact
  refine ⟨⟨rfl, ?_, fun _ => .inr rfl, ?_⟩, ⟨?_, fun _ => htm, nofun, ?_⟩⟩
  · intro hend
    rcases hsts with hsts | hsts
    · rw [hsts] at hend
      cases hend
    · exact hsts.symm
  · intro att hatt hend
    exact mem_map.mpr ⟨att, hatt, if_neg fun hact =>
      not_isTerminal_of_isActive hact hend⟩
  · intro first hfst _ _ hact
    exact absurd (htm first hfst) (not_isTerminal_of_isActive hact)
  · exact fun t htn hof => absurd hof (hlv t htn)

end

end Batches

/-! ## Changes of the stored batches -/

section Changes

variable {s : Shared} {dir : String} {x : Answer P}

variable {state : WorkflowState}

theorem eq_of_loadState (h : loadState x s dir = .ok state) : state = s.state dir := by
  obtain ⟨-, -, h⟩ := bind_eq_ok.mp h
  obtain ⟨-, -, h⟩ := bind_eq_ok.mp h
  split at h <;> cases h
  rfl

theorem step_change {α : Type} {f : WorkflowState → Except String (Option WorkflowState × α)}
    (hinv : s.Orderly P)
    (h : ∀ state a, f (s.state dir) = .ok (some state, a) → parseWorkflowState P state = .ok () →
      Step P s (s.putState dir state)) :
    Step P s (change dir f x s).1 := by
  unfold change
  cases hf : loadState x s dir >>= f with
  | error e => exact step_refl hinv
  | ok res =>
    obtain ⟨state, hld, hf⟩ := bind_eq_ok.mp hf
    rw [eq_of_loadState hld] at hf
    obtain ⟨_ | state, a⟩ := res
    · exact step_refl hinv
    · dsimp only
      unfold writeWorkflowState
      split
      · exact step_refl hinv
      · exact step_refl hinv
      · rename_i hps _
        obtain ⟨⟨⟩, hps, -⟩ := bind_eq_ok.mp hps
        exact h state a hf hps

/-- The batches of one project are other ones. -/
theorem step_putState (hinv : s.Orderly P) (hps : parseWorkflowState P state = .ok ())
    (hfol : ∀ bt ∈ (s.state dir).batches, ∃ next ∈ state.batches, Follows bt next)
    (hord : ∀ bt ∈ state.batches, bt.Orderly s.live dir) :
    Step P s (s.putState dir state) := by
  have hbts : ∀ root, ∀ bt ∈ (s.state root).batches,
      ∃ next ∈ ((s.putState dir state).state root).batches, Follows bt next :=
    (forall_update_iff s.state fun root st => ∀ bt ∈ (s.state root).batches, ∃ next ∈ st.batches,
      Follows bt next).mpr ⟨hfol, fun root _ bt hbt => ⟨bt, hbt, .refl bt⟩⟩
  refine ⟨⟨hbts, fun _ _ _ _ _ _ => rfl⟩, ⟨?_, ?_, hinv.named, ?_⟩, fun _ _ _ _ htn _ => htn⟩
  · exact (forall_update_iff s.state fun _ st => parseWorkflowState P st = .ok ()).mpr
      ⟨hps, fun root _ => hinv.stored root⟩
  · exact (forall_update_iff s.state fun root st => ∀ bt ∈ st.batches, bt.Orderly s.live root).mpr
      ⟨hord, fun root _ => hinv.batches root⟩
  · intro t htn
    obtain ⟨bt, hbt, hid⟩ := hinv.known t htn
    obtain ⟨next, hnx, hfol⟩ := hbts _ bt hbt
    exact ⟨next, hnx, hfol.batchId.trans hid⟩

theorem step_changeBatch {α : Type} {bid : String} {missing : Except String α}
    {f : Batch → Except String (Option Batch × α)} (hinv : s.Orderly P)
    (h : ∀ bt next a, (s.state dir).findBatch bid = some bt →
      bt.Orderly s.live dir → f bt = .ok (some next, a) → isBatch P next →
      Follows bt next ∧ next.Orderly s.live dir) :
    Step P s (change dir (changeBatch bid missing f) x s).1 := by
  refine step_change hinv fun state a hch hps => ?_
  unfold changeBatch at hch
  split at hch
  · cases missing <;> cases hch
  · rename_i bt hfd
    obtain ⟨⟨_ | next, b⟩, hf, hnx⟩ := map_eq_ok.mp hch
    · cases hnx
    cases hnx
    have hbt := mem_of_find hfd
    have hbid : bt.batchId = bid := key_of_find hfd
    have hmem : next ∈ (replace Batch.batchId bid next (s.state dir).batches) :=
      mem_replace_self hbt hbid
    obtain ⟨hfol, hord⟩ :=
      h bt next _ hfd (hinv.batches dir bt hbt) hf ((nodup_of_parse hps).2 next hmem)
    refine step_putState hinv hps (fun o hoth => ?_) fun o hoth => ?_
    · by_cases heq : o.batchId = bid
      · obtain rfl := inj_on_of_nodup_map (nodup_of_parse (hinv.stored dir)).1 hoth hbt
          (heq.trans hbid.symm)
        exact ⟨next, hmem, hfol⟩
      · exact ⟨o, mem_replace_of_ne hoth heq, .refl o⟩
    · rcases mem_replace hoth with rfl | hold
      · exact hord
      · exact hinv.batches dir o hold

/-- The state may be written and read. -/
def Stored (P : Platform) (state : WorkflowState) : Prop :=
  parseWorkflowState P state = .ok () ∧ P.stateBytes state ≤ MAX_STATE_BYTES

theorem of_writeWorkflowState (h : (writeWorkflowState x s dir state).2 = .ok ()) :
    (writeWorkflowState x s dir state).1 = s.putState dir state ∧ Stored P state := by
  revert h
  unfold writeWorkflowState
  split
  · exact nofun
  · exact nofun
  · rename_i hps _
    obtain ⟨⟨⟩, hps, hsz⟩ := bind_eq_ok.mp hps
    exact fun _ => ⟨rfl, hps, ensure_eq_ok.mp hsz⟩

/-- What a change that succeeded has done. -/
theorem of_changeBatch {α : Type} {bid m : String} {a : α}
    {f : Batch → Except String (Option Batch × α)}
    (h : (change dir (changeBatch bid (.error m) f) x s).2 = .ok a) :
    ∃ bt next, (s.state dir).findBatch bid = some bt ∧ f bt = .ok (next, a) ∧
      (change dir (changeBatch bid (.error m) f) x s).1 =
        next.elim s (fun next => s.putState dir ((s.state dir).replaceBatch bid next)) ∧
      ∀ changed ∈ next, Stored P ((s.state dir).replaceBatch bid changed) := by
  unfold change at h ⊢
  cases hf : loadState x s dir >>= changeBatch bid (.error m) f with
  | error e =>
    rw [hf] at h
    cases h
  | ok res =>
    obtain ⟨state, hld, hch⟩ := bind_eq_ok.mp hf
    obtain rfl := eq_of_loadState hld
    unfold changeBatch at hch
    split at hch
    · cases hch
    · rename_i bt hfd
      obtain ⟨⟨next, b⟩, hnx, hres⟩ := map_eq_ok.mp hch
      cases hres
      rw [hf] at h
      cases next with
      | none =>
        cases h
        exact ⟨bt, none, hfd, hnx, rfl, nofun⟩
      | some next =>
        obtain ⟨_, hwr, rfl⟩ := map_eq_ok.mp h
        obtain ⟨heq, hps⟩ := of_writeWorkflowState hwr
        exact ⟨bt, some next, hfd, hnx, heq, by rintro _ ⟨⟩; exact hps⟩

end Changes

/-! ## The calls -/

/-- The step only asks. -/
def Label.IsAsk : Label → Prop
  | .memory | .readState _ | .respond | .readThread _ => True
  | _ => False

/-- The steps of which the calls are made follow the outline. -/
structure Admits (O : Outline Shared (Answer P) Label) : Prop where
  ask : ∀ {α : Type} {l : Label} {f : Answer P → Shared → Except String α}, l.IsAsk →
    (await l fun x s => (s, f x s) : Op P α).Obeys O
  remember : ∀ {f : Shared → Shared}, (∀ s, (f s).state = s.state ∧ (f s).results = s.results ∧
    (f s).live = s.live) → (remember f).Obeys O
  claim : ∀ i, (claim i).Obeys O
  startRun : ∀ p, (startWorkflowRun p).Obeys O
  started : ∀ p res, (updateAttempt (.started p res) p (fun _ => .running)
    fun _ att => att.begin res).Obeys O
  fails : ∀ {l p} code m, l = .startFailed p ∨ l = .fail p →
    (updateAttempt l p id fun x att => att.fail code m x).Obeys O
  record : ∀ p checks out, (recordResult p checks out).Obeys O
  create : ∀ i, (createBatch i).Obeys O
  interrupt : ∀ th uid, (interruptTurn (.interrupt th uid) th uid).Obeys O
  cancel : ∀ dir bid, (cancelBatch dir bid).Obeys O
  turnEnds : ∀ th uid, (program (.turnEnds th uid)).Obeys O

theorem forget_eq (s : Shared) (th : Option String) : (s.forget th).state = s.state ∧
    (s.forget th).results = s.results ∧ (s.forget th).live = s.live := by
  unfold Shared.forget
  split <;> exact ⟨rfl, rfl, rfl⟩

section Calls

variable {O : Outline Shared (Answer P) Label} (h : Admits O) (loc : AttemptLocation)
include h

theorem obeys_launch : (launch loc : Op P Unit).Obeys O := by
  refine (h.startRun _).bind fun res => ?_
  split
  · exact obeys_attempt _
  · exact (h.started _ res).bind fun _ => h.remember fun s => ⟨rfl, rfl, rfl⟩

theorem obeys_tryLaunch : (tryLaunch loc : Op P Bool).Obeys O := by
  refine Obeys.recover ((obeys_launch h loc).bind fun _ => obeys_pure _) fun m => ?_
  exact (h.fails _ _ (.inl rfl)).bind fun _ => obeys_pure _

theorem obeys_startNextWithin (i : BatchInput) (rounds : Nat) :
    (startNextWithin i rounds : Op P Unit).Obeys O := by
  induction rounds with
  | zero => exact obeys_pure _
  | succ rounds ih =>
    refine (h.claim i).bind fun claimed => ?_
    split
    · exact obeys_pure _
    · refine (obeys_tryLaunch h _).bind fun launched => ?_
      split
      · exact obeys_pure _
      · exact ih

theorem obeys_startNext (i : BatchInput) : (startNext i : Op P Unit).Obeys O :=
  obeys_startNextWithin h i _

theorem obeys_goOn (th : Option String) : (goOn loc th : Op P Unit).Obeys O :=
  (h.remember fun s => forget_eq s th).bind fun _ => obeys_startNext h _

theorem obeys_finish (out : Text) : (finish loc out : Op P Unit).Obeys O := by
  refine Obeys.bind (h.ask trivial) fun state => ?_
  split
  · exact obeys_pure _
  · split
    · exact obeys_pure _
    · exact (h.record _ _ _).bind fun _ => obeys_goOn h loc _

theorem obeys_fail (code : String) (m : Text) : (fail loc code m : Op P Unit).Obeys O :=
  (h.fails _ _ (.inr rfl)).bind fun _ => obeys_goOn h loc _

theorem obeys_startBatch (i : StartInput) : (startBatch i : Op P Unit).Obeys O :=
  (obeys_attempt _).bind fun _ => (obeys_attempt _).bind fun _ =>
    (h.create i).bind fun _ => obeys_startNext h _

theorem obeys_handleTurnCompleted (th : String) :
    (handleTurnCompleted loc th : Op P Unit).Obeys O := by
  refine Obeys.bind ?_ fun r => ?_
  · refine Obeys.bind (h.ask trivial) fun remembered => ?_
    split
    · exact obeys_pure _
    · exact Obeys.bind (h.ask trivial) fun history => obeys_pure _
  · split
    · exact obeys_fail h loc _ _
    · exact obeys_finish h loc _

theorem obeys_handleRuntimeNotification (n : Notification Text) (allowed : Option String) :
    (handleRuntimeNotification n allowed : Op P Bool).Obeys O := by
  refine Obeys.bind (h.ask trivial) fun found => ?_
  split
  · exact obeys_pure _
  · split
    · exact Obeys.bind (h.remember fun s => ⟨rfl, rfl, rfl⟩) fun _ => obeys_pure _
    · exact (obeys_fail h _ _ _).bind fun _ => obeys_pure _
    · exact (obeys_handleTurnCompleted h _ _).bind fun _ => obeys_pure _
    · exact obeys_pure _

theorem obeys_handleRuntimeApproval (approval : Approval) (allowed : Option String) :
    (handleRuntimeApproval approval allowed : Op P Bool).Obeys O := by
  refine Obeys.bind (h.ask trivial) fun found => ?_
  split
  · exact obeys_pure _
  · refine Obeys.bind (Obeys.ignore ?_) fun _ => ?_
    · split
      · exact h.ask trivial
      · exact obeys_pure _
    · refine (h.interrupt _ _).ignore.bind fun _ => ?_
      exact (obeys_fail h _ _ _).bind fun _ => obeys_pure _

theorem obeys_settle (history : Except String (ThreadHistory Text)) :
    (settle loc history : Op P Unit).Obeys O := by
  unfold settle
  split
  · exact obeys_fail h loc _ _
  · split
    · exact obeys_finish h loc _
    · exact obeys_fail h loc _ _
    · exact obeys_fail h loc _ _
    · exact obeys_pure _

theorem obeys_reconcileRunning (running : Attempt) :
    (reconcileRunning loc running : Op P Unit).Obeys O := by
  unfold reconcileRunning
  split
  · exact obeys_fail h loc _ _
  · refine Obeys.bind (h.remember fun s => ⟨rfl, rfl, rfl⟩) fun _ => Obeys.bind ?_ fun history => ?_
    · exact Obeys.recover (Obeys.bind (h.ask trivial) fun _ => obeys_pure _) fun _ => obeys_pure _
    · exact obeys_settle h loc history

theorem obeys_reconcileProject (pid dir : String) :
    (reconcileProject pid dir : Op P Unit).Obeys O := by
  refine Obeys.bind (h.ask trivial) fun state => obeys_forEach (fun bt => ?_) _
  unfold reconcileBatch
  dsimp only
  split
  · exact h.cancel _ _
  · split
    · exact obeys_fail h _ _ _
    · exact obeys_startNext h _
    · exact obeys_reconcileRunning h _ _

/-- All calls follow the outline. -/
theorem Admits.program (call : Call) : (program call : Op P Unit).Obeys O := by
  cases call with
  | startBatch input => exact obeys_startBatch h input
  | cancelBatch dir batchId => exact h.cancel dir batchId
  | notification notification allowedRootPath =>
    exact (obeys_handleRuntimeNotification h notification allowedRootPath).bind fun _ =>
      obeys_pure _
  | approval approval allowedRootPath =>
    exact (obeys_handleRuntimeApproval h approval allowedRootPath).bind fun _ => obeys_pure _
  | reconcile projectId dir => exact obeys_reconcileProject h projectId dir
  | turnEnds threadId turnId => exact h.turnEnds threadId turnId

end Calls

/-! ## The steps of the calls -/

section Admitted

variable (p : Place) {dir : String}

theorem Batch.Orderly.not_isEnded {live : List Turn} {bt : Batch}
    (h : bt.Orderly live dir) {att : Attempt} (hatt : att ∈ bt.attempts)
    (hact : att.isActive) : ¬bt.status.isEnded := fun hend =>
  not_isTerminal_of_isActive hact (h.ended hend att hatt)

/-- A change that ends an attempt finds it active, and its turn ended or interrupted. -/
theorem obeys_endAttempt {l : Label} {f : Answer P → Attempt → Attempt} (hlb : ∀ s, Before l s)
    (hreg : ∀ (x : Answer P) s, Regular l x s → (∀ att ∈ s.attemptAt p, att.isActive) ∧ Idle p s)
    (hid : ∀ x att, (f x att).attemptId = att.attemptId)
    (htm : ∀ x att, (f x att).isTerminal) :
    (updateAttempt l p id f).Obeys (outline P) := by
  refine obeys_await hlb fun x s hinv hg => ?_
  obtain ⟨hact, hidle⟩ := hreg x s hg
  refine step_changeBatch hinv fun bt next a hfd hord hnx hval => ?_
  obtain ⟨changed, hchd, heq⟩ := map_eq_ok.mp hnx
  cases heq
  cases hatt : bt.findAttempt p.attemptId with
  | none =>
    rw [Batch.update, hatt] at hchd
    cases hchd
  | some att =>
    have hat : s.attemptAt p = some att := by
      rw [Shared.attemptAt, hfd]
      exact hatt
    have hattemptActive := hact att hat
    refine follows_update hord hatt hchd hval hattemptActive (hid x att)
      (not_isWaiting_of_isTerminal (htm x att))
      (hord.not_isEnded (mem_of_find hatt) hattemptActive) Iff.rfl fun t htn hplc => ?_
    rw [show bt.batchId = p.batchId from key_of_find hfd] at hplc
    exact absurd hplc (hidle t htn)

/-- The record of a start finds the attempt starting, and its turn live. -/
theorem obeys_started (res : Started) : (updateAttempt (.started p res) p (fun _ => .running)
      fun _ att => att.begin res : Op P Batch).Obeys (outline P) := by
  refine obeys_await (fun _ => trivial) fun x s hinv hg => ?_
  obtain ⟨hstg, hlv⟩ := hg
  refine step_changeBatch hinv fun bt next a hfd hord hnx hval => ?_
  obtain ⟨changed, hchd, heq⟩ := map_eq_ok.mp hnx
  cases heq
  cases hatt : bt.findAttempt p.attemptId with
  | none =>
    rw [Batch.update, hatt] at hchd
    cases hchd
  | some att =>
    have hat : s.attemptAt p = some att := by
      rw [Shared.attemptAt, hfd]
      exact hatt
    have hsts := hstg att hat
    have hact : att.isActive := by
      rw [Attempt.isActive, hsts]
      rfl
    refine follows_update hord hatt hchd hval hact rfl nofun nofun ?_ ?_
    · exact ⟨nofun, fun hcan =>
        absurd hcan (hord.not_cancelling (mem_of_find hatt) hsts)⟩
    · intro t htn hplc
      rw [show bt.batchId = p.batchId from key_of_find hfd] at hplc
      obtain ⟨hth, hturnId⟩ := hlv t htn hplc
      exact .inr ⟨rfl, congrArg some hth.symm, congrArg some hturnId.symm⟩

theorem obeys_claim (i : BatchInput) : (claim i : Op P _).Obeys (outline P) := by
  refine obeys_await (fun _ => trivial) fun x s hinv _ => ?_
  refine step_changeBatch hinv fun bt next a _ hord hnx hval => ?_
  cases hcla : bt.claim x.now.text with
  | none =>
    rw [hcla] at hnx
    cases hnx
  | some claimed =>
    rw [hcla] at hnx
    cases hnx
    exact follows_claim hord hcla hval

theorem obeys_startWorkflowRun : (startWorkflowRun p : Op P _).Obeys (outline P) := by
  refine obeys_await (fun _ => trivial) fun x s hinv hg => ?_
  cases hstd : x.started with
  | error e => exact step_refl hinv
  | ok res => exact step_startRun hinv hg hstd

theorem obeys_storeResult (src : Text) : (storeResult p src : Op P Unit).Obeys (outline P) := by
  unfold storeResult
  generalize encode src = bytes
  refine Obeys.bind ?_ fun created => ?_
  · refine obeys_await (fun _ => trivial) fun x s hinv hg => ?_
    split
    · exact step_refl hinv
    · exact step_refl hinv
    · exact step_putResult hinv hg
  · split
    · refine obeys_forEach (fun byte => obeys_await (fun _ => trivial) fun x s hinv hg => ?_) bytes
      split
      · exact step_refl hinv
      · exact step_putResult hinv hg
    · exact Obeys.bind (obeys_await (fun _ => trivial) fun _ _ hinv _ => step_refl hinv)
        fun existing => obeys_attempt _

theorem obeys_createBatch (i : StartInput) : (createBatch i : Op P String).Obeys (outline P) := by
  refine obeys_await (fun _ => trivial) fun x s hinv _ =>
    step_change hinv fun state a hcre hps => ?_
  simp only [bind_eq_ok, ensure_eq_ok, require_eq_ok, pure_eq_ok] at hcre
  obtain ⟨d, -, -, ⟨-, hnew⟩, hcrd⟩ := hcre
  cases hcrd
  refine step_putState hinv hps (fun bt hbt => ?_) fun bt hbt => ?_
  · exact ⟨bt, mem_append_left _ hbt, .refl bt⟩
  rcases mem_append.mp hbt with hold | hnx
  · exact hinv.batches i.rootPath bt hold
  · obtain rfl := mem_singleton.mp hnx
    have hq : ∀ att ∈ (i.created d x.createdId x.now.text).attempts, ¬att.isActive := by
      intro att hatt
      obtain ⟨index, -, rfl⟩ := mem_map.mp hatt
      rintro ⟨⟩
    refine ⟨fun first hfst _ _ hact => absurd hact (hq first hfst), by rintro ⟨⟩, by rintro ⟨⟩, ?_⟩
    -- No turn of the new batch is live, as live turns are those of batches that are there.
    rintro t htn ⟨hro, hid⟩
    obtain ⟨bt, hbt, hbid⟩ := hinv.known t htn
    rw [hro] at hbt
    exact absurd ⟨bt, hbt, hbid.trans hid⟩ hnew

theorem obeys_interruptTurn (th uid : String) :
    (interruptTurn (.interrupt th uid) th uid : Op P Unit).Obeys (outline P) := by
  refine obeys_await (fun _ => trivial) fun x s hinv _ => ?_
  cases x.interrupted with
  | error e => exact step_refl hinv
  | ok => exact step_interrupt hinv _ _

/-! ### Cancelling a batch -/

/-- A live turn of a batch is the one that its cancellation interrupts. -/
theorem Batch.Orderly.activeTurn {live : List Turn} {bt : Batch} {t : Turn}
    (h : bt.Orderly live dir) (htn : t ∈ live) (hof : t.IsOf dir bt.batchId)
    (hidle : ∀ att ∈ bt.attempts, att.status = .starting →
      t.place ≠ ⟨dir, bt.batchId, att.attemptId⟩)
    (hnamed : t.threadId ≠ "" ∧ t.turnId ≠ "") :
    bt.activeTurn = some (t.threadId, t.turnId) := by
  obtain ⟨carrier, hcar, hcid, hcars⟩ := h.live t htn hof
  have hfd : bt.attempts.find? Attempt.isActive = some carrier := by
    obtain ⟨active, hact⟩ :=
      Option.isSome_iff_exists.mp (find?_isSome.mpr ⟨carrier, hcar, hcars.isActive⟩)
    rw [hact, h.oneActive active (mem_of_find?_eq_some hact) carrier hcar
      (find?_some hact) hcars.isActive]
  rcases hcars with hstg | ⟨-, hth, hturnId⟩
  · refine absurd ?_ (hidle carrier hcar hstg)
    rw [← hof.1, ← show t.place.batchId = bt.batchId from hof.2, hcid]
  · rw [Batch.activeTurn, hfd]
    simp [hth, hturnId, given, Option.filter, hnamed.1, hnamed.2]

/-- What is known when the cancellation has begun. -/
def Begun (rootPath batchId : String) (turn : Option (String × String)) : Shared → Prop :=
  match turn with
  | none => Before (.endCancel rootPath batchId)
  | some (threadId, turnId) => Before (.cancelTurn rootPath batchId threadId turnId)

theorem sound_beginCancel (dir bid : String) (s : Shared) :
    (beginCancel dir bid : Op P Cancellation).Sound (outline P)
      (fun r s => ∀ cancellation, r = .ok cancellation → Begun dir bid cancellation.turn s) s := by
  refine sound_await.mpr ⟨trivial, fun x s hinv _ hg => ⟨?_, fun cancellation hbg => ?_⟩⟩
  · refine step_changeBatch hinv fun bt next a hfd hord hnx _ => ?_
    simp only [bind_eq_ok, ensure_eq_ok, pure_eq_ok] at hnx
    obtain ⟨-, hend, hnx⟩ := hnx
    cases hnx
    refine follows_beginCancel hord hend fun att hatt hstg t htn => ?_
    rw [show bt.batchId = bid from key_of_find hfd]
    exact hg bt hfd att hatt hstg t htn
  · obtain ⟨bt, next, hfd, hnx, haf, -⟩ := of_changeBatch hbg
    simp only [bind_eq_ok, ensure_eq_ok, pure_eq_ok] at hnx
    obtain ⟨-, hend, hnx⟩ := hnx
    cases hnx
    have hbt := mem_of_find hfd
    have hbid : bt.batchId = bid := key_of_find hfd
    -- The turns that are live are as before, and of this batch there is at most the active one.
    have hlv : ∀ t ∈ s.live, t.IsOf dir bid → bt.activeTurn = some (t.threadId, t.turnId) := by
      intro t htn hof
      rw [← hbid] at hof
      refine (hinv.batches dir bt hbt).activeTurn htn hof ?_ (hinv.named t htn)
      intro att hatt hstg
      rw [hbid]
      exact hg bt hfd att hatt hstg t htn
    have hclg : Closing dir bid (s.putState dir
        ((s.state dir).replaceBatch bid (bt.beginCancel x.now.text))) := by
      refine ⟨bt.beginCancel x.now.text, ?_, hbid, .inl rfl⟩
      rw [show (s.putState dir _).state dir = _ from update_self ..]
      exact mem_replace_self hbt hbid
    rw [haf]
    dsimp only [Option.elim]
    cases hact : bt.activeTurn with
    | none =>
      refine ⟨hclg, fun t htn hof => ?_⟩
      rw [hlv t htn hof] at hact
      cases hact
    | some active =>
      refine ⟨hclg, fun t htn hof => ?_⟩
      rw [hlv t htn hof] at hact
      cases hact
      exact ⟨rfl, rfl⟩

theorem sound_endCancel {bid cAt : String} {s : Shared} (hbf : Before (.endCancel dir bid) s) :
    (endCancel dir bid cAt : Op P Unit).Sound (outline P) (fun _ _ => True) s := by
  refine sound_bind.mpr (sound_await.mpr ⟨hbf, fun x s hinv hbf _ => ⟨?_, ?_⟩⟩)
  · obtain ⟨⟨closing, hclg, hclosingId, hsts⟩, hlv⟩ := hbf
    refine step_changeBatch hinv fun bt next a hfd hord hnx _ => ?_
    cases hnx
    have hbid : bt.batchId = bid := key_of_find hfd
    obtain rfl := inj_on_of_nodup_map (nodup_of_parse (hinv.stored dir)).1 hclg
      (mem_of_find hfd) (hclosingId.trans hbid.symm)
    rw [← hbid] at hlv
    exact follows_endCancel hord hsts hlv
  · -- What the controller remembers of the threads does not matter.
    rcases (change _ _ x s).2 with e | threads
    · trivial
    · exact (obeys_await (fun _ => trivial) fun _ s hinv _ => step_forgetAll hinv threads).sound _

theorem obeys_cancelBatch (dir bid : String) :
    (cancelBatch dir bid : Op P Unit).Obeys (outline P) := by
  constructor
  intro s
  refine sound_bind.mpr ((sound_beginCancel dir bid s).imp fun r s hbg => ?_)
  rcases r with e | ⟨cAt, t⟩
  · trivial
  have hbf := hbg _ rfl
  rcases t with _ | ⟨th, uid⟩
  · exact sound_endCancel hbf
  · refine sound_bind.mpr (sound_await.mpr ⟨hbf, fun x s hinv hbf _ => ?_⟩)
    cases x.interrupted with
    | error e => exact ⟨step_refl hinv, trivial⟩
    | ok =>
      refine ⟨step_interrupt hinv _ _, sound_endCancel ⟨hbf.1, fun t htn hof => ?_⟩⟩
      obtain ⟨htn, hnot⟩ := mem_filter.mp htn
      exact of_decide_eq_true hnot (hbf.2 t htn hof)

theorem admits_outline : Admits (outline P) where
  ask {α l f} hl := obeys_await (fun s => by cases l <;> trivial)
    fun _ _ hinv _ => step_refl hinv
  remember hf := obeys_await (fun _ => trivial) fun _ s hinv _ =>
    step_of_eq hinv (hf s).1 (hf s).2.1 ((hf s).2.2 ▸ Subset.refl _)
  claim := obeys_claim
  startRun := obeys_startWorkflowRun
  started := obeys_started
  fails code m hl := by
    rcases hl with rfl | rfl <;>
      exact obeys_endAttempt _ (fun _ => trivial) (fun _ _ => id) (fun _ _ => rfl) fun _ _ => rfl
  record p checks out := by
    refine Obeys.bind ?_ fun _ => ?_
    · exact (obeys_attempt _).bind fun _ => (obeys_attempt _).bind fun _ => obeys_storeResult _ _
    · exact obeys_endAttempt _ (fun _ => trivial) (fun _ _ => id) (fun _ _ => rfl) fun _ _ => rfl
  create := obeys_createBatch
  interrupt := obeys_interruptTurn
  cancel := obeys_cancelBatch
  turnEnds th uid := obeys_await (fun _ => trivial) fun _ s hinv _ => step_interrupt hinv th uid

end Admitted

/-! ## Runs of the controller -/

/-- The controller of stored batches, before its first call. -/
def controller (P : Platform) (s : Shared) : Pool Shared (Answer P) Label String Unit := ⟨s, []⟩

/-- All steps of the actions are regular. -/
def AllRegular (P : Platform) (s : Shared) (actions : List (Pool.Action Call (Answer P))) : Prop :=
  (controller P s).AllGuarded program (outline P) actions

/-- What the calls share after the actions. -/
def after (P : Platform) (s : Shared) (actions : List (Pool.Action Call (Answer P))) : Shared :=
  ((controller P s).run program actions).shared

/-- At most one attempt of a batch runs, and no turn of a cancelled batch is live. -/
structure Quiet (s : Shared) : Prop where
  oneRunning : ∀ rootPath, ∀ batch ∈ (s.state rootPath).batches, ∀ attempt ∈ batch.attempts,
    ∀ other ∈ batch.attempts, attempt.status = .running → other.status = .running → attempt = other
  cancelled : ∀ rootPath, ∀ batch ∈ (s.state rootPath).batches, batch.status = .cancelled →
    ∀ turn ∈ s.live, ¬turn.IsOf rootPath batch.batchId

theorem Shared.Orderly.quiet (h : s.Orderly P) : Quiet s where
  oneRunning dir bt hbt att hatt o hoth hrun hotherRunning := by
    refine (h.batches dir bt hbt).oneActive att hatt o hoth ?_ ?_
    · rw [Attempt.isActive, hrun]
      rfl
    · rw [Attempt.isActive, hotherRunning]
      rfl
  cancelled dir bt hbt hsts turn htn hof := by
    have hord := h.batches dir bt hbt
    obtain ⟨carrier, hcar, -, hcars⟩ := hord.live turn htn hof
    exact hord.not_isEnded hcar hcars.isActive (by rw [hsts]; rfl)

theorem keeps_of_steps (h : Relation.ReflTransGen (outline P).guarantee s s') :
    Keeps s s' := by
  induction h with
  | refl => exact Keeps.refl s
  | tail _ hstp ih => exact ih.trans hstp.keeps

/-- In every run of the controller whose steps are regular, at most one attempt of a batch runs, no
turn of a cancelled batch is live, and what has ended stays as it is. -/
theorem finished_stays (hs : s.Orderly P)
    (actions later : List (Pool.Action Call (Answer P)))
    (hregular : AllRegular P s (actions ++ later)) :
    Quiet (after P s (actions ++ later)) ∧
    Keeps (after P s actions) (after P s (actions ++ later)) := by
  obtain ⟨hfirst, hlater⟩ := Pool.allGuarded_append.mp hregular
  have hsound : (controller P s).Sound (outline P) := ⟨hs, nofun⟩
  obtain ⟨hmiddle, -⟩ := Pool.sound_run admits_outline.program hsound hfirst
  obtain ⟨hend, hsteps⟩ := Pool.sound_run admits_outline.program hmiddle hlater
  rw [after, after, Pool.run_append]
  exact ⟨hend.inv.quiet, keeps_of_steps hsteps⟩

/-! ## An example -/

section Example

/-- One workflow, which was not run yet. -/
def oneWorkflow : Shared := ⟨fun _ => ⟨[plainDefinition], []⟩, fun _ => none, .empty, .empty, []⟩

theorem orderly_oneWorkflow : oneWorkflow.Orderly plainPlatform :=
  ⟨fun _ => rfl, fun _ _ hbt => absurd hbt not_mem_nil, nofun, nofun⟩

/-- Everything goes well. -/
def goodAnswer : Answer plainPlatform where
  now := ⟨noon, by decide⟩
  createdId := "batch"
  refused := none
  started := .ok ⟨"thread", "turn", workflowBoundary⟩
  interrupted := .ok ()
  responded := .ok ()
  history := .ok ⟨some "Done", .completed⟩

/-- A call is resumed, and everything goes well. -/
def good (i : Nat) : Pool.Action Call (Answer plainPlatform) := .resume i goodAnswer

/-- A batch of one attempt is created, and the attempt is claimed. -/
def claimedBatch : List (Pool.Action Call (Answer plainPlatform)) :=
  [.call (.startBatch ⟨"project", "/project", "workflow", 1⟩), good 0, good 0]

/-- The batch is cancelled. -/
def cancelledBatch : List (Pool.Action Call (Answer plainPlatform)) :=
  [.call (.cancelBatch "/project" "batch"), good 1, good 1]

/-- The statuses of the batches and of their attempts. -/
def statuses (s : Shared) : List (BatchStatus × List AttemptStatus) :=
  (s.state "/project").batches.map fun batch => (batch.status, batch.attempts.map Attempt.status)

/-- The attempt runs; the end of its turn is reported, and before the report is handled the batch is
cancelled. -/
def cancelledInTime : List (Pool.Action Call (Answer plainPlatform)) :=
  claimedBatch ++ [good 0, good 0, good 0,
    .call (.notification ⟨.turnCompleted, "thread", none⟩ none),
    good 1, .call (.cancelBatch "/project" "batch"), good 2, good 2, good 2, good 2]

/-- The report is handled: its text is read, and `finish` finds that the attempt has ended. -/
def lateReport : List (Pool.Action Call (Answer plainPlatform)) := [good 1, good 1, good 1]

theorem finished_stays_cancelledBatch :
    statuses (after plainPlatform oneWorkflow cancelledInTime) = [(.cancelled, [.cancelled])] ∧
      ((controller plainPlatform oneWorkflow).labels program
        (cancelledInTime ++ lateReport)).getLast? =
        some (.readState "/project") ∧
      Quiet (after plainPlatform oneWorkflow (cancelledInTime ++ lateReport)) ∧
      Keeps (after plainPlatform oneWorkflow cancelledInTime)
        (after plainPlatform oneWorkflow (cancelledInTime ++ lateReport)) := by
  refine ⟨rfl, rfl, finished_stays orderly_oneWorkflow _ _ ?_⟩
  refine ⟨trivial, ?_, ?_, ?_, ?_, ?_, trivial, ?_, trivial, ?_, ?_, ?_, ?_, ?_, ?_, ?_, trivial⟩
  case refine_3 =>
    rintro label ⟨⟩ result ⟨⟩
    exact ⟨⟨_, rfl, rfl⟩, nofun, nofun, nofun⟩
  case refine_4 =>
    rintro label ⟨⟩
    refine ⟨?_, ?_⟩
    · rintro attempt ⟨⟩
      rfl
    · intro turn hturn _
      cases mem_singleton.mp hturn
      exact ⟨rfl, rfl⟩
  case refine_7 =>
    rintro label ⟨⟩ batch ⟨⟩ attempt hattempt hstarting
    cases mem_singleton.mp hattempt
    cases hstarting
  all_goals
    rintro label ⟨⟩
    trivial

/-- The attempt is cancelled while its turn is being started; then it runs, and so does the
batch. -/
theorem cancelled_becomes_running :
    statuses (after plainPlatform oneWorkflow (claimedBatch ++ cancelledBatch)) =
        [(.cancelled, [.cancelled])] ∧
      statuses (after plainPlatform oneWorkflow (claimedBatch ++ cancelledBatch ++
        [good 0, good 0])) =
        [(.running, [.running])] ∧
      ¬Keeps (after plainPlatform oneWorkflow (claimedBatch ++ cancelledBatch))
        (after plainPlatform oneWorkflow (claimedBatch ++ cancelledBatch ++ [good 0, good 0])) := by
  have hcancelled : statuses (after plainPlatform oneWorkflow (claimedBatch ++ cancelledBatch)) =
      [(.cancelled, [.cancelled])] := rfl
  have hrunning : statuses (after plainPlatform oneWorkflow
      (claimedBatch ++ cancelledBatch ++ [good 0, good 0])) = [(.running, [.running])] := rfl
  refine ⟨hcancelled, hrunning, fun hkeeps => ?_⟩
  obtain ⟨batch, hbatch, hstatus⟩ := mem_map.mp (hcancelled ▸ mem_singleton_self _)
  obtain ⟨next, hnext, hfollows⟩ := hkeeps.batches "/project" batch hbatch
  have hmem : (next.status, next.attempts.map Attempt.status) ∈
      [(BatchStatus.running, [AttemptStatus.running])] :=
    hrunning ▸ mem_map.mpr ⟨next, hnext, rfl⟩
  have hnextStatus := (Prod.mk.inj (mem_singleton.mp hmem)).1
  have hbatchStatus := (Prod.mk.inj hstatus).1
  rw [hfollows.ended (by rw [hbatchStatus]; rfl), hbatchStatus] at hnextStatus
  cases hnextStatus

end Example

end Orquesta.Workflow
