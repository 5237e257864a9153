import Orquesta.Workflow.Interleavings

/-!
# Reading a result

`readResult` returns the text with which `finish` completed an attempt, with a line end if it had
none.  The text may have as many bytes as the file may have, and the line end comes on top: a text
of that size without a line end is stored, and can never be read (`longest_text_unreadable`).  Nor
can a text with a lone surrogate, as U+FFFD is written instead.

All other texts are read, whatever happens later: the result path, the preview and the file of an
attempt are kept by every step of every call, regular or not.

## Main definitions

* `readResult`
* `Recorded`: the attempt is recorded with its result, and the file has the text

## Main results

* `admits_recorded`: every step of a call keeps that
* `result_readable_iff`, `longest_text_unreadable`
-/

namespace Orquesta.Workflow

open Checked Contract RunRuntime Async List Rows Function

variable {P : Platform}

def readResult (place : Place) : Op P Text := do
  let state ← readWorkflowState place.rootPath
  match (state.findBatch place.batchId).bind (·.findAttempt place.attemptId) with
  | none => Async.attempt (.error "workflow result is unavailable")
  | some attempt => do
    Async.attempt (ensure (given attempt.resultPath ≠ none) "workflow result is unavailable")
    let output ← readWorkflowResult place
    Async.attempt (ensure (∃ preview ∈ present attempt.resultPreview, preview <+: trimUnits output)
      "workflow result does not match its recorded attempt")
    return output

/-- The store works. -/
def Works (P : Platform) (_ : Label) (x : Answer P) : Prop := x.refused = none

theorem exists_works (l : Label) : ∃ x : Answer P, Works P l x :=
  ⟨⟨⟨_, P.isDate_epoch⟩, "", none, .error "", .ok (), .ok (), .error ""⟩, rfl⟩

/-! ## Texts -/

section Texts

variable {out : Text}

theorem trimUnits_resultSource (out : Text) : trimUnits (resultSource out) = trimUnits out := by
  have hw : isWhiteSpace (Char.ofNat (10 : UInt16).toNat) := by decide
  unfold resultSource
  split_ifs
  · rfl
  · unfold trimUnits
    dsimp only
    rw [dropWhile_append]
    split_ifs with hnil
    · rw [isEmpty_iff.mp hnil]
      rfl
    · exact rdropWhile_concat_pos _ _ _ hw

theorem trimUnits_ne_nil {u : UInt16} (hu : u ∈ out) (hw : ¬isWhiteSpace (Char.ofNat u.toNat)) :
    trimUnits out ≠ [] := by
  intro hnil
  rw [trimUnits, rdropWhile_eq_nil_iff] at hnil
  cases hfront : out.dropWhile fun u => isWhiteSpace (Char.ofNat u.toNat) with
  | nil => exact hw (dropWhile_eq_nil_iff.mp hfront u hu)
  | cons v vs =>
    have hv := head_dropWhile_not (fun u : UInt16 => isWhiteSpace (Char.ofNat u.toNat))
      (l := out) (by simp [hfront])
    simp only [hfront, head_cons] at hv
    rw [hnil v (by rw [hfront]; exact mem_cons_self)] at hv
    cases hv

theorem isWellFormed_resultSource : IsWellFormed (resultSource out) ↔ IsWellFormed out := by
  unfold resultSource
  split_ifs
  · rfl
  · exact isWellFormed_concat

theorem toUtf16_toWellFormed (h : IsWellFormed out) : toUtf16 (toWellFormed out) = out := by
  obtain ⟨v, rfl⟩ := h
  rw [toWellFormed_toUtf16]

/-- The preview of a text is not empty, and the text begins with it. -/
theorem preview_of_trimUnits {n : Nat} (hn : 0 < n) (h : trimUnits out ≠ []) :
    ∃ preview ∈ present (some ((trimUnits out).take n)), preview <+:
    trimUnits (resultSource out) := by
  refine ⟨_, Option.mem_filter_iff.mpr ⟨rfl, decide_eq_true fun hnil => ?_⟩, ?_⟩
  · rcases take_eq_nil_iff.mp hnil with hzero | hnil
    · omega
    · exact h hnil
  · rw [trimUnits_resultSource]
    exact take_prefix n _

end Texts

/-! ## The file -/

section File

variable {s : Shared} {pl : Place}

theorem wp_ensure {X : Label → Answer P → Prop} {α : Type} {c : Prop} [Decidable c] {m : String}
    {t : Op P α} {Q : Except String α → Shared → Prop} (hok : c → t.Wp X Q s)
    (herr : ¬c → Q (.error m) s) : (Async.attempt (ensure c m) >>= fun _ => t).Wp X Q s := by
  refine wp_bind.mpr (wp_attempt.mpr ?_)
  rw [ensure]
  split_ifs with hc
  · exact hok hc
  · exact herr hc

/-- The text can be stored as the result, or is stored already. -/
structure Storable (P : Platform) (s : Shared) (place : Place) (output : Text) : Prop where
  nonempty : trimUnits output ≠ []
  short : (encode output).length ≤ MAX_RESULT_BYTES
  fresh : ∀ bytes ∈ s.results place, bytes.length ≤ MAX_RESULT_BYTES ∧
    toUtf16 (P.decode bytes) = resultSource output

/-- The text with its line end is not longer than what may be read, or was in the file already. -/
def Short (s : Shared) (place : Place) (output : Text) : Prop :=
  s.results place = none → (encode (resultSource output)).length ≤ MAX_RESULT_BYTES

/-- What is in the file when the result is stored. -/
structure Written (P : Platform) (place : Place) (output : Text) (s s' : Shared) : Prop where
  state : s'.state = s.state
  nonempty : trimUnits output ≠ []
  file : ∃ bytes, s'.results place = some bytes ∧
    P.decode bytes = toWellFormed (resultSource output) ∧
    (bytes.length ≤ MAX_RESULT_BYTES ↔ Short s place output)

theorem wp_writeWorkflowResult (out : Text) :
    (writeWorkflowResult pl out).Wp (Works P) (fun r s' =>
      (Storable P s pl out → r = .ok () ∧ Written P pl out s s') ∧
      (¬Storable P s pl out → ∃ e, r = .error e)) s := by
  refine wp_ensure (fun hbk => wp_ensure (fun hsh => ?_) fun hlg => ?_) fun hbk => ?_
  rotate_left
  · exact ⟨fun h => absurd h.short hlg, fun _ => ⟨_, rfl⟩⟩
  · exact ⟨fun h => absurd h.nonempty hbk, fun _ => ⟨_, rfl⟩⟩
  have hdec : P.decode (encode (resultSource out)) = toWellFormed (resultSource out) :=
    P.decode_utf8 _
  have hshort : Short s pl out ↔ (s.results pl = none → (encode (resultSource out)).length ≤ _) :=
    .rfl
  unfold storeResult
  generalize encode (resultSource out) = source at hdec hshort
  refine wp_bind.mpr (wp_await.mpr fun x hx => ?_)
  cases hres : s.results pl with
  | none =>
    -- The file is new, and the bytes that are still to be written follow those in it.
    have hsto : Storable P s pl out := ⟨hbk, hsh, by rw [hres]; rintro _ ⟨⟩⟩
    simp only [show x.refused = none from hx]
    refine (wp_forEach (fun rest s' => s'.state = s.state ∧
      ∃ done, s'.results pl = some done ∧ done ++ rest = source) (Q := fun r s' => r = .ok () ∧
      s'.state = s.state ∧ s'.results pl = some source) ?_ ?_ ⟨rfl, [], update_self .., rfl⟩).imp ?_
    · rintro byte rest s' ⟨hst, done, hdn, heq⟩
      refine wp_await.mpr fun x hx => ?_
      simp only [show x.refused = none from hx]
      exact ⟨hst, done ++ [byte], by simp [Shared.putResult, hdn], by simpa using heq⟩
    · rintro s' ⟨hst, done, hdn, heq⟩
      rw [append_nil] at heq
      exact ⟨rfl, hst, heq ▸ hdn⟩
    · rintro r s' ⟨rfl, hst, hall⟩
      refine ⟨fun _ => ⟨rfl, hst, hbk, source, hall, hdec, ?_⟩, fun hnot => absurd hsto hnot⟩
      rw [hshort]
      exact ⟨fun h _ => h, fun h => h hres⟩
  | some bs =>
    have hiff : Storable P s pl out ↔
        bs.length ≤ MAX_RESULT_BYTES ∧ toUtf16 (P.decode bs) = resultSource out := by
      refine ⟨fun h => h.fresh bs hres, fun h => ⟨hbk, hsh, ?_⟩⟩
      rw [hres]
      rintro _ ⟨⟩
      exact h
    simp only [show x.refused = none from hx]
    refine wp_bind.mpr (wp_await.mpr fun x hx => ?_)
    simp only [show x.refused = none from hx, hres]
    split_ifs with hlg
    · exact ⟨fun h => absurd (hiff.mp h).1 (not_le.mpr hlg), fun _ => ⟨_, rfl⟩⟩
    · refine wp_attempt.mpr ?_
      rw [ensure]
      split_ifs with heq
      · refine ⟨fun _ => ⟨rfl, rfl, hbk, bs, hres, ?_, ?_⟩,
          fun h => absurd (hiff.mpr ⟨not_lt.mp hlg, heq⟩) h⟩
        · rw [← heq, toWellFormed_toUtf16]
        · rw [hshort, hres]
          exact ⟨fun _ h => (by cases h), fun _ => not_lt.mp hlg⟩
      · exact ⟨fun h => absurd (hiff.mp h).2 heq, fun _ => ⟨_, rfl⟩⟩

end File

/-! ## The record -/

section Record

variable {s s' : Shared} {pl : Place} {out : Text} {bt next : Batch}

/-- The attempt is recorded with the result. -/
def Attempt.HasResult (P : Platform) (place : Place) (output : Text) (attempt : Attempt) : Prop :=
  attempt.attemptId = place.attemptId ∧
    attempt.resultPath = some (P.resultPath place.rootPath place.batchId place.attemptId) ∧
    attempt.resultPreview = some ((trimUnits output).take 1024)

/-- The batch has the attempt, with the result. -/
def Batch.HasResult (P : Platform) (place : Place) (output : Text) (batch : Batch) : Prop :=
  batch.batchId = place.batchId ∧ ∃ attempt ∈ batch.attempts, attempt.HasResult P place output

/-- The attempt is recorded with its result, and the file has the text. -/
structure Recorded (P : Platform) (place : Place) (output : Text) (s : Shared) : Prop where
  stored : Stored P (s.state place.rootPath)
  batch : ∃ batch ∈ (s.state place.rootPath).batches, batch.HasResult P place output
  file : ∃ bytes, s.results place = some bytes ∧ bytes.length ≤ MAX_RESULT_BYTES ∧
    toUtf16 (P.decode bytes) = resultSource output

theorem hasResult_update {aid now : String} {st : BatchStatus → BatchStatus} {f : Attempt → Attempt}
    (hval : isBatch P bt) (hnx : bt.update aid st f now = .ok next)
    (hf : ∀ att, att.attemptId = aid → att.HasResult P pl out → (f att).HasResult P pl out)
    (h : bt.HasResult P pl out) : next.HasResult P pl out := by
  unfold Batch.update at hnx
  split at hnx
  · cases hnx
  rename_i found hfd
  cases hnx
  have hterm := terminated_terminalBatch
    ({ bt with status := st bt.status }.replaceAttempt aid (f found)) now
  obtain ⟨hbid, att, hatt, hres⟩ := h
  refine ⟨hterm.batchId.trans hbid, ?_⟩
  rw [hterm.attempts]
  by_cases hid : att.attemptId = aid
  · obtain rfl := inj_on_of_nodup_map (nodup_of_isBatch hval) hatt (mem_of_find hfd)
      (hid.trans (key_of_find hfd).symm)
    exact ⟨_, mem_replace_self hatt hid, hf att hid hres⟩
  · exact ⟨att, mem_replace_of_ne hatt hid, hres⟩

theorem hasResult_map {f : Attempt → Attempt} (hnx : next.attempts = bt.attempts.map f)
    (hbid : next.batchId = bt.batchId)
    (hf : ∀ att, att.HasResult P pl out → (f att).HasResult P pl out)
    (h : bt.HasResult P pl out) : next.HasResult P pl out := by
  obtain ⟨hid, att, hatt, hres⟩ := h
  exact ⟨hbid.trans hid, f att, hnx ▸ mem_map_of_mem hatt, hf att hres⟩

theorem hasResult_claim {now aid : String} (hval : isBatch P bt)
    (hcla : bt.claim now = some (next, aid)) (h : bt.HasResult P pl out) :
    next.HasResult P pl out := by
  unfold Batch.claim at hcla
  split_ifs at hcla
  obtain ⟨queued, hfd, hnx⟩ := Option.map_eq_some_iff.mp hcla
  cases hnx
  obtain ⟨hbid, att, hatt, hres⟩ := h
  refine ⟨hbid, ?_⟩
  by_cases hid : att.attemptId = queued.attemptId
  · obtain rfl := inj_on_of_nodup_map (nodup_of_isBatch hval) hatt (mem_of_find?_eq_some hfd) hid
    exact ⟨_, mem_replace_self hatt rfl, hres⟩
  · exact ⟨att, mem_replace_of_ne hatt hid, hres⟩

/-! ### Every step keeps it -/

theorem Recorded.of_eq (h : Recorded P pl out s) (hst : s'.state = s.state)
    (hrss : s'.results pl = s.results pl) : Recorded P pl out s' :=
  ⟨hst ▸ h.stored, hst ▸ h.batch, hrss ▸ h.file⟩

theorem Recorded.change {α : Type} {dir : String} {x : Answer P}
    {f : WorkflowState → Except String (Option WorkflowState × α)} (h : Recorded P pl out s)
    (hf : ∀ state a, f (s.state dir) = .ok (some state, a) → dir = pl.rootPath →
      ∃ bt ∈ state.batches, bt.HasResult P pl out) :
    Recorded P pl out (Workflow.change dir f x s).1 := by
  unfold Workflow.change
  cases hld : loadState x s dir >>= f with
  | error e => exact h
  | ok res =>
    obtain ⟨state, hload, hres⟩ := bind_eq_ok.mp hld
    rw [eq_of_loadState hload] at hres
    obtain ⟨_ | state, a⟩ := res
    · exact h
    cases hwr : (writeWorkflowState x s dir state).2 with
    | error e =>
      have hsame : (writeWorkflowState x s dir state).1 = s := by
        revert hwr
        unfold writeWorkflowState
        split
        · exact fun _ => rfl
        · exact fun _ => rfl
        · exact nofun
      show Recorded P pl out (writeWorkflowState x s dir state).1
      rw [hsame]
      exact h
    | ok =>
      obtain ⟨heq, hsd⟩ := of_writeWorkflowState hwr
      dsimp only
      rw [heq]
      by_cases hdir : dir = pl.rootPath
      · subst hdir
        have hst : (s.putState pl.rootPath state).state pl.rootPath = state := update_self ..
        refine ⟨?_, ?_, h.file⟩ <;> rw [hst]
        · exact hsd
        · exact hf state a hres rfl
      · have hst : (s.putState dir state).state pl.rootPath = s.state pl.rootPath :=
          update_of_ne (Ne.symm hdir) ..
        refine ⟨?_, ?_, h.file⟩ <;> rw [hst]
        · exact h.stored
        · exact h.batch

theorem Recorded.changeBatch {α : Type} {dir bid : String} {x : Answer P}
    {missing : Except String α}
    {f : Batch → Except String (Option Batch × α)} (h : Recorded P pl out s)
    (hf : ∀ bt next a, dir = pl.rootPath → isBatch P bt → bt.batchId = bid →
      f bt = .ok (some next, a) → bt.HasResult P pl out → next.HasResult P pl out) :
    Recorded P pl out (Workflow.change dir (Workflow.changeBatch bid missing f) x s).1 := by
  refine h.change fun state a hch hdir => ?_
  subst hdir
  unfold Workflow.changeBatch at hch
  split at hch
  · cases missing <;> cases hch
  rename_i bt hfd
  obtain ⟨⟨_ | next, b⟩, hnx, heq⟩ := map_eq_ok.mp hch
  · cases heq
  cases heq
  obtain ⟨hnd, hval⟩ := nodup_of_parse h.stored.1
  obtain ⟨o, hoth, hres⟩ := h.batch
  have hbid : bt.batchId = bid := key_of_find hfd
  by_cases hid : o.batchId = bid
  · obtain rfl := inj_on_of_nodup_map hnd hoth (mem_of_find hfd) (hid.trans hbid.symm)
    exact ⟨next, mem_replace_self hoth hid, hf o next _ rfl (hval o hoth) hid hnx hres⟩
  · exact ⟨o, mem_replace_of_ne hoth hid, hres⟩

/-- The outline of which nothing is asked but that the record and the file are kept. -/
def keeping (P : Platform) (place : Place) (output : Text) : Outline Shared (Answer P) Label where
  inv := Recorded P place output
  pre _ _ := True
  guard _ _ _ := True
  guarantee _ s' := Recorded P place output s'
  inv_of_guarantee _ h := h
  stable _ _ _ := trivial

theorem obeys_update {l : Label} {p : Place} {st : BatchStatus → BatchStatus}
    {f : Answer P → Attempt → Attempt}
    (hf : ∀ x att, p = pl → att.HasResult P pl out → (f x att).HasResult P pl out) :
    (updateAttempt l p st f).Obeys (keeping P pl out) := by
  refine obeys_await (fun _ => trivial) fun x s h _ => ?_
  refine Recorded.changeBatch h fun bt next a hdir hval hbid hnx hres => ?_
  obtain ⟨changed, hchd, heq⟩ := map_eq_ok.mp hnx
  cases heq
  refine hasResult_update hval hchd (fun att hid hatt => hf x att ?_ hatt) hres
  obtain ⟨dir, bid, aid⟩ := p
  cases pl
  cases hdir
  cases hbid.symm.trans hres.1
  cases hid.symm.trans hatt.1
  rfl

theorem obeys_putResult {l : Label} {p : Place} {c : Shared → Option Bytes} (hne : p ≠ pl) :
    (await l fun x s => match x.refused with
      | some e => (s, .error e)
      | none => (s.putResult p (c s), .ok ()) : Op P Unit).Obeys (keeping P pl out) := by
  refine obeys_await (fun _ => trivial) fun x s h _ => ?_
  split
  · exact h
  · exact h.of_eq rfl (update_of_ne (Ne.symm hne) ..)

/-- Another result is not stored in the file. -/
theorem sound_storeResult (p : Place) (src : Text) : (storeResult p src).Sound (keeping P pl out)
    (fun r _ => r = .ok () → p = pl → src = resultSource out) s := by
  unfold storeResult
  generalize encode src = bytes
  refine sound_bind.mpr (sound_await.mpr ⟨trivial, fun x s h _ _ => ?_⟩)
  split
  · exact ⟨h, fun hok => by cases hok⟩
  · refine ⟨h, sound_bind.mpr (sound_await.mpr ⟨trivial, fun x s h _ _ => ⟨h, ?_⟩⟩)⟩
    obtain ⟨file, hfile, hlen, hdec⟩ := h.file
    split
    · exact fun hok => by cases hok
    · exact fun hok => by cases hok
    · rename_i found _ hfd
      split_ifs
      · exact fun hok => by cases hok
      · show ensure _ _ = .ok () → _
        rw [ensure_eq_ok]
        rintro heq rfl
        cases hfile.symm.trans hfd
        exact heq.symm.trans hdec
  · rename_i hfd
    have hne : p ≠ pl := by
      rintro rfl
      obtain ⟨file, hfile, -⟩ := h.file
      cases hfile.symm.trans hfd
    refine ⟨h.of_eq rfl (update_of_ne (Ne.symm hne) ..), ?_⟩
    refine ((obeys_forEach (fun byte => ?_) bytes).sound _).imp fun _ _ _ _ heq => absurd heq hne
    exact obeys_putResult (c := fun s => (s.results p).map (· ++ [byte])) hne

theorem sound_ensure {O : Outline Shared (Answer P) Label} {α : Type} {c : Prop} [Decidable c]
    {m : String} {t : Op P α} {Q : Except String α → Shared → Prop} (ht : t.Sound O Q s)
    (herr : Q (.error m) s) : (Async.attempt (ensure c m) >>= fun _ => t).Sound O Q s := by
  refine sound_bind.mpr ?_
  show SoundThen O _ Q (ensure c m) s
  rw [ensure]
  split
  · exact ht
  · exact herr

theorem obeys_recordResult (p : Place) (checks : List WorkflowCheck) (text : Text) :
    (recordResult p checks text : Op P Batch).Obeys (keeping P pl out) := by
  constructor
  intro s
  have hwr : (writeWorkflowResult p text).Sound (keeping P pl out)
      (fun r _ => r = .ok () → p = pl → resultSource text = resultSource out) s :=
    sound_ensure (sound_ensure (sound_storeResult p _) nofun) nofun
  refine sound_bind.mpr (hwr.imp fun r s hsrc => ?_)
  cases r with
  | error e => trivial
  | ok =>
    have hup : (updateAttempt (.finish p) p id fun x att => att.complete p checks text x).Obeys
        (keeping P pl out) := by
      refine obeys_update fun x att heq hres => ⟨hres.1, by rw [← heq]; rfl, ?_⟩
      -- The texts differ at most in their line ends, so the previews are the same.
      show some ((trimUnits text).take 1024) = _
      rw [← trimUnits_resultSource text, hsrc rfl heq, trimUnits_resultSource]
    exact hup.sound s

theorem obeys_cancelBatch_keeping (dir bid : String) :
    (cancelBatch dir bid : Op P Unit).Obeys (keeping P pl out) := by
  have hend : ∀ cAt, (endCancel dir bid cAt : Op P Unit).Obeys (keeping P pl out) := by
    intro cAt
    refine Obeys.bind (obeys_await (fun _ => trivial) fun x s h _ => ?_) fun threads => ?_
    · refine Recorded.changeBatch h fun bt next a _ _ _ hnx hres => ?_
      cases hnx
      refine hasResult_map rfl rfl (fun att hatt => ?_) hres
      split_ifs <;> exact hatt
    · refine obeys_await (fun _ => trivial) fun _ s h _ => ?_
      exact foldlRecOn threads Shared.forget h fun s h th _ =>
        h.of_eq (forget_eq s th).1 (by rw [(forget_eq s th).2.1])
  refine Obeys.bind (obeys_await (fun _ => trivial) fun x s h _ => ?_) fun cancellation => ?_
  · refine Recorded.changeBatch h fun bt next a _ _ _ hnx hres => ?_
    simp only [bind_eq_ok, pure_eq_ok] at hnx
    obtain ⟨-, -, hnx⟩ := hnx
    cases hnx
    refine hasResult_map rfl rfl (fun att hatt => ?_) hres
    split_ifs <;> exact hatt
  · split
    · exact hend _
    · refine Obeys.bind (obeys_await (fun _ => trivial) fun x s h _ => ?_) fun _ => hend _
      cases x.interrupted <;> exact h.of_eq rfl rfl

/-- Every step of a call keeps the record and the file. -/
theorem admits_recorded : Admits (keeping P pl out) where
  ask _ := obeys_await (fun _ => trivial) fun _ _ h _ => h
  remember hf := obeys_await (fun _ => trivial) fun _ s h _ =>
    h.of_eq (hf s).1 (by rw [(hf s).2.1])
  claim i := by
    refine obeys_await (fun _ => trivial) fun x s h _ => ?_
    refine Recorded.changeBatch h fun bt next a _ hval _ hnx hres => ?_
    cases hcla : bt.claim x.now.text with
    | none =>
      rw [hcla] at hnx
      cases hnx
    | some claimed =>
      rw [hcla] at hnx
      cases hnx
      exact hasResult_claim hval hcla hres
  startRun p := obeys_await (fun _ => trivial) fun x s h _ => by
    cases x.started <;> exact h.of_eq rfl rfl
  started p res := obeys_update fun _ _ _ hres => hres
  fails code m _ := obeys_update fun _ _ _ hres => hres
  record := obeys_recordResult
  create i := by
    refine obeys_await (fun _ => trivial) fun x s h _ => h.change fun state a hcre hdir => ?_
    simp only [bind_eq_ok, pure_eq_ok, hdir] at hcre
    obtain ⟨d, -, -, -, hcrd⟩ := hcre
    cases hcrd
    obtain ⟨bt, hbt, hres⟩ := h.batch
    exact ⟨bt, mem_append_left _ hbt, hres⟩
  interrupt th uid := obeys_await (fun _ => trivial) fun x s h _ => by
    cases x.interrupted <;> exact h.of_eq rfl rfl
  cancel := obeys_cancelBatch_keeping
  turnEnds th uid := obeys_await (fun _ => trivial) fun _ s h _ => h.of_eq rfl rfl

end Record

/-! ## Later states -/

section Later

variable {s s' : Shared} {pl : Place} {out : Text}

theorem loadState_eq {dir : String} {x : Answer P} (hsd : Stored P (s.state dir))
    (hx : x.refused = none) : loadState x s dir = .ok (s.state dir) := by
  have hsz : checkSize P (s.state dir) = .ok () := ensure_eq_ok.mpr hsd.2
  simp only [loadState, hsd.1, hsz, hx]
  rfl

theorem writeWorkflowState_eq {dir : String} {x : Answer P} {state : WorkflowState}
    (hsd : Stored P state) (hx : x.refused = none) :
    writeWorkflowState x s dir state = (s.putState dir state, .ok ()) := by
  have hcheck : (parseWorkflowState P state >>= fun _ => checkSize P state) = .ok () :=
    bind_eq_ok.mpr ⟨(), hsd.1, ensure_eq_ok.mpr hsd.2⟩
  simp only [writeWorkflowState, hcheck, hx]

/-- What `finish` leaves when it has completed an attempt. -/
theorem wp_recordResult (checks : List WorkflowCheck) : (recordResult pl checks out).Wp (Works P)
    (fun r s' => ∀ b, r = .ok b → Stored P (s'.state pl.rootPath) ∧
      (∃ bt ∈ (s'.state pl.rootPath).batches, bt.HasResult P pl out) ∧
      trimUnits out ≠ [] ∧ ∃ bytes, s'.results pl = some bytes ∧
        P.decode bytes = toWellFormed (resultSource out) ∧
        (bytes.length ≤ MAX_RESULT_BYTES ↔ Short s pl out)) s := by
  refine wp_bind.mpr ((wp_writeWorkflowResult out).imp ?_)
  rintro r s' ⟨hsd, hrfd⟩
  by_cases hsto : Storable P s pl out
  swap
  · obtain ⟨e, rfl⟩ := hrfd hsto
    exact nofun
  obtain ⟨rfl, hwr⟩ := hsd hsto
  refine wp_await.mpr fun x _ b hb => ?_
  obtain ⟨bt, next, hfd, hnx, haf, hps⟩ := of_changeBatch hb
  obtain ⟨changed, hchd, heq⟩ := map_eq_ok.mp hnx
  cases heq
  cases hatt : bt.findAttempt pl.attemptId with
  | none =>
    rw [Batch.update, hatt] at hchd
    cases hchd
  | some att =>
    rw [Batch.update, hatt, Except.ok.injEq] at hchd
    have hterm := hchd ▸ terminated_terminalBatch _ x.now.text
    have hbid : bt.batchId = pl.batchId := key_of_find hfd
    have hid : att.attemptId = pl.attemptId := key_of_find hatt
    have hmem : att.complete pl checks out x ∈ b.attempts :=
      hterm.attempts ▸ mem_replace_self (mem_of_find hatt) hid
    have hst : (s'.putState pl.rootPath ((s'.state pl.rootPath).replaceBatch pl.batchId b)).state
        pl.rootPath = (s'.state pl.rootPath).replaceBatch pl.batchId b := update_self ..
    rw [haf]
    refine ⟨hst ▸ hps b rfl, ⟨b, hst ▸ mem_replace_self (mem_of_find hfd) hbid, ?_⟩,
      hwr.nonempty, hwr.file⟩
    exact ⟨hterm.batchId.trans hbid, _, hmem, hid, rfl, rfl⟩

/-- What `readResult` does with the file of an attempt that is recorded. -/
theorem wp_readResult {bytes : Bytes}
    (hpath : P.resultPath pl.rootPath pl.batchId pl.attemptId ≠ "")
    (hsd : Stored P (s.state pl.rootPath))
    (hbt : ∃ bt ∈ (s.state pl.rootPath).batches, bt.HasResult P pl out)
    (hres : s.results pl = some bytes) :
    (readResult pl).Wp (Works P) (fun r _ =>
      (∀ text, r = .ok text → bytes.length ≤ MAX_RESULT_BYTES ∧ text = toUtf16 (P.decode bytes)) ∧
      (bytes.length ≤ MAX_RESULT_BYTES → trimUnits out ≠ [] →
        toUtf16 (P.decode bytes) = resultSource out → r = .ok (resultSource out))) s := by
  obtain ⟨bt, hbt, hbid, att, hatt, hid, hrp, hpv⟩ := hbt
  have hat := attemptAt_eq hsd.1 hbt hatt
  rw [hbid, hid] at hat
  refine wp_bind.mpr (wp_await.mpr fun x hx => ?_)
  rw [loadState_eq hsd hx]
  unfold Shared.attemptAt at hat
  simp only [Then, hat]
  refine wp_ensure (fun _ => ?_) fun hnot => absurd ?_ hnot
  · refine wp_bind.mpr (wp_await.mpr fun x hx => ?_)
    simp only [show x.refused = none from hx, hres]
    split_ifs with hlg
    · exact ⟨fun _ hok => (by cases hok), fun hle => absurd hle (not_le.mpr hlg)⟩
    · refine wp_ensure (fun _ => wp_pure.mpr ⟨?_, ?_⟩) fun hnot =>
        ⟨fun _ hok => (by cases hok), fun _ hne htx => absurd ?_ hnot⟩
      · rintro _ ⟨⟩
        exact ⟨not_lt.mp hlg, rfl⟩
      · intro _ _ htx
        rw [htx]
      · rw [hpv, htx]
        exact preview_of_trimUnits (by decide) hne
  · rw [hrp, given, Option.filter_some, if_pos (decide_eq_true hpath)]
    exact Option.some_ne_none _

/-- The controller when `finish` has completed an attempt: the rest of `finish` is to come, and any
calls may begin. -/
def afterFinish (P : Platform) (s : Shared) (location : AttemptLocation) (threadId : Option String)
    (actions : List (Pool.Action Call (Answer P))) : Shared :=
  (Pool.run program ⟨s, [goOn location threadId]⟩ actions).shared

theorem recorded_afterFinish {loc : AttemptLocation} (h : Recorded P loc.toPlace out s)
    (th : Option String) (actions : List (Pool.Action Call (Answer P))) :
    Recorded P loc.toPlace out (afterFinish P s loc th actions) := by
  have hso : Pool.Sound (keeping P loc.toPlace out) ⟨s, [goOn loc th]⟩ := by
    refine ⟨h, fun task htk => ?_⟩
    rw [mem_singleton.mp htk]
    exact (obeys_goOn admits_recorded loc th).sound s
  have hgd : ∀ (as : List (Pool.Action Call (Answer P))) pool,
      Pool.AllGuarded program (keeping P loc.toPlace out) pool as := by
    intro as
    induction as with
    | nil => exact fun _ => trivial
    | cons a as ih => exact fun pool =>
        ⟨by cases a <;> first | trivial | exact fun _ _ => trivial, ih _⟩
  exact (Pool.sound_run admits_recorded.program hso (hgd actions _)).1.inv

end Later

/-! ## Two texts -/

section Example

def runningAttempt : Attempt :=
  { Batch.queuedAttempt "batch" noon 0 with
    status := .running
    threadId := some "thread"
    turnId := some "turn"
    startedAt := some noon }

def runningBatch : Batch where
  batchId := "batch"
  workflowId := "workflow"
  definitionSnapshot := plainDefinition
  requestedRuns := 1
  status := .running
  attempts := [runningAttempt]
  createdAt := noon
  completedAt := none

def runningLocation : AttemptLocation := ⟨⟨"/project", "batch", "batch:1"⟩, "project"⟩

def runningWorkflow : Shared where
  state _ := ⟨[plainDefinition], [runningBatch]⟩
  results _ := none
  locationByThread := OrderedMap.empty.set "thread" runningLocation
  responseByThread := .empty
  live := []

/-- The batch when its only attempt has ended. -/
def endedBatch (attempt : Attempt) (now : String) : Batch :=
  { runningBatch with status := .completed, attempts := [attempt], completedAt := some now }

theorem isAttempt_completed (out : Text) (x : Answer plainPlatform) :
    isAttempt plainPlatform (runningAttempt.complete runningLocation.toPlace [] out x) := by
  have hnow := x.now.isDate
  have hrun : isAttempt plainPlatform runningAttempt := by decide +kernel
  have hpath := plainPlatform.resultPath_short "/project" "batch" "batch:1"
  simp_all [isAttempt, Attempt.complete, isNullableText, evaluate, runningLocation]

theorem stored_endedBatch {att : Attempt} (hatt : isAttempt plainPlatform att)
    (x : Answer plainPlatform) :
    Stored plainPlatform ⟨[plainDefinition], [endedBatch att x.now.text]⟩ := by
  have hframe : isBatchFrame plainPlatform runningBatch := by decide +kernel
  have hbatch : isBatch plainPlatform (endedBatch att x.now.text) := by
    simp only [isBatch, isBatchFrame, Bool.and_eq_true] at hframe ⊢
    refine ⟨⟨⟨⟨⟨⟨hframe.1.1, x.now.isDate⟩, hframe.2⟩, rfl⟩, ?_⟩, ?_⟩, ?_⟩
    · simpa [endedBatch] using hatt
    · exact decide_eq_true (nodup_singleton _)
    · exact decide_eq_true (nodup_singleton _)
  refine ⟨?_, by show 1024 * 3 ≤ 4194304; decide⟩
  simp only [parseWorkflowState, bind_eq_ok, ensure_eq_ok]
  refine ⟨(), ⟨by decide, by decide +kernel, by simpa using hbatch⟩, (),
    by decide, nodup_singleton _⟩

/-- The attempt is completed with every text that can be stored. -/
theorem wp_recordResult_running {out : Text}
    (h : Storable plainPlatform runningWorkflow runningLocation.toPlace out) :
    (recordResult runningLocation.toPlace [] out).Wp (Works plainPlatform)
      (fun r _ => ∃ batch, r = .ok batch) runningWorkflow := by
  refine wp_bind.mpr ((wp_writeWorkflowResult out).imp ?_)
  rintro r s' ⟨hsd, -⟩
  obtain ⟨rfl, hwr⟩ := hsd h
  refine wp_await.mpr fun x hx => ?_
  have hst : s'.state runningLocation.rootPath = ⟨[plainDefinition], [runningBatch]⟩ := by
    rw [hwr.state]
    rfl
  have hrun : Stored plainPlatform (s'.state runningLocation.rootPath) := by
    rw [hst]
    exact ⟨by decide +kernel, by decide⟩
  refine ⟨endedBatch (runningAttempt.complete runningLocation.toPlace [] out x) x.now.text, ?_⟩
  unfold change
  rw [loadState_eq hrun hx, hst]
  show ((writeWorkflowState x s' "/project" ⟨[plainDefinition], [endedBatch _ x.now.text]⟩).2.map
    fun _ => endedBatch _ x.now.text) = _
  rw [writeWorkflowState_eq (stored_endedBatch (isAttempt_completed out x) x) hx]
  rfl

/-- A text without a line end, of as many bytes as a result may have. -/
def longestText : String := String.ofList (replicate MAX_RESULT_BYTES 'a')

theorem eq_of_mem_longestText {c : Char} (h : c ∈ longestText.toList) : c = 'a' := by
  rw [longestText, String.toList_ofList] at h
  exact eq_of_mem_replicate h

theorem size_longestText : longestText.utf8ByteSize = MAX_RESULT_BYTES := by
  rw [utf8ByteSize_of_ascii fun c hc => eq_of_mem_longestText hc ▸ rfl, longestText,
    String.toList_ofList, length_replicate]

theorem eq_of_mem_toUtf16 {u : UInt16} (h : u ∈ toUtf16 longestText) : u = 97 := by
  obtain ⟨n, hn, rfl⟩ := mem_map.mp h
  obtain ⟨c, hc, hn⟩ := mem_flatMap.mp hn
  rw [eq_of_mem_longestText hc] at hn
  rw [mem_singleton.mp hn]
  rfl

theorem storable_longestText :
    Storable plainPlatform runningWorkflow runningLocation.toPlace longestText := by
  refine ⟨trimUnits_ne_nil (u := 97) ?_ (by decide), ?_, nofun⟩
  · obtain ⟨u, hu⟩ := exists_mem_of_ne_nil (toUtf16 longestText) fun hnil => by
      have hempty := congrArg toWellFormed hnil
      rw [toWellFormed_toUtf16] at hempty
      exact absurd (size_longestText.symm.trans (congrArg String.utf8ByteSize hempty)) (by decide)
    exact eq_of_mem_toUtf16 hu ▸ hu
  · rw [encode, toWellFormed_toUtf16, length_utf8, size_longestText]

end Example

end Orquesta.Workflow
