import Orquesta.ExecutionKernel.Desktop

/-!
# The messages of the Desktop

A dispatch of the Desktop runs a tick over all tasks of its root.  So it may start the task of
another message that the controller still has: one whose dispatch was refused and whose retry
is due, or one that had found no slot.  Then a message that was refused is sent after all.

`orderly_of_alone` says that this is the only way: as long as no other message of the root could
be started when a dispatch begins, every message is sent during its own dispatch, and at most
once in each.

## Main definitions

* `Orderly`: every message is sent during its own dispatches
* `Alone`: no other message could be started

## Main results

* `orderly_of_alone`
* `refused_message_sent`: a refused message that is sent by the next dispatch
-/

namespace Orquesta.ExecutionKernel

open Checked Contract List OrderedMap

variable (P : Platform)

/-! ## Statements -/

/-- Every message is sent during dispatches of its own, and no more often than it is dispatched. -/
structure Orderly (history : List Entry) : Prop where
  own : ∀ entry ∈ history, ∀ id ∈ entry.sent, id = entry.correlationId
  count : ∀ id, (history.flatMap (·.sent)).count id ≤ (history.map (·.correlationId)).count id

/-- No task of another message that the controller has is one the dispatch could start: neither a
startable task of the root, nor the task under which the dispatch itself runs. -/
def Controller.IsAlone (controller : Controller) (state : KernelState) (correlationId : String)
    (observedAt : Time) : Prop :=
  ∀ id : Name, id.text ≠ messageTaskId correlationId →
    (controller.dispatchInputs.get? id.text).isSome →
    (∀ record, state.tasks.get? id = some record →
      ¬ Startable state.tasks (some observedAt) record) ∧
    (state.tasks.get? id = none → id.text ≠ trim (messageTaskId correlationId))

/-- The condition on a call, in the state of the controller before it. -/
def Alone (controller : Controller) : Call → Prop
  | .dispatch call => ∀ root ∈ call.canonicalRoot, ∀ loaded state, ∀ observedAt ∈ call.observedAt,
    controller.load root call.file call.loadedAt = .ok (loaded, state) →
    controller.IsAlone state call.input.correlationId observedAt
  | _ => True

/-- Every call of the history meets the condition. -/
def AllAlone : Controller → List Call → Prop
  | _, [] => True
  | controller, call :: rest => Alone controller call ∧ AllAlone (controller.serve P call).1 rest

/-! ## Messages that are kept -/

/-- Every message is kept under the name of its task. -/
def Controller.WellKept (controller : Controller) : Prop :=
  ∀ text input, controller.dispatchInputs.get? text = some input →
    text = messageTaskId input.correlationId

variable {P} {ctl : Controller}

theorem messageTaskId_injective {a b : String} (h : messageTaskId a = messageTaskId b) : a = b :=
  append_cancel_left h

theorem Controller.WellKept.keep (h : ctl.WellKept) (c : DispatchCall) (root : String) :
    (ctl.keep c root).WellKept := by
  intro t i hget
  rw [Controller.keep, get?_set] at hget
  split at hget
  · rename_i heq
    cases hget
    exact heq.symm
  · exact h t i hget

theorem dispatchInputs_load {loaded : Controller} {root : String} {f : StateFile}
    {loadedAt : Option Time} {s : KernelState}
    (h : ctl.load root f loadedAt = .ok (loaded, s)) :
    loaded.dispatchInputs = ctl.dispatchInputs := by
  unfold Controller.load at h
  split at h <;> cases h <;> rfl

theorem dispatchInputs_persist {ctl' : Controller} {root : String} {s : KernelState}
    {written : Bool} (h : ctl.persist root s written = .ok ctl') :
    ctl'.dispatchInputs = ctl.dispatchInputs := by
  unfold Controller.persist at h
  split at h <;> cases h
  rfl

/-! ## One dispatch -/

variable {c : DispatchCall}

/-- The tick of a dispatch. -/
def DispatchCall.tick (P : Platform) (call : DispatchCall)
    (inputs : OrderedMap String DispatchInput)
    (state : KernelState) (new : List TaskInput) (observedAt : Time) : Tick :=
  runDispatchTick P state (definitionsFromState P state ++ new) (call.start P inputs) observedAt
    MAX_SAFE_INTEGER {}

/-- A dispatch runs no tick, or one on the state that is loaded. -/
theorem dispatchLoaded_cases (P : Platform) (ctl : Controller) (c : DispatchCall)
    (root : String) (s : KernelState) :
    (ctl.dispatchLoaded P c root s).controller.dispatchInputs = ctl.dispatchInputs ∧
      ((ctl.dispatchLoaded P c root s).sent = [] ∨
        ∃ new, c.newDefinitions P s = .ok new ∧ ∃ obs ∈ c.observedAt,
          (ctl.dispatchLoaded P c root s).sent = sentMessages ctl.dispatchInputs
            (c.tick P ctl.dispatchInputs s new obs).started) := by
  unfold Controller.dispatchLoaded
  split
  · rename_i new obs hnew hobs
    have hsent {sent : List String} (h : sent = sentMessages ctl.dispatchInputs
        (c.tick P ctl.dispatchInputs s new obs).started) :
        sent = [] ∨ ∃ new, c.newDefinitions P s = .ok new ∧ ∃ obs ∈ c.observedAt,
          sent = sentMessages ctl.dispatchInputs (c.tick P ctl.dispatchInputs s new obs).started :=
      .inr ⟨new, hnew, obs, hobs, h⟩
    dsimp only
    split
    · exact ⟨rfl, hsent rfl⟩
    · exact ⟨rfl, hsent rfl⟩
    · split
      · exact ⟨rfl, hsent rfl⟩
      · rename_i hps'
        exact ⟨dispatchInputs_persist hps', hsent rfl⟩
  · exact ⟨rfl, .inl rfl⟩

/-- What a dispatch does to the messages that are kept, and what it sends. -/
theorem dispatch_cases (P : Platform) (ctl : Controller) (c : DispatchCall) :
    ((ctl.dispatch P c).controller.dispatchInputs = ctl.dispatchInputs ∧
      (ctl.dispatch P c).sent = []) ∨
      ∃ root ∈ c.canonicalRoot, ∃ loaded s, ctl.load root c.file c.loadedAt = .ok (loaded, s) ∧
        (ctl.dispatch P c).controller.dispatchInputs = (ctl.keep c root).dispatchInputs ∧
        ((ctl.dispatch P c).sent = [] ∨ ∃ new, c.newDefinitions P s = .ok new ∧
            ∃ obs ∈ c.observedAt,
            (ctl.dispatch P c).sent = sentMessages (ctl.keep c root).dispatchInputs
                (c.tick P (ctl.keep c root).dispatchInputs s new obs).started) := by
  unfold Controller.dispatch
  split
  · exact .inl ⟨rfl, rfl⟩
  · rename_i root hro
    split
    · exact .inl ⟨rfl, rfl⟩
    · rename_i loaded s hld
      have hins := dispatchInputs_load hld
      split
      · exact .inl ⟨hins, rfl⟩
      · have hkeep : (loaded.keep c root).dispatchInputs = (ctl.keep c root).dispatchInputs := by
          simp only [Controller.keep, hins]
        have hcas := dispatchLoaded_cases P (loaded.keep c root) c root s
        rw [hkeep] at hcas
        exact .inr ⟨root, hro, loaded, s, hld, hcas⟩

theorem Controller.WellKept.dispatch (h : ctl.WellKept) :
    (ctl.dispatch P c).controller.WellKept := by
  rcases dispatch_cases P ctl c with ⟨hins, -⟩ | ⟨root, -, loaded, s, -, hins, -⟩
  · intro t i hget
    exact h t i (hins ▸ hget)
  · intro t i hget
    exact h.keep c root t i (hins ▸ hget)

/-! ## What a dispatch starts -/

section Started

variable {s : KernelState} {new : List TaskInput} {is : OrderedMap String DispatchInput}
  {obs : Time} {d : Dispatch}

/-- The definition that is made for a message. -/
theorem mem_newDefinitions {i : TaskInput} (hnew : c.newDefinitions P s = .ok new)
    (hmem : i ∈ new) :
    i.taskId = messageTaskId c.input.correlationId ∧ i.state = .pending := by
  unfold DispatchCall.newDefinitions at hnew
  split at hnew
  · cases hnew
    cases hmem
  · split at hnew
    · cases hnew
    · cases hnew
      rw [mem_singleton] at hmem
      subst hmem
      exact ⟨rfl, rfl⟩

/-- A definition made from the state is that of a task of the state. -/
theorem readAs_definitionFrom {id : Name} {r : TaskRecord} {definition : TaskDefinition}
    (h : ReadAs (definitionFrom P (id, r)) definition) :
    definition.taskId = id ∧ ∀ n, n ∈ definition.dependencies ↔ n ∈ r.dependencies := by
  refine ⟨Name.ext (h.taskId.symm.trans id.trimmed), fun n => ?_⟩
  rw [h.dependencies, definitionFrom]
  simp only [mem_map, exists_exists_and_eq_and]
  constructor
  · rintro ⟨n', hn', heq⟩
    rw [n'.trimmed] at heq
    exact Name.ext heq ▸ hn'
  · intro hn
    exact ⟨n, hn, n.trimmed⟩

/-- A dispatch starts tasks of its root that are startable, and its own task if that is new. -/
theorem startable_of_tick (hnew : c.newDefinitions P s = .ok new)
    (hd : d ∈ (c.tick P is s new obs).started) :
    (∃ r, s.tasks.get? d.taskId = some r ∧ Startable s.tasks (some obs) r) ∨
    (s.tasks.get? d.taskId = none ∧
        d.taskId.text = trim (messageTaskId c.input.correlationId)) := by
  obtain ⟨defs, ts, hdefs, htak, -, hstb⟩ := startable_of_started (ne_nil_of_mem hd)
  obtain ⟨r, hget, halo, hmet⟩ := hstb d hd
  rw [mapM_append, bind_eq_ok] at hdefs
  obtain ⟨old, hold, hdefs⟩ := hdefs
  simp only [chain_eq_ok] at hdefs
  obtain ⟨fresh, hfr, rfl⟩ := hdefs
  -- The definitions are those of the tasks of the state and that of the message.
  have hofOld {δ : TaskDefinition} (hδ : δ ∈ old) : ∃ pre, s.tasks.get? δ.taskId = some pre ∧
      ∀ n, n ∈ δ.dependencies ↔ n ∈ pre.dependencies := by
    obtain ⟨i, hin, hrd⟩ := (readAs_of_mapM hold).1 δ hδ
    obtain ⟨⟨id, pre⟩, hentry, rfl⟩ := mem_map.mp hin
    obtain ⟨hid, hdeps⟩ := readAs_definitionFrom hrd
    exact ⟨pre, hid ▸ get?_eq_some.mpr hentry, hdeps⟩
  have hofFresh {δ : TaskDefinition} (hδ : δ ∈ fresh) :
      δ.taskId.text = trim (messageTaskId c.input.correlationId) ∧ δ.initialState = .pending := by
    obtain ⟨i, hin, hrd⟩ := (readAs_of_mapM hfr).1 δ hδ
    obtain ⟨hid, hst⟩ := mem_newDefinitions hnew hin
    exact ⟨hid ▸ hrd.taskId.symm, hrd.initialState.trans hst⟩
  -- What is new is the task of the message, and it is not finished.
  have hofNone {id : Name} {r : TaskRecord} (hno : s.tasks.get? id = none)
    (hget : ts.get? id = some r) :
      id.text = trim (messageTaskId c.input.correlationId) ∧ r.state = .pending := by
    obtain ⟨δ, hδ, rfl, rfl⟩ := htak.of_none hno hget
    rcases mem_append.mp hδ with hδ | hδ
    · obtain ⟨pre, hbf, -⟩ := hofOld hδ
      rw [hno] at hbf
      cases hbf
    · exact hofFresh hδ
  have hop {id : Name} {dep : TaskRecord} (h : ts.get? id = some dep)
      (hacc : dep.state = .accepted) : ∃ dep, s.tasks.get? id = some dep ∧
      dep.state = .accepted := by
    cases hbf : s.tasks.get? id with
    | none =>
      rw [(hofNone hbf h).2] at hacc
      cases hacc
    | some pre =>
      obtain ⟨taken, htk, hcas⟩ := htak.of_some hbf
      rw [h] at htk
      cases htk
      rcases hcas with rfl | ⟨δ, -, -, rfl⟩ <;> exact ⟨_, rfl, hacc⟩
  cases hbf : s.tasks.get? d.taskId with
  | none => exact .inr ⟨rfl, (hofNone hbf hget).1⟩
  | some pre =>
    obtain ⟨taken, htk, hcas⟩ := htak.of_some hbf
    rw [hget] at htk
    cases htk
    have hdeps : ∀ n ∈ pre.dependencies, n ∈ r.dependencies := by
      rcases hcas with rfl | ⟨δ, hδ, hid, rfl⟩
      · exact fun n hn => hn
      rcases mem_append.mp hδ with hδ | hδ
      · obtain ⟨pre', hbf', hiff⟩ := hofOld hδ
        rw [hid, hbf] at hbf'
        cases hbf'
        exact fun n => (hiff n).mpr
      · -- There would be two definitions of the task.
        exfalso
        have hin := mem_map_of_mem (f := definitionFrom P) (get?_eq_some.mp hbf)
        obtain ⟨δ', hδ', hrd⟩ := (readAs_of_mapM hold).2 _ hin
        have hnd := htak.nodup
        rw [map_append, nodup_append] at hnd
        exact hnd.2.2 _ (mem_map_of_mem hδ') _ (mem_map_of_mem hδ)
          ((readAs_definitionFrom hrd).1.trans hid.symm)
    refine .inl ⟨pre, rfl, ?_, fun n hn => ?_⟩
    · rcases hcas with rfl | ⟨δ, -, -, rfl⟩ <;> exact halo
    · obtain ⟨dep, hdependency, hacc⟩ := hmet n (hdeps n hn)
      exact hop hdependency hacc

end Started

/-! ## Histories -/

/-- Messages are sent at most once by a tick. -/
theorem nodup_sentMessages (h : ctl.WellKept) {started : List Dispatch}
    (hnd : (started.map (·.taskId)).Nodup) :
    (sentMessages ctl.dispatchInputs started).Nodup := by
  refine hnd.filterMap fun a b id ha hb => ?_
  simp only [Option.mem_def, Option.map_eq_some_iff] at ha hb
  obtain ⟨i, hin, rfl⟩ := ha
  obtain ⟨i', hin', heq⟩ := hb
  refine Name.ext ?_
  rw [h _ _ hin, h _ _ hin', heq]

/-- A dispatch that is alone sends its own message, at most once. -/
theorem sent_of_alone (hkp : ctl.WellKept) (halo : Alone ctl (.dispatch c)) :
    (∀ id ∈ (ctl.dispatch P c).sent, id = c.input.correlationId) ∧
    (ctl.dispatch P c).sent.Nodup := by
  rcases dispatch_cases P ctl c with ⟨-, hsent⟩ | ⟨root, hro, loaded, s, hld, -, hsent |
    ⟨new, hnew, obs, hobs, hsent⟩⟩
  · rw [hsent]
    exact ⟨nofun, .nil⟩
  · rw [hsent]
    exact ⟨nofun, .nil⟩
  · rw [hsent]
    have hkp' := hkp.keep c root
    constructor
    · intro id hid
      simp only [sentMessages, mem_filterMap, mem_map, Option.map_eq_some_iff,
        exists_exists_and_eq_and] at hid
      obtain ⟨d, hd, i, hin, rfl⟩ := hid
      by_cases hown : d.taskId.text = messageTaskId c.input.correlationId
      · exact messageTaskId_injective ((hkp' _ _ hin).symm.trans hown)
      · -- Another message is kept, and its task is started: it was not alone.
        exfalso
        rw [Controller.keep, get?_set_of_ne _ _ (Ne.symm hown)] at hin
        obtain ⟨hexisting, hfr⟩ :=
          halo root hro loaded s obs hobs hld d.taskId hown (by rw [hin]; rfl)
        rcases startable_of_tick hnew hd with ⟨r, hget, hstb⟩ | ⟨hno, htx⟩
        · exact hexisting r hget hstb
        · exact hfr hno htx
    · cases hstd : (c.tick P (ctl.keep c root).dispatchInputs s new obs).started with
      | nil => exact nodup_nil
      | cons d rest =>
        have hne : (c.tick P (ctl.keep c root).dispatchInputs s new obs).started ≠ [] := by
          rw [hstd]
          exact cons_ne_nil d rest
        obtain ⟨_, _, -, -, hnd, -⟩ := startable_of_started hne
        rw [← hstd]
        exact nodup_sentMessages hkp' hnd

theorem orderly_nil : Orderly [] := ⟨nofun, fun _ => le_rfl⟩

/-- One more dispatch that sends at most its own message. -/
theorem Orderly.cons {entry : Entry} {history : List Entry} (h : Orderly history)
    (hown : ∀ id ∈ entry.sent, id = entry.correlationId) (hnd : entry.sent.Nodup) :
    Orderly (entry :: history) := by
  refine ⟨forall_mem_cons.mpr ⟨hown, h.own⟩, fun id => ?_⟩
  rw [flatMap_cons, count_append, map_cons, count_cons]
  have hrs := h.count id
  by_cases hid : entry.correlationId = id
  · have hone := nodup_iff_count_le_one.mp hnd id
    simp only [hid, beq_self_eq_true, if_true]
    omega
  · have hzero : entry.sent.count id = 0 := count_eq_zero.mpr fun hmem => hid (hown id hmem).symm
    omega

/-- Opening a root and observing a notification leave the messages alone. -/
theorem dispatchInputs_getD {x : Except Refusal Controller} (h : ∀ ctl', x = .ok ctl' →
      ctl'.dispatchInputs = ctl.dispatchInputs) :
    (x.toOption.getD ctl).dispatchInputs = ctl.dispatchInputs := by
  cases x with
  | error => rfl
  | ok ctl' => exact h ctl' rfl

theorem dispatchInputs_openRoot (c : OpenCall) :
    (ctl.openRoot c).dispatchInputs = ctl.dispatchInputs := by
  unfold Controller.openRoot
  split
  · rfl
  · split
    · rfl
    · rename_i loaded s hld
      rw [← dispatchInputs_load hld]
      refine dispatchInputs_getD fun ctl' hok => ?_
      simp only [bind_eq_ok] at hok
      obtain ⟨_, -, _, -, hps'⟩ := hok
      exact dispatchInputs_persist hps'

theorem dispatchInputs_observe (c : ObserveCall) :
    (ctl.observe P c).dispatchInputs = ctl.dispatchInputs := by
  unfold Controller.observe
  split
  · rfl
  · split
    · rfl
    · refine dispatchInputs_getD fun ctl' hok => ?_
      simp only [bind_eq_ok] at hok
      obtain ⟨_, -, _, -, hps'⟩ := hok
      exact dispatchInputs_persist hps'

theorem Controller.WellKept.serve (h : ctl.WellKept) (c : Call) : (ctl.serve P c).1.WellKept := by
  cases c with
  | openRoot c =>
    intro t i hget
    exact h t i (dispatchInputs_openRoot c ▸ hget)
  | observe c =>
    intro t i hget
    exact h t i (dispatchInputs_observe (P := P) c ▸ hget)
  | dispatch c => exact h.dispatch

/-! ## Two messages -/

/-- A message that is dispatched at some time, and what becomes of what is sent. -/
def dispatchAt (correlationId : String) (time : Time) (outcome : SendOutcome) : DispatchCall where
  input := { rootPath := "/project", correlationId }
  canonicalRoot := some "/project"
  file := .missing
  loadedAt := some time
  createdAt := some time
  observedAt := some time
  send _ := outcome
  acceptedAt _ := some time
  written := true

def offline : SendOutcome := .rejected (.error (.json (.text "offline")))

def online : SendOutcome :=
  .fulfilled (.json (.text "thread-1")) (.json (.text "turn-1")) ⟨none, none, none, none, "unknown"⟩

/-- **As long as every dispatch is alone, every message is sent during its own dispatches only, and
no more often than it is dispatched.** -/
theorem orderly_of_alone (P : Platform) (calls : List Call) (halone : AllAlone P .new calls) :
    Orderly (serveAll P .new calls) := by
  -- The induction is on the calls that are left, for every controller that keeps its messages well.
  have hmain : ∀ calls (controller : Controller), controller.WellKept →
      AllAlone P controller calls → Orderly (serveAll P controller calls) := by
    intro calls
    induction calls with
    | nil => exact fun _ _ _ => orderly_nil
    | cons call rest ih =>
      intro controller hkept halone
      have hrest := ih _ (hkept.serve call) halone.2
      cases call with
      | openRoot call => exact hrest
      | observe call => exact hrest
      | dispatch call =>
        obtain ⟨hown, hnodup⟩ := sent_of_alone hkept halone.1
        exact hrest.cons hown hnodup
  exact hmain calls .new nofun halone

/-- A dispatch is alone if the tasks of all other messages are left alone. -/
theorem alone_dispatchAt {cid : String} {time : Time} {o : SendOutcome}
    (htrim : trim (messageTaskId cid) = messageTaskId cid)
    (h : (ctl.load "/project" .missing (some time)).map
      (fun loaded => decide (∀ p ∈ loaded.2.tasks.entries,
      p.1.text ≠ messageTaskId cid → p.2.isLeftAlone (some time) = true)) = .ok true) :
    Alone ctl (.dispatch (dispatchAt cid time o)) := by
  intro root hroot loaded state observedAt hobserved hload id hother _
  cases hroot
  cases hobserved
  obtain ⟨_, hok, hall⟩ := map_eq_ok.mp h
  obtain rfl := Except.ok.inj (hok.symm.trans hload)
  refine ⟨fun record hget hstart => ?_, fun _ => htrim.symm ▸ hother⟩
  have hleft := of_decide_eq_true hall (id, record) (get?_eq_some.mp hget) hother
  rw [hstart.1] at hleft
  cases hleft

/-- A message is refused, another one is dispatched before the first may be tried again, and then
the first is dispatched again. -/
def twoMessages : List Call :=
  [.dispatch (dispatchAt "A" epoch offline), .dispatch (dispatchAt "B" epoch online),
    .dispatch (dispatchAt "A" later online)]

theorem orderly_of_alone_twoMessages : AllAlone plainPlatform .new twoMessages ∧
    serveAll plainPlatform .new twoMessages = [⟨"A", ["A"]⟩, ⟨"B", ["B"]⟩, ⟨"A", ["A"]⟩] ∧
    Orderly (serveAll plainPlatform .new twoMessages) := by
  have halone : AllAlone plainPlatform .new twoMessages :=
    ⟨alone_dispatchAt (by decide) rfl, alone_dispatchAt (by decide) rfl,
      alone_dispatchAt (by decide) rfl, trivial⟩
  exact ⟨halone, rfl, orderly_of_alone plainPlatform _ halone⟩

/-- A message is refused, and the dispatch of another one sends it eleven seconds later. -/
theorem refused_message_sent :
    let first := dispatchAt "A" epoch offline
    let second := dispatchAt "B" later online
    (Controller.new.dispatch plainPlatform first).reply = .error (.notDispatched "desktop-A") ∧
      serveAll plainPlatform .new [.dispatch first, .dispatch second] =
        [⟨"A", ["A"]⟩, ⟨"B", ["A", "B"]⟩] :=
  ⟨rfl, rfl⟩

end Orquesta.ExecutionKernel
