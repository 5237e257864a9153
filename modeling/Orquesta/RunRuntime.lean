import Mathlib.Data.List.Infix
import Orquesta.Library.Utf16

/-!
# The runtime of workflows

What the controller of workflows exchanges with the runtime that runs its turns, and the texts,
bytes and checks it uses.

## Main definitions

* `isSafeId`, `includes`, `isNullableText`
* `Text`: a text that need not be well formed
* `utf8`, `decodeUtf8`
* `Boundary`, `Started`, `ThreadHistory`, `Answer`
* `Notification`, `Approval`
-/

namespace Orquesta.RunRuntime

/-! ## Texts -/

/-- `/^[a-zA-Z0-9._:-]{1,128}$/u`. -/
def isSafeId (id : String) : Bool :=
  id ≠ "" && id.toList.length ≤ 128 && id.toList.all fun c =>
    ('a' ≤ c && c ≤ 'z') || ('A' ≤ c && c ≤ 'Z') || ('0' ≤ c && c ≤ '9') ||
      c = '.' || c = '_' || c = ':' || c = '-'

/-- `text.includes(part)`, for characters or code units. -/
def includes {α : Type} [DecidableEq α] (text part : List α) : Bool := part <:+: text

def isNullableText (value : Option String) (maximum : Nat) : Bool :=
  value.all fun text => utf16Length text ≤ maximum

/-- A text of JavaScript, by its code units. -/
abbrev Text := List UInt16

instance : Coe String Text := ⟨toUtf16⟩

abbrev Bytes := List UInt8

/-- The bytes of a text in UTF-8. -/
def utf8 (text : String) : Bytes := text.toUTF8.data.toList

theorem length_utf8 (t : String) : (utf8 t).length = t.utf8ByteSize := rfl

def decodeUtf8 (bytes : Bytes) : String := (String.fromUTF8? ⟨bytes.toArray⟩).getD "\uFFFD"

theorem decodeUtf8_utf8 (t : String) : decodeUtf8 (utf8 t) = t := by
  have h : (⟨(utf8 t).toArray⟩ : ByteArray) = t.toUTF8 := rfl
  have hval : t.toUTF8.IsValidUTF8 := t.isValidUTF8
  rw [decodeUtf8, h, String.fromUTF8?, dif_pos hval]
  rfl

/-- `/^\d{4}-\d\d-\d\dT\d\d:\d\d:\d\d\.\d{3}Z$/`, the form in which `toISOString` writes a time. -/
def isIsoTime (text : String) : Bool :=
  (text.toList.zip "0000-00-00T00:00:00.000Z".toList).all (fun entry =>
    if entry.2 = '0' then entry.1.isDigit else entry.1 = entry.2) && text.length = 24

/-! ## Answers of the runtime -/

/-- The profile with which the runtime says it runs a turn. -/
structure Boundary where
  (sandbox approvalPolicy webSearchMode : String)
deriving DecidableEq

/-- A turn that the runtime started. -/
structure Started where
  (threadId turnId : String)
  runtimeBoundary : Boundary

inductive HistoryStatus
  | inProgress | completed | failed | unknown
deriving DecidableEq

def HistoryStatus.text : HistoryStatus → String
  | .inProgress => "in_progress"
  | .completed => "completed"
  | .failed => "failed"
  | .unknown => "unknown"

/-- What `readInspectionThread` returns, with texts in `τ`. -/
structure ThreadHistory (τ : Type) where
  finalResponse : Option τ
  status : HistoryStatus

/-- The text, unless it is `null` or empty. -/
def given (text : Option String) : Option String := text.filter (· ≠ "")

/-- A time as `toISOString` writes it. -/
structure Instant (isDate : String → Bool) where
  text : String
  isDate : isDate text

/-- What the outside may answer to a step of a controller.  Each step reads what it asked for. -/
structure Answer (isDate : String → Bool) (τ : Type) where
  now : Instant isDate
  /-- The id that `createId` returns. -/
  createdId : String
  /-- The file operation fails. -/
  refused : Option String
  started : Except String Started
  (interrupted responded : Except String Unit)
  history : Except String (ThreadHistory τ)

/-! ## Reports of the runtime -/

inductive NotificationKind
  | turnStarted | turnCompleted | turnFailed | agentMessage | modelObserved | providerEvent

structure Notification (τ : Type) where
  kind : NotificationKind
  threadId : String
  text : Option τ

structure Approval where
  (threadId turnId : String)
  responseOptions : List String

/-- How an approval is answered, if it can be. -/
def Approval.decision (approval : Approval) : Option String :=
  if "decline" ∈ approval.responseOptions then some "decline"
  else if "cancel" ∈ approval.responseOptions then some "cancel"
  else none

end Orquesta.RunRuntime
