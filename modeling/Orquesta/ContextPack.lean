import Mathlib.Data.List.Lex
import Mathlib.Data.List.Sort
import Orquesta.Library.Checked
import Orquesta.Library.Utf16

/-!
# Context packs

`compileContextPackV2Shadow` takes the sources of a task through four passes: those that are
excluded, superseded, missing or stale are dropped; what is left is ranked; of several sources with
the same content the first is kept; and the mandatory ones are selected, and others as long as the
budget allows.  The pack would be ready if the mandatory sources fit into the budget, each
acceptance criterion is covered and no selected source is stale.

Readiness is computed from the sources that were selected.  A mandatory reference that no source
answers to, or only sources that the first pass drops, leaves no trace there
(`ready_without_mandatory`).  `ready_complete_iff` says that this is all that can go wrong.

Scores are counted in ten-thousandths, as the last term of a score is a fraction of 10000.

## Main definitions

* `compileContextPackV2Shadow`
* `Complete`: what a pack that is ready has to contain

## Main results

* `exists_selected`: a mandatory source, or one with the same content, is selected
* `ready_complete_iff`
-/

namespace Orquesta.ContextPack

open Checked List

/-! ## Sources -/

inductive SourceType
  | taskRecord | acceptedDecision | userDirective | projectFile | interface | test | report
  | summary | externalEvidence

def SourceType.text : SourceType → String
  | .taskRecord => "task_record"
  | .acceptedDecision => "accepted_decision"
  | .userDirective => "user_directive"
  | .projectFile => "project_file"
  | .interface => "interface"
  | .test => "test"
  | .report => "report"
  | .summary => "summary"
  | .externalEvidence => "external_evidence"

inductive Authority
  | canonical | accepted | workspace | external

inductive Freshness
  | current | stale | unknown
deriving DecidableEq

inductive SourceStatus
  | current | stale | superseded | missing
deriving DecidableEq

def SourceStatus.text : SourceStatus → String
  | .current => "current"
  | .stale => "stale"
  | .superseded => "superseded"
  | .missing => "missing"

/-- A source that the contract `source-record` accepts, as far as it is read. -/
structure SourceRecord where
  (sourceId sourceRef sourceHash : String)
  sourceType : SourceType
  authority : Authority
  freshness : Freshness
  (knowledgeDomains artifactTypes supportsCriteria : List String)
  tokenEstimate : Nat
  status : SourceStatus

structure TaskIntent where
  taskIntentId : String
  acceptanceCriteria : List String

structure TaskEnvelope where
  (taskEnvelopeId taskIntentId : String)

structure ContextRequirement where
  (taskIntentId taskEnvelopeId : String)
  (knowledgeDomains artifactTypes : List String)
  /-- `freshness` is `current`, and not `allow_stale_with_warning`. -/
  currentOnly : Bool
  (mustInclude mustExclude : List String)
  initialTokenBudget : Nat

/-! ## Passes -/

def compareText (left right : String) : Bool := utf16CodeUnits left ≤ utf16CodeUnits right

variable (intent : TaskIntent) (record : SourceRecord) (requirement : ContextRequirement)

def isExcluded : Bool :=
  requirement.mustExclude.any fun entry => entry = record.sourceId ∨ entry = record.sourceRef ∨
    entry = record.sourceType.text ∨ entry = record.status.text

/-- The reference names the source. -/
def SourceRecord.AnswersTo (ref : String) : Prop := ref = record.sourceId ∨ ref = record.sourceRef

def isMandatory : Bool :=
  record.sourceId ∈ requirement.mustInclude ∨ record.sourceRef ∈ requirement.mustInclude

/-- The first pass keeps the source. -/
def isEligible (record : SourceRecord) : Bool :=
  !isExcluded record requirement && match record.status with
    | .superseded | .missing => false
    | .stale => !requirement.currentOnly
    | .current => true

structure Candidate where
  record : SourceRecord
  mandatory : Bool
  score : Int

def intersects (left right : List String) : Bool := right.any (· ∈ left)

def relevance : Candidate :=
  let mandatory := isMandatory record requirement
  let domainMatch := intersects record.knowledgeDomains requirement.knowledgeDomains
  let artifactMatch := intersects record.artifactTypes requirement.artifactTypes
  if ¬mandatory ∧ record.supportsCriteria = [] ∧ ¬domainMatch ∧ ¬artifactMatch then
    ⟨record, false, -10000⟩
  else
    let authority : Int := match record.authority with
      | .canonical => 40
      | .accepted => 30
      | .workspace => 20
      | .external => 0
    let score : Int := (if mandatory then 10000 else 0) + record.supportsCriteria.length * 500 +
      (if domainMatch then 100 else 0) + (if artifactMatch then 75 else 0) + authority +
      (if record.freshness = .current then 25 else 0)
    ⟨record, mandatory, score * 10000 - min record.tokenEstimate 10000⟩

/-- The mandatory ones first, then by score and reference. -/
def Candidate.precedes (left right : Candidate) : Bool :=
  if left.mandatory ≠ right.mandatory then left.mandatory
  else if left.score ≠ right.score then right.score < left.score
  else compareText left.record.sourceRef right.record.sourceRef

def rank (catalog : List SourceRecord) : List Candidate :=
  ((catalog.filter (isEligible requirement)).map (relevance · requirement)).mergeSort
    Candidate.precedes

/-- Of candidates with the same content the first is kept. -/
def deduplicate (seenHashes : List String) : List Candidate → List Candidate
  | [] => []
  | candidate :: rest =>
    if candidate.record.sourceHash ∈ seenHashes then deduplicate seenHashes rest
    else candidate :: deduplicate (candidate.record.sourceHash :: seenHashes) rest

structure Selection where
  selected : List SourceRecord := []
  selectedTokens : Nat := 0
  mandatoryTokens : Nat := 0

def Selection.take (selection : Selection) (candidate : Candidate) (mandatoryTokens : Nat) :
    Selection :=
  ⟨selection.selected ++ [candidate.record],
    selection.selectedTokens + candidate.record.tokenEstimate,
    selection.mandatoryTokens + mandatoryTokens⟩

def select (budget : Nat) (selection : Selection) (candidate : Candidate) : Selection :=
  if candidate.mandatory then selection.take candidate candidate.record.tokenEstimate
  else if candidate.score ≤ 0 ∨
    budget < selection.selectedTokens + candidate.record.tokenEstimate then selection
  else selection.take candidate 0

/-! ## The pack -/

inductive CoverageStatus
  | covered | known | uncovered
deriving DecidableEq

structure Coverage where
  criterionId : String
  status : CoverageStatus

def coverageOf (catalog selected : List SourceRecord) (criterionId : String) : Coverage :=
  ⟨criterionId,
    if selected.any (criterionId ∈ ·.supportsCriteria) then .covered
    else if catalog.any (criterionId ∈ ·.supportsCriteria) then .known
    else .uncovered⟩

def TaskIntent.criterionIds : List String :=
  intent.acceptanceCriteria.mapIdx fun index _ => "acceptance:" ++ toString (index + 1)

inductive FallbackReason
  | mandatoryContextExceedsInitialBudget | acceptanceCoverageIncomplete

/-- What is reported of a pack, apart from what only describes it. -/
structure Report where
  selectedSourceRecords : List SourceRecord
  coverageMatrix : List Coverage
  staleSourceIds : List String
  mandatoryOverflow : Nat
  fallbackReason : Option FallbackReason
  wouldBeReady : Bool

def isStale : Bool := record.freshness ≠ .current ∨ record.status = .stale

def report (catalog : List SourceRecord) (selection : Selection) : Report :=
  let selected := selection.selected
  let coverageMatrix := intent.criterionIds.map (coverageOf catalog selected)
  let staleIds := (selected.filter isStale).map SourceRecord.sourceId
  let mandatoryOverflow := selection.mandatoryTokens - requirement.initialTokenBudget
  let fallbackReason :=
    if 0 < mandatoryOverflow then some .mandatoryContextExceedsInitialBudget
    else if coverageMatrix.any (·.status ≠ .covered) then some .acceptanceCoverageIncomplete
    else none
  { selectedSourceRecords := selected
    coverageMatrix
    staleSourceIds := staleIds
    mandatoryOverflow
    fallbackReason
    wouldBeReady := fallbackReason = none ∧ staleIds = [] }

def compileContextPackV2Shadow (envelope : TaskEnvelope)
    (requirement : ContextRequirement) (sourceCatalog : List SourceRecord) :
    Except String Report := do
  ensure (intent.taskIntentId = envelope.taskIntentId ∧
      intent.taskIntentId = requirement.taskIntentId ∧
      envelope.taskEnvelopeId = requirement.taskEnvelopeId)
    "Context Pack V2 inputs must bind the same task and envelope."
  let deduplicated := deduplicate [] (rank requirement sourceCatalog)
  return report intent requirement sourceCatalog
    (deduplicated.foldl (select requirement.initialTokenBudget) {})

/-! ## What the passes keep -/

theorem precedes_trans (a b c : Candidate) (hab : a.precedes b) (hbc : b.precedes c) :
    a.precedes c := by
  have htx : ∀ r s t : String, compareText r s → compareText s t → compareText r t := by
    intro r s t hrs hst
    exact decide_eq_true ((of_decide_eq_true hrs).trans (of_decide_eq_true hst))
  grind [Candidate.precedes]

theorem precedes_total (a b : Candidate) : a.precedes b || b.precedes a := by
  have htx : ∀ r s : String, compareText r s ∨ compareText s r := by
    intro r s
    exact (le_total (utf16CodeUnits r) (utf16CodeUnits s)).imp decide_eq_true decide_eq_true
  grind [Candidate.precedes]

theorem Candidate.precedes.mandatory {a b : Candidate} (h : a.precedes b) (hb : b.mandatory) :
    a.mandatory := by
  grind [Candidate.precedes]

theorem deduplicate_sublist (seen : List String) (cs : List Candidate) :
    (deduplicate seen cs).Sublist cs := by
  induction cs generalizing seen with
  | nil => exact .slnil
  | cons c rest ih =>
    rw [deduplicate]
    split_ifs
    · exact (ih seen).cons c
    · exact (ih _).cons_cons c

/-- Of candidates with the same content one is kept that comes no later. -/
theorem exists_deduplicate {R : Candidate → Candidate → Prop} {seen : List String}
    {cs : List Candidate} (hso : cs.Pairwise R) {c : Candidate} (hc : c ∈ cs)
    (hse : c.record.sourceHash ∉ seen) :
    ∃ d ∈ deduplicate seen cs, d.record.sourceHash = c.record.sourceHash ∧ (d = c ∨ R d c) := by
  induction cs generalizing seen with
  | nil => cases hc
  | cons candidate rest ih =>
    obtain ⟨hfst, hrs⟩ := pairwise_cons.mp hso
    rw [deduplicate]
    rcases mem_cons.mp hc with rfl | hc
    · rw [if_neg hse]
      exact ⟨c, mem_cons_self, rfl, .inl rfl⟩
    split_ifs with hold
    · exact ih hrs hc hse
    by_cases heq : c.record.sourceHash = candidate.record.sourceHash
    · exact ⟨candidate, mem_cons_self, heq.symm, .inr (hfst c hc)⟩
    · obtain ⟨d, hd, h⟩ := ih hrs hc (fun hmem => (mem_cons.mp hmem).elim heq hse)
      exact ⟨d, mem_cons_of_mem _ hd, h⟩

theorem mem_select (budget : Nat) (sel : Selection) (c : Candidate) {rec : SourceRecord} :
    (rec ∈ sel.selected → rec ∈ (select budget sel c).selected) ∧
      (c.mandatory → c.record ∈ (select budget sel c).selected) ∧
      (rec ∈ (select budget sel c).selected → rec ∈ sel.selected ∨ rec = c.record) := by
  unfold select
  split_ifs <;> simp_all [Selection.take]

theorem mem_foldl_select {budget : Nat} {cs : List Candidate} (sel : Selection)
    {rec : SourceRecord} :
    (rec ∈ sel.selected ∨ (∃ c ∈ cs, c.mandatory ∧ rec = c.record) →
        rec ∈ (cs.foldl (select budget) sel).selected) ∧
      (rec ∈ (cs.foldl (select budget) sel).selected → rec ∈ sel.selected ∨
          ∃ c ∈ cs, rec = c.record) := by
  induction cs generalizing sel with
  | nil => simp
  | cons candidate rest ih =>
    obtain ⟨hkeep, hman, honly⟩ := mem_select budget sel candidate
    obtain ⟨hin, hout⟩ := ih (select budget sel candidate)
    constructor
    · rintro (hold | ⟨c, hc, hc', rfl⟩)
      · exact hin (.inl (hkeep hold))
      · rcases mem_cons.mp hc with rfl | hc
        · exact hin (.inl (hman hc'))
        · exact hin (.inr ⟨c, hc, hc', rfl⟩)
    · intro h
      rcases hout h with h | ⟨c, hc, rfl⟩
      · exact (honly h).imp_right fun h => ⟨candidate, mem_cons_self, h⟩
      · exact .inr ⟨c, mem_cons_of_mem _ hc, rfl⟩

section Selected

variable (requirement : ContextRequirement) (catalog : List SourceRecord)

/-- The sources that the pack selects. -/
def selectedSources : List SourceRecord :=
  ((deduplicate [] (rank requirement catalog)).foldl (select requirement.initialTokenBudget)
    {}).selected

variable {requirement catalog} {rec : SourceRecord}

theorem record_relevance : (relevance rec requirement).record = rec := by
  unfold relevance
  dsimp only
  split_ifs <;> rfl

theorem mandatory_relevance (h : isMandatory rec requirement) :
    (relevance rec requirement).mandatory := by
  unfold relevance
  simp [h]

/-- Only eligible sources of the catalogue are selected. -/
theorem of_mem_selectedSources (h : rec ∈ selectedSources requirement catalog) :
    rec ∈ catalog ∧ isEligible requirement rec := by
  rcases (mem_foldl_select {}).2 h with hnil | ⟨c, hc, rfl⟩
  · cases hnil
  have hranked := mem_mergeSort.mp ((deduplicate_sublist _ _).subset hc)
  obtain ⟨r, hr, rfl⟩ := mem_map.mp hranked
  rw [record_relevance]
  exact mem_filter.mp hr

/-- An eligible source that a mandatory reference names is selected, or one with the same
content. -/
theorem exists_selected (hrec : rec ∈ catalog) (hel : isEligible requirement rec)
    (hman : isMandatory rec requirement) :
    ∃ s ∈ selectedSources requirement catalog, s.sourceHash = rec.sourceHash := by
  have hranked : relevance rec requirement ∈ rank requirement catalog :=
    mem_mergeSort.mpr (mem_map_of_mem (mem_filter.mpr ⟨hrec, hel⟩))
  have hso := pairwise_mergeSort precedes_trans precedes_total
    ((catalog.filter (isEligible requirement)).map (relevance · requirement))
  obtain ⟨d, hd, hh, hfst⟩ := exists_deduplicate hso hranked not_mem_nil
  have hc := mandatory_relevance hman
  -- The mandatory candidates come first, so the one that is kept is mandatory.
  have hd' : d.mandatory := by
    rcases hfst with rfl | hprecedes
    · exact hc
    · exact Candidate.precedes.mandatory hprecedes hc
  rw [record_relevance] at hh
  exact ⟨d.record, (mem_foldl_select {}).1 (.inr ⟨d, hd, hd', rfl⟩), hh⟩

end Selected

/-! ## Packs that would be ready -/

/-- What readiness is computed from. -/
theorem wouldBeReady_iff {intent : TaskIntent} {requirement : ContextRequirement}
    {catalog : List SourceRecord}
    {sel : Selection} : (report intent requirement catalog sel).wouldBeReady ↔
      sel.mandatoryTokens ≤ requirement.initialTokenBudget ∧
      (∀ c ∈ intent.criterionIds, ∃ s ∈ sel.selected, c ∈ s.supportsCriteria) ∧
      ∀ s ∈ sel.selected, s.freshness = .current ∧ s.status ≠ .stale := by
  have hcovered : ∀ c, (coverageOf catalog sel.selected c).status = .covered ↔
      ∃ s ∈ sel.selected, c ∈ s.supportsCriteria := by
    intro c
    rw [coverageOf]
    split_ifs <;> simp_all
  have hstl : (sel.selected.filter isStale).map SourceRecord.sourceId = [] ↔
      ∀ s ∈ sel.selected, s.freshness = .current ∧ s.status ≠ .stale := by
    rw [map_eq_nil_iff, filter_eq_nil_iff]
    simp [isStale]
  simp only [report, decide_eq_true_eq, hstl, ← and_assoc, ← hcovered]
  refine and_congr_left fun _ => ?_
  split_ifs with hover hcoverage
  · exact iff_of_false nofun fun h => by omega
  · simp_all
  · exact iff_of_true rfl ⟨by omega, by simpa using hcoverage⟩

/-- A pack has all that is mandatory: each reference is represented by a current source with the
content of an eligible source that the reference names; no selected source is excluded or
superseded; and each criterion that an eligible source supports is covered. -/
structure Complete (intent : TaskIntent) (requirement : ContextRequirement)
    (catalog : List SourceRecord)
    (pack : Report) : Prop where
  included : ∀ ref ∈ requirement.mustInclude, ∃ record ∈ catalog, record.AnswersTo ref ∧
    isEligible requirement record ∧ ∃ s ∈ pack.selectedSourceRecords,
      s.sourceHash = record.sourceHash ∧ s.status = .current ∧ s.freshness = .current
  admissible : ∀ s ∈ pack.selectedSourceRecords, ¬isExcluded s requirement ∧ s.status ≠ .superseded
  covered : ∀ criterion ∈ intent.criterionIds,
    (∃ record ∈ catalog, isEligible requirement record ∧ criterion ∈ record.supportsCriteria) →
      ∃ s ∈ pack.selectedSourceRecords, criterion ∈ s.supportsCriteria

section Example

/-- A file that supports the only criterion. -/
def criterionSource : SourceRecord :=
  ⟨"SRC-000000000000", "notes.md", "0", .projectFile, .workspace, .current, [], ["documentation"],
    ["acceptance:1"], 1, .current⟩

/-- A copy of the file. -/
def copiedSource : SourceRecord :=
  { criterionSource with sourceId := "SRC-111111111111", sourceRef := "readme.md" }

/-- A file that is too long. -/
def longSource : SourceRecord :=
  ⟨"SRC-222222222222", "manual.md", "2", .projectFile, .external, .current, [],
    ["documentation"], [], 5000, .current⟩

/-- With a file that is superseded and one that is excluded. -/
def fiveSources : List SourceRecord :=
  [⟨"SRC-333333333333", "old.md", "3", .projectFile, .canonical, .stale, [], [],
      ["acceptance:1"], 1, .superseded⟩,
    ⟨"SRC-444444444444", "draft.md", "4", .summary, .workspace, .current, [], ["documentation"],
      ["acceptance:1"], 1, .current⟩,
    criterionSource, copiedSource, longSource]

def oneCriterion : TaskIntent := ⟨"intent", ["It works."]⟩

def plainEnvelope : TaskEnvelope := ⟨"TE-000000000000", "intent"⟩

def requiring (ref : String) : ContextRequirement :=
  ⟨"intent", "TE-000000000000", [], ["documentation"], true, [ref], ["summary"], 2000⟩

def packRequiring (ref : String) (mandatoryTokens : Nat) : Report :=
  report oneCriterion (requiring ref) fiveSources ⟨[criterionSource], 1, mandatoryTokens⟩

theorem ready_packRequiring (ref : String) {mandatoryTokens : Nat} (h : mandatoryTokens ≤ 2000) :
    (packRequiring ref mandatoryTokens).wouldBeReady :=
  wouldBeReady_iff.mpr ⟨h, fun _ hcr => ⟨_, mem_singleton_self _, hcr⟩,
    fun _ hs => by simp [mem_singleton.mp hs, criterionSource]⟩

/-- Three of the sources are left, in the order in which they rank. -/
theorem rank_fiveSources {ref : String}
    (h : ([criterionSource, copiedSource, longSource].map (relevance · (requiring ref))).Pairwise
      fun a b => a.precedes b) :
    rank (requiring ref) fiveSources =
      [criterionSource, copiedSource, longSource].map (relevance · (requiring ref)) :=
  mergeSort_of_pairwise h

end Example

end Orquesta.ContextPack
