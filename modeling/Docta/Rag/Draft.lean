/-
Module: Docta.Rag.Draft
Purpose: The vendor-independent evidence, request and draft contracts, the
  canonical drafts the application writes itself, and reading a draft back from
  its JSON dump.
Trusted boundary: the lax string-to-integer coercion of the validation library
  is a parameter of the decoder
Main exports: Evidence, TutorRequest, TutorDraft, TutorDraft.modelValidate,
  abstention, clarification, draftFromIntervention
-/
import Docta.Contract.Decoding
import Docta.Store.ConversationModels

namespace Docta

export Contract (IntentCitation InterventionFields TutorIntervention equivalentText modeFor
  helpLevel ValidationError)

open Contract Fallible

def promptVersion : String := "socratic-tutor-v4"

def abstentionText : String :=
  "No encuentro evidencia suficiente en el material activo del curso para responder. " ++
    "¿Puedes precisar el concepto o indicar la sección del PDF que estás estudiando?"

def clarificationText : String :=
  "¿A qué actividad o pregunta te refieres? Escríbela o indica el fragmento " ++
    "del material que estás estudiando."

structure RetrievalScope where
  courseId : UUID
  corpusVersionId : UUID
  principalUserId : UUID
  conversationId : UUID
  messageId : UUID
  correlationId : String
deriving DecidableEq, Repr

structure Evidence where
  chunkId : UUID
  courseId : UUID
  corpusVersionId : UUID
  documentVersionId : UUID
  documentTitle : String
  documentSha256 : Option String
  pageStart : Nat
  pageEnd : Nat
  fragment : String
  content : String
  contentHash : String
deriving DecidableEq, Repr

structure HistoryTurn where
  question : String
  answer : String
  situation : Option Situation := none
  helpLevel : Int := 0
deriving DecidableEq, Repr

structure TutorRequest where
  scope : RetrievalScope
  question : String
  evidence : List Evidence
  history : List HistoryTurn
  turnKind : Kind := .question
  turnIntent : Option Intent := none
  retrievalQuery : Option String := none
  needsAntecedent : Bool := false
deriving DecidableEq, Repr

/-- A draft.  `DraftCitation` and `IntentCitation` have the same fields and the
same bounds, so one type stands for both. -/
structure TutorDraft where
  mode : Mode
  answer : String
  citations : List IntentCitation
  grounded : Bool
  intervention : Option InterventionFields := none
deriving DecidableEq, Repr

/-- The bounds of the draft's own fields. -/
def TutorDraft.check (draft : TutorDraft) : Except ValidationError Unit := do
  checkText 1 6000 draft.answer
  let _ ← draft.citations.mapM IntentCitation.check
  checkLength 0 5 draft.citations

/-- `DraftCitation(...)` and `IntentCitation(...)`. -/
def Contract.IntentCitation.construct (chunkId : UUID) (quote : String) :
    Except ValidationError IntentCitation := do
  IntentCitation.check { chunkId, quote }
  return { chunkId, quote }

/-- `TutorDraft(...)`; an intervention instance is taken as it is. -/
def TutorDraft.construct (mode : Mode) (answer : String) (citations : List IntentCitation)
    (grounded : Bool) (intervention : Option InterventionFields) :
    Except ValidationError TutorDraft := do
  let draft : TutorDraft := { mode, answer, citations, grounded, intervention }
  draft.check
  return draft

/-- The dump of an object whose last field has a default: it may be absent. -/
def draftFields (value : Json) : Except ValidationError Record :=
  match modelFields value ["mode", "answer", "citations", "grounded", "intervention"] with
  | .ok record => .ok record
  | .error _ => modelFields value ["mode", "answer", "citations", "grounded"]

section Coercion

variable (intOfText : JString → Option Int)

/-- The `intervention` field: absent, `null`, or a validated intervention. -/
def decodeIntervention : Option Json → Except ValidationError (Option InterventionFields)
  | none => .ok none
  | some .null => .ok none
  | some value => do
      let intervention ← modelValidate intOfText value
      return some intervention.toInterventionFields

/-- `TutorDraft.model_validate_json`, from the parsed JSON value. -/
def TutorDraft.modelValidate (value : Json) : Except ValidationError TutorDraft := do
  let record ← draftFields value
  let mode ← decodeLiteral Mode.text Mode.all (record.get "mode")
  let answer ← decodeText (record.get "answer")
  let citations ← decodeList IntentCitation.decode (record.get "citations")
  let grounded ← decodeStrictBool (record.get "grounded")
  let intervention ← decodeIntervention intOfText (record.get "intervention")
  TutorDraft.construct mode answer citations grounded intervention

end Coercion

/-- `draft.model_dump_json()`, as a JSON value. -/
def TutorDraft.dump (draft : TutorDraft) : Json :=
  .record [("mode", .text draft.mode.text), ("answer", .text draft.answer),
    ("citations", .arr (draft.citations.map IntentCitation.dump)),
    ("grounded", .bool draft.grounded),
    ("intervention", (draft.intervention.map InterventionFields.dump).getD .null)]

/-- `abstention()`. -/
def abstention : TutorDraft where
  mode := .abstain
  answer := abstentionText
  citations := []
  grounded := false

/-- `draft_from_intervention(intervention)`. -/
def draftFromIntervention (intervention : InterventionFields) :
    Except ValidationError TutorDraft := do
  let citations ← intervention.citations.mapM fun citation =>
    IntentCitation.construct citation.chunkId citation.quote
  TutorDraft.construct (modeFor intervention) (equivalentText intervention) citations
    intervention.grounded (some intervention)

/-- The intervention of `clarification()`. -/
def clarificationIntervention : InterventionFields where
  version := .v1
  situation := .ambiguous
  blocks := [.question clarificationText]
  citations := []
  grounded := false

/-- `clarification()`. -/
def clarification : TutorDraft where
  mode := .clarify
  answer := clarificationText
  citations := []
  grounded := false
  intervention := some clarificationIntervention

theorem TutorDraft.construct_eq_ok {mode : Mode} {answer : String}
    {citations : List IntentCitation} {grounded : Bool} {intervention : Option InterventionFields}
    {draft : TutorDraft} :
    TutorDraft.construct mode answer citations grounded intervention = .ok draft ↔
      draft = { mode, answer, citations, grounded, intervention } ∧ draft.check = .ok () := by
  simp only [TutorDraft.construct, bind_eq_ok, pure_eq_ok]
  constructor
  · intro constructed
    obtain ⟨_, checked, rfl⟩ := constructed
    exact ⟨rfl, checked⟩
  · intro both
    obtain ⟨rfl, checked⟩ := both
    exact ⟨(), checked, rfl⟩

theorem Contract.IntentCitation.construct_eq_ok {chunkId : UUID} {quote : String}
    {citation : IntentCitation} :
    IntentCitation.construct chunkId quote = .ok citation ↔
      citation = { chunkId, quote } ∧ citation.check = .ok () := by
  simp only [IntentCitation.construct, bind_eq_ok, pure_eq_ok]
  constructor
  · intro constructed
    obtain ⟨_, checked, rfl⟩ := constructed
    exact ⟨rfl, checked⟩
  · intro both
    obtain ⟨rfl, checked⟩ := both
    exact ⟨(), checked, rfl⟩

/-- The canonical clarification passes the bounds of a draft. -/
theorem clarification_check : clarification.check = .ok () := by
  decide +kernel

/-- The canonical clarification is the draft of its intervention, which the
contract accepts. -/
theorem clarification_eq :
    clarificationIntervention.check = .ok () ∧
      draftFromIntervention clarificationIntervention = .ok clarification := by
  refine ⟨by decide +kernel, ?_⟩
  simp only [draftFromIntervention, bind_eq_ok]
  exact ⟨[], rfl, TutorDraft.construct_eq_ok.mpr ⟨by decide +kernel, clarification_check⟩⟩

/-- Constructing every citation again returns the citations. -/
theorem mapM_construct_eq_ok {citations constructed : List IntentCitation}
    (ok : citations.mapM (fun citation =>
      IntentCitation.construct citation.chunkId citation.quote) = .ok constructed) :
    constructed = citations := by
  have pointwise := mapM_eq_ok_iff_forall₂.mp ok
  induction pointwise with
  | nil => rfl
  | cons headOk tailOk inductionHypothesis =>
      have head := (IntentCitation.construct_eq_ok.mp headOk).1
      rw [inductionHypothesis (mapM_eq_ok_iff_forall₂.mpr tailOk), head]

/-- Citations within their bounds are constructed as they are. -/
theorem mapM_construct_self {citations : List IntentCitation}
    (checked : ∀ citation ∈ citations, citation.check = .ok ()) :
    (citations.mapM fun citation => IntentCitation.construct citation.chunkId citation.quote) =
      .ok citations := by
  apply mapM_eq_ok_iff_forall₂.mpr
  apply List.forall₂_same.mpr
  intro citation member
  exact IntentCitation.construct_eq_ok.mpr ⟨rfl, checked citation member⟩

/-- The draft of an intervention carries the intervention's own fields. -/
theorem draftFromIntervention_eq_ok {intervention : InterventionFields} {draft : TutorDraft}
    (ok : draftFromIntervention intervention = .ok draft) :
    draft.citations = intervention.citations ∧ draft.grounded = intervention.grounded ∧
      draft.mode = modeFor intervention ∧ draft.answer = equivalentText intervention ∧
        draft.intervention = some intervention := by
  simp only [draftFromIntervention, bind_eq_ok] at ok
  obtain ⟨citations, citationsOk, constructed⟩ := ok
  obtain ⟨rfl, _⟩ := TutorDraft.construct_eq_ok.mp constructed
  exact ⟨mapM_construct_eq_ok citationsOk, rfl, rfl, rfl, rfl⟩

/-! ### Round trip -/

section RoundTrip

variable (intOfText : JString → Option Int)

theorem decodeLiteral_mode (mode : Mode) :
    decodeLiteral Mode.text Mode.all (some (.text mode.text)) = .ok mode := by
  cases mode <;> simp [decodeLiteral, Mode.all, Mode.text, Json.text]

/-- A valid intervention, or none, is decoded back from its dump. -/
theorem decodeIntervention_dump {intervention : Option InterventionFields}
    (valid : ∀ fields ∈ intervention, fields.check = .ok ()) :
    decodeIntervention intOfText (some ((intervention.map InterventionFields.dump).getD .null)) =
      .ok intervention := by
  cases intervention with
  | none => rfl
  | some fields =>
      have decoded := modelValidate_dump intOfText ⟨fields, valid fields rfl⟩
      have isObject : decodeIntervention intOfText (some fields.dump) =
          (do
            let intervention ← Contract.modelValidate intOfText fields.dump
            return some intervention.toInterventionFields) := rfl
      rw [Option.map_some, Option.getD_some, isObject, decoded]
      rfl

/-- A valid draft is validated back from its own dump. -/
theorem TutorDraft.modelValidate_dump {draft : TutorDraft} (checked : draft.check = .ok ())
    (valid : ∀ fields ∈ draft.intervention, fields.check = .ok ()) :
    TutorDraft.modelValidate intOfText draft.dump = .ok draft := by
  have object : modelFields draft.dump ["mode", "answer", "citations", "grounded", "intervention"] =
      .ok (List.map (fun field : String × Json => (JString.ofString field.1, field.2))
        [("mode", .text draft.mode.text), ("answer", .text draft.answer),
          ("citations", .arr (draft.citations.map IntentCitation.dump)),
          ("grounded", .bool draft.grounded),
          ("intervention", (draft.intervention.map InterventionFields.dump).getD .null)]) :=
    modelFields_eq_ok.mpr (isRecord_of_names rfl)
  simp only [TutorDraft.modelValidate, draftFields, object, ok_bind, bind_eq_ok]
  refine ⟨draft.mode, ?_, draft.answer, decodeText_get rfl, draft.citations,
    decodeList_get rfl IntentCitation.decode_dump, draft.grounded, ?_, draft.intervention, ?_,
    TutorDraft.construct_eq_ok.mpr ⟨rfl, checked⟩⟩
  · rw [Record.get_map]
    exact decodeLiteral_mode draft.mode
  · rw [Record.get_map]
    rfl
  · rw [Record.get_map]
    exact decodeIntervention_dump intOfText valid

/-- The canonical clarification is validated back from its dump. -/
theorem modelValidate_clarification :
    TutorDraft.modelValidate intOfText clarification.dump = .ok clarification := by
  refine TutorDraft.modelValidate_dump intOfText clarification_check fun fields isFields => ?_
  rw [← Option.some.inj isFields]
  exact clarification_eq.1

end RoundTrip

end Docta
