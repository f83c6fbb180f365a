/-
Module: Docta.Contract.TutorContract
Purpose: The service's tutor intervention contract: the block types with their
  bounds, the coherence rules of a whole intervention, decoding from JSON, the
  JSON dump, and what the application derives from an intervention (equivalent
  text, allowed actions, mode, help level).
Trusted boundary: the lax string-to-integer coercion of the validation library
  is a parameter of the decoder
Main exports: InterventionBlock, TutorIntervention, TutorIntervention.dump,
  modelValidate, equivalentText, allowedActions, modeFor, helpLevel
-/
import Docta.Contract.Uuid
import Docta.Library.Fallible

namespace Docta.Contract

open Fallible

/-- Why a value was refused: the library's error type, or the text of a rule of
the contract. -/
abbrev ValidationError := String

inductive ContractVersion where
  | v1
  | v2
deriving DecidableEq, Repr

inductive Situation where
  | ambiguous
  | entry
  | unsupportedClaim
  | partialProgress
  | contrastableError
  | missingConcept
  | blocked
  | grounded
  | insufficientEvidence
deriving DecidableEq, Repr

inductive Action where
  | anotherHint
  | explain
  | viewSource
deriving DecidableEq, Repr

inductive DiagramKind where
  | sequence
  | relations
deriving DecidableEq, Repr

inductive Mode where
  | hint
  | guidedQuestion
  | explanation
  | abstain
  | clarify
deriving DecidableEq, Repr

/-- The literal each version is written as. -/
def ContractVersion.text : ContractVersion → String
  | .v1 => "tutor-intervention-v1"
  | .v2 => "tutor-intervention-v2"

/-- The literal each situation is written as. -/
def Situation.text : Situation → String
  | .ambiguous => "ambiguous"
  | .entry => "entry"
  | .unsupportedClaim => "unsupported_claim"
  | .partialProgress => "partial"
  | .contrastableError => "contrastable_error"
  | .missingConcept => "missing_concept"
  | .blocked => "blocked"
  | .grounded => "grounded"
  | .insufficientEvidence => "insufficient_evidence"

def DiagramKind.text : DiagramKind → String
  | .sequence => "sequence"
  | .relations => "relations"

def Mode.text : Mode → String
  | .hint => "hint"
  | .guidedQuestion => "guided_question"
  | .explanation => "explanation"
  | .abstain => "abstain"
  | .clarify => "clarify"

def ContractVersion.all : List ContractVersion := [.v1, .v2]

def Situation.all : List Situation :=
  [.ambiguous, .entry, .unsupportedClaim, .partialProgress, .contrastableError,
    .missingConcept, .blocked, .grounded, .insufficientEvidence]

def DiagramKind.all : List DiagramKind := [.sequence, .relations]

def Mode.all : List Mode := [.hint, .guidedQuestion, .explanation, .abstain, .clarify]

structure DiagramNode where
  id : String
  label : String
deriving DecidableEq, Repr

structure DiagramEdge where
  source : String
  target : String
  label : String
deriving DecidableEq, Repr

structure ActivityOption where
  id : String
  text : String
deriving DecidableEq, Repr

/-- The discriminated union of the six block models. -/
inductive InterventionBlock where
  | question (text : String)
  | hint (level : Int) (text : String)
  | explanation (title text : String)
  | diagram (kind : DiagramKind) (title : String) (nodes : List DiagramNode)
      (edges : List DiagramEdge)
  | activity (question : String) (options : List ActivityOption)
      (correctOptionId hint explanation : String)
  | sources (citationIndexes : List Int)
deriving DecidableEq, Repr

structure IntentCitation where
  chunkId : UUID
  quote : String
deriving DecidableEq, Repr

/-- The fields of an intervention, before any bound or rule is checked. -/
structure InterventionFields where
  version : ContractVersion
  situation : Situation
  blocks : List InterventionBlock
  citations : List IntentCitation
  grounded : Bool
deriving DecidableEq, Repr

/-! ### Bounds and rules -/

/-- `Field(min_length=..., max_length=...)`, counted in code points. -/
def checkText (minLength maxLength : Nat) (text : String) : Except ValidationError Unit := do
  failIf (text.length < minLength) "string_too_short"
  failIf (maxLength < text.length) "string_too_long"

/-- `Field(min_length=..., max_length=...)` of a list. -/
def checkLength {α : Type} (minLength maxLength : Nat) (items : List α) :
    Except ValidationError Unit := do
  failIf (items.length < minLength) "too_short"
  failIf (maxLength < items.length) "too_long"

/-- A lower-case ASCII letter. -/
def isLowerLetter (char : Char) : Bool :=
  decide ('a' ≤ char) && decide (char ≤ 'z')

/-- A character of `[a-z0-9_]`. -/
def isIdChar (char : Char) : Bool :=
  isLowerLetter char || (decide ('0' ≤ char) && decide (char ≤ '9')) || char == '_'

/-- The pattern `^[a-z][a-z0-9_]{0,23}$`. -/
def isNodeId (text : String) : Bool :=
  match text.toList with
  | first :: rest => isLowerLetter first && decide (rest.length ≤ 23) && rest.all isIdChar
  | [] => false

def checkNodeId (id : String) : Except ValidationError Unit :=
  failIf (isNodeId id = false) "string_pattern_mismatch"

def DiagramNode.check (node : DiagramNode) : Except ValidationError Unit := do
  checkNodeId node.id
  checkText 1 80 node.label

def DiagramEdge.check (edge : DiagramEdge) : Except ValidationError Unit :=
  checkText 0 80 edge.label

def ActivityOption.check (option : ActivityOption) : Except ValidationError Unit := do
  checkNodeId option.id
  checkText 1 600 option.text

def IntentCitation.check (citation : IntentCitation) : Except ValidationError Unit :=
  checkText 10 1600 citation.quote

/-- Field bounds and the model validator of each block. -/
def InterventionBlock.check : InterventionBlock → Except ValidationError Unit
  | .question text => checkText 1 600 text
  | .hint level text => do
      failIf (level < 1) "greater_than_equal"
      failIf (3 < level) "less_than_equal"
      checkText 1 600 text
  | .explanation title text => do
      checkText 1 120 title
      checkText 1 1500 text
  | .diagram _ title nodes edges => do
      checkText 1 120 title
      let _ ← nodes.mapM DiagramNode.check
      checkLength 2 12 nodes
      let _ ← edges.mapM DiagramEdge.check
      checkLength 1 20 edges
      let ids : List String := nodes.map (·.id)
      failIf (¬ ids.Nodup) "duplicate diagram node"
      failIf (∃ edge ∈ edges, edge.source ∉ ids ∨ edge.target ∉ ids)
        "diagram edge references an unknown node"
  | .activity questionText options correctOptionId hintText explanationText => do
      checkText 1 600 questionText
      let _ ← options.mapM ActivityOption.check
      checkLength 2 4 options
      checkText 1 600 hintText
      checkText 1 1500 explanationText
      let ids : List String := options.map (·.id)
      let texts : List String := options.map (·.text)
      failIf (¬ ids.Nodup ∨ ¬ texts.Nodup) "duplicate activity option"
      failIf (correctOptionId ∉ ids) "activity answer references an unknown option"
  | .sources citationIndexes => checkLength 1 5 citationIndexes

/-- `isinstance(block, (QuestionBlock, ActivityBlock))`. -/
def InterventionBlock.isPrimaryQuestion : InterventionBlock → Bool
  | .question _ => true
  | .activity _ _ _ _ _ => true
  | _ => false

def InterventionBlock.isActivity : InterventionBlock → Bool
  | .activity _ _ _ _ _ => true
  | _ => false

def InterventionBlock.isQuestion : InterventionBlock → Bool
  | .question _ => true
  | _ => false

/-- `isinstance(block, (QuestionBlock, ExplanationBlock))`. -/
def InterventionBlock.isQuestionOrExplanation : InterventionBlock → Bool
  | .question _ => true
  | .explanation _ _ => true
  | _ => false

/-- Some index of a sources block is past the last citation. -/
def InterventionBlock.exceeds (citations : Nat) : InterventionBlock → Bool
  | .sources citationIndexes => citationIndexes.any fun index => (citations : Int) ≤ index
  | _ => false

/-- The last part of `coherent`: what each situation says of its evidence. -/
def InterventionFields.evidenceRule (fields : InterventionFields) : Except ValidationError Unit :=
  match fields.situation with
  | .insufficientEvidence =>
      failIf (fields.grounded ∨ fields.citations ≠ [] ∨
          fields.blocks.any (fun block => !block.isQuestionOrExplanation))
        "abstention carries no evidence"
  | .ambiguous =>
      failIf (fields.grounded ∨ fields.citations ≠ [] ∨ fields.blocks.length ≠ 1 ∨
          fields.blocks.any (fun block => !block.isQuestion))
        "clarification must be one uncited question"
  | _ => failIf (¬ fields.grounded ∨ fields.citations = []) "factual guidance requires citations"

/-- The model validator `coherent`. -/
def InterventionFields.coherent (fields : InterventionFields) : Except ValidationError Unit := do
  failIf (fields.version = .v1 ∧ fields.blocks.any (·.isActivity))
    "activity requires tutor-intervention-v2"
  failIf (1 < (fields.blocks.filter (·.isPrimaryQuestion)).length) "one primary question per turn"
  failIf (fields.blocks.any (·.exceeds fields.citations.length))
    "sources reference a missing citation"
  fields.evidenceRule

/-- Everything the model checks once the fields have their types. -/
def InterventionFields.check (fields : InterventionFields) : Except ValidationError Unit := do
  let _ ← fields.blocks.mapM InterventionBlock.check
  checkLength 1 5 fields.blocks
  let _ ← fields.citations.mapM IntentCitation.check
  checkLength 0 5 fields.citations
  fields.coherent

/-- A value the contract accepts. -/
structure TutorIntervention extends InterventionFields where
  checked : toInterventionFields.check = .ok ()
deriving DecidableEq, Repr

/-! ### Decoding -/

/-- `ConfigDict(extra="forbid")`: an object with exactly the declared fields. -/
def modelFields (value : Json) (names : List String) : Except ValidationError Record :=
  match value with
  | .obj record => do
      failIf (∃ field ∈ record, field.1 ∉ names.map JString.ofString) "extra_forbidden"
      failIf (∃ name ∈ names, JString.ofString name ∉ record.map Prod.fst) "missing"
      .ok record
  | _ => .error "model_type"

/-- A `str` field; text with an unpaired surrogate is not Unicode. -/
def decodeText : Option Json → Except ValidationError String
  | some (.str text) =>
      match text.toText? with
      | some chars => .ok (String.ofList chars)
      | none => .error "string_unicode"
  | _ => .error "string_type"

/-- An `int` field in lax mode: integers, whole floats that fit into 64 bits,
booleans, and the strings the validation library reads as integers. -/
def decodeInt (intOfText : JString → Option Int) : Option Json → Except ValidationError Int
  | some (.int value) => .ok value
  | some (.float value) =>
      if value.den ≠ 1 then .error "int_from_float"
      else if value.num.natAbs < 2 ^ 63 then .ok value.num
      else .error "int_parsing_size"
  | some (.bool value) => .ok (if value then 1 else 0)
  | some (.str text) =>
      match intOfText text with
      | some value => .ok value
      | none => .error "int_parsing"
  | _ => .error "int_type"

/-- A `bool` field with `strict=True`. -/
def decodeStrictBool : Option Json → Except ValidationError Bool
  | some (.bool value) => .ok value
  | _ => .error "bool_type"

def decodeUUID : Option Json → Except ValidationError UUID
  | some (.str text) =>
      match text.toText?.bind UUID.parse? with
      | some uuid => .ok uuid
      | none => .error "uuid_parsing"
  | _ => .error "uuid_type"

/-- A `Literal` field over the values of an enumeration. -/
def decodeLiteral {α : Type} (text : α → String) (all : List α) :
    Option Json → Except ValidationError α
  | some (.str value) =>
      match all.find? fun item => JString.ofString (text item) = value with
      | some item => .ok item
      | none => .error "literal_error"
  | _ => .error "literal_error"

def decodeList {α : Type} (decode : Json → Except ValidationError α) :
    Option Json → Except ValidationError (List α)
  | some (.arr items) => items.mapM decode
  | _ => .error "list_type"

def DiagramNode.decode (value : Json) : Except ValidationError DiagramNode := do
  let record ← modelFields value ["id", "label"]
  let id ← decodeText (record.get "id")
  let label ← decodeText (record.get "label")
  return { id, label }

def DiagramEdge.decode (value : Json) : Except ValidationError DiagramEdge := do
  let record ← modelFields value ["source", "target", "label"]
  -- An end with an unpaired surrogate is no node id, so refusing it here or in
  -- the model validator is the same refusal.
  let source ← decodeText (record.get "source")
  let target ← decodeText (record.get "target")
  let label ← decodeText (record.get "label")
  return { source, target, label }

def ActivityOption.decode (value : Json) : Except ValidationError ActivityOption := do
  let record ← modelFields value ["id", "text"]
  let id ← decodeText (record.get "id")
  let text ← decodeText (record.get "text")
  return { id, text }

def IntentCitation.decode (value : Json) : Except ValidationError IntentCitation := do
  let record ← modelFields value ["chunk_id", "quote"]
  let chunkId ← decodeUUID (record.get "chunk_id")
  let quote ← decodeText (record.get "quote")
  return { chunkId, quote }

/-- `Field(discriminator="type")`: the tag of an object, when it is a string. -/
def typeTag : Json → Option JString
  | .obj record =>
      match Record.get record "type" with
      | some (.str tag) => some tag
      | _ => none
  | _ => none

section Coercion

variable (intOfText : JString → Option Int)

def InterventionBlock.decode (value : Json) : Except ValidationError InterventionBlock :=
  if typeTag value = some (JString.ofString "question") then do
    let record ← modelFields value ["type", "text"]
    let text ← decodeText (record.get "text")
    return .question text
  else if typeTag value = some (JString.ofString "hint") then do
    let record ← modelFields value ["type", "level", "text"]
    let level ← decodeInt intOfText (record.get "level")
    let text ← decodeText (record.get "text")
    return .hint level text
  else if typeTag value = some (JString.ofString "explanation") then do
    let record ← modelFields value ["type", "title", "text"]
    let title ← decodeText (record.get "title")
    let text ← decodeText (record.get "text")
    return .explanation title text
  else if typeTag value = some (JString.ofString "diagram") then do
    let record ← modelFields value ["type", "kind", "title", "nodes", "edges"]
    let kind ← decodeLiteral DiagramKind.text DiagramKind.all (record.get "kind")
    let title ← decodeText (record.get "title")
    let nodes ← decodeList DiagramNode.decode (record.get "nodes")
    let edges ← decodeList DiagramEdge.decode (record.get "edges")
    return .diagram kind title nodes edges
  else if typeTag value = some (JString.ofString "activity") then do
    let record ← modelFields value
      ["type", "question", "options", "correct_option_id", "hint", "explanation"]
    let question ← decodeText (record.get "question")
    let options ← decodeList ActivityOption.decode (record.get "options")
    let correctOptionId ← decodeText (record.get "correct_option_id")
    let hint ← decodeText (record.get "hint")
    let explanation ← decodeText (record.get "explanation")
    return .activity question options correctOptionId hint explanation
  else if typeTag value = some (JString.ofString "sources") then do
    let record ← modelFields value ["type", "citation_indexes"]
    let citationIndexes ←
      decodeList (fun item => decodeInt intOfText (some item)) (record.get "citation_indexes")
    return .sources citationIndexes
  else .error "union_tag_invalid"

def InterventionFields.decode (value : Json) : Except ValidationError InterventionFields := do
  let record ← modelFields value ["version", "situation", "blocks", "citations", "grounded"]
  let version ← decodeLiteral ContractVersion.text ContractVersion.all (record.get "version")
  let situation ← decodeLiteral Situation.text Situation.all (record.get "situation")
  let blocks ← decodeList (InterventionBlock.decode intOfText) (record.get "blocks")
  let citations ← decodeList IntentCitation.decode (record.get "citations")
  let grounded ← decodeStrictBool (record.get "grounded")
  return { version, situation, blocks, citations, grounded }

/-- Fields that pass every check are an intervention. -/
def TutorIntervention.ofFields (fields : InterventionFields) :
    Except ValidationError TutorIntervention :=
  match checked : fields.check with
  | .ok () => .ok ⟨fields, checked⟩
  | .error error => .error error

/-- `TutorIntervention.model_validate(value)`. -/
def modelValidate (value : Json) : Except ValidationError TutorIntervention := do
  let fields ← InterventionFields.decode intOfText value
  TutorIntervention.ofFields fields

end Coercion

/-! ### Dumping -/

/-- Unicode text as a JSON string value. -/
def Json.text (value : String) : Json := .str value

/-- A JSON object with ASCII field names. -/
def Json.record (fields : List (String × Json)) : Json :=
  .obj (fields.map fun field => (JString.ofString field.1, field.2))

def DiagramNode.dump (node : DiagramNode) : Json :=
  .record [("id", .text node.id), ("label", .text node.label)]

def DiagramEdge.dump (edge : DiagramEdge) : Json :=
  .record [("source", .text edge.source), ("target", .text edge.target),
    ("label", .text edge.label)]

def ActivityOption.dump (option : ActivityOption) : Json :=
  .record [("id", .text option.id), ("text", .text option.text)]

def IntentCitation.dump (citation : IntentCitation) : Json :=
  .record [("chunk_id", .text citation.chunkId.text), ("quote", .text citation.quote)]

def InterventionBlock.dump : InterventionBlock → Json
  | .question text => .record [("type", .text "question"), ("text", .text text)]
  | .hint level text =>
      .record [("type", .text "hint"), ("level", .int level), ("text", .text text)]
  | .explanation title text =>
      .record [("type", .text "explanation"), ("title", .text title), ("text", .text text)]
  | .diagram kind title nodes edges =>
      .record [("type", .text "diagram"), ("kind", .text kind.text), ("title", .text title),
        ("nodes", .arr (nodes.map DiagramNode.dump)),
        ("edges", .arr (edges.map DiagramEdge.dump))]
  | .activity questionText options correctOptionId hintText explanationText =>
      .record [("type", .text "activity"), ("question", .text questionText),
        ("options", .arr (options.map ActivityOption.dump)),
        ("correct_option_id", .text correctOptionId), ("hint", .text hintText),
        ("explanation", .text explanationText)]
  | .sources citationIndexes =>
      .record [("type", .text "sources"), ("citation_indexes", .arr (citationIndexes.map .int))]

/-- `model_dump(mode="json")`. -/
def InterventionFields.dump (fields : InterventionFields) : Json :=
  .record [("version", .text fields.version.text), ("situation", .text fields.situation.text),
    ("blocks", .arr (fields.blocks.map InterventionBlock.dump)),
    ("citations", .arr (fields.citations.map IntentCitation.dump)),
    ("grounded", .bool fields.grounded)]

/-! ### What the checks mean -/

@[simp] theorem checkText_eq_ok {minLength maxLength : Nat} {text : String} {done : Unit} :
    checkText minLength maxLength text = .ok done ↔
      minLength ≤ text.length ∧ text.length ≤ maxLength := by
  simp [checkText]

@[simp] theorem checkLength_eq_ok {α : Type} {minLength maxLength : Nat} {items : List α}
    {done : Unit} :
    checkLength minLength maxLength items = .ok done ↔
      minLength ≤ items.length ∧ items.length ≤ maxLength := by
  simp [checkLength]

@[simp] theorem checkNodeId_eq_ok {id : String} {done : Unit} :
    checkNodeId id = .ok done ↔ isNodeId id = true := by
  simp [checkNodeId]

/-- The ends of a checked edge are ids of checked nodes. -/
theorem ends_of_check {kind : DiagramKind} {title : String} {nodes : List DiagramNode}
    {edges : List DiagramEdge}
    (checked : (InterventionBlock.diagram kind title nodes edges).check = .ok ())
    {edge : DiagramEdge} (member : edge ∈ edges) :
    edge.source ∈ nodes.map (·.id) ∧ edge.target ∈ nodes.map (·.id) := by
  simp only [InterventionBlock.check, bind_eq_ok, failIf_eq_ok] at checked
  obtain ⟨_, _, _, _, _, _, _, _, _, _, _, _, known⟩ := checked
  push Not at known
  exact known edge member

/-! ### What the application derives -/

/-- `{n.id: n.label for n in nodes}[id]`: a repeated id keeps its last label. -/
def labelOf? (nodes : List DiagramNode) (id : String) : Option String :=
  (nodes.reverse.find? fun node => node.id = id).map (·.label)

/-- One step of a rendered diagram.  The ends of a checked edge always have a
label (`exists_label_of_check`). -/
def stepText (nodes : List DiagramNode) (edge : DiagramEdge) : String :=
  (labelOf? nodes edge.source).getD "" ++ " → " ++ (labelOf? nodes edge.target).getD "" ++
    if edge.label = "" then "" else " (" ++ edge.label ++ ")"

/-- `chr(65 + index)`. -/
def optionLetter (index : Nat) : Char :=
  Char.ofNat (65 + index)

/-- The rendered line of an activity option. -/
def optionText (option : ActivityOption × Nat) : String :=
  String.singleton (optionLetter option.2) ++ ". " ++ option.1.text

/-- The rendered kind of a diagram. -/
def DiagramKind.caption : DiagramKind → String
  | .sequence => "Secuencia"
  | .relations => "Relaciones"

/-- The words that open a rendered activity. -/
def activityHeading : String := "Ahora te toca razonar: "

/-- The rendering of one block. -/
def InterventionBlock.part : InterventionBlock → String
  | .question text => text
  | .hint level text => "Pista " ++ toString level ++ ": " ++ text
  | .explanation title text => title ++ ". " ++ text
  | .diagram kind title nodes edges =>
      kind.caption ++ ": " ++ title ++ ". " ++
        "; ".intercalate (edges.map (stepText nodes)) ++ "."
  | .activity questionText options _ _ _ =>
      activityHeading ++ questionText ++ "\n" ++
        "\n".intercalate (options.zipIdx.map optionText)
  | .sources citationIndexes =>
      "Fuentes: " ++
        " ".intercalate (citationIndexes.map fun index => "[" ++ toString (index + 1) ++ "]") ++ "."

/-- `equivalent_text`: the plain-text rendering of the same content. -/
def equivalentText (intervention : InterventionFields) : String :=
  "\n\n".intercalate (intervention.blocks.map InterventionBlock.part)

/-- `allowed_actions`: the controls a turn exposes. -/
def allowedActions (intervention : InterventionFields) : List Action :=
  if intervention.situation = .insufficientEvidence ∨ intervention.situation = .ambiguous then []
  else
    (if intervention.situation ≠ .grounded then [.anotherHint] else []) ++ [.explain] ++
      if intervention.citations ≠ [] then [.viewSource] else []

/-- The mode of the first block that decides one. -/
def firstMode : List InterventionBlock → Mode
  | [] => .explanation
  | .hint _ _ :: _ => .hint
  | .question _ :: _ => .guidedQuestion
  | .activity _ _ _ _ _ :: _ => .guidedQuestion
  | _ :: blocks => firstMode blocks

/-- `mode_for`. -/
def modeFor (intervention : InterventionFields) : Mode :=
  match intervention.situation with
  | .insufficientEvidence => .abstain
  | .ambiguous => .clarify
  | _ => firstMode intervention.blocks

/-- `help_level`: the highest hint level delivered, zero when there is none. -/
def helpLevel (intervention : InterventionFields) : Int :=
  (intervention.blocks.filterMap fun block =>
    match block with
    | .hint level _ => some level
    | _ => none).max?.getD 0

end Docta.Contract
