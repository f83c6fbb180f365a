/-
Module: Docta.Contract.WebContract
Purpose: The web client's mirror of the tutor intervention contract: the
  hand-written parser with its error texts, the rendered text and the actions.
  Strings are JavaScript strings, so lengths count UTF-16 code units.
Trusted boundary: none
Main exports: Web.TutorIntervention, Web.parseIntervention,
  Web.TutorIntervention.toJson, Web.equivalentText, Web.allowedActions
-/
import Docta.Contract.TutorContract

namespace Docta.Contract.Web

open Fallible

/-- The message of a thrown `ContractError`. -/
abbrev ContractError := JString

structure DiagramNode where
  id : JString
  label : JString
deriving DecidableEq, Repr

structure DiagramEdge where
  source : JString
  target : JString
  label : JString
deriving DecidableEq, Repr

structure ActivityOption where
  id : JString
  text : JString
deriving DecidableEq, Repr

inductive Block where
  | question (text : JString)
  | hint (level : Int) (text : JString)
  | explanation (title text : JString)
  | diagram (kind : DiagramKind) (title : JString) (nodes : List DiagramNode)
      (edges : List DiagramEdge)
  | sources (citationIndexes : List Int)
  | activity (question : JString) (options : List ActivityOption)
      (correctOptionId hint explanation : JString)
deriving DecidableEq, Repr

structure InterventionCitation where
  chunkId : JString
  quote : JString
deriving DecidableEq, Repr

structure TutorIntervention where
  version : ContractVersion
  situation : Situation
  blocks : List Block
  citations : List InterventionCitation
  grounded : Bool
deriving DecidableEq, Repr

/-! ### Parsing -/

/-- `fail(message)` under a condition. -/
def failWhen (condition : Prop) [Decidable condition] (message : String) :
    Except ContractError Unit :=
  failIf condition (JString.ofString message)

/-- `obj(value, keys)`: an object with exactly these fields.  The source's list
of optional fields is never passed. -/
def obj (value : Json) (keys : List String) : Except ContractError Record :=
  match value with
  | .obj record =>
      match record.find? fun field => field.1 ∉ keys.map JString.ofString with
      | some field => .error (JString.ofString "unknown field " ++ field.1)
      | none =>
          match keys.find? fun key => JString.ofString key ∉ record.map Prod.fst with
          | some key => .error (JString.ofString ("missing field " ++ key))
          | none => .ok record
  | _ => .error "object expected"

/-- `str(value, min, max)`. -/
def str (value : Option Json) (min max : Nat) : Except ContractError JString :=
  match value with
  | some (.str text) =>
      if text.utf16Length < min ∨ max < text.utf16Length then .error "invalid string" else .ok text
  | _ => .error "invalid string"

/-- `list(value, min, max)`. -/
def list (value : Option Json) (min max : Nat) : Except ContractError (List Json) :=
  match value with
  | some (.arr items) =>
      if items.length < min ∨ max < items.length then .error "invalid list" else .ok items
  | _ => .error "invalid list"

/-- `NODE_ID.test(id)`. -/
def isNodeId : JString → Bool
  | .scalar first :: rest =>
      isLowerLetter first && decide (rest.length ≤ 23) &&
        rest.all fun char =>
          match char with
          | .scalar char => isIdChar char
          | .surrogate _ => false
  | _ => false

/-- The number of a JSON value that `Number.isInteger` accepts. -/
def integer? : Option Json → Option Int
  | some (.int value) => some value
  | some (.float value) => if value.den = 1 then some value.num else none
  | _ => none

def node (item : Json) : Except ContractError DiagramNode := do
  let record ← obj item ["id", "label"]
  let id ← str (record.get "id") 1 24
  failWhen (isNodeId id = false) "invalid node id"
  let label ← str (record.get "label") 1 80
  return { id, label }

def edge (ids : List JString) (item : Json) : Except ContractError DiagramEdge := do
  let record ← obj item ["source", "target", "label"]
  let source ← str (record.get "source") 1 24
  let target ← str (record.get "target") 1 24
  failWhen (source ∉ ids ∨ target ∉ ids) "unknown diagram node"
  let label ← str (record.get "label") 0 80
  return { source, target, label }

def option (item : Json) : Except ContractError ActivityOption := do
  let record ← obj item ["id", "text"]
  let id ← str (record.get "id") 1 24
  failWhen (isNodeId id = false) "invalid option id"
  let text ← str (record.get "text") 1 600
  return { id, text }

def hintLevel (value : Option Json) : Except ContractError Int :=
  match integer? value with
  | some level => if level < 1 ∨ 3 < level then .error "invalid hint level" else .ok level
  | none => .error "invalid hint level"

def citationIndex (item : Json) : Except ContractError Int :=
  match integer? (some item) with
  | some index => if index < 0 then .error "invalid citation index" else .ok index
  | none => .error "invalid citation index"

def diagramKind (value : Option Json) : Except ContractError DiagramKind :=
  match value with
  | some (.str text) =>
      if text = "sequence" then .ok .sequence
      else if text = "relations" then .ok .relations
      else .error "invalid diagram kind"
  | _ => .error "invalid diagram kind"

/-- `block(value)`: the switch over the block type. -/
def block (value : Json) : Except ContractError Block :=
  if typeTag value = some (JString.ofString "question") then do
    let record ← obj value ["type", "text"]
    let text ← str (record.get "text") 1 600
    return .question text
  else if typeTag value = some (JString.ofString "hint") then do
    let record ← obj value ["type", "level", "text"]
    let level ← hintLevel (record.get "level")
    let text ← str (record.get "text") 1 600
    return .hint level text
  else if typeTag value = some (JString.ofString "explanation") then do
    let record ← obj value ["type", "title", "text"]
    let title ← str (record.get "title") 1 120
    let text ← str (record.get "text") 1 1500
    return .explanation title text
  else if typeTag value = some (JString.ofString "diagram") then do
    let record ← obj value ["type", "kind", "title", "nodes", "edges"]
    let kind ← diagramKind (record.get "kind")
    let nodeItems ← list (record.get "nodes") 2 12
    let nodes ← nodeItems.mapM node
    let ids : List JString := nodes.map (·.id)
    failWhen (¬ ids.Nodup) "duplicate diagram node"
    let edgeItems ← list (record.get "edges") 1 20
    let edges ← edgeItems.mapM (edge ids)
    let title ← str (record.get "title") 1 120
    return .diagram kind title nodes edges
  else if typeTag value = some (JString.ofString "sources") then do
    let record ← obj value ["type", "citation_indexes"]
    let items ← list (record.get "citation_indexes") 1 5
    let indexes ← items.mapM citationIndex
    return .sources indexes
  else if typeTag value = some (JString.ofString "activity") then do
    let record ← obj value
      ["type", "question", "options", "correct_option_id", "hint", "explanation"]
    let items ← list (record.get "options") 2 4
    let options ← items.mapM option
    let ids : List JString := options.map (·.id)
    let texts : List JString := options.map (·.text)
    failWhen (¬ ids.Nodup ∨ ¬ texts.Nodup) "duplicate activity option"
    let correct ← str (record.get "correct_option_id") 1 24
    failWhen (correct ∉ ids) "unknown correct option"
    let question ← str (record.get "question") 1 600
    let hint ← str (record.get "hint") 1 600
    let explanation ← str (record.get "explanation") 1 1500
    return .activity question options correct hint explanation
  else .error "unknown block type"

def citation (item : Json) : Except ContractError InterventionCitation := do
  let record ← obj item ["chunk_id", "quote"]
  let id ← str (record.get "chunk_id") 36 36
  failWhen (UUID.matchesPattern id = false) "invalid chunk id"
  let quote ← str (record.get "quote") 10 1600
  return { chunkId := id, quote }

def version (value : Option Json) : Except ContractError ContractVersion :=
  match value with
  | some (.str text) =>
      if text = ContractVersion.text .v2 then .ok .v2
      else if text = ContractVersion.text .v1 then .ok .v1
      else .error "unsupported version"
  | _ => .error "unsupported version"

/-- `SITUATIONS.includes(value)`. -/
def situation (value : Option Json) : Except ContractError Situation :=
  match value with
  | some (.str text) =>
      match Situation.all.find? fun item => JString.ofString item.text = text with
      | some item => .ok item
      | none => .error "invalid situation"
  | _ => .error "invalid situation"

def grounded (value : Option Json) : Except ContractError Bool :=
  match value with
  | some (.bool value) => .ok value
  | _ => .error "grounded must be boolean"

def Block.isActivity : Block → Bool
  | .activity .. => true
  | _ => false

def Block.isPrimaryQuestion : Block → Bool
  | .question .. => true
  | .activity .. => true
  | _ => false

def Block.isQuestion : Block → Bool
  | .question .. => true
  | _ => false

def Block.isQuestionOrExplanation : Block → Bool
  | .question .. => true
  | .explanation .. => true
  | _ => false

/-- A sources block names an index past the last citation. -/
def Block.exceeds (citations : Nat) : Block → Bool
  | .sources citationIndexes => citationIndexes.any fun index => (citations : Int) ≤ index
  | _ => false

/-- The last checks of `parseIntervention`: what each situation says of evidence. -/
def evidenceRule (situation : Situation) (grounded : Bool) (blocks : List Block)
    (citations : List InterventionCitation) : Except ContractError Unit :=
  match situation with
  | .insufficientEvidence =>
      failWhen (grounded ∨ citations ≠ [] ∨
          blocks.any (fun block => !block.isQuestionOrExplanation))
        "abstention carries no evidence"
  | .ambiguous =>
      failWhen (grounded ∨ citations ≠ [] ∨ blocks.length ≠ 1 ∨
          blocks.any (fun block => !block.isQuestion))
        "clarification must be one uncited question"
  | _ => failWhen (¬ grounded ∨ citations = []) "factual guidance requires citations"

/-- `parseIntervention(value)`. -/
def parseIntervention (value : Json) : Except ContractError TutorIntervention := do
  let record ← obj value ["version", "situation", "blocks", "citations", "grounded"]
  let version ← version (record.get "version")
  let situation ← situation (record.get "situation")
  let grounded ← grounded (record.get "grounded")
  let blockItems ← list (record.get "blocks") 1 5
  let blocks ← blockItems.mapM block
  failWhen (version = .v1 ∧ blocks.any (·.isActivity)) "activity requires tutor-intervention-v2"
  let citationItems ← list (record.get "citations") 0 5
  let citations ← citationItems.mapM citation
  failWhen (1 < (blocks.filter (·.isPrimaryQuestion)).length) "one primary question per turn"
  failWhen (blocks.any (·.exceeds citations.length)) "sources reference a missing citation"
  evidenceRule situation grounded blocks citations
  return { version, situation, blocks, citations, grounded }

/-! ### The returned object -/

def DiagramNode.toJson (node : DiagramNode) : Json :=
  .record [("id", .str node.id), ("label", .str node.label)]

def DiagramEdge.toJson (edge : DiagramEdge) : Json :=
  .record [("source", .str edge.source), ("target", .str edge.target), ("label", .str edge.label)]

def ActivityOption.toJson (option : ActivityOption) : Json :=
  .record [("id", .str option.id), ("text", .str option.text)]

def InterventionCitation.toJson (citation : InterventionCitation) : Json :=
  .record [("chunk_id", .str citation.chunkId), ("quote", .str citation.quote)]

def Block.toJson : Block → Json
  | .question text => .record [("type", .text "question"), ("text", .str text)]
  | .hint level text =>
      .record [("type", .text "hint"), ("level", .int level), ("text", .str text)]
  | .explanation title text =>
      .record [("type", .text "explanation"), ("title", .str title), ("text", .str text)]
  | .diagram kind title nodes edges =>
      .record [("type", .text "diagram"), ("kind", .text kind.text), ("title", .str title),
        ("nodes", .arr (nodes.map DiagramNode.toJson)),
        ("edges", .arr (edges.map DiagramEdge.toJson))]
  | .sources citationIndexes =>
      .record [("type", .text "sources"), ("citation_indexes", .arr (citationIndexes.map .int))]
  | .activity questionText options correct hintText explanationText =>
      .record [("type", .text "activity"), ("question", .str questionText),
        ("options", .arr (options.map ActivityOption.toJson)),
        ("correct_option_id", .str correct), ("hint", .str hintText),
        ("explanation", .str explanationText)]

/-- The object `parseIntervention` returns, field by field in its order. -/
def TutorIntervention.toJson (intervention : TutorIntervention) : Json :=
  .record [("version", .text intervention.version.text),
    ("situation", .text intervention.situation.text),
    ("blocks", .arr (intervention.blocks.map Block.toJson)),
    ("citations", .arr (intervention.citations.map InterventionCitation.toJson)),
    ("grounded", .bool intervention.grounded)]

/-! ### Rendering -/

/-- `new Map(nodes.map((n) => [n.id, n.label])).get(id)`: the last label wins. -/
def labelOf? (nodes : List DiagramNode) (id : JString) : Option JString :=
  (nodes.reverse.find? fun node => node.id = id).map (·.label)

/-- One step of a rendered diagram; a missing label would print `undefined`. -/
def stepText (nodes : List DiagramNode) (edge : DiagramEdge) : JString :=
  (labelOf? nodes edge.source).getD "undefined" ++ " → " ++
      (labelOf? nodes edge.target).getD "undefined" ++
    if edge.label = [] then [] else JString.ofString " (" ++ edge.label ++ JString.ofString ")"

/-- The rendered line of an activity option. -/
def optionText (option : ActivityOption × Nat) : JString :=
  JString.ofString (String.singleton (Char.ofNat (65 + option.2))) ++ JString.ofString ". " ++
    option.1.text

/-- The words that open a rendered activity. -/
def activityHeading : String := "Ahora te toca razonar: "

/-- The rendered kind of a diagram. -/
def kindText (kind : DiagramKind) : JString :=
  JString.ofString (if kind = .sequence then "Secuencia" else "Relaciones")

def Block.part : Block → JString
  | .question text => text
  | .hint level text =>
      JString.ofString "Pista " ++ JString.ofString (toString level) ++ JString.ofString ": " ++ text
  | .explanation title text => title ++ JString.ofString ". " ++ text
  | .diagram kind title nodes edges =>
      kindText kind ++ JString.ofString ": " ++ title ++ JString.ofString ". " ++
        (JString.ofString "; ").intercalate (edges.map (stepText nodes)) ++ JString.ofString "."
  | .sources citationIndexes =>
      JString.ofString "Fuentes: " ++
        (JString.ofString " ").intercalate (citationIndexes.map fun index =>
          JString.ofString "[" ++ JString.ofString (toString (index + 1)) ++ JString.ofString "]") ++
        JString.ofString "."
  | .activity questionText options _ _ _ =>
      JString.ofString activityHeading ++ questionText ++ JString.ofString "\n" ++
        (JString.ofString "\n").intercalate (options.zipIdx.map optionText)

/-- `equivalentText(intervention)`. -/
def equivalentText (intervention : TutorIntervention) : JString :=
  (JString.ofString "\n\n").intercalate (intervention.blocks.map Block.part)

/-- `allowedActions(intervention)`. -/
def allowedActions (intervention : TutorIntervention) : List Action :=
  if intervention.situation = .insufficientEvidence ∨ intervention.situation = .ambiguous then []
  else
    (if intervention.situation ≠ .grounded then [.anotherHint] else []) ++ [.explain] ++
      if intervention.citations.length ≠ 0 then [.viewSource] else []

end Docta.Contract.Web
