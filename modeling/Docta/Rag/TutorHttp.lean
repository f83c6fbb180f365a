/-
Module: Docta.Rag.TutorHttp
Purpose: What the tutor model makes of an upstream response: the body up to its
  limit, the indexing of the decoded body, the cleaning of the content and its
  two fallbacks, and the exceptions each of them raises.
Trusted boundary: the HTTP client's errors, the decoding of bytes, the reading of
  decimal fractions and the validation library's own JSON reader are parameters
Main exports: PyValue, Host, Raised, ChatCompletionsTutorModel.generate,
  generate_classified_iff
-/
import Docta.Library.JsonText
import Docta.Library.Text
import Docta.Rag.Draft

namespace Docta

open Contract Fallible JsonText

/-! ### Decoded values -/

/-- A floating point number. -/
inductive PyFloat where
  | finite (value : Rat)
  | nan
  | infinity (negative : Bool)
deriving DecidableEq, Repr

/-- A number that `json.loads` returns. -/
inductive PyNumber where
  | int (value : Int)
  | float (value : PyFloat)
deriving DecidableEq, Repr

/-- A value that `json.loads` returns. -/
abbrev PyValue := Tree PyNumber

/-- A dictionary that `json.loads` returns. -/
abbrev PyDict := List (JString × PyValue)

/-- The exceptions that `generate` meets, by the class that an `except` names. -/
inductive Raised where
  | ragFailure (code : String)
  | httpError
  | valueError
  | keyError
  | indexError
  | typeError
  | attributeError
  | recursionError
deriving DecidableEq, Repr

/-- What the process provides. -/
structure Host where
  /-- the text that `json.loads` decodes bytes to, or nothing when it cannot -/
  decode : List UInt8 → Option JString
  /-- `float` of a numeral -/
  float : List Char → PyFloat
  /-- how deep `json.loads` nests before it runs out of recursion -/
  recursionLimit : Nat
  /-- the value that the validation library reads from a text, if it does -/
  fromJson : JString → Option Json
  /-- the library's lax reading of an integer -/
  intOfText : JString → Option Int
  unicode : Text.UnicodeData

/-- `int` of a numeral without fraction and exponent. -/
def intOfNumeral (numeral : List Char) : Int :=
  let digits : Nat := (unsigned numeral).foldl (fun value char => value * 10 + (char.toNat - 48)) 0
  if numeral.head? = some '-' then -digits else digits

/-- The numbers of `json.loads`; an integer of more than 4300 digits is refused. -/
def Host.python (host : Host) : Dialect PyNumber where
  number := fun numeral =>
    if numeral.any fun char => char == '.' || char == 'e' || char == 'E' then
      some (.float (host.float numeral))
    else if 4300 < (unsigned numeral).length then none
    else some (.int (intOfNumeral numeral))
  words :=
    [("NaN".toList, .float .nan), ("Infinity".toList, .float (.infinity false)),
      ("-Infinity".toList, .float (.infinity true))]

/-- `json.loads(text)` -/
def Host.loads (host : Host) (text : JString) : Except Raised PyValue :=
  match read host.python host.recursionLimit text with
  | .ok value => .ok value
  | .error .syntaxError => .error .valueError
  | .error .nesting => .error .recursionError

/-- `json.loads(body)` of bytes. -/
def Host.loadsBytes (host : Host) (body : List UInt8) : Except Raised PyValue :=
  match host.decode body with
  | some text => host.loads text
  | none => .error .valueError

namespace PyDict

/-- `fields.get(key)` -/
def get (fields : PyDict) (key : String) : Option PyValue :=
  (fields.find? fun field => field.1 = JString.ofString key).map (·.2)

/-- `fields[key] = value` -/
def set (fields : PyDict) (key : String) (value : PyValue) : PyDict :=
  assign fields (JString.ofString key, value)

/-- The dictionary without some keys. -/
def without (fields : PyDict) (keys : List String) : PyDict :=
  fields.filter fun field => field.1 ∉ keys.map JString.ofString

end PyDict

namespace PyValue

/-- A whole number. -/
def int (value : Int) : PyValue := .num (.int value)

/-- Unicode text. -/
def text (value : String) : PyValue := .str (JString.ofString value)

/-- `bool(value)` -/
def truthy : PyValue → Bool
  | .null => false
  | .bool value => value
  | .num (.int value) => value ≠ 0
  | .num (.float value) => value ≠ .finite 0
  | .str text => !text.isEmpty
  | .arr items => !items.isEmpty
  | .obj fields => !fields.isEmpty

/-- `value[key]` -/
def item (value : PyValue) (key : String) : Except Raised PyValue :=
  match value with
  | .obj fields =>
      match PyDict.get fields key with
      | some value => .ok value
      | none => .error .keyError
  | _ => .error .typeError

/-- `value[0]` -/
def first : PyValue → Except Raised PyValue
  | .arr (item :: _) => .ok item
  | .arr [] => .error .indexError
  | .str (char :: _) => .ok (.str [char])
  | .str [] => .error .indexError
  | .obj _ => .error .keyError
  | _ => .error .typeError

/-- `value.get(key)`: only dictionaries have the method. -/
def lookup (value : PyValue) (key : String) : Except Raised (Option PyValue) :=
  match value with
  | .obj fields => .ok (PyDict.get fields key)
  | _ => .error .attributeError

/-- `value == text` of a literal text. -/
def isText (value : PyValue) (expected : String) : Bool :=
  match value with
  | .str text => text = JString.ofString expected
  | _ => false

end PyValue

mutual

/-- A decoded value as the contract's validator sees it. The floats that are no
numbers are refused wherever a number may stand, as any fraction is. -/
def PyValue.toJson : PyValue → Json
  | .null => .null
  | .bool value => .bool value
  | .num (.int value) => .int value
  | .num (.float (.finite value)) => .float value
  | .num (.float _) => .float (1 / 2)
  | .str text => .str text
  | .arr items => .arr (PyValue.toJsonItems items)
  | .obj fields => .obj (PyValue.toJsonFields fields)

def PyValue.toJsonItems : List PyValue → List Json
  | [] => []
  | item :: rest => PyValue.toJson item :: PyValue.toJsonItems rest

def PyValue.toJsonFields : List (JString × PyValue) → List (JString × Json)
  | [] => []
  | field :: rest => PyValue.toJsonField field :: PyValue.toJsonFields rest

def PyValue.toJsonField : JString × PyValue → JString × Json
  | (name, value) => (name, PyValue.toJson value)

end

/-! ### The content -/

/-- `text.removesuffix(suffix)` -/
def removesuffix (text suffix : String) : String :=
  if suffix.toList <:+ text.toList then
    .ofList (text.toList.take (text.toList.length - suffix.toList.length))
  else text

/-- `block_type.removesuffix("Block").lower()`, of an ASCII class name. -/
def blockTag (blockType : String) : String :=
  .ofList ((removesuffix blockType "Block").toList.map Char.toLower)

/-- `GEMINI_BLOCK_FIELDS` -/
def geminiBlockFields : List (String × String) :=
  [("explanations", "ExplanationBlock"), ("hints", "HintBlock"), ("diagrams", "DiagramBlock"),
    ("questions", "QuestionBlock"), ("activities", "ActivityBlock"),
    ("source_blocks", "SourcesBlock")]

def googleCompatChatCompletions : String :=
  "https://generativelanguage.googleapis.com/v1beta/openai/chat/completions"

structure ChatCompletionsTutorModel where
  endpoint : String
  version : String
deriving DecidableEq, Repr

/-- `_is_gemini` -/
def ChatCompletionsTutorModel.isGemini (host : Host) (model : ChatCompletionsTutorModel) : Bool :=
  model.endpoint == googleCompatChatCompletions ||
    decide ("gemini".toList <:+: host.unicode.lower model.version.toList) ||
      decide ("gemini".toList <:+: host.unicode.lower model.endpoint.toList)

/-- A list of blocks without a type. -/
def isUntypedList : Option PyValue → Bool
  | some (.arr blocks) => blocks.all fun block =>
      match block with
      | .obj fields => (PyDict.get fields "type").isNone
      | _ => false
  | _ => false

/-- The content comes as the six typed lists. -/
def isTypedLists (data : PyDict) : Bool :=
  (PyDict.get data "blocks").isNone && (PyDict.get data "version").isNone &&
    geminiBlockFields.all fun field => isUntypedList (PyDict.get data field.1)

/-- `{"type": tag, **block}` -/
def typedBlock (tag : String) : PyValue → PyValue
  | .obj fields => .obj ((JString.ofString "type", PyValue.text tag) :: fields)
  | block => block

/-- The blocks of one list, with their type. -/
def typedBlocks (data : PyDict) (field : String × String) : List PyValue :=
  match PyDict.get data field.1 with
  | some (.arr blocks) => blocks.map (typedBlock (blockTag field.2))
  | _ => []

/-- The six lists joined into `blocks`, with the version. -/
def joinLists (data : PyDict) : PyDict :=
  PyDict.set
    (PyDict.set (PyDict.without data (geminiBlockFields.map (·.1))) "blocks"
      (.arr (geminiBlockFields.flatMap (typedBlocks data))))
    "version" (PyValue.text "tutor-intervention-v2")

/-- The content of a Gemini endpoint, its lists joined when it has them. -/
def fromGemini : PyValue → PyValue
  | .obj data => if isTypedLists data = true then .obj (joinLists data) else .obj data
  | data => data

/-- `allowed_fields` -/
def allowedFields : List (String × List String) :=
  [("question", ["type", "text"]), ("hint", ["type", "level", "text"]),
    ("explanation", ["type", "title", "text"]),
    ("diagram", ["type", "kind", "title", "nodes", "edges"]),
    ("activity", ["type", "question", "options", "correct_option_id", "hint", "explanation"]),
    ("sources", ["type", "citation_indexes"])]

/-- `defaults` -/
def blockDefaults : List (String × List (String × PyValue)) :=
  [("explanation", [("title", PyValue.text "Explicación")]),
    ("diagram", [("title", PyValue.text "Diagrama")]), ("hint", [("level", PyValue.int 1)])]

/-- The entry of a table under a decoded name. -/
def entryOf {α : Type} (table : List (String × α)) (name : JString) : Option α :=
  (table.find? fun entry => JString.ofString entry.1 = name).map (·.2)

/-- A missing or falsy field takes its default. -/
def withDefault (fields : PyDict) (default : String × PyValue) : PyDict :=
  match PyDict.get fields default.1 with
  | some value => if value.truthy = true then fields else PyDict.set fields default.1 default.2
  | none => PyDict.set fields default.1 default.2

/-- `isinstance(i, int) and 0 <= i < num_citations` -/
def isIndex (citations : Nat) : PyValue → Bool
  | .num (.int value) => decide (0 ≤ value ∧ value < citations)
  | .bool value => decide ((if value then 1 else 0) < citations)
  | _ => false

/-- The indexes a sources block keeps: without a valid one, every citation's. -/
def validIndexes (citations : Nat) (indexes : List PyValue) : List PyValue :=
  let valid := indexes.filter (isIndex citations)
  let valid := if valid.isEmpty = true ∧ 0 < citations
    then (List.range citations).map fun index => PyValue.int index
    else valid
  if valid.isEmpty = true then [PyValue.int 0] else valid

/-- The indexes of a block rewritten, if it is a sources block. -/
def withIndexes (citations : Nat) (tag : JString) (fields : PyDict) : PyDict :=
  if tag = JString.ofString "sources" then
    match PyDict.get fields "citation_indexes" with
    | some (.arr indexes) =>
        PyDict.set fields "citation_indexes" (.arr (validIndexes citations indexes))
    | _ => fields
  else fields

/-- The allowed fields of a block with their defaults and its indexes. -/
def cleanFields (citations : Nat) (tag : JString) (allowed : List String) (fields : PyDict) :
    PyDict :=
  let filtered := fields.filter fun field => field.1 ∈ allowed.map JString.ofString
  withIndexes citations tag (((entryOf blockDefaults tag).getD []).foldl withDefault filtered)

/-- One round of the cleaning loop: the cleaned block, if one is kept. A list or
an object cannot be looked up in a table. -/
def cleanBlock (citations : Nat) : PyValue → Except Raised (Option PyValue)
  | .obj fields =>
      match PyDict.get fields "type" with
      | some (.str tag) =>
          match entryOf allowedFields tag with
          | some allowed => .ok (some (.obj (cleanFields citations tag allowed fields)))
          | none => .ok none
      | some (.arr _) => .error .typeError
      | some (.obj _) => .error .typeError
      | _ => .ok none
  | _ => .ok none

/-- `num_citations` -/
def numCitations (data : PyDict) : Nat :=
  match PyDict.get data "citations" with
  | some (.arr citations) => citations.length
  | _ => 0

/-- The content with its blocks cleaned, when it has a list of them. -/
def cleanBlocks : PyValue → Except Raised PyValue
  | .obj data =>
      match PyDict.get data "blocks" with
      | some (.arr blocks) => do
          let cleaned ← blocks.mapM (cleanBlock (numCitations data))
          return .obj (PyDict.set data "blocks" (.arr (cleaned.filterMap id)))
      | _ => .ok (.obj data)
  | data => .ok data

/-- A validation error is a `ValueError`. -/
def raising {α : Type} : Except ValidationError α → Except Raised α
  | .ok value => .ok value
  | .error _ => .error .valueError

section Decoding

variable (host : Host) (gemini : Bool)

/-- `json.loads(content_str)`: only text can be decoded. -/
def loadsContent : PyValue → Except Raised PyValue
  | .str text => host.loads text
  | _ => .error .typeError

/-- The value that the library reads from the content itself. -/
def contentJson : PyValue → Except ValidationError Json
  | .str text =>
      match host.fromJson text with
      | some value => .ok value
      | none => .error "json_invalid"
  | _ => .error "json_type"

/-- The first attempt: decode, join, clean, validate. -/
def decodeCleaned (content : PyValue) : Except Raised TutorDraft := do
  let data ← loadsContent host content
  let cleaned ← cleanBlocks (if gemini = true then fromGemini data else data)
  let intervention ← raising (modelValidate host.intOfText cleaned.toJson)
  raising (draftFromIntervention intervention.toInterventionFields)

/-- The second attempt: `TutorIntervention.model_validate_json(content_str)`. -/
def decodeIntact (content : PyValue) : Except Raised TutorDraft := do
  let value ← raising (contentJson host content)
  let intervention ← raising (modelValidate host.intOfText value)
  raising (draftFromIntervention intervention.toInterventionFields)

/-- The last attempt: `TutorDraft.model_validate_json(content_str)`. -/
def decodeDraft (content : PyValue) : Except Raised TutorDraft := do
  let value ← raising (contentJson host content)
  raising (TutorDraft.modelValidate host.intOfText value)

/-- The draft of a content: every exception of the first two attempts is caught. -/
def draftOf (content : PyValue) : Except Raised TutorDraft :=
  match decodeCleaned host gemini content with
  | .ok draft => .ok draft
  | .error _ =>
      match decodeIntact host content with
      | .ok draft => .ok draft
      | .error _ => decodeDraft host content

end Decoding

/-! ### The response -/

/-- What comes back: no response, or a status and the parts of the body until the
stream ends or breaks. -/
inductive Upstream where
  | unreachable
  | response (status : Nat) (parts : List (List UInt8)) (broken : Bool)
deriving DecidableEq, Repr

/-- The body is received part by part until it is too long. -/
def receiveParts (broken : Bool) : List UInt8 → List (List UInt8) → Except Raised (List UInt8)
  | body, [] => if broken = true then .error .httpError else .ok body
  | body, data :: rest =>
      if 128000 < (body ++ data).length then .error (.ragFailure "MODEL_OUTPUT_INVALID")
      else receiveParts broken (body ++ data) rest

/-- `raise_for_status`, and the body. -/
def Upstream.body : Upstream → Except Raised (List UInt8)
  | .unreachable => .error .httpError
  | .response status parts broken =>
      if 200 ≤ status ∧ status < 300 then receiveParts broken [] parts else .error .httpError

/-- The content of the first choice: one that stopped, and was not refused. -/
def choiceContent (decoded : PyValue) : Except Raised PyValue := do
  let choices ← decoded.item "choices"
  let choice ← choices.first
  let reason ← choice.item "finish_reason"
  -- the second operand is not evaluated when the first holds
  failIf (reason.isText "stop" = false) (.ragFailure "MODEL_OUTPUT_INVALID")
  let message ← choice.item "message"
  let refusal ← message.lookup "refusal"
  failIf ((refusal.getD .null).truthy = true) (.ragFailure "MODEL_OUTPUT_INVALID")
  message.item "content"

/-- The `except` clauses of `generate`. -/
def Raised.handled : Raised → Raised
  | .httpError => .ragFailure "MODEL_UNAVAILABLE"
  | .valueError => .ragFailure "MODEL_OUTPUT_INVALID"
  | .keyError => .ragFailure "MODEL_OUTPUT_INVALID"
  | .indexError => .ragFailure "MODEL_OUTPUT_INVALID"
  | .typeError => .ragFailure "MODEL_OUTPUT_INVALID"
  | raised => raised

/-- What `generate` does once the request is sent. -/
def ChatCompletionsTutorModel.respond (host : Host) (model : ChatCompletionsTutorModel)
    (upstream : Upstream) : Except Raised TutorDraft := do
  let body ← upstream.body
  let decoded ← host.loadsBytes body
  let content ← choiceContent decoded
  draftOf host (model.isGemini host) content

/-- `generate(request)`, whatever the request, as far as the response decides it. -/
def ChatCompletionsTutorModel.generate (host : Host) (model : ChatCompletionsTutorModel)
    (upstream : Upstream) : Except Raised TutorDraft :=
  match model.respond host upstream with
  | .ok draft => .ok draft
  | .error raised => .error raised.handled

/-- `SAFE_FAILURES` -/
def safeFailures : List String :=
  ["COURSE_CORPUS_NOT_READY", "MODEL_NOT_CONFIGURED", "MODEL_UNAVAILABLE", "MODEL_OUTPUT_INVALID",
    "RETRIEVAL_SCOPE_INVALID", "RETRIEVAL_UNAVAILABLE", "RETRIEVAL_INDEX_MISSING",
    "PROCESSING_INTERRUPTED", "PERSISTENCE_UNAVAILABLE"]

/-- The code that `_run` fails the message with. -/
def Raised.failureCode : Raised → String
  | .ragFailure code => if code ∈ safeFailures then code else "INTERNAL_ERROR"
  | _ => "INTERNAL_ERROR"

/-! ### What escapes -/

/-- The code is one the provider's errors are classified as. -/
def Classified (result : Except Raised TutorDraft) : Prop :=
  (∃ draft, result = .ok draft) ∨ result = .error (.ragFailure "MODEL_OUTPUT_INVALID") ∨
    result = .error (.ragFailure "MODEL_UNAVAILABLE")

/-- The body nests deeper than `json.loads` can follow. -/
def Host.TooDeep (host : Host) (body : List UInt8) : Prop :=
  ∃ text, host.decode body = some text ∧
    read host.python host.recursionLimit text = .error .nesting

/-- The first choice stopped with a message that is no object. -/
def StopsWithoutMessage (decoded : PyValue) : Prop :=
  ∃ choices choice reason message, decoded.item "choices" = .ok choices ∧
    choices.first = .ok choice ∧ choice.item "finish_reason" = .ok reason ∧
      reason.isText "stop" = true ∧ choice.item "message" = .ok message ∧
        ∀ fields, message ≠ .obj fields

/-- A response whose body, once received, can be decoded and looked into. -/
def Upstream.Readable (host : Host) (upstream : Upstream) : Prop :=
  ∀ body, upstream.body = .ok body → ¬ host.TooDeep body ∧
    ∀ decoded, host.loadsBytes body = .ok decoded → ¬ StopsWithoutMessage decoded

/-- An exception that the `except` clauses classify. -/
def Raised.Expected : Raised → Prop
  | .ragFailure code => code = "MODEL_OUTPUT_INVALID"
  | .attributeError => False
  | .recursionError => False
  | _ => True

/-- The classification of what an attempt raises. -/
theorem classified_handled_iff {raised : Raised}
    (known : raised.Expected ∨ raised = .attributeError ∨ raised = .recursionError) :
    Classified (.error raised.handled) ↔ raised.Expected := by
  constructor
  · intro classified
    rcases known with expected | rfl | rfl
    · exact expected
    · rcases classified with ⟨_, isOk⟩ | invalid | unavailable
      · cases isOk
      · cases invalid
      · cases unavailable
    · rcases classified with ⟨_, isOk⟩ | invalid | unavailable
      · cases isOk
      · cases invalid
      · cases unavailable
  · intro expected
    cases raised with
    | ragFailure code =>
        cases expected
        exact .inr (.inl rfl)
    | httpError => exact .inr (.inr rfl)
    | attributeError => exact expected.elim
    | recursionError => exact expected.elim
    | _ => exact .inr (.inl rfl)

/-- What `_run` makes of a classified exception, and of any other. -/
theorem failureCode_handled_iff {raised : Raised}
    (known : raised.Expected ∨ raised = .attributeError ∨ raised = .recursionError) :
    raised.handled.failureCode ≠ "INTERNAL_ERROR" ↔ raised.Expected := by
  constructor
  · intro classified
    rcases known with expected | rfl | rfl
    · exact expected
    · exact absurd rfl classified
    · exact absurd rfl classified
  · intro expected
    cases raised with
    | ragFailure code =>
        cases expected
        decide
    | attributeError => exact expected.elim
    | recursionError => exact expected.elim
    | _ => decide

theorem expected_of_receiveParts {broken : Bool} {body : List UInt8} {parts : List (List UInt8)}
    {raised : Raised} (failed : receiveParts broken body parts = .error raised) :
    raised.Expected := by
  induction parts generalizing body with
  | nil =>
      rw [receiveParts] at failed
      split at failed
      · cases failed
        trivial
      · cases failed
  | cons data parts ih =>
      rw [receiveParts] at failed
      split at failed
      · cases failed
        rfl
      · exact ih failed

theorem expected_of_body {upstream : Upstream} {raised : Raised}
    (failed : upstream.body = .error raised) : raised.Expected := by
  cases upstream with
  | unreachable =>
      cases failed
      trivial
  | response status parts broken =>
      rw [Upstream.body] at failed
      split at failed
      · exact expected_of_receiveParts failed
      · cases failed
        trivial

/-- A body that cannot be decoded is a `ValueError`, unless it nests too deep. -/
theorem loadsBytes_eq_error {host : Host} {body : List UInt8} {raised : Raised}
    (failed : host.loadsBytes body = .error raised) :
    (raised = .valueError ∧ ¬ host.TooDeep body) ∨
      (raised = .recursionError ∧ host.TooDeep body) := by
  unfold Host.loadsBytes Host.loads at failed
  unfold Host.TooDeep
  cases decoded : host.decode body with
  | none =>
      rw [decoded] at failed
      cases failed
      exact .inl ⟨rfl, by rintro ⟨_, same, _⟩; cases same⟩
  | some text =>
      rw [decoded] at failed
      cases result : read host.python host.recursionLimit text with
      | ok value =>
          simp only [result] at failed
          cases failed
      | error refusal =>
          cases refusal with
          | syntaxError =>
              simp only [result] at failed
              cases failed
              refine .inl ⟨rfl, ?_⟩
              rintro ⟨other, same, deep⟩
              cases same
              rw [result] at deep
              cases deep
          | nesting =>
              simp only [result] at failed
              cases failed
              exact .inr ⟨rfl, text, rfl, result⟩

theorem not_tooDeep_of_loadsBytes {host : Host} {body : List UInt8} {decoded : PyValue}
    (loaded : host.loadsBytes body = .ok decoded) : ¬ host.TooDeep body := by
  intro deep
  obtain ⟨text, decodes, nesting⟩ := deep
  simp only [Host.loadsBytes, Host.loads, decodes, nesting] at loaded
  cases loaded

theorem expected_of_item {value : PyValue} {key : String} {raised : Raised}
    (failed : value.item key = .error raised) : raised.Expected := by
  unfold PyValue.item at failed
  split at failed
  · split at failed
    · cases failed
    · cases failed
      trivial
  · cases failed
    trivial

theorem expected_of_first {value : PyValue} {raised : Raised}
    (failed : value.first = .error raised) : raised.Expected := by
  unfold PyValue.first at failed
  split at failed
  all_goals
    cases failed
    try trivial

theorem lookup_eq_error {value : PyValue} {key : String} {raised : Raised} :
    value.lookup key = .error raised ↔
      raised = .attributeError ∧ ∀ fields, value ≠ .obj fields := by
  unfold PyValue.lookup
  split
  · rename_i fields
    simp
  · rename_i notObject
    constructor
    · intro failed
      cases failed
      exact ⟨rfl, notObject⟩
    · intro both
      rw [both.1]

/-- Looking for the content fails as classified, unless the message is no object. -/
theorem choiceContent_eq_error {decoded : PyValue} {raised : Raised}
    (failed : choiceContent decoded = .error raised) :
    (raised.Expected ∧ ¬ StopsWithoutMessage decoded) ∨
      (raised = .attributeError ∧ StopsWithoutMessage decoded) := by
  simp only [choiceContent, bind_eq_error, failIf_eq_error, failIf_eq_ok] at failed
  unfold StopsWithoutMessage
  -- what fails before the message is reached leaves no message
  rcases failed with noChoices | ⟨choices, choicesOk, noChoice | ⟨choice, choiceOk, noReason |
    ⟨reason, reasonOk, ⟨running, rfl⟩ | ⟨_, stopped, noMessage | ⟨message, messageOk, noObject |
      ⟨refusal, refusalOk, refused⟩⟩⟩⟩⟩⟩
  · refine .inl ⟨expected_of_item noChoices, ?_⟩
    rintro ⟨_, _, _, _, found, _⟩
    rw [noChoices] at found
    cases found
  · refine .inl ⟨expected_of_first noChoice, ?_⟩
    rintro ⟨_, _, _, _, found, foundFirst, _⟩
    cases choicesOk.symm.trans found
    rw [noChoice] at foundFirst
    cases foundFirst
  · refine .inl ⟨expected_of_item noReason, ?_⟩
    rintro ⟨_, _, _, _, found, foundFirst, foundReason, _⟩
    cases choicesOk.symm.trans found
    cases choiceOk.symm.trans foundFirst
    rw [noReason] at foundReason
    cases foundReason
  · refine .inl ⟨rfl, ?_⟩
    rintro ⟨_, _, _, _, found, foundFirst, foundReason, stop, _⟩
    cases choicesOk.symm.trans found
    cases choiceOk.symm.trans foundFirst
    cases reasonOk.symm.trans foundReason
    rw [running] at stop
    cases stop
  · refine .inl ⟨expected_of_item noMessage, ?_⟩
    rintro ⟨_, _, _, _, found, foundFirst, _, _, foundMessage, _⟩
    cases choicesOk.symm.trans found
    cases choiceOk.symm.trans foundFirst
    rw [noMessage] at foundMessage
    cases foundMessage
  · obtain ⟨rfl, notObject⟩ := lookup_eq_error.mp noObject
    exact .inr ⟨rfl, choices, choice, reason, message, choicesOk, choiceOk, reasonOk,
      by simpa using stopped, messageOk, notObject⟩
  · -- the message has a `get`, so it is an object
    have isObject : ∃ fields, message = .obj fields := by
      by_contra never
      push Not at never
      rw [lookup_eq_error.mpr ⟨rfl, never⟩] at refusalOk
      cases refusalOk
    have expected : raised.Expected := by
      rcases refused with ⟨_, rfl⟩ | ⟨_, _, noContent⟩
      · rfl
      · exact expected_of_item noContent
    refine .inl ⟨expected, ?_⟩
    rintro ⟨_, _, _, _, found, foundFirst, _, _, foundMessage, notObject⟩
    cases choicesOk.symm.trans found
    cases choiceOk.symm.trans foundFirst
    cases messageOk.symm.trans foundMessage
    obtain ⟨fields, isFields⟩ := isObject
    exact notObject fields isFields

/-- A content that is found is in a message. -/
theorem not_stopsWithoutMessage_of_content {decoded content : PyValue}
    (found : choiceContent decoded = .ok content) : ¬ StopsWithoutMessage decoded := by
  rintro ⟨choices, choice, reason, message, choicesOk, choiceOk, reasonOk, stop, messageOk,
    notObject⟩
  simp only [choiceContent, choicesOk, choiceOk, reasonOk, messageOk, ok_bind, bind_eq_ok] at found
  obtain ⟨_, _, refusal, refusalOk, _⟩ := found
  rw [lookup_eq_error.mpr ⟨rfl, notObject⟩] at refusalOk
  cases refusalOk

theorem raising_eq_error {α : Type} {result : Except ValidationError α} {raised : Raised}
    (failed : raising result = .error raised) : raised = .valueError := by
  cases result with
  | ok value => cases failed
  | error error =>
      cases failed
      rfl

/-- Whatever the content, its last attempt ends in a draft or in a `ValueError`. -/
theorem expected_of_draftOf {host : Host} {gemini : Bool} {content : PyValue} {raised : Raised}
    (failed : draftOf host gemini content = .error raised) : raised.Expected := by
  have last (failed : decodeDraft host content = .error raised) : raised.Expected := by
    rw [decodeDraft, bind_eq_error] at failed
    rcases failed with unread | ⟨value, _, invalid⟩
    · rw [raising_eq_error unread]
      trivial
    · rw [raising_eq_error invalid]
      trivial
  unfold draftOf at failed
  split at failed
  · cases failed
  · split at failed
    · cases failed
    · exact last failed

/-- An exception escapes the response exactly when it cannot be read. -/
theorem respond_eq_error {host : Host} {model : ChatCompletionsTutorModel} {upstream : Upstream}
    {raised : Raised} (failed : model.respond host upstream = .error raised) :
    (raised.Expected ∧ upstream.Readable host) ∨
      ((raised = .attributeError ∨ raised = .recursionError) ∧ ¬ upstream.Readable host) := by
  rw [ChatCompletionsTutorModel.respond, bind_eq_error] at failed
  rcases failed with noBody | ⟨body, received, later⟩
  · refine .inl ⟨expected_of_body noBody, ?_⟩
    intro body received
    rw [noBody] at received
    cases received
  · rw [bind_eq_error] at later
    rcases later with unread | ⟨decoded, loaded, later⟩
    · rcases loadsBytes_eq_error unread with ⟨rfl, shallow⟩ | ⟨rfl, deep⟩
      · refine .inl ⟨trivial, ?_⟩
        intro other same
        cases received.symm.trans same
        refine ⟨shallow, ?_⟩
        intro decoded loaded
        rw [unread] at loaded
        cases loaded
      · exact .inr ⟨.inr rfl, fun readable => (readable body received).1 deep⟩
    · have shallow := not_tooDeep_of_loadsBytes loaded
      have readable (inside : ¬ StopsWithoutMessage decoded) : upstream.Readable host := by
        intro other same
        cases received.symm.trans same
        refine ⟨shallow, ?_⟩
        intro value sameValue
        cases loaded.symm.trans sameValue
        exact inside
      rw [bind_eq_error] at later
      rcases later with noContent | ⟨content, found, noDraft⟩
      · rcases choiceContent_eq_error noContent with ⟨expected, inside⟩ | ⟨rfl, outside⟩
        · exact .inl ⟨expected, readable inside⟩
        · exact .inr ⟨.inl rfl, fun readable => (readable body received).2 decoded loaded outside⟩
      · exact .inl ⟨expected_of_draftOf noDraft,
          readable (not_stopsWithoutMessage_of_content found)⟩

theorem readable_of_respond {host : Host} {model : ChatCompletionsTutorModel} {upstream : Upstream}
    {draft : TutorDraft} (responded : model.respond host upstream = .ok draft) :
    upstream.Readable host := by
  simp only [ChatCompletionsTutorModel.respond, bind_eq_ok] at responded
  obtain ⟨body, received, decoded, loaded, content, found, _⟩ := responded
  intro other same
  cases received.symm.trans same
  refine ⟨not_tooDeep_of_loadsBytes loaded, ?_⟩
  intro value sameValue
  cases loaded.symm.trans sameValue
  exact not_stopsWithoutMessage_of_content found

/-- A response ends in a draft or in one of the two codes exactly when its body
can be decoded and looked into; and exactly then `_run` never fails the message
as an internal error for it. -/
theorem generate_classified_iff (host : Host) (model : ChatCompletionsTutorModel)
    (upstream : Upstream) :
    (Classified (model.generate host upstream) ↔ upstream.Readable host) ∧
      ((∀ raised, model.generate host upstream = .error raised →
        raised.failureCode ≠ "INTERNAL_ERROR") ↔ upstream.Readable host) := by
  unfold ChatCompletionsTutorModel.generate
  cases responded : model.respond host upstream with
  | ok draft =>
      have readable := readable_of_respond responded
      refine ⟨⟨fun _ => readable, fun _ => .inl ⟨draft, rfl⟩⟩, fun _ => readable, fun _ => ?_⟩
      intro raised failed
      cases failed
  | error raised =>
      have failed := respond_eq_error responded
      have known : raised.Expected ∨ raised = .attributeError ∨ raised = .recursionError :=
        failed.imp (·.1) (·.1)
      have expectedIff : raised.Expected ↔ upstream.Readable host := by
        rcases failed with both | ⟨rfl | rfl, unreadable⟩
        · exact ⟨fun _ => both.2, fun _ => both.1⟩
        · exact ⟨False.elim, fun readable => unreadable readable⟩
        · exact ⟨False.elim, fun readable => unreadable readable⟩
      simp only [Except.error.injEq, forall_eq']
      exact ⟨(classified_handled_iff known).trans expectedIff,
        (failureCode_handled_iff known).trans expectedIff⟩

section Sample

/-- A process that sees ASCII only; decimal fractions and the library's own
reader play no part in what it is asked. -/
def asciiHost : Host where
  decode := fun body =>
    if body.all (· < 128) then some (body.map fun byte => .scalar (.ofNat byte.toNat)) else none
  float := fun _ => .nan
  recursionLimit := 1000
  fromJson := fun _ => none
  intOfText := fun _ => none
  unicode :=
    { lower := List.map Char.toLower
      isWord := fun char => char.isAlphanum || char == '_'
      isPrintable := fun char => decide (' ' ≤ char)
      sameIgnoringCase := fun first second => first.toLower == second.toLower }

/-- The bytes of an ASCII text. -/
def asciiBytes (text : String) : List UInt8 :=
  text.toList.map fun char => .ofNat char.toNat

/-- A finished choice without a message. -/
def nullMessage : Upstream :=
  .response 200 [asciiBytes "\x7b\"choices\":[\x7b\"finish_reason\":\"stop\",\"message\":null\x7d]\x7d"] false

/-- The exception of a result, if it is one. -/
def raisedOf {α : Type} (result : Except Raised α) : Option Raised :=
  match result with
  | .ok _ => none
  | .error raised => some raised

theorem raisedOf_eq_some {α : Type} {result : Except Raised α} {raised : Raised} :
    raisedOf result = some raised ↔ result = .error raised := by
  cases result with
  | ok value => simp [raisedOf]
  | error other => simp [raisedOf]

theorem generate_nullMessage (model : ChatCompletionsTutorModel) :
    model.generate asciiHost nullMessage = .error .attributeError := by
  have received : raisedOf (nullMessage.body >>= fun body =>
      asciiHost.loadsBytes body >>= choiceContent) = some .attributeError := by
    decide +kernel
  have responded : model.respond asciiHost nullMessage = .error .attributeError := by
    rw [raisedOf_eq_some] at received
    rw [ChatCompletionsTutorModel.respond]
    calc _ = (nullMessage.body >>= fun body => asciiHost.loadsBytes body >>= choiceContent) >>=
          draftOf asciiHost (model.isGemini asciiHost) := by simp only [bind_assoc]
      _ = .error .attributeError := by rw [received]; rfl
  rw [ChatCompletionsTutorModel.generate, responded]
  rfl

/-- Not every response is classified: the message is failed as an internal error. -/
theorem not_every_response_classified :
    (∀ model : ChatCompletionsTutorModel,
      ∃ raised, model.generate asciiHost nullMessage = .error raised ∧
        raised.failureCode = "INTERNAL_ERROR") ∧
      ¬ ∀ (host : Host) (model : ChatCompletionsTutorModel) (upstream : Upstream),
        Classified (model.generate host upstream) := by
  refine ⟨fun model => ⟨_, generate_nullMessage model, rfl⟩, ?_⟩
  intro classified
  rcases classified asciiHost ⟨"endpoint", "model"⟩ nullMessage with ⟨draft, isOk⟩ | invalid |
    unavailable
  · rw [generate_nullMessage] at isOk
    cases isOk
  · rw [generate_nullMessage] at invalid
    cases invalid
  · rw [generate_nullMessage] at unavailable
    cases unavailable

end Sample

end Docta
