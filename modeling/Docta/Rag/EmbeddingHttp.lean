/-
Module: Docta.Rag.EmbeddingHttp
Purpose: The embedder behind an HTTP endpoint: its requests batch by batch, the
  ordering of the items of a response by their indexes, and the checks of the
  vectors, with the exceptions each of them raises.
Trusted boundary: the HTTP client's errors and the decoding of bytes are parameters
Main exports: HttpEmbedder, HttpEmbedder.embedDocuments, HttpEmbedder.parse,
  embeddingItems, parse_classified_iff
-/
import Docta.Ingestion.Worker
import Docta.Library.Batching
import Docta.Rag.EmbeddingVersion
import Docta.Rag.TutorHttp

namespace Docta

open Contract Fallible JsonText

/-! ### Comparing decoded values -/

namespace PyFloat

/-- `first < second` -/
def less : PyFloat → PyFloat → Bool
  | .finite first, .finite second => first < second
  | .infinity true, .finite _ => true
  | .infinity true, .infinity false => true
  | .finite _, .infinity false => true
  | _, _ => false

/-- Whether lists take two numbers for the same item: they are equal, or they are the
one object that `NaN` is decoded to. -/
def equals : PyFloat → PyFloat → Bool
  | .finite first, .finite second => first = second
  | .infinity first, .infinity second => first = second
  | .nan, .nan => true
  | _, _ => false

end PyFloat

namespace PyValue

/-- The number that a value counts as. -/
def number? : PyValue → Option PyFloat
  | .bool value => some (.finite (if value then 1 else 0))
  | .num (.int value) => some (.finite value)
  | .num (.float value) => some value
  | _ => none

/-- Values that are no texts, lists or dictionaries are equal as numbers. -/
def equalsNumbers : Option PyFloat → Option PyFloat → Bool
  | some first, some second => first.equals second
  | _, _ => false

/-- Values that are no texts and no lists compare as numbers, or not at all. -/
def lessNumbers : Option PyFloat → Option PyFloat → Except Raised Bool
  | some first, some second => .ok (first.less second)
  | _, _ => .error .typeError

mutual

/-- Whether lists take two values for the same item. -/
def equals : PyValue → PyValue → Bool
  | .null, .null => true
  | .str first, .str second => first = second
  | .arr first, .arr second => equalsItems first second
  | .obj first, .obj second => first.length = second.length && equalsFields first second
  | first, second => equalsNumbers (number? first) (number? second)

def equalsItems : List PyValue → List PyValue → Bool
  | [], [] => true
  | first :: rest, second :: rest' => equals first second && equalsItems rest rest'
  | _, _ => false

def equalsFields : PyDict → PyDict → Bool
  | [], _ => true
  | field :: rest, second => equalsField field second && equalsFields rest second

def equalsField : JString × PyValue → PyDict → Bool
  | (name, value), second =>
      match second.find? fun field => field.1 = name with
      | some other => equals value other.2
      | none => false

end

mutual

/-- `first < second`: numbers, texts and lists compare with their like. -/
def less : PyValue → PyValue → Except Raised Bool
  | .str first, .str second => .ok (decide (first.map JChar.codePoint < second.map JChar.codePoint))
  | .arr first, .arr second => lessItems first second
  | first, second => lessNumbers (number? first) (number? second)

/-- Lists compare at their first different items. -/
def lessItems : List PyValue → List PyValue → Except Raised Bool
  | [], second => .ok (! second.isEmpty)
  | _ :: _, [] => .ok false
  | first :: rest, second :: rest' =>
      if equals first second then lessItems rest rest' else less first second

end

end PyValue

/-! ### The order of the items -/

/-- An item goes before the first one that is not less than it. -/
def insertByKey {α : Type} (entry : PyValue × α) :
    List (PyValue × α) → Except Raised (List (PyValue × α))
  | [] => .ok [entry]
  | other :: rest => do
      let isLess ← PyValue.less other.1 entry.1
      if isLess then do
        let inserted ← insertByKey entry rest
        return other :: inserted
      else return entry :: other :: rest

/-- `sorted(items, key=...)`, with the keys beside the items: a stable order that
compares with `<` alone. -/
def sortedByKey {α : Type} : List (PyValue × α) → Except Raised (List (PyValue × α))
  | [] => .ok []
  | entry :: rest => do
      let ordered ← sortedByKey rest
      insertByKey entry ordered

/-- `item.get("index", default)` -/
def indexOr (default : Nat) (item : PyValue) : Except Raised PyValue := do
  let index ← item.lookup "index"
  return index.getD (PyValue.int default)

/-- `[item.get("index", position) for position, item in enumerate(ordered)]` -/
def indexes : Nat → List PyValue → Except Raised (List PyValue)
  | _, [] => .ok []
  | position, item :: rest => do
      let index ← indexOr position item
      let others ← indexes (position + 1) rest
      return index :: others

/-- `list(range(len(ordered)))` -/
def positions (count : Nat) : List PyValue :=
  (List.range count).map fun position : Nat => PyValue.int position

/-- `isinstance(data, list)` -/
def asItems : PyValue → Except Raised (List PyValue)
  | .arr items => .ok items
  | _ => .error .typeError

/-- The values of `["embedding"]`, in the order of the indexes: the `try` block of
`_parse`. -/
def embeddingItems (host : Host) (body : List UInt8) : Except Raised (List PyValue) := do
  let document ← host.loadsBytes body
  let data ← document.item "data"
  let items ← asItems data
  let keyed ← items.mapM fun item => do
    let key ← indexOr 0 item
    return (key, item)
  let ordered ← sortedByKey keyed
  let found ← indexes 0 (ordered.map (·.2))
  failIf (PyValue.equalsItems found (positions ordered.length) = false) .valueError
  (ordered.map (·.2)).mapM fun item => item.item "embedding"

/-! ### The vectors -/

/-- The exceptions of an embedder. -/
inductive EmbeddingRaised where
  /-- `EmbeddingInvalid` -/
  | invalid (message : String)
  /-- `EmbeddingUnavailable` -/
  | unavailable (message : String)
  | raised (exception : Raised)
  | overflowError
deriving DecidableEq, Repr

/-- The whole numbers that convert to a double: those that do not round up to
2^1024. -/
def InDoubleRange (value : Int) : Prop :=
  value.natAbs < 2 ^ 1024 - 2 ^ 970

instance (value : Int) : Decidable (InDoubleRange value) :=
  inferInstanceAs (Decidable (value.natAbs < 2 ^ 1024 - 2 ^ 970))

/-- `isinstance(value, (int, float)) and not isinstance(value, bool) and
math.isfinite(value)` -/
def isFiniteNumber : PyValue → Except EmbeddingRaised Bool
  | .num (.int value) => if InDoubleRange value then .ok true else .error .overflowError
  | .num (.float (.finite _)) => .ok true
  | _ => .ok false

/-- `all(...)` stops at the first value that fails. -/
def allFinite : List PyValue → Except EmbeddingRaised Bool
  | [] => .ok true
  | value :: rest => do
      let isFinite ← isFiniteNumber value
      if isFinite then allFinite rest else return false

/-- `float(value)`: the nearest double. -/
def toFloat : PyValue → Rat
  | .num (.int value) => BinaryFormat.binary64.rounded value
  | .num (.float (.finite value)) => value
  | _ => 0

/-- The checks of one vector. -/
def checkVector (dimensions : Nat) (vector : PyValue) : Except EmbeddingRaised Unit :=
  match vector with
  | .arr values => do
      failIf (values.length ≠ dimensions)
        (.invalid "Embedding response has the wrong dimensions")
      let finite ← allFinite values
      failIf (finite = false) (.invalid "Embedding response contains non-finite values")
  | _ => .error (.invalid "Embedding response has the wrong dimensions")

/-- The floats of a vector. -/
def floats : PyValue → List Rat
  | .arr values => values.map toFloat
  | _ => []

/-- `for vector in vectors` -/
def checkVectors (dimensions : Nat) : List PyValue → Except EmbeddingRaised Unit
  | [] => .ok ()
  | vector :: rest => do
      checkVector dimensions vector
      checkVectors dimensions rest

/-- What an `except` clause makes of the exceptions of the `try` block. -/
def reshaped : Except Raised (List PyValue) → Except EmbeddingRaised (List PyValue)
  | .ok vectors => .ok vectors
  | .error .valueError | .error .typeError | .error .keyError | .error .attributeError =>
      .error (.invalid "Embedding response has an unexpected shape")
  | .error exception => .error (.raised exception)

/-! ### The embedder -/

/-- What an embedder is built from, with the version derived from it; `numeral` is how
numbers are printed. -/
structure HttpEmbedder (numeral : PyNumber → List Char) extends EmbeddingSettings PyNumber where
  version : String
  derived : deriveEmbeddingVersion numeral toEmbeddingSettings = .ok version
  batchSize : Nat
  batchPositive : 0 < batchSize

/-- A request to the provider: what `embed_documents` or `embed_query` puts into its
body beside the settings. -/
structure EmbeddingRequest where
  input : List String
  kind : String
deriving DecidableEq, Repr

/-- What comes of a request: no response, or a status and a body. -/
inductive EmbeddingReply where
  | unreachable
  | response (status : Nat) (body : List UInt8)

/-- `template.replace(TEXT_PLACEHOLDER, text)` -/
def fillTemplate (template text : String) : String :=
  template.replace "\x7btext\x7d" text

namespace HttpEmbedder

variable {numeral : PyNumber → List Char} (host : Host) (embedder : HttpEmbedder numeral)

/-- `_parse` -/
def parse (expected : Nat) (body : List UInt8) : Except EmbeddingRaised (List (List Rat)) := do
  let vectors ← reshaped (embeddingItems host body)
  failIf (vectors.length ≠ expected)
    (.invalid "Embedding response has the wrong number of vectors")
  checkVectors embedder.dimensions vectors
  return vectors.map floats

/-- `_request`: what the provider's reply becomes. -/
def request (send : EmbeddingRequest → EmbeddingReply) (input : List String) (kind : String) :
    Except EmbeddingRaised (List (List Rat)) :=
  match send { input, kind } with
  | .unreachable => .error (.unavailable "Embedding provider is unreachable")
  | .response status body =>
      if 500 ≤ status ∨ status ∈ [408, 425, 429] then
        .error (.unavailable s!"Embedding provider returned HTTP {status}")
      else if status ≠ 200 then
        .error (.invalid s!"Embedding provider rejected the request with HTTP {status}")
      else embedder.parse host input.length body

/-- `embed_documents`: `send` is told which of its requests it answers. -/
def embedDocuments (send : Nat → EmbeddingRequest → EmbeddingReply) (texts : List String) :
    Except EmbeddingRaised (List (List Rat)) :=
  let inputs := texts.map (fillTemplate embedder.documentTemplate)
  Batching.collect embedder.batchSize
    (fun number input => embedder.request host (send number) input "document")
    inputs.length 0 inputs

end HttpEmbedder

/-- How the worker tells the outcomes of `embed_documents` apart. -/
def embeddingOutcome : Except EmbeddingRaised (List (List Rat)) →
    Except EmbeddingFailure (List (List Component))
  | .ok vectors => .ok (vectors.map fun vector => vector.map some)
  | .error (.invalid _) => .error .invalid
  | .error (.unavailable _) => .error .unavailable
  | .error (.raised _) => .error .other
  | .error .overflowError => .error .other

/-! ### The vectors of a document -/

/-- An item that is a dictionary, with its index, if it has one. -/
def itemIndex : PyValue → Option (Option PyValue)
  | .obj fields => some (PyDict.get fields "index")
  | _ => none

/-- The place an item asks for: its index, if that is a number, and zero without one. -/
def place (item : PyValue) : Option Rat :=
  match itemIndex item with
  | some none => some 0
  | some (some index) =>
      match index.number? with
      | some (.finite value) => some value
      | _ => none
  | none => none

/-- The item has no index, or the index of its position. -/
def StandsAt (position : Nat) (item : PyValue) : Prop :=
  ∀ index, itemIndex item = some (some index) → index.number? = some (.finite position)

/-- The items of a document. -/
def dataItems : PyValue → Option (List PyValue)
  | .obj fields =>
      match PyDict.get fields "data" with
      | some (.arr items) => some items
      | _ => none
  | _ => none

/-- Items in the order of their places, those that ask for the same one as they came. -/
def byPlace (items : List PyValue) : List PyValue :=
  items.insertionSort fun first second => (place first).getD 0 ≤ (place second).getD 0

/-- The vectors of a document: all items ask for a place, in the order of their places
each stands at its own, and each has an embedding. -/
structure HasVectors (document : PyValue) (items vectors : List PyValue) : Prop where
  data : dataItems document = some items
  placed : ∀ item ∈ items, (place item).isSome = true
  inOrder : ∀ position item, (byPlace items)[position]? = some item → StandsAt position item
  embedded : List.Forall₂ (fun item vector => item.item "embedding" = .ok vector)
    (byPlace items) vectors

section Ordering

namespace PyValue

theorem less_of_number {first second : PyValue} {value other : PyFloat}
    (isFirst : first.number? = some value) (isSecond : second.number? = some other) :
    less first second = .ok (value.less other) := by
  cases first <;> cases second <;> simp_all [number?, less, lessNumbers]

theorem equals_int {value : PyValue} {position : Nat} :
    equals value (PyValue.int position) = true ↔ value.number? = some (.finite position) := by
  cases value with
  | null => simp [equals, equalsNumbers, PyValue.int, number?]
  | bool value => simp [equals, equalsNumbers, PyValue.int, number?, PyFloat.equals]
  | num number =>
      cases number with
      | int value => simp [equals, equalsNumbers, PyValue.int, number?, PyFloat.equals]
      | float value =>
          cases value <;> simp [equals, equalsNumbers, PyValue.int, number?, PyFloat.equals]
  | str text => simp [equals, equalsNumbers, PyValue.int, number?]
  | arr items => simp [equals, equalsNumbers, PyValue.int, number?]
  | obj fields => simp [equals, equalsNumbers, PyValue.int, number?]

theorem error_of_lessNumbers {error : Raised} {first second : Option PyFloat}
    (raised : lessNumbers first second = .error error) : error = .typeError := by
  cases first <;> cases second <;> cases raised <;> rfl

mutual

/-- Comparing raises nothing but a type error. -/
theorem error_of_less {error : Raised} : ∀ {first second : PyValue},
    less first second = .error error → error = .typeError
  | .arr first, second, raised => by
      cases second with
      | arr second =>
          rw [less] at raised
          exact error_of_lessItems raised
      | _ =>
          simp only [less] at raised
          exact error_of_lessNumbers raised
  | .str first, second, raised => by
      cases second with
      | str second => cases raised
      | _ =>
          simp only [less] at raised
          exact error_of_lessNumbers raised
  | .null, second, raised => by
      cases second <;> (simp only [less] at raised; exact error_of_lessNumbers raised)
  | .bool _, second, raised => by
      cases second <;> (simp only [less] at raised; exact error_of_lessNumbers raised)
  | .num _, second, raised => by
      cases second <;> (simp only [less] at raised; exact error_of_lessNumbers raised)
  | .obj _, second, raised => by
      cases second <;> (simp only [less] at raised; exact error_of_lessNumbers raised)

theorem error_of_lessItems {error : Raised} : ∀ {first second : List PyValue},
    lessItems first second = .error error → error = .typeError
  | [], _, raised => by cases raised
  | _ :: _, [], raised => by cases raised
  | first :: rest, second :: rest', raised => by
      rw [lessItems] at raised
      split at raised
      · exact error_of_lessItems raised
      · exact error_of_less raised

end

end PyValue

/-! ### The sort -/

/-- The key of an item whose index is looked up. -/
def sortKey (item : PyValue) : PyValue :=
  ((itemIndex item).join).getD (PyValue.int 0)

theorem indexOr_eq_ok {default : Nat} {item key : PyValue} :
    indexOr default item = .ok key ↔
      ∃ index, itemIndex item = some index ∧ index.getD (PyValue.int default) = key := by
  cases item with
  | obj fields => simp [indexOr, PyValue.lookup, itemIndex]
  | _ => simp [indexOr, PyValue.lookup, itemIndex]

theorem error_of_indexOr {default : Nat} {item : PyValue} {error : Raised}
    (raised : indexOr default item = .error error) : error = .attributeError := by
  cases item with
  | obj fields => cases raised
  | _ => cases raised; rfl

theorem number?_sortKey {item : PyValue} {value : Rat} (asks : place item = some value) :
    (sortKey item).number? = some (.finite value) := by
  rw [place] at asks
  rw [sortKey]
  cases isIndex : itemIndex item with
  | none =>
      rw [isIndex] at asks
      cases asks
  | some index =>
      cases index with
      | none =>
          rw [isIndex] at asks
          cases asks
          rfl
      | some index =>
          rw [isIndex] at asks
          simp only at asks
          split at asks
          · rename_i found
            cases asks
            exact found
          · cases asks

/-- An item with its key. -/
def keyed (item : PyValue) : PyValue × PyValue :=
  (sortKey item, item)

/-- An item that asks for a place is inserted by it. -/
theorem insertByKey_keyed {item : PyValue} {items : List PyValue}
    (asks : (place item).isSome = true) (all : ∀ other ∈ items, (place other).isSome = true) :
    insertByKey (keyed item) (items.map keyed) =
      .ok ((items.orderedInsert
        (fun first second => (place first).getD 0 ≤ (place second).getD 0) item).map keyed) := by
  obtain ⟨value, isValue⟩ := Option.isSome_iff_exists.mp asks
  induction items with
  | nil => rfl
  | cons other items ih =>
      obtain ⟨otherValue, isOther⟩ := Option.isSome_iff_exists.mp (all other List.mem_cons_self)
      have compared : PyValue.less (keyed other).1 (keyed item).1 =
          .ok (decide (otherValue < value)) :=
        PyValue.less_of_number (number?_sortKey isOther) (number?_sortKey isValue)
      rw [List.map_cons, insertByKey, compared, ok_bind, List.orderedInsert_cons, isValue, isOther,
        Option.getD_some, Option.getD_some]
      by_cases isLess : otherValue < value
      · have later : ¬ value ≤ otherValue := Rat.not_le.mpr isLess
        rw [decide_eq_true isLess, if_pos rfl, if_neg later,
          ih fun later member => all later (List.mem_cons_of_mem _ member)]
        rfl
      · have before : value ≤ otherValue := Rat.not_lt.mp isLess
        rw [decide_eq_false isLess, if_neg Bool.false_ne_true, if_pos before]
        rfl

/-- Items that ask for places are sorted by them. -/
theorem sortedByKey_keyed {items : List PyValue} (all : ∀ item ∈ items, (place item).isSome = true) :
    sortedByKey (items.map keyed) = .ok ((byPlace items).map keyed) := by
  induction items with
  | nil => rfl
  | cons item items ih =>
      have rest := fun other member => all other (List.mem_cons_of_mem _ member)
      rw [List.map_cons, sortedByKey, ih rest, ok_bind]
      apply insertByKey_keyed (all item List.mem_cons_self)
      intro other member
      exact rest other ((List.mem_insertionSort _).mp member)

theorem perm_of_insertByKey {α : Type} {entry : PyValue × α} {entries inserted : List (PyValue × α)}
    (ok : insertByKey entry entries = .ok inserted) : inserted.Perm (entry :: entries) := by
  induction entries generalizing inserted with
  | nil =>
      cases ok
      exact List.Perm.refl _
  | cons other entries ih =>
      simp only [insertByKey, bind_eq_ok] at ok
      obtain ⟨isLess, _, ok⟩ := ok
      split at ok
      · simp only [bind_eq_ok, pure_eq_ok] at ok
        obtain ⟨rest, isRest, rfl⟩ := ok
        exact ((ih isRest).cons other).trans (List.Perm.swap entry other entries)
      · cases ok
        exact List.Perm.refl _

theorem perm_of_sortedByKey {α : Type} {entries ordered : List (PyValue × α)}
    (ok : sortedByKey entries = .ok ordered) : ordered.Perm entries := by
  induction entries generalizing ordered with
  | nil =>
      cases ok
      exact List.Perm.refl _
  | cons entry entries ih =>
      simp only [sortedByKey, bind_eq_ok] at ok
      obtain ⟨rest, isRest, isOrdered⟩ := ok
      exact (perm_of_insertByKey isOrdered).trans ((ih isRest).cons entry)

theorem error_of_sortedByKey {α : Type} {entries : List (PyValue × α)} {error : Raised}
    (raised : sortedByKey entries = .error error) : error = .typeError := by
  have inserting {entry : PyValue × α} : ∀ {entries : List (PyValue × α)},
      insertByKey entry entries = .error error → error = .typeError := by
    intro entries
    induction entries with
    | nil => exact nofun
    | cons other entries ih =>
        intro raised
        simp only [insertByKey, bind_eq_error] at raised
        rcases raised with raised | ⟨isLess, _, raised⟩
        · exact PyValue.error_of_less raised
        · split at raised
          · rcases bind_eq_error.mp raised with raised | ⟨_, _, done⟩
            · exact ih raised
            · cases done
          · cases raised
  induction entries with
  | nil => cases raised
  | cons entry entries ih =>
      rcases bind_eq_error.mp raised with raised | ⟨ordered, _, raised⟩
      · exact ih raised
      · exact inserting raised

/-! ### The check of the indexes -/

theorem indexes_match {start : Nat} {items found : List PyValue}
    (ok : indexes start items = .ok found) :
    PyValue.equalsItems found
        ((List.range' start items.length).map fun position : Nat => PyValue.int position) = true ↔
      ∀ position item, items[position]? = some item → StandsAt (start + position) item := by
  induction items generalizing start found with
  | nil =>
      cases ok
      simp only [List.length_nil, List.range'_zero, List.map_nil, PyValue.equalsItems, true_iff]
      intro position item found
      rw [List.getElem?_nil] at found
      cases found
  | cons item items ih =>
      simp only [indexes, bind_eq_ok, pure_eq_ok] at ok
      obtain ⟨index, isIndex, others, isOthers, rfl⟩ := ok
      obtain ⟨given, isGiven, rfl⟩ := indexOr_eq_ok.mp isIndex
      have first : PyValue.equals (given.getD (PyValue.int start)) (PyValue.int start) = true ↔
          StandsAt start item := by
        rw [PyValue.equals_int, StandsAt, isGiven]
        cases given with
        | none =>
            refine iff_of_true rfl fun index isIndex => ?_
            cases isIndex
        | some index => simp only [Option.getD_some, Option.some.injEq, forall_eq']
      rw [List.length_cons, List.range'_succ, List.map_cons, PyValue.equalsItems, Bool.and_eq_true,
        first, ih isOthers]
      constructor
      · rintro ⟨isFirst, isRest⟩ position other found
        cases position with
        | zero =>
            cases found
            exact isFirst
        | succ position =>
            rw [← Nat.add_assoc, Nat.add_right_comm]
            exact isRest position other found
      · intro each
        refine ⟨each 0 item rfl, fun position other found => ?_⟩
        have stands := each (position + 1) other found
        rw [← Nat.add_assoc, Nat.add_right_comm] at stands
        exact stands

/-! ### The vectors a response is taken for -/

theorem exists_indexes (start : Nat) {items : List PyValue}
    (dicts : ∀ item ∈ items, ∃ index, itemIndex item = some index) :
    ∃ found, indexes start items = .ok found := by
  induction items generalizing start with
  | nil => exact ⟨[], rfl⟩
  | cons item items ih =>
      obtain ⟨index, isIndex⟩ := dicts item List.mem_cons_self
      obtain ⟨found, isFound⟩ := ih (start + 1) fun other member =>
        dicts other (List.mem_cons_of_mem _ member)
      have first : indexOr start item = .ok (index.getD (PyValue.int start)) :=
        indexOr_eq_ok.mpr ⟨index, isIndex, rfl⟩
      exact ⟨_, by rw [indexes, first, ok_bind, isFound]; rfl⟩

theorem error_of_indexes {start : Nat} {items : List PyValue} {error : Raised}
    (raised : indexes start items = .error error) : error = .attributeError := by
  induction items generalizing start with
  | nil => cases raised
  | cons item items ih =>
      simp only [indexes, bind_eq_error] at raised
      rcases raised with raised | ⟨_, _, raised | ⟨_, _, done⟩⟩
      · exact error_of_indexOr raised
      · exact ih raised
      · cases done

theorem dict_of_place {item : PyValue} (asks : (place item).isSome = true) :
    ∃ index, itemIndex item = some index := by
  rw [place] at asks
  cases isIndex : itemIndex item with
  | none =>
      rw [isIndex] at asks
      cases asks
  | some index => exact ⟨index, rfl⟩

theorem place_of_standsAt {position : Nat} {item : PyValue} {index : Option PyValue}
    (isIndex : itemIndex item = some index) (stands : StandsAt position item) :
    (place item).isSome = true := by
  rw [place, isIndex]
  cases index with
  | none => rfl
  | some index =>
      simp only
      rw [stands index isIndex]
      rfl

theorem keyed_of_indexOr {items : List PyValue} {entries : List (PyValue × PyValue)} :
    (items.mapM fun item => do
      let key ← indexOr 0 item
      return (key, item)) = .ok entries ↔
      (∀ item ∈ items, ∃ index, itemIndex item = some index) ∧ entries = items.map keyed := by
  have each {item : PyValue} {entry : PyValue × PyValue} :
      (do
        let key ← indexOr 0 item
        return (key, item) : Except Raised _) = .ok entry ↔
        (∃ index, itemIndex item = some index) ∧ entry = keyed item := by
    simp only [bind_eq_ok, indexOr_eq_ok, pure_eq_ok, keyed, sortKey]
    constructor
    · rintro ⟨_, ⟨index, isIndex, rfl⟩, rfl⟩
      refine ⟨⟨index, isIndex⟩, ?_⟩
      rw [isIndex]
      rfl
    · rintro ⟨⟨index, isIndex⟩, rfl⟩
      refine ⟨_, ⟨index, isIndex, rfl⟩, ?_⟩
      rw [isIndex]
      rfl
  constructor
  · intro ok
    refine ⟨fun item member => ?_, eq_map_of_mapM_ok (fun item entry found => (each.mp found).2) ok⟩
    obtain ⟨entry, _, found⟩ := exists_result_of_mapM_ok ok member
    exact (each.mp found).1
  · rintro ⟨dicts, rfl⟩
    apply mapM_eq_ok_iff_forall₂.mpr
    rw [List.forall₂_map_right_iff, List.forall₂_same]
    exact fun item member => each.mpr ⟨dicts item member, rfl⟩

theorem item_data {document : PyValue} {items : List PyValue} :
    (∃ data, document.item "data" = .ok data ∧ asItems data = .ok items) ↔
      dataItems document = some items := by
  cases document with
  | obj fields =>
      cases found : PyDict.get fields "data" with
      | none => simp [PyValue.item, dataItems, found]
      | some data => cases data <;> simp [PyValue.item, dataItems, asItems, found]
  | _ => simp [PyValue.item, dataItems]

variable {host : Host} {body : List UInt8}

/-- The order a sort finds, when the check of the indexes passes. -/
theorem sorted_of_match {items ordered : List PyValue} {entries : List (PyValue × PyValue)}
    {found : List PyValue} (dicts : ∀ item ∈ items, ∃ index, itemIndex item = some index)
    (isEntries : sortedByKey (items.map keyed) = .ok entries)
    (isOrdered : entries.map (·.2) = ordered) (isFound : indexes 0 ordered = .ok found)
    (matches_ : PyValue.equalsItems found (positions entries.length) = true) :
    (∀ item ∈ items, (place item).isSome = true) ∧ ordered = byPlace items ∧
      ∀ position item, ordered[position]? = some item → StandsAt position item := by
  have size : entries.length = ordered.length := by rw [← isOrdered, List.length_map]
  have stands := (indexes_match isFound).mp (by
    rw [size, positions, List.range_eq_range'] at matches_
    exact matches_)
  simp only [Nat.zero_add] at stands
  have perm : ordered.Perm items := by
    have sameItems := (perm_of_sortedByKey isEntries).map (·.2)
    rw [isOrdered, List.map_map] at sameItems
    have isId : (fun entry : PyValue × PyValue => entry.2) ∘ keyed = id := rfl
    rw [isId, List.map_id] at sameItems
    exact sameItems
  have placed : ∀ item ∈ items, (place item).isSome = true := by
    intro item member
    obtain ⟨index, isIndex⟩ := dicts item member
    obtain ⟨position, isAt⟩ := List.mem_iff_getElem?.mp (perm.mem_iff.mpr member)
    exact place_of_standsAt isIndex (stands position item isAt)
  refine ⟨placed, ?_, stands⟩
  rw [sortedByKey_keyed placed, Except.ok.injEq] at isEntries
  rw [← isOrdered, ← isEntries, List.map_map]
  have isId : (fun entry : PyValue × PyValue => entry.2) ∘ keyed = id := rfl
  rw [isId, List.map_id]

/-- The `try` block finds the vectors that the document has. -/
theorem embeddingItems_eq_ok {vectors : List PyValue} :
    embeddingItems host body = .ok vectors ↔
      ∃ document items, host.loadsBytes body = .ok document ∧ HasVectors document items vectors := by
  simp only [embeddingItems, bind_eq_ok, failIf_eq_ok]
  constructor
  · rintro ⟨document, isDocument, data, isData, items, isItems, entries, isEntries, ordered,
      isOrdered, found, isFound, _, matches_, embedded⟩
    obtain ⟨dicts, rfl⟩ := keyed_of_indexOr.mp isEntries
    rw [Bool.not_eq_false] at matches_
    obtain ⟨placed, isByPlace, inOrder⟩ := sorted_of_match dicts isOrdered rfl isFound matches_
    rw [isByPlace] at inOrder embedded
    exact ⟨document, items, isDocument, item_data.mp ⟨data, isData, isItems⟩, placed, inOrder,
      mapM_eq_ok_iff_forall₂.mp embedded⟩
  · rintro ⟨document, items, isDocument, isData, placed, inOrder, embedded⟩
    obtain ⟨data, isData, isItems⟩ := item_data.mpr isData
    have ordered : ((byPlace items).map keyed).map (·.2) = byPlace items := by
      rw [List.map_map]
      exact List.map_id _
    have dicts : ∀ item ∈ byPlace items, ∃ index, itemIndex item = some index := fun item member =>
      dict_of_place (placed item ((List.mem_insertionSort _).mp member))
    obtain ⟨found, isFound⟩ := exists_indexes 0 dicts
    have matches_ : PyValue.equalsItems found (positions ((byPlace items).map keyed).length) =
        true := by
      rw [List.length_map, positions, List.range_eq_range', indexes_match isFound]
      simp only [Nat.zero_add]
      exact inOrder
    refine ⟨document, isDocument, data, isData, items, isItems, items.map keyed,
      keyed_of_indexOr.mpr ⟨fun item member => dict_of_place (placed item member), rfl⟩,
      _, sortedByKey_keyed placed, found, ?_, (), ?_, ?_⟩
    · rw [ordered]
      exact isFound
    · rw [Bool.not_eq_false]
      exact matches_
    · rw [ordered]
      exact mapM_eq_ok_iff_forall₂.mpr embedded

theorem error_of_loadsBytes {error : Raised} (raised : host.loadsBytes body = .error error) :
    error = .valueError ∨ error = .recursionError := by
  unfold Host.loadsBytes Host.loads at raised
  split at raised
  · split at raised
    · cases raised
    · cases raised
      exact .inl rfl
    · cases raised
      exact .inr rfl
  · cases raised
    exact .inl rfl

/-- The exceptions that `_parse` names. -/
def Raised.Named (exception : Raised) : Prop :=
  exception ∈ [.valueError, .typeError, .keyError, .attributeError]

instance (exception : Raised) : Decidable exception.Named :=
  inferInstanceAs (Decidable (exception ∈ [.valueError, .typeError, .keyError, .attributeError]))

/-- The `try` block raises nothing but those, unless the document nests too deep. -/
theorem error_of_embeddingItems {error : Raised} (raised : embeddingItems host body = .error error) :
    error.Named ∨ host.loadsBytes body = .error .recursionError := by
  have keying {item : PyValue} {error : Raised}
      (raised : (do
        let key ← indexOr 0 item
        return (key, item) : Except Raised _) = .error error) : error.Named := by
    rcases bind_eq_error.mp raised with raised | ⟨_, _, done⟩
    · rw [error_of_indexOr raised]
      decide
    · cases done
  have items {value : PyValue} {key : String} {error : Raised}
      (raised : value.item key = .error error) : error.Named := by
    unfold PyValue.item at raised
    split at raised
    · split at raised
      · cases raised
      · cases raised
        decide
    · cases raised
      decide
  simp only [embeddingItems, bind_eq_error] at raised
  rcases raised with raised | ⟨document, _, raised | ⟨data, _, raised | ⟨_, _, raised |
    ⟨_, _, raised | ⟨ordered, _, raised | ⟨found, isFound, raised | ⟨_, _, raised⟩⟩⟩⟩⟩⟩⟩
  · rcases error_of_loadsBytes raised with rfl | rfl
    · exact .inl (by decide)
    · exact .inr raised
  · exact .inl (items raised)
  · cases data <;> cases raised <;> exact .inl (by decide)
  · obtain ⟨item, _, raised⟩ := exists_item_of_mapM_error raised
    exact .inl (keying raised)
  · rw [error_of_sortedByKey raised]
    exact .inl (by decide)
  · rw [error_of_indexes raised]
    exact .inl (by decide)
  · obtain ⟨_, rfl⟩ := failIf_eq_error.mp raised
    exact .inl (by decide)
  · obtain ⟨item, _, raised⟩ := exists_item_of_mapM_error raised
    exact .inl (items raised)

theorem reshaped_of_named {error : Raised} (named : error.Named) :
    reshaped (.error error) = .error (.invalid "Embedding response has an unexpected shape") := by
  simp only [Raised.Named, List.mem_cons, List.not_mem_nil, or_false] at named
  rcases named with rfl | rfl | rfl | rfl <;> rfl

end Ordering

/-! ### The checks of the vectors -/

/-- A finite number that converts to a double. -/
def FiniteNumber : PyValue → Prop
  | .num (.int value) => InDoubleRange value
  | .num (.float (.finite _)) => True
  | _ => False

/-- So many finite numbers. -/
def UsableVector (dimensions : Nat) (vector : PyValue) : Prop :=
  ∃ values, vector = .arr values ∧ values.length = dimensions ∧ ∀ value ∈ values, FiniteNumber value

/-- The checks reach a whole number beyond the range of a double: the vectors before
its own are usable, its own has the right length, and the numbers before it are finite. -/
structure Overflows (dimensions : Nat) (vectors : List PyValue) : Prop where
  reached : ∃ front values back, vectors = front ++ .arr values :: back ∧
    (∀ vector ∈ front, UsableVector dimensions vector) ∧ values.length = dimensions ∧
    ∃ before number after, values = before ++ .num (.int number) :: after ∧
      (∀ value ∈ before, FiniteNumber value) ∧ ¬ InDoubleRange number

section Checking

theorem isFiniteNumber_eq_ok_true {value : PyValue} :
    isFiniteNumber value = .ok true ↔ FiniteNumber value := by
  cases value with
  | num number =>
      cases number with
      | int value =>
          rw [isFiniteNumber, FiniteNumber]
          by_cases inRange : InDoubleRange value
          · simp [inRange]
          · simp [inRange]
      | float value => cases value <;> simp [isFiniteNumber, FiniteNumber]
  | _ => simp [isFiniteNumber, FiniteNumber]

theorem isFiniteNumber_eq_error {value : PyValue} {error : EmbeddingRaised} :
    isFiniteNumber value = .error error ↔
      ∃ number, value = .num (.int number) ∧ ¬ InDoubleRange number ∧ error = .overflowError := by
  cases value with
  | num number =>
      cases number with
      | int value =>
          rw [isFiniteNumber]
          by_cases inRange : InDoubleRange value
          · simp [inRange]
          · simp [inRange, eq_comm]
      | float value => cases value <;> simp [isFiniteNumber]
  | _ => simp [isFiniteNumber]

theorem allFinite_eq_ok_true {values : List PyValue} :
    allFinite values = .ok true ↔ ∀ value ∈ values, FiniteNumber value := by
  induction values with
  | nil => simp [allFinite]
  | cons value values ih =>
      rw [allFinite, bind_eq_ok, List.forall_mem_cons, ← isFiniteNumber_eq_ok_true, ← ih]
      constructor
      · rintro ⟨isFinite, found, rest⟩
        split at rest
        · rename_i isTrue
          rw [isTrue] at found
          exact ⟨found, rest⟩
        · cases rest
      · rintro ⟨found, rest⟩
        exact ⟨true, found, rest⟩

theorem allFinite_eq_error {values : List PyValue} {error : EmbeddingRaised} :
    allFinite values = .error error ↔ error = .overflowError ∧
      ∃ before number after, values = before ++ .num (.int number) :: after ∧
        (∀ value ∈ before, FiniteNumber value) ∧ ¬ InDoubleRange number := by
  induction values with
  | nil => simp [allFinite]
  | cons value values ih =>
      rw [allFinite, bind_eq_error, isFiniteNumber_eq_error]
      constructor
      · rintro (⟨number, rfl, beyond, rfl⟩ | ⟨isFinite, found, raised⟩)
        · exact ⟨rfl, [], number, values, rfl, nofun, beyond⟩
        · split at raised
          · rename_i isTrue
            rw [isTrue, isFiniteNumber_eq_ok_true] at found
            obtain ⟨rfl, before, number, after, rfl, finite, beyond⟩ := ih.mp raised
            exact ⟨rfl, value :: before, number, after, rfl,
              List.forall_mem_cons.mpr ⟨found, finite⟩, beyond⟩
          · cases raised
      · rintro ⟨rfl, before, number, after, same, finite, beyond⟩
        cases before with
        | nil =>
            cases same
            exact .inl ⟨number, rfl, beyond, rfl⟩
        | cons first before =>
            cases same
            rw [List.forall_mem_cons] at finite
            refine .inr ⟨true, isFiniteNumber_eq_ok_true.mpr finite.1, ?_⟩
            exact ih.mpr ⟨rfl, before, number, after, rfl, finite.2, beyond⟩

/-- What the checks refuse. -/
def EmbeddingRaised.Invalid (error : EmbeddingRaised) : Prop :=
  ∃ message, error = .invalid message

variable {dimensions : Nat}

theorem checkVector_eq_ok {vector : PyValue} {done : Unit} :
    checkVector dimensions vector = .ok done ↔ UsableVector dimensions vector := by
  cases vector with
  | arr values =>
      simp only [checkVector, bind_eq_ok, failIf_eq_ok, UsableVector, Tree.arr.injEq,
        exists_eq_left', not_not, exists_const]
      constructor
      · rintro ⟨size, finite, found, isTrue⟩
        rw [Bool.not_eq_false] at isTrue
        rw [isTrue, allFinite_eq_ok_true] at found
        exact ⟨size, found⟩
      · rintro ⟨size, finite⟩
        exact ⟨size, true, allFinite_eq_ok_true.mpr finite, Bool.noConfusion⟩
  | _ => simp [checkVector, UsableVector]

/-- The numbers of a vector reach one beyond the range. -/
def OverflowsIn (dimensions : Nat) (vector : PyValue) : Prop :=
  ∃ values, vector = .arr values ∧ values.length = dimensions ∧
    ∃ before number after, values = before ++ .num (.int number) :: after ∧
      (∀ value ∈ before, FiniteNumber value) ∧ ¬ InDoubleRange number

theorem checkVector_eq_error {vector : PyValue} {error : EmbeddingRaised}
    (raised : checkVector dimensions vector = .error error) :
    error.Invalid ∨ (error = .overflowError ∧ OverflowsIn dimensions vector) := by
  cases vector with
  | arr values =>
      simp only [checkVector, bind_eq_error, failIf_eq_ok, failIf_eq_error] at raised
      rcases raised with ⟨_, rfl⟩ | ⟨_, size, raised | ⟨finite, _, _, rfl⟩⟩
      · exact .inl ⟨_, rfl⟩
      · obtain ⟨rfl, reached⟩ := allFinite_eq_error.mp raised
        exact .inr ⟨rfl, values, rfl, not_not.mp size, reached⟩
      · exact .inl ⟨_, rfl⟩
  | _ =>
      cases raised
      exact .inl ⟨_, rfl⟩

theorem checkVector_of_overflowsIn {vector : PyValue} (overflows : OverflowsIn dimensions vector) :
    checkVector dimensions vector = .error .overflowError := by
  obtain ⟨values, rfl, size, reached⟩ := overflows
  have raised := allFinite_eq_error.mpr ⟨rfl, reached⟩
  rw [checkVector, failIf_of_not (not_not.mpr size), ok_bind, raised]
  rfl

theorem checkVectors_eq_ok {vectors : List PyValue} {done : Unit} :
    checkVectors dimensions vectors = .ok done ↔
      ∀ vector ∈ vectors, UsableVector dimensions vector := by
  induction vectors with
  | nil => simp [checkVectors]
  | cons vector vectors ih =>
      simp only [checkVectors, bind_eq_ok, checkVector_eq_ok, ih, List.forall_mem_cons,
        exists_const]

theorem overflows_cons {vector : PyValue} {vectors : List PyValue} :
    Overflows dimensions (vector :: vectors) ↔ OverflowsIn dimensions vector ∨
      (UsableVector dimensions vector ∧ Overflows dimensions vectors) := by
  constructor
  · rintro ⟨front, values, back, same, usable, reached⟩
    cases front with
    | nil =>
        cases same
        exact .inl ⟨values, rfl, reached⟩
    | cons first front =>
        cases same
        rw [List.forall_mem_cons] at usable
        exact .inr ⟨usable.1, front, values, back, rfl, usable.2, reached⟩
  · rintro (⟨values, rfl, reached⟩ | ⟨isUsable, front, values, back, rfl, usable, reached⟩)
    · exact ⟨[], values, vectors, rfl, nofun, reached⟩
    · exact ⟨vector :: front, values, back, rfl, List.forall_mem_cons.mpr ⟨isUsable, usable⟩,
        reached⟩

theorem checkVectors_eq_error {vectors : List PyValue} {error : EmbeddingRaised}
    (raised : checkVectors dimensions vectors = .error error) :
    error.Invalid ∨ (error = .overflowError ∧ Overflows dimensions vectors) := by
  induction vectors with
  | nil => cases raised
  | cons vector vectors ih =>
      rw [checkVectors, bind_eq_error] at raised
      rw [overflows_cons]
      rcases raised with raised | ⟨_, usable, raised⟩
      · exact (checkVector_eq_error raised).imp_right fun reached => ⟨reached.1, .inl reached.2⟩
      · exact (ih raised).imp_right fun reached =>
          ⟨reached.1, .inr ⟨checkVector_eq_ok.mp usable, reached.2⟩⟩

theorem checkVectors_of_overflows {vectors : List PyValue} (overflows : Overflows dimensions vectors) :
    checkVectors dimensions vectors = .error .overflowError := by
  induction vectors with
  | nil =>
      obtain ⟨front, values, back, same, _⟩ := overflows
      exact absurd same.symm (List.append_ne_nil_of_right_ne_nil front (List.cons_ne_nil _ _))
  | cons vector vectors ih =>
      rw [checkVectors]
      rcases overflows_cons.mp overflows with inFirst | ⟨usable, later⟩
      · rw [checkVector_of_overflowsIn inFirst]
        rfl
      · have passes : checkVector dimensions vector = .ok () := checkVector_eq_ok.mpr usable
        rw [passes, ok_bind, ih later]

end Checking

/-! ### What a response becomes -/

section Parsing

variable {numeral : PyNumber → List Char} {host : Host} {embedder : HttpEmbedder numeral}
  {expected : Nat} {body : List UInt8}

/-- A parsed response had as many usable vectors as were expected. -/
theorem parse_eq_ok {results : List (List Rat)} :
    embedder.parse host expected body = .ok results ↔
      ∃ document items vectors, host.loadsBytes body = .ok document ∧
        HasVectors document items vectors ∧ vectors.length = expected ∧
        (∀ vector ∈ vectors, UsableVector embedder.dimensions vector) ∧
        results = vectors.map floats := by
  simp only [HttpEmbedder.parse, bind_eq_ok, failIf_eq_ok, not_not, checkVectors_eq_ok,
    pure_eq_ok, exists_const]
  constructor
  · rintro ⟨vectors, isShaped, size, usable, rfl⟩
    cases isItems : embeddingItems host body with
    | error error =>
        rw [isItems] at isShaped
        cases error <;> cases isShaped
    | ok found =>
        rw [isItems] at isShaped
        cases isShaped
        obtain ⟨document, items, isDocument, has⟩ := embeddingItems_eq_ok.mp isItems
        exact ⟨document, items, vectors, isDocument, has, size, usable, rfl⟩
  · rintro ⟨document, items, vectors, isDocument, has, size, usable, rfl⟩
    refine ⟨vectors, ?_, size, usable, rfl⟩
    rw [embeddingItems_eq_ok.mpr ⟨document, items, isDocument, has⟩]
    rfl

/-- The responses that are neither taken nor called invalid: documents that nest deeper
than the reader can follow, and documents with a whole number beyond the range of a
double where the checks reach it. -/
def Unclassified (host : Host) (dimensions expected : Nat) (body : List UInt8) : Prop :=
  host.loadsBytes body = .error .recursionError ∨
    ∃ document items vectors, host.loadsBytes body = .ok document ∧
      HasVectors document items vectors ∧ vectors.length = expected ∧ Overflows dimensions vectors

theorem embeddingItems_of_recursion (deep : host.loadsBytes body = .error .recursionError) :
    embeddingItems host body = .error .recursionError := by
  rw [embeddingItems, deep]
  rfl

/-- A response of neither kind is taken or called invalid. -/
theorem classified_of_not (known : ¬ Unclassified host embedder.dimensions expected body) :
    (∃ results, embedder.parse host expected body = .ok results) ∨
      ∃ message, embedder.parse host expected body = .error (.invalid message) := by
  rw [HttpEmbedder.parse]
  cases isItems : embeddingItems host body with
  | error error =>
      rcases error_of_embeddingItems isItems with named | deep
      · right
        rw [reshaped_of_named named]
        exact ⟨_, rfl⟩
      · exact absurd (.inl deep) known
  | ok vectors =>
      rw [reshaped, ok_bind]
      by_cases size : vectors.length = expected
      · rw [failIf_of_not (not_not.mpr size), ok_bind]
        cases checked : checkVectors embedder.dimensions vectors with
        | ok done => exact .inl ⟨_, rfl⟩
        | error error =>
            rcases checkVectors_eq_error checked with ⟨message, rfl⟩ | ⟨_, overflows⟩
            · exact .inr ⟨message, rfl⟩
            · obtain ⟨document, items, isDocument, has⟩ := embeddingItems_eq_ok.mp isItems
              exact absurd (.inr ⟨document, items, vectors, isDocument, has, size, overflows⟩) known
      · right
        refine ⟨"Embedding response has the wrong number of vectors", ?_⟩
        rw [failIf, if_pos size]
        rfl

/-- A whole number beyond the range of a double raises, where the checks reach it. -/
theorem parse_of_overflows {document : PyValue} {items vectors : List PyValue}
    (isDocument : host.loadsBytes body = .ok document) (has : HasVectors document items vectors)
    (size : vectors.length = expected) (overflows : Overflows embedder.dimensions vectors) :
    embedder.parse host expected body = .error .overflowError := by
  have isItems := embeddingItems_eq_ok.mpr ⟨document, items, isDocument, has⟩
  rw [HttpEmbedder.parse, isItems, reshaped, ok_bind, failIf_of_not (not_not.mpr size), ok_bind,
    checkVectors_of_overflows overflows]
  rfl

/-- A response of either kind raises another exception. -/
theorem raised_of_unclassified (unclassified : Unclassified host embedder.dimensions expected body) :
    embedder.parse host expected body = .error (.raised .recursionError) ∨
      embedder.parse host expected body = .error .overflowError := by
  rcases unclassified with deep | ⟨document, items, vectors, isDocument, has, size, overflows⟩
  · left
    rw [HttpEmbedder.parse, embeddingItems_of_recursion deep]
    rfl
  · exact .inr (parse_of_overflows isDocument has size overflows)

/-- What a usable response gives: so many lists of so many floats. -/
def Usable (dimensions expected : Nat) (results : List (List Rat)) : Prop :=
  results.length = expected ∧ ∀ vector ∈ results, vector.length = dimensions

theorem usable_of_parse {results : List (List Rat)}
    (ok : embedder.parse host expected body = .ok results) :
    Usable embedder.dimensions expected results := by
  obtain ⟨_, _, vectors, _, _, size, usable, rfl⟩ := parse_eq_ok.mp ok
  refine ⟨by rw [List.length_map, size], fun result member => ?_⟩
  obtain ⟨vector, inside, rfl⟩ := List.mem_map.mp member
  obtain ⟨values, rfl, length, _⟩ := usable vector inside
  rw [floats, List.length_map, length]

/-- A response with status 200 is usable or called invalid exactly when it is of
neither kind. -/
theorem parse_classified_iff :
    ((∃ results, embedder.parse host expected body = .ok results ∧
        Usable embedder.dimensions expected results) ∨
      ∃ message, embedder.parse host expected body = .error (.invalid message)) ↔
      ¬ Unclassified host embedder.dimensions expected body := by
  constructor
  · intro classified unclassified
    rcases raised_of_unclassified unclassified with raised | raised
    · rcases classified with ⟨_, ok, _⟩ | ⟨_, invalid⟩
      · rw [raised] at ok
        cases ok
      · rw [raised] at invalid
        cases invalid
    · rcases classified with ⟨_, ok, _⟩ | ⟨_, invalid⟩
      · rw [raised] at ok
        cases ok
      · rw [raised] at invalid
        cases invalid
  · intro known
    exact (classified_of_not known).imp_left fun ⟨results, ok⟩ => ⟨results, ok, usable_of_parse ok⟩

end Parsing

end Docta
