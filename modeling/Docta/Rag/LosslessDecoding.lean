/-
Module: Docta.Rag.LosslessDecoding
Purpose: Decoding a provider's content loses nothing of a valid intervention: the
  cleaning pass leaves it alone, and the six typed lists are its blocks regrouped.
Trusted boundary: as in `TutorHttp`
Main exports: PyValue.ofJson, cleanBlocks_self, InterventionFields.regrouped,
  decoding_lossless
-/
import Docta.Library.Grouping
import Docta.Rag.DraftSize
import Docta.Rag.TutorHttp

namespace Docta

open Contract Fallible JsonText Grouping

/-! ### JSON values as decoded -/

mutual

/-- A JSON value as `json.loads` returns it. -/
def PyValue.ofJson : Json → PyValue
  | .null => .null
  | .bool value => .bool value
  | .int value => .num (.int value)
  | .float value => .num (.float (.finite value))
  | .str text => .str text
  | .arr items => .arr (PyValue.ofJsonItems items)
  | .obj fields => .obj (PyValue.ofJsonFields fields)

def PyValue.ofJsonItems : List Json → List PyValue
  | [] => []
  | item :: rest => PyValue.ofJson item :: PyValue.ofJsonItems rest

def PyValue.ofJsonFields : List (JString × Json) → List (JString × PyValue)
  | [] => []
  | field :: rest => PyValue.ofJsonField field :: PyValue.ofJsonFields rest

def PyValue.ofJsonField : JString × Json → JString × PyValue
  | (name, value) => (name, PyValue.ofJson value)

end

namespace PyValue

theorem ofJsonItems_eq (items : List Json) : ofJsonItems items = items.map ofJson := by
  induction items with
  | nil => rfl
  | cons item rest ih => rw [ofJsonItems, ih, List.map_cons]

theorem ofJsonFields_eq (fields : List (JString × Json)) :
    ofJsonFields fields = fields.map fun field => (field.1, ofJson field.2) := by
  induction fields with
  | nil => rfl
  | cons field rest ih => rw [ofJsonFields, ih, List.map_cons, ofJsonField]

theorem toJsonFields_eq (fields : PyDict) :
    toJsonFields fields = fields.map fun field => (field.1, toJson field.2) := by
  induction fields with
  | nil => rfl
  | cons field rest ih => rw [toJsonFields, ih, List.map_cons, toJsonField]

mutual

/-- The validator sees the JSON value again. -/
theorem toJson_ofJson : ∀ value : Json, (ofJson value).toJson = value
  | .null => rfl
  | .bool _ => rfl
  | .int _ => rfl
  | .float _ => rfl
  | .str _ => rfl
  | .arr items => congrArg Json.arr (toJsonItems_ofJsonItems items)
  | .obj fields => congrArg Json.obj (toJsonFields_ofJsonFields fields)

theorem toJsonItems_ofJsonItems : ∀ items : List Json, toJsonItems (ofJsonItems items) = items
  | [] => rfl
  | item :: rest => by
      rw [ofJsonItems, toJsonItems, toJson_ofJson item, toJsonItems_ofJsonItems rest]

theorem toJsonFields_ofJsonFields : ∀ fields : List (JString × Json),
    toJsonFields (ofJsonFields fields) = fields
  | [] => rfl
  | field :: rest => by
      rw [ofJsonFields, toJsonFields, toJsonField_ofJsonField field, toJsonFields_ofJsonFields rest]

theorem toJsonField_ofJsonField : ∀ field : JString × Json,
    toJsonField (ofJsonField field) = field
  | (name, value) => by rw [ofJsonField, toJsonField, toJson_ofJson value]

end

end PyValue

/-! ### Dictionaries -/

/-- The field of a name does not depend on the order of the fields. -/
theorem find?_perm {α : Type} {fields other : List (JString × α)} (perm : other.Perm fields)
    (names : (fields.map Prod.fst).Nodup) (name : JString) :
    (other.find? fun field => field.1 = name) = fields.find? fun field => field.1 = name := by
  cases found : fields.find? fun field => field.1 = name with
  | none =>
      rw [List.find?_eq_none] at found ⊢
      intro field member
      exact found field (perm.mem_iff.mp member)
  | some field =>
      have stored := List.mem_of_find?_eq_some found
      have isName : field.1 = name := by simpa using List.find?_some found
      have isSome : (other.find? fun field => field.1 = name).isSome = true := by
        rw [List.find?_isSome]
        exact ⟨field, perm.mem_iff.mpr stored, by simpa using isName⟩
      obtain ⟨rival, rivalFound⟩ := Option.isSome_iff_exists.mp isSome
      have rivalName : rival.1 = name := by simpa using List.find?_some rivalFound
      have rivalStored := perm.mem_iff.mp (List.mem_of_find?_eq_some rivalFound)
      rw [rivalFound, List.inj_on_of_nodup_map names rivalStored stored (rivalName.trans isName.symm)]

namespace PyDict

/-- A dictionary of JSON values with ASCII names. -/
def named (fields : List (String × Json)) : PyDict :=
  fields.map fun field => (JString.ofString field.1, .ofJson field.2)

theorem ofJson_record (fields : List (String × Json)) :
    PyValue.ofJson (.record fields) = .obj (named fields) := by
  rw [Json.record, PyValue.ofJson, PyValue.ofJsonFields_eq, List.map_map, named]
  rfl

theorem names_named (fields : List (String × Json)) :
    (named fields).map Prod.fst = (fields.map Prod.fst).map JString.ofString := by
  rw [named, List.map_map, List.map_map]
  rfl

theorem nodup_named {fields : List (String × Json)} (names : (fields.map Prod.fst).Nodup) :
    ((named fields).map Prod.fst).Nodup := by
  rw [names_named]
  exact names.map JString.ofString_injective

theorem mem_of_get {fields : PyDict} {key : String} {value : PyValue}
    (found : get fields key = some value) : (JString.ofString key, value) ∈ fields := by
  obtain ⟨⟨name, value⟩, fieldFound, rfl⟩ := Option.map_eq_some_iff.mp found
  have sameName : name = JString.ofString key := by
    simpa using List.find?_some fieldFound
  subst sameName
  exact List.mem_of_find?_eq_some fieldFound

theorem get_of_mem {fields : PyDict} (names : (fields.map Prod.fst).Nodup) {key : String}
    {value : PyValue} (member : (JString.ofString key, value) ∈ fields) :
    get fields key = some value := by
  have isSome : (get fields key).isSome = true := by
    rw [get, Option.isSome_map, List.find?_isSome]
    exact ⟨_, member, by simp⟩
  obtain ⟨found, foundOk⟩ := Option.isSome_iff_exists.mp isSome
  have same := List.inj_on_of_nodup_map names (mem_of_get foundOk) member rfl
  cases same
  exact foundOk

/-- Access does not depend on the order of the fields. -/
theorem get_perm {fields other : PyDict} (perm : other.Perm fields)
    (names : (fields.map Prod.fst).Nodup) (key : String) : get other key = get fields key := by
  rw [get, get, find?_perm perm names]

theorem get_named (fields : List (String × Json)) (key : String) :
    get (named fields) key = (fields.lookup key).map .ofJson := by
  induction fields with
  | nil => rfl
  | cons field fields ih =>
      obtain ⟨name, value⟩ := field
      by_cases same : key = name
      · subst same
        simp [get, named]
      · have different : JString.ofString name ≠ JString.ofString key := by
          simpa [eq_comm] using same
        rw [List.lookup_cons, beq_false_of_ne same]
        rw [← ih]
        simp [get, named, different]

/-- Assigning the value a key has changes nothing. -/
theorem set_of_get {fields : PyDict} (names : (fields.map Prod.fst).Nodup) {key : String}
    {value : PyValue} (found : get fields key = some value) : set fields key value = fields := by
  have member := mem_of_get found
  have known : JString.ofString key ∈ fields.map Prod.fst := List.mem_map.mpr ⟨_, member, rfl⟩
  rw [set, assign, if_pos known]
  calc fields.map (fun old => if old.1 = JString.ofString key then (old.1, value) else old)
      = fields.map id := by
        apply List.map_congr_left
        intro old stored
        split
        · rename_i same
          have isOld := List.inj_on_of_nodup_map names stored member same
          rw [isOld]
          rfl
        · rfl
    _ = fields := List.map_id fields

/-- Assigning a new key appends it. -/
theorem set_of_absent {fields : PyDict} {key : String}
    (absent : JString.ofString key ∉ fields.map Prod.fst) (value : PyValue) :
    set fields key value = fields ++ [(JString.ofString key, value)] := by
  rw [set, assign, if_neg absent]

end PyDict

/-! ### Cleaning a valid block -/

/-- The class of a block. -/
def Contract.InterventionBlock.className : InterventionBlock → String
  | .question _ => "QuestionBlock"
  | .hint _ _ => "HintBlock"
  | .explanation _ _ => "ExplanationBlock"
  | .diagram _ _ _ _ => "DiagramBlock"
  | .activity _ _ _ _ _ => "ActivityBlock"
  | .sources _ => "SourcesBlock"

/-- The fields of a block beside its type. -/
def Contract.InterventionBlock.body : InterventionBlock → List (String × Json)
  | .question text => [("text", .text text)]
  | .hint level text => [("level", .int level), ("text", .text text)]
  | .explanation title text => [("title", .text title), ("text", .text text)]
  | .diagram kind title nodes edges =>
      [("kind", .text kind.text), ("title", .text title),
        ("nodes", .arr (nodes.map DiagramNode.dump)), ("edges", .arr (edges.map DiagramEdge.dump))]
  | .activity questionText options correctOptionId hintText explanationText =>
      [("question", .text questionText), ("options", .arr (options.map ActivityOption.dump)),
        ("correct_option_id", .text correctOptionId), ("hint", .text hintText),
        ("explanation", .text explanationText)]
  | .sources citationIndexes => [("citation_indexes", .arr (citationIndexes.map .int))]

/-- The fields of a block. -/
def Contract.InterventionBlock.entries (block : InterventionBlock) : List (String × Json) :=
  ("type", .text (blockTag block.className)) :: block.body

/-- The tags that the class names give. -/
theorem blockTag_classes :
    blockTag "QuestionBlock" = "question" ∧ blockTag "HintBlock" = "hint" ∧
      blockTag "ExplanationBlock" = "explanation" ∧ blockTag "DiagramBlock" = "diagram" ∧
        blockTag "ActivityBlock" = "activity" ∧ blockTag "SourcesBlock" = "sources" := by
  decide +kernel

theorem dump_eq_entries (block : InterventionBlock) : block.dump = .record block.entries := by
  obtain ⟨question, hint, explanation, diagram, activity, sources⟩ := blockTag_classes
  rw [InterventionBlock.entries]
  cases block with
  | question text => rw [InterventionBlock.className, question]; rfl
  | hint level text => rw [InterventionBlock.className, hint]; rfl
  | explanation title text => rw [InterventionBlock.className, explanation]; rfl
  | diagram kind title nodes edges => rw [InterventionBlock.className, diagram]; rfl
  | activity questionText options correctOptionId hintText explanationText =>
      rw [InterventionBlock.className, activity]; rfl
  | sources citationIndexes => rw [InterventionBlock.className, sources]; rfl

/-- The names of a class's fields. -/
def fieldNames : String → List String
  | "QuestionBlock" => ["type", "text"]
  | "HintBlock" => ["type", "level", "text"]
  | "ExplanationBlock" => ["type", "title", "text"]
  | "DiagramBlock" => ["type", "kind", "title", "nodes", "edges"]
  | "ActivityBlock" => ["type", "question", "options", "correct_option_id", "hint", "explanation"]
  | "SourcesBlock" => ["type", "citation_indexes"]
  | _ => []

theorem className_mem (block : InterventionBlock) :
    block.className ∈ geminiBlockFields.map (·.2) := by
  cases block <;> simp [InterventionBlock.className, geminiBlockFields]

theorem names_entries (block : InterventionBlock) :
    block.entries.map Prod.fst = fieldNames block.className := by
  cases block <;> rfl

/-- A class's tag allows the names of its fields, which are distinct. -/
theorem allowed_of_class : ∀ name ∈ geminiBlockFields.map (·.2),
    entryOf allowedFields (JString.ofString (blockTag name)) = some (fieldNames name) ∧
      (fieldNames name).Nodup := by
  decide +kernel

/-- Cleaning leaves fields alone that are all allowed, whose defaults are not
needed and whose indexes are valid. -/
theorem cleanFields_self {citations : Nat} {tag : JString} {allowed : List String}
    {fields : PyDict} (names : (fields.map Prod.fst).Nodup)
    (known : ∀ field ∈ fields, field.1 ∈ allowed.map JString.ofString)
    (given : ∀ default ∈ (entryOf blockDefaults tag).getD [],
      ∃ value, PyDict.get fields default.1 = some value ∧ value.truthy = true)
    (indexed : tag = JString.ofString "sources" → ∀ indexes,
      PyDict.get fields "citation_indexes" = some (.arr indexes) →
        validIndexes citations indexes = indexes) :
    cleanFields citations tag allowed fields = fields := by
  have filtered : (fields.filter fun field => field.1 ∈ allowed.map JString.ofString) = fields := by
    apply List.filter_eq_self.mpr
    intro field member
    exact decide_eq_true (known field member)
  have withDefaults : ∀ defaults : List (String × PyValue),
      (∀ default ∈ defaults, ∃ value, PyDict.get fields default.1 = some value ∧
        value.truthy = true) → defaults.foldl withDefault fields = fields := by
    intro defaults
    induction defaults with
    | nil => intro _; rfl
    | cons default defaults ih =>
        intro each
        obtain ⟨⟨value, found, truthy⟩, others⟩ := List.forall_mem_cons.mp each
        rw [List.foldl_cons, withDefault, found]
        simp only [truthy, if_true]
        exact ih others
  simp only [cleanFields, filtered, withDefaults _ given]
  unfold withIndexes
  split
  · rename_i isSources
    split
    · rename_i indexes found
      rw [indexed isSources indexes found]
      exact PyDict.set_of_get names found
    · rfl
  · rfl

/-- Indexes of citations are valid as they are. -/
theorem validIndexes_self {citations : Nat} {indexes : List PyValue} (some : indexes ≠ [])
    (each : ∀ index ∈ indexes, isIndex citations index = true) :
    validIndexes citations indexes = indexes := by
  have all : indexes.filter (isIndex citations) = indexes := List.filter_eq_self.mpr each
  have nonempty : indexes.isEmpty = false := by
    cases indexes with
    | nil => exact absurd rfl some
    | cons index indexes => rfl
  simp [validIndexes, all, nonempty]

theorem ofJson_int (value : Int) : PyValue.ofJson (.int value) = .int value :=
  rfl

theorem truthy_text {value : String} (some : 1 ≤ value.length) :
    (PyValue.ofJson (.text value)).truthy = true := by
  have nonempty : JString.ofString value ≠ [] := by
    intro empty
    have size := congrArg List.length empty
    rw [JString.ofString, List.length_map, String.length_toList, List.length_nil] at size
    omega
  cases chars : JString.ofString value with
  | nil => exact absurd chars nonempty
  | cons char rest =>
      have isText : PyValue.ofJson (.text value) = .str (JString.ofString value) := rfl
      rw [isText, chars]
      rfl

theorem get_entries (block : InterventionBlock) (key : String) :
    PyDict.get (PyDict.named block.entries) key = (block.entries.lookup key).map .ofJson :=
  PyDict.get_named block.entries key

/-- A valid block has no need of its defaults. -/
theorem given_of_check {block : InterventionBlock} (checked : block.check = .ok ()) :
    ∀ default ∈ (entryOf blockDefaults (JString.ofString (blockTag block.className))).getD [],
      ∃ value, PyDict.get (PyDict.named block.entries) default.1 = some value ∧
        value.truthy = true := by
  obtain ⟨question, hint, explanation, diagram, activity, sources⟩ := blockTag_classes
  intro default member
  rw [get_entries]
  cases block with
  | question text =>
      simp [InterventionBlock.className, question, entryOf, blockDefaults] at member
  | hint level text =>
      simp only [InterventionBlock.check, bind_eq_ok, failIf_eq_ok] at checked
      obtain ⟨_, positive, _⟩ := checked
      simp [InterventionBlock.className, hint, entryOf, blockDefaults] at member
      subst member
      refine ⟨.ofJson (.int level), rfl, ?_⟩
      rw [ofJson_int]
      exact decide_eq_true (by omega)
  | explanation title text =>
      simp only [InterventionBlock.check, bind_eq_ok, checkText_eq_ok] at checked
      obtain ⟨_, ⟨some, _⟩, _⟩ := checked
      simp [InterventionBlock.className, explanation, entryOf, blockDefaults] at member
      subst member
      exact ⟨.ofJson (.text title), rfl, truthy_text some⟩
  | diagram kind title nodes edges =>
      simp only [InterventionBlock.check, bind_eq_ok, checkText_eq_ok] at checked
      obtain ⟨_, ⟨some, _⟩, _⟩ := checked
      simp [InterventionBlock.className, diagram, entryOf, blockDefaults] at member
      subst member
      exact ⟨.ofJson (.text title), rfl, truthy_text some⟩
  | activity questionText options correctOptionId hintText explanationText =>
      simp [InterventionBlock.className, activity, entryOf, blockDefaults] at member
  | sources citationIndexes =>
      simp [InterventionBlock.className, sources, entryOf, blockDefaults] at member

/-- The indexes of a block are not negative. -/
def Contract.InterventionBlock.Indexed : InterventionBlock → Prop
  | .sources citationIndexes => ∀ index ∈ citationIndexes, 0 ≤ index
  | _ => True

/-- The indexes of a valid sources block are valid as they are. -/
theorem indexed_of_check {citations : Nat} {block : InterventionBlock}
    (checked : block.check = .ok ()) (inside : block.exceeds citations = false)
    (indexed : block.Indexed) (isSources : JString.ofString (blockTag block.className) =
      JString.ofString "sources") (indexes : List PyValue)
    (found : PyDict.get (PyDict.named block.entries) "citation_indexes" = some (.arr indexes)) :
    validIndexes citations indexes = indexes := by
  rw [get_entries] at found
  cases block with
  | sources citationIndexes =>
      simp only [InterventionBlock.check, checkLength_eq_ok] at checked
      have isList : PyValue.ofJson (.arr (citationIndexes.map .int)) =
          .arr (citationIndexes.map PyValue.int) := by
        rw [PyValue.ofJson, PyValue.ofJsonItems_eq, List.map_map]
        exact congrArg Tree.arr (List.map_congr_left fun value _ => ofJson_int value)
      have same : citationIndexes.map PyValue.int = indexes := by
        have isFound : some (PyValue.ofJson (.arr (citationIndexes.map .int))) =
            some (.arr indexes) := found
        rw [isList] at isFound
        exact Tree.arr.inj (Option.some.inj isFound)
      rw [← same]
      apply validIndexes_self
      · intro none
        rw [List.map_eq_nil_iff] at none
        rw [none] at checked
        exact absurd checked.1 (by decide)
      · intro index member
        obtain ⟨value, stored, rfl⟩ := List.mem_map.mp member
        simp only [InterventionBlock.exceeds, List.any_eq_false, decide_eq_true_eq] at inside
        exact decide_eq_true ⟨indexed value stored, by have := inside value stored; omega⟩
  | question text => cases found
  | hint level text => cases found
  | explanation title text => cases found
  | diagram kind title nodes edges => cases found
  | activity questionText options correctOptionId hintText explanationText => cases found

/-- Cleaning leaves a valid block alone. -/
theorem cleanBlock_entries {citations : Nat} {block : InterventionBlock}
    (checked : block.check = .ok ()) (inside : block.exceeds citations = false)
    (indexed : block.Indexed) :
    cleanBlock citations (.obj (PyDict.named block.entries)) =
      .ok (some (.obj (PyDict.named block.entries))) := by
  obtain ⟨allowed, distinct⟩ := allowed_of_class block.className (className_mem block)
  have typed : PyDict.get (PyDict.named block.entries) "type" =
      some (.str (JString.ofString (blockTag block.className))) := by
    rw [get_entries]
    rfl
  have clean : cleanFields citations (JString.ofString (blockTag block.className))
      (fieldNames block.className) (PyDict.named block.entries) = PyDict.named block.entries := by
    apply cleanFields_self
    · exact PyDict.nodup_named (by rw [names_entries]; exact distinct)
    · intro field member
      rw [← names_entries, ← PyDict.names_named]
      exact List.mem_map_of_mem member
    · exact given_of_check checked
    · exact indexed_of_check checked inside indexed
  simp only [cleanBlock, typed, allowed, clean]

/-! ### Cleaning a valid intervention -/

/-- The fields of an intervention. -/
def Contract.InterventionFields.entries (fields : InterventionFields) : List (String × Json) :=
  [("version", .text fields.version.text), ("situation", .text fields.situation.text),
    ("blocks", .arr (fields.blocks.map InterventionBlock.dump)),
    ("citations", .arr (fields.citations.map IntentCitation.dump)),
    ("grounded", .bool fields.grounded)]

theorem nodup_interventionEntries (fields : InterventionFields) :
    (fields.entries.map Prod.fst).Nodup :=
  (by decide +kernel : ["version", "situation", "blocks", "citations", "grounded"].Nodup)

/-- The blocks as decoded. -/
def decodedBlocks (blocks : List InterventionBlock) : List PyValue :=
  blocks.map fun block => .obj (PyDict.named block.entries)

theorem ofJson_blocks (blocks : List InterventionBlock) :
    PyValue.ofJson (.arr (blocks.map InterventionBlock.dump)) = .arr (decodedBlocks blocks) := by
  rw [PyValue.ofJson, PyValue.ofJsonItems_eq, List.map_map, decodedBlocks]
  apply congrArg Tree.arr
  apply List.map_congr_left
  intro block _
  rw [Function.comp_apply, dump_eq_entries, PyDict.ofJson_record]

/-- Cleaning leaves valid blocks alone. -/
theorem cleanBlocks_self {data : PyDict} (names : (data.map Prod.fst).Nodup)
    {blocks : List InterventionBlock}
    (isBlocks : PyDict.get data "blocks" = some (.arr (decodedBlocks blocks)))
    (valid : ∀ block ∈ blocks, block.check = .ok () ∧ block.exceeds (numCitations data) = false ∧
      block.Indexed) :
    cleanBlocks (.obj data) = .ok (.obj data) := by
  have each : (decodedBlocks blocks).mapM (cleanBlock (numCitations data)) =
      .ok (blocks.map fun block => some (.obj (PyDict.named block.entries))) := by
    apply mapM_map_eq_ok
    intro block member
    obtain ⟨checked, inside, indexed⟩ := valid block member
    exact cleanBlock_entries checked inside indexed
  have kept : ((blocks.map fun block => some (Tree.obj (PyDict.named block.entries))).filterMap id) =
      decodedBlocks blocks := by
    rw [List.filterMap_map, decodedBlocks]
    exact congrFun List.filterMap_eq_map blocks
  simp only [cleanBlocks, isBlocks, each, ok_bind, kept]
  rw [PyDict.set_of_get names isBlocks]
  rfl

/-- An intervention is validated from its fields in any order. -/
theorem modelValidate_of_perm (intOfText : JString → Option Int) (intervention : TutorIntervention)
    {data : PyDict} (perm : data.Perm (PyDict.named intervention.entries)) :
    modelValidate intOfText (PyValue.toJson (.obj data)) = .ok intervention := by
  have entriesRecord : (PyDict.named intervention.entries).map
      (fun field => (field.1, PyValue.toJson field.2)) =
        intervention.entries.map fun field => (JString.ofString field.1, field.2) := by
    rw [PyDict.named, List.map_map]
    apply List.map_congr_left
    intro field _
    rw [Function.comp_apply, PyValue.toJson_ofJson]
  have isRecord : IsRecord intervention.toInterventionFields.dump
      ["version", "situation", "blocks", "citations", "grounded"]
      (intervention.entries.map fun field => (JString.ofString field.1, field.2)) :=
    isRecord_of_names rfl
  have recordPerm := perm.map fun field => (field.1, PyValue.toJson field.2)
  rw [entriesRecord] at recordPerm
  have names : ((intervention.entries.map fun field =>
      (JString.ofString field.1, field.2)).map Prod.fst).Nodup := by
    have distinct := (nodup_interventionEntries intervention.toInterventionFields).map
      JString.ofString_injective
    rw [List.map_map] at distinct ⊢
    exact distinct
  have sameGet (key : String) :
      Record.get (data.map fun field => (field.1, PyValue.toJson field.2)) key =
        Record.get (intervention.entries.map fun field => (JString.ofString field.1, field.2)) key := by
    rw [Record.get, Record.get, find?_perm recordPerm names]
  have isRecordData : IsRecord (PyValue.toJson (.obj data))
      ["version", "situation", "blocks", "citations", "grounded"]
      (data.map fun field => (field.1, PyValue.toJson field.2)) := by
    refine ⟨by rw [PyValue.toJson, PyValue.toJsonFields_eq], ?_, ?_⟩
    · intro field member
      exact isRecord.2.1 field (recordPerm.mem_iff.mp member)
    · intro name member
      rw [(recordPerm.map Prod.fst).mem_iff]
      exact isRecord.2.2 name member
  have decoded := InterventionFields.decode_dump intOfText intervention.toInterventionFields
  have sameDecoded : InterventionFields.decode intOfText (PyValue.toJson (.obj data)) =
      .ok intervention.toInterventionFields := by
    unfold InterventionFields.decode at decoded ⊢
    rw [modelFields_eq_ok.mpr isRecord, ok_bind] at decoded
    rw [modelFields_eq_ok.mpr isRecordData, ok_bind]
    simp only [sameGet]
    exact decoded
  rw [modelValidate, sameDecoded, ok_bind]
  exact TutorIntervention.ofFields_eq_ok.mpr rfl

/-- What the checks of an intervention say of each of its blocks. -/
theorem blocks_of_check {intervention : InterventionFields}
    (checked : intervention.check = .ok ()) {block : InterventionBlock}
    (member : block ∈ intervention.blocks) :
    block.check = .ok () ∧ block.exceeds intervention.citations.length = false := by
  have each := (lists_of_check checked).1 block member
  simp only [InterventionFields.check, InterventionFields.coherent, bind_eq_ok,
    failIf_eq_ok] at checked
  obtain ⟨_, _, _, _, _, _, _, _, _, _, _, _, _, inside, _⟩ := checked
  rw [Bool.not_eq_true, List.any_eq_false] at inside
  exact ⟨each, by simpa using inside block member⟩

/-- The first attempt decodes the fields of an intervention in any order. -/
theorem decodeCleaned_of_perm {host : Host} {gemini : Bool} {text : JString} {value : PyValue}
    (loaded : host.loads text = .ok value) {data : PyDict}
    (joined : (if gemini = true then fromGemini value else value) = .obj data)
    {intervention : TutorIntervention} (perm : data.Perm (PyDict.named intervention.entries))
    (indexed : ∀ block ∈ intervention.blocks, block.Indexed) {draft : TutorDraft}
    (drafts : draftFromIntervention intervention.toInterventionFields = .ok draft) :
    decodeCleaned host gemini (.str text) = .ok draft := by
  have names := nodup_interventionEntries intervention.toInterventionFields
  have namesData : (data.map Prod.fst).Nodup :=
    (perm.map Prod.fst).nodup_iff.mpr (PyDict.nodup_named names)
  have found (key : String) : PyDict.get data key = (intervention.entries.lookup key).map .ofJson := by
    rw [PyDict.get_perm perm (PyDict.nodup_named names), PyDict.get_named]
  have isBlocks : PyDict.get data "blocks" = some (.arr (decodedBlocks intervention.blocks)) := by
    rw [found, ← ofJson_blocks]
    rfl
  have citations : numCitations data = intervention.citations.length := by
    have isCitations : PyDict.get data "citations" =
        some (.arr ((intervention.citations.map IntentCitation.dump).map PyValue.ofJson)) := by
      rw [found, ← PyValue.ofJsonItems_eq]
      rfl
    simp [numCitations, isCitations]
  have clean : cleanBlocks (.obj data) = .ok (.obj data) := by
    apply cleanBlocks_self namesData isBlocks
    intro block member
    obtain ⟨checked, inside⟩ := blocks_of_check intervention.checked member
    rw [citations]
    exact ⟨checked, inside, indexed block member⟩
  rw [decodeCleaned, loadsContent, loaded, ok_bind, joined, clean, ok_bind,
    modelValidate_of_perm host.intOfText intervention perm, raising, ok_bind, drafts, raising]

/-! ### Regrouped blocks -/

/-- The intervention with its blocks grouped by class, in the order of the six
lists. -/
def Contract.InterventionFields.regrouped (fields : InterventionFields) : InterventionFields :=
  { fields with
    blocks :=
      grouped InterventionBlock.className (geminiBlockFields.map (·.2)) fields.blocks }

theorem nodup_classes : (geminiBlockFields.map (·.2)).Nodup := by
  decide +kernel

theorem regrouped_perm (fields : InterventionFields) :
    fields.regrouped.blocks.Perm fields.blocks :=
  grouped_perm nodup_classes fun block _ => className_mem block

section Permuted

variable {fields : InterventionFields} {blocks : List InterventionBlock}
  (perm : blocks.Perm fields.blocks)
include perm

/-- The rules of a whole intervention do not depend on the order of its blocks. -/
theorem coherent_perm : ({ fields with blocks } : InterventionFields).coherent = fields.coherent := by
  have primary := (perm.filter InterventionBlock.isPrimaryQuestion).length_eq
  simp only [InterventionFields.coherent, InterventionFields.evidenceRule, perm.any_eq, primary,
    perm.length_eq]

theorem check_perm (checked : fields.check = .ok ()) :
    ({ fields with blocks } : InterventionFields).check = .ok () := by
  obtain ⟨blocksOk, _, _, _⟩ := lists_of_check checked
  simp only [InterventionFields.check, bind_eq_ok] at checked ⊢
  obtain ⟨_, _, _, sizes, citations, citationsOk, _, citationSizes, coherent⟩ := checked
  obtain ⟨results, resultsOk⟩ := exists_mapM_eq_ok_iff.mpr fun block member =>
    blocksOk block (perm.mem_iff.mp member)
  refine ⟨results, resultsOk, (), ?_, citations, citationsOk, (), citationSizes, ?_⟩
  · rw [checkLength_eq_ok] at sizes ⊢
    rw [perm.length_eq]
    exact sizes
  · rw [coherent_perm perm]
    exact coherent

theorem renderedSize_perm :
    ({ fields with blocks } : InterventionFields).renderedSize = fields.renderedSize := by
  have sizes := perm.map InterventionBlock.size
  rw [InterventionFields.renderedSize, InterventionFields.renderedSize, joinedSize, joinedSize,
    sizes.sum_nat, sizes.length_eq]

end Permuted

/-- A valid intervention with its blocks grouped is valid. -/
def Contract.TutorIntervention.regrouped (intervention : TutorIntervention) : TutorIntervention :=
  ⟨intervention.toInterventionFields.regrouped,
    check_perm (regrouped_perm intervention.toInterventionFields) intervention.checked⟩

/-! ### The six typed lists -/

/-- The blocks of one class, without their type. -/
def untypedBlocks (fields : InterventionFields) (className : String) : Json :=
  .arr ((fields.blocks.filter (·.className == className)).map fun block => .record block.body)

/-- The fields of an intervention that come as they are. -/
def Contract.InterventionFields.plainEntries (fields : InterventionFields) : List (String × Json) :=
  [("situation", .text fields.situation.text),
    ("citations", .arr (fields.citations.map IntentCitation.dump)),
    ("grounded", .bool fields.grounded)]

/-- The fields of an intervention split into the six lists. -/
def Contract.InterventionFields.typedLists (fields : InterventionFields) : List (String × Json) :=
  fields.plainEntries ++
    geminiBlockFields.map fun field => (field.1, untypedBlocks fields field.2)

section TypedLists

variable {fields : InterventionFields} {data : PyDict}
  (perm : data.Perm (PyDict.named fields.typedLists))

theorem nodup_typedLists (fields : InterventionFields) : (fields.typedLists.map Prod.fst).Nodup :=
  (by decide +kernel : ["situation", "citations", "grounded", "explanations", "hints", "diagrams",
    "questions", "activities", "source_blocks"].Nodup)

theorem lookup_typedLists (fields : InterventionFields) {field : String × String}
    (member : field ∈ geminiBlockFields) :
    fields.typedLists.lookup field.1 = some (untypedBlocks fields field.2) := by
  simp only [geminiBlockFields, List.mem_cons, List.not_mem_nil, or_false] at member
  rcases member with rfl | rfl | rfl | rfl | rfl | rfl
  · rfl
  · rfl
  · rfl
  · rfl
  · rfl
  · rfl

theorem ofJson_untypedBlocks (fields : InterventionFields) (className : String) :
    PyValue.ofJson (untypedBlocks fields className) =
      .arr ((fields.blocks.filter (·.className == className)).map fun block =>
        .obj (PyDict.named block.body)) := by
  rw [untypedBlocks, PyValue.ofJson, PyValue.ofJsonItems_eq, List.map_map]
  apply congrArg Tree.arr
  apply List.map_congr_left
  intro block _
  rw [Function.comp_apply, PyDict.ofJson_record]

theorem body_without_type (block : InterventionBlock) :
    PyDict.get (PyDict.named block.body) "type" = none := by
  rw [PyDict.get_named]
  cases block <;> rfl

include perm

theorem get_typedLists (key : String) :
    PyDict.get data key = (fields.typedLists.lookup key).map .ofJson := by
  rw [PyDict.get_perm perm (PyDict.nodup_named (nodup_typedLists fields)), PyDict.get_named]

theorem isTypedLists_of_perm : isTypedLists data = true := by
  have noBlocks : PyDict.get data "blocks" = none := by
    rw [get_typedLists perm]
    rfl
  have noVersion : PyDict.get data "version" = none := by
    rw [get_typedLists perm]
    rfl
  have lists : ∀ field ∈ geminiBlockFields, isUntypedList (PyDict.get data field.1) = true := by
    intro field member
    rw [get_typedLists perm, lookup_typedLists fields member, Option.map_some,
      ofJson_untypedBlocks, isUntypedList, List.all_map, List.all_eq_true]
    intro block _
    simp only [Function.comp_apply, body_without_type, Option.isNone_none]
  rw [isTypedLists, noBlocks, noVersion]
  simp only [Option.isNone_none, Bool.and_self, Bool.true_and, List.all_eq_true]
  exact lists

/-- The blocks of a list get the type of their class back. -/
theorem typedBlocks_of_perm {field : String × String} (member : field ∈ geminiBlockFields) :
    typedBlocks data field = decodedBlocks (fields.blocks.filter (·.className == field.2)) := by
  simp only [typedBlocks, get_typedLists perm, lookup_typedLists fields member, Option.map_some,
    ofJson_untypedBlocks, List.map_map, decodedBlocks]
  apply List.map_congr_left
  intro block inGroup
  have isClass : block.className = field.2 := beq_iff_eq.mp (List.mem_filter.mp inGroup).2
  rw [Function.comp_apply, ← isClass]
  rfl

theorem joined_blocks :
    geminiBlockFields.flatMap (typedBlocks data) = decodedBlocks fields.regrouped.blocks := by
  rw [InterventionFields.regrouped, grouped, decodedBlocks, List.map_flatMap, List.flatMap_map]
  apply List.flatMap_congr
  intro field member
  exact typedBlocks_of_perm perm member

/-- Joined, the lists are the fields of the regrouped intervention. -/
theorem joinLists_perm (v2 : fields.version = .v2) :
    (joinLists data).Perm (PyDict.named fields.regrouped.entries) := by
  have kept : (PyDict.without data (geminiBlockFields.map (·.1))).Perm
      (PyDict.named fields.plainEntries) := by
    have filtered := perm.filter fun field =>
      field.1 ∉ (geminiBlockFields.map (·.1)).map JString.ofString
    have plain : (PyDict.named fields.typedLists).filter (fun field =>
        field.1 ∉ (geminiBlockFields.map (·.1)).map JString.ofString) =
          PyDict.named fields.plainEntries := by
      simp [PyDict.named, InterventionFields.typedLists, InterventionFields.plainEntries,
        geminiBlockFields]
    rw [plain] at filtered
    exact filtered
  have names (name : JString) :
      name ∈ (PyDict.without data (geminiBlockFields.map (·.1))).map Prod.fst ↔
        name ∈ (fields.plainEntries.map Prod.fst).map JString.ofString := by
    rw [(kept.map Prod.fst).mem_iff, PyDict.names_named]
  have noBlocks : JString.ofString "blocks" ∉
      (PyDict.without data (geminiBlockFields.map (·.1))).map Prod.fst := by
    rw [names]
    simp [InterventionFields.plainEntries]
  have noVersion (blocks : PyValue) : JString.ofString "version" ∉
      (PyDict.without data (geminiBlockFields.map fun field => field.1) ++
        [(JString.ofString "blocks", blocks)]).map Prod.fst := by
    rw [List.map_append, List.mem_append, names]
    simp [InterventionFields.plainEntries]
  rw [joinLists, joined_blocks perm, PyDict.set_of_absent noBlocks,
    PyDict.set_of_absent (noVersion _)]
  have isText : PyValue.text "tutor-intervention-v2" =
      .ofJson (.text fields.regrouped.version.text) := by
    have version : fields.regrouped.version = .v2 := v2
    rw [version]
    rfl
  rw [← ofJson_blocks, isText]
  refine ((kept.append_right _).append_right _).trans ?_
  -- the version and the blocks move to their places
  refine List.perm_append_comm.trans (.cons _ (.cons _ ?_))
  exact List.perm_append_comm

end TypedLists

/-! ### Decoding is lossless -/

/-- The message of the response holds the content. -/
def Upstream.Delivers (host : Host) (upstream : Upstream) (content : PyValue) : Prop :=
  ∃ body decoded, upstream.body = .ok body ∧ host.loadsBytes body = .ok decoded ∧
    choiceContent decoded = .ok content

theorem generate_of_decodeCleaned {host : Host} {model : ChatCompletionsTutorModel}
    {upstream : Upstream} {content : PyValue} (delivers : upstream.Delivers host content)
    {draft : TutorDraft} (decoded : decodeCleaned host (model.isGemini host) content = .ok draft) :
    model.generate host upstream = .ok draft := by
  obtain ⟨body, value, received, loaded, found⟩ := delivers
  have responded : model.respond host upstream = .ok draft := by
    rw [ChatCompletionsTutorModel.respond, received, ok_bind, loaded, ok_bind, found, ok_bind,
      draftOf, decoded]
  rw [ChatCompletionsTutorModel.generate, responded]

theorem drafts_of_short {intervention : TutorIntervention}
    (short : (equivalentText intervention.toInterventionFields).length ≤ 6000) :
    ∃ draft, draftFromIntervention intervention.toInterventionFields = .ok draft := by
  rw [length_equivalentText] at short
  exact ⟨_, draftFromIntervention_of_fits intervention short⟩

/-- A content that is an intervention is decoded to its draft: as it stands from
an endpoint that is not Gemini's, and from the six lists of one that is, with the
blocks regrouped and each of them as it was. -/
theorem decoding_lossless {host : Host} {model : ChatCompletionsTutorModel} {upstream : Upstream}
    {text : JString} (delivers : upstream.Delivers host (.str text)) {data : PyDict}
    (loaded : host.loads text = .ok (.obj data)) {intervention : TutorIntervention}
    (v2 : intervention.version = .v2) (indexed : ∀ block ∈ intervention.blocks, block.Indexed)
    (short : (equivalentText intervention.toInterventionFields).length ≤ 6000) :
    (model.isGemini host = false → data.Perm (PyDict.named intervention.entries) →
      ∃ draft, draftFromIntervention intervention.toInterventionFields = .ok draft ∧
        model.generate host upstream = .ok draft) ∧
    (model.isGemini host = true → data.Perm (PyDict.named intervention.typedLists) →
      ∃ draft, draftFromIntervention intervention.toInterventionFields.regrouped = .ok draft ∧
        model.generate host upstream = .ok draft ∧
        intervention.toInterventionFields.regrouped.blocks.Perm intervention.blocks ∧
        ∀ name ∈ geminiBlockFields.map (·.2),
          intervention.toInterventionFields.regrouped.blocks.filter (·.className == name) =
            intervention.blocks.filter (·.className == name)) := by
  constructor
  · intro notGemini perm
    obtain ⟨draft, drafts⟩ := drafts_of_short short
    refine ⟨draft, drafts, generate_of_decodeCleaned delivers ?_⟩
    rw [notGemini]
    exact decodeCleaned_of_perm loaded rfl perm indexed drafts
  · intro gemini perm
    have regroupedPerm := regrouped_perm intervention.toInterventionFields
    have shortRegrouped :
        (equivalentText intervention.regrouped.toInterventionFields).length ≤ 6000 := by
      have sameSize := renderedSize_perm regroupedPerm
      rw [length_equivalentText] at short ⊢
      exact sameSize.trans_le short
    obtain ⟨draft, drafts⟩ := drafts_of_short shortRegrouped
    refine ⟨draft, drafts, generate_of_decodeCleaned delivers ?_, regroupedPerm, ?_⟩
    · rw [gemini]
      have joined : (if true = true then fromGemini (.obj data) else .obj data) =
          .obj (joinLists data) := by
        rw [if_pos rfl, fromGemini, if_pos (isTypedLists_of_perm perm)]
      refine decodeCleaned_of_perm loaded joined (joinLists_perm perm v2) ?_ drafts
      intro block member
      exact indexed block (regroupedPerm.mem_iff.mp member)
    · intro name member
      exact filter_grouped nodup_classes member intervention.blocks

/-! ### Guidance in both formats -/

section Sample

/-- Guidance whose blocks and sources come in no particular order. -/
def sampleGuidance : TutorIntervention where
  version := .v2
  situation := .partialProgress
  blocks := [.sources [1, 0, 1], .question "Which is first?", .explanation "Stack" "Last in.",
    .hint 2 "Plates.", .explanation "Queue" "First in."]
  citations := [{ chunkId := UUID.ofNat 10, quote := "last in, first out" },
    { chunkId := UUID.ofNat 11, quote := "first in, first out" }]
  grounded := true
  checked := by decide +kernel

/-- The numerals of natural numbers. -/
def naturalNumeral : PyNumber → List Char
  | .int value => Nat.toDigits 10 value.toNat
  | .float _ => []

/-- The byte of an ASCII character. -/
def asciiByte : JChar → UInt8
  | .scalar char => .ofNat char.toNat
  | .surrogate _ => 0

/-- The bytes that a value is written as. -/
def documentBytes (document : PyValue) : List UInt8 :=
  (write naturalNumeral document).map asciiByte

def isAscii : JChar → Bool
  | .scalar char => decide (char.toNat < 128)
  | .surrogate _ => false

theorem asciiHost_apart : asciiHost.python.Apart := by
  intro word member
  simp only [asciiHost, Host.python, List.mem_cons, List.not_mem_nil, or_false] at member
  rcases member with rfl | rfl | rfl
  · exact ⟨'N', _, rfl, .inl (by decide)⟩
  · exact ⟨'I', _, rfl, .inl (by decide)⟩
  · exact ⟨'-', _, rfl, .inr ⟨rfl, 'I', _, rfl, by decide⟩⟩

/-- What was written with natural numerals is loaded. -/
theorem loads_document {document : PyValue}
    (within : document.Within (JsonText.Numbered naturalNumeral asciiHost.python id) 1000) :
    asciiHost.loads (write naturalNumeral document) = .ok document := by
  have whole := read_write asciiHost_apart within
  rw [map_id_eq] at whole
  have limit : asciiHost.recursionLimit = 1000 := rfl
  rw [Host.loads, limit, whole]

/-- The byte of an ASCII character is decoded to it. -/
theorem decode_asciiByte {char : JChar} (ascii : isAscii char = true) :
    asciiByte char < 128 ∧ JChar.scalar (.ofNat (asciiByte char).toNat) = char := by
  cases char with
  | surrogate unit => cases ascii
  | scalar char =>
      have small : char.toNat < 128 := of_decide_eq_true ascii
      have code : (asciiByte (.scalar char)).toNat = char.toNat := by
        rw [asciiByte, UInt8.toNat_ofNat', Nat.mod_eq_of_lt (by omega)]
      refine ⟨UInt8.lt_iff_toNat_lt.mpr (by rw [code]; exact small), ?_⟩
      rw [code, Char.ofNat_toNat]

/-- The bytes of an ASCII text are decoded to it. -/
theorem decode_documentBytes {document : PyValue}
    (ascii : (write naturalNumeral document).all isAscii = true) :
    asciiHost.decode (documentBytes document) = some (write naturalNumeral document) := by
  rw [List.all_eq_true] at ascii
  have small : (documentBytes document).all (· < 128) = true := by
    rw [documentBytes, List.all_map, List.all_eq_true]
    exact fun char member => decide_eq_true (decode_asciiByte (ascii char member)).1
  have decoded : (documentBytes document).map (fun byte => JChar.scalar (.ofNat byte.toNat)) =
      write naturalNumeral document := by
    rw [documentBytes, List.map_map]
    exact (List.map_congr_left fun char member => (decode_asciiByte (ascii char member)).2).trans
      (List.map_id _)
  change (if (documentBytes document).all (· < 128) = true then some _ else none) = _
  rw [if_pos small, decoded]

theorem loadsBytes_document {document : PyValue}
    (within : document.Within (JsonText.Numbered naturalNumeral asciiHost.python id) 1000)
    (ascii : (write naturalNumeral document).all isAscii = true) :
    asciiHost.loadsBytes (documentBytes document) = .ok document := by
  rw [Host.loadsBytes, decode_documentBytes ascii]
  exact loads_document within

/-- The value that a finished choice with the content is decoded to. -/
def choiceOf (content : JString) : PyValue :=
  .obj [(JString.ofString "choices",
    .arr [.obj [(JString.ofString "finish_reason", PyValue.text "stop"),
      (JString.ofString "message", .obj [(JString.ofString "content", .str content)])]])]

/-- A response with the content. -/
def responseOf (content : JString) : Upstream :=
  .response 200 [documentBytes (choiceOf content)] false

theorem delivers_responseOf {content : JString}
    (sent : (write naturalNumeral (choiceOf content)).length ≤ 128000 ∧
      (write naturalNumeral (choiceOf content)).all isAscii = true) :
    (responseOf content).Delivers asciiHost (.str content) := by
  have short : (documentBytes (choiceOf content)).length ≤ 128000 := by
    rw [documentBytes, List.length_map]
    exact sent.1
  refine ⟨documentBytes (choiceOf content), choiceOf content, ?_, loadsBytes_document ?_ sent.2, ?_⟩
  · rw [responseOf, Upstream.body, if_pos (by decide), receiveParts, List.nil_append,
      if_neg (Nat.not_lt.mpr short)]
    rfl
  · refine .obj (by simp) ?_
    simp only [List.forall_mem_singleton]
    refine .arr ?_
    simp only [List.forall_mem_singleton]
    refine .obj (by simp) ?_
    refine List.forall_mem_cons.mpr ⟨.str _, ?_⟩
    simp only [List.forall_mem_singleton]
    refine .obj (by simp) ?_
    simp only [List.forall_mem_singleton]
    exact .str _
  · simp [choiceContent, choiceOf, PyValue.item, PyValue.first, PyValue.lookup, PyValue.isText,
      PyValue.text, PyDict.get, PyValue.truthy, bind, Except.bind, failIf]

/-- The guidance as another endpoint sends it, and as Gemini's does, with the
fields the other way round. -/
theorem decoding_lossless_of_guidance :
    (∃ draft, draftFromIntervention sampleGuidance.toInterventionFields = .ok draft ∧
      (ChatCompletionsTutorModel.mk "endpoint" "tutor").generate asciiHost
        (responseOf (write naturalNumeral
          (.obj (PyDict.named sampleGuidance.entries).reverse))) = .ok draft) ∧
    (∃ draft, draftFromIntervention sampleGuidance.toInterventionFields.regrouped = .ok draft ∧
      (ChatCompletionsTutorModel.mk "endpoint" "gemini").generate asciiHost
        (responseOf (write naturalNumeral
          (.obj (PyDict.named sampleGuidance.typedLists).reverse))) = .ok draft) ∧
    sampleGuidance.toInterventionFields.regrouped.blocks =
      [.explanation "Stack" "Last in.", .explanation "Queue" "First in.", .hint 2 "Plates.",
        .question "Which is first?", .sources [1, 0, 1]] := by
  have indexed : ∀ block ∈ sampleGuidance.blocks, block.Indexed := by
    simp [sampleGuidance, InterventionBlock.Indexed]
  refine ⟨?_, ?_, by decide +kernel⟩
  · exact (decoding_lossless (delivers_responseOf (by decide +kernel))
      (loads_document (by decide +kernel)) rfl indexed (by decide +kernel)).1
      (by decide +kernel) (List.reverse_perm _)
  · have gemini : (ChatCompletionsTutorModel.mk "endpoint" "gemini").isGemini asciiHost = true := by
      decide +kernel
    obtain ⟨draft, drafts, generated, _⟩ :=
      (decoding_lossless (delivers_responseOf (by decide +kernel))
        (loads_document (by decide +kernel)) rfl indexed (by decide +kernel)).2 gemini
        (List.reverse_perm _)
    exact ⟨draft, drafts, generated⟩

end Sample

end Docta
