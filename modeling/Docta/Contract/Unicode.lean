/-
Module: Docta.Contract.Unicode
Purpose: A value the client accepts mirrors a value of the service, up to the
  letter case of identifiers, exactly when it holds no unpaired surrogate.
Trusted boundary: none
Main exports: Json.unicode_obj_iff, block_unicode_iff, intervention_unicode_iff
-/
import Docta.Contract.Mirror

namespace Docta.Contract

open Fallible

/-! ### Unicode values -/

theorem Json.unicode_str_iff {text : JString} :
    (Json.str text).Unicode ↔ ∃ source : String, JString.ofString source = text := by
  constructor
  · intro unicode
    cases unicode with
    | str scalars =>
        obtain ⟨chars, charsEq⟩ := scalars
        exact ⟨String.ofList chars, by simp [JString.ofString, JString.toText?_eq_some.mp charsEq]⟩
  · rintro ⟨source, rfl⟩
    exact .str ⟨_, JString.toText?_ofString source⟩

theorem Json.unicode_arr_iff {items : List Json} :
    (Json.arr items).Unicode ↔ ∀ item ∈ items, item.Unicode := by
  constructor
  · intro unicode
    cases unicode with
    | arr each => exact each
  · exact .arr

@[simp] theorem Json.unicode_int (value : Int) : (Json.int value).Unicode := .int value

@[simp] theorem Json.unicode_bool (value : Bool) : (Json.bool value).Unicode := .bool value

/-- An object with exactly the given names holds Unicode text when each named
value does. -/
theorem Json.unicode_obj_iff {value : Json} {names : List String} {record : Record}
    (isRecord : IsRecord value names record) (distinct : value.DistinctKeys) :
    value.Unicode ↔ ∀ name ∈ names, ∀ found, record.get name = some found → found.Unicode := by
  obtain ⟨rfl, known, present⟩ := isRecord
  cases distinct with
  | obj nodup each =>
      constructor
      · intro unicode name member found foundEq
        cases unicode with
        | obj eachUnicode => exact eachUnicode _ (Record.mem_of_get foundEq)
      · intro named
        refine .obj fun field member => ?_
        obtain ⟨name, nameMember, nameEq⟩ := List.mem_map.mp (known field member)
        refine named name nameMember field.2 (Record.get_of_mem nodup ?_)
        rw [nameEq]
        exact member

/-- The value of a field of an object with distinct keys has distinct keys. -/
theorem Json.distinctKeys_of_get {value : Json} {names : List String} {record : Record}
    (isRecord : IsRecord value names record) (distinct : value.DistinctKeys) {name : String}
    {found : Json} (foundEq : record.get name = some found) : found.DistinctKeys := by
  obtain ⟨rfl, _, _⟩ := isRecord
  cases distinct with
  | obj nodup each => exact each _ (Record.mem_of_get foundEq)

theorem Json.distinctKeys_of_mem {items : List Json} (distinct : (Json.arr items).DistinctKeys)
    {item : Json} (member : item ∈ items) : item.DistinctKeys := by
  cases distinct with
  | arr each => exact each item member

/-! ### The values the client reads -/

/-- A traversed list holds Unicode text exactly when its results have a preimage. -/
theorem unicode_iff_of_mapM {α β : Type} {parse : Json → Except Web.ContractError β}
    {image : α → β}
    (pointwise : ∀ item result, item.DistinctKeys → parse item = .ok result →
      (item.Unicode ↔ ∃ source, image source = result)) :
    ∀ {items : List Json} {found : List β}, (Json.arr items).DistinctKeys →
      items.mapM parse = .ok found →
      ((∀ item ∈ items, item.Unicode) ↔ ∃ sources : List α, sources.map image = found)
  | [], found, _, parsed => by
      simp only [List.mapM_nil, pure_eq_ok] at parsed
      subst parsed
      simp
  | item :: items, found, distinct, parsed => by
      simp only [List.mapM_cons, bind_eq_ok, pure_eq_ok] at parsed
      obtain ⟨result, itemOk, rest, restOk, rfl⟩ := parsed
      have head := pointwise item result (Json.distinctKeys_of_mem distinct List.mem_cons_self) itemOk
      have tail := unicode_iff_of_mapM pointwise
        (.arr fun other member => Json.distinctKeys_of_mem distinct (List.mem_cons_of_mem _ member))
        restOk
      rw [List.forall_mem_cons, head, tail]
      constructor
      · rintro ⟨⟨source, rfl⟩, sources, rfl⟩
        exact ⟨source :: sources, rfl⟩
      · rintro ⟨sources, mapped⟩
        cases sources with
        | nil => simp at mapped
        | cons source sources =>
            rw [List.map_cons, List.cons.injEq] at mapped
            exact ⟨⟨source, mapped.1⟩, sources, mapped.2⟩

theorem node_unicode_iff {item : Json} {found : Web.DiagramNode} (distinct : item.DistinctKeys)
    (parsed : Web.node item = .ok found) :
    item.Unicode ↔ ∃ node : DiagramNode, node.mirror = found := by
  simp only [Web.node, Web.failWhen, bind_eq_ok, failIf_eq_ok, pure_eq_ok] at parsed
  obtain ⟨record, recordOk, id, idOk, _, _, label, labelOk, rfl⟩ := parsed
  rw [Json.unicode_obj_iff (Web.obj_eq_ok.mp recordOk) distinct]
  simp only [List.forall_mem_cons, (Web.str_eq_ok.mp idOk).1, (Web.str_eq_ok.mp labelOk).1,
    Option.some.injEq, forall_eq', Json.unicode_str_iff]
  constructor
  · rintro ⟨⟨id, rfl⟩, ⟨label, rfl⟩, _⟩
    exact ⟨{ id, label }, rfl⟩
  · rintro ⟨node, mirrored⟩
    cases mirrored
    exact ⟨⟨_, rfl⟩, ⟨_, rfl⟩, by simp⟩

theorem edge_unicode_iff {ids : List JString} {item : Json} {found : Web.DiagramEdge}
    (distinct : item.DistinctKeys) (parsed : Web.edge ids item = .ok found) :
    item.Unicode ↔ ∃ edge : DiagramEdge, edge.mirror = found := by
  simp only [Web.edge, Web.failWhen, bind_eq_ok, failIf_eq_ok, pure_eq_ok] at parsed
  obtain ⟨record, recordOk, source, sourceOk, target, targetOk, _, _, label, labelOk, rfl⟩ := parsed
  rw [Json.unicode_obj_iff (Web.obj_eq_ok.mp recordOk) distinct]
  simp only [List.forall_mem_cons, (Web.str_eq_ok.mp sourceOk).1, (Web.str_eq_ok.mp targetOk).1,
    (Web.str_eq_ok.mp labelOk).1, Option.some.injEq, forall_eq', Json.unicode_str_iff]
  constructor
  · rintro ⟨⟨source, rfl⟩, ⟨target, rfl⟩, ⟨label, rfl⟩, _⟩
    exact ⟨{ source, target, label }, rfl⟩
  · rintro ⟨edge, mirrored⟩
    cases mirrored
    exact ⟨⟨_, rfl⟩, ⟨_, rfl⟩, ⟨_, rfl⟩, by simp⟩

theorem option_unicode_iff {item : Json} {found : Web.ActivityOption}
    (distinct : item.DistinctKeys) (parsed : Web.option item = .ok found) :
    item.Unicode ↔ ∃ option : ActivityOption, option.mirror = found := by
  simp only [Web.option, Web.failWhen, bind_eq_ok, failIf_eq_ok, pure_eq_ok] at parsed
  obtain ⟨record, recordOk, id, idOk, _, _, text, textOk, rfl⟩ := parsed
  rw [Json.unicode_obj_iff (Web.obj_eq_ok.mp recordOk) distinct]
  simp only [List.forall_mem_cons, (Web.str_eq_ok.mp idOk).1, (Web.str_eq_ok.mp textOk).1,
    Option.some.injEq, forall_eq', Json.unicode_str_iff]
  constructor
  · rintro ⟨⟨id, rfl⟩, ⟨text, rfl⟩, _⟩
    exact ⟨{ id, text }, rfl⟩
  · rintro ⟨option, mirrored⟩
    cases mirrored
    exact ⟨⟨_, rfl⟩, ⟨_, rfl⟩, by simp⟩

/-- A number the client reads holds no text. -/
theorem unicode_of_integer? {value : Json} {found : Int}
    (parsed : Web.integer? (some value) = some found) : value.Unicode := by
  unfold Web.integer? at parsed
  split at parsed
  · rename_i number numberEq
    cases numberEq
    exact .int number
  · rename_i number numberEq
    cases numberEq
    exact .float number
  · simp at parsed

theorem index_unicode {item : Json} {found : Int} (parsed : Web.citationIndex item = .ok found) :
    item.Unicode := by
  unfold Web.citationIndex at parsed
  split at parsed
  · rename_i number numberEq
    exact unicode_of_integer? numberEq
  · simp at parsed

theorem level_unicode {value : Option Json} {found : Int} (parsed : Web.hintLevel value = .ok found)
    (json : Json) (valueEq : value = some json) : json.Unicode := by
  subst valueEq
  unfold Web.hintLevel at parsed
  split at parsed
  · rename_i number numberEq
    exact unicode_of_integer? numberEq
  · simp at parsed

theorem diagramKind_unicode {value : Option Json} {found : DiagramKind}
    (parsed : Web.diagramKind value = .ok found) (json : Json) (valueEq : value = some json) :
    json.Unicode := by
  have decoded := (diagramKind_spec parsed found).mpr rfl
  subst valueEq
  unfold decodeLiteral at decoded
  split at decoded
  · rename_i text textEq
    cases textEq
    split at decoded
    · rename_i item itemEq
      exact Json.unicode_str_iff.mpr ⟨item.text, by simpa using List.find?_some itemEq⟩
    · simp at decoded
  · simp at decoded

/-- The tag of a block is the value of its `type`. -/
theorem get_type_of_typeTag {value : Json} {names : List String} {record : Record} {tag : JString}
    (isRecord : IsRecord value names record) (tagEq : typeTag value = some tag) :
    record.get "type" = some (.str tag) := by
  obtain ⟨rfl, _, _⟩ := isRecord
  simp only [typeTag] at tagEq
  split at tagEq
  · rename_i text textEq
    cases tagEq
    exact textEq
  · simp at tagEq

section Kinds

variable {value : Json} {found : Web.Block}

theorem question_unicode_iff (tag : typeTag value = some (JString.ofString "question"))
    (distinct : value.DistinctKeys) (parsed : Web.block value = .ok found) :
    value.Unicode ↔ ∃ block : InterventionBlock, block.mirror = found := by
  simp only [Web.block, tag, if_true, bind_eq_ok, pure_eq_ok] at parsed
  obtain ⟨record, recordOk, text, textOk, rfl⟩ := parsed
  have isRecord := Web.obj_eq_ok.mp recordOk
  rw [Json.unicode_obj_iff isRecord distinct]
  simp only [List.forall_mem_cons, get_type_of_typeTag isRecord tag, (Web.str_eq_ok.mp textOk).1,
    Option.some.injEq, forall_eq', Json.unicode_str_iff]
  constructor
  · rintro ⟨_, ⟨text, rfl⟩, _⟩
    exact ⟨.question text, rfl⟩
  · rintro ⟨block, mirrored⟩
    cases block <;> cases mirrored
    exact ⟨⟨_, rfl⟩, ⟨_, rfl⟩, by simp⟩

theorem hint_unicode_iff (tag : typeTag value = some (JString.ofString "hint"))
    (distinct : value.DistinctKeys) (parsed : Web.block value = .ok found) :
    value.Unicode ↔ ∃ block : InterventionBlock, block.mirror = found := by
  simp only [Web.block, tag, Option.some.injEq, JString.ofString_inj, String.reduceEq, if_false,
    if_true, bind_eq_ok, pure_eq_ok] at parsed
  obtain ⟨record, recordOk, level, levelOk, text, textOk, rfl⟩ := parsed
  have isRecord := Web.obj_eq_ok.mp recordOk
  rw [Json.unicode_obj_iff isRecord distinct]
  simp only [List.forall_mem_cons, get_type_of_typeTag isRecord tag, (Web.str_eq_ok.mp textOk).1,
    Option.some.injEq, forall_eq', Json.unicode_str_iff]
  constructor
  · rintro ⟨_, _, ⟨text, rfl⟩, _⟩
    exact ⟨.hint level text, rfl⟩
  · rintro ⟨block, mirrored⟩
    cases block <;> cases mirrored
    exact ⟨⟨_, rfl⟩, level_unicode levelOk, ⟨_, rfl⟩, by simp⟩

theorem explanation_unicode_iff (tag : typeTag value = some (JString.ofString "explanation"))
    (distinct : value.DistinctKeys) (parsed : Web.block value = .ok found) :
    value.Unicode ↔ ∃ block : InterventionBlock, block.mirror = found := by
  simp only [Web.block, tag, Option.some.injEq, JString.ofString_inj, String.reduceEq, if_false,
    if_true, bind_eq_ok, pure_eq_ok] at parsed
  obtain ⟨record, recordOk, title, titleOk, text, textOk, rfl⟩ := parsed
  have isRecord := Web.obj_eq_ok.mp recordOk
  rw [Json.unicode_obj_iff isRecord distinct]
  simp only [List.forall_mem_cons, get_type_of_typeTag isRecord tag, (Web.str_eq_ok.mp titleOk).1,
    (Web.str_eq_ok.mp textOk).1, Option.some.injEq, forall_eq', Json.unicode_str_iff]
  constructor
  · rintro ⟨_, ⟨title, rfl⟩, ⟨text, rfl⟩, _⟩
    exact ⟨.explanation title text, rfl⟩
  · rintro ⟨block, mirrored⟩
    cases block <;> cases mirrored
    exact ⟨⟨_, rfl⟩, ⟨_, rfl⟩, ⟨_, rfl⟩, by simp⟩

theorem diagram_unicode_iff (tag : typeTag value = some (JString.ofString "diagram"))
    (distinct : value.DistinctKeys) (parsed : Web.block value = .ok found) :
    value.Unicode ↔ ∃ block : InterventionBlock, block.mirror = found := by
  simp only [Web.block, Web.failWhen, tag, Option.some.injEq, JString.ofString_inj,
    String.reduceEq, if_false, if_true, bind_eq_ok, pure_eq_ok, failIf_eq_ok] at parsed
  obtain ⟨record, recordOk, kind, kindOk, nodeItems, nodeItemsOk, nodes, nodesOk, _, _,
    edgeItems, edgeItemsOk, edges, edgesOk, title, titleOk, rfl⟩ := parsed
  have isRecord := Web.obj_eq_ok.mp recordOk
  have nodesEq := (Web.list_eq_ok.mp nodeItemsOk).1
  have edgesEq := (Web.list_eq_ok.mp edgeItemsOk).1
  have nodesUnicode := unicode_iff_of_mapM (fun _ _ each ok => node_unicode_iff each ok)
    (Json.distinctKeys_of_get isRecord distinct nodesEq) nodesOk
  have edgesUnicode := unicode_iff_of_mapM (fun _ _ each ok => edge_unicode_iff each ok)
    (Json.distinctKeys_of_get isRecord distinct edgesEq) edgesOk
  rw [Json.unicode_obj_iff isRecord distinct]
  simp only [List.forall_mem_cons, get_type_of_typeTag isRecord tag, (Web.str_eq_ok.mp titleOk).1,
    nodesEq, edgesEq, Option.some.injEq, forall_eq', Json.unicode_str_iff, Json.unicode_arr_iff,
    nodesUnicode, edgesUnicode]
  constructor
  · rintro ⟨_, _, ⟨title, rfl⟩, ⟨nodes, rfl⟩, ⟨edges, rfl⟩, _⟩
    exact ⟨.diagram kind title nodes edges, rfl⟩
  · rintro ⟨block, mirrored⟩
    cases block <;> cases mirrored
    exact ⟨⟨_, rfl⟩, diagramKind_unicode kindOk, ⟨_, rfl⟩, ⟨_, rfl⟩, ⟨_, rfl⟩, by simp⟩

theorem sources_unicode_iff (tag : typeTag value = some (JString.ofString "sources"))
    (distinct : value.DistinctKeys) (parsed : Web.block value = .ok found) :
    value.Unicode ↔ ∃ block : InterventionBlock, block.mirror = found := by
  simp only [Web.block, tag, Option.some.injEq, JString.ofString_inj, String.reduceEq, if_false,
    if_true, bind_eq_ok, pure_eq_ok] at parsed
  obtain ⟨record, recordOk, items, itemsOk, indexes, indexesOk, rfl⟩ := parsed
  have isRecord := Web.obj_eq_ok.mp recordOk
  have eachUnicode : ∀ item ∈ items, item.Unicode := by
    intro item member
    obtain ⟨_, _, itemOk⟩ := exists_result_of_mapM_ok indexesOk member
    exact index_unicode itemOk
  rw [Json.unicode_obj_iff isRecord distinct]
  simp only [List.forall_mem_cons, get_type_of_typeTag isRecord tag, (Web.list_eq_ok.mp itemsOk).1,
    Option.some.injEq, forall_eq', Json.unicode_str_iff, Json.unicode_arr_iff]
  constructor
  · intro _
    exact ⟨.sources indexes, rfl⟩
  · intro _
    exact ⟨⟨_, rfl⟩, eachUnicode, by simp⟩

theorem activity_unicode_iff (tag : typeTag value = some (JString.ofString "activity"))
    (distinct : value.DistinctKeys) (parsed : Web.block value = .ok found) :
    value.Unicode ↔ ∃ block : InterventionBlock, block.mirror = found := by
  simp only [Web.block, Web.failWhen, tag, Option.some.injEq, JString.ofString_inj,
    String.reduceEq, if_false, if_true, bind_eq_ok, pure_eq_ok, failIf_eq_ok] at parsed
  obtain ⟨record, recordOk, items, itemsOk, options, optionsOk, _, _, correct, correctOk, _, _,
    questionText, questionOk, hintText, hintOk, explanationText, explanationOk, rfl⟩ := parsed
  have isRecord := Web.obj_eq_ok.mp recordOk
  have itemsEq := (Web.list_eq_ok.mp itemsOk).1
  have optionsUnicode := unicode_iff_of_mapM (fun _ _ each ok => option_unicode_iff each ok)
    (Json.distinctKeys_of_get isRecord distinct itemsEq) optionsOk
  rw [Json.unicode_obj_iff isRecord distinct]
  simp only [List.forall_mem_cons, get_type_of_typeTag isRecord tag,
    (Web.str_eq_ok.mp questionOk).1, itemsEq, (Web.str_eq_ok.mp correctOk).1,
    (Web.str_eq_ok.mp hintOk).1, (Web.str_eq_ok.mp explanationOk).1, Option.some.injEq, forall_eq',
    Json.unicode_str_iff, Json.unicode_arr_iff, optionsUnicode]
  constructor
  · rintro ⟨_, ⟨questionText, rfl⟩, ⟨options, rfl⟩, ⟨correct, rfl⟩, ⟨hintText, rfl⟩,
      ⟨explanationText, rfl⟩, _⟩
    exact ⟨.activity questionText options correct hintText explanationText, rfl⟩
  · rintro ⟨block, mirrored⟩
    cases block <;> cases mirrored
    exact ⟨⟨_, rfl⟩, ⟨_, rfl⟩, ⟨_, rfl⟩, ⟨_, rfl⟩, ⟨_, rfl⟩, ⟨_, rfl⟩, by simp⟩

/-- A block the client accepts mirrors a block of the service exactly when it
holds Unicode text. -/
theorem block_unicode_iff (distinct : value.DistinctKeys) (parsed : Web.block value = .ok found) :
    value.Unicode ↔ ∃ block : InterventionBlock, block.mirror = found := by
  by_cases question : typeTag value = some (JString.ofString "question")
  · exact question_unicode_iff question distinct parsed
  by_cases hint : typeTag value = some (JString.ofString "hint")
  · exact hint_unicode_iff hint distinct parsed
  by_cases explanation : typeTag value = some (JString.ofString "explanation")
  · exact explanation_unicode_iff explanation distinct parsed
  by_cases diagram : typeTag value = some (JString.ofString "diagram")
  · exact diagram_unicode_iff diagram distinct parsed
  by_cases sources : typeTag value = some (JString.ofString "sources")
  · exact sources_unicode_iff sources distinct parsed
  by_cases activity : typeTag value = some (JString.ofString "activity")
  · exact activity_unicode_iff activity distinct parsed
  · simp [Web.block, question, hint, explanation, diagram, sources, activity] at parsed

end Kinds

theorem citation_unicode_iff {item : Json} {found : Web.InterventionCitation}
    (distinct : item.DistinctKeys) (parsed : Web.citation item = .ok found) :
    item.Unicode ↔ ∃ citation : IntentCitation, citation.mirror = found.foldCase := by
  simp only [Web.citation, Web.failWhen, bind_eq_ok, failIf_eq_ok, pure_eq_ok,
    Bool.not_eq_false] at parsed
  obtain ⟨record, recordOk, id, idOk, _, pattern, quote, quoteOk, rfl⟩ := parsed
  obtain ⟨chars, read, textEq, readEq⟩ := UUID.matchesPattern_iff.mp pattern
  have idUnicode : ∃ source, JString.ofString source = id :=
    ⟨String.ofList chars, by simp [JString.ofString, JString.toText?_eq_some.mp textEq]⟩
  have folded := (uuid_spec pattern read).mp
    (by simp [decodeUUID, textEq, UUID.parse?_of_canonical readEq])
  rw [Json.unicode_obj_iff (Web.obj_eq_ok.mp recordOk) distinct]
  simp only [List.forall_mem_cons, (Web.str_eq_ok.mp idOk).1, (Web.str_eq_ok.mp quoteOk).1,
    Option.some.injEq, forall_eq', Json.unicode_str_iff]
  constructor
  · rintro ⟨_, ⟨quote, rfl⟩, _⟩
    exact ⟨{ chunkId := read, quote }, by
      simp [IntentCitation.mirror, Web.InterventionCitation.foldCase, folded]⟩
  · rintro ⟨citation, mirrored⟩
    simp only [IntentCitation.mirror, Web.InterventionCitation.foldCase,
      Web.InterventionCitation.mk.injEq] at mirrored
    exact ⟨idUnicode, ⟨_, mirrored.2⟩, by simp⟩

theorem version_unicode {value : Option Json} {found : ContractVersion}
    (parsed : Web.version value = .ok found) (json : Json) (valueEq : value = some json) :
    json.Unicode := by
  subst valueEq
  unfold Web.version at parsed
  split at parsed
  · rename_i text textEq
    cases textEq
    split at parsed
    · rename_i isSecond
      exact Json.unicode_str_iff.mpr ⟨_, isSecond.symm⟩
    · split at parsed
      · rename_i isFirst
        exact Json.unicode_str_iff.mpr ⟨_, isFirst.symm⟩
      · simp at parsed
  · simp at parsed

theorem situation_unicode {value : Option Json} {found : Situation}
    (parsed : Web.situation value = .ok found) (json : Json) (valueEq : value = some json) :
    json.Unicode := by
  subst valueEq
  unfold Web.situation at parsed
  split at parsed
  · rename_i text textEq
    cases textEq
    split at parsed
    · rename_i item itemEq
      exact Json.unicode_str_iff.mpr ⟨item.text, by simpa using List.find?_some itemEq⟩
    · simp at parsed
  · simp at parsed

theorem grounded_unicode {value : Option Json} {found : Bool}
    (parsed : Web.grounded value = .ok found) (json : Json) (valueEq : value = some json) :
    json.Unicode := by
  subst valueEq
  unfold Web.grounded at parsed
  split at parsed
  · rename_i value valueEq
    cases valueEq
    exact .bool value
  · simp at parsed

/-- A value the client accepts mirrors the fields of the service, up to letter
case, exactly when it holds Unicode text. -/
theorem intervention_unicode_iff {value : Json} {found : Web.TutorIntervention}
    (distinct : value.DistinctKeys) (parsed : Web.parseIntervention value = .ok found) :
    value.Unicode ↔ ∃ fields : InterventionFields, fields.mirror = found.foldCase := by
  simp only [Web.parseIntervention, Web.failWhen, bind_eq_ok, failIf_eq_ok, pure_eq_ok] at parsed
  obtain ⟨record, recordOk, version, versionOk, situation, situationOk, grounded, groundedOk,
    blockItems, blockItemsOk, blocks, blocksOk, _, _, citationItems, citationItemsOk, citations,
    citationsOk, _, _, _, _, _, _, rfl⟩ := parsed
  have isRecord := Web.obj_eq_ok.mp recordOk
  have blocksEq := (Web.list_eq_ok.mp blockItemsOk).1
  have citationsEq := (Web.list_eq_ok.mp citationItemsOk).1
  have foldedOk : citationItems.mapM (fun item =>
      Web.InterventionCitation.foldCase <$> Web.citation item) =
        .ok (citations.map Web.InterventionCitation.foldCase) := mapM_map_result citationsOk
  have blocksUnicode := unicode_iff_of_mapM (fun _ _ each ok => block_unicode_iff each ok)
    (Json.distinctKeys_of_get isRecord distinct blocksEq) blocksOk
  have citationsUnicode : (∀ item ∈ citationItems, item.Unicode) ↔
      ∃ sources : List IntentCitation, sources.map IntentCitation.mirror =
        citations.map Web.InterventionCitation.foldCase := by
    refine unicode_iff_of_mapM (fun item result each ok => ?_)
      (Json.distinctKeys_of_get isRecord distinct citationsEq) foldedOk
    obtain ⟨citation, citationOk, rfl⟩ := map_eq_ok.mp ok
    exact citation_unicode_iff each citationOk
  rw [Json.unicode_obj_iff isRecord distinct]
  simp only [List.forall_mem_cons, blocksEq, citationsEq, Option.some.injEq, forall_eq',
    Json.unicode_arr_iff, blocksUnicode, citationsUnicode]
  constructor
  · rintro ⟨_, _, ⟨blocks, rfl⟩, ⟨citations, citationsMirror⟩, _⟩
    exact ⟨{ version, situation, blocks, citations, grounded }, by
      simp [InterventionFields.mirror, Web.TutorIntervention.foldCase, citationsMirror]⟩
  · rintro ⟨fields, mirrored⟩
    simp only [InterventionFields.mirror, Web.TutorIntervention.foldCase,
      Web.TutorIntervention.mk.injEq] at mirrored
    obtain ⟨_, _, blocksMirror, citationsMirror, _⟩ := mirrored
    exact ⟨version_unicode versionOk, situation_unicode situationOk, ⟨_, blocksMirror⟩,
      ⟨_, citationsMirror⟩, grounded_unicode groundedOk, by simp⟩

/-! ### The length of quotes -/

/-- Every citation quote of the value has at least ten code points. -/
def Json.QuotesFit (value : Json) : Prop :=
  ∀ record items citation quote, value = .obj record →
    Record.get record "citations" = some (.arr items) → .obj citation ∈ items →
      Record.get citation "quote" = some (.str quote) → 10 ≤ quote.length

theorem quotesFit_iff {value : Json} {found : Web.TutorIntervention}
    (parsed : Web.parseIntervention value = .ok found) :
    value.QuotesFit ↔ ∀ citation ∈ found.citations, 10 ≤ citation.quote.length := by
  simp only [Web.parseIntervention, Web.failWhen, bind_eq_ok, failIf_eq_ok, pure_eq_ok] at parsed
  obtain ⟨record, recordOk, version, versionOk, situation, situationOk, grounded, groundedOk,
    blockItems, blockItemsOk, blocks, blocksOk, _, _, citationItems, citationItemsOk, citations,
    citationsOk, _, _, _, _, _, _, rfl⟩ := parsed
  obtain ⟨rfl, _, _⟩ := Web.obj_eq_ok.mp recordOk
  have citationsEq := (Web.list_eq_ok.mp citationItemsOk).1
  have quoteOf : ∀ item citation, Web.citation item = .ok citation →
      ∃ fields, item = .obj fields ∧ Record.get fields "quote" = some (.str citation.quote) := by
    intro item citation itemOk
    simp only [Web.citation, Web.failWhen, bind_eq_ok, failIf_eq_ok, pure_eq_ok] at itemOk
    obtain ⟨fields, fieldsOk, _, _, _, _, quote, quoteOk, rfl⟩ := itemOk
    exact ⟨fields, (Web.obj_eq_ok.mp fieldsOk).1, (Web.str_eq_ok.mp quoteOk).1⟩
  constructor
  · intro fits citation member
    obtain ⟨item, itemMember, itemOk⟩ := exists_item_of_mapM_ok citationsOk member
    obtain ⟨fields, rfl, quoteEq⟩ := quoteOf item citation itemOk
    exact fits record citationItems fields citation.quote rfl citationsEq itemMember quoteEq
  · intro longEnough other items fields quote sameRecord itemsEq member quoteEq
    cases sameRecord
    cases citationsEq.symm.trans itemsEq
    obtain ⟨citation, citationMember, itemOk⟩ := exists_result_of_mapM_ok citationsOk member
    obtain ⟨_, sameFields, foundQuote⟩ := quoteOf _ citation itemOk
    cases sameFields
    cases foundQuote.symm.trans quoteEq
    exact longEnough citation citationMember

end Docta.Contract
