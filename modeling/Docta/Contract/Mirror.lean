/-
Module: Docta.Contract.Mirror
Purpose: What the client's parser accepts, told in terms of the service's
  contract: a value the client reads is decoded by the service to exactly the
  fields that mirror to it, and these pass the service's checks except for the
  length of a quote.
Trusted boundary: none
Main exports: InterventionFields.mirror, InterventionFields.FitsWeb, block_spec,
  citation_spec, fields_spec
-/
import Docta.Contract.WebContract
import Docta.Contract.Decoding

namespace Docta.Contract

open Fallible

-- A quantifier over a list is decided along the list, not over all characters.
attribute [local instance (high)] List.decidableBAll

/-! ### A service value as the client sees it -/

def DiagramNode.mirror (node : DiagramNode) : Web.DiagramNode :=
  { id := node.id, label := node.label }

def DiagramEdge.mirror (edge : DiagramEdge) : Web.DiagramEdge :=
  { source := edge.source, target := edge.target, label := edge.label }

def ActivityOption.mirror (option : ActivityOption) : Web.ActivityOption :=
  { id := option.id, text := option.text }

def IntentCitation.mirror (citation : IntentCitation) : Web.InterventionCitation :=
  { chunkId := citation.chunkId.text, quote := citation.quote }

def InterventionBlock.mirror : InterventionBlock → Web.Block
  | .question text => .question text
  | .hint level text => .hint level text
  | .explanation title text => .explanation title text
  | .diagram kind title nodes edges =>
      .diagram kind title (nodes.map DiagramNode.mirror) (edges.map DiagramEdge.mirror)
  | .activity questionText options correct hintText explanationText =>
      .activity questionText (options.map ActivityOption.mirror) correct hintText explanationText
  | .sources citationIndexes => .sources citationIndexes

def InterventionFields.mirror (fields : InterventionFields) : Web.TutorIntervention where
  version := fields.version
  situation := fields.situation
  blocks := fields.blocks.map InterventionBlock.mirror
  citations := fields.citations.map IntentCitation.mirror
  grounded := fields.grounded

/-! ### The limits only the client checks -/

/-- JavaScript's length of a Python string. -/
def webLength (text : String) : Nat :=
  (JString.ofString text).utf16Length

/-- No text of the block is longer in UTF-16 units than its bound, and no
citation index is negative. -/
def InterventionBlock.FitsWeb : InterventionBlock → Prop
  | .question text => webLength text ≤ 600
  | .hint _ text => webLength text ≤ 600
  | .explanation title text => webLength title ≤ 120 ∧ webLength text ≤ 1500
  | .diagram _ title nodes edges =>
      webLength title ≤ 120 ∧ (∀ node ∈ nodes, webLength node.label ≤ 80) ∧
        ∀ edge ∈ edges, webLength edge.label ≤ 80
  | .activity questionText options _ hintText explanationText =>
      webLength questionText ≤ 600 ∧ (∀ option ∈ options, webLength option.text ≤ 600) ∧
        webLength hintText ≤ 600 ∧ webLength explanationText ≤ 1500
  | .sources citationIndexes => ∀ index ∈ citationIndexes, 0 ≤ index

/-- The condition under which the client accepts what the service stores. -/
def InterventionFields.FitsWeb (fields : InterventionFields) : Prop :=
  (∀ block ∈ fields.blocks, block.FitsWeb) ∧
    ∀ citation ∈ fields.citations, webLength citation.quote ≤ 1600

instance InterventionBlock.decidableFitsWeb : ∀ block : InterventionBlock, Decidable block.FitsWeb
  | .question text => inferInstanceAs (Decidable (webLength text ≤ 600))
  | .hint _ text => inferInstanceAs (Decidable (webLength text ≤ 600))
  | .explanation title text =>
      inferInstanceAs (Decidable (webLength title ≤ 120 ∧ webLength text ≤ 1500))
  | .diagram _ title nodes edges =>
      inferInstanceAs (Decidable (webLength title ≤ 120 ∧
        (∀ node ∈ nodes, webLength node.label ≤ 80) ∧ ∀ edge ∈ edges, webLength edge.label ≤ 80))
  | .activity questionText options _ hintText explanationText =>
      inferInstanceAs (Decidable (webLength questionText ≤ 600 ∧
        (∀ option ∈ options, webLength option.text ≤ 600) ∧
          webLength hintText ≤ 600 ∧ webLength explanationText ≤ 1500))
  | .sources citationIndexes =>
      inferInstanceAs (Decidable (∀ index ∈ citationIndexes, 0 ≤ index))

instance InterventionFields.decidableFitsWeb (fields : InterventionFields) :
    Decidable fields.FitsWeb :=
  inferInstanceAs (Decidable (_ ∧ _))

/-! ### Reading the same field twice -/

theorem Web.obj_eq_ok {value : Json} {names : List String} {record : Record} :
    Web.obj value names = .ok record ↔ IsRecord value names record := by
  cases value with
  | obj fields =>
      simp only [Web.obj, IsRecord, Json.obj.injEq]
      constructor
      · intro parsed
        split at parsed
        · simp at parsed
        · rename_i known
          split at parsed
          · simp at parsed
          · rename_i present
            simp only [Except.ok.injEq] at parsed
            subst parsed
            refine ⟨rfl, fun field member => ?_, fun name member => ?_⟩
            · simpa only [decide_eq_true_eq, Decidable.not_not] using
                List.find?_eq_none.mp known field member
            · simpa only [decide_eq_true_eq, Decidable.not_not] using
                List.find?_eq_none.mp present name member
      · rintro ⟨rfl, known, present⟩
        have noUnknown : fields.find? (fun field => field.1 ∉ names.map JString.ofString) = none :=
          List.find?_eq_none.mpr fun field member => by
            simpa only [decide_eq_true_eq, Decidable.not_not] using known field member
        have noMissing : names.find? (fun key => JString.ofString key ∉ fields.map Prod.fst) = none :=
          List.find?_eq_none.mpr fun name member => by
            simpa only [decide_eq_true_eq, Decidable.not_not] using present name member
        rw [noUnknown, noMissing]
  | _ => simp [Web.obj, IsRecord]

theorem Web.str_eq_ok {value : Option Json} {min max : Nat} {text : JString} :
    Web.str value min max = .ok text ↔
      value = some (.str text) ∧ min ≤ text.utf16Length ∧ text.utf16Length ≤ max := by
  unfold Web.str
  split
  · rename_i found
    split
    · rename_i outside
      simp only [reduceCtorEq, Option.some.injEq, Json.str.injEq, false_iff]
      rintro ⟨rfl, atLeast, atMost⟩
      omega
    · rename_i inside
      simp only [Except.ok.injEq, Option.some.injEq, Json.str.injEq]
      constructor
      · rintro rfl
        exact ⟨rfl, by omega, by omega⟩
      · exact And.left
  · rename_i notText
    simp only [reduceCtorEq, false_iff]
    rintro ⟨rfl, _⟩
    exact notText _ rfl

/-- Text the client read is read by the service as the text it mirrors. -/
theorem decodeText_of_str {value : Option Json} {min max : Nat} {found : JString}
    (parsed : Web.str value min max = .ok found) (text : String) :
    decodeText value = .ok text ↔ JString.ofString text = found := by
  obtain ⟨rfl, _⟩ := Web.str_eq_ok.mp parsed
  rw [decodeText_eq_ok]
  simp [eq_comm]

/-- Bounds the client checked in UTF-16 units hold in code points, when the
lower one is at most one. -/
theorem checkText_of_str {value : Option Json} {min max : Nat} {text : String}
    (small : min ≤ 1) (parsed : Web.str value min max = .ok (JString.ofString text)) :
    checkText min max text = .ok () ∧ webLength text ≤ max := by
  obtain ⟨_, atLeast, atMost⟩ := Web.str_eq_ok.mp parsed
  have shorter := JString.length_le_utf16Length text
  rw [JString.length_ofString] at shorter
  refine ⟨checkText_eq_ok.mpr ⟨?_, by omega⟩, atMost⟩
  rcases Nat.le_one_iff_eq_zero_or_eq_one.mp small with rfl | rfl
  · exact Nat.zero_le _
  · simpa using JString.one_le_utf16Length_iff.mp atLeast

theorem Web.list_eq_ok {value : Option Json} {min max : Nat} {items : List Json} :
    Web.list value min max = .ok items ↔
      value = some (.arr items) ∧ min ≤ items.length ∧ items.length ≤ max := by
  unfold Web.list
  split
  · rename_i found
    split
    · rename_i outside
      simp only [reduceCtorEq, Option.some.injEq, Json.arr.injEq, false_iff]
      rintro ⟨rfl, atLeast, atMost⟩
      omega
    · rename_i inside
      simp only [Except.ok.injEq, Option.some.injEq, Json.arr.injEq]
      constructor
      · rintro rfl
        exact ⟨rfl, by omega, by omega⟩
      · exact And.left
  · rename_i notList
    simp only [reduceCtorEq, false_iff]
    rintro ⟨rfl, _⟩
    exact notList _ rfl

/-- The id pattern reads the same on both sides. -/
theorem isNodeId_mirror (id : String) :
    Web.isNodeId (JString.ofString id) = isNodeId id := by
  unfold isNodeId JString.ofString
  cases id.toList with
  | nil => rfl
  | cons first rest => simp [Web.isNodeId, Function.comp_def]

/-- A small integer that the client read is the one the service decodes. -/
theorem decodeInt_of_integer? {intOfText : JString → Option Int} {value : Option Json} {found : Int}
    (parsed : Web.integer? value = some found) (small : found.natAbs < 2 ^ 63) (decoded : Int) :
    decodeInt intOfText value = .ok decoded ↔ decoded = found := by
  unfold Web.integer? at parsed
  split at parsed
  · simp only [Option.some.injEq] at parsed
    subst parsed
    simp [decodeInt, eq_comm]
  · split at parsed
    · rename_i whole
      simp only [Option.some.injEq] at parsed
      subst parsed
      simp only [decodeInt, whole, ne_eq, not_true_eq_false, if_false, if_pos small,
        Except.ok.injEq]
      exact eq_comm
    · simp at parsed
  · simp at parsed

/-! ### The parts of a block, element by element

Each statement has two halves for a value the client accepted: what the service
decodes from it is exactly what mirrors to the client's value, and any service
value that mirrors to it passes the service's checks within the client's limits. -/

theorem modelFields_of_obj {value : Json} {names : List String} {record : Record}
    (parsed : Web.obj value names = .ok record) : modelFields value names = .ok record :=
  modelFields_eq_ok.mpr (Web.obj_eq_ok.mp parsed)

theorem node_spec {item : Json} {found : Web.DiagramNode} (parsed : Web.node item = .ok found) :
    (∀ node, DiagramNode.decode item = .ok node ↔ node.mirror = found) ∧
      ∀ node : DiagramNode, node.mirror = found →
        node.check = .ok () ∧ webLength node.label ≤ 80 := by
  simp only [Web.node, Web.failWhen, bind_eq_ok, failIf_eq_ok, pure_eq_ok] at parsed
  obtain ⟨record, recordOk, id, idOk, _, pattern, label, labelOk, rfl⟩ := parsed
  constructor
  · intro node
    simp only [DiagramNode.decode, modelFields_of_obj recordOk, ok_bind, bind_eq_ok, pure_eq_ok,
      decodeText_of_str idOk, decodeText_of_str labelOk]
    constructor
    · rintro ⟨id, rfl, label, rfl, rfl⟩
      rfl
    · intro mirrored
      cases mirrored
      exact ⟨_, rfl, _, rfl, rfl⟩
  · intro node mirrored
    cases mirrored
    obtain ⟨labelBounds, labelFits⟩ := checkText_of_str (Nat.le_refl 1) labelOk
    rw [isNodeId_mirror] at pattern
    simp only [DiagramNode.check, bind_eq_ok, checkNodeId_eq_ok]
    exact ⟨⟨(), by simpa using pattern, labelBounds⟩, labelFits⟩

theorem edge_spec {ids : List JString} {item : Json} {found : Web.DiagramEdge}
    (parsed : Web.edge ids item = .ok found) :
    (∀ edge, DiagramEdge.decode item = .ok edge ↔ edge.mirror = found) ∧
      ∀ edge : DiagramEdge, edge.mirror = found →
        (edge.check = .ok () ∧ webLength edge.label ≤ 80) ∧
          JString.ofString edge.source ∈ ids ∧ JString.ofString edge.target ∈ ids := by
  simp only [Web.edge, Web.failWhen, bind_eq_ok, failIf_eq_ok, pure_eq_ok, not_or,
    Decidable.not_not] at parsed
  obtain ⟨record, recordOk, source, sourceOk, target, targetOk, _, known, label, labelOk, rfl⟩ :=
    parsed
  constructor
  · intro edge
    simp only [DiagramEdge.decode, modelFields_of_obj recordOk, ok_bind, bind_eq_ok, pure_eq_ok,
      decodeText_of_str sourceOk, decodeText_of_str targetOk, decodeText_of_str labelOk]
    constructor
    · rintro ⟨source, rfl, target, rfl, label, rfl, rfl⟩
      rfl
    · intro mirrored
      cases mirrored
      exact ⟨_, rfl, _, rfl, _, rfl, rfl⟩
  · intro edge mirrored
    cases mirrored
    exact ⟨checkText_of_str (Nat.zero_le 1) labelOk, known⟩

theorem option_spec {item : Json} {found : Web.ActivityOption}
    (parsed : Web.option item = .ok found) :
    (∀ option, ActivityOption.decode item = .ok option ↔ option.mirror = found) ∧
      ∀ option : ActivityOption, option.mirror = found →
        option.check = .ok () ∧ webLength option.text ≤ 600 := by
  simp only [Web.option, Web.failWhen, bind_eq_ok, failIf_eq_ok, pure_eq_ok] at parsed
  obtain ⟨record, recordOk, id, idOk, _, pattern, text, textOk, rfl⟩ := parsed
  constructor
  · intro option
    simp only [ActivityOption.decode, modelFields_of_obj recordOk, ok_bind, bind_eq_ok, pure_eq_ok,
      decodeText_of_str idOk, decodeText_of_str textOk]
    constructor
    · rintro ⟨id, rfl, text, rfl, rfl⟩
      rfl
    · intro mirrored
      cases mirrored
      exact ⟨_, rfl, _, rfl, rfl⟩
  · intro option mirrored
    cases mirrored
    obtain ⟨textBounds, textFits⟩ := checkText_of_str (Nat.le_refl 1) textOk
    rw [isNodeId_mirror] at pattern
    simp only [ActivityOption.check, bind_eq_ok, checkNodeId_eq_ok]
    exact ⟨⟨(), by simpa using pattern, textBounds⟩, textFits⟩

theorem index_spec (intOfText : JString → Option Int) {item : Json} {found : Int}
    (parsed : Web.citationIndex item = .ok found) :
    (found < 5 → ∀ index, decodeInt intOfText (some item) = .ok index ↔ index = found) ∧
      0 ≤ found := by
  unfold Web.citationIndex at parsed
  split at parsed
  · rename_i number numberEq
    split at parsed
    · simp at parsed
    · rename_i nonnegative
      simp only [Except.ok.injEq] at parsed
      subst parsed
      exact ⟨fun small => decodeInt_of_integer? numberEq (by omega), by omega⟩
  · simp at parsed

theorem level_spec (intOfText : JString → Option Int) {value : Option Json} {found : Int}
    (parsed : Web.hintLevel value = .ok found) :
    (∀ level, decodeInt intOfText value = .ok level ↔ level = found) ∧ 1 ≤ found ∧ found ≤ 3 := by
  unfold Web.hintLevel at parsed
  split at parsed
  · rename_i number numberEq
    split at parsed
    · simp at parsed
    · rename_i inside
      simp only [Except.ok.injEq] at parsed
      subst parsed
      exact ⟨decodeInt_of_integer? numberEq (by omega), by omega⟩
  · simp at parsed

/-- A list the client traversed is decoded by the service to what mirrors to it. -/
theorem decodeList_of_mapM {α β : Type} {value : Option Json} {min max : Nat} {items : List Json}
    {parse : Json → Except Web.ContractError β} {decode : Json → Except ValidationError α}
    {image : α → β} {found : List β} (listOk : Web.list value min max = .ok items)
    (parsed : items.mapM parse = .ok found)
    (pointwise : ∀ item, ∀ result ∈ found, parse item = .ok result →
      ∀ other, decode item = .ok other ↔ image other = result) (decoded : List α) :
    decodeList decode value = .ok decoded ↔ decoded.map image = found := by
  obtain ⟨rfl, _⟩ := Web.list_eq_ok.mp listOk
  exact mapM_ok_iff_map_eq parsed pointwise decoded

/-- What holds of every parsed element holds of every value that mirrors to one. -/
theorem forall_of_mapM {α β : Type} {items : List Json}
    {parse : Json → Except Web.ContractError β} {image : α → β} {others : List α}
    {property : α → Prop} (parsed : items.mapM parse = .ok (others.map image))
    (pointwise : ∀ item result, parse item = .ok result →
      ∀ other, image other = result → property other) : ∀ other ∈ others, property other := by
  intro other member
  obtain ⟨item, _, itemOk⟩ :=
    exists_item_of_mapM_ok parsed (List.mem_map_of_mem (f := image) member)
  exact pointwise item _ itemOk other rfl

/-! ### Blocks, one kind at a time -/

/-- What `block_spec` states of a value the client accepted: what it decodes to, where
no index is past the most citations there may be, and what mirrors to it. -/
def BlockAgrees (intOfText : JString → Option Int) (value : Json) (found : Web.Block) : Prop :=
  (found.exceeds 5 = false → ∀ block,
      InterventionBlock.decode intOfText value = .ok block ↔ block.mirror = found) ∧
    ∀ block : InterventionBlock, block.mirror = found → block.check = .ok () ∧ block.FitsWeb

section Kinds

variable (intOfText : JString → Option Int) {value : Json} {found : Web.Block}

theorem question_spec (tag : typeTag value = some (JString.ofString "question"))
    (parsed : Web.block value = .ok found) : BlockAgrees intOfText value found := by
  simp only [Web.block, tag, if_true, bind_eq_ok, pure_eq_ok] at parsed
  obtain ⟨record, recordOk, text, textOk, rfl⟩ := parsed
  constructor
  · intro _ block
    simp only [InterventionBlock.decode, tag, if_true, modelFields_of_obj recordOk, ok_bind,
      bind_eq_ok, pure_eq_ok, decodeText_of_str textOk]
    constructor
    · rintro ⟨text, rfl, rfl⟩
      rfl
    · intro mirrored
      cases block <;> cases mirrored
      exact ⟨_, rfl, rfl⟩
  · intro block mirrored
    cases block <;> cases mirrored
    exact checkText_of_str (Nat.le_refl 1) textOk

theorem hint_spec (tag : typeTag value = some (JString.ofString "hint"))
    (parsed : Web.block value = .ok found) : BlockAgrees intOfText value found := by
  simp only [Web.block, tag, Option.some.injEq, JString.ofString_inj, String.reduceEq, if_false,
    if_true, bind_eq_ok, pure_eq_ok] at parsed
  obtain ⟨record, recordOk, level, levelOk, text, textOk, rfl⟩ := parsed
  obtain ⟨levelDecoded, atLeast, atMost⟩ := level_spec intOfText levelOk
  constructor
  · intro _ block
    simp only [InterventionBlock.decode, tag, Option.some.injEq, JString.ofString_inj,
      String.reduceEq, if_false, if_true, modelFields_of_obj recordOk, ok_bind, bind_eq_ok,
      pure_eq_ok, decodeText_of_str textOk, levelDecoded]
    constructor
    · rintro ⟨level, rfl, text, rfl, rfl⟩
      rfl
    · intro mirrored
      cases block <;> cases mirrored
      exact ⟨_, rfl, _, rfl, rfl⟩
  · intro block mirrored
    cases block <;> cases mirrored
    obtain ⟨textBounds, textFits⟩ := checkText_of_str (Nat.le_refl 1) textOk
    simp only [InterventionBlock.check, bind_eq_ok, failIf_eq_ok]
    exact ⟨⟨(), by omega, (), by omega, textBounds⟩, textFits⟩

theorem explanation_spec (tag : typeTag value = some (JString.ofString "explanation"))
    (parsed : Web.block value = .ok found) : BlockAgrees intOfText value found := by
  simp only [Web.block, tag, Option.some.injEq, JString.ofString_inj, String.reduceEq, if_false,
    if_true, bind_eq_ok, pure_eq_ok] at parsed
  obtain ⟨record, recordOk, title, titleOk, text, textOk, rfl⟩ := parsed
  constructor
  · intro _ block
    simp only [InterventionBlock.decode, tag, Option.some.injEq, JString.ofString_inj,
      String.reduceEq, if_false, if_true, modelFields_of_obj recordOk, ok_bind, bind_eq_ok,
      pure_eq_ok, decodeText_of_str titleOk, decodeText_of_str textOk]
    constructor
    · rintro ⟨title, rfl, text, rfl, rfl⟩
      rfl
    · intro mirrored
      cases block <;> cases mirrored
      exact ⟨_, rfl, _, rfl, rfl⟩
  · intro block mirrored
    cases block <;> cases mirrored
    obtain ⟨titleBounds, titleFits⟩ := checkText_of_str (Nat.le_refl 1) titleOk
    obtain ⟨textBounds, textFits⟩ := checkText_of_str (Nat.le_refl 1) textOk
    simp only [InterventionBlock.check, bind_eq_ok]
    exact ⟨⟨(), titleBounds, textBounds⟩, titleFits, textFits⟩

theorem diagramKind_spec {value : Option Json} {found : DiagramKind}
    (parsed : Web.diagramKind value = .ok found) (kind : DiagramKind) :
    decodeLiteral DiagramKind.text DiagramKind.all value = .ok kind ↔ kind = found := by
  unfold Web.diagramKind at parsed
  split at parsed
  · split at parsed
    · rename_i isSequence
      simp only [Except.ok.injEq] at parsed
      subst parsed isSequence
      simp [decodeLiteral, DiagramKind.all, DiagramKind.text, eq_comm]
    · split at parsed
      · rename_i isRelations
        simp only [Except.ok.injEq] at parsed
        subst parsed isRelations
        simp [decodeLiteral, DiagramKind.all, DiagramKind.text, eq_comm]
      · simp at parsed
  · simp at parsed

/-- Mirrored names are distinct exactly when the names are. -/
theorem nodup_mirror {α : Type} {items : List α} {name : α → String} :
    (items.map fun item => JString.ofString (name item)).Nodup ↔ (items.map name).Nodup := by
  rw [show (items.map fun item => JString.ofString (name item)) =
    (items.map name).map JString.ofString by simp]
  exact List.nodup_map_iff JString.ofString_injective

/-- A mirrored name occurs exactly when the name does. -/
theorem mem_mirror {α : Type} {items : List α} {name : α → String} {text : String} :
    JString.ofString text ∈ items.map (fun item => JString.ofString (name item)) ↔
      text ∈ items.map name := by
  simp

theorem diagram_spec (tag : typeTag value = some (JString.ofString "diagram"))
    (parsed : Web.block value = .ok found) : BlockAgrees intOfText value found := by
  simp only [Web.block, Web.failWhen, tag, Option.some.injEq, JString.ofString_inj,
    String.reduceEq, if_false, if_true, bind_eq_ok, pure_eq_ok, failIf_eq_ok,
    Decidable.not_not] at parsed
  obtain ⟨record, recordOk, kind, kindOk, nodeItems, nodeItemsOk, nodes, nodesOk, _, distinct,
    edgeItems, edgeItemsOk, edges, edgesOk, title, titleOk, rfl⟩ := parsed
  have nodesDecoded := decodeList_of_mapM nodeItemsOk nodesOk fun _ _ _ itemOk => (node_spec itemOk).1
  have edgesDecoded := decodeList_of_mapM edgeItemsOk edgesOk fun _ _ _ itemOk => (edge_spec itemOk).1
  constructor
  · intro _ block
    simp only [InterventionBlock.decode, tag, Option.some.injEq, JString.ofString_inj,
      String.reduceEq, if_false, if_true, modelFields_of_obj recordOk, ok_bind, bind_eq_ok,
      pure_eq_ok, diagramKind_spec kindOk, decodeText_of_str titleOk, nodesDecoded, edgesDecoded]
    constructor
    · rintro ⟨kind, rfl, title, rfl, nodes, rfl, edges, rfl, rfl⟩
      rfl
    · intro mirrored
      cases block <;> cases mirrored
      exact ⟨_, rfl, _, rfl, _, rfl, _, rfl, rfl⟩
  · intro block mirrored
    cases block <;> cases mirrored
    rename_i title serviceNodes serviceEdges
    obtain ⟨titleBounds, titleFits⟩ := checkText_of_str (Nat.le_refl 1) titleOk
    have eachNode := forall_of_mapM nodesOk fun _ _ itemOk => (node_spec itemOk).2
    have eachEdge := forall_of_mapM edgesOk fun _ _ itemOk => (edge_spec itemOk).2
    have nodeCount := (Web.list_eq_ok.mp nodeItemsOk).2
    have edgeCount := (Web.list_eq_ok.mp edgeItemsOk).2
    rw [← length_eq_of_mapM_ok nodesOk, List.length_map] at nodeCount
    rw [← length_eq_of_mapM_ok edgesOk, List.length_map] at edgeCount
    simp only [List.map_map, Function.comp_def, DiagramNode.mirror] at distinct eachEdge
    simp only [InterventionBlock.check, bind_eq_ok, failIf_eq_ok, Decidable.not_not,
      checkLength_eq_ok]
    obtain ⟨nodesChecked, nodesCheckedOk⟩ :=
      exists_mapM_eq_ok_iff.mpr fun node member => (eachNode node member).1
    obtain ⟨edgesChecked, edgesCheckedOk⟩ :=
      exists_mapM_eq_ok_iff.mpr fun edge member => (eachEdge edge member).1.1
    refine ⟨⟨(), titleBounds, nodesChecked, nodesCheckedOk, (), nodeCount, edgesChecked,
      edgesCheckedOk, (), edgeCount, (), nodup_mirror.mp distinct, ?_⟩, titleFits,
      fun node member => (eachNode node member).2, fun edge member => (eachEdge edge member).1.2⟩
    rintro ⟨edge, member, unknown⟩
    obtain ⟨sourceKnown, targetKnown⟩ := (eachEdge edge member).2
    exact unknown.elim (· (mem_mirror.mp sourceKnown)) (· (mem_mirror.mp targetKnown))

theorem sources_spec (tag : typeTag value = some (JString.ofString "sources"))
    (parsed : Web.block value = .ok found) : BlockAgrees intOfText value found := by
  simp only [Web.block, tag, Option.some.injEq, JString.ofString_inj, String.reduceEq, if_false,
    if_true, bind_eq_ok, pure_eq_ok] at parsed
  obtain ⟨record, recordOk, items, itemsOk, indexes, indexesOk, rfl⟩ := parsed
  constructor
  · intro within block
    have small : ∀ index ∈ indexes, index < 5 := by
      simpa [Web.Block.exceeds] using within
    have decoded : ∀ decoded, decodeList (fun item => decodeInt intOfText (some item))
        (record.get "citation_indexes") = .ok decoded ↔ decoded.map id = indexes :=
      decodeList_of_mapM itemsOk indexesOk fun _ index member itemOk =>
        (index_spec intOfText itemOk).1 (small index member)
    simp only [InterventionBlock.decode, tag, Option.some.injEq, JString.ofString_inj,
      String.reduceEq, if_false, if_true, modelFields_of_obj recordOk, ok_bind, bind_eq_ok,
      pure_eq_ok, decoded, List.map_id]
    constructor
    · rintro ⟨indexes, rfl, rfl⟩
      rfl
    · intro mirrored
      cases block <;> cases mirrored
      exact ⟨_, rfl, rfl⟩
  · intro block mirrored
    cases block <;> cases mirrored
    have count := (Web.list_eq_ok.mp itemsOk).2
    rw [← length_eq_of_mapM_ok indexesOk] at count
    refine ⟨checkLength_eq_ok.mpr count, fun index member => ?_⟩
    obtain ⟨item, _, itemOk⟩ := exists_item_of_mapM_ok indexesOk member
    exact (index_spec intOfText itemOk).2

theorem activity_spec (tag : typeTag value = some (JString.ofString "activity"))
    (parsed : Web.block value = .ok found) : BlockAgrees intOfText value found := by
  simp only [Web.block, Web.failWhen, tag, Option.some.injEq, JString.ofString_inj,
    String.reduceEq, if_false, if_true, bind_eq_ok, pure_eq_ok, failIf_eq_ok, not_or,
    Decidable.not_not] at parsed
  obtain ⟨record, recordOk, items, itemsOk, options, optionsOk, _, ⟨distinctIds, distinctTexts⟩,
    correct, correctOk, _, known, questionText, questionOk, hintText, hintOk, explanationText,
    explanationOk, rfl⟩ := parsed
  have optionsDecoded := decodeList_of_mapM itemsOk optionsOk fun _ _ _ itemOk => (option_spec itemOk).1
  constructor
  · intro _ block
    simp only [InterventionBlock.decode, tag, Option.some.injEq, JString.ofString_inj,
      String.reduceEq, if_false, if_true, modelFields_of_obj recordOk, ok_bind, bind_eq_ok,
      pure_eq_ok, decodeText_of_str questionOk, optionsDecoded, decodeText_of_str correctOk,
      decodeText_of_str hintOk, decodeText_of_str explanationOk]
    constructor
    · rintro ⟨questionText, rfl, options, rfl, correct, rfl, hintText, rfl, explanationText, rfl,
        rfl⟩
      rfl
    · intro mirrored
      cases block <;> cases mirrored
      exact ⟨_, rfl, _, rfl, _, rfl, _, rfl, _, rfl, rfl⟩
  · intro block mirrored
    cases block <;> cases mirrored
    obtain ⟨questionBounds, questionFits⟩ := checkText_of_str (Nat.le_refl 1) questionOk
    obtain ⟨hintBounds, hintFits⟩ := checkText_of_str (Nat.le_refl 1) hintOk
    obtain ⟨explanationBounds, explanationFits⟩ := checkText_of_str (Nat.le_refl 1) explanationOk
    have eachOption := forall_of_mapM optionsOk fun _ _ itemOk => (option_spec itemOk).2
    have count := (Web.list_eq_ok.mp itemsOk).2
    rw [← length_eq_of_mapM_ok optionsOk, List.length_map] at count
    simp only [List.map_map, Function.comp_def, ActivityOption.mirror] at distinctIds known
    simp only [List.map_map, Function.comp_def, ActivityOption.mirror] at distinctTexts
    simp only [InterventionBlock.check, bind_eq_ok, failIf_eq_ok, Decidable.not_not, not_or,
      checkLength_eq_ok]
    obtain ⟨checked, checkedOk⟩ :=
      exists_mapM_eq_ok_iff.mpr fun option member => (eachOption option member).1
    exact ⟨⟨(), questionBounds, checked, checkedOk, (), count, (), hintBounds, (),
      explanationBounds, (), ⟨nodup_mirror.mp distinctIds, nodup_mirror.mp distinctTexts⟩,
      mem_mirror.mp known⟩, questionFits, fun option member => (eachOption option member).2,
      hintFits, explanationFits⟩

/-- A block the client accepted is decoded by the service to exactly the block
that mirrors to it, and such a block passes the service's checks. -/
theorem block_spec (parsed : Web.block value = .ok found) : BlockAgrees intOfText value found := by
  by_cases question : typeTag value = some (JString.ofString "question")
  · exact question_spec intOfText question parsed
  by_cases hint : typeTag value = some (JString.ofString "hint")
  · exact hint_spec intOfText hint parsed
  by_cases explanation : typeTag value = some (JString.ofString "explanation")
  · exact explanation_spec intOfText explanation parsed
  by_cases diagram : typeTag value = some (JString.ofString "diagram")
  · exact diagram_spec intOfText diagram parsed
  by_cases sources : typeTag value = some (JString.ofString "sources")
  · exact sources_spec intOfText sources parsed
  by_cases activity : typeTag value = some (JString.ofString "activity")
  · exact activity_spec intOfText activity parsed
  · simp [Web.block, question, hint, explanation, diagram, sources, activity] at parsed

end Kinds

/-! ### Citations and the letter case of identifiers -/

/-- Lower-case ASCII letters; other characters stay. -/
def JString.foldCase (text : JString) : JString :=
  text.map fun char =>
    match char with
    | .scalar char => .scalar char.toLower
    | .surrogate index => .surrogate index

def Web.InterventionCitation.foldCase (citation : Web.InterventionCitation) :
    Web.InterventionCitation :=
  { citation with chunkId := citation.chunkId.foldCase }

/-- The intervention with its chunk identifiers in lower case. -/
def Web.TutorIntervention.foldCase (intervention : Web.TutorIntervention) : Web.TutorIntervention :=
  { intervention with citations := intervention.citations.map Web.InterventionCitation.foldCase }

/-- The hexadecimal digits in both cases. -/
def hexDigits : List Char :=
  UUIDSlot.lowerDigits ++ ['A', 'B', 'C', 'D', 'E', 'F']

theorem mem_hexDigits_of_digitValue? {char : Char} {nibble : Fin 16}
    (isDigit : UUIDSlot.digitValue? char = some nibble) : char ∈ hexDigits := by
  by_contra missing
  simp only [hexDigits, UUIDSlot.lowerDigits, List.cons_append, List.nil_append, List.mem_cons,
    not_or] at missing
  simp [UUIDSlot.digitValue?, missing] at isDigit

/-- The lower-case form of a digit is how its value prints. -/
theorem toLower_of_digitValue? {char : Char} {nibble : Fin 16}
    (isDigit : UUIDSlot.digitValue? char = some nibble) :
    char.toLower = UUIDSlot.digitChar nibble := by
  have printed : ∀ char ∈ hexDigits, ∀ nibble, UUIDSlot.digitValue? char = some nibble →
      char.toLower = UUIDSlot.digitChar nibble := by
    decide +kernel
  exact printed char (mem_hexDigits_of_digitValue? isDigit) nibble isDigit

/-- Printing the digits that were read gives the text back in lower case. -/
theorem map_toLower_of_read? : ∀ {slots : List UUIDSlot} {chars : List Char}
    {digits : List (Fin 16)}, UUIDSlot.read? slots chars = some digits →
      chars.map Char.toLower = UUIDSlot.print slots digits
  | [], [], digits, found => by
      simp [UUIDSlot.print]
  | [], _ :: _, digits, found => by simp [UUIDSlot.read?] at found
  | .hyphen :: slots, [], digits, found => by simp [UUIDSlot.read?] at found
  | .hyphen :: slots, char :: chars, digits, found => by
      simp only [UUIDSlot.read?, Option.ite_none_right_eq_some] at found
      obtain ⟨rfl, rest⟩ := found
      rw [List.map_cons, map_toLower_of_read? rest]
      rfl
  | .digit :: slots, [], digits, found => by simp [UUIDSlot.read?] at found
  | .digit :: slots, char :: chars, digits, found => by
      simp only [UUIDSlot.read?] at found
      split at found
      · rename_i nibble rest digitEq restEq
        simp only [Option.some.injEq] at found
        subst found
        rw [List.map_cons, map_toLower_of_read? restEq, toLower_of_digitValue? digitEq]
        rfl
      · simp at found

/-- An identifier the client accepts is decoded by the service, and prints as
the same text in lower case. -/
theorem uuid_spec {text : JString} (pattern : UUID.matchesPattern text = true) (uuid : UUID) :
    decodeUUID (some (.str text)) = .ok uuid ↔ JString.ofString uuid.text = text.foldCase := by
  obtain ⟨chars, read, textEq, readEq⟩ := UUID.matchesPattern_iff.mp pattern
  have decoded : decodeUUID (some (.str text)) = .ok read := by
    simp [decodeUUID, textEq, UUID.parse?_of_canonical readEq]
  have folded : text.foldCase = JString.ofString read.text := by
    rw [JString.toText?_eq_some.mp textEq]
    unfold UUID.ofShape? at readEq
    split at readEq
    · rename_i digits digitsEq
      simp only [Option.dite_none_right_eq_some, Option.some.injEq] at readEq
      obtain ⟨_, rfl⟩ := readEq
      simp only [JString.foldCase, JString.ofString, UUID.text, String.toList_ofList,
        ← map_toLower_of_read? digitsEq, List.map_map]
      rfl
    · simp at readEq
  rw [decoded, folded, JString.ofString_inj, Except.ok.injEq]
  constructor
  · rintro rfl
    rfl
  · intro same
    have parsed := congrArg (fun text => UUID.parse? text.toList) same
    simpa using parsed.symm

theorem citation_spec {item : Json} {found : Web.InterventionCitation}
    (parsed : Web.citation item = .ok found) :
    (∀ citation, IntentCitation.decode item = .ok citation ↔ citation.mirror = found.foldCase) ∧
      ∀ citation : IntentCitation, citation.mirror = found.foldCase →
        webLength citation.quote ≤ 1600 ∧
          (citation.check = .ok () ↔ 10 ≤ citation.quote.length) := by
  simp only [Web.citation, Web.failWhen, bind_eq_ok, failIf_eq_ok, pure_eq_ok,
    Bool.not_eq_false] at parsed
  obtain ⟨record, recordOk, id, idOk, _, pattern, quote, quoteOk, rfl⟩ := parsed
  obtain ⟨idEq, _⟩ := Web.str_eq_ok.mp idOk
  constructor
  · intro citation
    simp only [IntentCitation.decode, modelFields_of_obj recordOk, ok_bind, bind_eq_ok,
      pure_eq_ok, idEq, uuid_spec pattern, decodeText_of_str quoteOk]
    constructor
    · rintro ⟨chunkId, chunkIdEq, quote, rfl, rfl⟩
      simp [IntentCitation.mirror, Web.InterventionCitation.foldCase, chunkIdEq]
    · intro mirrored
      simp only [IntentCitation.mirror, Web.InterventionCitation.foldCase,
        Web.InterventionCitation.mk.injEq] at mirrored
      exact ⟨_, mirrored.1, _, mirrored.2, rfl⟩
  · intro citation mirrored
    simp only [IntentCitation.mirror, Web.InterventionCitation.foldCase,
      Web.InterventionCitation.mk.injEq] at mirrored
    obtain ⟨_, rfl⟩ := mirrored
    obtain ⟨_, _, atMost⟩ := Web.str_eq_ok.mp quoteOk
    have shorter := JString.length_le_utf16Length citation.quote
    rw [JString.length_ofString] at shorter
    refine ⟨atMost, ?_⟩
    rw [IntentCitation.check, checkText_eq_ok]
    omega

/-! ### Whole interventions -/

theorem version_spec {value : Option Json} {found : ContractVersion}
    (parsed : Web.version value = .ok found) (version : ContractVersion) :
    decodeLiteral ContractVersion.text ContractVersion.all value = .ok version ↔
      version = found := by
  unfold Web.version at parsed
  split at parsed
  · split at parsed
    · rename_i isSecond
      simp only [Except.ok.injEq] at parsed
      subst parsed isSecond
      simp [decodeLiteral, ContractVersion.all, ContractVersion.text, eq_comm]
    · split at parsed
      · rename_i isFirst
        simp only [Except.ok.injEq] at parsed
        subst parsed isFirst
        simp [decodeLiteral, ContractVersion.all, ContractVersion.text, eq_comm]
      · simp at parsed
  · simp at parsed

theorem situation_spec {value : Option Json} {found : Situation}
    (parsed : Web.situation value = .ok found) (situation : Situation) :
    decodeLiteral Situation.text Situation.all value = .ok situation ↔ situation = found := by
  unfold Web.situation at parsed
  split at parsed
  · split at parsed
    · rename_i item itemEq
      simp only [Except.ok.injEq] at parsed
      subst parsed
      simp only [decodeLiteral, itemEq, Except.ok.injEq]
      exact eq_comm
    · simp at parsed
  · simp at parsed

theorem grounded_spec {value : Option Json} {found : Bool}
    (parsed : Web.grounded value = .ok found) (grounded : Bool) :
    decodeStrictBool value = .ok grounded ↔ grounded = found := by
  unfold Web.grounded at parsed
  split at parsed
  · simp only [Except.ok.injEq] at parsed
    subst parsed
    simp [decodeStrictBool, eq_comm]
  · simp at parsed

section Classification

variable (block : InterventionBlock)

@[simp] theorem isActivity_mirror : block.mirror.isActivity = block.isActivity := by
  cases block <;> rfl

@[simp] theorem isPrimaryQuestion_mirror :
    block.mirror.isPrimaryQuestion = block.isPrimaryQuestion := by
  cases block <;> rfl

@[simp] theorem isQuestion_mirror : block.mirror.isQuestion = block.isQuestion := by
  cases block <;> rfl

@[simp] theorem isQuestionOrExplanation_mirror :
    block.mirror.isQuestionOrExplanation = block.isQuestionOrExplanation := by
  cases block <;> rfl

@[simp] theorem exceeds_mirror (citations : Nat) :
    block.mirror.exceeds citations = block.exceeds citations := by
  cases block <;> rfl

end Classification

/-- Indexes that are not past fewer citations are not past more of them. -/
theorem exceeds_of_le {block : Web.Block} {citations most : Nat} (fewer : citations ≤ most)
    (within : block.exceeds citations = false) : block.exceeds most = false := by
  cases block with
  | sources citationIndexes =>
      simp only [Web.Block.exceeds, List.any_eq_false, decide_eq_true_iff, Int.not_le] at within ⊢
      intro index member
      have below := within index member
      omega
  | _ => rfl

/-- Both sides ask the same of the evidence in each situation. -/
theorem evidenceRule_mirror {fields : InterventionFields} {citations : List Web.InterventionCitation}
    (sameCount : citations.length = fields.citations.length) {done : Unit} :
    Web.evidenceRule fields.situation fields.grounded (fields.blocks.map InterventionBlock.mirror)
        citations = .ok done ↔ fields.evidenceRule = .ok done := by
  have bothEmpty : citations = [] ↔ fields.citations = [] := by
    rw [← List.length_eq_zero_iff, sameCount, List.length_eq_zero_iff]
  unfold Web.evidenceRule InterventionFields.evidenceRule
  cases fields.situation with
  | insufficientEvidence =>
      simp [Web.failWhen, bothEmpty]
  | ambiguous =>
      simp [Web.failWhen, bothEmpty]
  | _ => simp [Web.failWhen, bothEmpty]

/-- The rules across blocks are the same on both sides. -/
theorem coherent_mirror {fields : InterventionFields} {citations : List Web.InterventionCitation}
    (sameCount : citations.length = fields.citations.length) :
    fields.coherent = .ok () ↔
      ¬ (fields.version = .v1 ∧ (fields.blocks.map InterventionBlock.mirror).any (·.isActivity)) ∧
      ¬ 1 < ((fields.blocks.map InterventionBlock.mirror).filter (·.isPrimaryQuestion)).length ∧
      ¬ (fields.blocks.map InterventionBlock.mirror).any (·.exceeds citations.length) ∧
      Web.evidenceRule fields.situation fields.grounded
        (fields.blocks.map InterventionBlock.mirror) citations = .ok () := by
  simp only [InterventionFields.coherent, bind_eq_ok, failIf_eq_ok, evidenceRule_mirror sameCount,
    List.any_map, List.filter_map, List.length_map, Function.comp_def, isActivity_mirror,
    isPrimaryQuestion_mirror, exceeds_mirror, sameCount]
  constructor
  · rintro ⟨_, activity, _, primary, _, sources, rule⟩
    exact ⟨activity, primary, sources, rule⟩
  · rintro ⟨activity, primary, sources, rule⟩
    exact ⟨(), activity, (), primary, (), sources, rule⟩

/-- A value the client accepted is decoded by the service to exactly the fields
that mirror to it; they pass the service's checks when no quote is too short. -/
theorem fields_spec (intOfText : JString → Option Int) {value : Json}
    {found : Web.TutorIntervention} (parsed : Web.parseIntervention value = .ok found) :
    (∀ fields, InterventionFields.decode intOfText value = .ok fields ↔
        fields.mirror = found.foldCase) ∧
      ∀ fields : InterventionFields, fields.mirror = found.foldCase →
        fields.FitsWeb ∧
          (fields.check = .ok () ↔ ∀ citation ∈ fields.citations, 10 ≤ citation.quote.length) := by
  simp only [Web.parseIntervention, Web.failWhen, bind_eq_ok, failIf_eq_ok, pure_eq_ok] at parsed
  obtain ⟨record, recordOk, version, versionOk, situation, situationOk, grounded, groundedOk,
    blockItems, blockItemsOk, blocks, blocksOk, _, activity, citationItems, citationItemsOk,
    citations, citationsOk, _, primary, _, sources, _, rule, rfl⟩ := parsed
  have citationCount := (Web.list_eq_ok.mp citationItemsOk).2
  rw [← length_eq_of_mapM_ok citationsOk] at citationCount
  have within : ∀ block ∈ blocks, block.exceeds 5 = false := by
    intro block member
    have notPast := List.any_eq_false.mp (Bool.eq_false_iff.mpr sources) block member
    exact exceeds_of_le citationCount.2 (Bool.eq_false_iff.mpr notPast)
  have blocksDecoded := decodeList_of_mapM blockItemsOk blocksOk fun _ block member itemOk =>
    (block_spec intOfText itemOk).1 (within block member)
  have citationsDecoded : ∀ decoded,
      decodeList IntentCitation.decode (record.get "citations") = .ok decoded ↔
        decoded.map IntentCitation.mirror =
          citations.map Web.InterventionCitation.foldCase := by
    have parsedFolded : citationItems.mapM (fun item =>
        Web.InterventionCitation.foldCase <$> Web.citation item) =
          .ok (citations.map Web.InterventionCitation.foldCase) := mapM_map_result citationsOk
    refine decodeList_of_mapM citationItemsOk parsedFolded fun item result _ itemOk => ?_
    obtain ⟨citation, citationOk, rfl⟩ := map_eq_ok.mp itemOk
    exact (citation_spec citationOk).1
  constructor
  · intro fields
    simp only [InterventionFields.decode, modelFields_of_obj recordOk, ok_bind, bind_eq_ok,
      pure_eq_ok, version_spec versionOk, situation_spec situationOk, blocksDecoded,
      citationsDecoded, grounded_spec groundedOk]
    constructor
    · rintro ⟨_, rfl, _, rfl, blocks, rfl, decoded, decodedEq, _, rfl, rfl⟩
      simp [InterventionFields.mirror, Web.TutorIntervention.foldCase, decodedEq]
    · intro mirrored
      simp only [InterventionFields.mirror, Web.TutorIntervention.foldCase,
        Web.TutorIntervention.mk.injEq] at mirrored
      obtain ⟨versionEq, situationEq, blocksEq, citationsEq, groundedEq⟩ := mirrored
      exact ⟨_, versionEq, _, situationEq, _, blocksEq, _, citationsEq, _, groundedEq, rfl⟩
  · intro fields mirrored
    simp only [InterventionFields.mirror, Web.TutorIntervention.foldCase,
      Web.TutorIntervention.mk.injEq] at mirrored
    obtain ⟨rfl, rfl, rfl, citationsEq, rfl⟩ := mirrored
    have sameCount : citations.length = fields.citations.length := by
      simpa using (congrArg List.length citationsEq).symm
    have eachBlock := forall_of_mapM blocksOk fun _ _ itemOk =>
      (block_spec intOfText itemOk).2
    have eachCitation : ∀ citation ∈ fields.citations, webLength citation.quote ≤ 1600 ∧
        (citation.check = .ok () ↔ 10 ≤ citation.quote.length) := by
      intro citation member
      have mirrorMember := List.mem_map_of_mem (f := IntentCitation.mirror) member
      rw [citationsEq, List.mem_map] at mirrorMember
      obtain ⟨webCitation, webMember, webEq⟩ := mirrorMember
      obtain ⟨item, _, itemOk⟩ := exists_item_of_mapM_ok citationsOk webMember
      exact (citation_spec itemOk).2 citation webEq.symm
    have blockCount := (Web.list_eq_ok.mp blockItemsOk).2
    rw [← length_eq_of_mapM_ok blocksOk, List.length_map] at blockCount
    rw [sameCount] at citationCount
    refine ⟨⟨fun block member => (eachBlock block member).2,
      fun citation member => (eachCitation citation member).1⟩, ?_⟩
    have coherent : fields.coherent = .ok () :=
      (coherent_mirror sameCount).mpr ⟨activity, primary, sources, rule⟩
    obtain ⟨blocksChecked, blocksCheckedOk⟩ :=
      exists_mapM_eq_ok_iff.mpr fun block member => (eachBlock block member).1
    simp only [InterventionFields.check, bind_eq_ok, checkLength_eq_ok]
    constructor
    · rintro ⟨_, _, _, _, citationsChecked, citationsCheckedOk, _⟩
      have passes := exists_mapM_eq_ok_iff.mp ⟨_, citationsCheckedOk⟩
      exact fun citation member => (eachCitation citation member).2.mp (passes citation member)
    · intro longEnough
      obtain ⟨citationsChecked, citationsCheckedOk⟩ := exists_mapM_eq_ok_iff.mpr
        fun citation member => (eachCitation citation member).2.mpr (longEnough citation member)
      exact ⟨blocksChecked, blocksCheckedOk, (), blockCount, citationsChecked, citationsCheckedOk,
        (), citationCount, coherent⟩

end Docta.Contract
