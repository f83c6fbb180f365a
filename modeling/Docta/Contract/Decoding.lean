/-
Module: Docta.Contract.Decoding
Purpose: Decoding and dumping are inverse: every intervention the service holds
  is decoded back from its own JSON dump.
Trusted boundary: none
Main exports: IsRecord, modelFields_eq_ok, decodeText_eq_ok,
  InterventionFields.decode_dump, modelValidate_dump
-/
import Docta.Contract.TutorContract

namespace Docta.Contract

open Fallible

/-! ### Reading fields of an object -/

/-- An object with exactly the given names. -/
def IsRecord (value : Json) (names : List String) (record : Record) : Prop :=
  value = .obj record ∧ (∀ field ∈ record, field.1 ∈ names.map JString.ofString) ∧
    ∀ name ∈ names, JString.ofString name ∈ record.map Prod.fst

theorem modelFields_eq_ok {value : Json} {names : List String} {record : Record} :
    modelFields value names = .ok record ↔ IsRecord value names record := by
  cases value with
  | obj fields =>
      simp only [modelFields, bind_eq_ok, failIf_eq_ok, IsRecord, Except.ok.injEq, Json.obj.injEq]
      push Not
      constructor
      · rintro ⟨_, known, _, present, rfl⟩
        exact ⟨rfl, known, present⟩
      · rintro ⟨rfl, known, present⟩
        exact ⟨(), known, (), present, rfl⟩
  | _ => simp [modelFields, IsRecord]

theorem decodeText_eq_ok {value : Option Json} {text : String} :
    decodeText value = .ok text ↔ value = some (.str text) := by
  unfold decodeText
  split
  · rename_i found
    split
    · rename_i chars charsEq
      have same := JString.toText?_eq_some.mp charsEq
      subst same
      simp only [Except.ok.injEq, Option.some.injEq, Json.str.injEq, JString.ofString]
      constructor
      · rintro rfl
        simp
      · intro mapped
        apply String.ext
        rw [String.toList_ofList]
        exact (List.map_injective_iff.mpr fun left right same => by simpa using same) mapped
    · rename_i noText
      simp only [reduceCtorEq, Option.some.injEq, Json.str.injEq, false_iff]
      rintro rfl
      simp at noText
  · rename_i notText
    simp only [reduceCtorEq, false_iff]
    exact notText _

/-- Named access to an object written field by field. -/
theorem Record.get_map (fields : List (String × Json)) (key : String) :
    Record.get (fields.map fun field => (JString.ofString field.1, field.2)) key =
      fields.lookup key := by
  induction fields with
  | nil => rfl
  | cons field fields inductionHypothesis =>
      obtain ⟨name, value⟩ := field
      by_cases same : key = name
      · subst same
        simp
      · rw [List.map_cons, Record.get_cons_of_ne _ _ (by simpa [eq_comm] using same),
          inductionHypothesis, List.lookup_cons, beq_false_of_ne same]

theorem isRecord_of_names {fields : List (String × Json)} {names : List String}
    (same : fields.map Prod.fst = names) :
    IsRecord (.record fields) names
      (fields.map fun field => (JString.ofString field.1, field.2)) := by
  subst same
  refine ⟨rfl, ?_, ?_⟩
  · intro field member
    obtain ⟨source, sourceMember, rfl⟩ := List.mem_map.mp member
    exact List.mem_map_of_mem (List.mem_map_of_mem sourceMember)
  · intro name member
    obtain ⟨source, sourceMember, rfl⟩ := List.mem_map.mp member
    simp only [List.map_map, List.mem_map]
    exact ⟨source, sourceMember, rfl⟩

/-- A text field of a written object, read by the service. -/
theorem decodeText_get {fields : List (String × Json)} {key text : String}
    (found : fields.lookup key = some (.text text)) :
    decodeText (Record.get (fields.map fun field => (JString.ofString field.1, field.2)) key) =
      .ok text := by
  rw [decodeText_eq_ok, Record.get_map, found]
  rfl

/-! ### Round trips -/

theorem DiagramNode.decode_dump (node : DiagramNode) : DiagramNode.decode node.dump = .ok node := by
  simp only [DiagramNode.decode, bind_eq_ok, pure_eq_ok]
  exact ⟨_, modelFields_eq_ok.mpr (isRecord_of_names rfl), _, decodeText_get rfl, _,
    decodeText_get rfl, rfl⟩

theorem DiagramEdge.decode_dump (edge : DiagramEdge) : DiagramEdge.decode edge.dump = .ok edge := by
  simp only [DiagramEdge.decode, bind_eq_ok, pure_eq_ok]
  exact ⟨_, modelFields_eq_ok.mpr (isRecord_of_names rfl), _, decodeText_get rfl, _,
    decodeText_get rfl, _, decodeText_get rfl, rfl⟩

theorem ActivityOption.decode_dump (option : ActivityOption) :
    ActivityOption.decode option.dump = .ok option := by
  simp only [ActivityOption.decode, bind_eq_ok, pure_eq_ok]
  exact ⟨_, modelFields_eq_ok.mpr (isRecord_of_names rfl), _, decodeText_get rfl, _,
    decodeText_get rfl, rfl⟩

theorem decodeUUID_text (uuid : UUID) : decodeUUID (some (.text uuid.text)) = .ok uuid := by
  simp [decodeUUID, Json.text]

theorem IntentCitation.decode_dump (citation : IntentCitation) :
    IntentCitation.decode citation.dump = .ok citation := by
  simp only [IntentCitation.decode, bind_eq_ok, pure_eq_ok]
  exact ⟨_, modelFields_eq_ok.mpr (isRecord_of_names rfl), _,
    by rw [Record.get_map]; exact decodeUUID_text citation.chunkId, _, decodeText_get rfl, rfl⟩

/-- The tag of a written object. -/
theorem typeTag_record {fields : List (String × Json)} {tag : String}
    (found : fields.lookup "type" = some (.text tag)) :
    typeTag (.record fields) = some (JString.ofString tag) := by
  simp only [typeTag, Json.record, Record.get_map, found, Json.text]

/-- A list field of a written object, decoded item by item. -/
theorem decodeList_get {α : Type} {decode : Json → Except ValidationError α} {encode : α → Json}
    {fields : List (String × Json)} {key : String} {items : List α}
    (found : fields.lookup key = some (.arr (items.map encode)))
    (roundTrip : ∀ item, decode (encode item) = .ok item) :
    decodeList decode
      (Record.get (fields.map fun field => (JString.ofString field.1, field.2)) key) =
        .ok items := by
  rw [Record.get_map, found]
  have decoded : (items.map encode).mapM decode = .ok (items.map fun item => item) :=
    mapM_map_eq_ok fun item _ => roundTrip item
  rw [List.map_id'] at decoded
  exact decoded

theorem decodeInt_int (intOfText : JString → Option Int) (value : Int) :
    decodeInt intOfText (some (.int value)) = .ok value := by
  rfl

theorem decodeLiteral_diagramKind (kind : DiagramKind) :
    decodeLiteral DiagramKind.text DiagramKind.all (some (.text kind.text)) = .ok kind := by
  cases kind <;> simp [decodeLiteral, DiagramKind.all, DiagramKind.text, Json.text]

theorem decodeLiteral_version (version : ContractVersion) :
    decodeLiteral ContractVersion.text ContractVersion.all (some (.text version.text)) =
      .ok version := by
  cases version <;> simp [decodeLiteral, ContractVersion.all, ContractVersion.text, Json.text]

theorem decodeLiteral_situation (situation : Situation) :
    decodeLiteral Situation.text Situation.all (some (.text situation.text)) = .ok situation := by
  cases situation <;> simp [decodeLiteral, Situation.all, Situation.text, Json.text]

section Coercion

variable (intOfText : JString → Option Int)

theorem InterventionBlock.decode_dump (block : InterventionBlock) :
    InterventionBlock.decode intOfText block.dump = .ok block := by
  cases block with
  | question text =>
      rw [InterventionBlock.decode, InterventionBlock.dump, typeTag_record rfl]
      simp only [if_true, bind_eq_ok, pure_eq_ok]
      exact ⟨_, modelFields_eq_ok.mpr (isRecord_of_names rfl), _, decodeText_get rfl, rfl⟩
  | hint level text =>
      rw [InterventionBlock.decode, InterventionBlock.dump, typeTag_record rfl]
      simp only [Option.some.injEq, JString.ofString_inj, String.reduceEq, if_false, if_true,
        bind_eq_ok, pure_eq_ok]
      exact ⟨_, modelFields_eq_ok.mpr (isRecord_of_names rfl), _,
        by rw [Record.get_map]; exact decodeInt_int intOfText level, _, decodeText_get rfl, rfl⟩
  | explanation title text =>
      rw [InterventionBlock.decode, InterventionBlock.dump, typeTag_record rfl]
      simp only [Option.some.injEq, JString.ofString_inj, String.reduceEq, if_false, if_true,
        bind_eq_ok, pure_eq_ok]
      exact ⟨_, modelFields_eq_ok.mpr (isRecord_of_names rfl), _, decodeText_get rfl, _,
        decodeText_get rfl, rfl⟩
  | diagram kind title nodes edges =>
      rw [InterventionBlock.decode, InterventionBlock.dump, typeTag_record rfl]
      simp only [Option.some.injEq, JString.ofString_inj, String.reduceEq, if_false, if_true,
        bind_eq_ok, pure_eq_ok]
      exact ⟨_, modelFields_eq_ok.mpr (isRecord_of_names rfl), _,
        by rw [Record.get_map]; exact decodeLiteral_diagramKind kind, _, decodeText_get rfl, _,
        decodeList_get rfl DiagramNode.decode_dump, _,
        decodeList_get rfl DiagramEdge.decode_dump, rfl⟩
  | activity questionText options correct hintText explanationText =>
      rw [InterventionBlock.decode, InterventionBlock.dump, typeTag_record rfl]
      simp only [Option.some.injEq, JString.ofString_inj, String.reduceEq, if_false, if_true,
        bind_eq_ok, pure_eq_ok]
      exact ⟨_, modelFields_eq_ok.mpr (isRecord_of_names rfl), _, decodeText_get rfl, _,
        decodeList_get rfl ActivityOption.decode_dump, _, decodeText_get rfl, _,
        decodeText_get rfl, _, decodeText_get rfl, rfl⟩
  | sources citationIndexes =>
      rw [InterventionBlock.decode, InterventionBlock.dump, typeTag_record rfl]
      simp only [Option.some.injEq, JString.ofString_inj, String.reduceEq, if_false, if_true,
        bind_eq_ok, pure_eq_ok]
      exact ⟨_, modelFields_eq_ok.mpr (isRecord_of_names rfl), _,
        decodeList_get rfl (decodeInt_int intOfText), rfl⟩

/-- The fields of an intervention are decoded back from their dump. -/
theorem InterventionFields.decode_dump (fields : InterventionFields) :
    InterventionFields.decode intOfText fields.dump = .ok fields := by
  simp only [InterventionFields.decode, bind_eq_ok, pure_eq_ok]
  exact ⟨_, modelFields_eq_ok.mpr (isRecord_of_names rfl), _,
    by rw [Record.get_map]; exact decodeLiteral_version fields.version, _,
    by rw [Record.get_map]; exact decodeLiteral_situation fields.situation, _,
    decodeList_get rfl (InterventionBlock.decode_dump intOfText), _,
    decodeList_get rfl IntentCitation.decode_dump, _, by rw [Record.get_map]; rfl, rfl⟩

theorem TutorIntervention.ofFields_eq_ok {fields : InterventionFields}
    {intervention : TutorIntervention} :
    TutorIntervention.ofFields fields = .ok intervention ↔
      intervention.toInterventionFields = fields := by
  unfold TutorIntervention.ofFields
  split
  · rename_i checked
    simp only [Except.ok.injEq]
    constructor
    · rintro rfl
      rfl
    · rintro rfl
      rfl
  · rename_i error failed
    simp only [reduceCtorEq, false_iff]
    rintro rfl
    rw [intervention.checked] at failed
    cases failed

/-- Every intervention is validated back from its own dump. -/
theorem modelValidate_dump (intervention : TutorIntervention) :
    modelValidate intOfText intervention.dump = .ok intervention := by
  simp only [modelValidate, bind_eq_ok]
  exact ⟨_, InterventionFields.decode_dump intOfText _, TutorIntervention.ofFields_eq_ok.mpr rfl⟩

end Coercion

end Docta.Contract
