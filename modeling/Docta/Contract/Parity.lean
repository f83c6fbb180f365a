/-
Module: Docta.Contract.Parity
Purpose: The service's contract and the client's mirror of it do not accept the
  same interventions, and exactly where they do: the client bounds text in
  UTF-16 code units where the service counts code points, the service does not
  bound citation indexes from below, and the client admits unpaired surrogates.
Trusted boundary: none
Main exports: ContractsAgree, not_contractsAgree, contracts_agree_exactly
-/
import Docta.Contract.Unicode

namespace Docta.Contract

open Fallible

/-! ### What the service dumps -/

theorem DiagramNode.dump_eq : DiagramNode.dump = Web.DiagramNode.toJson ∘ DiagramNode.mirror := rfl

theorem DiagramEdge.dump_eq : DiagramEdge.dump = Web.DiagramEdge.toJson ∘ DiagramEdge.mirror := rfl

theorem ActivityOption.dump_eq :
    ActivityOption.dump = Web.ActivityOption.toJson ∘ ActivityOption.mirror := rfl

theorem IntentCitation.dump_eq :
    IntentCitation.dump = Web.InterventionCitation.toJson ∘ IntentCitation.mirror := rfl

theorem InterventionBlock.dump_eq :
    InterventionBlock.dump = Web.Block.toJson ∘ InterventionBlock.mirror := by
  funext block
  cases block with
  | diagram kind title nodes edges =>
      simp [InterventionBlock.dump, InterventionBlock.mirror, Web.Block.toJson, Json.text,
        DiagramNode.dump_eq, DiagramEdge.dump_eq]
  | activity questionText options correct hintText explanationText =>
      simp [InterventionBlock.dump, InterventionBlock.mirror, Web.Block.toJson, Json.text,
        ActivityOption.dump_eq]
  | _ => rfl

/-- The dump is the object the client would return for the mirrored value. -/
theorem InterventionFields.dump_eq (fields : InterventionFields) :
    fields.dump = fields.mirror.toJson := by
  simp [InterventionFields.dump, InterventionFields.mirror, Web.TutorIntervention.toJson,
    InterventionBlock.dump_eq, IntentCitation.dump_eq]

/-- A text field of a written object, read by the client within its bounds. -/
theorem Web.str_get {fields : List (String × Json)} {key text : String} {min max : Nat}
    (found : fields.lookup key = some (.text text)) (atLeast : min ≤ webLength text)
    (atMost : webLength text ≤ max) :
    Web.str (Record.get (fields.map fun field => (JString.ofString field.1, field.2)) key) min max =
      .ok (JString.ofString text) := by
  rw [Web.str_eq_ok, Record.get_map, found]
  exact ⟨rfl, atLeast, atMost⟩

/-- A list field of a written object, read by the client within its bounds. -/
theorem Web.list_get {fields : List (String × Json)} {key : String} {items : List Json}
    {min max : Nat} (found : fields.lookup key = some (.arr items))
    (count : min ≤ items.length ∧ items.length ≤ max) :
    Web.list (Record.get (fields.map fun field => (JString.ofString field.1, field.2)) key) min
      max = .ok items := by
  rw [Web.list_eq_ok, Record.get_map, found]
  exact ⟨rfl, count⟩

/-! ### What the client reads back from a dump -/

theorem le_webLength {bound : Nat} {text : String} (atLeast : bound ≤ text.length) :
    bound ≤ webLength text := by
  have shorter := JString.length_le_utf16Length text
  rw [JString.length_ofString] at shorter
  exact Nat.le_trans atLeast shorter

/-- Basic characters take one UTF-16 unit each. -/
theorem utf16Length_of_basic {chars : List Char} (basic : ∀ char ∈ chars, char.val < 0x10000) :
    JString.utf16Length (chars.map .scalar) = chars.length := by
  induction chars with
  | nil => rfl
  | cons char chars inductionHypothesis =>
      rw [List.forall_mem_cons] at basic
      rw [List.map_cons, JString.utf16Length_cons, inductionHypothesis basic.2, JChar.utf16Units,
        if_pos basic.1, List.length_cons, Nat.add_comm]

theorem basic_of_isIdChar {char : Char} (isId : isIdChar char = true) : char.val < 0x10000 := by
  simp only [isIdChar, isLowerLetter, Bool.or_eq_true, Bool.and_eq_true, decide_eq_true_eq,
    beq_iff_eq] at isId
  rcases isId with (letter | digit) | rfl
  · exact UInt32.lt_of_le_of_lt letter.2 (by decide)
  · exact UInt32.lt_of_le_of_lt digit.2 (by decide)
  · decide

/-- A node id fits the client's bounds. -/
theorem webLength_of_isNodeId {id : String} (pattern : isNodeId id = true) :
    1 ≤ webLength id ∧ webLength id ≤ 24 := by
  unfold isNodeId at pattern
  split at pattern
  · rename_i first rest charsEq
    simp only [Bool.and_eq_true, decide_eq_true_eq, List.all_eq_true] at pattern
    obtain ⟨⟨isLetter, short⟩, tail⟩ := pattern
    have basic : ∀ char ∈ id.toList, char.val < 0x10000 := by
      rw [charsEq, List.forall_mem_cons]
      exact ⟨basic_of_isIdChar (by simp [isIdChar, isLetter]),
        fun char member => basic_of_isIdChar (tail char member)⟩
    have units : webLength id = id.toList.length := utf16Length_of_basic basic
    rw [units, charsEq, List.length_cons]
    omega
  · simp at pattern

theorem DiagramNode.parse_dump {node : DiagramNode} (checked : node.check = .ok ())
    (fits : webLength node.label ≤ 80) : Web.node node.dump = .ok node.mirror := by
  simp only [DiagramNode.check, bind_eq_ok, checkNodeId_eq_ok, checkText_eq_ok] at checked
  obtain ⟨_, pattern, atLeast, _⟩ := checked
  obtain ⟨idAtLeast, idAtMost⟩ := webLength_of_isNodeId pattern
  simp only [Web.node, Web.failWhen, bind_eq_ok, pure_eq_ok, failIf_eq_ok]
  exact ⟨_, Web.obj_eq_ok.mpr (isRecord_of_names rfl), _, Web.str_get rfl idAtLeast idAtMost, (),
    by simp [isNodeId_mirror, pattern], _, Web.str_get rfl (le_webLength atLeast) fits, rfl⟩

theorem ActivityOption.parse_dump {option : ActivityOption} (checked : option.check = .ok ())
    (fits : webLength option.text ≤ 600) : Web.option option.dump = .ok option.mirror := by
  simp only [ActivityOption.check, bind_eq_ok, checkNodeId_eq_ok, checkText_eq_ok] at checked
  obtain ⟨_, pattern, atLeast, _⟩ := checked
  obtain ⟨idAtLeast, idAtMost⟩ := webLength_of_isNodeId pattern
  simp only [Web.option, Web.failWhen, bind_eq_ok, pure_eq_ok, failIf_eq_ok]
  exact ⟨_, Web.obj_eq_ok.mpr (isRecord_of_names rfl), _, Web.str_get rfl idAtLeast idAtMost, (),
    by simp [isNodeId_mirror, pattern], _, Web.str_get rfl (le_webLength atLeast) fits, rfl⟩

/-- An edge between checked nodes is read back. -/
theorem DiagramEdge.parse_dump {nodes : List DiagramNode} {edge : DiagramEdge}
    (checked : ∀ node ∈ nodes, node.check = .ok ()) (source : edge.source ∈ nodes.map (·.id))
    (target : edge.target ∈ nodes.map (·.id)) (fits : webLength edge.label ≤ 80) :
    Web.edge ((nodes.map DiagramNode.mirror).map (·.id)) edge.dump = .ok edge.mirror := by
  have bounds : ∀ id ∈ nodes.map (·.id), 1 ≤ webLength id ∧ webLength id ≤ 24 := by
    intro id member
    obtain ⟨node, nodeMember, rfl⟩ := List.mem_map.mp member
    have nodeOk := checked node nodeMember
    simp only [DiagramNode.check, bind_eq_ok, checkNodeId_eq_ok] at nodeOk
    exact webLength_of_isNodeId nodeOk.choose_spec.1
  have mirrored : ∀ id ∈ nodes.map (·.id),
      JString.ofString id ∈ (nodes.map DiagramNode.mirror).map (·.id) := by
    intro id member
    rw [List.map_map]
    exact mem_mirror.mpr member
  simp only [Web.edge, Web.failWhen, bind_eq_ok, pure_eq_ok, failIf_eq_ok, not_or,
    Decidable.not_not]
  exact ⟨_, Web.obj_eq_ok.mpr (isRecord_of_names rfl),
    _, Web.str_get rfl (bounds _ source).1 (bounds _ source).2,
    _, Web.str_get rfl (bounds _ target).1 (bounds _ target).2,
    (), ⟨mirrored _ source, mirrored _ target⟩, _, Web.str_get rfl (Nat.zero_le _) fits, rfl⟩

theorem Web.hintLevel_int {level : Int} (inside : ¬ (level < 1 ∨ 3 < level)) :
    Web.hintLevel (some (.int level)) = .ok level := by
  simp [Web.hintLevel, Web.integer?, inside]

theorem Web.diagramKind_text (kind : DiagramKind) :
    Web.diagramKind (some (.text kind.text)) = .ok kind := by
  cases kind <;> simp [Web.diagramKind, Json.text, DiagramKind.text]

theorem Web.version_text (version : ContractVersion) :
    Web.version (some (.text version.text)) = .ok version := by
  cases version <;> simp [Web.version, Json.text, ContractVersion.text]

theorem Web.situation_text (situation : Situation) :
    Web.situation (some (.text situation.text)) = .ok situation := by
  cases situation <;> simp [Web.situation, Json.text, Situation.all, Situation.text]

/-- Reading the fields of a checked block within the client's limits. -/
theorem InterventionBlock.parse_dump {block : InterventionBlock} (checked : block.check = .ok ())
    (fits : block.FitsWeb) : Web.block block.dump = .ok block.mirror := by
  cases block with
  | question text =>
      rw [InterventionBlock.check, checkText_eq_ok] at checked
      rw [Web.block, InterventionBlock.dump, typeTag_record rfl]
      simp only [if_true, bind_eq_ok, pure_eq_ok]
      exact ⟨_, Web.obj_eq_ok.mpr (isRecord_of_names rfl),
        _, Web.str_get rfl (le_webLength checked.1) fits, rfl⟩
  | hint level text =>
      simp only [InterventionBlock.check, bind_eq_ok, failIf_eq_ok, checkText_eq_ok] at checked
      obtain ⟨_, atLeast, _, atMost, textBounds⟩ := checked
      rw [Web.block, InterventionBlock.dump, typeTag_record rfl]
      simp only [Option.some.injEq, JString.ofString_inj, String.reduceEq, if_false, if_true,
        bind_eq_ok, pure_eq_ok]
      refine ⟨_, Web.obj_eq_ok.mpr (isRecord_of_names rfl), level, ?_,
        _, Web.str_get rfl (le_webLength textBounds.1) fits, rfl⟩
      rw [Record.get_map]
      exact Web.hintLevel_int (by omega)
  | explanation title text =>
      simp only [InterventionBlock.check, bind_eq_ok, checkText_eq_ok] at checked
      obtain ⟨_, titleBounds, textBounds⟩ := checked
      rw [Web.block, InterventionBlock.dump, typeTag_record rfl]
      simp only [Option.some.injEq, JString.ofString_inj, String.reduceEq, if_false, if_true,
        bind_eq_ok, pure_eq_ok]
      exact ⟨_, Web.obj_eq_ok.mpr (isRecord_of_names rfl),
        _, Web.str_get rfl (le_webLength titleBounds.1) fits.1,
        _, Web.str_get rfl (le_webLength textBounds.1) fits.2, rfl⟩
  | diagram kind title nodes edges =>
      have ends : ∀ edge ∈ edges,
          edge.source ∈ nodes.map (·.id) ∧ edge.target ∈ nodes.map (·.id) :=
        fun _ member => ends_of_check checked member
      simp only [InterventionBlock.check, bind_eq_ok, failIf_eq_ok, checkText_eq_ok,
        checkLength_eq_ok, Decidable.not_not] at checked
      obtain ⟨_, titleBounds, _, nodesOk, _, nodeCount, _, edgesOk, _, edgeCount, _, distinct, _⟩ :=
        checked
      have eachNode := exists_mapM_eq_ok_iff.mp ⟨_, nodesOk⟩
      obtain ⟨titleFits, nodesFit, edgesFit⟩ := fits
      rw [Web.block, InterventionBlock.dump, typeTag_record rfl]
      simp only [Option.some.injEq, JString.ofString_inj, String.reduceEq, if_false, if_true,
        bind_eq_ok, pure_eq_ok, Web.failWhen, failIf_eq_ok, Decidable.not_not]
      refine ⟨_, Web.obj_eq_ok.mpr (isRecord_of_names rfl), kind, ?_,
        _, Web.list_get rfl (by simpa using nodeCount), _, mapM_map_eq_ok fun node member =>
          DiagramNode.parse_dump (eachNode node member) (nodesFit node member), (), ?_,
        _, Web.list_get rfl (by simpa using edgeCount), _, mapM_map_eq_ok fun edge member =>
          DiagramEdge.parse_dump eachNode (ends edge member).1 (ends edge member).2
            (edgesFit edge member),
        _, Web.str_get rfl (le_webLength titleBounds.1) titleFits, rfl⟩
      · rw [Record.get_map]
        exact Web.diagramKind_text kind
      · rw [List.map_map]
        exact nodup_mirror.mpr distinct
  | activity questionText options correct hintText explanationText =>
      simp only [InterventionBlock.check, bind_eq_ok, failIf_eq_ok, checkText_eq_ok,
        checkLength_eq_ok, not_or, Decidable.not_not] at checked
      obtain ⟨_, questionBounds, _, optionsOk, _, count, _, hintBounds, _, explanationBounds, _,
        ⟨distinctIds, distinctTexts⟩, known⟩ := checked
      have eachOption := exists_mapM_eq_ok_iff.mp ⟨_, optionsOk⟩
      obtain ⟨questionFits, optionsFit, hintFits, explanationFits⟩ := fits
      obtain ⟨answer, answerMember, rfl⟩ := List.mem_map.mp known
      have answerOk := eachOption answer answerMember
      simp only [ActivityOption.check, bind_eq_ok, checkNodeId_eq_ok] at answerOk
      obtain ⟨idAtLeast, idAtMost⟩ := webLength_of_isNodeId answerOk.choose_spec.1
      rw [Web.block, InterventionBlock.dump, typeTag_record rfl]
      simp only [Option.some.injEq, JString.ofString_inj, String.reduceEq, if_false, if_true,
        bind_eq_ok, pure_eq_ok, Web.failWhen, failIf_eq_ok, not_or, Decidable.not_not]
      refine ⟨_, Web.obj_eq_ok.mpr (isRecord_of_names rfl),
        _, Web.list_get rfl (by simpa using count), _, mapM_map_eq_ok fun option member =>
          ActivityOption.parse_dump (eachOption option member) (optionsFit option member),
        (), ⟨?_, ?_⟩, _, Web.str_get rfl idAtLeast idAtMost, (), ?_,
        _, Web.str_get rfl (le_webLength questionBounds.1) questionFits,
        _, Web.str_get rfl (le_webLength hintBounds.1) hintFits,
        _, Web.str_get rfl (le_webLength explanationBounds.1) explanationFits, rfl⟩
      · rw [List.map_map]
        exact nodup_mirror.mpr distinctIds
      · rw [List.map_map]
        exact nodup_mirror.mpr distinctTexts
      · rw [List.map_map]
        exact mem_mirror.mpr known
  | sources citationIndexes =>
      rw [InterventionBlock.check, checkLength_eq_ok] at checked
      have indexesOk : (citationIndexes.map Json.int).mapM Web.citationIndex =
          .ok (citationIndexes.map id) := by
        refine mapM_map_eq_ok fun index member => ?_
        have nonnegative : ¬ index < 0 := by
          have := fits index member
          omega
        simp [Web.citationIndex, Web.integer?, nonnegative]
      rw [List.map_id] at indexesOk
      rw [Web.block, InterventionBlock.dump, typeTag_record rfl]
      simp only [Option.some.injEq, JString.ofString_inj, String.reduceEq, if_false, if_true,
        bind_eq_ok, pure_eq_ok]
      exact ⟨_, Web.obj_eq_ok.mpr (isRecord_of_names rfl),
        _, Web.list_get rfl (by simpa using checked), _, indexesOk, rfl⟩

/-- A printed identifier has as many UTF-16 units as its shape has slots. -/
theorem utf16Length_print : ∀ (slots : List UUIDSlot) (digits : List (Fin 16)),
    slots.count .digit = digits.length →
      JString.utf16Length ((UUIDSlot.print slots digits).map .scalar) = slots.length
  | [], [], _ => rfl
  | [], _ :: _, counts => by simp at counts
  | .hyphen :: slots, digits, counts => by
      have rest := utf16Length_print slots digits (by simpa using counts)
      have basic : JChar.utf16Units (.scalar '-') = 1 := by decide
      rw [UUIDSlot.print, List.map_cons, JString.utf16Length_cons, rest, basic, List.length_cons,
        Nat.add_comm]
  | .digit :: _, [], counts => by simp at counts
  | .digit :: slots, nibble :: digits, counts => by
      have rest := utf16Length_print slots digits (by simpa using counts)
      have basic : ∀ nibble, JChar.utf16Units (.scalar (UUIDSlot.digitChar nibble)) = 1 := by decide
      rw [UUIDSlot.print, List.map_cons, JString.utf16Length_cons, rest, basic, List.length_cons,
        Nat.add_comm]

theorem webLength_uuid (uuid : UUID) : webLength uuid.text = 36 := by
  have counts : UUIDSlot.canonical.count .digit = uuid.digits.length := by
    rw [uuid.length_eq]
    decide
  rw [webLength, JString.ofString, UUID.text, String.toList_ofList, utf16Length_print _ _ counts]
  decide

theorem IntentCitation.parse_dump {citation : IntentCitation} (checked : citation.check = .ok ())
    (fits : webLength citation.quote ≤ 1600) :
    Web.citation citation.dump = .ok citation.mirror := by
  rw [IntentCitation.check, checkText_eq_ok] at checked
  have pattern : UUID.matchesPattern (JString.ofString citation.chunkId.text) = true :=
    UUID.matchesPattern_iff.mpr
      ⟨_, citation.chunkId, JString.toText?_ofString _, UUID.ofShape?_canonical_text _⟩
  have units := webLength_uuid citation.chunkId
  simp only [Web.citation, Web.failWhen, bind_eq_ok, pure_eq_ok, failIf_eq_ok]
  exact ⟨_, Web.obj_eq_ok.mpr (isRecord_of_names rfl),
    _, Web.str_get rfl (Nat.le_of_eq units.symm) (Nat.le_of_eq units), (), by simp [pattern],
    _, Web.str_get rfl (le_webLength checked.1) fits, rfl⟩

/-- The client reads back what the service stores, within the client's limits. -/
theorem InterventionFields.parse_dump {fields : InterventionFields} (checked : fields.check = .ok ())
    (fits : fields.FitsWeb) : Web.parseIntervention fields.dump = .ok fields.mirror := by
  simp only [InterventionFields.check, bind_eq_ok, checkLength_eq_ok] at checked
  obtain ⟨_, blocksOk, _, blockCount, _, citationsOk, _, citationCount, coherent⟩ := checked
  have eachBlock := exists_mapM_eq_ok_iff.mp ⟨_, blocksOk⟩
  have eachCitation := exists_mapM_eq_ok_iff.mp ⟨_, citationsOk⟩
  obtain ⟨blocksFit, citationsFit⟩ := fits
  have sameCount : (fields.citations.map IntentCitation.mirror).length = fields.citations.length :=
    List.length_map _
  obtain ⟨activity, primary, sources, rule⟩ := (coherent_mirror sameCount).mp coherent
  simp only [Web.parseIntervention, Web.failWhen, bind_eq_ok, pure_eq_ok, failIf_eq_ok]
  refine ⟨_, Web.obj_eq_ok.mpr (isRecord_of_names rfl), fields.version, ?_, fields.situation, ?_,
    fields.grounded, ?_, _, Web.list_get rfl (by simpa using blockCount), _,
    mapM_map_eq_ok fun block member =>
      InterventionBlock.parse_dump (eachBlock block member) (blocksFit block member),
    (), activity, _, Web.list_get rfl (by simpa using citationCount), _,
    mapM_map_eq_ok fun citation member =>
      IntentCitation.parse_dump (eachCitation citation member) (citationsFit citation member),
    (), primary, (), sources, (), rule, rfl⟩
  · rw [Record.get_map]
    exact Web.version_text fields.version
  · rw [Record.get_map]
    exact Web.situation_text fields.situation
  · rw [Record.get_map]
    rfl

/-! ### A dump is a decoded JSON value -/

theorem Json.distinctKeys_record {fields : List (String × Json)}
    (names : (fields.map Prod.fst).Nodup) (each : ∀ field ∈ fields, field.2.DistinctKeys) :
    (Json.record fields).DistinctKeys := by
  refine .obj ?_ ?_
  · rw [List.map_map]
    exact nodup_mirror.mpr names
  · intro field member
    obtain ⟨source, sourceMember, rfl⟩ := List.mem_map.mp member
    exact each source sourceMember

theorem Json.distinctKeys_map {α : Type} {dump : α → Json} {items : List α}
    (each : ∀ item, (dump item).DistinctKeys) : (Json.arr (items.map dump)).DistinctKeys := by
  refine .arr fun item member => ?_
  obtain ⟨source, _, rfl⟩ := List.mem_map.mp member
  exact each source

theorem DiagramNode.distinctKeys_dump (node : DiagramNode) : node.dump.DistinctKeys :=
  Json.distinctKeys_record (by simp) (by simp [Json.text, Json.DistinctKeys.str])

theorem DiagramEdge.distinctKeys_dump (edge : DiagramEdge) : edge.dump.DistinctKeys :=
  Json.distinctKeys_record (by simp) (by simp [Json.text, Json.DistinctKeys.str])

theorem ActivityOption.distinctKeys_dump (option : ActivityOption) : option.dump.DistinctKeys :=
  Json.distinctKeys_record (by simp) (by simp [Json.text, Json.DistinctKeys.str])

theorem IntentCitation.distinctKeys_dump (citation : IntentCitation) :
    citation.dump.DistinctKeys :=
  Json.distinctKeys_record (by simp) (by simp [Json.text, Json.DistinctKeys.str])

theorem InterventionBlock.distinctKeys_dump (block : InterventionBlock) :
    block.dump.DistinctKeys := by
  cases block with
  | diagram kind title nodes edges =>
      exact Json.distinctKeys_record (by simp) (by
        simp [Json.text, Json.DistinctKeys.str, Json.distinctKeys_map DiagramNode.distinctKeys_dump,
          Json.distinctKeys_map DiagramEdge.distinctKeys_dump])
  | activity questionText options correct hintText explanationText =>
      exact Json.distinctKeys_record (by simp) (by
        simp [Json.text, Json.DistinctKeys.str,
          Json.distinctKeys_map ActivityOption.distinctKeys_dump])
  | sources citationIndexes =>
      exact Json.distinctKeys_record (by simp) (by
        simp [Json.text, Json.DistinctKeys.str,
          @Json.distinctKeys_map Int Json.int _ fun index => .int index])
  | hint level text =>
      exact Json.distinctKeys_record (by simp) (by
        simp [Json.text, Json.DistinctKeys.str, Json.DistinctKeys.int])
  | question text =>
      exact Json.distinctKeys_record (by simp) (by simp [Json.text, Json.DistinctKeys.str])
  | explanation title text =>
      exact Json.distinctKeys_record (by simp) (by simp [Json.text, Json.DistinctKeys.str])

/-- The dump of an intervention, as the JSON value the client receives. -/
def InterventionFields.json (fields : InterventionFields) : JsonValue where
  json := fields.dump
  distinctKeys := Json.distinctKeys_record (by simp) (by
    simp [Json.text, Json.DistinctKeys.str, Json.DistinctKeys.bool,
      Json.distinctKeys_map InterventionBlock.distinctKeys_dump,
      Json.distinctKeys_map IntentCitation.distinctKeys_dump])

/-! ### The two contracts -/

/-- Mirroring keeps the number of code points of each quote. -/
theorem quotes_mirror {fields : InterventionFields} {found : Web.TutorIntervention}
    (mirrored : fields.mirror = found.foldCase) :
    (∀ citation ∈ fields.citations, 10 ≤ citation.quote.length) ↔
      ∀ citation ∈ found.citations, 10 ≤ citation.quote.length := by
  have lengths := congrArg (fun intervention : Web.TutorIntervention =>
    intervention.citations.map fun citation => citation.quote.length) mirrored
  simp only [InterventionFields.mirror, Web.TutorIntervention.foldCase, List.map_map,
    Function.comp_def, IntentCitation.mirror, Web.InterventionCitation.foldCase,
    JString.length_ofString] at lengths
  calc (∀ citation ∈ fields.citations, 10 ≤ citation.quote.length)
      ↔ ∀ length ∈ fields.citations.map fun citation => citation.quote.length, 10 ≤ length :=
        List.forall_mem_map.symm
    _ ↔ ∀ length ∈ found.citations.map fun citation => citation.quote.length, 10 ≤ length := by
        rw [lengths]
    _ ↔ ∀ citation ∈ found.citations, 10 ≤ citation.quote.length := List.forall_mem_map

section Coercion

variable (intOfText : JString → Option Int)

/-- Both sides accept the same interventions: the client returns every dump
unchanged, and every value the client accepts is validated by the service and
dumps back to what the client returned, up to the letter case of identifiers. -/
def ContractsAgree : Prop :=
  (∀ intervention : TutorIntervention,
      ∃ found, Web.parseIntervention intervention.json.json = .ok found ∧
        found.toJson = intervention.json.json) ∧
    ∀ (value : JsonValue) (found : Web.TutorIntervention),
      Web.parseIntervention value.json = .ok found →
        ∃ intervention, modelValidate intOfText value.json = .ok intervention ∧
          intervention.dump = found.foldCase.toJson

/-- The client returns a dump unchanged exactly when it fits the client's limits. -/
theorem client_reads_iff (intervention : TutorIntervention) :
    (∃ found, Web.parseIntervention intervention.json.json = .ok found ∧
        found.toJson = intervention.json.json) ↔ intervention.FitsWeb := by
  constructor
  · rintro ⟨found, parsed, _⟩
    obtain ⟨decoded, mirrors⟩ := fields_spec (fun _ => none) parsed
    exact (mirrors _ ((decoded _).mp (InterventionFields.decode_dump _ _))).1
  · intro fits
    exact ⟨_, InterventionFields.parse_dump intervention.checked fits,
      (InterventionFields.dump_eq _).symm⟩

/-- The service validates what the client accepted exactly when the value is
Unicode text whose quotes have ten code points. -/
theorem service_validates_iff {value : JsonValue} {found : Web.TutorIntervention}
    (parsed : Web.parseIntervention value.json = .ok found) :
    (∃ intervention, modelValidate intOfText value.json = .ok intervention ∧
        intervention.dump = found.foldCase.toJson) ↔
      value.json.Unicode ∧ value.json.QuotesFit := by
  obtain ⟨decoded, mirrors⟩ := fields_spec intOfText parsed
  rw [intervention_unicode_iff value.distinctKeys parsed, quotesFit_iff parsed]
  constructor
  · rintro ⟨intervention, validated, _⟩
    simp only [modelValidate, bind_eq_ok] at validated
    obtain ⟨fields, decodedOk, checkedOk⟩ := validated
    have same := TutorIntervention.ofFields_eq_ok.mp checkedOk
    have mirrored := (decoded fields).mp decodedOk
    have checked : fields.check = .ok () := same ▸ intervention.checked
    exact ⟨⟨fields, mirrored⟩, (quotes_mirror mirrored).mp ((mirrors fields mirrored).2.mp checked)⟩
  · rintro ⟨⟨fields, mirrored⟩, longEnough⟩
    have checked := (mirrors fields mirrored).2.mpr ((quotes_mirror mirrored).mpr longEnough)
    refine ⟨⟨fields, checked⟩, ?_, by rw [InterventionFields.dump_eq, mirrored]⟩
    simp only [modelValidate, bind_eq_ok]
    exact ⟨fields, (decoded fields).mpr mirrored, TutorIntervention.ofFields_eq_ok.mpr rfl⟩

/-- Exactly where the two contracts agree. -/
theorem contracts_agree_exactly :
    (∀ intervention : TutorIntervention,
        (∃ found, Web.parseIntervention intervention.json.json = .ok found ∧
          found.toJson = intervention.json.json) ↔ intervention.FitsWeb) ∧
      ∀ (value : JsonValue) (found : Web.TutorIntervention),
        Web.parseIntervention value.json = .ok found →
          ((∃ intervention, modelValidate intOfText value.json = .ok intervention ∧
              intervention.dump = found.foldCase.toJson) ↔
            value.json.Unicode ∧ value.json.QuotesFit) :=
  ⟨client_reads_iff, fun _ _ parsed => service_validates_iff intOfText parsed⟩

end Coercion

/-- A lesson on stacks: a labelled diagram, an activity and both its sources. -/
def stackLesson : TutorIntervention where
  version := .v2
  situation := .grounded
  blocks := [
    .explanation "La pila" "El último elemento que entra es el primero que sale.",
    .diagram .sequence "Apilar y desapilar"
      [{ id := "empty", label := "Pila vacía" }, { id := "one", label := "Un plato 🥞" }]
      [{ source := "empty", target := "one", label := "push" },
        { source := "one", target := "empty", label := "pop" }],
    .activity "¿Qué elemento sale primero?"
      [{ id := "last", text := "El último" }, { id := "first", text := "El primero" }]
      "last" "Piensa en una pila de platos." "Sale el que entró el último.",
    .sources [1, 0]]
  citations := [
    { chunkId := UUID.ofNat 10, quote := "a stack is last in, first out" },
    { chunkId := UUID.ofNat 11, quote := "push adds an element on top" }]
  grounded := true
  checked := by decide +kernel

/-- The client reads the lesson, and the service validates it back. -/
theorem contracts_agree_on_lesson :
    (∃ found, Web.parseIntervention stackLesson.json.json = .ok found ∧
        found.toJson = stackLesson.json.json) ∧
      ∃ intervention, modelValidate (fun _ => none) stackLesson.json.json = .ok intervention ∧
        intervention.dump = stackLesson.mirror.toJson := by
  have fits : stackLesson.FitsWeb := by decide +kernel
  have folded : stackLesson.mirror.foldCase = stackLesson.mirror := by decide +kernel
  have parsed := InterventionFields.parse_dump stackLesson.checked fits
  have isUnicode : stackLesson.json.json.Unicode :=
    (intervention_unicode_iff stackLesson.json.distinctKeys parsed).mpr
      ⟨stackLesson.toInterventionFields, folded.symm⟩
  have longEnough : stackLesson.json.json.QuotesFit :=
    (quotesFit_iff parsed).mpr (by decide +kernel)
  have agree := contracts_agree_exactly fun _ => none
  have validated := (agree.2 stackLesson.json _ parsed).mpr ⟨isUnicode, longEnough⟩
  rw [folded] at validated
  exact ⟨(agree.1 stackLesson).mpr fits, validated⟩

/-! ### Where they differ -/

/-- Guidance whose sources block names the citation before the first. -/
def negativeIndex : TutorIntervention where
  version := .v2
  situation := .grounded
  blocks := [.explanation "Pila" "Last in, first out.", .sources [-1]]
  citations := [{ chunkId := default, quote := "a stack is last in, first out" }]
  grounded := true
  checked := by decide

/-- The service accepts a negative index that the client refuses. -/
theorem not_contractsAgree : ¬ ∃ intOfText, ContractsAgree intOfText := by
  rintro ⟨intOfText, returned, _⟩
  have fits := (client_reads_iff negativeIndex).mp (returned negativeIndex)
  have nonnegative : (InterventionBlock.sources [-1]).FitsWeb := fits.1 _ (by simp [negativeIndex])
  exact absurd (nonnegative (-1) (by simp)) (by decide)

end Docta.Contract
