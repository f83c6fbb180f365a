/-
Module: Docta.Contract.Rendering
Purpose: The text and the actions the client derives from an intervention are
  the ones the service stored, for every intervention both sides accept.
Trusted boundary: none
Main exports: exists_label_of_check, part_mirror, renderings_agree
-/
import Docta.Contract.Parity

namespace Docta.Contract

open Fallible

/-! ### Joining -/

theorem map_intercalate {α β : Type} (function : α → β) (separator : List α) :
    ∀ parts : List (List α), (separator.intercalate parts).map function =
      (separator.map function).intercalate (parts.map (List.map function))
  | [] => rfl
  | [part] => by simp
  | part :: next :: parts => by
      simp only [List.map_cons, List.intercalate_cons_cons, List.map_append,
        map_intercalate function separator (next :: parts)]

/-- `separator.join(parts)` is the same text on both sides. -/
theorem ofString_intercalate (separator : String) (parts : List String) :
    JString.ofString (separator.intercalate parts) =
      (JString.ofString separator).intercalate (parts.map JString.ofString) := by
  rw [JString.ofString, String.toList_intercalate, map_intercalate, List.map_map]
  rfl

/-! ### Labels -/

/-- A label found among the nodes is found among their mirrors. -/
theorem labelOf?_mirror (nodes : List DiagramNode) (id : String) :
    Web.labelOf? (nodes.map DiagramNode.mirror) (JString.ofString id) =
      (labelOf? nodes id).map JString.ofString := by
  simp only [Web.labelOf?, labelOf?, ← List.map_reverse, List.find?_map, Function.comp_def,
    DiagramNode.mirror, JString.ofString_inj, Option.map_map]

/-- The id of a node has a label. -/
theorem exists_label {nodes : List DiagramNode} {id : String} (known : id ∈ nodes.map (·.id)) :
    ∃ label, labelOf? nodes id = some label := by
  obtain ⟨node, member, rfl⟩ := List.mem_map.mp known
  have found : ((nodes.reverse.find? fun other => other.id = node.id).isSome) := by
    rw [List.find?_isSome]
    exact ⟨node, List.mem_reverse.mpr member, by simp⟩
  obtain ⟨labelled, labelledEq⟩ := Option.isSome_iff_exists.mp found
  exact ⟨labelled.label, by simp [labelOf?, labelledEq]⟩

/-- Both ends of an edge of a checked diagram have a label. -/
theorem exists_label_of_check {kind : DiagramKind} {title : String} {nodes : List DiagramNode}
    {edges : List DiagramEdge}
    (checked : (InterventionBlock.diagram kind title nodes edges).check = .ok ())
    {edge : DiagramEdge} (member : edge ∈ edges) :
    (∃ label, labelOf? nodes edge.source = some label) ∧
      ∃ label, labelOf? nodes edge.target = some label :=
  (ends_of_check checked member).imp exists_label exists_label

theorem stepText_mirror {nodes : List DiagramNode} {edge : DiagramEdge}
    (source : ∃ label, labelOf? nodes edge.source = some label)
    (target : ∃ label, labelOf? nodes edge.target = some label) :
    Web.stepText (nodes.map DiagramNode.mirror) edge.mirror =
      JString.ofString (stepText nodes edge) := by
  obtain ⟨sourceLabel, sourceEq⟩ := source
  obtain ⟨targetLabel, targetEq⟩ := target
  have emptyLabel : JString.ofString edge.label = [] ↔ edge.label = "" := by
    rw [← JString.ofString_inj]
    rfl
  simp only [Web.stepText, stepText, DiagramEdge.mirror, labelOf?_mirror, sourceEq, targetEq,
    Option.map_some, Option.getD_some, emptyLabel, JString.ofString_append]
  by_cases empty : edge.label = ""
  · simp [empty, JString.ofString]
  · simp [empty, JString.ofString_append]

theorem optionText_mirror (option : ActivityOption × Nat) :
    Web.optionText (option.1.mirror, option.2) = JString.ofString (optionText option) := by
  simp only [Web.optionText, optionText, optionLetter, ActivityOption.mirror,
    JString.ofString_append]

/-! ### Blocks -/

/-- A checked block renders to the same text on both sides. -/
theorem part_mirror {block : InterventionBlock} (checked : block.check = .ok ()) :
    block.mirror.part = JString.ofString block.part := by
  cases block with
  | question text =>
      simp only [InterventionBlock.mirror, Web.Block.part, InterventionBlock.part]
  | hint level text =>
      simp only [InterventionBlock.mirror, Web.Block.part, InterventionBlock.part,
        JString.ofString_append]
  | explanation title text =>
      simp only [InterventionBlock.mirror, Web.Block.part, InterventionBlock.part,
        JString.ofString_append]
  | diagram kind title nodes edges =>
      have steps : (edges.map DiagramEdge.mirror).map
          (Web.stepText (nodes.map DiagramNode.mirror)) =
            (edges.map (stepText nodes)).map JString.ofString := by
        rw [List.map_map, List.map_map]
        refine List.map_congr_left fun edge member => ?_
        obtain ⟨source, target⟩ := exists_label_of_check checked member
        exact stepText_mirror source target
      have caption : Web.kindText kind = JString.ofString kind.caption := by
        cases kind with
        | sequence => rfl
        | relations => rfl
      simp only [InterventionBlock.mirror, Web.Block.part, InterventionBlock.part, steps, caption,
        JString.ofString_append, ofString_intercalate]
  | activity questionText options correct hintText explanationText =>
      have lines : (options.map ActivityOption.mirror).zipIdx.map Web.optionText =
          (options.zipIdx.map optionText).map JString.ofString := by
        rw [List.zipIdx_map, List.map_map, List.map_map]
        apply List.map_congr_left
        intro option _
        rw [Function.comp_apply, Function.comp_apply]
        exact optionText_mirror option
      have heading : Web.activityHeading = activityHeading := rfl
      simp only [InterventionBlock.mirror, Web.Block.part, InterventionBlock.part, heading, lines,
        JString.ofString_append, ofString_intercalate]
  | sources citationIndexes =>
      have numbers : (citationIndexes.map fun index =>
          JString.ofString "[" ++ JString.ofString (toString (index + 1)) ++
            JString.ofString "]") =
          (citationIndexes.map fun index => "[" ++ toString (index + 1) ++ "]").map
            JString.ofString := by
        simp
      simp only [InterventionBlock.mirror, Web.Block.part, InterventionBlock.part, numbers,
        JString.ofString_append, ofString_intercalate]

/-! ### Whole interventions -/

theorem equivalentText_mirror (intervention : TutorIntervention) :
    Web.equivalentText intervention.mirror =
      JString.ofString (equivalentText intervention.toInterventionFields) := by
  have checked := intervention.checked
  simp only [InterventionFields.check, bind_eq_ok] at checked
  obtain ⟨_, blocksOk, _⟩ := checked
  have eachBlock := exists_mapM_eq_ok_iff.mp ⟨_, blocksOk⟩
  rw [Web.equivalentText, equivalentText, ofString_intercalate, InterventionFields.mirror,
    List.map_map, List.map_map]
  congr 1
  exact List.map_congr_left fun block member => part_mirror (eachBlock block member)

theorem allowedActions_mirror (fields : InterventionFields) :
    Web.allowedActions fields.mirror = allowedActions fields := by
  have cited : fields.mirror.citations.length ≠ 0 ↔ fields.citations ≠ [] := by
    simp [InterventionFields.mirror]
  rw [Web.allowedActions, if_congr cited rfl rfl]
  rfl

/-- What both sides accept, both sides render to the same text and actions. -/
theorem renderings_agree {intOfText : JString → Option Int} {value : Json}
    {intervention : TutorIntervention} {found : Web.TutorIntervention}
    (validated : modelValidate intOfText value = .ok intervention)
    (parsed : Web.parseIntervention value = .ok found) :
    Web.equivalentText found =
        JString.ofString (equivalentText intervention.toInterventionFields) ∧
      Web.allowedActions found = allowedActions intervention.toInterventionFields := by
  simp only [modelValidate, bind_eq_ok] at validated
  obtain ⟨fields, decoded, checkedOk⟩ := validated
  have same := TutorIntervention.ofFields_eq_ok.mp checkedOk
  have mirrored : intervention.mirror = found.foldCase := by
    rw [same]
    exact ((fields_spec intOfText parsed).1 fields).mp decoded
  have textFolded : Web.equivalentText found.foldCase = Web.equivalentText found := rfl
  have actionsFolded : Web.allowedActions found.foldCase = Web.allowedActions found := by
    have count : found.foldCase.citations.length = found.citations.length := by
      simp [Web.TutorIntervention.foldCase]
    rw [Web.allowedActions, Web.allowedActions, count]
    rfl
  rw [← textFolded, ← actionsFolded, ← mirrored]
  exact ⟨equivalentText_mirror intervention, allowedActions_mirror _⟩

/-- Both sides render the lesson to this text, with these actions. -/
theorem renderings_agree_on_lesson :
    Web.equivalentText stackLesson.mirror = JString.ofString
        ("La pila. El último elemento que entra es el primero que sale.\n\n" ++
          "Secuencia: Apilar y desapilar. " ++
          "Pila vacía → Un plato 🥞 (push); Un plato 🥞 → Pila vacía (pop).\n\n" ++
          "Ahora te toca razonar: ¿Qué elemento sale primero?\nA. El último\nB. El primero\n\n" ++
          "Fuentes: [2] [1].") ∧
      Web.allowedActions stackLesson.mirror = [.explain, .viewSource] := by
  have fits : stackLesson.FitsWeb := by decide +kernel
  obtain ⟨sameText, sameActions⟩ := renderings_agree (modelValidate_dump (fun _ => none) stackLesson)
    (InterventionFields.parse_dump stackLesson.checked fits)
  refine ⟨sameText.trans ?_, sameActions⟩
  exact congrArg JString.ofString (by decide +kernel)

end Docta.Contract
