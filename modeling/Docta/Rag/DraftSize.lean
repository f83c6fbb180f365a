/-
Module: Docta.Rag.DraftSize
Purpose: Which interventions become drafts: the characters an intervention
  renders to, field by field, against the bound of a draft's answer.
Trusted boundary: none
Main exports: InterventionBlock.size, InterventionFields.renderedSize,
  length_equivalentText, drafts_iff_fits
-/
import Docta.Rag.Draft

namespace Docta

open Contract Fallible

/-! ### Sizes -/

/-- The characters of joined parts, with a gap between neighbours. -/
def joinedSize (gap : Nat) (sizes : List Nat) : Nat :=
  sizes.sum + gap * (sizes.length - 1)

/-- The characters of a rendered step. -/
def Contract.DiagramEdge.size (nodes : List DiagramNode) (edge : DiagramEdge) : Nat :=
  ((labelOf? nodes edge.source).getD "").length + 3 +
    ((labelOf? nodes edge.target).getD "").length +
      if edge.label = "" then 0 else edge.label.length + 3

/-- The characters a block renders to. -/
def Contract.InterventionBlock.size : InterventionBlock → Nat
  | .question text => text.length
  | .hint level text => 8 + (toString level).length + text.length
  | .explanation title text => title.length + 2 + text.length
  | .diagram kind title nodes edges =>
      kind.caption.length + title.length + 5 + joinedSize 2 (edges.map (DiagramEdge.size nodes))
  | .activity questionText options _ _ _ =>
      questionText.length + 24 + joinedSize 1 (options.map fun option => option.text.length + 3)
  | .sources citationIndexes =>
      10 + joinedSize 1 (citationIndexes.map fun index => (toString (index + 1)).length + 2)

/-- The characters an intervention renders to: its blocks with an empty line
between neighbours. -/
def Contract.InterventionFields.renderedSize (intervention : InterventionFields) : Nat :=
  joinedSize 2 (intervention.blocks.map InterventionBlock.size)

theorem length_intercalate (separator : String) (parts : List String) :
    (separator.intercalate parts).length =
      joinedSize separator.length (parts.map String.length) := by
  induction parts with
  | nil => simp [joinedSize]
  | cons part parts ih =>
      cases parts with
      | nil => simp [joinedSize]
      | cons next parts =>
          rw [String.intercalate_cons_cons, String.length_append, String.length_append, ih]
          simp only [joinedSize, List.map_cons, List.sum_cons, List.length_cons, List.length_map,
            Nat.add_sub_cancel, Nat.mul_succ]
          omega

theorem length_stepText (nodes : List DiagramNode) (edge : DiagramEdge) :
    (stepText nodes edge).length = edge.size nodes := by
  have arrow : " → ".length = 3 := rfl
  have opening : " (".length = 2 := rfl
  have closing : ")".length = 1 := rfl
  rw [stepText, DiagramEdge.size]
  split
  · simp only [String.length_append, arrow, String.length_empty]
  · simp only [String.length_append, arrow, opening, closing]
    omega

theorem length_optionText (option : ActivityOption × Nat) :
    (optionText option).length = option.1.text.length + 3 := by
  have dot : ". ".length = 2 := rfl
  rw [optionText]
  simp only [String.length_append, String.length_singleton, dot]
  omega

theorem length_part (block : InterventionBlock) : block.part.length = block.size := by
  cases block with
  | question text => rfl
  | hint level text =>
      have word : "Pista ".length = 6 := rfl
      have colon : ": ".length = 2 := rfl
      simp only [InterventionBlock.part, InterventionBlock.size, String.length_append, word, colon]
      omega
  | explanation title text =>
      have dot : ". ".length = 2 := rfl
      simp only [InterventionBlock.part, InterventionBlock.size, String.length_append, dot]
  | diagram kind title nodes edges =>
      have colon : ": ".length = 2 := rfl
      have dot : ". ".length = 2 := rfl
      have gap : "; ".length = 2 := rfl
      have stop : ".".length = 1 := rfl
      have steps : (edges.map (stepText nodes)).map String.length =
          edges.map (DiagramEdge.size nodes) := by
        rw [List.map_map]
        exact List.map_congr_left fun edge _ => length_stepText nodes edge
      simp only [InterventionBlock.part, InterventionBlock.size, String.length_append,
        length_intercalate, steps, colon, dot, gap, stop]
      omega
  | activity questionText options correctOptionId hintText explanationText =>
      have heading : activityHeading.length = 23 := rfl
      have line : "\n".length = 1 := rfl
      have lines : (options.zipIdx.map optionText).map String.length =
          options.map fun option => option.text.length + 3 := by
        rw [List.map_map]
        calc options.zipIdx.map (String.length ∘ optionText)
            = options.zipIdx.map ((fun option => option.text.length + 3) ∘ Prod.fst) :=
              List.map_congr_left fun option _ => length_optionText option
          _ = (options.zipIdx.map Prod.fst).map fun option => option.text.length + 3 := by
              rw [List.map_map]
          _ = options.map fun option => option.text.length + 3 := by
              rw [List.zipIdx_map_fst]
      simp only [InterventionBlock.part, InterventionBlock.size, String.length_append,
        length_intercalate, lines, heading, line]
      omega
  | sources citationIndexes =>
      have heading : "Fuentes: ".length = 9 := rfl
      have gap : " ".length = 1 := rfl
      have opening : "[".length = 1 := rfl
      have closing : "]".length = 1 := rfl
      have stop : ".".length = 1 := rfl
      have marks : (citationIndexes.map fun index => "[" ++ toString (index + 1) ++ "]").map
          String.length = citationIndexes.map fun index => (toString (index + 1)).length + 2 := by
        rw [List.map_map]
        apply List.map_congr_left
        intro index _
        simp only [Function.comp_apply, String.length_append, opening, closing]
        omega
      simp only [InterventionBlock.part, InterventionBlock.size, String.length_append,
        length_intercalate, marks, heading, gap, stop]
      omega

theorem length_equivalentText (intervention : InterventionFields) :
    (equivalentText intervention).length = intervention.renderedSize := by
  have gap : "\n\n".length = 2 := rfl
  have parts : (intervention.blocks.map InterventionBlock.part).map String.length =
      intervention.blocks.map InterventionBlock.size := by
    rw [List.map_map]
    exact List.map_congr_left fun block _ => length_part block
  rw [equivalentText, length_intercalate, parts, gap]
  rfl

/-! ### Which interventions become drafts -/

/-- A block within its bounds renders to some character. -/
theorem size_pos_of_check {block : InterventionBlock} (checked : block.check = .ok ()) :
    0 < block.size := by
  cases block with
  | question text =>
      rw [InterventionBlock.check, checkText_eq_ok] at checked
      exact checked.1
  | hint level text => rw [InterventionBlock.size]; omega
  | explanation title text => rw [InterventionBlock.size]; omega
  | diagram kind title nodes edges => rw [InterventionBlock.size]; omega
  | activity questionText options correctOptionId hintText explanationText =>
      rw [InterventionBlock.size]; omega
  | sources citationIndexes => rw [InterventionBlock.size]; omega

/-- What the checks of an intervention say of its lists. -/
theorem lists_of_check {intervention : InterventionFields}
    (checked : intervention.check = .ok ()) :
    (∀ block ∈ intervention.blocks, block.check = .ok ()) ∧ 1 ≤ intervention.blocks.length ∧
      (∀ citation ∈ intervention.citations, citation.check = .ok ()) ∧
        intervention.citations.length ≤ 5 := by
  simp only [InterventionFields.check, bind_eq_ok, checkLength_eq_ok] at checked
  obtain ⟨parts, partsOk, _, size, results, resultsOk, _, few, _⟩ := checked
  exact ⟨exists_mapM_eq_ok_iff.mp ⟨parts, partsOk⟩, size.1,
    exists_mapM_eq_ok_iff.mp ⟨results, resultsOk⟩, few.2⟩

/-- An accepted intervention renders to some character. -/
theorem renderedSize_pos {intervention : InterventionFields}
    (checked : intervention.check = .ok ()) : 0 < intervention.renderedSize := by
  obtain ⟨blocksOk, some, _, _⟩ := lists_of_check checked
  rw [InterventionFields.renderedSize, joinedSize]
  cases blocks : intervention.blocks with
  | nil =>
      rw [blocks] at some
      exact absurd some (by decide)
  | cons block rest =>
      have first := size_pos_of_check (blocksOk block (by rw [blocks]; exact List.mem_cons_self))
      rw [List.map_cons, List.sum_cons]
      omega

/-- An accepted intervention that renders to at most 6000 characters has its draft. -/
theorem draftFromIntervention_of_fits (intervention : TutorIntervention)
    (fits : intervention.renderedSize ≤ 6000) :
    draftFromIntervention intervention.toInterventionFields =
      .ok { mode := modeFor intervention.toInterventionFields
            answer := equivalentText intervention.toInterventionFields
            citations := intervention.citations, grounded := intervention.grounded
            intervention := some intervention.toInterventionFields } := by
  obtain ⟨_, _, citationsOk, few⟩ := lists_of_check intervention.checked
  obtain ⟨results, resultsOk⟩ := exists_mapM_eq_ok_iff.mpr citationsOk
  have size := length_equivalentText intervention.toInterventionFields
  have positive := renderedSize_pos intervention.checked
  simp only [draftFromIntervention, bind_eq_ok]
  refine ⟨_, mapM_construct_self citationsOk, TutorDraft.construct_eq_ok.mpr ⟨rfl, ?_⟩⟩
  simp only [TutorDraft.check, bind_eq_ok, checkText_eq_ok, checkLength_eq_ok]
  exact ⟨(), ⟨by omega, by omega⟩, results, resultsOk, Nat.zero_le _, few⟩

/-- One that renders to more is refused for its answer. -/
theorem draftFromIntervention_of_exceeds (intervention : TutorIntervention)
    (exceeds : 6000 < intervention.renderedSize) :
    draftFromIntervention intervention.toInterventionFields = .error "string_too_long" := by
  obtain ⟨_, _, citationsOk, _⟩ := lists_of_check intervention.checked
  have size := length_equivalentText intervention.toInterventionFields
  have refused : checkText 1 6000 (equivalentText intervention.toInterventionFields) =
      .error "string_too_long" := by
    rw [checkText, failIf_of_not (by omega), ok_bind]
    exact failIf_eq_error.mpr ⟨by omega, rfl⟩
  rw [draftFromIntervention, mapM_construct_self citationsOk, ok_bind, TutorDraft.construct,
    TutorDraft.check]
  dsimp only
  rw [refused]
  rfl

/-- Every accepted intervention renders to at least one character and its
citations keep to the bounds of a draft's; its draft is made, with the fields
derived from it, exactly when the rendering has at most 6000 characters, which is
the bound of a draft's answer. -/
theorem drafts_iff_fits (intervention : TutorIntervention) :
    1 ≤ (equivalentText intervention.toInterventionFields).length ∧
      (∀ citation ∈ intervention.citations, citation.check = .ok ()) ∧
      intervention.citations.length ≤ 5 ∧
      (equivalentText intervention.toInterventionFields).length = intervention.renderedSize ∧
      draftFromIntervention intervention.toInterventionFields =
        if intervention.renderedSize ≤ 6000 then
          .ok { mode := modeFor intervention.toInterventionFields
                answer := equivalentText intervention.toInterventionFields
                citations := intervention.citations, grounded := intervention.grounded
                intervention := some intervention.toInterventionFields }
        else .error "string_too_long" := by
  obtain ⟨_, _, citationsOk, few⟩ := lists_of_check intervention.checked
  have size := length_equivalentText intervention.toInterventionFields
  have positive := renderedSize_pos intervention.checked
  refine ⟨by omega, citationsOk, few, size, ?_⟩
  split
  case isTrue fits => exact draftFromIntervention_of_fits intervention fits
  case isFalse exceeds =>
    exact draftFromIntervention_of_exceeds intervention (Nat.not_le.mp exceeds)

/-! ### An accepted intervention without a draft -/

/-- Four explanations of the same text, with one citation. -/
def fourExplanations (text : String) : InterventionFields where
  version := .v2
  situation := .grounded
  blocks := List.replicate 4 (.explanation "Causas" text)
  citations := [{ chunkId := .ofNat 1, quote := "last in, first out" }]
  grounded := true

theorem fourExplanations_check {text : String} (some : 1 ≤ text.length) (few : text.length ≤ 1500) :
    (fourExplanations text).check = .ok () := by
  have title : checkText 1 120 "Causas" = .ok () := rfl
  have block : (InterventionBlock.explanation "Causas" text).check = .ok () := by
    rw [InterventionBlock.check, title, ok_bind]
    exact checkText_eq_ok.mpr ⟨some, few⟩
  obtain ⟨parts, partsOk⟩ := exists_mapM_eq_ok_iff.mpr
    (fun other member => by rw [List.eq_of_mem_replicate member]; exact block :
      ∀ other ∈ (fourExplanations text).blocks, other.check = .ok ())
  have citations : (fourExplanations text).citations.mapM IntentCitation.check = .ok [()] := rfl
  rw [InterventionFields.check, partsOk, ok_bind, citations]
  rfl

theorem fourExplanations_renderedSize (text : String) :
    (fourExplanations text).renderedSize = 4 * text.length + 38 := by
  have size : (InterventionBlock.explanation "Causas" text).size = text.length + 8 := by
    have title : "Causas".length = 6 := rfl
    rw [InterventionBlock.size, title]
    omega
  rw [InterventionFields.renderedSize, fourExplanations, List.map_replicate, size, joinedSize]
  simp only [List.replicate, List.sum_cons, List.sum_nil, List.length_cons, List.length_nil]
  omega

/-- Four explanations within their bounds can render to more than a draft holds. -/
theorem not_every_intervention_drafts :
    ∃ intervention : TutorIntervention,
      intervention.toInterventionFields =
        fourExplanations (String.ofList (List.replicate 1500 'a')) ∧
      intervention.renderedSize = 6038 ∧
      draftFromIntervention intervention.toInterventionFields = .error "string_too_long" ∧
      ¬ ∃ draft, draftFromIntervention intervention.toInterventionFields = .ok draft := by
  have length : (String.ofList (List.replicate 1500 'a')).length = 1500 := by
    rw [String.length_ofList, List.length_replicate]
  have checked := fourExplanations_check (by rw [length]; decide) (Nat.le_of_eq length)
  have size := fourExplanations_renderedSize (String.ofList (List.replicate 1500 'a'))
  rw [length] at size
  have refused := draftFromIntervention_of_exceeds ⟨_, checked⟩ (by rw [size]; decide)
  refine ⟨⟨_, checked⟩, rfl, size, refused, ?_⟩
  intro drafts
  obtain ⟨draft, drafted⟩ := drafts
  rw [refused] at drafted
  cases drafted

end Docta
