/-
Module: Docta.Rag.Validator
Purpose: The evidence response validator, and what a draft it returns is worth:
  either it is uncited and ungrounded, or it is grounded, cited, and every quote
  is a contiguous part of the evidence it names.
Trusted boundary: Unicode case tables and the lax integer coercion are parameters
Main exports: ModelDraft, EvidenceResponseValidator.validate, TutorDraft.Sound,
  sound_of_validate
-/
import Docta.Library.Text
import Docta.Rag.Draft

namespace Docta

open Contract Fallible

/-- What a tutor model hands over, however it was built: its JSON dump, or
nothing when dumping it raises a value, attribute or type error. -/
abbrev ModelDraft := Option Json

/-- The data the validator's libraries bring. -/
structure ValidatorData where
  unicode : Text.UnicodeData
  intOfText : JString → Option Int

namespace EvidenceResponseValidator

variable (data : ValidatorData)

/-- The draft is what its structured intervention derives to, and cites each
chunk at most once. -/
def Derived (draft : TutorDraft) (intervention : InterventionFields) : Prop :=
  draft.answer = equivalentText intervention ∧ draft.mode = modeFor intervention ∧
    draft.grounded = intervention.grounded ∧ draft.citations = intervention.citations ∧
      (intervention.citations.map (·.chunkId)).Nodup

instance (draft : TutorDraft) (intervention : InterventionFields) :
    Decidable (Derived draft intervention) :=
  inferInstanceAs (Decidable (_ ∧ _ ∧ _ ∧ _ ∧ _))

/-- The quote as it stands in the content: verbatim, or the unique span that
differs from it in letter case only. -/
def verbatimQuote (content quote : String) : Except Failure String :=
  if Text.Contains content quote then .ok quote
  else
    match Text.occurrences data.unicode.sameIgnoringCase quote.toList content.toList with
    | [span] => .ok (String.ofList span)
    | _ => .error (.rag "MODEL_OUTPUT_INVALID")

/-- The loop over the draft's citations; `seen` are the chunks cited so far. -/
def checkCitations (evidence : List Evidence) :
    List UUID → List IntentCitation → Except Failure (List IntentCitation)
  | _, [] => .ok []
  | seen, citation :: citations =>
      match evidence.find? fun item => item.chunkId = citation.chunkId with
      | none => .error (.rag "MODEL_OUTPUT_INVALID")
      | some item => do
          failIf (Text.isBlank citation.quote) (.rag "MODEL_OUTPUT_INVALID")
          let quote ← verbatimQuote data item.content citation.quote
          if citation.chunkId ∈ seen then checkCitations evidence seen citations
          else do
            let kept ← (IntentCitation.construct citation.chunkId quote).mapError .validation
            let rest ← checkCitations evidence (citation.chunkId :: seen) citations
            return kept :: rest

/-- The part of `validate` that looks at the evidence. -/
def validateEvidence (draft : TutorDraft) (request : TutorRequest) :
    Except Failure TutorDraft := do
  failIf (¬ (request.evidence.map (·.chunkId)).Nodup ∨
      ∃ item ∈ request.evidence, item.courseId ≠ request.scope.courseId ∨
        item.corpusVersionId ≠ request.scope.corpusVersionId)
    (.rag "RETRIEVAL_SCOPE_INVALID")
  if draft.mode = .abstain then do
    failIf (draft.grounded ∨ draft.citations ≠ []) (.rag "MODEL_OUTPUT_INVALID")
    -- A provider cannot smuggle unsupported factual text inside an abstention.
    return abstention
  else do
    failIf (request.evidence = [] ∨ ¬ draft.grounded ∨ draft.citations = [])
      (.rag "MODEL_OUTPUT_INVALID")
    failIf (Text.isBlank draft.answer) (.rag "MODEL_OUTPUT_INVALID")
    let citations ← checkCitations data request.evidence [] draft.citations
    match draft.intervention with
    | some intervention => do
        -- `model_copy` does not validate, so the repaired fields are taken as they are.
        let repaired ← citations.mapM fun citation =>
          (IntentCitation.construct citation.chunkId citation.quote).mapError .validation
        (draftFromIntervention { intervention with citations := repaired }).mapError .validation
    | none => return { draft with citations := citations }

/-- `EvidenceResponseValidator.validate(draft, request)`. -/
def validate (draft : ModelDraft) (request : TutorRequest) : Except Failure TutorDraft :=
  match draft.map (TutorDraft.modelValidate data.intOfText) with
  | some (.ok draft) =>
      match draft.intervention with
      | some intervention =>
          if Derived draft intervention then
            -- Bounded coordination: one uncited question and no factual content.
            if intervention.situation = .ambiguous then .ok draft
            else validateEvidence data draft request
          else .error (.rag "MODEL_OUTPUT_INVALID")
      | none => validateEvidence data draft request
  | _ => .error (.rag "MODEL_OUTPUT_INVALID")

end EvidenceResponseValidator

/-! ### What the validator guarantees -/

/-- The citation quotes a contiguous part of one of the evidence items. -/
def Contract.IntentCitation.QuotedFrom (evidence : List Evidence) (citation : IntentCitation) : Prop :=
  ∃ item ∈ evidence, item.chunkId = citation.chunkId ∧ Text.Contains item.content citation.quote

/-- A draft that may be stored: uncited and ungrounded, or grounded and cited
with quotes of the evidence, each chunk once. -/
structure TutorDraft.Sound (evidence : List Evidence) (draft : TutorDraft) : Prop where
  grounded_iff : draft.grounded = true ↔ draft.citations ≠ []
  distinct : (draft.citations.map (·.chunkId)).Nodup
  quoted : ∀ citation ∈ draft.citations, citation.QuotedFrom evidence

theorem sound_of_uncited {evidence : List Evidence} {draft : TutorDraft}
    (ungrounded : draft.grounded = false) (uncited : draft.citations = []) :
    draft.Sound evidence := by
  refine ⟨?_, ?_, ?_⟩
  · simp [ungrounded, uncited]
  · simp [uncited]
  · simp [uncited]

theorem abstention_sound (evidence : List Evidence) : abstention.Sound evidence :=
  sound_of_uncited rfl rfl

open EvidenceResponseValidator

section Checked

variable {data : ValidatorData} {evidence : List Evidence}

/-- A repaired quote stands in the content. -/
theorem contains_of_verbatimQuote {content quote repaired : String}
    (ok : verbatimQuote data content quote = .ok repaired) : Text.Contains content repaired := by
  unfold verbatimQuote at ok
  split at ok
  · rename_i contained
    cases ok
    exact contained
  · split at ok
    · rename_i span spanEq
      cases ok
      have member : span ∈ Text.occurrences data.unicode.sameIgnoringCase quote.toList
          content.toList := by
        rw [spanEq]
        exact List.mem_singleton_self span
      unfold Text.Contains
      rw [String.toList_ofList]
      exact Text.infix_of_mem_occurrences _ _ member
    · cases ok

/-- The kept citations quote the evidence and name chunks not seen before, each once. -/
theorem checkCitations_spec : ∀ {citations : List IntentCitation} {seen : List UUID}
    {kept : List IntentCitation}, checkCitations data evidence seen citations = .ok kept →
      (kept.map (·.chunkId)).Nodup ∧ (∀ citation ∈ kept, citation.chunkId ∉ seen) ∧
        ∀ citation ∈ kept, citation.QuotedFrom evidence
  | [], seen, kept, ok => by
      cases ok
      simp
  | citation :: citations, seen, kept, ok => by
      unfold checkCitations at ok
      split at ok
      · cases ok
      · rename_i item found
        simp only [bind_eq_ok, failIf_eq_ok] at ok
        obtain ⟨_, _, quote, quoteOk, rest⟩ := ok
        by_cases isSeen : citation.chunkId ∈ seen
        · rw [if_pos isSeen] at rest
          exact checkCitations_spec rest
        · simp only [if_neg isSeen, bind_eq_ok, pure_eq_ok, mapError_eq_ok,
            IntentCitation.construct_eq_ok] at rest
          obtain ⟨head, ⟨rfl, _⟩, tail, tailOk, rfl⟩ := rest
          obtain ⟨distinct, fresh, quoted⟩ := checkCitations_spec tailOk
          have headQuoted : IntentCitation.QuotedFrom evidence
              { chunkId := citation.chunkId, quote } :=
            ⟨item, List.mem_of_find?_eq_some found, by simpa using List.find?_some found,
              contains_of_verbatimQuote quoteOk⟩
          refine ⟨?_, ?_, ?_⟩
          · rw [List.map_cons, List.nodup_cons]
            refine ⟨fun repeated => ?_, distinct⟩
            obtain ⟨other, member, sameChunk⟩ := List.mem_map.mp repeated
            exact fresh other member (sameChunk ▸ List.mem_cons_self)
          · intro other member
            rcases List.mem_cons.mp member with rfl | inTail
            · exact isSeen
            · exact fun inSeen => fresh other inTail (List.mem_cons_of_mem _ inSeen)
          · intro other member
            rcases List.mem_cons.mp member with rfl | inTail
            · exact headQuoted
            · exact quoted other inTail

/-- The first citation of a draft is always kept. -/
theorem checkCitations_ne_nil {citations kept : List IntentCitation}
    (ok : checkCitations data evidence [] citations = .ok kept) (cited : citations ≠ []) :
    kept ≠ [] := by
  cases citations with
  | nil => exact absurd rfl cited
  | cons citation citations =>
      unfold checkCitations at ok
      split at ok
      · cases ok
      · simp only [bind_eq_ok, List.not_mem_nil, if_false, pure_eq_ok] at ok
        obtain ⟨_, _, _, _, _, _, _, _, rfl⟩ := ok
        exact List.cons_ne_nil _ _

/-- Constructing the kept citations again returns them. -/
theorem mapM_construct_mapError {citations repaired : List IntentCitation}
    (ok : citations.mapM (fun citation =>
      (IntentCitation.construct citation.chunkId citation.quote).mapError Failure.validation) =
        .ok repaired) : repaired = citations := by
  have pointwise := mapM_eq_ok_iff_forall₂.mp ok
  refine mapM_construct_eq_ok (mapM_eq_ok_iff_forall₂.mpr (pointwise.imp ?_))
  intro citation result constructed
  exact mapError_eq_ok.mp constructed

/-- A draft whose evidence was checked is sound. -/
theorem sound_of_validateEvidence {draft validated : TutorDraft} {request : TutorRequest}
    (derived : ∀ intervention ∈ draft.intervention, draft.grounded = intervention.grounded)
    (ok : validateEvidence data draft request = .ok validated) :
    validated.Sound request.evidence := by
  simp only [validateEvidence, bind_eq_ok, failIf_eq_ok] at ok
  obtain ⟨_, _, rest⟩ := ok
  by_cases abstains : draft.mode = .abstain
  · simp only [abstains, if_true, bind_eq_ok, pure_eq_ok] at rest
    obtain ⟨_, _, rfl⟩ := rest
    exact abstention_sound _
  · simp only [if_neg abstains, bind_eq_ok, failIf_eq_ok, not_or, Decidable.not_not] at rest
    obtain ⟨_, ⟨_, grounded, cited⟩, _, _, citations, citationsOk, final⟩ := rest
    obtain ⟨distinct, _, quoted⟩ := checkCitations_spec citationsOk
    have kept := checkCitations_ne_nil citationsOk cited
    have sound : ∀ result : TutorDraft, result.citations = citations →
        result.grounded = true → result.Sound request.evidence := by
      intro result sameCitations isGrounded
      refine ⟨?_, ?_, ?_⟩
      · simp [isGrounded, sameCitations, kept]
      · rw [sameCitations]
        exact distinct
      · rw [sameCitations]
        exact quoted
    split at final
    · rename_i intervention interventionEq
      simp only [bind_eq_ok, mapError_eq_ok] at final
      obtain ⟨repaired, repairedOk, draftOk⟩ := final
      have repairedEq := mapM_construct_mapError repairedOk
      obtain ⟨sameCitations, sameGrounded, _⟩ := draftFromIntervention_eq_ok draftOk
      refine sound validated (sameCitations.trans repairedEq) (sameGrounded.trans ?_)
      exact (derived intervention interventionEq).symm.trans grounded
    · cases final
      exact sound _ rfl grounded

/-- An accepted intervention that asks for clarification is uncited. -/
theorem uncited_of_ambiguous {intervention : InterventionFields}
    (checked : intervention.check = .ok ()) (ambiguous : intervention.situation = .ambiguous) :
    intervention.grounded = false ∧ intervention.citations = [] := by
  simp only [InterventionFields.check, InterventionFields.coherent, bind_eq_ok] at checked
  obtain ⟨_, _, _, _, _, _, _, _, _, _, _, _, _, _, rule⟩ := checked
  simp only [InterventionFields.evidenceRule, ambiguous, failIf_eq_ok, not_or, ne_eq,
    Decidable.not_not] at rule
  exact ⟨by simpa using rule.1, rule.2.1⟩

/-- An intervention read back from a draft passed the contract. -/
theorem checked_of_modelValidate {intOfText : JString → Option Int} {value : Json}
    {draft : TutorDraft} (ok : TutorDraft.modelValidate intOfText value = .ok draft)
    {intervention : InterventionFields} (isSome : draft.intervention = some intervention) :
    intervention.check = .ok () := by
  simp only [TutorDraft.modelValidate, bind_eq_ok, TutorDraft.construct_eq_ok] at ok
  obtain ⟨_, _, _, _, _, _, _, _, _, _, decoded, decodedOk, rfl, _⟩ := ok
  subst isSome
  unfold decodeIntervention at decodedOk
  split at decodedOk
  · cases decodedOk
  · cases decodedOk
  · simp only [bind_eq_ok, pure_eq_ok] at decodedOk
    obtain ⟨validated, _, same⟩ := decodedOk
    cases same
    exact validated.checked

/-- A draft that asks for clarification passes as it is. -/
theorem validate_of_ambiguous {value : Json} {draft : TutorDraft} {intervention : InterventionFields}
    {request : TutorRequest} (read : TutorDraft.modelValidate data.intOfText value = .ok draft)
    (structured : draft.intervention = some intervention) (derived : Derived draft intervention)
    (ambiguous : intervention.situation = .ambiguous) :
    validate data (some value) request = .ok draft := by
  unfold validate
  rw [Option.map_some, read]
  simp only [structured, if_pos derived, if_pos ambiguous]

/-- A draft without structure is held against the evidence. -/
theorem validate_of_unstructured {value : Json} {draft : TutorDraft} {request : TutorRequest}
    (read : TutorDraft.modelValidate data.intOfText value = .ok draft)
    (unstructured : draft.intervention = none) :
    validate data (some value) request = validateEvidence data draft request := by
  unfold validate
  rw [Option.map_some, read]
  simp only [unstructured]

/-- Whatever a model returns, a draft the validator lets pass is sound for the
evidence of the request. -/
theorem sound_of_validate {draft : ModelDraft} {request : TutorRequest} {validated : TutorDraft}
    (ok : validate data draft request = .ok validated) : validated.Sound request.evidence := by
  unfold validate at ok
  split at ok
  · rename_i read readEq
    obtain ⟨value, _, readOk⟩ := Option.map_eq_some_iff.mp readEq
    split at ok
    · rename_i intervention interventionEq
      split at ok
      · rename_i derived
        obtain ⟨_, _, sameGrounded, sameCitations, _⟩ := derived
        split at ok
        · rename_i ambiguous
          cases ok
          obtain ⟨ungrounded, uncited⟩ :=
            uncited_of_ambiguous (checked_of_modelValidate readOk interventionEq) ambiguous
          exact sound_of_uncited (sameGrounded.trans ungrounded) (sameCitations.trans uncited)
        · refine sound_of_validateEvidence ?_ ok
          intro other otherEq
          rw [interventionEq] at otherEq
          cases otherEq
          exact sameGrounded
      · cases ok
    · rename_i noIntervention
      refine sound_of_validateEvidence ?_ ok
      intro other otherEq
      rw [noIntervention] at otherEq
      cases otherEq
  · cases ok

end Checked

end Docta
