/-
Module: Docta.Rag.Idempotence
Purpose: Validating a validated draft changes nothing, and a validated draft
  keeps the chunks that its blocks refer to by position.
Trusted boundary: white space has no letter case (`FoldsVisibly`)
Main exports: FoldsVisibly, Aligned, validate_idempotent
-/
import Docta.Rag.QuoteRepair

namespace Docta

open Contract Fallible EvidenceResponseValidator

/-- White space has no letter case: nothing else is the same as it up to case. -/
def Text.UnicodeData.FoldsVisibly (unicode : Text.UnicodeData) : Prop :=
  ∀ wanted char, unicode.sameIgnoringCase wanted char = true → Text.isSpace char = true →
    Text.isSpace wanted = true

/-! ### Matched spans -/

theorem Text.forall₂_of_occursHere {same : Char → Char → Bool} :
    ∀ {pattern text : List Char}, Text.occursHere same pattern text = true →
      List.Forall₂ (fun wanted char => same wanted char = true) pattern (text.take pattern.length)
  | [], _, _ => by
      rw [List.length_nil, List.take_zero]
      exact .nil
  | wanted :: pattern, [], occurs => by
      cases occurs
  | wanted :: pattern, char :: text, occurs => by
      rw [Text.occursHere, Bool.and_eq_true] at occurs
      rw [List.length_cons, List.take_succ_cons]
      exact .cons occurs.1 (Text.forall₂_of_occursHere occurs.2)

/-- A span agrees with the pattern character by character. -/
theorem Text.forall₂_of_mem_occurrencesFrom {same : Char → Char → Bool}
    {pattern span text : List Char} {skip : Nat}
    (member : span ∈ Text.occurrencesFrom same pattern skip text) :
    List.Forall₂ (fun wanted char => same wanted char = true) pattern span := by
  induction skip, text using Text.occurrencesFrom.induct same pattern with
  | case1 skip => simp [Text.occurrencesFrom] at member
  | case2 skip char text ih => exact ih member
  | case3 char text here ih =>
      rw [Text.occurrencesFrom, if_pos here] at member
      rcases List.mem_cons.mp member with first | later
      · rw [first]
        exact Text.forall₂_of_occursHere here
      · exact ih later
  | case4 char text notHere ih =>
      rw [Text.occurrencesFrom, if_neg notHere] at member
      exact ih member

/-- What a blank span matches is blank. -/
theorem Text.blank_of_forall₂ {unicode : Text.UnicodeData} (folds : unicode.FoldsVisibly)
    {pattern span : List Char}
    (agrees : List.Forall₂ (fun wanted char => unicode.sameIgnoringCase wanted char = true)
      pattern span) (blank : span.all Text.isSpace = true) : pattern.all Text.isSpace = true := by
  induction agrees with
  | nil => rfl
  | cons same _ ih =>
      rw [List.all_cons, Bool.and_eq_true] at blank ⊢
      exact ⟨folds _ _ same blank.1, ih blank.2⟩

section Citations

variable {data : ValidatorData} {evidence : List Evidence}

/-- A repaired quote is visible when the quote is. -/
theorem visible_of_verbatimQuote (folds : data.unicode.FoldsVisibly) {content quote repaired : String}
    (ok : verbatimQuote data content quote = .ok repaired)
    (visible : Text.isBlank quote = false) : Text.isBlank repaired = false := by
  rw [verbatimQuote] at ok
  split at ok
  · cases ok
    exact visible
  · split at ok
    case h_2 => cases ok
    case h_1 span found =>
      cases ok
      have member : span ∈ Text.occurrences data.unicode.sameIgnoringCase quote.toList
          content.toList := by
        rw [found]
        exact List.mem_singleton_self span
      rw [Text.isBlank, ← Bool.not_eq_true] at visible ⊢
      rw [String.toList_ofList]
      intro blank
      exact visible (Text.blank_of_forall₂ folds (Text.forall₂_of_mem_occurrencesFrom member) blank)

/-- Citations within their bounds that the loop accepts all pass. -/
theorem pass_of_checkCitations : ∀ {citations : List IntentCitation} {seen : List UUID}
    {kept : List IntentCitation}, (∀ citation ∈ citations, citation.check = .ok ()) →
      checkCitations data evidence seen citations = .ok kept →
      ∃ repaired, List.Forall₂ (Passes data evidence) citations repaired
  | [], _, _, _, _ => ⟨[], .nil⟩
  | citation :: citations, seen, kept, checked, ok => by
      obtain ⟨headChecked, tailChecked⟩ := List.forall_mem_cons.mp checked
      rw [checkCitations] at ok
      split at ok
      · cases ok
      · rename_i item found
        simp only [bind_eq_ok, failIf_eq_ok] at ok
        obtain ⟨_, visible, quote, quoteOk, rest⟩ := ok
        have passes : Passes data evidence citation { citation with quote } :=
          { chunk_eq := rfl
            checked := by
              rw [IntentCitation.check, checkText_eq_ok] at headChecked ⊢
              rw [length_of_verbatimQuote quoteOk]
              exact headChecked
            visible := Bool.eq_false_iff.mpr visible
            quoted := ⟨item, found, quoteOk⟩ }
        have tail : ∃ seen kept, checkCitations data evidence seen citations = .ok kept := by
          split at rest
          · exact ⟨_, _, rest⟩
          · simp only [bind_eq_ok] at rest
            obtain ⟨_, _, later, laterOk, _⟩ := rest
            exact ⟨_, later, laterOk⟩
        obtain ⟨later, laterKept, laterOk⟩ := tail
        obtain ⟨repaired, pass⟩ := pass_of_checkCitations tailChecked laterOk
        exact ⟨_ :: repaired, .cons passes pass⟩

/-- What a citation is repaired to passes unchanged. -/
theorem Passes.again (folds : data.unicode.FoldsVisibly) {citation repaired : IntentCitation}
    (passes : Passes data evidence citation repaired) : Passes data evidence repaired repaired := by
  obtain ⟨item, found, quoted⟩ := passes.quoted
  refine ⟨rfl, passes.checked, visible_of_verbatimQuote folds quoted passes.visible, item, ?_, ?_⟩
  · rw [passes.chunk_eq]
    exact found
  · rw [verbatimQuote, if_pos (contains_of_verbatimQuote quoted)]

theorem passes_again (folds : data.unicode.FoldsVisibly) {citations repaired : List IntentCitation}
    (pass : List.Forall₂ (Passes data evidence) citations repaired) :
    ∀ citation ∈ repaired, Passes data evidence citation citation := by
  induction pass with
  | nil => exact List.forall_mem_nil _
  | cons headPasses _ ih => exact List.forall_mem_cons.mpr ⟨headPasses.again folds, ih⟩

/-- The chunks of the citations kept: each chunk not seen, in the order of its
first citation. -/
theorem chunks_keepFirst : ∀ (seen : List UUID) (citations : List IntentCitation),
    (keepFirst seen citations).map (·.chunkId) =
      ((citations.map (·.chunkId)).filter (· ∉ seen)).eraseDups
  | _, [] => rfl
  | seen, citation :: citations => by
      rw [keepFirst, List.map_cons, List.filter_cons]
      by_cases isSeen : citation.chunkId ∈ seen
      · rw [if_pos isSeen, if_neg (by simpa using isSeen), chunks_keepFirst seen citations]
      · rw [if_neg isSeen, if_pos (by simpa using isSeen), List.map_cons, List.eraseDups_cons,
          chunks_keepFirst (citation.chunkId :: seen) citations, List.filter_filter]
        congr 2
        apply List.filter_congr
        intro chunkId _
        simp [beq_eq_decide]

/-- Citations of distinct chunks are all kept. -/
theorem keepFirst_eq_self : ∀ {seen : List UUID} {citations : List IntentCitation},
    (citations.map (·.chunkId)).Nodup → (∀ citation ∈ citations, citation.chunkId ∉ seen) →
      keepFirst seen citations = citations
  | _, [], _, _ => rfl
  | seen, citation :: citations, distinct, fresh => by
      obtain ⟨unseen, freshTail⟩ := List.forall_mem_cons.mp fresh
      obtain ⟨apart, distinctTail⟩ := List.nodup_cons.mp distinct
      rw [keepFirst, if_neg unseen, keepFirst_eq_self distinctTail]
      intro other member inSeen
      rcases List.mem_cons.mp inSeen with same | earlier
      · exact apart (List.mem_map.mpr ⟨other, member, same⟩)
      · exact freshTail other member earlier

/-- Citations of distinct chunks that all pass unchanged are kept as they are. -/
theorem checkCitations_eq_self {citations : List IntentCitation}
    (settled : ∀ citation ∈ citations, Passes data evidence citation citation)
    (distinct : (citations.map (·.chunkId)).Nodup) :
    checkCitations data evidence [] citations = .ok citations := by
  rw [checkCitations_eq_ok (List.forall₂_same.mpr settled), keepFirst_eq_self distinct]
  exact fun _ _ => List.not_mem_nil

end Citations

/-! ### The whole draft -/

section Drafts

variable {data : ValidatorData} {request : TutorRequest}

/-- The evidence of the request is of its own scope, each chunk once. -/
structure TutorRequest.Proper (request : TutorRequest) : Prop where
  distinct : (request.evidence.map (·.chunkId)).Nodup
  inScope : ∀ item ∈ request.evidence, item.courseId = request.scope.courseId ∧
    item.corpusVersionId = request.scope.corpusVersionId

theorem proper_iff :
    request.Proper ↔ ¬ (¬ (request.evidence.map (·.chunkId)).Nodup ∨
      ∃ item ∈ request.evidence, item.courseId ≠ request.scope.courseId ∨
        item.corpusVersionId ≠ request.scope.corpusVersionId) := by
  constructor
  · intro proper outside
    rcases outside with repeated | ⟨item, known, other⟩
    · exact repeated proper.distinct
    · have same := proper.inScope item known
      exact other.elim (· same.1) (· same.2)
  · intro inside
    rw [not_or, not_not] at inside
    refine ⟨inside.1, fun item known => ⟨?_, ?_⟩⟩
    · by_contra other
      exact inside.2 ⟨item, known, .inl other⟩
    · by_contra other
      exact inside.2 ⟨item, known, .inr other⟩

/-- A draft of the request's evidence whose citations need no repair. -/
structure Settled (data : ValidatorData) (request : TutorRequest) (draft : TutorDraft) : Prop where
  checked : draft.check = .ok ()
  contract : ∀ intervention ∈ draft.intervention, intervention.check = .ok ()
  proper : request.Proper
  answers : draft.mode ≠ .abstain
  evidence : request.evidence ≠ []
  grounded : draft.grounded = true
  cited : draft.citations ≠ []
  visible : Text.isBlank draft.answer = false
  passes : ∀ citation ∈ draft.citations, Passes data request.evidence citation citation
  distinct : (draft.citations.map (·.chunkId)).Nodup
  derived : ∀ intervention ∈ draft.intervention, Derived draft intervention ∧
    intervention.situation ≠ .ambiguous

/-- What is derived from an intervention is its draft. -/
theorem draftFromIntervention_of_derived {draft : TutorDraft} {intervention : InterventionFields}
    (structured : draft.intervention = some intervention) (derived : Derived draft intervention)
    (checked : draft.check = .ok ()) : draftFromIntervention intervention = .ok draft := by
  obtain ⟨answer, mode, grounded, citations, _⟩ := derived
  have each : ∀ citation ∈ intervention.citations, citation.check = .ok () := by
    rw [← citations]
    simp only [TutorDraft.check, bind_eq_ok] at checked
    obtain ⟨_, _, results, resultsOk, _⟩ := checked
    exact exists_mapM_eq_ok_iff.mp ⟨results, resultsOk⟩
  have same : draft = { mode := modeFor intervention, answer := equivalentText intervention
                        citations := intervention.citations, grounded := intervention.grounded
                        intervention := some intervention } := by
    rw [← answer, ← mode, ← grounded, ← citations, ← structured]
  simp only [draftFromIntervention, bind_eq_ok]
  refine ⟨intervention.citations, mapM_construct_self each,
    TutorDraft.construct_eq_ok.mpr ⟨same, checked⟩⟩

/-- A settled draft is held against the evidence without change. -/
theorem validateEvidence_of_settled {draft : TutorDraft} (settled : Settled data request draft) :
    validateEvidence data draft request = .ok draft := by
  have supported : ¬ (request.evidence = [] ∨ ¬ draft.grounded = true ∨ draft.citations = []) := by
    intro lacking
    rcases lacking with none | ungrounded | uncited
    · exact settled.evidence none
    · exact ungrounded settled.grounded
    · exact settled.cited uncited
  simp only [validateEvidence, bind_eq_ok, failIf_eq_ok, if_neg settled.answers]
  refine ⟨(), proper_iff.mp settled.proper, (), supported, (),
    Bool.eq_false_iff.mp settled.visible, draft.citations, checkCitations_eq_self settled.passes settled.distinct, ?_⟩
  cases structured : draft.intervention with
  | none =>
      have same : { draft with intervention := none } = draft := by rw [← structured]
      exact congrArg Except.ok same
  | some intervention =>
      have derived := (settled.derived intervention structured).1
      have checked : ∀ citation ∈ draft.citations, citation.check = .ok () :=
        fun citation member => (settled.passes citation member).checked
      have renamed : (draft.citations.mapM fun citation =>
          (IntentCitation.construct citation.chunkId citation.quote).mapError
            Failure.validation) = .ok draft.citations := by
        apply mapM_eq_ok_iff_forall₂.mpr
        apply (mapM_eq_ok_iff_forall₂.mp (mapM_construct_self checked)).imp
        intro citation result constructed
        exact mapError_eq_ok.mpr constructed
      have same : { intervention with citations := draft.citations } = intervention := by
        rw [derived.2.2.2.1]
      simp only [bind_eq_ok, mapError_eq_ok]
      refine ⟨draft.citations, renamed, ?_⟩
      rw [same]
      exact draftFromIntervention_of_derived structured derived settled.checked

/-- A settled draft is validated without change. -/
theorem validate_of_settled {draft : TutorDraft} (settled : Settled data request draft) :
    validate data (some draft.dump) request = .ok draft := by
  have read : TutorDraft.modelValidate data.intOfText draft.dump = .ok draft :=
    TutorDraft.modelValidate_dump data.intOfText settled.checked settled.contract
  cases structured : draft.intervention with
  | none =>
      rw [validate_of_unstructured read structured]
      exact validateEvidence_of_settled settled
  | some intervention =>
      obtain ⟨derived, plain⟩ := settled.derived intervention structured
      unfold validate
      rw [Option.map_some, read]
      simp only [structured, if_pos derived, if_neg plain]
      exact validateEvidence_of_settled settled

/-- The canonical abstention is validated without change in a proper scope. -/
theorem validate_abstention (proper : request.Proper) :
    validate data (some abstention.dump) request = .ok abstention := by
  have read : TutorDraft.modelValidate data.intOfText abstention.dump = .ok abstention :=
    TutorDraft.modelValidate_dump data.intOfText (by decide +kernel) nofun
  rw [validate_of_unstructured read rfl]
  have abstains : abstention.mode = .abstain := rfl
  simp only [validateEvidence, bind_eq_ok, failIf_eq_ok, if_pos abstains]
  exact ⟨(), proper_iff.mp proper, (), by decide, rfl⟩

/-- Citations of the same number within their bounds keep an intervention valid. -/
theorem check_of_citations {intervention : InterventionFields} {citations : List IntentCitation}
    (checked : intervention.check = .ok ())
    (each : ∀ citation ∈ citations, citation.check = .ok ())
    (sameLength : citations.length = intervention.citations.length) :
    { intervention with citations }.check = .ok () := by
  obtain ⟨results, resultsOk⟩ := exists_mapM_eq_ok_iff.mpr each
  have sameCited : citations = [] ↔ intervention.citations = [] := by
    rw [← List.length_eq_zero_iff, sameLength, List.length_eq_zero_iff]
  have sameRule : { intervention with citations }.evidenceRule = intervention.evidenceRule := by
    unfold InterventionFields.evidenceRule
    simp only [ne_eq, sameCited]
  simp only [InterventionFields.check, InterventionFields.coherent, bind_eq_ok,
    checkLength_eq_ok] at checked ⊢
  obtain ⟨parts, partsOk, size, sized, _, _, bounds, bounded, rules⟩ := checked
  refine ⟨parts, partsOk, size, sized, results, resultsOk, bounds, ?_, ?_⟩
  · rw [sameLength]
    exact bounded
  · rw [sameLength, sameRule]
    exact rules

/-! ### What one validation returns -/

/-- The chunk that an index of a sources block refers to. -/
def citedChunk (citations : List IntentCitation) (index : Int) : Option UUID :=
  if 0 ≤ index then (citations.map (·.chunkId))[index.toNat]? else none

/-- The draft keeps what an intervention says and, chunk by chunk, what its
blocks refer to by position; its other fields are derived from the intervention. -/
structure Aligned (intervention : InterventionFields) (draft : TutorDraft) : Prop where
  structured : ∃ repaired, draft.intervention = some repaired ∧
    repaired.version = intervention.version ∧ repaired.situation = intervention.situation ∧
    repaired.blocks = intervention.blocks ∧ repaired.citations = draft.citations
  chunks : draft.citations.map (·.chunkId) = intervention.citations.map (·.chunkId)
  references : ∀ indexes, .sources indexes ∈ intervention.blocks → ∀ index ∈ indexes,
    citedChunk draft.citations index = citedChunk intervention.citations index
  answer : draft.answer = equivalentText intervention
  mode : draft.mode = modeFor intervention
  grounded : draft.grounded = intervention.grounded

theorem aligned_of_chunks {intervention : InterventionFields} {draft : TutorDraft}
    (structured : ∃ repaired, draft.intervention = some repaired ∧
      repaired.version = intervention.version ∧ repaired.situation = intervention.situation ∧
      repaired.blocks = intervention.blocks ∧ repaired.citations = draft.citations)
    (chunks : draft.citations.map (·.chunkId) = intervention.citations.map (·.chunkId))
    (answer : draft.answer = equivalentText intervention)
    (mode : draft.mode = modeFor intervention)
    (grounded : draft.grounded = intervention.grounded) : Aligned intervention draft where
  structured := structured
  chunks := chunks
  references := fun _ _ index _ => by rw [citedChunk, citedChunk, chunks]
  answer := answer
  mode := mode
  grounded := grounded

/-- A draft read back from what a model handed over. -/
structure ReadBack (data : ValidatorData) (read : TutorDraft) : Prop where
  checked : read.check = .ok ()
  contract : ∀ intervention ∈ read.intervention, intervention.check = .ok ()
  derived : ∀ intervention ∈ read.intervention, Derived read intervention

/-- The citations the loop keeps of a draft read back. -/
structure Kept (data : ValidatorData) (request : TutorRequest) (read : TutorDraft)
    (kept : List IntentCitation) : Prop where
  passes : ∀ citation ∈ kept, Passes data request.evidence citation citation
  distinct : (kept.map (·.chunkId)).Nodup
  cited : kept ≠ []
  few : kept.length ≤ 5
  chunks : kept.map (·.chunkId) = (read.citations.map (·.chunkId)).eraseDups
  all : (read.citations.map (·.chunkId)).Nodup → kept.map (·.chunkId) = read.citations.map (·.chunkId)

theorem kept_of_checkCitations (folds : data.unicode.FoldsVisibly) {read : TutorDraft}
    (checked : read.check = .ok ()) (cited : read.citations ≠ []) {kept : List IntentCitation}
    (ok : checkCitations data request.evidence [] read.citations = .ok kept) :
    Kept data request read kept := by
  simp only [TutorDraft.check, bind_eq_ok, checkLength_eq_ok] at checked
  obtain ⟨_, _, results, resultsOk, _, few⟩ := checked
  obtain ⟨repaired, pass⟩ :=
    pass_of_checkCitations (exists_mapM_eq_ok_iff.mp ⟨results, resultsOk⟩) ok
  have sameChunks := chunks_eq_of_pass pass
  have keptEq : kept = keepFirst [] repaired := by
    have same := checkCitations_eq_ok pass []
    rw [ok] at same
    exact Except.ok.inj same
  have sublist : kept.Sublist repaired := by
    rw [keptEq]
    exact keepFirst_sublist [] repaired
  refine
    { passes := fun citation member => passes_again folds pass citation (sublist.subset member)
      distinct := (checkCitations_spec ok).1
      cited := checkCitations_ne_nil ok cited
      few := ?_
      chunks := ?_
      all := ?_ }
  · rw [pass.length_eq] at few
    exact sublist.length_le.trans few
  · rw [keptEq, chunks_keepFirst, sameChunks]
    simp
  · intro distinct
    rw [← sameChunks] at distinct ⊢
    rw [keptEq, keepFirst_eq_self distinct]
    exact fun _ _ => List.not_mem_nil

/-- A draft with the kept citations and the answer of the draft read passes the
bounds of a draft. -/
theorem Kept.check_eq {read result : TutorDraft} {kept : List IntentCitation}
    (isKept : Kept data request read kept) (checked : read.check = .ok ())
    (answer : result.answer = read.answer) (citations : result.citations = kept) :
    result.check = .ok () := by
  have each : ∀ citation ∈ kept, citation.check = .ok () :=
    fun citation member => (isKept.passes citation member).checked
  obtain ⟨results, resultsOk⟩ := exists_mapM_eq_ok_iff.mpr each
  simp only [TutorDraft.check, bind_eq_ok, checkLength_eq_ok] at checked ⊢
  obtain ⟨bounds, bounded, _⟩ := checked
  rw [answer, citations]
  exact ⟨bounds, bounded, results, resultsOk, Nat.zero_le _, isKept.few⟩

/-- Holding a draft against the evidence abstains, or settles its citations. -/
theorem validateEvidence_cases (folds : data.unicode.FoldsVisibly) {read validated : TutorDraft}
    (back : ReadBack data read)
    (plain : ∀ intervention ∈ read.intervention, intervention.situation ≠ .ambiguous)
    (ok : validateEvidence data read request = .ok validated) :
    request.Proper ∧
      ((read.mode = .abstain ∧ read.citations = [] ∧ validated = abstention) ∨
        (Settled data request validated ∧
          validated.citations.map (·.chunkId) = (read.citations.map (·.chunkId)).eraseDups ∧
          ∀ intervention ∈ read.intervention, Aligned intervention validated)) := by
  simp only [validateEvidence, bind_eq_ok, failIf_eq_ok] at ok
  obtain ⟨_, inside, rest⟩ := ok
  have proper := proper_iff.mpr inside
  refine ⟨proper, ?_⟩
  by_cases abstains : read.mode = .abstain
  · simp only [if_pos abstains, bind_eq_ok, failIf_eq_ok, pure_eq_ok, not_or, not_not] at rest
    obtain ⟨_, ⟨_, uncited⟩, rfl⟩ := rest
    exact .inl ⟨abstains, uncited, rfl⟩
  · simp only [if_neg abstains, bind_eq_ok, failIf_eq_ok, not_or, not_not] at rest
    obtain ⟨_, ⟨supported, grounded, cited⟩, _, visible, kept, keptOk, final⟩ := rest
    have isKept := kept_of_checkCitations folds back.checked cited keptOk
    right
    cases structured : read.intervention with
    | none =>
        rw [structured] at final
        cases final
        exact
          ⟨{ checked := isKept.check_eq back.checked rfl rfl
             contract := by
               intro other isOther
               cases isOther
             proper, answers := abstains, evidence := supported, grounded, cited := isKept.cited
             visible := Bool.eq_false_iff.mpr visible
             passes := isKept.passes, distinct := isKept.distinct
             derived := by
               intro other isOther
               cases isOther },
            isKept.chunks, by
              intro other isOther
              cases isOther⟩
    | some intervention =>
        have derived := back.derived intervention structured
        rw [structured] at final
        simp only [bind_eq_ok, mapError_eq_ok] at final
        obtain ⟨repaired, repairedOk, drafted⟩ := final
        have same := mapM_construct_mapError repairedOk
        subst same
        obtain ⟨citations, sameGrounded, mode, answer, structuredAgain⟩ :=
          draftFromIntervention_eq_ok drafted
        have sameAnswer : validated.answer = read.answer := by rw [answer, derived.1]; rfl
        have sameMode : validated.mode = read.mode := by rw [mode, derived.2.1]; rfl
        have chunks := isKept.all (by rw [derived.2.2.2.1]; exact derived.2.2.2.2)
        have sameLength : repaired.length = intervention.citations.length := by
          rw [← derived.2.2.2.1, ← List.length_map (·.chunkId), chunks, List.length_map]
        have valid : { intervention with citations := repaired }.check = .ok () :=
          check_of_citations (back.contract intervention structured)
            (fun citation member => (isKept.passes citation member).checked) sameLength
        refine ⟨?_, ?_, ?_⟩
        · exact
            { checked := isKept.check_eq back.checked sameAnswer citations
              contract := by
                rw [structuredAgain]
                intro other isOther
                cases isOther
                exact valid
              proper
              answers := by
                rw [sameMode]
                exact abstains
              evidence := supported
              grounded := by rw [sameGrounded, ← derived.2.2.1, grounded]
              cited := by
                rw [citations]
                exact isKept.cited
              visible := by
                rw [sameAnswer]
                exact Bool.eq_false_iff.mpr visible
              passes := by
                rw [citations]
                exact isKept.passes
              distinct := by
                rw [citations]
                exact isKept.distinct
              derived := by
                rw [structuredAgain]
                intro other isOther
                cases isOther
                exact ⟨⟨answer, mode, sameGrounded, citations, isKept.distinct⟩,
                  plain intervention structured⟩ }
        · rw [citations]
          exact isKept.chunks
        · intro other isOther
          cases isOther
          exact aligned_of_chunks ⟨_, structuredAgain, rfl, rfl, rfl, citations.symm⟩
            (by rw [citations, ← derived.2.2.2.1, chunks]) answer mode sameGrounded

theorem firstMode_ne_abstain (blocks : List InterventionBlock) : firstMode blocks ≠ .abstain := by
  induction blocks with
  | nil => nofun
  | cons block blocks ih =>
      cases block with
      | question text => nofun
      | hint level text => nofun
      | activity question options correctOptionId hint explanation => nofun
      | explanation title text => exact ih
      | diagram kind title nodes edges => exact ih
      | sources citationIndexes => exact ih

/-- Only an intervention without enough evidence abstains. -/
theorem modeFor_eq_abstain {intervention : InterventionFields}
    (abstains : modeFor intervention = .abstain) :
    intervention.situation = .insufficientEvidence := by
  unfold modeFor at abstains
  split at abstains
  case h_1 lacking => exact lacking
  case h_2 => cases abstains
  case h_3 => exact absurd abstains (firstMode_ne_abstain intervention.blocks)

/-- What comes of one validation, and of the next. -/
structure Stable (data : ValidatorData) (request : TutorRequest) (read validated : TutorDraft) :
    Prop where
  again : validate data (some validated.dump) request = .ok validated
  chunks : validated.citations.map (·.chunkId) = (read.citations.map (·.chunkId)).eraseDups
  aligned : ∀ intervention, read.intervention = some intervention →
    intervention.situation ≠ .insufficientEvidence → Aligned intervention validated

/-- A draft that asks for clarification is returned as it is. -/
theorem stable_of_ambiguous {read : TutorDraft} (back : ReadBack data read)
    {intervention : InterventionFields} (structured : read.intervention = some intervention)
    (ambiguous : intervention.situation = .ambiguous) : Stable data request read read := by
  have derived := back.derived intervention structured
  have uncited : read.citations = [] :=
    derived.2.2.2.1.trans
      (uncited_of_ambiguous (back.contract intervention structured) ambiguous).2
  refine
    { again := validate_of_ambiguous
        (TutorDraft.modelValidate_dump data.intOfText back.checked back.contract) structured derived
        ambiguous
      chunks := by rw [uncited]; rfl
      aligned := ?_ }
  intro other isOther _
  rw [structured] at isOther
  cases isOther
  exact aligned_of_chunks ⟨intervention, structured, rfl, rfl, rfl, derived.2.2.2.1.symm⟩
    (by rw [derived.2.2.2.1]) derived.1 derived.2.1 derived.2.2.1

/-- A draft held against the evidence is an abstention or settled. -/
theorem stable_of_evidence (folds : data.unicode.FoldsVisibly) {read validated : TutorDraft}
    (back : ReadBack data read)
    (plain : ∀ intervention ∈ read.intervention, intervention.situation ≠ .ambiguous)
    (ok : validateEvidence data read request = .ok validated) :
    Stable data request read validated := by
  obtain ⟨proper, outcome⟩ := validateEvidence_cases folds back plain ok
  rcases outcome with ⟨abstains, uncited, same⟩ | ⟨settled, chunks, aligned⟩
  · rw [same]
    refine
      { again := validate_abstention proper
        chunks := by rw [uncited]; rfl
        aligned := ?_ }
    intro intervention structured answers
    have mode := (back.derived intervention structured).2.1
    rw [abstains] at mode
    exact absurd (modeFor_eq_abstain mode.symm) answers
  · exact
      { again := validate_of_settled settled
        chunks
        aligned := fun intervention structured _ => aligned intervention structured }

/-- Whatever was validated is validated again without change. It cites each
chunk once, in the order of the first citations of the draft as read back, and it
is aligned with the intervention of that draft, unless that one abstains. -/
theorem validate_idempotent (folds : data.unicode.FoldsVisibly) {draft : ModelDraft}
    {validated : TutorDraft} (ok : validate data draft request = .ok validated) :
    validate data (some validated.dump) request = .ok validated ∧
      ∃ read, draft.map (TutorDraft.modelValidate data.intOfText) = some (.ok read) ∧
        (validated.citations.map (·.chunkId)).Nodup ∧
        validated.citations.map (·.chunkId) = (read.citations.map (·.chunkId)).eraseDups ∧
        ∀ intervention, read.intervention = some intervention →
          intervention.situation ≠ .insufficientEvidence → Aligned intervention validated := by
  have distinct := (sound_of_validate ok).distinct
  have ofStable {read : TutorDraft} (stable : Stable data request read validated)
      (readEq : draft.map (TutorDraft.modelValidate data.intOfText) = some (.ok read)) :
      validate data (some validated.dump) request = .ok validated ∧
        ∃ read, draft.map (TutorDraft.modelValidate data.intOfText) = some (.ok read) ∧
          (validated.citations.map (·.chunkId)).Nodup ∧
          validated.citations.map (·.chunkId) = (read.citations.map (·.chunkId)).eraseDups ∧
          ∀ intervention, read.intervention = some intervention →
            intervention.situation ≠ .insufficientEvidence → Aligned intervention validated :=
    ⟨stable.again, read, readEq, distinct, stable.chunks, stable.aligned⟩
  unfold validate at ok
  split at ok
  case h_2 => cases ok
  case h_1 read readEq =>
    obtain ⟨value, _, readOk⟩ := Option.map_eq_some_iff.mp readEq
    have contract : ∀ intervention ∈ read.intervention, intervention.check = .ok () :=
      fun intervention structured => checked_of_modelValidate readOk structured
    have checked : read.check = .ok () := by
      simp only [TutorDraft.modelValidate, bind_eq_ok, TutorDraft.construct_eq_ok] at readOk
      obtain ⟨_, _, _, _, _, _, _, _, _, _, _, _, _, checked⟩ := readOk
      exact checked
    split at ok
    case h_1 intervention structured =>
      split at ok
      case isFalse => cases ok
      case isTrue derived =>
        have back : ReadBack data read :=
          { checked, contract
            derived := by
              intro other isOther
              rw [structured] at isOther
              cases isOther
              exact derived }
        split at ok
        case isTrue ambiguous =>
          cases ok
          exact ofStable (stable_of_ambiguous back structured ambiguous) readEq
        case isFalse plain =>
          apply ofStable (stable_of_evidence folds back _ ok) readEq
          intro other isOther
          rw [structured] at isOther
          cases isOther
          exact plain
    case h_2 unstructured =>
      have none {property : InterventionFields → Prop} :
          ∀ intervention ∈ read.intervention, property intervention := by
        rw [unstructured]
        nofun
      exact ofStable (stable_of_evidence folds ⟨checked, contract, none⟩ none ok) readEq

end Drafts

section Sample

/-- Lower case moves the ASCII capitals and nothing else. -/
theorem toNat_toLower (char : Char) :
    char.toLower.toNat =
      if 65 ≤ char.toNat ∧ char.toNat ≤ 90 then char.toNat + 32 else char.toNat := by
  have bounds : char.val ≥ 'A'.val ∧ char.val ≤ 'Z'.val ↔ 65 ≤ char.toNat ∧ char.toNat ≤ 90 :=
    Iff.rfl
  unfold Char.toLower
  by_cases capital : 65 ≤ char.toNat ∧ char.toNat ≤ 90
  · rw [dif_pos (bounds.mpr capital), if_pos capital]
    change (char.val + 32).toNat = char.val.toNat + 32
    have small : char.val.toNat ≤ 90 := capital.2
    rw [UInt32.toNat_add]
    exact Nat.mod_eq_of_lt (by change char.val.toNat + 32 < _; omega)
  · rw [dif_neg (mt bounds.mp capital), if_neg capital]

theorem asciiData_folds : asciiData.unicode.FoldsVisibly := by
  intro wanted char same space
  have lowered : wanted.toLower = char.toLower := eq_of_beq same
  have sameCode : wanted.toLower.toNat = char.toLower.toNat := by rw [lowered]
  rw [toNat_toLower, toNat_toLower] at sameCode
  simp only [Text.isSpace] at space ⊢
  have letters : ¬ (65 ≤ char.toNat ∧ char.toNat ≤ 90) ∧
      ¬ (97 ≤ char.toNat ∧ char.toNat ≤ 122) := by
    simp only [Bool.or_eq_true, Bool.and_eq_true, decide_eq_true_eq, beq_iff_eq] at space
    omega
  rw [if_neg letters.1] at sameCode
  split at sameCode
  · omega
  · rw [sameCode]
    exact space

/-- A request over two chunks. -/
def requestOverBoth : TutorRequest :=
  let request := requestOver "A stack is last in, first out."
  { request with
    evidence := request.evidence ++
      [{ evidenceOf "A queue is first in, first out." with chunkId := .ofNat 8 }] }

/-- Guidance with its sources the other way round, the second quoted in capitals. -/
def quotingGuidance : InterventionFields where
  version := .v2
  situation := .grounded
  blocks := [.explanation "Queue" "The first one in is the first one out.", .sources [1, 0]]
  citations := [{ chunkId := .ofNat 8, quote := "A queue is first in" },
    { chunkId := .ofNat 1, quote := "A STACK IS LAST" }]
  grounded := true

def structuredDraft : TutorDraft where
  mode := modeFor quotingGuidance
  answer := equivalentText quotingGuidance
  citations := quotingGuidance.citations
  grounded := true
  intervention := some quotingGuidance

/-- A plain draft that cites the second chunk twice. -/
def repeatingDraft : TutorDraft where
  mode := .explanation
  answer := "One is last in, first out, the other first in, first out."
  citations := [{ chunkId := .ofNat 8, quote := "A queue is first in" },
    { chunkId := .ofNat 1, quote := "A STACK IS LAST" },
    { chunkId := .ofNat 8, quote := "first in, first out" }]
  grounded := true

/-- Repaired quotes stay as they were repaired, and a chunk cited twice is cited
where it was first. -/
theorem validate_idempotent_of_sample :
    (∃ validated, validate asciiData (some structuredDraft.dump) requestOverBoth = .ok validated ∧
      validated.citations.map (·.quote) = ["A queue is first in", "A stack is last"] ∧
      validate asciiData (some validated.dump) requestOverBoth = .ok validated ∧
      Aligned quotingGuidance validated) ∧
    ∃ validated, validate asciiData (some repeatingDraft.dump) requestOverBoth = .ok validated ∧
      validated.citations.map (·.quote) = ["A queue is first in", "A stack is last"] ∧
      validate asciiData (some validated.dump) requestOverBoth = .ok validated ∧
      validated.citations.map (·.chunkId) = [.ofNat 8, .ofNat 1] := by
  constructor
  · have isRead : TutorDraft.modelValidate asciiData.intOfText structuredDraft.dump =
        .ok structuredDraft :=
      TutorDraft.modelValidate_dump _ (by decide +kernel) fun _ structured => by
        cases structured
        decide +kernel
    have passesOn : validate asciiData (some structuredDraft.dump) requestOverBoth =
        validateEvidence asciiData structuredDraft requestOverBoth := by
      rw [validate, Option.map_some, isRead]
      exact (if_pos (by decide +kernel)).trans (if_neg (by decide))
    obtain ⟨validated, ok, quotes⟩ := map_eq_ok.mp (by decide +kernel :
      (fun draft : TutorDraft => draft.citations.map (·.quote)) <$>
        validateEvidence asciiData structuredDraft requestOverBoth =
          .ok ["A queue is first in", "A stack is last"])
    rw [← passesOn] at ok
    obtain ⟨again, read, readEq, _, _, aligned⟩ := validate_idempotent asciiData_folds ok
    rw [Option.map_some, isRead] at readEq
    cases readEq
    exact ⟨validated, ok, quotes, again, aligned _ rfl (by decide)⟩
  · have isRead : TutorDraft.modelValidate asciiData.intOfText repeatingDraft.dump =
        .ok repeatingDraft := TutorDraft.modelValidate_dump _ (by decide +kernel) nofun
    obtain ⟨validated, ok, quotes⟩ := map_eq_ok.mp (by decide +kernel :
      (fun draft : TutorDraft => draft.citations.map (·.quote)) <$>
        validateEvidence asciiData repeatingDraft requestOverBoth =
          .ok ["A queue is first in", "A stack is last"])
    rw [← validate_of_unstructured isRead rfl] at ok
    obtain ⟨again, read, readEq, _, once, _⟩ := validate_idempotent asciiData_folds ok
    rw [Option.map_some, isRead] at readEq
    cases readEq
    exact ⟨validated, ok, quotes, again, once.trans (by decide +kernel)⟩

end Sample

end Docta
