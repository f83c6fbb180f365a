/-
Module: Docta.Rag.QuoteRepair
Purpose: What the validator makes of a quote that does not occur verbatim: for
  which contents and quotes it accepts exactly those with one source span.
Trusted boundary: the letter case equivalence is a field of the Unicode data
Main exports: OtherwiseValid, RepairsUniqueSpan, Distinguishable,
  repairs_unique_span_iff
-/
import Docta.Library.Table
import Docta.Rag.Validator

namespace Docta

open Contract Fallible EvidenceResponseValidator

section Quotes

variable (data : ValidatorData)

/-- The positions of the content at which the quote stands, up to letter case. -/
def quoteStarts (content quote : String) : List Nat :=
  Text.starts data.unicode.sameIgnoringCase quote.toList content.toList

/-- The part of the content at a position. -/
def sliceAt (content : String) (start length : Nat) : String :=
  String.ofList (Text.slice content.toList start (start + length))

/-- At most one position, or two that a scan for separate matches tells apart. -/
def Distinguishable (length : Nat) (starts : List Nat) : Prop :=
  starts.length ≤ 1 ∨ ∃ first ∈ starts, ∃ later ∈ starts, first + length ≤ later

variable {data}

/-! ### One quote -/

/-- The scan behind a repair, by the positions of the quote. -/
theorem verbatimQuote_eq_ok {content quote repaired : String} (nonempty : 0 < quote.toList.length)
    (absent : ¬ Text.Contains content quote) :
    verbatimQuote data content quote = .ok repaired ↔
      ∃ first ∈ quoteStarts data content quote,
        (∀ start ∈ quoteStarts data content quote,
          first ≤ start ∧ start < first + quote.toList.length) ∧
        repaired = sliceAt content first quote.toList.length := by
  have scan (span : List Char) := @Text.occurrences_eq_singleton
    data.unicode.sameIgnoringCase quote.toList content.toList span nonempty
  rw [verbatimQuote, if_neg absent]
  constructor
  · intro ok
    split at ok
    case h_1 span found =>
      cases ok
      rcases (scan span).mp found with ⟨first, known, within, same⟩
      exact ⟨first, known, within, congrArg String.ofList same⟩
    case h_2 => cases ok
  · intro ⟨first, known, within, same⟩
    rw [(scan _).mpr ⟨first, known, within, rfl⟩, same]
    rfl

theorem verbatimQuote_eq_error {content quote : String} {failure : Failure}
    (failed : verbatimQuote data content quote = .error failure) :
    failure = .rag "MODEL_OUTPUT_INVALID" := by
  rw [verbatimQuote] at failed
  split at failed
  · cases failed
  · split at failed
    · cases failed
    · cases failed
      rfl

/-- A repair of a quote is as long as the quote. -/
theorem length_of_verbatimQuote {content quote repaired : String}
    (ok : verbatimQuote data content quote = .ok repaired) : repaired.length = quote.length := by
  rw [verbatimQuote] at ok
  split at ok
  · cases ok
    rfl
  · split at ok
    case h_1 span found =>
      cases ok
      rw [String.length_ofList, ← String.length_toList]
      exact Text.length_of_mem_occurrences (by rw [found]; exact List.mem_singleton_self span)
    case h_2 => cases ok

/-- What is claimed of a quote that does not occur verbatim: it is replaced by
the one span that matches it up to letter case, and refused without one. -/
def ReplacesUniqueSpan (result : Except Failure String) (content quote : String)
    (starts : List Nat) : Prop :=
  match starts with
  | [start] => result = .ok (sliceAt content start quote.toList.length)
  | _ => result = .error (.rag "MODEL_OUTPUT_INVALID")

theorem replacesUniqueSpan_iff {content quote : String} (nonempty : 0 < quote.toList.length)
    (absent : ¬ Text.Contains content quote) :
    ReplacesUniqueSpan (verbatimQuote data content quote) content quote
        (quoteStarts data content quote) ↔
      Distinguishable quote.toList.length (quoteStarts data content quote) := by
  have accepted (repaired : String) := @verbatimQuote_eq_ok data content quote repaired nonempty absent
  have sorted : (quoteStarts data content quote).Pairwise (· < ·) :=
    Text.starts_sorted content.toList
  cases known : quoteStarts data content quote with
  | nil =>
      rw [known] at accepted
      refine ⟨fun _ => .inl (Nat.zero_le 1), fun _ => ?_⟩
      cases result : verbatimQuote data content quote with
      | ok repaired =>
          rcases (accepted repaired).mp result with ⟨first, impossible, _⟩
          cases impossible
      | error failure => rw [verbatimQuote_eq_error result]; rfl
  | cons start others =>
      cases others with
      | nil =>
          rw [known] at accepted
          refine ⟨fun _ => .inl (le_refl 1), fun _ => ?_⟩
          refine (accepted _).mpr ⟨start, List.mem_singleton_self start, ?_, rfl⟩
          intro other member
          rw [List.mem_singleton.mp member]
          omega
      | cons second others =>
          rw [known] at accepted sorted
          constructor
          · intro refused
            by_contra close
            -- All positions lie within the quote's length of the first, so the scan finds one match.
            have found : verbatimQuote data content quote =
                .ok (sliceAt content start quote.toList.length) := by
              refine (accepted _).mpr ⟨start, List.mem_cons_self, ?_, rfl⟩
              intro other member
              refine ⟨?_, ?_⟩
              · rcases List.mem_cons.mp member with same | later
                · rw [same]
                · exact (List.rel_of_pairwise_cons sorted later).le
              · by_contra far
                exact close (.inr ⟨start, List.mem_cons_self, other, member, Nat.not_lt.mp far⟩)
            change verbatimQuote data content quote = _ at refused
            rw [found] at refused
            cases refused
          · intro distinguishable
            cases result : verbatimQuote data content quote with
            | ok repaired =>
                rcases (accepted repaired).mp result with ⟨first, _, within, _⟩
                rcases distinguishable with few | ⟨earlier, inEarlier, later, inLater, far⟩
                · simp at few
                · have least := within earlier inEarlier
                  have bound := within later inLater
                  omega
            | error failure => rw [verbatimQuote_eq_error result]; rfl

end Quotes

/-! ### One citation of a draft -/

section Drafts

variable (data : ValidatorData)

/-- A grounded draft of which nothing but one citation's quote is in question. -/
structure OtherwiseValid (draft : ModelDraft) (request : TutorRequest) (read : TutorDraft)
    (before : List IntentCitation) (citation : IntentCitation) (after : List IntentCitation)
    (item : Evidence) : Prop where
  /-- the draft passes the contract -/
  read_eq : draft.map (TutorDraft.modelValidate data.intOfText) = some (.ok read)
  citations_eq : read.citations = before ++ citation :: after
  grounded : read.grounded = true
  mode_ne : read.mode ≠ .abstain
  answer : Text.isBlank read.answer = false
  /-- it is what its intervention derives to, and no request for clarification -/
  derived : ∀ intervention ∈ read.intervention,
    Derived read intervention ∧ intervention.situation ≠ .ambiguous
  /-- the evidence is of the request's scope -/
  distinct : (request.evidence.map (·.chunkId)).Nodup
  inScope : ∀ source ∈ request.evidence, source.courseId = request.scope.courseId ∧
    source.corpusVersionId = request.scope.corpusVersionId
  /-- the citation names an item of it with a visible quote -/
  known : item ∈ request.evidence
  named : item.chunkId = citation.chunkId
  visible : Text.isBlank citation.quote = false
  /-- every other citation is accepted -/
  others : ∀ other ∈ before ++ after, ∃ source ∈ request.evidence,
    source.chunkId = other.chunkId ∧ Text.isBlank other.quote = false ∧
      ∃ repaired, verbatimQuote data source.content other.quote = .ok repaired

/-- What is claimed of a citation whose quote does not occur verbatim: the draft
is accepted with the one span that matches the quote up to letter case, and
refused without one. A chunk cited again keeps its first quote. -/
def RepairsUniqueSpan (result : Except Failure TutorDraft) (before : List IntentCitation)
    (citation : IntentCitation) (content : String) (starts : List Nat) : Prop :=
  match starts with
  | [start] => ∃ validated, result = .ok validated ∧
      (citation.chunkId ∉ before.map (·.chunkId) →
        { citation with quote := sliceAt content start citation.quote.toList.length } ∈
          validated.citations)
  | _ => result = .error (.rag "MODEL_OUTPUT_INVALID")

variable {data}

/-- The citation is kept, with this quote. -/
structure Passes (data : ValidatorData) (evidence : List Evidence)
    (citation repaired : IntentCitation) : Prop where
  chunk_eq : repaired.chunkId = citation.chunkId
  checked : repaired.check = .ok ()
  visible : Text.isBlank citation.quote = false
  quoted : ∃ item, (evidence.find? fun item => item.chunkId = citation.chunkId) = some item ∧
    verbatimQuote data item.content citation.quote = .ok repaired.quote

/-- The citations kept of a list: of each chunk, the first. -/
def keepFirst : List UUID → List IntentCitation → List IntentCitation
  | _, [] => []
  | seen, citation :: citations =>
      if citation.chunkId ∈ seen then keepFirst seen citations
      else citation :: keepFirst (citation.chunkId :: seen) citations

theorem keepFirst_sublist : ∀ (seen : List UUID) (citations : List IntentCitation),
    (keepFirst seen citations).Sublist citations
  | _, [] => .slnil
  | seen, citation :: citations => by
      rw [keepFirst]
      split
      · exact (keepFirst_sublist seen citations).cons _
      · exact (keepFirst_sublist _ citations).cons_cons _

/-- The first citation of a chunk is kept. -/
theorem mem_keepFirst {citation : IntentCitation} {after : List IntentCitation} :
    ∀ {seen : List UUID} {before : List IntentCitation}, citation.chunkId ∉ seen →
      citation.chunkId ∉ before.map (·.chunkId) →
        citation ∈ keepFirst seen (before ++ citation :: after)
  | seen, [], unseen, _ => by
      rw [List.nil_append, keepFirst, if_neg unseen]
      exact List.mem_cons_self
  | seen, other :: before, unseen, fresh => by
      rw [List.map_cons, List.mem_cons, not_or] at fresh
      rw [List.cons_append, keepFirst]
      split
      · exact mem_keepFirst unseen fresh.2
      · refine List.mem_cons_of_mem _ (mem_keepFirst ?_ fresh.2)
        rw [List.mem_cons, not_or]
        exact ⟨fresh.1, unseen⟩

theorem chunks_eq_of_pass {evidence : List Evidence} {citations repaired : List IntentCitation}
    (pass : List.Forall₂ (Passes data evidence) citations repaired) :
    repaired.map (·.chunkId) = citations.map (·.chunkId) := by
  induction pass with
  | nil => rfl
  | cons headPasses _ inductionHypothesis =>
      rw [List.map_cons, List.map_cons, headPasses.chunk_eq, inductionHypothesis]

theorem checked_of_pass {evidence : List Evidence} {citations repaired : List IntentCitation}
    (pass : List.Forall₂ (Passes data evidence) citations repaired) :
    ∀ kept ∈ repaired, kept.check = .ok () := by
  induction pass with
  | nil => exact List.forall_mem_nil _
  | cons headPasses _ inductionHypothesis =>
      exact List.forall_mem_cons.mpr ⟨headPasses.checked, inductionHypothesis⟩

/-- What the loop does with a citation that passes. -/
theorem checkCitations_cons {evidence : List Evidence} {citation kept : IntentCitation}
    (passes : Passes data evidence citation kept) (seen : List UUID)
    (citations : List IntentCitation) :
    checkCitations data evidence seen (citation :: citations) =
      if citation.chunkId ∈ seen then checkCitations data evidence seen citations
      else do
        let rest ← checkCitations data evidence (citation.chunkId :: seen) citations
        return kept :: rest := by
  rcases passes.quoted with ⟨item, found, quoted⟩
  have constructed : IntentCitation.construct citation.chunkId kept.quote = .ok kept := by
    refine IntentCitation.construct_eq_ok.mpr ⟨?_, passes.checked⟩
    rw [← passes.chunk_eq]
  rw [checkCitations, found]
  dsimp only
  rw [failIf_of_not (Bool.eq_false_iff.mp passes.visible), quoted, ok_bind, ok_bind, constructed]
  rfl

/-- Citations that all pass are kept, each chunk once. -/
theorem checkCitations_eq_ok {evidence : List Evidence} {citations repaired : List IntentCitation}
    (pass : List.Forall₂ (Passes data evidence) citations repaired) (seen : List UUID) :
    checkCitations data evidence seen citations = .ok (keepFirst seen repaired) := by
  induction pass generalizing seen with
  | nil => rfl
  | cons headPasses tailPass inductionHypothesis =>
      rw [checkCitations_cons headPasses, keepFirst, headPasses.chunk_eq, inductionHypothesis,
        inductionHypothesis]
      split
      · rfl
      · rfl

/-- The loop stops at the first citation whose quote is refused. -/
theorem checkCitations_eq_error {evidence : List Evidence} {before repaired : List IntentCitation}
    (pass : List.Forall₂ (Passes data evidence) before repaired) {citation : IntentCitation}
    {after : List IntentCitation} {item : Evidence}
    (found : (evidence.find? fun item => item.chunkId = citation.chunkId) = some item)
    (visible : Text.isBlank citation.quote = false) {failure : Failure}
    (refused : verbatimQuote data item.content citation.quote = .error failure)
    (seen : List UUID) :
    checkCitations data evidence seen (before ++ citation :: after) = .error failure := by
  induction pass generalizing seen with
  | nil =>
      rw [List.nil_append, checkCitations, found]
      dsimp only
      rw [visible, refused]
      rfl
  | cons headPasses tailPass inductionHypothesis =>
      rw [List.cons_append, checkCitations_cons headPasses, inductionHypothesis,
        inductionHypothesis]
      split
      · rfl
      · rfl

/-! ### The draft around the citation -/

namespace OtherwiseValid

variable {draft : ModelDraft} {request : TutorRequest} {read : TutorDraft}
  {before after : List IntentCitation} {citation : IntentCitation} {item : Evidence}

theorem checked (valid : OtherwiseValid data draft request read before citation after item) :
    read.check = .ok () := by
  rcases Option.map_eq_some_iff.mp valid.read_eq with ⟨value, _, readOk⟩
  simp only [TutorDraft.modelValidate, bind_eq_ok, TutorDraft.construct_eq_ok] at readOk
  rcases readOk with ⟨_, _, _, _, _, _, _, _, _, _, _, _, _, checked⟩
  exact checked

/-- Every quote is within its bounds. -/
theorem citation_checked (valid : OtherwiseValid data draft request read before citation after item)
    {other : IntentCitation} (member : other ∈ read.citations) : other.check = .ok () := by
  have checked := valid.checked
  simp only [TutorDraft.check, bind_eq_ok] at checked
  rcases checked with ⟨_, _, results, resultsOk, _⟩
  exact exists_mapM_eq_ok_iff.mp ⟨results, resultsOk⟩ other member

theorem find?_known (valid : OtherwiseValid data draft request read before citation after item)
    {source : Evidence} (known : source ∈ request.evidence) {chunkId : UUID}
    (named : source.chunkId = chunkId) :
    (request.evidence.find? fun item => item.chunkId = chunkId) = some source := by
  have unique : Table.UniqueOn (fun item : Evidence => item.chunkId) request.evidence :=
    valid.distinct
  rw [← named]
  exact unique.find?_eq_some known

/-- A citation whose quote is repaired passes. -/
theorem passes (valid : OtherwiseValid data draft request read before citation after item)
    {other : IntentCitation} (member : other ∈ read.citations) {source : Evidence}
    (known : source ∈ request.evidence) (named : source.chunkId = other.chunkId)
    (visible : Text.isBlank other.quote = false) {repaired : String}
    (ok : verbatimQuote data source.content other.quote = .ok repaired) :
    Passes data request.evidence other { other with quote := repaired } where
  chunk_eq := rfl
  checked := by
    have bounds := valid.citation_checked member
    rw [IntentCitation.check, checkText_eq_ok] at bounds ⊢
    rw [length_of_verbatimQuote ok]
    exact bounds
  visible := visible
  quoted := ⟨source, valid.find?_known known named, ok⟩

/-- The other citations pass, with some quotes. -/
theorem others_pass (valid : OtherwiseValid data draft request read before citation after item)
    {part : List IntentCitation} (inOthers : ∀ other ∈ part, other ∈ before ++ after) :
    ∃ repaired, List.Forall₂ (Passes data request.evidence) part repaired := by
  induction part with
  | nil => exact ⟨[], .nil⟩
  | cons other part inductionHypothesis =>
      rcases inductionHypothesis fun one member => inOthers one (List.mem_cons_of_mem _ member)
        with ⟨repaired, pass⟩
      have inBoth := inOthers other List.mem_cons_self
      rcases valid.others other inBoth with ⟨source, known, named, visible, quote, ok⟩
      have member : other ∈ read.citations := by
        rw [valid.citations_eq, List.mem_append, List.mem_cons]
        rcases List.mem_append.mp inBoth with first | last
        · exact .inl first
        · exact .inr (.inr last)
      exact ⟨_ :: repaired, .cons (valid.passes member known named visible ok) pass⟩

/-- Nothing but the citations decides whether the draft is accepted. -/
theorem validate_eq (valid : OtherwiseValid data draft request read before citation after item) :
    validate data draft request = validateEvidence data read request := by
  rw [validate, valid.read_eq]
  dsimp only
  cases found : read.intervention with
  | none => rfl
  | some intervention =>
      have derived := valid.derived intervention found
      dsimp only
      rw [if_pos derived.1, if_neg derived.2]

/-- The checks before the citations pass. -/
theorem validateEvidence_eq
    (valid : OtherwiseValid data draft request read before citation after item) :
    validateEvidence data read request = (do
      let citations ← checkCitations data request.evidence [] read.citations
      match read.intervention with
      | some intervention => do
          let repaired ← citations.mapM fun citation =>
            (IntentCitation.construct citation.chunkId citation.quote).mapError .validation
          (draftFromIntervention { intervention with citations := repaired }).mapError .validation
      | none => return { read with citations := citations }) := by
  have inScope : ¬ (¬ (request.evidence.map (·.chunkId)).Nodup ∨
      ∃ item ∈ request.evidence, item.courseId ≠ request.scope.courseId ∨
        item.corpusVersionId ≠ request.scope.corpusVersionId) := by
    intro outside
    rcases outside with repeated | ⟨source, known, other⟩
    · exact repeated valid.distinct
    · have same := valid.inScope source known
      rcases other with course | corpus
      · exact course same.1
      · exact corpus same.2
  have cited : ¬ (request.evidence = [] ∨ ¬ read.grounded = true ∨ read.citations = []) := by
    intro lacking
    rcases lacking with none | ungrounded | uncited
    · exact List.ne_nil_of_mem valid.known none
    · exact ungrounded valid.grounded
    · rw [valid.citations_eq] at uncited
      simp at uncited
  rw [validateEvidence, failIf_of_not inScope, ok_bind, if_neg valid.mode_ne, failIf_of_not cited,
    ok_bind, failIf_of_not (Bool.eq_false_iff.mp valid.answer)]
  exact ok_bind

/-- The draft is accepted once its citations are, with the citations kept. -/
theorem accepted (valid : OtherwiseValid data draft request read before citation after item)
    {kept : List IntentCitation}
    (citationsOk : checkCitations data request.evidence [] read.citations = .ok kept)
    (checked : ∀ other ∈ kept, other.check = .ok ()) (short : kept.length ≤ read.citations.length) :
    ∃ validated, validate data draft request = .ok validated ∧ validated.citations = kept := by
  rw [valid.validate_eq, valid.validateEvidence_eq, citationsOk, ok_bind]
  have readChecked := valid.checked
  simp only [TutorDraft.check, bind_eq_ok, checkLength_eq_ok] at readChecked
  rcases readChecked with ⟨_, answerOk, _, _, _, fewCitations⟩
  cases found : read.intervention with
  | none => exact ⟨_, rfl, rfl⟩
  | some intervention =>
      have derived := (valid.derived intervention found).1
      have constructed : (kept.mapM fun citation =>
          IntentCitation.construct citation.chunkId citation.quote) = .ok kept := by
        refine mapM_eq_ok_iff_forall₂.mpr (List.forall₂_same.mpr fun other member => ?_)
        exact IntentCitation.construct_eq_ok.mpr ⟨rfl, checked other member⟩
      have renamed : (kept.mapM fun citation =>
          (IntentCitation.construct citation.chunkId citation.quote).mapError
            Failure.validation) = .ok kept := by
        refine mapM_eq_ok_iff_forall₂.mpr ((mapM_eq_ok_iff_forall₂.mp constructed).imp ?_)
        intro other result ok
        exact mapError_eq_ok.mpr ok
      have answerChecked : checkText 1 6000 (equivalentText intervention) = .ok () := by
        rw [← derived.1]
        exact answerOk
      rcases exists_mapM_eq_ok_iff.mpr checked with ⟨results, resultsOk⟩
      have drafted : draftFromIntervention { intervention with citations := kept } = .ok
          { mode := modeFor intervention, answer := equivalentText intervention, citations := kept
            grounded := intervention.grounded
            intervention := some { intervention with citations := kept } } := by
        simp only [draftFromIntervention, bind_eq_ok]
        refine ⟨kept, constructed, TutorDraft.construct_eq_ok.mpr ⟨rfl, ?_⟩⟩
        simp only [TutorDraft.check, bind_eq_ok, checkLength_eq_ok]
        exact ⟨(), answerChecked, results, resultsOk, Nat.zero_le _,
          short.trans fewCitations⟩
      dsimp only
      rw [renamed, ok_bind, drafted]
      exact ⟨_, rfl, rfl⟩

/-- The draft is accepted if the quote is, and then the quote is stored. -/
theorem accepted_of_repaired
    (valid : OtherwiseValid data draft request read before citation after item) {repaired : String}
    (ok : verbatimQuote data item.content citation.quote = .ok repaired) :
    ∃ validated, validate data draft request = .ok validated ∧
      (citation.chunkId ∉ before.map (·.chunkId) →
        { citation with quote := repaired } ∈ validated.citations) := by
  rcases valid.others_pass fun other member => List.mem_append_left after member
    with ⟨keptBefore, beforePass⟩
  rcases valid.others_pass fun other member => List.mem_append_right before member
    with ⟨keptAfter, afterPass⟩
  have member : citation ∈ read.citations := by
    rw [valid.citations_eq]
    exact List.mem_append_right _ List.mem_cons_self
  have here := valid.passes member valid.known valid.named valid.visible ok
  have pass : List.Forall₂ (Passes data request.evidence) read.citations
      (keptBefore ++ { citation with quote := repaired } :: keptAfter) := by
    rw [valid.citations_eq]
    exact List.rel_append beforePass (.cons here afterPass)
  have sublist := keepFirst_sublist []
    (keptBefore ++ { citation with quote := repaired } :: keptAfter)
  have checked : ∀ other ∈ keepFirst []
      (keptBefore ++ { citation with quote := repaired } :: keptAfter), other.check = .ok () := by
    intro other inKept
    exact checked_of_pass pass other (sublist.subset inKept)
  rcases valid.accepted (checkCitations_eq_ok pass []) checked
    (sublist.length_le.trans pass.length_eq.ge) with ⟨validated, accepted, same⟩
  refine ⟨validated, accepted, fun fresh => ?_⟩
  rw [same]
  refine mem_keepFirst (List.not_mem_nil) ?_
  rw [chunks_eq_of_pass beforePass]
  exact fresh

/-- The draft is refused if the quote is. -/
theorem refused_of_error
    (valid : OtherwiseValid data draft request read before citation after item) {failure : Failure}
    (refused : verbatimQuote data item.content citation.quote = .error failure) :
    validate data draft request = .error (.rag "MODEL_OUTPUT_INVALID") := by
  rcases valid.others_pass fun other member => List.mem_append_left after member
    with ⟨keptBefore, beforePass⟩
  have stopped := @checkCitations_eq_error _ _ _ _ beforePass _ after _
    (valid.find?_known valid.known valid.named) valid.visible _ refused []
  rw [valid.validate_eq, valid.validateEvidence_eq, valid.citations_eq, stopped,
    verbatimQuote_eq_error refused]
  rfl

end OtherwiseValid

/-- When a citation that does not occur verbatim is repaired as claimed: exactly
when its quote has at most one matching position, or two a quote's length apart. -/
theorem repairs_unique_span_iff {draft : ModelDraft} {request : TutorRequest} {read : TutorDraft}
    {before after : List IntentCitation} {citation : IntentCitation} {item : Evidence}
    (valid : OtherwiseValid data draft request read before citation after item)
    (absent : ¬ Text.Contains item.content citation.quote) :
    RepairsUniqueSpan (validate data draft request) before citation item.content
        (quoteStarts data item.content citation.quote) ↔
      Distinguishable citation.quote.toList.length
        (quoteStarts data item.content citation.quote) := by
  have member : citation ∈ read.citations := by
    rw [valid.citations_eq]
    exact List.mem_append_right _ List.mem_cons_self
  have bounds := valid.citation_checked member
  rw [IntentCitation.check, checkText_eq_ok, ← String.length_toList] at bounds
  have ofQuote := @replacesUniqueSpan_iff data item.content citation.quote (by omega) absent
  constructor
  · intro repairs
    apply ofQuote.mp
    cases result : verbatimQuote data item.content citation.quote with
    | error failure =>
        cases known : quoteStarts data item.content citation.quote with
        | nil => rw [verbatimQuote_eq_error result]; rfl
        | cons start others =>
            cases others with
            | cons second others => rw [verbatimQuote_eq_error result]; rfl
            | nil =>
                rw [known] at repairs
                rcases repairs with ⟨validated, accepted, _⟩
                rw [valid.refused_of_error result] at accepted
                cases accepted
    | ok repaired =>
        rcases valid.accepted_of_repaired result with ⟨validated, accepted, _⟩
        cases known : quoteStarts data item.content citation.quote with
        | nil =>
            rw [known, accepted] at repairs
            cases repairs
        | cons start others =>
            cases others with
            | cons second others =>
                rw [known, accepted] at repairs
                cases repairs
            | nil =>
                have replaces := ofQuote.mpr (by rw [known]; exact .inl (le_refl 1))
                rw [known, result] at replaces
                exact replaces
  · intro distinguishable
    have replaces := ofQuote.mpr distinguishable
    cases known : quoteStarts data item.content citation.quote with
    | nil =>
        rw [known] at replaces
        exact valid.refused_of_error replaces
    | cons start others =>
        rw [known] at replaces
        cases others with
        | nil => exact valid.accepted_of_repaired replaces
        | cons second others => exact valid.refused_of_error replaces

end Drafts

/-! ### A draft with one citation -/

section Sample

/-- Letter case as the ASCII letters have it. -/
def asciiData : ValidatorData where
  unicode :=
    { lower := List.map Char.toLower
      isWord := Char.isAlphanum
      isPrintable := fun char => decide (' ' ≤ char)
      sameIgnoringCase := fun first second => first.toLower == second.toLower }
  intOfText := fun _ => none

def evidenceOf (content : String) : Evidence where
  chunkId := .ofNat 1
  courseId := .ofNat 2
  corpusVersionId := .ofNat 3
  documentVersionId := .ofNat 4
  documentTitle := "Stacks"
  documentSha256 := some "hash"
  pageStart := 1
  pageEnd := 1
  fragment := "chunk-0"
  content
  contentHash := "chunk"

def requestOver (content : String) : TutorRequest where
  scope :=
    { courseId := .ofNat 2, corpusVersionId := .ofNat 3, principalUserId := .ofNat 5
      conversationId := .ofNat 6, messageId := .ofNat 7, correlationId := "request" }
  question := "What is a stack?"
  evidence := [evidenceOf content]
  history := []

def draftQuoting (quote : String) : TutorDraft where
  mode := .explanation
  answer := "It is last in, first out."
  citations := [{ chunkId := .ofNat 1, quote }]
  grounded := true

/-- A quote in other letter case than its only source span is repaired. -/
theorem repairs_unique_span_of_sample :
    RepairsUniqueSpan (validate asciiData (some (draftQuoting "A STACK IS LAST").dump)
        (requestOver "A stack is last in, first out."))
      [] { chunkId := .ofNat 1, quote := "A STACK IS LAST" } "A stack is last in, first out."
      (quoteStarts asciiData "A stack is last in, first out." "A STACK IS LAST") := by
  refine (@repairs_unique_span_iff asciiData (some (draftQuoting "A STACK IS LAST").dump)
    (requestOver "A stack is last in, first out.") (draftQuoting "A STACK IS LAST") [] []
    { chunkId := .ofNat 1, quote := "A STACK IS LAST" }
    (evidenceOf "A stack is last in, first out.") ?_ (by decide +kernel)).mpr
    (.inl (by decide +kernel))
  exact
    { read_eq := by decide +kernel
      citations_eq := rfl
      grounded := rfl
      mode_ne := by decide
      answer := by decide +kernel
      derived := fun _ none => by cases none
      distinct := by decide +kernel
      inScope := by decide +kernel
      known := List.mem_singleton_self _
      named := rfl
      visible := by decide +kernel
      others := List.forall_mem_nil _ }

/-- A periodic content with two overlapping spans, of which the validator takes
the first. -/
theorem not_repairs_unique_span_periodic :
    OtherwiseValid asciiData (some (draftQuoting "abababababa").dump)
        (requestOver "ABABABABABABa") (draftQuoting "abababababa") []
        { chunkId := .ofNat 1, quote := "abababababa" } [] (evidenceOf "ABABABABABABa") ∧
      ¬ Text.Contains "ABABABABABABa" "abababababa" ∧
      quoteStarts asciiData "ABABABABABABa" "abababababa" = [0, 2] ∧
      ¬ RepairsUniqueSpan (validate asciiData (some (draftQuoting "abababababa").dump)
          (requestOver "ABABABABABABa"))
        [] { chunkId := .ofNat 1, quote := "abababababa" } "ABABABABABABa"
        (quoteStarts asciiData "ABABABABABABa" "abababababa") := by
  have positions : quoteStarts asciiData "ABABABABABABa" "abababababa" = [0, 2] := by
    decide +kernel
  refine ⟨?_, by decide +kernel, positions, ?_⟩
  · exact
      { read_eq := by decide +kernel
        citations_eq := rfl
        grounded := rfl
        mode_ne := by decide
        answer := by decide +kernel
        derived := fun _ none => by cases none
        distinct := by decide +kernel
        inScope := by decide +kernel
        known := List.mem_singleton_self _
        named := rfl
        visible := by decide +kernel
        others := List.forall_mem_nil _ }
  · rw [positions]
    change ¬ validate asciiData (some (draftQuoting "abababababa").dump)
      (requestOver "ABABABABABABa") = .error (.rag "MODEL_OUTPUT_INVALID")
    decide +kernel

end Sample

end Docta
