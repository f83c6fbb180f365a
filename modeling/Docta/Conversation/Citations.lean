/-
Module: Docta.Conversation.Citations
Purpose: Citation soundness of whole runs. A completed message is ungrounded and
  uncited, or grounded and cited; what it cites is saved evidence of its own
  turn, copied from a chunk of its own course and corpus, and quoted verbatim;
  and its view lists exactly the citations of the draft that was validated.
Trusted boundary: stored chunks are never changed or removed
Main exports: Classroom, Classroom.Step, citations_of_view, citations_sound
-/
import Docta.Conversation.Generation

namespace Docta

open Table Fallible Transition ConversationService

/-! ### The join of the view -/

section Join

variable {dialogue : Dialogue} {message : Message} {draft : TutorDraft}

/-- The one evidence row a citation row refers to. -/
theorem exists_evidence_of_citation (keys : dialogue.Keys) {citation : Citation}
    (known : citation ∈ dialogue.citations) :
    ∃ evidence ∈ dialogue.retrievedEvidence,
      (evidence.messageId = citation.messageId ∧ evidence.chunkId = citation.chunkId ∧
        evidence.courseId = citation.courseId) ∧
      (dialogue.retrievedEvidence.filter fun row =>
        row.messageId = citation.messageId ∧ row.chunkId = citation.chunkId ∧
          row.courseId = citation.courseId) = [evidence] := by
  obtain ⟨evidence, evidenceKnown, course, owner, chunk⟩ := keys.citationEvidence citation known
  refine ⟨evidence, evidenceKnown, ⟨owner, chunk, course⟩, ?_⟩
  rw [← keys.evidenceKeys.filter_eq evidenceKnown]
  refine List.filter_congr fun row rowKnown => ?_
  rw [decide_eq_decide, Prod.mk.injEq, owner, chunk]
  constructor
  · intro matched
    exact ⟨matched.1, matched.2.1⟩
  · intro sameKey
    have same := keys.evidenceKeys.eq_of_key rowKnown evidenceKnown
      (by rw [Prod.mk.injEq, owner, chunk]; exact sameKey)
    rw [same]
    exact ⟨owner, chunk, course⟩

/-- The rows of the join agree on the chunk. -/
theorem chunk_of_citedRows {messageId : UUID} {row : Citation × RetrievedEvidence}
    (member : row ∈ citedRows dialogue messageId) : row.2.chunkId = row.1.chunkId := by
  obtain ⟨citation, _, inner⟩ := List.mem_flatMap.mp member
  obtain ⟨evidence, evidenceMember, rfl⟩ := List.mem_map.mp inner
  have matched := (List.mem_filter.mp evidenceMember).2
  simp only [decide_eq_true_eq] at matched
  exact matched.2.1

/-- The join neither loses nor repeats a citation. -/
theorem map_fst_citedRows (keys : dialogue.Keys) (messageId : UUID) :
    (citedRows dialogue messageId).map Prod.fst =
      dialogue.citations.filter (·.messageId = messageId) := by
  refine map_fst_join fun citation member => ?_
  obtain ⟨evidence, _, _, only⟩ :=
    exists_evidence_of_citation keys (List.mem_of_mem_filter member)
  exact ⟨evidence, only⟩

/-- The citation rows of a draft are numbered in its order. -/
theorem ordinals_citationRows (message : Message) (draft : TutorDraft) :
    (citationRows message draft).map (·.ordinal) = List.range' 0 draft.citations.length := by
  unfold citationRows
  rw [List.map_map, ← List.zipIdx_map_snd 0 draft.citations]
  rfl

/-- The citation rows of a draft say what the draft says. -/
theorem quotes_citationRows (message : Message) (draft : TutorDraft) :
    (citationRows message draft).map (fun row => (⟨row.chunkId, row.quote⟩ : IntentCitation)) =
      draft.citations := by
  unfold citationRows
  rw [List.map_map]
  exact List.zipIdx_map_fst 0 draft.citations

/-- The join comes in the order of the draft, so sorting it changes nothing. -/
theorem sorted_citedRows (keys : dialogue.Keys)
    (cited : dialogue.citations.filter (·.messageId = message.id) = citationRows message draft) :
    (citedRows dialogue message.id).insertionSort byOrdinal = citedRows dialogue message.id := by
  refine List.Pairwise.insertionSort_eq ?_
  have ordinals : (citedRows dialogue message.id).map (·.1.ordinal) =
      List.range' 0 draft.citations.length := by
    rw [← ordinals_citationRows message draft, ← cited, ← map_fst_citedRows keys, List.map_map]
    rfl
  have ascending : ((citedRows dialogue message.id).map (·.1.ordinal)).Pairwise (· ≤ ·) := by
    rw [ordinals]
    exact List.pairwise_le_range' 1
  have pairs := List.pairwise_map.mp ascending
  exact pairs

/-- The view of a message lists the citations of its draft, in their order. -/
theorem citations_of_view (keys : dialogue.Keys)
    (cited : dialogue.citations.filter (·.messageId = message.id) = citationRows message draft) :
    (((citedRows dialogue message.id).insertionSort byOrdinal).map citationView).map
      (fun shown => (⟨shown.chunkId, shown.quote⟩ : IntentCitation)) = draft.citations := by
  rw [sorted_citedRows keys cited, List.map_map, ← quotes_citationRows message draft, ← cited,
    ← map_fst_citedRows keys, List.map_map]
  refine List.map_congr_left fun row member => ?_
  simp [citationView, chunk_of_citedRows member]

end Join

/-! ### Turns over growing material -/

/-- The tutor's processes with the material the courses have. -/
structure Classroom where
  material : Material
  tutor : Tutor := {}

/-- Before any process started, over whatever material there is. -/
def Classroom.Initial (classroom : Classroom) : Prop :=
  classroom.tutor.Initial

/-- A step of the tutor, or material published beside it: stored chunks stay. -/
inductive Classroom.Step (data : ValidatorData) : Classroom → Classroom → Prop where
  | tutor (classroom : Classroom) (tables : Identity) (next : Tutor)
      (step : Tutor.Step data tables classroom.material classroom.tutor next) :
      Step data classroom { classroom with tutor := next }
  | publish (classroom : Classroom) (later : Material)
      (kept : classroom.material.chunks ⊆ later.chunks) :
      Step data classroom { classroom with material := later }

/-- Every evidence row copies a stored chunk. -/
def Classroom.EvidenceStored (classroom : Classroom) : Prop :=
  ∀ row ∈ classroom.tutor.dialogue.retrievedEvidence, row.StoredIn classroom.material

/-- An effect adds only evidence that copies stored chunks. -/
theorem stored_of_effect {material : Material} {before after : Dialogue} {change : Change}
    (effect : Effect material before change after)
    (stored : ∀ row ∈ before.retrievedEvidence, row.StoredIn material) :
    ∀ row ∈ after.retrievedEvidence, row.StoredIn material := by
  cases effect with
  | evidenceSaved message rows known isPending owned storedRows =>
      intro row member
      rcases List.mem_append.mp member with old | new
      · exact stored row old
      · exact storedRows row new
  | unchanged => exact stored
  | created row first => exact stored
  | expired clock completed conversationId => exact stored
  | accepted settings conversation request key turn readings known free => exact stored
  | completed message draft now completedAt known isPending inTime => exact stored
  | failed messageId code completedAt => exact stored

section Runs

variable {data : ValidatorData}

/-- One step keeps the tutor in order and its evidence stored. -/
theorem stored_of_step {before after : Classroom}
    (invariant : before.tutor.WellFormed ∧ before.EvidenceStored)
    (step : Classroom.Step data before after) :
    after.tutor.WellFormed ∧ after.EvidenceStored := by
  obtain ⟨wellFormed, stored⟩ := invariant
  cases step with
  | tutor tables next step =>
      obtain ⟨change, effect⟩ := (seen_of_step wellFormed step).effect
      exact ⟨wellFormed_of_step wellFormed step, stored_of_effect effect stored⟩
  | publish later kept =>
      refine ⟨wellFormed, fun row member => ?_⟩
      obtain ⟨chunk, known, copied⟩ := stored row member
      exact ⟨chunk, kept known, copied⟩

theorem stored_of_reachable {classroom : Classroom}
    (reachable : Reachable Classroom.Initial (Classroom.Step data) classroom) :
    classroom.tutor.WellFormed ∧ classroom.EvidenceStored := by
  refine reachable.holds ?_ fun _ _ invariant step => stored_of_step invariant step
  intro start initial
  refine ⟨wellFormed_of_initial initial, ?_⟩
  rw [Classroom.Initial, Tutor.Initial] at initial
  intro row member
  rw [initial] at member
  cases member

end Runs

/-! ### Soundness -/

/-- The citation quotes evidence saved for the message, copied from a chunk of
the message's own course and captured corpus. -/
structure Citation.SoundFor (classroom : Classroom) (message : Message) (citation : Citation)
    (evidence : RetrievedEvidence) : Prop where
  saved : evidence ∈ classroom.tutor.dialogue.retrievedEvidence
  ownTurn : evidence.messageId = message.id
  sameChunk : evidence.chunkId = citation.chunkId
  ownCourse : evidence.courseId = message.courseId
  ownCorpus : some evidence.corpusVersionId = message.corpusVersionId
  quoted : Text.Contains evidence.content citation.quote
  copied : ∃ chunk ∈ classroom.material.chunks, chunk.id = citation.chunkId ∧
    chunk.courseId = message.courseId ∧ some chunk.corpusVersionId = message.corpusVersionId ∧
      chunk.content = evidence.content

section Soundness

variable {classroom : Classroom} {message : Message} {draft : TutorDraft}

/-- Evidence of a message is of the message's course and corpus. -/
theorem scope_of_evidence {dialogue : Dialogue} (keys : dialogue.Keys)
    (known : message ∈ dialogue.messages) {row : RetrievedEvidence}
    (saved : row ∈ dialogue.retrievedEvidence) (ownTurn : row.messageId = message.id) :
    row.courseId = message.courseId ∧ some row.corpusVersionId = message.corpusVersionId := by
  obtain ⟨owner, ownerKnown, course, corpus, idEq⟩ := keys.evidenceMessage row saved
  have same := keys.messageIds.eq_of_key ownerKnown known (idEq.trans ownTurn)
  subst same
  exact ⟨course.symm, corpus.symm⟩

/-- A citation row of an answered message is sound. -/
theorem soundFor_of_citation (wellFormed : classroom.tutor.WellFormed)
    (stored : classroom.EvidenceStored) (known : message ∈ classroom.tutor.dialogue.messages)
    (validated : (message.id, draft) ∈ classroom.tutor.ledger.validations) {citation : Citation}
    (cites : citation ∈ citationRows message draft) :
    ∃ evidence, citation.SoundFor classroom message evidence := by
  obtain ⟨evidence, sound, saved⟩ := wellFormed.ready _ validated
  obtain ⟨entry, entryMember, rfl⟩ := List.mem_map.mp cites
  have cited : entry.1 ∈ draft.citations := by
    rw [← List.zipIdx_map_fst 0 draft.citations]
    exact List.mem_map_of_mem entryMember
  obtain ⟨item, itemMember, sameChunk, contained⟩ := sound.quoted entry.1 cited
  have rowKnown := saved item itemMember
  obtain ⟨ownCourse, ownCorpus⟩ := scope_of_evidence wellFormed.orderly.keys known rowKnown rfl
  obtain ⟨chunk, chunkKnown, idEq, courseEq, corpusEq, contentEq, _⟩ := stored _ rowKnown
  refine ⟨evidenceRow message.id item, rowKnown, rfl, sameChunk, ownCourse, ownCorpus, contained,
    chunk, chunkKnown, idEq.trans sameChunk, courseEq.trans ownCourse, ?_, contentEq⟩
  rw [corpusEq]
  exact ownCorpus

/-- Only one draft is ever validated for a message. -/
theorem Tutor.WellFormed.validation_unique {tutor : Tutor} (wellFormed : tutor.WellFormed)
    {messageId : UUID} {first second : TutorDraft}
    (inFirst : (messageId, first) ∈ tutor.ledger.validations)
    (inSecond : (messageId, second) ∈ tutor.ledger.validations) : first = second := by
  have once : (tutor.ledger.validations.map (·.1)).Nodup :=
    nodup_of_bounded wellFormed.orderly wellFormed.validatedOnce
  exact congrArg Prod.snd (List.inj_on_of_nodup_map once inFirst inSecond rfl)

/-- The response of a message that shows a draft. -/
def TutorDraft.answerOn (draft : TutorDraft) (dialogue : Dialogue) (message : Message) :
    AnswerView where
  mode := draft.mode
  answer := draft.answer
  grounded := draft.grounded
  citations := ((citedRows dialogue message.id).insertionSort byOrdinal).map citationView
  intervention := message.intervention

/-- The view of a message that shows a draft. -/
theorem view_of_shows {dialogue : Dialogue} (keys : dialogue.Keys)
    (isCompleted : message.state = .completed) (shows : message.Shows draft)
    (cited : dialogue.citations.filter (·.messageId = message.id) = citationRows message draft) :
    ∃ shown answer, view dialogue message = .ok shown ∧ shown.response = some answer ∧
      answer.mode = draft.mode ∧ answer.answer = draft.answer ∧
        answer.grounded = draft.grounded ∧
        answer.intervention = draft.intervention.map (·.dump) ∧
        answer.citations.map (fun shown => (⟨shown.chunkId, shown.quote⟩ : IntentCitation)) =
          draft.citations := by
  have answerOk : answerView dialogue message = .ok (draft.answerOn dialogue message) := by
    simp only [answerView, shows.mode, shows.answer, shows.grounded]
    rfl
  obtain ⟨shown, viewOk⟩ : ∃ shown, view dialogue message = .ok shown := by
    simp only [view, if_pos isCompleted, answerOk]
    exact ⟨_, rfl⟩
  obtain ⟨answer, sameAnswer, response⟩ := (view_eq_ok viewOk).2.2.2 isCompleted
  rw [answerOk] at sameAnswer
  cases sameAnswer
  exact ⟨shown, _, viewOk, response, rfl, rfl, rfl, shows.intervention,
    citations_of_view keys cited⟩

end Soundness

/-- Citation soundness, in every state that any interleaving of turns leads to. -/
theorem citations_sound {data : ValidatorData} {classroom : Classroom}
    (reachable : Reachable Classroom.Initial (Classroom.Step data) classroom) :
    ∀ message ∈ classroom.tutor.dialogue.messages,
      (message.state ≠ .completed →
        ∀ citation ∈ classroom.tutor.dialogue.citations, citation.messageId ≠ message.id) ∧
      (message.state = .completed →
        ((message.grounded = some false ∧
            ∀ citation ∈ classroom.tutor.dialogue.citations, citation.messageId ≠ message.id) ∨
          (message.grounded = some true ∧
            ∃ citation ∈ classroom.tutor.dialogue.citations, citation.messageId = message.id)) ∧
        (∀ citation ∈ classroom.tutor.dialogue.citations, citation.messageId = message.id →
          ∃ evidence, citation.SoundFor classroom message evidence) ∧
        ∃ draft, (∀ other, (message.id, other) ∈ classroom.tutor.ledger.validations ↔
            other = draft) ∧
          ∃ shown answer, view classroom.tutor.dialogue message = .ok shown ∧
            shown.response = some answer ∧ answer.mode = draft.mode ∧
            answer.answer = draft.answer ∧ answer.grounded = draft.grounded ∧
            answer.intervention = draft.intervention.map (·.dump) ∧
            answer.citations.map (fun shown => (⟨shown.chunkId, shown.quote⟩ : IntentCitation)) =
              draft.citations) := by
  obtain ⟨wellFormed, stored⟩ := stored_of_reachable reachable
  have keys := wellFormed.orderly.keys
  intro message known
  refine ⟨?_, ?_⟩
  · intro notCompleted citation cited sameMessage
    obtain ⟨owner, ownerKnown, idEq, isCompleted⟩ := wellFormed.orderly.citedCompleted citation cited
    have same := keys.messageIds.eq_of_key ownerKnown known (idEq.trans sameMessage)
    exact notCompleted (same ▸ isCompleted)
  · intro isCompleted
    obtain ⟨draft, validated, shows, cited⟩ := wellFormed.answered message known isCompleted
    have rowIff (citation : Citation) : citation ∈ classroom.tutor.dialogue.citations ∧
        citation.messageId = message.id ↔ citation ∈ citationRows message draft := by
      rw [← cited, List.mem_filter, decide_eq_true_eq]
    obtain ⟨evidence, sound, _⟩ := wellFormed.ready _ validated
    refine ⟨?_, ?_, draft, fun other => ⟨fun also => wellFormed.validation_unique also validated,
      fun same => same ▸ validated⟩, view_of_shows keys isCompleted shows cited⟩
    · rw [shows.grounded]
      cases isGrounded : draft.grounded with
      | false =>
          have uncited : draft.citations = [] := by
            by_contra someCitation
            have grounded := sound.grounded_iff.mpr someCitation
            rw [isGrounded] at grounded
            cases grounded
          refine .inl ⟨rfl, fun citation member sameMessage => ?_⟩
          have row := (rowIff citation).mp ⟨member, sameMessage⟩
          rw [citationRows, uncited] at row
          cases row
      | true =>
          obtain ⟨first, rest, citationsEq⟩ :=
            List.exists_cons_of_ne_nil (sound.grounded_iff.mp isGrounded)
          obtain ⟨row, rowMember, _⟩ := @exists_citationRow message draft first
            (by rw [citationsEq]; exact List.mem_cons_self)
          obtain ⟨rowKnown, sameMessage⟩ := (rowIff row).mpr rowMember
          exact .inr ⟨rfl, row, rowKnown, sameMessage⟩
    · intro citation member sameMessage
      exact soundFor_of_citation wellFormed stored known validated
        ((rowIff citation).mp ⟨member, sameMessage⟩)

/-! ### A first citation -/

section Sample

/-- What the model returns in the first turn. -/
def sampleDraft : TutorDraft where
  mode := .explanation
  answer := "The item added last leaves first."
  citations := [{ chunkId := sampleId 8, quote := "last in, first out" }]
  grounded := true

def sampleValidated : TutorDraft :=
  valueOf (EvidenceResponseValidator.validate sampleData (some sampleDraft.dump) sampleAsked)
    (by decide +kernel)

def sampleCompleted : Dialogue :=
  valueOf (ConversationService.complete sampleIdentity sampleLibrary
    sampleAccepted.1.message.id sampleValidated 3 4 sampleSaved) (by decide +kernel)

/-- The classroom after the first turn. -/
def sampleAnswered : Classroom where
  material := sampleLibrary
  tutor :=
    { dialogue := sampleCompleted
      ledger :=
        { sampleGenerating.ledger with
          validations := [(sampleAccepted.1.message.id, sampleValidated)] } }

/-- The model answers, the validator lets the draft pass, and it is stored. -/
theorem run_sampleAnswered :
    Relation.ReflTransGen SampleStep sampleGenerating sampleAnswered.tutor := by
  have generated : SampleStep sampleGenerating
      { sampleGenerating with
        turns := [⟨sampleAccepted.1, .drafted (some sampleDraft.dump) sampleAsked⟩] } :=
    .turn _ [] [] sampleAccepted.1 _ _ rfl (.generated sampleAsked (some sampleDraft.dump))
  have validated : SampleStep
      { sampleGenerating with
        turns := [⟨sampleAccepted.1, .drafted (some sampleDraft.dump) sampleAsked⟩] }
      { sampleAnswered.tutor with
        dialogue := sampleSaved, turns := [⟨sampleAccepted.1, .validated sampleValidated⟩] } :=
    .turn _ [] [] sampleAccepted.1 _ _ rfl
      (.validate sampleAsked (some sampleDraft.dump) sampleValidated
        (eq_ok_valueOf _))
  have completed : SampleStep
      { sampleAnswered.tutor with
        dialogue := sampleSaved, turns := [⟨sampleAccepted.1, .validated sampleValidated⟩] }
      sampleAnswered.tutor :=
    .turn _ [] [] sampleAccepted.1 _ _ rfl
      (.complete sampleValidated 3 4 sampleCompleted (eq_ok_valueOf _))
  exact .tail (.tail (.single generated) validated) completed

theorem reachable_sampleAnswered :
    Reachable Classroom.Initial (Classroom.Step sampleData) sampleAnswered := by
  refine ⟨{ material := sampleLibrary }, rfl, ?_⟩
  have run := run_sampleGenerating.trans run_sampleAnswered
  exact run.lift (fun tutor => ({ material := sampleLibrary, tutor } : Classroom))
    fun _ _ step => .tutor _ sampleIdentity _ step

/-- The first turn stores one citation of the chunk, and every citation of its
message is sound. -/
theorem citations_sound_of_sample :
    sampleAnswered.tutor.dialogue.citations.map (fun row => (row.messageId, row.chunkId, row.quote)) =
        [(sampleId 4, sampleId 8, "last in, first out")] ∧
      ∀ message ∈ sampleAnswered.tutor.dialogue.messages, message.state = .completed →
        ∀ citation ∈ sampleAnswered.tutor.dialogue.citations, citation.messageId = message.id →
          ∃ evidence, citation.SoundFor sampleAnswered message evidence :=
  ⟨by decide +kernel, fun message known isCompleted =>
    ((citations_sound reachable_sampleAnswered message known).2 isCompleted).2.1⟩

end Sample

end Docta
