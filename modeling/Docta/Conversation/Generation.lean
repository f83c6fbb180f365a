/-
Module: Docta.Conversation.Generation
Purpose: At-most-once generation. Whatever is posted, repeated, interrupted,
  restarted or expired, the model is invoked at most once for a message, and
  only when the evidence it is asked about was retrieved and saved before.
Trusted boundary: none beyond the runtime's
Main exports: generates_at_most_once
-/
import Docta.Conversation.Turns

namespace Docta

open Table Fallible Transition ConversationService

section Generation

variable {data : ValidatorData} {tutor : Tutor}

/-- The retriever's answer for a message is one. -/
theorem Tutor.WellFormed.retrieval_unique (wellFormed : tutor.WellFormed) {messageId : UUID}
    {first second : List Evidence} (inFirst : (messageId, first) ∈ tutor.ledger.retrievals)
    (inSecond : (messageId, second) ∈ tutor.ledger.retrievals) : first = second := by
  have once : (tutor.ledger.retrievals.map (·.1)).Nodup :=
    nodup_of_bounded wellFormed.orderly wellFormed.retrievedOnce
  exact congrArg Prod.snd (List.inj_on_of_nodup_map once inFirst inSecond rfl)

/-- No invocation follows an empty retrieval. -/
theorem Tutor.WellFormed.not_generated_of_empty (wellFormed : tutor.WellFormed) {messageId : UUID}
    (empty : (messageId, []) ∈ tutor.ledger.retrievals) :
    messageId ∉ tutor.ledger.generatedIds := by
  intro member
  obtain ⟨entry, entryMember, rfl⟩ := List.mem_map.mp member
  have generated := wellFormed.generated entry entryMember
  exact generated.found (wellFormed.retrieval_unique generated.retrieved empty)

/-- No invocation is for a follow-up without its antecedent. -/
theorem Tutor.WellFormed.not_generated_of_needsAntecedent (wellFormed : tutor.WellFormed)
    {message : Message} (known : message ∈ tutor.dialogue.messages)
    (needs : message.NeedsAntecedent) : message.id ∉ tutor.ledger.generatedIds := by
  intro member
  obtain ⟨entry, entryMember, idEq⟩ := List.mem_map.mp member
  obtain ⟨stored, storedKnown, storedId, complete⟩ := (wellFormed.generated entry entryMember).answerable
  have same := wellFormed.orderly.keys.messageIds.eq_of_key storedKnown known (storedId.trans idEq)
  subst same
  exact complete needs

/-- At-most-once generation, in every state that any interleaving leads to: one
invocation at most for a message; each for a message this API created, stored
and answerable, with the evidence retrieved for it; none after an empty
retrieval or without an antecedent; and a step that invokes the model finds the
evidence already saved. -/
theorem generates_at_most_once (reachable : Reachable Tutor.Initial (TutorStep data) tutor) :
    tutor.ledger.generatedIds.Nodup ∧
      (∀ entry ∈ tutor.ledger.generations, entry.1.created = true ∧
        (∃ message ∈ tutor.dialogue.messages, message.id = entry.1.message.id) ∧
        entry.2.evidence ≠ [] ∧
        ∀ evidence, (entry.1.message.id, evidence) ∈ tutor.ledger.retrievals →
          evidence = entry.2.evidence) ∧
      (∀ messageId, (messageId, []) ∈ tutor.ledger.retrievals →
        messageId ∉ tutor.ledger.generatedIds) ∧
      (∀ message ∈ tutor.dialogue.messages, message.NeedsAntecedent →
        message.id ∉ tutor.ledger.generatedIds) ∧
      ∀ later, TutorStep data tutor later → ∀ entry ∈ later.ledger.generations,
        entry ∈ tutor.ledger.generations ∨
          (entry.1.message.id, entry.2.evidence) ∈ tutor.ledger.retrievals ∧
            tutor.dialogue.Saved entry.1.message.id entry.2.evidence := by
  have wellFormed := wellFormed_of_reachable reachable
  refine ⟨nodup_of_bounded wellFormed.orderly wellFormed.generatedOnce, ?_,
    fun messageId empty => wellFormed.not_generated_of_empty empty,
    fun message known needs => wellFormed.not_generated_of_needsAntecedent known needs, ?_⟩
  · intro entry member
    have generated := wellFormed.generated entry member
    obtain ⟨message, known, idEq, _⟩ := generated.answerable
    refine ⟨generated.created, ⟨message, known, idEq⟩, generated.found, ?_⟩
    intro evidence retrieved
    exact wellFormed.retrieval_unique retrieved generated.retrieved
  · intro later step entry member
    obtain ⟨tables, material, step⟩ := step
    rcases generated_before_step wellFormed step entry member with old | new
    · exact .inl old
    · exact .inr ⟨new.retrieved, new.saved⟩

end Generation

/-! ### A first turn -/

section Sample

/-- A course with one published document of one chunk. -/
def sampleLibrary : Material where
  courses := [{ id := sampleId 2, version := 1, activeCorpusVersionId := some (sampleId 7) }]
  documents :=
    [{ id := sampleId 5, courseId := sampleId 2, title := "Stacks", createdByUserId := sampleId 9 }]
  documentVersions :=
    [{ id := sampleId 6, courseId := sampleId 2, documentId := sampleId 5, storageKey := "key"
       originalFilename := "stacks.pdf", expectedSizeBytes := 1, expectedSha256 := "hash"
       mediaType := "application/pdf", state := .indexed, pipelineVersion := "pipeline"
       uploadIdempotencyKey := "upload", uploadRequestHash := "request"
       objectSha256 := some "hash" }]
  corpusVersions :=
    [{ id := sampleId 7, courseId := sampleId 2, state := .ready, pipelineVersion := "pipeline"
       pageCount := 1, chunkCount := 1 }]
  chunks :=
    [{ id := sampleId 8, courseId := sampleId 2, corpusVersionId := sampleId 7
       documentVersionId := sampleId 6, pageStart := 1, pageEnd := 1, ordinal := 0
       content := "A stack is last in, first out.", contentHash := "chunk" }]

/-- What the retriever returns for the chunk. -/
def sampleEvidence : Evidence where
  chunkId := sampleId 8
  courseId := sampleId 2
  corpusVersionId := sampleId 7
  documentVersionId := sampleId 6
  documentTitle := "Stacks"
  documentSha256 := some "hash"
  pageStart := 1
  pageEnd := 1
  fragment := "chunk-0"
  content := "A stack is last in, first out."
  contentHash := "chunk"

def sampleData : ValidatorData where
  unicode := sampleUnicode
  intOfText := fun _ => none

def sampleSettings : Settings where
  modelVersion := "model"
  retrievalVersion := "retrieval"

def sampleQuestion : Question where
  conversationId := sampleId 3
  question := "What is a stack?"
  key := some "ask"
  correlationId := "request"

def sampleReadings : Readings where
  expiryClock := fun _ => 1
  completedClock := fun _ => 1
  now := 1
  createdAt := 1
  messageId := sampleId 4
  corpusId := some (sampleId 7)

/-- The student opens a conversation. -/
def sampleOpening : Call :=
  .create sampleIdentity sampleLibrary sampleStudent (sampleId 2) (some "open") (sampleId 3) 0

/-- The conversation that is open then. -/
def sampleConversation : Conversation where
  id := sampleId 3
  courseId := sampleId 2
  ownerUserId := sampleId 1
  idempotencyKey := "open"
  createdAt := 0

/-- The question is accepted. -/
def sampleAccepted : AcceptedMessage × Dialogue :=
  valueOf (ConversationService.accept sampleSettings sampleUnicode sampleIdentity sampleLibrary
    sampleStudent sampleQuestion sampleReadings (sampleOpening.run {})) (by decide +kernel)

def sampleRequest : TutorRequest :=
  valueOf (ConversationService.request sampleAccepted.1 [] sampleAccepted.2) (by decide +kernel)

/-- The evidence is saved. -/
def sampleSaved : Dialogue :=
  valueOf (ConversationService.saveEvidence sampleIdentity sampleLibrary
    sampleAccepted.1.message.id [sampleEvidence] 2 sampleAccepted.2) (by decide +kernel)

/-- The request the model is asked. -/
def sampleAsked : TutorRequest := { sampleRequest with evidence := [sampleEvidence] }

/-- The tutor while the model answers. -/
def sampleGenerating : Tutor where
  dialogue := sampleSaved
  turns := [⟨sampleAccepted.1, .generating sampleAsked⟩]
  ledger :=
    { retrievals := [(sampleAccepted.1.message.id, [sampleEvidence])]
      generations := [(sampleAccepted.1, sampleAsked)] }

theorem sampleAccepted_ok :
    ConversationService.accept sampleSettings sampleUnicode sampleIdentity sampleLibrary
      sampleStudent sampleQuestion sampleReadings (sampleOpening.run {}) =
        .ok (sampleAccepted.1, sampleAccepted.2) :=
  show _ = Except.ok sampleAccepted from eq_ok_valueOf _

/-- A step over the sample tables. -/
abbrev SampleStep : Tutor → Tutor → Prop :=
  Tutor.Step sampleData sampleIdentity sampleLibrary

/-- The conversation opens, the question is accepted, its evidence is retrieved
and saved, and the model is invoked. -/
theorem run_sampleGenerating : Relation.ReflTransGen SampleStep {} sampleGenerating := by
  have opened : SampleStep {} { dialogue := sampleOpening.run {} } :=
    .beside {} sampleOpening ⟨rfl, rfl⟩
  have captured : SampleStep { dialogue := sampleOpening.run {} }
      { dialogue := sampleOpening.run {}
        captures := [⟨sampleId 3, sampleId 2, captureCorpus sampleLibrary (sampleId 2)⟩] } :=
    .capture _ sampleConversation (by decide +kernel) (List.forall_mem_nil _)
  have accepted : SampleStep
      { dialogue := sampleOpening.run {}
        captures := [⟨sampleId 3, sampleId 2, captureCorpus sampleLibrary (sampleId 2)⟩] }
      { dialogue := sampleAccepted.2, posts := [sampleAccepted.1] } :=
    .accept _ sampleSettings sampleStudent sampleQuestion sampleReadings _ _ [] [] _ rfl rfl
      (by decide +kernel) (by decide +kernel) (by decide +kernel) sampleAccepted_ok
  have started : SampleStep { dialogue := sampleAccepted.2, posts := [sampleAccepted.1] }
      { dialogue := sampleAccepted.2, turns := [⟨sampleAccepted.1, .started⟩] } :=
    .start _ [] [] sampleAccepted.1 rfl (by decide +kernel)
  have retrieving : SampleStep
      { dialogue := sampleAccepted.2, turns := [⟨sampleAccepted.1, .started⟩] }
      { dialogue := sampleAccepted.2, turns := [⟨sampleAccepted.1, .retrieving sampleRequest⟩] } :=
    .turn _ [] [] sampleAccepted.1 .started _ rfl
      (.retrieve sampleRequest (eq_ok_valueOf _) (by decide +kernel))
  have retrieved : SampleStep
      { dialogue := sampleAccepted.2, turns := [⟨sampleAccepted.1, .retrieving sampleRequest⟩] }
      { dialogue := sampleAccepted.2
        turns := [⟨sampleAccepted.1, .retrieved sampleRequest [sampleEvidence]⟩]
        ledger := { retrievals := [(sampleAccepted.1.message.id, [sampleEvidence])] } } :=
    .turn _ [] [] sampleAccepted.1 _ _ rfl (.retrieved sampleRequest [sampleEvidence])
  have saved : SampleStep
      { dialogue := sampleAccepted.2
        turns := [⟨sampleAccepted.1, .retrieved sampleRequest [sampleEvidence]⟩]
        ledger := { retrievals := [(sampleAccepted.1.message.id, [sampleEvidence])] } }
      { dialogue := sampleSaved
        turns := [⟨sampleAccepted.1, .saved sampleAsked⟩]
        ledger := { retrievals := [(sampleAccepted.1.message.id, [sampleEvidence])] } } :=
    .turn _ [] [] sampleAccepted.1 _ _ rfl
      (.save sampleRequest [sampleEvidence] 2 sampleSaved (eq_ok_valueOf _))
  have generating : SampleStep
      { dialogue := sampleSaved
        turns := [⟨sampleAccepted.1, .saved sampleAsked⟩]
        ledger := { retrievals := [(sampleAccepted.1.message.id, [sampleEvidence])] } }
      sampleGenerating :=
    .turn _ [] [] sampleAccepted.1 _ _ rfl (.generate sampleAsked (List.cons_ne_nil _ _))
  exact .tail (.tail (.tail (.tail (.tail (.tail (.tail (.single opened) captured) accepted)
    started) retrieving) retrieved) saved) generating

theorem reachable_sampleGenerating :
    Reachable Tutor.Initial (TutorStep sampleData) sampleGenerating :=
  ⟨{}, rfl, Relation.ReflTransGen.mono (fun _ _ step => ⟨_, _, step⟩) _ _ run_sampleGenerating⟩

/-- In the first turn the model is invoked once. -/
theorem generates_at_most_once_of_sample :
    sampleGenerating.ledger.generatedIds = [sampleId 4] ∧
      sampleGenerating.ledger.generatedIds.Nodup :=
  ⟨by decide +kernel, (generates_at_most_once reachable_sampleGenerating).1⟩

end Sample

end Docta
