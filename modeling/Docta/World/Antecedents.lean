/-
Module: Docta.World.Antecedents
Purpose: Antecedent resolution over whole runs. A follow-up or an action asks the
  retriever for the question its chain of answered antecedents leads to, and
  without one it calls nothing, as long as actions name messages that answered:
  acceptance checks that of a follow-up's antecedent and not of an action's parent.
Trusted boundary: none
Main exports: World.AnsweringStep, Tutor.ResolvesAntecedents,
  resolves_antecedents, not_resolvesAntecedents_hint
-/
import Docta.Conversation.Antecedents
import Docta.Rag.Idempotence
import Docta.World.Acceptance

namespace Docta

open Table Fallible Transition ConversationService

section Runs

variable {deployment : Deployment} {data : ValidatorData} {world after : World}

/-- A step that accepts an action only on a message that neither abstained nor
asked for clarification. -/
def World.AnsweringStep (deployment : Deployment) (data : ValidatorData) (before after : World) :
    Prop :=
  World.Step deployment data before after ∧
    Tutor.ActsOnAnswers data before.identity before.backend.material before.tutor after.tutor

/-- What follow-ups and actions may rely on. -/
structure Tutor.ResolvesAntecedents (tutor : Tutor) : Prop where
  /-- a task asks the retriever for the text that its message is authorized for,
  which a follow-up or an action gets from its chain of answered antecedents -/
  asks : ∀ turn ∈ tutor.turns, ∀ request, turn.phase = .retrieving request →
    ∃ row ∈ tutor.dialogue.messages, row.id = turn.messageId ∧
      row.id = request.scope.messageId ∧ row.searchText = request.query ∧
      (row.kind ≠ .question → tutor.dialogue.Resolves row request.query)
  /-- without such a chain nothing is called, and the turn completes, if it does,
  as the uncited clarification -/
  uncalled : ∀ row ∈ tutor.dialogue.messages, row.kind ≠ .question →
    (∀ query, ¬ tutor.dialogue.Resolves row query) →
      (∀ turn ∈ tutor.turns, turn.messageId = row.id → ∀ request,
        turn.phase ≠ .retrieving request ∧ turn.phase ≠ .generating request) ∧
      row.id ∉ tutor.ledger.retrievedIds ∧ row.id ∉ tutor.ledger.generatedIds ∧
      (row.state = .completed → row.mode = some .clarify ∧
        tutor.dialogue.citations.filter (·.messageId = row.id) = [])
  /-- an action without a completed parent in its conversation is refused -/
  refuses : ∀ settings unicode tables material who (request : ConversationService.Question)
    readings accepted later,
    ConversationService.accept settings unicode tables material who request readings
        tutor.dialogue = .ok (accepted, later) →
      accepted.created = true → request.kind = .action →
        ∃ parent ∈ tutor.dialogue.messages, request.parentMessageId = some parent.id ∧
          parent.conversationId = request.conversationId ∧ parent.state = .completed

/-- What a run keeps. -/
structure World.Linked (world : World) : Prop where
  queries : world.tutor.Queries
  rows : ∀ row ∈ world.tutor.dialogue.messages, row.Linked world.tutor.dialogue

theorem linked_of_worldInitial (initial : world.Initial) : world.Linked where
  queries := queries_of_initial initial.tutor
  rows := by
    have empty := initial.tutor
    rw [Tutor.Initial] at empty
    rw [empty]
    exact List.forall_mem_nil _

theorem linked_of_worldStep (sound : world.Sound deployment) (linked : world.Linked)
    (step : world.AnsweringStep deployment data after) : after.Linked := by
  rcases step with ⟨step, acts⟩
  cases step with
  | enrol identity constraints restricted => exact ⟨linked.queries, linked.rows⟩
  | publish backend backendStep => exact ⟨linked.queries, linked.rows⟩
  | tutor tutor tutorStep =>
      exact ⟨queries_of_step sound.tutor linked.queries tutorStep,
        linked_of_step sound.tutor linked.queries linked.rows tutorStep acts⟩

/-- Derived queries stay on the chain along every run whose actions name answers. -/
theorem linked_of_run
    (reachable : Reachable World.Initial (World.AnsweringStep deployment data) world) :
    world.Sound deployment ∧ world.Linked :=
  @Reachable.holds _ _ _ (fun world => world.Sound deployment ∧ world.Linked)
    (fun _ initial => ⟨sound_of_worldInitial initial, linked_of_worldInitial initial⟩)
    (fun _ _ invariant step =>
      ⟨sound_of_worldStep invariant.1 step.1, linked_of_worldStep invariant.1 invariant.2 step⟩)
    _ reachable

/-- An acceptance that creates an action names a completed message. -/
theorem parent_of_accept {settings : Settings} {unicode : Text.UnicodeData} {tables : Identity}
    {material : Material} {who : AuthenticatedIdentity} {request : ConversationService.Question}
    {readings : Readings} {accepted : AcceptedMessage} {before later : Dialogue}
    (keys : before.Keys) (created : accepted.created = true) (isAction : request.kind = .action)
    (ok : ConversationService.accept settings unicode tables material who request readings before =
      .ok (accepted, later)) :
    ∃ parent ∈ before.messages, request.parentMessageId = some parent.id ∧
      parent.conversationId = request.conversationId ∧ parent.state = .completed := by
  rcases continued_of_accept keys created ok with ⟨conversation, key, turn, _, idEq, continued, _⟩
  cases continued with
  | question intent notAction => exact absurd isAction notAction
  | followup intent notAction last isLast answers => exact absurd isAction notAction
  | ambiguous intent notAction unanswered => exact absurd isAction notAction
  | action intent parent isAction known named own isCompleted =>
      rcases mem_expire known with ⟨source, sourceKnown, _, same | ⟨_, expired⟩⟩
      · rw [← same] at sourceKnown
        exact ⟨parent, sourceKnown, named, own.trans idEq, isCompleted⟩
      · rw [expired] at isCompleted
        cases isCompleted

/-- A turn without an answered antecedent needs one. -/
theorem needsAntecedent_of_unresolved {dialogue : Dialogue} {row : Message}
    (linked : row.Linked dialogue) (notQuestion : row.kind ≠ .question)
    (unresolved : ∀ query, ¬ dialogue.Resolves row query) : row.NeedsAntecedent := by
  have noQuery : row.retrievalQuery = none :=
    Option.eq_none_iff_forall_ne_some.mpr fun query isQuery =>
      unresolved query (linked.resolves query isQuery)
  refine ⟨?_, noQuery⟩
  have notAction := (linked.unanswered noQuery).1
  cases isKind : row.kind with
  | question => exact absurd isKind notQuestion
  | action => exact absurd isKind notAction
  | followup => rfl

/-- Where actions name answered messages, follow-ups and actions resolve their
antecedents in every state of a run. -/
theorem resolves_antecedents
    (reachable : Reachable World.Initial (World.AnsweringStep deployment data) world) :
    world.tutor.ResolvesAntecedents := by
  rcases linked_of_run reachable with ⟨sound, linked⟩
  have wellFormed := sound.tutor
  have ids := wellFormed.orderly.keys.messageIds
  refine ⟨?_, ?_, ?_⟩
  · intro turn member request isPhase
    have follows := linked.queries.follows turn member
    rw [isPhase] at follows
    rcases follows with ⟨sameScope, row, known, sameId, sameQuery⟩
    refine ⟨row, known, sameId, sameId.trans sameScope.symm, sameQuery, fun notQuestion => ?_⟩
    have justified := wellFormed.justified turn member
    rw [isPhase] at justified
    rcases justified with ⟨stored, storedKnown, storedId, answerable⟩
    rw [ids.eq_of_key storedKnown known (storedId.trans sameId.symm)] at answerable
    cases isQuery : row.retrievalQuery with
    | some query =>
        have resolves := (linked.rows row known).resolves query isQuery
        rw [← sameQuery, Message.searchText, isQuery]
        exact resolves
    | none =>
        -- A row without a query that is no follow-up is no action either.
        have notAction := ((linked.rows row known).unanswered isQuery).1
        cases isKind : row.kind with
        | question => exact absurd isKind notQuestion
        | action => exact absurd isKind notAction
        | followup => exact absurd ⟨isKind, isQuery⟩ answerable
  · intro row known notQuestion unresolved
    have needs := needsAntecedent_of_unresolved (linked.rows row known) notQuestion unresolved
    have unanswerable : ¬ world.tutor.dialogue.Answerable row.id := by
      intro answerable
      rcases answerable with ⟨stored, storedKnown, storedId, complete⟩
      rw [ids.eq_of_key storedKnown known storedId] at complete
      exact complete needs
    refine ⟨fun turn member sameId request => ?_, fun member => ?_, ?_, fun isCompleted => ?_⟩
    · have justified := wellFormed.justified turn member
      rw [sameId] at justified
      refine ⟨fun isPhase => ?_, fun isPhase => ?_⟩
      · rw [isPhase] at justified
        exact unanswerable justified
      · rw [isPhase] at justified
        exact unanswerable justified.1
    · rcases List.mem_map.mp member with ⟨entry, entryMember, sameId⟩
      exact unanswerable (sameId ▸ linked.queries.retrieved entry entryMember)
    · exact wellFormed.not_generated_of_needsAntecedent known needs
    · exact clarified_of_completed wellFormed linked.queries known needs isCompleted
  · intro settings unicode tables material who request readings accepted later ok created isAction
    exact parent_of_accept wellFormed.orderly.keys created isAction ok

/-! ### A follow-up and an action on an abstention -/

/-- A run to a world without actions accepted none. -/
theorem answering_of_run
    (reachable : Reachable World.Initial (World.Step deployment data) world)
    (noActions : ∀ row ∈ world.tutor.dialogue.messages, row.kind ≠ .action) :
    Reachable World.Initial (World.AnsweringStep deployment data) world := by
  rcases reachable with ⟨origin, initial, run⟩
  induction run with
  | refl => exact .of_start initial
  | @tail before next prior step inductionHypothesis =>
      have sound := sound_of_world ⟨origin, initial, prior⟩
      have noActionsBefore : ∀ row ∈ before.tutor.dialogue.messages, row.kind ≠ .action := by
        intro row known
        rcases (dialogue_of_worldStep sound step).messages row known with ⟨later, laterKnown, advance⟩
        rw [← advance.column (·.kind) fun _ => rfl]
        exact noActions later laterKnown
      refine (inductionHypothesis noActionsBefore).tail ⟨step, ?_⟩
      intro settings who request readings accepted ok created isAction
      rcases continued_of_accept sound.tutor.orderly.keys created ok with
        ⟨conversation, key, turn, _, _, continued, inserted, _⟩
      have stored : turn.kind ≠ .action := by
        refine noActions (newMessage settings conversation request key turn readings) ?_
        rw [inserted]
        exact List.mem_append_right _ (List.mem_singleton_self _)
      cases continued with
      | action intent parent isAction known named own isCompleted => exact absurd rfl stored
      | question intent notAction => exact absurd isAction notAction
      | followup intent notAction last isLast answers => exact absurd isAction notAction
      | ambiguous intent notAction unanswered => exact absurd isAction notAction

end Runs

section Sample

/-- After the abstention the teacher asks for help. -/
def helpQuestion : ConversationService.Question where
  conversationId := .ofNat 20
  question := "Ayuda"
  key := some "help"
  correlationId := "help"

/-- The follow-up is accepted. -/
def helpAccepted : AcceptedMessage × Dialogue :=
  valueOf (ConversationService.accept serviceSettings sampleHost sampleFaculty sampleActivated
    sampleTeacher helpQuestion actionReadings firstAbstained) (by decide +kernel)

theorem helpAccepted_ok :
    ConversationService.accept serviceSettings sampleHost sampleFaculty sampleActivated
      sampleTeacher helpQuestion actionReadings firstAbstained = .ok helpAccepted :=
  eq_ok_valueOf _

/-- The world in which the follow-up was accepted. -/
def helpWorld : World :=
  worldWith { dialogue := helpAccepted.2, posts := [helpAccepted.1], ledger := firstLedger }

theorem reachable_helpWorld : Reachable World.Initial SampleWorldStep helpWorld := by
  have captured := (reachable_firstAccepted.run run_firstAbstained).tail
    (@step_capturing _ _ { teacherConversation with nextSequence := 2 } (by decide +kernel))
  exact captured.tail
    (step_accepted rfl (by decide +kernel) (by decide +kernel) (by decide +kernel) helpAccepted_ok)

/-- The evidence that the published chunk is. -/
def stackEvidence : Evidence where
  chunkId := .ofNat 10
  courseId := .ofNat 2
  corpusVersionId := .ofNat 9
  documentVersionId := .ofNat 4
  documentTitle := "stacks"
  documentSha256 := some sampleHash
  pageStart := 1
  pageEnd := 1
  fragment := "chunk-0"
  content := "A stack is last in, first out."
  contentHash := "chunk"

def stackDraft : TutorDraft where
  mode := .explanation
  answer := "The item added last leaves first."
  citations := [{ chunkId := .ofNat 10, quote := "last in, first out" }]
  grounded := true

/-- The tables after the first question was answered from the evidence. -/
def firstAnswered : Dialogue :=
  valueOf (saveEvidence sampleFaculty sampleActivated firstAccepted.1.message.id [stackEvidence] 2
    firstAccepted.2 >>= complete sampleFaculty sampleActivated firstAccepted.1.message.id stackDraft
      3 4) (by decide +kernel)

def answeredLedger : Ledger where
  retrievals := [(firstAccepted.1.message.id, [stackEvidence])]
  generations := [(firstAccepted.1, { firstRequest with evidence := [stackEvidence] })]
  validations := [(firstAccepted.1.message.id, stackDraft)]

/-- The draft needs no repair. -/
theorem settled_stackDraft :
    Settled hostData { firstRequest with evidence := [stackEvidence] } stackDraft where
  checked := by decide +kernel
  contract := nofun
  proper :=
    { distinct := List.nodup_singleton _
      inScope := by decide +kernel }
  answers := nofun
  evidence := List.cons_ne_nil _ _
  grounded := rfl
  cited := List.cons_ne_nil _ _
  visible := by decide +kernel
  passes := List.forall_mem_singleton.mpr
    { chunk_eq := rfl
      checked := by decide +kernel
      visible := by decide +kernel
      quoted := ⟨stackEvidence, rfl, by decide +kernel⟩ }
  distinct := by decide +kernel
  derived := nofun

/-- Retrieval finds the chunk, and the model answers from it. -/
theorem run_answered {draft : TutorDraft} {answered : Dialogue}
    (settled : Settled hostData { firstRequest with evidence := [stackEvidence] } draft)
    (ok : (saveEvidence sampleFaculty sampleActivated firstAccepted.1.message.id [stackEvidence] 2
      firstAccepted.2 >>= complete sampleFaculty sampleActivated firstAccepted.1.message.id draft
        3 4) = .ok answered) :
    Relation.ReflTransGen SampleWorldStep
      (worldWith { dialogue := firstAccepted.2, posts := [firstAccepted.1] })
      (worldWith
        { dialogue := answered
          ledger :=
            { answeredLedger with validations := [(firstAccepted.1.message.id, draft)] } }) := by
  obtain ⟨saved, savedOk, completedOk⟩ := bind_eq_ok.mp ok
  have started : Relation.ReflTransGen SampleWorldStep
      (worldWith { dialogue := firstAccepted.2, posts := [firstAccepted.1] })
      (worldWith (turnOf firstAccepted.1 firstAccepted.2 {} .started)) :=
    .single (step_started (by decide +kernel))
  have retrieving := started.tail
    (step_turn (.retrieve firstRequest (eq_ok_valueOf _) (by decide +kernel)))
  have retrieved := retrieving.tail (step_turn (.retrieved firstRequest [stackEvidence]))
  have saves := retrieved.tail (step_turn (.save firstRequest _ 2 saved savedOk))
  have generating := saves.tail (step_turn (.generate _ (List.cons_ne_nil _ _)))
  have drafted := generating.tail (step_turn (.generated _ (some draft.dump)))
  have passed := drafted.tail
    (step_turn (.validate _ _ draft (validate_of_settled settled)))
  exact passed.tail (step_ended (.complete draft 3 4 answered completedOk))

theorem run_firstAnswered :
    Relation.ReflTransGen SampleWorldStep
      (worldWith { dialogue := firstAccepted.2, posts := [firstAccepted.1] })
      (worldWith { dialogue := firstAnswered, ledger := answeredLedger }) :=
  run_answered settled_stackDraft (eq_ok_valueOf _)

/-- The follow-up on the answer is accepted. -/
def followAccepted : AcceptedMessage × Dialogue :=
  valueOf (ConversationService.accept serviceSettings sampleHost sampleFaculty sampleActivated
    sampleTeacher helpQuestion actionReadings firstAnswered) (by decide +kernel)

theorem followAccepted_ok :
    ConversationService.accept serviceSettings sampleHost sampleFaculty sampleActivated
      sampleTeacher helpQuestion actionReadings firstAnswered = .ok followAccepted :=
  eq_ok_valueOf _

def followRequest : TutorRequest :=
  valueOf (ConversationService.request followAccepted.1 [] followAccepted.2) (by decide +kernel)

/-- What the follow-up is accepted as. -/
theorem followAccepted_spec :
    ({ teacherConversation with nextSequence := 2 } ∈ firstAnswered.conversations ∧
      followAccepted.1.message.courseId = .ofNat 2 ∧ followAccepted.1.created = true) ∧
    (followRequest.needsAntecedent = false ∧ followRequest.query = "What is a stack?" ∧
      followRequest.scope.messageId = .ofNat 22) ∧
    ∀ row ∈ followAccepted.2.messages,
      row.kind ≠ .action ∧ (row.id = .ofNat 22 → row.kind ≠ .question) := by
  decide +kernel

/-- The world in which the retriever is called for the follow-up. -/
def followRetrieving : World :=
  worldWith (turnOf followAccepted.1 followAccepted.2 answeredLedger (.retrieving followRequest))

theorem reachable_followRetrieving : Reachable World.Initial SampleWorldStep followRetrieving := by
  obtain ⟨⟨known, course, created⟩, ⟨complete, _, _⟩, _⟩ := followAccepted_spec
  have read : actionReadings.corpusId = captureCorpus sampleActivated (.ofNat 2) := by decide +kernel
  have captured := (reachable_firstAccepted.run run_firstAnswered).tail (step_capturing known)
  have accepted := captured.tail (step_accepted rfl read course created followAccepted_ok)
  have started := accepted.tail (step_started created)
  exact started.tail
    (step_turn (.retrieve followRequest (eq_ok_valueOf _) complete))

/-- An abstention is no antecedent of the follow-up on it, which will be clarified;
the follow-up on an answer is retrieved for with the question that was answered. -/
theorem resolves_antecedents_of_sample :
    (helpAccepted.2.messages.map (fun row => (row.kind, row.retrievalQuery)) =
        [(.question, none), (.followup, none)] ∧
      helpWorld.tutor.ResolvesAntecedents) ∧
    followRequest.query = "What is a stack?" ∧
      ∃ row ∈ followRetrieving.tutor.dialogue.messages, row.id = .ofNat 22 ∧
        followRetrieving.tutor.dialogue.Resolves row "What is a stack?" := by
  obtain ⟨_, ⟨_, isQuery, isScope⟩, kinds⟩ := followAccepted_spec
  have chained := resolves_antecedents
    (answering_of_run reachable_followRetrieving fun row known => (kinds row known).1)
  obtain ⟨row, known, _, sameId, _, resolves⟩ :=
    chained.asks _ (List.mem_singleton_self _) followRequest rfl
  have isRow := sameId.trans isScope
  exact ⟨⟨by decide +kernel,
      resolves_antecedents (answering_of_run reachable_helpWorld (by decide +kernel))⟩,
    isQuery, row, known, isRow, isQuery ▸ resolves ((kinds row known).2 isRow)⟩

def hintRequest : TutorRequest :=
  valueOf (ConversationService.request hintAccepted.1 [] hintAccepted.2) (by decide +kernel)

/-- The world in which the retriever is called for the hint. -/
def hintRetrieving : World :=
  worldWith (turnOf hintAccepted.1 hintAccepted.2 firstLedger (.retrieving hintRequest))

theorem reachable_hintRetrieving : Reachable World.Initial SampleWorldStep hintRetrieving := by
  have started := (reachable_of_asked asked_hintAction).tail (step_started (by decide +kernel))
  exact started.tail
    (step_turn (.retrieve hintRequest (eq_ok_valueOf _) (by decide +kernel)))

/-- A hint on the abstention is retrieved for, although the abstention is no
antecedent. -/
theorem not_resolvesAntecedents_hint :
    Reachable World.Initial SampleWorldStep hintRetrieving ∧
      ¬ hintRetrieving.tutor.ResolvesAntecedents := by
  refine ⟨reachable_hintRetrieving, fun promised => ?_⟩
  rcases promised.asks _ (List.mem_singleton_self _) hintRequest rfl with
    ⟨row, known, sameId, _, _, resolves⟩
  have kinds : ∀ row ∈ hintAccepted.2.messages, row.id = hintAccepted.1.message.id →
      row.kind ≠ .question := by decide +kernel
  have abstained : ∀ row ∈ hintAccepted.2.messages, row.state = .completed →
      row.mode = some .abstain := by decide +kernel
  rcases (resolves (kinds row known sameId)).exists_antecedent with ⟨earlier, antecedent, answers⟩
  exact answers.notAbstained (abstained earlier antecedent.known antecedent.completed)

end Sample

end Docta
