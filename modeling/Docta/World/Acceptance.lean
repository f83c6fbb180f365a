/-
Module: Docta.World.Acceptance
Purpose: What a repeated Idempotency-Key does. The routes that ask and act, the
  request a stored message was accepted for, and the answer to a later request
  under the same key: it compares the question's text alone, where the promise
  compares the whole turn.
Trusted boundary: none
Main exports: performAction, World.Asked, accept_repeated,
  RepeatsAsPromised, repeats_as_promised_iff
-/
import Docta.Conversation.Expiry
import Docta.World.Publication

namespace Docta

open Table Fallible Transition ConversationService

/-! ### Routes -/

/-- The body of a question turn. -/
structure QuestionRequest where
  question : String
  kind : Kind := .question
  intent : Option Intent := none
  parentMessageId : Option UUID := none
deriving DecidableEq, Repr

/-- What the validators of the body check. -/
structure QuestionRequest.Valid (payload : QuestionRequest) : Prop where
  length : 1 ≤ payload.question.length ∧ payload.question.length ≤ 4000
  notBlank : Text.isBlank payload.question = false
  parent : payload.kind = .action ↔ payload.parentMessageId ≠ none

instance (payload : QuestionRequest) : Decidable payload.Valid :=
  decidable_of_iff
    ((1 ≤ payload.question.length ∧ payload.question.length ≤ 4000) ∧
      Text.isBlank payload.question = false ∧
      (payload.kind = .action ↔ payload.parentMessageId ≠ none))
    ⟨fun ⟨length, notBlank, parent⟩ => ⟨length, notBlank, parent⟩,
      fun ⟨length, notBlank, parent⟩ => ⟨length, notBlank, parent⟩⟩

/-- The actions of the route. -/
inductive TurnAction where
  | anotherHint
  | explain
deriving DecidableEq, Repr

/-- The intent an action is stored with. -/
def TurnAction.intent : TurnAction → Intent
  | .anotherHint => .anotherHint
  | .explain => .explain

/-- The body of an action turn. -/
structure ActionRequest where
  action : TurnAction
  parentMessageId : UUID
  question : Option String := none
deriving DecidableEq, Repr

/-- `payload.question or ("Otra pista" if … else "Explícame eso")` -/
def ActionRequest.questionText (payload : ActionRequest) : String :=
  match payload.question with
  | some text => if text = "" then defaultText else text
  | none => defaultText
where
  /-- The text of an action sent without one. -/
  defaultText : String :=
    match payload.action with
    | .anotherHint => "Otra pista"
    | .explain => "Explícame eso"

/-- The acceptance `ask_question` asks for. -/
def askQuestion (conversationId : UUID) (payload : QuestionRequest) (key : Option String)
    (correlationId : String) : Except Failure Question := do
  failIf (¬ payload.Valid) (.validation "QuestionRequest")
  return { conversationId, question := payload.question, key, correlationId
           kind := payload.kind, intent := payload.intent
           parentMessageId := payload.parentMessageId }

/-- The acceptance `perform_action` asks for. -/
def performAction (conversationId : UUID) (payload : ActionRequest) (key : Option String)
    (correlationId : String) : Except Failure Question :=
  askQuestion conversationId
    { question := payload.questionText
      kind := .action
      intent := some payload.action.intent
      parentMessageId := some payload.parentMessageId }
    key correlationId

/-! ### Asking twice -/

/-- The key a request is stored under. -/
def ConversationService.Question.storedKey (request : Question) : Except Failure String :=
  idempotencyKey request.key

/-- Two requests for the same turn: text, kind, intent and parent agree. -/
structure ConversationService.Question.SameTurn (first second : Question) : Prop where
  question : second.question = first.question
  kind : second.kind = first.kind
  intent : second.intent = first.intent
  parentMessageId : second.parentMessageId = first.parentMessageId

section Worlds

variable {deployment : Deployment} {data : ValidatorData}

/-- The step is the creating acceptance of the request. -/
def World.Accepts (data : ValidatorData) (before after : World) (request : Question)
    (accepted : AcceptedMessage) : Prop :=
  ∃ settings who readings,
    ConversationService.accept settings data.unicode before.identity before.backend.material who
      request readings before.tutor.dialogue = .ok (accepted, after.tutor.dialogue) ∧
    accepted.created = true

/-- The message was created, at some moment of a run to this world, by the
acceptance of the request. -/
def World.Asked (deployment : Deployment) (data : ValidatorData) (world : World)
    (request : Question) (messageId : UUID) : Prop :=
  ∃ before after accepted, Reachable World.Initial (World.Step deployment data) before ∧
    World.Step deployment data before after ∧ World.Accepts data before after request accepted ∧
    accepted.message.id = messageId ∧
    Relation.ReflTransGen (World.Step deployment data) after world

/-- What a stored message keeps of the request it was created for. -/
structure Message.AskedBy (message : Message) (request : Question) : Prop where
  conversationId : message.conversationId = request.conversationId
  question : message.question = request.question
  idempotencyKey : request.storedKey = .ok message.idempotencyKey

theorem Message.AskedBy.of_same {first second : Message} {request : Question}
    (asked : first.AskedBy request) (same : second.accepted = first.accepted) :
    second.AskedBy request where
  conversationId := by
    rw [Message.column_eq same (·.conversationId) fun _ => rfl, asked.conversationId]
  question := by rw [Message.column_eq same (·.question) fun _ => rfl, asked.question]
  idempotencyKey := by
    rw [Message.column_eq same (·.idempotencyKey) fun _ => rfl, asked.idempotencyKey]

/-- A creating acceptance stores its request. -/
theorem askedBy_of_accept {settings : Settings} {unicode : Text.UnicodeData} {tables : Identity}
    {material : Material} {who : AuthenticatedIdentity} {request : Question} {readings : Readings}
    {accepted : AcceptedMessage} {before after : Dialogue} (created : accepted.created = true)
    (ok : ConversationService.accept settings unicode tables material who request readings before =
      .ok (accepted, after)) :
    ∃ message ∈ after.messages, message.id = accepted.message.id ∧ message.AskedBy request := by
  simp only [ConversationService.accept, bind_eq_ok] at ok
  rcases ok with ⟨key, isKey, conversation, found, rest⟩
  split at rest
  · simp only [bind_eq_ok, pure_eq_ok, Prod.mk.injEq] at rest
    rcases rest with ⟨_, _, _, _, _, _, same, _⟩
    rw [← same] at created
    cases created
  · simp only [acceptNew, bind_eq_ok, pure_eq_ok, Dialogue.commit_eq_ok, Prod.mk.injEq] at rest
    rcases rest with ⟨_, _, turn, _, _, ⟨_, rfl⟩, shown, shownOk, rfl, rfl⟩
    refine ⟨_, List.mem_append_right _ (List.mem_singleton_self _), ?_, ?_⟩
    · exact (view_eq_ok shownOk).1.symm
    · exact ⟨(owned_eq_ok found).2, rfl, isKey⟩

/-- The message of an asked request is stored, with that request. -/
theorem exists_askedBy {world : World} {request : Question} {messageId : UUID}
    (asked : world.Asked deployment data request messageId) :
    ∃ message ∈ world.tutor.dialogue.messages, message.id = messageId ∧
      message.AskedBy request := by
  rcases asked with ⟨before, after, accepted, reachable, step, accepts, idEq, run⟩
  rcases accepts with ⟨settings, who, readings, ok, created⟩
  rcases askedBy_of_accept created ok with ⟨message, known, sameId, stored⟩
  have sound := sound_of_worldStep (sound_of_world reachable) step
  rcases (worldAdvances_of_run sound run).2.messages message known with ⟨later, laterKnown, advances⟩
  refine ⟨later, laterKnown, ?_, stored.of_same advances.sameRequest⟩
  rw [advances.id_eq, sameId, idEq]

theorem reachable_of_asked {world : World} {request : Question} {messageId : UUID}
    (asked : world.Asked deployment data request messageId) :
    Reachable World.Initial (World.Step deployment data) world := by
  rcases asked with ⟨before, after, accepted, reachable, step, _, _, run⟩
  exact (reachable.tail step).run run

end Worlds

/-! ### The answer under a used key -/

/-- What the service answers under a used key to a request with other text. -/
def keyReused : Failure :=
  .api 409 "idempotency_key_reused" "The key has already been used for a different question."

/-- The answer that shows the stored message and creates none; the tables are
only relieved of overdue messages. -/
def AnswersWith (dialogue : Dialogue) (request : Question) (readings : Readings)
    (messageId ownerUserId : UUID) (answer : Except Failure (AcceptedMessage × Dialogue)) : Prop :=
  ∃ expired message shown,
    expired = expire readings.expiryClock readings.completedClock (some request.conversationId)
      dialogue ∧
    message ∈ expired.messages ∧ message.id = messageId ∧
    view expired message = .ok shown ∧
    answer = .ok ({ message := shown, created := false, ownerUserId
                    correlationId := message.correlationId }, expired)

section Repeated

variable {settings : Settings} {unicode : Text.UnicodeData} {tables : Identity}
  {material : Material} {who : AuthenticatedIdentity} {first second : Question}
  {readings : Readings} {dialogue : Dialogue} {conversation : Conversation} {message : Message}

/-- The row a used key finds after the expiry. -/
theorem find_askedBy (keys : dialogue.Keys) (known : message ∈ dialogue.messages)
    (asked : message.AskedBy first) (sameConversation : second.conversationId = first.conversationId)
    (clock completed : Clock) :
    ∃ existing ∈ (expire clock completed (some second.conversationId) dialogue).messages,
      existing.accepted = message.accepted ∧
      (expire clock completed (some second.conversationId) dialogue).messages.find?
        (fun row => row.conversationId == second.conversationId &&
          row.idempotencyKey == message.idempotencyKey) = some existing := by
  rcases exists_expire clock completed (some second.conversationId) known with
    ⟨existing, existingKnown, same⟩
  refine ⟨existing, existingKnown, same, ?_⟩
  have unique := (keys_expire keys clock completed (some second.conversationId)).messageIdempotency
  have found := unique.find?_eq_some existingKnown
  rw [← found]
  congr 1
  funext row
  rw [Message.column_eq same (·.conversationId) fun _ => rfl,
    Message.column_eq same (·.idempotencyKey) fun _ => rfl, asked.conversationId, sameConversation,
    Bool.eq_iff_iff, Bool.and_eq_true, beq_iff_eq, beq_iff_eq, decide_eq_true_iff, Prod.mk.injEq]

/-- Under a used key the text decides: the same text is answered by the stored
message, another one is refused. -/
theorem accept_repeated (constraints : dialogue.Constraints tables material)
    (known : message ∈ dialogue.messages) (asked : message.AskedBy first)
    (sameConversation : second.conversationId = first.conversationId)
    (sameKey : second.storedKey = first.storedKey)
    (authorized : owned tables dialogue who second.conversationId = .ok conversation) :
    (second.question = first.question →
      AnswersWith dialogue second readings message.id conversation.ownerUserId
        (accept settings unicode tables material who second readings dialogue)) ∧
    (second.question ≠ first.question →
      accept settings unicode tables material who second readings dialogue = .error keyReused) := by
  rcases find_askedBy constraints.1 known asked sameConversation readings.expiryClock
    readings.completedClock with ⟨existing, existingKnown, same, found⟩
  have isKey : idempotencyKey second.key = .ok message.idempotencyKey :=
    sameKey.trans asked.idempotencyKey
  have text : existing.question = first.question := (asked.of_same same).question
  have stored := constraints_expire constraints readings.expiryClock readings.completedClock
    (some second.conversationId)
  rcases exists_view (expire readings.expiryClock readings.completedClock
    (some second.conversationId) dialogue) (stored.1.messageChecks existing existingKnown) with
    ⟨shown, shownOk⟩
  refine ⟨fun sameText => ?_, fun otherText => ?_⟩
  · refine ⟨_, existing, shown, rfl, existingKnown, ?_, shownOk, ?_⟩
    · exact Message.column_eq same (·.id) fun _ => rfl
    · have agrees : ¬ existing.question ≠ second.question := fun differs =>
        differs (text.trans sameText.symm)
      have committed := Dialogue.commit_eq_ok.mpr ⟨stored, rfl⟩
      simp only [accept, isKey, authorized, found, failIf_of_not agrees, shownOk, committed,
        ok_bind]
      rfl
  · have differs : existing.question ≠ second.question := fun agrees =>
      otherText (agrees.symm.trans text)
    simp only [accept, isKey, authorized, found, ok_bind, failIf, if_pos differs]
    rfl

end Repeated

/-! ### The promise -/

/-- The promise for the second of two requests under one key: the same turn is
answered by its message, another turn is refused. -/
def RepeatsAsPromised (dialogue : Dialogue) (first second : Question) (readings : Readings)
    (messageId ownerUserId : UUID) (answer : Except Failure (AcceptedMessage × Dialogue)) : Prop :=
  (first.SameTurn second → AnswersWith dialogue second readings messageId ownerUserId answer) ∧
    (¬ first.SameTurn second → answer = .error keyReused)

/-- The promise is kept exactly when requests with the same text also agree on
kind, intent and parent. -/
theorem repeats_as_promised_iff {deployment : Deployment} {data : ValidatorData} {world : World}
    {settings : Settings} {who : AuthenticatedIdentity} {first second : Question}
    {readings : Readings} {messageId : UUID} {conversation : Conversation}
    (asked : world.Asked deployment data first messageId)
    (sameConversation : second.conversationId = first.conversationId)
    (sameKey : second.storedKey = first.storedKey)
    (authorized : owned world.identity world.tutor.dialogue who second.conversationId =
      .ok conversation) :
    RepeatsAsPromised world.tutor.dialogue first second readings messageId conversation.ownerUserId
        (accept settings data.unicode world.identity world.backend.material who second readings
          world.tutor.dialogue) ↔
      (second.question = first.question → first.SameTurn second) := by
  have sound := sound_of_world (reachable_of_asked asked)
  rcases exists_askedBy asked with ⟨message, known, idEq, stored⟩
  have constraints : world.tutor.dialogue.Constraints world.identity world.backend.material :=
    ⟨sound.tutor.orderly.keys, sound.references⟩
  have answered := @accept_repeated settings data.unicode _ _ who _ _ readings _ _ _ constraints
    known stored sameConversation sameKey authorized
  rw [idEq] at answered
  refine ⟨fun promised sameText => ?_, fun agrees => ⟨fun same => ?_, fun different => ?_⟩⟩
  · by_contra different
    rcases answered.1 sameText with ⟨_, _, _, _, _, _, _, isOk⟩
    rw [promised.2 different] at isOk
    cases isOk
  · exact answered.1 same.question
  · exact answered.2 fun sameText => different (agrees sameText)

/-! ### An action sent twice -/

section Sample

/-- The request of the first question. -/
def firstRequest : TutorRequest :=
  valueOf (ConversationService.request firstAccepted.1 [] firstAccepted.2) (by decide +kernel)

/-- The tables after the first question was answered by the abstention. -/
def firstAbstained : Dialogue :=
  valueOf (ConversationService.complete sampleFaculty sampleActivated firstAccepted.1.message.id
    abstention 2 3 firstAccepted.2) (by decide +kernel)

/-- What the first turn leaves in the ledger. -/
def firstLedger : Ledger where
  retrievals := [(firstAccepted.1.message.id, [])]
  validations := [(firstAccepted.1.message.id, abstention)]

/-- The tutor with one task in a phase. -/
def turnOf (accepted : AcceptedMessage) (dialogue : Dialogue) (ledger : Ledger) (phase : Phase) :
    Tutor where
  dialogue := dialogue
  turns := [⟨accepted, phase⟩]
  ledger := ledger

section Turns

variable {accepted : AcceptedMessage} {dialogue next : Dialogue} {ledger later : Ledger}
  {phase after : Phase}

theorem step_started (created : accepted.created = true) :
    SampleWorldStep (worldWith { dialogue, posts := [accepted], ledger })
      (worldWith (turnOf accepted dialogue ledger .started)) :=
  .tutor _ _ (.start _ [] [] accepted rfl created)

theorem step_turn
    (advance : TurnStep hostData sampleFaculty sampleActivated accepted dialogue ledger phase
      { phase := some after, dialogue := next, ledger := later }) :
    SampleWorldStep (worldWith (turnOf accepted dialogue ledger phase))
      (worldWith (turnOf accepted next later after)) :=
  .tutor _ _ (.turn (turnOf accepted dialogue ledger phase) [] [] accepted phase _ rfl advance)

theorem step_ended
    (advance : TurnStep hostData sampleFaculty sampleActivated accepted dialogue ledger phase
      { phase := none, dialogue := next, ledger := later }) :
    SampleWorldStep (worldWith (turnOf accepted dialogue ledger phase))
      (worldWith { dialogue := next, ledger := later }) :=
  .tutor _ _ (.turn (turnOf accepted dialogue ledger phase) [] [] accepted phase _ rfl advance)

end Turns

/-- Retrieval finds nothing, and the first question ends in the abstention. -/
theorem run_firstAbstained :
    Relation.ReflTransGen SampleWorldStep
      (worldWith { dialogue := firstAccepted.2, posts := [firstAccepted.1] })
      (worldWith { dialogue := firstAbstained, ledger := firstLedger }) := by
  have read : TutorDraft.modelValidate hostData.intOfText abstention.dump = .ok abstention :=
    TutorDraft.modelValidate_dump _ (by decide +kernel) nofun
  have passes : EvidenceResponseValidator.validate hostData (some abstention.dump) firstRequest =
      .ok abstention := (validate_of_unstructured read rfl).trans rfl
  have started : Relation.ReflTransGen SampleWorldStep
      (worldWith { dialogue := firstAccepted.2, posts := [firstAccepted.1] })
      (worldWith (turnOf firstAccepted.1 firstAccepted.2 {} .started)) :=
    .single (step_started (by decide +kernel))
  have retrieving := started.tail
    (step_turn (.retrieve firstRequest (eq_ok_valueOf _) (by decide +kernel)))
  have answered := retrieving.tail (step_turn (.retrieved firstRequest []))
  have saved := answered.tail (step_turn (.save firstRequest [] 1 firstAccepted.2 (by rfl)))
  have abstained := saved.tail (step_turn (.abstain _ rfl))
  have validated := abstained.tail (step_turn (.validate _ _ abstention passes))
  exact validated.tail
    (step_ended (.complete abstention 2 3 firstAbstained (eq_ok_valueOf _)))

/-- A hint is asked for under one key. -/
def hintAction : Question :=
  valueOf (performAction (.ofNat 20)
    { action := .anotherHint, parentMessageId := .ofNat 21, question := some "Go on" }
    (some "act") "hint") (by decide +kernel)

/-- An explanation is asked for with the same text, under the same key. -/
def explainAction : Question :=
  valueOf (performAction (.ofNat 20)
    { action := .explain, parentMessageId := .ofNat 21, question := some "Go on" }
    (some "act") "explain") (by decide +kernel)

def actionReadings : Readings where
  expiryClock := fun _ => 4
  completedClock := fun _ => 4
  now := 4
  createdAt := 4
  messageId := .ofNat 22
  corpusId := some (.ofNat 9)

/-- The hint is accepted. -/
def hintAccepted : AcceptedMessage × Dialogue :=
  valueOf (ConversationService.accept serviceSettings sampleHost sampleFaculty sampleActivated
    sampleTeacher hintAction actionReadings firstAbstained) (by decide +kernel)

theorem hintAccepted_ok :
    ConversationService.accept serviceSettings sampleHost sampleFaculty sampleActivated
      sampleTeacher hintAction actionReadings firstAbstained =
        .ok (hintAccepted.1, hintAccepted.2) :=
  show _ = Except.ok hintAccepted from eq_ok_valueOf _

/-- The world in which the hint was accepted. -/
def hintWorld : World :=
  worldWith { dialogue := hintAccepted.2, posts := [hintAccepted.1], ledger := firstLedger }

theorem asked_hintAction : hintWorld.Asked sampleDeployment hostData hintAction (.ofNat 22) := by
  have captured := (reachable_firstAccepted.run run_firstAbstained).tail
    (@step_capturing _ _ { teacherConversation with nextSequence := 2 } (by decide +kernel))
  exact ⟨_, hintWorld, hintAccepted.1, captured,
    step_accepted rfl (by decide +kernel) (by decide +kernel) (by decide +kernel) hintAccepted_ok,
    ⟨serviceSettings, sampleTeacher, actionReadings, hintAccepted_ok, by decide +kernel⟩,
    by decide +kernel, .refl⟩

/-- The conversation, as the owner finds it. -/
def hintConversation : Conversation :=
  valueOf (owned sampleFaculty hintAccepted.2 sampleTeacher (.ofNat 20)) (by decide +kernel)

/-- The hint asked for again is answered by its message. -/
theorem repeats_as_promised_of_sample :
    RepeatsAsPromised hintAccepted.2 hintAction hintAction actionReadings (.ofNat 22)
      hintConversation.ownerUserId
      (accept serviceSettings sampleHost sampleFaculty sampleActivated sampleTeacher hintAction
        actionReadings hintAccepted.2) :=
  (repeats_as_promised_iff asked_hintAction rfl rfl (eq_ok_valueOf _)).mpr
    fun _ => ⟨rfl, rfl, rfl, rfl⟩

/-- The explanation asked for under the key of the hint is answered by the hint. -/
theorem not_repeatsAsPromised_otherAction :
    hintWorld.Asked sampleDeployment hostData hintAction (.ofNat 22) ∧
      explainAction.storedKey = hintAction.storedKey ∧
      ¬ RepeatsAsPromised hintAccepted.2 hintAction explainAction actionReadings (.ofNat 22)
        hintConversation.ownerUserId
        (accept serviceSettings sampleHost sampleFaculty sampleActivated sampleTeacher explainAction
          actionReadings hintAccepted.2) := by
  refine ⟨asked_hintAction, rfl, fun promised => ?_⟩
  have other : ¬ hintAction.SameTurn explainAction := fun same =>
    absurd same.intent (by decide +kernel)
  have answered : (accept serviceSettings sampleHost sampleFaculty sampleActivated sampleTeacher
      explainAction actionReadings hintAccepted.2).toOption.isSome = true := by decide +kernel
  rw [promised.2 other] at answered
  cases answered

end Sample

end Docta
