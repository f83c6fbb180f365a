/-
Module: Docta.Conversation.Runtime
Purpose: The API processes that drive turns. An accepted message is handed to
  an in-process task; the task requests, retrieves, saves evidence, generates,
  validates and completes, and may be interrupted at every await, leaving its
  database call running in a worker thread.
Trusted boundary: the retriever and the model return anything; a task suspends
  only at the awaits of the source
Main exports: Phase, TurnStep, Tutor, Tutor.Step, serviceStep_of_step
-/
import Docta.Conversation.StateMachine
import Docta.Rag.Validator

namespace Docta

open Table Fallible Transition ConversationService

/-! ### Tasks -/

/-- Where a task of `ConversationRuntime._run` is suspended. -/
inductive Phase where
  /-- before `service.request` -/
  | started
  /-- in `retriever.retrieve` -/
  | retrieving (request : TutorRequest)
  /-- in `service.save_evidence` -/
  | retrieved (request : TutorRequest) (evidence : List Evidence)
  /-- evidence saved, the request replaced by the one that carries it -/
  | saved (request : TutorRequest)
  /-- in `model.generate` -/
  | generating (request : TutorRequest)
  /-- before `validator.validate` -/
  | drafted (draft : ModelDraft) (request : TutorRequest)
  /-- in `service.complete` -/
  | validated (draft : TutorDraft)
  /-- in `service.fail` -/
  | failing (code : String)

/-- A task with the acceptance it was started for. -/
structure Turn where
  accepted : AcceptedMessage
  phase : Phase

/-- The message of the task. -/
def Turn.messageId (turn : Turn) : UUID := turn.accepted.message.id

/-- A writing call left running in a worker thread after its task was
interrupted. -/
inductive Orphan where
  | saveEvidence (messageId : UUID) (evidence : List Evidence)
  | complete (messageId : UUID) (draft : TutorDraft)
  | fail (messageId : UUID) (code : String)

/-- The call a task may leave running when it is interrupted. -/
def Phase.orphans (messageId : UUID) : Phase → List Orphan
  | .retrieved _ evidence => [.saveEvidence messageId evidence]
  | .validated draft => [.complete messageId draft]
  | .failing code => [.fail messageId code]
  | _ => []

/-- An acceptance that has read which corpus is active and not yet committed; it
holds the lock on its conversation. -/
structure Capture where
  conversationId : UUID
  courseId : UUID
  corpusId : Option UUID
deriving DecidableEq, Repr

/-- What has happened so far; no process reads it. -/
structure Ledger where
  /-- what the retriever returned for each message -/
  retrievals : List (UUID × List Evidence) := []
  /-- every invocation of `model.generate`, with the turn's acceptance -/
  generations : List (AcceptedMessage × TutorRequest) := []
  /-- every draft the validator let pass, with its message -/
  validations : List (UUID × TutorDraft) := []

/-- What a task did between two awaits; without a phase it has ended. -/
structure Progress where
  phase : Option Phase
  dialogue : Dialogue
  ledger : Ledger
  orphans : List Orphan := []

section Steps

variable (data : ValidatorData) (tables : Identity) (material : Material)

/-- One task of `_run` going on to its next await. -/
inductive TurnStep (accepted : AcceptedMessage) (dialogue : Dialogue) (ledger : Ledger) :
    Phase → Progress → Prop where
  /-- The request needs an antecedent there is none of: clarify. -/
  | clarify (request : TutorRequest)
      (ok : ConversationService.request accepted [] dialogue = .ok request)
      (needs : request.needsAntecedent = true) :
      TurnStep accepted dialogue ledger .started
        { phase := some (.drafted (some clarification.dump) request), dialogue, ledger }
  /-- The request goes to the retriever. -/
  | retrieve (request : TutorRequest)
      (ok : ConversationService.request accepted [] dialogue = .ok request)
      (complete : request.needsAntecedent = false) :
      TurnStep accepted dialogue ledger .started
        { phase := some (.retrieving request), dialogue, ledger }
  /-- The retriever returns, whatever it returns. -/
  | retrieved (request : TutorRequest) (evidence : List Evidence) :
      TurnStep accepted dialogue ledger (.retrieving request)
        { phase := some (.retrieved request evidence), dialogue
          ledger :=
            { ledger with
              retrievals := ledger.retrievals ++ [(accepted.message.id, evidence)] } }
  /-- `save_evidence` commits; the request is replaced by one with the evidence. -/
  | save (request : TutorRequest) (evidence : List Evidence) (now : Time) (saved : Dialogue)
      (ok : ConversationService.saveEvidence tables material accepted.message.id evidence now
        dialogue = .ok saved) :
      TurnStep accepted dialogue ledger (.retrieved request evidence)
        { phase := some (.saved { request with evidence := evidence }), dialogue := saved, ledger }
  /-- There is evidence: the model is invoked. -/
  | generate (request : TutorRequest) (found : request.evidence ≠ []) :
      TurnStep accepted dialogue ledger (.saved request)
        { phase := some (.generating request), dialogue
          ledger :=
            { ledger with generations := ledger.generations ++ [(accepted, request)] } }
  /-- There is no evidence: the draft is the canonical abstention. -/
  | abstain (request : TutorRequest) (none : request.evidence = []) :
      TurnStep accepted dialogue ledger (.saved request)
        { phase := some (.drafted (some abstention.dump) request), dialogue, ledger }
  /-- The model returns, whatever it returns. -/
  | generated (request : TutorRequest) (draft : ModelDraft) :
      TurnStep accepted dialogue ledger (.generating request)
        { phase := some (.drafted draft request), dialogue, ledger }
  /-- The validator lets the draft pass. -/
  | validate (request : TutorRequest) (draft : ModelDraft) (validated : TutorDraft)
      (ok : EvidenceResponseValidator.validate data draft request = .ok validated) :
      TurnStep accepted dialogue ledger (.drafted draft request)
        { phase := some (.validated validated), dialogue
          ledger :=
            { ledger with
              validations := ledger.validations ++ [(accepted.message.id, validated)] } }
  /-- `complete` commits and the task ends. -/
  | complete (draft : TutorDraft) (now completedAt : Time) (completed : Dialogue)
      (ok : ConversationService.complete tables material accepted.message.id draft now completedAt
        dialogue = .ok completed) :
      TurnStep accepted dialogue ledger (.validated draft)
        { phase := none, dialogue := completed, ledger }
  /-- A timeout, a cancellation or an exception at any await; the call in
  progress may stay behind in its worker thread. -/
  | interrupt (phase : Phase) (code : String) (left : List Orphan)
      (behind : left = [] ∨ left = phase.orphans accepted.message.id) :
      TurnStep accepted dialogue ledger phase
        { phase := some (.failing code), dialogue, ledger, orphans := left }
  /-- `fail` commits and the task ends. -/
  | fail (code : String) (completedAt : Time) (failed : Dialogue)
      (ok : ConversationService.fail tables material accepted.message.id code completedAt
        dialogue = .ok failed) :
      TurnStep accepted dialogue ledger (.failing code)
        { phase := none, dialogue := failed, ledger }

/-- A call left running commits. -/
inductive OrphanStep (dialogue : Dialogue) : Orphan → Dialogue → Prop where
  | saveEvidence (messageId : UUID) (evidence : List Evidence) (now : Time) (saved : Dialogue)
      (ok : ConversationService.saveEvidence tables material messageId evidence now dialogue =
        .ok saved) :
      OrphanStep dialogue (.saveEvidence messageId evidence) saved
  | complete (messageId : UUID) (draft : TutorDraft) (now completedAt : Time)
      (completed : Dialogue)
      (ok : ConversationService.complete tables material messageId draft now completedAt
        dialogue = .ok completed) :
      OrphanStep dialogue (.complete messageId draft) completed
  | fail (messageId : UUID) (code : String) (completedAt : Time) (failed : Dialogue)
      (ok : ConversationService.fail tables material messageId code completedAt dialogue =
        .ok failed) :
      OrphanStep dialogue (.fail messageId code) failed

end Steps

/-! ### Processes -/

/-- The conversation tables with every running process. -/
structure Tutor where
  dialogue : Dialogue := {}
  /-- acceptances between their corpus query and their commit -/
  captures : List Capture := []
  /-- committed acceptances not yet handed to `runtime.start` -/
  posts : List AcceptedMessage := []
  turns : List Turn := []
  orphans : List Orphan := []
  ledger : Ledger := {}

/-- Before any process started. -/
def Tutor.Initial (tutor : Tutor) : Prop :=
  tutor = {}

/-- The call is one the routes and the reaper make beside the turns. -/
def Call.isBeside (tables : Identity) (material : Material) : Call → Prop
  | .create callTables callMaterial .. => callTables = tables ∧ callMaterial = material
  | .history callTables callMaterial .. => callTables = tables ∧ callMaterial = material
  | .read callTables callMaterial .. => callTables = tables ∧ callMaterial = material
  | .expire callTables callMaterial .. => callTables = tables ∧ callMaterial = material
  | _ => False

section Steps

variable (data : ValidatorData) (tables : Identity) (material : Material)

/-- One step of one process, with the identity and material tables it finds. -/
inductive Tutor.Step : Tutor → Tutor → Prop where
  /-- `accept` locks the conversation and reads which corpus of its course is
  active and ready. -/
  | capture (tutor : Tutor) (conversation : Conversation)
      (known : conversation ∈ tutor.dialogue.conversations)
      (unlocked : ∀ other ∈ tutor.captures, other.conversationId ≠ conversation.id) :
      Step tutor
        { tutor with
          captures := tutor.captures ++
            [⟨conversation.id, conversation.courseId,
              captureCorpus material conversation.courseId⟩] }
  /-- `accept` commits a new message with the corpus it read. -/
  | accept (tutor : Tutor) (settings : Settings) (who : AuthenticatedIdentity)
      (request : Question) (readings : Readings) (accepted : AcceptedMessage)
      (dialogue : Dialogue) (before after : List Capture) (capture : Capture)
      (captured : tutor.captures = before ++ capture :: after)
      (locked : request.conversationId = capture.conversationId)
      (read : readings.corpusId = capture.corpusId)
      (course : accepted.message.courseId = capture.courseId)
      (created : accepted.created = true)
      (ok : ConversationService.accept settings data.unicode tables material who request readings
        tutor.dialogue = .ok (accepted, dialogue)) :
      Step tutor
        { tutor with
          dialogue := dialogue
          captures := before ++ after
          posts := tutor.posts ++ [accepted] }
  /-- `accept` finds the key already used for the same question. -/
  | acceptAgain (tutor : Tutor) (settings : Settings) (who : AuthenticatedIdentity)
      (request : Question) (readings : Readings) (accepted : AcceptedMessage)
      (dialogue : Dialogue) (repeated : accepted.created = false)
      (ok : ConversationService.accept settings data.unicode tables material who request readings
        tutor.dialogue = .ok (accepted, dialogue)) :
      Step tutor { tutor with dialogue := dialogue, posts := tutor.posts ++ [accepted] }
  /-- `runtime.start` starts a task for a created message. -/
  | start (tutor : Tutor) (before after : List AcceptedMessage) (accepted : AcceptedMessage)
      (posted : tutor.posts = before ++ accepted :: after) (created : accepted.created = true) :
      Step tutor
        { tutor with
          posts := before ++ after
          turns := tutor.turns ++ [⟨accepted, .started⟩] }
  /-- `runtime.start` returns at once for a repeated acceptance. -/
  | startAgain (tutor : Tutor) (before after : List AcceptedMessage) (accepted : AcceptedMessage)
      (posted : tutor.posts = before ++ accepted :: after) (repeated : accepted.created = false) :
      Step tutor { tutor with posts := before ++ after }
  /-- A task goes on to its next await, or ends. -/
  | turn (tutor : Tutor) (before after : List Turn) (accepted : AcceptedMessage) (phase : Phase)
      (progress : Progress) (running : tutor.turns = before ++ ⟨accepted, phase⟩ :: after)
      (advance : TurnStep data tables material accepted tutor.dialogue tutor.ledger phase progress) :
      Step tutor
        { tutor with
          dialogue := progress.dialogue
          turns := before ++ (progress.phase.map (Turn.mk accepted)).toList ++ after
          orphans := tutor.orphans ++ progress.orphans
          ledger := progress.ledger }
  /-- A call left running commits. -/
  | orphan (tutor : Tutor) (before after : List Orphan) (left : Orphan) (dialogue : Dialogue)
      (running : tutor.orphans = before ++ left :: after)
      (commits : OrphanStep tables material tutor.dialogue left dialogue) :
      Step tutor { tutor with dialogue := dialogue, orphans := before ++ after }
  /-- Acceptances raise, processes die, shut down or lose their database, clients
  disconnect: some of what was running is gone. -/
  | crash (tutor : Tutor) (captures : List Capture) (posts : List AcceptedMessage)
      (turns : List Turn) (orphans : List Orphan) (fewerCaptures : captures.Sublist tutor.captures)
      (fewerPosts : posts.Sublist tutor.posts) (fewerTurns : turns.Sublist tutor.turns)
      (fewerOrphans : orphans.Sublist tutor.orphans) :
      Step tutor { tutor with captures, posts, turns, orphans }
  /-- A conversation is created or read, or the reaper expires messages. -/
  | beside (tutor : Tutor) (call : Call) (isBeside : call.isBeside tables material) :
      Step tutor { tutor with dialogue := call.run tutor.dialogue }

end Steps

/-! ### The tables only see service calls -/

section Simulation

variable {data : ValidatorData} {tables : Identity} {material : Material}

theorem serviceStep_of_result {before after : Dialogue} (call : Call)
    (ok : call.result before = .ok after) : ServiceStep before after :=
  ⟨call, by rw [Call.run, ok]⟩

theorem serviceStep_of_accept {settings : Settings} {who : AuthenticatedIdentity}
    {request : Question} {readings : Readings} {accepted : AcceptedMessage}
    {before after : Dialogue}
    (ok : ConversationService.accept settings data.unicode tables material who request readings
      before = .ok (accepted, after)) : ServiceStep before after :=
  serviceStep_of_result (.accept settings data.unicode tables material who request readings)
    (map_eq_ok.mpr ⟨_, ok, rfl⟩)

/-- A task going on leaves the tables alone or makes one service call. -/
theorem serviceStep_of_turn {accepted : AcceptedMessage} {dialogue : Dialogue} {ledger : Ledger}
    {phase : Phase} {progress : Progress}
    (advance : TurnStep data tables material accepted dialogue ledger phase progress) :
    progress.dialogue = dialogue ∨ ServiceStep dialogue progress.dialogue := by
  cases advance with
  | save request evidence now saved ok =>
      exact .inr (serviceStep_of_result (.saveEvidence tables material _ evidence now) ok)
  | complete draft now completedAt completed ok =>
      exact .inr (serviceStep_of_result (.complete tables material _ draft now completedAt) ok)
  | fail code completedAt failed ok =>
      exact .inr (serviceStep_of_result (.fail tables material _ code completedAt) ok)
  | _ => exact .inl rfl

theorem serviceStep_of_orphan {before after : Dialogue} {left : Orphan}
    (commits : OrphanStep tables material before left after) : ServiceStep before after := by
  cases commits with
  | saveEvidence messageId evidence now saved ok =>
      exact serviceStep_of_result (.saveEvidence tables material messageId evidence now) ok
  | complete messageId draft now completedAt completed ok =>
      exact serviceStep_of_result (.complete tables material messageId draft now completedAt) ok
  | fail messageId code completedAt failed ok =>
      exact serviceStep_of_result (.fail tables material messageId code completedAt) ok

/-- Every step of the processes leaves the tables alone or is one service call. -/
theorem serviceStep_of_step {before after : Tutor}
    (step : Tutor.Step data tables material before after) :
    after.dialogue = before.dialogue ∨ ServiceStep before.dialogue after.dialogue := by
  cases step with
  | accept settings who request readings accepted dialogue earlier later capture captured locked
      read course created ok => exact .inr (serviceStep_of_accept ok)
  | acceptAgain settings who request readings accepted dialogue repeated ok =>
      exact .inr (serviceStep_of_accept ok)
  | turn earlier later accepted phase progress running advance => exact serviceStep_of_turn advance
  | orphan earlier later left dialogue running commits =>
      exact .inr (serviceStep_of_orphan commits)
  | beside call isBeside => exact .inr ⟨call, rfl⟩
  | _ => exact .inl rfl

theorem orderly_of_tutorStep {before after : Tutor} (orderly : before.dialogue.Orderly)
    (step : Tutor.Step data tables material before after) : after.dialogue.Orderly := by
  rcases serviceStep_of_step step with unchanged | called
  · rw [unchanged]
    exact orderly
  · exact orderly_of_step orderly called

theorem advances_of_tutorStep {before after : Tutor} (orderly : before.dialogue.Orderly)
    (step : Tutor.Step data tables material before after) :
    before.dialogue.Advances after.dialogue := by
  rcases serviceStep_of_step step with unchanged | called
  · rw [unchanged]
    exact .refl before.dialogue
  · exact advances_of_step orderly called

end Simulation

end Docta
