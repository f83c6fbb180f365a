/-
Module: Docta.World.Window
Purpose: The history a turn is answered with: the longest run of completed
  turns just before it that keeps to six turns and twelve thousand characters.
Trusted boundary: none
Main exports: Message.turn, Message.turnSize, PrecedingTurns, HistoryWindow,
  Dialogue.WithinLimits, withinLimits_of_reachable, history_window
-/
import Docta.Conversation.Antecedents
import Docta.Library.Budget
import Docta.World.Acceptance

namespace Docta

open Table Fallible Transition ConversationService Budget

/-! ### Turns and their sizes -/

/-- What the history says of a completed message. -/
def Message.turn (message : Message) : HistoryTurn where
  question := message.question
  answer := message.answer.getD ""
  situation := message.situation
  helpLevel := message.helpLevel.getD 0

/-- The characters of a turn: those of its question and of its answer. -/
def Message.turnSize (message : Message) : Nat :=
  message.question.length + (message.answer.getD "").length

/-- The loop of `request` takes turns while they fit. -/
theorem historyTurns_eq (remaining : Nat) (messages : List Message) :
    historyTurns remaining messages =
      (fitting Message.turnSize remaining messages).map Message.turn := by
  induction messages generalizing remaining with
  | nil => rfl
  | cons previous rest ih =>
      have taken : historyTurns remaining (previous :: rest) =
          if remaining < previous.turnSize then []
          else previous.turn :: historyTurns (remaining - previous.turnSize) rest := rfl
      rw [taken, fitting]
      by_cases full : remaining < previous.turnSize
      · rw [if_pos full, if_pos full, List.map_nil]
      · rw [if_neg full, if_neg full, List.map_cons, ih]

/-- The history of a request. -/
theorem history_of_request {accepted : AcceptedMessage} {evidence : List Evidence}
    {dialogue : Dialogue} {request : TutorRequest}
    (ok : ConversationService.request accepted evidence dialogue = .ok request) :
    request.history = (historyTurns 12000
      ((completedBefore dialogue accepted.message.conversationId
        accepted.message.sequence).take 6)).reverse := by
  unfold ConversationService.request at ok
  split at ok
  · cases ok
  · split at ok
    · cases ok
    · cases ok
      rfl

/-! ### The window -/

/-- The acceptance is of this stored message. -/
structure AcceptedMessage.Of (accepted : AcceptedMessage) (row : Message) : Prop where
  id : accepted.message.id = row.id
  conversationId : accepted.message.conversationId = row.conversationId
  sequence : accepted.message.sequence = row.sequence

/-- The completed messages of the conversation before a message, oldest first. -/
structure PrecedingTurns (dialogue : Dialogue) (row : Message) (earlier : List Message) :
    Prop where
  chronological : earlier.Pairwise (·.sequence < ·.sequence)
  exactly : ∀ message, message ∈ earlier ↔
    message ∈ dialogue.messages ∧ message.conversationId = row.conversationId ∧
      message.sequence < row.sequence ∧ message.state = .completed

/-- The longest suffix of at most 6 turns and at most 12000 characters. -/
structure HistoryWindow (earlier window : List Message) : Prop where
  suffix : window <:+ earlier
  turns : window.length ≤ 6
  characters : total Message.turnSize window ≤ 12000
  longest : ∀ other, other <:+ earlier → other.length ≤ 6 →
    total Message.turnSize other ≤ 12000 → other <:+ window

/-- The completed messages before a sequence, oldest first. -/
theorem precedingTurns_reverse {dialogue : Dialogue}
    (numbered : UniqueOn (fun row => (row.conversationId, row.sequence)) dialogue.messages)
    (row : Message) :
    PrecedingTurns dialogue row
      (completedBefore dialogue row.conversationId row.sequence).reverse where
  chronological := by
    have sorted : (completedBefore dialogue row.conversationId row.sequence).Pairwise newestFirst :=
      List.pairwise_insertionSort newestFirst _
    have distinct : (completedBefore dialogue row.conversationId row.sequence).Nodup := by
      rw [completedBefore, (List.perm_insertionSort newestFirst _).nodup_iff]
      exact (List.Nodup.of_map _ numbered).filter _
    rw [List.pairwise_reverse]
    apply (sorted.and distinct).imp_of_mem
    rintro later message laterMember member ⟨order, different⟩
    apply Nat.lt_of_le_of_ne order
    intro same
    obtain ⟨known, own, _⟩ := mem_completedBefore.mp member
    obtain ⟨laterKnown, laterOwn, _⟩ := mem_completedBefore.mp laterMember
    exact different (numbered.eq_of_key laterKnown known
      (Prod.ext (laterOwn.trans own.symm) same.symm))
  exactly := fun message => by rw [List.mem_reverse, mem_completedBefore]

/-- The turns that fit, oldest first, are the longest suffix within the limits. -/
theorem historyWindow_fitting (newest : List Message) :
    HistoryWindow newest.reverse (fitting Message.turnSize 12000 (newest.take 6)).reverse where
  suffix := by
    rw [List.reverse_suffix]
    exact (fitting_isPrefix _ _).trans (List.take_prefix 6 newest)
  turns := by
    rw [List.length_reverse]
    exact (fitting_isPrefix _ _).length_le.trans (List.length_take_le 6 newest)
  characters := by
    rw [total_reverse]
    exact total_fitting_le _ _
  longest := by
    intro other isSuffix short fits
    rw [← List.reverse_prefix, List.reverse_reverse] at isSuffix ⊢
    rw [← total_reverse] at fits
    apply prefix_fitting _ fits
    rw [List.prefix_take_iff, List.length_reverse]
    exact ⟨isSuffix, short⟩

/-! ### The limits of a turn -/

/-- A question and an answer as their own classes bound them. -/
structure Message.WithinLimits (message : Message) : Prop where
  question : message.question.length ≤ 4000
  answer : ∀ answer ∈ message.answer, answer.length ≤ 6000

/-- One turn always fits. -/
theorem Message.WithinLimits.turnSize_le {message : Message} (limits : message.WithinLimits) :
    message.turnSize ≤ 12000 := by
  have question := limits.question
  have answer : (message.answer.getD "").length ≤ 6000 := by
    cases stored : message.answer with
    | none => exact Nat.zero_le _
    | some text => exact limits.answer text stored
  rw [Message.turnSize]
  omega

/-- Every stored message keeps to the limits. -/
def Dialogue.WithinLimits (dialogue : Dialogue) : Prop :=
  ∀ message ∈ dialogue.messages, message.WithinLimits

/-- A call whose question passed its request body's checks, or whose draft passed
its own. -/
def Call.Admitted : Call → Prop
  | .accept _ _ _ _ _ request _ =>
      ∃ payload key correlationId, askQuestion request.conversationId payload key correlationId =
        .ok request
  | .complete _ _ _ draft _ _ => draft.check = .ok ()
  | _ => True

/-- One admitted call by any process. -/
def AdmittedStep (before after : Dialogue) : Prop :=
  ∃ call : Call, call.Admitted ∧ after = call.run before

/-- An update that leaves questions and answers as they are. -/
theorem withinLimits_updateWhere {messages : List Message} {condition : Message → Bool}
    {assign : Message → Message}
    (kept : ∀ message, (assign message).question = message.question ∧
      (assign message).answer = message.answer)
    (limits : ∀ message ∈ messages, message.WithinLimits) :
    ∀ message ∈ updateWhere messages condition assign, message.WithinLimits := by
  intro message member
  rcases mem_updateWhere_cases member with ⟨known, _⟩ | ⟨source, known, _, rfl⟩
  · exact limits message known
  · have same := kept source
    have given := limits source known
    constructor
    · rw [same.1]
      exact given.question
    · rw [same.2]
      exact given.answer

theorem withinLimits_expire {dialogue : Dialogue} (limits : dialogue.WithinLimits)
    (clock completed : Clock) (conversationId : Option UUID) :
    (expire clock completed conversationId dialogue).WithinLimits :=
  withinLimits_updateWhere (fun _ => ⟨rfl, rfl⟩) limits

/-- What neither accepts nor completes keeps the limits. -/
theorem withinLimits_of_effect {material : Material} {before after : Dialogue}
    (effect : Effect material before .neither after) (limits : before.WithinLimits) :
    after.WithinLimits := by
  cases effect with
  | unchanged => exact limits
  | created row first => exact limits
  | expired clock completed conversationId => exact withinLimits_expire limits _ _ _
  | evidenceSaved message rows known isPending owned stored => exact limits
  | failed messageId code completedAt =>
      exact withinLimits_updateWhere (fun _ => ⟨rfl, rfl⟩) limits

/-- The body's checks bound the question. -/
theorem length_of_askQuestion {conversationId : UUID} {payload : QuestionRequest}
    {key : Option String} {correlationId : String} {request : Question}
    (asked : askQuestion conversationId payload key correlationId = .ok request) :
    request.question.length ≤ 4000 := by
  simp only [askQuestion, bind_eq_ok, failIf_eq_ok, pure_eq_ok, not_not] at asked
  obtain ⟨_, valid, rfl⟩ := asked
  exact valid.length.2

/-- The draft's checks bound the answer. -/
theorem length_of_check {draft : TutorDraft} (checked : draft.check = .ok ()) :
    draft.answer.length ≤ 6000 := by
  simp only [TutorDraft.check, bind_eq_ok, Contract.checkText_eq_ok] at checked
  obtain ⟨_, bounds, _⟩ := checked
  exact bounds.2

/-- An admitted call keeps every stored message within the limits. -/
theorem withinLimits_of_step {before after : Dialogue} (limits : before.WithinLimits)
    (step : AdmittedStep before after) : after.WithinLimits := by
  obtain ⟨call, admitted, rfl⟩ := step
  rcases run_cases call before with same | ⟨ok, ⟨change, isChange, effect⟩, _⟩
  · rw [same]
    exact limits
  · cases call with
    | accept settings unicode tables material who request readings =>
        obtain ⟨payload, key, correlationId, asked⟩ := admitted
        obtain ⟨⟨shown, committed⟩, accepted, same⟩ := map_eq_ok.mp ok
        rw [← same]
        simp only [ConversationService.accept, bind_eq_ok] at accepted
        obtain ⟨storedKey, _, conversation, _, rest⟩ := accepted
        split at rest
        · simp only [bind_eq_ok, pure_eq_ok, Dialogue.commit_eq_ok, Prod.mk.injEq] at rest
          obtain ⟨_, _, _, _, _, ⟨_, rfl⟩, _, rfl⟩ := rest
          exact withinLimits_expire limits _ _ _
        · obtain ⟨_, ⟨turn, rfl⟩, _⟩ := effect_of_acceptNew rest
          intro message member
          rcases List.mem_append.mp member with known | inserted
          · exact withinLimits_expire limits _ _ _ message known
          · rw [List.mem_singleton.mp inserted]
            constructor
            · exact length_of_askQuestion asked
            · intro answer isAnswer
              cases isAnswer
    | complete tables material messageId draft now completedAt =>
        obtain ⟨_, _, _, _, _, same, _⟩ := complete_eq_ok ok
        rw [same]
        intro message member
        rcases mem_updateWhere_cases member with ⟨known, _⟩ | ⟨source, known, _, rfl⟩
        · exact limits message known
        · constructor
          · exact (limits source known).question
          · intro answer isAnswer
            cases isAnswer
            exact length_of_check admitted
    | _ =>
        cases List.mem_singleton.mp isChange
        exact withinLimits_of_effect effect limits

/-- Every message that admitted calls store keeps to the limits. -/
theorem withinLimits_of_reachable {dialogue : Dialogue}
    (reachable : Reachable NoDialogue AdmittedStep dialogue) : dialogue.WithinLimits := by
  apply reachable.holds
  · intro state isStart
    rw [isStart]
    exact List.forall_mem_nil _
  · intro before after limits step
    exact withinLimits_of_step limits step

/-! ### What the model is shown -/

/-- The history of a request is the longest suffix of the completed turns before
the message that keeps to six turns and twelve thousand characters, oldest
first. It holds neither the message itself nor a failed or a later one, and it
holds the latest completed turn when its question and answer keep to their limits,
as they do in every run of admitted calls. -/
theorem history_window {dialogue : Dialogue}
    (numbered : UniqueOn (fun row => (row.conversationId, row.sequence)) dialogue.messages)
    {accepted : AcceptedMessage} {row : Message} (isRow : accepted.Of row)
    {evidence : List Evidence} {request : TutorRequest}
    (ok : ConversationService.request accepted evidence dialogue = .ok request) :
    ∃ earlier window, PrecedingTurns dialogue row earlier ∧ HistoryWindow earlier window ∧
      request.history = window.map Message.turn ∧
      row ∉ window ∧ (∀ message ∈ window, message.state = .completed ∧
        message.sequence < row.sequence) ∧
      (∀ latest, earlier.getLast? = some latest → latest.WithinLimits → latest ∈ window) ∧
      (Reachable NoDialogue AdmittedStep dialogue →
        ∀ latest, earlier.getLast? = some latest → latest ∈ window) := by
  have preceding := precedingTurns_reverse numbered row
  have isWindow :=
    historyWindow_fitting (completedBefore dialogue row.conversationId row.sequence)
  have turns : request.history = ((fitting Message.turnSize 12000
      ((completedBefore dialogue row.conversationId row.sequence).take 6)).reverse).map
        Message.turn := by
    rw [List.map_reverse, ← historyTurns_eq, ← isRow.conversationId, ← isRow.sequence]
    exact history_of_request ok
  have outcome : ∀ message ∈ (fitting Message.turnSize 12000
      ((completedBefore dialogue row.conversationId row.sequence).take 6)).reverse,
      message.state = .completed ∧ message.sequence < row.sequence := by
    intro message member
    obtain ⟨_, _, before, isCompleted⟩ := (preceding.exactly message).mp
      (isWindow.suffix.subset member)
    exact ⟨isCompleted, before⟩
  have latestShown (latest : Message)
      (isLatest : (completedBefore dialogue row.conversationId row.sequence).reverse.getLast? =
        some latest) (limits : latest.WithinLimits) :
      latest ∈ (fitting Message.turnSize 12000
        ((completedBefore dialogue row.conversationId row.sequence).take 6)).reverse := by
    rw [List.getLast?_reverse, List.head?_eq_some_iff] at isLatest
    obtain ⟨rest, newest⟩ := isLatest
    rw [newest, List.take_succ_cons, List.mem_reverse]
    exact mem_fitting_head limits.turnSize_le
  refine ⟨_, _, preceding, isWindow, turns, ?_, outcome, latestShown, ?_⟩
  · intro member
    exact Nat.lt_irrefl _ (outcome row member).2
  · intro reachable latest isLatest
    have stored := (preceding.exactly latest).mp (List.mem_of_getLast? isLatest)
    exact latestShown latest isLatest (withinLimits_of_reachable reachable latest stored.1)

section Sample

/-- The row of a turn of one conversation. -/
def sampleRow (sequence : Nat) (question : String) : Message :=
  newMessage { modelVersion := "model", retrievalVersion := "retrieval" }
    { id := sampleId 1, courseId := sampleId 2, ownerUserId := sampleId 3, idempotencyKey := "open"
      nextSequence := sequence, createdAt := 0 }
    { conversationId := sampleId 1, question, key := none, correlationId := "request" }
    "ask" { kind := .question, intent := none }
    { expiryClock := fun _ => 0, completedClock := fun _ => 0, now := 0, createdAt := 0
      messageId := sampleId (10 + sequence), corpusId := some (sampleId 4) }

/-- What each turn is answered. -/
def sampleAnswer : TutorDraft where
  mode := .explanation
  answer := "Yes."
  citations := []
  grounded := true

/-- Seven answered turns, one that failed, one of another conversation, and the one asked
after them. -/
def sampleTurns : Dialogue where
  messages :=
    ["one", "two", "three", "four", "five", "six", "seven"].mapIdx (fun index question =>
      completed sampleAnswer 1 (sampleRow (index + 1) question)) ++
      [{ sampleRow 8 "eight" with state := .failed, failureCode := some "GENERATION_FAILED" },
        { completed sampleAnswer 1 (sampleRow 8 "elsewhere") with
          id := sampleId 40, conversationId := sampleId 30 },
        sampleRow 9 "And a queue?"]

/-- The acceptance of the last turn. -/
def laterTurn : AcceptedMessage where
  message :=
    { id := sampleId 19, courseId := sampleId 2, conversationId := sampleId 1
      corpusVersionId := some (sampleId 4), sequence := 9, question := "And a queue?"
      state := .pending, response := none, failureCode := none, failureMessage := none
      createdAt := 0, completedAt := none, kind := .question, intent := none
      parentMessageId := none }
  created := true
  ownerUserId := sampleId 3
  correlationId := "request"

/-- The last six answered turns are the history of the last turn; the first one, the
failed one and the one of the other conversation are not in it. -/
theorem history_window_of_sample :
    ∃ request earlier window,
      ConversationService.request laterTurn [] sampleTurns = .ok request ∧
      PrecedingTurns sampleTurns (sampleRow 9 "And a queue?") earlier ∧
      HistoryWindow earlier window ∧ request.history = window.map Message.turn ∧
      sampleRow 9 "And a queue?" ∉ window ∧
      request.history.map (·.question) = ["two", "three", "four", "five", "six", "seven"] := by
  have isRow : laterTurn.Of (sampleRow 9 "And a queue?") := ⟨rfl, rfl, rfl⟩
  have numbered : UniqueOn (fun row => (row.conversationId, row.sequence)) sampleTurns.messages :=
    by decide +kernel
  have ok : ConversationService.request laterTurn [] sampleTurns =
      .ok (valueOf (ConversationService.request laterTurn [] sampleTurns) (by decide +kernel)) :=
    eq_ok_valueOf _
  obtain ⟨earlier, window, preceding, isWindow, shown, notIn, _⟩ := history_window numbered isRow ok
  exact ⟨_, earlier, window, ok, preceding, isWindow, shown, notIn, by decide +kernel⟩

end Sample

end Docta
