/-
Module: Docta.Conversation.Turns
Purpose: What any interleaving of turns keeps: every message has one chance to
  be retrieved for, generated for and validated for; what a suspended task holds
  is backed by the tables and the ledger; and a completed message shows the one
  draft the validator let pass for it.
Trusted boundary: none beyond the runtime's
Main exports: Tutor.WellFormed, wellFormed_of_step, wellFormed_of_reachable
-/
import Docta.Conversation.Runtime

namespace Docta

open Table Fallible Transition ConversationService

/-! ### Acceptance -/

/-- A view shows the row it was built from. -/
theorem view_eq_ok {dialogue : Dialogue} {message : Message} {shown : MessageView}
    (ok : view dialogue message = .ok shown) :
    shown.id = message.id ∧ shown.courseId = message.courseId ∧
      shown.corpusVersionId = message.corpusVersionId ∧
        (message.state = .completed →
          ∃ answer, answerView dialogue message = .ok answer ∧ shown.response = some answer) := by
  unfold view at ok
  by_cases isCompleted : message.state = .completed
  · simp only [if_pos isCompleted, bind_eq_ok, map_eq_ok, pure_eq_ok] at ok
    obtain ⟨response, ⟨answer, answerOk, rfl⟩, rfl⟩ := ok
    exact ⟨rfl, rfl, rfl, fun _ => ⟨answer, answerOk, rfl⟩⟩
  · simp only [if_neg isCompleted, ok_bind, pure_eq_ok] at ok
    subst ok
    exact ⟨rfl, rfl, rfl, fun completed => absurd completed isCompleted⟩

section Acceptance

variable {settings : Settings} {unicode : Text.UnicodeData} {tables : Identity}
  {material : Material} {who : AuthenticatedIdentity} {request : Question} {readings : Readings}
  {accepted : AcceptedMessage} {before after : Dialogue}

/-- A created acceptance inserted its message, with the corpus it had read. -/
theorem accept_created (created : accepted.created = true)
    (ok : ConversationService.accept settings unicode tables material who request readings before =
      .ok (accepted, after)) :
    ∃ conversation key turn, conversation ∈ before.conversations ∧
      conversation.id = request.conversationId ∧
      after = insertMessage (expire readings.expiryClock readings.completedClock
          (some request.conversationId) before) conversation
        (newMessage settings conversation request key turn readings) ∧
      accepted.message.id = readings.messageId ∧
      accepted.message.courseId = conversation.courseId ∧
      accepted.message.corpusVersionId = readings.corpusId := by
  simp only [ConversationService.accept, bind_eq_ok] at ok
  obtain ⟨key, _, conversation, found, rest⟩ := ok
  split at rest
  · simp only [bind_eq_ok, pure_eq_ok, Prod.mk.injEq] at rest
    obtain ⟨_, _, _, _, _, _, rfl, _⟩ := rest
    cases created
  · simp only [acceptNew, bind_eq_ok, pure_eq_ok, Dialogue.commit_eq_ok, Prod.mk.injEq] at rest
    obtain ⟨_, _, turn, _, _, ⟨_, rfl⟩, shown, shownOk, rfl, rfl⟩ := rest
    obtain ⟨idEq, courseEq, corpusEq, _⟩ := view_eq_ok shownOk
    obtain ⟨known, own⟩ := owned_eq_ok found
    exact ⟨conversation, key, turn, known, own, rfl, idEq, courseEq, corpusEq⟩

/-- The identifiers of the messages a created acceptance leaves. -/
theorem messageIds_of_accept_created (created : accepted.created = true)
    (ok : ConversationService.accept settings unicode tables material who request readings before =
      .ok (accepted, after)) :
    after.messages.map (·.id) = before.messages.map (·.id) ++ [accepted.message.id] := by
  obtain ⟨conversation, key, turn, _, _, rfl, idEq, _, _⟩ := accept_created created ok
  have kept : (expire readings.expiryClock readings.completedClock (some request.conversationId)
      before).messages.map (·.id) = before.messages.map (·.id) :=
    map_updateWhere fun _ _ _ => rfl
  rw [idEq, ← kept]
  exact List.map_append

end Acceptance

/-! ### Chances -/

/-- The messages that may still be logged, or are: one for every created
acceptance on its way, every task in a phase that may lead there, and every
entry of the log. -/
def Tutor.chances (may : Phase → Bool) (log : Ledger → List UUID) (tutor : Tutor) : List UUID :=
  (tutor.posts.filter (·.created)).map (·.message.id) ++
    ((tutor.turns.filter fun turn => may turn.phase).map Turn.messageId ++ log tutor.ledger)

/-- A log of the ledger that a task spends its one chance on. -/
def Spends (may : Phase → Bool) (log : Ledger → List UUID) : Prop :=
  ∀ {data tables material accepted dialogue ledger phase progress},
    TurnStep data tables material accepted dialogue ledger phase progress → ∀ id,
      ((progress.phase.toList.filter may).map fun _ => accepted.message.id).count id +
          (log progress.ledger).count id ≤
        (([phase].filter may).map fun _ => accepted.message.id).count id + (log ledger).count id

section Chances

variable {may : Phase → Bool} {log : Ledger → List UUID} {data : ValidatorData}
  {tables : Identity} {material : Material} {before after : Tutor}

theorem count_chances (tutor : Tutor) (id : UUID) :
    (tutor.chances may log).count id =
      ((tutor.posts.filter (·.created)).map (·.message.id)).count id +
        (((tutor.turns.filter fun turn => may turn.phase).map Turn.messageId).count id +
          (log tutor.ledger).count id) := by
  rw [Tutor.chances, List.count_append, List.count_append]

/-- Messages are never lost, and each is one row. -/
theorem count_messageIds_le {earlier later : Dialogue} (orderly : earlier.Orderly)
    (orderlyLater : later.Orderly) (advances : earlier.Advances later) (id : UUID) :
    (earlier.messages.map (·.id)).count id ≤ (later.messages.map (·.id)).count id := by
  have once : (earlier.messages.map (·.id)).Nodup := orderly.keys.messageIds
  have onceLater : (later.messages.map (·.id)).Nodup := orderlyLater.keys.messageIds
  rw [once.count, onceLater.count]
  by_cases known : id ∈ earlier.messages.map (·.id)
  · obtain ⟨message, messageKnown, rfl⟩ := List.mem_map.mp known
    obtain ⟨row, rowKnown, advance⟩ := advances.messages message messageKnown
    have stays : message.id ∈ later.messages.map (·.id) :=
      List.mem_map.mpr ⟨row, rowKnown, advance.id_eq⟩
    rw [if_pos known, if_pos stays]
  · rw [if_neg known]
    exact Nat.zero_le _

/-- Removing one entry of a list removes its chance. -/
theorem count_map_remove {α : Type} (id : UUID) (selected : α → Bool) (field : α → UUID)
    (earlier later : List α) (entry : α) :
    (((earlier ++ entry :: later).filter selected).map field).count id =
      (((earlier ++ later).filter selected).map field).count id +
        (([entry].filter selected).map field).count id := by
  have moved : (earlier ++ entry :: later).Perm ((earlier ++ later) ++ [entry]) := by
    rw [List.append_assoc]
    have swapped : ([entry] ++ later).Perm (later ++ [entry]) := List.perm_append_comm
    exact swapped.append_left earlier
  rw [((moved.filter selected).map field).count_eq, List.filter_append, List.map_append,
    List.count_append]

/-- A step creates a chance only with a message. -/
theorem chances_of_step (spends : Spends may log) (orderly : before.dialogue.Orderly)
    (step : Tutor.Step data tables material before after) (id : UUID) :
    (after.chances may log).count id + (before.dialogue.messages.map (·.id)).count id ≤
      (before.chances may log).count id + (after.dialogue.messages.map (·.id)).count id := by
  have rows := count_messageIds_le orderly (orderly_of_tutorStep orderly step)
    (advances_of_tutorStep orderly step) id
  rw [count_chances, count_chances]
  cases step with
  | accept settings who request readings accepted dialogue earlier later capture captured locked
      read course created ok =>
      have ids := messageIds_of_accept_created created ok
      simp only [ids, List.filter_append, List.map_append, List.count_append,
        List.filter_singleton, created, cond_true, List.map_cons, List.map_nil]
      omega
  | acceptAgain settings who request readings accepted dialogue repeated ok =>
      dsimp only at rows ⊢
      simp only [List.filter_append, List.filter_singleton, repeated, cond_false, List.append_nil]
      omega
  | start earlier later accepted posted created =>
      have removed := count_map_remove id (·.created) (·.message.id) earlier later accepted
      rw [List.filter_singleton, created, cond_true, List.map_singleton] at removed
      have added : (((before.turns ++ [Turn.mk accepted .started]).filter
            fun turn => may turn.phase).map Turn.messageId).count id ≤
          ((before.turns.filter fun turn => may turn.phase).map Turn.messageId).count id +
            [accepted.message.id].count id := by
        rw [List.filter_append, List.map_append, List.count_append]
        exact Nat.add_le_add_left
          ((List.filter_sublist.map Turn.messageId).count_le id) _
      dsimp only at rows ⊢
      rw [posted, removed]
      omega
  | startAgain earlier later accepted posted repeated =>
      have removed := count_map_remove id (·.created) (·.message.id) earlier later accepted
      dsimp only at rows ⊢
      rw [posted, removed]
      omega
  | turn earlier later accepted phase progress running advance =>
      have spent := spends advance id
      have removed := count_map_remove id (fun turn => may turn.phase) Turn.messageId earlier later
        ⟨accepted, phase⟩
      have singleton (here : Phase) : (([Turn.mk accepted here].filter fun turn => may turn.phase).map
          Turn.messageId) = ([here].filter may).map fun _ => accepted.message.id := by
        rw [List.filter_singleton, List.filter_singleton]
        cases may here <;> rfl
      have next : (((earlier ++ (progress.phase.map (Turn.mk accepted)).toList ++ later).filter
            fun turn => may turn.phase).map Turn.messageId).count id =
          (((earlier ++ later).filter fun turn => may turn.phase).map Turn.messageId).count id +
            ((progress.phase.toList.filter may).map fun _ => accepted.message.id).count id := by
        cases progress.phase with
        | none => simp
        | some phase =>
            rw [Option.map_some, Option.toList_some, List.append_assoc, List.singleton_append,
              count_map_remove, singleton, Option.toList_some]
      dsimp only at rows ⊢
      rw [running, removed, singleton phase, next]
      omega
  | crash captures posts turns orphans fewerCaptures fewerPosts fewerTurns fewerOrphans =>
      have posts := ((fewerPosts.filter (·.created)).map (·.message.id)).count_le id
      have turns := ((fewerTurns.filter fun turn => may turn.phase).map Turn.messageId).count_le id
      dsimp only at rows ⊢
      omega
  | capture conversation known unlocked =>
      dsimp only at rows ⊢
      omega
  | orphan earlier later left dialogue running commits =>
      dsimp only at rows ⊢
      omega
  | beside call isBeside =>
      dsimp only at rows ⊢
      omega

/-- No more chances than messages: kept by every step. -/
theorem bounded_of_step (spends : Spends may log) (orderly : before.dialogue.Orderly)
    (bounded : ∀ id, (before.chances may log).count id ≤
      (before.dialogue.messages.map (·.id)).count id)
    (step : Tutor.Step data tables material before after) (id : UUID) :
    (after.chances may log).count id ≤ (after.dialogue.messages.map (·.id)).count id := by
  have moved := chances_of_step spends orderly step id
  have earlier := bounded id
  omega

/-- What has no more chances than messages is logged once. -/
theorem nodup_of_bounded {tutor : Tutor} (orderly : tutor.dialogue.Orderly)
    (bounded : ∀ id, (tutor.chances may log).count id ≤
      (tutor.dialogue.messages.map (·.id)).count id) : (log tutor.ledger).Nodup := by
  rw [List.nodup_iff_count_le_one]
  intro id
  have once : (tutor.dialogue.messages.map (·.id)).Nodup := orderly.keys.messageIds
  have atMost := List.nodup_iff_count_le_one.mp once id
  have chances := bounded id
  rw [count_chances] at chances
  omega

end Chances

/-- The phases before the retriever returns. -/
def Phase.mayRetrieve : Phase → Bool
  | .started | .retrieving _ => true
  | _ => false

/-- The phases before the model is invoked. -/
def Phase.mayGenerate : Phase → Bool
  | .started | .retrieving _ | .retrieved _ _ | .saved _ => true
  | _ => false

/-- The phases before the validator returns. -/
def Phase.mayValidate : Phase → Bool
  | .validated _ | .failing _ => false
  | _ => true

/-- The messages the retriever returned for. -/
def Ledger.retrievedIds (ledger : Ledger) : List UUID := ledger.retrievals.map (·.1)

/-- The messages the model was invoked for. -/
def Ledger.generatedIds (ledger : Ledger) : List UUID :=
  ledger.generations.map (·.1.message.id)

/-- The messages the validator let a draft pass for. -/
def Ledger.validatedIds (ledger : Ledger) : List UUID := ledger.validations.map (·.1)

theorem spends_retrievals : Spends Phase.mayRetrieve Ledger.retrievedIds := by
  intro data tables material accepted dialogue ledger phase progress advance id
  cases advance <;>
    simp [Phase.mayRetrieve, Ledger.retrievedIds, List.filter_singleton, Nat.add_comm]

theorem spends_generations : Spends Phase.mayGenerate Ledger.generatedIds := by
  intro data tables material accepted dialogue ledger phase progress advance id
  cases advance <;>
    simp [Phase.mayGenerate, Ledger.generatedIds, List.filter_singleton, Nat.add_comm]

theorem spends_validations : Spends Phase.mayValidate Ledger.validatedIds := by
  intro data tables material accepted dialogue ledger phase progress advance id
  cases advance <;>
    simp [Phase.mayValidate, Ledger.validatedIds, List.filter_singleton, Nat.add_comm]

/-! ### What tasks hold -/

/-- The items are saved as evidence of the message. -/
def Dialogue.Saved (dialogue : Dialogue) (messageId : UUID) (evidence : List Evidence) : Prop :=
  ∀ item ∈ evidence, evidenceRow messageId item ∈ dialogue.retrievedEvidence

/-- A follow-up with no antecedent to derive a query from. -/
def Message.NeedsAntecedent (message : Message) : Prop :=
  message.kind = .followup ∧ message.retrievalQuery = none

/-- The message is stored and needs no antecedent it does not have. -/
def Dialogue.Answerable (dialogue : Dialogue) (messageId : UUID) : Prop :=
  ∃ message ∈ dialogue.messages, message.id = messageId ∧ ¬ message.NeedsAntecedent

/-- The draft quotes evidence that is saved for the message. -/
def Dialogue.Ready (dialogue : Dialogue) (messageId : UUID) (draft : TutorDraft) : Prop :=
  ∃ evidence, draft.Sound evidence ∧ dialogue.Saved messageId evidence

/-- What backs a suspended task. -/
def Phase.Justified (dialogue : Dialogue) (ledger : Ledger) (messageId : UUID) : Phase → Prop
  | .started | .failing _ => True
  | .retrieving _ => dialogue.Answerable messageId
  | .retrieved _ evidence =>
      dialogue.Answerable messageId ∧ (messageId, evidence) ∈ ledger.retrievals
  | .saved request | .generating request =>
      dialogue.Answerable messageId ∧ (messageId, request.evidence) ∈ ledger.retrievals ∧
        dialogue.Saved messageId request.evidence
  | .drafted _ request => dialogue.Saved messageId request.evidence
  | .validated draft => (messageId, draft) ∈ ledger.validations

/-- What backs a call left running. -/
def Orphan.Justified (ledger : Ledger) : Orphan → Prop
  | .complete messageId draft => (messageId, draft) ∈ ledger.validations
  | _ => True

/-- What backs an invocation of the model. -/
structure Generated (dialogue : Dialogue) (ledger : Ledger) (accepted : AcceptedMessage)
    (request : TutorRequest) : Prop where
  created : accepted.created = true
  answerable : dialogue.Answerable accepted.message.id
  retrieved : (accepted.message.id, request.evidence) ∈ ledger.retrievals
  found : request.evidence ≠ []
  saved : dialogue.Saved accepted.message.id request.evidence

/-- The message's columns are the draft's. -/
structure Message.Shows (message : Message) (draft : TutorDraft) : Prop where
  answer : message.answer = some draft.answer
  mode : message.mode = some draft.mode
  grounded : message.grounded = some draft.grounded
  intervention : message.intervention = draft.intervention.map (·.dump)

/-- The message shows a draft the validator let pass for it, with exactly the
citation rows of that draft. -/
def Dialogue.Answered (dialogue : Dialogue) (ledger : Ledger) (message : Message) : Prop :=
  ∃ draft, (message.id, draft) ∈ ledger.validations ∧ message.Shows draft ∧
    dialogue.citations.filter (·.messageId = message.id) = citationRows message draft

/-- The ledger is only added to. -/
structure Ledger.Grows (before after : Ledger) : Prop where
  retrievals : before.retrievals ⊆ after.retrievals
  generations : before.generations ⊆ after.generations
  validations : before.validations ⊆ after.validations

theorem Ledger.Grows.refl (ledger : Ledger) : ledger.Grows ledger :=
  ⟨List.Subset.refl _, List.Subset.refl _, List.Subset.refl _⟩

section Growth

variable {before after : Dialogue} {ledger ledgerAfter : Ledger} {messageId : UUID}

theorem Dialogue.Saved.mono {evidence : List Evidence} (saved : before.Saved messageId evidence)
    (advances : before.Advances after) : after.Saved messageId evidence :=
  fun item member => advances.evidence.subset (saved item member)

theorem Dialogue.Answerable.mono (answerable : before.Answerable messageId)
    (advances : before.Advances after) : after.Answerable messageId := by
  obtain ⟨message, known, rfl, complete⟩ := answerable
  obtain ⟨later, laterKnown, advance⟩ := advances.messages message known
  refine ⟨later, laterKnown, advance.id_eq, ?_⟩
  rw [Message.NeedsAntecedent, advance.column (·.kind) fun _ => rfl,
    advance.column (·.retrievalQuery) fun _ => rfl]
  exact complete

theorem Dialogue.Ready.mono {draft : TutorDraft} (ready : before.Ready messageId draft)
    (advances : before.Advances after) : after.Ready messageId draft := by
  obtain ⟨evidence, sound, saved⟩ := ready
  exact ⟨evidence, sound, saved.mono advances⟩

theorem Phase.Justified.mono {phase : Phase} (justified : phase.Justified before ledger messageId)
    (advances : before.Advances after) (grows : ledger.Grows ledgerAfter) :
    phase.Justified after ledgerAfter messageId := by
  cases phase with
  | started => trivial
  | failing code => trivial
  | retrieving request => exact Dialogue.Answerable.mono justified advances
  | retrieved request evidence =>
      exact ⟨justified.1.mono advances, grows.retrievals justified.2⟩
  | saved request =>
      exact ⟨justified.1.mono advances, grows.retrievals justified.2.1,
        justified.2.2.mono advances⟩
  | generating request =>
      exact ⟨justified.1.mono advances, grows.retrievals justified.2.1,
        justified.2.2.mono advances⟩
  | drafted draft request => exact Dialogue.Saved.mono justified advances
  | validated draft => exact grows.validations justified

theorem Orphan.Justified.mono {left : Orphan} (justified : left.Justified ledger)
    (grows : ledger.Grows ledgerAfter) : left.Justified ledgerAfter := by
  cases left with
  | complete messageId draft => exact grows.validations justified
  | saveEvidence messageId evidence => trivial
  | fail messageId code => trivial

theorem Generated.mono {accepted : AcceptedMessage} {request : TutorRequest}
    (generated : Generated before ledger accepted request) (advances : before.Advances after)
    (grows : ledger.Grows ledgerAfter) : Generated after ledgerAfter accepted request :=
  ⟨generated.created, generated.answerable.mono advances, grows.retrievals generated.retrieved,
    generated.found, generated.saved.mono advances⟩

end Growth

/-! ### One task going on -/

/-- A request carries the given evidence, and needs no antecedent only when its
message has none missing. -/
theorem request_eq_ok {accepted : AcceptedMessage} {evidence : List Evidence}
    {dialogue : Dialogue} {request : TutorRequest}
    (ok : ConversationService.request accepted evidence dialogue = .ok request) :
    request.evidence = evidence ∧
      (request.needsAntecedent = false → dialogue.Answerable accepted.message.id) := by
  unfold ConversationService.request at ok
  split at ok
  · cases ok
  · split at ok
    · cases ok
    · rename_i stored storedEq
      cases ok
      refine ⟨rfl, fun complete => ?_⟩
      have matched := List.find?_some storedEq
      refine ⟨stored, List.mem_of_find?_eq_some storedEq, by simpa using matched, ?_⟩
      intro needs
      rw [Message.NeedsAntecedent] at needs
      simp [needs.1, needs.2] at complete

section TurnStep

variable {data : ValidatorData} {tables : Identity} {material : Material}
  {accepted : AcceptedMessage} {dialogue : Dialogue} {ledger : Ledger} {phase : Phase}
  {progress : Progress}

theorem grows_of_turnStep
    (advance : TurnStep data tables material accepted dialogue ledger phase progress) :
    ledger.Grows progress.ledger := by
  cases advance with
  | retrieved request evidence =>
      exact ⟨List.subset_append_left _ _, List.Subset.refl _, List.Subset.refl _⟩
  | generate request found =>
      exact ⟨List.Subset.refl _, List.subset_append_left _ _, List.Subset.refl _⟩
  | validate request draft validated ok =>
      exact ⟨List.Subset.refl _, List.Subset.refl _, List.subset_append_left _ _⟩
  | _ => exact .refl ledger

/-- What backs a task backs it at its next await. -/
theorem justified_of_turnStep
    (advance : TurnStep data tables material accepted dialogue ledger phase progress)
    (advances : dialogue.Advances progress.dialogue)
    (justified : phase.Justified dialogue ledger accepted.message.id) :
    ∀ next ∈ progress.phase,
      next.Justified progress.dialogue progress.ledger accepted.message.id := by
  intro next isNext
  cases advance with
  | clarify request ok needs =>
      cases isNext
      intro item member
      rw [(request_eq_ok ok).1] at member
      cases member
  | retrieve request ok complete =>
      cases isNext
      exact (request_eq_ok ok).2 complete
  | retrieved request evidence =>
      cases isNext
      exact ⟨justified, List.mem_append_right _ (List.mem_singleton_self _)⟩
  | save request evidence now saved ok =>
      cases isNext
      obtain ⟨message, _, _, _, _, rfl, _⟩ := saveEvidence_eq_ok ok
      refine ⟨justified.1.mono advances, justified.2, fun item member => ?_⟩
      exact List.mem_append_right _ (List.mem_map_of_mem member)
  | generate request found =>
      cases isNext
      exact justified
  | abstain request none =>
      cases isNext
      exact justified.2.2
  | generated request draft =>
      cases isNext
      exact justified.2.2
  | validate request draft validated ok =>
      cases isNext
      exact List.mem_append_right _ (List.mem_singleton_self _)
  | complete draft now completedAt completed ok => cases isNext
  | interrupt phase code left behind =>
      cases isNext
      trivial
  | fail code completedAt failed ok => cases isNext

/-- What backs a task backs the call it leaves running. -/
theorem left_of_turnStep
    (advance : TurnStep data tables material accepted dialogue ledger phase progress)
    (justified : phase.Justified dialogue ledger accepted.message.id) :
    ∀ left ∈ progress.orphans, left.Justified progress.ledger := by
  intro orphan member
  cases advance with
  | interrupt phase code left behind =>
      rcases behind with rfl | rfl
      · cases member
      · cases phase with
        | retrieved request evidence =>
            rw [List.mem_singleton.mp member]
            trivial
        | validated draft =>
            rw [List.mem_singleton.mp member]
            exact justified
        | failing code =>
            rw [List.mem_singleton.mp member]
            trivial
        | _ => cases member
  | _ => cases member

/-- A task that invokes the model does so for an accepted, answerable message
whose evidence is saved. -/
theorem generated_of_turnStep (created : accepted.created = true)
    (advance : TurnStep data tables material accepted dialogue ledger phase progress)
    (justified : phase.Justified dialogue ledger accepted.message.id) :
    ∀ entry ∈ progress.ledger.generations, entry ∈ ledger.generations ∨
      (entry.1 = accepted ∧ Generated dialogue ledger entry.1 entry.2) := by
  intro entry member
  cases advance with
  | generate request found =>
      rcases List.mem_append.mp member with old | new
      · exact .inl old
      · rw [List.mem_singleton.mp new]
        exact .inr ⟨rfl, created, justified.1, justified.2.1, found, justified.2.2⟩
  | _ => exact .inl member

/-- A draft the validator lets pass quotes evidence that is saved. -/
theorem ready_of_turnStep
    (advance : TurnStep data tables material accepted dialogue ledger phase progress)
    (justified : phase.Justified dialogue ledger accepted.message.id) :
    ∀ entry ∈ progress.ledger.validations,
      entry ∈ ledger.validations ∨ dialogue.Ready entry.1 entry.2 := by
  intro entry member
  cases advance with
  | validate request draft validated ok =>
      rcases List.mem_append.mp member with old | new
      · exact .inl old
      · rw [List.mem_singleton.mp new]
        exact .inr ⟨request.evidence, sound_of_validate ok, justified⟩
  | _ => exact .inl member

end TurnStep

/-! ### The invariant -/

/-- The invariant of the tutor's processes. -/
structure Tutor.WellFormed (tutor : Tutor) : Prop where
  orderly : tutor.dialogue.Orderly
  blank : ∀ message ∈ tutor.dialogue.messages, message.state = .pending →
    message.accepted = message
  retrievedOnce : ∀ id, (tutor.chances Phase.mayRetrieve Ledger.retrievedIds).count id ≤
    (tutor.dialogue.messages.map (·.id)).count id
  generatedOnce : ∀ id, (tutor.chances Phase.mayGenerate Ledger.generatedIds).count id ≤
    (tutor.dialogue.messages.map (·.id)).count id
  validatedOnce : ∀ id, (tutor.chances Phase.mayValidate Ledger.validatedIds).count id ≤
    (tutor.dialogue.messages.map (·.id)).count id
  created : ∀ turn ∈ tutor.turns, turn.accepted.created = true
  justified : ∀ turn ∈ tutor.turns,
    turn.phase.Justified tutor.dialogue tutor.ledger turn.messageId
  left : ∀ orphan ∈ tutor.orphans, orphan.Justified tutor.ledger
  generated : ∀ entry ∈ tutor.ledger.generations,
    Generated tutor.dialogue tutor.ledger entry.1 entry.2
  ready : ∀ entry ∈ tutor.ledger.validations, tutor.dialogue.Ready entry.1 entry.2
  answered : ∀ message ∈ tutor.dialogue.messages, message.state = .completed →
    tutor.dialogue.Answered tutor.ledger message

theorem wellFormed_of_initial {tutor : Tutor} (initial : tutor.Initial) : tutor.WellFormed := by
  rw [Tutor.Initial] at initial
  subst initial
  constructor
  · exact orderly_of_noDialogue rfl
  all_goals simp [Tutor.chances, Ledger.retrievedIds, Ledger.generatedIds, Ledger.validatedIds]

section Step

variable {data : ValidatorData} {tables : Identity} {material : Material} {before after : Tutor}

theorem grows_of_step (step : Tutor.Step data tables material before after) :
    before.ledger.Grows after.ledger := by
  cases step with
  | turn earlier later accepted phase progress running advance => exact grows_of_turnStep advance
  | _ => exact .refl before.ledger

/-- What the tables see of a step. -/
inductive Seen (data : ValidatorData) (tables : Identity) (material : Material)
    (before after : Tutor) : Prop where
  | quiet (effect : Effect material before.dialogue .neither after.dialogue) :
      Seen data tables material before after
  | accepted (settings : Settings) (who : AuthenticatedIdentity) (request : Question)
      (readings : Readings) (accepted : AcceptedMessage) (earlier later : List Capture)
      (capture : Capture) (captured : before.captures = earlier ++ capture :: later)
      (taken : after.captures = earlier ++ later)
      (locked : request.conversationId = capture.conversationId)
      (read : readings.corpusId = capture.corpusId)
      (course : accepted.message.courseId = capture.courseId) (created : accepted.created = true)
      (ok : ConversationService.accept settings data.unicode tables material who request readings
        before.dialogue = .ok (accepted, after.dialogue)) :
      Seen data tables material before after
  | completed (messageId : UUID) (draft : TutorDraft) (now completedAt : Time)
      (validated : (messageId, draft) ∈ before.ledger.validations)
      (ok : ConversationService.complete tables material messageId draft now completedAt
        before.dialogue = .ok after.dialogue) :
      Seen data tables material before after

/-- A call that neither accepts nor completes has a quiet effect. -/
theorem quiet_of_result (call : Call) {earlier later : Dialogue}
    (changes : call.changes = [.neither]) (ok : call.result earlier = .ok later) :
    Effect call.material earlier .neither later := by
  obtain ⟨⟨change, possible, effect⟩, _⟩ := effect_of_result ok
  rw [changes, List.mem_singleton] at possible
  rw [← possible]
  exact effect

theorem quiet_of_beside {call : Call} (isBeside : call.isBeside tables material)
    (dialogue : Dialogue) : Effect material dialogue .neither (call.run dialogue) := by
  have found : call.material = material ∧ call.changes = [.neither] := by
    cases call with
    | create => exact ⟨isBeside.2, rfl⟩
    | history => exact ⟨isBeside.2, rfl⟩
    | read => exact ⟨isBeside.2, rfl⟩
    | expire => exact ⟨isBeside.2, rfl⟩
    | _ => exact isBeside.elim
  rw [← found.1]
  unfold Call.run
  split
  · rename_i committed ok
    exact quiet_of_result call found.2 ok
  · exact .unchanged

/-- The tables see every step as a quiet effect, an acceptance with a captured
corpus, or a completion with a validated draft. -/
theorem seen_of_step (wellFormed : before.WellFormed)
    (step : Tutor.Step data tables material before after) :
    Seen data tables material before after := by
  cases step with
  | accept settings who request readings accepted dialogue earlier later capture captured locked
      read course created ok =>
      exact .accepted settings who request readings accepted earlier later capture captured rfl
        locked read course created ok
  | acceptAgain settings who request readings accepted dialogue repeated ok =>
      have effect := (effect_of_accept ok).1
      rw [repeated] at effect
      exact .quiet effect
  | turn earlier later accepted phase progress running advance =>
      have justified := wellFormed.justified ⟨accepted, phase⟩ (by simp [running])
      cases advance with
      | save request evidence now saved ok =>
          exact .quiet (quiet_of_result (.saveEvidence tables material _ evidence now) rfl ok)
      | complete draft now completedAt completed ok =>
          exact .completed accepted.message.id draft now completedAt justified ok
      | fail code completedAt failed ok =>
          exact .quiet (quiet_of_result (.fail tables material _ code completedAt) rfl ok)
      | _ => exact .quiet .unchanged
  | orphan earlier later left dialogue running commits =>
      have justified := wellFormed.left left (by simp [running])
      cases commits with
      | saveEvidence messageId evidence now saved ok =>
          exact .quiet
            (quiet_of_result (.saveEvidence tables material messageId evidence now) rfl ok)
      | complete messageId draft now completedAt completed ok =>
          exact .completed messageId draft now completedAt justified ok
      | fail messageId code completedAt failed ok =>
          exact .quiet (quiet_of_result (.fail tables material messageId code completedAt) rfl ok)
  | beside call isBeside => exact .quiet (quiet_of_beside isBeside before.dialogue)
  | _ => exact .quiet .unchanged

/-- Every change leaves pending messages without an outcome. -/
theorem blank_of_effect {change : Change} {earlier later : Dialogue}
    (effect : Effect material earlier change later)
    (blank : ∀ message ∈ earlier.messages, message.state = .pending → message.accepted = message) :
    ∀ message ∈ later.messages, message.state = .pending → message.accepted = message := by
  have finished {condition : Message → Bool} {assign : Message → Message}
      (finishes : ∀ message, (assign message).state ≠ .pending) :
      ∀ message ∈ updateWhere earlier.messages condition assign,
        message.state = .pending → message.accepted = message := by
    intro message known isPending
    rcases mem_updateWhere_cases known with ⟨stays, _⟩ | ⟨source, _, _, rfl⟩
    · exact blank message stays isPending
    · exact absurd isPending (finishes source)
  cases effect with
  | unchanged => exact blank
  | created row first => exact blank
  | expired clock completed conversationId => exact finished fun _ => by nofun
  | accepted settings conversation request key turn readings known free =>
      intro message messageKnown isPending
      rcases List.mem_append.mp messageKnown with old | new
      · exact finished (fun _ => by nofun) message old isPending
      · rw [List.mem_singleton.mp new]
        rfl
  | evidenceSaved message rows known isPending owned stored => exact blank
  | completed message draft now completedAt known isPending inTime =>
      exact finished fun _ => by nofun
  | failed messageId code completedAt => exact finished fun _ => by nofun

/-- Every step's change to the tables is an effect. -/
theorem Seen.effect (seen : Seen data tables material before after) :
    ∃ change, Effect material before.dialogue change after.dialogue := by
  cases seen with
  | quiet effect => exact ⟨_, effect⟩
  | accepted settings who request readings accepted earlier later capture captured taken locked
      read course created ok => exact ⟨_, (effect_of_accept ok).1⟩
  | completed messageId draft now completedAt validated ok =>
      have result : (Call.complete tables material messageId draft now completedAt).result
        before.dialogue = .ok after.dialogue := ok
      obtain ⟨⟨change, _, effect⟩, _⟩ := effect_of_result result
      exact ⟨change, effect⟩

/-- A draft without an intervention leaves a blank message's intervention blank. -/
theorem shows_of_completed {message : Message} (blank : message.accepted = message)
    (draft : TutorDraft) (completedAt : Time) :
    (ConversationService.completed draft completedAt message).Shows draft := by
  have noIntervention : message.intervention = none := by rw [← blank]; rfl
  refine ⟨rfl, rfl, rfl, ?_⟩
  unfold ConversationService.completed
  cases draft.intervention with
  | none => exact noIntervention
  | some intervention => rfl

/-- Completing a pending message with a validated draft answers it, and leaves
every other answer alone. -/
theorem answered_of_complete {dialogue : Dialogue} {messageId : UUID} {draft : TutorDraft}
    {now completedAt : Time} (wellFormed : before.WellFormed)
    (validated : (messageId, draft) ∈ before.ledger.validations)
    (ok : ConversationService.complete tables material messageId draft now completedAt
      before.dialogue = .ok dialogue) {message : Message} (known : message ∈ dialogue.messages) :
    message ∈ before.dialogue.messages ∨ dialogue.Answered before.ledger message := by
  obtain ⟨waiting, waitingKnown, rfl, isPending, _, rfl, _⟩ := complete_eq_ok ok
  rcases mem_updateWhere_cases known with ⟨stays, _⟩ | ⟨source, sourceKnown, matched, rfl⟩
  · exact .inl stays
  · have same := wellFormed.orderly.keys.messageIds.eq_of_key sourceKnown waitingKnown
      (by simpa using matched)
    subst same
    refine .inr ⟨draft, validated,
      shows_of_completed (wellFormed.blank source sourceKnown isPending) draft completedAt, ?_⟩
    -- A pending message had no citations, and every new one is its own.
    have none : before.dialogue.citations.filter (·.messageId = source.id) = [] := by
      rw [List.filter_eq_nil_iff]
      intro row rowKnown cites
      obtain ⟨cited, citedKnown, idEq, isCompleted⟩ :=
        wellFormed.orderly.citedCompleted row rowKnown
      have same := wellFormed.orderly.keys.messageIds.eq_of_key citedKnown sourceKnown
        (idEq.trans (by simpa using cites))
      rw [same, isPending] at isCompleted
      cases isCompleted
    have own : (citationRows source draft).filter (·.messageId = source.id) =
        citationRows source draft := by
      rw [List.filter_eq_self]
      intro row member
      obtain ⟨entry, _, rfl⟩ := List.mem_map.mp member
      simp
    change (before.dialogue.citations ++ citationRows source draft).filter
      (·.messageId = source.id) = citationRows source draft
    rw [List.filter_append, none, own, List.nil_append]

theorem answered_mono {earlier later : Dialogue} {ledger ledgerAfter : Ledger} {message : Message}
    (known : message ∈ earlier.messages) (isCompleted : message.state = .completed)
    (answered : earlier.Answered ledger message) (advances : earlier.Advances later)
    (grows : ledger.Grows ledgerAfter) : later.Answered ledgerAfter message := by
  obtain ⟨draft, validated, shows, cited⟩ := answered
  refine ⟨draft, grows.validations validated, shows, ?_⟩
  rw [advances.citations message known (by rw [isCompleted]; nofun), cited]

/-- Every step leaves completed messages answered. -/
theorem answered_of_step (wellFormed : before.WellFormed)
    (step : Tutor.Step data tables material before after) :
    ∀ message ∈ after.dialogue.messages, message.state = .completed →
      after.dialogue.Answered after.ledger message := by
  intro message known isCompleted
  have advances := advances_of_tutorStep wellFormed.orderly step
  have grows := grows_of_step step
  have old (stays : message ∈ before.dialogue.messages) :
      after.dialogue.Answered after.ledger message :=
    answered_mono stays isCompleted (wellFormed.answered message stays isCompleted) advances grows
  cases seen_of_step wellFormed step with
  | quiet effect => exact old (completed_known_of_effect effect nofun known isCompleted)
  | accepted settings who request readings accepted earlier later capture captured taken locked
      read course created ok =>
      have effect := (effect_of_accept ok).1
      rw [created] at effect
      exact old (completed_known_of_effect effect nofun known isCompleted)
  | completed messageId draft now completedAt validated ok =>
      rcases answered_of_complete wellFormed validated ok known with stays | answered
      · exact old stays
      · obtain ⟨draft, validated, rest⟩ := answered
        exact ⟨draft, grows.validations validated, rest⟩

/-- Every task was started for a created acceptance and stays justified. -/
theorem turns_of_step (wellFormed : before.WellFormed)
    (step : Tutor.Step data tables material before after) :
    ∀ turn ∈ after.turns, turn.accepted.created = true ∧
      turn.phase.Justified after.dialogue after.ledger turn.messageId := by
  have advances := advances_of_tutorStep wellFormed.orderly step
  have grows := grows_of_step step
  have old (turn : Turn) (stays : turn ∈ before.turns) : turn.accepted.created = true ∧
      turn.phase.Justified after.dialogue after.ledger turn.messageId :=
    ⟨wellFormed.created turn stays, (wellFormed.justified turn stays).mono advances grows⟩
  intro turn member
  cases step with
  | start earlier later accepted posted created =>
      rcases List.mem_append.mp member with stays | new
      · exact old turn stays
      · rw [List.mem_singleton.mp new]
        exact ⟨created, trivial⟩
  | turn earlier later accepted phase progress running advance =>
      have stays (other : Turn) (among : other ∈ earlier ∨ other ∈ later) :
          other ∈ before.turns := by
        rw [running]
        rcases among with inEarlier | inLater
        · exact List.mem_append_left _ inEarlier
        · exact List.mem_append_right _ (List.mem_cons_of_mem _ inLater)
      rcases List.mem_append.mp member with first | inLater
      · rcases List.mem_append.mp first with inEarlier | new
        · exact old turn (stays turn (.inl inEarlier))
        · have current : Turn.mk accepted phase ∈ before.turns := by simp [running]
          obtain ⟨next, isNext, rfl⟩ := Option.map_eq_some_iff.mp (Option.mem_toList.mp new)
          exact ⟨wellFormed.created ⟨accepted, phase⟩ current,
            justified_of_turnStep advance advances (wellFormed.justified _ current) next isNext⟩
      · exact old turn (stays turn (.inr inLater))
  | crash captures posts turns orphans fewerCaptures fewerPosts fewerTurns fewerOrphans =>
      exact old turn (fewerTurns.subset member)
  | _ => exact old turn member

theorem left_of_step (wellFormed : before.WellFormed)
    (step : Tutor.Step data tables material before after) :
    ∀ orphan ∈ after.orphans, orphan.Justified after.ledger := by
  have grows := grows_of_step step
  have old (orphan : Orphan) (stays : orphan ∈ before.orphans) : orphan.Justified after.ledger :=
    (wellFormed.left orphan stays).mono grows
  intro orphan member
  cases step with
  | turn earlier later accepted phase progress running advance =>
      rcases List.mem_append.mp member with stays | new
      · exact old orphan stays
      · have current : Turn.mk accepted phase ∈ before.turns := by simp [running]
        exact left_of_turnStep advance (wellFormed.justified _ current) orphan new
  | orphan earlier later left dialogue running commits =>
      refine old orphan ?_
      rw [running]
      rcases List.mem_append.mp member with inEarlier | inLater
      · exact List.mem_append_left _ inEarlier
      · exact List.mem_append_right _ (List.mem_cons_of_mem _ inLater)
  | crash captures posts turns orphans fewerCaptures fewerPosts fewerTurns fewerOrphans =>
      exact old orphan (fewerOrphans.subset member)
  | _ => exact old orphan member

/-- A step that invokes the model finds, before it, what an invocation needs. -/
theorem generated_before_step (wellFormed : before.WellFormed)
    (step : Tutor.Step data tables material before after) :
    ∀ entry ∈ after.ledger.generations, entry ∈ before.ledger.generations ∨
      Generated before.dialogue before.ledger entry.1 entry.2 := by
  intro entry member
  cases step with
  | turn earlier later accepted phase progress running advance =>
      have current : Turn.mk accepted phase ∈ before.turns := by simp [running]
      rcases generated_of_turnStep (wellFormed.created _ current) advance
          (wellFormed.justified _ current) entry member with old | ⟨_, new⟩
      · exact .inl old
      · exact .inr new
  | _ => exact .inl member

theorem ready_of_step (wellFormed : before.WellFormed)
    (step : Tutor.Step data tables material before after) :
    ∀ entry ∈ after.ledger.validations, after.dialogue.Ready entry.1 entry.2 := by
  have advances := advances_of_tutorStep wellFormed.orderly step
  have old (entry : UUID × TutorDraft) (stays : entry ∈ before.ledger.validations) :
      after.dialogue.Ready entry.1 entry.2 := (wellFormed.ready entry stays).mono advances
  intro entry member
  cases step with
  | turn earlier later accepted phase progress running advance =>
      have current : Turn.mk accepted phase ∈ before.turns := by simp [running]
      rcases ready_of_turnStep advance (wellFormed.justified _ current) entry member with
        stays | new
      · exact old entry stays
      · exact new.mono advances
  | _ => exact old entry member

/-- Every step keeps the invariant. -/
theorem wellFormed_of_step (wellFormed : before.WellFormed)
    (step : Tutor.Step data tables material before after) : after.WellFormed where
  orderly := orderly_of_tutorStep wellFormed.orderly step
  blank := by
    obtain ⟨change, effect⟩ := (seen_of_step wellFormed step).effect
    exact blank_of_effect effect wellFormed.blank
  retrievedOnce :=
    bounded_of_step spends_retrievals wellFormed.orderly wellFormed.retrievedOnce step
  generatedOnce :=
    bounded_of_step spends_generations wellFormed.orderly wellFormed.generatedOnce step
  validatedOnce :=
    bounded_of_step spends_validations wellFormed.orderly wellFormed.validatedOnce step
  created turn member := (turns_of_step wellFormed step turn member).1
  justified turn member := (turns_of_step wellFormed step turn member).2
  left := left_of_step wellFormed step
  generated entry member := by
    have advances := advances_of_tutorStep wellFormed.orderly step
    rcases generated_before_step wellFormed step entry member with old | new
    · exact (wellFormed.generated entry old).mono advances (grows_of_step step)
    · exact new.mono advances (grows_of_step step)
  ready := ready_of_step wellFormed step
  answered := answered_of_step wellFormed step

end Step

/-! ### Runs -/

/-- One step of one process, whatever the identity and material tables hold. -/
def TutorStep (data : ValidatorData) (before after : Tutor) : Prop :=
  ∃ tables material, Tutor.Step data tables material before after

/-- The invariant holds in every reachable state. -/
theorem wellFormed_of_reachable {data : ValidatorData} {tutor : Tutor}
    (reachable : Reachable Tutor.Initial (TutorStep data) tutor) : tutor.WellFormed := by
  refine reachable.holds (fun _ initial => wellFormed_of_initial initial) ?_
  intro before after wellFormed step
  obtain ⟨tables, material, step⟩ := step
  exact wellFormed_of_step wellFormed step

end Docta
