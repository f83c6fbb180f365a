/-
Module: Docta.World.Admission
Purpose: When the database admits what a service inserts. An insert under a fresh
  identifier is refused for reasons in the rows of its own course or conversation
  only.
Trusted boundary: none
Main exports: create_of_member, constraints_newMessage_iff, Material.confirmedWith,
  constraints_confirmedWith_iff, dispatched_confirmedWith
-/
import Docta.Conversation.Antecedents
import Docta.Ingestion.Delivery
import Docta.World.Publication

namespace Docta

open Table Fallible ConversationService DocumentService

variable {identity : Identity} {material : Material} {dialogue : Dialogue}

/-! ### Conversations -/

/-- A new conversation needs its course. -/
theorem constraints_created_iff (constraints : dialogue.Constraints identity material)
    {conversation : Conversation}
    (fresh : ∀ row ∈ dialogue.conversations, row.id ≠ conversation.id)
    (newKey : ∀ row ∈ dialogue.conversations,
      (row.courseId, row.ownerUserId, row.idempotencyKey) ≠
        (conversation.courseId, conversation.ownerUserId, conversation.idempotencyKey))
    (owner : ∃ user ∈ identity.users, user.id = conversation.ownerUserId) :
    Dialogue.Constraints identity material
        { dialogue with conversations := dialogue.conversations ++ [conversation] } ↔
      ∃ course ∈ material.courses, course.id = conversation.courseId := by
  obtain ⟨keys, references⟩ := constraints
  constructor
  · rintro ⟨_, created⟩
    exact created.conversationCourse conversation
      (List.mem_append_right _ (List.mem_singleton_self _))
  · intro course
    refine ⟨{ keys with
      conversationIds := uniqueOn_append_singleton.mpr ⟨keys.conversationIds, fresh⟩
      conversationCreation := uniqueOn_append_singleton.mpr ⟨keys.conversationCreation, newKey⟩
      messageConversation := ?_ }, { references with
      conversationCourse := ?_
      conversationOwner := ?_ }⟩
    · intro row member
      obtain ⟨own, known, isOwn⟩ := keys.messageConversation row member
      exact ⟨own, List.mem_append_left _ known, isOwn⟩
    · exact List.forall_mem_append.mpr
        ⟨references.conversationCourse, List.forall_mem_singleton.mpr course⟩
    · exact List.forall_mem_append.mpr
        ⟨references.conversationOwner, List.forall_mem_singleton.mpr owner⟩

/-- A row that an earlier `create` inserted under the key. -/
def isCreation (courseId userId : UUID) (key : String) (row : Conversation) : Bool :=
  row.courseId == courseId && row.ownerUserId == userId && row.idempotencyKey == key

/-- What `create` answers a member: the conversation of an earlier call, or a new one
where the course is. -/
theorem create_of_member (constraints : dialogue.Constraints identity material)
    {who : AuthenticatedIdentity} {courseId userId : UUID} {text : Option String} {key : String}
    {freshId : UUID} {createdAt : Time} (valid : idempotencyKey text = .ok key)
    (isMember : member identity who courseId = .ok userId)
    (owner : ∃ user ∈ identity.users, user.id = userId)
    (fresh : ∀ row ∈ dialogue.conversations, row.id ≠ freshId) :
    Prod.fst <$> create identity material who courseId text freshId createdAt dialogue =
      match dialogue.conversations.find? (isCreation courseId userId key) with
      | some earlier =>
          .ok { id := earlier.id, courseId := earlier.courseId, createdAt := earlier.createdAt }
      | none =>
          if ∃ course ∈ material.courses, course.id = courseId then
            .ok { id := freshId, courseId, createdAt }
          else .error .integrity := by
  unfold create
  rw [valid, ok_bind, isMember, ok_bind]
  cases found : dialogue.conversations.find? (isCreation courseId userId key) with
  | some earlier =>
      have known : dialogue.conversations.any (isCreation courseId userId key) = true := by
        rw [← List.isSome_find?, found]
        rfl
      unfold isCreation at known found
      simp only [if_pos known, found, Dialogue.commit, if_pos constraints]
      rfl
  | none =>
      have new : ¬ dialogue.conversations.any (isCreation courseId userId key) = true := by
        rw [← List.isSome_find?, found]
        exact Bool.false_ne_true
      have admitted := @constraints_created_iff identity material dialogue constraints
        { id := freshId, courseId, ownerUserId := userId, idempotencyKey := key, createdAt } fresh
        (fun row member same => new (List.any_eq_true.mpr ⟨row, member, by
          rw [Prod.mk.injEq, Prod.mk.injEq] at same
          simp [isCreation, same]⟩)) owner
      have inserted : (dialogue.conversations ++
          [({ id := freshId, courseId, ownerUserId := userId, idempotencyKey := key,
              createdAt } : Conversation)]).find? (isCreation courseId userId key) =
            some { id := freshId, courseId, ownerUserId := userId, idempotencyKey := key,
                   createdAt } := by
        rw [List.find?_append, found]
        simp [isCreation]
      unfold isCreation at new inserted
      simp only [if_neg new, inserted, Dialogue.commit]
      by_cases course : ∃ course ∈ material.courses, course.id = courseId
      · rw [if_pos (admitted.mpr course), if_pos course]
        rfl
      · rw [if_neg (mt admitted.mp course), if_neg course]
        rfl

/-! ### Messages -/

/-- The checks of a message do not look at its identifier. -/
theorem Message.checks_withId {message : Message} {id : UUID} :
    ({ message with id } : Message).Checks ↔ message.Checks := by
  rw [Message.checks_iff, Message.checks_iff]
  exact Iff.rfl

section Inserted

variable {conversation : Conversation} {message : Message}

theorem forall_insertMessage {property : Message → Prop}
    (old : ∀ row ∈ dialogue.messages, property row) (added : property message) :
    ∀ row ∈ (insertMessage dialogue conversation message).messages, property row :=
  List.forall_mem_append.mpr ⟨old, List.forall_mem_singleton.mpr added⟩

/-- An insert advances the sequence of a conversation and no other column of it. -/
theorem forall_conversation_insertMessage {property : Conversation → Prop}
    (fixed : ∀ row nextSequence, property row → property { row with nextSequence })
    (old : ∀ row ∈ dialogue.conversations, property row) :
    ∀ row ∈ (insertMessage dialogue conversation message).conversations, property row := by
  intro row member
  rcases mem_updateWhere_cases member with ⟨stays, _⟩ | ⟨source, known, _, rfl⟩
  · exact old row stays
  · exact fixed source _ (old source known)

theorem uniqueOn_insertMessage {β : Type} [DecidableEq β] {key : Conversation → β}
    (fixed : ∀ row nextSequence, key { row with nextSequence } = key row)
    (unique : UniqueOn key dialogue.conversations) :
    UniqueOn key (insertMessage dialogue conversation message).conversations :=
  (uniqueOn_updateWhere fun row _ _ => fixed row _).mpr unique

theorem exists_conversation_insertMessage {courseId conversationId : UUID}
    (found : ∃ row ∈ dialogue.conversations, row.courseId = courseId ∧ row.id = conversationId) :
    ∃ row ∈ (insertMessage dialogue conversation message).conversations,
      row.courseId = courseId ∧ row.id = conversationId := by
  obtain ⟨row, known, sameCourse, sameId⟩ := found
  obtain ⟨later, laterKnown, laterCourse, laterId⟩ :=
    @advance_updateWhere Conversation
      (fun row later => later.courseId = row.courseId ∧ later.id = row.id) dialogue.conversations
      (·.id == conversation.id)
      (fun row => { row with nextSequence := conversation.nextSequence + 1 })
      (fun _ => ⟨rfl, rfl⟩) (fun _ _ _ => ⟨rfl, rfl⟩) row known
  exact ⟨later, laterKnown, laterCourse.trans sameCourse, laterId.trans sameId⟩

/-- An idle conversation has one pending message after the insert. -/
theorem onePending_insertMessage (keys : dialogue.Keys) (pending : message.state = .pending)
    (idle : ∀ row ∈ dialogue.messages, row.conversationId = message.conversationId →
      row.state ≠ .pending) :
    UniqueOn (·.conversationId)
      ((insertMessage dialogue conversation message).messages.filter (·.isPending)) := by
  have isPending : message.isPending = true := by
    rw [Message.isPending, pending]
    rfl
  have added : (insertMessage dialogue conversation message).messages.filter (·.isPending) =
      dialogue.messages.filter (·.isPending) ++ [message] := by
    rw [insertMessage, List.filter_append, List.filter_singleton, isPending]
    rfl
  rw [added]
  refine uniqueOn_append_singleton.mpr ⟨keys.onePending, fun row member same => ?_⟩
  obtain ⟨known, rowPending⟩ := List.mem_filter.mp member
  exact idle row known same (beq_iff_eq.mp rowPending)

/-- A new message of an idle conversation under a new key needs its own checks and
a free sequence. -/
theorem constraints_insertMessage_iff (constraints : dialogue.Constraints identity material)
    (known : conversation ∈ dialogue.conversations)
    (course : message.courseId = conversation.courseId)
    (own : message.conversationId = conversation.id) (pending : message.state = .pending)
    (fresh : ∀ row ∈ dialogue.messages, row.id ≠ message.id)
    (newKey : ∀ row ∈ dialogue.messages, row.conversationId = conversation.id →
      row.idempotencyKey ≠ message.idempotencyKey)
    (idle : ∀ row ∈ dialogue.messages, row.conversationId = conversation.id → row.state ≠ .pending)
    (parent : message.kind = .action → ∀ parentId ∈ message.parentMessageId,
      ∃ row ∈ dialogue.messages, row.conversationId = conversation.id ∧ row.id = parentId)
    (corpus : ∀ corpusId ∈ message.corpusVersionId, ∃ row ∈ material.corpusVersions,
      row.courseId = conversation.courseId ∧ row.id = corpusId) :
    (insertMessage dialogue conversation message).Constraints identity material ↔
      message.Checks ∧ ∀ row ∈ dialogue.messages, row.conversationId = conversation.id →
        row.sequence ≠ message.sequence := by
  obtain ⟨keys, references⟩ := constraints
  have keeps {property : Message → Prop}
      (found : ∃ row ∈ dialogue.messages, property row) :
      ∃ row ∈ (insertMessage dialogue conversation message).messages, property row := by
    obtain ⟨row, rowKnown, holds⟩ := found
    exact ⟨row, List.mem_append_left _ rowKnown, holds⟩
  rw [← own] at newKey idle parent ⊢
  constructor
  · rintro ⟨inserted, _⟩
    refine ⟨inserted.messageChecks message (List.mem_append_right _ (List.mem_singleton_self _)),
      fun row member inConversation same => ?_⟩
    exact (uniqueOn_append_singleton.mp inserted.messageSequence).2 row member
      (Prod.ext inConversation same)
  · rintro ⟨checks, free⟩
    refine ⟨{ keys with
      conversationIds := uniqueOn_insertMessage (fun _ _ => rfl) keys.conversationIds
      conversationCreation := uniqueOn_insertMessage (fun _ _ => rfl) keys.conversationCreation
      messageIds := uniqueOn_append_singleton.mpr ⟨keys.messageIds, fresh⟩
      messageIdempotency := uniqueOn_append_singleton.mpr ⟨keys.messageIdempotency,
        fun row member same => newKey row member (Prod.mk.inj same).1 (Prod.mk.inj same).2⟩
      messageSequence := uniqueOn_append_singleton.mpr ⟨keys.messageSequence,
        fun row member same => free row member (Prod.mk.inj same).1 (Prod.mk.inj same).2⟩
      onePending := onePending_insertMessage keys pending idle
      messageConversation := forall_insertMessage
        (fun row member => exists_conversation_insertMessage (keys.messageConversation row member))
        (exists_conversation_insertMessage ⟨conversation, known, course.symm, own.symm⟩)
      messageParent := forall_insertMessage
        (fun row member parentId isParent =>
          keeps (keys.messageParent row member parentId isParent))
        ?_
      messageChecks := forall_insertMessage keys.messageChecks checks
      evidenceMessage := fun row member => keeps (keys.evidenceMessage row member) },
      { references with
        conversationCourse := forall_conversation_insertMessage (fun _ _ held => held)
          references.conversationCourse
        conversationOwner := forall_conversation_insertMessage (fun _ _ held => held)
          references.conversationOwner
        messageCorpus := forall_insertMessage references.messageCorpus (course ▸ corpus) }⟩
    intro parentId isParent
    -- Only an action passes the checks with a parent.
    have action : message.kind = .action := by
      refine checks.parent.mpr fun absent => ?_
      rw [absent] at isParent
      cases isParent
    exact keeps (parent action parentId isParent)

end Inserted

/-- The row that `accept` inserts needs its own checks and a free sequence. -/
theorem constraints_newMessage_iff (constraints : dialogue.Constraints identity material)
    (materialConstraints : material.Constraints) (settings : ConversationService.Settings)
    (readings : Readings) {unicode : Text.UnicodeData} {conversation : Conversation}
    {request : Question} {key : String} {turn : Continuity}
    (known : conversation ∈ dialogue.conversations)
    (fresh : ∀ row ∈ dialogue.messages, row.id ≠ readings.messageId)
    (unused : ∀ row ∈ dialogue.messages, row.conversationId = conversation.id →
      row.idempotencyKey ≠ key)
    (idle : ∀ row ∈ dialogue.messages, row.conversationId = conversation.id → row.state ≠ .pending)
    (continued : continuity unicode dialogue conversation request.question request.kind
      request.intent request.parentMessageId = .ok turn)
    (captured : readings.corpusId = captureCorpus material conversation.courseId) :
    (insertMessage dialogue conversation
        (newMessage settings conversation request key turn readings)).Constraints identity
          material ↔
      (newMessage settings conversation request key turn readings).Checks ∧
        ∀ row ∈ dialogue.messages, row.conversationId = conversation.id →
          row.sequence ≠ conversation.nextSequence := by
  refine constraints_insertMessage_iff constraints known rfl rfl rfl fresh unused idle ?_ ?_
  · intro action parentId isParent
    have derived := continued_of_continuity constraints.1 continued
    cases derived with
    | action intent parent isAction parentKnown named ofConversation isCompleted =>
        have isNamed : some parentId = some parent.id :=
          (Option.mem_def.mp isParent).symm.trans named
        cases isNamed
        exact ⟨parent, parentKnown, ofConversation, rfl⟩
    | question => cases action
    | followup => cases action
    | ambiguous => cases action
  · intro corpusId isCorpus
    have isActive := captured.symm.trans (Option.mem_def.mp isCorpus)
    obtain ⟨_, _, _, _, corpus, published, isCorpusId, ofCourse, _⟩ :=
      (captureCorpus_eq_some materialConstraints).mp isActive
    exact ⟨corpus, published, ofCourse, isCorpusId⟩

/-! ### Jobs -/

/-- The tables a confirmation writes before it dispatches the job. -/
def Material.confirmedWith (material : Material) (version : DocumentVersion) (key hash : String)
    (metadata : StoredObjectMetadata) (job : IngestionJob) : Material :=
  { material with
    documentVersions := updateWhere material.documentVersions (·.id == version.id)
      (confirmedVersion key hash metadata)
    ingestionJobs := material.ingestionJobs ++ [job] }

section Jobs

variable {version : DocumentVersion} {key hash : String} {metadata : StoredObjectMetadata}
  {job : IngestionJob}

/-- A confirmation needs the checks of the two rows it writes, and no job of the
version in the same pipeline. -/
theorem constraints_confirmedWith_iff (constraints : material.Constraints)
    (known : version ∈ material.documentVersions) (course : job.courseId = version.courseId)
    (own : job.documentVersionId = version.id)
    (fresh : ∀ row ∈ material.ingestionJobs, row.id ≠ job.id) :
    (material.confirmedWith version key hash metadata job).Constraints ↔
      (confirmedVersion key hash metadata version).Checks ∧ job.Checks ∧
        ∀ row ∈ jobsOf material version.id,
          (row.jobType, row.pipelineVersion) ≠ (job.jobType, job.pipelineVersion) := by
  constructor
  · intro written
    refine ⟨written.versionChecks _ (mem_updateWhere_of_matched known (beq_self_eq_true _)),
      written.jobChecks job (List.mem_append_right _ (List.mem_singleton_self _)), ?_⟩
    intro row member same
    obtain ⟨rowKnown, isOwn⟩ := List.mem_filter.mp member
    refine (uniqueOn_append_singleton.mp written.logicalJobs).2 row rowKnown ?_
    rw [Prod.mk.injEq] at same
    rw [same.1, same.2, own, beq_iff_eq.mp isOwn]
  · rintro ⟨versionChecks, jobChecks, newJob⟩
    have moved : Material.Constraints { material with
        documentVersions := updateWhere material.documentVersions (·.id == version.id)
          (confirmedVersion key hash metadata) } := by
      have kept := @Material.Constraints.moved material constraints (·.id == version.id)
        (confirmedVersion key hash metadata) (fun _ => false) (fun row => row) material.outboxEvents
        (fun row rowKnown matched => by
          rw [constraints.versionIds.eq_of_key rowKnown known (beq_iff_eq.mp matched)]
          exact ⟨rfl, versionChecks⟩)
        (fun _ _ never => by cases never) constraints.eventIds constraints.eventKinds
        constraints.eventJob
      rwa [updateWhere_eq_self fun _ _ => rfl] at kept
    exact { moved with
      jobIds := uniqueOn_append_singleton.mpr ⟨constraints.jobIds, fresh⟩
      logicalJobs := uniqueOn_append_singleton.mpr ⟨constraints.logicalJobs, by
        intro row member same
        rw [Prod.mk.injEq, Prod.mk.injEq, own] at same
        refine newJob row (List.mem_filter.mpr ⟨member, beq_iff_eq.mpr same.2.1⟩) ?_
        rw [same.1, same.2.2]⟩
      jobChecks := List.forall_mem_append.mpr
        ⟨constraints.jobChecks, List.forall_mem_singleton.mpr jobChecks⟩
      jobVersion := List.forall_mem_append.mpr ⟨moved.jobVersion, List.forall_mem_singleton.mpr
        ⟨confirmedVersion key hash metadata version,
          mem_updateWhere_of_matched known (beq_self_eq_true _), course.symm, own.symm⟩⟩
      eventJob := fun row member => by
        obtain ⟨found, foundKnown, isFound⟩ := constraints.eventJob row member
        exact ⟨found, List.mem_append_left _ foundKnown, isFound⟩ }

/-- The versions and the jobs that are read after a confirmation. -/
theorem versionsAt_confirmedWith (events : List OutboxEvent) (path : VersionPath) :
    versionsAt { material.confirmedWith version key hash metadata job with outboxEvents := events }
        path =
      updateWhere (versionsAt material path) (·.id == version.id)
        (confirmedVersion key hash metadata) :=
  filter_updateWhere fun _ _ _ => rfl

theorem jobsOf_confirmedWith (events : List OutboxEvent) (versionId : UUID) :
    jobsOf { material.confirmedWith version key hash metadata job with outboxEvents := events }
        versionId =
      jobsOf material versionId ++ if job.documentVersionId == versionId then [job] else [] := by
  unfold jobsOf Material.confirmedWith
  rw [List.filter_append, List.filter_singleton]
  cases job.documentVersionId == versionId with
  | true => rfl
  | false => rfl

/-- Dispatching the job under a fresh identifier adds no reason to refuse. -/
theorem dispatched_confirmedWith {stamp : Stamp}
    (fresh : ∀ row ∈ material.outboxEvents, row.id ≠ stamp.id) :
    ((material.confirmedWith version key hash metadata job).commit >>= fun flushed =>
        Material.commit { flushed with
          outboxEvents := OutboxJobDispatcher.dispatch stamp job flushed.outboxEvents }) =
      if (material.confirmedWith version key hash metadata job).Constraints then
        .ok { material.confirmedWith version key hash metadata job with
          outboxEvents := OutboxJobDispatcher.dispatch stamp job material.outboxEvents }
      else .error .integrity := by
  unfold Material.commit
  by_cases written : (material.confirmedWith version key hash metadata job).Constraints
  · rw [if_pos written, if_pos written, ok_bind]
    obtain ⟨eventIds, eventKinds, eventJob⟩ := @Material.Constraints.inserted _ written
      { id := stamp.id, courseId := job.courseId, jobId := job.id, kind := .ingestion
        availableAt := stamp.now, createdAt := stamp.now }
      fresh ⟨job, List.mem_append_right _ (List.mem_singleton_self _), rfl, rfl⟩
    exact if_pos { written with eventIds, eventKinds, eventJob }
  · rw [if_neg written, if_neg written]
    rfl

end Jobs

end Docta
