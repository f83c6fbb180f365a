/-
Module: Docta.World.System
Purpose: The whole system: the identity tables, the backend that publishes
  corpora, and the tutor that answers over them, with every process of both
  beside each other. The foreign keys of the conversation tables hold in every
  state.
Trusted boundary: identity rows that a conversation refers to are not deleted
Main exports: World, World.Step, World.Sound, sound_of_world,
  worldAdvances_of_run
-/
import Docta.Conversation.Generation
import Docta.Ingestion.Invariants

namespace Docta

open Table Fallible Transition ConversationService

/-- All tables, with the processes over them. -/
structure World where
  identity : Identity
  backend : Backend
  tutor : Tutor := {}

/-- Before any process started. -/
structure World.Initial (world : World) : Prop where
  identity : world.identity.Constraints
  backend : world.backend.Initial
  tutor : world.tutor.Initial

section Steps

variable (deployment : Deployment) (data : ValidatorData)

/-- One step of one process. -/
inductive World.Step : World → World → Prop where
  /-- Users and memberships change; a user who owns a conversation stays. -/
  | enrol (world : World) (identity : Identity) (constraints : identity.Constraints)
      (restricted : world.tutor.dialogue.References identity world.backend.material) :
      Step world { world with identity }
  | publish (world : World) (backend : Backend) (step : Backend.Step deployment world.backend backend) :
      Step world { world with backend }
  | tutor (world : World) (tutor : Tutor)
      (step : Tutor.Step data world.identity world.backend.material world.tutor tutor) :
      Step world { world with tutor }

end Steps

/-! ### Foreign keys -/

/-- The identity tables a call finds. -/
def Call.tables : Call → Identity
  | .create tables .. => tables
  | .accept _ _ tables .. => tables
  | .history tables .. => tables
  | .read tables .. => tables
  | .saveEvidence tables .. => tables
  | .complete tables .. => tables
  | .fail tables .. => tables
  | .expire tables .. => tables

section References

variable {tables : Identity} {material : Material} {dialogue after : Dialogue}

/-- What a call commits meets every constraint of the schema. -/
theorem constraints_of_result {call : Call} (ok : call.result dialogue = .ok after) :
    after.Constraints call.tables call.material := by
  cases call with
  | create tables material who courseId key freshId createdAt =>
      rcases map_eq_ok.mp ok with ⟨⟨shown, committed⟩, created, same⟩
      simp only [ConversationService.create, bind_eq_ok] at created
      rcases created with ⟨_, _, _, _, rest⟩
      split at rest
      · simp only [bind_eq_ok, pure_eq_ok, Dialogue.commit_eq_ok, Prod.mk.injEq] at rest
        rcases rest with ⟨_, ⟨constraints, rfl⟩, _, rfl⟩
        rw [← same]
        exact constraints
      · cases rest
  | accept settings unicode tables material who request readings =>
      rcases map_eq_ok.mp ok with ⟨⟨shown, committed⟩, accepted, same⟩
      rw [← same]
      simp only [ConversationService.accept, bind_eq_ok] at accepted
      rcases accepted with ⟨_, _, _, _, rest⟩
      split at rest
      · simp only [bind_eq_ok, pure_eq_ok, Dialogue.commit_eq_ok, Prod.mk.injEq] at rest
        rcases rest with ⟨_, _, _, _, _, ⟨constraints, rfl⟩, _, rfl⟩
        exact constraints
      · simp only [acceptNew, bind_eq_ok, pure_eq_ok, Dialogue.commit_eq_ok, Prod.mk.injEq] at rest
        rcases rest with ⟨_, _, _, _, _, ⟨constraints, rfl⟩, _, _, _, rfl⟩
        exact constraints
  | history tables material who conversationId afterSequence limit clock completed =>
      rcases map_eq_ok.mp ok with ⟨⟨shown, committed⟩, listed, same⟩
      rw [← same]
      simp only [ConversationService.history, bind_eq_ok, pure_eq_ok, Dialogue.commit_eq_ok,
        Prod.mk.injEq] at listed
      rcases listed with ⟨_, _, _, _, _, ⟨constraints, rfl⟩, _, rfl⟩
      exact constraints
  | read tables material who conversationId messageId clock completed =>
      rcases map_eq_ok.mp ok with ⟨⟨shown, committed⟩, shownOk, same⟩
      rw [← same]
      simp only [ConversationService.read, bind_eq_ok] at shownOk
      rcases shownOk with ⟨_, _, rest⟩
      split at rest
      · simp only [bind_eq_ok, pure_eq_ok, Dialogue.commit_eq_ok, Prod.mk.injEq] at rest
        rcases rest with ⟨_, _, _, ⟨constraints, rfl⟩, _, rfl⟩
        exact constraints
      · cases rest
  | saveEvidence tables material messageId evidence now =>
      rcases saveEvidence_eq_ok ok with ⟨_, _, _, _, _, rfl, constraints⟩
      exact constraints
  | complete tables material messageId draft now completedAt =>
      rcases complete_eq_ok ok with ⟨_, _, _, _, _, rfl, constraints⟩
      exact constraints
  | fail tables material messageId code completedAt =>
      rcases Dialogue.commit_eq_ok.mp ok with ⟨constraints, rfl⟩
      exact constraints
  | expire tables material clock completed =>
      rcases Dialogue.commit_eq_ok.mp ok with ⟨constraints, rfl⟩
      exact constraints

/-- A call made beside the turns keeps the foreign keys, whether it raises or not. -/
theorem references_of_beside {call : Call} (isBeside : call.isBeside tables material)
    (references : dialogue.References tables material) :
    (call.run dialogue).References tables material := by
  have found : call.tables = tables ∧ call.material = material := by
    cases call with
    | create => exact isBeside
    | history => exact isBeside
    | read => exact isBeside
    | expire => exact isBeside
    | _ => exact isBeside.elim
  unfold Call.run
  split
  · rename_i committed ok
    have constraints := constraints_of_result ok
    rw [found.1, found.2] at constraints
    exact constraints.2
  · exact references

/-- A step of the tutor keeps the foreign keys. -/
theorem references_of_tutorStep {data : ValidatorData} {before next : Tutor}
    (step : Tutor.Step data tables material before next)
    (references : before.dialogue.References tables material) :
    next.dialogue.References tables material := by
  have ofCall (call : Call) (ok : call.result before.dialogue = .ok next.dialogue) :
      next.dialogue.References call.tables call.material := (constraints_of_result ok).2
  cases step with
  | accept settings who request readings accepted dialogue earlier later capture captured locked
      read course created ok =>
      exact ofCall (.accept settings data.unicode tables material who request readings)
        (map_eq_ok.mpr ⟨_, ok, rfl⟩)
  | acceptAgain settings who request readings accepted dialogue repeated ok =>
      exact ofCall (.accept settings data.unicode tables material who request readings)
        (map_eq_ok.mpr ⟨_, ok, rfl⟩)
  | turn earlier later accepted phase progress running advance =>
      cases advance with
      | save request evidence now saved ok =>
          exact ofCall (.saveEvidence tables material accepted.message.id evidence now) ok
      | complete draft now completedAt completed ok =>
          exact ofCall (.complete tables material accepted.message.id draft now completedAt) ok
      | fail code completedAt failed ok =>
          exact ofCall (.fail tables material accepted.message.id code completedAt) ok
      | _ => exact references
  | orphan earlier later left dialogue running commits =>
      cases commits with
      | saveEvidence messageId evidence now saved ok =>
          exact ofCall (.saveEvidence tables material messageId evidence now) ok
      | complete messageId draft now completedAt completed ok =>
          exact ofCall (.complete tables material messageId draft now completedAt) ok
      | fail messageId code completedAt failed ok =>
          exact ofCall (.fail tables material messageId code completedAt) ok
  | beside call isBeside => exact references_of_beside isBeside references
  | _ => exact references

/-- Courses are never removed. -/
theorem courses_of_write {worker : IngestionWorker.Settings} {before later : Material}
    {successes : List Success} (write : Write worker before successes later) :
    ∀ course ∈ before.courses, ∃ same ∈ later.courses, same.id = course.id := by
  cases write with
  | courseCreated course first inactive =>
      exact fun row known => ⟨row, List.mem_append_left _ known, rfl⟩
  | activated courseId corpusId expectedCourseVersion ready =>
      exact @advance_updateWhere Course (fun row same => same.id = row.id) _ _ _ (fun _ => rfl)
        fun _ _ _ => rfl
  | _ => exact fun row known => ⟨row, known, rfl⟩

/-- A write of the backend keeps the foreign keys. -/
theorem references_of_write {worker : IngestionWorker.Settings} {before later : Material}
    {successes : List Success} (constraints : before.Constraints)
    (write : Write worker before successes later) (references : dialogue.References tables before) :
    dialogue.References tables later := by
  have advances := advances_of_write constraints write
  refine { references with conversationCourse := ?_, messageCorpus := ?_, evidenceChunk := ?_ }
  · intro row known
    rcases references.conversationCourse row known with ⟨course, courseKnown, idEq⟩
    rcases courses_of_write write course courseKnown with ⟨same, sameKnown, sameId⟩
    exact ⟨same, sameKnown, sameId.trans idEq⟩
  · intro row known corpusId isCaptured
    rcases references.messageCorpus row known corpusId isCaptured with ⟨corpus, corpusKnown, rest⟩
    exact ⟨corpus, advances.corpora.subset corpusKnown, rest⟩
  · intro row known
    rcases references.evidenceChunk row known with ⟨chunk, chunkKnown, rest⟩
    exact ⟨chunk, advances.chunks.subset chunkKnown, rest⟩

end References

/-! ### The invariant -/

/-- The invariant of the whole system. -/
structure World.Sound (deployment : Deployment) (world : World) : Prop where
  identity : world.identity.Constraints
  backend : world.backend.Sound deployment
  tutor : world.tutor.WellFormed
  references : world.tutor.dialogue.References world.identity world.backend.material

section Preservation

variable {deployment : Deployment} {data : ValidatorData} {world after : World}

theorem sound_of_worldInitial (initial : world.Initial) : world.Sound deployment where
  identity := initial.identity
  backend := sound_of_initial initial.backend
  tutor := wellFormed_of_initial initial.tutor
  references := by
    have empty := initial.tutor
    rw [Tutor.Initial] at empty
    rw [empty]
    exact ⟨List.forall_mem_nil _, List.forall_mem_nil _, List.forall_mem_nil _,
      List.forall_mem_nil _⟩

theorem sound_of_worldStep (sound : world.Sound deployment)
    (step : world.Step deployment data after) : after.Sound deployment := by
  cases step with
  | enrol identity constraints restricted =>
      exact { sound with identity := constraints, references := restricted }
  | publish backend step =>
      rcases write_of_step sound.backend step with ⟨_, write, _, _⟩
      exact
        { sound with
          backend := sound_of_step sound.backend step
          references :=
            references_of_write sound.backend.coherent.constraints write sound.references }
  | tutor tutor step =>
      exact
        { sound with
          tutor := wellFormed_of_step sound.tutor step
          references := references_of_tutorStep step sound.references }

/-- Every reachable world is sound. -/
theorem sound_of_world (reachable : Reachable World.Initial (World.Step deployment data) world) :
    world.Sound deployment :=
  reachable.holds (fun _ initial => sound_of_worldInitial initial)
    fun _ _ sound step => sound_of_worldStep sound step

/-- The conversation tables see a step of the world as service calls. -/
theorem dialogue_of_worldStep (sound : world.Sound deployment)
    (step : world.Step deployment data after) :
    world.tutor.dialogue.Advances after.tutor.dialogue := by
  cases step with
  | enrol identity constraints restricted => exact .refl _
  | publish backend step => exact .refl _
  | tutor tutor step =>
      rcases serviceStep_of_step step with same | serviceStep
      · rw [same]
        exact .refl _
      · exact advances_of_step sound.tutor.orderly serviceStep

/-- Along a run the messages of the conversation tables only advance. -/
theorem worldAdvances_of_run (sound : world.Sound deployment)
    (run : Relation.ReflTransGen (World.Step deployment data) world after) :
    after.Sound deployment ∧ world.tutor.dialogue.Advances after.tutor.dialogue := by
  induction run with
  | refl => exact ⟨sound, .refl _⟩
  | tail _ step inductionHypothesis =>
      exact ⟨sound_of_worldStep inductionHypothesis.1 step,
        inductionHypothesis.2.trans (dialogue_of_worldStep inductionHypothesis.1 step)⟩

end Preservation

end Docta
