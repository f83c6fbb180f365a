/-
Module: Docta.Library.Lockstep
Purpose: Two runs of fallible computations in lockstep. They end alike when both
  return values that are related, or both raise one error; the rules follow the
  way computations are put together.
Trusted boundary: none
Main exports: Lockstep, Lockstep.bind, Lockstep.bind_eq, Lockstep.failIf, Lockstep.map_eq,
  Lockstep.map_iff, mapM_congr
-/
import Docta.Library.Fallible

namespace Docta.Fallible

variable {ε α β γ δ : Type}

/-- Both runs return related values, or both raise the same error. -/
inductive Lockstep (related : α → β → Prop) : Except ε α → Except ε β → Prop where
  | returns {first : α} {second : β} (pair : related first second) :
      Lockstep related (.ok first) (.ok second)
  | raises (error : ε) : Lockstep related (.error error) (.error error)

namespace Lockstep

variable {related : α → β → Prop} {first : Except ε α} {second : Except ε β}

/-- Sequencing: the second halves run in lockstep from related values. -/
theorem bind {after : γ → δ → Prop} {next : α → Except ε γ} {other : β → Except ε δ}
    (halves : Lockstep related first second)
    (rest : ∀ value image, related value image → Lockstep after (next value) (other image)) :
    Lockstep after (first >>= next) (second >>= other) := by
  cases halves with
  | returns pair => exact rest _ _ pair
  | raises error => exact .raises error

/-- Sequencing after equal runs. -/
theorem bind_eq {first second : Except ε α} {after : γ → δ → Prop} {next : α → Except ε γ}
    {other : α → Except ε δ} (same : first = second)
    (rest : ∀ value, first = .ok value → Lockstep after (next value) (other value)) :
    Lockstep after (first >>= next) (second >>= other) := by
  subst same
  cases first with
  | error error => exact .raises error
  | ok value => exact rest value rfl

/-- A guard on which the runs agree. -/
theorem failIf {condition opposite : Prop} [Decidable condition] [Decidable opposite] {error : ε}
    {after : γ → δ → Prop} {next : Except ε γ} {other : Except ε δ}
    (agree : condition ↔ opposite)
    (rest : ¬ condition → Lockstep after next other) :
    Lockstep after (Fallible.failIf condition error >>= fun _ => next)
      (Fallible.failIf opposite error >>= fun _ => other) := by
  unfold Fallible.failIf
  by_cases holds : condition
  · rw [if_pos holds, if_pos (agree.mp holds)]
    exact .raises error
  · rw [if_neg holds, if_neg (mt agree.mpr holds)]
    exact rest holds

/-- What an observer gets from related values is the same. -/
theorem map_eq {image : α → γ} {other : β → γ} (runs : Lockstep related first second)
    (observed : ∀ value partner, related value partner → image value = other partner) :
    image <$> first = other <$> second := by
  cases runs with
  | returns pair => exact congrArg Except.ok (observed _ _ pair)
  | raises error => rfl

/-- Runs related by a function: the second returns its image. -/
theorem map_iff {image : α → β} :
    Lockstep (fun value partner => image value = partner) first second ↔
      image <$> first = second := by
  constructor
  · intro runs
    cases runs with
    | returns pair => exact congrArg Except.ok pair
    | raises error => rfl
  · intro same
    subst same
    cases first with
    | error error => exact .raises error
    | ok value => exact .returns rfl

end Lockstep

/-- Traversals that agree on every item. -/
theorem mapM_congr {function other : α → Except ε β} {items : List α}
    (each : ∀ item ∈ items, function item = other item) :
    items.mapM function = items.mapM other := by
  induction items with
  | nil => rfl
  | cons item items inductionHypothesis =>
      rw [List.forall_mem_cons] at each
      rw [List.mapM_cons, List.mapM_cons, each.1, inductionHypothesis each.2]

end Docta.Fallible
