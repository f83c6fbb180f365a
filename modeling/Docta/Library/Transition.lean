/-
Module: Docta.Library.Transition
Purpose: Whole runs of a step relation: invariants of reachable states, and facts
  and relations that a run keeps.
Trusted boundary: none
Main exports: Reachable, Reachable.holds, run_preserves, run_relation
-/
import Mathlib.Logic.Relation

namespace Docta.Transition

variable {σ : Type}

/-- States a run from one of the start states leads to. -/
def Reachable (start : σ → Prop) (step : σ → σ → Prop) (state : σ) : Prop :=
  ∃ origin, start origin ∧ Relation.ReflTransGen step origin state

variable {start : σ → Prop} {step : σ → σ → Prop} {invariant : σ → Prop}

theorem Reachable.of_start {state : σ} (isStart : start state) : Reachable start step state :=
  ⟨state, isStart, .refl⟩

/-- One more step stays reachable. -/
theorem Reachable.tail {before after : σ} (reachable : Reachable start step before)
    (next : step before after) : Reachable start step after := by
  obtain ⟨origin, isStart, run⟩ := reachable
  exact ⟨origin, isStart, run.tail next⟩

/-- A run from a reachable state stays reachable. -/
theorem Reachable.run {before after : σ} (reachable : Reachable start step before)
    (run : Relation.ReflTransGen step before after) : Reachable start step after := by
  obtain ⟨origin, isStart, prior⟩ := reachable
  exact ⟨origin, isStart, prior.trans run⟩

/-- A property that holds at the start and is kept by every step holds in every
reachable state. -/
theorem Reachable.holds (initial : ∀ state, start state → invariant state)
    (preserved : ∀ before after, invariant before → step before after → invariant after)
    {state : σ} (reachable : Reachable start step state) : invariant state := by
  obtain ⟨origin, isStart, run⟩ := reachable
  induction run with
  | refl => exact initial origin isStart
  | tail _ next inductionHypothesis => exact preserved _ _ inductionHypothesis next

/-- A property kept by every step from a state where `invariant` holds, once
`invariant` itself is kept, holds along the whole run. -/
theorem run_preserves {property : σ → Prop}
    (kept : ∀ before after, invariant before → step before after → invariant after)
    (preserved : ∀ before after, invariant before → property before → step before after →
      property after)
    {before after : σ} (run : Relation.ReflTransGen step before after)
    (invariantBefore : invariant before) (propertyBefore : property before) :
    invariant after ∧ property after := by
  induction run with
  | refl => exact ⟨invariantBefore, propertyBefore⟩
  | tail _ next inductionHypothesis =>
      obtain ⟨invariantHere, propertyHere⟩ := inductionHypothesis
      exact ⟨kept _ _ invariantHere next, preserved _ _ invariantHere propertyHere next⟩

/-- A reflexive and transitive relation that every step from a good state obeys
relates the two ends of a run. -/
theorem run_relation {relation : σ → σ → Prop}
    (kept : ∀ before after, invariant before → step before after → invariant after)
    (reflexive : ∀ state, relation state state)
    (transitive : ∀ first second third, relation first second → relation second third →
      relation first third)
    (obeyed : ∀ before after, invariant before → step before after → relation before after)
    {before after : σ} (run : Relation.ReflTransGen step before after)
    (invariantBefore : invariant before) : relation before after := by
  have both : invariant after ∧ relation before after := by
    induction run with
    | refl => exact ⟨invariantBefore, reflexive _⟩
    | tail _ next inductionHypothesis =>
        obtain ⟨invariantHere, related⟩ := inductionHypothesis
        exact ⟨kept _ _ invariantHere next,
          transitive _ _ _ related (obeyed _ _ invariantHere next)⟩
  exact both.2

end Docta.Transition
