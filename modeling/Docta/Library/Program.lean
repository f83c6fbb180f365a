/-
Module: Docta.Library.Program
Purpose: Programs that act on a world one effect at a time, and that may be
  stopped before or after any of their effects. `Executes` is such an execution,
  complete or cut; `Ensures` asks an assertion of every world an execution
  passes through and another of where it ends.
Trusted boundary: none
Main exports: Program, Executes, run, Ensures, ensures_bind, Ensures.of_executes
-/
import Mathlib.Logic.Basic

namespace Docta

/-- A program: it returns, raises, or performs an effect and goes on with the
effect's reply. -/
inductive Program (Effect : Type) (Reply : Effect → Type) (Error α : Type) : Type where
  | ret (value : α)
  | raise (error : Error)
  | perform (effect : Effect) (next : Reply effect → Program Effect Reply Error α)

namespace Program

variable {Effect : Type} {Reply : Effect → Type} {Error α β σ : Type}

/-- Sequence: an error ends the whole program. -/
def bind : Program Effect Reply Error α → (α → Program Effect Reply Error β) →
    Program Effect Reply Error β
  | .ret value, next => next value
  | .raise error, _ => .raise error
  | .perform effect rest, next => .perform effect fun reply => (rest reply).bind next

instance : Monad (Program Effect Reply Error) where
  pure := .ret
  bind := bind

/-- One effect. -/
def call (effect : Effect) : Program Effect Reply Error (Reply effect) :=
  .perform effect .ret

/-- A computation without effects. -/
def ofExcept : Except Error α → Program Effect Reply Error α
  | .ok value => .ret value
  | .error error => .raise error

/-- The statement `if condition: raise error`. -/
def raiseIf (condition : Prop) [Decidable condition] (error : Error) :
    Program Effect Reply Error Unit :=
  if condition then .raise error else .ret ()

/-- The body of a `try`: its error becomes a result that a handler inspects. -/
def attempt : Program Effect Reply Error α → Program Effect Reply Error (Except Error α)
  | .ret value => .ret (.ok value)
  | .raise error => .ret (.error error)
  | .perform effect next => .perform effect fun reply => (next reply).attempt

/-! ### Executions -/

/-- What an effect may reply in a world, and the world it leaves. -/
abbrev Action (Effect : Type) (Reply : Effect → Type) (σ : Type) : Type :=
  (effect : Effect) → σ → Reply effect → σ → Prop

/-- An execution from a program and a world to the program that is left and the
world it finds.  It is complete when the program left returns or raises, and cut
otherwise. -/
inductive Executes (act : Action Effect Reply σ) :
    Program Effect Reply Error α → σ → Program Effect Reply Error α → σ → Prop where
  | stop {program : Program Effect Reply Error α} {world : σ} :
      Executes act program world program world
  | act {effect : Effect} {next : Reply effect → Program Effect Reply Error α}
      {rest : Program Effect Reply Error α} {before between after : σ} {reply : Reply effect}
      (acted : act effect before reply between)
      (executed : Executes act (next reply) between rest after) :
      Executes act (.perform effect next) before rest after

/-- The first effects of a program, `count` at most, each answered by `serve`. -/
def play (serve : (effect : Effect) → σ → Reply effect × σ) :
    Nat → Program Effect Reply Error α → σ → Program Effect Reply Error α × σ
  | count + 1, .perform effect next, world =>
      play serve count (next (serve effect world).1) (serve effect world).2
  | _, program, world => (program, world)

/-- The whole program, each of its effects answered by `serve`: what it ends with. -/
def run (serve : (effect : Effect) → σ → Reply effect × σ) :
    Program Effect Reply Error α → σ → Except Error α × σ
  | .ret value, world => (.ok value, world)
  | .raise error, world => (.error error, world)
  | .perform effect next, world =>
      run serve (next (serve effect world).1) (serve effect world).2

/-- A program that ended. -/
def ended : Except Error α → Program Effect Reply Error α
  | .ok value => .ret value
  | .error error => .raise error

/-- Every effect of the program leaves a world where `during` holds, and the
program ends, returning or raising, only where `outcome` holds. -/
def Ensures (act : Action Effect Reply σ) (during : σ → Prop)
    (outcome : Except Error α → σ → Prop) : Program Effect Reply Error α → σ → Prop
  | .ret value, world => outcome (.ok value) world
  | .raise error, world => outcome (.error error) world
  | .perform effect next, world => ∀ reply after, act effect world reply after →
      during after ∧ Ensures act during outcome (next reply) after

variable {act : Action Effect Reply σ} {during : σ → Prop}
  {outcome : Except Error α → σ → Prop} {world : σ}

theorem executes_play {serve : (effect : Effect) → σ → Reply effect × σ}
    (serves : ∀ effect world, act effect world (serve effect world).1 (serve effect world).2)
    (count : Nat) (program : Program Effect Reply Error α) (world : σ) :
    Executes act program world (play serve count program world).1
      (play serve count program world).2 := by
  induction count generalizing program world with
  | zero => exact .stop
  | succ count inductionHypothesis =>
      cases program with
      | ret value => exact .stop
      | raise error => exact .stop
      | perform effect next => exact .act (serves effect world) (inductionHypothesis _ _)

theorem executes_run {serve : (effect : Effect) → σ → Reply effect × σ}
    (serves : ∀ effect world, act effect world (serve effect world).1 (serve effect world).2)
    (program : Program Effect Reply Error α) (world : σ) :
    Executes act program world (ended (program.run serve world).1) (program.run serve world).2 := by
  induction program generalizing world with
  | ret value => exact .stop
  | raise error => exact .stop
  | perform effect next inductionHypothesis =>
      exact .act (serves effect world) (inductionHypothesis _ _)

/-- A sequence runs its second half from where the first one ends. -/
theorem run_bind {serve : (effect : Effect) → σ → Reply effect × σ}
    {program : Program Effect Reply Error α} {next : α → Program Effect Reply Error β}
    {value : α} {between : σ} (first : program.run serve world = (.ok value, between)) :
    (program >>= next).run serve world = (next value).run serve between := by
  induction program generalizing world with
  | ret found =>
      cases first
      rfl
  | raise error => cases first
  | perform effect rest inductionHypothesis => exact inductionHypothesis _ first

theorem run_attempt {serve : (effect : Effect) → σ → Reply effect × σ}
    (program : Program Effect Reply Error α) (world : σ) :
    program.attempt.run serve world =
      ((.ok (program.run serve world).1 : Except Error (Except Error α)),
        (program.run serve world).2) := by
  induction program generalizing world with
  | ret value => rfl
  | raise error => rfl
  | perform effect next inductionHypothesis => exact inductionHypothesis _ _

/-! ### Rules -/

@[simp] theorem ensures_pure {value : α} :
    Ensures act during outcome (pure value : Program Effect Reply Error α) world ↔
      outcome (.ok value) world := Iff.rfl

@[simp] theorem ensures_ret {value : α} :
    Ensures act during outcome (.ret value : Program Effect Reply Error α) world ↔
      outcome (.ok value) world := Iff.rfl

@[simp] theorem ensures_raise {error : Error} :
    Ensures act during outcome (.raise error : Program Effect Reply Error α) world ↔
      outcome (.error error) world := Iff.rfl

@[simp] theorem ensures_call {effect : Effect} {outcome : Except Error (Reply effect) → σ → Prop} :
    Ensures act during outcome (call effect : Program Effect Reply Error (Reply effect)) world ↔
      ∀ reply after, act effect world reply after →
        during after ∧ outcome (.ok reply) after := Iff.rfl

@[simp] theorem ensures_ofExcept {result : Except Error α} :
    Ensures act during outcome (ofExcept result : Program Effect Reply Error α) world ↔
      outcome result world := by
  cases result with
  | ok value => exact Iff.rfl
  | error error => exact Iff.rfl

/-- A sequence ends as its second half does, or with the error of its first. -/
theorem ensures_bind {program : Program Effect Reply Error α}
    {next : α → Program Effect Reply Error β} {outcome : Except Error β → σ → Prop} :
    Ensures act during outcome (program >>= next) world ↔
      Ensures act during (fun result after => match result with
        | .ok value => Ensures act during outcome (next value) after
        | .error error => outcome (.error error) after) program world := by
  induction program generalizing world with
  | ret value => exact Iff.rfl
  | raise error => exact Iff.rfl
  | perform effect rest inductionHypothesis =>
      apply forall_congr'
      intro reply
      apply forall_congr'
      intro after
      apply imp_congr_right
      intro _
      exact and_congr_right fun _ => inductionHypothesis reply

@[simp] theorem ensures_attempt {program : Program Effect Reply Error α}
    {outcome : Except Error (Except Error α) → σ → Prop} :
    Ensures act during outcome program.attempt world ↔
      Ensures act during (fun result => outcome (.ok result)) program world := by
  induction program generalizing world with
  | ret value => exact Iff.rfl
  | raise error => exact Iff.rfl
  | perform effect rest inductionHypothesis =>
      apply forall_congr'
      intro reply
      apply forall_congr'
      intro after
      apply imp_congr_right
      intro _
      exact and_congr_right fun _ => inductionHypothesis reply

/-- The assertions may be weakened. -/
theorem Ensures.mono {program : Program Effect Reply Error α} {weaker : σ → Prop}
    {laxer : Except Error α → σ → Prop} (ensures : Ensures act during outcome program world)
    (weakens : ∀ world, during world → weaker world)
    (relaxes : ∀ result world, outcome result world → laxer result world) :
    Ensures act weaker laxer program world := by
  induction program generalizing world with
  | ret value => exact relaxes _ _ ensures
  | raise error => exact relaxes _ _ ensures
  | perform effect rest inductionHypothesis =>
      intro reply after acted
      have here := ensures reply after acted
      exact ⟨weakens after here.1, inductionHypothesis reply here.2⟩

/-- The rule of sequence: what the first half leaves is what the second needs. -/
theorem Ensures.bind {program : Program Effect Reply Error α}
    {next : α → Program Effect Reply Error β} {final : Except Error β → σ → Prop}
    (first : Ensures act during outcome program world)
    (raised : ∀ error after, outcome (.error error) after → final (.error error) after)
    (second : ∀ value after, outcome (.ok value) after →
      Ensures act during final (next value) after) :
    Ensures act during final (program >>= next) world := by
  apply ensures_bind.mpr
  apply first.mono fun _ holds => holds
  intro result after left
  cases result with
  | ok value => exact second value after left
  | error error => exact raised error after left

/-- Wherever an execution stops, `during` holds and what is left of the program
ends as the whole would have. -/
theorem Ensures.of_executes {program rest : Program Effect Reply Error α} {after : σ}
    (ensures : Ensures act during outcome program world) (here : during world)
    (executed : Executes act program world rest after) :
    during after ∧ Ensures act during outcome rest after := by
  induction executed with
  | stop => exact ⟨here, ensures⟩
  | act acted _ inductionHypothesis =>
      have next := ensures _ _ acted
      exact inductionHypothesis next.2 next.1

end Program

end Docta
