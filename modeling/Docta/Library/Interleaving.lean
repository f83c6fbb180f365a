/-
Module: Docta.Library.Interleaving
Purpose: Transactions side by side: each goes on by statements of its own, and what
  it wrote becomes visible only when it ends. An invariant of the shared state, one
  of each transaction and one of every two of them hold in all interleavings when
  single statements and single ends keep them.
Trusted boundary: none
Main exports: Pool, Pool.Step, Rules, Rules.sound, Rules.reachable_sound
-/
import Docta.Library.Transition

namespace Docta.Interleaving

open Transition

variable {σ τ : Type}

/-- The state that everyone sees, and the transactions under way. -/
structure Pool (σ τ : Type) where
  shared : σ
  active : List τ

variable (starts : τ → Prop) (moves : σ → List τ → τ → τ → Prop) (ends : σ → τ → σ → Prop)

/-- One step of one transaction; any transaction may be aborted. -/
inductive Pool.Step : Pool σ τ → Pool σ τ → Prop where
  | start (shared : σ) (active : List τ) (session : τ) (ok : starts session) :
      Step ⟨shared, active⟩ ⟨shared, active ++ [session]⟩
  | statement (shared : σ) (earlier later : List τ) (session after : τ)
      (ok : moves shared (earlier ++ later) session after) :
      Step ⟨shared, earlier ++ session :: later⟩ ⟨shared, earlier ++ after :: later⟩
  | finish (shared after : σ) (earlier later : List τ) (session : τ)
      (ok : ends shared session after) :
      Step ⟨shared, earlier ++ session :: later⟩ ⟨after, earlier ++ later⟩
  | abort (shared : σ) (earlier later : List τ) (session : τ) :
      Step ⟨shared, earlier ++ session :: later⟩ ⟨shared, earlier ++ later⟩

/-- Before any transaction started. -/
structure Pool.Initial (origin : σ → Prop) (pool : Pool σ τ) : Prop where
  idle : pool.active = []
  origin : origin pool.shared

/-- The invariants of a pool: of the shared state, of each transaction beside it, and of
every two transactions. -/
structure Pool.Sound (state : σ → Prop) (beside : σ → τ → Prop) (apart : τ → τ → Prop)
    (pool : Pool σ τ) : Prop where
  state : state pool.shared
  beside : ∀ session ∈ pool.active, beside pool.shared session
  apart : pool.active.Pairwise apart

/-- What the statements and the ends of transactions owe to the invariants. -/
structure Rules (state : σ → Prop) (beside : σ → τ → Prop) (apart : τ → τ → Prop) : Prop where
  symmetric : ∀ first second, apart first second → apart second first
  start : ∀ shared session, starts session → state shared → beside shared session
  startApart : ∀ session other, starts session → apart session other
  statement : ∀ shared others session after, moves shared others session after →
    state shared → beside shared session → (∀ other ∈ others, beside shared other) →
    (∀ other ∈ others, apart session other) → beside shared after
  statementApart : ∀ shared others session after, moves shared others session after →
    state shared → beside shared session → (∀ other ∈ others, beside shared other) →
    (∀ other ∈ others, apart session other) → ∀ other ∈ others, apart after other
  finish : ∀ shared session after, ends shared session after → state shared →
    beside shared session → state after
  finishBeside : ∀ shared session after other, ends shared session after → state shared →
    beside shared session → beside shared other → apart session other → beside after other

section Sound

variable {starts moves ends}
variable {state : σ → Prop} {beside : σ → τ → Prop} {apart : τ → τ → Prop}

theorem pairwise_middle {relation : τ → τ → Prop}
    (symmetric : ∀ first second, relation first second → relation second first)
    {earlier later : List τ} {session : τ} :
    (earlier ++ session :: later).Pairwise relation ↔
      (earlier ++ later).Pairwise relation ∧ ∀ other ∈ earlier ++ later, relation session other := by
  rw [List.perm_middle.pairwise_iff (symmetric _ _), List.pairwise_cons, and_comm]

/-- One step keeps the invariants. -/
theorem Rules.sound (rules : Rules starts moves ends state beside apart) {before after : Pool σ τ}
    (sound : before.Sound state beside apart) (step : before.Step starts moves ends after) :
    after.Sound state beside apart := by
  obtain ⟨isState, isBeside, isApart⟩ := sound
  cases step with
  | start shared active session ok =>
      refine ⟨isState, fun other member => ?_, ?_⟩
      · rcases List.mem_append.mp member with known | new
        · exact isBeside other known
        · rw [List.mem_singleton.mp new]
          exact rules.start shared session ok isState
      · rw [List.pairwise_append]
        refine ⟨isApart, List.pairwise_singleton _ _, fun other _ new isNew => ?_⟩
        rw [List.mem_singleton.mp isNew]
        exact rules.symmetric _ _ (rules.startApart session other ok)
  | statement shared earlier later session next ok =>
      rw [pairwise_middle rules.symmetric] at isApart
      have others : ∀ other ∈ earlier ++ later, beside shared other := fun other member =>
        isBeside other (List.perm_middle.mem_iff.mpr (List.mem_cons_of_mem _ member))
      have own := isBeside session (List.perm_middle.mem_iff.mpr List.mem_cons_self)
      refine ⟨isState, fun other member => ?_, ?_⟩
      · rcases List.mem_cons.mp (List.perm_middle.mem_iff.mp member) with rfl | known
        · exact rules.statement shared _ session other ok isState own others isApart.2
        · exact others other known
      · rw [pairwise_middle rules.symmetric]
        exact ⟨isApart.1,
          rules.statementApart shared _ session next ok isState own others isApart.2⟩
  | finish shared next earlier later session ok =>
      rw [pairwise_middle rules.symmetric] at isApart
      have own := isBeside session (List.perm_middle.mem_iff.mpr List.mem_cons_self)
      refine ⟨rules.finish shared session next ok isState own, fun other member => ?_, isApart.1⟩
      have known := isBeside other (List.perm_middle.mem_iff.mpr (List.mem_cons_of_mem _ member))
      exact rules.finishBeside shared session next other ok isState own known
        (isApart.2 other member)
  | abort shared earlier later session =>
      rw [pairwise_middle rules.symmetric] at isApart
      exact ⟨isState, fun other member =>
        isBeside other (List.perm_middle.mem_iff.mpr (List.mem_cons_of_mem _ member)), isApart.1⟩

/-- The invariants hold in every interleaving. -/
theorem Rules.reachable_sound (rules : Rules starts moves ends state beside apart)
    {origin : σ → Prop} (founded : ∀ shared, origin shared → state shared) {pool : Pool σ τ}
    (reachable : Reachable (Pool.Initial origin) (Pool.Step starts moves ends) pool) :
    pool.Sound state beside apart := by
  refine reachable.holds (fun initial isInitial => ?_) (fun _ _ sound step => rules.sound sound step)
  obtain ⟨idle, isOrigin⟩ := isInitial
  refine ⟨founded _ isOrigin, fun session member => ?_, ?_⟩
  · rw [idle] at member
    cases member
  · rw [idle]
    exact List.Pairwise.nil

end Sound

end Docta.Interleaving
