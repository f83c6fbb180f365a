/-
Module: Docta.Library.Cutting
Purpose: Cutting a line of characters into overlapping spans by a loop that
  starts the next span a fixed overlap before the end of the last one, and when
  such a cut really overlaps.
Trusted boundary: none
Main exports: Span, spansFrom, Advancing, Reached, mem_spans_iff, exists_span,
  Overlapping, overlapping_iff
-/
import Mathlib.Data.List.Chain
import Mathlib.Order.MinMax

namespace Docta.Cutting

/-- The positions from `start` up to, not including, `stop`. -/
structure Span where
  start : Nat
  stop : Nat
deriving DecidableEq, Repr

/-- The stretch from `first` up to `last` lies in the span. -/
def Span.Holds (span : Span) (first last : Nat) : Prop :=
  span.start ≤ first ∧ last ≤ span.stop

section Loop

variable (length overlap : Nat) (stop : Nat → Nat)

/-- The start of the span after the one that starts at `start`. -/
def nextStart (start : Nat) : Nat :=
  max (stop start - overlap) (start + 1)

theorem lt_nextStart (start : Nat) : start < nextStart overlap stop start :=
  (Nat.lt_succ_self start).trans_le (le_max_right _ _)

/-- The spans cut from `start` on. The loop ends: each start is past the last. -/
def spansFrom (start : Nat) : List Span :=
  if start < length then
    ⟨start, stop start⟩ ::
      if length ≤ stop start then [] else spansFrom (nextStart overlap stop start)
  else []
termination_by length - start
decreasing_by
  have later := lt_nextStart overlap stop start
  omega

/-- Where a span ends: past its start, and on the line. -/
structure Advancing : Prop where
  after : ∀ start, start < length → start < stop start
  within : ∀ start, start < length → stop start ≤ length

/-- The starts the loop comes to. -/
inductive Reached : Nat → Prop where
  | first : Reached 0
  | next {start : Nat} : Reached start → start < length → stop start < length →
      Reached (nextStart overlap stop start)

end Loop

variable {length overlap : Nat} {stop : Nat → Nat}

/-! ### The spans and the starts of the loop -/

theorem spansFrom_of_last {start : Nat} (inside : start < length) (last : length ≤ stop start) :
    spansFrom length overlap stop start = [⟨start, stop start⟩] := by
  rw [spansFrom, if_pos inside, if_pos last]

theorem spansFrom_of_more {start : Nat} (inside : start < length) (more : stop start < length) :
    spansFrom length overlap stop start =
      ⟨start, stop start⟩ :: spansFrom length overlap stop (nextStart overlap stop start) := by
  rw [spansFrom, if_pos inside, if_neg (Nat.not_le.mpr more)]

theorem spansFrom_of_end {start : Nat} (outside : length ≤ start) :
    spansFrom length overlap stop start = [] := by
  rw [spansFrom, if_neg (Nat.not_lt.mpr outside)]

/-- Induction along the loop: it is at the end of the line, at its last span, or
goes on from the next start. -/
theorem loopInduction {motive : Nat → Prop}
    (atEnd : ∀ start, length ≤ start → motive start)
    (atLast : ∀ start, start < length → length ≤ stop start → motive start)
    (goesOn : ∀ start, start < length → stop start < length →
      motive (nextStart overlap stop start) → motive start) (start : Nat) : motive start := by
  induction start using spansFrom.induct length overlap stop with
  | case1 start inside following =>
      by_cases last : length ≤ stop start
      · exact atLast start inside last
      · exact goesOn start inside (Nat.not_le.mp last) following
  | case2 start outside => exact atEnd start (Nat.not_lt.mp outside)

/-- Every span starts where the loop came to, and ends where such a span ends. -/
theorem reached_of_mem {start : Nat} (reached : Reached length overlap stop start) {span : Span}
    (member : span ∈ spansFrom length overlap stop start) :
    Reached length overlap stop span.start ∧ start ≤ span.start ∧ span.start < length ∧
      span.stop = stop span.start := by
  induction start using @loopInduction length overlap stop with
  | atEnd start outside =>
      rw [spansFrom_of_end outside] at member
      cases member
  | atLast start inside last =>
      rw [spansFrom_of_last inside last, List.mem_singleton] at member
      rw [member]
      exact ⟨reached, le_refl _, inside, rfl⟩
  | goesOn start inside more inductionHypothesis =>
      rw [spansFrom_of_more inside more] at member
      rcases List.mem_cons.mp member with here | later
      · rw [here]
        exact ⟨reached, le_refl _, inside, rfl⟩
      · have found := inductionHypothesis (reached.next inside more) later
        exact ⟨found.1, (lt_nextStart overlap stop start).le.trans found.2.1, found.2.2⟩

theorem spansFrom_subset_of_reached {start : Nat} (reached : Reached length overlap stop start) :
    ∀ span ∈ spansFrom length overlap stop start, span ∈ spansFrom length overlap stop 0 := by
  induction reached with
  | first => exact fun span member => member
  | next reached inside more inductionHypothesis =>
      intro span member
      apply inductionHypothesis
      rw [spansFrom_of_more inside more]
      exact List.mem_cons_of_mem _ member

/-- The spans of a line are those that start where the loop comes to. -/
theorem mem_spans_iff {span : Span} :
    span ∈ spansFrom length overlap stop 0 ↔
      Reached length overlap stop span.start ∧ span.start < length ∧
        span.stop = stop span.start := by
  constructor
  · intro member
    have found := reached_of_mem Reached.first member
    exact ⟨found.1, found.2.2⟩
  · intro found
    rcases span with ⟨start, ending⟩
    have here : ending = stop start := found.2.2
    apply spansFrom_subset_of_reached found.1
    rw [spansFrom, if_pos found.2.1, here]
    exact List.mem_cons_self

/-! ### Nothing is left out -/

/-- The next span starts no later than this one ends. -/
theorem nextStart_le (advancing : Advancing length stop) {start : Nat} (inside : start < length) :
    nextStart overlap stop start ≤ stop start :=
  max_le (Nat.sub_le _ _) (advancing.after start inside)

/-- Every position from the start on lies in a span. -/
theorem exists_span (advancing : Advancing length stop) {start position : Nat}
    (after : start ≤ position) (inside : position < length) :
    ∃ span ∈ spansFrom length overlap stop start,
      span.start ≤ position ∧ position < span.stop := by
  induction start using @loopInduction length overlap stop with
  | atEnd start outside => omega
  | atLast start here last =>
      rw [spansFrom_of_last here last]
      exact ⟨_, List.mem_singleton.mpr rfl, after, inside.trans_le last⟩
  | goesOn start here more inductionHypothesis =>
      rw [spansFrom_of_more here more]
      by_cases covered : position < stop start
      · exact ⟨_, List.mem_cons_self, after, covered⟩
      · have later : nextStart overlap stop start ≤ position :=
          (nextStart_le advancing here).trans (Nat.not_lt.mp covered)
        rcases inductionHypothesis later with ⟨span, member, holds⟩
        exact ⟨span, List.mem_cons_of_mem _ member, holds⟩

/-! ### Overlapping cuts -/

/-- What is expected of spans that overlap: each ends after the one before it,
and no stretch of one character more than the overlap falls between two. -/
structure Overlapping (length overlap : Nat) (spans : List Span) : Prop where
  ends_increase : spans.IsChain fun span next => span.stop < next.stop
  unbroken : ∀ first last, first < last → last ≤ length → last ≤ first + (overlap + 1) →
    ∃ span ∈ spans, span.Holds first last

/-- Every span that does not end the line is longer than the overlap. -/
def NeverShort (length overlap : Nat) (stop : Nat → Nat) : Prop :=
  ∀ start, Reached length overlap stop start → start < length → stop start < length →
    start + overlap < stop start

theorem nextStart_of_long {start : Nat} (long : start + overlap < stop start) :
    nextStart overlap stop start = stop start - overlap :=
  max_eq_left (by omega)

/-- After a span longer than the overlap the next one ends later. -/
theorem stop_lt_stop_next (neverShort : NeverShort length overlap stop) {start : Nat}
    (reached : Reached length overlap stop start) (inside : start < length)
    (more : stop start < length) :
    stop start < stop (nextStart overlap stop start) := by
  have long := neverShort start reached inside more
  have next := nextStart_of_long long
  have nextInside : nextStart overlap stop start < length := by omega
  by_cases nextMore : stop (nextStart overlap stop start) < length
  · have nextLong := neverShort _ (reached.next inside more) nextInside nextMore
    omega
  · exact more.trans_le (Nat.not_lt.mp nextMore)

theorem ends_increase_of_neverShort (advancing : Advancing length stop)
    (neverShort : NeverShort length overlap stop) {start : Nat}
    (reached : Reached length overlap stop start) :
    (spansFrom length overlap stop start).IsChain fun span next => span.stop < next.stop := by
  induction start using @loopInduction length overlap stop with
  | atEnd start outside =>
      rw [spansFrom_of_end outside]
      exact .nil
  | atLast start inside last =>
      rw [spansFrom_of_last inside last]
      exact .singleton _
  | goesOn start inside more inductionHypothesis =>
      have later := stop_lt_stop_next neverShort reached inside more
      have chain := inductionHypothesis (reached.next inside more)
      have nextInside : nextStart overlap stop start < length :=
        (nextStart_le advancing inside).trans_lt more
      rw [spansFrom_of_more inside more]
      rw [spansFrom, if_pos nextInside] at chain ⊢
      exact .cons_cons later chain

theorem unbroken_of_neverShort (neverShort : NeverShort length overlap stop)
    {start first last : Nat}
    (reached : Reached length overlap stop start) (after : start ≤ first) (nonempty : first < last)
    (onLine : last ≤ length) (brief : last ≤ first + (overlap + 1)) :
    ∃ span ∈ spansFrom length overlap stop start, span.Holds first last := by
  induction start using @loopInduction length overlap stop with
  | atEnd start outside => omega
  | atLast start inside final =>
      rw [spansFrom_of_last inside final]
      exact ⟨_, List.mem_singleton.mpr rfl, after, onLine.trans final⟩
  | goesOn start inside more inductionHypothesis =>
      rw [spansFrom_of_more inside more]
      by_cases later : nextStart overlap stop start ≤ first
      · rcases inductionHypothesis (reached.next inside more) later with ⟨span, member, holds⟩
        exact ⟨span, List.mem_cons_of_mem _ member, holds⟩
      · -- The next span starts the overlap before this one's end, past the stretch's start.
        have next := nextStart_of_long (neverShort start reached inside more)
        exact ⟨_, List.mem_cons_self, after, by dsimp only; omega⟩

/-- Between two starts of the loop every step was taken in order: the earlier
one did not end the line, and its successor comes no later than the other. -/
theorem nextStart_le_of_reached {earlier later : Nat}
    (earlierReached : Reached length overlap stop earlier)
    (laterReached : Reached length overlap stop later) (before : earlier < later) :
    stop earlier < length ∧ nextStart overlap stop earlier ≤ later := by
  induction later using Nat.strong_induction_on generalizing earlier with
  | _ later inductionHypothesis =>
      cases laterReached with
      | first => omega
      | @next previous reached inside more =>
          have step := lt_nextStart overlap stop previous
          rcases Nat.lt_trichotomy earlier previous with below | same | above
          · have found := inductionHypothesis previous step earlierReached reached below
            exact ⟨found.1, found.2.trans step.le⟩
          · rw [same]
            exact ⟨more, le_refl _⟩
          · have found := inductionHypothesis earlier before reached earlierReached above
            exact absurd before (Nat.not_lt.mpr found.2)

/-- No span that starts earlier reaches further than the overlap into the line
after a start of the loop. -/
theorem stop_le_of_earlier {start : Nat} (reached : Reached length overlap stop start) {span : Span}
    (member : span ∈ spansFrom length overlap stop 0) (earlier : span.start < start) :
    span.stop ≤ start + overlap ∧ span.stop < length := by
  have found := mem_spans_iff.mp member
  have next := nextStart_le_of_reached found.1 reached earlier
  have bound : stop span.start - overlap ≤ nextStart overlap stop span.start := le_max_left _ _
  rw [found.2.2]
  omega

/-- A span cut short breaks the stretch that starts with it. -/
theorem neverShort_of_unbroken
    (unbroken : ∀ first last, first < last → last ≤ length → last ≤ first + (overlap + 1) →
      ∃ span ∈ spansFrom length overlap stop 0, span.Holds first last) :
    NeverShort length overlap stop := by
  intro start reached inside more
  by_contra short
  rcases unbroken start (min (start + (overlap + 1)) length) (by omega) (min_le_right _ _)
    (min_le_left _ _) with ⟨span, member, begins, ends⟩
  rcases Nat.lt_or_eq_of_le begins with earlier | same
  · have bound := stop_le_of_earlier reached member earlier
    omega
  · have ending := (mem_spans_iff.mp member).2.2
    rw [same] at ending
    omega

/-- A cut overlaps exactly when no span but the last is as short as the overlap. -/
theorem overlapping_iff (advancing : Advancing length stop) :
    Overlapping length overlap (spansFrom length overlap stop 0) ↔
      NeverShort length overlap stop := by
  constructor
  · intro overlapping
    exact neverShort_of_unbroken overlapping.unbroken
  · intro neverShort
    exact
      { ends_increase := ends_increase_of_neverShort advancing neverShort .first
        unbroken := fun first last nonempty onLine brief =>
          unbroken_of_neverShort neverShort .first (Nat.zero_le first) nonempty onLine
            brief }

end Docta.Cutting
