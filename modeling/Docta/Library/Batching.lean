/-
Module: Docta.Library.Batching
Purpose: Work done in batches: a list is handed on so many items at a time, and the
  results are put one after the other. A batch that gives one result for each of
  its items leaves every result at the position of its item.
Trusted boundary: none
Main exports: batch, collect, collect_getElem?, collect_ok_iff, collect_error_iff
-/
import Docta.Library.Fallible

namespace Docta.Batching

open Fallible

section Batches

variable {ε α β : Type}

/-- The items of one batch. -/
def batch (size number : Nat) (items : List α) : List α :=
  (items.drop (number * size)).take size

/-- The results of all batches, the first of which has the given number; `fuel` bounds
the batches. -/
def collect (size : Nat) (fetch : Nat → List α → Except ε (List β)) :
    Nat → Nat → List α → Except ε (List β)
  | _, _, [] => .ok []
  | 0, _, _ :: _ => .ok []
  | fuel + 1, number, item :: items => do
      let part ← fetch number ((item :: items).take size)
      let rest ← collect size fetch fuel (number + 1) ((item :: items).drop size)
      return part ++ rest

variable {size : Nat} {fetch : Nat → List α → Except ε (List β)}

theorem batch_zero (items : List α) : batch size 0 items = items.take size := by
  rw [batch, Nat.zero_mul, List.drop_zero]

theorem batch_succ (number : Nat) (items : List α) :
    batch size (number + 1) items = batch size number (items.drop size) := by
  rw [batch, batch, List.drop_drop, Nat.succ_mul, Nat.add_comm size]

theorem batch_nil (number : Nat) : batch size number ([] : List α) = [] := by
  rw [batch, List.drop_nil, List.take_nil]

theorem take_ne_nil (positive : 0 < size) {items : List α} (some_ : items ≠ []) :
    items.take size ≠ [] := by
  intro empty
  rcases List.take_eq_nil_iff.mp empty with zero | empty
  · omega
  · exact some_ empty

/-- The batches past the end are empty, and only they. -/
theorem batch_eq_nil_iff (positive : 0 < size) {number : Nat} {items : List α} :
    batch size number items = [] ↔ items.length ≤ number * size := by
  rw [batch, List.take_eq_nil_iff, List.drop_eq_nil_iff]
  exact or_iff_right (Nat.ne_of_gt positive)

/-- The batches before one with items have items. -/
theorem batch_ne_nil_of_le (positive : 0 < size) {earlier number : Nat} {items : List α}
    (before : earlier ≤ number) (some_ : batch size number items ≠ []) :
    batch size earlier items ≠ [] := by
  rw [ne_eq, batch_eq_nil_iff positive, Nat.not_le] at some_ ⊢
  exact Nat.lt_of_le_of_lt (Nat.mul_le_mul_right size before) some_

theorem length_drop_le (positive : 0 < size) {fuel : Nat} {item : α} {items : List α}
    (enough : (item :: items).length ≤ fuel + 1) : ((item :: items).drop size).length ≤ fuel := by
  rw [List.length_drop]
  omega

theorem getElem?_batch (positive : 0 < size) (items : List α) (position : Nat) :
    (batch size (position / size) items)[position % size]? = items[position]? := by
  rw [batch, List.getElem?_take_of_lt (Nat.mod_lt _ positive), List.getElem?_drop,
    Nat.mul_comm, Nat.div_add_mod]

theorem batch_ne_nil (positive : 0 < size) {items : List α} {position : Nat}
    (inside : position < items.length) : batch size (position / size) items ≠ [] := by
  intro empty
  have found := getElem?_batch positive items position
  rw [empty, List.getElem?_nil, List.getElem?_eq_getElem inside] at found
  cases found

/-- All batches together succeed exactly when each of them does. -/
theorem collect_ok_iff (positive : 0 < size) {fuel : Nat} (number : Nat) {items : List α}
    (enough : items.length ≤ fuel) :
    (∃ results, collect size fetch fuel number items = .ok results) ↔
      ∀ offset, batch size offset items ≠ [] →
        ∃ part, fetch (number + offset) (batch size offset items) = .ok part := by
  induction fuel generalizing number items with
  | zero =>
      obtain rfl := List.length_eq_zero_iff.mp (Nat.le_zero.mp enough)
      refine iff_of_true ⟨[], rfl⟩ fun offset some_ => ?_
      exact absurd (batch_nil offset) some_
  | succ fuel ih =>
      cases items with
      | nil =>
          refine iff_of_true ⟨[], rfl⟩ fun offset some_ => ?_
          exact absurd (batch_nil offset) some_
      | cons item items =>
          have rest := ih (number + 1) (length_drop_le positive enough)
          simp only [collect, bind_eq_ok, pure_eq_ok]
          constructor
          · rintro ⟨_, part, isPart, results, isResults, rfl⟩ offset some_
            cases offset with
            | zero => exact ⟨part, by rw [batch_zero]; exact isPart⟩
            | succ offset =>
                rw [batch_succ] at some_ ⊢
                have found := rest.mp ⟨results, isResults⟩ offset some_
                rw [Nat.add_right_comm, Nat.add_assoc] at found
                exact found
          · intro each
            obtain ⟨part, isPart⟩ := each 0 (by
              rw [batch_zero]
              exact take_ne_nil positive (List.cons_ne_nil _ _))
            rw [batch_zero] at isPart
            obtain ⟨results, isResults⟩ := rest.mpr fun offset some_ => by
              have found := each (offset + 1) (by rw [batch_succ]; exact some_)
              rw [batch_succ] at found
              rw [Nat.add_right_comm, Nat.add_assoc]
              exact found
            exact ⟨_, part, isPart, results, isResults, rfl⟩

/-- The whole raises what its first batch that fails raises. -/
theorem collect_error_iff (positive : 0 < size) {fuel : Nat} (number : Nat) {items : List α}
    {error : ε} (enough : items.length ≤ fuel) :
    collect size fetch fuel number items = .error error ↔
      ∃ offset, batch size offset items ≠ [] ∧
        (∀ earlier < offset, ∃ part,
          fetch (number + earlier) (batch size earlier items) = .ok part) ∧
        fetch (number + offset) (batch size offset items) = .error error := by
  induction fuel generalizing number items with
  | zero =>
      obtain rfl := List.length_eq_zero_iff.mp (Nat.le_zero.mp enough)
      refine iff_of_false nofun ?_
      rintro ⟨offset, some_, _⟩
      exact some_ (batch_nil offset)
  | succ fuel ih =>
      cases items with
      | nil =>
          refine iff_of_false nofun ?_
          rintro ⟨offset, some_, _⟩
          exact some_ (batch_nil offset)
      | cons item items =>
          have rest := ih (number + 1) (length_drop_le positive enough)
          simp only [collect, bind_eq_error]
          constructor
          · rintro (isFirst | ⟨part, isPart, later | ⟨_, _, done⟩⟩)
            · refine ⟨0, ?_, fun earlier before => absurd before (Nat.not_lt_zero _), ?_⟩
              · rw [batch_zero]
                exact take_ne_nil positive (List.cons_ne_nil _ _)
              · rw [batch_zero]
                exact isFirst
            · obtain ⟨offset, some_, passed, isRaised⟩ := rest.mp later
              refine ⟨offset + 1, ?_, fun earlier before => ?_, ?_⟩
              · rw [batch_succ]
                exact some_
              · cases earlier with
                | zero => exact ⟨part, by rw [batch_zero]; exact isPart⟩
                | succ earlier =>
                    rw [batch_succ, ← Nat.add_assoc, Nat.add_right_comm]
                    exact passed earlier (Nat.lt_of_succ_lt_succ before)
              · rw [batch_succ, ← Nat.add_assoc, Nat.add_right_comm]
                exact isRaised
            · cases done
          · rintro ⟨offset, some_, passed, isRaised⟩
            cases offset with
            | zero =>
                rw [batch_zero] at isRaised
                exact .inl isRaised
            | succ offset =>
                obtain ⟨part, isPart⟩ := passed 0 (Nat.succ_pos offset)
                rw [batch_zero] at isPart
                refine .inr ⟨part, isPart, .inl (rest.mpr ⟨offset, ?_, fun earlier before => ?_, ?_⟩)⟩
                · rw [batch_succ] at some_
                  exact some_
                · have found := passed (earlier + 1) (Nat.succ_lt_succ before)
                  rw [batch_succ, ← Nat.add_assoc, Nat.add_right_comm] at found
                  exact found
                · rw [batch_succ, ← Nat.add_assoc, Nat.add_right_comm] at isRaised
                  exact isRaised

/-- Batches that give one result for each item leave every result at the position of
its item. -/
theorem collect_getElem? (positive : 0 < size)
    (sized : ∀ number part results, fetch number part = .ok results →
      results.length = part.length)
    {fuel : Nat} {number : Nat} {items : List α} {results : List β}
    (enough : items.length ≤ fuel) (ok : collect size fetch fuel number items = .ok results) :
    results.length = items.length ∧ ∀ position < items.length,
      ∃ part, fetch (number + position / size) (batch size (position / size) items) = .ok part ∧
        results[position]? = part[position % size]? := by
  induction fuel generalizing number items results with
  | zero =>
      obtain rfl := List.length_eq_zero_iff.mp (Nat.le_zero.mp enough)
      cases ok
      exact ⟨rfl, fun position inside => absurd inside (Nat.not_lt_zero _)⟩
  | succ fuel ih =>
      cases items with
      | nil =>
          cases ok
          exact ⟨rfl, fun position inside => absurd inside (Nat.not_lt_zero _)⟩
      | cons item items =>
          simp only [collect, bind_eq_ok, pure_eq_ok] at ok
          obtain ⟨first, isFirst, rest, isRest, rfl⟩ := ok
          have firstLength := sized _ _ _ isFirst
          rw [List.length_take] at firstLength
          obtain ⟨restLength, aligned⟩ := ih (length_drop_le positive enough) isRest
          rw [List.length_drop] at restLength aligned
          refine ⟨by rw [List.length_append, firstLength, restLength]; omega, ?_⟩
          intro position inside
          by_cases early : position < size
          · refine ⟨first, ?_, ?_⟩
            · rw [Nat.div_eq_of_lt early, batch_zero]
              exact isFirst
            · rw [Nat.mod_eq_of_lt early, List.getElem?_append_left]
              omega
          · have later : size ≤ position := Nat.le_of_not_lt early
            obtain ⟨part, isPart, same⟩ := aligned (position - size) (by omega)
            have quotient : position / size = (position - size) / size + 1 :=
              Nat.div_eq_sub_div positive later
            have remainder : position % size = (position - size) % size :=
              Nat.mod_eq_sub_mod later
            refine ⟨part, ?_, ?_⟩
            · rw [quotient, batch_succ, ← Nat.add_assoc, Nat.add_right_comm]
              exact isPart
            · rw [remainder, ← same, List.getElem?_append_right (by omega)]
              congr 1
              omega

end Batches

end Docta.Batching
