/-
Module: Docta.Library.Paging
Purpose: Cursor pages over rows numbered from one without gap. A page looks one
  row further than its limit, keeps the rows within it and names the last kept
  row as the next cursor while more follow.
Trusted boundary: none
Main exports: after, seen, kept, next, map_kept, next_eq, collected_append
-/
import Mathlib.Data.List.Sort

namespace Docta.Paging

variable {α : Type} (number : α → Nat)

/-- The rows past a cursor. -/
def after (rows : List α) (cursor : Nat) : List α :=
  rows.filter fun row => decide (cursor < number row)

/-- The rows a page looks at. -/
def seen (rows : List α) (cursor limit : Nat) : List α :=
  (after number rows cursor).take (limit + 1)

/-- The rows a page keeps. -/
def kept (rows : List α) (cursor limit : Nat) : List α :=
  (seen number rows cursor limit).take limit

/-- The next cursor. -/
def next (rows : List α) (cursor limit : Nat) : Option Nat :=
  if limit < (seen number rows cursor limit).length then
    ((seen number rows cursor limit)[limit - 1]?).map number
  else none

theorem filter_lt_range' (cursor count : Nat) :
    (List.range' 1 count).filter (fun value => decide (cursor < value)) =
      List.range' (cursor + 1) (count - cursor) := by
  induction count with
  | zero => rw [Nat.zero_sub]; rfl
  | succ count inductionHypothesis =>
      rw [List.range'_concat, List.filter_append, inductionHypothesis, Nat.one_mul]
      by_cases past : cursor < 1 + count
      · have grown : count + 1 - cursor = count - cursor + 1 := by omega
        have last : cursor + 1 + (count - cursor) = 1 + count := by omega
        rw [grown, List.range'_concat, Nat.one_mul, last, List.filter_singleton,
          decide_eq_true past, cond_true]
      · have none : count - cursor = 0 := by omega
        have noneLater : count + 1 - cursor = 0 := by omega
        rw [none, noneLater, List.filter_singleton, decide_eq_false past, cond_false]
        rfl

theorem take_range' (start count limit : Nat) :
    (List.range' start count).take limit = List.range' start (min limit count) := by
  rcases Nat.le_total count limit with fits | longer
  · rw [List.take_range'_of_length_le fits, Nat.min_eq_right fits]
  · rw [List.take_range'_of_length_ge longer, Nat.min_eq_left longer]

section Numbered

variable {number} {rows : List α} {count : Nat}
  (numbered : rows.map number = List.range' 1 count) (cursor : Nat)
include numbered

theorem map_after :
    (after number rows cursor).map number = List.range' (cursor + 1) (count - cursor) := by
  rw [← filter_lt_range', ← numbered, List.filter_map]
  rfl

/-- The rows past a cursor are in order already. -/
theorem insertionSort_after (order : α → α → Prop) [DecidableRel order]
    (ordered : ∀ first second, number first ≤ number second → order first second) :
    (after number rows cursor).insertionSort order = after number rows cursor := by
  refine List.Pairwise.insertionSort_eq ?_
  have increasing : ((after number rows cursor).map number).Pairwise (· < ·) := by
    rw [map_after numbered]
    exact List.pairwise_lt_range'
  exact (List.pairwise_map.mp increasing).imp fun lower => ordered _ _ (Nat.le_of_lt lower)

theorem map_seen (limit : Nat) :
    (seen number rows cursor limit).map number =
      List.range' (cursor + 1) (min (limit + 1) (count - cursor)) := by
  rw [seen, List.map_take, map_after numbered, take_range']

/-- A page keeps the numbers next to the cursor. -/
theorem map_kept (limit : Nat) :
    (kept number rows cursor limit).map number =
      List.range' (cursor + 1) (min limit (count - cursor)) := by
  rw [kept, List.map_take, map_seen numbered, take_range']
  congr 1
  omega

/-- The next cursor is the last kept number, while more rows follow. -/
theorem next_eq {limit : Nat} (positive : 1 ≤ limit) :
    next number rows cursor limit =
      if limit < count - cursor then some (cursor + limit) else none := by
  have size : (seen number rows cursor limit).length = min (limit + 1) (count - cursor) := by
    have sizes := congrArg List.length (map_seen numbered cursor limit)
    rwa [List.length_map, List.length_range'] at sizes
  rw [next, size]
  by_cases more : limit < count - cursor
  · rw [if_pos more, if_pos (by omega), ← List.getElem?_map, map_seen numbered,
      List.getElem?_range' (by omega)]
    congr 1
    omega
  · rw [if_neg more, if_neg (by omega)]

end Numbered

/-- The numbers up to the cursor and those of a page are the numbers up to its end. -/
theorem collected_append (cursor size : Nat) :
    List.range' 1 cursor ++ List.range' (cursor + 1) size = List.range' 1 (cursor + size) := by
  rw [Nat.add_comm cursor 1, List.range'_append_1]

end Docta.Paging
