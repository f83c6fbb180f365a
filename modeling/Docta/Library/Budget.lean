/-
Module: Docta.Library.Budget
Purpose: Taking items from the front of a list while their sizes fit in a
  budget: the longest prefix that fits, also under a limit on the number.
Trusted boundary: none
Main exports: fitting, total, fitting_isPrefix, total_fitting_le, prefix_fitting
-/
import Mathlib.Algebra.GroupWithZero.Nat
import Mathlib.Data.List.Infix

namespace Docta.Budget

variable {α : Type} (size : α → Nat)

/-- The items taken one by one until one does not fit in what remains. -/
def fitting : Nat → List α → List α
  | _, [] => []
  | budget, item :: rest =>
      if budget < size item then [] else item :: fitting (budget - size item) rest

/-- The sizes of the items, added up. -/
def total (items : List α) : Nat := (items.map size).sum

variable {size} {budget : Nat} {items part : List α}

@[simp] theorem total_nil : total size [] = 0 := rfl

@[simp] theorem total_cons (item : α) (rest : List α) :
    total size (item :: rest) = size item + total size rest := by
  simp [total]

theorem total_reverse (items : List α) : total size items.reverse = total size items := by
  rw [total, total, List.map_reverse, List.sum_reverse]

theorem fitting_isPrefix (budget : Nat) (items : List α) : fitting size budget items <+: items := by
  induction items generalizing budget with
  | nil => exact List.prefix_rfl
  | cons item rest ih =>
      rw [fitting]
      split
      · exact List.nil_prefix
      · exact (List.prefix_cons_inj item).mpr (ih _)

theorem total_fitting_le (budget : Nat) (items : List α) :
    total size (fitting size budget items) ≤ budget := by
  induction items generalizing budget with
  | nil => exact Nat.zero_le _
  | cons item rest ih =>
      rw [fitting]
      split
      · exact Nat.zero_le _
      · have rest := ih (budget - size item)
        rw [total_cons]
        omega

/-- Every prefix within the budget is taken. -/
theorem prefix_fitting (isPrefix : part <+: items) (fits : total size part ≤ budget) :
    part <+: fitting size budget items := by
  induction items generalizing budget part with
  | nil =>
      rw [List.prefix_nil.mp isPrefix]
      exact List.nil_prefix
  | cons item rest ih =>
      cases part with
      | nil => exact List.nil_prefix
      | cons first part =>
          obtain ⟨rfl, laterPrefix⟩ := List.cons_prefix_cons.mp isPrefix
          rw [total_cons] at fits
          rw [fitting, if_neg (by omega)]
          exact (List.prefix_cons_inj first).mpr (ih laterPrefix (by omega))

/-- A first item within the budget is taken. -/
theorem mem_fitting_head {item : α} {rest : List α} (fits : size item ≤ budget) :
    item ∈ fitting size budget (item :: rest) := by
  rw [fitting, if_neg (Nat.not_lt.mpr fits)]
  exact List.mem_cons_self

end Docta.Budget
