/-
Module: Docta.Library.Chains
Purpose: The pairs of neighbours of a list, and lists whose elements have distinct
  keys: filtering by a key, and counting.
Trusted boundary: none
Main exports: links, filter_key, perm_of_keys
-/
import Mathlib.Data.List.Perm.Subperm
import Mathlib.Data.List.Nodup

namespace Docta.Chains

variable {α κ : Type}

/-! ### Neighbours -/

/-- The pairs of neighbours. -/
def links : List α → List (α × α)
  | first :: second :: rest => (first, second) :: links (second :: rest)
  | _ => []

theorem fst_links (items : List α) : (links items).map Prod.fst = items.dropLast := by
  fun_induction links items with
  | case1 first second rest ih => rw [List.map_cons, ih]; rfl
  | case2 items short =>
      cases items with
      | nil => rfl
      | cons first items =>
          cases items with
          | nil => rfl
          | cons second rest => exact absurd rfl (short first second rest)

theorem snd_links (items : List α) : (links items).map Prod.snd = items.tail := by
  fun_induction links items with
  | case1 first second rest ih => rw [List.map_cons, ih]; rfl
  | case2 items short =>
      cases items with
      | nil => rfl
      | cons first items =>
          cases items with
          | nil => rfl
          | cons second rest => exact absurd rfl (short first second rest)

theorem length_links (items : List α) : (links items).length = items.length - 1 := by
  rw [← List.length_map Prod.fst, fst_links, List.length_dropLast]

/-- A pair of neighbours inside a longer list. -/
theorem mem_links_append (front : List α) (first second : α) (rest : List α) :
    (first, second) ∈ links (front ++ first :: second :: rest) := by
  induction front with
  | nil => exact List.mem_cons_self
  | cons head front ih =>
      cases front with
      | nil => exact List.mem_cons_of_mem _ List.mem_cons_self
      | cons next front => exact List.mem_cons_of_mem _ ih

/-! ### Distinct keys -/

section Keys

variable [DecidableEq κ] {key : α → κ} {items : List α}

theorem filter_key {item : α} (distinct : (items.map key).Nodup) (member : item ∈ items) :
    (items.filter fun other => key other = key item) = [item] := by
  induction items with
  | nil => cases member
  | cons head items ih =>
      rw [List.map_cons, List.nodup_cons] at distinct
      rcases List.mem_cons.mp member with rfl | later
      · have others : (items.filter fun other => key other = key item) = [] := by
          apply List.filter_eq_nil_iff.mpr
          intro other isOther same
          exact distinct.1 (List.mem_map.mpr ⟨other, isOther, of_decide_eq_true same⟩)
        rw [List.filter_cons, if_pos (by simp), others]
      · have apart : key head ≠ key item := by
          intro same
          exact distinct.1 (same ▸ List.mem_map_of_mem later)
        rw [List.filter_cons_of_neg (by simpa using apart), ih distinct.2 later]

theorem filter_key_absent {value : κ} (absent : value ∉ items.map key) :
    (items.filter fun other => key other = value) = [] := by
  apply List.filter_eq_nil_iff.mpr
  intro other isOther same
  exact absent (List.mem_map.mpr ⟨other, isOther, of_decide_eq_true same⟩)

theorem find?_key {item : α} (distinct : (items.map key).Nodup) (member : item ∈ items) :
    (items.find? fun other => key other = key item) = some item := by
  rw [← List.head?_filter, filter_key distinct member]
  rfl

omit [DecidableEq κ] in
/-- Items with distinct keys among others, and as many as those, are all of them. -/
theorem perm_of_keys {chosen : List α} (distinct : (chosen.map key).Nodup)
    (known : ∀ item ∈ chosen, item ∈ items) (enough : items.length ≤ chosen.length) :
    chosen.Perm items :=
  (List.Nodup.subperm distinct.of_map known).perm_of_length_le enough

end Keys

end Docta.Chains
