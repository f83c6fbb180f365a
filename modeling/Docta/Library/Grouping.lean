/-
Module: Docta.Library.Grouping
Purpose: Grouping a list by a key, group after group: nothing is lost, repeated
  or changed, and inside a group the order stays.
Trusted boundary: none
Main exports: grouped, grouped_perm, filter_grouped
-/
import Mathlib.Data.List.Basic

namespace Docta.Grouping

section Groups

variable {α κ : Type} [DecidableEq κ] (key : α → κ)

/-- The items of each key in turn. -/
def grouped (keys : List κ) (items : List α) : List α :=
  keys.flatMap fun group => items.filter (key · == group)

variable {key}

/-- Items of other keys make no difference. -/
theorem grouped_filter_ne {keys : List κ} {group : κ} (absent : group ∉ keys) (items : List α) :
    grouped key keys (items.filter (key · != group)) = grouped key keys items := by
  rw [grouped, grouped]
  apply List.flatMap_congr
  intro other member
  rw [List.filter_filter]
  apply List.filter_congr
  intro item _
  cases same : key item == other with
  | false => rfl
  | true =>
      have different : key item ≠ group := by
        rw [beq_iff_eq.mp same]
        rintro rfl
        exact absent member
      simp [different]

/-- Grouping by distinct keys that cover the items reorders them. -/
theorem grouped_perm {keys : List κ} (distinct : keys.Nodup) {items : List α}
    (covered : ∀ item ∈ items, key item ∈ keys) : (grouped key keys items).Perm items := by
  induction keys generalizing items with
  | nil =>
      cases items with
      | nil => exact .refl _
      | cons item items => exact absurd (covered item List.mem_cons_self) List.not_mem_nil
  | cons group keys ih =>
      obtain ⟨absent, distinctRest⟩ := List.nodup_cons.mp distinct
      have others : (grouped key keys items).Perm (items.filter (key · != group)) := by
        rw [← grouped_filter_ne absent]
        apply ih distinctRest
        intro item member
        obtain ⟨stored, different⟩ := List.mem_filter.mp member
        rcases List.mem_cons.mp (covered item stored) with same | known
        · rw [same] at different
          simp at different
        · exact known
      have split := List.filter_append_perm (key · == group) items
      exact (List.Perm.append_left _ others).trans split

/-- Inside a group the order stays. -/
theorem filter_grouped {keys : List κ} (distinct : keys.Nodup) {group : κ} (member : group ∈ keys)
    (items : List α) :
    (grouped key keys items).filter (key · == group) = items.filter (key · == group) := by
  have other {name : κ} (different : name ≠ group) :
      (items.filter (key · == name)).filter (key · == group) = [] := by
    rw [List.filter_eq_nil_iff]
    intro item inGroup
    obtain ⟨_, isName⟩ := List.mem_filter.mp inGroup
    rw [beq_iff_eq] at isName ⊢
    rw [isName]
    exact different
  induction keys with
  | nil => cases member
  | cons name keys ih =>
      obtain ⟨absent, distinctRest⟩ := List.nodup_cons.mp distinct
      have unfolded : grouped key (name :: keys) items =
          items.filter (key · == name) ++ grouped key keys items := rfl
      rw [unfolded, List.filter_append]
      by_cases same : name = group
      · subst same
        have none : (grouped key keys items).filter (key · == name) = [] := by
          rw [List.filter_eq_nil_iff]
          intro item inGroups
          obtain ⟨found, inKeys, inGroup⟩ := List.mem_flatMap.mp inGroups
          obtain ⟨_, isFound⟩ := List.mem_filter.mp inGroup
          rw [beq_iff_eq] at isFound ⊢
          rw [isFound]
          rintro rfl
          exact absent inKeys
        rw [none, List.append_nil, List.filter_filter]
        simp
      · rw [other same, List.nil_append]
        rcases List.mem_cons.mp member with isHead | inRest
        · exact absurd isHead.symm same
        · exact ih distinctRest inRest

end Groups

end Docta.Grouping
