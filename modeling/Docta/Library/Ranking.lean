/-
Module: Docta.Library.Ranking
Purpose: The first so many of a set in a strict order, stated without reference
  to any list of it. Sorting any listing of the set and cutting it gives them,
  and nothing else is them. Sorting a list whose items carry positions by these
  positions puts every item at its own.
Trusted boundary: none
Main exports: TopOf, TopOf.unique, topOf_take_insertionSort, forall₂_insertionSort
-/
import Mathlib.Data.List.Perm.Basic
import Mathlib.Data.List.Sort

namespace Docta.Ranking

variable {α β : Type}

/-- The first `limit` of the chosen items in a strict order: chosen items in
order, and whatever is left out comes after a full list. -/
structure TopOf (limit : Nat) (before : β → β → Prop) (chosen : β → Prop) (shown : List β) :
    Prop where
  ordered : shown.Pairwise before
  sound : ∀ item ∈ shown, chosen item
  short : shown.length ≤ limit
  complete : ∀ item, chosen item → item ∉ shown →
    shown.length = limit ∧ ∀ other ∈ shown, before other item

variable {limit : Nat} {before : β → β → Prop} {chosen : β → Prop} {shown other : List β}

theorem TopOf.nodup (irrefl : ∀ item, ¬ before item item) (top : TopOf limit before chosen shown) :
    shown.Nodup := by
  apply top.ordered.imp
  intro first second isBefore same
  rw [same] at isBefore
  exact irrefl second isBefore

theorem TopOf.congr {same : β → Prop} (agree : ∀ item, chosen item ↔ same item)
    (top : TopOf limit before chosen shown) : TopOf limit before same shown where
  ordered := top.ordered
  sound := fun item member => (agree item).mp (top.sound item member)
  short := top.short
  complete := fun item isChosen => top.complete item ((agree item).mpr isChosen)

/-- A chosen item of one such list is in the other. -/
theorem TopOf.subset (asymm : ∀ first second, before first second → ¬ before second first)
    (top : TopOf limit before chosen shown) (topOther : TopOf limit before chosen other) :
    shown ⊆ other := by
  have irrefl : ∀ item, ¬ before item item := fun item self => asymm item item self self
  intro item member
  by_contra missing
  obtain ⟨full, later⟩ := topOther.complete item (top.sound item member) missing
  -- The other list is full, so it holds an item that this one leaves out.
  have exists_left_out : ∃ rival ∈ other, rival ∉ shown := by
    by_contra none
    push Not at none
    have distinct : (item :: other).Nodup :=
      List.nodup_cons.mpr ⟨missing, topOther.nodup irrefl⟩
    have within : item :: other ⊆ shown := by
      rw [List.cons_subset]
      exact ⟨member, none⟩
    have fewer := (List.subperm_of_subset distinct within).length_le
    have short := top.short
    rw [List.length_cons] at fewer
    omega
  obtain ⟨rival, inOther, leftOut⟩ := exists_left_out
  have first := (top.complete rival (topOther.sound rival inOther) leftOut).2 item member
  exact asymm item rival first (later rival inOther)

/-- The items and their order determine the list. -/
theorem TopOf.unique (asymm : ∀ first second, before first second → ¬ before second first)
    (top : TopOf limit before chosen shown) (topOther : TopOf limit before chosen other) :
    shown = other := by
  have irrefl : ∀ item, ¬ before item item := fun item self => asymm item item self self
  have sameItems : shown.Perm other := by
    rw [List.perm_ext_iff_of_nodup (top.nodup irrefl) (topOther.nodup irrefl)]
    intro item
    exact ⟨fun member => top.subset asymm topOther member,
      fun member => topOther.subset asymm top member⟩
  apply sameItems.eq_of_pairwise _ top.ordered topOther.ordered
  intro first second _ _ forth back
  exact absurd back (asymm first second forth)

/-- Sorting the rows and cutting the list shows the first of their keys. -/
theorem topOf_take_insertionSort {rows : List α} (key : α → β) (le : α → α → Prop)
    [DecidableRel le] [Std.Total le] [IsTrans α le] (distinct : (rows.map key).Nodup)
    (strict : ∀ first ∈ rows, ∀ second ∈ rows, le first second → key first ≠ key second →
      before (key first) (key second)) :
    TopOf limit before (fun item => ∃ row ∈ rows, key row = item)
      (((rows.insertionSort le).take limit).map key) := by
  have sorted : (rows.insertionSort le).Pairwise le := List.pairwise_insertionSort le rows
  have perm : (rows.insertionSort le).Perm rows := List.perm_insertionSort le rows
  have distinctSorted : ((rows.insertionSort le).map key).Nodup := (perm.map key).nodup_iff.mpr distinct
  have ordered : ((rows.insertionSort le).map key).Pairwise before := by
    rw [List.pairwise_map]
    have apart := List.pairwise_map.mp distinctSorted
    apply (sorted.and apart).imp_of_mem
    intro first second inFirst inSecond both
    exact strict first (perm.mem_iff.mp inFirst) second (perm.mem_iff.mp inSecond) both.1 both.2
  refine
    { ordered := ?_
      sound := ?_
      short := ?_
      complete := ?_ }
  · rw [List.map_take]
    exact ordered.take
  · intro item member
    obtain ⟨row, inTop, same⟩ := List.mem_map.mp member
    exact ⟨row, perm.mem_iff.mp (List.mem_of_mem_take inTop), same⟩
  · rw [List.length_map]
    exact List.length_take_le limit _
  · intro item isChosen leftOut
    obtain ⟨row, known, same⟩ := isChosen
    rw [List.map_take] at leftOut ⊢
    have inAll : item ∈ (rows.insertionSort le).map key :=
      List.mem_map.mpr ⟨row, perm.mem_iff.mpr known, same⟩
    have split := List.take_append_drop limit ((rows.insertionSort le).map key)
    rw [← split, List.mem_append] at inAll
    rw [← split, List.pairwise_append] at ordered
    have inRest := inAll.resolve_left leftOut
    refine ⟨?_, fun shown inTop => ordered.2.2 shown inTop item inRest⟩
    rw [List.length_take]
    have longer := List.length_pos_of_mem inRest
    rw [List.length_drop] at longer
    omega

/-! ### Positions -/

/-- Lists that correspond item by item are in order together. -/
theorem pairwise_of_forall₂ {carries : α → β → Prop} {order : α → α → Prop}
    {other : β → β → Prop} {items : List α} {entries : List β}
    (transfers : ∀ first second entry later, carries first entry → carries second later →
      order first second → other entry later)
    (carried : List.Forall₂ carries items entries) (ordered : items.Pairwise order) :
    entries.Pairwise other := by
  rw [List.pairwise_iff_getElem] at ordered ⊢
  intro early late earlyInside lateInside before
  have length := carried.length_eq
  apply transfers items[early] items[late] entries[early] entries[late]
  · exact carried.get (by omega) earlyInside
  · exact carried.get (by omega) lateInside
  · exact ordered early late (by omega) (by omega) before

/-- Items that carry the positions of some values in any order, sorted by these
positions, carry them in the order of the values. -/
theorem forall₂_insertionSort {carries : α → β × Nat → Prop} {order : α → α → Prop}
    [DecidableRel order] [Std.Total order] [IsTrans α order]
    (ascends : ∀ first second entry later, carries first entry → carries second later →
      order first second → entry.2 ≤ later.2)
    {items : List α} {entries : List (β × Nat)} {values : List β}
    (permuted : entries.Perm values.zipIdx) (carried : List.Forall₂ carries items entries) :
    List.Forall₂ carries (items.insertionSort order) values.zipIdx := by
  obtain ⟨sorted, isSorted, sameEntries⟩ :=
    List.perm_comp_forall₂ (List.perm_insertionSort order items) carried
  have same := sameEntries.trans permuted
  have ascending : sorted.Pairwise fun first second => first.2 ≤ second.2 :=
    pairwise_of_forall₂ ascends isSorted (List.pairwise_insertionSort order items)
  have given : values.zipIdx.Pairwise fun first second => first.2 ≤ second.2 := by
    have positions : (values.zipIdx.map (·.2)).Pairwise (· < ·) := by
      rw [List.zipIdx_map_snd]
      exact List.pairwise_lt_range'
    rw [List.pairwise_map] at positions
    exact positions.imp Nat.le_of_lt
  have unique : sorted = values.zipIdx := by
    apply same.eq_of_pairwise _ ascending given
    intro first second inFirst inSecond forth back
    have isFirst := List.mem_zipIdx_iff_getElem?.mp (same.mem_iff.mp inFirst)
    have isSecond := List.mem_zipIdx_iff_getElem?.mp inSecond
    rw [Nat.le_antisymm forth back, isSecond] at isFirst
    exact Prod.ext (Option.some.inj isFirst).symm (Nat.le_antisymm forth back)
  rw [← unique]
  exact isSorted

end Docta.Ranking
