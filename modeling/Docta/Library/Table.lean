/-
Module: Docta.Library.Table
Purpose: Relational tables as lists of rows in insertion order: conditional
  updates, unique keys and lookups by key.
Trusted boundary: none
Main exports: updateWhere, UniqueOn, UniqueOn.eq_of_key, UniqueOn.find?_eq_some,
  filter_updateWhere, uniqueOn_updateWhere, filter_eq_of_seen
-/
import Mathlib.Data.List.Basic
import Mathlib.Data.List.Nodup
import Mathlib.Data.List.Perm.Basic

namespace Docta.Table

variable {α β γ : Type}

/-! ### Updates -/

/-- `UPDATE rows SET assign WHERE condition`. -/
def updateWhere (rows : List α) (condition : α → Bool) (assign : α → α) : List α :=
  rows.map fun row => if condition row then assign row else row

section Update

variable {rows : List α} {condition : α → Bool} {assign : α → α}

@[simp] theorem updateWhere_nil : updateWhere [] condition assign = [] := rfl

theorem mem_updateWhere {row : α} :
    row ∈ updateWhere rows condition assign ↔
      ∃ source ∈ rows, (if condition source then assign source else source) = row :=
  List.mem_map

/-- An updated row comes from a row that the update matched, or was there. -/
theorem mem_updateWhere_cases {row : α} (member : row ∈ updateWhere rows condition assign) :
    (row ∈ rows ∧ condition row = false) ∨
      ∃ source ∈ rows, condition source = true ∧ row = assign source := by
  obtain ⟨source, sourceMember, rowEq⟩ := mem_updateWhere.mp member
  by_cases matched : condition source = true
  · rw [if_pos matched] at rowEq
    exact .inr ⟨source, sourceMember, matched, rowEq.symm⟩
  · rw [if_neg matched] at rowEq
    subst rowEq
    exact .inl ⟨sourceMember, by simpa using matched⟩

/-- A row the update does not match stays. -/
theorem mem_updateWhere_of_not {row : α} (member : row ∈ rows) (unmatched : condition row = false) :
    row ∈ updateWhere rows condition assign :=
  mem_updateWhere.mpr ⟨row, member, by simp [unmatched]⟩

theorem mem_updateWhere_of_matched {row : α} (member : row ∈ rows)
    (matched : condition row = true) : assign row ∈ updateWhere rows condition assign :=
  mem_updateWhere.mpr ⟨row, member, by simp [matched]⟩

/-- An update that no row matches changes nothing. -/
theorem updateWhere_eq_self (unmatched : ∀ row ∈ rows, condition row = false) :
    updateWhere rows condition assign = rows := by
  induction rows with
  | nil => rfl
  | cons row rows inductionHypothesis =>
      rw [List.forall_mem_cons] at unmatched
      have rest := inductionHypothesis unmatched.2
      unfold updateWhere at rest ⊢
      rw [List.map_cons, rest, unmatched.1]
      rfl

/-- Conditions that agree on the rows update the same rows. -/
theorem updateWhere_congr {other : α → Bool} (agree : ∀ row ∈ rows, condition row = other row) :
    updateWhere rows condition assign = updateWhere rows other assign :=
  List.map_congr_left fun row member => by rw [agree row member]

/-- A column the update does not assign keeps its values, row by row. -/
theorem map_updateWhere {field : α → β}
    (unassigned : ∀ row ∈ rows, condition row = true → field (assign row) = field row) :
    (updateWhere rows condition assign).map field = rows.map field := by
  unfold updateWhere
  rw [List.map_map]
  refine List.map_congr_left fun row member => ?_
  by_cases matched : condition row = true
  · simp [matched, unassigned row member matched]
  · simp [matched]

/-- Selecting by a condition the update does not change selects the same rows,
updated. -/
theorem filter_updateWhere {selected : α → Bool}
    (unassigned : ∀ row ∈ rows, condition row = true → selected (assign row) = selected row) :
    (updateWhere rows condition assign).filter selected =
      updateWhere (rows.filter selected) condition assign := by
  induction rows with
  | nil => rfl
  | cons row rows inductionHypothesis =>
      rw [List.forall_mem_cons] at unassigned
      have rest := inductionHypothesis unassigned.2
      have head : selected (if condition row then assign row else row) = selected row := by
        by_cases matched : condition row = true
        · rw [if_pos matched, unassigned.1 matched]
        · rw [if_neg matched]
      unfold updateWhere at rest ⊢
      rw [List.map_cons]
      by_cases isSelected : selected row = true
      · rw [List.filter_cons_of_pos (by rw [head, isSelected]), rest,
          List.filter_cons_of_pos isSelected, List.map_cons]
      · rw [List.filter_cons_of_neg (by rwa [head]), rest, List.filter_cons_of_neg isSelected]

/-- An update that takes rows out of a selection leaves fewer of them. -/
theorem sublist_filter_updateWhere {selected : α → Bool}
    (deselects : ∀ row ∈ rows, condition row = true → selected (assign row) = false) :
    ((updateWhere rows condition assign).filter selected).Sublist (rows.filter selected) := by
  induction rows with
  | nil => exact .slnil
  | cons row rows inductionHypothesis =>
      rw [List.forall_mem_cons] at deselects
      have rest := inductionHypothesis deselects.2
      unfold updateWhere at rest ⊢
      rw [List.map_cons]
      by_cases matched : condition row = true
      · rw [if_pos matched, List.filter_cons_of_neg (by simp [deselects.1 matched])]
        exact rest.trans ((List.sublist_cons_self row rows).filter selected)
      · rw [if_neg matched, List.filter_cons, List.filter_cons]
        split
        · exact rest.cons_cons row
        · exact rest

end Update

/-! ### Keys -/

/-- A unique constraint on the columns `key`. -/
def UniqueOn [DecidableEq β] (key : α → β) (rows : List α) : Prop :=
  (rows.map key).Nodup

section Unique

variable [DecidableEq β] {key : α → β} {rows : List α}

instance : Decidable (UniqueOn key rows) :=
  inferInstanceAs (Decidable (rows.map key).Nodup)

/-- Two rows with one key are one row. -/
theorem UniqueOn.eq_of_key (unique : UniqueOn key rows) {first second : α} (inFirst : first ∈ rows)
    (inSecond : second ∈ rows) (sameKey : key first = key second) : first = second :=
  List.inj_on_of_nodup_map unique inFirst inSecond sameKey

theorem UniqueOn.filter (unique : UniqueOn key rows) (selected : α → Bool) :
    UniqueOn key (rows.filter selected) :=
  unique.sublist ((List.filter_sublist).map key)

/-- Inserting a row keeps a key unique exactly when the key is new. -/
theorem uniqueOn_append_singleton {row : α} :
    UniqueOn key (rows ++ [row]) ↔ UniqueOn key rows ∧ ∀ other ∈ rows, key other ≠ key row := by
  unfold UniqueOn
  rw [List.map_append, List.nodup_append, List.map_cons, List.map_nil]
  constructor
  · rintro ⟨unique, _, apart⟩
    exact ⟨unique, fun other member => apart _ (List.mem_map_of_mem member) _ (by simp)⟩
  · rintro ⟨unique, fresh⟩
    refine ⟨unique, by simp, ?_⟩
    intro first inFirst second inSecond
    obtain ⟨other, member, rfl⟩ := List.mem_map.mp inFirst
    rw [List.mem_singleton] at inSecond
    rw [inSecond]
    exact fresh other member

/-- A row among others has a key of its own exactly when none of the others has it. -/
theorem uniqueOn_middle {earlier later : List α} {row : α} :
    UniqueOn key (earlier ++ row :: later) ↔
      UniqueOn key (earlier ++ later) ∧ ∀ other ∈ earlier ++ later, key other ≠ key row := by
  unfold UniqueOn
  rw [List.map_append, List.map_cons, List.nodup_middle, List.nodup_cons, ← List.map_append,
    and_comm]
  simp only [List.mem_map, not_exists, not_and, ne_eq]

/-- An update that does not assign the key keeps it unique. -/
theorem uniqueOn_updateWhere {condition : α → Bool} {assign : α → α}
    (unassigned : ∀ row ∈ rows, condition row = true → key (assign row) = key row) :
    UniqueOn key (updateWhere rows condition assign) ↔ UniqueOn key rows := by
  unfold UniqueOn
  rw [map_updateWhere unassigned]

/-- The rows after updating the one row with a key. -/
theorem UniqueOn.mem_updateWhere (unique : UniqueOn key rows) {assign : α → α} {row other : α}
    (member : row ∈ rows)
    (updated : other ∈ updateWhere rows (fun source => decide (key source = key row)) assign) :
    (other ∈ rows ∧ key other ≠ key row) ∨ other = assign row := by
  rcases mem_updateWhere_cases updated with ⟨stays, unmatched⟩ | ⟨source, known, matched, rfl⟩
  · exact .inl ⟨stays, by simpa using unmatched⟩
  · rw [unique.eq_of_key known member (by simpa using matched)]
    exact .inr rfl

/-- Updating the row inserted last leaves the other rows alone. -/
theorem UniqueOn.updateWhere_last {row : α} (unique : UniqueOn key (rows ++ [row]))
    {assign : α → α} :
    updateWhere (rows ++ [row]) (fun source => key source == key row) assign =
      rows ++ [assign row] := by
  have others : updateWhere rows (fun source => key source == key row) assign = rows :=
    updateWhere_eq_self fun other member =>
      beq_eq_false_iff_ne.mpr ((uniqueOn_append_singleton.mp unique).2 other member)
  unfold updateWhere at others ⊢
  rw [List.map_append, others, List.map_singleton, if_pos (beq_self_eq_true _)]

/-- Looking a key up finds its row. -/
theorem UniqueOn.find?_eq_some (unique : UniqueOn key rows) {row : α} (member : row ∈ rows) :
    rows.find? (fun other => key other = key row) = some row := by
  have found : (rows.find? fun other => key other = key row).isSome := by
    rw [List.find?_isSome]
    exact ⟨row, member, by simp⟩
  obtain ⟨other, otherEq⟩ := Option.isSome_iff_exists.mp found
  have sameKey : key other = key row := by simpa using List.find?_some otherEq
  rw [otherEq, unique.eq_of_key (List.mem_of_find?_eq_some otherEq) member sameKey]

/-- When only one row contributes to a join, the join has what that row contributes. -/
theorem UniqueOn.flatMap_eq {γ : Type} (unique : UniqueOn key rows) {row : α} (member : row ∈ rows)
    {join : α → List γ} (others : ∀ other ∈ rows, key other ≠ key row → join other = []) :
    rows.flatMap join = join row := by
  obtain ⟨earlier, later, rfl⟩ := List.append_of_mem member
  have apart := (uniqueOn_middle.mp unique).2
  have nothing : ∀ part : List α, (∀ other ∈ part, other ∈ earlier ++ later) →
      part.flatMap join = [] := by
    intro part isPart
    apply List.flatMap_eq_nil_iff.mpr
    intro other isOther
    have known := isPart other isOther
    exact others other (List.perm_middle.mem_iff.mpr (List.mem_cons_of_mem _ known))
      (apart other known)
  rw [List.flatMap_append, List.flatMap_cons,
    nothing earlier fun _ => List.mem_append_left _, nothing later fun _ => List.mem_append_right _,
    List.nil_append, List.append_nil]

/-- The rows with one key are at most one. -/
theorem UniqueOn.filter_eq (unique : UniqueOn key rows) {row : α} (member : row ∈ rows) :
    rows.filter (fun other => key other = key row) = [row] := by
  induction rows with
  | nil => cases member
  | cons head rows inductionHypothesis =>
      unfold UniqueOn at unique
      rw [List.map_cons, List.nodup_cons] at unique
      rcases List.mem_cons.mp member with same | inRows
      · subst same
        have others : rows.filter (fun other => key other = key row) = [] := by
          rw [List.filter_eq_nil_iff]
          intro other otherMember sameKey
          have sameKey : key other = key row := by simpa using sameKey
          exact unique.1 (sameKey ▸ List.mem_map_of_mem otherMember)
        rw [List.filter_cons_of_pos (by simp), others]
      · have different : ¬ key head = key row := by
          intro sameKey
          exact unique.1 (sameKey ▸ List.mem_map_of_mem inRows)
        rw [List.filter_cons_of_neg (by simpa using different)]
        exact inductionHypothesis unique.2 inRows

/-- The rows with one key are at most one. -/
theorem UniqueOn.length_filter_le_one (unique : UniqueOn key rows) (value : β) :
    (rows.filter (key · == value)).length ≤ 1 := by
  cases found : rows.filter (key · == value) with
  | nil => exact Nat.zero_le _
  | cons row others =>
      have inRows := List.mem_filter.mp (found ▸ List.mem_cons_self : row ∈ rows.filter _)
      have hasKey : key row = value := by simpa using inRows.2
      have alone : rows.filter (key · == value) = [row] := by
        rw [← unique.filter_eq inRows.1]
        refine List.filter_congr fun other _ => ?_
        rw [← hasKey, beq_eq_decide]
      rw [found] at alone
      rw [alone]
      exact Nat.le_refl _

/-- When every item owns the rows under its key, the rows under one key are those
of its item. -/
theorem filter_flatMap_of_owner {γ : Type} {items : List γ} {owned : γ → List α} {owner : γ → β}
    (unique : UniqueOn owner items)
    (owns : ∀ item ∈ items, ∀ row ∈ owned item, key row = owner item) {item : γ}
    (member : item ∈ items) :
    (items.flatMap owned).filter (key · == owner item) = owned item := by
  have all : ∀ other ∈ items, owner other = owner item →
      (owned other).filter (key · == owner item) = owned other := by
    intro other otherMember same
    rw [List.filter_eq_self]
    intro row inOther
    rw [owns other otherMember row inOther, same]
    exact beq_self_eq_true _
  have none : ∀ other ∈ items, owner other ≠ owner item →
      (owned other).filter (key · == owner item) = [] := by
    intro other otherMember different
    rw [List.filter_eq_nil_iff]
    intro row inOther
    rw [owns other otherMember row inOther]
    simpa using different
  obtain ⟨earlier, later, rfl⟩ := List.append_of_mem member
  have apart := (uniqueOn_middle.mp unique).2
  have outside (others : List γ) (inItems : ∀ other ∈ others, other ∈ earlier ++ item :: later)
      (different : ∀ other ∈ others, owner other ≠ owner item) :
      (others.flatMap owned).filter (key · == owner item) = [] := by
    rw [List.filter_flatMap, List.flatMap_eq_nil_iff]
    exact fun other inOthers => none other (inItems other inOthers) (different other inOthers)
  rw [List.flatMap_append, List.flatMap_cons, List.filter_append, List.filter_append,
    outside earlier (by simp +contextual) fun other inEarlier =>
      apart other (List.mem_append_left _ inEarlier),
    outside later (by simp +contextual) fun other inLater =>
      apart other (List.mem_append_right _ inLater),
    all item (by simp) rfl, List.nil_append, List.append_nil]

end Unique

/-! ### What a reader sees -/

section Seen

variable {left right : List α} {seen selected other : α → Bool}

/-- Tables that agree on the rows a reader sees agree on every selection of them:
a selection may be written differently over each table, as long as it selects seen
rows only, and the same ones. -/
theorem filter_eq_of_seen (agree : left.filter seen = right.filter seen)
    (inLeft : ∀ row ∈ left, selected row = true → seen row = true)
    (inRight : ∀ row ∈ right, other row = true → seen row = true)
    (same : ∀ row ∈ left, seen row = true → selected row = other row) :
    left.filter selected = right.filter other := by
  have throughLeft : (left.filter seen).filter selected = left.filter selected := by
    rw [List.filter_filter]
    refine List.filter_congr fun row member => ?_
    cases isSelected : selected row with
    | false => rfl
    | true => rw [inLeft row member isSelected, Bool.and_self]
  have throughRight : (right.filter seen).filter other = right.filter other := by
    rw [List.filter_filter]
    refine List.filter_congr fun row member => ?_
    cases isSelected : other row with
    | false => rfl
    | true => rw [inRight row member isSelected, Bool.and_self]
  rw [← throughLeft, ← throughRight, ← agree]
  refine List.filter_congr fun row member => ?_
  exact same row (List.mem_filter.mp member).1 (List.mem_filter.mp member).2

theorem find?_eq_of_seen (agree : left.filter seen = right.filter seen)
    (inLeft : ∀ row ∈ left, selected row = true → seen row = true)
    (inRight : ∀ row ∈ right, other row = true → seen row = true)
    (same : ∀ row ∈ left, seen row = true → selected row = other row) :
    left.find? selected = right.find? other := by
  rw [← List.head?_filter, ← List.head?_filter, filter_eq_of_seen agree inLeft inRight same]

theorem any_eq_of_seen (agree : left.filter seen = right.filter seen)
    (inLeft : ∀ row ∈ left, selected row = true → seen row = true)
    (inRight : ∀ row ∈ right, other row = true → seen row = true)
    (same : ∀ row ∈ left, seen row = true → selected row = other row) :
    left.any selected = right.any other := by
  rw [← List.isSome_find?, ← List.isSome_find?, find?_eq_of_seen agree inLeft inRight same]

/-- One selection of seen rows only. -/
theorem filter_eq_of_seen_only (agree : left.filter seen = right.filter seen)
    (only : ∀ row, selected row = true → seen row = true) :
    left.filter selected = right.filter selected :=
  filter_eq_of_seen agree (fun row _ => only row) (fun row _ => only row) fun _ _ _ => rfl

theorem any_eq_of_seen_only (agree : left.filter seen = right.filter seen)
    (only : ∀ row, selected row = true → seen row = true) :
    left.any selected = right.any selected :=
  any_eq_of_seen agree (fun row _ => only row) (fun row _ => only row) fun _ _ _ => rfl

/-- A seen row is in both tables. -/
theorem mem_iff_of_seen (agree : left.filter seen = right.filter seen) {row : α}
    (isSeen : seen row = true) : row ∈ left ↔ row ∈ right := by
  have inBoth : row ∈ left.filter seen ↔ row ∈ right.filter seen := by rw [agree]
  simpa only [List.mem_filter, isSeen, and_true] using inBoth

end Seen

/-! ### Joins -/

/-- `LEFT OUTER JOIN`: every left row with its partners, or alone. -/
def outerJoin (rows : List α) (partners : α → List β) : List (α × Option β) :=
  rows.flatMap fun row =>
    match partners row with
    | [] => [(row, none)]
    | found => found.map fun partner => (row, some partner)

theorem fst_mem_of_mem_outerJoin {rows : List α} {partners : α → List β} {pair : α × Option β}
    (member : pair ∈ outerJoin rows partners) : pair.1 ∈ rows := by
  obtain ⟨row, known, paired⟩ := List.mem_flatMap.mp member
  split at paired
  · rw [List.mem_singleton.mp paired]
    exact known
  · obtain ⟨partner, _, same⟩ := List.mem_map.mp paired
    rw [← same]
    exact known

theorem outerJoin_congr {rows : List α} {partners others : α → List β}
    (same : ∀ row ∈ rows, partners row = others row) :
    outerJoin rows partners = outerJoin rows others :=
  List.flatMap_congr fun row member => by rw [same row member]

/-- Mapping the partners maps the right side of the join. -/
theorem outerJoin_map {rows : List α} {partners : α → List β} {image : β → γ} :
    outerJoin rows (fun row => (partners row).map image) =
      (outerJoin rows partners).map fun pair => (pair.1, pair.2.map image) := by
  unfold outerJoin
  rw [List.map_flatMap]
  refine List.flatMap_congr fun row _ => ?_
  dsimp only
  cases partners row with
  | nil => rfl
  | cons first rest =>
      simp only [List.map_cons, List.map_map, Option.map_some]
      rfl

/-- A join in which every left row has exactly one partner keeps the left rows:
none is lost and none is repeated. -/
theorem map_fst_join {rows : List α} {partners : α → List β}
    (unique : ∀ row ∈ rows, ∃ partner, partners row = [partner]) :
    (rows.flatMap fun row => (partners row).map fun partner => (row, partner)).map Prod.fst =
      rows := by
  induction rows with
  | nil => rfl
  | cons row rows inductionHypothesis =>
      rw [List.forall_mem_cons] at unique
      obtain ⟨partner, partnersEq⟩ := unique.1
      rw [List.flatMap_cons, partnersEq, List.map_append, inductionHypothesis unique.2]
      rfl

end Docta.Table
