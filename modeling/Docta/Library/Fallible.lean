/-
Module: Docta.Library.Fallible
Purpose: Inversion rules for computations that may raise. Every validator and
  every transaction of the development is an `Except` computation, so reading a
  success backwards through `>>=`, a guard and a traversal is stated here once.
Trusted boundary: none
Main exports: failIf, bind_eq_ok, failIf_eq_ok, mapM_eq_ok_iff_forall₂,
  mapM_ok_iff_map_eq
-/
import Mathlib.Data.List.Forall2

namespace Docta.Fallible

variable {ε α β γ : Type}

/-- The statement `if condition: raise error`. -/
def failIf (condition : Prop) [Decidable condition] (error : ε) : Except ε Unit :=
  if condition then .error error else .ok ()

@[simp] theorem ok_bind {value : α} {next : α → Except ε β} :
    ((.ok value : Except ε α) >>= next) = next value := rfl

/-- A sequenced computation succeeds exactly when both halves do. -/
@[simp] theorem bind_eq_ok {first : Except ε α} {next : α → Except ε β} {result : β} :
    (first >>= next) = .ok result ↔ ∃ value, first = .ok value ∧ next value = .ok result := by
  cases first with
  | error error => simp [bind, Except.bind]
  | ok value => simp [bind, Except.bind]

@[simp] theorem pure_eq_ok {value result : α} :
    (pure value : Except ε α) = .ok result ↔ value = result := by
  simp [pure, Except.pure]

@[simp] theorem map_eq_ok {function : α → β} {first : Except ε α} {result : β} :
    (function <$> first) = .ok result ↔ ∃ value, first = .ok value ∧ function value = result := by
  cases first with
  | error error => simp [Functor.map, Except.map]
  | ok value => simp [Functor.map, Except.map]

/-- A guard lets the computation continue exactly when its condition is false. -/
@[simp] theorem failIf_eq_ok {condition : Prop} [Decidable condition] {error : ε} {done : Unit} :
    failIf condition error = .ok done ↔ ¬ condition := by
  unfold failIf
  by_cases holds : condition
  · simp [holds]
  · simp [holds]

/-- A guard whose condition is false does nothing. -/
theorem failIf_of_not {condition : Prop} [Decidable condition] {error : ε} (fails : ¬ condition) :
    failIf condition error = .ok () :=
  if_neg fails

/-- A sequenced computation raises what its first half raises, or what its second
half does. -/
theorem bind_eq_error {first : Except ε α} {next : α → Except ε β} {error : ε} :
    (first >>= next) = .error error ↔
      first = .error error ∨ ∃ value, first = .ok value ∧ next value = .error error := by
  cases first with
  | error raised => simp [bind, Except.bind]
  | ok value => simp [bind, Except.bind]

theorem failIf_eq_error {condition : Prop} [Decidable condition] {error raised : ε} :
    failIf condition error = .error raised ↔ condition ∧ error = raised := by
  unfold failIf
  by_cases holds : condition
  · simp [holds]
  · simp [holds]

/-- Renaming errors keeps the successes. -/
@[simp] theorem mapError_eq_ok {δ : Type} {rename : ε → δ} {first : Except ε α} {result : α} :
    first.mapError rename = .ok result ↔ first = .ok result := by
  cases first with
  | error error => simp [Except.mapError]
  | ok value => simp [Except.mapError]

/-- A traversal succeeds exactly when it succeeds pointwise, in order. -/
theorem mapM_eq_ok_iff_forall₂ {function : α → Except ε β} :
    ∀ {items : List α} {results : List β},
      items.mapM function = .ok results ↔
        List.Forall₂ (fun item result => function item = .ok result) items results
  | [], results => by
      simp only [List.mapM_nil, pure_eq_ok, List.forall₂_nil_left_iff]
      exact eq_comm
  | item :: items, results => by
      simp only [List.mapM_cons, bind_eq_ok, pure_eq_ok, mapM_eq_ok_iff_forall₂,
        List.forall₂_cons_left_iff]
      constructor
      · rintro ⟨head, headOk, tail, tailOk, rfl⟩
        exact ⟨head, tail, headOk, tailOk, rfl⟩
      · rintro ⟨head, tail, headOk, tailOk, rfl⟩
        exact ⟨head, headOk, tail, tailOk, rfl⟩

/-- A traversal keeps the number of items. -/
theorem length_eq_of_mapM_ok {function : α → Except ε β} {items : List α} {results : List β}
    (ok : items.mapM function = .ok results) : results.length = items.length :=
  (mapM_eq_ok_iff_forall₂.mp ok).length_eq.symm

/-- Every result of a successful traversal comes from one of the items. -/
theorem exists_item_of_mapM_ok {function : α → Except ε β} {items : List α} {results : List β}
    (ok : items.mapM function = .ok results) {result : β} (member : result ∈ results) :
    ∃ item ∈ items, function item = .ok result := by
  have pointwise := mapM_eq_ok_iff_forall₂.mp ok
  induction pointwise with
  | nil => cases member
  | cons headOk tailOk inductionHypothesis =>
      rcases List.mem_cons.mp member with rfl | inTail
      · exact ⟨_, List.mem_cons_self, headOk⟩
      · obtain ⟨item, itemMember, itemOk⟩ :=
          inductionHypothesis (mapM_eq_ok_iff_forall₂.mpr tailOk) inTail
        exact ⟨item, List.mem_cons_of_mem _ itemMember, itemOk⟩

/-- Every item of a successful traversal has one of the results. -/
theorem exists_result_of_mapM_ok {function : α → Except ε β} {items : List α} {results : List β}
    (ok : items.mapM function = .ok results) {item : α} (member : item ∈ items) :
    ∃ result ∈ results, function item = .ok result := by
  have pointwise := mapM_eq_ok_iff_forall₂.mp ok
  induction pointwise with
  | nil => cases member
  | cons headOk tailOk inductionHypothesis =>
      rcases List.mem_cons.mp member with rfl | inTail
      · exact ⟨_, List.mem_cons_self, headOk⟩
      · obtain ⟨result, resultMember, resultOk⟩ :=
          inductionHypothesis (mapM_eq_ok_iff_forall₂.mpr tailOk) inTail
        exact ⟨result, List.mem_cons_of_mem _ resultMember, resultOk⟩

/-- When each success is the image of its item, so are the results. -/
theorem eq_map_of_mapM_ok {function : α → Except ε β} {image : α → β} {items : List α}
    {results : List β} (pointwise : ∀ item result, function item = .ok result → result = image item)
    (ok : items.mapM function = .ok results) : results = items.map image := by
  have each := mapM_eq_ok_iff_forall₂.mp ok
  induction each with
  | nil => rfl
  | cons headOk tailOk inductionHypothesis =>
      rw [List.map_cons, ← pointwise _ _ headOk,
        ← inductionHypothesis (mapM_eq_ok_iff_forall₂.mpr tailOk)]

/-- A column that each success takes over from its item. -/
theorem map_eq_map_of_mapM_ok {function : α → Except ε β} {column : β → γ} {source : α → γ}
    {items : List α} {results : List β}
    (pointwise : ∀ item result, function item = .ok result → column result = source item)
    (ok : items.mapM function = .ok results) : results.map column = items.map source := by
  have each := mapM_eq_ok_iff_forall₂.mp ok
  induction each with
  | nil => rfl
  | cons headOk tailOk inductionHypothesis =>
      rw [List.map_cons, List.map_cons, pointwise _ _ headOk,
        inductionHypothesis (mapM_eq_ok_iff_forall₂.mpr tailOk)]

/-- A traversal succeeds when it does at every item. -/
theorem exists_mapM_ok {function : α → Except ε β} {items : List α}
    (each : ∀ item ∈ items, ∃ result, function item = .ok result) :
    ∃ results, items.mapM function = .ok results := by
  induction items with
  | nil => exact ⟨[], rfl⟩
  | cons item items inductionHypothesis =>
      rw [List.forall_mem_cons] at each
      rcases each.1 with ⟨head, headOk⟩
      rcases inductionHypothesis each.2 with ⟨tail, tailOk⟩
      refine ⟨head :: tail, ?_⟩
      simp only [List.mapM_cons, bind_eq_ok, pure_eq_ok]
      exact ⟨head, headOk, tail, tailOk, rfl⟩

/-- What a traversal raises, one of its items raises. -/
theorem exists_item_of_mapM_error {function : α → Except ε β} {items : List α} {error : ε}
    (raised : items.mapM function = .error error) : ∃ item ∈ items, function item = .error error := by
  induction items with
  | nil => cases raised
  | cons item items inductionHypothesis =>
      rw [List.mapM_cons, bind_eq_error] at raised
      rcases raised with here | ⟨_, _, later⟩
      · exact ⟨item, List.mem_cons_self, here⟩
      · rcases bind_eq_error.mp later with there | ⟨_, _, done⟩
        · obtain ⟨other, member, found⟩ := inductionHypothesis there
          exact ⟨other, List.mem_cons_of_mem _ member, found⟩
        · cases done

/-- A traversal that only checks succeeds exactly when every item passes. -/
theorem exists_mapM_eq_ok_iff {check : α → Except ε Unit} {items : List α} :
    (∃ results, items.mapM check = .ok results) ↔ ∀ item ∈ items, check item = .ok () := by
  induction items with
  | nil => simp
  | cons item items inductionHypothesis =>
      simp only [List.mapM_cons, bind_eq_ok, pure_eq_ok, List.forall_mem_cons]
      rw [← inductionHypothesis]
      constructor
      · rintro ⟨results, done, itemOk, rest, itemsOk, rfl⟩
        exact ⟨itemOk, rest, itemsOk⟩
      · rintro ⟨itemOk, rest, itemsOk⟩
        exact ⟨() :: rest, (), itemOk, rest, itemsOk, rfl⟩

/-- Mapping the results of a successful traversal. -/
theorem mapM_map_result {function : α → Except ε β} {image : β → γ} {items : List α}
    {results : List β} (ok : items.mapM function = .ok results) :
    items.mapM (fun item => image <$> function item) = .ok (results.map image) :=
  mapM_eq_ok_iff_forall₂.mpr
    (List.forall₂_map_right_iff.mpr ((mapM_eq_ok_iff_forall₂.mp ok).imp
      fun item result itemOk => by rw [itemOk]; rfl))

/-- A traversal of mapped items whose every element is decoded back succeeds. -/
theorem mapM_map_eq_ok {encode : β → α} {decode : α → Except ε γ} {image : β → γ}
    {items : List β} (pointwise : ∀ item ∈ items, decode (encode item) = .ok (image item)) :
    (items.map encode).mapM decode = .ok (items.map image) := by
  induction items with
  | nil => rfl
  | cons item items inductionHypothesis =>
      have headOk := pointwise item List.mem_cons_self
      have tailOk := inductionHypothesis fun other member =>
        pointwise other (List.mem_cons_of_mem _ member)
      simp [List.mapM_cons, headOk, tailOk, bind, Except.bind, pure, Except.pure]

/-- Two traversals of one list that agree pointwise up to `image` agree as a
whole: given that the first succeeds, the second returns `others` exactly when
the image of `others` is the first result. -/
theorem mapM_ok_iff_map_eq {first : α → Except ε β} {δ : Type} {second : α → Except δ γ}
    {image : γ → β} :
    ∀ {items : List α} {results : List β}, items.mapM first = .ok results →
      (∀ item, ∀ result ∈ results, first item = .ok result →
        ∀ other, second item = .ok other ↔ image other = result) →
      ∀ others, items.mapM second = .ok others ↔ others.map image = results
  | [], results, ok, _, others => by
      simp only [List.mapM_nil, pure_eq_ok] at ok ⊢
      subst ok
      rw [List.map_eq_nil_iff]
      exact eq_comm
  | item :: items, results, ok, pointwise, others => by
      simp only [List.mapM_cons, bind_eq_ok, pure_eq_ok] at ok
      obtain ⟨result, itemOk, rest, itemsOk, rfl⟩ := ok
      have tail := mapM_ok_iff_map_eq itemsOk fun item result member =>
        pointwise item result (List.mem_cons_of_mem _ member)
      have here := pointwise item result List.mem_cons_self itemOk
      simp only [List.mapM_cons, bind_eq_ok, pure_eq_ok]
      constructor
      · rintro ⟨head, headOk, remaining, remainingOk, rfl⟩
        rw [List.map_cons, (here head).mp headOk,
          (tail remaining).mp remainingOk]
      · intro mapped
        cases others with
        | nil => simp at mapped
        | cons head remaining =>
            rw [List.map_cons, List.cons.injEq] at mapped
            exact ⟨head, (here head).mpr mapped.1, remaining,
              (tail remaining).mpr mapped.2, rfl⟩

/-- The value an operation that does not raise returns. -/
def valueOf {ε α : Type} (operation : Except ε α) (returns : operation.toOption.isSome = true) : α :=
  operation.toOption.get returns

theorem eq_ok_valueOf {ε α : Type} {operation : Except ε α}
    (returns : operation.toOption.isSome = true) :
    operation = .ok (valueOf operation returns) := by
  cases operation with
  | error failure => cases returns
  | ok value => rfl

end Docta.Fallible
