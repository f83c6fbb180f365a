/-
Module: Docta.Library.Paragraphs
Purpose: Taking a growing text apart at its blank lines. A paragraph ends at two
  separators in a row; what is handled does not depend on where the text was cut
  while it grew, and a text that breaks off gives the paragraphs that are whole.
Trusted boundary: none
Main exports: cut, drain, drain_append, drain_blocks, drain_prefix
-/
import Docta.Library.Utf8Stream

namespace Docta.Paragraphs

open Utf8Stream

section Cutting

variable {α : Type} [DecidableEq α] (separator : α)

/-- The text before the first two separators in a row, and the text after them. -/
def cut : List α → Option (List α × List α)
  | [] => none
  | char :: rest =>
      if char = separator ∧ rest.head? = some separator then some ([], rest.tail)
      else (cut rest).map fun found => (char :: found.1, found.2)

variable {separator} {text block rest : List α}

theorem cut_cons {char : α} (inside : ¬ (char = separator ∧ text.head? = some separator)) :
    cut separator (char :: text) =
      (cut separator text).map fun found => (char :: found.1, found.2) := by
  rw [cut, if_neg inside]

/-- What a cut leaves is the end of the text. -/
theorem eq_of_cut (found : cut separator text = some (block, rest)) :
    text = block ++ separator :: separator :: rest := by
  induction text generalizing block with
  | nil => cases found
  | cons char text ih =>
      rw [cut] at found
      split at found
      · rename_i boundary
        cases found
        obtain ⟨rfl, head⟩ := boundary
        cases text with
        | nil => cases head
        | cons next text =>
            rw [List.head?_cons, Option.some.injEq] at head
            rw [head]
            rfl
      · obtain ⟨inner, innerFound, same⟩ := Option.map_eq_some_iff.mp found
        obtain ⟨innerBlock, innerRest⟩ := inner
        cases same
        rw [ih innerFound]
        rfl

theorem length_of_cut (found : cut separator text = some (block, rest)) :
    rest.length < text.length := by
  rw [eq_of_cut found, List.length_append, List.length_cons, List.length_cons]
  omega

/-- A boundary stays where it is when the text grows. -/
theorem cut_append (found : cut separator text = some (block, rest)) (more : List α) :
    cut separator (text ++ more) = some (block, rest ++ more) := by
  induction text generalizing block with
  | nil => cases found
  | cons char text ih =>
      rw [cut] at found
      split at found
      · rename_i boundary
        cases found
        obtain ⟨rfl, head⟩ := boundary
        cases text with
        | nil => cases head
        | cons next text => rw [List.cons_append, cut, if_pos ⟨rfl, head⟩]; rfl
      · rename_i inside
        obtain ⟨inner, innerFound, same⟩ := Option.map_eq_some_iff.mp found
        obtain ⟨innerBlock, innerRest⟩ := inner
        cases same
        have grown : ¬ (char = separator ∧ (text ++ more).head? = some separator) := by
          cases text with
          | nil => cases innerFound
          | cons next text => exact inside
        rw [List.cons_append, cut_cons grown, ih innerFound]
        rfl

/-- A front of a text without a boundary has none. -/
theorem cut_of_isPrefix {part : List α} (isPart : part <+: text) (absent : cut separator text = none) :
    cut separator part = none := by
  obtain ⟨more, rfl⟩ := isPart
  cases found : cut separator part with
  | none => rfl
  | some result =>
      rw [cut_append found more] at absent
      cases absent

/-- A character that is no separator adds no boundary. -/
theorem cut_concat (absent : cut separator text = none) {char : α} (other : char ≠ separator) :
    cut separator (text ++ [char]) = none := by
  induction text with
  | nil => rw [List.nil_append, cut_cons (by intro both; exact other both.1)]; rfl
  | cons head text ih =>
      rw [cut] at absent
      split at absent
      · cases absent
      · rename_i inside
        have grown : ¬ (head = separator ∧ (text ++ [char]).head? = some separator) := by
          cases text with
          | nil =>
              intro both
              exact other (Option.some.inj both.2)
          | cons next text => exact inside
        rw [List.cons_append, cut_cons grown, ih (Option.map_eq_none_iff.mp absent)]
        rfl

/-- The text is a paragraph: the two separators after it are the first in a row. -/
def IsBlock (separator : α) (block : List α) : Prop :=
  cut separator (block ++ [separator]) = none

theorem IsBlock.cut_eq (isBlock : IsBlock separator block) (rest : List α) :
    cut separator (block ++ separator :: separator :: rest) = some (block, rest) := by
  induction block with
  | nil => rw [List.nil_append, cut, if_pos ⟨rfl, rfl⟩]; rfl
  | cons char block ih =>
      rw [IsBlock, List.cons_append, cut] at isBlock
      split at isBlock
      · cases isBlock
      · rename_i inside
        have grown : ¬ (char = separator ∧
            (block ++ separator :: separator :: rest).head? = some separator) := by
          cases block with
          | nil => exact inside
          | cons next block => exact inside
        rw [List.cons_append, cut_cons grown, ih (Option.map_eq_none_iff.mp isBlock)]
        rfl

/-- Characters that are no separators are skipped. -/
theorem cut_skip {line : List α} (single : separator ∉ line) (absent : cut separator rest = none) :
    cut separator (line ++ rest) = none := by
  induction line with
  | nil => exact absent
  | cons char line ih =>
      rw [List.mem_cons, not_or] at single
      rw [List.cons_append, cut_cons (by intro both; exact single.1 both.1.symm), ih single.2]
      rfl

theorem cut_break (other : rest.head? ≠ some separator) (absent : cut separator rest = none) :
    cut separator (separator :: rest) = none := by
  rw [cut_cons (by intro both; exact other both.2), absent]
  rfl

/-- Lines make a paragraph when none of them is empty. -/
theorem isBlock_lines {lines : List (List α)} (some : lines ≠ [])
    (each : ∀ line ∈ lines, line ≠ [] ∧ separator ∉ line) :
    IsBlock separator ([separator].intercalate lines) := by
  induction lines with
  | nil => exact absurd rfl some
  | cons line lines ih =>
      obtain ⟨⟨_, single⟩, others⟩ := List.forall_mem_cons.mp each
      cases lines with
      | nil =>
          rw [IsBlock, List.intercalate_singleton]
          apply cut_skip single
          exact cut_break (by simp) rfl
      | cons next lines =>
          have later := ih (List.cons_ne_nil _ _) others
          obtain ⟨someNext, singleNext⟩ := others next List.mem_cons_self
          rw [IsBlock] at later ⊢
          rw [List.intercalate_cons_cons, List.append_assoc, List.append_assoc, List.singleton_append]
          apply cut_skip single
          refine cut_break ?_ later
          cases next with
          | nil => exact absurd rfl someNext
          | cons head next =>
              rw [List.mem_cons, not_or] at singleNext
              rw [List.intercalate_cons_cons_left, List.cons_append, List.head?_cons]
              intro same
              exact singleNext.1 (Option.some.inj same).symm

omit [DecidableEq α] in
/-- What stands in joined lines is a separator or stands in one of them. -/
theorem mem_intercalate {lines : List (List α)} {char : α}
    (member : char ∈ [separator].intercalate lines) :
    char = separator ∨ ∃ line ∈ lines, char ∈ line := by
  induction lines with
  | nil => cases member
  | cons line lines ih =>
      cases lines with
      | nil =>
          rw [List.intercalate_singleton] at member
          exact .inr ⟨line, List.mem_cons_self, member⟩
      | cons next lines =>
          rw [List.intercalate_cons_cons, List.mem_append, List.mem_append] at member
          rcases member with (inLine | isSeparator) | later
          · exact .inr ⟨line, List.mem_cons_self, inLine⟩
          · exact .inl (List.mem_singleton.mp isSeparator)
          · rcases ih later with isSeparator | ⟨other, known, inOther⟩
            · exact .inl isSeparator
            · exact .inr ⟨other, List.mem_cons_of_mem _ known, inOther⟩

end Cutting

/-! ### Handling the paragraphs -/

section Draining

variable {α β ε : Type} [DecidableEq α] (separator : α) (handle : List α → Except ε (List β))

/-- The paragraphs of the buffer are handled in order, and what follows the last
of them stays. -/
def drain (buffer : List α) : List β × Except ε (List α) :=
  match _found : cut separator buffer with
  | none => ([], .ok buffer)
  | some (block, rest) =>
      match handle block with
      | .error error => ([], .error error)
      | .ok made => (made ++ (drain rest).1, (drain rest).2)
termination_by buffer.length
decreasing_by all_goals exact length_of_cut _found

variable {separator handle}

theorem drain_of_none {buffer : List α} (absent : cut separator buffer = none) :
    drain separator handle buffer = ([], .ok buffer) := by
  rw [drain]
  split
  · rfl
  · rename_i found
    rw [absent] at found
    cases found

theorem drain_of_some {buffer block rest : List α} (found : cut separator buffer = some (block, rest))
    {made : List β} (handled : handle block = .ok made) :
    drain separator handle buffer =
      (made ++ (drain separator handle rest).1, (drain separator handle rest).2) := by
  rw [drain]
  split
  · rename_i absent
    rw [absent] at found
    cases found
  · rename_i block' rest' found'
    rw [found] at found'
    cases found'
    rw [handled]

/-- What is left has no boundary and is the end of the buffer. -/
theorem drain_left {buffer left : List α} {made : List β}
    (drained : drain separator handle buffer = (made, .ok left)) :
    cut separator left = none ∧ left <:+ buffer := by
  fun_induction drain separator handle buffer generalizing made with
  | case1 buffer absent =>
      cases drained
      exact ⟨absent, List.suffix_refl _⟩
  | case2 => cases drained
  | case3 buffer block rest found madeFirst handled ih =>
      cases restDrained : drain separator handle rest with
      | mk later result =>
          rw [restDrained] at drained
          cases drained
          obtain ⟨absent, ends⟩ := ih restDrained
          refine ⟨absent, ends.trans ?_⟩
          rw [eq_of_cut found]
          exact (List.suffix_cons _ _).trans ((List.suffix_cons _ _).trans (List.suffix_append _ _))

/-- A text that grows is handled as it comes. -/
theorem drain_append {buffer left : List α} {made : List β}
    (drained : drain separator handle buffer = (made, .ok left)) (more : List α) :
    drain separator handle (buffer ++ more) =
      (made ++ (drain separator handle (left ++ more)).1,
        (drain separator handle (left ++ more)).2) := by
  fun_induction drain separator handle buffer generalizing made with
  | case1 buffer absent =>
      cases drained
      rfl
  | case2 => cases drained
  | case3 buffer block rest found madeFirst handled ih =>
      cases restDrained : drain separator handle rest with
      | mk later result =>
          rw [restDrained] at drained
          cases drained
          rw [drain_of_some (cut_append found more) handled, ih restDrained, List.append_assoc]

/-- The text of paragraphs, each ended. -/
def terminated (separator : α) (blocks : List (List α)) : List α :=
  blocks.flatMap fun block => block ++ [separator, separator]

omit [DecidableEq α] in
theorem terminated_cons (block : List α) (blocks : List (List α)) :
    terminated separator (block :: blocks) =
      block ++ separator :: separator :: terminated separator blocks := by
  simp [terminated]

section Blocks

variable {γ : Type} {items : List γ} {block : γ → List α} {made : γ → List β}

/-- Paragraphs that are handled without error are all handled. -/
theorem drain_blocks
    (each : ∀ item ∈ items, IsBlock separator (block item) ∧ handle (block item) = .ok (made item)) :
    drain separator handle (terminated separator (items.map block)) =
      (items.flatMap made, .ok []) := by
  induction items with
  | nil => exact drain_of_none rfl
  | cons item items ih =>
      obtain ⟨⟨isBlock, handled⟩, others⟩ := List.forall_mem_cons.mp each
      rw [List.map_cons, terminated_cons, drain_of_some (isBlock.cut_eq _) handled, ih others,
        List.flatMap_cons]

/-- Of a text that breaks off, the paragraphs that are whole. -/
theorem drain_prefix
    (each : ∀ item ∈ items, IsBlock separator (block item) ∧ handle (block item) = .ok (made item))
    {text : List α} (isPart : text <+: terminated separator (items.map block)) :
    ∃ whole left, drain separator handle text = (whole, .ok left) ∧ whole <+: items.flatMap made := by
  induction items generalizing text with
  | nil =>
      rw [List.prefix_nil.mp isPart]
      exact ⟨[], [], drain_of_none rfl, List.nil_prefix⟩
  | cons item items ih =>
      obtain ⟨⟨isBlock, handled⟩, others⟩ := List.forall_mem_cons.mp each
      have isEnded : terminated separator ((item :: items).map block) =
          (block item ++ [separator]) ++ [separator] ++
            terminated separator (items.map block) := by
        rw [List.map_cons, terminated_cons, List.append_assoc, List.append_assoc]
        rfl
      rw [isEnded] at isPart
      rcases prefix_append_cases isPart with ⟨inside, proper⟩ | ⟨more, rfl, isMore⟩
      · -- the text breaks off before the second separator
        have within : text <+: block item ++ [separator] :=
          (List.prefix_concat_iff.mp inside).resolve_left proper
        exact ⟨[], text, drain_of_none (cut_of_isPrefix within isBlock), List.nil_prefix⟩
      · obtain ⟨whole, left, drained, isFront⟩ := ih others isMore
        have found := isBlock.cut_eq more
        rw [List.append_cons, List.append_cons] at found
        refine ⟨made item ++ whole, left, ?_, ?_⟩
        · rw [drain_of_some found handled, drained]
        · exact (List.prefix_append_right_inj _).mpr isFront

end Blocks

end Draining

end Docta.Paragraphs
