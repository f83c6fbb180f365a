/-
Module: Docta.Library.Quoted
Purpose: Values between quotes. The writer puts an escape before every escape and
  every quote. One reader closes a value at the first quote without an escape of its
  own; a greedy one steps over an escaped quote as long as a later quote closes the
  value, and takes an escaped escape before a quote for one.
Trusted boundary: none
Main exports: replace, written, unescape, firstClosing, closing, unescape_written,
  firstClosing_written, closing_written, closing_runs_on
-/
import Mathlib.Data.List.Basic

namespace Docta.Quoted

section Quoting

variable {α : Type} [DecidableEq α] (escape quote : α)

/-- The text with every occurrence of one character replaced. -/
def replace (char : α) (replacement : List α) : List α → List α
  | [] => []
  | other :: rest =>
      if other = char then replacement ++ replace char replacement rest
      else other :: replace char replacement rest

/-- The text with an escape before every escape and every quote. -/
def written : List α → List α
  | [] => []
  | char :: rest =>
      if char = escape ∨ char = quote then escape :: char :: written rest
      else char :: written rest

/-- The text with every escaped escape and every escaped quote decoded. -/
def unescape : List α → List α
  | [] => []
  | [last] => [last]
  | char :: next :: rest =>
      if char = escape ∧ (next = escape ∨ next = quote) then next :: unescape rest
      else char :: unescape (next :: rest)

/-- The value up to the first quote that is not escaped, and the text after it. -/
def firstClosing : List α → Option (List α × List α)
  | [] => none
  | [last] => if last = quote then some ([], []) else none
  | char :: next :: rest =>
      if char = quote then some ([], next :: rest)
      else if char = escape ∧ (next = escape ∨ next = quote) then
        (firstClosing rest).map fun found => (escape :: next :: found.1, found.2)
      else (firstClosing (next :: rest)).map fun found => (char :: found.1, found.2)

/-- The value up to its closing quote and the text after it, greedily. An escaped quote is
stepped over; only where no later quote closes the value does it close it. -/
def closing : List α → Option (List α × List α)
  | [] => none
  | [last] => if last = quote then some ([], []) else none
  | char :: next :: rest =>
      if char = quote then some ([], next :: rest)
      else if char = escape ∧ next = quote then
        match closing rest with
        | some (body, after) => some (escape :: quote :: body, after)
        | none => some ([escape], rest)
      else (closing (next :: rest)).map fun found => (char :: found.1, found.2)

variable {escape quote}

/-- Escaping in two replacements, the escapes first, is escaping in one pass. -/
theorem replace_replace (distinct : escape ≠ quote) (text : List α) :
    replace quote [escape, quote] (replace escape [escape, escape] text) =
      written escape quote text := by
  induction text with
  | nil => rfl
  | cons char text ih =>
      by_cases isEscape : char = escape
      · subst isEscape
        simp only [replace, written, if_true, true_or, List.cons_append, List.nil_append,
          distinct, if_false, ih]
      · by_cases isQuote : char = quote
        · subst isQuote
          simp only [replace, written, isEscape, if_false, if_true, or_true, List.cons_append,
            List.nil_append, ih]
        · simp only [replace, written, isEscape, isQuote, or_self, if_false, ih]

theorem mem_written {char : α} {text : List α} (member : char ∈ written escape quote text) :
    char = escape ∨ char ∈ text := by
  induction text with
  | nil => cases member
  | cons first text ih =>
      have inner (member : char ∈ written escape quote text) : char = escape ∨ char ∈ first :: text :=
        (ih member).imp_right (List.mem_cons_of_mem _)
      rw [written] at member
      split at member
      · rcases List.mem_cons.mp member with same | member
        · exact .inl same
        · rcases List.mem_cons.mp member with same | member
          · exact .inr (List.mem_cons.mpr (.inl same))
          · exact inner member
      · rcases List.mem_cons.mp member with same | member
        · exact .inr (List.mem_cons.mpr (.inl same))
        · exact inner member

/-! ### Decoding -/

theorem unescape_cons {char : α} (plain : char ≠ escape) (text : List α) :
    unescape escape quote (char :: text) = char :: unescape escape quote text := by
  cases text with
  | nil => rfl
  | cons next rest => rw [unescape, if_neg fun both => plain both.1]

theorem unescape_pair {char : α} (special : char = escape ∨ char = quote) (text : List α) :
    unescape escape quote (escape :: char :: text) = char :: unescape escape quote text := by
  rw [unescape, if_pos ⟨rfl, special⟩]

/-- Decoding drops nothing but escapes. -/
theorem mem_unescape {char : α} (plain : char ≠ escape) {text : List α} (member : char ∈ text) :
    char ∈ unescape escape quote text := by
  fun_induction unescape escape quote text with
  | case1 => cases member
  | case2 last => exact member
  | case3 first next rest pair ih =>
      rcases List.mem_cons.mp member with same | member
      · exact absurd (same.trans pair.1) plain
      · rcases List.mem_cons.mp member with same | member
        · exact List.mem_cons.mpr (.inl same)
        · exact List.mem_cons_of_mem _ (ih member)
  | case4 first next rest single ih =>
      rcases List.mem_cons.mp member with same | member
      · exact List.mem_cons.mpr (.inl same)
      · exact List.mem_cons_of_mem _ (ih member)

/-- What is written is decoded to what it was. -/
theorem unescape_written (text : List α) :
    unescape escape quote (written escape quote text) = text := by
  induction text with
  | nil => rfl
  | cons char text ih =>
      rw [written]
      split
      · rename_i special
        rw [unescape_pair special, ih]
      · rename_i plain
        rw [unescape_cons (not_or.mp plain).1, ih]

/-! ### The first quote that is not escaped -/

theorem firstClosing_quote (rest : List α) :
    firstClosing escape quote (quote :: rest) = some ([], rest) := by
  cases rest with
  | nil => rw [firstClosing, if_pos rfl]
  | cons next rest => rw [firstClosing, if_pos rfl]

theorem firstClosing_pair (distinct : escape ≠ quote) {char : α}
    (special : char = escape ∨ char = quote) (rest : List α) :
    firstClosing escape quote (escape :: char :: rest) =
      (firstClosing escape quote rest).map fun found => (escape :: char :: found.1, found.2) := by
  rw [firstClosing, if_neg distinct, if_pos ⟨rfl, special⟩]

theorem firstClosing_cons {char : α} (plain : ¬ (char = escape ∨ char = quote)) (rest : List α) :
    firstClosing escape quote (char :: rest) =
      (firstClosing escape quote rest).map fun found => (char :: found.1, found.2) := by
  obtain ⟨noEscape, open_⟩ := not_or.mp plain
  cases rest with
  | nil => simp only [firstClosing, open_, if_false, Option.map_none]
  | cons next rest => rw [firstClosing, if_neg open_, if_neg fun both => noEscape both.1]

/-- A written value is closed at its own quote, whatever follows. -/
theorem firstClosing_written (distinct : escape ≠ quote) (value after : List α) :
    firstClosing escape quote (written escape quote value ++ quote :: after) =
      some (written escape quote value, after) := by
  induction value with
  | nil => exact firstClosing_quote after
  | cons char value ih =>
      rw [written]
      split
      · rename_i special
        rw [List.cons_append, List.cons_append, firstClosing_pair distinct special, ih]
        rfl
      · rename_i plain
        rw [List.cons_append, firstClosing_cons plain, ih]
        rfl

/-- What a closed value leaves is the end of the text. -/
theorem eq_of_firstClosing {text body rest : List α}
    (found : firstClosing escape quote text = some (body, rest)) : text = body ++ quote :: rest := by
  induction text using firstClosing.induct escape quote generalizing body with
  | case1 => cases found
  | case2 =>
      rw [firstClosing_quote] at found
      cases found
      rfl
  | case3 last different =>
      simp only [firstClosing, different, if_false, reduceCtorEq] at found
  | case4 next rest =>
      rw [firstClosing_quote] at found
      cases found
      rfl
  | case5 char next text open_ pair ih =>
      rw [firstClosing, if_neg open_, if_pos pair, Option.map_eq_some_iff] at found
      obtain ⟨⟨inner, after⟩, innerFound, same⟩ := found
      cases same
      rw [ih innerFound, pair.1]
      rfl
  | case6 char next text open_ single ih =>
      rw [firstClosing, if_neg open_, if_neg single, Option.map_eq_some_iff] at found
      obtain ⟨⟨inner, after⟩, innerFound, same⟩ := found
      cases same
      rw [ih innerFound]
      rfl

/-! ### The greedy closing quote -/

theorem closing_quote (rest : List α) :
    closing escape quote (quote :: rest) = some ([], rest) := by
  cases rest with
  | nil => rw [closing, if_pos rfl]
  | cons next rest => rw [closing, if_pos rfl]

theorem closing_pair (distinct : escape ≠ quote) (rest : List α) :
    closing escape quote (escape :: quote :: rest) =
      match closing escape quote rest with
      | some (body, after) => some (escape :: quote :: body, after)
      | none => some ([escape], rest) := by
  rw [closing, if_neg distinct, if_pos ⟨rfl, rfl⟩]

theorem closing_cons {char : α} {rest : List α} (open_ : char ≠ quote)
    (single : ¬ (char = escape ∧ rest.head? = some quote)) :
    closing escape quote (char :: rest) =
      (closing escape quote rest).map fun found => (char :: found.1, found.2) := by
  cases rest with
  | nil => simp only [closing, open_, if_false, Option.map_none]
  | cons next rest =>
      rw [closing, if_neg open_, if_neg]
      rw [List.head?_cons, Option.some.injEq] at single
      exact single

theorem closing_escapes (distinct : escape ≠ quote) (rest : List α) :
    closing escape quote (escape :: escape :: rest) =
      (closing escape quote (escape :: rest)).map fun found => (escape :: found.1, found.2) := by
  apply closing_cons distinct
  intro both
  rw [List.head?_cons, Option.some.injEq] at both
  exact distinct both.2

/-- A value is closed exactly where a quote follows. -/
theorem closing_eq_none {text : List α} :
    closing escape quote text = none ↔ quote ∉ text := by
  fun_induction closing escape quote text with
  | case1 => simp only [List.not_mem_nil, not_false_eq_true]
  | case2 => simp only [reduceCtorEq, List.mem_singleton, not_true_eq_false]
  | case3 last different =>
      simp only [true_iff, List.mem_singleton]
      exact Ne.symm different
  | case4 => simp only [reduceCtorEq, List.mem_cons, true_or, not_true_eq_false]
  | case5 char next rest _ pair body after found ih =>
      obtain ⟨-, rfl⟩ := pair
      simp only [reduceCtorEq, List.mem_cons, true_or, or_true, not_true_eq_false]
  | case6 char next rest _ pair missing ih =>
      obtain ⟨-, rfl⟩ := pair
      simp only [reduceCtorEq, List.mem_cons, true_or, or_true, not_true_eq_false]
  | case7 char next rest open_ single ih =>
      rw [Option.map_eq_none_iff, ih, List.mem_cons (a := quote) (b := char), not_or]
      exact ⟨fun absent => ⟨Ne.symm open_, absent⟩, fun both => both.2⟩

/-- What a closed value leaves is the end of the text. -/
theorem eq_of_closing {text body rest : List α}
    (found : closing escape quote text = some (body, rest)) : text = body ++ quote :: rest := by
  induction text using closing.induct escape quote generalizing body with
  | case1 => cases found
  | case2 =>
      rw [closing_quote] at found
      cases found
      rfl
  | case3 last different =>
      simp only [closing, different, if_false, reduceCtorEq] at found
  | case4 next rest =>
      rw [closing_quote] at found
      cases found
      rfl
  | case5 char next text open_ pair inner after innerFound ih =>
      rw [closing, if_neg open_, if_pos pair, innerFound] at found
      cases found
      obtain ⟨rfl, rfl⟩ := pair
      rw [ih innerFound]
      rfl
  | case6 char next text open_ pair missing ih =>
      rw [closing, if_neg open_, if_pos pair, missing] at found
      cases found
      obtain ⟨rfl, rfl⟩ := pair
      rfl
  | case7 char next text open_ single ih =>
      rw [closing, if_neg open_, if_neg single, Option.map_eq_some_iff] at found
      obtain ⟨⟨inner, after⟩, innerFound, same⟩ := found
      cases same
      rw [ih innerFound]
      rfl

/-- A written text never begins with a quote. -/
theorem head?_written (distinct : escape ≠ quote) {value : List α} (some_ : value ≠ [])
    (tail : List α) : (written escape quote value ++ tail).head? ≠ some quote := by
  cases value with
  | nil => exact absurd rfl some_
  | cons char value =>
      rw [written]
      split
      · intro same
        exact distinct (Option.some.inj same)
      · rename_i plain
        intro same
        exact plain (.inr (Option.some.inj same))

/-- The reader passes over a written text, unless its last escape meets a quote. -/
theorem closing_append (distinct : escape ≠ quote) {value tail body after : List α}
    (apart : value.getLast? = some escape → tail.head? ≠ some quote)
    (found : closing escape quote tail = some (body, after)) :
    closing escape quote (written escape quote value ++ tail) =
      some (written escape quote value ++ body, after) := by
  induction value with
  | nil => exact found
  | cons char value ih =>
      have rest : closing escape quote (written escape quote value ++ tail) =
          some (written escape quote value ++ body, after) := by
        apply ih
        intro ends
        apply apart
        rw [List.getLast?_cons, ends]
        rfl
      by_cases isQuote : char = quote
      · subst isQuote
        rw [written, if_pos (.inr rfl), List.cons_append, List.cons_append,
          closing_pair distinct, rest]
        rfl
      · by_cases isEscape : char = escape
        · subst isEscape
          have inner : (written char quote value ++ tail).head? ≠ some quote := by
            cases value with
            | nil => exact apart rfl
            | cons next value => exact head?_written distinct (List.cons_ne_nil _ _) tail
          rw [written, if_pos (.inl rfl), List.cons_append, List.cons_append,
            closing_escapes distinct, closing_cons distinct (fun both => inner both.2), rest]
          rfl
        · rw [written, if_neg (not_or.mpr ⟨isEscape, isQuote⟩), List.cons_append,
            closing_cons isQuote (fun both => isEscape both.1), rest]
          rfl

theorem written_concat (front : List α) :
    written escape quote (front ++ [escape]) = written escape quote front ++ [escape, escape] := by
  induction front with
  | nil => simp only [List.nil_append, written, true_or, if_true]
  | cons char front ih =>
      rw [List.cons_append, written, written, ih]
      split <;> rfl

/-- Where the value ends in an escape, what closes it is sought behind its own quote. -/
theorem closing_of_escape (distinct : escape ≠ quote) {value : List α}
    (ends : value.getLast? = some escape) (after : List α) :
    closing escape quote (written escape quote value ++ quote :: after) =
      match closing escape quote after with
      | some (body, rest) => some (written escape quote value ++ quote :: body, rest)
      | none => some (written escape quote value, after) := by
  obtain ⟨front, rfl⟩ := List.getLast?_eq_some_iff.mp ends
  have apart (tail : List α) :
      front.getLast? = some escape → (escape :: tail).head? ≠ some quote := by
    intro _ same
    rw [List.head?_cons, Option.some.injEq] at same
    exact distinct same
  rw [written_concat, List.append_assoc, List.cons_append, List.cons_append, List.nil_append]
  cases behind : closing escape quote after with
  | none =>
      have last : closing escape quote (escape :: escape :: quote :: after) =
          some ([escape, escape], after) := by
        rw [closing_escapes distinct, closing_pair distinct, behind]
        rfl
      exact closing_append distinct (apart _) last
  | some found =>
      obtain ⟨body, rest⟩ := found
      have last : closing escape quote (escape :: escape :: quote :: after) =
          some (escape :: escape :: quote :: body, rest) := by
        rw [closing_escapes distinct, closing_pair distinct, behind]
        rfl
      simp only [closing_append distinct (apart _) last, List.append_assoc, List.cons_append,
        List.nil_append]

/-- A value that does not end in an escape, or after which no quote follows, is
closed at its own quote. -/
theorem closing_written (distinct : escape ≠ quote) {value after : List α}
    (clear : value.getLast? = some escape → quote ∉ after) :
    closing escape quote (written escape quote value ++ quote :: after) =
      some (written escape quote value, after) := by
  by_cases ends : value.getLast? = some escape
  · rw [closing_of_escape distinct ends, closing_eq_none.mpr (clear ends)]
  · have passed := closing_append distinct (fun same => absurd same ends)
      (closing_quote after)
    rw [passed, List.append_nil]

/-- Any other value runs on, over its own quote and over what follows up to the
quote that closes it. -/
theorem closing_runs_on (distinct : escape ≠ quote) {value after : List α}
    (ends : value.getLast? = some escape) (quoted : quote ∈ after) :
    ∃ body rest, closing escape quote after = some (body, rest) ∧
      closing escape quote (written escape quote value ++ quote :: after) =
        some (written escape quote value ++ quote :: body, rest) := by
  cases behind : closing escape quote after with
  | none => exact absurd quoted (closing_eq_none.mp behind)
  | some found =>
      obtain ⟨body, rest⟩ := found
      refine ⟨body, rest, rfl, ?_⟩
      rw [closing_of_escape distinct ends, behind]

end Quoting

end Docta.Quoted
