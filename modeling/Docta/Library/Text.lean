/-
Module: Docta.Library.Text
Purpose: The string operations of the service's host language that its rules
  rely on: stripping and splitting on white space, containment, and leftmost
  non-overlapping occurrences up to letter case.
Trusted boundary: the Unicode letter tables are the fields of `UnicodeData`
Main exports: UnicodeData, isSpace, strip, words, slice, rfind, remove, Contains,
  occurrences, infix_of_mem_occurrences
-/
import Mathlib.Data.List.Infix
import Mathlib.Data.List.TakeWhile

namespace Docta.Text

/-- The Unicode tables the host language consults. -/
structure UnicodeData where
  /-- `str.lower` -/
  lower : List Char → List Char
  /-- `\w` of a Unicode pattern -/
  isWord : Char → Bool
  /-- `str.isprintable` of one character -/
  isPrintable : Char → Bool
  /-- equality of two characters under `re.IGNORECASE` -/
  sameIgnoringCase : Char → Char → Bool

/-- `str.isspace` of one character. -/
def isSpace (char : Char) : Bool :=
  let code := char.toNat
  (9 ≤ code && code ≤ 13) || (28 ≤ code && code ≤ 32) || code == 0x85 || code == 0xA0 ||
    code == 0x1680 || (0x2000 ≤ code && code ≤ 0x200A) || code == 0x2028 || code == 0x2029 ||
    code == 0x202F || code == 0x205F || code == 0x3000

/-- `str.strip()` -/
def stripChars (text : List Char) : List Char :=
  ((text.dropWhile isSpace).reverse.dropWhile isSpace).reverse

/-- `str.strip()` -/
def strip (text : String) : String :=
  String.ofList (stripChars text.toList)

/-- `not text.strip()` -/
def isBlank (text : String) : Bool :=
  text.toList.all isSpace

/-- `str.split()`: the maximal runs without white space. -/
def words : List Char → List (List Char)
  | [] => []
  | char :: rest =>
      if isSpace char then words rest
      else
        match rest, words rest with
        | next :: _, word :: others =>
            if isSpace next then [char] :: word :: others else (char :: word) :: others
        | _, others => [char] :: others

/-- `text[start:stop]` -/
def slice (text : List Char) (start stop : Nat) : List Char :=
  (text.take stop).drop start

/-- `text.rfind(char, low, high)`: the last position of the character from `low`
up to, not including, `high`. -/
def rfind (char : Char) (text : List Char) (low : Nat) : Nat → Option Nat
  | 0 => none
  | high + 1 =>
      if high < low then none
      else if text[high]? = some char then some high
      else rfind char text low high

/-- The text without the occurrences of a part, from the left; some characters of an
occurrence may still be to skip. -/
def removeFrom (part : List Char) : Nat → List Char → List Char
  | _, [] => []
  | skip + 1, _ :: rest => removeFrom part skip rest
  | 0, char :: rest =>
      if part <+: char :: rest then removeFrom part (part.length - 1) rest
      else char :: removeFrom part 0 rest

/-- `text.replace(part, "")` -/
def remove (part text : List Char) : List Char :=
  removeFrom part 0 text

/-- `part in text` -/
def Contains (text part : String) : Prop :=
  part.toList <:+: text.toList

instance (text part : String) : Decidable (Contains text part) :=
  inferInstanceAs (Decidable (_ <:+: _))

/-- A part with a character that the text lacks is nowhere removed. -/
theorem remove_of_notMem {part text : List Char} (mark : Char) (inPart : mark ∈ part)
    (absent : mark ∉ text) : remove part text = text := by
  rw [remove]
  induction text with
  | nil => rfl
  | cons char rest ih =>
      rw [removeFrom, if_neg fun isPrefix => absent (isPrefix.subset inPart),
        ih fun member => absent (List.mem_cons_of_mem _ member)]

section Occurrences

variable (same : Char → Char → Bool) (pattern : List Char)

/-- The pattern occurs at the start of the text, up to `same`. -/
def occursHere : List Char → List Char → Bool
  | [], _ => true
  | _ :: _, [] => false
  | wanted :: pattern, char :: text => same wanted char && occursHere pattern text

/-- `re.finditer(re.escape(pattern), text, re.IGNORECASE)` for a non-empty
pattern: the matched spans from left to right; the first `skip` characters
belong to the previous match. -/
def occurrencesFrom : Nat → List Char → List (List Char)
  | _, [] => []
  | skip + 1, _ :: text => occurrencesFrom skip text
  | 0, char :: text =>
      if occursHere same pattern (char :: text) then
        (char :: text).take pattern.length :: occurrencesFrom (pattern.length - 1) text
      else occurrencesFrom 0 text

/-- Every matched span of a text. -/
def occurrences (text : List Char) : List (List Char) :=
  occurrencesFrom same pattern 0 text

theorem infix_of_mem_occurrencesFrom {span : List Char} :
    ∀ {skip : Nat} {text : List Char}, span ∈ occurrencesFrom same pattern skip text →
      span <:+: text
  | _, [], member => by simp [occurrencesFrom] at member
  | skip + 1, char :: text, member => by
      rw [occurrencesFrom] at member
      exact (infix_of_mem_occurrencesFrom member).trans (List.suffix_cons char text).isInfix
  | 0, char :: text, member => by
      have inTail {next : Nat} (later : span ∈ occurrencesFrom same pattern next text) :
          span <:+: char :: text :=
        (infix_of_mem_occurrencesFrom later).trans (List.suffix_cons char text).isInfix
      rw [occurrencesFrom] at member
      split at member
      · rcases List.mem_cons.mp member with here | later
        · rw [here]
          exact (List.take_prefix pattern.length (char :: text)).isInfix
        · exact inTail later
      · exact inTail member

/-- A matched span is a contiguous part of the text. -/
theorem infix_of_mem_occurrences {span text : List Char}
    (member : span ∈ occurrences same pattern text) : span <:+: text :=
  infix_of_mem_occurrencesFrom same pattern member

/-- The positions of a text at which the pattern occurs, overlapping or not. -/
def starts (text : List Char) : List Nat :=
  (List.range text.length).filter fun start => occursHere same pattern (text.drop start)

variable {same pattern}

theorem mem_starts {text : List Char} {start : Nat} :
    start ∈ starts same pattern text ↔
      start < text.length ∧ occursHere same pattern (text.drop start) = true := by
  rw [starts, List.mem_filter, List.mem_range]

theorem starts_sorted (text : List Char) : (starts same pattern text).Pairwise (· < ·) :=
  List.pairwise_lt_range.filter _

theorem length_le_of_occursHere : ∀ {pattern text : List Char},
    occursHere same pattern text = true → pattern.length ≤ text.length
  | [], _, _ => Nat.zero_le _
  | wanted :: pattern, [], occurs => by
      cases occurs
  | wanted :: pattern, char :: text, occurs => by
      rw [occursHere, Bool.and_eq_true] at occurs
      exact Nat.succ_le_succ (length_le_of_occursHere occurs.2)

theorem length_of_mem_occurrencesFrom {span text : List Char} {skip : Nat}
    (member : span ∈ occurrencesFrom same pattern skip text) : span.length = pattern.length := by
  induction skip, text using occurrencesFrom.induct same pattern with
  | case1 skip => simp [occurrencesFrom] at member
  | case2 skip char text inductionHypothesis => exact inductionHypothesis member
  | case3 char text here inductionHypothesis =>
      rw [occurrencesFrom, if_pos here] at member
      rcases List.mem_cons.mp member with first | later
      · rw [first, List.length_take, min_eq_left (length_le_of_occursHere here)]
      · exact inductionHypothesis later
  | case4 char text notHere inductionHypothesis =>
      rw [occurrencesFrom, if_neg notHere] at member
      exact inductionHypothesis member

/-- The pattern occurs in no position from `skip` on. -/
theorem occurrencesFrom_eq_nil {skip : Nat} {text : List Char} :
    occurrencesFrom same pattern skip text = [] ↔
      ∀ start, skip ≤ start → start < text.length →
        occursHere same pattern (text.drop start) = false := by
  induction skip, text using occurrencesFrom.induct same pattern with
  | case1 skip => simp [occurrencesFrom]
  | case2 skip char text inductionHypothesis =>
      rw [occurrencesFrom, inductionHypothesis]
      constructor
      · intro absent start after inside
        cases start with
        | zero => omega
        | succ start =>
            exact absent start (by omega) (by simpa using inside)
      · intro absent start after inside
        exact absent (start + 1) (by omega) (by simpa using inside)
  | case3 char text here inductionHypothesis =>
      rw [occurrencesFrom, if_pos here]
      constructor
      · intro impossible
        cases impossible
      · intro absent
        exact absurd (absent 0 (le_refl 0) (Nat.succ_pos _)) (by simp [here])
  | case4 char text notHere inductionHypothesis =>
      rw [occurrencesFrom, if_neg notHere, inductionHypothesis]
      constructor
      · intro absent start _ inside
        cases start with
        | zero => exact Bool.eq_false_iff.mpr notHere
        | succ start => exact absent start (Nat.zero_le start) (by simpa using inside)
      · intro absent start _ inside
        exact absent (start + 1) (Nat.zero_le _) (by simpa using inside)

/-- The scan finds one match exactly when every start from `skip` on lies within
the first of them. -/
theorem occurrencesFrom_eq_singleton {skip : Nat} {text span : List Char}
    (nonempty : 0 < pattern.length) :
    occurrencesFrom same pattern skip text = [span] ↔
      ∃ first, skip ≤ first ∧ first < text.length ∧
        occursHere same pattern (text.drop first) = true ∧
        (∀ start, skip ≤ start → start < text.length →
          occursHere same pattern (text.drop start) = true →
            first ≤ start ∧ start < first + pattern.length) ∧
        span = (text.drop first).take pattern.length := by
  induction skip, text using occurrencesFrom.induct same pattern with
  | case1 skip => simp [occurrencesFrom]
  | case2 skip char text inductionHypothesis =>
      rw [occurrencesFrom, inductionHypothesis]
      constructor
      · intro ⟨first, after, inside, here, within, same⟩
        refine ⟨first + 1, by omega, by simpa using inside, here, ?_, same⟩
        intro start late before occurs
        cases start with
        | zero => omega
        | succ start =>
            have found := within start (by omega) (by simpa using before) occurs
            omega
      · intro ⟨first, after, inside, here, within, same⟩
        cases first with
        | zero => omega
        | succ first =>
            refine ⟨first, by omega, by simpa using inside, here, ?_, same⟩
            intro start late before occurs
            have found := within (start + 1) (by omega) (by simpa using before) occurs
            omega
  | case3 char text here inductionHypothesis =>
      rw [occurrencesFrom, if_pos here, List.cons.injEq, occurrencesFrom_eq_nil]
      constructor
      · intro ⟨sameSpan, absent⟩
        refine ⟨0, le_refl 0, Nat.succ_pos _, here, ?_, sameSpan.symm⟩
        intro start _ before occurs
        refine ⟨Nat.zero_le start, ?_⟩
        cases start with
        | zero => omega
        | succ start =>
            by_contra far
            have notThere := absent start (by omega) (by simpa using before)
            rw [List.drop_succ_cons] at occurs
            exact absurd occurs (by simp [notThere])
      · intro ⟨first, _, _, _, within, sameSpan⟩
        have first_eq : first = 0 :=
          Nat.le_zero.mp (within 0 (le_refl 0) (Nat.succ_pos _) here).1
        rw [first_eq] at sameSpan within
        refine ⟨sameSpan.symm, ?_⟩
        intro start far before
        by_contra occurs
        have found := (within (start + 1) (Nat.zero_le _) (by simpa using before)
          (by simpa using occurs)).2
        omega
  | case4 char text notHere inductionHypothesis =>
      rw [occurrencesFrom, if_neg notHere, inductionHypothesis]
      constructor
      · intro ⟨first, _, inside, here, within, same⟩
        refine ⟨first + 1, Nat.zero_le _, by simpa using inside, here, ?_, same⟩
        intro start _ before occurs
        cases start with
        | zero => exact absurd occurs notHere
        | succ start =>
            have found := within start (Nat.zero_le _) (by simpa using before) occurs
            omega
      · intro ⟨first, _, inside, here, within, same⟩
        cases first with
        | zero => exact absurd here notHere
        | succ first =>
            refine ⟨first, Nat.zero_le _, by simpa using inside, here, ?_, same⟩
            intro start _ before occurs
            have found := within (start + 1) (Nat.zero_le _) (by simpa using before) occurs
            omega

/-- The scan of a whole text finds one match exactly when there is a start and
every other one overlaps the first. -/
theorem occurrences_eq_singleton {text span : List Char} (nonempty : 0 < pattern.length) :
    occurrences same pattern text = [span] ↔
      ∃ first ∈ starts same pattern text,
        (∀ start ∈ starts same pattern text, first ≤ start ∧ start < first + pattern.length) ∧
          span = slice text first (first + pattern.length) := by
  rw [occurrences, occurrencesFrom_eq_singleton nonempty]
  simp only [mem_starts, slice, List.drop_take, Nat.add_sub_cancel_left]
  constructor
  · intro ⟨first, _, inside, here, within, same⟩
    exact ⟨first, ⟨inside, here⟩, fun start found => within start (Nat.zero_le _) found.1 found.2,
      same⟩
  · intro ⟨first, found, within, same⟩
    exact ⟨first, Nat.zero_le _, found.1, found.2,
      fun start _ inside occurs => within start ⟨inside, occurs⟩, same⟩

/-- A match is as long as the pattern. -/
theorem length_of_mem_occurrences {text span : List Char}
    (member : span ∈ occurrences same pattern text) : span.length = pattern.length :=
  length_of_mem_occurrencesFrom member

end Occurrences

/-! ### Stripping and slicing -/

/-- Stripping leaves nothing of a text exactly when it is blank. -/
theorem stripChars_eq_nil {text : List Char} :
    stripChars text = [] ↔ ∀ char ∈ text, isSpace char = true := by
  have reversed : stripChars text = [] ↔ ∀ char ∈ text.dropWhile isSpace, isSpace char = true := by
    rw [stripChars, List.reverse_eq_nil_iff, List.dropWhile_eq_nil_iff]
    simp only [List.mem_reverse]
  rw [reversed]
  constructor
  · intro blank char member
    rw [← List.takeWhile_append_dropWhile (p := isSpace) (l := text)] at member
    rcases List.mem_append.mp member with before | after
    · exact List.mem_takeWhile_imp before
    · exact blank char after
  · intro blank char member
    exact blank char ((List.dropWhile_suffix isSpace).subset member)

theorem stripChars_initial (text : List Char) : stripChars text <+: text.dropWhile isSpace := by
  have tail : (text.dropWhile isSpace).reverse.dropWhile isSpace <:+
      (text.dropWhile isSpace).reverse := List.dropWhile_suffix isSpace
  have reversed := List.reverse_prefix.mpr tail
  rwa [List.reverse_reverse] at reversed

/-- Stripping leaves a contiguous part. -/
theorem stripChars_infix (text : List Char) : stripChars text <:+: text :=
  (stripChars_initial text).isInfix.trans (List.dropWhile_suffix isSpace).isInfix

/-- What stripping leaves does not begin with white space. -/
theorem head?_stripChars (text : List Char) :
    ∀ char ∈ (stripChars text).head?, isSpace char = false := by
  have front : stripChars text <+: text.dropWhile isSpace := stripChars_initial text
  intro char head
  have first : (text.dropWhile isSpace).head? = some char := by
    rcases front with ⟨rest, whole⟩
    rw [← whole, List.head?_append, Option.mem_def.mp head]
    rfl
  have notSpace := List.head?_dropWhile_not isSpace text
  rw [first] at notSpace
  simpa using notSpace

/-- What stripping leaves does not end with white space. -/
theorem getLast?_stripChars (text : List Char) :
    ∀ char ∈ (stripChars text).getLast?, isSpace char = false := by
  intro char last
  rw [stripChars, List.getLast?_reverse, Option.mem_def] at last
  have notSpace := List.head?_dropWhile_not isSpace (text.dropWhile isSpace).reverse
  rw [last] at notSpace
  simpa using notSpace

theorem length_slice_le (text : List Char) (start stop : Nat) :
    (slice text start stop).length ≤ stop - start := by
  rw [slice, List.length_drop, List.length_take]
  omega

theorem slice_infix (text : List Char) (start stop : Nat) : slice text start stop <:+: text :=
  (List.drop_suffix start _).isInfix.trans (List.take_prefix stop text).isInfix

theorem mem_slice {text : List Char} {start stop position : Nat} {char : Char}
    (here : text[position]? = some char) (after : start ≤ position) (before : position < stop) :
    char ∈ slice text start stop := by
  refine List.mem_of_getElem? (i := position - start) ?_
  rw [slice, List.getElem?_drop, Nat.add_sub_cancel' after, List.getElem?_take_of_lt before]
  exact here

/-! ### Searching backwards -/

/-- Where the last occurrence is: within the bounds, and with none after it. -/
theorem rfind_eq_some {char : Char} {text : List Char} {low high position : Nat} :
    rfind char text low high = some position ↔
      low ≤ position ∧ position < high ∧ text[position]? = some char ∧
        ∀ later, position < later → later < high → text[later]? ≠ some char := by
  induction high with
  | zero => simp [rfind]
  | succ high inductionHypothesis =>
      rw [rfind]
      split
      · constructor
        · intro impossible
          cases impossible
        · intro found
          omega
      · split
        case isTrue inBounds here =>
          constructor
          · intro found
            cases found
            exact ⟨by omega, by omega, here, by omega⟩
          · intro found
            by_contra other
            exact found.2.2.2 high (by grind) (Nat.lt_succ_self high) here
        case isFalse inBounds notHere =>
          rw [inductionHypothesis]
          grind

/-! ### Lengths -/

/-- A character takes one byte at least. -/
theorem length_le_utf8ByteSize (text : String) : text.length ≤ text.utf8ByteSize := by
  have encoded : text.utf8ByteSize = (text.toList.flatMap String.utf8EncodeChar).length := by
    rw [← String.size_toByteArray, ← String.utf8Encode_toList]
    simp [List.utf8Encode]
  rw [encoded, List.length_flatMap, ← String.length_toList]
  generalize text.toList = chars
  induction chars with
  | nil => simp
  | cons char chars inductionHypothesis =>
      have positive := char.utf8Size_pos
      simp only [List.map_cons, List.sum_cons, String.length_utf8EncodeChar,
        List.length_cons] at inductionHypothesis ⊢
      omega

/-- Decides a bound on a length; a text of few bytes is short without its
characters being counted. -/
@[reducible] def decideShort (text : String) (bound : Nat) : Decidable (text.length ≤ bound) :=
  decidable_of_iff (text.utf8ByteSize ≤ bound ∨ text.length ≤ bound)
    ⟨fun short => short.elim (length_le_utf8ByteSize text).trans id, .inr⟩

end Docta.Text
