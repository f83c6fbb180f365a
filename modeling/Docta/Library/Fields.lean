/-
Module: Docta.Library.Fields
Purpose: Texts whose fields are kept apart by one character: taking fields off
  the end, counting them from the end, and whole numbers read from a field.
Trusted boundary: the decimal digits beyond ASCII are the table of `Decimals`
Main exports: cutLast, rsplit, fromEnd, Decimals, Decimals.int, Decimals.int_toDigits
-/
import Docta.Library.Text

namespace Docta.Fields

/-! ### Fields -/

section Separated

variable {α : Type} [DecidableEq α] (separator : α)

/-- The text before the last separator, and the text after it. -/
def cutLast (text : List α) : Option (List α × List α) :=
  match text.reverse.dropWhile (· ≠ separator) with
  | [] => none
  | _ :: front => some (front.reverse, (text.reverse.takeWhile (· ≠ separator)).reverse)

/-- `text.rsplit(separator, count)` -/
def rsplit : Nat → List α → List (List α)
  | 0, text => [text]
  | count + 1, text =>
      match cutLast separator text with
      | none => [text]
      | some (front, last) => rsplit count front ++ [last]

/-- `fields[-index]` -/
def fromEnd {β : Type} (fields : List β) (index : Nat) : Option β :=
  fields.reverse[index - 1]?

variable {separator}

theorem cutLast_append {last : List α} (single : separator ∉ last) (front : List α) :
    cutLast separator (front ++ separator :: last) = some (front, last) := by
  have others : ∀ char ∈ last.reverse, decide (char ≠ separator) = true := by
    intro char member
    apply decide_eq_true
    rintro rfl
    exact single (List.mem_reverse.mp member)
  have reversed : (front ++ separator :: last).reverse =
      last.reverse ++ separator :: front.reverse := by
    simp
  have dropped : (separator :: front.reverse).dropWhile (fun char => decide (char ≠ separator)) =
      separator :: front.reverse := List.dropWhile_cons_of_neg (by simp)
  have taken : (separator :: front.reverse).takeWhile (fun char => decide (char ≠ separator)) = [] :=
    List.takeWhile_cons_of_neg (by simp)
  rw [cutLast, reversed, List.dropWhile_append_of_pos others, dropped,
    List.takeWhile_append_of_pos others, taken]
  simp

/-- The parts around the last separator are determined by the text. -/
theorem cutLast_unique {front front' last last' : List α} (single : separator ∉ last)
    (single' : separator ∉ last')
    (same : front ++ separator :: last = front' ++ separator :: last') :
    front = front' ∧ last = last' := by
  have both := cutLast_append single front
  rw [same, cutLast_append single' front'] at both
  cases both
  exact ⟨rfl, rfl⟩

/-- The parts around the first separator are determined by the text. -/
theorem cutFirst_unique {front front' rest rest' : List α} (single : separator ∉ front)
    (single' : separator ∉ front')
    (same : front ++ separator :: rest = front' ++ separator :: rest') :
    front = front' ∧ rest = rest' := by
  have flipped := congrArg List.reverse same
  simp only [List.reverse_append, List.reverse_cons, List.append_assoc, List.cons_append,
    List.nil_append] at flipped
  have notIn {part : List α} (absent : separator ∉ part) : separator ∉ part.reverse :=
    fun member => absent (List.mem_reverse.mp member)
  obtain ⟨sameRest, sameFront⟩ := cutLast_unique (notIn single) (notIn single') flipped
  exact ⟨List.reverse_injective sameFront, List.reverse_injective sameRest⟩

end Separated

/-! ### Whole numbers -/

/-- The decimal digits of Unicode, ASCII's among them. -/
structure Decimals where
  value : Char → Option Nat
  ascii : ∀ char, char.isDigit = true → value char = some (char.toNat - '0'.toNat)

namespace Decimals

variable (decimals : Decimals)

/-- Digits with single underscores between them; `after` says that a digit has
just been read. -/
def digits (after : Bool) : List Char → Option (List Nat)
  | [] => if after = true then some [] else none
  | char :: rest =>
      if after = true ∧ char = '_' then digits false rest
      else
        match decimals.value char with
        | some digit => (digits true rest).map (digit :: ·)
        | none => none

/-- The number of some digits; more than 4300 of them are refused. -/
def number (text : List Char) : Option Nat :=
  match decimals.digits false text with
  | some digits =>
      if digits.length ≤ 4300 then some (digits.foldl (fun value digit => value * 10 + digit) 0)
      else none
  | none => none

/-- `int(text)`, or nothing where it raises `ValueError`. -/
def int (text : List Char) : Option Int :=
  match Text.stripChars text with
  | '+' :: rest => (decimals.number rest).map fun value => (value : Int)
  | '-' :: rest => (decimals.number rest).map fun value => -(value : Int)
  | stripped => (decimals.number stripped).map fun value => (value : Int)

variable {decimals}

theorem ne_underscore_of_isDigit {char : Char} (digit : char.isDigit = true) : char ≠ '_' := by
  rintro rfl
  exact absurd digit (by decide)

/-- ASCII digits are read one by one. -/
theorem digits_ascii {text : List Char} (ascii : ∀ char ∈ text, char.isDigit = true)
    {after : Bool} (some : after = true ∨ text ≠ []) :
    decimals.digits after text = Option.some (text.map fun char => char.toNat - '0'.toNat) := by
  induction text generalizing after with
  | nil =>
      rcases some with rfl | nonempty
      · rfl
      · exact absurd rfl nonempty
  | cons char text ih =>
      obtain ⟨digit, others⟩ := List.forall_mem_cons.mp ascii
      rw [digits, if_neg (by intro both; exact ne_underscore_of_isDigit digit both.2),
        decimals.ascii char digit]
      simp only
      rw [ih others (.inl rfl)]
      rfl

theorem foldl_digits (text : List Char) (start : Nat) :
    (text.map fun char => char.toNat - '0'.toNat).foldl (fun value digit => value * 10 + digit) start =
      Nat.ofDigitChars 10 text start := by
  induction text generalizing start with
  | nil => rfl
  | cons char text ih => rw [List.map_cons, List.foldl_cons, ih, Nat.ofDigitChars_cons, Nat.mul_comm]

/-- Digits are no white space. -/
theorem isSpace_of_isDigit {char : Char} (digit : char.isDigit = true) :
    Text.isSpace char = false := by
  simp only [Char.isDigit, Bool.and_eq_true, decide_eq_true_eq, ge_iff_le,
    UInt32.le_iff_toNat_le] at digit
  have low : 48 ≤ char.toNat := digit.1
  have high : char.toNat ≤ 57 := digit.2
  simp only [Text.isSpace, Bool.or_eq_false_iff, Bool.and_eq_false_iff, decide_eq_false_iff_not,
    beq_eq_false_iff_ne]
  omega

/-- Text without white space is stripped of nothing. -/
theorem stripChars_visible {text : List Char}
    (visible : ∀ char ∈ text, Text.isSpace char = false) : Text.stripChars text = text := by
  have keep {part : List Char} (part_visible : ∀ char ∈ part, Text.isSpace char = false) :
      part.dropWhile Text.isSpace = part := by
    cases part with
    | nil => rfl
    | cons char part =>
        rw [List.dropWhile_cons_of_neg (by rw [part_visible char List.mem_cons_self]; simp)]
  rw [Text.stripChars, keep visible,
    keep (fun char member => visible char (List.mem_reverse.mp member)), List.reverse_reverse]

/-- The decimal form of a number is read as the number. -/
theorem int_toDigits {value : Nat} (small : (Nat.toDigits 10 value).length ≤ 4300) :
    decimals.int (Nat.toDigits 10 value) = some (value : Int) := by
  have ascii : ∀ char ∈ Nat.toDigits 10 value, char.isDigit = true := fun char member =>
    Nat.isDigit_of_mem_toDigits (by decide) (by decide) member
  have stripped : Text.stripChars (Nat.toDigits 10 value) = Nat.toDigits 10 value :=
    stripChars_visible fun char member => isSpace_of_isDigit (ascii char member)
  have number : decimals.number (Nat.toDigits 10 value) = some value := by
    rw [Decimals.number, digits_ascii ascii (.inr Nat.toDigits_ne_nil)]
    simp only [List.length_map]
    rw [if_pos small, foldl_digits, Nat.ofDigitChars_ten_toDigits]
  rw [int, stripped]
  split
  · rename_i rest isPlus
    exact absurd (ascii '+' (isPlus ▸ List.mem_cons_self)) (by decide)
  · rename_i rest isMinus
    exact absurd (ascii '-' (isMinus ▸ List.mem_cons_self)) (by decide)
  · rw [number]
    rfl

end Decimals

end Docta.Fields
