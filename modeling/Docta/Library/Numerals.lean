/-
Module: Docta.Library.Numerals
Purpose: How the service's host language reads a whole number from a text: decimal
  digits of every script, white space around the numeral, a sign, a mark of the base
  and single underscores between digits.
Trusted boundary: the table of decimal digits is that of Unicode
Main exports: decimal, digits, readBased, readBased_map
-/
import Docta.Library.Text

namespace Docta.Numerals

/-- Code points of the digit zero in every script with decimal digits; the other
nine follow it. -/
def decimalZeros : List Nat :=
  [0x30, 0x660, 0x6f0, 0x7c0, 0x966, 0x9e6, 0xa66, 0xae6, 0xb66, 0xbe6, 0xc66, 0xce6, 0xd66, 0xde6,
    0xe50, 0xed0, 0xf20, 0x1040, 0x1090, 0x17e0, 0x1810, 0x1946, 0x19d0, 0x1a80, 0x1a90, 0x1b50,
    0x1bb0, 0x1c40, 0x1c50, 0xa620, 0xa8d0, 0xa900, 0xa9d0, 0xa9f0, 0xaa50, 0xabf0, 0xff10,
    0x104a0, 0x10d30, 0x11066, 0x110f0, 0x11136, 0x111d0, 0x112f0, 0x11450, 0x114d0, 0x11650,
    0x116c0, 0x11730, 0x118e0, 0x11950, 0x11c50, 0x11d50, 0x11da0, 0x11f50, 0x16a60, 0x16ac0,
    0x16b50, 0x1d7ce, 0x1d7d8, 0x1d7e2, 0x1d7ec, 0x1d7f6, 0x1e140, 0x1e2f0, 0x1e4f0, 0x1e950,
    0x1fbf0]

/-- The value of a decimal digit. -/
def decimal (char : Char) : Option Nat :=
  (decimalZeros.find? fun first => first ≤ char.toNat && char.toNat < first + 10).map
    (char.toNat - ·)

section Digits

variable {α : Type} (digit : Char → Option α)

/-- Digits, with single underscores between them. -/
def digits : List Char → Option (List α)
  | [] => none
  | [last] => (digit last).map ([·])
  | char :: '_' :: rest => do
      let first ← digit char
      let others ← digits rest
      pure (first :: others)
  | char :: rest => do
      let first ← digit char
      let others ← digits rest
      pure (first :: others)

/-- What a numeral may hold beyond ASCII: white space and the digits of every script. -/
def toAscii (char : Char) : Char :=
  if char.toNat < 127 then char
  else if Text.isSpace char then ' '
  else ((decimal char).map Nat.digitChar).getD '?'

/-- The white space that may stand around a numeral. -/
def isBlank (char : Char) : Bool :=
  char ∈ [' ', '\t', '\n', '\x0b', '\x0c', '\r']

/-- The numeral without the white space around it. -/
def trim (text : List Char) : List Char :=
  ((text.dropWhile isBlank).reverse.dropWhile isBlank).reverse

variable (marks : List Char)

/-- The digits after the mark of the base, if there is one; an underscore may follow it. -/
def unmark : List Char → List Char
  | '0' :: mark :: '_' :: rest => if mark ∈ marks then rest else '0' :: mark :: '_' :: rest
  | '0' :: mark :: rest => if mark ∈ marks then rest else '0' :: mark :: rest
  | text => text

/-- The sign and the digits of a numeral, or nothing where `int(text, base)` raises
`ValueError`. -/
def readBased (text : List Char) : Option (Bool × List α) :=
  match trim (text.map toAscii) with
  | '-' :: rest => (digits digit (unmark marks rest)).map (true, ·)
  | '+' :: rest => (digits digit (unmark marks rest)).map (false, ·)
  | rest => (digits digit (unmark marks rest)).map (false, ·)

end Digits

/-! ### Printed digits are read back -/

/-- A character that stands for nothing but a digit. -/
def Plain (marks : List Char) (char : Char) : Prop :=
  char.toNat < 127 ∧ isBlank char = false ∧ char ≠ '-' ∧ char ≠ '+' ∧ char ≠ '_' ∧ char ∉ marks

instance (marks : List Char) (char : Char) : Decidable (Plain marks char) :=
  inferInstanceAs (Decidable (_ ∧ _ ∧ _ ∧ _ ∧ _ ∧ _))

section Printed

variable {α : Type} {digit : Char → Option α} {marks : List Char} {print : α → Char}

theorem digits_map (reads : ∀ value, digit (print value) = some value)
    (apart : ∀ value, print value ≠ '_') {values : List α} (nonempty : values ≠ []) :
    digits digit (values.map print) = some values := by
  induction values with
  | nil => exact absurd rfl nonempty
  | cons value values ih =>
      cases values with
      | nil => simp [digits, reads]
      | cons next values =>
          have later := ih (List.cons_ne_nil _ _)
          simp only [List.map_cons] at later ⊢
          rw [digits, later, reads]
          · rfl
          · exact List.cons_ne_nil _ _
          · intro rest same
            exact apart next (List.cons.inj same).1

theorem unmark_plain {text : List Char} (plain : ∀ char ∈ text, Plain marks char) :
    unmark marks text = text := by
  have apart {char : Char} (member : char ∈ text) : char ∉ marks := (plain char member).2.2.2.2.2
  unfold unmark
  split
  · exact if_neg (apart (by simp))
  · exact if_neg (apart (by simp))
  · rfl

theorem trim_plain {text : List Char} (plain : ∀ char ∈ text, Plain marks char) :
    trim text = text := by
  have keep {part : List Char} (visible : ∀ char ∈ part, isBlank char = false) :
      part.dropWhile isBlank = part := by
    cases part with
    | nil => rfl
    | cons char part =>
        rw [List.dropWhile_cons_of_neg (by rw [visible char List.mem_cons_self]; simp)]
  have visible : ∀ char ∈ text, isBlank char = false := fun char member => (plain char member).2.1
  rw [trim, keep visible, keep fun char member => visible char (List.mem_reverse.mp member),
    List.reverse_reverse]

/-- Digits that were printed are read back. -/
theorem readBased_map (reads : ∀ value, digit (print value) = some value)
    (plain : ∀ value, Plain marks (print value)) {values : List α} (nonempty : values ≠ []) :
    readBased digit marks (values.map print) = some (false, values) := by
  have each : ∀ char ∈ values.map print, Plain marks char := by
    intro char member
    obtain ⟨value, _, rfl⟩ := List.mem_map.mp member
    exact plain value
  have ascii : (values.map print).map toAscii = values.map print := by
    rw [List.map_map]
    exact List.map_congr_left fun value _ => if_pos (plain value).1
  have found := digits_map reads (fun value => (plain value).2.2.2.2.1) nonempty
  rw [readBased, ascii, trim_plain each]
  split
  · rename_i rest isMinus
    exact absurd rfl (each '-' (isMinus ▸ List.mem_cons_self)).2.2.1
  · rename_i rest isPlus
    exact absurd rfl (each '+' (isPlus ▸ List.mem_cons_self)).2.2.2.1
  · rw [unmark_plain each, found]
    rfl

end Printed

end Docta.Numerals
