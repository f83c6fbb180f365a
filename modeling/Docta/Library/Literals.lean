/-
Module: Docta.Library.Literals
Purpose: Texts written from templates, whose holes are filled with quoted strings.
  A lexer that only knows quotes and backslash escapes finds the literals where
  the templates have their holes, whatever the strings are.
Trusted boundary: none
Main exports: stringify, Piece, render, lex, lex_render, skeleton
-/
import Docta.Library.JsonText

namespace Docta.Literals

open Contract JsonText

/-! ### Quoting -/

/-- A character inside quotes: an unpaired half is escaped. -/
def quoteChar : JChar → JString
  | .surrogate index => (unitEscape (0xD800 + index)).map .scalar
  | .scalar char => escape (.scalar char)

/-- `JSON.stringify(text)` -/
def stringify (text : JString) : JString :=
  .scalar '"' :: (text.flatMap quoteChar ++ [.scalar '"'])

/-- A high half is never directly followed by a low half, as the two would be
one character. -/
def Canonical : JString → Prop
  | .surrogate high :: .surrogate low :: rest =>
      ¬ (high.val < 1024 ∧ 1024 ≤ low.val) ∧ Canonical (.surrogate low :: rest)
  | _ :: rest => Canonical rest
  | [] => True

theorem Canonical.tail {char : JChar} {text : JString} (canonical : Canonical (char :: text)) :
    Canonical text := by
  cases text with
  | nil => trivial
  | cons next text =>
      cases char with
      | scalar value => exact canonical
      | surrogate high =>
          cases next with
          | scalar value => exact canonical
          | surrogate low => exact canonical.2

/-- Characters that are no halves keep a string canonical. -/
theorem Canonical.scalars (chars : List Char) {text : JString} (canonical : Canonical text) :
    Canonical (chars.map .scalar ++ text) := by
  induction chars with
  | nil => exact canonical
  | cons char chars ih => exact ih

/-! ### Pieces -/

/-- A part of a template: text of its own, or a hole with its string. -/
inductive Piece where
  | code (text : JString)
  | literal (text : JString)
deriving DecidableEq, Repr

/-- The text of a part. -/
def Piece.text : Piece → JString
  | .code text => text
  | .literal text => stringify text

def render (pieces : List Piece) : JString :=
  pieces.flatMap Piece.text

/-- The strings in the holes. -/
def literals (pieces : List Piece) : List JString :=
  pieces.filterMap fun piece =>
    match piece with
    | .code _ => none
    | .literal text => some text

/-! ### Lexing -/

/-- What stands in a text: a character outside literals, or a literal's string. -/
inductive Token where
  | char (char : JChar)
  | literal (text : JString)
deriving DecidableEq, Repr

/-- The tokens of a text, if all its literals end. -/
def lex : JString → Option (List Token)
  | [] => some []
  | char :: rest =>
      if char = .scalar '"' then
        match _found : readString none rest with
        | none => none
        | some (text, left) => (lex left).map (.literal text :: ·)
      else (lex rest).map (.char char :: ·)
termination_by text => text.length
decreasing_by
  · exact Nat.lt_succ_of_lt (length_of_readString _found)
  · exact Nat.lt_succ_self _

/-- The tokens without the strings of the literals. -/
def skeleton (tokens : List Token) : List (Option JChar) :=
  tokens.map fun token =>
    match token with
    | .char char => some char
    | .literal _ => none

/-- The strings of the literals. -/
def strings (tokens : List Token) : List JString :=
  tokens.filterMap fun token =>
    match token with
    | .char _ => none
    | .literal text => some text

theorem codeUnit_unitEscape {unit : Nat} (small : unit < 65536) :
    codeUnit (.scalar (hexChar (unit / 4096 % 16))) (.scalar (hexChar (unit / 256 % 16)))
      (.scalar (hexChar (unit / 16 % 16))) (.scalar (hexChar (unit % 16))) = some unit := by
  have digit : ∀ value < 16, hexDigit (.scalar (hexChar value)) = some value := by decide
  rw [codeUnit, digit _ (Nat.mod_lt _ (by decide)), digit _ (Nat.mod_lt _ (by decide)),
    digit _ (Nat.mod_lt _ (by decide)), digit _ (Nat.mod_lt _ (by decide))]
  simp only [Option.bind_eq_bind, Option.bind_some, Option.pure_def, Option.some.injEq]
  omega

theorem Canonical.of_pending {high : Option (Fin 1024)} {text : JString}
    (canonical : Canonical (pending high ++ text)) : Canonical text := by
  cases high with
  | none => exact canonical
  | some half => exact Canonical.tail canonical

/-- An escaped half is read by its unit. -/
theorem readString_surrogate (high : Option (Fin 1024)) (index : Fin 2048) (rest : List JChar) :
    readString high (quoteChar (.surrogate index) ++ rest) =
      (readString (readUnit high (0xD800 + index)).2 rest).map fun found =>
        ((readUnit high (0xD800 + index)).1 ++ found.1, found.2) := by
  have unit := codeUnit_unitEscape (by omega : 0xD800 + index.val < 65536)
  simp only [quoteChar, unitEscape, List.map_cons, List.map_nil, List.cons_append, List.nil_append,
    readString, unit]

/-- Quoted text is read back: the very text when it is canonical. -/
theorem readString_quoted (text : JString) (high : Option (Fin 1024)) :
    ∃ value, (Canonical (pending high ++ text) → value = pending high ++ text) ∧
      ∀ rest, readString high (text.flatMap quoteChar ++ .scalar '"' :: rest) = some (value, rest) := by
  induction text generalizing high with
  | nil => exact ⟨pending high, fun _ => (List.append_nil _).symm, fun rest => by simp [readString]⟩
  | cons char text ih =>
      cases char with
      | scalar char =>
          obtain ⟨value, same, reads⟩ := ih none
          refine ⟨pending high ++ .scalar char :: value, fun canonical => ?_, fun rest => ?_⟩
          · rw [same canonical.of_pending.tail]
            rfl
          · rw [List.flatMap_cons, List.append_assoc, quoteChar, readString_escape_scalar, reads]
            rfl
      | surrogate index =>
          by_cases isLow : 1024 ≤ index.val
          · obtain ⟨value, same, reads⟩ := ih none
            cases high with
            | some half =>
                -- the two halves would be one character
                have unit : (readUnit (some half) (0xD800 + index)).2 = none := by
                  rw [readUnit, dif_pos (by omega)]
                refine ⟨(readUnit (some half) (0xD800 + index)).1 ++ value, fun canonical => ?_,
                  fun rest => ?_⟩
                · exact absurd ⟨half.isLt, isLow⟩ canonical.1
                · rw [List.flatMap_cons, List.append_assoc, readString_surrogate, unit, reads]
                  rfl
            | none =>
                have unit : readUnit none (0xD800 + index) = ([.surrogate index], none) := by
                  rw [readUnit, dif_pos (by omega)]
                  simp
                refine ⟨.surrogate index :: value, fun canonical => ?_, fun rest => ?_⟩
                · rw [same canonical.of_pending.tail]
                  rfl
                · rw [List.flatMap_cons, List.append_assoc, readString_surrogate, unit, reads]
                  rfl
          · obtain ⟨value, same, reads⟩ := ih (some ⟨index.val, by omega⟩)
            have unit : readUnit high (0xD800 + index) =
                (pending high, some ⟨index.val, by omega⟩) := by
              rw [readUnit, dif_neg (by omega), dif_pos (by omega)]
              simp
            have isPending : pending (some ⟨index.val, by omega⟩) = [.surrogate index] := rfl
            refine ⟨pending high ++ value, fun canonical => ?_, fun rest => ?_⟩
            · rw [isPending] at same
              rw [same canonical.of_pending]
              rfl
            · rw [List.flatMap_cons, List.append_assoc, readString_surrogate, unit, reads]
              rfl

/-! ### Templates -/

/-- No piece of code holds a quote. -/
def Unquoted (pieces : List Piece) : Prop :=
  ∀ text, .code text ∈ pieces → .scalar '"' ∉ text

theorem lex_code {text : JString} (unquoted : .scalar '"' ∉ text) (rest : JString) :
    lex (text ++ rest) = (lex rest).map (text.map Token.char ++ ·) := by
  induction text with
  | nil =>
      rw [List.nil_append]
      exact Option.map_id'.symm
  | cons char text ih =>
      rw [List.mem_cons, not_or] at unquoted
      rw [List.cons_append, lex, if_neg (fun same => unquoted.1 same.symm), ih unquoted.2,
        Option.map_map]
      rfl

theorem lex_stringify (text : JString) :
    ∃ value, (Canonical text → value = text) ∧
      ∀ rest, lex (stringify text ++ rest) = (lex rest).map (.literal value :: ·) := by
  obtain ⟨value, same, reads⟩ := readString_quoted text none
  refine ⟨value, same, fun rest => ?_⟩
  have whole : stringify text ++ rest =
      .scalar '"' :: (text.flatMap quoteChar ++ .scalar '"' :: rest) := by
    simp [stringify]
  rw [whole, lex, if_pos rfl]
  split
  · rename_i failed
    rw [reads] at failed
    cases failed
  · rename_i found
    rw [reads] at found
    cases found
    rfl

/-- The skeleton of what a template renders to. -/
def Piece.skeleton : Piece → List (Option JChar)
  | .code text => text.map some
  | .literal _ => [none]

/-- The lexer finds the code and the literals of a template, whatever its
strings are. -/
theorem lex_render {pieces : List Piece} (unquoted : Unquoted pieces) :
    ∃ tokens, lex (render pieces) = some tokens ∧
      skeleton tokens = pieces.flatMap Piece.skeleton ∧
        ((∀ text ∈ literals pieces, Canonical text) → strings tokens = literals pieces) := by
  induction pieces with
  | nil => exact ⟨[], by rw [render, List.flatMap_nil, lex], rfl, fun _ => rfl⟩
  | cons piece pieces ih =>
      obtain ⟨tokens, lexed, isSkeleton, sameStrings⟩ :=
        ih fun text member => unquoted text (List.mem_cons_of_mem _ member)
      rw [render] at lexed ⊢
      cases piece with
      | code text =>
          refine ⟨text.map .char ++ tokens, ?_, ?_, fun canonical => ?_⟩
          · rw [List.flatMap_cons, Piece.text, lex_code (unquoted text List.mem_cons_self), lexed]
            rfl
          · rw [List.flatMap_cons, ← isSkeleton, skeleton, skeleton, List.map_append, List.map_map]
            rfl
          · have none : strings (text.map Token.char) = [] := by
              rw [strings, List.filterMap_map]
              exact List.filterMap_eq_nil_iff.mpr fun _ _ => rfl
            have isAppend : strings (text.map Token.char ++ tokens) =
                strings (text.map Token.char) ++ strings tokens := List.filterMap_append
            rw [isAppend, none, sameStrings canonical]
            rfl
      | literal text =>
          obtain ⟨value, same, lexes⟩ := lex_stringify text
          refine ⟨.literal value :: tokens, ?_, ?_, fun canonical => ?_⟩
          · rw [List.flatMap_cons, Piece.text, lexes, lexed]
            rfl
          · rw [List.flatMap_cons, ← isSkeleton]
            rfl
          · have isCons : literals (.literal text :: pieces) = text :: literals pieces := rfl
            rw [isCons, List.forall_mem_cons] at canonical
            rw [isCons, ← sameStrings canonical.2, same canonical.1]
            rfl

/-- What holds of the code, of quotes and of quoted characters holds of the text. -/
theorem forall_mem_render {property : JChar → Prop} {pieces : List Piece}
    (quote : property (.scalar '"')) (code : ∀ text, .code text ∈ pieces → ∀ char ∈ text, property char)
    (quoted : ∀ text ∈ literals pieces, ∀ char ∈ text, ∀ written ∈ quoteChar char, property written) :
    ∀ char ∈ render pieces, property char := by
  intro char member
  obtain ⟨piece, isPiece, inPiece⟩ := List.mem_flatMap.mp member
  cases piece with
  | code text => exact code text isPiece char inPiece
  | literal text =>
      have isLiteral : text ∈ literals pieces := List.mem_filterMap.mpr ⟨_, isPiece, rfl⟩
      rw [Piece.text, stringify, List.mem_cons, List.mem_append, List.mem_singleton] at inPiece
      rcases inPiece with rfl | inText | rfl
      · exact quote
      · obtain ⟨source, isSource, written⟩ := List.mem_flatMap.mp inText
        exact quoted text isLiteral source isSource char written
      · exact quote

end Docta.Literals
