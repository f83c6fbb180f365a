/-
Module: Docta.Rag.Lexemes
Purpose: The quoting of a question's lexemes, read back by the service's own
  patterns and by a reader of text queries: a lexeme keeps to its literal.
Trusted boundary: none
Main exports: QueryToken, readQuery, queryLexemes_orTsqueryText,
  readQuery_orTsqueryText
-/
import Docta.Rag.Retrieval

namespace Docta

open Text

/-! ### A reader of text queries -/

/-- What a text query is made of. -/
inductive QueryToken
  | lexeme (text : String)
  | operator (char : Char)
deriving DecidableEq, Repr

/-- The tokens of a text query. Between tokens white space is skipped and any
character but a quote is an operator. Inside a literal, whose characters so far
are given, two quotes are one, a backslash takes the character after it as it
is, and any other quote ends the literal. -/
def readQuery : Option (List Char) → List Char → Option (List QueryToken)
  | none, [] => some []
  | none, char :: rest =>
      if char = '\'' then readQuery (some []) rest
      else if isSpace char then readQuery none rest
      else (readQuery none rest).map (.operator char :: ·)
  | some _, [] => none
  | some text, '\'' :: '\'' :: rest => readQuery (some (text ++ ['\''])) rest
  | some text, '\'' :: rest => (readQuery none rest).map (.lexeme (String.ofList text) :: ·)
  | some text, '\\' :: char :: rest => readQuery (some (text ++ [char])) rest
  | some _, ['\\'] => none
  | some text, char :: rest => readQuery (some (text ++ [char])) rest

/-! ### One literal -/

/-- One character of an escaped lexeme. -/
def escapeChar (char : Char) : List Char :=
  if char = '\\' then ['\\', '\\'] else if char = '\'' then ['\'', '\''] else [char]

/-- The characters of an escaped lexeme. -/
def escaped (lexeme : List Char) : List Char :=
  lexeme.flatMap escapeChar

/-- A lexeme between its quotes, before what follows it. -/
def literal (lexeme after : List Char) : List Char :=
  '\'' :: (escaped lexeme ++ '\'' :: after)

@[simp] theorem escaped_nil : escaped [] = [] := rfl

@[simp] theorem escaped_cons (char : Char) (lexeme : List Char) :
    escaped (char :: lexeme) = escapeChar char ++ escaped lexeme := rfl

@[simp] theorem toList_escapeLexeme (lexeme : String) :
    (escapeLexeme lexeme).toList = escaped lexeme.toList := by
  rw [escapeLexeme, String.toList_ofList]
  rfl

/-- The unescaping pattern undoes the two replacements. -/
theorem unescapeLexeme_escaped (lexeme : List Char) : unescapeLexeme (escaped lexeme) = lexeme := by
  induction lexeme with
  | nil => rfl
  | cons char lexeme ih =>
      by_cases backslash : char = '\\'
      · subst char
        simp [escapeChar, unescapeLexeme, ih]
      by_cases quote : char = '\''
      · subst char
        simp [escapeChar, unescapeLexeme, ih]
      · simp [escapeChar, unescapeLexeme, backslash, quote, ih]

/-- The lexeme pattern reads an escaped lexeme up to its own closing quote, when
no further quote follows that one. -/
theorem quotedBody_escaped {after : List Char} (closed : ∀ rest, after ≠ '\'' :: rest)
    (lexeme : List Char) :
    quotedBody (escaped lexeme ++ '\'' :: after) = some (escaped lexeme, after) := by
  induction lexeme with
  | nil =>
      cases after with
      | nil => rfl
      | cons char after =>
          simp [quotedBody]
  | cons char lexeme ih =>
      by_cases backslash : char = '\\'
      · subst char
        simp [escapeChar, quotedBody, ih]
      by_cases quote : char = '\''
      · subst char
        simp [escapeChar, quotedBody, ih]
      · simp [escapeChar, quotedBody, backslash, quote, ih]

/-- The reader takes an escaped lexeme as one literal. -/
theorem readQuery_escaped {after : List Char} (closed : ∀ rest, after ≠ '\'' :: rest)
    (lexeme text : List Char) :
    readQuery (some text) (escaped lexeme ++ '\'' :: after) =
      (readQuery none after).map (.lexeme (String.ofList (text ++ lexeme)) :: ·) := by
  induction lexeme generalizing text with
  | nil =>
      cases after with
      | nil => simp [readQuery]
      | cons char after =>
          have other : char ≠ '\'' := fun same => closed after (by rw [same])
          simp [readQuery, other]
  | cons char lexeme ih =>
      have next := ih (text ++ [char])
      rw [List.append_assoc, List.singleton_append] at next
      by_cases backslash : char = '\\'
      · subst char
        simpa [escapeChar, readQuery] using next
      by_cases quote : char = '\''
      · subst char
        simpa [escapeChar, readQuery] using next
      · simpa [escapeChar, readQuery, backslash, quote] using next

/-! ### A query of several lexemes -/

/-- The characters of a query that joins its lexemes by the operator. -/
def alternatives : List (List Char) → List Char
  | [] => []
  | [lexeme] => literal lexeme []
  | lexeme :: next :: others =>
      literal lexeme (' ' :: '|' :: ' ' :: alternatives (next :: others))

theorem toList_orTsqueryText (lexemes : List String) :
    (orTsqueryText lexemes).toList = alternatives (lexemes.map String.toList) := by
  rw [orTsqueryText, String.toList_intercalate]
  induction lexemes with
  | nil => rfl
  | cons lexeme others ih =>
      cases others with
      | nil => simp [alternatives, literal]
      | cons next others =>
          simp only [List.map_cons, List.intercalate_cons_cons] at ih ⊢
          rw [ih]
          simp [alternatives, literal]

/-- The scan of a query finds the escaped lexemes in order. -/
theorem findLexemes_alternatives :
    ∀ (lexemes : List (List Char)) {scans : Nat}, (alternatives lexemes).length ≤ scans →
      findLexemes scans (alternatives lexemes) = lexemes.map escaped
  | [], scans, _ => by
      cases scans <;> rfl
  | [lexeme], 0, enough => by
      simp [alternatives, literal] at enough
  | [lexeme], scans + 1, _ => by
      have read := @quotedBody_escaped [] (by simp) lexeme
      cases scans <;> simp [alternatives, literal, findLexemes, read]
  | lexeme :: next :: others, 0, enough => by
      simp [alternatives, literal] at enough
  | lexeme :: next :: others, scans + 1, enough => by
      have read := @quotedBody_escaped
        (' ' :: '|' :: ' ' :: alternatives (next :: others)) (by simp) lexeme
      have room : (alternatives (next :: others)).length + 3 ≤ scans := by
        simp only [alternatives, literal, List.length_cons, List.length_append] at enough ⊢
        omega
      obtain ⟨rest, rfl⟩ := Nat.exists_eq_add_of_le room
      have later := @findLexemes_alternatives (next :: others)
        ((alternatives (next :: others)).length + rest) (Nat.le_add_right _ _)
      rw [show (alternatives (next :: others)).length + 3 + rest =
        (alternatives (next :: others)).length + rest + 3 by omega]
      simpa [alternatives, literal, findLexemes, read] using later

/-- The reader takes a query as its lexemes, joined by the operator. -/
theorem readQuery_alternatives :
    ∀ lexemes : List (List Char),
      readQuery none (alternatives lexemes) =
        some ((lexemes.map fun lexeme => .lexeme (String.ofList lexeme)).intersperse
          (.operator '|'))
  | [] => rfl
  | [lexeme] => by
      have read := @readQuery_escaped [] (by simp) lexeme []
      simpa [alternatives, literal, readQuery] using read
  | lexeme :: next :: others => by
      have later := readQuery_alternatives (next :: others)
      have read := @readQuery_escaped
        (' ' :: '|' :: ' ' :: alternatives (next :: others)) (by simp) lexeme []
      have spaced : isSpace ' ' = true ∧ isSpace '|' = false := by decide
      simp [alternatives, literal, readQuery, read, spaced]
      simpa using later

/-- Distinct values are kept as they are. -/
theorem eraseDups_of_nodup : ∀ {lexemes : List String}, lexemes.Nodup →
    lexemes.eraseDups = lexemes
  | [], _ => rfl
  | lexeme :: others, distinct => by
      obtain ⟨apart, distinct⟩ := List.nodup_cons.mp distinct
      have kept : (others.filter fun other => !other == lexeme) = others := by
        rw [List.filter_eq_self]
        intro other member
        have different : other ≠ lexeme := fun same => apart (same ▸ member)
        simpa using different
      rw [List.eraseDups_cons, kept, eraseDups_of_nodup distinct]

/-- What is kept is distinct. -/
theorem nodup_eraseDups : ∀ lexemes : List String, lexemes.eraseDups.Nodup
  | [] => List.nodup_nil
  | lexeme :: others => by
      have shorter : (others.filter fun other => !other == lexeme).length ≤ others.length :=
        List.length_filter_le _ _
      rw [List.eraseDups_cons, List.nodup_cons]
      refine ⟨?_, nodup_eraseDups (others.filter fun other => !other == lexeme)⟩
      rw [List.mem_eraseDups, List.mem_filter]
      simp
termination_by lexemes => lexemes.length

/-- The scan of a query gives its distinct lexemes back. -/
theorem queryLexemes_orTsqueryText (lexemes : List String) :
    queryLexemes (orTsqueryText lexemes) = lexemes.eraseDups := by
  have found : (orTsqueryText lexemes).toList = alternatives (lexemes.map String.toList) :=
    toList_orTsqueryText lexemes
  have enough : (alternatives (lexemes.map String.toList)).length ≤
      (orTsqueryText lexemes).length := by
    rw [← found, String.length_toList]
  rw [queryLexemes, found, findLexemes_alternatives _ enough, List.map_map, List.map_map]
  congr 1
  calc lexemes.map _ = lexemes.map id := by
        apply List.map_congr_left
        intro lexeme _
        simp [unescapeLexeme_escaped]
    _ = lexemes := List.map_id lexemes

/-- A query is read as exactly its lexemes, joined by the operator. -/
theorem readQuery_orTsqueryText (lexemes : List String) :
    readQuery none (orTsqueryText lexemes).toList =
      some ((lexemes.map .lexeme).intersperse (.operator '|')) := by
  rw [toList_orTsqueryText, readQuery_alternatives, List.map_map]
  congr 2
  apply List.map_congr_left
  intro lexeme _
  simp

/-- Distinct lexemes survive the quoting: the service's own scan of the query
gives them back, a reader of text queries finds them in order between OR
operators and nothing else, and no other lexemes have this query. -/
theorem lexemes_quoted (lexemes : List String) (distinct : lexemes.Nodup) :
    queryLexemes (orTsqueryText lexemes) = lexemes ∧
      readQuery none (orTsqueryText lexemes).toList =
        some ((lexemes.map .lexeme).intersperse (.operator '|')) ∧
      ∀ others : List String, others.Nodup → orTsqueryText others = orTsqueryText lexemes →
        others = lexemes := by
  have back {given : List String} (distinct : given.Nodup) :
      queryLexemes (orTsqueryText given) = given := by
    rw [queryLexemes_orTsqueryText, eraseDups_of_nodup distinct]
  refine ⟨back distinct, readQuery_orTsqueryText lexemes, ?_⟩
  intro others distinct' same
  rw [← back distinct', same, back distinct]

/-- A lexeme made of a quote, one that ends in a backslash, and one that spells
an operator between quotes. -/
theorem lexemes_quoted_of_quotes :
    ["'", "a\\", "' | '"].Nodup ∧
      queryLexemes (orTsqueryText ["'", "a\\", "' | '"]) = ["'", "a\\", "' | '"] := by
  have distinct : ["'", "a\\", "' | '"].Nodup := by decide
  exact ⟨distinct, (lexemes_quoted _ distinct).1⟩

end Docta
