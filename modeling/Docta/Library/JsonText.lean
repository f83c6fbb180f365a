/-
Module: Docta.Library.JsonText
Purpose: JSON texts. A reader by recursive descent with a bound on the nesting,
  for any reading of numerals; the compact writer that escapes only what it must;
  and that reading what was written gives the written value.
Trusted boundary: none
Main exports: Tree, Dialect, read, readSeries_bounded, write, Tree.Within, read_write,
  plain_write, Tree.Within.written
-/
import Docta.Contract.Json
import Docta.Library.Fallible

namespace Docta.JsonText

open Contract Fallible

-- A quantifier over a list is decided along the list, not over all characters.
attribute [local instance (high)] List.decidableBAll

/-- A value of a JSON text, over the numbers of a language. -/
inductive Tree (ν : Type) where
  | null
  | bool (value : Bool)
  | num (value : ν)
  | str (text : JString)
  | arr (items : List (Tree ν))
  | obj (fields : List (JString × Tree ν))

instance {ν : Type} : Inhabited (Tree ν) := ⟨.null⟩

/-- Why a text is refused. -/
inductive Refusal where
  | syntaxError
  /-- arrays and objects inside each other beyond the bound -/
  | nesting
deriving DecidableEq, Repr

/-- What is read from the front of a text, with the text left. -/
abbrev Reader (α : Type) := List JChar → Except Refusal (α × List JChar)

/-- How a language reads numbers: its reading of a numeral, and the words it
takes for numbers beside them. -/
structure Dialect (ν : Type) where
  number : List Char → Option ν
  words : List (List Char × ν) := []

/-! ### White space and strings -/

/-- White space between tokens. -/
def isBlank (char : JChar) : Bool :=
  char == .scalar ' ' || char == .scalar '\t' || char == .scalar '\n' || char == .scalar '\r'

def skip (text : List JChar) : List JChar :=
  text.dropWhile isBlank

/-- A character that a string may not hold unescaped. -/
def isControl (char : Char) : Bool :=
  decide (char.toNat < 32)

/-- The value of a hexadecimal digit. -/
def hexDigit : JChar → Option Nat
  | .surrogate _ => none
  | .scalar char =>
      if '0' ≤ char ∧ char ≤ '9' then some (char.toNat - '0'.toNat)
      else if 'a' ≤ char ∧ char ≤ 'f' then some (char.toNat - 'a'.toNat + 10)
      else if 'A' ≤ char ∧ char ≤ 'F' then some (char.toNat - 'A'.toNat + 10)
      else none

/-- The code unit of four hexadecimal digits. -/
def codeUnit (first second third fourth : JChar) : Option Nat := do
  let first ← hexDigit first
  let second ← hexDigit second
  let third ← hexDigit third
  let fourth ← hexDigit fourth
  return ((first * 16 + second) * 16 + third) * 16 + fourth

/-- The open half of a pair as it stands. -/
def pending (high : Option (Fin 1024)) : List JChar :=
  (high.map fun half => .surrogate (half.castLE (by decide))).toList

/-- The characters that an escaped unit completes, and the high half of a pair
that it leaves open. -/
def readUnit (high : Option (Fin 1024)) (unit : Nat) : List JChar × Option (Fin 1024) :=
  if lowHalf : 0xDC00 ≤ unit ∧ unit < 0xE000 then
    match high with
    | some half => ([.scalar (.ofNat (0x10000 + half * 1024 + (unit - 0xDC00)))], none)
    | none => ([.surrogate ⟨unit - 0xD800, by omega⟩], none)
  else if highHalf : 0xD800 ≤ unit ∧ unit < 0xDC00 then
    (pending high, some ⟨unit - 0xD800, by omega⟩)
  else (pending high ++ [.scalar (.ofNat unit)], none)

/-- The character of a short escape. -/
def shortEscape (char : Char) : Option Char :=
  [('"', '"'), ('\\', '\\'), ('/', '/'), ('b', '\x08'), ('f', '\x0c'), ('n', '\n'), ('r', '\r'),
    ('t', '\t')].lookup char

/-- The rest of a string after its opening quote, with the high half that an
escape just before has left open. -/
def readString : Option (Fin 1024) → List JChar → Option (JString × List JChar)
  | _, [] => none
  | high, .scalar '"' :: rest => some (pending high, rest)
  | high, .scalar '\\' :: .scalar 'u' :: first :: second :: third :: fourth :: rest =>
      match codeUnit first second third fourth with
      | none => none
      | some unit =>
          (readString (readUnit high unit).2 rest).map fun found =>
            ((readUnit high unit).1 ++ found.1, found.2)
  | high, .scalar '\\' :: .scalar char :: rest =>
      match shortEscape char with
      | none => none
      | some meant =>
          (readString none rest).map fun found => (pending high ++ .scalar meant :: found.1, found.2)
  | high, .scalar char :: rest =>
      if char = '\\' ∨ isControl char = true then none
      else (readString none rest).map fun found => (pending high ++ .scalar char :: found.1, found.2)
  | high, .surrogate index :: rest =>
      (readString none rest).map fun found =>
        (pending high ++ .surrogate index :: found.1, found.2)

/-! ### Values -/

/-- A character of a numeral. -/
def isNumeralChar (char : Char) : Bool :=
  (decide ('0' ≤ char) && decide (char ≤ '9')) || char == '-' || char == '+' || char == '.' ||
    char == 'e' || char == 'E'

def isDigit (char : Char) : Bool :=
  decide ('0' ≤ char) && decide (char ≤ '9')

/-- What follows the whole part of a numeral. -/
def afterWhole : List Char → Option (List Char)
  | [] => none
  | char :: rest =>
      if char = '0' then some rest
      else if isDigit char = true then some (rest.dropWhile isDigit)
      else none

/-- What follows at least one digit. -/
def afterDigits : List Char → Option (List Char)
  | [] => none
  | char :: rest => if isDigit char = true then some (rest.dropWhile isDigit) else none

/-- What follows the fraction, if there is one. -/
def afterFraction : List Char → Option (List Char)
  | '.' :: rest => afterDigits rest
  | rest => some rest

/-- What follows the exponent, if there is one. -/
def afterExponent : List Char → Option (List Char)
  | [] => some []
  | char :: rest =>
      if char = 'e' ∨ char = 'E' then
        match rest with
        | '+' :: digits => afterDigits digits
        | '-' :: digits => afterDigits digits
        | digits => afterDigits digits
      else some (char :: rest)

/-- The characters after the sign of a numeral. -/
def unsigned : List Char → List Char
  | '-' :: rest => rest
  | rest => rest

/-- The numerals of JSON. -/
def isNumeral (text : List Char) : Bool :=
  (((afterWhole (unsigned text)).bind afterFraction).bind afterExponent) == some []

/-- The longest run of numeral characters at the front of a text. -/
def takeNumeral : List JChar → List Char × List JChar
  | .scalar char :: rest =>
      if isNumeralChar char = true then (char :: (takeNumeral rest).1, (takeNumeral rest).2)
      else ([], .scalar char :: rest)
  | rest => ([], rest)

section Reading

variable {ν : Type} (dialect : Dialect ν)

/-- The words of the language, with their values. -/
def Dialect.constants : List (List Char × Tree ν) :=
  [("null".toList, .null), ("true".toList, .bool true), ("false".toList, .bool false)] ++
    dialect.words.map fun word => (word.1, .num word.2)

/-- A word at the front of a text. -/
def readWord {α : Type} : List (List Char × α) → List JChar → Option (α × List JChar)
  | [], _ => none
  | (word, value) :: others, text =>
      if word.map .scalar <+: text then some (value, text.drop word.length)
      else readWord others text

/-- A value that is no array and no object. -/
def readFlat : Reader (Tree ν)
  | .scalar '"' :: rest =>
      match readString none rest with
      | some (text, rest) => .ok (.str text, rest)
      | none => .error .syntaxError
  | text =>
      match readWord dialect.constants text with
      | some found => .ok found
      | none =>
          if isNumeral (takeNumeral text).1 = true then
            match dialect.number (takeNumeral text).1 with
            | some value => .ok (.num value, (takeNumeral text).2)
            | none => .error .syntaxError
          else .error .syntaxError

/-- The items up to the closing bracket, with a comma between neighbours; each
takes one step. -/
def readItems {α : Type} (close : Char) (item : Reader α) : Nat → Reader (List α)
  | 0, _ => .error .syntaxError
  | steps + 1, text => do
      let first ← item text
      match skip first.2 with
      | .scalar char :: rest =>
          if char = ',' then do
            let others ← readItems close item steps (skip rest)
            .ok (first.1 :: others.1, others.2)
          else if char = close then .ok ([first.1], rest)
          else .error .syntaxError
      | _ => .error .syntaxError

/-- What stands between an opening bracket and its closing one. -/
def readSeries {α : Type} (close : Char) (item : Reader α) : Reader (List α) := fun text =>
  match skip text with
  | [] => .error .syntaxError
  | head :: rest =>
      if head = .scalar close then .ok ([], rest)
      else readItems close item (head :: rest).length (head :: rest)

/-- A name and its value. -/
def readMember {α : Type} (value : Reader α) : Reader (JString × α)
  | .scalar '"' :: rest =>
      match readString none rest with
      | some (name, rest) =>
          match skip rest with
          | .scalar ':' :: rest => do
              let found ← value (skip rest)
              .ok ((name, found.1), found.2)
          | _ => .error .syntaxError
      | none => .error .syntaxError
  | _ => .error .syntaxError

/-- The fields with one more assigned: a repeated name keeps its place and takes
the last value. -/
def assign {α : Type} (fields : List (JString × α)) (field : JString × α) : List (JString × α) :=
  if field.1 ∈ fields.map Prod.fst then
    fields.map fun old => if old.1 = field.1 then (old.1, field.2) else old
  else fields ++ [field]

/-- The object of the members read. -/
def assignAll {α : Type} (members : List (JString × α)) : List (JString × α) :=
  members.foldl assign []

/-- A value, with the reader of what it nests, unless it may nest nothing. -/
def readNode (inner : Option (Reader (Tree ν))) : Reader (Tree ν)
  | .scalar '[' :: rest =>
      match inner with
      | none => .error .nesting
      | some inner => do
          let items ← readSeries ']' inner rest
          .ok (.arr items.1, items.2)
  | .scalar '{' :: rest =>
      match inner with
      | none => .error .nesting
      | some inner => do
          let members ← readSeries '}' (readMember inner) rest
          .ok (.obj (assignAll members.1), members.2)
  | text => readFlat dialect text

/-- A value that nests at most so deep. -/
def readValue : Nat → Reader (Tree ν)
  | 0 => readNode dialect none
  | depth + 1 => readNode dialect (some (readValue depth))

/-- The value of a whole text. -/
def read (depth : Nat) (text : List JChar) : Except Refusal (Tree ν) := do
  let found ← readValue dialect depth (skip text)
  failIf (skip found.2 ≠ []) .syntaxError
  return found.1

end Reading

/-! ### Steps are enough -/

/-- A reader leaves less than it was given. -/
def Shortens {α : Type} (reader : Reader α) : Prop :=
  ∀ text found, reader text = .ok found → found.2.length < text.length

theorem length_skip_le (text : List JChar) : (skip text).length ≤ text.length :=
  (List.dropWhile_sublist _).length_le

theorem length_of_readString {high : Option (Fin 1024)} {text : List JChar}
    {found : JString × List JChar} (reads : readString high text = some found) :
    found.2.length < text.length := by
  fun_induction readString high text generalizing found with
  | case1 => cases reads
  | case2 => cases reads; exact Nat.lt_succ_self _
  | case3 => cases reads
  | case4 high first second third fourth rest unit unitOk ih =>
      obtain ⟨inner, innerOk, rfl⟩ := Option.map_eq_some_iff.mp reads
      have shorter := ih innerOk
      simp only [List.length_cons]
      omega
  | case5 => cases reads
  | case6 high char rest apart meant short ih =>
      obtain ⟨inner, innerOk, rfl⟩ := Option.map_eq_some_iff.mp reads
      have shorter := ih innerOk
      simp only [List.length_cons]
      omega
  | case7 => cases reads
  | case8 high char rest notQuote notHex notShort plain ih =>
      obtain ⟨inner, innerOk, rfl⟩ := Option.map_eq_some_iff.mp reads
      have shorter := ih innerOk
      exact Nat.lt_trans shorter (Nat.lt_succ_self _)
  | case9 high index rest ih =>
      obtain ⟨inner, innerOk, rfl⟩ := Option.map_eq_some_iff.mp reads
      have shorter := ih innerOk
      exact Nat.lt_trans shorter (Nat.lt_succ_self _)


theorem length_takeNumeral (text : List JChar) :
    (takeNumeral text).1.length + (takeNumeral text).2.length = text.length := by
  induction text with
  | nil => rfl
  | cons head rest ih =>
      cases head with
      | surrogate index => rw [takeNumeral, List.length_nil, Nat.zero_add]; simp
      | scalar char =>
          rw [takeNumeral]
          split
          · simp only [List.length_cons]
            omega
          · simp

/-- Every word of the language has a character. -/
def Dialect.Worded {ν : Type} (dialect : Dialect ν) : Prop :=
  ∀ word ∈ dialect.words, word.1 ≠ []

section Shortening

variable {ν : Type} {dialect : Dialect ν}

theorem length_of_readWord {α : Type} {words : List (List Char × α)}
    (worded : ∀ word ∈ words, word.1 ≠ []) {text : List JChar} {found : α × List JChar}
    (reads : readWord words text = some found) : found.2.length < text.length := by
  induction words with
  | nil => cases reads
  | cons word words ih =>
      obtain ⟨nonempty, others⟩ := List.forall_mem_cons.mp worded
      rw [readWord] at reads
      split at reads
      · rename_i isFront
        cases reads
        have size := isFront.length_le
        have positive := List.length_pos_iff.mpr nonempty
        rw [List.length_map] at size
        rw [List.length_drop]
        omega
      · exact ih others reads

theorem shortens_readFlat (worded : dialect.Worded) : Shortens (readFlat dialect) := by
  intro text found reads
  unfold readFlat at reads
  split at reads
  · split at reads
    · rename_i stringOk
      cases reads
      exact Nat.lt_trans (length_of_readString stringOk) (Nat.lt_succ_self _)
    · cases reads
  · split at reads
    · rename_i wordOk
      cases reads
      apply length_of_readWord _ wordOk
      intro word member
      rw [Dialect.constants, List.mem_append] at member
      rcases member with fixed | named
      · simp only [List.mem_cons, List.not_mem_nil, or_false] at fixed
        rcases fixed with rfl | rfl | rfl
        · exact List.cons_ne_nil _ _
        · exact List.cons_ne_nil _ _
        · exact List.cons_ne_nil _ _
      · obtain ⟨source, known, rfl⟩ := List.mem_map.mp named
        exact worded source known
    · split at reads
      · rename_i isNumeral
        split at reads
        · cases reads
          have sizes := length_takeNumeral text
          have positive : 0 < (takeNumeral text).1.length := by
            apply List.length_pos_iff.mpr
            intro none
            rw [none] at isNumeral
            cases isNumeral
          simp only
          omega
        · cases reads
      · cases reads

section Items

variable {α : Type} {close : Char} {item : Reader α}

theorem length_of_readItems (shortens : Shortens item) {steps : Nat} {text : List JChar}
    {found : List α × List JChar} (reads : readItems close item steps text = .ok found) :
    found.2.length < text.length := by
  induction steps generalizing text found with
  | zero => cases reads
  | succ steps ih =>
      rw [readItems, bind_eq_ok] at reads
      obtain ⟨first, firstOk, reads⟩ := reads
      have shorter := shortens text first firstOk
      have skipped := length_skip_le first.2
      split at reads
      · rename_i char rest next
        rw [next, List.length_cons] at skipped
        split at reads
        · rw [bind_eq_ok] at reads
          obtain ⟨others, othersOk, reads⟩ := reads
          cases reads
          have later := ih othersOk
          have skippedRest := length_skip_le rest
          simp only
          omega
        · split at reads
          · cases reads
            simp only
            omega
          · cases reads
      · cases reads

/-- As many steps as there are characters are enough. -/
theorem readItems_add (shortens : Shortens item) {steps : Nat} {text : List JChar}
    (enough : text.length ≤ steps) (some : 0 < steps) (more : Nat) :
    readItems close item (steps + more) text = readItems close item steps text := by
  induction steps generalizing text with
  | zero => exact absurd some (Nat.lt_irrefl 0)
  | succ steps ih =>
      rw [Nat.succ_add, readItems, readItems]
      cases firstOk : item text with
      | error refusal => rfl
      | ok first =>
          have shorter := shortens text first firstOk
          have skipped := length_skip_le first.2
          rw [ok_bind, ok_bind]
          split
          · rename_i char rest next
            rw [next, List.length_cons] at skipped
            have skippedRest := length_skip_le rest
            split
            · rw [ih (by omega) (by omega)]
            · rfl
          · rfl

end Items

theorem shortens_readSeries {α : Type} {close : Char} {item : Reader α} (shortens : Shortens item) :
    Shortens (readSeries close item) := by
  intro text found reads
  have skipped := length_skip_le text
  unfold readSeries at reads
  split at reads
  · cases reads
  · rename_i head rest next
    rw [next] at skipped
    split at reads
    · cases reads
      exact skipped
    · exact Nat.lt_of_lt_of_le (length_of_readItems shortens reads) skipped

theorem shortens_readMember {α : Type} {value : Reader α} (shortens : Shortens value) :
    Shortens (readMember value) := by
  intro text found reads
  unfold readMember at reads
  split at reads
  · split at reads
    · rename_i nameOk
      have shorter := length_of_readString nameOk
      split at reads
      · rename_i after name rest isName colon next
        rw [bind_eq_ok] at reads
        obtain ⟨inner, innerOk, reads⟩ := reads
        cases reads
        have skippedName := length_skip_le rest
        have skippedColon := length_skip_le colon
        have innerShorter := shortens _ _ innerOk
        rw [next, List.length_cons] at skippedName
        simp only [List.length_cons] at shorter ⊢
        omega
      · cases reads
    · cases reads
  · cases reads

/-- Reading a value takes at least one character. -/
theorem shortens_readValue (worded : dialect.Worded) (depth : Nat) :
    Shortens (readValue dialect depth) := by
  have node {inner : Option (Reader (Tree ν))} (innerShortens : ∀ reader ∈ inner, Shortens reader) :
      Shortens (readNode dialect inner) := by
    intro text found reads
    unfold readNode at reads
    split at reads
    · split at reads
      · cases reads
      · rename_i reader
        rw [bind_eq_ok] at reads
        obtain ⟨items, itemsOk, reads⟩ := reads
        cases reads
        have shorter := shortens_readSeries (innerShortens reader rfl) _ _ itemsOk
        exact Nat.lt_trans shorter (Nat.lt_succ_self _)
    · split at reads
      · cases reads
      · rename_i reader
        rw [bind_eq_ok] at reads
        obtain ⟨members, membersOk, reads⟩ := reads
        cases reads
        have shorter := shortens_readSeries (shortens_readMember (innerShortens reader rfl)) _ _
          membersOk
        exact Nat.lt_trans shorter (Nat.lt_succ_self _)
    · exact shortens_readFlat worded text found reads
  induction depth with
  | zero => exact node (by intro reader isNone; cases isNone)
  | succ depth ih =>
      apply node
      intro reader isSome
      cases isSome
      exact ih

/-- The bound on the steps stops no reading: more of them read the same items and the same
members. -/
theorem readSeries_bounded (worded : dialect.Worded) (depth : Nat) (close : Char)
    {text : List JChar} (some : text ≠ []) (more : Nat) :
    readItems close (readValue dialect depth) (text.length + more) text =
        readItems close (readValue dialect depth) text.length text ∧
      readItems close (readMember (readValue dialect depth)) (text.length + more) text =
        readItems close (readMember (readValue dialect depth)) text.length text :=
  have values := shortens_readValue worded depth
  have positive := List.length_pos_iff.mpr some
  ⟨readItems_add values (Nat.le_refl _) positive more,
    readItems_add (shortens_readMember values) (Nat.le_refl _) positive more⟩

end Shortening

/-! ### Writing -/

/-- The letter of a short escape that the writer uses. -/
def shortForm (char : Char) : Option Char :=
  [('"', '"'), ('\\', '\\'), ('\x08', 'b'), ('\x0c', 'f'), ('\n', 'n'), ('\r', 'r'),
    ('\t', 't')].lookup char

/-- A hexadecimal digit in lower case. -/
def hexChar (digit : Nat) : Char :=
  if digit < 10 then .ofNat ('0'.toNat + digit) else .ofNat ('a'.toNat + (digit - 10))

/-- The escape of a code unit. -/
def unitEscape (unit : Nat) : List Char :=
  ['\\', 'u', hexChar (unit / 4096 % 16), hexChar (unit / 256 % 16), hexChar (unit / 16 % 16),
    hexChar (unit % 16)]

/-- A character of a string as it is written. -/
def escape : JChar → List JChar
  | .surrogate index => [.surrogate index]
  | .scalar char =>
      match shortForm char with
      | some letter => [.scalar '\\', .scalar letter]
      | none =>
          if isControl char = true then
            [.scalar '\\', .scalar 'u', .scalar '0', .scalar '0',
              .scalar (hexChar (char.toNat / 16)), .scalar (hexChar (char.toNat % 16))]
          else [.scalar char]

def writeString (text : JString) : List JChar :=
  .scalar '"' :: (text.flatMap escape ++ [.scalar '"'])

/-- The parts up to the closing bracket, with a comma between neighbours. -/
def series (close : Char) : List (List JChar) → List JChar
  | [] => [.scalar close]
  | [part] => part ++ [.scalar close]
  | part :: next :: rest => part ++ .scalar ',' :: series close (next :: rest)

section Writing

variable {ν : Type} (numeral : ν → List Char)

mutual

/-- The compact text of a value. -/
def write : Tree ν → List JChar
  | .null => JString.ofString "null"
  | .bool value => JString.ofString (if value then "true" else "false")
  | .num value => (numeral value).map .scalar
  | .str text => writeString text
  | .arr items => .scalar '[' :: series ']' (writeItems items)
  | .obj fields => .scalar '{' :: series '}' (writeMembers fields)

def writeItems : List (Tree ν) → List (List JChar)
  | [] => []
  | item :: rest => write item :: writeItems rest

def writeMembers : List (JString × Tree ν) → List (List JChar)
  | [] => []
  | field :: rest => writeMember field :: writeMembers rest

def writeMember : JString × Tree ν → List JChar
  | (name, value) => writeString name ++ .scalar ':' :: write value

end

end Writing

section Mapping

variable {ν μ : Type} (function : ν → μ)

mutual

/-- The value with its numbers replaced. -/
def Tree.map : Tree ν → Tree μ
  | .null => .null
  | .bool value => .bool value
  | .num value => .num (function value)
  | .str text => .str text
  | .arr items => .arr (mapItems items)
  | .obj fields => .obj (mapFields fields)

def Tree.mapItems : List (Tree ν) → List (Tree μ)
  | [] => []
  | item :: rest => map item :: mapItems rest

def Tree.mapFields : List (JString × Tree ν) → List (JString × Tree μ)
  | [] => []
  | field :: rest => mapField field :: mapFields rest

def Tree.mapField : JString × Tree ν → JString × Tree μ
  | (name, value) => (name, map value)

end

end Mapping

/-! ### Strings are read back -/

theorem readString_short {high : Option (Fin 1024)} {letter char : Char} {rest : List JChar}
    (notHex : letter ≠ 'u') (meant : shortEscape letter = some char) :
    readString high (.scalar '\\' :: .scalar letter :: rest) =
      (readString none rest).map fun found => (pending high ++ .scalar char :: found.1, found.2) := by
  simp [readString, notHex, meant]

theorem readString_plain {high : Option (Fin 1024)} {char : Char} {rest : List JChar}
    (notQuote : char ≠ '"') (notBackslash : char ≠ '\\') (plain : isControl char = false) :
    readString high (.scalar char :: rest) =
      (readString none rest).map fun found => (pending high ++ .scalar char :: found.1, found.2) := by
  simp [readString, notBackslash, plain]

theorem codeUnit_control : ∀ value < 32,
    codeUnit (.scalar '0') (.scalar '0') (.scalar (hexChar (value / 16)))
      (.scalar (hexChar (value % 16))) = some value := by
  decide

/-- The writer's short escapes are the reader's. -/
theorem shortEscape_of_shortForm {char letter : Char} (short : shortForm char = some letter) :
    shortEscape letter = some char ∧ letter ≠ 'u' := by
  simp only [shortForm, List.lookup_cons, List.lookup_nil] at short
  repeat' split at short
  all_goals cases short
  all_goals
    rename_i same
    rw [beq_iff_eq] at same
    subst same
    decide

theorem ne_of_shortForm_none {char other letter : Char} (none : shortForm char = none)
    (short : shortForm other = some letter) : char ≠ other := by
  intro same
  rw [same, short] at none
  cases none

/-- An escaped Unicode character is read back, after an open half too. -/
theorem readString_escape_scalar (high : Option (Fin 1024)) (char : Char) (rest : List JChar) :
    readString high (escape (.scalar char) ++ rest) =
      (readString none rest).map fun found => (pending high ++ .scalar char :: found.1, found.2) := by
  cases short : shortForm char with
  | some letter =>
      obtain ⟨meant, notHex⟩ := shortEscape_of_shortForm short
      simp only [escape, short, List.cons_append, List.nil_append]
      exact readString_short notHex meant
  | none =>
      cases control : isControl char with
      | true =>
          have small : char.toNat < 32 := of_decide_eq_true control
          have unit := codeUnit_control char.toNat small
          have plain : readUnit high char.toNat = (pending high ++ [.scalar char], none) := by
            rw [readUnit, dif_neg (by omega), dif_neg (by omega), Char.ofNat_toNat]
          simp only [escape, short, control, if_true, List.cons_append, List.nil_append,
            readString, unit, plain, List.append_assoc]
      | false =>
          simp only [escape, short, control, Bool.false_eq_true, if_false, List.cons_append,
            List.nil_append]
          exact readString_plain (ne_of_shortForm_none short (by decide : _ = some '"'))
            (ne_of_shortForm_none short (by decide : _ = some '\\')) control

/-- An escaped character is read back. -/
theorem readString_escape (char : JChar) (rest : List JChar) :
    readString none (escape char ++ rest) =
      (readString none rest).map fun found => (char :: found.1, found.2) := by
  cases char with
  | surrogate index => rfl
  | scalar char => exact readString_escape_scalar none char rest

/-- A written string is read back. -/
theorem readString_written (text : JString) (rest : List JChar) :
    readString none (text.flatMap escape ++ .scalar '"' :: rest) = some (text, rest) := by
  induction text with
  | nil => rfl
  | cons char text ih =>
      rw [List.flatMap_cons, List.append_assoc, readString_escape, ih]
      rfl

/-! ### Series are read back -/

/-- The front of a written value: no white space and no closing bracket. -/
def Opens (part : List JChar) : Prop :=
  ∃ head rest, part = head :: rest ∧ isBlank head = false ∧ head ≠ .scalar ']' ∧ head ≠ .scalar '}'

/-- What may follow a numeral. -/
def Delimited (text : List JChar) : Prop :=
  ∀ char rest, text = .scalar char :: rest → isNumeralChar char = false

theorem Opens.append {part : List JChar} (opens : Opens part) (rest : List JChar) :
    Opens (part ++ rest) := by
  obtain ⟨head, tail, rfl, front⟩ := opens
  exact ⟨head, tail ++ rest, rfl, front⟩

theorem skip_of_opens {text : List JChar} (opens : Opens text) : skip text = text := by
  obtain ⟨head, rest, rfl, front, _⟩ := opens
  exact List.dropWhile_cons_of_neg (by simp [front])

theorem skip_cons {head : JChar} {rest : List JChar} (front : isBlank head = false) :
    skip (head :: rest) = head :: rest :=
  List.dropWhile_cons_of_neg (by simp [front])

theorem delimited_cons {char : Char} {rest : List JChar} (not : isNumeralChar char = false) :
    Delimited (.scalar char :: rest) := by
  intro other tail same
  cases same
  exact not

section Series

variable {α β : Type} {close : Char} {item : Reader β} {render : α → List JChar} {image : α → β}

/-- The reader gives back the image of what is rendered. -/
def ReadsBack (item : Reader β) (render : α → List JChar) (image : α → β) (value : α) : Prop :=
  ∀ rest, Delimited rest → item (render value ++ rest) = .ok (image value, rest)

theorem length_le_length_series {items : List α} :
    items.length ≤ (series close (items.map render)).length := by
  induction items with
  | nil => exact Nat.zero_le _
  | cons first others ih =>
      cases others with
      | nil => simp [series]
      | cons second others =>
          simp only [List.map_cons, series, List.length_append, List.length_cons] at ih ⊢
          omega

theorem opens_series {items : List α} (some : items ≠ [])
    (opens : ∀ value ∈ items, Opens (render value)) : Opens (series close (items.map render)) := by
  cases items with
  | nil => exact absurd rfl some
  | cons first others =>
      have front := opens first List.mem_cons_self
      cases others with
      | nil => exact front.append _
      | cons second others => exact front.append _

/-- Items are read back, one step each. -/
theorem readItems_series {items : List α} (some : items ≠ [])
    (opens : ∀ value ∈ items, Opens (render value))
    (readsBack : ∀ value ∈ items, ReadsBack item render image value)
    (isClose : isNumeralChar close = false ∧ isBlank (.scalar close) = false ∧ close ≠ ',')
    (steps : Nat) (enough : items.length ≤ steps) (rest : List JChar) :
    readItems close item steps (series close (items.map render) ++ rest) =
      .ok (items.map image, rest) := by
  induction items generalizing steps with
  | nil => exact absurd rfl some
  | cons first others ih =>
      cases steps with
      | zero => exact absurd enough (Nat.not_succ_le_zero _)
      | succ steps =>
          obtain ⟨firstBack, othersBack⟩ := List.forall_mem_cons.mp readsBack
          obtain ⟨_, opensOthers⟩ := List.forall_mem_cons.mp opens
          cases others with
          | nil =>
              simp only [List.map_cons, List.map_nil, series, List.append_assoc,
                List.cons_append, List.nil_append]
              rw [readItems, firstBack _ (delimited_cons isClose.1), ok_bind, skip_cons isClose.2.1]
              simp only [isClose.2.2, if_false, if_true]
          | cons second others =>
              have later := ih (List.cons_ne_nil _ _) opensOthers othersBack steps
                (Nat.le_of_succ_le_succ enough)
              have front : Opens (series close ((second :: others).map render) ++ rest) :=
                (opens_series (List.cons_ne_nil _ _) opensOthers).append rest
              simp only [List.map_cons, series, List.append_assoc, List.cons_append]
              rw [readItems, firstBack _ (delimited_cons (by decide)), ok_bind,
                skip_cons (by decide)]
              simp only [if_true]
              rw [List.map_cons] at front later
              rw [skip_of_opens front, later, ok_bind]
              rfl

/-- A series is read back. -/
theorem readSeries_series {items : List α} (opens : ∀ value ∈ items, Opens (render value))
    (readsBack : ∀ value ∈ items, ReadsBack item render image value)
    (isClose : close = ']' ∨ close = '}') (rest : List JChar) :
    readSeries close item (series close (items.map render) ++ rest) = .ok (items.map image, rest) := by
  have closing : isNumeralChar close = false ∧ isBlank (.scalar close) = false ∧ close ≠ ',' := by
    rcases isClose with rfl | rfl
    · decide
    · decide
  cases items with
  | nil =>
      rw [readSeries, List.map_nil, series, List.cons_append, skip_cons closing.2.1]
      simp
  | cons first others =>
      have front : Opens (series close ((first :: others).map render) ++ rest) :=
        (opens_series (List.cons_ne_nil _ _) opens).append rest
      have whole := readItems_series (List.cons_ne_nil _ _) opens readsBack closing
        (series close ((first :: others).map render) ++ rest).length (by
          rw [List.length_append]
          exact Nat.le_add_right_of_le length_le_length_series) rest
      rw [readSeries, skip_of_opens front]
      obtain ⟨head, tail, isHead, _, notBracket, notBrace⟩ := front
      rw [isHead] at whole ⊢
      have notClose : head ≠ .scalar close := by
        rcases isClose with rfl | rfl
        · exact notBracket
        · exact notBrace
      simp only [notClose, if_false]
      exact whole

end Series

/-! ### Values are read back -/

/-- A value that nests at most so deep, whose objects have distinct names and
whose numbers are as given. -/
inductive Tree.Within {ν : Type} (number : ν → Prop) : Nat → Tree ν → Prop where
  | null {depth : Nat} : Within number depth .null
  | bool {depth : Nat} (value : Bool) : Within number depth (.bool value)
  | num {depth : Nat} {value : ν} (ok : number value) : Within number depth (.num value)
  | str {depth : Nat} (text : JString) : Within number depth (.str text)
  | arr {depth : Nat} {items : List (Tree ν)} (each : ∀ item ∈ items, Within number depth item) :
      Within number (depth + 1) (.arr items)
  | obj {depth : Nat} {fields : List (JString × Tree ν)} (names : (fields.map Prod.fst).Nodup)
      (each : ∀ field ∈ fields, Within number depth field.2) :
      Within number (depth + 1) (.obj fields)

instance Tree.decidableWithin {ν : Type} {number : ν → Prop} [DecidablePred number] :
    ∀ (depth : Nat) (tree : Tree ν), Decidable (tree.Within number depth)
  | _, .null => isTrue .null
  | _, .bool value => isTrue (.bool value)
  | _, .num _ => decidable_of_iff (number _) ⟨.num, fun | .num ok => ok⟩
  | _, .str text => isTrue (.str text)
  | 0, .arr _ => isFalse nofun
  | 0, .obj _ => isFalse nofun
  | depth + 1, .arr items =>
      have : ∀ tree : Tree ν, Decidable (tree.Within number depth) := decidableWithin depth
      decidable_of_iff (∀ item ∈ items, item.Within number depth) ⟨.arr, fun | .arr each => each⟩
  | depth + 1, .obj fields =>
      have : ∀ tree : Tree ν, Decidable (tree.Within number depth) := decidableWithin depth
      decidable_of_iff
        ((fields.map Prod.fst).Nodup ∧ ∀ field ∈ fields, field.2.Within number depth)
        ⟨fun ok => .obj ok.1 ok.2, fun | .obj names each => ⟨names, each⟩⟩

section Values

variable {ν μ : Type}

theorem writeItems_eq (numeral : ν → List Char) (items : List (Tree ν)) :
    writeItems numeral items = items.map (write numeral) := by
  induction items with
  | nil => rfl
  | cons item rest ih => rw [writeItems, ih, List.map_cons]

theorem writeMembers_eq (numeral : ν → List Char) (fields : List (JString × Tree ν)) :
    writeMembers numeral fields = fields.map (writeMember numeral) := by
  induction fields with
  | nil => rfl
  | cons field rest ih => rw [writeMembers, ih, List.map_cons]

theorem mapItems_eq (function : ν → μ) (items : List (Tree ν)) :
    Tree.mapItems function items = items.map (Tree.map function) := by
  induction items with
  | nil => rfl
  | cons item rest ih => rw [Tree.mapItems, ih, List.map_cons]

theorem mapFields_eq (function : ν → μ) (fields : List (JString × Tree ν)) :
    Tree.mapFields function fields = fields.map (Tree.mapField function) := by
  induction fields with
  | nil => rfl
  | cons field rest ih => rw [Tree.mapFields, ih, List.map_cons]

mutual

/-- A value whose numbers are kept is kept. -/
theorem map_id_eq : ∀ tree : Tree ν, tree.map id = tree
  | .null => rfl
  | .bool _ => rfl
  | .num _ => rfl
  | .str _ => rfl
  | .arr items => congrArg Tree.arr (mapItems_id_eq items)
  | .obj fields => congrArg Tree.obj (mapFields_id_eq fields)

theorem mapItems_id_eq : ∀ items : List (Tree ν), Tree.mapItems id items = items
  | [] => rfl
  | item :: rest => by rw [Tree.mapItems, map_id_eq item, mapItems_id_eq rest]

theorem mapFields_id_eq : ∀ fields : List (JString × Tree ν),
    Tree.mapFields id fields = fields
  | [] => rfl
  | field :: rest => by rw [Tree.mapFields, mapField_id_eq field, mapFields_id_eq rest]

theorem mapField_id_eq : ∀ field : JString × Tree ν, Tree.mapField id field = field
  | (name, value) => by rw [Tree.mapField, map_id_eq value]

end

/-- Members with distinct names are the fields of their object. -/
theorem assignAll_of_nodup {α : Type} {members : List (JString × α)}
    (names : (members.map Prod.fst).Nodup) : assignAll members = members := by
  have each : ∀ done left : List (JString × α), ((done ++ left).map Prod.fst).Nodup →
      left.foldl assign done = done ++ left := by
    intro done left
    induction left generalizing done with
    | nil => intro _; rw [List.foldl_nil, List.append_nil]
    | cons field left ih =>
        intro distinct
        have fresh : field.1 ∉ done.map Prod.fst := by
          rw [List.map_append, List.map_cons, List.nodup_append] at distinct
          intro known
          exact distinct.2.2 _ known _ List.mem_cons_self rfl
        rw [List.foldl_cons, assign, if_neg fresh, ih _ (by simpa using distinct),
          List.append_assoc, List.cons_append, List.nil_append]
  exact each [] members names

section Numbers

variable {numeral : ν → List Char} {dialect : Dialect μ} {function : ν → μ}

/-- The number is written as a numeral that is read as its image. -/
structure Numbered (numeral : ν → List Char) (dialect : Dialect μ) (function : ν → μ) (value : ν) :
    Prop where
  isNumeral : isNumeral (numeral value) = true
  chars : ∀ char ∈ numeral value, isNumeralChar char = true
  number : dialect.number (numeral value) = some (function value)

instance [DecidableEq μ] : DecidablePred (Numbered numeral dialect function) := fun _ =>
  decidable_of_iff (_ ∧ _ ∧ _)
    ⟨fun ok => ⟨ok.1, ok.2.1, ok.2.2⟩, fun ok => ⟨ok.isNumeral, ok.chars, ok.number⟩⟩

/-- No word of the language begins as a numeral does. -/
def Dialect.Apart (dialect : Dialect μ) : Prop :=
  ∀ word ∈ dialect.words, ∃ char rest, word.1 = char :: rest ∧
    (isNumeralChar char = false ∨
      (char = '-' ∧ ∃ next others, rest = next :: others ∧ isNumeralChar next = false))

theorem takeNumeral_append {text : List Char} (chars : ∀ char ∈ text, isNumeralChar char = true)
    {rest : List JChar} (delimited : Delimited rest) :
    takeNumeral (text.map .scalar ++ rest) = (text, rest) := by
  induction text with
  | nil =>
      rw [List.map_nil, List.nil_append]
      cases rest with
      | nil => rfl
      | cons head rest =>
          cases head with
          | surrogate index => rfl
          | scalar char =>
              rw [takeNumeral, delimited char rest rfl]
              rfl
  | cons char text ih =>
      obtain ⟨first, others⟩ := List.forall_mem_cons.mp chars
      rw [List.map_cons, List.cons_append, takeNumeral, first, if_pos rfl, ih others]

theorem isDigit_of_afterWhole {text : List Char} (some : (afterWhole text).isSome = true) :
    ∃ char rest, text = char :: rest ∧ isDigit char = true := by
  cases text with
  | nil => exact absurd some (by decide)
  | cons char rest =>
      refine ⟨char, rest, rfl, ?_⟩
      rw [afterWhole] at some
      by_cases zero : char = '0'
      · rw [zero]
        decide
      · rw [if_neg zero] at some
        by_cases digit : isDigit char = true
        · exact digit
        · rw [if_neg digit] at some
          exact absurd some (by decide)

/-- A numeral begins with a digit, or with a sign and a digit. -/
theorem front_of_isNumeral {text : List Char} (is : isNumeral text = true) :
    ∃ char rest, isDigit char = true ∧ (text = char :: rest ∨ text = '-' :: char :: rest) := by
  have whole : (afterWhole (unsigned text)).isSome = true := by
    cases after : afterWhole (unsigned text) with
    | some rest => rfl
    | none =>
        rw [isNumeral, after] at is
        exact absurd is (by decide)
  obtain ⟨char, rest, same, digit⟩ := isDigit_of_afterWhole whole
  refine ⟨char, rest, digit, ?_⟩
  cases text with
  | nil => exact absurd same (by simp [unsigned])
  | cons head tail =>
      by_cases minus : head = '-'
      · subst minus
        exact .inr (congrArg ('-' :: ·) same)
      · left
        simpa [unsigned, minus] using same

theorem isNumeralChar_of_isDigit {char : Char} (digit : isDigit char = true) :
    isNumeralChar char = true := by
  simp only [isNumeralChar, Bool.or_eq_true]
  exact .inl (.inl (.inl (.inl (.inl digit))))

theorem not_prefix_of_head {word : List Char} {char other : Char} {rest : List Char}
    {text : List JChar} (isWord : word = char :: rest) (different : char ≠ other) :
    ¬ word.map JChar.scalar <+: .scalar other :: text := by
  intro front
  rw [isWord, List.map_cons, List.cons_prefix_cons] at front
  exact different (JChar.scalar.inj front.1)

theorem readWord_none {α : Type} {words : List (List Char × α)} {text : List JChar}
    (never : ∀ word ∈ words, ¬ word.1.map JChar.scalar <+: text) :
    readWord words text = none := by
  induction words with
  | nil => rfl
  | cons word words ih =>
      obtain ⟨first, others⟩ := List.forall_mem_cons.mp never
      rw [readWord, if_neg first, ih others]

/-- No word is at the front of a numeral. -/
theorem readWord_numeral (apart : dialect.Apart) {text : List Char}
    (is : isNumeral text = true) (rest : List JChar) :
    readWord dialect.constants (text.map .scalar ++ rest) = none := by
  obtain ⟨digit, others, isDigit, front⟩ := front_of_isNumeral is
  have numeralDigit := isNumeralChar_of_isDigit isDigit
  apply readWord_none
  intro word member
  -- the front of the word against the sign or the digit
  have differs (char : Char) (tail : List Char) (isWord : word.1 = char :: tail)
      (not : isNumeralChar char = false) : ¬ word.1.map JChar.scalar <+: text.map .scalar ++ rest := by
    rcases front with rfl | rfl
    · refine not_prefix_of_head isWord ?_
      intro same
      rw [same, numeralDigit] at not
      cases not
    · refine not_prefix_of_head isWord ?_
      intro same
      rw [same] at not
      cases not
  rw [Dialect.constants, List.mem_append] at member
  rcases member with fixed | named
  · simp only [List.mem_cons, List.not_mem_nil, or_false] at fixed
    rcases fixed with rfl | rfl | rfl
    · exact differs 'n' _ rfl rfl
    · exact differs 't' _ rfl rfl
    · exact differs 'f' _ rfl rfl
  · obtain ⟨source, known, rfl⟩ := List.mem_map.mp named
    obtain ⟨char, tail, isWord, not | ⟨rfl, next, more, rfl, not⟩⟩ := apart source known
    · exact differs char tail isWord not
    · intro isFront
      rw [isWord] at isFront
      rcases front with rfl | rfl
      · simp only [List.map_cons, List.cons_append, List.cons_prefix_cons] at isFront
        have same : '-' = digit := JChar.scalar.inj isFront.1
        rw [← same] at isDigit
        cases isDigit
      · simp only [List.map_cons, List.cons_append, List.cons_prefix_cons] at isFront
        have same : next = digit := JChar.scalar.inj isFront.2.1
        rw [same, numeralDigit] at not
        cases not

/-- A written number is read back. -/
theorem readNode_number (apart : dialect.Apart) {value : ν}
    (numbered : Numbered numeral dialect function value) (inner : Option (Reader (Tree μ)))
    {rest : List JChar} (delimited : Delimited rest) :
    readNode dialect inner ((numeral value).map .scalar ++ rest) = .ok (.num (function value), rest) := by
  have noWord := readWord_numeral apart numbered.isNumeral rest
  have run := takeNumeral_append numbered.chars delimited
  obtain ⟨digit, others, isDigit, front⟩ := front_of_isNumeral numbered.isNumeral
  have flat : readNode dialect inner ((numeral value).map .scalar ++ rest) =
      readFlat dialect ((numeral value).map .scalar ++ rest) := by
    rcases front with same | same
    · rw [same, List.map_cons, List.cons_append]
      unfold readNode
      split
      · rename_i isBracket
        cases isBracket
        cases isDigit
      · rename_i isBrace
        cases isBrace
        cases isDigit
      · rfl
    · rw [same]
      rfl
  have notString : ∀ tail, (numeral value).map JChar.scalar ++ rest ≠ .scalar '"' :: tail := by
    intro tail quoted
    rcases front with same | same
    · rw [same, List.map_cons, List.cons_append] at quoted
      have isQuote : digit = '"' := JChar.scalar.inj (List.cons.inj quoted).1
      rw [isQuote] at isDigit
      cases isDigit
    · rw [same] at quoted
      cases quoted
  rw [flat]
  unfold readFlat
  split
  · rename_i tail quoted
    exact absurd quoted (notString tail)
  · rw [noWord]
    simp only [run, numbered.isNumeral, if_true, numbered.number]

theorem readNode_null (inner : Option (Reader (Tree μ))) (rest : List JChar) :
    readNode dialect inner (JString.ofString "null" ++ rest) = .ok (.null, rest) := by
  have word : JString.ofString "null" ++ rest =
      .scalar 'n' :: .scalar 'u' :: .scalar 'l' :: .scalar 'l' :: rest := rfl
  rw [word]
  simp [readNode, readFlat, Dialect.constants, readWord]

theorem readNode_bool (inner : Option (Reader (Tree μ))) (value : Bool) (rest : List JChar) :
    readNode dialect inner (JString.ofString (if value then "true" else "false") ++ rest) =
      .ok (.bool value, rest) := by
  cases value with
  | true =>
      have word : JString.ofString "true" ++ rest =
          .scalar 't' :: .scalar 'r' :: .scalar 'u' :: .scalar 'e' :: rest := rfl
      simp only [if_true, word]
      simp [readNode, readFlat, Dialect.constants, readWord]
  | false =>
      have word : JString.ofString "false" ++ rest =
          .scalar 'f' :: .scalar 'a' :: .scalar 'l' :: .scalar 's' :: .scalar 'e' :: rest := rfl
      simp only [Bool.false_eq_true, if_false, word]
      simp [readNode, readFlat, Dialect.constants, readWord]

theorem writeString_append (text : JString) (rest : List JChar) :
    writeString text ++ rest = .scalar '"' :: (text.flatMap escape ++ .scalar '"' :: rest) := by
  simp [writeString]

theorem readNode_string (inner : Option (Reader (Tree μ))) (text : JString) (rest : List JChar) :
    readNode dialect inner (writeString text ++ rest) = .ok (.str text, rest) := by
  have quoted (tail : List JChar) : readNode dialect inner (.scalar '"' :: tail) =
      match readString none tail with
      | some (text, rest) => .ok (.str text, rest)
      | none => .error .syntaxError := rfl
  rw [writeString_append, quoted, readString_written]

/-- A written member is read back. -/
theorem readMember_write {value : Reader (Tree μ)} {field : JString × Tree ν}
    (opens : Opens (write numeral field.2))
    (readsBack : ReadsBack value (write numeral) (Tree.map function) field.2) :
    ReadsBack (readMember value) (writeMember numeral) (Tree.mapField function) field := by
  intro rest delimited
  obtain ⟨name, tree⟩ := field
  rw [writeMember, List.append_assoc, writeString_append]
  simp only [readMember, readString_written, List.cons_append]
  rw [skip_cons (by decide)]
  simp only
  rw [skip_of_opens (opens.append rest), readsBack rest delimited, ok_bind]
  rfl

/-- A written value opens neither with white space nor with a closing bracket. -/
theorem opens_write {depth : Nat} {tree : Tree ν}
    (within : tree.Within (Numbered numeral dialect function) depth) :
    Opens (write numeral tree) := by
  cases within with
  | null => exact ⟨.scalar 'n', _, rfl, by decide⟩
  | bool value =>
      cases value with
      | true => exact ⟨.scalar 't', _, rfl, by decide⟩
      | false => exact ⟨.scalar 'f', _, rfl, by decide⟩
  | num numbered =>
      obtain ⟨digit, others, isDigit, front⟩ := front_of_isNumeral numbered.isNumeral
      have apart (bad : Char) (notDigit : JsonText.isDigit bad = false) : digit ≠ bad := by
        intro same
        rw [same, notDigit] at isDigit
        cases isDigit
      rw [write]
      rcases front with same | same
      · refine ⟨.scalar digit, others.map .scalar, by rw [same, List.map_cons], ?_, ?_, ?_⟩
        · simp [isBlank, apart ' ' rfl, apart '\t' rfl, apart '\n' rfl, apart '\r' rfl]
        · simpa using apart ']' rfl
        · simpa using apart '}' rfl
      · exact ⟨.scalar '-', _, by rw [same, List.map_cons], by decide⟩
  | str text => exact ⟨.scalar '"', _, rfl, by decide⟩
  | arr each => exact ⟨.scalar '[', _, by rw [write], by decide⟩
  | obj names each => exact ⟨.scalar '{', _, by rw [write], by decide⟩

/-- A written value is read back, whatever follows it. -/
theorem readsBack_write (apart : dialect.Apart) {depth : Nat} {tree : Tree ν}
    (within : tree.Within (Numbered numeral dialect function) depth) :
    ReadsBack (readValue dialect depth) (write numeral) (Tree.map function) tree := by
  have node (depth : Nat) : ∃ inner, readValue dialect depth = readNode dialect inner := by
    cases depth with
    | zero => exact ⟨none, rfl⟩
    | succ depth => exact ⟨some (readValue dialect depth), rfl⟩
  induction within with
  | @null depth =>
      intro rest _
      obtain ⟨inner, isNode⟩ := node depth
      rw [isNode]
      exact readNode_null inner rest
  | @bool depth value =>
      intro rest _
      obtain ⟨inner, isNode⟩ := node depth
      rw [isNode]
      exact readNode_bool inner value rest
  | @num depth value numbered =>
      intro rest delimited
      obtain ⟨inner, isNode⟩ := node depth
      rw [isNode]
      exact readNode_number apart numbered inner delimited
  | @str depth text =>
      intro rest _
      obtain ⟨inner, isNode⟩ := node depth
      rw [isNode]
      exact readNode_string inner text rest
  | @arr depth items each ih =>
      intro rest _
      have series := readSeries_series (fun item member => opens_write (each item member)) ih
        (.inl rfl) rest
      rw [write, writeItems_eq, readValue, List.cons_append, readNode, series, ok_bind, Tree.map,
        mapItems_eq]
  | @obj depth fields names each ih =>
      intro rest _
      have opens : ∀ field ∈ fields, Opens (writeMember numeral field) := by
        intro field _
        exact ⟨.scalar '"', _, by rw [writeMember, writeString_append], by decide⟩
      have series := readSeries_series opens
        (fun field member => readMember_write (opens_write (each field member)) (ih field member))
        (.inr rfl) rest
      have sameNames : (fields.map (Tree.mapField function)).map Prod.fst = fields.map Prod.fst := by
        rw [List.map_map]
        exact List.map_congr_left fun field _ => by rw [Function.comp_apply, Tree.mapField]
      rw [write, writeMembers_eq, readValue, List.cons_append, readNode, series, ok_bind, Tree.map,
        mapFields_eq]
      simp only
      rw [assignAll_of_nodup (sameNames ▸ names)]

/-- Reading what was written gives the value, with each number read as its
numeral is. -/
theorem read_write (apart : dialect.Apart) {depth : Nat} {tree : Tree ν}
    (within : tree.Within (Numbered numeral dialect function) depth) :
    read dialect depth (write numeral tree) = .ok (tree.map function) := by
  have whole := readsBack_write apart within [] (by intro char rest same; cases same)
  rw [List.append_nil] at whole
  rw [read, skip_of_opens (opens_write within), whole, ok_bind]
  rfl

end Numbers

/-! ### What a written text is made of -/

/-- Every string of the value, and every name, is as given. -/
inductive Tree.Strings (string : JString → Prop) : Tree ν → Prop where
  | null : Strings string .null
  | bool (value : Bool) : Strings string (.bool value)
  | num (value : ν) : Strings string (.num value)
  | str {text : JString} (ok : string text) : Strings string (.str text)
  | arr {items : List (Tree ν)} (each : ∀ item ∈ items, Strings string item) :
      Strings string (.arr items)
  | obj {fields : List (JString × Tree ν)} (names : ∀ field ∈ fields, string field.1)
      (each : ∀ field ∈ fields, Strings string field.2) : Strings string (.obj fields)

/-- Unicode text: no unpaired half. -/
def Unicode (text : JString) : Prop :=
  ∀ char ∈ text, ∃ value, char = .scalar value

/-- A Unicode character that needs no escape for being a control. -/
def Plain (char : JChar) : Prop :=
  ∃ value, char = .scalar value ∧ isControl value = false

theorem isNumeralChar_dropWhile {text : List Char}
    (rest : ∀ char ∈ text.dropWhile isDigit, isNumeralChar char = true) :
    ∀ char ∈ text, isNumeralChar char = true := by
  intro char member
  rw [← List.takeWhile_append_dropWhile (p := isDigit) (l := text), List.mem_append] at member
  rcases member with digit | later
  · exact isNumeralChar_of_isDigit (List.all_eq_true.mp List.all_takeWhile char digit)
  · exact rest char later

theorem chars_afterDigits {text rest : List Char} (after : afterDigits text = some rest)
    (left : ∀ char ∈ rest, isNumeralChar char = true) :
    ∀ char ∈ text, isNumeralChar char = true := by
  cases text with
  | nil => cases after
  | cons head tail =>
      rw [afterDigits] at after
      split at after
      · rename_i digit
        cases after
        exact List.forall_mem_cons.mpr
          ⟨isNumeralChar_of_isDigit digit, isNumeralChar_dropWhile left⟩
      · cases after

theorem chars_afterWhole {text rest : List Char} (after : afterWhole text = some rest)
    (left : ∀ char ∈ rest, isNumeralChar char = true) :
    ∀ char ∈ text, isNumeralChar char = true := by
  cases text with
  | nil => cases after
  | cons head tail =>
      rw [afterWhole] at after
      split at after
      · rename_i zero
        cases after
        rw [zero]
        exact List.forall_mem_cons.mpr ⟨by decide, left⟩
      · split at after
        · rename_i digit
          cases after
          exact List.forall_mem_cons.mpr
            ⟨isNumeralChar_of_isDigit digit, isNumeralChar_dropWhile left⟩
        · cases after

theorem chars_afterFraction {text rest : List Char} (after : afterFraction text = some rest)
    (left : ∀ char ∈ rest, isNumeralChar char = true) :
    ∀ char ∈ text, isNumeralChar char = true := by
  unfold afterFraction at after
  split at after
  · exact List.forall_mem_cons.mpr ⟨by decide, chars_afterDigits after left⟩
  · cases after
    exact left

theorem chars_afterExponent {text : List Char} (after : afterExponent text = some []) :
    ∀ char ∈ text, isNumeralChar char = true := by
  have none : ∀ char ∈ ([] : List Char), isNumeralChar char = true := by
    intro char member
    cases member
  unfold afterExponent at after
  split at after
  · exact none
  · rename_i head rest
    split at after
    · rename_i isExponent
      have first : isNumeralChar head = true := by
        rcases isExponent with rfl | rfl
        · decide
        · decide
      refine List.forall_mem_cons.mpr ⟨first, ?_⟩
      split at after
      · exact List.forall_mem_cons.mpr ⟨by decide, chars_afterDigits after none⟩
      · exact List.forall_mem_cons.mpr ⟨by decide, chars_afterDigits after none⟩
      · exact chars_afterDigits after none
    · cases after

/-- A numeral is made of the characters of numerals. -/
theorem chars_of_isNumeral {text : List Char} (is : isNumeral text = true) :
    ∀ char ∈ text, isNumeralChar char = true := by
  rw [isNumeral, beq_iff_eq, Option.bind_eq_some_iff] at is
  obtain ⟨fraction, isFraction, exponentOk⟩ := is
  obtain ⟨whole, wholeOk, fractionOk⟩ := Option.bind_eq_some_iff.mp isFraction
  have chars := chars_afterWhole wholeOk
    (chars_afterFraction fractionOk (chars_afterExponent exponentOk))
  unfold unsigned at chars
  split at chars
  · exact List.forall_mem_cons.mpr ⟨by decide, chars⟩
  · exact chars

theorem plain_of_isNumeralChar {char : Char} (is : isNumeralChar char = true) :
    isControl char = false := by
  have above : 32 ≤ char.toNat := by
    simp only [isNumeralChar, Bool.or_eq_true, Bool.and_eq_true, decide_eq_true_eq, beq_iff_eq] at is
    rcases is with ((((⟨zero, _⟩ | rfl) | rfl) | rfl) | rfl) | rfl
    · have : '0'.toNat ≤ char.toNat := zero
      exact Nat.le_trans (by decide) this
    · decide
    · decide
    · decide
    · decide
    · decide
  exact decide_eq_false (Nat.not_lt.mpr above)

/-- A character is written with plain characters. -/
theorem plain_escape (char : Char) : ∀ written ∈ escape (.scalar char), Plain written := by
  have letters : ∀ letter, (∃ other, shortForm other = some letter) → isControl letter = false := by
    rintro letter ⟨other, short⟩
    simp only [shortForm, List.lookup_cons, List.lookup_nil] at short
    repeat' split at short
    all_goals cases short
    all_goals decide
  have digits : ∀ digit < 16, isControl (hexChar digit) = false := by decide
  intro written member
  rw [escape] at member
  split at member
  · rename_i letter short
    rcases List.mem_pair.mp member with rfl | rfl
    · exact ⟨'\\', rfl, rfl⟩
    · exact ⟨letter, rfl, letters letter ⟨char, short⟩⟩
  · split at member
    · rename_i isControl
      have small : char.toNat < 32 := of_decide_eq_true isControl
      simp only [List.mem_cons, List.not_mem_nil, or_false] at member
      rcases member with rfl | rfl | rfl | rfl | rfl | rfl
      · exact ⟨'\\', rfl, rfl⟩
      · exact ⟨'u', rfl, rfl⟩
      · exact ⟨'0', rfl, rfl⟩
      · exact ⟨'0', rfl, rfl⟩
      · exact ⟨_, rfl, digits _ (by omega)⟩
      · exact ⟨_, rfl, digits _ (by omega)⟩
    · rename_i notControl
      rw [List.mem_singleton.mp member]
      exact ⟨char, rfl, Bool.eq_false_iff.mpr notControl⟩

theorem plain_writeString {text : JString} (unicode : Unicode text) :
    ∀ char ∈ writeString text, Plain char := by
  have quote : Plain (.scalar '"') := ⟨'"', rfl, rfl⟩
  intro char member
  simp only [writeString, List.mem_cons, List.mem_append, List.mem_flatMap, List.not_mem_nil,
    or_false] at member
  rcases member with rfl | ⟨source, isSource, written⟩ | rfl
  · exact quote
  · obtain ⟨value, rfl⟩ := unicode source isSource
    exact plain_escape value char written
  · exact quote

theorem plain_series {close : Char} (isClose : isControl close = false) {parts : List (List JChar)}
    (each : ∀ part ∈ parts, ∀ char ∈ part, Plain char) : ∀ char ∈ series close parts, Plain char := by
  fun_induction series close parts with
  | case1 => exact List.forall_mem_singleton.mpr ⟨close, rfl, isClose⟩
  | case2 part =>
      rw [List.forall_mem_append]
      exact ⟨each part List.mem_cons_self, List.forall_mem_singleton.mpr ⟨close, rfl, isClose⟩⟩
  | case3 part next rest ih =>
      rw [List.forall_mem_append, List.forall_mem_cons]
      obtain ⟨first, others⟩ := List.forall_mem_cons.mp each
      exact ⟨first, ⟨',', rfl, rfl⟩, ih others⟩

/-- The text of a value with Unicode strings is made of plain characters. -/
theorem plain_write {numeral : ν → List Char} {depth : Nat} {tree : Tree ν}
    (within : tree.Within (fun value => isNumeral (numeral value) = true) depth)
    (strings : tree.Strings Unicode) : ∀ char ∈ write numeral tree, Plain char := by
  have word (text : String) (plain : ∀ char ∈ text.toList, isControl char = false) :
      ∀ char ∈ JString.ofString text, Plain char := by
    intro char member
    obtain ⟨value, isValue, rfl⟩ := List.mem_map.mp member
    exact ⟨value, rfl, plain value isValue⟩
  induction within with
  | null => exact word "null" (by decide +kernel)
  | bool value =>
      cases value with
      | true => exact word "true" (by decide +kernel)
      | false => exact word "false" (by decide +kernel)
  | num isNumeral =>
      rw [write]
      intro char member
      obtain ⟨value, isValue, rfl⟩ := List.mem_map.mp member
      exact ⟨value, rfl, plain_of_isNumeralChar (chars_of_isNumeral isNumeral value isValue)⟩
  | str text =>
      cases strings with
      | str unicode => exact plain_writeString unicode
  | arr each ih =>
      cases strings with
      | arr stringsEach =>
          rw [write, writeItems_eq, List.forall_mem_cons]
          refine ⟨⟨'[', rfl, rfl⟩, plain_series rfl ?_⟩
          intro part member
          obtain ⟨item, isItem, rfl⟩ := List.mem_map.mp member
          exact ih item isItem (stringsEach item isItem)
  | obj distinct each ih =>
      cases strings with
      | obj names stringsEach =>
          rw [write, writeMembers_eq, List.forall_mem_cons]
          refine ⟨⟨'{', rfl, rfl⟩, plain_series rfl ?_⟩
          intro part member
          obtain ⟨field, isField, rfl⟩ := List.mem_map.mp member
          obtain ⟨name, value⟩ := field
          rw [writeMember, List.forall_mem_append, List.forall_mem_cons]
          exact ⟨plain_writeString (names _ isField), ⟨':', rfl, rfl⟩,
            ih _ isField (stringsEach _ isField)⟩

theorem Tree.Within.imp {number stronger : ν → Prop} {depth : Nat} {tree : Tree ν}
    (within : tree.Within stronger depth) (implies : ∀ value, stronger value → number value) :
    tree.Within number depth := by
  induction within with
  | null => exact .null
  | bool value => exact .bool value
  | num ok => exact .num (implies _ ok)
  | str text => exact .str text
  | arr each ih => exact .arr ih
  | obj names each ih => exact .obj names ih

theorem Tree.Within.mono {number : ν → Prop} {depth deeper : Nat} {tree : Tree ν}
    (within : tree.Within number depth) (le : depth ≤ deeper) : tree.Within number deeper := by
  induction within generalizing deeper with
  | null => exact .null
  | bool value => exact .bool value
  | num ok => exact .num ok
  | str text => exact .str text
  | arr each ih =>
      cases deeper with
      | zero => exact absurd le (Nat.not_succ_le_zero _)
      | succ deeper =>
          exact .arr fun item member => ih item member (Nat.le_of_succ_le_succ le)
  | obj names each ih =>
      cases deeper with
      | zero => exact absurd le (Nat.not_succ_le_zero _)
      | succ deeper =>
          exact .obj names fun field member => ih field member (Nat.le_of_succ_le_succ le)

theorem length_le_series {close : Char} {parts : List (List JChar)} {part : List JChar}
    (member : part ∈ parts) : part.length ≤ (series close parts).length := by
  fun_induction series close parts with
  | case1 => cases member
  | case2 only =>
      rw [List.mem_singleton.mp member, List.length_append]
      exact Nat.le_add_right _ _
  | case3 first next rest ih =>
      rw [List.length_append, List.length_cons]
      rcases List.mem_cons.mp member with rfl | later
      · exact Nat.le_add_right _ _
      · have shorter := ih later
        omega

/-- A value nests no deeper than its text is long. -/
theorem Tree.Within.written {number : ν → Prop} (numeral : ν → List Char) {depth : Nat}
    {tree : Tree ν} (within : tree.Within number depth) :
    tree.Within number (write numeral tree).length := by
  induction within with
  | null => exact .null
  | bool value => exact .bool value
  | num ok => exact .num ok
  | str text => exact .str text
  | arr each ih =>
      rw [write, writeItems_eq, List.length_cons]
      exact .arr fun item member =>
        (ih item member).mono (length_le_series (List.mem_map_of_mem member))
  | @obj depth fields names each ih =>
      rw [write, writeMembers_eq, List.length_cons]
      refine .obj names fun field member => (ih field member).mono ?_
      have size : (writeMember numeral field).length ≤
          (series '}' (fields.map (writeMember numeral))).length :=
        length_le_series (List.mem_map_of_mem member)
      obtain ⟨name, value⟩ := field
      rw [writeMember, List.length_append, List.length_cons] at size
      simp only
      omega

end Values

end Docta.JsonText

namespace Docta

export JsonText (Tree)

end Docta
