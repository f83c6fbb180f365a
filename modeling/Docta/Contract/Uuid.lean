/-
Module: Docta.Contract.Uuid
Purpose: UUIDs as values and as text. A UUID is its 32 hexadecimal digits, so
  printing and reading are inverse by construction; the accepted spellings are
  those of Python's UUID fields, of its constructor `UUID(hex)` and of the client's
  regular expression.
Trusted boundary: none
Main exports: UUID, UUID.text, UUID.parse?, UUID.ofHex, UUID.matchesPattern,
  UUID.parse?_text, UUID.ofHex_text, UUID.matchesPattern_iff
-/
import Docta.Contract.Json
import Docta.Library.Numerals
import Mathlib.Data.List.Basic
import Mathlib.Data.Nat.Digits.Lemmas

namespace Docta.Contract

/-- A 128-bit identifier, as its hexadecimal digits. -/
structure UUID where
  digits : List (Fin 16)
  length_eq : digits.length = 32
deriving DecidableEq, Repr

/-- The identifier with the given numeric value. -/
def UUID.ofNat (value : Nat) : UUID where
  digits := (List.range 32).map fun position => Fin.ofNat 16 (value / 16 ^ (31 - position))
  length_eq := by simp

instance : Inhabited UUID := ⟨UUID.ofNat 0⟩

/-- One position of the printed form. -/
inductive UUIDSlot where
  | digit
  | hyphen
deriving DecidableEq, Repr

namespace UUIDSlot

/-- The canonical grouping `8-4-4-4-12`. -/
def canonical : List UUIDSlot :=
  [8, 4, 4, 4].flatMap (fun group => List.replicate group .digit ++ [.hyphen]) ++
    List.replicate 12 .digit

/-- Lower-case hexadecimal digits, in order of value. -/
def lowerDigits : List Char :=
  ['0', '1', '2', '3', '4', '5', '6', '7', '8', '9', 'a', 'b', 'c', 'd', 'e', 'f']

/-- The printed digit. -/
def digitChar (digit : Fin 16) : Char :=
  lowerDigits.getD digit.val '0'

/-- The value of a hexadecimal digit in either case. -/
def digitValue? (char : Char) : Option (Fin 16) :=
  if char = '0' then some 0 else if char = '1' then some 1 else if char = '2' then some 2
  else if char = '3' then some 3 else if char = '4' then some 4 else if char = '5' then some 5
  else if char = '6' then some 6 else if char = '7' then some 7 else if char = '8' then some 8
  else if char = '9' then some 9
  else if char = 'a' ∨ char = 'A' then some 10 else if char = 'b' ∨ char = 'B' then some 11
  else if char = 'c' ∨ char = 'C' then some 12 else if char = 'd' ∨ char = 'D' then some 13
  else if char = 'e' ∨ char = 'E' then some 14 else if char = 'f' ∨ char = 'F' then some 15
  else none

/-- Fill the slots of a shape with digits. -/
def print : List UUIDSlot → List (Fin 16) → List Char
  | .hyphen :: slots, digits => '-' :: print slots digits
  | .digit :: slots, nibble :: digits => digitChar nibble :: print slots digits
  | _, _ => []

/-- Read the digits of a text that has exactly the given shape. -/
def read? : List UUIDSlot → List Char → Option (List (Fin 16))
  | [], [] => some []
  | .hyphen :: slots, char :: chars => if char = '-' then read? slots chars else none
  | .digit :: slots, char :: chars =>
      match digitValue? char, read? slots chars with
      | some nibble, some digits => some (nibble :: digits)
      | _, _ => none
  | _, _ => none

/-- A string has the given shape, hexadecimal digits in either case. -/
def shape : List UUIDSlot → JString → Bool
  | [], [] => true
  | .hyphen :: slots, .scalar char :: chars => char = '-' && shape slots chars
  | .digit :: slots, .scalar char :: chars => (digitValue? char).isSome && shape slots chars
  | _, _ => false

theorem digitValue?_digitChar : ∀ nibble : Fin 16,
    digitValue? (digitChar nibble) = some nibble := by
  decide

/-- Reading a printed shape returns the digits, when there is one for each slot. -/
theorem read?_print : ∀ (slots : List UUIDSlot) (digits : List (Fin 16)),
    slots.count .digit = digits.length → read? slots (print slots digits) = some digits
  | [], [], _ => rfl
  | [], _ :: _, counts => by simp at counts
  | .hyphen :: slots, digits, counts => by
      have rest := read?_print slots digits (by simpa using counts)
      simp [print, read?, rest]
  | .digit :: _, [], counts => by simp at counts
  | .digit :: slots, nibble :: digits, counts => by
      have rest := read?_print slots digits (by simpa using counts)
      simp [print, read?, rest, digitValue?_digitChar]

/-- A printed shape has one character for each slot. -/
theorem length_print : ∀ (slots : List UUIDSlot) (digits : List (Fin 16)),
    slots.count .digit = digits.length → (print slots digits).length = slots.length
  | [], [], _ => rfl
  | [], _ :: _, counts => by simp at counts
  | .hyphen :: slots, digits, counts => by
      simp [print, length_print slots digits (by simpa using counts)]
  | .digit :: _, [], counts => by simp at counts
  | .digit :: slots, nibble :: digits, counts => by
      simp [print, length_print slots digits (by simpa using counts)]

/-- A text that has the shape is Unicode text whose digits can be read. -/
theorem shape_iff {slots : List UUIDSlot} {text : JString} :
    shape slots text = true ↔
      ∃ chars digits, text.toText? = some chars ∧ read? slots chars = some digits := by
  induction slots generalizing text with
  | nil =>
      cases text with
      | nil => simp [shape, JString.toText?, read?]
      | cons head rest =>
          simp only [shape, Bool.false_eq_true, false_iff]
          rintro ⟨chars, digits, textEq, readEq⟩
          rw [JString.toText?_eq_some] at textEq
          cases chars with
          | nil => simp at textEq
          | cons char chars => simp [read?] at readEq
  | cons slot slots inductionHypothesis =>
      cases text with
      | nil =>
          cases slot <;> simp [shape, JString.toText?, read?]
      | cons head rest =>
          cases head with
          | surrogate index =>
              cases slot <;> simp [shape, JString.toText?]
          | scalar char =>
              cases slot with
              | hyphen =>
                  simp only [shape, Bool.and_eq_true, decide_eq_true_eq, inductionHypothesis]
                  constructor
                  · rintro ⟨rfl, chars, digits, textEq, readEq⟩
                    exact ⟨'-' :: chars, digits, by simp [JString.toText?, textEq],
                      by simp [read?, readEq]⟩
                  · rintro ⟨chars, digits, textEq, readEq⟩
                    simp only [JString.toText?, Option.map_eq_some_iff] at textEq
                    obtain ⟨tail, tailEq, rfl⟩ := textEq
                    simp only [read?, Option.ite_none_right_eq_some] at readEq
                    exact ⟨readEq.1, tail, digits, tailEq, readEq.2⟩
              | digit =>
                  simp only [shape, Bool.and_eq_true, inductionHypothesis]
                  constructor
                  · rintro ⟨isDigit, chars, digits, textEq, readEq⟩
                    obtain ⟨nibble, digitEq⟩ := Option.isSome_iff_exists.mp isDigit
                    exact ⟨char :: chars, nibble :: digits, by simp [JString.toText?, textEq],
                      by simp [read?, digitEq, readEq]⟩
                  · rintro ⟨chars, digits, textEq, readEq⟩
                    simp only [JString.toText?, Option.map_eq_some_iff] at textEq
                    obtain ⟨tail, tailEq, rfl⟩ := textEq
                    simp only [read?] at readEq
                    split at readEq
                    · rename_i nibble digits' digitEq tailRead
                      exact ⟨by simp [digitEq], tail, digits', tailEq, tailRead⟩
                    · simp at readEq

/-- The number of digits read is the number of digit slots. -/
theorem length_of_read? : ∀ {slots : List UUIDSlot} {chars : List Char} {digits : List (Fin 16)},
    read? slots chars = some digits → digits.length = slots.count .digit
  | [], [], digits, found => by
      simp only [read?, Option.some.injEq] at found
      subst found
      rfl
  | [], _ :: _, digits, found => by simp [read?] at found
  | .hyphen :: slots, [], digits, found => by simp [read?] at found
  | .hyphen :: slots, char :: chars, digits, found => by
      simp only [read?, Option.ite_none_right_eq_some] at found
      simpa using length_of_read? found.2
  | .digit :: slots, [], digits, found => by simp [read?] at found
  | .digit :: slots, char :: chars, digits, found => by
      simp only [read?] at found
      split at found
      · rename_i nibble rest digitEq restEq
        simp only [Option.some.injEq] at found
        subst found
        simp [length_of_read? restEq]
      · simp at found

end UUIDSlot

namespace UUID

/-- `str(uuid)`: lower-case digits in the canonical grouping. -/
def text (uuid : UUID) : String :=
  String.ofList (UUIDSlot.print UUIDSlot.canonical uuid.digits)

/-- Digits in the given shape, as an identifier. -/
def ofShape? (slots : List UUIDSlot) (chars : List Char) : Option UUID :=
  match UUIDSlot.read? slots chars with
  | some digits => if length_eq : digits.length = 32 then some ⟨digits, length_eq⟩ else none
  | none => none

/-- The characters of `urn:uuid:`. -/
def urnPrefix : List Char := ['u', 'r', 'n', ':', 'u', 'u', 'i', 'd', ':']

/-- The canonical grouping may stand in braces or after `urn:uuid:`. -/
def unwrap (chars : List Char) : List Char :=
  if urnPrefix.isPrefixOf chars then chars.drop 9
  else if chars.head? = some '{' ∧ chars.getLast? = some '}' then (chars.drop 1).dropLast
  else chars

/-- The spellings Python's UUID fields accept: the canonical grouping, wrapped
or not, and 32 digits without hyphens. -/
def parse? (chars : List Char) : Option UUID :=
  (ofShape? UUIDSlot.canonical (unwrap chars)).or (ofShape? (List.replicate 32 .digit) chars)

/-- The client's `UUID` regular expression: the canonical grouping, either case. -/
def matchesPattern (text : JString) : Bool :=
  UUIDSlot.shape UUIDSlot.canonical text

theorem ofShape?_canonical_text (uuid : UUID) :
    ofShape? UUIDSlot.canonical uuid.text.toList = some uuid := by
  have counts : UUIDSlot.canonical.count .digit = uuid.digits.length := by
    rw [uuid.length_eq]
    decide
  have digits := UUIDSlot.read?_print UUIDSlot.canonical uuid.digits counts
  simp [ofShape?, text, digits, uuid.length_eq]

@[simp] theorem length_text (uuid : UUID) : uuid.text.length = 36 := by
  have counts : UUIDSlot.canonical.count .digit = uuid.digits.length := by
    rw [uuid.length_eq]
    decide
  rw [text, String.length_ofList, UUIDSlot.length_print _ _ counts]
  decide

/-- A text that starts with a hexadecimal digit has no wrapper. -/
theorem unwrap_of_digit {head : Char} {rest : List Char} {nibble : Fin 16}
    (isDigit : UUIDSlot.digitValue? head = some nibble) : unwrap (head :: rest) = head :: rest := by
  have notUrn : 'u' ≠ head := by
    rintro rfl
    simp [UUIDSlot.digitValue?] at isDigit
  have notBrace : head ≠ '{' := by
    rintro rfl
    simp [UUIDSlot.digitValue?] at isDigit
  have noPrefix : urnPrefix.isPrefixOf (head :: rest) = false := by
    simp [urnPrefix, List.isPrefixOf, notUrn]
  simp [unwrap, noPrefix, notBrace]

/-- The canonical grouping is read as it stands. -/
theorem parse?_of_canonical {chars : List Char} {uuid : UUID}
    (read : ofShape? UUIDSlot.canonical chars = some uuid) : parse? chars = some uuid := by
  cases chars with
  | nil => simp [ofShape?, UUIDSlot.read?, UUIDSlot.canonical] at read
  | cons head rest =>
      cases digitEq : UUIDSlot.digitValue? head with
      | none => simp [ofShape?, UUIDSlot.canonical, List.replicate, UUIDSlot.read?, digitEq] at read
      | some nibble =>
          unfold parse?
          rw [unwrap_of_digit digitEq, read, Option.some_or]

/-- Reading a printed identifier returns it. -/
@[simp] theorem parse?_text (uuid : UUID) : parse? uuid.text.toList = some uuid :=
  parse?_of_canonical (ofShape?_canonical_text uuid)

/-! ### The constructor -/

/-- `text.strip("{}")` -/
def stripBraces (text : List Char) : List Char :=
  ((text.dropWhile (· ∈ ['{', '}'])).reverse.dropWhile (· ∈ ['{', '}'])).reverse

/-- `int(text, 16)`, or nothing where it raises `ValueError`. -/
def hexadecimal (text : List Char) : Option Int :=
  (Numerals.readBased UUIDSlot.digitValue? ['x', 'X'] text).map fun found =>
    let magnitude : Nat := Nat.ofDigits 16 (found.2.map (·.val)).reverse
    if found.1 then -(magnitude : Int) else magnitude

/-- `uuid.UUID(text)`, or the message of its `ValueError`. -/
def ofHex (text : List Char) : Except String UUID :=
  let hex := (stripBraces (Text.remove "uuid:".toList (Text.remove "urn:".toList text))).filter
    (· ≠ '-')
  if hex.length ≠ 32 then .error "badly formed hexadecimal UUID string"
  else
    match hexadecimal hex with
    | none => .error "invalid literal for int() with base 16"
    | some value =>
        if 0 ≤ value ∧ value < 2 ^ 128 then .ok (ofNat value.toNat)
        else .error "int is out of range (need a 128-bit value)"

/-- The characters of a printed identifier are hyphens and digits. -/
theorem mem_print {slots : List UUIDSlot} {digits : List (Fin 16)} {char : Char}
    (member : char ∈ UUIDSlot.print slots digits) :
    char = '-' ∨ ∃ nibble, char = UUIDSlot.digitChar nibble := by
  fun_induction UUIDSlot.print slots digits with
  | case1 slots digits ih =>
      rcases List.mem_cons.mp member with isHyphen | member
      · exact .inl isHyphen
      · exact ih member
  | case2 slots nibble digits ih =>
      rcases List.mem_cons.mp member with isDigit | member
      · exact .inr ⟨nibble, isDigit⟩
      · exact ih member
  | case3 => cases member

/-- Without the hyphens, a printed identifier is its digits. -/
theorem filter_print {slots : List UUIDSlot} {digits : List (Fin 16)}
    (counts : slots.count .digit = digits.length) :
    (UUIDSlot.print slots digits).filter (· ≠ '-') = digits.map UUIDSlot.digitChar := by
  have digit : ∀ nibble, UUIDSlot.digitChar nibble ≠ '-' := by decide
  fun_induction UUIDSlot.print slots digits with
  | case1 slots digits ih =>
      rw [List.filter_cons_of_neg (by simp)]
      exact ih (by simpa using counts)
  | case2 slots nibble digits ih =>
      rw [List.filter_cons_of_pos (by simpa using digit nibble), List.map_cons,
        ih (by simpa using counts)]
  | case3 slots digits noHyphen noDigit =>
      cases digits with
      | nil => rfl
      | cons nibble digits =>
          cases slots with
          | nil => cases counts
          | cons slot slots =>
              cases slot with
              | digit => exact absurd rfl (noDigit _ _ _ rfl)
              | hyphen => exact absurd rfl (noHyphen _)

/-- One digit of the number that digits, the last place first, stand for. -/
theorem ofDigits_place {digits : List Nat} (small : ∀ digit ∈ digits, digit < 16) {place : Nat}
    (inside : place < digits.length) : Nat.ofDigits 16 digits / 16 ^ place % 16 = digits[place] := by
  rw [Nat.ofDigits_div_pow_eq_ofDigits_drop place (by decide) digits small,
    List.drop_eq_getElem_cons inside, Nat.ofDigits_cons, Nat.add_mul_mod_self_left,
    Nat.mod_eq_of_lt (small _ (List.getElem_mem inside))]

/-- The number of an identifier's digits is the identifier's. -/
theorem ofNat_ofDigits (uuid : UUID) :
    ofNat (Nat.ofDigits 16 (uuid.digits.map (·.val)).reverse) = uuid := by
  obtain ⟨digits, length_eq⟩ := uuid
  have small : ∀ digit ∈ (digits.map (·.val)).reverse, digit < 16 := by
    intro digit member
    obtain ⟨nibble, _, rfl⟩ := List.mem_map.mp (List.mem_reverse.mp member)
    exact nibble.isLt
  have size : (digits.map (·.val)).reverse.length = 32 := by
    rw [List.length_reverse, List.length_map, length_eq]
  rw [ofNat, UUID.mk.injEq]
  apply List.ext_getElem
  · rw [List.length_map, List.length_range, length_eq]
  · intro position inside _
    rw [List.length_map, List.length_range] at inside
    have placed := ofDigits_place small (size ▸ (by omega) : 31 - position < _)
    rw [List.getElem_map, List.getElem_range]
    apply Fin.ext
    rw [Fin.val_ofNat, placed, List.getElem_reverse, List.getElem_map]
    congr 2
    rw [List.length_map]
    omega

theorem stripBraces_of_notMem {text : List Char} (opening : '{' ∉ text) (closing : '}' ∉ text) :
    stripBraces text = text := by
  have keep {part : List Char} (subset : part ⊆ text) :
      part.dropWhile (· ∈ ['{', '}']) = part := by
    cases part with
    | nil => rfl
    | cons char part =>
        apply List.dropWhile_cons_of_neg
        rw [decide_eq_true_eq, List.mem_cons, List.mem_singleton, not_or]
        have known := subset List.mem_cons_self
        exact ⟨fun same => opening (same ▸ known), fun same => closing (same ▸ known)⟩
  rw [stripBraces, keep (List.Subset.refl _), keep fun _ => List.mem_reverse.mp,
    List.reverse_reverse]

/-- Reading a printed identifier with the constructor returns it. -/
theorem ofHex_text (uuid : UUID) : ofHex uuid.text.toList = .ok uuid := by
  have counts : UUIDSlot.canonical.count .digit = uuid.digits.length := by
    rw [uuid.length_eq]
    decide
  have absent (char : Char) (other : char ≠ '-')
      (noDigit : ∀ nibble, char ≠ UUIDSlot.digitChar nibble) :
      char ∉ UUIDSlot.print UUIDSlot.canonical uuid.digits := by
    intro member
    rcases mem_print member with isHyphen | ⟨nibble, isDigit⟩
    · exact other isHyphen
    · exact noDigit nibble isDigit
  have noColon := absent ':' (by decide) (by decide)
  have plain : ∀ nibble, Numerals.Plain ['x', 'X'] (UUIDSlot.digitChar nibble) := by decide
  have isText : uuid.text.toList = UUIDSlot.print UUIDSlot.canonical uuid.digits :=
    String.toList_ofList
  have nonempty : uuid.digits ≠ [] := List.ne_nil_of_length_pos (by rw [uuid.length_eq]; decide)
  have read : hexadecimal (uuid.digits.map UUIDSlot.digitChar) =
      some ((Nat.ofDigits 16 (uuid.digits.map (·.val)).reverse : Nat) : Int) := by
    rw [hexadecimal, Numerals.readBased_map UUIDSlot.digitValue?_digitChar plain nonempty]
    rfl
  have small : Nat.ofDigits 16 (uuid.digits.map (·.val)).reverse < 2 ^ 128 := by
    have bound := Nat.ofDigits_lt_base_pow_length (b := 16)
      (l := (uuid.digits.map (·.val)).reverse) (by decide) (by
        intro digit member
        obtain ⟨nibble, _, rfl⟩ := List.mem_map.mp (List.mem_reverse.mp member)
        exact nibble.isLt)
    rw [List.length_reverse, List.length_map, uuid.length_eq] at bound
    exact bound
  rw [ofHex, isText,
    Text.remove_of_notMem ':' (by decide) noColon, Text.remove_of_notMem ':' (by decide) noColon,
    stripBraces_of_notMem (absent _ (by decide) (by decide)) (absent _ (by decide) (by decide)),
    filter_print counts]
  simp only [List.length_map, uuid.length_eq, ne_eq, not_true_eq_false, if_false, read]
  rw [if_pos ⟨Int.natCast_nonneg _, by exact_mod_cast small⟩, Int.toNat_natCast, ofNat_ofDigits]

example : ofHex "urn:uuid:\x7b0x_0-12 0000000000000000000000000\x7d".toList =
    .error "invalid literal for int() with base 16" := by decide +kernel

example : ofHex "\x7burn:uuid:0x_00000-0_00000000000000000001F \x7d".toList =
    .ok (ofNat 31) := by decide +kernel

/-- The client's pattern accepts exactly the canonical grouping. -/
theorem matchesPattern_iff {text : JString} :
    matchesPattern text = true ↔
      ∃ chars uuid, text.toText? = some chars ∧
        ofShape? UUIDSlot.canonical chars = some uuid := by
  unfold matchesPattern
  rw [UUIDSlot.shape_iff]
  constructor
  · rintro ⟨chars, digits, textEq, readEq⟩
    have length_eq : digits.length = 32 := by
      rw [UUIDSlot.length_of_read? readEq]
      decide
    exact ⟨chars, ⟨digits, length_eq⟩, textEq, by simp [ofShape?, readEq, length_eq]⟩
  · rintro ⟨chars, uuid, textEq, readEq⟩
    unfold ofShape? at readEq
    split at readEq
    · rename_i digits digitsEq
      exact ⟨chars, digits, textEq, digitsEq⟩
    · simp at readEq

end UUID

end Docta.Contract
