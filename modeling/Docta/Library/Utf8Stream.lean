/-
Module: Docta.Library.Utf8Stream
Purpose: Decoding UTF-8 from a stream, one byte at a time, with the state that
  the encoding standard keeps between bytes: the characters of a text come out
  whatever the cuts, and a text that breaks off inside a character gives the
  characters before it.
Trusted boundary: none
Main exports: Utf8State, feed, feedAll, flush, feedAll_encode, feedAll_prefix
-/
import Mathlib.Data.List.Infix

namespace Docta.Utf8Stream

/-- The state of the decoder between two bytes. -/
structure Utf8State where
  /-- the code point so far -/
  point : Nat := 0
  /-- how many bytes the character still needs -/
  needed : Nat := 0
  lower : Nat := 0x80
  upper : Nat := 0xBF
deriving DecidableEq, Repr

/-- What stands for bytes that are no character. -/
def replacement : Char := Char.ofNat 0xFFFD

/-- A byte between two characters. -/
def lead (byte : Nat) : List Char × Utf8State :=
  if byte ≤ 0x7F then ([Char.ofNat byte], {})
  else if 0xC2 ≤ byte ∧ byte ≤ 0xDF then ([], { point := byte - 0xC0, needed := 1 })
  else if 0xE0 ≤ byte ∧ byte ≤ 0xEF then
    ([], { point := byte - 0xE0
           needed := 2
           lower := if byte = 0xE0 then 0xA0 else 0x80
           upper := if byte = 0xED then 0x9F else 0xBF })
  else if 0xF0 ≤ byte ∧ byte ≤ 0xF4 then
    ([], { point := byte - 0xF0
           needed := 3
           lower := if byte = 0xF0 then 0x90 else 0x80
           upper := if byte = 0xF4 then 0x8F else 0xBF })
  else ([replacement], {})

/-- The next byte. One that does not continue the character is taken again as
one between two characters. -/
def feed (state : Utf8State) (byte : Nat) : List Char × Utf8State :=
  if state.needed = 0 then lead byte
  else if byte < state.lower ∨ state.upper < byte then
    (replacement :: (lead byte).1, (lead byte).2)
  else if state.needed = 1 then ([Char.ofNat (state.point * 64 + byte % 64)], {})
  else ([], { point := state.point * 64 + byte % 64, needed := state.needed - 1 })

/-- The bytes of a part of the stream. -/
def feedAll (state : Utf8State) : List UInt8 → List Char × Utf8State
  | [] => ([], state)
  | byte :: rest =>
      ((feed state byte.toNat).1 ++ (feedAll (feed state byte.toNat).2 rest).1,
        (feedAll (feed state byte.toNat).2 rest).2)

/-- The end of the stream. -/
def flush (state : Utf8State) : List Char :=
  if state.needed = 0 then [] else [replacement]

/-- The bytes of a text. -/
def encode (text : List Char) : List UInt8 :=
  text.flatMap String.utf8EncodeChar

theorem feedAll_append (state : Utf8State) (first second : List UInt8) :
    feedAll state (first ++ second) =
      ((feedAll state first).1 ++ (feedAll (feedAll state first).2 second).1,
        (feedAll (feedAll state first).2 second).2) := by
  induction first generalizing state with
  | nil => rfl
  | cons byte first ih => rw [List.cons_append, feedAll, ih, feedAll, List.append_assoc]

/-! ### One character -/

/-- From the state, the bytes spell the character and nothing before the last of
them. -/
inductive Spells (char : Char) : Utf8State → List UInt8 → Prop where
  | last {state : Utf8State} {byte : UInt8} (done : feed state byte.toNat = ([char], {})) :
      Spells char state [byte]
  | more {state next : Utf8State} {byte : UInt8} {rest : List UInt8}
      (goes : feed state byte.toNat = ([], next)) (unfinished : next.needed ≠ 0)
      (spells : Spells char next rest) : Spells char state (byte :: rest)

theorem toNat_ofNat {value : Nat} (small : value < 256) : (UInt8.ofNat value).toNat = value := by
  rw [UInt8.toNat_ofNat']
  exact Nat.mod_eq_of_lt small

section Spelling

variable {char : Char} {state next : Utf8State} {byte : Nat} {rest : List UInt8}

/-- A byte between two characters that opens one. -/
theorem spells_lead (small : byte < 256) (opens : lead byte = ([], next)) (more : next.needed ≠ 0)
    (spells : Spells char next rest) : Spells char {} (.ofNat byte :: rest) := by
  apply Spells.more _ more spells
  rw [toNat_ofNat small, feed, if_pos rfl, opens]

/-- A byte that continues a character with more to come. -/
theorem spells_more (small : byte < 256) (more : 2 ≤ state.needed)
    (within : state.lower ≤ byte ∧ byte ≤ state.upper)
    (spells : Spells char { point := state.point * 64 + byte % 64, needed := state.needed - 1 } rest) :
    Spells char state (.ofNat byte :: rest) := by
  apply Spells.more _ _ spells
  · rw [toNat_ofNat small, feed, if_neg (by omega), if_neg (by omega), if_neg (by omega)]
  · exact Nat.sub_ne_zero_of_lt more

/-- A byte that ends a character. -/
theorem spells_last (small : byte < 256) (last : state.needed = 1)
    (within : state.lower ≤ byte ∧ byte ≤ state.upper)
    (point : state.point * 64 + byte % 64 = char.toNat) : Spells char state [.ofNat byte] := by
  apply Spells.last
  rw [toNat_ofNat small, feed, if_neg (by omega), if_neg (by omega), if_pos last, point,
    Char.ofNat_toNat]

end Spelling

/-- The encoding of a character spells it. -/
theorem spells_encodeChar (char : Char) : Spells char {} (String.utf8EncodeChar char) := by
  have valid : char.toNat < 0xD800 ∨ (0xDFFF < char.toNat ∧ char.toNat < 0x110000) := char.valid
  have isValue : char.val.toNat = char.toNat := rfl
  simp only [String.utf8EncodeChar, isValue]
  generalize isPoint : char.toNat = value at valid
  split
  · -- one byte
    apply Spells.last
    rw [toNat_ofNat (by omega), feed, if_pos rfl, lead, if_pos (by omega), ← isPoint,
      Char.ofNat_toNat]
  · split
    · -- two bytes
      apply spells_lead (by omega) (by rw [lead, if_neg (by omega), if_pos (by omega)])
        Nat.one_ne_zero
      apply spells_last (by omega) rfl (by simp only; omega)
      simp only
      omega
    · split
      · -- three bytes
        apply spells_lead (by omega)
          (by rw [lead, if_neg (by omega), if_neg (by omega), if_pos (by omega)])
          (Nat.succ_ne_zero 1)
        apply spells_more (by omega) (Nat.le_refl 2)
        · simp only
          constructor
          · split
            · omega
            · omega
          · split
            · omega
            · omega
        · apply spells_last (by omega) rfl (by simp only; omega)
          simp only
          omega
      · -- four bytes
        apply spells_lead (by omega)
          (by rw [lead, if_neg (by omega), if_neg (by omega), if_neg (by omega), if_pos (by omega)])
          (Nat.succ_ne_zero 2)
        apply spells_more (by omega) (Nat.le_succ 2)
        · simp only
          constructor
          · split
            · omega
            · omega
          · split
            · omega
            · omega
        · apply spells_more (by omega) (Nat.le_refl 2) (by simp only; omega)
          apply spells_last (by omega) rfl (by simp only; omega)
          simp only
          omega

theorem Spells.feedAll_eq {char : Char} {state : Utf8State} {bytes : List UInt8}
    (spells : Spells char state bytes) : feedAll state bytes = ([char], {}) := by
  induction spells with
  | last done => rw [feedAll, done]; rfl
  | more goes unfinished spells ih => rw [feedAll, goes, ih]; rfl

/-- A part of the bytes gives nothing yet, and leaves the character unfinished. -/
theorem Spells.feedAll_part {char : Char} {state : Utf8State} {bytes part : List UInt8}
    (spells : Spells char state bytes) (isPart : part <+: bytes) (proper : part ≠ bytes) :
    (feedAll state part).1 = [] ∧ (part ≠ [] → (feedAll state part).2.needed ≠ 0) := by
  induction spells generalizing part with
  | last done =>
      cases part with
      | nil => exact ⟨rfl, fun some => absurd rfl some⟩
      | cons byte part =>
          obtain ⟨rfl, rest⟩ := List.cons_prefix_cons.mp isPart
          rw [List.prefix_nil.mp rest] at proper
          exact absurd rfl proper
  | more goes unfinishedNext spells ih =>
      cases part with
      | nil => exact ⟨rfl, fun some => absurd rfl some⟩
      | cons byte part =>
          obtain ⟨rfl, rest⟩ := List.cons_prefix_cons.mp isPart
          obtain ⟨silent, later⟩ := ih rest (by intro same; exact proper (by rw [same]))
          rw [feedAll, goes]
          refine ⟨silent, fun _ => ?_⟩
          by_cases none : part = []
          · rw [none]
            exact unfinishedNext
          · exact later none

/-! ### A text -/

/-- A front of two lists in a row ends inside the first or goes on into the
second. -/
theorem prefix_append_cases {α : Type} {part first second : List α}
    (isPart : part <+: first ++ second) :
    (part <+: first ∧ part ≠ first) ∨ ∃ more, part = first ++ more ∧ more <+: second := by
  rcases List.prefix_or_prefix_of_prefix isPart (List.prefix_append first second) with
    inside | ⟨more, rfl⟩
  · by_cases whole : part = first
    · exact .inr ⟨[], by rw [whole, List.append_nil], List.nil_prefix⟩
    · exact .inl ⟨inside, whole⟩
  · exact .inr ⟨more, rfl, (List.prefix_append_right_inj first).mp isPart⟩

/-- The bytes of a text give the text. -/
theorem feedAll_encode (text : List Char) : feedAll {} (encode text) = (text, {}) := by
  induction text with
  | nil => rfl
  | cons char text ih =>
      rw [encode, List.flatMap_cons, feedAll_append, (spells_encodeChar char).feedAll_eq]
      rw [encode] at ih
      rw [ih]
      rfl

/-- What a part of the bytes of a text gives: the characters that are whole, and
at the end of the stream one replacement for the character that is cut. -/
theorem feedAll_prefix {text : List Char} {part : List UInt8} (isPart : part <+: encode text) :
    ∃ cut, (feedAll {} part).1 ++ cut = text ∧
      (flush (feedAll {} part).2 = [] ∨ flush (feedAll {} part).2 = [replacement] ∧ cut ≠ []) := by
  induction text generalizing part with
  | nil =>
      rw [List.prefix_nil.mp isPart]
      exact ⟨[], rfl, .inl rfl⟩
  | cons char text ih =>
      have spells := spells_encodeChar char
      rcases prefix_append_cases isPart with ⟨inside, proper⟩ | ⟨more, rfl, isMore⟩
      · obtain ⟨silent, unfinished⟩ := spells.feedAll_part inside proper
        refine ⟨char :: text, by rw [silent, List.nil_append], ?_⟩
        by_cases none : part = []
        · rw [none]
          exact .inl rfl
        · exact .inr ⟨if_neg (unfinished none), List.cons_ne_nil _ _⟩
      · obtain ⟨cut, whole, flushed⟩ := ih isMore
        refine ⟨cut, ?_, ?_⟩
        · rw [feedAll_append, spells.feedAll_eq, List.append_assoc, whole]
          rfl
        · rw [feedAll_append, spells.feedAll_eq]
          exact flushed

end Docta.Utf8Stream
