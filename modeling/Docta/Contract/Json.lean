/-
Module: Docta.Contract.Json
Purpose: JSON values as the Python service and the TypeScript client hold them
  after decoding. The two languages disagree on what a string is: Python counts
  code points and JavaScript counts UTF-16 code units, and JavaScript keeps
  unpaired surrogates that are no Unicode text at all. `JString` is fine enough
  to state both readings.
Trusted boundary: none
Main exports: JChar, JString, Json, Record.get, Json.DistinctKeys, Json.Unicode
-/
import Mathlib.Algebra.Group.Int.Defs
import Mathlib.Algebra.GroupWithZero.Nat
import Mathlib.Data.List.Forall2
import Mathlib.Data.List.Nodup

namespace Docta.Contract

/-- One character of a decoded JSON string: a Unicode scalar value, or an
unpaired surrogate half that an escape such as `\ud800` leaves behind.  The
index counts the surrogate range `0xD800..0xDFFF` from its start. -/
inductive JChar where
  | scalar (char : Char)
  | surrogate (index : Fin 2048)
deriving DecidableEq, Repr

/-- A decoded JSON string.  A high half directly followed by a low half is the
scalar value the two encode, so it does not occur as two `JChar`s. -/
abbrev JString := List JChar

namespace JString

/-- Unicode text as a JSON string. -/
def ofString (text : String) : JString :=
  text.toList.map .scalar

instance : Coe String JString := ⟨ofString⟩

instance : LawfulBEq JString := inferInstanceAs (LawfulBEq (List JChar))

end JString

/-- UTF-16 code units of one character. -/
def JChar.utf16Units : JChar → Nat
  | .scalar char => if char.val < 0x10000 then 1 else 2
  | .surrogate _ => 1

/-- JavaScript's `value.length`. -/
def JString.utf16Length (text : JString) : Nat :=
  (text.map JChar.utf16Units).sum

/-- The Unicode text of a string, when it has no unpaired surrogate. -/
def JString.toText? : JString → Option (List Char)
  | [] => some []
  | .scalar char :: rest => (toText? rest).map (char :: ·)
  | .surrogate _ :: _ => none

/-- A JSON value.  Python holds a number without a fraction and an exponent, `2`,
apart from one with them, `2.0`; for JavaScript both are the one number. -/
inductive Json where
  | null
  | bool (value : Bool)
  | int (value : Int)
  | float (value : Rat)
  | str (text : JString)
  | arr (items : List Json)
  | obj (fields : List (JString × Json))

instance : Inhabited Json := ⟨.null⟩

/-- The fields of a JSON object. -/
abbrev Record := List (JString × Json)

namespace Record

/-- Property access: `record.key` in TypeScript, `record["key"]` in Python. -/
def get (record : Record) (key : String) : Option Json :=
  (record.find? fun field => field.1 = JString.ofString key).map (·.2)

@[simp] theorem get_cons_self (key : String) (value : Json) (record : Record) :
    get ((JString.ofString key, value) :: record) key = some value := by
  simp [get]

theorem get_cons_of_ne {key other : String} (value : Json) (record : Record)
    (different : JString.ofString other ≠ JString.ofString key) :
    get ((JString.ofString other, value) :: record) key = get record key := by
  simp [get, different]

/-- A found value is the value of one of the fields. -/
theorem mem_of_get {record : Record} {key : String} {value : Json}
    (found : record.get key = some value) : (JString.ofString key, value) ∈ record := by
  simp only [get, Option.map_eq_some_iff] at found
  obtain ⟨⟨name, value⟩, fieldFound, rfl⟩ := found
  have sameName : name = JString.ofString key := by
    simpa using List.find?_some fieldFound
  subst sameName
  exact List.mem_of_find?_eq_some fieldFound

/-- When names are distinct, a field is what its name finds. -/
theorem get_of_mem {record : Record} (distinct : (record.map Prod.fst).Nodup)
    {key : String} {value : Json} (member : (JString.ofString key, value) ∈ record) :
    record.get key = some value := by
  induction record with
  | nil => cases member
  | cons field rest inductionHypothesis =>
      obtain ⟨name, first⟩ := field
      rw [List.map_cons, List.nodup_cons] at distinct
      rcases List.mem_cons.mp member with same | inRest
      · cases same
        exact get_cons_self key value rest
      · have different : name ≠ JString.ofString key := by
          rintro rfl
          exact distinct.1 (List.mem_map.mpr ⟨_, inRest, rfl⟩)
        have found := inductionHypothesis distinct.2 inRest
        simpa [get, different] using found

end Record

/-- Every object of the value has distinct names, as a decoded JSON object has:
`JSON.parse` and `json.loads` keep one value for each name. -/
inductive Json.DistinctKeys : Json → Prop where
  | null : DistinctKeys .null
  | bool (value : Bool) : DistinctKeys (.bool value)
  | int (value : Int) : DistinctKeys (.int value)
  | float (value : Rat) : DistinctKeys (.float value)
  | str (text : JString) : DistinctKeys (.str text)
  | arr {items : List Json} (each : ∀ item ∈ items, DistinctKeys item) :
      DistinctKeys (.arr items)
  | obj {fields : Record} (names : (fields.map Prod.fst).Nodup)
      (each : ∀ field ∈ fields, DistinctKeys field.2) : DistinctKeys (.obj fields)

/-- No string value of the JSON value holds an unpaired surrogate. -/
inductive Json.Unicode : Json → Prop where
  | null : Unicode .null
  | bool (value : Bool) : Unicode (.bool value)
  | int (value : Int) : Unicode (.int value)
  | float (value : Rat) : Unicode (.float value)
  | str {text : JString} (scalars : ∃ chars, text.toText? = some chars) :
      Unicode (.str text)
  | arr {items : List Json} (each : ∀ item ∈ items, Unicode item) : Unicode (.arr items)
  | obj {fields : Record} (each : ∀ field ∈ fields, Unicode field.2) :
      Unicode (.obj fields)

/-- A JSON value with its well-formedness. -/
structure JsonValue where
  json : Json
  distinctKeys : json.DistinctKeys

namespace JString

/-- `toText?` reads back exactly the strings made of scalar values. -/
theorem toText?_eq_some {text : JString} {chars : List Char} :
    text.toText? = some chars ↔ text = chars.map .scalar := by
  induction text generalizing chars with
  | nil => simp [toText?, eq_comm]
  | cons head rest inductionHypothesis =>
      cases head with
      | surrogate index =>
          simp only [toText?, reduceCtorEq, false_iff]
          intro same
          cases chars with
          | nil => simp at same
          | cons char chars => simp at same
      | scalar char =>
          simp only [toText?, Option.map_eq_some_iff, inductionHypothesis]
          constructor
          · rintro ⟨tail, rfl, rfl⟩
            rfl
          · intro same
            cases chars with
            | nil => simp at same
            | cons first tail =>
                simp only [List.map_cons, List.cons.injEq, JChar.scalar.injEq] at same
                exact ⟨tail, same.2, by rw [same.1]⟩

@[simp] theorem toText?_ofString (text : String) :
    (ofString text).toText? = some text.toList :=
  toText?_eq_some.mpr rfl

theorem ofString_injective : Function.Injective ofString := by
  intro left right same
  apply String.ext
  have texts := congrArg toText? same
  simpa using texts

@[simp] theorem ofString_inj {left right : String} :
    ofString left = ofString right ↔ left = right :=
  ofString_injective.eq_iff

@[simp] theorem ofString_append (left right : String) :
    ofString (left ++ right) = ofString left ++ ofString right := by
  simp [ofString]

theorem utf16Length_cons (head : JChar) (rest : JString) :
    utf16Length (head :: rest) = head.utf16Units + utf16Length rest := by
  simp [utf16Length]

/-- Every code point takes one or two UTF-16 units. -/
theorem length_le_utf16Length (text : JString) : text.length ≤ text.utf16Length := by
  induction text with
  | nil => simp
  | cons head rest inductionHypothesis =>
      have atLeastOne : 1 ≤ head.utf16Units := by
        cases head with
        | scalar char => simp only [JChar.utf16Units]; split <;> omega
        | surrogate index => simp [JChar.utf16Units]
      rw [utf16Length_cons, List.length_cons]
      omega

/-- Only the empty string has no UTF-16 units. -/
theorem one_le_utf16Length_iff {text : JString} :
    1 ≤ text.utf16Length ↔ 1 ≤ text.length := by
  constructor
  · intro positive
    cases text with
    | nil => simp [utf16Length] at positive
    | cons head rest => simp
  · intro nonempty
    exact Nat.le_trans nonempty text.length_le_utf16Length

@[simp] theorem length_ofString (text : String) : (ofString text).length = text.length := by
  simp [ofString, String.length_toList]

end JString

end Docta.Contract
