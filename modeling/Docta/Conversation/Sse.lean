/-
Module: Docta.Conversation.Sse
Purpose: The events of a response on the wire: their text and bytes on the server,
  and the client's reading of them from network chunks, with its incremental
  decoding, its growing buffer and its limit.
Trusted boundary: how the two languages write and read a number are parameters;
  `JsNumber.ofNumeral` is the reading that the language of the client prescribes
Main exports: Sent, Sent.text, body, readEvents, Reached, JsNumber.ofNumeral,
  events_delivered
-/
import Docta.Contract.Uuid
import Docta.Library.BinaryFormat
import Docta.Library.JsonText
import Docta.Library.Paragraphs

namespace Docta.Sse

open Contract JsonText Paragraphs Utf8Stream

-- A quantifier over a list is decided along the list, not over all characters.
attribute [local instance (high)] List.decidableBAll

/-! ### The server -/

/-- One frame of a response. -/
inductive Sent (ν : Type) where
  | event (name : List Char) (messageId : UUID) (data : List (JString × Tree ν))
  | heartbeat

section Server

variable {ν : Type} (numeral : ν → List Char)

/-- `json.dumps(data, ensure_ascii=False, separators=(',', ':'))` -/
def dumps (data : List (JString × Tree ν)) : JString :=
  write numeral (.obj data)

/-- `_event` -/
def event (name : List Char) (messageId : UUID) (data : List (JString × Tree ν)) : JString :=
  JString.ofString "event: " ++ name.map .scalar ++
    (JString.ofString "\nid: " ++ JString.ofString messageId.text ++ JString.ofString ":" ++
      name.map .scalar) ++
    (JString.ofString "\ndata: " ++ dumps numeral data ++ JString.ofString "\n\n")

/-- What is yielded for a frame. -/
def Sent.text : Sent ν → JString
  | .event name messageId data => Sse.event numeral name messageId data
  | .heartbeat => JString.ofString ": heartbeat\n\n"

/-- The text of a response. -/
def body (frames : List (Sent ν)) : JString :=
  frames.flatMap (Sent.text numeral)

/-- `chunk.encode("utf-8")`: an unpaired half has no encoding. -/
def encodeText (text : JString) : Option (List UInt8) :=
  text.toText?.map encode

end Server

/-! ### The client -/

/-- `LifecycleEvent` -/
structure LifecycleEvent (μ : Type) where
  event : List Char
  data : Tree μ

/-- Why reading stops before the stream ends. -/
inductive ReadError where
  /-- `Event too large` -/
  | tooLarge
  /-- raised by `JSON.parse` -/
  | syntaxError
  /-- `reader.read()` rejects -/
  | rejected
deriving DecidableEq, Repr

/-- How the network ends the stream. -/
inductive Ending where
  | done
  | rejected
deriving DecidableEq, Repr

/-- The white space and line terminators that `trim` removes. -/
def isWhiteSpace (char : Char) : Bool :=
  char.toNat ∈ [0x09, 0x0A, 0x0B, 0x0C, 0x0D, 0x20, 0xA0, 0x1680, 0x2028, 0x2029, 0x202F, 0x205F,
    0x3000, 0xFEFF] || (decide (0x2000 ≤ char.toNat) && decide (char.toNat ≤ 0x200A))

/-- `text.trimStart()` -/
def trimStart (text : List Char) : List Char :=
  text.dropWhile isWhiteSpace

/-- `text.trim()` -/
def trim (text : List Char) : List Char :=
  ((trimStart text).reverse.dropWhile isWhiteSpace).reverse

/-- The mark that a stream may begin with. -/
def byteOrderMark : Char := Char.ofNat 0xFEFF

/-- `new TextDecoder()` between two calls. -/
structure TextDecoder where
  state : Utf8State := {}
  /-- the first character has been seen -/
  bomSeen : Bool := false
deriving DecidableEq, Repr

/-- A byte order mark at the start of the stream is dropped. -/
def serialize (bomSeen : Bool) : List Char → List Char
  | [] => []
  | char :: rest => if bomSeen = false ∧ char = byteOrderMark then rest else char :: rest

/-- `decoder.decode(value, { stream })` -/
def TextDecoder.decode (decoder : TextDecoder) (value : List UInt8) (stream : Bool) :
    List Char × TextDecoder :=
  let fed := feedAll decoder.state value
  let chars := if stream = true then fed.1 else fed.1 ++ flush fed.2
  (serialize decoder.bomSeen chars,
    { state := fed.2, bomSeen := decoder.bomSeen || !chars.isEmpty })

/-- `buffer.replace(/\r\n/g, "\n")` -/
def unfoldNewlines : List Char → List Char
  | '\r' :: '\n' :: rest => '\n' :: unfoldNewlines rest
  | char :: rest => char :: unfoldNewlines rest
  | [] => []

/-- `text.length`, in code units. -/
def codeUnits (text : List Char) : Nat :=
  (text.map fun char => JChar.utf16Units (.scalar char)).sum

section Client

variable {μ : Type} (number : List Char → μ)

/-- The numerals of `JSON.parse`. -/
def javascript : Dialect μ where
  number := fun numeral => some (number numeral)

/-- `JSON.parse(data)`: no nesting is too deep. -/
def parse (data : List Char) : Except ReadError (Tree μ) :=
  match read (javascript number) data.length (data.map .scalar) with
  | .ok value => .ok value
  | .error _ => .error .syntaxError

/-- The event of a block, if it has one. -/
def blockEvent (block : List Char) : Except ReadError (List (LifecycleEvent μ)) :=
  let lines := block.splitOn '\n'
  let name := (lines.find? fun line => "event:".toList.isPrefixOf line).map fun line =>
    trim (line.drop 6)
  let data := ['\n'].intercalate
    ((lines.filter fun line => "data:".toList.isPrefixOf line).map fun line =>
      trimStart (line.drop 5))
  match name with
  | none => .ok []
  | some name =>
      if name = [] ∨ data = [] then .ok []
      else
        match parse number data with
        | .ok value => .ok [{ event := name, data := value }]
        | .error error => .error error

/-- Decoded text arrives: the buffer grows and its blocks are handled. -/
def receive (buffer text : List Char) :
    List (LifecycleEvent μ) × Except ReadError (List Char) :=
  let buffer := unfoldNewlines (buffer ++ text)
  if 1000000 < codeUnits buffer then ([], .error .tooLarge)
  else drain '\n' (blockEvent number) buffer

/-- The loop of `readEvents`: the events handed to `onEvent`, and the error that
ends it, if one does. -/
def readFrom (ending : Ending) (decoder : TextDecoder) (buffer : List Char) :
    List (List UInt8) → List (LifecycleEvent μ) × Option ReadError
  | [] =>
      match ending with
      | .rejected => ([], some .rejected)
      | .done =>
          match receive number buffer (decoder.decode [] false).1 with
          | (events, .error error) => (events, some error)
          | (events, .ok _) => (events, none)
  | value :: rest =>
      match receive number buffer (decoder.decode value true).1 with
      | (events, .error error) => (events, some error)
      | (events, .ok left) =>
          let later := readFrom ending (decoder.decode value true).2 left rest
          (events ++ later.1, later.2)

/-- `readEvents` -/
def readEvents (ending : Ending) (chunks : List (List UInt8)) :
    List (LifecycleEvent μ) × Option ReadError :=
  readFrom number ending {} [] chunks

end Client

/-! ### One frame -/

section Frames

variable {ν μ : Type} (numeral : ν → List Char) (number : List Char → μ)

/-- A frame of the service: a name without white space, and a JSON object of
Unicode strings. -/
def Sent.Proper : Sent ν → Prop
  | .event name _ data =>
      name ≠ [] ∧ (∀ char ∈ name, isWhiteSpace char = false) ∧
        (∃ depth, (Tree.obj data).Within (fun value => isNumeral (numeral value) = true) depth) ∧
          (Tree.obj data).Strings Unicode
  | .heartbeat => True

/-- What the client should make of a frame, each number read as its numeral is. -/
def Sent.delivered : Sent ν → List (LifecycleEvent μ)
  | .event name _ data =>
      [{ event := name, data := (Tree.obj data).map fun value => number (numeral value) }]
  | .heartbeat => []

/-- The characters of Unicode text. -/
def scalars (text : JString) : List Char :=
  text.filterMap fun char =>
    match char with
    | .scalar value => some value
    | .surrogate _ => none

/-- The lines of a frame. -/
def Sent.lines : Sent ν → List (List Char)
  | .event name messageId data =>
      ["event: ".toList ++ name, "id: ".toList ++ (messageId.text.toList ++ ':' :: name),
        "data: ".toList ++ scalars (dumps numeral data)]
  | .heartbeat => [": heartbeat".toList]

/-- A frame without its end. -/
def Sent.block (sent : Sent ν) : List Char :=
  ['\n'].intercalate (sent.lines numeral)

end Frames

theorem map_scalars {text : JString} (unicode : Unicode text) :
    (scalars text).map .scalar = text := by
  induction text with
  | nil => rfl
  | cons char text ih =>
      obtain ⟨⟨value, rfl⟩, others⟩ := List.forall_mem_cons.mp unicode
      rw [scalars, List.filterMap_cons]
      simp only [List.map_cons]
      rw [scalars] at ih
      rw [ih others]

section Frames

variable {ν μ : Type} {numeral : ν → List Char} {number : List Char → μ}

/-- The text of an object is made of plain characters. -/
theorem plain_dumps {data : List (JString × Tree ν)}
    (within : ∃ depth, (Tree.obj data).Within (fun value => isNumeral (numeral value) = true) depth)
    (strings : (Tree.obj data).Strings Unicode) :
    (scalars (dumps numeral data)).map .scalar = dumps numeral data ∧
      ∀ char ∈ scalars (dumps numeral data), isControl char = false := by
  obtain ⟨depth, within⟩ := within
  have plain := plain_write within strings
  have whole : (scalars (dumps numeral data)).map .scalar = dumps numeral data := by
    apply map_scalars
    intro char member
    obtain ⟨value, isValue, _⟩ := plain char member
    exact ⟨value, isValue⟩
  refine ⟨whole, fun char member => ?_⟩
  have written : JChar.scalar char ∈ dumps numeral data := by
    rw [← whole]
    exact List.mem_map_of_mem member
  obtain ⟨value, isValue, control⟩ := plain _ written
  rw [JChar.scalar.inj isValue]
  exact control

/-- The client parses what the server dumps. -/
theorem parse_dumps {data : List (JString × Tree ν)}
    (within : ∃ depth, (Tree.obj data).Within (fun value => isNumeral (numeral value) = true) depth)
    (strings : (Tree.obj data).Strings Unicode) :
    parse number (scalars (dumps numeral data)) =
      .ok ((Tree.obj data).map fun value => number (numeral value)) := by
  have whole := (plain_dumps within strings).1
  obtain ⟨depth, within⟩ := within
  have size : (scalars (dumps numeral data)).length = (dumps numeral data).length := by
    rw [← List.length_map JChar.scalar, whole]
  have apart : (javascript number).Apart := by
    intro word member
    cases member
  have numbered : (Tree.obj data).Within
      (Numbered numeral (javascript number) fun value => number (numeral value))
      (dumps numeral data).length :=
    (within.written numeral).imp fun value isNumeral =>
      { isNumeral := isNumeral
        chars := chars_of_isNumeral isNumeral
        number := rfl }
  have readBack : read (javascript number) (dumps numeral data).length (dumps numeral data) =
      .ok ((Tree.obj data).map fun value => number (numeral value)) := read_write apart numbered
  rw [parse, whole, size, readBack]

/-- A word keeps all its characters. -/
theorem trim_word {word : List Char} (some : word ≠ [])
    (plain : ∀ char ∈ word, isWhiteSpace char = false) : trim (' ' :: word) = word := by
  have front : trimStart (' ' :: word) = word := by
    cases word with
    | nil => exact absurd rfl some
    | cons head word =>
        have notSpace := plain head List.mem_cons_self
        rw [trimStart, List.dropWhile_cons_of_pos (by decide),
          List.dropWhile_cons_of_neg (by rw [notSpace]; exact Bool.false_ne_true)]
  have back : word.reverse.dropWhile isWhiteSpace = word.reverse := by
    cases reversed : word.reverse with
    | nil => rfl
    | cons last rest =>
        have member : last ∈ word := List.mem_reverse.mp (reversed ▸ List.mem_cons_self)
        have notSpace := plain last member
        rw [List.dropWhile_cons_of_neg (by rw [notSpace]; exact Bool.false_ne_true)]
  rw [trim, front, back, List.reverse_reverse]

/-- The characters of an identifier are plain. -/
theorem plain_uuid (uuid : UUID) : ∀ char ∈ uuid.text.toList, isControl char = false := by
  have each : ∀ (slots : List UUIDSlot) (digits : List (Fin 16)),
      ∀ char ∈ UUIDSlot.print slots digits, isControl char = false := by
    intro slots digits
    fun_induction UUIDSlot.print slots digits with
    | case1 slots digits ih => exact List.forall_mem_cons.mpr ⟨by decide, ih⟩
    | case2 slots nibble digits ih =>
        have plain : ∀ nibble : Fin 16, isControl (UUIDSlot.digitChar nibble) = false := by decide
        exact List.forall_mem_cons.mpr ⟨plain nibble, ih⟩
    | case3 =>
        intro char member
        cases member
  rw [UUID.text, String.toList_ofList]
  exact each _ _

/-- The lines of a frame are not empty and hold no line ends. -/
theorem Sent.Proper.plain_lines {sent : Sent ν} (proper : sent.Proper numeral) :
    ∀ line ∈ sent.lines numeral, line ≠ [] ∧ '\n' ∉ line ∧ '\r' ∉ line := by
  have plain {line : List Char} (each : ∀ char ∈ line, char ≠ '\n' ∧ char ≠ '\r') :
      '\n' ∉ line ∧ '\r' ∉ line :=
    ⟨fun member => (each _ member).1 rfl, fun member => (each _ member).2 rfl⟩
  have ofControl {char : Char} (control : isControl char = false) : char ≠ '\n' ∧ char ≠ '\r' := by
    constructor
    · rintro rfl
      exact absurd control (by decide)
    · rintro rfl
      exact absurd control (by decide)
  have ofSpace {char : Char} (space : isWhiteSpace char = false) : char ≠ '\n' ∧ char ≠ '\r' := by
    constructor
    · rintro rfl
      exact absurd space (by decide)
    · rintro rfl
      exact absurd space (by decide)
  cases sent with
  | heartbeat => exact List.forall_mem_singleton.mpr (by decide)
  | event name messageId data =>
      obtain ⟨_, word, within, strings⟩ := proper
      have controls := (plain_dumps within strings).2
      have fixed (text : String) (known : ∀ char ∈ text.toList, char ≠ '\n' ∧ char ≠ '\r')
          {rest : List Char} (others : ∀ char ∈ rest, char ≠ '\n' ∧ char ≠ '\r') :
          ∀ char ∈ text.toList ++ rest, char ≠ '\n' ∧ char ≠ '\r' :=
        List.forall_mem_append.mpr ⟨known, others⟩
      rw [Sent.lines, List.forall_mem_cons, List.forall_mem_cons, List.forall_mem_singleton]
      refine ⟨⟨by simp, plain (fixed "event: " (by decide) ?_)⟩,
        ⟨by simp, plain (fixed "id: " (by decide) ?_)⟩,
        ⟨by simp, plain (fixed "data: " (by decide) ?_)⟩⟩
      · exact fun char member => ofSpace (word char member)
      · rw [List.forall_mem_append, List.forall_mem_cons]
        exact ⟨fun char member => ofControl (plain_uuid messageId char member), by decide,
          fun char member => ofSpace (word char member)⟩
      · exact fun char member => ofControl (controls char member)

theorem Sent.Proper.isBlock {sent : Sent ν} (proper : sent.Proper numeral) :
    IsBlock '\n' (sent.block numeral) := by
  apply isBlock_lines
  · cases sent with
    | event name messageId data => exact List.cons_ne_nil _ _
    | heartbeat => exact List.cons_ne_nil _ _
  · intro line member
    obtain ⟨some, noNewline, _⟩ := proper.plain_lines line member
    exact ⟨some, noNewline⟩

/-- The server's text of a frame is its block, ended. -/
theorem Sent.Proper.text_eq {sent : Sent ν} (proper : sent.Proper numeral) :
    sent.text numeral = (sent.block numeral ++ ['\n', '\n']).map .scalar := by
  cases sent with
  | heartbeat => rfl
  | event name messageId data =>
      obtain ⟨_, _, within, strings⟩ := proper
      have whole := (plain_dumps within strings).1
      have ofString (text : String) : JString.ofString text = text.toList.map .scalar := rfl
      simp only [Sent.text, Sse.event, Sent.block, Sent.lines, List.intercalate_cons_cons,
        List.intercalate_singleton, List.map_append, whole, ofString]
      simp

/-- The client takes a frame's block for what the frame delivers. -/
theorem Sent.Proper.blockEvent_eq {sent : Sent ν} (proper : sent.Proper numeral) :
    blockEvent number (sent.block numeral) = .ok (sent.delivered numeral number) := by
  have split : (sent.block numeral).splitOn '\n' = sent.lines numeral := by
    apply List.splitOn_intercalate
    · intro line member
      exact (proper.plain_lines line member).2.1
    · cases sent with
      | event name messageId data => exact List.cons_ne_nil _ _
      | heartbeat => exact List.cons_ne_nil _ _
  rw [blockEvent, split]
  cases sent with
  | heartbeat => rfl
  | event name messageId data =>
      obtain ⟨some, word, within, strings⟩ := proper
      have parsed : parse number (scalars (dumps numeral data)) =
          .ok ((Tree.obj data).map fun value => number (numeral value)) :=
        parse_dumps within strings
      obtain ⟨rest, front⟩ : ∃ rest, scalars (dumps numeral data) = '{' :: rest := by
        refine ⟨scalars (series '}' (writeMembers numeral data)), ?_⟩
        rw [dumps, write]
        rfl
      rw [Sent.lines, front]
      rw [front] at parsed
      have isName : "event:".toList.isPrefixOf ("event: ".toList ++ name) = true := rfl
      have nameNoData : "data:".toList.isPrefixOf ("event: ".toList ++ name) = false := rfl
      have idNoData (text : List Char) :
          "data:".toList.isPrefixOf ("id: ".toList ++ text) = false := rfl
      have isData : "data:".toList.isPrefixOf ("data: ".toList ++ '{' :: rest) = true := rfl
      have nameText : ("event: ".toList ++ name).drop 6 = ' ' :: name := rfl
      have dataText : trimStart (("data: ".toList ++ '{' :: rest).drop 5) = '{' :: rest := rfl
      simp only [List.find?_cons, isName, Option.map_some, nameText, trim_word some word,
        List.filter_cons, nameNoData, idNoData, isData, Bool.false_eq_true, if_false, if_true,
        List.filter_nil, List.map_cons, List.map_nil, dataText, List.intercalate_singleton, some,
        List.cons_ne_nil, or_self, parsed]
      rfl

/-- The text of a response is the text of its blocks, each ended. -/
theorem body_eq {frames : List (Sent ν)} (proper : ∀ sent ∈ frames, sent.Proper numeral) :
    body numeral frames = (terminated '\n' (frames.map (Sent.block numeral))).map .scalar := by
  induction frames with
  | nil => rfl
  | cons sent frames ih =>
      obtain ⟨first, others⟩ := List.forall_mem_cons.mp proper
      have later := ih others
      rw [body] at later ⊢
      rw [List.flatMap_cons, later, first.text_eq, List.map_cons, terminated, terminated,
        List.flatMap_cons, List.map_append, List.map_append, List.map_append]

end Frames

/-! ### Chunks -/

theorem unfoldNewlines_eq {text : List Char} (noReturn : '\r' ∉ text) :
    unfoldNewlines text = text := by
  fun_induction unfoldNewlines text with
  | case1 rest => exact absurd List.mem_cons_self noReturn
  | case2 char rest _ ih =>
      rw [List.mem_cons, not_or] at noReturn
      rw [ih noReturn.2]
  | case3 => rfl

theorem codeUnits_append (first second : List Char) :
    codeUnits (first ++ second) = codeUnits first + codeUnits second := by
  rw [codeUnits, List.map_append, List.sum_append]
  rfl

theorem codeUnits_le_of_isInfix {part text : List Char} (isPart : part <:+: text) :
    codeUnits part ≤ codeUnits text := by
  obtain ⟨front, back, rfl⟩ := isPart
  rw [codeUnits_append, codeUnits_append]
  omega

theorem codeUnits_pos {text : List Char} (some : text ≠ []) : 1 ≤ codeUnits text := by
  cases text with
  | nil => exact absurd rfl some
  | cons char text =>
      rw [codeUnits, List.map_cons, List.sum_cons, JChar.utf16Units]
      split
      · omega
      · omega

theorem serialize_eq {bomSeen : Bool} {chars : List Char}
    (noMark : bomSeen = true ∨ chars.head? ≠ some byteOrderMark) :
    serialize bomSeen chars = chars := by
  cases chars with
  | nil => rfl
  | cons char rest =>
      rw [serialize, if_neg]
      rintro ⟨unseen, rfl⟩
      rcases noMark with seen | other
      · rw [seen] at unseen
        cases unseen
      · exact other rfl

section Chunks

variable {μ : Type} {number : List Char → μ} {text : List Char}

/-- A text that the client handles however far it comes. -/
structure Readable (number : List Char → μ) (text : List Char) : Prop where
  noReturn : '\r' ∉ text
  small : codeUnits text ≤ 1000000
  noMark : text.head? ≠ some byteOrderMark
  handled : ∀ part, part <+: text → ∃ events left,
    drain '\n' (blockEvent number) part = (events, .ok left)

/-- After some bytes of a text: the decoder stands behind them, and the events of
the characters they gave have been handed on. -/
structure Reached (number : List Char → μ) (consumed : List UInt8) (decoder : TextDecoder)
    (buffer : List Char) (events : List (LifecycleEvent μ)) : Prop where
  state : decoder.state = (feedAll {} consumed).2
  seen : decoder.bomSeen = true ∨ (feedAll {} consumed).1 = []
  drained : drain '\n' (blockEvent number) (feedAll {} consumed).1 = (events, .ok buffer)

theorem reached_start : Reached number [] {} [] [] where
  state := rfl
  seen := .inr rfl
  drained := drain_of_none rfl

variable {consumed : List UInt8} {decoder : TextDecoder} {buffer : List Char}
  {events : List (LifecycleEvent μ)}

/-- What a chunk does, wherever it was cut. -/
theorem Reached.chunk (readable : Readable number text)
    (reached : Reached number consumed decoder buffer events) {value : List UInt8}
    (isPart : consumed ++ value <+: encode text) :
    ∃ more left, receive number buffer (decoder.decode value true).1 = (more, .ok left) ∧
      Reached number (consumed ++ value) (decoder.decode value true).2 left (events ++ more) := by
  obtain ⟨cut, whole, _⟩ := feedAll_prefix isPart
  have grown := feedAll_append {} consumed value
  rw [← reached.state] at grown
  generalize isNew : feedAll decoder.state value = fed at grown
  obtain ⟨new, state⟩ := fed
  have isFront : (feedAll {} consumed).1 ++ new <+: text := by
    rw [← whole, grown]
    exact List.prefix_append _ _
  obtain ⟨made, left, drained⟩ := readable.handled _ isFront
  obtain ⟨front, ends⟩ := (drain_left reached.drained).2
  have inside : buffer ++ new <:+: text := by
    refine ⟨front, cut, ?_⟩
    rw [← whole, grown, ← ends, ← List.append_assoc]
  -- the decoder gives the new characters as they are
  have decoded : (decoder.decode value true).1 = new := by
    rw [TextDecoder.decode, isNew]
    apply serialize_eq
    rcases reached.seen with seen | none
    · exact .inl seen
    · right
      rw [none, List.nil_append] at isFront
      cases new with
      | nil => exact (Option.some_ne_none _).symm
      | cons char new =>
          obtain ⟨rest, isText⟩ := isFront
          have noMark := readable.noMark
          rw [← isText] at noMark
          exact noMark
  have same : unfoldNewlines (buffer ++ new) = buffer ++ new := by
    apply unfoldNewlines_eq
    intro member
    exact readable.noReturn (inside.subset member)
  have small : ¬ 1000000 < codeUnits (buffer ++ new) :=
    Nat.not_lt.mpr (Nat.le_trans (codeUnits_le_of_isInfix inside) readable.small)
  have together := drain_append reached.drained new
  rw [drained] at together
  refine ⟨(drain '\n' (blockEvent number) (buffer ++ new)).1, left, ?_, ?_, ?_, ?_⟩
  · rw [receive, decoded, same, if_neg small]
    exact Prod.ext rfl (Prod.ext_iff.mp together).2.symm
  · rw [TextDecoder.decode, isNew, grown]
  · rw [TextDecoder.decode, isNew, grown]
    cases new with
    | nil =>
        rcases reached.seen with seen | none
        · exact .inl (by simp [seen])
        · exact .inr (by rw [none]; rfl)
    | cons char new => exact .inl (by simp)
  · rw [grown, drained]
    exact Prod.ext (Prod.ext_iff.mp together).1 rfl

/-- The end of the stream adds nothing. -/
theorem Reached.finish (readable : Readable number text)
    (reached : Reached number consumed decoder buffer events) (isPart : consumed <+: encode text) :
    ∃ left, receive number buffer (decoder.decode [] false).1 = ([], .ok left) := by
  obtain ⟨cut, whole, flushed⟩ := feedAll_prefix isPart
  obtain ⟨absent, front, ends⟩ := drain_left reached.drained
  have isText : front ++ buffer ++ cut = text := by rw [ends, whole]
  have inside : buffer <:+: text := ⟨front, cut, isText⟩
  have noReturn : '\r' ∉ buffer := fun member => readable.noReturn (inside.subset member)
  have fits := codeUnits_le_of_isInfix inside
  have small := readable.small
  rw [← reached.state] at flushed
  have decoded : (decoder.decode [] false).1 = flush decoder.state := by
    rw [TextDecoder.decode]
    apply serialize_eq
    rcases flushed with empty | ⟨one, _⟩
    · right
      simp [feedAll, empty]
    · right
      rw [feedAll]
      simp only [Bool.false_eq_true, if_false, List.nil_append, one]
      decide
  rw [receive, decoded]
  rcases flushed with empty | ⟨one, cutSome⟩
  · refine ⟨buffer, ?_⟩
    rw [empty, List.append_nil, unfoldNewlines_eq noReturn, if_neg (by omega), drain_of_none absent]
  · -- the character that is cut was longer than its replacement
    have more := codeUnits_pos cutSome
    have total := codeUnits_append (front ++ buffer) cut
    rw [isText, codeUnits_append] at total
    have replaced : codeUnits (buffer ++ [replacement]) = codeUnits buffer + 1 := by
      rw [codeUnits_append]
      rfl
    have noReturn' : '\r' ∉ buffer ++ [replacement] := by
      rw [List.mem_append, not_or]
      exact ⟨noReturn, by decide⟩
    refine ⟨buffer ++ [replacement], ?_⟩
    rw [one, unfoldNewlines_eq noReturn', if_neg (by omega),
      drain_of_none (cut_concat absent (by decide))]

/-- A run delivers the events of the characters that came, however the bytes were
cut. -/
theorem Reached.run (readable : Readable number text) (chunks : List (List UInt8))
    (reached : Reached number consumed decoder buffer events)
    (isPart : consumed ++ chunks.flatten <+: encode text) (ending : Ending) :
    events ++ (readFrom number ending decoder buffer chunks).1 =
        (drain '\n' (blockEvent number) (feedAll {} (consumed ++ chunks.flatten)).1).1 ∧
      (ending = .done → (readFrom number ending decoder buffer chunks).2 = none) := by
  induction chunks generalizing consumed decoder buffer events with
  | nil =>
      rw [List.flatten_nil, List.append_nil] at isPart ⊢
      rw [reached.drained]
      cases ending with
      | rejected => exact ⟨List.append_nil _, fun isDone => by cases isDone⟩
      | done =>
          obtain ⟨left, received⟩ := reached.finish readable isPart
          rw [readFrom, received]
          exact ⟨List.append_nil _, fun _ => rfl⟩
  | cons value chunks ih =>
      rw [List.flatten_cons, ← List.append_assoc] at isPart ⊢
      obtain ⟨more, left, received, reachedNext⟩ :=
        reached.chunk readable ((List.prefix_append _ _).trans isPart)
      have later := ih reachedNext isPart
      rw [readFrom, received]
      rw [List.append_assoc] at later
      exact later

end Chunks

/-! ### A response -/

section Response

variable {ν μ : Type} {numeral : ν → List Char} {number : List Char → μ} {frames : List (Sent ν)}

theorem Sent.Proper.noReturn {sent : Sent ν} (proper : sent.Proper numeral) :
    '\r' ∉ sent.block numeral := by
  intro member
  rcases mem_intercalate member with isNewline | ⟨line, known, inLine⟩
  · exact absurd isNewline (by decide)
  · exact (proper.plain_lines line known).2.2 inLine

/-- The text of a response can be read however far it comes. -/
theorem readable_terminated (proper : ∀ sent ∈ frames, sent.Proper numeral)
    (small : codeUnits (terminated '\n' (frames.map (Sent.block numeral))) ≤ 1000000) :
    Readable number (terminated '\n' (frames.map (Sent.block numeral))) where
  noReturn := by
    intro member
    obtain ⟨block, isBlock, inBlock⟩ := List.mem_flatMap.mp member
    obtain ⟨sent, known, rfl⟩ := List.mem_map.mp isBlock
    rcases List.mem_append.mp inBlock with inside | ending
    · exact (proper sent known).noReturn inside
    · exact absurd ending (by decide)
  small := small
  noMark := by
    cases frames with
    | nil => exact (Option.some_ne_none _).symm
    | cons sent frames =>
        rw [List.map_cons, terminated_cons]
        cases sent with
        | heartbeat =>
            show some ':' ≠ some byteOrderMark
            decide
        | event name messageId data =>
            show some 'e' ≠ some byteOrderMark
            decide
  handled := by
    intro part isPart
    have each : ∀ sent ∈ frames, IsBlock '\n' (sent.block numeral) ∧
        blockEvent number (sent.block numeral) = .ok (sent.delivered numeral number) :=
      fun sent known => ⟨(proper sent known).isBlock, (proper sent known).blockEvent_eq⟩
    obtain ⟨events, left, drained, _⟩ := drain_prefix each isPart
    exact ⟨events, left, drained⟩

variable (number) in
/-- A proper response is text, and all that arrives of it can be read. -/
theorem encodeText_body (proper : ∀ sent ∈ frames, sent.Proper numeral)
    (small : (body numeral frames).utf16Length ≤ 1000000) :
    encodeText (body numeral frames) =
        some (encode (terminated '\n' (frames.map (Sent.block numeral)))) ∧
      Readable number (terminated '\n' (frames.map (Sent.block numeral))) := by
  have isBody := body_eq proper
  refine ⟨?_, readable_terminated proper ?_⟩
  · rw [encodeText, JString.toText?_eq_some.mpr isBody]
    rfl
  · rw [isBody, JString.utf16Length, List.map_map] at small
    exact small

variable (number) in
/-- A whole response is read as its frames, however it was cut. -/
theorem readEvents_whole (proper : ∀ sent ∈ frames, sent.Proper numeral)
    (small : (body numeral frames).utf16Length ≤ 1000000) {chunks : List (List UInt8)}
    (whole : chunks.flatten = encode (terminated '\n' (frames.map (Sent.block numeral)))) :
    readEvents number .done chunks = (frames.flatMap (Sent.delivered numeral number), none) := by
  have readable := (encodeText_body number proper small).2
  obtain ⟨events, noError⟩ := reached_start.run readable chunks
    (by rw [whole]; exact List.prefix_refl _) .done
  rw [List.nil_append, List.nil_append, whole, feedAll_encode,
    drain_blocks fun sent known => ⟨(proper sent known).isBlock, (proper sent known).blockEvent_eq⟩]
    at events
  exact Prod.ext events (noError rfl)

/-- The events of a response arrive as they were sent, however the network cuts
its bytes: all of them when the stream is whole, and the first of them when it
breaks off anywhere. -/
theorem events_delivered (proper : ∀ sent ∈ frames, sent.Proper numeral)
    (small : (body numeral frames).utf16Length ≤ 1000000) :
    ∃ bytes, encodeText (body numeral frames) = some bytes ∧
      ∀ chunks : List (List UInt8),
        (chunks.flatten = bytes → readEvents number .done chunks =
          (frames.flatMap (Sent.delivered numeral number), none)) ∧
        (chunks.flatten <+: bytes → ∀ ending,
          (readEvents number ending chunks).1 <+: frames.flatMap (Sent.delivered numeral number) ∧
            (ending = .done → (readEvents number ending chunks).2 = none)) := by
  obtain ⟨encoded, readable⟩ := encodeText_body number proper small
  refine ⟨_, encoded, fun chunks => ⟨readEvents_whole number proper small, fun isPart ending => ?_⟩⟩
  obtain ⟨events, noError⟩ := reached_start.run readable chunks isPart ending
  obtain ⟨cut, whole, _⟩ := feedAll_prefix isPart
  have isFront : (feedAll {} chunks.flatten).1 <+:
      terminated '\n' (frames.map (Sent.block numeral)) := by
    rw [← whole]
    exact List.prefix_append _ _
  obtain ⟨delivered, left, drained, isPrefix⟩ := drain_prefix
    (fun sent known => ⟨(proper sent known).isBlock, (proper sent known).blockEvent_eq⟩) isFront
  rw [List.nil_append, List.nil_append, drained] at events
  refine ⟨?_, noError⟩
  rw [readEvents, events]
  exact isPrefix

end Response

/-! ### The numbers of the client -/

/-- A number of the client: a double with its sign, or an infinity. -/
inductive JsNumber where
  | finite (negative : Bool) (magnitude : Rat)
  | infinity (negative : Bool)
deriving DecidableEq, Repr

/-- The number that `JSON.parse` reads from a numeral: the nearest double. -/
def JsNumber.ofNumeral (numeral : List Char) : JsNumber :=
  match BinaryFormat.binary64.nearest (BinaryFormat.magnitude numeral) with
  | some magnitude => .finite (numeral.head? == some '-') magnitude
  | none => .infinity (numeral.head? == some '-')

/-- A whole number of at most 53 bits is read as it was written. -/
theorem JsNumber.ofNumeral_toDigits {value : Nat} (small : value < 2 ^ 53) :
    ofNumeral (Nat.toDigits 10 value) = .finite false value := by
  have unsigned : ((Nat.toDigits 10 value).head? == some '-') = false := by
    rw [beq_eq_false_iff_ne]
    intro signed
    have isDigit := Nat.isDigit_of_mem_toDigits (by decide) (by decide) (List.mem_of_head? signed)
    exact absurd isDigit (by decide)
  have held : BinaryFormat.binary64.Holds value :=
    BinaryFormat.Format.holds_natCast small (by decide) (by decide)
  rw [ofNumeral, BinaryFormat.magnitude_toDigits, BinaryFormat.Format.nearest_of_holds held,
    unsigned]

/-! ### A sample -/

theorem unicode_ofString (text : String) : Unicode (JString.ofString text) := by
  intro char member
  obtain ⟨value, _, rfl⟩ := List.mem_map.mp member
  exact ⟨value, rfl⟩

/-- The data of an event with an accent, a line end and a paragraph separator. -/
def sampleData : List (JString × Tree Nat) :=
  [(JString.ofString "état\n\u2029", .arr [.num 17, .str (JString.ofString "\r\n\n")])]

/-- An acceptance, a heartbeat and a phase. -/
def sampleFrames : List (Sent Nat) :=
  [.event "message.accepted".toList (.ofNat 5) sampleData, .heartbeat,
    .event "reading".toList (.ofNat 5) []]

theorem sampleFrames_proper :
    ∀ sent ∈ sampleFrames, sent.Proper (fun value => Nat.toDigits 10 value) := by
  have dataStrings : (Tree.obj sampleData).Strings Unicode := by
    refine .obj ?_ ?_
    · exact List.forall_mem_singleton.mpr (unicode_ofString _)
    · refine List.forall_mem_singleton.mpr (.arr ?_)
      exact List.forall_mem_cons.mpr
        ⟨.num 17, List.forall_mem_singleton.mpr (.str (unicode_ofString _))⟩
  have dataWithin : (Tree.obj sampleData).Within
      (fun value => isNumeral (Nat.toDigits 10 value) = true) 2 := by
    refine .obj (by simp [sampleData]) (List.forall_mem_singleton.mpr (.arr ?_))
    exact List.forall_mem_cons.mpr
      ⟨.num (by decide), List.forall_mem_singleton.mpr (.str _)⟩
  rw [sampleFrames, List.forall_mem_cons, List.forall_mem_cons, List.forall_mem_singleton]
  refine ⟨⟨by decide, by decide, ⟨2, dataWithin⟩, dataStrings⟩, trivial,
    ⟨by decide, by decide, ⟨1, .obj List.nodup_nil ?_⟩, .obj ?_ ?_⟩⟩
  · intro field member
    cases member
  · intro field member
    cases member
  · intro field member
    cases member

/-- What the client makes of the data of the sample. -/
def sampleReceived : Tree JsNumber :=
  .obj [(JString.ofString "état\n\u2029",
    .arr [.num (.finite false 17), .str (JString.ofString "\r\n\n")])]

theorem delivered_sample :
    sampleFrames.flatMap (Sent.delivered (fun value => Nat.toDigits 10 value) JsNumber.ofNumeral) =
      [{ event := "message.accepted".toList, data := sampleReceived },
        { event := "reading".toList, data := .obj [] }] := by
  have seventeen : JsNumber.ofNumeral (Nat.toDigits 10 17) = .finite false 17 :=
    JsNumber.ofNumeral_toDigits (by decide)
  rw [sampleReceived, ← seventeen]
  rfl

/-- The sample whole, cut at any two bytes, and broken off anywhere. -/
theorem events_delivered_of_sample :
    ∃ bytes, encodeText (body (fun value => Nat.toDigits 10 value) sampleFrames) = some bytes ∧
      (∀ first second, readEvents JsNumber.ofNumeral .done
          [bytes.take first, [], (bytes.drop first).take second, (bytes.drop first).drop second] =
        ([{ event := "message.accepted".toList, data := sampleReceived },
          { event := "reading".toList, data := .obj [] }], none)) ∧
      ∀ size, (readEvents JsNumber.ofNumeral .done [bytes.take size]).2 = none := by
  obtain ⟨bytes, encoded, delivered⟩ :=
    @events_delivered Nat JsNumber _ JsNumber.ofNumeral _ sampleFrames_proper (by decide +kernel)
  rw [delivered_sample] at delivered
  refine ⟨bytes, encoded, fun first second => (delivered _).1 ?_, fun size => ?_⟩
  · simp
  · refine ((delivered _).2 ?_ .done).2 rfl
    simp [List.take_prefix]

/-- A number of 54 bits. -/
def wideData : List (JString × Tree Nat) :=
  [(JString.ofString "n", .num 9007199254740993)]

theorem wideData_proper : ∀ sent ∈ [Sent.event "reading".toList (.ofNat 5) wideData],
    sent.Proper (fun value => Nat.toDigits 10 value) := by
  refine List.forall_mem_singleton.mpr ⟨by decide, by decide, ⟨1, .obj (by decide) ?_⟩, .obj ?_ ?_⟩
  · exact List.forall_mem_singleton.mpr (.num (by decide))
  · exact List.forall_mem_singleton.mpr (unicode_ofString _)
  · exact List.forall_mem_singleton.mpr (.num _)

/-- Not every number arrives as it was sent: one of 54 bits is rounded. -/
theorem not_every_number_delivered :
    (∃ bytes, encodeText (body (fun value => Nat.toDigits 10 value)
        [.event "reading".toList (.ofNat 5) wideData]) = some bytes ∧
      readEvents JsNumber.ofNumeral .done [bytes] =
        ([{ event := "reading".toList
            data := .obj [(JString.ofString "n", .num (.finite false 9007199254740992))] }],
          none)) ∧
    ¬ ∀ (name : List Char) (messageId : UUID) (data : List (JString × Tree Nat))
        (bytes : List UInt8),
      (∀ sent ∈ [Sent.event name messageId data], sent.Proper fun value => Nat.toDigits 10 value) →
      (body (fun value => Nat.toDigits 10 value)
        [.event name messageId data]).utf16Length ≤ 1000000 →
      encodeText (body (fun value => Nat.toDigits 10 value) [.event name messageId data]) =
        some bytes →
        readEvents JsNumber.ofNumeral .done [bytes] =
          ([{ event := name
              data := (Tree.obj data).map fun value : Nat => JsNumber.finite false value }],
            none) := by
  have small : (body (fun value => Nat.toDigits 10 value)
      [Sent.event "reading".toList (.ofNat 5) wideData]).utf16Length ≤ 1000000 := by decide +kernel
  have rounded : JsNumber.ofNumeral (Nat.toDigits 10 9007199254740993) =
      .finite false 9007199254740992 := by decide +kernel
  have encoded := (encodeText_body JsNumber.ofNumeral wideData_proper small).1
  have received := readEvents_whole JsNumber.ofNumeral wideData_proper small
    (List.flatten_singleton ..)
  have isReceived : [Sent.event "reading".toList (.ofNat 5) wideData].flatMap
      (Sent.delivered (fun value => Nat.toDigits 10 value) JsNumber.ofNumeral) =
        [{ event := "reading".toList
           data := .obj [(JString.ofString "n", .num (.finite false 9007199254740992))] }] := by
    rw [← rounded]
    rfl
  rw [isReceived] at received
  refine ⟨⟨_, encoded, received⟩, fun every => ?_⟩
  have same := received.symm.trans (every _ _ _ _ wideData_proper small encoded)
  simp only [wideData, JsonText.Tree.map, JsonText.Tree.mapFields, JsonText.Tree.mapField,
    Prod.mk.injEq, List.cons.injEq, LifecycleEvent.mk.injEq, Tree.obj.injEq, Tree.num.injEq,
    JsNumber.finite.injEq, true_and, and_true] at same
  exact absurd same (by decide +kernel)

end Docta.Sse
