/-
Module: Docta.Ingestion.DocumentParser
Purpose: Cutting the pages of a parsed document into overlapping chunks, what
  every chunk is, that no visible character is left out, and for which settings
  and pages consecutive chunks really overlap.
Trusted boundary: the digest of a chunk's content is a parameter
Main exports: ParsedDocument, ChunkSettings, buildChunks, PageChunks,
  chunking_loses_nothing, chunks_overlap_exactly
-/
import Docta.Ingestion.Worker
import Docta.Library.Cutting
import Docta.Library.Text
import Mathlib.Data.List.Forall2

namespace Docta

open Cutting

structure ParsedPage where
  number : Nat
  text : String
deriving DecidableEq, Repr

structure ParsedDocument where
  pages : List ParsedPage
  parserVersion : String
deriving DecidableEq, Repr

structure DocumentProcessingFailure where
  code : String
  state : FailureState
deriving DecidableEq, Repr

/-- The chunking fields of the settings, within the bounds they are read with. -/
structure ChunkSettings where
  sizeCharacters : Nat
  overlapCharacters : Nat
  size_min : 400 ≤ sizeCharacters
  size_max : sizeCharacters ≤ 8000
  overlap_max : overlapCharacters ≤ 1000
  overlap_lt_size : overlapCharacters < sizeCharacters

/-! ### `build_chunks` -/

section Build

variable (sizeCharacters overlapCharacters : Nat)

/-- The end of the chunk that starts at `start`: the last space of its second
half, if it does not reach the end of the page and there is one. -/
def chunkEnd (text : List Char) (start : Nat) : Nat :=
  let proposedEnd := min (start + sizeCharacters) text.length
  if proposedEnd < text.length then
    match Text.rfind ' ' text (start + sizeCharacters / 2) proposedEnd with
    | some breakAt => if start < breakAt then breakAt else proposedEnd
    | none => proposedEnd
  else proposedEnd

variable (sha256 : String → String)

/-- The chunks made so far, and the ordinal of the next one. -/
structure ChunkState where
  chunks : List ParsedChunk
  ordinal : Nat

/-- One chunk is appended, unless its span is blank. -/
def ChunkState.push (state : ChunkState) (page : Nat) (content : List Char) : ChunkState :=
  if content = [] then state
  else
    { chunks := state.chunks ++
        [{ page, ordinal := state.ordinal, content := String.ofList content,
           contentHash := sha256 (String.ofList content) }]
      ordinal := state.ordinal + 1 }

/-- The `while` loop over one page. It ends: each start is past the last. -/
def cutPage (page : ParsedPage) (start : Nat) (state : ChunkState) : ChunkState :=
  let text := page.text.toList
  if start < text.length then
    let stop := chunkEnd sizeCharacters text start
    let content := Text.stripChars (Text.slice text start stop)
    let state := state.push sha256 page.number content
    if text.length ≤ stop then state
    else cutPage page (max (stop - overlapCharacters) (start + 1)) state
  else state
termination_by page.text.toList.length - start
decreasing_by
  have later := le_max_right (stop - overlapCharacters) (start + 1)
  change text.length - max (stop - overlapCharacters) (start + 1) < text.length - start
  omega

def ocrRequired : DocumentProcessingFailure where
  code := "DOCUMENT_OCR_REQUIRED"
  state := .ocrRequired

def buildChunks (document : ParsedDocument) :
    Except DocumentProcessingFailure (List ParsedChunk) :=
  let state := document.pages.foldl
    (fun state page => cutPage sizeCharacters overlapCharacters sha256 page 0 state)
    { chunks := [], ordinal := 0 }
  if state.chunks = [] then .error ocrRequired else .ok state.chunks

end Build

/-! ### The spans of a page -/

section Spans

variable {sizeCharacters : Nat}

/-- Where a chunk ends: at the end proposed for it, or at a space before that,
in its second half. -/
theorem chunkEnd_cases (sizeCharacters : Nat) (text : List Char) (start : Nat) :
    chunkEnd sizeCharacters text start = min (start + sizeCharacters) text.length ∨
      (start + sizeCharacters < text.length ∧ start < chunkEnd sizeCharacters text start ∧
        Text.rfind ' ' text (start + sizeCharacters / 2) (start + sizeCharacters) =
          some (chunkEnd sizeCharacters text start)) := by
  dsimp only [chunkEnd]
  split
  case isTrue short =>
    have proposed : min (start + sizeCharacters) text.length = start + sizeCharacters := by omega
    rw [proposed] at short ⊢
    cases found : Text.rfind ' ' text (start + sizeCharacters / 2) (start + sizeCharacters) with
    | none => exact .inl rfl
    | some breakAt =>
        dsimp only
        split
        case isTrue after => exact .inr ⟨short, after, rfl⟩
        case isFalse => exact .inl rfl
  case isFalse => exact .inl rfl

theorem advancing_chunkEnd (positive : 0 < sizeCharacters) (text : List Char) :
    Advancing text.length (chunkEnd sizeCharacters text) := by
  have within (start : Nat) (inside : start < text.length) :
      start < chunkEnd sizeCharacters text start ∧
        chunkEnd sizeCharacters text start ≤ text.length := by
    rcases chunkEnd_cases sizeCharacters text start with proposed | ⟨short, after, found⟩
    · rw [proposed]
      omega
    · have bounds := Text.rfind_eq_some.mp found
      omega
  exact ⟨fun start inside => (within start inside).1, fun start inside => (within start inside).2⟩

theorem chunkEnd_le (text : List Char) (start : Nat) :
    chunkEnd sizeCharacters text start ≤ start + sizeCharacters := by
  rcases chunkEnd_cases sizeCharacters text start with proposed | ⟨short, after, found⟩
  · rw [proposed]
    exact min_le_left _ _
  · exact (Text.rfind_eq_some.mp found).2.1.le

/-- The spans the loop cuts from a page's text. -/
def spans (sizeCharacters overlapCharacters : Nat) (text : List Char) : List Span :=
  spansFrom text.length overlapCharacters (chunkEnd sizeCharacters text) 0

end Spans

/-! ### From the loop to its spans -/

/-- What the loop makes of a span: its text without white space at the ends. -/
def contentOf (text : List Char) (span : Span) : List Char :=
  Text.stripChars (Text.slice text span.start span.stop)

/-- The spans that are not blank. -/
def visibleSpans (sizeCharacters overlapCharacters : Nat) (text : List Char) : List Span :=
  (spans sizeCharacters overlapCharacters text).filter fun span => contentOf text span ≠ []

section Chunks

variable {sizeCharacters overlapCharacters : Nat} {sha256 : String → String}

/-- The loop pushes the content of every span, in order. -/
theorem cutPage_eq (page : ParsedPage) (start : Nat) (state : ChunkState) :
    cutPage sizeCharacters overlapCharacters sha256 page start state =
      (spansFrom page.text.toList.length overlapCharacters
        (chunkEnd sizeCharacters page.text.toList) start).foldl
          (fun state span => state.push sha256 page.number (contentOf page.text.toList span))
          state := by
  induction start using @loopInduction page.text.toList.length overlapCharacters
    (chunkEnd sizeCharacters page.text.toList) generalizing state with
  | atEnd start outside =>
      rw [spansFrom_of_end outside, cutPage]
      dsimp only
      rw [if_neg (Nat.not_lt.mpr outside)]
      rfl
  | atLast start inside last =>
      rw [spansFrom_of_last inside last, cutPage]
      dsimp only
      rw [if_pos inside, if_pos last]
      rfl
  | goesOn start inside more inductionHypothesis =>
      rw [spansFrom_of_more inside more, cutPage]
      dsimp only
      rw [if_pos inside, if_neg (Nat.not_le.mpr more)]
      exact inductionHypothesis _

/-- The chunk is the stripped slice of the span. -/
structure ParsedChunk.CutFrom (chunk : ParsedChunk) (sha256 : String → String) (page : ParsedPage)
    (span : Span) : Prop where
  page_eq : chunk.page = page.number
  content_eq : chunk.content.toList =
    Text.stripChars (Text.slice page.text.toList span.start span.stop)
  nonempty : chunk.content ≠ ""
  contentHash_eq : chunk.contentHash = sha256 chunk.content

/-- The chunks are numbered from zero, and the next ordinal is the next number. -/
def ChunkState.Numbered (state : ChunkState) : Prop :=
  state.ordinal = state.chunks.length ∧
    state.chunks.map (·.ordinal) = List.range state.chunks.length

theorem ChunkState.Numbered.push {state : ChunkState} (numbered : state.Numbered) (page : Nat)
    (content : List Char) : (state.push sha256 page content).Numbered := by
  rw [ChunkState.push]
  split
  · exact numbered
  · refine ⟨?_, ?_⟩
    · simp [numbered.1]
    · simp [numbered.1, numbered.2, List.range_succ]

/-- A push adds the chunk of its span, or nothing if the span is blank. -/
theorem ChunkState.push_chunks (state : ChunkState) (page : ParsedPage) (span : Span) :
    ∃ part : List ParsedChunk,
      (state.push sha256 page.number (contentOf page.text.toList span)).chunks =
        state.chunks ++ part ∧
      List.Forall₂ (fun chunk span => chunk.CutFrom sha256 page span) part
        ([span].filter fun span => contentOf page.text.toList span ≠ []) := by
  rw [ChunkState.push]
  split
  case isTrue blank =>
    rw [List.filter_cons_of_neg (by simpa using blank)]
    exact ⟨[], (List.append_nil _).symm, .nil⟩
  case isFalse visible =>
    rw [List.filter_cons_of_pos (by simpa using visible)]
    refine ⟨_, rfl, .cons ?_ .nil⟩
    exact
      { page_eq := rfl
        content_eq := String.toList_ofList
        nonempty := by simpa using visible
        contentHash_eq := rfl }

/-- The chunks pushed for a list of spans: one for each span that is not blank, in
order. -/
theorem foldl_push_chunks (page : ParsedPage) (cut : List Span) (state : ChunkState) :
    ∃ part : List ParsedChunk,
      (cut.foldl (fun state span =>
        state.push sha256 page.number (contentOf page.text.toList span)) state).chunks =
          state.chunks ++ part ∧
      List.Forall₂ (fun chunk span => chunk.CutFrom sha256 page span) part
        (cut.filter fun span => contentOf page.text.toList span ≠ []) := by
  induction cut generalizing state with
  | nil => exact ⟨[], (List.append_nil _).symm, .nil⟩
  | cons span cut inductionHypothesis =>
      rcases @ChunkState.push_chunks sha256 state page span with ⟨here, pushed, cutHere⟩
      rcases inductionHypothesis (state.push sha256 page.number (contentOf page.text.toList span))
        with ⟨rest, appended, cutRest⟩
      refine ⟨here ++ rest, ?_, ?_⟩
      · rw [List.foldl_cons, appended, pushed, List.append_assoc]
      · rw [← List.singleton_append, List.filter_append]
        exact List.rel_append cutHere cutRest

theorem numbered_foldl_push (page : ParsedPage) (cut : List Span) {state : ChunkState}
    (numbered : state.Numbered) :
    (cut.foldl (fun state span =>
      state.push sha256 page.number (contentOf page.text.toList span)) state).Numbered := by
  induction cut generalizing state with
  | nil => exact numbered
  | cons span cut inductionHypothesis => exact inductionHypothesis (numbered.push _ _)

/-! ### Nothing is lost -/

/-- What the chunks of one page are: the stripped slices of the spans the loop cuts, in
order and without the blank ones, and every visible character lies in the span of one. -/
structure PageChunks (sizeCharacters overlapCharacters : Nat) (sha256 : String → String)
    (page : ParsedPage) (chunks : List ParsedChunk) : Prop where
  cut : List.Forall₂ (fun chunk span => chunk.CutFrom sha256 page span) chunks
    (visibleSpans sizeCharacters overlapCharacters page.text.toList)
  page_eq : ∀ chunk ∈ chunks, chunk.page = page.number
  nonempty : ∀ chunk ∈ chunks, chunk.content ≠ ""
  trimmed : ∀ chunk ∈ chunks, (∀ char ∈ chunk.content.toList.head?, Text.isSpace char = false) ∧
    ∀ char ∈ chunk.content.toList.getLast?, Text.isSpace char = false
  short : ∀ chunk ∈ chunks, chunk.content.length ≤ sizeCharacters
  contiguous : ∀ chunk ∈ chunks, chunk.content.toList <:+: page.text.toList
  bounds : ∀ span ∈ visibleSpans sizeCharacters overlapCharacters page.text.toList,
    span.stop ≤ page.text.toList.length ∧ span.stop ≤ span.start + sizeCharacters
  covers : ∀ (position : Nat) (char : Char), page.text.toList[position]? = some char →
    Text.isSpace char = false →
      ∃ chunk span, (chunk, span) ∈
          chunks.zip (visibleSpans sizeCharacters overlapCharacters page.text.toList) ∧
        span.start ≤ position ∧ position < span.stop

/-- A span the loop cuts lies on the page and is no longer than a chunk may be. -/
theorem bounds_of_mem_spans (positive : 0 < sizeCharacters) {text : List Char} {span : Span}
    (member : span ∈ spans sizeCharacters overlapCharacters text) :
    span.stop ≤ text.length ∧ span.stop ≤ span.start + sizeCharacters := by
  have found := mem_spans_iff.mp member
  rw [found.2.2]
  exact ⟨(advancing_chunkEnd positive text).within span.start found.2.1, chunkEnd_le text span.start⟩

theorem contentOf_infix (text : List Char) (span : Span) : contentOf text span <:+: text :=
  (Text.stripChars_infix _).trans (Text.slice_infix text span.start span.stop)

theorem length_contentOf_le (text : List Char) (span : Span) :
    (contentOf text span).length ≤ span.stop - span.start :=
  (Text.stripChars_infix _).length_le.trans (Text.length_slice_le text span.start span.stop)

/-- Chunks cut from the visible spans of a page, in order, are that page's chunks. -/
theorem pageChunks_of_cutFrom (positive : 0 < sizeCharacters) {page : ParsedPage}
    {chunks : List ParsedChunk}
    (cut : List.Forall₂ (fun chunk span => chunk.CutFrom sha256 page span) chunks
      (visibleSpans sizeCharacters overlapCharacters page.text.toList)) :
    PageChunks sizeCharacters overlapCharacters sha256 page chunks := by
  have bounds : ∀ span ∈ visibleSpans sizeCharacters overlapCharacters page.text.toList,
      span.stop ≤ page.text.toList.length ∧ span.stop ≤ span.start + sizeCharacters :=
    fun span member => bounds_of_mem_spans positive (List.mem_of_mem_filter member)
  have cutFrom : ∀ chunk ∈ chunks,
      ∃ span ∈ visibleSpans sizeCharacters overlapCharacters page.text.toList,
        chunk.CutFrom sha256 page span := by
    intro chunk member
    rw [← List.map_fst_zip cut.length_eq.le] at member
    obtain ⟨pair, inZip, rfl⟩ := List.mem_map.mp member
    exact ⟨pair.2, (List.of_mem_zip inZip).2, List.forall₂_zip cut inZip⟩
  refine { cut, bounds, page_eq := ?_, nonempty := ?_, trimmed := ?_, short := ?_,
           contiguous := ?_, covers := ?_ }
  · intro chunk member
    rcases cutFrom chunk member with ⟨span, inSpans, from_⟩
    exact from_.page_eq
  · intro chunk member
    rcases cutFrom chunk member with ⟨span, inSpans, from_⟩
    exact from_.nonempty
  · intro chunk member
    rcases cutFrom chunk member with ⟨span, inSpans, from_⟩
    rw [from_.content_eq]
    exact ⟨Text.head?_stripChars _, Text.getLast?_stripChars _⟩
  · intro chunk member
    rcases cutFrom chunk member with ⟨span, inSpans, from_⟩
    have bound := (bounds span inSpans).2
    have length := length_contentOf_le page.text.toList span
    rw [contentOf, ← from_.content_eq, String.length_toList] at length
    omega
  · intro chunk member
    rcases cutFrom chunk member with ⟨span, inSpans, from_⟩
    rw [from_.content_eq]
    exact contentOf_infix page.text.toList span
  · intro position char here visible
    have inside : position < page.text.toList.length :=
      (List.getElem?_eq_some_iff.mp here).choose
    rcases @exists_span _ overlapCharacters _ (advancing_chunkEnd positive page.text.toList) 0
      position (Nat.zero_le position) inside with ⟨span, inSpans, after, before⟩
    have notBlank : contentOf page.text.toList span ≠ [] := by
      intro blank
      have space := Text.stripChars_eq_nil.mp blank char (Text.mem_slice here after before)
      exact absurd space (Bool.eq_false_iff.mp visible)
    have inVisible : span ∈ visibleSpans sizeCharacters overlapCharacters page.text.toList :=
      List.mem_filter.mpr ⟨inSpans, decide_eq_true notBlank⟩
    rw [← List.map_snd_zip cut.length_eq.ge] at inVisible
    obtain ⟨pair, inZip, rfl⟩ := List.mem_map.mp inVisible
    exact ⟨pair.1, pair.2, inZip, after, before⟩

/-- One page adds its own chunks, and goes on numbering. -/
theorem cutPage_spec (positive : 0 < sizeCharacters) (page : ParsedPage) {state : ChunkState}
    (numbered : state.Numbered) :
    (cutPage sizeCharacters overlapCharacters sha256 page 0 state).Numbered ∧
      ∃ part, (cutPage sizeCharacters overlapCharacters sha256 page 0 state).chunks =
        state.chunks ++ part ∧
          PageChunks sizeCharacters overlapCharacters sha256 page part := by
  rw [cutPage_eq]
  refine ⟨numbered_foldl_push page _ numbered, ?_⟩
  rcases @foldl_push_chunks sha256 page (spans sizeCharacters overlapCharacters page.text.toList)
    state with ⟨part, appended, cut⟩
  exact ⟨part, appended, pageChunks_of_cutFrom positive cut⟩

/-- The pages add their chunks one after the other. -/
theorem foldl_cutPage_spec (positive : 0 < sizeCharacters) (pages : List ParsedPage)
    {state : ChunkState} (numbered : state.Numbered) :
    (pages.foldl (fun state page => cutPage sizeCharacters overlapCharacters sha256 page 0 state)
      state).Numbered ∧
      ∃ parts, (pages.foldl
        (fun state page => cutPage sizeCharacters overlapCharacters sha256 page 0 state)
        state).chunks = state.chunks ++ parts.flatten ∧
          List.Forall₂ (PageChunks sizeCharacters overlapCharacters sha256) pages parts := by
  induction pages generalizing state with
  | nil => exact ⟨numbered, [], (List.append_nil _).symm, .nil⟩
  | cons page pages inductionHypothesis =>
      rcases @cutPage_spec sizeCharacters overlapCharacters sha256 positive page state numbered
        with ⟨stillNumbered, part, added, ofPage⟩
      rcases inductionHypothesis stillNumbered with ⟨atEnd, parts, appended, ofPages⟩
      refine ⟨atEnd, part :: parts, ?_, .cons ofPage ofPages⟩
      rw [List.foldl_cons, appended, added, List.flatten_cons, List.append_assoc]

/-- A page without a visible character has no chunks, any other page has one. -/
theorem PageChunks.eq_nil_iff {page : ParsedPage} {chunks : List ParsedChunk}
    (ofPage : PageChunks sizeCharacters overlapCharacters sha256 page chunks) :
    chunks = [] ↔ Text.isBlank page.text = true := by
  rw [Text.isBlank, List.all_eq_true]
  constructor
  · intro empty char member
    rcases List.getElem?_of_mem member with ⟨position, here⟩
    by_contra visible
    rcases ofPage.covers position char here (Bool.eq_false_iff.mpr visible)
      with ⟨chunk, span, inZip, _⟩
    have inChunks := (List.of_mem_zip inZip).1
    rw [empty] at inChunks
    cases inChunks
  · intro blank
    by_contra some
    rcases List.exists_mem_of_ne_nil chunks some with ⟨chunk, member⟩
    cases content : chunk.content.toList with
    | nil => exact ofPage.nonempty chunk member (String.toList_eq_nil_iff.mp content)
    | cons char rest =>
        have visible := (ofPage.trimmed chunk member).1 char (by rw [content]; rfl)
        have inPage : char ∈ page.text.toList :=
          (ofPage.contiguous chunk member).subset (by rw [content]; exact List.mem_cons_self)
        exact absurd (blank char inPage) (Bool.eq_false_iff.mp visible)

theorem flatten_eq_nil_iff {pages : List ParsedPage} {parts : List (List ParsedChunk)}
    (ofPages : List.Forall₂ (PageChunks sizeCharacters overlapCharacters sha256) pages parts) :
    parts.flatten = [] ↔ ∀ page ∈ pages, Text.isBlank page.text = true := by
  induction ofPages with
  | nil => exact ⟨fun _ => List.forall_mem_nil _, fun _ => rfl⟩
  | cons ofPage ofPages inductionHypothesis =>
      rw [List.flatten_cons, List.append_eq_nil_iff, inductionHypothesis, ofPage.eq_nil_iff,
        List.forall_mem_cons]

end Chunks

/-- Chunking a document loses nothing: on success the ordinals count the chunks
in page order, every page has its own chunks, the slices of the spans the loop cuts from
it, and each character of it that is not white space lies in the span of one; it fails
exactly for a document with no such character. -/
theorem chunking_loses_nothing (settings : ChunkSettings) (sha256 : String → String)
    (document : ParsedDocument) :
    (∀ chunks, buildChunks settings.sizeCharacters settings.overlapCharacters sha256 document =
        .ok chunks →
      chunks.map (·.ordinal) = List.range chunks.length ∧
        ∃ parts : List (List ParsedChunk), chunks = parts.flatten ∧
          List.Forall₂
            (PageChunks settings.sizeCharacters settings.overlapCharacters sha256)
            document.pages parts) ∧
    (buildChunks settings.sizeCharacters settings.overlapCharacters sha256 document =
        .error ocrRequired ↔
      ∀ page ∈ document.pages, ∀ char ∈ page.text.toList, Text.isSpace char = true) ∧
    (∀ failure, buildChunks settings.sizeCharacters settings.overlapCharacters sha256 document =
      .error failure → failure = ocrRequired) := by
  have positive : 0 < settings.sizeCharacters := by
    have bound := settings.size_min
    omega
  have fresh : ({ chunks := [], ordinal := 0 } : ChunkState).Numbered := ⟨rfl, rfl⟩
  rcases @foldl_cutPage_spec settings.sizeCharacters settings.overlapCharacters sha256 positive
    document.pages _ fresh with ⟨numbered, parts, whole, ofPages⟩
  rw [List.nil_append] at whole
  have blank : (∀ page ∈ document.pages, ∀ char ∈ page.text.toList, Text.isSpace char = true) ↔
      parts.flatten = [] := by
    rw [flatten_eq_nil_iff ofPages]
    simp only [Text.isBlank, List.all_eq_true]
  dsimp only [buildChunks]
  rw [blank, ← whole]
  refine ⟨?_, ?_, ?_⟩
  · intro chunks ok
    split at ok
    · cases ok
    · cases ok
      exact ⟨numbered.2, parts, whole, ofPages⟩
  · split
    case isTrue empty => exact ⟨fun _ => empty, fun _ => rfl⟩
    case isFalse nonempty =>
      exact ⟨fun impossible => (by cases impossible), fun empty => absurd empty nonempty⟩
  · intro failure failed
    split at failed
    · cases failed
      rfl
    · cases failed

/-! ### Overlap -/

section Overlap

variable {sizeCharacters overlapCharacters : Nat}

/-- At no start the loop comes to is the space it breaks the chunk at within the
overlap after that start. -/
def BreaksPastOverlap (sizeCharacters overlapCharacters : Nat) (text : List Char) : Prop :=
  ∀ start, Reached text.length overlapCharacters (chunkEnd sizeCharacters text) start →
    start + sizeCharacters < text.length →
      ∀ breakAt, Text.rfind ' ' text (start + sizeCharacters / 2) (start + sizeCharacters) =
        some breakAt → start + overlapCharacters < breakAt

theorem chunkEnd_of_break (halves : 2 ≤ sizeCharacters) {text : List Char} {start breakAt : Nat}
    (short : start + sizeCharacters < text.length)
    (found : Text.rfind ' ' text (start + sizeCharacters / 2) (start + sizeCharacters) =
      some breakAt) : chunkEnd sizeCharacters text start = breakAt := by
  have bounds := Text.rfind_eq_some.mp found
  have proposed : min (start + sizeCharacters) text.length = start + sizeCharacters := by omega
  dsimp only [chunkEnd]
  rw [proposed, if_pos short, found]
  dsimp only
  rw [if_pos (by omega)]

/-- A span that does not end the page is cut short by its break alone. -/
theorem neverShort_iff (halves : 2 ≤ sizeCharacters) (smaller : overlapCharacters < sizeCharacters)
    (text : List Char) :
    NeverShort text.length overlapCharacters (chunkEnd sizeCharacters text) ↔
      BreaksPastOverlap sizeCharacters overlapCharacters text := by
  constructor
  · intro neverShort start reached short breakAt found
    have ends := chunkEnd_of_break halves short found
    have bounds := Text.rfind_eq_some.mp found
    rw [← ends]
    apply neverShort start reached (by omega)
    rw [ends]
    omega
  · intro breaksPast start reached inside more
    rcases chunkEnd_cases sizeCharacters text start with proposed | ⟨short, after, found⟩
    · rw [proposed] at more ⊢
      omega
    · exact breaksPast start reached short _ found

/-- A page whose first chunk breaks at its middle. -/
def brokenAtMiddle (sizeCharacters : Nat) : List Char :=
  List.replicate (sizeCharacters / 2) 'a' ++ ' ' :: List.replicate sizeCharacters 'a'

/-- The only space of a text is the last one. -/
theorem rfind_replicate {front back low high : Nat} (fromLow : low ≤ front) (toHigh : front < high) :
    Text.rfind ' ' (List.replicate front 'a' ++ ' ' :: List.replicate back 'a') low high =
      some front := by
  refine Text.rfind_eq_some.mpr ⟨fromLow, toHigh, ?_, ?_⟩
  · rw [List.getElem?_append_right (by simp)]
    simp
  · intro later after before
    rw [List.getElem?_append_right (by simp; omega), List.length_replicate]
    rcases Nat.exists_eq_add_of_lt after with ⟨rest, position⟩
    have offset : later - front = rest + 1 := by omega
    rw [offset, List.getElem?_cons_succ]
    simp [List.getElem?_replicate]

theorem rfind_brokenAtMiddle (halves : 2 ≤ sizeCharacters) :
    Text.rfind ' ' (brokenAtMiddle sizeCharacters) (0 + sizeCharacters / 2) (0 + sizeCharacters) =
      some (sizeCharacters / 2) :=
  rfind_replicate (by omega) (by omega)

end Overlap

/-- When the spans of a page overlap as the settings ask: on one page exactly
when no chunk of it breaks within the overlap of its own start, and on every
page exactly when the overlap is less than half a chunk. -/
theorem chunks_overlap_exactly (settings : ChunkSettings) :
    (∀ text : List Char,
      Overlapping text.length settings.overlapCharacters
          (spans settings.sizeCharacters settings.overlapCharacters text) ↔
        BreaksPastOverlap settings.sizeCharacters settings.overlapCharacters text) ∧
    ((∀ text : List Char,
      Overlapping text.length settings.overlapCharacters
        (spans settings.sizeCharacters settings.overlapCharacters text)) ↔
      settings.overlapCharacters < settings.sizeCharacters / 2) := by
  have halves : 2 ≤ settings.sizeCharacters := by
    have bound := settings.size_min
    omega
  have onPage (text : List Char) :
      Overlapping text.length settings.overlapCharacters
          (spans settings.sizeCharacters settings.overlapCharacters text) ↔
        BreaksPastOverlap settings.sizeCharacters settings.overlapCharacters text :=
    (overlapping_iff (advancing_chunkEnd (by omega) text)).trans
      (neverShort_iff halves settings.overlap_lt_size text)
  refine ⟨onPage, ?_, ?_⟩
  · intro always
    have breaksPast := (onPage (brokenAtMiddle settings.sizeCharacters)).mp (always _)
    have found := breaksPast 0 .first (by simp [brokenAtMiddle]; omega) _
      (rfind_brokenAtMiddle halves)
    omega
  · intro lessThanHalf text
    apply (onPage text).mpr
    intro start reached short breakAt found
    have bounds := Text.rfind_eq_some.mp found
    omega

/-- An overlap of 300 characters in chunks of 400. -/
def wideOverlap : ChunkSettings where
  sizeCharacters := 400
  overlapCharacters := 300
  size_min := by decide
  size_max := by decide
  overlap_max := by decide
  overlap_lt_size := by decide

/-- A word of 250 characters, a space and a word of 400. -/
def longWords : List Char :=
  List.replicate 250 'a' ++ ' ' :: List.replicate 400 'a'

/-- The second chunk ends where the first one does. -/
theorem not_overlapping_longWords :
    ¬ Overlapping longWords.length wideOverlap.overlapCharacters
      (spans wideOverlap.sizeCharacters wideOverlap.overlapCharacters longWords) := by
  intro overlapping
  have length : longWords.length = 651 := by
    rw [longWords, List.length_append, List.length_cons, List.length_replicate,
      List.length_replicate]
  have first : chunkEnd 400 longWords 0 = 250 :=
    chunkEnd_of_break (by omega) (by omega) (rfind_replicate (by omega) (by omega))
  have second : chunkEnd 400 longWords 1 = 250 :=
    chunkEnd_of_break (by omega) (by omega) (rfind_replicate (by omega) (by omega))
  have next : nextStart 300 (chunkEnd 400 longWords) 0 = 1 := by
    rw [nextStart, first]
    rfl
  have ends := overlapping.ends_increase
  have more : chunkEnd 400 longWords 0 < longWords.length := by omega
  have later : (1 : Nat) < longWords.length := by omega
  change (spansFrom longWords.length 300 (chunkEnd 400 longWords) 0).IsChain _ at ends
  rw [spansFrom_of_more (by omega) more, next, spansFrom, if_pos later, first, second]
    at ends
  exact absurd (List.isChain_cons_cons.mp ends).1 (Nat.lt_irrefl 250)

end Docta
