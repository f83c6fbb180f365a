/-
Module: Docta.Contract.OpenUi
Purpose: The program that the web client generates for an intervention: one line
  of code whose strings stand in literals. No string can leave its literal.
Trusted boundary: how a finite number prints is a parameter
Main exports: CitationView, toOpenUiLang, TutorIntervention.strings, shape,
  program_not_injectable
-/
import Docta.Contract.WebContract
import Docta.Library.Literals

namespace Docta.Contract.Web

open Fallible JsonText Literals

/-! ### Literals and numbers -/

/-- A JavaScript number. -/
inductive JsNumber where
  | finite (value : Rat)
  | nan
  | infinity (negative : Bool)
deriving DecidableEq, Repr

/-- How finite numbers print: `String(value)`. -/
structure NumberFormat where
  text : Rat → List Char
  chars : ∀ value, ∀ char ∈ text value, isNumeralChar char = true

/-- `CitationView` -/
structure CitationView where
  chunkId : JString
  documentTitle : JString
  page : JsNumber
  pageEnd : JsNumber
  quote : JString
  fragment : JString
  documentVersionId : JString
deriving DecidableEq, Repr

/-- The message of a thrown `AdapterError`. -/
abbrev AdapterError := String

/-- `/[\u0000-\u0008\u000b-\u001f\u007f\u2028\u2029]/` -/
def isCleared (char : Char) : Bool :=
  decide (char.toNat ≤ 0x08) || (decide (0x0B ≤ char.toNat) && decide (char.toNat ≤ 0x1F)) ||
    char.toNat == 0x7F || char.toNat == 0x2028 || char.toNat == 0x2029

/-- The listed control characters become spaces. -/
def clean (text : JString) : JString :=
  text.map fun char =>
    match char with
    | .scalar value => if isCleared value = true then .scalar ' ' else .scalar value
    | .surrogate index => .surrogate index

/-- `lit(value)` in a template. -/
def lit (value : JString) : Piece :=
  .literal (clean value)

/-- Text of a template. -/
def code (text : String) : Piece :=
  .code (JString.ofString text)

section Program

variable (format : NumberFormat)

/-- `num(value)` in a template. -/
def num : JsNumber → Except AdapterError Piece
  | .finite value => .ok (.code ((format.text value).map .scalar))
  | .nan => .error "non-finite number"
  | .infinity _ => .error "non-finite number"

/-! ### The program -/

/-- `parts.join(", ")` -/
def joined (parts : List (List Piece)) : List Piece :=
  [code ", "].intercalate parts

def optionPieces (option : ActivityOption) : List Piece :=
  [code "\x7bid: ", lit option.id, code ", text: ", lit option.text, code "\x7d"]

def nodePieces (node : DiagramNode) : List Piece :=
  [code "\x7bid: ", lit node.id, code ", label: ", lit node.label, code "\x7d"]

def edgePieces (edge : DiagramEdge) : List Piece :=
  [code "\x7bsource: ", lit edge.source, code ", target: ", lit edge.target, code ", label: ",
    lit edge.label, code "\x7d"]

/-- `values[index]`: nothing outside the list. -/
def item {α : Type} (values : List α) (index : Int) : Option α :=
  if 0 ≤ index then values[index.toNat]? else none

/-- The citation and the view of an index, if there are both. -/
def resolve (citations : List InterventionCitation) (views : List CitationView) (index : Int) :
    Option (InterventionCitation × CitationView) :=
  match item citations index with
  | none => none
  | some cited => (views.find? fun view => view.chunkId = cited.chunkId).map fun view => (cited, view)

/-- The card of an index. -/
def cardPieces (citations : List InterventionCitation) (views : List CitationView) (index : Int) :
    Except AdapterError (List Piece) :=
  match resolve citations views index with
  | none => .error "missing citation view"
  | some (cited, view) => do
      let position ← num format (.finite (index + 1))
      let page ← num format view.page
      let pageEnd ← num format view.pageEnd
      return [code "SourceCard(", position, code ", ", lit view.documentTitle, code ", ", page,
        code ", ", pageEnd, code ", ", lit cited.quote, code ", ", lit view.fragment, code ")"]

/-- The component of a block. -/
def blockPieces (citations : List InterventionCitation) (views : List CitationView) :
    Block → Except AdapterError (List Piece)
  | .question text => .ok [code "GuidedQuestion(", lit text, code ")"]
  | .hint level text => do
      let level ← num format (.finite level)
      return [code "Hint(", level, code ", ", lit text, code ")"]
  | .explanation title text => .ok [code "Explanation(", lit title, code ", ", lit text, code ")"]
  | .activity question options correctOptionId hint explanation =>
      .ok ([code "Activity(", lit question, code ", ["] ++ joined (options.map optionPieces) ++
        [code "], ", lit correctOptionId, code ", ", lit hint, code ", ", lit explanation, code ")"])
  | .diagram kind title nodes edges =>
      .ok ([code "Diagram(", lit (JString.ofString kind.text), code ", ", lit title, code ", ["] ++
        joined (nodes.map nodePieces) ++ [code "], ["] ++ joined (edges.map edgePieces) ++
          [code "])"])
  | .sources citationIndexes => do
      let cards ← citationIndexes.mapM (cardPieces format citations views)
      return [code "Sources(["] ++ joined cards ++ [code "])"]

/-- The pieces of the program. -/
def programPieces (intervention : TutorIntervention) (views : List CitationView) :
    Except AdapterError (List Piece) := do
  let blocks ← intervention.blocks.mapM (blockPieces format intervention.citations views)
  return [code "root = TutorResponse(["] ++ joined blocks ++ [code "])"]

/-- `toOpenUiLang(intervention, citations)` -/
def toOpenUiLang (intervention : TutorIntervention) (views : List CitationView) :
    Except AdapterError JString := do
  let pieces ← programPieces format intervention views
  return render pieces

end Program

/-! ### What an intervention shows -/

/-- The strings of a block, in the order of its component's arguments. -/
def Block.strings (citations : List InterventionCitation) (views : List CitationView) :
    Block → List JString
  | .question text => [text]
  | .hint _ text => [text]
  | .explanation title text => [title, text]
  | .activity questionText options correctOptionId hintText explanationText =>
      questionText :: options.flatMap (fun option => [option.id, option.text]) ++
        [correctOptionId, hintText, explanationText]
  | .diagram kind title nodes edges =>
      JString.ofString kind.text :: title :: nodes.flatMap (fun node => [node.id, node.label]) ++
        edges.flatMap fun edge => [edge.source, edge.target, edge.label]
  | .sources citationIndexes =>
      (citationIndexes.filterMap (resolve citations views)).flatMap fun found =>
        [found.2.documentTitle, found.1.quote, found.2.fragment]

/-- The strings that a program shows. -/
def TutorIntervention.strings (intervention : TutorIntervention) (views : List CitationView) :
    List JString :=
  intervention.blocks.flatMap (Block.strings intervention.citations views)

/-- What is left of a block without its strings: its kind, the lengths of its
lists, its numbers, and the pages of the views that its indexes resolve to. -/
inductive BlockShape where
  | question
  | hint (level : Int)
  | explanation
  | activity (options : Nat)
  | diagram (nodes edges : Nat)
  | sources (cards : List (Int × Option (JsNumber × JsNumber)))
deriving DecidableEq, Repr

def Block.shape (citations : List InterventionCitation) (views : List CitationView) :
    Block → BlockShape
  | .question _ => .question
  | .hint level _ => .hint level
  | .explanation _ _ => .explanation
  | .activity _ options _ _ _ => .activity options.length
  | .diagram _ _ nodes edges => .diagram nodes.length edges.length
  | .sources citationIndexes =>
      .sources (citationIndexes.map fun index =>
        (index, (resolve citations views index).map fun found => (found.2.page, found.2.pageEnd)))

def TutorIntervention.shape (intervention : TutorIntervention) (views : List CitationView) :
    List BlockShape :=
  intervention.blocks.map (Block.shape intervention.citations views)

/-! ### The holes hold the strings -/

theorem literals_append (first second : List Piece) :
    literals (first ++ second) = literals first ++ literals second :=
  List.filterMap_append

theorem literals_joined (parts : List (List Piece)) :
    literals (joined parts) = parts.flatMap literals := by
  induction parts with
  | nil => rfl
  | cons part parts ih =>
      cases parts with
      | nil => simp [joined]
      | cons next parts =>
          rw [joined] at ih ⊢
          rw [List.intercalate_cons_cons, literals_append, literals_append, ih, List.flatMap_cons,
            List.append_assoc]
          rfl

section Holes

variable {format : NumberFormat} {citations : List InterventionCitation}
  {views : List CitationView}

theorem num_eq_ok {value : JsNumber} {piece : Piece} (ok : num format value = .ok piece) :
    ∃ number, value = .finite number ∧ piece = .code ((format.text number).map .scalar) := by
  cases value with
  | finite number =>
      cases ok
      exact ⟨number, rfl, rfl⟩
  | nan => cases ok
  | infinity negative => cases ok

/-- A card resolves its index and prints three numbers. -/
theorem cardPieces_eq_ok {index : Int} {pieces : List Piece}
    (ok : cardPieces format citations views index = .ok pieces) :
    ∃ cited view position page pageEnd, resolve citations views index = some (cited, view) ∧
      num format (.finite (index + 1)) = .ok position ∧ num format view.page = .ok page ∧
        num format view.pageEnd = .ok pageEnd ∧
      pieces = [code "SourceCard(", position, code ", ", lit view.documentTitle, code ", ", page,
        code ", ", pageEnd, code ", ", lit cited.quote, code ", ", lit view.fragment, code ")"] := by
  rw [cardPieces] at ok
  split at ok
  · cases ok
  · rename_i cited view found
    simp only [bind_eq_ok, pure_eq_ok] at ok
    obtain ⟨position, positionOk, page, pageOk, pageEnd, pageEndOk, rfl⟩ := ok
    exact ⟨cited, view, position, page, pageEnd, found, positionOk, pageOk, pageEndOk, rfl⟩

theorem literals_num {value : JsNumber} {piece : Piece} (ok : num format value = .ok piece)
    (rest : List Piece) : literals (piece :: rest) = literals rest := by
  obtain ⟨number, rfl, rfl⟩ := num_eq_ok ok
  rfl

theorem literals_code (text : String) (rest : List Piece) :
    literals (code text :: rest) = literals rest := rfl

theorem literals_lit (value : JString) (rest : List Piece) :
    literals (lit value :: rest) = clean value :: literals rest := rfl

theorem literals_nil : literals [] = [] := rfl

/-- The cards hold the strings of what the indexes resolve to. -/
theorem literals_cards {indexes : List Int} {cards : List (List Piece)}
    (ok : indexes.mapM (cardPieces format citations views) = .ok cards) :
    cards.flatMap literals = ((indexes.filterMap (resolve citations views)).flatMap fun found =>
      [found.2.documentTitle, found.1.quote, found.2.fragment]).map clean := by
  induction indexes generalizing cards with
  | nil =>
      cases ok
      rfl
  | cons index indexes ih =>
      simp only [List.mapM_cons, bind_eq_ok, pure_eq_ok] at ok
      obtain ⟨card, cardOk, others, othersOk, rfl⟩ := ok
      obtain ⟨cited, view, position, page, pageEnd, found, positionOk, pageOk, pageEndOk, rfl⟩ :=
        cardPieces_eq_ok cardOk
      rw [List.flatMap_cons, ih othersOk, List.filterMap_cons_some found, List.flatMap_cons,
        List.map_append]
      simp only [literals_code, literals_num positionOk, literals_num pageOk,
        literals_num pageEndOk, literals_lit, literals_nil, List.map_cons, List.map_nil]

/-- The holes of a block's component hold its strings. -/
theorem literals_blockPieces {block : Block} {pieces : List Piece}
    (ok : blockPieces format citations views block = .ok pieces) :
    literals pieces = (block.strings citations views).map clean := by
  cases block with
  | question text =>
      cases ok
      rfl
  | hint level text =>
      simp only [blockPieces, bind_eq_ok, pure_eq_ok] at ok
      obtain ⟨number, numberOk, rfl⟩ := ok
      simp only [literals_code, literals_num numberOk, literals_lit, literals_nil]
      rfl
  | explanation title text =>
      cases ok
      rfl
  | activity question options correctOptionId hint explanation =>
      cases ok
      have each : (options.map optionPieces).flatMap literals =
          (options.flatMap fun option => [option.id, option.text]).map clean := by
        rw [List.flatMap_map, List.map_flatMap]
        rfl
      rw [literals_append, literals_append, literals_joined, each, Block.strings, List.map_append]
      rfl
  | diagram kind title nodes edges =>
      cases ok
      have eachNode : (nodes.map nodePieces).flatMap literals =
          (nodes.flatMap fun node => [node.id, node.label]).map clean := by
        rw [List.flatMap_map, List.map_flatMap]
        rfl
      have eachEdge : (edges.map edgePieces).flatMap literals =
          (edges.flatMap fun edge => [edge.source, edge.target, edge.label]).map clean := by
        rw [List.flatMap_map, List.map_flatMap]
        rfl
      simp only [literals_append, literals_joined, eachNode, eachEdge, literals_code, literals_lit,
        literals_nil, Block.strings, List.map_append, List.map_cons, List.append_nil,
        List.cons_append, List.nil_append]
  | sources citationIndexes =>
      simp only [blockPieces, bind_eq_ok, pure_eq_ok] at ok
      obtain ⟨cards, cardsOk, rfl⟩ := ok
      rw [literals_append, literals_append, literals_joined, literals_cards cardsOk]
      simp only [literals_code, literals_nil, List.nil_append, List.append_nil]
      rfl

/-- The holes of a program hold the strings of its intervention. -/
theorem literals_programPieces {intervention : TutorIntervention} {pieces : List Piece}
    (ok : programPieces format intervention views = .ok pieces) :
    literals pieces = (intervention.strings views).map clean := by
  simp only [programPieces, bind_eq_ok, pure_eq_ok] at ok
  obtain ⟨blocks, blocksOk, rfl⟩ := ok
  rw [literals_append, literals_append, literals_joined, TutorIntervention.strings]
  simp only [literals_code, literals_nil, List.nil_append, List.append_nil]
  generalize intervention.blocks = source at blocksOk
  induction source generalizing blocks with
  | nil =>
      cases blocksOk
      rfl
  | cons block source ih =>
      simp only [List.mapM_cons, bind_eq_ok, pure_eq_ok] at blocksOk
      obtain ⟨first, firstOk, others, othersOk, rfl⟩ := blocksOk
      rw [List.flatMap_cons, literals_blockPieces firstOk, ih _ othersOk, List.flatMap_cons,
        List.map_append]

end Holes

/-! ### The code is inert -/

/-- A character that ends no line. -/
def LineSafe : JChar → Prop
  | .scalar char => char ≠ '\n' ∧ char ≠ '\r' ∧ char.toNat ≠ 0x2028 ∧ char.toNat ≠ 0x2029
  | .surrogate _ => True

instance : DecidablePred LineSafe
  | .scalar _ => inferInstanceAs (Decidable (_ ∧ _ ∧ _ ∧ _))
  | .surrogate _ => inferInstanceAs (Decidable True)

/-- The code opens no literal and ends no line. -/
def Inert (pieces : List Piece) : Prop :=
  ∀ text, .code text ∈ pieces → ∀ char ∈ text, char ≠ .scalar '"' ∧ LineSafe char

theorem inert_nil : Inert [] := by
  intro text member
  cases member

theorem inert_code {text : JString} (safe : ∀ char ∈ text, char ≠ .scalar '"' ∧ LineSafe char)
    {rest : List Piece} (others : Inert rest) : Inert (.code text :: rest) := by
  intro other member
  rcases List.mem_cons.mp member with same | later
  · cases same
    exact safe
  · exact others other later

theorem inert_lit (value : JString) {rest : List Piece} (others : Inert rest) :
    Inert (lit value :: rest) := by
  intro other member
  rcases List.mem_cons.mp member with same | later
  · cases same
  · exact others other later

theorem inert_append {first second : List Piece} (firstInert : Inert first)
    (secondInert : Inert second) : Inert (first ++ second) := by
  intro text member
  rcases List.mem_append.mp member with inFirst | inSecond
  · exact firstInert text inFirst
  · exact secondInert text inSecond

theorem inert_joined {parts : List (List Piece)} (each : ∀ part ∈ parts, Inert part) :
    Inert (joined parts) := by
  induction parts with
  | nil => exact inert_nil
  | cons part parts ih =>
      obtain ⟨first, others⟩ := List.forall_mem_cons.mp each
      cases parts with
      | nil => simpa [joined] using first
      | cons next parts =>
          have later := ih others
          rw [joined] at later ⊢
          rw [List.intercalate_cons_cons]
          exact inert_append (inert_append first (inert_code (by decide) inert_nil)) later

section Inertness

variable {format : NumberFormat} {citations : List InterventionCitation}
  {views : List CitationView}

theorem inert_num {value : JsNumber} {piece : Piece} (ok : num format value = .ok piece)
    {rest : List Piece} (others : Inert rest) : Inert (piece :: rest) := by
  obtain ⟨number, rfl, rfl⟩ := num_eq_ok ok
  refine inert_code (fun char member => ?_) others
  obtain ⟨digit, isDigit, rfl⟩ := List.mem_map.mp member
  have isNumeral := format.chars number digit isDigit
  have plain := plain_of_isNumeralChar isNumeral
  refine ⟨?_, ?_, ?_, ?_, ?_⟩
  · rintro same
    rw [JChar.scalar.inj same] at isNumeral
    exact absurd isNumeral (by decide)
  · rintro rfl
    exact absurd plain (by decide)
  · rintro rfl
    exact absurd plain (by decide)
  · intro same
    have isChar : digit = Char.ofNat 0x2028 := by rw [← same, Char.ofNat_toNat]
    rw [isChar] at isNumeral
    exact absurd isNumeral (by decide)
  · intro same
    have isChar : digit = Char.ofNat 0x2029 := by rw [← same, Char.ofNat_toNat]
    rw [isChar] at isNumeral
    exact absurd isNumeral (by decide)

theorem inert_cardPieces {index : Int} {pieces : List Piece}
    (ok : cardPieces format citations views index = .ok pieces) : Inert pieces := by
  obtain ⟨cited, view, position, page, pageEnd, _, positionOk, pageOk, pageEndOk, rfl⟩ :=
    cardPieces_eq_ok ok
  apply inert_code (by decide)
  apply inert_num positionOk
  apply inert_code (by decide)
  apply inert_lit
  apply inert_code (by decide)
  apply inert_num pageOk
  apply inert_code (by decide)
  apply inert_num pageEndOk
  apply inert_code (by decide)
  apply inert_lit
  apply inert_code (by decide)
  apply inert_lit
  exact inert_code (by decide) inert_nil

theorem inert_optionPieces (option : ActivityOption) : Inert (optionPieces option) := by
  apply inert_code (by decide)
  apply inert_lit
  apply inert_code (by decide)
  apply inert_lit
  exact inert_code (by decide) inert_nil

theorem inert_nodePieces (node : DiagramNode) : Inert (nodePieces node) := by
  apply inert_code (by decide)
  apply inert_lit
  apply inert_code (by decide)
  apply inert_lit
  exact inert_code (by decide) inert_nil

theorem inert_edgePieces (edge : DiagramEdge) : Inert (edgePieces edge) := by
  apply inert_code (by decide)
  apply inert_lit
  apply inert_code (by decide)
  apply inert_lit
  apply inert_code (by decide)
  apply inert_lit
  exact inert_code (by decide) inert_nil

/-- What every element of a list makes is what every part is. -/
theorem inert_map {α : Type} {items : List α} {pieces : α → List Piece}
    (each : ∀ item, Inert (pieces item)) : Inert (joined (items.map pieces)) := by
  apply inert_joined
  intro part member
  obtain ⟨item, _, rfl⟩ := List.mem_map.mp member
  exact each item

theorem inert_blockPieces {block : Block} {pieces : List Piece}
    (ok : blockPieces format citations views block = .ok pieces) : Inert pieces := by
  cases block with
  | question text =>
      cases ok
      apply inert_code (by decide)
      apply inert_lit
      exact inert_code (by decide) inert_nil
  | hint level text =>
      simp only [blockPieces, bind_eq_ok, pure_eq_ok] at ok
      obtain ⟨number, numberOk, rfl⟩ := ok
      apply inert_code (by decide)
      apply inert_num numberOk
      apply inert_code (by decide)
      apply inert_lit
      exact inert_code (by decide) inert_nil
  | explanation title text =>
      cases ok
      apply inert_code (by decide)
      apply inert_lit
      apply inert_code (by decide)
      apply inert_lit
      exact inert_code (by decide) inert_nil
  | activity question options correctOptionId hint explanation =>
      cases ok
      apply inert_append
      · apply inert_append
        · apply inert_code (by decide)
          apply inert_lit
          exact inert_code (by decide) inert_nil
        · exact inert_map inert_optionPieces
      · apply inert_code (by decide)
        apply inert_lit
        apply inert_code (by decide)
        apply inert_lit
        apply inert_code (by decide)
        apply inert_lit
        exact inert_code (by decide) inert_nil
  | diagram kind title nodes edges =>
      cases ok
      have closing : Inert [code "])"] := inert_code (by decide) inert_nil
      have between : Inert [code "], ["] := inert_code (by decide) inert_nil
      apply inert_append _ closing
      apply inert_append _ (inert_map inert_edgePieces)
      apply inert_append _ between
      apply inert_append _ (inert_map inert_nodePieces)
      apply inert_code (by decide)
      apply inert_lit
      apply inert_code (by decide)
      apply inert_lit
      exact inert_code (by decide) inert_nil
  | sources citationIndexes =>
      simp only [blockPieces, bind_eq_ok, pure_eq_ok] at ok
      obtain ⟨cards, cardsOk, rfl⟩ := ok
      have closing : Inert [code "])"] := inert_code (by decide) inert_nil
      apply inert_append _ closing
      apply inert_append (inert_code (by decide) inert_nil)
      apply inert_joined
      intro part member
      obtain ⟨index, _, indexOk⟩ := exists_item_of_mapM_ok cardsOk member
      exact inert_cardPieces indexOk

theorem inert_programPieces {intervention : TutorIntervention} {pieces : List Piece}
    (ok : programPieces format intervention views = .ok pieces) : Inert pieces := by
  simp only [programPieces, bind_eq_ok, pure_eq_ok] at ok
  obtain ⟨blocks, blocksOk, rfl⟩ := ok
  have closing : Inert [code "])"] := inert_code (by decide) inert_nil
  apply inert_append _ closing
  apply inert_append (inert_code (by decide) inert_nil)
  apply inert_joined
  intro part member
  obtain ⟨block, _, blockOk⟩ := exists_item_of_mapM_ok blocksOk member
  exact inert_blockPieces blockOk

end Inertness

/-! ### The skeleton is the shape's -/

/-- The skeleton of some pieces. -/
def outline (pieces : List Piece) : List (Option JChar) :=
  pieces.flatMap Piece.skeleton

theorem outline_append (first second : List Piece) :
    outline (first ++ second) = outline first ++ outline second :=
  List.flatMap_append

theorem outline_joined (parts : List (List Piece)) :
    outline (joined parts) = (outline [code ", "]).intercalate (parts.map outline) := by
  induction parts with
  | nil => rfl
  | cons part parts ih =>
      cases parts with
      | nil => simp [joined]
      | cons next parts =>
          rw [joined] at ih ⊢
          rw [List.intercalate_cons_cons, outline_append, outline_append, ih]
          simp only [List.map_cons, List.intercalate_cons_cons]

/-- Lists of one length make one outline, when their elements do. -/
theorem outline_map {α : Type} {first second : List α} {pieces : α → List Piece}
    (each : ∀ item other, outline (pieces item) = outline (pieces other))
    (same : first.length = second.length) :
    outline (joined (first.map pieces)) = outline (joined (second.map pieces)) := by
  have sameParts : first.map (fun item => outline (pieces item)) =
      second.map fun item => outline (pieces item) := by
    induction first generalizing second with
    | nil => rw [List.length_eq_zero_iff.mp same.symm]
    | cons item first ih =>
        cases second with
        | nil => cases same
        | cons other second =>
            rw [List.map_cons, List.map_cons, each item other, ih (Nat.succ.inj same)]
  rw [outline_joined, outline_joined, List.map_map, List.map_map]
  exact congrArg _ sameParts

section Outlines

variable {format : NumberFormat} {citations citations' : List InterventionCitation}
  {views views' : List CitationView}

/-- Cards of one index and one pair of pages have one outline. -/
theorem outline_cardPieces {index : Int} {pieces pieces' : List Piece}
    (ok : cardPieces format citations views index = .ok pieces)
    (ok' : cardPieces format citations' views' index = .ok pieces')
    (same : ((resolve citations views index).map fun found => (found.2.page, found.2.pageEnd)) =
      (resolve citations' views' index).map fun found => (found.2.page, found.2.pageEnd)) :
    outline pieces = outline pieces' := by
  obtain ⟨cited, view, position, page, pageEnd, found, positionOk, pageOk, pageEndOk, rfl⟩ :=
    cardPieces_eq_ok ok
  obtain ⟨cited', view', position', page', pageEnd', found', positionOk', pageOk', pageEndOk', rfl⟩ :=
    cardPieces_eq_ok ok'
  rw [found, found'] at same
  obtain ⟨samePage, samePageEnd⟩ := Prod.mk.inj (Option.some.inj same)
  rw [positionOk] at positionOk'
  rw [← samePage, pageOk] at pageOk'
  rw [← samePageEnd, pageEndOk] at pageEndOk'
  cases positionOk'
  cases pageOk'
  cases pageEndOk'
  rfl

theorem outlines_cards {indexes indexes' : List Int} {cards cards' : List (List Piece)}
    (ok : indexes.mapM (cardPieces format citations views) = .ok cards)
    (ok' : indexes'.mapM (cardPieces format citations' views') = .ok cards')
    (same : (indexes.map fun index => (index, (resolve citations views index).map fun found =>
        (found.2.page, found.2.pageEnd))) =
      indexes'.map fun index => (index, (resolve citations' views' index).map fun found =>
        (found.2.page, found.2.pageEnd))) :
    cards.map outline = cards'.map outline := by
  induction indexes generalizing indexes' cards cards' with
  | nil =>
      rw [List.map_nil] at same
      rw [List.map_eq_nil_iff.mp same.symm] at ok'
      cases ok
      cases ok'
      rfl
  | cons index indexes ih =>
      cases indexes' with
      | nil => cases same
      | cons index' indexes' =>
          rw [List.map_cons, List.map_cons, List.cons.injEq] at same
          obtain ⟨sameIndex, samePages⟩ := Prod.mk.inj same.1
          subst sameIndex
          simp only [List.mapM_cons, bind_eq_ok, pure_eq_ok] at ok ok'
          obtain ⟨card, cardOk, others, othersOk, rfl⟩ := ok
          obtain ⟨card', cardOk', others', othersOk', rfl⟩ := ok'
          rw [List.map_cons, List.map_cons, outline_cardPieces cardOk cardOk' samePages,
            ih othersOk othersOk' same.2]

/-- Blocks of one shape have one outline. -/
theorem outline_blockPieces {block block' : Block} {pieces pieces' : List Piece}
    (ok : blockPieces format citations views block = .ok pieces)
    (ok' : blockPieces format citations' views' block' = .ok pieces')
    (same : block.shape citations views = block'.shape citations' views') :
    outline pieces = outline pieces' := by
  cases block with
  | question text =>
      cases block' <;> cases same
      cases ok
      cases ok'
      rfl
  | hint level text =>
      cases block' <;> cases same
      simp only [blockPieces, bind_eq_ok, pure_eq_ok] at ok ok'
      obtain ⟨number, numberOk, rfl⟩ := ok
      obtain ⟨number', numberOk', rfl⟩ := ok'
      rw [numberOk] at numberOk'
      cases numberOk'
      rfl
  | explanation title text =>
      cases block' <;> cases same
      cases ok
      cases ok'
      rfl
  | activity question options correctOptionId hint explanation =>
      cases block' with
      | activity question' options' correctOptionId' hint' explanation' =>
          cases ok
          cases ok'
          have sameLength : options.length = options'.length := BlockShape.activity.inj same
          rw [outline_append, outline_append, outline_append, outline_append,
            outline_map (fun _ _ => rfl) sameLength]
          rfl
      | _ => cases same
  | diagram kind title nodes edges =>
      cases block' with
      | diagram kind' title' nodes' edges' =>
          cases ok
          cases ok'
          obtain ⟨sameNodes, sameEdges⟩ := BlockShape.diagram.inj same
          rw [outline_append, outline_append, outline_append, outline_append, outline_append,
            outline_append, outline_append, outline_append,
            outline_map (fun _ _ => rfl) sameNodes, outline_map (fun _ _ => rfl) sameEdges]
          rfl
      | _ => cases same
  | sources citationIndexes =>
      cases block' with
      | sources citationIndexes' =>
          simp only [blockPieces, bind_eq_ok, pure_eq_ok] at ok ok'
          obtain ⟨cards, cardsOk, rfl⟩ := ok
          obtain ⟨cards', cardsOk', rfl⟩ := ok'
          have sameCards := outlines_cards cardsOk cardsOk' (BlockShape.sources.inj same)
          rw [outline_append, outline_append, outline_append, outline_append, outline_joined,
            outline_joined, sameCards]
      | _ => cases same

theorem outlines_blocks {blocks blocks' : List Block} {parts parts' : List (List Piece)}
    (ok : blocks.mapM (blockPieces format citations views) = .ok parts)
    (ok' : blocks'.mapM (blockPieces format citations' views') = .ok parts')
    (same : blocks.map (Block.shape citations views) = blocks'.map (Block.shape citations' views')) :
    parts.map outline = parts'.map outline := by
  induction blocks generalizing blocks' parts parts' with
  | nil =>
      rw [List.map_nil] at same
      rw [List.map_eq_nil_iff.mp same.symm] at ok'
      cases ok
      cases ok'
      rfl
  | cons block blocks ih =>
      cases blocks' with
      | nil => cases same
      | cons block' blocks' =>
          rw [List.map_cons, List.map_cons, List.cons.injEq] at same
          simp only [List.mapM_cons, bind_eq_ok, pure_eq_ok] at ok ok'
          obtain ⟨part, partOk, others, othersOk, rfl⟩ := ok
          obtain ⟨part', partOk', others', othersOk', rfl⟩ := ok'
          rw [List.map_cons, List.map_cons, outline_blockPieces partOk partOk' same.1,
            ih othersOk othersOk' same.2]

/-- Interventions of one shape make programs of one outline. -/
theorem outline_programPieces {intervention intervention' : TutorIntervention}
    {pieces pieces' : List Piece} (ok : programPieces format intervention views = .ok pieces)
    (ok' : programPieces format intervention' views' = .ok pieces')
    (same : intervention.shape views = intervention'.shape views') :
    outline pieces = outline pieces' := by
  simp only [programPieces, bind_eq_ok, pure_eq_ok] at ok ok'
  obtain ⟨parts, partsOk, rfl⟩ := ok
  obtain ⟨parts', partsOk', rfl⟩ := ok'
  have sameParts := outlines_blocks partsOk partsOk' same
  rw [outline_append, outline_append, outline_append, outline_append, outline_joined,
    outline_joined, sameParts]

end Outlines

/-! ### The program cannot be injected into -/

/-- A character is written as it is or with ASCII characters. -/
theorem mem_escape {char : Char} {written : JChar} (member : written ∈ escape (.scalar char)) :
    written = .scalar char ∨ ∃ value, written = .scalar value ∧ value.toNat < 128 := by
  have letters : ∀ letter other, shortForm other = some letter → letter.toNat < 128 := by
    intro letter other short
    simp only [shortForm, List.lookup_cons, List.lookup_nil] at short
    repeat' split at short
    all_goals cases short
    all_goals decide
  have digits : ∀ digit < 16, (hexChar digit).toNat < 128 := by decide
  rw [escape] at member
  split at member
  · rename_i letter short
    rcases List.mem_pair.mp member with rfl | rfl
    · exact .inr ⟨'\\', rfl, by decide⟩
    · exact .inr ⟨letter, rfl, letters letter char short⟩
  · split at member
    · rename_i isControl
      have small : char.toNat < 32 := of_decide_eq_true isControl
      simp only [List.mem_cons, List.not_mem_nil, or_false] at member
      rcases member with rfl | rfl | rfl | rfl | rfl | rfl
      · exact .inr ⟨'\\', rfl, by decide⟩
      · exact .inr ⟨'u', rfl, by decide⟩
      · exact .inr ⟨'0', rfl, by decide⟩
      · exact .inr ⟨'0', rfl, by decide⟩
      · exact .inr ⟨_, rfl, digits _ (by omega)⟩
      · exact .inr ⟨_, rfl, digits _ (by omega)⟩
    · exact .inl (List.mem_singleton.mp member)

theorem lineSafe_escape {char : Char} (kept : isCleared char = false) :
    ∀ written ∈ escape (.scalar char), LineSafe written := by
  intro written member
  obtain ⟨value, rfl, plain⟩ := plain_escape char written member
  have noBreak : value ≠ '\n' ∧ value ≠ '\r' := by
    constructor
    · rintro rfl
      exact absurd plain (by decide)
    · rintro rfl
      exact absurd plain (by decide)
  refine ⟨noBreak.1, noBreak.2, ?_⟩
  rcases mem_escape member with same | ⟨other, same, ascii⟩
  · cases same
    simp only [isCleared, Bool.or_eq_false_iff, beq_eq_false_iff_ne] at kept
    exact ⟨kept.1.2, kept.2⟩
  · cases same
    omega

/-- A cleaned character that is quoted ends no line. -/
theorem lineSafe_quoted {text : JString} {char : JChar} (member : char ∈ clean text) :
    ∀ written ∈ quoteChar char, LineSafe written := by
  have hex : ∀ digit < 16, LineSafe (.scalar (hexChar digit)) := by decide
  obtain ⟨source, _, rfl⟩ := List.mem_map.mp member
  cases source with
  | surrogate index =>
      intro written inQuoted
      simp only [quoteChar, unitEscape, List.map_cons, List.map_nil, List.mem_cons,
        List.not_mem_nil, or_false] at inQuoted
      rcases inQuoted with rfl | rfl | rfl | rfl | rfl | rfl
      · decide
      · decide
      · exact hex _ (Nat.mod_lt _ (by decide))
      · exact hex _ (Nat.mod_lt _ (by decide))
      · exact hex _ (Nat.mod_lt _ (by decide))
      · exact hex _ (Nat.mod_lt _ (by decide))
  | scalar value =>
      simp only
      split
      · exact lineSafe_escape (by decide : isCleared ' ' = false)
      · rename_i kept
        exact lineSafe_escape (Bool.eq_false_iff.mpr kept)

/-- Cleaning keeps a string a string. -/
theorem canonical_clean {text : JString} (canonical : Canonical text) : Canonical (clean text) := by
  induction text with
  | nil => trivial
  | cons char text ih =>
      have later := ih canonical.tail
      cases char with
      | scalar value =>
          have isCons : clean (.scalar value :: text) =
              (if isCleared value = true then .scalar ' ' else .scalar value) :: clean text := rfl
          rw [isCons]
          split
          · exact later
          · exact later
      | surrogate high =>
          cases text with
          | nil => trivial
          | cons next text =>
              cases next with
              | surrogate low => exact ⟨canonical.1, later⟩
              | scalar value =>
                  have isCons : clean (.surrogate high :: .scalar value :: text) =
                      .surrogate high ::
                        (if isCleared value = true then .scalar ' ' else .scalar value) ::
                          clean text := rfl
                  have isRest : clean (.scalar value :: text) =
                      (if isCleared value = true then .scalar ' ' else .scalar value) ::
                        clean text := rfl
                  rw [isRest] at later
                  rw [isCons]
                  split
                  · rename_i cleared
                    rw [if_pos cleared] at later
                    exact later
                  · rename_i kept
                    rw [if_neg kept] at later
                    exact later

/-- A string without the listed characters is kept. -/
theorem clean_eq_self {text : JString}
    (kept : ∀ char, .scalar char ∈ text → isCleared char = false) : clean text = text := by
  induction text with
  | nil => rfl
  | cons char text ih =>
      have later := ih fun other member => kept other (List.mem_cons_of_mem _ member)
      rw [clean] at later ⊢
      rw [List.map_cons, later]
      cases char with
      | surrogate index => rfl
      | scalar value =>
          have isKept := kept value List.mem_cons_self
          simp only [isKept, Bool.false_eq_true, if_false]

section Program

variable {format : NumberFormat} {intervention : TutorIntervention} {views : List CitationView}
  {program : JString}

theorem toOpenUiLang_eq_ok (ok : toOpenUiLang format intervention views = .ok program) :
    ∃ pieces, programPieces format intervention views = .ok pieces ∧ program = render pieces := by
  simp only [toOpenUiLang, bind_eq_ok, pure_eq_ok] at ok
  obtain ⟨pieces, piecesOk, rfl⟩ := ok
  exact ⟨pieces, piecesOk, rfl⟩

theorem lineSafe_program (ok : toOpenUiLang format intervention views = .ok program) :
    ∀ char ∈ program, LineSafe char := by
  obtain ⟨pieces, piecesOk, rfl⟩ := toOpenUiLang_eq_ok ok
  refine forall_mem_render (by decide : LineSafe (.scalar '"')) ?_ ?_
  · intro text member char inText
    exact (inert_programPieces piecesOk text member char inText).2
  · intro text member char inText
    rw [literals_programPieces piecesOk] at member
    obtain ⟨source, _, rfl⟩ := List.mem_map.mp member
    exact lineSafe_quoted inText

/-- The lexer finds the outline of the program and the strings of its intervention. -/
theorem lex_program (ok : toOpenUiLang format intervention views = .ok program) :
    ∃ pieces tokens, programPieces format intervention views = .ok pieces ∧
      lex program = some tokens ∧ skeleton tokens = outline pieces ∧
        ((∀ text ∈ intervention.strings views, Canonical text) →
          Literals.strings tokens = (intervention.strings views).map clean) := by
  obtain ⟨pieces, piecesOk, rfl⟩ := toOpenUiLang_eq_ok ok
  have unquoted : Unquoted pieces := fun text member inText =>
    (inert_programPieces piecesOk text member _ inText).1 rfl
  obtain ⟨tokens, lexed, isSkeleton, sameStrings⟩ := lex_render unquoted
  refine ⟨pieces, tokens, piecesOk, lexed, isSkeleton, fun canonical => ?_⟩
  rw [literals_programPieces piecesOk] at sameStrings
  apply sameStrings
  intro text member
  obtain ⟨source, isSource, rfl⟩ := List.mem_map.mp member
  exact canonical_clean (canonical source isSource)

end Program

/-- The generated program is one line; the lexer finds the strings of the
intervention in its literals, cleaned and in order; and what stands outside the
literals depends on the shape alone. -/
theorem program_not_injectable (format : NumberFormat) :
    (∀ (intervention : TutorIntervention) (views : List CitationView) (program : JString),
      toOpenUiLang format intervention views = .ok program →
        (∀ char ∈ program, LineSafe char) ∧
        ((∀ text ∈ intervention.strings views, Canonical text) →
          ∃ tokens, lex program = some tokens ∧
            Literals.strings tokens = (intervention.strings views).map clean)) ∧
    (∀ (intervention intervention' : TutorIntervention) (views views' : List CitationView)
      (program program' : JString),
      toOpenUiLang format intervention views = .ok program →
      toOpenUiLang format intervention' views' = .ok program' →
      intervention.shape views = intervention'.shape views' →
        ∃ tokens tokens', lex program = some tokens ∧ lex program' = some tokens' ∧
          skeleton tokens = skeleton tokens') ∧
    ∀ text : JString, (∀ char, .scalar char ∈ text → isCleared char = false) → clean text = text := by
  refine ⟨?_, ?_, fun text kept => clean_eq_self kept⟩
  · intro intervention views program ok
    obtain ⟨pieces, tokens, _, lexed, _, sameStrings⟩ := lex_program ok
    exact ⟨lineSafe_program ok, fun canonical => ⟨tokens, lexed, sameStrings canonical⟩⟩
  · intro intervention intervention' views views' program program' ok ok' same
    obtain ⟨pieces, tokens, piecesOk, lexed, isSkeleton, _⟩ := lex_program ok
    obtain ⟨pieces', tokens', piecesOk', lexed', isSkeleton', _⟩ := lex_program ok'
    refine ⟨tokens, tokens', lexed, lexed', ?_⟩
    rw [isSkeleton, isSkeleton', outline_programPieces piecesOk piecesOk' same]

/-- Whole numbers in decimal, their sign left out. -/
def sampleFormat : NumberFormat where
  text := fun value => Nat.toDigits 10 value.num.natAbs
  chars := by
    intro value char member
    have digit := Nat.isDigit_of_mem_toDigits (by decide) (by decide) member
    have isDigit : JsonText.isDigit char = true := by
      simp only [Char.isDigit, Bool.and_eq_true, decide_eq_true_eq] at digit
      simp only [JsonText.isDigit, Bool.and_eq_true, decide_eq_true_eq]
      exact digit
    exact isNumeralChar_of_isDigit isDigit

/-- An intervention that asks one question. -/
def questionIntervention (text : JString) : TutorIntervention where
  version := .v2
  situation := .blocked
  blocks := [.question text]
  citations := []
  grounded := false

/-- A question that tries to close its component and open another one. -/
def hostileText : JString :=
  JString.ofString "x\") , Evil(\"y\"\n root = Evil(\"z\") \\ \t \u0001" ++ [.surrogate 7]

theorem program_not_injectable_of_hostile :
    ∃ program program' tokens tokens',
      toOpenUiLang sampleFormat (questionIntervention hostileText) [] = .ok program ∧
      toOpenUiLang sampleFormat (questionIntervention []) [] = .ok program' ∧
      (∀ char ∈ program, LineSafe char) ∧ lex program = some tokens ∧ lex program' = some tokens' ∧
        Literals.strings tokens = [clean hostileText] ∧ skeleton tokens = skeleton tokens' := by
  obtain ⟨single, shaped, _⟩ := program_not_injectable sampleFormat
  have ok (text : JString) : toOpenUiLang sampleFormat (questionIntervention text) [] =
      .ok (render ([code "root = TutorResponse(["] ++
        joined [[code "GuidedQuestion(", lit text, code ")"]] ++ [code "])"])) := rfl
  have canonical : Canonical hostileText := Canonical.scalars _ trivial
  obtain ⟨safe, literals⟩ := single _ _ _ (ok hostileText)
  obtain ⟨tokens, lexed, sameStrings⟩ := literals (List.forall_mem_singleton.mpr canonical)
  obtain ⟨found, tokens', lexedAgain, lexed', sameSkeleton⟩ :=
    shaped _ _ _ _ _ _ (ok hostileText) (ok []) rfl
  rw [lexed] at lexedAgain
  cases lexedAgain
  exact ⟨_, _, tokens, tokens', ok hostileText, ok [], safe, lexed, lexed', sameStrings, sameSkeleton⟩

end Docta.Contract.Web
