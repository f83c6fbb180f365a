/-
Module: Docta.Dev.Profile
Purpose: The profile file: the line-wise edit of its variables, and what an edit
  does to the key lines and the quoted comments of a text.
Trusted boundary: none
Main exports: environmentText, Line, render, Mark, Legible, Edit, apply_render
-/
import Docta.Library.Fields
import Docta.Library.Quoted
import Docta.Library.Text

namespace Docta.Dev

open Text Quoted

/-! ### The edit -/

/-- A line that `(?m)^(?:export )?KEY=` matches at its start. -/
def assigns (key line : List Char) : Bool :=
  (key ++ ['=']).isPrefixOf line || ("export ".toList ++ key ++ ['=']).isPrefixOf line

/-- The lines without those that assign the key. The last one has no line break of
its own, and leaves an empty line behind. -/
def dropAssignments (key : List Char) : List (List Char) → List (List Char)
  | [] => []
  | [last] => if assigns key last then [[]] else [last]
  | line :: next :: rest =>
      if assigns key line then dropAssignments key (next :: rest)
      else line :: dropAssignments key (next :: rest)

/-- `re.sub(rf"(?m)^(?:export )?{re.escape(key)}=.*\n?", "", text)` -/
def removeKey (text key : List Char) : List Char :=
  ['\n'].intercalate (dropAssignments key (text.splitOn '\n'))

/-- The quoted literal of a value. -/
def literal (value : List Char) : List Char :=
  '\'' :: replace '\'' ['\\', '\''] (replace '\\' ['\\', '\\'] value) ++ ['\'']

/-- `f"{key}={literal}"` -/
def assignment (key value : List Char) : List Char :=
  key ++ '=' :: literal value

/-- `text.rstrip()` -/
def rstrip (text : List Char) : List Char :=
  (text.reverse.dropWhile isSpace).reverse

/-- Every line that assigns the key is replaced; without one, a line is added. -/
def writeKey (text : List Char) (entry : List Char × List Char) : List Char :=
  let lines := text.splitOn '\n'
  if lines.any (assigns entry.1) then
    ['\n'].intercalate
      (lines.map fun line => if assigns entry.1 line then assignment entry.1 entry.2 else line)
  else rstrip text ++ '\n' :: assignment entry.1 entry.2 ++ ['\n']

/-- `environment_text(text, values, remove=...)` -/
def environmentText (text : List Char) (values : List (List Char × List Char))
    (remove : List (List Char)) : List Char :=
  values.foldl writeKey (remove.foldl removeKey text)

/-! ### Lines -/

/-- A text within one line. -/
structure Inline where
  text : List Char
  single : ∀ char ∈ text, char ≠ '\n' ∧ char ≠ '\r'
deriving DecidableEq

/-- White space within one line. -/
structure Blank extends Inline where
  blank : ∀ char ∈ text, isSpace char = true
deriving DecidableEq

/-- The name of a variable. -/
structure Key where
  name : List Char
  plain : ∀ char ∈ name, char ≠ '=' ∧ char ≠ '#' ∧ isSpace char = false
  named : name ≠ []
  bare : name.head? ≠ some '\''
deriving DecidableEq

/-- A line of a profile: white space, a comment, or a variable as the edit writes it. -/
inductive Line where
  | blank (spaces : Blank)
  | comment (indent : Blank) (body : Inline)
  | entry (key : Key) (value : Inline)
deriving DecidableEq

/-- The text of a line. -/
def Line.text : Line → List Char
  | .blank spaces => spaces.text
  | .comment indent body => indent.text ++ '#' :: body.text
  | .entry key value => assignment key.name value.text

/-- The text of lines. -/
def render (lines : List Line) : List Char :=
  ['\n'].intercalate (lines.map Line.text)

/-- What of a line can meet a quoted value: a variable, or a quote in a comment. -/
inductive Mark where
  | entry (key : Key) (value : Inline)
  | quote
deriving DecidableEq

/-- The mark of a line. -/
def Line.mark? : Line → Option Mark
  | .blank _ => none
  | .comment _ body => if '\'' ∈ body.text then some .quote else none
  | .entry key value => some (.entry key value)

/-- The marks of lines. -/
def marks (lines : List Line) : List Mark :=
  lines.filterMap Line.mark?

/-- A value that ends in a backslash. -/
def Mark.Open : Mark → Prop
  | .entry _ value => value.text.getLast? = some '\\'
  | .quote => False

instance : DecidablePred Mark.Open
  | .entry _ value => inferInstanceAs (Decidable (value.text.getLast? = some '\\'))
  | .quote => inferInstanceAs (Decidable False)

/-- No value ends in a backslash, other than one after which no quote follows. -/
def Legible (marks : List Mark) : Prop :=
  ∀ mark ∈ marks.dropLast, ¬ mark.Open

instance (marks : List Mark) : Decidable (Legible marks) :=
  inferInstanceAs (Decidable (∀ mark ∈ marks.dropLast, ¬ mark.Open))

/-! ### An edit of marks -/

/-- The values and the keys to remove of one call. -/
structure Edit where
  values : List (Key × Inline)
  distinct : (values.map (·.1)).Nodup
  remove : List Key

namespace Edit

variable (edit : Edit)

/-- The text the call returns. -/
def apply (text : List Char) : List Char :=
  environmentText text (edit.values.map fun entry => (entry.1.name, entry.2.text))
    (edit.remove.map (·.name))

end Edit

/-- The key of a mark. -/
def Mark.key? : Mark → Option Key
  | .entry key _ => some key
  | .quote => none

/-- The keys of marks. -/
def keys (marks : List Mark) : List Key :=
  marks.filterMap Mark.key?

/-- Whether a mark stays when keys are removed. -/
def Mark.kept (removed : List Key) : Mark → Bool
  | .entry key _ => key ∉ removed
  | .quote => true

/-- The mark with the value that `values` gives its key. -/
def Mark.rewrite (values : List (Key × Inline)) : Mark → Mark
  | .entry key old => .entry key ((values.lookup key).getD old)
  | .quote => .quote

/-- The marks after values were written: those that are there, with their new
values, and then the keys that had no line. -/
def rewritten (values : List (Key × Inline)) (before : List Mark) : List Mark :=
  before.map (Mark.rewrite values) ++
    (values.filter fun entry => entry.1 ∉ keys before).map fun entry => .entry entry.1 entry.2

/-- The marks after a call. -/
def Edit.marks (edit : Edit) (before : List Mark) : List Mark :=
  rewritten edit.values (before.filter (Mark.kept edit.remove))

/-! ### Which lines an edit meets -/

theorem Key.name_injective {key other : Key} (same : key.name = other.name) : key = other := by
  cases key
  cases other
  cases same
  rfl

theorem Key.not_mem_name (key : Key) {char : Char}
    (special : char = '=' ∨ char = '#' ∨ isSpace char = true) : char ∉ key.name := by
  intro member
  have plain := key.plain char member
  rcases special with rfl | rfl | space
  · exact plain.1 rfl
  · exact plain.2.1 rfl
  · rw [plain.2.2] at space
    cases space

/-- A text that begins with a character no name holds assigns no key. -/
theorem assigns_of_head (key : Key) {char : Char} {rest : List Char}
    (special : char = '=' ∨ char = '#' ∨ isSpace char = true) :
    assigns key.name (char :: rest) = false := by
  obtain ⟨first, more, isName⟩ := List.exists_cons_of_ne_nil key.named
  have other : first ≠ char := by
    rintro rfl
    apply key.not_mem_name special
    rw [isName]
    exact List.mem_cons_self
  have notE : 'e' ≠ char := by
    rintro rfl
    revert special
    decide
  have isExport : "export ".toList = 'e' :: "xport ".toList := by decide +kernel
  rw [assigns, isName, isExport]
  simp only [List.cons_append, List.isPrefixOf_cons_cons, beq_eq_false_iff_ne.mpr other,
    beq_eq_false_iff_ne.mpr notE, Bool.false_and, Bool.or_self]

theorem assigns_blank (key : Key) (spaces : Blank) : assigns key.name spaces.text = false := by
  cases isText : spaces.text with
  | nil =>
      obtain ⟨first, more, isName⟩ := List.exists_cons_of_ne_nil key.named
      rw [assigns, isName]
      rfl
  | cons char rest =>
      apply assigns_of_head
      right; right
      apply spaces.blank
      rw [isText]
      exact List.mem_cons_self

theorem assigns_comment (key : Key) (indent : Blank) (body : List Char) :
    assigns key.name (indent.text ++ '#' :: body) = false := by
  cases isText : indent.text with
  | nil => exact assigns_of_head key (.inr (.inl rfl))
  | cons char rest =>
      apply assigns_of_head
      right; right
      apply indent.blank
      rw [isText]
      exact List.mem_cons_self

theorem assigns_assignment (key other : Key) (value : List Char) :
    assigns key.name (assignment other.name value) = decide (key = other) := by
  rw [assigns, assignment, Bool.eq_iff_iff, Bool.or_eq_true, List.isPrefixOf_iff_prefix,
    List.isPrefixOf_iff_prefix, decide_eq_true_iff]
  constructor
  · rintro (⟨rest, same⟩ | ⟨rest, same⟩)
    · rw [List.append_assoc] at same
      apply Key.name_injective
      exact (Fields.cutFirst_unique (key.not_mem_name (.inl rfl)) (other.not_mem_name (.inl rfl))
        same).1
    · rw [List.append_assoc] at same
      have front : '=' ∉ "export ".toList ++ key.name := by
        rw [List.mem_append, not_or]
        exact ⟨by decide, key.not_mem_name (.inl rfl)⟩
      have isName := (Fields.cutFirst_unique front (other.not_mem_name (.inl rfl)) same).1
      have space : ' ' ∈ other.name := by
        rw [← isName, List.mem_append]
        exact .inl (by decide)
      exact absurd space (other.not_mem_name (.inr (.inr (by decide))))
  · rintro rfl
    exact .inl ⟨literal value, by rw [List.append_assoc]; rfl⟩

/-- The key of a line. -/
def Line.key? : Line → Option Key
  | .entry key _ => some key
  | _ => none

theorem assigns_line (key : Key) (line : Line) :
    assigns key.name line.text = decide (line.key? = some key) := by
  cases line with
  | blank spaces => rw [Line.text, assigns_blank]; rfl
  | comment indent body => rw [Line.text, assigns_comment]; rfl
  | entry other value =>
      rw [Line.text, assigns_assignment, Line.key?, decide_eq_decide, Option.some.injEq, eq_comm]

/-! ### The edit on lines -/

theorem literal_eq (value : List Char) :
    literal value = '\'' :: (written '\\' '\'' value ++ ['\'']) := by
  rw [literal, replace_replace (by decide)]
  rfl

theorem assignment_eq (key value : List Char) :
    assignment key value = key ++ '=' :: '\'' :: (written '\\' '\'' value ++ ['\'']) := by
  rw [assignment, literal_eq]

theorem single_text (line : Line) : ∀ char ∈ line.text, char ≠ '\n' ∧ char ≠ '\r' := by
  cases line with
  | blank spaces => exact spaces.single
  | comment indent body =>
      intro char member
      rcases List.mem_append.mp member with member | member
      · exact indent.single char member
      · rcases List.mem_cons.mp member with rfl | member
        · decide
        · exact body.single char member
  | entry key value =>
      rw [Line.text, assignment_eq]
      intro char member
      rcases List.mem_append.mp member with member | member
      · constructor
        · rintro rfl
          exact key.not_mem_name (.inr (.inr (by decide))) member
        · rintro rfl
          exact key.not_mem_name (.inr (.inr (by decide))) member
      · rw [List.mem_cons, List.mem_cons, List.mem_append, List.mem_singleton] at member
        rcases member with rfl | rfl | member | rfl
        · decide
        · decide
        · rcases mem_written member with rfl | member
          · decide
          · exact value.single char member
        · decide

theorem splitOn_render {lines : List Line} (some_ : lines ≠ []) :
    (render lines).splitOn '\n' = lines.map Line.text := by
  apply List.splitOn_intercalate
  · intro text member
    obtain ⟨line, _, rfl⟩ := List.mem_map.mp member
    exact fun broken => (single_text line _ broken).1 rfl
  · intro empty
    exact some_ (List.map_eq_nil_iff.mp empty)

theorem single_nil : ∀ char ∈ ([] : List Char), char ≠ '\n' ∧ char ≠ '\r' :=
  fun _ member => absurd member List.not_mem_nil

theorem blank_nil : ∀ char ∈ ([] : List Char), isSpace char = true :=
  fun _ member => absurd member List.not_mem_nil

/-- An empty line. -/
def emptyLine : Line :=
  .blank { text := [], single := single_nil, blank := blank_nil }

/-- The lines without those of the key. -/
def dropLines (key : Key) : List Line → List Line
  | [] => []
  | [last] => if last.key? = some key then [emptyLine] else [last]
  | line :: next :: rest =>
      if line.key? = some key then dropLines key (next :: rest)
      else line :: dropLines key (next :: rest)

theorem dropAssignments_map (key : Key) (lines : List Line) :
    dropAssignments key.name (lines.map Line.text) = (dropLines key lines).map Line.text := by
  fun_induction dropLines key lines with
  | case1 => rfl
  | case2 last isKey =>
      simp only [List.map_cons, List.map_nil, dropAssignments, assigns_line, isKey,
        decide_true, if_true]
      rfl
  | case3 last other =>
      simp only [List.map_cons, List.map_nil, dropAssignments, assigns_line, other,
        decide_false, if_false, Bool.false_eq_true]
  | case4 line next rest isKey ih =>
      rw [← ih]
      simp only [List.map_cons, dropAssignments, assigns_line, isKey, decide_true, if_true]
  | case5 line next rest other ih =>
      rw [List.map_cons] at ih
      simp only [List.map_cons, dropAssignments, assigns_line, other, decide_false, if_false,
        Bool.false_eq_true, ih]

theorem dropLines_ne_nil (key : Key) {lines : List Line} (some_ : lines ≠ []) :
    dropLines key lines ≠ [] := by
  fun_induction dropLines key lines with
  | case1 => exact some_
  | case2 => exact List.cons_ne_nil _ _
  | case3 => exact List.cons_ne_nil _ _
  | case4 line next rest isKey ih => exact ih (List.cons_ne_nil _ _)
  | case5 => exact List.cons_ne_nil _ _

theorem removeKey_render (key : Key) {lines : List Line} (some_ : lines ≠ []) :
    removeKey (render lines) key.name = render (dropLines key lines) := by
  rw [removeKey, splitOn_render some_, dropAssignments_map]
  rfl

/-- The line with a new value, if it is one of the key. -/
def Line.set (key : Key) (value : Inline) : Line → Line
  | .entry other old => if other = key then .entry key value else .entry other old
  | line => line

theorem text_set (key : Key) (value : Inline) (line : Line) :
    (line.set key value).text =
      if assigns key.name line.text then assignment key.name value.text else line.text := by
  rw [assigns_line]
  cases line with
  | blank spaces => rfl
  | comment indent body => rfl
  | entry other old =>
      by_cases same : other = key
      · subst same
        simp only [Line.set, Line.key?, if_true, decide_true]
        rfl
      · simp only [Line.set, Line.key?, same, Option.some.injEq, decide_false, if_false,
          Bool.false_eq_true]

/-! ### The end of a text -/

theorem rstrip_append_blank (text : List Char) {spaces : List Char}
    (blank : ∀ char ∈ spaces, isSpace char = true) : rstrip (text ++ spaces) = rstrip text := by
  rw [rstrip, List.reverse_append, List.dropWhile_append_of_pos, ← rstrip]
  intro char member
  exact blank char (List.mem_reverse.mp member)

theorem rstrip_append (front : List Char) {text : List Char} {char : Char} (member : char ∈ text)
    (visible : isSpace char = false) : rstrip (front ++ text) = front ++ rstrip text := by
  rw [rstrip, List.reverse_append, List.dropWhile_append, rstrip]
  split
  · rename_i empty
    rw [List.isEmpty_iff, List.dropWhile_eq_nil_iff] at empty
    rw [empty char (List.mem_reverse.mpr member)] at visible
    cases visible
  · rw [List.reverse_append, List.reverse_reverse]

/-- The white space at the end of a line goes. -/
def Line.trimmed : Line → Line
  | .blank _ => emptyLine
  | .comment indent body => .comment indent {
      text := rstrip body.text
      single := fun char member => body.single char (by
        rw [rstrip, List.mem_reverse] at member
        exact List.mem_reverse.mp ((List.dropWhile_sublist _).subset member)) }
  | .entry key value => .entry key value

/-- A line of white space. -/
def Line.isBlank : Line → Bool
  | .blank _ => true
  | _ => false

/-- The lines without the white space at their end. -/
def trim : List Line → List Line
  | [] => [emptyLine]
  | line :: rest => if rest.all Line.isBlank then [line.trimmed] else line :: trim rest

theorem rstrip_blank {text : List Char} (blank : ∀ char ∈ text, isSpace char = true) :
    rstrip text = [] := by
  have stripped := rstrip_append_blank [] blank
  exact stripped

theorem rstrip_cons {char : Char} (visible : isSpace char = false) (text : List Char) :
    rstrip (char :: text) = char :: rstrip text := by
  by_cases blank : ∀ other ∈ text, isSpace other = true
  · have stripped := rstrip_append_blank [char] blank
    rw [List.singleton_append] at stripped
    rw [stripped, rstrip_blank blank, rstrip, List.reverse_singleton, List.dropWhile_cons_of_neg]
    · rfl
    · rw [visible]
      exact Bool.false_ne_true
  · obtain ⟨other, shown⟩ := not_forall.mp blank
    obtain ⟨member, seen⟩ := Classical.not_imp.mp shown
    exact rstrip_append [char] member (Bool.eq_false_iff.mpr seen)

theorem text_trimmed (line : Line) : line.trimmed.text = rstrip line.text := by
  cases line with
  | blank spaces => exact (rstrip_blank spaces.blank).symm
  | comment indent body =>
      rw [Line.text, rstrip_append indent.text List.mem_cons_self (by decide),
        rstrip_cons (by decide)]
      rfl
  | entry key value =>
      have ends : (Line.entry key value).text =
          (key.name ++ '=' :: '\'' :: written '\\' '\'' value.text) ++ ['\''] := by
        rw [Line.text, assignment_eq, List.append_assoc]
        rfl
      rw [ends, rstrip_append _ List.mem_cons_self (by decide), rstrip_cons (by decide), Line.trimmed,
        ends]
      rfl

theorem render_cons (line : Line) {rest : List Line} (some_ : rest ≠ []) :
    render (line :: rest) = line.text ++ '\n' :: render rest := by
  cases rest with
  | nil => exact absurd rfl some_
  | cons next rest =>
      rw [render, List.map_cons, List.map_cons, List.intercalate_cons_cons, List.append_assoc]
      rfl

theorem render_singleton (line : Line) : render [line] = line.text :=
  List.intercalate_singleton

theorem trim_ne_nil (lines : List Line) : trim lines ≠ [] := by
  cases lines with
  | nil => exact List.cons_ne_nil _ _
  | cons line rest =>
      rw [trim]
      split <;> exact List.cons_ne_nil _ _

theorem isSpace_of_blank {lines : List Line} (blank : lines.all Line.isBlank = true) :
    ∀ char ∈ render lines, isSpace char = true := by
  induction lines with
  | nil => exact nofun
  | cons line rest ih =>
      rw [List.all_cons, Bool.and_eq_true] at blank
      have spaces : ∀ char ∈ line.text, isSpace char = true := by
        cases line with
        | blank spaces => exact spaces.blank
        | comment indent body => cases blank.1
        | entry key value => cases blank.1
      by_cases some_ : rest = []
      · subst some_
        rw [render_singleton]
        exact spaces
      · rw [render_cons line some_]
        intro char member
        rcases List.mem_append.mp member with member | member
        · exact spaces char member
        · rcases List.mem_cons.mp member with rfl | member
          · rfl
          · exact ih blank.2 char member

theorem visible_of_not_blank {lines : List Line} (visible : lines.all Line.isBlank = false) :
    ∃ char ∈ render lines, isSpace char = false := by
  induction lines with
  | nil => cases visible
  | cons line rest ih =>
      have shown : (∃ char ∈ line.text, isSpace char = false) ∨ rest.all Line.isBlank = false := by
        cases line with
        | blank spaces =>
            rw [List.all_cons] at visible
            exact .inr visible
        | comment indent body =>
            refine .inl ⟨'#', List.mem_append_right _ List.mem_cons_self, rfl⟩
        | entry key value =>
            refine .inl ⟨'=', List.mem_append_right _ List.mem_cons_self, rfl⟩
      by_cases some_ : rest = []
      · subst some_
        rw [render_singleton]
        rcases shown with shown | shown
        · exact shown
        · cases shown
      · rw [render_cons line some_]
        rcases shown with ⟨char, member, seen⟩ | shown
        · exact ⟨char, List.mem_append_left _ member, seen⟩
        · obtain ⟨char, member, seen⟩ := ih shown
          exact ⟨char, List.mem_append_right _ (List.mem_cons_of_mem _ member), seen⟩

theorem render_trim (lines : List Line) : render (trim lines) = rstrip (render lines) := by
  induction lines with
  | nil => rfl
  | cons line rest ih =>
      rw [trim]
      by_cases some_ : rest = []
      · subst some_
        rw [List.all_nil, if_pos rfl, render_singleton, render_singleton, text_trimmed]
      · rw [render_cons line some_]
        split
        · rename_i blank
          rw [render_singleton, text_trimmed, rstrip_append_blank]
          intro char member
          rcases List.mem_cons.mp member with rfl | member
          · rfl
          · exact isSpace_of_blank blank char member
        · rename_i visible
          obtain ⟨char, member, seen⟩ := visible_of_not_blank (Bool.eq_false_iff.mpr visible)
          rw [render_cons line (trim_ne_nil rest), ih]
          have kept := rstrip_append (line.text ++ ['\n']) member seen
          rw [List.append_assoc, List.append_assoc] at kept
          exact kept.symm

/-- The lines after a key was written. -/
def writeLines (lines : List Line) (key : Key) (value : Inline) : List Line :=
  if lines.any fun line => line.key? = some key then lines.map (Line.set key value)
  else trim lines ++ [.entry key value, emptyLine]

theorem render_append {front back : List Line} (some_ : front ≠ []) (some' : back ≠ []) :
    render (front ++ back) = render front ++ '\n' :: render back := by
  induction front with
  | nil => exact absurd rfl some_
  | cons line front ih =>
      by_cases more : front = []
      · subst more
        rw [List.cons_append, List.nil_append, render_cons line some', render_singleton]
      · rw [List.cons_append, render_cons line more,
          render_cons line (List.append_ne_nil_of_left_ne_nil more back), ih more, List.append_assoc]
        rfl

theorem writeKey_render (key : Key) (value : Inline) {lines : List Line} (some_ : lines ≠ []) :
    writeKey (render lines) (key.name, value.text) = render (writeLines lines key value) := by
  have same : (lines.map Line.text).any (assigns key.name) =
      lines.any fun line => line.key? = some key := by
    rw [List.any_map]
    congr 1
    funext line
    exact assigns_line key line
  simp only [writeKey, splitOn_render some_, same, writeLines]
  split
  · rw [render, List.map_map, List.map_map]
    congr 1
    apply List.map_congr_left
    intro line _
    exact (text_set key value line).symm
  · rw [render_append (trim_ne_nil lines) (List.cons_ne_nil _ _), render_trim,
      render_cons _ (List.cons_ne_nil _ _), render_singleton, List.append_assoc]
    rfl

theorem writeLines_ne_nil (key : Key) (value : Inline) {lines : List Line} (some_ : lines ≠ []) :
    writeLines lines key value ≠ [] := by
  rw [writeLines]
  split
  · intro empty
    exact some_ (List.map_eq_nil_iff.mp empty)
  · exact List.append_ne_nil_of_left_ne_nil (trim_ne_nil lines) _

/-! ### The edit on marks -/

theorem marks_cons (line : Line) (rest : List Line) :
    marks (line :: rest) = line.mark?.toList ++ marks rest := by
  rw [marks, List.filterMap_cons]
  cases line.mark? <;> rfl

theorem marks_append (front back : List Line) : marks (front ++ back) = marks front ++ marks back :=
  List.filterMap_append

/-- Marks without those of the key. -/
def dropMarks (key : Key) (marks : List Mark) : List Mark :=
  marks.filter fun mark => mark.key? ≠ some key

theorem key?_of_mark? {line : Line} {mark : Mark} (isMark : line.mark? = some mark) :
    mark.key? = line.key? := by
  cases line with
  | blank spaces => cases isMark
  | comment indent body =>
      rw [Line.mark?] at isMark
      split at isMark
      · cases isMark
        rfl
      · cases isMark
  | entry key value =>
      cases isMark
      rfl

/-- A line goes, or stays, with its mark. -/
theorem dropMarks_mark? (key : Key) (line : Line) :
    dropMarks key line.mark?.toList = if line.key? = some key then [] else line.mark?.toList := by
  cases isMark : line.mark? with
  | none =>
      split <;> rfl
  | some mark =>
      have same := key?_of_mark? isMark
      rw [Option.toList_some, dropMarks, List.filter_singleton, same]
      by_cases isKey : line.key? = some key
      · simp only [isKey, ne_eq, not_true_eq_false, decide_false, cond_false, if_true]
      · simp only [isKey, ne_eq, not_false_eq_true, decide_true, cond_true, if_false]

theorem marks_dropLines (key : Key) (lines : List Line) :
    marks (dropLines key lines) = dropMarks key (marks lines) := by
  have step (line : Line) (rest : List Line) : dropMarks key (marks (line :: rest)) =
      (if line.key? = some key then [] else line.mark?.toList) ++ dropMarks key (marks rest) := by
    rw [marks_cons, ← dropMarks_mark?]
    exact List.filter_append _ _
  fun_induction dropLines key lines with
  | case1 => rfl
  | case2 last isKey =>
      rw [step, if_pos isKey]
      rfl
  | case3 last other =>
      rw [step, if_neg other, marks_cons]
      rfl
  | case4 line next rest isKey ih =>
      rw [step, if_pos isKey, ih]
      rfl
  | case5 line next rest other ih =>
      rw [step, if_neg other, marks_cons, ih]

theorem mem_rstrip {text : List Char} {char : Char} (visible : isSpace char = false) :
    char ∈ rstrip text ↔ char ∈ text := by
  constructor
  · intro member
    rw [rstrip, List.mem_reverse] at member
    exact List.mem_reverse.mp ((List.dropWhile_sublist _).subset member)
  · intro member
    obtain ⟨front, back, rfl⟩ := List.append_of_mem member
    rw [rstrip_append front List.mem_cons_self visible, rstrip_cons visible]
    exact List.mem_append_right _ List.mem_cons_self

theorem mark?_trimmed (line : Line) : line.trimmed.mark? = line.mark? := by
  cases line with
  | blank spaces => rfl
  | comment indent body =>
      have sameQuote : '\'' ∈ rstrip body.text ↔ '\'' ∈ body.text := mem_rstrip (by decide)
      rw [Line.trimmed, Line.mark?, Line.mark?]
      simp only [sameQuote]
  | entry key value => rfl

theorem marks_of_blank {lines : List Line} (blank : lines.all Line.isBlank = true) :
    marks lines = [] := by
  rw [marks, List.filterMap_eq_nil_iff]
  intro line member
  have isBlank := List.all_eq_true.mp blank line member
  cases line with
  | blank spaces => rfl
  | comment indent body => cases isBlank
  | entry key value => cases isBlank

theorem marks_trim (lines : List Line) : marks (trim lines) = marks lines := by
  induction lines with
  | nil => rfl
  | cons line rest ih =>
      rw [trim]
      split
      · rename_i blank
        rw [marks_cons, marks_cons, mark?_trimmed, marks_of_blank blank]
        rfl
      · rw [marks_cons, marks_cons, ih]

/-- The mark with a new value, if it is one of the key. -/
def Mark.set (key : Key) (value : Inline) : Mark → Mark
  | .entry other old => if other = key then .entry key value else .entry other old
  | .quote => .quote

/-- Marks after a key was written. -/
def writeMarks (marks : List Mark) (entry : Key × Inline) : List Mark :=
  if entry.1 ∈ keys marks then marks.map (Mark.set entry.1 entry.2)
  else marks ++ [.entry entry.1 entry.2]

theorem mark?_set (key : Key) (value : Inline) (line : Line) :
    (line.set key value).mark? = line.mark?.map (Mark.set key value) := by
  cases line with
  | blank spaces => rfl
  | comment indent body =>
      simp only [Line.set, Line.mark?]
      split <;> rfl
  | entry other old =>
      rw [Line.set, Line.mark?, Option.map_some, Mark.set]
      split <;> rfl

theorem mem_keys (key : Key) (lines : List Line) :
    key ∈ keys (marks lines) ↔ ∃ line ∈ lines, line.key? = some key := by
  rw [keys, marks, List.filterMap_filterMap, List.mem_filterMap]
  apply exists_congr
  intro line
  apply and_congr_right
  intro _
  cases line with
  | blank spaces => rfl
  | comment indent body =>
      rw [Line.mark?]
      split <;> rfl
  | entry other value => rfl

theorem marks_writeLines (key : Key) (value : Inline) (lines : List Line) :
    marks (writeLines lines key value) = writeMarks (marks lines) (key, value) := by
  have same : (lines.any fun line => line.key? = some key) = decide (key ∈ keys (marks lines)) := by
    rw [Bool.eq_iff_iff, List.any_eq_true, decide_eq_true_iff, mem_keys]
    simp only [decide_eq_true_eq]
  rw [writeLines, writeMarks, same]
  by_cases known : key ∈ keys (marks lines)
  · rw [if_pos (decide_eq_true known), if_pos known, marks, List.filterMap_map, marks,
      List.map_filterMap]
    apply List.filterMap_congr
    intro line _
    exact mark?_set key value line
  · rw [if_neg (by rw [decide_eq_true_iff]; exact known), if_neg known, marks_append, marks_trim]
    rfl

/-- Removing keys one after the other. -/
theorem removeKeys_render (removed : List Key) {lines : List Line} (some_ : lines ≠ []) :
    ∃ left, left ≠ [] ∧
      (removed.map (·.name)).foldl removeKey (render lines) = render left ∧
      marks left = (marks lines).filter (Mark.kept removed) := by
  induction removed generalizing lines with
  | nil =>
      refine ⟨lines, some_, rfl, ?_⟩
      rw [List.filter_eq_self.mpr]
      intro mark _
      cases mark <;> rfl
  | cons key removed ih =>
      obtain ⟨left, isSome, isText, isMarks⟩ := ih (dropLines_ne_nil key some_)
      refine ⟨left, isSome, ?_, ?_⟩
      · rw [List.map_cons, List.foldl_cons, removeKey_render key some_, isText]
      · rw [isMarks, marks_dropLines, dropMarks, List.filter_filter]
        apply List.filter_congr
        intro mark _
        cases mark with
        | quote => rfl
        | entry other value =>
            simp only [Mark.kept, Mark.key?, ne_eq, Option.some.injEq, List.mem_cons, not_or,
              Bool.decide_and, Bool.and_comm]

/-- Writing keys one after the other. -/
theorem writeKeys_render (values : List (Key × Inline)) {lines : List Line} (some_ : lines ≠ []) :
    ∃ left, left ≠ [] ∧
      (values.map fun entry => (entry.1.name, entry.2.text)).foldl writeKey (render lines) =
        render left ∧
      marks left = values.foldl writeMarks (marks lines) := by
  induction values generalizing lines with
  | nil => exact ⟨lines, some_, rfl, rfl⟩
  | cons entry values ih =>
      obtain ⟨key, value⟩ := entry
      obtain ⟨left, isSome, isText, isMarks⟩ := ih (writeLines_ne_nil key value some_)
      refine ⟨left, isSome, ?_, ?_⟩
      · rw [List.map_cons, List.foldl_cons, writeKey_render key value some_, isText]
      · rw [isMarks, marks_writeLines]
        rfl

theorem keys_map_set (key : Key) (value : Inline) (marks : List Mark) :
    keys (marks.map (Mark.set key value)) = keys marks := by
  rw [keys, keys, List.filterMap_map]
  apply List.filterMap_congr
  intro mark _
  cases mark with
  | quote => rfl
  | entry other old =>
      rw [Function.comp, Mark.set]
      split
      · rename_i same
        rw [same]
        rfl
      · rfl

theorem keys_append (front back : List Mark) : keys (front ++ back) = keys front ++ keys back :=
  List.filterMap_append

theorem lookup_eq_none {key : Key} {values : List (Key × Inline)}
    (missing : key ∉ values.map (·.1)) : values.lookup key = none := by
  rw [List.lookup_eq_none_iff]
  intro entry member
  apply bne_iff_ne.mpr
  rintro rfl
  exact missing (List.mem_map_of_mem member)

/-- A mark written before the others are is rewritten as by all of them. -/
theorem rewrite_set {key : Key} {values : List (Key × Inline)}
    (missing : key ∉ values.map (·.1)) (value : Inline) (mark : Mark) :
    (mark.set key value).rewrite values = mark.rewrite ((key, value) :: values) := by
  cases mark with
  | quote => rfl
  | entry other old =>
      rw [Mark.set, Mark.rewrite, List.lookup_cons]
      by_cases same : other = key
      · subst same
        rw [if_pos rfl, Mark.rewrite, lookup_eq_none missing, beq_self_eq_true]
        rfl
      · rw [if_neg same, Mark.rewrite, beq_eq_false_iff_ne.mpr same]

theorem rewrite_cons {key : Key} {mark : Mark} (other : mark.key? ≠ some key) (value : Inline)
    (values : List (Key × Inline)) : mark.rewrite ((key, value) :: values) = mark.rewrite values := by
  cases mark with
  | quote => rfl
  | entry name old =>
      have different : name ≠ key := fun same => other (congrArg some same)
      rw [Mark.rewrite, List.lookup_cons, beq_eq_false_iff_ne.mpr different, Mark.rewrite]

/-- Writing distinct keys one after the other writes them all. -/
theorem foldl_writeMarks {values : List (Key × Inline)} (distinct : (values.map (·.1)).Nodup)
    (before : List Mark) : values.foldl writeMarks before = rewritten values before := by
  induction values generalizing before with
  | nil =>
      rw [List.foldl_nil, rewritten, List.filter_nil, List.map_nil, List.append_nil]
      symm
      apply List.map_id''
      intro mark
      cases mark <;> rfl
  | cons entry values ih =>
      obtain ⟨key, value⟩ := entry
      rw [List.map_cons, List.nodup_cons] at distinct
      rw [List.foldl_cons, ih distinct.2, writeMarks]
      by_cases known : key ∈ keys before
      · rw [if_pos known, rewritten, rewritten, keys_map_set, List.map_map]
        congr 1
        · apply List.map_congr_left
          intro mark _
          exact rewrite_set distinct.1 value mark
        · rw [List.filter_cons, if_neg]
          rw [decide_eq_true_iff]
          exact fun absent => absent known
      · have own : (Mark.entry key value).rewrite values = .entry key value := by
          rw [Mark.rewrite, lookup_eq_none distinct.1]
          rfl
        have others : (values.filter fun entry => entry.1 ∉ keys (before ++ [.entry key value])) =
            values.filter fun entry => entry.1 ∉ keys before := by
          apply List.filter_congr
          intro entry member
          have different : entry.1 ≠ key := by
            rintro rfl
            exact distinct.1 (List.mem_map.mpr ⟨entry, member, rfl⟩)
          have isKeys : keys [.entry key value] = [key] := rfl
          rw [keys_append, isKeys, decide_eq_decide, List.mem_append, List.mem_singleton,
            or_iff_left different]
        rw [if_neg known, rewritten, others, List.map_append, List.map_singleton, own, rewritten,
          List.filter_cons, if_pos (decide_eq_true known), List.map_cons, List.append_assoc,
          List.singleton_append]
        congr 1
        apply List.map_congr_left
        intro mark member
        symm
        apply rewrite_cons
        intro isKey
        exact known (List.mem_filterMap.mpr ⟨mark, member, isKey⟩)

/-- The text after a call, by its lines. -/
theorem apply_render (edit : Edit) {lines : List Line} (some_ : lines ≠ []) :
    ∃ left, left ≠ [] ∧ edit.apply (render lines) = render left ∧
      marks left = edit.marks (marks lines) := by
  obtain ⟨removed, isSome, isText, isMarks⟩ := removeKeys_render edit.remove some_
  obtain ⟨left, isSome', isText', isMarks'⟩ := writeKeys_render edit.values isSome
  refine ⟨left, isSome', ?_, ?_⟩
  · rw [Edit.apply, environmentText, isText, isText']
  · rw [isMarks', isMarks, foldl_writeMarks edit.distinct, Edit.marks]

end Docta.Dev
