/-
Module: Docta.Rag.RetrievalOrder
Purpose: What the retrievers return, stated of the corpus as a set: the first
  five of the chunks that qualify, in a strict order, whatever the physical order
  of the rows.
Trusted boundary: text search matches alternatives as `MatchesAlternatives` says
Main exports: Material.Keyed, Chunk.Retrievable, MatchesAlternatives,
  retrieval_of_content
-/
import Docta.Conversation.Generation
import Docta.Library.Ranking
import Docta.Rag.DenseRetrieval
import Docta.Rag.Lexemes
import Mathlib.Algebra.Order.Ring.Unbundled.Rat

namespace Docta

open Table Fallible Ranking

/-! ### The corpus as a set -/

/-- The keys and references that retrieval relies on. -/
structure Material.Keyed (material : Material) : Prop where
  chunkIds : UniqueOn (·.id) material.chunks
  chunkOrdinals : UniqueOn (fun row => (row.corpusVersionId, row.ordinal)) material.chunks
  chunkVersion : ∀ row ∈ material.chunks, ∃ version ∈ material.documentVersions,
    version.courseId = row.courseId ∧ version.id = row.documentVersionId
  versionIds : UniqueOn (·.id) material.documentVersions
  versionDocument : ∀ row ∈ material.documentVersions, ∃ document ∈ material.documents,
    document.courseId = row.courseId ∧ document.id = row.documentId
  documentIds : UniqueOn (·.id) material.documents
  embeddingKeys : UniqueOn (fun row => (row.chunkId, row.embeddingVersion))
    material.chunkEmbeddings

theorem Material.Constraints.keyed {material : Material} (constraints : material.Constraints) :
    material.Keyed where
  chunkIds := constraints.chunkIds
  chunkOrdinals := constraints.chunkOrdinals
  chunkVersion := constraints.chunkVersion
  versionIds := constraints.versionIds
  versionDocument := constraints.versionDocument
  documentIds := constraints.documentIds
  embeddingKeys := constraints.embeddingKeys

/-- The same rows in another physical order. -/
structure Material.Reordered (material other : Material) : Prop where
  chunks : other.chunks.Perm material.chunks
  documentVersions : other.documentVersions.Perm material.documentVersions
  documents : other.documents.Perm material.documents
  corpusVersions : other.corpusVersions.Perm material.corpusVersions
  chunkEmbeddings : other.chunkEmbeddings.Perm material.chunkEmbeddings

theorem uniqueOn_of_perm {α β : Type} [DecidableEq β] {key : α → β} {rows other : List α}
    (perm : other.Perm rows) (unique : UniqueOn key rows) : UniqueOn key other :=
  ((perm.map key).nodup_iff).mpr unique

/-- Keys do not depend on the order of the rows. -/
theorem Material.Keyed.reordered {material other : Material} (keyed : material.Keyed)
    (reordered : material.Reordered other) : other.Keyed where
  chunkIds := uniqueOn_of_perm reordered.chunks keyed.chunkIds
  chunkOrdinals := uniqueOn_of_perm reordered.chunks keyed.chunkOrdinals
  chunkVersion := by
    intro row known
    obtain ⟨version, stored, same⟩ := keyed.chunkVersion row (reordered.chunks.mem_iff.mp known)
    exact ⟨version, reordered.documentVersions.mem_iff.mpr stored, same⟩
  versionIds := uniqueOn_of_perm reordered.documentVersions keyed.versionIds
  versionDocument := by
    intro row known
    obtain ⟨document, stored, same⟩ :=
      keyed.versionDocument row (reordered.documentVersions.mem_iff.mp known)
    exact ⟨document, reordered.documents.mem_iff.mpr stored, same⟩
  documentIds := uniqueOn_of_perm reordered.documents keyed.documentIds
  embeddingKeys := uniqueOn_of_perm reordered.chunkEmbeddings keyed.embeddingKeys

/-- A chunk of the scope's course and corpus whose document version is indexed. -/
structure Chunk.Retrievable (material : Material) (scope : RetrievalScope) (chunk : Chunk) :
    Prop where
  known : chunk ∈ material.chunks
  courseId : chunk.courseId = scope.courseId
  corpusVersionId : chunk.corpusVersionId = scope.corpusVersionId
  indexed : ∃ version ∈ material.documentVersions, version.id = chunk.documentVersionId ∧
    version.courseId = chunk.courseId ∧ version.state = .indexed

/-- A row says of its chunk what the chunk's version and document say. -/
def Candidate.Joined (material : Material) (row : Candidate) : Prop :=
  ∃ version ∈ material.documentVersions, version.id = row.chunk.documentVersionId ∧
    version.courseId = row.chunk.courseId ∧ row.checksum = version.objectSha256 ∧
      ∃ document ∈ material.documents, document.id = version.documentId ∧
        document.courseId = row.chunk.courseId ∧ row.title = document.title

theorem retrievable_reordered {material other : Material} {scope : RetrievalScope} {chunk : Chunk}
    (reordered : material.Reordered other) :
    chunk.Retrievable other scope ↔ chunk.Retrievable material scope := by
  constructor
  · intro retrievable
    obtain ⟨version, stored, same⟩ := retrievable.indexed
    exact ⟨reordered.chunks.mem_iff.mp retrievable.known, retrievable.courseId,
      retrievable.corpusVersionId, version, reordered.documentVersions.mem_iff.mp stored, same⟩
  · intro retrievable
    obtain ⟨version, stored, same⟩ := retrievable.indexed
    exact ⟨reordered.chunks.mem_iff.mpr retrievable.known, retrievable.courseId,
      retrievable.corpusVersionId, version, reordered.documentVersions.mem_iff.mpr stored, same⟩

section Joins

variable {material : Material} (keyed : material.Keyed)
include keyed

/-- The chunk decides the row. -/
theorem Candidate.Joined.unique {row other : Candidate} (joined : row.Joined material)
    (joinedOther : other.Joined material) (same : row.chunk = other.chunk) : row = other := by
  obtain ⟨version, stored, idEq, _, checksum, document, kept, documentEq, _, title⟩ := joined
  obtain ⟨rival, rivalStored, rivalId, _, rivalChecksum, paper, paperKept, paperEq, _, rivalTitle⟩ :=
    joinedOther
  have sameVersion : version = rival :=
    keyed.versionIds.eq_of_key stored rivalStored (by rw [idEq, rivalId, same])
  subst sameVersion
  have sameDocument : document = paper :=
    keyed.documentIds.eq_of_key kept paperKept (by rw [documentEq, paperEq])
  subst sameDocument
  obtain ⟨chunk, rowTitle, rowChecksum⟩ := row
  obtain ⟨otherChunk, otherTitle, otherChecksum⟩ := other
  simp_all

/-- Every stored chunk has its row. -/
theorem exists_joined {chunk : Chunk} (known : chunk ∈ material.chunks) :
    ∃ row : Candidate, row.Joined material ∧ row.chunk = chunk := by
  obtain ⟨version, stored, course, idEq⟩ := keyed.chunkVersion chunk known
  obtain ⟨document, kept, documentCourse, documentEq⟩ := keyed.versionDocument version stored
  exact ⟨{ chunk, title := document.title, checksum := version.objectSha256 },
    ⟨version, stored, idEq, course, rfl, document, kept, documentEq, documentCourse.trans course,
      rfl⟩, rfl⟩

end Joins

/-! ### Joins with one partner -/

section Partners

variable {α β γ : Type}

theorem length_filter_le_one [DecidableEq β] {key : α → β} {rows : List α}
    (unique : UniqueOn key rows) {value : β} {selected : α → Bool}
    (implies : ∀ row ∈ rows, selected row = true → key row = value) :
    (rows.filter selected).length ≤ 1 := by
  have within : (rows.filter selected).Sublist (rows.filter (key · == value)) := by
    have narrowed : rows.filter selected = (rows.filter (key · == value)).filter selected := by
      rw [List.filter_filter]
      apply List.filter_congr
      intro row known
      cases isSelected : selected row with
      | false => rfl
      | true => simp [implies row known isSelected]
    rw [narrowed]
    exact List.filter_sublist
  exact within.length_le.trans (unique.length_filter_le_one value)

theorem length_flatMap_le_one {rows : List α} {partners : α → List β} (one : rows.length ≤ 1)
    (each : ∀ row ∈ rows, (partners row).length ≤ 1) : (rows.flatMap partners).length ≤ 1 := by
  cases rows with
  | nil => exact Nat.zero_le _
  | cons row rest =>
      have none : rest = [] := List.length_eq_zero_iff.mp (by rw [List.length_cons] at one; omega)
      subst none
      rw [List.flatMap_cons, List.flatMap_nil, List.append_nil]
      exact each row List.mem_cons_self

/-- A join that gives each row at most one result keeps the rows apart. -/
theorem nodup_map_flatMap {rows : List α} {partners : α → List β} {name : α → γ} {owner : β → γ}
    (distinct : (rows.map name).Nodup)
    (owned : ∀ row ∈ rows, ∀ item ∈ partners row, owner item = name row)
    (one : ∀ row ∈ rows, (partners row).length ≤ 1) :
    ((rows.flatMap partners).map owner).Nodup := by
  induction rows with
  | nil => exact List.nodup_nil
  | cons row rest ih =>
      obtain ⟨apart, distinctRest⟩ := List.nodup_cons.mp distinct
      obtain ⟨ownedRow, ownedRest⟩ := List.forall_mem_cons.mp owned
      obtain ⟨oneRow, oneRest⟩ := List.forall_mem_cons.mp one
      rw [List.flatMap_cons, List.map_append, List.nodup_append]
      refine ⟨?_, ih distinctRest ownedRest oneRest, ?_⟩
      · cases items : partners row with
        | nil => exact List.nodup_nil
        | cons item others =>
            have none : others = [] :=
              List.length_eq_zero_iff.mp (by rw [items, List.length_cons] at oneRow; omega)
            rw [none]
            exact List.nodup_singleton _
      · intro first inRow second inRest same
        obtain ⟨item, inPartners, rfl⟩ := List.mem_map.mp inRow
        obtain ⟨other, inOthers, rfl⟩ := List.mem_map.mp inRest
        obtain ⟨owning, inRows, inItems⟩ := List.mem_flatMap.mp inOthers
        rw [ownedRow item inPartners, ownedRest owning inRows other inItems] at same
        exact apart (List.mem_map.mpr ⟨owning, inRows, same.symm⟩)

end Partners

theorem nodup_of_uniqueOn {α β : Type} [DecidableEq β] {key : α → β} {rows : List α}
    (unique : UniqueOn key rows) : rows.Nodup :=
  List.Nodup.of_map key unique

/-! ### The full-text rows -/

section FullText

variable {material : Material} {scope : RetrievalScope}

theorem mem_corpusRows (keyed : material.Keyed) {row : Candidate} :
    row ∈ corpusRows material scope.courseId scope.corpusVersionId ↔
      row.Joined material ∧ row.chunk.Retrievable material scope := by
  simp only [corpusRows, List.mem_flatMap, List.mem_map, List.mem_filter, Bool.and_eq_true,
    beq_iff_eq]
  constructor
  · intro found
    obtain ⟨chunk, ⟨known, course, corpus⟩, version, ⟨stored, ⟨idEq, versionCourse⟩, indexed⟩,
      document, ⟨kept, documentEq, documentCourse⟩, rfl⟩ := found
    exact ⟨⟨version, stored, idEq, versionCourse, rfl, document, kept, documentEq, documentCourse,
      rfl⟩, known, course, corpus, version, stored, idEq, versionCourse, indexed⟩
  · intro both
    obtain ⟨⟨version, stored, idEq, course, checksum, document, kept, documentEq, documentCourse,
      title⟩, retrievable⟩ := both
    obtain ⟨rival, rivalStored, rivalId, _, indexed⟩ := retrievable.indexed
    have same : rival = version :=
      keyed.versionIds.eq_of_key rivalStored stored (by rw [rivalId, idEq])
    subst same
    refine ⟨row.chunk, ⟨retrievable.known, retrievable.courseId, retrievable.corpusVersionId⟩,
      rival, ⟨stored, ⟨idEq, course⟩, indexed⟩, document, ⟨kept, documentEq, documentCourse⟩, ?_⟩
    rw [← title, ← checksum]

/-- One row a chunk. -/
theorem nodup_corpusRows (keyed : material.Keyed) :
    ((corpusRows material scope.courseId scope.corpusVersionId).map (·.chunk)).Nodup := by
  have distinct : ((material.chunks.filter fun chunk =>
      chunk.courseId == scope.courseId &&
        chunk.corpusVersionId == scope.corpusVersionId).map id).Nodup := by
    rw [List.map_id]
    exact (nodup_of_uniqueOn keyed.chunkIds).filter _
  rw [corpusRows]
  apply nodup_map_flatMap distinct
  · intro chunk _ row member
    simp only [List.mem_flatMap, List.mem_map] at member
    obtain ⟨_, _, _, _, rfl⟩ := member
    rfl
  · intro chunk _
    apply length_flatMap_le_one
    · apply length_filter_le_one keyed.versionIds
      intro version _ selected
      simp only [Bool.and_eq_true, beq_iff_eq] at selected
      exact selected.1.1
    · intro version _
      rw [List.length_map]
      apply length_filter_le_one keyed.documentIds
      intro document _ selected
      simp only [Bool.and_eq_true, beq_iff_eq] at selected
      exact selected.1

end FullText

/-! ### The order of relevance -/

section Relevance

variable (search : TextSearch) (lexemes : List String)

/-- How many of the lexemes are among the chunk's. -/
def Chunk.matched (chunk : Chunk) : Nat :=
  lexemes.countP (· ∈ search.vectorLexemes chunk.content)

/-- The chunk's rank under the query of the lexemes. -/
def Chunk.rank (chunk : Chunk) : Rat :=
  search.rank chunk.content (orTsqueryText lexemes)

/-- The strict order: more lexemes, then a higher rank, then the lower ordinal. -/
def Chunk.MoreRelevant (first second : Chunk) : Prop :=
  second.matched search lexemes < first.matched search lexemes ∨
    (second.matched search lexemes = first.matched search lexemes ∧
      (second.rank search lexemes < first.rank search lexemes ∨
        (second.rank search lexemes = first.rank search lexemes ∧ first.ordinal < second.ordinal)))

/-- The retrievable chunks that hold at least two thirds of the lexemes. -/
def Chunk.Covers (material : Material) (scope : RetrievalScope) (chunk : Chunk) : Prop :=
  chunk.Retrievable material scope ∧ 2 * lexemes.length ≤ 3 * chunk.matched search lexemes

theorem Chunk.MoreRelevant.asymm (first second : Chunk)
    (forth : first.MoreRelevant search lexemes second) :
    ¬ second.MoreRelevant search lexemes first := by
  intro back
  rcases forth with more | ⟨same, higher | ⟨sameRank, lower⟩⟩
  · rcases back with less | ⟨same, _⟩
    · exact Nat.lt_asymm more less
    · exact Nat.ne_of_lt more same.symm
  · rcases back with less | ⟨_, lower | ⟨sameRank, _⟩⟩
    · exact Nat.ne_of_lt less same.symm
    · exact lt_asymm higher lower
    · exact ne_of_lt higher sameRank.symm
  · rcases back with less | ⟨_, higher | ⟨_, greater⟩⟩
    · exact Nat.ne_of_lt less same.symm
    · exact ne_of_lt higher sameRank.symm
    · exact Nat.lt_asymm lower greater

instance : Std.Total (byRelevance search lexemes) where
  total first second := by
    rcases Nat.lt_trichotomy (first.matched search lexemes) (second.matched search lexemes) with
      fewer | same | more
    · exact .inr (.inl fewer)
    · rcases lt_trichotomy (first.rank search lexemes) (second.rank search lexemes) with
        lower | sameRank | higher
      · exact .inr (.inr ⟨same, .inl lower⟩)
      · rcases Nat.le_total first.chunk.ordinal second.chunk.ordinal with before | after
        · exact .inl (.inr ⟨same.symm, .inr ⟨sameRank.symm, before⟩⟩)
        · exact .inr (.inr ⟨same, .inr ⟨sameRank, after⟩⟩)
      · exact .inl (.inr ⟨same.symm, .inl higher⟩)
    · exact .inl (.inl more)

instance : IsTrans Candidate (byRelevance search lexemes) where
  trans first second third := by
    intro one two
    rcases one with more | ⟨same, higher | ⟨sameRank, lower⟩⟩
    · rcases two with more' | ⟨same', _⟩
      · exact .inl (more'.trans more)
      · exact .inl (same' ▸ more)
    · rcases two with more' | ⟨same', higher' | ⟨sameRank', _⟩⟩
      · exact .inl (same ▸ more')
      · exact .inr ⟨same'.trans same, .inl (higher'.trans higher)⟩
      · exact .inr ⟨same'.trans same, .inl (sameRank' ▸ higher)⟩
    · rcases two with more' | ⟨same', higher' | ⟨sameRank', lower'⟩⟩
      · exact .inl (same ▸ more')
      · exact .inr ⟨same'.trans same, .inl (sameRank ▸ higher')⟩
      · exact .inr ⟨same'.trans same, .inr ⟨sameRank'.trans sameRank, lower.trans lower'⟩⟩

/-- Text search takes a query that reads as alternatives as matching any of them,
a lexeme matching a chunk that holds it. -/
def TextSearch.MatchesAlternatives : Prop :=
  ∀ content text alternatives, alternatives ≠ [] →
    readQuery none text.toList =
      some ((alternatives.map .lexeme).intersperse (.operator '|')) →
    (search.isMatch content text = true ↔
      ∃ lexeme ∈ alternatives, lexeme ∈ search.vectorLexemes content)

variable {search lexemes}

/-- The coverage floor implies the match. -/
theorem covers_iff (matching : search.MatchesAlternatives) (some : lexemes ≠ [])
    (row : Candidate) :
    row.covers search lexemes = true ↔
      2 * lexemes.length ≤ 3 * row.chunk.matched search lexemes := by
  rw [Candidate.covers, Bool.and_eq_true, decide_eq_true_iff,
    matching _ _ _ some (readQuery_orTsqueryText lexemes)]
  have sameCount : row.matched search lexemes = row.chunk.matched search lexemes := rfl
  constructor
  · intro both
    rw [← sameCount]
    omega
  · intro floor
    refine ⟨?_, by rw [sameCount]; omega⟩
    have positive : 0 < row.chunk.matched search lexemes := by
      have count := List.length_pos_iff.mpr some
      omega
    obtain ⟨lexeme, member, held⟩ := List.countP_pos_iff.mp positive
    exact ⟨lexeme, member, by simpa using held⟩

end Relevance

/-! ### What the full-text retriever returns -/

/-- Authorization does not depend on the order of the rows. -/
theorem authorizeRetrieval_reordered {material other : Material}
    (reordered : material.Reordered other) (tables : Identity) (dialogue : Dialogue) (now : Time)
    (scope : RetrievalScope) (query : String) :
    authorizeRetrieval tables other dialogue now scope query =
      authorizeRetrieval tables material dialogue now scope query := by
  have sameCorpora (message : Message) :
      (∃ corpus ∈ other.corpusVersions, corpus.inScope message = true) ↔
        ∃ corpus ∈ material.corpusVersions, corpus.inScope message = true := by
    constructor
    · intro found
      obtain ⟨corpus, stored, inScope⟩ := found
      exact ⟨corpus, reordered.corpusVersions.mem_iff.mp stored, inScope⟩
    · intro found
      obtain ⟨corpus, stored, inScope⟩ := found
      exact ⟨corpus, reordered.corpusVersions.mem_iff.mpr stored, inScope⟩
  simp only [authorizeRetrieval, sameCorpora]

/-- The evidence of the first five chunks, in a strict order, among the chosen. -/
structure ReturnsTop (material : Material) (before : Chunk → Chunk → Prop) (chosen : Chunk → Prop)
    (result : Except Failure (List Evidence)) (rows : List Candidate) : Prop where
  joined : ∀ row ∈ rows, row.Joined material
  top : TopOf 5 before chosen (rows.map (·.chunk))
  result_eq : result = .ok (rows.map Candidate.evidence)

/-- Rows that say what the tables say are decided by their chunks. -/
theorem rows_eq_of_chunks {material : Material} (keyed : material.Keyed) :
    ∀ {rows others : List Candidate}, (∀ row ∈ rows, row.Joined material) →
      (∀ row ∈ others, row.Joined material) → rows.map (·.chunk) = others.map (·.chunk) →
        rows = others
  | [], [], _, _, _ => rfl
  | [], other :: others, _, _, same => by simp at same
  | row :: rows, [], _, _, same => by simp at same
  | row :: rows, other :: others, joined, joinedOthers, same => by
      obtain ⟨joinedRow, joinedRows⟩ := List.forall_mem_cons.mp joined
      obtain ⟨joinedOther, joinedRest⟩ := List.forall_mem_cons.mp joinedOthers
      rw [List.map_cons, List.map_cons, List.cons.injEq] at same
      rw [joinedRow.unique keyed joinedOther same.1,
        rows_eq_of_chunks keyed joinedRows joinedRest same.2]

theorem Candidate.Joined.reordered {material other : Material}
    (reordered : material.Reordered other) {row : Candidate} (joined : row.Joined other) :
    row.Joined material := by
  obtain ⟨version, stored, idEq, course, checksum, document, kept, rest⟩ := joined
  exact ⟨version, reordered.documentVersions.mem_iff.mp stored, idEq, course, checksum, document,
    reordered.documents.mem_iff.mp kept, rest⟩

section FullTextResult

variable {search : TextSearch} {tables : Identity} {material : Material} {dialogue : Dialogue}
  {now : Time} {scope : RetrievalScope} {question : String}

/-- The full-text retriever returns the most relevant of the chunks that cover
the question's lexemes. -/
theorem returnsTop_postgres (keyed : material.Keyed) (matching : search.MatchesAlternatives)
    (authorized : authorizeRetrieval tables material dialogue now scope question = .ok ())
    {lexemes : List String} (isLexemes : lexemes = queryLexemes ((search.plainQuery question).getD ""))
    (some : lexemes ≠ []) :
    ∃ rows, ReturnsTop material (Chunk.MoreRelevant search lexemes)
      (Chunk.Covers search lexemes material scope)
      (PostgresRetriever.retrieve search tables material dialogue now scope question) rows := by
  have distinct : (((corpusRows material scope.courseId scope.corpusVersionId).filter
      (Candidate.covers search lexemes)).map (·.chunk)).Nodup :=
    (List.filter_sublist.map _).nodup (nodup_corpusRows keyed)
  have strict : ∀ first ∈ (corpusRows material scope.courseId scope.corpusVersionId).filter
      (Candidate.covers search lexemes), ∀ second ∈ (corpusRows material scope.courseId
        scope.corpusVersionId).filter (Candidate.covers search lexemes),
      byRelevance search lexemes first second → first.chunk ≠ second.chunk →
        first.chunk.MoreRelevant search lexemes second.chunk := by
    intro first inFirst second inSecond order different
    have inScope := (mem_corpusRows keyed).mp (List.mem_of_mem_filter inFirst)
    have inScope' := (mem_corpusRows keyed).mp (List.mem_of_mem_filter inSecond)
    rcases order with more | ⟨same, higher | ⟨sameRank, before⟩⟩
    · exact .inl more
    · exact .inr ⟨same, .inl higher⟩
    · refine .inr ⟨same, .inr ⟨sameRank, Nat.lt_of_le_of_ne before ?_⟩⟩
      intro sameOrdinal
      apply different
      apply keyed.chunkOrdinals.eq_of_key inScope.2.known inScope'.2.known
      rw [inScope.2.corpusVersionId, inScope'.2.corpusVersionId, sameOrdinal]
  have top : TopOf 5 (Chunk.MoreRelevant search lexemes) _ _ :=
    topOf_take_insertionSort (·.chunk) (byRelevance search lexemes) distinct strict
  refine ⟨_, ?_, top.congr ?_, ?_⟩
  · intro row member
    have known := (List.perm_insertionSort _ _).mem_iff.mp (List.mem_of_mem_take member)
    exact ((mem_corpusRows keyed).mp (List.mem_of_mem_filter known)).1
  · intro chunk
    constructor
    · intro found
      obtain ⟨row, member, rfl⟩ := found
      obtain ⟨known, covers⟩ := List.mem_filter.mp member
      exact ⟨((mem_corpusRows keyed).mp known).2, (covers_iff matching some row).mp covers⟩
    · intro covers
      obtain ⟨row, joined, rfl⟩ := exists_joined keyed covers.1.known
      exact ⟨row, List.mem_filter.mpr ⟨(mem_corpusRows keyed).mpr ⟨joined, covers.1⟩,
        (covers_iff matching some row).mpr covers.2⟩, rfl⟩
  · rw [PostgresRetriever.retrieve, authorized, ok_bind]
    subst isLexemes
    exact if_neg some

end FullTextResult

/-! ### What the dense retriever returns -/

section Dense

variable {δ : Type} [LinearOrder δ]

/-- The strict order of chunks with their distances: nearer, then the lower ordinal. -/
def Nearer (first second : Chunk × δ) : Prop :=
  first.2 < second.2 ∨ (first.2 = second.2 ∧ first.1.ordinal < second.1.ordinal)

/-- A retrievable chunk with the distance of its current embedding, within the
threshold. -/
def DenseRetriever.Near (retriever : DenseRetriever δ)
    (distance : List Component → List Component → δ) (vector : List Component)
    (material : Material) (scope : RetrievalScope) (pair : Chunk × δ) : Prop :=
  pair.1.Retrievable material scope ∧
    (∃ row ∈ material.chunkEmbeddings, retriever.isCurrent pair.1 row = true ∧
      pair.2 = distance row.embedding vector) ∧
    pair.2 ≤ retriever.maxDistance

theorem Nearer.asymm (first second : Chunk × δ) (forth : Nearer first second) :
    ¬ Nearer second first := by
  intro back
  rcases forth with nearer | ⟨same, lower⟩
  · rcases back with nearer' | ⟨same, _⟩
    · exact lt_asymm nearer nearer'
    · exact ne_of_lt nearer same.symm
  · rcases back with nearer | ⟨_, lower'⟩
    · exact ne_of_lt nearer same.symm
    · exact Nat.lt_asymm lower lower'

instance : Std.Total (@DenseRetriever.byDistance δ _) where
  total first second := by
    rcases lt_trichotomy first.1.distance second.1.distance with nearer | same | farther
    · exact .inl (.inl nearer)
    · rcases Nat.le_total first.1.ordinal second.1.ordinal with before | after
      · exact .inl (.inr ⟨same, before⟩)
      · exact .inr (.inr ⟨same.symm, after⟩)
    · exact .inr (.inl farther)

instance : IsTrans (DenseCandidate δ × Candidate) (@DenseRetriever.byDistance δ _) where
  trans first second third := by
    intro one two
    rcases one with nearer | ⟨same, lower⟩
    · rcases two with nearer' | ⟨same', _⟩
      · exact .inl (nearer.trans nearer')
      · exact .inl (same' ▸ nearer)
    · rcases two with nearer' | ⟨same', lower'⟩
      · exact .inl (same ▸ nearer')
      · exact .inr ⟨same.trans same', lower.trans lower'⟩

variable {retriever : DenseRetriever δ} {distance : List Component → List Component → δ}
  {vector : List Component} {material : Material} {scope : RetrievalScope}

omit [LinearOrder δ] in
theorem mem_indexedChunks {chunk : Chunk} :
    chunk ∈ indexedChunks material scope.courseId scope.corpusVersionId ↔
      chunk.Retrievable material scope := by
  simp only [indexedChunks, List.mem_flatMap, List.mem_map, List.mem_filter, Bool.and_eq_true,
    beq_iff_eq]
  constructor
  · intro found
    obtain ⟨row, ⟨known, course, corpus⟩, version, ⟨stored, ⟨idEq, versionCourse⟩, indexed⟩, rfl⟩ :=
      found
    exact ⟨known, course, corpus, version, stored, idEq, versionCourse, indexed⟩
  · intro retrievable
    obtain ⟨version, stored, idEq, course, indexed⟩ := retrievable.indexed
    exact ⟨chunk, ⟨retrievable.known, retrievable.courseId, retrievable.corpusVersionId⟩, version,
      ⟨stored, ⟨idEq, course⟩, indexed⟩, rfl⟩

theorem mem_denseRows (keyed : material.Keyed) {row : DenseCandidate δ × Candidate} :
    row ∈ retriever.rows distance vector material scope.courseId scope.corpusVersionId ↔
      row.2.Joined material ∧
        retriever.Near distance vector material scope (row.2.chunk, row.1.distance) ∧
        row.1.chunkId = row.2.chunk.id ∧ row.1.ordinal = row.2.chunk.ordinal := by
  simp only [DenseRetriever.rows, DenseRetriever.candidates, List.mem_flatMap, List.mem_map,
    List.mem_filter, mem_indexedChunks, Bool.and_eq_true, beq_iff_eq, decide_eq_true_iff]
  constructor
  · intro found
    obtain ⟨candidate, ⟨⟨chunk, retrievable, embedding, ⟨kept, current⟩, rfl⟩, near⟩, joinedChunk,
      ⟨known, sameId⟩, version, ⟨stored, idEq, course⟩, document, ⟨filed, documentEq,
      documentCourse⟩, rfl⟩ := found
    have same : chunk = joinedChunk :=
      keyed.chunkIds.eq_of_key retrievable.known known sameId
    subst same
    exact ⟨⟨version, stored, idEq, course, rfl, document, filed, documentEq, documentCourse, rfl⟩,
      ⟨retrievable, ⟨embedding, kept, current, rfl⟩, near⟩, rfl, rfl⟩
  · intro facts
    obtain ⟨⟨version, stored, idEq, course, checksum, document, filed, documentEq, documentCourse,
      title⟩, ⟨retrievable, ⟨embedding, kept, current, sameDistance⟩, near⟩, sameId, sameOrdinal⟩ :=
      facts
    refine ⟨row.1, ⟨⟨row.2.chunk, retrievable, embedding, ⟨kept, current⟩, ?_⟩, near⟩,
      row.2.chunk, ⟨retrievable.known, sameId⟩, version, ⟨stored, idEq, course⟩, document,
      ⟨filed, documentEq, documentCourse⟩, ?_⟩
    · rw [← sameId, ← sameOrdinal, ← sameDistance]
    · rw [← title, ← checksum]

omit [LinearOrder δ] in
/-- One candidate a chunk. -/
theorem nodup_candidates (keyed : material.Keyed) :
    ((retriever.candidates distance vector material scope.courseId scope.corpusVersionId).map
      (·.chunkId)).Nodup := by
  have distinct : ((material.chunks.filter fun chunk =>
      chunk.courseId == scope.courseId &&
        chunk.corpusVersionId == scope.corpusVersionId).map (·.id)).Nodup :=
    keyed.chunkIds.filter _
  have indexedDistinct :
      ((indexedChunks material scope.courseId scope.corpusVersionId).map (·.id)).Nodup := by
    rw [indexedChunks]
    apply nodup_map_flatMap distinct
    · intro chunk _ row member
      obtain ⟨_, _, rfl⟩ := List.mem_map.mp member
      rfl
    · intro chunk _
      rw [List.length_map]
      apply length_filter_le_one keyed.versionIds
      intro version _ selected
      simp only [Bool.and_eq_true, beq_iff_eq] at selected
      exact selected.1.1
  rw [DenseRetriever.candidates]
  apply nodup_map_flatMap indexedDistinct
  · intro chunk _ candidate member
    obtain ⟨_, _, rfl⟩ := List.mem_map.mp member
    rfl
  · intro chunk _
    have sameKey : ∀ row ∈ material.chunkEmbeddings, retriever.isCurrent chunk row = true →
        (row.chunkId, row.embeddingVersion) = (chunk.id, retriever.embedderVersion) := by
      intro row _ selected
      simp only [DenseRetriever.isCurrent, Bool.and_eq_true, beq_iff_eq] at selected
      exact Prod.ext selected.1.1.1.1 selected.1.2
    rw [List.length_map]
    exact length_filter_le_one keyed.embeddingKeys sameKey

/-- One row a chunk. -/
theorem nodup_denseRows (keyed : material.Keyed) :
    ((retriever.rows distance vector material scope.courseId scope.corpusVersionId).map
      (·.1.chunkId)).Nodup := by
  rw [DenseRetriever.rows]
  apply nodup_map_flatMap ((List.filter_sublist.map _).nodup (nodup_candidates keyed))
  · intro candidate _ row member
    simp only [List.mem_flatMap, List.mem_map] at member
    obtain ⟨_, _, _, _, _, _, rfl⟩ := member
    rfl
  · intro candidate _
    apply length_flatMap_le_one
    · apply length_filter_le_one keyed.chunkIds
      intro chunk _ selected
      exact (eq_of_beq selected).symm
    · intro chunk _
      apply length_flatMap_le_one
      · apply length_filter_le_one keyed.versionIds
        intro version _ selected
        simp only [Bool.and_eq_true, beq_iff_eq] at selected
        exact selected.1
      · intro version _
        rw [List.length_map]
        apply length_filter_le_one keyed.documentIds
        intro document _ selected
        simp only [Bool.and_eq_true, beq_iff_eq] at selected
        exact selected.1

/-- The evidence of the nearest five chunks. -/
structure ReturnsNearest (retriever : DenseRetriever δ)
    (distance : List Component → List Component → δ) (vector : List Component)
    (material : Material) (scope : RetrievalScope) (result : Except Failure (List Evidence))
    (rows : List (DenseCandidate δ × Candidate)) : Prop where
  joined : ∀ row ∈ rows, row.2.Joined material
  top : TopOf 5 Nearer (retriever.Near distance vector material scope)
    (rows.map fun row => (row.2.chunk, row.1.distance))
  result_eq : result = .ok (rows.map fun row => row.2.evidence)

theorem returnsNearest_rows (keyed : material.Keyed) :
    ReturnsNearest retriever distance vector material scope
      (.ok ((((retriever.rows distance vector material scope.courseId
        scope.corpusVersionId).insertionSort DenseRetriever.byDistance).take 5).map
          fun row => row.2.evidence))
      (((retriever.rows distance vector material scope.courseId
        scope.corpusVersionId).insertionSort DenseRetriever.byDistance).take 5) := by
  have distinct : ((retriever.rows distance vector material scope.courseId
      scope.corpusVersionId).map fun row => (row.2.chunk, row.1.distance)).Nodup := by
    apply List.Nodup.of_map fun pair : Chunk × δ => pair.1.id
    rw [List.map_map]
    have sameIds : (retriever.rows distance vector material scope.courseId
        scope.corpusVersionId).map ((fun pair : Chunk × δ => pair.1.id) ∘
          fun row => (row.2.chunk, row.1.distance)) =
        (retriever.rows distance vector material scope.courseId scope.corpusVersionId).map
          (·.1.chunkId) := by
      apply List.map_congr_left
      intro row member
      exact ((mem_denseRows keyed).mp member).2.2.1.symm
    rw [sameIds]
    exact nodup_denseRows keyed
  have strict : ∀ first ∈ retriever.rows distance vector material scope.courseId
      scope.corpusVersionId, ∀ second ∈ retriever.rows distance vector material scope.courseId
        scope.corpusVersionId, DenseRetriever.byDistance first second →
      (first.2.chunk, first.1.distance) ≠ (second.2.chunk, second.1.distance) →
        Nearer (first.2.chunk, first.1.distance) (second.2.chunk, second.1.distance) := by
    intro first inFirst second inSecond order different
    obtain ⟨_, near, _, ordinal⟩ := (mem_denseRows keyed).mp inFirst
    obtain ⟨_, near', _, ordinal'⟩ := (mem_denseRows keyed).mp inSecond
    rcases order with nearer | ⟨same, before⟩
    · exact .inl nearer
    · rw [ordinal, ordinal'] at before
      refine .inr ⟨same, Nat.lt_of_le_of_ne before ?_⟩
      intro sameOrdinal
      apply different
      have sameChunk : first.2.chunk = second.2.chunk :=
        keyed.chunkOrdinals.eq_of_key near.1.known near'.1.known
          (Prod.ext (near.1.corpusVersionId.trans near'.1.corpusVersionId.symm) sameOrdinal)
      rw [sameChunk, same]
  have top : TopOf 5 Nearer _ _ :=
    topOf_take_insertionSort (fun row => (row.2.chunk, row.1.distance)) DenseRetriever.byDistance
      distinct strict
  refine ⟨?_, top.congr ?_, rfl⟩
  · intro row member
    have known := (List.perm_insertionSort _ _).mem_iff.mp (List.mem_of_mem_take member)
    exact ((mem_denseRows keyed).mp known).1
  · intro pair
    constructor
    · intro found
      obtain ⟨row, member, rfl⟩ := found
      exact ((mem_denseRows keyed).mp member).2.1
    · intro near
      obtain ⟨row, joined, sameChunk⟩ := exists_joined keyed near.1.known
      refine ⟨({ chunkId := pair.1.id, ordinal := pair.1.ordinal, distance := pair.2 }, row),
        (mem_denseRows keyed).mpr ⟨joined, ?_, ?_, ?_⟩, ?_⟩
      · rw [sameChunk]
        exact near
      · rw [sameChunk]
      · rw [sameChunk]
      · rw [sameChunk]

/-- The chunk has an embedding of the current version and dimension. -/
def DenseRetriever.Embedded (retriever : DenseRetriever δ) (material : Material) (chunk : Chunk) :
    Prop :=
  ∃ row ∈ material.chunkEmbeddings, retriever.isCurrent chunk row = true

/-- A query that reaches the search: authorized before and after the provider
answered, with a finite vector of the declared dimension. -/
structure DenseRetriever.Asked (retriever : DenseRetriever δ)
    (embedQuery : String → Option (List Component)) (before after : Snapshot)
    (scope : RetrievalScope) (question : String) (vector : List Component) : Prop where
  authorizedBefore : before.authorize scope question = .ok ()
  answered : embedQuery question = some vector
  sized : vector.length = retriever.dimensions
  finite : vector.all (·.isSome) = true
  authorizedAfter : after.authorize scope question = .ok ()

variable {embedQuery : String → Option (List Component)} {before after : Snapshot}
  {question : String}

omit [LinearOrder δ] in
theorem missing_iff :
    (∃ chunk ∈ indexedChunks material scope.courseId scope.corpusVersionId,
        retriever.hasEmbedding material chunk = false) ↔
      ∃ chunk : Chunk, chunk.Retrievable material scope ∧ ¬ retriever.Embedded material chunk := by
  simp only [mem_indexedChunks, DenseRetriever.Embedded, ← Bool.not_eq_true,
    DenseRetriever.hasEmbedding, List.any_eq_true]

variable (distance)

/-- The search refuses the corpus, or returns the nearest chunks. -/
theorem denseRetrieve_eq
    (asked : retriever.Asked embedQuery before after scope question vector) :
    retriever.retrieve distance embedQuery before after scope question =
      (do
        failIf (∃ chunk ∈ indexedChunks after.material scope.courseId scope.corpusVersionId,
          retriever.hasEmbedding after.material chunk = false) (.rag "RETRIEVAL_INDEX_MISSING")
        return (((retriever.rows distance vector after.material scope.courseId
          scope.corpusVersionId).insertionSort DenseRetriever.byDistance).take 5).map
            fun row => row.2.evidence) := by
  have usable : ¬ (vector.length ≠ retriever.dimensions ∨ ¬ vector.all (·.isSome) = true) := by
    intro unusable
    rcases unusable with size | infinite
    · exact size asked.sized
    · exact infinite asked.finite
  rw [DenseRetriever.retrieve, asked.authorizedBefore, ok_bind, asked.answered]
  dsimp only
  rw [failIf_of_not usable, ok_bind, asked.authorizedAfter, ok_bind]

/-- The dense retriever refuses a corpus exactly when a chunk of it lacks its
embedding. -/
theorem indexMissing_iff
    (asked : retriever.Asked embedQuery before after scope question vector) :
    retriever.retrieve distance embedQuery before after scope question =
        .error (.rag "RETRIEVAL_INDEX_MISSING") ↔
      ∃ chunk : Chunk, chunk.Retrievable after.material scope ∧
        ¬ retriever.Embedded after.material chunk := by
  rw [denseRetrieve_eq distance asked, ← missing_iff, bind_eq_error, failIf_eq_error]
  constructor
  · intro failed
    rcases failed with ⟨missing, _⟩ | ⟨_, _, later⟩
    · exact missing
    · cases later
  · intro missing
    exact .inl ⟨missing, rfl⟩

/-- Otherwise it returns the nearest chunks within the threshold. -/
theorem returnsNearest_dense (keyed : after.material.Keyed)
    (asked : retriever.Asked embedQuery before after scope question vector)
    (embedded : ∀ chunk : Chunk, chunk.Retrievable after.material scope →
      retriever.Embedded after.material chunk) :
    ∃ rows, ReturnsNearest retriever distance vector after.material scope
      (retriever.retrieve distance embedQuery before after scope question) rows := by
  have complete : ¬ ∃ chunk ∈ indexedChunks after.material scope.courseId scope.corpusVersionId,
      retriever.hasEmbedding after.material chunk = false := by
    rw [missing_iff]
    intro missing
    obtain ⟨chunk, retrievable, lacking⟩ := missing
    exact lacking (embedded chunk retrievable)
  rw [denseRetrieve_eq distance asked, failIf_of_not complete, ok_bind]
  exact ⟨_, returnsNearest_rows keyed⟩

end Dense

/-! ### Rows in another order -/

section Reordering

variable {material other : Material} (reordered : material.Reordered other)
include reordered

theorem covers_reordered {search : TextSearch} {lexemes : List String} {scope : RetrievalScope}
    {chunk : Chunk} :
    chunk.Covers search lexemes other scope ↔ chunk.Covers search lexemes material scope := by
  rw [Chunk.Covers, Chunk.Covers, retrievable_reordered reordered]

/-- The same content gives the same full-text result. -/
theorem postgres_reordered {search : TextSearch} (keyed : material.Keyed)
    (matching : search.MatchesAlternatives) (tables : Identity) (dialogue : Dialogue) (now : Time)
    (scope : RetrievalScope) (question : String) :
    PostgresRetriever.retrieve search tables other dialogue now scope question =
      PostgresRetriever.retrieve search tables material dialogue now scope question := by
  have sameAuthorization := authorizeRetrieval_reordered reordered tables dialogue now scope question
  cases authorized : authorizeRetrieval tables material dialogue now scope question with
  | error failure =>
      rw [PostgresRetriever.retrieve, PostgresRetriever.retrieve, sameAuthorization, authorized]
      rfl
  | ok done =>
      rw [authorized] at sameAuthorization
      by_cases none : queryLexemes ((search.plainQuery question).getD "") = []
      · rw [PostgresRetriever.retrieve, PostgresRetriever.retrieve, sameAuthorization, authorized,
          ok_bind, ok_bind, if_pos none, if_pos none]
      · obtain ⟨rows, returns⟩ := returnsTop_postgres keyed matching authorized rfl none
        obtain ⟨others, returnsOther⟩ := returnsTop_postgres (keyed.reordered reordered) matching
          sameAuthorization rfl none
        have sameChunks := (returnsOther.top.congr fun _ => covers_reordered reordered).unique
          (Chunk.MoreRelevant.asymm _ _) returns.top
        have sameRows := rows_eq_of_chunks keyed
          (fun row member => (returnsOther.joined row member).reordered reordered) returns.joined
          sameChunks
        rw [returnsOther.result_eq, returns.result_eq, sameRows]

variable {δ : Type} [LinearOrder δ] {retriever : DenseRetriever δ}

omit [LinearOrder δ] in
theorem embedded_reordered {chunk : Chunk} :
    retriever.Embedded other chunk ↔ retriever.Embedded material chunk := by
  constructor
  · intro embedded
    obtain ⟨row, kept, current⟩ := embedded
    exact ⟨row, reordered.chunkEmbeddings.mem_iff.mp kept, current⟩
  · intro embedded
    obtain ⟨row, kept, current⟩ := embedded
    exact ⟨row, reordered.chunkEmbeddings.mem_iff.mpr kept, current⟩

theorem near_reordered {distance : List Component → List Component → δ} {vector : List Component}
    {scope : RetrievalScope} {pair : Chunk × δ} :
    retriever.Near distance vector other scope pair ↔
      retriever.Near distance vector material scope pair := by
  rw [DenseRetriever.Near, DenseRetriever.Near, retrievable_reordered reordered]
  simp only [reordered.chunkEmbeddings.mem_iff]

/-- The same content gives the same dense result. -/
theorem dense_reordered {distance : List Component → List Component → δ}
    {embedQuery : String → Option (List Component)} {before after : Snapshot}
    {scope : RetrievalScope} {question : String} {vector : List Component}
    (same : after.material = material) (keyed : material.Keyed)
    (asked : retriever.Asked embedQuery before after scope question vector) :
    retriever.retrieve distance embedQuery before { after with material := other } scope question =
      retriever.retrieve distance embedQuery before after scope question := by
  subst same
  have askedOther : retriever.Asked embedQuery before { after with material := other } scope
      question vector :=
    { asked with
      authorizedAfter :=
        (authorizeRetrieval_reordered reordered after.tables after.dialogue after.now scope
          question).trans asked.authorizedAfter }
  by_cases complete : ∀ chunk : Chunk, chunk.Retrievable after.material scope →
      retriever.Embedded after.material chunk
  · obtain ⟨rows, returns⟩ := returnsNearest_dense distance keyed asked complete
    obtain ⟨others, returnsOther⟩ := returnsNearest_dense distance
      (keyed.reordered reordered) askedOther (by
        intro chunk retrievable
        exact (embedded_reordered reordered).mpr
          (complete chunk ((retrievable_reordered reordered).mp retrievable)))
    have samePairs := (returnsOther.top.congr fun _ => near_reordered reordered).unique
      Nearer.asymm returns.top
    have sameChunks : (others.map (·.2)).map (·.chunk) = (rows.map (·.2)).map (·.chunk) := by
      have chunks := congrArg (List.map Prod.fst) samePairs
      simpa [List.map_map, Function.comp_def] using chunks
    have sameRows : others.map (·.2) = rows.map (·.2) := by
      apply rows_eq_of_chunks keyed _ _ sameChunks
      · intro row member
        obtain ⟨item, inItems, rfl⟩ := List.mem_map.mp member
        exact (returnsOther.joined item inItems).reordered reordered
      · intro row member
        obtain ⟨item, inItems, rfl⟩ := List.mem_map.mp member
        exact returns.joined item inItems
    have ofRows (items : List (DenseCandidate δ × Candidate)) :
        (items.map fun row => row.2.evidence) = (items.map (·.2)).map Candidate.evidence := by
      rw [List.map_map]
      exact List.map_congr_left fun _ _ => rfl
    rw [returnsOther.result_eq, returns.result_eq, ofRows, ofRows, sameRows]
  · push Not at complete
    have missing := (indexMissing_iff distance asked).mpr complete
    obtain ⟨chunk, retrievable, lacking⟩ := complete
    have missingOther := (indexMissing_iff distance askedOther).mpr
      ⟨chunk, (retrievable_reordered reordered).mpr retrievable,
        fun embedded => lacking ((embedded_reordered reordered).mp embedded)⟩
    rw [missing, missingOther]

end Reordering

/-! ### Retrieval by content -/

/-- No chunk of the list appears twice, and every one is of the scope. -/
structure OnceEach (material : Material) (scope : RetrievalScope) (chunks : List Chunk) : Prop where
  distinct : (chunks.map (·.id)).Nodup
  inScope : ∀ chunk ∈ chunks, chunk.Retrievable material scope

theorem onceEach_of_nodup {material : Material} (keyed : material.Keyed) {scope : RetrievalScope}
    {chunks : List Chunk} (distinct : chunks.Nodup)
    (inScope : ∀ chunk ∈ chunks, chunk.Retrievable material scope) :
    OnceEach material scope chunks := by
  refine ⟨distinct.map_on ?_, inScope⟩
  intro first inFirst second inSecond same
  exact keyed.chunkIds.eq_of_key (inScope first inFirst).known (inScope second inSecond).known same

/-- The chunks of the nearest pairs: a chunk has one current embedding. -/
theorem nodup_of_near {δ : Type} [LinearOrder δ] {retriever : DenseRetriever δ}
    {distance : List Component → List Component → δ} {vector : List Component}
    {material : Material} (keyed : material.Keyed) {scope : RetrievalScope}
    {pairs : List (Chunk × δ)} (distinct : pairs.Nodup)
    (near : ∀ pair ∈ pairs, retriever.Near distance vector material scope pair) :
    (pairs.map (·.1)).Nodup := by
  apply distinct.map_on
  intro first inFirst second inSecond same
  obtain ⟨_, ⟨row, kept, current, distanceEq⟩, _⟩ := near first inFirst
  obtain ⟨_, ⟨other, otherKept, otherCurrent, otherEq⟩, _⟩ := near second inSecond
  simp only [DenseRetriever.isCurrent, Bool.and_eq_true, beq_iff_eq] at current otherCurrent
  have sameRow : row = other := by
    apply keyed.embeddingKeys.eq_of_key kept otherKept
    rw [current.1.1.1.1, otherCurrent.1.1.1.1, current.1.2, otherCurrent.1.2, same]
  rw [sameRow, ← otherEq] at distanceEq
  exact Prod.ext same distanceEq

/-- Both retrievers return what the content of the corpus determines. The
full-text one returns nothing for a question without lexemes, and else the first
five, by coverage, rank and ordinal, of the chunks of the scope with at least two
thirds of them. The dense one refuses a corpus exactly when a chunk of it lacks
its embedding, and else returns the first five, by distance and ordinal, of the
chunks within the threshold. No chunk is returned twice, and the physical order
of the rows changes neither result. -/
theorem retrieval_of_content {δ : Type} [LinearOrder δ] {search : TextSearch}
    (matching : search.MatchesAlternatives) {retriever : DenseRetriever δ}
    (distance : List Component → List Component → δ)
    {embedQuery : String → Option (List Component)} {before after : Snapshot}
    {scope : RetrievalScope} {question : String} {vector : List Component}
    (keyed : after.material.Keyed)
    (asked : retriever.Asked embedQuery before after scope question vector)
    {lexemes : List String}
    (isLexemes : lexemes = queryLexemes ((search.plainQuery question).getD "")) :
    (lexemes.Nodup ∧
      (lexemes = [] →
        PostgresRetriever.retrieve search after.tables after.material after.dialogue after.now scope
          question = .ok []) ∧
      (lexemes ≠ [] → ∃ rows,
        ReturnsTop after.material (Chunk.MoreRelevant search lexemes)
          (Chunk.Covers search lexemes after.material scope)
          (PostgresRetriever.retrieve search after.tables after.material after.dialogue after.now
            scope question) rows ∧
        OnceEach after.material scope (rows.map (·.chunk))) ∧
      ∀ other, after.material.Reordered other →
        PostgresRetriever.retrieve search after.tables other after.dialogue after.now scope question =
          PostgresRetriever.retrieve search after.tables after.material after.dialogue after.now
            scope question) ∧
    (retriever.retrieve distance embedQuery before after scope question =
        .error (.rag "RETRIEVAL_INDEX_MISSING") ↔
      ∃ chunk : Chunk, chunk.Retrievable after.material scope ∧
        ¬ retriever.Embedded after.material chunk) ∧
    ((∀ chunk : Chunk, chunk.Retrievable after.material scope →
        retriever.Embedded after.material chunk) → ∃ rows,
      ReturnsNearest retriever distance vector after.material scope
        (retriever.retrieve distance embedQuery before after scope question) rows ∧
      OnceEach after.material scope (rows.map (·.2.chunk))) ∧
    ∀ other, after.material.Reordered other →
      retriever.retrieve distance embedQuery before { after with material := other } scope question =
        retriever.retrieve distance embedQuery before after scope question := by
  have authorized := asked.authorizedAfter
  rw [Snapshot.authorize] at authorized
  refine ⟨⟨?_, ?_, ?_, ?_⟩, indexMissing_iff distance asked, ?_, ?_⟩
  · rw [isLexemes]
    exact nodup_eraseDups _
  · intro none
    rw [isLexemes] at none
    rw [PostgresRetriever.retrieve, authorized, ok_bind, if_pos none]
    rfl
  · intro some
    obtain ⟨rows, returns⟩ := returnsTop_postgres keyed matching authorized isLexemes some
    have irrefl (chunk : Chunk) : ¬ chunk.MoreRelevant search lexemes chunk :=
      fun self => Chunk.MoreRelevant.asymm search lexemes chunk chunk self self
    exact ⟨rows, returns, onceEach_of_nodup keyed (returns.top.nodup irrefl)
      fun chunk member => (returns.top.sound chunk member).1⟩
  · intro other reordered
    exact postgres_reordered reordered keyed matching after.tables after.dialogue after.now scope
      question
  · intro embedded
    obtain ⟨rows, returns⟩ := returnsNearest_dense distance keyed asked embedded
    have irrefl (pair : Chunk × δ) : ¬ Nearer pair pair :=
      fun self => Nearer.asymm pair pair self self
    have chunksOf : (rows.map fun row => (row.2.chunk, row.1.distance)).map (·.1) =
        rows.map (·.2.chunk) := by
      rw [List.map_map]
      rfl
    refine ⟨rows, returns, ?_⟩
    rw [← chunksOf]
    apply onceEach_of_nodup keyed (nodup_of_near keyed (returns.top.nodup irrefl) returns.top.sound)
    intro chunk member
    obtain ⟨pair, inPairs, rfl⟩ := List.mem_map.mp member
    exact (returns.top.sound pair inPairs).1
  · intro other reordered
    exact dense_reordered reordered rfl keyed asked

/-! ### A corpus of five chunks -/

section Sample

/-- The lexeme of a token that is one. -/
def QueryToken.lexeme? : QueryToken → Option String
  | .lexeme text => some text
  | .operator _ => none

theorem lexemes_of_alternatives : ∀ alternatives : List String,
    ((alternatives.map QueryToken.lexeme).intersperse (.operator '|')).filterMap
      QueryToken.lexeme? = alternatives
  | [] => rfl
  | [_] => rfl
  | first :: second :: rest => by
      have later := lexemes_of_alternatives (second :: rest)
      rw [List.map_cons] at later
      rw [List.map_cons, List.map_cons, List.intersperse_cons_cons]
      exact congrArg (List.cons first) later

/-- The lower-case words of a text, without the stop word. -/
def wordsOf (text : String) : List String :=
  ((text.toList.splitOnP fun char => !char.isAlpha).map fun word =>
    String.ofList (word.map Char.toLower)).filter fun word => word ≠ "" ∧ word ≠ "a"

/-- The alternatives of a query. -/
def alternativesOf (text : String) : List String :=
  ((readQuery none text.toList).getD []).filterMap QueryToken.lexeme?

/-- A search by words, which ranks a chunk by how many of its words are asked for. -/
def sampleSearch : TextSearch where
  plainQuery := fun question =>
    some (" & ".intercalate ((wordsOf question).map fun word => "'" ++ word ++ "'"))
  vectorLexemes := fun content => (wordsOf content).eraseDups
  isMatch := fun content text => (alternativesOf text).any (· ∈ (wordsOf content).eraseDups)
  rank := fun content text => ((wordsOf content).countP (· ∈ alternativesOf text) : Nat)

theorem sampleSearch_matchesAlternatives : sampleSearch.MatchesAlternatives := by
  intro content text alternatives _ reads
  simp only [sampleSearch, alternativesOf, reads, Option.getD_some, lexemes_of_alternatives,
    List.any_eq_true, decide_eq_true_iff]

def chunkOf (ordinal : Nat) (content : String) : Chunk where
  id := sampleId (20 + ordinal)
  courseId := sampleId 2
  corpusVersionId := sampleId 7
  documentVersionId := sampleId 6
  pageStart := 1
  pageEnd := 1
  ordinal
  content
  contentHash := "chunk"

def embeddingOf (ordinal : Nat) (component : Rat) : ChunkEmbedding where
  chunkId := sampleId (20 + ordinal)
  embeddingVersion := "embedding"
  courseId := sampleId 2
  corpusVersionId := sampleId 7
  dims := 1
  embedding := [some component]

/-- Five chunks, of which the third is about another subject. -/
def sampleCorpus : Material :=
  { sampleLibrary with
    chunks := [chunkOf 0 "A stack is last in, first out.",
      chunkOf 1 "What a stack is: what a pile of plates is.",
      chunkOf 2 "A queue is first in, first out.",
      chunkOf 3 "What is a stack? It is a pile.",
      chunkOf 4 "A stack is what a pile is."]
    chunkEmbeddings := [embeddingOf 0 1, embeddingOf 1 3, embeddingOf 2 4, embeddingOf 3 1,
      embeddingOf 4 2] }

/-- The same rows the other way round. -/
def sampleCorpusReversed : Material :=
  { sampleCorpus with
    chunks := sampleCorpus.chunks.reverse
    chunkEmbeddings := sampleCorpus.chunkEmbeddings.reverse }

def sampleScope : RetrievalScope where
  courseId := sampleId 2
  corpusVersionId := sampleId 7
  principalUserId := sampleId 1
  conversationId := sampleId 3
  messageId := sampleId 4
  correlationId := "request"

/-- The question waits for its evidence. -/
def snapshotOf (material : Material) : Snapshot where
  tables := sampleIdentity
  material
  dialogue := sampleAccepted.2
  now := 2

def sampleRetriever : DenseRetriever Rat where
  embedderVersion := "embedding"
  dimensions := 1
  maxDistance := 2

/-- The difference of the first components. -/
def sampleDistance (first second : List Component) : Rat :=
  |((first.head?.getD none).getD 0) - ((second.head?.getD none).getD 0)|

/-- The corpus without the embedding of its last chunk. -/
def sampleCorpusLacking : Material :=
  { sampleCorpus with chunkEmbeddings := sampleCorpus.chunkEmbeddings.dropLast }

theorem sampleCorpus_keyed : sampleCorpus.Keyed where
  chunkIds := by decide +kernel
  chunkOrdinals := by decide +kernel
  chunkVersion := by decide +kernel
  versionIds := by decide +kernel
  versionDocument := by decide +kernel
  documentIds := by decide +kernel
  embeddingKeys := by decide +kernel

/-- The query of the question, whose vector is at the origin. -/
theorem sampleRetriever_asked (material : Material)
    (authorized : (snapshotOf material).authorize sampleScope "What is a stack?" = .ok ()) :
    sampleRetriever.Asked (fun _ => some [some 0]) (snapshotOf material) (snapshotOf material)
      sampleScope "What is a stack?" [some 0] where
  authorizedBefore := authorized
  answered := rfl
  sized := rfl
  finite := rfl
  authorizedAfter := authorized

/-- Both orders of the rows give the same chunks: full text by coverage, rank and
ordinal, dense by distance and ordinal; a corpus that lacks an embedding is refused. -/
theorem retrieval_of_content_of_sample :
    (∀ material ∈ [sampleCorpus, sampleCorpusReversed],
      (PostgresRetriever.retrieve sampleSearch sampleIdentity material sampleAccepted.2 2 sampleScope
          "What is a stack?").map (List.map (·.fragment)) =
        .ok ["chunk-1", "chunk-3", "chunk-4", "chunk-0"] ∧
      (sampleRetriever.retrieve sampleDistance (fun _ => some [some 0]) (snapshotOf sampleCorpus)
          (snapshotOf material) sampleScope "What is a stack?").map (List.map (·.fragment)) =
        .ok ["chunk-0", "chunk-3", "chunk-4"]) ∧
    sampleRetriever.retrieve sampleDistance (fun _ => some [some 0]) (snapshotOf sampleCorpusLacking)
        (snapshotOf sampleCorpusLacking) sampleScope "What is a stack?" =
      .error (.rag "RETRIEVAL_INDEX_MISSING") := by
  have reordered : sampleCorpus.Reordered sampleCorpusReversed :=
    { chunks := List.reverse_perm _
      documentVersions := .refl _
      documents := .refl _
      corpusVersions := .refl _
      chunkEmbeddings := List.reverse_perm _ }
  have asked := sampleRetriever_asked sampleCorpus (by decide +kernel)
  have content := retrieval_of_content sampleSearch_matchesAlternatives sampleDistance
    sampleCorpus_keyed asked rfl
  obtain ⟨⟨_, _, _, sameLexical⟩, _, _, sameDense⟩ := content
  have lexical : (PostgresRetriever.retrieve sampleSearch sampleIdentity sampleCorpus sampleAccepted.2 2
      sampleScope "What is a stack?").map (List.map (·.fragment)) =
        .ok ["chunk-1", "chunk-3", "chunk-4", "chunk-0"] := by decide +kernel
  have dense : (sampleRetriever.retrieve sampleDistance (fun _ => some [some 0])
      (snapshotOf sampleCorpus) (snapshotOf sampleCorpus) sampleScope "What is a stack?").map
        (List.map (·.fragment)) = .ok ["chunk-0", "chunk-3", "chunk-4"] := by decide +kernel
  constructor
  · intro material member
    simp only [List.mem_cons, List.not_mem_nil, or_false] at member
    rcases member with rfl | rfl
    · exact ⟨lexical, dense⟩
    · exact ⟨(congrArg (Except.map _) (sameLexical _ reordered)).trans lexical,
        (congrArg (Except.map _) (sameDense _ reordered)).trans dense⟩
  · have lacking := sampleRetriever_asked sampleCorpusLacking (by decide +kernel)
    have keyed : sampleCorpusLacking.Keyed :=
      { sampleCorpus_keyed with embeddingKeys := by decide +kernel }
    have content := retrieval_of_content sampleSearch_matchesAlternatives sampleDistance keyed
      lacking rfl
    have absent : ¬ ∃ row ∈ sampleCorpusLacking.chunkEmbeddings,
        sampleRetriever.isCurrent (chunkOf 4 "A stack is what a pile is.") row = true := by
      decide +kernel
    exact content.2.1.mpr ⟨_, ⟨by decide +kernel, rfl, rfl, by decide +kernel⟩, absent⟩

end Sample

end Docta
