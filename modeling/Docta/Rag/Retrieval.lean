/-
Module: Docta.Rag.Retrieval
Purpose: Retrieval over the chunks of one captured corpus: the authorization
  that every retriever repeats at its port, and the full-text retriever with its
  lexeme quoting, its coverage floor and its order.
Trusted boundary: the database's text search
Main exports: authorizeRetrieval, TextSearch, queryLexemes, orTsqueryText,
  PostgresRetriever.retrieve
-/
import Docta.Library.Fallible
import Docta.Rag.Draft
import Mathlib.Data.List.Sort

namespace Docta

open Table Fallible

/-! ### Authorization -/

/-- `func.coalesce(Message.retrieval_query, Message.question)` -/
def Message.searchText (message : Message) : String :=
  message.retrievalQuery.getD message.question

/-- The query of `_pipeline`: `request.retrieval_query or request.question`. -/
def TutorRequest.query (request : TutorRequest) : String :=
  match request.retrievalQuery with
  | some query => if query = "" then request.question else query
  | none => request.question

/-- The conditions on the message row of a scope. -/
def Message.inScope (message : Message) (now : Time) (scope : RetrievalScope) (query : String) :
    Bool :=
  message.id == scope.messageId && message.courseId == scope.courseId &&
    message.corpusVersionId == some scope.corpusVersionId &&
    message.conversationId == scope.conversationId && message.isPending &&
    message.searchText == query && decide (now < message.deadlineAt)

/-- The conversation of the message: the scope's principal owns it and still
belongs to its course. -/
def Conversation.inScope (conversation : Conversation) (tables : Identity) (message : Message)
    (scope : RetrievalScope) : Bool :=
  conversation.id == message.conversationId &&
    belongs tables conversation.ownerUserId conversation.courseId &&
    conversation.ownerUserId == scope.principalUserId

/-- The corpus of the message is ready. -/
def CorpusVersion.inScope (corpus : CorpusVersion) (message : Message) : Bool :=
  message.corpusVersionId == some corpus.id && corpus.courseId == message.courseId &&
    corpus.state == .ready

/-- `authorize_retrieval(session, scope, query)`; a scope whose fields are typed
passes `validate_scope`. -/
def authorizeRetrieval (tables : Identity) (material : Material) (dialogue : Dialogue) (now : Time)
    (scope : RetrievalScope) (query : String) : Except Failure Unit :=
  failIf
    (¬ ∃ message ∈ dialogue.messages, message.inScope now scope query = true ∧
      (∃ conversation ∈ dialogue.conversations,
        conversation.inScope tables message scope = true) ∧
      ∃ corpus ∈ material.corpusVersions, corpus.inScope message = true)
    (.rag "RETRIEVAL_SCOPE_INVALID")

/-! ### Lexemes -/

/-- The body of a quoted lexeme after its opening quote, as the pattern reads
it, with the text after its closing quote: two quotes are read as one while
another closing quote follows. -/
def quotedBody : List Char → Option (List Char × List Char)
  | [] => none
  | '\'' :: '\'' :: rest =>
      match quotedBody rest with
      | some (raw, after) => some ('\'' :: '\'' :: raw, after)
      | none => some ([], '\'' :: rest)
  | '\'' :: rest => some ([], rest)
  | '\\' :: char :: rest =>
      if char = '\n' then none
      else (quotedBody rest).map fun found => ('\\' :: char :: found.1, found.2)
  | '\\' :: [] => none
  | char :: rest => (quotedBody rest).map fun found => (char :: found.1, found.2)

/-- `_TSQUERY_LEXEME.findall(text)`, within as many scans as there are characters. -/
def findLexemes : Nat → List Char → List (List Char)
  | 0, _ => []
  | _, [] => []
  | scans + 1, char :: rest =>
      if char = '\'' then
        match quotedBody rest with
        | some (raw, after) => raw :: findLexemes scans after
        | none => findLexemes scans rest
      else findLexemes scans rest

/-- `_TSQUERY_UNESCAPE.sub(...)` -/
def unescapeLexeme : List Char → List Char
  | [] => []
  | '\'' :: '\'' :: rest => '\'' :: unescapeLexeme rest
  | '\\' :: char :: rest =>
      if char = '\n' then '\\' :: '\n' :: unescapeLexeme rest else char :: unescapeLexeme rest
  | char :: rest => char :: unescapeLexeme rest

/-- `_query_lexemes(plain_query_text)` -/
def queryLexemes (plainQueryText : String) : List String :=
  ((findLexemes plainQueryText.length plainQueryText.toList).map fun raw =>
    String.ofList (unescapeLexeme raw)).eraseDups

/-- `lexeme.replace("\\", "\\\\").replace("'", "''")` -/
def escapeLexeme (lexeme : String) : String :=
  String.ofList (lexeme.toList.flatMap fun char =>
    if char = '\\' then ['\\', '\\'] else if char = '\'' then ['\'', '\''] else [char])

/-- `_or_tsquery_text(lexemes)` -/
def orTsqueryText (lexemes : List String) : String :=
  " | ".intercalate (lexemes.map fun lexeme => "'" ++ escapeLexeme lexeme ++ "'")

/-! ### The full-text retriever -/

/-- The text search of the database. A chunk's `search_vector` is computed from
its content. -/
structure TextSearch where
  /-- `plainto_tsquery('spanish', question)`, as text -/
  plainQuery : String → Option String
  /-- `tsvector_to_array(search_vector)` -/
  vectorLexemes : String → List String
  /-- `search_vector @@ query` -/
  isMatch : String → String → Bool
  /-- `ts_rank_cd(search_vector, query)` -/
  rank : String → String → Rat

/-- A row of the retrieval query. -/
structure Candidate where
  chunk : Chunk
  title : String
  checksum : Option String
deriving DecidableEq, Repr

/-- The chunks of a corpus whose document version is indexed, joined with it and
its document. -/
def corpusRows (material : Material) (courseId corpusVersionId : UUID) : List Candidate :=
  (material.chunks.filter fun chunk =>
      chunk.courseId == courseId && chunk.corpusVersionId == corpusVersionId).flatMap fun chunk =>
    (material.documentVersions.filter fun version =>
        version.id == chunk.documentVersionId && version.courseId == chunk.courseId &&
          version.state == .indexed).flatMap fun version =>
      (material.documents.filter fun document =>
        document.id == version.documentId && document.courseId == chunk.courseId).map fun document =>
          { chunk, title := document.title, checksum := version.objectSha256 }

section Relevance

variable (search : TextSearch) (lexemes : List String)

/-- How many of the question's lexemes the chunk holds. -/
def Candidate.matched (row : Candidate) : Nat :=
  lexemes.countP (· ∈ search.vectorLexemes row.chunk.content)

/-- The row's rank under the query of the lexemes. -/
def Candidate.rank (row : Candidate) : Rat :=
  search.rank row.chunk.content (orTsqueryText lexemes)

/-- Some lexeme matches, and at least two thirds of them. -/
def Candidate.covers (row : Candidate) : Bool :=
  search.isMatch row.chunk.content (orTsqueryText lexemes) &&
    decide (lexemes.length * 2 ≤ row.matched search lexemes * 3)

/-- `ORDER BY matched DESC, rank DESC, ordinal` -/
def byRelevance (first second : Candidate) : Prop :=
  second.matched search lexemes < first.matched search lexemes ∨
    (second.matched search lexemes = first.matched search lexemes ∧
      (second.rank search lexemes < first.rank search lexemes ∨
        (second.rank search lexemes = first.rank search lexemes ∧
          first.chunk.ordinal ≤ second.chunk.ordinal)))

instance : DecidableRel (byRelevance search lexemes) :=
  fun _ _ => inferInstanceAs (Decidable (_ ∨ (_ ∧ (_ ∨ (_ ∧ _)))))

end Relevance

/-- The evidence of a row, with the checksum as it is stored. -/
def Candidate.evidence (row : Candidate) : Evidence where
  chunkId := row.chunk.id
  courseId := row.chunk.courseId
  corpusVersionId := row.chunk.corpusVersionId
  documentVersionId := row.chunk.documentVersionId
  documentTitle := row.title
  documentSha256 := row.checksum
  pageStart := row.chunk.pageStart
  pageEnd := row.chunk.pageEnd
  fragment := "chunk-" ++ toString row.chunk.ordinal
  content := row.chunk.content
  contentHash := row.chunk.contentHash

/-- `PostgresRetriever.retrieve(scope, question)` -/
def PostgresRetriever.retrieve (search : TextSearch) (tables : Identity) (material : Material)
    (dialogue : Dialogue) (now : Time) (scope : RetrievalScope) (question : String) :
    Except Failure (List Evidence) := do
  authorizeRetrieval tables material dialogue now scope question
  let lexemes := queryLexemes ((search.plainQuery question).getD "")
  if lexemes = [] then return []
  else
    let rows := (corpusRows material scope.courseId scope.corpusVersionId).filter
      (Candidate.covers search lexemes)
    return ((rows.insertionSort (byRelevance search lexemes)).take 5).map Candidate.evidence

example : queryLexemes "'d''or' & 'a\\\\b'" = ["d'or", "a\\b"] := by decide +kernel

end Docta
