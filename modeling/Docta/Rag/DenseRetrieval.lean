/-
Module: Docta.Rag.DenseRetrieval
Purpose: The dense retriever: an exact search over the stored embeddings of one
  corpus, refused as a whole when a chunk of it has no current embedding.
Trusted boundary: the embedding provider and the distance operator are parameters
Main exports: Snapshot, DenseRetriever, DenseRetriever.retrieve
-/
import Docta.Rag.Retrieval
import Mathlib.Order.Defs.LinearOrder

namespace Docta

open Table Fallible

/-- What the statements of one session read. -/
structure Snapshot where
  tables : Identity
  material : Material
  dialogue : Dialogue
  now : Time

/-- `authorize_retrieval(session, scope, query)` in a session. -/
def Snapshot.authorize (snapshot : Snapshot) (scope : RetrievalScope) (query : String) :
    Except Failure Unit :=
  authorizeRetrieval snapshot.tables snapshot.material snapshot.dialogue snapshot.now scope query

/-- The chunks of a corpus joined with their indexed document versions. -/
def indexedChunks (material : Material) (courseId corpusVersionId : UUID) : List Chunk :=
  (material.chunks.filter fun chunk =>
      chunk.courseId == courseId && chunk.corpusVersionId == corpusVersionId).flatMap fun chunk =>
    (material.documentVersions.filter fun version =>
      version.id == chunk.documentVersionId && version.courseId == chunk.courseId &&
        version.state == .indexed).map fun _ => chunk

/-- A row of the pre-filtered candidates. -/
structure DenseCandidate (δ : Type) where
  chunkId : UUID
  ordinal : Nat
  distance : δ

/-- A retriever over an embedder of one version; `dimensions` is what that
version declares. -/
structure DenseRetriever (δ : Type) where
  embedderVersion : String
  dimensions : Nat
  maxDistance : δ

namespace DenseRetriever

section Queries

variable {δ : Type} (retriever : DenseRetriever δ)

/-- The embedding is the chunk's, of the current version and dimension. -/
def isCurrent (chunk : Chunk) (row : ChunkEmbedding) : Bool :=
  row.chunkId == chunk.id && row.courseId == chunk.courseId &&
    row.corpusVersionId == chunk.corpusVersionId &&
      row.embeddingVersion == retriever.embedderVersion && row.dims == retriever.dimensions

/-- `has_embedding` -/
def hasEmbedding (material : Material) (chunk : Chunk) : Bool :=
  material.chunkEmbeddings.any (retriever.isCurrent chunk)

variable (distance : List Component → List Component → δ) (vector : List Component)

/-- `candidates`, pre-filtered before any distance is taken. -/
def candidates (material : Material) (courseId corpusVersionId : UUID) : List (DenseCandidate δ) :=
  (indexedChunks material courseId corpusVersionId).flatMap fun chunk =>
    (material.chunkEmbeddings.filter (retriever.isCurrent chunk)).map fun row =>
      { chunkId := chunk.id, ordinal := chunk.ordinal, distance := distance row.embedding vector }

variable [LinearOrder δ]

/-- The candidates within the threshold, joined with their chunk, its version
and its document. -/
def rows (material : Material) (courseId corpusVersionId : UUID) :
    List (DenseCandidate δ × Candidate) :=
  ((retriever.candidates distance vector material courseId corpusVersionId).filter fun candidate =>
      decide (candidate.distance ≤ retriever.maxDistance)).flatMap fun candidate =>
    (material.chunks.filter fun chunk => candidate.chunkId == chunk.id).flatMap fun chunk =>
      (material.documentVersions.filter fun version =>
          version.id == chunk.documentVersionId && version.courseId == chunk.courseId).flatMap
        fun version =>
          (material.documents.filter fun document =>
            document.id == version.documentId && document.courseId == chunk.courseId).map
              fun document =>
                (candidate, { chunk, title := document.title, checksum := version.objectSha256 })

/-- `ORDER BY distance, ordinal` -/
def byDistance (first second : DenseCandidate δ × Candidate) : Prop :=
  first.1.distance < second.1.distance ∨
    (first.1.distance = second.1.distance ∧ first.1.ordinal ≤ second.1.ordinal)

instance : DecidableRel (@byDistance δ _) :=
  fun _ _ => inferInstanceAs (Decidable (_ ∨ (_ ∧ _)))

end Queries

/-- `retrieve(scope, question)`: `embedQuery` is the provider's answer, or
nothing when the call or the conversion to numbers raises; a session is open
before it and another one after it. -/
def retrieve {δ : Type} [LinearOrder δ] (retriever : DenseRetriever δ)
    (distance : List Component → List Component → δ)
    (embedQuery : String → Option (List Component)) (before after : Snapshot)
    (scope : RetrievalScope) (question : String) : Except Failure (List Evidence) := do
  before.authorize scope question
  match embedQuery question with
  | none => .error (.rag "RETRIEVAL_UNAVAILABLE")
  | some vector => do
      failIf (vector.length ≠ retriever.dimensions ∨ ¬ vector.all (·.isSome) = true)
        (.rag "RETRIEVAL_UNAVAILABLE")
      after.authorize scope question
      failIf (∃ chunk ∈ indexedChunks after.material scope.courseId scope.corpusVersionId,
          retriever.hasEmbedding after.material chunk = false)
        (.rag "RETRIEVAL_INDEX_MISSING")
      let found := retriever.rows distance vector after.material scope.courseId scope.corpusVersionId
      return ((found.insertionSort byDistance).take 5).map fun row => row.2.evidence

end DenseRetriever

end Docta
