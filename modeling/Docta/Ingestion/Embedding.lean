/-
Module: Docta.Ingestion.Embedding
Purpose: The worker with an embedder behind an HTTP endpoint. Every vector it stores
  is the provider's vector for the filled template of its chunk, and an answer that
  cannot be matched with its inputs leaves nothing behind.
Trusted boundary: the provider answers anything; a deadline may pass at any batch;
  the vector column keeps single precision numbers
Main exports: embedBatch, embedBatches_eq_collect, HttpEmbedder.port, Serves,
  KeepsSingles, embedding_alignment, embedding_classified_iff
-/
import Docta.Ingestion.Fencing
import Docta.Rag.EmbeddingAnswers
import Docta.Rag.LosslessDecoding

namespace Docta

open Batching Contract Fallible JsonText Table

-- A quantifier over a list is decided along the list, not over all characters.
attribute [local instance (high)] List.decidableBAll

/-! ### Batch by batch -/

namespace IngestionWorker

/-- One turn of the loop of `_embed`. -/
def embedBatch (responses : Responses) (dims : Nat) (number : Nat) (inputs : List ParsedChunk) :
    Except Rejection (List (List Component)) := do
  failIf (responses.late number = true)
    { code := "EMBEDDING_UNAVAILABLE", state := .failed, transient := true }
  match responses.embedded number with
  | .error .invalid => .error { code := "EMBEDDING_INVALID", state := .failed }
  | .error .unavailable =>
      .error { code := "EMBEDDING_UNAVAILABLE", state := .failed, transient := true }
  | .error .other => .error { code := "DOCUMENT_PROCESSING_FAILED", state := .failed }
  | .ok vectors => do
      failIf (vectors.length ≠ inputs.length ∨ usable dims vectors = false)
        { code := "EMBEDDING_INVALID", state := .failed }
      return vectors

variable {responses : Responses} {dims : Nat}

/-- The loop of `_embed` puts the vectors of its turns one after the other. -/
theorem embedBatches_eq_collect (fuel number : Nat) (chunks : List ParsedChunk) :
    embedBatches responses dims fuel number chunks =
      collect embedBatchSize (embedBatch responses dims) fuel number chunks := by
  induction fuel generalizing number chunks with
  | zero => cases chunks <;> rfl
  | succ fuel ih =>
      cases chunks with
      | nil => rfl
      | cons chunk chunks =>
          rw [embedBatches, collect, embedBatch]
          by_cases late : responses.late number = true
          · rw [failIf, if_pos late]
            rfl
          · rw [failIf_of_not late, ok_bind, ok_bind]
            cases responses.embedded number with
            | error failure => cases failure <;> rfl
            | ok vectors =>
                simp only [ih]
                by_cases bad : vectors.length ≠ ((chunk :: chunks).take embedBatchSize).length ∨
                    usable dims vectors = false
                · rw [failIf, if_pos bad]
                  rfl
                · rw [failIf_of_not bad, ok_bind, ok_bind]
                  rfl

theorem embedBatch_eq_ok {number : Nat} {inputs : List ParsedChunk}
    {vectors : List (List Component)} :
    embedBatch responses dims number inputs = .ok vectors ↔
      responses.late number = false ∧ responses.embedded number = .ok vectors ∧
        vectors.length = inputs.length ∧ usable dims vectors = true := by
  rw [embedBatch, bind_eq_ok]
  simp only [failIf_eq_ok, Bool.not_eq_true, exists_const]
  apply and_congr_right
  intro _
  cases responses.embedded number with
  | error failure => cases failure <;> simp
  | ok found =>
      simp only [bind_eq_ok, failIf_eq_ok, not_or, not_not, Bool.not_eq_false, pure_eq_ok,
        Except.ok.injEq, exists_const]
      constructor
      · rintro ⟨⟨length, isUsable⟩, rfl⟩
        exact ⟨rfl, length, isUsable⟩
      · rintro ⟨rfl, length, isUsable⟩
        exact ⟨⟨length, isUsable⟩, rfl⟩

end IngestionWorker

/-! ### The embedder of a worker -/

/-- What a worker knows of its embedder. -/
def HttpEmbedder.port {numeral : PyNumber → List Char} (decimals : Fields.Decimals)
    (embedder : HttpEmbedder numeral) : Embedder where
  version := embedder.version
  expectedDims := (declaredDimensions decimals embedder.version).map Int.toNat

/-- What a provider replies to the requests of each batch. -/
abbrev EmbeddingProvider := Nat → Nat → EmbeddingRequest → EmbeddingReply

/-- The texts of one batch of `_embed`. -/
def batchTexts (chunks : List ParsedChunk) (number : Nat) : List String :=
  (batch IngestionWorker.embedBatchSize number chunks).map (·.content)

section Worker

variable {numeral : PyNumber → List Char} (host : Host) (embedder : HttpEmbedder numeral)
  (provider : EmbeddingProvider)

/-- One request of one batch. -/
def HttpEmbedder.asked (chunks : List ParsedChunk) (number request : Nat) : EmbeddingRequest where
  input := embedder.inputs (batchTexts chunks number) request
  kind := "document"

/-- The responses of a run are those of an embedder and its provider. -/
def Serves (responses : Responses) (chunks : List ParsedChunk) : Prop :=
  ∀ number, responses.embedded number = embeddingOutcome
    (embedder.embedDocuments host (provider number) (batchTexts chunks number))

/-- Every request is answered with the given vectors, one usable vector for each of its
inputs. -/
def Provides (chunks : List ParsedChunk) (given : Nat → Nat → List PyValue) : Prop :=
  ∀ number request, (embedder.asked chunks number request).input ≠ [] →
    ∃ body document, provider number request (embedder.asked chunks number request) =
        .response 200 body ∧
      host.loadsBytes body = .ok document ∧ Answers document (given number request) ∧
      (given number request).length = (embedder.asked chunks number request).input.length ∧
      ∀ vector ∈ given number request, UsableVector embedder.dimensions vector

/-- Some request is answered with a document that cannot be matched with its inputs. -/
def Spoils (chunks : List ParsedChunk) : Prop :=
  ∃ number request, (embedder.asked chunks number request).input ≠ [] ∧
    ∃ body document, provider number request (embedder.asked chunks number request) =
        .response 200 body ∧
      host.loadsBytes body = .ok document ∧
      Spoiled embedder.dimensions (embedder.asked chunks number request).input.length document

end Worker

section Embedding

open IngestionWorker

variable {numeral : PyNumber → List Char} {decimals : Fields.Decimals} {host : Host}
  {embedder : HttpEmbedder numeral} {provider : EmbeddingProvider}
  {worker : IngestionWorker.Settings} {responses : Responses} {chunks : List ParsedChunk}

/-- The dimension in the version is the embedder's own. -/
theorem expectedDims_port : (embedder.port decimals).expectedDims = some embedder.dimensions := by
  rw [HttpEmbedder.port, declaredDimensions_derived embedder.derived]
  rfl

/-- The vectors of a run are those of its batches. -/
theorem embed_port (configured : worker.embedder = some (embedder.port decimals)) :
    embed worker responses chunks = some <$> collect embedBatchSize
      (embedBatch responses embedder.dimensions) chunks.length 0 chunks := by
  rw [embed, configured]
  simp only
  rw [expectedDims_port]
  simp only
  rw [embedBatches_eq_collect]

theorem length_batchTexts (number : Nat) :
    (batchTexts chunks number).length = (batch embedBatchSize number chunks).length := by
  rw [batchTexts, List.length_map]

/-- The finite vectors of an embedder pass the worker's own check. -/
theorem usable_some {dims : Nat} {results : List (List Rat)}
    (sized : ∀ vector ∈ results, vector.length = dims) :
    usable dims (results.map fun vector => vector.map some) = true := by
  rw [usable, List.all_map, List.all_eq_true]
  intro vector member
  simp only [Function.comp, List.length_map, sized vector member, beq_self_eq_true, Bool.true_and,
    List.all_map, List.all_eq_true]
  intro value _
  rfl

/-- A batch in time is taken exactly when the embedder returns its vectors. -/
theorem embedBatch_served {number : Nat} {vectors : List (List Component)}
    (serves : Serves host embedder provider responses chunks) :
    embedBatch responses embedder.dimensions number (batch embedBatchSize number chunks) =
        .ok vectors ↔
      responses.late number = false ∧ ∃ results,
        embedder.embedDocuments host (provider number) (batchTexts chunks number) = .ok results ∧
        vectors = results.map fun vector => vector.map some := by
  rw [embedBatch_eq_ok, serves number]
  apply and_congr_right
  intro _
  cases outcome : embedder.embedDocuments host (provider number) (batchTexts chunks number) with
  | error error => cases error <;> simp [embeddingOutcome]
  | ok results =>
      obtain ⟨length, sized⟩ := length_of_embedDocuments outcome
      simp only [embeddingOutcome, Except.ok.injEq, exists_eq_left']
      constructor
      · rintro ⟨rfl, _⟩
        rfl
      · rintro rfl
        exact ⟨rfl, by rw [List.length_map, length, length_batchTexts], usable_some sized⟩

/-! ### The place of a chunk -/

variable (embedder) in
/-- The request of its batch that a chunk is in. -/
def HttpEmbedder.requestOf (position : Nat) : Nat :=
  position % embedBatchSize / embedder.batchSize

variable (embedder) in
/-- The place of a chunk in its request. -/
def HttpEmbedder.placeOf (position : Nat) : Nat :=
  position % embedBatchSize % embedder.batchSize

/-- The text at the place of a chunk is the filled template of its content. -/
theorem getElem?_asked (position : Nat) :
    (embedder.asked chunks (position / embedBatchSize) (embedder.requestOf position)).input[
        embedder.placeOf position]? =
      (chunks[position]?).map fun chunk => fillTemplate embedder.documentTemplate chunk.content := by
  rw [HttpEmbedder.asked, HttpEmbedder.requestOf, HttpEmbedder.placeOf, getElem?_inputs, batchTexts,
    List.getElem?_map, getElem?_batch (by decide), Option.map_map]
  rfl

variable {given : Nat → Nat → List PyValue}

theorem request_of_provides (provides : Provides host embedder provider chunks given)
    {number request : Nat} (some_ : embedder.inputs (batchTexts chunks number) request ≠ []) :
    embedder.request host (provider number request)
      (embedder.inputs (batchTexts chunks number) request) "document" =
        .ok ((given number request).map floats) := by
  obtain ⟨body, document, replies, isDocument, answers, size, usable⟩ := provides number request some_
  rw [request_of_response replies]
  exact parse_of_answers isDocument answers size usable

/-- A provider that answers every request lets every run in time embed its chunks. -/
theorem embeds_of_provides (configured : worker.embedder = some (embedder.port decimals))
    (serves : Serves host embedder provider responses chunks)
    (provides : Provides host embedder provider chunks given)
    (inTime : ∀ number, responses.late number = false) :
    ∃ vectors, embed worker responses chunks = .ok (some vectors) := by
  have batches : ∃ vectors, collect embedBatchSize (embedBatch responses embedder.dimensions)
      chunks.length 0 chunks = .ok vectors := by
    rw [collect_ok_iff (by decide) 0 (Nat.le_refl _)]
    intro number _
    rw [Nat.zero_add]
    obtain ⟨results, isResults⟩ := embedDocuments_ok_iff.mpr fun request some_ =>
      ⟨_, request_of_provides provides some_⟩
    exact ⟨_, (embedBatch_served serves).mpr ⟨inTime number, results, isResults, rfl⟩⟩
  obtain ⟨vectors, isVectors⟩ := batches
  exact ⟨vectors, by rw [embed_port configured, isVectors]; rfl⟩

/-- The vectors of a batch are the provider's, each at the place of its text. -/
theorem aligned_of_provides (provides : Provides host embedder provider chunks given)
    {number : Nat} {results : List (List Rat)}
    (ok : embedder.embedDocuments host (provider number) (batchTexts chunks number) = .ok results)
    {position : Nat} (inside : position < (batchTexts chunks number).length) :
    ∃ vector, (given number (position / embedder.batchSize))[position % embedder.batchSize]? =
        some vector ∧ results[position]? = some (floats vector) := by
  obtain ⟨length, aligned⟩ := embedDocuments_getElem? ok
  obtain ⟨part, isPart, same⟩ := aligned position inside
  have some_ : embedder.inputs (batchTexts chunks number) (position / embedder.batchSize) ≠ [] := by
    apply batch_ne_nil embedder.batchPositive
    rw [List.length_map]
    exact inside
  rw [request_of_provides provides some_, Except.ok.injEq] at isPart
  rw [← isPart, List.getElem?_map, List.getElem?_eq_getElem (length ▸ inside)] at same
  obtain ⟨vector, isVector, isResult⟩ := Option.map_eq_some_iff.mp same.symm
  refine ⟨vector, isVector, ?_⟩
  rw [List.getElem?_eq_getElem (length ▸ inside), isResult]

/-- Every vector of a run is the provider's vector for the text of its chunk. -/
theorem aligned_of_embed (configured : worker.embedder = some (embedder.port decimals))
    (serves : Serves host embedder provider responses chunks)
    (provides : Provides host embedder provider chunks given) {vectors : List (List Component)}
    (ok : embed worker responses chunks = .ok (some vectors)) :
    vectors.length = chunks.length ∧ ∀ position < chunks.length,
      ∃ vector, (given (position / embedBatchSize) (embedder.requestOf position))[
          embedder.placeOf position]? = some vector ∧
        vectors[position]? = some ((floats vector).map some) := by
  rw [embed_port configured, map_eq_ok] at ok
  obtain ⟨_, ok, same⟩ := ok
  cases same
  have sized : ∀ number part results,
      embedBatch responses embedder.dimensions number part = .ok results →
        results.length = part.length := fun _ _ _ ok => (embedBatch_eq_ok.mp ok).2.2.1
  obtain ⟨length, aligned⟩ := collect_getElem? (by decide) sized (Nat.le_refl _) ok
  refine ⟨length, fun position inside => ?_⟩
  obtain ⟨part, isPart, isVector⟩ := aligned position inside
  rw [Nat.zero_add, embedBatch_served serves] at isPart
  obtain ⟨_, results, isResults, rfl⟩ := isPart
  have present : position % embedBatchSize <
      (batchTexts chunks (position / embedBatchSize)).length := by
    have found := getElem?_batch (by decide : 0 < embedBatchSize) chunks position
    rw [List.getElem?_eq_getElem inside] at found
    rw [length_batchTexts]
    exact (List.getElem?_eq_some_iff.mp found).1
  obtain ⟨vector, isGiven, isResult⟩ := aligned_of_provides provides isResults present
  refine ⟨vector, isGiven, ?_⟩
  rw [isVector, List.getElem?_map, isResult]
  rfl

/-- An answer that cannot be matched lets no run embed its chunks. -/
theorem not_embed_of_spoils (configured : worker.embedder = some (embedder.port decimals))
    (serves : Serves host embedder provider responses chunks)
    (spoils : Spoils host embedder provider chunks) (embeddings : Option (List (List Component))) :
    embed worker responses chunks ≠ .ok embeddings := by
  intro ok
  obtain ⟨number, request, some_, body, document, replies, isDocument, spoiled⟩ := spoils
  rw [embed_port configured, map_eq_ok] at ok
  obtain ⟨vectors, ok, _⟩ := ok
  have batchSome : batch embedBatchSize number chunks ≠ [] := by
    intro empty
    apply some_
    rw [HttpEmbedder.asked, HttpEmbedder.inputs, batchTexts, empty, List.map_nil, List.map_nil,
      batch_nil]
  obtain ⟨part, isPart⟩ := (collect_ok_iff (by decide) 0 (Nat.le_refl _)).mp ⟨vectors, ok⟩ number
    batchSome
  rw [Nat.zero_add, embedBatch_served serves] at isPart
  obtain ⟨_, results, isResults, _⟩ := isPart
  obtain ⟨values, isValues⟩ := embedDocuments_ok_iff.mp ⟨results, isResults⟩ request some_
  rw [HttpEmbedder.asked] at replies spoiled
  rw [request_of_response replies] at isValues
  exact not_parse_of_spoiled isDocument spoiled values isValues

/-! ### The rows of a chunk -/

/-- The row of the vector at one position. -/
def embeddingRow (claimed : ClaimedJob) (fresh : FreshIds) (version : String) (position : Nat)
    (vector : List Component) : ChunkEmbedding where
  chunkId := fresh.chunkId position
  embeddingVersion := version
  courseId := claimed.courseId
  corpusVersionId := fresh.corpusId
  dims := vector.length
  embedding := vector

variable {material after : Material} {claimed : ClaimedJob} {fresh : FreshIds} {version : String}

theorem chunkIds_chunkRows :
    (chunkRows claimed fresh chunks).map (·.id) = (List.range chunks.length).map fresh.chunkId := by
  rw [chunkRows, List.map_map, List.range_eq_range', ← List.zipIdx_map_snd 0 chunks, List.map_map]
  rfl

theorem chunkIds_embeddingRows (vectors : List (List Component)) :
    (embeddingRows claimed fresh version vectors).map (·.chunkId) =
      (List.range vectors.length).map fresh.chunkId := by
  rw [embeddingRows, List.map_map, List.range_eq_range', ← List.zipIdx_map_snd 0 vectors,
    List.map_map]
  rfl

/-- A chunk of a successful run has one embedding, the vector at its position. -/
theorem filter_chunkEmbeddings (before : material.Constraints) (constraints : after.Constraints)
    {vectors : List (List Component)} (length : vectors.length = chunks.length)
    (isChunks : after.chunks = material.chunks ++ chunkRows claimed fresh chunks)
    (isEmbeddings : after.chunkEmbeddings =
      material.chunkEmbeddings ++ embeddingRows claimed fresh version vectors)
    {position : Nat} {vector : List Component} (found : vectors[position]? = some vector) :
    after.chunkEmbeddings.filter (fun row => row.chunkId = fresh.chunkId position) =
      [embeddingRow claimed fresh version position vector] := by
  have ids := constraints.chunkIds
  rw [UniqueOn, isChunks, List.map_append, chunkIds_chunkRows, List.nodup_append] at ids
  obtain ⟨_, drawn, apart⟩ := ids
  have inside : position < chunks.length := length ▸ (List.getElem?_eq_some_iff.mp found).1
  have earlier : material.chunkEmbeddings.filter
      (fun row => row.chunkId = fresh.chunkId position) = [] := by
    rw [List.filter_eq_nil_iff]
    intro row member same
    obtain ⟨chunk, known, _, _, isChunk⟩ := before.embeddingChunk row member
    apply apart _ (List.mem_map_of_mem known) _
      (List.mem_map_of_mem (List.mem_range.mpr inside))
    rw [isChunk]
    exact of_decide_eq_true same
  have unique : UniqueOn (·.chunkId) (embeddingRows claimed fresh version vectors) := by
    rw [UniqueOn, chunkIds_embeddingRows, length]
    exact drawn
  have member : embeddingRow claimed fresh version position vector ∈
      embeddingRows claimed fresh version vectors :=
    List.mem_map.mpr ⟨(vector, position), List.mem_zipIdx_iff_getElem?.mpr found, rfl⟩
  rw [isEmbeddings, List.filter_append, earlier, List.nil_append]
  exact unique.filter_eq member

theorem filter_chunks (constraints : after.Constraints)
    (isChunks : after.chunks = material.chunks ++ chunkRows claimed fresh chunks)
    {position : Nat} {chunk : ParsedChunk} (found : chunks[position]? = some chunk) :
    (after.chunks.filter fun row => row.id = fresh.chunkId position).map (·.content) =
      [chunk.content] := by
  obtain ⟨row, isRow, isId, isContent⟩ : ∃ row ∈ chunkRows claimed fresh chunks,
      row.id = fresh.chunkId position ∧ row.content = chunk.content :=
    ⟨_, List.mem_map.mpr ⟨(chunk, position), List.mem_zipIdx_iff_getElem?.mpr found, rfl⟩, rfl,
      rfl⟩
  have known : row ∈ after.chunks := by
    rw [isChunks]
    exact List.mem_append_right material.chunks isRow
  rw [← isId, constraints.chunkIds.filter_eq known, List.map_singleton, isContent]

/-! ### Alignment -/

/-- No corpus, chunk or embedding is added, and no job succeeds. -/
structure StoresNothing (material after : Material) : Prop where
  corpora : after.corpusVersions = material.corpusVersions
  links : after.corpusVersionDocuments = material.corpusVersionDocuments
  chunks : after.chunks = material.chunks
  embeddings : after.chunkEmbeddings = material.chunkEmbeddings
  jobs : ∀ job ∈ after.ingestionJobs, job.state = .succeeded → job ∈ material.ingestionJobs

theorem storesNothing_of_failure {rejection : Rejection} {checked now nextAttemptAt : Time}
    {stamp : Stamp} (ok : persistFailure worker claimed rejection checked now nextAttemptAt stamp
      material = .ok after) : StoresNothing material after := by
  rcases persistFailure_eq_ok ok with ⟨_, rfl⟩ | ⟨job, known, holding, _, retry, rfl⟩
  · exact ⟨rfl, rfl, rfl, rfl, fun _ member _ => member⟩
  · refine ⟨rfl, rfl, rfl, rfl, fun other member succeeded => ?_⟩
    rcases mem_updateWhere_cases member with ⟨stays, _⟩ | ⟨source, _, _, rfl⟩
    · exact stays
    · cases retry <;> cases succeeded

/-- The vector column keeps the single precision numbers. -/
def KeepsSingles (worker : IngestionWorker.Settings) : Prop :=
  ∀ value, BinaryFormat.binary32.Holds value → worker.column value = some value

/-- What a successful run stores for one chunk: the chunk, and the one vector that the
provider gave for the template filled with its content, as the column keeps it. -/
structure StoresVector (worker : IngestionWorker.Settings) (embedder : HttpEmbedder numeral)
    (chunks : List ParsedChunk) (given : Nat → Nat → List PyValue) (claimed : ClaimedJob)
    (fresh : FreshIds) (after : Material) (position : Nat) (chunk : ParsedChunk)
    (vector : PyValue) : Prop where
  asked : (embedder.asked chunks (position / embedBatchSize) (embedder.requestOf position)).input[
    embedder.placeOf position]? =
      some (embedder.documentTemplate.replace "\x7btext\x7d" chunk.content)
  answered : (given (position / embedBatchSize) (embedder.requestOf position))[
    embedder.placeOf position]? = some vector
  chunkRow : (after.chunks.filter fun row => row.id = fresh.chunkId position).map (·.content) =
    [chunk.content]
  vectorRow : after.chunkEmbeddings.filter (fun row => row.chunkId = fresh.chunkId position) =
    [embeddingRow claimed fresh embedder.version position ((floats vector).map worker.column)]
  accepted : ∀ value ∈ floats vector, worker.column value ≠ none
  singles : (∀ value ∈ floats vector, BinaryFormat.binary32.Holds value) →
    after.chunkEmbeddings.filter (fun row => row.chunkId = fresh.chunkId position) =
      [embeddingRow claimed fresh embedder.version position ((floats vector).map some)]

theorem output_of_work {extraction : Extraction} {output : Output}
    (extracted : responses.extract = .ok extraction)
    (worked : work worker responses claimed = .ok output) :
    output.chunks = extraction.chunks ∧
      embed worker responses extraction.chunks = .ok output.embeddings := by
  obtain ⟨known, embedded⟩ := extracted_of_work worked
  rw [extracted, Except.ok.injEq] at known
  rw [known]
  exact ⟨rfl, embedded⟩

/-- A run that succeeds stores with each chunk its own vector. -/
theorem storesVector_of_persistSuccess (keeps : KeepsSingles worker)
    (configured : worker.embedder = some (embedder.port decimals)) {extraction : Extraction}
    (extracted : responses.extract = .ok extraction)
    (serves : Serves host embedder provider responses extraction.chunks)
    (provides : Provides host embedder provider extraction.chunks given) {output : Output}
    {now completedAt : Time} (worked : work worker responses claimed = .ok output)
    (before : material.Constraints)
    (ok : persistSuccess worker claimed output fresh now completedAt material = .ok after)
    {position : Nat} {chunk : ParsedChunk} (found : extraction.chunks[position]? = some chunk) :
    ∃ vector, StoresVector worker embedder extraction.chunks given claimed fresh after position
      chunk vector := by
  obtain ⟨sameChunks, embedded⟩ := output_of_work extracted worked
  obtain ⟨job, _, _, constraints, isAfter⟩ := persistSuccess_eq_ok ok
  have isChunks : after.chunks = material.chunks ++ chunkRows claimed fresh extraction.chunks := by
    rw [isAfter, ← sameChunks]
    rfl
  obtain ⟨vectors, isVectors, length⟩ : ∃ vectors, output.embeddings = some vectors ∧
      vectors.length = output.chunks.length := by
    have both := embedded_of_work worked
    rw [Output.Embedded, configured] at both
    exact both
  have isEmbeddings : after.chunkEmbeddings = material.chunkEmbeddings ++
      embeddingRows claimed fresh embedder.version (vectors.map worker.stored) := by
    rw [isAfter]
    simp only [Success.embeddings, isVectors, configured]
    rfl
  rw [isVectors] at embedded
  obtain ⟨_, aligned⟩ := aligned_of_embed configured serves provides embedded
  have inside := (List.getElem?_eq_some_iff.mp found).1
  obtain ⟨vector, answered, isVector⟩ := aligned position inside
  have isStored : (vectors.map worker.stored)[position]? =
      some ((floats vector).map worker.column) := by
    rw [List.getElem?_map, isVector, Option.map_some, IngestionWorker.Settings.stored, List.map_map]
    rfl
  have sized : (vectors.map worker.stored).length = extraction.chunks.length := by
    rw [List.length_map, length, sameChunks]
  have vectorRow := filter_chunkEmbeddings before constraints sized isChunks isEmbeddings isStored
  have stored : embeddingRow claimed fresh embedder.version position
      ((floats vector).map worker.column) ∈ after.chunkEmbeddings := by
    apply List.mem_of_mem_filter (p := fun row => row.chunkId = fresh.chunkId position)
    rw [vectorRow]
    exact List.mem_singleton_self _
  refine ⟨vector, ?_, answered, filter_chunks constraints isChunks found, vectorRow, ?_, ?_⟩
  · rw [getElem?_asked, found]
    rfl
  · intro value member refused
    have finite := (constraints.embeddingChecks _ stored).2.2.1 _ (List.mem_map_of_mem member)
    rw [refused] at finite
    cases finite
  · intro singles
    rw [vectorRow, List.map_congr_left fun value member => keeps value (singles value member)]

/-- Vectors are stored with the chunks they were given for: when every request is
answered with a vector for each input, a run in time embeds its chunks, a run that
succeeds stores with each chunk its own vector, as the column keeps it, and no run
succeeds whose vectors the column refuses; when an answer cannot be matched, the run
fails and stores nothing. -/
theorem embedding_alignment (keeps : KeepsSingles worker)
    (configured : worker.embedder = some (embedder.port decimals))
    {extraction : Extraction} (extracted : responses.extract = .ok extraction)
    (serves : Serves host embedder provider responses extraction.chunks) (claimed : ClaimedJob) :
    (∀ given, Provides host embedder provider extraction.chunks given →
      ((∀ number, responses.late number = false) →
        ∃ vectors, embed worker responses extraction.chunks = .ok (some vectors)) ∧
      ∀ output fresh now completedAt material after,
        work worker responses claimed = .ok output → material.Constraints →
        persistSuccess worker claimed output fresh now completedAt material = .ok after →
          ∀ position chunk, extraction.chunks[position]? = some chunk →
            ∃ vector, StoresVector worker embedder extraction.chunks given claimed fresh after
              position chunk vector) ∧
    (Spoils host embedder provider extraction.chunks →
      ∃ rejection, work worker responses claimed = .error rejection ∧
        ∀ checked now nextAttemptAt stamp material after,
          persistFailure worker claimed rejection checked now nextAttemptAt stamp material =
            .ok after → StoresNothing material after) := by
  constructor
  · intro given provides
    refine ⟨embeds_of_provides configured serves provides, ?_⟩
    intro output fresh now completedAt material after worked before ok position chunk found
    exact storesVector_of_persistSuccess keeps configured extracted serves provides worked before ok
      found
  · intro spoils
    cases worked : work worker responses claimed with
    | error rejection =>
        exact ⟨rejection, rfl, fun _ _ _ _ _ _ ok => storesNothing_of_failure ok⟩
    | ok output =>
        exact absurd (output_of_work extracted worked).2
          (not_embed_of_spoils configured serves spoils _)

/-! ### What becomes of every response -/

/-- A provider that replies to every request with status 200. -/
abbrev repliesWith (answers : Nat → Nat → EmbeddingRequest → List UInt8) : EmbeddingProvider :=
  fun number request asked => .response 200 (answers number request asked)

/-- What `process` makes of an exception of the embedder. -/
def rejectionOf : EmbeddingRaised → Rejection
  | .invalid _ => { code := "EMBEDDING_INVALID", state := .failed }
  | .unavailable _ => { code := "EMBEDDING_UNAVAILABLE", state := .failed, transient := true }
  | .raised _ => { code := "DOCUMENT_PROCESSING_FAILED", state := .failed }
  | .overflowError => { code := "DOCUMENT_PROCESSING_FAILED", state := .failed }

/-- A batch fails because it is late or because the embedder raised. -/
theorem embedBatch_served_error {number : Nat} {rejection : Rejection}
    (serves : Serves host embedder provider responses chunks) :
    embedBatch responses embedder.dimensions number (batch embedBatchSize number chunks) =
        .error rejection ↔
      (responses.late number = true ∧
        rejection = { code := "EMBEDDING_UNAVAILABLE", state := .failed, transient := true }) ∨
      (responses.late number = false ∧ ∃ error,
        embedder.embedDocuments host (provider number) (batchTexts chunks number) = .error error ∧
        rejection = rejectionOf error) := by
  cases late : responses.late number with
  | true =>
      rw [embedBatch, late, failIf, if_pos rfl]
      simp [bind, Except.bind, eq_comm]
  | false =>
      cases outcome : embedder.embedDocuments host (provider number)
          (batchTexts chunks number) with
      | ok results =>
          rw [(embedBatch_served serves).mpr ⟨late, results, outcome, rfl⟩]
          simp
      | error error =>
          rw [embedBatch, late, serves number, outcome, failIf_of_not Bool.false_ne_true, ok_bind]
          cases error <;> simp [embeddingOutcome, rejectionOf, eq_comm]

variable (host embedder responses chunks) in
/-- A run gets to a request: no batch so far was late, and the responses to all earlier
requests were taken. -/
structure Reaches (answers : Nat → Nat → EmbeddingRequest → List UInt8)
    (number request : Nat) : Prop where
  sent : (embedder.asked chunks number request).input ≠ []
  inTime : ∀ earlier ≤ number, responses.late earlier = false
  taken : ∀ earlier before, earlier < number ∨ (earlier = number ∧ before < request) →
    (embedder.asked chunks earlier before).input ≠ [] →
    Taken host embedder.dimensions (embedder.asked chunks earlier before).input.length
      (answers earlier before (embedder.asked chunks earlier before))

variable {answers : Nat → Nat → EmbeddingRequest → List UInt8}

theorem request_repliesWith (number request : Nat) :
    embedder.request host (repliesWith answers number request)
        (embedder.inputs (batchTexts chunks number) request) "document" =
      embedder.parse host (embedder.asked chunks number request).input.length
        (answers number request (embedder.asked chunks number request)) :=
  request_of_response rfl

/-- A batch whose responses are all taken is embedded. -/
theorem exists_embedDocuments {number : Nat} (taken : ∀ request,
      (embedder.asked chunks number request).input ≠ [] →
      Taken host embedder.dimensions (embedder.asked chunks number request).input.length
        (answers number request (embedder.asked chunks number request))) :
    ∃ results, embedder.embedDocuments host (repliesWith answers number)
      (batchTexts chunks number) = .ok results := by
  rw [embedDocuments_ok_iff]
  intro request some_
  rw [request_repliesWith]
  exact taken_iff.mpr (taken request some_)

theorem batch_ne_nil_of_sent {number request : Nat}
    (sent : (embedder.asked chunks number request).input ≠ []) :
    batch embedBatchSize number chunks ≠ [] := by
  intro empty
  apply sent
  rw [HttpEmbedder.asked, HttpEmbedder.inputs, batchTexts, empty, List.map_nil, List.map_nil,
    batch_nil]

/-- A run that gets to a response of neither kind fails as one that was not expected. -/
theorem embed_of_unclassified (configured : worker.embedder = some (embedder.port decimals))
    (serves : Serves host embedder (repliesWith answers) responses chunks) {number request : Nat}
    (reaches : Reaches host embedder responses chunks answers number request)
    (unclassified : Unclassified host embedder.dimensions
      (embedder.asked chunks number request).input.length
      (answers number request (embedder.asked chunks number request))) :
    embed worker responses chunks =
      .error { code := "DOCUMENT_PROCESSING_FAILED", state := .failed } := by
  have raises {error : EmbeddingRaised}
      (parsed : embedder.parse host (embedder.asked chunks number request).input.length
        (answers number request (embedder.asked chunks number request)) = .error error) :
      embed worker responses chunks = .error (rejectionOf error) := by
    have outcome : embedder.embedDocuments host (repliesWith answers number)
        (batchTexts chunks number) = .error error := by
      refine embedDocuments_error_iff.mpr ⟨request, reaches.sent, fun earlier before => ?_, ?_⟩
      · rw [request_repliesWith]
        exact taken_iff.mpr (reaches.taken number earlier (.inr ⟨rfl, before⟩)
          (batch_ne_nil_of_le embedder.batchPositive (Nat.le_of_lt before) reaches.sent))
      · rw [request_repliesWith]
        exact parsed
    have failed : collect embedBatchSize (embedBatch responses embedder.dimensions)
        chunks.length 0 chunks = .error (rejectionOf error) := by
      refine (collect_error_iff (by decide) 0 (Nat.le_refl _)).mpr
        ⟨number, batch_ne_nil_of_sent reaches.sent, fun earlier before => ?_, ?_⟩
      · rw [Nat.zero_add]
        obtain ⟨results, isResults⟩ : ∃ results, embedder.embedDocuments host
            (repliesWith answers earlier) (batchTexts chunks earlier) = .ok results :=
          exists_embedDocuments fun other some_ => reaches.taken earlier other (.inl before) some_
        exact ⟨_, (embedBatch_served serves).mpr
          ⟨reaches.inTime earlier (Nat.le_of_lt before), results, isResults, rfl⟩⟩
      · rw [Nat.zero_add, embedBatch_served_error serves]
        exact .inr ⟨reaches.inTime number (Nat.le_refl _), error, outcome, rfl⟩
    rw [embed_port configured, failed]
    rfl
  rcases raised_of_unclassified unclassified with parsed | parsed
  · exact raises parsed
  · exact raises parsed

/-- A run that fails in time failed at a response it got to. -/
theorem reaches_of_error (serves : Serves host embedder (repliesWith answers) responses chunks)
    {number : Nat} {error : EmbeddingRaised}
    (earlier : ∀ earlier < number, ∃ part,
      embedBatch responses embedder.dimensions earlier (batch embedBatchSize earlier chunks) =
        .ok part)
    (inTime : responses.late number = false)
    (outcome : embedder.embedDocuments host (repliesWith answers number)
      (batchTexts chunks number) = .error error) :
    ∃ request, Reaches host embedder responses chunks answers number request ∧
      embedder.parse host (embedder.asked chunks number request).input.length
        (answers number request (embedder.asked chunks number request)) = .error error := by
  obtain ⟨request, sent, passed, raised⟩ := embedDocuments_error_iff.mp outcome
  rw [request_repliesWith] at raised
  refine ⟨request, ⟨sent, fun other before => ?_, fun other before order some_ => ?_⟩, raised⟩
  · rcases Nat.lt_or_eq_of_le before with before | rfl
    · obtain ⟨part, isPart⟩ := earlier other before
      exact ((embedBatch_served serves).mp isPart).1
    · exact inTime
  · rw [← taken_iff, ← request_repliesWith]
    rcases order with before' | ⟨rfl, before'⟩
    · obtain ⟨part, isPart⟩ := earlier other before'
      obtain ⟨_, results, isResults, _⟩ := (embedBatch_served serves).mp isPart
      exact embedDocuments_ok_iff.mp ⟨results, isResults⟩ before some_
    · exact passed before before'

/-- Every response is taken or called invalid, except those of neither kind; and a run
whose responses all have status 200 succeeds, ends as invalid or runs out of time
exactly when it gets to none of them. -/
theorem embedding_classified_iff (configured : worker.embedder = some (embedder.port decimals))
    (serves : Serves host embedder (repliesWith answers) responses chunks) :
    (∀ expected body,
      ((∃ results, embedder.parse host expected body = .ok results ∧
          Usable embedder.dimensions expected results) ∨
        ∃ message, embedder.parse host expected body = .error (.invalid message)) ↔
        ¬ Unclassified host embedder.dimensions expected body) ∧
    (((∃ embeddings, embed worker responses chunks = .ok embeddings) ∨
        embed worker responses chunks =
          .error { code := "EMBEDDING_INVALID", state := .failed } ∨
        ((∃ number, responses.late number = true) ∧ embed worker responses chunks =
          .error { code := "EMBEDDING_UNAVAILABLE", state := .failed, transient := true })) ↔
      ∀ number request, Reaches host embedder responses chunks answers number request →
        ¬ Unclassified host embedder.dimensions (embedder.asked chunks number request).input.length
          (answers number request (embedder.asked chunks number request))) := by
  refine ⟨fun expected body => parse_classified_iff, fun classified number request reaches
    unclassified => ?_, fun known => ?_⟩
  · have failed := embed_of_unclassified configured serves reaches unclassified
    rcases classified with ⟨embeddings, ok⟩ | invalid | ⟨_, late⟩
    · rw [failed] at ok
      cases ok
    · rw [failed] at invalid
      exact absurd invalid (by decide)
    · rw [failed] at late
      exact absurd late (by decide)
  · rw [embed_port configured]
    cases outcome : collect embedBatchSize (embedBatch responses embedder.dimensions)
        chunks.length 0 chunks with
    | ok vectors => exact .inl ⟨_, rfl⟩
    | error rejection =>
        obtain ⟨number, _, earlier, failed⟩ :=
          (collect_error_iff (by decide) 0 (Nat.le_refl _)).mp outcome
        simp only [Nat.zero_add] at earlier failed
        rcases (embedBatch_served_error serves).mp failed with ⟨late, rfl⟩ |
          ⟨inTime, error, raised, rfl⟩
        · exact .inr (.inr ⟨⟨number, late⟩, rfl⟩)
        · obtain ⟨request, reaches, parsed⟩ := reaches_of_error serves earlier inTime raised
          rcases classified_of_not (known number request reaches) with ⟨_, ok⟩ | ⟨message, invalid⟩
          · rw [parsed] at ok
            cases ok
          · rw [parsed, Except.error.injEq] at invalid
            rw [invalid]
            exact .inr (.inl rfl)

end Embedding

/-! ### A first embedder -/

section Sample

open IngestionWorker

/-- An embedder of one dimension that sends two texts at a time. -/
def sampleEmbedder : HttpEmbedder naturalNumeral where
  model := "m"
  dimensions := 1
  version := "m|1|6d1b10ce"
  derived := by decide +kernel
  batchSize := 2
  batchPositive := by decide

/-- An item with a vector of one number. -/
def vectorItem (index value : Nat) : PyValue :=
  .obj [(JString.ofString "index", PyValue.int index),
    (JString.ofString "embedding", .arr [PyValue.int value])]

/-- Two vectors in the order opposite to that of their texts; the column rounds one. -/
def reversedAnswer : PyValue :=
  .obj [(JString.ofString "data", .arr [vectorItem 1 16777217, vectorItem 0 5])]

/-- A number that no double holds. -/
def hugeAnswer : PyValue :=
  .obj [(JString.ofString "data",
    .arr [.obj [(JString.ofString "embedding", .arr [PyValue.int (10 ^ 309)])]])]

theorem loadsBytes_reversed :
    asciiHost.loadsBytes (documentBytes reversedAnswer) = .ok reversedAnswer :=
  loadsBytes_document (by decide +kernel) (by decide +kernel)

theorem loadsBytes_huge : asciiHost.loadsBytes (documentBytes hugeAnswer) = .ok hugeAnswer :=
  loadsBytes_document (by decide +kernel) (by decide +kernel)

theorem indexedItem_vectorItem (index value : Nat) :
    IndexedItem (vectorItem index value) (.arr [PyValue.int value], index) where
  index := ⟨PyValue.int index, rfl, by
    rw [PyValue.int, PyValue.number?, Rat.intCast_natCast]⟩
  embedded := rfl

theorem answers_reversed :
    Answers reversedAnswer [.arr [PyValue.int 5], .arr [PyValue.int 16777217]] := by
  apply Answers.indexed [vectorItem 1 16777217, vectorItem 0 5]
    [(.arr [PyValue.int 16777217], 1), (.arr [PyValue.int 5], 0)] rfl (List.Perm.swap _ _ [])
  exact .cons (indexedItem_vectorItem 1 16777217) (.cons (indexedItem_vectorItem 0 5) .nil)

def sampleChunk (ordinal : Nat) : ParsedChunk where
  page := 1
  ordinal := ordinal
  content := "A stack is last in, first out."
  contentHash := "chunk"

def twoChunks : Extraction where
  pages := 1
  chunks := [sampleChunk 0, sampleChunk 1]
  parserVersion := "parser"

def alignedWorker : IngestionWorker.Settings where
  zone := sampleZone
  embedder := some (sampleEmbedder.port asciiDecimals)

def alignedProvider : EmbeddingProvider :=
  repliesWith fun _ _ _ => documentBytes reversedAnswer

def alignedResponses : Responses where
  read := .ok { size := 10, sha256 := sampleHash }
  extract := .ok twoChunks
  late := fun _ => false
  embedded := fun number => embeddingOutcome
    (sampleEmbedder.embedDocuments asciiHost (alignedProvider number)
      (batchTexts twoChunks.chunks number))

def alignedOutput : Output :=
  { twoChunks with
    sizeBytes := 10, sha256 := sampleHash, embeddings := some [[some 5], [some 16777217]] }

def alignedGiven (_ _ : Nat) : List PyValue :=
  [.arr [PyValue.int 5], .arr [PyValue.int 16777217]]

theorem provides_aligned :
    Provides asciiHost sampleEmbedder alignedProvider twoChunks.chunks alignedGiven := by
  intro number request sent
  have first : number = 0 := by
    have some_ := batch_ne_nil_of_sent sent
    rw [ne_eq, batch_eq_nil_iff (by decide)] at some_
    have size : twoChunks.chunks.length = 2 := rfl
    have batches : embedBatchSize = 32 := rfl
    rw [size, batches] at some_
    omega
  subst first
  have only : request = 0 := by
    rw [HttpEmbedder.asked, HttpEmbedder.inputs, ne_eq,
      batch_eq_nil_iff sampleEmbedder.batchPositive, List.length_map] at sent
    have size : (batchTexts twoChunks.chunks 0).length = 2 := rfl
    have requests : sampleEmbedder.batchSize = 2 := rfl
    rw [size, requests] at sent
    omega
  subst only
  refine ⟨_, reversedAnswer, rfl, loadsBytes_reversed, answers_reversed, rfl, ?_⟩
  intro vector member
  simp only [alignedGiven, List.mem_cons, List.not_mem_nil, or_false] at member
  rcases member with rfl | rfl
  · exact ⟨_, rfl, rfl, List.forall_mem_singleton.mpr (by decide +kernel : InDoubleRange 5)⟩
  · exact ⟨_, rfl, rfl, List.forall_mem_singleton.mpr 
      (by decide +kernel : InDoubleRange 16777217)⟩

theorem serves_aligned :
    Serves asciiHost sampleEmbedder alignedProvider alignedResponses twoChunks.chunks :=
  fun _ => rfl

theorem configured_aligned :
    alignedWorker.embedder = some (sampleEmbedder.port asciiDecimals) := rfl

theorem keepsSingles_aligned : KeepsSingles alignedWorker :=
  fun _ => BinaryFormat.Format.nearest_of_holds

theorem floats_five : (floats (.arr [PyValue.int 5])).map some = [some 5] := by decide +kernel

theorem floats_large :
    (floats (.arr [PyValue.int 16777217])).map some = [some 16777217] := by decide +kernel

theorem work_aligned : work alignedWorker alignedResponses sampleClaimed = .ok alignedOutput := by
  obtain ⟨vectors, isVectors⟩ := embeds_of_provides configured_aligned serves_aligned
    provides_aligned fun _ => rfl
  obtain ⟨length, aligned⟩ := aligned_of_embed configured_aligned serves_aligned provides_aligned
    isVectors
  have first : vectors[0]? = some [some 5] := by
    obtain ⟨vector, isGiven, isVector⟩ := aligned 0 (by decide)
    cases isGiven
    rw [isVector, floats_five]
  have second : vectors[1]? = some [some 16777217] := by
    obtain ⟨vector, isGiven, isVector⟩ := aligned 1 (by decide)
    cases isGiven
    rw [isVector, floats_large]
  have known : vectors = [[some 5], [some 16777217]] := by
    match vectors, length with
    | [one, two], _ =>
        cases first
        cases second
        rfl
  rw [known] at isVectors
  have extracted : alignedResponses.extract = .ok twoChunks := rfl
  have read : alignedResponses.read = .ok { size := 10, sha256 := sampleHash } := rfl
  rw [work, read, extracted]
  simp only [ok_bind]
  rw [failIf_of_not (by decide), failIf_of_not (by decide), ok_bind, ok_bind, isVectors]
  rfl

/-- The vectors of a reversed answer are stored with the chunks they were given for, in
single precision. -/
theorem embedding_alignment_of_sample : ∃ after,
    persistSuccess alignedWorker sampleClaimed alignedOutput sampleFresh 1 2 sampleTaken =
      .ok after ∧
    after.chunkEmbeddings.filter (fun row => row.chunkId = sampleFresh.chunkId 0) =
      [embeddingRow sampleClaimed sampleFresh "m|1|6d1b10ce" 0 [some 5]] ∧
    after.chunkEmbeddings.filter (fun row => row.chunkId = sampleFresh.chunkId 1) =
      [embeddingRow sampleClaimed sampleFresh "m|1|6d1b10ce" 1 [some 16777216]] := by
  have persists : (persistSuccess alignedWorker sampleClaimed alignedOutput sampleFresh 1 2
      sampleTaken).isOk = true := by decide +kernel
  cases ok : persistSuccess alignedWorker sampleClaimed alignedOutput sampleFresh 1 2
      sampleTaken with
  | error failure =>
      rw [ok] at persists
      cases persists
  | ok after =>
      have stores := ((embedding_alignment keepsSingles_aligned configured_aligned rfl serves_aligned
        sampleClaimed).1 alignedGiven provides_aligned).2 alignedOutput sampleFresh 1 2 sampleTaken
        after work_aligned (by decide +kernel) ok
      obtain ⟨vector, first⟩ := stores 0 (sampleChunk 0) rfl
      obtain ⟨other, second⟩ := stores 1 (sampleChunk 1) rfl
      cases first.answered
      cases second.answered
      have kept : (floats (.arr [PyValue.int 5])).map alignedWorker.column = [some 5] := by
        decide +kernel
      have rounded : (floats (.arr [PyValue.int 16777217])).map alignedWorker.column =
          [some 16777216] := by decide +kernel
      refine ⟨after, rfl, ?_, ?_⟩
      · rw [first.vectorRow, kept]
        rfl
      · rw [second.vectorRow, rounded]
        rfl

/-- Not every response is taken or called invalid. -/
theorem not_every_embedding_classified :
    sampleEmbedder.parse asciiHost 1 (documentBytes hugeAnswer) = .error .overflowError ∧
      ¬ ∀ (numeral : PyNumber → List Char) (host : Host) (embedder : HttpEmbedder numeral)
        (expected : Nat) (body : List UInt8),
        (∃ results, embedder.parse host expected body = .ok results ∧
          Usable embedder.dimensions expected results) ∨
        ∃ message, embedder.parse host expected body = .error (.invalid message) := by
  have answers : Answers hugeAnswer [.arr [PyValue.int (10 ^ 309)]] :=
    .plain _ rfl (.cons ⟨rfl, rfl⟩ .nil)
  obtain ⟨items, has⟩ := hasVectors_of_answers answers
  have beyond : ¬ InDoubleRange (10 ^ 309 : Nat) := by decide +kernel
  have raised : sampleEmbedder.parse asciiHost 1 (documentBytes hugeAnswer) =
      .error .overflowError :=
    parse_of_overflows loadsBytes_huge has rfl
      ⟨[], _, [], rfl, nofun, rfl, [], _, [], rfl, nofun, beyond⟩
  refine ⟨raised, fun every => ?_⟩
  rcases every _ asciiHost sampleEmbedder 1 (documentBytes hugeAnswer) with ⟨_, ok, _⟩ | ⟨_, invalid⟩
  · rw [raised] at ok
    cases ok
  · rw [raised] at invalid
    cases invalid

/-- The run of the reversed answer succeeds and gets to no response of neither kind. -/
theorem embedding_classified_iff_of_sample :
    (∃ embeddings, embed alignedWorker alignedResponses twoChunks.chunks = .ok embeddings) ∧
      ∀ number request, Reaches asciiHost sampleEmbedder alignedResponses twoChunks.chunks
          (fun _ _ _ => documentBytes reversedAnswer) number request →
        ¬ Unclassified asciiHost 1
          (sampleEmbedder.asked twoChunks.chunks number request).input.length
          (documentBytes reversedAnswer) := by
  obtain ⟨vectors, ok⟩ := embeds_of_provides configured_aligned serves_aligned provides_aligned
    fun _ => rfl
  have classified := (embedding_classified_iff configured_aligned serves_aligned).2.mp (.inl ⟨_, ok⟩)
  exact ⟨⟨_, ok⟩, classified⟩

end Sample

end Docta
