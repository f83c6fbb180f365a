/-
Module: Docta.Rag.EmbeddingAnswers
Purpose: Providers that answer with one vector for each input, indexed in any order
  or not at all, and answers whose items cannot be matched with the inputs: what the
  embedder makes of both, request by request.
Trusted boundary: none
Main exports: Answers, Spoiled, parse_of_answers, not_parse_of_spoiled,
  embedDocuments_getElem?
-/
import Docta.Library.Ranking
import Docta.Rag.EmbeddingHttp

namespace Docta

open Contract Fallible JsonText

/-! ### Answers -/

/-- An item that carries a vector and an index that counts as its position. -/
structure IndexedItem (item : PyValue) (entry : PyValue × Nat) : Prop where
  index : ∃ index, itemIndex item = some (some index) ∧ index.number? = some (.finite entry.2)
  embedded : item.item "embedding" = .ok entry.1

/-- An item that carries a vector and no index. -/
structure PlainItem (item vector : PyValue) : Prop where
  index : itemIndex item = some none
  embedded : item.item "embedding" = .ok vector

/-- A document that answers with these vectors: all its items are indexed and stand in
any order, or none is and they stand in the order of the vectors. -/
inductive Answers (document : PyValue) (vectors : List PyValue) : Prop where
  | indexed (items : List PyValue) (order : List (PyValue × Nat))
      (data : dataItems document = some items) (permuted : order.Perm vectors.zipIdx)
      (carried : List.Forall₂ IndexedItem items order)
  | plain (items : List PyValue) (data : dataItems document = some items)
      (carried : List.Forall₂ PlainItem items vectors)

/-- The index of an item that carries a whole number. -/
def CarriesIndex (item : PyValue) (index : Int) : Prop :=
  itemIndex item = some (some (.num (.int index)))

/-- A document that cannot be matched with so many inputs: whole indexes that are not
every position once, another number of items, or a vector of another length. -/
inductive Spoiled (dimensions expected : Nat) (document : PyValue) : Prop where
  | indexes (items : List PyValue) (found : List Int) (data : dataItems document = some items)
      (carried : List.Forall₂ CarriesIndex items found)
      (unmatched : ¬ found.Perm ((List.range items.length).map Int.ofNat))
  | count (items : List PyValue) (data : dataItems document = some items)
      (other : items.length ≠ expected)
  | dimension (items : List PyValue) (item vector : PyValue)
      (data : dataItems document = some items) (member : item ∈ items)
      (embedded : item.item "embedding" = .ok vector)
      (other : ¬ ∃ values, vector = .arr values ∧ values.length = dimensions)

section Places

instance : Std.Total fun first second : PyValue => (place first).getD 0 ≤ (place second).getD 0 :=
  ⟨fun _ _ => Rat.le_total⟩

instance : IsTrans PyValue fun first second => (place first).getD 0 ≤ (place second).getD 0 :=
  ⟨fun _ _ _ => Rat.le_trans⟩

theorem perm_byPlace (items : List PyValue) : (byPlace items).Perm items :=
  List.perm_insertionSort _ items

theorem place_of_indexedItem {item : PyValue} {entry : PyValue × Nat}
    (carried : IndexedItem item entry) : place item = some (entry.2 : Rat) := by
  obtain ⟨index, isIndex, counts⟩ := carried.index
  rw [place, isIndex]
  simp only
  rw [counts]

theorem place_of_plainItem {item vector : PyValue} (carried : PlainItem item vector) :
    place item = some 0 := by
  rw [place, carried.index]

theorem standsAt_of_indexedItem {item : PyValue} {entry : PyValue × Nat}
    (carried : IndexedItem item entry) : StandsAt entry.2 item := by
  intro index isIndex
  obtain ⟨found, isFound, counts⟩ := carried.index
  rw [isFound] at isIndex
  cases isIndex
  exact counts

/-- Items that carry the positions in any order are put in the order of the vectors. -/
theorem forall₂_byPlace {items vectors : List PyValue} {order : List (PyValue × Nat)}
    (permuted : order.Perm vectors.zipIdx) (carried : List.Forall₂ IndexedItem items order) :
    List.Forall₂ IndexedItem (byPlace items) vectors.zipIdx := by
  apply Ranking.forall₂_insertionSort _ permuted carried
  intro first second entry later isFirst isSecond compared
  rw [place_of_indexedItem isFirst, place_of_indexedItem isSecond, Option.getD_some,
    Option.getD_some, Rat.natCast_le_natCast] at compared
  exact compared

/-- Items without an index stay as they came. -/
theorem byPlace_plain {items vectors : List PyValue}
    (carried : List.Forall₂ PlainItem items vectors) : byPlace items = items := by
  apply List.Pairwise.insertionSort_eq
  rw [List.pairwise_iff_getElem]
  intro early late earlyInside lateInside _
  have length := carried.length_eq
  have first : PlainItem items[early] vectors[early] := carried.get earlyInside (by omega)
  have second : PlainItem items[late] vectors[late] := carried.get lateInside (by omega)
  have compared : (some (0 : Rat)).getD 0 ≤ (some (0 : Rat)).getD 0 := Rat.le_refl
  simpa only [place_of_plainItem first, place_of_plainItem second] using compared

/-- An answer has the vectors it answers with. -/
theorem hasVectors_of_answers {document : PyValue} {vectors : List PyValue}
    (answers : Answers document vectors) : ∃ items, HasVectors document items vectors := by
  cases answers with
  | indexed items order data permuted carried =>
      have sorted := forall₂_byPlace permuted carried
      have length := sorted.length_eq
      rw [List.length_zipIdx] at length
      have at_ {position : Nat} {item : PyValue} (found : (byPlace items)[position]? = some item) :
          ∃ vector, vectors[position]? = some vector ∧ IndexedItem item (vector, position) := by
        obtain ⟨inside, rfl⟩ := List.getElem?_eq_some_iff.mp found
        have given := sorted.get inside (by rw [List.length_zipIdx]; omega)
        rw [List.get_eq_getElem, List.get_eq_getElem, List.getElem_zipIdx, Nat.zero_add] at given
        exact ⟨_, List.getElem?_eq_getElem (by omega), given⟩
      refine ⟨items, data, fun item member => ?_, fun position item found => ?_, ?_⟩
      · obtain ⟨position, found⟩ := List.mem_iff_getElem?.mp ((perm_byPlace items).mem_iff.mpr member)
        obtain ⟨vector, _, given⟩ := at_ found
        rw [place_of_indexedItem given]
        rfl
      · obtain ⟨vector, _, given⟩ := at_ found
        exact standsAt_of_indexedItem given
      · apply List.forall₂_iff_get.mpr ⟨length, fun position inside valid => ?_⟩
        obtain ⟨vector, isVector, given⟩ := at_ (List.getElem?_eq_getElem inside)
        rw [List.getElem?_eq_getElem valid] at isVector
        cases isVector
        exact given.embedded
  | plain items data carried =>
      have plainAt {item : PyValue} (member : item ∈ items) : ∃ vector, PlainItem item vector := by
        obtain ⟨position, inside, rfl⟩ := List.mem_iff_getElem.mp member
        have length := carried.length_eq
        exact ⟨_, carried.get inside (by omega)⟩
      refine ⟨items, data, fun item member => ?_, fun position item found => ?_, ?_⟩
      · obtain ⟨vector, isPlain⟩ := plainAt member
        rw [place_of_plainItem isPlain]
        rfl
      · rw [byPlace_plain carried] at found
        obtain ⟨vector, isPlain⟩ := plainAt (List.mem_of_getElem? found)
        intro index isIndex
        rw [isPlain.index] at isIndex
        cases isIndex
      · rw [byPlace_plain carried]
        exact carried.imp fun _ _ isPlain => isPlain.embedded

/-- The whole number an item carries as its index. -/
def wholeIndex (item : PyValue) : Int :=
  match itemIndex item with
  | some (some (.num (.int value))) => value
  | _ => 0

theorem wholeIndex_of_carries {item : PyValue} {index : Int} (carries : CarriesIndex item index) :
    wholeIndex item = index := by
  rw [CarriesIndex] at carries
  rw [wholeIndex, carries]

theorem map_wholeIndex {items : List PyValue} {found : List Int}
    (carried : List.Forall₂ CarriesIndex items found) : items.map wholeIndex = found := by
  induction carried with
  | nil => rfl
  | cons head _ ih => rw [List.map_cons, wholeIndex_of_carries head, ih]

theorem carries_wholeIndex {items : List PyValue} {found : List Int}
    (carried : List.Forall₂ CarriesIndex items found) {item : PyValue} (member : item ∈ items) :
    CarriesIndex item (wholeIndex item) := by
  obtain ⟨position, inside, rfl⟩ := List.mem_iff_getElem.mp member
  have carries := carried.get inside (carried.length_eq ▸ inside)
  rw [List.get_eq_getElem, List.get_eq_getElem] at carries
  rw [wholeIndex_of_carries carries]
  exact carries

/-- Whole indexes that are taken are every position once. -/
theorem perm_of_hasVectors {document : PyValue} {items vectors : List PyValue} {found : List Int}
    (has : HasVectors document items vectors) (carried : List.Forall₂ CarriesIndex items found) :
    found.Perm ((List.range items.length).map Int.ofNat) := by
  have standing : (byPlace items).map wholeIndex = (List.range items.length).map Int.ofNat := by
    apply List.ext_getElem
    · rw [List.length_map, List.length_map, List.length_range, (perm_byPlace items).length_eq]
    · intro position inside valid
      rw [List.getElem_map, List.getElem_map, List.getElem_range]
      rw [List.length_map] at inside
      have carries := carries_wholeIndex carried
        ((perm_byPlace items).mem_iff.mp (List.getElem_mem inside))
      have counts := has.inOrder position _ (List.getElem?_eq_getElem inside) _ carries
      rw [PyValue.number?, Option.some.injEq, PyFloat.finite.injEq] at counts
      exact_mod_cast counts
  rw [← map_wholeIndex carried, ← standing]
  exact ((perm_byPlace items).map wholeIndex).symm

/-- A document that cannot be matched has no usable vectors. -/
theorem not_hasVectors_of_spoiled {dimensions expected : Nat} {document : PyValue}
    {items vectors : List PyValue} (spoiled : Spoiled dimensions expected document)
    (has : HasVectors document items vectors) (size : vectors.length = expected) :
    ¬ ∀ vector ∈ vectors, UsableVector dimensions vector := by
  intro usable
  have length := has.embedded.length_eq
  rw [(perm_byPlace items).length_eq] at length
  cases spoiled with
  | indexes items' found data carried unmatched =>
      obtain rfl : items' = items := Option.some.inj (data.symm.trans has.data)
      exact unmatched (perm_of_hasVectors has carried)
  | count items' data other =>
      obtain rfl : items' = items := Option.some.inj (data.symm.trans has.data)
      exact other (length.trans size)
  | dimension items' item vector data member embedded other =>
      obtain rfl : items' = items := Option.some.inj (data.symm.trans has.data)
      obtain ⟨position, inside, rfl⟩ :=
        List.mem_iff_getElem.mp ((perm_byPlace items').mem_iff.mpr member)
      have valid := has.embedded.length_eq ▸ inside
      have isVector := has.embedded.get inside valid
      rw [List.get_eq_getElem, List.get_eq_getElem, embedded, Except.ok.injEq] at isVector
      obtain ⟨values, isList, count, _⟩ := usable _ (List.getElem_mem valid)
      exact other ⟨values, isVector.trans isList, count⟩

end Places

/-! ### Requests -/

section Requests

variable {numeral : PyNumber → List Char} {host : Host} {embedder : HttpEmbedder numeral}
  {expected : Nat} {body : List UInt8} {document : PyValue}

/-- An answer with a usable vector for each input is taken as it is. -/
theorem parse_of_answers {vectors : List PyValue} (isDocument : host.loadsBytes body = .ok document)
    (answers : Answers document vectors) (size : vectors.length = expected)
    (usable : ∀ vector ∈ vectors, UsableVector embedder.dimensions vector) :
    embedder.parse host expected body = .ok (vectors.map floats) := by
  obtain ⟨items, has⟩ := hasVectors_of_answers answers
  exact parse_eq_ok.mpr ⟨document, items, vectors, isDocument, has, size, usable, rfl⟩

/-- A document that cannot be matched is not taken. -/
theorem not_parse_of_spoiled (isDocument : host.loadsBytes body = .ok document)
    (spoiled : Spoiled embedder.dimensions expected document) (results : List (List Rat)) :
    embedder.parse host expected body ≠ .ok results := by
  intro ok
  obtain ⟨other, items, vectors, isOther, has, size, usable, _⟩ := parse_eq_ok.mp ok
  obtain rfl : document = other := Except.ok.inj (isDocument.symm.trans isOther)
  exact not_hasVectors_of_spoiled spoiled has size usable

/-- A response that is taken: a document with as many usable vectors as were expected. -/
def Taken (host : Host) (dimensions expected : Nat) (body : List UInt8) : Prop :=
  ∃ document items vectors, host.loadsBytes body = .ok document ∧
    HasVectors document items vectors ∧ vectors.length = expected ∧
    ∀ vector ∈ vectors, UsableVector dimensions vector

theorem taken_iff : (∃ results, embedder.parse host expected body = .ok results) ↔
    Taken host embedder.dimensions expected body := by
  constructor
  · rintro ⟨results, ok⟩
    obtain ⟨document, items, vectors, isDocument, has, size, usable, _⟩ := parse_eq_ok.mp ok
    exact ⟨document, items, vectors, isDocument, has, size, usable⟩
  · rintro ⟨document, items, vectors, isDocument, has, size, usable⟩
    exact ⟨_, parse_eq_ok.mpr ⟨document, items, vectors, isDocument, has, size, usable, rfl⟩⟩

variable {send : EmbeddingRequest → EmbeddingReply} {input : List String} {kind : String}

/-- A reply with status 200 is parsed. -/
theorem request_of_response (replies : send { input, kind } = .response 200 body) :
    embedder.request host send input kind = embedder.parse host input.length body := by
  rw [HttpEmbedder.request, replies]
  simp only
  rw [if_neg (by decide), if_neg (by decide)]

/-- Only a parsed reply gives vectors. -/
theorem usable_of_request {results : List (List Rat)}
    (ok : embedder.request host send input kind = .ok results) :
    Usable embedder.dimensions input.length results := by
  rw [HttpEmbedder.request] at ok
  split at ok
  · cases ok
  · split at ok
    · cases ok
    · split at ok
      · cases ok
      · exact usable_of_parse ok

end Requests

/-! ### All requests of a call -/

section Calls

open Batching

variable {numeral : PyNumber → List Char} {host : Host} {embedder : HttpEmbedder numeral}
  {send : Nat → EmbeddingRequest → EmbeddingReply} {texts : List String}

/-- The inputs of one request of `embed_documents`. -/
def HttpEmbedder.inputs (embedder : HttpEmbedder numeral) (texts : List String) (number : Nat) :
    List String :=
  batch embedder.batchSize number (texts.map (fillTemplate embedder.documentTemplate))

theorem embedDocuments_ok_iff :
    (∃ results, embedder.embedDocuments host send texts = .ok results) ↔
      ∀ number, embedder.inputs texts number ≠ [] →
        ∃ part, embedder.request host (send number) (embedder.inputs texts number) "document" =
          .ok part := by
  rw [HttpEmbedder.embedDocuments, collect_ok_iff embedder.batchPositive 0 (Nat.le_refl _)]
  simp only [Nat.zero_add, HttpEmbedder.inputs]

theorem embedDocuments_error_iff {error : EmbeddingRaised} :
    embedder.embedDocuments host send texts = .error error ↔
      ∃ number, embedder.inputs texts number ≠ [] ∧
        (∀ earlier < number, ∃ part, embedder.request host (send earlier)
          (embedder.inputs texts earlier) "document" = .ok part) ∧
        embedder.request host (send number) (embedder.inputs texts number) "document" =
          .error error := by
  rw [HttpEmbedder.embedDocuments, collect_error_iff embedder.batchPositive 0 (Nat.le_refl _)]
  simp only [Nat.zero_add, HttpEmbedder.inputs]

/-- The vectors of a call stand at the positions of their texts. -/
theorem embedDocuments_getElem? {results : List (List Rat)}
    (ok : embedder.embedDocuments host send texts = .ok results) :
    results.length = texts.length ∧ ∀ position < texts.length,
      ∃ part, embedder.request host (send (position / embedder.batchSize))
          (embedder.inputs texts (position / embedder.batchSize)) "document" = .ok part ∧
        results[position]? = part[position % embedder.batchSize]? := by
  have sized : ∀ number part results,
      embedder.request host (send number) part "document" = .ok results →
        results.length = part.length := fun _ _ _ ok => (usable_of_request ok).1
  have aligned := collect_getElem? embedder.batchPositive sized (Nat.le_refl _) ok
  rw [List.length_map] at aligned
  simp only [Nat.zero_add] at aligned
  exact aligned

/-- Every vector of a call has the dimension of the embedder. -/
theorem length_of_embedDocuments {results : List (List Rat)}
    (ok : embedder.embedDocuments host send texts = .ok results) :
    Usable embedder.dimensions texts.length results := by
  obtain ⟨length, aligned⟩ := embedDocuments_getElem? ok
  refine ⟨length, fun vector member => ?_⟩
  obtain ⟨position, inside, isVector⟩ := List.mem_iff_getElem.mp member
  obtain ⟨part, isPart, same⟩ := aligned position (length ▸ inside)
  rw [List.getElem?_eq_getElem inside, isVector] at same
  exact (usable_of_request isPart).2 vector (List.mem_of_getElem? same.symm)

/-- The input at its place in its request is the filled template of its text. -/
theorem getElem?_inputs (position : Nat) :
    (embedder.inputs texts (position / embedder.batchSize))[position % embedder.batchSize]? =
      (texts[position]?).map (fillTemplate embedder.documentTemplate) := by
  rw [HttpEmbedder.inputs, getElem?_batch embedder.batchPositive, List.getElem?_map]

end Calls

end Docta
