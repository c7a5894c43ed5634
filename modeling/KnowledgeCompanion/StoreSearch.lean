import Mathlib.Algebra.Order.Field.Basic
import KnowledgeCompanion.ApiExceptions
import KnowledgeCompanion.Ranking
import KnowledgeCompanion.StoreSelection

/-! Similarity search in the two stores (`milvus_store.py`, `chroma_store.py`) with exact
similarities: what each database answers under the cosine metric, and the scores that the
stores make of it. -/

namespace KnowledgeCompanion.StoreSearch

open BaseChunker VectorIndexing StoreQueries QuotedScan Ranking ApiExceptions

def reservedKeys : List String := ["resource_id", "user_id", "created_at"]

/-- The stored records: each has an id of its own, and none has a reserved key in its
metadata. -/
structure Collection (F : Type) where
  records : Store F
  distinct : (records.map VectorRecord.id).Nodup
  unreserved : ∀ r ∈ records, ∀ key ∈ reservedKeys, ¬ ChromaFilters.Shadows r.metadata key

/-- A `VectorSearchResult` with an exact score. -/
structure SearchHit (K : Type) where
  id : Text
  resourceID : Text
  userID : Text
  text : Text
  metadata : Metadata
  score : K
  createdAt : ℤ

structure VectorStoreConfig where
  metricType : Text := "COSINE".toList

def topKLimit : ℕ := 100

variable {F K : Type} [Field K] [LinearOrder K]

/-- The `k` most similar rows, best first; the distance of a row is its similarity. -/
def mostSimilar (similarity : VectorRecord F → K) (k : ℕ) (rows : Store F) :
    List (VectorRecord F × K) :=
  ((ranked similarity rows).take k).map fun r => (r, similarity r)

/-- The `k` nearest rows; the distance of a row is one less its similarity. -/
def nearest (similarity : VectorRecord F → K) (k : ℕ) (rows : Store F) :
    List (VectorRecord F × K) :=
  ((rows.insertionSort fun a b => 1 - similarity a ≤ 1 - similarity b).take k).map fun r =>
    (r, 1 - similarity r)

theorem nearest_eq [IsStrictOrderedRing K] (similarity : VectorRecord F → K) (k : ℕ)
    (rows : Store F) :
    nearest similarity k rows =
      ((ranked similarity rows).take k).map fun r => (r, 1 - similarity r) := by
  rw [nearest, insertionSort_eq_ranked fun a b => sub_le_sub_iff_left 1]

namespace MilvusStore

def distanceToScore (distance : K) (metricType : Text) : K :=
  let metric := metricType.map Char.toUpper
  if metric = "L2".toList then 1 / (1 + distance)
  else if metric = "IP".toList then max 0 (-distance)
  else 1 - distance

def hitToResult (metricType : Text) (hit : VectorRecord F × K) : SearchHit K where
  id := hit.1.id
  resourceID := hit.1.resourceID
  userID := hit.1.userID
  text := hit.1.text.take textMaxLength
  metadata := hit.1.metadata
  score := distanceToScore hit.2 metricType
  createdAt := hit.1.createdAt

def search (escapes : Escapes Char) (similarity : List F → List F → K) (config : VectorStoreConfig)
    (c : Collection F) (vector : List F) (topK : ℕ) (q : Query) :
    Except ApiException (List (SearchHit K)) :=
  match MilvusFilters.selected escapes q c.records with
  | none => .error (vectorStoreUnavailableError "Milvus 操作失败，请重试")
  | some rows =>
    .ok ((mostSimilar (fun r => similarity vector r.vector) (min topK topKLimit) rows).map
      (hitToResult config.metricType))

end MilvusStore

namespace ChromaStore

def distanceToScore : Option K → K
  | none => 0
  | some distance => max 0 (1 - distance)

def textAt (metadata : Metadata) (key : String) : Text :=
  match metadata.lookup key with
  | some (.text t) => t
  | _ => []

def intAt (metadata : Metadata) (key : String) : ℤ :=
  match metadata.lookup key with
  | some (.int n) => n
  | _ => 0

def hitToResult (hit : VectorRecord F × K) : SearchHit K where
  id := hit.1.id
  resourceID := textAt (ChromaFilters.recordToChromaMetadata hit.1) "resource_id"
  userID := textAt (ChromaFilters.recordToChromaMetadata hit.1) "user_id"
  text := hit.1.text
  metadata := (ChromaFilters.recordToChromaMetadata hit.1).filter fun entry =>
    entry.1 ∉ reservedKeys
  score := distanceToScore (some hit.2)
  createdAt := intAt (ChromaFilters.recordToChromaMetadata hit.1) "created_at"

def search (similarity : List F → List F → K) (c : Collection F) (vector : List F) (topK : ℕ)
    (q : Query) : Except ApiException (List (SearchHit K)) :=
  .ok ((nearest (fun r => similarity vector r.vector) (min topK topKLimit)
    (ChromaFilters.selected q c.records)).map hitToResult)

end ChromaStore

end KnowledgeCompanion.StoreSearch
