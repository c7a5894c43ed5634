import KnowledgeCompanion.RetrievalModels
import KnowledgeCompanion.VectorIndexing

/-! The stored vector records as a store backend serves them (`vector_store.py`): what
an upsert and a delete leave, and the records of a scope. -/

namespace KnowledgeCompanion.VectorStore

open RetrievalModels KeyedUpsert VectorIndexing

variable {F : Type}

def upsert (store : Store F) (records : List (VectorRecord F)) : Store F :=
  putAll VectorRecord.id store records

def deleteByResource (store : Store F) (resourceID : Text) (userID : Option Text) : Store F :=
  store.filter fun r => !(r.resourceID == resourceID && userID.all fun u => r.userID == u)

/-- A row as `query` returns it, without a similarity. -/
def rowToResult (r : VectorRecord F) : VectorSearchResult where
  id := r.id
  resourceID := r.resourceID
  userID := r.userID
  text := r.text
  metadata := r.metadata
  score := 0
  createdAt := r.createdAt

/-- The records of the scope in the order they are stored, at most `limit` and at most
what the store is configured to return. -/
def query (topKLimit : ℕ) (store : Store F) (filters : Filters) (limit : ℕ) :
    List VectorSearchResult :=
  ((store.filter fun r => InScope filters r.userID r.resourceID).take (min limit topKLimit)).map
    rowToResult

theorem query_perm {topKLimit : ℕ} {store : Store F} {f g : Filters} {limit : ℕ}
    (user : f.userID = g.userID) (ids : f.resourceIDs.Perm g.resourceIDs) :
    query topKLimit store f limit = query topKLimit store g limit := by
  have same (r : VectorRecord F) :
      decide (InScope f r.userID r.resourceID) = decide (InScope g r.userID r.resourceID) := by
    rw [decide_eq_decide, InScope, InScope, user, ids.mem_iff]
  rw [query, query, List.filter_congr fun r _ => same r]

end KnowledgeCompanion.VectorStore
