import Mathlib.Data.Rat.Defs
import Mathlib.Algebra.Order.Ring.Rat
import Mathlib.Order.WithBot
import KnowledgeCompanion.BaseChunker
import KnowledgeCompanion.NotANumber

/-! Requests, candidates and results of retrieval (`models/hybrid_retrieval.py` and
`models/vector_record.py`). Scores are exact rationals but for those of the reranker. -/

namespace KnowledgeCompanion.RetrievalModels

open BaseChunker PythonText NotANumber

structure Filters where
  userID : Text
  resourceIDs : List Text
deriving DecidableEq

def InScope (filters : Filters) (userID resourceID : Text) : Prop :=
  userID = filters.userID ∧ resourceID ∈ filters.resourceIDs

instance (filters : Filters) (userID resourceID : Text) :
    Decidable (InScope filters userID resourceID) :=
  inferInstanceAs (Decidable (_ ∧ _))

structure VectorSearchResult where
  id : Text
  resourceID : Text
  userID : Text
  text : Text
  metadata : Metadata
  score : ℚ
  createdAt : ℤ
deriving DecidableEq

inductive SearchSource
  | bm25
  | vector
  | rerank
deriving DecidableEq

structure SearchResult (K : Type := ℚ) where
  chunkID : Text
  resourceID : Text
  userID : Text
  text : Text
  score : K
  source : SearchSource
  metadata : Metadata
deriving DecidableEq

abbrev RawScore := WithNaN (WithBot (WithTop ℚ))

def rawScore (score : ℚ) : RawScore := .num ((score : WithTop ℚ) : WithBot (WithTop ℚ))

def SearchResult.raw (hit : SearchResult) : SearchResult RawScore :=
  { hit with score := rawScore hit.score }

structure FusionStats where
  bm25Count : ℕ
  vectorCount : ℕ
  fusedCount : ℕ
deriving DecidableEq

structure HybridRetrievalResult where
  chunks : List (SearchResult RawScore)
  fusion : FusionStats
  degraded : Bool
  elapsedMs : ℤ
deriving DecidableEq

def toSearchResult (source : SearchSource) (record : VectorSearchResult) : SearchResult where
  chunkID := record.id
  resourceID := record.resourceID
  userID := record.userID
  text := record.text
  score := record.score
  source := source
  metadata := record.metadata

/-- The body of a request; an override that is missing leaves the configured value. -/
structure RequestBody where
  question : Text
  userID : Text
  resourceIDs : List Text
  bm25Weight : Option ℚ := none
  vectorWeight : Option ℚ := none
  rrfK : Option ℕ := none
  rerankTopN : Option ℕ := none
  finalTopK : Option ℕ := none
  scoreThreshold : Option ℚ := none
  timeoutMs : Option ℕ := none

def accepted (body : RequestBody) : Bool :=
  decide (1 ≤ body.question.length) && decide (body.question.length ≤ 2000) &&
    decide (1 ≤ body.userID.length) && decide (body.userID.length ≤ 128) &&
    decide (1 ≤ body.resourceIDs.length) && decide (body.resourceIDs.length ≤ 100) &&
    body.resourceIDs.all (fun rid => !isBlank rid) &&
    body.bm25Weight.all (fun w => decide (0 ≤ w)) &&
    body.vectorWeight.all (fun w => decide (0 ≤ w)) &&
    body.rrfK.all (fun k => decide (1 ≤ k)) &&
    body.rerankTopN.all (fun n => decide (1 ≤ n) && decide (n ≤ 100)) &&
    body.finalTopK.all (fun n => decide (1 ≤ n) && decide (n ≤ 100)) &&
    body.timeoutMs.all (fun n => decide (1 ≤ n) && decide (n ≤ 10000))

def HybridRetrievalRequest := { body : RequestBody // accepted body = true }

namespace HybridRetrievalRequest

def filters (request : HybridRetrievalRequest) : Filters :=
  ⟨request.1.userID, request.1.resourceIDs⟩

theorem scope_nonempty (request : HybridRetrievalRequest) :
    request.filters.userID ≠ [] ∧ request.filters.resourceIDs ≠ [] := by
  have bounds := request.2
  simp only [accepted, Bool.and_eq_true, decide_eq_true_eq] at bounds
  obtain ⟨user, ids⟩ : 1 ≤ request.1.userID.length ∧ 1 ≤ request.1.resourceIDs.length := by
    tauto
  exact ⟨List.length_pos_iff.mp user, List.length_pos_iff.mp ids⟩

end HybridRetrievalRequest

end KnowledgeCompanion.RetrievalModels
