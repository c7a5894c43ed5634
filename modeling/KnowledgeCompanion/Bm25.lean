import KnowledgeCompanion.RetrievalModels

/-! The in-process BM25 index (`services/hybrid_retrieval/bm25_store.py`). The word
segmentation of jieba and the scores of rank-bm25 are parameters. -/

namespace KnowledgeCompanion.Bm25

open PythonText RetrievalModels Ranking

inductive Tokenizer
  | jieba
  | whitespace
deriving DecidableEq

/-- The libraries: `jieba.cut`, and `BM25Okapi` of a tokenized corpus, which raises on a
corpus without a token. Its scores are by tokens of the query and document number. -/
structure Libraries (K : Type := ℚ) where
  cut : Text → List Text
  okapi : List (List Text) → Option (List Text → ℕ → K)

structure Bm25Store (K : Type := ℚ) where
  tokenizer : Tokenizer
  docs : List (SearchResult K)
  bm25 : Option (List Text → ℕ → K)

variable {K : Type}

/-- `__init__`: an unknown tokenizer is a `ValueError`. -/
def create (tokenizer : Text) : Option (Bm25Store K) :=
  if tokenizer = "jieba".toList then some ⟨.jieba, [], none⟩
  else if tokenizer = "whitespace".toList then some ⟨.whitespace, [], none⟩
  else none

def tokenize (libs : Libraries K) (tokenizer : Tokenizer) (text : Text) : List Text :=
  if text = [] then []
  else
    match tokenizer with
    | .whitespace => (text.splitOnP isSpace).filter fun word => !word.isEmpty
    | .jieba => (libs.cut text).filter fun token => !isBlank token

/-- The store over the documents, `none` when the library raises. -/
def index (libs : Libraries K) (store : Bm25Store K) (docs : List (SearchResult K)) :
    Option (Bm25Store K) :=
  let corpus := docs.map fun doc => tokenize libs store.tokenizer doc.text
  if corpus = [] then some { store with docs := docs, bm25 := none }
  else
    match libs.okapi corpus with
    | none => none
    | some scores => some { store with docs := docs, bm25 := some scores }

def matchesFilters (doc : SearchResult K) (filters : Filters) : Bool :=
  if filters.resourceIDs ≠ [] ∧ doc.resourceID ∉ filters.resourceIDs then false
  else !decide (filters.userID ≠ [] ∧ doc.userID ≠ filters.userID)

def search [Zero K] [LT K] [DecidableLT K] [LE K] [DecidableLE K] (libs : Libraries K)
    (store : Bm25Store K) (question : Text) (topK : ℕ) (filters : Filters) :
    List (SearchResult K) :=
  match store.bm25 with
  | none => []
  | some scores =>
    if store.docs = [] then []
    else
      let tokens := tokenize libs store.tokenizer question
      if tokens = [] then []
      else
        let scored := store.docs.zipIdx.map fun p => (p.1, scores tokens p.2)
        let ranked := (ranked Prod.snd scored).take topK
        (ranked.filter fun p => !decide (p.2 ≤ 0) && matchesFilters p.1 filters).map fun p =>
          { p.1 with score := p.2, source := .bm25 }

theorem matchesFilters_iff {doc : SearchResult K} {filters : Filters}
    (user : filters.userID ≠ []) (ids : filters.resourceIDs ≠ []) :
    matchesFilters doc filters = true ↔ InScope filters doc.userID doc.resourceID := by
  unfold matchesFilters InScope
  by_cases mem : doc.resourceID ∈ filters.resourceIDs <;> simp [user, ids, mem]

theorem search_scoped [Zero K] [LT K] [DecidableLT K] [LE K] [DecidableLE K] {libs : Libraries K}
    {store : Bm25Store K} {question : Text} {topK : ℕ} {filters : Filters}
    (user : filters.userID ≠ []) (ids : filters.resourceIDs ≠ []) :
    ∀ hit ∈ search libs store question topK filters,
      InScope filters hit.userID hit.resourceID := by
  intro hit mem
  unfold search at mem
  split at mem
  · simp at mem
  · split at mem
    · simp at mem
    · dsimp only at mem
      split at mem
      · simp at mem
      · obtain ⟨p, found, rfl⟩ := List.mem_map.mp mem
        obtain ⟨-, kept⟩ := List.mem_filter.mp found
        rw [Bool.and_eq_true] at kept
        exact (matchesFilters_iff user ids).mp kept.2

end KnowledgeCompanion.Bm25
