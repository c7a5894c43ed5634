import KnowledgeCompanion.ApiExceptions
import KnowledgeCompanion.Bm25
import KnowledgeCompanion.RankFusion
import KnowledgeCompanion.ReadThroughCache

/-! Hybrid retrieval (`services/hybrid_retrieval/hybrid_retrieval_service.py` and
`reranker.py`): BM25 with its cached index and vector search side by side, their fusion
and the reranking of the best candidates. -/

namespace KnowledgeCompanion.HybridRetrieval

open RetrievalModels ApiExceptions Bm25 RankFusion ReadThroughCache Ranking

structure HybridRetrievalConfig where
  bm25Weight : ℚ := 1
  vectorWeight : ℚ := 1
  rrfK : ℕ := 60
  rerankTopN : ℕ := 20
  finalTopK : ℕ := 5
  scoreThreshold : ℚ := 0
  timeoutMs : ℤ := 800
  fallbackToVector : Bool := true
  bm25Tokenizer : Text := "jieba".toList
  bm25CacheIndex : Bool := true
  bm25MaxDocs : ℕ := 1000
  bm25CacheMaxEntries : ℤ := 100
  rerankerEnabled : Bool := true

structure ResolvedParams where
  bm25Weight : ℚ
  vectorWeight : ℚ
  rrfK : ℕ
  rerankTopN : ℕ
  finalTopK : ℕ
  scoreThreshold : ℚ
  timeoutMs : ℤ
  fallbackToVector : Bool
  bm25MaxDocs : ℕ
  bm25CacheMaxEntries : ℤ
  rerankerEnabled : Bool

structure HybridRetrievalService where
  config : HybridRetrievalConfig
  libraries : Libraries

/-- What the services around answer during one request. `predict` is `none` when the
model cannot be loaded or raises; the clock is read at its n-th reading. -/
structure RetrievalIO (F : Type) where
  query : Filters → ℕ → Except Raised (List VectorSearchResult)
  embedQuery : Text → Except Raised (List F)
  search : List F → ℕ → Filters → Except Raised (List VectorSearchResult)
  predict : List (Text × Text) → Option (List RawScore)
  clock : ℕ → ℚ
  /-- A search returns records of the scope it is asked for. -/
  search_scoped : ∀ vector topK filters hits, search vector topK filters = .ok hits →
    ∀ hit ∈ hits, InScope filters hit.userID hit.resourceID

theorem scoped_nil {filters : Filters} {hits : List VectorSearchResult}
    (found : (Except.ok [] : Except Raised (List VectorSearchResult)) = .ok hits) :
    ∀ hit ∈ hits, InScope filters hit.userID hit.resourceID := by
  rw [← Except.ok.inj found]
  exact nofun

abbrev Bm25Cache := Entries Text Bm25Store

variable {F : Type}

def resolveParams (cfg : HybridRetrievalConfig) (request : HybridRetrievalRequest) :
    ResolvedParams where
  bm25Weight := request.1.bm25Weight.getD cfg.bm25Weight
  vectorWeight := request.1.vectorWeight.getD cfg.vectorWeight
  rrfK := request.1.rrfK.getD cfg.rrfK
  rerankTopN := request.1.rerankTopN.getD cfg.rerankTopN
  finalTopK := request.1.finalTopK.getD cfg.finalTopK
  scoreThreshold := request.1.scoreThreshold.getD cfg.scoreThreshold
  timeoutMs := request.1.timeoutMs.elim cfg.timeoutMs fun n => n
  fallbackToVector := cfg.fallbackToVector
  bm25MaxDocs := cfg.bm25MaxDocs
  bm25CacheMaxEntries := cfg.bm25CacheMaxEntries
  rerankerEnabled := cfg.rerankerEnabled

def textLE : Text → Text → Bool
  | [], _ => true
  | _ :: _, [] => false
  | a :: as, b :: bs => decide (a.toNat < b.toNat) || (a == b && textLE as bs)

def sortedTexts (ts : List Text) : List Text := ts.insertionSort fun a b => textLE a b = true

def bm25CacheKey (filters : Filters) : Text :=
  filters.userID ++ '|' :: [','].intercalate (sortedTexts filters.resourceIDs)

def loadCorpus (io : RetrievalIO F) (filters : Filters) (maxDocs : ℕ) :
    Except Raised (List SearchResult) :=
  match io.query filters maxDocs with
  | .error e => .error e
  | .ok records => .ok (records.map (toSearchResult .bm25))

def buildBm25 (svc : HybridRetrievalService) (io : RetrievalIO F) (filters : Filters)
    (maxDocs : ℕ) : Except Raised Bm25Store :=
  match loadCorpus io filters maxDocs with
  | .error e => .error e
  | .ok docs =>
    match create svc.config.bm25Tokenizer with
    | none => .error .other
    | some store =>
      match index svc.libraries store docs with
      | none => .error .other
      | some store => .ok store

def getOrBuildBm25 (svc : HybridRetrievalService) (io : RetrievalIO F) (cache : Bm25Cache)
    (filters : Filters) (params : ResolvedParams) : Except Raised Bm25Store × Bm25Cache :=
  let key := bm25CacheKey filters
  match if svc.config.bm25CacheIndex then lookup key cache else none with
  | some store => (.ok store, moveToEnd key cache)
  | none =>
    match buildBm25 svc io filters params.bm25MaxDocs with
    | .error e => (.error e, cache)
    | .ok store =>
      if svc.config.bm25CacheIndex then
        -- popping from the empty cache is a `KeyError`
        match evict params.bm25CacheMaxEntries (moveToEnd key (assign key store cache)) with
        | none => (.error .other, [])
        | some rest => (.ok store, rest)
      else (.ok store, cache)

def bm25Path (svc : HybridRetrievalService) (io : RetrievalIO F) (cache : Bm25Cache)
    (request : HybridRetrievalRequest) : Except Raised (List SearchResult) × Bm25Cache :=
  let params := resolveParams svc.config request
  match getOrBuildBm25 svc io cache request.filters params with
  | (.error e, cache) => (.error e, cache)
  | (.ok store, cache) =>
    (.ok (Bm25.search svc.libraries store request.1.question params.rerankTopN request.filters),
      cache)

def vectorPath (svc : HybridRetrievalService) (io : RetrievalIO F)
    (request : HybridRetrievalRequest) : Except Raised (List SearchResult) :=
  match io.embedQuery request.1.question with
  | .error e => .error e
  | .ok vector =>
    match io.search vector (resolveParams svc.config request).rerankTopN request.filters with
    | .error e => .error e
    | .ok results => .ok (results.map (toSearchResult .vector))

def guarded {α : Type} : Except Raised (List α) → Except ApiException (List α × Bool)
  | .ok hits => .ok (hits, false)
  | .error (.api e) => .error e
  | .error .other => .ok ([], true)

/-- `int` of the milliseconds since the first reading, cut towards zero. -/
def elapsedMs (io : RetrievalIO F) (n : ℕ) : ℤ :=
  let ms := (io.clock n - io.clock 0) * 1000
  ms.num.tdiv ms.den

def timeoutFallbackChunks (params : ResolvedParams) (vectorHits fusedTop : List SearchResult) :
    List SearchResult :=
  if params.fallbackToVector && !vectorHits.isEmpty then
    (vectorHits.take params.finalTopK).map fun hit => { hit with source := .vector }
  else fusedTop.take params.finalTopK

def rerank (enabled : Bool) (io : RetrievalIO F) (question : Text)
    (candidates : List SearchResult) (topN : ℕ) : Option (List (SearchResult RawScore)) :=
  if candidates = [] ∨ enabled = false then some ((candidates.take topN).map SearchResult.raw)
  else
    match io.predict (candidates.map fun candidate => (question, candidate.text)) with
    | none => none
    | some rawScores =>
      -- the strict `zip`
      if rawScores.length ≠ candidates.length then none
      else
        some (((ranked Prod.snd (candidates.zip rawScores)).take topN).map fun p =>
          { p.1 with score := p.2, source := .rerank })

def rerankChunks (io : RetrievalIO F) (question : Text) (fusedTop : List SearchResult)
    (params : ResolvedParams) : List (SearchResult RawScore) × Bool :=
  match rerank params.rerankerEnabled io question fusedTop params.finalTopK with
  | some chunks => (chunks, false)
  | none => ((fusedTop.take params.finalTopK).map SearchResult.raw, true)

def validateAuthorization (chunks : List (SearchResult RawScore))
    (request : HybridRetrievalRequest) : Except ApiException Unit :=
  if chunks.all fun chunk => InScope request.filters chunk.userID chunk.resourceID then .ok ()
  else .error retrievalForbiddenError

def finalizeResult (io : RetrievalIO F) (chunks : List (SearchResult RawScore))
    (fusion : FusionStats) (request : HybridRetrievalRequest) (params : ResolvedParams)
    (degraded : Bool) : Except ApiException HybridRetrievalResult :=
  match validateAuthorization chunks request with
  | .error e => .error e
  | .ok () =>
    .ok ⟨chunks.filter fun chunk => decide (rawScore params.scoreThreshold ≤ chunk.score),
      fusion, degraded, elapsedMs io 2⟩

/-- The chunks that are returned for the hits of the two paths, and whether the answer is
worse for it. -/
def rankChunks (io : RetrievalIO F) (request : HybridRetrievalRequest) (params : ResolvedParams)
    (vectorHits fused : List SearchResult) : List (SearchResult RawScore) × Bool :=
  let fusedTop := fused.take params.rerankTopN
  if params.timeoutMs ≤ elapsedMs io 1 then
    ((timeoutFallbackChunks params vectorHits fusedTop).map SearchResult.raw, true)
  else if params.rerankerEnabled then rerankChunks io request.1.question fusedTop params
  else ((fusedTop.take params.finalTopK).map SearchResult.raw, false)

/-- What `retrieve` does with the hits of the two paths. -/
def combine (io : RetrievalIO F) (request : HybridRetrievalRequest) (params : ResolvedParams)
    (bm25Hits vectorHits : List SearchResult) (degraded : Bool) :
    Except ApiException HybridRetrievalResult :=
  if bm25Hits = [] ∧ vectorHits = [] then
    .ok ⟨[], ⟨0, 0, 0⟩, degraded, elapsedMs io 1⟩
  else
    let fused := reciprocalRankFusion bm25Hits vectorHits params.bm25Weight params.vectorWeight
      params.rrfK
    let ranked := rankChunks io request params vectorHits fused
    finalizeResult io ranked.1 ⟨bm25Hits.length, vectorHits.length, fused.length⟩ request params
      (degraded || ranked.2)

def answer (io : RetrievalIO F) (request : HybridRetrievalRequest) (params : ResolvedParams)
    (bm25 vector : Except Raised (List SearchResult)) :
    Except ApiException HybridRetrievalResult :=
  match guarded bm25 with
  | .error e => .error e
  | .ok (bm25Hits, bm25Failed) =>
    match guarded vector with
    | .error e => .error e
    | .ok (vectorHits, vectorFailed) =>
      if bm25Failed && vectorFailed then
        .error (retrievalUnavailableError "混合检索两路均失败，无法降级")
      else combine io request params bm25Hits vectorHits (bm25Failed || vectorFailed)

def retrieve (svc : HybridRetrievalService) (io : RetrievalIO F) (cache : Bm25Cache)
    (request : HybridRetrievalRequest) :
    Except ApiException HybridRetrievalResult × Bm25Cache :=
  let bm25 := bm25Path svc io cache request
  (answer io request (resolveParams svc.config request) bm25.1 (vectorPath svc io request), bm25.2)

theorem getOrBuildBm25_access (svc : HybridRetrievalService) (io : RetrievalIO F)
    (cache : Bm25Cache) (filters : Filters) (params : ResolvedParams) :
    getOrBuildBm25 svc io cache filters params =
      access (σ := Unit) (α := Unit) ⟨fun _ => bm25CacheKey filters,
        fun _ _ => buildBm25 svc io filters params.bm25MaxDocs, svc.config.bm25CacheIndex,
        params.bm25CacheMaxEntries, .other⟩ () cache () := by
  unfold getOrBuildBm25 access
  dsimp only
  cases if svc.config.bm25CacheIndex = true then lookup (bm25CacheKey filters) cache else none with
  | some index => rfl
  | none =>
    cases buildBm25 svc io filters params.bm25MaxDocs with
    | error e => rfl
    | ok index =>
      dsimp only
      cases svc.config.bm25CacheIndex with
      | false => rfl
      | true =>
        cases evict params.bm25CacheMaxEntries (moveToEnd (bm25CacheKey filters)
          (assign (bm25CacheKey filters) index cache)) <;> rfl

theorem bm25Path_cache (svc : HybridRetrievalService) (io : RetrievalIO F) (cache : Bm25Cache)
    (request : HybridRetrievalRequest) : (bm25Path svc io cache request).2 =
      (getOrBuildBm25 svc io cache request.filters (resolveParams svc.config request)).2 := by
  unfold bm25Path
  dsimp only
  split <;> rename_i got <;> rw [got]

end KnowledgeCompanion.HybridRetrieval
