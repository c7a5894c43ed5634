import KnowledgeCompanion.MetadataMapper
import KnowledgeCompanion.Retrieval

/-! The retrieval engine over the index package (`services/llamaindex/retrieval_engine.py`,
`milvus_adapter.py`, `filters.py` and `context_compressor.py`) beside the retrieval service:
over a store that honours the scope both return the same chunks. -/

namespace KnowledgeCompanion.NodeRetrieval

open PythonText BaseChunker StoreQueries StoreSearch StoreSelection Ranking BudgetedPrefix
open ApiExceptions MetadataMapper Retrieval

def invalidRetrievalRequestError (message : String) : ApiException :=
  ⟨"INVALID_RETRIEVAL_REQUEST", message, 400⟩

def invalidRetrievalFilterError (message : String) : ApiException :=
  ⟨"INVALID_RETRIEVAL_FILTER", message, 400⟩

def engineForbiddenError : ApiException := ⟨"RETRIEVAL_FORBIDDEN", "无权访问资源", 403⟩

structure EngineConfig (K : Type) [Zero K] [One K] [LE K] where
  defaultTopK : ℕ
  scoreThreshold : K
  maxContextTokens : ℕ
  perResourceCandidates : Bool := true
  topK_pos : 0 < defaultTopK
  threshold_range : 0 ≤ scoreThreshold ∧ scoreThreshold ≤ 1
  tokens_pos : 0 < maxContextTokens

abbrev Scope := Except ApiException Query

section Filters

def normalizeResourceIds (resourceIDs : List Text) : List Text :=
  firstOfEach id [] ((resourceIDs.map strip).filter fun value => value ≠ [])

def buildMetadataFilters (userID : Text) (resourceIDs : List Text) : Scope :=
  let user := strip userID
  let ids := normalizeResourceIds resourceIDs
  if user = [] then .error (invalidRetrievalFilterError "检索过滤条件必须包含 user_id")
  else if ids = [] then .error (invalidRetrievalFilterError "检索过滤条件必须包含 resource_ids")
  else .ok (ofScope ⟨user, ids⟩)

end Filters

variable {F K Node : Type} [LinearOrder K] [Zero K] [One K]

/-- The embedding, the token estimator, the digest and the prompt as the service has them,
the package, and the limit of the store's configuration. -/
structure RetrievalEngine (F K Node : Type) [LinearOrder K] [Zero K] [One K] where
  embedQuery : Text → List F
  count : Text → ℕ
  sha1 : Text → Text
  build : List (NodeChunk K) → Text → Text
  cls : NodeClass K Node
  conv : Conversions K
  topKLimit : ℕ
  config : EngineConfig K

structure EngineResult (K : Type) where
  chunks : List (NodeChunk K)
  prompt : Text
  contextTokenCount : ℕ

def searchByVector (engine : RetrievalEngine F K Node) (search : Search F K) (vector : List F)
    (filters : Query) (topK : ℕ) : Except ApiException (List Node) :=
  match search vector (min topK engine.topKLimit) filters with
  | .ok hits => .ok (hits.map (vectorSearchResultToNode engine.cls))
  | .error e =>
    if e.code = "VECTOR_STORE_UNAVAILABLE" then .error e
    else .error (vectorStoreUnavailableError "向量存储不可用")

def query (engine : RetrievalEngine F K Node) (search : Search F K) (question userID : Text)
    (resourceIDs : List Text) (topK : ℕ) : Except ApiException (List Node) := do
  let filters ← buildMetadataFilters userID resourceIDs
  searchByVector engine search (engine.embedQuery question) filters topK

def usePerResourceCandidates (engine : RetrievalEngine F K Node) (resourceIDs : List Text) : Bool :=
  engine.config.perResourceCandidates && decide (1 < resourceIDs.eraseDups.length)

def engineTopK (engine : RetrievalEngine F K Node) (request : RetrievalRequest K) : ℕ :=
  if request.topK = 0 then engine.config.defaultTopK else request.topK

def engineCandidateTopK (engine : RetrievalEngine F K Node) (topK : ℕ) (resourceIDs : List Text) :
    ℕ :=
  if usePerResourceCandidates engine resourceIDs then
    min (max (topK * 8) (topK + resourceIDs.eraseDups.length)) 100
  else topK

def validateRequest (request : RetrievalRequest K) : Except ApiException Unit :=
  if strip request.question = [] then
    .error (invalidRetrievalRequestError "question 不能为空")
  else if strip request.userID = [] then
    .error (invalidRetrievalRequestError "user_id 不能为空")
  else if request.resourceIDs = [] then
    .error (invalidRetrievalRequestError "resource_ids 不能为空")
  else .ok ()

def retrieveCandidates (engine : RetrievalEngine F K Node) (search : Search F K)
    (request : RetrievalRequest K) (topK : ℕ) : Except ApiException (List Node) := do
  let nodes ← query engine search request.question request.userID request.resourceIDs
    (engineCandidateTopK engine topK request.resourceIDs)
  if usePerResourceCandidates engine request.resourceIDs then
    let more ← request.resourceIDs.eraseDups.mapM fun id =>
      query engine search request.question request.userID [id] 1
    pure (nodes ++ more.flatten)
  else pure nodes

def authorizeChunks (engine : RetrievalEngine F K Node) (chunks : List (NodeChunk K))
    (request : RetrievalRequest K) : Except ApiException Unit :=
  if chunks.all fun chunk =>
      strOr engine.conv (ReadThroughCache.lookup "user_id" chunk.metadata) [] == request.userID &&
        request.resourceIDs.contains chunk.resourceID
  then .ok () else .error engineForbiddenError

def nodeFingerprint (engine : RetrievalEngine F K Node) (text : Text) : Text :=
  let normalized := strip (text.filter fun c => !isSpace c)
  if normalized = [] then [] else engine.sha1 (normalized.take 1200)

def nodeKey (engine : RetrievalEngine F K Node) (chunk : NodeChunk K) : Text :=
  let fingerprint := nodeFingerprint engine chunk.text
  if fingerprint = [] then chunk.resourceID ++ ":".toList ++ chunk.chunkID else fingerprint

def compress (engine : RetrievalEngine F K Node) (maxTokens : ℕ) :
    List (NodeChunk K) → List (NodeChunk K)
  | [] => []
  | chunk :: chunks =>
    chunk :: keepWithin (fun chunk => engine.count chunk.text) maxTokens (engine.count chunk.text)
      chunks

def filterChunks (engine : RetrievalEngine F K Node) (request : RetrievalRequest K)
    (chunks : List (NodeChunk K)) : List (NodeChunk K) :=
  let sorted := ranked NodeChunk.score chunks
  let deduped :=
    if usePerResourceCandidates engine request.resourceIDs then
      firstOfEach (nodeKey engine) [] sorted
    else sorted
  admitted NodeChunk.score (request.scoreThreshold.getD engine.config.scoreThreshold)
    (engineTopK engine request) deduped

def engineRetrieve (engine : RetrievalEngine F K Node) (search : Search F K)
    (request : RetrievalRequest K) : Except ApiException (EngineResult K) := do
  validateRequest request
  let nodes ← retrieveCandidates engine search request (engineTopK engine request)
  let chunks := nodes.map (nodeToRetrievalChunk engine.cls engine.conv)
  authorizeChunks engine chunks request
  let compressed := compress engine
    (request.maxContextTokens.getD engine.config.maxContextTokens)
    (filterChunks engine request chunks)
  pure
    { chunks := compressed
      prompt := engine.build compressed request.question
      contextTokenCount := (compressed.map fun chunk => engine.count chunk.text).sum }

end KnowledgeCompanion.NodeRetrieval
