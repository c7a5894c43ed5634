import KnowledgeCompanion.Text

/-! Errors of the AI service (`app/core/exceptions.py`). -/

namespace KnowledgeCompanion.ApiExceptions

structure ApiException where
  code : String
  message : String
  statusCode : ℕ
deriving DecidableEq

def invalidChunkingStrategyError (strategy : Text) : ApiException :=
  ⟨"INVALID_STRATEGY", "不支持的分块策略: " ++ String.ofList strategy, 400⟩

def embeddingAuthenticationError (message : String) : ApiException :=
  ⟨"EMBEDDING_AUTH_FAILED", message, 401⟩

def embeddingUnavailableError : ApiException := ⟨"EMBEDDING_UNAVAILABLE", "Embedding 服务不可用", 503⟩

def dimensionMismatchError (message : String) : ApiException :=
  ⟨"DIMENSION_MISMATCH", message, 500⟩

def retrievalForbiddenError : ApiException := ⟨"FORBIDDEN", "无权访问资源", 403⟩

def retrievalUnavailableError (message : String) : ApiException :=
  ⟨"RETRIEVAL_UNAVAILABLE", message, 503⟩

def vectorStoreUnavailableError (message : String) : ApiException :=
  ⟨"VECTOR_STORE_UNAVAILABLE", message, 503⟩

/-- What an `except` clause tells apart. -/
inductive Raised
  | api (e : ApiException)
  | other
deriving DecidableEq

end KnowledgeCompanion.ApiExceptions
