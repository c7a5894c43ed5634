import KnowledgeCompanion.VectorReindex

/-! An indexing that fails: the embeddings are computed before the records of the resource
are deleted, and these are deleted before the new ones are upserted. -/

namespace KnowledgeCompanion.ReindexFailure

open PythonText BaseChunker Embeddings ApiExceptions KeyedUpsert VectorIndexing VectorReindex

variable {F : Type}

end KnowledgeCompanion.ReindexFailure
