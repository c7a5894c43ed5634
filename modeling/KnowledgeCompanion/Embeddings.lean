import KnowledgeCompanion.ApiExceptions
import KnowledgeCompanion.PythonText

/-! Embeddings of text chunks (`services/embedding/service.py`). Vectors are over any
type of numbers. The provider is everything that the service does not control: its
answer may depend on the batch, on the attempt and on the texts. -/

namespace KnowledgeCompanion.Embeddings

open SpanScan PythonText ApiExceptions

structure ChunkInput where
  id : Text
  resourceID : Text
  text : Text

structure Embedding (F : Type) where
  chunkID : Text
  resourceID : Text
  vector : List F
  model : Text
  dimensions : ℕ

/-- The settings that the service reads, as `__post_init__` accepts them. -/
structure EmbeddingConfig where
  model : Text
  batchSize : ℕ
  maxRetries : ℕ
  dimensions : ℕ
  normalize : Bool
  maxTextChars : ℕ
  batch_pos : 0 < batchSize
  dimensions_pos : 0 < dimensions
  text_pos : 0 < maxTextChars

/-- The configuration, the number zero and the floating-point `_normalize`. -/
structure EmbeddingService (F : Type) where
  config : EmbeddingConfig
  zero : F
  normalized : List F → List F

inductive ProviderFault
  | authentication (message : String)
  | other

abbrev Provider (F : Type) := ℕ → ℕ → List Text → Except ProviderFault (List (List F))

variable {F : Type}

def batches (n : ℕ) (chunks : List ChunkInput) : List (List ChunkInput) :=
  (List.range ((chunks.length + n - 1) / n)).map fun i => slice chunks (i * n) (i * n + n)

def prepareText (cfg : EmbeddingConfig) (text : Text) : Text := (strip text).take cfg.maxTextChars

/-- The attempts that are left, the next of them `attempt`. An authentication error
is not retried, the last other error becomes an unavailable service. -/
def attempts (answer : ℕ → Except ProviderFault (List (List F))) :
    ℕ → ℕ → Except ApiException (List (List F))
  | 0, _ => .error embeddingUnavailableError
  | left + 1, attempt =>
    match answer attempt with
    | .ok vectors => .ok vectors
    | .error (.authentication message) => .error (embeddingAuthenticationError message)
    | .error .other => attempts answer left (attempt + 1)

def embedBatch (cfg : EmbeddingConfig) (provider : Provider F) (batch : ℕ) (texts : List Text) :
    Except ApiException (List (List F)) :=
  attempts (fun attempt => provider batch attempt texts) (max 1 cfg.maxRetries) 0

def buildEmbedding (svc : EmbeddingService F) (chunk : ChunkInput) (vector : List F) :
    Except ApiException (Embedding F) :=
  if vector.length ≠ svc.config.dimensions then
    .error (dimensionMismatchError ("向量维度 " ++ Nat.repr vector.length ++ " 与配置 " ++
      Nat.repr svc.config.dimensions ++ " 不符"))
  else
    let final := if svc.config.normalize then svc.normalized vector else vector
    .ok ⟨chunk.id, chunk.resourceID, final, svc.config.model, final.length⟩

def buildEmbeddings (svc : EmbeddingService F) :
    List (ChunkInput × List F) → Except ApiException (List (Embedding F))
  | [] => .ok []
  | (chunk, vector) :: rest =>
    match buildEmbedding svc chunk vector, buildEmbeddings svc rest with
    | .error e, _ => .error e
    | .ok _, .error e => .error e
    | .ok embedding, .ok embeddings => .ok (embedding :: embeddings)

def zeroVector (svc : EmbeddingService F) : List F := List.replicate svc.config.dimensions svc.zero

def nonEmpty (cfg : EmbeddingConfig) (batch : List ChunkInput) : List (Text × ℕ) :=
  ((batch.map fun chunk => prepareText cfg chunk.text).zipIdx).filter fun p => !p.1.isEmpty

def putBack (vectors : List (List F)) (filled : List ((Text × ℕ) × List F)) : List (List F) :=
  filled.foldl (fun vectors p => vectors.set p.1.2 p.2) vectors

def batchVectors (svc : EmbeddingService F) (provider : Provider F) (i : ℕ)
    (batch : List ChunkInput) : Except ApiException (List (List F)) :=
  let filled := nonEmpty svc.config batch
  let zeros := batch.map fun _ => zeroVector svc
  if filled = [] then .ok zeros
  else
    match embedBatch svc.config provider i (filled.map Prod.fst) with
    | .error e => .error e
    | .ok returned =>
      if returned.length ≠ filled.length then
        .error (dimensionMismatchError ("Embedding provider 返回 " ++ Nat.repr returned.length ++
          " 个向量，期望 " ++ Nat.repr filled.length ++ " 个"))
      else .ok (putBack zeros (filled.zip returned))

def embedBatchWithFallback (svc : EmbeddingService F) (provider : Provider F) (i : ℕ)
    (batch : List ChunkInput) : Except ApiException (List (Embedding F)) :=
  match batchVectors svc provider i batch with
  | .error e => .error e
  | .ok vectors => buildEmbeddings svc (batch.zip vectors)

def embedBatches (svc : EmbeddingService F) (provider : Provider F) :
    ℕ → List (List ChunkInput) → Except ApiException (List (Embedding F))
  | _, [] => .ok []
  | i, batch :: rest =>
    match embedBatchWithFallback svc provider i batch with
    | .error e => .error e
    | .ok embeddings =>
      match embedBatches svc provider (i + 1) rest with
      | .error e => .error e
      | .ok others => .ok (embeddings ++ others)

def embed (svc : EmbeddingService F) (provider : Provider F) (chunks : List ChunkInput) :
    Except ApiException (List (Embedding F)) :=
  embedBatches svc provider 0 (batches svc.config.batchSize chunks)

def embedQuery (svc : EmbeddingService F) (provider : Provider F) (text : Text) :
    Except ApiException (List F) :=
  match embed svc provider [⟨"query".toList, "query".toList, text⟩] with
  | .error e => .error e
  | .ok [] => .ok (zeroVector svc)
  | .ok (embedding :: _) => .ok embedding.vector

theorem batches_flatten {n : ℕ} (positive : 0 < n) (chunks : List ChunkInput) :
    (batches n chunks).flatten = chunks := by
  have first (k : ℕ) :
      ((List.range k).map fun i => slice chunks (i * n) (i * n + n)).flatten =
        chunks.take (k * n) := by
    induction k with
    | zero => simp
    | succ k ih =>
      rw [List.range_succ, List.map_append, List.flatten_append, ih]
      simp only [List.map_cons, List.map_nil, List.flatten_cons, List.flatten_nil,
        List.append_nil, slice]
      have before : chunks.take (k * n) = (chunks.take (k * n + n)).take (k * n) := by
        rw [List.take_take, Nat.min_eq_left (by omega)]
      rw [before, List.take_append_drop, Nat.succ_mul]
  rw [batches, first]
  apply List.take_of_length_le
  have division := Nat.div_add_mod (chunks.length + n - 1) n
  have remainder := Nat.mod_lt (chunks.length + n - 1) positive
  rw [Nat.mul_comm]
  omega

theorem putBack_length (vectors : List (List F)) (filled : List ((Text × ℕ) × List F)) :
    (putBack vectors filled).length = vectors.length := by
  induction filled generalizing vectors with
  | nil => rfl
  | cons p filled ih =>
    rw [putBack, List.foldl_cons, ← putBack, ih, List.length_set]

theorem batchVectors_length {svc : EmbeddingService F} {provider : Provider F} {i : ℕ}
    {batch : List ChunkInput} {vectors : List (List F)}
    (h : batchVectors svc provider i batch = .ok vectors) : vectors.length = batch.length := by
  unfold batchVectors at h
  dsimp only at h
  split at h
  · rw [← Except.ok.inj h, List.length_map]
  · split at h
    · simp at h
    · split at h
      · simp at h
      · rw [← Except.ok.inj h, putBack_length, List.length_map]

theorem buildEmbeddings_chunkID {svc : EmbeddingService F} {pairs : List (ChunkInput × List F)}
    {embeddings : List (Embedding F)} (h : buildEmbeddings svc pairs = .ok embeddings) :
    embeddings.map Embedding.chunkID = (pairs.map Prod.fst).map ChunkInput.id := by
  induction pairs generalizing embeddings with
  | nil =>
    rw [← Except.ok.inj h]
    rfl
  | cons p pairs ih =>
    rw [buildEmbeddings] at h
    split at h
    · simp at h
    · simp at h
    · rename_i embedding rest first later
      unfold buildEmbedding at first
      split at first
      · simp at first
      · rw [← Except.ok.inj h, List.map_cons, List.map_cons, List.map_cons, ih later,
          ← Except.ok.inj first]

theorem embedBatchWithFallback_chunkID {svc : EmbeddingService F} {provider : Provider F} {i : ℕ}
    {batch : List ChunkInput} {embeddings : List (Embedding F)}
    (h : embedBatchWithFallback svc provider i batch = .ok embeddings) :
    embeddings.map Embedding.chunkID = batch.map ChunkInput.id := by
  unfold embedBatchWithFallback at h
  split at h
  · simp at h
  · rename_i vectors found
    have firsts : (batch.zip vectors).map Prod.fst = batch :=
      List.map_fst_zip (Nat.le_of_eq (batchVectors_length found).symm)
    rw [buildEmbeddings_chunkID h, firsts]

theorem embedBatches_chunkID {svc : EmbeddingService F} {provider : Provider F} {i : ℕ}
    {rest : List (List ChunkInput)} {embeddings : List (Embedding F)}
    (h : embedBatches svc provider i rest = .ok embeddings) :
    embeddings.map Embedding.chunkID = rest.flatten.map ChunkInput.id := by
  induction rest generalizing i embeddings with
  | nil =>
    rw [← Except.ok.inj h]
    rfl
  | cons batch rest ih =>
    rw [embedBatches] at h
    split at h
    · simp at h
    · rename_i first found
      split at h
      · simp at h
      · rename_i others later
        rw [← Except.ok.inj h, List.map_append, List.flatten_cons, List.map_append, ih later,
          embedBatchWithFallback_chunkID found]

theorem embed_chunkID {svc : EmbeddingService F} {provider : Provider F}
    {chunks : List ChunkInput} {embeddings : List (Embedding F)}
    (h : embed svc provider chunks = .ok embeddings) :
    embeddings.map Embedding.chunkID = chunks.map ChunkInput.id := by
  rw [embedBatches_chunkID h, batches_flatten svc.config.batch_pos]

end KnowledgeCompanion.Embeddings
