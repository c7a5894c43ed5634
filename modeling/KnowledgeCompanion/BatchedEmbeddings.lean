import Mathlib.Algebra.Order.Ring.Rat
import KnowledgeCompanion.Embeddings

/-! How the vectors of a batch find their chunks (`services/embedding/service.py`):
blank texts are taken out, the rest goes to the provider batch by batch, and the answer is
put back by position. -/

namespace KnowledgeCompanion.BatchedEmbeddings

open SpanScan PythonText ApiExceptions Embeddings

variable {F : Type}

/-- The vectors of the texts: the next answer for each text that is not empty, the vector
that stands there for the others. -/
def fill : List Text → List (List F) → List (List F) → List (List F)
  | t :: ts, v :: vs, answers =>
    if t = [] then v :: fill ts vs answers
    else
      match answers with
      | [] => v :: fill ts vs []
      | a :: rest => a :: fill ts vs rest
  | _, _, _ => []

theorem fill_skip {t : Text} (empty : t = []) (ts : List Text) (v : List F)
    (vs answers : List (List F)) :
    fill (t :: ts) (v :: vs) answers = v :: fill ts vs answers := by
  simp only [fill, empty, if_true]

theorem fill_next {t : Text} (some : t ≠ []) (ts : List Text) (v a : List F)
    (vs rest : List (List F)) : fill (t :: ts) (v :: vs) (a :: rest) = a :: fill ts vs rest := by
  simp only [fill, some, if_false]

def filledFrom (n : ℕ) (ts : List Text) : List (Text × ℕ) :=
  (ts.zipIdx n).filter fun p => !p.1.isEmpty

theorem filledFrom_cons (n : ℕ) (t : Text) (ts : List Text) :
    filledFrom n (t :: ts) =
      if t = [] then filledFrom (n + 1) ts else (t, n) :: filledFrom (n + 1) ts := by
  by_cases empty : t = [] <;> simp [filledFrom, empty]

theorem putBack_fill (front : List (List F)) {ts : List Text} {vs : List (List F)}
    (same : vs.length = ts.length) {answers : List (List F)}
    (enough : answers.length = (filledFrom front.length ts).length) :
    putBack (front ++ vs) ((filledFrom front.length ts).zip answers) =
      front ++ fill ts vs answers := by
  induction ts generalizing front vs answers with
  | nil =>
    rw [List.eq_nil_of_length_eq_zero same]
    rfl
  | cons t ts ih =>
    obtain ⟨v, vs, rfl⟩ := List.exists_cons_of_length_eq_add_one same
    have regroup (a : List F) : front ++ a :: vs = (front ++ [a]) ++ vs := by simp
    have next (a : List F) : (front ++ [a]).length = front.length + 1 := by simp
    rw [filledFrom_cons] at enough ⊢
    by_cases empty : t = []
    · rw [if_pos empty] at enough ⊢
      rw [← next v] at enough
      rw [fill_skip empty, regroup, ← next v, ih (front ++ [v]) (by simpa using same) enough,
        List.append_assoc]
      rfl
    · rw [if_neg empty] at enough ⊢
      obtain ⟨a, rest, rfl⟩ := List.exists_cons_of_length_eq_add_one enough
      rw [List.length_cons, List.length_cons, ← next a] at enough
      have placed : (front ++ v :: vs).set front.length a = (front ++ [a]) ++ vs := by
        rw [List.set_append_right _ _ (Nat.le_refl _), Nat.sub_self, List.set_cons_zero, regroup]
      have tail := ih (front ++ [a]) (by simpa using same) (Nat.succ.inj enough)
      rw [next a, putBack] at tail
      rw [fill_next empty, List.zip_cons_cons, putBack, List.foldl_cons, placed, tail,
        List.append_assoc]
      rfl

theorem mem_fill {n : ℕ} {ts : List Text} {vs answers : List (List F)}
    (same : vs.length = ts.length) (enough : answers.length = (filledFrom n ts).length) :
    ∀ a ∈ answers, a ∈ fill ts vs answers := by
  induction ts generalizing n vs answers with
  | nil =>
    rw [List.eq_nil_of_length_eq_zero enough]
    simp
  | cons t ts ih =>
    obtain ⟨v, vs, rfl⟩ := List.exists_cons_of_length_eq_add_one same
    rw [filledFrom_cons] at enough
    by_cases empty : t = []
    · rw [if_pos empty] at enough
      rw [fill_skip empty]
      exact fun a mem => List.mem_cons_of_mem v (ih (by simpa using same) enough a mem)
    · rw [if_neg empty] at enough
      obtain ⟨a, rest, rfl⟩ := List.exists_cons_of_length_eq_add_one enough
      rw [fill_next empty]
      refine List.forall_mem_cons.mpr ⟨List.mem_cons_self, fun b mem => ?_⟩
      exact List.mem_cons_of_mem a
        (ih (by simpa using same) (by simpa using enough) b mem)

theorem fill_pointwise (f : Text → List F) (zero : List F) (n : ℕ) (ts : List Text) :
    fill ts (ts.map fun _ => zero) (((filledFrom n ts).map Prod.fst).map f) =
      ts.map fun t => if t = [] then zero else f t := by
  induction ts generalizing n with
  | nil => rfl
  | cons t ts ih =>
    rw [filledFrom_cons]
    by_cases empty : t = []
    · simp only [empty, if_true, List.map_cons, fill, ih]
    · simp only [empty, if_false, List.map_cons, fill, ih]

def prepared (cfg : EmbeddingConfig) (batch : List ChunkInput) : List Text :=
  batch.map fun chunk => prepareText cfg chunk.text

theorem nonEmpty_filled (cfg : EmbeddingConfig) (batch : List ChunkInput) :
    nonEmpty cfg batch = filledFrom 0 (prepared cfg batch) := rfl

theorem prepareText_nil_iff (cfg : EmbeddingConfig) (text : Text) :
    prepareText cfg text = [] ↔ isBlank text = true := by
  have positive := cfg.text_pos
  rw [prepareText, isBlank, List.isEmpty_iff, List.take_eq_nil_iff]
  exact or_iff_right (Nat.ne_of_gt positive)

theorem batchVectors_fill {svc : EmbeddingService F} {provider : Provider F} {i : ℕ}
    {batch : List ChunkInput} {returned : List (List F)}
    (answered : nonEmpty svc.config batch ≠ [] → embedBatch svc.config provider i
      ((nonEmpty svc.config batch).map Prod.fst) = .ok returned)
    (enough : returned.length = (nonEmpty svc.config batch).length) :
    batchVectors svc provider i batch =
      .ok (fill (prepared svc.config batch) (batch.map fun _ => zeroVector svc) returned) := by
  have placed := @putBack_fill F [] (prepared svc.config batch)
    (batch.map fun _ => zeroVector svc) (by simp [prepared]) returned enough
  rw [List.nil_append, List.nil_append] at placed
  unfold batchVectors
  dsimp only
  by_cases none : nonEmpty svc.config batch = []
  · rw [if_pos none, ← placed]
    rw [none, List.length_nil] at enough
    rw [List.eq_nil_of_length_eq_zero enough, List.zip_nil_right]
    rfl
  · rw [if_neg none, answered none]
    dsimp only
    rw [if_neg (not_not.mpr enough), ← placed]
    rfl

theorem buildEmbeddings_error {svc : EmbeddingService F} {pairs : List (ChunkInput × List F)}
    {p : ChunkInput × List F} (mem : p ∈ pairs) (wrong : p.2.length ≠ svc.config.dimensions) :
    ∃ e, buildEmbeddings svc pairs = .error e := by
  induction pairs with
  | nil => simp at mem
  | cons q pairs ih =>
    rw [buildEmbeddings]
    rcases List.mem_cons.mp mem with here | later
    · rw [← here, buildEmbedding, if_pos wrong]
      exact ⟨_, rfl⟩
    · obtain ⟨e, failed⟩ := ih later
      rw [failed]
      cases buildEmbedding svc q.1 q.2 <;> exact ⟨_, rfl⟩

theorem batch_raises {svc : EmbeddingService F} {provider : Provider F} {i : ℕ}
    {batch : List ChunkInput} {returned : List (List F)} (some : nonEmpty svc.config batch ≠ [])
    (answered : embedBatch svc.config provider i
      ((nonEmpty svc.config batch).map Prod.fst) = .ok returned)
    (wrong : returned.length ≠ (nonEmpty svc.config batch).length ∨
      ∃ v ∈ returned, v.length ≠ svc.config.dimensions) :
    ∃ e, embedBatchWithFallback svc provider i batch = .error e := by
  unfold embedBatchWithFallback
  by_cases enough : returned.length = (nonEmpty svc.config batch).length
  · have vectors := batchVectors_fill (fun _ => answered) enough
    have length := batchVectors_length vectors
    rw [vectors]
    dsimp only
    obtain ⟨v, mem, dimension⟩ := wrong.resolve_left (not_not.mpr enough)
    have filled : v ∈ fill (prepared svc.config batch) (batch.map fun _ => zeroVector svc)
        returned := mem_fill (by simp) enough v mem
    rw [← List.map_snd_zip (Nat.le_of_eq length)] at filled
    obtain ⟨p, paired, same⟩ := List.mem_map.mp filled
    exact buildEmbeddings_error paired (same ▸ dimension)
  · have failed : ∃ e, batchVectors svc provider i batch = .error e := by
      unfold batchVectors
      dsimp only
      rw [if_neg some, answered]
      dsimp only
      rw [if_pos enough]
      exact ⟨_, rfl⟩
    obtain ⟨e, failed⟩ := failed
    rw [failed]
    exact ⟨e, rfl⟩

theorem embedBatches_raises {svc : EmbeddingService F} {provider : Provider F} {i j : ℕ}
    {rest : List (List ChunkInput)} {batch : List ChunkInput} (here : rest[j]? = some batch)
    (failed : ∃ e, embedBatchWithFallback svc provider (i + j) batch = .error e) :
    ∃ e, embedBatches svc provider i rest = .error e := by
  induction rest generalizing i j with
  | nil => simp at here
  | cons first rest ih =>
    rw [embedBatches]
    cases j with
    | zero =>
      obtain ⟨e, failed⟩ := failed
      rw [List.getElem?_cons_zero, Option.some.injEq] at here
      rw [Nat.add_zero, ← here] at failed
      rw [failed]
      exact ⟨e, rfl⟩
    | succ j =>
      rw [List.getElem?_cons_succ] at here
      have shifted : i + 1 + j = i + (j + 1) := by omega
      obtain ⟨e, later⟩ := ih here (shifted ▸ failed)
      cases embedBatchWithFallback svc provider i first with
      | error e => exact ⟨e, rfl⟩
      | ok embeddings =>
        dsimp only
        rw [later]
        exact ⟨e, rfl⟩

def pointwise (f : Text → List F) : Provider F := fun _ _ texts => .ok (texts.map f)

def target (svc : EmbeddingService F) (f : Text → List F) (chunk : ChunkInput) : List F :=
  if isBlank chunk.text then zeroVector svc else f (prepareText svc.config chunk.text)

theorem embedBatch_pointwise (cfg : EmbeddingConfig) (f : Text → List F) (i : ℕ)
    (ts : List Text) : embedBatch cfg (pointwise f) i ts = .ok (ts.map f) := by
  obtain ⟨n, attempts_eq⟩ := Nat.exists_eq_add_of_le (Nat.le_max_left 1 cfg.maxRetries)
  rw [embedBatch, attempts_eq, Nat.add_comm]
  rfl

theorem batchVectors_pointwise (svc : EmbeddingService F) (f : Text → List F) (i : ℕ)
    (batch : List ChunkInput) :
    batchVectors svc (pointwise f) i batch = .ok (batch.map (target svc f)) := by
  rw [batchVectors_fill (fun _ => embedBatch_pointwise svc.config f i _) (by simp)]
  have zeros : (batch.map fun _ => zeroVector svc) =
      (prepared svc.config batch).map fun _ => zeroVector svc := by
    rw [prepared, List.map_map]
    rfl
  rw [zeros, nonEmpty_filled, fill_pointwise, prepared, List.map_map]
  congr 1
  refine List.map_congr_left fun chunk _ => ?_
  simp only [Function.comp_apply, prepareText_nil_iff, target]

theorem buildEmbeddings_append (svc : EmbeddingService F)
    (front back : List (ChunkInput × List F)) :
    buildEmbeddings svc (front ++ back) =
      match buildEmbeddings svc front with
      | .error e => .error e
      | .ok embeddings =>
        match buildEmbeddings svc back with
        | .error e => .error e
        | .ok others => .ok (embeddings ++ others) := by
  induction front with
  | nil =>
    simp only [List.nil_append, buildEmbeddings]
    cases buildEmbeddings svc back <;> rfl
  | cons p front ih =>
    simp only [List.cons_append, buildEmbeddings, ih]
    cases buildEmbedding svc p.1 p.2 <;> cases buildEmbeddings svc front <;>
      cases buildEmbeddings svc back <;> rfl

def targets (svc : EmbeddingService F) (f : Text → List F) (chunks : List ChunkInput) :
    List (ChunkInput × List F) :=
  chunks.map fun chunk => (chunk, target svc f chunk)

theorem embedBatches_pointwise (svc : EmbeddingService F) (f : Text → List F) (i : ℕ)
    (rest : List (List ChunkInput)) :
    embedBatches svc (pointwise f) i rest = buildEmbeddings svc (targets svc f rest.flatten) := by
  induction rest generalizing i with
  | nil => rfl
  | cons batch rest ih =>
    have pairs : batch.zip (batch.map (target svc f)) = targets svc f batch := by
      rw [targets, List.zip_map_right, List.zip_eq_zipWith, List.zipWith_self, List.map_map]
      rfl
    rw [embedBatches, embedBatchWithFallback, batchVectors_pointwise, List.flatten_cons, targets,
      List.map_append, buildEmbeddings_append, ih]
    dsimp only
    rw [pairs]
    rfl

theorem embed_pointwise (svc : EmbeddingService F) (f : Text → List F)
    (chunks : List ChunkInput) :
    embed svc (pointwise f) chunks = buildEmbeddings svc (targets svc f chunks) := by
  rw [embed, embedBatches_pointwise, batches_flatten svc.config.batch_pos]

def built (svc : EmbeddingService F) (p : ChunkInput × List F) : Embedding F :=
  let final := if svc.config.normalize then svc.normalized p.2 else p.2
  ⟨p.1.id, p.1.resourceID, final, svc.config.model, final.length⟩

theorem buildEmbeddings_ok {svc : EmbeddingService F} {pairs : List (ChunkInput × List F)}
    (right : ∀ p ∈ pairs, p.2.length = svc.config.dimensions) :
    buildEmbeddings svc pairs = .ok (pairs.map (built svc)) := by
  induction pairs with
  | nil => rfl
  | cons p pairs ih =>
    simp only [List.forall_mem_cons] at right
    rw [buildEmbeddings, ih right.2, buildEmbedding, if_neg (not_not.mpr right.1)]
    rfl

def withBatchSize (svc : EmbeddingService F) (n : ℕ) (positive : 0 < n) : EmbeddingService F :=
  { svc with config := { svc.config with batchSize := n, batch_pos := positive } }

theorem buildEmbeddings_batchSize (svc : EmbeddingService F) {n : ℕ} (positive : 0 < n)
    (pairs : List (ChunkInput × List F)) :
    buildEmbeddings (withBatchSize svc n positive) pairs = buildEmbeddings svc pairs := by
  induction pairs with
  | nil => rfl
  | cons p pairs ih =>
    rw [buildEmbeddings, ih]
    rfl

section Normalised

variable [Zero F] [Div F] [DecidableEq F]

def l2Normalize (norm : List F → F) (vector : List F) : List F :=
  if norm vector = 0 then vector else vector.map fun x => x / norm vector

def l2Service (cfg : EmbeddingConfig) (norm : List F → F) : EmbeddingService F :=
  ⟨cfg, 0, l2Normalize norm⟩

theorem l2Normalize_length (norm : List F → F) (vector : List F) :
    (l2Normalize norm vector).length = vector.length := by
  unfold l2Normalize
  split
  · rfl
  · exact List.length_map _

def ownVector (cfg : EmbeddingConfig) (norm : List F → F) (f : Text → List F)
    (chunk : ChunkInput) : List F :=
  let own := f (prepareText cfg chunk.text)
  if cfg.normalize then l2Normalize norm own else own

def expected (cfg : EmbeddingConfig) (norm : List F → F) (f : Text → List F)
    (chunk : ChunkInput) : Embedding F :=
  let vector :=
    if isBlank chunk.text then List.replicate cfg.dimensions 0 else ownVector cfg norm f chunk
  ⟨chunk.id, chunk.resourceID, vector, cfg.model, cfg.dimensions⟩

theorem built_expected {cfg : EmbeddingConfig} {norm : List F → F}
    (zero_norm : ∀ n, norm (List.replicate n 0) = 0) {f : Text → List F} {chunk : ChunkInput}
    (right : isBlank chunk.text = false →
      (f (prepareText cfg chunk.text)).length = cfg.dimensions) :
    built (l2Service cfg norm) (chunk, target (l2Service cfg norm) f chunk) =
      expected cfg norm f chunk := by
  have zeros : l2Normalize norm (List.replicate cfg.dimensions 0) =
      List.replicate cfg.dimensions 0 := by
    rw [l2Normalize, if_pos (zero_norm _)]
  simp only [built, expected, ownVector, target, zeroVector, l2Service]
  cases blank : isBlank chunk.text with
  | true => by_cases normal : cfg.normalize = true <;> simp [normal, zeros]
  | false =>
    by_cases normal : cfg.normalize = true <;> simp [normal, right blank, l2Normalize_length]

theorem embed_batched (cfg : EmbeddingConfig) {norm : List F → F}
    (zero_norm : ∀ n, norm (List.replicate n 0) = 0) (f : Text → List F)
    (chunks : List ChunkInput) :
    let svc := l2Service cfg norm
    (∀ n positive, embed (withBatchSize svc n positive) (pointwise f) chunks =
      embed svc (pointwise f) chunks) ∧
    ((∀ chunk ∈ chunks, isBlank chunk.text = false →
        (f (prepareText cfg chunk.text)).length = cfg.dimensions) →
      embed svc (pointwise f) chunks = .ok (chunks.map (expected cfg norm f))) ∧
    (∀ chunk, (expected cfg norm f chunk).vector = List.replicate cfg.dimensions 0 ↔
      isBlank chunk.text = true ∨ ownVector cfg norm f chunk = List.replicate cfg.dimensions 0) ∧
    (∀ chunk ∈ chunks, isBlank chunk.text = false →
      (f (prepareText cfg chunk.text)).length ≠ cfg.dimensions →
      ∃ e, embed svc (pointwise f) chunks = .error e) ∧
    ∀ (provider : Provider F) (i : ℕ) (batch : List ChunkInput) (returned : List (List F)),
      (batches cfg.batchSize chunks)[i]? = some batch → nonEmpty cfg batch ≠ [] →
      embedBatch cfg provider i ((nonEmpty cfg batch).map Prod.fst) = .ok returned →
      (returned.length ≠ (nonEmpty cfg batch).length ∨
        ∃ v ∈ returned, v.length ≠ cfg.dimensions) →
      ∃ e, embed svc provider chunks = .error e := by
  dsimp only
  refine ⟨fun n positive => ?_, fun right => ?_, fun chunk => ?_,
    fun chunk mem some wrong => ?_, fun provider i batch returned here some answered wrong => ?_⟩
  · rw [embed_pointwise, embed_pointwise, buildEmbeddings_batchSize]
    rfl
  · rw [embed_pointwise, buildEmbeddings_ok, targets, List.map_map]
    · congr 1
      exact List.map_congr_left fun chunk mem => built_expected zero_norm (right chunk mem)
    · refine List.forall_mem_map.mpr fun chunk mem => ?_
      cases blank : isBlank chunk.text with
      | true => simp [target, blank, zeroVector, l2Service]
      | false => simpa [target, blank, l2Service] using right chunk mem blank
  · simp only [expected]
    cases isBlank chunk.text <;> simp
  · rw [embed_pointwise]
    refine buildEmbeddings_error (List.mem_map_of_mem mem) ?_
    simpa [target, some, l2Service] using wrong
  · refine embedBatches_raises here ?_
    rw [Nat.zero_add]
    exact @batch_raises F (l2Service cfg norm) _ _ _ _ some answered wrong

end Normalised

def sampleEmbedding : EmbeddingConfig where
  model := []
  batchSize := 1
  maxRetries := 3
  dimensions := 1
  normalize := true
  maxTextChars := 8
  batch_pos := Nat.one_pos
  dimensions_pos := Nat.one_pos
  text_pos := Nat.succ_pos 7

def oneNorm (vector : List ℚ) : ℚ := vector.foldr (fun x s => |x| + s) 0

theorem oneNorm_zero (n : ℕ) : oneNorm (List.replicate n 0) = 0 := by
  induction n with
  | zero => rfl
  | succ n ih =>
    rw [List.replicate_succ, oneNorm, List.foldr_cons, ← oneNorm, ih]
    simp

/-- A text that is not blank gets the zero vector when the provider answers with it. -/
theorem zero_answer_kept :
    isBlank ['a'] = false ∧
      (embed (l2Service sampleEmbedding oneNorm) (pointwise fun _ => [0])
          [⟨['j'], ['r'], ['a']⟩]).toOption.map (List.map Embedding.vector) =
        some [List.replicate sampleEmbedding.dimensions 0] := by
  decide +kernel

theorem embed_batched_two :
    embed (l2Service sampleEmbedding oneNorm) (pointwise fun _ => [3])
        [⟨['i'], ['r'], [' ']⟩, ⟨['j'], ['r'], ['a']⟩] =
      .ok ([⟨['i'], ['r'], [' ']⟩, ⟨['j'], ['r'], ['a']⟩].map
        (expected sampleEmbedding oneNorm fun _ => [3])) :=
  (embed_batched sampleEmbedding oneNorm_zero (fun _ => [3]) _).2.1 fun _ _ _ => rfl

end KnowledgeCompanion.BatchedEmbeddings
