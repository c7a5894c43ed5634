import KnowledgeCompanion.BackendRankings
import KnowledgeCompanion.GuardedRun

/-! The long-term memory of the AI service (`services/memory/memory_service.py`): turns of
conversations and facts about users, kept as vector records beside the chunks of documents. -/

namespace KnowledgeCompanion.MemoryService

open GuardedRun PythonText BaseChunker VectorIndexing Embeddings StoreQueries StoreSearch Ranking
open BudgetedPrefix ApiExceptions Retrieval StoreSelection QuotedScan BackendRankings

structure MemoryConfig (K : Type) where
  enabled : Bool := true
  topK : ℕ := 5
  scoreThreshold : K
  maxContextTokens : ℕ := 1024
  conversationPrefix : Text := "memory:conversation".toList
  userPrefix : Text := "memory:user".toList

namespace MemoryConfig

variable {K : Type}

def conversationResource (cfg : MemoryConfig K) (conversationID : Text) : Text :=
  cfg.conversationPrefix ++ ':' :: conversationID

def userResource (cfg : MemoryConfig K) (userID : Text) : Text := cfg.userPrefix ++ ':' :: userID

def scope (cfg : MemoryConfig K) (userID conversationID : Text) : Query :=
  .search {
    userID := some userID
    resourceIDs := some (.many
      [cfg.conversationResource conversationID, cfg.userResource userID]) }

end MemoryConfig

def estimateTokens (text : Text) : ℕ := (text.length + 1) / 2

variable {F K : Type} [LinearOrder K]

def snippets (cfg : MemoryConfig K) (results : List (SearchHit K)) : List Text :=
  let filtered := ranked SearchHit.score (results.filter fun r => cfg.scoreThreshold ≤ r.score)
  let texts := (filtered.map fun r => strip r.text).filter fun text => text ≠ []
  keepWithin estimateTokens cfg.maxContextTokens 0 texts

def contextText (snippets : List Text) : Text :=
  if snippets = [] then []
  else
    "=== 长期记忆（可能与当前问题相关）===\n".toList ++
      ['\n'].intercalate (snippets.map ("- ".toList ++ ·)) ++
      "\n====================================".toList

def loadContext (cfg : MemoryConfig K) (embedQuery : Text → Except ApiException (List F))
    (search : Search F K) (userID conversationID question : Text) : Text :=
  if cfg.enabled then
    match (do search (← embedQuery question) cfg.topK (cfg.scope userID conversationID)) with
    | .error _ => []
    | .ok results => contextText (snippets cfg results)
  else []

def turnText (question answer reasoning : Text) : Text :=
  "User: ".toList ++ question ++ "\nAssistant: ".toList ++ answer ++
    if isBlank reasoning then [] else "\nReasoning: ".toList ++ strip reasoning

/-- A turn of a conversation to be saved, with the ids and the time that are drawn for it. -/
structure Turn where
  userID : Text
  conversationID : Text
  question : Text
  answer : Text
  reasoning : Text := []
  chunkID : Text
  recordID : Text
  createdAt : ℤ

def Turn.text (turn : Turn) : Text := turnText turn.question turn.answer turn.reasoning

def Turn.blank (turn : Turn) : Bool := isBlank turn.question || isBlank turn.answer

def turnChunk (cfg : MemoryConfig K) (turn : Turn) : ChunkInput :=
  ⟨turn.chunkID, cfg.conversationResource turn.conversationID, turn.text⟩

def turnRecord (cfg : MemoryConfig K) (turn : Turn) (embedding : Embedding F) : VectorRecord F where
  id := turn.recordID
  resourceID := cfg.conversationResource turn.conversationID
  userID := turn.userID
  text := turn.text
  vector := embedding.vector
  metadata := [("memory_type", .text "turn".toList)]
  createdAt := turn.createdAt

def saveTurn (cfg : MemoryConfig K)
    (embed : List ChunkInput → Except ApiException (List (Embedding F))) (turn : Turn) :
    Except ApiException (List (VectorRecord F)) :=
  if !cfg.enabled || turn.blank then .ok []
  else do
    match ← embed [turnChunk cfg turn] with
    | [] => return []
    | embedding :: _ => return [turnRecord cfg turn embedding]

/-- Facts about a user to be saved, with the ids and the time that are drawn for them. -/
structure Facts where
  userID : Text
  facts : List Text
  chunkID : ℕ → Text
  createdAt : ℤ

def factChunks (cfg : MemoryConfig K) (saved : Facts) : List ChunkInput :=
  ((saved.facts.filter fun fact => !isBlank fact).zipIdx).map fun p =>
    ⟨saved.chunkID p.2, cfg.userResource saved.userID, strip p.1⟩

def factRecord (saved : Facts) (chunk : ChunkInput) (embedding : Embedding F) :
    VectorRecord F where
  id := chunk.id
  resourceID := chunk.resourceID
  userID := saved.userID
  text := chunk.text
  vector := embedding.vector
  metadata := [("memory_type", .text "user_fact".toList)]
  createdAt := saved.createdAt

/-- The records that `save_user_facts` hands to the store. -/
def saveUserFacts (cfg : MemoryConfig K)
    (embed : List ChunkInput → Except ApiException (List (Embedding F))) (saved : Facts) :
    Except ApiException (List (VectorRecord F)) :=
  let chunks := factChunks cfg saved
  if !cfg.enabled || saved.facts.isEmpty || chunks.isEmpty then .ok []
  else do
    let embeddings ← embed chunks
    return (chunks.zip embeddings).map fun p => factRecord saved p.1 p.2

inductive Event (F : Type)
  | saveTurn (turn : Turn) (embed : List ChunkInput → Except ApiException (List (Embedding F)))
      (stored : Bool)
  | saveUserFacts (facts : Facts)
      (embed : List ChunkInput → Except ApiException (List (Embedding F))) (stored : Bool)
  | upsert (records : List (VectorRecord F))
  | deleteByResource (resourceID : Text) (userID : Option Text)

def write (store : Store F) (records : Except ApiException (List (VectorRecord F)))
    (stored : Bool) : Store F :=
  match records with
  | .error _ => store
  | .ok records => if stored then VectorStore.upsert store records else store

def step (cfg : MemoryConfig K) (store : Store F) : Event F → Store F
  | .saveTurn turn embed stored => write store (saveTurn cfg embed turn) stored
  | .saveUserFacts facts embed stored => write store (saveUserFacts cfg embed facts) stored
  | .upsert records => VectorStore.upsert store records
  | .deleteByResource resourceID userID => VectorStore.deleteByResource store resourceID userID

def Writes (cfg : MemoryConfig K) (r : VectorRecord F) : Event F → Prop
  | .saveTurn turn _ _ => ∃ embedding, turnRecord cfg turn embedding = r
  | .saveUserFacts saved _ _ => ∃ chunk ∈ factChunks cfg saved, ∃ embedding,
      factRecord saved chunk embedding = r
  | .upsert records => r ∈ records
  | .deleteByResource _ _ => False

def Spares (cfg : MemoryConfig K) (r : VectorRecord F) (e : Event F) : Prop :=
  (∀ written, Writes cfg written e → written.id ≠ r.id) ∧
    ∀ resourceID userID, e = .deleteByResource resourceID userID →
      r.resourceID = resourceID → ∃ u ∈ userID, r.userID ≠ u

section Steps

variable {cfg : MemoryConfig K} {store : Store F} {r : VectorRecord F}

omit [LinearOrder K] in
theorem saveTurn_writes {embed : List ChunkInput → Except ApiException (List (Embedding F))}
    {turn : Turn} {records : List (VectorRecord F)}
    (made : saveTurn cfg embed turn = .ok records) (stored : Bool) (mem : r ∈ records) :
    Writes cfg r (.saveTurn turn embed stored) := by
  unfold saveTurn at made
  split at made
  · rw [← Except.ok.inj made] at mem
    exact absurd mem List.not_mem_nil
  · cases embedded : embed [turnChunk cfg turn] with
    | error e => rw [embedded] at made; cases made
    | ok embeddings =>
      rw [embedded] at made
      cases embeddings with
      | nil =>
        rw [← Except.ok.inj made] at mem
        exact absurd mem List.not_mem_nil
      | cons embedding rest =>
        rw [← Except.ok.inj made] at mem
        exact ⟨embedding, (List.mem_singleton.mp mem).symm⟩

omit [LinearOrder K] in
theorem saveUserFacts_writes
    {embed : List ChunkInput → Except ApiException (List (Embedding F))}
    {saved : Facts} {records : List (VectorRecord F)}
    (made : saveUserFacts cfg embed saved = .ok records) (stored : Bool) (mem : r ∈ records) :
    Writes cfg r (.saveUserFacts saved embed stored) := by
  unfold saveUserFacts at made
  dsimp only at made
  split at made
  · rw [← Except.ok.inj made] at mem
    exact absurd mem List.not_mem_nil
  · cases embedded : embed (factChunks cfg saved) with
    | error e => rw [embedded] at made; cases made
    | ok embeddings =>
      rw [embedded] at made
      rw [← Except.ok.inj made] at mem
      obtain ⟨⟨chunk, embedding⟩, pair, made'⟩ := List.mem_map.mp mem
      exact ⟨chunk, (List.of_mem_zip pair).1, embedding, made'⟩

omit [LinearOrder K] in
theorem step_cases (cfg : MemoryConfig K) (store : Store F) (e : Event F) :
    step cfg store e = store ∨
      (∃ records, (∀ r ∈ records, Writes cfg r e) ∧
        step cfg store e = VectorStore.upsert store records) ∨
      ∃ resourceID userID, e = .deleteByResource resourceID userID ∧
        step cfg store e = VectorStore.deleteByResource store resourceID userID := by
  have written {e : Event F} {made : Except ApiException (List (VectorRecord F))} (stored : Bool)
      (own : ∀ records, made = .ok records → ∀ r ∈ records, Writes cfg r e) :
      write store made stored = store ∨ ∃ records, (∀ r ∈ records, Writes cfg r e) ∧
        write store made stored = VectorStore.upsert store records := by
    cases made with
    | error e => exact .inl rfl
    | ok records =>
      cases stored with
      | false => exact .inl rfl
      | true => exact .inr ⟨records, own records rfl, rfl⟩
  cases e with
  | saveTurn turn embed stored =>
    exact (written stored fun records made r mem =>
      saveTurn_writes made stored mem).imp_right .inl
  | saveUserFacts saved embed stored =>
    exact (written stored fun records made r mem =>
      saveUserFacts_writes made stored mem).imp_right .inl
  | upsert records => exact .inr (.inl ⟨records, fun r mem => mem, rfl⟩)
  | deleteByResource resourceID userID => exact .inr (.inr ⟨resourceID, userID, rfl, rfl⟩)

omit [LinearOrder K] in
theorem mem_step {e : Event F} (mem : r ∈ step cfg store e) : r ∈ store ∨ Writes cfg r e := by
  rcases step_cases cfg store e with same | ⟨records, own, stored⟩ | ⟨resourceID, userID, -, gone⟩
  · exact .inl (same ▸ mem)
  · rw [stored] at mem
    rcases KeyedUpsert.mem_putAll_cases mem with new | ⟨old, -⟩
    · exact .inr (own r new)
    · exact .inl old
  · rw [gone] at mem
    exact .inl (List.mem_filter.mp mem).1

omit [LinearOrder K] in
theorem step_keeps {e : Event F} (mem : r ∈ store) (spares : Spares cfg r e) :
    r ∈ step cfg store e := by
  rcases step_cases cfg store e with same | ⟨records, own, stored⟩ | ⟨resourceID, userID, rfl, gone⟩
  · rwa [same]
  · rw [stored]
    exact KeyedUpsert.mem_putAll_of_ne mem fun w written => (spares.1 w (own w written)).symm
  · rw [gone]
    refine List.mem_filter.mpr ⟨mem, ?_⟩
    rw [Bool.not_eq_true', Bool.and_eq_false_imp]
    intro same
    obtain ⟨u, given, other⟩ := spares.2 resourceID userID rfl (beq_iff_eq.mp same)
    rw [Option.mem_def] at given
    rw [given, Option.all_some]
    exact beq_eq_false_iff_ne.mpr other

omit [LinearOrder K] in
theorem step_distinct (distinct : (store.map VectorRecord.id).Nodup) (e : Event F) :
    ((step cfg store e).map VectorRecord.id).Nodup := by
  rcases step_cases cfg store e with same | ⟨records, -, stored⟩ | ⟨resourceID, userID, -, gone⟩
  · rwa [same]
  · rw [stored]
    exact KeyedUpsert.nodup_putAll distinct
  · rw [gone]
    exact distinct.sublist (List.filter_sublist.map _)

end Steps

section Runs

variable {cfg : MemoryConfig K} {es : List (Event F)} {r : VectorRecord F}

omit [LinearOrder K] in
theorem run_writes (mem : r ∈ exec (step cfg) [] es) : ∃ e ∈ es, Writes cfg r e := by
  induction es using List.reverseRecOn with
  | nil => exact absurd mem List.not_mem_nil
  | append_singleton es e ih =>
    rw [exec, List.foldl_append] at mem
    rcases mem_step mem with old | new
    · obtain ⟨f, earlier, writes⟩ := ih old
      exact ⟨f, List.mem_append_left _ earlier, writes⟩
    · exact ⟨e, List.mem_append_right _ (List.mem_singleton_self e), new⟩

omit [LinearOrder K] in
theorem run_keeps {store : Store F} (mem : r ∈ store) (spared : ∀ e ∈ es, Spares cfg r e) :
    r ∈ exec (step cfg) store es := by
  induction es generalizing store with
  | nil => exact mem
  | cons e es ih =>
    exact ih (step_keeps mem (spared e List.mem_cons_self))
      fun f later => spared f (List.mem_cons_of_mem e later)

def IsMemory (cfg : MemoryConfig K) (resourceID : Text) : Prop :=
  (∃ conversationID, cfg.conversationResource conversationID = resourceID) ∨
    ∃ userID, cfg.userResource userID = resourceID

/-- Documents are stored under resources of their own, with metadata that leave the reserved
keys alone. -/
def Foreign (cfg : MemoryConfig K) : Event F → Prop
  | .upsert records => ∀ r ∈ records, ¬ IsMemory cfg r.resourceID ∧
      ∀ key ∈ reservedKeys, ¬ ChromaFilters.Shadows r.metadata key
  | _ => True

omit [LinearOrder K] in
theorem writes_unreserved {e : Event F} (foreign : Foreign cfg e) (writes : Writes cfg r e) :
    ∀ key ∈ reservedKeys, ¬ ChromaFilters.Shadows r.metadata key := by
  have kind : ∀ key ∈ reservedKeys, key ∉ ["memory_type"] := by decide
  cases e with
  | saveTurn turn embed stored =>
    obtain ⟨embedding, rfl⟩ := writes
    exact kind
  | saveUserFacts saved embed stored =>
    obtain ⟨chunk, -, embedding, rfl⟩ := writes
    exact kind
  | upsert records => exact (foreign r writes).2
  | deleteByResource resourceID userID => exact writes.elim

def runCollection (cfg : MemoryConfig K) (es : List (Event F))
    (foreign : ∀ e ∈ es, Foreign cfg e) : Collection F where
  records := exec (step cfg) [] es
  distinct := by
    suffices kept : EveryState (step cfg)
        (fun store => (store.map VectorRecord.id).Nodup) [] es from kept.last
    exact everyState_of_invariant (fun store e distinct => step_distinct distinct e) es
      List.nodup_nil
  unreserved := by
    intro r mem
    obtain ⟨e, there, writes⟩ := run_writes mem
    exact writes_unreserved (foreign e there) writes

end Runs

end KnowledgeCompanion.MemoryService
