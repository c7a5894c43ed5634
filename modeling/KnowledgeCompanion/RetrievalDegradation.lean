import KnowledgeCompanion.Embeddings
import KnowledgeCompanion.HybridRetrieval

/-! What becomes of a request when one of the two recall paths fails: each path is
isolated, so that a single failure degrades the answer instead of ending it. -/

namespace KnowledgeCompanion.RetrievalDegradation

open RetrievalModels ApiExceptions Bm25 RankFusion ReadThroughCache HybridRetrieval Ranking

variable {F K K' K'' : Type}

def Carries (hit : SearchResult K) (chunk : SearchResult K') : Prop :=
  chunk = { hit with score := chunk.score, source := chunk.source }

theorem Carries.trans {a : SearchResult K} {b : SearchResult K'} {c : SearchResult K''}
    (first : Carries a b) (second : Carries b c) : Carries a c := by
  rw [Carries, first] at second
  exact second

theorem carries_raw (hit : SearchResult) : Carries hit hit.raw := rfl

theorem Carries.scope {a : SearchResult K} {b : SearchResult K'} {filters : Filters}
    (same : Carries a b)
    (within : InScope filters a.userID a.resourceID) :
    InScope filters b.userID b.resourceID := by
  rw [same]
  exact within

theorem mem_rerank {enabled : Bool} {io : RetrievalIO F} {question : Text}
    {candidates : List SearchResult} {chunks : List (SearchResult RawScore)} {topN : ℕ}
    (ok : rerank enabled io question candidates topN = some chunks) :
    ∀ chunk ∈ chunks, ∃ candidate ∈ candidates, Carries candidate chunk := by
  intro chunk mem
  unfold rerank at ok
  split at ok
  · rw [← Option.some.inj ok] at mem
    obtain ⟨hit, top, rfl⟩ := List.mem_map.mp mem
    exact ⟨hit, List.mem_of_mem_take top, carries_raw hit⟩
  · split at ok
    · cases ok
    · rename_i scores _
      split at ok
      · cases ok
      · rw [← Option.some.inj ok] at mem
        obtain ⟨p, top, rfl⟩ := List.mem_map.mp mem
        have scored : p ∈ candidates.zip scores := (mem_ranked _).mp (List.mem_of_mem_take top)
        exact ⟨p.1, (List.of_mem_zip scored).1, rfl⟩

theorem mem_rankChunks {io : RetrievalIO F} {request : HybridRetrievalRequest}
    {params : ResolvedParams} {vectorHits fused : List SearchResult} :
    ∀ chunk ∈ (rankChunks io request params vectorHits fused).1,
      ∃ hit, (hit ∈ vectorHits ∨ hit ∈ fused) ∧ Carries hit chunk := by
  intro chunk mem
  have top {n : ℕ} (there : chunk ∈ ((fused.take params.rerankTopN).take n).map SearchResult.raw) :
      ∃ hit, (hit ∈ vectorHits ∨ hit ∈ fused) ∧ Carries hit chunk := by
    obtain ⟨hit, first, rfl⟩ := List.mem_map.mp there
    exact ⟨hit, .inr (List.mem_of_mem_take (List.mem_of_mem_take first)), carries_raw hit⟩
  unfold rankChunks at mem
  dsimp only at mem
  split at mem
  · unfold timeoutFallbackChunks at mem
    split at mem
    · rw [List.map_map] at mem
      obtain ⟨hit, first, rfl⟩ := List.mem_map.mp mem
      exact ⟨hit, .inl (List.mem_of_mem_take first), rfl⟩
    · exact top mem
  · split at mem
    · unfold rerankChunks at mem
      split at mem
      · rename_i chunks ranked
        obtain ⟨candidate, first, same⟩ := mem_rerank ranked chunk mem
        exact ⟨candidate, .inr (List.mem_of_mem_take first), same⟩
      · exact top mem
    · exact top mem

theorem combine_ok (io : RetrievalIO F) {request : HybridRetrievalRequest}
    (params : ResolvedParams) {bm25Hits vectorHits : List SearchResult} (degraded : Bool)
    (within : ∀ hit ∈ bm25Hits ++ vectorHits,
      InScope request.filters hit.userID hit.resourceID) :
    ∃ result, combine io request params bm25Hits vectorHits degraded = .ok result ∧
      (degraded = true → result.degraded = true) ∧
      ∀ chunk ∈ result.chunks, ∃ hit ∈ bm25Hits ++ vectorHits, Carries hit chunk := by
  unfold combine
  by_cases none : bm25Hits = [] ∧ vectorHits = []
  · rw [if_pos none]
    exact ⟨_, rfl, id, nofun⟩
  · rw [if_neg none]
    dsimp only
    generalize both : reciprocalRankFusion bm25Hits vectorHits params.bm25Weight
      params.vectorWeight params.rrfK = fused
    have origin (chunk : SearchResult RawScore)
        (mem : chunk ∈ (rankChunks io request params vectorHits fused).1) :
        ∃ hit ∈ bm25Hits ++ vectorHits, Carries hit chunk := by
      obtain ⟨hit, found, same⟩ := mem_rankChunks chunk mem
      rcases found with vector | there
      · exact ⟨hit, List.mem_append_right _ vector, same⟩
      · rw [← both] at there
        obtain ⟨first, listed, carried⟩ := mem_reciprocalRankFusion there
        refine ⟨first, List.mem_append.mpr listed, Carries.trans ?_ same⟩
        rw [carried]
        rfl
    have allowed : validateAuthorization (rankChunks io request params vectorHits fused).1
        request = .ok () := by
      refine if_pos (List.all_eq_true.mpr fun chunk mem => ?_)
      obtain ⟨hit, listed, same⟩ := origin chunk mem
      exact decide_eq_true (same.scope (within hit listed))
    refine ⟨_, by rw [finalizeResult, allowed], fun worse => ?_, fun chunk mem => ?_⟩
    · rw [worse, Bool.true_or]
    · exact origin chunk (List.mem_filter.mp mem).1

theorem bm25Path_scoped {svc : HybridRetrievalService} {io : RetrievalIO F} {cache : Bm25Cache}
    {request : HybridRetrievalRequest} {hits : List SearchResult}
    (ok : (bm25Path svc io cache request).1 = .ok hits) :
    ∀ hit ∈ hits, InScope request.filters hit.userID hit.resourceID := by
  unfold bm25Path at ok
  dsimp only at ok
  split at ok
  · cases ok
  · rw [← Except.ok.inj ok]
    exact search_scoped request.scope_nonempty.1 request.scope_nonempty.2

theorem vectorPath_scoped {svc : HybridRetrievalService} {io : RetrievalIO F}
    {request : HybridRetrievalRequest} {hits : List SearchResult}
    (ok : vectorPath svc io request = .ok hits) :
    ∀ hit ∈ hits, InScope request.filters hit.userID hit.resourceID := by
  unfold vectorPath at ok
  split at ok
  · cases ok
  · split at ok
    · cases ok
    · rename_i results found
      rw [← Except.ok.inj ok]
      intro hit mem
      obtain ⟨record, returned, rfl⟩ := List.mem_map.mp mem
      exact io.search_scoped _ _ _ _ found record returned

def CorpusRaises (svc : HybridRetrievalService) (io : RetrievalIO F) (cache : Bm25Cache)
    (request : HybridRetrievalRequest) (e : Raised) : Prop :=
  (svc.config.bm25CacheIndex = false ∨ lookup (bm25CacheKey request.filters) cache = none) ∧
    io.query request.filters svc.config.bm25MaxDocs = .error e

def VectorRaises (svc : HybridRetrievalService) (io : RetrievalIO F)
    (request : HybridRetrievalRequest) (e : Raised) : Prop :=
  io.embedQuery request.1.question = .error e ∨
    ∃ vector, io.embedQuery request.1.question = .ok vector ∧
      io.search vector (resolveParams svc.config request).rerankTopN request.filters = .error e

theorem vectorPath_error {svc : HybridRetrievalService} {io : RetrievalIO F}
    {request : HybridRetrievalRequest} {e : Raised} :
    vectorPath svc io request = .error e ↔ VectorRaises svc io request e := by
  unfold vectorPath VectorRaises
  cases embedded : io.embedQuery request.1.question with
  | error raised => simp
  | ok vector =>
    dsimp only
    cases searched : io.search vector (resolveParams svc.config request).rerankTopN
        request.filters with
    | error raised => simp [searched]
    | ok results => simp [searched]

/-- Only the load of the corpus raises an error of the API on the BM25 path. -/
theorem bm25Path_api {svc : HybridRetrievalService} {io : RetrievalIO F} {cache : Bm25Cache}
    {request : HybridRetrievalRequest} {e : ApiException} :
    (bm25Path svc io cache request).1 = .error (.api e) ↔
      CorpusRaises svc io cache request (.api e) := by
  have path : (bm25Path svc io cache request).1 = .error (.api e) ↔
      (getOrBuildBm25 svc io cache request.filters (resolveParams svc.config request)).1 =
        .error (.api e) := by
    unfold bm25Path
    dsimp only
    split <;> rename_i got <;> simp [got]
  have missing : (if svc.config.bm25CacheIndex then lookup (bm25CacheKey request.filters) cache
      else none) = none ↔ svc.config.bm25CacheIndex = false ∨
        lookup (bm25CacheKey request.filters) cache = none := by
    cases svc.config.bm25CacheIndex <;> simp
  rw [path, CorpusRaises, ← missing, getOrBuildBm25]
  cases found : (if svc.config.bm25CacheIndex then lookup (bm25CacheKey request.filters) cache
      else none) with
  | some store => simp
  | none =>
    dsimp only
    unfold buildBm25 loadCorpus
    have docs : (resolveParams svc.config request).bm25MaxDocs = svc.config.bm25MaxDocs := rfl
    rw [docs]
    cases loaded : io.query request.filters svc.config.bm25MaxDocs with
    | error raised => simp
    | ok records =>
      dsimp only
      cases create svc.config.bm25Tokenizer with
      | none => simp
      | some store =>
        dsimp only
        cases index svc.libraries store (records.map (toSearchResult .bm25)) with
        | none => simp
        | some store =>
          dsimp only
          split
          · split <;> simp
          · simp

def Fails {α : Type} (outcome : Except Raised α) : Prop := ∃ e, outcome = .error e

/-- The request is answered, degraded, with what the given hits alone make of it. -/
def AnsweredWith (svc : HybridRetrievalService) (io : RetrievalIO F)
    (request : HybridRetrievalRequest) (bm25Hits vectorHits : List SearchResult)
    (outcome : Except ApiException HybridRetrievalResult) : Prop :=
  ∃ result, outcome = .ok result ∧ result.degraded = true ∧
    combine io request (resolveParams svc.config request) bm25Hits vectorHits true = .ok result ∧
    ∀ chunk ∈ result.chunks, ∃ hit ∈ bm25Hits ++ vectorHits, Carries hit chunk

/-- A failure of one path leaves the answer of the other, and retrieval is unavailable only
when both fail. -/
structure Degrades (svc : HybridRetrievalService) (io : RetrievalIO F) (cache : Bm25Cache)
    (request : HybridRetrievalRequest) : Prop where
  withoutBm25 : ∀ hits, Fails (bm25Path svc io cache request).1 →
    vectorPath svc io request = .ok hits →
      AnsweredWith svc io request [] hits (retrieve svc io cache request).1
  withoutVector : ∀ hits, Fails (vectorPath svc io request) →
    (bm25Path svc io cache request).1 = .ok hits →
      AnsweredWith svc io request hits [] (retrieve svc io cache request).1
  unavailable : ∀ e, (retrieve svc io cache request).1 = .error e →
    e.code = "RETRIEVAL_UNAVAILABLE" →
      Fails (bm25Path svc io cache request).1 ∧ Fails (vectorPath svc io request)

/-- A path that fails alone does not fail with an error of the API. -/
def PlainAlone (svc : HybridRetrievalService) (io : RetrievalIO F) (cache : Bm25Cache)
    (request : HybridRetrievalRequest) : Prop :=
  ∀ e, (CorpusRaises svc io cache request (.api e) → Fails (vectorPath svc io request)) ∧
    (VectorRaises svc io request (.api e) → Fails (bm25Path svc io cache request).1)

theorem combine_answered {svc : HybridRetrievalService} {io : RetrievalIO F}
    {request : HybridRetrievalRequest} {bm25Hits vectorHits : List SearchResult}
    (within : ∀ hit ∈ bm25Hits ++ vectorHits,
      InScope request.filters hit.userID hit.resourceID) :
    AnsweredWith svc io request bm25Hits vectorHits
      (combine io request (resolveParams svc.config request) bm25Hits vectorHits true) := by
  obtain ⟨result, ok, worse, origin⟩ :=
    combine_ok io (resolveParams svc.config request) true within
  exact ⟨result, ok, worse rfl, ok, origin⟩

theorem combine_error {io : RetrievalIO F} {request : HybridRetrievalRequest}
    {params : ResolvedParams} {bm25Hits vectorHits : List SearchResult} {degraded : Bool}
    {e : ApiException}
    (failed : combine io request params bm25Hits vectorHits degraded = .error e) :
    e = retrievalForbiddenError := by
  unfold combine at failed
  split at failed
  · cases failed
  · dsimp only at failed
    unfold finalizeResult validateAuthorization at failed
    split at failed
    · rename_i refused
      split at refused
      · cases refused
      · rw [← Except.error.inj failed, ← Except.error.inj refused]
    · cases failed

def serviceEmbedQuery (svc : Embeddings.EmbeddingService F) (provider : Embeddings.Provider F)
    (question : Text) : Except Raised (List F) :=
  match Embeddings.embedQuery svc provider question with
  | .error e => .error (.api e)
  | .ok vector => .ok vector

def wordsService : HybridRetrievalService :=
  ⟨{ bm25Tokenizer := "whitespace".toList },
    ⟨fun text => [text], fun _ => some fun _ i => if i = 0 then 1 else 0⟩⟩

def twoDimensional : Embeddings.EmbeddingService ℚ :=
  ⟨⟨"model".toList, 16, 3, 2, false, 100, by decide, Nat.two_pos, by decide⟩, 0, id⟩

def embeddingDown : RetrievalIO ℚ where
  query _ _ := .ok [⟨"res-1-0".toList, "res-1".toList, "user-1".toList, "alpha".toList, [], 0, 0⟩,
    ⟨"res-1-1".toList, "res-1".toList, "user-1".toList, "beta".toList, [], 0, 0⟩,
    ⟨"res-1-2".toList, "res-1".toList, "user-1".toList, "gamma".toList, [], 0, 0⟩]
  embedQuery := serviceEmbedQuery twoDimensional fun _ _ _ => .error .other
  search _ _ _ := .ok []
  predict _ := none
  clock _ := 0
  search_scoped _ _ _ _ found := scoped_nil found

def askAboutAlpha : HybridRetrievalRequest :=
  ⟨{ question := "alpha".toList, userID := "user-1".toList, resourceIDs := ["res-1".toList] },
    by decide⟩

/-- The BM25 path finds its hit, and yet the request ends in the embedding's error. -/
theorem embeddingDown_ends_request :
    (bm25Path wordsService embeddingDown [] askAboutAlpha).1 =
        .ok [⟨"res-1-0".toList, "res-1".toList, "user-1".toList, "alpha".toList, 1, .bm25, []⟩] ∧
      (retrieve wordsService embeddingDown [] askAboutAlpha).1 =
        .error embeddingUnavailableError ∧
      ¬ Degrades wordsService embeddingDown [] askAboutAlpha := by
  have found : (bm25Path wordsService embeddingDown [] askAboutAlpha).1 =
      .ok [⟨"res-1-0".toList, "res-1".toList, "user-1".toList, "alpha".toList, 1, .bm25, []⟩] := by
    decide +kernel
  have failed : vectorPath wordsService embeddingDown askAboutAlpha =
      .error (.api embeddingUnavailableError) := by decide +kernel
  have ended : (retrieve wordsService embeddingDown [] askAboutAlpha).1 =
      .error embeddingUnavailableError := by decide +kernel
  refine ⟨found, ended, fun degrades => ?_⟩
  obtain ⟨result, ok, -⟩ := degrades.withoutVector _ ⟨_, failed⟩ found
  rw [ended] at ok
  cases ok

section Degrades

variable {svc : HybridRetrievalService} {io : RetrievalIO F} {cache : Bm25Cache}
  {request : HybridRetrievalRequest}

theorem retrieve_fst : (retrieve svc io cache request).1 = answer io request
    (resolveParams svc.config request) (bm25Path svc io cache request).1
    (vectorPath svc io request) := rfl

theorem plain_of_degrades (degrades : Degrades svc io cache request) :
    PlainAlone svc io cache request := by
  refine fun e => ⟨fun raised => ?_, fun raised => ?_⟩
  · have bm25 := bm25Path_api.mpr raised
    cases vector : vectorPath svc io request with
    | error second => exact ⟨second, rfl⟩
    | ok hits =>
      obtain ⟨result, ok, -⟩ := degrades.withoutBm25 hits ⟨_, bm25⟩ vector
      rw [retrieve_fst, bm25] at ok
      cases ok
  · have vector := vectorPath_error.mpr raised
    cases bm25 : (bm25Path svc io cache request).1 with
    | error second => exact ⟨second, rfl⟩
    | ok hits =>
      obtain ⟨result, ok, -⟩ := degrades.withoutVector hits ⟨_, vector⟩ bm25
      rw [retrieve_fst, bm25, vector] at ok
      cases ok

theorem combine_not_unavailable {params : ResolvedParams} {bm25Hits vectorHits : List SearchResult}
    {degraded : Bool} {e : ApiException}
    (failed : combine io request params bm25Hits vectorHits degraded = .error e) :
    e.code ≠ "RETRIEVAL_UNAVAILABLE" := by
  rw [combine_error failed]
  decide

theorem both_fail (plain : PlainAlone svc io cache request) {e : ApiException}
    (failed : (retrieve svc io cache request).1 = .error e)
    (code : e.code = "RETRIEVAL_UNAVAILABLE") :
    Fails (bm25Path svc io cache request).1 ∧ Fails (vectorPath svc io request) := by
  cases bm25 : (bm25Path svc io cache request).1 with
  | error first =>
    refine ⟨⟨first, rfl⟩, ?_⟩
    cases first with
    | api first => exact (plain first).1 (bm25Path_api.mp bm25)
    | other =>
      cases vector : vectorPath svc io request with
      | error second => exact ⟨second, rfl⟩
      | ok hits =>
        rw [retrieve_fst, bm25, vector] at failed
        exact absurd code (combine_not_unavailable failed)
  | ok hits =>
    cases vector : vectorPath svc io request with
    | error second =>
      refine ⟨?_, ⟨second, rfl⟩⟩
      cases second with
      | api second => exact bm25 ▸ (plain second).2 (vectorPath_error.mp vector)
      | other =>
        rw [retrieve_fst, bm25, vector] at failed
        exact absurd code (combine_not_unavailable failed)
    | ok vectorHits =>
      rw [retrieve_fst, bm25, vector] at failed
      exact absurd code (combine_not_unavailable failed)

theorem degrades_of_plain (plain : PlainAlone svc io cache request) :
    Degrades svc io cache request where
  withoutBm25 hits fails vector := by
    obtain ⟨e, bm25⟩ := fails
    cases e with
    | api e =>
      obtain ⟨second, failed⟩ := (plain e).1 (bm25Path_api.mp bm25)
      rw [vector] at failed
      cases failed
    | other =>
      rw [retrieve_fst, bm25, vector]
      exact combine_answered (vectorPath_scoped vector)
  withoutVector hits fails bm25 := by
    obtain ⟨e, vector⟩ := fails
    cases e with
    | api e =>
      obtain ⟨second, failed⟩ := (plain e).2 (vectorPath_error.mp vector)
      rw [bm25] at failed
      cases failed
    | other =>
      rw [retrieve_fst, bm25, vector]
      refine combine_answered ?_
      rw [List.append_nil]
      exact bm25Path_scoped bm25
  unavailable _ failed code := both_fail plain failed code

end Degrades

/-- A single failure degrades the answer exactly when it is not an error of the API. -/
theorem degrades_iff {svc : HybridRetrievalService} {io : RetrievalIO F} {cache : Bm25Cache}
    {request : HybridRetrievalRequest} :
    Degrades svc io cache request ↔ PlainAlone svc io cache request :=
  ⟨plain_of_degrades, degrades_of_plain⟩

end KnowledgeCompanion.RetrievalDegradation
