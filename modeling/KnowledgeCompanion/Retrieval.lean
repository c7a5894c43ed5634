import Mathlib.Algebra.BigOperators.Group.List.Basic
import KnowledgeCompanion.BudgetedPrefix
import KnowledgeCompanion.StoreSearch

/-! The retrieval service (`services/retrieval/retrieval_service.py`) over any store:
candidates, ranking, the repeated texts of a library, the threshold, and the chunks that
fit the context. -/

namespace KnowledgeCompanion.Retrieval

open PythonText BaseChunker VectorIndexing StoreQueries StoreSearch Ranking BudgetedPrefix
open ApiExceptions StoreSelection

theorem defaultTopK_pos : 0 < 5 := by decide

structure RetrievalRequest (K : Type) where
  question : Text
  userID : Text
  resourceIDs : List Text
  topK : ℕ := 5
  scoreThreshold : Option K := none
  maxContextTokens : Option ℕ := none
  topK_pos : 0 < topK

structure RetrievalConfig (K : Type) where
  defaultTopK : ℕ
  scoreThreshold : K
  maxContextTokens : ℕ

structure RetrievalChunk (K : Type) where
  chunkID : Text
  resourceID : Text
  text : Text
  score : K
  metadata : Metadata

structure RetrievalResult (K : Type) where
  chunks : List (RetrievalChunk K)
  prompt : Text
  contextTokenCount : ℕ

/-- The embedding of a question, the token estimator, the digest of a text and the
rendering of the prompt are the service's surroundings. -/
structure RetrievalService (F K : Type) where
  embedQuery : Text → List F
  count : Text → ℕ
  sha1 : Text → Text
  build : List (RetrievalChunk K) → Text → Text
  config : RetrievalConfig K

variable {F K : Type}

abbrev Search (F K : Type) := List F → ℕ → Query → Except ApiException (List (SearchHit K))

namespace RetrievalRequest

def broad (request : RetrievalRequest K) : Bool := decide (1 < request.resourceIDs.eraseDups.length)

def scope (request : RetrievalRequest K) (resourceIDs : List Text) : Query :=
  ofScope ⟨request.userID, resourceIDs⟩

def limit (config : RetrievalConfig K) (request : RetrievalRequest K) : ℕ :=
  if request.topK = 0 then config.defaultTopK else request.topK

def threshold (config : RetrievalConfig K) (request : RetrievalRequest K) : K :=
  request.scoreThreshold.getD config.scoreThreshold

def candidateTopK (config : RetrievalConfig K) (request : RetrievalRequest K) : ℕ :=
  let topK := request.limit config
  let resources := request.resourceIDs.eraseDups.length
  if resources ≤ 1 then topK else min (max (topK * 8) (topK + resources)) 100

end RetrievalRequest

def chunkFingerprint (svc : RetrievalService F K) (text : Text) : Text :=
  let normalized := strip (text.filter fun c => !isSpace c)
  if normalized = [] then [] else svc.sha1 (normalized.take 1200)

def chunkKey (svc : RetrievalService F K) (hit : SearchHit K) : Text :=
  let fingerprint := chunkFingerprint svc hit.text
  if fingerprint = [] then hit.resourceID ++ ":".toList ++ hit.id else fingerprint

def searchPerResourceCandidates (search : Search F K) (vector : List F)
    (request : RetrievalRequest K) : Except ApiException (List (SearchHit K)) :=
  (request.resourceIDs.eraseDups.mapM fun id => search vector 1 (request.scope [id])).map
    List.flatten

def searchCandidates (svc : RetrievalService F K) (search : Search F K)
    (request : RetrievalRequest K) : Except ApiException (List (SearchHit K)) := do
  let vector := svc.embedQuery request.question
  let results ← search vector (request.candidateTopK svc.config) (request.scope request.resourceIDs)
  if request.broad then
    let more ← searchPerResourceCandidates search vector request
    pure (results ++ more)
  else pure results

/-- The ranked candidates, of several with one text the first, as far as the threshold and
the limit let them through. -/
def select [LT K] [DecidableLT K] [LE K] [DecidableLE K] (svc : RetrievalService F K)
    (request : RetrievalRequest K) (candidates : List (SearchHit K)) : List (SearchHit K) :=
  let sorted := ranked SearchHit.score candidates
  let deduped := if request.broad then firstOfEach (chunkKey svc) [] sorted else sorted
  admitted SearchHit.score (request.threshold svc.config) (request.limit svc.config) deduped

def validateAuthorization (request : RetrievalRequest K) (hits : List (SearchHit K)) :
    Except ApiException Unit :=
  if hits.all fun hit => hit.userID == request.userID && request.resourceIDs.contains hit.resourceID
  then .ok () else .error retrievalForbiddenError

def toChunk (hit : SearchHit K) : RetrievalChunk K where
  chunkID := hit.id
  resourceID := hit.resourceID
  text := hit.text
  score := hit.score
  metadata := hit.metadata

def compressContext (svc : RetrievalService F K) (maxTokens : ℕ) :
    List (SearchHit K) → List (SearchHit K)
  | [] => []
  | hit :: hits =>
    hit :: keepWithin (fun hit => svc.count hit.text) maxTokens (svc.count hit.text) hits

def assemble (svc : RetrievalService F K) (request : RetrievalRequest K)
    (filtered : List (SearchHit K)) : RetrievalResult K :=
  let selected := compressContext svc
    (request.maxContextTokens.getD svc.config.maxContextTokens) filtered
  let chunks := selected.map toChunk
  { chunks
    prompt := svc.build chunks request.question
    contextTokenCount := (selected.map fun hit => svc.count hit.text).sum }

def retrieve [LT K] [DecidableLT K] [LE K] [DecidableLE K] (svc : RetrievalService F K)
    (search : Search F K) (request : RetrievalRequest K) :
    Except ApiException (RetrievalResult K) := do
  let candidates ← searchCandidates svc search request
  let filtered := select svc request candidates
  validateAuthorization request filtered
  pure (assemble svc request filtered)

def RetrievalRequest.queries (request : RetrievalRequest K) : List Query :=
  request.scope request.resourceIDs ::
    if request.broad then request.resourceIDs.eraseDups.map fun id => request.scope [id] else []

def entries (result : RetrievalResult K) : List (Text × K) :=
  result.chunks.map fun chunk => (chunk.chunkID, chunk.score)

variable {svc : RetrievalService F K} {search : Search F K} {request : RetrievalRequest K}

theorem limit_pos (config : RetrievalConfig K) (request : RetrievalRequest K) :
    0 < request.limit config := by
  have asked := request.topK_pos
  rw [RetrievalRequest.limit, if_neg (by omega)]
  exact asked

theorem searchCandidates_ok {hits : ℕ → Query → List (SearchHit K)}
    (answers : ∀ q ∈ request.queries, ∀ k,
      search (svc.embedQuery request.question) k q = .ok (hits k q)) :
    searchCandidates svc search request =
      .ok (hits (request.candidateTopK svc.config) (request.scope request.resourceIDs) ++
        if request.broad then
          request.resourceIDs.eraseDups.flatMap fun id => hits 1 (request.scope [id])
        else []) := by
  rw [searchCandidates, answers _ List.mem_cons_self]
  by_cases broad : request.broad = true
  · have each (ids : List Text) (within : ∀ id ∈ ids, request.scope [id] ∈ request.queries) :
        ids.mapM (fun id => search (svc.embedQuery request.question) 1 (request.scope [id])) =
          .ok (ids.map fun id => hits 1 (request.scope [id])) := by
      induction ids with
      | nil => rfl
      | cons id ids ih =>
        rw [List.mapM_cons, answers _ (within id List.mem_cons_self),
          ih fun other mem => within other (List.mem_cons_of_mem id mem)]
        rfl
    have more := each request.resourceIDs.eraseDups fun id mem => by
      rw [RetrievalRequest.queries, if_pos broad]
      exact List.mem_cons_of_mem _ (List.mem_map_of_mem mem)
    rw [if_pos broad]
    simp only [broad, if_true, searchPerResourceCandidates, more]
    exact congrArg (fun front => Except.ok (front ++ _)) rfl
  · rw [if_neg broad]
    simp [broad]

variable [LinearOrder K]

theorem mem_of_mem_select {candidates : List (SearchHit K)} {hit : SearchHit K}
    (mem : hit ∈ select svc request candidates) : hit ∈ candidates := by
  have kept := admitted_subset mem
  rw [← mem_ranked SearchHit.score]
  split at kept
  · exact (firstOfEach_sublist _ _ _).mem kept
  · exact kept

theorem retrieve_ok {candidates : List (SearchHit K)}
    (found : searchCandidates svc search request = .ok candidates)
    (within : ∀ hit ∈ candidates, hit.userID = request.userID ∧
      hit.resourceID ∈ request.resourceIDs) :
    retrieve svc search request = .ok (assemble svc request (select svc request candidates)) := by
  have allowed : validateAuthorization request (select svc request candidates) = .ok () := by
    rw [validateAuthorization, if_pos]
    rw [List.all_eq_true]
    intro hit mem
    obtain ⟨user, resource⟩ := within hit (mem_of_mem_select mem)
    rw [Bool.and_eq_true, beq_iff_eq, List.contains_iff_mem]
    exact ⟨user, resource⟩
  have bound : retrieve svc search request = (validateAuthorization request
      (select svc request candidates)).bind fun _ =>
        .ok (assemble svc request (select svc request candidates)) := by
    rw [retrieve, found]
    rfl
  rw [bound, allowed]
  rfl

omit [LinearOrder K] in
theorem entries_nil (svc : RetrievalService F K) (request : RetrievalRequest K) :
    entries (assemble svc request []) = [] := rfl

omit [LinearOrder K] in
theorem entries_cons (hit : SearchHit K) (hits : List (SearchHit K)) :
    ∃ others, entries (assemble svc request (hit :: hits)) = (hit.id, hit.score) :: others :=
  ⟨_, rfl⟩

/-- What is selected begins with a best candidate, when one reaches the threshold. -/
theorem select_cases (svc : RetrievalService F K) (request : RetrievalRequest K)
    (candidates : List (SearchHit K)) :
    ((∀ hit ∈ candidates, hit.score < request.threshold svc.config) ∧
        select svc request candidates = []) ∨
      ∃ best ∈ candidates, (∀ hit ∈ candidates, hit.score ≤ best.score) ∧
        request.threshold svc.config ≤ best.score ∧
        ∃ others, select svc request candidates = best :: others := by
  rw [select]
  cases order : ranked SearchHit.score candidates with
  | nil =>
    left
    rw [ranked_eq_nil_iff] at order
    subst order
    refine ⟨fun hit mem => (nomatch mem), ?_⟩
    have nothing : (if request.broad then firstOfEach (chunkKey svc) [] ([] : List (SearchHit K))
        else []) = [] := by split <;> rfl
    rw [nothing]
    exact List.take_nil
  | cons best rest =>
    have mem : best ∈ candidates := by
      rw [← mem_ranked SearchHit.score, order]
      exact List.mem_cons_self
    have most : ∀ hit ∈ candidates, hit.score ≤ best.score := fun hit => head_ranked order
    obtain ⟨others, kept, sub⟩ : ∃ others,
        (if request.broad then firstOfEach (chunkKey svc) [] (best :: rest) else best :: rest) =
          best :: others ∧ ∀ hit ∈ others, hit ∈ candidates := by
      have below : ∀ hit ∈ rest, hit ∈ candidates := by
        intro hit later
        rw [← mem_ranked SearchHit.score, order]
        exact List.mem_cons_of_mem _ later
      cases request.broad with
      | true => exact ⟨_, firstOfEach_cons _ _ _, fun hit later =>
          below hit ((firstOfEach_sublist _ _ _).mem later)⟩
      | false => exact ⟨rest, rfl, below⟩
    simp only [kept]
    rcases admitted_cases (limit_pos svc.config request) fun hit later => most hit (sub hit later)
      with ⟨low, nothing⟩ | ⟨high, shown⟩
    · exact Or.inl ⟨fun hit mem => lt_of_le_of_lt (most hit mem) low, nothing⟩
    · exact Or.inr ⟨best, mem, most, high, shown⟩

theorem select_single {candidates : List (SearchHit K)} {hit : SearchHit K}
    (found : candidates ≠ []) (only : ∀ other ∈ candidates, other = hit)
    (once : request.broad = true ∨ candidates.length ≤ 1)
    (reaches : request.threshold svc.config ≤ hit.score) :
    select svc request candidates = [hit] := by
  obtain ⟨n, rfl⟩ : ∃ n, candidates = List.replicate (n + 1) hit := by
    obtain ⟨n, length⟩ := Nat.exists_eq_succ_of_ne_zero
      (fun none' => found (List.length_eq_zero_iff.mp none'))
    exact ⟨n, List.eq_replicate_iff.mpr ⟨length, only⟩⟩
  have sorted : ranked SearchHit.score (List.replicate (n + 1) hit) =
      List.replicate (n + 1) hit := by
    rw [List.eq_replicate_iff]
    exact ⟨by rw [(ranked_perm _ _).length_eq, List.length_replicate],
      fun other mem => only other ((mem_ranked _).mp mem)⟩
  have deduped : (if request.broad then firstOfEach (chunkKey svc) [] (List.replicate (n + 1) hit)
      else List.replicate (n + 1) hit) = [hit] := by
    rcases once with broad | once
    · rw [if_pos broad, List.replicate_succ, firstOfEach_cons, firstOfEach_seen]
      intro other mem
      rw [List.eq_of_mem_replicate mem]
      exact List.mem_singleton_self _
    · have none' : n = 0 := by
        rw [List.length_replicate] at once
        omega
      subst none'
      split <;> rfl
  have selected : select svc request (List.replicate (n + 1) hit) =
      admitted SearchHit.score (request.threshold svc.config) (request.limit svc.config) [hit] := by
    rw [select, sorted, deduped]
  rw [selected, admitted_singleton (limit_pos svc.config request) reaches]

omit [LinearOrder K] in
theorem entries_single (hit : SearchHit K) :
    entries (assemble svc request [hit]) = [(hit.id, hit.score)] := rfl

end KnowledgeCompanion.Retrieval
