import KnowledgeCompanion.BackendRankings
import KnowledgeCompanion.NodeRetrieval

/-! The retrieval engine and the retrieval service return the same chunks for every store
that honours the scope. -/

namespace KnowledgeCompanion.EngineAgreement

open PythonText StoreSearch StoreSelection StoreQueries Ranking BudgetedPrefix ApiExceptions
open MetadataMapper Retrieval NodeRetrieval

variable {F K Node : Type} [LinearOrder K]

/-- The answers lie within the scope, and a scope is the user and the set of resources. -/
structure HonoursScope (search : Search F K) : Prop where
  within : ∀ vector k user ids hits, ids ≠ [] → search vector k (ofScope ⟨user, ids⟩) = .ok hits →
    ∀ hit ∈ hits, hit.userID = user ∧ hit.resourceID ∈ ids
  sameScope : ∀ vector k user ids ids', ids ≠ [] → (∀ id, id ∈ ids ↔ id ∈ ids') →
    search vector k (ofScope ⟨user, ids⟩) = search vector k (ofScope ⟨user, ids'⟩)

/-- A question that is not blank, and ids that are neither empty nor padded. -/
structure Tidy (request : RetrievalRequest K) : Prop where
  question : isBlank request.question = false
  user : request.userID ≠ [] ∧ strip request.userID = request.userID
  listed : request.resourceIDs ≠ []
  resources : ∀ id ∈ request.resourceIDs, id ≠ [] ∧ strip id = id

/-- The engine asks for candidates of each resource and has the service's embedding, counts
and digests, its threshold and budget for the request, and room for the candidates. -/
structure SameSettings [Zero K] [One K] (svc : RetrievalService F K)
    (engine : RetrievalEngine F K Node) (request : RetrievalRequest K) : Prop where
  embedQuery : engine.embedQuery = svc.embedQuery
  count : engine.count = svc.count
  sha1 : engine.sha1 = svc.sha1
  threshold : request.scoreThreshold.getD engine.config.scoreThreshold =
    request.threshold svc.config
  budget : request.maxContextTokens.getD engine.config.maxContextTokens =
    request.maxContextTokens.getD svc.config.maxContextTokens
  perResource : engine.config.perResourceCandidates = true
  room : request.candidateTopK svc.config ≤ engine.topKLimit

def shownChunk (chunk : RetrievalChunk K) : Text × Text × Text × K :=
  (chunk.chunkID, chunk.resourceID, chunk.text, chunk.score)

def shownNode (chunk : NodeChunk K) : Text × Text × Text × K :=
  (chunk.chunkID, chunk.resourceID, chunk.text, chunk.score)

def shown (result : RetrievalResult K) : List (Text × Text × Text × K) × ℕ :=
  (result.chunks.map shownChunk, result.contextTokenCount)

def engineShown (result : EngineResult K) : List (Text × Text × Text × K) × ℕ :=
  (result.chunks.map shownNode, result.contextTokenCount)

omit [LinearOrder K] in
theorem toOption_bind {ε α β : Type} (x : Except ε α) (f : α → Except ε β) :
    (x >>= f).toOption = x.toOption.bind fun a => (f a).toOption := by
  cases x <;> rfl

theorem toOption_mapM {ε α β γ : Type} {f : α → Except ε β} {g : α → Except ε γ} {h : γ → β}
    {xs : List α} (same : ∀ a ∈ xs, (f a).toOption = (g a).toOption.map h) :
    (xs.mapM f).toOption = (xs.mapM g).toOption.map (List.map h) := by
  induction xs with
  | nil => rfl
  | cons a xs ih =>
    have rest := ih fun b mem => same b (List.mem_cons_of_mem a mem)
    rw [List.mapM_cons, List.mapM_cons, toOption_bind, toOption_bind,
      same a List.mem_cons_self]
    cases g a with
    | error e => rfl
    | ok first =>
      cases restF : xs.mapM f with
      | error e =>
        cases restG : xs.mapM g with
        | error e' => rfl
        | ok cs =>
          rw [restF, restG] at rest
          cases rest
      | ok bs =>
        cases restG : xs.mapM g with
        | error e' =>
          rw [restF, restG] at rest
          cases rest
        | ok cs =>
          rw [restF, restG] at rest
          exact congrArg (fun bs => some (h first :: bs)) (Option.some.inj rest)

section Chunks

variable [Zero K]

def chunkOf (cls : NodeClass K Node) (conv : Conversions K) (hit : SearchHit K) : NodeChunk K :=
  nodeToRetrievalChunk cls conv (vectorSearchResultToNode cls hit)

/-- A node's chunk has the id, the resource, the text and the score of its hit, and its
metadata name the hit's user. -/
theorem chunkOf_spec {cls : NodeClass K Node} (faithful : Faithful cls) (conv : Conversions K)
    (hit : SearchHit K) :
    shownNode (chunkOf cls conv hit) = shownChunk (toChunk hit) ∧
      strOr conv (ReadThroughCache.lookup "user_id" (chunkOf cls conv hit).metadata) [] =
        hit.userID := by
  generalize made : ReadThroughCache.assign "score" (NodeValue.score hit.score)
    (metadataWithRequiredFields hit.metadata hit.id hit.resourceID hit.userID) = info
  have score : ReadThroughCache.lookup "score" info = some (.score hit.score) := by
    rw [← made, ReadThroughCache.lookup_assign, if_pos rfl]
  have user : ReadThroughCache.lookup "user_id" info = some (.stored (.text hit.userID)) := by
    rw [← made, ReadThroughCache.lookup_assign, if_neg (by decide), metadataWithRequiredFields,
      ReadThroughCache.lookup_assign, if_pos rfl]
  have resource : ReadThroughCache.lookup "resource_id" info =
      some (.stored (.text hit.resourceID)) := by
    rw [← made, ReadThroughCache.lookup_assign, if_neg (by decide), metadataWithRequiredFields,
      ReadThroughCache.lookup_assign, if_neg (by decide), ReadThroughCache.lookup_assign,
      if_pos rfl]
  have chunk : ReadThroughCache.lookup "chunk_id" info = some (.stored (.text hit.id)) := by
    rw [← made, ReadThroughCache.lookup_assign, if_neg (by decide), metadataWithRequiredFields,
      ReadThroughCache.lookup_assign, if_neg (by decide), ReadThroughCache.lookup_assign,
      if_neg (by decide), ReadThroughCache.lookup_assign, if_pos rfl]
  have named : (if hit.id = [] then cls.nodeID (cls.textNode hit.id hit.text info) else hit.id) =
      hit.id := by
    by_cases empty : hit.id = []
    · rw [if_pos empty, empty, faithful.unnamed]
    · rw [if_neg empty]
  have whole (t : Text) : (if t = [] then [] else t) = t := by
    by_cases empty : t = []
    · rw [if_pos empty, empty]
    · rw [if_neg empty]
  have node : vectorSearchResultToNode cls hit = cls.textNode hit.id hit.text info := by
    rw [← made]
    rfl
  rw [chunkOf, node, nodeToRetrievalChunk]
  simp only [shownNode, resolveScore, faithful.metadata, faithful.content,
    lookup_normalizeMetadata score, lookup_normalizeMetadata user,
    lookup_normalizeMetadata resource, lookup_normalizeMetadata chunk, strOr_text, named, whole]
  exact ⟨rfl, trivial⟩

end Chunks

section Candidates

variable [Zero K] [One K] {svc : RetrievalService F K} {engine : RetrievalEngine F K Node}
  {request : RetrievalRequest K} {search : Search F K}

theorem strip_ne_nil {text : Text} (visible : isBlank text = false) : strip text ≠ [] := by
  rwa [isBlank, List.isEmpty_eq_false_iff] at visible

theorem buildMetadataFilters_tidy {user : Text} {ids : List Text}
    (named : user ≠ [] ∧ strip user = user) (listed : ids ≠ [])
    (tidy : ∀ id ∈ ids, id ≠ [] ∧ strip id = id) :
    ∃ ids' ≠ [], (∀ id, id ∈ ids' ↔ id ∈ ids) ∧
      buildMetadataFilters user ids = .ok (ofScope ⟨user, ids'⟩) := by
  have stripped : ids.map strip = ids := by
    conv_rhs => rw [← List.map_id ids]
    exact List.map_congr_left fun id mem => (tidy id mem).2
  have filled : ids.filter (fun value => decide (value ≠ [])) = ids := by
    rw [List.filter_eq_self]
    exact fun id mem => decide_eq_true (tidy id mem).1
  have same : ∀ id, id ∈ normalizeResourceIds ids ↔ id ∈ ids := by
    intro id
    rw [normalizeResourceIds, stripped, filled, mem_firstOfEach_id]
  have found : normalizeResourceIds ids ≠ [] := by
    obtain ⟨id, mem⟩ := List.exists_mem_of_ne_nil ids listed
    exact List.ne_nil_of_mem ((same id).mpr mem)
  refine ⟨normalizeResourceIds ids, found, same, ?_⟩
  rw [buildMetadataFilters]
  simp only [named.2]
  rw [if_neg named.1, if_neg found]

theorem query_toOption (engine : RetrievalEngine F K Node) (honours : HonoursScope search)
    (question : Text) {user : Text} {ids : List Text} {k : ℕ}
    (named : user ≠ [] ∧ strip user = user) (listed : ids ≠ [])
    (tidy : ∀ id ∈ ids, id ≠ [] ∧ strip id = id) (room : k ≤ engine.topKLimit) :
    (query engine search question user ids k).toOption =
      (search (engine.embedQuery question) k (ofScope ⟨user, ids⟩)).toOption.map
        (List.map (vectorSearchResultToNode engine.cls)) := by
  obtain ⟨ids', found, same, filters⟩ := buildMetadataFilters_tidy named listed tidy
  rw [query, toOption_bind, filters]
  have scope : search (engine.embedQuery question) k (ofScope ⟨user, ids'⟩) =
      search (engine.embedQuery question) k (ofScope ⟨user, ids⟩) :=
    honours.sameScope _ k user ids' ids found same
  change (searchByVector engine search (engine.embedQuery question) (ofScope ⟨user, ids'⟩)
    k).toOption = _
  rw [searchByVector, Nat.min_eq_left room, scope]
  cases search (engine.embedQuery question) k (ofScope ⟨user, ids⟩) with
  | ok hits => rfl
  | error e =>
    dsimp only
    split <;> rfl

theorem usePerResource_eq (settings : SameSettings svc engine request) :
    usePerResourceCandidates engine request.resourceIDs = request.broad := by
  rw [usePerResourceCandidates, settings.perResource, Bool.true_and]
  rfl

theorem engineTopK_eq (svc : RetrievalService F K) :
    engineTopK engine request = request.limit svc.config := by
  have asked := request.topK_pos
  rw [engineTopK, RetrievalRequest.limit, if_neg (by omega), if_neg (by omega)]

theorem engineCandidateTopK_eq (settings : SameSettings svc engine request) :
    engineCandidateTopK engine (engineTopK engine request) request.resourceIDs =
      request.candidateTopK svc.config := by
  rw [engineCandidateTopK, usePerResource_eq settings, engineTopK_eq svc,
    RetrievalRequest.candidateTopK, RetrievalRequest.broad]
  by_cases broad : 1 < request.resourceIDs.eraseDups.length
  · have several : ¬ request.resourceIDs.eraseDups.length ≤ 1 := by omega
    simp only [broad, several, decide_true, if_true, if_false]
  · have one : request.resourceIDs.eraseDups.length ≤ 1 := by omega
    simp only [broad, one, decide_false, if_true, Bool.false_eq_true, if_false]

omit [LinearOrder K] [Zero K] [One K] in
theorem candidateTopK_pos (svc : RetrievalService F K) (request : RetrievalRequest K) :
    0 < request.candidateTopK svc.config := by
  have asked := limit_pos svc.config request
  rw [RetrievalRequest.candidateTopK]
  split <;> omega

theorem queryOne_toOption (honours : HonoursScope search) (tidy : Tidy request)
    (settings : SameSettings svc engine request) {id : Text}
    (mem : id ∈ request.resourceIDs.eraseDups) :
    (query engine search request.question request.userID [id] 1).toOption =
      (search (svc.embedQuery request.question) 1 (request.scope [id])).toOption.map
        (List.map (vectorSearchResultToNode engine.cls)) := by
  have single : 1 ≤ engine.topKLimit := le_trans (candidateTopK_pos svc request) settings.room
  rw [← settings.embedQuery]
  refine query_toOption engine honours request.question tidy.user (List.cons_ne_nil id [])
    (fun other mem' => ?_) single
  rw [List.mem_singleton.mp mem']
  exact tidy.resources id (List.mem_eraseDups.mp mem)

theorem toOption_flatten {ε α : Type} (front : List α) (found : Except ε (List (List α))) :
    (found >>= fun later => pure (front ++ later.flatten)).toOption =
      found.toOption.map fun later => front ++ later.flatten := by
  cases found <;> rfl

theorem toOption_map_flatten {ε α : Type} (front : List α) (found : Except ε (List (List α))) :
    (found.map List.flatten >>= fun later => pure (front ++ later)).toOption =
      found.toOption.map fun later => front ++ later.flatten := by
  cases found <;> rfl

theorem retrieveCandidates_toOption (honours : HonoursScope search) (tidy : Tidy request)
    (settings : SameSettings svc engine request) :
    (retrieveCandidates engine search request (engineTopK engine request)).toOption =
      (searchCandidates svc search request).toOption.map
        (List.map (vectorSearchResultToNode engine.cls)) := by
  have first := query_toOption engine honours request.question
    tidy.user tidy.listed tidy.resources settings.room
  rw [settings.embedQuery] at first
  have more := toOption_mapM fun id mem => queryOne_toOption honours tidy settings mem
  rw [retrieveCandidates, searchCandidates, toOption_bind, engineCandidateTopK_eq settings, first,
    usePerResource_eq settings, toOption_bind]
  change Option.bind (Option.map _ (search (svc.embedQuery request.question)
    (request.candidateTopK svc.config) (request.scope request.resourceIDs)).toOption) _ = _
  cases search (svc.embedQuery request.question) (request.candidateTopK svc.config)
      (request.scope request.resourceIDs) with
  | error e => rfl
  | ok hits =>
    by_cases broad : request.broad = true
    · have flat : (fun later : List (List (SearchHit K)) =>
            hits.map (vectorSearchResultToNode engine.cls) ++
              (later.map (List.map (vectorSearchResultToNode engine.cls))).flatten) =
          fun later => (hits ++ later.flatten).map (vectorSearchResultToNode engine.cls) := by
        funext later
        rw [List.map_append, List.map_flatten]
      have found : (Except.ok hits : Except ApiException (List (SearchHit K))).toOption =
          some hits := rfl
      simp only [broad, if_true]
      rw [found, Option.map_some, Option.bind_some, Option.bind_some, toOption_flatten, more,
        searchPerResourceCandidates, toOption_map_flatten, Option.map_map, Option.map_map]
      exact congrArg (fun f => Option.map f _) flat
    · simp only [broad]
      rfl

theorem mem_of_mapM {ε α β : Type} {f : α → Except ε β} {xs : List α} {ys : List β}
    (all : xs.mapM f = .ok ys) {y : β} (mem : y ∈ ys) : ∃ x ∈ xs, f x = .ok y := by
  induction xs generalizing ys with
  | nil =>
    rw [← Except.ok.inj all] at mem
    exact absurd mem List.not_mem_nil
  | cons x xs ih =>
    rw [List.mapM_cons] at all
    cases here : f x with
    | error e =>
      rw [here] at all
      cases all
    | ok first =>
      cases later : xs.mapM f with
      | error e =>
        rw [here, later] at all
        cases all
      | ok rest =>
        rw [here, later] at all
        rw [← Except.ok.inj all] at mem
        rcases List.mem_cons.mp mem with rfl | mem
        · exact ⟨x, List.mem_cons_self, here⟩
        · obtain ⟨x', mem', found⟩ := ih later mem
          exact ⟨x', List.mem_cons_of_mem x mem', found⟩

omit [LinearOrder K] [Zero K] [One K] in
theorem searchCandidates_within (honours : HonoursScope search)
    (listed : request.resourceIDs ≠ []) {hits : List (SearchHit K)}
    (found : searchCandidates svc search request = .ok hits) :
    ∀ hit ∈ hits, hit.userID = request.userID ∧ hit.resourceID ∈ request.resourceIDs := by
  rw [searchCandidates] at found
  cases first : search (svc.embedQuery request.question) (request.candidateTopK svc.config)
      (request.scope request.resourceIDs) with
  | error e =>
    simp only [first] at found
    cases found
  | ok wide =>
    have inside := honours.within _ _ _ _ _ listed first
    by_cases broad : request.broad = true
    · simp only [first, broad, if_true, searchPerResourceCandidates] at found
      cases each : request.resourceIDs.eraseDups.mapM fun id =>
          search (svc.embedQuery request.question) 1 (request.scope [id]) with
      | error e =>
        rw [each] at found
        cases found
      | ok more =>
        rw [each] at found
        intro hit mem
        rw [← Except.ok.inj found] at mem
        rcases List.mem_append.mp mem with early | late
        · exact inside hit early
        · obtain ⟨some', mem', here⟩ := List.mem_flatten.mp late
          obtain ⟨id, there, answered⟩ := mem_of_mapM each mem'
          obtain ⟨user, resource⟩ := honours.within _ _ _ _ _ (List.cons_ne_nil id []) answered hit
            here
          refine ⟨user, ?_⟩
          rw [List.mem_singleton.mp resource]
          exact List.mem_eraseDups.mp there
    · simp only [first, broad] at found
      rw [← Except.ok.inj found]
      exact inside

end Candidates

section Results

variable [Zero K] [One K] {svc : RetrievalService F K} {engine : RetrievalEngine F K Node}
  {request : RetrievalRequest K} {search : Search F K}

theorem filterChunks_map (faithful : Faithful engine.cls)
    (settings : SameSettings svc engine request) (hits : List (SearchHit K)) :
    filterChunks engine request (hits.map (chunkOf engine.cls engine.conv)) =
      (select svc request hits).map (chunkOf engine.cls engine.conv) := by
  have parts (hit : SearchHit K) := (chunkOf_spec faithful engine.conv hit).1
  simp only [shownNode, shownChunk, toChunk, Prod.mk.injEq] at parts
  have score : (fun hit => (chunkOf engine.cls engine.conv hit).score) = SearchHit.score :=
    funext fun hit => (parts hit).2.2.2
  have key : (fun hit => nodeKey engine (chunkOf engine.cls engine.conv hit)) = chunkKey svc := by
    funext hit
    rw [nodeKey, chunkKey, (parts hit).1, (parts hit).2.1, (parts hit).2.2.1, nodeFingerprint,
      chunkFingerprint, settings.sha1]
  rw [filterChunks, select, ranked_map, score, usePerResource_eq settings, settings.threshold,
    engineTopK_eq svc]
  by_cases broad : request.broad = true
  · rw [if_pos broad, if_pos broad, firstOfEach_map, key, admitted_map, score]
  · rw [if_neg broad, if_neg broad, admitted_map, score]

theorem compress_map (faithful : Faithful engine.cls)
    (settings : SameSettings svc engine request) (hits : List (SearchHit K)) (budget : ℕ) :
    compress engine budget (hits.map (chunkOf engine.cls engine.conv)) =
      (compressContext svc budget hits).map (chunkOf engine.cls engine.conv) := by
  have text (hit : SearchHit K) : (chunkOf engine.cls engine.conv hit).text = hit.text :=
    congrArg (fun s => s.2.2.1) (chunkOf_spec faithful engine.conv hit).1
  cases hits with
  | nil => rfl
  | cons hit hits =>
    rw [List.map_cons, compress, compressContext, List.map_cons, keepWithin_map, settings.count]
    simp only [text]

theorem authorizeChunks_ok (faithful : Faithful engine.cls) {hits : List (SearchHit K)}
    (within : ∀ hit ∈ hits, hit.userID = request.userID ∧
      hit.resourceID ∈ request.resourceIDs) :
    authorizeChunks engine (hits.map (chunkOf engine.cls engine.conv)) request = .ok () := by
  rw [authorizeChunks, if_pos]
  rw [List.all_eq_true]
  intro chunk mem
  obtain ⟨hit, here, rfl⟩ := List.mem_map.mp mem
  obtain ⟨same, user⟩ := chunkOf_spec faithful engine.conv hit
  have resource : (chunkOf engine.cls engine.conv hit).resourceID = hit.resourceID :=
    congrArg (fun s => s.2.1) same
  rw [Bool.and_eq_true, beq_iff_eq, List.contains_iff_mem, user, resource]
  exact within hit here

/-- Over a store that honours the scope the engine and the service return the same chunks
and the same count of tokens, or none of them returns. -/
theorem engine_agrees (honours : HonoursScope search) (tidy : Tidy request)
    (settings : SameSettings svc engine request) (faithful : Faithful engine.cls) :
    (engineRetrieve engine search request).toOption.map engineShown =
      (retrieve svc search request).toOption.map shown := by
  have valid : validateRequest request = .ok () := by
    have user : strip request.userID ≠ [] := by
      rw [tidy.user.2]
      exact tidy.user.1
    rw [validateRequest, if_neg (strip_ne_nil tidy.question), if_neg user, if_neg tidy.listed]
  have candidates := retrieveCandidates_toOption honours tidy settings
  rw [engineRetrieve, valid, toOption_bind]
  change Option.map engineShown (Except.toOption (_ >>= _)) = _
  rw [toOption_bind, candidates]
  cases found : searchCandidates svc search request with
  | error e =>
    rw [retrieve, found]
    rfl
  | ok hits =>
    have within := searchCandidates_within honours tidy.listed found
    have chunks : (hits.map (vectorSearchResultToNode engine.cls)).map
        (nodeToRetrievalChunk engine.cls engine.conv) =
          hits.map (chunkOf engine.cls engine.conv) := by
      rw [List.map_map]
      rfl
    rw [retrieve_ok found within]
    change Option.map engineShown (Except.toOption (authorizeChunks engine
      ((hits.map (vectorSearchResultToNode engine.cls)).map _) request >>= _)) = _
    rw [chunks, authorizeChunks_ok faithful within, filterChunks_map faithful settings,
      compress_map faithful settings, settings.budget]
    refine congrArg some (Prod.ext ?_ ?_)
    · change List.map shownNode (List.map (chunkOf engine.cls engine.conv) _) =
        List.map shownChunk (List.map toChunk _)
      rw [List.map_map, List.map_map]
      exact List.map_congr_left fun hit _ => (chunkOf_spec faithful engine.conv hit).1
    · change (List.map (fun chunk => engine.count chunk.text)
        (List.map (chunkOf engine.cls engine.conv) _)).sum = (List.map _ _).sum
      rw [List.map_map, settings.count]
      refine congrArg List.sum (List.map_congr_left fun hit _ => congrArg svc.count ?_)
      exact congrArg (fun s => s.2.2.1) (chunkOf_spec faithful engine.conv hit).1

end Results

section Chroma

variable [Field K]

omit [LinearOrder K] [Field K] in
theorem selected_scope (c : Collection F) (user : Text) {ids : List Text} (listed : ids ≠ []) :
    ChromaFilters.selected (ofScope ⟨user, ids⟩) c.records =
      (ofScope ⟨user, ids⟩).asked c.records := by
  have sought : (ofScope ⟨user, ids⟩).sought = some ids := by
    rw [ofScope, Query.sought_search]
    exact congrArg some (if_neg listed)
  rw [chroma_agrees_iff]
  intro r stored
  rw [chromaMatches_iff, sought,
    ChromaFilters.lookup_unshadowed (c.unreserved r stored "resource_id" (by decide)),
    ChromaFilters.lookup_unshadowed (c.unreserved r stored "user_id" (by decide))]
  simp [Query.Asks, ofScope, Query.resources, Query.user, FilterMapping.given, ResourceIDs.values]

omit [LinearOrder K] [Field K] in
theorem asked_scope {c : Collection F} {user : Text} {ids : List Text}
    {r : VectorIndexing.VectorRecord F}
    (mem : r ∈ (ofScope ⟨user, ids⟩).asked c.records) :
    r ∈ c.records ∧ r.userID = user ∧ r.resourceID ∈ ids := by
  simp only [Query.asked, List.mem_filter, decide_eq_true_eq] at mem
  simp only [Query.Asks, ofScope, Query.resources, Query.user] at mem
  exact ⟨mem.1, mem.2.2 user rfl, mem.2.1 ids rfl⟩

theorem chroma_honoursScope [IsStrictOrderedRing K] (similarity : List F → List F → K)
    (c : Collection F) : HonoursScope (ChromaStore.search similarity c) where
  within := by
    intro vector k user ids hits listed found hit mem
    rw [ChromaStore.search, selected_scope c user listed, nearest_eq, List.map_map] at found
    rw [← Except.ok.inj found] at mem
    obtain ⟨r, near, rfl⟩ := List.mem_map.mp mem
    obtain ⟨stored, owner, resource⟩ :=
      asked_scope ((mem_ranked _).mp (List.mem_of_mem_take near))
    obtain ⟨sameUser, sameResource⟩ :
        (BackendRankings.chromaHit (fun r => similarity vector r.vector) r).userID = r.userID ∧
          (BackendRankings.chromaHit (fun r => similarity vector r.vector) r).resourceID =
            r.resourceID := BackendRankings.chromaHit_owner stored
    exact ⟨sameUser.trans owner, sameResource ▸ resource⟩
  sameScope := by
    intro vector k user ids ids' listed same
    have listed' : ids' ≠ [] := by
      obtain ⟨id, mem⟩ := List.exists_mem_of_ne_nil ids listed
      exact List.ne_nil_of_mem ((same id).mp mem)
    have alike : (ofScope ⟨user, ids⟩).asked c.records =
      (ofScope ⟨user, ids'⟩).asked c.records := by
      refine List.filter_congr fun r _ => ?_
      simp [Query.Asks, ofScope, Query.resources, Query.user, FilterMapping.given,
        ResourceIDs.values, same]
    rw [ChromaStore.search, ChromaStore.search, selected_scope c user listed,
      selected_scope c user listed', alike]

end Chroma

def recordNodes : NodeClass ℚ (Text × Text × NodeMetadata ℚ) where
  textNode id text info := (id, text, info)
  nodeID node := node.1
  metadata node := node.2.2
  getContent node := node.2.1

def axisEngine : RetrievalEngine ℚ ℚ (Text × Text × NodeMetadata ℚ) where
  embedQuery := BackendRankings.axisService.embedQuery
  count := BackendRankings.axisService.count
  sha1 := BackendRankings.axisService.sha1
  build := fun _ question => question
  cls := recordNodes
  conv := ⟨fun _ => [], fun _ => none⟩
  topKLimit := 100
  config := ⟨5, 7 / 10, 4096, true, defaultTopK_pos, by decide +kernel, by decide⟩

def twoLectures : RetrievalRequest ℚ where
  question := "What is on the slide?".toList
  userID := "alice".toList
  resourceIDs := ["lecture".toList, "seminar".toList, "lecture".toList]
  topK_pos := defaultTopK_pos

theorem engine_agrees_lectures :
    (engineRetrieve axisEngine
        (ChromaStore.search BackendRankings.dot BackendRankings.axisCollection)
        twoLectures).toOption.map engineShown =
      (retrieve BackendRankings.axisService
        (ChromaStore.search BackendRankings.dot BackendRankings.axisCollection)
        twoLectures).toOption.map shown :=
  engine_agrees (chroma_honoursScope BackendRankings.dot BackendRankings.axisCollection)
    { question := by decide
      user := by decide
      listed := by decide
      resources := List.forall_iff_forall_mem.mp (by decide) }
    { embedQuery := rfl
      count := rfl
      sha1 := rfl
      threshold := rfl
      budget := rfl
      perResource := rfl
      room := by decide }
    { content := fun _ _ _ => rfl
      metadata := fun _ _ _ => rfl
      unnamed := fun _ _ => rfl }

end KnowledgeCompanion.EngineAgreement
