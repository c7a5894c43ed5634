import Mathlib.Algebra.Order.Ring.Rat
import Mathlib.Data.List.Pairwise
import Mathlib.Tactic.Linarith
import KnowledgeCompanion.Retrieval

/-! Retrieval through the two stores under the cosine metric: when both return the same
records with the same scores, best first. -/

namespace KnowledgeCompanion.BackendRankings

open VectorIndexing StoreQueries QuotedScan FilterExpression Ranking StoreSelection StoreSearch
open Retrieval ApiExceptions

variable {F K : Type} [LinearOrder K]

def closeness (similarity : List F → List F → K) (svc : RetrievalService F K)
    (request : RetrievalRequest K) (r : VectorRecord F) : K :=
  similarity (svc.embedQuery request.question) r.vector

def closest (close : VectorRecord F → K) (c : Collection F) (k : ℕ) (q : Query) :
    List (VectorRecord F) :=
  (ranked close (q.asked c.records)).take (min k topKLimit)

def candidates (close : VectorRecord F → K) (svc : RetrievalService F K)
    (request : RetrievalRequest K) (c : Collection F) : List (VectorRecord F) :=
  closest close c (request.candidateTopK svc.config) (request.scope request.resourceIDs) ++
    if request.broad then
      request.resourceIDs.eraseDups.flatMap fun id => closest close c 1 (request.scope [id])
    else []

/-- The chunks are those of records in the order of their similarity, and a higher score
means a greater similarity. -/
def BestFirst (close : VectorRecord F → K) (c : Collection F) (result : RetrievalResult K) : Prop :=
  ∃ picked : List (VectorRecord F × RetrievalChunk K),
    result.chunks = picked.map Prod.snd ∧
    (∀ p ∈ picked, p.1 ∈ c.records ∧ p.2.chunkID = p.1.id) ∧
    picked.Pairwise (fun p p' => close p'.1 < close p.1) ∧
    ∀ p ∈ picked, ∀ p' ∈ picked, p'.2.score < p.2.score → close p'.1 < close p.1

/-- The two retrievals return the same ids and scores in the same order, best first. -/
structure SameRetrieval (close : VectorRecord F → K) (c : Collection F)
    (milvus chroma : Except ApiException (RetrievalResult K)) : Prop where
  same : milvus.map entries = chroma.map entries
  bestFirst : ∀ result, milvus = .ok result → BestFirst close c result

variable {close : VectorRecord F → K} {c : Collection F} {svc : RetrievalService F K}
  {request : RetrievalRequest K}

theorem mem_closest {k : ℕ} {q : Query} {r : VectorRecord F} (mem : r ∈ closest close c k q) :
    r ∈ c.records ∧ q.Asks r := by
  have asked := (mem_ranked _).mp (List.mem_of_mem_take mem)
  rw [Query.asked, List.mem_filter, decide_eq_true_eq] at asked
  exact asked

omit [LinearOrder K] in
theorem asks_scope {ids : List Text} {r : VectorRecord F} :
    (request.scope ids).Asks r ↔ r.userID = request.userID ∧ r.resourceID ∈ ids := by
  rw [RetrievalRequest.scope, Query.Asks, and_comm]
  simp [ofScope, Query.user, Query.resources, FilterMapping.given, ResourceIDs.values]

theorem mem_candidates {r : VectorRecord F} (mem : r ∈ candidates close svc request c) :
    r ∈ c.records ∧ (request.scope request.resourceIDs).Asks r := by
  rcases List.mem_append.mp mem with mem | mem
  · exact mem_closest mem
  · split at mem
    · obtain ⟨id, idMem, mem⟩ := List.mem_flatMap.mp mem
      obtain ⟨stored, asked⟩ := mem_closest mem
      rw [asks_scope, List.mem_singleton] at asked
      refine ⟨stored, asks_scope.mpr ⟨asked.1, ?_⟩⟩
      rw [asked.2]
      exact List.mem_eraseDups.mp idMem
    · exact nomatch mem

theorem eq_of_same_id {r r' : VectorRecord F} (stored : r ∈ c.records) (stored' : r' ∈ c.records)
    (same : r.id = r'.id) : r = r' :=
  List.inj_on_of_nodup_map c.distinct stored stored' same

def Untied (close : VectorRecord F → K) (c : Collection F) (request : RetrievalRequest K) : Prop :=
  ((request.scope request.resourceIDs).asked c.records).Pairwise fun a b => close a ≠ close b

theorem eq_of_same_closeness (untied : Untied close c request) {r r' : VectorRecord F}
    (mem : r ∈ candidates close svc request c) (mem' : r' ∈ candidates close svc request c)
    (same : close r = close r') : r = r' := by
  have asked {r : VectorRecord F} (mem : r ∈ candidates close svc request c) :
      r ∈ (request.scope request.resourceIDs).asked c.records := by
    obtain ⟨stored, asks⟩ := mem_candidates mem
    rw [Query.asked, List.mem_filter, decide_eq_true_eq]
    exact ⟨stored, asks⟩
  by_contra other
  have symmetric : Std.Symm fun a b : VectorRecord F => close a ≠ close b :=
    ⟨fun a b ne => ne.symm⟩
  exact untied.forall (asked mem) (asked mem') other same

theorem single_candidate (untied : Untied close c request) {r : VectorRecord F}
    (only : ∀ r' ∈ candidates close svc request c, r' = r) :
    request.broad = true ∨ (candidates close svc request c).length ≤ 1 := by
  by_cases broad : request.broad = true
  · exact Or.inl broad
  · right
    have narrow : candidates close svc request c = closest close c
        (request.candidateTopK svc.config) (request.scope request.resourceIDs) := by
      rw [candidates, if_neg broad, List.append_nil]
    have distinct : (candidates close svc request c).Nodup := by
      have asked : ((request.scope request.resourceIDs).asked c.records).Nodup :=
        untied.imp fun ne same => ne (by rw [same])
      rw [narrow, closest]
      exact ((ranked_perm _ _).nodup_iff.mpr asked).sublist (List.take_sublist _ _)
    have repeated := List.eq_replicate_iff.mpr ⟨rfl, only⟩
    rw [repeated] at distinct
    exact List.nodup_replicate.mp distinct

section Scores

variable {hit hit' : VectorRecord F → SearchHit K}

def returned (svc : RetrievalService F K) (request : RetrievalRequest K)
    (hit : VectorRecord F → SearchHit K) (rs : List (VectorRecord F)) : List (Text × K) :=
  entries (assemble svc request (select svc request (rs.map hit)))

theorem returned_cases (svc : RetrievalService F K) (request : RetrievalRequest K)
    (hit : VectorRecord F → SearchHit K) (rs : List (VectorRecord F)) :
    ((∀ r ∈ rs, (hit r).score < request.threshold svc.config) ∧
        returned svc request hit rs = []) ∨
      ∃ best ∈ rs, (∀ r ∈ rs, (hit r).score ≤ (hit best).score) ∧
        request.threshold svc.config ≤ (hit best).score ∧
        ∃ others, returned svc request hit rs = ((hit best).id, (hit best).score) :: others := by
  rcases select_cases svc request (rs.map hit) with
    ⟨low, nothing⟩ | ⟨_, mem, most, high, others, shown⟩
  · left
    refine ⟨fun r mem => low (hit r) (List.mem_map_of_mem mem), ?_⟩
    rw [returned, nothing, entries_nil]
  · right
    obtain ⟨best, here, rfl⟩ := List.mem_map.mp mem
    refine ⟨best, here, fun r mem => most (hit r) (List.mem_map_of_mem mem), high, ?_⟩
    rw [returned, shown]
    exact entries_cons (hit best) others

theorem returned_nil {rs : List (VectorRecord F)}
    (low : ∀ r ∈ rs, (hit r).score < request.threshold svc.config) :
    returned svc request hit rs = [] := by
  rcases returned_cases svc request hit rs with
    ⟨-, nothing⟩ | ⟨best, mem, -, high, -⟩
  · exact nothing
  · exact absurd (low best mem) (not_lt.mpr high)

theorem returned_single {rs : List (VectorRecord F)} {r : VectorRecord F} (found : rs ≠ [])
    (only : ∀ r' ∈ rs, r' = r) (once : request.broad = true ∨ rs.length ≤ 1)
    (reaches : request.threshold svc.config ≤ (hit r).score) :
    returned svc request hit rs = [((hit r).id, (hit r).score)] := by
  have selected : select svc request (rs.map hit) = [hit r] := by
    refine select_single (by simpa using found) (fun other mem => ?_)
      (by rwa [List.length_map]) reaches
    obtain ⟨r', here, rfl⟩ := List.mem_map.mp mem
    rw [only r' here]
  rw [returned, selected, entries_single]

variable [Field K]

/-- Both scores of every candidate are below the threshold, or there is but one candidate,
whose similarity is one half, and it reaches the threshold. -/
def Neutral (close : VectorRecord F → K) (threshold : K) (rs : List (VectorRecord F)) : Prop :=
  (∀ r ∈ rs, 1 - threshold < close r ∧ max 0 (close r) < threshold) ∨
    ∃ r, (∀ r' ∈ rs, r' = r) ∧ close r = 1 / 2 ∧ threshold ≤ 1 / 2

theorem half_of_same [IsStrictOrderedRing K] {x : K} (same : 1 - x = max 0 x) : x = 1 / 2 := by
  rcases le_total x 0 with negative | positive
  · rw [max_eq_left negative] at same
    linarith
  · rw [max_eq_right positive] at same
    linarith

theorem neutral_of_best [IsStrictOrderedRing K] {threshold : K} (untied : Untied close c request)
    (scores : ∀ r, (hit r).score = 1 - close r ∧ (hit' r).score = max 0 (close r))
    {best : VectorRecord F} (mem : best ∈ candidates close svc request c)
    (farthest : ∀ r ∈ candidates close svc request c, (hit r).score ≤ (hit best).score)
    (nearest : ∀ r ∈ candidates close svc request c, (hit' r).score ≤ (hit' best).score)
    (reaches : threshold ≤ (hit best).score) (same : (hit best).score = (hit' best).score) :
    Neutral close threshold (candidates close svc request c) := by
  rw [(scores best).1, (scores best).2] at same
  have half := half_of_same same
  refine .inr ⟨best, fun r found => ?_, half, ?_⟩
  · have above := farthest r found
    have below := nearest r found
    rw [(scores r).1, (scores best).1] at above
    rw [(scores r).2, (scores best).2, half] at below
    have most : close r ≤ 1 / 2 := by
      refine (le_max_right 0 (close r)).trans (below.trans ?_)
      rw [max_eq_right (by norm_num)]
    have least : 1 / 2 ≤ close r := by linarith
    exact eq_of_same_closeness untied found mem (by linarith)
  · rw [(scores best).1, half] at reaches
    linarith

theorem returned_of_neutral [IsStrictOrderedRing K] (svc : RetrievalService F K)
    (untied : Untied close c request)
    (ids : ∀ r, (hit r).id = r.id ∧ (hit' r).id = r.id)
    (scores : ∀ r, (hit r).score = 1 - close r ∧ (hit' r).score = max 0 (close r))
    (neutral : Neutral close (request.threshold svc.config) (candidates close svc request c)) :
    returned svc request hit (candidates close svc request c) =
      returned svc request hit' (candidates close svc request c) := by
  rcases neutral with neither | ⟨r, only, half, reaches⟩
  · have low : ∀ r ∈ candidates close svc request c,
        (hit r).score < request.threshold svc.config := by
      intro r mem
      rw [(scores r).1]
      exact sub_lt_comm.mp (neither r mem).1
    have low' : ∀ r ∈ candidates close svc request c,
        (hit' r).score < request.threshold svc.config := by
      intro r mem
      rw [(scores r).2]
      exact (neither r mem).2
    rw [returned_nil low, returned_nil low']
  · have score : (hit r).score = 1 / 2 ∧ (hit' r).score = 1 / 2 := by
      rw [(scores r).1, (scores r).2, half]
      exact ⟨by norm_num, max_eq_right (by norm_num)⟩
    by_cases found : candidates close svc request c = []
    · rw [found]
      rfl
    · have once := single_candidate untied only
      rw [returned_single found only once (score.1 ▸ reaches),
        returned_single found only once (score.2 ▸ reaches), (ids r).1, (ids r).2, score.1,
        score.2]

theorem returned_eq_iff [IsStrictOrderedRing K] (svc : RetrievalService F K)
    (untied : Untied close c request)
    (ids : ∀ r, (hit r).id = r.id ∧ (hit' r).id = r.id)
    (scores : ∀ r, (hit r).score = 1 - close r ∧ (hit' r).score = max 0 (close r)) :
    returned svc request hit (candidates close svc request c) =
        returned svc request hit' (candidates close svc request c) ↔
      Neutral close (request.threshold svc.config) (candidates close svc request c) := by
  refine ⟨fun same => ?_, returned_of_neutral svc untied ids scores⟩
  rcases returned_cases svc request hit (candidates close svc request c)
    with ⟨low, nothing⟩ | ⟨far, farMem, farthest, farHigh, others, shown⟩
  · rcases returned_cases svc request hit'
      (candidates close svc request c) with ⟨low', -⟩ | ⟨near, -, -, -, others', shown'⟩
    · left
      intro r mem
      have below := low r mem
      have below' := low' r mem
      rw [(scores r).1] at below
      rw [(scores r).2] at below'
      exact ⟨sub_lt_comm.mp below, below'⟩
    · rw [nothing, shown'] at same
      exact nomatch same
  · rcases returned_cases svc request hit'
      (candidates close svc request c) with
        ⟨-, nothing'⟩ | ⟨near, nearMem, nearest, -, others', shown'⟩
    · rw [shown, nothing'] at same
      exact nomatch same
    · rw [shown, shown', List.cons.injEq, Prod.mk.injEq, (ids far).1, (ids near).2] at same
      obtain ⟨⟨sameId, sameScore⟩, -⟩ := same
      obtain rfl : far = near :=
        eq_of_same_id (mem_candidates farMem).1 (mem_candidates nearMem).1 sameId
      exact neutral_of_best untied scores farMem farthest nearest farHigh sameScore

end Scores

variable [Field K]

def milvusHit (metricType : Text) (close : VectorRecord F → K) (r : VectorRecord F) : SearchHit K :=
  MilvusStore.hitToResult metricType (r, close r)

def chromaHit (close : VectorRecord F → K) (r : VectorRecord F) : SearchHit K :=
  ChromaStore.hitToResult (r, 1 - close r)

variable {escapes : Escapes Char} {similarity : List F → List F → K} {config : VectorStoreConfig}

theorem milvus_search (similarity : List F → List F → K) (config : VectorStoreConfig) {q : Query}
    (agree : Agree escapes q c.records) (vector : List F) (k : ℕ) :
    MilvusStore.search escapes similarity config c vector k q =
      .ok ((closest (fun r => similarity vector r.vector) c k q).map
        (milvusHit config.metricType fun r => similarity vector r.vector)) := by
  rw [MilvusStore.search, agree.1, closest]
  simp only [mostSimilar, List.map_map]
  rfl

theorem chroma_search [IsStrictOrderedRing K] (similarity : List F → List F → K) {q : Query}
    (agree : Agree escapes q c.records) (vector : List F) (k : ℕ) :
    ChromaStore.search similarity c vector k q =
      .ok ((closest (fun r => similarity vector r.vector) c k q).map
        (chromaHit fun r => similarity vector r.vector)) := by
  rw [ChromaStore.search, agree.2, nearest_eq, closest, List.map_map]
  rfl

theorem milvusHit_score {metricType : Text} (cosine : metricType.map Char.toUpper = "COSINE".toList)
    (r : VectorRecord F) : (milvusHit metricType close r).score = 1 - close r := by
  rw [milvusHit, MilvusStore.hitToResult, MilvusStore.distanceToScore, cosine]
  rfl

theorem chromaHit_score [IsStrictOrderedRing K] (r : VectorRecord F) :
    (chromaHit close r).score = max 0 (close r) := by
  rw [chromaHit, ChromaStore.hitToResult, ChromaStore.distanceToScore, sub_sub_cancel]

theorem chromaHit_owner {r : VectorRecord F} (stored : r ∈ c.records) :
    (chromaHit close r).userID = r.userID ∧ (chromaHit close r).resourceID = r.resourceID := by
  obtain ⟨resource, user⟩ := ChromaFilters.lookup_record r
  rw [ChromaFilters.lookup_unshadowed (c.unreserved r stored "resource_id" (by decide)),
    Option.none_or] at resource
  rw [ChromaFilters.lookup_unshadowed (c.unreserved r stored "user_id" (by decide)),
    Option.none_or] at user
  rw [chromaHit, ChromaStore.hitToResult, ChromaStore.textAt, ChromaStore.textAt, resource, user]
  exact ⟨rfl, rfl⟩

omit [Field K] in
theorem retrieve_returned (svc : RetrievalService F K) (request : RetrievalRequest K)
    {search : Search F K} {hit : VectorRecord F → SearchHit K}
    (answers : ∀ q ∈ request.queries, ∀ k, search (svc.embedQuery request.question) k q =
      .ok ((closest close c k q).map hit))
    (owner : ∀ r ∈ c.records, (hit r).userID = r.userID ∧ (hit r).resourceID = r.resourceID) :
    retrieve svc search request =
      .ok (assemble svc request (select svc request
        ((candidates close svc request c).map hit))) := by
  have found : searchCandidates svc search request =
      .ok ((candidates close svc request c).map hit) := by
    rw [searchCandidates_ok answers, candidates, List.map_append]
    split
    · rw [List.map_flatMap]
    · rfl
  refine retrieve_ok found fun h mem => ?_
  obtain ⟨r, here, rfl⟩ := List.mem_map.mp mem
  obtain ⟨stored, asked⟩ := mem_candidates here
  obtain ⟨user, resource⟩ := asks_scope.mp asked
  rw [(owner r stored).1, (owner r stored).2]
  exact ⟨user, resource⟩

theorem select_of_neutral [IsStrictOrderedRing K] {hit : VectorRecord F → SearchHit K}
    (untied : Untied close c request) (scores : ∀ r, (hit r).score = 1 - close r)
    (neutral : Neutral close (request.threshold svc.config) (candidates close svc request c)) :
    select svc request ((candidates close svc request c).map hit) = [] ∨
      ∃ r ∈ candidates close svc request c,
        select svc request ((candidates close svc request c).map hit) = [hit r] := by
  rcases select_cases svc request ((candidates close svc request c).map hit) with
    ⟨-, nothing⟩ | ⟨_, mem, -, high, -⟩
  · exact Or.inl nothing
  · obtain ⟨best, here, rfl⟩ := List.mem_map.mp mem
    right
    refine ⟨best, here, ?_⟩
    rcases neutral with neither | ⟨r, only, -⟩
    · rw [scores best] at high
      exact absurd (sub_lt_comm.mp (neither best here).1) (not_lt.mpr high)
    · obtain rfl := only best here
      refine select_single (List.ne_nil_of_mem mem) (fun other otherMem => ?_) ?_ high
      · obtain ⟨r', there, rfl⟩ := List.mem_map.mp otherMem
        rw [only r' there]
      · rw [List.length_map]
        exact single_candidate untied only

theorem bestFirst_of_neutral [IsStrictOrderedRing K] {hit : VectorRecord F → SearchHit K}
    (untied : Untied close c request) (ids : ∀ r, (hit r).id = r.id)
    (scores : ∀ r, (hit r).score = 1 - close r)
    (neutral : Neutral close (request.threshold svc.config) (candidates close svc request c)) :
    BestFirst close c (assemble svc request (select svc request
      ((candidates close svc request c).map hit))) := by
  rcases select_of_neutral untied scores neutral with nothing | ⟨r, mem, one⟩
  · rw [nothing]
    exact ⟨[], rfl, fun p mem => (nomatch mem), List.Pairwise.nil, fun p mem => (nomatch mem)⟩
  · rw [one]
    refine ⟨[(r, toChunk (hit r))], rfl, fun p here => ?_, List.pairwise_singleton _ _,
      fun p here p' there less => ?_⟩
    · rw [List.mem_singleton.mp here]
      exact ⟨(mem_candidates mem).1, ids r⟩
    · rw [List.mem_singleton.mp here, List.mem_singleton.mp there] at less
      exact absurd less (lt_irrefl _)

/-- Under the cosine metric, with filters that reach the same records and no ties, both
stores lead to the same records and scores, best first, just when the candidates are
neutral. -/
theorem retrievals_same_iff [IsStrictOrderedRing K]
    (cosine : config.metricType.map Char.toUpper = "COSINE".toList)
    (reached : ∀ q ∈ request.queries, Agree escapes q c.records)
    (untied : Untied (closeness similarity svc request) c request) :
    SameRetrieval (closeness similarity svc request) c
        (retrieve svc (MilvusStore.search escapes similarity config c) request)
        (retrieve svc (ChromaStore.search similarity c) request) ↔
      Neutral (closeness similarity svc request) (request.threshold svc.config)
        (candidates (closeness similarity svc request) svc request c) := by
  have milvus := retrieve_returned svc request
    (fun q mem k => milvus_search similarity config (reached q mem)
      (svc.embedQuery request.question) k) fun r _ => ⟨rfl, rfl⟩
  have chroma := retrieve_returned svc request
    (fun q mem k => chroma_search similarity (reached q mem)
      (svc.embedQuery request.question) k) fun r stored => chromaHit_owner stored
  have agreed := returned_eq_iff svc untied
    (fun r => ⟨(rfl : (milvusHit config.metricType (closeness similarity svc request) r).id = r.id),
      (rfl : (chromaHit (closeness similarity svc request) r).id = r.id)⟩)
    fun r => ⟨milvusHit_score cosine r, chromaHit_score r⟩
  rw [← agreed, milvus, chroma]
  constructor
  · intro both
    exact Except.ok.inj both.same
  · intro same
    refine ⟨congrArg Except.ok same, fun result returns => ?_⟩
    rw [← Except.ok.inj returns]
    exact bestFirst_of_neutral untied (fun _ => rfl) (milvusHit_score cosine) (agreed.mp same)

def dot (u v : List ℚ) : ℚ := (List.zipWith (fun a b => a * b) u v).sum

def slide (id : String) (vector : List ℚ) : VectorRecord ℚ where
  id := id.toList
  resourceID := "lecture".toList
  userID := "alice".toList
  text := "slide".toList
  vector := vector
  metadata := []
  createdAt := 0

def axisService : RetrievalService ℚ ℚ where
  embedQuery := fun _ => [1, 0, 0, 0]
  count := List.length
  sha1 := id
  build := fun _ question => question
  config := ⟨5, 7 / 10, 4096⟩

def lectureRequest (scoreThreshold : Option ℚ) : RetrievalRequest ℚ where
  question := "What is on the slide?".toList
  userID := "alice".toList
  resourceIDs := ["lecture".toList]
  scoreThreshold := scoreThreshold
  topK_pos := defaultTopK_pos

def halfCollection : Collection ℚ where
  records := [slide "half" [1 / 2, 1 / 2, 1 / 2, 1 / 2]]
  distinct := List.nodup_singleton _
  unreserved := by
    intro r mem key _
    rw [List.mem_singleton.mp mem]
    exact List.not_mem_nil

def axisCollection : Collection ℚ where
  records := [slide "along" [1, 0, 0, 0], slide "across" [0, 1, 0, 0]]
  distinct := by decide
  unreserved := by
    intro r mem key _
    simp only [List.mem_cons, List.not_mem_nil, or_false] at mem
    rcases mem with rfl | rfl
    · exact List.not_mem_nil
    · exact List.not_mem_nil

theorem lecture_expressible :
    Expressible ((lectureRequest none).scope ["lecture".toList]) ownKeys where
  plain := plain_of_all (((lectureRequest none).scope ["lecture".toList]).values) (by decide)
  listed := by decide
  named := fun _ same => nomatch same
  ownResource := fun _ _ own => own.1
  ownUser := fun _ _ own => own.2

theorem lecture_reached (scoreThreshold : Option ℚ) (c : Collection ℚ) :
    ∀ q ∈ (lectureRequest scoreThreshold).queries, Agree cEscapes q c.records := by
  intro q mem
  obtain rfl : q = (lectureRequest none).scope ["lecture".toList] := List.mem_singleton.mp mem
  refine agree_of_carried lecture_expressible fun r stored => ?_
  exact ⟨c.unreserved r stored "resource_id" (by decide),
    c.unreserved r stored "user_id" (by decide)⟩

theorem retrievals_same_half :
    SameRetrieval (closeness dot axisService (lectureRequest (some (1 / 2)))) halfCollection
      (retrieve axisService (MilvusStore.search cEscapes dot {} halfCollection)
        (lectureRequest (some (1 / 2))))
      (retrieve axisService (ChromaStore.search dot halfCollection)
        (lectureRequest (some (1 / 2)))) :=
  (retrievals_same_iff rfl (lecture_reached _ _)
    ((List.pairwise_singleton _ _).sublist List.filter_sublist)).mpr
    (Or.inr ⟨slide "half" [1 / 2, 1 / 2, 1 / 2, 1 / 2],
      fun _ mem => List.mem_singleton.mp (mem_candidates mem).1, by decide +kernel,
      by decide +kernel⟩)

/-- One store leads to the slide across the question, the other to the slide along it,
each with the score one. -/
theorem axis_retrievals_differ :
    (retrieve axisService (MilvusStore.search cEscapes dot {} axisCollection)
        (lectureRequest none)).map entries = .ok [("across".toList, 1)] ∧
      (retrieve axisService (ChromaStore.search dot axisCollection) (lectureRequest none)).map
        entries = .ok [("along".toList, 1)] := by
  have milvus := retrieve_returned axisService (lectureRequest none)
    (fun q mem k => milvus_search dot {}
      (lecture_reached none axisCollection q mem)
      (axisService.embedQuery (lectureRequest none).question) k) fun r _ => ⟨rfl, rfl⟩
  have chroma := retrieve_returned axisService (lectureRequest none)
    (fun q mem k => chroma_search dot (lecture_reached none axisCollection q mem)
      (axisService.embedQuery (lectureRequest none).question) k) fun r stored =>
        chromaHit_owner stored
  rw [milvus, chroma]
  constructor
  · refine congrArg Except.ok ?_
    decide +kernel
  · refine congrArg Except.ok ?_
    decide +kernel

end KnowledgeCompanion.BackendRankings
