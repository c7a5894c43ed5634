import KnowledgeCompanion.HybridRetrieval
import KnowledgeCompanion.VectorStore

/-! The cached BM25 indexes beside a store that changes: upserts and deletes of other
workers in any order with the requests of one process. -/

namespace KnowledgeCompanion.RetrievalCache

open RetrievalModels ApiExceptions Bm25 ReadThroughCache HybridRetrieval VectorIndexing

variable {F : Type}

/-- A request with what the services around it do; `fault` is what the store raises when
the corpus is loaded. -/
structure Call (F : Type) where
  request : HybridRetrievalRequest
  io : RetrievalIO F
  fault : Option Raised

namespace Call

def reading (topKLimit : ℕ) (store : Store F) (call : Call F) : RetrievalIO F :=
  { call.io with
    query := fun filters limit =>
      match call.fault with
      | some e => .error e
      | none => .ok (VectorStore.query topKLimit store filters limit) }

def filters (call : Call F) : Filters := call.request.filters

def SameScope (a b : Call F) : Prop :=
  a.filters.userID = b.filters.userID ∧ a.filters.resourceIDs.Perm b.filters.resourceIDs

end Call

structure World (F : Type) where
  store : Store F
  cache : Bm25Cache

inductive Event (F : Type)
  | upsert (records : List (VectorRecord F))
  | delete (resourceID : Text) (userID : Option Text)
  | retrieve (call : Call F)

/-- The service over a store that returns at most `topKLimit` rows. -/
structure Deployment where
  service : HybridRetrievalService
  topKLimit : ℕ

def step (d : Deployment) (w : World F) : Event F → World F
  | .upsert records => { w with store := VectorStore.upsert w.store records }
  | .delete resourceID userID =>
    { w with store := VectorStore.deleteByResource w.store resourceID userID }
  | .retrieve call =>
    { w with
      cache := (retrieve d.service (call.reading d.topKLimit w.store) w.cache call.request).2 }

def run (d : Deployment) (store : Store F) (events : List (Event F)) : World F :=
  events.foldl (step d) ⟨store, []⟩

def usedHits (d : Deployment) (w : World F) (call : Call F) : Except Raised (List SearchResult) :=
  (bm25Path d.service (call.reading d.topKLimit w.store) w.cache call.request).1

def freshHits (d : Deployment) (store : Store F) (call : Call F) :
    Except Raised (List SearchResult) :=
  match buildBm25 d.service ({ call with fault := none }.reading d.topKLimit store) call.filters
      d.service.config.bm25MaxDocs with
  | .error e => .error e
  | .ok index =>
    .ok (Bm25.search d.service.libraries index call.request.1.question
      (resolveParams d.service.config call.request).rerankTopN call.filters)

def Transparent (d : Deployment) (store : Store F) (events : List (Event F)) : Prop :=
  ∀ before call after hits, events = before ++ .retrieve call :: after →
    usedHits d (run d store before) call = .ok hits →
      freshHits d (run d store before).store call = .ok hits

def Served (d : Deployment) (w : World F) (call : Call F) : Prop :=
  d.service.config.bm25CacheIndex = true ∧
    (lookup (bm25CacheKey call.filters) w.cache).isSome = true

/-- The index of the call is built by the call itself after `earlier`, or it was built by
the request at the head of `later` and has been in the cache since. -/
def LastBuilt (d : Deployment) (store : Store F) (earlier later : List (Event F))
    (call : Call F) : Prop :=
  (later = [] ∧ ¬ Served d (run d store earlier) call) ∨
    ∃ builder rest, later = .retrieve builder :: rest ∧ builder.SameScope call ∧
      ¬ Served d (run d store earlier) builder ∧
      ∀ mid, mid <+: rest → Served d (run d store (earlier ++ .retrieve builder :: mid)) call

def Separated (events : List (Event F)) : Prop :=
  ∀ a b, .retrieve a ∈ events → .retrieve b ∈ events →
    bm25CacheKey a.filters = bm25CacheKey b.filters → a.SameScope b

/-- A score with the signs of the Okapi ones: each token counts for a document as often as
it stands there, times the documents without it less those with it. -/
def countedScores (corpus : List (List Text)) : Option (List Text → ℕ → ℚ) :=
  if corpus.all List.isEmpty then none
  else some fun tokens i =>
    tokens.foldl (fun score token =>
      let containing := (corpus.filter fun doc => token ∈ doc).length
      score + ((corpus[i]?.getD []).count token : ℚ) * (corpus.length - 2 * containing)) 0

def smallDeployment : Deployment where
  service := ⟨{ bm25Tokenizer := "whitespace".toList }, ⟨fun text => [text], countedScores⟩⟩
  topKLimit := 100

def quietServices : RetrievalIO ℚ where
  query _ _ := .ok []
  embedQuery _ := .ok []
  search _ _ _ := .ok []
  predict _ := none
  clock _ := 0
  search_scoped _ _ _ _ found := scoped_nil found

def record (id resourceID text : String) : VectorRecord ℚ :=
  ⟨id.toList, resourceID.toList, "user-1".toList, text.toList, [], [], 0⟩

def threeRecords : List (VectorRecord ℚ) :=
  [record "res-1-0" "res-1" "alpha", record "res-1-1" "res-1" "beta",
    record "res-2-0" "res-2" "gamma"]

def asking (question : String) (resourceIDs : List String)
    (valid : accepted ⟨question.toList, "user-1".toList, resourceIDs.map String.toList,
      none, none, none, none, none, none, none⟩ = true) : Call ℚ :=
  ⟨⟨_, valid⟩, quietServices, none⟩

def askAlpha : Call ℚ := asking "alpha" ["res-1", "res-2"] (by decide)

def askDelta : Call ℚ := asking "delta" ["res-1", "res-2"] (by decide)

def askJoined : Call ℚ := asking "alpha" ["res-1,res-2"] (by decide)

def deletedRun : List (Event ℚ) :=
  [.upsert threeRecords, .retrieve askAlpha, .delete "res-1".toList none, .retrieve askAlpha]

def updatedRun : List (Event ℚ) :=
  [.upsert threeRecords, .retrieve askAlpha, .upsert [record "res-2-1" "res-2" "delta"],
    .retrieve askDelta]

def joinedRun : List (Event ℚ) :=
  [.upsert threeRecords, .upsert [record "c-0" "res-1,res-2" "alpha",
    record "c-1" "res-1,res-2" "beta", record "c-2" "res-1,res-2" "gamma"],
    .retrieve askAlpha, .retrieve askJoined]

def alphaHit : List SearchResult :=
  [{ toSearchResult .bm25 (VectorStore.rowToResult (record "res-1-0" "res-1" "alpha")) with
    score := 1 }]

/-- A deleted chunk is still found, a new one is missed, and the index of another scope
is served. -/
theorem cache_not_transparent :
    ¬ Transparent smallDeployment [] deletedRun ∧ ¬ Transparent smallDeployment [] updatedRun ∧
      ¬ Transparent smallDeployment [] joinedRun := by
  refine ⟨fun clear => ?_, fun clear => ?_, fun clear => ?_⟩
  · have fresh := clear (deletedRun.take 3) askAlpha [] alphaHit rfl (by decide +kernel)
    exact absurd fresh (by decide +kernel)
  · have fresh := clear (updatedRun.take 3) askDelta [] [] rfl (by decide +kernel)
    exact absurd fresh (by decide +kernel)
  · have fresh := clear (joinedRun.take 3) askJoined [] [] rfl (by decide +kernel)
    exact absurd fresh (by decide +kernel)

theorem deletedRun_separated : Separated deletedRun := by
  have only (c : Call ℚ) (mem : Event.retrieve c ∈ deletedRun) : c = askAlpha := by
    simpa [deletedRun] using mem
  intro a b first second _
  rw [only a first, only b second]
  exact ⟨rfl, .refl _⟩

def design (d : Deployment) : Design (Store F) (Call F) Text Bm25Store Raised where
  key call := bm25CacheKey call.filters
  build store call :=
    buildBm25 d.service (call.reading d.topKLimit store) call.filters d.service.config.bm25MaxDocs
  enabled := d.service.config.bm25CacheIndex
  maxEntries := d.service.config.bm25CacheMaxEntries
  exhausted := .other

def toEvent : Event F → ReadThroughCache.Event (Store F) (Call F)
  | .upsert records => .change fun store => VectorStore.upsert store records
  | .delete resourceID userID =>
    .change fun store => VectorStore.deleteByResource store resourceID userID
  | .retrieve call => .ask call

theorem getOrBuildBm25_eq (d : Deployment) (store : Store F) (cache : Bm25Cache) (call : Call F) :
    getOrBuildBm25 d.service (call.reading d.topKLimit store) cache call.request.filters
      (resolveParams d.service.config call.request) = access (design d) store cache call := by
  rw [getOrBuildBm25_access]
  rfl

theorem bm25Path_access (d : Deployment) (store : Store F) (cache : Bm25Cache) (call : Call F) :
    (bm25Path d.service (call.reading d.topKLimit store) cache call.request).2 =
      (access (design d) store cache call).2 := by
  rw [bm25Path_cache, getOrBuildBm25_eq]

theorem usedHits_ok {d : Deployment} {w : World F} {call : Call F} {hits : List SearchResult}
    (used : usedHits d w call = .ok hits) :
    ∃ index, (access (design d) w.store w.cache call).1 = .ok index ∧
      hits = Bm25.search d.service.libraries index call.request.1.question
        (resolveParams d.service.config call.request).rerankTopN call.filters := by
  rw [← getOrBuildBm25_eq]
  unfold usedHits bm25Path at used
  dsimp only at used
  split at used
  · cases used
  · rename_i index cache got
    exact ⟨index, by rw [got], (Except.ok.inj used).symm⟩

theorem run_eq (d : Deployment) (store : Store F) (events : List (Event F)) :
    (run d store events).store =
        (ReadThroughCache.run (design d) ⟨store, []⟩ (events.map toEvent)).source ∧
      (run d store events).cache =
        (ReadThroughCache.run (design d) ⟨store, []⟩ (events.map toEvent)).entries := by
  induction events using List.reverseRecOn with
  | nil => exact ⟨rfl, rfl⟩
  | append_singleton events e ih =>
    obtain ⟨stores, caches⟩ := ih
    have next : run d store (events ++ [e]) = step d (run d store events) e := by
      rw [run, run, List.foldl_append, List.foldl_cons, List.foldl_nil]
    rw [next, List.map_append, List.map_cons, List.map_nil, ReadThroughCache.run_snoc]
    cases e with
    | upsert records => exact ⟨congrArg (VectorStore.upsert · records) stores, caches⟩
    | delete resourceID userID =>
      exact ⟨congrArg (VectorStore.deleteByResource · resourceID userID) stores, caches⟩
    | retrieve call =>
      refine ⟨stores, ?_⟩
      have path := bm25Path_access d (run d store events).store (run d store events).cache call
      rw [stores, caches] at path
      change (bm25Path d.service (call.reading d.topKLimit (run d store events).store)
        (run d store events).cache call.request).2 = _
      rw [stores, caches, path]
      rfl

theorem served_iff {d : Deployment} {store : Store F} {events : List (Event F)} {call : Call F} :
    Served d (run d store events) call ↔
      Cached (design d) (ReadThroughCache.run (design d) ⟨store, []⟩ (events.map toEvent))
        call := by
  rw [Served, (run_eq d store events).2]
  rfl

theorem build_scope {d : Deployment} {store : Store F} {a b : Call F} {index : Bm25Store}
    (same : a.SameScope b) (built : (design d).build store a = .ok index) :
    buildBm25 d.service ({ b with fault := none }.reading d.topKLimit store) b.filters
      d.service.config.bm25MaxDocs = .ok index := by
  have rows := @VectorStore.query_perm F d.topKLimit store _ _ d.service.config.bm25MaxDocs
    same.1 same.2
  cases faulty : a.fault with
  | some e => simp [design, buildBm25, loadCorpus, Call.reading, faulty] at built
  | none =>
    rw [← built]
    simp only [design, buildBm25, loadCorpus, Call.reading, faulty, rows]

/-- The hits of a request are those of the index that was built last for its scope. -/
theorem hits_of_lastBuild {d : Deployment} {store : Store F} {events : List (Event F)}
    (separated : Separated events) {before after : List (Event F)} {call : Call F}
    {hits : List SearchResult} (split : events = before ++ .retrieve call :: after)
    (used : usedHits d (run d store before) call = .ok hits) :
    ∃ earlier later, before = earlier ++ later ∧ LastBuilt d store earlier later call ∧
      freshHits d (run d store earlier).store call = .ok hits := by
  obtain ⟨index, got, found⟩ := usedHits_ok used
  rw [(run_eq d store before).1, (run_eq d store before).2] at got
  obtain ⟨front, back, builder, parts, last, built⟩ := access_lastBuild got
  obtain ⟨earlier, later, whole, fronts, backs⟩ := List.map_eq_append_iff.mp parts
  rw [← fronts, ← (run_eq d store earlier).1] at built
  have fresh (same : builder.SameScope call) :
      freshHits d (run d store earlier).store call = .ok hits := by
    rw [freshHits, build_scope same built, found]
  refine ⟨earlier, later, whole, ?_⟩
  rcases last with ⟨none, rfl, missing⟩ | ⟨key, missing, rest, first, since⟩
  · rw [none] at backs
    rw [← fronts, ← served_iff] at missing
    exact ⟨.inl ⟨List.map_eq_nil_iff.mp backs, missing⟩, fresh ⟨rfl, .refl _⟩⟩
  · rw [first] at backs
    obtain ⟨e, tail, cut, head, tails⟩ := List.map_eq_cons_iff.mp backs
    have asked : e = .retrieve builder := by
      cases e with
      | upsert records => cases head
      | delete resourceID userID => cases head
      | retrieve other => rw [ReadThroughCache.Event.ask.inj head]
    have there : Event.retrieve builder ∈ events := by
      simp [split, whole, cut, asked]
    have here : Event.retrieve call ∈ events := by simp [split]
    have same := separated builder call there here key
    rw [← fronts, ← served_iff] at missing
    refine ⟨.inr ⟨builder, tail, by rw [cut, asked], same, missing, ?_⟩, fresh same⟩
    intro mid before
    rw [served_iff, List.map_append, fronts]
    refine since (mid.map toEvent) ?_
    rw [← tails]
    exact before.map toEvent

theorem hits_of_lastBuild_deletedRun :
    ∃ earlier later, deletedRun.take 3 = earlier ++ later ∧
      LastBuilt smallDeployment [] earlier later askAlpha ∧
      freshHits smallDeployment (run smallDeployment [] earlier).store askAlpha = .ok alphaHit :=
  hits_of_lastBuild deletedRun_separated
    (show deletedRun = deletedRun.take 3 ++ [.retrieve askAlpha] from rfl) (by decide +kernel)

end KnowledgeCompanion.RetrievalCache
