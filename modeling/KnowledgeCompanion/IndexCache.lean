import KnowledgeCompanion.RetrievalCache

/-! The cache of BM25 indexes over the requests of one process: which keys it holds after each
of them, and which index each of them is served. -/

namespace KnowledgeCompanion.IndexCache

open RetrievalModels ApiExceptions Bm25 ReadThroughCache HybridRetrieval

variable {F : Type}

structure Ask (F : Type) where
  request : HybridRetrievalRequest
  io : RetrievalIO F

namespace Ask

def filters (a : Ask F) : Filters := a.request.filters

def key (a : Ask F) : Text := bm25CacheKey a.filters

def SameScope (a b : Ask F) : Prop :=
  a.filters.userID = b.filters.userID ∧ a.filters.resourceIDs.Perm b.filters.resourceIDs

end Ask

def Separated (asks : List (Ask F)) : Prop :=
  ∀ a ∈ asks, ∀ b ∈ asks, a.key = b.key → a.SameScope b

section Runs

variable (svc : HybridRetrievalService)

def step (cache : Bm25Cache) (a : Ask F) : Bm25Cache := (retrieve svc a.io cache a.request).2

def run (asks : List (Ask F)) : Bm25Cache := asks.foldl (step svc) []

def servedIndex (cache : Bm25Cache) (a : Ask F) : Except Raised Bm25Store :=
  (getOrBuildBm25 svc a.io cache a.filters (resolveParams svc.config a.request)).1

def buildFor (a : Ask F) : Except Raised Bm25Store :=
  buildBm25 svc a.io a.filters svc.config.bm25MaxDocs

def servedKeys (cache : Bm25Cache) : List (Ask F) → List Text
  | [] => []
  | a :: asks =>
    match servedIndex svc cache a with
    | .ok _ => a.key :: servedKeys (step svc cache a) asks
    | .error _ => servedKeys (step svc cache a) asks

def bound : ℕ := (max 0 svc.config.bm25CacheMaxEntries).toNat

/-- After every request the cache is within its bound and has the keys used last, oldest use
first; and every request gets an index of a corpus that was loaded for its own scope, by
itself or by an earlier request, unless its own index cannot be built. -/
structure LeastRecentlyUsed (asks : List (Ask F)) : Prop where
  bounded : ∀ before, before <+: asks → (run svc before).length ≤ bound svc
  keys : ∀ before, before <+: asks →
    (run svc before).map Prod.fst = recent (bound svc) (servedKeys svc [] before)
  served : ∀ before a after, asks = before ++ a :: after →
    (∃ index, servedIndex svc (run svc before) a = .ok index ∧
      ∃ b ∈ before ++ [a], b.SameScope a ∧ buildFor svc b = .ok index) ∨
    ∃ e, buildFor svc a = .error e ∧ servedIndex svc (run svc before) a = .error e

end Runs

def design (svc : HybridRetrievalService) : Design Unit (Ask F) Text Bm25Store Raised where
  key := Ask.key
  build _ a := buildFor svc a
  enabled := svc.config.bm25CacheIndex
  maxEntries := svc.config.bm25CacheMaxEntries
  exhausted := .other

theorem getOrBuildBm25_eq (svc : HybridRetrievalService) (cache : Bm25Cache) (a : Ask F) :
    getOrBuildBm25 svc a.io cache a.filters (resolveParams svc.config a.request) =
      access (design svc) () cache a := by
  rw [getOrBuildBm25_access]
  rfl

theorem step_eq (svc : HybridRetrievalService) (cache : Bm25Cache) (a : Ask F) :
    step svc cache a = (access (design svc) () cache a).2 := by
  rw [← getOrBuildBm25_eq]
  exact bm25Path_cache svc a.io cache a.request

theorem servedIndex_eq (svc : HybridRetrievalService) (cache : Bm25Cache) (a : Ask F) :
    servedIndex svc cache a = (access (design svc) () cache a).1 := by
  rw [servedIndex, getOrBuildBm25_eq]

def accesses (asks : List (Ask F)) : List (ReadThroughCache.Event Unit (Ask F)) := asks.map .ask

theorem run_eq (svc : HybridRetrievalService) (asks : List (Ask F)) :
    ReadThroughCache.run (design svc) ⟨(), []⟩ (accesses asks) = ⟨(), run svc asks⟩ := by
  induction asks using List.reverseRecOn with
  | nil => rfl
  | append_singleton asks a ih =>
    have next : run svc (asks ++ [a]) = step svc (run svc asks) a := by
      rw [run, run, List.foldl_append, List.foldl_cons, List.foldl_nil]
    rw [accesses, List.map_append, List.map_cons, List.map_nil, ReadThroughCache.run_snoc]
    rw [accesses] at ih
    rw [ih, next, step_eq]
    rfl

theorem servedKeys_eq (svc : HybridRetrievalService) (cache : Bm25Cache) (asks : List (Ask F)) :
    servedKeys svc cache asks = used (design svc) ⟨(), cache⟩ (accesses asks) := by
  induction asks generalizing cache with
  | nil => rfl
  | cons a asks ih =>
    change _ = used (design svc) ⟨(), cache⟩ (.ask a :: accesses asks)
    rw [servedKeys, used, servedIndex_eq, ih, step_eq]
    cases (access (design svc) () cache a).1 <;> rfl

section Within

variable {svc : HybridRetrievalService}

theorem run_keys (cached : svc.config.bm25CacheIndex = true)
    (nonneg : 0 ≤ svc.config.bm25CacheMaxEntries) (asks : List (Ask F)) :
    (run svc asks).map Prod.fst = recent (bound svc) (servedKeys svc [] asks) := by
  have keys := keys_run (d := design (F := F) svc) cached nonneg () (accesses asks)
  rw [run_eq, ← servedKeys_eq] at keys
  rw [keys, bound, max_eq_right nonneg]
  rfl

theorem served_scope {before : List (Ask F)} {a : Ask F} {index : Bm25Store}
    (separated : Separated (before ++ [a]))
    (got : servedIndex svc (run svc before) a = .ok index) :
    ∃ b ∈ before ++ [a], b.SameScope a ∧ buildFor svc b = .ok index := by
  have here : a ∈ before ++ [a] := List.mem_append_right _ (List.mem_singleton_self a)
  rw [servedIndex_eq] at got
  have answered : (access (design svc)
      (ReadThroughCache.run (design svc) ⟨(), []⟩ (accesses before)).source
      (ReadThroughCache.run (design svc) ⟨(), []⟩ (accesses before)).entries a).1 = .ok index := by
    rw [run_eq]
    exact got
  obtain ⟨earlier, later, b, split, last, built⟩ := access_lastBuild answered
  rcases last with ⟨-, rfl, -⟩ | ⟨key, -, rest, first, -⟩
  · exact ⟨b, here, ⟨rfl, .refl _⟩, built⟩
  · have among : ReadThroughCache.Event.ask b ∈ accesses before := by
      rw [split, first]
      simp
    obtain ⟨c, mem, same⟩ := List.mem_map.mp among
    cases same
    have there : b ∈ before ++ [a] := List.mem_append_left _ mem
    exact ⟨b, there, separated b there a here key, built⟩

theorem lru_of_nonneg (cached : svc.config.bm25CacheIndex = true) {asks : List (Ask F)}
    (separated : Separated asks) (nonneg : 0 ≤ svc.config.bm25CacheMaxEntries) :
    LeastRecentlyUsed svc asks where
  bounded before _ := by
    rw [← List.length_map, run_keys cached nonneg]
    exact length_recent_le _ _
  keys before _ := run_keys cached nonneg before
  served := by
    rintro before a after rfl
    have part : Separated (before ++ [a]) := by
      intro b hb c hc
      have sub : before ++ [a] ⊆ before ++ a :: after := by simp
      exact separated b (sub hb) c (sub hc)
    cases got : servedIndex svc (run svc before) a with
    | ok index => exact .inl ⟨index, rfl, served_scope part got⟩
    | error e =>
      have distinct := nodup_run (design svc) () (accesses before)
      have within : (run svc before).length ≤ svc.config.bm25CacheMaxEntries.toNat := by
        rw [← List.length_map, run_keys cached nonneg, bound, max_eq_right nonneg]
        exact length_recent_le _ _
      rw [run_eq] at distinct
      rw [servedIndex_eq] at got
      rcases access_keys (d := design svc) cached nonneg () a distinct within with
        ⟨v, answered, -⟩ | ⟨e', failed, answered⟩
      · rw [got] at answered
        cases answered
      · rw [answered] at got
        cases got
        exact .inr ⟨e, failed, rfl⟩

theorem run_below_zero (cached : svc.config.bm25CacheIndex = true)
    (negative : svc.config.bm25CacheMaxEntries < 0) (asks : List (Ask F)) : run svc asks = [] := by
  have empty := run_negative (d := design (F := F) svc) cached negative () (accesses asks)
  rwa [run_eq] at empty

theorem served_below_zero (cached : svc.config.bm25CacheIndex = true)
    (negative : svc.config.bm25CacheMaxEntries < 0) (a : Ask F) :
    ∃ e, servedIndex svc [] a = .error e := by
  obtain ⟨e, failed⟩ := access_negative (d := design svc) cached negative () a
  exact ⟨e, by rw [servedIndex_eq, failed]⟩

theorem recent_below_zero (negative : svc.config.bm25CacheMaxEntries < 0) (asks : List (Ask F)) :
    recent (bound svc) (servedKeys svc [] asks) = [] := by
  rw [bound, max_eq_left negative.le]
  exact List.rtake_zero _

theorem lru_of_failing (cached : svc.config.bm25CacheIndex = true)
    (negative : svc.config.bm25CacheMaxEntries < 0) {asks : List (Ask F)}
    (fails : ∀ a ∈ asks, ∃ e, buildFor svc a = .error e) : LeastRecentlyUsed svc asks where
  bounded before _ := by
    rw [run_below_zero cached negative]
    exact Nat.zero_le _
  keys before _ := by
    rw [run_below_zero cached negative, recent_below_zero negative]
    rfl
  served := by
    rintro before a after rfl
    obtain ⟨e, failed⟩ := fails a (by simp)
    refine .inr ⟨e, failed, ?_⟩
    rw [run_below_zero cached negative, servedIndex_eq,
      access_failed (d := design svc) () failed]

/-- Over every run of requests the cache keeps the indexes used last and serves each request
its own scope, exactly when the bound is not negative or no index of the run can be built. -/
theorem lru_iff (cached : svc.config.bm25CacheIndex = true) {asks : List (Ask F)}
    (separated : Separated asks) : LeastRecentlyUsed svc asks ↔
      0 ≤ svc.config.bm25CacheMaxEntries ∨ ∀ a ∈ asks, ∃ e, buildFor svc a = .error e := by
  rcases le_or_gt 0 svc.config.bm25CacheMaxEntries with nonneg | negative
  · exact iff_of_true (lru_of_nonneg cached separated nonneg) (.inl nonneg)
  · constructor
    · refine fun contract => .inr fun a mem => ?_
      obtain ⟨before, after, split⟩ := List.append_of_mem mem
      rcases contract.served before a after split with ⟨index, got, -⟩ | ⟨e, failed, -⟩
      · obtain ⟨e, refused⟩ := served_below_zero cached negative a
        rw [run_below_zero cached negative, refused] at got
        cases got
      · exact ⟨e, failed⟩
    · rintro (nonneg | fails)
      · exact absurd nonneg (not_le.mpr negative)
      · exact lru_of_failing cached negative fails

end Within

def boundedService (max : ℤ) : HybridRetrievalService :=
  ⟨{ bm25Tokenizer := "whitespace".toList, bm25CacheMaxEntries := max },
    RetrievalCache.smallDeployment.service.libraries⟩

def askFor (resourceID : String)
    (valid : accepted ⟨"alpha".toList, "user-1".toList, [resourceID].map String.toList,
      none, none, none, none, none, none, none⟩ = true) : Ask ℚ where
  request := (RetrievalCache.asking "alpha" [resourceID] valid).request
  io := { RetrievalCache.quietServices with
    query := fun _ _ =>
    .ok [VectorStore.rowToResult (RetrievalCache.record "c-0" resourceID "alpha")] }

def askFirst : Ask ℚ := askFor "res-1" (by decide)

def askSecond : Ask ℚ := askFor "res-2" (by decide)

theorem separated_two : Separated [askFirst, askSecond, askFirst] := by
  have apart : askFirst.key ≠ askSecond.key := by decide +kernel
  have either (a : Ask ℚ) (mem : a ∈ [askFirst, askSecond, askFirst]) :
      a = askFirst ∨ a = askSecond := by
    simp only [List.mem_cons, List.not_mem_nil, or_false] at mem
    rcases mem with first | second | first
    · exact .inl first
    · exact .inr second
    · exact .inl first
  intro a ha b hb same
  rcases either a ha with rfl | rfl <;> rcases either b hb with rfl | rfl
  · exact ⟨rfl, .refl _⟩
  · exact absurd same apart
  · exact absurd same.symm apart
  · exact ⟨rfl, .refl _⟩

theorem lru_iff_two : LeastRecentlyUsed (boundedService 1) [askFirst, askSecond, askFirst] :=
  (lru_iff rfl separated_two).mpr (.inl (by decide))

/-- With a bound of -1 a request whose index can be built is not served it. -/
theorem lru_below_zero : Separated [askFirst] ∧
    (boundedService (-1)).config.bm25CacheIndex = true ∧
    (buildFor (boundedService (-1)) askFirst).isOk = true ∧
    ¬ LeastRecentlyUsed (boundedService (-1)) [askFirst] := by
  have builds : (buildFor (boundedService (-1)) askFirst).isOk = true := by decide +kernel
  refine ⟨?_, rfl, builds, fun contract => ?_⟩
  · intro a ha b hb _
    rw [List.mem_singleton.mp ha, List.mem_singleton.mp hb]
    exact ⟨rfl, .refl _⟩
  · rcases contract.served [] askFirst [] rfl with ⟨index, got, -⟩ | ⟨e, failed, -⟩
    · obtain ⟨e, refused⟩ := @served_below_zero _ (boundedService (-1)) rfl (by decide) askFirst
      change servedIndex (boundedService (-1)) [] askFirst = .ok index at got
      rw [refused] at got
      cases got
    · rw [failed] at builds
      cases builds

end KnowledgeCompanion.IndexCache
