import KnowledgeCompanion.ChromaRoundTrip
import KnowledgeCompanion.RetrievalCache

/-! The corpus of a BM25 index as the two stores load it (`_load_corpus` of
`hybrid_retrieval_service.py`, `query` of `milvus_store.py` and `chroma_store.py`): the
limits of the three layers against the number of records in a scope. -/

namespace KnowledgeCompanion.CorpusLoad

open BaseChunker VectorIndexing QuotedScan RetrievalModels ApiExceptions HybridRetrieval
open StoreQueries StoreSelection StoreSearch ChromaFilters ChromaRoundTrip
open RetrievalCache (smallDeployment quietServices)

inductive Backend
  | milvus (escapes : Escapes Char)
  | chroma (conv : Conversions)

/-- The rows that a database answers, at most `limit` of those selected, in an order of its
own; what the limit 0 means is left to it. -/
structure Database (F : Type) where
  get : ℕ → Store F → Store F
  get_mem : ∀ limit rows, ∀ r ∈ get limit rows, r ∈ rows
  get_take : ∀ limit rows, 0 < limit → ∃ order : Store F, order.Perm rows ∧
    get limit rows = order.take limit

variable {F : Type}

namespace Backend

/-- The rows that the filters select; `none` when the database refuses the expression. -/
def selected (backend : Backend) (filters : Filters) (store : Store F) : Option (Store F) :=
  match backend with
  | .milvus escapes => MilvusFilters.selected escapes (ofScope filters) store
  | .chroma _ => some (ChromaFilters.selected (ofScope filters) store)

/-- A row as `query` of the store returns it; `none` when `int` raises. -/
def read (backend : Backend) (r : VectorRecord F) : Option VectorSearchResult :=
  match backend with
  | .milvus _ => some (VectorStore.rowToResult r)
  | .chroma conv =>
    (createdAtOf conv (recordToChromaMetadata r)).map fun createdAt =>
      { id := r.id
        resourceID := textOf conv (recordToChromaMetadata r) "resource_id"
        userID := textOf conv (recordToChromaMetadata r) "user_id"
        text := r.text
        metadata := unreserved (recordToChromaMetadata r)
        score := 0
        createdAt := createdAt }

def query (backend : Backend) (db : Database F) (store : Store F) (filters : Filters)
    (limit : ℕ) : Except Raised (List VectorSearchResult) :=
  match backend.selected filters store with
  | none => .error (.api (vectorStoreUnavailableError "Milvus 操作失败，请重试"))
  | some rows =>
    match (db.get (min limit topKLimit) rows).mapM backend.read with
    | none => .error .other
    | some results => .ok results

def serving (backend : Backend) (db : Database F) (store : Store F) (io : RetrievalIO F) :
    RetrievalIO F :=
  { io with query := backend.query db store }

end Backend

def scope (filters : Filters) (store : Store F) : Store F :=
  store.filter fun r => InScope filters r.userID r.resourceID

/-- The corpus is loaded with every record of the scope, and an index of it holds it whole. -/
def Indexes (svc : HybridRetrievalService) (io : RetrievalIO F) (filters : Filters)
    (store : Store F) : Prop :=
  ∃ docs, loadCorpus io filters svc.config.bm25MaxDocs = .ok docs ∧
    (∀ r ∈ scope filters store, r.id ∈ docs.map SearchResult.chunkID) ∧
    ∀ index, buildBm25 svc io filters svc.config.bm25MaxDocs = .ok index → index.docs = docs

/-- What is selected of the store is readable, has the whole scope and is no longer than what
is loaded of it. -/
structure Loadable (backend : Backend) (filters : Filters) (store : Store F) (limit : ℕ)
    (rows : Store F) : Prop where
  selects : backend.selected filters store = some rows
  whole : ∀ r ∈ scope filters store, r ∈ rows
  fits : scope filters store ≠ [] → rows.length ≤ limit
  readable : ∀ r ∈ rows, (backend.read r).isSome = true

variable {backend : Backend} {db : Database F} {store rows : Store F} {filters : Filters}

theorem read_id {r : VectorRecord F} {result : VectorSearchResult}
    (reads : backend.read r = some result) : result.id = r.id := by
  cases backend with
  | milvus escapes =>
    rw [← Option.some.inj reads]
    rfl
  | chroma conv =>
    obtain ⟨createdAt, -, same⟩ := Option.map_eq_some_iff.mp reads
    rw [← same]

theorem mapM_read_ids {results : List VectorSearchResult}
    (reads : rows.mapM backend.read = some results) :
    results.map VectorSearchResult.id = rows.map VectorRecord.id := by
  induction rows generalizing results with
  | nil =>
    rw [List.mapM_nil] at reads
    rw [← Option.some.inj reads]
    rfl
  | cons r rows ih =>
    cases first : backend.read r with
    | none => simp [first] at reads
    | some result =>
      cases rest : rows.mapM backend.read with
      | none => simp [first, rest] at reads
      | some others =>
        simp only [List.mapM_cons, first, rest, Option.bind_eq_bind, Option.bind_some] at reads
        rw [← Option.some.inj reads, List.map_cons, List.map_cons, ih rest, read_id first]

theorem selected_sublist (selects : backend.selected filters store = some rows) :
    rows.Sublist store := by
  cases backend with
  | milvus escapes =>
    simp only [Backend.selected, MilvusFilters.selected] at selects
    split at selects
    · rw [← Option.some.inj selects]
    · obtain ⟨holds, -, same⟩ := Option.map_eq_some_iff.mp selects
      rw [← same]
      exact List.filter_sublist
  | chroma conv =>
    rw [← Option.some.inj selects]
    exact List.filter_sublist

theorem eq_of_id (distinct : (store.map VectorRecord.id).Nodup) {r r' : VectorRecord F}
    (mem : r ∈ store) (mem' : r' ∈ store) (same : r.id = r'.id) : r = r' :=
  List.inj_on_of_nodup_map distinct mem mem' same

theorem loadCorpus_ok_iff {io : RetrievalIO F} {limit : ℕ} {docs : List SearchResult} :
    loadCorpus (backend.serving db store io) filters limit = .ok docs ↔
      ∃ rows results, backend.selected filters store = some rows ∧
        (db.get (min limit topKLimit) rows).mapM backend.read = some results ∧
        results.map (toSearchResult .bm25) = docs := by
  rw [loadCorpus, Backend.serving]
  cases selects : backend.selected filters store with
  | none => simp [Backend.query, selects]
  | some rows =>
    cases reads : (db.get (min limit topKLimit) rows).mapM backend.read with
    | none => simp [Backend.query, selects, reads]
    | some results => simp [Backend.query, selects, reads]

theorem index_docs {svc : HybridRetrievalService} {io : RetrievalIO F} {limit : ℕ}
    {docs : List SearchResult} (loaded : loadCorpus io filters limit = .ok docs)
    {index : Bm25.Bm25Store} (built : buildBm25 svc io filters limit = .ok index) :
    index.docs = docs := by
  simp only [buildBm25, loaded] at built
  split at built
  · cases built
  · split at built
    · cases built
    · rename_i store _ indexed made
      rw [← Except.ok.inj built]
      simp only [Bm25.index] at made
      split at made
      · rw [← Option.some.inj made]
      · split at made
        · cases made
        · rw [← Option.some.inj made]

theorem docs_ids {page : Store F} {results : List VectorSearchResult}
    (reads : page.mapM backend.read = some results) :
    (results.map (toSearchResult .bm25)).map SearchResult.chunkID = page.map VectorRecord.id := by
  rw [← mapM_read_ids reads, List.map_map]
  rfl

def ordered (order : Store F → Store F) (perm : ∀ rows, (order rows).Perm rows) : Database F where
  get := fun limit rows => if limit = 0 then order rows else (order rows).take limit
  get_mem := by
    intro limit rows r mem
    split at mem
    · exact (perm rows).mem_iff.mp mem
    · exact (perm rows).mem_iff.mp (List.mem_of_mem_take mem)
  get_take := fun limit rows positive =>
    ⟨order rows, perm rows, if_neg (Nat.pos_iff_ne_zero.mp positive)⟩

section Orders

open Classical in
noncomputable def headed (r : VectorRecord F) : Database F :=
  ordered (fun rows => if r ∈ rows then r :: rows.erase r else rows) fun rows => by
    split
    · exact (List.perm_cons_erase ‹_›).symm
    · exact List.Perm.refl rows

open Classical in
noncomputable def tailed (r : VectorRecord F) : Database F :=
  ordered (fun rows => if r ∈ rows then rows.erase r ++ [r] else rows) fun rows => by
    split
    · exact List.perm_append_comm.trans (List.perm_cons_erase ‹_›).symm
    · exact List.Perm.refl rows

theorem mem_headed {r : VectorRecord F} (mem : r ∈ rows) (limit : ℕ) :
    r ∈ (headed r).get limit rows := by
  simp only [headed, ordered, if_pos mem]
  split
  · exact List.mem_cons_self
  · rename_i positive
    obtain ⟨n, rfl⟩ := Nat.exists_eq_succ_of_ne_zero positive
    exact List.mem_cons_self

theorem notMem_tailed {r : VectorRecord F} (distinct : rows.Nodup) (mem : r ∈ rows) {limit : ℕ}
    (positive : limit ≠ 0) (long : limit < rows.length) : r ∉ (tailed r).get limit rows := by
  classical
  have front : limit ≤ (rows.erase r).length := by
    rw [List.length_erase_of_mem mem]
    omega
  simp only [tailed, ordered, if_pos mem, if_neg positive]
  rw [List.take_append_of_le_length front]
  exact fun taken => distinct.not_mem_erase (List.mem_of_mem_take taken)

end Orders

variable {svc : HybridRetrievalService} {io : RetrievalIO F}

theorem indexes_of_loadable
    (loadable : Loadable backend filters store (min svc.config.bm25MaxDocs topKLimit) rows) :
    Indexes svc (backend.serving db store io) filters store := by
  have readable : ∀ r ∈ db.get (min svc.config.bm25MaxDocs topKLimit) rows,
      (backend.read r).isSome = true := fun r mem => loadable.readable r (db.get_mem _ _ r mem)
  obtain ⟨results, reads⟩ := FilterExpression.mapM_isSome readable
  have loaded : loadCorpus (backend.serving db store io) filters svc.config.bm25MaxDocs =
      .ok (results.map (toSearchResult .bm25)) :=
    loadCorpus_ok_iff.mpr ⟨rows, results, loadable.selects, reads, rfl⟩
  refine ⟨_, loaded, fun r mem => ?_, fun index built => index_docs loaded built⟩
  have row := loadable.whole r mem
  have fits := loadable.fits (List.ne_nil_of_mem mem)
  obtain ⟨order, perm, page⟩ := db.get_take _ rows ((List.length_pos_of_mem row).trans_le fits)
  rw [docs_ids reads, page, List.take_of_length_le (perm.length_eq ▸ fits)]
  exact List.mem_map_of_mem (perm.mem_iff.mpr row)

theorem mem_page (distinct : (store.map VectorRecord.id).Nodup)
    (selects : backend.selected filters store = some rows) {limit : ℕ} {docs : List SearchResult}
    (loaded : loadCorpus (backend.serving db store io) filters limit = .ok docs)
    {r : VectorRecord F} (stored : r ∈ store) (mem : r.id ∈ docs.map SearchResult.chunkID) :
    r ∈ db.get (min limit topKLimit) rows := by
  obtain ⟨rows', results, selects', reads, rfl⟩ := loadCorpus_ok_iff.mp loaded
  obtain rfl : rows = rows' := Option.some.inj (selects.symm.trans selects')
  rw [docs_ids reads] at mem
  obtain ⟨r', page, same⟩ := List.mem_map.mp mem
  have stored' := (selected_sublist selects).subset (db.get_mem _ _ r' page)
  rwa [eq_of_id distinct stored stored' same.symm]

theorem loadable_of_indexes (distinct : (store.map VectorRecord.id).Nodup)
    (few : (scope filters store).length ≤ svc.config.bm25MaxDocs)
    (indexed : ∀ db : Database F, Indexes svc (backend.serving db store io) filters store) :
    ∃ rows, Loadable backend filters store (min svc.config.bm25MaxDocs topKLimit) rows := by
  obtain ⟨docs, loaded, complete, -⟩ := indexed (ordered id List.Perm.refl)
  obtain ⟨rows, results, selects, -, -⟩ := loadCorpus_ok_iff.mp loaded
  have inside := selected_sublist selects
  have whole : ∀ r ∈ scope filters store, r ∈ rows := fun r mem =>
    Database.get_mem _ _ _ r (mem_page distinct selects loaded (List.mem_of_mem_filter mem)
      (complete r mem))
  refine ⟨rows, selects, whole, fun some' => ?_, fun r mem => ?_⟩
  · -- a longer selection can leave out a record of the scope
    by_contra long
    obtain ⟨r, mem⟩ := List.exists_mem_of_ne_nil _ some'
    obtain ⟨docs, loaded, complete, -⟩ := indexed (tailed r)
    have page := mem_page distinct selects loaded (List.mem_of_mem_filter mem) (complete r mem)
    have positive : min svc.config.bm25MaxDocs topKLimit ≠ 0 := by
      have length := List.length_pos_of_mem mem
      rw [topKLimit]
      omega
    exact notMem_tailed ((distinct.of_map _).sublist inside) (whole r mem) positive
      (Nat.lt_of_not_le long) page
  · obtain ⟨docs, loaded, -, -⟩ := indexed (headed r)
    obtain ⟨rows', results, selects', reads, -⟩ := loadCorpus_ok_iff.mp loaded
    obtain rfl : rows = rows' := Option.some.inj (selects.symm.trans selects')
    exact (FilterExpression.mapM_some reads).1 r (mem_headed mem _)

/-- Whatever order the database answers in, the index of a scope within the corpus cap has
every record of it exactly when what the store selects is loadable within both limits. -/
theorem indexes_iff (backend : Backend) (svc : HybridRetrievalService) (io : RetrievalIO F)
    (filters : Filters) (store : Store F) (distinct : (store.map VectorRecord.id).Nodup)
    (few : (scope filters store).length ≤ svc.config.bm25MaxDocs) :
    (∀ db : Database F, Indexes svc (backend.serving db store io) filters store) ↔
      ∃ rows, Loadable backend filters store (min svc.config.bm25MaxDocs topKLimit) rows :=
  ⟨loadable_of_indexes distinct few, fun ⟨_, loadable⟩ _ => indexes_of_loadable loadable⟩

def lecturePage (n : ℕ) : VectorRecord ℚ where
  id := [Char.ofNat (19968 + n)]
  resourceID := "lecture".toList
  userID := "7".toList
  text := "alpha".toList
  vector := []
  metadata := []
  createdAt := n

def lectureScope : Filters := ⟨"7".toList, ["lecture".toList]⟩

def threePages : Store ℚ := (List.range 3).map lecturePage

theorem indexes_iff_threePages :
    (threePages.map VectorRecord.id).Nodup ∧
    (scope lectureScope threePages).length ≤ smallDeployment.service.config.bm25MaxDocs ∧
    ∀ db : Database ℚ, Indexes smallDeployment.service
      (Backend.serving (.chroma ⟨fun _ => [], fun _ => none⟩) db threePages
        quietServices) lectureScope threePages :=
  ⟨by decide, by decide, (indexes_iff _ _ _ _ _ (by decide) (by decide)).mpr
    ⟨threePages, {
      selects := rfl
      whole := fun r mem => List.mem_of_mem_filter mem
      fits := by decide
      readable := by decide }⟩⟩

theorem scope_le_of_indexes (distinct : (store.map VectorRecord.id).Nodup)
    (positive : 0 < svc.config.bm25MaxDocs)
    (indexed : Indexes svc (backend.serving db store io) filters store) :
    (scope filters store).length ≤ min svc.config.bm25MaxDocs topKLimit := by
  obtain ⟨docs, loaded, complete, -⟩ := indexed
  obtain ⟨rows, results, selects, reads, rfl⟩ := loadCorpus_ok_iff.mp loaded
  obtain ⟨order, -, page⟩ := db.get_take (min svc.config.bm25MaxDocs topKLimit) rows
    (lt_min positive (by decide))
  rw [docs_ids reads, page] at complete
  have ids : ((scope filters store).map VectorRecord.id).Nodup :=
    distinct.sublist (List.filter_sublist.map _)
  have subset : (scope filters store).map VectorRecord.id ⊆
      (order.take (min svc.config.bm25MaxDocs topKLimit)).map VectorRecord.id := by
    intro id mem
    obtain ⟨r, inScope, rfl⟩ := List.mem_map.mp mem
    exact complete r inScope
  calc (scope filters store).length
      = ((scope filters store).map VectorRecord.id).length := (List.length_map _).symm
    _ ≤ ((order.take (min svc.config.bm25MaxDocs topKLimit)).map VectorRecord.id).length :=
      (ids.subperm subset).length_le
    _ ≤ min svc.config.bm25MaxDocs topKLimit := by
      rw [List.length_map]
      exact List.length_take_le _ _

/-- The index of a scope with 101 records lacks one of them in either store, under a corpus
cap of 1000. -/
theorem long_lecture_not_indexed :
    (scope lectureScope ((List.range 101).map lecturePage)).length = 101 ∧
    smallDeployment.service.config.bm25MaxDocs = 1000 ∧
    ∀ (backend : Backend) (db : Database ℚ), ¬ Indexes smallDeployment.service
      (backend.serving db ((List.range 101).map lecturePage) quietServices)
      lectureScope ((List.range 101).map lecturePage) := by
  have size : (scope lectureScope ((List.range 101).map lecturePage)).length = 101 := by
    decide +kernel
  refine ⟨size, rfl, fun backend db indexed => ?_⟩
  have most := scope_le_of_indexes (by decide +kernel) (by decide) indexed
  rw [size] at most
  exact absurd most (by decide)

end KnowledgeCompanion.CorpusLoad
