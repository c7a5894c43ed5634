import KnowledgeCompanion.VectorIndexing

/-! Indexing a resource again: what a successful indexing leaves in the store, over any
content the store had before (`VectorIndexService` calls itself idempotent). -/

namespace KnowledgeCompanion.VectorReindex

open PythonText BaseChunker Chunking Embeddings ApiExceptions KeyedUpsert VectorIndexing

variable {F : Type}

inductive Content
  | pdf (document : PdfDocument)
  | asr (segments : List AsrSegment)

def index (svc : VectorIndexService F) (io : IndexIO F) (store : Store F)
    (userID resourceID : Text) : Content → Except ApiException ℕ × Store F
  | .pdf document => indexPdf svc io store userID resourceID document
  | .asr segments => indexAsr svc io store userID resourceID segments

def contentChunks (svc : VectorIndexService F) (resourceID : Text) :
    Content → Except ApiException (List Chunk)
  | .pdf document => pdfChunks svc resourceID document
  | .asr segments =>
    let built := buildAsrTextRanges segments
    if isBlank built.1 then .ok []
    else
      (chunk svc.chunking built.1 resourceID [("source_type", .text "audio".toList)]
        svc.strategy).map fun chunks => applyTimeRanges chunks built.2

def solidParts : Content → ℕ
  | .pdf document => (document.pages.filter fun p => !isBlank p.text).length
  | .asr segments => if isBlank (buildAsrTextRanges segments).1 then 0 else 1

def ofResource (resourceID : Text) (store : Store F) : Store F :=
  store.filter fun r => r.resourceID == resourceID

def ofOthers (resourceID : Text) (store : Store F) : Store F :=
  store.filter fun r => r.resourceID != resourceID

def timeless (r : VectorRecord F) : VectorRecord F := { r with createdAt := 0 }

/-- The resource has one record for each chunk and no other, the other resources keep
theirs, and the same indexing again leaves the same records. -/
structure Reindexed (svc : VectorIndexService F) (provider : Provider F)
    (userID resourceID : Text) (content : Content) (chunks : List Chunk)
    (before after : Store F) : Prop where
  exact : ∃ records, records.Perm (ofResource resourceID after) ∧
    List.Forall₂ (Holds userID) records chunks
  others : ofOthers resourceID after = ofOthers resourceID before
  again : ∀ io, io.provider = provider → ∀ n,
    (index svc io after userID resourceID content).1 = .ok n →
      (index svc io after userID resourceID content).2.map timeless = after.map timeless

def OwnedBy (userID resourceID : Text) (store : Store F) : Prop :=
  ∀ r ∈ store, r.resourceID = resourceID → r.userID = userID

def Clashes (resourceID : Text) (chunks : List Chunk) (store : Store F) : Prop :=
  ∃ r ∈ store, r.resourceID ≠ resourceID ∧ r.id ∈ chunks.map Chunk.id

def Fits : Backend → Text → Prop
  | .milvus, text => text.length ≤ textMaxLength
  | .chroma, _ => True

instance (backend : Backend) (text : Text) : Decidable (Fits backend text) := by
  unfold Fits
  split <;> infer_instance

theorem stored_fits (backend : Backend) (r : VectorRecord F) :
    Fits backend (backend.stored r).text := by
  cases backend with
  | milvus => exact List.length_take_le _ _
  | chroma => trivial

theorem stored_of_fits {backend : Backend} {r : VectorRecord F} (fits : Fits backend r.text) :
    backend.stored r = r := by
  cases backend with
  | milvus =>
    have whole : r.text.take textMaxLength = r.text := List.take_of_length_le fits
    rw [Backend.stored, whole]
  | chroma => rfl

theorem index_eq (svc : VectorIndexService F) (io : IndexIO F) (store : Store F)
    (userID resourceID : Text) (content : Content) :
    index svc io store userID resourceID content =
      match contentChunks svc resourceID content with
      | .error e => (.error e, store)
      | .ok chunks => upsertChunks svc io store userID resourceID chunks := by
  cases content with
  | pdf document => rfl
  | asr segments =>
    simp only [index, indexAsr, contentChunks]
    split
    · rfl
    · cases chunk svc.chunking (buildAsrTextRanges segments).1 resourceID
        [("source_type", .text "audio".toList)] svc.strategy <;> rfl

theorem applyTimeRanges_ids (chunks : List Chunk) (ranges : List SegmentRange) :
    (applyTimeRanges chunks ranges).map Chunk.id = chunks.map Chunk.id ∧
      (applyTimeRanges chunks ranges).map Chunk.resourceID = chunks.map Chunk.resourceID := by
  unfold applyTimeRanges
  split
  · exact ⟨rfl, rfl⟩
  · simp only [List.map_map]
    exact ⟨rfl, rfl⟩

theorem pageChunks_resourceID {svc : VectorIndexService F} {resourceID : Text} {totalPages : ℕ}
    {pages : List PdfPage} {chunks : List Chunk}
    (h : pageChunks svc resourceID totalPages pages = .ok chunks) :
    ∀ c ∈ chunks, c.resourceID = resourceID := by
  induction pages generalizing chunks with
  | nil =>
    rw [← Except.ok.inj h]
    exact nofun
  | cons page pages ih =>
    rw [pageChunks] at h
    by_cases blank : isBlank page.text = true
    · rw [if_pos blank] at h
      exact ih h
    · rw [if_neg blank] at h
      split at h
      · cases h
      · rename_i first chunked
        split at h
        · cases h
        · rename_i rest later
          rw [← Except.ok.inj h]
          intro c mem
          rcases List.mem_append.mp mem with here | there
          · exact chunk_resourceID chunked c here
          · exact ih later c there

/-- Each part of the content has its own chunks, numbered from 0. -/
theorem contentChunks_ids {svc : VectorIndexService F} {resourceID : Text} {content : Content}
    {chunks : List Chunk} (h : contentChunks svc resourceID content = .ok chunks) :
    (∃ counts : List ℕ, counts.length = solidParts content ∧ (∀ n ∈ counts, 0 < n) ∧
      chunks.map Chunk.id = counts.flatMap fun n => (List.range n).map (chunkID resourceID)) ∧
    ∀ c ∈ chunks, c.resourceID = resourceID := by
  cases content with
  | pdf document => exact ⟨pageChunks_ids h, pageChunks_resourceID h⟩
  | asr segments =>
    simp only [contentChunks] at h
    by_cases blank : isBlank (buildAsrTextRanges segments).1 = true
    · rw [if_pos blank] at h
      rw [← Except.ok.inj h]
      refine ⟨⟨[], ?_, nofun, rfl⟩, nofun⟩
      simp only [solidParts, blank, if_true, List.length_nil]
    · rw [if_neg blank] at h
      have solid : isBlank (buildAsrTextRanges segments).1 = false := by simpa using blank
      cases chunked : chunk svc.chunking (buildAsrTextRanges segments).1 resourceID
          [("source_type", .text "audio".toList)] svc.strategy with
      | error e =>
        rw [chunked] at h
        cases h
      | ok plain =>
        rw [chunked] at h
        rw [← Except.ok.inj h]
        obtain ⟨ids, resources⟩ := applyTimeRanges_ids plain (buildAsrTextRanges segments).2
        obtain ⟨numbered, some⟩ := chunk_ids chunked
        refine ⟨⟨[plain.length], ?_, ?_, ?_⟩, ?_⟩
        · simp [solidParts, solid]
        · intro n mem
          rw [List.mem_singleton.mp mem]
          exact some solid
        · rw [ids, numbered]
          simp
        · intro c mem
          have listed : c.resourceID ∈ plain.map Chunk.resourceID := by
            rw [← resources]
            exact List.mem_map_of_mem mem
          obtain ⟨c', mem', same⟩ := List.mem_map.mp listed
          rw [← same]
          exact chunk_resourceID chunked c' mem'

theorem contentChunks_nodup_iff {svc : VectorIndexService F} {resourceID : Text}
    {content : Content} {chunks : List Chunk}
    (h : contentChunks svc resourceID content = .ok chunks) :
    (chunks.map Chunk.id).Nodup ↔ solidParts content ≤ 1 := by
  obtain ⟨⟨counts, length, positive, ids⟩, -⟩ := contentChunks_ids h
  rw [ids, counted_nodup_iff positive, length]

theorem contentChunks_eq_nil_iff {svc : VectorIndexService F} {resourceID : Text}
    {content : Content} {chunks : List Chunk}
    (h : contentChunks svc resourceID content = .ok chunks) :
    chunks = [] ↔ solidParts content = 0 := by
  obtain ⟨⟨counts, length, positive, ids⟩, -⟩ := contentChunks_ids h
  rw [← length, List.length_eq_zero_iff, ← List.map_eq_nil_iff (f := Chunk.id), ids]
  cases counts with
  | nil => simp
  | cons n counts =>
    have some := positive n List.mem_cons_self
    simp
    omega

theorem vectorRecords_holds {svc : VectorIndexService F} {io : IndexIO F} {userID : Text}
    {chunks : List Chunk} {records : List (VectorRecord F)}
    (h : vectorRecords svc io userID chunks = .ok records) :
    List.Forall₂ (Holds userID) records chunks := by
  unfold vectorRecords at h
  split at h
  · cases h
  · rename_i embeddings found
    have lengths := congrArg List.length (embed_chunkID found)
    simp only [chunkInputs, List.length_map] at lengths
    rw [← Except.ok.inj h, List.forall₂_iff_get]
    have size : ((chunks.zip embeddings).zipIdx.map fun p =>
        toRecord userID (io.now p.2) p.1.1 p.1.2).length = chunks.length := by
      simp [lengths]
    refine ⟨size, fun i _ below => ?_⟩
    simp only [List.get_eq_getElem, List.getElem_map, List.getElem_zipIdx, List.getElem_zip]
    exact toRecord_holds userID _ _ _

theorem vectorRecords_again {svc : VectorIndexService F} {io io' : IndexIO F} {userID : Text}
    {chunks : List Chunk} {records records' : List (VectorRecord F)}
    (same : io'.provider = io.provider) (first : vectorRecords svc io userID chunks = .ok records)
    (second : vectorRecords svc io' userID chunks = .ok records') :
    records'.map timeless = records.map timeless := by
  unfold vectorRecords at first second
  rw [same] at second
  split at first
  · cases first
  · rename_i embeddings found
    rw [found] at second
    rw [← Except.ok.inj first, ← Except.ok.inj second, List.map_map, List.map_map]
    rfl

theorem forall₂_holds_ids {userID : Text} {records : List (VectorRecord F)} {chunks : List Chunk}
    (h : List.Forall₂ (Holds userID) records chunks) :
    records.map VectorRecord.id = chunks.map Chunk.id := by
  induction h with
  | nil => rfl
  | cons holds rest ih => rw [List.map_cons, List.map_cons, holds.id, ih]

theorem forall₂_holds_owner {userID resourceID : Text} {records : List (VectorRecord F)}
    {chunks : List Chunk} (h : List.Forall₂ (Holds userID) records chunks)
    (resources : ∀ c ∈ chunks, c.resourceID = resourceID) :
    ∀ r ∈ records, r.resourceID = resourceID ∧ r.userID = userID := by
  induction h with
  | nil => exact nofun
  | cons holds rest ih =>
    intro r mem
    rcases List.mem_cons.mp mem with rfl | later
    · exact ⟨holds.resourceID.trans (resources _ List.mem_cons_self), holds.userID⟩
    · exact ih (fun c there => resources c (List.mem_cons_of_mem _ there)) r later

theorem exists_holds {userID : Text} {records : List (VectorRecord F)} {chunks : List Chunk}
    (h : List.Forall₂ (Holds userID) records chunks) {c : Chunk} (mem : c ∈ chunks) :
    ∃ r ∈ records, Holds userID r c := by
  induction h with
  | nil => cases mem
  | cons holds rest ih =>
    rcases List.mem_cons.mp mem with rfl | later
    · exact ⟨_, List.mem_cons_self, holds⟩
    · obtain ⟨r, there, holds'⟩ := ih later
      exact ⟨r, List.mem_cons_of_mem _ there, holds'⟩

theorem stored_ids (backend : Backend) (records : List (VectorRecord F)) :
    (records.map backend.stored).map VectorRecord.id = records.map VectorRecord.id := by
  rw [List.map_map]
  exact List.map_congr_left fun r _ => by cases backend <;> rfl

theorem stored_owner {backend : Backend} {records : List (VectorRecord F)}
    {resourceID userID : Text}
    (owner : ∀ r ∈ records, r.resourceID = resourceID ∧ r.userID = userID) :
    ∀ r ∈ records.map backend.stored, r.resourceID = resourceID ∧ r.userID = userID := by
  refine List.forall_mem_map.mpr fun r mem => ?_
  cases backend <;> exact owner r mem

theorem stored_records {backend : Backend} {userID : Text} {records : List (VectorRecord F)}
    {chunks : List Chunk} (holds : List.Forall₂ (Holds userID) records chunks)
    (fits : ∀ c ∈ chunks, Fits backend c.text) : records.map backend.stored = records := by
  induction holds with
  | nil => rfl
  | cons first rest ih =>
    have here : Fits backend _ := fits _ List.mem_cons_self
    rw [← first.text] at here
    rw [List.map_cons, stored_of_fits here, ih fun c later => fits c (List.mem_cons_of_mem _ later)]

theorem upsertChunks_ok {svc : VectorIndexService F} {io : IndexIO F} {store : Store F}
    {userID resourceID : Text} {chunks : List Chunk} {n : ℕ} (some : chunks ≠ [])
    (h : (upsertChunks svc io store userID resourceID chunks).1 = .ok n) :
    ∃ records, vectorRecords svc io userID chunks = .ok records ∧
      (upsertChunks svc io store userID resourceID chunks).2 =
        putAll VectorRecord.id (deleteByResource store resourceID userID)
          (records.map svc.vectorStore.stored) := by
  unfold upsertChunks at h ⊢
  rw [if_neg some] at h ⊢
  cases passed : vectorRecords svc io userID chunks with
  | error e =>
    rw [passed] at h
    cases h
  | ok records =>
    rw [passed] at h
    dsimp only at h ⊢
    cases noDelete : io.deleteFault with
    | some e =>
      rw [noDelete] at h
      cases h
    | none =>
      rw [noDelete] at h
      dsimp only at h ⊢
      cases noUpsert : io.upsertFault with
      | some e =>
        rw [noUpsert] at h
        cases h
      | none => exact ⟨records, rfl, rfl⟩

theorem deleteByResource_owned {store : Store F} {userID resourceID : Text}
    (owned : OwnedBy userID resourceID store) :
    deleteByResource store resourceID userID = ofOthers resourceID store := by
  refine List.filter_congr fun r mem => ?_
  by_cases mine : r.resourceID = resourceID
  · simp [mine, owned r mem mine]
  · have other : (r.resourceID == resourceID) = false := by simpa using mine
    simp [other, bne]

theorem ofOthers_append (resourceID : Text) (front back : Store F) :
    ofOthers resourceID (front ++ back) = ofOthers resourceID front ++ ofOthers resourceID back :=
  List.filter_append front back

theorem ofResource_append (resourceID : Text) (front back : Store F) :
    ofResource resourceID (front ++ back) =
      ofResource resourceID front ++ ofResource resourceID back :=
  List.filter_append front back

theorem ofOthers_ofOthers (resourceID : Text) (store : Store F) :
    ofOthers resourceID (ofOthers resourceID store) = ofOthers resourceID store := by
  rw [ofOthers, ofOthers, List.filter_filter]
  simp

theorem ofResource_ofOthers (resourceID : Text) (store : Store F) :
    ofResource resourceID (ofOthers resourceID store) = [] := by
  rw [ofResource, ofOthers, List.filter_filter, List.filter_eq_nil_iff]
  simp

theorem ofResource_eq_self {resourceID : Text} {records : Store F}
    (mine : ∀ r ∈ records, r.resourceID = resourceID) : ofResource resourceID records = records :=
  List.filter_eq_self.mpr fun r mem => by simp [mine r mem]

theorem ofOthers_eq_nil {resourceID : Text} {records : Store F}
    (mine : ∀ r ∈ records, r.resourceID = resourceID) : ofOthers resourceID records = [] :=
  List.filter_eq_nil_iff.mpr fun r mem => by simp [mine r mem]

theorem reindexed_of_no_chunks {svc : VectorIndexService F} {io : IndexIO F} {store : Store F}
    {userID resourceID : Text} {content : Content}
    (chunked : contentChunks svc resourceID content = .ok []) :
    Reindexed svc io.provider userID resourceID content [] store
        (index svc io store userID resourceID content).2 ↔
      ofResource resourceID store = [] := by
  have stays (io' : IndexIO F) :
      index svc io' store userID resourceID content = (.ok 0, store) := by
    rw [index_eq, chunked]
    rfl
  rw [stays io]
  constructor
  · intro reindexed
    obtain ⟨records, perm, holds⟩ := reindexed.exact
    rw [List.forall₂_nil_right_iff.mp holds] at perm
    exact List.nil_perm.mp perm
  · intro none
    refine ⟨⟨[], ?_, .nil⟩, rfl, fun io' _ _ _ => ?_⟩
    · rw [none]
    · rw [stays io']

section Records

variable {resourceID : Text} {store : Store F} {chunks : List Chunk}
  {records : List (VectorRecord F)}

theorem apart_of_no_clash (ids : records.map VectorRecord.id = chunks.map Chunk.id)
    (noClash : ¬ Clashes resourceID chunks store) :
    ∀ s ∈ ofOthers resourceID store, ∀ r ∈ records, s.id ≠ r.id := by
  intro s mem r written same
  obtain ⟨there, other⟩ := List.mem_filter.mp mem
  refine noClash ⟨s, there, by simpa using other, ?_⟩
  rw [same, ← ids]
  exact List.mem_map_of_mem written

theorem no_clash_of_others (ids : records.map VectorRecord.id = chunks.map Chunk.id)
    (mine : ∀ r ∈ records, r.resourceID = resourceID)
    (others : ofOthers resourceID (putAll VectorRecord.id (ofOthers resourceID store) records) =
      ofOthers resourceID store) : ¬ Clashes resourceID chunks store := by
  rintro ⟨r, there, other, clash⟩
  have kept : r ∈ ofOthers resourceID store :=
    List.mem_filter.mpr ⟨there, by simpa using other⟩
  rw [← others] at kept
  rcases mem_putAll_cases (List.mem_filter.mp kept).1 with written | ⟨-, apart⟩
  · exact other (mine r written)
  · rw [← ids] at clash
    obtain ⟨r', written, same⟩ := List.mem_map.mp clash
    exact apart r' written same.symm

theorem nodup_of_exact {userID : Text} {rs : List (VectorRecord F)}
    (mine : ∀ r ∈ records, r.resourceID = resourceID)
    (apart : ∀ s ∈ ofOthers resourceID store, ∀ r ∈ records, s.id ≠ r.id)
    (perm : rs.Perm (ofResource resourceID
      (putAll VectorRecord.id (ofOthers resourceID store) records)))
    (stored : List.Forall₂ (Holds userID) rs chunks) : (chunks.map Chunk.id).Nodup := by
  have split := @putAll_append _ _ _ VectorRecord.id [] _ records apart
  rw [List.append_nil] at split
  have inside : ∀ r ∈ putAll VectorRecord.id [] records, r.resourceID = resourceID := by
    intro r mem
    rcases mem_putAll_cases mem with written | ⟨old, -⟩
    · exact mine r written
    · cases old
  rw [split, ofResource_append, ofResource_ofOthers, List.nil_append,
    ofResource_eq_self inside] at perm
  have distinct : ((putAll VectorRecord.id [] records).map VectorRecord.id).Nodup :=
    nodup_putAll List.nodup_nil
  rw [← forall₂_holds_ids stored]
  exact (perm.map VectorRecord.id).nodup_iff.mpr distinct

theorem putAll_replaced {userID : Text} {records' : List (VectorRecord F)}
    (owner : ∀ r ∈ records, r.resourceID = resourceID ∧ r.userID = userID)
    (apart : ∀ s ∈ ofOthers resourceID store, ∀ r ∈ records, s.id ≠ r.id)
    (distinct : (records.map VectorRecord.id).Nodup)
    (ids : records'.map VectorRecord.id = records.map VectorRecord.id) :
    putAll VectorRecord.id
        (deleteByResource (ofOthers resourceID store ++ records) resourceID userID) records' =
      ofOthers resourceID store ++ records' := by
  have owned : OwnedBy userID resourceID (ofOthers resourceID store ++ records) := by
    intro r mem its
    rcases List.mem_append.mp mem with other | written
    · exact absurd its (by simpa using (List.mem_filter.mp other).2)
    · exact (owner r written).2
  have distinct' : (records'.map VectorRecord.id).Nodup := by
    rw [ids]
    exact distinct
  have apart' : ∀ s ∈ ofOthers resourceID store, ∀ r ∈ records', s.id ≠ r.id := by
    intro s mem r written clash
    have listed : r.id ∈ records.map VectorRecord.id := by
      rw [← ids]
      exact List.mem_map_of_mem written
    obtain ⟨r', written', same⟩ := List.mem_map.mp listed
    exact apart s mem r' written' (clash.trans same.symm)
  rw [deleteByResource_owned owned, ofOthers_append, ofOthers_ofOthers,
    ofOthers_eq_nil fun r mem => (owner r mem).1, List.append_nil, putAll_fresh apart' distinct']

theorem fits_of_exact {backend : Backend} {userID : Text} {rs : List (VectorRecord F)}
    (perm : rs.Perm (ofResource resourceID
      (putAll VectorRecord.id (ofOthers resourceID store) (records.map backend.stored))))
    (stored : List.Forall₂ (Holds userID) rs chunks) : ∀ c ∈ chunks, Fits backend c.text := by
  intro c mem
  obtain ⟨r, there, holds⟩ := exists_holds stored mem
  obtain ⟨after, mine⟩ := List.mem_filter.mp (perm.mem_iff.mp there)
  rcases mem_putAll_cases after with written | ⟨old, -⟩
  · obtain ⟨r₀, -, rfl⟩ := List.mem_map.mp written
    exact holds.text ▸ stored_fits backend r₀
  · have other := (List.mem_filter.mp old).2
    rw [beq_iff_eq.mp mine, bne_self_eq_false] at other
    cases other

end Records

theorem reindexed_of_chunks {svc : VectorIndexService F} {io : IndexIO F} {store : Store F}
    {userID resourceID : Text} {content : Content} {chunks : List Chunk} {n : ℕ}
    (owned : OwnedBy userID resourceID store)
    (chunked : contentChunks svc resourceID content = .ok chunks) (some : chunks ≠ [])
    (ok : (index svc io store userID resourceID content).1 = .ok n) :
    Reindexed svc io.provider userID resourceID content chunks store
        (index svc io store userID resourceID content).2 ↔
      (chunks.map Chunk.id).Nodup ∧ ¬ Clashes resourceID chunks store ∧
        ∀ c ∈ chunks, Fits svc.vectorStore c.text := by
  have called (io' : IndexIO F) (s : Store F) : index svc io' s userID resourceID content =
      upsertChunks svc io' s userID resourceID chunks := by
    rw [index_eq, chunked]
  have resources := (contentChunks_ids chunked).2
  rw [called io store] at ok ⊢
  obtain ⟨records, passed, after⟩ := upsertChunks_ok some ok
  have holds := vectorRecords_holds passed
  have ids := forall₂_holds_ids holds
  have owner := forall₂_holds_owner holds resources
  rw [deleteByResource_owned owned] at after
  rw [after]
  constructor
  · intro reindexed
    have ids' := (stored_ids svc.vectorStore records).trans ids
    have mine : ∀ r ∈ records.map svc.vectorStore.stored, r.resourceID = resourceID :=
      fun r mem => (stored_owner owner r mem).1
    have noClash := no_clash_of_others ids' mine reindexed.others
    obtain ⟨rs, perm, stored⟩ := reindexed.exact
    exact ⟨nodup_of_exact mine (apart_of_no_clash ids' noClash) perm stored, noClash,
      fits_of_exact perm stored⟩
  · rintro ⟨distinct, noClash, fits⟩
    have mine : ∀ r ∈ records, r.resourceID = resourceID := fun r mem => (owner r mem).1
    have apart := apart_of_no_clash ids noClash
    rw [← ids] at distinct
    rw [stored_records holds fits, putAll_fresh apart distinct]
    refine ⟨⟨records, ?_, holds⟩, ?_, ?_⟩
    · rw [ofResource_append, ofResource_ofOthers, ofResource_eq_self mine, List.nil_append]
    · rw [ofOthers_append, ofOthers_ofOthers, ofOthers_eq_nil mine, List.append_nil]
    · intro io' same m again
      rw [called io'] at again ⊢
      obtain ⟨records', passed', after'⟩ := upsertChunks_ok some again
      have holds' := vectorRecords_holds passed'
      rw [after', stored_records holds' fits,
        putAll_replaced owner apart distinct ((forall₂_holds_ids holds').trans ids.symm),
        List.map_append, List.map_append, vectorRecords_again same passed passed']

/-- A successful indexing leaves exactly the chunks of the content, touches no other
resource and can be repeated, if and only if at most one part of the content has text,
no record of the resource is there when none has, no other resource has a record under
the id of a chunk, and the store cuts none of the chunks. -/
theorem reindexed_iff {svc : VectorIndexService F} {io : IndexIO F} {store : Store F}
    {userID resourceID : Text} {content : Content} {chunks : List Chunk} {n : ℕ}
    (owned : OwnedBy userID resourceID store)
    (chunked : contentChunks svc resourceID content = .ok chunks)
    (ok : (index svc io store userID resourceID content).1 = .ok n) :
    Reindexed svc io.provider userID resourceID content chunks store
        (index svc io store userID resourceID content).2 ↔
      solidParts content ≤ 1 ∧ (solidParts content = 0 → ofResource resourceID store = []) ∧
        ¬ Clashes resourceID chunks store ∧ ∀ c ∈ chunks, Fits svc.vectorStore c.text := by
  by_cases none : chunks = []
  · have parts : solidParts content = 0 := (contentChunks_eq_nil_iff chunked).mp none
    subst none
    rw [reindexed_of_no_chunks chunked, parts]
    simp [Clashes]
  · have parts : solidParts content ≠ 0 := mt (contentChunks_eq_nil_iff chunked).mpr none
    rw [reindexed_of_chunks owned chunked none ok, contentChunks_nodup_iff chunked]
    simp [parts]

def lectureStore : Store ℕ :=
  ⟨"res-asr-0".toList, "res-asr".toList, userOne, "Hello.".toList, [0, 0], [], 0⟩ ::
    recordsOf onePage

def blankPdf : PdfDocument := ⟨1, [pageOf " "]⟩

def shorterPdf : PdfDocument := ⟨1, [pageOf "One."]⟩

theorem blankPdf_keeps_records :
    OwnedBy userOne lecturePdf lectureStore ∧
    contentChunks mockService lecturePdf (.pdf blankPdf) = .ok [] ∧
    (index mockService mockIO lectureStore userOne lecturePdf (.pdf blankPdf)).1 = .ok 0 ∧
    ¬ Reindexed mockService mockIO.provider userOne lecturePdf (.pdf blankPdf) [] lectureStore
      (index mockService mockIO lectureStore userOne lecturePdf (.pdf blankPdf)).2 := by
  refine ⟨?_, rfl, rfl, fun reindexed => ?_⟩
  · unfold OwnedBy
    decide
  · obtain ⟨records, perm, holds⟩ := reindexed.exact
    have count := perm.length_eq
    rw [List.forall₂_nil_right_iff.mp holds] at count
    revert count
    decide

theorem reindexed_iff_shorterPdf :
    Reindexed mockService mockIO.provider userOne lecturePdf (.pdf shorterPdf)
      (chunksOf shorterPdf) lectureStore
      (index mockService mockIO lectureStore userOne lecturePdf (.pdf shorterPdf)).2 := by
  have owned : OwnedBy userOne lecturePdf lectureStore := by
    unfold OwnedBy
    decide
  have chunked : contentChunks mockService lecturePdf (.pdf shorterPdf) =
      .ok (chunksOf shorterPdf) := rfl
  have ok : (index mockService mockIO lectureStore userOne lecturePdf (.pdf shorterPdf)).1 =
      .ok 1 := rfl
  refine (reindexed_iff owned chunked ok).mpr ⟨by decide, fun none => ?_, ?_, by decide⟩
  · exact absurd none (by decide)
  · unfold Clashes
    decide

end KnowledgeCompanion.VectorReindex
