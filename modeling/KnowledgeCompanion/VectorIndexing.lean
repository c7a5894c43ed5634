import KnowledgeCompanion.Chunking
import KnowledgeCompanion.Embeddings
import KnowledgeCompanion.KeyedUpsert

/-! The indexing of parsed documents (`services/vector_indexing`): chunks of the
pages or of the transcript, their embeddings, and the records that replace those of
the resource in the vector store. -/

namespace KnowledgeCompanion.VectorIndexing

open PythonText BaseChunker Chunking Embeddings ApiExceptions KeyedUpsert

structure PdfPage where
  pageNumber : ℕ
  text : Text
  number_pos : 0 < pageNumber

structure PdfDocument where
  totalPages : ℕ
  pages : List PdfPage

structure AsrSegment where
  start : ℚ
  stop : ℚ
  text : Text

structure VectorRecord (F : Type) where
  id : Text
  resourceID : Text
  userID : Text
  text : Text
  vector : List F
  metadata : Metadata
  createdAt : ℤ

/-- The two backends of `vector_store`. -/
inductive Backend
  | milvus
  | chroma

def textMaxLength : ℕ := 4096

def Backend.stored {F : Type} : Backend → VectorRecord F → VectorRecord F
  | .milvus, r => { r with text := r.text.take textMaxLength }
  | .chroma, r => r

structure VectorIndexService (F : Type) where
  chunking : ChunkingService
  embedding : EmbeddingService F
  strategy : Option Text
  vectorStore : Backend

structure DeleteFault where
  error : ApiException
  deleted : Bool

structure UpsertFault (F : Type) where
  error : ApiException
  written : VectorRecord F → Bool

/-- What the outside world does during one call: the provider's answers, the clock for
each record, and the store's failures and count. -/
structure IndexIO (F : Type) where
  provider : Provider F
  now : ℕ → ℤ
  deleteFault : Option DeleteFault
  upsertFault : Option (UpsertFault F)
  upsertCount : Option ℕ

abbrev Store (F : Type) := List (VectorRecord F)

variable {F : Type}

def toRecord (userID : Text) (now : ℤ) (chunk : Chunk) (embedding : Embedding F) :
    VectorRecord F where
  id := chunk.id
  resourceID := chunk.resourceID
  userID := userID
  text := chunk.text
  vector := embedding.vector
  metadata := chunk.metadata.set "chunk_index" (.int chunk.index)
  createdAt := now

def chunkInputs (chunks : List Chunk) : List ChunkInput :=
  chunks.map fun chunk => ⟨chunk.id, chunk.resourceID, chunk.text⟩

def vectorRecords (svc : VectorIndexService F) (io : IndexIO F) (userID : Text)
    (chunks : List Chunk) : Except ApiException (List (VectorRecord F)) :=
  match embed svc.embedding io.provider (chunkInputs chunks) with
  | .error e => .error e
  | .ok embeddings =>
    .ok ((chunks.zip embeddings).zipIdx.map fun p => toRecord userID (io.now p.2) p.1.1 p.1.2)

def deleteByResource (store : Store F) (resourceID userID : Text) : Store F :=
  store.filter fun r => !(r.resourceID == resourceID && r.userID == userID)

def upsertChunks (svc : VectorIndexService F) (io : IndexIO F) (store : Store F)
    (userID resourceID : Text) (chunks : List Chunk) : Except ApiException ℕ × Store F :=
  if chunks = [] then (.ok 0, store)
  else
    match vectorRecords svc io userID chunks with
    | .error e => (.error e, store)
    | .ok records =>
      let deleted := deleteByResource store resourceID userID
      let data := records.map svc.vectorStore.stored
      match io.deleteFault with
      | some fault => (.error fault.error, if fault.deleted then deleted else store)
      | none =>
        match io.upsertFault with
        | some fault =>
          (.error fault.error, putAll VectorRecord.id deleted (data.filter fault.written))
        | none => (.ok (io.upsertCount.getD records.length), putAll VectorRecord.id deleted data)

def pageMetadata (totalPages : ℕ) (page : PdfPage) : Metadata :=
  [("page", .int page.pageNumber), ("total_pages", .int totalPages),
    ("source_type", .text "pdf".toList)]

def pageChunks (svc : VectorIndexService F) (resourceID : Text) (totalPages : ℕ) :
    List PdfPage → Except ApiException (List Chunk)
  | [] => .ok []
  | page :: pages =>
    if isBlank page.text then pageChunks svc resourceID totalPages pages
    else
      match chunk svc.chunking page.text resourceID (pageMetadata totalPages page)
          svc.strategy with
      | .error e => .error e
      | .ok chunks =>
        match pageChunks svc resourceID totalPages pages with
        | .error e => .error e
        | .ok rest => .ok (chunks ++ rest)

def pdfChunks (svc : VectorIndexService F) (resourceID : Text) (pdf : PdfDocument) :
    Except ApiException (List Chunk) :=
  pageChunks svc resourceID pdf.totalPages pdf.pages

def indexPdf (svc : VectorIndexService F) (io : IndexIO F) (store : Store F)
    (userID resourceID : Text) (pdf : PdfDocument) : Except ApiException ℕ × Store F :=
  match pdfChunks svc resourceID pdf with
  | .error e => (.error e, store)
  | .ok chunks => upsertChunks svc io store userID resourceID chunks

structure SegmentRange where
  start : ℕ
  stop : ℕ
  timeStart : ℚ
  timeEnd : ℚ

/-- The loop over the segments; `joined` says that a text stands before the cursor. -/
def asrTextRanges (joined : Bool) (cursor : ℕ) : List AsrSegment → List (Text × SegmentRange)
  | [] => []
  | segment :: segments =>
    if segment.text = [] then asrTextRanges joined cursor segments
    else
      let start := if joined then cursor + 1 else cursor
      let stop := start + segment.text.length
      (segment.text, ⟨start, stop, segment.start, segment.stop⟩) ::
        asrTextRanges true stop segments

def buildAsrTextRanges (segments : List AsrSegment) : Text × List SegmentRange :=
  let ranges := asrTextRanges false 0 segments
  ([' '].intercalate (ranges.map Prod.fst), ranges.map Prod.snd)

def widen (chunk : Chunk) (times : Option ℚ × Option ℚ) (r : SegmentRange) :
    Option ℚ × Option ℚ :=
  if min chunk.endPos r.stop ≤ max chunk.startPos r.start then times
  else
    (some (times.1.elim r.timeStart fun t => if r.timeStart < t then r.timeStart else t),
      some (times.2.elim r.timeEnd fun t => if t < r.timeEnd then r.timeEnd else t))

def setTime (metadata : Metadata) (key : String) (time : Option ℚ) : Metadata :=
  time.elim metadata fun t => metadata.set key (.time t)

def applyTimeRanges (chunks : List Chunk) (ranges : List SegmentRange) : List Chunk :=
  if ranges = [] then chunks
  else
    chunks.map fun chunk =>
      let times := ranges.foldl (widen chunk) (none, none)
      { chunk with
        metadata := setTime (setTime chunk.metadata "start_time" times.1) "end_time" times.2 }

def indexAsr (svc : VectorIndexService F) (io : IndexIO F) (store : Store F)
    (userID resourceID : Text) (segments : List AsrSegment) : Except ApiException ℕ × Store F :=
  let built := buildAsrTextRanges segments
  -- no segments join to the empty text, which is blank
  if isBlank built.1 then (.ok 0, store)
  else
    match chunk svc.chunking built.1 resourceID [("source_type", .text "audio".toList)]
        svc.strategy with
    | .error e => (.error e, store)
    | .ok chunks =>
      upsertChunks svc io store userID resourceID (applyTimeRanges chunks built.2)

/-- The record stores the chunk. -/
structure Holds (userID : Text) (r : VectorRecord F) (c : Chunk) : Prop where
  id : r.id = c.id
  resourceID : r.resourceID = c.resourceID
  userID : r.userID = userID
  text : r.text = c.text
  metadata : r.metadata = c.metadata.set "chunk_index" (.int c.index)

theorem toRecord_holds (userID : Text) (now : ℤ) (c : Chunk) (e : Embedding F) :
    Holds userID (toRecord userID now c e) c := ⟨rfl, rfl, rfl, rfl, rfl⟩

theorem vectorRecords_ok {svc : VectorIndexService F} {io : IndexIO F} {userID : Text}
    {chunks : List Chunk} {records : List (VectorRecord F)}
    (h : vectorRecords svc io userID chunks = .ok records) :
    records.map VectorRecord.id = chunks.map Chunk.id ∧
      ∀ c ∈ chunks, ∃ r ∈ records, Holds userID r c := by
  unfold vectorRecords at h
  split at h
  · simp at h
  · rename_i embeddings found
    have lengths := congrArg List.length (embed_chunkID found)
    simp only [chunkInputs, List.length_map] at lengths
    have firsts : (chunks.zip embeddings).map Prod.fst = chunks :=
      List.map_fst_zip (Nat.le_of_eq lengths.symm)
    have pairs := List.zipIdx_map_fst 0 (chunks.zip embeddings)
    rw [← Except.ok.inj h]
    refine ⟨?_, ?_⟩
    · have ids : (fun p : (Chunk × Embedding F) × ℕ =>
          (toRecord userID (io.now p.2) p.1.1 p.1.2).id) = Chunk.id ∘ Prod.fst ∘ Prod.fst := by
        funext p
        rfl
      rw [List.map_map]
      change List.map (fun p : (Chunk × Embedding F) × ℕ =>
        (toRecord userID (io.now p.2) p.1.1 p.1.2).id) _ = _
      rw [ids, ← List.map_map, ← List.map_map, pairs, firsts]
    · intro c mem
      rw [← firsts, ← pairs, List.map_map] at mem
      obtain ⟨p, there, same⟩ := List.mem_map.mp mem
      refine ⟨_, List.mem_map_of_mem there, ?_⟩
      rw [← same]
      exact toRecord_holds userID (io.now p.2) p.1.1 p.1.2

/-- Each page that is not blank has its own chunks, numbered from 0. -/
theorem pageChunks_ids {svc : VectorIndexService F} {resourceID : Text} {totalPages : ℕ}
    {pages : List PdfPage} {chunks : List Chunk}
    (h : pageChunks svc resourceID totalPages pages = .ok chunks) :
    ∃ counts : List ℕ, counts.length = (pages.filter fun p => !isBlank p.text).length ∧
      (∀ n ∈ counts, 0 < n) ∧
      chunks.map Chunk.id = counts.flatMap fun n => (List.range n).map (chunkID resourceID) := by
  induction pages generalizing chunks with
  | nil =>
    rw [← Except.ok.inj h]
    exact ⟨[], rfl, by simp, rfl⟩
  | cons page pages ih =>
    rw [pageChunks] at h
    by_cases blank : isBlank page.text = true
    · rw [if_pos blank] at h
      obtain ⟨counts, length, positive, ids⟩ := ih h
      refine ⟨counts, ?_, positive, ids⟩
      rw [List.filter_cons_of_neg (by simp [blank]), length]
    · rw [if_neg blank] at h
      split at h
      · simp at h
      · rename_i first chunked
        split at h
        · simp at h
        · rename_i rest later
          obtain ⟨counts, length, positive, ids⟩ := ih later
          have numbered := chunk_ids chunked
          have solid : isBlank page.text = false := by simpa using blank
          refine ⟨first.length :: counts, ?_, ?_, ?_⟩
          · rw [List.filter_cons_of_pos (by simp [solid]), List.length_cons, List.length_cons,
              length]
          · intro n mem
            rcases List.mem_cons.mp mem with here | there
            · rw [here]
              exact numbered.2 solid
            · exact positive n there
          · rw [← Except.ok.inj h, List.map_append, numbered.1, ids, List.flatMap_cons]

theorem counted_nodup_iff {resourceID : Text} {counts : List ℕ} (positive : ∀ n ∈ counts, 0 < n) :
    (counts.flatMap fun n => (List.range n).map (chunkID resourceID)).Nodup ↔
      counts.length ≤ 1 := by
  have first {n : ℕ} (some : 0 < n) :
      chunkID resourceID 0 ∈ (List.range n).map (chunkID resourceID) :=
    List.mem_map_of_mem (List.mem_range.mpr some)
  match counts, positive with
  | [], _ => simp
  | [n], _ =>
    refine iff_of_true ?_ (Nat.le_refl 1)
    rw [List.flatMap_cons, List.flatMap_nil, List.append_nil]
    exact List.nodup_range.map fun i j same => chunkID_inj same
  | m :: n :: rest, positive =>
    refine iff_of_false ?_ (by simp)
    intro distinct
    rw [List.flatMap_cons, List.flatMap_cons] at distinct
    have apart := (List.nodup_append.mp distinct).2.2
    have here := first (positive m (by simp))
    have there := first (positive n (by simp))
    exact apart _ here _ (List.mem_append_left _ there) rfl

/-- The records have distinct ids, and written by id they store every chunk. -/
structure StoresEvery (userID : Text) (chunks : List Chunk) (records : List (VectorRecord F)) :
    Prop where
  distinct : (records.map VectorRecord.id).Nodup
  stored : ∀ store : Store F, ∀ c ∈ chunks,
    ∃ r ∈ putAll VectorRecord.id store records, Holds userID r c

/-- The records of a document store every chunk exactly when at most one of its pages
is not blank. -/
theorem storesEvery_iff {svc : VectorIndexService F} {io : IndexIO F}
    {userID resourceID : Text} {pdf : PdfDocument} {chunks : List Chunk}
    {records : List (VectorRecord F)} (chunked : pdfChunks svc resourceID pdf = .ok chunks)
    (passed : vectorRecords svc io userID chunks = .ok records) :
    StoresEvery userID chunks records ↔
      (pdf.pages.filter fun p => !isBlank p.text).length ≤ 1 := by
  obtain ⟨counts, length, positive, ids⟩ := pageChunks_ids chunked
  obtain ⟨same, holds⟩ := vectorRecords_ok passed
  rw [← length, ← counted_nodup_iff positive, ← ids, ← same]
  refine ⟨fun h => h.distinct, fun distinct => ⟨distinct, ?_⟩⟩
  intro store c mem
  obtain ⟨r, there, holds⟩ := holds c mem
  exact ⟨r, mem_putAll distinct there, holds⟩

def mockConfig : EmbeddingConfig where
  model := "mock".toList
  batchSize := 64
  maxRetries := 3
  dimensions := 2
  normalize := false
  maxTextChars := 8000
  batch_pos := by decide
  dimensions_pos := by decide
  text_pos := by decide

def mockService : VectorIndexService ℕ where
  chunking := ⟨⟨defaultConfig, List.length⟩, List.map Char.toLower⟩
  embedding := ⟨mockConfig, 0, id⟩
  strategy := none
  vectorStore := .milvus

def mockIO : IndexIO ℕ where
  provider := fun _ _ texts => .ok ((List.range texts.length).map fun i => [i, i])
  now := fun _ => 0
  deleteFault := none
  upsertFault := none
  upsertCount := none

def pageOf (text : String) : PdfPage := ⟨1, text.toList, by decide⟩

def onePage : PdfDocument := ⟨2, [pageOf "One.\n\nTwo.", pageOf " "]⟩

def twoPages : PdfDocument := ⟨2, [pageOf "One.", pageOf "Two."]⟩

def userOne : Text := "user-1".toList

def lecturePdf : Text := "res-pdf".toList

def chunksOf (pdf : PdfDocument) : List Chunk :=
  (pdfChunks mockService lecturePdf pdf).toOption.getD []

def recordsOf (pdf : PdfDocument) : List (VectorRecord ℕ) :=
  (vectorRecords mockService mockIO userOne (chunksOf pdf)).toOption.getD []

theorem storesEvery_one_page :
    (recordsOf onePage).length = 2 ∧
      StoresEvery userOne (chunksOf onePage) (recordsOf onePage) := by
  have chunked : pdfChunks mockService lecturePdf onePage = .ok (chunksOf onePage) := rfl
  have passed : vectorRecords mockService mockIO userOne (chunksOf onePage) =
      .ok (recordsOf onePage) := rfl
  refine ⟨rfl, (storesEvery_iff chunked passed).mpr ?_⟩
  decide

/-- The first chunks of two pages share their id. -/
theorem two_pages_collide :
    pdfChunks mockService lecturePdf twoPages = .ok (chunksOf twoPages) ∧
      vectorRecords mockService mockIO userOne (chunksOf twoPages) = .ok (recordsOf twoPages) ∧
      ¬ StoresEvery userOne (chunksOf twoPages) (recordsOf twoPages) := by
  refine ⟨rfl, rfl, fun every => ?_⟩
  have distinct := every.distinct
  revert distinct
  decide

end KnowledgeCompanion.VectorIndexing
