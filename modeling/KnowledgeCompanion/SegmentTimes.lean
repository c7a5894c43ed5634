import Mathlib.Algebra.Order.Ring.Rat
import Mathlib.Order.Bounds.Basic
import KnowledgeCompanion.TokenWindows
import KnowledgeCompanion.VectorIndexing

/-! Where the segments of a transcript stand in the joined text, and the times that the
chunks of that text get from them (`services/vector_indexing/vector_index_service.py`). -/

namespace KnowledgeCompanion.SegmentTimes

open SpanScan PythonText BaseChunker Chunking ChunkSlices Embeddings ApiExceptions VectorIndexing

variable {F : Type}

theorem slice_middle (front middle back : Text) :
    slice (front ++ (middle ++ back)) front.length (front.length + middle.length) = middle := by
  rw [slice, List.take_length_add_append, List.take_left, List.drop_left]

def joinedFrom (joined : Bool) (parts : List Text) : Text :=
  if joined then parts.flatMap fun part => ' ' :: part else [' '].intercalate parts

theorem joinedFrom_cons (joined : Bool) (part : Text) (parts : List Text) :
    joinedFrom joined (part :: parts) =
      (if joined then [' '] else []) ++ (part ++ joinedFrom true parts) := by
  cases joined with
  | true => simp [joinedFrom]
  | false =>
    induction parts generalizing part with
    | nil => simp [joinedFrom]
    | cons next parts ih =>
      simp only [joinedFrom, Bool.false_eq_true, if_false, if_true, List.flatMap_cons] at ih ⊢
      rw [List.intercalate_cons_cons, ih next]
      simp

theorem asrTextRanges_slices (segments : List AsrSegment) (joined : Bool) (front : Text) :
    let ranges := asrTextRanges joined front.length segments
    ranges.map (fun q => slice (front ++ joinedFrom joined (ranges.map Prod.fst)) q.2.start
      q.2.stop) = ranges.map Prod.fst := by
  induction segments generalizing joined front with
  | nil => rfl
  | cons segment segments ih =>
    dsimp only
    rw [asrTextRanges]
    split
    · exact ih joined front
    · have cursor : (if joined then front.length + 1 else front.length) =
          (front ++ if joined then [' '] else []).length := by
        cases joined <;> simp
      have whole (parts : List Text) :
          front ++ joinedFrom joined (segment.text :: parts) =
            ((front ++ if joined then [' '] else []) ++ segment.text) ++ joinedFrom true parts := by
        rw [joinedFrom_cons]
        simp only [List.append_assoc]
      have rest := ih true ((front ++ if joined then [' '] else []) ++ segment.text)
      rw [List.length_append] at rest
      rw [cursor]
      simp only [List.map_cons, whole]
      rw [rest, List.append_assoc, slice_middle]

theorem asrTextRanges_segments (segments : List AsrSegment) (joined : Bool) (cursor : ℕ) :
    (asrTextRanges joined cursor segments).map
        (fun q => (q.1, q.2.timeStart, q.2.timeEnd)) =
      (segments.filter fun s => s.text ≠ []).map fun s => (s.text, s.start, s.stop) := by
  induction segments generalizing joined cursor with
  | nil => rfl
  | cons segment segments ih =>
    rw [asrTextRanges]
    by_cases empty : segment.text = []
    · rw [if_pos empty, ih, List.filter_cons_of_neg (by simp [empty])]
    · rw [if_neg empty, List.map_cons, ih, List.filter_cons_of_pos (by simp [empty]),
        List.map_cons]

theorem buildAsrTextRanges_segments (segments : List AsrSegment) :
    let built := buildAsrTextRanges segments
    built.2.map (fun r => (slice built.1 r.start r.stop, r.timeStart, r.timeEnd)) =
      (segments.filter fun s => s.text ≠ []).map fun s => (s.text, s.start, s.stop) := by
  have slices := asrTextRanges_slices segments false []
  simp only [joinedFrom, Bool.false_eq_true, if_false, List.nil_append, List.length_nil] at slices
  rw [← asrTextRanges_segments segments false 0]
  simp only [buildAsrTextRanges, List.map_map]
  refine List.map_congr_left fun q mem => ?_
  have here := List.map_eq_map_iff.mp slices q mem
  simp only [Function.comp_apply]
  rw [here]

def Shares (chunk : Chunk) (r : SegmentRange) : Prop :=
  ∃ i j, i < chunk.text.length ∧ r.start + j < r.stop ∧ chunk.startPos + i = r.start + j

def Overlaps (chunk : Chunk) (r : SegmentRange) : Prop :=
  max chunk.startPos r.start < min chunk.endPos r.stop

def timesOf (time : SegmentRange → ℚ) (met : SegmentRange → Prop) (ranges : List SegmentRange) :
    Set ℚ :=
  {t | ∃ r ∈ ranges, met r ∧ time r = t}

def Best (met : SegmentRange → Prop) (seen : List SegmentRange) (times : Option ℚ × Option ℚ) :
    Prop :=
  ((∀ r ∈ seen, ¬ met r) ∧ times = (none, none)) ∨
    ∃ first last, times = (some first, some last) ∧
      IsLeast (timesOf SegmentRange.timeStart met seen) first ∧
        IsGreatest (timesOf SegmentRange.timeEnd met seen) last

theorem widen_not {chunk : Chunk} {r : SegmentRange} (apart : ¬ Overlaps chunk r)
    (times : Option ℚ × Option ℚ) : widen chunk times r = times :=
  if_pos (not_lt.mp apart)

theorem widen_overlaps {chunk : Chunk} {r : SegmentRange} (met : Overlaps chunk r)
    (times : Option ℚ × Option ℚ) :
    widen chunk times r = (some (times.1.elim r.timeStart fun t => min r.timeStart t),
      some (times.2.elim r.timeEnd fun t => max r.timeEnd t)) := by
  rw [widen, if_neg (not_le.mpr met)]
  simp only [min_def_lt, max_comm r.timeEnd, max_def_lt]

theorem timesOf_snoc (time : SegmentRange → ℚ) {met : SegmentRange → Prop}
    (seen : List SegmentRange) {r : SegmentRange} (here : met r) :
    timesOf time met (seen ++ [r]) = insert (time r) (timesOf time met seen) := by
  ext t
  simp only [timesOf, List.mem_append, List.mem_singleton, Set.mem_ofPred_eq, Set.mem_insert_iff]
  constructor
  · rintro ⟨s, old | rfl, held, same⟩
    · exact .inr ⟨s, old, held, same⟩
    · exact .inl same.symm
  · rintro (new | ⟨s, old, held, same⟩)
    · exact ⟨r, .inr rfl, here, new.symm⟩
    · exact ⟨s, .inl old, held, same⟩

theorem timesOf_snoc_not (time : SegmentRange → ℚ) {met : SegmentRange → Prop}
    (seen : List SegmentRange) {r : SegmentRange} (apart : ¬ met r) :
    timesOf time met (seen ++ [r]) = timesOf time met seen := by
  ext t
  simp only [timesOf, List.mem_append, List.mem_singleton, Set.mem_ofPred_eq]
  constructor
  · rintro ⟨s, old | rfl, held, same⟩
    · exact ⟨s, old, held, same⟩
    · exact absurd held apart
  · rintro ⟨s, old, held, same⟩
    exact ⟨s, .inl old, held, same⟩

theorem timesOf_none (time : SegmentRange → ℚ) {met : SegmentRange → Prop}
    {seen : List SegmentRange} (none : ∀ r ∈ seen, ¬ met r) : timesOf time met seen = ∅ := by
  ext t
  refine iff_of_false ?_ (Set.notMem_empty t)
  rintro ⟨r, mem, held, -⟩
  exact none r mem held

theorem best_widen {chunk : Chunk} {seen : List SegmentRange} {times : Option ℚ × Option ℚ}
    (best : Best (Overlaps chunk) seen times) (r : SegmentRange) :
    Best (Overlaps chunk) (seen ++ [r]) (widen chunk times r) := by
  by_cases met : Overlaps chunk r
  · rw [widen_overlaps met]
    refine .inr ?_
    rw [timesOf_snoc _ seen met, timesOf_snoc _ seen met]
    rcases best with ⟨none, rfl⟩ | ⟨first, last, rfl, least, greatest⟩
    · rw [timesOf_none _ none, timesOf_none _ none]
      exact ⟨r.timeStart, r.timeEnd, rfl, by simp, by simp⟩
    · exact ⟨_, _, rfl, least.insert r.timeStart, greatest.insert r.timeEnd⟩
  · rw [widen_not met]
    rcases best with ⟨none, same⟩ | ⟨first, last, same, least, greatest⟩
    · refine .inl ⟨fun s mem => ?_, same⟩
      rcases List.mem_append.mp mem with old | new
      · exact none s old
      · rwa [List.mem_singleton.mp new]
    · refine .inr ⟨first, last, same, ?_⟩
      rw [timesOf_snoc_not _ seen met, timesOf_snoc_not _ seen met]
      exact ⟨least, greatest⟩

theorem best_fold (chunk : Chunk) (ranges : List SegmentRange) :
    Best (Overlaps chunk) ranges (ranges.foldl (widen chunk) (none, none)) := by
  have run (seen rest : List SegmentRange) (times : Option ℚ × Option ℚ)
      (best : Best (Overlaps chunk) seen times) :
      Best (Overlaps chunk) (seen ++ rest) (rest.foldl (widen chunk) times) := by
    induction rest generalizing seen times with
    | nil => rwa [List.append_nil]
    | cons r rest ih =>
      have next := ih (seen ++ [r]) _ (best_widen best r)
      rwa [List.append_assoc] at next
  exact run [] ranges (none, none) (.inl ⟨by simp, rfl⟩)

theorem asrTextRanges_stop {segments : List AsrSegment} {joined : Bool} {cursor : ℕ} :
    ∀ q ∈ asrTextRanges joined cursor segments,
      q.2.stop = q.2.start + q.1.length ∧ q.1 ≠ [] := by
  induction segments generalizing joined cursor with
  | nil => simp [asrTextRanges]
  | cons segment segments ih =>
    rw [asrTextRanges]
    split
    · exact ih
    · rename_i some
      exact List.forall_mem_cons.mpr ⟨⟨rfl, some⟩, ih⟩

theorem buildAsrTextRanges_within {segments : List AsrSegment} :
    ∀ r ∈ (buildAsrTextRanges segments).2, r.stop ≤ (buildAsrTextRanges segments).1.length := by
  have slices := asrTextRanges_slices segments false []
  simp only [joinedFrom, Bool.false_eq_true, if_false, List.nil_append, List.length_nil] at slices
  intro r mem
  obtain ⟨q, in_ranges, rfl⟩ := List.mem_map.mp mem
  have here := congrArg List.length (List.map_eq_map_iff.mp slices q in_ranges)
  obtain ⟨stop, some⟩ := asrTextRanges_stop q in_ranges
  have longer := List.length_pos_iff.mpr some
  rw [slice, List.length_drop, List.length_take] at here
  simp only [buildAsrTextRanges]
  omega

theorem overlaps_iff_shares {full : Text} {chunk : Chunk} {r : SegmentRange}
    (cut : chunk.text = slice full chunk.startPos chunk.endPos) (within : r.stop ≤ full.length) :
    Overlaps chunk r ↔ Shares chunk r := by
  have length : chunk.text.length = min chunk.endPos full.length - chunk.startPos := by
    rw [cut, slice, List.length_drop, List.length_take]
  unfold Overlaps Shares
  rw [length]
  constructor
  · intro met
    refine ⟨max chunk.startPos r.start - chunk.startPos, max chunk.startPos r.start - r.start, ?_⟩
    omega
  · rintro ⟨i, j, inside, below, same⟩
    omega

/-- The times of a chunk in its metadata: the earliest start and the latest end of the
segments that share a character with it, and none when no segment does. -/
def Timed (ranges : List SegmentRange) (chunk : Chunk) (metadata : Metadata) : Prop :=
  ((∃ r ∈ ranges, Shares chunk r) → ∃ first last,
    metadata.lookup "start_time" = some (.time first) ∧
    IsLeast (timesOf SegmentRange.timeStart (Shares chunk) ranges) first ∧
    metadata.lookup "end_time" = some (.time last) ∧
    IsGreatest (timesOf SegmentRange.timeEnd (Shares chunk) ranges) last) ∧
  ((∀ r ∈ ranges, ¬ Shares chunk r) →
    metadata.lookup "start_time" = none ∧ metadata.lookup "end_time" = none)

def timedMetadata (ranges : List SegmentRange) (chunk : Chunk) : Metadata :=
  let times := ranges.foldl (widen chunk) (none, none)
  setTime (setTime chunk.metadata "start_time" times.1) "end_time" times.2

theorem applyTimeRanges_eq (chunks : List Chunk) (ranges : List SegmentRange) :
    applyTimeRanges chunks ranges =
      chunks.map fun chunk => { chunk with metadata := timedMetadata ranges chunk } := by
  unfold applyTimeRanges
  split
  · rename_i none
    rw [none]
    exact (List.map_id chunks).symm
  · rfl

theorem timedMetadata_timed {full : Text} {chunk : Chunk} {ranges : List SegmentRange}
    (cut : chunk.text = slice full chunk.startPos chunk.endPos)
    (within : ∀ r ∈ ranges, r.stop ≤ full.length)
    (noStart : chunk.metadata.lookup "start_time" = none)
    (noEnd : chunk.metadata.lookup "end_time" = none) (index : MetaValue) :
    Timed ranges chunk ((timedMetadata ranges chunk).set "chunk_index" index) := by
  have same (time : SegmentRange → ℚ) : timesOf time (Overlaps chunk) ranges =
      timesOf time (Shares chunk) ranges := by
    ext t
    simp only [timesOf, Set.mem_ofPred_eq]
    constructor
    · rintro ⟨r, mem, met, rfl⟩
      exact ⟨r, mem, (overlaps_iff_shares cut (within r mem)).mp met, rfl⟩
    · rintro ⟨r, mem, met, rfl⟩
      exact ⟨r, mem, (overlaps_iff_shares cut (within r mem)).mpr met, rfl⟩
  rw [Timed, lookup_set, lookup_set, if_neg (by decide), if_neg (by decide), timedMetadata]
  rcases best_fold chunk ranges with ⟨none, times⟩ | ⟨first, last, times, least, greatest⟩
  · rw [times]
    refine ⟨?_, fun _ => ⟨noStart, noEnd⟩⟩
    rintro ⟨r, mem, shares⟩
    exact absurd ((overlaps_iff_shares cut (within r mem)).mpr shares) (none r mem)
  · rw [times]
    rw [same] at least greatest
    simp only [setTime, Option.elim_some, lookup_set]
    refine ⟨fun _ => ⟨first, last, rfl, least, rfl, greatest⟩, fun none => ?_⟩
    obtain ⟨r, mem, shares, -⟩ := least.1
    exact absurd shares (none r mem)

theorem vectorRecords_metadata {svc : VectorIndexService F} {io : IndexIO F} {userID : Text}
    {chunks : List Chunk} {records : List (VectorRecord F)}
    (h : vectorRecords svc io userID chunks = .ok records) :
    records.map VectorRecord.metadata =
      chunks.map fun chunk => chunk.metadata.set "chunk_index" (.int chunk.index) := by
  unfold vectorRecords at h
  split at h
  · simp at h
  · rename_i embeddings found
    have lengths := congrArg List.length (embed_chunkID found)
    simp only [chunkInputs, List.length_map] at lengths
    have firsts : (chunks.zip embeddings).map Prod.fst = chunks :=
      List.map_fst_zip (Nat.le_of_eq lengths.symm)
    have pairs := List.zipIdx_map_fst 0 (chunks.zip embeddings)
    have kept : VectorRecord.metadata ∘ (fun p : (Chunk × Embedding F) × ℕ =>
        toRecord userID (io.now p.2) p.1.1 p.1.2) =
          (fun chunk : Chunk => chunk.metadata.set "chunk_index" (.int chunk.index)) ∘
            Prod.fst ∘ Prod.fst := by
      funext p
      rfl
    rw [← Except.ok.inj h, List.map_map, kept, ← List.map_map, ← List.map_map, pairs, firsts]

theorem records_timed {segments : List AsrSegment} {c : Chunker} {resourceID : Text}
    {pieces : List Piece}
    (sliced : ∀ p ∈ pieces, p.text = slice (buildAsrTextRanges segments).1 p.startPos p.endPos)
    {svc : VectorIndexService F} {io : IndexIO F} {userID : Text}
    {records : List (VectorRecord F)}
    (passed : vectorRecords svc io userID (applyTimeRanges
      (makeChunks c resourceID [("source_type", .text "audio".toList)] pieces)
      (buildAsrTextRanges segments).2) = .ok records) :
    records.length = pieces.length ∧
      ∀ (i : ℕ) (chunk : Chunk) (record : VectorRecord F),
        (makeChunks c resourceID [("source_type", .text "audio".toList)] pieces)[i]? =
          some chunk →
        records[i]? = some record →
          Timed (buildAsrTextRanges segments).2 chunk record.metadata := by
  have metadata := vectorRecords_metadata passed
  rw [applyTimeRanges_eq, List.map_map] at metadata
  refine ⟨?_, fun i chunk record here there => ?_⟩
  · have lengths := congrArg List.length metadata
    rwa [List.length_map, List.length_map, makeChunks_length] at lengths
  have entry := congrArg (fun l : List Metadata => l[i]?) metadata
  simp only [List.getElem?_map, here, there, Option.map_some, Option.some.injEq,
    Function.comp_apply] at entry
  obtain ⟨p, mem, k, rfl⟩ := mem_makeChunks (List.mem_of_getElem? here)
  rw [entry]
  refine timedMetadata_timed (sliced p mem) buildAsrTextRanges_within ?_ ?_ _
  · simp only [makeChunk]
    split <;> rfl
  · simp only [makeChunk]
    split <;> rfl

theorem asr_times (segments : List AsrSegment) (c : Chunker) (resourceID : Text)
    {pieces : List Piece}
    (sliced : ∀ p ∈ pieces, p.text = slice (buildAsrTextRanges segments).1 p.startPos p.endPos) :
    let built := buildAsrTextRanges segments
    let chunks := makeChunks c resourceID [("source_type", .text "audio".toList)] pieces
    built.2.map (fun r => (slice built.1 r.start r.stop, r.timeStart, r.timeEnd)) =
      (segments.filter fun s => s.text ≠ []).map (fun s => (s.text, s.start, s.stop)) ∧
    ∀ (svc : VectorIndexService F) (io : IndexIO F) (userID : Text)
      (records : List (VectorRecord F)),
      vectorRecords svc io userID (applyTimeRanges chunks built.2) = .ok records →
      records.length = pieces.length ∧
      ∀ (i : ℕ) (chunk : Chunk) (record : VectorRecord F), chunks[i]? = some chunk →
        records[i]? = some record → Timed built.2 chunk record.metadata :=
  ⟨buildAsrTextRanges_segments segments, fun _ _ _ _ passed => records_timed sliced passed⟩

def spoken : List AsrSegment := [⟨0, 1, "ab".toList⟩, ⟨1, 2, "c".toList⟩]

def onePiece : List Piece := [⟨"ab c".toList, 0, 4⟩]

def spokenChunks : List Chunk :=
  applyTimeRanges (makeChunks mockService.chunking.chunker lecturePdf
    [("source_type", .text "audio".toList)] onePiece) (buildAsrTextRanges spoken).2

def spokenRecords : List (VectorRecord ℕ) :=
  (vectorRecords mockService mockIO userOne spokenChunks).toOption.getD []

theorem asr_times_spoken : spokenRecords.length = 1 := by
  have sliced : ∀ p ∈ onePiece,
      p.text = slice (buildAsrTextRanges spoken).1 p.startPos p.endPos := by
    intro p mem
    rw [List.mem_singleton.mp mem]
    rfl
  exact ((asr_times spoken mockService.chunking.chunker lecturePdf sliced).2 mockService mockIO
    userOne spokenRecords rfl).1

theorem strategy_slices (c : Chunker) (text : Text) (strategy : Strategy) :
    ∀ p ∈ strategy.pieces c text, p.text = slice text p.startPos p.endPos := by
  intro p mem
  cases strategy with
  | paragraph => exact (paragraphPieces_slice mem).slice_eq
  | fixedToken => exact TokenWindows.windowsFrom_slices 0 p mem
  | semantic => exact (semanticPieces_slice mem).slice_eq

theorem indexAsr_times {svc : VectorIndexService F} {io : IndexIO F} {userID resourceID : Text}
    {segments : List AsrSegment} {chunks : List Chunk} {records : List (VectorRecord F)}
    (chunked : chunk svc.chunking (buildAsrTextRanges segments).1 resourceID
      [("source_type", .text "audio".toList)] svc.strategy = .ok chunks)
    (passed : vectorRecords svc io userID
      (applyTimeRanges chunks (buildAsrTextRanges segments).2) = .ok records) :
    ∀ (i : ℕ) (chunk : Chunk) (record : VectorRecord F), chunks[i]? = some chunk →
      records[i]? = some record → Timed (buildAsrTextRanges segments).2 chunk record.metadata := by
  obtain ⟨strategy, rfl⟩ := chunk_ok chunked
  exact (records_timed (strategy_slices _ _ strategy) passed).2

end KnowledgeCompanion.SegmentTimes
