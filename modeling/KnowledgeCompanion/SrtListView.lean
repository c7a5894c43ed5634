import Mathlib.Data.Int.Order.Basic
import KnowledgeCompanion.ContentSearch
import KnowledgeCompanion.KeyedRuns

/-! Subtitles folded into buckets of equal length in the client (`widgets/srt_list_view.dart`),
and where a segment or a time is found among them. Durations are in microseconds. -/

namespace KnowledgeCompanion.SrtListView

open ContentSearch KeyedRuns

/-- `ContentViewConfig.segmentFoldDuration.inSeconds`. -/
def foldSeconds : ℤ := 30

def inSeconds (d : ℤ) : ℤ := d.tdiv 1000000

/-- The microseconds of `Duration(seconds: ...)`, before they are cut to 64 bits. -/
def ofSeconds (seconds : ℤ) : ℤ := seconds * 1000000

/-- The end of a window, in the arithmetic of 64 bits; its start is not above a start of 64 bits. -/
def windowEnd (start : ℤ) : ℤ := Int.bmod (ofSeconds (inSeconds start + foldSeconds)) (2 ^ 64)

structure IndexedSegment where
  globalIndex : ℕ
  segment : SubtitleSegment
deriving DecidableEq

structure SegmentBucket where
  start : ℤ
  stop : ℤ
  segments : List IndexedSegment
deriving DecidableEq

def bucketStart (segment : SubtitleSegment) : ℤ :=
  ofSeconds ((inSeconds segment.start).tdiv foldSeconds * foldSeconds)

def newBucket (start : ℤ) (indexed : IndexedSegment) : SegmentBucket :=
  ⟨start, windowEnd start, [indexed]⟩

def addSegment (buckets : List SegmentBucket) (indexed : IndexedSegment) : List SegmentBucket :=
  let start := bucketStart indexed.segment
  match buckets.getLast? with
  | none => [newBucket start indexed]
  | some last =>
    if last.start ≠ start then buckets ++ [newBucket start indexed]
    else buckets.dropLast ++ [{ last with segments := last.segments ++ [indexed] }]

def indexedSegments (segments : List SubtitleSegment) : List IndexedSegment :=
  segments.zipIdx.map fun p => ⟨p.2, p.1⟩

def buildBuckets (segments : List SubtitleSegment) : List SegmentBucket :=
  (indexedSegments segments).foldl addSegment []

def bucketIndexForSegment (segments : List SubtitleSegment) (segmentIndex : ℕ) : Option ℕ :=
  (buildBuckets segments).findIdx? fun bucket =>
    bucket.segments.any fun indexed => indexed.globalIndex == segmentIndex

def segmentIndexForTimestamp (segments : List SubtitleSegment) (timestamp : Option ℤ) :
    Option ℕ :=
  match timestamp with
  | none => none
  | some t =>
    (segments.findIdx? fun s => s.start ≤ t && t ≤ s.stop).or
      ((segments.findIdx? fun s => t ≤ s.stop).or
        (if segments = [] then none else some (segments.length - 1)))

def initiallyExpanded (segments : List SubtitleSegment) (timestamp : Option ℤ) : List ℕ :=
  let expanded := if segments = [] then [] else [0]
  match (segmentIndexForTimestamp segments timestamp).bind (bucketIndexForSegment segments) with
  | none => expanded
  | some bucketIndex => bucketIndex :: expanded

def bucketOf (group : Group ℤ IndexedSegment) : SegmentBucket :=
  ⟨group.key, windowEnd group.key, group.items⟩

theorem buildBuckets_eq (segments : List SubtitleSegment) :
    buildBuckets segments =
      (groupRuns (fun indexed => bucketStart indexed.segment) (indexedSegments segments)).map
        bucketOf := by
  unfold buildBuckets
  induction indexedSegments segments using List.reverseRecOn with
  | nil => rfl
  | append_singleton before indexed ih =>
    rw [List.foldl_append, ih, groupRuns_append, List.foldl_cons, List.foldl_nil]
    unfold addSegment push
    rw [List.getLast?_map]
    cases found : (groupRuns (fun indexed => bucketStart indexed.segment) before).getLast? with
    | none =>
      rfl
    | some last =>
      have start : (bucketOf last).start = last.key := rfl
      dsimp only [Option.map_some]
      rw [start]
      by_cases same : last.key = bucketStart indexed.segment
      · rw [if_pos same, if_neg (not_not.mpr same), List.map_append, List.map_dropLast]
        rfl
      · rw [if_neg same, if_pos same, List.map_append]
        rfl

/-- The buckets have the segments in their order, each in the window it starts in. -/
structure Folded (segments : List SubtitleSegment) (buckets : List SegmentBucket) : Prop where
  whole : (buckets.map SegmentBucket.segments).flatten = indexedSegments segments
  filled : ∀ b ∈ buckets, b.segments ≠ []
  window : ∀ b ∈ buckets, ofSeconds foldSeconds ∣ b.start ∧
    b.stop = Int.bmod (b.start + ofSeconds foldSeconds) (2 ^ 64) ∧
    ∀ indexed ∈ b.segments, b.start ≤ indexed.segment.start ∧
      indexed.segment.start < b.start + ofSeconds foldSeconds

theorem bucketStart_window {segment : SubtitleSegment} (nonneg : 0 ≤ segment.start) :
    0 ≤ bucketStart segment ∧ ofSeconds foldSeconds ∣ bucketStart segment ∧
      bucketStart segment ≤ segment.start ∧
      segment.start < bucketStart segment + ofSeconds foldSeconds := by
  have seconds : inSeconds segment.start = segment.start / 1000000 :=
    Int.tdiv_eq_ediv_of_nonneg nonneg
  have folds : (segment.start / 1000000).tdiv 30 = segment.start / 1000000 / 30 :=
    Int.tdiv_eq_ediv_of_nonneg (Int.ediv_nonneg nonneg (by decide))
  unfold bucketStart ofSeconds foldSeconds
  rw [seconds, folds]
  omega

theorem ofSeconds_window {start : ℤ} (nonneg : 0 ≤ start)
    (whole : ofSeconds foldSeconds ∣ start) :
    ofSeconds (inSeconds start + foldSeconds) = start + ofSeconds foldSeconds := by
  have seconds : inSeconds start = start / 1000000 := Int.tdiv_eq_ediv_of_nonneg nonneg
  unfold ofSeconds foldSeconds at *
  rw [seconds]
  omega

theorem mem_indexedSegments {segments : List SubtitleSegment} {indexed : IndexedSegment} :
    indexed ∈ indexedSegments segments ↔
      segments[indexed.globalIndex]? = some indexed.segment := by
  unfold indexedSegments
  rw [List.mem_map]
  constructor
  · rintro ⟨⟨segment, i⟩, mem, rfl⟩
    exact List.mem_zipIdx_iff_getElem?.mp mem
  · intro found
    exact ⟨(indexed.segment, indexed.globalIndex), List.mem_zipIdx_iff_getElem?.mpr found, rfl⟩

theorem buildBuckets_whole (segments : List SubtitleSegment) :
    ((buildBuckets segments).map SegmentBucket.segments).flatten = indexedSegments segments := by
  rw [buildBuckets_eq, List.map_map]
  exact groupRuns_flatten _ _

theorem segment_of_bucket {segments : List SubtitleSegment} {b : SegmentBucket}
    (mem : b ∈ buildBuckets segments) {indexed : IndexedSegment} (here : indexed ∈ b.segments) :
    segments[indexed.globalIndex]? = some indexed.segment := by
  refine mem_indexedSegments.mp ?_
  rw [← buildBuckets_whole]
  exact List.mem_flatten.mpr ⟨b.segments, List.mem_map_of_mem mem, here⟩

theorem buildBuckets_folded {segments : List SubtitleSegment}
    (nonneg : ∀ segment ∈ segments, 0 ≤ segment.start) :
    Folded segments (buildBuckets segments) := by
  refine ⟨buildBuckets_whole segments, fun b mem => ?_, fun b mem => ?_⟩
  · rw [buildBuckets_eq] at mem
    obtain ⟨group, here, rfl⟩ := List.mem_map.mp mem
    exact (groupRuns_uniform _ _ group here).filled
  · have inside (indexed : IndexedSegment) (here : indexed ∈ b.segments) :
        0 ≤ indexed.segment.start :=
      nonneg _ (List.mem_of_getElem? (segment_of_bucket mem here))
    rw [buildBuckets_eq] at mem
    obtain ⟨group, here, rfl⟩ := List.mem_map.mp mem
    obtain ⟨filled, keyed⟩ := groupRuns_uniform _ _ group here
    obtain ⟨first, member⟩ := List.exists_mem_of_ne_nil _ filled
    have start := bucketStart_window (inside first member)
    rw [keyed first member] at start
    have stop : windowEnd group.key = Int.bmod (group.key + ofSeconds foldSeconds) (2 ^ 64) := by
      rw [windowEnd, ofSeconds_window start.1 start.2.1]
    refine ⟨start.2.1, stop, fun indexed member => ?_⟩
    have window := bucketStart_window (inside indexed member)
    rw [keyed indexed member] at window
    exact ⟨window.2.2.1, window.2.2.2⟩

theorem buildBuckets_increasing {segments : List SubtitleSegment}
    (nonneg : ∀ segment ∈ segments, 0 ≤ segment.start)
    (sorted : segments.Pairwise fun r s => r.start ≤ s.start) :
    (buildBuckets segments).Pairwise fun b c => b.start < c.start := by
  rw [buildBuckets_eq, List.pairwise_map]
  refine groupRuns_increasing _ ?_
  have same : (indexedSegments segments).map IndexedSegment.segment = segments := by
    rw [indexedSegments, List.map_map]
    exact List.zipIdx_map_fst 0 segments
  have ordered : (indexedSegments segments).Pairwise fun r s =>
      r.segment.start ≤ s.segment.start := by
    rw [← same, List.pairwise_map] at sorted
    exact sorted
  refine ordered.imp_of_mem fun {r s} left right le => ?_
  have early := bucketStart_window (nonneg _ (List.mem_of_getElem? (mem_indexedSegments.mp left)))
  have late := bucketStart_window (nonneg _ (List.mem_of_getElem? (mem_indexedSegments.mp right)))
  unfold ofSeconds foldSeconds at early late
  omega

theorem bucketIndex_of_segment {segments : List SubtitleSegment} {i : ℕ}
    {segment : SubtitleSegment} (here : segments[i]? = some segment) :
    ∃ k b, bucketIndexForSegment segments i = some k ∧ (buildBuckets segments)[k]? = some b ∧
      ⟨i, segment⟩ ∈ b.segments := by
  have listed : (⟨i, segment⟩ : IndexedSegment) ∈ indexedSegments segments :=
    mem_indexedSegments.mpr here
  rw [← buildBuckets_whole] at listed
  obtain ⟨items, bucketed, inside⟩ := List.mem_flatten.mp listed
  obtain ⟨b, mem, rfl⟩ := List.mem_map.mp bucketed
  cases found : bucketIndexForSegment segments i with
  | none =>
    have nowhere := List.findIdx?_eq_none_iff.mp found b mem
    have somewhere : (b.segments.any fun indexed => indexed.globalIndex == i) = true :=
      List.any_eq_true.mpr ⟨_, inside, beq_self_eq_true i⟩
    rw [somewhere] at nowhere
    cases nowhere
  | some k =>
    obtain ⟨bound, holds, -⟩ := List.findIdx?_eq_some_iff_getElem.mp found
    obtain ⟨indexed, member, index⟩ := List.any_eq_true.mp holds
    have same := segment_of_bucket (List.getElem_mem bound) member
    rw [beq_iff_eq.mp index, here] at same
    refine ⟨k, (buildBuckets segments)[k], rfl, List.getElem?_eq_getElem bound, ?_⟩
    rw [Option.some.inj same, ← beq_iff_eq.mp index]
    exact member

/-- Segments in the order of their starts are folded into one bucket for each window, in the
order of the windows, and each is found where it is. -/
theorem buckets_partition {segments : List SubtitleSegment}
    (nonneg : ∀ segment ∈ segments, 0 ≤ segment.start)
    (sorted : segments.Pairwise fun r s => r.start ≤ s.start) :
    Folded segments (buildBuckets segments) ∧
      ((buildBuckets segments).Pairwise fun b c => b.start < c.start) ∧
      ∀ i segment, segments[i]? = some segment →
        ∃ k b, bucketIndexForSegment segments i = some k ∧ (buildBuckets segments)[k]? = some b ∧
          ⟨i, segment⟩ ∈ b.segments :=
  ⟨buildBuckets_folded nonneg, buildBuckets_increasing nonneg sorted,
    fun _ _ here => bucketIndex_of_segment here⟩

def spoken : List SubtitleSegment :=
  [⟨⟨1, 0, 2000000, []⟩, none⟩, ⟨⟨2, 28000000, 31000000, []⟩, none⟩,
    ⟨⟨3, 95000000, 96000000, []⟩, none⟩]

theorem buckets_partition_spoken :
    Folded spoken (buildBuckets spoken) ∧
      ((buildBuckets spoken).Pairwise fun b c => b.start < c.start) ∧
      ∀ i segment, spoken[i]? = some segment →
        ∃ k b, bucketIndexForSegment spoken i = some k ∧ (buildBuckets spoken)[k]? = some b ∧
          ⟨i, segment⟩ ∈ b.segments :=
  buckets_partition (by decide) (by decide)

example : (buildBuckets spoken).map SegmentBucket.start = [0, 90000000] := by decide

def Ordered (segments : List SubtitleSegment) : Prop :=
  (∀ s ∈ segments, s.start ≤ s.stop) ∧ segments.Pairwise fun r s => r.stop ≤ s.start

theorem findIdx_some {p : SubtitleSegment → Bool} {segments : List SubtitleSegment} {i : ℕ}
    (found : segments.findIdx? p = some i) :
    ∃ s, segments[i]? = some s ∧ p s = true ∧
      ∀ j r, j < i → segments[j]? = some r → p r = false := by
  obtain ⟨bound, holds, before⟩ := List.findIdx?_eq_some_iff_getElem.mp found
  refine ⟨segments[i], List.getElem?_eq_getElem bound, holds, fun j r less here => ?_⟩
  obtain ⟨inside, rfl⟩ := List.getElem?_eq_some_iff.mp here
  exact eq_false_of_ne_true (before j less)

theorem segmentIndex_some {segments : List SubtitleSegment} (ordered : Ordered segments)
    (filled : segments ≠ []) (t : ℤ) :
    ∃ i s, segmentIndexForTimestamp segments (some t) = some i ∧ segments[i]? = some s ∧
      (t ≤ s.stop ∨ i + 1 = segments.length) ∧
      ∀ j r, j < i → segments[j]? = some r → r.stop < t := by
  unfold segmentIndexForTimestamp
  dsimp only
  cases inside : segments.findIdx? fun s => s.start ≤ t && t ≤ s.stop with
  | some i =>
    obtain ⟨s, here, holds, before⟩ := findIdx_some inside
    rw [Bool.and_eq_true, decide_eq_true_iff, decide_eq_true_iff] at holds
    refine ⟨i, s, rfl, here, .inl holds.2, fun j r less earlier => ?_⟩
    obtain ⟨low, rfl⟩ := List.getElem?_eq_some_iff.mp earlier
    obtain ⟨high, same⟩ := List.getElem?_eq_some_iff.mp here
    have apart := List.pairwise_iff_getElem.mp ordered.2 j i low high less
    have proper := ordered.1 _ (List.getElem_mem low)
    have outside := before j _ less earlier
    rw [same] at apart
    rw [Bool.and_eq_false_iff, decide_eq_false_iff_not, decide_eq_false_iff_not] at outside
    omega
  | none =>
    cases later : segments.findIdx? fun s => t ≤ s.stop with
    | some i =>
      obtain ⟨s, here, holds, before⟩ := findIdx_some later
      refine ⟨i, s, rfl, here, .inl (of_decide_eq_true holds), fun j r less earlier => ?_⟩
      exact Int.not_le.mp (of_decide_eq_false (before j r less earlier))
    | none =>
      have long := List.length_pos_iff.mpr filled
      have last : segments.length - 1 < segments.length := by omega
      refine ⟨segments.length - 1, segments[segments.length - 1], if_neg filled,
        List.getElem?_eq_getElem last, .inr (by omega), fun j r _ earlier => ?_⟩
      have early := List.findIdx?_eq_none_iff.mp later r (List.mem_of_getElem? earlier)
      exact Int.not_le.mp (of_decide_eq_false early)

/-- A view that is opened at a time unfolds the bucket of the segment at that time. -/
theorem opened_at {segments : List SubtitleSegment} (ordered : Ordered segments)
    (filled : segments ≠ []) (t : ℤ) :
    ∃ i s k b, segmentIndexForTimestamp segments (some t) = some i ∧ segments[i]? = some s ∧
      (t ≤ s.stop ∨ i + 1 = segments.length) ∧
      (∀ j r, j < i → segments[j]? = some r → r.stop < t) ∧
      k ∈ initiallyExpanded segments (some t) ∧ (buildBuckets segments)[k]? = some b ∧
      ⟨i, s⟩ ∈ b.segments := by
  obtain ⟨i, s, index, here, reached, before⟩ := segmentIndex_some ordered filled t
  obtain ⟨k, b, bucket, there, inside⟩ := bucketIndex_of_segment here
  have expanded : k ∈ initiallyExpanded segments (some t) := by
    unfold initiallyExpanded
    rw [index, Option.bind_some, bucket]
    exact List.mem_cons_self
  exact ⟨i, s, k, b, index, here, reached, before, expanded, there, inside⟩

theorem opened_at_spoken :
    ∃ i s k b, segmentIndexForTimestamp spoken (some 40000000) = some i ∧ spoken[i]? = some s ∧
      (40000000 ≤ s.stop ∨ i + 1 = spoken.length) ∧
      (∀ j r, j < i → spoken[j]? = some r → r.stop < 40000000) ∧
      k ∈ initiallyExpanded spoken (some 40000000) ∧ (buildBuckets spoken)[k]? = some b ∧
      ⟨i, s⟩ ∈ b.segments :=
  opened_at ⟨by decide, by decide⟩ (List.cons_ne_nil _ _) 40000000

end KnowledgeCompanion.SrtListView
