import Mathlib.Data.List.Pairwise
import Mathlib.Algebra.Order.Field.Basic
import Mathlib.Algebra.Order.Ring.NNRat
import Mathlib.Tactic.GCongr
import KnowledgeCompanion.SegmentMerger

/-! What merging and splitting do to the words and to the covered time
(`services/segment_merger.py`). The sorted segments fall into runs that the merge rule
joins; each run becomes one segment and is then split by its characters. -/

namespace KnowledgeCompanion.MergedSegments

open SpanScan PythonText SegmentMerger

structure Run where
  first : AsrSegment
  taken : List AsrSegment

def Run.members (run : Run) : List AsrSegment := run.first :: run.taken

def absorb (language : Option Text) (current segment : AsrSegment) : AsrSegment :=
  { current with stop := segment.stop, text := joinText current.text segment.text language }

def Run.joined (language : Option Text) (run : Run) : AsrSegment :=
  run.taken.foldl (absorb language) run.first

def runsFrom (cfg : MergerConfig) (language : Option Text) (run : Run) :
    List AsrSegment → List Run
  | [] => [run]
  | segment :: rest =>
    if shouldMerge cfg language (run.joined language) segment then
      runsFrom cfg language ⟨run.first, run.taken ++ [segment]⟩ rest
    else run :: runsFrom cfg language ⟨segment, []⟩ rest

def runs (cfg : MergerConfig) (language : Option Text) (segments : List AsrSegment) : List Run :=
  match normalize segments with
  | [] => []
  | first :: rest => runsFrom cfg language ⟨first, []⟩ rest

theorem joined_snoc (language : Option Text) (run : Run) (segment : AsrSegment) :
    Run.joined language ⟨run.first, run.taken ++ [segment]⟩ =
      absorb language (run.joined language) segment := by
  rw [Run.joined, List.foldl_append]
  rfl

theorem mergeFrom_runs (cfg : MergerConfig) (language : Option Text) (run : Run)
    (rest : List AsrSegment) :
    mergeFrom cfg language id (run.joined language) rest =
      (runsFrom cfg language run rest).flatMap fun run =>
        ensureMaxChars cfg (run.joined language) := by
  induction rest generalizing run with
  | nil => simp [mergeFrom, runsFrom]
  | cons segment rest ih =>
    simp only [mergeFrom, runsFrom]
    split
    · rw [← ih, joined_snoc]
      rfl
    · rw [List.flatMap_cons, ← ih]
      rfl

theorem merge_runs (cfg : MergerConfig) (language : Option Text) (segments : List AsrSegment) :
    merge cfg language segments =
      (runs cfg language segments).flatMap fun run => ensureMaxChars cfg (run.joined language) := by
  unfold merge runs
  cases normalize segments with
  | nil => rfl
  | cons first rest => exact mergeFrom_runs cfg language ⟨first, []⟩ rest

theorem runsFrom_flatten (cfg : MergerConfig) (language : Option Text) (run : Run)
    (rest : List AsrSegment) :
    (runsFrom cfg language run rest).flatMap Run.members = run.members ++ rest := by
  induction rest generalizing run with
  | nil => simp [runsFrom]
  | cons segment rest ih =>
    rw [runsFrom]
    split
    · rw [ih]
      simp [Run.members]
    · rw [List.flatMap_cons, ih]
      rfl

theorem runs_flatten (cfg : MergerConfig) (language : Option Text) (segments : List AsrSegment) :
    (runs cfg language segments).flatMap Run.members = normalize segments := by
  unfold runs
  cases normalize segments with
  | nil => rfl
  | cons first rest => exact runsFrom_flatten cfg language ⟨first, []⟩ rest

def ink (text : Text) : Text := text.filter fun c => !isSpace c

theorem ink_append (front back : Text) : ink (front ++ back) = ink front ++ ink back :=
  List.filter_append front back

theorem ink_lstrip (text : Text) : ink (lstrip text) = ink text := by
  have blank : ink (text.takeWhile isSpace) = [] := by
    refine List.filter_eq_nil_iff.mpr fun c mem => ?_
    simp [List.mem_takeWhile_imp mem]
  have whole := congrArg ink (List.takeWhile_append_dropWhile (p := isSpace) (l := text))
  rwa [ink_append, blank] at whole

theorem ink_reverse (text : Text) : ink text.reverse = (ink text).reverse :=
  List.filter_reverse

theorem ink_strip (text : Text) : ink (strip text) = ink text := by
  rw [strip, rstrip, List.rdropWhile, ink_reverse]
  have tail := ink_lstrip (lstrip text).reverse
  rw [lstrip] at tail
  rw [tail, ink_reverse, List.reverse_reverse, ink_lstrip]

theorem ink_joinText (left right : Text) (language : Option Text) :
    ink (joinText left right language) = ink left ++ ink right := by
  unfold joinText
  split
  · exact ink_append left right
  · rw [ink_strip, ink_append]
    rfl

theorem ink_joined (language : Option Text) (run : Run) :
    ink (run.joined language).text = (run.members.map fun s => ink s.text).flatten := by
  obtain ⟨first, taken⟩ := run
  rw [Run.joined, Run.members, List.map_cons, List.flatten_cons]
  dsimp only
  induction taken generalizing first with
  | nil => simp
  | cons segment taken ih =>
    rw [List.foldl_cons, ih, absorb, ink_joinText, List.map_cons, List.flatten_cons,
      List.append_assoc]

theorem chunks_flatten {maxChars : ℕ} (positive : 0 < maxChars) {fuel : ℕ} {text : Text}
    (enough : text.length ≤ fuel) : (chunks maxChars fuel text).flatten = text := by
  induction fuel generalizing text with
  | zero =>
    rw [List.eq_nil_of_length_eq_zero (Nat.le_zero.mp enough)]
    rfl
  | succ fuel ih =>
    rw [chunks]
    split
    · rename_i empty
      rw [empty]
      rfl
    · rename_i some
      have longer := List.length_pos_iff.mpr some
      rw [List.flatten_cons, ih (by rw [List.length_drop]; omega), List.take_append_drop]

theorem chunks_length {maxChars fuel : ℕ} {text : Text} :
    ∀ chunk ∈ chunks maxChars fuel text, chunk.length ≤ maxChars := by
  induction fuel generalizing text with
  | zero => simp [chunks]
  | succ fuel ih =>
    rw [chunks]
    split
    · simp
    · exact List.forall_mem_cons.mpr ⟨List.length_take_le _ _, ih⟩

theorem pieces_cons {segment : AsrSegment} {currentStart : NNRat} {chunk : Text}
    {rest : List Text} (some : rest ≠ []) :
    let stop := min (currentStart + (segment.stop - segment.start) *
      (chunk.length / segment.text.length)) segment.stop
    pieces segment id currentStart (chunk :: rest) =
      ⟨currentStart, stop, chunk, segment.confidence⟩ :: pieces segment id stop rest := by
  dsimp only
  rw [pieces]
  · rfl
  · exact some

theorem pieces_texts (segment : AsrSegment) (currentStart : NNRat) (cs : List Text) :
    (pieces segment id currentStart cs).map AsrSegment.text = cs := by
  induction cs generalizing currentStart with
  | nil => rfl
  | cons chunk rest ih =>
    cases rest with
    | nil => rfl
    | cons next rest =>
      rw [pieces_cons (List.cons_ne_nil next rest), List.map_cons, ih]

theorem ensureMaxChars_texts (cfg : MergerConfig) (segment : AsrSegment) :
    ((ensureMaxChars cfg segment).map AsrSegment.text).flatten = segment.text := by
  unfold ensureMaxChars
  split
  · simp
  · rename_i long
    rw [splitLongSegment, if_neg long, pieces_texts,
      chunks_flatten cfg.positive (Nat.le_refl _)]

theorem ensureMaxChars_length (cfg : MergerConfig) (segment : AsrSegment) :
    ∀ piece ∈ ensureMaxChars cfg segment, piece.text.length ≤ cfg.maxChars := by
  intro piece mem
  unfold ensureMaxChars at mem
  split at mem
  · rename_i short
    rw [List.mem_singleton.mp mem]
    exact short
  · rename_i long
    rw [splitLongSegment, if_neg long] at mem
    have cut := List.mem_map_of_mem (f := AsrSegment.text) mem
    rw [pieces_texts] at cut
    exact chunks_length _ cut

theorem ink_flatten (ts : List Text) : ink ts.flatten = (ts.map ink).flatten := List.filter_flatten

theorem merge_ink (cfg : MergerConfig) (language : Option Text) (segments : List AsrSegment) :
    ink ((merge cfg language segments).map AsrSegment.text).flatten =
      ink ((normalize segments).map AsrSegment.text).flatten := by
  rw [merge_runs, ← runs_flatten cfg language segments]
  induction runs cfg language segments with
  | nil => rfl
  | cons run rest ih =>
    have members : (run.members.map fun s => ink s.text).flatten =
        ink (run.members.map AsrSegment.text).flatten := by
      rw [ink_flatten, List.map_map]
      rfl
    simp only [List.flatMap_cons, List.map_append, List.flatten_append, ink_append, ih,
      ensureMaxChars_texts, ink_joined, members]

theorem normalize_texts (segments : List AsrSegment) :
    (normalize segments).map AsrSegment.text =
      (segments.insertionSort fun a b => a.start ≤ b.start).map AsrSegment.text := by
  rw [SegmentMerger.normalize, List.map_map]
  rfl

def interval (segment : AsrSegment) : NNRat × NNRat := (segment.start, segment.stop)

theorem normalize_sorted (segments : List AsrSegment) :
    (normalize segments).Pairwise fun a b => a.start ≤ b.start := by
  have total : Std.Total fun a b : AsrSegment => a.start ≤ b.start :=
    ⟨fun a b => le_total a.start b.start⟩
  have trans : IsTrans AsrSegment fun a b => a.start ≤ b.start :=
    ⟨fun _ _ _ first second => le_trans first second⟩
  refine List.pairwise_map.mpr ((List.pairwise_insertionSort _ segments).imp ?_)
  intro a b le
  exact max_le_max le (le_refl _)

theorem normalize_ordered {segments : List AsrSegment} :
    ∀ s ∈ normalize segments, s.start ≤ s.stop := by
  intro s mem
  obtain ⟨raw, -, same⟩ := List.mem_map.mp mem
  rw [← same]
  dsimp only
  split
  · exact le_refl _
  · rename_i inside
    exact not_lt.mp inside

theorem normalize_mem {segments : List AsrSegment}
    (ordered : ∀ s ∈ segments, s.start ≤ s.stop) {s : AsrSegment} :
    s ∈ normalize segments ↔ s ∈ segments := by
  have same : normalize segments = segments.insertionSort fun a b => a.start ≤ b.start := by
    rw [SegmentMerger.normalize]
    refine (List.map_congr_left fun s mem => ?_).trans (List.map_id _)
    have start : max s.start 0 = s.start := max_eq_left zero_le
    have proper := not_lt.mpr (ordered s ((List.mem_insertionSort _).mp mem))
    rw [start]
    dsimp only
    rw [if_neg proper]
    rfl
  rw [same, List.mem_insertionSort]

def Run.last (run : Run) : AsrSegment := run.members.getLast (List.cons_ne_nil _ _)

theorem joined_start (language : Option Text) (run : Run) :
    (run.joined language).start = run.first.start := by
  obtain ⟨first, taken⟩ := run
  rw [Run.joined]
  dsimp only
  induction taken generalizing first with
  | nil => rfl
  | cons segment taken ih =>
    rw [List.foldl_cons, ih]
    rfl

theorem joined_stop (language : Option Text) (run : Run) :
    (run.joined language).stop = run.last.stop := by
  obtain ⟨first, taken⟩ := run
  simp only [Run.joined, Run.last, Run.members]
  induction taken generalizing first with
  | nil => rfl
  | cons segment taken ih =>
    rw [List.foldl_cons, ih, List.getLast_cons (List.cons_ne_nil segment taken)]
    cases taken with
    | nil => rfl
    | cons next taken => rw [List.getLast_cons_cons, List.getLast_cons_cons]

theorem runs_pairwise (cfg : MergerConfig) (language : Option Text) (segments : List AsrSegment) :
    (∀ run ∈ runs cfg language segments,
      run.members.Pairwise fun a b => a.start ≤ b.start) ∧
    (runs cfg language segments).Pairwise fun a b =>
      ∀ s ∈ a.members, ∀ t ∈ b.members, s.start ≤ t.start := by
  have sorted := normalize_sorted segments
  rw [← runs_flatten cfg language segments, List.pairwise_flatMap] at sorted
  exact sorted

theorem runs_mem {cfg : MergerConfig} {language : Option Text} {segments : List AsrSegment}
    {s : AsrSegment} :
    s ∈ normalize segments ↔ ∃ run ∈ runs cfg language segments, s ∈ run.members := by
  rw [← runs_flatten cfg language segments, List.mem_flatMap]

theorem runs_reach {cfg : MergerConfig} {language : Option Text} {segments : List AsrSegment}
    {run : Run} (mem : run ∈ runs cfg language segments) {s : AsrSegment}
    (inside : s ∈ run.members) :
    (run.joined language).start ≤ s.start ∧ s.start ≤ (run.joined language).stop := by
  have sorted := (runs_pairwise cfg language segments).1 run mem
  rw [joined_start, joined_stop]
  have reflexive : Std.Refl fun a b : AsrSegment => a.start ≤ b.start := ⟨fun a => le_refl _⟩
  have last_mem : run.last ∈ run.members := List.getLast_mem _
  have last_ordered : run.last.start ≤ run.last.stop :=
    normalize_ordered _ (runs_mem.mpr ⟨run, mem, last_mem⟩)
  have last : s.start ≤ run.last.start := sorted.rel_getLast inside
  refine ⟨?_, le_trans last last_ordered⟩
  rcases List.mem_cons.mp inside with same | later
  · rw [same]
  · exact List.rel_of_pairwise_cons sorted later

theorem pieces_tiles (segment : AsrSegment) {currentStart : NNRat} {cs : List Text}
    (some : cs ≠ []) :
    Tiles currentStart segment.stop ((pieces segment id currentStart cs).map interval) := by
  induction cs generalizing currentStart with
  | nil => exact absurd rfl some
  | cons chunk rest ih =>
    cases rest with
    | nil => exact ⟨rfl, rfl⟩
    | cons next rest =>
      rw [pieces_cons (List.cons_ne_nil next rest)]
      exact ⟨rfl, ih (List.cons_ne_nil next rest)⟩

theorem pieces_ordered (segment : AsrSegment) {currentStart : NNRat} {cs : List Text}
    (before : currentStart ≤ segment.stop) :
    ∀ piece ∈ pieces segment id currentStart cs, piece.start ≤ piece.stop := by
  induction cs generalizing currentStart with
  | nil => simp [pieces]
  | cons chunk rest ih =>
    cases rest with
    | nil => simpa [pieces] using before
    | cons next rest =>
      rw [pieces_cons (List.cons_ne_nil next rest)]
      refine List.forall_mem_cons.mpr ⟨le_min (le_add_of_nonneg_right zero_le) before, ?_⟩
      exact ih (min_le_right _ _)

theorem chunks_ne_nil {maxChars fuel : ℕ} {text : Text} (some : text ≠ [])
    (enough : text.length ≤ fuel) : chunks maxChars fuel text ≠ [] := by
  have longer := List.length_pos_iff.mpr some
  cases fuel with
  | zero => omega
  | succ fuel =>
    rw [chunks, if_neg some]
    exact List.cons_ne_nil _ _

def lastStart (maxChars : ℕ) (segment : AsrSegment) : NNRat :=
  segment.start + (segment.stop - segment.start) *
    (((segment.text.length - 1) / maxChars * maxChars : ℕ) / segment.text.length)

theorem cut_next {segment : AsrSegment} (ordered : segment.start ≤ segment.stop) {k n : ℕ}
    (within : k + n ≤ segment.text.length) (some : 0 < segment.text.length) :
    min (segment.start + (segment.stop - segment.start) * ((k : NNRat) / segment.text.length) +
        (segment.stop - segment.start) * ((n : NNRat) / segment.text.length)) segment.stop =
      segment.start +
        (segment.stop - segment.start) * (((k + n : ℕ) : NNRat) / segment.text.length) := by
  have total : (0 : NNRat) < segment.text.length := Nat.cast_pos.mpr some
  rw [add_assoc, ← mul_add, ← add_div, ← Nat.cast_add]
  refine min_eq_left ?_
  have share : ((k + n : ℕ) : NNRat) / segment.text.length ≤ 1 := by
    rw [div_le_one total]
    exact Nat.cast_le.mpr within
  calc segment.start + (segment.stop - segment.start) * (((k + n : ℕ) : NNRat) / _)
      ≤ segment.start + (segment.stop - segment.start) * 1 := by gcongr
    _ = segment.stop := by rw [mul_one, add_tsub_cancel_of_le ordered]

theorem chunks_nil (maxChars fuel : ℕ) : chunks maxChars fuel [] = [] := by
  cases fuel <;> rfl

/-- The cut after `k` characters stands at their share of the duration. -/
theorem pieces_lastStart {segment : AsrSegment} (ordered : segment.start ≤ segment.stop)
    {maxChars : ℕ} (positive : 0 < maxChars) {fuel k : ℕ} {text : Text} (some : text ≠ [])
    (enough : text.length ≤ fuel) (within : k + text.length = segment.text.length) :
    let last := segment.start + (segment.stop - segment.start) *
      (((k + (text.length - 1) / maxChars * maxChars : ℕ) : NNRat) / segment.text.length)
    let cut := pieces segment id
      (segment.start + (segment.stop - segment.start) * ((k : NNRat) / segment.text.length))
      (chunks maxChars fuel text)
    (∃ piece ∈ cut, piece.start = last) ∧ ∀ piece ∈ cut, piece.start ≤ last := by
  dsimp only
  have longer := List.length_pos_iff.mpr some
  induction fuel generalizing k text with
  | zero => omega
  | succ fuel ih =>
    rw [chunks, if_neg some]
    by_cases short : text.length ≤ maxChars
    · have none : (text.length - 1) / maxChars = 0 := Nat.div_eq_of_lt (by omega)
      rw [List.drop_of_length_le short, chunks_nil, none, Nat.zero_mul, Nat.add_zero]
      simp [pieces]
    · have rest_some : text.drop maxChars ≠ [] := by
        rw [← List.length_pos_iff, List.length_drop]
        omega
      have rest_enough : (text.drop maxChars).length ≤ fuel := by
        rw [List.length_drop]
        omega
      have width : (text.take maxChars).length = maxChars := by
        rw [List.length_take]
        omega
      have count : k + maxChars + ((text.drop maxChars).length - 1) / maxChars * maxChars =
          k + (text.length - 1) / maxChars * maxChars := by
        have less : (text.drop maxChars).length - 1 = text.length - 1 - maxChars := by
          rw [List.length_drop]
          omega
        have whole : maxChars ≤ text.length - 1 := by omega
        have again : (text.length - 1) / maxChars = (text.length - 1 - maxChars) / maxChars + 1 :=
          Nat.div_eq_sub_div positive whole
        rw [less, again, Nat.succ_mul]
        omega
      rw [pieces_cons (chunks_ne_nil rest_some rest_enough), width,
        cut_next ordered (by omega) (by omega)]
      obtain ⟨⟨piece, mem, start⟩, bound⟩ := ih (k := k + maxChars) rest_some rest_enough
        (by rw [List.length_drop]; omega) (List.length_pos_iff.mpr rest_some)
      rw [count] at start bound
      refine ⟨⟨piece, List.mem_cons_of_mem _ mem, start⟩, List.forall_mem_cons.mpr ⟨?_, bound⟩⟩
      dsimp only
      gcongr
      omega

section Pieces

variable (cfg : MergerConfig) {segment : AsrSegment}

theorem long_ne_nil (long : ¬ segment.text.length ≤ cfg.maxChars) : segment.text ≠ [] := by
  rw [← List.length_pos_iff]
  omega

theorem ensureMaxChars_tiles (ordered : segment.start ≤ segment.stop) :
    Tiles segment.start segment.stop ((ensureMaxChars cfg segment).map interval) ∧
      ∀ piece ∈ ensureMaxChars cfg segment, piece.start ≤ piece.stop := by
  unfold ensureMaxChars
  split
  · exact ⟨⟨rfl, rfl⟩, by simpa using ordered⟩
  · rename_i long
    rw [splitLongSegment, if_neg long]
    exact ⟨pieces_tiles segment (chunks_ne_nil (long_ne_nil cfg long) (Nat.le_refl _)),
      pieces_ordered segment ordered⟩

theorem ensureMaxChars_intervals (ordered : segment.start ≤ segment.stop) :
    ∀ i ∈ (ensureMaxChars cfg segment).map interval, i.1 ≤ i.2 :=
  List.forall_mem_map.mpr (ensureMaxChars_tiles cfg ordered).2

theorem ensureMaxChars_within (ordered : segment.start ≤ segment.stop) :
    ∀ piece ∈ ensureMaxChars cfg segment,
      segment.start ≤ piece.start ∧ piece.stop ≤ segment.stop := by
  have inside := ((ensureMaxChars_tiles cfg ordered).1.within
    (ensureMaxChars_intervals cfg ordered)).2
  exact List.forall_mem_map.mp inside

theorem ensureMaxChars_starts (ordered : segment.start ≤ segment.stop) :
    (ensureMaxChars cfg segment).Pairwise fun a b => a.start ≤ b.start := by
  have starts := (ensureMaxChars_tiles cfg ordered).1.starts
    (ensureMaxChars_intervals cfg ordered)
  rw [List.pairwise_map] at starts
  exact starts

theorem ensureMaxChars_covers (ordered : segment.start ≤ segment.stop) {t : NNRat}
    (above : segment.start ≤ t) (below : t ≤ segment.stop) :
    ∃ piece ∈ ensureMaxChars cfg segment, piece.start ≤ t ∧ t ≤ piece.stop := by
  have some : (ensureMaxChars cfg segment).map interval ≠ [] := by
    rw [Ne, List.map_eq_nil_iff]
    exact ensureMaxChars_ne_nil id cfg segment
  obtain ⟨i, mem, held⟩ := (ensureMaxChars_tiles cfg ordered).1.covers some above below
  obtain ⟨piece, inside, rfl⟩ := List.mem_map.mp mem
  exact ⟨piece, inside, held⟩

theorem ensureMaxChars_lastStart (ordered : segment.start ≤ segment.stop) :
    (∃ piece ∈ ensureMaxChars cfg segment, piece.start = lastStart cfg.maxChars segment) ∧
      ∀ piece ∈ ensureMaxChars cfg segment, piece.start ≤ lastStart cfg.maxChars segment := by
  have positive := cfg.positive
  unfold ensureMaxChars
  split
  · rename_i short
    have none : (segment.text.length - 1) / cfg.maxChars = 0 := Nat.div_eq_of_lt (by omega)
    simp [lastStart, none]
  · rename_i long
    have starts := pieces_lastStart ordered positive (long_ne_nil cfg long)
      (Nat.le_refl segment.text.length) (Nat.zero_add segment.text.length)
    rw [splitLongSegment, if_neg long]
    simpa only [lastStart, Nat.zero_add, Nat.cast_zero, zero_div, mul_zero, add_zero] using starts

end Pieces

def joinedSegments (cfg : MergerConfig) (language : Option Text) (segments : List AsrSegment) :
    List AsrSegment :=
  (runs cfg language segments).map (Run.joined language)

theorem joined_ordered {cfg : MergerConfig} {language : Option Text} {segments : List AsrSegment}
    {run : Run} (mem : run ∈ runs cfg language segments) :
    (run.joined language).start ≤ (run.joined language).stop := by
  have reach := runs_reach mem (s := run.first) List.mem_cons_self
  exact le_trans reach.1 reach.2

theorem merge_conserves (cfg : MergerConfig) (language : Option Text)
    (segments : List AsrSegment) :
    ink ((merge cfg language segments).map AsrSegment.text).flatten =
      ink ((segments.insertionSort fun a b => a.start ≤ b.start).map AsrSegment.text).flatten ∧
    (∀ output ∈ merge cfg language segments, output.text.length ≤ cfg.maxChars) ∧
    merge cfg language segments =
      (joinedSegments cfg language segments).flatMap (ensureMaxChars cfg) ∧
    ∀ whole ∈ joinedSegments cfg language segments,
      Tiles whole.start whole.stop ((ensureMaxChars cfg whole).map interval) ∧
      (∀ piece ∈ ensureMaxChars cfg whole, piece.start ≤ piece.stop) ∧
      ((ensureMaxChars cfg whole).map AsrSegment.text).flatten = whole.text := by
  refine ⟨?_, fun output mem => ?_, ?_, fun whole mem => ?_⟩
  · rw [merge_ink, normalize_texts]
  · rw [merge_runs] at mem
    obtain ⟨run, -, inside⟩ := List.mem_flatMap.mp mem
    exact ensureMaxChars_length cfg _ output inside
  · rw [merge_runs, joinedSegments, List.flatMap_map]
  · obtain ⟨run, in_runs, rfl⟩ := List.mem_map.mp mem
    have tiles := ensureMaxChars_tiles cfg (joined_ordered in_runs)
    exact ⟨tiles.1, tiles.2, ensureMaxChars_texts cfg _⟩

/-- What a run's segments cover after its last one has ended, another run covers. -/
def KeepsTime (cfg : MergerConfig) (language : Option Text) (segments : List AsrSegment) : Prop :=
  ∀ run ∈ runs cfg language segments, ∀ s ∈ run.members, ∀ t, run.last.stop < t → t ≤ s.stop →
    ∃ other ∈ runs cfg language segments, other.first.start ≤ t ∧ t ≤ other.last.stop

/-- The last piece of a run starts no later than the runs after it. -/
def PiecesInOrder (cfg : MergerConfig) (language : Option Text) (segments : List AsrSegment) :
    Prop :=
  (runs cfg language segments).Pairwise fun a b =>
    lastStart cfg.maxChars (a.joined language) ≤ b.first.start

def Covered (segments : List AsrSegment) (t : NNRat) : Prop :=
  ∃ s ∈ segments, s.start ≤ t ∧ t ≤ s.stop

section Time

variable {cfg : MergerConfig} {language : Option Text} {segments : List AsrSegment}

theorem mem_merge {output : AsrSegment} :
    output ∈ merge cfg language segments ↔ ∃ run ∈ runs cfg language segments,
      output ∈ ensureMaxChars cfg (run.joined language) := by
  rw [merge_runs, List.mem_flatMap]

theorem merge_covered_iff {t : NNRat} :
    Covered (merge cfg language segments) t ↔ ∃ run ∈ runs cfg language segments,
      run.first.start ≤ t ∧ t ≤ run.last.stop := by
  constructor
  · rintro ⟨output, mem, above, below⟩
    obtain ⟨run, in_runs, inside⟩ := mem_merge.mp mem
    have within := ensureMaxChars_within cfg (joined_ordered in_runs) output inside
    rw [joined_start, joined_stop] at within
    exact ⟨run, in_runs, le_trans within.1 above, le_trans below within.2⟩
  · rintro ⟨run, in_runs, above, below⟩
    rw [← joined_start language] at above
    rw [← joined_stop language] at below
    obtain ⟨piece, inside, held⟩ :=
      ensureMaxChars_covers cfg (joined_ordered in_runs) above below
    exact ⟨piece, mem_merge.mpr ⟨run, in_runs, inside⟩, held⟩

theorem covers_iff : (∀ t, Covered (normalize segments) t →
      Covered (merge cfg language segments) t) ↔ KeepsTime cfg language segments := by
  constructor
  · intro kept run in_runs s inside t late below
    refine merge_covered_iff.mp (kept t ⟨s, runs_mem.mpr ⟨run, in_runs, inside⟩, ?_, below⟩)
    have reach := (runs_reach in_runs inside).2
    rw [joined_stop] at reach
    exact le_trans reach (le_of_lt late)
  · rintro keeps t ⟨s, mem, above, below⟩
    obtain ⟨run, in_runs, inside⟩ := runs_mem.mp mem
    have reach := (runs_reach in_runs inside).1
    rw [joined_start] at reach
    refine merge_covered_iff.mpr ?_
    by_cases early : t ≤ run.last.stop
    · exact ⟨run, in_runs, le_trans reach above, early⟩
    · exact keeps run in_runs s inside t (not_le.mp early) below

theorem starts_iff : ((merge cfg language segments).Pairwise fun a b => a.start ≤ b.start) ↔
    PiecesInOrder cfg language segments := by
  rw [merge_runs, List.pairwise_flatMap]
  constructor
  · rintro ⟨-, apart⟩
    refine apart.imp_of_mem fun {a b} in_a in_b before => ?_
    obtain ⟨piece, mem, start⟩ := (ensureMaxChars_lastStart cfg (joined_ordered in_a)).1
    obtain ⟨first, in_first, above, -⟩ := ensureMaxChars_covers cfg (joined_ordered in_b)
      (le_refl _) (joined_ordered in_b)
    rw [← start]
    rw [joined_start] at above
    exact le_trans (before piece mem first in_first) above
  · intro pieces
    refine ⟨fun run in_runs => ensureMaxChars_starts cfg (joined_ordered in_runs), ?_⟩
    refine pieces.imp_of_mem fun {a b} in_a in_b before x in_x y in_y => ?_
    have last := (ensureMaxChars_lastStart cfg (joined_ordered in_a)).2 x in_x
    have first := (ensureMaxChars_within cfg (joined_ordered in_b) y in_y).1
    rw [joined_start] at first
    exact le_trans last (le_trans before first)

theorem merge_ordered : ∀ output ∈ merge cfg language segments, output.start ≤ output.stop := by
  intro output mem
  obtain ⟨run, in_runs, inside⟩ := mem_merge.mp mem
  exact (ensureMaxChars_tiles cfg (joined_ordered in_runs)).2 output inside

theorem merge_keeps_time_iff (ordered : ∀ s ∈ segments, s.start ≤ s.stop) :
    (((merge cfg language segments).Pairwise fun a b => a.start ≤ b.start) ∧
      (∀ output ∈ merge cfg language segments, output.start ≤ output.stop) ∧
      ∀ t, Covered segments t → Covered (merge cfg language segments) t) ↔
    PiecesInOrder cfg language segments ∧ KeepsTime cfg language segments := by
  have same (t : NNRat) : Covered segments t ↔ Covered (normalize segments) t := by
    simp only [Covered, normalize_mem ordered]
  simp only [same, starts_iff, covers_iff]
  exact ⟨fun h => ⟨h.1, h.2.2⟩, fun h => ⟨h.1, merge_ordered, h.2⟩⟩

end Time

def defaultMerger : MergerConfig := ⟨1, 6, 80, Nat.succ_pos 79⟩

def nested : List AsrSegment :=
  [⟨0, (10 : ℕ), "a".toList, none⟩, ⟨1, (2 : ℕ), "b".toList, none⟩]

def oneCharacter : MergerConfig := ⟨1, 6, 1, Nat.one_pos⟩

def nestedLong : List AsrSegment :=
  [⟨0, (10 : ℕ), "aa".toList, none⟩, ⟨1, (2 : ℕ), "b".toList, none⟩]

theorem merge_nested : merge defaultMerger none nested = [⟨0, 2, "a b".toList, none⟩] := by
  decide +kernel

theorem merge_nestedLong : merge oneCharacter none nestedLong =
    [⟨0, 5, "a".toList, none⟩, ⟨5, 10, "a".toList, none⟩, ⟨1, 2, "b".toList, none⟩] := by
  decide +kernel

theorem merge_shrinks :
    (∀ s ∈ nested ++ nestedLong, s.start ≤ s.stop) ∧
    Covered nested 5 ∧ ¬ Covered (merge defaultMerger none nested) 5 ∧
    ¬ (merge oneCharacter none nestedLong).Pairwise fun a b => a.start ≤ b.start := by
  rw [merge_nested, merge_nestedLong]
  refine ⟨by decide +kernel, ⟨_, List.mem_cons_self, by decide +kernel, by decide +kernel⟩, ?_,
    by decide +kernel⟩
  rintro ⟨s, mem, above, below⟩
  rw [List.mem_singleton.mp mem] at below
  exact absurd below (by decide +kernel)

theorem nested_out_of_order :
    ¬ (PiecesInOrder oneCharacter none nestedLong ∧ KeepsTime oneCharacter none nestedLong) := by
  intro condition
  have output := (merge_keeps_time_iff (by decide +kernel)).mpr condition
  rw [merge_nestedLong] at output
  exact absurd output.1 (by decide +kernel)

end KnowledgeCompanion.MergedSegments
