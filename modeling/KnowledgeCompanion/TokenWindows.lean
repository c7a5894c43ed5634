import Mathlib.Data.List.Chain
import KnowledgeCompanion.TokenLimits

/-! The windows of the fixed-token chunker (`services/chunking/fixed_token_chunker.py`)
under an estimator that is monotone, and under the count of characters that stands in
for a missing tokenizer (`token_estimator.py`). -/

namespace KnowledgeCompanion.TokenWindows

open SpanScan PythonText BaseChunker Chunking ChunkSlices TokenLimits

theorem bisect_passed {ok : ℕ → Bool} {lo hi : ℕ} (inside : lo < hi)
    (passed : ok ((lo + hi) / 2) = true) :
    bisect ok lo hi = bisect ok ((lo + hi) / 2 + 1) hi := by
  rw [bisect, if_pos inside]
  simp only [passed, if_true]

theorem bisect_failed {ok : ℕ → Bool} {lo hi : ℕ} (inside : lo < hi)
    (failed : ¬ ok ((lo + hi) / 2) = true) : bisect ok lo hi = bisect ok lo ((lo + hi) / 2) := by
  rw [bisect, if_pos inside]
  simp only [failed]
  rfl

theorem bisect_bounds {ok : ℕ → Bool} {lo hi : ℕ} (le : lo ≤ hi) :
    lo ≤ bisect ok lo hi ∧ bisect ok lo hi ≤ hi := by
  induction lo, hi using bisect.induct ok with
  | case1 lo hi inside mid passed ih =>
    have below : mid + 1 ≤ hi := by
      dsimp only [mid]
      omega
    rw [bisect_passed inside passed]
    refine ⟨Nat.le_trans ?_ (ih below).1, (ih below).2⟩
    dsimp only [mid]
    omega
  | case2 lo hi inside mid failed ih =>
    have above : lo ≤ mid ∧ mid ≤ hi := by
      dsimp only [mid]
      omega
    rw [bisect_failed inside failed]
    exact ⟨(ih above.1).1, Nat.le_trans (ih above.1).2 above.2⟩
  | case3 lo hi outside =>
    rw [bisect, if_neg outside]
    omega

theorem lt_bisect_iff {ok : ℕ → Bool} (down : ∀ i j, i ≤ j → ok j = true → ok i = true)
    {lo hi i : ℕ} (low : lo ≤ i) (high : i < hi) : i < bisect ok lo hi ↔ ok i = true := by
  induction lo, hi using bisect.induct ok with
  | case1 lo hi inside mid passed ih =>
    rw [bisect_passed inside passed]
    by_cases before : i ≤ mid
    · have above : mid + 1 ≤ bisect ok (mid + 1) hi :=
        (bisect_bounds (by dsimp only [mid]; omega)).1
      exact iff_of_true (Nat.lt_of_lt_of_le (by omega) above) (down i _ before passed)
    · exact ih (by omega) high
  | case2 lo hi inside mid failed ih =>
    rw [bisect_failed inside failed]
    by_cases before : i < mid
    · exact ih low before
    · have below : bisect ok lo mid ≤ mid := (bisect_bounds (by dsimp only [mid]; omega)).2
      refine iff_of_false ?_ fun passed => failed (down _ i (by omega) passed)
      exact Nat.not_lt.mpr (Nat.le_trans below (by omega))
  | case3 lo hi outside => omega

section Monotone

variable {c : Chunker} {text : Text}

theorem slice_grows {start stop later : ℕ} (le : stop ≤ later) :
    slice text start stop <:+: slice text start later := by
  rw [slice, slice, List.drop_take, List.drop_take]
  exact (List.take_prefix_take_left (by omega)).isInfix

theorem slice_shrinks {start later stop : ℕ} (le : start ≤ later) :
    slice text later stop <:+: slice text start stop := by
  rw [slice, slice]
  exact (List.drop_suffix_drop_left _ le).isInfix

theorem le_findMaxEnd_iff (monotone : MonotoneCount c.count) {start stop : ℕ}
    (above : start < stop) (inside : stop ≤ text.length) :
    stop ≤ findMaxEnd c text start ↔
      c.count (slice text start stop) ≤ c.config.chunkSize := by
  have down (i j : ℕ) (le : i ≤ j)
      (passed : decide (c.count (slice text start j) ≤ c.config.chunkSize) = true) :
      decide (c.count (slice text start i) ≤ c.config.chunkSize) = true :=
    decide_eq_true (Nat.le_trans (monotone _ _ (slice_grows le)) (of_decide_eq_true passed))
  have low : start + 1 ≤ stop := above
  have high : stop < text.length + 1 := Nat.lt_succ_of_le inside
  have found := lt_bisect_iff down low high
  rw [decide_eq_true_iff] at found
  rw [← found, findMaxEnd]
  omega

theorem findMaxEnd_bounds {start : ℕ} (inside : start < text.length) :
    start ≤ findMaxEnd c text start ∧ findMaxEnd c text start ≤ text.length := by
  have ends : start + 1 ≤ text.length + 1 := by omega
  have bounds := @bisect_bounds
    (fun mid => decide (c.count (slice text start mid) ≤ c.config.chunkSize)) _ _ ends
  rw [findMaxEnd]
  omega

theorem le_findOverlapChars_iff (monotone : MonotoneCount c.count) {start stop overlap n : ℕ}
    (some : overlap ≠ 0) (after : start < stop) (inside : n ≤ stop - start) :
    (n : ℤ) ≤ findOverlapChars c text start stop overlap ↔
      c.count (slice text (stop - n) stop) ≤ overlap := by
  have down (i j : ℕ) (le : i ≤ j)
      (passed : decide (c.count (slice text (stop - j) stop) ≤ overlap) = true) :
      decide (c.count (slice text (stop - i) stop) ≤ overlap) = true :=
    decide_eq_true
      (Nat.le_trans (monotone _ _ (slice_shrinks (by omega))) (of_decide_eq_true passed))
  have high : n < stop - start + 1 := Nat.lt_succ_of_le inside
  have found := lt_bisect_iff down (Nat.zero_le n) high
  rw [decide_eq_true_iff] at found
  rw [← found, findOverlapChars, if_neg (by omega)]
  omega

def EmptyOverlaps (c : Chunker) : Prop :=
  c.config.chunkOverlap = 0 ∨ c.count [] ≤ c.config.chunkOverlap

theorem overlap_eq (c : Chunker) :
    min c.config.chunkOverlap (c.config.chunkSize - 1) = c.config.chunkOverlap := by
  have below := c.config.overlap_lt
  omega

theorem findOverlapChars_nonneg (monotone : MonotoneCount c.count) (empty : EmptyOverlaps c)
    (start stop : ℕ) : 0 ≤ findOverlapChars c text start stop c.config.chunkOverlap := by
  by_cases none : c.config.chunkOverlap = 0 ∨ stop ≤ start
  · have zero : findOverlapChars c text start stop c.config.chunkOverlap = 0 := if_pos none
    exact Int.le_of_eq zero.symm
  · have some : c.config.chunkOverlap ≠ 0 ∧ start < stop := by omega
    refine (le_findOverlapChars_iff monotone some.1 some.2 (Nat.zero_le _)).mpr ?_
    rw [Nat.sub_zero, slice, List.drop_of_length_le (List.length_take_le _ _)]
    exact empty.resolve_left some.1

theorem nextStart_le (monotone : MonotoneCount c.count) (empty : EmptyOverlaps c)
    (start stop : ℕ) : nextStart c text start stop ≤ max stop (start + 1) := by
  have nonneg := @findOverlapChars_nonneg c text monotone empty start stop
  unfold nextStart
  dsimp only
  rw [overlap_eq]
  split <;> omega

theorem nextStart_overlap (monotone : MonotoneCount c.count) {start stop : ℕ}
    (shared : nextStart c text start stop < stop) :
    c.count (slice text (nextStart c text start stop) stop) ≤ c.config.chunkOverlap := by
  have after := lt_nextStart c text start stop
  have reached : ((stop - nextStart c text start stop : ℕ) : ℤ) ≤
      findOverlapChars c text start stop c.config.chunkOverlap := by
    revert shared after
    unfold nextStart
    dsimp only
    rw [overlap_eq]
    split <;> omega
  have some : c.config.chunkOverlap ≠ 0 := by
    intro none
    rw [findOverlapChars, if_pos (.inl none)] at reached
    omega
  rw [le_findOverlapChars_iff monotone some (by omega) (by omega)] at reached
  rwa [Nat.sub_sub_self (Nat.le_of_lt shared)] at reached

theorem slice_one {pos : ℕ} {x : Char} (found : text[pos]? = some x) :
    slice text pos (pos + 1) = [x] := by
  obtain ⟨inside, same⟩ := List.getElem?_eq_some_iff.mp found
  rw [slice, List.drop_take, Nat.add_sub_cancel_left, List.drop_eq_getElem_cons inside, same]
  rfl

theorem lt_findMaxEnd (monotone : MonotoneCount c.count) {pos : ℕ} {x : Char}
    (found : text[pos]? = some x) (fits : c.count [x] ≤ c.config.chunkSize) :
    pos < findMaxEnd c text pos := by
  have inside := (List.getElem?_eq_some_iff.mp found).1
  refine (le_findMaxEnd_iff monotone (Nat.lt_succ_self pos) inside).mpr ?_
  rwa [slice_one found]

/-- What every window is. -/
structure IsWindow (c : Chunker) (text : Text) (w : Piece) : Prop where
  slice_eq : w.text = slice text w.startPos w.endPos
  start_lt : w.startPos < text.length
  end_le : w.endPos ≤ text.length
  fits : ∀ x, text[w.startPos]? = some x → c.count [x] ≤ c.config.chunkSize →
    w.text ≠ [] ∧ c.count w.text ≤ c.config.chunkSize

theorem findMaxEnd_window (monotone : MonotoneCount c.count) {start : ℕ}
    (inside : start < text.length) :
    IsWindow c text
      ⟨slice text start (findMaxEnd c text start), start, findMaxEnd c text start⟩ := by
  have bounds := @findMaxEnd_bounds c text start inside
  refine ⟨rfl, inside, bounds.2, fun x found fits => ?_⟩
  have after : start < findMaxEnd c text start := lt_findMaxEnd monotone found fits
  refine ⟨?_, (le_findMaxEnd_iff monotone after bounds.2).mp (Nat.le_refl _)⟩
  rw [← List.length_pos_iff, slice, List.length_drop, List.length_take]
  omega

theorem windowsFrom_slices (start : ℕ) :
    ∀ w ∈ windowsFrom c text start, w.text = slice text w.startPos w.endPos := by
  induction start using windowsFrom.induct c text with
  | case1 start inside stop last =>
    rw [windowsFrom, if_pos inside]
    dsimp only
    rw [if_pos last]
    simp
  | case2 start inside stop more ih =>
    rw [windowsFrom, if_pos inside]
    dsimp only
    rw [if_neg more]
    exact List.forall_mem_cons.mpr ⟨rfl, ih⟩
  | case3 start outside =>
    rw [windowsFrom, if_neg outside]
    simp

theorem windowsFrom_windows (monotone : MonotoneCount c.count) (start : ℕ) :
    ∀ w ∈ windowsFrom c text start, start ≤ w.startPos ∧ IsWindow c text w := by
  induction start using windowsFrom.induct c text with
  | case1 start inside stop last =>
    rw [windowsFrom, if_pos inside]
    dsimp only
    rw [if_pos last]
    simpa using findMaxEnd_window monotone inside
  | case2 start inside stop more ih =>
    rw [windowsFrom, if_pos inside]
    dsimp only
    rw [if_neg more]
    refine List.forall_mem_cons.mpr ⟨⟨Nat.le_refl _, findMaxEnd_window monotone inside⟩, ?_⟩
    intro w mem
    have later := ih w mem
    have forward : start < nextStart c text start stop := lt_nextStart c text start stop
    exact ⟨by omega, later.2⟩
  | case3 start outside =>
    rw [windowsFrom, if_neg outside]
    simp

theorem windowsFrom_covers (monotone : MonotoneCount c.count) (empty : EmptyOverlaps c)
    {start pos : ℕ} {x : Char} (above : start ≤ pos) (found : text[pos]? = some x)
    (fits : c.count [x] ≤ c.config.chunkSize) :
    ∃ w ∈ windowsFrom c text start, w.startPos ≤ pos ∧ pos < w.endPos := by
  have within := (List.getElem?_eq_some_iff.mp found).1
  induction start using windowsFrom.induct c text with
  | case1 start inside stop last =>
    rw [windowsFrom, if_pos inside]
    dsimp only
    rw [if_pos last]
    exact ⟨_, List.mem_cons_self, above, Nat.lt_of_lt_of_le within last⟩
  | case2 start inside stop more ih =>
    rw [windowsFrom, if_pos inside]
    dsimp only
    rw [if_neg more]
    by_cases here : pos < stop
    · exact ⟨_, List.mem_cons_self, above, here⟩
    · have reach : nextStart c text start stop ≤ max stop (start + 1) :=
        nextStart_le monotone empty start stop
      have moved : start ≠ pos := by
        intro same
        rw [← same] at found here
        exact here (lt_findMaxEnd monotone found fits)
      obtain ⟨w, mem, held⟩ := ih (by omega)
      exact ⟨w, List.mem_cons_of_mem _ mem, held⟩
  | case3 start outside => omega

theorem windowsFrom_starts (monotone : MonotoneCount c.count) (start : ℕ) :
    (windowsFrom c text start).Pairwise fun a b => a.startPos < b.startPos := by
  induction start using windowsFrom.induct c text with
  | case1 start inside stop last =>
    rw [windowsFrom, if_pos inside]
    dsimp only
    rw [if_pos last]
    exact List.pairwise_singleton _ _
  | case2 start inside stop more ih =>
    rw [windowsFrom, if_pos inside]
    dsimp only
    rw [if_neg more]
    refine List.Pairwise.cons (fun w mem => ?_) ih
    have forward := lt_nextStart c text start stop
    have later := (windowsFrom_windows monotone _ w mem).1
    exact Nat.lt_of_lt_of_le forward later
  | case3 start outside =>
    rw [windowsFrom, if_neg outside]
    exact List.Pairwise.nil

theorem windowsFrom_head {start : ℕ} :
    ∀ w ∈ (windowsFrom c text start).head?, w.startPos = start := by
  intro w mem
  rw [windowsFrom] at mem
  split at mem
  · dsimp only at mem
    split at mem <;> rw [← Option.some.inj mem]
  · simp at mem

def OverlapWithin (c : Chunker) (text : Text) (a b : ℕ × ℕ) : Prop :=
  b.1 < a.2 → c.count (slice text b.1 a.2) ≤ c.config.chunkOverlap

theorem windowsFrom_overlaps (monotone : MonotoneCount c.count) (start : ℕ) :
    (windowsFrom c text start).IsChain fun a b => OverlapWithin c text (bounds a) (bounds b) := by
  induction start using windowsFrom.induct c text with
  | case1 start inside stop last =>
    rw [windowsFrom, if_pos inside]
    dsimp only
    rw [if_pos last]
    exact List.isChain_singleton _
  | case2 start inside stop more ih =>
    rw [windowsFrom, if_pos inside]
    dsimp only
    rw [if_neg more]
    refine ih.cons fun w mem shared => ?_
    have next : w.startPos = nextStart c text start stop := windowsFrom_head w mem
    simp only [bounds, next] at shared ⊢
    exact nextStart_overlap monotone shared
  | case3 start outside =>
    rw [windowsFrom, if_neg outside]
    exact List.isChain_nil

theorem windowsFrom_length (start : ℕ) :
    (windowsFrom c text start).length ≤ text.length - start := by
  induction start using windowsFrom.induct c text with
  | case1 start inside stop last =>
    rw [windowsFrom, if_pos inside]
    dsimp only
    rw [if_pos last, List.length_singleton]
    omega
  | case2 start inside stop more ih =>
    rw [windowsFrom, if_pos inside]
    dsimp only
    rw [if_neg more, List.length_cons]
    have forward : start < nextStart c text start stop := lt_nextStart c text start stop
    have rest : (windowsFrom c text (nextStart c text start stop)).length ≤ _ := ih
    exact Nat.le_trans (Nat.succ_le_succ rest) (by omega)
  | case3 start outside =>
    rw [windowsFrom, if_neg outside]
    exact Nat.zero_le _

theorem fixed_token_windows (monotone : MonotoneCount c.count) (empty : EmptyOverlaps c)
    (text resourceID : Text) (metadata : Metadata) :
    let chunks := makeChunks c resourceID metadata (fixedTokenPieces c text)
    chunks.length ≤ text.length ∧
      (∀ pos x, text[pos]? = some x → c.count [x] ≤ c.config.chunkSize →
        ∃ chunk ∈ chunks, chunk.startPos ≤ pos ∧ pos < chunk.endPos) ∧
      chunks.Pairwise (fun a b => a.startPos < b.startPos) ∧
      (∀ chunk ∈ chunks, chunk.text = slice text chunk.startPos chunk.endPos ∧
        chunk.endPos ≤ text.length ∧
        ∃ x, text[chunk.startPos]? = some x ∧ (c.count [x] ≤ c.config.chunkSize →
          chunk.text ≠ [] ∧ chunk.tokenCount ≤ c.config.chunkSize)) ∧
      (chunks.map span).IsChain (OverlapWithin c text) := by
  dsimp only
  have numbered {p : Piece} (mem : p ∈ fixedTokenPieces c text) :
      ∃ i, makeChunk c resourceID metadata i p ∈
        makeChunks c resourceID metadata (fixedTokenPieces c text) := by
    obtain ⟨i, here⟩ := List.mem_iff_getElem?.mp mem
    refine ⟨i, List.mem_iff_getElem?.mpr ⟨i, ?_⟩⟩
    rw [makeChunks_getElem?, here]
    rfl
  refine ⟨?_, fun pos x found fits => ?_, ?_, fun chunk mem => ?_, ?_⟩
  · rw [makeChunks_length]
    exact windowsFrom_length 0
  · obtain ⟨w, mem, held⟩ := windowsFrom_covers monotone empty (Nat.zero_le pos) found fits
    obtain ⟨i, made⟩ := numbered mem
    exact ⟨_, made, held⟩
  · have starts : ((fixedTokenPieces c text).map bounds).Pairwise fun a b => a.1 < b.1 :=
      List.pairwise_map.mpr (windowsFrom_starts monotone 0)
    rw [← makeChunks_spans c resourceID metadata] at starts
    rw [List.pairwise_map] at starts
    exact starts
  · obtain ⟨w, window, i, rfl⟩ := mem_makeChunks mem
    have held := (windowsFrom_windows monotone 0 w window).2
    exact ⟨held.slice_eq, held.end_le, _, List.getElem?_eq_getElem held.start_lt,
      held.fits _ (List.getElem?_eq_getElem held.start_lt)⟩
  · rw [makeChunks_spans, List.isChain_map]
    exact windowsFrom_overlaps monotone 0

end Monotone

def oversized : Chunker where
  config := { doubled.config with
    chunkSize := 1
    size_pos := Nat.one_pos
    overlap_lt := Nat.one_pos }
  count := fun text => 2 * text.length

def padded : Chunker where
  config := { doubled.config with
    chunkOverlap := 1
    overlap_lt := Nat.one_lt_succ_succ 1 }
  count := fun text => text.length + 2

theorem oversized_pieces : fixedTokenPieces oversized ['a'] = [⟨[], 0, 0⟩] := by
  simp [fixedTokenPieces, windowsFrom, findMaxEnd, bisect, nextStart, findOverlapChars, oversized,
    slice]

theorem padded_pieces :
    fixedTokenPieces padded ['a', 'b', 'c'] = [⟨['a'], 0, 1⟩, ⟨['c'], 2, 3⟩] := by
  simp [fixedTokenPieces, windowsFrom, findMaxEnd, bisect, nextStart, findOverlapChars, padded,
    doubled, slice]

theorem oversized_monotone : MonotoneCount oversized.count := fun _ _ part =>
  Nat.mul_le_mul_left 2 part.length_le

theorem padded_monotone : MonotoneCount padded.count := fun _ _ part =>
  Nat.add_le_add_right part.length_le 2

theorem windows_lose_characters :
    (MonotoneCount oversized.count ∧
      ∃ chunk ∈ makeChunks oversized [] [] (fixedTokenPieces oversized ['a']), chunk.text = []) ∧
    (¬ ∃ chunk ∈ makeChunks oversized [] [] (fixedTokenPieces oversized ['a']),
      chunk.startPos ≤ 0 ∧ 0 < chunk.endPos) ∧
    MonotoneCount padded.count ∧ (∀ x, padded.count [x] ≤ padded.config.chunkSize) ∧
    ¬ ∃ chunk ∈ makeChunks padded [] [] (fixedTokenPieces padded ['a', 'b', 'c']),
      chunk.startPos ≤ 1 ∧ 1 < chunk.endPos := by
  rw [oversized_pieces, padded_pieces]
  refine ⟨⟨oversized_monotone, _, List.mem_cons_self, rfl⟩, ?_, padded_monotone,
    fun x => Nat.le_refl 3, ?_⟩
  · rintro ⟨chunk, mem, above, below⟩
    rw [List.mem_singleton.mp mem] at below
    exact Nat.lt_irrefl 0 below
  · rintro ⟨chunk, mem, above, below⟩
    rcases List.mem_cons.mp mem with first | second
    · rw [first] at below
      exact Nat.lt_irrefl 1 below
    · rw [List.mem_singleton.mp second] at above
      exact absurd above (by decide)

theorem fixed_token_windows_doubled :
    ∃ chunk ∈ makeChunks doubled [] [] (fixedTokenPieces doubled ['a', 'b']),
      chunk.startPos ≤ 1 ∧ 1 < chunk.endPos :=
  (fixed_token_windows doubled_monotone (.inl rfl) ['a', 'b'] [] []).2.1 1 'b' rfl (by decide)

def fallbackEncode (text : Text) : List ℕ := text.map Char.toNat

def fallbackCount (text : Text) : ℕ := (fallbackEncode text).length

def fallbackChunker (config : ChunkingConfig) : Chunker := ⟨config, fallbackCount⟩

theorem fallbackCount_eq (text : Text) : fallbackCount text = text.length := List.length_map _

theorem fallbackCount_monotone : MonotoneCount fallbackCount := by
  intro part text part_of
  rw [fallbackCount_eq, fallbackCount_eq]
  exact part_of.length_le

/-- Window `i` of the reference: as long as the chunk size, moved by the size less the
overlap each time. -/
def referenceWindow (config : ChunkingConfig) (text : Text) (i : ℕ) : Piece :=
  let start := i * (config.chunkSize - config.chunkOverlap)
  ⟨slice text start (start + config.chunkSize), start,
    min (start + config.chunkSize) text.length⟩

section Characters

variable {config : ChunkingConfig} {text : Text}

theorem slice_length {start stop : ℕ} (inside : stop ≤ text.length) :
    (slice text start stop).length = stop - start := by
  rw [slice, List.length_drop, List.length_take, Nat.min_eq_left inside]

theorem findMaxEnd_fallback {start : ℕ} (inside : start < text.length) :
    findMaxEnd (fallbackChunker config) text start =
      min (start + config.chunkSize) text.length := by
  have positive := config.size_pos
  have bounds := @findMaxEnd_bounds (fallbackChunker config) text start inside
  have reach {stop : ℕ} (above : start < stop) (below : stop ≤ text.length) :
      stop ≤ findMaxEnd (fallbackChunker config) text start ↔
        stop - start ≤ config.chunkSize := by
    rw [le_findMaxEnd_iff fallbackCount_monotone above below]
    simp only [fallbackChunker, fallbackCount_eq, slice_length below]
  have full := (@reach (min (start + config.chunkSize) text.length) (by omega) (by omega)).mpr
    (by omega)
  have limit := (reach (by omega) bounds.2).mp (Nat.le_refl _)
  omega

theorem nextStart_fallback {start : ℕ} (more : start + config.chunkSize < text.length) :
    nextStart (fallbackChunker config) text start (start + config.chunkSize) =
      start + (config.chunkSize - config.chunkOverlap) := by
  have below := config.overlap_lt
  have longest : findOverlapChars (fallbackChunker config) text start (start + config.chunkSize)
      config.chunkOverlap = config.chunkOverlap := by
    by_cases none : config.chunkOverlap = 0
    · rw [none, findOverlapChars, if_pos (.inl rfl)]
      rfl
    · have reach {n : ℕ} (within : n ≤ config.chunkSize) :
          (n : ℤ) ≤ findOverlapChars (fallbackChunker config) text start
            (start + config.chunkSize) config.chunkOverlap ↔ n ≤ config.chunkOverlap := by
        rw [le_findOverlapChars_iff fallbackCount_monotone none (by omega) (by omega)]
        simp only [fallbackChunker, fallbackCount_eq, slice_length (Nat.le_of_lt more)]
        omega
      have enough := (reach (Nat.le_of_lt below)).mpr (Nat.le_refl _)
      have limit := (reach (n := config.chunkOverlap + 1) below).mp
      omega
  unfold nextStart
  dsimp only
  rw [overlap_eq, show (fallbackChunker config).config.chunkOverlap = config.chunkOverlap from rfl,
    longest]
  split <;> omega

/-- The windows from a reference start on: the first ones end before the text, the last
one reaches its end. -/
theorem windowsFrom_fallback (i : ℕ)
    (inside : i * (config.chunkSize - config.chunkOverlap) < text.length) :
    ∃ n, windowsFrom (fallbackChunker config) text
        (i * (config.chunkSize - config.chunkOverlap)) =
      (List.range' i (n + 1)).map (referenceWindow config text) ∧
      text.length ≤ (referenceWindow config text (i + n)).startPos + config.chunkSize ∧
      ∀ j, i ≤ j → j < i + n →
        (referenceWindow config text j).startPos + config.chunkSize < text.length := by
  have below := config.overlap_lt
  induction left : text.length - i * (config.chunkSize - config.chunkOverlap)
    using Nat.strong_induction_on generalizing i with
  | _ left ih =>
  have first : (⟨slice text (i * (config.chunkSize - config.chunkOverlap))
        (findMaxEnd (fallbackChunker config) text
          (i * (config.chunkSize - config.chunkOverlap))),
      i * (config.chunkSize - config.chunkOverlap),
      findMaxEnd (fallbackChunker config) text
        (i * (config.chunkSize - config.chunkOverlap))⟩ : Piece) =
      referenceWindow config text i := by
    rw [findMaxEnd_fallback inside, slice_min]
    rfl
  rw [windowsFrom, if_pos inside]
  dsimp only
  rw [first, findMaxEnd_fallback inside]
  by_cases last : text.length ≤ i * (config.chunkSize - config.chunkOverlap) + config.chunkSize
  · rw [if_pos (by omega)]
    refine ⟨0, rfl, last, fun j above before => ?_⟩
    omega
  · have next : nextStart (fallbackChunker config) text
        (i * (config.chunkSize - config.chunkOverlap))
        (min (i * (config.chunkSize - config.chunkOverlap) + config.chunkSize) text.length) =
        (i + 1) * (config.chunkSize - config.chunkOverlap) := by
      rw [Nat.min_eq_left (by omega), nextStart_fallback (by omega), Nat.succ_mul]
    have step : (i + 1) * (config.chunkSize - config.chunkOverlap) =
        i * (config.chunkSize - config.chunkOverlap) +
          (config.chunkSize - config.chunkOverlap) := Nat.succ_mul i _
    rw [if_neg (by omega), next]
    obtain ⟨n, windows, reached, earlier⟩ := ih _ (by omega) (i + 1) (by omega) rfl
    refine ⟨n + 1, ?_, ?_, fun j above before => ?_⟩
    · rw [windows]
      rfl
    · rw [← Nat.succ_add_eq_add_succ]
      exact reached
    · by_cases here : j = i
      · rw [here]
        exact Nat.lt_of_not_le last
      · exact earlier j (by omega) (by omega)

theorem referenceWindow_moves {i j : ℕ} (before : i < j)
    (more : (referenceWindow config text i).startPos + config.chunkSize < text.length) :
    (referenceWindow config text i).startPos < (referenceWindow config text j).startPos ∧
      (referenceWindow config text i).endPos < (referenceWindow config text j).endPos := by
  have below := config.overlap_lt
  have grows : (i + 1) * (config.chunkSize - config.chunkOverlap) ≤
      j * (config.chunkSize - config.chunkOverlap) := Nat.mul_le_mul_right _ before
  rw [Nat.succ_mul] at grows
  simp only [referenceWindow] at more ⊢
  omega

theorem reference_chunk {c : Chunker} {resourceID : Text} {metadata : Metadata} {n i : ℕ}
    {chunk : Chunk}
    (here : (makeChunks c resourceID metadata
      ((List.range n).map (referenceWindow config text)))[i]? = some chunk) :
    i < n ∧ chunk = makeChunk c resourceID metadata i (referenceWindow config text i) := by
  rw [makeChunks_getElem?, List.getElem?_map, Option.map_map, Option.map_eq_some_iff] at here
  obtain ⟨k, found, same⟩ := here
  obtain ⟨inside, index⟩ := List.getElem?_eq_some_iff.mp found
  rw [List.getElem_range] at index
  rw [List.length_range] at inside
  rw [← same, ← index]
  exact ⟨inside, rfl⟩

end Characters

theorem fallback_windows (config : ChunkingConfig) {text : Text} (some : text ≠ [])
    (resourceID : Text) (metadata : Metadata) :
    let c := fallbackChunker config
    let step := config.chunkSize - config.chunkOverlap
    let chunks := makeChunks c resourceID metadata (fixedTokenPieces c text)
    (∃ last, chunks = makeChunks c resourceID metadata
        ((List.range (last + 1)).map (referenceWindow config text)) ∧
      text.length ≤ last * step + config.chunkSize ∧
      ∀ i, i < last → i * step + config.chunkSize < text.length) ∧
    ∀ (i j : ℕ) (a b : Chunk), chunks[i]? = Option.some a → chunks[j]? = Option.some b → i ≠ j →
      ¬ (b.startPos ≤ a.startPos ∧ a.endPos ≤ b.endPos) := by
  dsimp only
  have inside : 0 * (config.chunkSize - config.chunkOverlap) < text.length := by
    rw [Nat.zero_mul]
    exact List.length_pos_iff.mpr some
  obtain ⟨last, windows, reached, earlier⟩ := windowsFrom_fallback 0 inside
  rw [Nat.zero_mul] at windows
  rw [Nat.zero_add] at reached earlier
  rw [fixedTokenPieces, windows, ← List.range_eq_range']
  refine ⟨⟨last, rfl, reached, fun i => earlier i (Nat.zero_le i)⟩, ?_⟩
  intro i j a b here there apart within
  obtain ⟨low, rfl⟩ := reference_chunk here
  obtain ⟨high, rfl⟩ := reference_chunk there
  have starts : (referenceWindow config text j).startPos ≤
    (referenceWindow config text i).startPos :=
    within.1
  have ends : (referenceWindow config text i).endPos ≤ (referenceWindow config text j).endPos :=
    within.2
  rcases Nat.lt_or_gt_of_ne apart with before | after
  · have moved := referenceWindow_moves before (earlier i (Nat.zero_le i) (by omega))
    omega
  · have moved := referenceWindow_moves after (earlier j (Nat.zero_le j) (by omega))
    omega

theorem fallback_windows_default :
    ∃ last, makeChunks (fallbackChunker defaultConfig) [] []
        (fixedTokenPieces (fallbackChunker defaultConfig) ['a']) =
      makeChunks (fallbackChunker defaultConfig) [] []
        ((List.range (last + 1)).map (referenceWindow defaultConfig ['a'])) := by
  obtain ⟨⟨last, windows, -⟩, -⟩ :=
    fallback_windows defaultConfig (List.cons_ne_nil 'a' []) [] []
  exact ⟨last, windows⟩

end KnowledgeCompanion.TokenWindows
