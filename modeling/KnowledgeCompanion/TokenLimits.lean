import KnowledgeCompanion.ChunkSlices

/-! When the paragraph and the semantic chunker stay within the token limit
(`services/chunking/base_chunker.py`). Every step of the split measures tokens except
the last resort, which cuts windows by their characters; a window over the limit ends
up inside some chunk. -/

namespace KnowledgeCompanion.TokenLimits

open SpanScan PythonText BaseChunker Chunking ChunkSlices

def MonotoneCount (count : Text → ℕ) : Prop := ∀ part text, part <:+: text → count part ≤ count text

def LastResortWithin (c : Chunker) (separators : List Text) (text : Text) : Prop :=
  ∀ part ∈ lastResort c separators text, ∀ i, i * c.config.chunkSize < part.length →
    c.count (window c part i) ≤ c.config.chunkSize

def semanticSeparators (c : Chunker) : List Text :=
  if c.config.separators = [] then defaultSeparators else c.config.separators

theorem splitText_within {c : Chunker} {separators : List Text} {mergeAcross : Bool} {text : Text}
    {startPos : ℕ} (within : LastResortWithin c separators text) :
    ∀ p ∈ splitText c separators mergeAcross text startPos,
      c.count p.text ≤ c.config.chunkSize := by
  intro p mem
  refine (splitText_all (P := fun t => c.count t ≤ c.config.chunkSize) (fun t solid fits => ?_)
    within p mem).2
  simp only [sizeExceeded, Bool.or_eq_false_iff, decide_eq_false_iff_not, Nat.not_lt] at fits
  exact fits.2

def Covers (parts wholes : List Text) : Prop := ∀ t ∈ parts, ∃ w ∈ wholes, t <:+: w

theorem Covers.refl (ts : List Text) : Covers ts ts := fun t mem => ⟨t, mem, List.infix_refl t⟩

theorem mergeFrom_covers (c : Chunker) (last : Piece) (pieces : List Piece) :
    Covers (texts (last :: pieces)) (texts (mergeFrom c last pieces)) := by
  induction pieces generalizing last with
  | nil => exact Covers.refl _
  | cons piece pieces ih =>
    intro t mem
    rw [mergeFrom]
    simp only [texts_cons, List.mem_cons] at mem
    split
    · have tail := ih ⟨last.text ++ piece.text, last.startPos, piece.endPos⟩
      have joined := tail (last.text ++ piece.text) List.mem_cons_self
      obtain ⟨w, inside, part⟩ := joined
      rcases mem with here | next | later
      · rw [here]
        exact ⟨w, inside, (List.prefix_append _ _).isInfix.trans part⟩
      · rw [next]
        exact ⟨w, inside, (List.suffix_append _ _).isInfix.trans part⟩
      · exact tail t (List.mem_cons_of_mem _ later)
    · rcases mem with here | later
      · rw [here]
        exact ⟨last.text, List.mem_cons_self, List.infix_refl _⟩
      · obtain ⟨w, inside, part⟩ := ih piece t (List.mem_cons.mpr later)
        exact ⟨w, List.mem_cons_of_mem _ inside, part⟩

theorem mergePieces_covers (c : Chunker) (pieces : List Piece) :
    Covers (texts pieces) (texts (mergePieces c pieces)) := by
  cases pieces with
  | nil => exact Covers.refl _
  | cons piece pieces => exact mergeFrom_covers c piece pieces

theorem place_mem {ts : List Text} {t : Text} (mem : t ∈ ts) (solid : t ≠ []) (cursor : ℕ) :
    ∃ p ∈ place cursor ts, p.text = t := by
  induction ts generalizing cursor with
  | nil => simp at mem
  | cons first ts ih =>
    rw [place]
    rcases List.mem_cons.mp mem with here | there
    · rw [← here, if_neg solid]
      exact ⟨_, List.mem_cons_self, rfl⟩
    · obtain ⟨p, inside, same⟩ := ih there (cursor + first.length)
      split
      · exact ⟨p, inside, same⟩
      · exact ⟨p, List.mem_cons_of_mem _ inside, same⟩

/-- Every window that is cut is part of a piece. -/
theorem splitText_covers {c : Chunker} {separators : List Text} {mergeAcross : Bool} {text : Text}
    {startPos i : ℕ} {part : Text} (cut : part ∈ lastResort c separators text)
    (inside : i * c.config.chunkSize < part.length) :
    ∃ p ∈ splitText c separators mergeAcross text startPos, window c part i <:+: p.text := by
  have own (startPos : ℕ) : ∃ p ∈ splitChars c part startPos, window c part i <:+: p.text := by
    have cut : window c part i ∈ texts (splitChars c part startPos) :=
      mem_splitChars.mpr ⟨i, inside, rfl⟩
    obtain ⟨p, mem, same⟩ := List.mem_map.mp cut
    exact ⟨p, mem, same ▸ List.infix_refl _⟩
  revert cut
  refine splitText_rule (motive := fun separators text _ pieces =>
    part ∈ lastResort c separators text → ∃ p ∈ pieces, window c part i <:+: p.text)
    ?_ ?_ ?_ ?_ ?_ separators mergeAcross text startPos
  · intro separators _ cut
    rw [lastResort_nil] at cut
    exact absurd cut List.not_mem_nil
  · intro separators _ _ _ within cut
    rw [lastResort_whole separators within] at cut
    exact absurd cut List.not_mem_nil
  · intro separators text startPos solid exceeds last cut
    rw [lastResort_cut solid exceeds last] at cut
    rw [← List.mem_singleton.mp cut]
    exact own startPos
  · intro sep finer text startPos solid exceeds separates parts cut
    rw [lastResort_apart finer solid exceeds separates] at cut
    obtain ⟨t, of_text, deeper⟩ := List.mem_flatMap.mp cut
    have kept : t ≠ [] := by
      intro empty
      rw [empty, lastResort_nil] at deeper
      exact List.not_mem_nil deeper
    obtain ⟨q, placed, same⟩ := place_mem of_text kept startPos
    rw [← same] at deeper
    obtain ⟨p, mem, part_of⟩ := parts q.text q.startPos deeper
    exact ⟨p, List.mem_flatMap.mpr ⟨q, placed, mem⟩, part_of⟩
  · intro _ _ _ pieces kept cut
    obtain ⟨p, mem, part_of⟩ := kept cut
    obtain ⟨w, merged, whole⟩ := mergePieces_covers c pieces p.text (List.mem_map_of_mem mem)
    obtain ⟨r, in_merged, rfl⟩ := List.mem_map.mp merged
    exact ⟨r, in_merged, part_of.trans whole⟩

def ParagraphWithin (c : Chunker) (text : Text) : Prop :=
  ∀ p ∈ rawPieces text, LastResortWithin c sentenceSeparators p.text

def SemanticWithin (c : Chunker) (text : Text) : Prop :=
  LastResortWithin c (semanticSeparators c) text

def TokensWithin (c : Chunker) (chunks : List Chunk) : Prop :=
  ∀ chunk ∈ chunks, chunk.tokenCount ≤ c.config.chunkSize

theorem tokensWithin_iff (c : Chunker) (resourceID : Text) (metadata : Metadata)
    (pieces : List Piece) :
    TokensWithin c (makeChunks c resourceID metadata pieces) ↔
      ∀ p ∈ pieces, c.count p.text ≤ c.config.chunkSize := by
  constructor
  · intro within p mem
    obtain ⟨i, here⟩ := List.mem_iff_getElem?.mp mem
    refine within (makeChunk c resourceID metadata i p) (List.mem_iff_getElem?.mpr ⟨i, ?_⟩)
    rw [makeChunks_getElem?, here]
    rfl
  · intro within chunk mem
    obtain ⟨p, inside, i, rfl⟩ := mem_makeChunks mem
    exact within p inside

theorem lastResortWithin_of_pieces {c : Chunker} (monotone : MonotoneCount c.count)
    {separators : List Text} {mergeAcross : Bool} {text : Text} {startPos : ℕ}
    (within : ∀ p ∈ splitText c separators mergeAcross text startPos,
      c.count p.text ≤ c.config.chunkSize) : LastResortWithin c separators text := by
  intro part cut i inside
  obtain ⟨p, mem, part_of⟩ := splitText_covers cut inside
  exact Nat.le_trans (monotone _ _ part_of) (within p mem)

theorem paragraphWithin_of_pieces {c : Chunker} (monotone : MonotoneCount c.count) {text : Text}
    (within : ∀ p ∈ paragraphPieces c text, c.count p.text ≤ c.config.chunkSize) :
    ParagraphWithin c text := by
  rw [paragraphPieces_eq] at within
  intro p raw
  exact lastResortWithin_of_pieces monotone fun q mem =>
    within q (List.mem_flatMap.mpr ⟨p, raw, mem⟩)

theorem paragraphPieces_within {c : Chunker} {text : Text} (within : ParagraphWithin c text) :
    ∀ p ∈ paragraphPieces c text, c.count p.text ≤ c.config.chunkSize := by
  intro p mem
  rw [paragraphPieces_eq] at mem
  obtain ⟨raw, in_raw, inside⟩ := List.mem_flatMap.mp mem
  exact splitText_within (within raw in_raw) p inside

theorem chunks_within_iff (c : Chunker) (text resourceID : Text) (metadata : Metadata) :
    let paragraph := makeChunks c resourceID metadata (paragraphPieces c text)
    let semantic := makeChunks c resourceID metadata (semanticPieces c text)
    (ParagraphWithin c text → TokensWithin c paragraph) ∧
      (SemanticWithin c text → TokensWithin c semantic) ∧
      (MonotoneCount c.count →
        (TokensWithin c paragraph ↔ ParagraphWithin c text) ∧
          (TokensWithin c semantic ↔ SemanticWithin c text)) := by
  simp only [tokensWithin_iff]
  refine ⟨paragraphPieces_within, splitText_within, fun monotone => ⟨⟨?_, ?_⟩, ⟨?_, ?_⟩⟩⟩
  · exact paragraphWithin_of_pieces monotone
  · exact paragraphPieces_within
  · exact lastResortWithin_of_pieces monotone
  · exact splitText_within

def doubled : Chunker where
  config := { defaultConfig with
    chunkSize := 3, chunkOverlap := 0, separators := [[]]
    size_pos := Nat.succ_pos 2
    overlap_lt := Nat.succ_pos 2
    separators_last := rfl }
  count := fun text => 2 * text.length

theorem doubled_monotone : MonotoneCount doubled.count := fun _ _ part =>
  Nat.mul_le_mul_left 2 part.length_le

theorem chunks_over_limit :
    (∀ x, doubled.count [x] ≤ doubled.config.chunkSize) ∧
      ¬ TokensWithin doubled (makeChunks doubled [] [] (paragraphPieces doubled "abcd".toList)) ∧
      ¬ TokensWithin doubled (makeChunks doubled [] [] (semanticPieces doubled "abcd".toList)) := by
  refine ⟨fun x => (by decide : 2 ≤ 3), ?_, ?_⟩
  · rw [tokensWithin_iff]
    intro within
    have raw : rawPieces "abcd".toList = [⟨"abcd".toList, 0, 4⟩] := rfl
    have mem : ⟨"abcd".toList, 0, 4⟩ ∈ rawPieces "abcd".toList := by
      rw [raw]
      exact List.mem_cons_self
    have limit := paragraphWithin_of_pieces doubled_monotone within _ mem "abcd".toList
      (by decide) 0 (by decide)
    exact absurd limit (by decide)
  · rw [tokensWithin_iff]
    intro within
    have limit := lastResortWithin_of_pieces doubled_monotone within "abcd".toList (by decide) 0
      (by decide)
    exact absurd limit (by decide)

theorem chunks_within_short :
    TokensWithin doubled (makeChunks doubled [] [] (semanticPieces doubled "a".toList)) := by
  have none : lastResort doubled (semanticSeparators doubled) "a".toList = [] := by decide
  refine (chunks_within_iff doubled "a".toList [] []).2.1 fun part cut => ?_
  rw [none] at cut
  exact absurd cut List.not_mem_nil

end KnowledgeCompanion.TokenLimits
