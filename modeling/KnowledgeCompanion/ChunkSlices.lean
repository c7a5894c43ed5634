import KnowledgeCompanion.Chunking

/-! What the paragraph and the semantic chunker cut out of a text
(`services/chunking/base_chunker.py`, `paragraph_chunker.py` and
`semantic_chunker.py`). Pieces that are laid out from a position stay laid out
under the recursive split and the greedy merge, so that every chunk is the slice
of the text between its positions. -/

namespace KnowledgeCompanion.ChunkSlices

open SpanScan PythonText BaseChunker Chunking

/-- The pieces follow one another from `cursor` on, each as long as its text. -/
def Placed : ℕ → List Piece → Prop
  | _, [] => True
  | cursor, p :: pieces =>
    p.startPos = cursor ∧ p.endPos = cursor + p.text.length ∧ Placed p.endPos pieces

@[simp] theorem texts_cons (p : Piece) (pieces : List Piece) :
    texts (p :: pieces) = p.text :: texts pieces := rfl

theorem placed_append {cursor : ℕ} {front back : List Piece} :
    Placed cursor (front ++ back) ↔
      Placed cursor front ∧ Placed (cursor + (texts front).flatten.length) back := by
  induction front generalizing cursor with
  | nil => simp [Placed, texts]
  | cons p front ih =>
    simp only [List.cons_append, Placed, texts_cons, List.flatten_cons, List.length_append, ih]
    constructor
    · rintro ⟨first, last, rest, after⟩
      rw [last, Nat.add_assoc] at after
      exact ⟨⟨first, last, rest⟩, after⟩
    · rintro ⟨⟨first, last, rest⟩, after⟩
      rw [last, Nat.add_assoc]
      rw [last] at rest
      exact ⟨first, rfl, rest, after⟩

theorem splitCharsFrom_placed (c : Chunker) (text : Text) (startPos pos : ℕ) :
    Placed (startPos + pos) (splitCharsFrom c text startPos pos) := by
  induction pos using splitCharsFrom.induct c text with
  | case1 pos inside stop ih =>
    rw [splitCharsFrom, if_pos inside]
    refine ⟨rfl, ?_, ih⟩
    simp only [slice, List.length_drop, List.length_take]
    omega
  | case2 pos outside =>
    rw [splitCharsFrom, if_neg outside]
    trivial

theorem place_placed (cursor : ℕ) (ts : List Text) : Placed cursor (place cursor ts) := by
  induction ts generalizing cursor with
  | nil => trivial
  | cons t ts ih =>
    rw [place]
    split
    · rename_i empty
      rw [empty]
      exact ih _
    · exact ⟨rfl, rfl, ih _⟩

theorem flatMap_placed {f : Piece → List Piece} (laid : ∀ p, Placed p.startPos (f p))
    (same : ∀ p, (texts (f p)).flatten = p.text) {cursor : ℕ} {pieces : List Piece}
    (placed : Placed cursor pieces) : Placed cursor (pieces.flatMap f) := by
  induction pieces generalizing cursor with
  | nil => trivial
  | cons p pieces ih =>
    obtain ⟨first, last, rest⟩ := placed
    rw [List.flatMap_cons, placed_append, same, ← first, first, ← last, ← first]
    exact ⟨laid p, ih rest⟩

theorem mergeFrom_placed (c : Chunker) {last : Piece} {pieces : List Piece} {cursor : ℕ}
    (placed : Placed cursor (last :: pieces)) : Placed cursor (mergeFrom c last pieces) := by
  induction pieces generalizing last cursor with
  | nil => exact placed
  | cons piece pieces ih =>
    obtain ⟨first, stop, next, stop', rest⟩ := placed
    rw [mergeFrom]
    split
    · refine ih ⟨first, ?_, rest⟩
      simp only [List.length_append]
      omega
    · exact ⟨first, stop, ih ⟨next, stop', rest⟩⟩

theorem mergePieces_placed (c : Chunker) {pieces : List Piece} {cursor : ℕ}
    (placed : Placed cursor pieces) : Placed cursor (mergePieces c pieces) := by
  cases pieces with
  | nil => trivial
  | cons piece pieces => exact mergeFrom_placed c placed

theorem splitText_placed (c : Chunker) (separators : List Text) (mergeAcross : Bool)
    (text : Text) (startPos : ℕ) :
    Placed startPos (splitText c separators mergeAcross text startPos) := by
  refine splitText_rule (motive := fun _ _ startPos pieces => Placed startPos pieces)
    ?_ ?_ ?_ ?_ ?_ separators mergeAcross text startPos
  · intro _ _
    trivial
  · intro _ _ _ _ _
    exact ⟨rfl, rfl, trivial⟩
  · intro _ text startPos _ _ _
    exact splitCharsFrom_placed c text startPos 0
  · intro sep finer text startPos _ _ _ parts
    exact flatMap_placed (fun p => parts p.text p.startPos)
      (fun p => splitText_flatten c finer true p.text p.startPos) (place_placed startPos _)
  · intro _ _ _ _ laid
    exact mergePieces_placed c laid

def bounds (p : Piece) : ℕ × ℕ := (p.startPos, p.endPos)

theorem Placed.tiles {cursor : ℕ} {pieces : List Piece} (placed : Placed cursor pieces) :
    Tiles cursor (cursor + (texts pieces).flatten.length) (pieces.map bounds) := by
  induction pieces generalizing cursor with
  | nil => rfl
  | cons p pieces ih =>
    obtain ⟨first, last, rest⟩ := placed
    refine ⟨first, ?_⟩
    have tail := ih rest
    rw [texts_cons, List.flatten_cons, List.length_append, ← Nat.add_assoc, ← last]
    exact tail

theorem Placed.slices {cursor : ℕ} {pieces : List Piece} {text : Text}
    (placed : Placed cursor pieces) (reads : (texts pieces).flatten <+: text.drop cursor) :
    ∀ p ∈ pieces, p.text = slice text p.startPos p.endPos := by
  induction pieces generalizing cursor with
  | nil => simp
  | cons p pieces ih =>
    obtain ⟨first, last, rest⟩ := placed
    rw [texts_cons, List.flatten_cons] at reads
    have here : p.text = (text.drop cursor).take p.text.length :=
      List.prefix_iff_eq_take.mp ((List.prefix_append _ _).trans reads)
    have later : (texts pieces).flatten <+: text.drop p.endPos := by
      obtain ⟨rest, whole⟩ := reads
      refine ⟨rest, ?_⟩
      rw [last, ← List.drop_drop, ← whole, List.append_assoc, List.drop_left]
    intro q mem
    rcases List.mem_cons.mp mem with same | there
    · rw [same, slice, List.drop_take, first, last, Nat.add_sub_cancel_left]
      exact here
    · exact ih rest later q there

theorem Placed.within {cursor : ℕ} {pieces : List Piece} (placed : Placed cursor pieces) :
    ∀ p ∈ pieces, cursor ≤ p.startPos ∧ p.endPos = p.startPos + p.text.length ∧
      p.endPos ≤ cursor + (texts pieces).flatten.length := by
  induction pieces generalizing cursor with
  | nil => simp
  | cons p pieces ih =>
    obtain ⟨first, last, rest⟩ := placed
    intro q mem
    rw [texts_cons, List.flatten_cons, List.length_append]
    rcases List.mem_cons.mp mem with same | there
    · rw [same]
      omega
    · have behind := ih rest q there
      omega

theorem Placed.disjoint {cursor : ℕ} {pieces : List Piece} (placed : Placed cursor pieces) :
    pieces.Pairwise fun a b => a.endPos ≤ b.startPos := by
  induction pieces generalizing cursor with
  | nil => exact List.Pairwise.nil
  | cons p pieces ih =>
    exact List.Pairwise.cons (fun q mem => (placed.2.2.within q mem).1) (ih placed.2.2)

theorem Placed.covers {cursor pos : ℕ} {pieces : List Piece} (placed : Placed cursor pieces)
    (above : cursor ≤ pos) (below : pos < cursor + (texts pieces).flatten.length) :
    ∃ p ∈ pieces, p.startPos ≤ pos ∧ pos < p.endPos := by
  induction pieces generalizing cursor with
  | nil =>
    simp only [texts, List.map_nil, List.flatten_nil, List.length_nil] at below
    omega
  | cons p pieces ih =>
    obtain ⟨first, last, rest⟩ := placed
    rw [texts_cons, List.flatten_cons, List.length_append] at below
    by_cases inside : pos < p.endPos
    · exact ⟨p, List.mem_cons_self, by omega, inside⟩
    · obtain ⟨q, mem, within⟩ := ih rest (by omega) (by omega)
      exact ⟨q, List.mem_cons_of_mem p mem, within⟩

def lastResort (c : Chunker) : List Text → Text → List Text
  | separators, text =>
    if text = [] then []
    else if !sizeExceeded c text then []
    else
      match separators with
      | [] => [text]
      | sep :: finer =>
        if sep = [] then [text] else (rejoin sep (split sep text)).flatMap (lastResort c finer)

theorem lastResort_nil (c : Chunker) (separators : List Text) :
    lastResort c separators [] = [] := by
  unfold lastResort
  exact if_pos rfl

theorem lastResort_whole {c : Chunker} {text : Text} (separators : List Text)
    (within : sizeExceeded c text = false) : lastResort c separators text = [] := by
  unfold lastResort
  simp [within]

theorem lastResort_cut {c : Chunker} {separators : List Text} {text : Text} (solid : text ≠ [])
    (exceeds : sizeExceeded c text = true) (last : separators.headD [] = []) :
    lastResort c separators text = [text] := by
  unfold lastResort
  rw [if_neg solid, exceeds]
  cases separators with
  | nil => rfl
  | cons sep finer => exact if_pos last

theorem lastResort_apart {c : Chunker} {sep text : Text} (finer : List Text) (solid : text ≠ [])
    (exceeds : sizeExceeded c text = true) (separates : sep ≠ []) :
    lastResort c (sep :: finer) text =
      (rejoin sep (split sep text)).flatMap (lastResort c finer) := by
  conv_lhs => unfold lastResort
  rw [if_neg solid, exceeds]
  exact if_neg separates

def window (c : Chunker) (text : Text) (i : ℕ) : Text :=
  slice text (i * c.config.chunkSize) (i * c.config.chunkSize + c.config.chunkSize)

theorem slice_min (text : Text) (start stop : ℕ) :
    slice text start (min stop text.length) = slice text start stop := by
  rw [slice, slice, List.take_eq_take_iff.mpr]
  omega

theorem mem_splitCharsFrom {c : Chunker} {text : Text} {startPos i : ℕ} {t : Text} :
    t ∈ texts (splitCharsFrom c text startPos (i * c.config.chunkSize)) ↔
      ∃ j, i ≤ j ∧ j * c.config.chunkSize < text.length ∧ t = window c text j := by
  induction left : text.length - i * c.config.chunkSize using Nat.strong_induction_on
    generalizing i with
  | _ left ih =>
  have positive := c.config.size_pos
  have next : (i + 1) * c.config.chunkSize = i * c.config.chunkSize + c.config.chunkSize :=
    Nat.succ_mul i _
  have later (j : ℕ) (after : i + 1 ≤ j) :
      i * c.config.chunkSize + c.config.chunkSize ≤ j * c.config.chunkSize := by
    rw [← next]
    exact Nat.mul_le_mul_right _ after
  by_cases inside : i * c.config.chunkSize < text.length
  · rw [splitCharsFrom, if_pos inside]
    simp only [texts_cons, List.mem_cons, slice_min]
    by_cases more : i * c.config.chunkSize + c.config.chunkSize < text.length
    · rw [Nat.min_eq_left (Nat.le_of_lt more), ← next,
        ih (text.length - (i + 1) * c.config.chunkSize) (by omega) rfl]
      constructor
      · rintro (here | ⟨j, after, within, same⟩)
        · exact ⟨i, Nat.le_refl i, inside, by rw [here, window, next]⟩
        · exact ⟨j, by omega, within, same⟩
      · rintro ⟨j, after, within, same⟩
        rcases Nat.eq_or_lt_of_le after with here | there
        · rw [same, ← here, window, next]
          exact .inl rfl
        · exact .inr ⟨j, there, within, same⟩
    · rw [Nat.min_eq_right (by omega), splitCharsFrom, if_neg (Nat.lt_irrefl _)]
      simp only [texts, List.map_nil, List.not_mem_nil, or_false]
      constructor
      · intro here
        exact ⟨i, Nat.le_refl i, inside, here⟩
      · rintro ⟨j, after, within, same⟩
        rcases Nat.eq_or_lt_of_le after with here | there
        · rw [same, ← here]
          rfl
        · have beyond := later j there
          omega
  · rw [splitCharsFrom, if_neg inside]
    simp only [texts, List.map_nil, List.not_mem_nil, false_iff, not_exists, not_and]
    intro j after within
    have beyond : i * c.config.chunkSize ≤ j * c.config.chunkSize :=
      Nat.mul_le_mul_right _ after
    omega

theorem mem_splitChars {c : Chunker} {text : Text} {startPos : ℕ} {t : Text} :
    t ∈ texts (splitChars c text startPos) ↔
      ∃ j, j * c.config.chunkSize < text.length ∧ t = window c text j := by
  have windows : t ∈ texts (splitCharsFrom c text startPos (0 * c.config.chunkSize)) ↔ _ :=
    mem_splitCharsFrom
  rw [Nat.zero_mul] at windows
  simpa [splitChars] using windows

theorem window_ne_nil {c : Chunker} {text : Text} {i : ℕ}
    (inside : i * c.config.chunkSize < text.length) : window c text i ≠ [] := by
  have positive := c.config.size_pos
  rw [← List.length_pos_iff, window, slice, List.length_drop, List.length_take]
  omega

theorem window_length_le (c : Chunker) (text : Text) (i : ℕ) :
    (window c text i).length ≤ c.config.chunkSize := by
  rw [window, slice, List.length_drop, List.length_take]
  omega

theorem mem_place {cursor : ℕ} {ts : List Text} {p : Piece} (mem : p ∈ place cursor ts) :
    p.text ∈ ts ∧ p.text ≠ [] := by
  induction ts generalizing cursor with
  | nil => simp [place] at mem
  | cons t ts ih =>
    rw [place] at mem
    split at mem
    · exact ⟨List.mem_cons_of_mem t (ih mem).1, (ih mem).2⟩
    · rename_i solid
      rcases List.mem_cons.mp mem with here | there
      · rw [here]
        exact ⟨List.mem_cons_self, solid⟩
      · exact ⟨List.mem_cons_of_mem t (ih there).1, (ih there).2⟩

section Every

variable {c : Chunker} {P : Text → Prop}

theorem mergeFrom_all (fits : ∀ t, t ≠ [] → sizeExceeded c t = false → P t) {last : Piece}
    {pieces : List Piece} (all : ∀ p ∈ last :: pieces, p.text ≠ [] ∧ P p.text) :
    ∀ p ∈ mergeFrom c last pieces, p.text ≠ [] ∧ P p.text := by
  induction pieces generalizing last with
  | nil => exact all
  | cons piece pieces ih =>
    simp only [List.forall_mem_cons] at all ih
    obtain ⟨first, second, rest⟩ := all
    rw [mergeFrom]
    split
    · rename_i within
      refine ih ⟨⟨List.append_ne_nil_of_left_ne_nil first.1 _, ?_⟩, rest⟩
      refine fits _ (List.append_ne_nil_of_left_ne_nil first.1 _) ?_
      simp only [sizeExceeded, Bool.or_eq_false_iff, decide_eq_false_iff_not, Nat.not_lt]
      exact within
    · exact List.forall_mem_cons.mpr ⟨first, ih ⟨second, rest⟩⟩

theorem mergePieces_all (fits : ∀ t, t ≠ [] → sizeExceeded c t = false → P t)
    {pieces : List Piece} (all : ∀ p ∈ pieces, p.text ≠ [] ∧ P p.text) :
    ∀ p ∈ mergePieces c pieces, p.text ≠ [] ∧ P p.text := by
  cases pieces with
  | nil => exact all
  | cons piece pieces => exact mergeFrom_all fits all

theorem splitChars_all {text : Text} (startPos : ℕ)
    (windows : ∀ i, i * c.config.chunkSize < text.length → P (window c text i)) :
    ∀ p ∈ splitChars c text startPos, p.text ≠ [] ∧ P p.text := by
  intro p mem
  obtain ⟨i, inside, same⟩ := mem_splitChars.mp (List.mem_map_of_mem (f := Piece.text) mem)
  rw [same]
  exact ⟨window_ne_nil inside, windows i inside⟩

theorem splitText_all (fits : ∀ t, t ≠ [] → sizeExceeded c t = false → P t)
    {separators : List Text} {mergeAcross : Bool} {text : Text} {startPos : ℕ}
    (windows : ∀ part ∈ lastResort c separators text,
      ∀ i, i * c.config.chunkSize < part.length → P (window c part i)) :
    ∀ p ∈ splitText c separators mergeAcross text startPos, p.text ≠ [] ∧ P p.text := by
  revert windows
  refine splitText_rule (motive := fun separators text _ pieces =>
    (∀ part ∈ lastResort c separators text,
      ∀ i, i * c.config.chunkSize < part.length → P (window c part i)) →
    ∀ p ∈ pieces, p.text ≠ [] ∧ P p.text) ?_ ?_ ?_ ?_ ?_ separators mergeAcross text startPos
  · intro _ _ _
    simp
  · intro _ text _ solid within _
    simpa using ⟨solid, fits text solid within⟩
  · intro separators text startPos solid exceeds last windows
    rw [lastResort_cut solid exceeds last] at windows
    exact splitChars_all startPos (windows text List.mem_cons_self)
  · intro sep finer text startPos solid exceeds separates parts windows p mem
    rw [lastResort_apart finer solid exceeds separates] at windows
    obtain ⟨part, placed, inside⟩ := List.mem_flatMap.mp mem
    refine parts part.text part.startPos (fun deep deeper => windows deep ?_) p inside
    exact List.mem_flatMap.mpr ⟨part.text, (mem_place placed).1, deeper⟩
  · intro _ _ _ _ each windows
    exact mergePieces_all fits (each windows)

end Every

theorem paragraphBreak_sound : Sound paragraphBreak := fun _ _ found =>
  ⟨(paragraphBreak_blank found).1, (paragraphBreak_blank found).2.1⟩

theorem rawPieces_slice {text : Text} {p : Piece} (mem : p ∈ rawPieces text) :
    p.text = slice text p.startPos p.endPos ∧ p.text ≠ [] ∧
      p.endPos = p.startPos + p.text.length ∧ p.endPos ≤ text.length := by
  obtain ⟨cut, solid⟩ := List.mem_filter.mp mem
  obtain ⟨g, in_gaps, same⟩ := List.mem_map.mp cut
  obtain ⟨-, ordered, within⟩ :=
    gaps_within (findIter_chained paragraphBreak_sound text) g in_gaps
  have kept : isBlank p.text = false := by simpa using solid
  refine ⟨by rw [← same], ne_nil_of_not_blank kept, ?_, by rw [← same]; exact within⟩
  rw [← same]
  simp only [slice, List.length_drop, List.length_take]
  omega

theorem rawPieces_disjoint (text : Text) :
    (rawPieces text).Pairwise fun a b => a.endPos ≤ b.startPos := by
  refine List.Pairwise.filter _ (List.pairwise_map.mpr ?_)
  exact gaps_disjoint (findIter_chained paragraphBreak_sound text)

theorem splitText_whole {c : Chunker} {separators : List Text} {mergeAcross : Bool} {text : Text}
    {startPos : ℕ} (solid : text ≠ []) (within : sizeExceeded c text = false) :
    splitText c separators mergeAcross text startPos =
      [⟨text, startPos, startPos + text.length⟩] := by
  unfold splitText
  rw [if_neg solid, within]
  rfl

theorem paragraphPieces_eq (c : Chunker) (text : Text) :
    paragraphPieces c text =
      (rawPieces text).flatMap fun p => splitText c sentenceSeparators true p.text p.startPos := by
  unfold paragraphPieces
  split
  · rename_i empty
    rw [empty]
    rfl
  · refine List.flatMap_congr fun p mem => ?_
    split
    · rfl
    · rename_i short
      rw [splitText_whole (rawPieces_slice mem).2.1 (Bool.not_eq_true _ ▸ short)]

theorem paragraph_placed {c : Chunker} {text : Text} {p : Piece} (mem : p ∈ rawPieces text) :
    let pieces := splitText c sentenceSeparators true p.text p.startPos
    Placed p.startPos pieces ∧ (texts pieces).flatten = p.text ∧
      (texts pieces).flatten <+: text.drop p.startPos ∧
      p.startPos + (texts pieces).flatten.length = p.endPos := by
  obtain ⟨cut, -, length, -⟩ := rawPieces_slice mem
  have whole := splitText_flatten c sentenceSeparators true p.text p.startPos
  refine ⟨splitText_placed c _ true p.text p.startPos, whole, ?_, by rw [whole, length]⟩
  rw [whole, cut, slice, List.drop_take]
  exact List.take_prefix _ _

theorem paragraphPieces_disjoint (c : Chunker) (text : Text) :
    (paragraphPieces c text).Pairwise fun a b => a.endPos ≤ b.startPos := by
  rw [paragraphPieces_eq, List.pairwise_flatMap]
  refine ⟨fun p mem => (paragraph_placed mem).1.disjoint, ?_⟩
  refine (rawPieces_disjoint text).imp_of_mem fun {p q} mem_p mem_q before a in_p b in_q => ?_
  obtain ⟨placed, -, -, last⟩ := paragraph_placed (c := c) mem_p
  have below := (placed.within a in_p).2.2
  have above := ((paragraph_placed (c := c) mem_q).1.within b in_q).1
  omega

theorem paragraphPieces_covers (c : Chunker) {text : Text} {pos : ℕ} {x : Char}
    (found : text[pos]? = some x) (solid : isSpace x = false) :
    ∃ p ∈ paragraphPieces c text, p.startPos ≤ pos ∧ pos < p.endPos := by
  obtain ⟨p, mem, above, below⟩ := rawPieces_covers found solid
  obtain ⟨placed, -, -, last⟩ := paragraph_placed (c := c) mem
  obtain ⟨q, inside, within⟩ := placed.covers above (by omega)
  rw [paragraphPieces_eq]
  exact ⟨q, List.mem_flatMap.mpr ⟨p, mem, inside⟩, within⟩

/-- What every chunk of the two strategies is. -/
structure IsSlice (c : Chunker) (text : Text) (p : Piece) : Prop where
  some : p.text ≠ []
  slice_eq : p.text = slice text p.startPos p.endPos
  length_eq : p.endPos = p.startPos + p.text.length
  endPos_le : p.endPos ≤ text.length
  length_le : p.text.length ≤ c.config.chunkSize

theorem splitText_sized (c : Chunker) (separators : List Text) (mergeAcross : Bool)
    (text : Text) (startPos : ℕ) :
    ∀ p ∈ splitText c separators mergeAcross text startPos,
      p.text ≠ [] ∧ p.text.length ≤ c.config.chunkSize := by
  refine splitText_all (P := fun t => t.length ≤ c.config.chunkSize) (fun t solid within => ?_)
    fun part _ i _ => window_length_le c part i
  simp only [sizeExceeded, Bool.or_eq_false_iff, decide_eq_false_iff_not, Nat.not_lt] at within
  exact within.1

theorem semanticPieces_placed (c : Chunker) (text : Text) :
    Placed 0 (semanticPieces c text) ∧ (texts (semanticPieces c text)).flatten = text :=
  ⟨splitText_placed c _ false text 0, splitText_flatten c _ false text 0⟩

theorem semanticPieces_slice {c : Chunker} {text : Text} {p : Piece}
    (mem : p ∈ semanticPieces c text) : IsSlice c text p := by
  obtain ⟨placed, whole⟩ := semanticPieces_placed c text
  have sized := splitText_sized c _ false text 0 p mem
  have within := placed.within p mem
  refine ⟨sized.1, placed.slices ?_ p mem, within.2.1, ?_, sized.2⟩
  · rw [whole]
    exact List.prefix_refl text
  · rw [whole] at within
    omega

theorem paragraphPieces_slice {c : Chunker} {text : Text} {p : Piece}
    (mem : p ∈ paragraphPieces c text) : IsSlice c text p := by
  rw [paragraphPieces_eq] at mem
  obtain ⟨raw, in_raw, inside⟩ := List.mem_flatMap.mp mem
  obtain ⟨placed, -, reads, last⟩ := paragraph_placed (c := c) in_raw
  have sized := splitText_sized c _ true raw.text raw.startPos p inside
  have within := placed.within p inside
  have below := (rawPieces_slice in_raw).2.2.2
  exact ⟨sized.1, placed.slices reads p inside, within.2.1, by omega, sized.2⟩

def span (chunk : Chunk) : ℕ × ℕ := (chunk.startPos, chunk.endPos)

theorem makeChunks_getElem? (c : Chunker) (resourceID : Text) (metadata : Metadata)
    (pieces : List Piece) (i : ℕ) :
    (makeChunks c resourceID metadata pieces)[i]? =
      pieces[i]?.map (makeChunk c resourceID metadata i) := by
  simp only [makeChunks, List.getElem?_map, List.getElem?_zipIdx, Option.map_map, Nat.zero_add]
  rfl

theorem makeChunks_texts (c : Chunker) (resourceID : Text) (metadata : Metadata)
    (pieces : List Piece) :
    (makeChunks c resourceID metadata pieces).map Chunk.text = texts pieces := by
  ext1 i
  simp only [texts, List.getElem?_map, makeChunks_getElem?, Option.map_map]
  rfl

theorem makeChunks_spans (c : Chunker) (resourceID : Text) (metadata : Metadata)
    (pieces : List Piece) :
    (makeChunks c resourceID metadata pieces).map span = pieces.map bounds := by
  ext1 i
  simp only [List.getElem?_map, makeChunks_getElem?, Option.map_map]
  rfl

theorem makeChunks_index (c : Chunker) (resourceID : Text) (metadata : Metadata)
    (pieces : List Piece) :
    (makeChunks c resourceID metadata pieces).map Chunk.index = List.range pieces.length := by
  rw [List.range_eq_range', ← List.zipIdx_map_snd, makeChunks, List.map_map]
  rfl

theorem mem_makeChunks {c : Chunker} {resourceID : Text} {metadata : Metadata}
    {pieces : List Piece} {chunk : Chunk} (mem : chunk ∈ makeChunks c resourceID metadata pieces) :
    ∃ p ∈ pieces, ∃ i, chunk = makeChunk c resourceID metadata i p := by
  obtain ⟨p, numbered, same⟩ := List.mem_map.mp mem
  exact ⟨p.1, List.fst_mem_of_mem_zipIdx numbered, p.2, same.symm⟩

theorem disjoint_unique {pieces : List Piece}
    (disjoint : pieces.Pairwise fun a b => a.endPos ≤ b.startPos) {i j pos : ℕ} {a b : Piece}
    (here : pieces[i]? = some a) (there : pieces[j]? = some b)
    (in_a : a.startPos ≤ pos ∧ pos < a.endPos) (in_b : b.startPos ≤ pos ∧ pos < b.endPos) :
    i = j := by
  have apart {i j : ℕ} {a b : Piece} (here : pieces[i]? = some a) (there : pieces[j]? = some b)
      (before : i < j) : a.endPos ≤ b.startPos := by
    obtain ⟨inside, same⟩ := List.getElem?_eq_some_iff.mp here
    obtain ⟨inside', same'⟩ := List.getElem?_eq_some_iff.mp there
    rw [← same, ← same']
    exact List.pairwise_iff_getElem.mp disjoint i j inside inside' before
  rcases Nat.lt_trichotomy i j with before | same | after
  · have := apart here there before
    omega
  · exact same
  · have := apart there here after
    omega

theorem chunks_slices (c : Chunker) (text resourceID : Text) (metadata : Metadata) :
    let semantic := makeChunks c resourceID metadata (semanticPieces c text)
    let paragraph := makeChunks c resourceID metadata (paragraphPieces c text)
    ((semantic.map Chunk.text).flatten = text ∧
      Tiles 0 text.length (semantic.map span) ∧
      semantic.map Chunk.index = List.range semantic.length) ∧
    (paragraph.Pairwise (fun a b => a.endPos ≤ b.startPos) ∧
      ∀ pos x, text[pos]? = some x → isSpace x = false →
        ∃! i : ℕ, ∃ chunk : Chunk, paragraph[i]? = some chunk ∧
          chunk.startPos ≤ pos ∧ pos < chunk.endPos) ∧
    ∀ chunk ∈ semantic ++ paragraph,
      chunk.text ≠ [] ∧ chunk.text = slice text chunk.startPos chunk.endPos ∧
        chunk.endPos ≤ text.length ∧ chunk.text.length ≤ c.config.chunkSize := by
  dsimp only
  refine ⟨⟨?_, ?_, ?_⟩, ⟨?_, ?_⟩, ?_⟩
  · rw [makeChunks_texts, (semanticPieces_placed c text).2]
  · have tiles := (semanticPieces_placed c text).1.tiles
    rwa [(semanticPieces_placed c text).2, Nat.zero_add, ← makeChunks_spans] at tiles
  · rw [makeChunks_index, makeChunks_length]
  · have apart : ((paragraphPieces c text).map bounds).Pairwise fun a b => a.2 ≤ b.1 :=
      List.pairwise_map.mpr (paragraphPieces_disjoint c text)
    rw [← makeChunks_spans c resourceID metadata] at apart
    exact List.pairwise_map.mp apart
  · intro pos x found solid
    obtain ⟨p, mem, within⟩ := paragraphPieces_covers c found solid
    obtain ⟨i, here⟩ := List.mem_iff_getElem?.mp mem
    refine ⟨i, ⟨_, by rw [makeChunks_getElem?, here]; rfl, within⟩, ?_⟩
    rintro j ⟨chunk, there, inside⟩
    rw [makeChunks_getElem?, Option.map_eq_some_iff] at there
    obtain ⟨q, there, rfl⟩ := there
    exact disjoint_unique (paragraphPieces_disjoint c text) there here inside within
  · intro chunk mem
    have sliced : ∃ p, IsSlice c text p ∧ ∃ i, chunk = makeChunk c resourceID metadata i p := by
      rcases List.mem_append.mp mem with semantic | paragraph
      · obtain ⟨p, inside, numbered⟩ := mem_makeChunks semantic
        exact ⟨p, semanticPieces_slice inside, numbered⟩
      · obtain ⟨p, inside, numbered⟩ := mem_makeChunks paragraph
        exact ⟨p, paragraphPieces_slice inside, numbered⟩
    obtain ⟨p, cut, i, rfl⟩ := sliced
    exact ⟨cut.some, cut.slice_eq, cut.endPos_le, cut.length_le⟩

end KnowledgeCompanion.ChunkSlices
