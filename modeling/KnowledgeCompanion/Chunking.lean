import KnowledgeCompanion.ApiExceptions
import KnowledgeCompanion.BaseChunker

/-! The three chunking strategies and the service that selects one
(`services/chunking`). A strategy is given by its pieces; the chunks are the
numbered pieces for all three. -/

namespace KnowledgeCompanion.Chunking

open SpanScan PythonText BaseChunker ApiExceptions

/-- The length of a match of `\n\s*\n` at the head: the blanks that follow up to the
last line break among them. -/
def paragraphBreak : Text → Option ℕ
  | [] => none
  | c :: rest =>
    let blanks := rest.takeWhile isSpace
    if c = '\n' ∧ '\n' ∈ blanks then some (1 + (blanks.rdropWhile fun b => b != '\n').length)
    else none

def sentenceSeparators : List Text :=
  ["\n", "。", "！", "？", "；", "，", " ", ""].map String.toList

def rawPieces (text : Text) : List Piece :=
  ((gaps text.length 0 (findIter paragraphBreak text)).map fun g =>
    (⟨slice text g.start g.stop, g.start, g.stop⟩ : Piece)).filter fun p => !isBlank p.text

def paragraphPieces (c : Chunker) (text : Text) : List Piece :=
  if text = [] then []
  else
    (rawPieces text).flatMap fun p =>
      if sizeExceeded c p.text then splitText c sentenceSeparators true p.text p.startPos
      else [⟨p.text, p.startPos, p.startPos + p.text.length⟩]

/-- The loop of both searches: the first position that is not `ok`, when the `ok`
ones come first. -/
def bisect (ok : ℕ → Bool) (lo hi : ℕ) : ℕ :=
  if lo < hi then
    let mid := (lo + hi) / 2
    if ok mid then bisect ok (mid + 1) hi else bisect ok lo mid
  else lo
termination_by hi - lo

def findMaxEnd (c : Chunker) (text : Text) (startPos : ℕ) : ℕ :=
  bisect (fun mid => c.count (slice text startPos mid) ≤ c.config.chunkSize) (startPos + 1)
    (text.length + 1) - 1

def findOverlapChars (c : Chunker) (text : Text) (startPos endPos overlap : ℕ) : ℤ :=
  if overlap = 0 ∨ endPos ≤ startPos then 0
  else
    (bisect (fun mid => c.count (slice text (endPos - mid) endPos) ≤ overlap) 0
      (endPos - startPos + 1) : ℤ) - 1

def nextStart (c : Chunker) (text : Text) (startPos endPos : ℕ) : ℕ :=
  let overlap := min c.config.chunkOverlap (c.config.chunkSize - 1)
  let nextPos := endPos - findOverlapChars c text startPos endPos overlap
  if nextPos ≤ startPos then startPos + 1 else nextPos.toNat

theorem lt_nextStart (c : Chunker) (text : Text) (startPos endPos : ℕ) :
    startPos < nextStart c text startPos endPos := by
  unfold nextStart
  dsimp only
  split <;> omega

def windowsFrom (c : Chunker) (text : Text) (startPos : ℕ) : List Piece :=
  if startPos < text.length then
    let endPos := findMaxEnd c text startPos
    let window : Piece := ⟨slice text startPos endPos, startPos, endPos⟩
    if text.length ≤ endPos then [window]
    else window :: windowsFrom c text (nextStart c text startPos endPos)
  else []
termination_by text.length - startPos
decreasing_by
  have forward := lt_nextStart c text startPos (findMaxEnd c text startPos)
  omega

def fixedTokenPieces (c : Chunker) (text : Text) : List Piece := windowsFrom c text 0

def semanticPieces (c : Chunker) (text : Text) : List Piece :=
  splitText c (if c.config.separators = [] then defaultSeparators else c.config.separators)
    false text 0

inductive Strategy
  | paragraph
  | fixedToken
  | semantic
deriving DecidableEq

def Strategy.name : Strategy → Text
  | .paragraph => "paragraph".toList
  | .fixedToken => "fixed_token".toList
  | .semantic => "semantic".toList

def Strategy.pieces (c : Chunker) (text : Text) : Strategy → List Piece
  | .paragraph => paragraphPieces c text
  | .fixedToken => fixedTokenPieces c text
  | .semantic => semanticPieces c text

def chunkers (selected : Text) : Option Strategy :=
  [Strategy.paragraph, .fixedToken, .semantic].find? fun s => s.name == selected

/-- The chunkers with `str.lower`, which is any function here. -/
structure ChunkingService where
  chunker : Chunker
  lower : Text → Text

def selectedName (svc : ChunkingService) (strategy : Option Text) : Text :=
  let requested := strategy.getD []
  svc.lower (strip (if requested = [] then svc.chunker.config.defaultStrategy else requested))

def chunk (svc : ChunkingService) (text resourceID : Text) (metadata : Metadata)
    (strategy : Option Text) : Except ApiException (List Chunk) :=
  match chunkers (selectedName svc strategy) with
  | none => .error (invalidChunkingStrategyError (selectedName svc strategy))
  | some s => .ok (makeChunks svc.chunker resourceID metadata (s.pieces svc.chunker text))

theorem paragraphBreak_blank {text : Text} {n : ℕ} (found : paragraphBreak text = some n) :
    0 < n ∧ n ≤ text.length ∧ ∀ c ∈ text.take n, isSpace c = true := by
  cases text with
  | nil => simp [paragraphBreak] at found
  | cons c rest =>
    simp only [paragraphBreak] at found
    split at found
    · rename_i matches_here
      have length := Option.some.inj found
      have kept := (List.rdropWhile_prefix (fun b => b != '\n') (l := rest.takeWhile isSpace))
      have inside : rest.takeWhile isSpace <+: rest := List.takeWhile_prefix isSpace
      have short := (kept.trans inside).length_le
      refine ⟨by omega, by rw [List.length_cons]; omega, ?_⟩
      intro b mem
      rw [← length, Nat.add_comm, List.take_succ_cons] at mem
      rcases List.mem_cons.mp mem with first | later
      · rw [first, matches_here.1]
        rfl
      · rw [← List.prefix_iff_eq_take.mp (kept.trans inside)] at later
        exact List.mem_takeWhile_imp (kept.subset later)
    · simp at found

example : paragraphBreak "\n \n\n  x".toList = some 4 := by decide

theorem rawPieces_covers {text : Text} {pos : ℕ} {c : Char} (found : text[pos]? = some c)
    (solid : isSpace c = false) : ∃ p ∈ rawPieces text, p.startPos ≤ pos ∧ pos < p.endPos := by
  have below : pos < text.length := (List.getElem?_eq_some_iff.mp found).1
  rcases gaps_cover (findIter paragraphBreak text) (Nat.zero_le pos) below with gap | span
  · obtain ⟨g, in_gaps, above, within⟩ := gap
    refine ⟨⟨slice text g.start g.stop, g.start, g.stop⟩, ?_, above, within⟩
    refine List.mem_filter.mpr ⟨List.mem_map_of_mem (f := fun g : Span =>
      (⟨slice text g.start g.stop, g.start, g.stop⟩ : Piece)) in_gaps, ?_⟩
    have inside : c ∈ slice text g.start g.stop := mem_slice.mpr ⟨pos, above, within, found⟩
    rw [Bool.not_eq_true', ← Bool.not_eq_true]
    intro blank
    rw [isBlank_iff.mp blank c inside] at solid
    simp at solid
  · obtain ⟨s, in_spans, above, within⟩ := span
    have blank := (paragraphBreak_blank (findIter_match in_spans)).2.2
    have inside : c ∈ slice text s.start s.stop := mem_slice.mpr ⟨pos, above, within, found⟩
    rw [slice, List.drop_take] at inside
    rw [blank c inside] at solid
    simp at solid

theorem rawPieces_ne_nil {text : Text} (some : isBlank text = false) : rawPieces text ≠ [] := by
  have solid : ∃ c ∈ text, isSpace c = false := by
    by_contra none
    push Not at none
    have blank := isBlank_iff.mpr fun c mem => by simpa using none c mem
    rw [blank] at some
    exact Bool.false_ne_true some.symm
  obtain ⟨c, mem, solid⟩ := solid
  obtain ⟨pos, found⟩ := List.mem_iff_getElem?.mp mem
  obtain ⟨p, mem, -⟩ := rawPieces_covers found solid
  exact List.ne_nil_of_mem mem

theorem pieces_ne_nil {c : Chunker} {text : Text} (some : isBlank text = false)
    (s : Strategy) : s.pieces c text ≠ [] := by
  have text_some : text ≠ [] := ne_nil_of_not_blank some
  cases s with
  | paragraph =>
    simp only [Strategy.pieces, paragraphPieces, if_neg text_some]
    cases raw : rawPieces text with
    | nil => exact absurd raw (rawPieces_ne_nil some)
    | cons p pieces =>
      have solid : p.text ≠ [] := by
        have mem : p ∈ rawPieces text := by
          rw [raw]
          exact List.mem_cons_self
        apply ne_nil_of_not_blank
        simpa using (List.mem_filter.mp mem).2
      rw [List.flatMap_cons]
      intro empty
      have first := (List.append_eq_nil_iff.mp empty).1
      split at first
      · exact splitText_ne_nil solid first
      · simp at first
  | fixedToken =>
    have positive : 0 < text.length := List.length_pos_iff.mpr text_some
    simp only [Strategy.pieces, fixedTokenPieces]
    rw [windowsFrom, if_pos positive]
    dsimp only
    split <;> exact List.cons_ne_nil _ _
  | semantic => exact splitText_ne_nil text_some

theorem chunk_ok {svc : ChunkingService} {text resourceID : Text} {metadata : Metadata}
    {strategy : Option Text} {chunks : List Chunk}
    (h : chunk svc text resourceID metadata strategy = .ok chunks) :
    ∃ s : Strategy,
      chunks = makeChunks svc.chunker resourceID metadata (s.pieces svc.chunker text) := by
  unfold chunk at h
  split at h
  · simp at h
  · rename_i s _
    exact ⟨s, (Except.ok.inj h).symm⟩

theorem chunk_ids {svc : ChunkingService} {text resourceID : Text} {metadata : Metadata}
    {strategy : Option Text} {chunks : List Chunk}
    (h : chunk svc text resourceID metadata strategy = .ok chunks) :
    chunks.map Chunk.id = (List.range chunks.length).map (chunkID resourceID) ∧
      (isBlank text = false → 0 < chunks.length) := by
  obtain ⟨s, same⟩ := chunk_ok h
  rw [same, makeChunks_id, makeChunks_length]
  refine ⟨rfl, fun some => ?_⟩
  exact List.length_pos_iff.mpr (pieces_ne_nil some s)

theorem chunk_resourceID {svc : ChunkingService} {text resourceID : Text} {metadata : Metadata}
    {strategy : Option Text} {chunks : List Chunk}
    (h : chunk svc text resourceID metadata strategy = .ok chunks) :
    ∀ c ∈ chunks, c.resourceID = resourceID := by
  obtain ⟨s, rfl⟩ := chunk_ok h
  intro c mem
  obtain ⟨p, -, rfl⟩ := List.mem_map.mp mem
  rfl

end KnowledgeCompanion.Chunking
