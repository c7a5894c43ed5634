import Mathlib.Data.Rat.Defs
import KnowledgeCompanion.PythonText

/-! Chunks and what all chunking strategies share (`models/chunk.py`,
`services/chunking/config.py` and `base_chunker.py`): the accepted configurations,
the recursive split at separators and the greedy merge of its pieces. The token
estimator is any function from texts to counts. -/

namespace KnowledgeCompanion.BaseChunker

open SpanScan PythonText

inductive MetaValue
  | int (n : ℤ)
  | text (t : Text)
  | time (t : ℚ)
  | flag (b : Bool)
deriving DecidableEq

/-- A `dict` of metadata, its keys in the order they were added. -/
abbrev Metadata := List (String × MetaValue)

def Metadata.set (metadata : Metadata) (key : String) (value : MetaValue) : Metadata :=
  if metadata.any (fun entry => entry.1 == key) then
    metadata.map fun entry => if entry.1 == key then (key, value) else entry
  else metadata ++ [(key, value)]

theorem lookup_cons_ite (entry : String × MetaValue) (metadata : Metadata) (key : String) :
    List.lookup key (entry :: metadata) =
      if key = entry.1 then some entry.2 else metadata.lookup key := by
  rw [List.lookup_cons]
  by_cases same : key = entry.1
  · rw [if_pos same, beq_iff_eq.mpr same]
  · rw [if_neg same, beq_false_of_ne same]

theorem lookup_replaced (metadata : Metadata) (key other : String) (value : MetaValue) :
    (metadata.map fun entry => if entry.1 == key then (key, value) else entry).lookup other =
      if other = key then (metadata.lookup other).map fun _ => value
      else metadata.lookup other := by
  induction metadata with
  | nil => simp
  | cons entry metadata ih =>
    rw [List.map_cons, lookup_cons_ite, lookup_cons_ite, ih]
    by_cases replaced : entry.1 = key
    · subst replaced
      by_cases found : other = entry.1
      · simp [found]
      · simp [found]
    · by_cases found : other = entry.1
      · simp [found, replaced]
      · simp [found, replaced]

theorem lookup_set (metadata : Metadata) (key other : String) (value : MetaValue) :
    (metadata.set key value).lookup other =
      if other = key then some value else metadata.lookup other := by
  rw [Metadata.set]
  split
  · rename_i present
    have found : (metadata.lookup key).isSome = true := by
      obtain ⟨entry, mem, same⟩ := List.any_eq_true.mp present
      exact List.lookup_isSome_iff.mpr ⟨entry, mem, by rwa [beq_iff_eq, eq_comm, ← beq_iff_eq]⟩
    obtain ⟨old, found⟩ := Option.isSome_iff_exists.mp found
    rw [lookup_replaced]
    split
    · rename_i same
      rw [same, found, Option.map_some]
    · rfl
  · rename_i absent
    have nothing : metadata.lookup key = none := by
      rw [List.lookup_eq_none_iff]
      intro entry mem
      rw [Bool.not_eq_true, List.any_eq_false] at absent
      exact bne_iff_ne.mpr fun same => absent entry mem (beq_iff_eq.mpr same.symm)
    rw [List.lookup_append, lookup_cons_ite]
    split
    · rename_i same
      rw [same, nothing, Option.none_or]
    · exact Option.or_none

structure Chunk where
  id : Text
  resourceID : Text
  index : ℕ
  text : Text
  startPos : ℕ
  endPos : ℕ
  metadata : Metadata
  tokenCount : ℕ

structure ChunkingConfig where
  defaultStrategy : Text
  chunkSize : ℕ
  chunkOverlap : ℕ
  separators : List Text
  preserveMetadata : Bool
  maxInputChars : ℕ
  size_pos : 0 < chunkSize
  overlap_lt : chunkOverlap < chunkSize
  input_pos : 0 < maxInputChars
  separators_last : separators.getLast? = some []

def defaultSeparators : List Text :=
  ["\n## ", "\n# ", "\n\n", "\n", "。", "，", " ", ""].map String.toList

def defaultConfig : ChunkingConfig where
  defaultStrategy := "paragraph".toList
  chunkSize := 512
  chunkOverlap := 50
  separators := defaultSeparators
  preserveMetadata := true
  maxInputChars := 1000000
  size_pos := by decide
  overlap_lt := by decide
  input_pos := by decide
  separators_last := by decide

structure Chunker where
  config : ChunkingConfig
  count : Text → ℕ

structure Piece where
  text : Text
  startPos : ℕ
  endPos : ℕ

def chunkID (resourceID : Text) (index : ℕ) : Text := resourceID ++ '-' :: decimal index

def makeChunk (c : Chunker) (resourceID : Text) (metadata : Metadata) (index : ℕ)
    (piece : Piece) : Chunk where
  id := chunkID resourceID index
  resourceID := resourceID
  index := index
  text := piece.text
  startPos := piece.startPos
  endPos := piece.endPos
  metadata := if c.config.preserveMetadata then metadata else []
  tokenCount := c.count piece.text

def makeChunks (c : Chunker) (resourceID : Text) (metadata : Metadata) (pieces : List Piece) :
    List Chunk :=
  pieces.zipIdx.map fun p => makeChunk c resourceID metadata p.2 p.1

def sizeExceeded (c : Chunker) (text : Text) : Bool :=
  c.config.chunkSize < text.length || c.config.chunkSize < c.count text

def splitCharsFrom (c : Chunker) (text : Text) (startPos pos : ℕ) : List Piece :=
  if pos < text.length then
    let stop := min (pos + c.config.chunkSize) text.length
    ⟨slice text pos stop, startPos + pos, startPos + stop⟩ ::
      splitCharsFrom c text startPos stop
  else []
termination_by text.length - pos
decreasing_by
  have positive := c.config.size_pos
  omega

def splitChars (c : Chunker) (text : Text) (startPos : ℕ) : List Piece :=
  splitCharsFrom c text startPos 0

def mergeFrom (c : Chunker) : Piece → List Piece → List Piece
  | last, [] => [last]
  | last, piece :: pieces =>
    let combined := last.text ++ piece.text
    if combined.length ≤ c.config.chunkSize ∧ c.count combined ≤ c.config.chunkSize then
      mergeFrom c ⟨combined, last.startPos, piece.endPos⟩ pieces
    else last :: mergeFrom c piece pieces

def mergePieces (c : Chunker) : List Piece → List Piece
  | [] => []
  | piece :: pieces => mergeFrom c piece pieces

/-- The positions of consecutive texts from `cursor` on, without the empty ones. -/
def place : ℕ → List Text → List Piece
  | _, [] => []
  | cursor, text :: texts =>
    if text = [] then place (cursor + text.length) texts
    else ⟨text, cursor, cursor + text.length⟩ :: place (cursor + text.length) texts

def splitText (c : Chunker) : List Text → Bool → Text → ℕ → List Piece
  | separators, mergeAcross, text, startPos =>
    if text = [] then []
    else if !sizeExceeded c text then [⟨text, startPos, startPos + text.length⟩]
    else
      match separators with
      | [] => splitChars c text startPos
      | sep :: finer =>
        if sep = [] then splitChars c text startPos
        else
          let pieces := place startPos (rejoin sep (split sep text))
          let subPieces := pieces.flatMap fun p => splitText c finer true p.text p.startPos
          if mergeAcross then mergePieces c subPieces else subPieces

def texts (pieces : List Piece) : List Text := pieces.map Piece.text

theorem splitCharsFrom_flatten (c : Chunker) (text : Text) (startPos pos : ℕ) :
    (texts (splitCharsFrom c text startPos pos)).flatten = text.drop pos := by
  induction pos using splitCharsFrom.induct c text with
  | case1 pos inside stop ih =>
    rw [splitCharsFrom, if_pos inside]
    simp only [texts, List.map_cons, List.flatten_cons] at ih ⊢
    have forward : pos ≤ min (pos + c.config.chunkSize) text.length := by omega
    rw [ih, slice_drop forward]
  | case2 pos outside =>
    rw [splitCharsFrom, if_neg outside, List.drop_of_length_le (by omega)]
    rfl

theorem mergeFrom_flatten (c : Chunker) (last : Piece) (pieces : List Piece) :
    (texts (mergeFrom c last pieces)).flatten = last.text ++ (texts pieces).flatten := by
  induction pieces generalizing last with
  | nil => simp [mergeFrom, texts]
  | cons piece pieces ih =>
    simp only [mergeFrom, texts, List.map_cons, List.flatten_cons] at ih ⊢
    split
    · rw [ih, List.append_assoc]
    · simp only [List.map_cons, List.flatten_cons, ih]

theorem mergePieces_flatten (c : Chunker) (pieces : List Piece) :
    (texts (mergePieces c pieces)).flatten = (texts pieces).flatten := by
  cases pieces with
  | nil => rfl
  | cons piece pieces => exact mergeFrom_flatten c piece pieces

theorem place_flatten (cursor : ℕ) (ts : List Text) :
    (texts (place cursor ts)).flatten = ts.flatten := by
  induction ts generalizing cursor with
  | nil => rfl
  | cons t ts ih =>
    simp only [place, texts] at ih ⊢
    by_cases empty : t = []
    · rw [if_pos empty, ih, empty]
      rfl
    · rw [if_neg empty, List.map_cons, List.flatten_cons, List.flatten_cons, ih]

theorem flatMap_flatten {pieces : List Piece} {f : Piece → List Piece}
    (same : ∀ p, (texts (f p)).flatten = p.text) :
    (texts (pieces.flatMap f)).flatten = (texts pieces).flatten := by
  induction pieces with
  | nil => rfl
  | cons p pieces ih =>
    simp only [texts] at ih same
    simp only [texts, List.flatMap_cons, List.map_append, List.flatten_append, List.map_cons,
      List.flatten_cons, ih, same]

/-- The ways in which a text becomes pieces: it is empty, within the limits, cut by its
length, or taken apart at a separator, and a merge may follow. -/
theorem splitText_rule {c : Chunker} {motive : List Text → Text → ℕ → List Piece → Prop}
    (empty : ∀ separators startPos, motive separators [] startPos [])
    (whole : ∀ separators text startPos, text ≠ [] → sizeExceeded c text = false →
      motive separators text startPos [⟨text, startPos, startPos + text.length⟩])
    (cut : ∀ separators text startPos, text ≠ [] → sizeExceeded c text = true →
      separators.headD [] = [] → motive separators text startPos (splitChars c text startPos))
    (apart : ∀ sep finer text startPos, text ≠ [] → sizeExceeded c text = true → sep ≠ [] →
      (∀ part partPos, motive finer part partPos (splitText c finer true part partPos)) →
      motive (sep :: finer) text startPos ((place startPos (rejoin sep (split sep text))).flatMap
        fun p => splitText c finer true p.text p.startPos))
    (merged : ∀ separators text startPos pieces, motive separators text startPos pieces →
      motive separators text startPos (mergePieces c pieces))
    (separators : List Text) (mergeAcross : Bool) (text : Text) (startPos : ℕ) :
    motive separators text startPos (splitText c separators mergeAcross text startPos) := by
  induction separators generalizing mergeAcross text startPos with
  | nil =>
    unfold splitText
    split
    · rename_i nothing
      rw [nothing]
      exact empty _ _
    · rename_i solid
      split
      · rename_i within
        exact whole _ _ _ solid (by simpa using within)
      · rename_i long
        exact cut _ _ _ solid (by simpa using long) rfl
  | cons sep finer ih =>
    unfold splitText
    split
    · rename_i nothing
      rw [nothing]
      exact empty _ _
    · rename_i solid
      split
      · rename_i within
        exact whole _ _ _ solid (by simpa using within)
      · rename_i long
        have exceeds : sizeExceeded c text = true := by simpa using long
        dsimp only
        split
        · rename_i last
          exact cut _ _ _ solid exceeds last
        · rename_i separates
          have parts := apart sep finer text startPos solid exceeds separates (ih true)
          split
          · exact merged _ _ _ _ parts
          · exact parts

theorem splitText_flatten (c : Chunker) (separators : List Text) (mergeAcross : Bool)
    (text : Text) (startPos : ℕ) :
    (texts (splitText c separators mergeAcross text startPos)).flatten = text := by
  refine splitText_rule (motive := fun _ text _ pieces => (texts pieces).flatten = text)
    ?_ ?_ ?_ ?_ ?_ separators mergeAcross text startPos
  · intro _ _
    rfl
  · intro _ text _ _ _
    simp [texts]
  · intro _ text startPos _ _ _
    exact splitCharsFrom_flatten c text startPos 0
  · intro sep finer text startPos _ _ separates parts
    rw [flatMap_flatten fun p => parts p.text p.startPos, place_flatten, split_rejoin separates]
  · intro _ _ _ pieces same
    rw [mergePieces_flatten, same]

theorem splitText_ne_nil {c : Chunker} {separators : List Text} {mergeAcross : Bool}
    {text : Text} {startPos : ℕ} (some : text ≠ []) :
    splitText c separators mergeAcross text startPos ≠ [] := by
  intro empty
  have whole := splitText_flatten c separators mergeAcross text startPos
  rw [empty] at whole
  exact some whole.symm

theorem makeChunks_length (c : Chunker) (resourceID : Text) (metadata : Metadata)
    (pieces : List Piece) : (makeChunks c resourceID metadata pieces).length = pieces.length := by
  simp [makeChunks]

theorem makeChunks_id (c : Chunker) (resourceID : Text) (metadata : Metadata)
    (pieces : List Piece) :
    (makeChunks c resourceID metadata pieces).map Chunk.id =
      (List.range pieces.length).map (chunkID resourceID) := by
  have ids : Chunk.id ∘ (fun p : Piece × ℕ => makeChunk c resourceID metadata p.2 p.1) =
      chunkID resourceID ∘ Prod.snd := by
    funext p
    rfl
  rw [makeChunks, List.map_map, ids, ← List.map_map, List.zipIdx_map_snd, ← List.range_eq_range']

theorem chunkID_inj {resourceID : Text} {m n : ℕ}
    (same : chunkID resourceID m = chunkID resourceID n) : m = n := by
  have tails := List.append_cancel_left same
  exact decimal_inj (List.cons.inj tails).2

end KnowledgeCompanion.BaseChunker
