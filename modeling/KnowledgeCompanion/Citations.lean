import Mathlib.Data.List.Nodup
import Mathlib.Data.Rat.Defs
import KnowledgeCompanion.BaseChunker
import KnowledgeCompanion.MarkerText

/-! Citations of an answer (`citation_formatter.py`, `citation_validator.py` and
`citation_service.py`): each marker `[^n]` names the n-th retrieved chunk, and the
citations are numbered anew in the order of their first markers. -/

namespace KnowledgeCompanion.Citations

open PythonText BaseChunker MarkerText

def pythonDigits : Alphabet where
  digit c := (decimalValue c).isSome
  opening := by decide
  closing := by decide

structure RetrievalChunk where
  chunkID : Text
  resourceID : Text
  text : Text
  score : ℚ
  metadata : Metadata

structure Citation (D : Type) where
  index : ℕ
  chunkID : Text
  resourceID : Text
  originalIndex : Option ℕ
  details : D

def Citation.original {D : Type} (c : Citation D) : ℕ := c.originalIndex.getD c.index

/-- `describe` is what a citation takes over of its chunk (type, page, times, score and
snippet), `none` where a value of the metadata makes the conversion raise. -/
structure CitationFormatter (D : Type) where
  describe : RetrievalChunk → Option D

variable {D : Type}

structure Found (D : Type) where
  citations : List (Citation D) := []
  replacements : List (ℕ × ℕ) := []

def citationFromChunk (fmt : CitationFormatter D) (index originalIndex : ℕ)
    (chunk : RetrievalChunk) : Option (Citation D) :=
  match fmt.describe chunk with
  | none => none
  | some details =>
    some ⟨index, chunk.chunkID, chunk.resourceID,
      if originalIndex = index then none else some originalIndex, details⟩

def formatMatch (fmt : CitationFormatter D) (chunks : List RetrievalChunk) (found : Found D)
    (digits : Text) : Option (Found D) :=
  match intOfDigits digits with
  | none => none
  | some index =>
    if index ∈ found.replacements.map Prod.fst then some found
    else if index < 1 then some found
    else
      match chunks[index - 1]? with
      | none => some found
      | some chunk =>
        match citationFromChunk fmt (found.citations.length + 1) index chunk with
        | none => none
        | some citation =>
          some ⟨found.citations ++ [citation],
            found.replacements ++ [(index, found.citations.length + 1)]⟩

def formatMatches (fmt : CitationFormatter D) (chunks : List RetrievalChunk) :
    Found D → List Text → Option (Found D)
  | found, [] => some found
  | found, digits :: rest =>
    match formatMatch fmt chunks found digits with
    | none => none
    | some found => formatMatches fmt chunks found rest

def numbersOf (ts : List Token) : List Text :=
  ts.filterMap fun t =>
    match t with
    | .lit _ => none
    | .marker digits => some digits

def renumberAnswer (answer : Text) (replacements : List (ℕ × ℕ)) : Text :=
  if replacements = [] then answer
  else
    sub pythonDigits (fun digits =>
      match (intOfDigits digits).bind fun n => replacements.lookup n with
      | some replacement => decimal replacement
      | none => digits) answer

def format (fmt : CitationFormatter D) (answer : Text) (chunks : List RetrievalChunk) :
    Option (Text × List (Citation D)) :=
  match formatMatches fmt chunks {} (numbersOf (tokens pythonDigits answer)) with
  | none => none
  | some found => some (renumberAnswer answer found.replacements, found.citations)

/-- The citations that are kept when `count` have been. -/
def validateFrom (maxCitations : ℤ) (authorized : List Text) :
    ℕ → List (Citation D) → List (Citation D)
  | _, [] => []
  | count, c :: cs =>
    if authorized ≠ [] ∧ c.resourceID ∉ authorized then
      validateFrom maxCitations authorized count cs
    else if maxCitations ≤ (count + 1 : ℕ) then [c]
    else c :: validateFrom maxCitations authorized (count + 1) cs

def validate (maxCitations : ℤ) (citations : List (Citation D)) (authorized : List Text) :
    List (Citation D) := validateFrom maxCitations authorized 0 citations

/-- `CitationService.build_citations`: whatever raises leaves the answer without
citations. -/
def buildCitations (fmt : CitationFormatter D) (maxCitations : ℤ) (answer : Text)
    (chunks : List RetrievalChunk) (authorized : List Text) : Text × List (Citation D) :=
  match format fmt answer chunks with
  | none => (answer, [])
  | some (renumbered, citations) => (renumbered, validate maxCitations citations authorized)

def From (chunks : List RetrievalChunk) (n : ℕ) (c : Citation D) : Prop :=
  1 ≤ n ∧ ∃ chunk, chunks[n - 1]? = some chunk ∧ chunk.chunkID = c.chunkID

/-- Citations in the order of their numbers, each of its own chunk. -/
structure Numbered (chunks : List RetrievalChunk) (cs : List (Citation D)) : Prop where
  increasing : cs.Pairwise fun c d => c.index < d.index
  distinct : (cs.map Citation.original).Nodup
  grounded : ∀ c ∈ cs, From chunks c.original c
  renumbered : ∀ c ∈ cs, c.originalIndex ≠ some c.index

theorem Numbered.sublist {chunks : List RetrievalChunk} {cs ds : List (Citation D)}
    (h : Numbered chunks ds) (sub : cs.Sublist ds) : Numbered chunks cs where
  increasing := h.increasing.sublist sub
  distinct := h.distinct.sublist (sub.map _)
  grounded c mem := h.grounded c (sub.mem mem)
  renumbered c mem := h.renumbered c (sub.mem mem)

theorem validateFrom_sublist (maxCitations : ℤ) (authorized : List Text) (count : ℕ)
    (cs : List (Citation D)) : (validateFrom maxCitations authorized count cs).Sublist cs := by
  induction cs generalizing count with
  | nil => exact List.Sublist.slnil
  | cons c cs ih =>
    rw [validateFrom]
    split
    · exact (ih count).cons c
    · split
      · exact (List.nil_sublist cs).cons_cons c
      · exact (ih (count + 1)).cons_cons c

/-- What the loop keeps: the citations are numbered from 1 on, and each number that is
used is the original one of a citation. -/
structure Kept (chunks : List RetrievalChunk) (found : Found D) : Prop where
  numbered : Numbered chunks found.citations
  bounded : ∀ c ∈ found.citations, c.index ≤ found.citations.length
  used : found.replacements = found.citations.map fun c => (c.original, c.index)

theorem citationFromChunk_spec {fmt : CitationFormatter D} {index original : ℕ}
    {chunk : RetrievalChunk} {c : Citation D}
    (made : citationFromChunk fmt index original chunk = some c) :
    c.index = index ∧ c.original = original ∧ c.originalIndex ≠ some c.index ∧
      c.chunkID = chunk.chunkID ∧ c.resourceID = chunk.resourceID ∧
      fmt.describe chunk = some c.details := by
  unfold citationFromChunk at made
  cases described : fmt.describe chunk with
  | none => simp [described] at made
  | some details =>
    simp only [described] at made
    rw [← Option.some.inj made]
    by_cases same : original = index <;> simp [Citation.original, same]

theorem formatMatch_cases {fmt : CitationFormatter D} {chunks : List RetrievalChunk}
    {found next : Found D} {digits : Text}
    (step : formatMatch fmt chunks found digits = some next) :
    ∃ n, intOfDigits digits = some n ∧
      ((next = found ∧ (n ∈ found.replacements.map Prod.fst ∨ n < 1 ∨ chunks[n - 1]? = none)) ∨
        n ∉ found.replacements.map Prod.fst ∧ 1 ≤ n ∧ ∃ chunk c, chunks[n - 1]? = some chunk ∧
          citationFromChunk fmt (found.citations.length + 1) n chunk = some c ∧
          next = ⟨found.citations ++ [c],
            found.replacements ++ [(n, found.citations.length + 1)]⟩) := by
  unfold formatMatch at step
  cases value : intOfDigits digits with
  | none => simp [value] at step
  | some n =>
    refine ⟨n, rfl, ?_⟩
    simp only [value] at step
    by_cases used : n ∈ found.replacements.map Prod.fst
    · rw [if_pos used] at step
      exact .inl ⟨(Option.some.inj step).symm, .inl used⟩
    rw [if_neg used] at step
    by_cases low : n < 1
    · rw [if_pos low] at step
      exact .inl ⟨(Option.some.inj step).symm, .inr (.inl low)⟩
    rw [if_neg low] at step
    cases there : chunks[n - 1]? with
    | none =>
      rw [there] at step
      exact .inl ⟨(Option.some.inj step).symm, .inr (.inr rfl)⟩
    | some chunk =>
      cases made : citationFromChunk fmt (found.citations.length + 1) n chunk with
      | none => simp [there, made] at step
      | some c =>
        simp only [there, made] at step
        exact .inr ⟨used, by omega, chunk, c, rfl, made, (Option.some.inj step).symm⟩

theorem formatMatch_kept {fmt : CitationFormatter D} {chunks : List RetrievalChunk}
    {found next : Found D} {digits : Text} (kept : Kept chunks found)
    (step : formatMatch fmt chunks found digits = some next) : Kept chunks next := by
  obtain ⟨n, -, ⟨rfl, -⟩ | ⟨fresh, positive, chunk, c, there, made, rfl⟩⟩ := formatMatch_cases step
  · exact kept
  · obtain ⟨position, source, origin, chunkID, -, -⟩ := citationFromChunk_spec made
    have new : c.original ∉ found.citations.map Citation.original := by
      rw [source]
      intro mem
      apply fresh
      rw [kept.used, List.map_map]
      exact mem
    have from_ : From chunks c.original c := by
      rw [source]
      exact ⟨positive, chunk, there, chunkID.symm⟩
    refine ⟨⟨?_, ?_, ?_, ?_⟩, ?_, ?_⟩
    · rw [List.pairwise_append]
      refine ⟨kept.numbered.increasing, List.pairwise_singleton _ _, ?_⟩
      intro d mem e last
      have bound := kept.bounded d mem
      rw [List.mem_singleton.mp last, position]
      omega
    · rw [List.map_append, List.nodup_append]
      refine ⟨kept.numbered.distinct, List.nodup_singleton _, ?_⟩
      intro n mem m last
      rw [List.mem_singleton.mp last]
      exact fun same => new (same ▸ mem)
    · intro d mem
      rcases List.mem_append.mp mem with old | last
      · exact kept.numbered.grounded d old
      · exact List.mem_singleton.mp last ▸ from_
    · intro d mem
      rcases List.mem_append.mp mem with old | last
      · exact kept.numbered.renumbered d old
      · exact List.mem_singleton.mp last ▸ origin
    · intro d mem
      rw [List.length_append, List.length_singleton]
      rcases List.mem_append.mp mem with old | last
      · exact Nat.le_succ_of_le (kept.bounded d old)
      · rw [List.mem_singleton.mp last, position]
    · rw [List.map_append, kept.used, List.map_singleton, source, position]

theorem formatMatches_kept {fmt : CitationFormatter D} {chunks : List RetrievalChunk}
    {found last : Found D} {numbers : List Text} (kept : Kept chunks found)
    (run : formatMatches fmt chunks found numbers = some last) : Kept chunks last := by
  induction numbers generalizing found with
  | nil => exact Option.some.inj run ▸ kept
  | cons digits numbers ih =>
    rw [formatMatches] at run
    split at run
    · cases run
    · rename_i next step
      exact ih (formatMatch_kept kept step) run

theorem lookup_of_mem {l : List (ℕ × ℕ)} {n i : ℕ} (distinct : (l.map Prod.fst).Nodup)
    (mem : (n, i) ∈ l) : l.lookup n = some i := by
  induction l with
  | nil => exact absurd mem List.not_mem_nil
  | cons p l ih =>
    obtain ⟨fresh, rest⟩ := List.nodup_cons.mp distinct
    rcases List.mem_cons.mp mem with rfl | later
    · exact List.lookup_cons_self
    · have other : (n == p.1) = false := by
        refine beq_false_of_ne fun same => fresh ?_
        rw [← same]
        exact List.mem_map_of_mem (f := Prod.fst) later
      rw [List.lookup_cons, other]
      exact ih rest later

theorem buildCitations_numbered (fmt : CitationFormatter D) (maxCitations : ℤ) (answer : Text)
    (chunks : List RetrievalChunk) (authorized : List Text) :
    Numbered chunks (buildCitations fmt maxCitations answer chunks authorized).2 := by
  unfold buildCitations format
  cases run : formatMatches fmt chunks {} (numbersOf (tokens pythonDigits answer)) with
  | none => exact ⟨List.Pairwise.nil, List.nodup_nil, nofun, nofun⟩
  | some found =>
    have start : Kept (D := D) chunks {} :=
      ⟨⟨List.Pairwise.nil, List.nodup_nil, nofun, nofun⟩, nofun, rfl⟩
    exact (formatMatches_kept start run).numbered.sublist (validateFrom_sublist _ _ _ _)

end KnowledgeCompanion.Citations
