import KnowledgeCompanion.Citations
import KnowledgeCompanion.Ranking

/-! The markers that are left in an answer when its citations are built, the citation of
each of them, and the markers that ought to have been left out. -/

namespace KnowledgeCompanion.CitedAnswers

open PythonText BaseChunker MarkerText Citations Ranking

variable {D : Type}

def Names (chunks : List RetrievalChunk) (n : ℕ) (chunk : RetrievalChunk) : Prop :=
  1 ≤ n ∧ chunks[n - 1]? = some chunk

def permitted (chunks : List RetrievalChunk) (authorized : List Text) (n : ℕ) : Bool :=
  decide (1 ≤ n) && (chunks[n - 1]?).any fun chunk =>
    decide (authorized = [] ∨ chunk.resourceID ∈ authorized)

/-- The numbers to be cited: in range, authorised and, in the order of their first markers,
within the limit. -/
def citable (limit : ℤ) (chunks : List RetrievalChunk) (authorized : List Text) (answer : Text) :
    List ℕ :=
  let numbers := (numbersOf (tokens pythonDigits answer)).filterMap intOfDigits
  (firstOfEach id [] (numbers.filter (permitted chunks authorized))).take limit.toNat

def isCitable (limit : ℤ) (chunks : List RetrievalChunk) (authorized : List Text) (answer : Text)
    (digits : Text) : Bool :=
  (intOfDigits digits).any fun n => decide (n ∈ citable limit chunks authorized answer)

def citedDigits (limit : ℤ) (chunks : List RetrievalChunk) (authorized : List Text) (answer : Text)
    (cs : List (Citation D)) (digits : Text) : Option Text :=
  if isCitable limit chunks authorized answer digits = true then
    (cs.find? fun c => intOfDigits digits = some c.original).map fun c => decimal c.index
  else none

/-- Each marker to be cited has the citation of its chunk, the text is the answer with these
markers renumbered and the others left out, and the markers in it are those of citations. -/
structure Traced (limit : ℤ) (chunks : List RetrievalChunk) (authorized : List Text)
    (answer : Text) (result : Text × List (Citation D)) : Prop where
  cited : ∀ digits, .marker digits ∈ tokens pythonDigits answer →
    isCitable limit chunks authorized answer digits = true →
      ∃ c ∈ result.2, intOfDigits digits = some c.original ∧ From chunks c.original c
  text : result.1 =
    edit pythonDigits (citedDigits limit chunks authorized answer result.2) answer
  left : ∀ digits, .marker digits ∈ tokens pythonDigits result.1 →
    ∃ c ∈ result.2, digits = decimal c.index

def Described (fmt : CitationFormatter D) (chunks : List RetrievalChunk) (digits : Text) : Prop :=
  ∀ n ∈ intOfDigits digits, ∀ chunk, Names chunks n chunk → (fmt.describe chunk).isSome = true

theorem mem_numbersOf {ts : List Token} {digits : Text} :
    digits ∈ numbersOf ts ↔ .marker digits ∈ ts := by
  rw [numbersOf, List.mem_filterMap]
  constructor
  · rintro ⟨t, mem, same⟩
    cases t with
    | lit c => cases same
    | marker other => exact Option.some.inj same ▸ mem
  · exact fun mem => ⟨_, mem, rfl⟩

/-- The citations are those of the markers read: each is made from the chunk of one of them,
and each in range has one. -/
structure Answers (fmt : CitationFormatter D) (chunks : List RetrievalChunk) (read : List Text)
    (found : Found D) : Prop where
  kept : Kept chunks found
  made : ∀ c ∈ found.citations, ∃ digits ∈ read, ∃ chunk, intOfDigits digits = some c.original ∧
    Names chunks c.original chunk ∧ chunk.resourceID = c.resourceID ∧
      (fmt.describe chunk).isSome = true
  cited : ∀ digits ∈ read, ∃ n, intOfDigits digits = some n ∧
    ∀ chunk, Names chunks n chunk → ∃ c ∈ found.citations, c.original = n

theorem answers_start (fmt : CitationFormatter D) (chunks : List RetrievalChunk) :
    Answers fmt chunks [] {} where
  kept := ⟨⟨List.Pairwise.nil, List.nodup_nil, by simp, by simp⟩, by simp, rfl⟩
  made := by simp
  cited := by simp

theorem formatMatch_answers {fmt : CitationFormatter D} {chunks : List RetrievalChunk}
    {read : List Text} {found next : Found D} {digits : Text}
    (answers : Answers fmt chunks read found)
    (step : formatMatch fmt chunks found digits = some next) :
    Answers fmt chunks (read ++ [digits]) next := by
  have kept := formatMatch_kept answers.kept step
  obtain ⟨n, value, ⟨rfl, skipped⟩ | ⟨-, positive, chunk, c, there, made, rfl⟩⟩ :=
    formatMatch_cases step
  · refine ⟨kept, fun c mem => ?_, fun other mem => ?_⟩
    · obtain ⟨source, was, rest⟩ := answers.made c mem
      exact ⟨source, List.mem_append_left _ was, rest⟩
    · rcases List.mem_append.mp mem with was | last
      · exact answers.cited other was
      · rw [List.mem_singleton.mp last]
        refine ⟨n, value, fun chunk names => ?_⟩
        rcases skipped with used | low | beyond
        · rw [kept.used, List.map_map] at used
          exact List.mem_map.mp used
        · exact absurd names.1 (by omega)
        · exact absurd (names.2.symm.trans beyond) (Option.some_ne_none _)
  · obtain ⟨-, source, -, -, resource, described⟩ := citationFromChunk_spec made
    refine ⟨kept, fun d mem => ?_, fun other mem => ?_⟩
    · rcases List.mem_append.mp mem with old | last
      · obtain ⟨first, was, rest⟩ := answers.made d old
        exact ⟨first, List.mem_append_left _ was, rest⟩
      · rw [List.mem_singleton.mp last, source]
        exact ⟨digits, by simp, chunk, value, ⟨positive, there⟩, resource.symm,
          Option.isSome_of_eq_some described⟩
    · rcases List.mem_append.mp mem with was | last
      · obtain ⟨m, known, cited⟩ := answers.cited other was
        refine ⟨m, known, fun chunk' names => ?_⟩
        obtain ⟨d, old, same⟩ := cited chunk' names
        exact ⟨d, List.mem_append_left _ old, same⟩
      · rw [List.mem_singleton.mp last]
        exact ⟨n, value, fun _ _ => ⟨c, by simp, source⟩⟩

theorem formatMatches_answers {fmt : CitationFormatter D} {chunks : List RetrievalChunk}
    {read numbers : List Text} {found last : Found D} (answers : Answers fmt chunks read found)
    (run : formatMatches fmt chunks found numbers = some last) :
    Answers fmt chunks (read ++ numbers) last := by
  induction numbers generalizing read found with
  | nil =>
    rw [List.append_nil, ← Option.some.inj run]
    exact answers
  | cons digits numbers ih =>
    rw [formatMatches] at run
    split at run
    · cases run
    · rename_i next step
      rw [List.append_cons]
      exact ih (formatMatch_answers answers step) run

theorem formatMatches_isSome {fmt : CitationFormatter D} {chunks : List RetrievalChunk}
    {numbers : List Text} (readable : ∀ digits ∈ numbers, (intOfDigits digits).isSome = true)
    (described : ∀ digits ∈ numbers, Described fmt chunks digits) (found : Found D) :
    (formatMatches fmt chunks found numbers).isSome = true := by
  induction numbers generalizing found with
  | nil => rfl
  | cons digits numbers ih =>
    have step : (formatMatch fmt chunks found digits).isSome = true := by
      obtain ⟨n, value⟩ := Option.isSome_iff_exists.mp (readable digits List.mem_cons_self)
      have chunk := described digits List.mem_cons_self n value
      rw [formatMatch, value]
      dsimp only
      split
      · rfl
      split
      · rfl
      rename_i positive
      cases there : chunks[n - 1]? with
      | none => rfl
      | some source =>
        obtain ⟨details, known⟩ :=
          Option.isSome_iff_exists.mp (chunk source ⟨by omega, there⟩)
        simp [citationFromChunk, known]
    obtain ⟨next, this⟩ := Option.isSome_iff_exists.mp step
    rw [formatMatches, this]
    exact ih (fun d mem => readable d (List.mem_cons_of_mem digits mem))
      (fun d mem => described d (List.mem_cons_of_mem digits mem)) next

theorem Answers.described {fmt : CitationFormatter D} {chunks : List RetrievalChunk}
    {read : List Text} {found : Found D} (answers : Answers fmt chunks read found) {digits : Text}
    (mem : digits ∈ read) : Described fmt chunks digits := by
  intro n value chunk names
  obtain ⟨m, known, cited⟩ := answers.cited digits mem
  rw [Option.some.inj (known.symm.trans value)] at cited
  obtain ⟨c, there, same⟩ := cited chunk names
  obtain ⟨-, -, source, -, own, -, described⟩ := answers.made c there
  rw [same] at own
  rwa [Option.some.inj (names.2.symm.trans own.2)]

def renumberedDigits (replacements : List (ℕ × ℕ)) (digits : Text) : Text :=
  match (intOfDigits digits).bind fun n => replacements.lookup n with
  | some replacement => decimal replacement
  | none => digits

theorem renumberAnswer_eq (answer : Text) (replacements : List (ℕ × ℕ)) :
    renumberAnswer answer replacements =
      sub pythonDigits (renumberedDigits replacements) answer := by
  rw [renumberAnswer]
  split
  · rename_i empty
    have same : renumberedDigits replacements = id := by
      funext digits
      rw [renumberedDigits, empty]
      cases intOfDigits digits <;> rfl
    rw [same, sub_id]
  · rfl

theorem number_decimal (n : ℕ) : Number pythonDigits (decimal n) := by
  refine ⟨Nat.toDigits_ne_nil, fun c mem => ?_⟩
  have digit := Nat.isDigit_of_mem_toDigits (by decide) (by decide) mem
  simp only [Char.isDigit, Bool.and_eq_true, decide_eq_true_eq] at digit
  have low : (48 : ℕ) ≤ c.toNat := UInt32.le_iff_toNat_le.mp digit.1
  have high : c.toNat ≤ 57 := UInt32.le_iff_toNat_le.mp digit.2
  have first : decimalZeros.find? (fun first => first ≤ c.toNat && c.toNat ≤ first + 9) =
      some 0x30 := List.find?_cons_of_pos (by simp [low, high])
  change (decimalValue c).isSome = true
  rw [decimalValue, first]
  rfl

theorem renumberedDigits_proper (replacements : List (ℕ × ℕ)) :
    Proper pythonDigits (renumberedDigits replacements) := by
  intro digits number
  rw [renumberedDigits]
  split
  · exact number_decimal _
  · exact number

theorem Answers.renumbered {fmt : CitationFormatter D} {chunks : List RetrievalChunk}
    {read : List Text} {found : Found D} (answers : Answers fmt chunks read found)
    {c : Citation D} (mem : c ∈ found.citations) {digits : Text}
    (value : intOfDigits digits = some c.original) :
    renumberedDigits found.replacements digits = decimal c.index := by
  have pairs : (c.original, c.index) ∈ found.replacements := by
    rw [answers.kept.used]
    exact List.mem_map_of_mem (f := fun c : Citation D => (c.original, c.index)) mem
  have distinct : (found.replacements.map Prod.fst).Nodup := by
    rw [answers.kept.used, List.map_map]
    exact answers.kept.numbered.distinct
  rw [renumberedDigits, value, Option.bind_some, lookup_of_mem distinct pairs]

theorem Answers.citedDigits_eq {fmt : CitationFormatter D} {limit : ℤ}
    {chunks : List RetrievalChunk} {authorized : List Text} {answer : Text} {read : List Text}
    {found : Found D} (answers : Answers fmt chunks read found) {cs : List (Citation D)}
    (sub : ∀ c ∈ cs, c ∈ found.citations) {digits new : Text}
    (taken : new ∈ citedDigits limit chunks authorized answer cs digits) :
    new = renumberedDigits found.replacements digits := by
  rw [citedDigits] at taken
  split at taken
  · obtain ⟨c, first, rfl⟩ := Option.map_eq_some_iff.mp taken
    have value := List.find?_some first
    exact (answers.renumbered (sub c (List.mem_of_find?_eq_some first))
      (of_decide_eq_true value)).symm
  · exact absurd taken (Option.not_mem_none _)

theorem isCitable_of_citedDigits {limit : ℤ} {chunks : List RetrievalChunk}
    {authorized : List Text} {answer digits new : Text} {cs : List (Citation D)}
    (taken : citedDigits limit chunks authorized answer cs digits = some new) :
    isCitable limit chunks authorized answer digits = true := by
  rw [citedDigits] at taken
  split at taken
  · assumption
  · exact absurd taken.symm (Option.some_ne_none _)

theorem validateFrom_all {maxCitations : ℤ} {authorized : List Text} {count : ℕ}
    {cs : List (Citation D)} (seen : ∀ c ∈ cs, authorized = [] ∨ c.resourceID ∈ authorized)
    (room : count + cs.length ≤ maxCitations.toNat) :
    validateFrom maxCitations authorized count cs = cs := by
  induction cs generalizing count with
  | nil => rfl
  | cons c cs ih =>
    rw [List.length_cons] at room
    have own : ¬ (authorized ≠ [] ∧ c.resourceID ∉ authorized) := by
      rcases seen c List.mem_cons_self with open_ | mem
      · exact fun shut => shut.1 open_
      · exact fun shut => shut.2 mem
    rw [validateFrom, if_neg own]
    split
    · have last : cs = [] := List.length_eq_zero_iff.mp (by omega)
      rw [last]
    · rw [ih (fun d mem => seen d (List.mem_cons_of_mem c mem)) (by omega)]

theorem permitted_of_citable {limit : ℤ} {chunks : List RetrievalChunk} {authorized : List Text}
    {answer : Text} {n : ℕ} (mem : n ∈ citable limit chunks authorized answer) :
    ∃ chunk, Names chunks n chunk ∧ (authorized = [] ∨ chunk.resourceID ∈ authorized) := by
  have within := (firstOfEach_sublist id [] _).mem (List.mem_of_mem_take mem)
  have fine := (List.mem_filter.mp within).2
  rw [permitted, Bool.and_eq_true, decide_eq_true_eq, Option.any_eq_true] at fine
  obtain ⟨positive, chunk, there, seen⟩ := fine
  exact ⟨chunk, ⟨positive, there⟩, of_decide_eq_true seen⟩

theorem Answers.validated {fmt : CitationFormatter D} {limit : ℤ} {chunks : List RetrievalChunk}
    {authorized : List Text} {answer : Text} {found : Found D}
    (answers : Answers fmt chunks (numbersOf (tokens pythonDigits answer)) found)
    (all : ∀ digits, .marker digits ∈ tokens pythonDigits answer →
      isCitable limit chunks authorized answer digits = true) :
    validate limit found.citations authorized = found.citations := by
  have numbered : ∀ c ∈ found.citations, c.original ∈ citable limit chunks authorized answer := by
    intro c mem
    obtain ⟨digits, read, -, value, -⟩ := answers.made c mem
    have cited := all digits (mem_numbersOf.mp read)
    rw [isCitable, value, Option.any_some, decide_eq_true_eq] at cited
    exact cited
  refine validateFrom_all (fun c mem => ?_) ?_
  · obtain ⟨-, -, source, -, own, resource, -⟩ := answers.made c mem
    obtain ⟨chunk, names, seen⟩ := permitted_of_citable (numbered c mem)
    rw [← Option.some.inj (own.2.symm.trans names.2), resource] at seen
    exact seen
  · have sub : found.citations.map Citation.original ⊆ citable limit chunks authorized answer := by
      intro n mem
      obtain ⟨c, there, rfl⟩ := List.mem_map.mp mem
      exact numbered c there
    have fewer := (List.subperm_of_subset answers.kept.numbered.distinct sub).length_le
    rw [List.length_map] at fewer
    have taken : (citable limit chunks authorized answer).length ≤ limit.toNat :=
      List.length_take_le _ _
    omega

theorem traced_of_citable {fmt : CitationFormatter D} {limit : ℤ} {answer : Text}
    {chunks : List RetrievalChunk} {authorized : List Text}
    (all : ∀ digits, .marker digits ∈ tokens pythonDigits answer →
      isCitable limit chunks authorized answer digits = true)
    (described : ∀ digits, .marker digits ∈ tokens pythonDigits answer →
      Described fmt chunks digits) :
    Traced limit chunks authorized answer (buildCitations fmt limit answer chunks authorized) := by
  have runs : (formatMatches fmt chunks {} (numbersOf (tokens pythonDigits answer))).isSome :=
    formatMatches_isSome
      (fun digits mem => Option.isSome_of_any (all digits (mem_numbersOf.mp mem)))
      (fun digits mem => described digits (mem_numbersOf.mp mem)) {}
  obtain ⟨found, run⟩ := Option.isSome_iff_exists.mp runs
  have answers : Answers fmt chunks (numbersOf (tokens pythonDigits answer)) found :=
    formatMatches_answers (answers_start fmt chunks) run
  have result : buildCitations fmt limit answer chunks authorized =
      (sub pythonDigits (renumberedDigits found.replacements) answer, found.citations) := by
    rw [buildCitations, format, run]
    dsimp only
    rw [answers.validated all, renumberAnswer_eq]
  have cited : ∀ digits, .marker digits ∈ tokens pythonDigits answer →
      ∃ c ∈ found.citations, intOfDigits digits = some c.original := by
    intro digits mem
    obtain ⟨n, value, of⟩ := answers.cited digits (mem_numbersOf.mpr mem)
    have own := all digits mem
    rw [isCitable, value, Option.any_some, decide_eq_true_eq] at own
    obtain ⟨chunk, names, -⟩ := permitted_of_citable own
    obtain ⟨c, there, same⟩ := of chunk names
    exact ⟨c, there, by rw [value, same]⟩
  have taken : ∀ digits, .marker digits ∈ tokens pythonDigits answer →
      citedDigits limit chunks authorized answer found.citations digits =
        some (renumberedDigits found.replacements digits) := by
    intro digits mem
    obtain ⟨c, there, value⟩ := cited digits mem
    have some_ : (found.citations.find? fun c => intOfDigits digits = some c.original).isSome := by
      rw [List.find?_isSome]
      exact ⟨c, there, decide_eq_true value⟩
    obtain ⟨first, known⟩ := Option.isSome_iff_exists.mp some_
    have new : citedDigits limit chunks authorized answer found.citations digits =
        some (decimal first.index) := by
      rw [citedDigits, if_pos (all digits mem), known, Option.map_some]
    rw [new, answers.citedDigits_eq (fun _ mem => mem) new]
  rw [result]
  refine ⟨fun digits mem _ => ?_, ?_, fun digits mem => ?_⟩
  · obtain ⟨c, there, value⟩ := cited digits mem
    exact ⟨c, there, value, answers.kept.numbered.grounded c there⟩
  · exact (sub_eq_edit_iff fun digits _ new given =>
      answers.citedDigits_eq (fun _ mem => mem) given).mpr taken
  · rw [tokens_sub (renumberedDigits_proper _)] at mem
    obtain ⟨t, there, same⟩ := List.mem_map.mp mem
    cases t with
    | lit c => cases same
    | marker old =>
      obtain ⟨c, cites, value⟩ := cited old there
      exact ⟨c, cites, (Token.marker.inj same).symm.trans (answers.renumbered cites value)⟩

theorem citable_of_traced {fmt : CitationFormatter D} {limit : ℤ} {answer : Text}
    {chunks : List RetrievalChunk} {authorized : List Text}
    (traced : Traced limit chunks authorized answer
      (buildCitations fmt limit answer chunks authorized)) :
    ∀ digits, .marker digits ∈ tokens pythonDigits answer →
      isCitable limit chunks authorized answer digits = true ∧ Described fmt chunks digits := by
  intro digits mem
  have text := traced.text
  cases run : formatMatches fmt chunks {} (numbersOf (tokens pythonDigits answer)) with
  | none =>
    have result : buildCitations fmt limit answer chunks authorized = (answer, []) := by
      rw [buildCitations, format, run]
    have nothing (other : Text) :
        citedDigits limit chunks authorized answer ([] : List (Citation D)) other = none := by
      rw [citedDigits]
      split <;> rfl
    rw [result] at text
    have unchanged := (sub_eq_edit_iff (f := id) fun other _ new given =>
      absurd given (by rw [nothing]; exact Option.not_mem_none _)).mp ((sub_id answer).trans text)
    have kept := unchanged digits mem
    rw [nothing] at kept
    exact absurd kept.symm (Option.some_ne_none _)
  | some found =>
    have answers : Answers fmt chunks (numbersOf (tokens pythonDigits answer)) found :=
      formatMatches_answers (answers_start fmt chunks) run
    have result : buildCitations fmt limit answer chunks authorized =
        (sub pythonDigits (renumberedDigits found.replacements) answer,
          validate limit found.citations authorized) := by
      rw [buildCitations, format, run]
      dsimp only
      rw [renumberAnswer_eq]
    rw [result] at text
    have kept := (sub_eq_edit_iff fun other _ new given => answers.citedDigits_eq
      (fun c mem => (validateFrom_sublist _ _ _ _).mem mem) given).mp text digits mem
    exact ⟨isCitable_of_citedDigits kept, answers.described (mem_numbersOf.mpr mem)⟩

/-- The text and the citations agree just when every marker of the answer is in range,
authorised, within the limit and of a chunk that can be described. -/
theorem traced_iff (fmt : CitationFormatter D) (limit : ℤ) (answer : Text)
    (chunks : List RetrievalChunk) (authorized : List Text) :
    Traced limit chunks authorized answer (buildCitations fmt limit answer chunks authorized) ↔
      ∀ digits, .marker digits ∈ tokens pythonDigits answer →
        isCitable limit chunks authorized answer digits = true ∧ Described fmt chunks digits :=
  ⟨citable_of_traced, fun fine => traced_of_citable (fun digits mem => (fine digits mem).1)
    fun digits mem => (fine digits mem).2⟩

def onlyChunk : RetrievalChunk := ⟨"c1".toList, "lecture".toList, "slide".toList, 1, []⟩

/-- The marker stays in the answer and has no citation. -/
theorem missing_chunk_cited :
    buildCitations ⟨fun _ => some ()⟩ 8 "see [^3]".toList [onlyChunk] [] =
        ("see [^3]".toList, []) ∧
      ¬ Traced 8 [onlyChunk] [] "see [^3]".toList
        (buildCitations ⟨fun _ => some ()⟩ 8 "see [^3]".toList [onlyChunk] []) := by
  have marker : .marker "3".toList ∈ tokens pythonDigits "see [^3]".toList := by decide +kernel
  refine ⟨rfl, fun traced => ?_⟩
  have cited := (citable_of_traced traced _ marker).1
  exact absurd cited (by decide +kernel)

end KnowledgeCompanion.CitedAnswers
