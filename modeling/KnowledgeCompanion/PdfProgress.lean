import Mathlib.Data.List.Sort
import Mathlib.Data.Rat.Floor
import KnowledgeCompanion.AsrTask
import KnowledgeCompanion.Emissions
import KnowledgeCompanion.ThrottledReports
import KnowledgeCompanion.VectorIndexing

/-! The progress that is reported while a PDF is parsed (`services/pdf_parser_service.py`), by the
recognition of scanned pages (`services/ocr_service.py`) and by the loop over the pages of the
document, and while a recording is transcribed. Quotients are exact. -/

namespace KnowledgeCompanion.PdfProgress

open ApiExceptions Emissions PythonText ThrottledReports VectorIndexing

structure PdfBlock where
  x : ℚ
  y : ℚ
  text : Text

/-- What the engine raises; only `OcrPageFailedError` is caught. -/
inductive EngineRaised
  | pageFailed
  | other (raised : Raised)

/-- A PDF, and what the libraries that read it do: `texts` is its text layer, page by page, and an
exception of `extraction` or `opening` comes before the first page is read or rendered. -/
structure PdfFile where
  pageCount : ℕ
  texts : ℕ → Text
  extraction : Option Raised
  opening : Option Raised
  render : ℕ → Option Raised
  recognize : ℕ → Except EngineRaised (List PdfBlock)

def noTextLayerError : ApiException := ⟨"NO_TEXT_LAYER", "PDF 无文本层，需要使用 OCR 处理", 400⟩

def ocrNoTextError : ApiException := ⟨"OCR_NO_TEXT", "无法识别文字", 400⟩

def pdfParseError (message : String) : ApiException := ⟨"PDF_PARSE_FAILED", message, 500⟩

def raising : Option Raised → Except Raised Unit
  | none => .ok ()
  | some e => .error e

def textPage (file : PdfFile) (i : ℕ) : PdfPage := ⟨i + 1, file.texts i, Nat.succ_pos i⟩

def extract (file : PdfFile) : Except Raised PdfDocument :=
  (raising file.extraction).map fun _ =>
    ⟨file.pageCount, (List.range file.pageCount).map (textPage file)⟩

def percent (part total : ℕ) : ℤ := ⌊min ((part : ℚ) / total * 100) 100⌋

def recognizePage (file : PdfFile) (i : ℕ) : Except Raised (List PdfBlock) :=
  match file.recognize i with
  | .ok blocks => .ok blocks
  | .error .pageFailed => .ok []
  | .error (.other raised) => .error raised

def above (a b : PdfBlock) : Bool := decide (a.y < b.y ∨ a.y = b.y ∧ a.x ≤ b.x)

def blocksText (blocks : List PdfBlock) : Text :=
  ['\n'].intercalate ((blocks.insertionSort fun a b => above a b).map PdfBlock.text)

def buildPage (file : PdfFile) (i : ℕ) : Except Raised PdfPage :=
  (recognizePage file i).map fun blocks => ⟨i + 1, blocksText blocks, Nat.succ_pos i⟩

def ocrPages (file : PdfFile) : List ℕ → Emission ℤ Raised (List PdfPage)
  | [] => pure []
  | i :: later => do
    let page ← lift (buildPage file i)
    provided (0 < file.pageCount) (emit (percent (i + 1) file.pageCount))
    let pages ← ocrPages file later
    return page :: pages

/-- The batches that `islice` takes from the renderer; each has a page, so that the number of pages
is fuel enough. -/
def ocrBatches (file : PdfFile) (size : ℕ) : ℕ → List ℕ → Emission ℤ Raised (List PdfPage)
  | 0, _ => pure []
  | fuel + 1, rest =>
    if rest = [] then pure []
    else do
      lift (raising ((rest.take size).findSome? file.render))
      let front ← ocrPages file (rest.take size)
      let back ← ocrBatches file size fuel (rest.drop size)
      return front ++ back

def processPdf (file : PdfFile) (maxPagesInMemory : ℤ) : Emission ℤ Raised PdfDocument := do
  lift (raising file.opening)
  let pages ← ocrBatches file (max 1 maxPagesInMemory).toNat file.pageCount
    (List.range file.pageCount)
  if pages = [] ∨ (pages.all fun page => isBlank page.text) then raise (.api ocrNoTextError)
  else return ⟨pages.length, pages⟩

/-- The OCR service is given by its `max_pages_in_memory`. -/
structure PdfParserService where
  ocrService : Option ℤ
  progressInterval : ℚ
  ocrFallback : Bool
  ocrThreshold : ℤ
  maxPages : ℤ

def isScannedPage (text : Text) (threshold : ℤ) : Bool :=
  decide (((strip text).length : ℤ) < threshold)

def detectNoTextLayer (document : PdfDocument) (threshold : ℤ) : Except Raised Unit :=
  if document.pages = [] then .ok ()
  else if (document.pages.countP fun page => isScannedPage page.text threshold) =
      document.pages.length then .error (.api noTextLayerError)
  else .ok ()

def pageProgress (pageIndex totalPages : ℕ) : ℤ :=
  if totalPages = 0 then 100 else percent (pageIndex + 1) totalPages

namespace PdfParserService

variable (s : PdfParserService)

def isFullyScanned (document : PdfDocument) : Bool :=
  !document.pages.isEmpty && document.pages.all fun page => isScannedPage page.text s.ocrThreshold

def applyOcrFallback (file : PdfFile) (extracted : PdfDocument) : Emission ℤ Raised PdfDocument :=
  if !s.ocrFallback then pure extracted
  else if !s.isFullyScanned extracted then pure extracted
  else
    match s.ocrService with
    | none => do
      lift (detectNoTextLayer extracted s.ocrThreshold)
      return extracted
    | some maxPagesInMemory => processPdf file maxPagesInMemory

def pageReports (totalPages : ℕ) : ℕ → ℤ → List PdfPage → List ℤ
  | _, _, [] => []
  | index, lastReported, _ :: later =>
    let progress := pageProgress index totalPages
    if s.progressInterval ≤ ((progress - lastReported : ℤ) : ℚ) ∨ 100 ≤ progress then
      progress :: pageReports totalPages (index + 1) progress later
    else pageReports totalPages (index + 1) lastReported later

def extractAndReport (file : PdfFile) : Emission ℤ Raised PdfDocument := do
  let extracted ← lift (extract file)
  if s.maxPages < extracted.totalPages then
    raise (.api (pdfParseError s!"PDF exceeds maximum allowed page count of {s.maxPages}"))
  else do
    let document ← s.applyOcrFallback file extracted
    emitAll (s.pageReports document.totalPages 0 0 document.pages)
    return document

end PdfParserService

theorem percent_bounds (part total : ℕ) : 0 ≤ percent part total ∧ percent part total ≤ 100 := by
  have nonneg : (0 : ℚ) ≤ (part : ℚ) / total * 100 := by positivity
  refine ⟨Int.floor_nonneg.mpr (le_min nonneg (by norm_num)), ?_⟩
  exact_mod_cast (Int.floor_le _).trans (min_le_right ((part : ℚ) / total * 100) 100)

theorem percent_mono {i j : ℕ} (total : ℕ) (le : i ≤ j) : percent i total ≤ percent j total := by
  refine Int.floor_le_floor (min_le_min_right 100 ?_)
  have cast : (i : ℚ) ≤ j := Nat.cast_le.mpr le
  gcongr

theorem percent_self {total : ℕ} (positive : 0 < total) : percent total total = 100 := by
  have nonzero : (total : ℚ) ≠ 0 := Nat.cast_ne_zero.mpr positive.ne'
  rw [percent, div_self nonzero, one_mul, min_self]
  exact Int.floor_natCast 100

theorem percent_lt {part total : ℕ} (before : part < total) : percent part total < 100 := by
  have positive : (0 : ℚ) < total := Nat.cast_pos.mpr (Nat.zero_lt_of_lt before)
  have less : (part : ℚ) / total < 1 := (div_lt_one positive).mpr (Nat.cast_lt.mpr before)
  refine Int.floor_lt.mpr (min_lt_of_left_lt ?_)
  push_cast
  linarith

def percents (n : ℕ) : List ℤ := (List.range n).map fun i => percent (i + 1) n

theorem mem_percents {n : ℕ} {value : ℤ} (mem : value ∈ percents n) : 0 ≤ value ∧ value ≤ 100 := by
  obtain ⟨i, -, rfl⟩ := List.mem_map.mp mem
  exact percent_bounds (i + 1) n

theorem percents_ordered (n : ℕ) : (percents n).Pairwise (· ≤ ·) := by
  refine List.pairwise_map.mpr (List.pairwise_lt_range.imp fun less => ?_)
  exact percent_mono n (by omega)

theorem percents_last {n : ℕ} (positive : 0 < n) : (percents n).getLast? = some 100 := by
  obtain ⟨k, rfl⟩ := Nat.exists_eq_add_of_le' positive
  rw [percents, List.range_succ, List.map_append, List.map_singleton, List.getLast?_concat,
    percent_self positive]

theorem percents_far_iff {n : ℕ} {interval : ℚ} :
    (∃ value ∈ percents n, value < 100 ∧ interval ≤ value) ↔
      2 ≤ n ∧ interval ≤ percent (n - 1) n := by
  constructor
  · rintro ⟨value, mem, below, far⟩
    obtain ⟨i, inside, rfl⟩ := List.mem_map.mp mem
    rw [List.mem_range] at inside
    have early : i + 1 ≠ n := by
      rintro rfl
      rw [percent_self (Nat.succ_pos i)] at below
      exact absurd below (by decide)
    have le : percent (i + 1) n ≤ percent (n - 1) n := percent_mono n (by omega)
    exact ⟨by omega, far.trans (Int.cast_le.mpr le)⟩
  · rintro ⟨two, far⟩
    refine ⟨percent (n - 1) n, List.mem_map.mpr ⟨n - 2, ?_, ?_⟩, percent_lt (by omega), far⟩
    · exact List.mem_range.mpr (by omega)
    · rw [(by omega : n - 2 + 1 = n - 1)]

section Recognition

variable (file : PdfFile)

/-- The engine answers for the page, or fails in the way that is caught. -/
def Readable (i : ℕ) : Prop := ∀ raised, file.recognize i ≠ .error (.other raised)

def pageText (i : ℕ) : Text :=
  match file.recognize i with
  | .ok blocks => blocksText blocks
  | .error _ => []

def ocrPage (i : ℕ) : PdfPage := ⟨i + 1, pageText file i, Nat.succ_pos i⟩

/-- What a computation over these pages reports, and when it returns. -/
structure Paged (is : List ℕ) (fine : Prop) (c : Emission ℤ Raised (List PdfPage)) : Prop where
  reports : c.outputs <+: is.map fun i => percent (i + 1) file.pageCount
  whole : ∀ pages, c.result = .ok pages →
    c.outputs = is.map fun i => percent (i + 1) file.pageCount
  returns : ∀ pages, c.result = .ok pages ↔ fine ∧ is.map (ocrPage file) = pages

variable {file}

theorem buildPage_cases (i : ℕ) :
    Readable file i ∧ buildPage file i = .ok (ocrPage file i) ∨
      ¬Readable file i ∧ ∃ e, buildPage file i = .error e := by
  unfold Readable buildPage recognizePage ocrPage pageText
  cases answer : file.recognize i with
  | ok blocks => exact .inl ⟨nofun, rfl⟩
  | error raised =>
    cases raised with
    | pageFailed => exact .inl ⟨nofun, rfl⟩
    | other e => exact .inr ⟨fun readable => readable e rfl, e, rfl⟩

theorem Paged.congr {is : List ℕ} {fine other : Prop} {c : Emission ℤ Raised (List PdfPage)}
    (paged : Paged file is fine c) (same : fine ↔ other) : Paged file is other c :=
  ⟨paged.reports, paged.whole, fun pages => by rw [paged.returns, same]⟩

theorem paged_nil : Paged file [] True (pure []) :=
  ⟨List.prefix_refl [], fun _ _ => rfl, fun _ => by
    rw [true_and]
    exact ⟨Except.ok.inj, congrArg Except.ok⟩⟩

theorem paged_page (positive : 0 < file.pageCount) (i : ℕ) :
    Paged file [i] (Readable file i) (do
      let page ← lift (buildPage file i)
      provided (0 < file.pageCount) (emit (percent (i + 1) file.pageCount))
      return [page]) := by
  rcases buildPage_cases i with ⟨readable, built⟩ | ⟨unreadable, e, built⟩
  · have run : (do
        let page ← lift (buildPage file i)
        provided (0 < file.pageCount) (emit (percent (i + 1) file.pageCount))
        return [page]) =
        (⟨[percent (i + 1) file.pageCount], .ok [ocrPage file i]⟩ :
          Emission ℤ Raised (List PdfPage)) := by
      rw [built, provided, if_pos (decide_eq_true positive)]
      rfl
    rw [run]
    refine ⟨List.prefix_refl _, fun _ _ => rfl, fun pages => ?_⟩
    rw [and_iff_right readable]
    exact ⟨Except.ok.inj, congrArg Except.ok⟩
  · rw [built]
    exact ⟨List.nil_prefix, nofun, fun pages => iff_of_false nofun fun both =>
      absurd both.1 unreadable⟩

/-- Two parts one after the other. -/
theorem Paged.append {is js : List ℕ} {fine other : Prop} {c d : Emission ℤ Raised (List PdfPage)}
    (first : Paged file is fine c) (second : Paged file js other d) :
    Paged file (is ++ js) (fine ∧ other) (do
      let front ← c
      let back ← d
      return front ++ back) := by
  cases front : c.result with
  | error e =>
    rw [bind_of_error _ front]
    refine ⟨first.reports.trans ?_, nofun, fun pages => iff_of_false nofun ?_⟩
    · rw [List.map_append]
      exact List.prefix_append _ _
    · rintro ⟨⟨fine, -⟩, -⟩
      exact nomatch front.symm.trans ((first.returns _).mpr ⟨fine, rfl⟩)
  | ok pages =>
    have reports := first.whole pages front
    obtain ⟨fine, rfl⟩ := (first.returns pages).mp front
    rw [bind_of_ok _ front, reports]
    cases back : d.result with
    | error e =>
      rw [bind_of_error _ back]
      refine ⟨?_, nofun, fun pages => iff_of_false nofun ?_⟩
      · rw [List.map_append]
        exact (List.prefix_append_right_inj _).mpr second.reports
      · rintro ⟨⟨-, other⟩, -⟩
        exact nomatch back.symm.trans ((second.returns _).mpr ⟨other, rfl⟩)
    | ok others =>
      have later := second.whole others back
      obtain ⟨other, rfl⟩ := (second.returns others).mp back
      rw [bind_of_ok _ back]
      have outputs : (is.map fun i => percent (i + 1) file.pageCount) ++ (d.outputs ++ []) =
          (is ++ js).map fun i => percent (i + 1) file.pageCount := by
        rw [List.append_nil, later, List.map_append]
      refine ⟨⟨[], (List.append_nil _).trans outputs⟩, fun _ _ => outputs, fun pages => ?_⟩
      rw [and_iff_right ⟨fine, other⟩, List.map_append]
      exact ⟨Except.ok.inj, congrArg Except.ok⟩

theorem Paged.guarded {is : List ℕ} {fine : Prop} {c : Emission ℤ Raised (List PdfPage)}
    (paged : Paged file is fine c) (stop : Option Raised) :
    Paged file is (stop = none ∧ fine) (do
      lift (raising stop)
      c) := by
  cases stop with
  | none => exact paged.congr (and_iff_right rfl).symm
  | some e => exact ⟨List.nil_prefix, nofun, fun pages => iff_of_false nofun nofun⟩

theorem ocrPages_cons (i : ℕ) (later : List ℕ) : ocrPages file (i :: later) = do
    let front ← (do
      let page ← lift (buildPage file i)
      provided (0 < file.pageCount) (emit (percent (i + 1) file.pageCount))
      return [page])
    let back ← ocrPages file later
    return front ++ back := by
  rw [ocrPages]
  cases buildPage file i with
  | error e => rfl
  | ok page =>
    unfold provided
    split <;> rfl

theorem ocrPages_paged (positive : 0 < file.pageCount) (is : List ℕ) :
    Paged file is (∀ i ∈ is, Readable file i) (ocrPages file is) := by
  induction is with
  | nil => exact paged_nil.congr (iff_of_true trivial nofun)
  | cons i later ih =>
    rw [ocrPages_cons]
    exact ((paged_page positive i).append ih).congr List.forall_mem_cons.symm

theorem ocrBatches_paged (positive : 0 < file.pageCount) {size : ℕ} (some_ : 0 < size) (fuel : ℕ)
    {is : List ℕ} (enough : is.length ≤ fuel) :
    Paged file is (∀ i ∈ is, file.render i = none ∧ Readable file i)
      (ocrBatches file size fuel is) := by
  induction fuel generalizing is with
  | zero =>
    obtain rfl := List.length_eq_zero_iff.mp (Nat.le_zero.mp enough)
    exact paged_nil.congr (iff_of_true trivial nofun)
  | succ fuel ih =>
    rw [ocrBatches]
    split
    · rename_i empty
      rw [empty]
      exact paged_nil.congr (iff_of_true trivial nofun)
    · rename_i filled
      have long := List.length_pos_iff.mpr filled
      have shorter : (is.drop size).length ≤ fuel := by
        rw [List.length_drop]
        omega
      have paged := ((ocrPages_paged positive (is.take size)).append (ih shorter)).guarded
        ((is.take size).findSome? file.render)
      rw [List.take_append_drop] at paged
      refine paged.congr ?_
      have parts : (∀ i ∈ is.take size ++ is.drop size, file.render i = none ∧ Readable file i) ↔
          _ := List.forall_mem_append
      rw [List.take_append_drop] at parts
      rw [List.findSome?_eq_none_iff, ← and_assoc, parts]
      exact and_congr_left' forall₂_and.symm

/-- Every page is rendered and read, and there is text on one of them. -/
structure Recognisable (file : PdfFile) : Prop where
  opened : file.opening = none
  read : ∀ i < file.pageCount, file.render i = none ∧ Readable file i
  visible : ∃ i < file.pageCount, isBlank (pageText file i) = false

theorem allBatches_paged (file : PdfFile) {size : ℕ} (some_ : 0 < size) :
    Paged file (List.range file.pageCount)
      (∀ i < file.pageCount, file.render i = none ∧ Readable file i)
      (ocrBatches file size file.pageCount (List.range file.pageCount)) := by
  rcases Nat.eq_zero_or_pos file.pageCount with none_ | positive
  · rw [none_]
    exact paged_nil.congr (iff_of_true trivial nofun)
  · refine (ocrBatches_paged positive some_ _ ?_).congr (by simp only [List.mem_range])
    rw [List.length_range]

theorem visible_iff (file : PdfFile) :
    ¬((List.range file.pageCount).map (ocrPage file) = [] ∨
        ((List.range file.pageCount).map (ocrPage file)).all (fun page => isBlank page.text) =
          true) ↔
      ∃ i < file.pageCount, isBlank (pageText file i) = false := by
  rw [not_or, List.all_map, List.all_eq_true, not_forall]
  simp only [List.mem_range, Function.comp_apply, ocrPage, Classical.not_imp, Bool.not_eq_true]
  refine and_iff_right_of_imp ?_
  rintro ⟨i, inside, -⟩ empty
  rw [List.map_eq_nil_iff, List.range_eq_nil] at empty
  exact Nat.not_lt_zero i (empty ▸ inside)

/-- What the recognition of a whole file reports, and when it returns. -/
structure Recognition (file : PdfFile) (c : Emission ℤ Raised PdfDocument) : Prop where
  reports : c.outputs <+: percents file.pageCount
  returns : Recognisable file → ∃ document, c.result = .ok document
  whole : ∀ document, c.result = .ok document → Recognisable file ∧
    c.outputs = percents file.pageCount ∧ document.totalPages = file.pageCount ∧
      document.pages.length = file.pageCount

theorem recognition_error {file : PdfFile} {reports : List ℤ} {e : Raised}
    (front : reports <+: percents file.pageCount) (fails : ¬Recognisable file) :
    Recognition file ⟨reports, .error e⟩ :=
  ⟨front, fun able => absurd able fails, nofun⟩

theorem processPdf_recognition (file : PdfFile) (memory : ℤ) :
    Recognition file (processPdf file memory) := by
  have paged := allBatches_paged file (by omega : 0 < (max 1 memory).toNat)
  unfold processPdf
  generalize ocrBatches file (max 1 memory).toNat file.pageCount (List.range file.pageCount) = c
    at paged
  cases opening : file.opening with
  | some e => exact recognition_error List.nil_prefix fun able =>
    nomatch opening.symm.trans able.opened
  | none =>
    change Recognition file (c >>= _)
    cases pages : c.result with
    | error e =>
      rw [bind_of_error _ pages]
      refine recognition_error paged.reports fun able => ?_
      exact nomatch pages.symm.trans ((paged.returns _).mpr ⟨able.read, rfl⟩)
    | ok found =>
      obtain ⟨read, rfl⟩ := (paged.returns found).mp pages
      have reports : c.outputs = percents file.pageCount := paged.whole _ pages
      rw [bind_of_ok _ pages, reports]
      split
      · rename_i blank
        refine recognition_error ⟨[], ?_⟩ fun able => (visible_iff file).mpr able.visible blank
        exact (List.append_nil _).trans (List.append_nil _)
      · rename_i shown
        have able : Recognisable file := ⟨opening, read, (visible_iff file).mp shown⟩
        have outputs : percents file.pageCount ++ [] = percents file.pageCount :=
          List.append_nil _
        refine ⟨⟨[], (List.append_nil _).trans outputs⟩, fun _ => ⟨_, rfl⟩,
          fun document returned => ?_⟩
        obtain rfl := Except.ok.inj returned
        refine ⟨able, outputs, ?_, ?_⟩
        · exact (List.length_map _).trans List.length_range
        · exact (List.length_map _).trans List.length_range

end Recognition

theorem pageReports_eq (s : PdfParserService) (total index : ℕ) (last : ℤ) (pages : List PdfPage) :
    s.pageReports total index last pages = reported s.progressInterval 100 last
      ((List.range' index pages.length).map fun i => pageProgress i total) := by
  induction pages generalizing index last with
  | nil => rfl
  | cons page later ih =>
    rw [PdfParserService.pageReports, List.length_cons, List.range'_succ, List.map_cons, reported,
      ih, ih]
    rfl

theorem pageReports_whole (s : PdfParserService) {n : ℕ} {pages : List PdfPage}
    (length : pages.length = n) :
    s.pageReports n 0 0 pages = reported s.progressInterval 100 0 (percents n) := by
  rw [pageReports_eq, length, ← List.range_eq_range', percents]
  refine congrArg _ (List.map_congr_left fun i mem => ?_)
  rw [List.mem_range] at mem
  exact if_neg (by omega)

def Progressive (values : List ℤ) : Prop :=
  (∀ value ∈ values, 0 ≤ value ∧ value ≤ 100) ∧ values.Pairwise (· ≤ ·)

theorem Progressive.sublist {values others : List ℤ} (progressive : Progressive others)
    (part : values.Sublist others) : Progressive values :=
  ⟨fun value mem => progressive.1 value (part.subset mem), progressive.2.sublist part⟩

theorem percents_progressive (n : ℕ) : Progressive (percents n) :=
  ⟨fun _ mem => mem_percents mem, percents_ordered n⟩

theorem twice_progressive_iff {n : ℕ} {interval : ℚ} (positive : 0 < n) :
    Progressive (percents n ++ reported interval 100 0 (percents n)) ↔
      ¬(2 ≤ n ∧ interval ≤ percent (n - 1) n) := by
  have second : Progressive (reported interval 100 0 (percents n)) :=
    (percents_progressive n).sublist reported_sublist
  rw [← percents_far_iff, ← reported_below_iff (percents_ordered n) fun v mem =>
    (mem_percents mem).1]
  constructor
  · rintro ⟨-, ordered⟩ ⟨value, mem, below⟩
    have top : 100 ∈ percents n := List.mem_of_getLast? (percents_last positive)
    exact absurd ((List.pairwise_append.mp ordered).2.2 100 top value mem) (by omega)
  · intro none_
    refine ⟨fun value mem => ?_, List.pairwise_append.mpr
      ⟨percents_ordered n, second.2, fun a first b mem => ?_⟩⟩
    · rcases List.mem_append.mp mem with first | later
      · exact mem_percents first
      · exact second.1 value later
    · have bound := (mem_percents first).2
      by_contra above
      exact none_ ⟨b, mem, by omega⟩

section Run

variable (s : PdfParserService) (file : PdfFile)

/-- The values reported are in order, and a run that returns has reported 100 at last. -/
structure PdfReported : Prop where
  progressive : Progressive (s.extractAndReport file).outputs
  complete : ∀ document, (s.extractAndReport file).result = .ok document → 0 < file.pageCount →
    (s.extractAndReport file).outputs.getLast? = some 100

/-- The pages are recognised because the text layer has too little on each. -/
structure UsesOcr : Prop where
  extracted : file.extraction = none
  few : (file.pageCount : ℤ) ≤ s.maxPages
  fallback : s.ocrFallback = true
  some_ : 0 < file.pageCount
  scanned : ∀ i < file.pageCount, isScannedPage (file.texts i) s.ocrThreshold = true
  service : s.ocrService ≠ none

/-- After the recognition the loop over the pages begins again below 100. -/
structure Repeats : Prop where
  used : UsesOcr s file
  recognised : Recognisable file
  two : 2 ≤ file.pageCount
  far : s.progressInterval ≤ percent (file.pageCount - 1) file.pageCount

variable {s file}

theorem failed_reported {reports : List ℤ} {e : Raised}
    (run : s.extractAndReport file = ⟨reports, .error e⟩) (progressive : Progressive reports) :
    PdfReported s file := by
  refine ⟨by rw [run]; exact progressive, fun document returned => ?_⟩
  rw [run] at returned
  exact nomatch returned

theorem returned_reported_iff {reports : List ℤ} {document : PdfDocument}
    (run : s.extractAndReport file =
      ⟨reports ++ reported s.progressInterval 100 0 (percents file.pageCount), .ok document⟩) :
    PdfReported s file ↔
      Progressive (reports ++ reported s.progressInterval 100 0 (percents file.pageCount)) := by
  refine ⟨fun holds => ?_, fun progressive => ⟨?_, fun _ _ positive => ?_⟩⟩
  · have progressive := holds.progressive
    rw [run] at progressive
    exact progressive
  · rw [run]
    exact progressive
  · rw [run]
    have last : (reported s.progressInterval 100 0 (percents file.pageCount)).getLast? =
        some 100 := reported_last (percents_last positive)
    rw [List.getLast?_append, last]
    rfl

def textDocument (file : PdfFile) : PdfDocument :=
  ⟨file.pageCount, (List.range file.pageCount).map (textPage file)⟩

theorem fullyScanned_iff : s.isFullyScanned (textDocument file) = true ↔
    0 < file.pageCount ∧
      ∀ i < file.pageCount, isScannedPage (file.texts i) s.ocrThreshold = true := by
  unfold PdfParserService.isFullyScanned textDocument
  simp only [Bool.and_eq_true, Bool.not_eq_true', List.isEmpty_eq_false_iff, ne_eq,
    List.map_eq_nil_iff, List.range_eq_nil, List.all_map, List.all_eq_true, List.mem_range,
    Function.comp_apply, textPage, Nat.pos_iff_ne_zero]

theorem detect_raises (scanned : s.isFullyScanned (textDocument file) = true) :
    detectNoTextLayer (textDocument file) s.ocrThreshold = .error (.api noTextLayerError) := by
  obtain ⟨filled, all⟩ := Bool.and_eq_true_iff.mp scanned
  have some_ : (textDocument file).pages ≠ [] := by
    intro empty
    rw [empty] at filled
    exact Bool.false_ne_true filled
  rw [detectNoTextLayer, if_neg some_, if_pos (List.countP_eq_length.mpr (List.all_eq_true.mp all))]

theorem run_few (extracted : file.extraction = none) (few : (file.pageCount : ℤ) ≤ s.maxPages) :
    s.extractAndReport file = (do
      let document ← s.applyOcrFallback file (textDocument file)
      emitAll (s.pageReports document.totalPages 0 0 document.pages)
      return document) := by
  have read : extract file = .ok (textDocument file) := by
    rw [extract, extracted]
    rfl
  rw [PdfParserService.extractAndReport, read]
  exact if_neg (Int.not_lt.mpr few)

theorem run_returns {document : PdfDocument} {c : Emission ℤ Raised PdfDocument}
    (extracted : file.extraction = none) (few : (file.pageCount : ℤ) ≤ s.maxPages)
    (chosen : s.applyOcrFallback file (textDocument file) = c) (returned : c.result = .ok document)
    (total : document.totalPages = file.pageCount)
    (length : document.pages.length = file.pageCount) :
    s.extractAndReport file =
      ⟨c.outputs ++ reported s.progressInterval 100 0 (percents file.pageCount), .ok document⟩ := by
  rw [run_few extracted few, chosen, bind_of_ok _ returned, total, pageReports_whole s length]
  change (⟨_ ++ (_ ++ []), _⟩ : Emission ℤ Raised PdfDocument) = _
  rw [List.append_nil]
  rfl

theorem progressive_nil : Progressive [] := ⟨nofun, .nil⟩

theorem refused_run (refused : file.extraction = none → ¬(file.pageCount : ℤ) ≤ s.maxPages) :
    ∃ e, s.extractAndReport file = ⟨[], .error e⟩ := by
  rw [PdfParserService.extractAndReport, extract]
  cases extraction : file.extraction with
  | some e => exact ⟨e, rfl⟩
  | none => exact ⟨_, if_pos (Int.not_le.mp (refused extraction))⟩

theorem applyOcrFallback_text
    (unscanned : ¬(s.ocrFallback = true ∧ s.isFullyScanned (textDocument file) = true)) :
    s.applyOcrFallback file (textDocument file) = pure (textDocument file) := by
  unfold PdfParserService.applyOcrFallback
  cases fallback : s.ocrFallback with
  | false => rfl
  | true =>
    have part : s.isFullyScanned (textDocument file) = false :=
      Bool.eq_false_iff.mpr fun full => unscanned ⟨fallback, full⟩
    rw [part]
    rfl

theorem text_reported (extracted : file.extraction = none)
    (few : (file.pageCount : ℤ) ≤ s.maxPages)
    (unscanned : ¬(s.ocrFallback = true ∧ s.isFullyScanned (textDocument file) = true)) :
    PdfReported s file := by
  have length : (textDocument file).pages.length = file.pageCount :=
    (List.length_map _).trans List.length_range
  have run := run_returns extracted few (applyOcrFallback_text unscanned) rfl rfl length
  exact (returned_reported_iff run).mpr ((percents_progressive _).sublist reported_sublist)

theorem unserved_reported (extracted : file.extraction = none)
    (few : (file.pageCount : ℤ) ≤ s.maxPages) (fallback : s.ocrFallback = true)
    (full : s.isFullyScanned (textDocument file) = true) (unserved : s.ocrService = none) :
    PdfReported s file := by
  have run := run_few extracted few
  rw [PdfParserService.applyOcrFallback, fallback, full, unserved] at run
  dsimp only at run
  rw [detect_raises full] at run
  exact failed_reported run progressive_nil

theorem applyOcrFallback_served {memory : ℤ} (fallback : s.ocrFallback = true)
    (full : s.isFullyScanned (textDocument file) = true) (served : s.ocrService = some memory) :
    s.applyOcrFallback file (textDocument file) = processPdf file memory := by
  unfold PdfParserService.applyOcrFallback
  rw [fallback, full, served]
  rfl

theorem recognised_reported_iff (used : UsesOcr s file) :
    PdfReported s file ↔ ¬Repeats s file := by
  cases served : s.ocrService with
  | none => exact absurd served used.service
  | some memory =>
    have chosen := applyOcrFallback_served used.fallback
      (fullyScanned_iff.mpr ⟨used.some_, used.scanned⟩) served
    have recognition := processPdf_recognition file memory
    cases result : (processPdf file memory).result with
    | error e =>
      have run := run_few used.extracted used.few
      rw [chosen, bind_of_error _ result] at run
      refine iff_of_true (failed_reported run ?_) fun repeats => ?_
      · exact (percents_progressive _).sublist recognition.reports.sublist
      · obtain ⟨document, returned⟩ := recognition.returns repeats.recognised
        exact nomatch result.symm.trans returned
    | ok document =>
      obtain ⟨able, reports, total, length⟩ := recognition.whole document result
      have run := run_returns used.extracted used.few chosen result total length
      rw [returned_reported_iff run, reports, twice_progressive_iff used.some_]
      exact not_congr ⟨fun far => ⟨used, able, far.1, far.2⟩,
        fun repeats => ⟨repeats.two, repeats.far⟩⟩

variable (s file)

theorem pdf_reported_iff : PdfReported s file ↔ ¬Repeats s file := by
  by_cases accepted : file.extraction = none ∧ (file.pageCount : ℤ) ≤ s.maxPages
  · obtain ⟨extracted, few⟩ := accepted
    by_cases scanned : s.ocrFallback = true ∧ s.isFullyScanned (textDocument file) = true
    · obtain ⟨fallback, full⟩ := scanned
      by_cases unserved : s.ocrService = none
      · exact iff_of_true (unserved_reported extracted few fallback full unserved)
          fun repeats => repeats.used.service unserved
      · obtain ⟨positive, pages⟩ := fullyScanned_iff.mp full
        exact recognised_reported_iff ⟨extracted, few, fallback, positive, pages, unserved⟩
    · refine iff_of_true (text_reported extracted few scanned) fun repeats => ?_
      exact scanned ⟨repeats.used.fallback,
        fullyScanned_iff.mpr ⟨repeats.used.some_, repeats.used.scanned⟩⟩
  · obtain ⟨e, run⟩ := refused_run (not_and.mp accepted)
    exact iff_of_true (failed_reported run progressive_nil)
      fun repeats => accepted ⟨repeats.used.extracted, repeats.used.few⟩

end Run

section Transcription

open AsrTask

def timed (raw : RawSegment) : Bool := decide (0 ≤ raw.start ∧ 0 ≤ raw.stop)

def segmentPercent (duration : ℚ) (segment : SegmentMerger.AsrSegment) : ℤ :=
  ⌊min ((segment.stop : ℚ) / duration * 100) 100⌋

def segmentPercents (duration : ℚ) (raws : List RawSegment) : List ℤ :=
  if 0 < duration then
    (raws.takeWhile timed).map fun raw => segmentPercent duration (asrSegment raw)
  else []

theorem segmentPercents_refused (duration : ℚ) {raw : RawSegment} (refused : timed raw = false)
    (rest : List RawSegment) : segmentPercents duration (raw :: rest) = [] := by
  rw [segmentPercents, List.takeWhile_cons_of_neg (Bool.eq_false_iff.mp refused)]
  split <;> rfl

theorem segmentPercents_timed {duration : ℚ} (known : 0 < duration) {raw : RawSegment}
    (accepted : timed raw = true) (rest : List RawSegment) :
    segmentPercents duration (raw :: rest) =
      segmentPercent duration (asrSegment raw) :: segmentPercents duration rest := by
  rw [segmentPercents, if_pos known, List.takeWhile_cons_of_pos accepted, segmentPercents,
    if_pos known]
  rfl

theorem segmentPercents_unknown {duration : ℚ} (unknown : ¬0 < duration) (raws : List RawSegment) :
    segmentPercents duration raws = [] := if_neg unknown

theorem progressAfter_known {duration : ℚ} (known : 0 < duration) (interval : ℚ) (last : ℤ)
    (segment : SegmentMerger.AsrSegment) : progressAfter interval duration last segment =
      if Due interval 100 last (segmentPercent duration segment) then
        some (segmentPercent duration segment)
      else none := if_pos known

theorem progressAfter_unknown {duration : ℚ} (unknown : ¬0 < duration) (interval : ℚ) (last : ℤ)
    (segment : SegmentMerger.AsrSegment) : progressAfter interval duration last segment = none :=
  if_neg unknown

theorem collect_reports (w : World) (interval duration : ℚ) (broken : Option CeleryHooks.Exc)
    (last : ℤ) (raws : List RawSegment) :
    (collect w interval duration broken last raws).1 =
      reported interval 100 last (segmentPercents duration raws) := by
  induction raws generalizing last with
  | nil =>
    have none_ : segmentPercents duration [] = [] := by
      unfold segmentPercents
      split <;> rfl
    rw [none_]
    cases broken <;> rfl
  | cons raw rest ih =>
    rw [collect, validSegment]
    by_cases valid : 0 ≤ raw.start ∧ 0 ≤ raw.stop
    · rw [if_pos valid]
      dsimp only
      rw [ih]
      by_cases known : 0 < duration
      · rw [progressAfter_known known, segmentPercents_timed known (decide_eq_true valid), reported]
        split <;> rfl
      · rw [progressAfter_unknown known, segmentPercents_unknown known,
          segmentPercents_unknown known]
        rfl
    · rw [if_neg valid, segmentPercents_refused duration (decide_eq_false valid)]
      rfl

theorem mem_segmentPercents {duration : ℚ} {raws : List RawSegment} {value : ℤ}
    (mem : value ∈ segmentPercents duration raws) : 0 ≤ value ∧ value ≤ 100 := by
  unfold segmentPercents at mem
  split at mem
  · rename_i positive
    obtain ⟨raw, -, rfl⟩ := List.mem_map.mp mem
    unfold segmentPercent
    have nonneg : (0 : ℚ) ≤ ((asrSegment raw).stop : ℚ) / duration * 100 := by
      have stop : (0 : ℚ) ≤ (asrSegment raw).stop := NNRat.coe_nonneg _
      positivity
    refine ⟨Int.floor_nonneg.mpr (le_min nonneg (by norm_num)), ?_⟩
    exact_mod_cast (Int.floor_le _).trans (min_le_right _ (100 : ℚ))
  · exact absurd mem List.not_mem_nil

theorem reported_progressive_iff {interval : ℚ} {values : List ℤ}
    (bounds : ∀ value ∈ values, 0 ≤ value ∧ value ≤ 100) :
    Progressive (reported interval 100 0 values) ↔ Steady interval 0 values := by
  have kept (value : ℤ) (mem : value ∈ reported interval 100 0 values) :
      0 ≤ value ∧ value ≤ 100 := bounds value (reported_sublist.subset mem)
  rw [← reported_chain_iff (fun value mem => (bounds value mem).2) (by decide : (0 : ℤ) ≤ 100),
    List.isChain_iff_pairwise, List.pairwise_cons]
  exact ⟨fun progressive => ⟨fun value mem => (kept value mem).1, progressive.2⟩,
    fun chain => ⟨kept, chain.2⟩⟩

/-- The reports of a PDF are in order unless the pages are counted again after their recognition,
and those of a recording unless the interval is negative and a segment falls back by less. -/
theorem progress_iff (s : PdfParserService) (file : PdfFile) (w : World) (cfg : AsrConfig)
    (modelName : Text) (task : AsrTaskRequest) (duration : ℚ) :
    (PdfReported s file ↔ ¬Repeats s file) ∧
      (Progressive (transcribeWithProgress w cfg modelName task duration).1 ↔
        Steady cfg.progressInterval 0
          (segmentPercents duration (transcribe w modelName task.language).1)) := by
  refine ⟨pdf_reported_iff s file, ?_⟩
  rw [transcribeWithProgress]
  dsimp only
  rw [collect_reports, reported_progressive_iff fun value mem => mem_segmentPercents mem]

theorem transcription_progressive (w : World) {cfg : AsrConfig}
    (nonneg : 0 ≤ cfg.progressInterval) (modelName : Text) (task : AsrTaskRequest) (duration : ℚ) :
    Progressive (transcribeWithProgress w cfg modelName task duration).1 := by
  rw [transcribeWithProgress]
  dsimp only
  rw [collect_reports, reported_progressive_iff fun value mem => mem_segmentPercents mem]
  exact steady_of_nonneg nonneg

end Transcription

def defaultService : PdfParserService where
  ocrService := some 5
  progressInterval := 5
  ocrFallback := true
  ocrThreshold := 50
  maxPages := 5000

def twoScans : PdfFile where
  pageCount := 2
  texts := fun _ => []
  extraction := none
  opening := none
  render := fun _ => none
  recognize := fun _ => .ok [⟨0, 0, "word".toList⟩]

/-- The second pass over the pages takes the progress back from 100 to 50. -/
theorem twoScans_falls : (defaultService.extractAndReport twoScans).outputs = [50, 100, 50, 100] ∧
    ¬PdfReported defaultService twoScans := by
  have outputs : (defaultService.extractAndReport twoScans).outputs = [50, 100, 50, 100] := by
    decide +kernel
  refine ⟨outputs, fun holds => ?_⟩
  have ordered := holds.progressive.2
  rw [outputs] at ordered
  exact absurd ordered (by decide)

end KnowledgeCompanion.PdfProgress
