import KnowledgeCompanion.ApiExceptions
import KnowledgeCompanion.SrtGenerator

/-! The sections that are summarised on their own (`summary/section_splitter.py`): of a PDF along
its table of contents, as `pymupdf_extractor.py` reads it, and of a recording along its time. -/

namespace KnowledgeCompanion.SectionSplitter

open ApiExceptions PythonText SrtGenerator

/-- An entry of `get_toc` that has a level, a title and a page. -/
structure OutlineEntry where
  level : ℤ
  title : Text
  page : ℤ

/-- A page target is a page, but not one of this document (`ge=1` in `models/pdf.py`). -/
structure PdfTocEntry where
  level : ℤ
  title : Text
  page : ℤ
  level_pos : 1 ≤ level
  page_pos : 1 ≤ page

def validateEntry (entry : OutlineEntry) : Except Raised PdfTocEntry :=
  if level : 1 ≤ entry.level then
    if page : 1 ≤ entry.page then .ok ⟨entry.level, entry.title, entry.page, level, page⟩
    else .error .other
  else .error .other

/-- Entries with fewer than three parts, which are `none` here, are left out. -/
def extractToc (outline : List (Option OutlineEntry)) : Except Raised (List PdfTocEntry) :=
  (outline.filterMap id).mapM validateEntry

structure TocItem where
  title : Option Text
  page : Option ℤ

def dumped (entry : PdfTocEntry) : TocItem := ⟨some entry.title, some entry.page⟩

structure SectionSummary where
  title : Text
  content : Text
  pageRange : Option (ℤ × ℤ)
  timestampRange : Option (ℚ × ℚ)
deriving DecidableEq

/-- `xs[start:stop]`, where a negative position counts from the end. -/
def pythonSlice {α : Type} (xs : List α) (start stop : ℤ) : List α :=
  let position (i : ℤ) : ℕ := if i < 0 then (i + xs.length).toNat else i.toNat
  (xs.take (position stop)).drop (position start)

def sectionTitle (index : ℕ) (title : Option Text) : Text :=
  if title.getD [] = [] then "第 ".toList ++ decimal (index + 1) ++ " 节".toList else title.getD []

def joined (texts : List (Option Text)) : Text := ['\n'].intercalate (texts.map (·.getD []))

/-- The page of the entry that follows, and behind the last one the page after the document. -/
def nextPage (n : ℕ) : List TocItem → ℤ
  | [] => n + 1
  | entry :: _ => entry.page.getD (n + 1)

def sectionsFrom (pages : List (Option Text)) : ℕ → List TocItem → List SectionSummary
  | _, [] => []
  | index, entry :: later =>
    let startPage := entry.page.getD 1
    let endPage := max startPage (min (nextPage pages.length later - 1) pages.length)
    { title := sectionTitle index entry.title
      content := joined (pythonSlice pages (startPage - 1) endPage)
      pageRange := some (startPage, endPage)
      timestampRange := none } :: sectionsFrom pages (index + 1) later

def splitPdf (toc : List TocItem) (pages : List (Option Text)) : List SectionSummary :=
  if toc = [] ∨ pages = [] then [] else sectionsFrom pages 0 toc

structure SrtSegment where
  start : Option ℚ
  stop : Option ℚ
  text : Option Text

def twoDigits (n : ℤ) : Text := if n < 0 then '-' :: decimal n.natAbs else padded 2 n.toNat

def fmt (seconds : ℚ) : Text :=
  let total := if seconds < 0 then ⌈seconds⌉ else ⌊seconds⌋
  twoDigits (total / 60) ++ ':' :: twoDigits (total % 60)

def buildAudioSection (segments : List SrtSegment) : SectionSummary :=
  let start := (segments.head?.bind SrtSegment.start).getD 0
  let stop := (segments.getLast?.bind SrtSegment.stop).getD start
  { title := fmt start ++ '-' :: fmt stop
    content := joined (segments.map SrtSegment.text)
    pageRange := none
    timestampRange := some (start, stop) }

def buckets (limit : ℚ) (bucket : List SrtSegment) (bucketStart : ℚ) :
    List SrtSegment → List (List SrtSegment)
  | [] => if bucket = [] then [] else [bucket]
  | segment :: later =>
    let stop := segment.stop.getD bucketStart
    if limit ≤ stop - bucketStart then
      (bucket ++ [segment]) :: buckets limit [] stop later
    else buckets limit (bucket ++ [segment]) bucketStart later

def firstStart (segments : List SrtSegment) : ℚ := (segments.head?.bind SrtSegment.start).getD 0

def splitAudio (segments : List SrtSegment) (chunkMinutes : ℤ) : List SectionSummary :=
  (buckets (chunkMinutes * 60) [] (firstStart segments) segments).map buildAudioSection

section Pages

variable {pages : List (Option Text)}

/-- The section has a range of pages of the document, and the texts of just these. -/
def Exact (pages : List (Option Text)) (s : SectionSummary) : Prop :=
  ∃ first last : ℕ, s.pageRange = some ((first : ℤ), (last : ℤ)) ∧ 1 ≤ first ∧ first ≤ last ∧
    last ≤ pages.length ∧ s.content = joined ((pages.take last).drop (first - 1))

theorem sectionsFrom_exact_iff (index : ℕ) (toc : List TocItem) :
    (∀ s ∈ sectionsFrom pages index toc, Exact pages s) ↔
      ∀ entry ∈ toc, 1 ≤ entry.page.getD 1 ∧ entry.page.getD 1 ≤ pages.length := by
  induction toc generalizing index with
  | nil => exact iff_of_true nofun nofun
  | cons entry later ih =>
    rw [sectionsFrom, List.forall_mem_cons, List.forall_mem_cons, ih]
    refine and_congr_left fun _ => ?_
    generalize entry.page.getD 1 = start
    generalize nextPage pages.length later = next
    constructor
    · rintro ⟨first, last, range, positive, ordered, inside, -⟩
      obtain ⟨rfl, stop⟩ := Prod.mk.inj (Option.some.inj range)
      omega
    · rintro ⟨positive, inside⟩
      obtain ⟨first, rfl⟩ := Int.eq_ofNat_of_zero_le (by omega : 0 ≤ start)
      obtain ⟨last, same⟩ := Int.eq_ofNat_of_zero_le
        (by omega : 0 ≤ max (first : ℤ) (min (next - 1) pages.length))
      refine ⟨first, last, by rw [same], by omega, by omega, by omega, ?_⟩
      have front : ¬(first : ℤ) - 1 < 0 := by omega
      have back : ¬(last : ℤ) < 0 := by omega
      have start : ((first : ℤ) - 1).toNat = first - 1 := by omega
      dsimp only [pythonSlice]
      rw [same, if_neg front, if_neg back, start, Int.toNat_natCast]

theorem splitPdf_exact_iff (toc : List TocItem) (some_ : pages ≠ []) :
    (∀ s ∈ splitPdf toc pages, Exact pages s) ↔
      ∀ entry ∈ toc, 1 ≤ entry.page.getD 1 ∧ entry.page.getD 1 ≤ pages.length := by
  unfold splitPdf
  split
  · rename_i empty
    rw [empty.resolve_right some_]
    exact iff_of_true nofun nofun
  · exact sectionsFrom_exact_iff 0 toc

def entryOf (entry : PdfTocEntry) : OutlineEntry := ⟨entry.level, entry.title, entry.page⟩

theorem mapM_validate {entries : List OutlineEntry} {toc : List PdfTocEntry}
    (valid : entries.mapM validateEntry = .ok toc) : toc.map entryOf = entries := by
  induction entries generalizing toc with
  | nil =>
    obtain rfl := Except.ok.inj valid
    rfl
  | cons entry entries ih =>
    rw [List.mapM_cons, validateEntry] at valid
    split at valid
    · split at valid
      · cases rest : entries.mapM validateEntry with
        | error e => rw [rest] at valid; exact nomatch valid
        | ok later =>
          rw [rest] at valid
          obtain rfl := Except.ok.inj valid
          exact congrArg (entry :: ·) (ih rest)
      · exact nomatch valid
    · exact nomatch valid

theorem mapM_validate_ok {entries : List OutlineEntry}
    (valid : ∀ entry ∈ entries, 1 ≤ entry.level ∧ 1 ≤ entry.page) :
    ∃ toc, entries.mapM validateEntry = .ok toc := by
  induction entries with
  | nil => exact ⟨[], rfl⟩
  | cons entry entries ih =>
    obtain ⟨⟨level, page⟩, rest⟩ := List.forall_mem_cons.mp valid
    obtain ⟨toc, later⟩ := ih rest
    rw [List.mapM_cons, validateEntry, dif_pos level, dif_pos page, later]
    exact ⟨_, rfl⟩

theorem mem_outline {outline : List (Option OutlineEntry)} {entry : OutlineEntry} :
    entry ∈ outline.filterMap id ↔ some entry ∈ outline := by
  rw [List.mem_filterMap]
  simp only [id_eq, exists_eq_right]

/-- The sections of an outline are exact unless it has an entry behind the last page, which is
not looked at where the extractor refuses the outline for another. -/
theorem outline_sections_iff (outline : List (Option OutlineEntry)) (some_ : pages ≠ []) :
    (∀ toc, extractToc outline = .ok toc →
        ∀ s ∈ splitPdf (toc.map dumped) pages, Exact pages s) ↔
      (∃ entry, some entry ∈ outline ∧ (entry.level < 1 ∨ entry.page < 1)) ∨
        ∀ entry, some entry ∈ outline → entry.page ≤ pages.length := by
  have pagesOf {toc : List PdfTocEntry} (read : extractToc outline = .ok toc) :
      (∀ s ∈ splitPdf (toc.map dumped) pages, Exact pages s) ↔
        ∀ entry, some entry ∈ outline → entry.page ≤ pages.length := by
    rw [splitPdf_exact_iff _ some_]
    simp only [← mem_outline, ← mapM_validate read, List.forall_mem_map, dumped, Option.getD_some]
    exact forall₂_congr fun entry _ => and_iff_right entry.page_pos
  by_cases refused : ∃ entry, some entry ∈ outline ∧ (entry.level < 1 ∨ entry.page < 1)
  · refine iff_of_true (fun toc read => ?_) (.inl refused)
    obtain ⟨entry, mem, low⟩ := refused
    rw [← mem_outline, ← mapM_validate read, List.mem_map] at mem
    obtain ⟨valid, -, rfl⟩ := mem
    have level := valid.level_pos
    have page := valid.page_pos
    rcases low with low | low
    · exact absurd level (Int.not_le.mpr low)
    · exact absurd page (Int.not_le.mpr low)
  · have valid : ∀ entry ∈ outline.filterMap id, 1 ≤ entry.level ∧ 1 ≤ entry.page := by
      intro entry mem
      have high := not_and.mp (not_exists.mp refused entry) (mem_outline.mp mem)
      omega
    obtain ⟨toc, read⟩ := mapM_validate_ok valid
    rw [or_iff_right refused]
    exact ⟨fun every => (pagesOf read).mp (every toc read),
      fun inside toc read => (pagesOf read).mpr inside⟩

end Pages

def threePages : List (Option Text) := [some "p1".toList, some "p2".toList, some "p3".toList]

theorem outline_sections_two : threePages ≠ [] ∧
    ∀ toc, extractToc [some ⟨1, "概述".toList, 1⟩, none, some ⟨1, "方案".toList, 3⟩] = .ok toc →
      ∀ s ∈ splitPdf (toc.map dumped) threePages, Exact threePages s := by
  refine ⟨List.cons_ne_nil _ _, (outline_sections_iff _ (List.cons_ne_nil _ _)).mpr (.inr ?_)⟩
  intro entry mem
  simp only [List.mem_cons, Option.some.injEq, reduceCtorEq, List.not_mem_nil, or_false,
    false_or] at mem
  rcases mem with rfl | rfl
  · decide
  · decide

/-- An entry behind the last page makes a section of a page that there is not. -/
theorem section_behind_end :
    ¬∀ toc, extractToc [some ⟨1, "附录".toList, 9⟩] = .ok toc →
      ∀ s ∈ splitPdf (toc.map dumped) threePages, Exact threePages s := by
  intro every
  have read : extractToc [some ⟨1, "附录".toList, 9⟩] =
      .ok [⟨1, "附录".toList, 9, by decide, by decide⟩] := rfl
  obtain ⟨first, last, range, -, -, inside, -⟩ := every _ read _ List.mem_cons_self
  obtain ⟨-, stop⟩ := Prod.mk.inj (Option.some.inj range)
  have nine : max (9 : ℤ) (min (threePages.length + 1 - 1) threePages.length) = 9 := by decide
  have end_ : (last : ℤ) = 9 := stop.symm.trans nine
  have three : threePages.length = 3 := rfl
  omega

section Coverage

variable {pages : List (Option Text)}

def Holds (s : SectionSummary) (p : ℤ) : Prop :=
  ∃ first last, s.pageRange = some (first, last) ∧ first ≤ p ∧ p ≤ last

/-- The sections of a table of contents have every page from the first target on, and a page is
in two sections that follow each other only where one ends and the other begins. -/
structure PagesCovered (pages : List (Option Text)) (toc : List TocItem) : Prop where
  covered : ∀ entry ∈ toc.head?, ∀ p : ℤ, entry.page.getD 1 ≤ p → p ≤ pages.length →
    ∃ s ∈ splitPdf toc pages, Holds s p
  shared : (splitPdf toc pages).IsChain fun s t =>
    ∀ p q, Holds s p → Holds t p → Holds s q → Holds t q → p = q

theorem holds_iff {s : SectionSummary} {first last p : ℤ}
    (range : s.pageRange = some (first, last)) : Holds s p ↔ first ≤ p ∧ p ≤ last := by
  constructor
  · rintro ⟨a, b, same, inside⟩
    obtain ⟨rfl, rfl⟩ := Prod.mk.inj (Option.some.inj (range.symm.trans same))
    exact inside
  · exact fun inside => ⟨first, last, range, inside⟩

theorem sectionsFrom_dumped (index : ℕ) (entry : PdfTocEntry) (later : List TocItem) :
    ∃ s, sectionsFrom pages index (dumped entry :: later) =
        s :: sectionsFrom pages (index + 1) later ∧
      s.pageRange = some (entry.page,
        max entry.page (min (nextPage pages.length later - 1) pages.length)) :=
  ⟨_, rfl, rfl⟩

theorem nextPage_nil (n : ℕ) : nextPage n [] = n + 1 := rfl

theorem nextPage_dumped (n : ℕ) (entry : PdfTocEntry) (later : List TocItem) :
    nextPage n (dumped entry :: later) = entry.page := rfl

theorem sectionsFrom_covers (index : ℕ) {entry : PdfTocEntry} {later : List PdfTocEntry}
    (inside : ∀ e ∈ entry :: later, e.page ≤ pages.length) {p : ℤ} (low : entry.page ≤ p)
    (high : p ≤ pages.length) :
    ∃ s ∈ sectionsFrom pages index ((entry :: later).map dumped), Holds s p := by
  induction later generalizing index entry with
  | nil =>
    obtain ⟨s, same, range⟩ := @sectionsFrom_dumped pages index entry []
    rw [nextPage_nil] at range
    rw [List.map_cons, List.map_nil, same]
    exact ⟨s, List.mem_cons_self, (holds_iff range).mpr (by omega)⟩
  | cons next later ih =>
    obtain ⟨s, same, range⟩ := @sectionsFrom_dumped pages index entry ((next :: later).map dumped)
    rw [List.map_cons, nextPage_dumped] at range
    rw [List.map_cons, same]
    by_cases before : p < next.page
    · exact ⟨s, List.mem_cons_self, (holds_iff range).mpr (by omega)⟩
    · obtain ⟨t, mem, holds⟩ := ih (index + 1)
        (fun e mem => inside e (List.mem_cons_of_mem entry mem)) (Int.not_lt.mp before)
      exact ⟨t, List.mem_cons_of_mem _ mem, holds⟩

theorem sectionsFrom_shares (index : ℕ) {toc : List PdfTocEntry}
    (ordered : toc.Pairwise fun a b => a.page ≤ b.page) :
    (sectionsFrom pages index (toc.map dumped)).IsChain fun s t =>
      ∀ p q, Holds s p → Holds t p → Holds s q → Holds t q → p = q := by
  induction toc generalizing index with
  | nil => exact .nil
  | cons entry later ih =>
    obtain ⟨above, rest⟩ := List.pairwise_cons.mp ordered
    have tail := ih (index + 1) rest
    obtain ⟨s, same, range⟩ := @sectionsFrom_dumped pages index entry (later.map dumped)
    rw [List.map_cons, same]
    cases later with
    | nil => exact .singleton s
    | cons next later =>
      obtain ⟨t, behind, target⟩ :=
        @sectionsFrom_dumped pages (index + 1) next (later.map dumped)
      rw [List.map_cons, nextPage_dumped] at range
      rw [List.map_cons, behind] at tail ⊢
      have after := above next List.mem_cons_self
      refine List.isChain_cons_cons.mpr ⟨fun p q firstp secondp firstq secondq => ?_, tail⟩
      rw [holds_iff range] at firstp firstq
      rw [holds_iff target] at secondp secondq
      omega

theorem pages_covered {toc : List PdfTocEntry} (inside : ∀ e ∈ toc, e.page ≤ pages.length)
    (ordered : toc.Pairwise fun a b => a.page ≤ b.page) :
    PagesCovered pages (toc.map dumped) := by
  cases toc with
  | nil => exact ⟨nofun, .nil⟩
  | cons entry later =>
    have some_ : pages ≠ [] := by
      rintro rfl
      exact absurd (entry.page_pos.trans (inside entry List.mem_cons_self)) (by decide)
    have split : splitPdf ((entry :: later).map dumped) pages =
        sectionsFrom pages 0 ((entry :: later).map dumped) :=
      if_neg (not_or.mpr ⟨List.cons_ne_nil _ _, some_⟩)
    refine ⟨fun first head p low high => ?_, ?_⟩
    · obtain rfl := Option.some.inj head
      rw [split]
      exact sectionsFrom_covers 0 inside low high
    · rw [split]
      exact sectionsFrom_shares 0 ordered

end Coverage

section Recording

variable (segments : List SrtSegment) (chunkMinutes : ℤ)

def endOf (s : SectionSummary) : ℚ := (s.timestampRange.map Prod.snd).getD 0

/-- Every section has its own part of the segments, and all but the last are long enough. -/
structure AudioSplit : Prop where
  partitioned : ∃ parts : List (List SrtSegment), parts.flatten = segments ∧ [] ∉ parts ∧
    splitAudio segments chunkMinutes = parts.map buildAudioSection
  spaced : (firstStart segments ::
      ((splitAudio segments chunkMinutes).map endOf).dropLast).IsChain
    fun before after : ℚ => before + chunkMinutes * 60 ≤ after

theorem buckets_flatten (limit : ℚ) (bucket : List SrtSegment) (bucketStart : ℚ) :
    (buckets limit bucket bucketStart segments).flatten = bucket ++ segments := by
  induction segments generalizing bucket bucketStart with
  | nil =>
    rw [buckets]
    split
    · rename_i empty
      rw [empty]
      rfl
    · rw [List.flatten_singleton, List.append_nil]
  | cons segment later ih =>
    rw [buckets]
    split
    · rw [List.flatten_cons, ih, List.append_assoc, List.nil_append, List.singleton_append]
    · rw [ih, List.append_assoc, List.singleton_append]

theorem buckets_filled (limit : ℚ) (bucket : List SrtSegment) (bucketStart : ℚ) :
    [] ∉ buckets limit bucket bucketStart segments := by
  induction segments generalizing bucket bucketStart with
  | nil =>
    rw [buckets]
    split
    · exact List.not_mem_nil
    · rename_i some_
      exact fun mem => some_ (List.mem_singleton.mp mem).symm
  | cons segment later ih =>
    rw [buckets]
    split
    · rw [List.mem_cons, not_or]
      exact ⟨fun same => List.append_ne_nil_of_right_ne_nil bucket (List.cons_ne_nil _ _) same.symm,
        ih [] _⟩
    · exact ih _ _

theorem endOf_closed {limit bucketStart : ℚ} (positive : 0 < limit) (bucket : List SrtSegment)
    {segment : SrtSegment} (closes : limit ≤ segment.stop.getD bucketStart - bucketStart) :
    endOf (buildAudioSection (bucket ++ [segment])) = segment.stop.getD bucketStart := by
  cases stop : segment.stop with
  | none =>
    rw [stop, Option.getD_none, sub_self] at closes
    exact absurd positive (not_lt.mpr closes)
  | some end_ =>
    rw [endOf, buildAudioSection]
    simp only [List.getLast?_concat, Option.bind_some, stop, Option.map_some, Option.getD_some]

theorem buckets_spaced {limit : ℚ} (positive : 0 < limit) (bucket : List SrtSegment)
    (bucketStart : ℚ) :
    (bucketStart :: ((buckets limit bucket bucketStart segments).map
      fun part => endOf (buildAudioSection part)).dropLast).IsChain
        fun before after => before + limit ≤ after := by
  induction segments generalizing bucket bucketStart with
  | nil =>
    rw [buckets]
    split
    · exact .singleton _
    · exact .singleton _
  | cons segment later ih =>
    rw [buckets]
    split
    · rename_i closes
      rw [List.map_cons, endOf_closed positive bucket closes]
      have rest := ih [] (segment.stop.getD bucketStart)
      cases behind : (buckets limit [] (segment.stop.getD bucketStart) later).map
          fun part => endOf (buildAudioSection part) with
      | nil => exact .singleton _
      | cons next ends =>
        rw [behind] at rest
        rw [List.dropLast_cons_of_ne_nil (List.cons_ne_nil _ _)]
        exact List.isChain_cons_cons.mpr ⟨by linarith, rest⟩
    · exact ih _ _

end Recording

/-- Neither splitter loses or repeats anything. -/
theorem sections_keep_all (segments : List SrtSegment) {chunkMinutes : ℤ}
    (positive : 0 < chunkMinutes) {pages : List (Option Text)} {toc : List PdfTocEntry}
    (inside : ∀ e ∈ toc, e.page ≤ pages.length)
    (ordered : toc.Pairwise fun a b => a.page ≤ b.page) :
    AudioSplit segments chunkMinutes ∧ PagesCovered pages (toc.map dumped) := by
  have limit : (0 : ℚ) < chunkMinutes * 60 := by
    have cast : (0 : ℚ) < chunkMinutes := Int.cast_pos.mpr positive
    linarith
  have spaced := buckets_spaced segments limit [] (firstStart segments)
  refine ⟨⟨⟨_, ?_, buckets_filled segments _ [] _, rfl⟩, ?_⟩, pages_covered inside ordered⟩
  · rw [buckets_flatten, List.nil_append]
  · rw [splitAudio, List.map_map]
    exact spaced

theorem first_page : (1 : ℤ) ≤ 1 := Int.le_refl 1

theorem third_page : (1 : ℤ) ≤ 3 := by decide

def twoEntries : List PdfTocEntry :=
  [⟨1, "概述".toList, 1, first_page, first_page⟩, ⟨1, "方案".toList, 3, first_page, third_page⟩]

def twoSegments : List SrtSegment :=
  [⟨some 0, some 120, some "开场".toList⟩, ⟨some 120, some 360, some "主题".toList⟩]

theorem sections_keep_all_two : (∀ e ∈ twoEntries, e.page ≤ threePages.length) ∧
    (twoEntries.Pairwise fun a b => a.page ≤ b.page) ∧
    AudioSplit twoSegments 5 ∧ PagesCovered threePages (twoEntries.map dumped) := by
  have inside : ∀ e ∈ twoEntries, e.page ≤ threePages.length := by decide
  have ordered : twoEntries.Pairwise fun a b => a.page ≤ b.page := by
    unfold twoEntries
    decide
  exact ⟨inside, ordered, sections_keep_all twoSegments (by decide) inside ordered⟩

example : (splitAudio twoSegments 5).map SectionSummary.timestampRange = [some (0, 360)] := by
  decide +kernel

end KnowledgeCompanion.SectionSplitter
