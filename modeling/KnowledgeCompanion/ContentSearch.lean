import KnowledgeCompanion.SpanScan
import KnowledgeCompanion.SubtitleParser

/-! Searching loaded content in the client (`providers/content_view_provider.dart`): all items
are searched in order for a keyword without regard to case, up to a number of matches. -/

namespace KnowledgeCompanion.ContentSearch

open SpanScan

/-- What the client gets from the case tables of Unicode: `toLowerCase` of a text, and the
form in which a pattern that ignores case compares single characters. -/
structure CaseFolding where
  toLowerCase : Text → Text
  canonicalize : Char → Char
  lower_nil : ∀ text, toLowerCase text = [] → text = []

structure SubtitleSegment extends SubtitleParser.SubtitleSegment where
  originalText : Option Text := none
deriving DecidableEq

def SubtitleSegment.displayText (segment : SubtitleSegment) (showCleaned : Bool) : Text :=
  if showCleaned then segment.text else segment.originalText.getD segment.text

structure ParsedPage where
  pageNumber : ℤ
  text : Text
deriving DecidableEq

inductive Content
  | audio (taskID : Text) (segments : List SubtitleSegment)
  | pdf (taskID : Text) (pages : List ParsedPage)
deriving DecidableEq

def Content.texts (showCleaned : Bool) : Content → List Text
  | .audio _ segments => segments.map (·.displayText showCleaned)
  | .pdf _ pages => pages.map ParsedPage.text

structure TextMatch where
  itemIndex : ℕ
  startOffset : ℕ
  endOffset : ℕ
deriving DecidableEq

def maxHighlightMatches : ℕ := 100

def matchAt (folding : CaseFolding) (lowerKeyword text : Text) : Option ℕ :=
  if (lowerKeyword.map folding.canonicalize).isPrefixOf (text.map folding.canonicalize) then
    some lowerKeyword.length
  else none

def findMatchesInText (folding : CaseFolding) (itemIndex : ℕ) (text lowerKeyword : Text) :
    List TextMatch :=
  (findIter (matchAt folding lowerKeyword) text).map fun s => ⟨itemIndex, s.start, s.stop⟩

/-- The loop over the items from index `i` on; it stops once there are enough matches. -/
def collectMatches (folding : CaseFolding) (lowerKeyword : Text) :
    ℕ → List TextMatch → List Text → List TextMatch
  | _, found, [] => found
  | i, found, text :: texts =>
    let found := found ++ findMatchesInText folding i text lowerKeyword
    if maxHighlightMatches ≤ found.length then found
    else collectMatches folding lowerKeyword (i + 1) found texts

def buildMatches (folding : CaseFolding) (content : Option Content) (showCleaned : Bool)
    (keyword : Text) : List TextMatch :=
  if keyword = [] then []
  else
    match content with
    | none => []
    | some content =>
      let found := collectMatches folding (folding.toLowerCase keyword) 0 []
        (content.texts showCleaned)
      if maxHighlightMatches < found.length then found.take maxHighlightMatches else found

def Occurs (folding : CaseFolding) (lowerKeyword text : Text) (p : ℕ) : Prop :=
  (slice text p (p + lowerKeyword.length)).map folding.canonicalize =
    lowerKeyword.map folding.canonicalize

def Before (m n : TextMatch) : Prop :=
  m.itemIndex < n.itemIndex ∨ m.itemIndex = n.itemIndex ∧ m.endOffset ≤ n.startOffset

/-- The matches are occurrences in order that do not overlap. An occurrence that is not listed
overlaps a listed one, unless the list is full before it. -/
structure Finds (folding : CaseFolding) (lowerKeyword : Text) (texts : List Text)
    (found : List TextMatch) : Prop where
  occur : ∀ m ∈ found, ∃ text, texts[m.itemIndex]? = some text ∧
    Occurs folding lowerKeyword text m.startOffset ∧
    m.endOffset = m.startOffset + lowerKeyword.length
  ordered : found.Pairwise Before
  bounded : found.length ≤ maxHighlightMatches
  complete : ∀ i text p, texts[i]? = some text → Occurs folding lowerKeyword text p →
    (∃ m ∈ found, m.itemIndex = i ∧ m.startOffset ≤ p ∧ p < m.endOffset) ∨
      found.length = maxHighlightMatches ∧ ∀ m ∈ found, Before m ⟨i, p, p + lowerKeyword.length⟩

section Items

variable {folding : CaseFolding} {lowerKeyword text : Text}

theorem matchAt_eq_some {n : ℕ} :
    matchAt folding lowerKeyword text = some n ↔
      n = lowerKeyword.length ∧
        (text.take lowerKeyword.length).map folding.canonicalize =
          lowerKeyword.map folding.canonicalize := by
  unfold matchAt
  rw [Option.ite_none_right_eq_some, Option.some.injEq, List.isPrefixOf_iff_prefix,
    List.prefix_iff_eq_take, List.length_map, ← List.map_take]
  constructor
  · rintro ⟨front, rfl⟩
    exact ⟨rfl, front.symm⟩
  · rintro ⟨rfl, front⟩
    exact ⟨front.symm, rfl⟩

theorem matchAt_sound (filled : lowerKeyword ≠ []) : Sound (matchAt folding lowerKeyword) := by
  intro text n found
  obtain ⟨rfl, front⟩ := matchAt_eq_some.mp found
  refine ⟨List.length_pos_iff.mpr filled, ?_⟩
  have long := congrArg List.length front
  rw [List.length_map, List.length_map, List.length_take] at long
  omega

theorem slice_eq_take_drop (p n : ℕ) : slice text p (p + n) = (text.drop p).take n := by
  rw [slice, List.drop_take, Nat.add_sub_cancel_left]

theorem occurs_iff_match (p : ℕ) :
    Occurs folding lowerKeyword text p ↔
      matchAt folding lowerKeyword (text.drop p) = some lowerKeyword.length := by
  rw [matchAt_eq_some, Occurs, slice_eq_take_drop, and_iff_right rfl]

theorem Occurs.inside {p : ℕ} (filled : lowerKeyword ≠ [])
    (occurs : Occurs folding lowerKeyword text p) : p < text.length := by
  have bound := matchAt_sound filled _ _ ((occurs_iff_match p).mp occurs)
  rw [List.length_drop] at bound
  omega

theorem mem_chained {cursor stop : ℕ} {spans : List Span} (chained : Chained stop cursor spans) :
    spans.Pairwise (fun s t => s.stop ≤ t.start) ∧
      ∀ s ∈ spans, cursor ≤ s.start ∧ s.start < s.stop := by
  induction spans generalizing cursor with
  | nil => exact ⟨List.Pairwise.nil, fun s mem => absurd mem List.not_mem_nil⟩
  | cons s spans ih =>
    obtain ⟨before, proper, rest⟩ := chained
    obtain ⟨ordered, later⟩ := ih rest
    refine ⟨.cons (fun t mem => (later t mem).1) ordered, fun t mem => ?_⟩
    rcases List.mem_cons.mp mem with rfl | there
    · exact ⟨before, proper⟩
    · have behind := later t there
      omega

theorem mem_findMatches (filled : lowerKeyword ≠ []) {i : ℕ} {m : TextMatch}
    (mem : m ∈ findMatchesInText folding i text lowerKeyword) :
    m.itemIndex = i ∧ Occurs folding lowerKeyword text m.startOffset ∧
      m.endOffset = m.startOffset + lowerKeyword.length := by
  obtain ⟨s, found, rfl⟩ := List.mem_map.mp mem
  have hit := findIter_match found
  obtain ⟨long, -⟩ := matchAt_eq_some.mp hit
  have proper := ((mem_chained (findIter_chained (matchAt_sound filled) text)).2 s found).2
  refine ⟨rfl, (occurs_iff_match _).mpr (hit.trans (congrArg some long)), ?_⟩
  dsimp only
  omega

theorem findMatches_ordered (filled : lowerKeyword ≠ []) (i : ℕ) :
    (findMatchesInText folding i text lowerKeyword).Pairwise Before := by
  rw [findMatchesInText, List.pairwise_map]
  have ordered := (mem_chained (findIter_chained (@matchAt_sound folding _ filled) text)).1
  exact ordered.imp fun behind => .inr ⟨rfl, behind⟩

theorem findMatches_complete (filled : lowerKeyword ≠ []) {i p : ℕ}
    (occurs : Occurs folding lowerKeyword text p) :
    ∃ m ∈ findMatchesInText folding i text lowerKeyword,
      m.itemIndex = i ∧ m.startOffset ≤ p ∧ p < m.endOffset := by
  obtain ⟨s, mem, covers⟩ := findIter_covers (matchAt_sound filled) ((occurs_iff_match p).mp occurs)
    (occurs.inside filled)
  exact ⟨_, List.mem_map_of_mem mem, rfl, covers⟩

end Items

def allMatches (folding : CaseFolding) (lowerKeyword : Text) : ℕ → List Text → List TextMatch
  | _, [] => []
  | i, text :: texts =>
    findMatchesInText folding i text lowerKeyword ++ allMatches folding lowerKeyword (i + 1) texts

section AllItems

variable {folding : CaseFolding} {lowerKeyword : Text} {texts : List Text}

theorem take_collectMatches (i : ℕ) (found : List TextMatch) :
    (collectMatches folding lowerKeyword i found texts).take maxHighlightMatches =
      (found ++ allMatches folding lowerKeyword i texts).take maxHighlightMatches := by
  induction texts generalizing i found with
  | nil => rw [collectMatches, allMatches, List.append_nil]
  | cons text texts ih =>
    rw [collectMatches, allMatches, ← List.append_assoc]
    split
    · rename_i full
      exact (List.take_append_of_le_length full).symm
    · exact ih _ _

theorem buildMatches_eq {content : Content} {showCleaned : Bool} {keyword : Text}
    (filled : keyword ≠ []) :
    buildMatches folding (some content) showCleaned keyword =
      (allMatches folding (folding.toLowerCase keyword) 0 (content.texts showCleaned)).take
        maxHighlightMatches := by
  have cut (found : List TextMatch) :
      (if maxHighlightMatches < found.length then found.take maxHighlightMatches else found) =
        found.take maxHighlightMatches := by
    split
    · rfl
    · rename_i short
      exact (List.take_of_length_le (Nat.le_of_not_lt short)).symm
  have whole := @take_collectMatches folding (folding.toLowerCase keyword)
    (content.texts showCleaned) 0 []
  rw [buildMatches, if_neg filled]
  exact (cut _).trans whole

theorem mem_allMatches (filled : lowerKeyword ≠ []) {i : ℕ} {m : TextMatch}
    (mem : m ∈ allMatches folding lowerKeyword i texts) :
    i ≤ m.itemIndex ∧ ∃ text, texts[m.itemIndex - i]? = some text ∧
      m ∈ findMatchesInText folding m.itemIndex text lowerKeyword := by
  induction texts generalizing i with
  | nil => exact absurd mem List.not_mem_nil
  | cons text texts ih =>
    rcases List.mem_append.mp mem with here | there
    · have same := (mem_findMatches filled here).1
      refine ⟨Nat.le_of_eq same.symm, text, ?_, same ▸ here⟩
      rw [same, Nat.sub_self, List.getElem?_cons_zero]
    · obtain ⟨above, t, found, inside⟩ := ih there
      have shift : m.itemIndex - i = m.itemIndex - (i + 1) + 1 := by omega
      refine ⟨by omega, t, ?_, inside⟩
      rw [shift, List.getElem?_cons_succ, found]

theorem allMatches_ordered (filled : lowerKeyword ≠ []) (i : ℕ) :
    (allMatches folding lowerKeyword i texts).Pairwise Before := by
  induction texts generalizing i with
  | nil => exact List.Pairwise.nil
  | cons text texts ih =>
    refine List.pairwise_append.mpr
      ⟨findMatches_ordered filled i, ih (i + 1), fun m here n there => ?_⟩
    have same := (mem_findMatches filled here).1
    have later := (mem_allMatches filled there).1
    exact .inl (by omega)

theorem mem_allMatches_of_find {i j : ℕ} {text : Text} {m : TextMatch}
    (item : texts[j]? = some text) (mem : m ∈ findMatchesInText folding (i + j) text lowerKeyword) :
    m ∈ allMatches folding lowerKeyword i texts := by
  induction texts generalizing i j with
  | nil => cases item
  | cons t texts ih =>
    cases j with
    | zero =>
      rw [List.getElem?_cons_zero] at item
      exact List.mem_append_left _ (Option.some.inj item ▸ mem)
    | succ j =>
      have shift : i + (j + 1) = i + 1 + j := by omega
      exact List.mem_append_right _ (ih item (shift ▸ mem))

theorem take_complete (filled : lowerKeyword ≠ []) {i p : ℕ} {text : Text}
    (item : texts[i]? = some text) (occurs : Occurs folding lowerKeyword text p) :
    let found := (allMatches folding lowerKeyword 0 texts).take maxHighlightMatches
    (∃ m ∈ found, m.itemIndex = i ∧ m.startOffset ≤ p ∧ p < m.endOffset) ∨
      found.length = maxHighlightMatches ∧
        ∀ m ∈ found, Before m ⟨i, p, p + lowerKeyword.length⟩ := by
  intro found
  obtain ⟨m, here, same, low, high⟩ := @findMatches_complete folding _ text filled (0 + i) p occurs
  have mem := mem_allMatches_of_find item here
  rw [Nat.zero_add] at same
  rw [← List.take_append_drop maxHighlightMatches (allMatches folding lowerKeyword 0 texts)] at mem
  rcases List.mem_append.mp mem with front | back
  · exact .inl ⟨m, front, same, low, high⟩
  · refine .inr ⟨?_, fun n listed => ?_⟩
    · have long := List.length_pos_of_mem back
      rw [List.length_drop] at long
      rw [List.length_take]
      omega
    · have ordered := @allMatches_ordered folding _ texts filled 0
      rw [← List.take_append_drop maxHighlightMatches (allMatches _ _ 0 texts),
        List.pairwise_append] at ordered
      rcases ordered.2.2 n listed m back with earlier | ⟨together, behind⟩
      · exact .inl (same ▸ earlier)
      · exact .inr ⟨same ▸ together, Nat.le_trans behind low⟩

end AllItems

/-- A search finds the first matches of all items in order, as many as are shown. -/
theorem buildMatches_finds (folding : CaseFolding) (content : Content) (showCleaned : Bool)
    {keyword : Text} (filled : keyword ≠ []) :
    Finds folding (folding.toLowerCase keyword) (content.texts showCleaned)
      (buildMatches folding (some content) showCleaned keyword) := by
  have lower : folding.toLowerCase keyword ≠ [] := fun none => filled (folding.lower_nil _ none)
  rw [buildMatches_eq filled]
  refine ⟨fun m mem => ?_, (allMatches_ordered lower 0).sublist (List.take_sublist _ _),
    List.length_take_le _ _, fun i text p item occurs => take_complete lower item occurs⟩
  obtain ⟨-, text, item, here⟩ := mem_allMatches lower (List.mem_of_mem_take mem)
  exact ⟨text, item, (mem_findMatches lower here).2⟩

def asciiLower (c : Char) : Char :=
  if 65 ≤ c.toNat ∧ c.toNat ≤ 90 then Char.ofNat (c.toNat + 32) else c

theorem asciiLower_idem (c : Char) : asciiLower (asciiLower c) = asciiLower c := by
  unfold asciiLower
  by_cases upper : 65 ≤ c.toNat ∧ c.toNat ≤ 90
  · have valid : (c.toNat + 32).isValidChar := .inl (by omega)
    have char : Char.ofNat (c.toNat + 32) = Char.ofNatAux (c.toNat + 32) valid := dif_pos valid
    have value : (Char.ofNat (c.toNat + 32)).toNat = c.toNat + 32 := by
      rw [char]
      rfl
    rw [if_pos upper, value, if_neg (by omega)]
  · rw [if_neg upper, if_neg upper]

theorem map_asciiLower_nil (text : Text) (none : text.map asciiLower = []) : text = [] :=
  List.map_eq_nil_iff.mp none

def asciiFolding : CaseFolding := ⟨List.map asciiLower, asciiLower, map_asciiLower_nil⟩

theorem buildMatches_finds_ascii :
    Finds asciiFolding (asciiFolding.toLowerCase "AB".toList) ["xAb".toList, "aBAB".toList]
      (buildMatches asciiFolding (some (.pdf [] [⟨1, "xAb".toList⟩, ⟨2, "aBAB".toList⟩])) true
        "AB".toList) :=
  @buildMatches_finds asciiFolding (.pdf [] [⟨1, "xAb".toList⟩, ⟨2, "aBAB".toList⟩]) true
    "AB".toList (List.cons_ne_nil _ _)

example : buildMatches asciiFolding (some (.pdf [] [⟨1, "xAb".toList⟩, ⟨2, "aBAB".toList⟩])) true
    "AB".toList = [⟨0, 1, 3⟩, ⟨1, 0, 2⟩, ⟨1, 2, 4⟩] := by decide

end KnowledgeCompanion.ContentSearch
