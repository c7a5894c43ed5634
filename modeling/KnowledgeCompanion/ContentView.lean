import Mathlib.Data.Finset.Erase
import Mathlib.Data.Finset.Insert
import KnowledgeCompanion.GuardedRun
import KnowledgeCompanion.ContentSearch

/-! The content view of the client (`providers/content_view_provider.dart`) over time: loads in
flight, a search that waits for the typing to pause, jumps from match to match, the text mode
and the pages that are unfolded. -/

namespace KnowledgeCompanion.ContentView

open GuardedRun ContentSearch

variable {ε : Type*}

structure ContentViewState (ε : Type*) where
  isLoading : Bool := false
  error : Option ε := none
  content : Option Content := none
  keyword : Text := []
  textMatches : List TextMatch := []
  currentMatchIndex : ℤ := -1
  showCleanedText : Bool := true
  expandedPageNumbers : Finset ℤ := ∅

/-- The arguments of `copyWith`. -/
structure Changes (ε : Type*) where
  isLoading : Option Bool := none
  error : Option ε := none
  content : Option Content := none
  keyword : Option Text := none
  textMatches : Option (List TextMatch) := none
  currentMatchIndex : Option ℤ := none
  showCleanedText : Option Bool := none
  expandedPageNumbers : Option (Finset ℤ) := none

def ContentViewState.copyWith (s : ContentViewState ε) (c : Changes ε) : ContentViewState ε where
  isLoading := c.isLoading.getD s.isLoading
  error := c.error
  content := c.content.or s.content
  keyword := c.keyword.getD s.keyword
  textMatches := c.textMatches.getD s.textMatches
  currentMatchIndex := c.currentMatchIndex.getD s.currentMatchIndex
  showCleanedText := c.showCleanedText.getD s.showCleanedText
  expandedPageNumbers := c.expandedPageNumbers.getD s.expandedPageNumbers

structure Setting where
  folding : CaseFolding
  initialPage : Option ℤ := none

def initiallyExpanded (initialPage : Option ℤ) : Content → Finset ℤ
  | .audio _ _ => ∅
  | .pdf _ [] => ∅
  | .pdf _ (first :: rest) =>
    match initialPage with
    | some target =>
      if target ∈ (first :: rest).map ParsedPage.pageNumber then {target} else {first.pageNumber}
    | none => {first.pageNumber}

def startLoad (s : ContentViewState ε) : ContentViewState ε :=
  s.copyWith { isLoading := some true }

def finishLoad (setting : Setting) (s : ContentViewState ε) :
    Except ε Content → ContentViewState ε
  | .ok content => s.copyWith {
      isLoading := some false
      content := some content
      keyword := some []
      textMatches := some []
      currentMatchIndex := some (-1)
      expandedPageNumbers := some (initiallyExpanded setting.initialPage content) }
  | .error error => s.copyWith { isLoading := some false, error := some error }

def matchAtIndex (textMatches : List TextMatch) (currentIndex : ℤ) : Option TextMatch :=
  if currentIndex < 0 then none else textMatches[currentIndex.toNat]?

def expandedForMatch (s : ContentViewState ε) (textMatches : List TextMatch)
    (currentIndex : ℤ) : Finset ℤ :=
  match s.content with
  | some (.pdf _ pages) =>
    match matchAtIndex textMatches currentIndex with
    | none => s.expandedPageNumbers
    | some m =>
      match pages[m.itemIndex]? with
      | none => s.expandedPageNumbers
      | some page => insert page.pageNumber s.expandedPageNumbers
  | _ => s.expandedPageNumbers

def applySearch (setting : Setting) (s : ContentViewState ε) (keyword : Text) :
    ContentViewState ε :=
  let textMatches := buildMatches setting.folding s.content s.showCleanedText keyword
  let currentIndex : ℤ := if textMatches = [] then -1 else 0
  s.copyWith {
    keyword := some keyword
    textMatches := some textMatches
    currentMatchIndex := some currentIndex
    expandedPageNumbers := some (expandedForMatch s textMatches currentIndex) }

def jumpTo (s : ContentViewState ε) (index : ℤ) : ContentViewState ε :=
  s.copyWith {
    currentMatchIndex := some index
    expandedPageNumbers := some (expandedForMatch s s.textMatches index) }

def jumpToNextMatch (s : ContentViewState ε) : ContentViewState ε :=
  if s.textMatches = [] then s
  else jumpTo s ((s.currentMatchIndex + 1) % s.textMatches.length)

def jumpToPreviousMatch (s : ContentViewState ε) : ContentViewState ε :=
  if s.textMatches = [] then s
  else
    jumpTo s ((s.currentMatchIndex - 1 + s.textMatches.length) % s.textMatches.length)

def toggleTextMode (setting : Setting) (s : ContentViewState ε) : ContentViewState ε :=
  let toggled := s.copyWith { showCleanedText := some (!s.showCleanedText) }
  if toggled.keyword = [] then toggled else applySearch setting toggled toggled.keyword

def togglePageExpanded (s : ContentViewState ε) (pageNumber : ℤ) : ContentViewState ε :=
  s.copyWith {
    expandedPageNumbers := some (
      if pageNumber ∈ s.expandedPageNumbers then s.expandedPageNumbers.erase pageNumber
      else insert pageNumber s.expandedPageNumbers) }

/-- The loads in flight are counted; the debounce timer holds the text typed last. -/
structure System (ε : Type*) where
  state : ContentViewState ε
  loading : ℕ
  debounce : Option Text

inductive Event (ε : Type*)
  | load
  | loaded (result : Except ε Content)
  | searchChanged (keyword : Text)
  | debounceFires
  | jumpToNextMatch
  | jumpToPreviousMatch
  | toggleTextMode
  | togglePageExpanded (pageNumber : ℤ)

def step (setting : Setting) (s : System ε) : Event ε → System ε
  | .load => { s with state := startLoad s.state, loading := s.loading + 1 }
  | .loaded result =>
    if s.loading = 0 then s
    else { s with state := finishLoad setting s.state result, loading := s.loading - 1 }
  | .searchChanged keyword => { s with debounce := some keyword }
  | .debounceFires =>
    match s.debounce with
    | none => s
    | some keyword =>
      { s with state := applySearch setting s.state (DartText.trim keyword), debounce := none }
  | .jumpToNextMatch => { s with state := ContentView.jumpToNextMatch s.state }
  | .jumpToPreviousMatch => { s with state := ContentView.jumpToPreviousMatch s.state }
  | .toggleTextMode => { s with state := ContentView.toggleTextMode setting s.state }
  | .togglePageExpanded pageNumber =>
    { s with state := ContentView.togglePageExpanded s.state pageNumber }

def System.opened : System ε := ⟨{}, 0, none⟩

def currentMatch (s : ContentViewState ε) : Option TextMatch :=
  matchAtIndex s.textMatches s.currentMatchIndex

def InRange (textMatches : List TextMatch) (currentIndex : ℤ) : Prop :=
  if textMatches = [] then currentIndex = -1
  else 0 ≤ currentIndex ∧ currentIndex < textMatches.length

/-- The matches are those of the keyword in the content as it is shown. -/
structure Consistent (setting : Setting) (s : ContentViewState ε) : Prop where
  fresh : s.textMatches = buildMatches setting.folding s.content s.showCleanedText s.keyword
  cursor : InRange s.textMatches s.currentMatchIndex

theorem buildMatches_nil (folding : CaseFolding) (content : Option Content)
    (showCleaned : Bool) : buildMatches folding content showCleaned [] = [] := if_pos rfl

theorem consistent_applySearch (setting : Setting) (s : ContentViewState ε) (keyword : Text) :
    Consistent setting (applySearch setting s keyword) := by
  refine ⟨rfl, ?_⟩
  change InRange (buildMatches setting.folding s.content s.showCleanedText keyword)
    (if buildMatches setting.folding s.content s.showCleanedText keyword = [] then -1 else 0)
  unfold InRange
  split
  · rfl
  · rename_i some
    have long := List.length_pos_iff.mpr some
    omega

theorem consistent_jumpTo {setting : Setting} {s : ContentViewState ε}
    (h : Consistent setting s) {index : ℤ} (inside : InRange s.textMatches index) :
    Consistent setting (jumpTo s index) := ⟨h.fresh, inside⟩

theorem inRange_emod {textMatches : List TextMatch} (some : textMatches ≠ []) (index : ℤ) :
    InRange textMatches (index % textMatches.length) := by
  have long := List.length_pos_iff.mpr some
  unfold InRange
  rw [if_neg some]
  exact ⟨Int.emod_nonneg _ (by omega), Int.emod_lt_of_pos _ (by omega)⟩

theorem consistent_step (setting : Setting) (s : System ε) (e : Event ε)
    (h : Consistent setting s.state) : Consistent setting (step setting s e).state := by
  cases e with
  | load => exact ⟨h.fresh, h.cursor⟩
  | loaded result =>
    simp only [step]
    split
    · exact h
    · cases result with
      | ok content => exact ⟨(buildMatches_nil _ _ _).symm, rfl⟩
      | error error => exact ⟨h.fresh, h.cursor⟩
  | searchChanged keyword => exact h
  | debounceFires =>
    simp only [step]
    split
    · exact h
    · exact consistent_applySearch setting s.state _
  | jumpToNextMatch =>
    simp only [step, jumpToNextMatch]
    split
    · exact h
    · rename_i some
      exact consistent_jumpTo h (inRange_emod some _)
  | jumpToPreviousMatch =>
    simp only [step, jumpToPreviousMatch]
    split
    · exact h
    · rename_i some
      exact consistent_jumpTo h (inRange_emod some _)
  | toggleTextMode =>
    simp only [step, toggleTextMode]
    split
    · rename_i none
      refine ⟨?_, h.cursor⟩
      have blank : s.state.keyword = [] := none
      change s.state.textMatches =
        buildMatches setting.folding s.state.content (!s.state.showCleanedText) s.state.keyword
      rw [h.fresh, blank, buildMatches_nil, buildMatches_nil]
    · exact consistent_applySearch setting _ _
  | togglePageExpanded pageNumber => exact ⟨h.fresh, h.cursor⟩

/-- What the search bar and the list rely on. -/
structure Shown (setting : Setting) (s : ContentViewState ε) : Prop
    extends Consistent setting s where
  bounded : s.textMatches.length ≤ maxHighlightMatches
  located : ∀ m, currentMatch s = some m → ∃ content text, s.content = some content ∧
    (content.texts s.showCleanedText)[m.itemIndex]? = some text ∧
    Occurs setting.folding (setting.folding.toLowerCase s.keyword) text m.startOffset ∧
    m.endOffset = m.startOffset + (setting.folding.toLowerCase s.keyword).length

theorem mem_of_matchAtIndex {textMatches : List TextMatch} {index : ℤ} {m : TextMatch}
    (found : matchAtIndex textMatches index = some m) : m ∈ textMatches := by
  unfold matchAtIndex at found
  split at found
  · cases found
  · exact List.mem_of_getElem? found

theorem content_of_match {folding : CaseFolding} {content : Option Content} {showCleaned : Bool}
    {keyword : Text} {m : TextMatch} (mem : m ∈ buildMatches folding content showCleaned keyword) :
    keyword ≠ [] ∧ ∃ loaded, content = some loaded := by
  unfold buildMatches at mem
  split at mem
  · exact absurd mem List.not_mem_nil
  · rename_i filled
    cases content with
    | none => exact absurd mem List.not_mem_nil
    | some loaded => exact ⟨filled, loaded, rfl⟩

theorem Consistent.shown {setting : Setting} {s : ContentViewState ε}
    (h : Consistent setting s) : Shown setting s := by
  refine ⟨h, ?_, fun m found => ?_⟩
  · rw [h.fresh]
    by_cases none : buildMatches setting.folding s.content s.showCleanedText s.keyword = []
    · rw [none]
      exact Nat.zero_le _
    · obtain ⟨m, mem⟩ := List.exists_mem_of_ne_nil _ none
      obtain ⟨filled, loaded, same⟩ := content_of_match mem
      rw [same]
      exact (buildMatches_finds setting.folding loaded s.showCleanedText filled).bounded
  · have mem := mem_of_matchAtIndex found
    rw [h.fresh] at mem
    obtain ⟨filled, loaded, same⟩ := content_of_match mem
    rw [same] at mem
    obtain ⟨text, item, occurs, long⟩ :=
      (buildMatches_finds setting.folding loaded s.showCleanedText filled).occur m mem
    exact ⟨loaded, text, same, item, occurs, long⟩

def currentPage (s : ContentViewState ε) : Option ParsedPage :=
  match s.content with
  | some (.pdf _ pages) => (currentMatch s).bind fun m => pages[m.itemIndex]?
  | _ => none

def Revealed (s : ContentViewState ε) : Prop :=
  ∀ page, currentPage s = some page → page.pageNumber ∈ s.expandedPageNumbers

def KeepsPage (s : System ε) : Event ε → Prop
  | .togglePageExpanded pageNumber =>
    ∀ page, currentPage s.state = some page → page.pageNumber ≠ pageNumber
  | _ => True

theorem revealed_expandedForMatch {s s' : ContentViewState ε} (content : s'.content = s.content)
    (expanded : s'.expandedPageNumbers =
      expandedForMatch s s'.textMatches s'.currentMatchIndex) : Revealed s' := by
  intro page here
  unfold currentPage currentMatch at here
  rw [expanded, expandedForMatch, ← content]
  cases loaded : s'.content with
  | none => rw [loaded] at here; cases here
  | some c =>
    rw [loaded] at here
    cases c with
    | audio taskID segments => cases here
    | pdf taskID pages =>
      obtain ⟨m, found, item⟩ := Option.bind_eq_some_iff.mp here
      simp only [found, item]
      exact Finset.mem_insert_self _ _

theorem revealed_applySearch (setting : Setting) (s : ContentViewState ε) (keyword : Text) :
    Revealed (applySearch setting s keyword) := @revealed_expandedForMatch _ s _ rfl rfl

theorem revealed_jumpTo (s : ContentViewState ε) (index : ℤ) : Revealed (jumpTo s index) :=
  @revealed_expandedForMatch _ s _ rfl rfl

theorem currentPage_none {s : ContentViewState ε} (none : s.textMatches = []) :
    currentPage s = .none := by
  have nowhere : currentMatch s = .none := by
    rw [currentMatch, none, matchAtIndex, List.getElem?_nil]
    exact ite_self _
  unfold currentPage
  rw [nowhere]
  split <;> rfl

theorem revealed_step (setting : Setting) (s : System ε) (e : Event ε) (h : Revealed s.state)
    (keeps : KeepsPage s e) : Revealed (step setting s e).state := by
  cases e with
  | load => exact h
  | loaded result =>
    simp only [step]
    split
    · exact h
    · cases result with
      | ok content =>
        intro page here
        rw [currentPage_none rfl] at here
        cases here
      | error error => exact h
  | searchChanged keyword => exact h
  | debounceFires =>
    simp only [step]
    split
    · exact h
    · exact revealed_applySearch setting s.state _
  | jumpToNextMatch =>
    simp only [step, jumpToNextMatch]
    split
    · exact h
    · exact revealed_jumpTo s.state _
  | jumpToPreviousMatch =>
    simp only [step, jumpToPreviousMatch]
    split
    · exact h
    · exact revealed_jumpTo s.state _
  | toggleTextMode =>
    simp only [step, toggleTextMode]
    split
    · exact h
    · exact revealed_applySearch setting _ _
  | togglePageExpanded pageNumber =>
    intro page here
    have other : page.pageNumber ≠ pageNumber := keeps page here
    have shown := h page here
    change page.pageNumber ∈ (if pageNumber ∈ s.state.expandedPageNumbers then
      s.state.expandedPageNumbers.erase pageNumber
      else insert pageNumber s.state.expandedPageNumbers)
    split
    · exact Finset.mem_erase_of_ne_of_mem other shown
    · exact Finset.mem_insert_of_mem shown

theorem keepsPage_of_revealed (setting : Setting) (s : System ε) (e : Event ε)
    (h : Revealed s.state) (after : Revealed (step setting s e).state) : KeepsPage s e := by
  cases e with
  | togglePageExpanded pageNumber =>
    rintro page here rfl
    have shown := h page here
    have gone : page.pageNumber ∈ (if page.pageNumber ∈ s.state.expandedPageNumbers then
      s.state.expandedPageNumbers.erase page.pageNumber
      else insert page.pageNumber s.state.expandedPageNumbers) := after page here
    rw [if_pos shown] at gone
    exact Finset.notMem_erase _ _ gone
  | _ => trivial

/-- In every state of a run the matches are those of the keyword in the content shown, and the
cursor is on one of them. Its page is always unfolded exactly when it is never folded by hand. -/
theorem run_shown (setting : Setting) (es : List (Event ε)) :
    EveryState (step setting) (fun s => Shown setting s.state) .opened es ∧
      (EveryState (step setting) (fun s => Revealed s.state) .opened es ↔
        EveryStep (step setting) KeepsPage .opened es) := by
  constructor
  · have start : Consistent setting (System.opened : System ε).state :=
      ⟨(buildMatches_nil _ _ _).symm, rfl⟩
    exact everyState_imp (fun s h => Consistent.shown h)
      (everyState_of_invariant (consistent_step setting) es start)
  · have start : Revealed (System.opened : System ε).state := by
      intro page here
      cases here
    exact everyState_iff_guard (revealed_step setting) (keepsPage_of_revealed setting) start

inductive Jump
  | next
  | previous

def Jump.event : Jump → Event ε
  | .next => .jumpToNextMatch
  | .previous => .jumpToPreviousMatch

def Jump.amount : Jump → ℤ
  | .next => 1
  | .previous => -1

def net (jumps : List Jump) : ℤ := jumps.foldr (fun jump total => jump.amount + total) 0

section Jumps

variable (setting : Setting)

theorem step_jump (s : System ε) (jump : Jump) :
    (step setting s jump.event).state =
      if s.state.textMatches = [] then s.state
      else jumpTo s.state ((s.state.currentMatchIndex + jump.amount) %
        s.state.textMatches.length) := by
  cases jump with
  | next => rfl
  | previous =>
    change jumpToPreviousMatch s.state = _
    rw [jumpToPreviousMatch, Int.add_emod_right]
    rfl

theorem exec_jumps (s : System ε) (inside : InRange s.state.textMatches s.state.currentMatchIndex)
    (jumps : List Jump) :
    let s' := exec (step setting) s (jumps.map Jump.event)
    s'.state.textMatches = s.state.textMatches ∧
      s'.state.currentMatchIndex =
        if s.state.textMatches = [] then -1
        else (s.state.currentMatchIndex + net jumps) % s.state.textMatches.length := by
  induction jumps generalizing s with
  | nil =>
    unfold InRange at inside
    refine ⟨rfl, ?_⟩
    split at inside
    · rename_i none
      rw [if_pos none]
      exact inside
    · rename_i some
      rw [if_neg some]
      exact (((congrArg (· % _) (Int.add_zero _)).trans
        (Int.emod_eq_of_lt inside.1 inside.2))).symm
  | cons jump jumps ih =>
    have moved := step_jump setting s jump
    by_cases none : s.state.textMatches = []
    · rw [if_pos none] at moved
      have rest := ih (step setting s jump.event) (moved ▸ inside)
      rw [moved, if_pos none] at rest
      rw [if_pos none]
      exact rest
    · rw [if_neg none] at moved
      have rest := ih (step setting s jump.event) (moved ▸ inRange_emod none _)
      rw [moved] at rest
      have cursor : (jumpTo s.state ((s.state.currentMatchIndex + jump.amount) %
          s.state.textMatches.length)).currentMatchIndex =
            (s.state.currentMatchIndex + jump.amount) % s.state.textMatches.length := rfl
      have same : (jumpTo s.state ((s.state.currentMatchIndex + jump.amount) %
          s.state.textMatches.length)).textMatches = s.state.textMatches := rfl
      rw [cursor, same, if_neg none, Int.emod_add_emod, Int.add_assoc] at rest
      rw [if_neg none]
      exact rest

theorem net_replicate (count : ℕ) : net (List.replicate count .next) = count := by
  induction count with
  | zero => rfl
  | succ count ih =>
    have one : net (List.replicate (count + 1) .next) =
        1 + net (List.replicate count .next) := rfl
    rw [one, ih]
    omega

/-- Jumps go around the matches, whatever happened before: only the difference between forward
and backward counts, and every match is reached within one round. -/
theorem run_jumps (es : List (Event ε)) :
    let s := (exec (step setting) .opened es).state
    (∀ jumps : List Jump,
      let s' := (exec (step setting) .opened (es ++ jumps.map Jump.event)).state
      s'.textMatches = s.textMatches ∧
        s'.currentMatchIndex = if s.textMatches = [] then -1
          else (s.currentMatchIndex + net jumps) % s.textMatches.length) ∧
    ∀ i < s.textMatches.length, ∃ count < s.textMatches.length,
      (exec (step setting) .opened
        (es ++ (List.replicate count Jump.next).map Jump.event)).state.currentMatchIndex = i := by
  have inside : InRange (exec (step setting) .opened es).state.textMatches
      (exec (step setting) .opened es).state.currentMatchIndex :=
    (run_shown setting es).1.last.cursor
  intro s
  have around := exec_jumps setting (exec (step setting) .opened es) inside
  refine ⟨fun jumps => ?_, fun i bound => ?_⟩
  · rw [exec, List.foldl_append]
    exact around jumps
  · have some : s.textMatches ≠ [] := List.ne_nil_of_length_pos (Nat.zero_lt_of_lt bound)
    have positive : (0 : ℤ) < s.textMatches.length := by omega
    have low := Int.emod_nonneg (i - s.currentMatchIndex) (Int.ne_of_gt positive)
    have high := Int.emod_lt_of_pos (i - s.currentMatchIndex) positive
    refine ⟨((i - s.currentMatchIndex) % s.textMatches.length).toNat, by omega, ?_⟩
    rw [exec, List.foldl_append]
    refine ((around _).2.trans (if_neg some)).trans ?_
    rw [net_replicate, Int.toNat_of_nonneg low]
    change (s.currentMatchIndex + (i - s.currentMatchIndex) % s.textMatches.length) %
      s.textMatches.length = i
    rw [Int.add_emod_emod, Int.add_comm, Int.sub_add_cancel]
    exact Int.emod_eq_of_lt (Int.natCast_nonneg i) (by omega)

end Jumps

end KnowledgeCompanion.ContentView
