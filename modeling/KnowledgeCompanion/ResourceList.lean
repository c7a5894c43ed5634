import Mathlib.Data.List.Range
import Mathlib.Data.List.Nodup
import KnowledgeCompanion.GuardedRun
import KnowledgeCompanion.Text

/-! The resource list of the client (`providers/resource_list_provider.dart`). Requests for
pages are in flight while the user refreshes, loads more and filters; a response is applied
to the state that it finds. -/

namespace KnowledgeCompanion.ResourceList

open GuardedRun

def defaultResourcePageSize : ℕ := 20

structure ResourceListState (ρ ε : Type*) where
  resources : List ρ := []
  currentPage : ℕ := 1
  hasMore : Bool := true
  isLoading : Bool := false
  isLoadingMore : Bool := false
  selectedTag : Option Text := none
  error : Option ε := none
  filterError : Option ε := none

/-- The arguments of `copyWith`. -/
structure Changes (ρ ε : Type*) where
  resources : Option (List ρ) := none
  currentPage : Option ℕ := none
  hasMore : Option Bool := none
  isLoading : Option Bool := none
  isLoadingMore : Option Bool := none
  selectedTag : Option Text := none
  clearSelectedTag : Bool := false
  error : Option ε := none
  filterError : Option ε := none
  clearError : Bool := false
  clearFilterError : Bool := false

variable {ρ ε : Type*}

def ResourceListState.copyWith (s : ResourceListState ρ ε) (c : Changes ρ ε) :
    ResourceListState ρ ε where
  resources := c.resources.getD s.resources
  currentPage := c.currentPage.getD s.currentPage
  hasMore := c.hasMore.getD s.hasMore
  isLoading := c.isLoading.getD s.isLoading
  isLoadingMore := c.isLoadingMore.getD s.isLoadingMore
  selectedTag := if c.clearSelectedTag then none else c.selectedTag.or s.selectedTag
  error := if c.clearError then none else c.error
  filterError := if c.clearFilterError then none else c.filterError

structure Server (ρ : Type*) where
  listing : Option Text → List ρ
  distinct : ∀ tag, (listing tag).Nodup

def Server.page (server : Server ρ) (tag : Option Text) (page : ℕ) : List ρ :=
  ((server.listing tag).drop ((page - 1) * defaultResourcePageSize)).take defaultResourcePageSize

def Server.pages (server : Server ρ) (tag : Option Text) (count : ℕ) : List ρ :=
  (List.range count).flatMap fun i => server.page tag (i + 1)

theorem pages_succ (server : Server ρ) (tag : Option Text) (count : ℕ) :
    server.pages tag (count + 1) = server.pages tag count ++ server.page tag (count + 1) := by
  unfold Server.pages
  rw [List.range_succ, List.flatMap_append, List.flatMap_singleton]

theorem pages_one (server : Server ρ) (tag : Option Text) :
    server.pages tag 1 = server.page tag 1 := by
  rw [pages_succ]
  rfl

theorem pages_eq_take (server : Server ρ) (tag : Option Text) (count : ℕ) :
    server.pages tag count = (server.listing tag).take (count * defaultResourcePageSize) := by
  induction count with
  | zero => rw [Nat.zero_mul, List.take_zero]; rfl
  | succ count ih =>
    rw [pages_succ, ih, Server.page, Nat.add_sub_cancel, Nat.succ_mul, List.take_add]

inductive Request (ρ ε : Type*)
  | loadInitial (tag : Option Text)
  | loadMore (nextPage : ℕ) (tag : Option Text)
  | filterByTag (tag : Text) (previous : ResourceListState ρ ε)

def Request.page : Request ρ ε → ℕ
  | .loadInitial _ => 1
  | .loadMore nextPage _ => nextPage
  | .filterByTag _ _ => 1

def Request.tag : Request ρ ε → Option Text
  | .loadInitial tag => tag
  | .loadMore _ tag => tag
  | .filterByTag tag _ => some tag

def Request.replaces : Request ρ ε → Bool
  | .loadMore _ _ => false
  | _ => true

inductive Reply (ε : Type*)
  | served
  | failed (error : ε)

def keptAfter (kept : Bool) (request : Request ρ ε) : Reply ε → Bool
  | .served => kept && !request.replaces
  | .failed _ => kept || request.replaces

/-- The state with the requests in flight. The code does not record `kept`, which is a fact
about the responses so far. -/
structure System (ρ ε : Type*) where
  state : ResourceListState ρ ε
  pending : List (Request ρ ε)
  kept : Bool := false

inductive Event (ε : Type*)
  | loadInitial
  | loadMore
  | filterByTag (tag : Text)
  | clearFilter
  | respond (i : ℕ) (reply : Reply ε)

def loadInitial (s : System ρ ε) : System ρ ε :=
  let state := s.state.copyWith {
    isLoading := some true
    currentPage := some 1
    hasMore := some true
    clearError := true
    clearFilterError := true }
  ⟨state, s.pending ++ [.loadInitial state.selectedTag], s.kept⟩

def loadMore (s : System ρ ε) : System ρ ε :=
  if s.state.isLoadingMore || !s.state.hasMore then s
  else
    let nextPage := s.state.currentPage + 1
    let state := s.state.copyWith { isLoadingMore := some true, clearFilterError := true }
    ⟨state, s.pending ++ [.loadMore nextPage state.selectedTag], s.kept⟩

def filterByTag (s : System ρ ε) (tag : Text) : System ρ ε :=
  let state := s.state.copyWith {
    selectedTag := some tag
    isLoading := some true
    currentPage := some 1
    clearError := true
    clearFilterError := true }
  ⟨state, s.pending ++ [.filterByTag tag s.state], s.kept⟩

def clearFilter (s : System ρ ε) : System ρ ε :=
  loadInitial { s with state := s.state.copyWith { clearSelectedTag := true } }

def onSuccess (s : ResourceListState ρ ε) (resources : List ρ) :
    Request ρ ε → ResourceListState ρ ε
  | .loadInitial _ => s.copyWith {
      isLoading := some false
      resources := some resources
      currentPage := some 1
      hasMore := some (resources.length == defaultResourcePageSize)
      clearError := true }
  | .loadMore nextPage _ => s.copyWith {
      isLoadingMore := some false
      resources := some (s.resources ++ resources)
      currentPage := some nextPage
      hasMore := some (resources.length == defaultResourcePageSize) }
  | .filterByTag _ _ => s.copyWith {
      isLoading := some false
      resources := some resources
      currentPage := some 1
      hasMore := some (resources.length == defaultResourcePageSize) }

def onFailure (s : ResourceListState ρ ε) (error : ε) : Request ρ ε → ResourceListState ρ ε
  | .loadInitial _ => s.copyWith { isLoading := some false, error := some error }
  | .loadMore _ _ => s.copyWith { isLoadingMore := some false, filterError := some error }
  | .filterByTag tag previous => previous.copyWith {
      selectedTag := some tag
      isLoading := some false
      filterError := some error }

def respond (server : Server ρ) (s : ResourceListState ρ ε) (request : Request ρ ε) :
    Reply ε → ResourceListState ρ ε
  | .served => onSuccess s (server.page request.tag request.page) request
  | .failed error => onFailure s error request

def step (server : Server ρ) (s : System ρ ε) : Event ε → System ρ ε
  | .loadInitial => loadInitial s
  | .loadMore => loadMore s
  | .filterByTag tag => filterByTag s tag
  | .clearFilter => clearFilter s
  | .respond i reply =>
    match s.pending[i]? with
    | none => s
    | some request =>
      ⟨respond server s.state request reply, s.pending.eraseIdx i, keptAfter s.kept request reply⟩

def System.opened : System ρ ε := loadInitial ⟨{}, [], false⟩

/-- The first pages of a tag, which repeat no item and have none of another tag. -/
structure FirstPages (server : Server ρ) (resources : List ρ) (tag : Option Text) (count : ℕ) :
    Prop where
  pages : resources = server.pages tag count
  distinct : resources.Nodup
  own : ∀ r ∈ resources, r ∈ server.listing tag

theorem firstPages_pages (server : Server ρ) (tag : Option Text) (count : ℕ) :
    FirstPages server (server.pages tag count) tag count := by
  have front : (server.pages tag count).Sublist (server.listing tag) := by
    rw [pages_eq_take]
    exact List.take_sublist _ _
  exact ⟨rfl, (server.distinct tag).sublist front, fun r mem => front.subset mem⟩

theorem firstPages_page (server : Server ρ) (tag : Option Text) :
    FirstPages server (server.page tag 1) tag 1 := by
  rw [← pages_one]
  exact firstPages_pages server tag 1

theorem FirstPages.append {server : Server ρ} {resources : List ρ} {tag : Option Text} {count : ℕ}
    (h : FirstPages server resources tag count) :
    FirstPages server (resources ++ server.page tag (count + 1)) tag (count + 1) := by
  rw [h.pages, ← pages_succ]
  exact firstPages_pages server tag (count + 1)

/-- The list is the pages of the selected tag up to the current one. -/
def Shows (server : Server ρ) (s : ResourceListState ρ ε) : Prop :=
  FirstPages server s.resources s.selectedTag s.currentPage

def Exposed (s : ResourceListState ρ ε) : Prop := s.error.isSome ∨ s.filterError.isSome

def Replacing (pending : List (Request ρ ε)) : Prop := ∃ request ∈ pending, request.replaces = true

/-- The request has the selected tag, and asks for a first page or for the one after the
current page of a list that no failure has kept. -/
def Fits (s : System ρ ε) (request : Request ρ ε) : Prop :=
  request.tag = s.state.selectedTag ∧
    (request.replaces = false → s.kept = false ∧ request.page = s.state.currentPage + 1)

def InDate (s : System ρ ε) : Event ε → Prop
  | .respond i .served =>
    match s.pending[i]? with
    | none => True
    | some request => Replacing (s.pending.eraseIdx i) ∨ Fits s request
  | _ => True

def Unmixed (s : System ρ ε) : Event ε → Prop
  | .respond i .served =>
    match s.pending[i]? with
    | none => True
    | some request => request.replaces = true ∨ ¬ Replacing s.pending
  | _ => True

/-- While no first page is awaited, the list belongs to the selected tag, or it was kept and
the error is exposed or waits for the next page to arrive. -/
def Settled (server : Server ρ) (s : System ρ ε) : Prop :=
  Replacing s.pending ∨ s.kept = false ∧ Shows server s.state ∨
    s.kept = true ∧ (Exposed s.state ∨ s.pending ≠ [])

theorem replacing_append {pending : List (Request ρ ε)} {request : Request ρ ε}
    (replaces : request.replaces = true) : Replacing (pending ++ [request]) :=
  ⟨request, List.mem_append_right _ (List.mem_singleton_self _), replaces⟩

theorem Replacing.append {pending : List (Request ρ ε)} (h : Replacing pending)
    (request : Request ρ ε) : Replacing (pending ++ [request]) := by
  obtain ⟨first, mem, replaces⟩ := h
  exact ⟨first, List.mem_append_left _ mem, replaces⟩

theorem Replacing.eraseIdx {pending : List (Request ρ ε)} (h : Replacing pending) {i : ℕ}
    {request : Request ρ ε} (found : pending[i]? = some request)
    (other : request.replaces = false) : Replacing (pending.eraseIdx i) := by
  obtain ⟨first, mem, replaces⟩ := h
  obtain ⟨j, place⟩ := List.mem_iff_getElem?.mp mem
  refine ⟨first, List.mem_eraseIdx_iff_getElem?.mpr ⟨j, ?_, place⟩, replaces⟩
  rintro rfl
  have same : first = request := Option.some.inj (place.symm.trans found)
  rw [same, other] at replaces
  exact Bool.noConfusion replaces

theorem settled_loadMore {server : Server ρ} {s : System ρ ε} (h : Settled server s) :
    Settled server (loadMore s) := by
  unfold loadMore
  split
  · exact h
  · rcases h with first | shown | ⟨kept, -⟩
    · exact .inl (first.append _)
    · exact .inr (.inl shown)
    · exact .inr (.inr ⟨kept, .inr (by simp)⟩)

theorem shows_served {server : Server ρ} {s : System ρ ε} {request : Request ρ ε}
    (fits : Fits s request)
    (shown : request.replaces = false → s.kept = false → Shows server s.state) :
    keptAfter s.kept request .served = false ∧
      Shows server (respond server s.state request .served) := by
  obtain ⟨tag, next⟩ := fits
  cases request with
  | loadInitial asked =>
    have same : asked = s.state.selectedTag := tag
    refine ⟨Bool.and_false _, ?_⟩
    rw [same]
    exact firstPages_page server s.state.selectedTag
  | loadMore nextPage asked =>
    have same : asked = s.state.selectedTag := tag
    obtain ⟨current, page⟩ := next rfl
    have page : nextPage = s.state.currentPage + 1 := page
    refine ⟨by rw [keptAfter, current]; rfl, ?_⟩
    rw [same, page]
    exact (shown rfl current).append
  | filterByTag asked previous =>
    have same : some asked = s.state.selectedTag := tag
    refine ⟨Bool.and_false _, ?_⟩
    have first := firstPages_page server (some asked)
    rw [Shows]
    exact same ▸ first

theorem settled_failed {server : Server ρ} {s : System ρ ε} {request : Request ρ ε} (error : ε)
    (pending : List (Request ρ ε))
    (settled : request.replaces = false → s.kept = false → Shows server s.state) :
    Settled server ⟨respond server s.state request (.failed error), pending,
      keptAfter s.kept request (.failed error)⟩ := by
  cases request with
  | loadInitial tag => exact .inr (.inr ⟨Bool.or_true _, .inl (.inl rfl)⟩)
  | filterByTag tag previous => exact .inr (.inr ⟨Bool.or_true _, .inl (.inr rfl)⟩)
  | loadMore nextPage tag =>
    cases kept : s.kept with
    | false => exact .inr (.inl ⟨rfl, settled rfl kept⟩)
    | true => exact .inr (.inr ⟨rfl, .inl (.inr rfl)⟩)

theorem settled_step (server : Server ρ) (s : System ρ ε) (e : Event ε) (h : Settled server s)
    (inDate : InDate s e) : Settled server (step server s e) := by
  cases e with
  | loadInitial => exact .inl (replacing_append rfl)
  | loadMore => exact settled_loadMore h
  | filterByTag tag => exact .inl (replacing_append rfl)
  | clearFilter => exact .inl (replacing_append rfl)
  | respond i reply =>
    cases found : s.pending[i]? with
    | none =>
      have unmoved : step server s (.respond i reply) = s := by simp only [step, found]
      rw [unmoved]
      exact h
    | some request =>
      simp only [step, found]
      by_cases first : Replacing (s.pending.eraseIdx i)
      · exact .inl first
      have shown (other : request.replaces = false) (current : s.kept = false) :
          Shows server s.state := by
        rcases h with awaited | ⟨-, shown⟩ | ⟨kept, -⟩
        · exact absurd (awaited.eraseIdx found other) first
        · exact shown
        · exact absurd (current.symm.trans kept) Bool.noConfusion
      cases reply with
      | served =>
        simp only [InDate, found] at inDate
        exact .inr (.inl (shows_served (inDate.resolve_left first) shown))
      | failed error => exact settled_failed error _ shown

/-- The list, and every list that a filter may bring back, is the first pages of one tag. -/
def Clean (server : Server ρ) (s : System ρ ε) : Prop :=
  (∃ tag count, FirstPages server s.state.resources tag count) ∧
    ∀ tag previous, .filterByTag tag previous ∈ s.pending →
      ∃ tag count, FirstPages server previous.resources tag count

theorem clean_respond {server : Server ρ} {s : System ρ ε} (settled : Settled server s)
    (clean : Clean server s) {i : ℕ} {request : Request ρ ε} (found : s.pending[i]? = some request)
    {reply : Reply ε} (inDate : InDate s (.respond i reply))
    (unmixed : Unmixed s (.respond i reply)) :
    ∃ tag count, FirstPages server (respond server s.state request reply).resources tag count := by
  cases reply with
  | failed error =>
    cases request with
    | loadInitial tag => exact clean.1
    | loadMore nextPage tag => exact clean.1
    | filterByTag tag previous => exact clean.2 tag previous (List.mem_of_getElem? found)
  | served =>
    cases request with
    | loadInitial tag => exact ⟨tag, 1, firstPages_page server tag⟩
    | filterByTag tag previous => exact ⟨some tag, 1, firstPages_page server (some tag)⟩
    | loadMore nextPage tag =>
      simp only [InDate, Unmixed, found] at inDate unmixed
      have quiet : ¬ Replacing s.pending := unmixed.resolve_left Bool.noConfusion
      have fits : Fits s (.loadMore nextPage tag) := by
        refine inDate.resolve_left fun ⟨first, mem, replaces⟩ => quiet ⟨first, ?_, replaces⟩
        exact List.mem_of_mem_eraseIdx mem
      refine ⟨_, _, (shows_served fits fun _ current => ?_).2⟩
      rcases settled with awaited | ⟨-, shown⟩ | ⟨kept, -⟩
      · exact absurd awaited quiet
      · exact shown
      · exact absurd (current.symm.trans kept) Bool.noConfusion

theorem Clean.append {server : Server ρ} {s : System ρ ε} (clean : Clean server s)
    {state : ResourceListState ρ ε} (same : state.resources = s.state.resources)
    {request : Request ρ ε} (own : ∀ tag previous, request = .filterByTag tag previous →
      previous.resources = s.state.resources) :
    Clean server ⟨state, s.pending ++ [request], s.kept⟩ := by
  refine ⟨same ▸ clean.1, fun tag previous mem => ?_⟩
  rcases List.mem_append.mp mem with before | new
  · exact clean.2 tag previous before
  · rw [own tag previous (List.mem_singleton.mp new).symm]
    exact clean.1

theorem clean_loadMore {server : Server ρ} {s : System ρ ε} (clean : Clean server s) :
    Clean server (loadMore s) := by
  unfold loadMore
  split
  · exact clean
  · exact clean.append rfl fun _ _ other => by cases other

theorem clean_step (server : Server ρ) (s : System ρ ε) (e : Event ε)
    (h : Settled server s ∧ Clean server s) (guard : InDate s e ∧ Unmixed s e) :
    Settled server (step server s e) ∧ Clean server (step server s e) := by
  obtain ⟨settled, clean⟩ := h
  refine ⟨settled_step server s e settled guard.1, ?_⟩
  cases e with
  | loadInitial => exact clean.append rfl fun _ _ other => by cases other
  | loadMore => exact clean_loadMore clean
  | filterByTag tag => exact clean.append rfl fun _ _ same => by cases same; rfl
  | clearFilter => exact clean.append rfl fun _ _ other => by cases other
  | respond i reply =>
    cases found : s.pending[i]? with
    | none =>
      have unmoved : step server s (.respond i reply) = s := by simp only [step, found]
      rw [unmoved]
      exact clean
    | some request =>
      have listed := clean_respond settled clean found guard.1 guard.2
      simp only [step, found]
      exact ⟨listed, fun tag previous mem => clean.2 tag previous (List.mem_of_mem_eraseIdx mem)⟩

theorem opened_settled (server : Server ρ) : Settled server (System.opened : System ρ ε) :=
  .inl (replacing_append rfl)

theorem opened_clean (server : Server ρ) : Clean server (System.opened : System ρ ε) := by
  refine ⟨⟨none, 0, rfl, List.nodup_nil, fun r mem => absurd mem List.not_mem_nil⟩, ?_⟩
  intro tag previous mem
  cases List.mem_singleton.mp mem

/-- In every run whose pages arrive in date, once no request is in flight the list is the pages
of the selected tag, or a first page failed after the last one served and an error is exposed.
If besides no next page comes between, every list shown is the first pages of one tag. -/
theorem quiescent_faithful (server : Server ρ) (es : List (Event ε))
    (inDate : EveryStep (step server) InDate .opened es) :
    EveryState (step server)
      (fun s => s.pending = [] → Shows server s.state ∨ s.kept = true ∧ Exposed s.state)
      .opened es ∧
    (EveryStep (step server) Unmixed .opened es →
      EveryState (step server)
        (fun s => ∃ tag count, FirstPages server s.state.resources tag count) .opened es) := by
  refine ⟨everyState_imp ?_ (everyState_of_guard (settled_step server) (opened_settled server)
    inDate), fun unmixed => ?_⟩
  · intro s settled idle
    rcases settled with ⟨request, mem, -⟩ | ⟨-, shown⟩ | ⟨kept, exposed | busy⟩
    · rw [idle] at mem
      exact absurd mem List.not_mem_nil
    · exact .inl shown
    · exact .inr ⟨kept, exposed⟩
    · exact absurd idle busy
  · exact everyState_imp (fun s clean => clean.2.1) (everyState_of_guard (clean_step server)
      ⟨opened_settled server, opened_clean server⟩ (everyStep_and inDate unmixed))

def twoResources : Server ℕ where
  listing tag := if tag = some "AI".toList then [1] else [2, 1]
  distinct tag := by split <;> decide

def filterFails : List (Event Unit) :=
  [.loadInitial, .respond 0 .served, .respond 0 .served, .filterByTag "AI".toList,
    .respond 0 (.failed ())]

def filterOvertakes : List (Event Unit) :=
  [.filterByTag "AI".toList, .respond 1 .served, .respond 0 .served]

theorem filterFails_faithful :
    EveryState (step twoResources)
      (fun s => s.pending = [] → Shows twoResources s.state ∨ s.kept = true ∧ Exposed s.state)
      .opened filterFails ∧
    EveryState (step twoResources)
      (fun s => ∃ tag count, FirstPages twoResources s.state.resources tag count)
      .opened filterFails := by
  have both := quiescent_faithful twoResources filterFails
    ⟨trivial, .inr ⟨rfl, fun other => Bool.noConfusion other⟩,
      .inr ⟨rfl, fun other => Bool.noConfusion other⟩, trivial, trivial, trivial⟩
  exact ⟨both.1, both.2 ⟨trivial, .inl rfl, .inl rfl, trivial, trivial, trivial⟩⟩

/-- The list that a failed filter keeps, and the one that a late response brings back, stand
under a tag that they do not belong to. -/
theorem list_of_other_tag :
    ¬EveryState (step twoResources)
        (fun s => s.pending = [] → Shows twoResources s.state)
        .opened filterFails ∧
      ¬EveryState (step twoResources)
        (fun s => s.pending = [] → Shows twoResources s.state)
        .opened filterOvertakes := by
  constructor
  · intro law
    have shown := law.last rfl
    exact absurd shown.pages (by decide)
  · intro law
    have shown := law.last rfl
    exact absurd shown.pages (by decide)

end KnowledgeCompanion.ResourceList
