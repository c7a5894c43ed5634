import Mathlib.Data.List.Nodup
import Mathlib.Data.List.Perm.Basic
import KnowledgeCompanion.GuardedRun
import KnowledgeCompanion.Text

/-! The conversation list of the client (`providers/conversation_list_provider.dart`) once it
is loaded: creations and deletions are in flight side by side, a deletion leaves the list when
it starts and comes back when it fails. -/

namespace KnowledgeCompanion.ConversationList

open GuardedRun

structure Conversation where
  id : Text
  title : Text
deriving DecidableEq

variable {ε : Type*}

structure ConversationListState (ε : Type*) where
  conversations : List Conversation := []
  isLoading : Bool := false
  error : Option ε := none
  selectedID : Option Text := none

/-- The arguments of `copyWith`. -/
structure Changes (ε : Type*) where
  conversations : Option (List Conversation) := none
  isLoading : Option Bool := none
  error : Option ε := none
  selectedID : Option Text := none

def ConversationListState.copyWith (s : ConversationListState ε) (c : Changes ε) :
    ConversationListState ε where
  conversations := c.conversations.getD s.conversations
  isLoading := c.isLoading.getD s.isLoading
  error := c.error
  selectedID := c.selectedID.or s.selectedID

inductive Request
  | create
  | delete (id : Text) (previous : List Conversation)

/-- The answer to a creation carries the new conversation, that to a deletion nothing. -/
inductive Reply (ε : Type*)
  | created (conversation : Conversation)
  | deleted
  | failed (error : ε)

structure Loaded where
  conversations : List Conversation
  distinct : (conversations.map Conversation.id).Nodup

/-- `created` and `deleted` record what has succeeded. -/
structure System (ε : Type*) where
  state : ConversationListState ε
  pending : List Request
  created : List Conversation
  deleted : List Text

inductive Event (ε : Type*)
  | createConversation
  | deleteConversation (id : Text)
  | respond (i : ℕ) (reply : Reply ε)

def Request.deletes : Request → Option Text
  | .create => none
  | .delete id _ => some id

def deleting (pending : List Request) : List Text := pending.filterMap Request.deletes

def usedIDs (loaded : Loaded) (s : System ε) : List Text :=
  loaded.conversations.map Conversation.id ++ s.created.map Conversation.id ++ s.deleted ++
    deleting s.pending

def createConversation (s : System ε) : System ε :=
  { s with
    state := s.state.copyWith { isLoading := some true }
    pending := s.pending ++ [.create] }

def deleteConversation (s : System ε) (id : Text) : System ε :=
  let previous := s.state.conversations
  { s with
    state := s.state.copyWith { conversations := some (previous.filter fun c => c.id != id) }
    pending := s.pending ++ [.delete id previous] }

def respond (loaded : Loaded) (s : System ε) (i : ℕ) : Request → Reply ε → System ε
  | .create, .created conversation =>
    if conversation.id ∈ usedIDs loaded s then s
    else
      { s with
        state := s.state.copyWith {
          isLoading := some false
          conversations := some (conversation :: s.state.conversations)
          selectedID := some conversation.id }
        pending := s.pending.eraseIdx i
        created := conversation :: s.created }
  | .create, .failed error =>
    { s with
      state := s.state.copyWith { isLoading := some false, error := some error }
      pending := s.pending.eraseIdx i }
  | .delete id _, .deleted =>
    { s with
      pending := s.pending.eraseIdx i
      deleted := id :: s.deleted }
  | .delete _ previous, .failed error =>
    { s with
      state := s.state.copyWith { conversations := some previous, error := some error }
      pending := s.pending.eraseIdx i }
  | .create, .deleted => s
  | .delete _ _, .created _ => s

def step (loaded : Loaded) (s : System ε) : Event ε → System ε
  | .createConversation => createConversation s
  | .deleteConversation id => deleteConversation s id
  | .respond i reply =>
    match s.pending[i]? with
    | none => s
    | some request => respond loaded s i request reply

def System.loaded (loaded : Loaded) : System ε where
  state := { conversations := loaded.conversations }
  pending := []
  created := []
  deleted := []

def Present (loaded : Loaded) (s : System ε) (c : Conversation) : Prop :=
  (c ∈ loaded.conversations ∨ c ∈ s.created) ∧ c.id ∉ s.deleted

/-- The list has exactly the conversations that are present, each once. -/
structure Exact (loaded : Loaded) (s : System ε) : Prop where
  distinct : (s.state.conversations.map Conversation.id).Nodup
  members : ∀ c, c ∈ s.state.conversations ↔ Present loaded s c

/-- A deletion that fails has kept the list that is shown now, with its own conversation put
back unless that is deleted or another deletion of it is in flight. -/
def SnapshotCurrent (loaded : Loaded) (s : System ε) : Event ε → Prop
  | .respond i (.failed _) =>
    match s.pending[i]? with
    | some (.delete id previous) =>
      ∀ c, c ∈ previous ↔ c ∈ s.state.conversations ∨
        c.id = id ∧ Present loaded s c ∧ id ∉ deleting (s.pending.eraseIdx i)
    | _ => True
  | _ => True

/-- The list has the conversations that are present and not being deleted, and every kept
list is distinct like the one shown. -/
structure Tracked (loaded : Loaded) (s : System ε) : Prop where
  distinct : (s.state.conversations.map Conversation.id).Nodup
  kept : ∀ id previous, .delete id previous ∈ s.pending →
    (previous.map Conversation.id).Nodup
  members : ∀ c, c ∈ s.state.conversations ↔
    Present loaded s c ∧ c.id ∉ deleting s.pending

theorem Tracked.exact {loaded : Loaded} {s : System ε} (h : Tracked loaded s)
    (idle : s.pending = []) : Exact loaded s := by
  refine ⟨h.distinct, fun c => (h.members c).trans ?_⟩
  rw [idle]
  exact and_iff_left List.not_mem_nil

theorem mem_deleting_append {pending : List Request} {request : Request} {id : Text} :
    id ∈ deleting (pending ++ [request]) ↔ id ∈ deleting pending ∨ request.deletes = some id := by
  simp [deleting, List.mem_filterMap]

theorem mem_deleting_eraseIdx {pending : List Request} {i : ℕ} {request : Request}
    (found : pending[i]? = some request) (id : Text) :
    id ∈ deleting pending ↔ request.deletes = some id ∨ id ∈ deleting (pending.eraseIdx i) := by
  obtain ⟨bound, same⟩ := List.getElem?_eq_some_iff.mp found
  have perm := (List.getElem_cons_eraseIdx_perm bound).filterMap Request.deletes
  rw [same] at perm
  unfold deleting
  rw [← perm.mem_iff]
  simp [List.mem_filterMap]

theorem fresh_of_unused {loaded : Loaded} {s : System ε} {id : Text}
    (unused : id ∉ usedIDs loaded s) :
    (∀ c, c ∈ loaded.conversations ∨ c ∈ s.created → c.id ≠ id) ∧ id ∉ s.deleted ∧
      id ∉ deleting s.pending := by
  simp only [usedIDs, List.mem_append, not_or] at unused
  refine ⟨fun c mem same => ?_, unused.1.2, unused.2⟩
  rcases mem with mem | mem
  · exact unused.1.1.1 (same ▸ List.mem_map_of_mem mem)
  · exact unused.1.1.2 (same ▸ List.mem_map_of_mem mem)

theorem tracked_create {loaded : Loaded} {s : System ε} (h : Tracked loaded s) :
    Tracked loaded (createConversation s) := by
  refine ⟨h.distinct, fun id previous mem => ?_, fun c => ?_⟩
  · rcases List.mem_append.mp mem with mem | mem
    · exact h.kept id previous mem
    · exact Request.noConfusion (List.mem_singleton.mp mem)
  · have same : c.id ∈ deleting (createConversation s).pending ↔ c.id ∈ deleting s.pending :=
      mem_deleting_append.trans (or_iff_left (Option.some_ne_none _).symm)
    rw [same]
    exact h.members c

theorem tracked_delete {loaded : Loaded} {s : System ε} (h : Tracked loaded s) (id : Text) :
    Tracked loaded (deleteConversation s id) := by
  refine ⟨?_, fun other previous mem => ?_, fun c => ?_⟩
  · exact h.distinct.sublist (List.filter_sublist.map _)
  · rcases List.mem_append.mp mem with mem | mem
    · exact h.kept other previous mem
    · cases List.mem_singleton.mp mem
      exact h.distinct
  · change c ∈ s.state.conversations.filter _ ↔ Present loaded s c ∧
      c.id ∉ deleting (s.pending ++ [.delete id s.state.conversations])
    have other : (c.id != id) = true ↔
        ¬(Request.delete id s.state.conversations).deletes = some c.id := by
      rw [bne_iff_ne, Request.deletes, Option.some_inj, ne_comm]
    rw [List.mem_filter, h.members, mem_deleting_append, and_assoc, not_or, other]

theorem tracked_kept {loaded : Loaded} {s : System ε} (h : Tracked loaded s) (i : ℕ) :
    ∀ id previous, .delete id previous ∈ s.pending.eraseIdx i →
      (previous.map Conversation.id).Nodup :=
  fun id previous mem => h.kept id previous (List.mem_of_mem_eraseIdx mem)

theorem tracked_created {loaded : Loaded} {s : System ε} (h : Tracked loaded s) {i : ℕ}
    (found : s.pending[i]? = some .create) (c : Conversation) :
    Tracked loaded (respond loaded s i .create (.created c : Reply ε)) := by
  unfold respond
  dsimp only
  split
  · exact h
  · rename_i unused
    obtain ⟨new, undeleted, idle⟩ := fresh_of_unused unused
    have rest (id : Text) := mem_deleting_eraseIdx found id
    simp only [Request.deletes, reduceCtorEq, false_or] at rest
    refine ⟨?_, tracked_kept h i, fun d => ?_⟩
    · refine List.nodup_cons.mpr ⟨?_, h.distinct⟩
      intro mem
      obtain ⟨d, shown, same⟩ := List.mem_map.mp mem
      exact new d ((h.members d).mp shown).1.1 same
    · change d ∈ c :: s.state.conversations ↔
        ((d ∈ loaded.conversations ∨ d ∈ c :: s.created) ∧ d.id ∉ s.deleted) ∧
          d.id ∉ deleting (s.pending.eraseIdx i)
      rw [← rest, List.mem_cons, List.mem_cons, h.members, Present]
      constructor
      · rintro (rfl | ⟨⟨source, kept⟩, waiting⟩)
        · exact ⟨⟨.inr (.inl rfl), undeleted⟩, idle⟩
        · exact ⟨⟨source.imp_right .inr, kept⟩, waiting⟩
      · rintro ⟨⟨source | rfl | source, kept⟩, waiting⟩
        · exact .inr ⟨⟨.inl source, kept⟩, waiting⟩
        · exact .inl rfl
        · exact .inr ⟨⟨.inr source, kept⟩, waiting⟩

theorem tracked_deleted {loaded : Loaded} {s : System ε} (h : Tracked loaded s) {i : ℕ}
    {id : Text} {previous : List Conversation}
    (found : s.pending[i]? = some (.delete id previous)) :
    Tracked loaded (respond loaded s i (.delete id previous) (.deleted : Reply ε)) := by
  refine ⟨h.distinct, tracked_kept h i, fun c => ?_⟩
  have rest := mem_deleting_eraseIdx found c.id
  simp only [Request.deletes, Option.some_inj] at rest
  change c ∈ s.state.conversations ↔
    ((c ∈ loaded.conversations ∨ c ∈ s.created) ∧ c.id ∉ id :: s.deleted) ∧
      c.id ∉ deleting (s.pending.eraseIdx i)
  rw [h.members, Present, rest, List.mem_cons, not_or, not_or, @eq_comm _ id, and_assoc,
    and_assoc, and_assoc, @and_left_comm (c.id ∉ s.deleted)]

theorem tracked_failed {loaded : Loaded} {s : System ε} (h : Tracked loaded s) {i : ℕ}
    {id : Text} {previous : List Conversation} {error : ε}
    (found : s.pending[i]? = some (.delete id previous))
    (current : SnapshotCurrent loaded s (.respond i (.failed error))) :
    Tracked loaded (respond loaded s i (.delete id previous) (.failed error)) := by
  simp only [SnapshotCurrent, found] at current
  refine ⟨h.kept id previous (List.mem_of_getElem? found), tracked_kept h i, fun c => ?_⟩
  have rest := mem_deleting_eraseIdx found c.id
  simp only [Request.deletes, Option.some_inj] at rest
  change c ∈ previous ↔ Present loaded s c ∧ c.id ∉ deleting (s.pending.eraseIdx i)
  rw [current, h.members, rest]
  by_cases own : c.id = id
  · rw [own]
    simp
  · have other : ¬id = c.id := fun same => own same.symm
    simp [own, other]

theorem tracked_step (loaded : Loaded) (s : System ε) (e : Event ε) (h : Tracked loaded s)
    (current : SnapshotCurrent loaded s e) : Tracked loaded (step loaded s e) := by
  cases e with
  | createConversation => exact tracked_create h
  | deleteConversation id => exact tracked_delete h id
  | respond i reply =>
    cases found : s.pending[i]? with
    | none =>
      have unmoved : step loaded s (.respond i reply) = s := by simp only [step, found]
      rw [unmoved]
      exact h
    | some request =>
      simp only [step, found]
      cases request with
      | create =>
        cases reply with
        | created c => exact tracked_created h found c
        | deleted => exact h
        | failed error =>
          refine ⟨h.distinct, tracked_kept h i, fun c => (h.members c).trans ?_⟩
          have rest := mem_deleting_eraseIdx found c.id
          simp only [Request.deletes, reduceCtorEq, false_or] at rest
          rw [rest]
          rfl
      | delete id previous =>
        cases reply with
        | created c => exact h
        | deleted => exact tracked_deleted h found
        | failed error => exact tracked_failed h found current

/-- In every run whose failed deletions have kept the list shown, once no request is in flight
the list has exactly the conversations that are present, each once. -/
theorem quiescent_exact (loaded : Loaded) (es : List (Event ε))
    (current : EveryStep (step loaded) (SnapshotCurrent loaded) (.loaded loaded) es) :
    EveryState (step loaded) (fun s => s.pending = [] → Exact loaded s) (.loaded loaded) es := by
  have start : Tracked loaded (System.loaded loaded : System ε) := by
    refine ⟨loaded.distinct, fun id previous mem => absurd mem List.not_mem_nil, fun c => ?_⟩
    simp [System.loaded, Present, deleting]
  exact everyState_imp (fun s tracked => tracked.exact)
    (everyState_of_guard (tracked_step loaded) start current)

def lecture : Conversation := ⟨"a".toList, "Lecture".toList⟩

def paper : Conversation := ⟨"b".toList, "Paper".toList⟩

def oneLoaded : Loaded := ⟨[lecture], List.nodup_singleton _⟩

/-- One after the other: the deletion has failed before the creation starts. -/
theorem exact_in_turn :
    EveryState (step oneLoaded) (fun s => s.pending = [] → Exact oneLoaded s)
      (.loaded oneLoaded : System Unit)
      [.deleteConversation lecture.id, .respond 0 (.failed ()), .createConversation,
        .respond 0 (.created paper)] := by
  apply quiescent_exact
  refine ⟨trivial, fun c => ⟨fun mem => ?_, ?_⟩, trivial, trivial, trivial⟩
  · have own : c = lecture := List.mem_singleton.mp mem
    exact .inr ⟨congrArg Conversation.id own, ⟨.inl mem, List.not_mem_nil⟩, List.not_mem_nil⟩
  · rintro (mem | ⟨-, present, -⟩)
    · exact absurd mem List.not_mem_nil
    · exact present.1.resolve_right List.not_mem_nil

/-- The creation succeeds while the deletion is in flight, which then fails and restores the
list without the new conversation. -/
theorem created_lost :
    ¬EveryState (step oneLoaded) (fun s => s.pending = [] → Exact oneLoaded s)
      (.loaded oneLoaded : System Unit)
      [.deleteConversation lecture.id, .createConversation, .respond 1 (.created paper),
        .respond 0 (.failed ())] := by
  intro law
  have present : Present oneLoaded (exec (step oneLoaded) (.loaded oneLoaded : System Unit)
      [.deleteConversation lecture.id, .createConversation, .respond 1 (.created paper),
        .respond 0 (.failed ())]) paper :=
    ⟨.inr (List.mem_singleton_self paper), List.not_mem_nil⟩
  have shown := ((law.last rfl).members paper).mpr present
  exact absurd shown (by decide)

end KnowledgeCompanion.ConversationList
