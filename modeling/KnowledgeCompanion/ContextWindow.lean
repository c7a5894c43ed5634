import KnowledgeCompanion.BudgetedPrefix
import KnowledgeCompanion.MessageRecords

/-! The context window of a question (`service/context_window_service.go`): the
history that goes to the AI service with the question, within a message count and
a token budget. The window a conversation should have is its longest suffix within
both; the query limits the conversation from its other end. -/

namespace KnowledgeCompanion.ContextWindow

open BudgetedPrefix KeyedTable MessageRecords

structure ChatMessage where
  role : Text
  content : Text
  reasoning : Text
  citations : Option Text
deriving DecidableEq

structure ContextWindowService where
  maxContextMessages : ℕ
  maxContextTokens : ℕ
  messages_pos : 0 < maxContextMessages
  tokens_pos : 0 < maxContextTokens

def newContextWindowService (maxContextMessages maxContextTokens : ℤ) : ContextWindowService where
  maxContextMessages := if maxContextMessages ≤ 0 then 20 else maxContextMessages.toNat
  maxContextTokens := if maxContextTokens ≤ 0 then 4096 else maxContextTokens.toNat
  messages_pos := by split <;> omega
  tokens_pos := by split <;> omega

def estimateTokens (content : Text) : ℕ := (content.length + 1) / 2

def toChatMessage (m : Message) : ChatMessage := ⟨m.role, m.content, m.reasoning, m.citations⟩

def mapMessagesToHistory (messages : List Message) : List ChatMessage :=
  messages.map toChatMessage

def selectMessages (maxContextTokens : ℕ) : List Message → ℕ → List Message → List Message
  | [], _, selected => selected
  | m :: older, total, selected =>
    let tokens := estimateTokens m.content
    if maxContextTokens < total + tokens then selected
    else selectMessages maxContextTokens older (total + tokens) (m :: selected)

def buildMessages (svc : ContextWindowService) (db : Messages) (fault : Option String)
    (conversationID : ℕ) (question : Text) : Except String (List ChatMessage) :=
  match listByConversationID db fault conversationID svc.maxContextMessages with
  | .error cause => .error ("failed to load context messages: " ++ cause)
  | .ok messages =>
    .ok (mapMessagesToHistory
      (selectMessages svc.maxContextTokens messages.reverse (estimateTokens question) []))

def history (db : Messages) (conversationID : ℕ) : List ChatMessage :=
  mapMessagesToHistory (conversationMessages db conversationID)

def messageTokens (m : ChatMessage) : ℕ := estimateTokens m.content

/-- The estimated tokens of the question and the messages fit in the budget. -/
def FitsBudget (svc : ContextWindowService) (question : Text) (messages : List ChatMessage) :
    Prop :=
  Fits messageTokens svc.maxContextTokens (estimateTokens question) messages

instance (svc : ContextWindowService) (question : Text) (messages : List ChatMessage) :
    Decidable (FitsBudget svc question messages) :=
  inferInstanceAs (Decidable (Fits _ _ _ _))

/-- The longest suffix within the count and the budget. A question that exceeds the
budget by itself has the empty window. -/
structure IsWindow (svc : ContextWindowService) (question : Text)
    (history window : List ChatMessage) : Prop where
  isSuffix : window <:+ history
  count : window.length ≤ svc.maxContextMessages
  fits : window ≠ [] → FitsBudget svc question window
  longest : ∀ other, other <:+ history → other.length ≤ svc.maxContextMessages →
    FitsBudget svc question other → other.length ≤ window.length

theorem fitsBudget_reverse {svc : ContextWindowService} {question : Text}
    {messages : List ChatMessage} :
    FitsBudget svc question messages.reverse ↔ FitsBudget svc question messages := by
  simp only [FitsBudget, Fits, List.map_reverse, List.sum_reverse]

theorem suffix_iff {α : Type*} {xs ys : List α} {k : ℕ} :
    ys <:+ xs ∧ ys.length ≤ k ↔ ys.reverse <+: xs.reverse.take k := by
  rw [List.prefix_take_iff, List.reverse_prefix, List.length_reverse]

theorem isWindow_iff {svc : ContextWindowService} {question : Text}
    {history window : List ChatMessage} :
    IsWindow svc question history window ↔
      IsLongest messageTokens svc.maxContextTokens (estimateTokens question)
        (history.reverse.take svc.maxContextMessages) window.reverse := by
  constructor
  · intro h
    refine ⟨suffix_iff.mp ⟨h.isSuffix, h.count⟩, ?_, ?_⟩
    · intro some
      exact fitsBudget_reverse.mpr (h.fits (by simpa using some))
    · intro zs isPrefix fits
      have other : zs.reverse <:+ history ∧ zs.reverse.length ≤ svc.maxContextMessages := by
        apply suffix_iff.mpr
        rw [List.reverse_reverse]
        exact isPrefix
      have short := h.longest zs.reverse other.1 other.2 (fitsBudget_reverse.mpr fits)
      simpa using short
  · intro h
    have suffix := suffix_iff.mpr h.isPrefix
    refine ⟨suffix.1, suffix.2, ?_, ?_⟩
    · intro some
      exact fitsBudget_reverse.mp (h.fits (by simpa using some))
    · intro other isSuffix count fits
      have short := h.longest other.reverse (suffix_iff.mp ⟨isSuffix, count⟩)
        (fitsBudget_reverse.mpr fits)
      simpa using short

theorem selectMessages_map (budget : ℕ) (messages : List Message) (total : ℕ)
    (selected : List Message) :
    mapMessagesToHistory (selectMessages budget messages total selected) =
      (keepWithin messageTokens budget total (mapMessagesToHistory messages)).reverse ++
        mapMessagesToHistory selected := by
  induction messages generalizing total selected with
  | nil => rfl
  | cons m older ih =>
    have cost : messageTokens (toChatMessage m) = estimateTokens m.content := rfl
    simp only [selectMessages, mapMessagesToHistory, List.map_cons, keepWithin, cost]
    by_cases beyond : budget < total + estimateTokens m.content
    · simp [beyond]
    · simp only [beyond, if_false]
      have rest := ih (total + estimateTokens m.content) (m :: selected)
      simp only [mapMessagesToHistory, List.map_cons] at rest
      rw [rest]
      simp

theorem mem_selectMessages {budget : ℕ} {messages : List Message} {total : ℕ}
    {selected : List Message} {m : Message}
    (mem : m ∈ selectMessages budget messages total selected) : m ∈ messages ∨ m ∈ selected := by
  induction messages generalizing total selected with
  | nil => exact .inr mem
  | cons newest older ih =>
    unfold selectMessages at mem
    dsimp only at mem
    split at mem
    · exact .inr mem
    · rcases ih mem with old | picked
      · exact .inl (List.mem_cons_of_mem _ old)
      · rcases List.mem_cons.mp picked with rfl | picked
        · exact .inl List.mem_cons_self
        · exact .inr picked

theorem mem_buildMessages {svc : ContextWindowService} {db : Messages} {fault : Option String}
    {conversationID : ℕ} {question : Text} {window : List ChatMessage} {c : ChatMessage}
    (built : buildMessages svc db fault conversationID question = .ok window) (mem : c ∈ window) :
    ∃ m ∈ db.rows, c = toChatMessage m := by
  cases fault with
  | some cause => simp [buildMessages, listByConversationID] at built
  | none =>
    simp only [buildMessages, listByConversationID, Except.ok.injEq] at built
    rw [← built, mapMessagesToHistory, List.mem_map] at mem
    obtain ⟨m, selected, rfl⟩ := mem
    have listed : m ∈ conversationMessages db conversationID := by
      rcases mem_selectMessages selected with found | found
      · exact List.mem_of_mem_take (List.mem_reverse.mp found)
      · exact absurd found List.not_mem_nil
    exact ⟨m, (mem_conversationMessages.mp listed).1, rfl⟩

theorem listLimit_max (svc : ContextWindowService) :
    listLimit svc.maxContextMessages = svc.maxContextMessages := by
  have positive := svc.messages_pos
  unfold listLimit
  rw [if_neg (by omega), Int.toNat_natCast]

def oldest (svc : ContextWindowService) (history : List ChatMessage) : List ChatMessage :=
  (history.take svc.maxContextMessages).reverse

theorem buildMessages_ok (svc : ContextWindowService) (db : Messages) (conversationID : ℕ)
    (question : Text) :
    buildMessages svc db none conversationID question =
      .ok (keepWithin messageTokens svc.maxContextTokens (estimateTokens question)
        (oldest svc (history db conversationID))).reverse := by
  have selected := selectMessages_map svc.maxContextTokens
    ((conversationMessages db conversationID).take svc.maxContextMessages).reverse
    (estimateTokens question) []
  simp only [buildMessages, listByConversationID, listLimit_max, selected]
  simp [mapMessagesToHistory, oldest, history, List.map_take]

/-- The query and the window agree: the conversation is within the count, or the
messages up to some point read the same from the last one the query returns as from
the last one of the conversation, and there the count is reached or one message more
exceeds the budget on both sides. -/
def WindowsAgree (svc : ContextWindowService) (question : Text) (history : List ChatMessage) :
    Prop :=
  history.length ≤ svc.maxContextMessages ∨
  ∃ k ≤ svc.maxContextMessages,
    (oldest svc history).take k = history.reverse.take k ∧
    (k = svc.maxContextMessages ∨
      ¬ FitsBudget svc question ((oldest svc history).take (k + 1)) ∧
      ¬ FitsBudget svc question (history.reverse.take (k + 1)))

theorem windowsAgree_iff (svc : ContextWindowService) (question : Text)
    (history : List ChatMessage) :
    keepWithin messageTokens svc.maxContextTokens (estimateTokens question)
        (oldest svc history) =
      keepWithin messageTokens svc.maxContextTokens (estimateTokens question)
        (history.reverse.take svc.maxContextMessages) ↔
    WindowsAgree svc question history := by
  by_cases short : history.length ≤ svc.maxContextMessages
  · refine iff_of_true ?_ (.inl short)
    rw [oldest, List.take_of_length_le short, List.take_of_length_le (by simpa using short)]
  · have count : (oldest svc history).length = svc.maxContextMessages := by
      rw [oldest, List.length_reverse, List.length_take]
      omega
    have length : (oldest svc history).length =
        (history.reverse.take svc.maxContextMessages).length := by
      rw [count, List.length_take, List.length_reverse]
      omega
    rw [keepWithin_eq_iff length, WindowsAgree, or_iff_right short, count]
    apply exists_congr
    intro k
    apply and_congr_right
    intro within
    rw [List.take_take, Nat.min_eq_left within]
    by_cases all : k = svc.maxContextMessages
    · simp only [all, true_or]
    · rw [List.take_take, Nat.min_eq_left (by omega)]
      exact Iff.rfl

/-- The service returns the window of the conversation exactly when the messages that
the query leaves out make no difference. -/
theorem buildMessages_window_iff (svc : ContextWindowService) (db : Messages)
    (conversationID : ℕ) (question : Text) :
    (∃ window, buildMessages svc db none conversationID question = .ok window ∧
        IsWindow svc question (history db conversationID) window) ↔
      WindowsAgree svc question (history db conversationID) := by
  rw [← windowsAgree_iff, buildMessages_ok]
  simp only [Except.ok.injEq, exists_eq_left', isWindow_iff, isLongest_iff, List.reverse_reverse]

def said (role content : String) (createdAt : ℤ) (id : ℕ) : Message where
  id := id
  uuid := []
  conversationID := 1
  parentMessageID := none
  role := role.toList
  content := content.toList
  reasoning := []
  citations := none
  tokenUsage := 0
  model := []
  createdAt := createdAt

def oneTurn : Messages :=
  (Table.empty.insert (said "user" "why?" 1) fun _ => rfl).insert (said "assistant" "because" 2)
    fun _ => rfl

/-- With room for one message the service returns the first one, not the last. -/
theorem oldest_message_returned :
    ¬ ∃ window, buildMessages (newContextWindowService 1 4096) oneTurn none 1 "and?".toList =
        .ok window ∧
      IsWindow (newContextWindowService 1 4096) "and?".toList (history oneTurn 1) window := by
  intro returned
  obtain ⟨window, built, isWindow⟩ := returned
  have first : window = [⟨"user".toList, "why?".toList, [], none⟩] :=
    (Except.ok.inj built).symm
  have suffix := isWindow.isSuffix
  rw [first] at suffix
  revert suffix
  decide

end KnowledgeCompanion.ContextWindow
