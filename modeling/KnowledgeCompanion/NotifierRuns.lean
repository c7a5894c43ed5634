import KnowledgeCompanion.ChatNotifier
import KnowledgeCompanion.DartText
import KnowledgeCompanion.GuardedRun

/-! The notifier of one conversation over time: questions, cancellations, retries, loads of the
history and the events of the answers in any order. -/

namespace KnowledgeCompanion.NotifierRuns

open ChatNotifier DartText GuardedRun

/-- A message of the history as the API returns it (`data/models/message_model.dart`). -/
structure MessageModel where
  messageID : Text
  role : Text
  content : Text
  reasoning : Text
  citations : List Citation

def messageRole (value : Text) : MessageRole :=
  if value = "assistant".toList then .assistant else .user

def MessageModel.toDomain (conversationID : Text) (m : MessageModel) : Message where
  id := m.messageID
  conversationID := conversationID
  role := messageRole m.role
  content := m.content
  reasoning := m.reasoning
  citations := m.citations

/-- The notifier with its subscription to an answer, and the loads whose answers are due. -/
structure Notifier where
  state : ChatState := {}
  subscribed : Bool := false
  loads : ℕ := 0

def loadMessages (s : Notifier) : Notifier :=
  { s with state := { s.state with isLoading := true, error := none }, loads := s.loads + 1 }

def loadCompletes (conversationID : Text) (result : Except AppException (List MessageModel))
    (s : Notifier) : Notifier :=
  { s with
    state := loaded (result.map fun models => models.map (MessageModel.toDomain conversationID))
      s.state
    loads := s.loads - 1 }

def send (conversationID text : Text) (s : Notifier) : Notifier :=
  if trim text = [] ∨ s.state.isSending = true then s
  else { s with state := sent conversationID (trim text) s.state, subscribed := true }

def retryLastQuestion (conversationID : Text) (s : Notifier) : Notifier :=
  match s.state.lastQuestion with
  | none => s
  | some question =>
    if trim question = [] ∨ s.state.isSending = true then s
    else
      send conversationID question
        { s with state := { s.state with error := none, canRetryLastQuestion := false } }

def cancel (s : Notifier) : Notifier :=
  { s with subscribed := false, state := stopStreaming none s.state }

def clearError (s : Notifier) : Notifier := { s with state := { s.state with error := none } }

/-- What the user, the repository and the subscription do; only a subscription that is still
there delivers. -/
inductive Event
  | loadMessages
  | loadCompletes (result : Except AppException (List MessageModel))
  | send (text : Text)
  | retryLastQuestion
  | cancel
  | clearError
  | event (event : ChatEvent)
  | onError
  | onDone

def step (conversationID : Text) (s : Notifier) : Event → Notifier
  | .loadMessages => loadMessages s
  | .loadCompletes result => if s.loads = 0 then s else loadCompletes conversationID result s
  | .send text => send conversationID text s
  | .retryLastQuestion => retryLastQuestion conversationID s
  | .cancel => cancel s
  | .clearError => clearError s
  | .event event => if s.subscribed then { s with state := handleEvent event s.state } else s
  | .onError =>
    if s.subscribed then { s with state := stopStreaming (some .streamDisconnected) s.state }
    else s
  | .onDone =>
    if s.subscribed then { s with subscribed := false, state := stopStreaming none s.state } else s

def created : Notifier := loadMessages {}

def answeredBy (event : ChatEvent) (m : Message) : Message :=
  let named := { m with id := if m.id = [] then event.messageID else m.id }
  match event.type with
  | .chunk => { named with content := m.content ++ event.delta.getD [] }
  | .reasoning => { named with reasoning := m.reasoning ++ event.reasoningDelta.getD [] }
  | .citation =>
    match event.citation with
    | none => m
    | some citation => withCitation citation named
  | _ => m

def isAnswer (event : ChatEvent) : Bool :=
  event.type = .chunk || event.type = .reasoning || event.type = .citation

/-- One message is being streamed, an assistant's; it takes the event and every other message
stays. -/
def AnswersOne (event : ChatEvent) (before after : List Message) : Prop :=
  (before.filter Message.isStreaming).map Message.role = [.assistant] ∧
    after = before.map fun m => if m.isStreaming then answeredBy event m else m

def AnswerTargeted (conversationID : Text) (s : Notifier) : Event → Prop
  | .event event =>
    s.subscribed = true → isAnswer event = true →
      AnswersOne event s.state.messages (step conversationID s (.event event)).state.messages
  | _ => True

instance (event : ChatEvent) (before after : List Message) :
    Decidable (AnswersOne event before after) := inferInstanceAs (Decidable (_ ∧ _))

instance (conversationID : Text) (s : Notifier) :
    (e : Event) → Decidable (AnswerTargeted conversationID s e)
  | .event _ => inferInstanceAs (Decidable (_ → _))
  | .loadCompletes _ | .loadMessages | .send _ | .retryLastQuestion | .cancel | .clearError
  | .onError | .onDone => .isTrue trivial

/-- The event names no message, or the one that is being streamed; no other answer has the id
or lacks one. -/
def NamesStreamed (event : ChatEvent) (state : ChatState) : Prop :=
  event.messageID = [] ∨ ∀ m ∈ state.messages, m.role = .assistant →
    if m.isStreaming then m.id = event.messageID ∨ m.id = []
    else m.id ≠ event.messageID ∧ m.id ≠ []

/-- No history arrives during an answer; the events of an answer come before its end and name
its message alone. -/
def Orderly (s : Notifier) : Event → Prop
  | .loadCompletes (.ok _) => s.loads ≠ 0 → s.state.isSending = false
  | .event event =>
    s.subscribed = true → isAnswer event = true →
      s.state.isSending = true ∧ NamesStreamed event s.state
  | _ => True

/-- While an answer is due the last message is being streamed, and no other message ever is. -/
structure Streams (state : ChatState) : Prop where
  idle : state.isSending = false → ∀ m ∈ state.messages, m.isStreaming = false
  sending : state.isSending = true → ∃ front m, state.messages = front ++ [m] ∧
    m.role = .assistant ∧ m.isStreaming = true ∧ ∀ x ∈ front, x.isStreaming = false

instance (event : ChatEvent) (state : ChatState) : Decidable (NamesStreamed event state) := by
  unfold NamesStreamed
  infer_instance

instance (s : Notifier) : (e : Event) → Decidable (Orderly s e)
  | .loadCompletes (.ok _) => inferInstanceAs (Decidable (_ → _))
  | .event _ => inferInstanceAs (Decidable (_ → _))
  | .loadCompletes (.error _) | .loadMessages | .send _ | .retryLastQuestion | .cancel
  | .clearError | .onError | .onDone => .isTrue trivial

theorem streams_created : Streams created.state := ⟨fun _ => nofun, nofun⟩

theorem streams_stop {state : ChatState} (error : Option AppException) (h : Streams state) :
    Streams (stopStreaming error state) := by
  unfold stopStreaming
  split
  · exact h
  · rename_i sending
    obtain ⟨front, m, messages, role, streaming, rest⟩ :=
      h.sending (Bool.of_not_eq_false sending)
    refine ⟨fun _ x mem => ?_, nofun⟩
    dsimp only at mem
    rw [messages] at mem
    obtain ⟨y, there, same⟩ := List.mem_map.mp mem
    rw [← same]
    rcases List.mem_append.mp there with old | last
    · rw [if_pos (.inr (rest y old))]
      exact rest y old
    · rw [List.mem_singleton.mp last, if_neg (by simp [role, streaming])]

theorem streams_sent {state : ChatState} (conversationID question : Text) (h : Streams state)
    (idle : state.isSending = false) : Streams (sent conversationID question state) := by
  refine ⟨nofun, fun _ => ?_⟩
  refine ⟨state.messages ++ [{ id := [], conversationID, role := .user, content := question }],
    { id := [], conversationID, role := .assistant, content := [], isStreaming := true },
    ?_, rfl, rfl, fun x mem => ?_⟩
  · rw [sent, List.append_assoc]
    rfl
  · rcases List.mem_append.mp mem with old | new
    · exact h.idle idle x old
    · rw [List.mem_singleton.mp new]

theorem streams_of_same {state state' : ChatState} (h : Streams state)
    (messages : state'.messages = state.messages) (sending : state'.isSending = state.isSending) :
    Streams state' := by
  constructor
  · rw [messages, sending]
    exact h.idle
  · rw [messages, sending]
    exact h.sending

theorem streams_loaded {state : ChatState} (conversationID : Text)
    (result : Except AppException (List MessageModel)) (h : Streams state)
    (idle : ∀ models, result = .ok models → state.isSending = false) :
    Streams (loaded (result.map fun models => models.map (MessageModel.toDomain conversationID))
      state) := by
  cases result with
  | error e => exact streams_of_same h rfl rfl
  | ok models =>
    have quiet := idle models rfl
    refine ⟨fun _ m mem => ?_, fun sending => ?_⟩
    · obtain ⟨old, there, synced⟩ := List.mem_map.mp mem
      obtain ⟨model, -, domain⟩ := List.mem_map.mp there
      rw [← synced, (withCitationMarkersSynced_keeps old).1.isStreaming, ← domain]
      rfl
    · exact absurd (quiet.symm.trans sending) Bool.false_ne_true

theorem streams_send {s : Notifier} (conversationID text : Text) (h : Streams s.state) :
    Streams (send conversationID text s).state := by
  unfold send
  split
  · exact h
  · rename_i asks
    exact streams_sent conversationID (trim text) h
      (Bool.eq_false_iff.mpr fun sending => asks (.inr sending))

theorem streams_retry {s : Notifier} (conversationID : Text) (h : Streams s.state) :
    Streams (retryLastQuestion conversationID s).state := by
  unfold retryLastQuestion
  split
  · exact h
  · split
    · exact h
    · exact streams_send conversationID _ (streams_of_same h rfl rfl)

theorem answeredBy_streaming (event : ChatEvent) (m : Message) :
    (answeredBy event m).isStreaming = m.isStreaming ∧ (answeredBy event m).role = m.role := by
  unfold answeredBy
  dsimp only
  split
  · exact ⟨rfl, rfl⟩
  · exact ⟨rfl, rfl⟩
  · split
    · exact ⟨rfl, rfl⟩
    · rename_i citation _
      have kept := (withCitationMarkersSynced_keeps { m with
        id := if m.id = [] then event.messageID else m.id
        citations := m.citations ++ [citation] }).1
      exact ⟨kept.isStreaming, kept.role⟩
  · exact ⟨rfl, rfl⟩

theorem handleEvent_messages {event : ChatEvent} {state : ChatState}
    (answer : isAnswer event = true)
    (target : ∀ m ∈ state.messages, matchesTarget m event.messageID = m.isStreaming) :
    (handleEvent event state).isSending = state.isSending ∧
      (handleEvent event state).messages =
        state.messages.map fun m => if m.isStreaming then answeredBy event m else m := by
  have updated (change : Message → Message) (same : ∀ m : Message,
      change { m with id := if m.id = [] then event.messageID else m.id } = answeredBy event m) :
      (updateTarget event change state).isSending = state.isSending ∧
        (updateTarget event change state).messages =
          state.messages.map fun m => if m.isStreaming then answeredBy event m else m := by
    refine ⟨rfl, ?_⟩
    rw [updateTarget]
    refine List.map_congr_left fun m mem => ?_
    rw [target m mem, same]
  simp only [isAnswer, Bool.or_eq_true, decide_eq_true_eq] at answer
  rcases answer with (chunk | reasoning) | citation
  · rw [handleEvent, chunk]
    exact updated _ fun m => by rw [answeredBy, chunk]
  · rw [handleEvent, reasoning]
    exact updated _ fun m => by rw [answeredBy, reasoning]
  · rw [handleEvent, citation]
    dsimp only
    unfold appendCitation
    split
    · rename_i none
      have same : (fun m : Message => if m.isStreaming then answeredBy event m else m) = id := by
        funext m
        rw [answeredBy, citation, none]
        exact ite_self m
      rw [same, List.map_id]
      exact ⟨rfl, rfl⟩
    · rename_i data some
      exact updated _ fun m => by rw [answeredBy, citation, some]

theorem matchesTarget_eq_isStreaming {event : ChatEvent} {state : ChatState} (h : Streams state)
    (sending : state.isSending = true) (named : NamesStreamed event state) :
    ∀ m ∈ state.messages, matchesTarget m event.messageID = m.isStreaming := by
  intro m mem
  obtain ⟨front, last, messages, role, streaming, rest⟩ := h.sending sending
  have user (other : m.role ≠ .assistant) : m.isStreaming = false := by
    rw [messages] at mem
    rcases List.mem_append.mp mem with old | new
    · exact rest m old
    · rw [List.mem_singleton.mp new] at other
      exact absurd role other
  unfold matchesTarget
  by_cases answer : m.role = .assistant
  · rw [if_neg (not_not_intro answer)]
    by_cases blank : event.messageID = []
    · rw [if_neg (not_not_intro blank)]
    · have names := named.resolve_left blank m mem answer
      rw [if_pos blank]
      cases streamed : m.isStreaming with
      | true =>
        rw [streamed, if_pos rfl] at names
        rwa [Bool.or_eq_true, decide_eq_true_eq, decide_eq_true_eq]
      | false =>
        rw [streamed, if_neg Bool.false_ne_true] at names
        rw [decide_eq_false names.1, decide_eq_false names.2]
        rfl
  · rw [if_pos answer, user answer]

theorem streams_answered {event : ChatEvent} {state state' : ChatState} (h : Streams state)
    (sending : state.isSending = true) (same : state'.isSending = state.isSending)
    (messages : state'.messages =
      state.messages.map fun m => if m.isStreaming then answeredBy event m else m) :
    Streams state' := by
  obtain ⟨front, last, list, role, streaming, rest⟩ := h.sending sending
  refine ⟨fun idle => ?_, fun _ => ?_⟩
  · rw [same, sending] at idle
    exact absurd idle.symm Bool.false_ne_true
  · refine ⟨front, answeredBy event last, ?_, ?_, ?_, rest⟩
    · have front_same : front.map (fun m => if m.isStreaming then answeredBy event m else m) =
          front := by
        refine (List.map_congr_left fun x old => ?_).trans (List.map_id front)
        rw [rest x old]
        rfl
      rw [messages, list, List.map_append, front_same, List.map_singleton, streaming]
      rfl
    · rw [(answeredBy_streaming event last).2, role]
    · rw [(answeredBy_streaming event last).1, streaming]

theorem streams_handleEvent {event : ChatEvent} {state : ChatState} (h : Streams state)
    (named : isAnswer event = true → state.isSending = true ∧ NamesStreamed event state) :
    Streams (handleEvent event state) := by
  by_cases answer : isAnswer event = true
  · obtain ⟨sending, names⟩ := named answer
    obtain ⟨same, messages⟩ :=
      handleEvent_messages answer (matchesTarget_eq_isStreaming h sending names)
    exact streams_answered h sending same messages
  · simp only [isAnswer, Bool.or_eq_true, decide_eq_true_eq, not_or] at answer
    unfold handleEvent
    split
    · rename_i chunk
      exact absurd chunk answer.1.1
    · rename_i reasoning
      exact absurd reasoning answer.1.2
    · rename_i citation
      exact absurd citation answer.2
    · exact streams_stop none h
    · split
      · exact streams_stop _ h
      · exact streams_stop _ h
    · exact h

theorem streams_step {s : Notifier} (conversationID : Text) (e : Event) (h : Streams s.state)
    (orderly : Orderly s e) : Streams (step conversationID s e).state := by
  cases e with
  | loadMessages => exact streams_of_same h rfl rfl
  | loadCompletes result =>
    rw [step]
    split
    · exact h
    · rename_i due
      refine streams_loaded conversationID result h fun models ok => ?_
      subst ok
      exact orderly due
  | send text => exact streams_send conversationID text h
  | retryLastQuestion => exact streams_retry conversationID h
  | cancel => exact streams_stop none h
  | clearError => exact streams_of_same h rfl rfl
  | event event =>
    rw [step]
    split
    · rename_i subscribed
      exact streams_handleEvent h (orderly subscribed)
    · exact h
  | onError =>
    rw [step]
    split
    · exact streams_stop _ h
    · exact h
  | onDone =>
    rw [step]
    split
    · exact streams_stop none h
    · exact h

theorem streamed_alone {state : ChatState} (h : Streams state) (sending : state.isSending = true) :
    (state.messages.filter Message.isStreaming).map Message.role = [.assistant] := by
  obtain ⟨front, last, messages, role, streaming, rest⟩ := h.sending sending
  have none : front.filter Message.isStreaming = [] :=
    List.filter_eq_nil_iff.mpr fun x old => by rw [rest x old]; exact Bool.false_ne_true
  rw [messages, List.filter_append, none, List.nil_append, List.filter_cons_of_pos streaming,
    List.filter_nil, List.map_singleton, role]

theorem answers_one {s : Notifier} (conversationID : Text) (event : ChatEvent)
    (h : Streams s.state) (subscribed : s.subscribed = true) (answer : isAnswer event = true)
    (sending : s.state.isSending = true) (named : NamesStreamed event s.state) :
    AnswersOne event s.state.messages (step conversationID s (.event event)).state.messages := by
  have moved : (step conversationID s (.event event)).state = handleEvent event s.state := by
    rw [step, if_pos subscribed]
  refine ⟨streamed_alone h sending, ?_⟩
  rw [moved]
  exact (handleEvent_messages answer (matchesTarget_eq_isStreaming h sending named)).2

/-- In every orderly run each event of an answer changes the one message that is being
streamed and leaves the others alone. -/
theorem answers_streamed_message (conversationID : Text) (es : List Event)
    (orderly : EveryStep (step conversationID) Orderly created es) :
    EveryStep (step conversationID) (AnswerTargeted conversationID) created es := by
  have keeps (s : Notifier) (e : Event) (h : Streams s.state) (ok : Orderly s e) :
      Streams (step conversationID s e).state := streams_step conversationID e h ok
  refine everyStep_of_guard keeps (fun s e h ok => ?_) streams_created orderly
  cases e with
  | event event =>
    intro subscribed answer
    obtain ⟨sending, named⟩ := ok subscribed answer
    exact answers_one conversationID event h subscribed answer sending named
  | loadMessages | loadCompletes | send | retryLastQuestion | cancel | clearError | onError
  | onDone => trivial

def secondQuestion : List Event :=
  [.loadCompletes (.ok []), .send "q".toList,
    .event { type := .chunk, messageID := "m1".toList, delta := some "a".toList },
    .event { type := .done, messageID := "m1".toList }, .onDone, .send " r".toList,
    .event { type := .reasoning, messageID := "m2".toList, reasoningDelta := some "b".toList },
    .event { type := .chunk, messageID := "m2".toList, delta := some "c".toList }]

theorem answers_streamed_message_second :
    EveryStep (step "c".toList) (AnswerTargeted "c".toList) created secondQuestion :=
  answers_streamed_message "c".toList secondQuestion (by decide +kernel)

/-- A question is cancelled before the first event names its answer; the first event of the
next one changes both. -/
theorem cancelled_answer_takes_event :
    ¬ ∀ es, EveryStep (step "c".toList) (AnswerTargeted "c".toList) created es := by
  intro all
  have run := all [.loadCompletes (.ok []), .send "q".toList, .cancel, .send "r".toList,
    .event { type := .chunk, messageID := "m".toList, delta := some "a".toList }]
  exact absurd run (by decide +kernel)

end KnowledgeCompanion.NotifierRuns
