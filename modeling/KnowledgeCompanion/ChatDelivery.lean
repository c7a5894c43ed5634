import KnowledgeCompanion.ChatSseClient

/-! What one `ask()` of the native client leaves behind: the user messages that its
requests store, and the answer that the notifier shows as done. -/

namespace KnowledgeCompanion.ChatDelivery

open AiClient ChatNotifier ChatSseClient GuardedRun JsonText QaService QaStream

def events (cfg : AskConfig) (sent : List SSEEvent) : List ChatEvent :=
  sent.filterMap (decode cfg)

def absorb (m : ChatNotifier.Message) (event : ChatEvent) : ChatNotifier.Message :=
  match event.type with
  | .chunk => { m with content := m.content ++ event.delta.getD [] }
  | .reasoning => { m with reasoning := m.reasoning ++ event.reasoningDelta.getD [] }
  | .citation =>
    match event.citation with
    | none => m
    | some citation => withCitation citation m
  | _ => m

def blank : ChatNotifier.Message :=
  { id := [], conversationID := [], role := .assistant, content := [] }

def shownBy (cfg : AskConfig) (sent : List SSEEvent) : ChatNotifier.Message :=
  (events cfg sent).foldl absorb blank

/-- The parts that the events of a stream fill. -/
structure Alike (m m' : ChatNotifier.Message) : Prop where
  content : m.content = m'.content
  reasoning : m.reasoning = m'.reasoning
  citations : m.citations = m'.citations

theorem Alike.refl (m : ChatNotifier.Message) : Alike m m := ⟨rfl, rfl, rfl⟩

theorem Alike.trans {a b c : ChatNotifier.Message} (first : Alike a b) (second : Alike b c) :
    Alike a c :=
  ⟨first.content.trans second.content, first.reasoning.trans second.reasoning,
    first.citations.trans second.citations⟩

theorem withCitationMarkersSynced_alike {m m' : ChatNotifier.Message} (h : Alike m m') :
    Alike (withCitationMarkersSynced m) (withCitationMarkersSynced m') := by
  unfold withCitationMarkersSynced
  rw [h.citations]
  split
  · exact h
  · split
    · exact h
    · refine ⟨?_, ?_, rfl⟩
      · dsimp only
        rw [h.content]
      · dsimp only
        rw [h.reasoning]

theorem absorb_alike {m m' : ChatNotifier.Message} (event : ChatEvent) (h : Alike m m') :
    Alike (absorb m event) (absorb m' event) := by
  unfold absorb
  cases event.type with
  | chunk => exact ⟨by dsimp only; rw [h.content], h.reasoning, h.citations⟩
  | reasoning => exact ⟨h.content, by dsimp only; rw [h.reasoning], h.citations⟩
  | citation =>
    cases event.citation with
    | none => exact h
    | some citation =>
      refine withCitationMarkersSynced_alike ⟨h.content, h.reasoning, ?_⟩
      dsimp only
      rw [h.citations]
  | done => exact h
  | error => exact h
  | other name => exact h

theorem shownBy_concat (cfg : AskConfig) (sent : List SSEEvent) (ev : SSEEvent) :
    shownBy cfg (sent ++ [ev]) =
      match decode cfg ev with
      | none => shownBy cfg sent
      | some event => absorb (shownBy cfg sent) event := by
  rw [shownBy, events, List.filterMap_append, List.foldl_append]
  cases parsed : decode cfg ev with
  | none =>
    rw [List.filterMap_cons_none parsed]
    rfl
  | some event =>
    rw [List.filterMap_cons_some parsed]
    rfl

theorem updateTarget_last {event : ChatEvent} {change : ChatNotifier.Message → ChatNotifier.Message}
    {chat : ChatState} {m : ChatNotifier.Message} (last : chat.messages.getLast? = some m)
    (target : matchesTarget m event.messageID = true) :
    (updateTarget event change chat).messages.getLast? =
      some (change { m with id := if m.id = [] then event.messageID else m.id }) := by
  rw [updateTarget, List.getLast?_map, last, Option.map_some, if_pos target]

/-- An event that does not end the answer is absorbed by the message it is for. -/
theorem handleEvent_last {event : ChatEvent} {chat : ChatState} {m : ChatNotifier.Message}
    (last : chat.messages.getLast? = some m) (target : matchesTarget m event.messageID = true)
    (more : event.isTerminal = false) :
    (handleEvent event chat).isSending = chat.isSending ∧
      ∃ m', (handleEvent event chat).messages.getLast? = some m' ∧ Alike m' (absorb m event) ∧
        Keeps m m' ∧ (m'.id = m.id ∨ m'.id = event.messageID) := by
  have named : (if m.id = [] then event.messageID else m.id) = m.id ∨
      (if m.id = [] then event.messageID else m.id) = event.messageID := by
    by_cases empty : m.id = []
    · rw [if_pos empty]
      exact .inr rfl
    · rw [if_neg empty]
      exact .inl rfl
  cases kind : event.type with
  | chunk =>
    simp only [handleEvent, kind]
    refine ⟨rfl, _, updateTarget_last last target, ?_, ⟨rfl, rfl⟩, named⟩
    rw [absorb, kind]
    exact ⟨rfl, rfl, rfl⟩
  | reasoning =>
    simp only [handleEvent, kind]
    refine ⟨rfl, _, updateTarget_last last target, ?_, ⟨rfl, rfl⟩, named⟩
    rw [absorb, kind]
    exact ⟨rfl, rfl, rfl⟩
  | citation =>
    simp only [handleEvent, kind, appendCitation, absorb]
    cases event.citation with
    | none => exact ⟨rfl, m, last, Alike.refl m, ⟨rfl, rfl⟩, .inl rfl⟩
    | some citation =>
      refine ⟨rfl, _, updateTarget_last last target, ?_, ?_, ?_⟩
      · exact withCitationMarkersSynced_alike ⟨rfl, rfl, rfl⟩
      · have kept := (withCitationMarkersSynced_keeps { m with
          id := if m.id = [] then event.messageID else m.id
          citations := m.citations ++ [citation] }).1
        exact ⟨kept.role, kept.isStreaming⟩
      · rw [withCitation, (withCitationMarkersSynced_keeps _).2]
        exact named
  | done => simp [ChatEvent.isTerminal, kind] at more
  | error => simp [ChatEvent.isTerminal, kind] at more
  | other name =>
    have same : handleEvent event chat = chat := by simp only [handleEvent, kind]
    rw [same, absorb, kind]
    exact ⟨rfl, m, last, Alike.refl m, ⟨rfl, rfl⟩, .inl rfl⟩

theorem stopStreaming_last (error : Option AppException) {chat : ChatState}
    {m : ChatNotifier.Message} (last : chat.messages.getLast? = some m) :
    ∃ m', (stopStreaming error chat).messages.getLast? = some m' ∧ Alike m' m := by
  unfold stopStreaming
  split
  · exact ⟨m, last, Alike.refl m⟩
  · refine ⟨_, by rw [List.getLast?_map, last, Option.map_some], ?_⟩
    split
    · exact Alike.refl m
    · exact ⟨rfl, rfl, rfl⟩

theorem stopStreaming_fields (error : Option AppException) {chat : ChatState}
    (sending : chat.isSending = true) :
    (stopStreaming error chat).isSending = false ∧ (stopStreaming error chat).error = error := by
  have still : ¬ chat.isSending = false := by rw [sending]; exact Bool.noConfusion
  rw [stopStreaming, if_neg still]
  exact ⟨rfl, rfl⟩

theorem stopStreaming_again (error : Option AppException) {chat : ChatState}
    (stopped : chat.isSending = false) : stopStreaming error chat = chat := by
  rw [stopStreaming, if_pos stopped]

theorem decode_built {cfg : AskConfig} {ev : SSEEvent} {event : ChatEvent}
    (decoded : decode cfg ev = some event) :
    event.type = eventTypeOf ev.event ∧ ∃ json delta, unmarshal ev.data = some (.object json) ∧
      stringMember json "delta" = some delta ∧
        event.delta = if eventTypeOf ev.event = .reasoning then none else delta := by
  unfold decode parseEventData at decoded
  split at decoded
  · cases decoded
  · split at decoded
    · rename_i json parsed
      simp only [buildEvent, Option.bind_eq_bind, Option.bind_eq_some_iff] at decoded
      obtain ⟨_, -, _, -, _, -, delta, found, _, -, _, -, _, -, _, -, _, -, _, -, same⟩ := decoded
      rw [← Option.some.inj same]
      exact ⟨rfl, json, delta, parsed, found, rfl⟩
    · cases decoded

theorem decode_type {cfg : AskConfig} {ev : SSEEvent} {event : ChatEvent}
    (decoded : decode cfg ev = some event) : event.type = eventTypeOf ev.event :=
  (decode_built decoded).1

theorem decode_delta {cfg : AskConfig} {ev : SSEEvent} {event : ChatEvent}
    (decoded : decode cfg ev = some event) (kind : event.type = .chunk) :
    event.delta.getD [] = extractString ev.data "delta".toList := by
  obtain ⟨type, json, delta, parsed, found, shown⟩ := decode_built decoded
  have chunk : eventTypeOf ev.event ≠ .reasoning := by
    rw [← type, kind]
    exact nofun
  rw [shown, if_neg chunk, extractString, unmarshalMap, parsed]
  dsimp only
  unfold stringMember at found
  split at found
  · rename_i none
    rw [none, ← Option.some.inj found]
    rfl
  · rename_i null
    rw [null, ← Option.some.inj found]
    rfl
  · rename_i text string
    rw [string, ← Option.some.inj found]
    rfl
  · cases found

theorem eventTypeOf_chunk {name : Text} : eventTypeOf name = .chunk ↔ name = "chunk".toList := by
  unfold eventTypeOf
  constructor
  · intro kind
    by_contra other
    rw [if_neg other] at kind
    repeat' split at kind
    all_goals cases kind
  · intro same
    rw [if_pos same]

theorem terminal_of_decode {cfg : AskConfig} {ev : SSEEvent} {event : ChatEvent}
    (decoded : decode cfg ev = some event) (terminal : event.isTerminal = true) :
    QaStream.isTerminal ev = true := by
  have type := decode_type decoded
  simp only [ChatEvent.isTerminal, type, Bool.or_eq_true, decide_eq_true_eq] at terminal
  simp only [QaStream.isTerminal, Bool.or_eq_true, beq_iff_eq]
  by_contra none
  rw [not_or] at none
  unfold eventTypeOf at terminal
  rw [if_neg none.1, if_neg none.2] at terminal
  repeat' split at terminal
  all_goals simp at terminal

theorem answerOf_concat (sent : List SSEEvent) (ev : SSEEvent) :
    answerOf (sent ++ [ev]) =
      if isChunk ev then answerOf sent ++ extractString ev.data "delta".toList
      else answerOf sent := by
  have both := congrArg Accumulated.answer (accumulatedOf_append sent ev)
  simp only [accumulatedOf, accumulate] at both
  rw [both]
  split
  · rfl
  · split
    · rfl
    · split
      · split <;> rfl
      · rfl

/-- An event whose text the client can take for the message `uuid`: it names this message or
none, or it carries no text. -/
def legible (cfg : AskConfig) (uuid : Text) (ev : SSEEvent) : Bool :=
  match decode cfg ev with
  | none => !isChunk ev || (extractString ev.data "delta".toList).isEmpty
  | some event => event.isTerminal || event.messageID == uuid || event.messageID.isEmpty

/-- Without renumbered citations the content is the concatenation of the deltas. -/
theorem content_plain {cfg : AskConfig} {uuid : Text} {sent : List SSEEvent}
    (legibles : ∀ ev ∈ sent, legible cfg uuid ev = true)
    (plain : ∀ event ∈ events cfg sent, ∀ c ∈ event.citation, markerEntry c = none) :
    (shownBy cfg sent).content = answerOf sent ∧
      (shownBy cfg sent).citations.filterMap markerEntry = [] := by
  induction sent using List.reverseRecOn with
  | nil => exact ⟨rfl, rfl⟩
  | append_singleton sent ev ih =>
    have before : ∀ event ∈ events cfg sent, ∀ c ∈ event.citation, markerEntry c = none := by
      intro e mem
      refine plain e ?_
      rw [events, List.filterMap_append]
      exact List.mem_append_left _ mem
    obtain ⟨content, citations⟩ := ih (fun e mem => legibles e (List.mem_append_left _ mem)) before
    have last : legible cfg uuid ev = true := legibles ev (by simp)
    rw [shownBy_concat, answerOf_concat]
    cases found : decode cfg ev with
    | none =>
      dsimp only
      simp only [legible, found, Bool.or_eq_true, Bool.not_eq_true', List.isEmpty_iff] at last
      refine ⟨?_, citations⟩
      rcases last with silent | empty
      · rw [if_neg (by rw [silent]; exact Bool.noConfusion)]
        exact content
      · rw [empty, List.append_nil, ite_self]
        exact content
    | some event =>
      have here : event ∈ events cfg (sent ++ [ev]) :=
        List.mem_filterMap.mpr ⟨ev, by simp, found⟩
      have type := decode_type found
      dsimp only
      by_cases chunk : event.type = .chunk
      · have name : isChunk ev = true := by
          rw [type, eventTypeOf_chunk] at chunk
          rw [isChunk, chunk, beq_self_eq_true]
        rw [if_pos name, ← content, ← decode_delta found chunk, absorb, chunk]
        exact ⟨rfl, citations⟩
      · have name : ¬ isChunk ev = true := by
          rw [type, eventTypeOf_chunk] at chunk
          rwa [isChunk, beq_iff_eq]
        rw [if_neg name, ← content]
        unfold absorb
        split
        · rename_i kind
          exact absurd kind chunk
        · exact ⟨rfl, citations⟩
        · split
          · exact ⟨rfl, citations⟩
          · rename_i citation some
            have none : markerEntry citation = none := plain event here citation some
            have empty :
                ((shownBy cfg sent).citations ++ [citation]).filterMap markerEntry = [] := by
              rw [List.filterMap_append, citations, List.filterMap_cons_none none]
              rfl
            have same : withCitation citation (shownBy cfg sent) = { shownBy cfg sent with
                citations := (shownBy cfg sent).citations ++ [citation] } := by
              rw [withCitation, withCitationMarkersSynced]
              dsimp only
              rw [if_neg (by simp), if_pos empty]
            rw [same]
            exact ⟨rfl, empty⟩
        · exact ⟨rfl, citations⟩

/-- The message shows what one stream has forwarded, its deltas one after the other where no
citation renumbers them. -/
structure Answers (cfg : AskConfig) (sent : List SSEEvent) (m : ChatNotifier.Message) : Prop where
  shown : m.content = (shownBy cfg sent).content
  plain : (∀ event ∈ events cfg sent, ∀ c ∈ event.citation, markerEntry c = none) →
    m.content = answerOf sent

theorem answers_of_alike {cfg : AskConfig} {uuid : Text} {sent : List SSEEvent}
    {m : ChatNotifier.Message} (legibles : ∀ ev ∈ sent, legible cfg uuid ev = true)
    (alike : Alike m (shownBy cfg sent)) : Answers cfg sent m where
  shown := alike.content
  plain citations := by rw [alike.content, (content_plain legibles citations).1]

/-- The message shows an ended stream or a saved answer of the questions `asked`. -/
def Answered (cfg : AskConfig) (server : Server) (asked : List ℕ) (m : ChatNotifier.Message) :
    Prop :=
  (∃ o ∈ server.streams, o.turn.userMessageID ∈ asked ∧ o.stream.phase = .finished ∧
    Answers cfg o.stream.out.sent m) ∨
  ∃ row ∈ server.messages.rows, row.role = "assistant".toList ∧
    row.parentMessageID ∈ asked.map some ∧ m.content = row.content

/-- One user message at most is stored, and an answer that is shown as done is the answer to
it. -/
structure AnsweredOnce (cfg : AskConfig) (s : System) : Prop where
  once : s.asked.length ≤ 1
  answer : s.chat.isSending = false → s.chat.error = none →
    ∃ m, s.chat.messages.getLast? = some m ∧ Answered cfg s.server s.asked m

def answerRow (cfg : AskConfig) (s : Server) : Option MessageRecords.Message :=
  match Conversations.getByUUIDAndUserID s.conversations none cfg.conversationUUID cfg.userID with
  | .error _ => none
  | .ok conversation =>
    ((MessageRecords.conversationMessages s.messages conversation.id).take 20).reverse.find?
      fun m => m.role == "assistant".toList

/-- A request reaches the gateway only while no question is stored, a stream that breaks ends
for the client only when all of it has been read, and polling finds the answer to the question
while nothing is shown; the events of the stream are legible. -/
def undisturbed (cfg : AskConfig) (s : System) : ChatSseClient.Event → Bool
  | .server (.stream j (.arrive ev) _) =>
    s.server.streams[j]?.all fun o =>
      !s.asked.contains o.turn.userMessageID || legible cfg o.turn.assistantMsgUUID ev
  | .reach i _ =>
    match s.runs[i]? with
    | some (.starting _) => s.asked.isEmpty
    | _ => true
  | .finish i =>
    match s.runs[i]? with
    | some (.listening _ stream read true) => s.closed || complete s.server stream read
    | _ => true
  | .poll i =>
    match s.runs[i]? with
    | some .polling =>
      s.closed || (answerRow cfg s.server).all fun row =>
        (s.asked.map some).contains row.parentMessageID &&
          s.chat.messages.getLast?.all fun m => m.content.isEmpty
    | _ => true
  | _ => true

theorem polled_row {cfg : AskConfig} {s : Server} {m : PolledMessage}
    (found : polled cfg s = some m) :
    m.id = [] ∧ m.isStreaming = false ∧ ∃ row, answerRow cfg s = some row ∧
      row ∈ s.messages.rows ∧ row.role = "assistant".toList ∧ m.content = row.content := by
  have assistant (row : MessageRecords.Message) :
      isAssistant (mapMessage row) = (row.role == "assistant".toList) := by
    have read : stringMember (mapMessage row) "role" = some (some row.role) := rfl
    rw [isAssistant, read]
    rfl
  have parsed (row : MessageRecords.Message) :
      parseAssistantMessage (mapMessage row) = some ⟨[], row.content, false⟩ := rfl
  unfold polled listMessages at found
  unfold answerRow
  cases conversation :
      Conversations.getByUUIDAndUserID s.conversations none cfg.conversationUUID cfg.userID with
  | error e =>
    rw [conversation] at found
    cases found
  | ok conversation =>
    simp only [conversation, Option.bind_some, parseLastAssistantMessage, ← List.map_reverse,
      List.find?_map, Option.bind_eq_some_iff, Option.map_eq_some_iff] at found
    obtain ⟨_, ⟨row, first, rfl⟩, same⟩ := found
    have role : (isAssistant ∘ mapMessage) = fun m => m.role == "assistant".toList :=
      funext assistant
    rw [role] at first
    rw [parsed, Option.some.injEq] at same
    rw [← same]
    refine ⟨rfl, rfl, row, first, ?_, ?_, rfl⟩
    · have listed := List.mem_of_mem_take (List.mem_reverse.mp (List.mem_of_find?_eq_some first))
      exact (MessageRecords.mem_conversationMessages.mp listed).1
    · have found := List.find?_some first
      exact beq_iff_eq.mp found

theorem Answered.grows {cfg : AskConfig} {s s' : Server} {asked asked' : List ℕ}
    {m : ChatNotifier.Message} (h : Answered cfg s asked m) (grows : Grows s s')
    (sub : asked ⊆ asked') : Answered cfg s' asked' m := by
  rcases h with ⟨o, mem, mine, stopped, answers⟩ | ⟨row, mem, role, mine, content⟩
  · obtain ⟨j, at_j⟩ := List.mem_iff_getElem?.mp mem
    obtain ⟨o', at_j', turn, -, kept⟩ := grows.stream j o at_j
    obtain ⟨stopped', sent⟩ := kept stopped
    refine .inl ⟨o', List.mem_of_getElem? at_j', ?_, stopped', ?_⟩
    · rw [turn]
      exact sub mine
    · rw [sent]
      exact answers
  · exact .inr ⟨row, grows.rows.subset mem, role, List.map_subset some sub mine, content⟩

theorem Answered.congr {cfg : AskConfig} {s : Server} {asked : List ℕ}
    {m m' : ChatNotifier.Message} (h : Answered cfg s asked m) (same : m'.content = m.content) :
    Answered cfg s asked m' := by
  rcases h with ⟨o, mem, mine, stopped, answers⟩ | ⟨row, mem, role, mine, content⟩
  · refine .inl ⟨o, mem, mine, stopped, ⟨same.trans answers.shown, fun plain => ?_⟩⟩
    rw [same]
    exact answers.plain plain
  · exact .inr ⟨row, mem, role, mine, same.trans content⟩

/-- The streams of the gateway; those of the question have had legible events alone. -/
structure Gateway (cfg : AskConfig) (asked : List ℕ) (s : Server) : Prop where
  ordered : ∀ o ∈ s.streams, Ordered o.stream
  stored : ∀ o ∈ s.streams, o.turn.userMessageID < s.messages.next
  legibles : ∀ o ∈ s.streams, o.turn.userMessageID ∈ asked →
    ∀ ev ∈ arrived o.stream, legible cfg o.turn.assistantMsgUUID ev = true

theorem gateway_step {cfg : AskConfig} {s : System} {e : QaService.Event}
    (h : Gateway cfg s.asked s.server) (guard : undisturbed cfg s (.server e) = true) :
    Gateway cfg s.asked (QaService.step cfg.service cfg.defaultTitle s.server e) := by
  have later := (step_rows cfg.service cfg.defaultTitle s.server e).2
  have streams := step_streams cfg.service cfg.defaultTitle s.server e
  generalize QaService.step cfg.service cfg.defaultTitle s.server e = after at later streams
  obtain ⟨resources, conversations, messages, opens⟩ := after
  dsimp only at later streams
  have kept (o : OpenStream) (mem : o ∈ s.server.streams) : o.turn.userMessageID < messages.next :=
    Nat.lt_of_lt_of_le (h.stored o mem) later
  cases streams with
  | same => exact ⟨h.ordered, kept, h.legibles⟩
  | opens turn row stored =>
    refine ⟨fun o mem => ?_, fun o mem => ?_, fun o mem mine ev come => ?_⟩
    · rcases List.mem_append.mp mem with old | new
      · exact h.ordered o old
      · rw [List.mem_singleton.mp new]
        exact ordered_opened
    · rcases List.mem_append.mp mem with old | new
      · exact kept o old
      · rw [List.mem_singleton.mp new, row, stored]
        exact Nat.lt_succ_self _
    · rcases List.mem_append.mp mem with old | new
      · exact h.legibles o old mine ev come
      · rw [List.mem_singleton.mp new] at come
        cases come
  | moves i o event io found is =>
    have here : o ∈ s.server.streams := List.mem_of_getElem? found
    refine ⟨fun o' mem => ?_, fun o' mem => ?_, fun o' mem mine ev come => ?_⟩
    · rcases List.mem_or_eq_of_mem_set mem with old | rfl
      · exact h.ordered o' old
      · exact next_ordered event (h.ordered o here)
    · rcases List.mem_or_eq_of_mem_set mem with old | rfl
      · exact kept o' old
      · exact kept o here
    · rcases List.mem_or_eq_of_mem_set mem with old | rfl
      · exact h.legibles o' old mine ev come
      · rcases arrived_next come with before | new
        · exact h.legibles o here mine ev before
        · rw [is, new] at guard
          simp only [undisturbed, found, Option.all_some, Bool.or_eq_true, Bool.not_eq_true',
            List.contains_eq_mem, decide_eq_false_iff_not] at guard
          exact guard.resolve_left fun other => other mine

theorem handleAsk_asks (cfg : AskConfig) (s : Server) (io : AskIO) :
    Asks s (handleAsk cfg s io) := by
  unfold handleAsk
  split
  · exact .refuses _ _ rfl (.inl rfl)
  · exact ask_asks cfg.service s io cfg.userID cfg.conversationUUID cfg.question

theorem terminal_last {s : QaStream.Stream} {read : ℕ} {ev : SSEEvent} (ordered : Ordered s)
    (at_read : s.out.received[read]? = some ev) (terminal : QaStream.isTerminal ev = true) :
    s.phase = .finished ∧ s.out.sent = s.out.received.take (read + 1) := by
  have inside : read < s.out.received.length := (List.getElem?_eq_some_iff.mp at_read).1
  have sent : s.out.sent[read]? = some ev := by
    rw [BoundedChannel.Channel.sent, List.getElem?_append_left inside]
    exact at_read
  have mem : ev ∈ s.out.sent := List.mem_of_getElem? sent
  have stopped : s.phase = .finished := by
    by_contra running
    have more := ordered.running running ev mem
    rw [terminal] at more
    cases more
  have end_ : s.out.sent.length ≤ read + 1 := by
    by_contra beyond
    have early : ev ∈ s.out.sent.dropLast := by
      refine List.mem_of_getElem? (i := read) ?_
      rw [List.getElem?_dropLast, if_pos (by omega)]
      exact sent
    have more := ordered.last ev early
    rw [terminal] at more
    cases more
  refine ⟨stopped, ?_⟩
  have both : s.out.sent.length = s.out.received.length + s.out.buffer.length := by
    rw [BoundedChannel.Channel.sent, List.length_append]
  have drained : s.out.buffer = [] := List.length_eq_zero_iff.mp (by omega)
  rw [← BoundedChannel.Channel.received_eq_sent drained, List.take_of_length_le (by omega)]

def held : Run → Option (ℕ × ℕ)
  | .answering _ (.ok stream) => some (stream, 0)
  | .listening _ stream read _ => some (stream, read)
  | _ => none

theorem held_retried (attempt : ℕ) : held (retried attempt) = none := by
  unfold retried
  split <;> rfl

theorem held_set {runs : List Run} {i : ℕ} {run : Run} (at_i : runs[i]? = some run) :
    ∃ before after, runs.filterMap held = before ++ (held run).toList ++ after ∧
      ∀ run', (runs.set i run').filterMap held = before ++ (held run').toList ++ after := by
  induction runs generalizing i with
  | nil => cases at_i
  | cons first runs ih =>
    have split (r : Run) (rs : List Run) :
        (r :: rs).filterMap held = (held r).toList ++ rs.filterMap held := by
      cases shape : held r with
      | none => rw [List.filterMap_cons_none shape, Option.toList_none, List.nil_append]
      | some h => rw [List.filterMap_cons_some shape, Option.toList_some, List.singleton_append]
    cases i with
    | zero =>
      rw [List.getElem?_cons_zero, Option.some.injEq] at at_i
      refine ⟨[], runs.filterMap held, ?_, fun run' => ?_⟩
      · rw [at_i, split, List.nil_append]
      · rw [List.set_cons_zero, split, List.nil_append]
    | succ i =>
      rw [List.getElem?_cons_succ] at at_i
      obtain ⟨before, after, here, there⟩ := ih at_i
      refine ⟨(held first).toList ++ before, after, ?_, fun run' => ?_⟩
      · rw [split, here]
        simp only [List.append_assoc]
      · rw [List.set_cons_succ, split, there]
        simp only [List.append_assoc]

/-- The message shows what an attempt has read of its stream. -/
structure Reading (cfg : AskConfig) (s : System) (m : ChatNotifier.Message) (stream read : ℕ)
    (o : OpenStream) : Prop where
  found : s.server.streams[stream]? = some o
  mine : o.turn.userMessageID ∈ s.asked
  inside : read ≤ o.stream.out.received.length
  alike : Alike m (shownBy cfg (o.stream.out.received.take read))
  id : m.id = [] ∨ m.id = o.turn.assistantMsgUUID

/-- The message that the notifier fills. -/
structure Shows (cfg : AskConfig) (s : System) (m : ChatNotifier.Message) : Prop where
  role : m.role = .assistant
  streaming : m.isStreaming = true
  untouched : s.asked = [] → Alike m blank ∧ m.id = []
  reading : ∀ h ∈ s.runs.filterMap held, ∃ o, Reading cfg s m h.1 h.2 o

structure Sending (cfg : AskConfig) (s : System) : Prop where
  sending : s.chat.isSending = true
  alone : (s.runs.filterMap held).length ≤ s.asked.length
  shown : ∃ m, s.chat.messages.getLast? = some m ∧ Shows cfg s m

/-- What an undisturbed run keeps: one attempt at most has a stream, and the message shows what
this attempt has read, until it shows an answer. -/
structure Delivering (cfg : AskConfig) (s : System) : Prop where
  once : s.asked.length ≤ 1
  gateway : Gateway cfg s.asked s.server
  running : s.closed = false → Sending cfg s
  ended : s.closed = true → s.chat.isSending = false ∧ (s.chat.error = none →
    ∃ m, s.chat.messages.getLast? = some m ∧ Answered cfg s.server s.asked m)

theorem Delivering.answeredOnce {cfg : AskConfig} {s : System} (h : Delivering cfg s) :
    AnsweredOnce cfg s where
  once := h.once
  answer stopped noError := by
    cases closed : s.closed with
    | false =>
      have sending := (h.running closed).sending
      rw [stopped] at sending
      cases sending
    | true => exact (h.ended closed).2 noError

theorem delivering_start (cfg : AskConfig) (live : Conversations.LiveResources) (chat : ChatState) :
    Delivering cfg (start cfg (QaService.opened live) chat) where
  once := Nat.zero_le 1
  gateway := ⟨nofun, nofun, nofun⟩
  running _ := by
    refine ⟨rfl, Nat.le_refl 0, ?_⟩
    refine ⟨_, List.getLast?_append_of_ne_nil _ (List.cons_ne_nil _ _), rfl, rfl, ?_, nofun⟩
    exact fun _ => ⟨⟨rfl, rfl, rfl⟩, rfl⟩
  ended := nofun

theorem Delivering.runs {cfg : AskConfig} {s : System} {runs : List Run} (h : Delivering cfg s)
    (fewer : (runs.filterMap held).Sublist (s.runs.filterMap held)) :
    Delivering cfg { s with runs := runs } where
  once := h.once
  gateway := h.gateway
  running open_ := by
    obtain ⟨sending, alone, m, last, shows⟩ := h.running open_
    refine ⟨sending, Nat.le_trans fewer.length_le alone, m, last, shows.role, shows.streaming,
      shows.untouched, fun x mem => ?_⟩
    obtain ⟨o, reading⟩ := shows.reading x (fewer.subset mem)
    exact ⟨o, reading.found, reading.mine, reading.inside, reading.alike, reading.id⟩
  ended := h.ended

theorem set_fewer {runs : List Run} {i : ℕ} {run run' : Run} (at_i : runs[i]? = some run)
    (less : held run' = none ∨ held run' = held run) :
    ((runs.set i run').filterMap held).Sublist (runs.filterMap held) := by
  obtain ⟨before, after, here, there⟩ := held_set at_i
  rw [here, there]
  rcases less with none | same
  · rw [none, Option.toList_none, List.append_nil]
    exact List.Sublist.append (List.sublist_append_left _ _) (List.Sublist.refl _)
  · rw [same]

theorem Delivering.close {cfg : AskConfig} {s : System} (h : Delivering cfg s)
    (answered : s.closed = false → ∀ m, s.chat.messages.getLast? = some m → Shows cfg s m →
      Answered cfg s.server s.asked m) : Delivering cfg (close s) := by
  unfold ChatSseClient.close
  split
  · exact h
  · rename_i open_
    rw [Bool.not_eq_true] at open_
    obtain ⟨sending, -, m, last, shows⟩ := h.running open_
    obtain ⟨m', last', alike⟩ := stopStreaming_last none last
    refine ⟨h.once, h.gateway, nofun, fun _ => ?_⟩
    refine ⟨(stopStreaming_fields none sending).1, fun _ => ⟨m', last', ?_⟩⟩
    exact (answered open_ m last shows).congr alike.content

theorem close_done {cfg : AskConfig} {s : System} {event : ChatEvent} (h : Delivering cfg s)
    (done : event.type = .done) :
    ChatSseClient.close (emit event s) = ChatSseClient.close s := by
  cases closed : s.closed with
  | true =>
    have same : emit event s = s := if_pos closed
    rw [same]
  | false =>
    have sending := (h.running closed).sending
    have ended : handleEvent event s.chat = stopStreaming none s.chat := by
      simp only [handleEvent, done]
    have again := stopStreaming_again none (stopStreaming_fields none sending).1
    simp only [ChatSseClient.close, emit, closed, ended, again, Bool.false_eq_true, if_false]

theorem Delivering.error {cfg : AskConfig} {s : System} {event : ChatEvent}
    (h : Delivering cfg s) (error : event.type = .error) :
    Delivering cfg (ChatSseClient.close (emit event s)) := by
  cases closed : s.closed with
  | true =>
    have same : emit event s = s := if_pos closed
    have shut : ChatSseClient.close s = s := if_pos closed
    rw [same, shut]
    exact h
  | false =>
    have sending := (h.running closed).sending
    obtain ⟨failure, ended⟩ : ∃ failure, handleEvent event s.chat =
        stopStreaming (some failure) s.chat := by
      simp only [handleEvent, error]
      split
      · exact ⟨_, rfl⟩
      · exact ⟨_, rfl⟩
    obtain ⟨stopped, failed⟩ := stopStreaming_fields (some failure) sending
    have again := stopStreaming_again none stopped
    simp only [ChatSseClient.close, emit, closed, ended, again, Bool.false_eq_true, if_false]
    refine ⟨h.once, h.gateway, nofun, fun _ => ⟨stopped, fun noError => ?_⟩⟩
    rw [failed] at noError
    cases noError

theorem Delivering.server {cfg : AskConfig} {s : System} (h : Delivering cfg s)
    {e : QaService.Event} (guard : undisturbed cfg s (.server e) = true) :
    Delivering cfg (step cfg s (.server e)) where
  once := h.once
  gateway := gateway_step h.gateway guard
  running open_ := by
    have grows := step_grows cfg.service cfg.defaultTitle s.server e
    obtain ⟨sending, alone, m, last, shows⟩ := h.running open_
    refine ⟨sending, alone, m, last, shows.role, shows.streaming, shows.untouched, fun x mem => ?_⟩
    obtain ⟨o, reading⟩ := shows.reading x mem
    obtain ⟨o', found, turn, ⟨more, received⟩, -⟩ := grows.stream x.1 o reading.found
    have same : o'.stream.out.received.take x.2 = o.stream.out.received.take x.2 := by
      rw [← received, List.take_append_of_le_length reading.inside]
    refine ⟨o', found, ?_, ?_, ?_, ?_⟩
    · rw [turn]
      exact reading.mine
    · rw [← received, List.length_append]
      exact Nat.le_trans reading.inside (Nat.le_add_right _ _)
    · rw [same]
      exact reading.alike
    · rw [turn]
      exact reading.id
  ended closed := by
    obtain ⟨stopped, answered⟩ := h.ended closed
    refine ⟨stopped, fun noError => ?_⟩
    obtain ⟨m, last, answer⟩ := answered noError
    have grows := step_grows cfg.service cfg.defaultTitle s.server e
    exact ⟨m, last, answer.grows grows (List.Subset.refl s.asked)⟩

theorem asked_ids {before after : MessageRecords.Messages} (stores : Stores before after) :
    (after.rows.drop before.rows.length).map MessageRecords.Message.id = [before.next] := by
  obtain ⟨m, id, rows⟩ := stores.row
  rw [rows, List.drop_left, List.map_singleton, id]

theorem refused_ids {before after : MessageRecords.Messages}
    (messages : after = before ∨ Stores before after) :
    ∃ ids, (after.rows.drop before.rows.length).map MessageRecords.Message.id = ids ∧
      ids.length ≤ 1 ∧ before.next ≤ after.next ∧ ∀ id ∈ ids, before.next ≤ id := by
  rcases messages with rfl | stores
  · refine ⟨[], ?_, Nat.zero_le 1, Nat.le_refl _, nofun⟩
    rw [List.drop_length, List.map_nil]
  · refine ⟨_, asked_ids stores, Nat.le_refl 1, ?_, fun id mem => ?_⟩
    · rw [stores.next]
      exact Nat.le_succ _
    · rw [List.mem_singleton.mp mem]

theorem Gateway.refused {cfg : AskConfig} {asked ids : List ℕ} {s saved : Server}
    (h : Gateway cfg asked s) (streams : saved.streams = s.streams)
    (later : s.messages.next ≤ saved.messages.next) (new : ∀ id ∈ ids, s.messages.next ≤ id) :
    Gateway cfg ids saved where
  ordered := by
    rw [streams]
    exact h.ordered
  stored := by
    rw [streams]
    exact fun o mem => Nat.lt_of_lt_of_le (h.stored o mem) later
  legibles := by
    rw [streams]
    intro o mem mine
    exact absurd (h.stored o mem) (Nat.not_lt.mpr (new _ mine))

theorem Gateway.opened {cfg : AskConfig} {asked : List ℕ} {s saved : Server} {turn : Turn}
    (h : Gateway cfg asked s) (messages : Stores s.messages saved.messages)
    (row : turn.userMessageID = s.messages.next)
    (streams : saved.streams = s.streams ++ [⟨turn, QaStream.opened⟩]) :
    Gateway cfg [s.messages.next] saved where
  ordered := by
    rw [streams]
    intro o mem
    rcases List.mem_append.mp mem with old | new
    · exact h.ordered o old
    · rw [List.mem_singleton.mp new]
      exact ordered_opened
  stored := by
    have next : s.messages.next < saved.messages.next := by
      rw [messages.next]
      exact Nat.lt_succ_self _
    rw [streams]
    intro o mem
    rcases List.mem_append.mp mem with old | new
    · exact Nat.lt_trans (h.stored o old) next
    · rw [List.mem_singleton.mp new, row]
      exact next
  legibles := by
    rw [streams]
    intro o mem mine ev come
    rcases List.mem_append.mp mem with old | new
    · have stored := h.stored o old
      rw [List.mem_singleton.mp mine] at stored
      exact absurd stored (Nat.lt_irrefl _)
    · rw [List.mem_singleton.mp new] at come
      cases come

theorem Delivering.shown {cfg : AskConfig} {s : System} (h : Delivering cfg s)
    (first : s.asked = []) {after : Server} (grows : Grows s.server after) (asked : List ℕ)
    (closed : s.closed = true) :
    s.chat.isSending = false ∧ (s.chat.error = none →
      ∃ m, s.chat.messages.getLast? = some m ∧ Answered cfg after asked m) := by
  obtain ⟨stopped, shown⟩ := h.ended closed
  refine ⟨stopped, fun noError => ?_⟩
  obtain ⟨m, last, answer⟩ := shown noError
  rw [first] at answer
  exact ⟨m, last, answer.grows grows (List.nil_subset asked)⟩

theorem Sending.free {cfg : AskConfig} {s : System} (h : Sending cfg s) (first : s.asked = [])
    {i : ℕ} {run : Run} (at_i : s.runs[i]? = some run) (run' : Run) :
    (s.runs.set i run').filterMap held = (held run').toList := by
  have none := h.alone
  rw [first, List.length_nil, Nat.le_zero, List.length_eq_zero_iff] at none
  obtain ⟨before, after, here, there⟩ := held_set at_i
  rw [none] at here
  simp only [List.nil_eq, List.append_eq_nil_iff] at here
  rw [there, here.1.1, here.2, List.nil_append, List.append_nil]

/-- A request reaches the gateway while no question is stored. -/
theorem Delivering.reach {cfg : AskConfig} {s : System} (h : Delivering cfg s) {i attempt : ℕ}
    (io : AskIO) (at_i : s.runs[i]? = some (.starting attempt)) (first : s.asked = []) :
    Delivering cfg (step cfg s (.reach i io)) := by
  have asks := handleAsk_asks cfg s.server io
  have grows := asks.grows
  simp only [ChatSseClient.step, at_i, first, List.nil_append]
  generalize handleAsk cfg s.server io = handled at asks grows
  cases asks with
  | refuses e saved streams messages =>
    obtain ⟨ids, is, few, later, new⟩ := refused_ids messages
    dsimp only [Except.map]
    rw [is]
    refine ⟨few, h.gateway.refused streams later new, fun open_ => ?_, h.shown first grows ids⟩
    have sending := h.running open_
    obtain ⟨m, last, shows⟩ := sending.shown
    have none : (s.runs.set i (.answering attempt (.error e))).filterMap held = [] :=
      sending.free first at_i _
    refine ⟨sending.sending, ?_, m, last, shows.role, shows.streaming,
      fun _ => shows.untouched first, ?_⟩
    · rw [none]
      exact Nat.zero_le _
    · rw [none]
      exact nofun
  | opens request turn saved messages row streams =>
    dsimp only [Except.map]
    rw [asked_ids messages]
    refine ⟨Nat.le_refl 1, h.gateway.opened messages row streams, fun open_ => ?_,
      h.shown first grows _⟩
    have sending := h.running open_
    obtain ⟨m, last, shows⟩ := sending.shown
    obtain ⟨untouched, id⟩ := shows.untouched first
    have one : (s.runs.set i (.answering attempt (.ok s.server.streams.length))).filterMap held =
        [(s.server.streams.length, 0)] := sending.free first at_i _
    refine ⟨sending.sending, ?_, m, last, shows.role, shows.streaming, nofun, fun x mem => ?_⟩
    · rw [one]
      exact Nat.le_refl 1
    · rw [one] at mem
      rw [List.mem_singleton.mp mem]
      refine ⟨⟨turn, QaStream.opened⟩, ?_, ?_, Nat.zero_le _, untouched, .inl id⟩
      · dsimp only
        rw [streams, List.getElem?_concat_length]
      · rw [row]
        exact List.mem_singleton_self _

theorem shownBy_take {cfg : AskConfig} {o : OpenStream} {read : ℕ} {ev : SSEEvent}
    (next : o.stream.out.received[read]? = some ev) :
    shownBy cfg (o.stream.out.received.take (read + 1)) =
      match decode cfg ev with
      | none => shownBy cfg (o.stream.out.received.take read)
      | some event => absorb (shownBy cfg (o.stream.out.received.take read)) event := by
  rw [List.take_add_one, next, Option.toList_some]
  exact shownBy_concat cfg _ ev

theorem absorb_terminal {m : ChatNotifier.Message} {event : ChatEvent}
    (terminal : event.isTerminal = true) : absorb m event = m := by
  simp only [ChatEvent.isTerminal, Bool.or_eq_true, decide_eq_true_eq] at terminal
  unfold absorb
  rcases terminal with done | error
  · rw [done]
  · rw [error]

theorem Sending.only {cfg : AskConfig} {s : System} (h : Sending cfg s) (once : s.asked.length ≤ 1)
    {i stream read : ℕ} {run : Run} (at_i : s.runs[i]? = some run)
    (here : held run = some (stream, read)) (run' : Run) :
    (s.runs.set i run').filterMap held = (held run').toList := by
  obtain ⟨before, after, now, later⟩ := held_set at_i
  have alone := Nat.le_trans h.alone once
  rw [now, here, List.length_append, List.length_append, Option.toList_some,
    List.length_singleton] at alone
  have first : before = [] := List.length_eq_zero_iff.mp (by omega)
  have last : after = [] := List.length_eq_zero_iff.mp (by omega)
  rw [later, first, last, List.nil_append, List.append_nil]

theorem Sending.reading {cfg : AskConfig} {s : System} (h : Sending cfg s) {i stream read : ℕ}
    {run : Run} (at_i : s.runs[i]? = some run) (here : held run = some (stream, read)) :
    ∃ m o, s.chat.messages.getLast? = some m ∧ Shows cfg s m ∧ Reading cfg s m stream read o := by
  obtain ⟨m, last, shows⟩ := h.shown
  have mem : (stream, read) ∈ s.runs.filterMap held :=
    List.mem_filterMap.mpr ⟨run, List.mem_of_getElem? at_i, here⟩
  obtain ⟨o, reading⟩ := shows.reading _ mem
  exact ⟨m, o, last, shows, reading⟩

theorem Delivering.closed {cfg : AskConfig} {s : System} (h : Delivering cfg s)
    (closed : s.closed = true) (runs : List Run) : Delivering cfg { s with runs := runs } where
  once := h.once
  gateway := h.gateway
  running open_ := by
    have both : true = false := closed.symm.trans open_
    cases both
  ended := h.ended

theorem Delivering.advance {cfg : AskConfig} {s : System} (h : Delivering cfg s)
    (open_ : s.closed = false) {i attempt stream read : ℕ} {broken : Bool}
    (at_i : s.runs[i]? = some (.listening attempt stream read broken))
    {m m' : ChatNotifier.Message} {o : OpenStream} (reading : Reading cfg s m stream read o)
    (more : read < o.stream.out.received.length) {chat : ChatState}
    (sending : chat.isSending = true) (last : chat.messages.getLast? = some m')
    (role : m'.role = .assistant) (streaming : m'.isStreaming = true)
    (alike : Alike m' (shownBy cfg (o.stream.out.received.take (read + 1))))
    (id : m'.id = [] ∨ m'.id = o.turn.assistantMsgUUID) :
    Delivering cfg { s with
      chat := chat, runs := s.runs.set i (.listening attempt stream (read + 1) broken) } where
  once := h.once
  gateway := h.gateway
  running _ := by
    have one := (h.running open_).only h.once at_i rfl (.listening attempt stream (read + 1) broken)
    have some : s.asked ≠ [] := List.ne_nil_of_mem reading.mine
    refine ⟨sending, ?_, m', last, role, streaming, fun none => absurd none some, fun x mem => ?_⟩
    · dsimp only
      rw [one]
      exact List.length_pos_of_ne_nil some
    · dsimp only at mem
      rw [one, held, Option.toList_some, List.mem_singleton] at mem
      rw [mem]
      exact ⟨o, reading.found, reading.mine, more, alike, id⟩
  ended closed := by
    have both : false = true := open_.symm.trans closed
    cases both

theorem take_closed {s : System} (cfg : AskConfig) (closed : s.closed = true) (ev : SSEEvent) :
    take cfg ev s = s := by
  have same (event : ChatEvent) : emit event s = s := if_pos closed
  have shut : ChatSseClient.close s = s := if_pos closed
  unfold take
  split
  · rfl
  · rw [same, shut, ite_self]

theorem Reading.target {cfg : AskConfig} {s : System} {m : ChatNotifier.Message}
    {stream read : ℕ} {o : OpenStream} (reading : Reading cfg s m stream read o)
    (shows : Shows cfg s m) {event : ChatEvent}
    (named : event.messageID = o.turn.assistantMsgUUID ∨ event.messageID = []) :
    matchesTarget m event.messageID = true := by
  rw [matchesTarget, if_neg (by rw [shows.role]; exact fun other => other rfl)]
  by_cases empty : event.messageID = []
  · rw [if_neg fun some => some empty]
    exact shows.streaming
  · rw [if_pos empty, named.resolve_right empty]
    rcases reading.id with none | known
    · rw [none, decide_eq_true (rfl : ([] : Text) = []), Bool.or_true]
    · rw [known, decide_eq_true rfl, Bool.true_or]

/-- The client takes the next event of its stream. -/
theorem Delivering.take {cfg : AskConfig} {s : System} (h : Delivering cfg s)
    (open_ : s.closed = false) {i attempt stream read : ℕ} {broken : Bool}
    (at_i : s.runs[i]? = some (.listening attempt stream read broken)) {ev : SSEEvent}
    (next : nextEvent s.server stream read = some ev) :
    Delivering cfg (ChatSseClient.take cfg ev
      { s with runs := s.runs.set i (.listening attempt stream (read + 1) broken) }) := by
  obtain ⟨m, o, last, shows, reading⟩ := (h.running open_).reading at_i rfl
  have sending := (h.running open_).sending
  rw [nextEvent, reading.found, Option.bind_some] at next
  have more : read < o.stream.out.received.length := (List.getElem?_eq_some_iff.mp next).1
  have shown := @shownBy_take cfg o read ev next
  have mem : o ∈ s.server.streams := List.mem_of_getElem? reading.found
  have legibles (ev : SSEEvent) (sent : ev ∈ o.stream.out.sent) :
      legible cfg o.turn.assistantMsgUUID ev = true :=
    h.gateway.legibles o mem reading.mine ev (mem_arrived.mpr (.inr (.inr sent)))
  have quiet (same : shownBy cfg (o.stream.out.received.take (read + 1)) =
      shownBy cfg (o.stream.out.received.take read)) : Delivering cfg { s with
        runs := s.runs.set i (.listening attempt stream (read + 1) broken) } := by
    refine h.advance open_ at_i reading more sending last shows.role shows.streaming ?_ reading.id
    rw [same]
    exact reading.alike
  unfold ChatSseClient.take
  cases decoded : decode cfg ev with
  | none =>
    rw [decoded] at shown
    exact quiet shown
  | some event =>
    rw [decoded] at shown
    dsimp only at shown ⊢
    by_cases terminal : event.isTerminal = true
    · rw [absorb_terminal terminal] at shown
      rw [if_pos terminal]
      have kind := terminal
      simp only [ChatEvent.isTerminal, Bool.or_eq_true, decide_eq_true_eq] at kind
      rcases kind with done | error
      · rw [close_done (quiet shown) done]
        refine (quiet shown).close fun _ m' last' _ => ?_
        obtain ⟨stopped, sent⟩ := terminal_last (h.gateway.ordered o mem) next
          (terminal_of_decode decoded terminal)
        have same : m' = m := Option.some.inj (last'.symm.trans last)
        refine .inl ⟨o, mem, reading.mine, stopped, answers_of_alike legibles ?_⟩
        rw [same, sent, shown]
        exact reading.alike
      · exact (quiet shown).error error
    · rw [Bool.not_eq_true] at terminal
      have named := legibles ev (List.mem_append_left _ (List.mem_of_getElem? next))
      simp only [legible, decoded, terminal, Bool.false_or, Bool.or_eq_true, beq_iff_eq,
        List.isEmpty_iff] at named
      obtain ⟨still, m', last', alike, keeps, id⟩ :=
        handleEvent_last last (reading.target shows named) terminal
      have chat : emit event { s with
          runs := s.runs.set i (.listening attempt stream (read + 1) broken) } = { s with
          chat := handleEvent event s.chat
          runs := s.runs.set i (.listening attempt stream (read + 1) broken) } := by
        rw [emit, if_neg]
        rw [open_]
        exact Bool.false_ne_true
      rw [terminal, if_neg Bool.false_ne_true, chat]
      refine h.advance open_ at_i reading more (still.trans sending) last'
        (keeps.role.trans shows.role) (keeps.isStreaming.trans shows.streaming) ?_ ?_
      · rw [shown]
        exact alike.trans (absorb_alike event reading.alike)
      · rcases id with same | new
        · rw [same]
          exact reading.id
        · rw [new]
          exact named.symm

theorem Delivering.finish {cfg : AskConfig} {s : System} (h : Delivering cfg s) {i : ℕ}
    {attempt stream read : ℕ} {broken : Bool}
    (at_i : s.runs[i]? = some (.listening attempt stream read broken))
    (ended : s.closed = true ∨ complete s.server stream read = true) :
    Delivering cfg (ChatSseClient.close { s with runs := s.runs.set i .ended }) := by
  have still : Delivering cfg { s with runs := s.runs.set i .ended } :=
    h.runs (set_fewer at_i (.inl rfl))
  refine still.close fun open_ m last _ => ?_
  have open_ : s.closed = false := open_
  have all : complete s.server stream read = true := by
    refine ended.resolve_left fun closed => ?_
    have both : true = false := closed.symm.trans open_
    cases both
  obtain ⟨m', o, last', shows, reading⟩ := (h.running open_).reading at_i rfl
  have mem : o ∈ s.server.streams := List.mem_of_getElem? reading.found
  have same : m = m' := Option.some.inj (last.symm.trans last')
  simp only [complete, reading.found, Bool.and_eq_true, decide_eq_true_eq, List.isEmpty_iff,
    beq_iff_eq] at all
  obtain ⟨⟨stopped, drained⟩, whole⟩ := all
  refine .inl ⟨o, mem, reading.mine, stopped,
    @answers_of_alike cfg o.turn.assistantMsgUUID _ _ ?_ ?_⟩
  · exact fun ev sent =>
      h.gateway.legibles o mem reading.mine ev (mem_arrived.mpr (.inr (.inr sent)))
  · have alike := reading.alike
    rw [whole, List.take_length, BoundedChannel.Channel.received_eq_sent drained] at alike
    rw [same]
    exact alike

theorem showPolled_open {cfg : AskConfig} {s : System} {m : PolledMessage}
    (open_ : s.closed = false)
    (sending : s.chat.isSending = true) (ended : m.isStreaming = false) :
    showPolled cfg m s = { s with
      closed := true
      chat := stopStreaming none (appendChunk (polledChunk cfg m) s.chat) } := by
  have again (chat : ChatState) (more : chat.isSending = true) :=
    stopStreaming_again none (stopStreaming_fields none more).1
  simp only [showPolled, polledChunk, emit, ChatSseClient.close, open_, ended, handleEvent,
    Bool.false_eq_true,
    if_false]
  rw [again]
  exact sending

theorem Delivering.poll {cfg : AskConfig} {s : System} (h : Delivering cfg s)
    (open_ : s.closed = false) {m : PolledMessage} (found : polled cfg s.server = some m)
    (mine : ∀ row ∈ answerRow cfg s.server, row.parentMessageID ∈ s.asked.map some ∧
      ∀ m ∈ s.chat.messages.getLast?, m.content = []) :
    Delivering cfg (showPolled cfg m s) := by
  obtain ⟨id, ended, row, first, stored, role, content⟩ := polled_row found
  obtain ⟨asked, empty⟩ := mine row first
  obtain ⟨sending, -, shown, last, shows⟩ := h.running open_
  have target : matchesTarget shown m.id = true := by
    rw [matchesTarget, if_neg (by rw [shows.role]; exact fun other => other rfl), id,
      if_neg fun some => some rfl]
    exact shows.streaming
  obtain ⟨still, next, nextLast, absorbed, -, -⟩ := @handleEvent_last
    (polledChunk cfg m) s.chat shown last target rfl
  obtain ⟨m', last', alike⟩ := stopStreaming_last none nextLast
  have sent : m'.content = row.content := by
    rw [alike.content, absorbed.content, ← content]
    show shown.content ++ m.content = m.content
    rw [empty shown last, List.nil_append]
  rw [showPolled_open open_ sending ended]
  have stopped := (stopStreaming_fields none (still.trans sending)).1
  exact ⟨h.once, h.gateway, nofun, fun _ =>
    ⟨stopped, fun _ => ⟨m', last', .inr ⟨row, stored, role, asked, sent⟩⟩⟩⟩

theorem Delivering.respondError {cfg : AskConfig} {s : System} (h : Delivering cfg s)
    {i attempt : ℕ} {e : AppErrors.AppError}
    (at_i : s.runs[i]? = some (.answering attempt (.error e))) :
    Delivering cfg (ChatSseClient.respondError cfg i attempt e s) := by
  have still := h.runs (set_fewer at_i (.inl (rfl : held .ended = none)))
  unfold ChatSseClient.respondError
  split
  · exact still.error rfl
  · split
    · exact still.error rfl
    · refine h.runs (set_fewer at_i (.inl ?_))
      split
      · rfl
      · exact held_retried attempt

theorem Delivering.deliver {cfg : AskConfig} {s : System} (h : Delivering cfg s)
    {i attempt stream read : ℕ} {broken : Bool}
    (at_i : s.runs[i]? = some (.listening attempt stream read broken)) {ev : SSEEvent}
    (next : nextEvent s.server stream read = some ev) :
    Delivering cfg (ChatSseClient.take cfg ev
      { s with runs := s.runs.set i (.listening attempt stream (read + 1) broken) }) := by
  by_cases closed : s.closed = true
  · have still := h.closed closed (s.runs.set i (.listening attempt stream (read + 1) broken))
    have same := @take_closed { s with
      runs := s.runs.set i (.listening attempt stream (read + 1) broken) } cfg closed ev
    rw [same]
    exact still
  · rw [Bool.not_eq_true] at closed
    exact h.take closed at_i next

theorem Delivering.breaks {cfg : AskConfig} {s : System} (h : Delivering cfg s)
    {i attempt stream read : ℕ} {broken : Bool}
    (at_i : s.runs[i]? = some (.listening attempt stream read broken)) :
    Delivering cfg { s with
      runs := s.runs.set i (.listening attempt stream read true) ++
        if s.closed then [] else [retried attempt] } := by
  refine h.runs ?_
  have none : (if s.closed then [] else [retried attempt]).filterMap held = [] := by
    split
    · rfl
    · exact List.filterMap_cons_none (held_retried attempt)
  rw [List.filterMap_append, none, List.append_nil]
  exact set_fewer at_i (.inr rfl)

theorem delivering_step (cfg : AskConfig) (s : System) (e : ChatSseClient.Event)
    (h : Delivering cfg s) (guard : undisturbed cfg s e = true) :
    Delivering cfg (ChatSseClient.step cfg s e) := by
  have failed {i attempt : ℕ} {run : Run} (at_i : s.runs[i]? = some run) : Delivering cfg { s with
      runs := s.runs.set i (if s.closed then .ended else retried attempt) } := by
    refine h.runs (set_fewer at_i (.inl ?_))
    split
    · rfl
    · exact held_retried attempt
  cases e with
  | server e => exact h.server guard
  | reach i io =>
    cases at_i : s.runs[i]? with
    | none => simpa only [ChatSseClient.step, at_i] using h
    | some run =>
      cases run with
      | starting attempt =>
        simp only [undisturbed, at_i, List.isEmpty_iff] at guard
        exact h.reach io at_i guard
      | answering attempt reply => simpa only [ChatSseClient.step, at_i] using h
      | listening attempt stream read broken => simpa only [ChatSseClient.step, at_i] using h
      | polling => simpa only [ChatSseClient.step, at_i] using h
      | ended => simpa only [ChatSseClient.step, at_i] using h
  | refuse i e =>
    simp only [ChatSseClient.step]
    split
    · rename_i attempt at_i
      exact h.runs (set_fewer at_i (.inl rfl))
    · exact h
  | fail i =>
    simp only [ChatSseClient.step]
    split
    · rename_i at_i
      exact failed at_i
    · rename_i at_i
      exact failed at_i
    · exact h
  | respond i =>
    simp only [ChatSseClient.step]
    split
    · rename_i attempt stream at_i
      exact h.runs (set_fewer at_i (.inr rfl))
    · rename_i attempt e at_i
      exact h.respondError at_i
    · exact h
  | deliver i =>
    simp only [ChatSseClient.step]
    split
    · rename_i attempt stream read broken at_i
      split
      · exact h
      · rename_i ev next
        exact h.deliver at_i next
    · exact h
  | breaks i =>
    simp only [ChatSseClient.step]
    split
    · rename_i attempt stream read broken at_i
      exact h.breaks at_i
    · exact h
  | finish i =>
    simp only [ChatSseClient.step]
    split
    · rename_i attempt stream read broken at_i
      split
      · rename_i ends
        refine h.finish at_i ?_
        cases broken with
        | true =>
          simp only [undisturbed, at_i, Bool.or_eq_true] at guard
          exact guard
        | false => exact .inr ends
      · exact h
    · exact h
  | poll i =>
    simp only [ChatSseClient.step]
    split
    · rename_i at_i
      split
      · exact h.runs (set_fewer at_i (.inl rfl))
      · rename_i open_
        split
        · exact h
        · rename_i m found
          rw [Bool.not_eq_true] at open_
          refine h.poll open_ found ?_
          simpa [undisturbed, at_i, open_, Option.all_eq_true] using guard
    · exact h

/-- However often the transport fails and the client tries again or polls, one user message is
stored at most, and what is shown as done is the answer to it. -/
theorem answered_once (cfg : AskConfig) (live : Conversations.LiveResources) (chat : ChatState)
    (es : List ChatSseClient.Event)
    (calm : EveryStep (ChatSseClient.step cfg) (fun s e => undisturbed cfg s e = true)
      (start cfg (QaService.opened live) chat) es) :
    EveryState (ChatSseClient.step cfg) (AnsweredOnce cfg)
      (start cfg (QaService.opened live) chat) es := by
  have run := everyState_of_guard (delivering_step cfg) (delivering_start cfg live chat) calm
  exact everyState_imp (fun s h => h.answeredOnce) run

/-- A question to the service as `main` wires it; citations are not looked at. -/
def firstAsk : AskConfig where
  service := mainConfig
  defaultTitle := "新会话".toList
  parseCitation _ := some none
  userID := 1
  conversationUUID := courseUUID
  question := "why?".toList

def firstPost : AskIO where
  userMessageUUID := uuidOf "5c7e1a44-6f0b-4d0e-9f2c-1a8e4b7d3c11" (by decide)
  assistantMessageUUID := uuidOf "5c7e1a44-6f0b-4d0e-9f2c-1a8e4b7d3c12" (by decide)

def secondPost : AskIO where
  userMessageUUID := uuidOf "5c7e1a44-6f0b-4d0e-9f2c-1a8e4b7d3c13" (by decide)
  assistantMessageUUID := uuidOf "5c7e1a44-6f0b-4d0e-9f2c-1a8e4b7d3c14" (by decide)

def delivered (ev : SSEEvent) : List ChatSseClient.Event :=
  (QaService.forward ev ++ [QaService.Event.stream 0 .receive {}]).map .server ++ [.deliver 0]

def namedChunk : SSEEvent :=
  streamEvent "chunk"
    "\x7b\"message_id\": \"5c7e1a44-6f0b-4d0e-9f2c-1a8e4b7d3c12\", \"delta\": \"yes\"\x7d"

def namedDone : SSEEvent :=
  streamEvent "done" "\x7b\"message_id\": \"5c7e1a44-6f0b-4d0e-9f2c-1a8e4b7d3c12\"\x7d"

def lostRequest : List ChatSseClient.Event :=
  [.server openCourse, .fail 0, .reach 0 firstPost, .respond 0] ++ delivered namedChunk ++
    delivered namedDone

theorem answered_once_lostRequest :
    EveryState (ChatSseClient.step firstAsk) (AnsweredOnce firstAsk)
      (start firstAsk (QaService.opened noResources) {}) lostRequest :=
  answered_once firstAsk noResources {} lostRequest (by decide +kernel)

/-- The connection breaks after the gateway has accepted the question, and the client posts it
again. -/
def brokenAnswer : List ChatSseClient.Event :=
  [.server openCourse, .reach 0 firstPost, .respond 0, .breaks 0, .reach 1 secondPost]

theorem brokenAnswer_asked_twice :
    ¬ EveryState (ChatSseClient.step firstAsk) (AnsweredOnce firstAsk)
      (start firstAsk (QaService.opened noResources) {}) brokenAnswer := by
  intro run
  have once := run.last.once
  have twice : (exec (ChatSseClient.step firstAsk)
      (start firstAsk (QaService.opened noResources) {}) brokenAnswer).asked.length = 2 := by
    decide +kernel
  omega

end KnowledgeCompanion.ChatDelivery
