import KnowledgeCompanion.Conversations

/-! Asking questions (`Ask` of `service/qa_service.go`) against the validation that the
AI service applies to the request (`app/models/agent.py`, `app/models/qa.py`). -/

namespace KnowledgeCompanion.QaService

open AppErrors ContextWindow Conversations GoText GuardedRun KeyedTable MessageRecords
open QaStream
open AiClient (SSEEvent)
open TaskRecords (Resource)

def maxQuestionLength : ℕ := 2000

def messageHistoryLimit : ℤ := 100

def defaultRAGScopeLimit : ℕ := 100

def resourceStatusCompleted : UInt8 := 3

/-- The fields that `Ask` sets on the payload. -/
structure QARequest where
  question : Text
  conversationID : Text
  messageID : Text
  userID : Text
  resourceIDs : List Text
  history : List ChatMessage

/-- The options of the service: the context window, the unit of work of the stream's
configuration, and the resources of the user as the default scope. -/
structure QaServiceConfig where
  stream : QaConfig
  ctxWindow : Option ContextWindowService
  resourceRepo : Bool

structure AskIO where
  userMessageUUID : Uuid
  assistantMessageUUID : Uuid
  getConversation : Option String := none
  listMessages : Option String := none
  listResources : Option String := none
  save : SaveIO := {}
  streamQA : Option AppError := none

/-- One stream that `Ask` has started. -/
structure OpenStream where
  turn : Turn
  stream : Stream

structure Server where
  resources : LiveResources
  conversations : ConversationTable
  messages : Messages
  streams : List OpenStream

def loadHistory (cfg : QaServiceConfig) (messages : Messages) (fault : Option String)
    (conversation : Conversation) (question : Text) : Except String (List ChatMessage) :=
  match cfg.ctxWindow with
  | some svc => buildMessages svc messages fault conversation.id question
  | none =>
    (listByConversationID messages fault conversation.id messageHistoryLimit).map
      mapMessagesToHistory

def ListedBefore (a b : Resource) : Prop :=
  b.updatedAt < a.updatedAt ∨ a.updatedAt = b.updatedAt ∧ b.id ≤ a.id

instance : DecidableRel ListedBefore :=
  fun a b => inferInstanceAs (Decidable (b.updatedAt < a.updatedAt ∨ _))

def listByUserID (resources : LiveResources) (userID limit : ℕ) : List Resource :=
  ((resources.rows.filter fun r => r.userID == userID).insertionSort ListedBefore).take limit

def resolveResourceIDs (cfg : QaServiceConfig) (resources : LiveResources) (fault : Option String)
    (conversation : Conversation) (userID : ℕ) : Except String (List Text) :=
  let resourceIDs := conversation.resourceIDs.getD []
  if resourceIDs ≠ [] ∨ !cfg.resourceRepo then .ok resourceIDs
  else
    match fault with
    | some cause => .error ("failed to list resources: " ++ cause)
    | none =>
      .ok (((listByUserID resources userID defaultRAGScopeLimit).filter fun r =>
        r.uuid != [] && r.status == resourceStatusCompleted).map Resource.uuid)

def truncate (text : Text) (maxLen : ℕ) : Text := text.take maxLen

def userDraft (conversation : Conversation) (io : AskIO) (question : Text) : Draft where
  uuid := io.userMessageUUID
  conversationID := conversation.id
  parentMessageID := none
  role := "user".toList
  content := question
  reasoning := []
  citations := none
  tokenUsage := 0

def titled (conversations : ConversationTable) (conversation : Conversation) (question : Text) :
    ConversationTable :=
  if conversation.title = [] then
    conversations.update conversation.id (fun c => { c with title := truncate question 20 })
      fun _ => rfl
  else conversations

def saveUserMessageAndTitle (cfg : QaServiceConfig) (s : Server) (io : SaveIO)
    (conversation : Conversation) (draft : Draft) : Option String × Server :=
  match io.createMessage with
  | some cause => (some ("failed to create message: " ++ cause), s)
  | none =>
    let messages := insertDraft s.messages io.now draft
    let title := if conversation.title = [] then io.conversation else none
    if cfg.stream.uow then
      match title with
      | some cause => (some cause, s)
      | none =>
        match io.commit with
        | some cause => (some cause, s)
        | none =>
          (none, { s with
            messages
            conversations := titled s.conversations conversation draft.content })
    else
      match title with
      | some cause => (some cause, { s with messages })
      | none =>
        (none, { s with
          messages
          conversations := titled s.conversations conversation draft.content })

def prepare (cfg : QaServiceConfig) (s : Server) (io : AskIO) (userID : ℕ)
    (conversationUUID question : Text) : Except AppError (QARequest × Turn) × Server :=
  if trimSpace question = [] ∨ maxQuestionLength < byteLength question then
    (.error (badRequest "question must be between 1 and 2000 characters"), s)
  else
    match getByUUIDAndUserID s.conversations io.getConversation conversationUUID userID with
    | .error e => (.error (mapConversationRepositoryError e), s)
    | .ok conversation =>
      match loadHistory cfg s.messages io.listMessages conversation question with
      | .error _ => (.error (internal "failed to load message history"), s)
      | .ok history =>
        match saveUserMessageAndTitle cfg s io.save conversation
            (userDraft conversation io question) with
        | (some _, s) => (.error (internal "failed to save user message"), s)
        | (none, saved) =>
          match resolveResourceIDs cfg s.resources io.listResources conversation userID with
          | .error _ => (.error (internal "failed to resolve RAG resource scope"), saved)
          | .ok resourceIDs =>
            let request :=
              { question
                conversationID := conversation.uuid
                messageID := io.assistantMessageUUID
                userID := PythonText.decimal userID
                resourceIDs
                history }
            (.ok (request, ⟨conversation.id, s.messages.next, io.assistantMessageUUID⟩), saved)

def ask (cfg : QaServiceConfig) (s : Server) (io : AskIO) (userID : ℕ)
    (conversationUUID question : Text) : Except AppError QARequest × Server :=
  match prepare cfg s io userID conversationUUID question with
  | (.error e, s) => (.error e, s)
  | (.ok (request, turn), s) =>
    match io.streamQA with
    | some e => (.error e, s)
    | none => (.ok request, { s with streams := s.streams ++ [⟨turn, QaStream.opened⟩] })

def validChatMessage (m : ChatMessage) : Bool := !m.role.isEmpty && !m.content.isEmpty

/-- `AgentRunRequest`, for the fields that the gateway sends. -/
def validAgentRunRequest (req : QARequest) : Bool :=
  (!req.question.isEmpty && req.question.length ≤ 2000) &&
    !req.conversationID.isEmpty && !req.messageID.isEmpty && !req.userID.isEmpty &&
    (req.resourceIDs.length ≤ 100 && req.resourceIDs.all fun rid => !PythonText.isBlank rid) &&
    req.history.all validChatMessage

/-- Conversations and messages are created, questions asked, and the streams of earlier
questions move on, in any order; the resources may be any at any time. -/
inductive Event
  | resources (live : LiveResources)
  | create (io : CreateIO) (userID : ℕ) (req : CreateConversationRequest)
  | createMessage (io : CreateMessageIO) (userID : ℕ) (conversationUUID : Text)
      (req : CreateMessageRequest)
  | ask (io : AskIO) (userID : ℕ) (conversationUUID question : Text)
  | stream (i : ℕ) (e : QaStream.Event) (io : SaveIO)

def saveAnswer (cfg : QaConfig) (messages : Messages) (io : SaveIO) : Option Draft → Messages
  | none => messages
  | some d => (saveAssistantMessage cfg messages io d).2

def step (cfg : QaServiceConfig) (defaultTitle : Text) (s : Server) : Event → Server
  | .resources live => { s with resources := live }
  | .create io userID req =>
    { s with
      conversations := (create defaultTitle s.resources s.conversations io userID req).2 }
  | .createMessage io userID conversationUUID req =>
    { s with
      messages := (createMessage s.conversations s.messages io userID conversationUUID req).2 }
  | .ask io userID conversationUUID question => (ask cfg s io userID conversationUUID question).2
  | .stream i e io =>
    match s.streams[i]? with
    | none => s
    | some o =>
      let moved := next cfg.stream o.turn o.stream e
      { s with
        messages := saveAnswer cfg.stream s.messages io moved.2
        streams := s.streams.set i { o with stream := moved.1 } }

def built (cfg : QaServiceConfig) (s : Server) : Event → Option QARequest
  | .ask io userID conversationUUID question =>
    (prepare cfg s io userID conversationUUID question).1.toOption.map Prod.fst
  | _ => none

def BuildsValid (cfg : QaServiceConfig) (s : Server) (e : Event) : Prop :=
  ∀ req ∈ built cfg s e, validAgentRunRequest req = true

instance (cfg : QaServiceConfig) (s : Server) (e : Event) : Decidable (BuildsValid cfg s e) :=
  inferInstanceAs (Decidable (∀ req ∈ built cfg s e, validAgentRunRequest req = true))

def spoken (sent : List SSEEvent) : Bool :=
  !(answerOf sent).isEmpty || (reasoningOf sent).isEmpty && (citationsOf sent).isEmpty

def forwarded (cfg : QaServiceConfig) (o : OpenStream) (e : QaStream.Event) : List SSEEvent :=
  (next cfg.stream o.turn o.stream e).1.out.sent

def StopsSpoken (cfg : QaServiceConfig) (s : Server) : Event → Prop
  | .stream i e _ =>
    ∀ o ∈ s.streams[i]?, (next cfg.stream o.turn o.stream e).1.phase = .finished →
      spoken (forwarded cfg o e) = true
  | _ => True

instance (cfg : QaServiceConfig) (s : Server) : (e : Event) → Decidable (StopsSpoken cfg s e)
  | .resources _ => .isTrue trivial
  | .create _ _ _ => .isTrue trivial
  | .createMessage _ _ _ _ => .isTrue trivial
  | .ask _ _ _ _ => .isTrue trivial
  | .stream i e _ =>
    inferInstanceAs (Decidable (∀ o ∈ s.streams[i]?,
      (next cfg.stream o.turn o.stream e).1.phase = .finished → spoken (forwarded cfg o e) = true))

def opened (live : LiveResources) : Server := ⟨live, .empty, .empty, []⟩

structure Sound (s : Server) : Prop where
  messages : ∀ m ∈ s.messages.rows, Readable m
  scopes : ∀ c ∈ s.conversations.rows, WellScoped (c.resourceIDs.getD [])
  streams : ∀ o ∈ s.streams, o.stream.acc = accumulatedOf o.stream.out.sent

theorem sound_opened (live : LiveResources) : Sound (opened live) where
  messages := nofun
  scopes := nofun
  streams := nofun

theorem loadHistory_readable {cfg : QaServiceConfig} {messages : Messages} {fault : Option String}
    {conversation : Conversation} {question : Text} {history : List ChatMessage}
    (readable : ∀ m ∈ messages.rows, Readable m)
    (loaded : loadHistory cfg messages fault conversation question = .ok history) :
    history.all validChatMessage = true := by
  have stored : ∀ c ∈ history, ∃ m ∈ messages.rows, c = toChatMessage m := by
    intro c mem
    unfold loadHistory at loaded
    cases window : cfg.ctxWindow with
    | some svc =>
      rw [window] at loaded
      exact mem_buildMessages loaded mem
    | none =>
      rw [window] at loaded
      cases fault with
      | some cause => cases loaded
      | none =>
        rw [← Except.ok.inj loaded] at mem
        obtain ⟨m, listed, rfl⟩ := List.mem_map.mp mem
        exact ⟨m, (mem_conversationMessages.mp (List.mem_of_mem_take listed)).1, rfl⟩
  rw [List.all_eq_true]
  intro c mem
  obtain ⟨m, row, rfl⟩ := stored c mem
  obtain ⟨role, content⟩ := readable m row
  simp [validChatMessage, toChatMessage, role, content]

theorem resolveResourceIDs_wellScoped {cfg : QaServiceConfig} {resources : LiveResources}
    {fault : Option String} {conversation : Conversation} {userID : ℕ} {ids : List Text}
    (scope : WellScoped (conversation.resourceIDs.getD []))
    (resolved : resolveResourceIDs cfg resources fault conversation userID = .ok ids) :
    WellScoped ids := by
  unfold resolveResourceIDs at resolved
  dsimp only at resolved
  split at resolved
  · rw [← Except.ok.inj resolved]
    exact scope
  · cases fault with
    | some cause => cases resolved
    | none =>
      rw [← Except.ok.inj resolved]
      constructor
      · rw [List.length_map]
        refine Nat.le_trans (List.length_filter_le _ _) ?_
        exact List.length_take_le _ _
      · intro id mem
        obtain ⟨r, kept, rfl⟩ := List.mem_map.mp mem
        have listed := List.mem_of_mem_take (List.mem_filter.mp kept).1
        rw [List.mem_insertionSort] at listed
        exact LiveResources.uuid_named (List.mem_filter.mp listed).1

theorem uuid_isEmpty (u : Uuid) : u.val.isEmpty = false := by
  have some := PythonText.ne_nil_of_not_blank u.property
  simpa using some

theorem decimal_isEmpty (n : ℕ) : (PythonText.decimal n).isEmpty = false := by
  have some : PythonText.decimal n ≠ [] := Nat.toDigits_ne_nil
  simpa using some

theorem getByUUIDAndUserID_mem {conversations : ConversationTable} {fault : Option String}
    {uuid : Text} {userID : ℕ} {c : Conversation}
    (found : getByUUIDAndUserID conversations fault uuid userID = .ok c) :
    c ∈ conversations.rows := by
  unfold getByUUIDAndUserID at found
  split at found
  · cases found
  · split at found
    · cases found
    · rename_i row first
      split at found
      · cases found
      · rw [← Except.ok.inj found]
        exact Table.mem_of_first first

/-- `Ask` leaves the server as it was, or it saves a question that is not empty, of a
stored conversation; a request is built from what was read. -/
theorem prepare_cases (cfg : QaServiceConfig) (s : Server) (io : AskIO) (userID : ℕ)
    (conversationUUID question : Text) :
    (∃ e, prepare cfg s io userID conversationUUID question = (.error e, s)) ∨
    ∃ conversation ∈ s.conversations.rows, trimSpace question ≠ [] ∧
      byteLength question ≤ maxQuestionLength ∧
      (prepare cfg s io userID conversationUUID question).2 =
        (saveUserMessageAndTitle cfg s io.save conversation
          (userDraft conversation io question)).2 ∧
      ∀ req ∈ (prepare cfg s io userID conversationUUID question).1.toOption.map Prod.fst,
        ∃ history ids, loadHistory cfg s.messages io.listMessages conversation question =
            .ok history ∧
          resolveResourceIDs cfg s.resources io.listResources conversation userID = .ok ids ∧
          req = ⟨question, conversation.uuid, io.assistantMessageUUID,
            PythonText.decimal userID, ids, history⟩ := by
  unfold prepare
  split
  · exact .inl ⟨_, rfl⟩
  · rename_i accepted
    have asked : trimSpace question ≠ [] ∧ byteLength question ≤ maxQuestionLength := by
      rw [not_or, not_lt] at accepted
      exact accepted
    split
    · exact .inl ⟨_, rfl⟩
    · rename_i conversation found
      have row := getByUUIDAndUserID_mem found
      split
      · exact .inl ⟨_, rfl⟩
      · rename_i history loaded
        right
        refine ⟨conversation, row, asked.1, asked.2, ?_⟩
        split
        · rename_i saved
          rw [saved]
          exact ⟨rfl, nofun⟩
        · rename_i saved
          rw [saved]
          dsimp only
          split
          · exact ⟨rfl, nofun⟩
          · rename_i ids resolved
            refine ⟨rfl, fun req mem => ⟨history, ids, loaded, resolved, ?_⟩⟩
            exact (Option.some.inj mem).symm

theorem prepare_valid {cfg : QaServiceConfig} {s : Server} (sound : Sound s) (io : AskIO)
    (userID : ℕ) (conversationUUID question : Text) :
    ∀ req ∈ (prepare cfg s io userID conversationUUID question).1.toOption.map Prod.fst,
      validAgentRunRequest req = true := by
  intro req mem
  rcases prepare_cases cfg s io userID conversationUUID question with
    ⟨e, refused⟩ | ⟨conversation, row, asked, short, -, built⟩
  · rw [refused] at mem
    cases mem
  · obtain ⟨history, ids, loaded, resolved, rfl⟩ := built req mem
    have readable := loadHistory_readable sound.messages loaded
    obtain ⟨few, named⟩ := resolveResourceIDs_wellScoped (sound.scopes conversation row) resolved
    have some : question ≠ [] := ne_nil_of_trimSpace asked
    have length : question.length ≤ 2000 := Nat.le_trans (length_le_byteLength question) short
    have scope : ids.all (fun rid => !PythonText.isBlank rid) = true := by
      rw [List.all_eq_true]
      intro id mem
      rw [named id mem]
      rfl
    simp only [validAgentRunRequest, uuid_isEmpty, decimal_isEmpty, readable, scope]
    simp [some, length, few]

theorem insertDraft_readable {db : Messages} {now : ℤ} {d : Draft} (role : d.role ≠ [])
    (content : d.content ≠ []) (before : ∀ m ∈ db.rows, Readable m) :
    ∀ m ∈ (insertDraft db now d).rows, Readable m := by
  intro m mem
  rcases Table.mem_insert.mp mem with old | rfl
  · exact before m old
  · exact ⟨role, content⟩

theorem titled_scopes {conversations : ConversationTable} {conversation : Conversation}
    {question : Text} (before : ∀ c ∈ conversations.rows, WellScoped (c.resourceIDs.getD [])) :
    ∀ c ∈ (titled conversations conversation question).rows,
      WellScoped (c.resourceIDs.getD []) := by
  unfold titled
  split
  · intro c mem
    obtain ⟨old, row, rfl⟩ := Table.mem_update.mp mem
    unfold Table.touch
    split
    · exact before old row
    · exact before old row
  · exact before

theorem Sound.saveUserMessage {cfg : QaServiceConfig} {s : Server} (sound : Sound s) (io : SaveIO)
    (conversation : Conversation) {draft : Draft} (role : draft.role ≠ [])
    (content : draft.content ≠ []) :
    Sound (saveUserMessageAndTitle cfg s io conversation draft).2 := by
  have messages := @insertDraft_readable s.messages io.now draft role content sound.messages
  have scopes := @titled_scopes s.conversations conversation draft.content sound.scopes
  unfold saveUserMessageAndTitle
  split
  · exact sound
  · dsimp only
    split
    · split
      · exact sound
      · split
        · exact sound
        · exact ⟨messages, scopes, sound.streams⟩
    · split
      · exact ⟨messages, sound.scopes, sound.streams⟩
      · exact ⟨messages, scopes, sound.streams⟩

theorem Sound.prepare {cfg : QaServiceConfig} {s : Server} (sound : Sound s) (io : AskIO)
    (userID : ℕ) (conversationUUID question : Text) :
    Sound (prepare cfg s io userID conversationUUID question).2 := by
  rcases prepare_cases cfg s io userID conversationUUID question with
    ⟨e, refused⟩ | ⟨conversation, -, asked, -, saved, -⟩
  · rw [refused]
    exact sound
  · rw [saved]
    exact sound.saveUserMessage io.save conversation (by decide : "user".toList ≠ [])
      (ne_nil_of_trimSpace asked)

theorem Sound.ask {cfg : QaServiceConfig} {s : Server} (sound : Sound s) (io : AskIO)
    (userID : ℕ) (conversationUUID question : Text) :
    Sound (ask cfg s io userID conversationUUID question).2 := by
  have prepared := @Sound.prepare cfg s sound io userID conversationUUID question
  unfold QaService.ask
  split
  · rename_i result
    rw [result] at prepared
    exact prepared
  · rename_i result
    rw [result] at prepared
    split
    · exact prepared
    · refine ⟨prepared.messages, prepared.scopes, fun o mem => ?_⟩
      rcases List.mem_append.mp mem with old | new
      · exact prepared.streams o old
      · rw [List.mem_singleton.mp new]
        rfl

theorem create_scopes {defaultTitle : Text} {resources : LiveResources}
    {conversations : ConversationTable} {io : CreateIO} {userID : ℕ}
    {req : CreateConversationRequest}
    (before : ∀ c ∈ conversations.rows, WellScoped (c.resourceIDs.getD [])) :
    ∀ c ∈ (create defaultTitle resources conversations io userID req).2.rows,
      WellScoped (c.resourceIDs.getD []) := by
  unfold create
  cases valid : validateCreateConversationRequest resources io req userID with
  | error e => exact before
  | ok _ =>
    have scope := validateCreate_wellScoped valid
    dsimp only
    split
    · exact before
    · intro c mem
      dsimp only at mem
      rcases Table.mem_insert.mp mem with old | rfl
      · exact before c old
      · by_cases none : req.resourceIDs = []
        · simp only [newConversation, none, if_true, Option.getD_none]
          exact wellScoped_nil
        · simpa only [newConversation, none, if_false, Option.getD_some] using scope

theorem saveAnswer_readable {cfg : QaConfig} {messages : Messages} {io : SaveIO}
    {draft : Option Draft} (spoken : ∀ d ∈ draft, d.role ≠ [] ∧ d.content ≠ [])
    (before : ∀ m ∈ messages.rows, Readable m) :
    ∀ m ∈ (saveAnswer cfg messages io draft).rows, Readable m := by
  cases draft with
  | none => exact before
  | some d =>
    obtain ⟨role, content⟩ := spoken d rfl
    simp only [saveAnswer]
    rcases saveAssistantMessage_cases cfg messages io d with ⟨cause, result⟩ | ⟨failure, result⟩
    · rw [result]
      exact before
    · rw [result]
      exact insertDraft_readable role content before

theorem saveAssistant_spoken {cfg : QaConfig} {turn : Turn} {sent : List SSEEvent} {d : Draft}
    (said : spoken sent = true) (saved : saveAssistant cfg turn (accumulatedOf sent) = some d) :
    d.role ≠ [] ∧ d.content ≠ [] := by
  have content := (saveAssistant_content saved).1
  have some : ¬ (accumulatedOf sent).IsEmpty := by
    rw [← @saveAssistant_isSome cfg turn, saved]
    rfl
  have answered : answerOf sent ≠ [] := by
    intro silent
    have quiet : reasoningOf sent = [] ∧ citationsOf sent = [] := by
      simpa [spoken, silent] using said
    exact some ⟨silent, quiet⟩
  refine ⟨?_, fun empty => answered (content.symm.trans empty)⟩
  unfold saveAssistant at saved
  split at saved
  · cases saved
  · rw [← Option.some.inj saved]
    exact (by decide : "assistant".toList ≠ [])

theorem sound_step (cfg : QaServiceConfig) (defaultTitle : Text) (s : Server) (e : Event)
    (sound : Sound s) (guard : StopsSpoken cfg s e) : Sound (step cfg defaultTitle s e) := by
  cases e with
  | resources live => exact ⟨sound.messages, sound.scopes, sound.streams⟩
  | create io userID req => exact ⟨sound.messages, create_scopes sound.scopes, sound.streams⟩
  | createMessage io userID conversationUUID req =>
    exact ⟨createMessage_readable sound.messages, sound.scopes, sound.streams⟩
  | ask io userID conversationUUID question =>
    exact sound.ask io userID conversationUUID question
  | stream i e io =>
    simp only [step]
    cases at_i : s.streams[i]? with
    | none => exact sound
    | some o =>
      have moves := next_moves cfg.stream o.turn o.stream e
      have mem : o ∈ s.streams := List.mem_of_getElem? at_i
      have acc := sound.streams o mem
      have forwards := guard o at_i
      unfold forwarded at forwards
      dsimp only
      generalize next cfg.stream o.turn o.stream e = moved at moves forwards
      obtain ⟨stream, draft⟩ := moved
      dsimp only at moves forwards ⊢
      have kept : stream.acc = accumulatedOf stream.out.sent := by
        cases moves with
        | quiet same sent phase => rw [same, sent, acc]
        | forwards ev running added sent more phase =>
          rw [added, sent, accumulatedOf_append, acc]
        | ends ev running added sent phase => rw [added, sent, accumulatedOf_append, acc]
        | stops running same sent phase => rw [same, sent, acc]
      have said : ∀ d ∈ draft, d.role ≠ [] ∧ d.content ≠ [] := by
        intro d saved
        cases moves with
        | quiet same sent phase => cases saved
        | forwards ev running added sent more phase => cases saved
        | ends ev running added sent phase =>
          rw [kept] at saved
          exact saveAssistant_spoken (forwards phase) saved
        | stops running same sent phase =>
          rw [kept] at saved
          exact saveAssistant_spoken (forwards phase) saved
      refine ⟨saveAnswer_readable said sound.messages, sound.scopes, fun o' mem' => ?_⟩
      rcases List.mem_or_eq_of_mem_set mem' with old | rfl
      · exact sound.streams o' old
      · exact kept

/-- Every request of a run is valid for the AI service, as long as every stream that
stops has forwarded part of an answer or nothing that is saved. -/
theorem builds_valid (cfg : QaServiceConfig) (defaultTitle : Text) (live : LiveResources)
    (es : List Event)
    (spoken : EveryStep (step cfg defaultTitle) (StopsSpoken cfg) (opened live) es) :
    EveryStep (step cfg defaultTitle) (BuildsValid cfg) (opened live) es := by
  refine everyStep_of_guard (sound_step cfg defaultTitle) ?_ (sound_opened live) spoken
  intro s e sound _ req mem
  cases e with
  | ask io userID conversationUUID question =>
    exact prepare_valid sound io userID conversationUUID question req mem
  | resources live => cases mem
  | create io userID req' => cases mem
  | createMessage io userID conversationUUID req' => cases mem
  | stream i e io => cases mem

theorem saveUserMessageAndTitle_cases (cfg : QaServiceConfig) (s : Server) (io : SaveIO)
    (conversation : Conversation) (draft : Draft) :
    (∃ cause, saveUserMessageAndTitle cfg s io conversation draft = (some cause, s)) ∨
    ∃ failure saved, saveUserMessageAndTitle cfg s io conversation draft = (failure, saved) ∧
      saved.messages = insertDraft s.messages io.now draft ∧ saved.streams = s.streams := by
  unfold saveUserMessageAndTitle
  split
  · exact .inl ⟨_, rfl⟩
  · dsimp only
    split
    · split
      · exact .inl ⟨_, rfl⟩
      · split
        · exact .inl ⟨_, rfl⟩
        · exact .inr ⟨_, _, rfl, rfl, rfl⟩
    · split
      · exact .inr ⟨_, _, rfl, rfl, rfl⟩
      · exact .inr ⟨_, _, rfl, rfl, rfl⟩

/-- The message of a question is the only row that is stored for it. -/
structure Stores (before after : Messages) : Prop where
  row : ∃ m : Message, m.id = before.next ∧ after.rows = before.rows ++ [m]
  next : after.next = before.next + 1

theorem stores_insert (db : Messages) (now : ℤ) (d : Draft) : Stores db (insertDraft db now d) :=
  ⟨⟨d.message now db.next, rfl, rfl⟩, rfl⟩

theorem prepare_stores (cfg : QaServiceConfig) (s : Server) (io : AskIO) (userID : ℕ)
    (conversationUUID question : Text) :
    (∃ e saved, prepare cfg s io userID conversationUUID question = (.error e, saved) ∧
      saved.streams = s.streams ∧
      (saved.messages = s.messages ∨ Stores s.messages saved.messages)) ∨
    ∃ request turn saved, prepare cfg s io userID conversationUUID question =
        (.ok (request, turn), saved) ∧
      saved.streams = s.streams ∧ Stores s.messages saved.messages ∧
      turn.userMessageID = s.messages.next := by
  unfold prepare
  split
  · exact .inl ⟨_, _, rfl, rfl, .inl rfl⟩
  · split
    · exact .inl ⟨_, _, rfl, rfl, .inl rfl⟩
    · rename_i conversation _
      split
      · exact .inl ⟨_, _, rfl, rfl, .inl rfl⟩
      · rcases saveUserMessageAndTitle_cases cfg s io.save conversation
          (userDraft conversation io question) with
          ⟨cause, refused⟩ | ⟨failure, saved, result, messages, streams⟩
        · rw [refused]
          exact .inl ⟨_, _, rfl, rfl, .inl rfl⟩
        · have stores : Stores s.messages saved.messages := by
            rw [messages]
            exact stores_insert _ _ _
          rw [result]
          cases failure with
          | some cause => exact .inl ⟨_, _, rfl, streams, .inr stores⟩
          | none =>
            dsimp only
            split
            · exact .inl ⟨_, _, rfl, streams, .inr stores⟩
            · exact .inr ⟨_, _, _, rfl, streams, stores, rfl⟩

/-- `Ask` stores one row at most, and a stream that it starts is for that row. -/
inductive Asks (s : Server) : Except AppError QARequest × Server → Prop
  | refuses (e : AppError) (saved : Server) (streams : saved.streams = s.streams)
      (messages : saved.messages = s.messages ∨ Stores s.messages saved.messages) :
      Asks s (.error e, saved)
  | opens (request : QARequest) (turn : Turn) (saved : Server)
      (messages : Stores s.messages saved.messages) (row : turn.userMessageID = s.messages.next)
      (streams : saved.streams = s.streams ++ [⟨turn, QaStream.opened⟩]) :
      Asks s (.ok request, saved)

theorem ask_asks (cfg : QaServiceConfig) (s : Server) (io : AskIO) (userID : ℕ)
    (conversationUUID question : Text) :
    Asks s (ask cfg s io userID conversationUUID question) := by
  unfold ask
  rcases prepare_stores cfg s io userID conversationUUID question with
    ⟨e, saved, result, streams, messages⟩ |
    ⟨request, turn, saved, result, streams, messages, row⟩
  · rw [result]
    exact .refuses e saved streams messages
  · rw [result]
    dsimp only
    split
    · exact .refuses _ saved streams (.inr messages)
    · refine .opens request turn _ messages row ?_
      dsimp only
      rw [streams]

/-- Rows are never taken away. -/
theorem step_rows (cfg : QaServiceConfig) (defaultTitle : Text) (s : Server) (e : Event) :
    (∃ added, (step cfg defaultTitle s e).messages.rows = s.messages.rows ++ added) ∧
      s.messages.next ≤ (step cfg defaultTitle s e).messages.next := by
  have same : (∃ added, s.messages.rows = s.messages.rows ++ added) ∧
      s.messages.next ≤ s.messages.next := ⟨⟨[], by rw [List.append_nil]⟩, le_rfl⟩
  have stored {after : Messages} (stores : Stores s.messages after) :
      (∃ added, after.rows = s.messages.rows ++ added) ∧ s.messages.next ≤ after.next := by
    obtain ⟨m, -, rows⟩ := stores.row
    exact ⟨⟨[m], rows⟩, by rw [stores.next]; exact Nat.le_succ _⟩
  cases e with
  | resources live => exact same
  | create io userID req => exact same
  | createMessage io userID conversationUUID req =>
    simp only [step, createMessage]
    split
    · exact same
    · split
      · exact same
      · split
        · exact same
        · exact ⟨⟨_, rfl⟩, Nat.le_succ _⟩
  | ask io userID conversationUUID question =>
    have asks := ask_asks cfg s io userID conversationUUID question
    simp only [step]
    generalize ask cfg s io userID conversationUUID question = result at asks
    cases asks with
    | refuses e saved streams messages =>
      rcases messages with unchanged | stores
      · rw [unchanged]
        exact same
      · exact stored stores
    | opens request turn saved stores => exact stored stores
  | stream i e io =>
    simp only [step]
    split
    · exact same
    · rename_i o _
      dsimp only
      cases (next cfg.stream o.turn o.stream e).2 with
      | none => exact same
      | some d =>
        simp only [saveAnswer]
        rcases saveAssistantMessage_cases cfg.stream s.messages io d with
          ⟨cause, result⟩ | ⟨failure, result⟩
        · rw [result]
          exact same
        · rw [result]
          exact stored (stores_insert _ _ _)

inductive Streams (cfg : QaServiceConfig) (s : Server) (e : Event) (later : ℕ) :
    List OpenStream → Prop
  | same : Streams cfg s e later s.streams
  | opens (turn : Turn) (row : turn.userMessageID = s.messages.next)
      (stored : later = s.messages.next + 1) :
      Streams cfg s e later (s.streams ++ [⟨turn, QaStream.opened⟩])
  | moves (i : ℕ) (o : OpenStream) (event : QaStream.Event) (io : SaveIO)
      (found : s.streams[i]? = some o) (is : e = .stream i event io) :
      Streams cfg s e later
        (s.streams.set i { o with stream := (next cfg.stream o.turn o.stream event).1 })

theorem step_streams (cfg : QaServiceConfig) (defaultTitle : Text) (s : Server) (e : Event) :
    Streams cfg s e (step cfg defaultTitle s e).messages.next
      (step cfg defaultTitle s e).streams := by
  cases e with
  | resources live => exact .same
  | create io userID req => exact .same
  | createMessage io userID conversationUUID req => exact .same
  | ask io userID conversationUUID question =>
    have asks := ask_asks cfg s io userID conversationUUID question
    simp only [step]
    generalize ask cfg s io userID conversationUUID question = result at asks
    cases asks with
    | refuses e saved streams messages =>
      rw [streams]
      exact .same
    | opens request turn saved messages row streams =>
      rw [streams]
      exact .opens turn row messages.next
  | stream i event io =>
    simp only [step]
    cases found : s.streams[i]? with
    | none => exact .same
    | some o => exact .moves i o event io found rfl

/-- Rows and streams stay where they are; a reader finds what it has read, and a stream that has
stopped as it was. -/
structure Grows (s s' : Server) : Prop where
  rows : s.messages.rows <+: s'.messages.rows
  stream : ∀ (j : ℕ) (o : OpenStream), s.streams[j]? = some o → ∃ o', s'.streams[j]? = some o' ∧
    o'.turn = o.turn ∧ o.stream.out.received <+: o'.stream.out.received ∧
    (o.stream.phase = .finished →
      o'.stream.phase = .finished ∧ o'.stream.out.sent = o.stream.out.sent)

theorem Asks.grows {s : Server} {result : Except AppError QARequest × Server} (h : Asks s result) :
    Grows s result.2 := by
  have stored {after : Messages} (stores : Stores s.messages after) :
      s.messages.rows <+: after.rows := by
    obtain ⟨m, -, rows⟩ := stores.row
    exact ⟨[m], rows.symm⟩
  cases h with
  | refuses e saved streams messages =>
    refine ⟨?_, fun j o at_j => ⟨o, ?_, rfl, List.prefix_rfl, fun stopped => ⟨stopped, rfl⟩⟩⟩
    · rcases messages with unchanged | stores
      · rw [unchanged]
      · exact stored stores
    · rw [streams]
      exact at_j
  | opens request turn saved messages row streams =>
    refine ⟨stored messages,
      fun j o at_j => ⟨o, ?_, rfl, List.prefix_rfl, fun stopped => ⟨stopped, rfl⟩⟩⟩
    have inside : j < s.streams.length := (List.getElem?_eq_some_iff.mp at_j).1
    rw [streams, List.getElem?_append_left inside]
    exact at_j

theorem step_grows (cfg : QaServiceConfig) (defaultTitle : Text) (s : Server) (e : Event) :
    Grows s (step cfg defaultTitle s e) := by
  obtain ⟨⟨added, rows⟩, -⟩ := step_rows cfg defaultTitle s e
  refine ⟨⟨added, rows.symm⟩, fun j o at_j => ?_⟩
  have streams := step_streams cfg defaultTitle s e
  generalize (step cfg defaultTitle s e).streams = after at streams
  cases streams with
  | same => exact ⟨o, at_j, rfl, List.prefix_rfl, fun stopped => ⟨stopped, rfl⟩⟩
  | opens turn row stored =>
    have inside : j < s.streams.length := (List.getElem?_eq_some_iff.mp at_j).1
    refine ⟨o, ?_, rfl, List.prefix_rfl, fun stopped => ⟨stopped, rfl⟩⟩
    rw [List.getElem?_append_left inside]
    exact at_j
  | moves i o' event io found is =>
    have inside : j < s.streams.length := (List.getElem?_eq_some_iff.mp at_j).1
    by_cases here : i = j
    · rw [here] at found ⊢
      rw [at_j, Option.some.injEq] at found
      rw [← found, List.getElem?_set_self inside]
      exact ⟨_, rfl, rfl, received_next event, finished_next event⟩
    · rw [List.getElem?_set_ne here]
      exact ⟨o, at_j, rfl, List.prefix_rfl, fun stopped => ⟨stopped, rfl⟩⟩

def uuidOf (name : String) (plain : PythonText.isBlank name.toList = false) : Uuid :=
  ⟨name.toList, plain⟩

def courseUUID : Uuid := uuidOf "0d2b1c9e-5a41-4f0e-8a55-3b7f6c1d2e90" (by decide)

def noResources : LiveResources :=
  .exact [] List.nodup_nil fun _ mem => absurd mem List.not_mem_nil

/-- The service as `main` wires it; citations are not looked at. -/
def mainConfig : QaServiceConfig :=
  ⟨⟨fun _ => .ok "[]".toList, true⟩, some (newContextWindowService 20 4096), true⟩

def openCourse : Event := .create { uuid := courseUUID } 1 ⟨"Linear algebra".toList, [], none⟩

def firstQuestion : Event :=
  .ask
    { userMessageUUID := uuidOf "5c7e1a44-6f0b-4d0e-9f2c-1a8e4b7d3c01" (by decide)
      assistantMessageUUID := uuidOf "5c7e1a44-6f0b-4d0e-9f2c-1a8e4b7d3c02" (by decide) }
    1 courseUUID "why?".toList

def secondQuestion : Event :=
  .ask
    { userMessageUUID := uuidOf "5c7e1a44-6f0b-4d0e-9f2c-1a8e4b7d3c03" (by decide)
      assistantMessageUUID := uuidOf "5c7e1a44-6f0b-4d0e-9f2c-1a8e4b7d3c04" (by decide) }
    1 courseUUID "and?".toList

def streamEvent (event data : String) : SSEEvent :=
  ⟨event.toList, data.toList, AiClient.rawEvent event.toList data.toList⟩

def forward (ev : SSEEvent) : List Event :=
  [.stream 0 (.arrive ev) {}, .stream 0 .takeEvent {}, .stream 0 .send {}]

def reasoningDelta : SSEEvent := streamEvent "reasoning" "\x7b\"delta\": \"hm\"\x7d"

def chunkDelta : SSEEvent := streamEvent "chunk" "\x7b\"delta\": \"yes\"\x7d"

def cancelledTurn : List Event :=
  [openCourse, firstQuestion] ++ forward reasoningDelta ++
    [.stream 0 .cancel {}, .stream 0 .takeCancel {}, secondQuestion]

/-- The saved message without content makes the next request invalid. -/
theorem cancelledTurn_invalid :
    ¬ EveryStep (step mainConfig "新会话".toList) (BuildsValid mainConfig) (opened noResources)
      cancelledTurn := by
  decide +kernel

def answeredTurn : List Event :=
  [openCourse, firstQuestion] ++ forward reasoningDelta ++ forward chunkDelta ++
    [.stream 0 .cancel {}, .stream 0 .takeCancel {}, secondQuestion]

theorem builds_valid_answeredTurn :
    EveryStep (step mainConfig "新会话".toList) (BuildsValid mainConfig) (opened noResources)
      answeredTurn :=
  builds_valid mainConfig "新会话".toList noResources answeredTurn (by decide +kernel)

end KnowledgeCompanion.QaService
