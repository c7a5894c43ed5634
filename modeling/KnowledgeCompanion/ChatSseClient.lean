import KnowledgeCompanion.ChatNotifier
import KnowledgeCompanion.QaService

/-! One `ask()` of the native client (`remote/chat_sse_client_default.dart`,
`remote/chat_event_parser.dart`) beside the gateway and the notifier that shows the
answer: attempts, their subscriptions and the polling run between the steps of the gateway. -/

namespace KnowledgeCompanion.ChatSseClient

open AppErrors AiClient ChatNotifier Conversations JsonText MessageRecords QaService

/-- A JSON object as a `Map<String, dynamic>`. -/
abbrev Members := List (Text × Json)

def eventTypeOf (name : Text) : ChatEventType :=
  if name = "chunk".toList then .chunk
  else if name = "reasoning".toList then .reasoning
  else if name = "citation".toList then .citation
  else if name = "done".toList then .done
  else if name = "error".toList then .error
  else .other name

/-- `json[key] as String?`, `none` where the cast throws. -/
def stringMember (json : Members) (key : String) : Option (Option Text) :=
  match member json key.toList with
  | none => some none
  | some .null => some none
  | some (.string s) => some (some s)
  | some _ => none

def boolMember (json : Members) (key : String) : Option (Option Bool) :=
  match member json key.toList with
  | none => some none
  | some .null => some none
  | some (.bool b) => some (some b)
  | some _ => none

def mapMember (json : Members) (key : String) : Option (Option Members) :=
  match member json key.toList with
  | none => some none
  | some .null => some none
  | some (.object members) => some (some members)
  | some _ => none

/-- `json['error_code'] as String? ?? json['code'] as String?`. -/
def errorCodeMember (json : Members) : Option (Option Text) :=
  match stringMember json "error_code" with
  | some none => stringMember json "code"
  | errorCode => errorCode

def citationMember (parseCitation : Members → Option (Option ChatNotifier.Citation))
    (json : Members) (type : ChatEventType) : Option (Option ChatNotifier.Citation) :=
  if type = .citation then parseCitation json else some none

/-- `parseCitation` is `_parseCitation`, `none` where it throws. -/
def buildEvent (parseCitation : Members → Option (Option ChatNotifier.Citation)) (json : Members)
    (eventType : Text) : Option ChatEvent := do
  let _ ← mapMember json "metadata"
  let messageID ← stringMember json "message_id"
  let conversationID ← stringMember json "conversation_id"
  let delta ← stringMember json "delta"
  let citation ← citationMember parseCitation json (eventTypeOf eventType)
  let finishReason ← stringMember json "finish_reason"
  let errorCode ← errorCodeMember json
  let message ← stringMember json "message"
  let traceID ← stringMember json "trace_id"
  let retryable ← boolMember json "retryable"
  return {
    type := eventTypeOf eventType
    messageID := messageID.getD []
    conversationID
    delta := if eventTypeOf eventType = .reasoning then none else delta
    reasoningDelta := if eventTypeOf eventType = .reasoning then delta else none
    citation
    finishReason
    errorCode
    errorMessage := message
    traceID
    retryable := retryable.getD false }

def parseEventData (parseCitation : Members → Option (Option ChatNotifier.Citation))
    (eventType data : Text) : Option ChatEvent :=
  if data = [] then none
  else
    match unmarshal data with
    | some (.object json) => buildEvent parseCitation json eventType
    | _ => none

def mapMessage (m : MessageRecords.Message) : Members :=
  [("id".toList, .string m.uuid), ("role".toList, .string m.role),
    ("content".toList, .string m.content)]

/-- The first page of `GET /conversations/:id/messages`. -/
def listMessages (s : Server) (userID : ℕ) (conversationUUID : Text) : Option (List Members) :=
  match getByUUIDAndUserID s.conversations none conversationUUID userID with
  | .error _ => none
  | .ok conversation =>
    some (((conversationMessages s.messages conversation.id).take 20).map mapMessage)

structure PolledMessage where
  id : Text
  content : Text
  isStreaming : Bool

def parseAssistantMessage (raw : Members) : Option PolledMessage := do
  let id ← stringMember raw "message_id"
  let content ← stringMember raw "content"
  let isStreaming ← boolMember raw "is_streaming"
  return ⟨id.getD [], content.getD [], isStreaming.getD false⟩

def isAssistant (raw : Members) : Bool :=
  stringMember raw "role" == some (some "assistant".toList)

def parseLastAssistantMessage (data : List Members) : Option PolledMessage :=
  (data.reverse.find? isAssistant).bind parseAssistantMessage

def maxReconnectAttempts : ℕ := 5

/-- One call of `attemptSse` with its subscription, or the poll timer that it starts. -/
inductive Run
  | starting (attempt : ℕ)
  | answering (attempt : ℕ) (reply : Except AppError ℕ)
  | listening (attempt : ℕ) (stream read : ℕ) (broken : Bool)
  | polling
  | ended

def retried (attempt : ℕ) : Run :=
  if maxReconnectAttempts < attempt + 1 then .polling else .starting (attempt + 1)

structure AskConfig where
  service : QaServiceConfig
  defaultTitle : Text
  parseCitation : Members → Option (Option ChatNotifier.Citation)
  userID : ℕ
  conversationUUID : Text
  question : Text

/-- `closed` is the stream that `ask` returns; `asked` holds the ids of the user messages
that its requests have stored. -/
structure System where
  server : Server
  chat : ChatState
  runs : List Run
  closed : Bool
  asked : List ℕ

/-- What the gateway, the transport and the clients of the gateway do, where `i` is a run. -/
inductive Event
  | server (e : QaService.Event)
  | reach (i : ℕ) (io : AskIO)
  | refuse (i : ℕ) (e : AppError)
  | fail (i : ℕ)
  | respond (i : ℕ)
  | deliver (i : ℕ)
  | breaks (i : ℕ)
  | finish (i : ℕ)
  | poll (i : ℕ)

def handleAsk (cfg : AskConfig) (s : Server) (io : AskIO) : Except AppError QARequest × Server :=
  if cfg.question = [] ∨ 2000 < cfg.question.length then
    (.error ⟨400, codeValidationError, "invalid request body"⟩, s)
  else ask cfg.service s io cfg.userID cfg.conversationUUID cfg.question

/-- An event on the stream that `ask` returns; a closed one takes no more. -/
def emit (event : ChatEvent) (s : System) : System :=
  if s.closed then s else { s with chat := handleEvent event s.chat }

def close (s : System) : System :=
  if s.closed then s else { s with closed := true, chat := stopStreaming none s.chat }

def errorEvent (conversationUUID : Text) (code message : String) : ChatEvent where
  type := .error
  messageID := []
  conversationID := some conversationUUID
  errorCode := some code.toList
  errorMessage := some message.toList

def respondError (cfg : AskConfig) (i attempt : ℕ) (e : AppError) (s : System) : System :=
  if e.status = 401 ∨ e.status = 403 then
    close (emit (errorEvent cfg.conversationUUID "UNAUTHORIZED" "Authentication failed")
      { s with runs := s.runs.set i .ended })
  else if e.status < 500 then
    close (emit (errorEvent cfg.conversationUUID ("HTTP_" ++ toString e.status)
      ("SSE request failed: " ++ toString e.status)) { s with runs := s.runs.set i .ended })
  else { s with runs := s.runs.set i (if s.closed then .ended else retried attempt) }

def nextEvent (s : Server) (stream read : ℕ) : Option SSEEvent :=
  s.streams[stream]?.bind fun o => o.stream.out.received[read]?

def complete (s : Server) (stream read : ℕ) : Bool :=
  match s.streams[stream]? with
  | none => false
  | some o =>
    decide (o.stream.phase = .finished) && o.stream.out.buffer.isEmpty &&
      read == o.stream.out.received.length

def decode (cfg : AskConfig) (ev : SSEEvent) : Option ChatEvent :=
  parseEventData cfg.parseCitation ev.event ev.data

def take (cfg : AskConfig) (ev : SSEEvent) (s : System) : System :=
  match decode cfg ev with
  | none => s
  | some event => if event.isTerminal then close (emit event s) else emit event s

def polled (cfg : AskConfig) (s : Server) : Option PolledMessage :=
  (listMessages s cfg.userID cfg.conversationUUID).bind parseLastAssistantMessage

def polledChunk (cfg : AskConfig) (m : PolledMessage) : ChatEvent where
  type := .chunk
  messageID := m.id
  conversationID := some cfg.conversationUUID
  delta := some m.content

def showPolled (cfg : AskConfig) (m : PolledMessage) (s : System) : System :=
  let s := emit (polledChunk cfg m) s
  if m.isStreaming then s
  else
    close (emit { type := .done, messageID := m.id, conversationID := some cfg.conversationUUID } s)

def step (cfg : AskConfig) (s : System) : Event → System
  | .server e => { s with server := QaService.step cfg.service cfg.defaultTitle s.server e }
  | .reach i io =>
    match s.runs[i]? with
    | some (.starting attempt) =>
      let handled := handleAsk cfg s.server io
      { s with
        server := handled.2
        runs := s.runs.set i (.answering attempt (handled.1.map fun _ => s.server.streams.length))
        asked := s.asked ++
          (handled.2.messages.rows.drop s.server.messages.rows.length).map
            MessageRecords.Message.id }
    | _ => s
  | .refuse i e =>
    match s.runs[i]? with
    | some (.starting attempt) => { s with runs := s.runs.set i (.answering attempt (.error e)) }
    | _ => s
  | .fail i =>
    match s.runs[i]? with
    | some (.starting attempt) =>
      { s with runs := s.runs.set i (if s.closed then .ended else retried attempt) }
    | some (.answering attempt _) =>
      { s with runs := s.runs.set i (if s.closed then .ended else retried attempt) }
    | _ => s
  | .respond i =>
    match s.runs[i]? with
    | some (.answering attempt (.ok stream)) =>
      { s with runs := s.runs.set i (.listening attempt stream 0 false) }
    | some (.answering attempt (.error e)) => respondError cfg i attempt e s
    | _ => s
  | .deliver i =>
    match s.runs[i]? with
    | some (.listening attempt stream read broken) =>
      match nextEvent s.server stream read with
      | none => s
      | some ev =>
        take cfg ev { s with runs := s.runs.set i (.listening attempt stream (read + 1) broken) }
    | _ => s
  | .breaks i =>
    match s.runs[i]? with
    | some (.listening attempt stream read _) =>
      { s with
        runs := s.runs.set i (.listening attempt stream read true) ++
          if s.closed then [] else [retried attempt] }
    | _ => s
  | .finish i =>
    match s.runs[i]? with
    | some (.listening _ stream read broken) =>
      if broken || complete s.server stream read then
        close { s with runs := s.runs.set i .ended }
      else s
    | _ => s
  | .poll i =>
    match s.runs[i]? with
    | some .polling =>
      if s.closed then { s with runs := s.runs.set i .ended }
      else
        match polled cfg s.server with
        | none => s
        | some m => showPolled cfg m s
    | _ => s

def start (cfg : AskConfig) (server : Server) (chat : ChatState) : System :=
  ⟨server, sent cfg.conversationUUID cfg.question chat, [.starting 0], false, []⟩

end KnowledgeCompanion.ChatSseClient
