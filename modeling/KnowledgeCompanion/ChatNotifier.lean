import KnowledgeCompanion.MarkerText
import KnowledgeCompanion.Text

/-! The messages that the client shows (`domain/entities/message.dart`) and the notifier
of one conversation (`presentation/providers/chat_provider.dart`). -/

namespace KnowledgeCompanion.ChatNotifier

open MarkerText

def dartDigits : Alphabet where
  digit c := decide (48 ≤ c.toNat) && decide (c.toNat ≤ 57)
  opening := by decide
  closing := by decide

/-- `int.tryParse` of ASCII digits, `none` outside 64 bits. -/
def tryParse (digits : Text) : Option ℕ :=
  let n := digits.foldl (fun n c => 10 * n + (c.toNat - 48)) 0
  if n < 2 ^ 63 then some n else none

def decimal (n : ℕ) : Text := Nat.toDigits 10 n

structure Citation where
  resourceID : Text
  index : Option ℕ
  originalIndex : Option ℕ
  chunkID : Option Text
deriving DecidableEq

inductive MessageRole
  | user
  | assistant
deriving DecidableEq

structure Message where
  id : Text
  conversationID : Text
  role : MessageRole
  content : Text
  reasoning : Text := []
  citations : List Citation := []
  isStreaming : Bool := false
deriving DecidableEq

def markerEntry (c : Citation) : Option (ℕ × ℕ) :=
  match c.originalIndex, c.index with
  | some original, some current => if original = current then none else some (original, current)
  | _, _ => none

def markerMap (citations : List Citation) (original : ℕ) : Option ℕ :=
  (citations.filterMap markerEntry).reverse.lookup original

def syncedDigits (citations : List Citation) (digits : Text) : Text :=
  match (tryParse digits).bind (markerMap citations) with
  | none => digits
  | some current => decimal current

def syncCitationMarkers (text : Text) (citations : List Citation) : Text :=
  if text = [] then text else sub dartDigits (syncedDigits citations) text

def withCitationMarkersSynced (m : Message) : Message :=
  if m.citations = [] then m
  else if m.citations.filterMap markerEntry = [] then m
  else
    { m with
      content := syncCitationMarkers m.content m.citations
      reasoning := syncCitationMarkers m.reasoning m.citations }

/-- What a citation and its markers leave alone. -/
structure Keeps (m m' : Message) : Prop where
  role : m'.role = m.role
  isStreaming : m'.isStreaming = m.isStreaming

theorem withCitationMarkersSynced_keeps (m : Message) :
    Keeps m (withCitationMarkersSynced m) ∧ (withCitationMarkersSynced m).id = m.id := by
  unfold withCitationMarkersSynced
  split
  · exact ⟨⟨rfl, rfl⟩, rfl⟩
  · split
    · exact ⟨⟨rfl, rfl⟩, rfl⟩
    · exact ⟨⟨rfl, rfl⟩, rfl⟩

inductive AppException
  | streamDisconnected
  | unauthorized
  | server (code message traceID : Option Text) (retryable : Bool)
  | network
deriving DecidableEq

inductive ChatEventType
  | chunk
  | reasoning
  | citation
  | done
  | error
  | other (name : Text)
deriving DecidableEq

structure ChatEvent where
  type : ChatEventType
  messageID : Text
  conversationID : Option Text := none
  delta : Option Text := none
  reasoningDelta : Option Text := none
  citation : Option Citation := none
  finishReason : Option Text := none
  errorCode : Option Text := none
  errorMessage : Option Text := none
  traceID : Option Text := none
  retryable : Bool := false
deriving DecidableEq

def ChatEvent.isTerminal (event : ChatEvent) : Bool := event.type = .done || event.type = .error

structure ChatState where
  messages : List Message := []
  isLoading : Bool := false
  isSending : Bool := false
  error : Option AppException := none
  lastQuestion : Option Text := none
  canRetryLastQuestion : Bool := false
deriving DecidableEq

def matchesTarget (message : Message) (messageID : Text) : Bool :=
  if message.role ≠ .assistant then false
  else if messageID ≠ [] then message.id = messageID || message.id = []
  else message.isStreaming

def updateTarget (event : ChatEvent) (change : Message → Message) (state : ChatState) :
    ChatState :=
  { state with
    error := none
    messages := state.messages.map fun message =>
      if matchesTarget message event.messageID then
        change { message with id := if message.id = [] then event.messageID else message.id }
      else message }

def appendChunk (event : ChatEvent) : ChatState → ChatState :=
  updateTarget event fun message =>
    { message with content := message.content ++ event.delta.getD [] }

def appendReasoning (event : ChatEvent) : ChatState → ChatState :=
  updateTarget event fun message =>
    { message with reasoning := message.reasoning ++ event.reasoningDelta.getD [] }

def withCitation (citation : Citation) (message : Message) : Message :=
  withCitationMarkersSynced { message with citations := message.citations ++ [citation] }

def appendCitation (event : ChatEvent) (state : ChatState) : ChatState :=
  match event.citation with
  | none => state
  | some citation => updateTarget event (withCitation citation) state

def isRetryableServerError : Option AppException → Bool
  | some (.server _ _ _ retryable) => retryable
  | _ => false

def stopStreaming (error : Option AppException) (state : ChatState) : ChatState :=
  if state.isSending = false then state
  else
    { state with
      messages := state.messages.map fun message =>
        if message.role ≠ .assistant ∨ message.isStreaming = false then message
        else { message with isStreaming := false }
      isSending := false
      error := error
      canRetryLastQuestion :=
        decide (error = some .streamDisconnected) || isRetryableServerError error }

def handleEvent (event : ChatEvent) (state : ChatState) : ChatState :=
  match event.type with
  | .chunk => appendChunk event state
  | .reasoning => appendReasoning event state
  | .citation => appendCitation event state
  | .done => stopStreaming none state
  | .error =>
    if event.errorCode = some "UNAUTHORIZED".toList then stopStreaming (some .unauthorized) state
    else
      stopStreaming
        (some (.server event.errorCode event.errorMessage event.traceID event.retryable)) state
  | .other _ => state

/-- What `send` does with a question that is not blank while nothing is being sent. -/
def sent (conversationID question : Text) (state : ChatState) : ChatState :=
  { state with
    messages := state.messages ++
      [{ id := [], conversationID, role := .user, content := question },
        { id := [], conversationID, role := .assistant, content := [], isStreaming := true }]
    isSending := true
    error := none
    lastQuestion := some question
    canRetryLastQuestion := false }

def loaded (result : Except AppException (List Message)) (state : ChatState) : ChatState :=
  match result with
  | .error e => { state with isLoading := false, error := some e }
  | .ok messages =>
    { state with
      isLoading := false, error := none, messages := messages.map withCitationMarkersSynced }

end KnowledgeCompanion.ChatNotifier
