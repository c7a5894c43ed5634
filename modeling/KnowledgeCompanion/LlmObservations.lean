import KnowledgeCompanion.QaAnswers

/-! The client of the language models (`services/llm/llm_client.py`) with the observer that it
reports to (`observability/llm/observer.py`): retries, the fallback provider, and the events
that are recorded of each call. Trace ids, times and log lines are left out. -/

namespace KnowledgeCompanion.LlmObservations

open PythonText Emissions AgentNodes
open QaAnswers (LLMRequest Message apiError)

/-- What a provider may raise; `system` stands for an exception outside of `Exception`, such as
a cancellation. -/
inductive Thrown
  | raised (e : Raised)
  | system
deriving DecidableEq

structure Usage where
  promptTokens : ℤ := 0
  completionTokens : ℤ := 0
  totalTokens : ℤ := 0
deriving DecidableEq

structure LLMResponse where
  content : Text
  model : Text
  usage : Usage
deriving DecidableEq

abbrev ProviderStream := Emission LLMStreamChunk Thrown Unit

/-- `complete request n` is what attempt `n` answers. -/
structure BaseLLMProvider where
  complete : LLMRequest → ℕ → Except Thrown LLMResponse
  streamComplete : LLMRequest → ProviderStream

structure LLMConfig where
  provider : Text
  model : Text
  maxRetries : ℕ

structure LLMClient where
  provider : BaseLLMProvider
  fallbackProvider : Option BaseLLMProvider := none
  config : Option LLMConfig := none
  promptVersion : Text := "default".toList

inductive Status
  | success
  | error
deriving DecidableEq

structure LLMGenerationEvent where
  promptVersion : Text
  provider : Text
  model : Text
  prompt : Text
  completion : Text
  usage : Usage
  status : Status
  errorCode : Option String
deriving DecidableEq

inductive Output
  | chunk (c : LLMStreamChunk)
  | recordGeneration (event : LLMGenerationEvent)
  | recordError (event : LLMGenerationEvent)
deriving DecidableEq

abbrev Observing (α : Type) := Emission Output Thrown α

def requestPrompt (request : LLMRequest) : Text :=
  ['\n'].intercalate (request.messages.map fun m => m.role ++ ": ".toList ++ m.content)

def buildEvent (client : LLMClient) (request : LLMRequest) (response : Option LLMResponse)
    (completion : Text) (status : Status) (errorCode : Option String) : LLMGenerationEvent where
  promptVersion := client.promptVersion
  provider := (client.config.map LLMConfig.provider).getD "unknown".toList
  model :=
    match response with
    | some response => response.model
    | none => (client.config.map LLMConfig.model).getD "unknown".toList
  prompt := requestPrompt request
  completion := completion
  usage := (response.map LLMResponse.usage).getD {}
  status := status
  errorCode := errorCode

/-- The local variables of `stream_complete`. -/
structure StreamState where
  answer : Text := []
  status : Status := .success
  errorCode : Option String := none

def StreamState.receive (s : StreamState) (c : LLMStreamChunk) : StreamState where
  answer := s.answer ++ c.delta
  status := if c.isError then .error else s.status
  errorCode := if c.isError then some "LLM_STREAM_ERROR" else s.errorCode

/-- The code of an exception that `stream_complete` turns into an error chunk. -/
def interruption : Thrown → Option String
  | .raised (.llmUnavailable _) => some "LLM_UNAVAILABLE"
  | .raised (.llmTimeout _) => some "LLM_TIMEOUT"
  | .raised (.llmStream _) => some "LLM_STREAM_ERROR"
  | _ => none

def recordStream (client : LLMClient) (request : LLMRequest) (s : StreamState) : Output :=
  let event := buildEvent client request none s.answer s.status s.errorCode
  match s.status with
  | .error => .recordError event
  | .success => .recordGeneration event

def streamComplete (client : LLMClient) (request : LLMRequest) : Observing Unit :=
  let stream := client.provider.streamComplete request
  let s := stream.outputs.foldl StreamState.receive {}
  match stream.result with
  | .ok _ => do
    emitAll (stream.outputs.map .chunk)
    emit (recordStream client request s)
  | .error e => do
    emitAll (stream.outputs.map .chunk)
    match interruption e with
    | some code => do
      emit (.chunk errorChunk)
      emit (recordStream client request { s with status := .error, errorCode := some code })
    | none => do
      emit (recordStream client request s)
      raise e

def retryable : Thrown → Bool
  | .raised (.llmUnavailable _) | .raised (.llmTimeout _) => true
  | _ => false

/-- `Retrying` from attempt `n` on, with so many attempts left after it. -/
def retrying (call : ℕ → Except Thrown LLMResponse) : ℕ → ℕ → Except Thrown LLMResponse
  | left, n =>
    match call n with
    | .ok response => .ok response
    | .error e =>
      if retryable e then
        match left with
        | 0 => .error e
        | left + 1 => retrying call left (n + 1)
      else .error e

/-- `stop_after_attempt` lets the first attempt happen whatever the limit. -/
def attempts (client : LLMClient) (provider : BaseLLMProvider) (request : LLMRequest) :
    Except Thrown LLMResponse :=
  retrying (provider.complete request) (((client.config.map LLMConfig.maxRetries).getD 3) - 1) 1

def completeWithProvider (client : LLMClient) (provider : BaseLLMProvider) (request : LLMRequest) :
    Observing LLMResponse :=
  let failed (code : String) : Output :=
    .recordError (buildEvent client request none [] .error (some code))
  match attempts client provider request with
  | .ok response => do
    emit (.recordGeneration
      (buildEvent client request (some response) response.content .success none))
    return response
  | .error (.raised e) =>
    match apiError e with
    | some (code, _) => do
      emit (failed code)
      raise (.raised e)
    | none => do
      emit (failed "LLM_UNAVAILABLE")
      raise (.raised (.llmUnavailable "LLM 服务不可用"))
  | .error .system => raise .system

def complete (client : LLMClient) (request : LLMRequest) : Observing LLMResponse :=
  attempt (completeWithProvider client client.provider request) fun e =>
    if retryable e then
      match client.fallbackProvider with
      | none => raise e
      | some provider => completeWithProvider client provider request
    else raise e

def recorded : Output → Option Bool
  | .chunk _ => none
  | .recordGeneration _ => some false
  | .recordError _ => some true

def observations (outputs : List Output) : List Bool := outputs.filterMap recorded

def fails {α : Type} : Except Thrown α → Bool
  | .ok _ => false
  | .error _ => true

def streamFails (stream : ProviderStream) : Bool :=
  stream.outputs.any LLMStreamChunk.isError || fails stream.result

def calledProviders (client : LLMClient) (request : LLMRequest) : List BaseLLMProvider :=
  client.provider ::
    match (completeWithProvider client client.provider request).result with
    | .ok _ => []
    | .error e => if retryable e then client.fallbackProvider.toList else []

/-- Each stream and each call of a provider is recorded once, as an error just where it
failed. -/
structure Observed (client : LLMClient) (request : LLMRequest) : Prop where
  streams : observations (streamComplete client request).outputs =
    [streamFails (client.provider.streamComplete request)]
  calls : observations (complete client request).outputs =
    (calledProviders client request).map fun provider => fails (attempts client provider request)

/-- A stream is not cut off by an exception that the client does not know, except after an
error chunk. -/
def StreamTold (stream : ProviderStream) : Prop :=
  match stream.result with
  | .ok _ => True
  | .error e => (interruption e).isSome ∨ stream.outputs.any LLMStreamChunk.isError = true

/-- No called provider leaves with an exception outside of `Exception`. -/
def CallsTold (client : LLMClient) (request : LLMRequest) : Prop :=
  ∀ provider ∈ calledProviders client request, attempts client provider request ≠ .error .system

theorem observations_append (front back : List Output) :
    observations (front ++ back) = observations front ++ observations back :=
  List.filterMap_append

theorem observations_chunks (cs : List LLMStreamChunk) : observations (cs.map .chunk) = [] := by
  rw [observations, List.filterMap_map]
  exact List.filterMap_eq_nil_iff.mpr fun _ _ => rfl

theorem receive_status (s : StreamState) (cs : List LLMStreamChunk) :
    (cs.foldl StreamState.receive s).status = .error ↔
      s.status = .error ∨ cs.any LLMStreamChunk.isError = true := by
  induction cs generalizing s with
  | nil => exact (or_iff_left Bool.false_ne_true).symm
  | cons c cs ih =>
    rw [List.foldl_cons, ih, List.any_cons, Bool.or_eq_true, ← or_assoc]
    refine or_congr_left ?_
    unfold StreamState.receive
    cases c.isError with
    | true => exact iff_of_true rfl (.inr rfl)
    | false => exact (or_iff_left Bool.false_ne_true).symm

theorem recordStream_recorded (client : LLMClient) (request : LLMRequest) (s : StreamState) :
    observations [recordStream client request s] = [decide (s.status = .error)] := by
  unfold recordStream
  cases s.status <;> rfl

theorem streamComplete_outputs (client : LLMClient) (request : LLMRequest) :
    ∃ (told : List LLMStreamChunk) (s : StreamState), (streamComplete client request).outputs =
        (client.provider.streamComplete request).outputs.map .chunk ++
          (told.map .chunk ++ [recordStream client request s]) ∧
      (s.status = .error ↔
        (client.provider.streamComplete request).outputs.any LLMStreamChunk.isError = true ∨
          ∃ e, (client.provider.streamComplete request).result = .error e ∧
            (interruption e).isSome) := by
  have status := receive_status {} (client.provider.streamComplete request).outputs
  rw [or_iff_right (by decide : ¬({} : StreamState).status = .error)] at status
  unfold streamComplete emitAll emit raise
  dsimp only
  cases (client.provider.streamComplete request).result with
  | ok _ => exact ⟨[], _, rfl, status.trans (or_iff_left nofun).symm⟩
  | error e =>
    dsimp only
    rw [mk_ok_bind]
    cases known : interruption e with
    | some code =>
      exact ⟨[errorChunk], _, rfl, iff_of_true rfl (.inr ⟨e, rfl, by rw [known]; rfl⟩)⟩
    | none =>
      refine ⟨[], _, rfl, status.trans (or_iff_left ?_).symm⟩
      rintro ⟨_, same, some⟩
      cases same
      rw [known] at some
      exact Bool.false_ne_true some

theorem streams_observed_iff (client : LLMClient) (request : LLMRequest) :
    observations (streamComplete client request).outputs =
        [streamFails (client.provider.streamComplete request)] ↔
      StreamTold (client.provider.streamComplete request) := by
  obtain ⟨told, s, outputs, status⟩ := streamComplete_outputs client request
  rw [outputs, observations_append, observations_append, observations_chunks, observations_chunks,
    recordStream_recorded, List.nil_append, List.nil_append, streamFails, StreamTold,
    List.cons.injEq, and_iff_left rfl]
  cases ended : (client.provider.streamComplete request).result with
  | ok _ =>
    rw [fails, Bool.or_false]
    refine iff_of_true (Bool.eq_iff_iff.mpr (decide_eq_true_iff.trans (status.trans ?_))) trivial
    refine or_iff_left ?_
    rintro ⟨e, same, -⟩
    rw [ended] at same
    cases same
  | error e =>
    rw [fails, Bool.or_true, decide_eq_true_iff, status, or_comm]
    refine or_congr_left ⟨?_, fun known => ⟨e, ended, known⟩⟩
    rintro ⟨_, same, known⟩
    rw [ended] at same
    cases same
    exact known

theorem completeWithProvider_recorded (client : LLMClient) (provider : BaseLLMProvider)
    (request : LLMRequest) :
    observations (completeWithProvider client provider request).outputs =
      if attempts client provider request = .error .system then []
      else [fails (attempts client provider request)] := by
  unfold completeWithProvider
  cases attempts client provider request with
  | ok response => rfl
  | error e =>
    cases e with
    | system => rfl
    | raised e =>
      dsimp only
      cases apiError e <;> rfl

theorem one_recorded_iff (result : Except Thrown LLMResponse) :
    (if result = .error .system then [] else [fails result]) = [fails result] ↔
      result ≠ .error .system := by
  by_cases system : result = .error .system
  · rw [if_pos system]
    exact iff_of_false (List.cons_ne_nil _ _).symm (not_not_intro system)
  · rw [if_neg system]
    exact iff_of_true rfl system

theorem told_of_retryable {client : LLMClient} {provider : BaseLLMProvider} {request : LLMRequest}
    {e : Thrown} (ended : (completeWithProvider client provider request).result = .error e)
    (again : retryable e = true) : attempts client provider request ≠ .error .system := by
  intro system
  rw [completeWithProvider, system] at ended
  cases ended
  exact Bool.false_ne_true again

theorem calls_observed_iff (client : LLMClient) (request : LLMRequest) :
    observations (complete client request).outputs =
        (calledProviders client request).map
          (fun provider => fails (attempts client provider request)) ↔
      CallsTold client request := by
  have first := completeWithProvider_recorded client client.provider request
  unfold complete CallsTold calledProviders attempt
  cases ended : (completeWithProvider client client.provider request).result with
  | ok response =>
    dsimp only
    rw [first, List.map_singleton, List.forall_mem_singleton]
    exact one_recorded_iff _
  | error e =>
    dsimp only
    by_cases again : retryable e = true
    · rw [if_pos again, if_pos again]
      cases client.fallbackProvider with
      | none =>
        rw [raise, List.append_nil, first, Option.toList_none, List.map_singleton,
          List.forall_mem_singleton]
        exact one_recorded_iff _
      | some provider =>
        have told := told_of_retryable ended again
        rw [observations_append, first, if_neg told, completeWithProvider_recorded,
          Option.toList_some, List.map_cons, List.map_singleton, List.singleton_append,
          List.cons.injEq, and_iff_right rfl, List.forall_mem_cons, List.forall_mem_singleton,
          and_iff_right told]
        exact one_recorded_iff _
    · rw [if_neg again, if_neg again, raise, List.append_nil, first, List.map_singleton,
        List.forall_mem_singleton]
      exact one_recorded_iff _

/-- The observer hears of every call just where no exception slips through. -/
theorem observed_iff (client : LLMClient) (request : LLMRequest) :
    Observed client request ↔
      StreamTold (client.provider.streamComplete request) ∧ CallsTold client request := by
  rw [← streams_observed_iff, ← calls_observed_iff]
  exact ⟨fun h => ⟨h.streams, h.calls⟩, fun h => ⟨h.1, h.2⟩⟩

def greeting : LLMRequest := ⟨[⟨"user".toList, "hello".toList⟩], 7 / 10, 2048⟩

def refusing : LLMClient where
  provider :=
    { complete := fun _ _ => .error (.raised (.api ⟨"LLM_AUTH_FAILED", "LLM 认证失败", 401⟩))
      streamComplete := fun _ =>
        ⟨[], .error (.raised (.api ⟨"LLM_AUTH_FAILED", "LLM 认证失败", 401⟩))⟩ }

/-- The refused stream is recorded as a success. -/
theorem refusing_not_observed : ¬Observed refusing greeting := by
  intro h
  have recorded : observations (streamComplete refusing greeting).outputs = [false] := rfl
  exact absurd (recorded.symm.trans h.streams) (by decide)

def chunksOf (outputs : List Output) : List LLMStreamChunk :=
  outputs.filterMap fun o =>
    match o with
    | .chunk c => some c
    | _ => none

def raisedStream (stream : LLMStream) : ProviderStream :=
  ⟨stream.outputs, stream.result.mapError .raised⟩

theorem chunksOf_stream (cs : List LLMStreamChunk) (client : LLMClient) (request : LLMRequest)
    (s : StreamState) :
    chunksOf (cs.map .chunk ++ [recordStream client request s]) = cs := by
  have last : chunksOf [recordStream client request s] = [] := by
    unfold recordStream
    cases s.status <;> rfl
  have chunks : chunksOf (cs.map .chunk) = cs := by
    rw [chunksOf, List.filterMap_map]
    exact List.filterMap_some
  unfold chunksOf at last chunks ⊢
  rw [List.filterMap_append, last, chunks, List.append_nil]

theorem streamComplete_chunks (client : LLMClient) (request : LLMRequest) (stream : LLMStream)
    (answers : client.provider.streamComplete request = raisedStream stream) :
    chunksOf (streamComplete client request).outputs = (AgentNodes.streamComplete stream).outputs ∧
      (streamComplete client request).result =
        (AgentNodes.streamComplete stream).result.mapError .raised := by
  unfold streamComplete AgentNodes.streamComplete attempt emitAll emit raise
  dsimp only
  rw [answers, raisedStream]
  cases stream.result with
  | ok _ =>
    refine ⟨?_, rfl⟩
    exact chunksOf_stream stream.outputs client request _
  | error e =>
    dsimp only [Except.mapError]
    rw [mk_ok_bind]
    cases e with
    | llmUnavailable message | llmTimeout message | llmStream message =>
      refine ⟨?_, rfl⟩
      have split (s : StreamState) : stream.outputs.map Output.chunk ++
          ([.chunk errorChunk] ++ [recordStream client request s]) =
          (stream.outputs ++ [errorChunk]).map .chunk ++ [recordStream client request s] := by
        rw [List.map_append, List.append_assoc]
        rfl
      exact (congrArg chunksOf (split _)).trans (chunksOf_stream _ client request _)
    | retrievalForbidden message | api e | recursion | other =>
      refine ⟨?_, rfl⟩
      rw [List.append_nil]
      exact chunksOf_stream stream.outputs client request _

end KnowledgeCompanion.LlmObservations
