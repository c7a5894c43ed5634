import Mathlib.Data.Int.Notation
import KnowledgeCompanion.ApiExceptions
import KnowledgeCompanion.Citations
import KnowledgeCompanion.Emissions

/-! The nodes of the agent workflow (`app/agent/nodes/agent_nodes.py`, `router.py`) and the
stream of the model that they read (`services/llm/llm_client.py`). -/

namespace KnowledgeCompanion.AgentNodes

open ApiExceptions (ApiException)
open PythonText Citations Emissions

/-- The exceptions that an `except` clause of the agent or the model client tells apart. -/
inductive Raised
  | retrievalForbidden (message : String)
  | llmUnavailable (message : String)
  | llmTimeout (message : String)
  | llmStream (message : String)
  | api (e : ApiException)
  | recursion
  | other
deriving DecidableEq

structure AgentConfig where
  recursionLimit : ℤ := 12
  maxIterations : ℤ := 3
  defaultIntent : Text := "qa".toList
  enableDynamicIntent : Bool := false
  fallbackMessage : Text := "抱歉，暂无法生成答案，请稍后重试".toList

structure AgentState (D : Type) where
  intent : Text
  question : Text
  conversationID : Text
  messageID : Text
  userID : Text
  resourceIDs : List Text
  retrievedChunks : List RetrievalChunk := []
  draftAnswer : Text := []
  finalAnswer : Text := []
  citations : List (Citation D) := []
  iterations : ℤ := 0
  maxIterations : ℤ
  validationPassed : Bool := true
  lowConfidence : Bool := false
  memoryContext : Text := []

structure Update (D : Type) where
  intent : Option Text := none
  retrievedChunks : Option (List RetrievalChunk) := none
  citations : Option (List (Citation D)) := none
  draftAnswer : Option Text := none
  iterations : Option ℤ := none
  validationPassed : Option Bool := none
  lowConfidence : Option Bool := none
  finalAnswer : Option Text := none

variable {D : Type}

def mergeState (state : AgentState D) (update : Update D) : AgentState D :=
  { state with
    intent := update.intent.getD state.intent
    retrievedChunks := update.retrievedChunks.getD state.retrievedChunks
    citations := update.citations.getD state.citations
    draftAnswer := update.draftAnswer.getD state.draftAnswer
    iterations := update.iterations.getD state.iterations
    validationPassed := update.validationPassed.getD state.validationPassed
    lowConfidence := update.lowConfidence.getD state.lowConfidence
    finalAnswer := update.finalAnswer.getD state.finalAnswer }

def validIntents : List Text :=
  ["summarize".toList, "qa".toList, "compare".toList, "generate".toList]

def mentions (text : Text) (words : List String) : Bool :=
  words.any fun word =>
    (List.range (text.length + 1)).any fun n => word.toList.isPrefixOf (text.drop n)

/-- `lower` is `str.lower`, which is any function here. -/
def classifyByRules (lower : Text → Text) (question explicitIntent : Text) : Text :=
  if explicitIntent ∈ validIntents then explicitIntent
  else if mentions (lower question) ["对比", "比较", "compare", "difference", "differences"] then
    "compare".toList
  else if mentions (lower question) ["总结", "摘要", "概括", "summarize", "summary"] then
    "summarize".toList
  else if mentions (lower question) ["生成", "写一段", "创作", "generate", "draft", "write"] then
    "generate".toList
  else "qa".toList

def routeByIntent (state : AgentState D) : Text :=
  if state.intent ∈ validIntents then state.intent else "qa".toList

inductive AfterValidate
  | pass
  | retry
deriving DecidableEq

def routeAfterValidate (state : AgentState D) : AfterValidate :=
  if state.validationPassed = true then .pass
  else if state.maxIterations ≤ state.iterations then .pass
  else .retry

structure LLMStreamChunk where
  delta : Text
  reasoningDelta : Option Text := none
  finishReason : Option Text := none
deriving DecidableEq

/-- An asynchronous generator of chunks: what it yields, and whether it raises then. -/
abbrev LLMStream := Emission LLMStreamChunk Raised Unit

def errorChunk : LLMStreamChunk := { delta := [], finishReason := some "error".toList }

/-- `LLMClient.stream_complete` over the stream of the provider. -/
def streamComplete (provider : LLMStream) : LLMStream :=
  attempt provider fun e =>
    match e with
    | .llmUnavailable _ | .llmTimeout _ | .llmStream _ => emit errorChunk
    | e => raise e

def LLMStreamChunk.hasContent (c : LLMStreamChunk) : Bool :=
  !c.delta.isEmpty || !(c.reasoningDelta.getD []).isEmpty

def LLMStreamChunk.isError (c : LLMStreamChunk) : Bool := c.finishReason = some "error".toList

def LLMStreamChunk.finishes (c : LLMStreamChunk) : Bool :=
  c.finishReason = some "stop".toList || c.isError

/-- The loop of `stream_generation`: chunks with content are passed on, up to the first that
finishes. -/
def relay (ended : Except Raised Unit) : List LLMStreamChunk → LLMStream
  | [] => lift ended
  | c :: cs => do
    provided c.hasContent (emit c)
    if c.finishes then pure () else relay ended cs

def streamGeneration (provider : LLMStream) : LLMStream :=
  relay (streamComplete provider).result (streamComplete provider).outputs

/-- The chunks whose texts `_build_user_content` puts into the prompt of a node. -/
def contextChunks (state : AgentState D) (node : Text) : List RetrievalChunk :=
  if node = "qa".toList ∨ node = "compare".toList ∨ node = "summarize".toList then
    state.retrievedChunks
  else []

def intentNode (cfg : AgentConfig) (lower : Text → Text) (dynamic : Except Raised Text)
    (state : AgentState D) : Except Raised (Update D) := do
  let intent ←
    if cfg.enableDynamicIntent then dynamic.map fun content => lower (strip content)
    else pure (classifyByRules lower state.question state.intent)
  return { intent := some (if intent ∈ validIntents then intent else cfg.defaultIntent) }

def retrievalNode (retrieved : Except Raised (List RetrievalChunk)) (state : AgentState D) :
    Except Raised (Update D) :=
  if state.resourceIDs = [] then .ok { retrievedChunks := some [], citations := some [] }
  else
    match retrieved with
    | .ok chunks => .ok { retrievedChunks := some chunks, citations := some [] }
    | .error (.retrievalForbidden message) => .error (.retrievalForbidden message)
    | .error _ => .ok { retrievedChunks := some [], citations := some [] }

def citationsTraceable (citations : List (Citation D)) (chunks : List RetrievalChunk) : Bool :=
  citations.all fun c => decide (c.resourceID ∈ chunks.map RetrievalChunk.resourceID)

def validateNode (cfg : AgentConfig) (state : AgentState D) : Update D :=
  let iterations := state.iterations + 1
  let passed := state.citations.isEmpty || citationsTraceable state.citations state.retrievedChunks
  let lowConfidence := !passed && decide (cfg.maxIterations ≤ iterations)
  { iterations := some iterations
    validationPassed := some (passed || lowConfidence)
    lowConfidence := some lowConfidence
    finalAnswer := some state.draftAnswer }

structure Replies (D : Type) where
  memoryContext : Except Raised Text
  dynamicIntent : Except Raised Text
  retrieved : ℕ → Except Raised (List RetrievalChunk)
  provider : LLMStream
  citations : Except Raised (List (Citation D))
  savedTurn : Except Raised Unit

/-- The nodes as the runner calls them: retrieval `0` before the generation, and `n + 1` after
validation `n`. -/
structure Nodes (D : Type) where
  intentNode : AgentState D → Except Raised (Update D)
  retrievalNode : ℕ → AgentState D → Except Raised (Update D)
  validateNode : ℕ → AgentState D → Except Raised (Update D)
  streamGeneration : AgentState D → Text → LLMStream

def agentNodes (cfg : AgentConfig) (lower : Text → Text) (replies : Replies D) : Nodes D where
  intentNode := intentNode cfg lower replies.dynamicIntent
  retrievalNode n := retrievalNode (replies.retrieved n)
  validateNode _ state := .ok (validateNode cfg state)
  streamGeneration _ _ := streamGeneration replies.provider

end KnowledgeCompanion.AgentNodes
