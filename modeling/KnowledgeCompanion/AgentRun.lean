import KnowledgeCompanion.AgentNodes

/-! The runner of the agent workflow (`app/agent/runner.py`): the events it streams and, in
between, the calls it makes with what it hands over. -/

namespace KnowledgeCompanion.AgentRun

open Citations Emissions AgentNodes

inductive AgentIntent
  | summarize
  | qa
  | compare
  | generate

def AgentIntent.name : AgentIntent → Text
  | .summarize => "summarize".toList
  | .qa => "qa".toList
  | .compare => "compare".toList
  | .generate => "generate".toList

structure AgentRunRequest where
  question : Text
  conversationID : Text
  messageID : Text
  userID : Text
  resourceIDs : List Text := []
  intent : Option AgentIntent := none

/-- The data of a `node_end` event beside the message and the node. -/
inductive NodeData
  | intent (intent : Text)
  | retrieved (chunks : ℕ)
  | drafted (draftLength : ℕ)
  | validated (passed : Bool) (iterations : ℤ)
deriving DecidableEq

inductive AgentStreamEvent (D : Type)
  | nodeStart (messageID node threadID : Text)
  | nodeEnd (messageID node : Text) (data : NodeData)
  | chunk (messageID delta : Text) (index : ℕ)
  | reasoning (messageID delta : Text) (index : ℕ)
  | citation (messageID : Text) (citation : Citation D)
  | done (messageID : Text) (iterations : ℤ) (lowConfidence : Bool) (citationCount : ℕ)
  | error (messageID conversationID : Text) (errorCode message : String)

/-- What a run puts out: an event of its stream, or a call of a service with its arguments. -/
inductive Output (D : Type)
  | event (e : AgentStreamEvent D)
  | generates (state : AgentState D) (node : Text)
  | validates (state : AgentState D)
  | buildsCitations (answer : Text) (chunks : List RetrievalChunk) (authorized : List Text)
  | savesCheckpoint (threadID : Text) (state : AgentState D)
  | savesTurn (userID conversationID question answer : Text)

variable {D : Type}

abbrev Run (D α : Type) := Emission (Output D) Raised α

def nodeStart (node : Text) (request : AgentRunRequest) : Run D Unit :=
  emit (.event (.nodeStart request.messageID node request.conversationID))

def nodeEnd (node : Text) (request : AgentRunRequest) (data : NodeData) : Run D Unit :=
  emit (.event (.nodeEnd request.messageID node data))

def errorEvent (request : AgentRunRequest) (code message : String) : Output D :=
  .event (.error request.messageID request.conversationID code message)

structure AgentRunner where
  config : AgentConfig := {}
  checkpointer : Bool := true
  citation : Bool := true
  memory : Bool := true

def initialState (cfg : AgentConfig) (request : AgentRunRequest) : AgentState D where
  intent := (request.intent.map AgentIntent.name).getD []
  question := request.question
  conversationID := request.conversationID
  messageID := request.messageID
  userID := request.userID
  resourceIDs := request.resourceIDs
  maxIterations := cfg.maxIterations

def retrieve (nodes : Nodes D) (request : AgentRunRequest) (n : ℕ) (state : AgentState D) :
    Run D (AgentState D) := do
  nodeStart "retrieve".toList request
  let update ← lift (nodes.retrievalNode n state)
  let state := mergeState state update
  nodeEnd "retrieve".toList request (.retrieved state.retrievedChunks.length)
  return state

def loadContext (runner : AgentRunner) (replies : Replies D) (state : AgentState D) :
    Run D (AgentState D) := do
  if runner.memory then
    let context ← lift replies.memoryContext
    return { state with memoryContext := context }
  else return state

def recogniseIntent (nodes : Nodes D) (request : AgentRunRequest) (state : AgentState D) :
    Run D (AgentState D) := do
  nodeStart "intent".toList request
  let update ← lift (nodes.intentNode state)
  let state := mergeState state update
  nodeEnd "intent".toList request (.intent state.intent)
  return state

def selectBranch (nodes : Nodes D) (request : AgentRunRequest) (state : AgentState D) :
    Run D (AgentState D × Text) := do
  let branch := routeByIntent state
  if branch = "qa".toList ∨ branch = "compare".toList then
    let state ← retrieve nodes request 0 state
    return (state, if state.intent = "compare".toList then "compare".toList else "qa".toList)
  else if branch = "summarize".toList ∧ state.resourceIDs ≠ [] ∧ state.retrievedChunks = [] then
    let state ← retrieve nodes request 0 state
    return (state, branch)
  else return (state, branch)

/-- The loop over the chunks of the generation: the text of the answer, or nothing where the
run has ended with an error. -/
def forward (request : AgentRunRequest) (ended : Except Raised Unit) :
    List LLMStreamChunk → Text → ℕ → ℕ → Run D (Option Text)
  | [], answer, _, _ => do
    lift ended
    return some answer
  | c :: cs, answer, chunkIndex, reasoningIndex => do
    let spoken := !c.delta.isEmpty
    let thought := !(c.reasoningDelta.getD []).isEmpty
    provided spoken (emit (.event (.chunk request.messageID c.delta chunkIndex)))
    provided thought
      (emit (.event (.reasoning request.messageID (c.reasoningDelta.getD []) reasoningIndex)))
    if c.isError then
      emit (errorEvent request "AGENT_LLM_ERROR" "生成失败")
      return none
    else
      forward request ended cs (answer ++ c.delta) (if spoken then chunkIndex + 1 else chunkIndex)
        (if thought then reasoningIndex + 1 else reasoningIndex)

def keepDraft (runner : AgentRunner) (request : AgentRunRequest) (state : AgentState D)
    (branch : Text) : Option Text → Run D (Option (AgentState D))
  | none => return none
  | some answer => do
    let draft := if answer = [] then runner.config.fallbackMessage else answer
    nodeEnd branch request (.drafted draft.length)
    return some { state with draftAnswer := draft }

def generate (runner : AgentRunner) (nodes : Nodes D) (request : AgentRunRequest)
    (state : AgentState D) (branch : Text) : Run D (Option (AgentState D)) := do
  nodeStart branch request
  emit (.generates state branch)
  let stream := nodes.streamGeneration state branch
  let answer ← forward request stream.result stream.outputs [] 0 0
  keepDraft runner request state branch answer

/-- The loop of validations, with the rest of `range(recursion_limit)`. -/
def validateLoop (nodes : Nodes D) (request : AgentRunRequest) :
    ℕ → ℕ → AgentState D → Run D (AgentState D)
  | 0, _, _ => raise .recursion
  | limit + 1, n, state => do
    nodeStart "validate".toList request
    emit (.validates state)
    let update ← lift (nodes.validateNode n state)
    let state := mergeState state update
    nodeEnd "validate".toList request (.validated state.validationPassed state.iterations)
    if routeAfterValidate state = .pass then return state
    else
      let state ← retrieve nodes request (n + 1) state
      validateLoop nodes request limit (n + 1) state

def buildCitations (runner : AgentRunner) (replies : Replies D) (request : AgentRunRequest)
    (state : AgentState D) : Run D (List (Citation D)) := do
  if runner.citation = false ∨ state.retrievedChunks = [] then return []
  else
    emit (.buildsCitations state.draftAnswer state.retrievedChunks request.resourceIDs)
    lift replies.citations

def conclude (runner : AgentRunner) (replies : Replies D) (request : AgentRunRequest)
    (state : AgentState D) : Run D Unit := do
  let citations ← buildCitations runner replies request state
  emitAll (citations.map fun c => .event (.citation request.messageID c))
  provided runner.checkpointer
    (emit (.savesCheckpoint request.conversationID { state with citations }))
  provided runner.memory do
    emit (.savesTurn request.userID request.conversationID request.question state.draftAnswer)
    lift replies.savedTurn
  emit (.event
    (.done request.messageID state.iterations state.lowConfidence citations.length))

def complete (runner : AgentRunner) (nodes : Nodes D) (replies : Replies D)
    (request : AgentRunRequest) : Option (AgentState D) → Run D Unit
  | none => return
  | some state => do
    let state ← validateLoop nodes request runner.config.recursionLimit.toNat 0 state
    conclude runner replies request state

def prepare (runner : AgentRunner) (nodes : Nodes D) (replies : Replies D)
    (request : AgentRunRequest) (state : AgentState D) : Run D (AgentState D × Text) := do
  let state ← loadContext runner replies state
  let state ← recogniseIntent nodes request state
  selectBranch nodes request state

def runNodes (runner : AgentRunner) (nodes : Nodes D) (replies : Replies D)
    (request : AgentRunRequest) (state : AgentState D) : Run D Unit := do
  let (state, branch) ← prepare runner nodes replies request state
  let drafted ← generate runner nodes request state branch
  complete runner nodes replies request drafted

def errorOf (request : AgentRunRequest) : Raised → Output D
  | .retrievalForbidden message => errorEvent request "FORBIDDEN" message
  | .recursion => errorEvent request "AGENT_TIMEOUT" "达到迭代上限"
  | .llmUnavailable message => errorEvent request "LLM_UNAVAILABLE" message
  | .llmTimeout message => errorEvent request "LLM_TIMEOUT" message
  | .llmStream message => errorEvent request "LLM_STREAM_ERROR" message
  | .api e => errorEvent request e.code e.message
  | .other => errorEvent request "AGENT_INTERNAL_ERROR" "Agent 内部错误"

/-- The state that a run starts from; the checkpoint of the conversation hands over the count
of iterations. -/
def startState (runner : AgentRunner) (request : AgentRunRequest)
    (previous : Option (AgentState D)) : AgentState D :=
  match previous with
  | none => initialState runner.config request
  | some saved =>
    if runner.checkpointer then
      { initialState runner.config request with iterations := saved.iterations }
    else initialState runner.config request

def runStream (runner : AgentRunner) (nodes : Nodes D) (replies : Replies D)
    (request : AgentRunRequest) (previous : Option (AgentState D)) :
    Emission (Output D) Empty Unit :=
  attempt (runNodes runner nodes replies request (startState runner request previous)) fun e =>
    emit (errorOf request e)

def eventsOf (outputs : List (Output D)) : List (AgentStreamEvent D) :=
  outputs.filterMap fun o =>
    match o with
    | .event e => some e
    | _ => none

end KnowledgeCompanion.AgentRun
