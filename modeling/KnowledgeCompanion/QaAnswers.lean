import Mathlib.Algebra.Order.Ring.Rat
import KnowledgeCompanion.AgentCourse

/-! The question-answering service of the AI service (`app/services/qa_service.py`): retrieval,
prompt and model stream of one question, with the events that it yields. Metrics, spans and
log lines are left out. -/

namespace KnowledgeCompanion.QaAnswers

open ApiExceptions (ApiException)
open PythonText Citations Emissions AgentNodes AgentCourse

variable {D : Type}

structure Message where
  role : Text
  content : Text
deriving DecidableEq

structure QARequestBody where
  question : Text
  conversationID : Text
  messageID : Text
  userID : Text
  resourceIDs : List Text := []
  history : List Message := []
  topK : Option ℕ := none
  scoreThreshold : Option ℚ := none
  maxContextTokens : Option ℕ := none
  temperature : Option ℚ := some (7 / 10)
  maxTokens : Option ℕ := some 2048

def Message.accepted (m : Message) : Bool := !m.role.isEmpty && !m.content.isEmpty

def QARequestBody.accepted (body : QARequestBody) : Bool :=
  decide (1 ≤ body.question.length) && decide (body.question.length ≤ 2000) &&
    !body.conversationID.isEmpty && !body.messageID.isEmpty && !body.userID.isEmpty &&
    decide (body.resourceIDs.length ≤ 100) && body.resourceIDs.all (fun rid => !isBlank rid) &&
    body.history.all Message.accepted &&
    body.topK.all (fun k => decide (1 ≤ k) && decide (k ≤ 100)) &&
    body.scoreThreshold.all (fun s => decide (0 ≤ s) && decide (s ≤ 1)) &&
    body.maxContextTokens.all (fun n => decide (1 ≤ n)) &&
    body.temperature.all (fun t => decide (0 ≤ t) && decide (t ≤ 2)) &&
    body.maxTokens.all (fun n => decide (0 < n))

def QARequest := { body : QARequestBody // body.accepted = true }

structure RetrievalRequest where
  question : Text
  userID : Text
  resourceIDs : List Text
  topK : ℕ := 5
  scoreThreshold : Option ℚ := none
  maxContextTokens : Option ℕ := none

def RetrievalRequest.accepted (r : RetrievalRequest) : Bool :=
  decide (1 ≤ r.question.length) && decide (r.question.length ≤ 2000) &&
    decide (1 ≤ r.userID.length) && decide (r.userID.length ≤ 128) &&
    decide (1 ≤ r.resourceIDs.length) && decide (r.resourceIDs.length ≤ 100) &&
    r.resourceIDs.all (fun rid => !isBlank rid) &&
    decide (1 ≤ r.topK) && decide (r.topK ≤ 100) &&
    r.scoreThreshold.all (fun s => decide (0 ≤ s) && decide (s ≤ 1)) &&
    r.maxContextTokens.all (fun n => decide (1 ≤ n))

structure RetrievalResult where
  chunks : List RetrievalChunk
  prompt : Text

structure LLMRequest where
  messages : List Message
  temperature : ℚ
  maxTokens : ℕ

def LLMRequest.accepted (r : LLMRequest) : Bool :=
  !r.messages.isEmpty && r.messages.all Message.accepted && decide (0 ≤ r.temperature) &&
    decide (r.temperature ≤ 2) && decide (0 < r.maxTokens)

/-- A model of `pydantic`, which raises where a field is out of its bounds. -/
def validated {α : Type} (accepted : α → Bool) (value : α) : Except Raised α :=
  if accepted value then .ok value else .error .other

structure MemoryService where
  loadContext : Text → Text → Text → Except Raised Text
  saveTurn : Text → Text → Text → Text → Except Raised Unit

structure CitationService (D : Type) where
  formatter : CitationFormatter D
  maxCitations : ℤ

structure QAService (D : Type) where
  retrieve : RetrievalRequest → Except Raised RetrievalResult
  streamComplete : LLMRequest → LLMStream
  citation : Option (CitationService D) := none
  memory : Option MemoryService := none

inductive QAStreamEvent (D : Type)
  | chunk (messageID conversationID delta : Text) (index : ℕ)
  | reasoning (messageID conversationID delta : Text) (index : ℕ)
  | citation (messageID : Text) (citation : Citation D)
  | done (messageID : Text) (citationCount : ℕ) (degraded : Bool)
  | error (messageID conversationID : Text) (code message : String) (retryable : Bool)

abbrev Answering (D α : Type) := Emission (QAStreamEvent D) Raised α

def chunkEvent (request : QARequest) (delta : Text) (index : ℕ) : QAStreamEvent D :=
  .chunk request.1.messageID request.1.conversationID delta index

def reasoningEvent (request : QARequest) (delta : Text) (index : ℕ) : QAStreamEvent D :=
  .reasoning request.1.messageID request.1.conversationID delta index

def citationEvent (request : QARequest) (citation : Citation D) : QAStreamEvent D :=
  .citation request.1.messageID citation

def doneEvent (request : QARequest) (citationCount : ℕ) (degraded : Bool) : QAStreamEvent D :=
  .done request.1.messageID citationCount degraded

def errorEvent (request : QARequest) (code message : String) : QAStreamEvent D :=
  .error request.1.messageID request.1.conversationID code message
    (code ∈ ["LLM_TIMEOUT", "LLM_STREAM_ERROR", "LLM_UNAVAILABLE", "RETRIEVAL_UNAVAILABLE"])

def apiError : Raised → Option (String × String)
  | .retrievalForbidden message => some ("FORBIDDEN", message)
  | .llmUnavailable message => some ("LLM_UNAVAILABLE", message)
  | .llmTimeout message => some ("LLM_TIMEOUT", message)
  | .llmStream message => some ("LLM_STREAM_ERROR", message)
  | .api e => some (e.code, e.message)
  | .recursion | .other => none

def contextOf (service : QAService D) (request : QARequest) : Except Raised Text :=
  match service.memory with
  | none => .ok []
  | some memory =>
    memory.loadContext request.1.userID request.1.conversationID request.1.question

def retrievalRequest (request : QARequest) : RetrievalRequest where
  question := request.1.question
  userID := request.1.userID
  resourceIDs := request.1.resourceIDs
  topK := request.1.topK.getD 5
  scoreThreshold := request.1.scoreThreshold
  maxContextTokens := request.1.maxContextTokens

def retrieved (service : QAService D) (request : QARequest) :
    Except Raised (Option RetrievalResult) :=
  if request.1.resourceIDs = [] then .ok none
  else do
    let body ← validated RetrievalRequest.accepted (retrievalRequest request)
    let result ← service.retrieve body
    return some result

def promptOf (request : QARequest) (result : Option RetrievalResult) : Text :=
  match result with
  | none => request.1.question
  | some result => result.prompt

def chunksOf (result : Option RetrievalResult) : List RetrievalChunk :=
  match result with
  | none => []
  | some result => result.chunks

def buildMessages (request : QARequest) (prompt memoryContext : Text) : List Message :=
  (if memoryContext.isEmpty then [] else [⟨"system".toList, memoryContext⟩]) ++
    request.1.history ++ [⟨"user".toList, prompt⟩]

def orDefault {α : Type} [Zero α] [DecidableEq α] (value : Option α) (fallback : α) : α :=
  match value with
  | none => fallback
  | some v => if v = 0 then fallback else v

def llmRequest (request : QARequest) (prompt memoryContext : Text) : LLMRequest where
  messages := buildMessages request prompt memoryContext
  temperature := orDefault request.1.temperature (7 / 10)
  maxTokens := orDefault request.1.maxTokens 2048

def snippets (chunks : List RetrievalChunk) : List Text :=
  ((chunks.take 3).map fun c => strip c.text).filterMap fun text =>
    if text.isEmpty then none else some (text.take 160)

def fallbackAnswer (chunks : List RetrievalChunk) : Text :=
  if snippets chunks = [] then []
  else
    "模型暂时不可用，先根据已检索到的资料给出参考信息：\n".toList ++
      ['\n'].intercalate ((snippets chunks).map fun snippet => "- ".toList ++ snippet)

def degrade (request : QARequest) (chunks : List RetrievalChunk) (index : ℕ)
    (code message : String) : Answering D Unit :=
  if fallbackAnswer chunks ≠ [] then do
    emit (chunkEvent request (fallbackAnswer chunks) index)
    emit (doneEvent request 0 true)
  else emit (errorEvent request code message)

/-- The loop over the stream: the text of the answer, or nothing where an error chunk has
ended it. -/
def readChunks (request : QARequest) (chunks : List RetrievalChunk) (ended : Except Raised Unit) :
    List LLMStreamChunk → Text → ℕ → ℕ → Answering D (Option Text)
  | [], answer, _, _ => do
    lift ended
    return some answer
  | c :: cs, answer, chunkIndex, reasoningIndex => do
    let spoken := !c.delta.isEmpty
    let thought := !(c.reasoningDelta.getD []).isEmpty
    provided spoken (emit (chunkEvent request c.delta chunkIndex))
    provided thought (emit (reasoningEvent request (c.reasoningDelta.getD []) reasoningIndex))
    if c.isError then
      degrade request chunks (if spoken then chunkIndex + 1 else chunkIndex) "LLM_TIMEOUT" "生成超时"
      return none
    else if c.finishReason = some "stop".toList then return some (answer ++ c.delta)
    else
      readChunks request chunks ended cs (answer ++ c.delta)
        (if spoken then chunkIndex + 1 else chunkIndex)
        (if thought then reasoningIndex + 1 else reasoningIndex)

def buildCitations (service : QAService D) (request : QARequest) (answer : Text)
    (chunks : List RetrievalChunk) : List (Citation D) :=
  match service.citation with
  | none => []
  | some citation =>
    if chunks = [] then []
    else
      (Citations.buildCitations citation.formatter citation.maxCitations answer chunks
        request.1.resourceIDs).2

def savedTurn (service : QAService D) (request : QARequest) (answer : Text) : Except Raised Unit :=
  match service.memory with
  | none => .ok ()
  | some memory =>
    memory.saveTurn request.1.userID request.1.conversationID request.1.question answer

def conclude (service : QAService D) (request : QARequest) (chunks : List RetrievalChunk)
    (answer : Text) : Answering D Unit := do
  let citations := buildCitations service request answer chunks
  emitAll (citations.map (citationEvent request))
  emit (doneEvent request citations.length false)
  lift (savedTurn service request answer)

def generate (service : QAService D) (request : QARequest) (chunks : List RetrievalChunk)
    (stream : LLMStream) : Answering D Unit := do
  let answer ← readChunks request chunks stream.result stream.outputs [] 0 0
  match answer with
  | none => pure ()
  | some answer => conclude service request chunks answer

/-- The `except` clauses of that `try`; the fallback text has the index 0. -/
def generationFailed (request : QARequest) (chunks : List RetrievalChunk) :
    Raised → Answering D Unit
  | .llmUnavailable message => degrade request chunks 0 "LLM_UNAVAILABLE" message
  | .llmTimeout message => degrade request chunks 0 "LLM_TIMEOUT" message
  | _ => emit (errorEvent request "LLM_STREAM_ERROR" "流式生成失败")

def retrievalFailed (request : QARequest) (e : Raised) : QAStreamEvent D :=
  match apiError e with
  | some (code, message) => errorEvent request code message
  | none => errorEvent request "RETRIEVAL_UNAVAILABLE" "检索不可用"

def streamAnswer (service : QAService D) (request : QARequest) : Answering D Unit := do
  let memoryContext ← lift (contextOf service request)
  match retrieved service request with
  | .error e => emit (retrievalFailed request e)
  | .ok result => do
    let body ← lift (validated LLMRequest.accepted
      (llmRequest request (promptOf request result) memoryContext))
    attempt (generate service request (chunksOf result) (service.streamComplete body))
      (generationFailed request (chunksOf result))

def isTerminal : QAStreamEvent D → Bool
  | .done .. | .error .. => true
  | _ => false

def isCitation : QAStreamEvent D → Bool
  | .citation .. => true
  | _ => false

def chunkIndex : QAStreamEvent D → Option ℕ
  | .chunk _ _ _ index => some index
  | _ => none

/-- One event ends the stream, the chunks are numbered in a row, and the citations are
counted. -/
structure Protocol (events : List (QAStreamEvent D)) : Prop where
  terminal : ∃ front last, events = front ++ [last] ∧ isTerminal last = true ∧
    ∀ e ∈ front, isTerminal e = false
  chunks : events.filterMap chunkIndex = List.range (events.filterMap chunkIndex).length
  counted : ∀ messageID count degraded,
    .done messageID count degraded ∈ events → count = events.countP isCitation

inductive StreamEnd
  | reported
  | finished
  | raised (e : Raised)
deriving DecidableEq

/-- How the part of a stream that is read ends: with an error chunk, in order, or with an
exception. -/
def endOf (stream : LLMStream) : StreamEnd :=
  if (received stream.outputs).any LLMStreamChunk.isError then .reported
  else if (received stream.outputs).any LLMStreamChunk.finishes then .finished
  else
    match stream.result with
    | .ok _ => .finished
    | .error e => .raised e

def deltas (cs : List LLMStreamChunk) : ℕ := cs.countP fun c => !c.delta.isEmpty

theorem deltas_cons (c : LLMStreamChunk) (cs : List LLMStreamChunk) :
    deltas (c :: cs) = deltas cs + if !c.delta.isEmpty then 1 else 0 := List.countP_cons

/-- The turn of an answer is saved, and a stream that is cut off has no text before the
fallback. -/
def Delivers (service : QAService D) (request : QARequest) (chunks : List RetrievalChunk)
    (stream : LLMStream) : Prop :=
  match endOf stream with
  | .reported => True
  | .finished =>
    savedTurn service request ((received stream.outputs).flatMap LLMStreamChunk.delta) = .ok ()
  | .raised (.llmUnavailable _) | .raised (.llmTimeout _) =>
    deltas (received stream.outputs) = 0 ∨ snippets chunks = []
  | .raised _ => True

/-- The memory loads, and whatever is retrieved comes with a prompt and a stream that is
delivered. -/
def Keeps (service : QAService D) (request : QARequest) : Prop :=
  ∃ memoryContext, contextOf service request = .ok memoryContext ∧
    ∀ result, retrieved service request = .ok result →
      promptOf request result ≠ [] ∧
        Delivers service request (chunksOf result)
          (service.streamComplete (llmRequest request (promptOf request result) memoryContext))

def spoken (request : QARequest) : ℕ → ℕ → List LLMStreamChunk → List (QAStreamEvent D)
  | _, _, [] => []
  | i, j, c :: cs =>
    (if !c.delta.isEmpty then [chunkEvent request c.delta i] else []) ++
      ((if !(c.reasoningDelta.getD []).isEmpty then
        [reasoningEvent request (c.reasoningDelta.getD []) j] else []) ++
        spoken request (if !c.delta.isEmpty then i + 1 else i)
          (if !(c.reasoningDelta.getD []).isEmpty then j + 1 else j) cs)

theorem spoken_quiet (request : QARequest) (i j : ℕ) (cs : List LLMStreamChunk)
    (e : QAStreamEvent D) (mem : e ∈ spoken request i j cs) :
    isTerminal e = false ∧ isCitation e = false := by
  induction cs generalizing i j with
  | nil => exact absurd mem List.not_mem_nil
  | cons c cs ih =>
    rw [spoken] at mem
    rcases List.mem_append.mp mem with chunk | rest
    · split at chunk
      · rw [List.mem_singleton.mp chunk]
        exact ⟨rfl, rfl⟩
      · exact absurd chunk List.not_mem_nil
    · rcases List.mem_append.mp rest with reasoning | rest
      · split at reasoning
        · rw [List.mem_singleton.mp reasoning]
          exact ⟨rfl, rfl⟩
        · exact absurd reasoning List.not_mem_nil
      · exact ih _ _ rest

theorem spoken_chunks (request : QARequest) (i j : ℕ) (cs : List LLMStreamChunk) :
    (spoken (D := D) request i j cs).filterMap chunkIndex = List.range' i (deltas cs) := by
  induction cs generalizing i j with
  | nil => rfl
  | cons c cs ih =>
    have silent : (if !(c.reasoningDelta.getD []).isEmpty then
        [reasoningEvent (D := D) request (c.reasoningDelta.getD []) j] else []).filterMap
          chunkIndex = [] := by split <;> rfl
    rw [spoken, List.filterMap_append, List.filterMap_append, silent, List.nil_append, ih,
      deltas_cons]
    by_cases speaks : (!c.delta.isEmpty) = true
    · rw [if_pos speaks, if_pos speaks, if_pos speaks, List.range'_succ]
      rfl
    · rw [if_neg speaks, if_neg speaks, if_neg speaks]
      rfl

def degraded (request : QARequest) (chunks : List RetrievalChunk) (index : ℕ)
    (code message : String) : List (QAStreamEvent D) :=
  if snippets chunks = [] then [errorEvent request code message]
  else [chunkEvent request (fallbackAnswer chunks) index, doneEvent request 0 true]

theorem fallbackAnswer_eq_nil (chunks : List RetrievalChunk) :
    fallbackAnswer chunks = [] ↔ snippets chunks = [] := by
  unfold fallbackAnswer
  by_cases none : snippets chunks = []
  · rw [if_pos none]
    exact ⟨fun _ => none, fun _ => rfl⟩
  · rw [if_neg none]
    exact ⟨nofun, fun h => absurd h none⟩

theorem degrade_eq (request : QARequest) (chunks : List RetrievalChunk) (index : ℕ)
    (code message : String) :
    degrade (D := D) request chunks index code message =
      ⟨degraded request chunks index code message, .ok ()⟩ := by
  unfold degrade degraded
  by_cases none : snippets chunks = []
  · rw [if_neg (not_not_intro ((fallbackAnswer_eq_nil chunks).mpr none)), if_pos none]
    rfl
  · rw [if_pos fun empty => none ((fallbackAnswer_eq_nil chunks).mp empty), if_neg none]
    rfl

theorem provided_eq (p : Bool) (o : QAStreamEvent D) :
    provided p (emit o : Answering D Unit) = ⟨if p then [o] else [], .ok ()⟩ := by
  cases p <;> rfl

def readResult (ended : Except Raised Unit) (read : List LLMStreamChunk) (answer : Text) :
    Except Raised (Option Text) :=
  if read.any LLMStreamChunk.isError then .ok none
  else if read.any LLMStreamChunk.finishes then
    .ok (some (answer ++ read.flatMap LLMStreamChunk.delta))
  else ended.map fun _ => some (answer ++ read.flatMap LLMStreamChunk.delta)

def readTail (request : QARequest) (chunks : List RetrievalChunk) (read : List LLMStreamChunk)
    (i : ℕ) : List (QAStreamEvent D) :=
  if read.any LLMStreamChunk.isError then
    degraded request chunks (i + deltas read) "LLM_TIMEOUT" "生成超时"
  else []

theorem finishes_of_isError {c : LLMStreamChunk} (failed : c.isError = true) :
    c.finishes = true := by rw [LLMStreamChunk.finishes, failed, Bool.or_true]

theorem finishes_of_stop {c : LLMStreamChunk} (stops : c.finishReason = some "stop".toList) :
    c.finishes = true := by
  rw [LLMStreamChunk.finishes, stops, decide_eq_true rfl, Bool.true_or]

theorem readChunks_eq (request : QARequest) (chunks : List RetrievalChunk)
    (ended : Except Raised Unit) (cs : List LLMStreamChunk) (answer : Text) (i j : ℕ) :
    readChunks (D := D) request chunks ended cs answer i j =
      ⟨spoken request i j (received cs) ++ readTail request chunks (received cs) i,
        readResult ended (received cs) answer⟩ := by
  induction cs generalizing answer i j with
  | nil =>
    cases ended with
    | ok _ => simp only [received, readResult, List.any_nil, List.flatMap_nil, List.append_nil]; rfl
    | error e => rfl
  | cons c cs ih =>
    rw [readChunks, provided_eq, provided_eq, mk_ok_bind, mk_ok_bind, received]
    by_cases failed : c.isError = true
    · rw [if_pos failed, if_pos (finishes_of_isError failed), degrade_eq, mk_ok_bind]
      have reported : [c].any LLMStreamChunk.isError = true := List.any_eq_true.mpr
        ⟨c, List.mem_singleton_self c, failed⟩
      rw [readResult, if_pos reported, readTail, if_pos reported, spoken, spoken, deltas_cons]
      refine congrArg (Emission.mk · (.ok none)) ?_
      cases c.delta.isEmpty <;> simp [pure_eq, deltas]
    · rw [if_neg failed]
      by_cases stops : c.finishReason = some "stop".toList
      · rw [if_pos stops, if_pos (finishes_of_stop stops)]
        have reported : ¬[c].any LLMStreamChunk.isError = true := by
          rw [List.any_cons, Bool.eq_false_iff.mpr failed]
          exact Bool.false_ne_true
        have finished : [c].any LLMStreamChunk.finishes = true := List.any_eq_true.mpr
          ⟨c, List.mem_singleton_self c, finishes_of_stop stops⟩
        rw [readResult, if_neg reported, if_pos finished, readTail, if_neg reported, spoken,
          spoken, List.append_nil, List.append_nil, List.flatMap_singleton, pure_eq,
          List.append_nil]
      · have goes : ¬c.finishes = true := by
          rw [LLMStreamChunk.finishes, Bool.eq_false_iff.mpr failed, decide_eq_false stops]
          exact Bool.false_ne_true
        rw [if_neg stops, if_neg goes, ih, spoken, readResult, readResult, readTail, readTail,
          List.any_cons, List.any_cons, Bool.eq_false_iff.mpr failed, Bool.eq_false_iff.mpr goes,
          Bool.false_or, Bool.false_or, List.flatMap_cons, List.append_assoc answer, deltas_cons]
        refine congrArg (Emission.mk · _) ?_
        cases c.delta.isEmpty <;> simp [Nat.add_assoc, Nat.add_comm 1]

/-- The events close a stream that has sent `n` chunks and no citation. -/
structure Closes (n : ℕ) (events : List (QAStreamEvent D)) : Prop where
  terminal : ∃ front last, events = front ++ [last] ∧ isTerminal last = true ∧
    ∀ e ∈ front, isTerminal e = false
  chunks : events.filterMap chunkIndex = List.range' n (events.filterMap chunkIndex).length
  counted : ∀ messageID count degraded,
    .done messageID count degraded ∈ events → count = events.countP isCitation

theorem terminal_last {front before after : List (QAStreamEvent D)} {x last : QAStreamEvent D}
    (split : before ++ x :: after = front ++ [last]) (ends : isTerminal x = true)
    (open_ : ∀ e ∈ front, isTerminal e = false) : after = [] := by
  rcases List.eq_nil_or_concat after with none | ⟨rest, y, same⟩
  · exact none
  · rw [same, List.concat_eq_append, ← List.cons_append, ← List.append_assoc] at split
    have here : x ∈ front := by
      rw [← (List.append_inj' split rfl).1]
      exact List.mem_append_right before List.mem_cons_self
    exact absurd ends (Bool.eq_false_iff.mp (open_ x here))

theorem terminal_append {front tail : List (QAStreamEvent D)}
    (quiet : ∀ e ∈ front, isTerminal e = false) :
    (∃ before last, front ++ tail = before ++ [last] ∧ isTerminal last = true ∧
        ∀ e ∈ before, isTerminal e = false) ↔
      ∃ before last, tail = before ++ [last] ∧ isTerminal last = true ∧
        ∀ e ∈ before, isTerminal e = false := by
  constructor
  · rintro ⟨before, last, split, ends, open_⟩
    rcases List.eq_nil_or_concat tail with none | ⟨rest, y, same⟩
    · rw [none, List.append_nil] at split
      have here : last ∈ front := by
        rw [split]
        exact List.mem_append_right before (List.mem_singleton_self last)
      exact absurd ends (Bool.eq_false_iff.mp (quiet last here))
    · rw [same, List.concat_eq_append, ← List.append_assoc] at split
      obtain ⟨init, lastly⟩ := List.append_inj' split rfl
      refine ⟨rest, y, by rw [same, List.concat_eq_append], ?_, fun e mem => open_ e ?_⟩
      · rw [(List.cons.inj lastly).1]
        exact ends
      · rw [← init]
        exact List.mem_append_right front mem
  · rintro ⟨before, last, split, ends, open_⟩
    refine ⟨front ++ before, last, by rw [split, List.append_assoc], ends, fun e mem => ?_⟩
    rcases List.mem_append.mp mem with early | late
    · exact quiet e early
    · exact open_ e late

theorem chunks_append {front tail : List (QAStreamEvent D)} {n : ℕ}
    (indices : front.filterMap chunkIndex = List.range n) :
    (front ++ tail).filterMap chunkIndex =
        List.range ((front ++ tail).filterMap chunkIndex).length ↔
      tail.filterMap chunkIndex = List.range' n (tail.filterMap chunkIndex).length := by
  rw [List.filterMap_append, indices, List.length_append, List.length_range, List.range_eq_range',
    List.range_eq_range', ← List.range'_append_1, Nat.zero_add, List.append_right_inj]

theorem protocol_append {front tail : List (QAStreamEvent D)} {n : ℕ}
    (quiet : ∀ e ∈ front, isTerminal e = false ∧ isCitation e = false)
    (indices : front.filterMap chunkIndex = List.range n) :
    Protocol (front ++ tail) ↔ Closes n tail := by
  have terminal := @terminal_append D front tail fun e mem => (quiet e mem).1
  have chunked := @chunks_append D front tail n indices
  have cited : (front ++ tail).countP isCitation = tail.countP isCitation := by
    have uncited : front.countP isCitation = 0 :=
      List.countP_eq_zero.mpr fun e mem => Bool.eq_false_iff.mp (quiet e mem).2
    rw [List.countP_append, uncited, Nat.zero_add]
  constructor
  · intro h
    refine ⟨terminal.mp h.terminal, chunked.mp h.chunks, fun m count d mem => ?_⟩
    rw [h.counted m count d (List.mem_append_right front mem), cited]
  · intro h
    refine ⟨terminal.mpr h.terminal, chunked.mpr h.chunks, fun m count d mem => ?_⟩
    rw [cited]
    rcases List.mem_append.mp mem with early | late
    · exact absurd rfl (Bool.eq_false_iff.mp (quiet _ early).1)
    · exact h.counted m count d late

theorem not_closes_nil (n : ℕ) : ¬Closes (D := D) n [] := by
  intro h
  obtain ⟨front, last, split, -⟩ := h.terminal
  exact absurd split.symm (List.append_ne_nil_of_right_ne_nil front (List.cons_ne_nil last []))

theorem closes_error (request : QARequest) (n : ℕ) (code message : String) :
    Closes (D := D) n [errorEvent request code message] where
  terminal := ⟨[], _, rfl, rfl, nofun⟩
  chunks := rfl
  counted _ _ _ mem := absurd (List.mem_singleton.mp mem) nofun

theorem closes_degraded (request : QARequest) (chunks : List RetrievalChunk) (n index : ℕ)
    (code message : String) :
    Closes (D := D) n (degraded request chunks index code message) ↔
      index = n ∨ snippets chunks = [] := by
  unfold degraded
  by_cases none : snippets chunks = []
  · rw [if_pos none]
    exact iff_of_true (closes_error request n code message) (.inr none)
  · rw [if_neg none]
    constructor
    · intro h
      exact .inl (List.cons.inj h.chunks).1
    · rintro (rfl | h)
      · refine ⟨⟨[_], _, rfl, rfl, List.forall_mem_singleton.mpr rfl⟩, rfl, ?_⟩
        intro messageID count d mem
        rcases List.mem_cons.mp mem with chunk | last
        · exact absurd chunk nofun
        · have counts := List.mem_singleton.mp last
          injection counts
      · exact absurd h none

theorem cited_quiet (request : QARequest) (citations : List (Citation D)) :
    (∀ e ∈ citations.map (citationEvent request), isTerminal e = false) ∧
      (citations.map (citationEvent request)).filterMap chunkIndex = [] ∧
      (citations.map (citationEvent request)).countP isCitation = citations.length := by
  induction citations with
  | nil => exact ⟨nofun, rfl, rfl⟩
  | cons c cs ih =>
    refine ⟨List.forall_mem_cons.mpr ⟨rfl, ih.1⟩, ih.2.1, ?_⟩
    rw [List.map_cons, List.countP_cons_of_pos rfl, ih.2.2, List.length_cons]

def cited (request : QARequest) (citations : List (Citation D)) : List (QAStreamEvent D) :=
  citations.map (citationEvent request) ++ [doneEvent request citations.length false]

theorem closes_cited (request : QARequest) (citations : List (Citation D)) (n : ℕ) :
    Closes n (cited request citations) := by
  obtain ⟨quiet, silent, counted⟩ := cited_quiet request citations
  have none : (cited request citations).filterMap chunkIndex = [] := by
    rw [cited, List.filterMap_append, silent]
    rfl
  refine ⟨⟨_, _, rfl, rfl, quiet⟩, by rw [none]; rfl, ?_⟩
  intro messageID count d mem
  rw [cited, List.countP_append, counted]
  rcases List.mem_append.mp mem with citation | last
  · exact absurd rfl (Bool.eq_false_iff.mp (quiet _ citation))
  · have counts := List.mem_singleton.mp last
    injection counts

theorem closes_cited_append (request : QARequest) (citations : List (Citation D)) (n : ℕ)
    (later : List (QAStreamEvent D)) :
    Closes n (cited request citations ++ later) ↔ later = [] := by
  constructor
  · intro h
    obtain ⟨front, last, split, -, open_⟩ := h.terminal
    rw [cited, List.append_assoc] at split
    exact terminal_last split rfl open_
  · rintro rfl
    rw [List.append_nil]
    exact closes_cited request citations n

theorem degraded_ne_nil (request : QARequest) (chunks : List RetrievalChunk) (index : ℕ)
    (code message : String) : degraded (D := D) request chunks index code message ≠ [] := by
  unfold degraded
  split <;> exact List.cons_ne_nil _ _

theorem generationFailed_ne_nil (request : QARequest) (chunks : List RetrievalChunk) (e : Raised) :
    (generationFailed (D := D) request chunks e).outputs ≠ [] := by
  cases e with
  | llmUnavailable message | llmTimeout message =>
    rw [generationFailed, degrade_eq]
    exact degraded_ne_nil request chunks 0 _ message
  | retrievalForbidden | llmStream | api | recursion | other => exact List.cons_ne_nil _ _

def closing (service : QAService D) (request : QARequest) (chunks : List RetrievalChunk)
    (stream : LLMStream) : List (QAStreamEvent D) :=
  match endOf stream with
  | .reported =>
    degraded request chunks (deltas (received stream.outputs)) "LLM_TIMEOUT" "生成超时"
  | .finished =>
    let answer := (received stream.outputs).flatMap LLMStreamChunk.delta
    cited request (buildCitations service request answer chunks) ++
      match savedTurn service request answer with
      | .ok _ => []
      | .error e => (generationFailed request chunks e).outputs
  | .raised e => (generationFailed request chunks e).outputs

theorem closes_closing (service : QAService D) (request : QARequest) (chunks : List RetrievalChunk)
    (stream : LLMStream) :
    Closes (deltas (received stream.outputs)) (closing service request chunks stream) ↔
      Delivers service request chunks stream := by
  unfold closing Delivers
  cases endOf stream with
  | reported => exact iff_of_true ((closes_degraded ..).mpr (.inl rfl)) trivial
  | finished =>
    dsimp only
    cases savedTurn service request ((received stream.outputs).flatMap LLMStreamChunk.delta) with
    | ok _ => exact iff_of_true ((closes_cited_append ..).mpr rfl) rfl
    | error e =>
      refine iff_of_false (fun h => ?_) nofun
      exact generationFailed_ne_nil request chunks e ((closes_cited_append ..).mp h)
  | raised e =>
    cases e with
    | llmUnavailable message | llmTimeout message =>
      dsimp only
      rw [generationFailed, degrade_eq]
      exact (closes_degraded ..).trans (or_congr_left eq_comm)
    | retrievalForbidden | llmStream | api | recursion | other =>
      exact iff_of_true (closes_error ..) trivial

theorem conclude_eq (service : QAService D) (request : QARequest) (chunks : List RetrievalChunk)
    (answer : Text) :
    conclude service request chunks answer =
      ⟨cited request (buildCitations service request answer chunks),
        savedTurn service request answer⟩ := by
  unfold conclude cited emitAll emit lift
  dsimp only
  rw [mk_ok_bind, mk_ok_bind, List.append_nil]

theorem attempt_concluded (service : QAService D) (request : QARequest)
    (chunks : List RetrievalChunk) (front : List (QAStreamEvent D)) (answer : Text) :
    (attempt ((⟨front, .ok (some answer)⟩ : Answering D (Option Text)) >>= fun answer =>
        match answer with
        | none => pure ()
        | some answer => conclude service request chunks answer)
      (generationFailed (D := D) request chunks)).outputs =
      front ++ (cited request (buildCitations service request answer chunks) ++
        match savedTurn service request answer with
        | .ok _ => []
        | .error e => (generationFailed request chunks e).outputs) := by
  rw [mk_ok_bind]
  dsimp only
  rw [conclude_eq, attempt]
  cases savedTurn service request answer with
  | ok _ => rw [List.append_nil]
  | error e => exact List.append_assoc ..

theorem answer_outputs (service : QAService D) (request : QARequest)
    (chunks : List RetrievalChunk) (stream : LLMStream) :
    (attempt (generate service request chunks stream)
      (generationFailed (D := D) request chunks)).outputs =
      spoken request 0 0 (received stream.outputs) ++ closing service request chunks stream := by
  unfold generate closing endOf
  rw [readChunks_eq, readTail, readResult, Nat.zero_add]
  by_cases reported : (received stream.outputs).any LLMStreamChunk.isError = true
  · rw [if_pos reported, if_pos reported, if_pos reported]
    simp [attempt, pure_eq]
  · rw [if_neg reported, if_neg reported, if_neg reported]
    rw [List.append_nil, List.nil_append]
    by_cases finished : (received stream.outputs).any LLMStreamChunk.finishes = true
    · rw [if_pos finished, if_pos finished]
      exact attempt_concluded ..
    · rw [if_neg finished, if_neg finished]
      cases stream.result with
      | ok _ => exact attempt_concluded ..
      | error e => rfl

theorem buildMessages_accepted (request : QARequest) (prompt memoryContext : Text)
    (history : request.1.history.all Message.accepted = true) :
    (buildMessages request prompt memoryContext).all Message.accepted = !prompt.isEmpty := by
  have system : (if memoryContext.isEmpty then [] else
      [(⟨"system".toList, memoryContext⟩ : Message)]).all Message.accepted = true := by
    cases memoryContext <;> rfl
  rw [buildMessages, List.all_append, List.all_append, system, history, Bool.true_and,
    Bool.true_and]
  cases prompt <;> rfl

theorem orDefault_bounded {α : Type} [Zero α] [DecidableEq α] {value : Option α} {fallback : α}
    (p : α → Prop) (given : ∀ v, value = some v → p v) (default : p fallback) :
    p (orDefault value fallback) := by
  unfold orDefault
  cases value with
  | none => exact default
  | some v =>
    dsimp only
    split
    · exact default
    · exact given v rfl

theorem llmRequest_accepted (request : QARequest) (prompt memoryContext : Text) :
    (llmRequest request prompt memoryContext).accepted = !prompt.isEmpty := by
  have bounds := request.2
  simp only [QARequestBody.accepted, Bool.and_eq_true] at bounds
  obtain ⟨⟨⟨⟨⟨⟨-, history⟩, -⟩, -⟩, -⟩, temperature⟩, maxTokens⟩ := bounds
  have warm : 0 ≤ orDefault request.1.temperature (7 / 10) ∧
      orDefault request.1.temperature (7 / 10) ≤ 2 := by
    refine orDefault_bounded (fun t : ℚ => 0 ≤ t ∧ t ≤ 2) (fun t given => ?_) (by decide +kernel)
    rw [given, Option.all_some, Bool.and_eq_true, decide_eq_true_eq, decide_eq_true_eq]
      at temperature
    exact temperature
  have room : 0 < orDefault request.1.maxTokens 2048 := by
    refine orDefault_bounded (fun n : ℕ => 0 < n) (fun n given => ?_) (by decide)
    rw [given, Option.all_some, decide_eq_true_eq] at maxTokens
    exact maxTokens
  have asked : (buildMessages request prompt memoryContext).isEmpty = false :=
    List.isEmpty_eq_false_iff.mpr (List.append_ne_nil_of_right_ne_nil _ (List.cons_ne_nil _ []))
  unfold LLMRequest.accepted llmRequest
  dsimp only
  rw [asked, buildMessages_accepted request prompt memoryContext history,
    decide_eq_true warm.1, decide_eq_true warm.2, decide_eq_true room]
  simp only [Bool.not_false, Bool.true_and, Bool.and_true]

theorem retrievalFailed_eq (request : QARequest) (e : Raised) :
    ∃ code message, retrievalFailed (D := D) request e = errorEvent request code message := by
  unfold retrievalFailed
  cases apiError e with
  | none => exact ⟨_, _, rfl⟩
  | some found => exact ⟨_, _, rfl⟩

theorem protocol_iff_closes (events : List (QAStreamEvent D)) :
    Protocol events ↔ Closes 0 events :=
  @protocol_append D [] events 0 nofun rfl

/-- The stream of an answer keeps the protocol just where the condition does. -/
theorem streamAnswer_protocol_iff (service : QAService D) (request : QARequest) :
    Protocol (streamAnswer service request).outputs ↔ Keeps service request := by
  unfold streamAnswer Keeps
  cases contextOf service request with
  | error e =>
    rw [lift, mk_error_bind, protocol_iff_closes]
    refine iff_of_false (not_closes_nil 0) ?_
    rintro ⟨_, same, -⟩
    cases same
  | ok memoryContext =>
    rw [lift, mk_ok_bind]
    cases retrieved service request with
    | error e =>
      obtain ⟨code, message, same⟩ := retrievalFailed_eq (D := D) request e
      dsimp only
      rw [List.nil_append, same, emit, protocol_iff_closes]
      refine iff_of_true (closes_error request 0 code message) ⟨memoryContext, rfl, ?_⟩
      intro _ found
      cases found
    | ok result =>
      dsimp only
      rw [List.nil_append, validated, llmRequest_accepted]
      by_cases empty : promptOf request result = []
      · rw [empty, List.isEmpty_nil, Bool.not_true, if_neg Bool.false_ne_true, lift, mk_error_bind,
          protocol_iff_closes]
        refine iff_of_false (not_closes_nil 0) ?_
        rintro ⟨_, _, keeps⟩
        exact (keeps result rfl).1 empty
      · rw [List.isEmpty_eq_false_iff.mpr empty, Bool.not_false, if_pos rfl, lift, mk_ok_bind,
          List.nil_append, answer_outputs,
          protocol_append (spoken_quiet request 0 0 _) ((spoken_chunks request 0 0 _).trans
            List.range_eq_range'.symm), closes_closing]
        constructor
        · intro delivers
          refine ⟨memoryContext, rfl, fun r same => ?_⟩
          cases same
          exact ⟨empty, delivers⟩
        · rintro ⟨context, same, keeps⟩
          cases same
          exact (keeps result rfl).2

def lectureQuestion : QARequest where
  val :=
    { question := "what is a group?".toList
      conversationID := "c1".toList
      messageID := "m1".toList
      userID := "u1".toList
      resourceIDs := ["lecture".toList] }
  property := by decide +kernel

def timingOut : QAService Unit where
  retrieve _ := .ok ⟨[⟨"k1".toList, "lecture".toList, "a group".toList, 1, []⟩], "prompt".toList⟩
  streamComplete _ := ⟨[{ delta := "A".toList }], .error (.llmTimeout "LLM 调用超时")⟩

theorem timingOut_indices :
    (streamAnswer timingOut lectureQuestion).outputs.filterMap chunkIndex = [0, 0] := by
  decide +kernel

/-- The fallback text takes the index of the first word again. -/
theorem timingOut_breaks : ¬Protocol (streamAnswer timingOut lectureQuestion).outputs := by
  intro h
  have indices := h.chunks
  rw [timingOut_indices] at indices
  exact absurd indices (by decide)

end KnowledgeCompanion.QaAnswers
