import Mathlib.Logic.IsEmpty.Basic
import KnowledgeCompanion.AgentProtocol

/-! The course of an agent run over the nodes of the workflow: what it puts out as long as
nothing that it calls fails, and that it tells of an error otherwise. -/

namespace KnowledgeCompanion.AgentCourse

open MarkerText PythonText Citations Emissions AgentNodes AgentRun AgentProtocol

variable {D : Type}

def received : List LLMStreamChunk → List LLMStreamChunk
  | [] => []
  | c :: cs => if c.finishes then [c] else c :: received cs

def receivedFrom (provider : LLMStream) : List LLMStreamChunk :=
  received (streamComplete provider).outputs

def answerText (provider : LLMStream) : Text :=
  (receivedFrom provider).flatMap LLMStreamChunk.delta

def reportsError (provider : LLMStream) : Bool := (receivedFrom provider).any LLMStreamChunk.isError

/-- The text of the stream; `none` where an error chunk with content ends the run. -/
def answerOf (provider : LLMStream) : Except Raised (Option Text) :=
  if (receivedFrom provider).any fun c => c.isError && c.hasContent then .ok none
  else if (receivedFrom provider).any LLMStreamChunk.finishes then .ok (some (answerText provider))
  else (streamComplete provider).result.map fun _ => some (answerText provider)

theorem relay_eq (ended : Except Raised Unit) (cs : List LLMStreamChunk) :
    relay ended cs = ⟨(received cs).filter LLMStreamChunk.hasContent,
      if (received cs).any LLMStreamChunk.finishes then .ok () else ended⟩ := by
  induction cs with
  | nil => rfl
  | cons c cs ih =>
    rw [relay, received]
    by_cases finishes : c.finishes = true
    · rw [if_pos finishes, if_pos finishes, List.any_cons, finishes]
      cases content : c.hasContent with
      | true =>
        rw [List.filter_cons_of_pos content]
        rfl
      | false =>
        rw [List.filter_cons_of_neg (Bool.eq_false_iff.mp content)]
        rfl
    · rw [if_neg finishes, if_neg finishes, ih, List.any_cons, Bool.eq_false_iff.mpr finishes,
        Bool.false_or]
      cases content : c.hasContent with
      | true =>
        rw [List.filter_cons_of_pos content]
        rfl
      | false =>
        rw [List.filter_cons_of_neg (Bool.eq_false_iff.mp content)]
        rfl

theorem received_error_last (cs : List LLMStreamChunk) :
    (∀ c ∈ received cs, c.isError = false) ∨
      ∃ front c, received cs = front ++ [c] ∧ c.isError = true ∧
        ∀ x ∈ front, x.isError = false := by
  induction cs with
  | nil => exact .inl nofun
  | cons c cs ih =>
    rw [received]
    by_cases finishes : c.finishes = true
    · rw [if_pos finishes]
      cases failed : c.isError with
      | true => exact .inr ⟨[], c, rfl, failed, nofun⟩
      | false => exact .inl fun x mem => List.mem_singleton.mp mem ▸ failed
    · rw [if_neg finishes]
      have clean : c.isError = false := by
        refine Bool.eq_false_iff.mpr fun failed => finishes ?_
        rw [LLMStreamChunk.finishes, failed, Bool.or_true]
      rcases ih with none | ⟨front, last, split, failed, before⟩
      · exact .inl (List.forall_mem_cons.mpr ⟨clean, none⟩)
      · exact .inr ⟨c :: front, last, by rw [split]; rfl, failed,
          List.forall_mem_cons.mpr ⟨clean, before⟩⟩

def spoken (request : AgentRunRequest) : ℕ → ℕ → List LLMStreamChunk → List (Output D)
  | _, _, [] => []
  | i, j, c :: cs =>
    (if !c.delta.isEmpty then [.event (.chunk request.messageID c.delta i)] else []) ++
      ((if !(c.reasoningDelta.getD []).isEmpty then
        [.event (.reasoning request.messageID (c.reasoningDelta.getD []) j)] else []) ++
        spoken request (if !c.delta.isEmpty then i + 1 else i)
          (if !(c.reasoningDelta.getD []).isEmpty then j + 1 else j) cs)

theorem provided_eq (p : Bool) (o : Output D) :
    provided p (emit o : Run D Unit) = ⟨if p then [o] else [], .ok ()⟩ := by
  cases p <;> rfl

theorem forward_append (request : AgentRunRequest) (ended : Except Raised Unit)
    (front cs : List LLMStreamChunk) (clean : ∀ c ∈ front, c.isError = false) (answer : Text)
    (i j : ℕ) :
    ∃ i' j', forward (D := D) request ended (front ++ cs) answer i j =
      ⟨spoken request i j front ++
        (forward (D := D) request ended cs
          (answer ++ front.flatMap LLMStreamChunk.delta) i' j').outputs,
        (forward (D := D) request ended cs
          (answer ++ front.flatMap LLMStreamChunk.delta) i' j').result⟩ := by
  induction front generalizing answer i j with
  | nil => exact ⟨i, j, by rw [List.flatMap_nil, List.append_nil]; rfl⟩
  | cons c front ih =>
    have first := clean c List.mem_cons_self
    obtain ⟨i', j', rest⟩ := ih (fun x mem => clean x (List.mem_cons_of_mem c mem))
      (answer ++ c.delta) (if !c.delta.isEmpty then i + 1 else i)
      (if !(c.reasoningDelta.getD []).isEmpty then j + 1 else j)
    refine ⟨i', j', ?_⟩
    rw [List.cons_append, forward, provided_eq, provided_eq, mk_ok_bind, mk_ok_bind,
      if_neg (Bool.eq_false_iff.mp first), rest,
      spoken, List.flatMap_cons]
    simp only [List.append_assoc]

def answered (request : AgentRunRequest) (provider : LLMStream) : Run D (Option Text) :=
  forward request (streamGeneration provider).result (streamGeneration provider).outputs [] 0 0

def visible (provider : LLMStream) : List LLMStreamChunk :=
  (receivedFrom provider).filter LLMStreamChunk.hasContent

theorem visible_text (provider : LLMStream) :
    (visible provider).flatMap LLMStreamChunk.delta = answerText provider := by
  unfold visible answerText
  induction receivedFrom provider with
  | nil => rfl
  | cons c cs ih =>
    cases content : c.hasContent with
    | true => rw [List.filter_cons_of_pos content, List.flatMap_cons, List.flatMap_cons, ih]
    | false =>
      have silent : c.delta = [] := by
        rw [LLMStreamChunk.hasContent, Bool.or_eq_false_iff, Bool.not_eq_false'] at content
        exact List.isEmpty_iff.mp content.1
      rw [List.filter_cons_of_neg (Bool.eq_false_iff.mp content), List.flatMap_cons, silent,
        List.nil_append, ih]

theorem answered_quiet (request : AgentRunRequest) {provider : LLMStream}
    (clean : ∀ c ∈ visible provider, c.isError = false) :
    answered (D := D) request provider =
      ⟨spoken request 0 0 (visible provider),
        (streamGeneration provider).result.map fun _ => some (answerText provider)⟩ := by
  have outputs : (streamGeneration provider).outputs = visible provider := by
    rw [streamGeneration, relay_eq]
    rfl
  obtain ⟨i, j, split⟩ := forward_append (D := D) request (streamGeneration provider).result
    (visible provider) [] clean [] 0 0
  rw [List.append_nil] at split
  rw [answered, outputs, split, visible_text, List.nil_append, forward]
  cases (streamGeneration provider).result with
  | ok a => exact congrArg₂ Emission.mk (List.append_nil _) rfl
  | error e => exact congrArg₂ Emission.mk (List.append_nil _) rfl

theorem answered_failed (request : AgentRunRequest) {provider : LLMStream}
    {front : List LLMStreamChunk} {c : LLMStreamChunk} (split : visible provider = front ++ [c])
    (failed : c.isError = true) (clean : ∀ x ∈ front, x.isError = false) :
    (answered (D := D) request provider).result = .ok none ∧
      errorEvent request "AGENT_LLM_ERROR" "生成失败" ∈
        (answered (D := D) request provider).outputs := by
  have outputs : (streamGeneration provider).outputs = front ++ [c] := by
    rw [streamGeneration, relay_eq]
    exact split
  obtain ⟨i, j, run⟩ := forward_append (D := D) request (streamGeneration provider).result
    front [c] clean [] 0 0
  rw [answered, outputs, run, forward, provided_eq, provided_eq, mk_ok_bind, mk_ok_bind,
    if_pos failed]
  refine ⟨rfl, ?_⟩
  refine List.mem_append_right _ (List.mem_append_right _ (List.mem_append_right _ ?_))
  exact List.mem_cons_self

/-- What the loop makes of the stream: its text, an exception, or an error event. -/
theorem answered_spec (request : AgentRunRequest) (provider : LLMStream) :
    (answered (D := D) request provider).result = answerOf provider ∧
      (answerOf provider = .ok none →
        errorEvent request "AGENT_LLM_ERROR" "生成失败" ∈
          (answered (D := D) request provider).outputs) ∧
      (answerOf provider ≠ .ok none →
        (answered (D := D) request provider).outputs = spoken request 0 0 (visible provider)) := by
  have result : (streamGeneration provider).result =
      if (receivedFrom provider).any LLMStreamChunk.finishes then .ok ()
      else (streamComplete provider).result := by
    rw [streamGeneration, relay_eq]
    rfl
  by_cases shown : ((receivedFrom provider).any fun c => c.isError && c.hasContent) = true
  · have answer : answerOf provider = .ok none := by rw [answerOf, if_pos shown]
    obtain ⟨x, mem, both⟩ := List.any_eq_true.mp shown
    obtain ⟨failed, content⟩ := (Bool.and_eq_true _ _).mp both
    rcases received_error_last (streamComplete provider).outputs with
      none | ⟨front, c, split, -, clean⟩
    · exact absurd failed (Bool.eq_false_iff.mp (none x mem))
    · have last : x = c := by
        rw [receivedFrom, split] at mem
        rcases List.mem_append.mp mem with old | new
        · exact absurd failed (Bool.eq_false_iff.mp (clean x old))
        · exact List.mem_singleton.mp new
      subst last
      have reached : visible provider = front.filter LLMStreamChunk.hasContent ++ [x] := by
        rw [visible, receivedFrom, split, List.filter_append, List.filter_cons_of_pos content]
        rfl
      obtain ⟨ended, told⟩ := answered_failed (D := D) request reached failed
        fun y old => clean y (List.mem_of_mem_filter old)
      exact ⟨ended.trans answer.symm, fun _ => told, fun other => absurd answer other⟩
  · have clean (c : LLMStreamChunk) (mem : c ∈ visible provider) : c.isError = false := by
      obtain ⟨there, content⟩ := List.mem_filter.mp mem
      refine Bool.eq_false_iff.mpr fun failed => shown ?_
      exact List.any_eq_true.mpr ⟨c, there, (Bool.and_eq_true _ _).mpr ⟨failed, content⟩⟩
    have answer : answerOf provider =
        (streamGeneration provider).result.map fun _ => some (answerText provider) := by
      rw [answerOf, if_neg shown, result]
      split <;> rfl
    have quiet := answered_quiet (D := D) request clean
    rw [quiet]
    refine ⟨answer.symm, fun none => ?_, fun _ => rfl⟩
    rw [answer] at none
    cases ended : (streamGeneration provider).result with
    | ok a => rw [ended] at none; exact absurd (Except.ok.inj none) (Option.some_ne_none _)
    | error e => rw [ended] at none; cases none

def memoryOf (runner : AgentRunner) (replies : Replies D) : Except Raised Text :=
  if runner.memory then replies.memoryContext else .ok []

def intentOf (cfg : AgentConfig) (lower : Text → Text) (replies : Replies D)
    (request : AgentRunRequest) : Except Raised Text :=
  (if cfg.enableDynamicIntent then replies.dynamicIntent.map fun content => lower (strip content)
    else .ok (classifyByRules lower request.question
      ((request.intent.map AgentIntent.name).getD []))).map
    fun intent => if intent ∈ validIntents then intent else cfg.defaultIntent

def branchOf (intent : Text) : Text := if intent ∈ validIntents then intent else "qa".toList

def retrievalOf (replies : Replies D) (request : AgentRunRequest) (branch : Text) :
    Except Raised (List RetrievalChunk) :=
  if branch = "generate".toList ∨ request.resourceIDs = [] then .ok []
  else
    match replies.retrieved 0 with
    | .ok chunks => .ok chunks
    | .error (.retrievalForbidden message) => .error (.retrievalForbidden message)
    | .error _ => .ok []

def citationsOf (runner : AgentRunner) (replies : Replies D) (chunks : List RetrievalChunk) :
    Except Raised (List (Citation D)) :=
  if runner.citation = false ∨ chunks = [] then .ok [] else replies.citations

def savedOf (runner : AgentRunner) (replies : Replies D) : Except Raised Unit :=
  if runner.memory then replies.savedTurn else .ok ()

structure Prepared (runner : AgentRunner) (lower : Text → Text) (replies : Replies D)
    (request : AgentRunRequest) where
  memory : Text
  intent : Text
  chunks : List RetrievalChunk
  loaded : memoryOf runner replies = .ok memory
  recognised : intentOf runner.config lower replies request = .ok intent
  retrieved : retrievalOf replies request (branchOf intent) = .ok chunks

structure Validated (runner : AgentRunner) (lower : Text → Text) (replies : Replies D)
    (request : AgentRunRequest) extends Prepared runner lower replies request where
  spoke : answerOf replies.provider = .ok (some (answerText replies.provider))
  limited : 0 < runner.config.recursionLimit

structure Course (runner : AgentRunner) (lower : Text → Text) (replies : Replies D)
    (request : AgentRunRequest) extends Validated runner lower replies request where
  citations : List (Citation D)
  cited : citationsOf runner replies chunks = .ok citations
  saved : savedOf runner replies = .ok ()

variable {runner : AgentRunner} {lower : Text → Text} {replies : Replies D}
  {request : AgentRunRequest}

def countOf (runner : AgentRunner) (previous : Option (AgentState D)) : ℤ :=
  match previous with
  | none => 0
  | some saved => if runner.checkpointer then saved.iterations else 0

def stateWith (runner : AgentRunner) (request : AgentRunRequest) (count : ℤ)
    (memory intent : Text) (chunks : List RetrievalChunk) : AgentState D :=
  { initialState runner.config request with
    memoryContext := memory
    intent := intent
    retrievedChunks := chunks
    iterations := count }

def asked (request : AgentRunRequest) : Text := (request.intent.map AgentIntent.name).getD []

theorem startState_eq (previous : Option (AgentState D)) :
    startState runner request previous =
      stateWith runner request (countOf runner previous) [] (asked request) [] := by
  unfold startState countOf
  cases previous with
  | none => rfl
  | some saved =>
    dsimp only
    split <;> rfl

def draftOf (cfg : AgentConfig) (answer : Text) : Text :=
  if answer = [] then cfg.fallbackMessage else answer

variable {count : ℤ} {memory intent : Text} {chunks : List RetrievalChunk}

theorem loadContext_eq :
    loadContext runner replies (stateWith runner request count [] intent []) =
      ⟨[], (memoryOf runner replies).map fun memory =>
        stateWith runner request count memory intent []⟩ := by
  unfold loadContext memoryOf
  split
  · cases replies.memoryContext <;> rfl
  · rfl

theorem recogniseIntent_eq :
    recogniseIntent (agentNodes runner.config lower replies) request
        (stateWith runner request count memory (asked request) []) =
      match intentOf runner.config lower replies request with
      | .ok intent => ⟨[
      .event (.nodeStart request.messageID "intent".toList request.conversationID),
          .event (.nodeEnd request.messageID "intent".toList (.intent intent))],
          .ok (stateWith runner request count memory intent [])⟩
      | .error e =>
        ⟨[.event (.nodeStart request.messageID "intent".toList request.conversationID)],
          .error e⟩ := by
  have node : (agentNodes runner.config lower replies).intentNode
      (stateWith runner request count memory (asked request) []) =
      (intentOf runner.config lower replies request).map fun intent =>
        { intent := some intent } := by
    change intentNode runner.config lower replies.dynamicIntent _ = _
    unfold intentNode intentOf
    split
    · cases replies.dynamicIntent <;> rfl
    · rfl
  unfold recogniseIntent
  rw [node]
  cases intentOf runner.config lower replies request <;> rfl

def retrieveOutputs (request : AgentRunRequest) (retrieved : Except Raised (List RetrievalChunk)) :
    List (Output D) :=
  .event (.nodeStart request.messageID "retrieve".toList request.conversationID) ::
    match retrieved with
    | .ok chunks =>
      [.event (.nodeEnd request.messageID "retrieve".toList (.retrieved chunks.length))]
    | .error _ => []

theorem retrieve_eq {branch : Text} (reads : branch ≠ "generate".toList) :
    retrieve (agentNodes runner.config lower replies) request 0
        (stateWith runner request count memory intent []) =
      ⟨retrieveOutputs request (retrievalOf replies request branch),
        (retrievalOf replies request branch).map fun chunks =>
          stateWith runner request count memory intent chunks⟩ := by
  have node : (agentNodes runner.config lower replies).retrievalNode 0
      (stateWith runner request count memory intent []) =
      (retrievalOf replies request branch).map fun chunks =>
        { retrievedChunks := some chunks, citations := some [] } := by
    change retrievalNode (replies.retrieved 0) _ = _
    unfold retrievalNode retrievalOf
    have kept : (stateWith (D := D) runner request count memory intent []).resourceIDs =
        request.resourceIDs := rfl
    by_cases blank : request.resourceIDs = []
    · rw [if_pos (kept.trans blank), if_pos (Or.inr blank)]
      rfl
    · rw [if_neg fun none => blank (kept.symm.trans none), if_neg (not_or.mpr ⟨reads, blank⟩)]
      rcases replies.retrieved 0 with e | chunks
      · cases e <;> rfl
      · rfl
  unfold retrieve
  rw [node]
  cases retrievalOf replies request branch <;> rfl

def branchOutputs (request : AgentRunRequest) (branch : Text)
    (retrieved : Except Raised (List RetrievalChunk)) : List (Output D) :=
  if branch = "generate".toList ∨ branch = "summarize".toList ∧ request.resourceIDs = [] then []
  else retrieveOutputs request retrieved

theorem branchOf_cases (intent : Text) :
    branchOf intent = "qa".toList ∧ intent ≠ "compare".toList ∨
      branchOf intent = "compare".toList ∧ intent = "compare".toList ∨
      branchOf intent = "summarize".toList ∨ branchOf intent = "generate".toList := by
  unfold branchOf
  by_cases valid : intent ∈ validIntents
  · rw [if_pos valid]
    simp only [validIntents, List.mem_cons, List.not_mem_nil, or_false] at valid
    rcases valid with rfl | rfl | rfl | rfl
    · exact .inr (.inr (.inl rfl))
    · exact .inl ⟨rfl, by decide⟩
    · exact .inr (.inl ⟨rfl, rfl⟩)
    · exact .inr (.inr (.inr rfl))
  · rw [if_neg valid]
    refine .inl ⟨rfl, fun same => valid ?_⟩
    rw [same]
    decide

theorem selectBranch_eq :
    selectBranch (agentNodes runner.config lower replies) request
        (stateWith runner request count memory intent []) =
      ⟨branchOutputs request (branchOf intent) (retrievalOf replies request (branchOf intent)),
        (retrievalOf replies request (branchOf intent)).map fun chunks =>
          (stateWith runner request count memory intent chunks, branchOf intent)⟩ := by
  have route : routeByIntent (stateWith (D := D) runner request count memory intent []) =
      branchOf intent := rfl
  unfold selectBranch
  rw [route]
  rcases branchOf_cases intent with ⟨qa, other⟩ | ⟨compare, same⟩ | summarize | generate
  · have reads : branchOf intent ≠ "generate".toList := by rw [qa]; decide
    dsimp only
    rw [if_pos (.inl qa), retrieve_eq reads, branchOutputs,
      if_neg (not_or.mpr ⟨reads, fun all => absurd (qa.symm.trans all.1) (by decide)⟩)]
    cases retrievalOf replies request (branchOf intent) with
    | ok chunks =>
      refine congrArg₂ Emission.mk (List.append_nil _) ?_
      exact congrArg Except.ok (Prod.ext rfl ((if_neg other).trans qa.symm))
    | error e => rfl
  · have reads : branchOf intent ≠ "generate".toList := by rw [compare]; decide
    dsimp only
    rw [if_pos (.inr compare), retrieve_eq reads, branchOutputs,
      if_neg (not_or.mpr ⟨reads, fun all => absurd (compare.symm.trans all.1) (by decide)⟩)]
    cases retrievalOf replies request (branchOf intent) with
    | ok chunks =>
      refine congrArg₂ Emission.mk (List.append_nil _) ?_
      exact congrArg Except.ok (Prod.ext rfl ((if_pos same).trans compare.symm))
    | error e => rfl
  · have reads : branchOf intent ≠ "generate".toList := by rw [summarize]; decide
    dsimp only
    rw [if_neg (by rw [summarize]; decide), branchOutputs]
    by_cases blank : request.resourceIDs = []
    · rw [if_neg fun all => all.2.1 blank, if_pos (.inr ⟨summarize, blank⟩), retrievalOf,
        if_pos (.inr blank)]
      rfl
    · rw [if_pos ⟨summarize, blank, rfl⟩, retrieve_eq reads,
        if_neg (not_or.mpr ⟨reads, fun all => blank all.2⟩)]
      cases retrievalOf replies request (branchOf intent) with
      | ok chunks => exact congrArg₂ Emission.mk (List.append_nil _) rfl
      | error e => rfl
  · dsimp only
    rw [if_neg (by rw [generate]; decide), if_neg fun all => ?_, branchOutputs,
      if_pos (.inl generate), retrievalOf, if_pos (.inl generate)]
    · rfl
    · exact absurd (generate.symm.trans all.1) (by decide)

def draftedState (runner : AgentRunner) (request : AgentRunRequest) (count : ℤ)
    (memory intent : Text) (chunks : List RetrievalChunk) (draft : Text) : AgentState D :=
  { stateWith runner request count memory intent chunks with draftAnswer := draft }

def generateOutputs (request : AgentRunRequest) (provider : LLMStream) (state : AgentState D)
    (branch : Text) : List (Output D) :=
  .event (.nodeStart request.messageID branch request.conversationID) :: .generates state branch ::
    (answered request provider).outputs

theorem generate_eq (runner : AgentRunner) (lower : Text → Text) (replies : Replies D)
    (request : AgentRunRequest) (count : ℤ) (memory intent : Text) (chunks : List RetrievalChunk)
    (branch : Text) :
    generate runner (agentNodes runner.config lower replies) request
        (stateWith runner request count memory intent chunks) branch =
      match answerOf replies.provider with
      | .ok (some answer) =>
        ⟨generateOutputs request replies.provider
            (stateWith runner request count memory intent chunks) branch ++
            [.event (.nodeEnd request.messageID branch
              (.drafted (draftOf runner.config answer).length))],
          .ok (some (draftedState runner request count memory intent chunks
            (draftOf runner.config answer)))⟩
      | .ok none =>
        ⟨generateOutputs request replies.provider
          (stateWith runner request count memory intent chunks) branch, .ok none⟩
      | .error e =>
        ⟨generateOutputs request replies.provider
          (stateWith runner request count memory intent chunks) branch, .error e⟩ := by
  have result := (answered_spec (D := D) request replies.provider).1
  change (emit (.event (.nodeStart request.messageID branch request.conversationID)) >>= fun _ =>
    emit (.generates (stateWith runner request count memory intent chunks) branch) >>= fun _ =>
      (answered request replies.provider >>= keepDraft runner request
        (stateWith runner request count memory intent chunks) branch) : Run D _) = _
  rw [bind_of_ok _ rfl, bind_of_ok _ rfl]
  cases answer : answerOf replies.provider with
  | ok spoke =>
    rw [answer] at result
    rw [bind_of_ok _ result]
    cases spoke with
    | none =>
      refine congrArg₂ Emission.mk ?_ rfl
      exact congrArg (fun rest => _ :: _ :: rest) (List.append_nil _)
    | some text => rfl
  | error e =>
    rw [answer] at result
    rw [bind_of_error _ result]
    rfl

theorem validateLoop_eq {draft : Text} (limit : ℕ) :
    validateLoop (agentNodes runner.config lower replies) request (limit + 1) 0
        (draftedState runner request count memory intent chunks draft) =
      ⟨[.event (.nodeStart request.messageID "validate".toList request.conversationID),
          .validates (draftedState runner request count memory intent chunks draft),
          .event (.nodeEnd request.messageID "validate".toList (.validated true (count + 1)))],
        .ok { draftedState runner request (count + 1) memory intent chunks draft with
          finalAnswer := draft }⟩ := rfl

def storeOutputs (runner : AgentRunner) (request : AgentRunRequest) (state : AgentState D)
    (citations : List (Citation D)) : List (Output D) :=
  (citations.map fun c => .event (.citation request.messageID c)) ++
    ((if runner.checkpointer then
        [.savesCheckpoint request.conversationID { state with citations }] else []) ++
      if runner.memory then
        [.savesTurn request.userID request.conversationID request.question state.draftAnswer]
      else [])

def citeOutputs (runner : AgentRunner) (request : AgentRunRequest) (state : AgentState D) :
    List (Output D) :=
  if runner.citation = false ∨ state.retrievedChunks = [] then []
  else [.buildsCitations state.draftAnswer state.retrievedChunks request.resourceIDs]

theorem buildCitations_eq (state : AgentState D) :
    AgentRun.buildCitations runner replies request state =
      ⟨citeOutputs runner request state, citationsOf runner replies state.retrievedChunks⟩ := by
  unfold AgentRun.buildCitations citeOutputs citationsOf
  split
  · rfl
  · exact congrArg₂ Emission.mk rfl rfl

theorem conclude_eq (state : AgentState D) :
    conclude runner replies request state =
      match citationsOf runner replies state.retrievedChunks, savedOf runner replies with
      | .error e, _ => ⟨citeOutputs runner request state, .error e⟩
      | .ok citations, .error e =>
        ⟨citeOutputs runner request state ++ storeOutputs runner request state citations, .error e⟩
      | .ok citations, .ok _ =>
        ⟨citeOutputs runner request state ++ (storeOutputs runner request state citations ++
          [.event (.done request.messageID state.iterations state.lowConfidence
            citations.length)]), .ok ()⟩ := by
  unfold conclude
  rw [buildCitations_eq]
  cases citationsOf runner replies state.retrievedChunks with
  | error e => rfl
  | ok citations =>
    rw [mk_ok_bind]
    unfold storeOutputs savedOf
    cases runner.memory with
    | true => cases replies.savedTurn <;> cases runner.checkpointer <;>
        simp [emitAll, provided, emit, lift, pure_eq]
    | false => cases runner.checkpointer <;> simp [emitAll, provided, emit, pure_eq]

def early : Output D → Bool
  | .event (.nodeEnd _ _ (.validated _ _)) | .event (.done ..) | .savesCheckpoint .. => false
  | _ => true

theorem retrieveOutputs_early (retrieved : Except Raised (List RetrievalChunk)) :
    ∀ o ∈ retrieveOutputs (D := D) request retrieved, early o = true := by
  cases retrieved <;> simp [retrieveOutputs, early]

theorem branchOutputs_early (branch : Text) (retrieved : Except Raised (List RetrievalChunk)) :
    ∀ o ∈ branchOutputs (D := D) request branch retrieved, early o = true := by
  unfold branchOutputs
  split
  · exact nofun
  · exact retrieveOutputs_early retrieved

theorem forward_early (request : AgentRunRequest) (ended : Except Raised Unit)
    (cs : List LLMStreamChunk) (answer : Text) (i j : ℕ) :
    ∀ o ∈ (forward (D := D) request ended cs answer i j).outputs, early o = true := by
  induction cs generalizing answer i j with
  | nil => cases ended <;> exact nofun
  | cons c cs ih =>
    intro o mem
    rw [forward, provided_eq, provided_eq, mk_ok_bind, mk_ok_bind] at mem
    rcases List.mem_append.mp mem with delta | rest
    · split at delta
      · rw [List.mem_singleton.mp delta]
        rfl
      · exact absurd delta List.not_mem_nil
    · rcases List.mem_append.mp rest with thought | later
      · split at thought
        · rw [List.mem_singleton.mp thought]
          rfl
        · exact absurd thought List.not_mem_nil
      · split at later
        · rcases List.mem_append.mp later with error | nothing
          · rw [List.mem_singleton.mp error]
            rfl
          · exact absurd nothing List.not_mem_nil
        · exact ih _ _ _ o later

def introOutputs (prepared : Prepared runner lower replies request) : List (Output D) :=
  .event (.nodeStart request.messageID "intent".toList request.conversationID) ::
    .event (.nodeEnd request.messageID "intent".toList (.intent prepared.intent)) ::
      branchOutputs request (branchOf prepared.intent) (.ok prepared.chunks)

theorem prepare_of_prepared (prepared : Prepared runner lower replies request) (count : ℤ) :
    prepare runner (agentNodes runner.config lower replies) replies request
        (stateWith runner request count [] (asked request) []) =
      ⟨introOutputs prepared,
        .ok (stateWith runner request count prepared.memory prepared.intent prepared.chunks,
          branchOf prepared.intent)⟩ := by
  unfold prepare
  rw [loadContext_eq, prepared.loaded]
  change (⟨[], .ok _⟩ : Run D _) >>= _ = _
  rw [mk_ok_bind, recogniseIntent_eq, prepared.recognised]
  dsimp only
  rw [mk_ok_bind, selectBranch_eq, prepared.retrieved]
  rfl

theorem prepare_of_unprepared (fails : IsEmpty (Prepared runner lower replies request)) :
    ∃ outputs e, ∀ count, prepare runner (agentNodes runner.config lower replies) replies request
      (stateWith (D := D) runner request count [] (asked request) []) = ⟨outputs, .error e⟩ ∧
      ∀ o ∈ outputs, early o = true := by
  unfold prepare
  cases loaded : memoryOf runner replies with
  | error e => exact ⟨[], e, fun count => ⟨by rw [loadContext_eq, loaded]; rfl, nofun⟩⟩
  | ok memory =>
    cases recognised : intentOf runner.config lower replies request with
    | error e =>
      refine ⟨[.event (.nodeStart request.messageID "intent".toList request.conversationID)], e,
        fun count => ⟨?_, ?_⟩⟩
      · rw [loadContext_eq, loaded]
        change (⟨[], .ok _⟩ : Run D _) >>= _ = _
        rw [mk_ok_bind, recogniseIntent_eq, recognised]
        rfl
      · exact List.forall_mem_cons.mpr ⟨rfl, nofun⟩
    | ok intent =>
      cases retrieved : retrievalOf replies request (branchOf intent) with
      | ok chunks =>
        exact fails.elim ⟨memory, intent, chunks, loaded, recognised, retrieved⟩
      | error e =>
        refine ⟨.event (.nodeStart request.messageID "intent".toList request.conversationID) ::
          .event (.nodeEnd request.messageID "intent".toList (.intent intent)) ::
            branchOutputs request (branchOf intent) (.error e), e, fun count => ⟨?_, ?_⟩⟩
        · rw [loadContext_eq, loaded]
          change (⟨[], .ok _⟩ : Run D _) >>= _ = _
          rw [mk_ok_bind, recogniseIntent_eq, recognised]
          dsimp only
          rw [mk_ok_bind, selectBranch_eq, retrieved]
          rfl
        · exact List.forall_mem_cons.mpr ⟨rfl, List.forall_mem_cons.mpr
            ⟨rfl, branchOutputs_early _ _⟩⟩

def validateOutputs (runner : AgentRunner) (prepared : Prepared runner lower replies request)
    (count : ℤ) : List (Output D) :=
  [.event (.nodeEnd request.messageID (branchOf prepared.intent)
      (.drafted (draftOf runner.config (answerText replies.provider)).length)),
    .event (.nodeStart request.messageID "validate".toList request.conversationID),
    .validates (draftedState runner request count prepared.memory prepared.intent prepared.chunks
      (draftOf runner.config (answerText replies.provider))),
    .event (.nodeEnd request.messageID "validate".toList (.validated true (count + 1)))]

def validatedState (runner : AgentRunner) (prepared : Prepared runner lower replies request)
    (count : ℤ) : AgentState D :=
  { draftedState runner request (count + 1) prepared.memory prepared.intent prepared.chunks
      (draftOf runner.config (answerText replies.provider)) with
    finalAnswer := draftOf runner.config (answerText replies.provider) }

def spokenOutputs (prepared : Prepared runner lower replies request) (count : ℤ) :
    List (Output D) :=
  generateOutputs request replies.provider
    (stateWith runner request count prepared.memory prepared.intent prepared.chunks)
    (branchOf prepared.intent)

theorem runNodes_of_validated (validated : Validated runner lower replies request) (count : ℤ) :
    runNodes runner (agentNodes runner.config lower replies) replies request
        (stateWith runner request count [] (asked request) []) =
      ⟨introOutputs validated.toPrepared ++ (spokenOutputs validated.toPrepared count ++
          (validateOutputs runner validated.toPrepared count ++
            (conclude runner replies request
              (validatedState runner validated.toPrepared count)).outputs)),
        (conclude runner replies request
          (validatedState runner validated.toPrepared count)).result⟩ := by
  obtain ⟨limit, positive⟩ : ∃ limit, runner.config.recursionLimit.toNat = limit + 1 := by
    have limited := validated.limited
    exact ⟨runner.config.recursionLimit.toNat - 1, by omega⟩
  unfold runNodes
  rw [prepare_of_prepared validated.toPrepared, mk_ok_bind]
  dsimp only
  rw [generate_eq, validated.spoke]
  dsimp only
  rw [mk_ok_bind, complete, positive, validateLoop_eq, mk_ok_bind, List.append_assoc]
  rfl

theorem eventsOf_append (first second : List (Output D)) :
    eventsOf (first ++ second) = eventsOf first ++ eventsOf second := List.filterMap_append ..

theorem mem_eventsOf {e : AgentStreamEvent D} {outputs : List (Output D)} :
    e ∈ eventsOf outputs ↔ .event e ∈ outputs := by
  unfold eventsOf
  rw [List.mem_filterMap]
  constructor
  · rintro ⟨o, mem, same⟩
    cases o with
    | event e' => exact Option.some.inj same ▸ mem
    | generates | validates | buildsCitations | savesCheckpoint | savesTurn => cases same
  · exact fun mem => ⟨_, mem, rfl⟩

theorem introOutputs_early (prepared : Prepared runner lower replies request) :
    ∀ o ∈ introOutputs prepared, early o = true :=
  List.forall_mem_cons.mpr ⟨rfl, List.forall_mem_cons.mpr ⟨rfl, branchOutputs_early _ _⟩⟩

theorem spokenOutputs_early (prepared : Prepared runner lower replies request) (count : ℤ) :
    ∀ o ∈ spokenOutputs prepared count, early o = true :=
  List.forall_mem_cons.mpr ⟨rfl, List.forall_mem_cons.mpr ⟨rfl, forward_early _ _ _ _ _ _⟩⟩

/-- The events and the result of a run that stops before it validates. -/
structure Stops (runner : AgentRunner) (lower : Text → Text) (replies : Replies D)
    (request : AgentRunRequest) (events : List (AgentStreamEvent D)) (result : Except Raised Unit) :
    Prop where
  streams : ∀ count, eventsOf (runNodes runner (agentNodes runner.config lower replies) replies
    request (stateWith runner request count [] (asked request) [])).outputs = events
  ends : ∀ count, (runNodes runner (agentNodes runner.config lower replies) replies
    request (stateWith (D := D) runner request count [] (asked request) [])).result = result
  early_ : ∀ count, ∀ o ∈ (runNodes runner (agentNodes runner.config lower replies) replies
    request (stateWith (D := D) runner request count [] (asked request) [])).outputs,
      early o = true
  told : result = .ok () →
    ∃ code message, .error request.messageID request.conversationID code message ∈ events

theorem runNodes_of_prepared (prepared : Prepared runner lower replies request) (count : ℤ)
    {generated : List (Output D)} {ended : Except Raised (Option (AgentState D))}
    (generates : generate runner (agentNodes runner.config lower replies) request
      (stateWith runner request count prepared.memory prepared.intent prepared.chunks)
      (branchOf prepared.intent) = ⟨generated, ended⟩) :
    runNodes runner (agentNodes runner.config lower replies) replies request
        (stateWith runner request count [] (asked request) []) =
      ⟨introOutputs prepared ++ ((⟨generated, ended⟩ : Run D _) >>=
          complete runner (agentNodes runner.config lower replies) replies request).outputs,
        ((⟨generated, ended⟩ : Run D _) >>=
          complete runner (agentNodes runner.config lower replies) replies request).result⟩ := by
  unfold runNodes
  rw [prepare_of_prepared prepared, mk_ok_bind]
  dsimp only
  rw [generates]

theorem answerText_of_answer {stream : LLMStream} {text : Text}
    (answer : answerOf stream = .ok (some text)) : text = answerText stream := by
  unfold answerOf at answer
  split at answer
  · exact absurd (Except.ok.inj answer).symm (Option.some_ne_none text)
  · split at answer
    · exact (Option.some.inj (Except.ok.inj answer)).symm
    · cases ended : (streamComplete stream).result with
      | ok a =>
        rw [ended] at answer
        exact (Option.some.inj (Except.ok.inj answer)).symm
      | error e => rw [ended] at answer; cases answer

theorem spoken_early (prepared : Prepared runner lower replies request) (count : ℤ) :
    ∀ o ∈ introOutputs prepared ++ spokenOutputs prepared count, early o = true :=
  List.forall_mem_append.mpr ⟨introOutputs_early prepared, spokenOutputs_early prepared count⟩

theorem stops_of_raised (prepared : Prepared runner lower replies request) {e : Raised}
    (answer : answerOf replies.provider = .error e) :
    ∃ events result, Stops runner lower replies request events result := by
  have generates (count : ℤ) := generate_eq runner lower replies request count prepared.memory
    prepared.intent prepared.chunks (branchOf prepared.intent)
  rw [answer] at generates
  have run (count : ℤ) := runNodes_of_prepared prepared count (generates count)
  refine ⟨eventsOf (introOutputs prepared ++ spokenOutputs prepared 0), .error e,
    fun count => ?_, fun count => ?_, fun count => ?_, nofun⟩
  · rw [run count, mk_error_bind, eventsOf_append, eventsOf_append]
    rfl
  · rw [run count, mk_error_bind]
  · rw [run count, mk_error_bind]
    exact spoken_early prepared count

theorem stops_of_unanswered (prepared : Prepared runner lower replies request)
    (answer : answerOf replies.provider = .ok none) :
    ∃ events result, Stops runner lower replies request events result := by
  have generates (count : ℤ) := generate_eq runner lower replies request count prepared.memory
    prepared.intent prepared.chunks (branchOf prepared.intent)
  rw [answer] at generates
  have run (count : ℤ) := runNodes_of_prepared prepared count (generates count)
  refine ⟨eventsOf (introOutputs prepared ++ spokenOutputs prepared 0), .ok (),
    fun count => ?_, fun count => ?_, fun count => ?_,
    fun _ => ⟨"AGENT_LLM_ERROR", "生成失败", ?_⟩⟩
  · rw [run count, mk_ok_bind, eventsOf_append, eventsOf_append, eventsOf_append]
    change eventsOf _ ++ (eventsOf _ ++ []) = _
    rw [List.append_nil]
    rfl
  · rw [run count, mk_ok_bind]
    rfl
  · rw [run count, mk_ok_bind]
    change ∀ o ∈ _ ++ (_ ++ [] : List (Output D)), _
    rw [List.append_nil]
    exact spoken_early prepared count
  · have told := (answered_spec (D := D) request replies.provider).2.1 answer
    refine mem_eventsOf.mpr (List.mem_append_right _ ?_)
    exact List.mem_cons_of_mem _ (List.mem_cons_of_mem _ told)

theorem stops_of_limit (prepared : Prepared runner lower replies request) {text : Text}
    (answer : answerOf replies.provider = .ok (some text))
    (limit : runner.config.recursionLimit.toNat = 0) :
    ∃ events result, Stops runner lower replies request events result := by
  have generates (count : ℤ) := generate_eq runner lower replies request count prepared.memory
    prepared.intent prepared.chunks (branchOf prepared.intent)
  rw [answer] at generates
  have run (count : ℤ) := runNodes_of_prepared prepared count (generates count)
  refine ⟨eventsOf (introOutputs prepared ++ (spokenOutputs prepared 0 ++
    [.event (.nodeEnd request.messageID (branchOf prepared.intent)
      (.drafted (draftOf runner.config text).length))])), .error .recursion,
    fun count => ?_, fun count => ?_, fun count => ?_, nofun⟩
  · rw [run count, mk_ok_bind, complete, limit]
    change eventsOf (_ ++ (_ ++ [] : List (Output D))) = _
    rw [List.append_nil, eventsOf_append, eventsOf_append, eventsOf_append, eventsOf_append]
    rfl
  · rw [run count, mk_ok_bind, complete, limit]
    rfl
  · rw [run count, mk_ok_bind, complete, limit]
    change ∀ o ∈ _ ++ ((_ ++ _) ++ [] : List (Output D)), _
    rw [List.append_nil, ← List.append_assoc]
    exact List.forall_mem_append.mpr
      ⟨spoken_early prepared count, List.forall_mem_cons.mpr ⟨rfl, nofun⟩⟩

theorem stops_of_prepared (prepared : Prepared runner lower replies request)
    (fails : IsEmpty (Validated runner lower replies request)) :
    ∃ events result, Stops runner lower replies request events result := by
  cases answer : answerOf replies.provider with
  | error e => exact stops_of_raised prepared answer
  | ok spoke =>
    cases spoke with
    | none => exact stops_of_unanswered prepared answer
    | some text =>
      have same : text = answerText replies.provider := answerText_of_answer answer
      refine stops_of_limit prepared answer ?_
      by_contra positive
      exact fails.elim ⟨prepared, same ▸ answer, by omega⟩

theorem stops_of_unvalidated (fails : IsEmpty (Validated runner lower replies request)) :
    ∃ events result, Stops runner lower replies request events result := by
  by_cases prepared : Nonempty (Prepared runner lower replies request)
  · exact stops_of_prepared prepared.some fails
  · obtain ⟨outputs, e, run⟩ := prepare_of_unprepared (not_nonempty_iff.mp prepared)
    have failed (count : ℤ) : runNodes runner (agentNodes runner.config lower replies) replies
        request (stateWith runner request count [] (asked request) []) = ⟨outputs, .error e⟩ := by
      unfold runNodes
      rw [(run count).1, mk_error_bind]
    exact ⟨eventsOf outputs, .error e, fun count => by rw [failed count],
      fun count => by rw [failed count], fun count => by rw [failed count]; exact (run count).2,
      nofun⟩

def agentRun (runner : AgentRunner) (lower : Text → Text) (replies : Replies D)
    (request : AgentRunRequest) (previous : Option (AgentState D)) : List (Output D) :=
  (runStream runner (agentNodes runner.config lower replies) replies request previous).outputs

def raisedOutputs (request : AgentRunRequest) : Except Raised Unit → List (Output D)
  | .ok _ => []
  | .error e => [errorOf request e]

theorem agentRun_eq (previous : Option (AgentState D)) :
    agentRun runner lower replies request previous =
      (runNodes runner (agentNodes runner.config lower replies) replies request
        (stateWith runner request (countOf runner previous) [] (asked request) [])).outputs ++
      raisedOutputs request
        (runNodes runner (agentNodes runner.config lower replies) replies request
          (stateWith runner request (countOf runner previous) [] (asked request) [])).result := by
  unfold agentRun runStream
  rw [startState_eq, attempt]
  cases (runNodes runner (agentNodes runner.config lower replies) replies request
      (stateWith runner request (countOf runner previous) [] (asked request) [])).result with
  | ok a => exact (List.append_nil _).symm
  | error e => rfl

theorem errorOf_error (request : AgentRunRequest) (e : Raised) : ∃ code message,
    errorOf (D := D) request e =
      .event (.error request.messageID request.conversationID code message) := by
  cases e <;> exact ⟨_, _, rfl⟩

theorem agentRun_of_unvalidated (fails : IsEmpty (Validated runner lower replies request)) :
    ∃ events : List (AgentStreamEvent D), (∃ code message,
        .error request.messageID request.conversationID code message ∈ events) ∧
      ∀ previous, eventsOf (agentRun runner lower replies request previous) = events ∧
        ∀ o ∈ agentRun runner lower replies request previous, early o = true := by
  obtain ⟨events, result, stops⟩ := stops_of_unvalidated fails
  refine ⟨events ++ eventsOf (raisedOutputs request result), ?_, fun previous => ?_⟩
  · cases result with
    | ok a =>
      obtain ⟨code, message, mem⟩ := stops.told rfl
      exact ⟨code, message, List.mem_append_left _ mem⟩
    | error e =>
      obtain ⟨code, message, same⟩ := errorOf_error (D := D) request e
      refine ⟨code, message, List.mem_append_right _ (mem_eventsOf.mpr ?_)⟩
      rw [raisedOutputs, same]
      exact List.mem_cons_self
  · rw [agentRun_eq, eventsOf_append, stops.streams, stops.ends]
    refine ⟨rfl, List.forall_mem_append.mpr ⟨stops.early_ _, ?_⟩⟩
    cases result with
    | ok a => exact nofun
    | error e =>
      refine List.forall_mem_cons.mpr ⟨?_, nofun⟩
      obtain ⟨code, message, same⟩ := errorOf_error (D := D) request e
      rw [same]
      rfl

def concludeOutputs (validated : Validated runner lower replies request) (count : ℤ) :
    List (Output D) :=
  (conclude runner replies request (validatedState runner validated.toPrepared count)).outputs ++
    raisedOutputs request
      (conclude runner replies request (validatedState runner validated.toPrepared count)).result

theorem agentRun_of_validated (validated : Validated runner lower replies request)
    (previous : Option (AgentState D)) :
    agentRun runner lower replies request previous =
      introOutputs validated.toPrepared ++
        (spokenOutputs validated.toPrepared (countOf runner previous) ++
          (validateOutputs runner validated.toPrepared (countOf runner previous) ++
            concludeOutputs validated (countOf runner previous))) := by
  rw [agentRun_eq, runNodes_of_validated validated]
  unfold concludeOutputs
  simp only [List.append_assoc]

theorem concludeOutputs_of_course (course : Course runner lower replies request) (count : ℤ) :
    concludeOutputs course.toValidated count =
      citeOutputs runner request (validatedState runner course.toPrepared count) ++
        (storeOutputs runner request (validatedState runner course.toPrepared count)
            course.citations ++
          [.event (.done request.messageID (count + 1) false course.citations.length)]) := by
  have cited : citationsOf runner replies
      (validatedState runner course.toPrepared count).retrievedChunks = .ok course.citations :=
    course.cited
  unfold concludeOutputs
  rw [conclude_eq, cited, course.saved]
  exact List.append_nil _

theorem concludeOutputs_of_failed (validated : Validated runner lower replies request)
    (fails : IsEmpty (Course runner lower replies request)) (count : ℤ) :
    ∃ code message, .event (.error request.messageID request.conversationID code message) ∈
      concludeOutputs validated count := by
  have raised (outputs : List (Output D)) (e : Raised) : ∃ code message,
      .event (.error request.messageID request.conversationID code message) ∈
        outputs ++ raisedOutputs request (.error e) := by
    obtain ⟨code, message, same⟩ := errorOf_error (D := D) request e
    refine ⟨code, message, List.mem_append_right _ ?_⟩
    rw [raisedOutputs, same]
    exact List.mem_cons_self
  unfold concludeOutputs
  rw [conclude_eq]
  cases cited : citationsOf runner replies
      (validatedState runner validated.toPrepared count).retrievedChunks with
  | error e => exact raised _ e
  | ok citations =>
    cases saved : savedOf runner replies with
    | error e => exact raised _ e
    | ok a => exact fails.elim ⟨validated, citations, cited, saved⟩

theorem agentRun_told (fails : IsEmpty (Course runner lower replies request))
    (previous : Option (AgentState D)) :
    ∃ code message, .error request.messageID request.conversationID code message ∈
      eventsOf (agentRun runner lower replies request previous) := by
  by_cases validated : Nonempty (Validated runner lower replies request)
  · obtain ⟨code, message, mem⟩ :=
      concludeOutputs_of_failed validated.some fails (countOf runner previous)
    refine ⟨code, message, mem_eventsOf.mpr ?_⟩
    rw [agentRun_of_validated validated.some previous]
    exact List.mem_append_right _ (List.mem_append_right _ (List.mem_append_right _ mem))
  · obtain ⟨events, ⟨code, message, mem⟩, same⟩ :=
      agentRun_of_unvalidated (not_nonempty_iff.mp validated)
    exact ⟨code, message, (same previous).1 ▸ mem⟩

theorem agentRun_done_excludes_error {previous : Option (AgentState D)} {messageID m c : Text}
    {iterations : ℤ} {lowConfidence : Bool} {citationCount : ℕ} {code message : String}
    (done : .done messageID iterations lowConfidence citationCount ∈
      eventsOf (agentRun runner lower replies request previous)) :
    .error m c code message ∉ eventsOf (agentRun runner lower replies request previous) := by
  intro told
  obtain ⟨p, accepted, ended⟩ := runStream_accepted runner
    (agentNodes runner.config lower replies) replies request previous
  have same := (protocol_of_accepted accepted ended).terminal_unique done told rfl rfl
  exact AgentStreamEvent.noConfusion rfl (heq_of_eq same)

theorem agentRun_done {previous : Option (AgentState D)} {messageID : Text} {iterations : ℤ}
    {lowConfidence : Bool} {citationCount : ℕ}
    (done : .done messageID iterations lowConfidence citationCount ∈
      eventsOf (agentRun runner lower replies request previous)) :
    Nonempty (Course runner lower replies request) := by
  by_contra none
  obtain ⟨code, message, told⟩ := agentRun_told (not_nonempty_iff.mp none) previous
  exact agentRun_done_excludes_error done told

end KnowledgeCompanion.AgentCourse
