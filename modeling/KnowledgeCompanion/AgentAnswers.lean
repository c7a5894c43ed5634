import KnowledgeCompanion.AgentCourse

/-! The answer of an agent run: what the user is shown of it, and what its markers refer to. -/

namespace KnowledgeCompanion.AgentAnswers

open MarkerText PythonText Citations Emissions AgentNodes AgentRun AgentProtocol AgentCourse

variable {D : Type} {runner : AgentRunner} {lower : Text → Text} {replies : Replies D}
  {request : AgentRunRequest}

def deltaOf : Output D → Option Text
  | .event (.chunk _ delta _) => some delta
  | _ => none

def draftUsed : Output D → Option Text
  | .validates state => some state.draftAnswer
  | .buildsCitations answer _ _ => some answer
  | .savesCheckpoint _ state => some state.draftAnswer
  | .savesTurn _ _ _ answer => some answer
  | _ => none

def promptOf : Output D → Option (List RetrievalChunk)
  | .generates state node => some (contextChunks state node)
  | _ => none

def shownText (outputs : List (Output D)) : Text := (outputs.filterMap deltaOf).flatten

/-- A failure that the stream reports reaches the user, and the answer of a run that is done
is the one the user has been shown. -/
structure Honest (cfg : AgentConfig) (provider : LLMStream) (outputs : List (Output D)) : Prop where
  tells : reportsError provider = true →
    (∃ messageID conversationID code message,
        .error messageID conversationID code message ∈ eventsOf outputs) ∨
      ∃ messageID index, .chunk messageID cfg.fallbackMessage index ∈ eventsOf outputs
  shown : (∃ messageID iterations lowConfidence citationCount,
      .done messageID iterations lowConfidence citationCount ∈ eventsOf outputs) →
    ∀ draft ∈ outputs.filterMap draftUsed, draft = shownText outputs

theorem mem_deltas {outputs : List (Output D)} {delta : Text} :
    delta ∈ outputs.filterMap deltaOf ↔
      ∃ messageID index, .chunk messageID delta index ∈ eventsOf outputs := by
  rw [List.mem_filterMap]
  constructor
  · rintro ⟨o, mem, same⟩
    unfold deltaOf at same
    split at same
    · rename_i messageID text index
      exact ⟨messageID, index, Option.some.inj same ▸ mem_eventsOf.mpr mem⟩
    · exact absurd same.symm (Option.some_ne_none delta)
  · rintro ⟨messageID, index, mem⟩
    exact ⟨_, mem_eventsOf.mp mem, rfl⟩

theorem spoken_deltas (request : AgentRunRequest) (i j : ℕ) (cs : List LLMStreamChunk) :
    (spoken (D := D) request i j cs).filterMap deltaOf =
      (cs.map LLMStreamChunk.delta).filter fun delta => !delta.isEmpty := by
  induction cs generalizing i j with
  | nil => rfl
  | cons c cs ih =>
    have thought (events : List (Output D)) (delta : Text) :
        (if !(c.reasoningDelta.getD []).isEmpty then
          [(.event (.reasoning request.messageID delta j) : Output D)] else []).filterMap deltaOf =
            [] := by
      split <;> rfl
    rw [spoken, List.filterMap_append, List.filterMap_append, ih, thought [], List.nil_append,
      List.map_cons]
    cases silent : c.delta.isEmpty with
    | true => rw [List.filter_cons_of_neg (by rw [silent]; exact Bool.false_ne_true)]; rfl
    | false => rw [List.filter_cons_of_pos (by rw [silent]; rfl)]; rfl

theorem flatten_deltas (cs : List LLMStreamChunk) :
    ((cs.map LLMStreamChunk.delta).filter fun delta => !delta.isEmpty).flatten =
      cs.flatMap LLMStreamChunk.delta := by
  induction cs with
  | nil => rfl
  | cons c cs ih =>
    rw [List.map_cons, List.flatMap_cons, ← ih]
    cases silent : c.delta.isEmpty with
    | true =>
      rw [List.filter_cons_of_neg (by rw [silent]; exact Bool.false_ne_true),
        List.isEmpty_iff.mp silent, List.nil_append]
    | false => rw [List.filter_cons_of_pos (by rw [silent]; rfl), List.flatten_cons]

theorem agentRun_of_course (course : Course runner lower replies request)
    (previous : Option (AgentState D)) :
    agentRun runner lower replies request previous =
      introOutputs course.toPrepared ++
        (spokenOutputs course.toPrepared (countOf runner previous) ++
          (validateOutputs runner course.toPrepared (countOf runner previous) ++
            (citeOutputs runner request
                (validatedState runner course.toPrepared (countOf runner previous)) ++
              (storeOutputs runner request
                  (validatedState runner course.toPrepared (countOf runner previous))
                  course.citations ++
                [.event (.done request.messageID (countOf runner previous + 1) false
                  course.citations.length)])))) := by
  rw [agentRun_of_validated course.toValidated previous, concludeOutputs_of_course]

theorem spokenOutputs_of_validated (validated : Validated runner lower replies request)
    (count : ℤ) :
    spokenOutputs validated.toPrepared count =
      .event (.nodeStart request.messageID (branchOf validated.intent) request.conversationID) ::
        .generates (stateWith runner request count validated.memory validated.intent
          validated.chunks) (branchOf validated.intent) ::
          spoken request 0 0 (visible replies.provider) := by
  have outputs := (answered_spec (D := D) request replies.provider).2.2
    fun none => Option.some_ne_none _ (Except.ok.inj (validated.spoke.symm.trans none))
  unfold spokenOutputs generateOutputs
  rw [outputs]

theorem intro_events (prepared : Prepared runner lower replies request) :
    ∀ o ∈ introOutputs prepared, ∃ e, o = .event e ∧ deltaOf o = none := by
  unfold introOutputs branchOutputs
  split <;> simp [retrieveOutputs, deltaOf]

theorem spoken_events (request : AgentRunRequest) (i j : ℕ) (cs : List LLMStreamChunk) :
    ∀ o ∈ spoken (D := D) request i j cs, ∃ e, o = .event e := by
  induction cs generalizing i j with
  | nil => exact nofun
  | cons c cs ih =>
    intro o mem
    rw [spoken, List.mem_append, List.mem_append] at mem
    rcases mem with delta | reasoning | rest
    · split at delta
      · exact ⟨_, List.mem_singleton.mp delta⟩
      · exact absurd delta List.not_mem_nil
    · split at reasoning
      · exact ⟨_, List.mem_singleton.mp reasoning⟩
      · exact absurd reasoning List.not_mem_nil
    · exact ih _ _ o rest

def courseCalls (course : Course runner lower replies request) (count : ℤ) : List (Output D) :=
  [.generates (stateWith runner request count course.memory course.intent course.chunks)
      (branchOf course.intent),
    .validates (draftedState runner request count course.memory course.intent course.chunks
      (draftOf runner.config (answerText replies.provider)))] ++
    (citeOutputs runner request (validatedState runner course.toPrepared count) ++
      storeOutputs runner request (validatedState runner course.toPrepared count) course.citations)

theorem course_calls {β : Type} (f : Output D → Option β) (silent : ∀ e, f (.event e) = none)
    (course : Course runner lower replies request) (previous : Option (AgentState D)) :
    (agentRun runner lower replies request previous).filterMap f =
      (courseCalls course (countOf runner previous)).filterMap f := by
  have quiet {outputs : List (Output D)} (events : ∀ o ∈ outputs, ∃ e, o = .event e) :
      outputs.filterMap f = [] := by
    refine List.filterMap_eq_nil_iff.mpr fun o mem => ?_
    obtain ⟨e, rfl⟩ := events o mem
    exact silent e
  have intro_ := quiet fun o mem => (intro_events course.toPrepared o mem).imp fun e h => h.1
  have said := quiet (spoken_events (D := D) request 0 0 (visible replies.provider))
  rw [agentRun_of_course course previous, spokenOutputs_of_validated course.toValidated]
  simp only [courseCalls, validateOutputs, List.filterMap_append, List.filterMap_cons,
    List.filterMap_nil, silent, intro_, said, List.nil_append, List.append_nil, List.cons_append]

theorem cite_silent (state : AgentState D) :
    (citeOutputs runner request state).filterMap deltaOf = [] ∧
      (citeOutputs runner request state).filterMap promptOf = [] ∧
      ∀ draft ∈ (citeOutputs runner request state).filterMap draftUsed,
        draft = state.draftAnswer := by
  unfold citeOutputs
  split
  · exact ⟨rfl, rfl, nofun⟩
  · exact ⟨rfl, rfl, fun draft mem => List.mem_singleton.mp mem⟩

theorem store_silent (state : AgentState D) (citations : List (Citation D)) :
    (storeOutputs runner request state citations).filterMap deltaOf = [] ∧
      (storeOutputs runner request state citations).filterMap promptOf = [] ∧
      ∀ draft ∈ (storeOutputs runner request state citations).filterMap draftUsed,
        draft = state.draftAnswer := by
  have cited {α : Type} (f : Output D → Option α)
      (none : ∀ c, f (.event (.citation request.messageID c)) = none) :
      (citations.map fun c => Output.event (.citation request.messageID c)).filterMap f = [] := by
    rw [List.filterMap_map]
    exact List.filterMap_eq_nil_iff.mpr fun c _ => none c
  unfold storeOutputs
  refine ⟨?_, ?_, ?_⟩
  · rw [List.filterMap_append, cited deltaOf fun _ => rfl, List.filterMap_append]
    split <;> split <;> rfl
  · rw [List.filterMap_append, cited promptOf fun _ => rfl, List.filterMap_append]
    split <;> split <;> rfl
  · rw [List.filterMap_append, cited draftUsed fun _ => rfl, List.filterMap_append, List.nil_append]
    intro draft mem
    rcases List.mem_append.mp mem with saved | kept
    · split at saved
      · exact List.mem_singleton.mp saved
      · exact absurd saved List.not_mem_nil
    · split at kept
      · exact List.mem_singleton.mp kept
      · exact absurd kept List.not_mem_nil

theorem course_deltas (course : Course runner lower replies request)
    (previous : Option (AgentState D)) :
    (agentRun runner lower replies request previous).filterMap deltaOf =
      ((visible replies.provider).map LLMStreamChunk.delta).filter fun delta => !delta.isEmpty := by
  have quiet : (introOutputs course.toPrepared).filterMap deltaOf = [] :=
    List.filterMap_eq_nil_iff.mpr fun o mem => (intro_events course.toPrepared o mem).elim
      fun _ h => h.2
  rw [agentRun_of_course course previous, List.filterMap_append, quiet,
    List.filterMap_append, spokenOutputs_of_validated course.toValidated, List.filterMap_append,
    List.filterMap_append, (cite_silent _).1, List.filterMap_append, (store_silent _ _).1]
  change [] ++ ((spoken request 0 0 (visible replies.provider)).filterMap deltaOf ++ []) = _
  rw [List.append_nil, List.nil_append, spoken_deltas]

theorem course_drafts (course : Course runner lower replies request)
    (previous : Option (AgentState D)) :
    draftOf runner.config (answerText replies.provider) ∈
        (agentRun runner lower replies request previous).filterMap draftUsed ∧
      ∀ draft ∈ (agentRun runner lower replies request previous).filterMap draftUsed,
        draft = draftOf runner.config (answerText replies.provider) := by
  rw [course_calls draftUsed (fun _ => rfl) course previous, courseCalls, List.filterMap_append,
    List.filterMap_append]
  refine ⟨List.mem_append_left _ List.mem_cons_self, fun draft mem => ?_⟩
  rcases List.mem_append.mp mem with validated | rest
  · exact List.mem_singleton.mp validated
  · rcases List.mem_append.mp rest with cited | stored
    · exact (cite_silent _).2.2 draft cited
    · exact (store_silent _ _).2.2 draft stored

theorem course_done (course : Course runner lower replies request)
    (previous : Option (AgentState D)) :
    .done request.messageID (countOf runner previous + 1) false course.citations.length ∈
      eventsOf (agentRun runner lower replies request previous) := by
  refine mem_eventsOf.mpr ?_
  rw [agentRun_of_course course previous]
  refine List.mem_append_right _ (List.mem_append_right _ (List.mem_append_right _ ?_))
  exact List.mem_append_right _ (List.mem_append_right _ List.mem_cons_self)

/-- The run is honest exactly when, unless something that it calls fails, the stream has a text
(or there is no fallback) and, if it reports an error, one of its texts is the fallback. -/
theorem agentRun_honest_iff (runner : AgentRunner) (lower : Text → Text) (replies : Replies D)
    (request : AgentRunRequest) (previous : Option (AgentState D)) :
    Honest runner.config replies.provider (agentRun runner lower replies request previous) ↔
      (Nonempty (Course runner lower replies request) →
        (answerText replies.provider ≠ [] ∨ runner.config.fallbackMessage = []) ∧
        (reportsError replies.provider = true →
          runner.config.fallbackMessage ≠ [] ∧ ∃ c ∈ receivedFrom replies.provider,
            c.delta = runner.config.fallbackMessage)) := by
  constructor
  · rintro honest ⟨course⟩
    have done := course_done course previous
    have shown := honest.shown ⟨_, _, _, _, done⟩ _ (course_drafts course previous).1
    rw [shownText, course_deltas course previous, flatten_deltas, visible_text] at shown
    refine ⟨?_, fun reports => ?_⟩
    · by_cases none : answerText replies.provider = []
      · rw [draftOf, if_pos none] at shown
        exact .inr (shown.trans none)
      · exact .inl none
    · rcases honest.tells reports with ⟨_, _, _, _, told⟩ | ⟨messageID, index, fallback⟩
      · exact absurd told (agentRun_done_excludes_error done)
      · have mem := mem_deltas.mpr ⟨messageID, index, fallback⟩
        rw [course_deltas course previous] at mem
        obtain ⟨text, content⟩ := List.mem_filter.mp mem
        obtain ⟨c, there, same⟩ := List.mem_map.mp text
        refine ⟨fun blank => ?_, c, List.mem_of_mem_filter there, same⟩
        rw [blank] at content
        exact absurd content Bool.false_ne_true
  · intro condition
    refine ⟨fun reports => ?_, ?_⟩
    · by_cases course : Nonempty (Course runner lower replies request)
      · obtain ⟨filled, c, mem, same⟩ := (condition course).2 reports
        refine .inr (mem_deltas.mp ?_)
        have content : (!c.delta.isEmpty) = true := by
          rw [Bool.not_eq_true', ← Bool.not_eq_true, List.isEmpty_iff, same]
          exact filled
        have there : c ∈ visible replies.provider := by
          refine List.mem_filter.mpr ⟨mem, ?_⟩
          rw [LLMStreamChunk.hasContent, content, Bool.true_or]
        rw [course_deltas course.some previous, ← same]
        exact List.mem_filter.mpr ⟨List.mem_map_of_mem there, content⟩
      · obtain ⟨code, message, told⟩ := agentRun_told (not_nonempty_iff.mp course) previous
        exact .inl ⟨_, _, code, message, told⟩
    · rintro ⟨messageID, iterations, lowConfidence, citationCount, done⟩ draft mem
      obtain ⟨course⟩ := agentRun_done done
      rw [shownText, course_deltas course previous, flatten_deltas, visible_text,
        (course_drafts course previous).2 draft mem, draftOf]
      split
      · rename_i none
        exact ((condition ⟨course⟩).1.resolve_left (not_not_intro none)).trans none.symm
      · rfl

def question : AgentRunRequest where
  question := "q".toList
  conversationID := "c".toList
  messageID := "m".toList
  userID := "u".toList
  resourceIDs := ["r".toList]
  intent := some .qa

def answering (provider : LLMStream) : Replies Unit where
  memoryContext := .ok []
  dynamicIntent := .ok []
  retrieved _ := .ok [⟨"k".toList, "r".toList, "t".toList, 1, []⟩]
  provider := provider
  citations := .ok []
  savedTurn := .ok ()

def broken : LLMStream := ⟨[{ delta := "a".toList }], .error (.llmStream "流式输出中断")⟩

def brokenCourse : Course {} id (answering broken) question where
  memory := []
  intent := "qa".toList
  chunks := [⟨"k".toList, "r".toList, "t".toList, 1, []⟩]
  loaded := rfl
  recognised := rfl
  retrieved := rfl
  spoke := rfl
  limited := by decide
  citations := []
  cited := rfl
  saved := rfl

theorem broken_not_told :
    ¬ Honest {} broken (agentRun {} id (answering broken) question none) := by
  intro honest
  rcases honest.tells rfl with ⟨_, _, _, _, told⟩ | fallback
  · exact absurd told (agentRun_done_excludes_error (course_done brokenCourse none))
  · have mem := mem_deltas.mpr fallback
    rw [course_deltas brokenCourse none] at mem
    exact absurd mem (by decide)

/-- The markers of an answer are the numbers of chunks in the prompt. -/
def Traced (answer : Text) (chunks : ℕ) : Prop :=
  ∀ digits ∈ numbersOf (tokens pythonDigits answer),
    ∃ n, intOfDigits digits = some n ∧ 1 ≤ n ∧ n ≤ chunks

/-- When the run is done and does not call its answer uncertain, the markers of the answer are
traced. -/
def Traceable (outputs : List (Output D)) : Prop :=
  (∃ messageID iterations citationCount,
      .done messageID iterations false citationCount ∈ eventsOf outputs) →
    ∀ chunks ∈ outputs.filterMap promptOf, ∀ state, .validates state ∈ outputs →
      Traced state.draftAnswer chunks.length

theorem course_prompts (course : Course runner lower replies request)
    (previous : Option (AgentState D)) :
    (agentRun runner lower replies request previous).filterMap promptOf = [course.chunks] := by
  have given : contextChunks (stateWith (D := D) runner request (countOf runner previous)
      course.memory course.intent course.chunks) (branchOf course.intent) = course.chunks := by
    unfold contextChunks
    rcases branchOf_cases course.intent with ⟨qa, -⟩ | ⟨compare, -⟩ | summarize | generate
    · exact if_pos (.inl qa)
    · exact if_pos (.inr (.inl compare))
    · exact if_pos (.inr (.inr summarize))
    · have none : course.chunks = [] := by
        have retrieved := course.retrieved
        rw [retrievalOf, if_pos (.inl generate)] at retrieved
        exact (Except.ok.inj retrieved).symm
      rw [none]
      split <;> rfl
  rw [course_calls promptOf (fun _ => rfl) course previous, courseCalls, List.filterMap_append,
    List.filterMap_append, (cite_silent _).2.1, (store_silent _ _).2.1]
  exact congrArg (fun chunks => [chunks]) given

theorem course_validates (course : Course runner lower replies request)
    (previous : Option (AgentState D)) :
    .validates (draftedState runner request (countOf runner previous) course.memory course.intent
        course.chunks (draftOf runner.config (answerText replies.provider))) ∈
      agentRun runner lower replies request previous := by
  rw [agentRun_of_course course previous]
  refine List.mem_append_right _ (List.mem_append_right _ (List.mem_append_left _ ?_))
  exact List.mem_cons_of_mem _ (List.mem_cons_of_mem _ List.mem_cons_self)

/-- No draft is sent back: the answer of a run is traceable exactly when, unless something that
the run calls fails, its markers happen to be numbers of the retrieved chunks. -/
theorem agentRun_traceable_iff (runner : AgentRunner) (lower : Text → Text) (replies : Replies D)
    (request : AgentRunRequest) (previous : Option (AgentState D)) :
    Traceable (agentRun runner lower replies request previous) ↔
      ∀ course : Course runner lower replies request,
        Traced (draftOf runner.config (answerText replies.provider)) course.chunks.length := by
  constructor
  · intro traceable course
    have chunks : course.chunks ∈
        (agentRun runner lower replies request previous).filterMap promptOf := by
      rw [course_prompts course previous]
      exact List.mem_cons_self
    exact traceable ⟨_, _, _, course_done course previous⟩ course.chunks chunks _
      (course_validates course previous)
  · rintro condition ⟨messageID, iterations, citationCount, done⟩ chunks given state validates
    obtain ⟨course⟩ := agentRun_done done
    rw [course_prompts course previous] at given
    have draft := (course_drafts course previous).2 state.draftAnswer
      (List.mem_filterMap.mpr ⟨_, validates, rfl⟩)
    rw [List.mem_singleton.mp given, draft]
    exact condition course

def invented : LLMStream := ⟨[{ delta := "a[^7]".toList, finishReason := some "stop".toList }],
    .ok ()⟩

def inventedCourse : Course {} id (answering invented) question where
  memory := []
  intent := "qa".toList
  chunks := [⟨"k".toList, "r".toList, "t".toList, 1, []⟩]
  loaded := rfl
  recognised := rfl
  retrieved := rfl
  spoke := rfl
  limited := by decide
  citations := []
  cited := rfl
  saved := rfl

theorem invented_not_traced :
    ¬ Traceable (agentRun {} id (answering invented) question none) := by
  intro traceable
  have prompt : inventedCourse.chunks ∈
      (agentRun {} id (answering invented) question none).filterMap promptOf := by
    rw [course_prompts inventedCourse none]
    exact List.mem_cons_self
  have traced := traceable ⟨_, _, _, course_done inventedCourse none⟩ _ prompt _
    (course_validates inventedCourse none)
  have marker : numbersOf (tokens pythonDigits (draftOf {} (answerText invented))) =
      ["7".toList] := by decide +kernel
  obtain ⟨n, value, -, bound⟩ := traced "7".toList (marker ▸ List.mem_cons_self)
  have seven : intOfDigits "7".toList = some 7 := by decide +kernel
  rw [← Option.some.inj (seven.symm.trans value)] at bound
  exact absurd bound (by decide)

end KnowledgeCompanion.AgentAnswers
