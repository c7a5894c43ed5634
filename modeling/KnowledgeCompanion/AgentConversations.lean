import KnowledgeCompanion.AgentAnswers
import KnowledgeCompanion.GuardedRun

/-! Runs of the agent one after the other, over one checkpointer
(`app/agent/checkpointer.py`). -/

namespace KnowledgeCompanion.AgentConversations

open Citations Emissions AgentNodes AgentRun AgentProtocol AgentCourse AgentAnswers GuardedRun

variable {D : Type}

abbrev Checkpoints (D : Type) := Text → Option (AgentState D)

def save (threadID : Text) (state : AgentState D) (saved : Checkpoints D) : Checkpoints D :=
  fun thread => if thread = threadID then some state else saved thread

def keep (saved : Checkpoints D) : Output D → Checkpoints D
  | .savesCheckpoint threadID state => save threadID state saved
  | _ => saved

variable (runner : AgentRunner) (lower : Text → Text)

def runOutputs (saved : Checkpoints D) (asked : AgentRunRequest × Replies D) : List (Output D) :=
  agentRun runner lower asked.2 asked.1 (saved asked.1.conversationID)

def step (saved : Checkpoints D) (asked : AgentRunRequest × Replies D) : Checkpoints D :=
  (runOutputs runner lower saved asked).foldl keep saved

def reported : AgentStreamEvent D → Option ℤ
  | .nodeEnd _ _ (.validated _ iterations) => some iterations
  | .done _ iterations _ _ => some iterations
  | _ => none

/-- The run reports no more iterations than allowed, and streams what it would stream if the
conversation had no run before. -/
structure AsFirst (saved : Checkpoints D) (asked : AgentRunRequest × Replies D) : Prop where
  bounded : ∀ iterations ∈ (eventsOf (runOutputs runner lower saved asked)).filterMap reported,
    iterations ≤ runner.config.maxIterations
  same : eventsOf (runOutputs runner lower saved asked) =
    eventsOf (runOutputs runner lower (fun _ => none) asked)

/-- The run does not come to its validation, or it is the first that is kept of its conversation
and one iteration is allowed. -/
def FirstKept (saved : Checkpoints D) (asked : AgentRunRequest × Replies D) : Prop :=
  Nonempty (Validated runner lower asked.2 asked.1) →
    saved asked.1.conversationID = none ∧ 1 ≤ runner.config.maxIterations

def Counted (saved : Checkpoints D) : Prop :=
  ∀ thread state, saved thread = some state → runner.checkpointer = true ∧ 1 ≤ state.iterations

variable {runner lower}

theorem countOf_nonneg {saved : Checkpoints D} (h : Counted runner saved) (thread : Text) :
    0 ≤ countOf runner (saved thread) := by
  cases found : saved thread with
  | none => exact Int.le_refl 0
  | some state =>
    obtain ⟨present, positive⟩ := h thread state found
    rw [countOf, if_pos present]
    omega

theorem countOf_eq_zero {saved : Checkpoints D} (h : Counted runner saved) (thread : Text) :
    countOf runner (saved thread) = 0 ↔ saved thread = none := by
  cases found : saved thread with
  | none => exact iff_of_true rfl rfl
  | some state =>
    obtain ⟨present, positive⟩ := h thread state found
    rw [countOf, if_pos present]
    refine iff_of_false (fun zero => ?_) (Option.some_ne_none state)
    omega

/-- The outputs after the validation: those that are early, and those that carry the count. -/
inductive Late (runner : AgentRunner) (request : AgentRunRequest) (count : ℤ) : Output D → Prop
  | early {o : Output D} (h : early o = true) : Late runner request count o
  | validated (node : Text) : Late runner request count
      (.event (.nodeEnd request.messageID node (.validated true (count + 1))))
  | saves {state : AgentState D} (present : runner.checkpointer = true)
      (iterations : state.iterations = count + 1) :
      Late runner request count (.savesCheckpoint request.conversationID state)
  | done (citationCount : ℕ) : Late runner request count
      (.event (.done request.messageID (count + 1) false citationCount))

variable {replies : Replies D} {request : AgentRunRequest}

theorem citeOutputs_late (runner : AgentRunner) (request : AgentRunRequest) (count : ℤ)
    (state : AgentState D) :
    ∀ o ∈ citeOutputs runner request state, Late runner request count o := by
  unfold citeOutputs
  split
  · exact nofun
  · exact List.forall_mem_cons.mpr ⟨.early rfl, nofun⟩

theorem storeOutputs_late (runner : AgentRunner) (request : AgentRunRequest) {count : ℤ}
    {state : AgentState D} (citations : List (Citation D))
    (iterations : state.iterations = count + 1) :
    ∀ o ∈ storeOutputs runner request state citations, Late runner request count o := by
  unfold storeOutputs
  refine List.forall_mem_append.mpr ⟨fun o mem => ?_, List.forall_mem_append.mpr ⟨?_, ?_⟩⟩
  · obtain ⟨c, -, rfl⟩ := List.mem_map.mp mem
    exact .early rfl
  · split
    · rename_i present
      exact List.forall_mem_cons.mpr ⟨.saves present iterations, nofun⟩
    · exact nofun
  · split
    · exact List.forall_mem_cons.mpr ⟨.early rfl, nofun⟩
    · exact nofun

theorem raisedOutputs_late {count : ℤ} (result : Except Raised Unit) :
    ∀ o ∈ raisedOutputs (D := D) request result, Late runner request count o := by
  cases result with
  | ok a => exact nofun
  | error e =>
    obtain ⟨code, message, same⟩ := errorOf_error (D := D) request e
    refine List.forall_mem_cons.mpr ⟨?_, nofun⟩
    rw [same]
    exact .early rfl

theorem concludeOutputs_late (validated : Validated runner lower replies request) (count : ℤ) :
    ∀ o ∈ concludeOutputs validated count, Late runner request count o := by
  have cited := citeOutputs_late runner request count
    (validatedState runner validated.toPrepared count)
  have stored (citations : List (Citation D)) : ∀ o ∈ storeOutputs runner request
      (validatedState runner validated.toPrepared count) citations,
      Late runner request count o := storeOutputs_late runner request citations rfl
  unfold concludeOutputs
  rw [conclude_eq]
  refine List.forall_mem_append.mpr ⟨?_, raisedOutputs_late _⟩
  cases citationsOf runner replies
      (validatedState runner validated.toPrepared count).retrievedChunks with
  | error e => exact cited
  | ok citations =>
    cases savedOf runner replies with
    | error e => exact List.forall_mem_append.mpr ⟨cited, stored citations⟩
    | ok a =>
      refine List.forall_mem_append.mpr ⟨cited, List.forall_mem_append.mpr ⟨stored citations, ?_⟩⟩
      exact List.forall_mem_cons.mpr ⟨.done _, nofun⟩

theorem agentRun_late (validated : Validated runner lower replies request)
    (previous : Option (AgentState D)) :
    ∀ o ∈ agentRun runner lower replies request previous,
      Late runner request (countOf runner previous) o := by
  rw [agentRun_of_validated validated previous]
  refine List.forall_mem_append.mpr ⟨fun o mem => .early (introOutputs_early _ o mem),
    List.forall_mem_append.mpr ⟨fun o mem => .early (spokenOutputs_early _ _ o mem),
      List.forall_mem_append.mpr ⟨?_, concludeOutputs_late validated _⟩⟩⟩
  refine List.forall_mem_cons.mpr ⟨.early rfl, List.forall_mem_cons.mpr ⟨.early rfl,
    List.forall_mem_cons.mpr ⟨.early rfl, List.forall_mem_cons.mpr ⟨.validated _, nofun⟩⟩⟩⟩

theorem saves_own {previous : Option (AgentState D)} {threadID : Text} {state : AgentState D}
    (mem : .savesCheckpoint threadID state ∈ agentRun runner lower replies request previous) :
    runner.checkpointer = true ∧ state.iterations = countOf runner previous + 1 := by
  by_cases validated : Nonempty (Validated runner lower replies request)
  · cases agentRun_late validated.some previous _ mem with
    | early h => exact absurd h Bool.false_ne_true
    | saves present iterations => exact ⟨present, iterations⟩
  · obtain ⟨events, -, rest⟩ := agentRun_of_unvalidated (not_nonempty_iff.mp validated)
    exact absurd ((rest previous).2 _ mem) Bool.false_ne_true

theorem counted_keep {saved : Checkpoints D} {outputs : List (Output D)}
    (h : Counted runner saved) (saves : ∀ threadID state,
      .savesCheckpoint threadID state ∈ outputs →
        runner.checkpointer = true ∧ 1 ≤ state.iterations) :
    Counted runner (outputs.foldl keep saved) := by
  induction outputs generalizing saved with
  | nil => exact h
  | cons o outputs ih =>
    refine ih ?_ fun threadID state mem => saves threadID state (List.mem_cons_of_mem o mem)
    intro thread state found
    cases o with
    | savesCheckpoint threadID kept =>
      change (if thread = threadID then some kept else saved thread) = some state at found
      split at found
      · exact Option.some.inj found ▸ saves threadID kept List.mem_cons_self
      · exact h thread state found
    | event | generates | validates | buildsCitations | savesTurn => exact h thread state found

theorem counted_step {saved : Checkpoints D} (asked : AgentRunRequest × Replies D)
    (h : Counted runner saved) : Counted runner (step runner lower saved asked) := by
  refine counted_keep h fun threadID state mem => ?_
  obtain ⟨present, iterations⟩ := saves_own mem
  have before := countOf_nonneg h asked.1.conversationID
  exact ⟨present, by omega⟩

theorem reported_eq (validated : Validated runner lower replies request)
    (previous : Option (AgentState D)) :
    countOf runner previous + 1 ∈
        (eventsOf (agentRun runner lower replies request previous)).filterMap reported ∧
      ∀ iterations ∈ (eventsOf (agentRun runner lower replies request previous)).filterMap reported,
        iterations = countOf runner previous + 1 := by
  constructor
  · refine List.mem_filterMap.mpr ⟨.nodeEnd request.messageID "validate".toList
      (.validated true (countOf runner previous + 1)), mem_eventsOf.mpr ?_, rfl⟩
    rw [agentRun_of_validated validated previous]
    refine List.mem_append_right _ (List.mem_append_right _ (List.mem_append_left _ ?_))
    exact List.mem_cons_of_mem _ (List.mem_cons_of_mem _ (List.mem_cons_of_mem _
      List.mem_cons_self))
  · intro iterations mem
    obtain ⟨e, there, reports⟩ := List.mem_filterMap.mp mem
    cases late : agentRun_late validated previous _ (mem_eventsOf.mp there) with
    | early h =>
      unfold reported at reports
      split at reports
      · exact absurd h Bool.false_ne_true
      · exact absurd h Bool.false_ne_true
      · exact absurd reports.symm (Option.some_ne_none iterations)
    | validated node => exact (Option.some.inj reports).symm
    | done citationCount => exact (Option.some.inj reports).symm

theorem asFirst_iff {saved : Checkpoints D} (asked : AgentRunRequest × Replies D)
    (h : Counted runner saved) :
    AsFirst runner lower saved asked ↔ FirstKept runner lower saved asked := by
  constructor
  · rintro ⟨bounded, same⟩ ⟨validated⟩
    obtain ⟨mem, -⟩ := reported_eq validated (saved asked.1.conversationID)
    have first := (reported_eq validated (none : Option (AgentState D))).2
    have fresh : countOf runner (saved asked.1.conversationID) + 1 = 0 + 1 := by
      refine first _ ?_
      change _ ∈ (eventsOf (runOutputs runner lower (fun _ => none) asked)).filterMap reported
      rw [← same]
      exact mem
    have bound := bounded _ mem
    exact ⟨(countOf_eq_zero h _).mp (by omega), by omega⟩
  · intro kept
    by_cases validated : Nonempty (Validated runner lower asked.2 asked.1)
    · obtain ⟨fresh, allowed⟩ := kept validated
      have same : runOutputs runner lower saved asked =
          runOutputs runner lower (fun _ => none) asked := by
        unfold runOutputs
        rw [fresh]
      refine ⟨fun iterations mem => ?_, congrArg eventsOf same⟩
      have count := (reported_eq validated.some (saved asked.1.conversationID)).2 iterations mem
      rw [(countOf_eq_zero h _).mpr fresh] at count
      omega
    · obtain ⟨events, -, rest⟩ := agentRun_of_unvalidated (not_nonempty_iff.mp validated)
      refine ⟨fun iterations mem => ?_, (rest _).1.trans (rest none).1.symm⟩
      obtain ⟨e, there, reports⟩ := List.mem_filterMap.mp mem
      have silent := (rest _).2 _ (mem_eventsOf.mp there)
      unfold reported at reports
      split at reports
      · exact absurd silent Bool.false_ne_true
      · exact absurd silent Bool.false_ne_true
      · exact absurd reports.symm (Option.some_ne_none iterations)

/-- The runs over one checkpointer go as first runs exactly as long as none of them that comes
to its validation follows another that is kept. -/
theorem runs_asFirst_iff (runner : AgentRunner) (lower : Text → Text)
    (runs : List (AgentRunRequest × Replies D)) :
    EveryStep (step runner lower) (AsFirst runner lower) (fun _ => none) runs ↔
      EveryStep (step runner lower) (FirstKept runner lower) (fun _ => none) runs := by
  have start : Counted (D := D) runner fun _ => none := nofun
  constructor
  · exact everyStep_of_guard (fun _ asked h _ => counted_step asked h)
      (fun _ asked h first => (asFirst_iff asked h).mp first) start
  · exact everyStep_of_guard (fun _ asked h _ => counted_step asked h)
      (fun _ asked h kept => (asFirst_iff asked h).mpr kept) start

def asksAgain : List (AgentRunRequest × Replies Unit) :=
  [(question, answering invented), (question, answering invented)]

theorem asksAgain_not_asFirst :
    ¬ EveryStep (step {} id) (AsFirst {} id) (fun _ => none) asksAgain := by
  intro all
  have start : Counted (D := Unit) {} fun _ => none := nofun
  have kept := (asFirst_iff (question, answering invented) (counted_step _ start)).mp all.2.1
    ⟨inventedCourse.toValidated⟩
  have saved : ((step {} id (fun _ => none) (question, answering invented)) "c".toList).isSome =
      true := by decide +kernel
  have none : (step {} id (fun _ => none) (question, answering invented)) "c".toList = none :=
    kept.1
  rw [none] at saved
  exact absurd saved Bool.false_ne_true

end KnowledgeCompanion.AgentConversations
