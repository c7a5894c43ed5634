import KnowledgeCompanion.AgentRun

/-! The order of the events that a run of the agent streams, for any nodes and services. -/

namespace KnowledgeCompanion.AgentProtocol

open Emissions AgentNodes AgentRun

variable {D : Type}

def isTerminal : AgentStreamEvent D → Bool
  | .done .. | .error .. => true
  | _ => false

def isCitation : AgentStreamEvent D → Bool
  | .citation .. => true
  | _ => false

def chunkIndex : AgentStreamEvent D → Option ℕ
  | .chunk _ _ index => some index
  | _ => none

def reasoningIndex : AgentStreamEvent D → Option ℕ
  | .reasoning _ _ index => some index
  | _ => none

def nodeOf : AgentStreamEvent D → Option Text
  | .nodeStart _ node _ | .nodeEnd _ node _ => some node
  | _ => none

def Opened (node : Text) (events : List (AgentStreamEvent D)) : Prop :=
  ∃ front messageID threadID between,
    events = front ++ .nodeStart messageID node threadID :: between ∧
      ∀ e ∈ between, nodeOf e ≠ some node

/-- The order of the events of one run. -/
structure Protocol (events : List (AgentStreamEvent D)) : Prop where
  terminal : ∃ front last, events = front ++ [last] ∧ isTerminal last = true ∧
    ∀ e ∈ front, isTerminal e = false
  closes : ∀ before messageID node data after,
    events = before ++ .nodeEnd messageID node data :: after → Opened node before
  chunks : events.filterMap chunkIndex = List.range (events.filterMap chunkIndex).length
  reasonings :
    events.filterMap reasoningIndex = List.range (events.filterMap reasoningIndex).length
  citations : ∀ before messageID citation after,
    events = before ++ .citation messageID citation :: after →
      ∀ e ∈ after, chunkIndex e = none
  counted : ∀ messageID iterations lowConfidence count,
    .done messageID iterations lowConfidence count ∈ events → count = events.countP isCitation

theorem Protocol.terminal_unique {events : List (AgentStreamEvent D)} (h : Protocol events)
    {a b : AgentStreamEvent D} (memA : a ∈ events) (memB : b ∈ events)
    (endsA : isTerminal a = true) (endsB : isTerminal b = true) : a = b := by
  obtain ⟨front, last, split, -, before⟩ := h.terminal
  have is_last (x : AgentStreamEvent D) (mem : x ∈ events) (ends : isTerminal x = true) :
      x = last := by
    rw [split] at mem
    rcases List.mem_append.mp mem with old | new
    · exact absurd ends (Bool.eq_false_iff.mp (before x old))
    · exact List.mem_singleton.mp new
  exact (is_last a memA endsA).trans (is_last b memB endsB).symm

structure Progress where
  opened : List Text := []
  chunks : ℕ := 0
  reasonings : ℕ := 0
  citations : ℕ := 0
  ended : Bool := false

def advance (p : Progress) (e : AgentStreamEvent D) : Option Progress :=
  if p.ended then none
  else
    match e with
    | .nodeStart _ node _ => some { p with opened := node :: p.opened }
    | .nodeEnd _ node _ =>
      if node ∈ p.opened then some { p with opened := p.opened.filter (· ≠ node) } else none
    | .chunk _ _ index =>
      if index = p.chunks ∧ p.citations = 0 then some { p with chunks := p.chunks + 1 } else none
    | .reasoning _ _ index =>
      if index = p.reasonings then some { p with reasonings := p.reasonings + 1 } else none
    | .citation .. => some { p with citations := p.citations + 1 }
    | .done _ _ _ count => if count = p.citations then some { p with ended := true } else none
    | .error .. => some { p with ended := true }

def observe (p : Progress) : Output D → Option Progress
  | .event e => advance p e
  | _ => some p

theorem foldlM_observe (p : Progress) (outputs : List (Output D)) :
    outputs.foldlM observe p = (eventsOf outputs).foldlM advance p := by
  induction outputs generalizing p with
  | nil => rfl
  | cons o outputs ih =>
    cases o with
    | event e =>
      change (advance p e >>= fun q => outputs.foldlM observe q) =
        (advance p e >>= fun q => (eventsOf outputs).foldlM advance q)
      exact congrArg _ (funext ih)
    | generates | validates | buildsCitations | savesCheckpoint | savesTurn => exact ih p

theorem snoc_eq_split {α : Type} {xs before after : List α} {x y : α}
    (h : xs ++ [x] = before ++ y :: after) :
    (after = [] ∧ y = x ∧ before = xs) ∨
      ∃ rest, after = rest ++ [x] ∧ xs = before ++ y :: rest := by
  rcases List.eq_nil_or_concat after with rfl | ⟨rest, last, rfl⟩
  · have parts := List.append_inj' h rfl
    exact .inl ⟨rfl, (List.cons.inj parts.2).1.symm, parts.1.symm⟩
  · rw [List.concat_eq_append, ← List.cons_append, ← List.append_assoc] at h
    have parts := List.append_inj' h rfl
    rw [← (List.cons.inj parts.2).1]
    exact .inr ⟨rest, List.concat_eq_append, parts.1⟩

theorem Opened.snoc {node : Text} {events : List (AgentStreamEvent D)} {e : AgentStreamEvent D}
    (h : Opened node events) (other : nodeOf e ≠ some node) : Opened node (events ++ [e]) := by
  obtain ⟨front, messageID, threadID, between, split, silent⟩ := h
  refine ⟨front, messageID, threadID, between ++ [e], ?_, fun x mem => ?_⟩
  · rw [split, List.append_assoc, List.cons_append]
  · rcases List.mem_append.mp mem with old | new
    · exact silent x old
    · rw [List.mem_singleton.mp new]
      exact other

/-- What is known of the events when the automaton is in a state. -/
structure Tracks (p : Progress) (events : List (AgentStreamEvent D)) : Prop where
  opened : ∀ node ∈ p.opened, Opened node events
  closes : ∀ before messageID node data after,
    events = before ++ .nodeEnd messageID node data :: after → Opened node before
  chunks : events.filterMap chunkIndex = List.range p.chunks
  reasonings : events.filterMap reasoningIndex = List.range p.reasonings
  cited : events.countP isCitation = p.citations
  citations : ∀ before messageID citation after,
    events = before ++ .citation messageID citation :: after →
      ∀ e ∈ after, chunkIndex e = none
  running : p.ended = false → ∀ e ∈ events, isTerminal e = false
  terminal : p.ended = true → ∃ front last, events = front ++ [last] ∧ isTerminal last = true ∧
    ∀ e ∈ front, isTerminal e = false
  counted : ∀ messageID iterations lowConfidence count,
    .done messageID iterations lowConfidence count ∈ events → count = events.countP isCitation

theorem tracks_nil : Tracks (D := D) {} [] where
  opened := nofun
  closes before _ _ _ after none := absurd none.symm (by simp)
  chunks := rfl
  reasonings := rfl
  cited := rfl
  citations before _ _ after none := absurd none.symm (by simp)
  running _ := nofun
  terminal := nofun
  counted := nofun

/-- All that one event changes. -/
structure Advanced (p : Progress) (e : AgentStreamEvent D) (q : Progress) : Prop where
  running : p.ended = false
  ended : q.ended = isTerminal e
  opened : ∀ node ∈ q.opened,
    (∃ messageID threadID, e = .nodeStart messageID node threadID) ∨
      (node ∈ p.opened ∧ nodeOf e ≠ some node)
  closing : ∀ messageID node data, e = .nodeEnd messageID node data → node ∈ p.opened
  chunks : (chunkIndex e = none ∧ q.chunks = p.chunks) ∨
    (chunkIndex e = some p.chunks ∧ q.chunks = p.chunks + 1 ∧ p.citations = 0)
  reasonings : (reasoningIndex e = none ∧ q.reasonings = p.reasonings) ∨
    (reasoningIndex e = some p.reasonings ∧ q.reasonings = p.reasonings + 1)
  citations : q.citations = p.citations + if isCitation e then 1 else 0
  counting : ∀ messageID iterations lowConfidence count,
    e = .done messageID iterations lowConfidence count → count = p.citations

theorem advance_spec {p q : Progress} {e : AgentStreamEvent D} (h : advance p e = some q) :
    Advanced p e q := by
  unfold advance at h
  split at h
  · exact absurd h (Option.some_ne_none q).symm
  · rename_i running
    have live : p.ended = false := Bool.eq_false_iff.mpr running
    split at h
    · rename_i messageID node threadID
      cases h
      refine ⟨live, live, fun other mem => ?_, nofun, .inl ⟨rfl, rfl⟩, .inl ⟨rfl, rfl⟩, rfl, nofun⟩
      by_cases same : other = node
      · exact .inl ⟨messageID, threadID, by rw [same]⟩
      · exact .inr ⟨(List.mem_cons.mp mem).resolve_left same,
          fun named => same (Option.some.inj named).symm⟩
    · rename_i messageID node data
      split at h
      · rename_i there
        cases h
        refine ⟨live, live, fun other mem => ?_, ?_, .inl ⟨rfl, rfl⟩, .inl ⟨rfl, rfl⟩, rfl, nofun⟩
        · obtain ⟨old, differs⟩ := List.mem_filter.mp mem
          exact .inr ⟨old, fun named => of_decide_eq_true differs (Option.some.inj named).symm⟩
        · intro _ _ _ same
          cases same
          exact there
      · exact absurd h (Option.some_ne_none q).symm
    · rename_i messageID delta index
      split at h
      · rename_i expected
        cases h
        exact ⟨live, live, fun other mem => .inr ⟨mem, nofun⟩, nofun,
          .inr ⟨congrArg some expected.1, rfl, expected.2⟩, .inl ⟨rfl, rfl⟩, rfl, nofun⟩
      · exact absurd h (Option.some_ne_none q).symm
    · rename_i messageID delta index
      split at h
      · rename_i expected
        cases h
        exact ⟨live, live, fun other mem => .inr ⟨mem, nofun⟩, nofun, .inl ⟨rfl, rfl⟩,
          .inr ⟨congrArg some expected, rfl⟩, rfl, nofun⟩
      · exact absurd h (Option.some_ne_none q).symm
    · cases h
      exact ⟨live, live, fun other mem => .inr ⟨mem, nofun⟩, nofun, .inl ⟨rfl, rfl⟩,
        .inl ⟨rfl, rfl⟩, rfl, nofun⟩
    · rename_i messageID iterations lowConfidence count
      split at h
      · rename_i counted
        cases h
        refine ⟨live, rfl, fun other mem => .inr ⟨mem, nofun⟩, nofun, .inl ⟨rfl, rfl⟩,
          .inl ⟨rfl, rfl⟩, rfl, ?_⟩
        intro _ _ _ _ same
        cases same
        exact counted
      · exact absurd h (Option.some_ne_none q).symm
    · cases h
      exact ⟨live, rfl, fun other mem => .inr ⟨mem, nofun⟩, nofun, .inl ⟨rfl, rfl⟩,
        .inl ⟨rfl, rfl⟩, rfl, nofun⟩

theorem filterMap_snoc_range {α : Type} {f : α → Option ℕ} {xs : List α} {x : α} {n m : ℕ}
    (h : xs.filterMap f = List.range n)
    (next : (f x = none ∧ m = n) ∨ (f x = some n ∧ m = n + 1)) :
    (xs ++ [x]).filterMap f = List.range m := by
  rw [List.filterMap_append, h]
  rcases next with ⟨none, rfl⟩ | ⟨some, rfl⟩
  · rw [List.filterMap_cons_none none, List.filterMap_nil, List.append_nil]
  · rw [List.filterMap_cons_some some, List.filterMap_nil, List.range_succ]

theorem Tracks.snoc {p q : Progress} {events : List (AgentStreamEvent D)}
    {e : AgentStreamEvent D} (h : Tracks p events) (step : Advanced p e q) :
    Tracks q (events ++ [e]) := by
  have quiet := h.running step.running
  have cited : (events ++ [e]).countP isCitation = q.citations := by
    rw [List.countP_append, h.cited, step.citations, List.countP_singleton]
  refine ⟨?_, ?_, ?_, ?_, cited, ?_, ?_, ?_, ?_⟩
  · intro node mem
    rcases step.opened node mem with ⟨messageID, threadID, rfl⟩ | ⟨old, other⟩
    · exact ⟨events, messageID, threadID, [], rfl, nofun⟩
    · exact (h.opened node old).snoc other
  · intro before messageID node data after split
    rcases snoc_eq_split split with ⟨-, last, rfl⟩ | ⟨rest, -, split⟩
    · exact h.opened node (step.closing messageID node data last.symm)
    · exact h.closes before messageID node data rest split
  · refine filterMap_snoc_range h.chunks ?_
    rcases step.chunks with same | ⟨index, next, -⟩
    · exact .inl same
    · exact .inr ⟨index, next⟩
  · exact filterMap_snoc_range h.reasonings step.reasonings
  · intro before messageID citation after split x mem
    rcases snoc_eq_split split with ⟨rfl, -, -⟩ | ⟨rest, rfl, front⟩
    · exact absurd mem List.not_mem_nil
    · rcases List.mem_append.mp mem with old | new
      · exact h.citations before messageID citation rest front x old
      · rw [List.mem_singleton.mp new]
        rcases step.chunks with same | ⟨-, -, none⟩
        · exact same.1
        · have some : 0 < events.countP isCitation :=
            List.countP_pos_iff.mpr ⟨.citation messageID citation, by rw [front]; simp, rfl⟩
          rw [h.cited, none] at some
          exact absurd some (Nat.lt_irrefl 0)
  · intro running x mem
    rcases List.mem_append.mp mem with old | new
    · exact quiet x old
    · rw [List.mem_singleton.mp new, ← step.ended, running]
  · intro ended
    exact ⟨events, e, rfl, by rw [← step.ended, ended], quiet⟩
  · intro messageID iterations lowConfidence count mem
    rcases List.mem_append.mp mem with old | new
    · exact absurd (quiet _ old) Bool.noConfusion
    · have last := List.mem_singleton.mp new
      rw [cited, step.citations, step.counting messageID iterations lowConfidence count last.symm,
        ← last]
      rfl

theorem tracks_of_accepted {events : List (AgentStreamEvent D)} {p : Progress}
    (h : events.foldlM advance {} = some p) : Tracks p events := by
  induction events using List.reverseRecOn generalizing p with
  | nil => exact Option.some.inj h ▸ tracks_nil
  | append_singleton events e ih =>
    rw [List.foldlM_append] at h
    obtain ⟨q, front, last⟩ := Option.bind_eq_some_iff.mp h
    rw [List.foldlM_cons] at last
    obtain ⟨r, step, rest⟩ := Option.bind_eq_some_iff.mp last
    rw [← Option.some.inj rest]
    exact (ih front).snoc (advance_spec step)

theorem protocol_of_accepted {events : List (AgentStreamEvent D)} {p : Progress}
    (h : events.foldlM advance {} = some p) (ended : p.ended = true) : Protocol events := by
  have tracks := tracks_of_accepted h
  refine ⟨tracks.terminal ended, tracks.closes, ?_, ?_, tracks.citations, tracks.counted⟩
  · rw [tracks.chunks, List.length_range]
  · rw [tracks.reasonings, List.length_range]

variable {nodes : Nodes D} {request : AgentRunRequest}

def At (opened : List Text) (chunks reasonings citations : ℕ) (p : Progress) : Prop :=
  p = ⟨opened, chunks, reasonings, citations, false⟩

def Running (p : Progress) : Prop := p.ended = false

def Ended (p : Progress) : Prop := p.ended = true

theorem At.running {opened : List Text} {chunks reasonings citations : ℕ} {p : Progress}
    (h : At opened chunks reasonings citations p) : Running p := by
  rw [h]
  rfl

section

variable {opened : List Text} {chunks reasonings citations : ℕ}

theorem triple_nodeStart (node : Text) :
    Triple observe (At opened chunks reasonings citations) (nodeStart (D := D) node request)
      (fun _ => At (node :: opened) chunks reasonings citations) fun _ => Running :=
  triple_emit fun s h => by subst h; exact ⟨_, rfl, rfl⟩

theorem triple_nodeEnd (node : Text) (data : NodeData) :
    Triple observe (At [node] chunks reasonings citations) (nodeEnd (D := D) node request data)
      (fun _ => At [] chunks reasonings citations) fun _ => Running := by
  refine triple_emit fun s h => ?_
  subst h
  refine ⟨⟨[], chunks, reasonings, citations, false⟩, ?_, rfl⟩
  have closed : [node].filter (· ≠ node) = [] := by simp
  rw [observe, advance, if_neg Bool.false_ne_true]
  dsimp only
  rw [if_pos List.mem_cons_self, closed]

theorem triple_node {α : Type} (result : Except Raised α) :
    Triple observe (At opened chunks reasonings citations) (lift result : Run D α)
      (fun _ => At opened chunks reasonings citations) fun _ => Running :=
  triple_lift (fun _ _ h => h) fun _ _ h => h.running

theorem triple_done {α : Type} (a : α) :
    Triple observe (At opened chunks reasonings citations) (pure a : Run D α)
      (fun _ => At opened chunks reasonings citations) fun _ => Running :=
  triple_pure fun _ h => h

theorem triple_call {o : Output D} (call : ∀ p, observe p o = some p) :
    Triple observe (At opened chunks reasonings citations) (emit o : Run D Unit)
      (fun _ => At opened chunks reasonings citations) fun _ => Running :=
  triple_emit fun s h => ⟨s, call s, h⟩

theorem triple_error (code message : String) :
    Triple observe Running (emit (errorEvent request code message) : Run D Unit)
      (fun _ => Ended) fun _ => Running := by
  refine triple_emit fun s h => ⟨{ s with ended := true }, ?_, rfl⟩
  rw [errorEvent, observe, advance, if_neg (Bool.eq_false_iff.mp h)]

theorem triple_retrieve (n : ℕ) (state : AgentState D) :
    Triple observe (At [] chunks reasonings citations) (retrieve nodes request n state)
      (fun _ => At [] chunks reasonings citations) fun _ => Running := by
  unfold retrieve
  refine triple_bind (triple_nodeStart _) fun _ => ?_
  refine triple_bind (triple_node _) fun _ => ?_
  refine triple_bind (triple_nodeEnd _ _) fun _ => ?_
  exact triple_done _

end

variable {runner : AgentRunner} {replies : Replies D}

theorem triple_loadContext (state : AgentState D) :
    Triple observe (At [] 0 0 0) (loadContext runner replies state) (fun _ => At [] 0 0 0)
      fun _ => Running := by
  unfold loadContext
  split
  · refine triple_bind (triple_node _) fun _ => ?_
    exact triple_done _
  · exact triple_done _

theorem triple_recogniseIntent (state : AgentState D) :
    Triple observe (At [] 0 0 0) (recogniseIntent nodes request state) (fun _ => At [] 0 0 0)
      fun _ => Running := by
  unfold recogniseIntent
  refine triple_bind (triple_nodeStart _) fun _ => ?_
  refine triple_bind (triple_node _) fun _ => ?_
  refine triple_bind (triple_nodeEnd _ _) fun _ => ?_
  exact triple_done _

theorem triple_selectBranch (state : AgentState D) :
    Triple observe (At [] 0 0 0) (selectBranch nodes request state) (fun _ => At [] 0 0 0)
      fun _ => Running := by
  unfold selectBranch
  dsimp only
  split
  · refine triple_bind (triple_retrieve 0 state) fun _ => ?_
    exact triple_done _
  · split
    · refine triple_bind (triple_retrieve 0 state) fun _ => ?_
      exact triple_done _
    · exact triple_done _

/-- The node is still open when the chunks are through, or the run has ended. -/
def Forwarded (branch : Text) {α : Type} (result : Option α) (p : Progress) : Prop :=
  match result with
  | none => Ended p
  | some _ => ∃ chunks reasonings, At [branch] chunks reasonings 0 p

theorem triple_forward (branch : Text) (ended : Except Raised Unit) (cs : List LLMStreamChunk)
    (answer : Text) (i j : ℕ) :
    Triple observe (At [branch] i j 0) (forward (D := D) request ended cs answer i j)
      (Forwarded branch) fun _ => Running := by
  induction cs generalizing answer i j with
  | nil =>
    unfold forward
    refine triple_bind (triple_node ended) fun _ => ?_
    exact triple_pure fun _ h => ⟨i, j, h⟩
  | cons c cs ih =>
    unfold forward
    dsimp only
    have spoken : Triple observe (At [branch] i j 0)
        (provided (!c.delta.isEmpty)
          (emit (.event (.chunk request.messageID c.delta i)) : Run D Unit))
        (fun _ => At [branch] (if !c.delta.isEmpty then i + 1 else i) j 0) fun _ => Running := by
      refine triple_provided (fun yes => ?_) fun no s h => ?_
      · rw [yes]
        refine triple_emit fun s h => ?_
        subst h
        exact ⟨_, if_pos ⟨rfl, rfl⟩, rfl⟩
      · rw [no]
        exact h
    have thought (i' : ℕ) : Triple observe (At [branch] i' j 0)
        (provided (!(c.reasoningDelta.getD []).isEmpty)
          (emit (.event (.reasoning request.messageID (c.reasoningDelta.getD []) j)) : Run D Unit))
        (fun _ => At [branch] i' (if !(c.reasoningDelta.getD []).isEmpty then j + 1 else j) 0)
        fun _ => Running := by
      refine triple_provided (fun yes => ?_) fun no s h => ?_
      · rw [yes]
        refine triple_emit fun s h => ?_
        subst h
        exact ⟨_, if_pos rfl, rfl⟩
      · rw [no]
        exact h
    refine triple_bind spoken fun _ => ?_
    refine triple_bind (thought _) fun _ => ?_
    by_cases failed : c.isError = true
    · rw [if_pos failed]
      refine triple_bind (Q := fun _ => Ended) ?_ fun _ => triple_pure fun _ h => h
      exact triple_mono (triple_error _ _) (fun _ h => At.running h) (fun _ _ h => h) fun _ _ h => h
    · rw [if_neg failed]
      exact ih _ _ _

def Drafted (result : Option (AgentState D)) (p : Progress) : Prop :=
  match result with
  | none => Ended p
  | some _ => ∃ chunks reasonings, At [] chunks reasonings 0 p

theorem triple_keepDraft (state : AgentState D) (branch : Text) (answer : Option Text) :
    Triple observe (Forwarded branch answer) (keepDraft runner request state branch answer)
      Drafted fun _ => Running := by
  cases answer with
  | none => exact triple_pure fun _ h => h
  | some answer =>
    refine triple_exists fun i => triple_exists fun j => ?_
    unfold keepDraft
    refine triple_bind (triple_nodeEnd _ _) fun _ => ?_
    exact triple_pure fun _ h => ⟨i, j, h⟩

theorem triple_generate (state : AgentState D) (branch : Text) :
    Triple observe (At [] 0 0 0) (generate runner nodes request state branch) Drafted
      fun _ => Running := by
  unfold generate
  refine triple_bind (triple_nodeStart branch) fun _ => ?_
  refine triple_bind (triple_call fun _ => rfl) fun _ => ?_
  dsimp only
  exact triple_bind (triple_forward branch _ _ _ _ _) fun answer =>
    triple_keepDraft state branch answer

theorem triple_validateLoop {i j : ℕ} (limit n : ℕ) (state : AgentState D) :
    Triple observe (At [] i j 0) (validateLoop nodes request limit n state)
      (fun _ => At [] i j 0) fun _ => Running := by
  induction limit generalizing n state with
  | zero => exact triple_raise fun _ h => h.running
  | succ limit ih =>
    unfold validateLoop
    refine triple_bind (triple_nodeStart _) fun _ => ?_
    refine triple_bind (triple_call fun _ => rfl) fun _ => ?_
    refine triple_bind (triple_node _) fun update => ?_
    refine triple_bind (triple_nodeEnd _ _) fun _ => ?_
    split
    · exact triple_done _
    · refine triple_bind (triple_retrieve (n + 1) _) fun state => ?_
      exact ih (n + 1) state

theorem triple_buildCitations {i j : ℕ} (state : AgentState D) :
    Triple observe (At [] i j 0) (buildCitations runner replies request state)
      (fun _ => At [] i j 0) fun _ => Running := by
  unfold buildCitations
  split
  · exact triple_done _
  · refine triple_bind (triple_call fun _ => rfl) fun _ => ?_
    exact triple_node _

theorem foldlM_citations {i j : ℕ} (messageID : Text) (citations : List (Citations.Citation D))
    (k : ℕ) :
    (citations.map fun c => Output.event (.citation messageID c)).foldlM observe
      ⟨[], i, j, k, false⟩ = some ⟨[], i, j, k + citations.length, false⟩ := by
  induction citations generalizing k with
  | nil => rfl
  | cons c citations ih =>
    rw [List.map_cons, List.foldlM_cons, List.length_cons, Nat.add_comm citations.length,
      ← Nat.add_assoc]
    exact ih (k + 1)

theorem triple_citations {i j : ℕ} (messageID : Text) (citations : List (Citations.Citation D)) :
    Triple observe (At [] i j 0)
      (emitAll (citations.map fun c => .event (.citation messageID c)) : Run D Unit)
      (fun _ => At [] i j citations.length) fun _ => Running := by
  intro s h
  subst h
  refine ⟨_, foldlM_citations messageID citations 0, ?_⟩
  rw [Nat.zero_add]
  rfl

theorem triple_conclude {i j : ℕ} (state : AgentState D) :
    Triple observe (At [] i j 0) (conclude runner replies request state) (fun _ => Ended)
      fun _ => Running := by
  unfold conclude
  refine triple_bind (triple_buildCitations state) fun citations => ?_
  refine triple_bind (triple_citations request.messageID citations) fun _ => ?_
  refine triple_bind (Q := fun _ => At [] i j citations.length)
    (triple_provided (fun _ => triple_call fun _ => rfl) fun _ _ h => h) fun _ => ?_
  refine triple_bind (Q := fun _ => At [] i j citations.length)
    (triple_provided (fun _ => ?_) fun _ _ h => h) fun _ => ?_
  · refine triple_bind (triple_call fun _ => rfl) fun _ => ?_
    exact triple_node _
  · refine triple_emit fun s h => ?_
    subst h
    exact ⟨_, if_pos rfl, rfl⟩

theorem triple_complete (drafted : Option (AgentState D)) :
    Triple observe (Drafted drafted) (complete runner nodes replies request drafted)
      (fun _ => Ended) fun _ => Running := by
  cases drafted with
  | none => exact triple_pure fun _ h => h
  | some state =>
    refine triple_exists fun i => triple_exists fun j => ?_
    exact triple_bind (triple_validateLoop _ 0 state) fun state => triple_conclude state

theorem triple_prepare (state : AgentState D) :
    Triple observe (At [] 0 0 0) (prepare runner nodes replies request state)
      (fun _ => At [] 0 0 0) fun _ => Running := by
  unfold prepare
  refine triple_bind (triple_loadContext state) fun state => ?_
  refine triple_bind (triple_recogniseIntent state) fun state => ?_
  exact triple_selectBranch state

theorem triple_runNodes (runner : AgentRunner) (nodes : Nodes D) (replies : Replies D)
    (request : AgentRunRequest) (state : AgentState D) :
    Triple observe (At [] 0 0 0) (runNodes runner nodes replies request state) (fun _ => Ended)
      fun _ => Running := by
  unfold runNodes
  refine triple_bind (triple_prepare state) fun selected => ?_
  refine triple_bind (triple_generate selected.1 selected.2) fun drafted => ?_
  exact triple_complete drafted

theorem runStream_accepted (runner : AgentRunner) (nodes : Nodes D) (replies : Replies D)
    (request : AgentRunRequest) (previous : Option (AgentState D)) :
    ∃ p, (eventsOf (runStream runner nodes replies request previous).outputs).foldlM advance {} =
      some p ∧ p.ended = true := by
  have handled (e : Raised) : Triple (ε := Empty) observe Running
    (emit (errorOf (D := D) request e))
      (fun _ => Ended) fun _ _ => True := by
    obtain ⟨code, message, same⟩ : ∃ code message, errorOf (D := D) request e =
        errorEvent request code message := by cases e <;> exact ⟨_, _, rfl⟩
    rw [same]
    refine triple_emit fun s h => ⟨{ s with ended := true }, ?_, rfl⟩
    rw [errorEvent, observe, advance, if_neg (Bool.eq_false_iff.mp h)]
  have run := triple_attempt
    (triple_runNodes runner nodes replies request (startState runner request previous)) handled
  obtain ⟨p, accepted, ended⟩ := run {} rfl
  change (runStream runner nodes replies request previous).outputs.foldlM observe {} = some p
    at accepted
  rw [foldlM_observe] at accepted
  refine ⟨p, accepted, ?_⟩
  change Leaves _ _ (runStream runner nodes replies request previous).result p at ended
  cases result : (runStream runner nodes replies request previous).result with
  | ok a =>
    rw [result] at ended
    exact ended
  | error e => exact e.elim

/-- Whatever the nodes and the services do, the stream of a run keeps the protocol. -/
theorem runStream_protocol (runner : AgentRunner) (nodes : Nodes D) (replies : Replies D)
    (request : AgentRunRequest) (previous : Option (AgentState D)) :
    Protocol (eventsOf (runStream runner nodes replies request previous).outputs) := by
  obtain ⟨p, accepted, ended⟩ := runStream_accepted runner nodes replies request previous
  exact protocol_of_accepted accepted ended

end KnowledgeCompanion.AgentProtocol
