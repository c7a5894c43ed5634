import KnowledgeCompanion.AiClient
import KnowledgeCompanion.ContextWindow
import KnowledgeCompanion.JsonText

/-! The answer of one question (`stream` and `saveAssistant` of
`service/qa_service.go`): the goroutine that forwards the events of the AI service to
the handler, adds up what it has forwarded and saves it when it stops. -/

namespace KnowledgeCompanion.QaStream

open AiClient BoundedChannel ContextWindow GuardedRun JsonText KeyedTable MessageRecords

/-- A JSON object as a `map[string]any`. -/
abbrev Payload := List (Text × Json)

def extractString (data key : Text) : Text :=
  match unmarshalMap data with
  | none => []
  | some payload =>
    match member payload key with
    | some (.string s) => s
    | _ => []

def parseCitation (data : Text) : Option Payload :=
  match unmarshalMap data with
  | none => none
  | some payload =>
    if (member payload "resource_id".toList).isSome then some payload else none

structure Draft where
  uuid : Text
  conversationID : ℕ
  parentMessageID : Option ℕ
  role : Text
  content : Text
  reasoning : Text
  citations : Option Text
  tokenUsage : ℤ

def Draft.message (d : Draft) (now : ℤ) (id : ℕ) : Message where
  id := id
  uuid := d.uuid
  conversationID := d.conversationID
  parentMessageID := d.parentMessageID
  role := d.role
  content := d.content
  reasoning := d.reasoning
  citations := d.citations
  tokenUsage := d.tokenUsage
  model := []
  createdAt := now

theorem Draft.message_id (d : Draft) (now : ℤ) (id : ℕ) : (d.message now id).id = id := rfl

def insertDraft (db : Messages) (now : ℤ) (d : Draft) : Messages :=
  db.insert (d.message now) (d.message_id now)

/-- `json.Marshal` of the citations, and whether the service runs its writes in a
transaction. -/
structure QaConfig where
  marshal : List Payload → Except String Text
  uow : Bool

structure SaveIO where
  now : ℤ := 0
  createMessage : Option String := none
  conversation : Option String := none
  commit : Option String := none

def saveAssistantMessage (cfg : QaConfig) (db : Messages) (io : SaveIO) (d : Draft) :
    Option String × Messages :=
  match io.createMessage with
  | some cause => (some ("failed to create message: " ++ cause), db)
  | none =>
    if cfg.uow then
      match io.conversation with
      | some cause => (some cause, db)
      | none =>
        match io.commit with
        | some cause => (some cause, db)
        | none => (none, insertDraft db io.now d)
    else
      match io.conversation with
      | some cause => (some cause, insertDraft db io.now d)
      | none => (none, insertDraft db io.now d)

structure Turn where
  conversationID : ℕ
  userMessageID : ℕ
  assistantMsgUUID : Text

/-- `answer`, `reasoning` and `citations` of the loop. -/
structure Accumulated where
  answer : Text := []
  reasoning : Text := []
  citations : List Payload := []

def Accumulated.IsEmpty (acc : Accumulated) : Prop :=
  acc.answer = [] ∧ acc.reasoning = [] ∧ acc.citations = []

def citationsJSON (cfg : QaConfig) (citations : List Payload) : Option Text :=
  match citations with
  | [] => none
  | _ => (cfg.marshal citations).toOption

/-- The message that `saveAssistant` hands to the database. -/
def saveAssistant (cfg : QaConfig) (turn : Turn) (acc : Accumulated) : Option Draft :=
  match acc with
  | ⟨[], [], []⟩ => none
  | _ =>
    some
      { uuid := turn.assistantMsgUUID
        conversationID := turn.conversationID
        parentMessageID := some turn.userMessageID
        role := "assistant".toList
        content := acc.answer
        reasoning := acc.reasoning
        citations := citationsJSON cfg acc.citations
        tokenUsage := estimateTokens acc.answer }

def isChunk (ev : SSEEvent) : Bool := ev.event == "chunk".toList

def isReasoning (ev : SSEEvent) : Bool := ev.event == "reasoning".toList

def isCitation (ev : SSEEvent) : Bool := ev.event == "citation".toList

def isTerminal (ev : SSEEvent) : Bool := ev.event == "done".toList || ev.event == "error".toList

def accumulate (acc : Accumulated) (ev : SSEEvent) : Accumulated :=
  if isChunk ev then { acc with answer := acc.answer ++ extractString ev.data "delta".toList }
  else if isReasoning ev then
    { acc with reasoning := acc.reasoning ++ extractString ev.data "delta".toList }
  else if isCitation ev then
    match parseCitation ev.data with
    | some c => { acc with citations := acc.citations ++ [c] }
    | none => acc
  else acc

def outSize : ℕ := 64

inductive Phase
  | selecting
  | sending (ev : SSEEvent)
  | finished
deriving DecidableEq

/-- `aiEvents` waits in the client's channel; `out` is the handler's. -/
structure Stream where
  aiEvents : List SSEEvent
  closed : Bool
  cancelled : Bool
  phase : Phase
  acc : Accumulated
  out : Channel SSEEvent

/-- What the AI client, the client of the gateway, the scheduler and the handler do. A
`select` with several cases ready may take any of them. -/
inductive Event
  | arrive (ev : SSEEvent)
  | closeEvents
  | cancel
  | takeCancel
  | takeEvent
  | send
  | receive

def finish (cfg : QaConfig) (turn : Turn) (s : Stream) : Stream × Option Draft :=
  ({ s with phase := .finished }, saveAssistant cfg turn s.acc)

def next (cfg : QaConfig) (turn : Turn) (s : Stream) : Event → Stream × Option Draft
  | .arrive ev =>
    if s.closed then (s, none) else ({ s with aiEvents := s.aiEvents ++ [ev] }, none)
  | .closeEvents => ({ s with closed := true }, none)
  | .cancel => ({ s with cancelled := true }, none)
  | .takeCancel =>
    match s.phase with
    | .finished => (s, none)
    | _ => if s.cancelled then finish cfg turn s else (s, none)
  | .takeEvent =>
    match s.phase with
    | .selecting =>
      match s.aiEvents with
      | ev :: rest => ({ s with aiEvents := rest, phase := .sending ev }, none)
      | [] => if s.closed then finish cfg turn s else (s, none)
    | _ => (s, none)
  | .send =>
    match s.phase with
    | .sending ev =>
      if s.out.HasRoom outSize then
        let s := { s with out := s.out.push ev, acc := accumulate s.acc ev }
        if isTerminal ev then finish cfg turn s else ({ s with phase := .selecting }, none)
      else (s, none)
    | _ => (s, none)
  | .receive => ({ s with out := s.out.receive }, none)

def opened : Stream := ⟨[], false, false, .selecting, {}, {}⟩

/-- The stream with the message table; `saved` lists every message handed to it. -/
structure Session where
  stream : Stream
  saved : List Draft
  failures : List String
  messages : Messages

def saveDraft (cfg : QaConfig) (s : Session) (io : SaveIO) : Option Draft → Session
  | none => s
  | some d =>
    let result := saveAssistantMessage cfg s.messages io d
    { s with
      saved := s.saved ++ [d]
      failures := s.failures ++ result.1.toList
      messages := result.2 }

def step (cfg : QaConfig) (turn : Turn) (s : Session) (e : Event × SaveIO) : Session :=
  let moved := next cfg turn s.stream e.1
  saveDraft cfg { s with stream := moved.1 } e.2 moved.2

def started (messages : Messages) : Session := ⟨opened, [], [], messages⟩

def answerOf (sent : List SSEEvent) : Text :=
  (sent.filter isChunk).flatMap fun ev => extractString ev.data "delta".toList

def reasoningOf (sent : List SSEEvent) : Text :=
  (sent.filter isReasoning).flatMap fun ev => extractString ev.data "delta".toList

def citationsOf (sent : List SSEEvent) : List Payload :=
  (sent.filter isCitation).filterMap fun ev => parseCitation ev.data

def accumulatedOf (sent : List SSEEvent) : Accumulated :=
  ⟨answerOf sent, reasoningOf sent, citationsOf sent⟩

def StoresDraft (before after : Messages) (d : Draft) : Prop :=
  ∃ now, after.rows = before.rows ++ [d.message now before.next]

/-- One message at most is saved, when the stream has stopped and something was sent,
and it says what was sent; nothing is sent after a terminal event. -/
structure Faithful (cfg : QaConfig) (before : Messages) (s : Session) : Prop where
  once : s.saved.length ≤ 1
  running : s.stream.phase ≠ .finished → s.saved = []
  stopped : s.stream.phase = .finished →
    (s.saved ≠ [] ↔ ¬ (accumulatedOf s.stream.out.sent).IsEmpty)
  content : ∀ d ∈ s.saved, d.content = answerOf s.stream.out.sent ∧
    d.reasoning = reasoningOf s.stream.out.sent ∧
    d.citations = citationsJSON cfg (citationsOf s.stream.out.sent)
  rows : s.messages.rows = before.rows ∨ ∃ d ∈ s.saved, StoresDraft before s.messages d
  stored : s.failures = [] → ∀ d ∈ s.saved, StoresDraft before s.messages d
  terminal : ∀ ev ∈ s.stream.out.sent.dropLast, isTerminal ev = false

theorem accumulatedOf_append (sent : List SSEEvent) (ev : SSEEvent) :
    accumulatedOf (sent ++ [ev]) = accumulate (accumulatedOf sent) ev := by
  simp only [accumulatedOf, answerOf, reasoningOf, citationsOf, List.filter_append,
    List.flatMap_append, List.filterMap_append, accumulate]
  by_cases chunk : ev.event = "chunk".toList
  · simp [isChunk, isReasoning, isCitation, chunk]
  · by_cases reasoning : ev.event = "reasoning".toList
    · simp [isChunk, isReasoning, isCitation, reasoning]
    · by_cases citation : ev.event = "citation".toList
      · cases parsed : parseCitation ev.data with
        | none => simp [isChunk, isReasoning, isCitation, citation, parsed]
        | some c => simp [isChunk, isReasoning, isCitation, citation, parsed]
      · have noChunk : isChunk ev = false := by simpa [isChunk] using chunk
        have noReasoning : isReasoning ev = false := by simpa [isReasoning] using reasoning
        have noCitation : isCitation ev = false := by simpa [isCitation] using citation
        simp [noChunk, noReasoning, noCitation]

theorem saveAssistant_isSome {cfg : QaConfig} {turn : Turn} {acc : Accumulated} :
    (saveAssistant cfg turn acc).isSome ↔ ¬ acc.IsEmpty := by
  unfold saveAssistant Accumulated.IsEmpty
  split
  · simp
  · rename_i some
    obtain ⟨answer, reasoning, citations⟩ := acc
    simp only [Option.isSome_some, true_iff]
    rintro ⟨rfl, rfl, rfl⟩
    exact some rfl

theorem saveAssistant_content {cfg : QaConfig} {turn : Turn} {acc : Accumulated} {d : Draft}
    (h : saveAssistant cfg turn acc = some d) :
    d.content = acc.answer ∧ d.reasoning = acc.reasoning ∧
      d.citations = citationsJSON cfg acc.citations := by
  unfold saveAssistant at h
  split at h
  · cases h
  · rw [← Option.some.inj h]
    exact ⟨rfl, rfl, rfl⟩

theorem saveAssistantMessage_cases (cfg : QaConfig) (db : Messages) (io : SaveIO) (d : Draft) :
    (∃ cause, saveAssistantMessage cfg db io d = (some cause, db)) ∨
    ∃ failure, saveAssistantMessage cfg db io d = (failure, insertDraft db io.now d) := by
  unfold saveAssistantMessage
  cases io.createMessage with
  | some cause => exact .inl ⟨_, rfl⟩
  | none =>
    by_cases uow : cfg.uow = true
    · simp only [uow, if_true]
      cases io.conversation with
      | some cause => exact .inl ⟨_, rfl⟩
      | none =>
        cases io.commit with
        | some cause => exact .inl ⟨_, rfl⟩
        | none => exact .inr ⟨_, rfl⟩
    · simp only [uow, Bool.false_eq_true, if_false]
      cases io.conversation with
      | some cause => exact .inr ⟨_, rfl⟩
      | none => exact .inr ⟨_, rfl⟩

theorem storesDraft_insert (db : Messages) (now : ℤ) (d : Draft) :
    StoresDraft db (insertDraft db now d) d := ⟨now, rfl⟩

/-- What a step of the loop can do: nothing that is forwarded or saved, forward an event
and go on, forward a terminal event and stop, or stop without one. -/
inductive Moves (cfg : QaConfig) (turn : Turn) (s : Stream) : Stream → Option Draft → Prop
  | quiet (s' : Stream) (acc : s'.acc = s.acc) (sent : s'.out.sent = s.out.sent)
      (phase : s'.phase = .finished ↔ s.phase = .finished) : Moves cfg turn s s' none
  | forwards (s' : Stream) (ev : SSEEvent) (running : s.phase ≠ .finished)
      (acc : s'.acc = accumulate s.acc ev) (sent : s'.out.sent = s.out.sent ++ [ev])
      (more : isTerminal ev = false) (phase : s'.phase ≠ .finished) : Moves cfg turn s s' none
  | ends (s' : Stream) (ev : SSEEvent) (running : s.phase ≠ .finished)
      (acc : s'.acc = accumulate s.acc ev) (sent : s'.out.sent = s.out.sent ++ [ev])
      (phase : s'.phase = .finished) : Moves cfg turn s s' (saveAssistant cfg turn s'.acc)
  | stops (s' : Stream) (running : s.phase ≠ .finished) (acc : s'.acc = s.acc)
      (sent : s'.out.sent = s.out.sent) (phase : s'.phase = .finished) :
      Moves cfg turn s s' (saveAssistant cfg turn s'.acc)

theorem next_moves (cfg : QaConfig) (turn : Turn) (s : Stream) (e : Event) :
    Moves cfg turn s (next cfg turn s e).1 (next cfg turn s e).2 := by
  have still : Moves cfg turn s s none := .quiet s rfl rfl Iff.rfl
  have finishes (running : s.phase ≠ .finished) :
      Moves cfg turn s (finish cfg turn s).1 (finish cfg turn s).2 :=
    .stops _ running rfl rfl rfl
  cases e with
  | arrive ev =>
    simp only [next]
    split
    · exact still
    · exact .quiet _ rfl rfl Iff.rfl
  | closeEvents => exact .quiet _ rfl rfl Iff.rfl
  | cancel => exact .quiet _ rfl rfl Iff.rfl
  | takeCancel =>
    simp only [next]
    split
    · exact still
    · rename_i running
      split
      · exact finishes running
      · exact still
  | takeEvent =>
    simp only [next]
    split
    · rename_i selecting
      have running : s.phase ≠ .finished := by rw [selecting]; nofun
      split
      · refine .quiet _ rfl rfl (iff_of_false ?_ running)
        nofun
      · split
        · exact finishes running
        · exact still
    · exact still
  | send =>
    simp only [next]
    split
    · rename_i ev sending
      have running : s.phase ≠ .finished := by rw [sending]; nofun
      split
      · split
        · exact .ends _ ev running rfl (Channel.sent_push _ _) rfl
        · rename_i more
          exact .forwards _ ev running rfl (Channel.sent_push _ _) (by simpa using more) nofun
      · exact still
    · exact still
  | receive => exact .quiet _ rfl (Channel.sent_receive _) Iff.rfl

/-- What the loop keeps: it has added up what it sent; until it stops nothing is saved
and no terminal event sent; from then on one save may have changed the table. -/
structure Sound (cfg : QaConfig) (turn : Turn) (before : Messages) (s : Session) : Prop where
  acc : s.stream.acc = accumulatedOf s.stream.out.sent
  running : s.stream.phase ≠ .finished →
    s.saved = [] ∧ s.messages = before ∧ ∀ ev ∈ s.stream.out.sent, isTerminal ev = false
  stopped : s.stream.phase = .finished →
    s.saved = (saveAssistant cfg turn (accumulatedOf s.stream.out.sent)).toList
  rows : s.messages.rows = before.rows ∨ ∃ d ∈ s.saved, StoresDraft before s.messages d
  stored : s.failures = [] → ∀ d ∈ s.saved, StoresDraft before s.messages d
  terminal : ∀ ev ∈ s.stream.out.sent.dropLast, isTerminal ev = false

theorem sound_started (cfg : QaConfig) (turn : Turn) (messages : Messages) :
    Sound cfg turn messages (started messages) where
  acc := rfl
  running _ := ⟨rfl, rfl, nofun⟩
  stopped := nofun
  rows := .inl rfl
  stored _ := nofun
  terminal := nofun

/-- The save of a stream that stops. -/
theorem Sound.save {cfg : QaConfig} {turn : Turn} {before : Messages} {s : Session}
    (sound : Sound cfg turn before s) (running : s.stream.phase ≠ .finished) {stream : Stream}
    (acc : stream.acc = accumulatedOf stream.out.sent) (phase : stream.phase = .finished)
    (terminal : ∀ ev ∈ stream.out.sent.dropLast, isTerminal ev = false) (io : SaveIO) :
    Sound cfg turn before
      (saveDraft cfg { s with stream := stream } io (saveAssistant cfg turn stream.acc)) := by
  obtain ⟨unsaved, unchanged, -⟩ := sound.running running
  cases draft : saveAssistant cfg turn stream.acc with
  | none =>
    constructor
    · exact acc
    · exact fun open_ => absurd phase open_
    · intro _
      show s.saved = (saveAssistant cfg turn (accumulatedOf stream.out.sent)).toList
      rw [← acc, draft]
      exact unsaved
    · exact sound.rows
    · exact sound.stored
    · exact terminal
  | some d =>
    have saved : (saveDraft cfg { s with stream := stream } io (some d)).saved = [d] := by
      simp only [saveDraft, unsaved, List.nil_append]
    have db : (saveDraft cfg { s with stream := stream } io (some d)).messages =
        (saveAssistantMessage cfg before io d).2 := by
      simp only [saveDraft, unchanged]
    have inserts := storesDraft_insert before io.now d
    constructor
    · exact acc
    · exact fun open_ => absurd phase open_
    · intro _
      rw [saved]
      show [d] = (saveAssistant cfg turn (accumulatedOf stream.out.sent)).toList
      rw [← acc, draft]
      rfl
    · rw [saved, db]
      rcases saveAssistantMessage_cases cfg before io d with ⟨cause, result⟩ | ⟨failure, result⟩
      · rw [result]
        exact .inl rfl
      · rw [result]
        exact .inr ⟨d, List.mem_singleton_self d, inserts⟩
    · intro quiet d' mem
      rw [saved] at mem
      rw [List.mem_singleton.mp mem, StoresDraft, db]
      rcases saveAssistantMessage_cases cfg before io d with ⟨cause, result⟩ | ⟨failure, result⟩
      · simp [saveDraft, unchanged, result] at quiet
      · rw [result]
        exact inserts
    · exact terminal

theorem sound_step (cfg : QaConfig) (turn : Turn) (before : Messages) (s : Session)
    (e : Event × SaveIO) (sound : Sound cfg turn before s) :
    Sound cfg turn before (step cfg turn s e) := by
  have moves := next_moves cfg turn s.stream e.1
  unfold step
  generalize next cfg turn s.stream e.1 = moved at moves
  obtain ⟨stream, draft⟩ := moved
  dsimp only at moves ⊢
  cases moves with
  | quiet acc sent phase =>
    constructor
    · show stream.acc = accumulatedOf stream.out.sent
      rw [acc, sent, sound.acc]
    · intro running
      have old := sound.running fun finished => running (phase.mpr finished)
      show s.saved = [] ∧ s.messages = before ∧ ∀ ev ∈ stream.out.sent, isTerminal ev = false
      rw [sent]
      exact old
    · intro finished
      show s.saved = (saveAssistant cfg turn (accumulatedOf stream.out.sent)).toList
      rw [sent]
      exact sound.stopped (phase.mp finished)
    · exact sound.rows
    · exact sound.stored
    · show ∀ ev ∈ stream.out.sent.dropLast, isTerminal ev = false
      rw [sent]
      exact sound.terminal
  | forwards ev running acc sent more phase =>
    obtain ⟨unsaved, unchanged, earlier⟩ := sound.running running
    constructor
    · show stream.acc = accumulatedOf stream.out.sent
      rw [acc, sent, accumulatedOf_append, sound.acc]
    · intro _
      refine ⟨unsaved, unchanged, ?_⟩
      show ∀ ev ∈ stream.out.sent, isTerminal ev = false
      rw [sent]
      intro other mem
      rcases List.mem_append.mp mem with old | new
      · exact earlier other old
      · rw [List.mem_singleton.mp new]
        exact more
    · exact fun finished => absurd finished phase
    · exact sound.rows
    · exact sound.stored
    · show ∀ ev ∈ stream.out.sent.dropLast, isTerminal ev = false
      rw [sent, List.dropLast_concat]
      exact earlier
  | ends ev running acc sent phase =>
    have earlier := (sound.running running).2.2
    refine sound.save running ?_ phase ?_ e.2
    · rw [acc, sent, accumulatedOf_append, sound.acc]
    · rw [sent, List.dropLast_concat]
      exact earlier
  | stops running acc sent phase =>
    refine sound.save running ?_ phase ?_ e.2
    · rw [acc, sent, sound.acc]
    · rw [sent]
      exact sound.terminal

theorem Sound.faithful {cfg : QaConfig} {turn : Turn} {before : Messages} {s : Session}
    (sound : Sound cfg turn before s) : Faithful cfg before s := by
  have saved : s.saved = [] ∨
      s.saved = (saveAssistant cfg turn (accumulatedOf s.stream.out.sent)).toList := by
    by_cases phase : s.stream.phase = .finished
    · exact .inr (sound.stopped phase)
    · exact .inl (sound.running phase).1
  constructor
  · rcases saved with none | one
    · simp [none]
    · rw [one]
      exact Option.length_toList_le
  · exact fun running => (sound.running running).1
  · intro finished
    rw [sound.stopped finished, ← @saveAssistant_isSome cfg turn]
    cases saveAssistant cfg turn (accumulatedOf s.stream.out.sent) with
    | none => simp
    | some d => simp
  · intro d mem
    rcases saved with none | one
    · rw [none] at mem
      exact absurd mem List.not_mem_nil
    · rw [one, Option.mem_toList] at mem
      exact saveAssistant_content mem
  · exact sound.rows
  · exact sound.stored
  · exact sound.terminal

/-- For every order of the events, the handler's reads and the cancellation. -/
theorem faithful_run (cfg : QaConfig) (turn : Turn) (before : Messages)
    (es : List (Event × SaveIO)) :
    EveryState (step cfg turn) (Faithful cfg before) (started before) es := by
  have run := everyState_of_invariant (sound_step cfg turn before) es
    (sound_started cfg turn before)
  exact everyState_imp (fun s sound => Sound.faithful sound) run

/-- A terminal event is the last that is forwarded, and the loop stops with it. -/
structure Ordered (s : Stream) : Prop where
  running : s.phase ≠ .finished → ∀ ev ∈ s.out.sent, isTerminal ev = false
  last : ∀ ev ∈ s.out.sent.dropLast, isTerminal ev = false

theorem ordered_opened : Ordered opened := ⟨fun _ => nofun, nofun⟩

theorem next_ordered {cfg : QaConfig} {turn : Turn} {s : Stream} (e : Event) (h : Ordered s) :
    Ordered (next cfg turn s e).1 := by
  have moves := next_moves cfg turn s e
  generalize next cfg turn s e = moved at moves
  obtain ⟨stream, draft⟩ := moved
  dsimp only at moves ⊢
  cases moves with
  | quiet acc sent phase =>
    refine ⟨fun running => ?_, ?_⟩
    · rw [sent]
      exact h.running fun finished => running (phase.mpr finished)
    · rw [sent]
      exact h.last
  | forwards ev running acc sent more phase =>
    refine ⟨fun _ other mem => ?_, ?_⟩
    · rw [sent] at mem
      rcases List.mem_append.mp mem with old | new
      · exact h.running running other old
      · rw [List.mem_singleton.mp new]
        exact more
    · rw [sent, List.dropLast_concat]
      exact h.running running
  | ends ev running acc sent phase =>
    refine ⟨fun open_ => absurd phase open_, ?_⟩
    rw [sent, List.dropLast_concat]
    exact h.running running
  | stops running acc sent phase =>
    refine ⟨fun open_ => absurd phase open_, ?_⟩
    rw [sent]
    exact h.last

theorem finished_next {cfg : QaConfig} {turn : Turn} {s : Stream} (e : Event)
    (finished : s.phase = .finished) :
    (next cfg turn s e).1.phase = .finished ∧ (next cfg turn s e).1.out.sent = s.out.sent := by
  have moves := next_moves cfg turn s e
  generalize next cfg turn s e = moved at moves
  obtain ⟨stream, draft⟩ := moved
  dsimp only at moves ⊢
  cases moves with
  | quiet acc sent phase => exact ⟨phase.mpr finished, sent⟩
  | forwards ev running => exact absurd finished running
  | ends ev running => exact absurd finished running
  | stops running => exact absurd finished running

theorem received_receive {c : Channel SSEEvent} : c.received <+: c.receive.received := by
  unfold Channel.receive
  split
  · exact List.prefix_rfl
  · exact List.prefix_append _ _

theorem received_next {cfg : QaConfig} {turn : Turn} {s : Stream} (e : Event) :
    s.out.received <+: (next cfg turn s e).1.out.received := by
  cases e with
  | receive => exact received_receive
  | arrive ev =>
    simp only [next]
    split <;> exact List.prefix_rfl
  | closeEvents => exact List.prefix_rfl
  | cancel => exact List.prefix_rfl
  | takeCancel =>
    simp only [next]
    split
    · exact List.prefix_rfl
    · split <;> exact List.prefix_rfl
  | takeEvent =>
    simp only [next]
    split
    · split
      · exact List.prefix_rfl
      · split <;> exact List.prefix_rfl
    · exact List.prefix_rfl
  | send =>
    simp only [next]
    split
    · split
      · split <;> exact List.prefix_rfl
      · exact List.prefix_rfl
    · exact List.prefix_rfl

def inHand (s : Stream) : List SSEEvent :=
  match s.phase with
  | .sending ev => [ev]
  | _ => []

def arrived (s : Stream) : List SSEEvent := s.aiEvents ++ inHand s ++ s.out.sent

theorem mem_arrived {s : Stream} {ev : SSEEvent} :
    ev ∈ arrived s ↔ ev ∈ s.aiEvents ∨ ev ∈ inHand s ∨ ev ∈ s.out.sent := by
  rw [arrived, List.mem_append, List.mem_append, or_assoc]

theorem arrived_finish {cfg : QaConfig} {turn : Turn} {s : Stream} {ev : SSEEvent}
    (mem : ev ∈ arrived (finish cfg turn s).1) : ev ∈ arrived s := by
  rw [mem_arrived] at mem ⊢
  rcases mem with waiting | none | sent
  · exact .inl waiting
  · cases none
  · exact .inr (.inr sent)

theorem arrived_takeEvent {cfg : QaConfig} {turn : Turn} {s : Stream} {ev : SSEEvent}
    (mem : ev ∈ arrived (next cfg turn s .takeEvent).1) : ev ∈ arrived s := by
  simp only [next] at mem
  split at mem
  · split at mem
    · rename_i first rest waits
      rw [mem_arrived] at mem ⊢
      rw [waits]
      rcases mem with waiting | hand | sent
      · exact .inl (List.mem_cons_of_mem first waiting)
      · rw [List.mem_singleton.mp hand]
        exact .inl List.mem_cons_self
      · exact .inr (.inr sent)
    · split at mem
      · exact arrived_finish mem
      · exact mem
  · exact mem

theorem arrived_send {cfg : QaConfig} {turn : Turn} {s : Stream} {ev : SSEEvent}
    (mem : ev ∈ arrived (next cfg turn s .send).1) : ev ∈ arrived s := by
  simp only [next] at mem
  split at mem
  · rename_i first sending
    have hand : inHand s = [first] := by rw [inHand, sending]
    split at mem
    · have moved (there : ev ∈ s.aiEvents ∨ ev ∈ (s.out.push first).sent) : ev ∈ arrived s := by
        rw [mem_arrived, hand]
        rcases there with waiting | sent
        · exact .inl waiting
        · rw [Channel.sent_push] at sent
          rcases List.mem_append.mp sent with old | new
          · exact .inr (.inr old)
          · exact .inr (.inl new)
      split at mem
      · rw [mem_arrived] at mem
        rcases mem with waiting | none | sent
        · exact moved (.inl waiting)
        · cases none
        · exact moved (.inr sent)
      · rw [mem_arrived] at mem
        rcases mem with waiting | none | sent
        · exact moved (.inl waiting)
        · cases none
        · exact moved (.inr sent)
    · exact mem
  · exact mem

theorem arrived_next {cfg : QaConfig} {turn : Turn} {s : Stream} {e : Event} {ev : SSEEvent}
    (mem : ev ∈ arrived (next cfg turn s e).1) : ev ∈ arrived s ∨ e = .arrive ev := by
  cases e with
  | arrive new =>
    simp only [next] at mem
    split at mem
    · exact .inl mem
    · rw [mem_arrived] at mem
      rcases mem with waiting | hand | sent
      · rcases List.mem_append.mp waiting with old | here
        · exact .inl (mem_arrived.mpr (.inl old))
        · exact .inr (by rw [List.mem_singleton.mp here])
      · exact .inl (mem_arrived.mpr (.inr (.inl hand)))
      · exact .inl (mem_arrived.mpr (.inr (.inr sent)))
  | closeEvents => exact .inl mem
  | cancel => exact .inl mem
  | takeCancel =>
    simp only [next] at mem
    split at mem
    · exact .inl mem
    · split at mem
      · exact .inl (arrived_finish mem)
      · exact .inl mem
  | takeEvent => exact .inl (arrived_takeEvent mem)
  | send => exact .inl (arrived_send mem)
  | receive =>
    simp only [next] at mem
    rw [mem_arrived] at mem
    refine .inl (mem_arrived.mpr ?_)
    rcases mem with waiting | hand | sent
    · exact .inl waiting
    · exact .inr (.inl hand)
    · rw [Channel.sent_receive] at sent
      exact .inr (.inr sent)

end KnowledgeCompanion.QaStream
