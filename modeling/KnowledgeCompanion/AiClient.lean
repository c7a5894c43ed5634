import KnowledgeCompanion.BoundedChannel
import KnowledgeCompanion.GoText
import KnowledgeCompanion.GuardedRun

/-! The gateway's client of the AI service (`service/ai_client.go`): the goroutine
that parses the response as server-sent events and hands them over a buffered
channel, beside a consumer that reads the channel at its own pace. -/

namespace KnowledgeCompanion.AiClient

open BoundedChannel GoText GuardedRun

structure SSEEvent where
  event : Text
  data : Text
  raw : Text
deriving DecidableEq

/-- `eventType` and `dataLines`. -/
structure Parser where
  eventType : Text := []
  dataLines : List Text := []

def rawEvent (eventType data : Text) : Text :=
  "event: ".toList ++ eventType ++ "\ndata: ".toList ++ data ++ "\n\n".toList

def flushEvent (p : Parser) : Option SSEEvent :=
  if p.eventType = [] ∧ p.dataLines = [] then none
  else
    let eventType := if p.eventType = [] then "message".toList else p.eventType
    let data := join p.dataLines ['\n']
    some ⟨eventType, data, rawEvent eventType data⟩

/-- What one line, ended by `ReadString`, does to the parser. -/
def takeLine (p : Parser) (line : Text) : Option SSEEvent × Parser :=
  if line = [] then (none, p)
  else
    let line := trimRight line ['\r', '\n']
    if line = [] then (flushEvent p, {})
    else
      match cutPrefix "event:".toList line with
      | some rest => (none, { p with eventType := trimSpace rest })
      | none =>
        match cutPrefix "data:".toList line with
        | some rest => (none, { p with dataLines := p.dataLines ++ [trimSpace rest] })
        | none => (none, p)

def takeRead (p : Parser) (line : Text) (eof : Bool) : List SSEEvent × Parser :=
  let taken := takeLine p line
  if eof then (taken.1.toList ++ (flushEvent taken.2).toList, taken.2)
  else (taken.1.toList, taken.2)

/-- What successive `ReadString('\n')` return; the last one comes with `io.EOF`. -/
def reads : Text → List Text
  | [] => [[]]
  | c :: rest =>
    if c = '\n' then [c] :: reads rest
    else
      match reads rest with
      | [] => [[c]]
      | line :: lines => (c :: line) :: lines

theorem reads_flatten (body : Text) : (reads body).flatten = body := by
  induction body with
  | nil => rfl
  | cons c rest ih =>
    rw [reads]
    by_cases newline : c = '\n'
    · rw [if_pos newline, List.flatten_cons, ih, List.singleton_append]
    · rw [if_neg newline]
      cases lines : reads rest with
      | nil =>
        rw [lines] at ih
        rw [← ih]
        rfl
      | cons line lines' =>
        rw [lines] at ih
        rw [← ih]
        rfl

def parseReads (p : Parser) : List Text → List SSEEvent
  | [] => []
  | line :: rest =>
    let taken := takeRead p line rest.isEmpty
    taken.1 ++ parseReads taken.2 rest

def parse (body : Text) : List SSEEvent := parseReads {} (reads body)

def eventsSize : ℕ := 64

structure Stream where
  reads : List Text
  parser : Parser
  events : Channel SSEEvent

/-- The goroutine does one round of its loop, or the consumer receives one event. -/
inductive Event
  | read
  | receive

def flushes (s : Stream) : Event → List SSEEvent
  | .read =>
    match s.reads with
    | [] => []
    | line :: rest => (takeRead s.parser line rest.isEmpty).1
  | .receive => []

def offerAll (events : Channel SSEEvent) (flushed : List SSEEvent) : Channel SSEEvent :=
  flushed.foldl (fun c ev => c.offer eventsSize ev) events

def step (s : Stream) : Event → Stream
  | .read =>
    match s.reads with
    | [] => s
    | line :: rest =>
      let taken := takeRead s.parser line rest.isEmpty
      { reads := rest, parser := taken.2, events := offerAll s.events taken.1 }
  | .receive => { s with events := s.events.receive }

/-- `StreamQA` has returned the channel for a response with the body. -/
def opened (body : Text) : Stream := ⟨reads body, {}, {}⟩

/-- The goroutine has closed the channel and the consumer has emptied it. -/
def Drained (s : Stream) : Prop := s.reads = [] ∧ s.events.buffer = []

instance : DecidablePred Drained := fun s =>
  inferInstanceAs (Decidable (s.reads = [] ∧ s.events.buffer = []))

def FlushesWithRoom (s : Stream) (e : Event) : Prop :=
  flushes s e ≠ [] → s.events.HasRoom eventsSize

instance (s : Stream) (e : Event) : Decidable (FlushesWithRoom s e) :=
  inferInstanceAs (Decidable (_ → _))

def total (s : Stream) : List SSEEvent := s.events.sent ++ parseReads s.parser s.reads

theorem total_opened (body : Text) : total (opened body) = parse body := rfl

theorem total_drained {s : Stream} (drained : Drained s) : total s = s.events.received := by
  rw [total, drained.1, Channel.received_eq_sent drained.2, parseReads, List.append_nil]

theorem takeRead_cases (p : Parser) (line : Text) (eof : Bool) :
    (takeRead p line eof).1 = [] ∨ ∃ ev, (takeRead p line eof).1 = [ev] := by
  have single (o : Option SSEEvent) : o.toList = [] ∨ ∃ ev, o.toList = [ev] := by
    cases o with
    | none => exact .inl rfl
    | some ev => exact .inr ⟨ev, rfl⟩
  have taken : (takeLine p line).1 = none ∨ (takeLine p line).2 = {} := by
    unfold takeLine
    split
    · exact .inl rfl
    · dsimp only
      split
      · exact .inr rfl
      · split
        · exact .inl rfl
        · split <;> exact .inl rfl
  unfold takeRead
  cases eof with
  | false => exact single _
  | true =>
    rcases taken with nothing | reset
    · simp only [nothing, Option.toList_none, List.nil_append, if_true]
      exact single _
    · have flushed : flushEvent {} = none := rfl
      simp only [reset, flushed, Option.toList_none, List.append_nil, if_true]
      exact single _

theorem total_step (s : Stream) (e : Event) :
    (FlushesWithRoom s e ∧ total (step s e) = total s) ∨
    (¬ FlushesWithRoom s e ∧ (total (step s e)).length < (total s).length) := by
  cases e with
  | receive =>
    left
    refine ⟨fun flushed => absurd rfl flushed, ?_⟩
    simp only [total, step, Channel.sent_receive]
  | read =>
    cases lines : s.reads with
    | nil =>
      left
      refine ⟨fun flushed => absurd ?_ flushed, ?_⟩
      · simp only [flushes, lines]
      · simp only [step, lines]
    | cons line rest =>
      rcases takeRead_cases s.parser line rest.isEmpty with quiet | ⟨ev, sends⟩
      · left
        refine ⟨fun flushed => absurd ?_ flushed, ?_⟩
        · simp only [flushes, lines, quiet]
        · simp only [total, step, lines, parseReads, quiet, offerAll, List.foldl_nil,
            List.nil_append]
      · have flushed : flushes s .read = [ev] := by simp only [flushes, lines, sends]
        by_cases room : s.events.HasRoom eventsSize
        · left
          refine ⟨fun _ => room, ?_⟩
          simp only [total, step, lines, parseReads, sends, offerAll, List.foldl_cons,
            List.foldl_nil, Channel.sent_offer_room room, List.append_assoc]
        · right
          refine ⟨fun guard => room (guard (by rw [flushed]; exact List.cons_ne_nil _ _)), ?_⟩
          simp only [total, step, lines, parseReads, sends, offerAll, List.foldl_cons,
            List.foldl_nil, Channel.sent_offer_full room, List.length_append, List.length_cons,
            List.length_nil]
          omega

/-- For every body and every schedule that runs to its end, the consumer has received
exactly the parsed events, in order, if and only if every event found room. -/
theorem received_iff (body : Text) (es : List Event)
    (drained : Drained (exec step (opened body) es)) :
    (exec step (opened body) es).events.received = parse body ↔
      EveryStep step FlushesWithRoom (opened body) es := by
  rw [← total_drained drained, ← total_opened]
  exact exec_eq_iff_everyStep total total_step

def sseEvent (event data : String) : SSEEvent :=
  ⟨event.toList, data.toList, rawEvent event.toList data.toList⟩

def chunkEvent : SSEEvent := sseEvent "chunk" "\x7b\"delta\": \"a\"\x7d"

def doneEvent : SSEEvent := sseEvent "done" "{}"

def longAnswer : List SSEEvent := List.replicate eventsSize chunkEvent ++ [doneEvent]

def slowConsumer : List Event := List.replicate 196 .read ++ List.replicate eventsSize .receive

/-- The buffer holds the chunks, and the done event is dropped. -/
theorem slowConsumer_loses_done :
    parse (longAnswer.flatMap SSEEvent.raw) = longAnswer ∧
    Drained (exec step (opened (longAnswer.flatMap SSEEvent.raw)) slowConsumer) ∧
    (exec step (opened (longAnswer.flatMap SSEEvent.raw)) slowConsumer).events.received =
      List.replicate eventsSize chunkEvent := by
  decide +kernel

/-- A consumer that takes each event before the next one is parsed. -/
theorem received_iff_oneChunk :
    (exec step (opened (chunkEvent.raw ++ doneEvent.raw))
      [.read, .read, .read, .receive, .read, .read, .read, .read, .receive]).events.received =
        [chunkEvent, doneEvent] := by
  have answer : parse (chunkEvent.raw ++ doneEvent.raw) = [chunkEvent, doneEvent] := by
    decide +kernel
  rw [← answer]
  exact (received_iff (chunkEvent.raw ++ doneEvent.raw) _ (by decide +kernel)).mpr
    (by decide +kernel)

end KnowledgeCompanion.AiClient
