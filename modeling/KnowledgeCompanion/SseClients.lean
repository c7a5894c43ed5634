import KnowledgeCompanion.SseFrames

/-! The two chat clients on a stream of server-sent events: the web client scans a growing
buffer for empty lines (`chat_sse_client_web.dart`), the native one reads line by line
(`chat_sse_client_default.dart`), and both deliver the events of the frames. -/

namespace KnowledgeCompanion.SseClients

open ChatNotifier ChatSseClient DartText SseFrames

variable {parseCitation : Members → Option (Option ChatNotifier.Citation)}

/-- The loop of `_parseBuffer`, which leaves the last character out. -/
def scanBuffer (bufferText : Text) : Text → List Text × Text
  | [] => ([], bufferText)
  | [_] => ([], bufferText)
  | c :: d :: rest =>
    if c = '\n' ∧ d = '\n' then
      let later := scanBuffer [] rest
      (if bufferText = [] then later.1 else bufferText :: later.1, later.2)
    else scanBuffer (bufferText ++ [c]) (d :: rest)

def parseBuffer (buffer : Text) : List Text × Text :=
  let scanned := scanBuffer [] buffer
  (scanned.1, scanned.2 ++ buffer.getLast?.toList)

def flushBuffer (parseCitation : Members → Option (Option ChatNotifier.Citation)) (buffer : Text) :
    List ChatEvent :=
  let event := trim buffer
  if event = [] then [] else (parseEvent parseCitation event).toList

def readChunks (parseCitation : Members → Option (Option ChatNotifier.Citation)) (buffer : Text) :
    List Text → List ChatEvent
  | [] => flushBuffer parseCitation buffer
  | chunk :: chunks =>
    let parsed := parseBuffer (buffer ++ chunk)
    parsed.1.filterMap (parseEvent parseCitation) ++ readChunks parseCitation parsed.2 chunks

def webEvents (parseCitation : Members → Option (Option ChatNotifier.Citation))
    (chunks : List Text) : List ChatEvent := readChunks parseCitation [] chunks

theorem scanBuffer_line {c : Char} {text rest : Text} (bufferText : Text)
    (other : c = '\n' → (text ++ rest).head? ≠ some '\n') (more : text ++ rest ≠ []) :
    scanBuffer bufferText (c :: (text ++ rest)) =
      scanBuffer (bufferText ++ [c]) (text ++ rest) := by
  cases tail : text ++ rest with
  | nil => exact absurd tail more
  | cons d back =>
    rw [tail] at other
    rw [scanBuffer, if_neg]
    rintro ⟨same, rfl⟩
    exact other same rfl

theorem scanBuffer_event {event : Text} (bufferText rest : Text)
    (plain : hasBlankLine (event ++ ['\n']) = false) (some_ : bufferText ++ event ≠ []) :
    scanBuffer bufferText (event ++ '\n' :: '\n' :: rest) =
      ((bufferText ++ event) :: (scanBuffer [] rest).1, (scanBuffer [] rest).2) := by
  induction event generalizing bufferText with
  | nil =>
    rw [List.append_nil] at some_
    rw [List.nil_append, scanBuffer, if_pos ⟨rfl, rfl⟩, List.append_nil]
    dsimp only
    rw [if_neg some_]
  | cons c event ih =>
    have other : c = '\n' → (event ++ ['\n']).head? ≠ some '\n' := by
      rintro rfl first
      obtain ⟨back, whole⟩ : ∃ back, event ++ ['\n'] = '\n' :: back :=
        ⟨_, (List.cons_head?_tail first).symm⟩
      rw [List.cons_append, whole] at plain
      exact Bool.noConfusion plain
    have after : c = '\n' → (event ++ '\n' :: '\n' :: rest).head? ≠ some '\n' := by
      intro same
      have first := other same
      cases event with
      | nil => exact absurd rfl first
      | cons d event => exact first
    rw [List.cons_append, hasBlankLine_cons other] at plain
    rw [List.cons_append, scanBuffer_line _ after (by simp), ih _ plain (by simp),
      List.append_assoc,
      List.singleton_append]

theorem scanBuffer_rest {text : Text} (bufferText : Text) (plain : hasBlankLine text = false) :
    scanBuffer bufferText text = ([], bufferText ++ text.dropLast) := by
  induction text generalizing bufferText with
  | nil => rw [scanBuffer, List.dropLast_nil, List.append_nil]
  | cons c text ih =>
    cases text with
    | nil => rw [scanBuffer, List.dropLast_singleton, List.append_nil]
    | cons d rest =>
      have apart : ¬ (c = '\n' ∧ d = '\n') := by
        rintro ⟨rfl, rfl⟩
        exact Bool.noConfusion plain
      have other : c = '\n' → (d :: rest).head? ≠ some '\n' :=
        fun same first => apart ⟨same, Option.some.inj first⟩
      have still : hasBlankLine (d :: rest) = false := by rwa [hasBlankLine_cons other] at plain
      rw [scanBuffer, if_neg apart, ih _ still, List.append_assoc]
      rfl

def Lead (lead : Text) : Prop := lead = [] ∨ lead = ['\n']

theorem plain_of_newline {text : Text} (plain : hasBlankLine ('\n' :: text) = false) :
    hasBlankLine text = false := by
  have other : '\n' = '\n' → text.head? ≠ some '\n' := by
    intro _ first
    cases text with
    | nil => exact Option.some_ne_none _ first.symm
    | cons c text =>
      rw [Option.some.inj first] at plain
      exact Bool.noConfusion plain
  rwa [hasBlankLine_cons other] at plain

theorem Lead.plain {lead text : Text} (start : Lead lead)
    (plain : hasBlankLine ('\n' :: text) = false) : hasBlankLine (lead ++ text) = false := by
  rcases start with rfl | rfl
  · exact plain_of_newline plain
  · exact plain

theorem Lead.takeFields {lead : Text} (start : Lead lead) (fields : Fields) (text : Text) :
    takeFields fields (lead ++ text) = SseFrames.takeFields fields text := by
  rcases start with rfl | rfl
  · rfl
  · exact takeFields_newline fields text

theorem parseEvent_body {lead : Text} (start : Lead lead) (f : Frame) :
    parseEvent parseCitation (lead ++ f.body) = f.event parseCitation := by
  rw [parseEvent_eq, start.takeFields, Frame.body,
    takeFields_body f.name_line.1 f.data_line.1]
  rfl

theorem scanBuffer_frame {lead : Text} (start : Lead lead) (f : Frame) (tail : Text) :
    scanBuffer [] (lead ++ (f.text ++ tail)) =
      ((lead ++ f.body) :: (scanBuffer [] tail).1, (scanBuffer [] tail).2) := by
  have text : lead ++ (f.text ++ tail) = (lead ++ f.body) ++ '\n' :: '\n' :: tail := by
    rw [f.text_eq]
    simp
  have body : hasBlankLine ((lead ++ f.body) ++ ['\n']) = false := by
    rw [List.append_assoc]
    exact start.plain f.body_plain
  rw [text, scanBuffer_event [] _ body (by simp [Frame.body_eq])]
  rfl

theorem scanBuffer_frames (done : List Frame) {rest : Text}
    (plain : hasBlankLine ('\n' :: rest) = false) :
    scanBuffer [] (done.flatMap Frame.text ++ rest) = (done.map Frame.body, rest.dropLast) := by
  induction done with
  | nil => exact scanBuffer_rest [] (plain_of_newline plain)
  | cons f done ih =>
    have first := scanBuffer_frame (.inl rfl) f (done.flatMap Frame.text ++ rest)
    rw [List.nil_append, List.nil_append, ih] at first
    rw [List.flatMap_cons, List.append_assoc, first]
    rfl

theorem getLast_frames (f : Frame) (done : List Frame) :
    ((f :: done).flatMap Frame.text).getLast? = some '\n' := by
  induction done generalizing f with
  | nil =>
    rw [List.flatMap_singleton, f.text_eq]
    simp
  | cons g done ih =>
    rw [List.flatMap_cons, List.getLast?_append, ih g, Option.some_or]

theorem dropLast_append_toList (text : Text) : text.dropLast ++ text.getLast?.toList = text := by
  cases ends : text.getLast? with
  | none => simp [List.getLast?_eq_none_iff.mp ends]
  | some c =>
    obtain ⟨front, rfl⟩ := List.getLast?_eq_some_iff.mp ends
    simp

theorem scanBuffer_done {lead rest : Text} (start : Lead lead) (f : Frame) (done : List Frame)
    (plain : hasBlankLine ('\n' :: rest) = false) :
    ∃ events, scanBuffer [] (lead ++ ((f :: done).flatMap Frame.text ++ rest)) =
        (events, rest.dropLast) ∧
      events.filterMap (parseEvent parseCitation) =
        (f :: done).filterMap (Frame.event parseCitation) := by
  refine ⟨(lead ++ f.body) :: done.map Frame.body, ?_, ?_⟩
  · rw [List.flatMap_cons, List.append_assoc, scanBuffer_frame start, scanBuffer_frames done plain]
  · have each : parseEvent parseCitation ∘ Frame.body = Frame.event parseCitation :=
      funext fun g => @parseEvent_body parseCitation [] (.inl rfl) g
    rw [List.filterMap_cons, List.filterMap_cons, parseEvent_body start, List.filterMap_map, each]

theorem parseBuffer_frames {lead rest : Text} (start : Lead lead) (done : List Frame)
    (plain : hasBlankLine ('\n' :: rest) = false) :
    ∃ lead', Lead lead' ∧
      (parseBuffer (lead ++ (done.flatMap Frame.text ++ rest))).2 = lead' ++ rest ∧
      (parseBuffer (lead ++ (done.flatMap Frame.text ++ rest))).1.filterMap
          (parseEvent parseCitation) = done.filterMap (Frame.event parseCitation) := by
  cases done with
  | nil =>
    refine ⟨lead, start, ?_, ?_⟩
    · rw [List.flatMap_nil, List.nil_append, parseBuffer, scanBuffer_rest [] (start.plain plain)]
      exact dropLast_append_toList (lead ++ rest)
    · rw [List.flatMap_nil, List.nil_append, parseBuffer, scanBuffer_rest [] (start.plain plain)]
      rfl
  | cons f done =>
    obtain ⟨found, scanned, events⟩ := @scanBuffer_done parseCitation _ _ start f done plain
    rw [parseBuffer, scanned]
    by_cases none : rest = []
    · refine ⟨['\n'], .inr rfl, ?_, events⟩
      have ends : (lead ++ ((f :: done).flatMap Frame.text ++ rest)).getLast? = some '\n' := by
        rw [none, List.append_nil, List.getLast?_append, getLast_frames, Option.some_or]
      rw [ends, none]
      rfl
    · refine ⟨[], .inl rfl, ?_, events⟩
      have ends : (lead ++ ((f :: done).flatMap Frame.text ++ rest)).getLast? = rest.getLast? := by
        rw [← List.append_assoc, List.getLast?_append]
        cases tail : rest.getLast? with
        | none => exact absurd (List.getLast?_eq_none_iff.mp tail) none
        | some c => rfl
      rw [ends]
      exact dropLast_append_toList rest

theorem flushBuffer_partial {lead rest : Text} (start : Lead lead) (inside : Partial rest) :
    flushBuffer parseCitation (lead ++ rest) =
      ((takeFields {} rest).event parseCitation).toList := by
  have blank : Blank lead := by
    rcases start with rfl | rfl
    · exact fun c mem => absurd mem List.not_mem_nil
    · exact fun c mem => by
        rw [List.mem_singleton.mp mem]
        rfl
  have trimmed : trim (lead ++ rest) = trimRight rest := by
    rw [trim_blank_append blank, trim]
    cases rest with
    | nil => rfl
    | cons c rest =>
      rw [inside.head c rfl, List.dropWhile_cons_of_neg (by decide)]
      rfl
  have fields := takeFields_trimRight {} rest
  rw [flushBuffer, trimmed]
  by_cases none : trimRight rest = []
  · rw [none] at fields
    rw [if_pos none, ← fields]
    rfl
  · rw [if_neg none, parseEvent_eq, fields]

theorem exists_frames {frames : List Frame} {tail front back : Text}
    (whole : front ++ back = frames.flatMap Frame.text ++ tail) :
    ∃ done left rest, frames = done ++ left ∧ front = done.flatMap Frame.text ++ rest ∧
      rest ++ back = left.flatMap Frame.text ++ tail ∧
      ∀ f ∈ left.head?, rest <+: f.body ++ ['\n'] := by
  induction frames generalizing front with
  | nil => exact ⟨[], [], front, rfl, rfl, whole, by simp⟩
  | cons f frames ih =>
    rw [List.flatMap_cons, List.append_assoc] at whole
    rcases List.append_eq_append_iff.mp whole with ⟨more, text, rest⟩ | ⟨more, text, rest⟩
    · -- the front ends within the first frame or just after it
      cases ends : more with
      | nil =>
        obtain ⟨done, left, rest', parts, start, goes, within⟩ := @ih [] (by
          rw [ends] at rest
          exact rest)
        refine ⟨f :: done, left, rest', by rw [parts]; rfl, ?_, goes, within⟩
        rw [ends, List.append_nil] at text
        rw [List.flatMap_cons, List.append_assoc, ← start, text, List.append_nil]
      | cons c more' =>
        refine ⟨[], f :: frames, front, rfl, rfl, ?_, fun g mem => ?_⟩
        · rw [whole, List.flatMap_cons, List.append_assoc]
        · rw [← Option.some.inj mem]
          have split : f.body ++ ['\n'] ++ ['\n'] = front ++ (c :: more') := by
            rw [← ends, ← text, f.text_eq]
            simp
          have shorter : front.length ≤ (f.body ++ ['\n']).length := by
            have lengths := congrArg List.length split
            simp only [List.length_append, List.length_cons, List.length_nil] at lengths ⊢
            omega
          exact List.prefix_of_prefix_length_le ⟨c :: more', rfl⟩ ⟨['\n'], split⟩ shorter
    · obtain ⟨done, left, rest', parts, start, goes, within⟩ := @ih more rest.symm
      refine ⟨f :: done, left, rest', by rw [parts]; rfl, ?_, goes, within⟩
      rw [List.flatMap_cons, List.append_assoc, ← start, text]

theorem readChunks_eq {frames : List Frame} {tail lead rest : Text} {chunks : List Text}
    (start : Lead lead) (inside : Partial tail)
    (whole : rest ++ chunks.flatten = frames.flatMap Frame.text ++ tail)
    (within : ∀ f ∈ frames.head?, rest <+: f.body ++ ['\n']) :
    readChunks parseCitation (lead ++ rest) chunks =
      frames.filterMap (Frame.event parseCitation) ++
        ((takeFields {} tail).event parseCitation).toList := by
  induction chunks generalizing frames lead rest with
  | nil =>
    rw [List.flatten_nil, List.append_nil] at whole
    cases frames with
    | nil =>
      rw [whole]
      exact flushBuffer_partial start inside
    | cons f frames =>
      have short := (within f rfl).length_le
      have lengths := congrArg List.length whole
      rw [List.flatMap_cons, f.text_eq] at lengths
      simp only [List.length_append, List.length_cons, List.length_nil] at lengths short
      omega
  | cons chunk chunks ih =>
    rw [List.flatten_cons, ← List.append_assoc] at whole
    obtain ⟨done, left, rest', parts, front, goes, within'⟩ := exists_frames whole
    have partial_ : Partial rest' := by
      cases left with
      | nil =>
        obtain ⟨f, prefix_⟩ := inside
        rw [List.flatMap_nil, List.nil_append] at goes
        exact ⟨f, List.IsPrefix.trans ⟨_, goes⟩ prefix_⟩
      | cons f left => exact ⟨f, within' f rfl⟩
    obtain ⟨lead', start', kept, events⟩ :=
      @parseBuffer_frames parseCitation lead rest' start done partial_.plain
    rw [readChunks, List.append_assoc, front, events, kept, ih start' goes within', parts,
      List.filterMap_append, List.append_assoc]

theorem webEvents_eq {frames : List Frame} {tail : Text} {chunks : List Text}
    (inside : Partial tail) (whole : chunks.flatten = frames.flatMap Frame.text ++ tail) :
    webEvents parseCitation chunks = frames.filterMap (Frame.event parseCitation) ++
      ((takeFields {} tail).event parseCitation).toList :=
  @readChunks_eq parseCitation frames tail [] [] chunks (.inl rfl) inside whole fun _ _ =>
    List.nil_prefix

/-- The state of Dart's `LineSplitter`: the line that is not ended, and whether a line end
that follows belongs to a carriage return. -/
structure LineSplitter where
  carry : Option Text := none
  skipLF : Bool := false

def splitLines (splitter : LineSplitter) : Text → List Text × LineSplitter
  | [] => ([], splitter)
  | c :: rest =>
    if c = '\n' ∧ splitter.skipLF = true then splitLines { splitter with skipLF := false } rest
    else if c = '\n' ∨ c = '\r' then
      let later := splitLines { skipLF := c = '\r' } rest
      (splitter.carry.getD [] :: later.1, later.2)
    else splitLines { carry := some (splitter.carry.getD [] ++ [c]) } rest

def handleLine (parseCitation : Members → Option (Option ChatNotifier.Citation)) (fields : Fields)
    (line : Text) : Option ChatEvent × Fields :=
  if line = [] then (fields.event parseCitation, {}) else (none, takeField fields line)

def handleLines (parseCitation : Members → Option (Option ChatNotifier.Citation))
    (fields : Fields) : List Text → List ChatEvent × Fields
  | [] => ([], fields)
  | line :: lines =>
    let handled := handleLine parseCitation fields line
    let later := handleLines parseCitation handled.2 lines
    (handled.1.toList ++ later.1, later.2)

def transformChunks (parseCitation : Members → Option (Option ChatNotifier.Citation))
    (splitter : LineSplitter) (fields : Fields) : List Text → List ChatEvent
  | [] =>
    let handled := handleLines parseCitation fields splitter.carry.toList
    handled.1 ++ (handled.2.event parseCitation).toList
  | chunk :: chunks =>
    let split := splitLines splitter chunk
    let handled := handleLines parseCitation fields split.1
    handled.1 ++ transformChunks parseCitation split.2 handled.2 chunks

def untilTerminal : List ChatEvent → List ChatEvent
  | [] => []
  | event :: events => if event.isTerminal then [event] else event :: untilTerminal events

def nativeEvents (parseCitation : Members → Option (Option ChatNotifier.Citation))
    (chunks : List Text) : List ChatEvent :=
  untilTerminal (transformChunks parseCitation {} {} chunks)

theorem splitLines_append (splitter : LineSplitter) (a b : Text) :
    splitLines splitter (a ++ b) =
      ((splitLines splitter a).1 ++ (splitLines (splitLines splitter a).2 b).1,
        (splitLines (splitLines splitter a).2 b).2) := by
  induction a generalizing splitter with
  | nil => rfl
  | cons c a ih =>
    rw [List.cons_append, splitLines, splitLines]
    split
    · exact ih _
    · split
      · rw [ih]
        rfl
      · exact ih _

theorem handleLines_append (fields : Fields) (a b : List Text) :
    handleLines parseCitation fields (a ++ b) =
      ((handleLines parseCitation fields a).1 ++
          (handleLines parseCitation (handleLines parseCitation fields a).2 b).1,
        (handleLines parseCitation (handleLines parseCitation fields a).2 b).2) := by
  induction a generalizing fields with
  | nil => rfl
  | cons line a ih =>
    rw [List.cons_append, handleLines, handleLines, ih]
    simp only [List.append_assoc]

theorem transformChunks_single (splitter : LineSplitter) (fields : Fields) (text : Text) :
    transformChunks parseCitation splitter fields [text] =
      let split := splitLines splitter text
      let handled := handleLines parseCitation fields split.1
      let closed := handleLines parseCitation handled.2 split.2.carry.toList
      handled.1 ++ (closed.1 ++ (closed.2.event parseCitation).toList) := rfl

theorem transformChunks_flatten (splitter : LineSplitter) (fields : Fields) (chunks : List Text) :
    transformChunks parseCitation splitter fields chunks =
      transformChunks parseCitation splitter fields [chunks.flatten] := by
  induction chunks generalizing splitter fields with
  | nil => rfl
  | cons chunk chunks ih =>
    rw [transformChunks, ih, transformChunks_single, transformChunks_single, List.flatten_cons,
      splitLines_append]
    simp only [handleLines_append, List.append_assoc]

theorem splitLines_line {line : Text} (splitter : LineSplitter) (text : Text)
    (plain : '\n' ∉ line ∧ '\r' ∉ line) (fresh : splitter.skipLF = false) :
    splitLines splitter (line ++ '\n' :: text) =
      ((splitter.carry.getD [] ++ line) :: (splitLines {} text).1, (splitLines {} text).2) := by
  induction line generalizing splitter with
  | nil =>
    rw [List.nil_append, splitLines, if_neg (by simp [fresh]), if_pos (Or.inl rfl),
      List.append_nil]
    rfl
  | cons c line ih =>
    simp only [List.mem_cons, not_or] at plain
    have other : ¬ (c = '\n' ∨ c = '\r') := by
      rintro (rfl | rfl)
      · exact plain.1.1 rfl
      · exact plain.2.1 rfl
    rw [List.cons_append, splitLines, if_neg fun both => other (Or.inl both.1), if_neg other,
      ih _ ⟨plain.1.2, plain.2.2⟩ rfl, Option.getD_some, List.append_assoc]
    rfl

theorem splitLines_rest {line : Text} (splitter : LineSplitter)
    (plain : '\n' ∉ line ∧ '\r' ∉ line) (fresh : splitter.skipLF = false) :
    splitLines splitter line =
      ([], { carry :=
        if line = [] then splitter.carry else some (splitter.carry.getD [] ++ line) }) := by
  induction line generalizing splitter with
  | nil =>
    rw [splitLines, if_pos rfl, ← fresh]
  | cons c line ih =>
    simp only [List.mem_cons, not_or] at plain
    have other : ¬ (c = '\n' ∨ c = '\r') := by
      rintro (rfl | rfl)
      · exact plain.1.1 rfl
      · exact plain.2.1 rfl
    rw [splitLines, if_neg fun both => other (Or.inl both.1), if_neg other,
      ih _ ⟨plain.1.2, plain.2.2⟩ rfl, if_neg (List.cons_ne_nil c line)]
    by_cases last : line = []
    · rw [if_pos last, last]
    · rw [if_neg last, Option.getD_some, List.append_assoc]
      rfl

theorem transform_line {line : Text} (fields : Fields) (text : Text)
    (plain : '\n' ∉ line ∧ '\r' ∉ line) :
    transformChunks parseCitation {} fields [line ++ '\n' :: text] =
      (handleLine parseCitation fields line).1.toList ++
        transformChunks parseCitation {} (handleLine parseCitation fields line).2 [text] := by
  rw [transformChunks_single, transformChunks_single, splitLines_line {} text plain rfl]
  simp only [Option.getD_none, List.nil_append, handleLines, List.append_assoc]

theorem transform_field {line : Text} (fields : Fields) (text : Text)
    (plain : '\n' ∉ line ∧ '\r' ∉ line) (some_ : line ≠ []) :
    transformChunks parseCitation {} fields [line ++ '\n' :: text] =
      transformChunks parseCitation {} (takeField fields line) [text] := by
  rw [transform_line fields text plain, handleLine, if_neg some_]
  rfl

theorem transform_frame (f : Frame) (text : Text) :
    transformChunks parseCitation {} {} [f.text ++ text] =
      (f.event parseCitation).toList ++ transformChunks parseCitation {} {} [text] := by
  have whole : f.text ++ text =
      nameLine f.name ++ '\n' :: (dataLine f.data ++ '\n' :: ('\n' :: text)) := by
    rw [f.text_eq, f.body_eq]
    simp
  have named : takeField {} (nameLine f.name) = { eventType := trim f.name } :=
    takeField_name {} f.name
  have filled :
      takeField { eventType := trim f.name } (dataLine f.data) = ⟨trim f.name, trim f.data⟩ :=
    takeField_data _ f.data
  rw [whole, transform_field _ _ f.nameLine_plain (nameLine_ne_nil f.name),
    transform_field _ _ f.dataLine_plain (dataLine_ne_nil f.data), named, filled]
  exact transform_line _ text ⟨List.not_mem_nil, List.not_mem_nil⟩

theorem transform_rest {text : Text} (fields : Fields) (no_cr : '\r' ∉ text)
    (plain : hasBlankLine ('\n' :: text) = false) :
    transformChunks parseCitation {} fields [text] =
      ((takeFields fields text).event parseCitation).toList := by
  induction size : text.length using Nat.strongRecOn generalizing text fields with
  | _ n ih =>
    by_cases ends : '\n' ∈ text
    · obtain ⟨line, rest, rfl, single⟩ := List.eq_append_cons_of_mem ends
      rw [List.mem_append, List.mem_cons, not_or, not_or] at no_cr
      have some_ : line ≠ [] := by
        rintro rfl
        exact Bool.noConfusion plain
      have later : hasBlankLine ('\n' :: rest) = false := by
        have inner := plain_of_newline plain
        rwa [hasBlankLine_append _ single] at inner
      have shorter : rest.length < n := by
        rw [← size, List.length_append, List.length_cons]
        omega
      rw [transform_field fields rest ⟨single, no_cr.1⟩ some_,
        ih _ shorter _ no_cr.2.2 later rfl, takeFields_append, takeFields_line fields single]
    · rw [transformChunks, splitLines_rest {} ⟨ends, no_cr⟩ rfl, transformChunks,
        takeFields_line fields ends]
      by_cases none : text = []
      · rw [if_pos none, none]
        rfl
      · rw [if_neg none]
        simp [handleLines, handleLine, none]

theorem transform_frames (frames : List Frame) {tail : Text} (inside : Partial tail) :
    transformChunks parseCitation {} {} [frames.flatMap Frame.text ++ tail] =
      frames.filterMap (Frame.event parseCitation) ++
        ((takeFields {} tail).event parseCitation).toList := by
  induction frames with
  | nil => exact transform_rest {} inside.no_cr inside.plain
  | cons f frames ih =>
    rw [List.flatMap_cons, List.append_assoc, transform_frame, ih, ← List.append_assoc]
    congr 1
    cases event : f.event parseCitation with
    | none => rw [List.filterMap_cons_none event]; rfl
    | some e => rw [List.filterMap_cons_some event]; rfl

def framesEvents (parseCitation : Members → Option (Option ChatNotifier.Citation))
    (frames : List Frame) (tail : Text) : List ChatEvent :=
  frames.filterMap (Frame.event parseCitation) ++
    ((takeFields {} tail).event parseCitation).toList

def TerminalLast (events : List ChatEvent) : Prop :=
  ∀ front event back, events = front ++ event :: back → event.isTerminal = true → back = []

theorem untilTerminal_eq {events : List ChatEvent} (last : TerminalLast events) :
    untilTerminal events = events := by
  induction events with
  | nil => rfl
  | cons event events ih =>
    have rest : TerminalLast events := by
      intro front other back whole terminal
      exact last (event :: front) other back (by rw [whole]; rfl) terminal
    rw [untilTerminal]
    split
    · rename_i terminal
      rw [last [] event events rfl terminal]
    · rw [ih rest]

/-- However the network cuts the text of frames, both clients deliver the same events. -/
theorem clients_agree (frames : List Frame) (truncated : Frame) {tail : Text}
    (cut : tail <+: truncated.text ∧ tail ≠ truncated.text)
    (last : TerminalLast (framesEvents parseCitation frames tail)) :
    ∀ webChunks nativeChunks : List Text,
      webChunks.flatten = frames.flatMap Frame.text ++ tail →
      nativeChunks.flatten = frames.flatMap Frame.text ++ tail →
        webEvents parseCitation webChunks = framesEvents parseCitation frames tail ∧
          nativeEvents parseCitation nativeChunks = framesEvents parseCitation frames tail := by
  have inside : Partial tail := by
    refine ⟨truncated, ?_⟩
    have whole : tail <+: (truncated.body ++ ['\n']) ++ ['\n'] := by
      rw [List.append_assoc]
      exact truncated.text_eq ▸ cut.1
    rcases List.prefix_concat_iff.mp whole with same | start
    · exact absurd (by rw [same, truncated.text_eq, List.append_assoc]; rfl) cut.2
    · exact start
  intro webChunks nativeChunks web native
  refine ⟨webEvents_eq inside web, ?_⟩
  rw [nativeEvents, transformChunks_flatten, native, transform_frames frames inside]
  exact untilTerminal_eq last

def doneFrame : Frame where
  name := "done".toList
  data := "\x7b\"message_id\": \"m1\"\x7d".toList
  name_line := by decide
  data_line := by decide

def chunkFrame : Frame where
  name := "chunk".toList
  data := []
  name_line := by decide
  data_line := by decide

/-- Cut within the empty line and within a field, with a frame that does not arrive whole. -/
theorem clients_agree_done :
    webEvents (fun _ => none) [doneFrame.body ++ ['\n'], '\n' :: "event: ch".toList] =
        framesEvents (fun _ => none) [doneFrame] "event: ch".toList ∧
      nativeEvents (fun _ => none) [doneFrame.text ++ "eve".toList, "nt: ch".toList] =
        framesEvents (fun _ => none) [doneFrame] "event: ch".toList := by
  have done : framesEvents (fun _ => none) [doneFrame] "event: ch".toList =
      [{ type := .done, messageID := "m1".toList }] := by decide +kernel
  refine clients_agree [doneFrame] chunkFrame ⟨by decide +kernel, by decide +kernel⟩ ?_ _ _
    (by decide +kernel) (by decide +kernel)
  intro front event back whole _
  rw [done] at whole
  have lengths := congrArg List.length whole
  simp only [List.length_append, List.length_cons, List.length_nil] at lengths
  exact List.length_eq_zero_iff.mp (by omega)

end KnowledgeCompanion.SseClients
