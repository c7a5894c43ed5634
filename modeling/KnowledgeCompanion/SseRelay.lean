import KnowledgeCompanion.SseClients

/-! The gateway passes the events of an AI answer on (`service/ai_client.go`,
`handler/qa_sse_handler.go`): what its own grammar and that of the chat client read of the
text it writes for an event. -/

namespace KnowledgeCompanion.SseRelay

open AiClient DartText GoText SseFrames SseClients

def written (ev : SSEEvent) : Text := ev.raw

def clientReads (bytes : Text) : List Fields :=
  let parsed := parseBuffer bytes
  ((parsed.1 ++ [trim parsed.2]).map (takeFields {})).filter fun fields => fields.dataBuffer ≠ []

/-- The text that is written for the event reads as just that event, to the gateway and to
the client. -/
structure Relayed (ev : SSEEvent) : Prop where
  gateway : ∃ again, parse (written ev) = [again] ∧ again.event = ev.event ∧ again.data = ev.data
  client : clientReads (written ev) = [⟨ev.event, ev.data⟩]

/-- A name or a line of data that has been read. -/
structure Word (text : Text) : Prop where
  trimmed : trimSpace text = text
  line : '\n' ∉ text

theorem reads_ne_nil (body : Text) : reads body ≠ [] := by
  cases body with
  | nil => exact List.cons_ne_nil _ _
  | cons c rest =>
    rw [reads]
    split
    · exact List.cons_ne_nil _ _
    · split <;> exact List.cons_ne_nil _ _

theorem reads_line {line : Text} (body : Text) (plain : '\n' ∉ line) :
    reads (line ++ '\n' :: body) = (line ++ ['\n']) :: reads body := by
  induction line with
  | nil => rfl
  | cons c line ih =>
    rw [List.mem_cons, not_or] at plain
    rw [List.cons_append, reads, if_neg (Ne.symm plain.1), ih plain.2]
    rfl

def EndsLine (line : Text) : Prop := ∃ front, '\n' ∉ front ∧ (line = front ∨ line = front ++ ['\n'])

theorem reads_endsLine (body : Text) : ∀ line ∈ reads body, EndsLine line := by
  induction body with
  | nil =>
    intro line mem
    rw [List.mem_singleton.mp mem]
    exact ⟨[], List.not_mem_nil, .inl rfl⟩
  | cons c rest ih =>
    intro line mem
    rw [reads] at mem
    split at mem
    · rename_i newline
      rcases List.mem_cons.mp mem with rfl | later
      · exact ⟨[], List.not_mem_nil, .inr (by rw [newline]; rfl)⟩
      · exact ih line later
    · rename_i other
      split at mem
      · rw [List.mem_singleton.mp mem]
        exact ⟨[c], by simpa using Ne.symm other, .inl rfl⟩
      · rename_i first lines split
        rcases List.mem_cons.mp mem with rfl | later
        · obtain ⟨front, plain, ends⟩ := ih first (by rw [split]; exact List.mem_cons_self)
          refine ⟨c :: front, by simp [plain, Ne.symm other], ?_⟩
          rcases ends with rfl | rfl
          · exact .inl rfl
          · exact .inr rfl
        · exact ih line (by rw [split]; exact List.mem_cons_of_mem _ later)

theorem parseReads_line {line : Text} (p : Parser) (body : Text) (plain : '\n' ∉ line) :
    parseReads p (reads (line ++ '\n' :: body)) =
      (takeLine p (line ++ ['\n'])).1.toList ++
        parseReads (takeLine p (line ++ ['\n'])).2 (reads body) := by
  have more : (reads body).isEmpty = false := List.isEmpty_eq_false_iff.mpr (reads_ne_nil body)
  rw [reads_line body plain, parseReads, takeRead, more]
  rfl

theorem trimRight_prefix {line front : Text} (ends : line = front ∨ line = front ++ ['\n']) :
    trimRight line ['\r', '\n'] <+: front := by
  rcases ends with rfl | rfl
  · exact List.rdropWhile_prefix _ _
  · have here : ['\r', '\n'].contains '\n' = true := rfl
    rw [GoText.trimRight, List.rdropWhile_concat_pos _ _ _ here]
    exact List.rdropWhile_prefix _ _

/-- What one line does: it ends the event, names it, adds to its data, or is ignored. -/
theorem takeLine_cases (p : Parser) {line front : Text} (plain : '\n' ∉ front)
    (ends : line = front ∨ line = front ++ ['\n']) :
    takeLine p line = (none, p) ∨ takeLine p line = (flushEvent p, {}) ∨
      (∃ name, Word name ∧ takeLine p line = (none, { p with eventType := name })) ∨
      ∃ data, Word data ∧ data.length < front.length ∧
        takeLine p line = (none, { p with dataLines := p.dataLines ++ [data] }) := by
  have start := trimRight_prefix ends
  unfold takeLine
  split
  · exact .inl rfl
  dsimp only
  generalize trimRight line ['\r', '\n'] = text at start
  have word (rest : Text) (cut : rest ⊆ text) : Word (trimSpace rest) :=
    ⟨trimSpace_trimSpace rest, fun mem => plain (start.subset (cut (mem_of_mem_trimSpace mem)))⟩
  split
  · exact .inr (.inl rfl)
  split
  · rename_i rest cut
    unfold cutPrefix at cut
    split at cut
    · refine .inr (.inr (.inl ⟨_, word rest ?_, rfl⟩))
      rw [← Option.some.inj cut]
      exact List.drop_subset _ _
    · exact absurd cut.symm (Option.some_ne_none _)
  split
  · rename_i rest cut
    unfold cutPrefix at cut
    split at cut
    · rename_i begins
      have long := (List.isPrefixOf_iff_prefix.mp begins).length_le
      have within := start.length_le
      have five : "data:".toList.length = 5 := rfl
      refine .inr (.inr (.inr ⟨_, word rest ?_, ?_, rfl⟩))
      · rw [← Option.some.inj cut]
        exact List.drop_subset _ _
      · have shorter : (trimSpace rest).length ≤ rest.length :=
          ((List.rdropWhile_prefix _ _).length_le).trans (List.length_dropWhile_le _ _)
        rw [← Option.some.inj cut, List.length_drop] at shorter
        rw [← Option.some.inj cut]
        omega
    · exact absurd cut.symm (Option.some_ne_none _)
  · exact .inl rfl

theorem takeLine_name {name : Text} (p : Parser) (word : Word name) (some_ : name ≠ []) :
    takeLine p (nameLine name ++ ['\n']) = (none, { p with eventType := name }) := by
  have tail : (nameLine name).getLast? = name.getLast? :=
    List.getLast?_append_of_ne_nil "event: ".toList some_
  have last : ∀ c ∈ (nameLine name).getLast?, c ∉ ['\r', '\n'] := by
    intro c mem break_
    rw [tail] at mem
    have space := getLast_trimmed word.trimmed c mem
    simp only [List.mem_cons, List.not_mem_nil, or_false] at break_
    rcases break_ with rfl | rfl <;> exact absurd space (by decide)
  have cut : trimRight (nameLine name ++ ['\n']) ['\r', '\n'] = nameLine name :=
    trimRight_line (by simp) last
  have same : trimSpace (' ' :: name) = name := (trimSpace_space rfl name).trans word.trimmed
  have found : cutPrefix "event:".toList (nameLine name) = some (' ' :: name) := rfl
  rw [takeLine, if_neg (by simp), cut]
  dsimp only
  rw [if_neg (nameLine_ne_nil name), found]
  dsimp only
  rw [same]

theorem takeLine_data {data : Text} (p : Parser) (word : Word data) :
    takeLine p (dataLine data ++ ['\n']) =
      (none, { p with dataLines := p.dataLines ++ [data] }) := by
  have last : ∀ c ∈ (dataLine data).getLast?, c ∉ ['\r', '\n'] := by
    intro c mem break_
    by_cases none : data = []
    · rw [none] at mem
      rw [← Option.some.inj mem] at break_
      exact absurd break_ (by decide)
    · have tail : (dataLine data).getLast? = data.getLast? :=
        List.getLast?_append_of_ne_nil "data: ".toList none
      rw [tail] at mem
      have space := getLast_trimmed word.trimmed c mem
      simp only [List.mem_cons, List.not_mem_nil, or_false] at break_
      rcases break_ with rfl | rfl <;> exact absurd space (by decide)
  have cut : trimRight (dataLine data ++ ['\n']) ['\r', '\n'] = dataLine data :=
    trimRight_line (by simp) last
  have same : trimSpace (' ' :: data) = data := (trimSpace_space rfl data).trans word.trimmed
  have other : cutPrefix "event:".toList (dataLine data) = none := rfl
  have found : cutPrefix "data:".toList (dataLine data) = some (' ' :: data) := rfl
  rw [takeLine, if_neg (by simp), cut]
  dsimp only
  rw [if_neg (dataLine_ne_nil data), other, found]
  dsimp only
  rw [same]

structure Held (p : Parser) : Prop where
  name : Word p.eventType
  lines : ∀ data ∈ p.dataLines, Word data

/-- An event as `flushEvent` makes it. -/
structure Flushed (ev : SSEEvent) : Prop where
  raw : ev.raw = rawEvent ev.event ev.data
  named : ev.event ≠ []
  name : Word ev.event
  lines : ∃ lines, ev.data = join lines ['\n'] ∧ ∀ line ∈ lines, Word line

theorem word_nil : Word [] := ⟨rfl, List.not_mem_nil⟩

theorem held_start : Held {} := ⟨word_nil, fun _ mem => absurd mem List.not_mem_nil⟩

theorem flushEvent_flushed {p : Parser} (held : Held p) : ∀ ev ∈ flushEvent p, Flushed ev := by
  intro ev sent
  unfold flushEvent at sent
  split at sent
  · exact absurd sent (Option.not_mem_none ev)
  · rw [← Option.some.inj sent]
    refine ⟨rfl, ?_, ?_, p.dataLines, rfl, held.lines⟩
    · dsimp only
      split
      · exact List.cons_ne_nil _ _
      · assumption
    · dsimp only
      split
      · exact ⟨rfl, by decide⟩
      · exact held.name

theorem takeLine_held {p : Parser} {line : Text} (held : Held p) (ends : EndsLine line) :
    (∀ ev ∈ (takeLine p line).1, Flushed ev) ∧ Held (takeLine p line).2 := by
  obtain ⟨front, plain, ends⟩ := ends
  have nothing : ∀ ev ∈ (none : Option SSEEvent), Flushed ev :=
    fun ev none => absurd none (Option.not_mem_none ev)
  rcases takeLine_cases p plain ends with
    same | same | ⟨name, word, same⟩ | ⟨data, word, -, same⟩
  · rw [same]
    exact ⟨nothing, held⟩
  · rw [same]
    exact ⟨flushEvent_flushed held, held_start⟩
  · rw [same]
    exact ⟨nothing, word, held.lines⟩
  · rw [same]
    refine ⟨nothing, held.name, fun line mem => ?_⟩
    rcases List.mem_append.mp mem with old | new
    · exact held.lines line old
    · exact List.mem_singleton.mp new ▸ word

theorem parseReads_flushed {p : Parser} {lines : List Text} (held : Held p)
    (ends : ∀ line ∈ lines, EndsLine line) : ∀ ev ∈ parseReads p lines, Flushed ev := by
  induction lines generalizing p with
  | nil => exact fun ev mem => absurd mem List.not_mem_nil
  | cons line lines ih =>
    obtain ⟨sent, next⟩ := takeLine_held held (ends line List.mem_cons_self)
    have later := fun p' (held' : Held p') =>
      @ih p' held' fun line' mem => ends line' (List.mem_cons_of_mem line mem)
    intro ev mem
    rw [parseReads, takeRead] at mem
    split at mem
    · rcases List.mem_append.mp mem with now | rest
      · rcases List.mem_append.mp now with first | last
        · exact sent ev (Option.mem_toList.mp first)
        · exact flushEvent_flushed next ev (Option.mem_toList.mp last)
      · exact later _ next ev rest
    · rcases List.mem_append.mp mem with now | rest
      · exact sent ev (Option.mem_toList.mp now)
      · exact later _ next ev rest

theorem parse_flushed {body : Text} {ev : SSEEvent} (parsed : ev ∈ parse body) : Flushed ev :=
  parseReads_flushed held_start (reads_endsLine body) ev parsed

def weight (p : Parser) : ℕ := (p.dataLines.map fun line => line.length + 1).foldr (· + ·) 0

def visible (text : Text) : ℕ := text.countP fun c => c ≠ '\n'

theorem visible_append (a b : Text) : visible (a ++ b) = visible a + visible b :=
  List.countP_append

theorem visible_le (text : Text) : visible text ≤ text.length := List.countP_le_length

theorem visible_front {line front : Text} (plain : '\n' ∉ front)
    (ends : line = front ∨ line = front ++ ['\n']) : visible line = front.length := by
  have all : visible front = front.length := by
    refine List.countP_eq_length.mpr fun c mem => decide_eq_true ?_
    rintro rfl
    exact plain mem
  rcases ends with rfl | rfl
  · exact all
  · rw [visible_append, all]
    rfl

theorem weight_add (p : Parser) (data : Text) :
    weight { p with dataLines := p.dataLines ++ [data] } = weight p + (data.length + 1) := by
  rw [weight, weight]
  dsimp only
  induction p.dataLines with
  | nil => simp
  | cons line lines ih =>
    rw [List.cons_append, List.map_cons, List.foldr_cons, ih, List.map_cons, List.foldr_cons]
    omega

theorem length_join (lines : List Text) :
    (join lines ['\n']).length <
      max 1 ((lines.map fun line => line.length + 1).foldr (· + ·) 0) := by
  induction lines with
  | nil => exact Nat.zero_lt_one
  | cons line lines ih =>
    cases lines with
    | nil => simp [join]
    | cons next lines =>
      rw [List.map_cons, List.foldr_cons]
      unfold join at ih ⊢
      rw [List.intercalate_cons_cons, List.length_append, List.length_append, List.length_singleton]
      rw [List.map_cons, List.foldr_cons] at ih ⊢
      omega

theorem flushEvent_shorter {p : Parser} :
    ∀ ev ∈ flushEvent p, ev.data.length < max 1 (weight p) := by
  intro ev sent
  unfold flushEvent at sent
  split at sent
  · exact absurd sent (Option.not_mem_none ev)
  · rw [← Option.some.inj sent]
    exact length_join p.dataLines

theorem takeLine_weight (p : Parser) {line : Text} (ends : EndsLine line) :
    (∀ ev ∈ (takeLine p line).1, ev.data.length < max 1 (weight p)) ∧
      weight (takeLine p line).2 ≤ weight p + visible line := by
  obtain ⟨front, plain, ends⟩ := ends
  have shown := visible_front plain ends
  have nothing : ∀ ev ∈ (none : Option SSEEvent), ev.data.length < max 1 (weight p) :=
    fun ev none => absurd none (Option.not_mem_none ev)
  rcases takeLine_cases p plain ends with
    same | same | ⟨name, -, same⟩ | ⟨data, -, shorter, same⟩
  · rw [same]
    exact ⟨nothing, Nat.le_add_right _ _⟩
  · rw [same]
    exact ⟨flushEvent_shorter, Nat.zero_le _⟩
  · rw [same]
    exact ⟨nothing, Nat.le_add_right _ _⟩
  · rw [same, weight_add]
    exact ⟨nothing, by omega⟩

theorem parseReads_shorter {p : Parser} {lines : List Text}
    (ends : ∀ line ∈ lines, EndsLine line) :
    ∀ ev ∈ parseReads p lines, ev.data.length < max 1 (weight p + visible lines.flatten) := by
  induction lines generalizing p with
  | nil => exact fun ev mem => absurd mem List.not_mem_nil
  | cons line lines ih =>
    obtain ⟨sent, next⟩ := takeLine_weight p (ends line List.mem_cons_self)
    intro ev mem
    have later := @ih (takeLine p line).2
      (fun line' mem => ends line' (List.mem_cons_of_mem line mem)) ev
    have first := sent ev
    have last := @flushEvent_shorter (takeLine p line).2 ev
    rw [List.flatten_cons, visible_append]
    rw [parseReads, takeRead] at mem
    split at mem
    · rcases List.mem_append.mp mem with now | rest
      · rcases List.mem_append.mp now with here | end_
        · have := first (Option.mem_toList.mp here)
          omega
        · have := last (Option.mem_toList.mp end_)
          omega
      · have := later rest
        omega
    · rcases List.mem_append.mp mem with now | rest
      · have := first (Option.mem_toList.mp now)
        omega
      · have := later rest
        omega

theorem Flushed.word_data {ev : SSEEvent} (flushed : Flushed ev) (single : '\n' ∉ ev.data) :
    Word ev.data := by
  obtain ⟨lines, data, words⟩ := flushed.lines
  cases lines with
  | nil =>
    rw [data]
    exact word_nil
  | cons line lines =>
    cases lines with
    | nil =>
      rw [data, join, List.intercalate_singleton]
      exact words line List.mem_cons_self
    | cons next lines =>
      rw [data, join, List.intercalate_cons_cons] at single
      exact absurd (by simp) single

theorem parse_written {ev : SSEEvent} (flushed : Flushed ev) {line rest : Text} (word : Word line)
    (split : ev.data ++ ['\n', '\n'] = line ++ '\n' :: rest) :
    parse (written ev) =
      parseReads { eventType := ev.event, dataLines := [line] } (reads rest) := by
  have text : written ev = nameLine ev.event ++ '\n' :: (dataLine line ++ '\n' :: rest) := by
    have data : dataLine ev.data ++ ['\n', '\n'] = dataLine line ++ '\n' :: rest := by
      rw [dataLine_append, split, dataLine_append]
    rw [written, flushed.raw, rawEvent_eq, eventBody, List.append_assoc, List.cons_append, data]
  rw [text, parse, parseReads_line _ _ (not_mem_nameLine flushed.name.line (by decide)),
    takeLine_name _ flushed.name flushed.named,
    parseReads_line _ _ (not_mem_dataLine word.line (by decide)), takeLine_data _ word]
  rfl

theorem gateway_iff {ev : SSEEvent} (flushed : Flushed ev) :
    (∃ again, parse (written ev) = [again] ∧ again.event = ev.event ∧ again.data = ev.data) ↔
      '\n' ∉ ev.data := by
  constructor
  · rintro ⟨again, read, -, same⟩ newline
    obtain ⟨lines, data, words⟩ := flushed.lines
    cases lines with
    | nil =>
      rw [data] at newline
      exact absurd newline List.not_mem_nil
    | cons line lines =>
      cases lines with
      | nil =>
        rw [data, join, List.intercalate_singleton] at newline
        exact (words line List.mem_cons_self).line newline
      | cons next lines =>
        have whole : ev.data = line ++ '\n' :: join (next :: lines) ['\n'] := by
          rw [data, join, List.intercalate_cons_cons]
          simp [join]
        have split : ev.data ++ ['\n', '\n'] =
            line ++ '\n' :: (join (next :: lines) ['\n'] ++ ['\n', '\n']) := by
          rw [whole]
          simp
        rw [parse_written flushed (words line List.mem_cons_self) split] at read
        have shorter := parseReads_shorter (reads_endsLine _) again
          (by rw [read]; exact List.mem_singleton_self again)
        have rest := visible_le (join (next :: lines) ['\n'])
        have ends : visible ['\n', '\n'] = 0 := rfl
        have first : weight { eventType := ev.event, dataLines := [line] } = line.length + 1 := rfl
        rw [reads_flatten, visible_append, same, whole, first, ends, List.length_append,
          List.length_cons] at shorter
        omega
  · intro single
    have word := flushed.word_data single
    have split : ev.data ++ ['\n', '\n'] = ev.data ++ '\n' :: ['\n'] := rfl
    rw [parse_written flushed word split]
    have flush : parseReads { eventType := ev.event, dataLines := [ev.data] } (reads ['\n']) =
        (flushEvent { eventType := ev.event, dataLines := [ev.data] }).toList ++ [] := rfl
    have data : join [ev.data] ['\n'] = ev.data := List.intercalate_singleton
    rw [flush, List.append_nil, flushEvent, if_neg fun none => flushed.named none.1,
      if_neg flushed.named, data]
    exact ⟨_, rfl, rfl, rfl⟩

theorem clientReads_written {ev : SSEEvent} (flushed : Flushed ev) (single : '\n' ∉ ev.data) :
    clientReads (written ev) =
      if trim ev.data = [] then [] else [⟨trim ev.event, trim ev.data⟩] := by
  have plain : hasBlankLine (eventBody ev.event ev.data ++ ['\n']) = false :=
    plain_of_newline (body_plain flushed.name.line single)
  have filled : [] ++ eventBody ev.event ev.data ≠ [] := by simp [eventBody]
  have scanned : parseBuffer (written ev) = ([eventBody ev.event ev.data], ['\n']) := by
    have last : (eventBody ev.event ev.data ++ ['\n', '\n']).getLast? = some '\n' := by simp
    rw [written, flushed.raw, rawEvent_eq, parseBuffer, last,
      scanBuffer_event [] [] plain filled]
    rfl
  have fields := takeFields_body flushed.name.line single
  have nothing : (takeFields {} (trim ['\n'])).dataBuffer = [] := by decide
  rw [clientReads, scanned]
  rw [List.map_append, List.map_singleton, List.map_singleton, List.singleton_append, fields,
    List.filter_cons, List.filter_cons, nothing]
  by_cases empty : trim ev.data = []
  · simp [empty]
  · simp [empty]

/-- The events of an AI answer that are passed on as they are: their data is one line and not
empty, and neither it nor the name begins or ends with a character that only the client trims. -/
theorem relayed_iff {body : Text} {ev : SSEEvent} (parsed : ev ∈ parse body) :
    Relayed ev ↔
      '\n' ∉ ev.data ∧ ev.data ≠ [] ∧ trim ev.data = ev.data ∧ trim ev.event = ev.event := by
  have flushed := parse_flushed parsed
  constructor
  · intro relayed
    have single := (gateway_iff flushed).mp relayed.gateway
    have client := relayed.client
    rw [clientReads_written flushed single] at client
    split at client
    · exact absurd client.symm (List.cons_ne_nil _ _)
    · rename_i some_
      obtain ⟨name, data⟩ := Fields.mk.inj (List.cons.inj client).1
      rw [data] at some_
      exact ⟨single, some_, data, name⟩
  · rintro ⟨single, some_, data, name⟩
    refine ⟨(gateway_iff flushed).mpr single, ?_⟩
    rw [clientReads_written flushed single, data, name, if_neg some_]

theorem relayed_chunk : Relayed (sseEvent "chunk" "a") :=
  (@relayed_iff "event: chunk\ndata: a\n\n".toList _ (by decide +kernel)).mpr (by decide +kernel)

/-- Two data lines are written as one field, and the second line is lost. -/
theorem second_line_lost :
    let ev : SSEEvent := sseEvent "message" "a\nb"
    parse "data: a\ndata: b\n\n".toList = [ev] ∧
      parse (written ev) = [sseEvent "message" "a"] ∧
      clientReads (written ev) = [⟨"message".toList, "a".toList⟩] ∧ ¬ Relayed ev := by
  have again : parse (written (sseEvent "message" "a\nb")) = [sseEvent "message" "a"] := by
    decide +kernel
  refine ⟨by decide +kernel, again, by decide +kernel, fun relayed => ?_⟩
  obtain ⟨other, read, -, data⟩ := relayed.gateway
  rw [again] at read
  rw [← (List.cons.inj read).1] at data
  exact absurd data (by decide +kernel)

end KnowledgeCompanion.SseRelay
