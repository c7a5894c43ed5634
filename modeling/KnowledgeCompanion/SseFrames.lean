import KnowledgeCompanion.ChatSseClient
import KnowledgeCompanion.DartText

/-! Server-sent events as the chat clients read them (`chat_event_parser.dart`): the fields
of an event's lines, and the frames that the gateway writes. -/

namespace KnowledgeCompanion.SseFrames

open AiClient ChatNotifier ChatSseClient DartText GoText JsonText

/-- `eventType` and `dataBuffer`. -/
structure Fields where
  eventType : Text := "message".toList
  dataBuffer : Text := []
deriving DecidableEq

def takeField (fields : Fields) (line : Text) : Fields :=
  match cutPrefix "event:".toList line with
  | some rest => { fields with eventType := trim rest }
  | none =>
    match cutPrefix "data:".toList line with
    | some rest =>
      let begun := if fields.dataBuffer = [] then [] else fields.dataBuffer ++ ['\n']
      { fields with dataBuffer := begun ++ trim rest }
    | none => fields

def takeFields (fields : Fields) (event : Text) : Fields :=
  (event.splitOn '\n').foldl takeField fields

def parseEvent (parseCitation : Members → Option (Option ChatNotifier.Citation)) (event : Text) :
    Option ChatEvent :=
  let fields := takeFields {} event
  if fields.dataBuffer = [] then none
  else
    match unmarshal fields.dataBuffer with
    | some (.object json) => buildEvent parseCitation json fields.eventType
    | _ => none

def Fields.event (parseCitation : Members → Option (Option ChatNotifier.Citation))
    (fields : Fields) : Option ChatEvent :=
  parseEventData parseCitation fields.eventType fields.dataBuffer

theorem parseEvent_eq (parseCitation : Members → Option (Option ChatNotifier.Citation))
    (event : Text) : parseEvent parseCitation event = (takeFields {} event).event parseCitation :=
  rfl

theorem takeFields_append (fields : Fields) (a b : Text) :
    takeFields fields (a ++ '\n' :: b) = takeFields (takeFields fields a) b := by
  rw [takeFields, List.splitOn_append_cons_self, List.foldl_append]
  rfl

theorem takeFields_line {line : Text} (fields : Fields) (plain : '\n' ∉ line) :
    takeFields fields line = takeField fields line := by
  rw [takeFields, List.splitOn_eq_singleton plain]
  rfl

theorem takeFields_newline (fields : Fields) (text : Text) :
    takeFields fields ('\n' :: text) = takeFields fields text :=
  takeFields_append fields [] text

theorem cutPrefix_concat {start line : Text} {c : Char} (other : start.getLast? ≠ some c) :
    cutPrefix start (line ++ [c]) = (cutPrefix start line).map fun rest => rest ++ [c] := by
  have whole : start.isPrefixOf (line ++ [c]) = start.isPrefixOf line := by
    rw [Bool.eq_iff_iff, List.isPrefixOf_iff_prefix, List.isPrefixOf_iff_prefix,
      List.prefix_concat_iff]
    refine or_iff_right fun same => other ?_
    rw [same, List.getLast?_concat]
  rw [cutPrefix, cutPrefix, whole]
  split
  · rename_i here
    have within := (List.isPrefixOf_iff_prefix.mp here).length_le
    rw [List.drop_append_of_le_length within, Option.map_some]
  · rfl

theorem takeField_concat (fields : Fields) {line : Text} {c : Char}
    (space : isWhitespace c = true) :
    takeField fields (line ++ [c]) = takeField fields line := by
  have blank : Blank [c] := fun d mem => (List.mem_singleton.mp mem).symm ▸ space
  have ink : isWhitespace ':' ≠ true := by decide
  have colon : some ':' ≠ some c := by
    intro same
    rw [← Option.some.inj same] at space
    exact ink space
  have event := @cutPrefix_concat "event:".toList line c colon
  have data := @cutPrefix_concat "data:".toList line c colon
  rw [takeField, takeField, event, data]
  cases cutPrefix "event:".toList line with
  | some rest => simp only [Option.map_some, trim_append_blank blank]
  | none =>
    cases cutPrefix "data:".toList line with
    | some rest => simp only [Option.map_some, Option.map_none, trim_append_blank blank]
    | none => rfl

theorem exists_lastLine (fields : Fields) (text : Text) :
    ∃ before line, ∀ more, '\n' ∉ more →
      takeFields fields (text ++ more) = takeField before (line ++ more) := by
  by_cases ends : '\n' ∈ text
  · obtain ⟨back, front, whole, plain⟩ :=
      List.eq_append_cons_of_mem (List.mem_reverse.mpr ends)
    have same : text = front.reverse ++ '\n' :: back.reverse := by
      rw [← List.reverse_reverse text, whole]
      simp
    refine ⟨takeFields fields front.reverse, back.reverse, fun more single => ?_⟩
    have line : '\n' ∉ back.reverse ++ more := by simp [plain, single]
    rw [same, List.append_assoc, List.cons_append, takeFields_append, takeFields_line _ line]
  · refine ⟨fields, text, fun more single => takeFields_line fields ?_⟩
    simp [ends, single]

theorem takeFields_concat (fields : Fields) (text : Text) {c : Char}
    (space : isWhitespace c = true) : takeFields fields (text ++ [c]) = takeFields fields text := by
  by_cases newline : c = '\n'
  · rw [newline, takeFields_append]
    rfl
  · obtain ⟨before, line, last⟩ := exists_lastLine fields text
    have whole := last [] List.not_mem_nil
    rw [List.append_nil, List.append_nil] at whole
    rw [whole, last [c] (by simpa using Ne.symm newline), takeField_concat before space]

theorem takeFields_blank (fields : Fields) (text : Text) {blank : Text} (space : Blank blank) :
    takeFields fields (text ++ blank) = takeFields fields text := by
  induction blank generalizing text with
  | nil => rw [List.append_nil]
  | cons c blank ih =>
    rw [List.append_cons, ih _ fun d mem => space d (List.mem_cons_of_mem c mem),
      takeFields_concat fields text (space c List.mem_cons_self)]

theorem takeFields_trimRight (fields : Fields) (text : Text) :
    takeFields fields (trimRight text) = takeFields fields text := by
  obtain ⟨blank, space, whole⟩ := trimRight_append text
  conv_rhs => rw [whole]
  rw [takeFields_blank fields _ space]

def nameLine (name : Text) : Text := "event: ".toList ++ name

def dataLine (data : Text) : Text := "data: ".toList ++ data

def eventBody (name data : Text) : Text := nameLine name ++ '\n' :: dataLine data

theorem joined (a b c d : Text) : a ++ c ++ ('\n' :: b) ++ d ++ ['\n', '\n'] =
    (a ++ c) ++ '\n' :: (b ++ d) ++ ['\n', '\n'] := by simp

theorem rawEvent_eq (name data : Text) :
    rawEvent name data = eventBody name data ++ ['\n', '\n'] := by
  have between : "\ndata: ".toList = '\n' :: "data: ".toList := by decide
  have last : "\n\n".toList = ['\n', '\n'] := by decide
  unfold rawEvent
  rw [between, last]
  exact joined "event: ".toList "data: ".toList name data

theorem not_mem_nameLine {name : Text} {c : Char} (plain : c ∉ name)
    (other : c ∉ "event: ".toList) :
    c ∉ nameLine name := List.not_mem_append other plain

theorem not_mem_dataLine {data : Text} {c : Char} (plain : c ∉ data) (other : c ∉ "data: ".toList) :
    c ∉ dataLine data := List.not_mem_append other plain

theorem dataLine_append (data more : Text) :
    dataLine data ++ more = "data: ".toList ++ (data ++ more) :=
  List.append_assoc "data: ".toList data more

theorem nameLine_ne_nil (name : Text) : nameLine name ≠ [] :=
  List.append_ne_nil_of_left_ne_nil (by decide) name

theorem dataLine_ne_nil (data : Text) : dataLine data ≠ [] :=
  List.append_ne_nil_of_left_ne_nil (by decide) data

theorem trim_space (text : Text) : trim (' ' :: text) = trim text :=
  @trim_blank_append [' '] text fun c mem => by
    rw [List.mem_singleton.mp mem]
    rfl

theorem takeField_name (fields : Fields) (name : Text) :
    takeField fields (nameLine name) = { fields with eventType := trim name } := by
  rw [← trim_space name]
  rfl

theorem takeField_data (eventType data : Text) :
    takeField { eventType } (dataLine data) = ⟨eventType, trim data⟩ := by
  rw [← trim_space data]
  rfl

theorem takeFields_body {name data : Text} (named : '\n' ∉ name) (filled : '\n' ∉ data) :
    takeFields {} (eventBody name data) = ⟨trim name, trim data⟩ := by
  have first : takeField {} (nameLine name) = { eventType := trim name } := takeField_name {} name
  rw [eventBody, takeFields_append, takeFields_line _ (not_mem_nameLine named (by decide)), first,
    takeFields_line _ (not_mem_dataLine filled (by decide)), takeField_data]

structure Frame where
  name : Text
  data : Text
  name_line : '\n' ∉ name ∧ '\r' ∉ name
  data_line : '\n' ∉ data ∧ '\r' ∉ data

namespace Frame

def body (f : Frame) : Text := eventBody f.name f.data

def text (f : Frame) : Text := rawEvent f.name f.data

def event (parseCitation : Members → Option (Option ChatNotifier.Citation)) (f : Frame) :
    Option ChatEvent :=
  parseEventData parseCitation (trim f.name) (trim f.data)

theorem text_eq (f : Frame) : f.text = f.body ++ ['\n', '\n'] := rawEvent_eq f.name f.data

theorem body_eq (f : Frame) : f.body = nameLine f.name ++ '\n' :: dataLine f.data := rfl

theorem nameLine_plain (f : Frame) : '\n' ∉ nameLine f.name ∧ '\r' ∉ nameLine f.name :=
  ⟨not_mem_nameLine f.name_line.1 (by decide), not_mem_nameLine f.name_line.2 (by decide)⟩

theorem dataLine_plain (f : Frame) : '\n' ∉ dataLine f.data ∧ '\r' ∉ dataLine f.data :=
  ⟨not_mem_dataLine f.data_line.1 (by decide), not_mem_dataLine f.data_line.2 (by decide)⟩

end Frame

theorem hasBlankLine_prefix {front text : Text} (start : front <+: text)
    (plain : hasBlankLine text = false) : hasBlankLine front = false := by
  obtain ⟨back, rfl⟩ := start
  induction front with
  | nil => rfl
  | cons c front ih =>
    by_cases here : c = '\n' → (front ++ back).head? ≠ some '\n'
    · rw [List.cons_append, hasBlankLine_cons here] at plain
      have still : c = '\n' → front.head? ≠ some '\n' := by
        intro same
        cases front with
        | nil => exact fun none => Option.some_ne_none _ none.symm
        | cons d front => exact here same
      rw [hasBlankLine_cons still, ih plain]
    · rw [Classical.not_imp, ne_eq, not_not] at here
      obtain ⟨rfl, first⟩ := here
      obtain ⟨rest, whole⟩ : ∃ rest, front ++ back = '\n' :: rest :=
        ⟨_, (List.cons_head?_tail first).symm⟩
      rw [List.cons_append, whole] at plain
      exact Bool.noConfusion plain

def Partial (text : Text) : Prop := ∃ f : Frame, text <+: f.body ++ ['\n']

theorem body_plain {name data : Text} (named : '\n' ∉ name) (filled : '\n' ∉ data) :
    hasBlankLine ('\n' :: (eventBody name data ++ ['\n'])) = false := by
  have first : hasBlankLine ('\n' :: (eventBody name data ++ ['\n'])) =
      hasBlankLine (eventBody name data ++ ['\n']) := rfl
  have second : hasBlankLine ('\n' :: (dataLine data ++ ['\n'])) =
      hasBlankLine (dataLine data ++ ['\n']) := rfl
  rw [first, eventBody, List.append_assoc,
    hasBlankLine_append _ (not_mem_nameLine named (by decide)), List.cons_append, second,
    hasBlankLine_append _ (not_mem_dataLine filled (by decide))]
  rfl

theorem Frame.body_plain (f : Frame) : hasBlankLine ('\n' :: (f.body ++ ['\n'])) = false :=
  SseFrames.body_plain f.name_line.1 f.data_line.1

theorem Partial.plain {text : Text} (inside : Partial text) :
    hasBlankLine ('\n' :: text) = false := by
  obtain ⟨f, start⟩ := inside
  exact hasBlankLine_prefix (List.prefix_cons_inj _ |>.mpr start) f.body_plain

theorem Partial.head {text : Text} (inside : Partial text) : ∀ c ∈ text.head?, c = 'e' := by
  obtain ⟨f, back, whole⟩ := inside
  intro c first
  cases text with
  | nil => exact absurd first (Option.not_mem_none c)
  | cons d text =>
    rw [← Option.some.inj first]
    exact (List.cons.inj whole).1

theorem Partial.no_cr {text : Text} (inside : Partial text) : '\r' ∉ text := by
  obtain ⟨f, start⟩ := inside
  have whole : '\r' ∉ f.body ++ ['\n'] := by
    simp [f.body_eq, f.nameLine_plain.2, f.dataLine_plain.2]
  exact fun mem => whole (start.subset mem)

end KnowledgeCompanion.SseFrames
