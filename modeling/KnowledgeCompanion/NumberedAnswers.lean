import KnowledgeCompanion.ApiExceptions
import KnowledgeCompanion.JsonText
import KnowledgeCompanion.PythonText

/-! The numbered lines that a model is asked for and what is read from its answer
(`text_cleaning/llm_cleaner.py`): a JSON array of strings, or one text from each line. -/

namespace KnowledgeCompanion.NumberedAnswers

open ApiExceptions JsonText PythonText

def numberedLine (idx : ℕ) (text : Text) : Text := decimal (idx + 1) ++ '.' :: ' ' :: text

def numberedLines (texts : List Text) : Text := ['\n'].intercalate (texts.mapIdx numberedLine)

def buildPrompt (texts : List Text) : Text :=
  "你是一名语音转录校对专家。请清洗以下转录文本，删除语气词、重复词和口吃，".toList ++
    "保持原意与时间戳不变。只输出清洗后的文本，每行一条，编号与输入保持一致。".toList ++
    "不要解释，不要添加额外内容。\n\n".toList ++ numberedLines texts ++ "\n\n输出：".toList

/-- The characters that end a line, of which a carriage return and a line feed count as one. -/
def isLineBreak (c : Char) : Bool :=
  let n := c.toNat
  (10 ≤ n && n ≤ 13) || (28 ≤ n && n ≤ 30) || n == 0x85 || n == 0x2028 || n == 0x2029

def putFirst (c : Char) : List Text → List Text
  | [] => [[c]]
  | line :: lines => (c :: line) :: lines

/-- `str.splitlines`, which has no empty line after the last break. -/
def splitlines : Text → List Text
  | [] => []
  | '\r' :: '\n' :: rest => [] :: splitlines rest
  | c :: rest => if isLineBreak c then [] :: splitlines rest else putFirst c (splitlines rest)

def isDigit (c : Char) : Bool := (decimalValue c).isSome

def isMark (c : Char) : Bool := c == '.' || c == ')' || isSpace c

def stripNumbering (line : Text) : Text :=
  let rest := line.dropWhile isDigit
  if line.takeWhile isDigit = [] ∨ rest.takeWhile isMark = [] then line else rest.dropWhile isMark

def stringItem : Json → Option Text
  | .string s => some s
  | _ => none

def tryParseJsonArray (content : Text) : Option (List Text) :=
  match unmarshal content with
  | some (.array items) => items.mapM stringItem
  | _ => none

def answerLines (content : Text) : List Text :=
  ((splitlines content).map strip).filter (· ≠ [])

def cleanedLines (content : Text) : List Text :=
  ((answerLines content).map fun line => strip (stripNumbering line)).filter (· ≠ [])

def parseResponse (content : Text) (expectedCount : ℕ) : Except Raised (List Text) :=
  match (tryParseJsonArray content).filter (·.length = expectedCount) with
  | some parsed => .ok parsed
  | none =>
    if (cleanedLines content).length = expectedCount then .ok (cleanedLines content)
    else .error .other

example : parseResponse "1. one\r\n\n2) two".toList 2 = .ok ["one".toList, "two".toList] := by
  decide +kernel

theorem parseResponse_length {content : Text} {expectedCount : ℕ} {texts : List Text}
    (parsed : parseResponse content expectedCount = .ok texts) : texts.length = expectedCount := by
  unfold parseResponse at parsed
  split at parsed
  · rename_i found
    rw [← Except.ok.inj parsed]
    exact of_decide_eq_true (Option.filter_eq_some_iff.mp found).2
  · split at parsed
    · rename_i same
      rw [← Except.ok.inj parsed]
      exact same
    · exact nomatch parsed

theorem splitlines_cons {c : Char} (plain : isLineBreak c = false) (rest : Text) :
    splitlines (c :: rest) = putFirst c (splitlines rest) := by
  rw [splitlines, if_neg (Bool.eq_false_iff.mp plain)]
  rintro rest rfl
  exact absurd plain (by decide)

theorem splitlines_line {line : Text} (plain : ∀ c ∈ line, isLineBreak c = false) (rest : Text) :
    splitlines (line ++ '\n' :: rest) = line :: splitlines rest := by
  induction line with
  | nil =>
    rw [List.nil_append, splitlines, if_pos (by decide)]
    intro rest same
    exact absurd same (by decide)
  | cons c line ih =>
    rw [List.cons_append, splitlines_cons (plain c List.mem_cons_self),
      ih fun x mem => plain x (List.mem_cons_of_mem c mem)]
    rfl

theorem splitlines_last {line : Text} (some_ : line ≠ [])
    (plain : ∀ c ∈ line, isLineBreak c = false) : splitlines line = [line] := by
  induction line with
  | nil => exact absurd rfl some_
  | cons c line ih =>
    rw [splitlines_cons (plain c List.mem_cons_self)]
    cases line with
    | nil => rfl
    | cons d line =>
      rw [ih (List.cons_ne_nil d line) fun x mem => plain x (List.mem_cons_of_mem c mem)]
      rfl

theorem splitlines_intercalate {lines : List Text}
    (plain : ∀ line ∈ lines, line ≠ [] ∧ ∀ c ∈ line, isLineBreak c = false) :
    splitlines (['\n'].intercalate lines) = lines := by
  induction lines with
  | nil => rfl
  | cons line lines ih =>
    obtain ⟨some_, solid⟩ := plain line List.mem_cons_self
    cases lines with
    | nil => rw [List.intercalate_singleton, splitlines_last some_ solid]
    | cons next lines =>
      rw [List.intercalate_cons_cons, List.append_assoc, List.singleton_append,
        splitlines_line solid, ih fun l mem => plain l (List.mem_cons_of_mem line mem)]

theorem strip_length_le (text : Text) : (strip text).length ≤ text.length :=
  ((List.rdropWhile_prefix isSpace _).length_le).trans (List.dropWhile_suffix isSpace).length_le

theorem strip_eq_self {text : Text} :
    strip text = text ↔ lstrip text = text ∧ rstrip text = text := by
  constructor
  · intro same
    have front := (List.dropWhile_suffix isSpace (l := text)).length_le
    have back := (List.rdropWhile_prefix isSpace (l := lstrip text)).length_le
    have length := congrArg List.length same
    have whole : lstrip text = text :=
      (List.dropWhile_suffix isSpace).eq_of_length (Nat.le_antisymm front (by
        rw [← length]
        exact back))
    exact ⟨whole, by rw [strip, whole] at same; exact same⟩
  · rintro ⟨front, back⟩
    rw [strip, front, back]

/-- A segment's text that is neither blank nor padded nor broken into lines. -/
structure Plain (text : Text) : Prop where
  visible : isBlank text = false
  trimmed : strip text = text
  unbroken : ∀ c ∈ text, isLineBreak c = false

theorem plain_of_checks {text : Text} (visible : isBlank text = false) (trimmed : strip text = text)
    (unbroken : text.all (fun c => !isLineBreak c) = true) : Plain text where
  visible := visible
  trimmed := trimmed
  unbroken c mem := by
    have solid := List.all_eq_true.mp unbroken c mem
    rw [Bool.not_eq_true'] at solid
    exact solid

theorem decimal_bounds {n : ℕ} {c : Char} (mem : c ∈ decimal n) :
    0x30 ≤ c.toNat ∧ c.toNat ≤ 0x39 := by
  have digit : c.isDigit = true := Nat.isDigit_of_mem_toDigits (by decide) (by decide) mem
  rw [Char.isDigit, Bool.and_eq_true, decide_eq_true_eq, decide_eq_true_eq] at digit
  exact digit

theorem decimal_ne_nil (n : ℕ) : decimal n ≠ [] :=
  List.ne_nil_of_length_pos Nat.length_toDigits_pos

theorem isDigit_decimal {n : ℕ} {c : Char} (mem : c ∈ decimal n) : isDigit c = true := by
  obtain ⟨lower, upper⟩ := decimal_bounds mem
  rw [isDigit, decimalValue, decimalZeros, List.find?_cons_of_pos (by simp [lower, upper])]
  rfl

theorem decimal_visible {n : ℕ} {c : Char} (mem : c ∈ decimal n) :
    isSpace c = false ∧ isLineBreak c = false := by
  obtain ⟨lower, upper⟩ := decimal_bounds mem
  constructor
  · simp [isSpace]
    omega
  · simp [isLineBreak]
    omega

theorem takeWhile_numberedLine (idx : ℕ) (text : Text) :
    (numberedLine idx text).takeWhile isDigit = decimal (idx + 1) := by
  rw [numberedLine, List.takeWhile_append_of_pos fun c mem => isDigit_decimal mem,
    List.takeWhile_cons_of_neg (by decide), List.append_nil]

theorem dropWhile_numberedLine (idx : ℕ) (text : Text) :
    (numberedLine idx text).dropWhile isDigit = '.' :: ' ' :: text := by
  rw [numberedLine, List.dropWhile_append_of_pos fun c mem => isDigit_decimal mem,
    List.dropWhile_cons_of_neg (by decide)]

theorem stripNumbering_numberedLine (idx : ℕ) (text : Text) :
    stripNumbering (numberedLine idx text) = text.dropWhile isMark := by
  dsimp only [stripNumbering]
  rw [takeWhile_numberedLine, dropWhile_numberedLine, if_neg]
  · rw [List.dropWhile_cons_of_pos (by decide), List.dropWhile_cons_of_pos (by decide)]
  · rintro (empty | empty)
    · exact decimal_ne_nil _ empty
    · exact nomatch empty

theorem strip_numberedLine {text : Text} (plain : Plain text) (idx : ℕ) :
    strip (numberedLine idx text) = numberedLine idx text := by
  have some_ := ne_nil_of_not_blank plain.visible
  obtain ⟨-, back⟩ := strip_eq_self.mp plain.trimmed
  refine strip_eq_self.mpr ⟨?_, ?_⟩
  · obtain ⟨c, digits, same⟩ := List.exists_cons_of_ne_nil (decimal_ne_nil (idx + 1))
    have visible : isSpace c = false := (decimal_visible (same ▸ List.mem_cons_self)).1
    rw [numberedLine, same, List.cons_append, lstrip,
      List.dropWhile_cons_of_neg (Bool.eq_false_iff.mp visible)]
  · rw [rstrip, List.rdropWhile_eq_self_iff] at back ⊢
    intro filled
    have last : (numberedLine idx text).getLast filled = text.getLast some_ := by
      simp only [numberedLine, List.getLast_append_of_ne_nil _ (List.cons_ne_nil _ _),
        List.getLast_cons (List.cons_ne_nil _ _), List.getLast_cons some_]
    rw [last]
    exact back some_

theorem numberedLine_solid {text : Text} (plain : Plain text) (idx : ℕ) :
    numberedLine idx text ≠ [] ∧ ∀ c ∈ numberedLine idx text, isLineBreak c = false := by
  refine ⟨List.append_ne_nil_of_left_ne_nil (decimal_ne_nil _) _, ?_⟩
  intro c mem
  rcases List.mem_append.mp mem with digit | rest
  · exact (decimal_visible digit).2
  · simp only [List.mem_cons] at rest
    rcases rest with rfl | rfl | inside
    · decide
    · decide
    · exact plain.unbroken c inside

section Numbered

variable {texts : List Text} (plain : ∀ text ∈ texts, Plain text)

include plain

theorem answerLines_numbered :
    answerLines (numberedLines texts) = texts.mapIdx numberedLine := by
  have solid (line : Text) (mem : line ∈ texts.mapIdx numberedLine) :
      line ≠ [] ∧ (∀ c ∈ line, isLineBreak c = false) ∧ strip line = line := by
    obtain ⟨idx, inside, rfl⟩ := List.mem_mapIdx.mp mem
    have here := plain _ (List.getElem_mem inside)
    exact ⟨(numberedLine_solid here idx).1, (numberedLine_solid here idx).2,
      strip_numberedLine here idx⟩
  have stripped : (texts.mapIdx numberedLine).map strip = texts.mapIdx numberedLine :=
    (List.map_congr_left fun line mem => (solid line mem).2.2).trans (List.map_id _)
  rw [answerLines, numberedLines,
    splitlines_intercalate fun line mem => ⟨(solid line mem).1, (solid line mem).2.1⟩, stripped]
  exact List.filter_eq_self.mpr fun line mem => decide_eq_true (solid line mem).1

theorem cleanedLines_numbered : cleanedLines (numberedLines texts) =
    (texts.map fun text => strip (text.dropWhile isMark)).filter (· ≠ []) := by
  have lines : (texts.mapIdx numberedLine).map (fun line => strip (stripNumbering line)) =
      texts.map fun text => strip (text.dropWhile isMark) := by
    refine List.ext_getElem? fun i => ?_
    rw [List.getElem?_map, List.getElem?_mapIdx, List.getElem?_map, Option.map_map]
    simp only [Function.comp_def, stripNumbering_numberedLine]
  rw [cleanedLines, answerLines_numbered plain, lines]

end Numbered

theorem tryParseJsonArray_one (rest : Text) : tryParseJsonArray ('1' :: rest) = none := by
  have atom : ∀ fuel value back, parseValue fuel ('1' :: rest) = some (value, back) →
      ∃ literal, value = .number literal := by
    intro fuel value back read
    cases fuel with
    | zero => rw [parseValue] at read; exact nomatch read
    | succ fuel =>
      have number : parseNumber ('1' :: rest) = some (value, back) := read
      unfold parseNumber at number
      dsimp only at number
      split at number
      · exact nomatch number
      · split at number
        · exact nomatch number
        · exact ⟨_, (Prod.mk.inj (Option.some.inj number)).1.symm⟩
  unfold tryParseJsonArray unmarshal
  split
  · rename_i items found
    split at found
    · exact nomatch found
    · rename_i value back read
      obtain ⟨literal, rfl⟩ := atom _ value back read
      split at found <;> exact nomatch found
  · rfl

def beginsWithMark (text : Text) : Bool :=
  match text with
  | [] => false
  | c :: _ => c == '.' || c == ')'

theorem strip_marks_iff {text : Text} (plain : Plain text) :
    strip (text.dropWhile isMark) = text ↔ beginsWithMark text = false := by
  obtain ⟨front, -⟩ := strip_eq_self.mp plain.trimmed
  cases text with
  | nil => exact absurd rfl (ne_nil_of_not_blank plain.visible)
  | cons c text =>
    have visible : isSpace c = false := Bool.eq_false_iff.mpr
      (List.dropWhile_eq_self_iff.mp front (Nat.succ_pos text.length))
    have marked : isMark c = beginsWithMark (c :: text) := by
      rw [isMark, visible, Bool.or_false]
      rfl
    rw [← marked]
    constructor
    · intro same
      refine Bool.eq_false_iff.mpr fun mark => ?_
      rw [List.dropWhile_cons_of_pos mark] at same
      have shorter := (strip_length_le _).trans
        (List.dropWhile_suffix isMark (l := text)).length_le
      rw [same] at shorter
      exact absurd shorter (Nat.not_succ_le_self _)
    · intro unmarked
      rw [List.dropWhile_cons_of_neg (Bool.eq_false_iff.mp unmarked), plain.trimmed]

theorem tryParseJsonArray_numbered {texts : List Text} (some_ : texts ≠ []) :
    tryParseJsonArray (numberedLines texts) = none := by
  obtain ⟨text, rest, rfl⟩ := List.exists_cons_of_ne_nil some_
  have front : ∃ back, numberedLines (text :: rest) = '1' :: back := by
    rw [numberedLines, List.mapIdx_cons]
    cases rest.mapIdx fun i => numberedLine (i + 1) with
    | nil => exact ⟨_, List.intercalate_singleton⟩
    | cons next lines => exact ⟨_, List.intercalate_cons_cons⟩
  obtain ⟨back, same⟩ := front
  rw [same]
  exact tryParseJsonArray_one back

theorem parse_lines_iff {response : Text} {texts : List Text}
    (array : tryParseJsonArray response = none) :
    parseResponse response texts.length = .ok texts ↔ cleanedLines response = texts := by
  rw [parseResponse, array, Option.filter_none]
  dsimp only
  split
  · exact ⟨Except.ok.inj, congrArg Except.ok⟩
  · rename_i other
    exact ⟨nofun, fun same => absurd (congrArg List.length same) other⟩

/-- The numbered lines are read back as the texts exactly when no text begins with a mark that
can follow a number. -/
theorem parse_numbered_iff {texts : List Text} (some_ : texts ≠ [])
    (plain : ∀ text ∈ texts, Plain text) :
    parseResponse (numberedLines texts) texts.length = .ok texts ↔
      ∀ text ∈ texts, beginsWithMark text = false := by
  rw [parse_lines_iff (tryParseJsonArray_numbered some_), cleanedLines_numbered plain]
  constructor
  · intro same text mem
    have length := congrArg List.length same
    have kept : (texts.map fun text => strip (text.dropWhile isMark)).filter (· ≠ []) =
        texts.map fun text => strip (text.dropWhile isMark) :=
      List.filter_sublist.eq_of_length (by rw [length, List.length_map])
    rw [kept] at same
    exact (strip_marks_iff (plain text mem)).mp
      (List.map_inj_left.mp (same.trans (List.map_id texts).symm) text mem)
  · intro unmarked
    have same : (texts.map fun text => strip (text.dropWhile isMark)) = texts :=
      (List.map_congr_left fun text mem =>
        (strip_marks_iff (plain text mem)).mpr (unmarked text mem)).trans (List.map_id _)
    rw [same]
    exact List.filter_eq_self.mpr fun text mem =>
      decide_eq_true (ne_nil_of_not_blank (plain text mem).visible)

theorem parse_numbered_two :
    (∀ text ∈ ["2) yes".toList, "no.".toList], Plain text) ∧
      parseResponse (numberedLines ["2) yes".toList, "no.".toList]) 2 =
        .ok ["2) yes".toList, "no.".toList] := by
  have plain : ∀ text ∈ ["2) yes".toList, "no.".toList], Plain text := by
    intro text mem
    simp only [List.mem_cons, List.not_mem_nil, or_false] at mem
    rcases mem with rfl | rfl
    · exact plain_of_checks (by decide) (by decide) (by decide)
    · exact plain_of_checks (by decide) (by decide) (by decide)
  exact ⟨plain, (parse_numbered_iff (List.cons_ne_nil _ _) plain).mpr (by decide)⟩

/-- The dots in front of a text are taken for those of its number. -/
theorem leading_dots_lost : Plain "...hm".toList ∧
    parseResponse (numberedLines ["...hm".toList]) 1 = .ok ["hm".toList] ∧
    parseResponse (numberedLines ["...hm".toList]) 1 ≠ .ok ["...hm".toList] := by
  exact ⟨plain_of_checks (by decide) (by decide) (by decide), by decide +kernel,
    by decide +kernel⟩

end KnowledgeCompanion.NumberedAnswers
