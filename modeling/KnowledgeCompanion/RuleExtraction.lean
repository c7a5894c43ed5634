import Mathlib.Data.List.Infix
import KnowledgeCompanion.PythonText
import KnowledgeCompanion.Ranking

/-! Tags and entities found by fixed patterns (`services/extraction/rule_extraction_provider.py`),
when no language model answers. -/

namespace KnowledgeCompanion.RuleExtraction

open PythonText Ranking SpanScan

inductive ExtractionSource
  | llm
  | rule
deriving DecidableEq

def ExtractionSource.text : ExtractionSource → Text
  | .llm => "llm".toList
  | .rule => "rule".toList

inductive EntityType
  | person
  | org
  | date
  | loc
  | gpe
  | misc
deriving DecidableEq

def EntityType.text : EntityType → Text
  | .person => "PERSON".toList
  | .org => "ORG".toList
  | .date => "DATE".toList
  | .loc => "LOC".toList
  | .gpe => "GPE".toList
  | .misc => "MISC".toList

structure Entity where
  entity : Text
  type : EntityType
  mention : Text
  source : ExtractionSource := .llm
deriving DecidableEq

structure ExtractionResult where
  tags : List Text
  entities : List Entity
  source : ExtractionSource

def isDigit (c : Char) : Bool := (decimalValue c).isSome

def isHan (c : Char) : Bool := 0x4E00 ≤ c.toNat && c.toNat ≤ 0x9FA5

def isAsciiAlphanumeric (c : Char) : Bool := c.isAlpha || c.isDigit

/-- From `low` to `high` digits; what follows them in the patterns is no digit, so that giving
some of them back never helps. -/
def digits (low high : ℕ) (text : Text) : Option Text :=
  let n := min high (text.takeWhile isDigit).length
  if n < low then none else some (text.drop n)

def expect (c : Char) : Text → Option Text
  | [] => none
  | d :: text => if d = c then some text else none

def chineseDate (text : Text) : Option Text := do
  let text ← expect '年' (← digits 4 4 text)
  let text ← expect '月' (← digits 1 2 text)
  return (digits 1 2 text >>= expect '日').getD text

def isoDate (text : Text) : Option Text := do
  let text ← expect '-' (← digits 4 4 text)
  let text ← expect '-' (← digits 1 2 text)
  digits 1 2 text

def dateAt (text : Text) : Option ℕ :=
  (chineseDate text <|> isoDate text).map fun rest => text.length - rest.length

def startAt (words : List Text) (text : Text) : Option ℕ :=
  (words.find? fun word => word.isPrefixOf text).map List.length

def orgSuffixes : List Text := ["公司", "大学", "学院", "研究院", "集团"].map String.toList

def suffixedOrg (text : Text) : Option ℕ :=
  let run := (text.takeWhile fun c => isHan c || isAsciiAlphanumeric c).length
  (List.range' 1 run).reverse.findSome? fun k => (startAt orgSuffixes (text.drop k)).map (k + ·)

def orgAt (text : Text) : Option ℕ :=
  suffixedOrg text <|> startAt (["OpenAI", "Google", "Microsoft"].map String.toList) text

def gpeAt : Text → Option ℕ :=
  startAt (["北京", "上海", "深圳", "广州", "杭州", "中国", "美国", "日本", "欧洲"].map String.toList)

def wordAt (text : Text) : Option ℕ :=
  let han := min 6 (text.takeWhile isHan).length
  if 2 ≤ han then some han
  else
    match text with
    | [] => none
    | c :: rest =>
      let tail := (rest.takeWhile fun d => isAsciiAlphanumeric d || d == '_' || d == '-').length
      if c.isAlpha ∧ 2 ≤ tail then some (tail + 1) else none

def knownKeywords : List Text :=
  ["人工智能", "机器学习", "深度学习", "神经网络", "自然语言处理", "模型训练", "数据集", "参数调优",
    "过拟合"].map String.toList

def stopwords : List Text :=
  ["这个", "一个", "我们", "他们", "进行", "以及", "因此", "the", "and", "for", "with"].map
    String.toList

/-- `finditer`, each match without the space around it. -/
def mentions (matchAt : Text → Option ℕ) (content : Text) : List Text :=
  (findIter matchAt content).map fun s => strip (slice content s.start s.stop)

def entitiesOf (type : EntityType) (matchAt : Text → Option ℕ) (content : Text) : List Entity :=
  ((mentions matchAt content).filter fun mention => mention ≠ []).map fun mention =>
    ⟨mention, type, mention, .rule⟩

def fill (result : List Text) : List Text → List Text
  | [] => result
  | word :: words =>
    let result := if word ∈ result then result else result ++ [word]
    if 10 ≤ result.length then result else fill result words

/-- `Counter(words).most_common(10)`: words of one count in the order they were met. -/
def mostCommon (words : List Text) : List Text :=
  (ranked (fun word => words.count word) (firstOfEach id [] words)).take 10

def extractKeywords (lower : Text → Text) (content : Text) : List Text :=
  let known := knownKeywords.filter fun keyword => decide (keyword <:+: content)
  let filtered := (mentions wordAt content).filter fun word =>
    lower word ∉ stopwords ∧ 2 ≤ word.length
  fill (firstOfEach id [] known) (mostCommon filtered)

def ruleExtract (lower : Text → Text) (content : Text) : ExtractionResult where
  tags := extractKeywords lower content
  entities := entitiesOf .date dateAt content ++ entitiesOf .org orgAt content ++
    entitiesOf .gpe gpeAt content
  source := .rule

theorem infix_strip (text : Text) : strip text <:+: text :=
  (List.rdropWhile_prefix _ _).isInfix.trans (List.dropWhile_suffix _).isInfix

theorem infix_slice (text : Text) (start stop : ℕ) : slice text start stop <:+: text :=
  (List.drop_suffix _ _).isInfix.trans (List.take_prefix _ _).isInfix

theorem infix_mentions {matchAt : Text → Option ℕ} {content mention : Text}
    (mem : mention ∈ mentions matchAt content) : mention <:+: content := by
  obtain ⟨s, -, rfl⟩ := List.mem_map.mp mem
  exact (infix_strip _).trans (infix_slice content s.start s.stop)

theorem entitiesOf_literal {type : EntityType} {matchAt : Text → Option ℕ} {content : Text}
    {e : Entity} (mem : e ∈ entitiesOf type matchAt content) :
    e.entity = e.mention ∧ e.mention ≠ [] ∧ e.mention <:+: content := by
  obtain ⟨mention, found, rfl⟩ := List.mem_map.mp mem
  obtain ⟨there, filled⟩ := List.mem_filter.mp found
  exact ⟨rfl, of_decide_eq_true filled, infix_mentions there⟩

theorem fill_spec {result words : List Text} (distinct : result.Nodup) (room : result.length < 10) :
    (fill result words).Nodup ∧ (fill result words).length ≤ 10 ∧
      ∀ word ∈ fill result words, word ∈ result ∨ word ∈ words := by
  induction words generalizing result with
  | nil => exact ⟨distinct, room.le, fun _ mem => .inl mem⟩
  | cons word words ih =>
    generalize added : (if word ∈ result then result else result ++ [word]) = next
    have grown : next.Nodup ∧ next.length ≤ 10 ∧ ∀ w ∈ next, w ∈ result ∨ w = word := by
      rw [← added]
      split
      · exact ⟨distinct, room.le, fun _ mem => .inl mem⟩
      · rename_i fresh
        have longer : (result ++ [word]).Nodup := List.concat_eq_append ▸ distinct.concat fresh
        refine ⟨longer, by rw [List.length_append]; exact room, fun w mem => ?_⟩
        exact (List.mem_append.mp mem).imp_right List.mem_singleton.mp
    unfold fill
    rw [added]
    dsimp only
    split
    · refine ⟨grown.1, grown.2.1, fun w mem => (grown.2.2 w mem).imp_right ?_⟩
      rintro rfl
      exact List.mem_cons_self
    · rename_i open'
      obtain ⟨nodup, length, among⟩ := ih grown.1 (not_le.mp open')
      refine ⟨nodup, length, fun w mem => ?_⟩
      rcases among w mem with here | later
      · refine (grown.2.2 w here).imp_right ?_
        rintro rfl
        exact List.mem_cons_self
      · exact .inr (List.mem_cons_of_mem word later)

theorem extractKeywords_spec (lower : Text → Text) (content : Text) :
    (extractKeywords lower content).Nodup ∧ (extractKeywords lower content).length ≤ 10 ∧
      ∀ word ∈ extractKeywords lower content, word <:+: content := by
  have few : (firstOfEach id [] (knownKeywords.filter fun keyword =>
      decide (keyword <:+: content))).length < 10 := by
    have sub := (firstOfEach_sublist id [] (knownKeywords.filter fun keyword =>
      decide (keyword <:+: content))).trans List.filter_sublist
    exact Nat.lt_of_le_of_lt sub.length_le (by decide)
  have distinct : (firstOfEach id [] (knownKeywords.filter fun keyword =>
      decide (keyword <:+: content))).Nodup := firstOfEach_pairwise id [] _
  obtain ⟨nodup, length, among⟩ := @fill_spec _ (mostCommon ((mentions wordAt content).filter
    fun word => lower word ∉ stopwords ∧ 2 ≤ word.length)) distinct few
  refine ⟨nodup, length, fun word mem => ?_⟩
  rcases among word mem with known | common
  · have kept := (firstOfEach_sublist _ _ _).subset known
    exact of_decide_eq_true (List.mem_filter.mp kept).2
  · have met := (firstOfEach_sublist _ _ _).subset ((mem_ranked _).mp (List.mem_of_mem_take common))
    exact infix_mentions (List.mem_filter.mp met).1

end KnowledgeCompanion.RuleExtraction
