import KnowledgeCompanion.NumberedAnswers
import KnowledgeCompanion.ObjectHeap
import KnowledgeCompanion.SegmentMerger
import KnowledgeCompanion.TextRules

/-! Cleaning the texts of transcription segments (`services/text_cleaning`): the rules, then a
model that answers batch by batch, and the original texts where either fails. The segments are
objects, and a copy is a new one. -/

namespace KnowledgeCompanion.TextCleaning

open ApiExceptions JsonText NumberedAnswers ObjectHeap PythonText SegmentMerger TextRules

abbrev Objects := List AsrSegment

abbrev Ref := ℕ

def withText (segment : AsrSegment) (text : Text) : AsrSegment := { segment with text := text }

def textsOf (objects : Objects) (segments : List Ref) : List Text :=
  (deref objects segments).map AsrSegment.text

def timing (segment : AsrSegment) : NNRat × NNRat × Option ℚ :=
  (segment.start, segment.stop, segment.confidence)

def timingsOf (objects : Objects) (segments : List Ref) : List (NNRat × NNRat × Option ℚ) :=
  (deref objects segments).map timing

def ruleCleanSegments (cleaner : RuleCleaner) (objects : Objects) (segments : List Ref) :
    Objects × List Ref :=
  alloc objects ((deref objects segments).map fun segment =>
    withText segment (cleaner.clean segment.text))

structure ChatCall where
  model : Text
  messages : List (Text × Text)
  temperature : ℚ
  maxTokens : ℤ

structure LlmCleaner where
  client : ℕ → ChatCall → Except Raised Json
  model : Text
  temperature : ℚ
  maxTokens : ℤ
  batchSize : ℤ

namespace LlmCleaner

variable (cleaner : LlmCleaner)

def size : ℕ := (max 1 cleaner.batchSize).toNat

theorem size_pos : 0 < cleaner.size := by
  unfold size
  omega

def extractContent (response : Json) : Except Raised Text :=
  match response with
  | .object response =>
    match member response "choices".toList with
    | some (.array (.object choice :: _)) =>
      match member choice "message".toList with
      | some (.object message) =>
        match member message "content".toList with
        | some (.string content) => .ok content
        | _ => .error .other
      | _ => .error .other
    | _ => .error .other
  | _ => .error .other

def call (texts : List Text) : ChatCall where
  model := cleaner.model
  messages := [("user".toList, buildPrompt texts)]
  temperature := cleaner.temperature
  maxTokens := cleaner.maxTokens

/-- The cleaned texts that the `i`-th call brings for a batch. -/
def answer (i : ℕ) (texts : List Text) : Except Raised (List Text) := do
  let response ← cleaner.client i (cleaner.call texts)
  let content ← extractContent response
  parseResponse content texts.length

def cleanBatch (i : ℕ) (objects : Objects) (segments : List Ref) :
    Objects × Except Raised (List Ref) :=
  if segments = [] then (objects, .ok [])
  else
    match cleaner.answer i (textsOf objects segments) with
    | .error e => (objects, .error e)
    | .ok cleanedTexts =>
      -- `zip(..., strict=True)`
      if cleanedTexts.length = segments.length then
        let made := alloc objects (List.zipWith withText (deref objects segments) cleanedTexts)
        (made.1, .ok made.2)
      else (objects, .error .other)

/-- The batches from the `i`-th on; every one takes a segment. -/
def cleanBatches : ℕ → ℕ → Objects → List Ref → Objects × Except Raised (List Ref)
  | 0, _, objects, _ => (objects, .ok [])
  | fuel + 1, i, objects, segments =>
    if segments = [] then (objects, .ok [])
    else
      let batch := cleaner.cleanBatch i objects (segments.take cleaner.size)
      match batch.2 with
      | .error e => (batch.1, .error e)
      | .ok front =>
        let rest := cleanBatches fuel (i + 1) batch.1 (segments.drop cleaner.size)
        (rest.1, rest.2.map fun back => front ++ back)

def cleanSegments (objects : Objects) (segments : List Ref) : Objects × Except Raised (List Ref) :=
  cleaner.cleanBatches segments.length 0 objects segments

end LlmCleaner

/-- A value that is missing stands for its default; `mode` is what `str` makes of the value. -/
structure CleaningConfig where
  mode : Option Text
  fallbackOnError : Option Bool
  enabled : Option Bool

inductive Mode
  | rule
  | llm
  | hybrid
deriving DecidableEq

structure TextCleaningService where
  ruleCleaner : RuleCleaner
  llmCleaner : Option LlmCleaner
  config : CleaningConfig

def emptyAfterClean : ApiException := ⟨"EMPTY_AFTER_CLEAN", "清洗后文本为空，回退原始", 500⟩

def llmCleanFailed : ApiException := ⟨"LLM_CLEAN_FAILED", "文本清洗失败，已使用原始文本", 500⟩

def validate (objects : Objects) (cleaned original : List Ref) : Except Raised (List Ref) :=
  if cleaned.length ≠ original.length then .error .other
  else if (textsOf objects cleaned).any isBlank then .error (.api emptyAfterClean)
  else .ok cleaned

namespace TextCleaningService

variable (service : TextCleaningService)

def mode : Mode :=
  let mode := strip ((service.config.mode.getD "rule".toList).map Char.toLower)
  if mode = "llm".toList then .llm
  else if mode = "hybrid".toList then .hybrid
  else .rule

def fallbackOnError : Bool := service.config.fallbackOnError.getD true

def enabled : Bool := service.config.enabled.getD true

def usedCleaner : Option LlmCleaner :=
  if service.mode = .llm ∨ service.mode = .hybrid then service.llmCleaner else none

def tryClean (objects : Objects) (segments original : List Ref) :
    Objects × Except Raised (List Ref) :=
  let ruled := ruleCleanSegments service.ruleCleaner objects segments
  let cleaned : Objects × Except Raised (List Ref) :=
    match service.usedCleaner with
    | none => (ruled.1, .ok ruled.2)
    | some cleaner => cleaner.cleanSegments ruled.1 ruled.2
  (cleaned.1, cleaned.2.bind fun refs => validate cleaned.1 refs original)

def clean (objects : Objects) (segments : List Ref) : Objects × Except ApiException (List Ref) :=
  if !service.enabled || segments.isEmpty then (objects, .ok segments)
  else
    let copies := alloc objects (deref objects segments)
    let tried := service.tryClean copies.1 segments copies.2
    match tried.2 with
    | .ok cleaned => (tried.1, .ok cleaned)
    | .error _ =>
      if service.fallbackOnError then (tried.1, .ok copies.2) else (tried.1, .error llmCleanFailed)

end TextCleaningService

/-- The output names segments of their own with the timings of the input, and these are their
texts. -/
structure Retexted (before after : Objects) (input output : List Ref) (texts : List Text) :
    Prop where
  kept : before <+: after
  within : Within after output
  timings : timingsOf after output = timingsOf before input
  texts : textsOf after output = texts

section Copies

variable {before middle after : Objects} {input between output : List Ref}
  {texts others : List Text}

theorem Retexted.trans (first : Retexted before middle input between others)
    (second : Retexted middle after between output texts) :
    Retexted before after input output texts where
  kept := first.kept.trans second.kept
  within := second.within
  timings := second.timings.trans first.timings
  texts := second.texts

theorem Retexted.earlier (made : Retexted middle after input output texts)
    (within : Within before input) (kept : before <+: middle) :
    Retexted before after input output texts where
  kept := kept.trans made.kept
  within := made.within
  timings := by rw [made.timings, timingsOf, deref_kept within kept, timingsOf]
  texts := made.texts

theorem Retexted.later (made : Retexted before middle input output texts)
    (kept : middle <+: after) : Retexted before after input output texts where
  kept := made.kept.trans kept
  within := made.within.mono kept
  timings := by
    rw [timingsOf, deref_kept made.within kept]
    exact made.timings
  texts := by
    rw [textsOf, deref_kept made.within kept]
    exact made.texts

theorem Retexted.length (made : Retexted before after input output texts)
    (within : Within before input) : output.length = input.length := by
  have same := congrArg List.length made.timings
  rw [timingsOf, timingsOf, List.length_map, List.length_map, length_deref made.within,
    length_deref within] at same
  exact same

theorem alloc_retexted (objects : Objects) (input : List Ref) {values : List AsrSegment}
    (same : values.map timing = timingsOf objects input) :
    Retexted objects (alloc objects values).1 input (alloc objects values).2
      (values.map AsrSegment.text) where
  kept := alloc_kept objects values
  within := alloc_within objects values
  timings := by rw [timingsOf, deref_alloc, same]
  texts := by rw [textsOf, deref_alloc]

theorem zipWith_timing {segments : List AsrSegment} (same : texts.length = segments.length) :
    (List.zipWith withText segments texts).map timing = segments.map timing ∧
      (List.zipWith withText segments texts).map AsrSegment.text = texts := by
  induction segments generalizing texts with
  | nil =>
    obtain rfl := List.length_eq_zero_iff.mp same
    exact ⟨rfl, rfl⟩
  | cons segment segments ih =>
    cases texts with
    | nil => exact nomatch same
    | cons text texts =>
      obtain ⟨timings, read⟩ := ih (Nat.succ.inj same)
      exact ⟨congrArg (timing segment :: ·) timings, congrArg (text :: ·) read⟩

theorem ruleCleanSegments_retexted (cleaner : RuleCleaner) (objects : Objects)
    (segments : List Ref) :
    Retexted objects (ruleCleanSegments cleaner objects segments).1 segments
      (ruleCleanSegments cleaner objects segments).2
      ((textsOf objects segments).map cleaner.clean) := by
  have timings : ((deref objects segments).map fun s =>
      withText s (cleaner.clean s.text)).map timing = timingsOf objects segments := by
    rw [timingsOf, List.map_map]
    exact List.map_congr_left fun _ _ => by simp only [Function.comp_apply, timing, withText]
  have texts : ((deref objects segments).map fun s =>
      withText s (cleaner.clean s.text)).map AsrSegment.text =
        (textsOf objects segments).map cleaner.clean := by
    rw [textsOf, List.map_map, List.map_map]
    exact List.map_congr_left fun _ _ => by simp only [Function.comp_apply, withText]
  have made := alloc_retexted objects segments timings
  rw [texts] at made
  exact made

end Copies

section Batches

variable (cleaner : LlmCleaner)

/-- The text at position `k` from the answers to the batches from the `i`-th on. -/
def answerAt (i : ℕ) (texts : List Text) (k : ℕ) : Option Text :=
  match cleaner.answer (i + k / cleaner.size)
      ((texts.drop (k / cleaner.size * cleaner.size)).take cleaner.size) with
  | .ok cleaned => cleaned[k % cleaner.size]?
  | .error _ => none

theorem answer_length {cleaner : LlmCleaner} {i : ℕ} {texts cleaned : List Text}
    (answered : cleaner.answer i texts = .ok cleaned) : cleaned.length = texts.length := by
  unfold LlmCleaner.answer at answered
  cases response : cleaner.client i (cleaner.call texts) with
  | error e => rw [response] at answered; exact nomatch answered
  | ok response' =>
    rw [response] at answered
    cases content : LlmCleaner.extractContent response' with
    | error e =>
      exact nomatch (congrArg (· >>= fun c => parseResponse c texts.length) content).symm.trans
        answered
    | ok content' =>
      exact parseResponse_length
        ((congrArg (· >>= fun c => parseResponse c texts.length) content).symm.trans answered)

theorem cleanBatch_spec (i : ℕ) {objects : Objects} {segments : List Ref}
    (within : Within objects segments) (some_ : segments ≠ []) :
    objects <+: (cleaner.cleanBatch i objects segments).1 ∧
      ∀ output, (cleaner.cleanBatch i objects segments).2 = .ok output →
        ∃ texts, cleaner.answer i (textsOf objects segments) = .ok texts ∧
          Retexted objects (cleaner.cleanBatch i objects segments).1 segments output texts := by
  rw [LlmCleaner.cleanBatch, if_neg some_]
  cases answered : cleaner.answer i (textsOf objects segments) with
  | error e => exact ⟨List.prefix_refl objects, nofun⟩
  | ok texts =>
    have length : texts.length = (deref objects segments).length :=
      (answer_length answered).trans (List.length_map _)
    dsimp only
    rw [if_pos (length.trans (length_deref within))]
    refine ⟨alloc_kept _ _, ?_⟩
    rintro output made
    obtain rfl := Except.ok.inj made
    obtain ⟨timings, read⟩ := zipWith_timing length
    have copied := alloc_retexted objects segments timings
    rw [read] at copied
    exact ⟨texts, rfl, copied⟩

theorem answerAt_front {i k : ℕ} {texts cleaned : List Text}
    (answered : cleaner.answer i (texts.take cleaner.size) = .ok cleaned)
    (inside : k < cleaner.size) : answerAt cleaner i texts k = cleaned[k]? := by
  rw [answerAt, Nat.div_eq_of_lt inside, Nat.mod_eq_of_lt inside, Nat.zero_mul, List.drop_zero,
    Nat.add_zero, answered]

theorem answerAt_back (i k : ℕ) (texts : List Text) :
    answerAt cleaner i texts (cleaner.size + k) =
      answerAt cleaner (i + 1) (texts.drop cleaner.size) k := by
  have position : (k / cleaner.size + 1) * cleaner.size =
      cleaner.size + k / cleaner.size * cleaner.size := by
    rw [Nat.add_mul, Nat.one_mul, Nat.add_comm]
  rw [answerAt, answerAt, Nat.add_div_left k cleaner.size_pos, Nat.add_mod_left, position,
    List.drop_drop, Nat.add_assoc i 1, Nat.add_comm 1]

theorem answerAt_append {i k : ℕ} {texts cleaned others : List Text} {text : Text}
    (answered : cleaner.answer i (texts.take cleaner.size) = .ok cleaned)
    (total : others.length = texts.length - cleaner.size)
    (placed : ∀ j text, others[j]? = some text →
      answerAt cleaner (i + 1) (texts.drop cleaner.size) j = some text)
    (found : (cleaned ++ others)[k]? = some text) : answerAt cleaner i texts k = some text := by
  have count : cleaned.length = min cleaner.size texts.length := by
    rw [answer_length answered, List.length_take]
  by_cases here : k < cleaned.length
  · rw [List.getElem?_append_left here] at found
    exact (answerAt_front cleaner answered (by omega)).trans found
  · rw [List.getElem?_append_right (by omega)] at found
    have inside := (List.getElem?_eq_some_iff.mp found).1
    obtain ⟨j, rfl⟩ := Nat.exists_eq_add_of_le (by omega : cleaner.size ≤ k)
    rw [(by omega : cleaner.size + j - cleaned.length = j)] at found
    exact (answerAt_back cleaner i j texts).trans (placed j text found)

theorem retexted_nil (objects : Objects) : Retexted objects objects [] [] [] :=
  ⟨List.prefix_refl objects, nofun, rfl, rfl⟩

theorem Retexted.append {before middle after : Objects} {input rest front back : List Ref}
    {texts others : List Text} (first : Retexted before middle input front texts)
    (second : Retexted middle after rest back others) (within : Within before rest) :
    Retexted before after (input ++ rest) (front ++ back) (texts ++ others) where
  kept := first.kept.trans second.kept
  within := (first.within.mono second.kept).append second.within
  timings := by
    rw [timingsOf, deref_append, deref_kept first.within second.kept, List.map_append,
      timingsOf, deref_append, List.map_append]
    have early := first.timings
    have late := second.timings
    rw [timingsOf, timingsOf] at early late
    rw [early, late, deref_kept within first.kept]
  texts := by
    have early := first.texts
    have late := second.texts
    rw [textsOf] at early late
    rw [textsOf, deref_append, deref_kept first.within second.kept, List.map_append, early, late]

/-- The output is put together from the answers to the batches from the `i`-th on, each text
from its own position. -/
def Assembled (i : ℕ) (before after : Objects) (input output : List Ref) : Prop :=
  ∃ texts, (∀ k text, texts[k]? = some text →
      answerAt cleaner i (textsOf before input) k = some text) ∧
    Retexted before after input output texts

theorem assembled_nil (i : ℕ) (objects : Objects) : Assembled cleaner i objects objects [] [] :=
  ⟨[], nofun, retexted_nil objects⟩

variable {cleaner}

theorem Assembled.cons {i : ℕ} {before middle after : Objects} {segments front back : List Ref}
    {texts : List Text} (within : Within before segments)
    (answered : cleaner.answer i (textsOf before (segments.take cleaner.size)) = .ok texts)
    (made : Retexted before middle (segments.take cleaner.size) front texts)
    (rest : Assembled cleaner (i + 1) middle after (segments.drop cleaner.size) back) :
    Assembled cleaner i before after segments (front ++ back) := by
  obtain ⟨others, placed, more⟩ := rest
  have left : Within before (segments.drop cleaner.size) :=
    fun r mem => within r (List.mem_of_mem_drop mem)
  have whole := made.append more left
  rw [List.take_append_drop] at whole
  refine ⟨texts ++ others, fun k text found => ?_, whole⟩
  rw [textsOf, deref_take within, List.map_take] at answered
  rw [textsOf, deref_kept left made.kept, deref_drop within, List.map_drop] at placed
  have total : others.length = segments.length - cleaner.size := by
    have same := congrArg List.length more.texts
    rw [textsOf, List.length_map, length_deref more.within, more.length (left.mono made.kept),
      List.length_drop] at same
    exact same.symm
  refine answerAt_append cleaner answered ?_ placed found
  rw [total, textsOf, List.length_map, length_deref within]

variable (cleaner)

theorem cleanBatches_spec (fuel i : ℕ) {objects : Objects} {segments : List Ref}
    (within : Within objects segments) (enough : segments.length ≤ fuel) :
    objects <+: (cleaner.cleanBatches fuel i objects segments).1 ∧
      ∀ output, (cleaner.cleanBatches fuel i objects segments).2 = .ok output →
        Assembled cleaner i objects (cleaner.cleanBatches fuel i objects segments).1 segments
          output := by
  have size_pos := cleaner.size_pos
  induction fuel generalizing i objects segments with
  | zero =>
    obtain rfl := List.length_eq_zero_iff.mp (Nat.le_zero.mp enough)
    refine ⟨List.prefix_refl objects, fun output made => ?_⟩
    obtain rfl := Except.ok.inj made
    exact assembled_nil cleaner i objects
  | succ fuel ih =>
    rw [LlmCleaner.cleanBatches]
    by_cases none_ : segments = []
    · subst none_
      refine ⟨List.prefix_refl objects, fun output made => ?_⟩
      obtain rfl := Except.ok.inj made
      exact assembled_nil cleaner i objects
    · have positive := List.length_pos_iff.mpr none_
      rw [if_neg none_]
      have taken : Within objects (segments.take cleaner.size) :=
        fun r mem => within r (List.mem_of_mem_take mem)
      have left : Within objects (segments.drop cleaner.size) :=
        fun r mem => within r (List.mem_of_mem_drop mem)
      have some_ : segments.take cleaner.size ≠ [] := by
        rw [← List.length_pos_iff, List.length_take]
        omega
      obtain ⟨kept, answered⟩ := cleanBatch_spec cleaner i taken some_
      dsimp only
      cases first : (cleaner.cleanBatch i objects (segments.take cleaner.size)).2 with
      | error e => exact ⟨kept, nofun⟩
      | ok front =>
        obtain ⟨texts, answer, made⟩ := answered front first
        have shorter : (segments.drop cleaner.size).length ≤ fuel := by
          rw [List.length_drop]
          omega
        obtain ⟨later, rest⟩ := ih (i + 1) (left.mono kept) shorter
        dsimp only
        refine ⟨kept.trans later, fun output joined => ?_⟩
        cases second : (cleaner.cleanBatches fuel (i + 1)
            (cleaner.cleanBatch i objects (segments.take cleaner.size)).1
            (segments.drop cleaner.size)).2 with
        | error e => rw [second] at joined; exact nomatch joined
        | ok back =>
          rw [second] at joined
          obtain rfl := Except.ok.inj joined
          exact .cons within answer made (rest back second)

end Batches

section Service

variable (service : TextCleaningService)

/-- The cleaned text for position `i`: by the rules, and then from the answer to the batch of that
position where the mode has a model. -/
def replacement (texts : List Text) (i : ℕ) : Option Text :=
  let ruled := texts.map service.ruleCleaner.clean
  match service.usedCleaner with
  | none => ruled[i]?
  | some cleaner => answerAt cleaner 0 ruled i

/-- Either every text is a cleaned one that is not blank, or every text is the original. -/
def Replaced (originals texts : List Text) : Prop :=
  texts = originals ∨
    ∀ i text, texts[i]? = some text → isBlank text = false ∧
      replacement service originals i = some text

/-- The call returns as many segments, in order and with their timings, and leaves the objects
that there were. -/
structure Cleaned (objects : Objects) (segments : Held objects) : Prop where
  kept : objects <+: (service.clean objects segments.refs).1
  returned : ∃ output, (service.clean objects segments.refs).2 = .ok output ∧
    output.length = segments.refs.length ∧
    Within (service.clean objects segments.refs).1 output ∧
    timingsOf (service.clean objects segments.refs).1 output =
      timingsOf objects segments.refs ∧
    Replaced service (textsOf objects segments.refs)
      (textsOf (service.clean objects segments.refs).1 output)

theorem validate_ok {objects : Objects} {cleaned original output : List Ref}
    (valid : validate objects cleaned original = .ok output) :
    output = cleaned ∧ ∀ text ∈ textsOf objects cleaned, isBlank text = false := by
  unfold validate at valid
  split at valid
  · exact nomatch valid
  · split at valid
    · exact nomatch valid
    · rename_i visible
      refine ⟨(Except.ok.inj valid).symm, fun text mem => ?_⟩
      rw [Bool.not_eq_true, List.any_eq_false] at visible
      exact Bool.eq_false_iff.mpr (visible text mem)

theorem tryClean_spec (objects : Objects) (segments original : List Ref) :
    objects <+: (service.tryClean objects segments original).1 ∧
      ∀ output, (service.tryClean objects segments original).2 = .ok output →
        ∃ texts, (∀ i text, texts[i]? = some text → isBlank text = false ∧
            replacement service (textsOf objects segments) i = some text) ∧
          Retexted objects (service.tryClean objects segments original).1 segments output
            texts := by
  have ruled := ruleCleanSegments_retexted service.ruleCleaner objects segments
  unfold TextCleaningService.tryClean replacement
  dsimp only
  cases service.usedCleaner with
  | none =>
    refine ⟨ruled.kept, fun output made => ?_⟩
    obtain ⟨rfl, visible⟩ := validate_ok made
    refine ⟨_, fun i text found => ⟨visible text ?_, found⟩, ruled⟩
    rw [ruled.texts]
    exact List.mem_of_getElem? found
  | some cleaner =>
    obtain ⟨kept, answered⟩ := cleanBatches_spec cleaner _ 0 ruled.within (Nat.le_refl _)
    refine ⟨ruled.kept.trans kept, fun output made => ?_⟩
    dsimp only at made ⊢
    cases batches : (cleaner.cleanSegments (ruleCleanSegments service.ruleCleaner objects
        segments).1 (ruleCleanSegments service.ruleCleaner objects segments).2).2 with
    | error e => rw [batches] at made; exact nomatch made
    | ok refs =>
      rw [batches] at made
      obtain ⟨rfl, visible⟩ := validate_ok made
      obtain ⟨texts, placed, copied⟩ := answered output batches
      rw [ruled.texts] at placed
      refine ⟨texts, fun i text found => ⟨visible text ?_, placed i text found⟩,
        ruled.trans copied⟩
      have same : textsOf (cleaner.cleanSegments _ _).1 output = texts := copied.texts
      rw [same]
      exact List.mem_of_getElem? found

theorem cleaned_of_retexted {service : TextCleaningService} {objects after : Objects}
    {segments : Held objects} {output : List Ref} {texts : List Text}
    (same : service.clean objects segments.refs = (after, .ok output))
    (made : Retexted objects after segments.refs output texts)
    (replaced : Replaced service (textsOf objects segments.refs) texts) :
    Cleaned service objects segments := by
  refine ⟨by rw [same]; exact made.kept, output, congrArg Prod.snd same, ?_⟩
  rw [same, made.texts]
  exact ⟨made.length segments.within, made.within, made.timings, replaced⟩

/-- With the fallback every call cleans all or nothing, whatever the client does. -/
theorem clean_all_or_nothing (fallback : service.fallbackOnError = true) (objects : Objects)
    (segments : Held objects) : Cleaned service objects segments := by
  by_cases skipped : (!service.enabled || segments.refs.isEmpty) = true
  · exact cleaned_of_retexted (if_pos skipped)
      ⟨List.prefix_refl objects, segments.within, rfl, rfl⟩ (.inl rfl)
  · have copied : Retexted objects (alloc objects (deref objects segments.refs)).1 segments.refs
        (alloc objects (deref objects segments.refs)).2 (textsOf objects segments.refs) :=
      alloc_retexted objects _ rfl
    have run : service.clean objects segments.refs = _ := if_neg skipped
    generalize alloc objects (deref objects segments.refs) = copies at copied run
    obtain ⟨kept, cleaned⟩ := tryClean_spec service copies.1 segments.refs copies.2
    dsimp only at run
    cases tried : (service.tryClean copies.1 segments.refs copies.2).2 with
    | ok output =>
      rw [tried] at run
      obtain ⟨texts, replaced, made⟩ := cleaned output tried
      rw [textsOf, deref_kept segments.within copied.kept] at replaced
      exact cleaned_of_retexted run (made.earlier segments.within copied.kept) (.inr replaced)
    | error e =>
      rw [tried, if_pos fallback] at run
      exact cleaned_of_retexted run (copied.later kept) (.inl rfl)

end Service

def reply (content : String) : Json :=
  .object [("choices".toList, .array [.object [("message".toList,
    .object [("content".toList, .string content.toList)])]])]

def pairService : TextCleaningService where
  ruleCleaner := .init Char.isAlphanum none
  llmCleaner := some
    { client := fun i _ => .ok (reply (if i = 0 then "1. one\n2. two" else "1) three"))
      model := "glm-4-flash".toList
      temperature := 1 / 10
      maxTokens := 2048
      batchSize := 2 }
  config := ⟨some "Hybrid".toList, none, none⟩

def threeSegments : Objects :=
  [⟨0, 1, "嗯one".toList, none⟩, ⟨1, 1 + 1, "twoo".toList, none⟩,
    ⟨1 + 1, 1 + 1 + 1, "three three".toList, none⟩]

theorem within_three : Within threeSegments [0, 1, 2] := by
  unfold Within threeSegments
  decide

def allThree : Held threeSegments := ⟨[0, 1, 2], within_three⟩

theorem clean_pairs : pairService.fallbackOnError = true ∧
    Cleaned pairService threeSegments allThree ∧
    textsOf (pairService.clean threeSegments [0, 1, 2]).1 [9, 10, 11] =
      ["one".toList, "two".toList, "three".toList] :=
  ⟨rfl, clean_all_or_nothing pairService rfl threeSegments allThree, by decide +kernel⟩

end KnowledgeCompanion.TextCleaning
