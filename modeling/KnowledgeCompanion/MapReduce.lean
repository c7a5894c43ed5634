import KnowledgeCompanion.ApiExceptions
import KnowledgeCompanion.Emissions
import KnowledgeCompanion.TokenWindows

/-! The summary of a long text (`summary/map_reduce_summarizer.py`): windows of the text are
summarised one by one, and their summaries are summarised together. Tokens are characters, as
the estimator counts them without a tokenizer. -/

namespace KnowledgeCompanion.MapReduce

open ApiExceptions Emissions SpanScan TokenWindows

inductive Call
  | full (content : Text)
  | chunk (content : Text)
deriving DecidableEq

def Call.content : Call → Text
  | .full content => content
  | .chunk content => content

/-- The `map_reduce` part; a value that is missing stands for its default. -/
structure MapReduceConfig where
  chunkTokenLimit : Option ℤ
  overlapTokens : Option ℤ

/-- The provider answers the calls of a run by their number, with a summary and the tokens it
used. -/
structure MapReduceSummarizer where
  provider : ℕ → Call → Except Raised (Text × ℕ)
  config : MapReduceConfig

def decode (tokens : List ℕ) : Text := tokens.map Char.ofNat

def starts (stop step : ℕ) : List ℕ := List.range' 0 ((stop + step - 1) / step) step

def windowsAt (tokens : List ℕ) (limit : ℕ) : List ℕ → List Text
  | [] => []
  | start :: later =>
    decode (slice tokens start (start + limit)) ::
      if tokens.length ≤ start + limit then [] else windowsAt tokens limit later

namespace MapReduceSummarizer

variable (s : MapReduceSummarizer)

def limit : ℤ := s.config.chunkTokenLimit.getD 3000

def overlap : ℤ := s.config.overlapTokens.getD 100

def splitChunks (text : Text) : List Text :=
  let tokens := fallbackEncode text
  if s.limit ≤ 0 then [text]
  else if (tokens.length : ℤ) ≤ s.limit then [text]
  else
    let step := (max 1 (s.limit - max 0 s.overlap)).toNat
    windowsAt tokens s.limit.toNat (starts tokens.length step)

def ask (i : ℕ) (call : Call) : Emission Call Raised (Text × ℕ) := ⟨[call], s.provider i call⟩

def mapChunks : ℕ → List Text → Emission Call Raised (List (Text × ℕ))
  | _, [] => pure []
  | i, chunk :: chunks => do
    let answer ← s.ask i (.chunk chunk)
    let answers ← mapChunks (i + 1) chunks
    return answer :: answers

def merged (answers : List (Text × ℕ)) : Text := "\n\n".toList.intercalate (answers.map Prod.fst)

def summarize (text : Text) : Emission Call Raised (Text × ℕ) :=
  let chunks := s.splitChunks text
  if chunks.length ≤ 1 then s.ask 0 (.full text)
  else do
    let answers ← s.mapChunks 0 chunks
    let summary ← s.ask chunks.length (.full (merged answers))
    return (summary.1, (answers.map Prod.snd).sum + summary.2)

end MapReduceSummarizer

open MapReduceSummarizer

theorem fallbackCount_decode (tokens : List ℕ) : fallbackCount (decode tokens) = tokens.length := by
  rw [fallbackCount_eq, decode, List.length_map]

theorem windowsAt_within (tokens : List ℕ) (limit : ℕ) (begins : List ℕ) {chunk : Text}
    (mem : chunk ∈ windowsAt tokens limit begins) : fallbackCount chunk ≤ limit := by
  induction begins with
  | nil => exact absurd mem List.not_mem_nil
  | cons start later ih =>
    rw [windowsAt, List.mem_cons] at mem
    rcases mem with rfl | mem
    · rw [fallbackCount_decode, slice, List.length_drop, List.length_take]
      omega
    · split at mem
      · exact absurd mem List.not_mem_nil
      · exact ih mem

theorem starts_two {stop step : ℕ} (positive : 0 < step) (beyond : step < stop) :
    ∃ later, starts stop step = 0 :: step :: later := by
  have two : 2 ≤ (stop + step - 1) / step := by
    rw [Nat.le_div_iff_mul_le positive]
    omega
  obtain ⟨n, count⟩ := Nat.exists_eq_add_of_le' two
  refine ⟨List.range' (0 + step + step) n step, ?_⟩
  rw [starts, count, List.range'_succ, List.range'_succ, Nat.zero_add]

section Calls

variable (s : MapReduceSummarizer) (text : Text)

def Fits : Prop := (fallbackCount text : ℤ) ≤ s.limit

theorem splitChunks_fits {s : MapReduceSummarizer} {text : Text} (fits : Fits s text) :
    s.splitChunks text = [text] := by
  unfold MapReduceSummarizer.splitChunks
  dsimp only
  split
  · rfl
  · exact if_pos fits

theorem splitChunks_within (positive : 0 < s.limit) {chunk : Text}
    (mem : chunk ∈ s.splitChunks text) : (fallbackCount chunk : ℤ) ≤ s.limit := by
  unfold MapReduceSummarizer.splitChunks at mem
  dsimp only at mem
  rw [if_neg (Int.not_le.mpr positive)] at mem
  split at mem
  · rename_i fits
    rw [List.mem_singleton.mp mem]
    exact fits
  · have within := windowsAt_within _ _ _ mem
    omega

theorem splitChunks_many {s : MapReduceSummarizer} {text : Text} (positive : 0 < s.limit)
    (long : ¬Fits s text) : ¬(s.splitChunks text).length ≤ 1 := by
  unfold Fits fallbackCount at long
  unfold MapReduceSummarizer.splitChunks
  dsimp only
  rw [if_neg (Int.not_le.mpr positive), if_neg long]
  obtain ⟨later, same⟩ := starts_two
    (by omega : 0 < (max 1 (s.limit - max 0 s.overlap)).toNat)
    (by omega : _ < (fallbackEncode text).length)
  rw [same, windowsAt, if_neg (by omega), windowsAt, List.length_cons, List.length_cons]
  omega

theorem mapChunks_outputs (i : ℕ) (chunks : List Text) :
    (s.mapChunks i chunks).outputs <+: chunks.map .chunk := by
  induction chunks generalizing i with
  | nil => exact List.prefix_refl []
  | cons chunk chunks ih =>
    rw [MapReduceSummarizer.mapChunks]
    cases answer : s.provider i (.chunk chunk) with
    | error e =>
      rw [bind_of_error _ answer]
      exact ⟨chunks.map .chunk, rfl⟩
    | ok a =>
      rw [bind_of_ok _ answer]
      refine (List.prefix_append_right_inj [Call.chunk chunk]).mpr ?_
      cases rest : (s.mapChunks (i + 1) chunks).result with
      | error e =>
        rw [bind_of_error _ rest]
        exact ih (i + 1)
      | ok answers =>
        rw [bind_of_ok _ rest]
        dsimp only
        rw [pure_eq, List.append_nil]
        exact ih (i + 1)

def answers : Except Raised (List (Text × ℕ)) := (s.mapChunks 0 (s.splitChunks text)).result

theorem summarize_fits {s : MapReduceSummarizer} {text : Text} (fits : Fits s text) :
    (s.summarize text).outputs = [.full text] := by
  unfold MapReduceSummarizer.summarize
  dsimp only
  rw [if_pos (by rw [splitChunks_fits fits]; exact Nat.le_refl 1)]
  rfl

theorem summarize_long {s : MapReduceSummarizer} {text : Text} (positive : 0 < s.limit)
    (long : ¬Fits s text) :
    (s.summarize text).outputs = (s.mapChunks 0 (s.splitChunks text)).outputs ++
      match answers s text with
      | .ok found => [.full (merged found)]
      | .error _ => [] := by
  unfold MapReduceSummarizer.summarize answers
  dsimp only
  rw [if_neg (splitChunks_many positive long)]
  cases result : (s.mapChunks 0 (s.splitChunks text)).result with
  | error e =>
    rw [bind_of_error _ result]
    exact (List.append_nil _).symm
  | ok found =>
    rw [bind_of_ok _ result]
    cases last : s.provider (s.splitChunks text).length (.full (merged found)) with
    | error e => rw [bind_of_error _ last]; rfl
    | ok summary => rw [bind_of_ok _ last]; rfl

theorem length_intercalate_two (a b : Char) (ts : List Text) :
    ([a, b].intercalate ts).length = (ts.map List.length).sum + 2 * (ts.length - 1) := by
  induction ts with
  | nil => rfl
  | cons t ts ih =>
    cases ts with
    | nil => rw [List.intercalate_singleton]; rfl
    | cons u ts =>
      rw [List.intercalate_cons_cons, List.length_append, List.length_append, ih]
      simp only [List.map_cons, List.sum_cons, List.length_cons, List.length_nil]
      omega

/-- What a run passes to its provider: a text within the limit and nothing else, or chunks within
the limit and at the end the answers to the chunks, joined, however long these are. -/
structure Limited : Prop where
  single : Fits s text → (s.summarize text).outputs = [.full text]
  mapped : ∀ content, .chunk content ∈ (s.summarize text).outputs →
    (fallbackCount content : ℤ) ≤ s.limit
  reduced : ∀ content, .full content ∈ (s.summarize text).outputs ↔
    Fits s text ∧ content = text ∨
      ¬Fits s text ∧ ∃ found, answers s text = .ok found ∧ content = merged found
  within : (∀ call ∈ (s.summarize text).outputs, (fallbackCount call.content : ℤ) ≤ s.limit) ↔
    Fits s text ∨ ∀ found, answers s text = .ok found →
      ((found.map fun answer => answer.1.length).sum + 2 * (found.length - 1) : ℕ) ≤ s.limit

theorem length_merged (found : List (Text × ℕ)) : fallbackCount (merged found) =
    (found.map fun answer => answer.1.length).sum + 2 * (found.length - 1) := by
  have joined := length_intercalate_two '\n' '\n' (found.map Prod.fst)
  rw [List.map_map, List.length_map] at joined
  rw [fallbackCount_eq]
  exact joined

theorem mem_mapChunks {s : MapReduceSummarizer} {i : ℕ} {chunks : List Text} {call : Call}
    (mem : call ∈ (s.mapChunks i chunks).outputs) : ∃ chunk ∈ chunks, .chunk chunk = call :=
  List.mem_map.mp ((mapChunks_outputs s i chunks).subset mem)

theorem mem_summarize_long {s : MapReduceSummarizer} {text : Text} (positive : 0 < s.limit)
    (long : ¬Fits s text) {call : Call} : call ∈ (s.summarize text).outputs ↔
      call ∈ (s.mapChunks 0 (s.splitChunks text)).outputs ∨
        ∃ found, answers s text = .ok found ∧ call = .full (merged found) := by
  rw [summarize_long positive long, List.mem_append]
  cases answers s text with
  | ok found =>
    rw [List.mem_singleton]
    simp only [Except.ok.injEq, exists_eq_left']
  | error e => simp only [List.not_mem_nil, reduceCtorEq, false_and, exists_false]

theorem summarize_short_limited {s : MapReduceSummarizer} {text : Text} (fits : Fits s text) :
    Limited s text := by
  have calls := summarize_fits fits
  refine ⟨fun _ => calls, fun content mem => ?_, fun content => ?_, ?_⟩
  · rw [calls, List.mem_singleton] at mem
    exact nomatch mem
  · rw [calls, List.mem_singleton, Call.full.injEq]
    exact ⟨fun same => .inl ⟨fits, same⟩,
      fun found => found.elim And.right fun other => absurd fits other.1⟩
  · rw [calls]
    exact iff_of_true (fun call mem => by rw [List.mem_singleton.mp mem]; exact fits) (.inl fits)

theorem summarize_long_limited {s : MapReduceSummarizer} {text : Text} (positive : 0 < s.limit)
    (long : ¬Fits s text) : Limited s text := by
  have member {call : Call} := @mem_summarize_long s text positive long call
  have chunk {call : Call} (mem : call ∈ (s.mapChunks 0 (s.splitChunks text)).outputs) :
      (fallbackCount call.content : ℤ) ≤ s.limit := by
    obtain ⟨chunk, inside, rfl⟩ := mem_mapChunks mem
    exact splitChunks_within s text positive inside
  refine ⟨fun fits => absurd fits long, fun content mem => ?_, fun content => ?_, ?_⟩
  · rcases member.mp mem with inside | ⟨found, -, other⟩
    · exact chunk inside
    · exact nomatch other
  · rw [member]
    constructor
    · rintro (inside | ⟨found, answered, same⟩)
      · obtain ⟨chunk, -, other⟩ := mem_mapChunks inside
        exact nomatch other
      · exact .inr ⟨long, found, answered, Call.full.inj same⟩
    · rintro (⟨short, -⟩ | ⟨-, found, answered, rfl⟩)
      · exact absurd short long
      · exact .inr ⟨found, answered, rfl⟩
  · constructor
    · intro every
      refine .inr fun found answered => ?_
      rw [← length_merged]
      exact every _ (member.mpr (.inr ⟨found, answered, rfl⟩))
    · rintro (short | small) call mem
      · exact absurd short long
      · rcases member.mp mem with inside | ⟨found, answered, rfl⟩
        · exact chunk inside
        · rw [Call.content, length_merged]
          exact small found answered

theorem summarize_limited (positive : 0 < s.limit) : Limited s text := by
  by_cases fits : Fits s text
  · exact summarize_short_limited fits
  · exact summarize_long_limited positive fits

end Calls

def talkative : MapReduceSummarizer where
  provider := fun _ _ => .ok ("long".toList, 1)
  config := ⟨some 1, some 0⟩

theorem talkative_limited : 0 < talkative.limit ∧ Limited talkative "ab".toList ∧
    (talkative.summarize "ab".toList).outputs =
      [.chunk ['a'], .chunk ['b'], .full "long\n\nlong".toList] :=
  ⟨by decide, summarize_limited talkative _ (by decide), by decide +kernel⟩

theorem talkative_exceeds : ¬∀ call ∈ (talkative.summarize "ab".toList).outputs,
    (fallbackCount call.content : ℤ) ≤ talkative.limit := by
  intro every
  have merged := every (.full "long\n\nlong".toList) (by decide +kernel)
  exact absurd merged (by decide)

end KnowledgeCompanion.MapReduce
