import KnowledgeCompanion.ContentView

/-! Marking the matches in the texts of the content view (`widgets/highlight_text.dart`,
`widgets/pdf_text_view.dart`, `widgets/srt_list_view.dart`). The widget searches its text again
in its own way, by lower case and `indexOf`. -/

namespace KnowledgeCompanion.HighlightText

open GuardedRun SpanScan ContentSearch ContentView

/-- `endless` stands for a loop that has run out of fuel. -/
inductive Thrown
  | rangeError
  | endless
deriving DecidableEq

inductive SpanStyle
  | base
  | highlighted
  | active
deriving DecidableEq

structure TextSpan where
  text : Text
  style : SpanStyle
deriving DecidableEq

def firstIn (pattern : Text) : Text → Option ℕ
  | [] => if pattern.isPrefixOf [] then some 0 else none
  | c :: rest =>
    if pattern.isPrefixOf (c :: rest) then some 0 else (firstIn pattern rest).map (· + 1)

def indexOf (text pattern : Text) (start : ℕ) : Except Thrown (Option ℕ) :=
  if text.length < start then .error .rangeError
  else .ok ((firstIn pattern (text.drop start)).map (start + ·))

def substring (text : Text) (start stop : ℕ) : Except Thrown Text :=
  if start ≤ stop ∧ stop ≤ text.length then .ok (slice text start stop) else .error .rangeError

structure Query where
  text : Text
  lowerText : Text
  lowerKeyword : Text
  keywordLength : ℕ
  highlightStart : ℤ
  highlightEnd : ℤ

def Query.style (q : Query) (index : ℕ) : SpanStyle :=
  if (index : ℤ) = q.highlightStart ∧ (index + q.keywordLength : ℤ) = q.highlightEnd then .active
  else .highlighted

def spansFrom (q : Query) : ℕ → ℕ → Except Thrown (List TextSpan)
  | 0, _ => .error .endless
  | fuel + 1, start =>
    match indexOf q.lowerText q.lowerKeyword start with
    | .error thrown => .error thrown
    | .ok none => .ok (if start < q.text.length then [⟨q.text.drop start, .base⟩] else [])
    | .ok (some index) => do
      let before ← substring q.text start index
      let hit ← substring q.text index (index + q.keywordLength)
      let rest ← spansFrom q fuel (index + q.keywordLength)
      return (if start < index then [⟨before, .base⟩] else []) ++ ⟨hit, q.style index⟩ :: rest

def query (folding : CaseFolding) (text keyword : Text) (highlightStart highlightEnd : ℤ) :
    Query where
  text := text
  lowerText := folding.toLowerCase text
  lowerKeyword := folding.toLowerCase keyword
  keywordLength := keyword.length
  highlightStart := highlightStart
  highlightEnd := highlightEnd

def buildSpans (folding : CaseFolding) (text keyword : Text) (highlightStart highlightEnd : ℤ) :
    Except Thrown (List TextSpan) :=
  if keyword = [] then .ok [⟨text, .base⟩]
  else do
    let q := query folding text keyword highlightStart highlightEnd
    let spans ← spansFrom q (q.lowerText.length + 2) 0
    return if spans = [] then [⟨text, .base⟩] else spans

def textOf (spans : List TextSpan) : Text := (spans.map TextSpan.text).flatten

theorem firstIn_some {pattern text : Text} {p : ℕ} (found : firstIn pattern text = some p) :
    pattern.isPrefixOf (text.drop p) = true ∧
      (∀ q < p, pattern.isPrefixOf (text.drop q) = false) ∧ p ≤ text.length := by
  induction text generalizing p with
  | nil =>
    unfold firstIn at found
    split at found
    · rename_i here
      obtain rfl := Option.some.inj found
      exact ⟨here, fun q bound => absurd bound (Nat.not_lt_zero q), Nat.le_refl 0⟩
    · cases found
  | cons c rest ih =>
    unfold firstIn at found
    split at found
    · rename_i here
      obtain rfl := Option.some.inj found
      exact ⟨here, fun q bound => absurd bound (Nat.not_lt_zero q), Nat.zero_le _⟩
    · rename_i other
      obtain ⟨q, later, rfl⟩ := Option.map_eq_some_iff.mp found
      obtain ⟨here, before, bound⟩ := ih later
      refine ⟨here, fun k less => ?_, Nat.succ_le_succ bound⟩
      cases k with
      | zero => exact eq_false_of_ne_true other
      | succ k => exact before k (Nat.lt_of_succ_lt_succ less)

theorem firstIn_none {pattern text : Text} (none : firstIn pattern text = .none) (p : ℕ) :
    p ≤ text.length → pattern.isPrefixOf (text.drop p) = false := by
  induction text generalizing p with
  | nil =>
    intro _
    unfold firstIn at none
    split at none
    · cases none
    · rename_i other
      rw [List.drop_nil]
      exact eq_false_of_ne_true other
  | cons c rest ih =>
    intro bound
    unfold firstIn at none
    split at none
    · cases none
    · rename_i other
      cases p with
      | zero => exact eq_false_of_ne_true other
      | succ p => exact ih (Option.map_eq_none_iff.mp none) p (Nat.le_of_succ_le_succ bound)

theorem indexOf_some {text pattern : Text} {start index : ℕ}
    (found : indexOf text pattern start = .ok (some index)) :
    start ≤ index ∧ index ≤ text.length ∧ pattern.isPrefixOf (text.drop index) = true ∧
      ∀ p, start ≤ p → p < index → pattern.isPrefixOf (text.drop p) = false := by
  unfold indexOf at found
  split at found
  · cases found
  · rename_i inside
    obtain ⟨p, first, rfl⟩ := Option.map_eq_some_iff.mp (Except.ok.inj found)
    obtain ⟨here, before, bound⟩ := firstIn_some first
    rw [List.length_drop] at bound
    rw [List.drop_drop] at here
    refine ⟨Nat.le_add_right _ _, by omega, here, fun k above below => ?_⟩
    have earlier := before (k - start) (by omega)
    rw [List.drop_drop] at earlier
    have same : start + (k - start) = k := by omega
    rw [same] at earlier
    exact earlier

theorem substring_ok {text piece : Text} {start stop : ℕ}
    (cut : substring text start stop = .ok piece) :
    start ≤ stop ∧ stop ≤ text.length ∧ piece = slice text start stop := by
  unfold substring at cut
  split at cut
  · rename_i inside
    exact ⟨inside.1, inside.2, (Except.ok.inj cut).symm⟩
  · cases cut

theorem spansFrom_some {q : Query} {fuel start index : ℕ} {spans : List TextSpan}
    (found : indexOf q.lowerText q.lowerKeyword start = .ok (some index))
    (built : spansFrom q (fuel + 1) start = .ok spans) :
    ∃ before hit rest, substring q.text start index = .ok before ∧
      substring q.text index (index + q.keywordLength) = .ok hit ∧
      spansFrom q fuel (index + q.keywordLength) = .ok rest ∧
      spans =
        (if start < index then [⟨before, .base⟩] else []) ++ ⟨hit, q.style index⟩ :: rest := by
  rw [spansFrom, found] at built
  cases first : substring q.text start index with
  | error thrown => simp [first, bind, Except.bind] at built
  | ok before =>
    cases second : substring q.text index (index + q.keywordLength) with
    | error thrown => simp [first, second, bind, Except.bind] at built
    | ok hit =>
      cases third : spansFrom q fuel (index + q.keywordLength) with
      | error thrown => simp [first, second, third, bind, Except.bind] at built
      | ok rest =>
        simp only [first, second, third, bind, Except.bind, pure, Except.pure] at built
        exact ⟨before, hit, rest, rfl, rfl, rfl, (Except.ok.inj built).symm⟩

theorem textOf_before {text before : Text} {start index : ℕ} (le : start ≤ index)
    (same : before = slice text start index) :
    textOf (if start < index then [⟨before, .base⟩] else []) = slice text start index := by
  split
  · rw [← same]
    exact List.append_nil before
  · have empty : start = index := by omega
    rw [empty, slice, List.drop_take, Nat.sub_self, List.take_zero]
    rfl

theorem spansFrom_text {q : Query} {fuel start : ℕ} {spans : List TextSpan}
    (inside : start ≤ q.text.length) (built : spansFrom q fuel start = .ok spans) :
    textOf spans = q.text.drop start := by
  induction fuel generalizing start spans with
  | zero => cases built
  | succ fuel ih =>
    cases found : indexOf q.lowerText q.lowerKeyword start with
    | error thrown => rw [spansFrom, found] at built; cases built
    | ok result =>
      cases result with
      | none =>
        rw [spansFrom, found] at built
        obtain rfl := Except.ok.inj built
        split
        · exact List.append_nil _
        · rw [List.drop_of_length_le (by omega)]
          rfl
      | some index =>
        obtain ⟨before, hit, rest, first, second, third, rfl⟩ := spansFrom_some found built
        obtain ⟨le, -, cut⟩ := substring_ok first
        obtain ⟨up, bound, same⟩ := substring_ok second
        have tail := ih bound third
        have split : textOf ((if start < index then [⟨before, .base⟩] else []) ++
            ⟨hit, q.style index⟩ :: rest) =
              textOf (if start < index then [⟨before, .base⟩] else []) ++ (hit ++ textOf rest) := by
          simp only [textOf, List.map_append, List.flatten_append, List.map_cons,
            List.flatten_cons]
        rw [split, textOf_before le cut, tail, same, slice_drop up, slice_drop le]

theorem substring_ends (text : Text) (start stop : ℕ) :
    substring text start stop ≠ .error .endless := by
  unfold substring
  split <;> exact fun same => by cases same

/-- The loop comes to an end: every match moves the start on. -/
theorem spansFrom_ends {q : Query} (long : 0 < q.keywordLength) {fuel start : ℕ}
    (fuelled : 0 < fuel) (enough : q.lowerText.length + 2 ≤ fuel + start) :
    spansFrom q fuel start ≠ .error .endless := by
  induction fuel generalizing start with
  | zero => exact absurd fuelled (Nat.lt_irrefl 0)
  | succ fuel ih =>
    intro endless
    cases found : indexOf q.lowerText q.lowerKeyword start with
    | error thrown =>
      rw [spansFrom, found] at endless
      obtain rfl := Except.error.inj endless
      unfold indexOf at found
      split at found <;> cases found
    | ok result =>
      cases result with
      | none => rw [spansFrom, found] at endless; cases endless
      | some index =>
        obtain ⟨le, bound, -⟩ := indexOf_some found
        have later := @ih (index + q.keywordLength) (by omega) (by omega)
        rw [spansFrom, found] at endless
        cases first : substring q.text start index with
        | error thrown =>
          simp only [first, bind, Except.bind] at endless
          exact substring_ends _ _ _ (first.trans (congrArg _ (Except.error.inj endless)))
        | ok before =>
          cases second : substring q.text index (index + q.keywordLength) with
          | error thrown =>
            simp only [first, second, bind, Except.bind] at endless
            exact substring_ends _ _ _ (second.trans (congrArg _ (Except.error.inj endless)))
          | ok hit =>
            cases third : spansFrom q fuel (index + q.keywordLength) with
            | error thrown =>
              simp only [first, second, third, bind, Except.bind] at endless
              exact later (third.trans endless)
            | ok rest =>
              simp [first, second, third, bind, Except.bind, pure, Except.pure] at endless

/-- Whatever the case tables are, the widget either fails at an offset out of range or shows
its text unchanged; it never searches for ever. -/
theorem buildSpans_text (folding : CaseFolding) (text keyword : Text)
    (highlightStart highlightEnd : ℤ) :
    buildSpans folding text keyword highlightStart highlightEnd = .error .rangeError ∨
      ∃ spans, buildSpans folding text keyword highlightStart highlightEnd = .ok spans ∧
        textOf spans = text := by
  unfold buildSpans
  split
  · exact .inr ⟨_, rfl, List.append_nil text⟩
  · rename_i filled
    have long : 0 < keyword.length := List.length_pos_iff.mpr filled
    have ends := @spansFrom_ends (query folding text keyword highlightStart highlightEnd) long
      ((folding.toLowerCase text).length + 2) 0 (Nat.succ_pos _) (Nat.le_refl _)
    cases built : spansFrom (query folding text keyword highlightStart highlightEnd)
        ((folding.toLowerCase text).length + 2) 0 with
    | error thrown =>
      cases thrown with
      | endless => exact absurd built ends
      | rangeError => exact .inl (congrArg (· >>= _) built)
    | ok spans =>
      refine .inr ⟨_, congrArg (· >>= _) built, ?_⟩
      split
      · exact List.append_nil text
      · exact spansFrom_text (Nat.zero_le _) built

/-- The marked parts of item `i` with their offsets, and whether they are active. -/
def marks (i : ℕ) : ℕ → List TextSpan → List (TextMatch × Bool)
  | _, [] => []
  | pos, span :: rest =>
    let stop := pos + span.text.length
    match span.style with
    | .base => marks i stop rest
    | .highlighted => (⟨i, pos, stop⟩, false) :: marks i stop rest
    | .active => (⟨i, pos, stop⟩, true) :: marks i stop rest

/-- The case tables change single characters of these texts, and two characters that are the
same without regard to case have one lower case. -/
structure SimpleOn (folding : CaseFolding) (lower : Char → Char) (keyword text : Text) : Prop where
  lowerKeyword : folding.toLowerCase keyword = keyword.map lower
  lowerText : folding.toLowerCase text = text.map lower
  canonical : ∀ a ∈ keyword, ∀ b ∈ text,
    folding.canonicalize (lower a) = folding.canonicalize b ↔ lower a = lower b

theorem isPrefixOf_map {α β γ : Type*} [DecidableEq β] [DecidableEq γ] {f g : α → β}
    {f' g' : α → γ} {xs ys : List α} (same : ∀ a ∈ xs, ∀ b ∈ ys, f a = g b ↔ f' a = g' b) :
    (xs.map f).isPrefixOf (ys.map g) = (xs.map f').isPrefixOf (ys.map g') := by
  induction xs generalizing ys with
  | nil => rw [List.map_nil, List.map_nil, List.isPrefixOf_nil_left, List.isPrefixOf_nil_left]
  | cons x xs ih =>
    cases ys with
    | nil => rfl
    | cons y ys =>
      have rest := @ih ys fun a left b right =>
        same a (List.mem_cons_of_mem x left) b (List.mem_cons_of_mem y right)
      have here : (f x == g y) = (f' x == g' y) := by
        rw [Bool.eq_iff_iff, beq_iff_eq, beq_iff_eq]
        exact same x List.mem_cons_self y List.mem_cons_self
      rw [List.map_cons, List.map_cons, List.map_cons, List.map_cons, List.isPrefixOf_cons_cons,
        List.isPrefixOf_cons_cons, here, rest]

section Marks

variable {folding : CaseFolding} {lower : Char → Char} {keyword text : Text}

theorem SimpleOn.match_eq (simple : SimpleOn folding lower keyword text) (p : ℕ) :
    matchAt folding (folding.toLowerCase keyword) (text.drop p) =
      if (folding.toLowerCase keyword).isPrefixOf ((folding.toLowerCase text).drop p) then
        some keyword.length
      else none := by
  have same := @isPrefixOf_map _ _ _ _ _ (folding.canonicalize ∘ lower) folding.canonicalize lower
    lower keyword (text.drop p) fun a left b right =>
      simple.canonical a left b (List.mem_of_mem_drop right)
  rw [matchAt, simple.lowerKeyword, simple.lowerText, List.length_map, List.map_map,
    ← List.map_drop, same]

theorem marks_before (i start index : ℕ) (before : Text) (le : start ≤ index)
    (long : start + before.length = index) (rest : List TextSpan) :
    marks i start ((if start < index then [⟨before, .base⟩] else []) ++ rest) =
      marks i index rest := by
  split
  · rw [List.singleton_append, marks, long]
  · have same : start = index := by omega
    rw [same, List.nil_append]

theorem marks_hit (i index : ℕ) (q : Query) (hit : Text) (long : hit.length = q.keywordLength)
    (rest : List TextSpan) :
    marks i index (⟨hit, q.style index⟩ :: rest) =
      (⟨i, index, index + q.keywordLength⟩, q.style index == .active) ::
        marks i (index + q.keywordLength) rest := by
  by_cases active : (index : ℤ) = q.highlightStart ∧
      (index + q.keywordLength : ℤ) = q.highlightEnd
  · have style : q.style index = .active := if_pos active
    rw [style, marks, long]
    rfl
  · have style : q.style index = .highlighted := if_neg active
    rw [style, marks, long]
    rfl

theorem spansFrom_marks (simple : SimpleOn folding lower keyword text) (filled : keyword ≠ [])
    (highlightStart highlightEnd : ℤ) (i : ℕ) {fuel start : ℕ} (inside : start ≤ text.length)
    (fuelled : 0 < fuel) (enough : text.length + 2 ≤ fuel + start) :
    let q := query folding text keyword highlightStart highlightEnd
    ∃ spans, spansFrom q fuel start = .ok spans ∧
      marks i start spans = (scan (matchAt folding (folding.toLowerCase keyword)) 0 start
        (text.drop start)).map fun s => (⟨i, s.start, s.stop⟩, q.style s.start == .active) := by
  intro q
  have sameLength : q.lowerText.length = text.length :=
    (congrArg List.length simple.lowerText).trans (List.length_map lower)
  have long : 0 < keyword.length := List.length_pos_iff.mpr filled
  induction fuel generalizing start with
  | zero => exact absurd fuelled (Nat.lt_irrefl 0)
  | succ fuel ih =>
    have started : indexOf q.lowerText q.lowerKeyword start =
        .ok ((firstIn q.lowerKeyword (q.lowerText.drop start)).map (start + ·)) :=
      if_neg (by omega)
    cases first : firstIn q.lowerKeyword (q.lowerText.drop start) with
    | none =>
      rw [first] at started
      refine ⟨if start < text.length then [⟨text.drop start, .base⟩] else [], ?_, ?_⟩
      · rw [spansFrom, started]
        rfl
      · have nothing : scan (matchAt folding (folding.toLowerCase keyword)) 0 start
            (text.drop start) = [] := by
          refine scan_none fun p bound => ?_
          rw [List.length_drop] at bound
          have missed := firstIn_none first p (by rw [List.length_drop]; omega)
          rw [List.drop_drop] at missed
          rw [List.drop_drop, simple.match_eq]
          exact if_neg (ne_true_of_eq_false missed)
        rw [nothing]
        split <;> rfl
    | some p =>
      rw [first] at started
      obtain ⟨here, before, -⟩ := firstIn_some first
      have hit : matchAt folding (folding.toLowerCase keyword) ((text.drop start).drop p) =
          some keyword.length := by
        rw [List.drop_drop, simple.match_eq]
        rw [List.drop_drop] at here
        exact if_pos here
      have missed (k : ℕ) (less : k < p) :
          matchAt folding (folding.toLowerCase keyword) ((text.drop start).drop k) = none := by
        have earlier := before k less
        rw [List.drop_drop] at earlier
        rw [List.drop_drop, simple.match_eq]
        exact if_neg (ne_true_of_eq_false earlier)
      have lowerFilled : folding.toLowerCase keyword ≠ [] :=
        fun none => filled (folding.lower_nil _ none)
      have room := (matchAt_sound lowerFilled _ _ hit).2
      rw [List.length_drop, List.length_drop] at room
      have bound : start + p + keyword.length ≤ text.length := by omega
      obtain ⟨rest, built, tail⟩ := @ih (start + p + keyword.length) bound (by omega) (by omega)
      have front : substring text start (start + p) = .ok (slice text start (start + p)) :=
        if_pos ⟨Nat.le_add_right _ _, by omega⟩
      have middle : substring text (start + p) (start + p + keyword.length) =
          .ok (slice text (start + p) (start + p + keyword.length)) :=
        if_pos ⟨Nat.le_add_right _ _, bound⟩
      have frontLength : start + (slice text start (start + p)).length = start + p := by
        rw [slice, List.length_drop, List.length_take]
        omega
      have middleLength :
          (slice text (start + p) (start + p + keyword.length)).length = q.keywordLength := by
        rw [slice, List.length_drop, List.length_take]
        change min (start + p + keyword.length) text.length - (start + p) = keyword.length
        omega
      refine ⟨(if start < start + p then [⟨slice text start (start + p), .base⟩] else []) ++
        ⟨slice text (start + p) (start + p + keyword.length), q.style (start + p)⟩ :: rest, ?_, ?_⟩
      · rw [spansFrom, started]
        change (substring text start (start + p) >>= fun before =>
          substring text (start + p) (start + p + keyword.length) >>= fun hit =>
            spansFrom q fuel (start + p + keyword.length) >>= fun rest => _) = _
        rw [front, middle, built]
        rfl
      · have unrolled := @scan_first _ (matchAt folding (folding.toLowerCase keyword))
          (text.drop start) start p keyword.length missed hit (by rw [List.length_drop]; omega) long
        rw [marks_before i start (start + p) _ (Nat.le_add_right _ _) frontLength,
          marks_hit i (start + p) q _ middleLength, unrolled, List.map_cons, List.drop_drop,
          ← Nat.add_assoc]
        exact congrArg _ tail

end Marks

variable {ε : Type*}

def matchForItem (s : ContentViewState ε) (i : ℕ) : Option TextMatch :=
  (currentMatch s).filter fun m => m.itemIndex = i

def highlightStart (s : ContentViewState ε) (i : ℕ) : ℤ :=
  (matchForItem s i).elim (-1) fun m => m.startOffset

def highlightEnd (s : ContentViewState ε) (i : ℕ) : ℤ :=
  (matchForItem s i).elim (-1) fun m => m.endOffset

def renderFrom (folding : CaseFolding) (s : ContentViewState ε) :
    ℕ → List Text → Except Thrown (List (List TextSpan))
  | _, [] => .ok []
  | i, text :: texts => do
    let spans ← buildSpans folding text s.keyword (highlightStart s i) (highlightEnd s i)
    let rest ← renderFrom folding s (i + 1) texts
    return spans :: rest

def marksFrom : ℕ → List (List TextSpan) → List (TextMatch × Bool)
  | _, [] => []
  | i, spans :: rest => marks i 0 spans ++ marksFrom (i + 1) rest

def flagged (s : ContentViewState ε) (m : TextMatch) : TextMatch × Bool :=
  (m, decide (currentMatch s = some m))

theorem current_iff (s : ContentViewState ε) (i start stop : ℕ) :
    ((start : ℤ) = highlightStart s i ∧ (stop : ℤ) = highlightEnd s i) ↔
      currentMatch s = some ⟨i, start, stop⟩ := by
  unfold highlightStart highlightEnd
  cases found : matchForItem s i with
  | none =>
    refine iff_of_false (fun both => ?_) fun current => ?_
    · have low : (start : ℤ) = -1 := both.1
      omega
    · rw [matchForItem, current] at found
      simp at found
  | some m =>
    obtain ⟨current, item⟩ := Option.filter_eq_some_iff.mp found
    rw [current, Option.some.injEq]
    constructor
    · rintro ⟨low, high⟩
      obtain ⟨j, a, b⟩ := m
      have here : j = i := of_decide_eq_true item
      have first : start = a := Int.ofNat.inj low
      have last : stop = b := Int.ofNat.inj high
      rw [here, first, last]
    · rintro rfl
      exact ⟨rfl, rfl⟩

theorem active_eq (s : ContentViewState ε) (folding : CaseFolding) (text keyword : Text)
    (i start : ℕ) :
    ((query folding text keyword (highlightStart s i) (highlightEnd s i)).style start == .active) =
      decide (currentMatch s = some ⟨i, start, start + keyword.length⟩) := by
  have same := current_iff s i start (start + keyword.length)
  by_cases current : currentMatch s = some ⟨i, start, start + keyword.length⟩
  · have style : (query folding text keyword (highlightStart s i) (highlightEnd s i)).style start =
        .active := if_pos (same.mpr current)
    rw [style, decide_eq_true current]
    rfl
  · have style : (query folding text keyword (highlightStart s i) (highlightEnd s i)).style start =
        .highlighted := if_neg fun active => current (same.mp active)
    rw [style, decide_eq_false current]
    rfl

section Rendering

variable {folding : CaseFolding} {lower : Char → Char} {s : ContentViewState ε}

theorem renderItem_marks {text : Text} (simple : SimpleOn folding lower s.keyword text)
    (filled : s.keyword ≠ []) (i : ℕ) :
    ∃ spans, buildSpans folding text s.keyword (highlightStart s i) (highlightEnd s i) =
        .ok spans ∧ textOf spans = text ∧
      marks i 0 spans =
        (findMatchesInText folding i text (folding.toLowerCase s.keyword)).map (flagged s) := by
  have long : (query folding text s.keyword (highlightStart s i)
      (highlightEnd s i)).lowerText.length = text.length :=
    (congrArg List.length simple.lowerText).trans (List.length_map lower)
  obtain ⟨spans, built, marked⟩ := spansFrom_marks simple filled (highlightStart s i)
    (highlightEnd s i) i (Nat.zero_le text.length) (Nat.succ_pos (text.length + 1)) (Nat.le_refl _)
  have result : buildSpans folding text s.keyword (highlightStart s i) (highlightEnd s i) =
      .ok (if spans = [] then [⟨text, .base⟩] else spans) := by
    unfold buildSpans
    rw [if_neg filled]
    simp only [long]
    rw [built]
    rfl
  refine ⟨_, result, ?_, ?_⟩
  · split
    · exact List.append_nil text
    · exact spansFrom_text (Nat.zero_le _) built
  · have same : marks i 0 (if spans = [] then [⟨text, .base⟩] else spans) = marks i 0 spans := by
      split
      · rename_i none
        rw [none]
        rfl
      · rfl
    rw [same, marked, List.drop_zero, findMatchesInText, List.map_map]
    refine List.map_congr_left fun m mem => ?_
    have lowerFilled : folding.toLowerCase s.keyword ≠ [] :=
      fun none => filled (folding.lower_nil _ none)
    have size : (folding.toLowerCase s.keyword).length = s.keyword.length :=
      (congrArg List.length simple.lowerKeyword).trans (List.length_map lower)
    have stop := (mem_findMatches lowerFilled
      (List.mem_map_of_mem (f := fun m : Span => (⟨i, m.start, m.stop⟩ : TextMatch)) mem)).2.2
    rw [size] at stop
    change (_, _) = ((⟨i, m.start, m.stop⟩ : TextMatch),
      decide (currentMatch s = some ⟨i, m.start, m.stop⟩))
    have last : m.stop = m.start + s.keyword.length := stop
    rw [last, active_eq]

theorem renderItem_plain (text : Text) (none : s.keyword = []) (i : ℕ) :
    buildSpans folding text s.keyword (highlightStart s i) (highlightEnd s i) =
      .ok [⟨text, .base⟩] := if_pos none

theorem renderFrom_cons {i : ℕ} {text : Text} {texts : List Text} {spans : List TextSpan}
    {rest : List (List TextSpan)}
    (first : buildSpans folding text s.keyword (highlightStart s i) (highlightEnd s i) = .ok spans)
    (later : renderFrom folding s (i + 1) texts = .ok rest) :
    renderFrom folding s i (text :: texts) = .ok (spans :: rest) := by
  rw [renderFrom, first]
  change (renderFrom folding s (i + 1) texts >>= _) = _
  rw [later]
  rfl

theorem renderFrom_plain (texts : List Text) (none : s.keyword = []) (i : ℕ) :
    ∃ rendered, renderFrom folding s i texts = .ok rendered ∧ rendered.map textOf = texts ∧
      marksFrom i rendered = [] := by
  induction texts generalizing i with
  | nil => exact ⟨[], rfl, rfl, rfl⟩
  | cons text texts ih =>
    obtain ⟨rest, later, same, marked⟩ := ih (i + 1)
    refine ⟨_, renderFrom_cons (renderItem_plain text none i) later, ?_, ?_⟩
    · rw [List.map_cons, same]
      exact congrArg (· :: texts) (List.append_nil text)
    · exact marked

theorem renderFrom_marks {texts : List Text}
    (simple : ∀ text ∈ texts, SimpleOn folding lower s.keyword text) (filled : s.keyword ≠ [])
    (i : ℕ) :
    ∃ rendered, renderFrom folding s i texts = .ok rendered ∧ rendered.map textOf = texts ∧
      marksFrom i rendered =
        (allMatches folding (folding.toLowerCase s.keyword) i texts).map (flagged s) := by
  induction texts generalizing i with
  | nil => exact ⟨[], rfl, rfl, rfl⟩
  | cons text texts ih =>
    obtain ⟨here, others⟩ := List.forall_mem_cons.mp simple
    obtain ⟨spans, first, whole, marked⟩ := renderItem_marks here filled i
    obtain ⟨rest, later, same, markedRest⟩ := ih others (i + 1)
    refine ⟨_, renderFrom_cons first later, ?_, ?_⟩
    · rw [List.map_cons, whole, same]
    · rw [marksFrom, marked, markedRest, allMatches, List.map_append]

end Rendering

theorem filter_current {α : Type*} [DecidableEq α] {current : Option α} {xs : List α}
    (distinct : xs.Nodup) (listed : ∀ x, current = some x → x ∈ xs) :
    xs.filter (fun x => decide (current = some x)) = current.toList := by
  cases current with
  | none => exact List.filter_eq_nil_iff.mpr fun x _ => by simp
  | some a =>
    have once : xs.count a = 1 := List.count_eq_one_of_mem distinct (listed a rfl)
    have same (x : α) : decide (some a = some x) = (x == a) := by
      rw [Bool.eq_iff_iff, decide_eq_true_iff, beq_iff_eq, Option.some.injEq, eq_comm]
    rw [List.filter_congr fun x _ => same x, List.filter_beq, once]
    rfl

theorem filter_flagged {s : ContentViewState ε} {found : List TextMatch}
    (distinct : found.Nodup) (listed : ∀ m, currentMatch s = some m → m ∈ found) :
    ((found.map (flagged s)).filter Prod.snd).map Prod.fst = (currentMatch s).toList := by
  have pairs : (found.map (flagged s)).filter Prod.snd =
      (found.filter fun m => decide (currentMatch s = some m)).map (flagged s) :=
    List.filter_map
  have plain : Prod.fst ∘ flagged s = id := rfl
  rw [pairs, filter_current distinct listed, List.map_map, plain, List.map_id]

theorem allMatches_nodup {folding : CaseFolding} {lowerKeyword : Text}
    (filled : lowerKeyword ≠ []) (texts : List Text) :
    (allMatches folding lowerKeyword 0 texts).Nodup := by
  refine List.Pairwise.imp_of_mem (fun {m n} left _ before same => ?_)
    (allMatches_ordered filled 0)
  obtain ⟨-, text, -, inside⟩ := mem_allMatches filled left
  have long := (mem_findMatches filled inside).2.2
  have positive := List.length_pos_iff.mpr filled
  rcases before with earlier | ⟨-, behind⟩
  · rw [same] at earlier
    exact Nat.lt_irrefl _ earlier
  · rw [← same] at behind
    omega

/-- In every state of a run each item shows its text unchanged, the marks are the matches of the
search in their order, and the one that is active is the current match. -/
theorem run_highlights (setting : Setting) {lower : Char → Char} (es : List (Event ε))
    {content : Content}
    (loaded : (exec (step setting) .opened es).state.content = some content)
    (simple : ∀ text ∈ content.texts (exec (step setting) .opened es).state.showCleanedText,
      SimpleOn setting.folding lower (exec (step setting) .opened es).state.keyword text) :
    let s := (exec (step setting) .opened es).state
    ∃ rendered, renderFrom setting.folding s 0 (content.texts s.showCleanedText) = .ok rendered ∧
      rendered.map textOf = content.texts s.showCleanedText ∧
      s.textMatches = ((marksFrom 0 rendered).map Prod.fst).take maxHighlightMatches ∧
      ((marksFrom 0 rendered).filter Prod.snd).map Prod.fst = (currentMatch s).toList := by
  intro s
  have fresh := (run_shown setting es).1.last.fresh
  rw [loaded] at fresh
  by_cases none : s.keyword = []
  · obtain ⟨rendered, shown, whole, marked⟩ :=
      @renderFrom_plain _ setting.folding s (content.texts s.showCleanedText) none 0
    have empty : s.textMatches = [] := by
      rw [fresh, none]
      exact buildMatches_nil _ _ _
    have nowhere : currentMatch s = .none := by
      cases found : currentMatch s with
      | none => rfl
      | some m =>
        have mem := mem_of_matchAtIndex found
        rw [empty] at mem
        exact absurd mem List.not_mem_nil
    refine ⟨rendered, shown, whole, ?_, ?_⟩
    · rw [empty, marked]
      rfl
    · rw [marked, nowhere]
      rfl
  · have lowerFilled : setting.folding.toLowerCase s.keyword ≠ [] :=
      fun blank => none (setting.folding.lower_nil _ blank)
    obtain ⟨rendered, shown, whole, marked⟩ := renderFrom_marks simple none 0
    have plain : Prod.fst ∘ flagged s = id := rfl
    have first : s.textMatches = (allMatches setting.folding (setting.folding.toLowerCase s.keyword)
        0 (content.texts s.showCleanedText)).take maxHighlightMatches :=
      fresh.trans (buildMatches_eq none)
    refine ⟨rendered, shown, whole, ?_, ?_⟩
    · rw [marked, List.map_map, plain, List.map_id]
      exact first
    · rw [marked]
      refine filter_flagged (allMatches_nodup lowerFilled _) fun m found => ?_
      have mem := mem_of_matchAtIndex found
      rw [first] at mem
      exact List.mem_of_mem_take mem

def searched : List (Event Unit) :=
  [.load, .loaded (.ok (.pdf [] [⟨3, "Ab aB".toList⟩])), .searchChanged " ab ".toList,
    .debounceFires]

theorem simpleOn_ascii (keyword text : Text) :
    SimpleOn asciiFolding asciiLower keyword text := by
  refine ⟨rfl, rfl, fun a _ b _ => ?_⟩
  change asciiLower (asciiLower a) = asciiLower b ↔ _
  rw [asciiLower_idem]

theorem run_highlights_searched :
    let s := (exec (step ⟨asciiFolding, none⟩) .opened searched).state
    ∃ rendered, renderFrom asciiFolding s 0 ["Ab aB".toList] = .ok rendered ∧
      rendered.map textOf = ["Ab aB".toList] ∧
      s.textMatches = ((marksFrom 0 rendered).map Prod.fst).take maxHighlightMatches ∧
      ((marksFrom 0 rendered).filter Prod.snd).map Prod.fst = (currentMatch s).toList :=
  @run_highlights Unit ⟨asciiFolding, none⟩ asciiLower searched
    (.pdf [] [⟨3, "Ab aB".toList⟩]) rfl fun text _ => simpleOn_ascii _ text

end KnowledgeCompanion.HighlightText
