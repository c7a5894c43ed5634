import Mathlib.Tactic.Common
import Mathlib.Data.List.Basic

/-! Lists with quoted literals, in which an escape symbol keeps the symbol after it from
closing the literal. A value is written between quotes with every quote in it doubled;
what a scanner makes of such a text is either the values as they were written, or two
literals side by side, or a literal that never ends. -/

namespace KnowledgeCompanion.QuotedScan

variable {α : Type*} [DecidableEq α]

structure Quoting (α : Type*) where
  isQuote : α → Bool
  escape : α
  escape_plain : isQuote escape = false

inductive Piece (α : Type*)
  | code (a : α)
  | literal (raw : List α)
deriving DecidableEq

inductive Mode (α : Type*)
  | code
  | inside (quote : α) (raw : List α)
  | escaped (quote : α) (raw : List α)
deriving DecidableEq

variable (Q : Quoting α)

def next : Mode α → α → Mode α
  | .code, a => if Q.isQuote a then .inside a [] else .code
  | .inside q raw, a =>
    if a = Q.escape then .escaped q (raw ++ [a])
    else if a = q then .code
    else .inside q (raw ++ [a])
  | .escaped q raw, a => .inside q (raw ++ [a])

def emit : Mode α → α → List (Piece α)
  | .code, a => if Q.isQuote a then [] else [.code a]
  | .inside q raw, a => if a = Q.escape then [] else if a = q then [.literal raw] else []
  | .escaped _ _, _ => []

def after (m : Mode α) (text : List α) : Mode α := text.foldl (next Q) m

def pieces : Mode α → List α → List (Piece α)
  | _, [] => []
  | m, a :: text => emit Q m a ++ pieces (next Q m a) text

@[simp] theorem after_nil (m : Mode α) : after Q m [] = m := rfl

@[simp] theorem after_cons (m : Mode α) (a : α) (text : List α) :
    after Q m (a :: text) = after Q (next Q m a) text := rfl

@[simp] theorem after_append (m : Mode α) (front back : List α) :
    after Q m (front ++ back) = after Q (after Q m front) back := List.foldl_append

@[simp] theorem pieces_nil (m : Mode α) : pieces Q m [] = [] := by rw [pieces]

@[simp] theorem pieces_cons (m : Mode α) (a : α) (text : List α) :
    pieces Q m (a :: text) = emit Q m a ++ pieces Q (next Q m a) text := by rw [pieces]

@[simp] theorem pieces_append (m : Mode α) (front back : List α) :
    pieces Q m (front ++ back) = pieces Q m front ++ pieces Q (after Q m front) back := by
  induction front generalizing m with
  | nil => simp
  | cons a front ih => rw [List.cons_append, pieces_cons, ih, pieces_cons, after_cons,
      List.append_assoc]

def Clean (text : List α) : Prop := ∀ a ∈ text, Q.isQuote a = false ∧ a ≠ Q.escape

instance (text : List α) : Decidable (Clean Q text) :=
  inferInstanceAs (Decidable (∀ a ∈ text, _))

variable {Q}

omit [DecidableEq α] in
theorem Clean.head {a : α} {text : List α} (clean : Clean Q (a :: text)) :
    Q.isQuote a = false ∧ a ≠ Q.escape := clean a List.mem_cons_self

omit [DecidableEq α] in
theorem Clean.tail {a : α} {text : List α} (clean : Clean Q (a :: text)) : Clean Q text :=
  fun b mem => clean b (List.mem_cons_of_mem a mem)

omit [DecidableEq α] in
theorem Clean.append {front back : List α} (first : Clean Q front) (second : Clean Q back) :
    Clean Q (front ++ back) := by
  intro a mem
  rcases List.mem_append.mp mem with mem | mem
  · exact first a mem
  · exact second a mem

theorem code_clean {text : List α} (clean : Clean Q text) :
    after Q .code text = .code ∧ pieces Q .code text = text.map .code := by
  induction text with
  | nil => exact ⟨rfl, pieces_nil Q _⟩
  | cons a text ih =>
    obtain ⟨stays, shown⟩ := ih clean.tail
    have step : next Q .code a = .code := by simp [next, clean.head.1]
    have out : emit Q .code a = [.code a] := by simp [emit, clean.head.1]
    rw [after_cons, pieces_cons, step, out, stays, shown]
    exact ⟨rfl, rfl⟩

theorem inside_clean {q : α} {raw text : List α} (quote : Q.isQuote q = true)
    (clean : Clean Q text) : ∃ raw', after Q (.inside q raw) text = .inside q raw' := by
  induction text generalizing raw with
  | nil => exact ⟨raw, rfl⟩
  | cons a text ih =>
    have other : a ≠ q := by
      rintro rfl
      exact Bool.false_ne_true (clean.head.1.symm.trans quote)
    have step : next Q (.inside q raw) a = .inside q (raw ++ [a]) := by
      simp [next, clean.head.2, other]
    rw [after_cons, step]
    exact ih clean.tail

theorem inside_unquoted {q : α} {text : List α} (unquoted : q ∉ text) (raw : List α) :
    pieces Q (.inside q raw) text = [] ∧ pieces Q (.escaped q raw) text = [] ∧
      (after Q (.inside q raw) text = .inside q (raw ++ text) ∨
        after Q (.inside q raw) text = .escaped q (raw ++ text)) ∧
      (after Q (.escaped q raw) text = .inside q (raw ++ text) ∨
        after Q (.escaped q raw) text = .escaped q (raw ++ text)) := by
  induction text generalizing raw with
  | nil => simp
  | cons a text ih =>
    have other : a ≠ q := fun same => unquoted (same ▸ List.mem_cons_self)
    have rest := ih (List.not_mem_of_not_mem_cons unquoted) (raw ++ [a])
    rw [List.append_assoc, List.singleton_append] at rest
    obtain ⟨silent, silentEscaped, ends, endsEscaped⟩ := rest
    have opened : next Q (.escaped q raw) a = .inside q (raw ++ [a]) := rfl
    simp only [pieces_cons, after_cons, opened, emit, other, if_false, ite_self, List.nil_append]
    by_cases escape : a = Q.escape
    · have step : next Q (.inside q raw) a = .escaped q (raw ++ [a]) := by simp [next, escape]
      rw [step]
      exact ⟨silentEscaped, silent, endsEscaped, ends⟩
    · have step : next Q (.inside q raw) a = .inside q (raw ++ [a]) := by
        simp [next, escape, other]
      rw [step]
      exact ⟨silent, silent, ends, ends⟩

theorem open_closed {q : α} (raw text : List α) :
    (after Q (.inside q raw) text = .code →
      ∃ first rest, pieces Q (.inside q raw) text = .literal first :: rest) ∧
    (after Q (.escaped q raw) text = .code →
      ∃ first rest, pieces Q (.escaped q raw) text = .literal first :: rest) := by
  induction text generalizing raw with
  | nil => exact ⟨fun closed => (nomatch closed), fun closed => (nomatch closed)⟩
  | cons a text ih =>
    obtain ⟨inside, escaped⟩ := ih (raw ++ [a])
    constructor
    · rw [after_cons, pieces_cons]
      by_cases escape : a = Q.escape
      · simpa [next, emit, escape] using escaped
      · by_cases close : a = q
        · have out : emit Q (.inside q raw) a = [.literal raw] := by
            rw [emit, if_neg escape, if_pos close]
          intro _
          exact ⟨raw, _, by rw [out]; rfl⟩
        · simpa [next, emit, escape, close] using inside
    · simpa [next, emit] using inside

variable (Q) in
def Outside (q : α) : Mode α → Prop
  | .code => True
  | .inside other _ => other ≠ q ∧ Q.isQuote other = true
  | .escaped other _ => other ≠ q ∧ Q.isQuote other = true

omit [DecidableEq α] in
theorem quote_plain {q : α} (quote : Q.isQuote q = true) : q ≠ Q.escape := by
  rintro rfl
  exact Bool.false_ne_true (Q.escape_plain.symm.trans quote)

theorem next_quote_inside {q other : α} (raw : List α) (quote : Q.isQuote q = true)
    (outside : other ≠ q) : next Q (.inside other raw) q = .inside other (raw ++ [q]) := by
  rw [next, if_neg (quote_plain quote), if_neg outside.symm]

theorem outside_next {q a : α} {m : Mode α} (outside : Outside Q q m) (other : a ≠ q) :
    Outside Q q (next Q m a) := by
  cases m with
  | code =>
    by_cases quote : Q.isQuote a
    · simpa [next, quote, Outside] using other
    · simp [next, quote, Outside]
  | inside opened raw =>
    rw [next]
    split_ifs with escape close
    · exact outside
    · trivial
    · exact outside
  | escaped opened raw => exact outside

theorem outside_next_next {q : α} {m : Mode α} (quote : Q.isQuote q = true)
    (outside : Outside Q q m) : Outside Q q (next Q (next Q m q) q) := by
  have plain := quote_plain quote
  cases m with
  | code => simp [next, quote, plain, Outside]
  | inside opened raw =>
    rw [next_quote_inside raw quote outside.1, next_quote_inside _ quote outside.1]
    exact outside
  | escaped opened raw =>
    have step : next Q (.escaped opened raw) q = .inside opened (raw ++ [q]) := rfl
    rw [step, next_quote_inside _ quote outside.1]
    exact outside

theorem outside_pair {q : α} {text : List α} {m : Mode α} (quote : Q.isQuote q = true)
    (outside : Outside Q q m) (clean : Clean Q text) :
    Outside Q q (next Q (after Q (next Q m q) text) q) := by
  have plain := quote_plain quote
  have through {opened : α} {raw : List α} (outside : Outside Q q (.inside opened raw)) :
      Outside Q q (next Q (after Q (.inside opened raw) text) q) := by
    obtain ⟨raw', stays⟩ := inside_clean outside.2 clean
    rw [stays, next_quote_inside raw' quote outside.1]
    exact outside
  cases m with
  | code =>
    have step : next Q .code q = .inside q [] := by simp [next, quote]
    obtain ⟨raw', stays⟩ := inside_clean quote clean
    rw [step, stays]
    simp [next, plain, Outside]
  | inside opened raw =>
    rw [next_quote_inside raw quote outside.1]
    exact through outside
  | escaped opened raw => exact through outside

theorem outside_open {q : α} {text : List α} {m : Mode α} (quote : Q.isQuote q = true)
    (outside : Outside Q q m) (clean : Clean Q text) : after Q (next Q m q) text ≠ .code := by
  have within {opened : α} (raw : List α) (opens : Q.isQuote opened = true) :
      after Q (.inside opened raw) text ≠ .code := by
    obtain ⟨raw', stays⟩ := inside_clean opens clean
    rw [stays]
    exact fun h => nomatch h
  cases m with
  | code =>
    have step : next Q .code q = .inside q [] := by simp [next, quote]
    rw [step]
    exact within [] quote
  | inside opened raw =>
    rw [next_quote_inside raw quote outside.1]
    exact within _ outside.2
  | escaped opened raw => exact within _ outside.2

def doubled (q : α) (value : List α) : List α :=
  value.flatMap fun a => if a = q then [q, q] else [a]

theorem doubled_of_not_mem {q : α} {value : List α} (unquoted : q ∉ value) :
    doubled q value = value := by
  induction value with
  | nil => rfl
  | cons a value ih =>
    have other : a ≠ q := fun same => unquoted (same ▸ List.mem_cons_self)
    have rest := ih (List.not_mem_of_not_mem_cons unquoted)
    rw [doubled] at rest
    rw [doubled, List.flatMap_cons, rest, if_neg other, List.singleton_append]

theorem outside_doubled {q : α} {value : List α} {m : Mode α} (quote : Q.isQuote q = true)
    (outside : Outside Q q m) : Outside Q q (after Q m (doubled q value)) := by
  induction value generalizing m with
  | nil => exact outside
  | cons a value ih =>
    rw [doubled, List.flatMap_cons, after_append]
    by_cases same : a = q
    · rw [if_pos same]
      exact ih (outside_next_next quote outside)
    · rw [if_neg same]
      exact ih (outside_next outside same)

def template (q : α) : List (List α × List α) → List α → List α
  | [], post => post
  | (pre, value) :: parts, post => pre ++ q :: (doubled q value ++ q :: template q parts post)

theorem template_append (q : α) (parts : List (List α × List α)) (post pre value : List α) :
    template q (parts ++ [(post ++ pre, value)]) [] =
      template q parts post ++ (pre ++ q :: (doubled q value ++ [q])) := by
  induction parts with
  | nil =>
    rw [List.nil_append, template, template, template, List.append_assoc]
  | cons p parts ih =>
    rw [List.cons_append, template, ih, template]
    simp only [List.append_assoc, List.cons_append]

def meant : List (List α × List α) → List α → List (Piece α)
  | [], post => post.map .code
  | (pre, value) :: parts, post => pre.map .code ++ .literal value :: meant parts post

theorem outside_template {q : α} {parts : List (List α × List α)} {value post : List α} {m : Mode α}
    (quote : Q.isQuote q = true) (between : ∀ p ∈ parts, Clean Q p.1) (last : Clean Q post)
    (outside : Outside Q q m) :
    after Q m (doubled q value ++ q :: template q parts post) ≠ .code := by
  induction parts generalizing value m with
  | nil =>
    rw [after_append, template, after_cons]
    exact outside_open quote (outside_doubled quote outside) last
  | cons p parts ih =>
    rw [after_append, template, after_cons, after_append, after_cons]
    exact ih (fun p mem => between p (List.mem_cons_of_mem _ mem))
      (outside_pair quote (outside_doubled quote outside) (between p List.mem_cons_self))

def Closes (Q : Quoting α) (q : α) (value : List α) : Prop :=
  q ∉ value ∧ after Q (.inside q []) value = .inside q value

def Adjacent (ps : List (Piece α)) : Prop :=
  ∃ front x y back, ps = front ++ .literal x :: .literal y :: back

omit [DecidableEq α] in
theorem Adjacent.append_left {ps : List (Piece α)} (adjacent : Adjacent ps)
    (front : List (Piece α)) : Adjacent (front ++ ps) := by
  obtain ⟨before, x, y, back, rfl⟩ := adjacent
  exact ⟨front ++ before, x, y, back, by rw [List.append_assoc]⟩

theorem closes_of_plain {q : α} {value : List α} (unquoted : q ∉ value)
    (unescaped : Q.escape ∉ value) : Closes Q q value := by
  have stays (raw : List α) : after Q (.inside q raw) value = .inside q (raw ++ value) := by
    induction value generalizing raw with
    | nil => simp
    | cons a value ih =>
      have other : a ≠ q := fun same => unquoted (same ▸ List.mem_cons_self)
      have plain : a ≠ Q.escape := fun same => unescaped (same ▸ List.mem_cons_self)
      have step : next Q (.inside q raw) a = .inside q (raw ++ [a]) := by
        rw [next, if_neg plain, if_neg other]
      rw [after_cons, step, ih (List.not_mem_of_not_mem_cons unquoted)
        (List.not_mem_of_not_mem_cons unescaped), List.append_assoc, List.singleton_append]
  exact ⟨unquoted, stays []⟩

theorem closing {q : α} (raw : List α) (quote : Q.isQuote q = true) :
    next Q (.inside q raw) q = .code ∧ emit Q (.inside q raw) q = [.literal raw] := by
  have plain := quote_plain quote
  exact ⟨by rw [next, if_neg plain, if_pos rfl], by rw [emit, if_neg plain, if_pos rfl]⟩

theorem opening {q : α} (quote : Q.isQuote q = true) :
    next Q .code q = .inside q [] ∧ emit Q .code q = [] := by
  constructor
  · simp [next, quote]
  · simp [emit, quote]

theorem escaped_template {q : α} {parts : List (List α × List α)} {raw post : List α}
    (quote : Q.isQuote q = true) (between : ∀ p ∈ parts, Clean Q p.1) (last : Clean Q post) :
    after Q (.escaped q raw) (q :: template q parts post) ≠ .code := by
  have step : next Q (.escaped q raw) q = .inside q (raw ++ [q]) := rfl
  rw [after_cons, step]
  cases parts with
  | nil =>
    obtain ⟨raw', stays⟩ := inside_clean quote last
    rw [template, stays]
    exact fun h => nomatch h
  | cons p parts =>
    obtain ⟨raw', stays⟩ := inside_clean quote (between p List.mem_cons_self)
    rw [template, after_append, stays, after_cons, (closing raw' quote).1]
    exact outside_template quote (fun p mem => between p (List.mem_cons_of_mem _ mem)) last
      trivial

/-- A value is read as it was written, or its first quote ends the literal and opens the
next one at once. -/
theorem value_read {q : α} {parts : List (List α × List α)} {value post : List α}
    (quote : Q.isQuote q = true) (between : ∀ p ∈ parts, Clean Q p.1) (last : Clean Q post)
    (accepted : after Q (.inside q []) (doubled q value ++ q :: template q parts post) = .code) :
    Closes Q q value ∨
      Adjacent (pieces Q (.inside q []) (doubled q value ++ q :: template q parts post)) := by
  by_cases quoted : q ∈ value
  · right
    obtain ⟨front, back, split, unquoted⟩ := List.eq_append_cons_of_mem quoted
    have written : doubled q value = front ++ q :: q :: doubled q back := by
      have first := doubled_of_not_mem unquoted
      rw [doubled] at first
      rw [split, doubled, List.flatMap_append, List.flatMap_cons, first, if_pos rfl]
      rfl
    obtain ⟨silent, -, ends, -⟩ := inside_unquoted (Q := Q) unquoted []
    rw [List.nil_append] at ends
    rw [written, List.append_assoc, after_append] at accepted
    rw [written, List.append_assoc, pieces_append, silent, List.nil_append]
    rcases ends with ends | ends
    · rw [ends]
      rw [ends, List.cons_append, List.cons_append, after_cons, (closing front quote).1,
        after_cons, (opening quote).1] at accepted
      obtain ⟨second, rest, shown⟩ := (open_closed [] _).1 accepted
      rw [List.cons_append, List.cons_append, pieces_cons, (closing front quote).1,
        (closing front quote).2, pieces_cons, (opening quote).1, (opening quote).2, shown]
      exact ⟨[], front, second, rest, rfl⟩
    · have step : next Q (.escaped q front) q = .inside q (front ++ [q]) := rfl
      rw [ends, List.cons_append, List.cons_append, after_cons, step, after_cons,
        (closing _ quote).1] at accepted
      exact absurd accepted (outside_template quote between last trivial)
  · left
    obtain ⟨-, -, ends, -⟩ := inside_unquoted (Q := Q) quoted []
    rw [List.nil_append] at ends
    rcases ends with ends | ends
    · exact ⟨quoted, ends⟩
    · rw [doubled_of_not_mem quoted, after_append, ends] at accepted
      exact absurd accepted (escaped_template quote between last)

theorem template_read {q : α} {parts : List (List α × List α)} {post : List α}
    (quote : Q.isQuote q = true) (between : ∀ p ∈ parts, Clean Q p.1) (last : Clean Q post)
    (accepted : after Q .code (template q parts post) = .code) :
    (∀ p ∈ parts, Closes Q q p.2) ∨ Adjacent (pieces Q .code (template q parts post)) := by
  induction parts with
  | nil => exact Or.inl fun p mem => nomatch mem
  | cons p parts ih =>
    obtain ⟨pre, value⟩ := p
    have others : ∀ p ∈ parts, Clean Q p.1 := fun p mem => between p (List.mem_cons_of_mem _ mem)
    obtain ⟨stays, -⟩ := code_clean (between (pre, value) List.mem_cons_self)
    rw [template, after_append, stays, after_cons, (opening quote).1] at accepted
    rw [template, pieces_append, stays, pieces_cons, (opening quote).1]
    rcases value_read quote others last accepted with closes | adjacent
    · rw [doubled_of_not_mem closes.1, after_append, closes.2, after_cons,
        (closing value quote).1] at accepted
      rcases ih others accepted with rest | adjacent
      · left
        intro p mem
        rcases List.mem_cons.mp mem with rfl | mem
        · exact closes
        · exact rest p mem
      · right
        rw [doubled_of_not_mem closes.1, pieces_append, closes.2, pieces_cons,
          (closing value quote).1]
        exact (((adjacent.append_left _).append_left _).append_left _).append_left _
    · exact Or.inr ((adjacent.append_left _).append_left _)

theorem template_closed {q : α} {parts : List (List α × List α)} {post : List α}
    (quote : Q.isQuote q = true) (between : ∀ p ∈ parts, Clean Q p.1) (last : Clean Q post)
    (closes : ∀ p ∈ parts, Closes Q q p.2) :
    after Q .code (template q parts post) = .code ∧
      pieces Q .code (template q parts post) = meant parts post := by
  induction parts with
  | nil => exact code_clean last
  | cons p parts ih =>
    obtain ⟨pre, value⟩ := p
    obtain ⟨stays, shown⟩ := code_clean (between (pre, value) List.mem_cons_self)
    obtain ⟨accepted, rest⟩ := ih (fun p mem => between p (List.mem_cons_of_mem _ mem))
      fun p mem => closes p (List.mem_cons_of_mem _ mem)
    obtain ⟨unquoted, kept⟩ := closes (pre, value) List.mem_cons_self
    obtain ⟨silent, -⟩ := inside_unquoted (Q := Q) unquoted []
    constructor
    · rw [template, after_append, stays, after_cons, (opening quote).1,
        doubled_of_not_mem unquoted, after_append, kept, after_cons, (closing value quote).1,
        accepted]
    · rw [template, pieces_append, stays, shown, pieces_cons, (opening quote).1, (opening quote).2,
        doubled_of_not_mem unquoted, pieces_append, silent, kept, pieces_cons,
        (closing value quote).1, (closing value quote).2, rest]
      rfl

structure Escapes (α : Type*) where
  read : List α → Option (α × List α)
  shorter : ∀ {text : List α} {p : α × List α}, read text = some p → p.2.length < text.length

def unescape (Q : Quoting α) (E : Escapes α) (barred : α → Bool) : List α → Option (List α)
  | [] => some []
  | a :: text =>
    if a = Q.escape then
      match _read : E.read text with
      | none => none
      | some p => (unescape Q E barred p.2).map (p.1 :: ·)
    else if barred a then none
    else (unescape Q E barred text).map (a :: ·)
termination_by text => text.length
decreasing_by
  · exact Nat.lt_succ_of_lt (E.shorter _read)
  · exact Nat.lt_succ_self _

variable {E : Escapes α} {barred : α → Bool}

theorem unescape_plain {text : List α} (unescaped : Q.escape ∉ text)
    (allowed : ∀ a ∈ text, barred a = false) : unescape Q E barred text = some text := by
  induction text with
  | nil => rw [unescape]
  | cons a text ih =>
    have plain : a ≠ Q.escape := fun same => unescaped (same ▸ List.mem_cons_self)
    have rest := ih (List.not_mem_of_not_mem_cons unescaped) fun b mem =>
      allowed b (List.mem_cons_of_mem a mem)
    rw [unescape, if_neg plain, allowed a List.mem_cons_self, if_neg Bool.false_ne_true, rest]
    rfl

/-- Every escape shortens: only a text without one denotes itself. -/
theorem unescape_some {text value : List α} (read : unescape Q E barred text = some value) :
    value.length ≤ text.length ∧ (Q.escape ∈ text → value.length < text.length) ∧
      (Q.escape ∉ text → value = text ∧ ∀ a ∈ text, barred a = false) := by
  induction text using unescape.induct Q E barred generalizing value with
  | case1 =>
    rw [unescape] at read
    rw [← Option.some.inj read]
    simp
  | case2 text bad =>
    rw [unescape, if_pos rfl] at read
    split at read
    · exact nomatch read
    · rename_i p found
      exact nomatch bad.symm.trans found
  | case3 text p found ih =>
    rw [unescape, if_pos rfl] at read
    split at read
    · exact nomatch read
    · rename_i p' found'
      obtain rfl := Option.some.inj (found.symm.trans found')
      obtain ⟨rest, decoded, rfl⟩ := Option.map_eq_some_iff.mp read
      have short := E.shorter found
      have less := (ih decoded).1
      simp only [List.length_cons]
      refine ⟨by omega, fun _ => by omega, fun absent => ?_⟩
      exact absurd List.mem_cons_self absent
  | case4 a text plain bar =>
    rw [unescape, if_neg plain, if_pos bar] at read
    exact nomatch read
  | case5 a text plain allowed ih =>
    rw [unescape, if_neg plain, if_neg allowed] at read
    obtain ⟨rest, decoded, rfl⟩ := Option.map_eq_some_iff.mp read
    obtain ⟨less, strict, same⟩ := ih decoded
    refine ⟨Nat.succ_le_succ less, fun mem => ?_, fun absent => ?_⟩
    · rcases List.mem_cons.mp mem with here | there
      · exact absurd here.symm plain
      · exact Nat.succ_lt_succ (strict there)
    · obtain ⟨rfl, clear⟩ := same (List.not_mem_of_not_mem_cons absent)
      refine ⟨rfl, fun b mem => ?_⟩
      rcases List.mem_cons.mp mem with rfl | mem
      · exact Bool.eq_false_iff.mpr allowed
      · exact clear b mem

end KnowledgeCompanion.QuotedScan
