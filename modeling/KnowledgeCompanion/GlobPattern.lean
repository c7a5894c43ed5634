import Mathlib.Computability.Language

/-! Glob patterns with the operators of the Redis manual: `*`, `?`, `[...]` with
ranges and `^`, and the backslash. The matcher is executable; its meaning is a
product of languages, one factor for each piece of the pattern. -/

namespace KnowledgeCompanion.GlobPattern

inductive ClassItem (α : Type*)
  | one (a : α)
  | range (a b : α)

inductive Single (α : Type*)
  | any
  | lit (a : α)
  | cls (negated : Bool) (items : List (ClassItem α))

inductive Piece (α : Type*)
  | star
  | single (q : Single α)

section Matching

variable {α : Type*} [LinearOrder α]

def ClassItem.has : ClassItem α → α → Bool
  | .one a, c => c == a
  | .range a b, c => decide (min a b ≤ c) && decide (c ≤ max a b)

def Single.accepts : Single α → α → Bool
  | .any, _ => true
  | .lit a, c => c == a
  | .cls negated items, c => negated ^^ items.any (·.has c)

def globMatch : List (Piece α) → List α → Bool
  | [], s => s.isEmpty
  | .star :: p, s => s.tails.any (globMatch p)
  | .single _ :: _, [] => false
  | .single q :: p, c :: s => q.accepts c && globMatch p s

def Piece.language : Piece α → Language α
  | .star => ⊤
  | .single q => {w | ∃ c, q.accepts c = true ∧ w = [c]}

def language (p : List (Piece α)) : Language α := (p.map Piece.language).prod

theorem mem_language_nil {s : List α} : s ∈ language ([] : List (Piece α)) ↔ s = [] :=
  Language.mem_one s

theorem language_cons (x : Piece α) (p : List (Piece α)) :
    language (x :: p) = x.language * language p := by
  simp [language]

theorem mem_language_append {p q : List (Piece α)} {s : List α} :
    s ∈ language (p ++ q) ↔ ∃ a ∈ language p, ∃ b ∈ language q, a ++ b = s := by
  simp only [language, List.map_append, List.prod_append, Language.mem_mul]

theorem mem_language_star {p : List (Piece α)} {s : List α} :
    s ∈ language (.star :: p) ↔ ∃ t ∈ s.tails, t ∈ language p := by
  rw [language_cons, Language.mem_mul]
  constructor
  · rintro ⟨a, _, b, hb, rfl⟩
    exact ⟨b, (List.mem_tails _ _).mpr (List.suffix_append a b), hb⟩
  · rintro ⟨t, ht, hp⟩
    obtain ⟨a, rfl⟩ := (List.mem_tails _ _).mp ht
    exact ⟨a, trivial, t, hp, rfl⟩

theorem mem_language_single {q : Single α} {p : List (Piece α)} {s : List α} :
    s ∈ language (.single q :: p) ↔ ∃ c t, s = c :: t ∧ q.accepts c = true ∧ t ∈ language p := by
  rw [language_cons, Language.mem_mul]
  constructor
  · rintro ⟨a, ⟨c, hc, rfl⟩, b, hb, rfl⟩
    exact ⟨c, b, rfl, hc, hb⟩
  · rintro ⟨c, t, rfl, hc, ht⟩
    exact ⟨[c], ⟨c, hc, rfl⟩, t, ht, rfl⟩

theorem globMatch_iff (p : List (Piece α)) (s : List α) :
    globMatch p s = true ↔ s ∈ language p := by
  induction p generalizing s with
  | nil => rw [globMatch, List.isEmpty_iff, mem_language_nil]
  | cons x p ih =>
    cases x with
    | star => simp only [globMatch, List.any_eq_true, mem_language_star, ih]
    | single q =>
      rw [mem_language_single]
      cases s with
      | nil => simp [globMatch]
      | cons c s => simp [globMatch, ih]

def literal (w : List α) : List (Piece α) := w.map fun a => .single (.lit a)

theorem mem_language_literal {w s : List α} : s ∈ language (literal w) ↔ s = w := by
  induction w generalizing s with
  | nil => exact mem_language_nil
  | cons a w ih =>
    change s ∈ language (.single (.lit a) :: literal w) ↔ _
    rw [mem_language_single]
    constructor
    · rintro ⟨c, t, rfl, hc, ht⟩
      rw [ih.mp ht, eq_of_beq hc]
    · rintro rfl
      exact ⟨a, w, rfl, beq_self_eq_true a, ih.mpr rfl⟩

theorem mem_language_literal_append {w s : List α} {p : List (Piece α)} :
    s ∈ language (literal w ++ p) ↔ ∃ t ∈ language p, s = w ++ t := by
  rw [mem_language_append]
  constructor
  · rintro ⟨a, ha, b, hb, rfl⟩
    exact ⟨b, hb, by rw [mem_language_literal.mp ha]⟩
  · rintro ⟨t, ht, rfl⟩
    exact ⟨w, mem_language_literal.mpr rfl, t, ht, rfl⟩

end Matching

section Syntax

inductive Mode
  | top
  | cls (negated : Bool) (items : List (ClassItem Char))

def pieces : Mode → List Char → List (Piece Char)
  | .top, [] => []
  | .top, '*' :: p => .star :: pieces .top p
  | .top, '?' :: p => .single .any :: pieces .top p
  | .top, '[' :: '^' :: p => pieces (.cls true []) p
  | .top, '[' :: p => pieces (.cls false []) p
  | .top, '\\' :: c :: p => .single (.lit c) :: pieces .top p
  | .top, c :: p => .single (.lit c) :: pieces .top p
  | .cls n items, [] => [.single (.cls n items)]
  | .cls n items, '\\' :: c :: p => pieces (.cls n (items ++ [.one c])) p
  | .cls n items, ']' :: p => .single (.cls n items) :: pieces .top p
  | .cls n items, a :: '-' :: b :: p => pieces (.cls n (items ++ [.range a b])) p
  | .cls n items, a :: p => pieces (.cls n (items ++ [.one a])) p

def parse (pattern : List Char) : List (Piece Char) := pieces .top pattern

def isMeta (c : Char) : Bool := c == '*' || c == '?' || c == '[' || c == '\\'

theorem parse_literal {w : List Char} (plain : ∀ c ∈ w, isMeta c = false) (p : List Char) :
    parse (w ++ p) = literal w ++ parse p := by
  induction w with
  | nil => rfl
  | cons c w ih =>
    have tail := ih fun d hd => plain d (List.mem_cons_of_mem c hd)
    have here := plain c List.mem_cons_self
    simp only [isMeta, Bool.or_eq_false_iff, beq_eq_false_iff_ne] at here
    obtain ⟨⟨⟨star, any⟩, open_⟩, slash⟩ := here
    have step : parse (c :: (w ++ p)) = .single (.lit c) :: parse (w ++ p) := by
      rw [parse, pieces] <;> simp_all [parse]
    rw [List.cons_append, step, tail]
    rfl

end Syntax

end KnowledgeCompanion.GlobPattern
