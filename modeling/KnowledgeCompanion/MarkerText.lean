import Mathlib.Tactic.Common
import Mathlib.Data.List.Basic
import Mathlib.Data.List.TakeWhile

/-! Texts with numbered markers `[^n]`, read from left to right by a pattern for the
digits of a number, and the substitution of their numbers. -/

namespace KnowledgeCompanion.MarkerText

structure Alphabet where
  digit : Char → Bool
  opening : digit '[' = false
  closing : digit ']' = false

inductive Token
  | lit (c : Char)
  | marker (digits : List Char)
deriving DecidableEq

def Token.chars : Token → List Char
  | .lit c => [c]
  | .marker digits => '[' :: '^' :: (digits ++ [']'])

def render (ts : List Token) : List Char := ts.flatMap Token.chars

def relabel (f : List Char → List Char) : Token → Token
  | .lit c => .lit c
  | .marker digits => .marker (f digits)

variable (a : Alphabet)

def markerAt : List Char → Option (List Char)
  | '[' :: '^' :: rest =>
    if rest.takeWhile a.digit ≠ [] ∧ (rest.dropWhile a.digit).head? = some ']' then
      some (rest.takeWhile a.digit)
    else none
  | _ => none

/-- The tokens, where the next `skip` characters belong to the last marker. -/
def scan : ℕ → List Char → List Token
  | _, [] => []
  | skip + 1, _ :: cs => scan skip cs
  | 0, c :: cs =>
    match markerAt a (c :: cs) with
    | some digits => .marker digits :: scan (digits.length + 2) cs
    | none => .lit c :: scan 0 cs

def tokens (text : List Char) : List Token := scan a 0 text

def sub (f : List Char → List Char) (text : List Char) : List Char :=
  render ((tokens a text).map (relabel f))

def Number (digits : List Char) : Prop := digits ≠ [] ∧ ∀ c ∈ digits, a.digit c = true

def Parsed : List Token → Prop
  | [] => True
  | .lit c :: ts => markerAt a (c :: render ts) = none ∧ Parsed ts
  | .marker digits :: ts => Number a digits ∧ Parsed ts

variable {a}

theorem render_cons (t : Token) (ts : List Token) : render (t :: ts) = t.chars ++ render ts := rfl

theorem markerAt_some {text digits : List Char} (found : markerAt a text = some digits) :
    Number a digits ∧ ∃ rest, text = '[' :: '^' :: (digits ++ ']' :: rest) := by
  unfold markerAt at found
  split at found
  · rename_i rest
    split at found
    · rename_i here
      rw [← Option.some.inj found]
      refine ⟨⟨here.1, fun c mem => List.mem_takeWhile_imp mem⟩, ?_⟩
      obtain ⟨tail, last⟩ : ∃ tail, rest.dropWhile a.digit = ']' :: tail := by
        cases left : rest.dropWhile a.digit with
        | nil => simp [left] at here
        | cons c tail =>
          rw [left] at here
          exact ⟨tail, by rw [Option.some.inj here.2]⟩
      refine ⟨tail, ?_⟩
      rw [← last, List.takeWhile_append_dropWhile]
    · cases found
  · cases found

theorem markerAt_marker {digits rest : List Char} (number : Number a digits) :
    markerAt a ('[' :: '^' :: (digits ++ ']' :: rest)) = some digits := by
  have all : digits.takeWhile a.digit = digits := List.takeWhile_eq_self_iff.mpr number.2
  have taken : (digits ++ ']' :: rest).takeWhile a.digit = digits := by
    rw [List.takeWhile_append, all, if_pos rfl, List.takeWhile_cons_of_neg (by simp [a.closing]),
      List.append_nil]
  have none : digits.dropWhile a.digit = [] := List.dropWhile_eq_nil_iff.mpr number.2
  have left : (digits ++ ']' :: rest).dropWhile a.digit = ']' :: rest := by
    rw [List.dropWhile_append, none, List.isEmpty_nil, if_pos rfl,
      List.dropWhile_cons_of_neg (by simp [a.closing])]
  rw [markerAt, taken, left, if_pos ⟨number.1, rfl⟩]

theorem scan_skip (n : ℕ) (text : List Char) : scan a n text = scan a 0 (text.drop n) := by
  induction text generalizing n with
  | nil => rw [List.drop_nil, scan, scan]
  | cons c cs ih =>
    cases n with
    | zero => rfl
    | succ n =>
      rw [scan, ih, List.drop_succ_cons]

theorem scan_marker {digits rest : List Char} (number : Number a digits) :
    tokens a ((Token.marker digits).chars ++ rest) = .marker digits :: tokens a rest := by
  have text : (Token.marker digits).chars ++ rest = '[' :: '^' :: (digits ++ ']' :: rest) := by
    simp [Token.chars]
  rw [text, tokens, scan, markerAt_marker number]
  dsimp only
  rw [scan_skip, tokens]
  have after : ('^' :: (digits ++ ']' :: rest)).drop (digits.length + 2) = rest := by
    rw [List.drop_succ_cons, List.drop_append]
    simp
  rw [after]

theorem tokens_spec (text : List Char) :
    render (tokens a text) = text ∧ Parsed a (tokens a text) := by
  induction size : text.length using Nat.strongRecOn generalizing text with
  | _ n ih =>
    cases text with
    | nil => exact ⟨rfl, trivial⟩
    | cons c cs =>
      rw [List.length_cons] at size
      cases found : markerAt a (c :: cs) with
      | none =>
        obtain ⟨same, parsed⟩ := ih cs.length (by omega) cs rfl
        have first : tokens a (c :: cs) = .lit c :: tokens a cs := by
          rw [tokens, scan, found]
          rfl
        rw [first]
        refine ⟨?_, ?_, parsed⟩
        · rw [render_cons, same]
          rfl
        · rw [same]
          exact found
      | some digits =>
        obtain ⟨number, rest, text⟩ := markerAt_some found
        have whole : c :: cs = (Token.marker digits).chars ++ rest := by
          rw [text]
          simp [Token.chars]
        have shorter : rest.length < n := by
          have lengths := congrArg List.length text
          simp only [List.length_cons, List.length_append] at lengths
          omega
        obtain ⟨same, parsed⟩ := ih rest.length shorter rest rfl
        rw [whole, scan_marker number]
        exact ⟨by rw [render_cons, same], number, parsed⟩

theorem render_tokens (text : List Char) : render (tokens a text) = text := (tokens_spec text).1

theorem parsed_tokens (text : List Char) : Parsed a (tokens a text) := (tokens_spec text).2

theorem tokens_render {ts : List Token} (parsed : Parsed a ts) : tokens a (render ts) = ts := by
  induction ts with
  | nil => rfl
  | cons t ts ih =>
    cases t with
    | lit c =>
      obtain ⟨none, rest⟩ := parsed
      have first : tokens a (c :: render ts) = .lit c :: tokens a (render ts) := by
        rw [tokens, scan, none]
        rfl
      rw [render_cons, Token.chars, List.singleton_append, first, ih rest]
    | marker digits =>
      obtain ⟨number, rest⟩ := parsed
      rw [render_cons, scan_marker number, ih rest]

/-- The literals before the first marker decide whether a literal starts a marker. -/
theorem markerAt_lits {c : Char} {lits tail tail' : List Char}
    (stop : ∀ d, tail'.head? = some d → d = '[')
    (plain : markerAt a (c :: (lits ++ tail)) = none) :
    markerAt a (c :: (lits ++ tail')) = none := by
  cases found : markerAt a (c :: (lits ++ tail')) with
  | none => rfl
  | some digits =>
    obtain ⟨number, rest, text⟩ := markerAt_some found
    obtain ⟨rfl, after⟩ := List.cons.inj text
    have word : lits ++ tail' = ('^' :: (digits ++ [']'])) ++ rest := by
      rw [after]
      simp
    have noBracket : '[' ∉ '^' :: (digits ++ [']']) := by
      intro mem
      rcases List.mem_cons.mp mem with caret | later
      · exact absurd caret (by decide)
      · rcases List.mem_append.mp later with inside | last
        · have digit := number.2 _ inside
          rw [a.opening] at digit
          cases digit
        · exact absurd (List.mem_singleton.mp last) (by decide)
    -- a marker within the literals would stand there as well before the other tail
    have within (more : List Char) (long : lits = '^' :: (digits ++ [']']) ++ more) : False := by
      have there : '[' :: (lits ++ tail) = '[' :: '^' :: (digits ++ ']' :: (more ++ tail)) := by
        rw [long]
        simp
      rw [there, markerAt_marker number] at plain
      cases plain
    exfalso
    rcases List.append_eq_append_iff.mp word with ⟨more, long, rests⟩ | ⟨more, long, -⟩
    · cases more with
      | nil =>
        rw [List.append_nil] at long
        exact within [] (by rw [long, List.append_nil])
      | cons d more =>
        have bracket := stop d (by rw [rests]; rfl)
        apply noBracket
        rw [long, ← bracket]
        simp
    · exact within more long

theorem head_render_relabel (f : List Char → List Char) (ts : List Token) :
    ∃ lits tail tail', render ts = lits ++ tail ∧ render (ts.map (relabel f)) = lits ++ tail' ∧
      ∀ d, tail'.head? = some d → d = '[' := by
  induction ts with
  | nil => exact ⟨[], [], [], rfl, rfl, by simp⟩
  | cons t ts ih =>
    cases t with
    | lit c =>
      obtain ⟨lits, tail, tail', before, after, stop⟩ := ih
      refine ⟨c :: lits, tail, tail', ?_, ?_, stop⟩
      · rw [render_cons, before]
        rfl
      · rw [List.map_cons, render_cons, after]
        rfl
    | marker digits =>
      refine ⟨[], _, _, rfl, rfl, fun d head => ?_⟩
      exact (Option.some.inj head).symm

def Proper (a : Alphabet) (f : List Char → List Char) : Prop :=
  ∀ digits, Number a digits → Number a (f digits)

theorem parsed_relabel {f : List Char → List Char} {ts : List Token} (proper : Proper a f)
    (parsed : Parsed a ts) : Parsed a (ts.map (relabel f)) := by
  induction ts with
  | nil => trivial
  | cons t ts ih =>
    cases t with
    | lit c =>
      obtain ⟨plain, rest⟩ := parsed
      obtain ⟨lits, tail, tail', before, after, stop⟩ := head_render_relabel f ts
      refine ⟨?_, ih rest⟩
      rw [before] at plain
      rw [after]
      exact markerAt_lits stop plain
    | marker digits => exact ⟨proper digits parsed.1, ih parsed.2⟩

theorem tokens_sub {f : List Char → List Char} (proper : Proper a f) (text : List Char) :
    tokens a (sub a f text) = (tokens a text).map (relabel f) :=
  tokens_render (parsed_relabel proper (parsed_tokens text))

theorem relabel_relabel (f g : List Char → List Char) (t : Token) :
    relabel g (relabel f t) = relabel (g ∘ f) t := by cases t <;> rfl

theorem sub_sub {f g : List Char → List Char} (proper : Proper a f) (text : List Char) :
    sub a g (sub a f text) = sub a (g ∘ f) text := by
  have fused : relabel g ∘ relabel f = relabel (g ∘ f) := funext (relabel_relabel f g)
  rw [sub, tokens_sub proper, sub, List.map_map, fused]

theorem sub_id (text : List Char) : sub a id text = text := by
  have same : (tokens a text).map (relabel id) = tokens a text := by
    conv_rhs => rw [← List.map_id (tokens a text)]
    refine List.map_congr_left fun t _ => ?_
    cases t <;> rfl
  rw [sub, same, render_tokens]

theorem sub_eq_sub_iff {f g : List Char → List Char} (properF : Proper a f)
    (properG : Proper a g) {text : List Char} :
    sub a f text = sub a g text ↔ ∀ digits, .marker digits ∈ tokens a text →
      f digits = g digits := by
  have tokenwise : sub a f text = sub a g text ↔
      (tokens a text).map (relabel f) = (tokens a text).map (relabel g) := by
    constructor
    · intro same
      rw [← tokens_sub properF, ← tokens_sub properG, same]
    · intro same
      rw [sub, sub, same]
  rw [tokenwise, List.map_inj_left]
  constructor
  · intro same digits mem
    exact Token.marker.inj (same _ mem)
  · intro same t mem
    cases t with
    | lit c => rfl
    | marker digits => exact congrArg Token.marker (same digits mem)

def relabelSome (f : List Char → Option (List Char)) : Token → Option Token
  | .lit c => some (.lit c)
  | .marker digits => (f digits).map .marker

def edit (a : Alphabet) (f : List Char → Option (List Char)) (text : List Char) : List Char :=
  render ((tokens a text).filterMap (relabelSome f))

theorem chars_length_pos (t : Token) : 0 < t.chars.length := by
  cases t <;> simp [Token.chars]

theorem render_length_le {f : List Char → List Char} {g : List Char → Option (List Char)}
    {ts : List Token} (agree : ∀ t ∈ ts, ∀ t' ∈ relabelSome g t, t' = relabel f t) :
    (render (ts.filterMap (relabelSome g))).length ≤ (render (ts.map (relabel f))).length := by
  induction ts with
  | nil => exact le_refl _
  | cons t ts ih =>
    have rest := ih fun t' later => agree t' (List.mem_cons_of_mem t later)
    rw [List.map_cons, render_cons, List.length_append]
    cases kept : relabelSome g t with
    | none =>
      rw [List.filterMap_cons_none kept]
      omega
    | some t' =>
      have same := agree t List.mem_cons_self t' kept
      rw [List.filterMap_cons_some kept, render_cons, List.length_append, same]
      omega

theorem render_eq_iff {f : List Char → List Char} {g : List Char → Option (List Char)}
    {ts : List Token} (agree : ∀ t ∈ ts, ∀ t' ∈ relabelSome g t, t' = relabel f t) :
    render (ts.map (relabel f)) = render (ts.filterMap (relabelSome g)) ↔
      ∀ t ∈ ts, relabelSome g t = some (relabel f t) := by
  induction ts with
  | nil => simp
  | cons t ts ih =>
    have later : ∀ t' ∈ ts, ∀ t'' ∈ relabelSome g t', t'' = relabel f t' :=
      fun t' mem => agree t' (List.mem_cons_of_mem t mem)
    rw [List.map_cons, render_cons, List.forall_mem_cons, ← ih later]
    cases kept : relabelSome g t with
    | none =>
      have shorter := render_length_le later
      have some_ := chars_length_pos (relabel f t)
      rw [List.filterMap_cons_none kept]
      constructor
      · intro same
        have lengths := congrArg List.length same
        rw [List.length_append] at lengths
        omega
      · intro both
        exact absurd both.1.symm (Option.some_ne_none _)
    | some t' =>
      have same := agree t List.mem_cons_self t' kept
      rw [List.filterMap_cons_some kept, render_cons, same]
      simp

theorem sub_eq_edit_iff {f : List Char → List Char} {g : List Char → Option (List Char)}
    {text : List Char}
    (agree : ∀ digits, .marker digits ∈ tokens a text → ∀ new ∈ g digits, new = f digits) :
    sub a f text = edit a g text ↔
      ∀ digits, .marker digits ∈ tokens a text → g digits = some (f digits) := by
  have tokenwise : ∀ t ∈ tokens a text, ∀ t' ∈ relabelSome g t, t' = relabel f t := by
    intro t mem t' kept
    cases t with
    | lit c => exact (Option.some.inj kept).symm
    | marker digits =>
      obtain ⟨new, given, rfl⟩ := Option.map_eq_some_iff.mp kept
      rw [agree digits mem new given]
      rfl
  rw [sub, edit, render_eq_iff tokenwise]
  constructor
  · intro all digits mem
    obtain ⟨new, given, same⟩ := Option.map_eq_some_iff.mp (all _ mem)
    rw [given, Token.marker.inj same]
  · intro all t mem
    cases t with
    | lit c => rfl
    | marker digits =>
      rw [relabelSome, all digits mem]
      rfl

end KnowledgeCompanion.MarkerText
