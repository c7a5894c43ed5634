import KnowledgeCompanion.LlmObservations
import KnowledgeCompanion.Replacement

/-! What the observer of the language models exports (`observability/llm/observer.py`): texts
with the values of credentials replaced, cut to the configured length. -/

namespace KnowledgeCompanion.ObserverRedaction

open PythonText Replacement
open LlmObservations (LLMGenerationEvent)

/-- What a letter matches when case is ignored; a Turkish i, a long s and the sign of kelvin are
among it. -/
def ignoringCase (c : Char) : List Char :=
  [c, c.toUpper] ++
    if c = 'i' then ['İ', 'ı'] else if c = 's' then ['ſ'] else if c = 'k' then ['\u212A'] else []

abbrev Word := List (List Char)

def word (w : String) : Word := w.toList.map ignoringCase

/-- The alternatives of `api[_-]?key|authorization|bearer|jwt|password|secret|token`. -/
def names : List Word :=
  [word "api" ++ ['_', '-'] :: word "key", word "apikey", word "authorization", word "bearer",
    word "jwt", word "password", word "secret", word "token"]

def Word.matches : Word → Text → Bool
  | [], _ => true
  | _ :: _, [] => false
  | cls :: w, c :: t => decide (c ∈ cls) && Word.matches w t

def isSeparator (c : Char) : Bool := c == ':' || c == '='

def isValueChar (c : Char) : Bool := !isSpace c && c != ',' && c != ';'

def assignmentAt (t : Text) : Option ℕ :=
  match t.dropWhile isSpace with
  | [] => none
  | c :: rest =>
    if isSeparator c then
      match (rest.dropWhile isSpace).takeWhile isValueChar with
      | [] => none
      | v :: value =>
        some ((t.takeWhile isSpace).length + 1 + (rest.takeWhile isSpace).length +
          (v :: value).length)
    else none

def sensitive : Matcher Char := fun _ t =>
  names.findSome? fun w =>
    if Word.matches w t then (assignmentAt (t.drop w.length)).map fun n => (w.length, w.length + n)
    else none

def replacement : Text := "=[REDACTED]".toList

/-- `text[:n]`, where a negative `n` counts from the end. -/
def upTo (text : Text) (n : ℤ) : Text :=
  if 0 ≤ n then text.take n.toNat else text.take (text.length - n.natAbs)

structure Redactor where
  enabled : Bool := true
  maxPromptChars : ℤ := 2000
  maxCompletionChars : ℤ := 2000

def Redactor.sanitize (redactor : Redactor) (value : Text) (maxChars : ℤ) : Text :=
  if redactor.enabled then upTo (replace sensitive replacement value) maxChars
  else upTo value maxChars

def Redactor.prompt (redactor : Redactor) (value : Text) : Text :=
  redactor.sanitize value redactor.maxPromptChars

def Redactor.completion (redactor : Redactor) (value : Text) : Text :=
  redactor.sanitize value redactor.maxCompletionChars

structure LLMObserverConfig where
  redact : Bool := true
  maxPromptChars : ℤ := 2000
  maxCompletionChars : ℤ := 2000

def sanitizeEvent (event : LLMGenerationEvent) (config : LLMObserverConfig) : LLMGenerationEvent :=
  let redactor : Redactor := ⟨config.redact, config.maxPromptChars, config.maxCompletionChars⟩
  { event with
    prompt := redactor.prompt event.prompt
    completion := redactor.completion event.completion }

theorem takeWhile_of_head {p : Char → Bool} {t : Text} (stops : ∀ c ∈ t.head?, p c = false) :
    t.takeWhile p = [] := by
  cases t with
  | nil => rfl
  | cons c t => exact List.takeWhile_cons_of_neg (Bool.eq_false_iff.mp (stops c rfl))

theorem dropWhile_of_head {p : Char → Bool} {t : Text} (stops : ∀ c ∈ t.head?, p c = false) :
    t.dropWhile p = t := by
  cases t with
  | nil => rfl
  | cons c t => exact List.dropWhile_cons_of_neg (Bool.eq_false_iff.mp (stops c rfl))

theorem head_dropWhile {p : Char → Bool} {t : Text} : ∀ c ∈ (t.dropWhile p).head?, p c = false := by
  intro c mem
  induction t with
  | nil => exact absurd mem nofun
  | cons x t ih =>
    cases here : p x with
    | true => exact ih (by rwa [List.dropWhile_cons_of_pos here] at mem)
    | false =>
      rw [List.dropWhile_cons_of_neg (Bool.eq_false_iff.mp here)] at mem
      rwa [← Option.some.inj mem]

/-- The parts of a match of `\s*[:=]\s*([^\s,;]+)` and what follows it. -/
structure IsAssignment (gap : Text) (sep : Char) (gap' value after : Text) : Prop where
  blank : ∀ c ∈ gap, isSpace c = true
  separates : isSeparator sep = true
  blank' : ∀ c ∈ gap', isSpace c = true
  some : value ≠ []
  plain : ∀ c ∈ value, isValueChar c = true
  ends : ∀ c ∈ after.head?, isValueChar c = false

theorem isSpace_of_isSeparator {c : Char} (h : isSeparator c = true) : isSpace c = false := by
  rcases Bool.or_eq_true_iff.mp h with colon | equals
  · rw [eq_of_beq colon]
    decide
  · rw [eq_of_beq equals]
    decide

theorem isSpace_of_isValueChar {c : Char} (h : isValueChar c = true) : isSpace c = false := by
  rw [isValueChar, Bool.and_eq_true, Bool.and_eq_true, Bool.not_eq_true'] at h
  exact h.1.1

namespace IsAssignment

variable {gap gap' value after : Text} {sep : Char}

theorem assignmentAt_eq (h : IsAssignment gap sep gap' value after) :
    assignmentAt (gap ++ sep :: (gap' ++ (value ++ after))) =
      Option.some (gap.length + 1 + gap'.length + value.length) := by
  have first : ∀ c ∈ (sep :: (gap' ++ (value ++ after))).head?, isSpace c = false := by
    intro c mem
    rw [← Option.some.inj mem]
    exact isSpace_of_isSeparator h.separates
  have second : ∀ c ∈ (value ++ after).head?, isSpace c = false := by
    intro c mem
    obtain ⟨v, rest, same⟩ := List.exists_cons_of_ne_nil h.some
    rw [same, List.cons_append, List.head?_cons] at mem
    refine isSpace_of_isValueChar (h.plain c ?_)
    rw [same, ← Option.some.inj mem]
    exact List.mem_cons_self
  unfold assignmentAt
  rw [List.dropWhile_append_of_pos h.blank, dropWhile_of_head first,
    List.takeWhile_append_of_pos h.blank, takeWhile_of_head first]
  dsimp only
  rw [if_pos h.separates, List.dropWhile_append_of_pos h.blank', dropWhile_of_head second,
    List.takeWhile_append_of_pos h.blank', takeWhile_of_head second,
    List.takeWhile_append_of_pos h.plain, takeWhile_of_head h.ends, List.append_nil,
    List.append_nil, List.append_nil]
  obtain ⟨v, rest, same⟩ := List.exists_cons_of_ne_nil h.some
  rw [same]

end IsAssignment

theorem assignmentAt_spec {t : Text} {n : ℕ} (found : assignmentAt t = some n) :
    ∃ gap sep gap' value after, IsAssignment gap sep gap' value after ∧
      t = gap ++ sep :: (gap' ++ (value ++ after)) ∧
      n = gap.length + 1 + gap'.length + value.length := by
  unfold assignmentAt at found
  split at found
  · exact absurd found nofun
  · rename_i c rest here
    split at found
    · rename_i separates
      split at found
      · exact absurd found nofun
      · rename_i v value run
        have blank (u : Text) : ∀ c ∈ u.takeWhile isSpace, isSpace c = true :=
          fun _ mem => List.mem_takeWhile_imp mem
        refine ⟨t.takeWhile isSpace, c, rest.takeWhile isSpace, v :: value,
          (rest.dropWhile isSpace).dropWhile isValueChar,
          ⟨blank t, separates, blank rest, List.cons_ne_nil v value, ?_, head_dropWhile⟩, ?_,
          (Option.some.inj found).symm⟩
        · intro c mem
          rw [← run] at mem
          exact List.mem_takeWhile_imp mem
        · rw [← run, List.takeWhile_append_dropWhile, List.takeWhile_append_dropWhile, ← here,
            List.takeWhile_append_dropWhile]
    · exact absurd found nofun

def Spells (w : Word) (u : Text) : Prop := List.Forall₂ (fun cls c => c ∈ cls) w u

theorem matches_iff {w : Word} {t : Text} :
    w.matches t = true ↔ ∃ u rest, Spells w u ∧ t = u ++ rest := by
  induction w generalizing t with
  | nil => exact iff_of_true rfl ⟨[], t, .nil, rfl⟩
  | cons cls w ih =>
    cases t with
    | nil =>
      refine iff_of_false Bool.false_ne_true ?_
      rintro ⟨u, rest, spells, same⟩
      cases spells
      exact nomatch same
    | cons c t =>
      rw [Word.matches, Bool.and_eq_true, decide_eq_true_iff, ih]
      constructor
      · rintro ⟨here, u, rest, spells, same⟩
        exact ⟨c :: u, rest, .cons here spells, by rw [same]; rfl⟩
      · rintro ⟨u, rest, spells, same⟩
        cases spells with
        | cons here spells =>
          obtain ⟨head, tail⟩ := List.cons.inj same
          exact ⟨head ▸ here, _, rest, spells, tail⟩

theorem spells_of_matches {w : Word} {u : Text} (matched : w.matches u = true)
    (length : u.length = w.length) : Spells w u := by
  obtain ⟨v, rest, spells, same⟩ := matches_iff.mp matched
  have whole := congrArg List.length same
  rw [List.length_append, length, ← List.Forall₂.length_eq spells] at whole
  have none_ : rest = [] := List.length_eq_zero_iff.mp (by omega)
  rwa [same, none_, List.append_nil]

theorem Spells.length {w : Word} {u : Text} (h : Spells w u) : u.length = w.length :=
  (List.Forall₂.length_eq h).symm

def clash (w w' : Word) : Bool := (w.zip w').any fun p => p.1.all fun c => decide (c ∉ p.2)

theorem not_matches_of_clash {w w' : Word} {t : Text} (clashes : clash w w' = true)
    (matched : w.matches t = true) : ¬w'.matches t = true := by
  induction w generalizing w' t with
  | nil => exact absurd clashes Bool.false_ne_true
  | cons cls w ih =>
    cases w' with
    | nil => exact absurd clashes Bool.false_ne_true
    | cons cls' w' =>
      cases t with
      | nil => exact absurd matched Bool.false_ne_true
      | cons c t =>
        rw [Word.matches, Bool.and_eq_true, decide_eq_true_iff] at matched ⊢
        rintro ⟨here, there⟩
        rw [clash, List.zip_cons_cons, List.any_cons, Bool.or_eq_true] at clashes
        rcases clashes with now | later
        · exact of_decide_eq_true (List.all_eq_true.mp now c matched.1) here
        · exact ih later matched.2 there

theorem names_clash : ∀ w ∈ names, ∀ w' ∈ names, w' = w ∨ clash w w' = true := by
  decide +kernel

def isNameChar (c : Char) : Bool := !isSpace c && !isSeparator c

theorem names_chars : ∀ w ∈ names, w ≠ [] ∧ ∀ cls ∈ w, ∀ c ∈ cls, isNameChar c = true := by
  have checked : names.all (fun w => !w.isEmpty && w.all fun cls => cls.all isNameChar) = true := by
    decide +kernel
  intro w mem
  have here := List.all_eq_true.mp checked w mem
  rw [Bool.and_eq_true, List.all_eq_true] at here
  refine ⟨?_, fun cls inside => List.all_eq_true.mp (here.2 cls inside)⟩
  rintro rfl
  exact Bool.false_ne_true here.1

theorem Spells.chars {w : Word} {u : Text} (mem : w ∈ names) (h : Spells w u) :
    ∀ c ∈ u, isNameChar c = true := by
  have chars := (names_chars w mem).2
  clear mem
  induction h with
  | nil => exact nofun
  | cons here _ ih =>
    exact List.forall_mem_cons.mpr ⟨chars _ List.mem_cons_self _ here,
      ih fun cls mem => chars cls (List.mem_cons_of_mem _ mem)⟩

theorem Spells.ne_nil {w : Word} {u : Text} (mem : w ∈ names) (h : Spells w u) : u ≠ [] := by
  intro empty
  rw [empty] at h
  cases h
  exact (names_chars [] mem).1 rfl

theorem findSome?_unique {β γ : Type} {f : β → Option γ} {xs : List β} {x : β} (mem : x ∈ xs)
    (only : ∀ y ∈ xs, y = x ∨ f y = none) : xs.findSome? f = f x := by
  induction xs with
  | nil => exact absurd mem List.not_mem_nil
  | cons y xs ih =>
    rw [List.findSome?_cons]
    cases found : f y with
    | some z =>
      rcases only y List.mem_cons_self with same | none_
      · rw [← same, found]
      · rw [none_] at found
        exact nomatch found
    | none =>
      rcases List.mem_cons.mp mem with here | there
      · rw [here, found, List.findSome?_eq_none_iff]
        intro z later
        rcases only z (List.mem_cons_of_mem y later) with same | none_
        · rw [same, here, found]
        · exact none_
      · exact ih there fun z later => only z (List.mem_cons_of_mem y later)

theorem sensitive_name {w : Word} {u : Text} (mem : w ∈ names) (spells : Spells w u)
    (q : Option Char) (rest : Text) :
    sensitive q (u ++ rest) = (assignmentAt rest).map fun n => (u.length, u.length + n) := by
  have matched : w.matches (u ++ rest) = true := matches_iff.mpr ⟨u, rest, spells, rfl⟩
  unfold sensitive
  rw [findSome?_unique mem fun w' mem' => ?_]
  · rw [if_pos matched, ← spells.length, List.drop_left]
  · rcases names_clash w mem w' mem' with same | clashes
    · exact .inl same
    · exact .inr (if_neg (not_matches_of_clash clashes matched))

theorem sensitive_spec {q : Option Char} {t : Text} {k n : ℕ}
    (found : sensitive q t = some (k, n)) :
    ∃ w ∈ names, ∃ u gap sep gap' value after, Spells w u ∧
      IsAssignment gap sep gap' value after ∧
      t = u ++ (gap ++ sep :: (gap' ++ (value ++ after))) ∧ k = u.length ∧
      n = u.length + (gap.length + 1 + gap'.length + value.length) := by
  obtain ⟨w, mem, here⟩ := List.exists_of_findSome?_eq_some found
  by_cases matched : w.matches t = true
  · rw [if_pos matched] at here
    obtain ⟨u, rest, spells, same⟩ := matches_iff.mp matched
    obtain ⟨m, assigned, pair⟩ := Option.map_eq_some_iff.mp here
    rw [same, ← spells.length, List.drop_left] at assigned
    obtain ⟨gap, sep, gap', value, after, parts, split, length⟩ := assignmentAt_spec assigned
    obtain ⟨kept, whole⟩ := Prod.mk.inj pair
    refine ⟨w, mem, u, gap, sep, gap', value, after, spells, parts, by rw [same, split], ?_, ?_⟩
    · rw [← kept, spells.length]
    · rw [← whole, length, spells.length]
  · rw [if_neg matched] at here
    exact nomatch here

theorem sensitive_sound : Sound sensitive := by
  intro q t k n found
  obtain ⟨w, mem, u, gap, sep, gap', value, after, -, -, same, kept, whole⟩ := sensitive_spec found
  have length := congrArg List.length same
  simp only [List.length_append, List.length_cons] at length
  omega

def redact (t : Text) : Text := replace sensitive replacement t

theorem pieces_prev (q q' : Option Char) (t : Text) :
    pieces sensitive q t = pieces sensitive q' t := by
  have skipped (n : ℕ) (t : Text) :
      ∀ q q', piecesFrom sensitive n q t = piecesFrom sensitive n q' t := by
    intro q q'
    cases t with
    | nil => cases n <;> rfl
    | cons c t => cases n <;> rfl
  exact skipped 0 t q q'

theorem redact_nil : redact [] = [] := rfl

theorem redact_same {c : Char} {t : Text} {q : Option Char} (none_ : sensitive q (c :: t) = none) :
    redact (c :: t) = c :: redact t := by
  rw [redact, replace, pieces_none (show sensitive none (c :: t) = none from none_),
    pieces_prev (some c) none]
  rfl

theorem drop_match (u gap gap' value after : Text) (sep : Char) :
    (u ++ (gap ++ sep :: (gap' ++ (value ++ after)))).drop
      (u.length + (gap.length + 1 + gap'.length + value.length)) = after := by
  have split : u ++ (gap ++ sep :: (gap' ++ (value ++ after))) =
      u ++ (gap ++ sep :: (gap' ++ value)) ++ after := by
    simp only [List.append_assoc, List.cons_append]
  rw [split]
  refine List.drop_left' ?_
  simp only [List.length_append, List.length_cons]
  omega

theorem redact_cut {w : Word} {u gap gap' value after : Text} {sep : Char} (mem : w ∈ names)
    (spells : Spells w u) (parts : IsAssignment gap sep gap' value after) :
    redact (u ++ (gap ++ sep :: (gap' ++ (value ++ after)))) =
      u ++ (replacement ++ redact after) := by
  have found := sensitive_name mem spells none (gap ++ sep :: (gap' ++ (value ++ after)))
  rw [parts.assignmentAt_eq, Option.map_some] at found
  rw [redact, replace, pieces_some sensitive_sound found, drop_match, pieces_prev _ none,
    List.flatMap_cons, Piece.target, List.take_left, List.append_assoc]
  rfl

theorem redact_head (t : Text) : (redact t).head? = t.head? := by
  cases t with
  | nil => rfl
  | cons c t =>
    cases found : sensitive none (c :: t) with
    | none =>
      rw [redact_same found]
      rfl
    | some m =>
      obtain ⟨k, n⟩ := m
      obtain ⟨w, mem, u, gap, sep, gap', value, after, spells, parts, same, -, -⟩ :=
        sensitive_spec found
      obtain ⟨d, v, first⟩ := List.exists_cons_of_ne_nil (spells.ne_nil mem)
      rw [same, redact_cut mem spells parts, first]
      rfl

theorem isNameChar_of_isSpace {c : Char} (h : isSpace c = true) : isNameChar c = false := by
  rw [isNameChar, h, Bool.not_true, Bool.false_and]

theorem isNameChar_of_isSeparator {c : Char} (h : isSeparator c = true) : isNameChar c = false := by
  rw [isNameChar, h, Bool.not_true, Bool.and_false]

theorem sensitive_of_head {q : Option Char} {c : Char} {t : Text} (other : isNameChar c = false) :
    sensitive q (c :: t) = none := by
  cases found : sensitive q (c :: t) with
  | none => rfl
  | some m =>
    obtain ⟨k, n⟩ := m
    obtain ⟨w, mem, u, gap, sep, gap', value, after, spells, -, same, -, -⟩ := sensitive_spec found
    obtain ⟨d, v, first⟩ := List.exists_cons_of_ne_nil (spells.ne_nil mem)
    rw [first] at same
    have named := spells.chars mem d (by rw [first]; exact List.mem_cons_self)
    rw [← (List.cons.inj same).1, other] at named
    exact absurd named Bool.false_ne_true

theorem redact_blank {gap rest t : Text} (other : ∀ c ∈ gap, isNameChar c = false)
    (same : redact t = gap ++ rest) : ∃ t', t = gap ++ t' ∧ redact t' = rest := by
  induction gap generalizing t with
  | nil => exact ⟨t, rfl, same⟩
  | cons c gap ih =>
    have head := redact_head t
    rw [same, List.cons_append, List.head?_cons] at head
    cases t with
    | nil => exact nomatch head
    | cons d t =>
      obtain rfl := Option.some.inj head
      rw [redact_same (sensitive_of_head (q := none) (other c List.mem_cons_self)),
        List.cons_append] at same
      obtain ⟨t', split, later⟩ := ih (fun x mem => other x (List.mem_cons_of_mem c mem))
        (List.cons.inj same).2
      exact ⟨t', by rw [split]; rfl, later⟩

/-- The first characters of an assignment and of its value. -/
structure Begins (gap : Text) (sep : Char) (gap' : Text) (v : Char) : Prop where
  blank : ∀ c ∈ gap, isSpace c = true
  separates : isSeparator sep = true
  blank' : ∀ c ∈ gap', isSpace c = true
  plain : isValueChar v = true

theorem Begins.assignmentAt_ne_none {gap gap' more : Text} {sep v : Char}
    (h : Begins gap sep gap' v) : assignmentAt (gap ++ sep :: (gap' ++ v :: more)) ≠ none := by
  have parts : IsAssignment gap sep gap' ((v :: more).takeWhile isValueChar)
      ((v :: more).dropWhile isValueChar) := by
    refine ⟨h.blank, h.separates, h.blank', ?_, fun c mem => List.mem_takeWhile_imp mem,
      head_dropWhile⟩
    rw [List.takeWhile_cons_of_pos h.plain]
    exact List.cons_ne_nil _ _
  have found := parts.assignmentAt_eq
  rw [List.takeWhile_append_dropWhile] at found
  rw [found]
  exact nofun

theorem IsAssignment.begins {gap gap' value after : Text} {sep : Char}
    (h : IsAssignment gap sep gap' value after) :
    ∃ v more, Begins gap sep gap' v ∧ value ++ after = v :: more := by
  obtain ⟨v, rest, same⟩ := List.exists_cons_of_ne_nil h.some
  refine ⟨v, rest ++ after, ⟨h.blank, h.separates, h.blank', h.plain v ?_⟩, by rw [same]; rfl⟩
  rw [same]
  exact List.mem_cons_self

theorem assignmentAt_of_redact {t gap gap' more : Text} {sep v : Char}
    (h : Begins gap sep gap' v) (same : redact t = gap ++ sep :: (gap' ++ v :: more)) :
    assignmentAt t ≠ none := by
  obtain ⟨t₁, split₁, later₁⟩ := redact_blank
    (fun c mem => isNameChar_of_isSpace (h.blank c mem)) same
  have other : ∀ c ∈ [sep], isNameChar c = false :=
    List.forall_mem_singleton.mpr (isNameChar_of_isSeparator h.separates)
  obtain ⟨t₂, split₂, later₂⟩ := redact_blank other later₁
  obtain ⟨t₃, split₃, later₃⟩ := redact_blank
    (fun c mem => isNameChar_of_isSpace (h.blank' c mem)) later₂
  have head := redact_head t₃
  rw [later₃, List.head?_cons] at head
  cases t₃ with
  | nil => exact nomatch head
  | cons d t₃ =>
    obtain rfl := Option.some.inj head
    rw [split₁, split₂, split₃]
    exact h.assignmentAt_ne_none

theorem name_run {u u' rest rest' : Text} (chars : ∀ c ∈ u, isNameChar c = true)
    (chars' : ∀ c ∈ u', isNameChar c = true) (ends : ∀ c ∈ rest.head?, isNameChar c = false)
    (ends' : ∀ c ∈ rest'.head?, isNameChar c = false) (same : u ++ rest = u' ++ rest') :
    u = u' ∧ rest = rest' := by
  have run := congrArg (List.takeWhile isNameChar) same
  rw [List.takeWhile_append_of_pos chars, List.takeWhile_append_of_pos chars',
    takeWhile_of_head ends, takeWhile_of_head ends', List.append_nil, List.append_nil] at run
  subst run
  exact ⟨rfl, List.append_cancel_left same⟩

theorem head_assignment {gap rest : Text} {sep : Char} (blank : ∀ c ∈ gap, isSpace c = true)
    (separates : isSeparator sep = true) :
    ∀ c ∈ (gap ++ sep :: rest).head?, isNameChar c = false := by
  intro c mem
  cases gap with
  | nil =>
    rw [← Option.some.inj mem]
    exact isNameChar_of_isSeparator separates
  | cons d gap =>
    rw [← Option.some.inj mem]
    exact isNameChar_of_isSpace (blank d List.mem_cons_self)

theorem name_of_redact {q : Option Char} {t u gap gap' more : Text} {sep v : Char}
    (chars : ∀ c ∈ u, isNameChar c = true) (h : Begins gap sep gap' v)
    (same : redact t = u ++ (gap ++ sep :: (gap' ++ v :: more))) :
    ∃ rest, t = u ++ rest ∧ assignmentAt rest ≠ none := by
  induction q, t using induction_on sensitive_sound generalizing u with
  | nil q =>
    have empty := congrArg List.length same
    simp only [redact_nil, List.length_nil, List.length_append, List.length_cons] at empty
    omega
  | same q c t none_ ih =>
    cases u with
    | nil => exact ⟨c :: t, rfl, assignmentAt_of_redact h same⟩
    | cons d u =>
      rw [redact_same none_] at same
      obtain ⟨head, tail⟩ := List.cons.inj same
      obtain ⟨rest, split, assigned⟩ :=
        ih (fun x mem => chars x (List.mem_cons_of_mem d mem)) tail
      exact ⟨rest, by rw [head, split]; rfl, assigned⟩
  | cut q t k n found ih =>
    obtain ⟨w, mem, u', gap₁, sep₁, gap₁', value, after, spells, parts, split, -, -⟩ :=
      sensitive_spec found
    rw [split, redact_cut mem spells parts] at same
    obtain ⟨run, -⟩ := name_run (spells.chars mem) chars
      (fun c first => by rw [← Option.some.inj first]; decide)
      (head_assignment h.blank h.separates) same
    refine ⟨_, by rw [split, run], ?_⟩
    rw [parts.assignmentAt_eq]
    exact nofun

theorem sensitive_redact {c : Char} {t : Text} (none_ : sensitive none (c :: t) = none) (k : ℕ) :
    sensitive none (c :: (redact t).take k) = none := by
  cases found : sensitive none (c :: (redact t).take k) with
  | none => rfl
  | some m =>
    obtain ⟨j, n⟩ := m
    obtain ⟨w, mem, u, gap, sep, gap', value, after, spells, parts, same, -, -⟩ :=
      sensitive_spec found
    obtain ⟨d, u', first⟩ := List.exists_cons_of_ne_nil (spells.ne_nil mem)
    obtain ⟨v, more, begins, valued⟩ := parts.begins
    rw [valued, first, List.cons_append] at same
    obtain ⟨head, tail⟩ := List.cons.inj same
    have whole : redact t = u' ++ (gap ++ sep :: (gap' ++ v :: (more ++ (redact t).drop k))) := by
      calc redact t = (redact t).take k ++ (redact t).drop k := (List.take_append_drop k _).symm
        _ = _ := by
          rw [tail]
          simp only [List.append_assoc, List.cons_append]
    have chars := spells.chars mem
    rw [first] at chars
    obtain ⟨rest, split, assigned⟩ := name_of_redact (q := none)
      (fun x later => chars x (List.mem_cons_of_mem d later)) begins whole
    have again := sensitive_name mem spells none rest
    rw [first, List.cons_append, ← head, ← split, none_] at again
    cases here : assignmentAt rest with
    | none => exact absurd here assigned
    | some m =>
      rw [here] at again
      exact nomatch again

theorem redact_of_no_separator {t : Text} (plain : ∀ c ∈ t.dropLast, isSeparator c = false) :
    redact t = t := by
  induction t with
  | nil => rfl
  | cons c t ih =>
    have rest : redact t = t := by
      refine ih fun x mem => plain x ?_
      cases t with
      | nil => exact absurd mem List.not_mem_nil
      | cons d t => exact List.mem_cons_of_mem c mem
    cases found : sensitive none (c :: t) with
    | none => rw [redact_same found, rest]
    | some m =>
      obtain ⟨k, n⟩ := m
      obtain ⟨w, mem, u, gap, sep, gap', value, after, -, parts, same, -, -⟩ := sensitive_spec found
      have late : gap' ++ (value ++ after) ≠ [] :=
        List.append_ne_nil_of_right_ne_nil _ (List.append_ne_nil_of_left_ne_nil parts.some _)
      have early : sep ∈ (c :: t).dropLast := by
        rw [same, List.dropLast_append_of_ne_nil (List.append_ne_nil_of_right_ne_nil _
            (List.cons_ne_nil _ _)),
          List.dropLast_append_of_ne_nil (List.cons_ne_nil _ _), List.dropLast_cons_of_ne_nil late]
        simp
      exact absurd parts.separates (Bool.eq_false_iff.mp (plain sep early))

theorem replacement_eq : replacement = '=' :: "[REDACTED]".toList := rfl

theorem redact_replaced {w : Word} {u rest : Text} (mem : w ∈ names) (spells : Spells w u)
    (ends : ∀ c ∈ rest.head?, isValueChar c = false) (j : ℕ) :
    redact (u ++ ('=' :: ("[REDACTED]".toList.take (j + 1) ++ rest))) =
      u ++ (replacement ++ redact rest) := by
  have parts : IsAssignment [] '=' [] ("[REDACTED]".toList.take (j + 1)) rest := by
    refine ⟨nofun, rfl, nofun, nofun, fun c mem => ?_, ends⟩
    have all : ∀ c ∈ "[REDACTED]".toList, isValueChar c = true :=
      List.all_eq_true.mp (by decide)
    exact all c (List.mem_of_mem_take mem)
  exact redact_cut mem spells parts

theorem take_replaced (u marker rest : Text) (j : ℕ) :
    (u ++ ('=' :: (marker ++ rest))).take (u.length + (1 + j)) =
      u ++ ('=' :: (marker.take j ++ rest.take (j - marker.length))) := by
  rw [List.take_length_add_append, Nat.add_comm 1, List.take_succ_cons, List.take_append]

theorem redact_take_name {w : Word} {u : Text} (mem : w ∈ names) (spells : Spells w u) (rest : Text)
    {k : ℕ} (short : k ≤ u.length + 1) :
    redact ((u ++ '=' :: rest).take k) = (u ++ '=' :: rest).take k := by
  refine redact_of_no_separator fun c here => ?_
  rw [List.dropLast_eq_take, List.take_take] at here
  have early : c ∈ u := by
    rw [List.take_append_of_le_length] at here
    · exact List.mem_of_mem_take here
    · rw [List.length_take]
      omega
  have named := spells.chars mem c early
  rw [isNameChar, Bool.and_eq_true, Bool.not_eq_true', Bool.not_eq_true'] at named
  exact named.2

theorem redact_take (t : Text) (k : ℕ) :
    (redact ((redact t).take k)).take k = (redact t).take k := by
  generalize none_ : (none : Option Char) = q
  clear none_
  induction q, t using induction_on sensitive_sound generalizing k with
  | nil q => rw [redact_nil, List.take_nil, redact_nil, List.take_nil]
  | same q c t missed ih =>
    cases k with
    | zero => rfl
    | succ k =>
      rw [redact_same missed, List.take_succ_cons, redact_same (sensitive_redact missed k),
        List.take_succ_cons, ih]
  | cut q t j n found ih =>
    obtain ⟨w, mem, u, gap, sep, gap', value, after, spells, parts, split, kept, whole⟩ :=
      sensitive_spec found
    rw [split, whole, drop_match] at ih
    rw [split, redact_cut mem spells parts, replacement_eq, List.cons_append]
    by_cases short : k ≤ u.length + 1
    · rw [redact_take_name mem spells _ short, List.take_take, Nat.min_self]
    · obtain ⟨i, rfl⟩ : ∃ i, k = u.length + (1 + (i + 1)) := ⟨k - u.length - 2, by omega⟩
      have ends : ∀ c ∈ ((redact after).take (i + 1 - "[REDACTED]".toList.length)).head?,
          isValueChar c = false := by
        intro c first
        refine parts.ends c ?_
        rw [List.head?_take] at first
        split at first
        · exact nomatch first
        · rwa [redact_head] at first
      rw [take_replaced, redact_replaced mem spells ends, replacement_eq, List.cons_append,
        take_replaced, ih]

/-- A name with a value assigned to it, `name: value` or `name=value`: the name stands at `q`,
the value from `a` up to `b`. -/
def Assigned (text : Text) (q a b : ℕ) : Prop :=
  ∃ front, ∃ w ∈ names, ∃ u gap sep gap' value after, Spells w u ∧
    IsAssignment gap sep gap' value after ∧
    text = front ++ (u ++ (gap ++ sep :: (gap' ++ (value ++ after)))) ∧ q = front.length ∧
    a = q + u.length + gap.length + 1 + gap'.length ∧ b = a + value.length

def Bearer (text : Text) (a b : ℕ) : Prop :=
  ∃ front u gap gap' scheme space value after, Spells (word "authorization") u ∧
    (∀ c ∈ gap, isSpace c = true) ∧ (∀ c ∈ gap', isSpace c = true) ∧
    Spells (word "bearer") scheme ∧ space ≠ [] ∧ (∀ c ∈ space, isSpace c = true) ∧
    value ≠ [] ∧ (∀ c ∈ value, isValueChar c = true) ∧
    (∀ c ∈ after.head?, isValueChar c = false) ∧
    text = front ++ u ++ gap ++ [':'] ++ gap' ++ scheme ++ space ++ value ++ after ∧
    a = (front ++ u ++ gap ++ [':'] ++ gap' ++ scheme ++ space).length ∧ b = a + value.length

def isQuotable : Text → Bool
  | [] => true
  | '\\' :: _ :: rest => isQuotable rest
  | '\\' :: [] => false
  | c :: rest => c != '"' && isQuotable rest

def Member (text : Text) (a b : ℕ) : Prop :=
  ∃ front, ∃ w ∈ names, ∃ u gap gap' value after, Spells w u ∧
    (∀ c ∈ gap, isSpace c = true) ∧ (∀ c ∈ gap', isSpace c = true) ∧
    value ≠ [] ∧ isQuotable value = true ∧
    text = front ++ ['"'] ++ u ++ ['"'] ++ gap ++ [':'] ++ gap' ++ ['"'] ++ value ++ '"' :: after ∧
    a = (front ++ ['"'] ++ u ++ ['"'] ++ gap ++ [':'] ++ gap' ++ ['"']).length ∧
    b = a + value.length

def Credential (text : Text) (a b : ℕ) : Prop :=
  (∃ q, Assigned text q a b) ∨ Bearer text a b ∨ Member text a b

def Shows (text : Text) (maxChars : ℤ) (a b : ℕ) : Prop :=
  ∀ p, a ≤ p → p < b →
    ∃ c, .copied p c ∈ (origins sensitive replacement text).take maxChars.toNat

def exported (text : Text) (maxChars : ℤ) : Text := Redactor.sanitize {} text maxChars

/-- No value of a credential is exported, the text has at most the configured length, and it is
left alone when it is sanitised again. -/
structure Sanitised (text : Text) (maxChars : ℤ) : Prop where
  hidden : ∀ a b, Credential text a b → ¬Shows text maxChars a b
  bounded : ((exported text maxChars).length : ℤ) ≤ maxChars
  stable : exported (exported text maxChars) maxChars = exported text maxChars

/-- The value of a JSON member, of `Authorization: Bearer value`, and of a name that is itself
replaced, has a character in what a match replaces. -/
def Reached (text : Text) : Prop :=
  ∀ a b, ((∃ q, Assigned text q a b ∧ Removed sensitive text q) ∨ Bearer text a b ∨
    Member text a b) → ∃ p, a ≤ p ∧ p < b ∧ Removed sensitive text p

theorem exported_eq (text : Text) {maxChars : ℤ} (positive : 0 ≤ maxChars) :
    exported text maxChars = (redact text).take maxChars.toNat := by
  rw [exported, Redactor.sanitize, if_pos rfl, upTo, if_pos positive, redact]

theorem origins_exported (text : Text) {maxChars : ℤ} (positive : 0 ≤ maxChars) :
    ((origins sensitive replacement text).take maxChars.toNat).map Origin.symbol =
      exported text maxChars := by
  rw [exported_eq text positive, List.map_take, origins_symbols, redact]

theorem sanitizeEvent_texts (event : LLMGenerationEvent) {config : LLMObserverConfig}
    (enabled : config.redact = true) :
    (sanitizeEvent event config).prompt = exported event.prompt config.maxPromptChars ∧
      (sanitizeEvent event config).completion =
        exported event.completion config.maxCompletionChars := by
  unfold sanitizeEvent
  rw [enabled]
  exact ⟨rfl, rfl⟩

theorem removed_of_assigned {text : Text} {q a b : ℕ} (assigned : Assigned text q a b)
    (kept : ¬Removed sensitive text q) {p : ℕ} (above : a ≤ p) (below : p < b) :
    Removed sensitive text p := by
  obtain ⟨front, w, mem, u, gap, sep, gap', value, after, spells, parts, split, rfl, rfl, rfl⟩ :=
    assigned
  have here : text.drop front.length = u ++ (gap ++ sep :: (gap' ++ (value ++ after))) := by
    rw [split, List.drop_left]
  have inside : front.length < text.length := by
    have some := List.length_pos_iff.mpr (spells.ne_nil mem)
    rw [split]
    simp only [List.length_append]
    omega
  obtain ⟨c, cut, start, stop⟩ := cut_of_match sensitive_sound inside fun q' => by
    rw [here, sensitive_name mem spells, parts.assignmentAt_eq]
    exact nofun
  have early : front.length < c.kept := Nat.lt_of_not_le fun le => kept ⟨c, cut, le, stop⟩
  obtain ⟨q', found⟩ := cut_match sensitive_sound cut
  obtain ⟨bounds, order, -⟩ := cut_bounds sensitive_sound cut
  obtain ⟨w₂, mem₂, u₂, gap₂, sep₂, gap₂', value₂, after₂, spells₂, parts₂, split₂, name₂,
    whole₂⟩ :=
    sensitive_spec found
  -- the name stands inside the name of the cut, and both end where the gap begins
  have inner : u₂.drop (front.length - c.start) ++
      (gap₂ ++ sep₂ :: (gap₂' ++ (value₂ ++ after₂))) =
      u ++ (gap ++ sep :: (gap' ++ (value ++ after))) := by
    rw [← here, ← List.drop_append_of_le_length (by omega), ← split₂, List.drop_drop]
    exact congrArg (text.drop ·) (by omega)
  obtain ⟨name, rest⟩ := name_run (fun x later => spells₂.chars mem₂ x (List.mem_of_mem_drop later))
    (spells.chars mem) (head_assignment parts₂.blank parts₂.separates)
    (head_assignment parts.blank parts.separates) inner
  have length := congrArg List.length name
  have assignments := congrArg assignmentAt rest
  rw [parts₂.assignmentAt_eq, parts.assignmentAt_eq] at assignments
  have same := Option.some.inj assignments
  rw [List.length_drop] at length
  exact ⟨c, cut, by omega, by omega⟩

theorem credential_length {text : Text} {a b : ℕ} (h : Credential text a b) : b ≤ text.length := by
  rcases h with ⟨q, front, w, -, u, gap, sep, gap', value, after, -, -, rfl, rfl, rfl, rfl⟩ |
    ⟨front, u, gap, gap', scheme, space, value, after, -, -, -, -, -, -, -, -, -, rfl, rfl, rfl⟩ |
    ⟨front, w, -, u, gap, gap', value, after, -, -, -, -, -, rfl, rfl, rfl⟩ <;>
    simp only [List.length_append, List.length_cons, List.length_nil] <;> omega

theorem shows_iff (text : Text) (a b : ℕ) (inside : b ≤ text.length) :
    (∀ maxChars : ℤ, 0 ≤ maxChars → ¬Shows text maxChars a b) ↔
      ∃ p, a ≤ p ∧ p < b ∧ Removed sensitive text p := by
  constructor
  · intro hidden
    refine Classical.byContradiction fun none_ => ?_
    refine hidden (origins sensitive replacement text).length (Int.natCast_nonneg _) ?_
    intro p above below
    have within : p < text.length := by omega
    refine ⟨text[p], ?_⟩
    rw [Int.toNat_natCast, List.take_length, mem_origins sensitive_sound]
    exact ⟨List.getElem?_eq_getElem within, fun removed => none_ ⟨p, above, below, removed⟩⟩
  · rintro ⟨p, above, below, removed⟩ maxChars - shows
    obtain ⟨c, mem⟩ := shows p above below
    exact ((mem_origins sensitive_sound replacement).mp (List.mem_of_mem_take mem)).2 removed

/-- A text is sanitised for every length just where all of those values are reached. -/
theorem sanitised_iff (text : Text) :
    (∀ maxChars : ℤ, 0 ≤ maxChars → Sanitised text maxChars) ↔ Reached text := by
  constructor
  · intro h a b credential
    have known : Credential text a b := by
      rcases credential with ⟨q, assigned, -⟩ | bearer | member
      · exact .inl ⟨q, assigned⟩
      · exact .inr (.inl bearer)
      · exact .inr (.inr member)
    exact (shows_iff text a b (credential_length known)).mp fun maxChars positive =>
      (h maxChars positive).hidden a b known
  · intro reached maxChars positive
    refine ⟨fun a b credential => ?_, ?_, ?_⟩
    · refine (shows_iff text a b (credential_length credential)).mpr ?_ maxChars positive
      rcases credential with ⟨q, assigned⟩ | bearer | member
      · by_cases removed : Removed sensitive text q
        · exact reached a b (.inl ⟨q, assigned, removed⟩)
        · have some : a < b := by
            obtain ⟨_, _, _, _, _, _, _, _, _, _, parts, _, _, _, rfl⟩ := assigned
            exact Nat.lt_add_of_pos_right (List.length_pos_iff.mpr parts.some)
          exact ⟨a, Nat.le_refl a, some, removed_of_assigned assigned removed (Nat.le_refl a) some⟩
      · exact reached a b (.inr (.inl bearer))
      · exact reached a b (.inr (.inr member))
    · rw [exported_eq text positive, List.length_take]
      omega
    · rw [exported_eq _ positive, exported_eq text positive]
      exact redact_take text maxChars.toNat

def bearerHeader : Text := "Authorization: Bearer abc123".toList

/-- The scheme is taken for the value, and the token is exported. -/
theorem bearerHeader_exported :
    exported bearerHeader 2000 = "Authorization=[REDACTED] abc123".toList ∧
      ¬Sanitised bearerHeader 2000 := by
  refine ⟨by decide +kernel, fun h => ?_⟩
  have bearer : Bearer bearerHeader 22 28 :=
    ⟨[], "Authorization".toList, [], " ".toList, "Bearer".toList, " ".toList, "abc123".toList, [],
      spells_of_matches (by decide) (by decide), nofun, List.all_eq_true.mp (by decide),
      spells_of_matches (by decide) (by decide), by decide, List.all_eq_true.mp (by decide),
      by decide, List.all_eq_true.mp (by decide), nofun, by decide, by decide, by decide⟩
  have shown : (List.range' 22 6).all (fun p => bearerHeader.any fun c =>
      decide (.copied p c ∈ (origins sensitive replacement bearerHeader).take 2000)) = true := by
    decide +kernel
  refine h.hidden 22 28 (.inr (.inl bearer)) fun p above below => ?_
  have here := List.all_eq_true.mp shown p (List.mem_range'_1.mpr ⟨above, below⟩)
  obtain ⟨c, -, mem⟩ := List.any_eq_true.mp here
  exact ⟨c, of_decide_eq_true mem⟩

end KnowledgeCompanion.ObserverRedaction
