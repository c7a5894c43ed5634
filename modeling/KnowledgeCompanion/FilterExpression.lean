import KnowledgeCompanion.QuotedScan
import KnowledgeCompanion.Text

/-! Boolean filter expressions over rows with named text columns: comparisons of a column
with a quoted text, membership in a list of quoted texts, `&&` and `||`. The literals are
those of C, with its escapes. -/

namespace KnowledgeCompanion.FilterExpression

open QuotedScan

def literals : Quoting Char where
  isQuote c := c == '\'' || c == '"'
  escape := '\\'
  escape_plain := rfl

def lineBreak (c : Char) : Bool := c == '\n' || c == '\r'

def digitValue (c : Char) : Option ℕ :=
  if '0' ≤ c ∧ c ≤ '9' then some (c.toNat - '0'.toNat)
  else if 'a' ≤ c ∧ c ≤ 'f' then some (c.toNat - 'a'.toNat + 10)
  else if 'A' ≤ c ∧ c ≤ 'F' then some (c.toNat - 'A'.toNat + 10)
  else none

def charOf (n : ℕ) : Option Char :=
  if valid : n.isValidChar then some (Char.ofNatAux n valid) else none

/-- The digits of the base that follow, at least `least` of them and at most `most`. -/
def numericEscape (base least most : ℕ) (text : Text) : Option (Char × Text) :=
  let digits := (text.take most).takeWhile fun c => (digitValue c).any (· < base)
  if digits = [] ∨ digits.length < least then none
  else
    (charOf (digits.foldl (fun n c => n * base + (digitValue c).getD 0) 0)).map fun c =>
      (c, text.drop digits.length)

def simpleEscapes : List (Char × Char) :=
  [('\'', '\''), ('"', '"'), ('?', '?'), ('\\', '\\'), ('a', '\x07'), ('b', '\x08'),
    ('f', '\x0c'), ('n', '\n'), ('r', '\r'), ('t', '\t'), ('v', '\x0b')]

def readEscape : Text → Option (Char × Text)
  | [] => none
  | c :: text =>
    match simpleEscapes.lookup c with
    | some d => some (d, text)
    | none =>
      if c = 'x' then numericEscape 16 1 text.length text
      else if c = 'u' then numericEscape 16 4 4 text
      else if c = 'U' then numericEscape 16 8 8 text
      else numericEscape 8 1 3 (c :: text)

theorem numericEscape_shorter {base least most : ℕ} {text : Text} {p : Char × Text}
    (read : numericEscape base least most text = some p) : p.2.length < text.length := by
  rw [numericEscape] at read
  split at read
  · exact nomatch read
  · rename_i enough
    obtain ⟨c, -, rfl⟩ := Option.map_eq_some_iff.mp read
    have digit := List.length_pos_iff.mpr (not_or.mp enough).1
    have bound := ((List.takeWhile_prefix fun c => (digitValue c).any (· < base)).trans
      (List.take_prefix most text)).length_le
    rw [List.length_drop]
    omega

def cEscapes : Escapes Char where
  read := readEscape
  shorter := by
    intro text p read
    cases text with
    | nil => exact nomatch read
    | cons c text =>
      have longer {q : Char × Text} (less : q.2.length < text.length) :
          q.2.length < (c :: text).length := Nat.lt_succ_of_lt less
      rw [readEscape] at read
      split at read
      · rw [← Option.some.inj read]
        exact Nat.lt_succ_self _
      · split_ifs at read
        · exact longer (numericEscape_shorter read)
        · exact longer (numericEscape_shorter read)
        · exact longer (numericEscape_shorter read)
        · exact numericEscape_shorter read

inductive CharClass
  | word
  | operator
  | blank
  | single
deriving DecidableEq

def classOf (c : Char) : CharClass :=
  if c.isAlphanum || c == '_' then .word
  else if c == '=' || c == '!' || c == '<' || c == '>' || c == '&' || c == '|' then .operator
  else if c.isWhitespace then .blank
  else .single

inductive Token
  | word (text : Text)
  | sign (text : Text)
  | text (raw : Text)
deriving DecidableEq

def joins (run : Text) (c : Char) : Bool :=
  run.getLast?.any fun d => classOf d = classOf c && (classOf c = .word || classOf c = .operator)

def flush (run : Text) : List Token :=
  match run.getLast?.map classOf with
  | none => []
  | some .word => [.word run]
  | some .blank => []
  | some _ => [.sign run]

def tokens : Text → List (Piece Char) → List Token
  | run, [] => flush run
  | run, .literal raw :: ps => flush run ++ .text raw :: tokens [] ps
  | run, .code c :: ps =>
    if joins run c then tokens (run ++ [c]) ps else flush run ++ tokens [c] ps

variable {ρ : Type*}

def textValue (escapes : Escapes Char) (raw : Text) : Option Text :=
  unescape literals escapes lineBreak raw

def elements : List Token → Option (List Text)
  | [.text raw, .sign sign] => if sign = "]".toList then some [raw] else none
  | .text raw :: .sign sign :: rest =>
    if sign = ",".toList then (elements rest).map (raw :: ·) else none
  | _ => none

variable (escapes : Escapes Char) (column : Text → Option (ρ → Text))

def comparison (name sign raw : Text) : Option (ρ → Bool) :=
  match column name, textValue escapes raw with
  | some get, some value =>
    if sign = "==".toList then some fun row => get row == value
    else if sign = "!=".toList then some fun row => get row != value
    else none
  | _, _ => none

def membership (name : Text) (raws : List Text) : Option (ρ → Bool) :=
  match column name, raws.mapM (textValue escapes) with
  | some get, some values => some fun row => values.contains (get row)
  | _, _ => none

def clause : List Token → Option (ρ → Bool)
  | [.word name, .sign sign, .text raw] => comparison escapes column name sign raw
  | .word name :: .word word :: .sign sign :: rest =>
    if word = "in".toList ∧ sign = "[".toList then
      (elements rest).bind (membership escapes column name)
    else none
  | _ => none

def conjunction (ts : List Token) : Option (ρ → Bool) :=
  ((ts.splitOn (Token.sign "&&".toList)).mapM (clause escapes column)).map fun conditions row =>
    conditions.all fun holds => holds row

def disjunction (ts : List Token) : Option (ρ → Bool) :=
  ((ts.splitOn (Token.sign "||".toList)).mapM (conjunction escapes column)).map fun parts row =>
    parts.any fun holds => holds row

def parse (text : Text) : Option (ρ → Bool) :=
  match after literals .code text with
  | .code => disjunction escapes column (tokens [] (pieces literals .code text))
  | _ => none

variable {escapes : Escapes Char} {column : Text → Option (ρ → Text)}

def SideBySide (ts : List Token) : Prop :=
  ∃ front x y back, ts = front ++ .text x :: .text y :: back

theorem tokens_sideBySide {ps : List (Piece Char)} (adjacent : Adjacent ps) :
    SideBySide (tokens [] ps) := by
  obtain ⟨front, x, y, back, rfl⟩ := adjacent
  have scanned (run : Text) :
      SideBySide (tokens run (front ++ .literal x :: .literal y :: back)) := by
    induction front generalizing run with
    | nil => exact ⟨flush run, x, y, tokens [] back, rfl⟩
    | cons p front ih =>
      cases p with
      | literal raw =>
        obtain ⟨before, x', y', rest, same⟩ := ih []
        rw [List.cons_append, tokens, same]
        exact ⟨flush run ++ .text raw :: before, x', y', rest, by rw [List.append_assoc]; rfl⟩
      | code c =>
        rw [List.cons_append, tokens]
        split
        · exact ih (run ++ [c])
        · obtain ⟨before, x', y', rest, same⟩ := ih [c]
          rw [same]
          exact ⟨flush run ++ before, x', y', rest, by rw [List.append_assoc]⟩
  exact scanned []

theorem splitOn_sideBySide {ts : List Token} (sign : Text) (adjacent : SideBySide ts) :
    ∃ part ∈ ts.splitOn (.sign sign), SideBySide part := by
  obtain ⟨front, x, y, back, rfl⟩ := adjacent
  have texts (raw : Text) : (Token.text raw == Token.sign sign) = false := rfl
  induction front with
  | nil =>
    obtain ⟨first, rest, split⟩ :=
      List.exists_cons_of_ne_nil (List.splitOn_ne_nil (Token.sign sign) back)
    rw [List.nil_append, List.splitOn_cons_eq_if_modifyHead, texts, if_neg Bool.false_ne_true,
      List.splitOn_cons_eq_if_modifyHead, texts, if_neg Bool.false_ne_true, split]
    exact ⟨_, List.mem_cons_self, [], x, y, first, rfl⟩
  | cons t front ih =>
    obtain ⟨part, mem, before, x', y', after, same⟩ := ih
    rw [List.cons_append, List.splitOn_cons_eq_if_modifyHead]
    split
    · exact ⟨part, List.mem_cons_of_mem _ mem, before, x', y', after, same⟩
    · obtain ⟨first, rest, split⟩ := List.exists_cons_of_ne_nil
        (List.splitOn_ne_nil (Token.sign sign) (front ++ .text x :: .text y :: back))
      rw [split] at mem ⊢
      rcases List.mem_cons.mp mem with here | there
      · exact ⟨_, List.mem_cons_self, t :: before, x', y', after, by rw [← here, same]; rfl⟩
      · exact ⟨part, List.mem_cons_of_mem _ there, before, x', y', after, same⟩

@[simp] theorem not_sideBySide_nil : ¬ SideBySide [] := by
  rintro ⟨front, x, y, back, same⟩
  cases front <;> exact nomatch same

theorem sideBySide_cons {t : Token} (other : ∀ raw, t ≠ .text raw) {ts : List Token} :
    SideBySide (t :: ts) ↔ SideBySide ts := by
  constructor
  · rintro ⟨front, x, y, back, same⟩
    cases front with
    | nil => exact absurd (List.cons.inj same).1 (other x)
    | cons first front => exact ⟨front, x, y, back, (List.cons.inj same).2⟩
  · rintro ⟨front, x, y, back, rfl⟩
    exact ⟨t :: front, x, y, back, rfl⟩

@[simp] theorem sideBySide_sign {sign : Text} {ts : List Token} :
    SideBySide (.sign sign :: ts) ↔ SideBySide ts := sideBySide_cons fun _ => Token.noConfusion

@[simp] theorem sideBySide_word {word : Text} {ts : List Token} :
    SideBySide (.word word :: ts) ↔ SideBySide ts := sideBySide_cons fun _ => Token.noConfusion

theorem sideBySide_text {raw sign : Text} {ts : List Token}
    (adjacent : SideBySide (.text raw :: .sign sign :: ts)) : SideBySide ts := by
  obtain ⟨front, x, y, back, same⟩ := adjacent
  cases front with
  | nil => exact nomatch (List.cons.inj same).2
  | cons t front => exact sideBySide_sign.mp ⟨front, x, y, back, (List.cons.inj same).2⟩

theorem not_sideBySide_single {raw : Text} : ¬ SideBySide [.text raw] := by
  rintro ⟨front, x, y, back, same⟩
  cases front with
  | nil => exact nomatch (List.cons.inj same).2
  | cons t front => exact not_sideBySide_nil ⟨front, x, y, back, (List.cons.inj same).2⟩

theorem elements_sideBySide {ts : List Token} (adjacent : SideBySide ts) : elements ts = none := by
  induction ts using elements.induct with
  | case1 raw => exact absurd (sideBySide_text adjacent) not_sideBySide_nil
  | case2 raw sign => exact absurd (sideBySide_text adjacent) not_sideBySide_nil
  | case3 raw rest more ih =>
    rw [elements.eq_2 _ _ _ more, ih (sideBySide_text adjacent)]
    exact ite_self none
  | case4 raw sign rest more other => rw [elements.eq_2 _ _ _ more, if_neg other]
  | case5 ts single several => rw [elements.eq_3 _ single several]

theorem clause_sideBySide {ts : List Token} (adjacent : SideBySide ts) :
    clause escapes column ts = none := by
  unfold clause
  split
  · exact absurd adjacent (by simp [not_sideBySide_single])
  · rw [sideBySide_word, sideBySide_word, sideBySide_sign] at adjacent
    rw [elements_sideBySide adjacent]
    exact ite_self none
  · rfl

theorem mapM_eq_none {β γ : Type*} {f : β → Option γ} {b : β} {bs : List β} (mem : b ∈ bs)
    (fails : f b = none) : bs.mapM f = none := by
  induction bs with
  | nil => exact nomatch mem
  | cons b' bs ih =>
    rw [List.mapM_cons]
    rcases List.mem_cons.mp mem with rfl | mem
    · rw [fails]
      rfl
    · rw [ih mem]
      cases f b' <;> rfl

theorem parse_adjacent {text : Text} (adjacent : Adjacent (pieces literals .code text)) :
    parse escapes column text = none := by
  obtain ⟨part, mem, adjacent⟩ := splitOn_sideBySide "||".toList (tokens_sideBySide adjacent)
  obtain ⟨inner, innerMem, adjacent⟩ := splitOn_sideBySide "&&".toList adjacent
  have failed : conjunction escapes column part = none := by
    rw [conjunction, mapM_eq_none innerMem (clause_sideBySide adjacent)]
    rfl
  rw [parse]
  split
  · rw [disjunction, mapM_eq_none mem failed]
    rfl
  · rfl

theorem parse_unclosed {text : Text} (open' : after literals .code text ≠ .code) :
    parse escapes column text = none := by
  rw [parse]
  split
  · rename_i closed
    exact absurd closed open'
  · rfl

/-- What is read selects the rows meant, and it is read just when `ok` holds. -/
structure Reads (parsed : Option (ρ → Bool)) (ok : Prop) (means : ρ → Prop) : Prop where
  sound : ∀ holds, parsed = some holds → ok ∧ ∀ row, holds row = true ↔ means row
  complete : ok → ∃ holds, parsed = some holds

theorem Reads.congr {parsed : Option (ρ → Bool)} {ok ok' : Prop} {means means' : ρ → Prop}
    (reads : Reads parsed ok means) (same : ok ↔ ok') (sameMeans : ∀ row, means row ↔ means' row) :
    Reads parsed ok' means' where
  sound holds h := by
    obtain ⟨fine, meant⟩ := reads.sound holds h
    exact ⟨same.mp fine, fun row => (meant row).trans (sameMeans row)⟩
  complete fine := reads.complete (same.mpr fine)

theorem mapM_some {β γ : Type*} {f : β → Option γ} {bs : List β} {cs : List γ}
    (mapped : bs.mapM f = some cs) :
    (∀ b ∈ bs, (f b).isSome = true) ∧ ∀ c, c ∈ cs ↔ ∃ b ∈ bs, f b = some c := by
  induction bs generalizing cs with
  | nil =>
    rw [List.mapM_nil] at mapped
    rw [← Option.some.inj mapped]
    simp
  | cons b bs ih =>
    rw [List.mapM_cons] at mapped
    cases value : f b with
    | none => simp [value] at mapped
    | some c =>
      cases rest : bs.mapM f with
      | none => simp [value, rest] at mapped
      | some cs' =>
        obtain ⟨present, mem⟩ := ih rest
        have shape : c :: cs' = cs := by simpa [value, rest] using mapped
        subst shape
        constructor
        · simpa [value] using present
        · intro c'
          rw [List.mem_cons, mem]
          simp [value, eq_comm]

theorem mapM_isSome {β γ : Type*} {f : β → Option γ} {bs : List β}
    (present : ∀ b ∈ bs, (f b).isSome = true) : ∃ cs, bs.mapM f = some cs := by
  induction bs with
  | nil => exact ⟨[], rfl⟩
  | cons b bs ih =>
    obtain ⟨c, value⟩ := Option.isSome_iff_exists.mp (present b List.mem_cons_self)
    obtain ⟨cs, rest⟩ := ih fun b mem => present b (List.mem_cons_of_mem _ mem)
    exact ⟨c :: cs, by rw [List.mapM_cons, value, rest]; rfl⟩

theorem comparison_reads {name : Text} {get : ρ → Text} (known : column name = some get)
    (raw : Text) :
    Reads (clause escapes column [.word name, .sign "==".toList, .text raw])
      ((textValue escapes raw).isSome = true) fun row =>
        textValue escapes raw = some (get row) := by
  have read : clause escapes column [.word name, .sign "==".toList, .text raw] =
      (textValue escapes raw).map fun value row => get row == value := by
    have here : clause escapes column [.word name, .sign "==".toList, .text raw] =
        comparison escapes column name "==".toList raw := rfl
    rw [here, comparison, known]
    cases textValue escapes raw <;> rfl
  rw [read]
  constructor
  · intro holds same
    obtain ⟨value, found, rfl⟩ := Option.map_eq_some_iff.mp same
    rw [found]
    refine ⟨rfl, fun row => ?_⟩
    rw [beq_iff_eq, Option.some.injEq]
    exact eq_comm
  · intro present
    obtain ⟨value, found⟩ := Option.isSome_iff_exists.mp present
    exact ⟨_, by rw [found, Option.map_some]⟩

theorem elements_read (raw : Text) (raws : List Text) :
    elements (.text raw :: (raws.flatMap (fun r => [.sign ",".toList, .text r]) ++
      [.sign "]".toList])) = some (raw :: raws) := by
  induction raws generalizing raw with
  | nil => rfl
  | cons next raws ih =>
    rw [List.flatMap_cons, List.append_assoc, List.cons_append, elements.eq_2, if_pos rfl]
    · exact congrArg (Option.map (raw :: ·)) (ih next)
    · exact fun h => nomatch h

theorem membership_reads {name : Text} {get : ρ → Text} (known : column name = some get)
    (raw : Text) (raws : List Text) :
    Reads (clause escapes column (.word name :: .word "in".toList :: .sign "[".toList ::
        .text raw :: (raws.flatMap (fun r => [.sign ",".toList, .text r]) ++ [.sign "]".toList])))
      (∀ r ∈ raw :: raws, (textValue escapes r).isSome = true)
      fun row => ∃ r ∈ raw :: raws, textValue escapes r = some (get row) := by
  have read : clause escapes column (.word name :: .word "in".toList :: .sign "[".toList ::
      .text raw :: (raws.flatMap (fun r => [.sign ",".toList, .text r]) ++ [.sign "]".toList])) =
      membership escapes column name (raw :: raws) := by
    rw [clause, if_pos ⟨rfl, rfl⟩, elements_read, Option.bind_some]
  rw [read, membership, known]
  constructor
  · intro holds same
    cases values : (raw :: raws).mapM (textValue escapes) with
    | none =>
      rw [values] at same
      exact nomatch same
    | some vs =>
      rw [values] at same
      obtain ⟨present, mem⟩ := mapM_some values
      refine ⟨present, fun row => ?_⟩
      rw [← Option.some.inj same, List.contains_iff_mem, mem]
  · intro present
    obtain ⟨vs, values⟩ := mapM_isSome present
    exact ⟨_, by rw [values]⟩

theorem Reads.single {ts : List Token} {ok : Prop} {means : ρ → Prop}
    (reads : Reads (clause escapes column ts) ok means) (noOr : .sign "||".toList ∉ ts)
    (noAnd : .sign "&&".toList ∉ ts) : Reads (disjunction escapes column ts) ok means := by
  have whole : disjunction escapes column ts =
      (clause escapes column ts).map fun holds row => holds row := by
    rw [disjunction, List.splitOn_eq_singleton noOr, List.mapM_cons, conjunction,
      List.splitOn_eq_singleton noAnd, List.mapM_cons]
    cases clause escapes column ts <;> simp
  rw [whole]
  simpa using reads

theorem Reads.both {ts us : List Token} {ok ok' : Prop} {means means' : ρ → Prop}
    (first : Reads (clause escapes column ts) ok means)
    (second : Reads (clause escapes column us) ok' means')
    (noOr : .sign "||".toList ∉ ts ∧ .sign "||".toList ∉ us)
    (noAnd : .sign "&&".toList ∉ ts ∧ .sign "&&".toList ∉ us) :
    Reads (disjunction escapes column (ts ++ .sign "&&".toList :: us)) (ok ∧ ok')
      fun row => means row ∧ means' row := by
  have absent : .sign "||".toList ∉ ts ++ .sign "&&".toList :: us := by
    simp only [List.mem_append, List.mem_cons, noOr.1, noOr.2, false_or, or_false]
    decide
  have whole : disjunction escapes column (ts ++ .sign "&&".toList :: us) =
      (clause escapes column ts).bind fun f => (clause escapes column us).map fun g row =>
        f row && g row := by
    rw [disjunction, List.splitOn_eq_singleton absent, List.mapM_cons, conjunction,
      List.splitOn_append_cons_self_of_not_mem noAnd.1, List.splitOn_eq_singleton noAnd.2,
      List.mapM_cons, List.mapM_cons]
    cases clause escapes column ts with
    | none => rfl
    | some f => cases clause escapes column us <;> simp
  rw [whole]
  constructor
  · intro holds same
    obtain ⟨f, left, same⟩ := Option.bind_eq_some_iff.mp same
    obtain ⟨g, right, rfl⟩ := Option.map_eq_some_iff.mp same
    obtain ⟨okLeft, meansLeft⟩ := first.sound f left
    obtain ⟨okRight, meansRight⟩ := second.sound g right
    refine ⟨⟨okLeft, okRight⟩, fun row => ?_⟩
    rw [Bool.and_eq_true, meansLeft, meansRight]
  · rintro ⟨okLeft, okRight⟩
    obtain ⟨f, left⟩ := first.complete okLeft
    obtain ⟨g, right⟩ := second.complete okRight
    exact ⟨_, by rw [left, right, Option.bind_some, Option.map_some]⟩

end KnowledgeCompanion.FilterExpression
