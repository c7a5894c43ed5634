import Mathlib.Data.List.DropRight
import Mathlib.Data.List.TakeWhile
import Mathlib.Algebra.Group.Int.Defs
import KnowledgeCompanion.Text

/-! The methods of Dart's `String` that the client uses on whole texts. -/

namespace KnowledgeCompanion.DartText

/-- The characters that `String.trim` removes: `White_Space` of Unicode and the byte order
mark. -/
def isWhitespace (c : Char) : Bool :=
  let n := c.toNat
  (9 ≤ n && n ≤ 13) || n == 32 || n == 0x85 || n == 0xA0 || n == 0x1680 ||
    (0x2000 ≤ n && n ≤ 0x200A) || n == 0x2028 || n == 0x2029 || n == 0x202F || n == 0x205F ||
    n == 0x3000 || n == 0xFEFF

def trim (text : Text) : Text := (text.dropWhile isWhitespace).rdropWhile isWhitespace

def splitBlankLine : Text → List Text
  | '\n' :: '\n' :: rest => [] :: splitBlankLine rest
  | c :: rest => (splitBlankLine rest).modifyHead (c :: ·)
  | [] => [[]]

/-- The parts before and after the first place that `indexOf(pattern)` finds. -/
def cutFirst (pattern : Text) : Text → Option (Text × Text)
  | [] => if pattern.isPrefixOf [] then some ([], []) else none
  | c :: rest =>
    if pattern.isPrefixOf (c :: rest) then some ([], (c :: rest).drop pattern.length)
    else (cutFirst pattern rest).map fun parts => (c :: parts.1, parts.2)

def asInt (value : ℤ) : Option ℤ := if -2 ^ 63 ≤ value ∧ value < 2 ^ 63 then some value else none

def decimalDigits (digits : Text) : Option ℕ :=
  if digits ≠ [] ∧ digits.all Char.isDigit then some (Nat.ofDigitChars 10 digits 0) else none

def hexDigit (c : Char) : Option ℕ :=
  if c.isDigit then some (c.toNat - 48)
  else if 97 ≤ c.toNat ∧ c.toNat ≤ 102 then some (c.toNat - 87)
  else if 65 ≤ c.toNat ∧ c.toNat ≤ 70 then some (c.toNat - 55)
  else none

def hexDigits (digits : Text) : Option ℕ :=
  if digits = [] then none
  else digits.foldl (fun value c => value.bind fun n => (hexDigit c).map (16 * n + ·)) (some 0)

def signed : Text → ℤ × Text
  | '-' :: digits => (-1, digits)
  | '+' :: digits => (1, digits)
  | digits => (1, digits)

def hexPrefixed : Text → Option Text
  | '0' :: 'x' :: digits => some digits
  | '0' :: 'X' :: digits => some digits
  | _ => none

/-- `int.tryParse`. A hexadecimal number without a minus may use the sign bit. -/
def intTryParse (source : Text) : Option ℤ :=
  let (sign, digits) := signed (trim source)
  match hexPrefixed digits with
  | some hex => (hexDigits hex).bind fun n =>
      if sign = 1 ∧ n < 2 ^ 64 then some (Int.bmod n (2 ^ 64)) else asInt (sign * n)
  | none => (decimalDigits digits).bind fun n => asInt (sign * n)

def Blank (text : Text) : Prop := ∀ c ∈ text, isWhitespace c = true

def trimRight (text : Text) : Text := text.rdropWhile isWhitespace

theorem trim_eq_nil {text : Text} : trim text = [] ↔ Blank text := by
  unfold trim
  rw [List.rdropWhile_eq_nil_iff]
  constructor
  · intro rest c mem
    rw [← List.takeWhile_append_dropWhile (p := isWhitespace) (l := text)] at mem
    rcases List.mem_append.mp mem with front | back
    · exact List.mem_takeWhile_imp front
    · exact rest c back
  · intro blank c mem
    exact blank c (List.dropWhile_subset _ mem)

theorem trim_blank_append {front text : Text} (blank : Blank front) :
    trim (front ++ text) = trim text := by
  unfold trim
  rw [List.dropWhile_append_of_pos blank]

theorem rdropWhile_append_blank {text back : Text} (blank : Blank back) :
    (text ++ back).rdropWhile isWhitespace = text.rdropWhile isWhitespace := by
  unfold List.rdropWhile
  rw [List.reverse_append, List.dropWhile_append_of_pos]
  exact fun c mem => blank c (List.mem_reverse.mp mem)

theorem trim_append_blank {text back : Text} (blank : Blank back) :
    trim (text ++ back) = trim text := by
  by_cases all : Blank text
  · have both : Blank (text ++ back) := fun c mem =>
      (List.mem_append.mp mem).elim (all c) (blank c)
    rw [trim_eq_nil.mpr both, trim_eq_nil.mpr all]
  · have some : (text.dropWhile isWhitespace).isEmpty = false := by
      rw [List.isEmpty_eq_false_iff]
      exact fun none => all (List.dropWhile_eq_nil_iff.mp none)
    unfold trim
    rw [List.dropWhile_append, some]
    exact rdropWhile_append_blank blank

theorem trimRight_append (text : Text) : ∃ back, Blank back ∧ text = trimRight text ++ back :=
  ⟨text.rtakeWhile isWhitespace, fun _ mem => List.mem_rtakeWhile_imp mem,
    List.rdropWhile_append_rtakeWhile.symm⟩

theorem trim_eq_self {text : Text} (first : ∀ c ∈ text.head?, isWhitespace c = false)
    (last : ∀ c ∈ text.getLast?, isWhitespace c = false) : trim text = text := by
  cases text with
  | nil => rfl
  | cons c rest =>
    unfold trim
    rw [List.dropWhile_cons_of_neg (by rw [first c rfl]; exact Bool.false_ne_true),
      List.rdropWhile_eq_self_iff]
    intro filled
    rw [last _ (List.getLast?_eq_some_getLast filled)]
    exact Bool.false_ne_true

def ink (text : Text) : ℕ := text.countP fun c => !isWhitespace c

theorem ink_append (a b : Text) : ink (a ++ b) = ink a + ink b := List.countP_append

theorem ink_blank {text : Text} (blank : Blank text) : ink text = 0 := by
  unfold ink
  rw [List.countP_eq_zero]
  intro c mem
  rw [blank c mem]
  exact Bool.false_ne_true

theorem ink_pos {text : Text} (visible : ¬ Blank text) : 0 < ink text := by
  by_contra none
  refine visible fun c mem => ?_
  have zero : ink text = 0 := by omega
  have here := List.countP_eq_zero.mp zero c mem
  simpa using here

theorem ink_trim (text : Text) : ink (trim text) = ink text := by
  have split : text = text.takeWhile isWhitespace ++ text.dropWhile isWhitespace :=
    List.takeWhile_append_dropWhile.symm
  have front : ink (text.takeWhile isWhitespace) = 0 :=
    ink_blank fun c mem => List.mem_takeWhile_imp mem
  obtain ⟨back, blank, rest⟩ := trimRight_append (text.dropWhile isWhitespace)
  calc ink (trim text) = ink (trim text) + ink back := by rw [ink_blank blank, Nat.add_zero]
    _ = ink (text.dropWhile isWhitespace) := by rw [← ink_append]; exact congrArg ink rest.symm
    _ = ink text := by rw [split, ink_append, front, Nat.zero_add, ← split]

theorem ink_lines (lines : List Text) : ink (['\n'].intercalate lines) = ink lines.flatten := by
  induction lines with
  | nil => rfl
  | cons line rest ih =>
    cases rest with
    | nil => rw [List.intercalate_singleton, List.flatten_cons, List.flatten_nil, List.append_nil]
    | cons next rest =>
      have newline : ink ['\n'] = 0 := by decide
      have whole : (line :: next :: rest).flatten = line ++ (next :: rest).flatten := rfl
      rw [List.intercalate_cons_cons, ink_append, ink_append, newline, ih, whole, ink_append]
      omega

def hasBlankLine : Text → Bool
  | '\n' :: '\n' :: _ => true
  | _ :: rest => hasBlankLine rest
  | [] => false

theorem splitBlankLine_ne_nil (text : Text) : splitBlankLine text ≠ [] := by
  induction text using splitBlankLine.induct with
  | case1 rest ih => exact List.cons_ne_nil _ _
  | case2 c rest other ih =>
    rw [splitBlankLine]
    · exact fun none => ih (List.modifyHead_eq_nil_iff.mp none)
    · exact other
  | case3 => exact List.cons_ne_nil _ _

theorem modifyHead_append {α : Type*} {f : α → α} {xs ys : List α} (some : xs ≠ []) :
    (xs ++ ys).modifyHead f = xs.modifyHead f ++ ys := by
  cases xs with
  | nil => exact absurd rfl some
  | cons x xs => rfl

theorem splitBlankLine_cons {c : Char} {rest : Text}
    (other : c = '\n' → rest.head? ≠ some '\n') :
    splitBlankLine (c :: rest) = (splitBlankLine rest).modifyHead (c :: ·) := by
  rw [splitBlankLine]
  rintro more rfl rfl
  exact other rfl rfl

theorem unended_tail {c : Char} {rest : Text} (unended : (c :: rest).getLast? ≠ some '\n') :
    rest.getLast? ≠ some '\n' := by
  cases rest with
  | nil => exact (Option.some_ne_none '\n').symm
  | cons d more => exact unended

theorem head_of_other {c : Char} {rest : Text}
    (other : ∀ more, c = '\n' → rest = '\n' :: more → False) :
    c = '\n' → rest.head? ≠ some '\n' := by
  intro line head
  obtain ⟨more, same⟩ := List.head?_eq_some_iff.mp head
  exact other more line same

theorem head_append {c : Char} {rest : Text} (unended : (c :: rest).getLast? ≠ some '\n')
    (here : c = '\n' → rest.head? ≠ some '\n') (back : Text) :
    c = '\n' → (rest ++ back).head? ≠ some '\n' := by
  intro line
  cases rest with
  | nil => exact absurd (congrArg some line) unended
  | cons d more => exact here line

theorem splitBlankLine_append {a : Text} (b : Text) (unended : a.getLast? ≠ some '\n') :
    splitBlankLine (a ++ '\n' :: '\n' :: b) = splitBlankLine a ++ splitBlankLine b := by
  induction a using splitBlankLine.induct with
  | case1 rest ih =>
    have still := unended_tail (unended_tail unended)
    rw [List.cons_append, List.cons_append, splitBlankLine, splitBlankLine, ih still,
      List.cons_append]
  | case2 c rest other ih =>
    have still := unended_tail unended
    have here := head_of_other other
    rw [List.cons_append, splitBlankLine_cons (head_append unended here _),
      splitBlankLine_cons here, ih still,
      modifyHead_append (splitBlankLine_ne_nil rest)]
  | case3 => rfl

theorem hasBlankLine_cons {c : Char} {rest : Text} (other : c = '\n' → rest.head? ≠ some '\n') :
    hasBlankLine (c :: rest) = hasBlankLine rest := by
  rw [hasBlankLine]
  rintro more rfl rfl
  exact other rfl rfl

theorem hasBlankLine_append {line : Text} (text : Text) (plain : '\n' ∉ line) :
    hasBlankLine (line ++ text) = hasBlankLine text := by
  induction line with
  | nil => rfl
  | cons c line ih =>
    have other : c ≠ '\n' := fun same => plain (same ▸ List.mem_cons_self)
    rw [List.cons_append, hasBlankLine_cons fun same => absurd same other,
      ih fun mem => plain (List.mem_cons_of_mem c mem)]

theorem splitBlankLine_front {a : Text} (b : Text) (unended : a.getLast? ≠ some '\n')
    (plain : hasBlankLine a = false) :
    splitBlankLine (a ++ b) = (splitBlankLine b).modifyHead (a ++ ·) := by
  induction a with
  | nil => exact (congrFun List.modifyHead_id (splitBlankLine b)).symm
  | cons c rest ih =>
    have still := unended_tail unended
    have here : c = '\n' → rest.head? ≠ some '\n' := by
      rintro rfl head
      cases rest with
      | nil => cases head
      | cons d more =>
        rw [Option.some.inj head] at plain
        exact Bool.false_ne_true plain.symm
    rw [hasBlankLine_cons here] at plain
    rw [List.cons_append, splitBlankLine_cons (head_append unended here b), ih still plain,
      List.modifyHead_modifyHead]
    rfl

theorem splitBlankLine_first {text : Text} (found : hasBlankLine text = true) :
    ∃ a b, text = a ++ '\n' :: '\n' :: b ∧
      ∀ back, splitBlankLine (text ++ back) = a :: splitBlankLine (b ++ back) := by
  induction text with
  | nil => exact absurd found Bool.false_ne_true
  | cons c rest ih =>
    by_cases here : c = '\n' → rest.head? ≠ some '\n'
    · rw [hasBlankLine_cons here] at found
      obtain ⟨a, b, same, split⟩ := ih found
      refine ⟨c :: a, b, by rw [same]; rfl, fun back => ?_⟩
      have after : c = '\n' → (rest ++ back).head? ≠ some '\n' := by
        cases rest with
        | nil => exact absurd found Bool.false_ne_true
        | cons d more => exact here
      rw [List.cons_append, splitBlankLine_cons after, split back]
      rfl
    · rw [Classical.not_imp, ne_eq, not_not] at here
      obtain ⟨rfl, head⟩ := here
      cases rest with
      | nil => cases head
      | cons d more =>
        rw [Option.some.inj head]
        exact ⟨[], more, rfl, fun back => rfl⟩

theorem ink_splitBlankLine (text : Text) : ink (splitBlankLine text).flatten = ink text := by
  induction text using splitBlankLine.induct with
  | case1 rest ih =>
    have lines : ink ('\n' :: '\n' :: rest) = ink rest :=
      (ink_append ['\n', '\n'] rest).trans (Nat.zero_add _)
    rw [splitBlankLine, lines, List.flatten_cons, List.nil_append, ih]
  | case2 c rest other ih =>
    have whole : ((splitBlankLine rest).modifyHead (c :: ·)).flatten =
        c :: (splitBlankLine rest).flatten := by
      cases pieces : splitBlankLine rest with
      | nil => exact absurd pieces (splitBlankLine_ne_nil rest)
      | cons first more => rfl
    have split (t : Text) : ink (c :: t) = ink [c] + ink t := ink_append [c] t
    rw [splitBlankLine, whole, split, split rest, ih]
    exact other
  | case3 => rfl

theorem splitBlankLine_blank {text : Text} (blank : Blank text) :
    ∀ piece ∈ splitBlankLine text, Blank piece := by
  have all : Blank (splitBlankLine text).flatten := by
    by_contra visible
    have some := ink_pos visible
    rw [ink_splitBlankLine, ink_blank blank] at some
    exact Nat.lt_irrefl 0 some
  exact fun piece mem c here => all c (List.mem_flatten.mpr ⟨piece, mem, here⟩)

theorem splitBlankLine_newline {text : Text} (unended : text.getLast? ≠ some '\n') :
    (splitBlankLine (text ++ ['\n'])).map trimRight = (splitBlankLine text).map trimRight := by
  have cons (c : Char) (pieces pieces' : List Text)
      (same : pieces.map trimRight = pieces'.map trimRight) :
      (pieces.modifyHead (c :: ·)).map trimRight = (pieces'.modifyHead (c :: ·)).map trimRight := by
    cases pieces with
    | nil =>
      cases pieces' with
      | nil => rfl
      | cons => cases same
    | cons p ps =>
      cases pieces' with
      | nil => cases same
      | cons q qs =>
        rw [List.map_cons, List.map_cons] at same
        obtain ⟨first, rest⟩ := List.cons.inj same
        obtain ⟨pw, pblank, pwhole⟩ := trimRight_append p
        obtain ⟨qw, qblank, qwhole⟩ := trimRight_append q
        have head : trimRight (c :: p) = trimRight (c :: q) := by
          rw [pwhole, qwhole, ← List.cons_append, ← List.cons_append, first]
          unfold trimRight
          rw [rdropWhile_append_blank pblank, rdropWhile_append_blank qblank]
        rw [List.modifyHead_cons, List.modifyHead_cons, List.map_cons, List.map_cons, head, rest]
  induction text using splitBlankLine.induct with
  | case1 rest ih =>
    have still := unended_tail (unended_tail unended)
    rw [List.cons_append, List.cons_append, splitBlankLine, splitBlankLine, List.map_cons,
      List.map_cons, ih still]
  | case2 c rest other ih =>
    have still := unended_tail unended
    have here := head_of_other other
    rw [List.cons_append, splitBlankLine_cons (head_append unended here _),
      splitBlankLine_cons here]
    exact cons c _ _ (ih still)
  | case3 => rfl

end KnowledgeCompanion.DartText
