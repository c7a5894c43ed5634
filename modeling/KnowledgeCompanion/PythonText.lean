import Mathlib.Data.List.DropRight
import KnowledgeCompanion.SpanScan
import KnowledgeCompanion.Text

/-! The `str` operations that the Python services use on whole texts. -/

namespace KnowledgeCompanion.PythonText

open SpanScan

/-- `str.isspace` of one character, which is also what `\s` matches. -/
def isSpace (c : Char) : Bool :=
  let n := c.toNat
  (9 ≤ n && n ≤ 13) || (28 ≤ n && n ≤ 32) || n == 0x85 || n == 0xA0 || n == 0x1680 ||
    (0x2000 ≤ n && n ≤ 0x200A) || n == 0x2028 || n == 0x2029 || n == 0x202F || n == 0x205F ||
    n == 0x3000

def lstrip (text : Text) : Text := text.dropWhile isSpace

def rstrip (text : Text) : Text := text.rdropWhile isSpace

def strip (text : Text) : Text := rstrip (lstrip text)

def isBlank (text : Text) : Bool := (strip text).isEmpty

theorem isBlank_iff {text : Text} : isBlank text = true ↔ ∀ c ∈ text, isSpace c = true := by
  have rest : isBlank text = true ↔ ∀ c ∈ text.dropWhile isSpace, isSpace c = true := by
    rw [isBlank, List.isEmpty_iff]
    exact List.rdropWhile_eq_nil_iff
  rw [rest]
  constructor
  · intro h c mem
    rw [← List.takeWhile_append_dropWhile (p := isSpace) (l := text)] at mem
    rcases List.mem_append.mp mem with front | back
    · exact List.mem_takeWhile_imp front
    · exact h c back
  · intro h c mem
    exact h c (List.dropWhile_sublist _ |>.mem mem)

theorem ne_nil_of_not_blank {text : Text} (h : isBlank text = false) : text ≠ [] := by
  intro empty
  rw [empty] at h
  exact Bool.false_ne_true h.symm

def separatorAt (sep : Text) (text : Text) : Option ℕ :=
  if sep <+: text then some sep.length else none

/-- `text.split(sep)` for a separator that is not empty. -/
def split (sep text : Text) : List Text :=
  (gaps text.length 0 (findIter (separatorAt sep) text)).map fun g => slice text g.start g.stop

theorem separatorAt_sound {sep : Text} (some : sep ≠ []) : Sound (separatorAt sep) := by
  intro text n found
  unfold separatorAt at found
  split at found
  · rename_i here
    rw [← Option.some.inj found]
    exact ⟨List.length_pos_iff.mpr some, here.length_le⟩
  · simp at found

theorem separatorAt_slice {sep text : Text} {s : Span}
    (mem : s ∈ findIter (separatorAt sep) text) : slice text s.start s.stop = sep := by
  have found := findIter_match mem
  unfold separatorAt at found
  split at found
  · rename_i here
    have length := Option.some.inj found
    have cut : slice text s.start s.stop = (text.drop s.start).take (s.stop - s.start) := by
      rw [slice, List.drop_take]
    rw [cut, ← length]
    exact (List.prefix_iff_eq_take.mp here).symm
  · simp at found

theorem split_rejoin {sep : Text} (some : sep ≠ []) (text : Text) :
    (rejoin sep (split sep text)).flatten = text := by
  have chained := findIter_chained (separatorAt_sound some) text
  have joined := gaps_rejoin chained fun s mem => separatorAt_slice mem
  rw [List.drop_zero] at joined
  exact joined

example : split "ab".toList "xababy".toList = ["x".toList, [], "y".toList] := by decide

def decimal (n : ℕ) : Text := Nat.toDigits 10 n

def decimalZeros : List ℕ :=
  [0x30, 0x660, 0x6f0, 0x7c0, 0x966, 0x9e6, 0xa66, 0xae6, 0xb66, 0xbe6, 0xc66, 0xce6, 0xd66,
    0xde6, 0xe50, 0xed0, 0xf20, 0x1040, 0x1090, 0x17e0, 0x1810, 0x1946, 0x19d0, 0x1a80, 0x1a90,
    0x1b50, 0x1bb0, 0x1c40, 0x1c50, 0xa620, 0xa8d0, 0xa900, 0xa9d0, 0xa9f0, 0xaa50, 0xabf0,
    0xff10, 0x104a0, 0x10d30, 0x11066, 0x110f0, 0x11136, 0x111d0, 0x112f0, 0x11450, 0x114d0,
    0x11650, 0x116c0, 0x11730, 0x118e0, 0x11950, 0x11c50, 0x11d50, 0x11da0, 0x16a60, 0x16ac0,
    0x16b50, 0x1d7ce, 0x1d7d8, 0x1d7e2, 0x1d7ec, 0x1d7f6, 0x1e140, 0x1e2f0, 0x1e950, 0x1fbf0]

def decimalValue (c : Char) : Option ℕ :=
  (decimalZeros.find? fun first => first ≤ c.toNat && c.toNat ≤ first + 9).map (c.toNat - ·)

/-- `int` of a text of digits, which raises beyond 4300 of them. -/
def intOfDigits (digits : Text) : Option ℕ :=
  if 4300 < digits.length then none
  else some (digits.foldl (fun n c => 10 * n + (decimalValue c).getD 0) 0)

theorem decimal_inj {m n : ℕ} (same : decimal m = decimal n) : m = n := by
  have value (k : ℕ) : Nat.ofDigitChars 10 (decimal k) 0 = k :=
    Nat.ofDigitChars_toDigits (by decide) (by decide)
  rw [← value m, ← value n, same]

end KnowledgeCompanion.PythonText
