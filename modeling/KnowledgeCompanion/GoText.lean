import Mathlib.Data.List.DropRight
import Mathlib.Data.List.Infix
import KnowledgeCompanion.Text

/-! The functions of Go's `strings` package that the gateway uses on whole texts. -/

namespace KnowledgeCompanion.GoText

/-- `len` of a string, in bytes of its UTF-8 encoding. -/
def byteLength (text : Text) : ℕ := (text.map Char.utf8Size).sum

theorem length_le_byteLength (text : Text) : text.length ≤ byteLength text := by
  induction text with
  | nil => exact Nat.le_refl 0
  | cons c rest ih =>
    have byte := Char.utf8Size_pos c
    simp only [byteLength, List.map_cons, List.sum_cons, List.length_cons] at ih ⊢
    omega

def isSpace (c : Char) : Bool :=
  let n := c.toNat
  (9 ≤ n && n ≤ 13) || n == 32 || n == 0x85 || n == 0xA0 || n == 0x1680 ||
    (0x2000 ≤ n && n ≤ 0x200A) || n == 0x2028 || n == 0x2029 || n == 0x202F || n == 0x205F ||
    n == 0x3000

def trimSpace (text : Text) : Text := (text.dropWhile isSpace).rdropWhile isSpace

def trimRight (text cutset : Text) : Text := text.rdropWhile fun c => cutset.contains c

def cutPrefix (start text : Text) : Option Text :=
  if start.isPrefixOf text then some (text.drop start.length) else none

def join (lines : List Text) (sep : Text) : Text := sep.intercalate lines

theorem ne_nil_of_trimSpace {text : Text} (some : trimSpace text ≠ []) : text ≠ [] := by
  intro empty
  rw [empty] at some
  exact some rfl

theorem trimSpace_space {c : Char} (space : isSpace c = true) (text : Text) :
    trimSpace (c :: text) = trimSpace text := by
  rw [trimSpace, List.dropWhile_cons_of_pos space, trimSpace]

theorem dropWhile_prefix {p : Char → Bool} {text front : Text}
    (start : front <+: text.dropWhile p) :
    front.dropWhile p = front := by
  cases front with
  | nil => rfl
  | cons c front =>
    obtain ⟨back, whole⟩ := start
    refine List.dropWhile_cons_of_neg fun dropped => ?_
    have first : (text.dropWhile p).head? = some c := by rw [← whole]; rfl
    have undropped := List.head?_dropWhile_not p text
    rw [first] at undropped
    simp [dropped] at undropped

theorem trimSpace_trimSpace (text : Text) : trimSpace (trimSpace text) = trimSpace text := by
  have front : (trimSpace text).dropWhile isSpace = trimSpace text :=
    dropWhile_prefix (List.rdropWhile_prefix isSpace (text.dropWhile isSpace))
  rw [trimSpace, front, trimSpace, List.rdropWhile_idempotent]

theorem mem_of_mem_trimSpace {text : Text} {c : Char} (mem : c ∈ trimSpace text) : c ∈ text :=
  List.dropWhile_subset _ ((List.rdropWhile_prefix _ _).subset mem)

theorem getLast_trimmed {text : Text} (trimmed : trimSpace text = text) :
    ∀ c ∈ text.getLast?, isSpace c = false := by
  intro c last
  rw [← trimmed] at last
  have some_ : trimSpace text ≠ [] := by
    intro none
    rw [none] at last
    exact Option.some_ne_none c last.symm
  have dropped := List.rdropWhile_last_not isSpace (text.dropWhile isSpace) some_
  rw [List.getLast?_eq_some_getLast some_] at last
  rw [← Option.some.inj last]
  exact Bool.eq_false_iff.mpr dropped

theorem trimRight_line {text cutset back : Text} (cut : ∀ c ∈ back, c ∈ cutset)
    (last : ∀ c ∈ text.getLast?, c ∉ cutset) : trimRight (text ++ back) cutset = text := by
  induction back using List.reverseRecOn with
  | nil =>
    rw [List.append_nil, trimRight, List.rdropWhile_eq_self_iff]
    intro some_
    have kept := last _ (List.getLast?_eq_some_getLast some_)
    simpa using kept
  | append_singleton back c ih =>
    have here : cutset.contains c = true := by simpa using cut c (by simp)
    rw [← List.append_assoc, trimRight, List.rdropWhile_concat_pos _ _ _ here]
    exact ih fun d mem => cut d (by simp [mem])

end KnowledgeCompanion.GoText
