import Mathlib.Tactic.Common
import Mathlib.Algebra.GroupWithZero.Nat
import Mathlib.Data.List.Basic

/-! Texts of the modelled programs as lists of Unicode characters, with the few
string operations that both the Go and the Python side are built from. -/

namespace KnowledgeCompanion

/-- A Go `string` or a Python `str`. -/
abbrev Text := List Char

instance decidableMemTexts (t : Text) (ts : List Text) : Decidable (t ∈ ts) := inferInstance

namespace Text

variable {α : Type*} [DecidableEq α]

theorem not_mem_of_mem_splitOn {x : α} {xs piece : List α} (h : piece ∈ xs.splitOn x) :
    x ∉ piece := by
  induction xs generalizing piece with
  | nil => simp_all
  | cons y ys ih =>
    rw [List.splitOn_cons_eq_if_modifyHead] at h
    by_cases same : y = x
    · rw [if_pos (beq_iff_eq.mpr same)] at h
      rcases List.mem_cons.mp h with rfl | h
      · exact List.not_mem_nil
      · exact ih h
    · rw [if_neg (by simpa using same)] at h
      cases pieces : ys.splitOn x with
      | nil => exact absurd pieces (List.splitOn_ne_nil x ys)
      | cons first rest =>
        rw [pieces] at h ih
        rcases List.mem_cons.mp h with rfl | h
        · have clean := ih List.mem_cons_self
          simp [clean, Ne.symm same]
        · exact ih (List.mem_cons_of_mem _ h)

theorem splitOn_eq_two {x : α} {xs a b : List α} :
    xs.splitOn x = [a, b] ↔ xs = a ++ x :: b ∧ x ∉ a ∧ x ∉ b := by
  constructor
  · intro h
    have joined : [x].intercalate (xs.splitOn x) = xs := List.intercalate_splitOn x
    rw [h] at joined
    refine ⟨by simpa [List.intercalate] using joined.symm, ?_, ?_⟩
    all_goals
      refine not_mem_of_mem_splitOn (?_ : _ ∈ xs.splitOn x)
      rw [h]
      simp
  · rintro ⟨rfl, ha, hb⟩
    rw [List.splitOn_append_cons_self_of_not_mem ha, List.splitOn_eq_singleton hb]

theorem splitOn_eq_three {x : α} {xs a b c : List α} :
    xs.splitOn x = [a, b, c] ↔
      xs = a ++ x :: (b ++ x :: c) ∧ x ∉ a ∧ x ∉ b ∧ x ∉ c := by
  constructor
  · intro h
    have joined : [x].intercalate (xs.splitOn x) = xs := List.intercalate_splitOn x
    rw [h] at joined
    refine ⟨by simpa [List.intercalate] using joined.symm, ?_, ?_, ?_⟩
    all_goals
      refine not_mem_of_mem_splitOn (?_ : _ ∈ xs.splitOn x)
      rw [h]
      simp
  · rintro ⟨rfl, ha, hb, hc⟩
    rw [List.splitOn_append_cons_self_of_not_mem ha, List.splitOn_append_cons_self_of_not_mem hb,
      List.splitOn_eq_singleton hc]

omit [DecidableEq α] in
theorem mem_intercalate {x y : α} {parts : List (List α)} :
    y ∈ [x].intercalate parts → y = x ∨ ∃ part ∈ parts, y ∈ part := by
  induction parts with
  | nil => exact fun mem => absurd mem List.not_mem_nil
  | cons part rest ih =>
    intro mem
    cases rest with
    | nil =>
      rw [List.intercalate_singleton] at mem
      exact .inr ⟨part, List.mem_cons_self, mem⟩
    | cons next rest =>
      rw [List.intercalate_cons_cons, List.append_assoc] at mem
      rcases List.mem_append.mp mem with here | later
      · exact .inr ⟨part, List.mem_cons_self, here⟩
      · rcases List.mem_append.mp later with separator | later
        · exact .inl (List.mem_singleton.mp separator)
        · obtain separator | ⟨other, there, inside⟩ := ih later
          · exact .inl separator
          · exact .inr ⟨other, List.mem_cons_of_mem part there, inside⟩

omit [DecidableEq α] in
theorem mem_intercalate_of_mem {x y : α} {parts : List (List α)} {part : List α}
    (there : part ∈ parts) (inside : y ∈ part) : y ∈ [x].intercalate parts := by
  induction parts with
  | nil => exact absurd there List.not_mem_nil
  | cons first rest ih =>
    cases rest with
    | nil =>
      rw [List.intercalate_singleton, ← List.mem_singleton.mp there]
      exact inside
    | cons next rest =>
      rw [List.intercalate_cons_cons, List.append_assoc]
      rcases List.mem_cons.mp there with rfl | later
      · exact List.mem_append_left _ inside
      · exact List.mem_append_right _ (List.mem_append_right _ (ih later))

theorem mem_splitOn {x y : α} {xs : List α} (h : y ∈ xs) :
    y = x ∨ ∃ piece ∈ xs.splitOn x, y ∈ piece := by
  have whole : [x].intercalate (xs.splitOn x) = xs := List.intercalate_splitOn x
  rw [← whole] at h
  exact mem_intercalate h

theorem append_cons_inj {x : α} {a b c d : List α} (ha : x ∉ a) (hc : x ∉ c)
    (same : a ++ x :: b = c ++ x :: d) : a = c ∧ b = d := by
  have split := congrArg (List.splitOn x) same
  rw [List.splitOn_append_cons_self_of_not_mem ha,
    List.splitOn_append_cons_self_of_not_mem hc] at split
  have heads := (List.cons.inj split).1
  subst heads
  exact ⟨rfl, (List.cons.inj (List.append_cancel_left same)).2⟩

theorem append_cons_unique {x : α} {a b c d : List α} (ha : x ∉ a) (hb : x ∉ b)
    (same : a ++ x :: b = c ++ x :: d) : a = c ∧ b = d := by
  have count := congrArg (List.count x) same
  simp only [List.count_append, List.count_cons_self, List.count_eq_zero_of_not_mem ha,
    List.count_eq_zero_of_not_mem hb] at count
  have hc : x ∉ c := List.count_eq_zero.mp (by omega)
  exact append_cons_inj ha hc same

end Text

end KnowledgeCompanion
