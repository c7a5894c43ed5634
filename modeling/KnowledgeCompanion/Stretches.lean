import Mathlib.Data.List.Infix
import Mathlib.Data.List.TakeWhile
import Mathlib.Tactic.Common

/-! What a `.*` between two character classes amounts to: two kinds of elements in one
stretch of a list that no break interrupts. -/

namespace KnowledgeCompanion.Stretches

variable {α : Type*} {brk brk' p q : α → Bool} {xs ys : List α}

/-- The elements that `.*` can run over from the first one on. -/
def line (brk : α → Bool) (xs : List α) : List α := xs.takeWhile fun x => !brk x

def Together (brk p q : α → Bool) (xs : List α) : Prop :=
  ∃ stretch, stretch <:+: xs ∧ (∀ x ∈ stretch, brk x = false) ∧
    (∃ x ∈ stretch, p x = true) ∧ ∃ x ∈ stretch, q x = true

theorem line_append (unbroken : ∀ x ∈ ys, brk x = false) (rest : List α) :
    line brk (ys ++ rest) = ys ++ line brk rest :=
  List.takeWhile_append_of_pos fun x hx => by simp [unbroken x hx]

theorem mem_line {x : α} (h : x ∈ line brk xs) : brk x = false := by
  simpa using List.mem_takeWhile_imp h

theorem line_infix {tail : List α} (suffix : tail <:+ xs) : line brk tail <:+: xs :=
  (List.takeWhile_prefix _).isInfix.trans suffix.isInfix

theorem together_iff_ahead : Together brk p q xs ↔
    ∃ tail, tail <:+ xs ∧ (∃ x ∈ line brk tail, p x = true) ∧ ∃ x ∈ line brk tail, q x = true := by
  constructor
  · rintro ⟨stretch, ⟨front, back, rfl⟩, unbroken, ⟨a, ha, pa⟩, b, hb, qb⟩
    have runs : line brk (stretch ++ back) = stretch ++ line brk back := line_append unbroken back
    refine ⟨stretch ++ back, ⟨front, by simp⟩, ⟨a, ?_, pa⟩, b, ?_, qb⟩
    · rw [runs]
      exact List.mem_append_left _ ha
    · rw [runs]
      exact List.mem_append_left _ hb
  · rintro ⟨tail, suffix, kinds⟩
    exact ⟨line brk tail, line_infix suffix, fun x => mem_line, kinds⟩

theorem together_comm : Together brk p q xs ↔ Together brk q p xs := by
  simp only [Together, and_comm (a := ∃ x ∈ _, p x = true)]

def Before (brk p q : α → Bool) (xs : List α) : Prop :=
  ∃ x rest, (x :: rest) <:+ xs ∧ p x = true ∧ ∃ y ∈ line brk rest, q y = true

theorem Before.together (plain : ∀ x, p x = true → brk x = false) (h : Before brk p q xs) :
    Together brk p q xs := by
  obtain ⟨x, rest, suffix, px, y, hy, qy⟩ := h
  have runs : line brk (x :: rest) = x :: line brk rest := by simp [line, plain x px]
  refine together_iff_ahead.mpr ⟨x :: rest, suffix, ⟨x, ?_, px⟩, y, ?_, qy⟩
  · rw [runs]
    exact List.mem_cons_self
  · rw [runs]
    exact List.mem_cons_of_mem _ hy

theorem before_or_before (back : List α) (apart : ∀ x, p x = true → q x = false)
    {stretch : List α} (unbroken : ∀ x ∈ stretch, brk x = false) (hp : ∃ x ∈ stretch, p x = true)
    (hq : ∃ x ∈ stretch, q x = true) :
    Before brk p q (stretch ++ back) ∨ Before brk q p (stretch ++ back) := by
  induction stretch with
  | nil =>
    obtain ⟨x, hx, -⟩ := hp
    cases hx
  | cons x stretch ih =>
    have after : ∀ x ∈ stretch, brk x = false := fun y hy => unbroken y (List.mem_cons_of_mem _ hy)
    have runs : line brk (stretch ++ back) = stretch ++ line brk back := line_append after back
    obtain ⟨a, ha, pa⟩ := hp
    obtain ⟨b, hb, qb⟩ := hq
    rcases List.mem_cons.mp ha with rfl | later
    · rcases List.mem_cons.mp hb with rfl | hb
      · exact absurd qb (by simp [apart b pa])
      · exact .inl ⟨a, _, List.suffix_refl _, pa, b, runs ▸ List.mem_append_left _ hb, qb⟩
    · rcases List.mem_cons.mp hb with rfl | hb
      · exact .inr ⟨b, _, List.suffix_refl _, qb, a, runs ▸ List.mem_append_left _ later, pa⟩
      · rcases ih after ⟨a, later, pa⟩ ⟨b, hb, qb⟩ with h | h
        · obtain ⟨y, rest, suffix, found⟩ := h
          exact .inl ⟨y, rest, suffix.trans (List.suffix_cons _ _), found⟩
        · obtain ⟨y, rest, suffix, found⟩ := h
          exact .inr ⟨y, rest, suffix.trans (List.suffix_cons _ _), found⟩

theorem Before.of_suffix {tail : List α} (h : Before brk p q tail) (suffix : tail <:+ xs) :
    Before brk p q xs := by
  obtain ⟨x, rest, inner, found⟩ := h
  exact ⟨x, rest, inner.trans suffix, found⟩

theorem together_iff_before (apart : ∀ x, p x = true → q x = false)
    (plainP : ∀ x, p x = true → brk x = false) (plainQ : ∀ x, q x = true → brk x = false) :
    Together brk p q xs ↔ Before brk p q xs ∨ Before brk q p xs := by
  constructor
  · rintro ⟨stretch, ⟨front, back, rfl⟩, unbroken, hp, hq⟩
    have suffix : stretch ++ back <:+ front ++ stretch ++ back := ⟨front, by simp⟩
    rcases before_or_before back apart unbroken hp hq with h | h
    · exact .inl (h.of_suffix suffix)
    · exact .inr (h.of_suffix suffix)
  · rintro (h | h)
    · exact h.together plainP
    · exact together_comm.mp (h.together plainQ)

theorem Together.mono (fewer : ∀ x, brk' x = true → brk x = true) (h : Together brk p q xs) :
    Together brk' p q xs := by
  obtain ⟨stretch, inside, unbroken, kinds⟩ := h
  refine ⟨stretch, inside, fun x hx => ?_, kinds⟩
  refine Bool.eq_false_iff.mpr fun broken => ?_
  have whole := unbroken x hx
  rw [fewer x broken] at whole
  cases whole

theorem together_unbroken (unbroken : ∀ x ∈ xs, brk x = false) :
    Together brk p q xs ↔ (∃ x ∈ xs, p x = true) ∧ ∃ x ∈ xs, q x = true := by
  constructor
  · rintro ⟨stretch, inside, -, ⟨a, ha, pa⟩, b, hb, qb⟩
    exact ⟨⟨a, inside.subset ha, pa⟩, b, inside.subset hb, qb⟩
  · intro kinds
    exact ⟨xs, List.infix_refl xs, unbroken, kinds⟩

end KnowledgeCompanion.Stretches
