import Mathlib.Tactic.Common
import Mathlib.Data.List.TakeDrop
import Mathlib.Algebra.Order.Group.Nat
import Mathlib.Algebra.BigOperators.Group.List.Basic
import Mathlib.Algebra.GroupWithZero.Nat

/-! The longest prefix of a list whose costs stay within a limit, some of which is
used beforehand. A scan that stops at the first element that does not fit finds
it, and two lists have it in common exactly when they agree as far as the limit
reaches. -/

namespace KnowledgeCompanion.BudgetedPrefix

variable {α : Type*} (cost : α → ℕ) (limit used : ℕ)

def Fits (xs : List α) : Prop := used + (xs.map cost).sum ≤ limit

instance (xs : List α) : Decidable (Fits cost limit used xs) :=
  inferInstanceAs (Decidable (_ ≤ _))

def keepWithin : ℕ → List α → List α
  | _, [] => []
  | used, x :: xs => if limit < used + cost x then [] else x :: keepWithin (used + cost x) xs

theorem keepWithin_map {β : Type*} {cost : β → ℕ} (f : α → β) (limit used : ℕ) (xs : List α) :
    keepWithin cost limit used (xs.map f) =
      (keepWithin (fun a => cost (f a)) limit used xs).map f := by
  induction xs generalizing used with
  | nil => rfl
  | cons x xs ih =>
    rw [List.map_cons, keepWithin, keepWithin]
    split
    · rfl
    · rw [ih, List.map_cons]

structure IsLongest (xs ys : List α) : Prop where
  isPrefix : ys <+: xs
  fits : ys ≠ [] → Fits cost limit used ys
  longest : ∀ zs, zs <+: xs → Fits cost limit used zs → zs.length ≤ ys.length

section Scan

variable {cost limit used}

theorem fits_cons {x : α} {xs : List α} :
    Fits cost limit used (x :: xs) ↔ Fits cost limit (used + cost x) xs := by
  simp only [Fits, List.map_cons, List.sum_cons]
  omega

theorem fits_of_prefix {xs ys : List α} (h : ys <+: xs) (fits : Fits cost limit used xs) :
    Fits cost limit used ys := by
  obtain ⟨rest, split⟩ := h
  simp only [Fits, ← split, List.map_append, List.sum_append] at fits ⊢
  omega

theorem keepWithin_prefix (xs : List α) : keepWithin cost limit used xs <+: xs := by
  induction xs generalizing used with
  | nil => exact List.prefix_rfl
  | cons x xs ih =>
    unfold keepWithin
    split
    · exact List.nil_prefix
    · exact List.cons_prefix_cons.mpr ⟨rfl, ih⟩

theorem keepWithin_fits {xs : List α} (start : used ≤ limit) :
    Fits cost limit used (keepWithin cost limit used xs) := by
  induction xs generalizing used with
  | nil => simpa [Fits, keepWithin] using start
  | cons x xs ih =>
    unfold keepWithin
    split
    · simpa [Fits] using start
    · exact fits_cons.mpr (ih (by omega))

theorem prefix_keepWithin {xs ys : List α} (h : ys <+: xs) (fits : Fits cost limit used ys) :
    ys <+: keepWithin cost limit used xs := by
  induction xs generalizing used ys with
  | nil => exact h
  | cons x xs ih =>
    cases ys with
    | nil => exact List.nil_prefix
    | cons y ys =>
      obtain ⟨same, rest⟩ := List.cons_prefix_cons.mp h
      rw [same] at fits ⊢
      have left := fits_cons.mp fits
      have room : ¬ limit < used + cost x := by
        unfold Fits at left
        omega
      rw [keepWithin, if_neg room]
      exact List.cons_prefix_cons.mpr ⟨rfl, ih rest left⟩

theorem keepWithin_isLongest (xs : List α) :
    IsLongest cost limit used xs (keepWithin cost limit used xs) where
  isPrefix := keepWithin_prefix xs
  fits := by
    intro some
    apply keepWithin_fits
    by_contra full
    apply some
    cases xs with
    | nil => rfl
    | cons x xs =>
      rw [keepWithin, if_pos (by omega)]
  longest := fun _ isPrefix fits => (prefix_keepWithin isPrefix fits).length_le

theorem IsLongest.length_le {xs ys zs : List α} (hy : IsLongest cost limit used xs ys)
    (hz : IsLongest cost limit used xs zs) : ys.length ≤ zs.length := by
  by_cases none : ys = []
  · simp [none]
  · exact hz.longest ys hy.isPrefix (hy.fits none)

theorem isLongest_iff {xs ys : List α} :
    IsLongest cost limit used xs ys ↔ ys = keepWithin cost limit used xs := by
  constructor
  · intro h
    have kept : IsLongest cost limit used xs (keepWithin cost limit used xs) :=
      keepWithin_isLongest xs
    have same : ys.length = (keepWithin cost limit used xs).length :=
      Nat.le_antisymm (h.length_le kept) (kept.length_le h)
    rw [List.prefix_iff_eq_take.mp h.isPrefix, same]
    exact (List.prefix_iff_eq_take.mp kept.isPrefix).symm
  · intro same
    rw [same]
    exact keepWithin_isLongest xs

theorem length_le_of_not_fits {xs ys : List α} {k : ℕ} (h : ys <+: xs)
    (fits : Fits cost limit used ys) (beyond : ¬ Fits cost limit used (xs.take (k + 1))) :
    ys.length ≤ k := by
  by_contra longer
  apply beyond
  apply fits_of_prefix _ fits
  rw [List.prefix_iff_eq_take.mp h]
  apply List.take_prefix_take_left
  omega

theorem not_fits_next {xs : List α} (shorter : (keepWithin cost limit used xs).length < xs.length) :
    ¬ Fits cost limit used (xs.take ((keepWithin cost limit used xs).length + 1)) := by
  intro fits
  have longer := (keepWithin_isLongest xs).longest _ (List.take_prefix _ xs) fits
  rw [List.length_take] at longer
  omega

theorem isLongest_of_agree {xs ys : List α} {k : ℕ} (agree : xs.take k = ys.take k)
    (beyond : ¬ Fits cost limit used (xs.take (k + 1)) ∧ ¬ Fits cost limit used (ys.take (k + 1)))
    {zs : List α} (h : IsLongest cost limit used xs zs) : IsLongest cost limit used ys zs := by
  have carries {as bs ws : List α} (same : as.take k = bs.take k)
      (stop : ¬ Fits cost limit used (as.take (k + 1))) (isPrefix : ws <+: as)
      (fits : ws ≠ [] → Fits cost limit used ws) : ws <+: bs := by
    by_cases none : ws = []
    · simp [none]
    · have short := length_le_of_not_fits isPrefix (fits none) stop
      have inside : ws <+: as.take k := List.prefix_take_iff.mpr ⟨isPrefix, short⟩
      rw [same] at inside
      exact inside.trans (List.take_prefix k bs)
  refine ⟨carries agree beyond.1 h.isPrefix h.fits, h.fits, ?_⟩
  intro ws isPrefix fits
  exact h.longest ws (carries agree.symm beyond.2 isPrefix fun _ => fits) fits

theorem keepWithin_eq_iff {xs ys : List α} (length : xs.length = ys.length) :
    keepWithin cost limit used xs = keepWithin cost limit used ys ↔
      ∃ k ≤ xs.length, xs.take k = ys.take k ∧ (k = xs.length ∨
        ¬ Fits cost limit used (xs.take (k + 1)) ∧ ¬ Fits cost limit used (ys.take (k + 1))) := by
  constructor
  · intro same
    have hx : keepWithin cost limit used xs <+: xs := keepWithin_prefix xs
    have hy : keepWithin cost limit used ys <+: ys := keepWithin_prefix ys
    refine ⟨(keepWithin cost limit used xs).length, hx.length_le, ?_, ?_⟩
    · rw [← List.prefix_iff_eq_take.mp hx, same, ← List.prefix_iff_eq_take.mp hy]
    · by_cases whole : (keepWithin cost limit used xs).length = xs.length
      · exact .inl whole
      · have short := hx.length_le
        refine .inr ⟨not_fits_next (by omega), ?_⟩
        rw [same] at whole short ⊢
        exact not_fits_next (by omega)
  · intro h
    obtain ⟨k, -, agree, stop⟩ := h
    rcases stop with whole | beyond
    · rw [whole, List.take_length, length, List.take_length] at agree
      rw [agree]
    · exact isLongest_iff.mp (isLongest_of_agree agree beyond (keepWithin_isLongest xs))

end Scan

end KnowledgeCompanion.BudgetedPrefix
