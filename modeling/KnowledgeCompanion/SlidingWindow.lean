import Mathlib.Algebra.Order.Group.Defs
import Mathlib.Data.List.Sort

/-! Events on an ordered time line, counted in the half-open windows of one length.
At most `n` events fall in each window exactly when events `n` places apart are at
least the window apart. -/

namespace KnowledgeCompanion.SlidingWindow

variable {α : Type*} [AddCommGroup α] [LinearOrder α]

def countFrom (w a : α) (xs : List α) : ℕ := xs.countP fun x => a ≤ x ∧ x < a + w

def countUpTo (w b : α) (xs : List α) : ℕ := xs.countP fun x => b - w < x ∧ x ≤ b

def AtMost (n : ℕ) (w : α) (xs : List α) : Prop :=
  (∀ a, countFrom w a xs ≤ n) ∧ ∀ b, countUpTo w b xs ≤ n

def Apart (n : ℕ) (w : α) (xs : List α) : Prop :=
  ∀ i x y, xs[i]? = some x → xs[i + n]? = some y → x + w ≤ y

variable {n : ℕ} {w : α} {xs ys : List α}

theorem countFrom_perm (a : α) (same : xs.Perm ys) : countFrom w a xs = countFrom w a ys :=
  same.countP_eq _

theorem countUpTo_perm (b : α) (same : xs.Perm ys) : countUpTo w b xs = countUpTo w b ys :=
  same.countP_eq _

theorem atMost_perm (same : xs.Perm ys) : AtMost n w xs ↔ AtMost n w ys := by
  simp only [AtMost, countFrom_perm _ same, countUpTo_perm _ same]

theorem apart_nil : Apart n w ([] : List α) := by
  intro i x y first
  simp at first

theorem Apart.tail {x : α} (apart : Apart n w (x :: xs)) : Apart n w xs := by
  intro i y z first second
  refine apart (i + 1) y z (by simpa using first) ?_
  rw [show i + 1 + n = i + n + 1 by omega]
  simpa using second

theorem Apart.of_infix (apart : Apart n w ys) (part : xs <:+: ys) : Apart n w xs := by
  obtain ⟨front, back, rfl⟩ := part
  intro i x y first second
  refine apart (front.length + i) x y ?_ ?_
  · obtain ⟨short, -⟩ := List.getElem?_eq_some_iff.1 first
    rw [List.append_assoc, List.getElem?_append_right (by omega), Nat.add_sub_cancel_left,
      List.getElem?_append_left short, first]
  · obtain ⟨short, -⟩ := List.getElem?_eq_some_iff.1 second
    rw [List.append_assoc, List.getElem?_append_right (by omega), Nat.add_assoc,
      Nat.add_sub_cancel_left, List.getElem?_append_left short, second]

theorem Apart.glue {zs : List α} (left : Apart n w (xs ++ ys)) (right : Apart n w (ys ++ zs))
    (far : ∀ x ∈ xs, ∀ z ∈ zs, x + w ≤ z) : Apart n w (xs ++ (ys ++ zs)) := by
  intro i x y first second
  by_cases early : i < xs.length
  · by_cases near : i + n < (xs ++ ys).length
    · rw [← List.append_assoc, List.getElem?_append_left near] at second
      refine left i x y ?_ second
      rw [List.getElem?_append_left early] at first ⊢
      exact first
    · rw [← List.append_assoc, List.getElem?_append_right (by omega)] at second
      rw [List.getElem?_append_left early] at first
      exact far x (List.mem_of_getElem? first) y (List.mem_of_getElem? second)
  · rw [List.getElem?_append_right (by omega)] at first second
    refine right (i - xs.length) x y first ?_
    rw [show i - xs.length + n = i + n - xs.length by omega]
    exact second

theorem Apart.concat {t : α} (apart : Apart n w xs) (pos : 0 < n)
    (late : ∀ i x, xs[i]? = some x → i + n = xs.length → x + w ≤ t) :
    Apart n w (xs ++ [t]) := by
  intro i x y first second
  obtain ⟨short, -⟩ := List.getElem?_eq_some_iff.1 second
  simp only [List.length_append, List.length_singleton] at short
  rw [List.getElem?_append_left (by omega)] at first
  by_cases final : i + n = xs.length
  · rw [List.getElem?_append_right (by omega), final, Nat.sub_self] at second
    obtain rfl : t = y := by simpa using second
    exact late i x first final
  · rw [List.getElem?_append_left (by omega)] at second
    exact apart i x y first second

theorem Apart.countP_le (apart : Apart n w xs) (ordered : xs.Pairwise (· ≤ ·)) {p : α → Bool}
    (narrow : ∀ x y, p x → p y → y < x + w) : xs.countP p ≤ n := by
  induction xs with
  | nil => simp
  | cons x xs ih =>
    by_cases inside : p x
    · have none_later : ((x :: xs).drop n).countP p = 0 := by
        rw [List.countP_eq_zero]
        intro y later counted
        obtain ⟨j, found⟩ := List.mem_iff_getElem?.1 later
        rw [List.getElem?_drop] at found
        obtain ⟨short, value⟩ := List.getElem?_eq_some_iff.1 found
        have step := apart 0 x (x :: xs)[n] (by simp) (by
          rw [Nat.zero_add, List.getElem?_eq_getElem (by omega)])
        have after : (x :: xs)[n] ≤ y := by
          rw [← value]
          exact ordered.sortedLE.getElem_le_getElem_of_le (Nat.le_add_right n j)
        exact absurd (narrow x y inside counted) (not_lt.2 (step.trans after))
      calc (x :: xs).countP p
          = ((x :: xs).take n).countP p + ((x :: xs).drop n).countP p := by
            rw [← List.countP_append, List.take_append_drop]
        _ ≤ n := by
            rw [none_later, Nat.add_zero]
            exact List.countP_le_length.trans (List.length_take_le n _)
    · rw [List.countP_cons_of_neg inside]
      exact ih apart.tail ordered.of_cons

omit [AddCommGroup α] in
theorem lt_countP_between (ordered : xs.Pairwise (· ≤ ·)) {i : ℕ} {x y : α}
    (first : xs[i]? = some x) (second : xs[i + n]? = some y) :
    n < xs.countP fun z => x ≤ z ∧ z ≤ y := by
  obtain ⟨short, value⟩ := List.getElem?_eq_some_iff.1 first
  obtain ⟨short', value'⟩ := List.getElem?_eq_some_iff.1 second
  have all : ((xs.drop i).take (n + 1)).countP (fun z => x ≤ z ∧ z ≤ y) = n + 1 := by
    have size : ((xs.drop i).take (n + 1)).length = n + 1 := by
      simp
      omega
    conv_rhs => rw [← size]
    rw [List.countP_eq_length]
    intro z member
    obtain ⟨j, small, found⟩ := List.mem_iff_getElem.1 member
    rw [List.getElem_take, List.getElem_drop] at found
    subst found value value'
    simp only [decide_eq_true_eq]
    have order := ordered.sortedLE
    exact ⟨order.getElem_le_getElem_of_le (by omega), order.getElem_le_getElem_of_le (by omega)⟩
  have part : ((xs.drop i).take (n + 1)).Sublist xs :=
    (List.take_sublist _ _).trans (List.drop_sublist _ _)
  have := part.countP_le (p := fun z => x ≤ z ∧ z ≤ y)
  omega

theorem apart_of_countFrom (ordered : xs.Pairwise (· ≤ ·)) (bound : ∀ a, countFrom w a xs ≤ n) :
    Apart n w xs := by
  intro i x y first second
  by_contra near
  have many := lt_countP_between ordered first second
  have inside : xs.countP (fun z => x ≤ z ∧ z ≤ y) ≤ countFrom w x xs := by
    refine List.countP_mono_left fun z _ between => ?_
    simp only [decide_eq_true_eq] at between ⊢
    exact ⟨between.1, between.2.trans_lt (not_le.1 near)⟩
  have := bound x
  omega

variable [IsOrderedAddMonoid α]

theorem Apart.atMost (apart : Apart n w xs) (ordered : xs.Pairwise (· ≤ ·)) : AtMost n w xs := by
  constructor
  · intro a
    refine apart.countP_le ordered fun x y first second => ?_
    simp only [decide_eq_true_eq] at first second
    exact second.2.trans_le (by gcongr; exact first.1)
  · intro b
    refine apart.countP_le ordered fun x y first second => ?_
    simp only [decide_eq_true_eq] at first second
    exact second.2.trans_lt (sub_lt_iff_lt_add.1 first.1)

theorem atMost_iff_apart (ordered : xs.Pairwise (· ≤ ·)) : AtMost n w xs ↔ Apart n w xs :=
  ⟨fun bound => apart_of_countFrom ordered bound.1, fun apart => apart.atMost ordered⟩

theorem atMost_iff_apart_sorted (xs : List α) :
    AtMost n w xs ↔ Apart n w (xs.insertionSort (· ≤ ·)) := by
  rw [← atMost_iff_apart (List.pairwise_insertionSort _ xs)]
  exact atMost_perm (List.perm_insertionSort _ xs).symm

end KnowledgeCompanion.SlidingWindow
