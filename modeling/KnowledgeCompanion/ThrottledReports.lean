import Mathlib.Algebra.Order.Ring.Rat
import Mathlib.Data.List.Chain
import Mathlib.Tactic.Linarith

/-! Values of which only those are reported that are an interval away from the last one reported,
or have reached a top. -/

namespace KnowledgeCompanion.ThrottledReports

def Due (interval : ℚ) (top last value : ℤ) : Prop :=
  interval ≤ ((value - last : ℤ) : ℚ) ∨ top ≤ value

instance (interval : ℚ) (top last value : ℤ) : Decidable (Due interval top last value) :=
  inferInstanceAs (Decidable (_ ∨ _))

def reported (interval : ℚ) (top last : ℤ) : List ℤ → List ℤ
  | [] => []
  | value :: later =>
    if Due interval top last value then value :: reported interval top value later
    else reported interval top last later

/-- No value falls behind the greatest before it by a step that is due. -/
def Steady (interval : ℚ) (last : ℤ) (values : List ℤ) : Prop :=
  ∀ front value back, values = front ++ value :: back → value < front.foldl max last →
    ((value - front.foldl max last : ℤ) : ℚ) < interval

variable {interval : ℚ} {top last : ℤ} {values : List ℤ}

theorem reported_sublist : (reported interval top last values).Sublist values := by
  induction values generalizing last with
  | nil => exact .slnil
  | cons value later ih =>
    rw [reported]
    split
    · exact ih.cons_cons value
    · exact ih.cons value

theorem steady_cons {value : ℤ} : Steady interval last (value :: values) ↔
    (value < last → ((value - last : ℤ) : ℚ) < interval) ∧
      Steady interval (max last value) values := by
  constructor
  · exact fun steady => ⟨steady [] value values rfl,
      fun front v back same => steady (value :: front) v back (congrArg (value :: ·) same)⟩
  · rintro ⟨here, later⟩ front v back same
    cases front with
    | nil =>
      obtain ⟨rfl, -⟩ := List.cons.inj same
      exact here
    | cons first front =>
      obtain ⟨rfl, rest⟩ := List.cons.inj same
      exact later front v back rest

theorem steady_of_nonneg (nonneg : 0 ≤ interval) : Steady interval last values := by
  intro front value back _ behind
  have negative : ((value - front.foldl max last : ℤ) : ℚ) < 0 := by
    exact_mod_cast Int.sub_neg_of_lt behind
  exact negative.trans_le nonneg

/-- The reports are in order exactly when the values are steady. -/
theorem reported_chain_iff (below : ∀ value ∈ values, value ≤ top) (start : last ≤ top) :
    (last :: reported interval top last values).IsChain (· ≤ ·) ↔
      Steady interval last values := by
  induction values generalizing last with
  | nil => exact iff_of_true (.singleton last) (fun _ _ _ same => by simp at same)
  | cons value later ih =>
    obtain ⟨high, rest⟩ := List.forall_mem_cons.mp below
    rw [reported, steady_cons]
    by_cases behind : value < last
    · have negative : ((value - last : ℤ) : ℚ) < 0 := by
        exact_mod_cast Int.sub_neg_of_lt behind
      rw [max_eq_left behind.le]
      split
      · rename_i due
        have step : interval ≤ ((value - last : ℤ) : ℚ) := due.resolve_right (by omega)
        refine iff_of_false (fun chain => ?_) (fun steady => ?_)
        · exact absurd (List.isChain_cons_cons.mp chain).1 (by omega)
        · exact absurd (steady.1 behind) (not_lt.mpr step)
      · rename_i early
        rw [ih rest start]
        have short : ((value - last : ℤ) : ℚ) < interval := not_le.mp (not_or.mp early).1
        exact ⟨fun steady => ⟨fun _ => short, steady⟩, And.right⟩
    · have ahead : last ≤ value := not_lt.mp behind
      rw [max_eq_right ahead]
      split
      · rw [List.isChain_cons_cons, ih rest high]
        exact ⟨fun steady => ⟨fun less => absurd less behind, steady.2⟩,
          fun steady => ⟨ahead, steady.2⟩⟩
      · rename_i early
        have positive : 0 < interval := by
          have moved : (0 : ℚ) ≤ ((value - last : ℤ) : ℚ) := by
            exact_mod_cast Int.sub_nonneg_of_le ahead
          exact moved.trans_lt (not_le.mp (not_or.mp early).1)
        rw [ih rest start]
        exact iff_of_true (steady_of_nonneg positive.le)
          ⟨fun less => absurd less behind, steady_of_nonneg positive.le⟩

theorem reported_last (full : values.getLast? = some top) :
    (reported interval top last values).getLast? = some top := by
  induction values generalizing last with
  | nil => exact nomatch full
  | cons value later ih =>
    rw [reported]
    cases later with
    | nil =>
      obtain rfl := Option.some.inj full
      rw [if_pos (.inr (Int.le_refl _))]
      rfl
    | cons next later =>
      rw [List.getLast?_cons_cons] at full
      split
      · rw [List.getLast?_cons, ih full]
        rfl
      · exact ih full

theorem reported_far (nonneg : ∀ value ∈ values, 0 ≤ value) (start : 0 ≤ last) {value : ℤ}
    (mem : value ∈ reported interval top last values) (below : value < top) :
    interval ≤ value := by
  induction values generalizing last with
  | nil => exact absurd mem List.not_mem_nil
  | cons first later ih =>
    obtain ⟨here, rest⟩ := List.forall_mem_cons.mp nonneg
    rw [reported] at mem
    split at mem
    · rename_i due
      rcases List.mem_cons.mp mem with rfl | mem
      · have step : interval ≤ ((value - last : ℤ) : ℚ) := due.resolve_right (by omega)
        have moved : ((value - last : ℤ) : ℚ) ≤ value := by
          exact_mod_cast Int.sub_le_self value start
        exact step.trans moved
      · exact ih rest here mem
    · exact ih rest start mem

theorem reported_below_iff (ordered : values.Pairwise (· ≤ ·))
    (nonneg : ∀ value ∈ values, 0 ≤ value) :
    (∃ value ∈ reported interval top 0 values, value < top) ↔
      ∃ value ∈ values, value < top ∧ interval ≤ value := by
  constructor
  · rintro ⟨value, mem, below⟩
    exact ⟨value, reported_sublist.subset mem, below,
      reported_far nonneg (Int.le_refl 0) mem below⟩
  · rintro ⟨value, mem, below, far⟩
    induction values with
    | nil => exact absurd mem List.not_mem_nil
    | cons first later ih =>
      obtain ⟨above, rest⟩ := List.pairwise_cons.mp ordered
      rw [reported]
      by_cases due : Due interval top 0 first
      · rw [if_pos due]
        have first_le : first ≤ value := by
          rcases List.mem_cons.mp mem with rfl | mem
          · exact Int.le_refl value
          · exact above value mem
        exact ⟨first, List.mem_cons_self, by omega⟩
      · rw [if_neg due]
        rcases List.mem_cons.mp mem with rfl | mem
        · exact absurd (.inl (by rw [Int.sub_zero]; exact far)) due
        · exact ih rest (fun v inside => nonneg v (List.mem_cons_of_mem first inside)) mem

end KnowledgeCompanion.ThrottledReports
