import Mathlib.Order.Interval.Set.Basic
import Mathlib.Algebra.Order.Group.Nat
import Mathlib.Tactic.Common
import Mathlib.Tactic.Ring

/-! Windows of one length at equal distances over `n` positions, cut off after the first
one that reaches the end. -/

namespace KnowledgeCompanion.StridedWindows

def untilEnd (n limit : ℕ) : List ℕ → List ℕ
  | [] => []
  | start :: later => start :: if n ≤ start + limit then [] else untilEnd n limit later

def span (n limit start : ℕ) : Set ℕ := Set.Ico start (min (start + limit) n)

/-- Windows at the multiples of `step`, of which the last one alone reaches the end. -/
structure Covering (n limit step : ℕ) (begins : List ℕ) : Prop where
  some : begins ≠ []
  strided : ∀ i (h : i < begins.length), begins[i] = i * step
  reaches : ∀ i (h : i < begins.length), n ≤ begins[i] + limit ↔ i + 1 = begins.length

theorem untilEnd_range (n limit step k start : ℕ) (reach : n ≤ start + step * k + limit) :
    ∃ m, untilEnd n limit (List.range' start (k + 1) step) = List.range' start (m + 1) step ∧
      n ≤ start + step * m + limit ∧ ∀ j < m, start + step * j + limit < n := by
  induction k generalizing start with
  | zero =>
    refine ⟨0, ?_, reach, fun j below => absurd below (Nat.not_lt_zero j)⟩
    simp [List.range'_succ, untilEnd]
  | succ k ih =>
    rw [List.range'_succ, untilEnd]
    by_cases here : n ≤ start + limit
    · refine ⟨0, ?_, by simpa using here, fun j below => absurd below (Nat.not_lt_zero j)⟩
      rw [if_pos here]
      rfl
    · have moved (j : ℕ) : start + step + step * j = start + step * (j + 1) := by ring
      obtain ⟨m, kept, last, before⟩ := ih (start + step) (by rw [moved]; exact reach)
      refine ⟨m + 1, ?_, ?_, fun j below => ?_⟩
      · rw [if_neg here, kept, List.range'_succ (n := m + 1)]
      · rw [← moved]
        exact last
      · cases j with
        | zero => simpa using here
        | succ j =>
          rw [← moved]
          exact before j (by omega)

theorem covering_range (n limit step k : ℕ) (reach : n ≤ step * k + limit) :
    Covering n limit step (untilEnd n limit (List.range' 0 (k + 1) step)) := by
  obtain ⟨m, kept, last, before⟩ := untilEnd_range n limit step k 0 (by rwa [Nat.zero_add])
  rw [kept]
  have at_ (i : ℕ) (h : i < (List.range' 0 (m + 1) step).length) :
      (List.range' 0 (m + 1) step)[i] = step * i := by
    rw [List.getElem_range', Nat.zero_add]
  refine ⟨by simp [List.range'_succ], fun i h => (at_ i h).trans (Nat.mul_comm _ _), fun i h => ?_⟩
  rw [at_, List.length_range']
  rw [List.length_range'] at h
  constructor
  · intro ends
    by_contra more
    have short := before i (by omega)
    omega
  · intro final
    have same : i = m := by omega
    rw [same]
    omega

namespace Covering

variable {n limit step : ℕ} {begins : List ℕ}

theorem inside (h : Covering n limit step begins) (some : 0 < n) (within : step ≤ limit) {i : ℕ}
    (hi : i < begins.length) : begins[i] < n := by
  rw [h.strided i hi]
  cases i with
  | zero => simpa using some
  | succ i =>
    have short : ¬ n ≤ begins[i] + limit := fun ends => by
      have final := (h.reaches i (by omega)).mp ends
      omega
    rw [h.strided i (by omega)] at short
    rw [Nat.succ_mul]
    omega

theorem covers (h : Covering n limit step begins) (positive : 0 < step) (within : step ≤ limit)
    {p : ℕ} (hp : p < n) : ∃ start ∈ begins, p ∈ span n limit start := by
  have length := List.length_pos_iff.mpr h.some
  by_cases early : p / step < begins.length
  · refine ⟨begins[p / step], List.getElem_mem early, ?_⟩
    have below : p / step * step ≤ p := Nat.div_mul_le_self p step
    have above := Nat.lt_div_mul_add (a := p) positive
    rw [h.strided _ early]
    exact ⟨below, lt_min (by omega) hp⟩
  · have last : begins.length - 1 < begins.length := by omega
    refine ⟨begins[begins.length - 1], List.getElem_mem last, ?_⟩
    have ends := (h.reaches _ last).mpr (by omega)
    refine ⟨?_, lt_min (by omega) hp⟩
    rw [h.strided _ last]
    exact (Nat.mul_le_mul_right step (by omega)).trans (Nat.div_mul_le_self p step)

theorem apart (h : Covering n limit step begins) (some : 0 < n) (positive : 0 < step)
    (within : step ≤ limit) {i j : ℕ} (hi : i < begins.length) (hj : j < begins.length)
    (distinct : i ≠ j) : ¬ span n limit begins[i] ⊆ span n limit begins[j] := by
  intro contained
  have inside := h.inside some within hi
  rcases Nat.lt_or_gt_of_ne distinct with before | after
  · have first : begins[i] ∈ span n limit begins[i] :=
      ⟨le_refl _, lt_min (by omega) inside⟩
    have later := (contained first).1
    rw [h.strided i hi, h.strided j hj] at later
    have less := Nat.mul_lt_mul_of_pos_right before positive
    omega
  · have short : ¬ n ≤ begins[j] + limit := fun ends => by
      have final := (h.reaches j hj).mp ends
      omega
    have order : begins[j] < begins[i] := by
      rw [h.strided i hi, h.strided j hj]
      exact Nat.mul_lt_mul_of_pos_right after positive
    have last : min (begins[i] + limit) n - 1 ∈ span n limit begins[i] :=
      ⟨by omega, by omega⟩
    have earlier := (contained last).2
    omega

theorem mem_last (h : Covering n limit step begins) (some : 0 < n) (within : step ≤ limit) {i : ℕ}
    (hi : i < begins.length) : n - 1 ∈ span n limit begins[i] ↔ i + 1 = begins.length := by
  have inside := h.inside some within hi
  rw [← h.reaches i hi, span, Set.mem_Ico]
  omega

end Covering

end KnowledgeCompanion.StridedWindows
