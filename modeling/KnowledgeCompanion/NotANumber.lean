import KnowledgeCompanion.Ranking

/-! Scores that may be no number. A NaN is neither below nor above anything, itself
included, so the numbers among the scores keep their order and a NaN has no place in it. -/

namespace KnowledgeCompanion.NotANumber

open Ranking

inductive WithNaN (K : Type)
  | nan
  | num (value : K)
deriving DecidableEq

namespace WithNaN

variable {K : Type}

instance [LE K] : LE (WithNaN K) where
  le
    | num a, num b => a ≤ b
    | _, _ => False

instance [LT K] : LT (WithNaN K) where
  lt
    | num a, num b => a < b
    | _, _ => False

instance [Zero K] : Zero (WithNaN K) := ⟨num 0⟩

@[simp] theorem num_le_num [LE K] {a b : K} : num a ≤ num b ↔ a ≤ b := Iff.rfl

@[simp] theorem num_lt_num [LT K] {a b : K} : num a < num b ↔ a < b := Iff.rfl

@[simp] theorem not_nan_le [LE K] (x : WithNaN K) : ¬ nan ≤ x := id

@[simp] theorem not_le_nan [LE K] (x : WithNaN K) : ¬ x ≤ nan := by cases x <;> exact id

@[simp] theorem not_nan_lt [LT K] (x : WithNaN K) : ¬ nan < x := id

@[simp] theorem not_lt_nan [LT K] (x : WithNaN K) : ¬ x < nan := by cases x <;> exact id

theorem le_of_le_of_le [Preorder K] {x y z : WithNaN K} (first : x ≤ y) (second : y ≤ z) :
    x ≤ z := by
  cases y with
  | nan => exact absurd first (not_le_nan x)
  | num b =>
    cases x with
    | nan => exact first.elim
    | num a =>
      cases z with
      | nan => exact second.elim
      | num c => exact le_trans (num_le_num.mp first) (num_le_num.mp second)

theorem le_self_of_le [Preorder K] {x y : WithNaN K} (above : x ≤ y) : y ≤ y := by
  cases y with
  | nan => exact absurd above (not_le_nan x)
  | num b => exact num_le_num.mpr le_rfl

instance [LE K] [DecidableLE K] : DecidableLE (WithNaN K)
  | nan, y => .isFalse (not_nan_le y)
  | num a, nan => .isFalse (not_le_nan (num a))
  | num a, num b => inferInstanceAs (Decidable (a ≤ b))

instance [LT K] [DecidableLT K] : DecidableLT (WithNaN K)
  | nan, y => .isFalse (not_nan_lt y)
  | num a, nan => .isFalse (not_lt_nan (num a))
  | num a, num b => inferInstanceAs (Decidable (a < b))

def IsNumber (x : WithNaN K) : Prop := x ≠ nan

theorem IsNumber.exists_num {x : WithNaN K} (number : x.IsNumber) : ∃ a, x = num a := by
  cases x with
  | nan => exact absurd rfl number
  | num a => exact ⟨a, rfl⟩

def value (fallback : K) : WithNaN K → K
  | num a => a
  | nan => fallback

theorem IsNumber.num_value {x : WithNaN K} (number : x.IsNumber) (fallback : K) :
    num (x.value fallback) = x := by
  obtain ⟨a, rfl⟩ := number.exists_num
  rfl

end WithNaN

theorem ranked_pairwise_of_numbers {α K : Type} [LinearOrder K] {score : α → WithNaN K}
    {xs : List α} (numbers : ∀ a ∈ xs, (score a).IsNumber) :
    (ranked score xs).Pairwise fun a b => score b ≤ score a := by
  cases xs with
  | nil => exact List.Pairwise.nil
  | cons x xs =>
    obtain ⟨fallback, -⟩ := (numbers x List.mem_cons_self).exists_num
    let value (a : α) : K := (score a).value fallback
    have known (a : α) (mem : a ∈ x :: xs) : .num (value a) = score a :=
      (numbers a mem).num_value fallback
    have alike : ranked score (x :: xs) = ranked value (x :: xs) :=
      ranked_congr fun a here b there => by
        rw [← known a here, ← known b there, WithNaN.num_lt_num]
    rw [alike]
    refine (ranked_pairwise value (x :: xs)).imp_of_mem fun {a b} here there order => ?_
    rw [← known a ((mem_ranked value).mp here), ← known b ((mem_ranked value).mp there)]
    exact order

end KnowledgeCompanion.NotANumber
