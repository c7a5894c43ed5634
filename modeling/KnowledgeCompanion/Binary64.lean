import Mathlib.Algebra.Order.Ring.NNRat
import Mathlib.Data.Int.Log
import Mathlib.Data.NNRat.Floor
import Mathlib.Data.Rat.Floor
import Mathlib.Tactic.Linarith

/-! Rounding of exact results to floats: to the nearest, a half to the even neighbour. The
magnitudes have 53 binary digits and no bound above, where a float would be infinite. -/

namespace KnowledgeCompanion.Binary64

def halfEven (x : ℚ) : ℤ :=
  let floor := ⌊x⌋
  if x - floor < 1 / 2 then floor
  else if 1 / 2 < x - floor then floor + 1
  else if floor % 2 = 0 then floor
  else floor + 1

theorem abs_halfEven_sub_le (x : ℚ) : |(halfEven x : ℚ) - x| ≤ 1 / 2 := by
  have below : (⌊x⌋ : ℚ) ≤ x := Int.floor_le x
  have above : x < ⌊x⌋ + 1 := Int.lt_floor_add_one x
  unfold halfEven
  dsimp only
  rw [abs_le]
  split_ifs <;> push_cast <;> constructor <;> linarith

theorem halfEven_nonneg {x : ℚ} (nonneg : 0 ≤ x) : 0 ≤ halfEven x := by
  have floor : 0 ≤ ⌊x⌋ := Int.floor_nonneg.mpr nonneg
  unfold halfEven
  dsimp only
  split_ifs <;> omega

theorem halfEven_natCast (n : ℕ) : halfEven (n : ℚ) = n := by
  have floor : ⌊(n : ℚ)⌋ = n := Int.floor_natCast n
  unfold halfEven
  rw [floor]
  dsimp only
  rw [Int.cast_natCast, sub_self]
  exact if_pos (by norm_num)

def spacing (x : NNRat) : NNRat := ((2 : ℕ) : NNRat) ^ max (Int.log 2 x - 52) (-1074)

def nearest (x : NNRat) : NNRat := (halfEven (x / spacing x : NNRat)).toNat * spacing x

theorem spacing_pos (x : NNRat) : 0 < spacing x := zpow_pos (Nat.cast_pos.mpr two_pos) _

theorem spacing_le (x : NNRat) : spacing x ≤ max 1 x := by
  rcases le_total x 1 with small | large
  · rw [max_eq_left small]
    have log : Int.log 2 x ≤ 0 := by
      rw [Int.log_of_right_le_one 2 small]
      omega
    exact zpow_le_one_of_nonpos₀ (Nat.one_le_cast.mpr one_le_two) (by omega)
  · rw [max_eq_right large]
    have log : 0 ≤ Int.log 2 x := by
      rw [Int.log_of_one_le_right 2 large]
      omega
    have least : max (Int.log 2 x - 52) (-1074) ≤ Int.log 2 x := by omega
    calc spacing x ≤ ((2 : ℕ) : NNRat) ^ Int.log 2 x :=
          zpow_le_zpow_right₀ (Nat.one_le_cast.mpr one_le_two) least
      _ ≤ x := Int.zpow_log_le_self one_lt_two (lt_of_lt_of_le one_pos large)

theorem abs_nearest_sub_le (x : NNRat) : |(nearest x : ℚ) - x| ≤ spacing x / 2 := by
  have positive : (0 : ℚ) < spacing x := by exact_mod_cast spacing_pos x
  have whole : ((halfEven (x / spacing x : NNRat)).toNat : ℤ) = halfEven (x / spacing x : NNRat) :=
    Int.toNat_of_nonneg (halfEven_nonneg (NNRat.cast_nonneg _))
  have float : (nearest x : ℚ) = halfEven (x / spacing x : NNRat) * spacing x := by
    rw [← whole, nearest]
    push_cast
    rfl
  have close := abs_halfEven_sub_le (x / spacing x : NNRat)
  have scaled : (nearest x : ℚ) - x =
      (halfEven (x / spacing x : NNRat) - (x / spacing x : NNRat)) * spacing x := by
    rw [float, sub_mul, NNRat.cast_div, div_mul_cancel₀ _ positive.ne']
  rw [scaled, abs_mul, abs_of_pos positive]
  linarith [mul_le_mul_of_nonneg_right close positive.le]

theorem nearest_le (x : NNRat) : (nearest x : ℚ) ≤ x + max 1 (x : ℚ) / 2 := by
  have close := (abs_le.mp (abs_nearest_sub_le x)).2
  have fine : (spacing x : ℚ) ≤ max 1 (x : ℚ) := by exact_mod_cast spacing_le x
  linarith

/-- The difference of two magnitudes, each result held as `fl` says. -/
def difference (fl : NNRat → NNRat) (a b : NNRat) : ℚ := if b ≤ a then fl (a - b) else -fl (b - a)

end KnowledgeCompanion.Binary64
