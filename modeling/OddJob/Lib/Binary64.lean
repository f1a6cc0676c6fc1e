import Mathlib.Data.Int.Log
import Mathlib.Data.Rat.Floor
import Mathlib.Tactic.Linarith

/-! Rationals rounded to double precision: to the nearest number with a significand of 53
bits, ties to the even one. The range of the exponent is left out. -/

namespace Binary64

/-- The nearest integer, and the even one of two. -/
def roundEven (q : ℚ) : ℤ :=
  if q - ⌊q⌋ < 1 / 2 then ⌊q⌋
  else if 1 / 2 < q - ⌊q⌋ then ⌊q⌋ + 1
  else if ⌊q⌋ % 2 = 0 then ⌊q⌋ else ⌊q⌋ + 1

/-- The distance between the doubles next to a number. -/
def ulp (q : ℚ) : ℚ := 2 ^ (Int.log 2 |q| - 52)

def round (q : ℚ) : ℚ := roundEven (q / ulp q) * ulp q

theorem roundEven_intCast (n : ℤ) : roundEven n = n := by
  rw [roundEven, Int.floor_intCast, sub_self, if_pos (by norm_num)]

/-- An even integer wins what is at most half a unit below it. -/
theorem roundEven_of_near {n : ℤ} (even : n % 2 = 0) {q : ℚ} (near : (n : ℚ) - 1 / 2 ≤ q)
    (below : q ≤ n) : roundEven q = n := by
  rcases below.eq_or_lt with rfl | below
  · exact roundEven_intCast n
  have floor : ⌊q⌋ = n - 1 := by
    rw [Int.floor_eq_iff]
    push_cast
    constructor <;> linarith
  have odd : ¬ (n - 1) % 2 = 0 := by omega
  have half : ¬ q - ((n - 1 : ℤ) : ℚ) < 1 / 2 := by
    push_cast
    linarith
  rw [roundEven, floor, if_neg half, if_neg odd, ite_self, Int.sub_add_cancel]

theorem roundEven_le_add_half (q : ℚ) : (roundEven q : ℚ) ≤ q + 1 / 2 := by
  have floor := Int.floor_le q
  rw [roundEven]
  split
  · linarith
  · rename_i far
    split
    · push_cast
      linarith
    · split
      · linarith
      · push_cast
        linarith

theorem roundEven_nonneg {q : ℚ} (nonneg : 0 ≤ q) : 0 ≤ roundEven q := by
  have floor := Int.floor_nonneg.mpr nonneg
  rw [roundEven]
  split <;> [skip; split <;> [skip; split]] <;> omega

variable {q : ℚ}

theorem ulp_pos (q : ℚ) : 0 < ulp q := zpow_pos (by norm_num) _

theorem ulp_of_bounds {exponent : ℤ} (lower : (2 : ℚ) ^ exponent ≤ q)
    (upper : q < (2 : ℚ) ^ (exponent + 1)) : ulp q = 2 ^ (exponent - 52) := by
  have positive : 0 < q := lt_of_lt_of_le (zpow_pos (by norm_num) _) lower
  have log : Int.log 2 q = exponent := by
    apply le_antisymm
    · exact Int.lt_add_one_iff.mp ((Int.lt_zpow_iff_log_lt (by norm_num) positive).mp upper)
    · exact (Int.zpow_le_iff_le_log (by norm_num) positive).mp lower
  rw [ulp, abs_of_pos positive, log]

theorem ulp_le {exponent : ℤ} (positive : 0 < q) (upper : q < (2 : ℚ) ^ (exponent + 1)) :
    ulp q ≤ 2 ^ (exponent - 52) := by
  rw [ulp, abs_of_pos positive]
  have bound : Int.log 2 q < exponent + 1 :=
    (Int.lt_zpow_iff_log_lt (by norm_num) positive).mp upper
  exact zpow_le_zpow_right₀ (by norm_num) (sub_le_sub_right (Int.lt_add_one_iff.mp bound) 52)

theorem round_eq_self {n : ℤ} (bits : q = n * ulp q) : round q = q := by
  have whole : q / ulp q = n := by
    rw [div_eq_iff (ulp_pos q).ne']
    exact bits
  rw [round, whole, roundEven_intCast]
  exact bits.symm

theorem round_nonneg (nonneg : 0 ≤ q) : 0 ≤ round q := by
  have integer : (0 : ℚ) ≤ roundEven (q / ulp q) := by
    exact_mod_cast roundEven_nonneg (div_nonneg nonneg (ulp_pos q).le)
  exact mul_nonneg integer (ulp_pos q).le

theorem round_le_add (q : ℚ) : round q ≤ q + ulp q / 2 := by
  have close := mul_le_mul_of_nonneg_right (roundEven_le_add_half (q / ulp q)) (ulp_pos q).le
  have back : q / ulp q * ulp q = q := div_mul_cancel₀ q (ulp_pos q).ne'
  rw [round]
  linarith

/-- A multiple of the distance bounds what is rounded from less than half a distance above. -/
theorem round_le {n : ℤ} (below : q + ulp q / 2 < (n + 1) * ulp q) : round q ≤ n * ulp q := by
  have positive := ulp_pos q
  have fits : q / ulp q + 1 / 2 < ((n + 1 : ℤ) : ℚ) := by
    push_cast
    rw [← lt_sub_iff_add_lt, div_lt_iff₀ positive]
    linarith
  have integer : roundEven (q / ulp q) < n + 1 := by
    exact_mod_cast (roundEven_le_add_half _).trans_lt fits
  exact mul_le_mul_of_nonneg_right (by exact_mod_cast Int.lt_add_one_iff.mp integer) positive.le

/-- An even multiple wins what is at most half the distance below it. -/
theorem round_of_near {n : ℤ} (even : n % 2 = 0) (near : n * ulp q - ulp q / 2 ≤ q)
    (below : q ≤ n * ulp q) : round q = n * ulp q := by
  have positive := ulp_pos q
  have fits : q / ulp q ≤ n := (div_le_iff₀ positive).mpr below
  have close : (n : ℚ) - 1 / 2 ≤ q / ulp q := by
    rw [le_div_iff₀ positive]
    linarith
  rw [round, roundEven_of_near even close fits]

/-- An integer of at most 53 bits, and some zeros behind them, is a double. -/
theorem round_intCast {n : ℤ} {zeros : ℕ} (bits : n.natAbs < 2 ^ (53 + zeros))
    (multiple : (2 : ℤ) ^ zeros ∣ n) : round n = n := by
  obtain ⟨significand, rfl⟩ := multiple
  have exponent : Nat.log 2 (2 ^ zeros * significand).natAbs ≤ 52 + zeros := by
    rcases Nat.eq_zero_or_pos (2 ^ zeros * significand).natAbs with none | positive
    · simp [none]
    · exact Nat.lt_succ_iff.mp ((Nat.log_lt_of_lt_pow positive.ne' bits).trans_eq (by omega))
  obtain ⟨shift, total⟩ := Nat.exists_eq_add_of_le exponent
  have distance : (2 : ℚ) ^ shift * ulp ((2 ^ zeros * significand : ℤ) : ℚ) = 2 ^ zeros := by
    rw [ulp, ← Int.cast_abs, Int.abs_eq_natAbs, Int.cast_natCast, Int.log_natCast,
      ← zpow_natCast, ← zpow_natCast, ← zpow_add₀ (by norm_num)]
    congr 1
    omega
  refine round_eq_self (n := significand * 2 ^ shift) ?_
  push_cast at distance ⊢
  rw [mul_assoc, distance, mul_comm]

end Binary64
