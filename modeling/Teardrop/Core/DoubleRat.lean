/-
Doubles as rational numbers: what a finite double is worth, and `float()` of a rational number.
-/
import Teardrop.Core.Double

namespace Teardrop.Double

/-- the number a finite double stands for -/
def toRat : Double → Option ℚ
  | .finite negative k => some (if negative then -((units k : ℚ) / 2 ^ 1074) else (units k : ℚ) / 2 ^ 1074)
  | .inf _ => none
  | .nan => none

/-- `float(decimal)`: the nearest double -/
def ofRat (q : ℚ) : Double := round (q < 0) q.num.natAbs q.den

/-- some double stands for the number -/
def Exact (q : ℚ) : Prop := ∃ x, toRat x = some q

theorem exact_abs {q : ℚ} (h : Exact q) : ∃ k : Fin finiteCount, |q| = (units k : ℚ) / 2 ^ 1074 := by
  obtain ⟨x, hx⟩ := h
  cases x with
  | finite negative k =>
    refine ⟨k, ?_⟩
    rw [toRat] at hx
    have hnonneg : (0 : ℚ) ≤ (units k : ℚ) / 2 ^ 1074 := by positivity
    split_ifs at hx
    · rw [← Option.some.inj hx, abs_neg, abs_of_nonneg hnonneg]
    · rw [← Option.some.inj hx, abs_of_nonneg hnonneg]
  | inf _ | nan => cases hx

theorem natAbs_div_den (q : ℚ) : (q.num.natAbs : ℚ) / q.den = |q| := by
  rw [Nat.cast_natAbs, Int.cast_abs, ← Nat.abs_cast q.den, ← abs_div, Rat.num_div_den]

theorem toRat_ofRat {q : ℚ} (h : Exact q) : toRat (ofRat q) = some q := by
  obtain ⟨k, hk⟩ := exact_abs h
  have hden : 0 < q.den := q.den_pos
  have hcross : q.num.natAbs * 2 ^ 1074 = units k * q.den := by
    have hden' : (q.den : ℚ) ≠ 0 := by exact_mod_cast hden.ne'
    have hpow : (2 : ℚ) ^ 1074 ≠ 0 := pow_ne_zero _ (by norm_num)
    have heq : (q.num.natAbs : ℚ) / q.den = (units k : ℚ) / 2 ^ 1074 := (natAbs_div_den q).trans hk
    rw [div_eq_div_iff hden' hpow] at heq
    exact_mod_cast heq
  rw [ofRat, round_exact _ k hden hcross, toRat]
  by_cases hneg : q < 0
  · rw [if_pos (decide_eq_true hneg), ← hk, abs_of_neg hneg, neg_neg]
  · rw [if_neg (by simpa using hneg), ← hk, abs_of_nonneg (not_lt.1 hneg)]

end Teardrop.Double
