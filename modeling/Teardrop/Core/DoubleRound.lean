/-
`round` takes a fraction to the nearest finite number, and the numbers that come up in computations with integers: which
multiples of a power of two are doubles, and how far doubles are apart.
-/
import Teardrop.Core.DoubleRat
import Teardrop.Core.Nearest

namespace Teardrop.Double

open Nat

/-! ## The nearest number -/

/-- the distance of number `k` from `v / q`, times `q`; all in units of 2^-1074 -/
def gap (v q k : ℕ) : ℤ := |(units k * q : ℕ) - (v : ℤ)|

theorem gap_of_le {v q k : ℕ} (h : units k * q ≤ v) : gap v q k = v - (units k * q : ℕ) := by
  rw [gap, abs_of_nonpos (sub_nonpos.2 (cast_le.2 h)), neg_sub]

theorem gap_of_ge {v q k : ℕ} (h : v ≤ units k * q) : gap v q k = (units k * q : ℕ) - v := by
  rw [gap, abs_of_nonneg (sub_nonneg.2 (cast_le.2 h))]

/-- the greatest number that is not above `p / q` -/
theorem greatest_below {p q k : ℕ} (hk : greatest (below p q) 63 0 = k) :
    units k * q ≤ p * 2 ^ 1074 ∧ (k + 1 < finiteCount → p * 2 ^ 1074 < units (k + 1) * q) := by
  have hzero : below p q 0 = true := by
    unfold below
    generalize p * 2 ^ 1074 = v
    rw [Bool.and_eq_true, decide_eq_true_eq, decide_eq_true_eq, units_of_lt (by decide), zero_mul]
    exact ⟨by decide, zero_le v⟩
  have htop : below p q (0 + 2 ^ 63) = false := by simp [below, finiteCount]
  obtain ⟨hin, hout⟩ := greatest_spec (below p q) 63 0 hzero htop
  rw [hk] at hin hout
  rw [below, Bool.and_eq_true, decide_eq_true_eq, decide_eq_true_eq] at hin
  rw [below, Bool.and_eq_false_iff, decide_eq_false_iff_not, decide_eq_false_iff_not] at hout
  exact ⟨hin.2, fun hlt => not_le.1 (hout.resolve_left (not_not_intro hlt))⟩

/-- between the number below and the next one, the comparison with their middle picks the nearer -/
theorem gap_least {v q k : ℕ} (hlow : units k * q ≤ v) (hhigh : k + 1 < finiteCount → v < units (k + 1) * q)
    {j : ℕ} (hj : j < finiteCount)
    (hpick : (j = k ∧ 2 * v ≤ (units k + units (k + 1)) * q) ∨ (j = k + 1 ∧ (units k + units (k + 1)) * q ≤ 2 * v))
    (i : Fin finiteCount) : gap v q j ≤ gap v q i := by
  have hsum : (units k + units (k + 1)) * q = units k * q + units (k + 1) * q := add_mul ..
  have hj' : gap v q j ≤ v - (units k * q : ℕ) ∧ gap v q j ≤ |(units (k + 1) * q : ℕ) - (v : ℤ)| := by
    rcases hpick with ⟨rfl, hmid⟩ | ⟨rfl, hmid⟩
    · rw [gap_of_le hlow]
      refine ⟨le_refl _, le_trans ?_ (le_abs_self _)⟩
      omega
    · rw [gap_of_ge (hhigh hj).le]
      refine ⟨?_, le_abs_self _⟩
      omega
  by_cases hi : i.val ≤ k
  · have hmul : units i * q ≤ units k * q := mul_le_mul_right q (units_strictMono.monotone hi)
    rw [gap_of_le (hmul.trans hlow)]
    omega
  · have hnext : k + 1 < finiteCount := lt_of_le_of_lt (not_le.1 hi) i.isLt
    have hmul : units (k + 1) * q ≤ units i * q := mul_le_mul_right q (units_strictMono.monotone (not_le.1 hi))
    rw [gap_of_ge ((hhigh hnext).le.trans hmul)]
    have habs := abs_of_nonneg (sub_nonneg.2 (cast_le (α := ℤ).2 (hhigh hnext).le))
    omega

/-- what `round` returns is nearest, and has the sign it was given -/
theorem round_nearest {negative sign : Bool} {p q : ℕ} {j : Fin finiteCount} (h : round negative p q = .finite sign j) :
    sign = negative ∧ ∀ k : Fin finiteCount, gap (p * 2 ^ 1074) q j ≤ gap (p * 2 ^ 1074) q k := by
  unfold round at h
  generalize hk : greatest (below p q) 63 0 = k at h
  obtain ⟨hlow, hhigh⟩ := greatest_below hk
  generalize p * 2 ^ 1074 = v at h hlow hhigh ⊢
  cases hcmp : compare (2 * v) ((units k + units (k + 1)) * q) with
  | lt =>
    simp only [hcmp] at h
    split_ifs at h with hup
    obtain ⟨rfl, rfl⟩ := Double.finite.inj h
    exact ⟨rfl, gap_least hlow hhigh hup (Or.inl ⟨rfl, (Nat.compare_eq_lt.1 hcmp).le⟩)⟩
  | eq =>
    simp only [hcmp] at h
    split_ifs at h with hup
    obtain ⟨rfl, rfl⟩ := Double.finite.inj h
    have hmid := Nat.compare_eq_eq.1 hcmp
    refine ⟨rfl, gap_least hlow hhigh hup ?_⟩
    rcases mod_two_eq_zero_or_one k with heven | hodd
    · exact Or.inl ⟨show k + k % 2 = k by omega, hmid.le⟩
    · exact Or.inr ⟨show k + k % 2 = k + 1 by omega, hmid.ge⟩
  | gt =>
    simp only [hcmp] at h
    split_ifs at h with hup
    obtain ⟨rfl, rfl⟩ := Double.finite.inj h
    exact ⟨rfl, gap_least hlow hhigh hup (Or.inr ⟨rfl, (Nat.compare_eq_gt.1 hcmp).le⟩)⟩

/-! ## Rational numbers -/

/-- the value of number `k` -/
def value (k : ℕ) : ℚ := (units k : ℚ) / 2 ^ 1074

theorem exact_iff {q : ℚ} : Exact q ↔ ∃ k : Fin finiteCount, |q| = value k := by
  constructor
  · exact exact_abs
  · rintro ⟨k, hk⟩
    rcases abs_choice q with habs | habs
    · exact ⟨.finite false k, by rw [toRat, if_neg Bool.false_ne_true, ← value, ← hk, habs]⟩
    · exact ⟨.finite true k, by rw [toRat, if_pos rfl, ← value, ← hk, habs, neg_neg]⟩

theorem exact_neg {q : ℚ} (h : Exact q) : Exact (-q) := by
  rw [exact_iff, abs_neg]
  exact exact_iff.1 h

/-- `float(q)`: the nearest double; `none` when it would be infinite -/
def float (q : ℚ) : Option ℚ := toRat (ofRat q)

theorem cross_abs {u n d w : ℚ} (hd : 0 < d) (hw : 0 < w) : |u * d - n * w| = |u / w - n / d| * (d * w) := by
  calc |u * d - n * w| = |(u / w - n / d) * (d * w)| := by
        congr 1
        field_simp
    _ = |u / w - n / d| * |d * w| := abs_mul ..
    _ = |u / w - n / d| * (d * w) := by rw [abs_of_pos (mul_pos hd hw)]

theorem gap_eq (q : ℚ) (k : ℕ) : (gap (q.num.natAbs * 2 ^ 1074) q.den k : ℚ) = |value k - (|q|)| * (q.den * 2 ^ 1074) := by
  have hcross := cross_abs (u := units k) (n := q.num.natAbs) (cast_pos.2 q.den_pos) (pow_pos (two_pos (α := ℚ)) 1074)
  rw [natAbs_div_den] at hcross
  rw [value, ← hcross, gap, Int.cast_abs, Int.cast_sub, Int.cast_natCast, Int.cast_natCast, cast_mul, cast_mul,
    cast_pow, cast_two]

/-- **Rounding to nearest.** What `float` returns is a double, and no double is closer to its argument. -/
theorem float_nearest {q r : ℚ} (h : float q = some r) : Nearest {d | Exact d} q r := by
  have hmem : Exact r := ⟨_, h⟩
  unfold float ofRat at h
  cases hround : round (q < 0) q.num.natAbs q.den with
  | inf _ | nan => rw [hround] at h; cases h
  | finite sign j =>
    obtain ⟨rfl, hleast⟩ := round_nearest hround
    rw [hround, toRat, ← value] at h
    have hclose : ∀ k : Fin finiteCount, |value j - (|q|)| ≤ |value k - (|q|)| := by
      intro k
      have hscale : (0 : ℚ) < q.den * 2 ^ 1074 := mul_pos (cast_pos.2 q.den_pos) (pow_pos two_pos _)
      apply le_of_mul_le_mul_right _ hscale
      rw [← gap_eq, ← gap_eq]
      exact_mod_cast hleast k
    -- `r` has the sign of `q`
    have hr : |r - q| = |value j - (|q|)| := by
      by_cases hneg : q < 0
      · rw [if_pos (decide_eq_true hneg)] at h
        rw [← Option.some.inj h, abs_of_neg hneg, ← abs_neg, neg_sub, sub_neg_eq_add, sub_neg_eq_add, add_comm]
      · rw [if_neg (by simpa using hneg)] at h
        rw [← Option.some.inj h, abs_of_nonneg (not_lt.1 hneg)]
    refine ⟨hmem, fun d hd => ?_⟩
    obtain ⟨k, hk⟩ := exact_iff.1 hd
    calc |r - q| = |value j - (|q|)| := hr
      _ ≤ |value k - (|q|)| := hclose k
      _ = |(|d|) - (|q|)| := by rw [hk]
      _ ≤ |d - q| := abs_abs_sub_abs_le_abs_sub d q

/-! ## Which numbers are doubles -/

theorem units_dyadic (n e : ℕ) (hn : n < 2 ^ 53) (he : e ≤ 1075) : ∃ k : Fin finiteCount, units k = n * 2 ^ e := by
  induction e generalizing n with
  | zero =>
    by_cases hsub : n < 2 ^ 52
    · exact ⟨⟨n, by unfold finiteCount; omega⟩, by rw [units_of_lt hsub, pow_zero, mul_one]⟩
    · refine ⟨⟨n, by unfold finiteCount; omega⟩, ?_⟩
      have hnormal := units_of_normal (e := 0) (f := n - 2 ^ 52) (by omega)
      rw [show (0 + 1) * 2 ^ 52 + (n - 2 ^ 52) = n by omega, show 2 ^ 52 + (n - 2 ^ 52) = n by omega] at hnormal
      exact hnormal
  | succ e ih =>
    by_cases hsub : n < 2 ^ 52
    · obtain ⟨k, hk⟩ := ih (2 * n) (by omega) (by omega)
      exact ⟨k, by rw [hk, pow_succ' 2 e, mul_comm 2 n, mul_assoc]⟩
    · refine ⟨⟨(e + 1 + 1) * 2 ^ 52 + (n - 2 ^ 52), by unfold finiteCount; omega⟩, ?_⟩
      rw [units_of_normal (by omega), show 2 ^ 52 + (n - 2 ^ 52) = n by omega]

theorem units_mantissa {n e : ℕ} (hn : n ≤ 2 ^ 53) (he : e ≤ 1074) : ∃ k : Fin finiteCount, units k = n * 2 ^ e := by
  rcases lt_or_eq_of_le hn with hlt | rfl
  · exact units_dyadic n e hlt (by omega)
  · obtain ⟨k, hk⟩ := units_dyadic (2 ^ 52) (e + 1) (by decide) (by omega)
    exact ⟨k, by rw [hk, ← pow_add, ← pow_add, show 52 + (e + 1) = 53 + e by omega]⟩

theorem exact_dyadic {n : ℤ} {j : ℕ} (hn : |n| ≤ 2 ^ 53) (hj : j ≤ 1074) : Exact ((n : ℚ) / 2 ^ j) := by
  have hnat : n.natAbs ≤ 2 ^ 53 := by
    rw [Int.abs_eq_natAbs] at hn
    exact_mod_cast hn
  obtain ⟨k, hk⟩ := units_mantissa hnat (sub_le 1074 j)
  refine exact_iff.2 ⟨k, ?_⟩
  have hsplit : (2 : ℚ) ^ 1074 = 2 ^ (1074 - j) * 2 ^ j := by rw [← pow_add, Nat.sub_add_cancel hj]
  have hpow : (0 : ℚ) < 2 ^ (1074 - j) := pow_pos two_pos _
  calc |(n : ℚ) / 2 ^ j| = n.natAbs / 2 ^ j := by
        rw [abs_div, abs_of_pos (pow_pos (two_pos (α := ℚ)) j), cast_natAbs, Int.cast_abs]
    _ = (n.natAbs * 2 ^ (1074 - j)) / (2 ^ (1074 - j) * 2 ^ j) := by
        rw [mul_comm (n.natAbs : ℚ), mul_div_mul_left _ _ hpow.ne']
    _ = value k := by rw [value, hk, hsplit, cast_mul, cast_pow, cast_two]

theorem exact_int {n : ℤ} (hn : |n| ≤ 2 ^ 53) : Exact n := by
  have h := exact_dyadic hn (Nat.zero_le 1074)
  rwa [pow_zero, div_one] at h

theorem units_dvd {k t : ℕ} (ht : 2 ^ (t + 52) ≤ units k) : 2 ^ t ∣ units k := by
  have hbig : ¬ k < 2 ^ 52 := by
    intro hk
    rw [units_of_lt hk] at ht
    have hle : 2 ^ 52 ≤ 2 ^ (t + 52) := Nat.pow_le_pow_right two_pos (by omega)
    omega
  obtain ⟨e, f, hf, rfl⟩ : ∃ e f, f < 2 ^ 52 ∧ k = (e + 1) * 2 ^ 52 + f := ⟨k / 2 ^ 52 - 1, k % 2 ^ 52, by omega, by omega⟩
  rw [units_of_normal hf] at ht ⊢
  apply Dvd.dvd.mul_left
  apply pow_dvd_pow 2
  have hlt : 2 ^ (t + 52) < 2 ^ (e + 53) := by
    calc 2 ^ (t + 52) ≤ (2 ^ 52 + f) * 2 ^ e := ht
      _ < 2 ^ 53 * 2 ^ e := Nat.mul_lt_mul_of_pos_right (by omega) (Nat.two_pow_pos e)
      _ = 2 ^ (e + 53) := by rw [← pow_add, add_comm]
  have hexp := (Nat.pow_lt_pow_iff_right (by decide : 1 < 2)).1 hlt
  omega

theorem exact_grid {q : ℚ} {t : ℕ} (hq : Exact q) (ht : t ≤ 52) (hle : 2 ^ t ≤ |q|) : ∃ n : ℤ, q = n / 2 ^ (52 - t) := by
  obtain ⟨k, hk⟩ := exact_iff.1 hq
  have hpow : (0 : ℚ) < 2 ^ 1074 := pow_pos two_pos _
  have hunits : 2 ^ (t + 1022 + 52) ≤ units k := by
    rw [hk, value, le_div_iff₀ hpow, ← pow_add] at hle
    exact_mod_cast hle
  obtain ⟨m, hm⟩ := units_dvd hunits
  have habs : |q| = (m : ℤ) / 2 ^ (52 - t) := by
    have hsplit : (2 : ℚ) ^ 1074 = 2 ^ (t + 1022) * 2 ^ (52 - t) := by rw [← pow_add, show t + 1022 + (52 - t) = 1074 by omega]
    rw [hk, value, hm, hsplit, cast_mul, cast_pow, cast_two, mul_div_mul_left _ _ (pow_pos two_pos _).ne', Int.cast_natCast]
  rcases abs_choice q with h | h
  · exact ⟨m, by rw [← h, habs]⟩
  · exact ⟨-m, by rw [← neg_neg q, ← h, habs, Int.cast_neg, neg_div]⟩

theorem exact_lt {q : ℚ} (hq : Exact q) : |q| < 2 ^ 1024 := by
  obtain ⟨k, hk⟩ := exact_iff.1 hq
  have hlt : units k < 2 ^ 2098 := by
    calc units k < units finiteCount := units_strictMono k.isLt
      _ = 2 ^ 2098 := by decide +kernel
  rw [hk, value, div_lt_iff₀ (pow_pos two_pos _), ← pow_add]
  exact_mod_cast hlt

end Teardrop.Double
