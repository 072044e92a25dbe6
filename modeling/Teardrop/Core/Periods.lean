/-
How many periods of a whole number of seconds fit in a span of microseconds, computed in doubles:
`(span.total_seconds() - offset) / period`, every step rounded to nearest.

A double tells seconds of less than 2^34 apart by the microsecond, so below that the rounded quotient reaches a whole
number exactly when the span does. Above, a span can be rounded up to the next second.
-/
import Teardrop.Core.DoubleRound

namespace Teardrop.Double

/-- the nearest double -/
abbrev Rounded (q r : ℚ) : Prop := Nearest {d | Exact d} q r

/-- `span.total_seconds() - offset` -/
def Elapsed (span offset : ℤ) (y : ℚ) : Prop :=
  ∃ x s, Rounded ((span : ℚ) / 1000000) x ∧ Rounded offset s ∧ Rounded (x - s) y

/-- `y / period` -/
def Divided (y : ℚ) (period : ℤ) (r : ℚ) : Prop := ∃ n, Rounded period n ∧ Rounded (y / n) r

variable {r : ℚ} {n : ℤ} {y : ℚ} {a m s : ℤ}

theorem Rounded.neg {q : ℚ} (h : Rounded q r) : Rounded (-q) (-r) := Nearest.neg h (fun _ hd => exact_neg hd)

theorem Rounded.eq_int (h : Rounded n r) (hn : |n| ≤ 2 ^ 53) : r = n := h.eq_of_mem (exact_int hn)

theorem Divided.neg {period : ℤ} (h : Divided y period r) : Divided (-y) period (-r) := by
  obtain ⟨n, hn, hr⟩ := h
  refine ⟨n, hn, ?_⟩
  rw [neg_div]
  exact hr.neg

theorem elapsed_neg {w : ℤ} {x : ℚ} (h : Rounded ((w : ℚ) / 1000000) x) : Elapsed (-w) 0 (-x) := by
  have hx : Rounded (((-w : ℤ) : ℚ) / 1000000) (-x) := by
    rw [Int.cast_neg, neg_div]
    exact h.neg
  have hzero : Exact (0 : ℤ) := exact_int (by norm_num)
  refine ⟨-x, 0, hx, ⟨by simpa using hzero, fun d _ => by simp⟩, ?_⟩
  exact ⟨hx.mem, fun d _ => by simp⟩

/-! ## A little below a whole number -/

theorem exact_pred {j : ℕ} (hlow : -2 ^ 53 < n * 2 ^ j) (hhigh : n * 2 ^ j ≤ 2 ^ 53) (hj : j ≤ 1074) :
    Exact ((n : ℚ) - 1 / 2 ^ j) := by
  have hpred : |n * 2 ^ j - 1| ≤ 2 ^ 53 := abs_le.2 ⟨by omega, by omega⟩
  have h := exact_dyadic hpred hj
  rw [Int.cast_sub, Int.cast_mul, Int.cast_pow, Int.cast_one, Int.cast_ofNat, sub_div,
    mul_div_cancel_right₀ _ (pow_ne_zero j two_ne_zero)] at h
  exact h

/-- a span of less than `n` seconds is rounded to less than `n`, and by how much -/
theorem rounded_lt (ha : a < n * 1000000) (hlow : -2 ^ 34 < n) (hhigh : n ≤ 2 ^ 34) (hr : Rounded ((a : ℚ) / 1000000) r) :
    ∃ c, (c = 19 ∨ c = 20) ∧ -2 ^ 53 < n * 2 ^ c ∧ n * 2 ^ c ≤ 2 ^ 53 ∧ r ≤ n - 1 / 2 ^ c := by
  have hq : (a : ℚ) / 1000000 ≤ n - 1 / 1000000 := by
    rw [div_le_iff₀ (by norm_num), sub_mul, div_mul_cancel₀ _ (by norm_num)]
    have hle : a ≤ n * 1000000 - 1 := by omega
    exact_mod_cast hle
  by_cases hsmall : -2 ^ 33 < n ∧ n ≤ 2 ^ 33
  · refine ⟨20, Or.inr rfl, by omega, by omega, ?_⟩
    apply hr.le_of_le (exact_pred (by omega) (by omega) (by omega))
    linarith
  · refine ⟨19, Or.inl rfl, by omega, by omega, ?_⟩
    have hpred : Exact ((n : ℚ) - 1 / 2 ^ 19) := exact_pred (by omega) (by omega) (by omega)
    have hlt : r < n := by
      apply hr.lt_of_mid hpred
      · norm_num
      · linarith
    -- doubles from 2^33 on are multiples of 2^-19
    by_cases hgrid : (2 : ℚ) ^ 33 ≤ |r|
    · obtain ⟨k, hk⟩ := exact_grid hr.mem (by omega) hgrid
      have hpow : (0 : ℚ) < 2 ^ (52 - 33) := by norm_num
      rw [hk, div_lt_iff₀ hpow] at hlt
      have hint : k ≤ n * 2 ^ 19 - 1 := by
        have : k < n * 2 ^ 19 := by exact_mod_cast hlt
        omega
      have hcast : (k : ℚ) ≤ n * 2 ^ 19 - 1 := by exact_mod_cast hint
      linarith
    · have hbounds := abs_lt.1 (not_le.1 hgrid)
      have hn : 2 ^ 33 + 1 ≤ n := by
        by_contra hcon
        have hneg : n ≤ -2 ^ 33 := by omega
        have hcast : (n : ℚ) ≤ -2 ^ 33 := by exact_mod_cast hneg
        linarith [hbounds.1]
      have hcast : (2 : ℚ) ^ 33 + 1 ≤ n := by exact_mod_cast hn
      linarith [hbounds.2]

/-- what is below a multiple of the period by as much has a quotient that is rounded to less -/
theorem quotient_lt {b c : ℕ} (hb : 2 ^ b ≤ n) (hn : n < 2 ^ (b + 1)) (hy : y ≤ m * n - 1 / 2 ^ c)
    (hlow : -2 ^ 53 < m * 2 ^ (b + c)) (hhigh : m * 2 ^ (b + c) ≤ 2 ^ 53) (hbc : b + c ≤ 1074) (hr : Rounded (y / n) r) :
    r < m := by
  have hpos : (0 : ℚ) < n := by
    have hint : 0 < n := lt_of_lt_of_le (pow_pos two_pos b) hb
    exact_mod_cast hint
  apply hr.lt_of_mid (exact_pred hlow hhigh hbc)
  · exact sub_lt_self _ (by positivity)
  · have hdiv : y / n ≤ m - 1 / (2 ^ c * n) := by
      rw [div_le_iff₀ hpos, sub_mul, div_mul_eq_mul_div, one_mul, mul_comm ((2 : ℚ) ^ c), ← div_div, div_self hpos.ne']
      exact hy
    have hunit : (1 : ℚ) / 2 ^ (b + c) < 2 * (1 / (2 ^ c * n)) := by
      have hcast : (n : ℚ) < 2 ^ (b + 1) := by exact_mod_cast hn
      rw [mul_one_div, div_lt_div_iff₀ (by positivity) (by positivity), one_mul, pow_add]
      calc (2 : ℚ) ^ c * n < 2 ^ c * 2 ^ (b + 1) := mul_lt_mul_of_pos_left hcast (by positivity)
        _ = 2 * (2 ^ b * 2 ^ c) := by ring
    linarith

/-! ## Periods that fit -/

theorem fits_elapsed (hs : |s| ≤ 2 ^ 53) (hm : |m * n| ≤ 2 ^ 53) (hms : |m * n + s| ≤ 2 ^ 53)
    (ha : (m * n + s) * 1000000 ≤ a) (hy : Elapsed a s y) : ((m * n : ℤ) : ℚ) ≤ y := by
  obtain ⟨x, s', hx, hs', hy⟩ := hy
  obtain rfl := hs'.eq_int hs
  have hx' : ((m * n + s : ℤ) : ℚ) ≤ x := by
    apply hx.ge_of_ge (exact_int hms)
    rw [le_div_iff₀ (by norm_num)]
    exact_mod_cast ha
  apply hy.ge_of_ge (exact_int hm)
  rw [Int.cast_add] at hx'
  linarith

/-- **A period that fits is counted.** -/
theorem fits_le (hn : 1 ≤ n) (hs : |s| ≤ 2 ^ 53) (hm : |m * n| ≤ 2 ^ 53) (hms : |m * n + s| ≤ 2 ^ 53)
    (ha : (m * n + s) * 1000000 ≤ a) (hy : Elapsed a s y) (hr : Divided y n r) : (m : ℚ) ≤ r := by
  have hy' := fits_elapsed hs hm hms ha hy
  obtain ⟨n', hn', hr⟩ := hr
  have hpos : (1 : ℚ) ≤ n' := by
    have hone : Exact (1 : ℤ) := exact_int (by norm_num)
    exact hn'.ge_of_ge hone (by exact_mod_cast hn)
  by_cases hzero : m = 0
  · subst hzero
    apply hr.ge_of_ge (exact_int (by norm_num))
    rw [zero_mul] at hy'
    exact_mod_cast div_nonneg (by exact_mod_cast hy') (by linarith)
  · have hone : 1 ≤ |m| := Int.one_le_abs hzero
    rw [abs_mul, abs_of_pos (by omega : 0 < n)] at hm
    obtain rfl := hn'.eq_int (by rw [abs_of_pos (by omega : 0 < n)]; nlinarith)
    apply hr.ge_of_ge (exact_int (by nlinarith))
    rw [le_div_iff₀ (by linarith)]
    exact_mod_cast hy'

theorem elapsed_lt_zero (hs : 0 ≤ s) (hhigh : a < 2 ^ 34 * 1000000) (ha : a < s * 1000000) (hy : Elapsed a s y) : y < 0 := by
  obtain ⟨x, s', hx, hs', hy⟩ := hy
  obtain ⟨k, hk⟩ : ∃ k, k = min s (2 ^ 34) := ⟨_, rfl⟩
  obtain ⟨c, hc, -, -, hle⟩ := rounded_lt (n := k) (by omega) (by omega) (by omega) hx
  have hs : (k : ℚ) ≤ s' := by
    apply hs'.ge_of_ge (exact_int (abs_le.2 ⟨by omega, by omega⟩))
    exact Int.cast_le.2 (by omega)
  have hunit : (0 : ℚ) < 1 / 2 ^ c := by positivity
  have hexact : Exact (((0 : ℤ) : ℚ) - 1 / 2 ^ c) := exact_pred (by omega) (by omega) (by omega)
  have hy' : y ≤ ((0 : ℤ) : ℚ) - 1 / 2 ^ c := by
    apply hy.le_of_le hexact
    linarith
  linarith

theorem elapsed_le (hs : s = 0 ∨ 0 ≤ s ∧ s * 1000000 ≤ a) (hlow : -2 ^ 34 * 1000000 < a) (hhigh : a < 2 ^ 34 * 1000000)
    (ha : a < (m * n + s) * 1000000) (hy : Elapsed a s y) :
    ∃ k c, k = min (m * n + s) (2 ^ 34) ∧ (c = 19 ∨ c = 20) ∧ -2 ^ 53 < k * 2 ^ c ∧ k * 2 ^ c ≤ 2 ^ 53 ∧
      y ≤ m * n - 1 / 2 ^ c ∧ y ≤ 2 ^ 34 := by
  obtain ⟨x, s', hx, hs', hy⟩ := hy
  obtain ⟨k, hk⟩ : ∃ k, k = min (m * n + s) (2 ^ 34) := ⟨_, rfl⟩
  obtain ⟨c, hc, hbelow, habove, hle⟩ := rounded_lt (n := k) (by omega) (by omega) (by omega) hx
  obtain rfl := hs'.eq_int (abs_le.2 ⟨by omega, by omega⟩)
  refine ⟨k, c, hk, hc, hbelow, habove, ?_⟩
  have hexact : Exact (((k - s : ℤ) : ℚ) - 1 / 2 ^ c) := by
    apply exact_pred
    · rcases hc with rfl | rfl <;> omega
    · rcases hc with rfl | rfl <;> omega
    · omega
  have hy' : y ≤ ((k - s : ℤ) : ℚ) - 1 / 2 ^ c := by
    apply hy.le_of_le hexact
    rw [Int.cast_sub]
    linarith
  have hbound : ((k - s : ℤ) : ℚ) ≤ ((m * n : ℤ) : ℚ) := Int.cast_le.2 (by omega)
  have hlarge : ((k - s : ℤ) : ℚ) ≤ ((2 ^ 34 : ℤ) : ℚ) := Int.cast_le.2 (by omega)
  have hunit : (0 : ℚ) < 1 / 2 ^ c := by positivity
  rw [Int.cast_mul] at hbound
  rw [Int.cast_pow, Int.cast_ofNat] at hlarge
  exact ⟨by linarith, by linarith⟩

theorem mantissa_le {k : ℤ} {b c : ℕ} (hk : k = min (m * n + s) (2 ^ 34)) (hs : s = 0 ∨ 0 ≤ s ∧ s * 1000000 ≤ a)
    (hc : c = 19 ∨ c = 20) (hb : 2 ^ b ≤ n) (hb' : b ≤ 34) (hfit : ((m - 1) * n + s) * 1000000 ≤ a)
    (ha : a < (m * n + s) * 1000000) (hhigh : a < 2 ^ 34 * 1000000) (hbelow : -2 ^ 53 < k * 2 ^ c)
    (habove : k * 2 ^ c ≤ 2 ^ 53) : -2 ^ 53 < m * 2 ^ (b + c) ∧ m * 2 ^ (b + c) ≤ 2 ^ 53 := by
  have hpow : (0 : ℤ) < 2 ^ b := pow_pos two_pos b
  have hpowc : (0 : ℤ) < 2 ^ c := pow_pos two_pos c
  rw [pow_add, ← mul_assoc]
  constructor
  · rcases le_or_gt 0 m with hm | hm
    · have : 0 ≤ m * 2 ^ b * 2 ^ c := by positivity
      omega
    · have hmn : m * n ≤ m * 2 ^ b := mul_le_mul_of_nonpos_left hb hm.le
      have hneg : m * n < 0 := mul_neg_of_neg_of_pos hm (hpow.trans_le hb)
      calc -2 ^ 53 < k * 2 ^ c := hbelow
        _ ≤ m * 2 ^ b * 2 ^ c := mul_le_mul_of_nonneg_right (by omega) hpowc.le
  · rcases le_or_gt m 0 with hm | hm
    · have : m * 2 ^ b * 2 ^ c ≤ 0 := mul_nonpos_of_nonpos_of_nonneg (mul_nonpos_of_nonpos_of_nonneg hm hpow.le) hpowc.le
      omega
    · have hmn : m * 2 ^ b ≤ m * n := mul_le_mul_of_nonneg_left hb hm.le
      rcases hc with rfl | rfl
      · -- the periods before it fit in 2^34 seconds
        have hmn' : (m - 1) * 2 ^ b ≤ (m - 1) * n := mul_le_mul_of_nonneg_left hb (by omega)
        have hsplit : (2 : ℤ) ^ 34 = 2 ^ (34 - b) * 2 ^ b := by rw [← pow_add, Nat.sub_add_cancel hb']
        have hlt : (m - 1) * 2 ^ b < 2 ^ (34 - b) * 2 ^ b := by omega
        have hm' : m ≤ 2 ^ (34 - b) := by
          have := lt_of_mul_lt_mul_right hlt hpow.le
          omega
        have := mul_le_mul_of_nonneg_right hm' hpow.le
        omega
      · omega

theorem long_quotient_lt {n' : ℚ} {c : ℕ} (hc : c = 19 ∨ c = 20) (hn : 2 ^ 35 ≤ n) (hm : m = 0 ∨ m = 1)
    (hy : y ≤ m * n - 1 / 2 ^ c) (hy' : y ≤ 2 ^ 34) (hn' : Rounded n n') (hr : Rounded (y / n') r) : r < m := by
  have hlarge : (2 : ℚ) ^ 35 ≤ n' := by
    have hexact : Exact ((2 ^ 35 : ℤ) : ℚ) := exact_int (by norm_num)
    have h := hn'.ge_of_ge hexact (Int.cast_le.2 hn)
    exact_mod_cast h
  have hpos : 0 < n' := lt_of_lt_of_le (by norm_num) hlarge
  rcases hm with rfl | rfl
  · -- a negative quotient, which no double is too great for
    have hexact : Exact (((0 : ℤ) : ℚ) - 1 / 2 ^ (c + 1024)) := exact_pred (by omega) (by omega) (by omega)
    have hlt : n' < 2 ^ 1024 := lt_of_le_of_lt (le_abs_self n') (exact_lt hn'.mem)
    have hle : r ≤ ((0 : ℤ) : ℚ) - 1 / 2 ^ (c + 1024) := by
      apply hr.le_of_le hexact
      rw [Int.cast_zero, zero_mul, zero_sub] at hy
      rw [Int.cast_zero, zero_sub, div_le_iff₀ hpos]
      calc y ≤ -(1 / 2 ^ c) := hy
        _ = -(1 / 2 ^ (c + 1024)) * 2 ^ 1024 := by rw [pow_add, neg_mul, ← div_div, div_mul_cancel₀ _ (pow_ne_zero _ two_ne_zero)]
        _ ≤ -(1 / 2 ^ (c + 1024)) * n' := by
          apply mul_le_mul_of_nonpos_left hlt.le
          exact neg_nonpos.2 (by positivity)
    have hunit : (0 : ℚ) < 1 / 2 ^ (c + 1024) := by positivity
    rw [Int.cast_zero] at hle ⊢
    linarith
  · have hexact : Exact (((1 : ℤ) : ℚ) / 2 ^ 1) := exact_dyadic (by norm_num) (by omega)
    have hle : r ≤ ((1 : ℤ) : ℚ) / 2 ^ 1 := by
      apply hr.le_of_le hexact
      rw [div_le_iff₀ hpos]
      linarith
    norm_num at hle ⊢
    linarith

theorem quotient_lt_next (hn : 1 ≤ n) (hs : s = 0 ∨ 0 ≤ s ∧ s * 1000000 ≤ a) (hlow : -2 ^ 34 * 1000000 < a)
    (hhigh : a < 2 ^ 34 * 1000000) (hfit : ((m - 1) * n + s) * 1000000 ≤ a) (ha : a < (m * n + s) * 1000000)
    (hy : Elapsed a s y) (hr : Divided y n r) : r < m := by
  obtain ⟨k, c, hk, hc, hbelow, habove, hle, hlarge⟩ := elapsed_le hs hlow hhigh ha hy
  obtain ⟨n', hn', hr⟩ := hr
  by_cases hlong : 2 ^ 35 ≤ n
  · have hm : m = 0 ∨ m = 1 := by
      have hupper : m - 1 < 1 := by
        by_contra hcon
        have : n ≤ (m - 1) * n := le_mul_of_one_le_left (by omega) (by omega)
        omega
      have hlower : -1 < m := by
        by_contra hcon
        have : m * n ≤ -1 * n := mul_le_mul_of_nonneg_right (by omega) (by omega)
        omega
      omega
    exact long_quotient_lt hc hlong hm hle hlarge hn' hr
  · have hexact : |n| ≤ 2 ^ 53 := abs_le.2 ⟨by omega, by omega⟩
    obtain rfl := hn'.eq_int hexact
    obtain ⟨b, hb, hb'⟩ : ∃ b : ℕ, 2 ^ b ≤ n ∧ n < 2 ^ (b + 1) := by
      refine ⟨Nat.log 2 n.toNat, ?_, ?_⟩
      · have h := Nat.pow_log_le_self 2 (x := n.toNat) (by omega)
        have hcast : ((2 ^ Nat.log 2 n.toNat : ℕ) : ℤ) ≤ n := by omega
        exact_mod_cast hcast
      · have h := Nat.lt_pow_succ_log_self (b := 2) (by decide) n.toNat
        have hcast : n < ((2 ^ (Nat.log 2 n.toNat + 1) : ℕ) : ℤ) := by omega
        exact_mod_cast hcast
    have hb34 : b ≤ 34 := by
      have hlt : (2 : ℤ) ^ b < 2 ^ 35 := by omega
      have := (pow_lt_pow_iff_right₀ (by norm_num : (1 : ℤ) < 2)).1 hlt
      omega
    obtain ⟨hlo, hhi⟩ := mantissa_le hk hs hc hb hb34 hfit ha hhigh hbelow habove
    exact quotient_lt hb hb' hle hlo hhi (by omega) hr

theorem lt_of_not_fits (hn : 1 ≤ n) (hs : s = 0 ∨ 0 ≤ s ∧ s * 1000000 ≤ a) (hlow : -2 ^ 34 * 1000000 < a)
    (hhigh : a < 2 ^ 34 * 1000000) (ha : a < (m * n + s) * 1000000) (hy : Elapsed a s y) (hr : Divided y n r) : r < m := by
  obtain ⟨next, hnext⟩ : ∃ next, next = (a - s * 1000000) / (n * 1000000) + 1 := ⟨_, rfl⟩
  have hpos : 0 < n * 1000000 := by omega
  have hfit : (next - 1) * (n * 1000000) ≤ a - s * 1000000 := by
    rw [hnext, add_sub_cancel_right]
    exact Int.ediv_mul_le _ hpos.ne'
  have hbeyond : a - s * 1000000 < next * (n * 1000000) := by
    rw [hnext]
    exact Int.lt_ediv_add_one_mul_self _ hpos
  have hle : next ≤ m := by
    have hlt : (next - 1) * (n * 1000000) < m * (n * 1000000) := by
      calc (next - 1) * (n * 1000000) ≤ a - s * 1000000 := hfit
        _ < m * (n * 1000000) := by linarith
    have := lt_of_mul_lt_mul_right hlt hpos.le
    omega
  calc r < next := quotient_lt_next hn hs hlow hhigh (by linarith) (by linarith) hy hr
    _ ≤ m := Int.cast_le.2 hle

/-- **Below 2^34 seconds, exactly the periods that fit are counted.** -/
theorem fits_of_le (hn : 1 ≤ n) (hs : 0 ≤ s) (hhigh : a < 2 ^ 34 * 1000000) (hy : Elapsed a s y) (hr : Divided y n r)
    (hpos : 0 ≤ y) (hm : (m : ℚ) ≤ r) : (m * n + s) * 1000000 ≤ a := by
  by_contra hcon
  by_cases hless : a < s * 1000000
  · exact absurd (elapsed_lt_zero hs hhigh hless hy) (not_lt.2 hpos)
  · have hlt := lt_of_not_fits hn (Or.inr ⟨hs, by omega⟩) (by omega) hhigh (not_le.1 hcon) hy hr
    exact absurd hm (not_le.2 hlt)

theorem ceil_le {w k : ℤ} {x : ℚ} (hn : 1 ≤ n) (hk : |k * n| ≤ 2 ^ 53) (hw : w ≤ k * n * 1000000)
    (hx : Rounded ((w : ℚ) / 1000000) x) (hr : Divided x n r) : r ≤ k := by
  have hneg : |-k * n| ≤ 2 ^ 53 := by rwa [neg_mul, abs_neg]
  have hle := fits_le (m := -k) hn (by norm_num) hneg (by rwa [add_zero]) (by linarith) (elapsed_neg hx) hr.neg
  rw [Int.cast_neg] at hle
  linarith

theorem le_ceil {w k : ℤ} {x : ℚ} (hn : 1 ≤ n) (hw : |w| < 2 ^ 34 * 1000000) (hx : Rounded ((w : ℚ) / 1000000) x)
    (hr : Divided x n r) (hk : r ≤ k) : w ≤ k * n * 1000000 := by
  by_contra hcon
  obtain ⟨hlow, hhigh⟩ := abs_lt.1 hw
  have hlt := lt_of_not_fits (m := -k) hn (Or.inl rfl) (by omega) (by omega) (by linarith) (elapsed_neg hx) hr.neg
  rw [Int.cast_neg] at hlt
  linarith

end Teardrop.Double
