/-
Rounding to nearest, over any ordered field: `Nearest S q r` says that `r` is a number of `S` and none of `S` is closer
to `q`. Which of two equally close numbers is taken is left open, so the lemmas hold of every rule for ties.
-/
import Mathlib

namespace Teardrop

section Field

variable {K : Type} [Field K] [LinearOrder K] [IsStrictOrderedRing K]

/-- `r` is a number of `S` nearest to `q` -/
structure Nearest (S : Set K) (q r : K) : Prop where
  mem : r ∈ S
  least : ∀ d ∈ S, |r - q| ≤ |d - q|

namespace Nearest

variable {S : Set K} {q r m p : K}

theorem eq_of_mem (h : Nearest S q r) (hq : q ∈ S) : r = q := by
  have hzero : |r - q| ≤ 0 := by simpa using h.least q hq
  exact sub_eq_zero.1 (abs_nonpos_iff.1 hzero)

theorem le_of_le (h : Nearest S q r) (hm : m ∈ S) (hq : q ≤ m) : r ≤ m := by
  by_contra hlt
  have hlt : m < r := not_le.1 hlt
  have hclose := h.least m hm
  rw [abs_of_nonneg (sub_nonneg.2 (hq.trans hlt.le)), abs_of_nonneg (sub_nonneg.2 hq)] at hclose
  linarith

theorem ge_of_ge (h : Nearest S q r) (hm : m ∈ S) (hq : m ≤ q) : m ≤ r := by
  by_contra hlt
  have hlt : r < m := not_le.1 hlt
  have hclose := h.least m hm
  rw [abs_of_nonpos (sub_nonpos.2 (hlt.le.trans hq)), abs_of_nonpos (sub_nonpos.2 hq)] at hclose
  linarith

/-- a number below the middle of `p` and `m` is rounded to less than `m` -/
theorem lt_of_mid (h : Nearest S q r) (hp : p ∈ S) (hpm : p < m) (hq : 2 * q < p + m) : r < m := by
  by_contra hge
  have hclose := h.least p hp
  have hqr : q ≤ r := by linarith
  rw [abs_of_nonneg (sub_nonneg.2 hqr)] at hclose
  rcases abs_cases (p - q) with ⟨heq, _⟩ | ⟨heq, _⟩ <;> linarith

omit [IsStrictOrderedRing K] in
theorem neg (h : Nearest S q r) (hS : ∀ d ∈ S, -d ∈ S) : Nearest S (-q) (-r) where
  mem := hS r h.mem
  least d hd := by
    have hclose := h.least (-d) (hS d hd)
    calc |-r - -q| = |r - q| := by rw [neg_sub_neg, abs_sub_comm]
      _ ≤ |-d - q| := hclose
      _ = |d - -q| := by rw [← abs_neg, neg_sub, sub_neg_eq_add, sub_neg_eq_add, add_comm]

end Nearest

end Field

end Teardrop
