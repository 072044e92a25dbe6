/-
Python's `float`: IEEE binary64 numbers, their reading from decimals and their `repr`.

The finite numbers of one sign are counted in increasing order: number `k` is `units k` times 2^-1074, the count being
the bit pattern without its sign. `round` takes a fraction to the nearest number, a tie to the even count, and past the
last finite number to infinity. `shortest` is the digits of `repr`: of the decimals that read back, one with the fewest
digits and of these the nearest; `layout` places the point, or the exponent below 1e-4 and from 1e16 on.
-/
import Mathlib

namespace Teardrop

open Nat List

/-- how many finite numbers there are of one sign -/
def finiteCount : ℕ := 0x7ff0000000000000

inductive Double where
  | finite (negative : Bool) (k : Fin finiteCount)
  | inf (negative : Bool)
  | nan
deriving DecidableEq

namespace Double

/-! ## The numbers in order -/

/-- the value of number `k`, in units of 2^-1074 -/
def units (k : ℕ) : ℕ := if k < 2 ^ 52 then k else (2 ^ 52 + k % 2 ^ 52) * 2 ^ (k / 2 ^ 52 - 1)

theorem units_of_lt {k : ℕ} (h : k < 2 ^ 52) : units k = k := if_pos h

theorem units_of_normal {e f : ℕ} (hf : f < 2 ^ 52) : units ((e + 1) * 2 ^ 52 + f) = (2 ^ 52 + f) * 2 ^ e := by
  have hge : ¬ (e + 1) * 2 ^ 52 + f < 2 ^ 52 := by omega
  have hmod : ((e + 1) * 2 ^ 52 + f) % 2 ^ 52 = f := by omega
  have hdiv : ((e + 1) * 2 ^ 52 + f) / 2 ^ 52 - 1 = e := by omega
  rw [units, if_neg hge, hmod, hdiv]

theorem units_lt_succ (k : ℕ) : units k < units (k + 1) := by
  by_cases hsub : k + 1 < 2 ^ 52
  · rw [units_of_lt hsub, units_of_lt (by omega)]
    exact lt_succ_self k
  by_cases hedge : k + 1 = 2 ^ 52
  · have hnext : units (2 ^ 52) = 2 ^ 52 := by decide
    rw [units_of_lt (by omega), hedge, hnext]
    omega
  obtain ⟨e, f, hf, rfl⟩ : ∃ e f, f < 2 ^ 52 ∧ k = (e + 1) * 2 ^ 52 + f :=
    ⟨k / 2 ^ 52 - 1, k % 2 ^ 52, by omega, by omega⟩
  rw [units_of_normal hf]
  have hpos : 0 < 2 ^ e := Nat.two_pow_pos e
  by_cases hcarry : f + 1 < 2 ^ 52
  · rw [show (e + 1) * 2 ^ 52 + f + 1 = (e + 1) * 2 ^ 52 + (f + 1) by omega, units_of_normal hcarry]
    exact mul_lt_mul_of_pos_right (by omega) hpos
  · -- the mantissa overflows into the next power of two
    rw [show (e + 1) * 2 ^ 52 + f + 1 = (e + 1 + 1) * 2 ^ 52 + 0 by omega, units_of_normal (by decide : 0 < 2 ^ 52)]
    calc (2 ^ 52 + f) * 2 ^ e < ((2 ^ 52 + 0) * 2) * 2 ^ e := mul_lt_mul_of_pos_right (by omega) hpos
      _ = (2 ^ 52 + 0) * 2 ^ (e + 1) := by rw [pow_succ' 2 e, mul_assoc]

theorem units_strictMono : StrictMono units := strictMono_nat_of_lt_succ units_lt_succ

/-! ## Rounding -/

/-- the greatest number that satisfies `P`, found bit by bit from `2 ^ bits` down -/
def greatest (P : ℕ → Bool) : ℕ → ℕ → ℕ
  | 0, acc => acc
  | bits + 1, acc => greatest P bits (if P (acc + 2 ^ bits) then acc + 2 ^ bits else acc)

theorem greatest_spec (P : ℕ → Bool) : ∀ bits acc, P acc → P (acc + 2 ^ bits) = false →
    P (greatest P bits acc) ∧ P (greatest P bits acc + 1) = false := by
  intro bits
  induction bits with
  | zero => exact fun acc hacc htop => ⟨hacc, htop⟩
  | succ bits ih =>
    intro acc hacc htop
    rw [greatest]
    by_cases hmid : P (acc + 2 ^ bits)
    · rw [if_pos hmid]
      refine ih _ hmid ?_
      rw [add_assoc, ← two_mul, ← pow_succ']
      exact htop
    · rw [if_neg hmid]
      exact ih acc hacc (by simpa using hmid)

/-- the number `k` is at most `p / q` -/
def below (p q k : ℕ) : Bool := k < finiteCount && units k * q ≤ p * 2 ^ 1074

/-- the finite number nearest to `p / q`, or infinity -/
def round (negative : Bool) (p q : ℕ) : Double :=
  let k := greatest (below p q) 63 0
  let up := match compare (2 * (p * 2 ^ 1074)) ((units k + units (k + 1)) * q) with
    | .lt => k
    | .eq => k + k % 2
    | .gt => k + 1
  if h : up < finiteCount then .finite negative ⟨up, h⟩ else .inf negative

variable (negative : Bool) (k : Fin finiteCount)

theorem round_exact {p q : ℕ} (hq : 0 < q) (h : p * 2 ^ 1074 = units k * q) : round negative p q = .finite negative k := by
  have hbelow : ∀ j, below p q j ↔ j ≤ k.val := by
    intro j
    simp only [below, Bool.and_eq_true, decide_eq_true_eq, h]
    constructor
    · rintro ⟨_, hle⟩
      exact units_strictMono.le_iff_le.mp (le_of_mul_le_mul_right hle hq)
    · intro hle
      exact ⟨lt_of_le_of_lt hle k.isLt, mul_le_mul_right q (units_strictMono.monotone hle)⟩
  have hk : greatest (below p q) 63 0 = k.val := by
    have hfirst : below p q 0 := (hbelow 0).mpr (zero_le _)
    have hlast : below p q (0 + 2 ^ 63) = false := by
      have hlt : ¬ (0 + 2 ^ 63) ≤ k.val := by
        have hk : k.val < 0x7ff0000000000000 := k.isLt
        omega
      exact Bool.eq_false_iff.mpr (fun hb => hlt ((hbelow _).mp hb))
    obtain ⟨hin, hout⟩ := greatest_spec (below p q) 63 0 hfirst hlast
    have hle := (hbelow _).mp hin
    have hge : ¬ greatest (below p q) 63 0 + 1 ≤ k.val := fun hle' => by simp [(hbelow _).mpr hle'] at hout
    omega
  have hcmp : compare (2 * (p * 2 ^ 1074)) ((units k + units (k + 1)) * q) = .lt := by
    rw [Nat.compare_eq_lt, h, ← mul_assoc]
    exact mul_lt_mul_of_pos_right (by have := units_lt_succ k; omega) hq
  simp only [round, hk, hcmp]
  rw [dif_pos k.isLt]

theorem round_mul (p q : ℕ) {c : ℕ} (hc : 0 < c) : round negative (p * c) (q * c) = round negative p q := by
  have hbelow : below (p * c) (q * c) = below p q := by
    funext j
    have hiff : units j * (q * c) ≤ p * c * 2 ^ 1074 ↔ units j * q ≤ p * 2 ^ 1074 := by
      rw [← mul_assoc, mul_right_comm p]
      exact ⟨fun h => le_of_mul_le_mul_right h hc, mul_le_mul_right c⟩
    simp [below, hiff]
  have hcmp : ∀ a : ℕ, compare (2 * (p * c * 2 ^ 1074)) (a * (q * c)) = compare (2 * (p * 2 ^ 1074)) (a * q) := by
    intro a
    have hl : ∀ u, 2 * (p * c * u) = c * (2 * (p * u)) := fun u => by ring
    have hr : a * (q * c) = c * (a * q) := by ring
    rw [hl, hr]
    rcases lt_trichotomy (2 * (p * 2 ^ 1074)) (a * q) with hlt | heq | hgt
    · rw [Nat.compare_eq_lt.mpr hlt, Nat.compare_eq_lt.mpr (Nat.mul_lt_mul_of_pos_left hlt hc)]
    · rw [heq, Nat.compare_eq_eq.mpr rfl, Nat.compare_eq_eq.mpr rfl]
    · rw [Nat.compare_eq_gt.mpr hgt, Nat.compare_eq_gt.mpr (Nat.mul_lt_mul_of_pos_left hgt hc)]
  simp [round, hbelow, hcmp]

/-! ## Decimals -/

/-- the number nearest to `d` times 10^x -/
def ofDecimal (negative : Bool) (d : ℕ) (x : ℤ) : Double :=
  if 0 ≤ x then round negative (d * 10 ^ x.toNat) 1 else round negative d (10 ^ (-x).toNat)

theorem ofDecimal_shift (d j : ℕ) (x : ℤ) : ofDecimal negative (d * 10 ^ j) (x - j) = ofDecimal negative d x := by
  have hpow : ∀ n : ℕ, 0 < 10 ^ n := fun n => pow_pos (by decide) n
  unfold ofDecimal
  by_cases hx : 0 ≤ x
  · rw [if_pos hx]
    by_cases hxj : 0 ≤ x - j
    · rw [if_pos hxj, mul_assoc, ← pow_add, show j + (x - j).toNat = x.toNat by omega]
    · rw [if_neg hxj, show j = x.toNat + (-(x - j)).toNat by omega, pow_add, ← mul_assoc,
        show (x.toNat + (-(x - j)).toNat : ℕ) = j by omega]
      have := round_mul negative (d * 10 ^ x.toNat) 1 (hpow (-(x - j)).toNat)
      rwa [one_mul] at this
  · rw [if_neg hx, if_neg (by omega), show (-(x - j)).toNat = (-x).toNat + j by omega, pow_add]
    exact round_mul negative d (10 ^ (-x).toNat) (hpow j)

/-- the digits of number `k`, read as an integer: its exact value times 10^1074 -/
def exactDigits (k : ℕ) : ℕ := units k * 5 ^ 1074

theorem ofDecimal_exact : ofDecimal negative (exactDigits k) (-1074) = .finite negative k := by
  rw [ofDecimal, if_neg (by decide)]
  refine round_exact negative k (pow_pos (by decide) _) ?_
  rw [exactDigits, show (- -(1074 : ℤ)).toNat = 1074 from rfl, mul_assoc, ← mul_pow, show 5 * 2 = 10 from rfl]

/-! ## repr -/

/-- a decimal of `n` digits next to number `k` that reads back as it, the nearer one if both do -/
def candidate (k : Fin finiteCount) (n : ℕ) : Option (ℕ × ℤ) :=
  let exact := exactDigits k
  let cut := (Nat.toDigits 10 exact).length - n
  let low := exact / 10 ^ cut
  let x : ℤ := cut - 1074
  let lowOk : Bool := ofDecimal false low x = .finite false k
  let highOk : Bool := ofDecimal false (low + 1) x = .finite false k
  let high : Bool := match compare (2 * (exact % 10 ^ cut)) (10 ^ cut) with
    | .lt => false
    | .eq => low % 2 = 1
    | .gt => true
  if lowOk && !(highOk && high) then some (low, x)
  else if highOk then some (low + 1, x)
  else none

/-- digits and exponent of `repr`; seventeen digits always read back, so the exact value is never needed -/
def shortest (k : Fin finiteCount) : ℕ × ℤ := ((List.range' 1 17).findSome? (candidate k)).getD (exactDigits k, -1074)

/-- without zeros at the end -/
def trim : ℕ → ℕ × ℤ → ℕ × ℤ
  | 0, d => d
  | fuel + 1, (d, x) => if d ≠ 0 ∧ d % 10 = 0 then trim fuel (d / 10, x + 1) else (d, x)

/-- the parts of a written number: digits before the point, digits after it, exponent -/
structure FloatText where
  whole : List Char
  frac : List Char
  exponent : Option ℤ
deriving DecidableEq

/-- where `repr` puts the point: `point` digits stand before it -/
def layout (digits : List Char) (point : ℤ) : FloatText :=
  if -4 < point ∧ point ≤ 16 then
    if point ≤ 0 then ⟨['0'], List.replicate (-point).toNat '0' ++ digits, none⟩
    else if digits.length ≤ point.toNat then ⟨digits ++ List.replicate (point.toNat - digits.length) '0', ['0'], none⟩
    else ⟨digits.take point.toNat, digits.drop point.toNat, none⟩
  else ⟨digits.take 1, digits.drop 1, some (point - 1)⟩

/-- the text of a decimal -/
def decimalText (d : ℕ × ℤ) : FloatText := layout (Nat.toDigits 10 d.1) ((Nat.toDigits 10 d.1).length + d.2)

/-- `repr` of a number, its sign apart -/
def textOf (k : Fin finiteCount) : FloatText :=
  if k.val = 0 then ⟨['0'], ['0'], none⟩ else decimalText (trim 17 (shortest k))

/-- the number a text means -/
def read (negative : Bool) (t : FloatText) : Double :=
  ofDecimal negative (Nat.ofDigitChars 10 (t.whole ++ t.frac) 0) (t.exponent.getD 0 - t.frac.length)

/-! ## Round trip -/

theorem ofDecimal_sign {d : ℕ} {x : ℤ} {k : Fin finiteCount} (h : ofDecimal false d x = .finite false k) :
    ofDecimal negative d x = .finite negative k := by
  have hround : ∀ p q, round false p q = .finite false k → round negative p q = .finite negative k := by
    intro p q hr
    simp only [round] at hr ⊢
    split_ifs at hr ⊢
    exact congrArg (Double.finite negative) (Double.finite.inj hr).2
  unfold ofDecimal at h ⊢
  split_ifs at h ⊢ <;> exact hround _ _ h

theorem candidate_reads {k : Fin finiteCount} {n d : ℕ} {x : ℤ} (h : candidate k n = some (d, x)) :
    ofDecimal false d x = .finite false k := by
  simp only [candidate] at h
  split_ifs at h with hlow hhigh
  · cases h
    simp only [Bool.and_eq_true, decide_eq_true_eq] at hlow
    exact hlow.1
  · cases h
    exact decide_eq_true_eq.mp hhigh

theorem shortest_reads : ofDecimal false (shortest k).1 (shortest k).2 = .finite false k := by
  unfold shortest
  cases hfind : (range' 1 17).findSome? (candidate k) with
  | none => exact ofDecimal_exact false k
  | some dx =>
    obtain ⟨n, _, hn⟩ := exists_of_findSome?_eq_some hfind
    exact candidate_reads hn

theorem trim_reads : ∀ (fuel : ℕ) (d : ℕ × ℤ),
    ofDecimal negative (trim fuel d).1 (trim fuel d).2 = ofDecimal negative d.1 d.2 := by
  intro fuel
  induction fuel with
  | zero => exact fun d => rfl
  | succ fuel ih =>
    rintro ⟨d, x⟩
    rw [trim]
    by_cases hzero : d ≠ 0 ∧ d % 10 = 0
    · rw [if_pos hzero, ih]
      have hd : d = d / 10 * 10 ^ 1 := by omega
      have hx : x = x + 1 - (1 : ℕ) := by simp
      conv_rhs => rw [hd, hx]
      exact (ofDecimal_shift negative (d / 10) 1 (x + 1)).symm
    · rw [if_neg hzero]

theorem ofDigitChars_zeros (n : ℕ) (ds : List Char) : ofDigitChars 10 (replicate n '0' ++ ds) 0 = ofDigitChars 10 ds 0 := by
  rw [ofDigitChars_append, ofDigitChars_replicate_zero, mul_zero]

theorem ofDigitChars_pad (n : ℕ) (ds : List Char) :
    ofDigitChars 10 (ds ++ replicate n '0') 0 = ofDigitChars 10 ds 0 * 10 ^ n := by
  rw [ofDigitChars_append, ofDigitChars_replicate_zero, mul_comm]

theorem read_layout {digits : List Char} (hdigits : digits ≠ []) (point : ℤ) :
    read negative (layout digits point) = ofDecimal negative (ofDigitChars 10 digits 0) (point - digits.length) := by
  have hlen : 0 < digits.length := length_pos_iff.mpr hdigits
  unfold layout
  split_ifs with hfixed hsmall hlong
  · -- zeros before the digits
    have hval : ofDigitChars 10 (['0'] ++ (replicate (-point).toNat '0' ++ digits)) 0 = ofDigitChars 10 digits 0 := by
      rw [← append_assoc, show ['0'] = replicate 1 '0' from rfl, replicate_append_replicate, ofDigitChars_zeros]
    rw [read, hval]
    congr 1
    simp
    omega
  · -- zeros after them
    have hval : ofDigitChars 10 ((digits ++ replicate (point.toNat - digits.length) '0') ++ ['0']) 0 =
        ofDigitChars 10 digits 0 * 10 ^ (point.toNat - digits.length + 1) := by
      rw [append_assoc, show ['0'] = replicate 1 '0' from rfl, replicate_append_replicate, ofDigitChars_pad]
    refine Eq.trans ?_ (ofDecimal_shift negative _ (point.toNat - digits.length + 1) _)
    rw [read, hval]
    congr 1
    simp
    omega
  · rw [read, take_append_drop]
    congr 1
    simp
    omega
  · rw [read, take_append_drop]
    congr 1
    simp
    omega

theorem read_decimalText (d : ℕ × ℤ) : read negative (decimalText d) = ofDecimal negative d.1 d.2 := by
  rw [decimalText, read_layout negative toDigits_ne_nil, ofDigitChars_ten_toDigits, add_sub_cancel_left]

/-- **Round trip.** What `repr` writes of a finite number is read back. -/
theorem read_repr : read negative (textOf k) = .finite negative k := by
  unfold textOf
  split_ifs with hzero
  · have hk : k = ⟨0, by decide⟩ := Fin.ext hzero
    subst hk
    have hdigits : ofDigitChars 10 (['0'] ++ ['0']) 0 = 0 := by decide
    rw [read, hdigits, ofDecimal, if_neg (by decide)]
    refine round_exact negative _ (by decide) ?_
    rw [zero_mul, units_of_lt (by decide), zero_mul]
  · rw [read_decimalText, trim_reads]
    exact ofDecimal_sign negative (shortest_reads k)

/-! ## What the texts look like -/

/-- digits as numbers are written: zero alone, or a first digit that is not zero -/
def Numeral (ds : List Char) : Prop :=
  (∀ c ∈ ds, c.isDigit = true) ∧ (ds = ['0'] ∨ ∃ c cs, ds = c :: cs ∧ c ≠ '0')

theorem numeral_toDigits_pos {n : ℕ} : 0 < n → ∃ c cs, toDigits 10 n = c :: cs ∧ c ≠ '0' := by
  induction n using Nat.strong_induction_on with
  | h n ih =>
    intro hn
    by_cases hlt : n < 10
    · rw [toDigits_of_lt_base hlt]
      refine ⟨_, _, rfl, ?_⟩
      interval_cases n <;> decide
    · obtain ⟨c, cs, hcs, hc⟩ := ih (n / 10) (by omega) (by omega)
      rw [toDigits_of_base_le (by decide) (by omega), hcs]
      exact ⟨c, _, rfl, hc⟩

theorem numeral_toDigits (n : ℕ) : Numeral (toDigits 10 n) := by
  refine ⟨fun c hc => isDigit_of_mem_toDigits (by decide) (by decide) hc, ?_⟩
  rcases Nat.eq_zero_or_pos n with rfl | hpos
  · exact Or.inl (toDigits_zero 10)
  · exact Or.inr (numeral_toDigits_pos hpos)

/-- a number with a fraction or an exponent -/
structure FloatText.Written (t : FloatText) : Prop where
  whole : Numeral t.whole
  frac : ∀ c ∈ t.frac, c.isDigit = true
  isFloat : t.exponent = none → t.frac ≠ []

theorem layout_written {digits : List Char} (hdigits : ∀ c ∈ digits, c.isDigit) {c : Char} {cs : List Char}
    (hfirst : digits = c :: cs) (hc : c ≠ '0') (point : ℤ) : (layout digits point).Written := by
  have hzeros : ∀ n, ∀ c ∈ replicate n '0', c.isDigit := by
    intro n c hc
    rw [eq_of_mem_replicate hc]
    rfl
  have hcons : ∀ n, 0 < n → digits.take n = c :: cs.take (n - 1) := by
    intro n hn
    obtain ⟨m, rfl⟩ : ∃ m, n = m + 1 := ⟨n - 1, by omega⟩
    rw [hfirst, take_succ_cons, Nat.add_sub_cancel]
  unfold layout
  split_ifs with hfixed hsmall hlong
  · refine ⟨⟨hzeros 1, Or.inl rfl⟩, ?_, fun _ => ?_⟩
    · intro d hd
      rcases mem_append.mp hd with hd | hd
      · exact hzeros _ d hd
      · exact hdigits d hd
    · simp [hfirst]
  · refine ⟨⟨?_, Or.inr ⟨c, _, by rw [hfirst, cons_append], hc⟩⟩, hzeros 1, fun _ => by simp⟩
    intro d hd
    rcases mem_append.mp hd with hd | hd
    · exact hdigits d hd
    · exact hzeros _ d hd
  · refine ⟨⟨fun d hd => hdigits d (mem_of_mem_take hd), Or.inr ⟨c, _, hcons _ (by omega), hc⟩⟩,
      fun d hd => hdigits d (mem_of_mem_drop hd), fun _ hnil => ?_⟩
    exact hlong (drop_eq_nil_iff.mp hnil)
  · exact ⟨⟨fun d hd => hdigits d (mem_of_mem_take hd), Or.inr ⟨c, _, hcons _ (by decide), hc⟩⟩,
      fun d hd => hdigits d (mem_of_mem_drop hd), fun h => by cases h⟩

theorem ofDecimal_zero (x : ℤ) : ofDecimal false 0 x = .finite false ⟨0, by decide⟩ := by
  have hzero : ∀ q, 0 < q → round false 0 q = .finite false ⟨0, by decide⟩ := by
    intro q hq
    refine round_exact false _ hq ?_
    rw [zero_mul, units_of_lt (by decide), zero_mul]
  unfold ofDecimal
  split_ifs
  · rw [zero_mul]
    exact hzero 1 (by decide)
  · exact hzero _ (pow_pos (by decide) _)

theorem trim_ne_zero : ∀ (fuel : ℕ) (d : ℕ × ℤ), d.1 ≠ 0 → (trim fuel d).1 ≠ 0 := by
  intro fuel
  induction fuel with
  | zero => exact fun d hd => hd
  | succ fuel ih =>
    rintro ⟨d, x⟩ hd
    rw [trim]
    split_ifs with hzero
    · exact ih _ (by simp only; omega)
    · exact hd

theorem textOf_written : (textOf k).Written := by
  unfold textOf
  split_ifs with hzero
  · exact ⟨⟨by simp, Or.inl rfl⟩, by simp, fun _ => by simp⟩
  · have hne : (shortest k).1 ≠ 0 := by
      intro hd
      have hreads := shortest_reads k
      rw [hd, ofDecimal_zero] at hreads
      exact hzero (congrArg Fin.val (Double.finite.inj hreads).2).symm
    obtain ⟨c, cs, hcs, hc⟩ := numeral_toDigits_pos (pos_of_ne_zero (trim_ne_zero 17 _ hne))
    exact layout_written (numeral_toDigits _).1 hcs hc _

example : textOf ⟨0x3fb999999999999a, by decide⟩ = ⟨['0'], ['1'], none⟩ := by decide +kernel
example : textOf ⟨0x3d30000000000000, by decide⟩ = ⟨['5'], "684341886080802".toList, some (-14)⟩ := by decide +kernel

end Double

end Teardrop
