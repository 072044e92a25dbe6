/-
Prices as texts (`atomic_usdc_to_price_str` of `billing/models.py`, `_price_str_to_atomic` of `teardrop/onboarding.py`,
`x402_upto_max_amount_atomic` of `teardrop/config.py`).

`Decimal(text)` reads a text exactly; a product is rounded to the 28 digits of the default context. What is too small for that
context is no whole number of units either way, so it has no case of its own. `_price_str_to_atomic` gets a text.
-/
import Mathlib
import Teardrop.Core.PyText

namespace Teardrop.PriceStrings

open PyText List Nat

/-! ## Decimals -/

/-- `decimal.Decimal` -/
inductive Dec
  | finite (negative : Bool) (coeff : ℕ) (exp : ℤ)
  | inf (negative : Bool)
  | nan

/-- the greatest exponent that a decimal can have -/
def maxExponent : ℤ := 999999999999999999

def natOf (ds : List Char) : ℕ := Nat.ofDigitChars 10 ds 0

/-- `E`, a sign and digits, or nothing -/
def exponentOf : List Char → Option ℤ
  | [] => some 0
  | c :: rest =>
    let (negative, ds) := splitSign rest
    if (c = 'e' ∨ c = 'E') ∧ ds ≠ [] ∧ ds.all Char.isDigit then some (if negative then -(natOf ds : ℤ) else natOf ds) else none

/-- digits, of which some may follow a point, and an exponent -/
def finiteOf (negative : Bool) (s : List Char) : Option Dec :=
  let whole := s.takeWhile Char.isDigit
  let (frac, rest) := match s.dropWhile Char.isDigit with
    | '.' :: r => (r.takeWhile Char.isDigit, r.dropWhile Char.isDigit)
    | r => ([], r)
  match whole ++ frac, exponentOf rest with
  | [], _ | _, none => none
  | ds, some e =>
    if natOf ds ≠ 0 ∧ maxExponent < e - frac.length + (Nat.toDigits 10 (natOf ds)).length - 1 then none
    else some (.finite negative (natOf ds) (e - frac.length))

/-- `Decimal(text)`; `none` is `InvalidOperation`. The digits after `NaN` play no part, and a product with a signaling NaN is
    an `InvalidOperation` too, which the readers below take for 0 as they do a NaN. -/
def decimalOf (text : List Char) : Option Dec :=
  let (negative, s) := splitSign (((strip text).filter (· ≠ '_')).map asciiChar)
  let word := s.map lowerAscii
  if word = "inf".toList ∨ word = "infinity".toList then some (.inf negative)
  else if word.takeWhile (fun c => !c.isDigit) ∈ ["nan".toList, "snan".toList] ∧
      (word.dropWhile (fun c => !c.isDigit)).all Char.isDigit then some .nan
  else finiteOf negative s

/-- the nearest integer, the even one of two -/
def toIntegralValue (q : ℚ) : ℤ := if q - ⌊q⌋ < 1 / 2 ∨ (q - ⌊q⌋ = 1 / 2 ∧ Even ⌊q⌋) then ⌊q⌋ else ⌊q⌋ + 1

/-- digits of a result -/
def precision : ℕ := 28

/-- `coeff * 10^exp` to so many digits -/
def rounded (coeff : ℕ) (exp : ℤ) : ℚ :=
  let cut := (Nat.toDigits 10 coeff).length - precision
  toIntegralValue (coeff / 10 ^ cut : ℚ) * 10 ^ (exp + cut)

/-- `decimal.Overflow` of a product, and the `OverflowError` of `int(inf)` -/
inductive Raised
  | overflow
  | overflowError

/-- `Emax` -/
def maxAdjusted : ℕ := 999999

/-- `Decimal(s) * Decimal(1_000_000)` as an integer, 0 where it is none or is negative -/
def atomicOf (s : List Char) : Except Raised ℤ :=
  match decimalOf s with
  | none | some .nan | some (.inf true) => .ok 0
  | some (.inf false) => .error .overflowError
  | some (.finite negative coeff exp) =>
    let size := rounded (coeff * 1000000) exp
    let amount := if negative then -size else size
    if 10 ^ (maxAdjusted + 1) ≤ size then .error .overflow
    else if amount ≠ toIntegralValue amount ∨ amount < 0 then .ok 0
    else .ok (toIntegralValue amount)

def lstripDollar (s : List Char) : List Char := s.dropWhile (· = '$')

def priceStrToAtomic (priceStr : List Char) : Except Raised ℤ := atomicOf (lstripDollar (strip priceStr))

def x402UptoMaxAmountAtomic (x402UptoMaxAmount : List Char) : Except Raised ℤ :=
  atomicOf (strip (lstripDollar (strip x402UptoMaxAmount)))

/-! ## Texts of amounts -/

/-- `f"{n:06d}"` -/
def sixDigits (n : ℕ) : List Char := List.replicate (6 - (Nat.toDigits 10 n).length) '0' ++ Nat.toDigits 10 n

/-- `rstrip("0")` -/
def rstripZeros (s : List Char) : List Char := (s.reverse.dropWhile (· = '0')).reverse

/-- `ljust(2, "0")` -/
def ljustTwo (s : List Char) : List Char := s ++ List.replicate (2 - s.length) '0'

def fracOf (n : ℕ) : List Char :=
  let stripped := rstripZeros (sixDigits n)
  if stripped.length < 2 then ljustTwo stripped else stripped

/-- an error is the text of a `ValueError` -/
def atomicUsdcToPriceStr (atomic : ℤ) : Except String (List Char) :=
  if atomic < 0 then .error "atomic USDC amount must not be negative"
  else .ok ('$' :: (Nat.toDigits 10 (atomic.toNat / 1000000) ++ '.' :: fracOf (atomic.toNat % 1000000)))

/-- `text` is a dollar sign, digits, a point and two to six digits that say `a` millionths, the last of them no zero from the
    third on -/
structure Says (text : List Char) (a : ℕ) : Prop where
  exact : ∃ whole frac : List Char, text = '$' :: (whole ++ '.' :: frac) ∧ whole ≠ [] ∧ (∀ c ∈ whole ++ frac, c.isDigit) ∧
    2 ≤ frac.length ∧ frac.length ≤ 6 ∧ (frac.length = 2 ∨ frac.getLast? ≠ some '0') ∧
    (natOf whole : ℚ) + natOf frac / 10 ^ frac.length = a / 10 ^ 6

variable (s : List Char) {n : ℕ}

theorem natOf_append (t : List Char) : natOf (s ++ t) = natOf s * 10 ^ t.length + natOf t := by
  have hlast (n : ℕ) : ofDigitChars 10 t n = n * 10 ^ t.length + natOf t := by
    rw [natOf, ofDigitChars_eq_ofDigitChars_zero, mul_comm]
  rw [natOf, ofDigitChars_append, hlast]
  rfl

theorem natOf_zeros (n : ℕ) : natOf (s ++ replicate n '0') = natOf s * 10 ^ n := by
  rw [natOf_append, length_replicate, natOf, natOf, ofDigitChars_replicate_zero, mul_zero, add_zero]

theorem isDigit_toDigits : ∀ c ∈ toDigits 10 n, c.isDigit :=
  fun _ hc => isDigit_of_mem_toDigits (by decide) (by decide) hc

/-- six digits that say `n` -/
theorem sixDigits_spec (hn : n < 10 ^ 6) :
    (sixDigits n).length = 6 ∧ (∀ c ∈ sixDigits n, c.isDigit) ∧ natOf (sixDigits n) = n := by
  have hlen : (toDigits 10 n).length ≤ 6 := (length_toDigits_le_iff (by decide) (by decide)).2 hn
  refine ⟨?_, fun c hc => ?_, ?_⟩
  · rw [sixDigits, length_append, length_replicate]
    omega
  · rcases mem_append.1 hc with hc | hc
    · rw [eq_of_mem_replicate hc]
      rfl
    · exact isDigit_toDigits c hc
  · rw [sixDigits, natOf_append, natOf, ofDigitChars_replicate_zero, mul_zero, zero_mul, zero_add]
    exact ofDigitChars_ten_toDigits

/-- what is stripped is put back by zeros, and what is left does not end in one -/
theorem rstripZeros_spec : (∃ n, s = rstripZeros s ++ replicate n '0') ∧ (rstripZeros s).getLast? ≠ some '0' := by
  constructor
  · refine ⟨(s.reverse.takeWhile (· = '0')).length, ?_⟩
    have hzeros : s.reverse.takeWhile (· = '0') = replicate (s.reverse.takeWhile (· = '0')).length '0' :=
      eq_replicate_iff.2 ⟨rfl, fun c hc => by simpa using mem_takeWhile_imp hc⟩
    have hsplit := congrArg reverse (takeWhile_append_dropWhile (p := (· = '0')) (l := s.reverse))
    rw [reverse_append, reverse_reverse, hzeros, reverse_replicate] at hsplit
    exact hsplit.symm
  · rw [rstripZeros, getLast?_reverse]
    intro h
    have hfirst := head?_dropWhile_not (· = '0') s.reverse
    rw [h] at hfirst
    simp at hfirst

/-- the digits after the point, with the zeros that were left out, are six digits that say `n` -/
theorem fracOf_spec (hn : n < 10 ^ 6) :
    2 ≤ (fracOf n).length ∧ (fracOf n).length ≤ 6 ∧ (∀ c ∈ fracOf n, c.isDigit) ∧
      natOf (fracOf n) * 10 ^ (6 - (fracOf n).length) = n ∧
      ((fracOf n).length = 2 ∨ (fracOf n).getLast? ≠ some '0') := by
  obtain ⟨hlen, hdigits, hval⟩ := sixDigits_spec hn
  obtain ⟨⟨k, hk⟩, hlast⟩ := rstripZeros_spec (sixDigits n)
  have hsplit := congrArg length hk
  rw [length_append, length_replicate, hlen] at hsplit
  have hfrac : fracOf n = ljustTwo (rstripZeros (sixDigits n)) := by
    simp only [fracOf]
    split_ifs with hshort
    · rfl
    · rw [ljustTwo, Nat.sub_eq_zero_of_le (not_lt.1 hshort), replicate_zero, append_nil]
  have hjust : (fracOf n).length = max (rstripZeros (sixDigits n)).length 2 := by
    rw [hfrac, ljustTwo, length_append, length_replicate]
    omega
  -- the six digits are those after the point and zeros
  have hzeros : sixDigits n = fracOf n ++ replicate (6 - (fracOf n).length) '0' := by
    have hcount : 2 - (rstripZeros (sixDigits n)).length + (6 - max (rstripZeros (sixDigits n)).length 2) = k := by omega
    rw [hjust, hfrac, ljustTwo, append_assoc, replicate_append_replicate, hcount]
    exact hk
  refine ⟨by omega, by omega, fun c hc => hdigits c (hzeros ▸ mem_append_left _ hc), ?_, ?_⟩
  · rw [← natOf_zeros, ← hzeros, hval]
  · by_cases hshort : (rstripZeros (sixDigits n)).length ≤ 2
    · exact .inl (by omega)
    · rw [hfrac, ljustTwo, Nat.sub_eq_zero_of_le (by omega), replicate_zero, append_nil]
      exact .inr hlast

/-! ## Reading them -/

theorem digit_cases {c : Char} (h : c.isDigit) : ∃ k < 10, c = Char.ofNat (48 + k) := by
  have hval : 48 ≤ c.toNat ∧ c.toNat ≤ 57 := by simpa [Char.isDigit, UInt32.le_iff_toNat_le] using h
  exact ⟨c.toNat - 48, by omega, by rw [Nat.add_sub_cancel' hval.1, Char.ofNat_toNat]⟩

/-- neither a blank nor an underscore, and its own reading -/
theorem plain_digit {c : Char} (h : c.isDigit) : isSpace c = false ∧ c ≠ '_' ∧ asciiChar c = c := by
  obtain ⟨k, hk, rfl⟩ := digit_cases h
  interval_cases k <;> decide

/-- no sign, no dollar sign, and the first letter of no word -/
theorem digit_first {c : Char} (h : c.isDigit) (s : List Char) :
    splitSign (c :: s) = (false, c :: s) ∧ (lowerAscii c).isDigit ∧ lowerAscii c ≠ 'i' ∧ c ≠ '$' := by
  obtain ⟨k, hk, rfl⟩ := digit_cases h
  interval_cases k <;> exact ⟨rfl, by decide, by decide, by decide⟩

theorem strip_plain {s : List Char} (h : ∀ c ∈ s, isSpace c = false) : strip s = s := by
  have hkept {t : List Char} (ht : ∀ c ∈ t, isSpace c = false) : t.dropWhile isSpace = t := by
    cases t with
    | nil => rfl
    | cons c t => simp [ht c mem_cons_self]
  rw [strip, hkept h, hkept fun c hc => h c (mem_reverse.1 hc), reverse_reverse]

variable {whole frac : List Char}

/-- digits, a point and digits are read digit by digit -/
theorem decimalOf_fraction (hne : whole ≠ []) (hdigits : ∀ c ∈ whole ++ frac, c.isDigit)
    (hsmall : natOf (whole ++ frac) < 10 ^ precision) :
    decimalOf (whole ++ '.' :: frac) = some (.finite false (natOf (whole ++ frac)) (-frac.length)) := by
  have hwhole : ∀ c ∈ whole, c.isDigit := fun c hc => hdigits c (mem_append_left _ hc)
  have hfrac : ∀ c ∈ frac, c.isDigit := fun c hc => hdigits c (mem_append_right _ hc)
  have hplain : ∀ c ∈ whole ++ '.' :: frac, isSpace c = false ∧ c ≠ '_' ∧ asciiChar c = c := by
    intro c hc
    rcases mem_append.1 hc with hc | hc
    · exact plain_digit (hwhole c hc)
    · rcases mem_cons.1 hc with rfl | hc
      · decide
      · exact plain_digit (hfrac c hc)
  have hbody : ((strip (whole ++ '.' :: frac)).filter (· ≠ '_')).map asciiChar = whole ++ '.' :: frac := by
    rw [strip_plain fun c hc => (hplain c hc).1, filter_eq_self.2 fun c hc => by simpa using (hplain c hc).2.1]
    exact (map_congr_left fun c hc => (hplain c hc).2.2).trans (map_id _)
  obtain ⟨d, ds, rfl⟩ := exists_cons_of_ne_nil hne
  have hd := hwhole d mem_cons_self
  have htake : (d :: ds ++ '.' :: frac).takeWhile Char.isDigit = d :: ds := by
    rw [takeWhile_append_of_pos hwhole]
    simp
  have hdrop : (d :: ds ++ '.' :: frac).dropWhile Char.isDigit = '.' :: frac := by
    rw [dropWhile_append_of_pos hwhole]
    rfl
  have hend : frac.takeWhile Char.isDigit = frac ∧ frac.dropWhile Char.isDigit = [] :=
    ⟨takeWhile_eq_self_iff.2 hfrac, dropWhile_eq_nil_iff.2 hfrac⟩
  obtain ⟨hsign, hlower, hletter, -⟩ := digit_first hd (ds ++ '.' :: frac)
  have hinf : ¬ ((d :: ds ++ '.' :: frac).map lowerAscii = "inf".toList ∨
      (d :: ds ++ '.' :: frac).map lowerAscii = "infinity".toList) := by
    rintro (h | h) <;> exact hletter (cons.inj h).1
  have hnan : ((d :: ds ++ '.' :: frac).map lowerAscii).takeWhile (fun c => !c.isDigit) = [] := by
    rw [cons_append, map_cons, takeWhile_cons_of_neg (by simpa using hlower)]
  have hlength := (Nat.length_toDigits_le_iff (by decide) (by decide)).2 hsmall
  have hfits : ¬ (natOf (d :: ds ++ frac) ≠ 0 ∧
      maxExponent < -frac.length + (Nat.toDigits 10 (natOf (d :: ds ++ frac))).length - 1) := by
    rw [precision] at hlength
    rw [maxExponent]
    omega
  rw [decimalOf, hbody]
  simp only [cons_append, hsign]
  rw [← cons_append, if_neg hinf, hnan, if_neg (by simp), finiteOf, htake, hdrop]
  simp only [hend, exponentOf]
  rw [cons_append] at hfits ⊢
  simp [if_neg hfits]

/-- up to 22 digits, a million times a decimal is exact -/
theorem rounded_million {c : ℕ} (hc : c < 10 ^ 22) (exp : ℤ) : rounded (c * 1000000) exp = (c * 1000000) * 10 ^ exp := by
  have hlength : (Nat.toDigits 10 (c * 1000000)).length ≤ precision :=
    (Nat.length_toDigits_le_iff (by decide) (by decide)).2 (by rw [precision]; omega)
  have hint : toIntegralValue (c * 1000000) = c * 1000000 := by
    have hfloor : ⌊(c * 1000000 : ℚ)⌋ = c * 1000000 := by exact_mod_cast Int.floor_natCast (c * 1000000)
    simp [toIntegralValue, hfloor]
  simp [rounded, Nat.sub_eq_zero_of_le hlength, hint]

/-- a number of at most 22 digits, of which at most six stand after the point, is read as so many millionths -/
theorem atomicOf_fraction (hne : whole ≠ []) (hdigits : ∀ c ∈ whole ++ frac, c.isDigit) (hlong : frac.length ≤ 6)
    (hn : natOf (whole ++ frac) * 10 ^ (6 - frac.length) = n) (hsmall : n < 10 ^ 22) :
    atomicOf (whole ++ '.' :: frac) = .ok n := by
  have hc : natOf (whole ++ frac) < 10 ^ 22 := (Nat.le_mul_of_pos_right _ (by positivity)).trans_lt (hn ▸ hsmall)
  have hamount : rounded (natOf (whole ++ frac) * 1000000) (-frac.length) = n := by
    have hpow : (10 ^ frac.length * 10 ^ (6 - frac.length) : ℚ) = 1000000 := by
      rw [← pow_add, Nat.add_sub_cancel' hlong]
      norm_num
    rw [rounded_million hc, zpow_neg, zpow_natCast, ← hn, ← hpow]
    push_cast
    field_simp
  have hint : toIntegralValue (n : ℚ) = n := by simp [toIntegralValue]
  have hover : ¬ (10 ^ (maxAdjusted + 1) : ℚ) ≤ n := by
    have hpow : (10 : ℚ) ^ 22 ≤ 10 ^ (maxAdjusted + 1) := pow_le_pow_right₀ (by norm_num) (by decide)
    exact not_le.2 ((by exact_mod_cast hsmall : (n : ℚ) < 10 ^ 22).trans_le hpow)
  have hwhole : ¬ ((n : ℚ) ≠ n ∨ (n : ℚ) < 0) := by simp
  simp only [atomicOf, decimalOf_fraction hne hdigits (hc.trans (by decide)), hamount, if_neg hover, hint, Int.cast_natCast,
    Bool.false_eq_true, if_false, if_neg hwhole]

/-- **Prices are exact.** Below 10^22 units the text says the amount, and both readers find it. -/
theorem price_str_exact (a : ℤ) (hnonneg : 0 ≤ a) (ha : a < 10 ^ 22) :
    ∃ text, atomicUsdcToPriceStr a = .ok text ∧ Says text a.toNat ∧ priceStrToAtomic text = .ok a ∧
      x402UptoMaxAmountAtomic text = .ok a := by
  obtain ⟨n, rfl⟩ := Int.eq_ofNat_of_zero_le hnonneg
  have hn : n < 10 ^ 22 := by exact_mod_cast ha
  obtain ⟨hshort, hlong, hfrac, hval, hlast⟩ := fracOf_spec (mod_lt n (by decide) : n % 1000000 < 10 ^ 6)
  set whole := toDigits 10 (n / 1000000) with hwhole
  set frac := fracOf (n % 1000000)
  have hdigits : ∀ c ∈ whole ++ frac, c.isDigit := by
    intro c hc
    rcases mem_append.1 hc with hc | hc
    · exact isDigit_toDigits c hc
    · exact hfrac c hc
  have hnat : natOf whole = n / 1000000 := ofDigitChars_ten_toDigits
  -- all digits, with the zeros that were left out, say the amount
  have hall : natOf (whole ++ frac) * 10 ^ (6 - frac.length) = n := by
    rw [natOf_append, add_mul, mul_assoc, ← pow_add, Nat.add_sub_cancel' hlong, hval, hnat]
    omega
  have hne : whole ≠ [] := toDigits_ne_nil
  have hread := atomicOf_fraction hne hdigits hlong hall hn
  have hplain : ∀ c ∈ whole ++ '.' :: frac, isSpace c = false := by
    intro c hc
    rcases mem_append.1 hc with hc | hc
    · exact (plain_digit (hdigits c (mem_append_left _ hc))).1
    · rcases mem_cons.1 hc with rfl | hc
      · decide
      · exact (plain_digit (hdigits c (mem_append_right _ hc))).1
  have hstrip : lstripDollar (strip ('$' :: (whole ++ '.' :: frac))) = whole ++ '.' :: frac := by
    obtain ⟨d, ds, hd⟩ := exists_cons_of_ne_nil hne
    have hdollar := (digit_first (hdigits d (by simp [hd])) []).2.2.2
    rw [strip_plain (forall_mem_cons.2 ⟨by decide, hplain⟩), hd]
    simp [lstripDollar, hdollar]
  have htext : atomicUsdcToPriceStr n = .ok ('$' :: (whole ++ '.' :: frac)) := if_neg (not_lt.2 hnonneg)
  refine ⟨_, htext, ⟨whole, frac, rfl, hne, hdigits, hshort, hlong, hlast, ?_⟩, ?_, ?_⟩
  · rw [Int.toNat_natCast, ← hall, natOf_append]
    have hpow : (10 ^ frac.length * 10 ^ (6 - frac.length) : ℚ) = 10 ^ 6 := by rw [← pow_add, Nat.add_sub_cancel' hlong]
    rw [← hpow]
    push_cast
    field_simp
  · rw [priceStrToAtomic, hstrip, hread]
  · rw [x402UptoMaxAmountAtomic, hstrip, strip_plain hplain, hread]

theorem price_str_exact_half : ∃ text, atomicUsdcToPriceStr 500000 = .ok text ∧ Says text 500000 ∧
    priceStrToAtomic text = .ok 500000 ∧ x402UptoMaxAmountAtomic text = .ok 500000 :=
  price_str_exact 500000 (by decide) (by decide)

example : atomicUsdcToPriceStr 500000 = .ok "$0.50".toList := by decide

end Teardrop.PriceStrings
