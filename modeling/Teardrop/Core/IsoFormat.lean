/-
`datetime.isoformat()`: the date, `T`, the time with its microseconds where there are any, and the offset from UTC down
to the microsecond where the datetime has one.
-/
import Mathlib
import Teardrop.Core.DateTime
import Teardrop.Core.JsonSurrogates

namespace Teardrop.DateTime

open PyJson Clock PyChar Nat List

/-! ## Writing -/

/-- hours, minutes, seconds and microseconds of a length of time -/
def Clock.ofMicros (us : ℕ) : Clock := ⟨us / 3600000000, us / 60000000 % 60, us / 1000000 % 60, us % 1000000⟩

/-- the microseconds, where there are any -/
def fractionText (us : ℕ) : PyStr := if us = 0 then [] else punct '.' ++ fixed 6 us

/-- `_format_time` -/
def Clock.text (c : Clock) : PyStr := clockText c.h c.m c.s ++ fractionText c.us

/-- a clock whose seconds are left out where they are zero -/
def Clock.shortText (c : Clock) : PyStr := if c.s = 0 ∧ c.us = 0 then two c.h ++ (punct ':' ++ two c.m) else c.text

/-- `_format_offset` -/
def offsetText (o : ℤ) : PyStr := (if o < 0 then punct '-' else punct '+') ++ (Clock.ofMicros o.natAbs).shortText

def zoneText (offset : Option ℤ) : PyStr := (offset.map offsetText).getD []

def isoformat (t : Stamp) : PyStr :=
  let date := ord2ymd (t.wall / dayMicros + epochOrdinal).toNat
  dateText date.1 date.2.1 date.2.2 ++ PyChar.ofChar 'T' :: ((Clock.ofMicros (t.wall % dayMicros).toNat).text ++ zoneText t.offset)

/-- a date and a time with something between them and a zone behind -/
def stampText (sep : PyChar) (zone : PyStr) (wall : ℤ) : PyStr :=
  let date := ord2ymd (wall / dayMicros + epochOrdinal).toNat
  dateText date.1 date.2.1 date.2.2 ++ sep :: ((Clock.ofMicros (wall % dayMicros).toNat).text ++ zone)

/-- a datetime of the years 1..9999, with an offset of less than a day -/
structure Stamp.Valid (t : Stamp) : Prop where
  wall : inRange t.wall = true
  offset : ∀ o, t.offset = some o → o.natAbs < dayMicros

/-! ## Reading back -/

variable (w n : ℕ) {c : Clock} {offset : Option ℤ}

theorem fixed_succ : fixed (w + 1) n = ofChar (digitChar (n / 10 ^ w % 10)) :: fixed w n := by
  induction w generalizing n with
  | zero => rw [pow_zero, Nat.div_one]; rfl
  | succ w ih =>
    rw [fixed, ih, Nat.div_div_eq_div_mul, ← pow_succ', cons_append]
    rfl

theorem digits_fixed (rest : PyStr) : digits w (fixed w n ++ rest) = some (n % 10 ^ w, rest) := by
  induction w with
  | zero => simp [digits, fixed, mod_one]
  | succ w ih =>
    have hdigit := (digit_spec (n / 10 ^ w % 10) (mod_lt _ (by decide))).1
    rw [fixed_succ, cons_append, digits, hdigit, ih, mod_pow_succ]
    simp only [Option.bind_eq_bind, Option.bind_some, Option.pure_def]
    rw [add_comm, mul_comm]

theorem fixed_isDigit : (fixed w n).all isDigit = true := by
  induction w with
  | zero => rfl
  | succ w ih =>
    have hdigit := (digit_spec (n / 10 ^ w % 10) (mod_lt _ (by decide))).2
    rw [fixed_succ, all_cons, hdigit, ih]
    rfl

theorem parseFraction_fixed {us : ℕ} (h : us < 1000000) : parseFraction (fixed 6 us) = some us := by
  have hne : fixed 6 us ≠ [] := ne_nil_of_length_pos (by rw [length_fixed]; decide)
  have hread := digits_fixed 6 us []
  rw [append_nil, mod_eq_of_lt (show us < 10 ^ 6 from h)] at hread
  rw [parseFraction, if_pos ⟨hne, fixed_isDigit 6 us⟩, length_fixed]
  simp [hread]

theorem digits_two_nil {n : ℕ} (hn : n < 100) : digits 2 (two n) = some (n, []) := by
  have := digits_two hn []
  rwa [append_nil] at this

/-- a clock within the bounds of its digits -/
structure Clock.Fits (c : Clock) : Prop where
  h : c.h < 24
  m : c.m < 60
  s : c.s < 60
  us : c.us < 1000000

theorem parseClock_text (hc : c.Fits) : parseClock c.text = some c := by
  obtain ⟨h, m, s, us⟩ := c
  have hh : h < 100 := lt_trans hc.h (by decide)
  have hm : m < 100 := lt_trans hc.m (by decide)
  have hs : s < 100 := lt_trans hc.s (by decide)
  rw [text]
  by_cases hus : us = 0
  · subst hus
    exact parseClock_clockText hh hm hs
  · have hfraction := parseFraction_fixed hc.us
    rw [fractionText, if_neg hus]
    simp [parseClock, clockText, digits_two hh, digits_two hm, digits_two hs, mark, punct, hfraction]

theorem parseClock_shortText (hc : c.Fits) : parseClock c.shortText = some c := by
  rw [shortText]
  split_ifs with hzero
  · obtain ⟨h, m, s, us⟩ := c
    have hh : h < 100 := lt_trans hc.h (by decide)
    have hm : m < 100 := lt_trans hc.m (by decide)
    obtain ⟨rfl, rfl⟩ := hzero
    simp [parseClock, digits_two hh, digits_two_nil hm, mark, punct]
  · exact parseClock_text hc

theorem text_not_zone (hc : c.Fits) : ∀ d ∈ c.text, isZone d = false := by
  intro d hd
  rw [text, mem_append] at hd
  rcases hd with hd | hd
  · exact clockText_not_zone (lt_trans hc.h (by decide)) (lt_trans hc.m (by decide)) (lt_trans hc.s (by decide)) d hd
  · rw [fractionText] at hd
    split_ifs at hd with hus
    · simp at hd
    · rw [mem_append] at hd
      rcases hd with hd | hd
      · obtain rfl := mem_singleton.1 hd
        decide
      · have hdigit := all_eq_true.1 (fixed_isDigit 6 c.us) d hd
        simp only [isZone, Bool.or_eq_false_iff, decide_eq_false_iff_not]
        refine ⟨⟨?_, ?_⟩, ?_⟩
        · rintro rfl
          exact absurd hdigit (by decide)
        · rintro rfl
          exact absurd hdigit (by decide)
        · rintro rfl
          exact absurd hdigit (by decide)

theorem Clock.ofMicros_fits {us : ℕ} (h : us < dayMicros) : (ofMicros us).Fits := by
  simp only [dayMicros] at h
  constructor
  · simp only [ofMicros]
    omega
  · exact mod_lt _ (by decide)
  · exact mod_lt _ (by decide)
  · exact mod_lt _ (by decide)

theorem Clock.micros_ofMicros (us : ℕ) : (ofMicros us).micros = us := by
  simp only [micros, ofMicros]
  omega

theorem parseOffset_signed {d : PyChar} (hd : d ≠ ofChar 'Z') (s : PyStr) :
    parseOffset (d :: s) = (parseClock s).bind fun o =>
      if o.micros < dayMicros then some (if d = ofChar '-' then -(o.micros : ℤ) else o.micros) else none := by
  simp [parseOffset, if_neg hd]

theorem parseOffset_offsetText {o : ℤ} (h : o.natAbs < dayMicros) : parseOffset (offsetText o) = some o := by
  have hclock := parseClock_shortText (ofMicros_fits h)
  have hmicros := micros_ofMicros o.natAbs
  by_cases hneg : o < 0
  · have hminus : ofChar '-' ≠ ofChar 'Z' := by decide
    rw [offsetText, if_pos hneg, punct, singleton_append, parseOffset_signed hminus, hclock, Option.bind_some, hmicros,
      if_pos h, if_pos rfl]
    congr 1
    omega
  · have hplus : ofChar '+' ≠ ofChar 'Z' := by decide
    have hsign : ofChar '+' ≠ ofChar '-' := by decide
    rw [offsetText, if_neg hneg, punct, singleton_append, parseOffset_signed hplus, hclock, Option.bind_some, hmicros,
      if_pos h, if_neg hsign]
    congr 1
    omega

theorem offsetText_eq (o : ℤ) : ∃ z s, isZone z = true ∧ offsetText o = z :: s := by
  rw [offsetText]
  split_ifs
  · exact ⟨ofChar '-', _, by decide, rfl⟩
  · exact ⟨ofChar '+', _, by decide, rfl⟩

theorem Clock.Fits.inRange (hc : c.Fits) : ¬ (24 ≤ c.h ∨ 60 ≤ c.m ∨ 60 ≤ c.s) := by
  have := hc.h
  have := hc.m
  have := hc.s
  omega

theorem parseTime_text (hc : c.Fits) (ho : ∀ o, offset = some o → o.natAbs < dayMicros) :
    parseTime (c.text ++ zoneText offset) = some (c, offset) := by
  have hclock := parseClock_text hc
  have hzone := text_not_zone hc
  cases offset with
  | none =>
    have hkeep : ∀ d ∈ c.text, (!isZone d) = true := by
      intro d hd
      rw [hzone d hd]
      rfl
    have hnone : (c.text).takeWhile (fun c => !isZone c) = c.text := by
      rw [takeWhile_eq_self_iff]
      exact hkeep
    have hrest : (c.text).dropWhile (fun c => !isZone c) = [] := by
      rw [dropWhile_eq_nil_iff]
      exact hkeep
    rw [zoneText, Option.map_none, Option.getD_none, append_nil, parseTime, hnone, hrest, hclock]
    simp [hc.inRange]
  | some o =>
    obtain ⟨z, s, hz, htext⟩ := offsetText_eq o
    have hoffset := parseOffset_offsetText (ho o rfl)
    rw [htext] at hoffset
    rw [zoneText, Option.map_some, Option.getD_some, htext]
    exact parseTime_zoned hclock hc.inRange hzone hz hoffset

/-- the time of an instant of UTC as `Z` writes it -/
theorem parseTime_z (hc : c.Fits) : parseTime (c.text ++ punct 'Z') = some (c, some 0) := by
  have hoffset : parseOffset (punct 'Z') = some 0 := by decide
  exact parseTime_zoned (parseClock_text hc) hc.inRange (text_not_zone hc) (by decide) hoffset

/-- **A date and a time that can be read are read together.** Whatever stands between them. -/
theorem fromisoformat_stampText {wall : ℤ} (h : inRange wall = true) (sep : PyChar) {zone : PyStr}
    (hzone : ∀ c : Clock, c.Fits → parseTime (c.text ++ zone) = some (c, offset)) :
    fromisoformat (stampText sep zone wall) = some ⟨wall, offset⟩ := by
  simp only [inRange, Bool.and_eq_true, decide_eq_true_eq] at h
  simp only [epochOrdinal, maxOrdinal, dayMicros] at h
  obtain ⟨hvalid, hord⟩ := ymd2ord_ord2ymd (n := (wall / dayMicros + epochOrdinal).toNat)
    (by simp only [epochOrdinal, dayMicros]; omega) (by simp only [epochOrdinal, maxOrdinal, dayMicros]; omega)
  have hday : (wall % dayMicros).toNat < dayMicros := by
    simp only [dayMicros]
    omega
  rw [stampText]
  generalize hdate : ord2ymd (wall / dayMicros + epochOrdinal).toNat = date at hvalid hord
  obtain ⟨y, m, d⟩ := date
  have hread := fromisoformat_dateText hvalid sep (hzone _ (ofMicros_fits hday))
  have hwall : wallOf (ymd2ord y m d) (ofMicros (wall % dayMicros).toNat) = wall := by
    rw [wallOf, hord, micros_ofMicros]
    simp only [epochOrdinal, dayMicros]
    omega
  rwa [hwall] at hread

/-- **What `isoformat` writes is read back.** -/
theorem fromisoformat_isoformat {t : Stamp} (ht : t.Valid) : fromisoformat (isoformat t) = some t := by
  exact fromisoformat_stampText ht.wall _ (fun c hc => parseTime_text hc ht.offset)

/-! ## Texts without surrogates -/

theorem surrogates_two : surrogates (two n) = false := by simp [two]

theorem surrogates_fixed : surrogates (fixed w n) = false := by
  induction w with
  | zero => rfl
  | succ w ih => simp [fixed_succ, ih]

theorem surrogates_clock (c : Clock) : surrogates c.text = false ∧ surrogates c.shortText = false := by
  have htext : surrogates c.text = false := by
    by_cases hus : c.us = 0
    · simp [text, clockText, fractionText, hus, surrogates_two]
    · simp [text, clockText, fractionText, hus, surrogates_two, surrogates_fixed, punct]
  refine ⟨htext, ?_⟩
  rw [shortText]
  split_ifs
  · simp [surrogates_two, punct]
  · exact htext

theorem surrogates_stampText (sep : Char) (wall : ℤ) {zone : PyStr} (h : surrogates zone = false) :
    surrogates (stampText sep zone wall) = false := by
  simp [stampText, dateText, surrogates_two, (surrogates_clock _).1, h]

theorem isoformat_scalar (t : Stamp) : surrogates (isoformat t) = false := by
  apply surrogates_stampText
  cases t.offset with
  | none => rfl
  | some o =>
    by_cases hneg : o < 0 <;> simp [zoneText, offsetText, hneg, punct, (surrogates_clock _).2]

end Teardrop.DateTime
