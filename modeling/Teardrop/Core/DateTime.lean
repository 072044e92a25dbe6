/-
Python's `datetime`, as far as challenges use it: the proleptic Gregorian calendar of `datetime.py` (ordinals and
civil dates), `datetime.fromisoformat` with its ISO 8601 forms, `astimezone(timezone.utc)`, and the text
`strftime("%Y-%m-%dT%H:%M:%SZ")`. An instant is a number of microseconds since 1970-01-01T00:00:00Z.

A text without an offset is local time: the host's zone is a parameter. A text with an offset may name an instant
outside the years 1..9999; moving it to UTC then raises `OverflowError`.
-/
import Teardrop.Core.Py
import Teardrop.Core.PyJson

namespace Teardrop.DateTime

open Py List PyChar Nat

/-! ## The calendar -/

def isLeap (y : ℕ) : Bool := y % 4 = 0 && (y % 100 ≠ 0 || y % 400 = 0)

def daysBeforeYear (y : ℕ) : ℕ := (y - 1) * 365 + (y - 1) / 4 - (y - 1) / 100 + (y - 1) / 400

/-- days in a month of a common year, from January; position 0 is not used -/
def monthDays : List ℕ := [0, 31, 28, 31, 30, 31, 30, 31, 31, 30, 31, 30, 31]

/-- days before a month of a common year; position 0 is not used -/
def monthStarts : List ℕ := [0, 0, 31, 59, 90, 120, 151, 181, 212, 243, 273, 304, 334]

def daysInMonth (leap : Bool) (m : ℕ) : ℕ := if m = 2 ∧ leap then 29 else monthDays.getD m 0

def daysBeforeMonth (leap : Bool) (m : ℕ) : ℕ := monthStarts.getD m 0 + if 2 < m ∧ leap then 1 else 0

/-- the day 0001-01-01 has ordinal 1 -/
def ymd2ord (y m d : ℕ) : ℕ := daysBeforeYear y + daysBeforeMonth (isLeap y) m + d

/-- month and day of the `n`-th day (from 0) of a year: a guess from `(n + 50) >> 5`, one month back if it is late -/
def monthDay (leap : Bool) (n : ℕ) : ℕ × ℕ :=
  let m := (n + 50) / 32
  if n < daysBeforeMonth leap m then (m - 1, n - (daysBeforeMonth leap m - daysInMonth leap (m - 1)) + 1)
  else (m, n - daysBeforeMonth leap m + 1)

/-- year, month and day of an ordinal, by cycles of 400, 100, 4 and 1 years -/
def ord2ymd (ord : ℕ) : ℕ × ℕ × ℕ :=
  let n := ord - 1
  let n400 := n / 146097
  let r400 := n % 146097
  let n100 := r400 / 36524
  let r100 := r400 % 36524
  let n4 := r100 / 1461
  let r4 := r100 % 1461
  let n1 := r4 / 365
  let r1 := r4 % 365
  let y := n400 * 400 + 1 + n100 * 100 + n4 * 4 + n1
  if n1 = 4 ∨ n100 = 4 then (y - 1, 12, 31)
  else (y, monthDay (n1 = 3 && (n4 ≠ 24 || n100 = 3)) r1)

/-- the ordinal of 9999-12-31 -/
def maxOrdinal : ℕ := 3652059

def validDate (y m d : ℕ) : Bool :=
  1 ≤ y && y ≤ 9999 && 1 ≤ m && m ≤ 12 && 1 ≤ d && d ≤ daysInMonth (isLeap y) m

theorem monthDay_spec : ∀ leap : Bool, ∀ n < if leap then 366 else 365,
    (1 ≤ (monthDay leap n).1 ∧ (monthDay leap n).1 ≤ 12) ∧
      (1 ≤ (monthDay leap n).2 ∧ (monthDay leap n).2 ≤ daysInMonth leap (monthDay leap n).1) ∧
      daysBeforeMonth leap (monthDay leap n).1 + (monthDay leap n).2 = n + 1 := by
  decide +kernel

variable {d n y m : ℕ}

variable {a b h s : ℕ}

/-- the length of the year that starts after `n400`, `n100`, `n4` and `n1` whole cycles -/
theorem isLeap_cycles {c : ℕ} (hb : b < 4) (hc : c < 25) (hd : d < 4) :
    isLeap (a * 400 + 1 + b * 100 + c * 4 + d) = (d = 3 && (c ≠ 24 || b = 3)) := by
  rw [Bool.eq_iff_iff]
  simp only [isLeap, Bool.and_eq_true, Bool.or_eq_true, decide_eq_true_eq]
  omega

theorem daysBeforeYear_cycles {c : ℕ} (hb : b < 4) (hc : c < 25) (hd : d < 4) :
    daysBeforeYear (a * 400 + 1 + b * 100 + c * 4 + d) = a * 146097 + b * 36524 + c * 1461 + d * 365 := by
  have hy : a * 400 + 1 + b * 100 + c * 4 + d - 1 = a * 400 + b * 100 + c * 4 + d := by omega
  have h4 : (a * 400 + b * 100 + c * 4 + d) / 4 = a * 100 + b * 25 + c := by omega
  have h100 : (a * 400 + b * 100 + c * 4 + d) / 100 = a * 4 + b := by omega
  have h400 : (a * 400 + b * 100 + c * 4 + d) / 400 = a := by omega
  rw [daysBeforeYear, hy, h4, h100, h400]
  omega

theorem lastDay_spec {c : ℕ} (hb : b < 4) (hc : c < 25) (hleap : c ≠ 24 ∨ b = 3) (hmax : n ≤ maxOrdinal)
    (hn : n = a * 146097 + b * 36524 + c * 1461 + 1461) :
    validDate (a * 400 + 1 + b * 100 + c * 4 + 3) 12 31 ∧ ymd2ord (a * 400 + 1 + b * 100 + c * 4 + 3) 12 31 = n := by
  have hdays := daysBeforeYear_cycles (a := a) hb hc (show 3 < 4 by decide)
  have hyear : isLeap (a * 400 + 1 + b * 100 + c * 4 + 3) := by
    rw [isLeap_cycles hb hc (by decide)]
    simpa using hleap
  simp only [maxOrdinal] at hmax
  constructor
  · simp only [validDate, daysInMonth, monthDays, Bool.and_eq_true, decide_eq_true_eq]
    simp
    omega
  · simp only [ymd2ord, hyear, hdays]
    simp only [daysBeforeMonth, monthStarts]
    simp
    omega

/-- **The civil date of an ordinal is a date of the calendar, and has that ordinal.** -/
theorem ymd2ord_ord2ymd (hn : 1 ≤ n) (hmax : n ≤ maxOrdinal) :
    validDate (ord2ymd n).1 (ord2ymd n).2.1 (ord2ymd n).2.2 ∧ ymd2ord (ord2ymd n).1 (ord2ymd n).2.1 (ord2ymd n).2.2 = n := by
  obtain ⟨k, rfl⟩ : ∃ k, n = k + 1 := ⟨n - 1, by omega⟩
  unfold ord2ymd
  simp only [Nat.add_sub_cancel]
  generalize ha : k / 146097 = a
  generalize hb : k % 146097 / 36524 = b
  generalize hc : k % 146097 % 36524 / 1461 = c
  generalize hd : k % 146097 % 36524 % 1461 / 365 = d
  generalize hr : k % 146097 % 36524 % 1461 % 365 = r
  split_ifs with hlast
  · -- the day is the 366th of its year, the last of four or of four hundred years
    rcases hlast with hd4 | hb4
    · have hy : a * 400 + 1 + b * 100 + c * 4 + d - 1 = a * 400 + 1 + b * 100 + c * 4 + 3 := by omega
      simp only [hy]
      exact lastDay_spec (by omega) (by omega) (by omega) hmax (by omega)
    · have hy : a * 400 + 1 + b * 100 + c * 4 + d - 1 = a * 400 + 1 + 3 * 100 + 24 * 4 + 3 := by omega
      simp only [hy]
      exact lastDay_spec (a := a) (b := 3) (c := 24) (by omega) (by omega) (by omega) hmax (by omega)
  · have hb' : b < 4 := by omega
    have hc' : c < 25 := by omega
    have hd' : d < 4 := by omega
    have hyear := isLeap_cycles (a := a) hb' hc' hd'
    have hdays := daysBeforeYear_cycles (a := a) hb' hc' hd'
    generalize (decide (d = 3) && (decide (c ≠ 24) || decide (b = 3))) = leap at hyear ⊢
    have hlen : r < if leap then 366 else 365 := by
      split_ifs <;> omega
    obtain ⟨⟨hm1, hm2⟩, ⟨hd1, hd2⟩, hsum⟩ := monthDay_spec leap r hlen
    simp only [maxOrdinal] at hmax
    constructor
    · simp only [validDate, hyear, Bool.and_eq_true, decide_eq_true_eq]
      omega
    · simp only [ymd2ord, hyear, hdays]
      omega

/-! ## Reading ISO 8601 -/

def digitVal (c : PyChar) : Option ℕ := if c.isDigit then some (c.val - '0'.toNat) else none

/-- exactly `n` decimal digits, and what follows them -/
def digits : ℕ → PyStr → Option (ℕ × PyStr)
  | 0, s => some (0, s)
  | _ + 1, [] => none
  | n + 1, c :: s => do
    let d ← digitVal c
    let (v, rest) ← digits n s
    return (d * 10 ^ n + v, rest)

/-- the mark, where the text is written with marks -/
def mark (marked : Bool) (c : PyChar) (s : PyStr) : Option PyStr :=
  if marked then (if s.head? = some c then some s.tail else none) else some s

def charAt (s : PyStr) (i : ℕ) : Option PyChar := s[i]?

/-- where the date ends: `_find_isoformat_datetime_separator` -/
def separator (s : PyStr) : Option ℕ :=
  if s.length = 7 then some 7
  else if charAt s 4 = some '-' then
    if charAt s 5 = some 'W' then
      if 8 < s.length ∧ charAt s 8 = some '-' then
        if s.length = 9 then none
        else if ((charAt s 10).map PyChar.isDigit).getD false then some 8
        else some 10
      else some 8
    else some 10
  else if charAt s 4 = some 'W' then
    let i := 7 + ((s.drop 7).takeWhile PyChar.isDigit).length
    if i < 9 then some i else if i % 2 = 0 then some 7 else some 8
  else some 8

/-- the Monday that starts the first ISO week of a year -/
def isoWeek1Monday (y : ℕ) : ℕ :=
  let first := ymd2ord y 1 1
  let weekday := (first + 6) % 7
  if 3 < weekday then first - weekday + 7 else first - weekday

/-- the ordinal of a day of an ISO week; only a year that starts on a Thursday, or a leap year that starts on a
Wednesday, has a week 53 -/
def isoWeek (y w d : ℕ) : Option ℕ :=
  let weekday := (ymd2ord y 1 1 + 6) % 7
  let long := weekday = 3 ∨ weekday = 2 ∧ isLeap y
  if 1 ≤ y ∧ (1 ≤ w ∧ w ≤ 52 ∨ w = 53 ∧ long) ∧ 1 ≤ d ∧ d ≤ 7 then
    let ord := isoWeek1Monday y + (w - 1) * 7 + (d - 1)
    if ord ≤ maxOrdinal then some ord else none
  else none

/-- `_parse_isoformat_date`: the ordinal the date text names -/
def parseDate (s : PyStr) : Option ℕ := do
  let (y, s) ← digits 4 s
  let dashed := decide (s.head? = some '-')
  let s := if dashed then s.tail else s
  if s.head? = some 'W' then
    let (w, s) ← digits 2 s.tail
    if s = [] then isoWeek y w 1
    else
      let s ← mark dashed '-' s
      let (d, s) ← digits 1 s
      if s = [] then isoWeek y w d else none
  else
    let (m, s) ← digits 2 s
    let s ← mark dashed '-' s
    let (d, s) ← digits 2 s
    if s = [] ∧ validDate y m d then some (ymd2ord y m d) else none

/-- hours, minutes, seconds and microseconds of a time or of an offset -/
structure Clock where
  h : ℕ
  m : ℕ
  s : ℕ
  us : ℕ

def Clock.micros (c : Clock) : ℕ := (c.h * 3600 + c.m * 60 + c.s) * 1000000 + c.us

/-- the fraction after the seconds: its first six digits count, the others must be digits too -/
def parseFraction (s : PyStr) : Option ℕ :=
  if s ≠ [] ∧ s.all PyChar.isDigit then
    (digits (min 6 s.length) s).map fun r => r.1 * 10 ^ (6 - min 6 s.length)
  else none

/-- `_parse_hh_mm_ss_ff`: HH, HH:MM, HH:MM:SS or HH:MM:SS with a fraction, all with colons or none -/
def parseClock (s : PyStr) : Option Clock := do
  let (h, s) ← digits 2 s
  if s = [] then return ⟨h, 0, 0, 0⟩
  let colons := decide (s.head? = some ':')
  let s ← mark colons ':' s
  let (m, s) ← digits 2 s
  if s = [] then return ⟨h, m, 0, 0⟩
  let s ← mark colons ':' s
  let (sec, s) ← digits 2 s
  if s = [] then return ⟨h, m, sec, 0⟩
  if s.head? = some '.' ∨ s.head? = some ',' then
    let us ← parseFraction s.tail
    return ⟨h, m, sec, us⟩
  else none

def dayMicros : ℕ := 86400000000

/-- the offset of a time from UTC, after its clock: `Z`, or a sign and a clock of less than a day -/
def parseOffset : PyStr → Option ℤ
  | [] => none
  | c :: s =>
    if c = 'Z' then (if s = [] then some 0 else none)
    else do
      let o ← parseClock s
      if o.micros < dayMicros then some (if c = '-' then -(o.micros : ℤ) else o.micros) else none

/-- what starts an offset -/
def isZone (c : PyChar) : Bool := c = '+' || c = '-' || c = 'Z'

/-- a time, and its offset where it has one -/
def parseTime (s : PyStr) : Option (Clock × Option ℤ) := do
  let c ← parseClock (s.takeWhile fun c => !isZone c)
  if 24 ≤ c.h ∨ 60 ≤ c.m ∨ 60 ≤ c.s then none
  else
    let rest := s.dropWhile fun c => !isZone c
    if rest = [] then some (c, none) else (parseOffset rest).map fun o => (c, some o)

/-- a date and time, in microseconds since 1970 by its own clock, and how far that clock is ahead of UTC -/
structure Stamp where
  wall : ℤ
  offset : Option ℤ
deriving DecidableEq

/-- the ordinal of 1970-01-01 -/
def epochOrdinal : ℕ := 719163

def wallOf (ord : ℕ) (c : Clock) : ℤ := ((ord : ℤ) - epochOrdinal) * dayMicros + c.micros

/-- `datetime.fromisoformat`; `none` is its `ValueError` -/
def fromisoformat (s : PyStr) : Option Stamp := do
  if s.length < 7 then none
  let sep ← separator s
  let ord ← parseDate (s.take sep)
  if s.length ≤ sep then return ⟨wallOf ord ⟨0, 0, 0, 0⟩, none⟩
  let (c, offset) ← parseTime (s.drop (sep + 1))
  return ⟨wallOf ord c, offset⟩

/-- the instants of the years 1..9999 -/
def inRange (t : ℤ) : Bool :=
  (1 - (epochOrdinal : ℤ)) * dayMicros ≤ t && t < ((maxOrdinal : ℤ) + 1 - epochOrdinal) * dayMicros

/-- `astimezone(timezone.utc)`: `host` is what the host's zone makes of a local time -/
def toUtc (host : ℤ → Call ℤ) (t : Stamp) : Call ℤ :=
  match t.offset with
  | none => host t.wall
  | some o => if inRange (t.wall - o) then .ok (t.wall - o) else .error .overflowError

/-! ## Writing -/

/-- two digits -/
def two (n : ℕ) : PyStr := [PyChar.ofChar (Nat.digitChar (n / 10)), PyChar.ofChar (Nat.digitChar (n % 10))]

/-- `strftime("%Y-%m-%dT%H:%M:%SZ")` of an instant from 1970 on -/
def isoText (micros : ℕ) : PyStr :=
  let secs := micros / 1000000
  let date := ord2ymd (epochOrdinal + secs / 86400)
  let rest := secs % 86400
  ([PyJson.renderNat date.1, ['-'], two date.2.1, ['-'], two date.2.2, ['T'], two (rest / 3600), [':'],
    two (rest % 3600 / 60), [':'], two (rest % 60), ['Z']] : List PyStr).flatten

theorem digit_spec : ∀ k < 10, digitVal (ofChar (digitChar k)) = some k ∧ (ofChar (digitChar k)).isDigit := by
  decide

theorem digits_two (hn : n < 100) (rest : PyStr) : digits 2 (two n ++ rest) = some (n, rest) := by
  have htens := (digit_spec (n / 10) (by omega)).1
  have hunits := (digit_spec (n % 10) (by omega)).1
  simp only [two, cons_append, nil_append, digits, htens, hunits, Option.bind_eq_bind, Option.bind_some, Option.pure_def]
  congr 2
  omega

theorem digits_four (ha : a < 100) (hb : b < 100) (rest : PyStr) :
    digits 4 (two a ++ (two b ++ rest)) = some (a * 100 + b, rest) := by
  have h1 := (digit_spec (a / 10) (by omega)).1
  have h2 := (digit_spec (a % 10) (by omega)).1
  have h3 := (digit_spec (b / 10) (by omega)).1
  have h4 := (digit_spec (b % 10) (by omega)).1
  simp only [two, cons_append, nil_append, digits, h1, h2, h3, h4, Option.bind_eq_bind, Option.bind_some, Option.pure_def]
  congr 2
  omega

theorem renderNat_year (h1 : 1000 ≤ y) (h2 : y < 10000) : PyJson.renderNat y = two (y / 100) ++ two (y % 100) := by
  have hunits : toDigits 10 y = toDigits 10 (y / 10) ++ [digitChar (y % 10)] :=
    toDigits_of_base_le (by decide) (by omega)
  have htens : toDigits 10 (y / 10) = toDigits 10 (y / 10 / 10) ++ [digitChar (y / 10 % 10)] :=
    toDigits_of_base_le (by decide) (by omega)
  have hhundreds : toDigits 10 (y / 10 / 10) = toDigits 10 (y / 10 / 10 / 10) ++ [digitChar (y / 10 / 10 % 10)] :=
    toDigits_of_base_le (by decide) (by omega)
  have hthousands : toDigits 10 (y / 10 / 10 / 10) = [digitChar (y / 10 / 10 / 10)] :=
    toDigits_of_lt_base (by omega)
  have e1 : y / 100 / 10 = y / 10 / 10 / 10 := by omega
  have e2 : y / 100 % 10 = y / 10 / 10 % 10 := by omega
  have e3 : y % 100 / 10 = y / 10 % 10 := by omega
  have e4 : y % 100 % 10 = y % 10 := by omega
  simp only [PyJson.renderNat, hunits, htens, hhundreds, hthousands, two, e1, e2, e3, e4]
  rfl

/-! ### The server's own texts -/

def clockText (h m s : ℕ) : PyStr := two h ++ ([PyChar.ofChar ':'] ++ (two m ++ ([PyChar.ofChar ':'] ++ two s)))

theorem parseClock_clockText (hh : h < 100) (hm : m < 100) (hs : s < 100) :
    parseClock (clockText h m s) = some ⟨h, m, s, 0⟩ := by
  have hsec : digits 2 (two s) = some (s, []) := by
    have := digits_two hs []
    rwa [append_nil] at this
  simp [parseClock, clockText, digits_two hh, digits_two hm, hsec, mark]

theorem two_not_zone (hn : n < 100) : ∀ c ∈ two n, isZone c = false := by
  have hdigit : ∀ k < 10, isZone (ofChar (digitChar k)) = false := by decide
  intro c hc
  simp only [two, mem_cons, not_mem_nil, or_false] at hc
  rcases hc with rfl | rfl <;> exact hdigit _ (by omega)

theorem clockText_not_zone (hh : h < 100) (hm : m < 100) (hs : s < 100) : ∀ c ∈ clockText h m s, isZone c = false := by
  intro c hc
  simp only [clockText, mem_append, mem_singleton] at hc
  rcases hc with hc | rfl | hc | rfl | hc
  · exact two_not_zone hh c hc
  · decide
  · exact two_not_zone hm c hc
  · decide
  · exact two_not_zone hs c hc

/-- the offset that `replace("Z", "+00:00")` puts in the place of `Z` -/
def zulu : PyStr := ['+', '0', '0', ':', '0', '0']

theorem takeWhile_zone {s : PyStr} (h : ∀ c ∈ s, isZone c = false) {z : PyChar} (hz : isZone z) (rest : PyStr) :
    (s ++ z :: rest).takeWhile (fun c => !isZone c) = s ∧ (s ++ z :: rest).dropWhile (fun c => !isZone c) = z :: rest := by
  have hs : ∀ c ∈ s, (!isZone c) := by
    intro c hc
    rw [h c hc]
    rfl
  constructor
  · rw [takeWhile_append_of_pos hs, takeWhile_cons_of_neg (by simp [hz]), append_nil]
  · rw [dropWhile_append_of_pos hs, dropWhile_cons_of_neg (by simp [hz])]

theorem parseTime_zoned {text s : PyStr} {z : PyChar} {c : Clock} {o : ℤ} (hclock : parseClock text = some c)
    (hrange : ¬ (24 ≤ c.h ∨ 60 ≤ c.m ∨ 60 ≤ c.s)) (htext : ∀ d ∈ text, isZone d = false) (hz : isZone z)
    (hoffset : parseOffset (z :: s) = some o) : parseTime (text ++ z :: s) = some (c, some o) := by
  obtain ⟨htake, hdrop⟩ := takeWhile_zone htext hz s
  rw [parseTime, htake, hdrop, hclock]
  simp [hrange, hoffset]

theorem parseTime_zulu (hh : h < 24) (hm : m < 60) (hs : s < 60) :
    parseTime (clockText h m s ++ zulu) = some (⟨h, m, s, 0⟩, some 0) := by
  have hclock := parseClock_clockText (show h < 100 by omega) (show m < 100 by omega) (show s < 100 by omega)
  have hzone := clockText_not_zone (show h < 100 by omega) (show m < 100 by omega) (show s < 100 by omega)
  have hoffset : parseOffset (ofChar '+' :: zulu.tail) = some 0 := by decide
  have hrange : ¬ (24 ≤ h ∨ 60 ≤ m ∨ 60 ≤ s) := by omega
  exact parseTime_zoned hclock hrange hzone (by decide) hoffset

def dateText (y m d : ℕ) : PyStr :=
  two (y / 100) ++ (two (y % 100) ++ ([PyChar.ofChar '-'] ++ (two m ++ ([PyChar.ofChar '-'] ++ two d))))

theorem validDate_bounds (h : validDate y m d) : y < 10000 ∧ m < 100 ∧ d < 100 := by
  simp only [validDate, Bool.and_eq_true, decide_eq_true_eq] at h
  obtain ⟨⟨⟨⟨⟨-, hy⟩, -⟩, hm⟩, -⟩, hd⟩ := h
  have hdays : ∀ leap : Bool, ∀ k ≤ 12, daysInMonth leap k ≤ 31 := by decide
  have := hdays (isLeap y) m hm
  omega

theorem parseDate_dateText (hvalid : validDate y m d) : parseDate (dateText y m d) = some (ymd2ord y m d) := by
  obtain ⟨hy, hm, hd⟩ := validDate_bounds hvalid
  have hyear : ∀ rest, digits 4 (two (y / 100) ++ (two (y % 100) ++ rest)) = some (y, rest) := by
    intro rest
    rw [digits_four (by omega) (by omega)]
    congr 2
    omega
  have hday : digits 2 (two d) = some (d, []) := by
    have := digits_two hd []
    rwa [append_nil] at this
  have hweek : (two m).head?.getD (ofChar '-') ≠ ofChar 'W' := by
    have hdigit : ∀ k < 10, ofChar (digitChar k) ≠ ofChar 'W' := by decide
    exact hdigit (m / 10) (by omega)
  simp [parseDate, dateText, hyear, hweek, digits_two hm, hday, mark, hvalid]

theorem separator_dateText (hm : m < 100) (rest : PyStr) : separator (dateText y m d ++ rest) = some 10 := by
  have hdigit : ∀ k < 10, ofChar (digitChar k) ≠ ofChar 'W' := by decide
  have hweek := hdigit (m / 10) (by omega)
  simp [separator, dateText, charAt, two, hweek]

theorem fromisoformat_dateText (hvalid : validDate y m d) (sep : PyChar) {time : PyStr} {c : Clock}
    {offset : Option ℤ} (htime : parseTime time = some (c, offset)) :
    fromisoformat (dateText y m d ++ sep :: time) = some ⟨wallOf (ymd2ord y m d) c, offset⟩ := by
  have hm := (validDate_bounds hvalid).2.1
  have hlen : (dateText y m d).length = 10 := rfl
  have htake : (dateText y m d ++ sep :: time).take 10 = dateText y m d := by
    rw [take_append_of_le_length (by omega), take_of_length_le (by omega)]
  have hdrop : (dateText y m d ++ sep :: time).drop 11 = time := by
    rfl
  have hlong : ¬ (dateText y m d ++ sep :: time).length < 7 := by
    rw [length_append, hlen]
    omega
  have hmore : ¬ (dateText y m d ++ sep :: time).length ≤ 10 := by
    rw [length_append, hlen, length_cons]
    omega
  unfold fromisoformat
  rw [separator_dateText hm]
  simp only [if_neg hlong, Option.bind_eq_bind, Option.bind_some, htake, parseDate_dateText hvalid, if_neg hmore, hdrop, htime,
    Option.pure_def]

theorem fromisoformat_text {mi : ℕ} (hvalid : validDate y m d) (hh : h < 24) (hmi : mi < 60) (hs : s < 60) :
    fromisoformat (dateText y m d ++ ofChar 'T' :: (clockText h mi s ++ zulu)) =
      some ⟨wallOf (ymd2ord y m d) ⟨h, mi, s, 0⟩, some 0⟩ :=
  fromisoformat_dateText hvalid _ (parseTime_zulu hh hmi hs)

/-- the first instant after the year 9999 -/
def endOfTime : ℕ := (maxOrdinal + 1 - epochOrdinal) * dayMicros

theorem isoText_eq {micros : ℕ} (hdate : ord2ymd (epochOrdinal + micros / 1000000 / 86400) = (y, m, d)) (h1 : 1000 ≤ y)
    (h2 : y < 10000) :
    isoText micros = dateText y m d ++ ofChar 'T' :: (clockText (micros / 1000000 % 86400 / 3600)
      (micros / 1000000 % 86400 % 3600 / 60) (micros / 1000000 % 86400 % 60) ++ [ofChar 'Z']) := by
  simp only [isoText, hdate, renderNat_year h1 h2, dateText, clockText]
  simp

theorem year_of_ordinal (h : epochOrdinal ≤ n) : 1000 ≤ (ord2ymd n).1 := by
  simp only [epochOrdinal] at h
  simp only [ord2ymd]
  split_ifs
  · omega
  · omega

/-- `value.replace("Z", "+00:00")` -/
def replaceZ (s : PyStr) : PyStr := s.flatMap (fun c : PyChar => if c = PyChar.ofChar 'Z' then zulu else [c])

theorem replaceZ_append (s t : PyStr) : replaceZ (s ++ t) = replaceZ s ++ replaceZ t := flatMap_append

theorem replaceZ_of_notMem {s : PyStr} (h : ofChar 'Z' ∉ s) : replaceZ s = s := by
  induction s with
  | nil => rfl
  | cons c s ih =>
    rw [mem_cons, not_or] at h
    have hs := ih h.2
    rw [replaceZ] at hs ⊢
    rw [flatMap_cons, if_neg (Ne.symm h.1), hs]
    rfl

theorem two_no_z (hn : n < 100) : ofChar 'Z' ∉ two n := by
  intro h
  exact absurd (two_not_zone hn _ h) (by decide)

theorem dateText_no_z (hy : y < 10000) (hm : m < 100) (hd : d < 100) : ofChar 'Z' ∉ dateText y m d := by
  simp only [dateText, mem_append, mem_singleton, not_or]
  exact ⟨two_no_z (by omega), two_no_z (by omega), by decide, two_no_z hm, by decide, two_no_z hd⟩

theorem clockText_no_z (hh : h < 100) (hm : m < 100) (hs : s < 100) : ofChar 'Z' ∉ clockText h m s := by
  simp only [clockText, mem_append, mem_singleton, not_or]
  exact ⟨two_no_z hh, by decide, two_no_z hm, by decide, two_no_z hs⟩

/-- **The server's own texts are read back.** At the second they name. -/
theorem toUtc_isoText (host : ℤ → Call ℤ) {micros : ℕ} (h : micros < endOfTime) :
    ∃ t, fromisoformat (replaceZ (isoText micros)) = some t ∧ toUtc host t = .ok ((micros / 1000000 * 1000000 : ℕ) : ℤ) := by
  simp only [endOfTime, maxOrdinal, epochOrdinal, dayMicros] at h
  obtain ⟨hvalid, hord⟩ := ymd2ord_ord2ymd (n := epochOrdinal + micros / 1000000 / 86400)
    (by simp only [epochOrdinal]; omega) (by simp only [epochOrdinal, maxOrdinal]; omega)
  have hyear := year_of_ordinal (n := epochOrdinal + micros / 1000000 / 86400) (by omega)
  generalize hdate : ord2ymd (epochOrdinal + micros / 1000000 / 86400) = date at hvalid hord hyear
  obtain ⟨y, m, d⟩ := date
  obtain ⟨hy, hm, hd⟩ := validDate_bounds hvalid
  have htext : replaceZ (isoText micros) = dateText y m d ++ ofChar 'T' :: (clockText (micros / 1000000 % 86400 / 3600)
      (micros / 1000000 % 86400 % 3600 / 60) (micros / 1000000 % 86400 % 60) ++ zulu) := by
    rw [isoText_eq hdate hyear hy, replaceZ_append, replaceZ_of_notMem (dateText_no_z hy hm hd),
      ← singleton_append, replaceZ_append, replaceZ_append,
      replaceZ_of_notMem (clockText_no_z (by omega) (by omega) (by omega))]
    rfl
  rw [htext]
  refine ⟨_, fromisoformat_text hvalid (by omega) (by omega) (by omega), ?_⟩
  have hwall : wallOf (ymd2ord y m d) ⟨micros / 1000000 % 86400 / 3600, micros / 1000000 % 86400 % 3600 / 60,
      micros / 1000000 % 86400 % 60, 0⟩ = ((micros / 1000000 * 1000000 : ℕ) : ℤ) := by
    simp only [wallOf, hord, Clock.micros, epochOrdinal, dayMicros]
    omega
  have hrange : inRange ((micros / 1000000 * 1000000 : ℕ) : ℤ) := by
    rw [inRange, Bool.and_eq_true, decide_eq_true_eq, decide_eq_true_eq]
    simp only [epochOrdinal, maxOrdinal, dayMicros]
    omega
  simp only [toUtc, hwall, sub_zero, hrange, if_true]

/-! ## Microseconds -/

/-- the last `w` digits of a number -/
def fixed : ℕ → ℕ → PyStr
  | 0, _ => []
  | w + 1, n => fixed w (n / 10) ++ [PyChar.ofChar (Nat.digitChar (n % 10))]

theorem length_fixed (w n : ℕ) : (fixed w n).length = w := by
  induction w generalizing n with
  | zero => rfl
  | succ w ih => rw [fixed, length_append, ih, length_singleton]

theorem fixed_inj {w : ℕ} (hn : n < 10 ^ w) (hm : m < 10 ^ w) (h : fixed w n = fixed w m) : n = m := by
  induction w generalizing n m with
  | zero => omega
  | succ w ih =>
    obtain ⟨hinit, hlast⟩ := append_inj h (by rw [length_fixed, length_fixed])
    have hrest := ih (by omega) (by omega) hinit
    have hdigit : n % 10 = m % 10 := by
      have hn' := (digit_spec (n % 10) (by omega)).1
      have hm' := (digit_spec (m % 10) (by omega)).1
      rw [cons.inj hlast |>.1, hm'] at hn'
      exact (Option.some.inj hn').symm
    omega

/-- a separator -/
def punct (c : Char) : PyStr := [PyChar.ofChar c]

/-- `isoformat(timespec="microseconds")` of an instant in UTC -/
def isoMicros (t : ℤ) : PyStr :=
  let date := ord2ymd (t / dayMicros + epochOrdinal).toNat
  let rest := (t % dayMicros).toNat
  let secs := rest / 1000000
  fixed 4 date.1 ++ (punct '-' ++ (fixed 2 date.2.1 ++ (punct '-' ++ (fixed 2 date.2.2 ++ (punct 'T' ++
    (fixed 2 (secs / 3600) ++ (punct ':' ++ (fixed 2 (secs % 3600 / 60) ++ (punct ':' ++ (fixed 2 (secs % 60) ++
      (punct '.' ++ (fixed 6 (rest % 1000000) ++ zulu))))))))))))

/-- two texts that begin with a field of `w` digits and a separator -/
theorem fixed_append_inj {w : ℕ} {sep r r' : PyStr} (hn : n < 10 ^ w) (hm : m < 10 ^ w)
    (h : fixed w n ++ (sep ++ r) = fixed w m ++ (sep ++ r')) : n = m ∧ r = r' := by
  obtain ⟨hfield, hrest⟩ := append_inj h (by rw [length_fixed, length_fixed])
  exact ⟨fixed_inj hn hm hfield, append_cancel_left hrest⟩

/-- **Instants have different texts.** Within the years 1 to 9999. -/
theorem isoMicros_inj {t u : ℤ} (ht : inRange t) (hu : inRange u) (h : isoMicros t = isoMicros u) : t = u := by
  have hordinal : ∀ x : ℤ, inRange x →
      1 ≤ (x / dayMicros + epochOrdinal).toNat ∧ (x / dayMicros + epochOrdinal).toNat ≤ maxOrdinal := by
    intro x hx
    simp only [inRange, Bool.and_eq_true, decide_eq_true_eq] at hx
    simp only [epochOrdinal, maxOrdinal, dayMicros] at hx ⊢
    omega
  obtain ⟨hvalid, hord⟩ := ymd2ord_ord2ymd (hordinal t ht).1 (hordinal t ht).2
  obtain ⟨hvalid', hord'⟩ := ymd2ord_ord2ymd (hordinal u hu).1 (hordinal u hu).2
  obtain ⟨hy, hm, hd⟩ := validDate_bounds hvalid
  obtain ⟨hy', hm', hd'⟩ := validDate_bounds hvalid'
  have hrest : ∀ x : ℤ, (x % dayMicros).toNat < 86400000000 := by
    simp only [dayMicros]
    omega
  have ht' := hrest t
  have hu' := hrest u
  obtain ⟨hyear, h⟩ := fixed_append_inj (by omega) (by omega) h
  obtain ⟨hmonth, h⟩ := fixed_append_inj (by omega) (by omega) h
  obtain ⟨hday, h⟩ := fixed_append_inj (by omega) (by omega) h
  obtain ⟨hhour, h⟩ := fixed_append_inj (by omega) (by omega) h
  obtain ⟨hminute, h⟩ := fixed_append_inj (by omega) (by omega) h
  obtain ⟨hsecond, h⟩ := fixed_append_inj (by omega) (by omega) h
  have hmicro : (t % dayMicros).toNat % 1000000 = (u % dayMicros).toNat % 1000000 :=
    fixed_inj (by omega) (by omega) (append_cancel_right h)
  have hdays : (t / dayMicros + epochOrdinal).toNat = (u / dayMicros + epochOrdinal).toNat := by
    rw [← hord, ← hord', hyear, hmonth, hday]
  have hlow := (hordinal t ht).1
  simp only [dayMicros, epochOrdinal] at *
  omega

end Teardrop.DateTime
