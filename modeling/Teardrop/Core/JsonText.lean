/-
Reading back what `json.dumps` wrote.

Written without ASCII escapes a value is read back as it is; escaped to ASCII, a high surrogate followed by a low one is
read as the one character they stand for (`reads`). A number ends where the text after it does not go on with it
(`Stops`).
-/
import Teardrop.Core.PyJson

namespace Teardrop.PyJson

open PyChar List

/-! ## Strings -/

theorem hexVal_hexDigit : ∀ n < 16, hexVal (hexDigit n) = some n := by decide

variable {c : PyChar} {r : PyStr} {ascii : Bool} {t : PyStr} {ds : List Char} (negative : Bool) {v : PyJson}
  {vs : List PyJson} {fs : List (PyStr × PyJson)}

theorem hex4_escape (h : c.val < 0x10000) (r : PyStr) :
    hex4 (hexDigit (c.val / 4096 % 16) :: hexDigit (c.val / 256 % 16) :: hexDigit (c.val / 16 % 16) ::
      hexDigit (c.val % 16) :: r) = some (c, r) := by
  have hval : ((c.val / 4096 % 16 * 16 + c.val / 256 % 16) * 16 + c.val / 16 % 16) * 16 + c.val % 16 = c.val := by omega
  simp only [hex4, hexVal_hexDigit _ (Nat.mod_lt _ (by decide : 0 < 16)), Option.bind_eq_bind, Option.bind_some, hval]
  rw [dif_pos c.isLt]

theorem scanChar_escape (h : c.val < 0x10000) (hhigh : isHigh c = false) (r : PyStr) :
    scanChar (unicodeEscape c.val ++ r) = some (c, r) := by
  simp only [unicodeEscape, cons_append, nil_append, scanChar, scanEscape, if_true, hex4_escape h,
    Option.bind_eq_bind, Option.bind_some, hhigh, Bool.false_eq_true, if_false]

theorem scanChar_high (h : c.val < 0x10000) (hhigh : isHigh c = true)
    (hnext : ∀ more : PyStr, r = ofChar '\\' :: ofChar 'u' :: more → ∃ d after, hex4 more = some (d, after) ∧ isLow d = false) :
    scanChar (unicodeEscape c.val ++ r) = some (c, r) := by
  simp only [unicodeEscape, cons_append, nil_append, scanChar, scanEscape, if_true, hex4_escape h,
    Option.bind_eq_bind, Option.bind_some, hhigh]
  match r with
  | [] => rfl
  | [_] => rfl
  | b :: u :: more =>
    by_cases hbu : b = '\\' ∧ u = 'u'
    · obtain ⟨d, after, hhex, hlow⟩ := hnext more (by rw [hbu.1, hbu.2])
      simp [hhex, hlow]
    · simp [hbu]

theorem scanChar_pair {d : PyChar} (hc : isHigh c = true) (hd : isLow d = true) (r : PyStr) :
    scanChar (unicodeEscape c.val ++ (unicodeEscape d.val ++ r)) = some (joined c d, r) := by
  have hcb : c.val < 0x10000 := by
    simp only [isHigh, Bool.and_eq_true, decide_eq_true_eq] at hc
    omega
  have hdb : d.val < 0x10000 := by
    simp only [isLow, Bool.and_eq_true, decide_eq_true_eq] at hd
    omega
  simp only [unicodeEscape, cons_append, nil_append, scanChar, scanEscape, if_true, hex4_escape hcb,
    Option.bind_eq_bind, Option.bind_some, hc, and_self, hex4_escape hdb, hd]

theorem shortEscapes_spec : ∀ p ∈ shortEscapes, ofChar p.2 ≠ 'u' ∧ ofChar p.2 ≠ '/' ∧
    ofChar p.1 ≠ '/' ∧ (ofChar p.1).val < 0x7f ∧
    shortEscapes.find? (fun q => ofChar q.2 = ofChar p.2) = some p := by
  decide

/-- the ways a character is written -/
inductive Written (ascii : Bool) (c : PyChar) : PyStr → Prop where
  | short (p : Char × Char) : p ∈ shortEscapes → PyChar.ofChar p.1 = c → Written ascii c ['\\', p.2]
  | unit : c.val < 0x10000 → (c.val < 0x20 ∨ ascii = true) → Written ascii c (unicodeEscape c.val)
  | pair (h l : PyChar) : ascii = true → isHigh h = true → isLow l = true → joined h l = c →
      Written ascii c (unicodeEscape h.val ++ unicodeEscape l.val)
  | raw : c ≠ '\\' → c ≠ '"' → 0x20 ≤ c.val → (ascii = true → c.val < 0x7f) → Written ascii c [c]

theorem escapeChar_written (ascii : Bool) (c : PyChar) : Written ascii c (escapeChar ascii c) := by
  unfold escapeChar
  split
  case h_1 p hfind =>
    exact .short p (List.mem_of_find?_eq_some hfind) (by simpa using List.find?_some hfind)
  case h_2 hfind =>
    have hnot : ∀ p ∈ shortEscapes, PyChar.ofChar p.1 ≠ c := fun p hp => by
      simpa using List.find?_eq_none.mp hfind p hp
    split_ifs with hctl hwide hbmp
    · exact .unit (by omega) (Or.inl hctl)
    · simp only [Bool.and_eq_true, decide_eq_true_eq] at hwide
      exact .unit hbmp (Or.inr hwide.1)
    · simp only [Bool.and_eq_true, decide_eq_true_eq] at hwide
      have hh : isHigh ⟨0xd800 + (c.val - 0x10000) / 1024, by omega⟩ = true := by
        simp only [isHigh, Bool.and_eq_true, decide_eq_true_eq]
        omega
      have hl : isLow ⟨0xdc00 + (c.val - 0x10000) % 1024, by omega⟩ = true := by
        simp only [isLow, Bool.and_eq_true, decide_eq_true_eq]
        omega
      refine .pair ⟨0xd800 + (c.val - 0x10000) / 1024, by omega⟩ ⟨0xdc00 + (c.val - 0x10000) % 1024, by omega⟩ hwide.1
        hh hl ?_
      rw [joined, dif_pos ⟨hh, hl⟩]
      refine Fin.ext ?_
      simp only
      omega
    · refine .raw (fun h => hnot ('\\', '\\') (by decide) h.symm) (fun h => hnot ('"', '"') (by decide) h.symm)
        (by omega) (fun hascii => ?_)
      simp only [hascii, Bool.true_and, decide_eq_true_eq] at hwide
      omega

/-- what a string is read as: escaped surrogate pairs are joined -/
def joinPairs : PyStr → PyStr
  | h :: l :: rest => if isHigh h && isLow l then joined h l :: joinPairs rest else h :: joinPairs (l :: rest)
  | s => s

theorem joinPairs_induction {motive : PyStr → Prop}
    (case1 : ∀ h l rest, (isHigh h && isLow l) = true → motive rest → motive (h :: l :: rest))
    (case2 : ∀ h l rest, ¬(isHigh h && isLow l) = true → motive (l :: rest) → motive (h :: l :: rest))
    (case3 : ∀ s, (∀ h l rest, s = h :: l :: rest → False) → motive s) (s : PyStr) : motive s := by
  suffices hboth : motive s ∧ ∀ h, motive (h :: s) from hboth.1
  induction s with
  | nil => exact ⟨case3 [] (by simp), fun h => case3 [h] (by simp)⟩
  | cons l rest ih =>
    refine ⟨ih.2 l, fun h => ?_⟩
    by_cases hpair : (isHigh h && isLow l) = true
    · exact case1 h l rest hpair ih.1
    · exact case2 h l rest hpair (ih.2 l)

def readsStr (ascii : Bool) (s : PyStr) : PyStr := if ascii then joinPairs s else s

theorem scanChar_short {p : Char × Char} (hp : p ∈ shortEscapes) (r : PyStr) :
    scanChar (PyChar.ofChar '\\' :: PyChar.ofChar p.2 :: r) = some (PyChar.ofChar p.1, r) := by
  obtain ⟨hu, hslash, _, _, hfind⟩ := shortEscapes_spec p hp
  rw [scanChar, if_pos rfl, scanEscape, if_neg hu, if_neg hslash, hfind]
  rfl

theorem isHigh_bounds (h : isHigh c = true) : 0xd800 ≤ c.val ∧ c.val ≤ 0xdbff := by
  simpa [isHigh] using h

theorem isLow_bounds (h : isLow c = true) : 0xdc00 ≤ c.val ∧ c.val ≤ 0xdfff := by
  simpa [isLow] using h

theorem scanChar_written (h : Written ascii c t) (hhigh : ascii = true → isHigh c = false) (r : PyStr) :
    scanChar (t ++ r) = some (c, r) := by
  cases h with
  | short p hp hc =>
    rw [← hc]
    exact scanChar_short hp r
  | unit hc hwhy =>
    refine scanChar_escape hc ?_ r
    rcases hwhy with hctl | hascii
    · exact Bool.eq_false_iff.mpr (fun hh => by have := (isHigh_bounds hh).1; omega)
    · exact hhigh hascii
  | pair h l _ hh hl hj =>
    rw [← hj, List.append_assoc]
    exact scanChar_pair hh hl r
  | raw hback _ hctl _ =>
    rw [List.singleton_append, scanChar, if_neg hback, if_neg (by omega)]

theorem written_no_low {d : PyChar} (h : Written ascii d t) (hlow : isLow d = false) (r : PyStr) {more : PyStr}
    (heq : t ++ r = PyChar.ofChar '\\' :: PyChar.ofChar 'u' :: more) :
    ∃ e after, hex4 more = some (e, after) ∧ isLow e = false := by
  cases h with
  | short p hp _ =>
    have hu := (shortEscapes_spec p hp).1
    exact absurd (List.cons.inj (List.cons.inj heq).2).1 hu
  | unit hd _ =>
    cases heq
    exact ⟨d, r, hex4_escape hd r, hlow⟩
  | pair h l _ hh _ _ =>
    have hb := isHigh_bounds hh
    cases heq
    refine ⟨h, _, hex4_escape (by omega) _, Bool.eq_false_iff.mpr (fun hl => ?_)⟩
    have := isLow_bounds hl
    omega
  | raw hback _ _ _ => exact absurd (List.cons.inj heq).1 hback

theorem written_ne_nil (h : Written ascii c t) : 0 < t.length := by
  cases h <;> simp [unicodeEscape]

theorem written_head (h : Written ascii c t) : ∃ a t', t = a :: t' ∧ a ≠ '"' := by
  have hback : PyChar.ofChar '\\' ≠ PyChar.ofChar '"' := by decide
  cases h with
  | short _ _ _ | unit _ _ | pair _ _ _ _ _ _ => exact ⟨_, _, rfl, hback⟩
  | raw _ hquote _ _ => exact ⟨_, _, rfl, hquote⟩

variable {s : PyStr} {f : PyStr × PyJson}

theorem scanString_step {fuel : ℕ} {read : PyStr} (hhead : ∃ a t', t = a :: t' ∧ a ≠ '"')
    (hchar : scanChar (t ++ s) = some (c, s)) (hrest : scanString fuel s = some (read, r)) :
    scanString (fuel + 1) (t ++ s) = some (c :: read, r) := by
  obtain ⟨a, t', rfl, hne⟩ := hhead
  rw [List.cons_append] at hchar ⊢
  rw [scanString]
  · simp [if_neg hne, hchar, hrest]

theorem scanString_end (fuel : ℕ) (r : PyStr) : scanString (fuel + 1) (ofChar '"' :: r) = some ([], r) := by
  rw [scanString, if_pos rfl]

theorem joined_val {h l : PyChar} (hh : isHigh h = true) (hl : isLow l = true) : 0x10000 ≤ (joined h l).val := by
  rw [joined, dif_pos ⟨hh, hl⟩]
  simp only
  omega

theorem written_surrogate (h : Written true c t) (hlow : 0xd800 ≤ c.val) (hhigh : c.val < 0x10000) :
    t = unicodeEscape c.val := by
  cases h with
  | short p hp hc =>
    have := (shortEscapes_spec p hp).2.2.2.1
    rw [hc] at this
    omega
  | unit _ _ => rfl
  | pair h l _ hh hl hj =>
    have := joined_val hh hl
    rw [hj] at this
    omega
  | raw _ _ _ hascii =>
    have := hascii rfl
    omega

theorem scanChar_ascii (hnext : ∀ d s', s = d :: s' → (isHigh c && isLow d) = false) :
    scanChar (escapeChar true c ++ (s.flatMap (escapeChar true) ++ PyChar.ofChar '"' :: r)) =
      some (c, s.flatMap (escapeChar true) ++ ofChar '"' :: r) := by
  by_cases hhigh : isHigh c = true
  · have hb := isHigh_bounds hhigh
    rw [written_surrogate (escapeChar_written true c) hb.1 (by omega)]
    refine scanChar_high (by omega) hhigh ?_
    intro more heq
    cases s with
    | nil => exact absurd (List.cons.inj heq).1 (by decide)
    | cons d s' =>
      have hlow : isLow d = false := by simpa [hhigh] using hnext d s' rfl
      rw [List.flatMap_cons, List.append_assoc] at heq
      exact written_no_low (escapeChar_written true d) hlow _ heq
  · exact scanChar_written (escapeChar_written true c) (fun _ => by simpa using hhigh) _

theorem scanString_ascii (s r : PyStr) : ∀ fuel, s.length < fuel →
    scanString fuel (s.flatMap (escapeChar true) ++ PyChar.ofChar '"' :: r) = some (joinPairs s, r) := by
  -- two characters at a time, as `joinPairs` takes them
  induction s using joinPairs_induction with
  | case1 h l rest hpair ih =>
    intro fuel hfuel
    obtain ⟨fuel, rfl⟩ : ∃ k, fuel = k + 1 := ⟨fuel - 1, by omega⟩
    rw [length_cons, length_cons] at hfuel
    obtain ⟨hh, hl⟩ := Bool.and_eq_true _ _ ▸ hpair
    have hhb := isHigh_bounds hh
    have hlb := isLow_bounds hl
    rw [joinPairs, if_pos hpair, flatMap_cons, flatMap_cons, written_surrogate (escapeChar_written true h) hhb.1 (by omega),
      written_surrogate (escapeChar_written true l) (by omega) (by omega), append_assoc, append_assoc,
      ← append_assoc]
    refine scanString_step ⟨_, _, rfl, by decide⟩ ?_ (ih fuel (by omega))
    exact scanChar_pair hh hl _
  | case2 h l rest hpair ih =>
    intro fuel hfuel
    obtain ⟨fuel, rfl⟩ : ∃ k, fuel = k + 1 := ⟨fuel - 1, by omega⟩
    rw [joinPairs, if_neg hpair, flatMap_cons, append_assoc]
    refine scanString_step (written_head (escapeChar_written true h)) (scanChar_ascii ?_)
      (ih fuel (by simp only [length_cons] at hfuel ⊢; omega))
    rintro d s' heq
    cases heq
    simpa using hpair
  | case3 s hs =>
    intro fuel hfuel
    obtain ⟨fuel, rfl⟩ : ∃ k, fuel = k + 1 := ⟨fuel - 1, by omega⟩
    rcases s with _ | ⟨c, _ | ⟨l, rest⟩⟩
    · exact scanString_end fuel r
    · obtain ⟨fuel, rfl⟩ : ∃ k, fuel = k + 1 := ⟨fuel - 1, by simp at hfuel; omega⟩
      rw [flatMap_cons, append_assoc]
      exact scanString_step (written_head (escapeChar_written true c)) (scanChar_ascii (fun d s' h => by cases h))
        (scanString_end fuel r)
    · exact absurd rfl (hs c l rest)

theorem scanString_raw (s r : PyStr) : ∀ fuel, s.length < fuel →
    scanString fuel (s.flatMap (escapeChar false) ++ ofChar '"' :: r) = some (s, r) := by
  induction s with
  | nil =>
    intro fuel hfuel
    obtain ⟨fuel, rfl⟩ : ∃ k, fuel = k + 1 := ⟨fuel - 1, by omega⟩
    exact scanString_end fuel r
  | cons c s ih =>
    intro fuel hfuel
    obtain ⟨fuel, rfl⟩ : ∃ k, fuel = k + 1 := ⟨fuel - 1, by omega⟩
    rw [List.flatMap_cons, List.append_assoc]
    exact scanString_step (written_head (escapeChar_written false c))
      (scanChar_written (escapeChar_written false c) (fun h => by cases h) _)
      (ih fuel (by simp only [List.length_cons] at hfuel; omega))

theorem length_le_flatMap (ascii : Bool) (s : PyStr) : s.length ≤ (s.flatMap (escapeChar ascii)).length := by
  induction s with
  | nil => exact Nat.zero_le _
  | cons c s ih =>
    have := written_ne_nil (escapeChar_written ascii c)
    rw [List.flatMap_cons, List.length_append, List.length_cons]
    omega

/-- **Strings read back.** -/
theorem scanStr_render (ascii : Bool) (s r : PyStr) :
    scanStr (s.flatMap (escapeChar ascii) ++ PyChar.ofChar '"' :: r) = .ok (readsStr ascii s, r) := by
  have hfuel : s.length < (s.flatMap (escapeChar ascii) ++ ofChar '"' :: r).length + 1 := by
    have := length_le_flatMap ascii s
    rw [List.length_append]
    omega
  unfold scanStr readsStr
  cases ascii with
  | false => rw [scanString_raw s r _ hfuel]; rfl
  | true => rw [scanString_ascii s r _ hfuel]; rfl

/-! ## Numbers -/

/-- the text does not continue a number -/
def Stops (r : PyStr) : Prop :=
  ∀ c t, r = c :: t → c.isDigit = false ∧ c ≠ '.' ∧ c ≠ 'e' ∧ c ≠ 'E'

theorem Stops.nil : Stops [] := fun c t h => by cases h

theorem toChar_ofChar (c : Char) : toChar (PyChar.ofChar c) = c := Char.ofNat_toNat c

theorem isDigit_ofChar {c : Char} : (PyChar.ofChar c).isDigit = c.isDigit := by
  rfl

theorem scanDigits_append (hds : ∀ c ∈ ds, c.isDigit = true) (hr : ∀ c t, r = c :: t → c.isDigit = false) :
    scanDigits (ds.map PyChar.ofChar ++ r) = (ds, r) := by
  have hall : ∀ c ∈ ds.map PyChar.ofChar, PyChar.isDigit c = true := by
    intro c hc
    obtain ⟨d, hd, rfl⟩ := List.mem_map.mp hc
    exact hds d hd
  have htake : r.takeWhile PyChar.isDigit = [] := by
    cases r with
    | nil => rfl
    | cons c t => rw [List.takeWhile_cons, hr c t rfl]; rfl
  have hdrop : r.dropWhile PyChar.isDigit = r := by
    cases r with
    | nil => rfl
    | cons c t => rw [List.dropWhile_cons, hr c t rfl]; rfl
  rw [scanDigits, List.takeWhile_append_of_pos hall, List.dropWhile_append_of_pos hall, htake, hdrop, List.append_nil,
    List.map_map]
  congr 1
  exact (List.map_congr_left (fun c _ => toChar_ofChar c)).trans (List.map_id ds)

theorem scanWhole_numeral (h : Double.Numeral ds) (hr : ∀ c t, r = c :: t → c.isDigit = false) :
    scanWhole (ds.map PyChar.ofChar ++ r) = some (ds, r) := by
  obtain ⟨hall, rfl | ⟨c, cs, rfl, hc⟩⟩ := h
  · rfl
  · have hzero : PyChar.ofChar c ≠ '0' := fun heq => hc (PyChar.ofChar_inj heq)
    have hdigit : (PyChar.ofChar c).isDigit = true := isDigit_ofChar.trans (hall c (by simp))
    have hscan := scanDigits_append hall hr
    rw [List.map_cons, List.cons_append] at hscan ⊢
    rw [scanWhole, if_neg hzero, if_pos hdigit, hscan]

theorem scanFrac_none (hr : ∀ c t, r = c :: t → c ≠ '.') : scanFrac r = (none, r) := by
  match r with
  | [] => rfl
  | [_] => rfl
  | p :: d :: rest => rw [scanFrac, if_neg (fun h => hr p _ rfl h.1)]

theorem scanFrac_some (hds : ∀ c ∈ ds, c.isDigit = true) (hne : ds ≠ []) (hr : ∀ c t, r = c :: t → c.isDigit = false) :
    scanFrac (PyChar.ofChar '.' :: (ds.map PyChar.ofChar ++ r)) = (some ds, r) := by
  have hscan := scanDigits_append hds hr
  cases ds with
  | nil => exact absurd rfl hne
  | cons d ds =>
    have hdigit : (PyChar.ofChar d).isDigit = true := isDigit_ofChar.trans (hds d (by simp))
    rw [List.map_cons, List.cons_append] at hscan ⊢
    rw [scanFrac, if_pos ⟨rfl, hdigit⟩, hscan]

theorem scanExponent_none (hr : Stops r) : scanExponent r = (none, r) := by
  match r with
  | [] => rfl
  | [_] => rfl
  | e :: s :: rest =>
    have hs := hr e _ rfl
    rw [scanExponent, if_neg (fun h => h.elim hs.2.2.1 hs.2.2.2)]

theorem scanExponentDigits_append (hds : ∀ c ∈ ds, c.isDigit = true) (hne : ds ≠ [])
    (hr : ∀ c t, r = c :: t → c.isDigit = false) :
    scanExponentDigits negative (ds.map PyChar.ofChar ++ r) = some (if negative then -(natOf ds : ℤ) else natOf ds, r) := by
  have hscan := scanDigits_append hds hr
  cases ds with
  | nil => exact absurd rfl hne
  | cons d ds =>
    have hdigit : (PyChar.ofChar d).isDigit = true := isDigit_ofChar.trans (hds d (by simp))
    rw [List.map_cons, List.cons_append] at hscan ⊢
    rw [scanExponentDigits, if_pos hdigit, hscan]

theorem scanExponent_render (x : ℤ) (hr : ∀ c t, r = c :: t → c.isDigit = false) :
    scanExponent (renderExponent x ++ r) = (some x, r) := by
  obtain ⟨ds, hds, hne, htext, hval⟩ : ∃ ds : List Char, (∀ c ∈ ds, c.isDigit = true) ∧ ds ≠ [] ∧
      (if x.natAbs < 10 then [PyChar.ofChar '0'] else []) ++ renderNat x.natAbs = ds.map PyChar.ofChar ∧
      natOf ds = x.natAbs := by
    have hdigits := (Double.numeral_toDigits x.natAbs).1
    split_ifs
    · refine ⟨'0' :: Nat.toDigits 10 x.natAbs, ?_, by simp, rfl, ?_⟩
      · simpa using hdigits
      · exact Nat.ofDigitChars_ten_toDigits
    · exact ⟨Nat.toDigits 10 x.natAbs, hdigits, Nat.toDigits_ne_nil, rfl, Nat.ofDigitChars_ten_toDigits⟩
  have hrender : renderExponent x = PyChar.ofChar 'e' :: PyChar.ofChar (if x < 0 then '-' else '+') ::
      ds.map PyChar.ofChar := by
    rw [renderExponent, List.append_assoc, htext]
    rfl
  rw [hrender, List.cons_append, List.cons_append, scanExponent, if_pos (Or.inl rfl)]
  by_cases hneg : x < 0
  · rw [if_pos hneg, if_pos rfl, scanExponentDigits_append true hds hne hr, hval]
    simp only [if_true]
    congr 2
    omega
  · rw [if_neg hneg, if_neg (by decide), if_pos rfl, scanExponentDigits_append false hds hne hr, hval]
    simp only [Bool.false_eq_true, if_false]
    congr 2
    omega

/-- **Integers read back.** -/
theorem scanNumber_nat {n : ℕ} (hn : n < 10 ^ maxIntDigits) (hr : Stops r) :
    scanNumber negative (renderNat n ++ r) = .ok (.int (if negative then -(n : ℤ) else n), r) := by
  have hwhole := scanWhole_numeral (Double.numeral_toDigits n) (fun c t h => (hr c t h).1)
  have hlen : ¬ maxIntDigits < (Nat.toDigits 10 n).length :=
    not_lt.mpr ((Nat.length_toDigits_le_iff (by decide) (by decide)).mpr hn)
  have hval : natOf (Nat.toDigits 10 n) = n := Nat.ofDigitChars_ten_toDigits
  unfold scanNumber renderNat
  simp [hwhole, scanFrac_none (fun c t h => (hr c t h).2.1), scanExponent_none hr, if_neg hlen, hval]

/-- **Floats read back.** -/
theorem scanNumber_float {t : Double.FloatText} (ht : t.Written) (hr : Stops r) :
    scanNumber negative (renderFloatText t ++ r) = .ok (.float (Double.read negative t), r) := by
  obtain ⟨whole, frac, exponent⟩ := t
  obtain ⟨hwhole, hfrac, hfloat⟩ := ht
  -- the exponent and what follows it
  obtain ⟨rest, hrest, hdigit, hpoint, hexp⟩ : ∃ rest : PyStr,
      exponent.elim [] renderExponent ++ r = rest ∧ (∀ c t, rest = c :: t → c.isDigit = false) ∧
      (∀ c t, rest = c :: t → c ≠ '.') ∧ scanExponent rest = (exponent, r) := by
    cases exponent with
    | none => exact ⟨r, rfl, fun c t h => (hr c t h).1, fun c t h => (hr c t h).2.1, scanExponent_none hr⟩
    | some x =>
      refine ⟨_, rfl, ?_, ?_, scanExponent_render x (fun c t h => (hr c t h).1)⟩
      · intro c t h
        rw [← (List.cons.inj h).1]
        decide
      · intro c t h
        rw [← (List.cons.inj h).1]
        decide
  unfold renderFloatText scanNumber
  simp only [List.append_assoc, hrest]
  by_cases hnil : frac = []
  · have hsome : exponent ≠ none := fun h => hfloat h hnil
    simp only [hnil, if_true, List.nil_append, scanWhole_numeral hwhole hdigit, scanFrac_none hpoint, hexp, hsome,
      and_false, if_false, Option.getD_none]
  · have hdot : ∀ c t, PyChar.ofChar '.' :: (frac.map PyChar.ofChar ++ rest) = c :: t → c.isDigit = false := by
      intro c t h
      rw [← (List.cons.inj h).1]
      decide
    simp only [if_neg hnil, List.cons_append, scanWhole_numeral hwhole hdot, scanFrac_some hfrac hnil hdigit, hexp,
      reduceCtorEq, false_and, if_false, Option.getD_some]

theorem renderNat_head (n : ℕ) : ∃ c t, renderNat n = PyChar.ofChar c :: t ∧ c.isDigit = true := by
  have h := Double.numeral_toDigits n
  cases hds : Nat.toDigits 10 n with
  | nil => exact absurd hds Nat.toDigits_ne_nil
  | cons c cs => exact ⟨c, cs.map PyChar.ofChar, by rw [renderNat, hds]; rfl, h.1 c (by rw [hds]; simp)⟩

theorem renderFloatText_head {t : Double.FloatText} (ht : t.Written) :
    ∃ c rest, renderFloatText t = PyChar.ofChar c :: rest ∧ c.isDigit = true := by
  obtain ⟨hall, hfirst⟩ := ht.whole
  obtain ⟨c, cs, hcs⟩ : ∃ c cs, t.whole = c :: cs := by
    rcases hfirst with h | ⟨c, cs, h, _⟩
    · exact ⟨_, _, h⟩
    · exact ⟨c, cs, h⟩
  exact ⟨c, _, by rw [renderFloatText, hcs]; rfl, hall c (by rw [hcs]; simp)⟩

theorem words_number {c : Char} (hc : c.isDigit = true) (t : PyStr) :
    words.find? (fun w => w.1.isPrefixOf (sign negative ++ PyChar.ofChar c :: t)) = none := by
  have hne : ∀ d : Char, d.isDigit = false → (PyChar.ofChar d == PyChar.ofChar c) = false := by
    intro d hd
    rw [beq_eq_false_iff_ne]
    intro heq
    rw [PyChar.ofChar_inj heq, hc] at hd
    cases hd
  have hminus : ∀ d : Char, d ≠ '-' → (PyChar.ofChar d == PyChar.ofChar '-') = false := by
    intro d hd
    rw [beq_eq_false_iff_ne]
    exact fun heq => hd (PyChar.ofChar_inj heq)
  cases negative with
  | false =>
    simp [words, PyStr.ofString, sign, List.isPrefixOf, hne]
  | true =>
    simp [words, PyStr.ofString, sign, List.isPrefixOf, hne]

theorem scanScalar_word : ∀ w ∈ words, ∀ r : PyStr, scanScalar (w.1 ++ r) = .ok (w.2, r) := by
  intro w hw r
  simp only [words, List.mem_cons, List.not_mem_nil, or_false] at hw
  rcases hw with rfl | rfl | rfl | rfl | rfl | rfl <;> rfl

theorem scanScalar_number {c : Char} (hc : c.isDigit = true) (t : PyStr) :
    scanScalar (sign negative ++ PyChar.ofChar c :: t) = scanNumber negative (PyChar.ofChar c :: t) := by
  have hminus : PyChar.ofChar c ≠ '-' := fun h => by
    rw [PyChar.ofChar_inj h] at hc
    cases hc
  unfold scanScalar
  rw [words_number negative hc t]
  cases negative with
  | false =>
    simp [sign, if_neg hminus]
  | true => rfl

/-! ## Values -/

/-- the first character of a written value -/
structure Opens (c : PyChar) : Prop where
  blank : isBlank c = false
  bracket : c ≠ ']'
  brace : c ≠ '\x7d'

/-- ... of one that is neither a string nor a container -/
structure OpensScalar (c : PyChar) : Prop extends Opens c where
  quote : c ≠ '"'
  array : c ≠ '['
  object : c ≠ '\x7b'

theorem opensScalar_digit {c : Char} (hc : c.isDigit = true) : OpensScalar (ofChar c) := by
  have hne : ∀ d : Char, d.isDigit = false → ofChar c ≠ ofChar d := by
    intro d hd heq
    rw [← ofChar_inj heq, hc] at hd
    cases hd
  refine ⟨⟨?_, hne _ rfl, hne _ rfl⟩, hne _ rfl, hne _ rfl, hne _ rfl⟩
  simp [isBlank, hne]

theorem opensScalar_sign {c : Char} (hc : c.isDigit = true) (t : PyStr) :
    ∃ a t', sign negative ++ ofChar c :: t = a :: t' ∧ OpensScalar a := by
  cases negative with
  | false => exact ⟨_, _, rfl, opensScalar_digit hc⟩
  | true => exact ⟨_, _, rfl, ⟨⟨by decide, by decide, by decide⟩, by decide, by decide, by decide⟩⟩

theorem scanValue_scalar {a : PyChar} (hs : s = a :: t) (ha : OpensScalar a) (limit : ℕ) :
    scanValue limit s = scanScalar s := by
  subst hs
  unfold scanValue
  simp [if_neg ha.quote, if_neg ha.array, if_neg ha.object]

theorem opensScalar_word : ∀ w ∈ words, ∃ a t, w.1 = a :: t ∧ OpensScalar a := by
  intro w hw
  simp only [words, mem_cons, not_mem_nil, or_false] at hw
  rcases hw with rfl | rfl | rfl | rfl | rfl | rfl <;>
    exact ⟨_, _, rfl, ⟨⟨by decide, by decide, by decide⟩, by decide, by decide, by decide⟩⟩

theorem scanValue_word {w : PyStr × PyJson} (hw : w ∈ words) (limit : ℕ) (r : PyStr) :
    scanValue limit (w.1 ++ r) = .ok (w.2, r) := by
  obtain ⟨a, t, hat, ha⟩ := opensScalar_word w hw
  rw [scanValue_scalar (by rw [hat]; rfl : w.1 ++ r = a :: (t ++ r)) ha, scanScalar_word w hw]

theorem scanValue_int {n : ℤ} (hn : n.natAbs < 10 ^ maxIntDigits) (limit : ℕ) (hr : Stops r) :
    scanValue limit (renderInt n ++ r) = .ok (.int n, r) := by
  obtain ⟨c, t, hct, hc⟩ := renderNat_head n.natAbs
  obtain ⟨a, t', hat, ha⟩ := opensScalar_sign (n < 0) hc (t ++ r)
  have htext : renderInt n ++ r = sign (n < 0) ++ ofChar c :: (t ++ r) := by
    rw [renderInt, hct, append_assoc, cons_append]
  rw [scanValue_scalar (htext.trans hat) ha, htext, scanScalar_number _ hc, ← cons_append, ← hct, scanNumber_nat _ hn hr]
  congr 3
  by_cases hneg : n < 0
  · simp only [hneg, decide_true, if_true]
    omega
  · simp only [hneg, decide_false, Bool.false_eq_true, if_false]
    omega

theorem scanValue_float (x : Double) (limit : ℕ) (hr : Stops r) :
    scanValue limit (renderFloat x ++ r) = .ok (.float x, r) := by
  cases x with
  | nan => exact scanValue_word (w := ("NaN", .float .nan)) (by simp [words]) limit r
  | inf negative =>
    cases negative with
    | false => exact scanValue_word (w := ("Infinity", .float (.inf false))) (by simp [words]) limit r
    | true => exact scanValue_word (w := ("-Infinity", .float (.inf true))) (by simp [words]) limit r
  | finite negative k =>
    have hwritten := Double.textOf_written k
    obtain ⟨c, t, hct, hc⟩ := renderFloatText_head hwritten
    obtain ⟨a, t', hat, ha⟩ := opensScalar_sign negative hc (t ++ r)
    have htext : renderFloat (.finite negative k) ++ r = sign negative ++ ofChar c :: (t ++ r) := by
      rw [renderFloat, hct, append_assoc, cons_append]
    rw [scanValue_scalar (htext.trans hat) ha, htext, scanScalar_number _ hc, ← cons_append, ← hct,
      scanNumber_float negative hwritten hr, Double.read_repr]

/-! ## Containers -/

theorem render_opens (st : Style) (v : PyJson) : ∃ c t, render st v = c :: t ∧ Opens c := by
  have hpunct : ∀ c : PyChar, c = '"' ∨ c = '[' ∨ c = '\x7b' → Opens c := by
    rintro c (rfl | rfl | rfl) <;> exact ⟨by decide, by decide, by decide⟩
  have hword : ∀ w ∈ words, ∃ c t, w.1 = c :: t ∧ Opens c := fun w hw =>
    (opensScalar_word w hw).imp (fun c h => h.imp (fun t h => ⟨h.1, h.2.toOpens⟩))
  match v with
  | .null => exact hword ("null", .null) (by simp [words])
  | .bool true => exact hword ("true", .bool true) (by simp [words])
  | .bool false => exact hword ("false", .bool false) (by simp [words])
  | .int n =>
    obtain ⟨c, t, hct, hc⟩ := renderNat_head n.natAbs
    obtain ⟨a, t', hat, ha⟩ := opensScalar_sign (n < 0) hc t
    exact ⟨a, t', by rw [render, renderInt, hct, hat], ha.toOpens⟩
  | .float .nan => exact hword ("NaN", .float .nan) (by simp [words])
  | .float (.inf false) => exact hword ("Infinity", .float (.inf false)) (by simp [words])
  | .float (.inf true) => exact hword ("-Infinity", .float (.inf true)) (by simp [words])
  | .float (.finite negative k) =>
    obtain ⟨c, t, hct, hc⟩ := renderFloatText_head (Double.textOf_written k)
    obtain ⟨a, t', hat, ha⟩ := opensScalar_sign negative hc t
    exact ⟨a, t', by rw [render, renderFloat, hct, hat], ha.toOpens⟩
  | .str s => exact ⟨_, _, by rw [render, renderStr], hpunct _ (Or.inl rfl)⟩
  | .arr [] => exact ⟨_, _, by rw [render], hpunct _ (Or.inr (Or.inl rfl))⟩
  | .arr (v :: vs) => exact ⟨_, _, by rw [render], hpunct _ (Or.inr (Or.inl rfl))⟩
  | .obj [] => exact ⟨_, _, by rw [render], hpunct _ (Or.inr (Or.inr rfl))⟩
  | .obj ((k, v) :: fields) => exact ⟨_, _, by rw [render], hpunct _ (Or.inr (Or.inr rfl))⟩

theorem skipBlanks_cons (h : isBlank c = false) (t : PyStr) : skipBlanks (c :: t) = c :: t := by
  rw [skipBlanks, List.dropWhile_cons, h]
  rfl

theorem skipBlanks_blank (h : isBlank c = false) (t : PyStr) : skipBlanks (PyChar.ofChar ' ' :: c :: t) = c :: t := by
  exact skipBlanks_cons h t

theorem skipBlanks_render (st : Style) (v : PyJson) (r : PyStr) : skipBlanks (render st v ++ r) = render st v ++ r := by
  obtain ⟨c, t, hct, hc⟩ := render_opens st v
  rw [hct, List.cons_append, skipBlanks_cons hc.blank]

theorem skipBlanks_sep (st : Style) (hc : isBlank c = false) (t : PyStr) :
    ∃ rest, st.itemSep ++ c :: t = PyChar.ofChar ',' :: rest ∧ skipBlanks rest = c :: t := by
  unfold Style.itemSep
  split_ifs
  · exact ⟨_, rfl, skipBlanks_cons hc t⟩
  · exact ⟨PyChar.ofChar ' ' :: c :: t, rfl, skipBlanks_blank hc t⟩

theorem skipBlanks_keySep (st : Style) (hc : isBlank c = false) (t : PyStr) :
    ∃ rest, st.keySep ++ c :: t = PyChar.ofChar ':' :: rest ∧ skipBlanks rest = c :: t := by
  unfold Style.keySep
  split_ifs
  · exact ⟨_, rfl, skipBlanks_cons hc t⟩
  · exact ⟨PyChar.ofChar ' ' :: c :: t, rfl, skipBlanks_blank hc t⟩

theorem stops_cons (h : c.isDigit = false ∧ c ≠ '.' ∧ c ≠ 'e' ∧ c ≠ 'E') (t : PyStr) : Stops (c :: t) := by
  intro d t' heq
  rw [← (List.cons.inj heq).1]
  exact h

theorem stops_items (st : Style) (vs : List PyJson) (r : PyStr) : Stops (renderItems st vs ++ r) := by
  cases vs with
  | nil => rw [renderItems]; exact stops_cons (by decide) r
  | cons v vs =>
    rw [renderItems]
    unfold Style.itemSep
    split_ifs <;> exact stops_cons (by decide) _

theorem stops_fields (st : Style) (fs : List (PyStr × PyJson)) (r : PyStr) : Stops (renderFields st fs ++ r) := by
  cases fs with
  | nil => rw [renderFields]; exact stops_cons (by decide) r
  | cons f fs =>
    rw [renderFields]
    unfold Style.itemSep
    split_ifs <;> exact stops_cons (by decide) _

mutual
/-- what a written value is read as -/
def reads (st : Style) : PyJson → PyJson
  | .str s => .str (readsStr st.ascii s)
  | .arr items => .arr (readsItems st items)
  | .obj fields => .obj (dictOf (readsFields st fields))
  | v => v

def readsItems (st : Style) : List PyJson → List PyJson
  | [] => []
  | v :: vs => reads st v :: readsItems st vs

def readsFields (st : Style) : List (PyStr × PyJson) → List (PyStr × PyJson)
  | [] => []
  | (k, v) :: fields => (readsStr st.ascii k, reads st v) :: readsFields st fields
end

section Loops

variable {st : Style} {value : Scan PyJson}

theorem scanItems_render (vs : List PyJson) : ∀ (v : PyJson) (fuel : ℕ) (r : PyStr),
    (∀ w ∈ v :: vs, ∀ r, Stops r → value (render st w ++ r) = .ok (reads st w, r)) → vs.length < fuel →
    scanItems value fuel (render st v ++ (renderItems st vs ++ r)) = .ok (reads st v :: readsItems st vs, r) := by
  induction vs with
  | nil =>
    intro v fuel r hvalue hfuel
    obtain ⟨fuel, rfl⟩ : ∃ k, fuel = k + 1 := ⟨fuel - 1, by omega⟩
    have hv := hvalue v (by simp) _ (stops_items st [] r)
    rw [scanItems, hv]
    rfl
  | cons w vs ih =>
    intro v fuel r hvalue hfuel
    obtain ⟨fuel, rfl⟩ : ∃ k, fuel = k + 1 := ⟨fuel - 1, by omega⟩
    have hv := hvalue v (by simp) _ (stops_items st (w :: vs) r)
    obtain ⟨c, t, hct, hc⟩ := render_opens st w
    obtain ⟨rest, hsep, hskip⟩ := skipBlanks_sep st hc.blank (t ++ (renderItems st vs ++ r))
    have htext : renderItems st (w :: vs) ++ r = PyChar.ofChar ',' :: rest := by
      rw [renderItems, List.append_assoc, List.append_assoc, hct, List.cons_append, hsep]
    have hrest := ih w fuel r (fun u hu => hvalue u (List.mem_cons_of_mem v hu)) (by simp only [List.length_cons] at hfuel; omega)
    rw [hct, List.cons_append, ← hskip] at hrest
    rw [scanItems, hv, htext]
    simp only [Except.bind, bind, skipBlanks_cons (by decide : isBlank (PyChar.ofChar ',') = false), if_true,
      if_neg (by decide : PyChar.ofChar ',' ≠ PyChar.ofChar ']'), hrest, readsItems]

theorem scanField_render (k : PyStr) (v : PyJson) (hv : value (render st v ++ r) = .ok (reads st v, r)) :
    scanField value (renderStr st.ascii k ++ (st.keySep ++ (render st v ++ r))) =
      .ok ((readsStr st.ascii k, reads st v), r) := by
  obtain ⟨c, t, hct, hc⟩ := render_opens st v
  obtain ⟨rest, hsep, hskip⟩ := skipBlanks_keySep st hc.blank (t ++ r)
  rw [hct, List.cons_append, ← hskip] at hv
  rw [renderStr, List.cons_append, List.append_assoc, List.singleton_append, hct, List.cons_append, hsep, scanField]
  simp only [if_true, scanStr_render, Except.bind, bind,
    skipBlanks_cons (by decide : isBlank (PyChar.ofChar ':') = false), hv]

theorem scanFields_render (fs : List (PyStr × PyJson)) : ∀ (k : PyStr) (v : PyJson) (fuel : ℕ) (r : PyStr),
    (∀ f ∈ (k, v) :: fs, ∀ r, Stops r → value (render st f.2 ++ r) = .ok (reads st f.2, r)) → fs.length < fuel →
    scanFields value fuel (renderStr st.ascii k ++ (st.keySep ++ (render st v ++ (renderFields st fs ++ r)))) =
      .ok ((readsStr st.ascii k, reads st v) :: readsFields st fs, r) := by
  induction fs with
  | nil =>
    intro k v fuel r hvalue hfuel
    obtain ⟨fuel, rfl⟩ : ∃ k, fuel = k + 1 := ⟨fuel - 1, by omega⟩
    have hv := hvalue (k, v) (by simp) _ (stops_fields st [] r)
    rw [scanFields, scanField_render k v hv]
    rfl
  | cons f fs ih =>
    obtain ⟨l, w⟩ := f
    intro k v fuel r hvalue hfuel
    obtain ⟨fuel, rfl⟩ : ∃ k, fuel = k + 1 := ⟨fuel - 1, by omega⟩
    have hv := hvalue (k, v) (by simp) _ (stops_fields st ((l, w) :: fs) r)
    have hquote : isBlank (PyChar.ofChar '"') = false := by decide
    obtain ⟨rest, hsep, hskip⟩ := skipBlanks_sep st hquote
      (l.flatMap (escapeChar st.ascii) ++ (ofChar '"' :: (st.keySep ++ (render st w ++ (renderFields st fs ++ r)))))
    have htext : renderFields st ((l, w) :: fs) ++ r = PyChar.ofChar ',' :: rest := by
      rw [renderFields, renderStr, ← hsep]
      simp
    have hrest := ih l w fuel r (fun u hu => hvalue u (List.mem_cons_of_mem _ hu)) (by simp only [List.length_cons] at hfuel; omega)
    rw [renderStr, List.cons_append, List.append_assoc, List.singleton_append, ← hskip] at hrest
    rw [scanFields, scanField_render k v hv, htext]
    simp only [Except.bind, bind, skipBlanks_cons (by decide : isBlank (PyChar.ofChar ',') = false), if_true,
      if_neg (by decide : PyChar.ofChar ',' ≠ PyChar.ofChar '\x7d'), hrest, readsFields]

end Loops

theorem depth_le_items (h : v ∈ vs) : depth v ≤ depthItems vs := by
  induction vs with
  | nil => cases h
  | cons w vs ih =>
    rcases List.mem_cons.mp h with rfl | h
    · exact le_max_left _ _
    · exact le_trans (ih h) (le_max_right _ _)

theorem depth_le_fields (h : f ∈ fs) : depth f.2 ≤ depthFields fs := by
  induction fs with
  | nil => cases h
  | cons g fs ih =>
    rcases List.mem_cons.mp h with rfl | h
    · exact le_max_left _ _
    · exact le_trans (ih h) (le_max_right _ _)

theorem intsFit_item (h : v ∈ vs) (hfit : intsFitItems vs = true) : intsFit v = true := by
  induction vs with
  | nil => cases h
  | cons w vs ih =>
    rw [intsFitItems, Bool.and_eq_true] at hfit
    rcases List.mem_cons.mp h with rfl | h
    · exact hfit.1
    · exact ih h hfit.2

theorem intsFit_field (h : f ∈ fs) (hfit : intsFitFields fs = true) : intsFit f.2 = true := by
  induction fs with
  | nil => cases h
  | cons g fs ih =>
    rw [intsFitFields, Bool.and_eq_true] at hfit
    rcases List.mem_cons.mp h with rfl | h
    · exact hfit.1
    · exact ih h hfit.2

theorem length_le_renderItems (st : Style) (vs : List PyJson) : vs.length ≤ (renderItems st vs).length := by
  induction vs with
  | nil => exact Nat.zero_le _
  | cons v vs ih =>
    have hsep : 0 < st.itemSep.length := by
      unfold Style.itemSep
      split_ifs <;> simp
    rw [renderItems, List.length_append, List.length_append, List.length_cons]
    omega

theorem length_le_renderFields (st : Style) (fs : List (PyStr × PyJson)) : fs.length ≤ (renderFields st fs).length := by
  induction fs with
  | nil => exact Nat.zero_le _
  | cons f fs ih =>
    rw [renderFields, List.length_append, List.length_append, List.length_append, renderStr, List.length_append,
      List.length_cons, List.length_cons]
    omega

theorem scanValue_leaf (st : Style) (limit : ℕ) (hleaf : depth v = 0) (hfit : intsFit v = true) (hr : Stops r) :
    scanValue limit (render st v ++ r) = .ok (reads st v, r) := by
  cases v with
  | null => exact scanValue_word (w := ("null", .null)) (by simp [words]) limit r
  | bool b =>
    cases b with
    | true => exact scanValue_word (w := ("true", .bool true)) (by simp [words]) limit r
    | false => exact scanValue_word (w := ("false", .bool false)) (by simp [words]) limit r
  | int n =>
    rw [intsFit, decide_eq_true_eq] at hfit
    exact scanValue_int hfit limit hr
  | float x => exact scanValue_float x limit hr
  | str s =>
    rw [render, renderStr, List.cons_append, List.append_assoc, List.singleton_append]
    unfold scanValue
    simp [scanStr_render, Except.map, reads]
  | arr _ | obj _ => rw [depth] at hleaf; omega

section Nested

variable {st : Style} {limit : ℕ}

theorem scanValue_arr (hvalue : ∀ w ∈ v :: vs, ∀ r, Stops r → scanValue limit (render st w ++ r) = .ok (reads st w, r))
    (r : PyStr) : scanValue (limit + 1) (render st (.arr (v :: vs)) ++ r) = .ok (reads st (.arr (v :: vs)), r) := by
  obtain ⟨c, t, hct, hc⟩ := render_opens st v
  have htext : render st v ++ (renderItems st vs ++ r) = c :: (t ++ (renderItems st vs ++ r)) := by
    rw [hct, List.cons_append]
  have hfuel : vs.length < (c :: (t ++ (renderItems st vs ++ r))).length := by
    have := length_le_renderItems st vs
    simp only [List.length_cons, List.length_append]
    omega
  have hscan := scanItems_render vs v _ r hvalue hfuel
  rw [htext] at hscan
  rw [render, List.cons_append, List.append_assoc, htext]
  unfold scanValue
  simp only [if_neg (by decide : PyChar.ofChar '[' ≠ PyChar.ofChar '"'), if_true, skipBlanks_cons hc.blank,
    if_neg hc.bracket, hscan, Except.map, reads, readsItems]

theorem scanValue_obj {k : PyStr}
    (hvalue : ∀ f ∈ (k, v) :: fs, ∀ r, Stops r → scanValue limit (render st f.2 ++ r) = .ok (reads st f.2, r)) (r : PyStr) :
    scanValue (limit + 1) (render st (.obj ((k, v) :: fs)) ++ r) = .ok (reads st (.obj ((k, v) :: fs)), r) := by
  have hquote : isBlank (ofChar '"') = false := by decide
  obtain ⟨t, ht⟩ : ∃ t, renderStr st.ascii k ++ (st.keySep ++ (render st v ++ (renderFields st fs ++ r))) =
      PyChar.ofChar '"' :: t := ⟨_, by rw [renderStr, cons_append]⟩
  have hfuel : fs.length < (ofChar '"' :: t).length := by
    have := length_le_renderFields st fs
    rw [← ht]
    simp only [List.length_append, renderStr, List.length_cons]
    omega
  have hscan := scanFields_render fs k v _ r hvalue hfuel
  rw [ht] at hscan
  rw [render, List.cons_append, List.append_assoc, List.append_assoc, List.append_assoc, ht]
  unfold scanValue
  simp only [if_neg (by decide : PyChar.ofChar '\x7b' ≠ PyChar.ofChar '"'),
    if_neg (by decide : ofChar '\x7b' ≠ ofChar '['), if_true, skipBlanks_cons hquote,
    if_neg (by decide : ofChar '"' ≠ ofChar '\x7d'), hscan, Except.map, reads, readsFields]

end Nested

/-- **Values read back.** A value is read off the front of a text that does not continue it. -/
theorem scanValue_render (st : Style) : ∀ (limit : ℕ) (v : PyJson) (r : PyStr), depth v ≤ limit → intsFit v = true →
    Stops r → scanValue limit (render st v ++ r) = .ok (reads st v, r) := by
  intro limit
  -- on the recursion left: what stands inside a container has one level less
  induction limit with
  | zero => exact fun v r hdepth hfit hr => scanValue_leaf st 0 (Nat.le_zero.mp hdepth) hfit hr
  | succ limit ih =>
    intro v r hdepth hfit hr
    by_cases hleaf : depth v = 0
    · exact scanValue_leaf st _ hleaf hfit hr
    · cases v with
      | arr items =>
        cases items with
        | nil => rfl
        | cons v vs =>
          rw [depth] at hdepth
          exact scanValue_arr (fun w hw r hr =>
            ih w r (le_trans (depth_le_items hw) (by omega)) (intsFit_item hw hfit) hr) r
      | obj fields =>
        cases fields with
        | nil => rfl
        | cons f fs =>
          obtain ⟨k, v⟩ := f
          rw [depth] at hdepth
          exact scanValue_obj (fun f hf r hr =>
            ih f.2 r (le_trans (depth_le_fields hf) (by omega)) (intsFit_field hf hfit) hr) r
      | _ => exact absurd (by simp [depth]) hleaf

/-- **Round trip.** What `json.dumps` wrote is read back. -/
theorem loads_dumps {st : Style} {limit : ℕ} (h : dumps st limit v = .ok s) : loads limit s = .ok (reads st v) := by
  unfold dumps at h
  split_ifs at h with hdepth hfit
  cases h
  have hscan := scanValue_render st limit v [] (by omega) (by simpa using hfit) Stops.nil
  have hskip := skipBlanks_render st v []
  rw [append_nil] at hscan hskip
  rw [loads, hskip, hscan]
  rfl

end Teardrop.PyJson
