/-
Python's `str` as a list of code points, lone surrogates included, and the text encodings of `bytes`.

`str.encode("utf-8")` raises on a surrogate (`none`). The decoders are those of `json.loads` on bytes, which passes
surrogates: UTF-8 without overlong forms, UTF-16 with joined pairs, UTF-32, each `none` where Python raises
`UnicodeDecodeError`.
-/
import Mathlib
import Teardrop.Core.PyText

namespace Teardrop

open List

/-- a code point -/
abbrev PyChar := Fin 0x110000

abbrev PyStr := List PyChar

instance : LawfulBEq PyChar := inferInstance

instance : LawfulBEq PyStr := inferInstance

def PyChar.ofChar (c : Char) : PyChar :=
  ⟨c.toNat, c.valid.elim (fun h => Nat.lt_trans h (by decide)) And.right⟩

instance : Coe Char PyChar := ⟨PyChar.ofChar⟩

/-- a text without surrogates, such as a literal of the program -/
def PyStr.ofString (s : String) : PyStr := s.toList.map PyChar.ofChar

instance : Coe String PyStr := ⟨PyStr.ofString⟩

theorem PyChar.ofChar_inj {c d : Char} (h : PyChar.ofChar c = PyChar.ofChar d) : c = d := by
  have hval : c.toNat = d.toNat := Fin.mk.inj h
  exact Char.ext (UInt32.toNat_inj.mp hval)

/-- a literal is such a string: its characters are read off at once -/
theorem PyStr.ofString_ofList (l : List Char) : PyStr.ofString (String.ofList l) = l.map PyChar.ofChar :=
  congrArg _ String.toList_ofList

theorem PyStr.ofString_append (s t : String) : PyStr.ofString (s ++ t) = PyStr.ofString s ++ PyStr.ofString t := by
  rw [PyStr.ofString, String.toList_append, List.map_append]
  rfl

theorem PyStr.ofString_inj {s t : String} (h : PyStr.ofString s = PyStr.ofString t) : s = t :=
  String.toList_inj.mp ((map_injective_iff.mpr (fun _ _ => PyChar.ofChar_inj)) h)

namespace PyChar

def isSurrogate (c : PyChar) : Bool := 0xd800 ≤ c.val && c.val ≤ 0xdfff

def isAscii (c : PyChar) : Bool := c.val < 128

/-- an ASCII digit -/
def isDigit (c : PyChar) : Bool := '0'.toNat ≤ c.val && c.val ≤ '9'.toNat

/-- `str.isspace` of one character -/
def isSpace (c : PyChar) : Bool :=
  (9 ≤ c.val && c.val ≤ 13) || (0x1c ≤ c.val && c.val ≤ 0x20) || PyText.wideSpaces.contains c.val

theorem ofChar_not_surrogate (c : Char) : isSurrogate (ofChar c) = false := by
  have hval : (ofChar c).val = c.toNat := rfl
  have hvalid : c.toNat < 0xd800 ∨ 0xdfff < c.toNat ∧ c.toNat < 0x110000 := c.valid
  simp only [isSurrogate, hval, Bool.and_eq_false_iff, decide_eq_false_iff_not]
  omega

end PyChar

namespace PyStr

/-- `str.strip()` -/
def strip (s : PyStr) : PyStr := ((s.dropWhile PyChar.isSpace).reverse.dropWhile PyChar.isSpace).reverse

def lowerAscii (c : PyChar) : PyChar :=
  if h : 'A'.toNat ≤ c.val ∧ c.val ≤ 'Z'.toNat then ⟨c.val + 32, by
    have hle : c.val ≤ 90 := h.2
    omega⟩
  else c

/-- `str.lower()`; `wide` lowers the characters above ASCII -/
def lower (wide : PyChar → PyStr) (s : PyStr) : PyStr :=
  s.flatMap (fun c => if c.isAscii then [lowerAscii c] else wide c)

/-- `str.partition(sep)` for a separator of one character -/
def partition (sep : PyChar) : PyStr → PyStr × PyStr × PyStr
  | [] => ([], [], [])
  | c :: rest =>
    if c = sep then ([], [c], rest)
    else
      let (before, found, after) := partition sep rest
      (c :: before, found, after)

/-- `str.split(sep)` for a separator of one character -/
def split (sep : PyChar) : PyStr → List PyStr
  | [] => [[]]
  | c :: rest =>
    if c = sep then [] :: split sep rest
    else match split sep rest with
      | [] => [[c]]
      | piece :: pieces => (c :: piece) :: pieces

/-- `"".join` with a separator between the pieces -/
def join (sep : PyStr) : List PyStr → PyStr
  | [] => []
  | [piece] => piece
  | piece :: pieces => piece ++ sep ++ join sep pieces

end PyStr

/-! ## UTF-8 -/

namespace Utf8

/-- the bytes of a code point -/
def encodeChar (c : PyChar) : List UInt8 :=
  if c.val < 0x80 then [UInt8.ofNat c.val]
  else if c.val < 0x800 then [UInt8.ofNat (0xc0 + c.val / 64), UInt8.ofNat (0x80 + c.val % 64)]
  else if c.val < 0x10000 then
    [UInt8.ofNat (0xe0 + c.val / 4096), UInt8.ofNat (0x80 + c.val / 64 % 64), UInt8.ofNat (0x80 + c.val % 64)]
  else
    [UInt8.ofNat (0xf0 + c.val / 262144), UInt8.ofNat (0x80 + c.val / 4096 % 64),
     UInt8.ofNat (0x80 + c.val / 64 % 64), UInt8.ofNat (0x80 + c.val % 64)]

/-- `str.encode("utf-8")`; `none` is `UnicodeEncodeError` -/
def encodeUtf8 (s : PyStr) : Option (List UInt8) :=
  if s.any PyChar.isSurrogate then none else some (s.flatMap encodeChar)

/-- the six bits of a continuation byte -/
def tail (b : UInt8) : Option ℕ := if 0x80 ≤ b.toNat ∧ b.toNat < 0xc0 then some (b.toNat - 0x80) else none

/-- a code point read from `n`, at least `least` -/
def point (least n : ℕ) : Option PyChar := if h : least ≤ n ∧ n < 0x110000 then some ⟨n, h.2⟩ else none

/-- the first character of some bytes and the bytes after it -/
@[grind] def decodeChar : List UInt8 → Option (PyChar × List UInt8)
  | [] => none
  | a :: rest =>
    if a.toNat < 0x80 then (point 0 a.toNat).map (·, rest)
    else if a.toNat < 0xc0 then none
    else if a.toNat < 0xe0 then
      match rest with
      | b :: rest => do
        let c ← point 0x80 ((a.toNat - 0xc0) * 64 + (← tail b))
        pure (c, rest)
      | _ => none
    else if a.toNat < 0xf0 then
      match rest with
      | b :: c :: rest => do
        let p ← point 0x800 (((a.toNat - 0xe0) * 64 + (← tail b)) * 64 + (← tail c))
        pure (p, rest)
      | _ => none
    else
      match rest with
      | b :: c :: d :: rest => do
        let p ← point 0x10000 ((((a.toNat - 0xf0) * 64 + (← tail b)) * 64 + (← tail c)) * 64 + (← tail d))
        pure (p, rest)
      | _ => none

/-- characters one after the other, at most `fuel` of them -/
def decodeLoop (char : List UInt8 → Option (PyChar × List UInt8)) : ℕ → List UInt8 → Option PyStr
  | _, [] => some []
  | 0, _ :: _ => none
  | fuel + 1, bytes => do
    let (c, rest) ← char bytes
    let s ← decodeLoop char fuel rest
    pure (c :: s)

/-- `bytes.decode("utf-8", "surrogatepass")`; `none` is `UnicodeDecodeError` -/
def decodeUtf8 (bytes : List UInt8) : Option PyStr := decodeLoop decodeChar bytes.length bytes

theorem tail_ofNat {n : ℕ} (h : n < 64) : tail (UInt8.ofNat (0x80 + n)) = some n := by
  have hnat : (UInt8.ofNat (0x80 + n)).toNat = 0x80 + n := by
    rw [UInt8.toNat_ofNat']
    omega
  rw [tail, hnat, if_pos (by omega), Nat.add_sub_cancel_left]

theorem decodeChar_one {a : UInt8} (ha : a.toNat < 0x80) (rest : List UInt8) :
    decodeChar (a :: rest) = (point 0 a.toNat).map (·, rest) := by
  cases rest with
  | nil | cons _ _ => simp only [decodeChar, if_pos ha]

theorem decodeChar_two {a b : UInt8} {q : ℕ} (ha : 0xc0 ≤ a.toNat ∧ a.toNat < 0xe0) (hb : tail b = some q)
    (rest : List UInt8) : decodeChar (a :: b :: rest) = (point 0x80 ((a.toNat - 0xc0) * 64 + q)).map (·, rest) := by
  rw [decodeChar, if_neg (by omega), if_neg (by omega), if_pos ha.2]
  simp only [hb, Option.bind_eq_bind, Option.bind_some]
  cases point 0x80 ((a.toNat - 0xc0) * 64 + q) <;> rfl

theorem decodeChar_three {a b c : UInt8} {q r : ℕ} (ha : 0xe0 ≤ a.toNat ∧ a.toNat < 0xf0) (hb : tail b = some q)
    (hc : tail c = some r) (rest : List UInt8) :
    decodeChar (a :: b :: c :: rest) = (point 0x800 (((a.toNat - 0xe0) * 64 + q) * 64 + r)).map (·, rest) := by
  rw [decodeChar, if_neg (by omega), if_neg (by omega), if_neg (by omega), if_pos ha.2]
  simp only [hb, hc, Option.bind_eq_bind, Option.bind_some]
  cases point 0x800 (((a.toNat - 0xe0) * 64 + q) * 64 + r) <;> rfl

theorem decodeChar_four {a b c d : UInt8} {q r t : ℕ} (ha : 0xf0 ≤ a.toNat) (hb : tail b = some q) (hc : tail c = some r)
    (hd : tail d = some t) (rest : List UInt8) :
    decodeChar (a :: b :: c :: d :: rest) =
      (point 0x10000 ((((a.toNat - 0xf0) * 64 + q) * 64 + r) * 64 + t)).map (·, rest) := by
  rw [decodeChar, if_neg (by omega), if_neg (by omega), if_neg (by omega), if_neg (by omega)]
  simp only [hb, hc, hd, Option.bind_eq_bind, Option.bind_some]
  cases point 0x10000 ((((a.toNat - 0xf0) * 64 + q) * 64 + r) * 64 + t) <;> rfl

theorem point_of_eq {least n : ℕ} {c : PyChar} (h : n = c.val) (hleast : least ≤ c.val) : point least n = some c := by
  rw [h, point, dif_pos ⟨hleast, c.isLt⟩]

theorem toNat_lead {base n : ℕ} (h : base + n < 256) : (UInt8.ofNat (base + n)).toNat = base + n := by
  exact Nat.mod_eq_of_lt h

theorem decodeChar_encodeChar (c : PyChar) (rest : List UInt8) : decodeChar (encodeChar c ++ rest) = some (c, rest) := by
  unfold encodeChar
  split_ifs with h₁ h₂ h₃
  · have ha : (UInt8.ofNat c.val).toNat = c.val := by rw [UInt8.toNat_ofNat']; omega
    rw [singleton_append, decodeChar_one (by rw [ha]; exact h₁), point_of_eq ha (Nat.zero_le _)]
    rfl
  · have ha := @toNat_lead 0xc0 (c.val / 64) (by omega)
    have hval : c.val / 64 * 64 + c.val % 64 = c.val := by omega
    rw [cons_append, singleton_append, decodeChar_two (by rw [ha]; omega) (tail_ofNat (by omega)), ha,
      Nat.add_sub_cancel_left, point_of_eq hval (by omega)]
    rfl
  · have ha := @toNat_lead 0xe0 (c.val / 4096) (by omega)
    have hval : (c.val / 4096 * 64 + c.val / 64 % 64) * 64 + c.val % 64 = c.val := by omega
    rw [cons_append, cons_append, singleton_append,
      decodeChar_three (by rw [ha]; omega) (tail_ofNat (by omega)) (tail_ofNat (by omega)), ha,
      Nat.add_sub_cancel_left, point_of_eq hval (by omega)]
    rfl
  · have ha := @toNat_lead 0xf0 (c.val / 262144) (by omega)
    have hval : ((c.val / 262144 * 64 + c.val / 4096 % 64) * 64 + c.val / 64 % 64) * 64 + c.val % 64 = c.val := by omega
    rw [cons_append, cons_append, cons_append, singleton_append,
      decodeChar_four (by rw [ha]; omega) (tail_ofNat (by omega)) (tail_ofNat (by omega)) (tail_ofNat (by omega)), ha,
      Nat.add_sub_cancel_left, point_of_eq hval (by omega)]
    rfl

theorem encodeChar_length_pos (c : PyChar) : 0 < (encodeChar c).length := by
  unfold encodeChar
  split_ifs <;> simp

theorem decodeLoop_flatMap (s : PyStr) : ∀ fuel, (s.flatMap encodeChar).length ≤ fuel →
    decodeLoop decodeChar fuel (s.flatMap encodeChar) = some s := by
  induction s with
  | nil =>
    intro fuel _
    cases fuel <;> rfl
  | cons c s ih =>
    intro fuel hfuel
    have hpos := encodeChar_length_pos c
    rw [flatMap_cons, length_append] at hfuel
    obtain ⟨fuel, rfl⟩ : ∃ k, fuel = k + 1 := ⟨fuel - 1, by omega⟩
    have hchar := decodeChar_encodeChar c (s.flatMap encodeChar)
    rw [flatMap_cons]
    generalize hbytes : encodeChar c ++ s.flatMap encodeChar = bytes at hchar
    cases bytes with
    | nil =>
      rw [append_eq_nil_iff] at hbytes
      rw [hbytes.1] at hpos
      simp at hpos
    | cons b bytes =>
      rw [decodeLoop]
      · simp only [hchar, Option.bind_eq_bind, Option.bind_some, ih fuel (by omega)]
        rfl
      · simp

/-- **Round trip.** What was encoded is decoded. -/
theorem decodeUtf8_encodeUtf8 {s : PyStr} {bytes : List UInt8} (h : encodeUtf8 s = some bytes) :
    decodeUtf8 bytes = some s := by
  unfold encodeUtf8 at h
  split_ifs at h
  cases h
  exact decodeLoop_flatMap s _ le_rfl

theorem encodeUtf8_inj {s t : PyStr} {bytes : List UInt8} (hs : encodeUtf8 s = some bytes) (ht : encodeUtf8 t = some bytes) :
    s = t :=
  Option.some.inj ((decodeUtf8_encodeUtf8 hs).symm.trans (decodeUtf8_encodeUtf8 ht))

/-! ## The other encodings `json.loads` knows -/

/-- a character of UTF-16 with units read by `unit`; a pair is joined, a surrogate alone is passed -/
def decodeChar16 (unit : UInt8 → UInt8 → ℕ) : List UInt8 → Option (PyChar × List UInt8)
  | a :: b :: c :: d :: rest =>
    let high := unit a b
    let low := unit c d
    if 0xd800 ≤ high ∧ high ≤ 0xdbff ∧ 0xdc00 ≤ low ∧ low ≤ 0xdfff then
      (point 0 (0x10000 + (high - 0xd800) * 1024 + (low - 0xdc00))).map (·, rest)
    else (point 0 high).map (·, c :: d :: rest)
  | a :: b :: rest => (point 0 (unit a b)).map (·, rest)
  | _ => none

def decodeChar32 (unit : UInt8 → UInt8 → UInt8 → UInt8 → ℕ) : List UInt8 → Option (PyChar × List UInt8)
  | a :: b :: c :: d :: rest => (point 0 (unit a b c d)).map (·, rest)
  | _ => none

def big16 (a b : UInt8) : ℕ := a.toNat * 256 + b.toNat
def little16 (a b : UInt8) : ℕ := big16 b a
def big32 (a b c d : UInt8) : ℕ := big16 a b * 65536 + big16 c d
def little32 (a b c d : UInt8) : ℕ := big32 d c b a

def decode16 (unit : UInt8 → UInt8 → ℕ) (bytes : List UInt8) : Option PyStr :=
  decodeLoop (decodeChar16 unit) bytes.length bytes

def decode32 (unit : UInt8 → UInt8 → UInt8 → UInt8 → ℕ) (bytes : List UInt8) : Option PyStr :=
  decodeLoop (decodeChar32 unit) bytes.length bytes

/-- the text `json.loads` reads from bytes: `detect_encoding`, then the decoder it names -/
def decodeJson : List UInt8 → Option PyStr
  | 0x00 :: 0x00 :: 0xfe :: 0xff :: rest => decode32 big32 rest
  | 0xff :: 0xfe :: 0x00 :: 0x00 :: rest => decode32 little32 rest
  | 0xfe :: 0xff :: rest => decode16 big16 rest
  | 0xff :: 0xfe :: rest => decode16 little16 rest
  | 0xef :: 0xbb :: 0xbf :: rest => decodeUtf8 rest
  | [a, b] =>
    if a = 0 then decode16 big16 [a, b]
    else if b = 0 then decode16 little16 [a, b]
    else decodeUtf8 [a, b]
  | a :: b :: c :: d :: rest =>
    let bytes := a :: b :: c :: d :: rest
    if a = 0 then (if b = 0 then decode32 big32 bytes else decode16 big16 bytes)
    else if b = 0 then (if c = 0 ∧ d = 0 then decode32 little32 bytes else decode16 little16 bytes)
    else decodeUtf8 bytes
  | bytes => decodeUtf8 bytes

theorem decodeJson_ascii {a : UInt8} {rest : List UInt8} (ha : a.toNat < 128 ∧ a ≠ 0) (hrest : ∀ b ∈ rest.head?, b ≠ 0) :
    decodeJson (a :: rest) = decodeUtf8 (a :: rest) := by
  have hne : ∀ {n : ℕ}, 128 ≤ n → n < 256 → a ≠ UInt8.ofNat n := by
    intro n hn hlt heq
    have hmod := ha.1
    rw [heq, UInt8.toNat_ofNat'] at hmod
    omega
  -- not by `split`: it would try every pair of bytes
  unfold decodeJson decodeJson.match_1
  refine (dif_neg ha.2).trans ?_
  refine (dif_neg (hne (by decide : 128 ≤ 0xff) (by decide))).trans ?_
  refine (dif_neg (hne (by decide : 128 ≤ 0xfe) (by decide))).trans ?_
  refine (dif_neg (hne (by decide : 128 ≤ 0xef) (by decide))).trans ?_
  rcases rest with _ | ⟨b, _ | ⟨c, _ | ⟨d, rest⟩⟩⟩
  · rfl
  · exact (if_neg ha.2).trans (if_neg (hrest b rfl))
  · rfl
  · exact (if_neg ha.2).trans (if_neg (hrest b rfl))

end Utf8

end Teardrop
