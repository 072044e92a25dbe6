/-
Python's text functions on lists of characters: `str.strip`, `str.lower` and `int(text, base)` for bases 10 and 16.

`int` follows CPython: Unicode decimal digits and spaces; blanks around the number; one sign; in base 16 an optional `0x`, after
which one underscore may stand; single underscores between digits; in base 10 at most 4300 digits. Everything else is
`ValueError`, here `none`. `str.lower` beyond ASCII is a parameter.
-/
import Mathlib

namespace Teardrop.PyText

/-- code points of the zeros of the decimal-digit blocks of Unicode 15.0, ASCII apart -/
def decimalZeros : List ℕ :=
  [0x660, 0x6f0, 0x7c0, 0x966, 0x9e6, 0xa66, 0xae6, 0xb66, 0xbe6, 0xc66, 0xce6, 0xd66, 0xde6, 0xe50, 0xed0, 0xf20,
   0x1040, 0x1090, 0x17e0, 0x1810, 0x1946, 0x19d0, 0x1a80, 0x1a90, 0x1b50, 0x1bb0, 0x1c40, 0x1c50, 0xa620, 0xa8d0,
   0xa900, 0xa9d0, 0xa9f0, 0xaa50, 0xabf0, 0xff10, 0x104a0, 0x10d30, 0x11066, 0x110f0, 0x11136, 0x111d0, 0x112f0,
   0x11450, 0x114d0, 0x11650, 0x116c0, 0x11730, 0x118e0, 0x11950, 0x11c50, 0x11d50, 0x11da0, 0x11f50, 0x16a60,
   0x16ac0, 0x16b50, 0x1d7ce, 0x1d7d8, 0x1d7e2, 0x1d7ec, 0x1d7f6, 0x1e140, 0x1e2f0, 0x1e4f0, 0x1e950, 0x1fbf0]

/-- code points above ASCII for which `str.isspace` holds -/
def wideSpaces : List ℕ :=
  [0x85, 0xa0, 0x1680, 0x2000, 0x2001, 0x2002, 0x2003, 0x2004, 0x2005, 0x2006, 0x2007, 0x2008, 0x2009, 0x200a, 0x2028,
   0x2029, 0x202f, 0x205f, 0x3000]

instance lawfulChars : LawfulBEq (List Char) := inferInstance

/-- the blanks of the C locale -/
def isBlank (c : Char) : Bool := c ∈ [' ', '\t', '\n', '\x0b', '\x0c', '\r']

/-- `str.isspace` of one character -/
def isSpace (c : Char) : Bool :=
  isBlank c || (0x1c ≤ c.toNat && c.toNat ≤ 0x1f) || wideSpaces.contains c.toNat

/-- `str.strip()` -/
def strip (s : List Char) : List Char := ((s.dropWhile isSpace).reverse.dropWhile isSpace).reverse

def lowerAscii (c : Char) : Char := if 'A' ≤ c ∧ c ≤ 'Z' then Char.ofNat (c.toNat + 32) else c

/-- `str.lower()`; `wide` lowers the characters above ASCII -/
def lower (wide : Char → List Char) (s : List Char) : List Char :=
  s.flatMap (fun c => if c.toNat < 128 then [lowerAscii c] else wide c)

theorem toNat_ofNat_char {n : ℕ} (h : n.isValidChar) : (Char.ofNat n).toNat = n := by
  rw [Char.ofNat, dif_pos h]
  rfl

theorem toNat_lowerAscii {c : Char} (h : 'A' ≤ c ∧ c ≤ 'Z') : (lowerAscii c).toNat = c.toNat + 32 := by
  have hhigh : c.toNat ≤ 90 := h.2
  rw [lowerAscii, if_pos h, toNat_ofNat_char (Or.inl (by omega))]

theorem lowerAscii_idem (c : Char) : lowerAscii (lowerAscii c) = lowerAscii c := by
  by_cases h : 'A' ≤ c ∧ c ≤ 'Z'
  · have hlow : 65 ≤ c.toNat := h.1
    have hval := toNat_lowerAscii h
    refine if_neg (fun h' => ?_)
    have hle : (lowerAscii c).toNat ≤ 90 := h'.2
    omega
  · have hsame : lowerAscii c = c := if_neg h
    rw [hsame, hsame]

theorem lower_idem (s : List Char) : lower (fun c => [c]) (lower (fun c => [c]) s) = lower (fun c => [c]) s := by
  induction s with
  | nil => rfl
  | cons c s ih =>
    unfold lower at ih ⊢
    rw [List.flatMap_cons, List.flatMap_append, ih]
    congr 1
    by_cases h : c.toNat < 128
    · have hlow : (lowerAscii c).toNat < 128 := by
        by_cases hc : 'A' ≤ c ∧ c ≤ 'Z'
        · have hhigh : c.toNat ≤ 90 := hc.2
          rw [toNat_lowerAscii hc]
          omega
        · rw [lowerAscii, if_neg hc]
          exact h
      simp [h, lowerAscii_idem]
    · simp [h]

/-- the ASCII reading of one character of a number: digits and spaces above ASCII become ASCII ones -/
def asciiChar (c : Char) : Char :=
  if c.toNat < 127 then c
  else if wideSpaces.contains c.toNat then ' '
  else match decimalZeros.find? (fun z => z ≤ c.toNat && c.toNat ≤ z + 9) with
    | some z => Char.ofNat ('0'.toNat + (c.toNat - z))
    | none => '?'

/-- the value of an ASCII digit or letter, as in base 36 -/
def digitVal (c : Char) : Option ℕ :=
  if '0' ≤ c ∧ c ≤ '9' then some (c.toNat - '0'.toNat)
  else if 'a' ≤ c ∧ c ≤ 'z' then some (c.toNat - 'a'.toNat + 10)
  else if 'A' ≤ c ∧ c ≤ 'Z' then some (c.toNat - 'A'.toNat + 10)
  else none

def isDigit (base : ℕ) (c : Char) : Bool :=
  match digitVal c with
  | some d => d < base
  | none => false

/-- digits with single underscores between them, none at either end; `none` unless all characters are used -/
def digits (base : ℕ) : List Char → Option (List ℕ)
  | [] => none
  | [c] => if isDigit base c then (digitVal c).map ([·]) else none
  | c :: d :: rest =>
    if ¬ isDigit base c then none
    else if d = '_' then (digits base rest).bind (fun ds => (digitVal c).map (· :: ds))
    else (digits base (d :: rest)).bind (fun ds => (digitVal c).map (· :: ds))

/-- the number a list of digits writes, most significant first -/
def ofDigits (base : ℕ) (ds : List ℕ) : ℕ := ds.foldl (fun n d => base * n + d) 0

/-- what may stand before the digits in base 16: `0x` and one underscore after it -/
def dropHexMark : List Char → List Char
  | '0' :: x :: '_' :: rest => if x = 'x' ∨ x = 'X' then rest else '0' :: x :: '_' :: rest
  | '0' :: x :: rest => if x = 'x' ∨ x = 'X' then rest else '0' :: x :: rest
  | s => s

/-- the sign and what follows it -/
def splitSign : List Char → Bool × List Char
  | '-' :: rest => (true, rest)
  | '+' :: rest => (false, rest)
  | s => (false, s)

/-- digits past which `int` refuses a text in a base that is not a power of two -/
def maxStrDigits : ℕ := 4300

/-- `int(text, base)` for base 10 or 16; `none` is `ValueError` -/
def parseInt (base : ℕ) (s : List Char) : Option ℤ :=
  let body := ((s.map asciiChar).dropWhile isBlank).reverse.dropWhile isBlank |>.reverse
  let (negative, rest) := splitSign body
  match digits base (if base = 16 then dropHexMark rest else rest) with
  | none => none
  | some ds =>
    if base = 10 ∧ maxStrDigits < ds.length then none
    else some (if negative then -(ofDigits base ds : ℤ) else ofDigits base ds)

example : parseInt 10 " 0042 ".toList = some 42 := by decide
example : parseInt 16 "0x_0A".toList = some 10 := by decide
example : parseInt 10 "1__0".toList = none := by decide

end Teardrop.PyText
