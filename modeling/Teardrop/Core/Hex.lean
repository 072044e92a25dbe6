/-
Hexadecimal text as Python reads and writes it: `bytes.fromhex` and `bytes.hex`. `fromhex` takes pairs of hexadecimal digits of
either case, skips ASCII whitespace before each pair and at the end, and raises `ValueError` on anything else.
-/
import Mathlib

namespace Teardrop.Hex

abbrev Bytes := List UInt8

/-- the characters `Py_ISSPACE` accepts -/
def isSpace (c : Char) : Bool := c ∈ [' ', '\t', '\n', '\x0b', '\x0c', '\r']

/-- the value of a hexadecimal digit of either case -/
def hexVal (c : Char) : Option ℕ :=
  if '0' ≤ c ∧ c ≤ '9' then some (c.toNat - '0'.toNat)
  else if 'a' ≤ c ∧ c ≤ 'f' then some (c.toNat - 'a'.toNat + 10)
  else if 'A' ≤ c ∧ c ≤ 'F' then some (c.toNat - 'A'.toNat + 10)
  else none

/-- the lowercase hexadecimal digit of `n < 16` -/
def hexDigit (n : ℕ) : Char := ("0123456789abcdef".toList)[n]?.getD '0'

/-- `bytes.fromhex` on the characters of a text; `none` is its `ValueError` -/
def fromhexChars : List Char → Option Bytes
  | [] => some []
  | [c] => if isSpace c then some [] else none
  | c :: d :: rest =>
    if isSpace c then fromhexChars (d :: rest)
    else match hexVal c, hexVal d with
      | some h, some l => (fromhexChars rest).map (UInt8.ofNat (16 * h + l) :: ·)
      | _, _ => none

def fromhex (s : String) : Option Bytes := fromhexChars s.toList

def hexChars : Bytes → List Char
  | [] => []
  | b :: bs => hexDigit (b.toNat / 16) :: hexDigit (b.toNat % 16) :: hexChars bs

/-- `bytes.hex`, and `hexdigest` of a digest with these bytes -/
def hex (b : Bytes) : String := String.ofList (hexChars b)

variable (n : ℕ) (b : Bytes)

theorem hexVal_hexDigit (h : n < 16) : hexVal (hexDigit n) = some n := by
  interval_cases n <;> decide

theorem hexDigit_not_space (h : n < 16) : isSpace (hexDigit n) = false := by
  interval_cases n <;> decide

theorem fromhexChars_hexChars : fromhexChars (hexChars b) = some b := by
  induction b with
  | nil => rfl
  | cons x xs ih =>
    have hx : x.toNat < 256 := x.toNat_lt
    have h1 : x.toNat / 16 < 16 := by omega
    have h2 : x.toNat % 16 < 16 := by omega
    have h3 : 16 * (x.toNat / 16) + x.toNat % 16 = x.toNat := Nat.div_add_mod _ _
    simp [hexChars, fromhexChars, hexDigit_not_space _ h1, hexVal_hexDigit _ h1, hexVal_hexDigit _ h2, ih, h3]

@[simp] theorem fromhex_hex : fromhex (hex b) = some b := by
  simp [fromhex, hex, fromhexChars_hexChars]

theorem hex_injective : Function.Injective hex := fun a b h => by
  have := congrArg fromhex h
  simpa using this

/-! ## Lowercase text -/

/-- `[0-9a-f]` -/
def isLowerHexDigit (c : Char) : Bool := ('0' ≤ c && c ≤ '9') || ('a' ≤ c && c ≤ 'f')

theorem isLowerHexDigit_hexDigit (h : n < 16) : isLowerHexDigit (hexDigit n) = true := by
  interval_cases n <;> decide

theorem all_hexChars : (hexChars b).all isLowerHexDigit = true := by
  induction b with
  | nil => rfl
  | cons x xs ih =>
    have hx : x.toNat < 256 := x.toNat_lt
    simp only [hexChars, List.all_cons, isLowerHexDigit_hexDigit _ (by omega : x.toNat / 16 < 16),
      isLowerHexDigit_hexDigit _ (by omega : x.toNat % 16 < 16), ih, Bool.and_self]

theorem length_hexChars : (hexChars b).length = 2 * b.length := by
  induction b with
  | nil => rfl
  | cons x xs ih =>
    simp only [hexChars, List.length_cons, ih]
    omega

theorem hexVal_of_lower {c : Char} (h : isLowerHexDigit c = true) : isSpace c = false ∧ ∃ v, hexVal c = some v := by
  simp only [isLowerHexDigit, Bool.or_eq_true, Bool.and_eq_true, decide_eq_true_eq] at h
  constructor
  · rw [← Bool.not_eq_true]
    intro hspace
    simp only [isSpace, decide_eq_true_eq, List.mem_cons, List.not_mem_nil, or_false] at hspace
    rcases hspace with rfl | rfl | rfl | rfl | rfl | rfl <;> revert h <;> decide
  · unfold hexVal
    rcases h with h | h
    · exact ⟨_, if_pos h⟩
    · split_ifs <;> exact ⟨_, rfl⟩

theorem fromhexChars_of_lower : ∀ cs : List Char, cs.length = 2 * n → cs.all isLowerHexDigit = true →
    ∃ b, fromhexChars cs = some b := by
  induction n with
  | zero =>
    intro cs hlen _
    obtain rfl := List.length_eq_zero_iff.1 hlen
    exact ⟨[], rfl⟩
  | succ n ih =>
    intro cs hlen hall
    match cs, hlen with
    | [], hlen => simp at hlen
    | [_], hlen => simp at hlen; omega
    | c :: d :: cs, hlen =>
      simp only [List.all_cons, Bool.and_eq_true] at hall
      obtain ⟨hc, hd, hrest⟩ := hall
      obtain ⟨b, hb⟩ := ih cs (by simp only [List.length_cons] at hlen; omega) hrest
      obtain ⟨hspace, v, hv⟩ := hexVal_of_lower hc
      obtain ⟨-, u, hu⟩ := hexVal_of_lower hd
      exact ⟨UInt8.ofNat (16 * v + u) :: b, by simp [fromhexChars, hspace, hv, hu, hb]⟩

end Teardrop.Hex
