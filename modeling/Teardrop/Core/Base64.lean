/-
Python's `base64.b64encode(data)` and `base64.b64decode(text)`, the latter without validation: the text must be ASCII; characters outside the alphabet are
skipped; six bits at a time give bytes; a pad sequence that completes a quad ends the data; a quad left open at the end
is an error.
-/
import Teardrop.Core.Py

namespace Teardrop.Base64

open Teardrop.Py

/-- the six bits of a character of the alphabet -/
def sextet (c : Char) : Option ℕ :=
  if 'A' ≤ c ∧ c ≤ 'Z' then some (c.toNat - 'A'.toNat)
  else if 'a' ≤ c ∧ c ≤ 'z' then some (c.toNat - 'a'.toNat + 26)
  else if '0' ≤ c ∧ c ≤ '9' then some (c.toNat - '0'.toNat + 52)
  else if c = '+' then some 62
  else if c = '/' then some 63
  else none

/-- what is left of the current quad: how many sextets were taken, the bits not yet given out, and the pads seen -/
structure Quad where
  pos : ℕ
  left : ℕ
  pads : ℕ

/-- a sextet in a quad: the byte it completes, if any, and the quad after it -/
def Quad.push (q : Quad) (v : ℕ) : Option UInt8 × Quad :=
  match q.pos with
  | 0 => (none, ⟨1, v, 0⟩)
  | 1 => (some (UInt8.ofNat (q.left * 4 + v / 16)), ⟨2, v % 16, 0⟩)
  | 2 => (some (UInt8.ofNat (q.left * 16 + v / 4)), ⟨3, v % 4, 0⟩)
  | _ => (some (UInt8.ofNat (q.left * 64 + v)), ⟨0, 0, 0⟩)

/-- `binascii.a2b_base64` -/
def decodeFrom : Quad → List Char → Call (List UInt8)
  | q, [] => if q.pos = 0 then .ok [] else .error (.valueError "Incorrect padding")
  | q, c :: rest =>
    if c = '=' then
      if 2 ≤ q.pos ∧ 4 ≤ q.pos + (q.pads + 1) then .ok []
      else decodeFrom { q with pads := if 2 ≤ q.pos then q.pads + 1 else q.pads } rest
    else match sextet c with
      | none => decodeFrom q rest
      | some v =>
        match q.push v with
        | (none, q') => decodeFrom q' rest
        | (some b, q') => (decodeFrom q' rest).map (b :: ·)

/-- `base64.b64decode(text)` -/
def b64decode (text : String) : Call (List UInt8) :=
  if text.toList.all (fun c => c.toNat < 128) then decodeFrom ⟨0, 0, 0⟩ text.toList
  else .error (.valueError "string argument should contain only ASCII characters")

/-- the character of six bits -/
def letter (v : ℕ) : Char :=
  if v < 26 then Char.ofNat ('A'.toNat + v)
  else if v < 52 then Char.ofNat ('a'.toNat + (v - 26))
  else if v < 62 then Char.ofNat ('0'.toNat + (v - 52))
  else if v = 62 then '+'
  else '/'

/-- the characters of a list of bytes, three at a time -/
def encodeBytes : List UInt8 → List Char
  | [] => []
  | [a] => [letter (a.toNat / 4), letter (a.toNat % 4 * 16), '=', '=']
  | [a, b] => [letter (a.toNat / 4), letter (a.toNat % 4 * 16 + b.toNat / 16), letter (b.toNat % 16 * 4), '=']
  | a :: b :: c :: rest =>
    letter (a.toNat / 4) :: letter (a.toNat % 4 * 16 + b.toNat / 16) :: letter (b.toNat % 16 * 4 + c.toNat / 64) ::
      letter (c.toNat % 64) :: encodeBytes rest

/-- `base64.b64encode(data).decode()` -/
def b64encode (data : List UInt8) : String := String.ofList (encodeBytes data)

/-! ## Round trip -/

theorem letter_spec : ∀ v < 64, sextet (letter v) = some v ∧ letter v ≠ '=' ∧ (letter v).toNat < 128 := by
  decide

theorem decodeFrom_letter (q : Quad) {v : ℕ} (hv : v < 64) (rest : List Char) :
    decodeFrom q (letter v :: rest) = match q.push v with
      | (none, q') => decodeFrom q' rest
      | (some b, q') => (decodeFrom q' rest).map (b :: ·) := by
  obtain ⟨hs, hpad, _⟩ := letter_spec v hv
  rw [decodeFrom, if_neg hpad, hs]

theorem ofNat_toNat_eq {n : ℕ} {a : UInt8} (h : n = a.toNat) : UInt8.ofNat n = a := by
  rw [h, UInt8.ofNat_toNat]

theorem decodeFrom_encodeBytes (data : List UInt8) : decodeFrom ⟨0, 0, 0⟩ (encodeBytes data) = .ok data := by
  induction data using encodeBytes.induct with
  | case1 => rfl
  | case2 a =>
    have ha := a.toNat_lt
    have hb : UInt8.ofNat (a.toNat / 4 * 4 + a.toNat % 4 * 16 / 16) = a := ofNat_toNat_eq (by omega)
    rw [encodeBytes, decodeFrom_letter _ (by omega), Quad.push]
    simp only
    rw [decodeFrom_letter _ (by omega), Quad.push]
    simp only [hb]
    rfl
  | case3 a b =>
    have ha := a.toNat_lt
    have hb := b.toNat_lt
    have h₁ : UInt8.ofNat (a.toNat / 4 * 4 + (a.toNat % 4 * 16 + b.toNat / 16) / 16) = a := ofNat_toNat_eq (by omega)
    have h₂ : UInt8.ofNat ((a.toNat % 4 * 16 + b.toNat / 16) % 16 * 16 + b.toNat % 16 * 4 / 4) = b :=
      ofNat_toNat_eq (by omega)
    rw [encodeBytes, decodeFrom_letter _ (by omega), Quad.push]
    simp only
    rw [decodeFrom_letter _ (by omega), Quad.push]
    simp only [h₁]
    rw [decodeFrom_letter _ (by omega), Quad.push]
    simp only [h₂]
    rfl
  | case4 a b c rest ih =>
    have ha := a.toNat_lt
    have hb := b.toNat_lt
    have hc := c.toNat_lt
    have h₁ : UInt8.ofNat (a.toNat / 4 * 4 + (a.toNat % 4 * 16 + b.toNat / 16) / 16) = a := ofNat_toNat_eq (by omega)
    have h₂ : UInt8.ofNat ((a.toNat % 4 * 16 + b.toNat / 16) % 16 * 16 + (b.toNat % 16 * 4 + c.toNat / 64) / 4) = b :=
      ofNat_toNat_eq (by omega)
    have h₃ : UInt8.ofNat ((b.toNat % 16 * 4 + c.toNat / 64) % 4 * 64 + c.toNat % 64) = c := ofNat_toNat_eq (by omega)
    rw [encodeBytes, decodeFrom_letter _ (by omega), Quad.push]
    simp only
    rw [decodeFrom_letter _ (by omega), Quad.push]
    simp only [h₁]
    rw [decodeFrom_letter _ (by omega), Quad.push]
    simp only [h₂]
    rw [decodeFrom_letter _ (by omega), Quad.push]
    simp only [h₃]
    rw [ih]
    rfl

theorem encodeBytes_ascii (data : List UInt8) : ∀ c ∈ encodeBytes data, c.toNat < 128 := by
  have hletter : ∀ v < 64, (letter v).toNat < 128 := fun v hv => (letter_spec v hv).2.2
  induction data using encodeBytes.induct with
  | case1 => simp [encodeBytes]
  | case2 a =>
    have ha := a.toNat_lt
    simp only [encodeBytes, List.forall_mem_cons]
    exact ⟨hletter _ (by omega), hletter _ (by omega), by decide, by decide, by simp⟩
  | case3 a b =>
    have ha := a.toNat_lt
    have hb := b.toNat_lt
    simp only [encodeBytes, List.forall_mem_cons]
    exact ⟨hletter _ (by omega), hletter _ (by omega), hletter _ (by omega), by decide, by simp⟩
  | case4 a b c rest ih =>
    have ha := a.toNat_lt
    have hb := b.toNat_lt
    have hc := c.toNat_lt
    simp only [encodeBytes, List.forall_mem_cons]
    exact ⟨hletter _ (by omega), hletter _ (by omega), hletter _ (by omega), hletter _ (by omega), ih⟩

/-- **Round trip.** What was encoded is decoded. -/
theorem b64decode_b64encode (data : List UInt8) : b64decode (b64encode data) = .ok data := by
  have hascii : (b64encode data).toList.all (fun c => c.toNat < 128) = true := by
    rw [List.all_eq_true]
    intro c hc
    rw [b64encode, String.toList_ofList] at hc
    exact decide_eq_true (encodeBytes_ascii data c hc)
  rw [b64decode, if_pos hascii, b64encode, String.toList_ofList, decodeFrom_encodeBytes]

theorem head_of_b64decode {text : String} {c d : Char} {rest : List Char} {v w : ℕ} {bytes : List UInt8}
    (htext : text.toList = c :: d :: rest) (hc : sextet c = some v) (hd : sextet d = some w) (hpad : c ≠ '=' ∧ d ≠ '=')
    (h : b64decode text = .ok bytes) : bytes.head? = some (UInt8.ofNat (v * 4 + w / 16)) := by
  unfold b64decode at h
  split_ifs at h
  rw [htext, decodeFrom, if_neg hpad.1, hc] at h
  simp only [Quad.push] at h
  rw [decodeFrom, if_neg hpad.2, hd] at h
  simp only [Quad.push] at h
  cases hrest : decodeFrom ⟨2, w % 16, 0⟩ rest with
  | error e => rw [hrest] at h; cases h
  | ok bs =>
    rw [hrest] at h
    cases h
    rfl

example : b64encode [0x7b, 0x22, 0x61, 0x22, 0x3a, 0x31, 0x7d] = "eyJhIjoxfQ==" := by decide
example : b64decode "eyJh\nIjoxfQ==" = .ok [0x7b, 0x22, 0x61, 0x22, 0x3a, 0x31, 0x7d] := by decide

end Teardrop.Base64
