/-
`base64.urlsafe_b64encode(raw).rstrip(b"=")` and its reading: the alphabet with `-` and `_`, without pads; the reader
puts the pads back, wants ASCII, and otherwise reads as `b64decode` does (other characters are skipped, `+` and `/` are
read too).
-/
import Teardrop.Core.Base64
import Teardrop.Core.JsonText

namespace Teardrop.Base64

open Py PyJson List

/-- the standard alphabet as the URL-safe one -/
def urlChar (c : Char) : Char := if c = '+' then '-' else if c = '/' then '_' else c

/-- and back -/
def plainChar (c : Char) : Char := if c = '-' then '+' else if c = '_' then '/' else c

/-- `rstrip(b"=")` -/
def stripPads (cs : List Char) : List Char := (cs.reverse.dropWhile (· = '=')).reverse

def b64url (raw : List UInt8) : PyStr := (stripPads ((encodeBytes raw).map urlChar)).map PyChar.ofChar

/-- `"=" * (-len(text) % 4)` -/
def pads (n : ℕ) : PyStr := List.replicate ((4 - n % 4) % 4) (PyChar.ofChar '=')

def b64urlDecode (text : PyStr) : Call (List UInt8) :=
  let padded := text ++ pads text.length
  if padded.all PyChar.isAscii then decodeFrom ⟨0, 0, 0⟩ (padded.map (fun c => plainChar (toChar c)))
  else .error (.valueError "string argument should contain only ASCII characters")

/-! ## Round trip -/

/-- a character of the URL-safe alphabet, and what it stands for -/
structure Safe (c : Char) : Prop where
  plain : plainChar (urlChar c) = c
  noPad : urlChar c ≠ '='
  noBar : urlChar c ≠ '|'
  ascii : (urlChar c).toNat < 128

theorem safe_letter : ∀ v < 64, Safe (letter v) := by
  have h : ∀ v < 64, plainChar (urlChar (letter v)) = letter v ∧ urlChar (letter v) ≠ '=' ∧ urlChar (letter v) ≠ '|' ∧
      (urlChar (letter v)).toNat < 128 := by decide
  intro v hv
  obtain ⟨h1, h2, h3, h4⟩ := h v hv
  exact ⟨h1, h2, h3, h4⟩

variable (data : List UInt8)

theorem encodeBytes_split : ∃ core, (∀ c ∈ core, Safe c) ∧
    encodeBytes data = core ++ replicate ((4 - core.length % 4) % 4) '=' := by
  induction data using encodeBytes.induct with
  | case1 => exact ⟨[], by simp, rfl⟩
  | case2 a =>
    have ha := a.toNat_lt
    refine ⟨[letter (a.toNat / 4), letter (a.toNat % 4 * 16)], ?_, rfl⟩
    simp only [forall_mem_cons]
    exact ⟨safe_letter _ (by omega), safe_letter _ (by omega), by simp⟩
  | case3 a b =>
    have ha := a.toNat_lt
    have hb := b.toNat_lt
    refine ⟨[letter (a.toNat / 4), letter (a.toNat % 4 * 16 + b.toNat / 16), letter (b.toNat % 16 * 4)], ?_, rfl⟩
    simp only [forall_mem_cons]
    exact ⟨safe_letter _ (by omega), safe_letter _ (by omega), safe_letter _ (by omega), by simp⟩
  | case4 a b c rest ih =>
    have ha := a.toNat_lt
    have hb := b.toNat_lt
    have hc := c.toNat_lt
    obtain ⟨core, hsafe, hsplit⟩ := ih
    refine ⟨letter (a.toNat / 4) :: letter (a.toNat % 4 * 16 + b.toNat / 16) ::
      letter (b.toNat % 16 * 4 + c.toNat / 64) :: letter (c.toNat % 64) :: core, ?_, ?_⟩
    · simp only [forall_mem_cons]
      exact ⟨safe_letter _ (by omega), safe_letter _ (by omega), safe_letter _ (by omega), safe_letter _ (by omega), hsafe⟩
    · have hlen : (core.length + 1 + 1 + 1 + 1) % 4 = core.length % 4 := by omega
      simp [encodeBytes, hsplit, hlen]

theorem stripPads_append {core : List Char} (h : ∀ c ∈ core, c ≠ '=') (n : ℕ) :
    stripPads (core ++ replicate n '=') = core := by
  have hpads : ∀ c ∈ replicate n '=', (decide (c = '=')) = true := by
    intro c hc
    rw [eq_of_mem_replicate hc]
    rfl
  have hcore : core.reverse.dropWhile (fun c => decide (c = '=')) = core.reverse := by
    have hrev : ∀ c ∈ core.reverse, c ≠ '=' := fun c hc => h c (mem_reverse.mp hc)
    cases hcs : core.reverse with
    | nil => rfl
    | cons c cs =>
      rw [dropWhile_cons_of_neg]
      simpa using hrev c (by simp [hcs])
  rw [stripPads, reverse_append, reverse_replicate, dropWhile_append_of_pos hpads, hcore, reverse_reverse]

/-- what the encoded text is: safe letters only, which stand for the bytes once the pads are back -/
theorem b64url_spec : ∃ core : List Char, (∀ c ∈ core, Safe c) ∧
    b64url data = (core.map urlChar).map PyChar.ofChar ∧
    encodeBytes data = core ++ replicate ((4 - core.length % 4) % 4) '=' := by
  obtain ⟨core, hsafe, hsplit⟩ := encodeBytes_split data
  refine ⟨core, hsafe, ?_, hsplit⟩
  have hpads : ∀ c ∈ core.map urlChar, c ≠ '=' := by
    intro c hc
    obtain ⟨d, hd, rfl⟩ := mem_map.mp hc
    exact (hsafe d hd).noPad
  rw [b64url, hsplit, map_append, map_replicate, show urlChar '=' = '=' from rfl, stripPads_append hpads]

/-- **Round trip.** What was encoded is decoded. -/
theorem b64urlDecode_b64url : b64urlDecode (b64url data) = .ok data := by
  obtain ⟨core, hsafe, htext, hbytes⟩ := b64url_spec data
  have hlen : (b64url data).length = core.length := by rw [htext, length_map, length_map]
  have hascii : (b64url data ++ pads (b64url data).length).all PyChar.isAscii = true := by
    rw [all_eq_true]
    intro c hc
    rcases mem_append.mp hc with hc | hc
    · rw [htext, map_map] at hc
      obtain ⟨d, hd, rfl⟩ := mem_map.mp hc
      exact decide_eq_true (hsafe d hd).ascii
    · rw [eq_of_mem_replicate hc]
      decide
  have hplain : (b64url data ++ pads (b64url data).length).map (fun c => plainChar (toChar c)) = encodeBytes data := by
    rw [hlen, map_append, htext, hbytes, pads, map_replicate, map_map, map_map]
    congr 1
    calc core.map ((fun c => plainChar (toChar c)) ∘ PyChar.ofChar ∘ urlChar)
        = core.map id := map_congr_left (fun c hc => by
          simp [toChar_ofChar, (hsafe c hc).plain])
      _ = core := map_id core
  rw [b64urlDecode]
  simp [hascii, hplain, decodeFrom_encodeBytes]

theorem b64url_inj {a b : List UInt8} (h : b64url a = b64url b) : a = b := by
  have hdecoded := b64urlDecode_b64url a
  rw [h, b64urlDecode_b64url] at hdecoded
  exact (Except.ok.inj hdecoded).symm

/-- a text of bytes has no `|` and is ASCII -/
theorem b64url_no_bar : ∀ c ∈ b64url data, c ≠ PyChar.ofChar '|' ∧ c.isAscii = true := by
  obtain ⟨core, hsafe, htext, -⟩ := b64url_spec data
  intro c hc
  rw [htext, map_map] at hc
  obtain ⟨d, hd, rfl⟩ := mem_map.mp hc
  exact ⟨fun h => (hsafe d hd).noBar (PyChar.ofChar_inj h), decide_eq_true (hsafe d hd).ascii⟩

example : b64url [0x7b, 0x22, 0x61, 0x22, 0x3a, 0x31, 0x7d] = PyStr.ofString "eyJhIjoxfQ" := by decide

end Teardrop.Base64
