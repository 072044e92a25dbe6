/-
SHA-256 of a list of bytes, on natural numbers below 2^32: the schedule of 64 words of a block, 64 rounds, and the eight
words of the state written as hexadecimal digits (`hashlib.sha256(data).hexdigest()`).
-/
import Teardrop.Core.Hex

namespace Teardrop.Sha256

open Teardrop.Hex

def rotr (x n : ℕ) : ℕ := (x >>> n) ||| ((x <<< (32 - n)) % 2 ^ 32)

def bigSigma0 (x : ℕ) : ℕ := rotr x 2 ^^^ rotr x 13 ^^^ rotr x 22
def bigSigma1 (x : ℕ) : ℕ := rotr x 6 ^^^ rotr x 11 ^^^ rotr x 25
def smallSigma0 (x : ℕ) : ℕ := rotr x 7 ^^^ rotr x 18 ^^^ (x >>> 3)
def smallSigma1 (x : ℕ) : ℕ := rotr x 17 ^^^ rotr x 19 ^^^ (x >>> 10)

/-- the bits of `f` where `e` has a one, else those of `g` -/
def choose (e f g : ℕ) : ℕ := (e &&& f) ^^^ ((2 ^ 32 - 1 - e) &&& g)

def majority (a b c : ℕ) : ℕ := (a &&& b) ^^^ (a &&& c) ^^^ (b &&& c)

/-- the round constants -/
def constants : List ℕ :=
  [0x428a2f98, 0x71374491, 0xb5c0fbcf, 0xe9b5dba5, 0x3956c25b, 0x59f111f1, 0x923f82a4, 0xab1c5ed5,
   0xd807aa98, 0x12835b01, 0x243185be, 0x550c7dc3, 0x72be5d74, 0x80deb1fe, 0x9bdc06a7, 0xc19bf174,
   0xe49b69c1, 0xefbe4786, 0x0fc19dc6, 0x240ca1cc, 0x2de92c6f, 0x4a7484aa, 0x5cb0a9dc, 0x76f988da,
   0x983e5152, 0xa831c66d, 0xb00327c8, 0xbf597fc7, 0xc6e00bf3, 0xd5a79147, 0x06ca6351, 0x14292967,
   0x27b70a85, 0x2e1b2138, 0x4d2c6dfc, 0x53380d13, 0x650a7354, 0x766a0abb, 0x81c2c92e, 0x92722c85,
   0xa2bfe8a1, 0xa81a664b, 0xc24b8b70, 0xc76c51a3, 0xd192e819, 0xd6990624, 0xf40e3585, 0x106aa070,
   0x19a4c116, 0x1e376c08, 0x2748774c, 0x34b0bcb5, 0x391c0cb3, 0x4ed8aa4a, 0x5b9cca4f, 0x682e6ff3,
   0x748f82ee, 0x78a5636f, 0x84c87814, 0x8cc70208, 0x90befffa, 0xa4506ceb, 0xbef9a3f7, 0xc67178f2]

structure State where
  a : ℕ
  b : ℕ
  c : ℕ
  d : ℕ
  e : ℕ
  f : ℕ
  g : ℕ
  h : ℕ

def initial : State :=
  ⟨0x6a09e667, 0xbb67ae85, 0x3c6ef372, 0xa54ff53a, 0x510e527f, 0x9b05688c, 0x1f83d9ab, 0x5be0cd19⟩

/-- the next word of the schedule, from the last sixteen, newest first -/
def nextWord (window : List ℕ) : ℕ :=
  (smallSigma1 (window.getD 1 0) + window.getD 6 0 + smallSigma0 (window.getD 14 0) + window.getD 15 0) % 2 ^ 32

/-- `n` more words of the schedule of a block, newest first -/
def extend : ℕ → List ℕ → List ℕ
  | 0, ws => ws
  | n + 1, ws => extend n (nextWord ws :: ws)

def round (s : State) (k w : ℕ) : State :=
  let t1 := s.h + bigSigma1 s.e + choose s.e s.f s.g + k + w
  let t2 := bigSigma0 s.a + majority s.a s.b s.c
  ⟨(t1 + t2) % 2 ^ 32, s.a, s.b, s.c, (s.d + t1) % 2 ^ 32, s.e, s.f, s.g⟩

/-- one block of sixteen words -/
def compress (s : State) (block : List ℕ) : State :=
  let ws := (extend 48 block.reverse).reverse
  let t := (constants.zip ws).foldl (fun s kw => round s kw.1 kw.2) s
  ⟨(s.a + t.a) % 2 ^ 32, (s.b + t.b) % 2 ^ 32, (s.c + t.c) % 2 ^ 32, (s.d + t.d) % 2 ^ 32,
   (s.e + t.e) % 2 ^ 32, (s.f + t.f) % 2 ^ 32, (s.g + t.g) % 2 ^ 32, (s.h + t.h) % 2 ^ 32⟩

/-- big-endian words of four bytes -/
def words : List UInt8 → List ℕ
  | a :: b :: c :: d :: rest => (a.toNat * 2 ^ 24 + b.toNat * 2 ^ 16 + c.toNat * 2 ^ 8 + d.toNat) :: words rest
  | _ => []

/-- a one bit, zeros, and the length in bits, to a multiple of 64 bytes -/
def pad (data : List UInt8) : List UInt8 :=
  let zeros := (119 - data.length % 64) % 64
  data ++ 0x80 :: List.replicate zeros 0 ++ (List.range 8).map (fun i => UInt8.ofNat (data.length * 8 / 256 ^ (7 - i)))

/-- `n` blocks of a list of words -/
def blocks : ℕ → List ℕ → State → State
  | 0, _, s => s
  | n + 1, ws, s => blocks n (ws.drop 16) (compress s (ws.take 16))

/-- the eight hexadecimal digits of a word -/
def wordDigits (w : ℕ) : List Char := (List.range 8).map (fun i => hexDigit (w / 16 ^ (7 - i) % 16))

/-- `hashlib.sha256(data).hexdigest()` -/
def hexdigest (data : List UInt8) : String :=
  let ws := words (pad data)
  let s := blocks (ws.length / 16) ws initial
  String.ofList ([s.a, s.b, s.c, s.d, s.e, s.f, s.g, s.h].flatMap wordDigits)

example : hexdigest [0x61, 0x62, 0x63] = "ba7816bf8f01cfea414140de5dae2223b00361a396177a9cb410ff61f20015ad" := by
  decide +kernel

end Teardrop.Sha256
