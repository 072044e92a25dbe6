/-
Two of Python's operations on numbers that come as JSON: `int(text, 16)` and `==`.

`int` takes blanks around the digits, a sign, a `0x`, and single underscores between digits; decimal digits above ASCII
count too (`decimal` gives their values). `==` compares numbers by value across `bool`, `int` and `float`, dicts without
regard to order, and NaN with itself only inside a container, where the scanner's one NaN object is found by identity.
-/
import Teardrop.Core.PyJson

namespace Teardrop.PyNumber

open PyJson

section Base16

variable (decimal : PyChar → Option ℕ)

/-- the value of a digit in base 16 -/
def digitValue (c : PyChar) : Option ℕ := if c.isAscii then hexVal c else decimal c

/-- the digits, read after a digit or not -/
def magnitude : Bool → ℕ → PyStr → Option ℕ
  | afterDigit, n, [] => if afterDigit then some n else none
  | afterDigit, n, c :: rest =>
    if c = '_' then if afterDigit then magnitude false n rest else none
    else
      match digitValue decimal c with
      | some d => magnitude true (16 * n + d) rest
      | none => none

/-- `0x`, after which one underscore may stand -/
def dropMark : PyStr → PyStr
  | c :: d :: rest =>
    if c = '0' ∧ (d = 'x' ∨ d = 'X') then
      match rest with
      | e :: rest => if e = '_' then rest else e :: rest
      | [] => []
    else c :: d :: rest
  | s => s

def isAsciiBlank (c : PyChar) : Bool := (9 ≤ c.val && c.val ≤ 13) || c.val = 32

/-- blanks at both ends; ASCII text is not looked at as Unicode -/
def trim (s : PyStr) : PyStr :=
  if s.all PyChar.isAscii then ((s.dropWhile isAsciiBlank).reverse.dropWhile isAsciiBlank).reverse else s.strip

/-- `int(text, 16)` -/
def ofBase16 (s : PyStr) : Option ℤ :=
  match trim s with
  | [] => none
  | c :: rest =>
    if c = '-' then (magnitude decimal false 0 (dropMark rest)).map (fun n => -(n : ℤ))
    else if c = '+' then (magnitude decimal false 0 (dropMark rest)).map (fun n => (n : ℤ))
    else (magnitude decimal false 0 (dropMark (c :: rest))).map (fun n => (n : ℤ))

end Base16

example : ofBase16 (fun _ => none) (PyStr.ofString "0x1B_4") = some 436 := by decide

example : ofBase16 (fun _ => none) (PyStr.ofString "latest") = none := by decide

/-- a number in units of 2^-1074 -/
def number : PyJson → Option ℤ
  | .bool b => some (if b then 2 ^ 1074 else 0)
  | .int n => some (n * 2 ^ 1074)
  | .float (.finite negative k) => some (if negative then -(Double.units k : ℤ) else Double.units k)
  | _ => none

/-- two values that hold no others; `inside` says that they stand in a container -/
def scalarEq (inside : Bool) (v w : PyJson) : Bool :=
  match v, w with
  | .null, .null => true
  | .str s, .str t => s = t
  | .float (.inf a), .float (.inf b) => a = b
  | .float .nan, .float .nan => inside
  | v, w =>
    match number v, number w with
    | some m, some n => m = n
    | _, _ => false

mutual
/-- `==` -/
def pyEq (inside : Bool) : PyJson → PyJson → Bool
  | .arr vs, .arr ws => pyEqItems vs ws
  | .obj fs, .obj gs => fs.length = gs.length && pyEqFields fs gs
  | .null, w => scalarEq inside .null w
  | .bool b, w => scalarEq inside (.bool b) w
  | .int n, w => scalarEq inside (.int n) w
  | .float x, w => scalarEq inside (.float x) w
  | .str s, w => scalarEq inside (.str s) w
  | .arr _, _ => false
  | .obj _, _ => false

def pyEqItems : List PyJson → List PyJson → Bool
  | [], [] => true
  | v :: vs, w :: ws => pyEq true v w && pyEqItems vs ws
  | _, _ => false

def pyEqFields : List (PyStr × PyJson) → List (PyStr × PyJson) → Bool
  | [], _ => true
  | (k, v) :: fs, gs =>
    (match lookup k gs with
      | some w => pyEq true v w
      | none => false) && pyEqFields fs gs
end

end Teardrop.PyNumber
