/-
JSON values as Python holds them after `json.loads`: a number without fraction or exponent is an `int`, any other one a
`float`, an object a `dict` (of duplicate keys the parser has kept the last, so keys are looked up in a list without
duplicates). `truthy` is Python's truth value, `toInt` is `int(value)` and `toStr` is `str(value)`; the texts `str`
gives to values that are not strings are a parameter, as nothing here depends on them.
-/
import Teardrop.Core.Py
import Teardrop.Core.PyText

namespace Teardrop

open Teardrop.Py

/-- a Python float: finite ones by their exact value -/
inductive PyFloat where
  | finite (q : ℚ)
  | inf (negative : Bool)
  | nan

inductive Json where
  | null
  | bool (b : Bool)
  | int (n : ℤ)
  | float (x : PyFloat)
  | str (s : String)
  | arr (items : List Json)
  | obj (fields : List (String × Json))

namespace Json

/-- `isinstance(value, dict)` -/
def isDict : Json → Bool
  | .obj _ => true
  | _ => false

/-- the value a dict holds under a key -/
def lookup (fields : List (String × Json)) (k : String) : Option Json :=
  (fields.find? (fun p => p.1 = k)).map Prod.snd

/-- `value[k]` for a dict; `value.get(k)` of anything else would raise `AttributeError` -/
def get? (j : Json) (k : String) : Option Json :=
  match j with
  | .obj fields => lookup fields k
  | _ => none

/-- Python's truth value -/
def truthy : Json → Bool
  | .null => false
  | .bool b => b
  | .int n => n ≠ 0
  | .float (.finite q) => q ≠ 0
  | .float _ => true
  | .str s => s ≠ ""
  | .arr items => !items.isEmpty
  | .obj fields => !fields.isEmpty

/-- `str(value)`; `repr` writes the values that are not strings -/
def toStr (repr : Json → String) : Json → String
  | .str s => s
  | j => repr j

/-- truncation towards zero -/
def truncate (q : ℚ) : ℤ := if 0 ≤ q then ⌊q⌋ else ⌈q⌉

/-- `int(value)` -/
def toInt : Json → Call ℤ
  | .bool b => .ok (if b then 1 else 0)
  | .int n => .ok n
  | .float (.finite q) => .ok (truncate q)
  | .float (.inf _) => .error .overflowError
  | .float .nan => .error (.valueError "cannot convert float NaN to integer")
  | .str s =>
    match PyText.parseInt 10 s.toList with
    | some n => .ok n
    | none => .error (.valueError "invalid literal for int() with base 10")
  | _ => .error .typeError

end Json

end Teardrop
