/-
JSON values with Python's strings and floats, and their texts: `json.dumps` and `json.loads`.

`render` writes a value, escaping to ASCII or not, with blanks after the separators or not; `canon` is `sort_keys`. `loads` is the
scanner of CPython's C module: strict strings with joined surrogate pairs, the constants NaN and Infinity, the last of
duplicate keys. Both ends have the interpreter's limits: containers nested deeper than the recursion limit (`RecursionError`)
and integers of more than 4300 digits (`ValueError`).
-/
import Teardrop.Core.PyStr
import Teardrop.Core.Double

namespace Teardrop

inductive PyJson where
  | null
  | bool (b : Bool)
  | int (n : ℤ)
  | float (x : Double)
  | str (s : PyStr)
  | arr (items : List PyJson)
  | obj (fields : List (PyStr × PyJson))

namespace PyJson

/-! ## Values -/

mutual
def beq : PyJson → PyJson → Bool
  | .null, .null => true
  | .bool a, .bool b => a = b
  | .int m, .int n => m = n
  | .float x, .float y => x = y
  | .str s, .str t => s = t
  | .arr vs, .arr ws => beqItems vs ws
  | .obj fs, .obj gs => beqFields fs gs
  | _, _ => false

def beqItems : List PyJson → List PyJson → Bool
  | [], [] => true
  | v :: vs, w :: ws => beq v w && beqItems vs ws
  | _, _ => false

def beqFields : List (PyStr × PyJson) → List (PyStr × PyJson) → Bool
  | [], [] => true
  | (k, v) :: fs, (l, w) :: gs => k = l && beq v w && beqFields fs gs
  | _, _ => false
end

mutual
theorem beq_iff : ∀ v w, beq v w = true ↔ v = w
  | .arr vs, w => by cases w <;> simp [beq, beqItems_iff vs]
  | .obj fs, w => by cases w <;> simp [beq, beqFields_iff fs]
  | .null, w => by cases w <;> simp [beq]
  | .bool _, w => by cases w <;> simp [beq]
  | .int _, w => by cases w <;> simp [beq]
  | .float _, w => by cases w <;> simp [beq]
  | .str _, w => by cases w <;> simp [beq]

theorem beqItems_iff : ∀ vs ws, beqItems vs ws = true ↔ vs = ws
  | [], ws => by cases ws <;> simp [beqItems]
  | v :: vs, ws => by cases ws <;> simp [beqItems, beq_iff v, beqItems_iff vs]

theorem beqFields_iff : ∀ fs gs, beqFields fs gs = true ↔ fs = gs
  | [], gs => by cases gs <;> simp [beqFields]
  | (k, v) :: fs, gs => by
    cases gs with
    | nil => simp [beqFields]
    | cons g gs => simp [beqFields, beq_iff v, beqFields_iff fs, Prod.ext_iff]
end

instance : DecidableEq PyJson := fun v w => decidable_of_iff _ (beq_iff v w)

/-- `isinstance(value, dict)` -/
def isDict : PyJson → Bool
  | .obj _ => true
  | _ => false

/-- the value a dict holds under a key -/
def lookup (k : PyStr) : List (PyStr × PyJson) → Option PyJson
  | [] => none
  | (k', v) :: fields => if k' = k then some v else lookup k fields

/-- `value.get(k)` of a dict; anything else has no keys -/
def get? (j : PyJson) (k : PyStr) : Option PyJson :=
  match j with
  | .obj fields => lookup k fields
  | _ => none

/-- Python's truth value -/
def truthy : PyJson → Bool
  | .null => false
  | .bool b => b
  | .int n => n ≠ 0
  | .float (.finite _ k) => k.val ≠ 0
  | .float _ => true
  | .str s => s ≠ []
  | .arr items => items.length ≠ 0
  | .obj fields => fields.length ≠ 0

/-- `d[k] = v`: a key keeps its place -/
def insertField (k : PyStr) (v : PyJson) : List (PyStr × PyJson) → List (PyStr × PyJson)
  | [] => [(k, v)]
  | (k', v') :: fields => if k' = k then (k', v) :: fields else (k', v') :: insertField k v fields

/-- a dict from the pairs of its text: of equal keys the first gives the place and the last the value -/
def dictOf (pairs : List (PyStr × PyJson)) : List (PyStr × PyJson) :=
  pairs.foldl (fun fields p => insertField p.1 p.2 fields) []

/-- digits past which an integer is neither read nor written -/
def maxIntDigits : ℕ := 4300

mutual
/-- how deep containers are nested -/
def depth : PyJson → ℕ
  | .arr items => depthItems items + 1
  | .obj fields => depthFields fields + 1
  | _ => 0

def depthItems : List PyJson → ℕ
  | [] => 0
  | v :: vs => max (depth v) (depthItems vs)

def depthFields : List (PyStr × PyJson) → ℕ
  | [] => 0
  | (_, v) :: fields => max (depth v) (depthFields fields)
end

mutual
/-- what every value Python holds satisfies: a dict has one entry for each key; and, of values read from a text, no
integer is longer than `json.loads` reads -/
def Wf : PyJson → Prop
  | .int n => n.natAbs < 10 ^ maxIntDigits
  | .arr items => WfItems items
  | .obj fields => (fields.map Prod.fst).Nodup ∧ WfFields fields
  | _ => True

def WfItems : List PyJson → Prop
  | [] => True
  | v :: vs => Wf v ∧ WfItems vs

def WfFields : List (PyStr × PyJson) → Prop
  | [] => True
  | (_, v) :: fields => Wf v ∧ WfFields fields
end

mutual
/-- keys sorted, in every dict -/
def canon : PyJson → PyJson
  | .arr items => .arr (canonItems items)
  | .obj fields => .obj ((canonFields fields).insertionSort (fun a b => a.1 ≤ b.1))
  | v => v

def canonItems : List PyJson → List PyJson
  | [] => []
  | v :: vs => canon v :: canonItems vs

def canonFields : List (PyStr × PyJson) → List (PyStr × PyJson)
  | [] => []
  | (k, v) :: fields => (k, canon v) :: canonFields fields
end

/-! ## Writing -/

/-- the options of `json.dumps` that change how a value is written -/
structure Style where
  ascii : Bool
  compact : Bool

/-- between items; `separators=(",", ":")` is compact -/
def Style.itemSep (st : Style) : PyStr := if st.compact then [','] else [',', ' ']

def Style.keySep (st : Style) : PyStr := if st.compact then [':'] else [':', ' ']

def hexDigit (n : ℕ) : PyChar := PyChar.ofChar (Nat.digitChar n)

/-- the escape of a code unit -/
def unicodeEscape (n : ℕ) : PyStr :=
  ['\\', 'u', hexDigit (n / 4096 % 16), hexDigit (n / 256 % 16), hexDigit (n / 16 % 16), hexDigit (n % 16)]

/-- the characters with an escape of their own -/
def shortEscapes : List (Char × Char) :=
  [('"', '"'), ('\\', '\\'), ('\n', 'n'), ('\r', 'r'), ('\t', 't'), ('\x0c', 'f'), ('\x08', 'b')]

def escapeChar (ascii : Bool) (c : PyChar) : PyStr :=
  match shortEscapes.find? (fun p => PyChar.ofChar p.1 = c) with
  | some p => ['\\', p.2]
  | none =>
    if c.val < 0x20 then unicodeEscape c.val
    else if ascii && 0x7f ≤ c.val then
      if c.val < 0x10000 then unicodeEscape c.val
      else unicodeEscape (0xd800 + (c.val - 0x10000) / 1024) ++ unicodeEscape (0xdc00 + (c.val - 0x10000) % 1024)
    else [c]

def renderStr (ascii : Bool) (s : PyStr) : PyStr := '"' :: (s.flatMap (escapeChar ascii) ++ (['"'] : PyStr))

def renderNat (n : ℕ) : PyStr := (Nat.toDigits 10 n).map PyChar.ofChar

def sign (negative : Bool) : PyStr := if negative then ['-'] else []

/-- `int.__repr__` -/
def renderInt (n : ℤ) : PyStr := sign (n < 0) ++ renderNat n.natAbs

/-- the exponent of a float, at least two digits -/
def renderExponent (x : ℤ) : PyStr :=
  (['e', PyChar.ofChar (if x < 0 then '-' else '+')] : PyStr) ++ (if x.natAbs < 10 then ['0'] else [] : PyStr) ++
    renderNat x.natAbs

def renderFloatText (t : Double.FloatText) : PyStr :=
  t.whole.map PyChar.ofChar ++ (if t.frac = [] then [] else PyChar.ofChar '.' :: t.frac.map PyChar.ofChar) ++
    t.exponent.elim [] renderExponent

/-- `float.__repr__`, with JSON's names for what is not finite -/
def renderFloat : Double → PyStr
  | .finite negative k => sign negative ++ renderFloatText (Double.textOf k)
  | .inf negative => sign negative ++ PyStr.ofString "Infinity"
  | .nan => PyStr.ofString "NaN"

mutual
/-- the text of a value -/
def render (st : Style) : PyJson → PyStr
  | .null => PyStr.ofString "null"
  | .bool true => PyStr.ofString "true"
  | .bool false => PyStr.ofString "false"
  | .int n => renderInt n
  | .float x => renderFloat x
  | .str s => renderStr st.ascii s
  | .arr [] => ['[', ']']
  | .arr (v :: vs) => '[' :: (render st v ++ renderItems st vs)
  | .obj [] => ['\x7b', '\x7d']
  | .obj ((k, v) :: fields) => '\x7b' :: (renderStr st.ascii k ++ st.keySep ++ render st v ++ renderFields st fields)

/-- the items after the first, and the bracket -/
def renderItems (st : Style) : List PyJson → PyStr
  | [] => [']']
  | v :: vs => st.itemSep ++ render st v ++ renderItems st vs

/-- the entries after the first, and the brace -/
def renderFields (st : Style) : List (PyStr × PyJson) → PyStr
  | [] => ['\x7d']
  | (k, v) :: fields => st.itemSep ++ renderStr st.ascii k ++ st.keySep ++ render st v ++ renderFields st fields
end

/-- what `json.loads` and `json.dumps` raise: `JSONDecodeError` (a `ValueError`, as are the errors of decoding bytes),
`ValueError` for an integer past the digit limit, `RecursionError` -/
inductive JsonError where
  | decode
  | digits
  | recursion
deriving DecidableEq

mutual
/-- every integer can be written -/
def intsFit : PyJson → Bool
  | .int n => n.natAbs < 10 ^ maxIntDigits
  | .arr items => intsFitItems items
  | .obj fields => intsFitFields fields
  | _ => true

def intsFitItems : List PyJson → Bool
  | [] => true
  | v :: vs => intsFit v && intsFitItems vs

def intsFitFields : List (PyStr × PyJson) → Bool
  | [] => true
  | (_, v) :: fields => intsFit v && intsFitFields fields
end

/-- `json.dumps(value, ...)` with `limit` levels of recursion left -/
def dumps (st : Style) (limit : ℕ) (v : PyJson) : Except JsonError PyStr :=
  if limit < depth v then .error .recursion
  else if ¬ intsFit v then .error .digits
  else .ok (render st v)

/-! ## Reading -/

/-- a scanner: what it read and the text after it -/
abbrev Scan (α : Type) := PyStr → Except JsonError (α × PyStr)

def isBlank (c : PyChar) : Bool := c = ' ' || c = '\t' || c = '\n' || c = '\r'

def skipBlanks (s : PyStr) : PyStr := s.dropWhile isBlank

def hexVal (c : PyChar) : Option ℕ :=
  if '0'.toNat ≤ c.val ∧ c.val ≤ '9'.toNat then some (c.val - '0'.toNat)
  else if 'a'.toNat ≤ c.val ∧ c.val ≤ 'f'.toNat then some (c.val - 'a'.toNat + 10)
  else if 'A'.toNat ≤ c.val ∧ c.val ≤ 'F'.toNat then some (c.val - 'A'.toNat + 10)
  else none

/-- four hexadecimal digits -/
def hex4 : PyStr → Option (PyChar × PyStr)
  | a :: b :: c :: d :: rest => do
    let n := (((← hexVal a) * 16 + (← hexVal b)) * 16 + (← hexVal c)) * 16 + (← hexVal d)
    if h : n < 0x110000 then some (⟨n, h⟩, rest) else none
  | _ => none

def isHigh (c : PyChar) : Bool := 0xd800 ≤ c.val && c.val ≤ 0xdbff

def isLow (c : PyChar) : Bool := 0xdc00 ≤ c.val && c.val ≤ 0xdfff

/-- the character a surrogate pair stands for -/
def joined (high low : PyChar) : PyChar :=
  if h : isHigh high ∧ isLow low then ⟨0x10000 + (high.val - 0xd800) * 1024 + (low.val - 0xdc00), by
    simp only [isHigh, isLow, Bool.and_eq_true, decide_eq_true_eq] at h
    omega⟩
  else low

/-- the character after a backslash, its second half if it is one of a pair included -/
def scanEscape : PyStr → Option (PyChar × PyStr)
  | [] => none
  | e :: rest =>
    if e = 'u' then do
      let (c, after) ← hex4 rest
      if isHigh c then
        match after with
        | b :: u :: more =>
          if b = '\\' ∧ u = 'u' then do
            let (d, after') ← hex4 more
            if isLow d then some (joined c d, after') else some (c, after)
          else some (c, after)
        | _ => some (c, after)
      else some (c, after)
    else if e = '/' then some (e, rest)
    else (shortEscapes.find? (fun p => PyChar.ofChar p.2 = e)).map (fun p => (PyChar.ofChar p.1, rest))

/-- one character of a string -/
def scanChar : PyStr → Option (PyChar × PyStr)
  | [] => none
  | c :: rest =>
    if c = '\\' then scanEscape rest
    else if c.val < 0x20 then none
    else some (c, rest)

/-- a string after its opening quote, of at most `fuel` characters -/
def scanString : ℕ → PyStr → Option (PyStr × PyStr)
  | 0, _ => none
  | _, [] => none
  | fuel + 1, c :: rest =>
    if c = '"' then some ([], rest)
    else do
      let (d, after) ← scanChar (c :: rest)
      let (s, after') ← scanString fuel after
      some (d :: s, after')

def toChar (c : PyChar) : Char := Char.ofNat c.val

/-- the digits a text starts with -/
def scanDigits (s : PyStr) : List Char × PyStr := ((s.takeWhile PyChar.isDigit).map toChar, s.dropWhile PyChar.isDigit)

/-- the fraction, if a digit follows the point -/
def scanFrac : PyStr → Option (List Char) × PyStr
  | p :: d :: rest =>
    if p = '.' ∧ d.isDigit then (some (scanDigits (d :: rest)).1, (scanDigits (d :: rest)).2)
    else (none, p :: d :: rest)
  | s => (none, s)

def natOf (digits : List Char) : ℕ := Nat.ofDigitChars 10 digits 0

/-- the digits of an exponent after its sign -/
def scanExponentDigits (negative : Bool) : PyStr → Option (ℤ × PyStr)
  | d :: rest =>
    if d.isDigit then
      let (digits, after) := scanDigits (d :: rest)
      some (if negative then -(natOf digits : ℤ) else natOf digits, after)
    else none
  | [] => none

/-- the exponent, if a digit follows it -/
def scanExponent : PyStr → Option ℤ × PyStr
  | e :: s :: rest =>
    if e = 'e' ∨ e = 'E' then
      let found := if s = '-' then scanExponentDigits true rest
        else if s = '+' then scanExponentDigits false rest
        else scanExponentDigits false (s :: rest)
      match found with
      | some (x, after) => (some x, after)
      | none => (none, e :: s :: rest)
    else (none, e :: s :: rest)
  | s => (none, s)

/-- the digits before the point: zero alone, or digits that start with another one -/
def scanWhole : PyStr → Option (List Char × PyStr)
  | [] => none
  | c :: rest =>
    if c = '0' then some (['0'], rest)
    else if c.isDigit then some (scanDigits (c :: rest))
    else none

/-- a number after its sign -/
def scanNumber (negative : Bool) (s : PyStr) : Except JsonError (PyJson × PyStr) :=
  match scanWhole s with
  | none => .error .decode
  | some (whole, afterWhole) =>
    let (frac, afterFrac) := scanFrac afterWhole
    let (exponent, rest) := scanExponent afterFrac
    if frac = none ∧ exponent = none then
      if maxIntDigits < whole.length then .error .digits
      else .ok (.int (if negative then -(natOf whole : ℤ) else natOf whole), rest)
    else .ok (.float (Double.read negative ⟨whole, frac.getD [], exponent⟩), rest)

/-- the constants -/
def words : List (PyStr × PyJson) :=
  [("null", .null), ("true", .bool true), ("false", .bool false), ("NaN", .float .nan),
   ("Infinity", .float (.inf false)), ("-Infinity", .float (.inf true))]

/-- what is neither a string nor a container -/
def scanScalar (s : PyStr) : Except JsonError (PyJson × PyStr) :=
  match words.find? (fun w => w.1.isPrefixOf s) with
  | some w => .ok (w.2, s.drop w.1.length)
  | none =>
    match s with
    | c :: rest => if c = '-' then scanNumber true rest else scanNumber false s
    | [] => .error .decode

def scanStr (s : PyStr) : Except JsonError (PyStr × PyStr) :=
  match scanString (s.length + 1) s with
  | some r => .ok r
  | none => .error .decode

/-- the items of an array, up to its bracket -/
def scanItems (value : Scan PyJson) : ℕ → Scan (List PyJson)
  | 0, _ => .error .decode
  | fuel + 1, s => do
    let (v, rest) ← value s
    match skipBlanks rest with
    | c :: rest =>
      if c = ']' then .ok ([v], rest)
      else if c = ',' then do
        let (vs, rest) ← scanItems value fuel (skipBlanks rest)
        .ok (v :: vs, rest)
      else .error .decode
    | [] => .error .decode

/-- an entry of a dict -/
def scanField (value : Scan PyJson) (s : PyStr) : Except JsonError ((PyStr × PyJson) × PyStr) :=
  match s with
  | q :: rest =>
    if q = '"' then do
      let (k, rest) ← scanStr rest
      match skipBlanks rest with
      | c :: rest =>
        if c = ':' then do
          let (v, rest) ← value (skipBlanks rest)
          .ok ((k, v), rest)
        else .error .decode
      | [] => .error .decode
    else .error .decode
  | [] => .error .decode

/-- the entries of a dict, up to its brace -/
def scanFields (value : Scan PyJson) : ℕ → Scan (List (PyStr × PyJson))
  | 0, _ => .error .decode
  | fuel + 1, s => do
    let (p, rest) ← scanField value s
    match skipBlanks rest with
    | c :: rest =>
      if c = '\x7d' then .ok ([p], rest)
      else if c = ',' then do
        let (ps, rest) ← scanFields value fuel (skipBlanks rest)
        .ok (p :: ps, rest)
      else .error .decode
    | [] => .error .decode

/-- a value, with `limit` levels of recursion left -/
def scanValue (limit : ℕ) (s : PyStr) : Except JsonError (PyJson × PyStr) :=
  match s with
  | [] => .error .decode
  | c :: rest =>
    if c = '"' then (scanStr rest).map (fun r => (.str r.1, r.2))
    else if c = '[' then
      match limit with
      | 0 => .error .recursion
      | limit + 1 =>
        match skipBlanks rest with
        | d :: more =>
          if d = ']' then .ok (.arr [], more)
          else (scanItems (scanValue limit) (d :: more).length (d :: more)).map (fun r => (.arr r.1, r.2))
        | [] => .error .decode
    else if c = '\x7b' then
      match limit with
      | 0 => .error .recursion
      | limit + 1 =>
        match skipBlanks rest with
        | d :: more =>
          if d = '\x7d' then .ok (.obj [], more)
          else (scanFields (scanValue limit) (d :: more).length (d :: more)).map (fun r => (.obj (dictOf r.1), r.2))
        | [] => .error .decode
    else scanScalar s

/-- `json.loads(text)` -/
def loads (limit : ℕ) (s : PyStr) : Except JsonError PyJson :=
  match scanValue limit (skipBlanks s) with
  | .error e => .error e
  | .ok (v, rest) => if skipBlanks rest = [] then .ok v else .error .decode

/-- `json.loads(data)` of bytes -/
def loadsBytes (limit : ℕ) (bytes : List UInt8) : Except JsonError PyJson :=
  match Utf8.decodeJson bytes with
  | some s => loads limit s
  | none => .error .decode

example : loads 2 "\x7b\"a\": [1, -2.5e3], \"a\": \"\\ud83d\\ude00\"\x7d" =
    .ok (.obj [("a", .str [⟨0x1f600, by decide⟩])]) := by decide +kernel

end PyJson

end Teardrop
