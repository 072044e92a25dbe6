/-
JSON Schema, Draft 7: which JSON values are schemas.

`keywords` is the metaschema, a table from each keyword to the shape its value must have; other keys are free. A shape may
hold schemas again. Which texts are regular expressions or URI references is a parameter.
-/
import Teardrop.Core.PyJson

namespace Teardrop.Draft7

open PyJson

/-! ## The metaschema -/

/-- what the value of a keyword must be -/
inductive Shape where
  | any
  | text (format : Option String)
  | boolean
  | number
  | positive
  | natural
  | list
  | simpleType
  | strings
  | schema
  | schemas
  | items
  | schemaMap
  | patternMap
  | dependencyMap
  | dependency
deriving DecidableEq

def keywords : List (String × Shape) :=
  [("$id", .text (some "uri-reference")), ("$schema", .text (some "uri")), ("$ref", .text (some "uri-reference")),
    ("$comment", .text none), ("title", .text none), ("description", .text none), ("default", .any),
    ("readOnly", .boolean), ("writeOnly", .boolean), ("examples", .list), ("multipleOf", .positive), ("maximum", .number),
    ("exclusiveMaximum", .number), ("minimum", .number), ("exclusiveMinimum", .number), ("maxLength", .natural),
    ("minLength", .natural), ("pattern", .text (some "regex")), ("additionalItems", .schema), ("items", .items),
    ("maxItems", .natural), ("minItems", .natural), ("uniqueItems", .boolean), ("contains", .schema),
    ("maxProperties", .natural), ("minProperties", .natural), ("required", .strings), ("additionalProperties", .schema),
    ("definitions", .schemaMap), ("properties", .schemaMap), ("patternProperties", .patternMap),
    ("dependencies", .dependencyMap), ("propertyNames", .schema), ("const", .any), ("enum", .list), ("type", .simpleType),
    ("format", .text none), ("contentMediaType", .text none), ("contentEncoding", .text none), ("if", .schema),
    ("then", .schema), ("else", .schema), ("allOf", .schemas), ("anyOf", .schemas), ("oneOf", .schemas), ("not", .schema)]

def shapeOf (k : PyStr) : Shape := ((keywords.find? (fun entry => PyStr.ofString entry.1 = k)).map Prod.snd).getD .any

def simpleTypes : List PyStr := ["array", "boolean", "integer", "null", "number", "object", "string"].map PyStr.ofString

/-- a string of the list -/
def isSimpleType : PyJson → Bool
  | .str s => s ∈ simpleTypes
  | _ => false

def isStr : PyJson → Bool
  | .str _ => true
  | _ => false

/-- a number that is not negative and has no fraction -/
def isNatural : PyJson → Bool
  | .int n => 0 ≤ n
  | .float (.finite negative k) => Double.units k.val % 2 ^ 1074 = 0 && (!negative || k.val = 0)
  | _ => false

def isNumber : PyJson → Bool
  | .int _ | .float _ => true
  | _ => false

def isPositive : PyJson → Bool
  | .int n => 0 < n
  | .float (.finite negative k) => !negative && k.val ≠ 0
  | .float (.inf negative) => !negative
  | _ => false

/-- strings, none of them twice -/
def distinctStrings (vs : List PyJson) : Bool := vs.all isStr && vs.Nodup

mutual
/-- the value has the shape; `format` says which texts are of a format -/
def validAs (format : String → PyStr → Bool) : Shape → PyJson → Bool
  | .any, _ => true
  | .text fmt, .str s => fmt.all (fun name => format name s)
  | .boolean, .bool _ => true
  | .number, v => isNumber v
  | .positive, v => isPositive v
  | .natural, v => isNatural v
  | .list, .arr _ => true
  | .simpleType, .str s => s ∈ simpleTypes
  | .simpleType, .arr vs => vs ≠ [] && vs.all isSimpleType && vs.Nodup
  | .strings, .arr vs => distinctStrings vs
  | .schema, .bool _ => true
  | .schema, .obj fields => validFields format fields
  | .schemas, .arr vs => vs ≠ [] && validItems format vs
  | .items, .bool _ => true
  | .items, .obj fields => validFields format fields
  | .items, .arr vs => vs ≠ [] && validItems format vs
  | .schemaMap, .obj entries => validMap format .schema entries
  | .patternMap, .obj entries => entries.all (fun entry => format "regex" entry.1) && validMap format .schema entries
  | .dependencyMap, .obj entries => validMap format .dependency entries
  | .dependency, .bool _ => true
  | .dependency, .obj fields => validFields format fields
  | .dependency, .arr vs => distinctStrings vs
  | _, _ => false

def validFields (format : String → PyStr → Bool) : List (PyStr × PyJson) → Bool
  | [] => true
  | (k, v) :: fields => validAs format (shapeOf k) v && validFields format fields

def validItems (format : String → PyStr → Bool) : List PyJson → Bool
  | [] => true
  | v :: vs => validAs format .schema v && validItems format vs

def validMap (format : String → PyStr → Bool) (shape : Shape) : List (PyStr × PyJson) → Bool
  | [] => true
  | (_, v) :: entries => validAs format shape v && validMap format shape entries
end

/-- the value is a schema -/
def valid (format : String → PyStr → Bool) (v : PyJson) : Bool := validAs format .schema v

/-! ## Entry by entry -/

variable {format : String → PyStr → Bool}

variable {fields : List (PyStr × PyJson)}

theorem validFields_iff : validFields format fields ↔ ∀ f ∈ fields, validAs format (shapeOf f.1) f.2 := by
  induction fields with
  | nil => simp [validFields]
  | cons f fields ih => rw [validFields, Bool.and_eq_true, ih, List.forall_mem_cons]

theorem validMap_iff {shape : Shape} {entries : List (PyStr × PyJson)} :
    validMap format shape entries ↔ ∀ e ∈ entries, validAs format shape e.2 := by
  induction entries with
  | nil => simp [validMap]
  | cons e entries ih => rw [validMap, Bool.and_eq_true, ih, List.forall_mem_cons]

theorem valid_obj_iff : valid format (.obj fields) ↔ ∀ f ∈ fields, validAs format (shapeOf f.1) f.2 := by
  rw [valid, validAs, validFields_iff]

theorem mem_of_lookup {k : PyStr} {v : PyJson} (h : lookup k fields = some v) : (k, v) ∈ fields := by
  induction fields with
  | nil => cases h
  | cons f fields ih =>
    rw [lookup] at h
    split_ifs at h with hk
    · cases h
      rw [← hk]
      exact List.mem_cons_self
    · exact List.mem_cons_of_mem f (ih h)

theorem valid_lookup (h : valid format (.obj fields)) {k : PyStr} {v : PyJson} (hk : lookup k fields = some v) :
    validAs format (shapeOf k) v :=
  valid_obj_iff.1 h (k, v) (mem_of_lookup hk)

end Teardrop.Draft7
