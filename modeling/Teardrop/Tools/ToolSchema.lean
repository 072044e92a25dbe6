/-
The safe subset of JSON Schema that tools may use, and its validator `validate_safe_schema_subset` of `tools/schema.py`, which
walks every nested dict as if it were a schema, but for the entries of a `properties` map. What Python prints for a list is a
parameter.
-/
import Teardrop.Core.Draft7
import Teardrop.Core.Py

namespace Teardrop.ToolSchema

open Py PyJson Draft7

/-! ## The safe subset -/

def safeSchemaKeys : List PyStr :=
  ["type", "properties", "required", "description", "title", "default", "enum", "minimum", "maximum", "minLength",
    "maxLength", "pattern", "items"].map PyStr.ofString

def safeSchemaTypes : List PyStr := ["object", "string", "integer", "number", "boolean", "array"].map PyStr.ofString

/-- `value in _SAFE_SCHEMA_TYPES`; a list or a dict cannot be hashed -/
def inSafeTypes : PyJson → Call Bool
  | .str s => .ok (s ∈ safeSchemaTypes)
  | .arr _ | .obj _ => .error .typeError
  | _ => .ok false

/-- the elements of a list that are in `_SAFE_SCHEMA_TYPES`, and those that are not -/
def splitTypes : List PyJson → Call (List PyJson × List PyJson)
  | [] => .ok ([], [])
  | v :: vs => do
    let safe ← inSafeTypes v
    let (supported, removed) ← splitTypes vs
    pure (if safe then (v :: supported, removed) else (supported, v :: removed))

section Validator

variable (format : String → PyStr → Bool) (repr : List PyJson → PyStr)

/-- the errors of one key of a schema -/
def keyErrors (path key : PyStr) (value : PyJson) : Call (List PyStr) :=
  let unsupported :=
    if key ∈ safeSchemaKeys then [] else [path ++ PyStr.ofString "." ++ key ++ PyStr.ofString ": keyword not supported"]
  if key = PyStr.ofString "type" then
    match value with
    | .str s =>
      .ok (unsupported ++ if s ∈ safeSchemaTypes then []
        else [path ++ PyStr.ofString ".type=" ++ s ++ PyStr.ofString ": type not supported"])
    | .arr vs => do
      let (_, bad) ← splitTypes vs
      pure (unsupported ++ if bad = [] then []
        else [path ++ PyStr.ofString ".type=" ++ repr bad ++ PyStr.ofString ": type not supported"])
    | _ => .ok (unsupported ++ [path ++ PyStr.ofString ".type: invalid type declaration"])
  else .ok unsupported

/-- a key is judged unless it is the name of a property -/
def judgeKey (inPropertiesMap : Bool) (path key : PyStr) (value : PyJson) : Call (List PyStr) :=
  if inPropertiesMap then .ok [] else keyErrors repr path key value

mutual
def walk (path : PyStr) (inPropertiesMap : Bool) : PyJson → Call (List PyStr)
  | .obj fields => walkFields path inPropertiesMap fields
  | .arr vs => walkItems path 0 vs
  | _ => .ok []

def walkFields (path : PyStr) (inPropertiesMap : Bool) : List (PyStr × PyJson) → Call (List PyStr)
  | [] => .ok []
  | (key, value) :: fields => do
    let here ← judgeKey repr inPropertiesMap path key value
    let deep ← walk (path ++ PyStr.ofString "." ++ key) (!inPropertiesMap && key = PyStr.ofString "properties") value
    let rest ← walkFields path inPropertiesMap fields
    pure (here ++ deep ++ rest)

def walkItems (path : PyStr) (i : ℕ) : List PyJson → Call (List PyStr)
  | [] => .ok []
  | v :: vs => do
    let here ← walk (path ++ PyStr.ofString "[" ++ PyStr.ofString (toString i) ++ PyStr.ofString "]") false v
    let rest ← walkItems path (i + 1) vs
    pure (here ++ rest)
end

def validateSafeSchemaSubset (schema : PyJson) : Call (List PyStr) :=
  if valid format schema then walk repr (PyStr.ofString "$") false schema
  else .ok ["$.schema: invalid JSON Schema"]

end Validator

/-! ## Values without errors -/

/-- the value of a `type` key declares types of the subset -/
def declaresSafe : PyJson → Bool
  | .str s => s ∈ safeSchemaTypes
  | .arr vs => vs.all (fun v => match v with
    | .str s => s ∈ safeSchemaTypes
    | _ => false)
  | _ => false

def keyClean (key : PyStr) (value : PyJson) : Bool :=
  key ∈ safeSchemaKeys && (key ≠ PyStr.ofString "type" || declaresSafe value)

mutual
/-- every key of a nested dict is in the subset, but for the entries of `properties` maps -/
def clean (inPropertiesMap : Bool) : PyJson → Bool
  | .obj fields => cleanFields inPropertiesMap fields
  | .arr vs => cleanItems vs
  | _ => true

def cleanFields (inPropertiesMap : Bool) : List (PyStr × PyJson) → Bool
  | [] => true
  | (key, value) :: fields =>
    (inPropertiesMap || keyClean key value) && clean (!inPropertiesMap && key = PyStr.ofString "properties") value &&
      cleanFields inPropertiesMap fields

def cleanItems : List PyJson → Bool
  | [] => true
  | v :: vs => clean false v && cleanItems vs
end

variable {x y : Call (List PyStr)} {vs : List PyJson}

theorem bind_nil_iff : (do let a ← x; let b ← y; pure (a ++ b)) = Except.ok ([] : List PyStr) ↔ x = .ok [] ∧ y = .ok [] := by
  match x, y with
  | .error e, _ => simp [bind, Except.bind]
  | .ok a, .error e => simp [bind, Except.bind]
  | .ok a, .ok b => simp [bind, Except.bind, pure, Except.pure]

theorem bind_nil_iff₃ {z : Call (List PyStr)} :
    (do let a ← x; let b ← y; let c ← z; pure (a ++ b ++ c)) = Except.ok ([] : List PyStr) ↔
      x = .ok [] ∧ y = .ok [] ∧ z = .ok [] := by
  match x, y, z with
  | .error e, _, _ => simp [bind, Except.bind]
  | .ok a, .error e, _ => simp [bind, Except.bind]
  | .ok a, .ok b, .error e => simp [bind, Except.bind]
  | .ok a, .ok b, .ok c => simp [bind, Except.bind, pure, Except.pure]

/-- one element of a `type` list is a type of the subset -/
theorem inSafeTypes_iff {v : PyJson} : inSafeTypes v = .ok true ↔ ∃ s ∈ safeSchemaTypes, v = .str s := by
  cases v <;> simp [inSafeTypes]

theorem declaresSafe_cons {v : PyJson} :
    declaresSafe (.arr (v :: vs)) = true ↔ inSafeTypes v = .ok true ∧ declaresSafe (.arr vs) = true := by
  rw [declaresSafe, List.all_cons, Bool.and_eq_true, inSafeTypes_iff]
  refine and_congr ?_ Iff.rfl
  cases v <;> simp

theorem splitTypes_nil_iff : (∃ supported, splitTypes vs = .ok (supported, [])) ↔ declaresSafe (.arr vs) = true := by
  induction vs with
  | nil => simp [splitTypes, declaresSafe]
  | cons v vs ih =>
    rw [declaresSafe_cons, ← ih, splitTypes]
    match hv : inSafeTypes v, hvs : splitTypes vs with
    | .error e, _ => simp [bind, Except.bind]
    | .ok safe, .error e => simp [bind, Except.bind]
    | .ok true, .ok (supported, removed) => simp [bind, Except.bind, pure, Except.pure]
    | .ok false, .ok (supported, removed) => simp [bind, Except.bind, pure, Except.pure]

theorem keyErrors_nil_iff (repr : List PyJson → PyStr) (path key : PyStr) (value : PyJson) :
    keyErrors repr path key value = .ok [] ↔ keyClean key value = true := by
  unfold keyErrors keyClean
  by_cases htype : key = PyStr.ofString "type"
  · subst htype
    have hkey : PyStr.ofString "type" ∈ safeSchemaKeys := by decide
    match value with
    | .str s =>
      by_cases hs : s ∈ safeSchemaTypes <;> simp [hkey, declaresSafe, hs]
    | .arr vs =>
      rw [Bool.and_eq_true, Bool.or_eq_true, ← splitTypes_nil_iff]
      match hsplit : splitTypes vs with
      | .error e => simp [hsplit, bind, Except.bind]
      | .ok (supported, bad) => simp [hsplit, bind, Except.bind, pure, Except.pure, hkey]
    | .null => simp [declaresSafe]
    | .bool b => simp [declaresSafe]
    | .int n => simp [declaresSafe]
    | .float x => simp [declaresSafe]
    | .obj fields => simp [declaresSafe]
  · simp [htype]

theorem judgeKey_nil_iff (repr : List PyJson → PyStr) (inMap : Bool) (path key : PyStr) (value : PyJson) :
    judgeKey repr inMap path key value = .ok [] ↔ (inMap || keyClean key value) = true := by
  unfold judgeKey
  match inMap with
  | true => simp
  | false => simp [keyErrors_nil_iff]

mutual
theorem walk_clean_iff (repr : List PyJson → PyStr) : ∀ (v : PyJson) (path : PyStr) (inMap : Bool),
    walk repr path inMap v = .ok [] ↔ clean inMap v = true
  | .obj fields, path, inMap => by rw [walk, clean, walkFields_clean_iff repr fields path inMap]
  | .arr vs, path, inMap => by rw [walk, clean, walkItems_clean_iff repr vs path 0]
  | .null, _, _ => by simp [walk, clean]
  | .bool _, _, _ => by simp [walk, clean]
  | .int _, _, _ => by simp [walk, clean]
  | .float _, _, _ => by simp [walk, clean]
  | .str _, _, _ => by simp [walk, clean]

theorem walkFields_clean_iff (repr : List PyJson → PyStr) : ∀ (fields : List (PyStr × PyJson)) (path : PyStr) (inMap : Bool),
    walkFields repr path inMap fields = .ok [] ↔ cleanFields inMap fields = true
  | [], _, _ => by simp [walkFields, cleanFields]
  | (key, value) :: fields, path, inMap => by
    rw [walkFields, bind_nil_iff₃, judgeKey_nil_iff, walk_clean_iff repr value, walkFields_clean_iff repr fields, cleanFields,
      Bool.and_eq_true, Bool.and_eq_true, and_assoc]

theorem walkItems_clean_iff (repr : List PyJson → PyStr) : ∀ (vs : List PyJson) (path : PyStr) (i : ℕ),
    walkItems repr path i vs = .ok [] ↔ cleanItems vs = true
  | [], _, _ => by simp [walkItems, cleanItems]
  | v :: vs, path, i => by
    rw [walkItems, cleanItems, Bool.and_eq_true, bind_nil_iff, walk_clean_iff repr v, walkItems_clean_iff repr vs]
end

theorem cleanFields_iff {inMap : Bool} {fields : List (PyStr × PyJson)} :
    cleanFields inMap fields = true ↔ ∀ f ∈ fields, (inMap || keyClean f.1 f.2) = true ∧
      clean (!inMap && f.1 = PyStr.ofString "properties") f.2 = true := by
  induction fields with
  | nil => simp [cleanFields]
  | cons f fields ih => rw [cleanFields, Bool.and_eq_true, Bool.and_eq_true, ih, List.forall_mem_cons]

theorem cleanItems_iff : cleanItems vs = true ↔ ∀ v ∈ vs, clean false v = true := by
  induction vs with
  | nil => simp [cleanItems]
  | cons v vs ih => rw [cleanItems, Bool.and_eq_true, ih, List.forall_mem_cons]

end Teardrop.ToolSchema
