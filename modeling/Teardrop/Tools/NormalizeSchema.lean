/-
`normalize_to_safe_schema_subset` of `tools/schema.py`: a schema is rebuilt node by node, each node with one type of the safe
subset and the keys that go with it; what is left out is reported.
-/
import Teardrop.Tools.ToolSchema

namespace Teardrop.ToolSchema

open Py PyJson Draft7 PyStr Bool Option

/-! ## The parts of a node -/

def commonKeys : List PyStr := ["description", "title", "default", "enum"].map PyStr.ofString

/-- the entries of a dict under the given keys -/
def copyKeys (keys : List PyStr) (fields : List (PyStr × PyJson)) : List (PyStr × PyJson) :=
  keys.filterMap (fun k => (lookup k fields).map (fun v => (k, v)))

def typeEntry (schemaType : PyStr) : PyStr × PyJson := (PyStr.ofString "type", .str schemaType)

/-- `{"type": "string"}` -/
def stringSchema : PyJson := .obj [typeEntry "string"]

/-- `_safe_empty_object_schema()` -/
def safeEmptyObjectSchema : PyJson := .obj [typeEntry "object", (PyStr.ofString "properties", .obj [])]

/-- the keys of a node that are left out -/
def droppedKeys (path : PyStr) (kept : List PyStr) (fields : List (PyStr × PyJson)) : List PyStr :=
  fields.filterMap (fun f =>
    if f.1 ∈ kept then none else some (path ++ PyStr.ofString "." ++ f.1 ++ PyStr.ofString ": keyword not supported"))

def objectKeys : List PyStr := ["type", "properties", "required", "description", "title", "default", "enum"].map PyStr.ofString

def arrayKeys : List PyStr := ["type", "items", "description", "title", "default", "enum"].map PyStr.ofString

def scalarKeys : List PyStr :=
  ["type", "description", "title", "default", "enum", "minimum", "maximum", "minLength", "maxLength", "pattern"].map
    PyStr.ofString

/-- the constraints kept for a scalar type -/
def constraintKeys (schemaType : PyStr) : List PyStr :=
  if schemaType = PyStr.ofString "integer" ∨ schemaType = PyStr.ofString "number" then
    ["minimum", "maximum"].map PyStr.ofString
  else if schemaType = PyStr.ofString "string" then ["minLength", "maxLength", "pattern"].map PyStr.ofString
  else []

/-- `name in properties`; a list or a dict cannot be hashed -/
def isDeclared (properties : List (PyStr × PyJson)) : PyJson → Call Bool
  | .str s => .ok (s ∈ properties.map Prod.fst)
  | .arr _ | .obj _ => .error .typeError
  | _ => .ok false

def filterDeclared (properties : List (PyStr × PyJson)) : List PyJson → Call (List PyJson)
  | [] => .ok []
  | v :: vs => do
    let declared ← isDeclared properties v
    let rest ← filterDeclared properties vs
    pure (if declared then v :: rest else rest)

/-- the `required` list of an object node, and what is reported of it -/
def normalizeRequired (path : PyStr) (properties : List (PyStr × PyJson)) : Option PyJson → Call (List PyJson × List PyStr)
  | none | some .null => .ok ([], [])
  | some (.arr names) => do
    let filtered ← filterDeclared properties names
    pure (filtered, if filtered.length = names.length then []
      else [path ++ PyStr.ofString ".required: removed unknown property references"])
  | some _ => .ok ([], [path ++ PyStr.ofString ".required: expected array"])

section Normalizer

variable (repr : List PyJson → PyStr)

def normalizeType (path fallback : PyStr) : Option PyJson → Call (PyStr × List PyStr)
  | none | some .null => .ok (fallback, [])
  | some (.str s) =>
    if s ∈ safeSchemaTypes then .ok (s, [])
    else .ok (fallback, [path ++ PyStr.ofString ".type=" ++ s ++ PyStr.ofString ": type not supported"])
  | some (.arr vs) => do
    let (supported, removed) ← splitTypes vs
    let dropped := if removed = [] then []
      else [path ++ PyStr.ofString ".type=" ++ repr removed ++ PyStr.ofString ": type not supported"]
    match supported with
    | .str s :: _ => pure (s, dropped)
    | _ => pure (fallback, dropped)
  | some _ => .ok (fallback, [path ++ PyStr.ofString ".type: invalid type declaration"])

/-- the type a node without one has -/
def fallbackType (root : Bool) (fields : List (PyStr × PyJson)) : PyStr :=
  if root then "object"
  else if (lookup "properties" fields).isSome then "object"
  else if (lookup "items" fields).isSome then "array"
  else "string"

/-- the entry for the required names, if there are any -/
def requiredEntry (required : List PyJson) : List (PyStr × PyJson) :=
  if required = [] then [] else [(PyStr.ofString "required", .arr required)]

/-- an object node, from its normalised properties -/
def objectNode (path : PyStr) (fields properties : List (PyStr × PyJson)) (dropped : List PyStr) :
    Call (PyJson × List PyStr) := do
  let (required, droppedRequired) ← normalizeRequired path properties (lookup "required" fields)
  pure (.obj ([typeEntry "object", (PyStr.ofString "properties", .obj properties)] ++ copyKeys commonKeys fields ++
      requiredEntry required),
    dropped ++ droppedRequired ++ droppedKeys path objectKeys fields)

/-- an array node, from its normalised items -/
def arrayNode (path : PyStr) (fields : List (PyStr × PyJson)) (items : PyJson) (dropped : List PyStr) : PyJson × List PyStr :=
  (.obj ([typeEntry "array"] ++ copyKeys commonKeys fields ++ [(PyStr.ofString "items", items)]),
    dropped ++ droppedKeys path arrayKeys fields)

def scalarNode (path : PyStr) (fields : List (PyStr × PyJson)) (schemaType : PyStr) (dropped : List PyStr) :
    PyJson × List PyStr :=
  (.obj ([typeEntry schemaType] ++ copyKeys commonKeys fields ++ copyKeys (constraintKeys schemaType) fields),
    dropped ++ droppedKeys path scalarKeys fields)

mutual
/-- `_normalize_node`: the node and what is reported, in order -/
def normalizeNode (root : Bool) (path : PyStr) : PyJson → Call (PyJson × List PyStr)
  | .obj fields => do
    let (schemaType, droppedType) ← normalizeType repr path (fallbackType root fields) (lookup "type" fields)
    if schemaType = PyStr.ofString "object" then do
      let (properties, dropped) ← normalizeProperties path fields
      objectNode path fields properties (droppedType ++ dropped)
    else if schemaType = PyStr.ofString "array" then do
      let (items, dropped) ← normalizeItems path fields
      pure (arrayNode path fields items (droppedType ++ dropped))
    else pure (scalarNode path fields schemaType droppedType)
  | _ =>
    pure (if root then safeEmptyObjectSchema else stringSchema,
      [path ++ PyStr.ofString ": schema node replaced with safe default"])

/-- the properties of an object node: those under its `properties` key -/
def normalizeProperties (path : PyStr) : List (PyStr × PyJson) → Call (List (PyStr × PyJson) × List PyStr)
  | [] => pure ([], [])
  | (key, value) :: fields =>
    if key = PyStr.ofString "properties" then
      match value with
      | .obj entries => normalizeEntries path entries
      | .null => pure ([], [])
      | _ => pure ([], [path ++ PyStr.ofString ".properties: expected object"])
    else normalizeProperties path fields

def normalizeEntries (path : PyStr) : List (PyStr × PyJson) → Call (List (PyStr × PyJson) × List PyStr)
  | [] => pure ([], [])
  | (key, value) :: entries => do
    let (node, dropped) ← normalizeNode false (path ++ PyStr.ofString ".properties." ++ key) value
    let (nodes, droppedRest) ← normalizeEntries path entries
    pure ((key, node) :: nodes, dropped ++ droppedRest)

/-- the items of an array node: those under its `items` key -/
def normalizeItems (path : PyStr) : List (PyStr × PyJson) → Call (PyJson × List PyStr)
  | [] => pure (stringSchema, [])
  | (key, value) :: fields =>
    if key = PyStr.ofString "items" then
      match value with
      | .null => pure (stringSchema, [])
      | value => normalizeNode false (path ++ PyStr.ofString ".items") value
    else normalizeItems path fields
end

/-- `normalize_to_safe_schema_subset`: the schema, and what was left out of it -/
def normalizeToSafeSchemaSubset (schema : PyJson) : Call (PyJson × List PyStr) :=
  normalizeNode repr true (PyStr.ofString "$") (if schema.truthy then schema else .obj [])

end Normalizer

example : normalizeToSafeSchemaSubset (fun _ => []) (.obj [("type", .str "array"), ("x", .null)]) =
    .ok (.obj [("type", .str "array"), ("items", .obj [("type", .str "string")])], ["$.x: keyword not supported"]) := by
  decide +kernel

/-! ## What is kept of a node -/

/-- the type a node is given -/
def chosenType (fallback : PyStr) : Option PyJson → PyStr
  | some (.str s) => if s ∈ safeSchemaTypes then s else fallback
  | some (.arr vs) =>
    match vs.find? (fun v => inSafeTypes v = .ok true) with
    | some (.str s) => s
    | _ => fallback
  | _ => fallback

/-- the values of `default` and `enum` are clean -/
def opaqueClean (fields : List (PyStr × PyJson)) : Bool :=
  (lookup "default" fields).all (clean false) && (lookup "enum" fields).all (clean false)

mutual
/-- in each node that is kept, `default` and `enum` are clean -/
def keptClean (root : Bool) : PyJson → Bool
  | .obj fields =>
    let schemaType := chosenType (fallbackType root fields) (lookup "type" fields)
    opaqueClean fields &&
      if schemaType = PyStr.ofString "object" then keptProperties fields
      else if schemaType = PyStr.ofString "array" then keptItems fields
      else true
  | _ => true

def keptProperties : List (PyStr × PyJson) → Bool
  | [] => true
  | (key, value) :: fields =>
    if key = PyStr.ofString "properties" then
      match value with
      | .obj entries => keptEntries entries
      | _ => true
    else keptProperties fields

def keptEntries : List (PyStr × PyJson) → Bool
  | [] => true
  | (_, value) :: entries => keptClean false value && keptEntries entries

def keptItems : List (PyStr × PyJson) → Bool
  | [] => true
  | (key, value) :: fields => if key = PyStr.ofString "items" then keptClean false value else keptItems fields
end

/-! ## Lookups in a rebuilt node -/

theorem lookup_append (k : PyStr) (fields more : List (PyStr × PyJson)) :
    lookup k (fields ++ more) = (lookup k fields).or (lookup k more) := by
  induction fields with
  | nil => rfl
  | cons f fields ih =>
    rw [List.cons_append, lookup, lookup]
    split_ifs
    · rfl
    · exact ih

variable {keys : List PyStr} {fields properties : List (PyStr × PyJson)} {kept : Bool} {schemaType : PyStr}
  {required : List PyJson}

theorem mem_copyKeys {k : PyStr} {v : PyJson} : (k, v) ∈ copyKeys keys fields ↔ k ∈ keys ∧ lookup k fields = some v := by
  rw [copyKeys, List.mem_filterMap]
  constructor
  · rintro ⟨k', hk', h⟩
    obtain ⟨v', hv', heq⟩ := map_eq_some_iff.1 h
    cases heq
    exact ⟨hk', hv'⟩
  · rintro ⟨hk, hv⟩
    exact ⟨k, hk, by rw [hv]; rfl⟩

theorem lookup_copyKeys (keys : List PyStr) (fields : List (PyStr × PyJson)) (k : PyStr) :
    lookup k (copyKeys keys fields) = if k ∈ keys then lookup k fields else none := by
  induction keys with
  | nil => simp [copyKeys, lookup]
  | cons key keys ih =>
    rw [copyKeys] at ih
    rw [copyKeys, List.filterMap_cons]
    cases hkey : lookup key fields with
    | none =>
      dsimp only [map_none]
      rw [ih]
      by_cases hk : k = key
      · subst hk
        simp [hkey]
      · simp [hk]
    | some v =>
      dsimp only [map_some]
      rw [lookup, ih]
      by_cases hk : key = k
      · subst hk
        simp [hkey]
      · simp [hk, Ne.symm hk]

theorem normalizeItems_lookup (repr : List PyJson → PyStr) (path : PyStr) {nodeFields : List (PyStr × PyJson)}
    (h : lookup (ofString "items") fields = some (.obj nodeFields)) :
    normalizeItems repr path fields = normalizeNode repr false (path ++ ofString ".items") (.obj nodeFields) := by
  induction fields with
  | nil => cases h
  | cons f fields ih =>
    unfold lookup at h
    unfold normalizeItems
    split_ifs at h ⊢ with hkey
    · rw [some.inj h]
    · exact ih h

theorem copyKeys_congr {more : List (PyStr × PyJson)} (h : ∀ k ∈ keys, lookup k fields = lookup k more) :
    copyKeys keys fields = copyKeys keys more := by
  apply List.filterMap_congr
  intro k hk
  rw [h k hk]

theorem forall_append_iff {P : PyStr × PyJson → Prop} {more : List (PyStr × PyJson)} :
    (∀ f ∈ fields ++ more, P f) ↔ (∀ f ∈ fields, P f) ∧ ∀ f ∈ more, P f := by
  simp only [List.mem_append, or_imp, forall_and]

theorem droppedKeys_nil {path : PyStr} {kept : List PyStr} (h : ∀ f ∈ fields, f.1 ∈ kept) :
    droppedKeys path kept fields = [] := by
  rw [droppedKeys, List.filterMap_eq_nil_iff]
  intro f hf
  exact if_pos (h f hf)

/-! ## Types and required names of a schema -/

theorem splitTypes_strings {vs : List PyJson} (h : ∀ v ∈ vs, isStr v = true) :
    ∃ supported removed, splitTypes vs = .ok (supported, removed) ∧
      supported.head? = vs.find? (fun v => inSafeTypes v = .ok true) := by
  induction vs with
  | nil => exact ⟨[], [], rfl, rfl⟩
  | cons v vs ih =>
    obtain ⟨hv, hvs⟩ := List.forall_mem_cons.1 h
    obtain ⟨supported, removed, hsplit, hhead⟩ := ih hvs
    match v with
    | .str s =>
      by_cases hs : s ∈ safeSchemaTypes
      · exact ⟨.str s :: supported, removed, by simp [splitTypes, hsplit, inSafeTypes, hs, bind, Except.bind, pure, Except.pure],
          by simp [inSafeTypes, hs]⟩
      · exact ⟨supported, .str s :: removed, by simp [splitTypes, hsplit, inSafeTypes, hs, bind, Except.bind, pure, Except.pure],
          by simp [inSafeTypes, hs, hhead]⟩

section Types

variable (repr : List PyJson → PyStr)

theorem normalizeType_ok (format : String → PyStr → Bool) (path fallback : PyStr) {raw : Option PyJson}
    (h : ∀ v, raw = some v → validAs format .simpleType v = true) :
    ∃ dropped, normalizeType repr path fallback raw = .ok (chosenType fallback raw, dropped) := by
  rcases raw with _ | _ | b | n | x | s | vs | fields
  · exact ⟨[], rfl⟩
  · exact ⟨[], rfl⟩
  · exact ⟨_, rfl⟩
  · exact ⟨_, rfl⟩
  · exact ⟨_, rfl⟩
  · rw [normalizeType, chosenType]
    split_ifs
    · exact ⟨[], rfl⟩
    · exact ⟨_, rfl⟩
  · have hvalid := h _ rfl
    rw [validAs, and_eq_true, and_eq_true] at hvalid
    have hstr : ∀ v ∈ vs, isStr v = true := by
      intro v hv
      have hsimple := List.all_eq_true.1 hvalid.1.2 v hv
      cases v <;> simp_all [isSimpleType, isStr]
    obtain ⟨supported, removed, hsplit, hhead⟩ := splitTypes_strings hstr
    rw [chosenType, ← hhead, normalizeType, hsplit]
    rcases supported with _ | ⟨v, _⟩
    · exact ⟨_, rfl⟩
    · cases v <;> exact ⟨_, rfl⟩
  · exact ⟨_, rfl⟩

theorem normalizeType_safe (path fallback : PyStr) {s : PyStr} (h : s ∈ safeSchemaTypes) :
    normalizeType repr path fallback (some (.str s)) = .ok (s, []) := if_pos h

end Types

theorem chosenType_safe {fallback : PyStr} (h : fallback ∈ safeSchemaTypes) (raw : Option PyJson) :
    chosenType fallback raw ∈ safeSchemaTypes := by
  unfold chosenType
  split
  · split_ifs with hs
    · exact hs
    · exact h
  · split
    · rename_i s hfind
      have hs := List.find?_some hfind
      rw [decide_eq_true_eq, inSafeTypes_iff] at hs
      obtain ⟨t, ht, heq⟩ := hs
      cases heq
      exact ht
    · exact h
  · exact h

theorem fallbackType_safe (root : Bool) (fields : List (PyStr × PyJson)) : fallbackType root fields ∈ safeSchemaTypes := by
  unfold fallbackType
  split_ifs <;> decide

theorem filterDeclared_strings {vs : List PyJson} (h : ∀ v ∈ vs, isStr v = true) :
    filterDeclared properties vs = .ok (vs.filter (fun v => isDeclared properties v = .ok true)) := by
  induction vs with
  | nil => rfl
  | cons v vs ih =>
    obtain ⟨hv, hvs⟩ := List.forall_mem_cons.1 h
    match v with
    | .str s =>
      rw [filterDeclared, ih hvs]
      by_cases hs : s ∈ properties.map Prod.fst <;> simp [isDeclared, hs, bind, Except.bind, pure, Except.pure]

/-! ## Rebuilt nodes -/

variable {format : String → PyStr → Bool} {repr : List PyJson → PyStr}

/-- the normalised form of a node: a schema that normalises to itself, clean when `kept` says so -/
structure Rebuilt (format : String → PyStr → Bool) (repr : List PyJson → PyStr) (kept : Bool) (n : PyJson) : Prop where
  isSchema : valid format n = true
  stable : ∀ root path, normalizeNode repr root path n = .ok (n, [])
  isClean : clean false n = kept

/-- the normalised forms of the properties of a node -/
structure RebuiltMap (format : String → PyStr → Bool) (repr : List PyJson → PyStr) (kept : Bool)
    (properties : List (PyStr × PyJson)) : Prop where
  isSchema : ∀ e ∈ properties, valid format e.2 = true
  stable : ∀ e ∈ properties, ∀ root path, normalizeNode repr root path e.2 = .ok (e.2, [])
  isClean : cleanFields true properties = kept

theorem rebuiltMap_nil : RebuiltMap format repr true [] :=
  ⟨fun _ he => absurd he List.not_mem_nil, fun _ he => absurd he List.not_mem_nil, rfl⟩

theorem RebuiltMap.cons {keptRest : Bool} {key : PyStr} {n : PyJson} (h : Rebuilt format repr kept n)
    (hrest : RebuiltMap format repr keptRest properties) :
    RebuiltMap format repr (kept && keptRest) ((key, n) :: properties) := by
  refine ⟨List.forall_mem_cons.2 ⟨h.isSchema, hrest.isSchema⟩, List.forall_mem_cons.2 ⟨h.stable, hrest.stable⟩, ?_⟩
  rw [cleanFields, hrest.isClean, ← h.isClean]
  simp

theorem cleanFields_copyKeys (h : ∀ k ∈ keys, k ∈ safeSchemaKeys ∧ k ≠ ofString "type" ∧ k ≠ ofString "properties") :
    cleanFields false (copyKeys keys fields) = true ↔ ∀ k ∈ keys, (lookup k fields).all (clean false) = true := by
  rw [cleanFields_iff]
  constructor
  · intro hall k hk
    match hv : lookup k fields with
    | none => rfl
    | some v =>
      obtain ⟨-, hclean⟩ := hall (k, v) (mem_copyKeys.2 ⟨hk, hv⟩)
      rwa [decide_eq_false (h k hk).2.2, Bool.and_false] at hclean
  · rintro hall ⟨k, v⟩ hf
    obtain ⟨hk, hv⟩ := mem_copyKeys.1 hf
    obtain ⟨hsafe, htype, hproperties⟩ := h k hk
    have hclean := hall k hk
    rw [hv] at hclean
    refine ⟨?_, ?_⟩
    · rw [keyClean, decide_eq_true hsafe, decide_eq_true htype]
      rfl
    · rw [decide_eq_false hproperties, Bool.and_false]
      exact hclean

theorem clean_of_valid {shape : Shape} {v : PyJson} (h : validAs format shape v = true)
    (hshape : shape = .number ∨ shape = .natural ∨ ∃ fmt, shape = .text fmt) : clean false v = true := by
  rcases hshape with rfl | rfl | ⟨fmt, rfl⟩
  · match v with
    | .int n => rfl
    | .float x => rfl
  · match v with
    | .int n => rfl
    | .float x => rfl
  · match v with
    | .str s => rfl

theorem lookup_clean (h : valid format (.obj fields) = true) {k : PyStr}
    (hshape : shapeOf k = .number ∨ shapeOf k = .natural ∨ ∃ fmt, shapeOf k = .text fmt) :
    (lookup k fields).all (clean false) = true := by
  match hv : lookup k fields with
  | none => rfl
  | some v => exact clean_of_valid (valid_lookup h hv) hshape

theorem clean_common (h : valid format (.obj fields) = true) :
    cleanFields false (copyKeys commonKeys fields) = opaqueClean fields := by
  rw [Bool.eq_iff_iff, cleanFields_copyKeys (by decide), opaqueClean, Bool.and_eq_true]
  have hdescription : (lookup (ofString "description") fields).all (clean false) = true :=
    lookup_clean h (.inr (.inr ⟨none, by decide⟩))
  have htitle : (lookup (ofString "title") fields).all (clean false) = true :=
    lookup_clean h (.inr (.inr ⟨none, by decide⟩))
  simp [commonKeys, hdescription, htitle]

theorem clean_constraints (schemaType : PyStr) (h : valid format (.obj fields) = true) :
    cleanFields false (copyKeys (constraintKeys schemaType) fields) = true := by
  have hshapes : ∀ k ∈ constraintKeys schemaType, k ∈ safeSchemaKeys ∧ k ≠ ofString "type" ∧
      k ≠ ofString "properties" ∧ (shapeOf k = .number ∨ shapeOf k = .natural ∨ shapeOf k = .text (some "regex")) := by
    unfold constraintKeys
    split_ifs <;> decide
  rw [cleanFields_copyKeys (fun k hk => ⟨(hshapes k hk).1, (hshapes k hk).2.1, (hshapes k hk).2.2.1⟩)]
  intro k hk
  rcases (hshapes k hk).2.2.2 with hnumber | hnatural | htext
  · exact lookup_clean h (.inl hnumber)
  · exact lookup_clean h (.inr (.inl hnatural))
  · exact lookup_clean h (.inr (.inr ⟨_, htext⟩))

theorem valid_copyKeys (keys : List PyStr) (h : valid format (.obj fields) = true) :
    ∀ f ∈ copyKeys keys fields, validAs format (shapeOf f.1) f.2 = true := by
  rintro ⟨k, v⟩ hf
  exact valid_lookup h (mem_copyKeys.1 hf).2

theorem normalized_isDict {n : PyJson} (h : Rebuilt format repr kept n) : ∃ fields, n = .obj fields := by
  have hstable := h.stable false []
  match n with
  | .obj fields => exact ⟨fields, rfl⟩
  | .null | .bool _ | .int _ | .float _ | .str _ | .arr _ =>
    rw [normalizeNode] at hstable
    · cases hstable
    · simp

theorem copyKeys_rebuilt {head tail : List (PyStr × PyJson)} (hhead : ∀ k ∈ keys, lookup k head = none)
    (htail : ∀ k ∈ keys, lookup k tail = none) :
    copyKeys keys (head ++ copyKeys keys fields ++ tail) = copyKeys keys fields := by
  apply copyKeys_congr
  intro k hk
  rw [lookup_append, lookup_append, hhead k hk, htail k hk, lookup_copyKeys, if_pos hk, none_or, or_none]

theorem lookup_type_rebuilt (schemaType : PyStr) (rest : List (PyStr × PyJson)) :
    lookup (ofString "type") (typeEntry schemaType :: rest) = some (.str schemaType) := if_pos rfl

theorem valid_typeEntry (h : schemaType ∈ safeSchemaTypes) :
    validAs format (shapeOf (typeEntry schemaType).1) (typeEntry schemaType).2 = true := by
  have hsubset : ∀ t ∈ safeSchemaTypes, t ∈ simpleTypes := by decide
  have hshape : shapeOf (ofString "type") = .simpleType := by decide
  rw [typeEntry, hshape, validAs]
  exact decide_eq_true (hsubset schemaType h)

theorem clean_typeEntry (h : schemaType ∈ safeSchemaTypes) : cleanFields false [typeEntry schemaType] = true := by
  have hkey : ofString "type" ∈ safeSchemaKeys := by decide
  simp [cleanFields, typeEntry, keyClean, declaresSafe, clean, h, hkey]

theorem cleanFields_append (inMap : Bool) (fields more : List (PyStr × PyJson)) :
    cleanFields inMap (fields ++ more) = (cleanFields inMap fields && cleanFields inMap more) := by
  rw [Bool.eq_iff_iff, Bool.and_eq_true, cleanFields_iff, cleanFields_iff, cleanFields_iff, forall_append_iff]

theorem scalar_rebuilt (path : PyStr) (dropped : List PyStr) (hvalid : valid format (.obj fields) = true)
    (hsafe : schemaType ∈ safeSchemaTypes) (hobject : schemaType ≠ ofString "object")
    (harray : schemaType ≠ ofString "array") :
    Rebuilt format repr (opaqueClean fields) (scalarNode path fields schemaType dropped).1 := by
  have hkeys : ∀ k ∈ constraintKeys schemaType, k ∉ commonKeys ∧ k ≠ ofString "type" ∧ k ∈ scalarKeys := by
    unfold constraintKeys
    split_ifs <;> decide
  constructor
  · rw [scalarNode, valid_obj_iff, forall_append_iff, forall_append_iff]
    refine ⟨⟨?_, valid_copyKeys _ hvalid⟩, valid_copyKeys _ hvalid⟩
    intro f hf
    rw [List.mem_singleton.1 hf]
    exact valid_typeEntry hsafe
  · intro root path'
    rw [scalarNode, normalizeNode]
    have htype : lookup (ofString "type") ([typeEntry schemaType] ++ copyKeys commonKeys fields ++
        copyKeys (constraintKeys schemaType) fields) = some (.str schemaType) := lookup_type_rebuilt schemaType _
    have hcommon : copyKeys commonKeys ([typeEntry schemaType] ++ copyKeys commonKeys fields ++
        copyKeys (constraintKeys schemaType) fields) = copyKeys commonKeys fields := by
      apply copyKeys_rebuilt
      · intro k hk
        have hne : ofString "type" ≠ k := by
          rintro rfl
          exact absurd hk (by decide)
        rw [typeEntry, lookup, if_neg hne, lookup]
      · intro k hk
        rw [lookup_copyKeys, if_neg (fun hmem => (hkeys k hmem).1 hk)]
    have hconstraints : copyKeys (constraintKeys schemaType) ([typeEntry schemaType] ++ copyKeys commonKeys fields ++
        copyKeys (constraintKeys schemaType) fields) = copyKeys (constraintKeys schemaType) fields := by
      apply copyKeys_congr
      intro k hk
      rw [lookup_append, lookup_append, lookup_copyKeys, lookup_copyKeys, if_pos hk, if_neg (hkeys k hk).1, typeEntry, lookup,
        if_neg (Ne.symm (hkeys k hk).2.1), lookup, none_or, none_or]
    have hdropped : droppedKeys path' scalarKeys ([typeEntry schemaType] ++ copyKeys commonKeys fields ++
        copyKeys (constraintKeys schemaType) fields) = [] := by
      apply droppedKeys_nil
      rw [forall_append_iff, forall_append_iff]
      refine ⟨⟨?_, ?_⟩, ?_⟩
      · intro f hf
        rw [List.mem_singleton.1 hf]
        show ofString "type" ∈ scalarKeys
        decide
      · rintro ⟨k, v⟩ hf
        have hsubset : ∀ k ∈ commonKeys, k ∈ scalarKeys := by decide
        exact hsubset k (mem_copyKeys.1 hf).1
      · rintro ⟨k, v⟩ hf
        exact (hkeys k (mem_copyKeys.1 hf).1).2.2
    rw [htype, normalizeType_safe _ _ _ hsafe]
    dsimp only [bind, Except.bind]
    rw [if_neg hobject, if_neg harray, scalarNode, hcommon, hconstraints, hdropped]
    rfl
  · rw [scalarNode, clean, cleanFields_append, cleanFields_append, clean_typeEntry hsafe, clean_common hvalid,
      clean_constraints schemaType hvalid, Bool.true_and, Bool.and_true]

theorem lookup_singleton_ne {k k' : PyStr} (h : k' ≠ k) (v : PyJson) : lookup k [(k', v)] = none := by
  rw [lookup, if_neg h, lookup]

theorem array_rebuilt (path : PyStr) (dropped : List PyStr) {items : PyJson} (hvalid : valid format (.obj fields) = true)
    (hitems : Rebuilt format repr kept items) :
    Rebuilt format repr (opaqueClean fields && kept) (arrayNode path fields items dropped).1 := by
  have hsafe : ofString "array" ∈ safeSchemaTypes := by decide
  have hcommonKeys : ∀ k ∈ commonKeys, ofString "type" ≠ k ∧ ofString "items" ≠ k ∧ k ∈ arrayKeys := by decide
  obtain ⟨nodeFields, hnode⟩ : ∃ nodeFields, items = .obj nodeFields := normalized_isDict hitems
  constructor
  · rw [arrayNode, valid_obj_iff, forall_append_iff, forall_append_iff]
    refine ⟨⟨?_, valid_copyKeys _ hvalid⟩, ?_⟩
    · intro f hf
      rw [List.mem_singleton.1 hf]
      exact valid_typeEntry hsafe
    · intro f hf
      have hshape : shapeOf (ofString "items") = .items := by decide
      have hschema := hitems.isSchema
      rw [hnode, valid, validAs] at hschema
      rw [List.mem_singleton.1 hf, hshape, hnode, validAs]
      exact hschema
  · intro root path'
    rw [arrayNode, normalizeNode]
    have htype : lookup (ofString "type") ([typeEntry "array"] ++ copyKeys commonKeys fields ++
        [(ofString "items", items)]) = some (.str "array") := lookup_type_rebuilt "array" _
    have hcommon : copyKeys commonKeys ([typeEntry "array"] ++ copyKeys commonKeys fields ++
        [(ofString "items", items)]) = copyKeys commonKeys fields :=
      copyKeys_rebuilt (fun k hk => lookup_singleton_ne (hcommonKeys k hk).1 _)
        (fun k hk => lookup_singleton_ne (hcommonKeys k hk).2.1 _)
    have hdropped : droppedKeys path' arrayKeys ([typeEntry "array"] ++ copyKeys commonKeys fields ++
        [(ofString "items", items)]) = [] := by
      apply droppedKeys_nil
      rw [forall_append_iff, forall_append_iff]
      refine ⟨⟨?_, ?_⟩, ?_⟩
      · intro f hf
        rw [List.mem_singleton.1 hf]
        decide
      · rintro ⟨k, v⟩ hf
        exact (hcommonKeys k (mem_copyKeys.1 hf).1).2.2
      · intro f hf
        rw [List.mem_singleton.1 hf]
        show ofString "items" ∈ arrayKeys
        decide
    have hnormal : normalizeItems repr path' ([typeEntry "array"] ++ copyKeys commonKeys fields ++
        [(ofString "items", items)]) = .ok (items, []) := by
      have hlookup : lookup (ofString "items") ([typeEntry "array"] ++ copyKeys commonKeys fields ++
          [(ofString "items", items)]) = some (.obj nodeFields) := by
        rw [lookup_append, lookup_append, lookup_copyKeys, if_neg (by decide), typeEntry, lookup_singleton_ne (by decide), hnode]
        rfl
      rw [normalizeItems_lookup repr path' hlookup, ← hnode]
      exact hitems.stable false _
    rw [htype, normalizeType_safe _ _ _ hsafe]
    dsimp only [bind, Except.bind]
    rw [if_neg (by decide), if_pos rfl, hnormal]
    dsimp only [pure, Except.pure]
    rw [arrayNode, hcommon, hdropped]
    rfl
  · have hkey : ofString "items" ∈ safeSchemaKeys := by decide
    rw [arrayNode, clean, cleanFields_append, cleanFields_append, clean_typeEntry hsafe, clean_common hvalid, Bool.true_and,
      ← hitems.isClean]
    have hproperties : ofString "items" ≠ ofString "properties" := by decide
    have htype : ofString "items" ≠ ofString "type" := by decide
    simp [cleanFields, keyClean, hkey, hproperties, htype]

theorem normalizeEntries_stable (h : RebuiltMap format repr kept properties) (path : PyStr) :
    normalizeEntries repr path properties = .ok (properties, []) := by
  obtain ⟨-, hstable, -⟩ := h
  induction properties with
  | nil => rfl
  | cons e properties ih =>
    obtain ⟨he, hrest⟩ := List.forall_mem_cons.1 hstable
    rw [normalizeEntries, he false _, ih hrest]
    rfl

/-- what `required` becomes: strings of the list, all of them declared -/
theorem normalizeRequired_ok (properties : List (PyStr × PyJson)) (path : PyStr)
    (hvalid : valid format (.obj fields) = true) :
    ∃ required dropped, normalizeRequired path properties (lookup "required" fields) = .ok (required, dropped) ∧
      distinctStrings required = true ∧ ∀ v ∈ required, isDeclared properties v = .ok true := by
  match hrequired : lookup (ofString "required") fields with
  | none => exact ⟨[], [], rfl, rfl, fun v hv => absurd hv List.not_mem_nil⟩
  | some v =>
    have hshape : shapeOf (ofString "required") = .strings := by decide
    have hv := valid_lookup hvalid hrequired
    rw [hshape] at hv
    match v with
    | .arr names =>
      rw [validAs, distinctStrings, and_eq_true, List.all_eq_true, decide_eq_true_eq] at hv
      refine ⟨names.filter (fun v => isDeclared properties v = .ok true),
        if (names.filter (fun v => isDeclared properties v = .ok true)).length = names.length then []
        else [path ++ ofString ".required: removed unknown property references"], ?_, ?_, ?_⟩
      · rw [normalizeRequired, filterDeclared_strings hv.1]
        rfl
      · rw [distinctStrings, and_eq_true, List.all_eq_true, decide_eq_true_eq]
        exact ⟨fun v hmem => hv.1 v (List.mem_filter.1 hmem).1, hv.2.filter _⟩
      · intro v hmem
        exact of_decide_eq_true (List.mem_filter.1 hmem).2

theorem normalizeRequired_stable (path : PyStr) (hstrings : distinctStrings required = true)
    (hdeclared : ∀ v ∈ required, isDeclared properties v = .ok true) :
    normalizeRequired path properties (some (.arr required)) = .ok (required, []) := by
  rw [distinctStrings, and_eq_true, List.all_eq_true] at hstrings
  have hall : required.filter (fun v => isDeclared properties v = .ok true) = required := by
    apply List.filter_eq_self.2
    intro v hv
    exact decide_eq_true (hdeclared v hv)
  rw [normalizeRequired, filterDeclared_strings hstrings.1, hall]
  simp [bind, Except.bind, pure, Except.pure]

theorem mem_requiredEntry {f : PyStr × PyJson} (h : f ∈ requiredEntry required) :
    f = (ofString "required", .arr required) := by
  unfold requiredEntry at h
  split_ifs at h
  · cases h
  · exact List.mem_singleton.1 h

theorem lookup_requiredEntry_ne {k : PyStr} (h : ofString "required" ≠ k) : lookup k (requiredEntry required) = none := by
  unfold requiredEntry
  split_ifs
  · rfl
  · exact lookup_singleton_ne h _

theorem clean_requiredEntry (h : distinctStrings required = true) : cleanFields false (requiredEntry required) = true := by
  rw [cleanFields_iff]
  intro f hf
  rw [distinctStrings, and_eq_true, List.all_eq_true] at h
  rw [mem_requiredEntry hf]
  have hkey : keyClean (ofString "required") (.arr required) = true := by
    have hsafe : ofString "required" ∈ safeSchemaKeys := by decide
    have htype : ofString "required" ≠ ofString "type" := by decide
    simp [keyClean, hsafe, htype]
  refine ⟨hkey, ?_⟩
  rw [clean, cleanItems_iff]
  intro v hv
  have hstr := h.1 v hv
  match v with
  | .str s => rfl

theorem object_rebuilt (path : PyStr) (dropped : List PyStr) (hvalid : valid format (.obj fields) = true)
    (hproperties : RebuiltMap format repr kept properties) :
    ∃ n d, objectNode path fields properties dropped = .ok (n, d) ∧ Rebuilt format repr (opaqueClean fields && kept) n := by
  obtain ⟨required, droppedRequired, hrequired, hstrings, hdeclared⟩ := normalizeRequired_ok properties path hvalid
  refine ⟨_, _, by rw [objectNode, hrequired]; rfl, ?_⟩
  have hsafe : ofString "object" ∈ safeSchemaTypes := by decide
  have hcommonKeys : ∀ k ∈ commonKeys, ofString "type" ≠ k ∧ ofString "properties" ≠ k ∧
      ofString "required" ≠ k ∧ k ∈ objectKeys := by decide
  constructor
  · rw [valid_obj_iff, forall_append_iff, forall_append_iff]
    refine ⟨⟨?_, valid_copyKeys _ hvalid⟩, ?_⟩
    · rw [List.forall_mem_cons, List.forall_mem_singleton]
      refine ⟨valid_typeEntry hsafe, ?_⟩
      have hshape : shapeOf (ofString "properties") = .schemaMap := by decide
      rw [hshape, validAs, validMap_iff]
      exact hproperties.isSchema
    · intro f hf
      have hshape : shapeOf (ofString "required") = .strings := by decide
      rw [mem_requiredEntry hf, hshape, validAs]
      exact hstrings
  · intro root path'
    have htype : lookup (ofString "type") ([typeEntry "object", (ofString "properties", .obj properties)] ++
        copyKeys commonKeys fields ++ requiredEntry required) = some (.str "object") := lookup_type_rebuilt "object" _
    have hpairs : ∀ k, ofString "type" ≠ k → ofString "properties" ≠ k →
        lookup k [typeEntry "object", (ofString "properties", .obj properties)] = none := by
      intro k htype hprops
      rw [typeEntry, lookup, if_neg htype]
      exact lookup_singleton_ne hprops _
    have hcommon : copyKeys commonKeys ([typeEntry "object", (ofString "properties", .obj properties)] ++
        copyKeys commonKeys fields ++ requiredEntry required) = copyKeys commonKeys fields :=
      copyKeys_rebuilt (fun k hk => hpairs k (hcommonKeys k hk).1 (hcommonKeys k hk).2.1)
        (fun k hk => lookup_requiredEntry_ne (hcommonKeys k hk).2.2.1)
    have hprops : normalizeProperties repr path' ([typeEntry "object", (ofString "properties", .obj properties)] ++
        copyKeys commonKeys fields ++ requiredEntry required) = .ok (properties, []) := by
      exact normalizeEntries_stable hproperties path'
    have hreq : normalizeRequired path' properties (lookup (ofString "required")
        ([typeEntry "object", (ofString "properties", .obj properties)] ++ copyKeys commonKeys fields ++
          requiredEntry required)) = .ok (required, []) := by
      rw [lookup_append, lookup_append, hpairs _ (by decide) (by decide), lookup_copyKeys, if_neg (by decide), none_or,
        none_or]
      unfold requiredEntry
      split_ifs with hnil
      · rw [hnil]
        rfl
      · exact normalizeRequired_stable path' hstrings hdeclared
    have hdropped : droppedKeys path' objectKeys ([typeEntry "object", (ofString "properties", .obj properties)] ++
        copyKeys commonKeys fields ++ requiredEntry required) = [] := by
      apply droppedKeys_nil
      rw [forall_append_iff, forall_append_iff, List.forall_mem_cons, List.forall_mem_singleton]
      refine ⟨⟨⟨by decide, ?_⟩, ?_⟩, ?_⟩
      · show ofString "properties" ∈ objectKeys
        decide
      · rintro ⟨k, v⟩ hf
        exact (hcommonKeys k (mem_copyKeys.1 hf).1).2.2.2
      · intro f hf
        rw [mem_requiredEntry hf]
        show ofString "required" ∈ objectKeys
        decide
    rw [normalizeNode, htype, normalizeType_safe _ _ _ hsafe]
    dsimp only [bind, Except.bind]
    rw [if_pos rfl, hprops]
    dsimp only
    rw [objectNode, hreq]
    rw [hcommon, hdropped]
    rfl
  · have hkey : ofString "properties" ∈ safeSchemaKeys := by decide
    have hne : ofString "properties" ≠ ofString "type" := by decide
    have hhead : cleanFields false [typeEntry "object", (ofString "properties", .obj properties)] = kept := by
      have happend : [typeEntry "object", (ofString "properties", PyJson.obj properties)] =
        [typeEntry "object"] ++ [(ofString "properties", .obj properties)] := rfl
      rw [happend, cleanFields_append, clean_typeEntry hsafe, Bool.true_and]
      simp [cleanFields, keyClean, clean, hkey, hne, hproperties.isClean]
    rw [clean, cleanFields_append, cleanFields_append, hhead, clean_common hvalid, clean_requiredEntry hstrings, Bool.and_true,
      Bool.and_comm]

theorem default_rebuilt (root : Bool) : Rebuilt format repr true (if root then safeEmptyObjectSchema else stringSchema) := by
  have hvalid : valid format (.obj []) = true := rfl
  match root with
  | true =>
    have hnone : RebuiltMap format repr true [] := rebuiltMap_nil
    obtain ⟨n, d, hnode, hn⟩ := object_rebuilt [] [] hvalid hnone
    cases hnode
    exact hn
  | false => exact scalar_rebuilt [] [] hvalid (by decide) (by decide) (by decide)

/-! ## Normalising a schema -/

/-- a value that is a schema if it is a dict -/
def ValidIfDict (format : String → PyStr → Bool) (v : PyJson) : Prop := v.isDict = true → valid format v = true

mutual
/-- **A node is rebuilt as a schema that is rebuilt as itself.** -/
theorem normalizeNode_spec (format : String → PyStr → Bool) (repr : List PyJson → PyStr) :
    ∀ (v : PyJson) (root : Bool) (path : PyStr), ValidIfDict format v →
      ∃ n d, normalizeNode repr root path v = .ok (n, d) ∧ Rebuilt format repr (keptClean root v) n
  | .obj fields, root, path, h => by
    have hvalid : valid format (.obj fields) = true := h rfl
    have hfields : validFields format fields = true := by rwa [valid, validAs] at hvalid
    have hshape : shapeOf (ofString "type") = .simpleType := by decide
    have hsimple : ∀ v, lookup (ofString "type") fields = some v → validAs format .simpleType v = true := by
      intro v hv
      rw [← hshape]
      exact valid_lookup hvalid hv
    obtain ⟨droppedType, htype⟩ := normalizeType_ok repr format path (fallbackType root fields) hsimple
    have hsafe := chosenType_safe (fallbackType_safe root fields) (lookup (ofString "type") fields)
    rw [normalizeNode, htype, keptClean]
    dsimp only [bind, Except.bind]
    split_ifs with hobject harray
    · obtain ⟨properties, dropped, hprops, hrebuilt⟩ := normalizeProperties_spec format repr fields path hfields
      rw [hprops]
      exact object_rebuilt path _ hvalid hrebuilt
    · obtain ⟨items, dropped, hitems, hrebuilt⟩ := normalizeItems_spec format repr fields path hfields
      rw [hitems]
      exact ⟨_, _, rfl, array_rebuilt path (droppedType ++ dropped) hvalid hrebuilt⟩
    · refine ⟨_, _, rfl, ?_⟩
      rw [Bool.and_true]
      exact scalar_rebuilt path droppedType hvalid hsafe hobject harray
  | .null, root, _, _ => ⟨_, _, rfl, default_rebuilt root⟩
  | .bool _, root, _, _ => ⟨_, _, rfl, default_rebuilt root⟩
  | .int _, root, _, _ => ⟨_, _, rfl, default_rebuilt root⟩
  | .float _, root, _, _ => ⟨_, _, rfl, default_rebuilt root⟩
  | .str _, root, _, _ => ⟨_, _, rfl, default_rebuilt root⟩
  | .arr _, root, _, _ => ⟨_, _, rfl, default_rebuilt root⟩

theorem normalizeProperties_spec (format : String → PyStr → Bool) (repr : List PyJson → PyStr) :
    ∀ (fields : List (PyStr × PyJson)) (path : PyStr), validFields format fields = true →
      ∃ properties d, normalizeProperties repr path fields = .ok (properties, d) ∧
        RebuiltMap format repr (keptProperties fields) properties
  | [], _, _ => ⟨[], [], rfl, rebuiltMap_nil⟩
  | (key, value) :: fields, path, h => by
    rw [validFields, and_eq_true] at h
    unfold normalizeProperties keptProperties
    split_ifs with hkey
    · have hshape : shapeOf (ofString "properties") = .schemaMap := by decide
      have hvalue := h.1
      rw [hkey, hshape] at hvalue
      match value with
      | .obj entries =>
        rw [validAs] at hvalue
        exact normalizeEntries_spec format repr entries path hvalue
    · exact normalizeProperties_spec format repr fields path h.2

theorem normalizeEntries_spec (format : String → PyStr → Bool) (repr : List PyJson → PyStr) :
    ∀ (entries : List (PyStr × PyJson)) (path : PyStr), validMap format .schema entries = true →
      ∃ properties d, normalizeEntries repr path entries = .ok (properties, d) ∧
        RebuiltMap format repr (keptEntries entries) properties
  | [], _, _ => ⟨[], [], rfl, rebuiltMap_nil⟩
  | (key, value) :: entries, path, h => by
    rw [validMap, and_eq_true] at h
    obtain ⟨n, d, hnode, hn⟩ :=
      normalizeNode_spec format repr value false (path ++ ofString ".properties." ++ key) (fun _ => h.1)
    obtain ⟨properties, dropped, hrest, hprops⟩ := normalizeEntries_spec format repr entries path h.2
    refine ⟨(key, n) :: properties, d ++ dropped, ?_, RebuiltMap.cons hn hprops⟩
    rw [normalizeEntries, hnode, hrest]
    rfl

theorem normalizeItems_spec (format : String → PyStr → Bool) (repr : List PyJson → PyStr) :
    ∀ (fields : List (PyStr × PyJson)) (path : PyStr), validFields format fields = true →
      ∃ n d, normalizeItems repr path fields = .ok (n, d) ∧ Rebuilt format repr (keptItems fields) n
  | [], _, _ => ⟨_, _, rfl, default_rebuilt false⟩
  | (key, value) :: fields, path, h => by
    rw [validFields, and_eq_true] at h
    unfold normalizeItems keptItems
    split_ifs with hkey
    · have hshape : shapeOf (ofString "items") = .items := by decide
      have hvalue := h.1
      rw [hkey, hshape] at hvalue
      have hnode := normalizeNode_spec format repr value false (path ++ ofString ".items") (by
        intro hdict
        match value with
        | .obj entries =>
          rw [validAs] at hvalue
          rwa [valid, validAs])
      match value with
      | .obj _ => exact hnode
      | .arr _ => exact hnode
      | .bool _ => exact hnode
    · exact normalizeItems_spec format repr fields path h.2
end

theorem normalize_obj (repr : List PyJson → PyStr) (fields : List (PyStr × PyJson)) :
    normalizeToSafeSchemaSubset repr (.obj fields) = normalizeNode repr true (ofString "$") (.obj fields) := by
  match fields with
  | [] => rfl
  | _ :: _ => rfl

/-- **Normalising a schema.** It returns, the result normalises to itself with nothing reported, and the result is in the safe
subset exactly when `default` and `enum` are clean in every node that is kept. -/
theorem normalize_safe_iff (format : String → PyStr → Bool) (repr : List PyJson → PyStr) (fields : List (PyStr × PyJson))
    (h : valid format (.obj fields) = true) :
    ∃ n dropped, normalizeToSafeSchemaSubset repr (.obj fields) = .ok (n, dropped) ∧
      normalizeToSafeSchemaSubset repr n = .ok (n, []) ∧
      (validateSafeSchemaSubset format repr n = .ok [] ↔ keptClean true (.obj fields) = true) := by
  obtain ⟨n, dropped, hnode, hrebuilt⟩ := normalizeNode_spec format repr (.obj fields) true (ofString "$") (fun _ => h)
  refine ⟨n, dropped, ?_, ?_, ?_⟩
  · rw [normalize_obj]
    exact hnode
  · obtain ⟨nodeFields, hn⟩ := normalized_isDict hrebuilt
    rw [hn, normalize_obj, ← hn]
    exact hrebuilt.stable true _
  · rw [validateSafeSchemaSubset, if_pos hrebuilt.isSchema, walk_clean_iff, hrebuilt.isClean]

/-- a schema whose default is a dict: the normaliser keeps the default, the validator refuses a key of it; and one with a
list in a `type` key of its default, at which the validator raises -/
theorem default_refused :
    valid (fun _ _ => true) (.obj [("default", .obj [("region", .str "eu")])]) = true ∧
    (normalizeToSafeSchemaSubset (fun _ => []) (.obj [("default", .obj [("region", .str "eu")])]) =
        .ok (.obj [("type", .str "object"), ("properties", .obj []), ("default", .obj [("region", .str "eu")])], []) ∧
      validateSafeSchemaSubset (fun _ _ => true) (fun _ => [])
          (.obj [("type", .str "object"), ("properties", .obj []), ("default", .obj [("region", .str "eu")])]) =
        .ok ["$.default.region: keyword not supported"]) ∧
      validateSafeSchemaSubset (fun _ _ => true) (fun _ => [])
          (.obj [("type", .str "object"), ("properties", .obj []), ("default", .obj [("type", .arr [.arr []])])]) =
        .error .typeError := by
  decide +kernel

/-- a schema with a text as its default normalises into the safe subset -/
theorem normalize_safe_iff_text :
    ∃ n dropped, normalizeToSafeSchemaSubset (fun _ => []) (.obj [("default", .str "eu"), ("oneOf", .arr [.bool true])]) =
        .ok (n, dropped) ∧
      normalizeToSafeSchemaSubset (fun _ => []) n = .ok (n, []) ∧
      (validateSafeSchemaSubset (fun _ _ => true) (fun _ => []) n = .ok [] ↔
        keptClean true (.obj [("default", .str "eu"), ("oneOf", .arr [.bool true])]) = true) :=
  normalize_safe_iff (fun _ _ => true) (fun _ => []) [("default", .str "eu"), ("oneOf", .arr [.bool true])] (by decide +kernel)

end Teardrop.ToolSchema
