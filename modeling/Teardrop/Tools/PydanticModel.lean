/-
`build_pydantic_model` of `tools/schema.py`: the fields of a model from the properties of a schema, each with a Python type
and the constraints that go with its declared type.

`create_model` and the models it makes are a parameter (`Pydantic`), with what is documented of them: a value of a `Literal`
field equals one of its members, and `ge`, `le`, `min_length`, `max_length` and `pattern` are enforced.
-/
import Teardrop.Tools.ToolSchema

namespace Teardrop.PydanticModel

open Py PyJson Draft7 ToolSchema

/-! ## Fields -/

/-- a Python type of a JSON type -/
inductive Scalar where
  | dict
  | str
  | int
  | float
  | bool
  | list
deriving DecidableEq

/-- the type of a field: a plain one, `list[…]`, or a `Literal` -/
inductive PyType where
  | plain (t : Scalar)
  | listOf (item : Scalar)
  | literal (values : List PyJson)
deriving DecidableEq

/-- the keyword arguments of `Field` -/
structure Constraints where
  ge : Option PyJson
  le : Option PyJson
  minLength : Option PyJson
  maxLength : Option PyJson
  pattern : Option PyJson
deriving DecidableEq

/-- a field: its type, whether `None` is allowed besides (and the default), its description and its constraints -/
structure Field where
  type : PyType
  optional : Bool
  description : PyJson
  constraints : Constraints
deriving DecidableEq

def jsonSchemaTypeMap : List (String × Scalar) :=
  [("object", .dict), ("string", .str), ("integer", .int), ("number", .float), ("boolean", .bool), ("array", .list)]

/-- `_JSON_SCHEMA_TYPE_MAP.get(json_type, str)`; a list or a dict cannot be hashed -/
def mapType : PyJson → Call Scalar
  | .str s => .ok (((jsonSchemaTypeMap.find? (fun entry => PyStr.ofString entry.1 = s)).map Prod.snd).getD .str)
  | .arr _ | .obj _ => .error .typeError
  | _ => .ok .str

/-- `field_def.get("type", "string")` -/
def jsonType (fields : List (PyStr × PyJson)) : PyJson := (lookup "type" fields).getD (.str "string")

/-- the type of the elements of an array -/
def itemType (fields : List (PyStr × PyJson)) : Call Scalar :=
  match lookup "items" fields with
  | some (.obj (item :: items)) => mapType (jsonType (item :: items))
  | _ => .ok .str

def buildFieldConstraints (fields : List (PyStr × PyJson)) (jsonType : PyJson) : Constraints :=
  if jsonType = .str "integer" ∨ jsonType = .str "number" then
    ⟨lookup "minimum" fields, lookup "maximum" fields, none, none, none⟩
  else if jsonType = .str "string" then
    ⟨none, none, lookup "minLength" fields, lookup "maxLength" fields, (lookup "pattern" fields).filter truthy⟩
  else ⟨none, none, none, none, none⟩

/-- the type of a field, before its `enum` is looked at -/
def baseType (fields : List (PyStr × PyJson)) : Call PyType := do
  let pyType ← mapType (jsonType fields)
  if jsonType fields = .str "array" then do
    let item ← itemType fields
    pure (.listOf item)
  else pure (.plain pyType)

/-- a non-empty `enum` -/
def enumType (fields : List (PyStr × PyJson)) (base : PyType) : PyType :=
  match lookup "enum" fields with
  | some (.arr (v :: vs)) => .literal (v :: vs)
  | _ => base

/-- the field of a property; anything but a dict has no `get` -/
def fieldOf (required : Bool) : PyJson → Call Field
  | .obj fields => do
    let base ← baseType fields
    pure ⟨enumType fields base, !required, (lookup "description" fields).getD (.str []),
      buildFieldConstraints fields (jsonType fields)⟩
  | _ => .error .attributeError

def buildFields (required : PyStr → Bool) : List (PyStr × PyJson) → Call (List (PyStr × Field))
  | [] => .ok []
  | (name, fieldDef) :: properties => do
    let field ← fieldOf (required name) fieldDef
    let fields ← buildFields required properties
    pure ((name, field) :: fields)

/-- `set(schema.get("required", []))`: the strings in it -/
def requiredSet : Option PyJson → Call (List PyJson)
  | none => .ok []
  | some (.arr vs) => if vs.any (fun v => inSafeTypes v = .error .typeError) then .error .typeError else .ok vs
  | some (.str s) => .ok (s.map (fun c => .str [c]))
  | some (.obj fields) => .ok (fields.map (fun f => .str f.1))
  | some _ => .error .typeError

/-- the fields handed to `create_model` -/
def modelFields : PyJson → Call (List (PyStr × Field))
  | .obj schema =>
    match (lookup "properties" schema).getD (.obj []) with
    | .obj properties => do
      let required ← requiredSet (lookup "required" schema)
      buildFields (fun name => .str name ∈ required) properties
    | _ => do
      let _ ← requiredSet (lookup "required" schema)
      .error .attributeError
  | _ => .error .attributeError

/-! ## What the property itself rejects -/

/-- a number on a scale of 2^-1074, with the infinities at its ends -/
def scaled : PyJson → Option (ℤ × ℤ)
  | .int n => some (0, n * 2 ^ 1074)
  | .float (.finite negative k) => some (0, if negative then -(Double.units k.val : ℤ) else Double.units k.val)
  | .float (.inf negative) => some (if negative then -1 else 1, 0)
  | _ => none

/-- `v < w` of two numbers -/
def less (v w : PyJson) : Bool :=
  match scaled v, scaled w with
  | some a, some b => a.1 < b.1 || (a.1 = b.1 && a.2 < b.2)
  | _, _ => false

/-- a value of a JSON type -/
def hasType : PyStr → PyJson → Bool
  | t, .obj _ => t = PyStr.ofString "object"
  | t, .arr _ => t = PyStr.ofString "array"
  | t, .str _ => t = PyStr.ofString "string"
  | t, .bool _ => t = PyStr.ofString "boolean"
  | t, .int _ => t = PyStr.ofString "integer" || t = PyStr.ofString "number"
  | t, .float (.finite _ k) => t = PyStr.ofString "number" ||
    (t = PyStr.ofString "integer" && Double.units k.val % 2 ^ 1074 = 0)
  | t, .float _ => t = PyStr.ofString "number"
  | _, .null => false

/-- `create_model`, the models it makes, and how values and texts compare -/
structure Pydantic where
  /-- what `create_model` raises at a field whose name or type is not legal for it -/
  refusal : PyStr → Field → Option Exc
  /-- the model accepts the value for the field -/
  accepts : Field → PyJson → Bool
  /-- two values are equal, to `enum` and to `Literal` -/
  same : PyJson → PyJson → Bool
  /-- the pattern matches somewhere in the text -/
  search : PyStr → PyStr → Bool
  literal : ∀ f values v, f.type = .literal values → accepts f v = true → v = .null ∨ ∃ w ∈ values, same v w = true
  ge : ∀ f b v, f.constraints.ge = some b → accepts f v = true → less v b = false
  le : ∀ f b v, f.constraints.le = some b → accepts f v = true → less b v = false
  minLength : ∀ f b s, f.constraints.minLength = some b → accepts f (.str s) = true → less (.int s.length) b = false
  maxLength : ∀ f b s, f.constraints.maxLength = some b → accepts f (.str s) = true → less b (.int s.length) = false
  search_empty : ∀ s, search [] s = true
  pattern : ∀ f p s, f.constraints.pattern = some (.str p) → accepts f (.str s) = true → search p s = true

/-- a keyword of a property rejects a value -/
inductive Rejects (py : Pydantic) (fields : List (PyStr × PyJson)) : PyJson → Prop where
  | enum {values : List PyJson} {v : PyJson} : lookup "enum" fields = some (.arr values) →
      (∀ w ∈ values, py.same v w = false) → Rejects py fields v
  | minimum {b v : PyJson} : lookup "minimum" fields = some b → less v b = true → Rejects py fields v
  | maximum {b v : PyJson} : lookup "maximum" fields = some b → less b v = true → Rejects py fields v
  | minLength {b : PyJson} {s : PyStr} : lookup "minLength" fields = some b → less (.int s.length) b = true →
      Rejects py fields (.str s)
  | maxLength {b : PyJson} {s : PyStr} : lookup "maxLength" fields = some b → less b (.int s.length) = true →
      Rejects py fields (.str s)
  | pattern {p s : PyStr} : lookup "pattern" fields = some (.str p) → py.search p s = false → Rejects py fields (.str s)

def buildPydanticModel (py : Pydantic) (schema : PyJson) : Call (List (PyStr × Field)) := do
  let fields ← modelFields schema
  match fields.findSome? (fun f => py.refusal f.1 f.2) with
  | some e => .error e
  | none => pure fields

/-! ## Which definitions have a field -/

/-- a value that can be a key of a Python dict -/
def hashable : PyJson → Bool
  | .arr _ | .obj _ => false
  | _ => true

/-- no list of types for the elements -/
def itemsHashable (fields : List (PyStr × PyJson)) : Bool :=
  match lookup "items" fields with
  | some (.obj (item :: items)) => hashable (jsonType (item :: items))
  | _ => true

/-- a definition that is a dict, without a list of types for itself or, of an array, for its elements -/
def buildable : PyJson → Bool
  | .obj fields => hashable (jsonType fields) && (jsonType fields ≠ .str "array" || itemsHashable fields)
  | _ => false

theorem mapType_ok_iff (v : PyJson) : (∃ t, mapType v = .ok t) ↔ hashable v = true := by
  cases v with
  | null => exact iff_of_true ⟨.str, rfl⟩ rfl
  | bool _ => exact iff_of_true ⟨.str, rfl⟩ rfl
  | int _ => exact iff_of_true ⟨.str, rfl⟩ rfl
  | float _ => exact iff_of_true ⟨.str, rfl⟩ rfl
  | str s => exact iff_of_true ⟨_, rfl⟩ rfl
  | arr _ => simp [mapType, hashable]
  | obj _ => simp [mapType, hashable]

theorem itemType_ok_iff (fields : List (PyStr × PyJson)) : (∃ t, itemType fields = .ok t) ↔ itemsHashable fields = true := by
  unfold itemType itemsHashable
  split
  · exact mapType_ok_iff _
  · exact iff_of_true ⟨.str, rfl⟩ rfl

theorem baseType_ok_iff (fields : List (PyStr × PyJson)) : (∃ t, baseType fields = .ok t) ↔ buildable (.obj fields) = true := by
  rw [buildable, baseType, Bool.and_eq_true, Bool.or_eq_true, ← mapType_ok_iff, ← itemType_ok_iff, decide_eq_true_eq]
  cases mapType (jsonType fields) with
  | error e => simp [bind, Except.bind]
  | ok t =>
    by_cases harray : jsonType fields = .str "array"
    · cases itemType fields with
      | error e => simp [bind, Except.bind, harray]
      | ok item => simp [bind, Except.bind, pure, Except.pure, harray]
    · simp [bind, Except.bind, pure, Except.pure, harray]

theorem fieldOf_ok_iff (required : Bool) (d : PyJson) : (∃ f, fieldOf required d = .ok f) ↔ buildable d = true := by
  cases d with
  | obj fields =>
    rw [← baseType_ok_iff, fieldOf]
    cases baseType fields with
    | error e => simp [bind, Except.bind]
    | ok base => simp [bind, Except.bind, pure, Except.pure]
  | null => simp [fieldOf, buildable]
  | bool _ => simp [fieldOf, buildable]
  | int _ => simp [fieldOf, buildable]
  | float _ => simp [fieldOf, buildable]
  | str _ => simp [fieldOf, buildable]
  | arr _ => simp [fieldOf, buildable]

/-- what `buildFields` made: a field for each property -/
theorem buildFields_spec {required : PyStr → Bool} {properties : List (PyStr × PyJson)} {fields : List (PyStr × Field)}
    (h : buildFields required properties = .ok fields) :
    (∀ p ∈ properties, ∃ f, fieldOf (required p.1) p.2 = .ok f ∧ (p.1, f) ∈ fields) ∧
      ∀ e ∈ fields, ∃ p ∈ properties, p.1 = e.1 ∧ fieldOf (required p.1) p.2 = .ok e.2 := by
  induction properties generalizing fields with
  | nil =>
    cases h
    simp
  | cons p properties ih =>
    obtain ⟨f, hf, h⟩ := bind_eq_ok h
    obtain ⟨rest, hrest, h⟩ := bind_eq_ok h
    cases h
    obtain ⟨hall, hmade⟩ := ih hrest
    refine ⟨?_, ?_⟩
    · refine List.forall_mem_cons.2 ⟨⟨f, hf, List.mem_cons_self⟩, ?_⟩
      intro q hq
      obtain ⟨g, hg, hmem⟩ := hall q hq
      exact ⟨g, hg, List.mem_cons_of_mem _ hmem⟩
    · refine List.forall_mem_cons.2 ⟨⟨p, List.mem_cons_self, rfl, hf⟩, ?_⟩
      intro e he
      obtain ⟨q, hq, hname, hfield⟩ := hmade e he
      exact ⟨q, List.mem_cons_of_mem p hq, hname, hfield⟩

theorem buildFields_ok_iff (required : PyStr → Bool) (properties : List (PyStr × PyJson)) :
    (∃ fields, buildFields required properties = .ok fields) ↔ ∀ p ∈ properties, buildable p.2 = true := by
  constructor
  · rintro ⟨fields, h⟩ p hp
    obtain ⟨f, hf, -⟩ := (buildFields_spec h).1 p hp
    exact (fieldOf_ok_iff (required p.1) p.2).1 ⟨f, hf⟩
  · intro h
    induction properties with
    | nil => exact ⟨[], rfl⟩
    | cons p properties ih =>
      obtain ⟨hp, hrest⟩ := List.forall_mem_cons.1 h
      obtain ⟨f, hf⟩ := (fieldOf_ok_iff (required p.1) p.2).2 hp
      obtain ⟨fields, hfields⟩ := ih hrest
      exact ⟨(p.1, f) :: fields, by rw [buildFields, hf, hfields]; rfl⟩

/-! ## Which fields enforce their property -/

theorem fieldOf_eq {required : Bool} {fields : List (PyStr × PyJson)} {f : Field} (h : fieldOf required (.obj fields) = .ok f) :
    (∃ base, f.type = enumType fields base) ∧ f.constraints = buildFieldConstraints fields (jsonType fields) := by
  obtain ⟨base, -, h⟩ := bind_eq_ok h
  cases h
  exact ⟨⟨base, rfl⟩, rfl⟩

theorem scaled_hasType {t : PyStr} {v : PyJson} (ht : hasType t v = true) (hv : scaled v ≠ none) :
    PyJson.str t = .str "integer" ∨ PyJson.str t = .str "number" := by
  match v with
  | .int n => simpa [hasType] using ht
  | .float (.finite negative k) =>
    simp only [hasType, Bool.or_eq_true, decide_eq_true_eq, Bool.and_eq_true] at ht
    rcases ht with hnumber | ⟨hinteger, -⟩
    · exact .inr (congrArg PyJson.str hnumber)
    · exact .inl (congrArg PyJson.str hinteger)
  | .float (.inf negative) =>
    simp only [hasType, decide_eq_true_eq] at ht
    exact .inr (congrArg PyJson.str ht)
  | .float .nan => exact absurd rfl hv
  | .null => exact absurd rfl hv
  | .bool _ => exact absurd rfl hv
  | .str _ => exact absurd rfl hv
  | .arr _ => exact absurd rfl hv
  | .obj _ => exact absurd rfl hv

theorem less_scaled {v w : PyJson} (h : less v w = true) : scaled v ≠ none ∧ scaled w ≠ none := by
  unfold less at h
  split at h
  · rename_i hv hw
    rw [hv, hw]
    simp
  · cases h

/-- **When a field rejects what its property rejects.** For the values of the declared type: unless the `enum` is empty and
the field accepts one of them all the same. -/
theorem enforces_iff {py : Pydantic} {required : Bool} {fields : List (PyStr × PyJson)} {f : Field} {t : PyStr}
    (hfield : fieldOf required (.obj fields) = .ok f) (htype : jsonType fields = .str t) :
    (∀ v, hasType t v = true → Rejects py fields v → py.accepts f v = false) ↔
      (lookup "enum" fields = some (.arr []) → ∀ v, hasType t v = true → py.accepts f v = false) := by
  obtain ⟨⟨base, hbase⟩, hconstraints⟩ := fieldOf_eq hfield
  rw [htype] at hconstraints
  constructor
  · intro h hempty v hv
    exact h v hv (.enum hempty (fun w hw => absurd hw List.not_mem_nil))
  · intro h v hv hrejects
    rw [← Bool.not_eq_true]
    intro haccepts
    have hnumbers : scaled v ≠ none → f.constraints.ge = lookup "minimum" fields ∧ f.constraints.le = lookup "maximum" fields := by
      intro hscaled
      rw [hconstraints, buildFieldConstraints, if_pos (scaled_hasType hv hscaled)]
      exact ⟨rfl, rfl⟩
    have htexts : ∀ s, v = .str s → f.constraints.minLength = lookup "minLength" fields ∧
        f.constraints.maxLength = lookup "maxLength" fields ∧
        f.constraints.pattern = (lookup "pattern" fields).filter truthy := by
      rintro s rfl
      have hstring : t = PyStr.ofString "string" := of_decide_eq_true hv
      rw [hconstraints, buildFieldConstraints, hstring, if_neg (by decide), if_pos rfl]
      exact ⟨rfl, rfl, rfl⟩
    cases hrejects with
    | @enum values _ henum hnone =>
      match values with
      | [] => exact absurd haccepts (by rw [h henum v hv]; decide)
      | w :: ws =>
        have hliteral : f.type = .literal (w :: ws) := by rw [hbase, enumType, henum]
        rcases py.literal f (w :: ws) v hliteral haccepts with rfl | ⟨w', hw', hsame⟩
        · cases hv
        · rw [hnone w' hw'] at hsame
          cases hsame
    | @minimum b _ hmin hless =>
      have hge := py.ge f b v ((hnumbers (less_scaled hless).1).1.trans hmin) haccepts
      rw [hless] at hge
      cases hge
    | @maximum b _ hmax hless =>
      have hle := py.le f b v ((hnumbers (less_scaled hless).2).2.trans hmax) haccepts
      rw [hless] at hle
      cases hle
    | @minLength b s hmin hless =>
      have hlen := py.minLength f b s ((htexts s rfl).1.trans hmin) haccepts
      rw [hless] at hlen
      cases hlen
    | @maxLength b s hmax hless =>
      have hlen := py.maxLength f b s ((htexts s rfl).2.1.trans hmax) haccepts
      rw [hless] at hlen
      cases hlen
    | @pattern p s hpattern hsearch =>
      match p with
      | [] =>
        rw [py.search_empty s] at hsearch
        cases hsearch
      | c :: cs =>
        have hkept : f.constraints.pattern = some (.str (c :: cs)) := by
          rw [(htexts s rfl).2.2, hpattern]
          rfl
        have hfound := py.pattern f (c :: cs) s hkept haccepts
        rw [hsearch] at hfound
        cases hfound

/-! ## Schemas of the safe subset -/

/-- the properties a schema declares -/
def propertiesOf (schema : List (PyStr × PyJson)) : List (PyStr × PyJson) :=
  match lookup "properties" schema with
  | some (.obj properties) => properties
  | _ => []

def isRequired (schema : List (PyStr × PyJson)) (name : PyStr) : Bool :=
  match lookup "required" schema with
  | some (.arr names) => .str name ∈ names
  | _ => false

theorem modelFields_eq {format : String → PyStr → Bool} {schema : List (PyStr × PyJson)}
    (h : valid format (.obj schema) = true) :
    modelFields (.obj schema) = buildFields (isRequired schema) (propertiesOf schema) := by
  have hproperties : ∃ properties, (lookup (PyStr.ofString "properties") schema).getD (.obj []) = .obj properties ∧
      propertiesOf schema = properties := by
    unfold propertiesOf
    match hlookup : lookup (PyStr.ofString "properties") schema with
    | none => exact ⟨[], rfl, rfl⟩
    | some v =>
      have hv := valid_lookup h hlookup
      match v with
      | .obj properties => exact ⟨properties, rfl, rfl⟩
  have hrequired : ∃ required, requiredSet (lookup (PyStr.ofString "required") schema) = .ok required ∧
      (fun name => decide (PyJson.str name ∈ required)) = isRequired schema := by
    unfold isRequired
    match hlookup : lookup (PyStr.ofString "required") schema with
    | none => exact ⟨[], rfl, rfl⟩
    | some v =>
      have hshape : shapeOf (PyStr.ofString "required") = .strings := by decide
      have hv := valid_lookup h hlookup
      rw [hshape] at hv
      match v with
      | .arr names =>
        rw [validAs, distinctStrings, Bool.and_eq_true, List.all_eq_true] at hv
        have hany : names.any (fun v => inSafeTypes v = .error .typeError) = false := by
          rw [List.any_eq_false]
          intro v hmem
          have hstr := hv.1 v hmem
          match v with
          | .str s => simp [inSafeTypes]
        refine ⟨names, ?_, rfl⟩
        rw [requiredSet, hany]
        rfl
  obtain ⟨properties, hlookup, hprops⟩ := hproperties
  obtain ⟨required, hset, hreq⟩ := hrequired
  rw [modelFields, hlookup, hprops, ← hreq]
  rw [hset]
  rfl

/-- a field rejects what its property rejects, of the values of the declared type -/
def Enforces (py : Pydantic) (f : Field) (d : PyJson) : Prop :=
  ∀ fields t v, d = .obj fields → jsonType fields = .str t → hasType t v = true → Rejects py fields v → py.accepts f v = false

/-- the model is built, and has a field for each property that enforces it -/
def BuiltEnforcing (py : Pydantic) (schema : List (PyStr × PyJson)) : Prop :=
  ∃ model, buildPydanticModel py (.obj schema) = .ok model ∧
    ∀ p ∈ propertiesOf schema, ∃ f, fieldOf (isRequired schema p.1) p.2 = .ok f ∧ (p.1, f) ∈ model ∧ Enforces py f p.2

/-- every property is a dict without a list of types (nor, for an array, of element types) and has a name and a type that
`create_model` takes, and no empty `enum` leaves a value of the declared type accepted -/
structure Expressible (py : Pydantic) (schema : List (PyStr × PyJson)) : Prop where
  dicts : ∀ p ∈ propertiesOf schema, buildable p.2 = true
  legal : ∀ p ∈ propertiesOf schema, ∀ f, fieldOf (isRequired schema p.1) p.2 = .ok f → py.refusal p.1 f = none
  enums : ∀ p ∈ propertiesOf schema, ∀ f, fieldOf (isRequired schema p.1) p.2 = .ok f → ∀ fields t, p.2 = .obj fields →
    jsonType fields = .str t → lookup "enum" fields = some (.arr []) → ∀ v, hasType t v = true → py.accepts f v = false

/-- **When a schema of the safe subset is built into a model that enforces it.** -/
theorem build_model_iff (format : String → PyStr → Bool) (repr : List PyJson → PyStr) (py : Pydantic)
    (schema : List (PyStr × PyJson)) (h : validateSafeSchemaSubset format repr (.obj schema) = .ok []) :
    BuiltEnforcing py schema ↔ Expressible py schema := by
  have hvalid : valid format (.obj schema) = true := by
    rw [validateSafeSchemaSubset] at h
    split_ifs at h with hvalid
    · exact hvalid
    · cases h
  unfold BuiltEnforcing buildPydanticModel
  rw [modelFields_eq hvalid]
  constructor
  · rintro ⟨model, hbuild, hall⟩
    obtain ⟨fields, hfields, hbuild⟩ := bind_eq_ok hbuild
    have hlegal : ∀ e ∈ fields, py.refusal e.1 e.2 = none := by
      split at hbuild
      · cases hbuild
      · rename_i hnone
        exact List.findSome?_eq_none_iff.1 hnone
    refine ⟨(buildFields_ok_iff _ _).1 ⟨fields, hfields⟩, ?_, ?_⟩
    · intro p hp f hf
      obtain ⟨g, hg, hmem⟩ := (buildFields_spec hfields).1 p hp
      rw [hf] at hg
      cases hg
      exact hlegal _ hmem
    · intro p hp f hf propFields t hdict htype
      obtain ⟨g, hg, -, henforces⟩ := hall p hp
      rw [hf] at hg
      cases hg
      rw [hdict] at hf
      exact (enforces_iff hf htype).1 (fun v hv hrejects => henforces propFields t v hdict htype hv hrejects)
  · rintro ⟨hdicts, hlegal, henums⟩
    obtain ⟨fields, hfields⟩ := (buildFields_ok_iff (isRequired schema) _).2 hdicts
    have hnone : fields.findSome? (fun f => py.refusal f.1 f.2) = none := by
      rw [List.findSome?_eq_none_iff]
      intro e he
      obtain ⟨p, hp, hname, hfield⟩ := (buildFields_spec hfields).2 e he
      rw [← hname]
      exact hlegal p hp e.2 hfield
    refine ⟨fields, ?_, ?_⟩
    · rw [hfields]
      dsimp only [bind, Except.bind]
      rw [hnone]
      rfl
    · intro p hp
      obtain ⟨f, hf, hmem⟩ := (buildFields_spec hfields).1 p hp
      refine ⟨f, hf, hmem, ?_⟩
      intro propFields t v hdict htype hv hrejects
      have hempty := henums p hp f hf propFields t hdict htype
      rw [hdict] at hf
      exact (enforces_iff hf htype).2 hempty v hv hrejects

/-! ## A strict instance -/

/-- the values of a plain type -/
def scalarAccepts : Scalar → PyJson → Bool
  | .dict, .obj _ | .str, .str _ | .bool, .bool _ | .list, .arr _ => true
  | .int, .int _ | .float, .int _ | .float, .float _ => true
  | _, _ => false

def typeAccepts : PyType → PyJson → Bool
  | .plain t, v => scalarAccepts t v
  | .listOf item, .arr vs => vs.all (scalarAccepts item)
  | .listOf _, _ => false
  | .literal values, v => v ∈ values

def constraintsAccept (search : PyStr → PyStr → Bool) (c : Constraints) (v : PyJson) : Bool :=
  c.ge.all (fun b => !less v b) && c.le.all (fun b => !less b v) &&
    match v with
    | .str s => c.minLength.all (fun b => !less (.int s.length) b) && c.maxLength.all (fun b => !less b (.int s.length)) &&
      (match c.pattern with
        | some (.str p) => search p s
        | _ => true)
    | _ => true

/-- a plain text as a pattern -/
def occurs (p s : PyStr) : Bool := p <:+: s

def strictAccepts (f : Field) (v : PyJson) : Bool :=
  (f.optional && v = .null) || (typeAccepts f.type v && constraintsAccept occurs f.constraints v)

theorem strictAccepts_cases {f : Field} {v : PyJson} (h : strictAccepts f v = true) :
    v = .null ∨ (typeAccepts f.type v = true ∧ constraintsAccept occurs f.constraints v = true) := by
  rw [strictAccepts, Bool.or_eq_true, Bool.and_eq_true, Bool.and_eq_true, decide_eq_true_eq] at h
  rcases h with ⟨-, hnull⟩ | hboth
  · exact .inl hnull
  · exact .inr hboth

theorem strict_text {f : Field} {s : PyStr} (h : strictAccepts f (.str s) = true) :
    f.constraints.minLength.all (fun b => !less (.int s.length) b) = true ∧
      f.constraints.maxLength.all (fun b => !less b (.int s.length)) = true ∧
      ∀ p, f.constraints.pattern = some (.str p) → occurs p s = true := by
  rcases strictAccepts_cases h with hnull | ⟨-, hconstraints⟩
  · cases hnull
  · simp only [constraintsAccept, Bool.and_eq_true] at hconstraints
    obtain ⟨-, ⟨hmin, hmax⟩, hpattern⟩ := hconstraints
    refine ⟨hmin, hmax, ?_⟩
    intro p hp
    rwa [hp] at hpattern

theorem strict_number {f : Field} {v : PyJson} (h : strictAccepts f v = true) :
    v = .null ∨ (f.constraints.ge.all (fun b => !less v b) = true ∧ f.constraints.le.all (fun b => !less b v) = true) := by
  rcases strictAccepts_cases h with hnull | ⟨-, hconstraints⟩
  · exact .inl hnull
  · unfold constraintsAccept at hconstraints
    rw [Bool.and_eq_true, Bool.and_eq_true] at hconstraints
    exact .inr hconstraints.1

theorem less_null_left (b : PyJson) : less .null b = false := rfl

theorem less_null_right (b : PyJson) : less b .null = false := by
  unfold less
  split
  · rename_i h
    cases h
  · rfl

/-- values without coercion, and patterns that are plain texts -/
def strict : Pydantic where
  refusal _ _ := none
  accepts := strictAccepts
  same v w := v = w
  search := occurs
  literal f values v htype h := by
    rcases strictAccepts_cases h with hnull | ⟨hv, -⟩
    · exact .inl hnull
    · rw [htype, typeAccepts, decide_eq_true_eq] at hv
      exact .inr ⟨v, hv, decide_eq_true rfl⟩
  ge f b v hge h := by
    rcases strict_number h with rfl | ⟨hmin, -⟩
    · exact less_null_left b
    · simpa [hge] using hmin
  le f b v hle h := by
    rcases strict_number h with rfl | ⟨-, hmax⟩
    · exact less_null_right b
    · simpa [hle] using hmax
  minLength f b s hmin h := by simpa [hmin] using (strict_text h).1
  maxLength f b s hmax h := by simpa [hmax] using (strict_text h).2.1
  search_empty s := decide_eq_true (List.nil_infix)
  pattern f p s hpattern h := (strict_text h).2.2 p hpattern

/-- schemas with one property `a` -/
def property (d : PyJson) : List (PyStr × PyJson) := [("properties", .obj [("a", d)])]

/-- a boolean sub-schema, a list of types, and an empty `enum`: the validator passes the three schemas, the first two raise
when built, and the model of the third takes a text that its `enum` rejects -/
theorem accepted_schemas_lost :
    (∀ d ∈ [PyJson.bool true, .obj [("type", .arr [.str "string", .str "integer"])], .obj [("enum", .arr [])]],
      validateSafeSchemaSubset (fun _ _ => true) (fun _ => []) (.obj (property d)) = .ok []) ∧
      buildPydanticModel strict (.obj (property (.bool true))) = .error .attributeError ∧
      buildPydanticModel strict (.obj (property (.obj [("type", .arr [.str "string", .str "integer"])]))) = .error .typeError ∧
      ¬ BuiltEnforcing strict (property (.obj [("enum", .arr [])])) := by
  refine ⟨by decide, by decide, by decide, ?_⟩
  rintro ⟨model, -, hall⟩
  obtain ⟨f, hf, -, henforces⟩ := hall ("a", .obj [("enum", .arr [])]) (by decide)
  cases hf
  have henum : lookup "enum" [("enum", .arr [])] = some (.arr []) := by decide
  have hrejects : Rejects strict [("enum", .arr [])] (.str "x") := .enum henum (fun w hw => absurd hw List.not_mem_nil)
  have hrejected := henforces [("enum", .arr [])] "string" (.str "x") rfl (by decide) (by decide) hrejects
  exact absurd hrejected (by decide)

/-- a schema with an integer bounded below is built and enforced -/
theorem build_model_iff_bounded : BuiltEnforcing strict (property (.obj [("type", .str "integer"), ("minimum", .int 3)])) ↔
      Expressible strict (property (.obj [("type", .str "integer"), ("minimum", .int 3)])) :=
  build_model_iff (fun _ _ => true) (fun _ => []) strict
    (property (.obj [("type", .str "integer"), ("minimum", .int 3)])) (by decide)

end Teardrop.PydanticModel
