/-
`flatten_embedded_json_schema` of `tools/schema.py`: references to the definitions of a schema are replaced by the definitions,
and the keys `$defs` and `definitions` are left out.

The recursion through definitions is on fuel, one for each definition; `outOfFuel` is the model's, and never comes.
-/
import Teardrop.Core.SchemaPlaces

namespace Teardrop.ToolSchema

open PyJson SchemaPlaces Option

/-! ## The function -/

def refKey : PyStr := PyStr.ofString "$ref"

def defsLead : PyStr := PyStr.ofString "#/$defs/"

def definitionsLead : PyStr := PyStr.ofString "#/definitions/"

def slash : PyChar := PyChar.ofChar '/'

/-- the exception, with its text -/
inductive Stop where
  | valueError (msg : PyStr)
  | outOfFuel
deriving DecidableEq

def recursiveReference (name : PyStr) : Stop := .valueError (PyStr.ofString "Recursive schema reference: " ++ name)

/-- the entries, if the value is a dict -/
def entriesOf : Option PyJson → List (PyStr × PyJson)
  | some (.obj fields) => fields
  | _ => []

/-- `defs`: of a name in both maps, the one in `definitions` counts -/
def definitionsOf (schema : List (PyStr × PyJson)) : List (PyStr × PyJson) :=
  update (update [] (entriesOf (lookup (PyStr.ofString "$defs") schema)))
    (entriesOf (lookup (PyStr.ofString "definitions") schema))

/-- `ref.rsplit("/", 1)[-1]` -/
def afterLastSlash (ref : PyStr) : PyStr := (ref.reverse.takeWhile (fun c => c ≠ slash)).reverse

/-- the name in a reference, empty if it is none to a definition -/
def refName (ref : PyStr) : PyStr :=
  if defsLead <+: ref then afterLastSlash ref else if definitionsLead <+: ref then afterLastSlash ref else []

section Resolve

variable (defs : List (PyStr × PyJson))

/-- the definition a dict refers to -/
def expansion (fields : List (PyStr × PyJson)) : Option (PyStr × PyJson) :=
  match lookup refKey fields with
  | some (.str ref) => if refName ref = [] then none else (lookup (refName ref) defs).map (fun target => (refName ref, target))
  | _ => none

mutual
/-- `_resolve`, but for what it does with a definition -/
def resolveNode (expand : PyStr → PyJson → Except Stop PyJson) : PyJson → Except Stop PyJson
  | .arr vs => do
    let ws ← resolveItems expand vs
    pure (.arr ws)
  | .obj fields =>
    match expansion defs fields with
    | some (name, target) => do
      let resolved ← expand name target
      match resolved with
      | .obj base => do
        let siblings ← resolveEntries expand (fun k => k = refKey) fields
        pure (.obj (update base siblings))
      | resolved => pure resolved
    | none => do
      let flattened ← resolveEntries expand (fun k => k ∈ definitionKeys) fields
      pure (.obj flattened)
  | v => pure v

/-- the values of a dict, but for the keys left out -/
def resolveEntries (expand : PyStr → PyJson → Except Stop PyJson) (leaveOut : PyStr → Bool) :
    List (PyStr × PyJson) → Except Stop (List (PyStr × PyJson))
  | [] => pure []
  | (k, v) :: fields =>
    if leaveOut k then resolveEntries expand leaveOut fields
    else do
      let w ← resolveNode expand v
      let rest ← resolveEntries expand leaveOut fields
      pure ((k, w) :: rest)

def resolveItems (expand : PyStr → PyJson → Except Stop PyJson) : List PyJson → Except Stop (List PyJson)
  | [] => pure []
  | v :: vs => do
    let w ← resolveNode expand v
    let ws ← resolveItems expand vs
    pure (w :: ws)
end

/-- a definition is resolved unless it is being resolved already -/
def expandWith (next : List PyStr → PyJson → Except Stop PyJson) (seen : List PyStr) (name : PyStr) (target : PyJson) :
    Except Stop PyJson :=
  if name ∈ seen then .error (recursiveReference name) else next (seen ++ [name]) target

def resolve : ℕ → List PyStr → PyJson → Except Stop PyJson
  | 0, _, _ => .error .outOfFuel
  | fuel + 1, seen, node => resolveNode defs (expandWith (resolve fuel) seen) node

end Resolve

/-- the schema without its definitions -/
def root (schema : List (PyStr × PyJson)) : PyJson := .obj (schema.filter (fun f => f.1 ∉ definitionKeys))

/-- a value of the schema, resolved on its own -/
def resolved (schema : List (PyStr × PyJson)) (v : PyJson) : Except Stop PyJson :=
  resolve (definitionsOf schema) ((definitionsOf schema).length + 1) [] v

def flattenEmbeddedJsonSchema (schema : List (PyStr × PyJson)) : Except Stop PyJson := resolved schema (root schema)

example : flattenEmbeddedJsonSchema [("$defs", .obj [("A", .obj [("type", .str "string")])]),
      ("items", .obj [("$ref", .str "#/$defs/A"), ("title", .str "a")])] =
    .ok (.obj [("items", .obj [("type", .str "string"), ("title", .str "a")])]) := by
  decide

/-! ## What references refer to -/

/-- the rest of a text after its beginning -/
def after (lead ref : PyStr) : Option PyStr := if lead <+: ref then some (ref.drop lead.length) else none

/-- the definition a reference refers to: `#/$defs/<name>` or `#/definitions/<name>`, in the map it names or, if that has none
of the name, in the other -/
def target (schema : List (PyStr × PyJson)) (ref : PyStr) : Option PyJson :=
  let inDefs := entriesOf (lookup (PyStr.ofString "$defs") schema)
  let inDefinitions := entriesOf (lookup (PyStr.ofString "definitions") schema)
  match after defsLead ref, after definitionsLead ref with
  | some name, _ => if slash ∈ name then none else (lookup name inDefs).or (lookup name inDefinitions)
  | none, some name => if slash ∈ name then none else (lookup name inDefinitions).or (lookup name inDefs)
  | none, none => none

/-- the definition a schema refers to -/
def referent (schema : List (PyStr × PyJson)) : Position → PyJson → Option PyJson
  | .schema, .obj fields =>
    match lookup refKey fields with
    | some (.str ref) => target schema ref
    | _ => none
  | _, _ => none

/-- a reference is met at a place from the value -/
def Meets (schema : List (PyStr × PyJson)) (v : PyJson) (path : List Step) (ref : PyStr) : Prop :=
  ∃ fields, At (referent schema) .schema v path .schema (.obj fields) ∧ lookup refKey fields = some (.str ref)

/-- a cyclic chain of references, at places of the kind: one is met from the root, and again from what it refers to -/
def CyclicAt (kind : List Step → Prop) (schema : List (PyStr × PyJson)) : Prop :=
  ∃ ref t path path', Meets schema (root schema) path ref ∧ target schema ref = some t ∧ Meets schema t path' ref ∧
    kind path ∧ kind path'

/-- a cyclic chain of references is reachable from the root -/
def Cyclic (schema : List (PyStr × PyJson)) : Prop := CyclicAt (fun _ => True) schema

/-- a property is declared with a schema, in the `properties` map at a place -/
def Declares (schema : List (PyStr × PyJson)) (path : List Step) (name : PyStr) (v : PyJson) : Prop :=
  ∃ entries, At (referent schema) .schema (root schema) path .properties (.obj entries) ∧ (name, v) ∈ entries

/-- what a dict of a schema satisfies: its keys are distinct, references to definitions have one segment, the entries of maps are
no texts, and definitions are dicts or booleans -/
structure SchemaNode (schema : List (PyStr × PyJson)) (p : Position) (fields : List (PyStr × PyJson)) : Prop where
  keys : (fields.map Prod.fst).Nodup
  segment : ∀ ref, p = .schema → lookup refKey fields = some (.str ref) →
    ∀ name, after defsLead ref = some name ∨ after definitionsLead ref = some name → slash ∉ name
  entries : p ≠ .schema → ∀ ref, lookup refKey fields ≠ some (.str ref)
  definition : ∀ t, referent schema p (.obj fields) = some t → t.isDict = true ∨ ∃ b, t = .bool b

structure IsSchema (schema : List (PyStr × PyJson)) : Prop where
  defs : ((entriesOf (lookup (PyStr.ofString "$defs") schema)).map Prod.fst).Nodup
  definitions : ((entriesOf (lookup (PyStr.ofString "definitions") schema)).map Prod.fst).Nodup
  nodes : Throughout (referent schema) (SchemaNode schema) .schema (root schema)

/-- an entry next to a reference takes nothing from the definition: what it leads to is a dict, which declares no property
under the key -/
def Apart (schema : List (PyStr × PyJson)) (t : PyJson) (k : PyStr) : Prop :=
  k ∉ definitionKeys ∧ (∀ q u, At (referent schema) .schema t [] q u → u.isDict = true) ∧
    ∀ path entries, At (referent schema) .schema t (.key k :: path) .properties (.obj entries) → entries = []

/-- a dict whose reference is inlined whole: its name is not empty and has one definition in the two maps; and next to it there
is no key of definitions, no key under which the definition declares properties, and nothing at all if it is a boolean -/
structure InlinesRef (schema : List (PyStr × PyJson)) (p : Position) (fields : List (PyStr × PyJson)) : Prop where
  definition : ∀ ref t, p = .schema → lookup refKey fields = some (.str ref) → target schema ref = some t →
    refName ref ≠ [] ∧ lookup (refName ref) (definitionsOf schema) = some t
  siblings : ∀ t, referent schema p (.obj fields) = some t → ∀ f ∈ fields, f.1 ≠ refKey → Apart schema t f.1

/-- no step of the place is an entry named as a key of definitions -/
def Avoids (path : List Step) : Prop := ∀ k ∈ definitionKeys, Step.key k ∉ path

theorem avoids_nil : Avoids [] := fun _ _ => List.not_mem_nil

variable {path : List Step} {k : PyStr} {fields : List (PyStr × PyJson)} {name : PyStr} {t : PyJson} {ref : PyStr}

theorem avoids_cons {s : Step} : Avoids (s :: path) ↔ (∀ k ∈ definitionKeys, s ≠ .key k) ∧ Avoids path := by
  simp [Avoids, eq_comm (a := s), forall_and]

theorem Avoids.append {path' : List Step} (h : Avoids path) (h' : Avoids path') : Avoids (path ++ path') := by
  intro k hk hmem
  rcases List.mem_append.1 hmem with hmem | hmem
  · exact h k hk hmem
  · exact h' k hk hmem

theorem avoids_key (h : k ∉ definitionKeys) (hpath : Avoids path) : Avoids (.key k :: path) := by
  refine avoids_cons.2 ⟨?_, hpath⟩
  rintro l hl heq
  cases heq
  exact h hl

theorem avoids_index (i : ℕ) (hpath : Avoids path) : Avoids (.index i :: path) := by
  refine avoids_cons.2 ⟨?_, hpath⟩
  rintro l - heq
  cases heq

/-- **The schema is preserved.** The function returns or refuses; it refuses exactly the schemas with a cyclic chain of
references; otherwise no reference is left that is defined, and every property is declared at its place, with its own schema
resolved. -/
structure Preserved (schema : List (PyStr × PyJson)) : Prop where
  terminates : flattenEmbeddedJsonSchema schema ≠ .error .outOfFuel
  refuses : (∃ name, flattenEmbeddedJsonSchema schema = .error (recursiveReference name)) ↔ Cyclic schema
  inlines : ¬ Cyclic schema → ∃ out, flattenEmbeddedJsonSchema schema = .ok out ∧
    (∀ path fields ref, place path out = some (.obj fields) → lookup refKey fields = some (.str ref) →
      target schema ref = none) ∧
    ∀ path name v, Declares schema path name v →
      ∃ gs w, place path out = some (.obj gs) ∧ lookup name gs = some w ∧ resolved schema v = .ok w

/-! ## What the walk makes of a value -/

section Walk

variable {defs : List (PyStr × PyJson)} {expand : PyStr → PyJson → Except Stop PyJson}

/-- entries and what they are resolved to -/
def Resolves (defs : List (PyStr × PyJson)) (expand : PyStr → PyJson → Except Stop PyJson) (fields gs : List (PyStr × PyJson)) :
    Prop :=
  List.Forall₂ (fun f g => f.1 = g.1 ∧ resolveNode defs expand f.2 = .ok g.2) fields gs

theorem bind_ok_iff {α β : Type} {x : Except Stop α} {f : α → Except Stop β} {b : β} :
    (x >>= f) = .ok b ↔ ∃ a, x = .ok a ∧ f a = .ok b := by
  match x with
  | .error e => simp [bind, Except.bind]
  | .ok a => simp [bind, Except.bind]

theorem bind_error_iff {α β : Type} {x : Except Stop α} {f : α → Except Stop β} {e : Stop} :
    (x >>= f) = .error e ↔ x = .error e ∨ ∃ a, x = .ok a ∧ f a = .error e := by
  match x with
  | .error e' => simp [bind, Except.bind]
  | .ok a => simp [bind, Except.bind]

variable {vs : List PyJson} {fields : List (PyStr × PyJson)}

theorem resolveItems_ok {ws : List PyJson} :
    resolveItems defs expand vs = .ok ws ↔ List.Forall₂ (fun v w => resolveNode defs expand v = .ok w) vs ws := by
  induction vs generalizing ws with
  | nil => simp [resolveItems, pure, Except.pure, eq_comm]
  | cons v vs ih =>
    simp only [resolveItems, bind_ok_iff, ih, pure, Except.pure, Except.ok.injEq]
    constructor
    · rintro ⟨w, hw, ws, hws, rfl⟩
      exact .cons hw hws
    · rintro (_ | ⟨hw, hws⟩)
      exact ⟨_, hw, _, hws, rfl⟩

variable {leaveOut : PyStr → Bool} {w : PyJson}

theorem resolveEntries_ok {gs : List (PyStr × PyJson)} :
    resolveEntries defs expand leaveOut fields = .ok gs ↔ Resolves defs expand (fields.filter (fun f => !leaveOut f.1)) gs := by
  induction fields generalizing gs with
  | nil => simp [resolveEntries, Resolves, pure, Except.pure, eq_comm]
  | cons f fields ih =>
    obtain ⟨k, v⟩ := f
    rw [resolveEntries, List.filter_cons]
    by_cases hk : leaveOut k = true
    · simpa [hk] using ih
    · simp only [hk, Bool.not_false, if_true, if_false, bind_ok_iff, ih, pure, Except.pure, Except.ok.injEq, Bool.false_eq_true]
      constructor
      · rintro ⟨w, hw, rest, hrest, rfl⟩
        exact .cons ⟨rfl, hw⟩ hrest
      · rintro (_ | ⟨⟨hkey, hw⟩, hrest⟩)
        refine ⟨_, hw, _, hrest, ?_⟩
        rw [show k = _ from hkey]

theorem resolveItems_error {e : Stop} (h : resolveItems defs expand vs = .error e) :
    ∃ (i : ℕ) (v : PyJson), vs[i]? = some v ∧ resolveNode defs expand v = .error e := by
  induction vs with
  | nil => cases h
  | cons v vs ih =>
    rw [resolveItems, bind_error_iff] at h
    rcases h with h | ⟨w, -, h⟩
    · exact ⟨0, v, rfl, h⟩
    · rw [bind_error_iff] at h
      rcases h with h | ⟨ws, -, h⟩
      · obtain ⟨i, u, hu, he⟩ := ih h
        exact ⟨i + 1, u, hu, he⟩
      · cases h

theorem resolveEntries_error {e : Stop} (h : resolveEntries defs expand leaveOut fields = .error e) :
    ∃ f ∈ fields, leaveOut f.1 = false ∧ resolveNode defs expand f.2 = .error e := by
  induction fields with
  | nil => cases h
  | cons f fields ih =>
    obtain ⟨k, v⟩ := f
    have hrest : resolveEntries defs expand leaveOut fields = .error e →
        ∃ f ∈ (k, v) :: fields, leaveOut f.1 = false ∧ resolveNode defs expand f.2 = .error e := by
      intro hrest
      obtain ⟨f, hf, hkeep, he⟩ := ih hrest
      exact ⟨f, List.mem_cons_of_mem _ hf, hkeep, he⟩
    rw [resolveEntries] at h
    split_ifs at h with hk
    · exact hrest h
    · rw [bind_error_iff] at h
      rcases h with h | ⟨w, -, h⟩
      · exact ⟨(k, v), List.mem_cons_self, Bool.eq_false_of_not_eq_true hk, h⟩
      · rw [bind_error_iff] at h
        rcases h with h | ⟨gs, -, h⟩
        · exact hrest h
        · cases h

theorem resolveNode_arr_ok : resolveNode defs expand (.arr vs) = .ok w ↔
      ∃ ws, List.Forall₂ (fun v w => resolveNode defs expand v = .ok w) vs ws ∧ w = .arr ws := by
  rw [resolveNode, bind_ok_iff]
  simp [resolveItems_ok, pure, Except.pure, @eq_comm _ w]

/-- the entries of a dict that refers to nothing, and those next to a reference -/
def plainEntries (fields : List (PyStr × PyJson)) : List (PyStr × PyJson) :=
  fields.filter (fun f => !decide (f.1 ∈ definitionKeys))

def siblingEntries (fields : List (PyStr × PyJson)) : List (PyStr × PyJson) := fields.filter (fun f => !decide (f.1 = refKey))

theorem resolveNode_plain_ok (h : expansion defs fields = none) :
    resolveNode defs expand (.obj fields) = .ok w ↔ ∃ gs, Resolves defs expand (plainEntries fields) gs ∧ w = .obj gs := by
  rw [resolveNode, h]
  rw [bind_ok_iff]
  simp only [resolveEntries_ok, pure, Except.pure, Except.ok.injEq, @eq_comm _ w, plainEntries]

theorem resolveNode_ref_ok {name : PyStr} {t : PyJson} (h : expansion defs fields = some (name, t)) :
    resolveNode defs expand (.obj fields) = .ok w ↔ ∃ base, expand name t = .ok base ∧
      ((∃ baseFields gs, base = .obj baseFields ∧ Resolves defs expand (siblingEntries fields) gs ∧
          w = .obj (update baseFields gs)) ∨
        (base.isDict = false ∧ w = base)) := by
  rw [resolveNode, h]
  rw [bind_ok_iff]
  refine exists_congr (fun base => and_congr_right (fun _ => ?_))
  cases base with
  | obj baseFields =>
    rw [bind_ok_iff]
    simp [resolveEntries_ok, pure, Except.pure, isDict, siblingEntries, @eq_comm _ w]
  | _ => simp [pure, Except.pure, isDict, @eq_comm _ w]

end Walk

/-! ## References as the function reads them -/

theorem expansion_spec {defs : List (PyStr × PyJson)} (h : expansion defs fields = some (name, t)) :
    ∃ ref, lookup refKey fields = some (.str ref) ∧ refName ref = name ∧ lookup name defs = some t := by
  unfold expansion at h
  split at h
  · rename_i ref href
    split_ifs at h with hname
    obtain ⟨t', ht', heq⟩ := map_eq_some_iff.1 h
    cases heq
    exact ⟨ref, href, rfl, ht'⟩
  · cases h

variable {lead : PyStr}

theorem after_eq_some (h : after lead ref = some name) : ref = lead ++ name := by
  unfold after at h
  split_ifs at h with hlead
  obtain ⟨rest, rfl⟩ := hlead
  rw [List.drop_left] at h
  rw [some.inj h]

theorem after_eq_none (h : after lead ref = none) : ¬ lead <+: ref := by
  unfold after at h
  split_ifs at h with hlead
  exact hlead

theorem afterLastSlash_append (hlead : lead.getLast? = some slash) (hname : slash ∉ name) :
    afterLastSlash (lead ++ name) = name := by
  obtain ⟨rest, rfl⟩ := List.getLast?_eq_some_iff.1 hlead
  have hall : ∀ c ∈ name.reverse, decide (c ≠ slash) = true := by
    intro c hc
    have hne : c ≠ slash := by
      rintro rfl
      exact hname (List.mem_reverse.1 hc)
    exact decide_eq_true hne
  rw [afterLastSlash, List.reverse_append, List.takeWhile_append_of_pos hall, List.reverse_append]
  simp

section Document

variable {schema : List (PyStr × PyJson)}

theorem lookup_definitionsOf (hs : IsSchema schema) (name : PyStr) :
    lookup name (definitionsOf schema) = (lookup name (entriesOf (lookup (PyStr.ofString "definitions") schema))).or
      (lookup name (entriesOf (lookup (PyStr.ofString "$defs") schema))) := by
  rw [definitionsOf, lookup_update hs.definitions, lookup_update hs.defs]
  rw [show lookup name [] = none from rfl, or_none]

theorem refName_defs (h : after defsLead ref = some name) (hslash : slash ∉ name) : refName ref = name := by
  have href := after_eq_some h
  rw [refName, if_pos (by rw [href]; exact List.prefix_append _ _), href]
  exact afterLastSlash_append (by decide) hslash

theorem refName_definitions (hdefs : after defsLead ref = none) (h : after definitionsLead ref = some name)
    (hslash : slash ∉ name) : refName ref = name := by
  have href := after_eq_some h
  rw [refName, if_neg (after_eq_none hdefs), if_pos (by rw [href]; exact List.prefix_append _ _), href]
  exact afterLastSlash_append (by decide) hslash

theorem target_undefined (hs : IsSchema schema)
    (hsegment : ∀ name, after defsLead ref = some name ∨ after definitionsLead ref = some name → slash ∉ name)
    (h : target schema ref = none) : refName ref = [] ∨ lookup (refName ref) (definitionsOf schema) = none := by
  unfold target at h
  match hdefs : after defsLead ref, hdefinitions : after definitionsLead ref with
  | some name, _ =>
    have hslash := hsegment name (.inl hdefs)
    rw [hdefs] at h
    dsimp only at h
    rw [if_neg hslash, or_eq_none_iff] at h
    rw [refName_defs hdefs hslash, lookup_definitionsOf hs, h.1, h.2]
    exact .inr rfl
  | none, some name =>
    have hslash := hsegment name (.inr hdefinitions)
    rw [hdefs, hdefinitions] at h
    dsimp only at h
    rw [if_neg hslash, or_eq_none_iff] at h
    rw [refName_definitions hdefs hdefinitions hslash, lookup_definitionsOf hs, h.1, h.2]
    exact .inr rfl
  | none, none =>
    left
    rw [refName, if_neg (after_eq_none hdefs), if_neg (after_eq_none hdefinitions)]

variable {p : Position} {v : PyJson} {expand : PyStr → PyJson → Except Stop PyJson} {fuel : ℕ} {seen : List PyStr}
  {ws : List PyJson} {w : PyJson} {gs defs : List (PyStr × PyJson)} {out : PyJson} {q : Position} {u : PyJson}

/-- **References.** A dict is replaced by a definition exactly when it refers to one, and by the one it refers to. -/
theorem expansion_eq (hs : IsSchema schema) (hnode : SchemaNode schema p fields) (hinline : InlinesRef schema p fields) :
    (expansion (definitionsOf schema) fields).map Prod.snd = referent schema p (.obj fields) := by
  unfold expansion
  match hlookup : lookup refKey fields with
  | some (.str ref) =>
    match p with
    | .properties => exact absurd hlookup (hnode.entries nofun ref)
    | .names => exact absurd hlookup (hnode.entries nofun ref)
    | .schema =>
      rw [referent, hlookup]
      dsimp only
      match htarget : target schema ref with
      | some t =>
        obtain ⟨hname, ht⟩ := hinline.definition ref t rfl hlookup htarget
        rw [if_neg hname, ht]
        rfl
      | none =>
        split_ifs with hname
        · rfl
        · rw [(target_undefined hs (hnode.segment ref rfl hlookup) htarget).resolve_left hname]
          rfl
  | none => cases p <;> simp [referent, hlookup]
  | some .null => cases p <;> simp [referent, hlookup]
  | some (.bool _) => cases p <;> simp [referent, hlookup]
  | some (.int _) => cases p <;> simp [referent, hlookup]
  | some (.float _) => cases p <;> simp [referent, hlookup]
  | some (.arr _) => cases p <;> simp [referent, hlookup]
  | some (.obj _) => cases p <;> simp [referent, hlookup]

theorem referent_schema (h : referent schema p v = some t) :
    p = .schema ∧ ∃ fields ref, v = .obj fields ∧ lookup refKey fields = some (.str ref) ∧ target schema ref = some t := by
  unfold referent at h
  split at h
  · rename_i fields
    split at h
    · rename_i ref href
      exact ⟨rfl, fields, ref, rfl, href, h⟩
    · cases h
  · cases h

/-! ## Where the walk stops -/

/-- every dict met from the value is one of a schema, whose reference is inlined whole -/
def Tame (schema : List (PyStr × PyJson)) (p : Position) (v : PyJson) : Prop :=
  Throughout (referent schema) (fun p fields => SchemaNode schema p fields ∧ InlinesRef schema p fields) p v

theorem Tame.expands (hs : IsSchema schema) (h : Tame schema p (.obj fields)) :
    (expansion (definitionsOf schema) fields).map Prod.snd = referent schema p (.obj fields) :=
  expansion_eq hs (h.here).1 (h.here).2

theorem Tame.refers (hs : IsSchema schema) (h : Tame schema p (.obj fields))
    (hexp : expansion (definitionsOf schema) fields = some (name, t)) : referent schema p (.obj fields) = some t := by
  rw [← h.expands hs, hexp]
  rfl

theorem child_plain (hmem : (k, v) ∈ fields) (hkey : k ∉ definitionKeys) :
    (Step.key k, p.child k, v) ∈ children p (.obj fields) :=
  mem_children_obj.2 ⟨k, hmem, by simp [Position.skips, hkey], rfl, rfl⟩

theorem not_definition_key (hs : IsSchema schema) (h : Tame schema p (.obj fields))
    (hexp : expansion (definitionsOf schema) fields = some (name, t)) (hmem : (k, v) ∈ fields) (hkey : k ≠ refKey) :
    k ∉ definitionKeys :=
  ((h.here).2.siblings t (h.refers hs hexp) (k, v) hmem hkey).1

/-- **Where the walk stops.** It is at a reference, whose definition could not be resolved. -/
theorem resolveNode_error {e : Stop} (h : resolveNode (definitionsOf schema) expand v = .error e) :
    ∃ fields name t, expansion (definitionsOf schema) fields = some (name, t) ∧ expand name t = .error e ∧
      ∀ p, IsSchema schema → Tame schema p v → ∃ path q, Avoids path ∧ At (referent schema) p v path q (.obj fields) := by
  induction v using induct with
  | harr vs ih =>
    rw [resolveNode, bind_error_iff] at h
    rcases h with h | ⟨ws, -, h⟩
    · obtain ⟨i, v, hv, he⟩ := resolveItems_error h
      obtain ⟨fields, name, t, hexp, hname, hat⟩ := ih v (List.mem_of_getElem? hv) he
      refine ⟨fields, name, t, hexp, hname, fun p hs htame => ?_⟩
      have hchild : (Step.index i, Position.schema, v) ∈ children p (.arr vs) := mem_children_arr.2 ⟨i, hv, rfl, rfl⟩
      obtain ⟨path, q, havoids, hpath⟩ := hat .schema hs (htame.inside hchild)
      exact ⟨_, q, avoids_index i havoids, .inside hchild hpath⟩
    · cases h
  | hobj fields ih =>
    rw [resolveNode] at h
    match hexp : expansion (definitionsOf schema) fields with
    | some (name, t) =>
      rw [hexp] at h
      rw [bind_error_iff] at h
      rcases h with h | ⟨base, -, h⟩
      · exact ⟨fields, name, t, hexp, h, fun p _ _ => ⟨[], p, avoids_nil, .here p _⟩⟩
      · have hsiblings : resolveEntries (definitionsOf schema) expand (fun k => k = refKey) fields = .error e := by
          cases base with
          | obj baseFields =>
            rw [bind_error_iff] at h
            rcases h with h | ⟨gs, -, h⟩
            · exact h
            · cases h
          | _ => cases h
        obtain ⟨⟨k, v⟩, hmem, hkeep, he⟩ := resolveEntries_error hsiblings
        obtain ⟨fields', name', t', hexp', hname', hat⟩ := ih (k, v) hmem he
        refine ⟨fields', name', t', hexp', hname', fun p hs htame => ?_⟩
        have hkey := not_definition_key hs htame hexp hmem (of_decide_eq_false hkeep)
        have hchild := child_plain (p := p) hmem hkey
        obtain ⟨path, q, havoids, hpath⟩ := hat (p.child k) hs (htame.inside hchild)
        exact ⟨_, q, avoids_key hkey havoids, .inside hchild hpath⟩
    | none =>
      rw [hexp] at h
      rw [bind_error_iff] at h
      rcases h with h | ⟨gs, -, h⟩
      · obtain ⟨⟨k, v⟩, hmem, hkeep, he⟩ := resolveEntries_error h
        obtain ⟨fields', name', t', hexp', hname', hat⟩ := ih (k, v) hmem he
        refine ⟨fields', name', t', hexp', hname', fun p hs htame => ?_⟩
        have hkey : k ∉ definitionKeys := of_decide_eq_false hkeep
        have hchild := child_plain (p := p) hmem hkey
        obtain ⟨path, q, havoids, hpath⟩ := hat (p.child k) hs (htame.inside hchild)
        exact ⟨_, q, avoids_key hkey havoids, .inside hchild hpath⟩
      · cases h
  | hscalar v harr hobj =>
    cases v with
    | arr vs => exact absurd rfl (harr vs)
    | obj fields => exact absurd rfl (hobj fields)
    | _ => cases h

/-- **Termination.** The names being resolved are distinct names of definitions, so the fuel lasts. -/
theorem resolve_fuel (v : PyJson) (hnodup : seen.Nodup) (hsub : ∀ name ∈ seen, name ∈ (definitionsOf schema).map Prod.fst)
    (hfuel : (definitionsOf schema).length < fuel + seen.length) :
    resolve (definitionsOf schema) fuel seen v ≠ .error .outOfFuel := by
  induction fuel generalizing seen v with
  | zero =>
    have hle : seen.length ≤ ((definitionsOf schema).map Prod.fst).length := (List.subperm_of_subset hnodup hsub).length_le
    rw [List.length_map] at hle
    omega
  | succ fuel ih =>
    intro h
    obtain ⟨fields, name, t, hexp, hname, -⟩ := resolveNode_error h
    obtain ⟨ref, -, -, hlookup⟩ := expansion_spec hexp
    unfold expandWith at hname
    split_ifs at hname with hseen
    · cases hname
    · refine ih t ?_ ?_ ?_ hname
      · exact List.nodup_append.2 ⟨hnodup, List.nodup_singleton name, fun s hs' u hu => by
          rw [List.mem_singleton.1 hu]
          rintro rfl
          exact hseen hs'⟩
      · intro s hs'
        rcases List.mem_append.1 hs' with hs' | hs'
        · exact hsub s hs'
        · rw [List.mem_singleton.1 hs']
          exact List.mem_map_of_mem (f := Prod.fst) (Draft7.mem_of_lookup hlookup)
      · rw [List.length_append, List.length_singleton]
        omega

/-- the definitions being resolved: each was referred to on the way from the root, and leads to the value -/
def Trail (schema : List (PyStr × PyJson)) (seen : List PyStr) (p : Position) (v : PyJson) : Prop :=
  (∃ path, Avoids path ∧ At (referent schema) .schema (root schema) path p v) ∧
    ∀ name ∈ seen, ∃ t path, lookup name (definitionsOf schema) = some t ∧ Avoids path ∧ At (referent schema) .schema t path p v

/-- **A refusal tells of a cycle.** -/
theorem resolve_refuses (hs : IsSchema schema) {msg : PyStr} (htame : Tame schema p v) (htrail : Trail schema seen p v)
    (h : resolve (definitionsOf schema) fuel seen v = .error (.valueError msg)) :
    CyclicAt Avoids schema ∧ ∃ name, msg = PyStr.ofString "Recursive schema reference: " ++ name := by
  induction fuel generalizing seen p v with
  | zero => cases h
  | succ fuel ih =>
    obtain ⟨fields, name, t, hexp, hname, hat⟩ := resolveNode_error h
    obtain ⟨path, q, havoids, hat⟩ := hat p hs htame
    have hfields : Tame schema q (.obj fields) := fun path' r fields' hat' => htame _ r fields' (hat.trans hat')
    have href := hfields.refers hs hexp
    obtain ⟨rfl, fields', ref, heq, hlookup, htarget⟩ := referent_schema href
    cases heq
    obtain ⟨ref', hlookup', -, hdef⟩ := expansion_spec hexp
    obtain ⟨⟨rootPath, hrootAvoids, hroot⟩, hseen⟩ := htrail
    unfold expandWith at hname
    split_ifs at hname with hmem
    · obtain ⟨t', path', hdef', havoids', hat'⟩ := hseen name hmem
      rw [hdef] at hdef'
      cases hdef'
      refine ⟨⟨ref, t, _, _, ⟨fields, hroot.trans hat, hlookup⟩, htarget, ⟨fields, hat'.trans hat, hlookup⟩,
        hrootAvoids.append havoids, havoids'.append havoids⟩, name, ?_⟩
      cases hname
      rfl
    · refine ih (hfields.through href) ⟨⟨_, hrootAvoids.append havoids, ?_⟩, ?_⟩ hname
      · have hnext := (hroot.trans hat).trans (.through href (.here .schema t))
        rwa [List.append_nil] at hnext
      · intro s hs'
        rcases List.mem_append.1 hs' with hs' | hs'
        · obtain ⟨t', path', hdef', havoids', hat'⟩ := hseen s hs'
          have hnext := (hat'.trans hat).trans (.through href (.here .schema t))
          rw [List.append_nil] at hnext
          exact ⟨t', _, hdef', havoids'.append havoids, hnext⟩
        · rw [List.mem_singleton.1 hs']
          exact ⟨t, [], hdef, avoids_nil, .here .schema t⟩

/-! ## What is resolved holds no reference -/

variable {R : PyJson → PyJson → Prop} {S : List (Position × PyJson)}

theorem getElem?_forall₂ {vs : List PyJson} (h : List.Forall₂ R vs ws) {i : ℕ} (hi : ws[i]? = some w) :
    ∃ v, vs[i]? = some v ∧ R v w := by
  induction h generalizing i with
  | nil => cases hi
  | @cons v w' vs ws hvw _ ih =>
    cases i with
    | zero =>
      cases hi
      exact ⟨v, rfl, hvw⟩
    | succ i => exact ih hi

theorem getElem?_forall₂_left {vs : List PyJson} (h : List.Forall₂ R vs ws) {i : ℕ} (hi : vs[i]? = some v) :
    ∃ w, ws[i]? = some w ∧ R v w := by
  obtain ⟨w, hw, hR⟩ := getElem?_forall₂ h.flip hi
  exact ⟨w, hw, hR⟩

/-- a dict of a result: no reference that is defined, and no key of definitions -/
structure Flat (schema fields : List (PyStr × PyJson)) : Prop where
  references : ∀ ref, lookup refKey fields = some (.str ref) → target schema ref = none
  keys : ∀ k ∈ definitionKeys, lookup k fields = none

/-- every dict in the value is flat -/
def FlatThroughout (schema : List (PyStr × PyJson)) (out : PyJson) : Prop :=
  ∀ path fields, place path out = some (.obj fields) → Flat schema fields

theorem flatThroughout_obj (h : Flat schema gs) (hvalues : ∀ k w, lookup k gs = some w → FlatThroughout schema w) :
    FlatThroughout schema (.obj gs) := by
  intro path fields hplace
  match path, hplace with
  | [], hplace =>
    cases hplace
    exact h
  | .key k :: path, hplace =>
    rw [place, bind_eq_some_iff] at hplace
    obtain ⟨w, hw, hplace⟩ := hplace
    exact hvalues k w hw path fields hplace

theorem flatThroughout_arr (h : ∀ w ∈ ws, FlatThroughout schema w) : FlatThroughout schema (.arr ws) := by
  intro path fields hplace
  match path, hplace with
  | .index i :: path, hplace =>
    rw [place, bind_eq_some_iff] at hplace
    obtain ⟨w, hw, hplace⟩ := hplace
    exact h w (List.mem_of_getElem? hw) path fields hplace

theorem flatThroughout_scalar (harr : ∀ vs, v ≠ .arr vs) (hobj : ∀ fields, v ≠ .obj fields) : FlatThroughout schema v := by
  intro path fields hplace
  cases v with
  | arr vs => exact absurd rfl (harr vs)
  | obj fields => exact absurd rfl (hobj fields)
  | _ => rcases path with _ | ⟨_ | _, _⟩ <;> cases hplace

theorem lookup_plainEntries : lookup k (plainEntries fields) = some v ↔ k ∉ definitionKeys ∧ lookup k fields = some v := by
  rw [plainEntries, lookup_filter (fun k => !decide (k ∈ definitionKeys))]
  by_cases h : k ∈ definitionKeys <;> simp [h]

theorem lookup_siblingEntries : lookup k (siblingEntries fields) = some v ↔ k ≠ refKey ∧ lookup k fields = some v := by
  rw [siblingEntries, lookup_filter (fun k => !decide (k = refKey))]
  by_cases h : k = refKey <;> simp [h]

theorem Resolves.value (h : Resolves defs expand fields gs) (hw : lookup k gs = some w) :
    ∃ v, lookup k fields = some v ∧ resolveNode defs expand v = .ok w := by
  rcases lookup_forall₂ (R := fun v w => resolveNode defs expand v = .ok w) h k with ⟨-, hnone⟩ | ⟨v, w', hv, hw', hresolve⟩
  · rw [hnone] at hw
    cases hw
  · rw [hw'] at hw
    cases hw
    exact ⟨v, hv, hresolve⟩

theorem Resolves.kept (h : Resolves defs expand fields gs) (hv : lookup k fields = some v) :
    ∃ w, lookup k gs = some w ∧ resolveNode defs expand v = .ok w := by
  rcases lookup_forall₂ (R := fun v w => resolveNode defs expand v = .ok w) h k with ⟨hnone, -⟩ | ⟨v', w, hv', hw, hresolve⟩
  · rw [hnone] at hv
    cases hv
  · rw [hv'] at hv
    cases hv
    exact ⟨w, hw, hresolve⟩

theorem lookup_inlined {baseFields : List (PyStr × PyJson)} (hnode : SchemaNode schema p fields)
    (h : Resolves defs expand (siblingEntries fields) gs) (k : PyStr) :
    lookup k (update baseFields gs) = (lookup k gs).or (lookup k baseFields) := by
  apply lookup_update
  rw [← keys_forall₂ (R := fun v w => resolveNode defs expand v = .ok w) h]
  exact hnode.keys.sublist (List.filter_sublist.map Prod.fst)

theorem resolve_text (hs : IsSchema schema) {s : PyStr} (htame : Tame schema p v)
    (h : resolve (definitionsOf schema) fuel seen v = .ok (.str s)) : v = .str s := by
  induction fuel generalizing seen p v with
  | zero => cases h
  | succ fuel ih =>
    cases v with
    | arr vs =>
      obtain ⟨ws, -, hw⟩ := resolveNode_arr_ok.1 h
      cases hw
    | obj fields =>
      match hexp : expansion (definitionsOf schema) fields with
      | none =>
        obtain ⟨gs, -, hw⟩ := (resolveNode_plain_ok hexp).1 h
        cases hw
      | some (name, t) =>
        obtain ⟨base, hbase, ⟨baseFields, gs, -, -, hw⟩ | ⟨-, hw⟩⟩ := (resolveNode_ref_ok hexp).1 h
        · cases hw
        · subst hw
          have href := htame.refers hs hexp
          unfold expandWith at hbase
          split_ifs at hbase
          have htext := ih (htame.through href) hbase
          rw [htext] at href
          rcases (htame.here).1.definition _ href with hdict | ⟨b, hb⟩
          · cases hdict
          · cases hb
    | _ =>
      cases h <;> rfl

/-- **Results are flat.** -/
theorem resolve_flat (hs : IsSchema schema) (htame : Tame schema p v)
    (h : resolve (definitionsOf schema) fuel seen v = .ok out) : FlatThroughout schema out := by
  induction fuel generalizing seen p v out with
  | zero => cases h
  | succ fuel ihFuel =>
    rw [resolve] at h
    induction v using induct generalizing p out with
    | harr vs ih =>
      obtain ⟨ws, hws, rfl⟩ := resolveNode_arr_ok.1 h
      apply flatThroughout_arr
      intro w hw
      obtain ⟨i, hi⟩ := List.getElem?_of_mem hw
      obtain ⟨v, hv, hresolve⟩ := getElem?_forall₂ hws hi
      exact ih v (List.mem_of_getElem? hv) (htame.inside (mem_children_arr.2 ⟨i, hv, rfl, rfl⟩)) hresolve
    | hobj fields ih =>
      have hnode := (htame.here).1
      have hvalue : ∀ k v w, lookup k fields = some v → k ∉ definitionKeys →
          resolveNode (definitionsOf schema) (expandWith (resolve (definitionsOf schema) fuel) seen) v = .ok w →
            FlatThroughout schema w := fun k v w hv hkey hw =>
        ih (k, v) (Draft7.mem_of_lookup hv) (htame.inside (child_plain (Draft7.mem_of_lookup hv) hkey)) hw
      match hexp : expansion (definitionsOf schema) fields with
      | none =>
        obtain ⟨gs, hgs, rfl⟩ := (resolveNode_plain_ok hexp).1 h
        refine flatThroughout_obj ⟨?_, ?_⟩ ?_
        · intro ref href
          obtain ⟨v, hv, hresolve⟩ := hgs.value href
          have hmem := lookup_plainEntries.1 hv
          have hchild := child_plain (p := p) (Draft7.mem_of_lookup hmem.2) hmem.1
          have htext := resolve_text hs (htame.inside hchild) (show resolve _ (fuel + 1) _ _ = _ from hresolve)
          rw [htext] at hmem
          have hreferent := htame.expands hs
          rw [hexp, map_none] at hreferent
          match p with
          | .schema =>
            rw [referent, hmem.2] at hreferent
            exact hreferent.symm
          | .properties => exact absurd hmem.2 (hnode.entries nofun ref)
          | .names => exact absurd hmem.2 (hnode.entries nofun ref)
        · intro k hk
          rw [eq_none_iff_forall_ne_some]
          intro w hw
          obtain ⟨v, hv, -⟩ := hgs.value hw
          exact (lookup_plainEntries.1 hv).1 hk
        · intro k w hw
          obtain ⟨v, hv, hresolve⟩ := hgs.value hw
          have hmem := lookup_plainEntries.1 hv
          exact hvalue k v w hmem.2 hmem.1 hresolve
      | some (name, t) =>
        have href := htame.refers hs hexp
        have hbaseFlat : ∀ base, expandWith (resolve (definitionsOf schema) fuel) seen name t = .ok base →
            FlatThroughout schema base := by
          intro base hbase
          unfold expandWith at hbase
          split_ifs at hbase
          exact ihFuel (htame.through href) hbase
        have hsibling : ∀ k v, lookup k (siblingEntries fields) = some v → lookup k fields = some v ∧ k ∉ definitionKeys := by
          intro k v hv
          have hmem := lookup_siblingEntries.1 hv
          exact ⟨hmem.2, ((htame.here).2.siblings t href (k, v) (Draft7.mem_of_lookup hmem.2) hmem.1).1⟩
        obtain ⟨base, hbase, ⟨baseFields, gs, rfl, hgs, rfl⟩ | ⟨-, rfl⟩⟩ := (resolveNode_ref_ok hexp).1 h
        · have hflat := hbaseFlat _ hbase
          refine flatThroughout_obj ⟨?_, ?_⟩ ?_
          · intro ref hlookup
            rw [lookup_inlined hnode hgs, or_eq_some_iff] at hlookup
            rcases hlookup with hlookup | ⟨-, hlookup⟩
            · obtain ⟨v, hv, -⟩ := hgs.value hlookup
              exact absurd rfl (lookup_siblingEntries.1 hv).1
            · exact (hflat [] baseFields rfl).references ref hlookup
          · intro k hk
            rw [lookup_inlined hnode hgs, or_eq_none_iff]
            refine ⟨?_, (hflat [] baseFields rfl).keys k hk⟩
            rw [eq_none_iff_forall_ne_some]
            intro w hw
            obtain ⟨v, hv, -⟩ := hgs.value hw
            exact (hsibling k v hv).2 hk
          · intro k w hw
            rw [lookup_inlined hnode hgs, or_eq_some_iff] at hw
            rcases hw with hw | ⟨-, hw⟩
            · obtain ⟨v, hv, hresolve⟩ := hgs.value hw
              exact hvalue k v w (hsibling k v hv).1 (hsibling k v hv).2 hresolve
            · intro path fields' hplace
              exact hflat (.key k :: path) fields' (by rw [place, hw]; exact hplace)
        · exact hbaseFlat _ hbase
    | hscalar v harr hobj =>
      rw [resolveNode] at h
      · cases h
        exact flatThroughout_scalar harr hobj
      · exact harr
      · exact hobj

/-! ## What is met is resolved -/

theorem at_nil (h : At (referent schema) p v path q u) (hp : p = .schema) (hpath : path = []) : q = .schema := by
  induction h with
  | here => exact hp
  | inside => cases hpath
  | through _ _ ih => exact ih rfl hpath

theorem at_text {s : PyStr} (h : At (referent schema) p (.str s) path q u) : u = .str s := by
  cases h with
  | here => rfl
  | inside hmem _ => cases hmem
  | through href _ =>
    obtain ⟨-, fields, ref, hobj, -⟩ := referent_schema href
    cases hobj

theorem place_cons {s : Step} (h : place [s] out = some w) (path : List Step) : place (s :: path) out = place path w := by
  match s, out, h with
  | .key k, .obj fields, h =>
    rw [place, bind_eq_some_iff] at h
    obtain ⟨w', hw', h⟩ := h
    cases h
    rw [place, hw']
    rfl
  | .index i, .arr vs, h =>
    rw [place, bind_eq_some_iff] at h
    obtain ⟨w', hw', h⟩ := h
    cases h
    rw [place, hw']
    rfl

theorem resolve_isDict (hs : IsSchema schema) (htame : Tame schema .schema t)
    (hdict : ∀ q u, At (referent schema) .schema t [] q u → u.isDict = true)
    (h : resolve (definitionsOf schema) fuel seen t = .ok out) : out.isDict = true := by
  induction fuel generalizing seen t out with
  | zero => cases h
  | succ fuel ih =>
    have ht := hdict .schema t (.here _ _)
    match t, ht with
    | .obj fields, _ =>
      match hexp : expansion (definitionsOf schema) fields with
      | none =>
        obtain ⟨gs, -, rfl⟩ := (resolveNode_plain_ok hexp).1 h
        rfl
      | some (name, t') =>
        have href := htame.refers hs hexp
        obtain ⟨base, hbase, ⟨baseFields, gs, -, -, rfl⟩ | ⟨hnot, -⟩⟩ := (resolveNode_ref_ok hexp).1 h
        · rfl
        · unfold expandWith at hbase
          split_ifs at hbase
          rw [ih (htame.through href) (fun q u hat => hdict q u (.through href hat)) hbase] at hnot
          cases hnot

/-- **One step into a value.** The value there is resolved too, and stands at the same place, but for the text of a
reference. -/
theorem resolve_child (hs : IsSchema schema) {s : Step} (htame : Tame schema p v) (hchild : (s, q, w) ∈ children p v)
    (havoid : ∀ k ∈ definitionKeys, s ≠ .key k) (h : resolve (definitionsOf schema) fuel seen v = .ok out) :
    ∃ w', resolve (definitionsOf schema) fuel seen w = .ok w' ∧ (place [s] out = some w' ∨ ∃ ref, w = .str ref) := by
  match fuel, h with
  | fuel + 1, h =>
    cases v with
    | arr vs =>
      obtain ⟨i, hi, rfl, rfl⟩ := mem_children_arr.1 hchild
      obtain ⟨ws, hws, rfl⟩ := resolveNode_arr_ok.1 h
      obtain ⟨w', hw', hresolve⟩ := getElem?_forall₂_left hws hi
      exact ⟨w', hresolve, .inl (by rw [place, hw']; rfl)⟩
    | obj fields =>
      obtain ⟨k, hmem, hskip, rfl, rfl⟩ := mem_children_obj.1 hchild
      obtain ⟨hnode, hinline⟩ := htame.here
      have hlookup := lookup_of_mem hnode.keys hmem
      have hkey : k ∉ definitionKeys := fun hmem' => havoid k hmem' rfl
      match hexp : expansion (definitionsOf schema) fields with
      | none =>
        obtain ⟨gs, hgs, rfl⟩ := (resolveNode_plain_ok hexp).1 h
        obtain ⟨w', hw', hresolve⟩ := hgs.kept (lookup_plainEntries.2 ⟨hkey, hlookup⟩)
        exact ⟨w', hresolve, .inl (by rw [place, hw']; rfl)⟩
      | some (name, t) =>
        have href := htame.refers hs hexp
        by_cases hrefKey : k = refKey
        · obtain ⟨-, fields', ref, hobj, hlookup', -⟩ := referent_schema href
          cases hobj
          rw [hrefKey, hlookup'] at hlookup
          cases hlookup
          exact ⟨.str ref, rfl, .inr ⟨ref, rfl⟩⟩
        · have hdict := (hinline.siblings t href (k, w) hmem hrefKey).2.1
          obtain ⟨base, hbase, ⟨baseFields, gs, rfl, hgs, rfl⟩ | ⟨hnot, -⟩⟩ := (resolveNode_ref_ok hexp).1 h
          · obtain ⟨w', hw', hresolve⟩ := hgs.kept (lookup_siblingEntries.2 ⟨hrefKey, hlookup⟩)
            refine ⟨w', hresolve, .inl ?_⟩
            rw [place, lookup_inlined hnode hgs, hw']
            rfl
          · unfold expandWith at hbase
            split_ifs at hbase
            rw [resolve_isDict hs (htame.through href) hdict hbase] at hnot
            cases hnot
    | _ => cases hchild

/-- **A reference.** What it refers to is resolved, with its name among those being resolved, and what is not under a key next
to the reference keeps its place. -/
theorem resolve_ref (hs : IsSchema schema) (htame : Tame schema p (.obj fields))
    (href : referent schema p (.obj fields) = some t)
    (h : resolve (definitionsOf schema) (fuel + 1) seen (.obj fields) = .ok out) :
    ∃ ref base, lookup refKey fields = some (.str ref) ∧ refName ref ∉ seen ∧
      resolve (definitionsOf schema) fuel (seen ++ [refName ref]) t = .ok base ∧
      ∀ s path u, (∀ k, s = .key k → lookup k (siblingEntries fields) = none) → place (s :: path) base = some u →
        place (s :: path) out = some u := by
  have hnode := (htame.here).1
  have hexpands := htame.expands hs
  rw [href, map_eq_some_iff] at hexpands
  obtain ⟨⟨name, t'⟩, hexp, rfl⟩ := hexpands
  obtain ⟨ref, hlookup, rfl, -⟩ := expansion_spec hexp
  obtain ⟨base, hbase, hout⟩ := (resolveNode_ref_ok hexp).1 h
  unfold expandWith at hbase
  split_ifs at hbase with hseen
  refine ⟨ref, base, hlookup, hseen, hbase, ?_⟩
  intro s path u hfree hplace
  rcases hout with ⟨baseFields, gs, rfl, hgs, rfl⟩ | ⟨-, rfl⟩
  · match s, hplace with
    | .key k, hplace =>
      have hnone : lookup k gs = none := by
        rw [eq_none_iff_forall_ne_some]
        intro w hw
        obtain ⟨v, hv, -⟩ := hgs.value hw
        rw [hfree k rfl] at hv
        cases hv
      rw [place] at hplace ⊢
      rw [lookup_inlined hnode hgs, hnone, none_or]
      exact hplace
  · exact hplace

/-- **What is met is resolved**, with at least the same names being resolved. -/
theorem resolve_met (hs : IsSchema schema) (hat : At (referent schema) p v path q u) (htame : Tame schema p v)
    (havoids : Avoids path) (h : resolve (definitionsOf schema) fuel seen v = .ok out) :
    ∃ fuel' seen' out', seen ⊆ seen' ∧ resolve (definitionsOf schema) fuel' seen' u = .ok out' := by
  induction hat generalizing fuel seen out with
  | here => exact ⟨fuel, seen, out, List.Subset.refl seen, h⟩
  | inside hchild _ ih =>
    obtain ⟨hstep, hrest⟩ := avoids_cons.1 havoids
    obtain ⟨w', hw', -⟩ := resolve_child hs htame hchild hstep h
    exact ih (htame.inside hchild) hrest hw'
  | through href _ ih =>
    obtain ⟨-, fields, ref, rfl, -⟩ := referent_schema href
    match fuel, h with
    | fuel + 1, h =>
      obtain ⟨ref, base, -, -, hbase, -⟩ := resolve_ref hs htame href h
      obtain ⟨fuel', seen', out', hsub, hout⟩ := ih (htame.through href) havoids hbase
      exact ⟨fuel', seen', out', List.Subset.trans (List.subset_append_left seen _) hsub, hout⟩

/-- **A cycle is found**, unless an entry that is left out hides it. -/
theorem resolved_acyclic (hs : IsSchema schema) (htame : Tame schema .schema (root schema))
    (h : resolved schema (root schema) = .ok out) : ¬ CyclicAt Avoids schema := by
  rintro ⟨ref, t, path, path', ⟨fields, hroot, hlookup⟩, htarget, ⟨fields', hback, hlookup'⟩, havoids, havoids'⟩
  have hreferent : ∀ fields, lookup refKey fields = some (.str ref) → referent schema .schema (.obj fields) = some t := by
    intro fields hlookup
    rw [referent, hlookup]
    exact htarget
  have hfields : Tame schema .schema (.obj fields) := fun path r entries hat => htame _ r entries (hroot.trans hat)
  obtain ⟨fuel, seen, out, -, hout⟩ := resolve_met hs hroot htame havoids h
  match fuel, hout with
  | fuel + 1, hout =>
    obtain ⟨ref₁, base, hlookup₁, -, hbase, -⟩ := resolve_ref hs hfields (hreferent fields hlookup) hout
    rw [hlookup] at hlookup₁
    cases hlookup₁
    have ht := hfields.through (hreferent fields hlookup)
    have hfields' : Tame schema .schema (.obj fields') := fun path r entries hat => ht _ r entries (hback.trans hat)
    obtain ⟨fuel', seen', out', hsub, hout'⟩ := resolve_met hs hback ht havoids' hbase
    match fuel', hout' with
    | fuel' + 1, hout' =>
      obtain ⟨ref₂, base', hlookup₂, hfresh, -, -⟩ := resolve_ref hs hfields' (hreferent fields' hlookup') hout'
      rw [hlookup'] at hlookup₂
      cases hlookup₂
      exact hfresh (hsub (List.mem_append_right _ (List.mem_singleton.2 rfl)))

/-! ## Declared properties -/

theorem resolveNode_mono {expand' : PyStr → PyJson → Except Stop PyJson}
    (hexpand : ∀ name t out, expand name t = .ok out → expand' name t = .ok out) (h : resolveNode defs expand v = .ok w) :
    resolveNode defs expand' v = .ok w := by
  induction v using induct generalizing w with
  | harr vs ih =>
    obtain ⟨ws, hws, rfl⟩ := resolveNode_arr_ok.1 h
    have hboth := (List.forall₂_and_left vs ws).2 ⟨ih, hws⟩
    exact resolveNode_arr_ok.2 ⟨ws, hboth.imp (fun v w hvw => hvw.1 hvw.2), rfl⟩
  | hobj fields ih =>
    have hentries : ∀ entries gs, entries ⊆ fields → Resolves defs expand entries gs → Resolves defs expand' entries gs := by
      intro entries gs hsub hgs
      have hboth := (List.forall₂_and_left entries gs).2 ⟨fun f hf w => ih f (hsub hf) (w := w), hgs⟩
      exact hboth.imp (fun f g hfg => ⟨hfg.2.1, hfg.1 _ hfg.2.2⟩)
    match hexp : expansion defs fields with
    | none =>
      obtain ⟨gs, hgs, rfl⟩ := (resolveNode_plain_ok hexp).1 h
      exact (resolveNode_plain_ok hexp).2 ⟨gs, hentries _ gs (fun f hf => List.mem_of_mem_filter hf) hgs, rfl⟩
    | some (name, t) =>
      obtain ⟨base, hbase, hout⟩ := (resolveNode_ref_ok hexp).1 h
      refine (resolveNode_ref_ok hexp).2 ⟨base, hexpand name t base hbase, ?_⟩
      rcases hout with ⟨baseFields, gs, hobj, hgs, hw⟩ | hout
      · exact .inl ⟨baseFields, gs, hobj, hentries _ gs (fun f hf => List.mem_of_mem_filter hf) hgs, hw⟩
      · exact .inr hout
  | hscalar v harr hobj =>
    rw [resolveNode] at h ⊢
    · exact h
    all_goals assumption

theorem resolve_mono {fuel' : ℕ} {seen' : List PyStr} (hfuel : fuel ≤ fuel') (hseen : seen' ⊆ seen)
    (h : resolve defs fuel seen v = .ok w) : resolve defs fuel' seen' v = .ok w := by
  induction fuel generalizing fuel' seen seen' v w with
  | zero => cases h
  | succ fuel ih =>
    match fuel', hfuel with
    | fuel' + 1, hfuel =>
      refine resolveNode_mono ?_ h
      intro name t out hexp
      unfold expandWith at hexp ⊢
      split_ifs at hexp with hmem
      rw [if_neg (fun hmem' => hmem (hseen hmem'))]
      refine ih (Nat.le_of_succ_le_succ hfuel) ?_ hexp
      exact List.append_subset.2 ⟨List.Subset.trans hseen (List.subset_append_left _ _), List.subset_append_right _ _⟩

/-- **A map that is met keeps its place**, if it is a `properties` map with entries. -/
theorem resolve_declared (hs : IsSchema schema) (hat : At (referent schema) p v path q u) {entries : List (PyStr × PyJson)}
    (hq : q = .properties) (hu : u = .obj entries) (hne : entries ≠ []) (htame : Tame schema p v) (havoids : Avoids path)
    (h : resolve (definitionsOf schema) fuel seen v = .ok out) :
    ∃ fuel' seen' w, fuel' ≤ fuel ∧ place path out = some w ∧ resolve (definitionsOf schema) fuel' seen' (.obj entries) = .ok w := by
  induction hat generalizing fuel seen out with
  | here =>
    subst hu
    exact ⟨fuel, seen, out, le_refl _, rfl, h⟩
  | inside hchild hrest ih =>
    obtain ⟨hstep, havoids⟩ := avoids_cons.1 havoids
    obtain ⟨w', hw', hplace | ⟨ref, rfl⟩⟩ := resolve_child hs htame hchild hstep h
    · obtain ⟨fuel', seen', w, hle, hpath, hresolve⟩ := ih hq hu (htame.inside hchild) havoids hw'
      exact ⟨fuel', seen', w, hle, by rw [place_cons hplace]; exact hpath, hresolve⟩
    · rw [hu] at hrest
      cases at_text hrest
  | @through p r v t u path href hrest ih =>
    obtain ⟨-, fields, ref, rfl, -⟩ := referent_schema href
    match fuel, h with
    | fuel + 1, h =>
      obtain ⟨ref', base, -, -, hbase, hkeep⟩ := resolve_ref hs htame href h
      obtain ⟨fuel', seen', w, hle, hpath, hresolve⟩ := ih hq hu (htame.through href) havoids hbase
      refine ⟨fuel', seen', w, Nat.le_succ_of_le hle, ?_, hresolve⟩
      match path, hrest, hpath with
      | [], hrest, _ =>
        rw [at_nil hrest rfl rfl] at hq
        cases hq
      | s :: path, hrest, hpath =>
        refine hkeep s path w ?_ hpath
        rintro k rfl
        rw [eq_none_iff_forall_ne_some]
        intro x hx
        have hmem := lookup_siblingEntries.1 hx
        have hapart := (htame.here).2.siblings t href (k, x) (Draft7.mem_of_lookup hmem.2) hmem.1
        subst hq hu
        exact hne (hapart.2.2 path entries hrest)

/-- **Declared properties are kept**, each with its own schema resolved, where no name on the way is that of a key of
definitions. -/
theorem property_kept (hs : IsSchema schema) (htame : Tame schema .schema (root schema))
    (h : flattenEmbeddedJsonSchema schema = .ok out) (hdeclared : Declares schema path name v)
    (havoids : Avoids (.key name :: path)) :
    ∃ gs w, place path out = some (.obj gs) ∧ lookup name gs = some w ∧ resolved schema v = .ok w := by
  obtain ⟨entries, hat, hmem⟩ := hdeclared
  obtain ⟨hname, havoids⟩ := avoids_cons.1 havoids
  obtain ⟨fuel, seen, w, hle, hplace, hresolve⟩ :=
    resolve_declared hs hat rfl rfl (List.ne_nil_of_mem hmem) htame havoids h
  have hentries : Tame schema .properties (.obj entries) := fun path' r fields hat' => htame _ r fields (hat.trans hat')
  match fuel, hle, hresolve with
  | fuel + 1, hle, hresolve =>
    have hexp : expansion (definitionsOf schema) entries = none := map_eq_none_iff.1 (hentries.expands hs)
    obtain ⟨gs, hgs, rfl⟩ := (resolveNode_plain_ok hexp).1 hresolve
    have hlookup := lookup_plainEntries.2 ⟨fun hkey => hname name hkey rfl, lookup_of_mem (hentries.here).1.keys hmem⟩
    obtain ⟨w, hw, hv⟩ := hgs.kept hlookup
    exact ⟨gs, w, hplace, hw, resolve_mono hle (List.nil_subset seen) (show resolve _ (fuel + 1) _ _ = _ from hv)⟩

/-- **The function returns or refuses**, whatever the schema. -/
theorem flatten_terminates (schema : List (PyStr × PyJson)) : flattenEmbeddedJsonSchema schema ≠ .error .outOfFuel :=
  resolve_fuel (root schema) List.nodup_nil (fun _ h => absurd h List.not_mem_nil)
    (by rw [List.length_nil, Nat.add_zero]; exact Nat.lt_succ_self _)

theorem flatten_refuses (hs : IsSchema schema) (htame : Tame schema .schema (root schema)) {e : Stop}
    (h : flattenEmbeddedJsonSchema schema = .error e) : CyclicAt Avoids schema ∧ ∃ name, e = recursiveReference name := by
  match e, h with
  | .outOfFuel, h => exact absurd h (flatten_terminates schema)
  | .valueError msg, h =>
    obtain ⟨hcyclic, name, hmsg⟩ :=
      resolve_refuses hs htame ⟨⟨[], avoids_nil, .here _ _⟩, fun _ hmem => absurd hmem List.not_mem_nil⟩ h
    exact ⟨hcyclic, name, by rw [hmsg, recursiveReference]⟩

theorem avoids_of_place (hflat : FlatThroughout schema out) (h : place path out = some u) : Avoids path := by
  induction path generalizing out with
  | nil => exact avoids_nil
  | cons s path ih =>
    match s, out, h with
    | .key k, .obj fields, h =>
      rw [place, bind_eq_some_iff] at h
      obtain ⟨w, hw, h⟩ := h
      have hkey : k ∉ definitionKeys := by
        intro hkey
        rw [(hflat [] fields rfl).keys k hkey] at hw
        cases hw
      refine avoids_key hkey (ih ?_ h)
      intro path' fields' hplace
      exact hflat (.key k :: path') fields' (by rw [place, hw]; exact hplace)
    | .index i, .arr vs, h =>
      rw [place, bind_eq_some_iff] at h
      obtain ⟨w, hw, h⟩ := h
      refine avoids_index i (ih ?_ h)
      intro path' fields' hplace
      exact hflat (.index i :: path') fields' (by rw [place, hw]; exact hplace)

theorem cyclic_of_avoids (h : CyclicAt Avoids schema) : Cyclic schema := by
  obtain ⟨ref, t, path, path', hroot, htarget, hback, -, -⟩ := h
  exact ⟨ref, t, path, path', hroot, htarget, hback, trivial, trivial⟩

theorem throughout_of_closed {P : Position → List (PyStr × PyJson) → Prop} (hclosed : closed (referent schema) S = true)
    (hmem : (p, v) ∈ S) (h : ∀ x ∈ S, ∀ fields, x.2 = .obj fields → P x.1 fields) : Throughout (referent schema) P p v :=
  fun _ q fields hat => h (q, .obj fields) (closed_at hclosed hat hmem) fields rfl

theorem acyclic_of_closed (hclosed : closed (referent schema) S = true) (hmem : (Position.schema, root schema) ∈ S)
    (h : ∀ x ∈ S, referent schema x.1 x.2 = none) : ¬ Cyclic schema := by
  rintro ⟨ref, t, path, path', ⟨fields, hat, hlookup⟩, htarget, -⟩
  have hnone := h _ (closed_at hclosed hat hmem)
  rw [referent, hlookup] at hnone
  rw [show target schema ref = none from hnone] at htarget
  cases htarget

theorem referent_none (h : lookup refKey fields = none) : referent schema p (.obj fields) = none := by
  cases p <;> simp [referent, h]

theorem plain_node (p : Position) (hkeys : (fields.map Prod.fst).Nodup) (h : lookup refKey fields = none) :
    SchemaNode schema p fields ∧ InlinesRef schema p fields := by
  constructor
  · refine ⟨hkeys, fun ref _ href => ?_, fun _ ref href => ?_, fun t ht => ?_⟩
    · rw [h] at href
      cases href
    · rw [h] at href
      cases href
    · rw [referent_none h] at ht
      cases ht
  · refine ⟨fun ref t _ href => ?_, fun t ht => ?_⟩
    · rw [h] at href
      cases href
    · rw [referent_none h] at ht
      cases ht

/-- a schema that declares a property `definitions`, and what is met in it -/
def namedDefinitions : List (PyStr × PyJson) :=
  [("properties", .obj [("definitions", .obj [("type", .str "string")])])]

def metInNamedDefinitions : List (Position × PyJson) :=
  [(.schema, root namedDefinitions), (.properties, .obj [("definitions", .obj [("type", .str "string")])]),
    (.schema, .obj [("type", .str "string")]), (.schema, .str "string")]

/-- a schema with a reference that has a title next to it, and what is met in it -/
def titledReference : List (PyStr × PyJson) :=
  [("$defs", .obj [("A", .obj [("properties", .obj [("x", .bool true)])])]),
    ("items", .obj [("$ref", .str "#/$defs/A"), ("title", .str "t")])]

def metInTitledReference : List (Position × PyJson) :=
  [(.schema, root titledReference), (.schema, .obj [("$ref", .str "#/$defs/A"), ("title", .str "t")]),
    (.schema, .str "#/$defs/A"), (.schema, .str "t"), (.schema, .obj [("properties", .obj [("x", .bool true)])]),
    (.properties, .obj [("x", .bool true)]), (.schema, .bool true)]

theorem titledReference_node : SchemaNode titledReference .schema [("$ref", .str "#/$defs/A"), ("title", .str "t")] ∧
    InlinesRef titledReference .schema [("$ref", .str "#/$defs/A"), ("title", .str "t")] := by
  constructor
  · refine ⟨by decide, ?_, nofun, ?_⟩
    · intro ref _ href name hname
      cases href
      have hnames : after defsLead "#/$defs/A" = some "A" ∧ after definitionsLead "#/$defs/A" = none := by decide
      rw [hnames.1, hnames.2] at hname
      rcases hname with hname | hname <;> cases hname
      decide
    · intro t ht
      cases ht
      exact .inl rfl
  · refine ⟨?_, ?_⟩
    · intro ref t _ href ht
      cases href
      cases ht
      decide
    · intro t ht f hf hne
      cases ht
      have htitle : f.1 = PyStr.ofString "title" := by
        rcases List.mem_cons.1 hf with rfl | hf
        · exact absurd (by decide) hne
        · rw [List.mem_singleton.1 hf]
      rw [htitle]
      refine ⟨by decide, ?_, ?_⟩
      · intro q u hat
        cases hat with
        | here => rfl
        | through href _ =>
          cases href
      · intro path entries hat
        cases hat with
        | inside hchild _ =>
          obtain ⟨k, hmem, -, hk, -⟩ := mem_children_obj.1 hchild
          rw [List.mem_singleton, Prod.mk.injEq] at hmem
          rw [hmem.1] at hk
          exact absurd hk (by decide)
        | through href _ =>
          cases href

end Document

end Teardrop.ToolSchema
