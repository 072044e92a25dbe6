/-
Places in a JSON Schema: which values are schemas and which are maps from names to schemas, and what is met from a value on the
way through keys, list positions and references. What a reference refers to is a parameter.
-/
import Teardrop.Core.Draft7

namespace Teardrop.PyJson

open List

/-! ## Values and dicts -/

mutual
/-- what holds of a list or dict when it holds of all its values, and of every scalar, holds of every value -/
theorem induct {P : PyJson → Prop} (harr : ∀ vs, (∀ v ∈ vs, P v) → P (.arr vs))
    (hobj : ∀ fields : List (PyStr × PyJson), (∀ f ∈ fields, P f.2) → P (.obj fields))
    (hscalar : ∀ v, (∀ vs, v ≠ .arr vs) → (∀ fields, v ≠ .obj fields) → P v) : ∀ v, P v
  | .arr vs => harr vs (induct_items harr hobj hscalar vs)
  | .obj fields => hobj fields (induct_fields harr hobj hscalar fields)
  | .null => hscalar _ nofun nofun
  | .bool _ => hscalar _ nofun nofun
  | .int _ => hscalar _ nofun nofun
  | .float _ => hscalar _ nofun nofun
  | .str _ => hscalar _ nofun nofun

theorem induct_items {P : PyJson → Prop} (harr : ∀ vs, (∀ v ∈ vs, P v) → P (.arr vs))
    (hobj : ∀ fields : List (PyStr × PyJson), (∀ f ∈ fields, P f.2) → P (.obj fields))
    (hscalar : ∀ v, (∀ vs, v ≠ .arr vs) → (∀ fields, v ≠ .obj fields) → P v) : ∀ vs : List PyJson, ∀ v ∈ vs, P v
  | [] => nofun
  | v :: vs => forall_mem_cons.2 ⟨induct harr hobj hscalar v, induct_items harr hobj hscalar vs⟩

theorem induct_fields {P : PyJson → Prop} (harr : ∀ vs, (∀ v ∈ vs, P v) → P (.arr vs))
    (hobj : ∀ fields : List (PyStr × PyJson), (∀ f ∈ fields, P f.2) → P (.obj fields))
    (hscalar : ∀ v, (∀ vs, v ≠ .arr vs) → (∀ fields, v ≠ .obj fields) → P v) :
    ∀ fields : List (PyStr × PyJson), ∀ f ∈ fields, P f.2
  | [] => nofun
  | (_, v) :: fields => forall_mem_cons.2 ⟨induct harr hobj hscalar v, induct_fields harr hobj hscalar fields⟩
end

/-- `d.update(more)` -/
def update (fields more : List (PyStr × PyJson)) : List (PyStr × PyJson) :=
  more.foldl (fun fields f => insertField f.1 f.2 fields) fields

theorem lookup_insertField (k l : PyStr) (v : PyJson) (fields : List (PyStr × PyJson)) :
    lookup l (insertField k v fields) = if k = l then some v else lookup l fields := by
  induction fields with
  | nil => rfl
  | cons f fields ih =>
    rw [insertField]
    split_ifs with hk hl hl
    · rw [lookup, hk, if_pos hl]
    · rw [lookup, lookup, hk, if_neg hl, if_neg hl]
    · rw [lookup, if_neg (fun h => hk (h.trans hl.symm)), ih, if_pos hl]
    · rw [lookup, lookup, ih, if_neg hl]

variable {fields : List (PyStr × PyJson)}

theorem lookup_eq_none_iff {k : PyStr} : lookup k fields = none ↔ k ∉ fields.map Prod.fst := by
  induction fields with
  | nil => simp [lookup]
  | cons f fields ih =>
    rw [lookup, map_cons, mem_cons, not_or, ← ih]
    split_ifs with hk
    · simp [hk]
    · simp [Ne.symm hk]

theorem lookup_of_mem {k : PyStr} {v : PyJson} (hnodup : (fields.map Prod.fst).Nodup) (h : (k, v) ∈ fields) :
    lookup k fields = some v := by
  induction fields with
  | nil => cases h
  | cons f fields ih =>
    rw [map_cons, nodup_cons] at hnodup
    rw [lookup]
    rcases mem_cons.1 h with rfl | h
    · exact if_pos rfl
    · have hne : f.1 ≠ k := by
        intro heq
        apply hnodup.1
        rw [heq]
        exact mem_map_of_mem (f := Prod.fst) h
      rw [if_neg hne]
      exact ih hnodup.2 h

theorem lookup_update {more : List (PyStr × PyJson)} (h : (more.map Prod.fst).Nodup) (k : PyStr) :
    lookup k (update fields more) = (lookup k more).or (lookup k fields) := by
  induction more generalizing fields with
  | nil => rfl
  | cons f more ih =>
    rw [map_cons, nodup_cons] at h
    have hstep : update fields (f :: more) = update (insertField f.1 f.2 fields) more := rfl
    rw [hstep, ih h.2, lookup_insertField, lookup]
    split_ifs with hk
    · rw [lookup_eq_none_iff.2 (by rw [← hk]; exact h.1)]
      rfl
    · rfl

theorem lookup_filter (keep : PyStr → Bool) (k : PyStr) (fields : List (PyStr × PyJson)) :
    lookup k (fields.filter (fun f => keep f.1)) = if keep k then lookup k fields else none := by
  induction fields with
  | nil => simp [lookup]
  | cons f fields ih =>
    by_cases hk : f.1 = k
    · subst hk
      by_cases hkeep : keep f.1 = true
      · simp [hkeep, lookup]
      · simp [hkeep, ih]
    · by_cases hkeep : keep f.1 = true <;> simp [hkeep, lookup, hk, ih]

variable {R : PyJson → PyJson → Prop} {gs : List (PyStr × PyJson)}

theorem lookup_forall₂ (h : List.Forall₂ (fun f g => f.1 = g.1 ∧ R f.2 g.2) fields gs) (k : PyStr) :
    (lookup k fields = none ∧ lookup k gs = none) ∨ ∃ v w, lookup k fields = some v ∧ lookup k gs = some w ∧ R v w := by
  induction h with
  | nil => exact .inl ⟨rfl, rfl⟩
  | @cons f g fields gs hfg _ ih =>
    rw [lookup, lookup, ← hfg.1]
    split_ifs with hk
    · exact .inr ⟨f.2, g.2, rfl, rfl, hfg.2⟩
    · exact ih

theorem keys_forall₂ (h : List.Forall₂ (fun f g => f.1 = g.1 ∧ R f.2 g.2) fields gs) :
    fields.map Prod.fst = gs.map Prod.fst := by
  induction h with
  | nil => rfl
  | cons hfg _ ih => rw [map_cons, map_cons, hfg.1, ih]

/-! ## Places -/

/-- one step into a value -/
inductive Step where
  | key (k : PyStr)
  | index (i : ℕ)
deriving DecidableEq

/-- the value at a place -/
def place : List Step → PyJson → Option PyJson
  | [], v => some v
  | .key k :: path, .obj fields => (lookup k fields).bind (place path)
  | .index i :: path, .arr vs => vs[i]?.bind (place path)
  | _, _ => none

end Teardrop.PyJson

namespace Teardrop.SchemaPlaces

open PyJson

/-- what a value in a schema is: a schema (or part of one), a `properties` map, or another map from names to schemas -/
inductive Position where
  | schema
  | properties
  | names
deriving DecidableEq

/-- the keys of a schema that hold definitions, which are met through references only -/
def definitionKeys : List PyStr := ["$defs", "definitions"].map PyStr.ofString

def namesKeys : List PyStr := ["patternProperties", "dependencies", "dependentSchemas"].map PyStr.ofString

/-- what the value under a key is; the keys of maps are names -/
def Position.child (p : Position) (k : PyStr) : Position :=
  if p ≠ .schema then .schema
  else if k = PyStr.ofString "properties" then .properties
  else if k ∈ namesKeys then .names
  else .schema

/-- the key holds definitions -/
def Position.skips (p : Position) (k : PyStr) : Bool := p = .schema && k ∈ definitionKeys

/-- the values in a value -/
def children (p : Position) : PyJson → List (Step × Position × PyJson)
  | .obj fields => (fields.filter (fun f => !p.skips f.1)).map (fun f => (.key f.1, p.child f.1, f.2))
  | .arr vs => vs.zipIdx.map (fun x => (.index x.2, .schema, x.1))
  | _ => []

section Walk

variable (referent : Position → PyJson → Option PyJson)

/-- from a value, the value at a place: references are followed where they stand -/
inductive At : Position → PyJson → List Step → Position → PyJson → Prop
  | here (p : Position) (v : PyJson) : At p v [] p v
  | inside {p q r : Position} {v w u : PyJson} {s : Step} {path : List Step} :
      (s, q, w) ∈ children p v → At q w path r u → At p v (s :: path) r u
  | through {p r : Position} {v t u : PyJson} {path : List Step} :
      referent p v = some t → At .schema t path r u → At p v path r u

/-- it holds of every dict that is met -/
def Throughout (P : Position → List (PyStr × PyJson) → Prop) (p : Position) (v : PyJson) : Prop :=
  ∀ path q fields, At referent p v path q (.obj fields) → P q fields

variable {referent}

variable {p q : Position} {P : Position → List (PyStr × PyJson) → Prop}

variable {v w : PyJson} {fields : List (PyStr × PyJson)}

theorem At.trans {r : Position} {u : PyJson} {path path' : List Step} (h : At referent p v path q u)
    (h' : At referent q u path' r w) : At referent p v (path ++ path') r w := by
  induction h with
  | here => exact h'
  | inside hmem _ ih => exact .inside hmem (ih h')
  | through href _ ih => exact .through href (ih h')

theorem Throughout.inside {s : Step} (h : Throughout referent P p v) (hmem : (s, q, w) ∈ children p v) :
    Throughout referent P q w :=
  fun path r fields hat => h (s :: path) r fields (.inside hmem hat)

theorem Throughout.through {t : PyJson} (h : Throughout referent P p v) (href : referent p v = some t) :
    Throughout referent P .schema t :=
  fun path r fields hat => h path r fields (.through href hat)

theorem Throughout.here (h : Throughout referent P p (.obj fields)) : P p fields :=
  h [] p fields (.here p _)

theorem mem_children_obj {s : Step} :
    (s, q, w) ∈ children p (.obj fields) ↔ ∃ k, (k, w) ∈ fields ∧ p.skips k = false ∧ s = .key k ∧ q = p.child k := by
  simp only [children, List.mem_map, List.mem_filter, Bool.not_eq_true', Prod.mk.injEq, Prod.exists]
  constructor
  · rintro ⟨k, v, ⟨hmem, hskip⟩, rfl, rfl, rfl⟩
    exact ⟨k, hmem, hskip, rfl, rfl⟩
  · rintro ⟨k, hmem, hskip, rfl, rfl⟩
    exact ⟨k, w, ⟨hmem, hskip⟩, rfl, rfl, rfl⟩

theorem mem_children_arr {vs : List PyJson} {s : Step} :
    (s, q, w) ∈ children p (.arr vs) ↔ ∃ i, vs[i]? = some w ∧ s = .index i ∧ q = .schema := by
  simp only [children, List.mem_map, Prod.mk.injEq, Prod.exists, List.mk_mem_zipIdx_iff_getElem?]
  constructor
  · rintro ⟨v, i, hv, rfl, rfl, rfl⟩
    exact ⟨i, hv, rfl, rfl⟩
  · rintro ⟨i, hv, rfl, rfl⟩
    exact ⟨w, i, hv, rfl, rfl, rfl⟩

/-- every value one step away is among the values -/
def closed (referent : Position → PyJson → Option PyJson) (S : List (Position × PyJson)) : Bool :=
  S.all (fun x => (children x.1 x.2).all (fun c => c.2 ∈ S) && (referent x.1 x.2).all (fun t => (Position.schema, t) ∈ S))

theorem closed_at {S : List (Position × PyJson)} (hclosed : closed referent S = true) {u : PyJson} {path : List Step}
    (h : At referent p v path q u) (hmem : (p, v) ∈ S) : (q, u) ∈ S := by
  induction h with
  | here => exact hmem
  | inside hchild _ ih =>
    have hstep := List.all_eq_true.1 hclosed _ hmem
    rw [Bool.and_eq_true] at hstep
    exact ih (of_decide_eq_true (List.all_eq_true.1 hstep.1 _ hchild))
  | through href _ ih =>
    have hstep := List.all_eq_true.1 hclosed _ hmem
    rw [Bool.and_eq_true, href] at hstep
    exact ih (of_decide_eq_true hstep.2)

end Walk

end Teardrop.SchemaPlaces
