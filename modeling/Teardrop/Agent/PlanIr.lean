/-
The structured plan of compiler mode (`agent/planner_ir.py`): its data, the references between its calls, the validation
of its dependency graph, and the parser of a `<plan>` block.

`Plan.model_validate` is pydantic's: the types of the fields are checked, missing ones get their defaults, unknown ones
are ignored, and an integer field takes what pydantic's lax mode takes for an integer (`laxInt`, a parameter). A reference
that does not resolve leaves the text as it is, so `resolvePlanReferences` is total.
-/
import Teardrop.Core.Py
import Teardrop.Core.JsonDict

namespace Teardrop

/-- `list[i]`: an index from the end when it is negative; `none` is `IndexError` -/
def pyIndex {α : Type} (l : List α) (i : ℤ) : Option α :=
  if 0 ≤ i then l[i.toNat]? else if 0 ≤ i + l.length then l[(i + l.length).toNat]? else none

/-- `int(x)` of a float; infinities and NaN have none -/
def Double.toInt? : Double → Option ℤ
  | .finite negative k => some (if negative then -(Double.units k / 2 ^ 1074 : ℕ) else (Double.units k / 2 ^ 1074 : ℕ))
  | _ => none

/-- `int(text)`; `none` is `ValueError` -/
def PyStr.toInt? (s : PyStr) : Option ℤ := PyText.parseInt 10 (s.map PyJson.toChar)

namespace Agent

open Teardrop.Py

/-! ## Plans -/

structure PlanCall where
  callId : PyStr
  tool : PyStr
  args : List (PyStr × PyJson) := []
  dependsOn : List PyStr := []
deriving DecidableEq

structure PlanStage where
  stageId : ℤ
  calls : List PlanCall := []
deriving DecidableEq

structure Plan where
  stages : List PlanStage := []
  synthesizerAfterStage : Option ℤ := none
  currentStageIndex : ℤ := 0
  completedCallIds : List PyStr := []
deriving DecidableEq

def Plan.isDone (p : Plan) : Bool := p.currentStageIndex ≥ p.stages.length

/-- every call of the plan, stage by stage -/
def Plan.calls (p : Plan) : List PlanCall := p.stages.flatMap PlanStage.calls

/-! ## References -/

/-- `_lookup_path` along the parts of a path -/
def lookupParts : PyJson → List PyStr → Option PyJson
  | cur, [] => some cur
  | .obj fields, part :: parts => (PyJson.lookup part fields).bind (fun v => lookupParts v parts)
  | .arr items, part :: parts => (part.toInt?.bind (pyIndex items)).bind (fun v => lookupParts v parts)
  | _, _ :: _ => none

def lookupPath (root : PyJson) (path : Option PyStr) : Option PyJson :=
  match path with
  | none => some root
  | some [] => some root
  | some path => lookupParts root (PyStr.split (PyChar.ofChar '.') path)

def isIdChar (c : PyChar) : Bool :=
  c.isDigit || ('a'.toNat ≤ c.val && c.val ≤ 'z'.toNat) || ('A'.toNat ≤ c.val && c.val ≤ 'Z'.toNat) ||
    c = PyChar.ofChar '_' || c = PyChar.ofChar '-'

def isPathChar (c : PyChar) : Bool :=
  isIdChar c || c = PyChar.ofChar '.' || c = PyChar.ofChar '[' || c = PyChar.ofChar ']'

/-- what follows the braces that open a reference: the call id, the path, blanks, and the braces that close it -/
def matchRefBody (s : PyStr) : Option (PyStr × Option PyStr) :=
  let body := s.dropWhile PyChar.isSpace
  let callId := body.takeWhile isIdChar
  let rest := body.dropWhile isIdChar
  let (path, tail) : Option PyStr × PyStr :=
    match rest with
    | c :: rest' =>
      if c = PyChar.ofChar '.' ∧ rest'.takeWhile isPathChar ≠ [] then
        (some (rest'.takeWhile isPathChar), rest'.dropWhile isPathChar)
      else (none, rest)
    | [] => (none, [])
  if callId ≠ [] ∧ tail.dropWhile PyChar.isSpace = PyStr.ofString "\x7d\x7d" then some (callId, path) else none

/-- `_REF_RE.match` on a stripped text -/
def matchRef (s : PyStr) : Option (PyStr × Option PyStr) :=
  match s with
  | a :: b :: rest => if a = PyChar.ofChar '\x7b' ∧ b = PyChar.ofChar '\x7b' then matchRefBody rest else none
  | _ => none

def resolveText (outputs : List (PyStr × PyJson)) (s : PyStr) : PyJson :=
  match matchRef (PyStr.strip s) with
  | none => .str s
  | some (callId, path) =>
    match PyJson.lookup callId outputs with
    | none | some .null => .str s
    | some base => (lookupPath base path).getD (.str s)

mutual
def resolvePlanReferences (outputs : List (PyStr × PyJson)) : PyJson → PyJson
  | .obj fields => .obj (resolveFields outputs fields)
  | .arr items => .arr (resolveItems outputs items)
  | .str s => resolveText outputs s
  | v => v

def resolveItems (outputs : List (PyStr × PyJson)) : List PyJson → List PyJson
  | [] => []
  | v :: vs => resolvePlanReferences outputs v :: resolveItems outputs vs

def resolveFields (outputs : List (PyStr × PyJson)) : List (PyStr × PyJson) → List (PyStr × PyJson)
  | [] => []
  | (k, v) :: fs => (k, resolvePlanReferences outputs v) :: resolveFields outputs fs
end

/-! ## Validation -/

/-- the first loop of `validate_plan_dag`, with the ids seen so far -/
def checkIds : List PyStr → List PlanCall → Call (List PyStr)
  | seen, [] => .ok seen
  | seen, c :: calls =>
    if c.callId = [] then .error (.valueError "Plan call_id must be non-empty")
    else if c.tool = [] then .error (.valueError "Plan call is missing tool name")
    else if c.callId ∈ seen then .error (.valueError "Duplicate plan call_id")
    else checkIds (seen ++ [c.callId]) calls

/-- `graph.get(node, [])` -/
def dependenciesOf (calls : List PlanCall) (node : PyStr) : List PyStr :=
  ((calls.find? (fun c => c.callId = node)).map PlanCall.dependsOn).getD []

/-- `_dfs`, the visited nodes handed on; `fuel` bounds the depth: the nodes being visited are different calls -/
def dfs (calls : List PlanCall) : ℕ → List PyStr → List PyStr → PyStr → Call (List PyStr)
  | 0, _, _, _ => .error (.valueError "Plan contains a dependency cycle")
  | fuel + 1, visiting, visited, node =>
    if node ∈ visited then .ok visited
    else if node ∈ visiting then .error (.valueError "Plan contains a dependency cycle")
    else do
      let visited' ← (dependenciesOf calls node).foldlM (dfs calls fuel (node :: visiting)) visited
      return node :: visited'

def validatePlanDag (p : Plan) : Call Unit := do
  let ids ← checkIds [] p.calls
  if p.calls.all (fun c => c.dependsOn.all (fun d => d ∈ ids)) then
    let _ ← (p.calls.map PlanCall.callId).foldlM (dfs p.calls (p.calls.length + 1) []) []
    return ()
  else .error (.valueError "Plan call depends on unknown call_id")

/-! ## The `<plan>` block -/

/-- the rest of `s` after `word`, whose letters match in either case -/
def afterWord (word : PyStr) (s : PyStr) : Option PyStr :=
  if (s.take word.length).map PyStr.lowerAscii = word then some (s.drop word.length) else none

/-- from the brace that opens the block to the first closing brace that `</plan>` follows; `acc` is read backwards -/
def scanBlock : PyStr → PyStr → Option PyStr
  | _, [] => none
  | acc, c :: rest =>
    if c = PyChar.ofChar '\x7d' ∧ (afterWord (PyStr.ofString "</plan>") (rest.dropWhile PyChar.isSpace)).isSome then
      some (c :: acc).reverse
    else scanBlock (c :: acc) rest

/-- `_PLAN_TAG_RE.search`: the leftmost match -/
def searchPlan : PyStr → Option PyStr
  | [] => none
  | c :: rest =>
    let block := match (afterWord (PyStr.ofString "<plan>") (c :: rest)).map (List.dropWhile PyChar.isSpace) with
      | some (b :: body) => if b = PyChar.ofChar '\x7b' then scanBlock [b] body else none
      | _ => none
    block.or (searchPlan rest)

def maxPlanBlockChars : ℕ := 4096

/-- a field of a pydantic model: absent with a default, or checked -/
def field {α : Type} (fields : List (PyStr × PyJson)) (name : String) (default : Option α) (read : PyJson → Option α) :
    Option α :=
  match PyJson.lookup (PyStr.ofString name) fields with
  | none => default
  | some v => read v

def readStr : PyJson → Option PyStr
  | .str s => some s
  | _ => none

def readList {α : Type} (read : PyJson → Option α) : PyJson → Option (List α)
  | .arr items => items.mapM read
  | _ => none

def readDict : PyJson → Option (List (PyStr × PyJson))
  | .obj fields => some fields
  | _ => none

def PlanCall.modelValidate : PyJson → Option PlanCall
  | .obj fields => do
    let callId ← field fields "call_id" none readStr
    let tool ← field fields "tool" none readStr
    let args ← field fields "args" (some []) readDict
    let dependsOn ← field fields "depends_on" (some []) (readList readStr)
    return { callId, tool, args, dependsOn }
  | _ => none

def PlanStage.modelValidate (laxInt : PyJson → Option ℤ) : PyJson → Option PlanStage
  | .obj fields => do
    let stageId ← field fields "stage_id" none laxInt
    let calls ← field fields "calls" (some []) (readList PlanCall.modelValidate)
    return { stageId, calls }
  | _ => none

/-- `int | None` -/
def readOptional (laxInt : PyJson → Option ℤ) : PyJson → Option (Option ℤ)
  | .null => some none
  | v => (laxInt v).map some

def Plan.modelValidate (laxInt : PyJson → Option ℤ) : PyJson → Option Plan
  | .obj fields => do
    let stages ← field fields "stages" (some []) (readList (PlanStage.modelValidate laxInt))
    let synthesizerAfterStage ← field fields "synthesizer_after_stage" (some none) (readOptional laxInt)
    let currentStageIndex ← field fields "current_stage_index" (some 0) laxInt
    let completedCallIds ← field fields "completed_call_ids" (some []) (readList readStr)
    return { stages, synthesizerAfterStage, currentStageIndex, completedCallIds }
  | _ => none

/-- `parse_plan_from_text`; `limit` is the interpreter's recursion limit for `json.loads` -/
def parsePlanFromText (laxInt : PyJson → Option ℤ) (limit : ℕ) (text : PyStr) : Call (Option Plan) :=
  match searchPlan text with
  | none => .ok none
  | some block =>
    let raw := PyStr.strip block
    if raw.length > maxPlanBlockChars then .error (.valueError "Plan block exceeds maximum allowed size")
    else match PyJson.loads limit raw with
      | .error _ => .error (.valueError "JSONDecodeError")
      | .ok payload =>
        match Plan.modelValidate laxInt payload with
        | none => .error (.valueError "ValidationError")
        | some p => (validatePlanDag p).map (fun _ => some p)

/-! ## What an accepted plan satisfies -/

theorem checkIds_ok {seen ids : List PyStr} {calls : List PlanCall} (h : checkIds seen calls = .ok ids) :
    ids = seen ++ calls.map PlanCall.callId ∧ (seen.Nodup → ids.Nodup) ∧ ∀ c ∈ calls, c.callId ≠ [] := by
  induction calls generalizing seen with
  | nil =>
    cases h
    exact ⟨(List.append_nil _).symm, id, fun _ hc => absurd hc List.not_mem_nil⟩
  | cons c calls ih =>
    unfold checkIds at h
    split_ifs at h with hid htool hseen
    obtain ⟨hids, hnodup, hne⟩ := ih h
    refine ⟨by rw [hids]; simp, ?_, ?_⟩
    · intro hs
      apply hnodup
      rw [List.nodup_append]
      refine ⟨hs, List.nodup_singleton _, ?_⟩
      intro a ha b hb hab
      rw [List.mem_singleton.1 hb] at hab
      exact hseen (hab ▸ ha)
    · intro d hd
      rcases List.mem_cons.1 hd with rfl | hd
      · exact hid
      · exact hne d hd

/-- call ids are not empty and pairwise different, and every dependency is a call of the plan -/
theorem validatePlanDag_ok {p : Plan} (h : validatePlanDag p = .ok ()) :
    (p.calls.map PlanCall.callId).Nodup ∧ (∀ c ∈ p.calls, c.callId ≠ []) ∧
      ∀ c ∈ p.calls, ∀ d ∈ c.dependsOn, d ∈ p.calls.map PlanCall.callId := by
  obtain ⟨ids, hids, hrest⟩ := bind_eq_ok h
  obtain ⟨heq, hnodup, hne⟩ := checkIds_ok hids
  rw [List.nil_append] at heq
  split_ifs at hrest with hdeps
  refine ⟨heq ▸ hnodup List.nodup_nil, hne, ?_⟩
  intro c hc d hd
  have hall := List.all_eq_true.1 (List.all_eq_true.1 hdeps c hc) d hd
  rw [← heq]
  exact of_decide_eq_true hall

theorem parsePlanFromText_ok {laxInt : PyJson → Option ℤ} {limit : ℕ} {text : PyStr} {p : Plan}
    (h : parsePlanFromText laxInt limit text = .ok (some p)) : validatePlanDag p = .ok () := by
  unfold parsePlanFromText at h
  split at h
  · cases h
  · dsimp only at h
    split_ifs at h
    split at h
    · cases h
    · split at h
      · cases h
      · obtain ⟨u, hu, heq⟩ := PyJson.except_map_ok h
        cases heq
        exact hu

end Agent

end Teardrop
