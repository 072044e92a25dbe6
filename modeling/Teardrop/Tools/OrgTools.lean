/-
The custom tools of the orgs (`org_tools/crud.py`): create, update and delete, by any number of clients at once, and the
deactivation of a failing tool (`marketplace/withdrawals.py`).

Each statement is one step: `create_org_tool` counts the active tools and later inserts, `update_org_tool` reads the row and later
updates it. Two active tools of an org have different names (a partial unique index), and an active tool is called by GET (a
CHECK). Of a row the columns that these statements read are kept; a call carries what its checks read and meet.
-/
import Teardrop.Core.PyText
import Teardrop.Core.Runs
import Teardrop.Core.Table

namespace Teardrop.OrgTools

open Teardrop.Runs

/-! ## Data -/

structure ToolRow where
  id : String
  orgId : String
  name : String
  /-- `webhook_method = 'GET'` -/
  isGet : Bool
  isActive : Bool

abbrev Rows := Table ToolRow.id

structure CreateArgs where
  id : String
  orgId : String
  name : String
  webhookUrl : Option String := some "https://tool.example"
  mcpServerId : Option String := none
  mcpToolName : Option String := none
  publishAsMcp : Bool := false
  category : String := ""
  tags : List (List Char) := []
  /-- what encrypting the auth header raises -/
  encryptError : Option String := none
  /-- `get_author_config` finds one -/
  hasAuthorConfig : Bool := false

structure UpdateArgs where
  toolId : String
  orgId : String
  isActive : Option Bool := none
  publishAsMcp : Option Bool := none
  category : Option String := none
  tags : Option (List (List Char)) := none
  /-- another column is set -/
  setsOther : Bool := false
  encryptError : Option String := none
  hasAuthorConfig : Bool := false

inductive Outcome where
  | tool (id : String)
  | notFound
  | deleted (found : Bool)
  /-- `ValueError` -/
  | refused (message : String)
  /-- another exception -/
  | raised

/-- a call, by the statement it runs next -/
inductive Task where
  | create (c : CreateArgs)
  /-- counted and checked -/
  | insert (c : CreateArgs)
  | update (u : UpdateArgs)
  /-- read and checked -/
  | write (u : UpdateArgs)
  | delete (toolId orgId : String)
  | deactivate (toolId : String)
  | done (o : Outcome)

/-! ## Checks -/

def validMarketplaceCategories : List String := ["", "defi", "search", "data", "communication", "utility"]

/-- `^[a-z0-9][a-z0-9 _-]{0,49}$` -/
def isMarketplaceTag : List Char → Bool
  | [] => false
  | c :: cs => (c.isLower || c.isDigit) && cs.length ≤ 49 &&
      cs.all (fun d => d.isLower || d.isDigit || d = ' ' || d = '_' || d = '-')

/-- `normalize_marketplace_tags`; `wide` lowers the characters above ASCII -/
def normalizeMarketplaceTags (wide : Char → List Char) (tags : List (List Char)) : Except String (List (List Char)) :=
  if 20 < tags.length then .error "At most 20 marketplace tags are allowed"
  else
    let normalized := tags.map (fun tag => PyText.lower wide (PyText.strip tag))
    if normalized.all isMarketplaceTag then
      .ok (normalized.foldl (fun kept tag => if tag ∈ kept then kept else kept ++ [tag]) [])
    else .error "Marketplace tags must use lowercase letters, digits, spaces, underscores, or hyphens"

/-- `if not ...: raise ValueError(message)` -/
def require (holds : Bool) (message : String) : Except String Unit := if holds then .ok () else .error message

/-- the checks of `create_org_tool` after the quota -/
def checkCreate (wide : Char → List Char) (c : CreateArgs) : Except String Unit := do
  match c.encryptError with
  | some message => .error message
  | none => .ok ()
  require (c.mcpServerId.isSome || c.mcpToolName.isNone) "mcp_tool_name requires mcp_server_id"
  require (c.mcpServerId.isNone || (c.mcpToolName.filter (· ≠ "")).isSome) "mcp_server_id requires mcp_tool_name"
  require (c.webhookUrl.isSome || c.mcpServerId.isSome) "Either webhook_url or mcp_server_id is required"
  require (!c.publishAsMcp || c.hasAuthorConfig)
    ("Cannot publish tool to marketplace — register a settlement wallet first via " ++ "POST /marketplace/author-config")
  require (c.category ∈ validMarketplaceCategories) "Invalid marketplace category"
  let _ ← normalizeMarketplaceTags wide c.tags
  return ()

/-- the checks of `update_org_tool` -/
def checkUpdate (wide : Char → List Char) (u : UpdateArgs) : Except String Unit := do
  require (u.publishAsMcp ≠ some true || u.hasAuthorConfig)
    "Cannot publish tool to marketplace — register a settlement wallet first"
  require (u.category.all (· ∈ validMarketplaceCategories)) "Invalid marketplace category"
  match u.tags with
  | some tags => let _ ← normalizeMarketplaceTags wide tags
  | none => .ok ()
  match u.encryptError with
  | some message => .error message
  | none => .ok ()

/-- some column is set -/
def UpdateArgs.sets (u : UpdateArgs) : Bool :=
  u.isActive.isSome || u.publishAsMcp.isSome || u.category.isSome || u.tags.isSome || u.setsOther

/-! ## Statements -/

def active (rows : Rows) (orgId : String) : ℕ := rows.rows.countP (fun r => r.orgId = orgId && r.isActive)

/-- the partial unique index: another active tool of the org has the name -/
def nameTaken (rows : Rows) (orgId name id : String) : Bool :=
  rows.rows.any (fun r => r.orgId = orgId && r.name = name && r.isActive && r.id ≠ id)

def CreateArgs.row (c : CreateArgs) : ToolRow := ⟨c.id, c.orgId, c.name, true, true⟩

/-- the INSERT; `none` on a unique violation -/
def insertTool (c : CreateArgs) (rows : Rows) : Option Rows :=
  if nameTaken rows c.orgId c.name c.id then none else rows.insert? c.row

/-- the rows with `is_active` of one of them set -/
def setActive (id : String) (value : Bool) (rows : Rows) : Rows :=
  rows.update (fun r => if r.id = id then { r with isActive := value } else r) (fun r => by
    split_ifs <;> rfl)

/-- the row of an update or a deletion -/
def toolOf (rows : Rows) (id orgId : String) : Option ToolRow := (rows.get? id).filter (fun r => r.orgId = orgId)

/-- the UPDATE of `is_active`; `none` when the index or the CHECK refuses it -/
def writeActive (r : ToolRow) (value : Bool) (rows : Rows) : Option Rows :=
  if value ∧ (r.isGet = false ∨ nameTaken rows r.orgId r.name r.id) then none else some (setActive r.id value rows)

structure St where
  rows : Rows := Table.empty
  tasks : List Task := []

inductive Op where
  | call (t : Task)
  /-- the next statement of call `i` -/
  | advance (i : ℕ)

/-- a statement: the rows after it and what the call does next -/
def advance (wide : Char → List Char) (max : ℤ) (rows : Rows) : Task → Rows × Task
  | .create c =>
    if max ≤ active rows c.orgId then
      (rows, .done (.refused ("Organisation tool limit reached (" ++ toString max ++ ")")))
    else
      match checkCreate wide c with
      | .error message => (rows, .done (.refused message))
      | .ok () => (rows, .insert c)
  | .insert c =>
    match insertTool c rows with
    | none => (rows, .done (.refused ("Tool '" ++ c.name ++ "' already exists for this organisation")))
    | some rows => (rows, .done (.tool c.id))
  | .update u =>
    match toolOf rows u.toolId u.orgId with
    | none => (rows, .done .notFound)
    | some _ =>
      match checkUpdate wide u with
      | .error message => (rows, .done (.refused message))
      | .ok () => (rows, if u.sets then .write u else .done (.tool u.toolId))
  | .write u =>
    match toolOf rows u.toolId u.orgId, u.isActive with
    | none, _ => (rows, .done .notFound)
    | some _, none => (rows, .done (.tool u.toolId))
    | some r, some value =>
      match writeActive r value rows with
      | none => (rows, .done .raised)
      | some rows => (rows, .done (.tool u.toolId))
  | .delete toolId orgId =>
    match (toolOf rows toolId orgId).filter ToolRow.isActive with
    | none => (rows, .done (.deleted false))
    | some r => (setActive r.id false rows, .done (.deleted true))
  | .deactivate toolId => (setActive toolId false rows, .done (.deleted true))
  | .done o => (rows, .done o)

/-- a call comes in at its first statement -/
def Task.isFresh : Task → Bool
  | .create _ | .update _ | .delete _ _ | .deactivate _ => true
  | _ => false

def step (wide : Char → List Char) (max : ℤ) (s : St) : Op → St
  | .call t => if t.isFresh then { s with tasks := s.tasks ++ [t] } else s
  | .advance i =>
    match s.tasks[i]? with
    | none => s
    | some t => ⟨(advance wide max s.rows t).1, s.tasks.set i (advance wide max s.rows t).2⟩

/-! ## The quota -/

def WithinQuota (max : ℤ) (s : St) : Prop := ∀ orgId, (active s.rows orgId : ℤ) ≤ max

/-- the org in which a statement turns a tool active -/
def activates (rows : Rows) : Task → Option String
  | .insert c => if (insertTool c rows).isSome then some c.orgId else none
  | .write u =>
    match toolOf rows u.toolId u.orgId, u.isActive with
    | some r, some true => if r.isActive = false ∧ (writeActive r true rows).isSome then some r.orgId else none
    | _, _ => none
  | .create _ | .update _ | .delete _ _ | .deactivate _ | .done _ => none

/-- a statement that turns a tool active finds fewer than `max` active tools of its org -/
def FindsRoom (max : ℤ) (s : St) : Op → Prop
  | .call _ => True
  | .advance i => ∀ t, s.tasks[i]? = some t → ∀ orgId, activates s.rows t = some orgId → (active s.rows orgId : ℤ) < max

variable {rows : Rows} {id : String} (wide : Char → List Char)

theorem active_insert {rows' : Rows} {c : CreateArgs} (h : insertTool c rows = some rows') (orgId : String) :
    active rows' orgId = active rows orgId + if c.orgId = orgId then 1 else 0 := by
  unfold insertTool at h
  split_ifs at h with hname
  rw [active, (Table.insert?_eq_some h).2, List.countP_append, List.countP_singleton]
  by_cases horg : c.orgId = orgId <;> simp [active, CreateArgs.row, horg]

theorem active_set {r : ToolRow} (h : rows.get? id = some r) (value : Bool) (orgId : String) :
    active (setActive id value rows) orgId + (if r.orgId = orgId ∧ r.isActive = true then 1 else 0) =
      active rows orgId + if r.orgId = orgId ∧ value = true then 1 else 0 := by
  have hrow : active (setActive id value rows) orgId = rows.rows.countP
      (fun x => (if x.id = id then { x with isActive := value } else x).orgId = orgId &&
        (if x.id = id then { x with isActive := value } else x).isActive) := by
    rw [active, setActive, Table.update, List.countP_map]
    rfl
  have hchange := Table.countP_change h (p := fun x => x.orgId = orgId && x.isActive)
    (q := fun x => (if x.id = id then { x with isActive := value } else x).orgId = orgId &&
      (if x.id = id then { x with isActive := value } else x).isActive) (fun x _ hx => by simp [hx])
  have hid : r.id = id := Table.key_of_get? h
  rw [hrow]
  simpa [active, hid] using hchange

theorem setActive_none (h : rows.get? id = none) (value : Bool) (orgId : String) :
    active (setActive id value rows) orgId = active rows orgId := by
  rw [Table.get?_eq_none_iff] at h
  rw [active, setActive, Table.update, List.countP_map]
  apply List.countP_congr
  intro x hx
  have hne : ¬ x.id = id := fun heq => h (heq ▸ List.mem_map_of_mem hx)
  simp [hne]

theorem toolOf_some {orgId : String} {r : ToolRow} (h : toolOf rows id orgId = some r) :
    rows.get? id = some r ∧ r.id = id ∧ r.orgId = orgId := by
  obtain ⟨hget, horg⟩ := Option.filter_eq_some_iff.1 h
  exact ⟨hget, Table.key_of_get? hget, of_decide_eq_true horg⟩

theorem active_off (rows : Rows) (id orgId : String) : active (setActive id false rows) orgId ≤ active rows orgId := by
  cases hget : rows.get? id with
  | none => exact (setActive_none hget false orgId).le
  | some r =>
    have hset := active_set hget false orgId
    simp only [Bool.false_eq_true, and_false, if_false, add_zero] at hset
    omega

/-- what a statement does to an org: one more active tool where it activates one, and otherwise none -/
theorem step_active (max : ℤ) (rows : Rows) (t : Task) (orgId : String) :
    if activates rows t = some orgId then active (advance wide max rows t).1 orgId = active rows orgId + 1
    else active (advance wide max rows t).1 orgId ≤ active rows orgId := by
  cases t with
  | create c =>
    rw [activates, if_neg nofun, advance]
    split_ifs
    · exact le_refl _
    · split <;> exact le_refl _
  | insert c =>
    rw [activates, advance]
    cases hinsert : insertTool c rows with
    | none => simp
    | some rows' =>
      have hactive := active_insert hinsert orgId
      simp only [Option.isSome_some, if_true, Option.some.injEq]
      split_ifs at hactive ⊢ <;> omega
  | update u =>
    rw [activates, if_neg nofun, advance]
    split
    · exact le_refl _
    · split <;> exact le_refl _
  | write u =>
    rw [activates, advance]
    cases htool : toolOf rows u.toolId u.orgId with
    | none => simp
    | some r =>
      obtain ⟨hget, hid, -⟩ := toolOf_some htool
      cases hvalue : u.isActive with
      | none => simp
      | some value =>
        dsimp only
        cases hwrite : writeActive r value rows with
        | none =>
          cases value with
          | false => simp
          | true => simp [hwrite]
        | some rows' =>
          have hrows : rows' = setActive r.id value rows := by
            unfold writeActive at hwrite
            split_ifs at hwrite
            exact (Option.some.inj hwrite).symm
          have hset := active_set (hid ▸ hget) value orgId
          subst hrows
          cases value with
          | false => simpa using active_off rows r.id orgId
          | true =>
            cases hactive : r.isActive with
            | true => simp [hactive] at hset ⊢; omega
            | false =>
              split_ifs at hset ⊢ with horg <;> simp_all
  | delete toolId ownerId =>
    rw [activates, if_neg nofun, advance]
    split
    · exact le_refl _
    · exact active_off rows _ orgId
  | deactivate toolId => exact active_off rows toolId orgId
  | done o => exact le_refl _

theorem step_quota_iff (max : ℤ) (s : St) (op : Op) (h : WithinQuota max s) :
    WithinQuota max (step wide max s op) ↔ FindsRoom max s op := by
  cases op with
  | call t =>
    refine iff_of_true ?_ trivial
    rw [step]
    split_ifs <;> exact h
  | advance i =>
    rw [step, FindsRoom]
    cases htask : s.tasks[i]? with
    | none => exact iff_of_true h (fun t ht => nomatch ht)
    | some t =>
      constructor
      · intro hquota t' ht' orgId hactivates
        cases ht'
        have hactive := step_active wide max s.rows t orgId
        rw [if_pos hactivates] at hactive
        have hle : (active (advance wide max s.rows t).1 orgId : ℤ) ≤ max := hquota orgId
        omega
      · intro hroom orgId
        have hactive := step_active wide max s.rows t orgId
        have hle := h orgId
        by_cases hactivates : activates s.rows t = some orgId
        · rw [if_pos hactivates] at hactive
          have hlt := hroom t rfl orgId hactivates
          show (active (advance wide max s.rows t).1 orgId : ℤ) ≤ max
          omega
        · rw [if_neg hactivates] at hactive
          show (active (advance wide max s.rows t).1 orgId : ℤ) ≤ max
          omega

/-- a tool is created at a limit of one, deleted, replaced, and turned on again -/
def reenable : List Op :=
  [.call (.create { id := "t1", orgId := "acme", name := "parse" }), .advance 0, .advance 0,
    .call (.delete "t1" "acme"), .advance 1,
    .call (.create { id := "t2", orgId := "acme", name := "search" }), .advance 2, .advance 2,
    .call (.update { toolId := "t1", orgId := "acme", isActive := some true }), .advance 3, .advance 3]

/-- two clients create at once -/
def createTwice : List Op :=
  [.call (.create { id := "t1", orgId := "acme", name := "parse" }),
    .call (.create { id := "t2", orgId := "acme", name := "search" }), .advance 0, .advance 1, .advance 0, .advance 1]

end Teardrop.OrgTools
