/-
The marketplace catalog (`marketplace/catalog.py::get_marketplace_catalog`, `_build_catalog_cursor`,
`GET /marketplace/catalog`): community and platform tools in one list, filtered, in one of five orders, page by page.

The tables do not change while they are walked. They carry their constraints: primary keys, unique slugs without `/`, unique
names among an org's active tools, BIGINT prices and call counts, and reputation scores that a float represents. Names are
compared in the order of the database's collation (`collate`). `Env` is what a call takes from outside: ILIKE and case folding of
the search, the price of a call, and `float()` and `str()` of cursor values the program does not write.
-/
import Mathlib
import Teardrop.Core.DoubleRat
import Teardrop.Core.Keyset
import Teardrop.Core.Table
import Teardrop.Core.Base64
import Teardrop.Core.JsonCanonical

namespace Teardrop.Catalog

open Py PyJson Keyset PyStr

/-! ## Tables -/

/-- a BIGINT -/
structure Bigint where
  val : ℤ
  fits : -2 ^ 63 ≤ val ∧ val < 2 ^ 63

def bigintOf (n : ℤ) : Option Bigint := if h : -2 ^ 63 ≤ n ∧ n < 2 ^ 63 then some ⟨n, h⟩ else none

inductive Category where
  | uncategorised
  | defi
  | search
  | data
  | communication
  | utility
deriving DecidableEq

structure Org where
  id : String
  name : String
  slug : String
  slug_flat : '/' ∉ slug.toList

/-- a row of `org_tools` -/
structure OrgTool where
  id : String
  orgId : String
  name : String
  description : String
  marketplaceDescription : String
  basePriceUsdc : Option Bigint
  category : Category
  tags : List String
  publishAsMcp : Bool
  isActive : Bool

def OrgTool.slot (t : OrgTool) : String × String := (t.orgId, t.name)

/-- a row of `marketplace_platform_tools` -/
structure PlatformTool where
  toolName : String
  displayName : String
  description : String
  marketplaceDescription : String
  basePriceUsdc : Bigint
  category : Category
  tags : List String
  isActive : Bool

/-- a row of `marketplace_tool_call_stats` -/
structure CallStats where
  qualifiedToolName : String
  totalCalls : Bigint
  reputationScore : ℚ
  reputationSampleSize : ℚ
  exact : Double.Exact reputationScore

structure Db where
  orgs : Table Org.id
  slugs : (orgs.rows.map Org.slug).Nodup
  tools : Table OrgTool.id
  names : ((tools.rows.filter OrgTool.isActive).map OrgTool.slot).Nodup
  platform : Table PlatformTool.toolName
  stats : Table CallStats.qualifiedToolName

/-! ## The query -/

inductive CatalogSort where
  | name
  | priceAsc
  | priceDesc
  | popularity
  | reputation

inductive ToolType where
  | community
  | platform
deriving DecidableEq

structure Env where
  /-- `text ILIKE pattern ESCAPE '\'` -/
  ilike : String → String → Bool
  casefold : String → String
  /-- `resolve_tool_cost` of a name -/
  resolveToolCost : String → ℤ
  defaultToolCost : Bigint
  /-- `float(text)` -/
  floatText : PyStr → Option Double
  /-- `str(value)` of a value that is no string -/
  strOther : PyJson → PyStr
  /-- the recursion the interpreter has left behind the first level -/
  levels : ℕ

structure Filters where
  orgSlug : Option String
  category : Option Category
  toolName : Option String
  q : Option String

def platformSlug : String := "platform"

/-- a row of `all_tools` -/
structure CatalogRow where
  toolId : Option String
  name : String
  qualifiedName : String
  displayName : String
  description : String
  marketplaceDescription : String
  basePriceUsdc : Bigint
  authorOrgName : String
  authorOrgSlug : String
  toolType : ToolType
  category : Category
  totalCalls : Bigint
  reputationScore : ℚ
  reputationSampleSize : ℚ
  exact : Double.Exact reputationScore

/-- the search text without the blanks around it, if anything is left -/
def searchText (q : Option String) : Option (List Char) :=
  match q with
  | none => none
  | some q => if PyText.strip q.toList = [] then none else some (PyText.strip q.toList)

/-- `q.replace("\\", "\\\\").replace("%", "\\%").replace("_", "\\_")` between two `%` -/
def searchPattern (q : List Char) : String :=
  String.ofList ('%' :: (q.flatMap (fun c => if c = '\\' ∨ c = '%' ∨ c = '_' then ['\\', c] else [c]) ++ ['%']))

/-- `[term.casefold() for term in q.split() if term][:20]` -/
def tagTerms (env : Env) (q : List Char) : List String :=
  (((q.splitOnP PyText.isSpace).filter (fun term => term ≠ [])).map (fun term => env.casefold (String.ofList term))).take 20

/-- a field is like the pattern, or a tag is among the terms -/
def found (env : Env) (q : List Char) (fields tags : List String) : Bool :=
  fields.any (fun text => env.ilike text (searchPattern q)) || tags.any (fun tag => tag ∈ tagTerms env q)

def includeCommunity (f : Filters) : Bool := f.orgSlug ≠ some platformSlug

def includePlatform (f : Filters) : Bool := f.orgSlug = none || f.orgSlug = some platformSlug

/-- the WHERE clause of the community tools; an empty `org_slug` is no filter -/
def communityWhere (env : Env) (f : Filters) (t : OrgTool) (o : Org) : Bool :=
  t.publishAsMcp && t.isActive && o.slug ≠ platformSlug && f.orgSlug.all (fun slug => slug = "" || o.slug = slug) &&
    f.category.all (fun c => t.category = c) &&
    f.toolName.all (fun n => t.name = n) &&
    (searchText f.q).all (fun q =>
      found env q [t.name, t.description, t.marketplaceDescription, o.name, o.slug] t.tags)

def platformWhere (env : Env) (f : Filters) (p : PlatformTool) : Bool :=
  p.isActive && f.category.all (fun c => p.category = c) && f.toolName.all (fun n => p.toolName = n) &&
    (searchText f.q).all (fun q =>
      found env q [p.toolName, p.displayName, p.description, p.marketplaceDescription, "Teardrop", platformSlug] p.tags)

/-- `slug || '/' || name` -/
def qualify (slug name : String) : String := slug ++ "/" ++ name

def noCalls : Bigint := ⟨0, by decide⟩

theorem exact_zero : Double.Exact 0 := ⟨.finite false ⟨0, by decide⟩, by simp [Double.toRat, Double.units]⟩

/-- the columns of the statistics, zeros where the tool has none -/
def statsOf (db : Db) (qualified : String) : CallStats := (db.stats.get? qualified).getD ⟨qualified, noCalls, 0, 0, exact_zero⟩

def communityRow (env : Env) (db : Db) (t : OrgTool) (o : Org) : CatalogRow where
  toolId := some t.id
  name := t.name
  qualifiedName := qualify o.slug t.name
  displayName := t.name
  description := t.description
  marketplaceDescription := if t.marketplaceDescription = "" then t.description else t.marketplaceDescription
  basePriceUsdc := t.basePriceUsdc.getD env.defaultToolCost
  authorOrgName := o.name
  authorOrgSlug := o.slug
  toolType := .community
  category := t.category
  totalCalls := (statsOf db (qualify o.slug t.name)).totalCalls
  reputationScore := (statsOf db (qualify o.slug t.name)).reputationScore
  reputationSampleSize := (statsOf db (qualify o.slug t.name)).reputationSampleSize
  exact := (statsOf db (qualify o.slug t.name)).exact

def platformRow (db : Db) (p : PlatformTool) : CatalogRow where
  toolId := none
  name := p.toolName
  qualifiedName := qualify platformSlug p.toolName
  displayName := p.displayName
  description := p.description
  marketplaceDescription := if p.marketplaceDescription = "" then p.description else p.marketplaceDescription
  basePriceUsdc := p.basePriceUsdc
  authorOrgName := "Teardrop"
  authorOrgSlug := platformSlug
  toolType := .platform
  category := p.category
  totalCalls := (statsOf db (qualify platformSlug p.toolName)).totalCalls
  reputationScore := (statsOf db (qualify platformSlug p.toolName)).reputationScore
  reputationSampleSize := (statsOf db (qualify platformSlug p.toolName)).reputationSampleSize
  exact := (statsOf db (qualify platformSlug p.toolName)).exact

/-- `org_tools t JOIN orgs o ON o.id = t.org_id` under the WHERE clause -/
def communityRows (env : Env) (db : Db) (f : Filters) : List CatalogRow :=
  db.tools.rows.filterMap (fun t => match db.orgs.get? t.orgId with
    | none => none
    | some o => if communityWhere env f t o then some (communityRow env db t o) else none)

def platformRows (env : Env) (db : Db) (f : Filters) : List CatalogRow :=
  (db.platform.rows.filter (platformWhere env f)).map (platformRow db)

/-- `all_tools`: the UNION ALL of the selects -/
def allTools (env : Env) (db : Db) (f : Filters) : List CatalogRow :=
  (if includeCommunity f then communityRows env db f else []) ++ (if includePlatform f then platformRows env db f else [])

/-! ## Tools and cursors -/

/-- the fields of `MarketplaceTool` that the catalog's order and its cursors come from -/
structure MarketplaceTool where
  name : String
  qualifiedName : String
  displayName : String
  description : String
  marketplaceDescription : String
  costUsdc : ℤ
  authorOrgName : String
  authorOrgSlug : String
  toolType : ToolType
  totalCalls : ℤ
  reputationScore : Option Double
  category : Category
  sortKey : Option PyJson

/-- `sort_key` of a row -/
def sortKeyOf (sort : CatalogSort) (r : CatalogRow) : PyJson :=
  match sort with
  | .priceAsc => .int r.basePriceUsdc.val
  | .priceDesc => .int r.basePriceUsdc.val
  | .popularity => .int r.totalCalls.val
  | .reputation => .float (Double.ofRat r.reputationScore)
  | .name => .str (PyStr.ofString r.qualifiedName)

/-- the tool of a row; its reputation is shown once it is rated -/
def toolOf (env : Env) (sort : CatalogSort) (r : CatalogRow) : MarketplaceTool where
  name := r.name
  qualifiedName := r.qualifiedName
  displayName := if r.displayName = "" then r.name else r.displayName
  description := r.description
  marketplaceDescription := if r.marketplaceDescription = "" then r.description else r.marketplaceDescription
  costUsdc := env.resolveToolCost (if r.toolType = .platform then r.name else r.qualifiedName)
  authorOrgName := r.authorOrgName
  authorOrgSlug := r.authorOrgSlug
  toolType := r.toolType
  totalCalls := r.totalCalls.val
  reputationScore :=
    if 0 < r.reputationScore ∨ 0 < r.reputationSampleSize then some (Double.ofRat r.reputationScore) else none
  category := r.category
  sortKey := some (sortKeyOf sort r)

/-- `data` of `_build_catalog_cursor` -/
def cursorData (tool : MarketplaceTool) (sort : CatalogSort) : PyJson :=
  let key : PyJson := match tool.sortKey with
    | some key => key
    | none =>
      match sort with
      | .priceAsc => .int tool.costUsdc
      | .priceDesc => .int tool.costUsdc
      | .popularity => .int tool.totalCalls
      | .reputation => tool.reputationScore.elim .null .float
      | .name => .str (PyStr.ofString tool.qualifiedName)
  .obj [(PyStr.ofString "sort_key", key), (PyStr.ofString "name", .str (PyStr.ofString tool.qualifiedName))]

/-- `json.dumps(data)` in base64; the text is ASCII and its integers are short -/
def buildCatalogCursor (tool : MarketplaceTool) (sort : CatalogSort) : String :=
  Base64.b64encode ((render ⟨true, false⟩ (cursorData tool sort)).flatMap Utf8.encodeChar)

/-- `json.loads(base64.b64decode(cursor).decode())`; `none` when anything is raised -/
def cursorJson (levels : ℕ) (cursor : String) : Option PyJson :=
  match Base64.b64decode cursor with
  | .error _ => none
  | .ok bytes =>
    match Utf8.decodeUtf8 bytes with
    | none => none
    | some text => if surrogates text then none else (loads (levels + 1) text).toOption

/-- `data.get(key)`; a JSON null is `None` -/
def getField (fields : List (PyStr × PyJson)) (key : String) : Option PyJson :=
  match lookup (PyStr.ofString key) fields with
  | none => none
  | some .null => none
  | some v => some v

/-- `cursor_sort_key` and `cursor_name` -/
def readCursor (levels : ℕ) (cursor : Option String) : Option PyJson × Option PyJson :=
  match cursor with
  | none => (none, none)
  | some text =>
    if text = "" then (none, none)
    else match cursorJson levels text with
      | some (.obj fields) => (getField fields "sort_key", getField fields "name")
      | _ => (none, none)

/-- `int(value)`; `none` is an exception -/
def intOf : PyJson → Option ℤ
  | .int n => some n
  | .bool b => some (if b then 1 else 0)
  | .float (.finite negative k) => some (if negative then -((Double.units k / 2 ^ 1074 : ℕ) : ℤ) else (Double.units k / 2 ^ 1074 : ℕ))
  | .str s => PyText.parseInt 10 (s.map toChar)
  | _ => none

/-- `float(value)` -/
def floatOf (env : Env) : PyJson → Option Double
  | .float x => some x
  | .int n =>
    match Double.round (n < 0) n.natAbs 1 with
    | .inf _ => none
    | x => some x
  | .bool b => some (Double.round false (if b then 1 else 0) 1)
  | .str s => env.floatText s
  | _ => none

/-- `str(value)` -/
def strOf (env : Env) : PyJson → PyStr
  | .str s => s
  | v => env.strOther v

/-! ## Pages -/

/-- a NUMERIC below a float parameter; NaN is above all numbers -/
def numericLess (q : ℚ) : Double → Bool
  | .inf negative => !negative
  | .nan => true
  | x => (x.toRat).any (fun r => q < r)

def numericEq (q : ℚ) (x : Double) : Bool := x.toRat = some q

variable {κ : Type} [LinearOrder κ] (collate : String ↪ κ)

/-- `qualified_name > name` -/
def nameAfter (name : String) (r : CatalogRow) : Bool := collate name < collate r.qualifiedName

/-- the value as a BIGINT parameter -/
def keyParam (v : PyJson) : Option Bigint := (intOf v).bind bigintOf

/-- the five `cursor_clause`s; `none` where a value cannot be converted to its parameter -/
def cursorClause (env : Env) (name : String) (sort : CatalogSort) (key : PyJson) : Option (CatalogRow → Bool) :=
  match sort with
  | .name => some (nameAfter collate name)
  | .priceAsc => (keyParam key).map (fun k r =>
      k.val < r.basePriceUsdc.val || (r.basePriceUsdc.val = k.val && nameAfter collate name r))
  | .priceDesc => (keyParam key).map (fun k r =>
      r.basePriceUsdc.val < k.val || (r.basePriceUsdc.val = k.val && nameAfter collate name r))
  | .popularity => (keyParam key).map (fun k r =>
      r.totalCalls.val < k.val || (r.totalCalls.val = k.val && nameAfter collate name r))
  | .reputation => (floatOf env key).map (fun x r =>
      numericLess r.reputationScore x || (numericEq r.reputationScore x && nameAfter collate name r))

/-- the rows a cursor leaves: all of them unless it has a sort key and a name -/
def cursorRows (env : Env) (sort : CatalogSort) (rows : List CatalogRow) :
    Option PyJson × Option PyJson → List CatalogRow → Prop
  | (some key, some name), left => ∃ text keep, strOf env name = PyStr.ofString text ∧ cursorClause collate env text sort key = some keep ∧
      left = rows.filter keep
  | (none, _), left => left = rows
  | (_, none), left => left = rows

/-- `_CATALOG_SORT_COLUMNS`, a descending column by its negative -/
def sortColumns (sort : CatalogSort) (r : CatalogRow) : ℚ ×ₗ κ :=
  match sort with
  | .name => toLex (0, collate r.qualifiedName)
  | .priceAsc => toLex ((r.basePriceUsdc.val : ℚ), collate r.qualifiedName)
  | .priceDesc => toLex (-(r.basePriceUsdc.val : ℚ), collate r.qualifiedName)
  | .popularity => toLex (-(r.totalCalls.val : ℚ), collate r.qualifiedName)
  | .reputation => toLex (-r.reputationScore, collate r.qualifiedName)

/-- `min(max(1, limit), 200)` -/
def clampLimit (limit : ℤ) : ℕ := (min (max 1 limit) 200).toNat

/-- the rows a call may fetch -/
def fetchRows (env : Env) (db : Db) (f : Filters) (sort : CatalogSort) (limit : ℤ) (cursor : Option String)
    (page : List CatalogRow) : Prop :=
  ∃ left, cursorRows collate env sort (allTools env db f) (readCursor env.levels cursor) left ∧
    Page (sortColumns collate sort) left (clampLimit limit) page

def getMarketplaceCatalog (env : Env) (db : Db) (f : Filters) (sort : CatalogSort) (limit : ℤ) (cursor : Option String)
    (tools : List MarketplaceTool) : Prop :=
  ∃ page, fetchRows collate env db f sort limit cursor page ∧ tools = page.map (toolOf env sort)

/-! ## Qualified names are unique -/

theorem split_slash {s s' n n' : List Char} (hs : '/' ∉ s) (hs' : '/' ∉ s') (h : s ++ '/' :: n = s' ++ '/' :: n') :
    s = s' ∧ n = n' := by
  induction s generalizing s' with
  | nil =>
    cases s' with
    | nil => exact ⟨rfl, (List.cons.inj h).2⟩
    | cons c s' =>
      have hc := (List.cons.inj h).1
      exact absurd (hc ▸ List.mem_cons_self) hs'
  | cons c s ih =>
    cases s' with
    | nil =>
      have hc := (List.cons.inj h).1
      exact absurd (hc ▸ List.mem_cons_self) hs
    | cons d s' =>
      obtain ⟨rfl, htail⟩ := List.cons.inj h
      obtain ⟨rfl, rfl⟩ := ih (fun hm => hs (List.mem_cons_of_mem _ hm)) (fun hm => hs' (List.mem_cons_of_mem _ hm)) htail
      exact ⟨rfl, rfl⟩

theorem qualify_inj {slug slug' name name' : String} (hs : '/' ∉ slug.toList) (hs' : '/' ∉ slug'.toList)
    (h : qualify slug name = qualify slug' name') : slug = slug' ∧ name = name' := by
  have hchars : slug.toList ++ '/' :: name.toList = slug'.toList ++ '/' :: name'.toList := by
    have := congrArg String.toList h
    simpa [qualify] using this
  obtain ⟨hslug, hname⟩ := split_slash hs hs' hchars
  exact ⟨String.toList_inj.1 hslug, String.toList_inj.1 hname⟩

theorem community_mem {env : Env} {db : Db} {f : Filters} {t : OrgTool} {r : CatalogRow}
    (h : (match db.orgs.get? t.orgId with
      | none => none
      | some o => if communityWhere env f t o then some (communityRow env db t o) else none) = some r) :
    ∃ o ∈ db.orgs.rows, o.id = t.orgId ∧ t.isActive ∧ o.slug ≠ platformSlug ∧ r.qualifiedName = qualify o.slug t.name := by
  cases ho : db.orgs.get? t.orgId with
  | none => simp [ho] at h
  | some o =>
    simp only [ho] at h
    split_ifs at h with hwhere
    obtain rfl := Option.some.inj h
    simp only [communityWhere, Bool.and_eq_true, decide_eq_true_eq] at hwhere
    refine ⟨o, Table.mem_of_get? ho, Table.key_of_get? ho, ?_, ?_, rfl⟩
    · tauto
    · tauto

theorem communityRows_names (env : Env) (db : Db) (f : Filters) :
    ((communityRows env db f).map CatalogRow.qualifiedName).Nodup := by
  rw [List.Nodup, List.pairwise_map, communityRows, List.pairwise_filterMap]
  -- two tools at different places are of different orgs or have different names, unless one is not active
  have hslots : db.tools.rows.Pairwise (fun t u => t.isActive → u.isActive → t.slot ≠ u.slot) := by
    have hnames := db.names
    rw [List.Nodup, List.pairwise_map, List.pairwise_filter] at hnames
    exact hnames
  refine hslots.imp ?_
  intro t u hne r hr r' hr' heq
  obtain ⟨o, ho, hid, hactive, -, hname⟩ := community_mem hr
  obtain ⟨o', ho', hid', hactive', -, hname'⟩ := community_mem hr'
  rw [hname, hname'] at heq
  obtain ⟨hslug, htool⟩ := qualify_inj o.slug_flat o'.slug_flat heq
  have horg : o = o' := List.inj_on_of_nodup_map db.slugs ho ho' hslug
  apply hne hactive hactive'
  rw [OrgTool.slot, OrgTool.slot, ← hid, ← hid', horg, htool]

theorem platform_flat : '/' ∉ platformSlug.toList := by decide

theorem platformRows_names (env : Env) (db : Db) (f : Filters) :
    ((platformRows env db f).map CatalogRow.qualifiedName).Nodup := by
  have hnames : (db.platform.rows.filter (platformWhere env f)).Pairwise (fun p q => p.toolName ≠ q.toolName) := by
    have hnodup : ((db.platform.rows.filter (platformWhere env f)).map PlatformTool.toolName).Nodup :=
      db.platform.nodup.sublist (List.filter_sublist.map PlatformTool.toolName)
    rw [List.Nodup, List.pairwise_map] at hnodup
    exact hnodup
  rw [List.Nodup, List.pairwise_map, platformRows, List.pairwise_map]
  refine hnames.imp ?_
  intro p q hne heq
  exact hne (qualify_inj platform_flat platform_flat heq).2

theorem rows_names (env : Env) (db : Db) (f : Filters) : ((allTools env db f).map CatalogRow.qualifiedName).Nodup := by
  rw [allTools, List.map_append]
  refine List.Nodup.append ?_ ?_ ?_
  · split_ifs
    · exact communityRows_names env db f
    · exact List.nodup_nil
  · split_ifs
    · exact platformRows_names env db f
    · exact List.nodup_nil
  · -- no community tool is under the slug of the platform
    intro name hcommunity hplatform
    split_ifs at hcommunity hplatform
    · obtain ⟨r, hr, rfl⟩ := List.mem_map.1 hcommunity
      obtain ⟨r', hr', heq⟩ := List.mem_map.1 hplatform
      obtain ⟨p, -, rfl⟩ := List.mem_map.1 hr'
      obtain ⟨t, -, ht⟩ := List.mem_filterMap.1 hr
      obtain ⟨o, -, -, -, hslug, hname⟩ := community_mem ht
      rw [hname] at heq
      exact hslug (qualify_inj platform_flat o.slug_flat heq).1.symm
    · simp at hplatform
    · simp at hcommunity
    · simp at hcommunity

/-! ## Cursors are read back -/

theorem bigint_short (n : Bigint) : n.val.natAbs < 10 ^ maxIntDigits := by
  have hbits : n.val.natAbs < 10 ^ 19 := by
    have := n.fits
    omega
  exact lt_of_lt_of_le hbits (Nat.pow_le_pow_right (by decide) (by decide))

theorem sortKey_plain (sort : CatalogSort) (r : CatalogRow) :
    Wf (sortKeyOf sort r) ∧ hasSurrogate (sortKeyOf sort r) = false ∧ depth (sortKeyOf sort r) = 0 ∧
      intsFit (sortKeyOf sort r) ∧ surrogates (render ⟨true, false⟩ (sortKeyOf sort r)) = false := by
  have hint : ∀ n : Bigint, Wf (.int n.val) ∧ intsFit (.int n.val) := fun n => by
    rw [Wf, intsFit]
    exact ⟨bigint_short n, decide_eq_true (bigint_short n)⟩
  cases sort with
  | priceAsc | priceDesc =>
    obtain ⟨hwf, hfit⟩ := hint r.basePriceUsdc
    exact ⟨hwf, rfl, rfl, hfit, by simp [sortKeyOf, render, renderInt]⟩
  | popularity =>
    obtain ⟨hwf, hfit⟩ := hint r.totalCalls
    exact ⟨hwf, rfl, rfl, hfit, by simp [sortKeyOf, render, renderInt]⟩
  | reputation => exact ⟨trivial, rfl, rfl, rfl, by simp [sortKeyOf, render, surrogates_renderFloat]⟩
  | name => exact ⟨trivial, surrogates_ofString _, rfl, rfl, by simp [sortKeyOf, render, surrogates_renderAscii]⟩

theorem cursorData_tool (env : Env) (sort : CatalogSort) (r : CatalogRow) : cursorData (toolOf env sort r) sort =
    .obj [(ofString "sort_key", sortKeyOf sort r), (ofString "name", .str (ofString r.qualifiedName))] := rfl

theorem cursorJson_build (env : Env) (sort : CatalogSort) (r : CatalogRow) :
    cursorJson env.levels (buildCatalogCursor (toolOf env sort r) sort) = some (cursorData (toolOf env sort r) sort) := by
  obtain ⟨hwf, hplain, hdepth, hfit, htext⟩ := sortKey_plain sort r
  rw [buildCatalogCursor, cursorData_tool]
  generalize hdata : PyJson.obj [(ofString "sort_key", sortKeyOf sort r),
    (ofString "name", .str (ofString r.qualifiedName))] = data
  have hnone : surrogates (render ⟨true, false⟩ data) = false := by
    simp [← hdata, render, renderFields, surrogates_renderAscii, htext, Style.keySep, Style.itemSep]
  have hencode : Utf8.encodeUtf8 (render ⟨true, false⟩ data) = some ((render ⟨true, false⟩ data).flatMap Utf8.encodeChar) := by
    rw [Utf8.encodeUtf8, if_neg]
    simpa [surrogates] using hnone
  have hdumps : dumps ⟨true, false⟩ (env.levels + 1) data = .ok (render ⟨true, false⟩ data) := by
    rw [dumps, if_neg, if_neg]
    · simp [← hdata, intsFit, intsFitFields, hfit]
    · simp [← hdata, depth, depthFields, hdepth]
  have hkeys : ofString "sort_key" ≠ ofString "name" := by decide
  have hwfData : Wf data := by
    simp [← hdata, Wf, WfFields, hwf, hkeys]
  have hplainData : hasSurrogate data = false := by
    simp [← hdata, hasSurrogate, hasSurrogateFields, hplain]
  have hloads := loads_dumps_scalar hwfData hplainData hdumps
  rw [cursorJson, Base64.b64decode_b64encode]
  simp only [Utf8.decodeUtf8_encodeUtf8 hencode, hnone, hloads]
  rfl

theorem buildCatalogCursor_ne (tool : MarketplaceTool) (sort : CatalogSort) : buildCatalogCursor tool sort ≠ "" := by
  have hbytes : ∃ b bs, (render ⟨true, false⟩ (cursorData tool sort)).flatMap Utf8.encodeChar = b :: bs := by
    exact ⟨0x7b, _, rfl⟩
  obtain ⟨b, bs, hbytes⟩ := hbytes
  rw [buildCatalogCursor, hbytes, Base64.b64encode]
  intro hempty
  have hnil := congrArg String.toList hempty
  rw [String.toList_ofList] at hnil
  rcases bs with _ | ⟨_, _ | _⟩
  · simp [Base64.encodeBytes] at hnil
  · simp [Base64.encodeBytes] at hnil
  · simp [Base64.encodeBytes] at hnil

theorem sortKey_ne_null (sort : CatalogSort) (r : CatalogRow) : sortKeyOf sort r ≠ .null := by
  cases sort <;> simp [sortKeyOf]

theorem readCursor_build (env : Env) (sort : CatalogSort) (r : CatalogRow) :
    readCursor env.levels (some (buildCatalogCursor (toolOf env sort r) sort)) =
      (some (sortKeyOf sort r), some (.str (ofString r.qualifiedName))) := by
  have hkey : getField [(ofString "sort_key", sortKeyOf sort r), (ofString "name", .str (ofString r.qualifiedName))]
      "sort_key" = some (sortKeyOf sort r) := by
    cases hcase : sortKeyOf sort r with
    | null => exact absurd hcase (sortKey_ne_null sort r)
    | _ => rfl
  have hname : getField [(ofString "sort_key", sortKeyOf sort r), (ofString "name", .str (ofString r.qualifiedName))]
      "name" = some (.str (ofString r.qualifiedName)) := by
    rw [getField, lookup, if_neg (by decide), lookup, if_pos rfl]
  rw [readCursor, if_neg (buildCatalogCursor_ne _ sort), cursorJson_build, cursorData_tool]
  simp [hkey, hname]

/-! ## Each order pages by its key -/

section Order

variable {κ : Type} (collate : String ↪ κ)

theorem sortColumns_nodup (env : Env) (db : Db) (f : Filters) (sort : CatalogSort) :
    ((allTools env db f).map (sortColumns collate sort)).Nodup := by
  have hnames := rows_names env db f
  rw [List.Nodup, List.pairwise_map] at hnames ⊢
  refine hnames.imp ?_
  intro a b hne heq
  have hsecond : collate a.qualifiedName = collate b.qualifiedName := by
    cases sort <;> exact (Prod.ext_iff.1 (toLex.injective heq)).2
  exact hne (collate.injective hsecond)

variable [LinearOrder κ]

theorem numeric_of_toRat {q r : ℚ} {x : Double} (hx : x.toRat = some r) :
    numericLess q x = decide (q < r) ∧ numericEq q x = decide (q = r) := by
  constructor
  · cases x with
    | finite negative k => simp [numericLess, hx]
    | inf _ | nan => cases hx
  · simp [numericEq, hx, eq_comm]

theorem keyParam_int (k : Bigint) : keyParam (.int k.val) = some k := by
  rw [keyParam, intOf, Option.bind_some, bigintOf, dif_pos k.fits]

theorem clause_row (env : Env) (sort : CatalogSort) (a : CatalogRow) :
    ∃ keep, cursorClause collate env a.qualifiedName sort (sortKeyOf sort a) = some keep ∧
      ∀ b, keep b = decide (sortColumns collate sort a < sortColumns collate sort b) := by
  cases sort with
  | name =>
    refine ⟨_, rfl, ?_⟩
    simp [nameAfter, sortColumns, Prod.Lex.toLex_lt_toLex]
  | priceAsc | priceDesc | popularity =>
    rw [sortKeyOf, cursorClause, keyParam_int]
    refine ⟨_, rfl, ?_⟩
    simp [nameAfter, sortColumns, Prod.Lex.toLex_lt_toLex, eq_comm]
  | reputation =>
    have hexact := Double.toRat_ofRat a.exact
    refine ⟨_, rfl, ?_⟩
    intro b
    obtain ⟨hless, heq⟩ := numeric_of_toRat (q := b.reputationScore) hexact
    simp [hless, heq, nameAfter, sortColumns, Prod.Lex.toLex_lt_toLex, eq_comm]

theorem cursorRows_row (env : Env) (sort : CatalogSort) (rows left : List CatalogRow) (a : CatalogRow) :
    cursorRows collate env sort rows (some (sortKeyOf sort a), some (.str (ofString a.qualifiedName))) left ↔
      left = after (sortColumns collate sort) a rows := by
  obtain ⟨keep, hclause, hkeep⟩ := clause_row collate env sort a
  have hafter : after (sortColumns collate sort) a rows = rows.filter keep := by
    apply List.filter_congr
    intro b _
    rw [hkeep]
  rw [hafter]
  constructor
  · rintro ⟨text, keep', htext, hclause', rfl⟩
    obtain rfl := ofString_inj htext
    rw [hclause] at hclause'
    obtain rfl := Option.some.inj hclause'
    rfl
  · rintro rfl
    exact ⟨a.qualifiedName, keep, rfl, hclause, rfl⟩

/-- the rows of the pages, each with the cursor of its tool; `goesOn` says after which pages there is a next one -/
def rowPager (env : Env) (db : Db) (f : Filters) (sort : CatalogSort) (limit : ℤ) (goesOn : ℕ → Bool) : Pager CatalogRow String where
  fetch cursor page := fetchRows collate env db f sort limit cursor page
  next page := if goesOn page.length then page.getLast?.map (fun r => buildCatalogCursor (toolOf env sort r) sort) else none

theorem clampLimit_pos (limit : ℤ) : 0 < clampLimit limit := by
  simp only [clampLimit]
  omega

theorem rowPager_pages (env : Env) (db : Db) (f : Filters) (sort : CatalogSort) (limit : ℤ) {goesOn : ℕ → Bool}
    (hfull : goesOn (clampLimit limit)) :
    Pages (rowPager collate env db f sort limit goesOn) (sortColumns collate sort) (allTools env db f) (clampLimit limit)
      (fun r => buildCatalogCursor (toolOf env sort r) sort) := by
  refine Pages.of_last (clampLimit_pos limit) ?_ ?_ goesOn hfull (fun _ => rfl)
  · intro page
    constructor
    · rintro ⟨left, hleft, hpage⟩
      rwa [hleft] at hpage
    · exact fun hpage => ⟨_, rfl, hpage⟩
  · intro a _ page
    have hread := readCursor_build env sort a
    constructor
    · rintro ⟨left, hleft, hpage⟩
      rw [hread] at hleft
      rwa [(cursorRows_row collate env sort _ _ a).1 hleft] at hpage
    · intro hpage
      refine ⟨_, ?_, hpage⟩
      rw [hread]
      exact (cursorRows_row collate env sort _ _ a).2 rfl

/-! ## Completeness -/

/-- the pages of tools, each with the cursor of its last tool -/
def catalogPager (env : Env) (db : Db) (f : Filters) (sort : CatalogSort) (limit : ℤ) (goesOn : ℕ → Bool) :
    Pager MarketplaceTool String where
  fetch cursor page := getMarketplaceCatalog collate env db f sort limit cursor page
  next page := if goesOn page.length then page.getLast?.map (fun t => buildCatalogCursor t sort) else none

/-- `GET /marketplace/catalog`: a next cursor when the page has `limit` tools -/
def endpoint (env : Env) (db : Db) (f : Filters) (sort : CatalogSort) (limit : ℤ) : Pager MarketplaceTool String :=
  catalogPager collate env db f sort limit (fun n => (n : ℤ) = limit)

/-- the tools of the query without LIMIT -/
def unboundedCatalog (env : Env) (db : Db) (f : Filters) (sort : CatalogSort) : List MarketplaceTool :=
  (inOrder (sortColumns collate sort) (allTools env db f)).map (toolOf env sort)

theorem catalogPager_complete (env : Env) (db : Db) (f : Filters) (sort : CatalogSort) (limit : ℤ) {goesOn : ℕ → Bool}
    (hfull : goesOn (clampLimit limit)) :
    Complete (catalogPager collate env db f sort limit goesOn) (unboundedCatalog collate env db f sort) ∧
      ∀ pages, Walk (catalogPager collate env db f sort limit goesOn) none pages none →
        pages.flatten = unboundedCatalog collate env db f sort := by
  have hpages := rowPager_pages collate env db f sort limit hfull
  have hkeys := sortColumns_nodup collate env db f sort
  have hfetch : ∀ c page, (catalogPager collate env db f sort limit goesOn).fetch c page ↔
      ∃ rows, (rowPager collate env db f sort limit goesOn).fetch c rows ∧ page = rows.map (toolOf env sort) :=
    fun c page => Iff.rfl
  have hnext : ∀ rows, (catalogPager collate env db f sort limit goesOn).next (rows.map (toolOf env sort)) =
      (rowPager collate env db f sort limit goesOn).next rows := by
    intro rows
    simp only [catalogPager, rowPager, List.length_map, List.getLast?_map, Option.map_map]
    rfl
  have hsame : ∀ rows, Walk (rowPager collate env db f sort limit goesOn) none rows none →
      rows.flatten = inOrder (sortColumns collate sort) (allTools env db f) := fun rows hwalk =>
    walk_eq hpages hkeys hwalk (inOrder_perm _ _) (inOrder_sorted _ _)
  have hcomplete := (complete_iff hpages).2 (unbroken_of_nodup hkeys)
  constructor
  · have hperm := (inOrder_perm (sortColumns collate sort) (allTools env db f)).map (toolOf env sort)
    obtain ⟨hends, hfinishes, hvisits⟩ := complete_image hfetch hnext hcomplete
    refine ⟨?_, hfinishes, fun pages hwalk => (hvisits pages hwalk).trans hperm.symm⟩
    intro pages e hwalk
    rw [unboundedCatalog, hperm.length_eq]
    exact hends pages e hwalk
  · intro pages hwalk
    obtain ⟨rows, hrows, rfl⟩ := (walk_image hfetch hnext).1 hwalk
    rw [← List.map_flatten, hsame rows hrows]
    rfl

/-- **The catalog pages completely, in each of its orders.** Going on with the cursor of the last tool of each page while
there is one, for any limit; and through the endpoint, for the limits it takes. A walk ends, returns every matching tool
once, and in the order of the unbounded query. -/
theorem catalog_complete (env : Env) (db : Db) (f : Filters) (sort : CatalogSort) (limit : ℤ) :
    (Complete (catalogPager collate env db f sort limit (fun n => 0 < n)) (unboundedCatalog collate env db f sort) ∧
      ∀ pages, Walk (catalogPager collate env db f sort limit (fun n => 0 < n)) none pages none →
        pages.flatten = unboundedCatalog collate env db f sort) ∧
    (1 ≤ limit → limit ≤ 200 → Complete (endpoint collate env db f sort limit) (unboundedCatalog collate env db f sort) ∧
      ∀ pages, Walk (endpoint collate env db f sort limit) none pages none →
        pages.flatten = unboundedCatalog collate env db f sort) := by
  constructor
  · apply catalogPager_complete
    exact decide_eq_true (clampLimit_pos limit)
  · intro hlow hhigh
    apply catalogPager_complete
    apply decide_eq_true
    simp only [clampLimit]
    omega

end Order

/-! ### A catalog -/

def sampleEnv : Env where
  ilike text _ := text = "echo"
  casefold text := text
  resolveToolCost _ := 5
  defaultToolCost := ⟨5, by decide⟩
  floatText _ := none
  strOther _ := []
  levels := 9

def sampleTool (id orgId name : String) (price : Option Bigint) : OrgTool :=
  ⟨id, orgId, name, "", "", price, .data, [], true, true⟩

/-- three tools of one price, two of them by default -/
def sampleDb : Db where
  orgs := ⟨[⟨"org-1", "Acme", "acme", by decide⟩, ⟨"org-2", "Beta", "beta", by decide⟩], by decide⟩
  slugs := by decide
  tools := ⟨[sampleTool "t1" "org-1" "echo" none, sampleTool "t2" "org-2" "echo" none], by decide⟩
  names := by decide
  platform := ⟨[⟨"web_search", "Web search", "", "", ⟨5, by decide⟩, .search, [], true⟩], by decide⟩
  stats := ⟨[], by decide⟩

theorem catalog_complete_sample :
    Complete (endpoint (Function.Embedding.refl String) sampleEnv sampleDb ⟨none, none, none, none⟩ .priceDesc 1)
      (unboundedCatalog (Function.Embedding.refl String) sampleEnv sampleDb ⟨none, none, none, none⟩ .priceDesc) ∧
    (unboundedCatalog (Function.Embedding.refl String) sampleEnv sampleDb ⟨none, none, none, none⟩ .priceDesc).length = 3 := by
  have h := catalog_complete (Function.Embedding.refl String) sampleEnv sampleDb ⟨none, none, none, none⟩ .priceDesc 1
  refine ⟨(h.2 (by decide) (by decide)).1, ?_⟩
  rw [unboundedCatalog, List.length_map, (inOrder_perm _ _).length_eq]
  decide

end Teardrop.Catalog
