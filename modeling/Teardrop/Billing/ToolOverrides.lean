/-
The tool price overrides and their cache (`billing/pricing.py`): `get_tool_pricing_overrides` reads the table through a
`TTLCache`, `upsert_tool_pricing_override` and `delete_tool_pricing_override` write a row and invalidate the cache.

`tool_pricing_overrides` is a dict from tool names to rows. The loader makes a Python dict of names and costs of it,
which Redis keeps as JSON. The pool is there.
-/
import Teardrop.Core.Dict
import Teardrop.Core.JsonCanonical
import Teardrop.Service.Invalidation

namespace Teardrop.Billing.ToolOverrides

open PyJson TtlCache
export TtlCache (Op Fresh run step)

/-! ## The table -/

/-- a row besides its name; `cost_usdc` is a `BIGINT`, `CHECK (cost_usdc >= 0)` -/
structure Override where
  costUsdc : Fin (2 ^ 63)
  description : String

/-- `tool_pricing_overrides`, by `tool_name` -/
abbrev Overrides := Dict String Override

inductive Change where
  | upsert (toolName : String) (costUsdc : Fin (2 ^ 63)) (description : String)
  | delete (toolName : String)

def Change.apply : Change → Overrides → Overrides
  | .upsert toolName costUsdc description, rows => rows.set toolName ⟨costUsdc, description⟩
  | .delete toolName, rows => rows.erase toolName

/-- `delete_tool_pricing_override` says whether a row was deleted -/
def Change.answer : Change → Overrides → Option Bool
  | .upsert _ _ _, _ => none
  | .delete toolName, rows => some (rows.get? toolName).isSome

/-! ## The cache -/

/-- `get_current_tool_overrides` -/
def loadToolOverrides (rows : Overrides) : PyJson :=
  .obj (rows.entries.map (fun row => (PyStr.ofString row.1, .int (row.2.costUsdc.val : ℤ))))

/-- `_tool_overrides_cache_obj`; `levels` is the recursion the interpreter has left behind the first level -/
def toolOverridesCache (shared : Bool) (ttl : ℤ) (levels : ℕ) : Cache Overrides PyJson Change (Option Bool) where
  shared := shared
  ttl := ttl
  load := loadToolOverrides
  serialize := fun v => (dumps ⟨true, false⟩ (levels + 1) v).toOption
  deserialize := fun raw => (loads (levels + 1) raw).toOption
  apply := Change.apply
  answer := Change.answer

theorem fields_plain (rows : List (String × Override)) :
    WfFields (rows.map (fun row => (PyStr.ofString row.1, PyJson.int (row.2.costUsdc.val : ℤ)))) ∧
      hasSurrogateFields (rows.map (fun row => (PyStr.ofString row.1, PyJson.int (row.2.costUsdc.val : ℤ)))) = false ∧
      depthFields (rows.map (fun row => (PyStr.ofString row.1, PyJson.int (row.2.costUsdc.val : ℤ)))) = 0 := by
  induction rows with
  | nil => exact ⟨trivial, rfl, rfl⟩
  | cons row rows ih =>
    obtain ⟨hwf, hscalar, hdepth⟩ := ih
    refine ⟨⟨?_, hwf⟩, ?_, ?_⟩
    · have hcost : row.2.costUsdc.val < 10 ^ maxIntDigits :=
        lt_of_lt_of_le row.2.costUsdc.isLt (le_trans (by norm_num : 2 ^ 63 ≤ 10 ^ 19) (Nat.pow_le_pow_right (by norm_num) (by decide)))
      simpa [Wf] using hcost
    · simp only [List.map_cons, hasSurrogateFields, hasSurrogate, surrogates_ofString, Bool.false_or]
      exact hscalar
    · simp [depthFields, depth, hdepth]

theorem load_wf (rows : Overrides) : Wf (loadToolOverrides rows) ∧ hasSurrogate (loadToolOverrides rows) = false := by
  obtain ⟨hwf, hscalar, -⟩ := fields_plain rows.entries
  refine ⟨⟨?_, hwf⟩, hscalar⟩
  have hnames : (rows.entries.map Prod.fst).map PyStr.ofString =
      (rows.entries.map (fun row => (PyStr.ofString row.1, PyJson.int (row.2.costUsdc.val : ℤ)))).map Prod.fst := by
    rw [List.map_map, List.map_map]
    rfl
  rw [← hnames]
  exact rows.nodup.map (fun _ _ h => PyStr.ofString_inj h)

theorem cache_lawful (shared : Bool) (ttl : ℤ) (levels : ℕ) : (toolOverridesCache shared ttl levels).Lawful := by
  intro rows
  obtain ⟨hwf, hscalar⟩ := load_wf rows
  have hdepth : depth (loadToolOverrides rows) = 1 := by
    rw [loadToolOverrides, depth, (fields_plain rows.entries).2.2]
  have hwritten : dumps ⟨true, false⟩ (levels + 1) (loadToolOverrides rows) =
      .ok (render ⟨true, false⟩ (loadToolOverrides rows)) := by
    rw [dumps, if_neg (by omega), if_neg (by simp [intsFit_of_wf _ hwf])]
  refine ⟨render ⟨true, false⟩ (loadToolOverrides rows), ?_, ?_⟩
  · show (dumps ⟨true, false⟩ (levels + 1) (loadToolOverrides rows)).toOption = _
    rw [hwritten]
    rfl
  · show (loads (levels + 1) _).toOption = _
    rw [loads_dumps_scalar hwf hscalar hwritten]
    rfl

/-! ## Invalidation -/

def sampleRows : Overrides := ⟨[("web_search", ⟨15000, "Tavily search API"⟩)], by decide⟩

/-- one process without Redis: a `get` has read the table when the price changes, and stores what it read -/
def lateStore : List (Op Change) :=
  [.get 0, .next 0, .next 0, .change 0 (.upsert "web_search" 20000 ""), .next 1, .next 1, .next 0, .get 0]

/-- two processes: the second one has the price in its own tier when the first one changes it -/
def otherProcess : List (Op Change) :=
  [.get 1, .next 0, .next 0, .next 0, .next 0, .next 0, .next 0, .next 0,
   .change 0 (.delete "web_search"), .next 1, .next 1, .next 1, .next 1, .get 1, .next 2, .next 2]

end Teardrop.Billing.ToolOverrides
