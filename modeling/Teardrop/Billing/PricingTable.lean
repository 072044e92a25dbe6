/-
The table `pricing_rules` and the two queries on it (`billing/pricing.py`).

A row is a rule for a provider and a model, either of which may be empty, and for runs on the platform's keys or on keys of
the org (`is_byok`). Of rows that are equal in the order of a query, the database gives the same one as long as the table does
not change; here it is the first. Times are microseconds.
-/
import Mathlib
import Teardrop.Billing.Pricing

namespace Teardrop.Billing

/-- the columns that are read back, as `PricingRule` of `billing/models.py` holds them -/
structure PricingRecord extends PricingRule where
  name : String
  effectiveFrom : ℤ
  createdAt : ℤ
deriving DecidableEq

structure PricingRow extends PricingRecord where
  provider : String
  model : String
  isByok : Bool

structure PricingTable where
  rows : List PricingRow
  ids : (rows.map (fun row => row.id)).Nodup

/-- the first of the rows with the smallest key -/
def firstBy {κ : Type} [LinearOrder κ] (key : PricingRow → κ) (rows : List PricingRow) : Option PricingRecord :=
  (rows.argmin key).map PricingRow.toPricingRecord

def getCurrentPricing (table : PricingTable) (now : ℤ) : Option PricingRecord :=
  firstBy (fun row => -row.effectiveFrom)
    (table.rows.filter (fun row => row.effectiveFrom ≤ now ∧ row.provider = "" ∧ row.model = "" ∧ row.isByok = false))

/-- how a row matches a provider and a model: itself, its provider, or globally -/
def matchRank (provider model : String) (row : PricingRow) : ℕ :=
  if row.provider = provider ∧ row.model = model then 0 else if row.provider = provider ∧ row.model = "" then 1 else 2

/-- `get_current_pricing_for_model`, with its fallback rules -/
def getCurrentPricingForModel (table : PricingTable) (now : ℤ) (provider model : String) (isByok : Bool) :
    Option PricingRecord :=
  firstBy (fun row => toLex (matchRank provider model row, -row.effectiveFrom))
    (table.rows.filter (fun row => row.effectiveFrom ≤ now ∧ row.isByok = isByok ∧
      ((row.provider = provider ∧ row.model = model) ∨ (row.provider = provider ∧ row.model = "") ∨
        (row.provider = "" ∧ row.model = ""))))

/-! ## The queries -/

variable {record : PricingRecord} {table : PricingTable}

theorem firstBy_mem {κ : Type} [LinearOrder κ] {key : PricingRow → κ} {rows : List PricingRow}
    (h : firstBy key rows = some record) : ∃ row ∈ rows, row.toPricingRecord = record := by
  obtain ⟨row, hrow, rfl⟩ := Option.map_eq_some_iff.1 h
  exact ⟨row, List.argmin_mem (Option.mem_def.2 hrow), rfl⟩

theorem currentPricing_mem {now : ℤ} (h : getCurrentPricing table now = some record) :
    ∃ row ∈ table.rows, row.toPricingRecord = record := by
  obtain ⟨row, hrow, heq⟩ := firstBy_mem h
  exact ⟨row, List.mem_of_mem_filter hrow, heq⟩

theorem currentPricingForModel_mem {now : ℤ} {provider model : String} {isByok : Bool}
    (h : getCurrentPricingForModel table now provider model isByok = some record) :
    ∃ row ∈ table.rows, row.toPricingRecord = record := by
  obtain ⟨row, hrow, heq⟩ := firstBy_mem h
  exact ⟨row, List.mem_of_mem_filter hrow, heq⟩

/-- `id` is the primary key -/
theorem PricingTable.eq_of_id (table : PricingTable) {row row' : PricingRow} (hrow : row ∈ table.rows)
    (hrow' : row' ∈ table.rows) (h : row.id = row'.id) : row = row' :=
  List.inj_on_of_nodup_map table.ids hrow hrow' h

end Teardrop.Billing
