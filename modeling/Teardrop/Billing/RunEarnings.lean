/-
What a run, or a call of the MCP gateway, collects from its caller and what it earns the authors of marketplace tools: the
allocations and their recording of `teardrop/agent_runtime.py`, `dispatch_settlement` of `teardrop/agent_post_run.py`,
`settle_payment` of `billing/x402.py`, and `_settle_billing` of `teardrop/mcp_gateway.py`.

`Answers` is what the database and the facilitator say on the way.
-/
import Teardrop.Billing.Pricing
import Teardrop.Billing.Settlement

namespace Teardrop.Billing

open List

/-! ## Answers -/

/-- what the database and the facilitator answer -/
structure Answers where
  /-- the lookup of the tool of the `k`-th name, or of its price, raises -/
  lookupFails : ℕ → Bool
  /-- a debit goes through -/
  debited : Bool
  /-- a debit that did not is retried, and goes through -/
  retried : Bool
  /-- the facilitator settles in time -/
  settled : Bool
  /-- the table takes the row of the `k`-th allocation, if it passes the checks -/
  recorded : ℕ → Bool
  /-- the ids the rows get -/
  id : ℕ → String

/-- `debit_credit`: whether it succeeds, and what it deducts -/
def debitAnswer (debited : Bool) (amount : ℤ) : Bool × ℤ :=
  if amount ≤ 0 then (true, 0) else if debited then (true, amount) else (false, 0)

/-- the types and checks of `tool_author_earnings` pass the amounts -/
def fits (row : EarningRow) : Bool :=
  decide ((isBigint row.amountUsdc ∧ isBigint row.authorShareUsdc ∧ isBigint row.platformShareUsdc) ∧
    0 ≤ row.amountUsdc ∧ 0 ≤ row.authorShareUsdc ∧ 0 ≤ row.platformShareUsdc)

/-- `record_tool_call_earnings` for each allocation, or the retry worker's inserts -/
def recordedEarnings (cfg : Settings) (ans : Answers) : ℕ → List Allocation → List EarningRow
  | _, [] => []
  | k, a :: rest =>
    if ans.recorded k = true ∧ unpaid a = false ∧ fits (earningRow cfg (ans.id k) a) = true then
      earningRow cfg (ans.id k) a :: recordedEarnings cfg ans (k + 1) rest
    else recordedEarnings cfg ans (k + 1) rest

/-! ## A run -/

inductive PaymentScheme where
  | exact
  | upto
deriving DecidableEq

/-- how a run is paid for: not at all, from credit, or by a payment its caller signed -/
inductive RunBilling where
  | unverified
  | credit
  | x402 (scheme : PaymentScheme) (amount : ℕ)

structure AgentRun where
  usage : Usage
  terms : RunTerms
  failure : Failure
  billing : RunBilling
  callerOrg : String
  isPromotionalCredit : Bool
  /-- the names of `mp_by_name` -/
  marketplaceNames : List String
  /-- the author of a published tool, by the slug of its org and its name -/
  published : String → String → Option String

/-- the settings of the x402 rail: the scheme offered, and the ceiling of `upto` -/
structure X402Terms where
  scheme : PaymentScheme
  uptoMaxAmount : ℕ

/-- `get_marketplace_tool_by_name`, the author it finds -/
def marketplaceAuthor (published : String → String → Option String) (slug tool : String) : Option String :=
  if slug = "platform" then none else published slug tool

/-- `_compute_marketplace_earnings_allocations`, the loop: it stops where a lookup raises -/
def allocate (p : Prices) (r : AgentRun) (lookupFails : ℕ → Bool) : ℕ → List String → List Allocation
  | _, [] => []
  | k, name :: names =>
    match qualified name with
    | some (slug, bare) =>
      if name ∈ r.marketplaceNames then
        if lookupFails k then []
        else match marketplaceAuthor r.published slug bare with
          | some author =>
            let cost := calculateToolCost p 1 [name]
            if author ≠ "" ∧ 0 < cost ∧ author ≠ r.callerOrg then
              ⟨author, bare, r.callerOrg, cost⟩ :: allocate p r lookupFails (k + 1) names
            else allocate p r lookupFails (k + 1) names
          | none => allocate p r lookupFails (k + 1) names
      else allocate p r lookupFails (k + 1) names
    | none => allocate p r lookupFails (k + 1) names

/-- `_compute_marketplace_earnings_allocations` -/
def computeAllocations (p : Prices) (r : AgentRun) (ans : Answers) : List Allocation :=
  if r.isPromotionalCredit then [] else allocate p r ans.lookupFails 0 r.usage.billableToolNames

/-- the clamp of `dispatch_settlement` to the ceiling -/
def clampToCeiling (x : X402Terms) (cost : ℤ) : ℤ :=
  if x.scheme = .upto ∧ 0 < x.uptoMaxAmount ∧ (x.uptoMaxAmount : ℤ) < cost then x.uptoMaxAmount else cost

/-- `settle_payment`: what a payment that is settled collects -/
def settlePayment (scheme : PaymentScheme) (amount : ℕ) (cost : ℤ) : ℤ :=
  match scheme with
  | .upto => max 0 cost
  | .exact => amount

/-- what a run did: the rows it recorded, and what was collected for it -/
structure Finished where
  earnings : List EarningRow
  collected : ℤ
deriving DecidableEq

/-- `dispatch_settlement`, and the recording of the earnings once it reports a charge, or once a retry has collected it -/
def finishRun (cfg : Settings) (x : X402Terms) (p : Prices) (ans : Answers) (r : AgentRun) : Finished :=
  let allocations := computeAllocations p r ans
  let cost := calculateRunCost p r.terms r.usage r.failure
  match r.billing with
  | .unverified => ⟨[], 0⟩
  | .credit =>
    let (success, deducted) := debitAnswer ans.debited cost
    if success then ⟨if r.isPromotionalCredit then [] else recordedEarnings cfg ans 0 allocations, deducted⟩
    else if ans.retried then ⟨recordedEarnings cfg ans 0 allocations, cost⟩
    else ⟨[], 0⟩
  | .x402 scheme amount =>
    if ans.settled then
      ⟨if r.isPromotionalCredit then [] else recordedEarnings cfg ans 0 allocations,
        settlePayment scheme amount (clampToCeiling x cost)⟩
    else ⟨[], 0⟩

/-! ## A call of the MCP gateway -/

inductive McpRail where
  | credit
  | x402 (scheme : PaymentScheme) (amount : ℕ)
  | mpp

structure McpCall where
  toolName : String
  orgId : String
  rail : McpRail
  /-- the billing gate and the rails' own checks let the call pass -/
  isAdmitted : Bool
  executionFailed : Bool
  published : String → String → Option String

def isCommunityTool (name : String) : Bool := '/' ∈ name.toList && !decide ("platform/".toList <+: name.toList)

/-- `_mcp_earnings_allocations` -/
def mcpAllocations (published : String → String → Option String) (lookupFails : Bool) (toolName : String) (toolCost : ℤ)
    (orgId : String) : List Allocation :=
  match qualified toolName with
  | none => []
  | some (slug, tool) =>
    if toolCost ≤ 0 ∨ lookupFails then []
    else match marketplaceAuthor published slug tool with
      | some author => if author = "" ∨ author = orgId then [] else [⟨author, tool, orgId, toolCost⟩]
      | none => []

/-- the cost the billing gate gives a call: an exact payment settles in full -/
def gateCost (p : Prices) (c : McpCall) : ℤ :=
  match c.rail with
  | .x402 .exact amount => if 0 < amount then amount else callPrice p c.toolName
  | _ => callPrice p c.toolName

/-- `_settle_billing`, after the gate; a payer without an org may call no community tool -/
def settleBilling (cfg : Settings) (p : Prices) (ans : Answers) (c : McpCall) : Finished :=
  let cost := gateCost p c
  match c.rail with
  | .credit =>
    if c.executionFailed then ⟨[], 0⟩
    else
      let (success, deducted) := debitAnswer ans.debited cost
      let allocations := mcpAllocations c.published (ans.lookupFails 0) c.toolName cost c.orgId
      if success then ⟨recordedEarnings cfg ans 0 allocations, deducted⟩
      else if ans.retried then ⟨recordedEarnings cfg ans 0 allocations, cost⟩
      else ⟨[], 0⟩
  | .x402 scheme amount =>
    if isCommunityTool c.toolName ∨ c.executionFailed ∨ ans.settled = false then ⟨[], 0⟩
    else
      ⟨recordedEarnings cfg ans 0 (mcpAllocations c.published (ans.lookupFails 0) c.toolName cost ""),
        settlePayment scheme amount cost⟩
  | .mpp =>
    if isCommunityTool c.toolName ∨ cost ≤ 0 then ⟨[], 0⟩
    else if c.executionFailed then ⟨[], cost⟩
    else ⟨recordedEarnings cfg ans 0 (mcpAllocations c.published (ans.lookupFails 0) c.toolName cost ""), cost⟩

/-- a call, if it is let pass -/
def finishCall (cfg : Settings) (p : Prices) (ans : Answers) (c : McpCall) : Finished :=
  if c.isAdmitted then settleBilling cfg p ans c else ⟨[], 0⟩

/-! ## What authors are credited for -/

/-- the table would take a row of this amount -/
def fitsPrice (cfg : Settings) (cost : ℤ) : Bool := fits (earningRow cfg "" ⟨"", "", "", cost⟩)

/-- a call of this name earns an author something: it is that of another org's published tool, at a price -/
def isCredited (cfg : Settings) (p : Prices) (r : AgentRun) (name : String) : Bool :=
  match qualified name with
  | none => false
  | some (slug, bare) =>
    match marketplaceAuthor r.published slug bare with
    | none => false
    | some author =>
      decide (name ∈ r.marketplaceNames) && decide (author ≠ "" ∧ 0 < callPrice p name ∧ author ≠ r.callerOrg) &&
        fitsPrice cfg (callPrice p name)

/-- the prices of the calls that earn an author something -/
def creditedPrice (cfg : Settings) (p : Prices) (r : AgentRun) : ℤ :=
  ((r.usage.billableToolNames.filter (isCredited cfg p r)).map (callPrice p)).sum

/-- the prices of the other calls -/
def otherCalls (cfg : Settings) (p : Prices) (r : AgentRun) : ℤ :=
  ((r.usage.billableToolNames.filter (fun name => !isCredited cfg p r name)).map (callPrice p)).sum +
    max 0 (r.usage.billableToolCalls - r.usage.billableToolNames.length) * defaultToolCost p

/-- the charge covers the credited calls: nothing else in it is negative; or pricing failed, and the fallback covers them -/
def ChargeCovers (cfg : Settings) (p : Prices) (r : AgentRun) : Prop :=
  match r.failure with
  | .none => creditedPrice cfg p r = 0 ∨ 0 ≤ tokenCharge p r.terms r.usage + otherCalls cfg p r
  | .first =>
    if r.terms.isByok then creditedPrice cfg p r ≤ max 0 r.terms.platformFee
    else creditedPrice cfg p r = 0 ∨ 0 ≤ ruleTokenCost p.live r.usage + otherCalls cfg p r
  | .both => if r.terms.isByok then creditedPrice cfg p r ≤ max 0 r.terms.platformFee else creditedPrice cfg p r = 0

/-- what is collected covers the credited calls: the charge does, and, on the x402 rail, the ceiling or the signed amount -/
def Covered (cfg : Settings) (x : X402Terms) (p : Prices) (r : AgentRun) : Prop :=
  match r.billing with
  | .unverified => True
  | .credit => r.isPromotionalCredit = true ∨ ChargeCovers cfg p r
  | .x402 .upto _ => r.isPromotionalCredit = true ∨ ChargeCovers cfg p r ∧
      (x.scheme = .upto → 0 < x.uptoMaxAmount → creditedPrice cfg p r ≤ x.uptoMaxAmount)
  | .x402 .exact amount => r.isPromotionalCredit = true ∨ creditedPrice cfg p r ≤ amount

/-- authors are credited no more than was collected, and the shares of each row are its amount -/
structure Finished.Within (o : Finished) : Prop where
  sum : (o.earnings.map EarningRow.amountUsdc).sum ≤ o.collected
  shares : ∀ row ∈ o.earnings, 0 ≤ row.authorShareUsdc ∧ 0 ≤ row.platformShareUsdc ∧
    row.authorShareUsdc + row.platformShareUsdc = row.amountUsdc

/-! ## The credited calls -/

variable {name : String} (cfg : Settings) (p : Prices) (r : AgentRun) (ans : Answers) (lookupFails : ℕ → Bool)
  {collected : ℤ}

/-- what `isCredited` says of a name -/
theorem isCredited_iff {cfg : Settings} {p : Prices} {r : AgentRun} :
    isCredited cfg p r name = true ↔ ∃ slug bare author, qualified name = some (slug, bare) ∧ name ∈ r.marketplaceNames ∧
      marketplaceAuthor r.published slug bare = some author ∧
      (author ≠ "" ∧ 0 < callPrice p name ∧ author ≠ r.callerOrg) ∧ fitsPrice cfg (callPrice p name) = true := by
  unfold isCredited
  cases hq : qualified name with
  | none => simp
  | some parts =>
    obtain ⟨slug, bare⟩ := parts
    cases ha : marketplaceAuthor r.published slug bare with
    | none => simp [ha]
    | some author => simp [ha, and_assoc]

theorem isCredited_pos {cfg : Settings} {p : Prices} {r : AgentRun} (h : isCredited cfg p r name = true) :
    0 < callPrice p name := by
  obtain ⟨_, _, _, _, _, _, ⟨_, hpos, _⟩, _⟩ := isCredited_iff.1 h
  exact hpos

theorem creditedSum_nonneg (names : List String) : 0 ≤ ((names.filter (isCredited cfg p r)).map (callPrice p)).sum := by
  apply sum_nonneg
  intro price hprice
  obtain ⟨name, hname, rfl⟩ := mem_map.mp hprice
  exact (isCredited_pos (mem_filter.mp hname).2).le

theorem creditedPrice_nonneg : 0 ≤ creditedPrice cfg p r :=
  creditedSum_nonneg cfg p r r.usage.billableToolNames

theorem calculateToolCost_credited :
    calculateToolCost p r.usage.billableToolCalls r.usage.billableToolNames = creditedPrice cfg p r + otherCalls cfg p r := by
  have hsplit := sum_map_filter_add_sum_map_filter_not (fun name => isCredited cfg p r name = true) (callPrice p)
    r.usage.billableToolNames
  simp only [Bool.decide_eq_true, decide_not] at hsplit
  rw [calculateToolCost_named, creditedPrice, otherCalls, ← add_assoc, hsplit]

theorem chargeCovers_iff :
    ChargeCovers cfg p r ↔ creditedPrice cfg p r ≤ max 0 (calculateRunCost p r.terms r.usage r.failure) := by
  have hnonneg := creditedPrice_nonneg cfg p r
  have hcost := calculateToolCost_credited cfg p r
  unfold ChargeCovers
  cases hfail : r.failure with
  | none =>
    rw [runCost_none, hcost]
    omega
  | first =>
    rcases Bool.eq_false_or_eq_true r.terms.isByok with hbyok | hbyok
    · simp [hbyok, calculateRunCost]
    · rw [runCost_first p r.usage hbyok, hcost]
      simp only [hbyok, Bool.false_eq_true, if_false, le_max_iff]
      omega
  | both =>
    rcases Bool.eq_false_or_eq_true r.terms.isByok with hbyok | hbyok
    · simp only [hbyok, if_true, calculateRunCost]
    · simp only [hbyok, Bool.false_eq_true, if_false, calculateRunCost, max_self]
      omega

/-! ## The rows of a list of allocations -/

/-- the amounts of the allocations that the table would take -/
def allocated (cfg : Settings) (allocations : List Allocation) : ℤ :=
  ((allocations.filter (fun a => fitsPrice cfg a.totalCostUsdc)).map Allocation.totalCostUsdc).sum

theorem allocated_nil : allocated cfg [] = 0 := rfl

theorem allocated_cons (a : Allocation) (rest : List Allocation) :
    allocated cfg (a :: rest) = (if fitsPrice cfg a.totalCostUsdc then a.totalCostUsdc else 0) + allocated cfg rest := by
  unfold allocated
  rw [filter_cons]
  split_ifs <;> simp

theorem fits_earningRow (id : String) (a : Allocation) : fits (earningRow cfg id a) = fitsPrice cfg a.totalCostUsdc := rfl

variable {a : Allocation} (k : ℕ) (allocations : List Allocation) (published : String → String → Option String) (c : McpCall)

theorem unpaid_false : unpaid a = false ↔ a.authorOrgId ≠ a.callerOrgId ∧ 0 < a.totalCostUsdc := by
  simp [unpaid]

theorem fits_shares {cfg : Settings} {id : String} (h : fits (earningRow cfg id a) = true) : let row := earningRow cfg id a
    0 ≤ row.authorShareUsdc ∧ 0 ≤ row.platformShareUsdc ∧ row.authorShareUsdc + row.platformShareUsdc = row.amountUsdc := by
  obtain ⟨-, -, hauthor, hplatform⟩ := of_decide_eq_true h
  exact ⟨hauthor, hplatform, by simp only [earningRow]; omega⟩

theorem recordedEarnings_shares :
    ∀ row ∈ recordedEarnings cfg ans k allocations, 0 ≤ row.authorShareUsdc ∧ 0 ≤ row.platformShareUsdc ∧
      row.authorShareUsdc + row.platformShareUsdc = row.amountUsdc := by
  induction allocations generalizing k with
  | nil => exact nofun
  | cons a rest ih =>
    intro row hrow
    rw [recordedEarnings] at hrow
    split_ifs at hrow with h
    · rcases mem_cons.mp hrow with rfl | hrow
      · exact fits_shares h.2.2
      · exact ih (k + 1) row hrow
    · exact ih (k + 1) row hrow

theorem recordedEarnings_sum_le (h : ∀ a ∈ allocations, unpaid a = false) :
    ((recordedEarnings cfg ans k allocations).map EarningRow.amountUsdc).sum ≤ allocated cfg allocations := by
  induction allocations generalizing k with
  | nil => exact le_rfl
  | cons a rest ih =>
    have hrest := ih (k + 1) fun b hb => h b (mem_cons_of_mem _ hb)
    have hpaid := (unpaid_false.1 (h a mem_cons_self)).2
    rw [recordedEarnings, allocated_cons]
    split_ifs with htaken hfits hfits
    · exact add_le_add le_rfl hrest
    · exact absurd htaken.2.2 hfits
    · apply le_trans hrest
      omega
    · rw [zero_add]
      exact hrest

theorem recordedEarnings_sum_eq {ans : Answers} (hans : ∀ k, ans.recorded k = true) (k : ℕ) (allocations : List Allocation)
    (h : ∀ a ∈ allocations, unpaid a = false) :
    ((recordedEarnings cfg ans k allocations).map EarningRow.amountUsdc).sum = allocated cfg allocations := by
  induction allocations generalizing k with
  | nil => rfl
  | cons a rest ih =>
    have hrest := ih (k + 1) fun b hb => h b (mem_cons_of_mem _ hb)
    have hpaid := h a mem_cons_self
    rw [recordedEarnings, allocated_cons]
    simp only [hans, hpaid, true_and, fits_earningRow]
    split_ifs with hfits
    · rw [map_cons, sum_cons, hrest]
      rfl
    · rw [zero_add, hrest]

/-! ## The allocations of a run -/

/-- the allocation of one call, when its lookups go through -/
def allocation (p : Prices) (r : AgentRun) (name : String) : Option Allocation :=
  match qualified name with
  | none => none
  | some (slug, bare) =>
    match marketplaceAuthor r.published slug bare with
    | none => none
    | some author =>
      if name ∈ r.marketplaceNames ∧ author ≠ "" ∧ 0 < callPrice p name ∧ author ≠ r.callerOrg then
        some ⟨author, bare, r.callerOrg, callPrice p name⟩
      else none

theorem allocation_some {p : Prices} {r : AgentRun} (h : allocation p r name = some a) :
    unpaid a = false ∧ a.totalCostUsdc = callPrice p name := by
  unfold allocation at h
  split at h
  · exact absurd h nofun
  · split at h
    · exact absurd h nofun
    · split_ifs at h with hpays
      obtain rfl := Option.some.inj h
      exact ⟨unpaid_false.2 ⟨hpays.2.2.2, hpays.2.2.1⟩, rfl⟩

theorem isCredited_eq (name : String) :
    isCredited cfg p r name = (allocation p r name).any (fun a => fitsPrice cfg a.totalCostUsdc) := by
  unfold isCredited allocation
  split
  · rfl
  · split
    · rfl
    · split_ifs with h <;> simp_all

theorem allocate_cons (name : String) (names : List String) : allocate p r lookupFails k (name :: names) =
        (allocation p r name).toList ++ allocate p r lookupFails (k + 1) names ∨
      allocate p r lookupFails k (name :: names) = [] ∧ lookupFails k = true := by
  rcases hq : qualified name with _ | ⟨slug, bare⟩
  · left
    simp [allocate, allocation, hq]
  by_cases hmem : name ∈ r.marketplaceNames
  · rcases Bool.eq_false_or_eq_true (lookupFails k) with hfail | hfail
    · right
      simp [allocate, hq, hmem, hfail]
    · left
      rcases ha : marketplaceAuthor r.published slug bare with _ | author
      · simp [allocate, allocation, hq, hfail, ha]
      · simp only [allocate, allocation, hq, hmem, hfail, ha, calculateToolCost_one, if_true, Bool.false_eq_true, if_false,
          true_and]
        split_ifs <;> rfl
  · left
    rcases ha : marketplaceAuthor r.published slug bare with _ | author <;> simp [allocate, allocation, hq, hmem, ha]

theorem allocate_paid (names : List String) : ∀ a ∈ allocate p r lookupFails k names, unpaid a = false := by
  induction names generalizing k with
  | nil => exact nofun
  | cons name names ih =>
    intro a ha
    rcases allocate_cons p r lookupFails k name names with h | ⟨h, -⟩
    · rw [h] at ha
      rcases mem_append.mp ha with ha | ha
      · exact (allocation_some (Option.mem_toList.mp ha)).1
      · exact ih (k + 1) a ha
    · rw [h] at ha
      exact absurd ha not_mem_nil

theorem allocated_allocation (name : String) (rest : List Allocation) :
    allocated cfg ((allocation p r name).toList ++ rest) =
      (if isCredited cfg p r name then callPrice p name else 0) + allocated cfg rest := by
  rw [isCredited_eq]
  cases h : allocation p r name with
  | none => simp
  | some a => simp [allocated_cons, (allocation_some h).2]

theorem creditedSum_cons (name : String) (names : List String) :
    (((name :: names).filter (isCredited cfg p r)).map (callPrice p)).sum =
      (if isCredited cfg p r name then callPrice p name else 0) + ((names.filter (isCredited cfg p r)).map (callPrice p)).sum := by
  rw [filter_cons]
  split_ifs <;> simp

theorem allocated_allocate_le (names : List String) :
    allocated cfg (allocate p r lookupFails k names) ≤ ((names.filter (isCredited cfg p r)).map (callPrice p)).sum := by
  induction names generalizing k with
  | nil => exact le_rfl
  | cons name names ih =>
    rcases allocate_cons p r lookupFails k name names with h | ⟨h, -⟩
    · rw [h, allocated_allocation, creditedSum_cons]
      exact add_le_add le_rfl (ih (k + 1))
    · rw [h, allocated_nil]
      exact creditedSum_nonneg cfg p r (name :: names)

theorem allocated_allocate_eq (names : List String) : allocated cfg (allocate p r (fun _ => false) k names) =
      ((names.filter (isCredited cfg p r)).map (callPrice p)).sum := by
  induction names generalizing k with
  | nil => rfl
  | cons name names ih =>
    rcases allocate_cons p r (fun _ => false) k name names with h | ⟨-, h⟩
    · rw [h, allocated_allocation, creditedSum_cons, ih (k + 1)]
    · exact absurd h Bool.false_ne_true

/-! ## Runs -/

theorem within_nil (h : 0 ≤ collected) : Finished.Within ⟨[], collected⟩ := ⟨h, nofun⟩

theorem within_recorded {allocations : List Allocation} (hpaid : ∀ a ∈ allocations, unpaid a = false)
    (h : allocated cfg allocations ≤ collected) :
    Finished.Within ⟨recordedEarnings cfg ans 0 allocations, collected⟩ where
  sum := le_trans (recordedEarnings_sum_le cfg ans 0 allocations hpaid) h
  shares := recordedEarnings_shares cfg ans 0 allocations

theorem computeAllocations_paid : ∀ a ∈ computeAllocations p r ans, unpaid a = false := by
  unfold computeAllocations
  split_ifs
  · exact nofun
  · exact allocate_paid p r ans.lookupFails 0 r.usage.billableToolNames

/-- a run's rows come to no more than what covers its credited calls; a promotional run has none -/
theorem recorded_within (hnonneg : 0 ≤ collected) (h : r.isPromotionalCredit = true ∨ creditedPrice cfg p r ≤ collected) :
    Finished.Within ⟨recordedEarnings cfg ans 0 (computeAllocations p r ans), collected⟩ := by
  apply within_recorded cfg ans (computeAllocations_paid p r ans)
  unfold computeAllocations
  split_ifs with hpromo
  · exact hnonneg
  · apply le_trans (allocated_allocate_le cfg p r ans.lookupFails 0 r.usage.billableToolNames)
    exact h.resolve_left hpromo

theorem recorded_within_unless (hnonneg : 0 ≤ collected)
    (h : r.isPromotionalCredit = true ∨ creditedPrice cfg p r ≤ collected) :
    Finished.Within
      ⟨if r.isPromotionalCredit then [] else recordedEarnings cfg ans 0 (computeAllocations p r ans), collected⟩ := by
  split_ifs with hpromo
  · exact within_nil hnonneg
  · exact recorded_within cfg p r ans hnonneg h

theorem debitAnswer_max (cost : ℤ) : (debitAnswer true cost) = (true, max 0 cost) := by
  unfold debitAnswer
  rcases le_or_gt cost 0 with h | h
  · rw [if_pos h, max_eq_left h]
  · rw [if_neg (not_le.mpr h), max_eq_right h.le]
    rfl

/-- a debit goes through and deducts the amount, or does not and deducts nothing; what costs nothing always goes through -/
theorem debitAnswer_cases (debited : Bool) (cost : ℤ) :
    debitAnswer debited cost = (true, max 0 cost) ∨ debitAnswer debited cost = (false, 0) ∧ 0 < cost := by
  rcases le_or_gt cost 0 with h | h
  · left
    rw [debitAnswer, if_pos h, max_eq_left h]
  · cases debited with
    | true => exact .inl (debitAnswer_max cost)
    | false =>
      right
      rw [debitAnswer, if_neg (not_le.mpr h)]
      exact ⟨rfl, h⟩

theorem le_clampToCeiling_iff (x : X402Terms) {price : ℤ} (cost : ℤ) : price ≤ max 0 (clampToCeiling x cost) ↔
      price ≤ max 0 cost ∧ (x.scheme = .upto → 0 < x.uptoMaxAmount → price ≤ x.uptoMaxAmount) := by
  unfold clampToCeiling
  rcases x with ⟨scheme, ceiling⟩
  cases scheme with
  | exact => simp
  | upto =>
    simp only [true_and, le_max_iff, forall_const]
    split_ifs with h <;> omega

theorem settlePayment_nonneg (scheme : PaymentScheme) (amount : ℕ) (cost : ℤ) : 0 ≤ settlePayment scheme amount cost := by
  cases scheme with
  | exact => exact Int.natCast_nonneg amount
  | upto => exact le_max_left 0 cost

/-- a settled payment covers the credited calls exactly if the run is `Covered` -/
theorem settled_covers_iff (x : X402Terms) (p : Prices) {r : AgentRun} {scheme : PaymentScheme} {amount : ℕ}
    (hbilling : r.billing = .x402 scheme amount) :
    Covered cfg x p r ↔ r.isPromotionalCredit = true ∨ creditedPrice cfg p r ≤
      settlePayment scheme amount (clampToCeiling x (calculateRunCost p r.terms r.usage r.failure)) := by
  unfold Covered
  rw [hbilling]
  cases scheme with
  | exact => exact Iff.rfl
  | upto => exact or_congr_right ((and_congr_left' (chargeCovers_iff cfg p r)).trans (le_clampToCeiling_iff x _).symm)

theorem finishRun_within {cfg : Settings} {x : X402Terms} {p : Prices} {r : AgentRun} (h : Covered cfg x p r)
    (ans : Answers) : (finishRun cfg x p ans r).Within := by
  unfold finishRun
  cases hbilling : r.billing with
  | unverified => exact within_nil le_rfl
  | credit =>
    have hcovers : r.isPromotionalCredit = true ∨
        creditedPrice cfg p r ≤ max 0 (calculateRunCost p r.terms r.usage r.failure) := by
      rw [Covered, hbilling] at h
      exact h.imp_right (chargeCovers_iff cfg p r).mp
    rcases debitAnswer_cases ans.debited (calculateRunCost p r.terms r.usage r.failure) with hdebit | ⟨hdebit, hpos⟩
    · simp only [hdebit, if_true]
      exact recorded_within_unless cfg p r ans (le_max_left 0 _) hcovers
    · simp only [hdebit, Bool.false_eq_true, if_false]
      split_ifs
      · rw [max_eq_right hpos.le] at hcovers
        exact recorded_within cfg p r ans hpos.le hcovers
      · exact within_nil le_rfl
  | x402 scheme amount =>
    rcases Bool.eq_false_or_eq_true ans.settled with hsettled | hsettled
    · simp only [hsettled, if_true]
      exact recorded_within_unless cfg p r ans (settlePayment_nonneg scheme amount _)
        ((settled_covers_iff cfg x p hbilling).mp h)
    · simp only [hsettled, Bool.false_eq_true, if_false]
      exact within_nil le_rfl

/-- every lookup, the debit, the settlement and every row go through -/
def Answers.calm : Answers := ⟨fun _ => false, true, true, true, fun _ => true, fun _ => ""⟩

theorem recorded_calm {r : AgentRun} (hpromo : r.isPromotionalCredit = false) :
    ((recordedEarnings cfg .calm 0 (computeAllocations p r .calm)).map EarningRow.amountUsdc).sum = creditedPrice cfg p r := by
  rw [recordedEarnings_sum_eq cfg (fun _ => rfl) 0 _ (computeAllocations_paid p r .calm), computeAllocations, hpromo]
  exact allocated_allocate_eq cfg p r 0 r.usage.billableToolNames

theorem covered_of_within {cfg : Settings} {x : X402Terms} {p : Prices} {r : AgentRun}
    (h : (finishRun cfg x p .calm r).Within) : Covered cfg x p r := by
  rcases Bool.eq_false_or_eq_true r.isPromotionalCredit with hpromo | hpromo
  · unfold Covered
    split
    · trivial
    all_goals exact .inl hpromo
  have hsum := h.sum
  unfold finishRun at hsum
  cases hbilling : r.billing with
  | unverified => simp only [Covered, hbilling]
  | credit =>
    simp only [hbilling, hpromo, Answers.calm, debitAnswer_max, if_true, Bool.false_eq_true, if_false] at hsum
    rw [← Answers.calm, recorded_calm cfg p hpromo] at hsum
    rw [Covered, hbilling]
    exact .inr ((chargeCovers_iff cfg p r).mpr hsum)
  | x402 scheme amount =>
    simp only [hbilling, hpromo, Answers.calm, if_true, Bool.false_eq_true, if_false] at hsum
    rw [← Answers.calm, recorded_calm cfg p hpromo] at hsum
    exact (settled_covers_iff cfg x p hbilling).mpr (.inr hsum)

/-! ## Calls of the MCP gateway -/

theorem mcpAllocations_cases (lookupFails : Bool) (toolName : String) (toolCost : ℤ) (orgId : String) :
    mcpAllocations published lookupFails toolName toolCost orgId = [] ∨
      ∃ author tool, mcpAllocations published lookupFails toolName toolCost orgId = [⟨author, tool, orgId, toolCost⟩] ∧
        author ≠ orgId ∧ 0 < toolCost := by
  unfold mcpAllocations
  rcases qualified toolName with _ | ⟨slug, tool⟩
  · exact .inl rfl
  dsimp only
  split_ifs with hnone
  · exact .inl rfl
  rcases marketplaceAuthor published slug tool with _ | author
  · exact .inl rfl
  dsimp only
  split_ifs with hself
  · exact .inl rfl
  · rw [not_or] at hnone hself
    exact .inr ⟨author, tool, rfl, hself.2, not_le.mp hnone.1⟩

theorem recorded_mcp_within (lookupFails : Bool) {toolCost : ℤ} (orgId : String) (hnonneg : 0 ≤ collected)
    (h : toolCost ≤ collected) :
    Finished.Within
      ⟨recordedEarnings cfg ans 0 (mcpAllocations c.published lookupFails c.toolName toolCost orgId), collected⟩ := by
  rcases mcpAllocations_cases c.published lookupFails c.toolName toolCost orgId with hnil | ⟨author, tool, hone, hself, hpos⟩
  · rw [hnil]
    exact within_nil hnonneg
  · rw [hone]
    apply within_recorded cfg ans
    · intro a ha
      rw [mem_singleton.mp ha]
      exact unpaid_false.2 ⟨hself, hpos⟩
    · rw [allocated_cons, allocated_nil, add_zero]
      split_ifs
      · exact h
      · exact hnonneg

theorem qualified_append {slug tool : List Char} (hslug : ∀ c ∈ slug, c ≠ '/') (h : name.toList = slug ++ '/' :: tool) :
    qualified name = some (String.ofList slug, String.ofList tool) := by
  have hmem : '/' ∈ name.toList := by
    rw [h]
    exact mem_append_right _ mem_cons_self
  have hpass : ∀ c ∈ slug, decide (c ≠ '/') = true := fun c hc => decide_eq_true (hslug c hc)
  rw [qualified, if_pos hmem, h, takeWhile_append_of_pos hpass, dropWhile_append_of_pos hpass]
  simp

theorem mcpAllocations_platform (lookupFails : Bool) {toolName : String} (toolCost : ℤ) (orgId : String)
    (h : isCommunityTool toolName = false) : mcpAllocations published lookupFails toolName toolCost orgId = [] := by
  by_cases hslash : '/' ∈ toolName.toList
  · rw [isCommunityTool, decide_eq_true hslash, Bool.true_and, Bool.not_eq_eq_eq_not, Bool.not_false, decide_eq_true_eq] at h
    obtain ⟨rest, hrest⟩ := h
    have hsplit : toolName.toList = "platform".toList ++ '/' :: rest := by
      rw [← hrest, show "platform/".toList = "platform".toList ++ ['/'] by decide, append_assoc, singleton_append]
    have hq := qualified_append (by simp) hsplit
    rw [mcpAllocations, hq]
    split_ifs <;> rfl
  · rw [mcpAllocations, qualified, if_neg hslash]

theorem settleBilling_within : (settleBilling cfg p ans c).Within := by
  unfold settleBilling
  cases hrail : c.rail with
  | credit =>
    rcases Bool.eq_false_or_eq_true c.executionFailed with hfailed | hfailed
    · simp only [hfailed, if_true]
      exact within_nil le_rfl
    simp only [hfailed, Bool.false_eq_true, if_false]
    rcases debitAnswer_cases ans.debited (gateCost p c) with hdebit | ⟨hdebit, hpos⟩
    · simp only [hdebit, if_true]
      exact recorded_mcp_within cfg ans c (ans.lookupFails 0) c.orgId (le_max_left 0 _) (le_max_right 0 _)
    · simp only [hdebit, Bool.false_eq_true, if_false]
      split_ifs
      · exact recorded_mcp_within cfg ans c (ans.lookupFails 0) c.orgId hpos.le le_rfl
      · exact within_nil le_rfl
  | x402 scheme amount =>
    dsimp only
    split_ifs with hrefused
    · exact within_nil le_rfl
    rw [not_or, Bool.not_eq_true] at hrefused
    rw [mcpAllocations_platform c.published _ _ _ hrefused.1]
    exact within_nil (settlePayment_nonneg scheme amount _)
  | mpp =>
    dsimp only
    split_ifs with hrefused hfailed
    · exact within_nil le_rfl
    · exact within_nil (not_le.mp (not_or.mp hrefused).2).le
    · rw [not_or, Bool.not_eq_true] at hrefused
      rw [mcpAllocations_platform c.published _ _ _ hrefused.1]
      exact within_nil (not_le.mp hrefused.2).le

theorem finishCall_within : (finishCall cfg p ans c).Within := by
  unfold finishCall
  split_ifs
  · exact settleBilling_within cfg p ans c
  · exact within_nil le_rfl

/-! ## Whatever is charged for -/

inductive Charge where
  | run (r : AgentRun)
  | call (c : McpCall)

def Charge.finish (cfg : Settings) (x : X402Terms) (p : Prices) (ans : Answers) : Charge → Finished
  | .run r => finishRun cfg x p ans r
  | .call c => finishCall cfg p ans c

/-- a run is covered; a call always is -/
def Charge.Covered (cfg : Settings) (x : X402Terms) (p : Prices) : Charge → Prop
  | .run r => Billing.Covered cfg x p r
  | .call _ => True

/-- **Authors and callers.** Whatever the database and the facilitator answer, authors are credited no more than was
collected, and each row's shares are its amount, if and only if what is collected covers the calls that earn an author
something. -/
theorem credited_within_collected_iff (cfg : Settings) (x : X402Terms) (p : Prices) (charge : Charge) :
    (∀ ans, (charge.finish cfg x p ans).Within) ↔ charge.Covered cfg x p := by
  cases charge with
  | run r => exact ⟨fun h => covered_of_within (h .calm), finishRun_within⟩
  | call c => exact ⟨fun _ => trivial, fun _ ans => finishCall_within cfg p ans c⟩

/-! ## A payment below the price -/

/-- a call of a tool at a dollar, for a payment of a cent that was signed for the run -/
def flatRun : AgentRun where
  usage := ⟨0, 0, 0, 1, ["acme/parse"], []⟩
  terms := ⟨false, "", "", 0, "", ""⟩
  failure := .none
  billing := .x402 .exact 10000
  callerOrg := "caller"
  isPromotionalCredit := false
  marketplaceNames := ["acme/parse"]
  published := fun slug tool => if slug = "acme" ∧ tool = "parse" then some "author" else none

def flatPrices : Prices where
  live := none
  forModel := fun _ _ => none
  byokForModel := fun _ _ => none
  overrides := fun _ => none
  orgTool := fun slug tool => if slug = "acme" ∧ tool = "parse" then some 1000000 else none
  platformTool := fun _ => none
  marketplaceEnabled := true
  openrouterActualCostBillingEnabled := false
  upstreamCost := fun _ => 0
  byokTierPricingEnabled := false
  byokPlatformFeeUsdc := 0

theorem flatRun_exceeds : Charge.finish .default ⟨.exact, 500000⟩ flatPrices .calm (.run flatRun) =
      ⟨[⟨"", "author", "parse", "caller", 1000000, 700000, 300000⟩], 10000⟩ ∧
    ¬ (Charge.finish .default ⟨.exact, 500000⟩ flatPrices .calm (.run flatRun)).Within := by
  have hrun : Charge.finish .default ⟨.exact, 500000⟩ flatPrices .calm (.run flatRun) =
      ⟨[⟨"", "author", "parse", "caller", 1000000, 700000, 300000⟩], 10000⟩ := by
    decide +kernel
  refine ⟨hrun, fun h => ?_⟩
  exact absurd h.sum (by decide)

end Teardrop.Billing
