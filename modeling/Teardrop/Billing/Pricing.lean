/-
What a run is charged: `billing/pricing.py`, the orchestration fee of `billing/delegation.py` and `calculate_run_cost` of
`teardrop/agent_post_run.py`.

The prices are fixed: each lookup is a function. Pricing may raise (`Failure`); the run is then charged by the fallback. What
`upstream_turn_cost_usdc` makes of a cost that is not negative, in decimal arithmetic, is a function too.
-/
import Mathlib

namespace Teardrop.Billing

/-! ## Prices -/

structure PricingRule where
  id : String
  runPriceUsdc : ℤ
  tokensInCostPer1k : ℤ
  tokensOutCostPer1k : ℤ
  toolCallCost : ℤ
deriving DecidableEq

/-- a model call of a run -/
structure Turn where
  provider : String
  model : String
  tokensIn : ℤ
  tokensOut : ℤ
  cacheCreationTokens : ℤ
  /-- the cost in USD that the gateway reported, if it is a number -/
  upstreamCostUsd : Option ℚ := none

/-- the usage of a run -/
structure Usage where
  tokensIn : ℤ
  tokensOut : ℤ
  cacheCreationTokens : ℤ
  billableToolCalls : ℤ
  billableToolNames : List String
  turns : List Turn

/-- the prices, as the caches give them, and the settings about them -/
structure Prices where
  live : Option PricingRule
  forModel : String → String → Option PricingRule
  byokForModel : String → String → Option PricingRule
  overrides : String → Option ℤ
  /-- of a published tool, by the slug of its org and its name; a tool without a price of its own has none -/
  orgTool : String → String → Option ℤ
  platformTool : String → Option ℤ
  marketplaceEnabled : Bool
  openrouterActualCostBillingEnabled : Bool
  /-- a cost in USD with its markup and fee, in atomic USDC, rounded up -/
  upstreamCost : ℚ → ℤ
  byokTierPricingEnabled : Bool
  byokPlatformFeeUsdc : ℤ

/-- `name.split("/", 1)`, of a name with a slash -/
def qualified (name : String) : Option (String × String) :=
  if '/' ∈ name.toList then
    some (String.ofList (name.toList.takeWhile (· ≠ '/')), String.ofList ((name.toList.dropWhile (· ≠ '/')).drop 1))
  else none

def getLivePricingForModel (p : Prices) (provider model : String) (isByok : Bool) : Option PricingRule :=
  if provider = "" ∧ model = "" then p.live
  else if isByok then p.byokForModel provider model
  else p.forModel provider model

/-- `get_org_tool_price_by_qualified_name` -/
def getOrgToolPrice (p : Prices) (name : String) : Option ℤ :=
  match qualified name with
  | none => none
  | some (slug, tool) => if slug = "" ∨ tool = "" ∨ slug = "platform" then none else p.orgTool slug tool

/-! ## Tool calls -/

def resolveToolCost (p : Prices) (name : String) (default : ℤ) : ℤ :=
  match p.overrides name with
  | some cost => cost
  | none =>
    match qualified name with
    | some (_, bare) =>
      match p.overrides bare with
      | some cost => cost
      | none => if p.marketplaceEnabled then (getOrgToolPrice p name).getD default else default
    | none =>
      if ['_', '_'] <:+: name.toList then 0
      else if p.marketplaceEnabled then (p.platformTool name).getD 0
      else default

def defaultToolCost (p : Prices) : ℤ := (p.live.map PricingRule.toolCallCost).getD 0

/-- the price of one call -/
def callPrice (p : Prices) (name : String) : ℤ := resolveToolCost p name (defaultToolCost p)

/-- `calculate_tool_cost_usdc` -/
def calculateToolCost (p : Prices) (calls : ℤ) (names : List String) : ℤ :=
  if calls ≤ 0 ∧ names = [] then 0
  else if names = [] then calls * defaultToolCost p
  else (names.map (callPrice p)).sum + max 0 (calls - names.length) * defaultToolCost p

/-! ## Tokens -/

def isFlatRate (rule : PricingRule) : Bool :=
  rule.tokensInCostPer1k ≤ 0 && rule.tokensOutCostPer1k ≤ 0 && rule.toolCallCost ≤ 0

/-- `-(-n // d)` -/
def ceilDiv (n d : ℤ) : ℤ := -(-n / d)

/-- `per_unit_token_cost`: rounded up once -/
def perUnitTokenCost (rule : PricingRule) (tokensIn tokensOut cacheCreationTokens : ℤ) : ℤ :=
  ceilDiv (4 * (tokensIn * rule.tokensInCostPer1k + tokensOut * rule.tokensOutCostPer1k) +
    max 0 cacheCreationTokens * rule.tokensInCostPer1k) 4000

/-- `flat_prices[rule.id] = rule.run_price_usdc` -/
def setFlatPrice (rule : PricingRule) : List (String × ℤ) → List (String × ℤ)
  | [] => [(rule.id, rule.runPriceUsdc)]
  | (id, price) :: flat =>
    if id = rule.id then (id, rule.runPriceUsdc) :: flat else (id, price) :: setFlatPrice rule flat

/-- `upstream_turn_cost_usdc` -/
def upstreamTurnCost (p : Prices) (turn : Turn) : Option ℤ :=
  match turn.upstreamCostUsd with
  | none => none
  | some cost =>
    if p.openrouterActualCostBillingEnabled ∧ turn.provider = "openrouter" ∧ 0 ≤ cost then some (p.upstreamCost cost)
    else none

/-- one turn: the per-unit cost so far and the flat prices so far -/
def addTurn (p : Prices) (acc : ℤ × List (String × ℤ)) (turn : Turn) : ℤ × List (String × ℤ) :=
  match upstreamTurnCost p turn with
  | some cost => (acc.1 + cost, acc.2)
  | none =>
    match getLivePricingForModel p turn.provider turn.model false with
    | none => acc
    | some rule =>
      if isFlatRate rule then (acc.1, setFlatPrice rule acc.2)
      else (acc.1 + perUnitTokenCost rule turn.tokensIn turn.tokensOut turn.cacheCreationTokens, acc.2)

/-- `calculate_turns_token_cost_usdc` -/
def calculateTurnsTokenCost (p : Prices) (turns : List Turn) : ℤ :=
  let total := turns.foldl (addTurn p) (0, [])
  total.1 + (total.2.map Prod.snd).sum

/-- the tokens of a run, priced by one rule -/
def ruleTokenCost (rule : Option PricingRule) (u : Usage) : ℤ :=
  match rule with
  | none => 0
  | some rule =>
    if isFlatRate rule then rule.runPriceUsdc else perUnitTokenCost rule u.tokensIn u.tokensOut u.cacheCreationTokens

/-- the rule of `calculate_run_cost_usdc` -/
def runRule (p : Prices) (provider model : String) : Option PricingRule :=
  if provider ≠ "" ∧ model ≠ "" then getLivePricingForModel p provider model false else p.live

def calculateRunCostUsdc (p : Prices) (u : Usage) (provider model : String) : ℤ :=
  ruleTokenCost (runRule p provider model) u + calculateToolCost p u.billableToolCalls u.billableToolNames

def calculateByokOrchestrationCost (p : Prices) (tokensIn tokensOut : ℤ) (provider model : String) : ℤ :=
  match getLivePricingForModel p provider model true with
  | none => p.byokPlatformFeeUsdc
  | some rule =>
    max (ceilDiv (tokensIn * rule.tokensInCostPer1k + tokensOut * rule.tokensOutCostPer1k) 1000) p.byokPlatformFeeUsdc

/-! ## The charge of a run -/

/-- who pays the model's provider, and the provider and model that bill the tokens (`run_provider_model`) -/
structure RunTerms where
  isByok : Bool
  byokProvider : String
  byokModel : String
  platformFee : ℤ
  provider : String
  model : String

/-- where pricing a run raises: nowhere, at first, or in the fallback too -/
inductive Failure where
  | none
  | first
  | both

/-- `priced_turns`: a turn without a provider or model has the run's -/
def pricedTurn (t : RunTerms) (turn : Turn) : Turn :=
  { turn with provider := if turn.provider = "" then t.provider else turn.provider,
              model := if turn.model = "" then t.model else turn.model }

/-- what a run is charged for its tokens, or for their orchestration -/
def tokenCharge (p : Prices) (t : RunTerms) (u : Usage) : ℤ :=
  if t.isByok then
    if p.byokTierPricingEnabled then calculateByokOrchestrationCost p u.tokensIn u.tokensOut t.byokProvider t.byokModel
    else t.platformFee
  else if u.turns ≠ [] then calculateTurnsTokenCost p (u.turns.map (pricedTurn t))
  else ruleTokenCost (runRule p t.provider t.model) u

def calculateRunCost (p : Prices) (t : RunTerms) (u : Usage) : Failure → ℤ
  | .none =>
    if t.isByok then tokenCharge p t u + calculateToolCost p u.billableToolCalls u.billableToolNames
    else if u.turns ≠ [] then
      calculateTurnsTokenCost p (u.turns.map (pricedTurn t)) + calculateToolCost p u.billableToolCalls u.billableToolNames
    else calculateRunCostUsdc p u t.provider t.model
  | .first => if t.isByok then t.platformFee else calculateRunCostUsdc p u "" ""
  | .both => if t.isByok then t.platformFee else 0

/-! ## Calls within a run -/

theorem calculateToolCost_one (p : Prices) (name : String) : calculateToolCost p 1 [name] = callPrice p name := by
  simp [calculateToolCost]

theorem calculateToolCost_named (p : Prices) (calls : ℤ) (names : List String) :
    calculateToolCost p calls names =
      (names.map (callPrice p)).sum + max 0 (calls - names.length) * defaultToolCost p := by
  unfold calculateToolCost
  match names with
  | [] =>
    rcases le_or_gt calls 0 with h | h
    · simp [h]
    · simp [h, h.le]
  | name :: names => simp

theorem runCost_none (p : Prices) (t : RunTerms) (u : Usage) :
    calculateRunCost p t u .none = tokenCharge p t u + calculateToolCost p u.billableToolCalls u.billableToolNames := by
  unfold calculateRunCost tokenCharge
  split_ifs <;> rfl

theorem runCost_first (p : Prices) {t : RunTerms} (u : Usage) (h : t.isByok = false) : calculateRunCost p t u .first =
      ruleTokenCost p.live u + calculateToolCost p u.billableToolCalls u.billableToolNames := by
  rw [calculateRunCost, h]
  rfl

end Teardrop.Billing
