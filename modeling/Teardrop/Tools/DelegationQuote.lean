/-
`delegate_to_agent` before its pre-debit: the checks that refuse a delegation, the price it is held at, and the payment
it may sign. `check_delegation_budget` compares the estimate, fee included, with the global cap once more.
-/
import Teardrop.Billing.Preflight
import Teardrop.Tools.DelegateToAgent

namespace Teardrop.Tools

open Teardrop.Py
open Teardrop.Billing

/-! ## The checks -/

/-- what is read of an allowlist row -/
structure AgentRule where
  maxCostUsdc : ℤ
  requireX402 : Bool

/-- what is read of a remote agent's card -/
structure AgentCard where
  name : String
  pricePerTaskUsdc : Option ℤ

/-- `_drop_unusable_price`: a price out of range counts as none -/
def dropUnusablePrice (value : Option ℤ) : Option ℤ := value.filter (fun p => 0 < p ∧ p ≤ 100000000)

/-- the settings `delegate_to_agent` reads -/
structure DelegateSettings extends DelegationSettings where
  a2aDelegationEnabled : Bool
  a2aDelegationRequireAllowlist : Bool

/-- the org context of the run -/
structure RunContext where
  orgId : String
  dbPool : Bool
  principalId : String

/-- what the surroundings decide before the pre-debit -/
structure Lookups where
  /-- `async_validate_url` -/
  ssrfError : Option String
  /-- `check_delegation_allowed` -/
  allowlist : Call (Bool × Option AgentRule)
  /-- `discover_agent_card`, or the text of its exception -/
  card : Except String AgentCard
  budget : Env

/-- an early answer: the result, and its `error_type` if it has one -/
structure Refusal where
  result : DelegateResult
  errorType : Option String := none
deriving DecidableEq

/-- a refusal that names no agent -/
def refuse (error : String) : Refusal := { result := ⟨"unknown", "failed", "", some error, 0⟩ }

/-- what a delegation may cost: held with the fee, signed without it -/
structure Quote where
  estimatedCost : ℤ
  signingCap : ℤ
deriving DecidableEq

/-- a delegation that passed every check -/
structure Prepared extends Quote where
  agentName : String
  billed : Bool
  useX402 : Bool

/-- the cap without the fee: the rule's own overrides the global one -/
def delegationCap (cfg : DelegationSettings) (rule : Option AgentRule) : ℤ :=
  match rule with
  | some r => if 0 < r.maxCostUsdc then r.maxCostUsdc else cfg.a2aDelegationMaxCostUsdc
  | none => cfg.a2aDelegationMaxCostUsdc

/-- the price the delegation is held at, without the fee: the advertised one, else the cap -/
def basePrice (cfg : DelegationSettings) (rule : Option AgentRule) (advertised : Option ℤ) : ℤ :=
  advertised.getD (delegationCap cfg rule)

/-- the quote of a billed delegation; a price above the cap is refused -/
def quote (cfg : DelegationSettings) (rule : Option AgentRule) (card : AgentCard) : Except Refusal Quote :=
  let cap := delegationCap cfg rule
  match card.pricePerTaskUsdc with
  | none => .ok ⟨applyPlatformFee cfg.a2aDelegationPlatformFeeBps cap, cap⟩
  | some price =>
    if cap < price then
      .error
        { result := ⟨card.name, "failed", "",
            some ("Remote agent advertised price (" ++ toString price ++ " atomic USDC) exceeds the delegation cap (" ++
              toString cap ++ " atomic USDC); choose a lower-priced agent or increase the allowlist cap."), 0⟩
          errorType := some "advertised_price_exceeds_cap" }
    else .ok ⟨applyPlatformFee cfg.a2aDelegationPlatformFeeBps price, price⟩

/-- the text of a refusal by the allowlist -/
def notAllowedError (agentUrl : String) (rule : Option AgentRule) : String :=
  if rule.isSome then
    "Agent " ++ agentUrl ++ " is no longer listed in the marketplace registry, so its self-serve allowlist entry is inactive."
  else "Agent " ++ agentUrl ++ " is not in your organisation's allowed agents list. Add it via POST /a2a/agents first."

/-- `check_delegation_allowed`, consulted where there is an org and a pool -/
def consultAllowlist (cfg : DelegateSettings) (ctx : RunContext) (l : Lookups) (agentUrl : String) :
    Except Refusal (Bool × Option AgentRule) :=
  if ctx.orgId ≠ "" ∧ ctx.dbPool then
    match l.allowlist with
    | .error _ => .error (refuse "Unable to verify the delegation allowlist. Try again later.")
    | .ok (allowed, rule) =>
      if ¬ allowed ∧ cfg.a2aDelegationRequireAllowlist then .error (refuse (notAllowedError agentUrl rule))
      else .ok (allowed, rule)
  else .ok (false, none)

/-- the budget check of a quoted delegation; `check_delegation_budget` may raise -/
def checkBudget (cfg : DelegationSettings) (ctx : RunContext) (l : Lookups) (q : Quote) (db : Db) :
    Call (Except Refusal Quote) := do
  match ← checkDelegationBudget cfg l.budget ctx.orgId q.estimatedCost
      (if ctx.principalId = "" then none else some ctx.principalId) db with
  | some error => return .error (refuse error)
  | none => return .ok q

/-- `delegate_to_agent` up to its pre-debit -/
def prepare (cfg : DelegateSettings) (ctx : RunContext) (l : Lookups) (agentUrl : String) (db : Db) :
    Call (Except Refusal Prepared) :=
  if ¬ cfg.a2aDelegationEnabled then
    .ok (.error (refuse "A2A delegation is not enabled. Set A2A_DELEGATION_ENABLED=true."))
  else match l.ssrfError with
    | some error => .ok (.error (refuse ("Blocked URL: " ++ error)))
    | none =>
      if cfg.a2aDelegationRequireAllowlist ∧ ¬ (ctx.orgId ≠ "" ∧ ctx.dbPool) then
        .ok (.error (refuse "Delegation requires authenticated organisation context and an allowlist entry."))
      else match consultAllowlist cfg ctx l agentUrl with
        | .error r => .ok (.error r)
        | .ok (allowed, rule) =>
          let billed : Bool := cfg.a2aDelegationBillingEnabled && decide (ctx.orgId ≠ "") && ctx.dbPool
          if billed && !allowed then .ok (.error (refuse (notAllowedError agentUrl rule)))
          else match l.card with
            | .error text =>
              .ok (.error (refuse ("Could not discover agent card at " ++ agentUrl ++ ": " ++ text)))
            | .ok card =>
              if ¬ billed then
                .ok (.ok ⟨⟨cfg.a2aDelegationMaxCostUsdc, cfg.a2aDelegationMaxCostUsdc⟩, card.name, false, false⟩)
              else match quote cfg.toDelegationSettings rule card with
                | .error r => .ok (.error r)
                | .ok q => do
                  match ← checkBudget cfg.toDelegationSettings ctx l q db with
                  | .error r => return .error r
                  | .ok q => return .ok ⟨q, card.name, true, (rule.map AgentRule.requireX402).getD false⟩

/-! ## The budget -/

/-- an account that covers `cost`, is not paused and carries no limit -/
structure Ample (org : String) (principal : Option String) (cost : ℤ) (db : Db) : Prop where
  account : ∃ c, db.credits.get? org = some c ∧ cost ≤ c.balanceUsdc ∧ c.isPaused = false ∧ c.spendingLimitUsdc ≤ 0
  unlimited : ∀ p, principal = some p → db.principalLimits.get? (org, p) = none

theorem quote_ok {cfg : DelegationSettings} {rule : Option AgentRule} {card : AgentCard}
    (hprice : ∀ p, card.pricePerTaskUsdc = some p → p ≤ delegationCap cfg rule) :
    quote cfg rule card = .ok ⟨applyPlatformFee cfg.a2aDelegationPlatformFeeBps (basePrice cfg rule card.pricePerTaskUsdc),
      basePrice cfg rule card.pricePerTaskUsdc⟩ := by
  unfold quote basePrice
  cases hp : card.pricePerTaskUsdc with
  | none => rfl
  | some p =>
    have hle := hprice p hp
    simp [if_neg (not_lt.2 hle)]

theorem fetch_ok {α : Type} {e : Env} (hcalls : ∀ i, e.fault i = false) (i : ℕ) (a : α) : fetch e i a = .ok a := by
  unfold fetch
  rw [hcalls i]
  rfl

theorem checkDelegationBudget_ample {cfg : DelegationSettings} {e : Env} {org : String} {cost : ℤ}
    {principal : Option String} {db : Db} (henabled : cfg.a2aDelegationBillingEnabled = true)
    (hcalls : ∀ i, e.fault i = false) (h : Ample org principal cost db) :
    checkDelegationBudget cfg e org cost principal db = .ok none ↔ cost ≤ cfg.a2aDelegationMaxCostUsdc := by
  obtain ⟨c, hc, hcovers, hpaused, hlimit⟩ := h.account
  have horg : orgBudgetError e org c.spendingLimitUsdc cost db = .ok none := by
    unfold orgBudgetError
    rw [if_pos hlimit]
    rfl
  have hprincipal : principalBudgetError e org cost principal db = .ok none := by
    unfold principalBudgetError
    cases hp : givenPrincipal principal with
    | none => rfl
    | some p =>
      have hnone := h.unlimited p (Option.eq_some_of_filter_eq_some hp)
      simp only [fetch_ok hcalls, hnone]
      rfl
  unfold checkDelegationBudget
  rw [if_neg (not_not.2 henabled)]
  by_cases hcap : cfg.a2aDelegationMaxCostUsdc < cost
  · rw [if_pos hcap]
    refine iff_of_false ?_ (not_le.2 hcap)
    intro h
    cases h
  · rw [if_neg hcap]
    refine iff_of_true ?_ (not_lt.1 hcap)
    simp only [fetch_ok hcalls, hc]
    show (if c.isPaused = true then _ else _) = _
    rw [if_neg (by rw [hpaused]; decide)]
    show (if c.balanceUsdc < cost then _ else _) = _
    rw [if_neg (not_lt.2 hcovers)]
    show (orgBudgetError e org c.spendingLimitUsdc cost db >>= _) = _
    rw [horg]
    exact hprincipal

/-- **Priced within its cap is not admitted.** For an org with ample credit and no limits, a delegation priced within its
cap passes the budget check if and only if the price (or the cap, for want of one) and the platform fee fit the global
cap. -/
theorem budget_admits_iff (cfg : DelegationSettings) (e : Env) (org : String) (principal : Option String)
    (rule : Option AgentRule) (card : AgentCard) (db : Db) (henabled : cfg.a2aDelegationBillingEnabled = true)
    (hcalls : ∀ i, e.fault i = false)
    (hprice : ∀ p, card.pricePerTaskUsdc = some p → p ≤ delegationCap cfg rule)
    (hample : Ample org principal
      (applyPlatformFee cfg.a2aDelegationPlatformFeeBps (basePrice cfg rule card.pricePerTaskUsdc)) db) :
    (∃ q, quote cfg rule card = .ok q ∧ checkDelegationBudget cfg e org q.estimatedCost principal db = .ok none) ↔
      applyPlatformFee cfg.a2aDelegationPlatformFeeBps (basePrice cfg rule card.pricePerTaskUsdc) ≤
        cfg.a2aDelegationMaxCostUsdc := by
  rw [quote_ok hprice]
  constructor
  · rintro ⟨q, hq, hcheck⟩
    cases hq
    exact (checkDelegationBudget_ample henabled hcalls hample).1 hcheck
  · intro hfits
    exact ⟨_, rfl, (checkDelegationBudget_ample henabled hcalls hample).2 hfits⟩

/-- an org with 1 USDC of credit -/
def ampleDb : Db :=
  { Db.empty with
    orgs := ⟨[⟨"o", "mail"⟩], by decide⟩
    credits := ⟨[⟨"o", 1000000, 0, false⟩], by decide⟩ }

theorem ampleDb_ample {cost : ℤ} (h : cost ≤ 1000000) : Ample "o" none cost ampleDb where
  account := ⟨⟨"o", 1000000, 0, false⟩, rfl, h, rfl, le_refl 0⟩
  unlimited := by
    intro p hp
    cases hp

/-- the shipped fee and cap -/
def shippedSettings : DelegationSettings := ⟨true, 100000, 500⟩

theorem budget_admits_iff_priced :
    (∃ q, quote shippedSettings none ⟨"a", some 90000⟩ = .ok q ∧
      checkDelegationBudget shippedSettings (Env.calm 0 "l") "o" q.estimatedCost none ampleDb = .ok none) ↔
    applyPlatformFee 500 90000 ≤ 100000 :=
  budget_admits_iff shippedSettings (Env.calm 0 "l") "o" none none ⟨"a", some 90000⟩ ampleDb rfl (fun _ => rfl)
    (fun p hp => by cases hp; decide) (ampleDb_ample (by decide))

/-- **The default price is refused.** Under the shipped settings an agent without an advertised price is held at the
global cap, and the fee on it puts every such delegation over that cap. -/
theorem default_price_refused :
    quote shippedSettings none ⟨"a", none⟩ = .ok ⟨105000, 100000⟩ ∧ Ample "o" none 105000 ampleDb ∧
    checkDelegationBudget shippedSettings (Env.calm 0 "l") "o" 105000 none ampleDb =
      .ok (some "Estimated delegation cost (105000 atomic USDC) exceeds global cap (100000).") :=
  ⟨by decide, ampleDb_ample (by decide), rfl⟩

end Teardrop.Tools
