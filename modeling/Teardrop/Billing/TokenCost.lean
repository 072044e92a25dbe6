/-
The arithmetic of token prices (`per_unit_token_cost`, `calculate_turns_token_cost_usdc` of `billing/pricing.py`): how the
rounding up of each turn adds up, and what the loop over the turns depends on.
-/
import Teardrop.Billing.FlatRates

namespace Teardrop.Billing

open List

/-! ## Rounding up -/

section Rounding

variable {d : ℤ}

theorem ceilDiv_le_iff (hd : 0 < d) (n m : ℤ) : ceilDiv n d ≤ m ↔ n ≤ m * d := by
  rw [ceilDiv, neg_le, Int.le_ediv_iff_mul_le hd, neg_mul, neg_le_neg_iff]

theorem le_ceilDiv_mul (hd : 0 < d) (n : ℤ) : n ≤ ceilDiv n d * d := (ceilDiv_le_iff hd n _).1 le_rfl

theorem ceilDiv_mul_lt (hd : 0 < d) (n : ℤ) : ceilDiv n d * d < n + d := by
  have hless : ¬ ceilDiv n d ≤ ceilDiv n d - 1 := by omega
  rw [ceilDiv_le_iff hd, sub_one_mul] at hless
  omega

theorem ceilDiv_sum_bounds (hd : 0 < d) (ns : List ℤ) :
    ns.sum ≤ (ns.map (ceilDiv · d)).sum * d ∧ (ns.map (ceilDiv · d)).sum * d ≤ ns.sum + ns.length * (d - 1) := by
  induction ns with
  | nil => simp
  | cons n ns ih =>
    have hle := le_ceilDiv_mul hd n
    have hlt := ceilDiv_mul_lt hd n
    simp only [map_cons, sum_cons, length_cons, Nat.cast_add, Nat.cast_one, add_mul, one_mul]
    constructor
    · exact add_le_add hle ih.1
    · linarith [ih.2]

theorem ceilDiv_sum_le (hd : 0 < d) (ns : List ℤ) : ceilDiv ns.sum d ≤ (ns.map (ceilDiv · d)).sum :=
  (ceilDiv_le_iff hd _ _).2 (ceilDiv_sum_bounds hd ns).1

theorem sum_ceilDiv_le (hd : 0 < d) {ns : List ℤ} (hne : ns ≠ []) :
    (ns.map (ceilDiv · d)).sum ≤ ceilDiv ns.sum d + (ns.length - 1) := by
  have hlen : (1 : ℤ) ≤ ns.length := by exact_mod_cast length_pos_of_ne_nil hne
  have hlt : (ns.map (ceilDiv · d)).sum * d < (ceilDiv ns.sum d + ns.length) * d :=
    calc (ns.map (ceilDiv · d)).sum * d ≤ ns.sum + ns.length * (d - 1) := (ceilDiv_sum_bounds hd ns).2
      _ < ns.sum + ns.length * d := by linarith
      _ ≤ ceilDiv ns.sum d * d + ns.length * d := add_le_add_left (le_ceilDiv_mul hd ns.sum) _
      _ = (ceilDiv ns.sum d + ns.length) * d := (add_mul _ _ _).symm
  have hless := lt_of_mul_lt_mul_right hlt hd.le
  omega

end Rounding

/-! ## One turn -/

/-- the price of some tokens, in parts of 4000: the cache writes cost a quarter of their rate on top -/
def scaledCost (rule : PricingRule) (tokensIn tokensOut cacheCreationTokens : ℤ) : ℤ :=
  4 * (tokensIn * rule.tokensInCostPer1k + tokensOut * rule.tokensOutCostPer1k) +
    cacheCreationTokens * rule.tokensInCostPer1k

variable (rule : PricingRule) (tokensIn tokensOut : ℤ) {p : Prices} {turns : List Turn}

theorem perUnitTokenCost_eq {cacheCreationTokens : ℤ} (h : 0 ≤ cacheCreationTokens) :
    perUnitTokenCost rule tokensIn tokensOut cacheCreationTokens =
      ceilDiv (scaledCost rule tokensIn tokensOut cacheCreationTokens) 4000 := by
  rw [perUnitTokenCost, max_eq_right h, scaledCost]

/-- the exact price of some tokens, in atomic USDC -/
def exactTokenCost (rule : PricingRule) (tokensIn tokensOut cacheCreationTokens : ℤ) : ℚ :=
  (tokensIn * rule.tokensInCostPer1k + tokensOut * rule.tokensOutCostPer1k +
    cacheCreationTokens * rule.tokensInCostPer1k / 4) / 1000

theorem exactTokenCost_eq (cacheCreationTokens : ℤ) : exactTokenCost rule tokensIn tokensOut cacheCreationTokens =
      (scaledCost rule tokensIn tokensOut cacheCreationTokens : ℚ) / 4000 := by
  simp only [exactTokenCost, scaledCost]
  push_cast
  ring

theorem exactTokenCost_le_iff (cacheCreationTokens n : ℤ) : exactTokenCost rule tokensIn tokensOut cacheCreationTokens ≤ n ↔
      scaledCost rule tokensIn tokensOut cacheCreationTokens ≤ n * 4000 := by
  rw [exactTokenCost_eq, div_le_iff₀ (by norm_num)]
  norm_cast

theorem perUnitTokenCost_least {cacheCreationTokens : ℤ} (h : 0 ≤ cacheCreationTokens) :
    IsLeast {n : ℤ | exactTokenCost rule tokensIn tokensOut cacheCreationTokens ≤ n}
      (perUnitTokenCost rule tokensIn tokensOut cacheCreationTokens) := by
  rw [perUnitTokenCost_eq rule tokensIn tokensOut h]
  constructor
  · rw [Set.mem_ofPred_eq, exactTokenCost_le_iff]
    exact le_ceilDiv_mul (by norm_num) _
  · intro n hn
    rw [Set.mem_ofPred_eq, exactTokenCost_le_iff] at hn
    exact (ceilDiv_le_iff (by norm_num) _ n).2 hn

/-! ## The turns of a run -/

theorem turnsCost_perm (hp : p.ById) {turns' : List Turn} (h : turns.Perm turns') :
    calculateTurnsTokenCost p turns = calculateTurnsTokenCost p turns' := by
  have hrules : (flatRules p turns).toFinset = (flatRules p turns').toFinset :=
    toFinset_eq_of_perm _ _ (h.filterMap (flatRule p))
  rw [turnsCost_eq hp, turnsCost_eq hp, (h.map (unitCost p)).sum_eq, hrules]

/-- a turn whose tokens a rule prices -/
structure PricedBy (p : Prices) (rule : PricingRule) (turn : Turn) : Prop where
  upstream : upstreamTurnCost p turn = none
  rule : getLivePricingForModel p turn.provider turn.model false = some rule
  cacheCreation : 0 ≤ turn.cacheCreationTokens

def Turn.scaled (rule : PricingRule) (turn : Turn) : ℤ :=
  scaledCost rule turn.tokensIn turn.tokensOut turn.cacheCreationTokens

theorem unitCost_priced {rule : PricingRule} {turn : Turn} (h : PricedBy p rule turn) (hunit : isFlatRate rule = false) :
    unitCost p turn = ceilDiv (turn.scaled rule) 4000 := by
  rw [unitCost, h.upstream]
  simp only [h.rule, hunit]
  exact perUnitTokenCost_eq rule _ _ h.cacheCreation

theorem flatRule_priced {rule : PricingRule} {turn : Turn} (h : PricedBy p rule turn) (hunit : isFlatRate rule = false) :
    flatRule p turn = none := by
  rw [flatRule, h.upstream]
  simp [h.rule, hunit]

theorem turnsCost_priced (hp : p.ById) {rule : PricingRule} (hunit : isFlatRate rule = false)
    (h : ∀ turn ∈ turns, PricedBy p rule turn) :
    calculateTurnsTokenCost p turns = ((turns.map (Turn.scaled rule)).map (ceilDiv · 4000)).sum := by
  have hflat : flatRules p turns = [] := by
    apply filterMap_eq_nil_iff.2
    exact fun turn hturn => flatRule_priced (h turn hturn) hunit
  have hunits : turns.map (unitCost p) = (turns.map (Turn.scaled rule)).map (ceilDiv · 4000) := by
    rw [map_map]
    apply map_congr_left
    exact fun turn hturn => unitCost_priced (h turn hturn) hunit
  rw [turnsCost_eq hp, hflat, hunits]
  simp

/-- the tokens of some turns together -/
def tokensOf (count : Turn → ℤ) (turns : List Turn) : ℤ := (turns.map count).sum

theorem sum_scaled (turns : List Turn) : (turns.map (Turn.scaled rule)).sum =
      scaledCost rule (tokensOf Turn.tokensIn turns) (tokensOf Turn.tokensOut turns) (tokensOf Turn.cacheCreationTokens turns) := by
  induction turns with
  | nil => simp [tokensOf, scaledCost]
  | cons turn turns ih =>
    simp only [tokensOf, scaledCost, Turn.scaled, map_cons, sum_cons] at ih ⊢
    rw [ih]
    ring

theorem tokensOf_nonneg {count : Turn → ℤ} (h : ∀ turn ∈ turns, 0 ≤ count turn) : 0 ≤ tokensOf count turns := by
  apply sum_nonneg
  intro n hn
  obtain ⟨turn, hturn, rfl⟩ := mem_map.1 hn
  exact h turn hturn

/-- rounded up turn by turn: never below the price of the tokens together, and less than a unit a turn above it -/
theorem turnsCost_bounds (hp : p.ById) {rule : PricingRule} (hne : turns ≠ []) (hunit : isFlatRate rule = false)
    (h : ∀ turn ∈ turns, PricedBy p rule turn) :
    let together := perUnitTokenCost rule (tokensOf Turn.tokensIn turns) (tokensOf Turn.tokensOut turns)
      (tokensOf Turn.cacheCreationTokens turns)
    together ≤ calculateTurnsTokenCost p turns ∧ calculateTurnsTokenCost p turns ≤ together + (turns.length - 1) := by
  have hcache : 0 ≤ tokensOf Turn.cacheCreationTokens turns := tokensOf_nonneg (fun turn hturn => (h turn hturn).cacheCreation)
  have hscaled : turns.map (Turn.scaled rule) ≠ [] := by
    intro hnil
    exact hne (map_eq_nil_iff.1 hnil)
  have hupper := sum_ceilDiv_le (d := 4000) (by norm_num) hscaled
  rw [length_map] at hupper
  rw [perUnitTokenCost_eq rule _ _ hcache, turnsCost_priced hp hunit h, ← sum_scaled]
  exact ⟨ceilDiv_sum_le (by norm_num) _, hupper⟩

/-- **Token pricing.** A turn costs its exact price rounded up to a whole unit. For the rules of a table, the turns of a run
cost the same in any order; each costs its own tokens and every distinct flat rule its price once; and under one per-unit
rule they cost at least their tokens together and at most `n - 1` more. -/
theorem token_pricing :
    (∀ (rule : PricingRule) (tokensIn tokensOut cacheCreationTokens : ℤ), 0 ≤ rule.tokensInCostPer1k →
      0 ≤ rule.tokensOutCostPer1k → 0 ≤ tokensIn → 0 ≤ tokensOut → 0 ≤ cacheCreationTokens →
      IsLeast {n : ℤ | exactTokenCost rule tokensIn tokensOut cacheCreationTokens ≤ n}
        (perUnitTokenCost rule tokensIn tokensOut cacheCreationTokens)) ∧
    ∀ (table : PricingTable) (now : ℤ) (settings : Prices) (turns : List Turn),
      let p := table.prices now settings
      (∀ turns', turns.Perm turns' → calculateTurnsTokenCost p turns = calculateTurnsTokenCost p turns') ∧
      calculateTurnsTokenCost p turns =
        (turns.map (unitCost p)).sum + ∑ rule ∈ (flatRules p turns).toFinset, rule.runPriceUsdc ∧
      ∀ rule, turns ≠ [] → isFlatRate rule = false → (∀ turn ∈ turns, PricedBy p rule turn) →
        let together := perUnitTokenCost rule (tokensOf Turn.tokensIn turns) (tokensOf Turn.tokensOut turns)
          (tokensOf Turn.cacheCreationTokens turns)
        together ≤ calculateTurnsTokenCost p turns ∧ calculateTurnsTokenCost p turns ≤ together + (turns.length - 1) := by
  constructor
  · intro rule tokensIn tokensOut cacheCreationTokens _ _ _ _ hcache
    exact perUnitTokenCost_least rule tokensIn tokensOut hcache
  · intro table now settings turns p
    have hp : p.ById := table.prices_byId now settings
    refine ⟨fun turns' h => turnsCost_perm hp h, turnsCost_eq hp turns, ?_⟩
    intro rule hne hunit h
    exact turnsCost_bounds hp hne hunit h

def tokenTable : PricingTable where
  rows := [⟨⟨⟨"m-v1", 10000, 3, 5, 1⟩, "M", 0, 0⟩, "p", "m", false⟩]
  ids := by decide

def noSettings : Prices :=
  ⟨none, fun _ _ => none, fun _ _ => none, fun _ => none, fun _ _ => none, fun _ => none, true, false, fun _ => 0, false, 0⟩

/-- two turns of one token in each: together a unit, one by one two -/
theorem token_pricing_sample :
    let turns : List Turn := [⟨"p", "m", 1, 0, 1, none⟩, ⟨"p", "m", 1, 0, 0, none⟩]
    let rule : PricingRule := ⟨"m-v1", 10000, 3, 5, 1⟩
    calculateTurnsTokenCost (tokenTable.prices 0 noSettings) turns = 2 ∧ perUnitTokenCost rule 2 0 1 = 1 ∧
      IsLeast {n : ℤ | exactTokenCost rule 2 0 1 ≤ n} (perUnitTokenCost rule 2 0 1) ∧
      calculateTurnsTokenCost (tokenTable.prices 0 noSettings) turns ≤ perUnitTokenCost rule 2 0 1 + 1 := by
  refine ⟨by decide, by decide, token_pricing.1 _ 2 0 1 (by decide) (by decide) (by decide) (by decide) (by decide), ?_⟩
  refine ((token_pricing.2 tokenTable 0 noSettings [⟨"p", "m", 1, 0, 1, none⟩, ⟨"p", "m", 1, 0, 0, none⟩]).2.2
    ⟨"m-v1", 10000, 3, 5, 1⟩ (by decide) (by decide) ?_).2
  intro turn hturn
  have hpriced : getLivePricingForModel (tokenTable.prices 0 noSettings) "p" "m" false = some ⟨"m-v1", 10000, 3, 5, 1⟩ := by
    decide
  rcases mem_pair.1 hturn with rfl | rfl <;> exact ⟨rfl, hpriced, by decide⟩

end Teardrop.Billing
