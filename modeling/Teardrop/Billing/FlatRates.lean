/-
The cost of a run's turns as a sum (`calculate_turns_token_cost_usdc` of `billing/pricing.py`): a cost of each turn on its own,
and the price of every flat rule that some turn is priced by, once.
-/
import Teardrop.Billing.PricingTable

namespace Teardrop.Billing

open List

/-- prices whose rules are those of a table -/
def PricingTable.prices (table : PricingTable) (now : ℤ) (p : Prices) : Prices :=
  { p with
    live := (getCurrentPricing table now).map PricingRecord.toPricingRule
    forModel := fun provider model => (getCurrentPricingForModel table now provider model false).map PricingRecord.toPricingRule
    byokForModel := fun provider model =>
      (getCurrentPricingForModel table now provider model true).map PricingRecord.toPricingRule }

/-- an id names one of the rules that price turns -/
def Prices.ById (p : Prices) : Prop :=
  ∀ {provider model provider' model' : String} {rule rule' : PricingRule},
    getLivePricingForModel p provider model false = some rule →
    getLivePricingForModel p provider' model' false = some rule' → rule.id = rule'.id → rule = rule'

variable {p : Prices} {rule : PricingRule} {flat : List (String × ℤ)}

theorem PricingTable.live_mem {table : PricingTable} {now : ℤ} {provider model : String}
    (h : getLivePricingForModel (table.prices now p) provider model false = some rule) :
    ∃ row ∈ table.rows, row.toPricingRule = rule := by
  unfold getLivePricingForModel at h
  by_cases hempty : provider = "" ∧ model = ""
  · rw [if_pos hempty] at h
    obtain ⟨record, hrecord, rfl⟩ := Option.map_eq_some_iff.1 h
    obtain ⟨row, hrow, rfl⟩ := currentPricing_mem hrecord
    exact ⟨row, hrow, rfl⟩
  · rw [if_neg hempty, if_neg Bool.false_ne_true] at h
    obtain ⟨record, hrecord, rfl⟩ := Option.map_eq_some_iff.1 h
    obtain ⟨row, hrow, rfl⟩ := currentPricingForModel_mem hrecord
    exact ⟨row, hrow, rfl⟩

theorem PricingTable.prices_byId (table : PricingTable) (now : ℤ) (p : Prices) : (table.prices now p).ById := by
  intro provider model provider' model' rule rule' h h' hid
  obtain ⟨row, hrow, rfl⟩ := PricingTable.live_mem h
  obtain ⟨row', hrow', rfl⟩ := PricingTable.live_mem h'
  rw [table.eq_of_id hrow hrow' hid]

/-! ## One turn -/

/-- the flat rule that a turn is priced by -/
def flatRule (p : Prices) (turn : Turn) : Option PricingRule :=
  match upstreamTurnCost p turn with
  | some _ => none
  | none => (getLivePricingForModel p turn.provider turn.model false).filter isFlatRate

/-- what a turn costs besides -/
def unitCost (p : Prices) (turn : Turn) : ℤ :=
  match upstreamTurnCost p turn with
  | some cost => cost
  | none =>
    match getLivePricingForModel p turn.provider turn.model false with
    | none => 0
    | some rule =>
      if isFlatRate rule then 0 else perUnitTokenCost rule turn.tokensIn turn.tokensOut turn.cacheCreationTokens

theorem addTurn_eq (p : Prices) (acc : ℤ × List (String × ℤ)) (turn : Turn) : addTurn p acc turn =
      (acc.1 + unitCost p turn, ((flatRule p turn).map (fun rule => setFlatPrice rule acc.2)).getD acc.2) := by
  unfold addTurn flatRule unitCost
  cases upstreamTurnCost p turn with
  | some cost => rfl
  | none =>
    cases getLivePricingForModel p turn.provider turn.model false with
    | none => simp
    | some rule =>
      by_cases hflat : isFlatRate rule = true <;> simp [hflat, Option.filter]

theorem flatRule_live {turn : Turn} (h : flatRule p turn = some rule) :
    getLivePricingForModel p turn.provider turn.model false = some rule := by
  unfold flatRule at h
  split at h
  · cases h
  · exact (Option.filter_eq_some_iff.1 h).1

/-- a turn without tokens and without a reported cost -/
structure Turn.Empty (turn : Turn) : Prop where
  tokensIn : turn.tokensIn = 0
  tokensOut : turn.tokensOut = 0
  cacheCreation : turn.cacheCreationTokens = 0
  upstream : turn.upstreamCostUsd = none

theorem unitCost_empty (p : Prices) {turn : Turn} (h : turn.Empty) : unitCost p turn = 0 := by
  have hupstream : upstreamTurnCost p turn = none := by
    rw [upstreamTurnCost, h.upstream]
  rw [unitCost, hupstream]
  dsimp only
  split
  · rfl
  · split_ifs
    · rfl
    · rw [perUnitTokenCost, h.tokensIn, h.tokensOut, h.cacheCreation]
      simp [ceilDiv]

/-! ## The flat prices -/

/-- the flat prices hold the price of each rule, once -/
structure FlatPrices (rules : List PricingRule) (flat : List (String × ℤ)) : Prop where
  keys : ∀ id, id ∈ flat.map Prod.fst ↔ ∃ rule ∈ rules, rule.id = id
  total : (flat.map Prod.snd).sum = ∑ rule ∈ rules.toFinset, rule.runPriceUsdc
  priced : ∀ rule ∈ rules, (rule.id, rule.runPriceUsdc) ∈ flat
  nodup : (flat.map Prod.fst).Nodup

theorem setFlatPrice_new (h : rule.id ∉ flat.map Prod.fst) :
    setFlatPrice rule flat = flat ++ [(rule.id, rule.runPriceUsdc)] := by
  induction flat with
  | nil => rfl
  | cons entry flat ih =>
    rw [map_cons, mem_cons, not_or] at h
    rw [setFlatPrice, if_neg (Ne.symm h.1), ih h.2, cons_append]

theorem setFlatPrice_known (hnodup : (flat.map Prod.fst).Nodup) (h : (rule.id, rule.runPriceUsdc) ∈ flat) :
    setFlatPrice rule flat = flat := by
  induction flat with
  | nil => cases h
  | cons entry flat ih =>
    rw [map_cons, nodup_cons] at hnodup
    rw [setFlatPrice]
    by_cases hid : entry.1 = rule.id
    · rw [if_pos hid]
      rcases mem_cons.1 h with h | h
      · rw [← h]
      · exact absurd (hid ▸ mem_map_of_mem h) hnodup.1
    · rw [if_neg hid]
      have hmem : (rule.id, rule.runPriceUsdc) ∈ flat := by
        rcases mem_cons.1 h with h | h
        · exact absurd (congrArg Prod.fst h).symm hid
        · exact h
      rw [ih hnodup.2 hmem]

theorem FlatPrices.set {rules : List PricingRule} (h : FlatPrices rules flat)
    (hid : ∀ rule' ∈ rules, rule'.id = rule.id → rule' = rule) : FlatPrices (rules ++ [rule]) (setFlatPrice rule flat) := by
  by_cases hmem : rule ∈ rules
  · rw [setFlatPrice_known h.nodup (h.priced rule hmem)]
    refine ⟨fun id => ?_, ?_, fun rule' hrule' => ?_, h.nodup⟩
    · rw [h.keys]
      constructor
      · rintro ⟨rule', hrule', hid'⟩
        exact ⟨rule', mem_append_left _ hrule', hid'⟩
      · rintro ⟨rule', hrule', hid'⟩
        rcases mem_append.1 hrule' with hrule' | hrule'
        · exact ⟨rule', hrule', hid'⟩
        · exact ⟨rule, hmem, mem_singleton.1 hrule' ▸ hid'⟩
    · rw [h.total, toFinset_append, toFinset_cons, toFinset_nil, Finset.union_insert, Finset.union_empty,
        Finset.insert_eq_of_mem (mem_toFinset.2 hmem)]
    · rcases mem_append.1 hrule' with hrule' | hrule'
      · exact h.priced rule' hrule'
      · rw [mem_singleton.1 hrule']
        exact h.priced rule hmem
  · have hnew : rule.id ∉ flat.map Prod.fst := by
      rw [h.keys]
      rintro ⟨rule', hrule', hid'⟩
      exact hmem (hid rule' hrule' hid' ▸ hrule')
    rw [setFlatPrice_new hnew]
    refine ⟨fun id => ?_, ?_, fun rule' hrule' => ?_, ?_⟩
    · rw [map_append, mem_append, h.keys, map_singleton, mem_singleton]
      constructor
      · rintro (⟨rule', hrule', hid'⟩ | rfl)
        · exact ⟨rule', mem_append_left _ hrule', hid'⟩
        · exact ⟨rule, mem_append_right _ mem_cons_self, rfl⟩
      · rintro ⟨rule', hrule', hid'⟩
        rcases mem_append.1 hrule' with hrule' | hrule'
        · exact .inl ⟨rule', hrule', hid'⟩
        · exact .inr (mem_singleton.1 hrule' ▸ hid'.symm)
    · rw [map_append, sum_append, h.total, toFinset_append, toFinset_cons, toFinset_nil,
        Finset.union_insert, Finset.union_empty, Finset.sum_insert (fun hin => hmem (mem_toFinset.1 hin))]
      simp [add_comm]
    · rcases mem_append.1 hrule' with hrule' | hrule'
      · exact mem_append_left _ (h.priced rule' hrule')
      · rw [mem_singleton.1 hrule']
        exact mem_append_right _ mem_cons_self
    · rw [map_append, nodup_append]
      refine ⟨h.nodup, nodup_singleton _, fun a ha b hb hab => ?_⟩
      rw [map_singleton, mem_singleton] at hb
      rw [hab, hb] at ha
      exact hnew ha

/-! ## All turns -/

/-- the flat rules of a run -/
def flatRules (p : Prices) (turns : List Turn) : List PricingRule := turns.filterMap (flatRule p)

theorem turns_fold (hp : p.ById) (turns : List Turn) :
    (turns.foldl (addTurn p) (0, [])).1 = (turns.map (unitCost p)).sum ∧
      FlatPrices (flatRules p turns) (turns.foldl (addTurn p) (0, [])).2 := by
  induction turns using reverseRecOn with
  | nil => exact ⟨rfl, by simp [flatRules], by simp [flatRules], by simp [flatRules], by simp⟩
  | append_singleton turns turn ih =>
    obtain ⟨hunit, hflat⟩ := ih
    rw [foldl_append, foldl_cons, foldl_nil, addTurn_eq, map_append, sum_append, ← hunit]
    rw [flatRules, filterMap_append, ← flatRules]
    cases hrule : flatRule p turn with
    | none => simpa [hrule] using hflat
    | some rule =>
      have hset : FlatPrices (flatRules p turns ++ [rule]) (setFlatPrice rule (turns.foldl (addTurn p) (0, [])).2) := by
        apply hflat.set
        intro rule' hrule' hid
        obtain ⟨turn', -, hturn'⟩ := mem_filterMap.1 hrule'
        exact hp (flatRule_live hturn') (flatRule_live hrule) hid
      simpa [hrule] using hset

/-- **The cost of the turns.** The cost of each turn on its own, and every flat rule once. -/
theorem turnsCost_eq (hp : p.ById) (turns : List Turn) : calculateTurnsTokenCost p turns =
      (turns.map (unitCost p)).sum + ∑ rule ∈ (flatRules p turns).toFinset, rule.runPriceUsdc := by
  obtain ⟨hunit, hflat⟩ := turns_fold hp turns
  rw [calculateTurnsTokenCost, ← hunit, ← hflat.total]

/-- what a turn adds to the others: its own cost, and the price of its flat rule if none of them has it -/
theorem turnsCost_insert (hp : p.ById) (earlier later : List Turn) (turn : Turn) :
    calculateTurnsTokenCost p (earlier ++ turn :: later) = calculateTurnsTokenCost p (earlier ++ later) + unitCost p turn +
      match flatRule p turn with
      | none => 0
      | some rule => if rule ∈ flatRules p (earlier ++ later) then 0 else rule.runPriceUsdc := by
  have hunits : ((earlier ++ turn :: later).map (unitCost p)).sum =
      ((earlier ++ later).map (unitCost p)).sum + unitCost p turn := by
    simp only [map_append, map_cons, sum_append, sum_cons]
    ring
  rw [turnsCost_eq hp, turnsCost_eq hp, hunits]
  cases hrule : flatRule p turn with
  | none =>
    have hsame : flatRules p (earlier ++ turn :: later) = flatRules p (earlier ++ later) := by
      simp [flatRules, hrule]
    rw [hsame]
    ring
  | some rule =>
    have hinsert : (flatRules p (earlier ++ turn :: later)).toFinset = insert rule (flatRules p (earlier ++ later)).toFinset := by
      ext x
      simp only [flatRules, filterMap_append, filterMap_cons, hrule, mem_toFinset, mem_append, mem_cons, Finset.mem_insert]
      tauto
    rw [hinsert]
    dsimp only
    by_cases hmem : rule ∈ flatRules p (earlier ++ later)
    · rw [if_pos hmem, Finset.insert_eq_of_mem (mem_toFinset.2 hmem)]
      ring
    · rw [if_neg hmem, Finset.sum_insert (fun hin => hmem (mem_toFinset.1 hin))]
      ring

end Teardrop.Billing
