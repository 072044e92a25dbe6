/-
What an attempt that met a rate limit costs its run: the usage of the agent as `calculate_run_cost` of
`teardrop/agent_post_run.py` reads it.

A rate limit of the first model leaves a turn without tokens in the usage, before the turns of the fallback
(`agent/nodes.py`). By the token it costs nothing; under a flat rule it is a turn that uses the rule. A run's usage is the one
at its end, after any further supersteps. The names of providers and models have no lone surrogates.
-/
import Teardrop.Agent.Graph
import Teardrop.Billing.FlatRates

namespace Teardrop.Agent

open Teardrop.Runs Thread
open Teardrop.Billing (Prices PricingTable RunTerms Failure calculateRunCost pricedTurn flatRule)

/-! ## The usage as billing reads it -/

def text (s : PyStr) : String := String.ofList (s.map PyJson.toChar)

/-- `isinstance(cost_usd, (int, float))`; a cost that is not finite makes the pricing raise -/
def costUsd : PyJson → Option ℚ
  | .bool b => some (if b then 1 else 0)
  | .int n => some n
  | .float (.finite negative k) => some ((if negative then -1 else 1) * (Double.units k : ℚ) / 2 ^ 1074)
  | _ => none

def Turn.billed (turn : Turn) : Billing.Turn where
  provider := text turn.provider
  model := text turn.model
  tokensIn := turn.tokensIn
  tokensOut := turn.tokensOut
  cacheCreationTokens := turn.cacheCreationTokens
  upstreamCostUsd := (assoc (PyStr.ofString "upstream_cost_usd") turn.upstream).bind costUsd

/-- `usage_data` of a run -/
def Usage.billed (u : Usage) : Billing.Usage where
  tokensIn := u.tokensIn
  tokensOut := u.tokensOut
  cacheCreationTokens := u.cacheCreationTokens
  billableToolCalls := u.billableToolCalls
  billableToolNames := u.toolNames.map text
  turns := u.turns.map Turn.billed

/-- the usage with its turn number `k` left out -/
def Usage.leaveOut (u : Usage) (k : ℕ) : Usage :=
  match u.turns[k]? with
  | none => u
  | some turn =>
    { u with
      tokensIn := u.tokensIn - turn.tokensIn
      tokensOut := u.tokensOut - turn.tokensOut
      cacheReadTokens := u.cacheReadTokens - turn.cacheReadTokens
      cacheCreationTokens := u.cacheCreationTokens - turn.cacheCreationTokens
      turns := u.turns.eraseIdx k }

/-! ## The turns of a run -/

theorem account_turns {cfg : Config} {py : Interp} {u u' : Usage} {accepted : List Call} {results : List Result}
    (h : account cfg py u accepted results = .ok u') : u'.turns = u.turns := by
  obtain ⟨_, -, h⟩ := Py.bind_eq_ok h
  obtain ⟨_, -, h⟩ := Py.bind_eq_ok h
  obtain ⟨_, -, h⟩ := Py.bind_eq_ok h
  cases h
  rfl

theorem toolExecutorNode_turns {cfg : Config} {py : Interp} {env : Env} {s : State} {patch : Patch}
    (h : toolExecutorNode cfg py env s = .ok patch) : patch.usage.turns = s.usage.turns := by
  rcases toolExecutorNode_ok h with ⟨-, rfl⟩ | ⟨calls, accepted, skipped, -, -, ⟨-, rfl⟩ | ⟨-, usage, husage, rfl⟩⟩
  · rfl
  · rfl
  · have hturns := account_turns husage
    split_ifs <;> exact hturns

theorem Thread.advance_turns (cfg : Config) (set : PlannerSettings) (py : Interp) (t : Thread) (r : Round) :
    t.state.usage.turns <+: (t.advance cfg set py r).state.usage.turns := by
  unfold advance
  split
  · rcases plannerNode_counted cfg set py r.llmConfig r.planner t.state with ⟨-, husage⟩ | hcounted
    · have hsame : (t.state.merge (plannerNode cfg set py r.llmConfig r.planner t.state).patch).usage = t.state.usage := husage
      simp [hsame]
    · exact ⟨_, hcounted.turns.symm⟩
  · split
    · rename_i patch hpatch
      have hsame : (t.state.merge patch).usage.turns = t.state.usage.turns := toolExecutorNode_turns hpatch
      simp [hsame]
    · exact List.prefix_rfl
  · exact List.prefix_rfl
  · exact List.prefix_rfl

theorem turns_run (cfg : Config) (set : PlannerSettings) (py : Interp) (t : Thread) (rounds : List Round) :
    t.state.usage.turns <+: (run (advance cfg set py) t rounds).state.usage.turns := by
  induction rounds generalizing t with
  | nil => exact List.prefix_rfl
  | cons r rounds ih => exact (t.advance_turns cfg set py r).trans (ih _)

/-! ## A turn that fell back -/

/-- the model of the first call, as it is accounted -/
def Thread.firstLlm (set : PlannerSettings) (t : Thread) (r : Round) : Llm :=
  (resolvePlannerLlm set r.planner.cooledDown r.llmConfig t.state.usage.toolIterations).2

/-- the planner is called, its first model refuses for its rate limit, and a fallback answers -/
structure Thread.FallsBack (set : PlannerSettings) (t : Thread) (r : Round) : Prop where
  node : t.node = .planner
  config : r.llmConfig = none
  primary : ∃ message, r.planner.primary = .failed message true
  fallback : ∃ llm, getFallbackLlm set r.planner.cooledDownLater (t.firstLlm set r) = some llm
  answer : ∃ response, r.planner.fallback = .response response

/-- the record of the refused attempt -/
def Thread.attempt (set : PlannerSettings) (t : Thread) (r : Round) : Turn :=
  match r.planner.primary with
  | .failed message _ => turnOf (t.firstLlm set r) { content := message }
  | .response response => turnOf (t.firstLlm set r) response

variable {set : PlannerSettings} {t : Thread} {r : Round} {earlier : List Turn}

theorem Thread.FallsBack.attempt_eq (h : t.FallsBack set r) :
    ∃ message, t.attempt set r = turnOf (t.firstLlm set r) { content := message } := by
  obtain ⟨message, hprimary⟩ := h.primary
  exact ⟨message, by rw [attempt, hprimary]⟩

/-- the turns after a planner turn that fell back: the attempt, and at least one that the fallback answered -/
theorem fallback_turns (h : t.FallsBack set r) (cfg : Config) (py : Interp) :
    ∃ first answered, (t.advance cfg set py r).state.usage.turns =
      t.state.usage.turns ++ t.attempt set r :: first :: answered := by
  obtain ⟨message, hprimary⟩ := h.primary
  obtain ⟨llm, hllm⟩ := h.fallback
  obtain ⟨response, hresponse⟩ := h.answer
  have hopen : openTurn set r.planner r.llmConfig t.state.usage t.state.usage.toolIterations (firstPrompt r.planner t.state) =
      .inr ⟨response, llm, llm, accumulateUsage t.state.usage { content := message } (t.firstLlm set r), false,
        [firstPrompt r.planner t.state, firstPrompt r.planner t.state], [(llm, response)]⟩ := by
    have hlater : getFallbackLlm set r.planner.cooledDownLater
        (resolvePlannerLlm set r.planner.cooledDown r.llmConfig t.state.usage.toolIterations).2 = some llm := hllm
    unfold openTurn
    rw [hprimary]
    dsimp only
    rw [if_pos ⟨rfl, by rw [h.config]; rfl⟩, hlater]
    rw [hresponse]
    rfl
  have hpending := (((openTurn_pending hopen).fillEmpty t.state.synthesisForced).retryWithoutTools r.planner
    (firstPrompt r.planner t.state) t.state.usage.toolIterations).meetContract r.planner (firstPrompt r.planner t.state)
    (r.planner.contract t.state.messages)
  rcases plannerNode_counted cfg set py r.llmConfig r.planner t.state with ⟨hnone, -⟩ | hcounted
  · unfold plannerNode at hnone
    simp only [hopen, finishTurn] at hnone
    obtain ⟨earlier, r', hreceived, -⟩ := hpending.last
    rw [hnone] at hreceived
    exact absurd hreceived.symm (by simp)
  · have hfailed : failedTurns set r.planner r.llmConfig t.state.usage.toolIterations = [t.attempt set r] := by
      have hlabel := resolvePlannerLlm_label set r.planner.cooledDown r.llmConfig t.state.usage.toolIterations
      simp only [failedTurns, hprimary, h.config, Option.isNone_none, if_true, attempt, firstLlm]
      rw [h.config] at hlabel
      rw [hlabel]
    have hreceived : (plannerNode cfg set py r.llmConfig r.planner t.state).received ≠ [] := by
      unfold plannerNode
      simp only [hopen, finishTurn]
      obtain ⟨earlier, r', hreceived, -⟩ := hpending.last
      rw [hreceived]
      simp
    obtain ⟨x, xs, hcons⟩ := List.exists_cons_of_ne_nil hreceived
    have hturns : (t.advance cfg set py r).state.usage.turns =
        (plannerNode cfg set py r.llmConfig r.planner t.state).patch.usage.turns := by
      simp only [advance, h.node]
      rfl
    refine ⟨turnOf x.1 x.2, receivedTurns xs, ?_⟩
    rw [hturns, hcounted.turns, hfailed, hcons]
    rfl

theorem Thread.FallsBack.empty (h : t.FallsBack set r) : (t.attempt set r).billed.Empty := by
  obtain ⟨message, hattempt⟩ := h.attempt_eq
  rw [hattempt]
  exact ⟨rfl, rfl, rfl, rfl⟩

/-! ## The charge -/

theorem leaveOut_billed {u : Usage} {later : List Turn} {turn : Turn} (hturns : u.turns = earlier ++ turn :: later)
    (h : turn.billed.Empty) :
    (u.leaveOut earlier.length).billed = { u.billed with turns := (earlier ++ later).map Turn.billed } := by
  have hget : u.turns[earlier.length]? = some turn := by
    rw [hturns]
    simp
  have herase : u.turns.eraseIdx earlier.length = earlier ++ later := by
    rw [hturns, List.eraseIdx_append_of_length_le (le_refl _), Nat.sub_self, List.eraseIdx_cons_zero]
  have hin : turn.tokensIn = 0 := h.tokensIn
  have hout : turn.tokensOut = 0 := h.tokensOut
  have hcreation : turn.cacheCreationTokens = 0 := h.cacheCreation
  rw [Usage.leaveOut, hget]
  simp [Usage.billed, hin, hout, hcreation, herase]

/-- the attempt is free: the run owes nothing for its tokens, or is charged by its totals, or the attempt's flat rule costs
nothing or is that of another turn -/
def AttemptFree (p : Prices) (terms : RunTerms) (failure : Failure) (attempt : Turn) (others : List Turn) : Prop :=
  terms.isByok = true ∨ failure ≠ .none ∨ ∀ rule, flatRule p (pricedTurn terms attempt.billed) = some rule →
    rule.runPriceUsdc = 0 ∨ ∃ turn ∈ others, flatRule p (pricedTurn terms turn.billed) = some rule

theorem emptied_cost_iff {p : Prices} (hp : p.ById) (terms : RunTerms) (failure : Failure) (u : Usage) {later : List Turn}
    {turn : Turn} (hturns : u.turns = earlier ++ turn :: later) (hothers : earlier ++ later ≠ [])
    (hempty : turn.billed.Empty) :
    calculateRunCost p terms u.billed failure = calculateRunCost p terms (u.leaveOut earlier.length).billed failure ↔
      AttemptFree p terms failure turn (earlier ++ later) := by
  rw [leaveOut_billed hturns hempty, AttemptFree]
  cases hbyok : terms.isByok with
  | true =>
    have hsame : calculateRunCost p terms u.billed failure =
        calculateRunCost p terms { u.billed with turns := (earlier ++ later).map Turn.billed } failure := by
      cases failure <;> simp [calculateRunCost, hbyok, Billing.tokenCharge]
    simp [hsame]
  | false =>
    cases failure with
    | first => simp [calculateRunCost, hbyok, Billing.calculateRunCostUsdc, Billing.ruleTokenCost]
    | both => simp [calculateRunCost, hbyok]
    | none =>
      have hempty' : (pricedTurn terms turn.billed).Empty := ⟨hempty.1, hempty.2, hempty.3, hempty.4⟩
      have hne : u.billed.turns ≠ [] := by
        simp [Usage.billed, hturns]
      have hne' : (earlier ++ later).map Turn.billed ≠ [] := by
        simpa using hothers
      have hinsert := Billing.turnsCost_insert hp (earlier.map (fun t => pricedTurn terms t.billed))
        (later.map (fun t => pricedTurn terms t.billed)) (pricedTurn terms turn.billed)
      have hcost : (u.billed.turns.map (pricedTurn terms)) = earlier.map (fun t => pricedTurn terms t.billed) ++
          pricedTurn terms turn.billed :: later.map (fun t => pricedTurn terms t.billed) := by
        simp [Usage.billed, hturns, Function.comp_def]
      have hrest : ((earlier ++ later).map Turn.billed).map (pricedTurn terms) =
          earlier.map (fun t => pricedTurn terms t.billed) ++ later.map (fun t => pricedTurn terms t.billed) := by
        simp [Function.comp_def]
      rw [Billing.unitCost_empty p hempty', add_zero] at hinsert
      simp only [calculateRunCost, hbyok, Bool.false_eq_true, if_false, if_pos hne, if_pos hne', hcost, hrest, hinsert,
        ne_eq, not_true_eq_false, false_or]
      cases hrule : flatRule p (pricedTurn terms turn.billed) with
      | none => simp [Usage.billed]
      | some rule =>
        have hmem : rule ∈ Billing.flatRules p (earlier.map (fun t => pricedTurn terms t.billed) ++
            later.map (fun t => pricedTurn terms t.billed)) ↔
            ∃ turn ∈ earlier ++ later, flatRule p (pricedTurn terms turn.billed) = some rule := by
          rw [Billing.flatRules, ← List.map_append, List.filterMap_map, List.mem_filterMap]
          rfl
        simp only [Option.some.injEq, forall_eq', ← hmem]
        by_cases hin : rule ∈ Billing.flatRules p (earlier.map (fun t => pricedTurn terms t.billed) ++
            later.map (fun t => pricedTurn terms t.billed))
        · simp [hin]
        · simp [hin]

/-- **A refused attempt.** For every pricing table, every run and every planner turn of it whose first model met its rate
limit and whose fallback answered: the run is charged as if the attempt had not been recorded if and only if the attempt is
free. -/
theorem rate_limited_attempt_free_iff (cfg : Config) (set : PlannerSettings) (py : Interp) (t : Thread) (r : Round)
    (rounds : List Round) (h : t.FallsBack set r) (table : PricingTable) (now : ℤ) (p : Prices) (terms : RunTerms)
    (failure : Failure) :
    let u := (run (advance cfg set py) t (r :: rounds)).state.usage
    let k := t.state.usage.turns.length
    calculateRunCost (table.prices now p) terms u.billed failure =
        calculateRunCost (table.prices now p) terms (u.leaveOut k).billed failure ↔
      AttemptFree (table.prices now p) terms failure (t.attempt set r) (u.leaveOut k).turns := by
  obtain ⟨first, answered, hturn⟩ := fallback_turns h cfg py
  obtain ⟨later, hlater⟩ := turns_run cfg set py (t.advance cfg set py r) rounds
  dsimp only
  rw [run_cons]
  generalize (run (advance cfg set py) (t.advance cfg set py r) rounds).state.usage = u at hlater ⊢
  have hturns : u.turns = t.state.usage.turns ++ t.attempt set r :: (first :: answered ++ later) := by
    rw [← hlater, hturn]
    simp
  have hothers : t.state.usage.turns ++ (first :: answered ++ later) ≠ [] := by
    simp
  have hleft : (u.leaveOut t.state.usage.turns.length).turns = t.state.usage.turns ++ (first :: answered ++ later) := by
    rw [Usage.leaveOut, hturns]
    simp [List.eraseIdx_append_of_length_le]
  rw [hleft]
  exact emptied_cost_iff (table.prices_byId now p) terms failure u hturns hothers h.empty

/-- a run of one turn: the first model met its rate limit, the fallback used a thousand tokens each way -/
def refusedRound : Round :=
  { planner := { answering [] with
      primary := .failed (PyStr.ofString "429") true
      fallback := .response
        { content := PyStr.ofString "Done.", usageMetadata := some
            { counts := [(PyStr.ofString "input_tokens", 1000), (PyStr.ofString "output_tokens", 1000)] } } }
    tools := allReturn 0 }

def poolSettings : PlannerSettings :=
  { sampleSettings with defaultModelPool := [⟨PyStr.ofString "google", PyStr.ofString "flash"⟩] }

/-- the global rule charges a cent for the run, that of the fallback charges by the token -/
def flatTable : PricingTable where
  rows :=
    [⟨⟨⟨"default", 10000, 0, 0, 0⟩, "Default pricing", 0, 0⟩, "", "", false⟩,
      ⟨⟨⟨"google-flash-v1", 10000, 94, 375, 1000⟩, "Gemini Flash", 0, 0⟩, "google", "flash", false⟩]
  ids := by decide

/-- the same with a rule by the token for the first model as well -/
def pricedTable : PricingTable where
  rows := ⟨⟨⟨"p-m-v1", 10000, 100, 400, 1000⟩, "P M", 0, 0⟩, "p", "m", false⟩ :: flatTable.rows
  ids := by decide

def noPrices : Prices where
  live := none
  forModel := fun _ _ => none
  byokForModel := fun _ _ => none
  overrides := fun _ => none
  orgTool := fun _ _ => none
  platformTool := fun _ => none
  marketplaceEnabled := true
  openrouterActualCostBillingEnabled := false
  upstreamCost := fun _ => 0
  byokTierPricingEnabled := false
  byokPlatformFeeUsdc := 0

theorem refusedRound_fallsBack : Thread.FallsBack poolSettings (invoke {} [] [] false) refusedRound where
  node := rfl
  config := rfl
  primary := ⟨_, rfl⟩
  fallback := ⟨⟨PyStr.ofString "google", PyStr.ofString "flash"⟩, by decide +kernel⟩
  answer := ⟨_, rfl⟩

/-- by the token the attempt is free -/
theorem rate_limited_attempt_free_priced :
    let u := (run (advance compilerConfig poolSettings samplePy) (invoke {} [] [] false) [refusedRound]).state.usage
    let terms : RunTerms := ⟨false, "", "", 0, "p", "m"⟩
    calculateRunCost (pricedTable.prices 0 noPrices) terms u.billed .none =
      calculateRunCost (pricedTable.prices 0 noPrices) terms (u.leaveOut 0).billed .none := by
  apply (rate_limited_attempt_free_iff compilerConfig poolSettings samplePy (invoke {} [] [] false) refusedRound []
    refusedRound_fallsBack pricedTable 0 noPrices ⟨false, "", "", 0, "p", "m"⟩ .none).2
  refine .inr (.inr fun rule hrule => ?_)
  cases hrule

/-- the attempt alone costs the price of the global rule: 10469 instead of 469 -/
theorem refused_attempt_charged :
    let u := (run (advance compilerConfig poolSettings samplePy) (invoke {} [] [] false) [refusedRound]).state.usage
    let terms : RunTerms := ⟨false, "", "", 0, "p", "m"⟩
    Thread.FallsBack poolSettings (invoke {} [] [] false) refusedRound ∧
      calculateRunCost (flatTable.prices 0 noPrices) terms u.billed .none = 10469 ∧
      calculateRunCost (flatTable.prices 0 noPrices) terms (u.leaveOut 0).billed .none = 469 :=
  ⟨refusedRound_fallsBack, by decide +kernel, by decide +kernel⟩

end Teardrop.Agent
