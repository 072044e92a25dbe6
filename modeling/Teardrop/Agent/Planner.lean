/-
The planner stage of the agent (`agent/nodes.py`), with the choice of its model (`agent/_provider.py`) and the accounting of
its turns (`agent/node_usage.py`, `agent/_llm_usage.py`).

What the up to four calls of a turn answer, the texts of the system prompts and the output contract are in `PlannerEnv`. A model is
its provider and its name; which tools are bound to it does not matter here. A message's content is the text of its blocks.
-/
import Teardrop.Agent.Executor

namespace Teardrop.Agent

open List

/-! ## Models -/

structure Llm where
  provider : PyStr
  model : PyStr
deriving DecidableEq

structure PlannerSettings where
  agentLlm : Llm
  agentSynthesisProvider : PyStr := []
  agentSynthesisModel : PyStr := []
  agentPlannerProvider : PyStr := []
  agentPlannerModel : PyStr := []
  defaultModelPool : List Llm := []
  /-- the provider has an API key -/
  hasKey : PyStr → Bool

def getFallbackLlm (set : PlannerSettings) (cooledDown : Llm → Bool) (failed : Llm) : Option Llm :=
  set.defaultModelPool.find? (fun e =>
    e.provider ≠ [] && e.model ≠ [] && e ≠ failed && !cooledDown e && set.hasKey e.provider)

def getLlmForRequest (set : PlannerSettings) (llmConfig : Option Llm) : Llm := llmConfig.getD set.agentLlm

/-- a configured override, when it is complete, has a key and is not cooling down -/
def override (set : PlannerSettings) (cooledDown : Llm → Bool) (provider model : PyStr) : Option Llm :=
  let llm : Llm := ⟨PyStr.strip provider, PyStr.strip model⟩
  if llm.provider ≠ [] ∧ llm.model ≠ [] ∧ set.hasKey llm.provider ∧ cooledDown llm = false then some llm else none

/-- the model of the request, or its fallback while it is cooling down; with what it is accounted under -/
def requestLlm (set : PlannerSettings) (cooledDown : Llm → Bool) (llmConfig : Option Llm) : Llm × Llm :=
  let label := llmConfig.getD set.agentLlm
  if llmConfig.isNone ∧ cooledDown label then
    match getFallbackLlm set cooledDown label with
    | some fallback => (fallback, fallback)
    | none => (getLlmForRequest set llmConfig, label)
  else (getLlmForRequest set llmConfig, label)

/-- `_resolve_planner_llm`: the model, and the provider and name it is accounted under -/
def resolvePlannerLlm (set : PlannerSettings) (cooledDown : Llm → Bool) (llmConfig : Option Llm) (toolIterations : ℕ) :
    Llm × Llm :=
  let (llm, label) := requestLlm set cooledDown llmConfig
  if llmConfig.isSome then (llm, label)
  else if 0 < toolIterations then
    let label := (override set cooledDown set.agentSynthesisProvider set.agentSynthesisModel).getD label
    (getLlmForRequest set (some label), label)
  else
    match override set cooledDown set.agentPlannerProvider set.agentPlannerModel with
    | some planner => (getLlmForRequest set (some planner), planner)
    | none => (llm, label)

theorem requestLlm_label (set : PlannerSettings) (cooledDown : Llm → Bool) (llmConfig : Option Llm) :
    (requestLlm set cooledDown llmConfig).1 = (requestLlm set cooledDown llmConfig).2 := by
  unfold requestLlm
  dsimp only
  split_ifs
  · split <;> rfl
  · rfl

theorem resolvePlannerLlm_label (set : PlannerSettings) (cooledDown : Llm → Bool) (llmConfig : Option Llm)
    (toolIterations : ℕ) :
    (resolvePlannerLlm set cooledDown llmConfig toolIterations).1 =
      (resolvePlannerLlm set cooledDown llmConfig toolIterations).2 := by
  have hrequest := requestLlm_label set cooledDown llmConfig
  unfold resolvePlannerLlm
  dsimp only
  split_ifs
  · exact hrequest
  · rfl
  · split
    · rfl
    · exact hrequest

/-! ## Usage -/

/-- `usage_metadata`: its counts by key, and those of its two breakdowns -/
structure UsageMetadata where
  counts : List (PyStr × ℤ) := []
  inputTokenDetails : List (PyStr × ℤ) := []
  promptTokensDetails : List (PyStr × ℤ) := []

/-- an `AIMessage` as a model returns it -/
structure Response where
  content : PyStr
  toolCalls : List Call := []
  usageMetadata : Option UsageMetadata := none
  /-- `upstream_model`, `upstream_provider` and `upstream_cost_usd`, those that are there and not null -/
  upstream : List (PyStr × PyJson) := []

def Response.message (r : Response) : Message := .ai r.content r.toolCalls

structure ExtractedUsage where
  tokensIn : ℤ := 0
  tokensOut : ℤ := 0
  cacheReadInputTokens : ℤ := 0
  cacheCreationInputTokens : ℤ := 0

/-- `d.get(key) or 0` -/
def getOrZero (d : List (PyStr × ℤ)) (key : String) : ℤ := (assoc (PyStr.ofString key) d).getD 0

/-- `d.get(key) or d.get(other) or 0` -/
def getOr (d : List (PyStr × ℤ)) (key other : String) : ℤ :=
  if getOrZero d key ≠ 0 then getOrZero d key else getOrZero d other

def extractUsage (r : Response) : ExtractedUsage :=
  match r.usageMetadata with
  | none => {}
  | some m =>
    let creation := getOrZero m.inputTokenDetails "cache_creation" +
      getOrZero m.inputTokenDetails "ephemeral_5m_input_tokens" + getOrZero m.inputTokenDetails "ephemeral_1h_input_tokens"
    { tokensIn := getOr m.counts "input_tokens" "prompt_tokens"
      tokensOut := getOr m.counts "output_tokens" "completion_tokens"
      cacheReadInputTokens := max (max (getOrZero m.counts "cache_read_input_tokens")
        (getOrZero m.inputTokenDetails "cache_read")) (getOrZero m.promptTokensDetails "cached_tokens")
      cacheCreationInputTokens := max (getOrZero m.counts "cache_creation_input_tokens") creation }

/-- the record of a turn -/
def turnOf (llm : Llm) (r : Response) : Turn :=
  let e := extractUsage r
  ⟨llm.provider, llm.model, e.tokensIn, e.tokensOut, e.cacheReadInputTokens, e.cacheCreationInputTokens, r.upstream⟩

def accumulateUsage (u : Usage) (r : Response) (label : Llm) : Usage :=
  let e := extractUsage r
  { u with
    tokensIn := u.tokensIn + e.tokensIn
    tokensOut := u.tokensOut + e.tokensOut
    cacheReadTokens := u.cacheReadTokens + e.cacheReadInputTokens
    cacheCreationTokens := u.cacheCreationTokens + e.cacheCreationInputTokens
    turns := u.turns ++ [turnOf label r] }

/-! ## One turn -/

/-- an output contract: `repair_prompt`, `normalize_output` and `build_contract_failure` -/
structure Contract where
  repairPrompt : PyStr
  normalize : PyStr → Option PyStr
  failure : PyStr

/-- what `_invoke_planner_llm` returns: a response, or the patch of a failure -/
inductive Answer where
  | response (r : Response)
  | failed (message : PyStr) (rateLimit : Bool)

structure PlannerEnv where
  /-- the system prompts of the turn -/
  system : List PyStr
  primary : Answer
  fallback : Answer
  retry : Answer
  repair : Answer
  /-- `detect_output_contract` -/
  contract : List Message → Option Contract
  cooledDown : Llm → Bool
  /-- the cooldowns after the first call failed -/
  cooledDownLater : Llm → Bool
  laxInt : PyJson → Option ℤ

def Message.isTool : Message → Bool
  | .tool _ _ => true
  | _ => false

/-- the list without its first `n` tool messages -/
def dropTools : ℕ → List Message → List Message
  | 0, ms => ms
  | _, [] => []
  | n + 1, m :: ms => if m.isTool then dropTools n ms else m :: dropTools (n + 1) ms

/-- from the second tool iteration on only the last eight tool messages are shown -/
def plannerMessages (toolIterations : ℕ) (messages : List Message) : List Message :=
  if 2 ≤ toolIterations then dropTools (messages.countP Message.isTool - 8) messages else messages

def noToolsPrompt : PyStr :=
  PyStr.ofString ("You have already gathered all required tool outputs. Do NOT request any further tool calls. " ++
    "Write the final synthesis using the existing conversation context now.")

def emptySynthesis : PyStr :=
  PyStr.ofString "The available tool results were gathered, but the model did not produce a synthesis."

/-- the local variables of the node between its calls; `received` is the log of the responses, with the model that was
called -/
structure Progress where
  response : Response
  activeLlm : Llm
  label : Llm
  usage : Usage
  usageAlreadyRecorded : Bool
  sent : List (List Message)
  received : List (Llm × Response)

/-- the first call and its fallback: a failure's message, or the response to go on with; and what was sent -/
def openTurn (set : PlannerSettings) (env : PlannerEnv) (llmConfig : Option Llm) (usage : Usage) (toolIterations : ℕ)
    (messages : List Message) : (PyStr × List (List Message)) ⊕ Progress :=
  let (llm, label) := resolvePlannerLlm set env.cooledDown llmConfig toolIterations
  match env.primary with
  | .response r => .inr ⟨r, llm, label, usage, false, [messages], [(llm, r)]⟩
  | .failed message rateLimit =>
    if rateLimit ∧ llmConfig.isNone then
      -- the failed turn is recorded first; its message has no usage
      let usage := accumulateUsage usage { content := message } label
      match getFallbackLlm set env.cooledDownLater label with
      | some fallback =>
        match env.fallback with
        | .response r => .inr ⟨r, fallback, fallback, usage, false, [messages, messages], [(fallback, r)]⟩
        | .failed message _ => .inl (message, [messages, messages])
      | none => .inl (message, [messages])
    else .inl (message, [messages])

/-- forced synthesis does not end without a text -/
def Progress.fillEmpty (p : Progress) (forced : Bool) : Progress :=
  if forced ∧ p.response.toolCalls = [] ∧ PyStr.strip p.response.content = [] then
    { p with response := { p.response with content := emptySynthesis } }
  else p

/-- the retry of a synthesis turn that asks for tools -/
def Progress.retryWithoutTools (env : PlannerEnv) (messages : List Message) (toolIterations : ℕ) (p : Progress) : Progress :=
  if 0 < toolIterations ∧ p.response.toolCalls ≠ [] then
    let sent := p.sent ++ [messages ++ [p.response.message, .system noToolsPrompt]]
    match env.retry with
    | .failed _ _ => { p with sent := sent }
    | .response r =>
      { p with
        response := if r.toolCalls ≠ [] ∧ PyStr.strip r.content ≠ [] then { r with toolCalls := [] } else r
        usage := accumulateUsage p.usage p.response p.label
        sent := sent
        received := p.received ++ [(p.activeLlm, r)] }
  else p

/-- the output contract, with its repair -/
def Progress.meetContract (env : PlannerEnv) (messages : List Message) (contract : Option Contract) (p : Progress) :
    Progress :=
  match contract with
  | none => p
  | some contract =>
    if p.response.toolCalls ≠ [] then p
    else match contract.normalize p.response.content with
      | some text => { p with response := { p.response with content := text } }
      | none =>
        let sent := p.sent ++ [messages ++ [p.response.message, .system contract.repairPrompt]]
        match env.repair with
        | .failed _ _ => { p with response := { p.response with content := contract.failure }, sent := sent }
        | .response r =>
          { p with
            response := { r with
              toolCalls := []
              content := if (contract.normalize r.content).isNone then contract.failure else r.content }
            usage := if p.usageAlreadyRecorded then p.usage else accumulateUsage p.usage p.response p.label
            usageAlreadyRecorded := false
            sent := sent
            received := p.received ++ [(p.activeLlm, r)] }

/-- the plan of the text, in compiler mode; an invalid one is ignored -/
def nextPlan (cfg : Config) (py : Interp) (env : PlannerEnv) (plan : Option Plan) (content : PyStr) : Option Plan :=
  if cfg.agentCompilerModeEnabled then
    match parsePlanFromText env.laxInt py.limit content with
    | .ok (some p) =>
      if p.calls.all (fun c => c.tool ∈ (cfg.platformTools ++ cfg.orgTools).map Prod.fst) then some p else plan
    | _ => plan
  else plan

/-- a turn: its patch, the lists of messages it sent, and the responses it received -/
structure PlannerTurn where
  patch : Patch
  sent : List (List Message)
  received : List (Llm × Response)

/-- the messages of the first call -/
def firstPrompt (env : PlannerEnv) (s : State) : List Message :=
  env.system.map Message.system ++ plannerMessages s.usage.toolIterations s.messages

/-- the end of a turn that has its response -/
def finishTurn (cfg : Config) (py : Interp) (env : PlannerEnv) (s : State) (p : Progress) : PlannerTurn :=
  let plan := nextPlan cfg py env s.plan p.response.content
  let executing := p.response.toolCalls ≠ [] ∨ (plan.filter (fun q => !q.isDone)).isSome = true
  { patch :=
      { s.patch [p.response.message] (if executing then .executing else .generatingUi) with
        usage := if p.usageAlreadyRecorded then p.usage else accumulateUsage p.usage p.response p.label
        synthesisForced := false
        plan := plan }
    sent := p.sent
    received := p.received }

def plannerNode (cfg : Config) (set : PlannerSettings) (py : Interp) (llmConfig : Option Llm) (env : PlannerEnv) (s : State) :
    PlannerTurn :=
  let messages := firstPrompt env s
  match openTurn set env llmConfig s.usage s.usage.toolIterations messages with
  | .inl (message, sent) => ⟨s.patch [.ai message []] .failed, sent, []⟩
  | .inr p =>
    let p := p.fillEmpty s.synthesisForced
    let p := p.retryWithoutTools env messages s.usage.toolIterations
    let p := p.meetContract env messages (env.contract s.messages)
    finishTurn cfg py env s p

/-! ## What a turn adds to the usage -/

/-- `u'` is `u` with the turns `ts`, and with their tokens in its totals -/
structure Counted (u u' : Usage) (ts : List Turn) : Prop where
  tokensIn : u'.tokensIn = u.tokensIn + (ts.map Turn.tokensIn).sum
  tokensOut : u'.tokensOut = u.tokensOut + (ts.map Turn.tokensOut).sum
  cacheRead : u'.cacheReadTokens = u.cacheReadTokens + (ts.map Turn.cacheReadTokens).sum
  cacheCreation : u'.cacheCreationTokens = u.cacheCreationTokens + (ts.map Turn.cacheCreationTokens).sum
  turns : u'.turns = u.turns ++ ts

theorem Counted.refl (u : Usage) : Counted u u [] := by
  constructor <;> simp

variable {u : Usage} {failed : List Turn} {p : Progress} {set : PlannerSettings} {env : PlannerEnv}
  {llmConfig : Option Llm} {toolIterations : ℕ}

theorem Counted.accumulate {u' : Usage} {ts : List Turn} (h : Counted u u' ts) (r : Response) (label : Llm) :
    Counted u (accumulateUsage u' r label) (ts ++ [turnOf label r]) := by
  constructor
  · simp [accumulateUsage, turnOf, h.tokensIn, add_assoc]
  · simp [accumulateUsage, turnOf, h.tokensOut, add_assoc]
  · simp [accumulateUsage, turnOf, h.cacheRead, add_assoc]
  · simp [accumulateUsage, turnOf, h.cacheCreation, add_assoc]
  · simp [accumulateUsage, h.turns]

/-- the turns of the responses received, each under its model -/
def receivedTurns (received : List (Llm × Response)) : List Turn := received.map (fun x => turnOf x.1 x.2)

/-- between the calls of a turn: the response at hand, as far as its usage goes, was received last and is the only one not
counted yet -/
structure Pending (u : Usage) (failed : List Turn) (p : Progress) : Prop where
  label : p.label = p.activeLlm
  notRecorded : p.usageAlreadyRecorded = false
  last : ∃ earlier r, p.received = earlier ++ [(p.activeLlm, r)] ∧ turnOf p.label p.response = turnOf p.activeLlm r ∧
    Counted u p.usage (failed ++ receivedTurns earlier)

theorem Pending.withContent (h : Pending u failed p) (content : PyStr) (sent : List (List Message)) :
    Pending u failed { p with response := { p.response with content := content }, sent := sent } := by
  obtain ⟨earlier, r, hreceived, hturn, hcounted⟩ := h.last
  exact ⟨h.label, h.notRecorded, earlier, r, hreceived, hturn, hcounted⟩

theorem Pending.replace (h : Pending u failed p) {r r' : Response} (hturn : turnOf p.label r' = turnOf p.activeLlm r)
    (sent : List (List Message)) :
    Pending u failed { p with
      response := r', usage := accumulateUsage p.usage p.response p.label, usageAlreadyRecorded := false, sent := sent,
      received := p.received ++ [(p.activeLlm, r)] } := by
  obtain ⟨earlier, r₀, hreceived, hturn₀, hcounted⟩ := h.last
  refine ⟨h.label, rfl, p.received, r, rfl, hturn, ?_⟩
  have hnext := hcounted.accumulate p.response p.label
  rw [hturn₀, append_assoc] at hnext
  simpa [receivedTurns, hreceived] using hnext

theorem Pending.fillEmpty (h : Pending u failed p) (forced : Bool) : Pending u failed (p.fillEmpty forced) := by
  unfold Progress.fillEmpty
  split_ifs
  · exact h.withContent emptySynthesis p.sent
  · exact h

theorem Pending.retryWithoutTools (h : Pending u failed p) (env : PlannerEnv) (messages : List Message)
    (toolIterations : ℕ) : Pending u failed (p.retryWithoutTools env messages toolIterations) := by
  unfold Progress.retryWithoutTools
  by_cases hretry : 0 < toolIterations ∧ p.response.toolCalls ≠ []
  · rw [if_pos hretry]
    split
    · exact ⟨h.label, h.notRecorded, h.last⟩
    · rename_i r _
      have hturn : turnOf p.label (if r.toolCalls ≠ [] ∧ PyStr.strip r.content ≠ [] then { r with toolCalls := [] } else r) =
          turnOf p.activeLlm r := by
        rw [h.label]
        split_ifs <;> rfl
      have hnext := h.replace hturn (p.sent ++ [messages ++ [p.response.message, .system noToolsPrompt]])
      rw [← h.notRecorded] at hnext
      exact hnext
  · rw [if_neg hretry]
    exact h

theorem Pending.meetContract (h : Pending u failed p) (env : PlannerEnv) (messages : List Message)
    (contract : Option Contract) : Pending u failed (p.meetContract env messages contract) := by
  unfold Progress.meetContract
  split
  · exact h
  · rename_i c
    by_cases htools : p.response.toolCalls ≠ []
    · rw [if_pos htools]
      exact h
    · rw [if_neg htools]
      split
      · rename_i text _
        exact h.withContent text p.sent
      · split
        · exact h.withContent c.failure _
        · rename_i r _
          have hturn : turnOf p.label { r with
              toolCalls := [], content := if (c.normalize r.content).isNone then c.failure else r.content } =
              turnOf p.activeLlm r := by
            rw [h.label]
            rfl
          have hnext := h.replace hturn (p.sent ++ [messages ++ [p.response.message, .system c.repairPrompt]])
          rw [h.notRecorded]
          exact hnext

/-- the turn that a rate limit of the first call leaves: no tokens, under the model that was called -/
def failedTurns (set : PlannerSettings) (env : PlannerEnv) (llmConfig : Option Llm) (toolIterations : ℕ) : List Turn :=
  match env.primary with
  | .failed message true =>
    if llmConfig.isNone then
      [turnOf (resolvePlannerLlm set env.cooledDown llmConfig toolIterations).1 { content := message }]
    else []
  | _ => []

theorem openTurn_pending {usage : Usage} {messages : List Message}
    (h : openTurn set env llmConfig usage toolIterations messages = .inr p) :
    Pending usage (failedTurns set env llmConfig toolIterations) p := by
  have hlabel := resolvePlannerLlm_label set env.cooledDown llmConfig toolIterations
  unfold openTurn at h
  dsimp only at h
  unfold failedTurns
  split at h
  · rename_i r hprimary
    cases h
    rw [hprimary]
    exact ⟨hlabel.symm, rfl, [], r, rfl, by rw [hlabel], Counted.refl usage⟩
  · rename_i message rateLimit hprimary
    rw [hprimary]
    by_cases hlimit : rateLimit = true ∧ llmConfig.isNone = true
    · rw [if_pos hlimit] at h
      obtain ⟨rfl, hnone⟩ := hlimit
      split at h
      · split at h
        · rename_i r _
          cases h
          refine ⟨rfl, rfl, [], r, rfl, rfl, ?_⟩
          have hcounted := (Counted.refl usage).accumulate { content := message }
            (resolvePlannerLlm set env.cooledDown llmConfig toolIterations).2
          simp only [hnone, if_true, hlabel]
          exact hcounted
        · cases h
      · cases h
    · rw [if_neg hlimit] at h
      cases h

/-- the totals are the sums of the turns -/
structure Usage.Sums (u : Usage) : Prop where
  tokensIn : u.tokensIn = (u.turns.map Turn.tokensIn).sum
  tokensOut : u.tokensOut = (u.turns.map Turn.tokensOut).sum
  cacheRead : u.cacheReadTokens = (u.turns.map Turn.cacheReadTokens).sum
  cacheCreation : u.cacheCreationTokens = (u.turns.map Turn.cacheCreationTokens).sum

theorem Counted.sums {u' : Usage} {ts : List Turn} (h : Counted u u' ts) (hu : u.Sums) : u'.Sums := by
  refine ⟨?_, ?_, ?_, ?_⟩
  · rw [h.tokensIn, h.turns, map_append, sum_append, hu.tokensIn]
  · rw [h.tokensOut, h.turns, map_append, sum_append, hu.tokensOut]
  · rw [h.cacheRead, h.turns, map_append, sum_append, hu.cacheRead]
  · rw [h.cacheCreation, h.turns, map_append, sum_append, hu.cacheCreation]

/-- a turn of the planner counts what it received, or it received nothing and counts nothing -/
theorem plannerNode_counted (cfg : Config) (set : PlannerSettings) (py : Interp) (llmConfig : Option Llm) (env : PlannerEnv)
    (s : State) :
    let turn := plannerNode cfg set py llmConfig env s
    (turn.received = [] ∧ turn.patch.usage = s.usage) ∨ Counted s.usage turn.patch.usage
        (failedTurns set env llmConfig s.usage.toolIterations ++ receivedTurns turn.received) := by
  unfold plannerNode
  dsimp only
  split
  · exact .inl ⟨rfl, rfl⟩
  · rename_i p hopen
    have hpending := (((openTurn_pending hopen).fillEmpty s.synthesisForced).retryWithoutTools env (firstPrompt env s)
      s.usage.toolIterations).meetContract env (firstPrompt env s) (env.contract s.messages)
    right
    generalize ((p.fillEmpty s.synthesisForced).retryWithoutTools env (firstPrompt env s) s.usage.toolIterations).meetContract
      env (firstPrompt env s) (env.contract s.messages) = q at hpending
    obtain ⟨earlier, r, hreceived, hturn, hcounted⟩ := hpending.last
    have hfinal := hcounted.accumulate q.response q.label
    rw [hturn, append_assoc] at hfinal
    simp only [finishTurn, hpending.notRecorded, if_false, Bool.false_eq_true]
    simpa [receivedTurns, hreceived] using hfinal

theorem failedTurns_zero {t : Turn} (h : t ∈ failedTurns set env llmConfig toolIterations) : ∃ message,
      t = turnOf (resolvePlannerLlm set env.cooledDown llmConfig toolIterations).1 { content := message } := by
  unfold failedTurns at h
  split at h
  · rename_i message _
    split_ifs at h
    · exact ⟨message, mem_singleton.1 h⟩
    · cases h
  · cases h

theorem sum_failed_received (f : Turn → ℤ) (hzero : ∀ llm message, f (turnOf llm { content := message }) = 0)
    (received : List (Llm × Response)) :
    ((failedTurns set env llmConfig toolIterations ++ receivedTurns received).map f).sum =
      (received.map (fun x => f (turnOf x.1 x.2))).sum := by
  have hfailed : ((failedTurns set env llmConfig toolIterations).map f).sum = 0 := by
    apply sum_eq_zero
    intro x hx
    obtain ⟨t, ht, rfl⟩ := mem_map.1 hx
    obtain ⟨message, rfl⟩ := failedTurns_zero ht
    exact hzero _ _
  rw [map_append, sum_append, hfailed, zero_add, receivedTurns, map_map]
  rfl

/-- **Token accounting.** On every path of a turn, and for every usage before it, the totals grow by the usage of every
response received, each counted once; the turns that are added are those of the responses, under the model that gave each,
after one without tokens when the first model was rate limited; so totals that were the sums of the turns still are. -/
theorem planner_usage_exact (cfg : Config) (set : PlannerSettings) (py : Interp) (llmConfig : Option Llm) (env : PlannerEnv)
    (s : State) :
    let turn := plannerNode cfg set py llmConfig env s
    let u := turn.patch.usage
    (u.tokensIn = s.usage.tokensIn + (turn.received.map (fun x => (extractUsage x.2).tokensIn)).sum ∧
      u.tokensOut = s.usage.tokensOut + (turn.received.map (fun x => (extractUsage x.2).tokensOut)).sum ∧
      u.cacheReadTokens = s.usage.cacheReadTokens +
        (turn.received.map (fun x => (extractUsage x.2).cacheReadInputTokens)).sum ∧
      u.cacheCreationTokens = s.usage.cacheCreationTokens +
        (turn.received.map (fun x => (extractUsage x.2).cacheCreationInputTokens)).sum) ∧
    (∃ failed, u.turns = s.usage.turns ++ failed ++ turn.received.map (fun x => turnOf x.1 x.2) ∧ ∀ t ∈ failed, ∃ message,
        t = turnOf (resolvePlannerLlm set env.cooledDown llmConfig s.usage.toolIterations).1 { content := message }) ∧
    (s.usage.Sums → u.Sums) := by
  rcases plannerNode_counted cfg set py llmConfig env s with ⟨hnone, husage⟩ | hcounted
  · dsimp only
    rw [hnone, husage]
    refine ⟨by simp, ⟨[], by simp, ?_⟩, id⟩
    intro t ht
    cases ht
  · refine ⟨⟨?_, ?_, ?_, ?_⟩, ⟨_, ?_, fun t ht => failedTurns_zero ht⟩, hcounted.sums⟩
    · rw [hcounted.tokensIn, sum_failed_received Turn.tokensIn (fun _ _ => rfl)]
      rfl
    · rw [hcounted.tokensOut, sum_failed_received Turn.tokensOut (fun _ _ => rfl)]
      rfl
    · rw [hcounted.cacheRead, sum_failed_received Turn.cacheReadTokens (fun _ _ => rfl)]
      rfl
    · rw [hcounted.cacheCreation, sum_failed_received Turn.cacheCreationTokens (fun _ _ => rfl)]
      rfl
    · rw [hcounted.turns, append_assoc]
      rfl

end Teardrop.Agent
