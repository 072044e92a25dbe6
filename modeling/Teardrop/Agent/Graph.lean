/-
The agent graph (`agent/graph.py`): the planner, the tool executor and the UI generator, and the two routers between them.

A `Thread` is what the checkpointer keeps of a conversation, with the node that runs next. `invoke` starts a run: a new human
message, fresh metadata and, depending on how the input is passed, no plan or the plan of the run before. `advance` is one
superstep; a node that raises ends the run at the checkpoint before it. What the UI generator writes is left out.
-/
import Teardrop.Agent.Planner
import Teardrop.Agent.PlanRuns

namespace Teardrop.Agent

open Teardrop.Runs Progress

/-! ## The graph -/

inductive Node where
  | planner
  | toolExecutor
  | uiGenerator
  | finished
deriving DecidableEq

def routeAfterPlanner (s : State) : Node := if s.taskStatus = .executing then .toolExecutor else .uiGenerator

def routeAfterTools (cfg : Config) (s : State) : Node :=
  if s.taskStatus = .planning then
    match s.plan with
    | some p => if p.isDone then .uiGenerator else .planner
    | none => if (s.usage.toolIterations : ℤ) ≥ cfg.agentMaxToolIterations then .uiGenerator else .planner
  else .uiGenerator

/-- a conversation: its checkpoint, the node that runs next, and how often the current run entered `tool_executor` -/
structure Thread where
  state : State := {}
  node : Node := .finished
  entries : ℕ := 0

/-- the input of a run: `plan` is part of it or not -/
def Thread.invoke (t : Thread) (message : PyStr) (excluded : List PyStr) (keepsPlan : Bool) : Thread :=
  { state :=
      { messages := t.state.messages ++ [.human message]
        excludedToolNames := excluded
        plan := if keepsPlan then t.state.plan else none }
    node := .planner }

/-- what a superstep meets -/
structure Round where
  llmConfig : Option Llm := none
  planner : PlannerEnv
  tools : Env

def Thread.advance (cfg : Config) (set : PlannerSettings) (py : Interp) (t : Thread) (r : Round) : Thread :=
  match t.node with
  | .planner =>
    let s := t.state.merge (plannerNode cfg set py r.llmConfig r.planner t.state).patch
    { t with state := s, node := routeAfterPlanner s }
  | .toolExecutor =>
    match toolExecutorNode cfg py r.tools t.state with
    | .ok patch =>
      let s := t.state.merge patch
      { state := s, node := routeAfterTools cfg s, entries := t.entries + 1 }
    | .error _ => { t with node := .finished, entries := t.entries + 1 }
  | .uiGenerator => { t with node := .finished }
  | .finished => t

/-! ## What the nodes do to the count of iterations -/

variable {set : PlannerSettings} {cfg : Config} {py : Interp} {t : Thread}

theorem openTurn_iterations {env : PlannerEnv} {llmConfig : Option Llm} {usage : Usage} {toolIterations : ℕ}
    {messages : List Message} {p : Progress} (h : openTurn set env llmConfig usage toolIterations messages = .inr p) :
    p.usage.toolIterations = usage.toolIterations := by
  unfold openTurn at h
  dsimp only at h
  split at h
  · cases h
    rfl
  · by_cases hlimit : ‹Bool› = true ∧ llmConfig.isNone = true
    · rw [if_pos hlimit] at h
      split at h
      · split at h
        · cases h
          rfl
        · cases h
      · cases h
    · rw [if_neg hlimit] at h
      cases h

variable (p : Progress) {n : ℕ}

theorem Progress.fillEmpty_usage (forced : Bool) : (p.fillEmpty forced).usage = p.usage := by
  unfold fillEmpty
  split_ifs <;> rfl

theorem Progress.retry_iterations (env : PlannerEnv) (messages : List Message) (toolIterations : ℕ) :
    (p.retryWithoutTools env messages toolIterations).usage.toolIterations = p.usage.toolIterations := by
  unfold retryWithoutTools
  by_cases hretry : 0 < toolIterations ∧ p.response.toolCalls ≠ []
  · rw [if_pos hretry]
    split <;> rfl
  · rw [if_neg hretry]

theorem Progress.contract_iterations (env : PlannerEnv) (messages : List Message) (contract : Option Contract) :
    (p.meetContract env messages contract).usage.toolIterations = p.usage.toolIterations := by
  unfold meetContract
  split
  · rfl
  · by_cases htools : p.response.toolCalls ≠ []
    · rw [if_pos htools]
    · rw [if_neg htools]
      split
      · rfl
      · split
        · rfl
        · split_ifs <;> rfl

theorem plannerNode_iterations (cfg : Config) (set : PlannerSettings) (py : Interp) (llmConfig : Option Llm)
    (env : PlannerEnv) (s : State) :
    (plannerNode cfg set py llmConfig env s).patch.usage.toolIterations = s.usage.toolIterations := by
  unfold plannerNode
  dsimp only
  split
  · rfl
  · rename_i p hopen
    have hturn : (((p.fillEmpty s.synthesisForced).retryWithoutTools env (firstPrompt env s)
        s.usage.toolIterations).meetContract env (firstPrompt env s) (env.contract s.messages)).usage.toolIterations =
        s.usage.toolIterations := by
      rw [contract_iterations, retry_iterations, fillEmpty_usage]
      exact openTurn_iterations hopen
    unfold finishTurn
    dsimp only
    split_ifs <;> exact hturn

theorem account_iterations {u u' : Usage} {accepted : List Call} {results : List Result}
    (h : account cfg py u accepted results = .ok u') : u'.toolIterations = u.toolIterations + 1 := by
  obtain ⟨_, -, h⟩ := Py.bind_eq_ok h
  obtain ⟨_, -, h⟩ := Py.bind_eq_ok h
  obtain ⟨_, -, h⟩ := Py.bind_eq_ok h
  cases h
  rfl

/-- a batch that goes back to planning is counted; the active plan, if there is one, is at its next stage -/
theorem toolExecutorNode_planning {env : Env} {s : State} {patch : Patch} (h : toolExecutorNode cfg py env s = .ok patch)
    (hstatus : patch.taskStatus = .planning) :
    patch.usage.toolIterations = s.usage.toolIterations + 1 ∧
      ((∃ p ids, s.activePlan = some p ∧ patch.plan = some (p.advance ids)) ∨
        (s.activePlan = none ∧ patch.plan = s.plan)) := by
  have hplan : ∀ calls : List Call, (∃ p ids, s.activePlan = some p ∧ (match s.activePlan with
        | some p => some (p.advance (calls.map Call.id))
        | none => s.plan) = some (p.advance ids)) ∨
      (s.activePlan = none ∧ (match s.activePlan with
        | some p => some (p.advance (calls.map Call.id))
        | none => s.plan) = s.plan) := by
    intro calls
    cases s.activePlan with
    | none => exact .inr ⟨rfl, rfl⟩
    | some p => exact .inl ⟨p, calls.map Call.id, rfl, rfl⟩
  rcases toolExecutorNode_ok h with ⟨-, rfl⟩ | ⟨calls, accepted, skipped, -, -, hpatch⟩
  · cases hstatus
  · rcases hpatch with ⟨-, rfl⟩ | ⟨-, usage, husage, rfl⟩
    · exact ⟨rfl, hplan calls⟩
    · split_ifs at hstatus ⊢ with hpending
      · cases hstatus
      · exact ⟨account_iterations husage, hplan calls⟩

theorem routeAfterTools_planner {env : Env} {s : State} {patch : Patch} (h : toolExecutorNode cfg py env s = .ok patch)
    (hroute : routeAfterTools cfg (s.merge patch) = .planner) :
    patch.usage.toolIterations = s.usage.toolIterations + 1 ∧
      ((patch.usage.toolIterations : ℤ) < cfg.agentMaxToolIterations ∨
        ∃ p, s.activePlan = some p ∧ p.currentStageIndex + 1 < p.stages.length) := by
  unfold routeAfterTools at hroute
  by_cases hstatus : (s.merge patch).taskStatus = .planning
  · rw [if_pos hstatus] at hroute
    obtain ⟨hcount, hplan⟩ := toolExecutorNode_planning h hstatus
    refine ⟨hcount, ?_⟩
    split at hroute
    · rename_i q hq
      split_ifs at hroute with hdone
      rcases hplan with ⟨p, ids, hactive, hnext⟩ | ⟨hactive, hnext⟩
      · have hqp : q = p.advance ids := Option.some.inj (hq.symm.trans hnext)
        rw [hqp] at hdone
        simp only [Plan.isDone, Plan.advance, ge_iff_le, decide_eq_true_eq, not_le] at hdone
        exact .inr ⟨p, hactive, hdone⟩
      · -- without an active plan the plan of the state is done
        have hsome : s.plan = some q := hnext.symm.trans hq
        rw [activePlan_of_plan hsome (by simpa using hdone)] at hactive
        cases hactive
    · split_ifs at hroute with hcap
      exact .inl (not_le.1 hcap)
  · rw [if_neg hstatus] at hroute
    cases hroute

theorem routeAfterTools_cases (cfg : Config) (s : State) :
    routeAfterTools cfg s = .planner ∨ routeAfterTools cfg s = .uiGenerator := by
  unfold routeAfterTools
  by_cases hstatus : s.taskStatus = .planning
  · rw [if_pos hstatus]
    split <;> exact (ite_eq_or_eq _ _ _).symm
  · rw [if_neg hstatus]
    exact .inr rfl

/-! ## The cap -/

/-- a stage of a plan runs only while the cap is not reached by it, or it is the last -/
def StageFits (cfg : Config) (t : Thread) (_ : Round) : Prop :=
  t.node = .toolExecutor → ∀ p, t.state.activePlan = some p →
    (t.state.usage.toolIterations + 1 : ℤ) < cfg.agentMaxToolIterations ∨ (p.stages.length : ℤ) ≤ p.currentStageIndex + 1

/-- after `n` supersteps of a run -/
structure Bounded (cfg : Config) (n : ℕ) (t : Thread) : Prop where
  /-- every entry of the run was counted, and the cap is not reached -/
  looping : t.node = .planner ∨ t.node = .toolExecutor →
    t.state.usage.toolIterations = t.entries ∧ (t.entries : ℤ) < cfg.agentMaxToolIterations
  planner : t.node = .planner → n = 2 * t.entries
  toolExecutor : t.node = .toolExecutor → n = 2 * t.entries + 1
  uiGenerator : t.node = .uiGenerator → (n : ℤ) ≤ 2 * cfg.agentMaxToolIterations
  entries : (t.entries : ℤ) ≤ cfg.agentMaxToolIterations

theorem bounded_invoke (hmax : 1 ≤ cfg.agentMaxToolIterations) (t : Thread) (message : PyStr) (excluded : List PyStr)
    (keepsPlan : Bool) : Bounded cfg 0 (t.invoke message excluded keepsPlan) where
  looping := fun _ => ⟨rfl, by change (0 : ℤ) < _; omega⟩
  planner := fun _ => rfl
  toolExecutor := fun h => by cases h
  uiGenerator := fun h => by cases h
  entries := by change (0 : ℤ) ≤ _; omega

theorem bounded_finished (hnode : t.node = .finished) (hentries : (t.entries : ℤ) ≤ cfg.agentMaxToolIterations) :
    Bounded cfg n t where
  looping := fun h => by rcases h with h | h <;> (rw [hnode] at h; cases h)
  planner := fun h => by rw [hnode] at h; cases h
  toolExecutor := fun h => by rw [hnode] at h; cases h
  uiGenerator := fun h => by rw [hnode] at h; cases h
  entries := hentries

theorem Bounded.planner_step (r : Round) (h : Bounded cfg n t) (hnode : t.node = .planner) :
    Bounded cfg (n + 1) (t.advance cfg set py r) := by
  obtain ⟨hcount, hbelow⟩ := h.looping (.inl hnode)
  have hn := h.planner hnode
  have hsame := plannerNode_iterations cfg set py r.llmConfig r.planner t.state
  simp only [Thread.advance, hnode]
  generalize plannerNode cfg set py r.llmConfig r.planner t.state = turn at hsame ⊢
  have hroute : routeAfterPlanner (t.state.merge turn.patch) = .toolExecutor ∨
      routeAfterPlanner (t.state.merge turn.patch) = .uiGenerator := by
    unfold routeAfterPlanner
    split_ifs
    · exact .inl rfl
    · exact .inr rfl
  refine ⟨fun _ => ⟨hsame.trans hcount, hbelow⟩, fun hnext => ?_, fun _ => ?_, fun _ => ?_, hbelow.le⟩
  · rcases hroute with hroute | hroute
    · cases hroute.symm.trans hnext
    · cases hroute.symm.trans hnext
  · change n + 1 = 2 * t.entries + 1
    omega
  · omega

theorem Bounded.tools_step {r : Round} (h : Bounded cfg n t) (hnode : t.node = .toolExecutor) (hfits : StageFits cfg t r) :
    Bounded cfg (n + 1) (t.advance cfg set py r) := by
  obtain ⟨hcount, hbelow⟩ := h.looping (.inr hnode)
  have hn := h.toolExecutor hnode
  simp only [Thread.advance, hnode]
  split
  · rename_i patch hpatch
    have hback : routeAfterTools cfg (t.state.merge patch) = .planner →
        patch.usage.toolIterations = t.entries + 1 ∧ ((t.entries + 1 : ℕ) : ℤ) < cfg.agentMaxToolIterations := by
      intro hroute
      obtain ⟨hnext, hcap | ⟨p, hactive, hleft⟩⟩ := routeAfterTools_planner hpatch hroute
      · rw [hnext, hcount] at hcap
        exact ⟨by rw [hnext, hcount], hcap⟩
      · refine ⟨by rw [hnext, hcount], ?_⟩
        rcases hfits hnode p hactive with hfits | hlast
        · rw [hcount] at hfits
          exact_mod_cast hfits
        · omega
    have hne := routeAfterTools_cases cfg (t.state.merge patch)
    refine ⟨fun hnext => ?_, fun _ => ?_, fun hnext => ?_, fun _ => ?_, ?_⟩
    · rcases hnext with hnext | hnext
      · exact hback hnext
      · rcases hne with hne | hne
        · cases hne.symm.trans hnext
        · cases hne.symm.trans hnext
    · change n + 1 = 2 * (t.entries + 1)
      omega
    · rcases hne with hne | hne
      · cases hne.symm.trans hnext
      · cases hne.symm.trans hnext
    · omega
    · push_cast
      omega
  · refine bounded_finished rfl ?_
    push_cast
    omega

theorem Bounded.advance {r : Round} (h : Bounded cfg n t) (hfits : StageFits cfg t r) :
    Bounded cfg (n + 1) (t.advance cfg set py r) := by
  cases hnode : t.node with
  | planner => exact h.planner_step r hnode
  | toolExecutor => exact h.tools_step hnode hfits
  | uiGenerator =>
    simp only [Thread.advance, hnode]
    exact bounded_finished rfl h.entries
  | finished =>
    simp only [Thread.advance, hnode]
    exact bounded_finished hnode h.entries

theorem Bounded.run {rounds : List Round} (h : Bounded cfg n t)
    (hlegal : Legal (Thread.advance cfg set py) (StageFits cfg) t rounds) :
    Bounded cfg (n + rounds.length) (Runs.run (Thread.advance cfg set py) t rounds) := by
  induction rounds generalizing n t with
  | nil => exact h
  | cons r rounds ih =>
    have hrest := ih (h.advance hlegal.1) hlegal.2
    rw [List.length_cons, Nat.add_comm rounds.length 1, ← Nat.add_assoc]
    exact hrest

/-- **The cap of a run.** Whatever the models answer and the tools do, a run enters `tool_executor` at most
`agent_max_tool_iterations` times and is over after at most twice as many supersteps and one, when the cap is positive and
every stage of a plan that is not its last runs below the cap. -/
theorem tool_entries_bounded (cfg : Config) (set : PlannerSettings) (py : Interp) (t : Thread) (message : PyStr)
    (excluded : List PyStr) (keepsPlan : Bool) (rounds : List Round) (hmax : 1 ≤ cfg.agentMaxToolIterations)
    (hlegal : Legal (Thread.advance cfg set py) (StageFits cfg) (t.invoke message excluded keepsPlan) rounds) :
    let last := run (Thread.advance cfg set py) (t.invoke message excluded keepsPlan) rounds
    (last.entries : ℤ) ≤ cfg.agentMaxToolIterations ∧
      (2 * cfg.agentMaxToolIterations + 1 ≤ rounds.length → last.node = .finished) := by
  have hbounded := (bounded_invoke hmax t message excluded keepsPlan).run hlegal
  refine ⟨hbounded.entries, fun hlong => ?_⟩
  cases hnode : (run (Thread.advance cfg set py) (t.invoke message excluded keepsPlan) rounds).node with
  | planner =>
    have hlooping := hbounded.looping (.inl hnode)
    have hn := hbounded.planner hnode
    omega
  | toolExecutor =>
    have hlooping := hbounded.looping (.inr hnode)
    have hn := hbounded.toolExecutor hnode
    omega
  | uiGenerator =>
    have hn := hbounded.uiGenerator hnode
    omega
  | finished => rfl

/-- a model that always answers with `text` -/
def answering (text : PyStr) : PlannerEnv :=
  { system := [], primary := .response { content := text }, fallback := .failed [] false, retry := .failed [] false,
    repair := .failed [] false, contract := fun _ => none, cooledDown := fun _ => false, cooledDownLater := fun _ => false,
    laxInt := asInt }

def sampleSettings : PlannerSettings := { agentLlm := ⟨PyStr.ofString "p", PyStr.ofString "m"⟩, hasKey := fun _ => true }

/-- the default cap of four, in compiler mode -/
def compilerConfig : Config := { quoteConfig with agentCompilerModeEnabled := true }

/-- every turn of the planner emits the plan of two stages -/
def planningRound : Round :=
  { planner := answering (samplePlanText "]\x7d, \x7b\"stage_id\": 1, \"calls\": ["), tools := allReturn 0 }

/-- the two stages run below the cap -/
theorem tool_entries_bounded_staged :
    let last := run (Thread.advance compilerConfig sampleSettings samplePy) (Thread.invoke {} [] [] false)
      [planningRound, planningRound]
    last.entries = 1 ∧ (last.entries : ℤ) ≤ compilerConfig.agentMaxToolIterations :=
  have hlegal : Legal (Thread.advance compilerConfig sampleSettings samplePy) (StageFits compilerConfig)
      (Thread.invoke {} [] [] false) [planningRound, planningRound] := by
    refine ⟨?_, ?_, trivial⟩
    · intro hnode
      cases hnode
    · rintro - p -
      exact .inl (by decide +kernel)
  ⟨by decide +kernel, (tool_entries_bounded compilerConfig sampleSettings samplePy {} [] [] false
    [planningRound, planningRound] (by decide) hlegal).1⟩

/-- a planner that replaces its plan on every turn enters `tool_executor` a fifth time under a cap of four -/
theorem plan_ignores_cap :
    let last := run (Thread.advance compilerConfig sampleSettings samplePy) (Thread.invoke {} [] [] false)
      (List.replicate 10 planningRound)
    compilerConfig.agentMaxToolIterations = 4 ∧ last.entries = 5 ∧ last.node = .planner := by
  decide +kernel

end Teardrop.Agent
