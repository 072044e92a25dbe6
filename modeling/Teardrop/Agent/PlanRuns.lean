/-
The execution of a plan: `tool_executor_node`, round after round, until the plan is done.

As long as no batch times out, a round that returns advances the plan as `Plan.next` does, whatever the tools do, so the
rounds follow `Plan.walk`.
-/
import Teardrop.Agent.Answers
import Teardrop.Agent.PlanWalk

namespace Teardrop.Agent

open List Plan

/-! ## Rounds -/

section Rounds

variable (cfg : Config) (py : Interp) (envs : ℕ → Env) (s : State)

/-- the state after `n` rounds; a plan that is done is left alone -/
def roundState : ℕ → Py.Call State
  | 0 => .ok s
  | n + 1 => do
    let t ← roundState n
    if t.activePlan.isSome then (toolExecutorNode cfg py (envs n) t).map t.merge else .ok t

/-- the ids of the calls that the `n`-th round presents to the executor -/
def presentedIn (n : ℕ) : List PyStr :=
  match roundState cfg py envs s n with
  | .ok t =>
    if t.activePlan.isSome then
      match incomingCalls t with
      | .ok (some calls) => calls.map Call.id
      | _ => []
    else []
  | .error _ => []

/-- the rounds end without raising, every call of the plan was presented once, and none before all it depends on -/
def RunComplete (plan : Plan) : Prop :=
  ∃ N final, roundState cfg py envs s N = .ok final ∧ final.activePlan = none ∧
    (∀ c ∈ plan.calls, ((List.range N).flatMap (presentedIn cfg py envs s)).count c.callId = 1) ∧
    ∀ n < N, ∀ c ∈ plan.calls, c.callId ∈ presentedIn cfg py envs s n →
      ∀ d ∈ c.dependsOn, ∃ m < n, d ∈ presentedIn cfg py envs s m

/-- no round raises over the targets of a call or over the result of one -/
def QuietRounds : Prop :=
  ∀ n t calls, roundState cfg py envs s n = .ok t → t.activePlan.isSome = true → incomingCalls t = .ok (some calls) →
    TargetsReadable cfg py t.excludedToolNames t.usage [] calls ∧
      ∀ j ∈ jobsOf (envs n) (acceptedCalls cfg py t), (j.result cfg py t.usage).accounted py = true

end Rounds

/-! ## One round -/

variable {t : State} {p : Plan} {calls : List Call} {n : ℕ}

theorem activePlan_of_plan (h : t.plan = some p) (hdone : p.isDone = false) : t.activePlan = some p := by
  simp [State.activePlan, h, hdone]

theorem activePlan_done (h : t.plan = some p) (hdone : p.isDone) : t.activePlan = none := by
  simp [State.activePlan, h, hdone]

theorem incoming_ids (hactive : t.activePlan = some p) (h : incomingCalls t = .ok (some calls)) :
    calls.map Call.id = p.presents := by
  unfold incomingCalls at h
  unfold presents
  rw [hactive] at h
  dsimp only at h
  cases hstage : pyIndex p.stages p.currentStageIndex with
  | none =>
    rw [hstage] at h
    cases h
  | some stage =>
    rw [hstage] at h
    cases h
    rw [map_map]
    rfl

theorem incoming_plan (hactive : t.activePlan = some p) :
    (∃ calls, incomingCalls t = .ok (some calls)) ↔ ∃ stage, pyIndex p.stages p.currentStageIndex = some stage := by
  unfold incomingCalls
  rw [hactive]
  dsimp only
  split
  · rename_i stage hstage
    exact ⟨fun _ => ⟨stage, hstage⟩, fun _ => ⟨_, rfl⟩⟩
  · rename_i hnone
    rw [hnone]
    exact ⟨nofun, nofun⟩

theorem not_pending {cfg : Config} {u : Usage} {env : Env} (h : ∀ i, env.behaviour i ≠ .pending) (accepted : List Call) :
    ∀ j ∈ jobsOf env accepted, j.isPending cfg u = false := by
  intro j hj
  obtain ⟨i, hi, rfl⟩ := mem_iff_getElem.1 hj
  have hne := h i
  simp [jobsOf, Job.isPending]

theorem node_advances {cfg : Config} {py : Interp} {env : Env} {patch : Patch} (hquiet : ∀ i, env.behaviour i ≠ .pending)
    (hactive : t.activePlan = some p) (h : toolExecutorNode cfg py env t = .ok patch) : patch.plan = some p.next := by
  rcases toolExecutorNode_ok h with ⟨hnone, -⟩ | ⟨calls, accepted, skipped, hcalls, hsuppress, hpatch⟩
  · unfold incomingCalls at hnone
    rw [hactive] at hnone
    dsimp only at hnone
    split at hnone <;> cases hnone
  · rw [Plan.next, ← incoming_ids hactive hcalls]
    rcases hpatch with ⟨-, rfl⟩ | ⟨-, usage, -, rfl⟩
    · simp [suppressedPatch, hactive]
    · have hnone : ¬ (jobsOf env accepted).any (Job.isPending cfg t.usage) := by
        rw [any_eq_true]
        rintro ⟨j, hj, hpending⟩
        rw [not_pending hquiet accepted j hj] at hpending
        cases hpending
      rw [if_neg hnone]
      simp [answeredPatch, hactive]

/-! ## The rounds follow the walk -/

theorem Plan.walk_isDone : (p.walk n).isDone ↔ p.rounds ≤ n := by
  rw [← not_lt, lt_rounds, isDone, walk_stages, walk_index]
  simp

section Follow

variable {cfg : Config} {py : Interp} {envs : ℕ → Env} {s : State} {plan : Plan}

theorem roundState_prefix (h : roundState cfg py envs s (n + 1) = .ok t) :
    ∃ t', roundState cfg py envs s n = .ok t' ∧
      ((t'.activePlan.isSome ∧ ∃ patch, toolExecutorNode cfg py (envs n) t' = .ok patch ∧ t = t'.merge patch) ∨
        (t'.activePlan = none ∧ t = t')) := by
  obtain ⟨t', ht', h⟩ := Py.bind_eq_ok h
  refine ⟨t', ht', ?_⟩
  split_ifs at h with hactive
  · obtain ⟨patch, hpatch, heq⟩ := PyJson.except_map_ok h
    exact .inl ⟨hactive, patch, hpatch, heq.symm⟩
  · exact .inr ⟨by simpa using hactive, (Except.ok.inj h).symm⟩

theorem roundState_le {m : ℕ} (hmn : m ≤ n) (h : roundState cfg py envs s n = .ok t) :
    ∃ t', roundState cfg py envs s m = .ok t' := by
  induction n generalizing t with
  | zero =>
    obtain rfl := Nat.le_zero.1 hmn
    exact ⟨t, h⟩
  | succ n ih =>
    rcases Nat.le_succ_iff.1 hmn with hle | rfl
    · obtain ⟨t', ht', -⟩ := roundState_prefix h
      exact ih hle ht'
    · exact ⟨t, h⟩

variable (hquiet : ∀ n i, (envs n).behaviour i ≠ .pending) (hplan : s.plan = some plan)

include hquiet hplan

theorem roundState_plan (hn : n ≤ plan.rounds) (h : roundState cfg py envs s n = .ok t) : t.plan = some (plan.walk n) := by
  induction n generalizing t with
  | zero =>
    cases h
    exact hplan
  | succ n ih =>
    obtain ⟨t', ht', hstep⟩ := roundState_prefix h
    have hwalk := ih (Nat.le_of_succ_le hn) ht'
    have hnot : (plan.walk n).isDone = false := by
      rw [← Bool.not_eq_true, walk_isDone]
      omega
    have hactive := activePlan_of_plan hwalk hnot
    rcases hstep with ⟨-, patch, hpatch, rfl⟩ | ⟨hnone, -⟩
    · exact node_advances (hquiet n) hactive hpatch
    · rw [hactive] at hnone
      cases hnone

theorem roundState_active (hn : n < plan.rounds) (h : roundState cfg py envs s n = .ok t) :
    t.activePlan = some (plan.walk n) := by
  apply activePlan_of_plan (roundState_plan hquiet hplan hn.le h)
  rw [← Bool.not_eq_true, walk_isDone]
  omega

theorem roundState_done (hn : plan.rounds ≤ n) (h : roundState cfg py envs s n = .ok t) : t.activePlan = none := by
  induction n generalizing t with
  | zero => exact activePlan_done (roundState_plan hquiet hplan (Nat.zero_le _) h) (walk_isDone.2 hn)
  | succ n ih =>
    rcases Nat.le_succ_iff.1 hn with hle | heq
    · obtain ⟨t', ht', hstep⟩ := roundState_prefix h
      have hnone := ih hle ht'
      rcases hstep with ⟨hsome, -⟩ | ⟨-, rfl⟩
      · rw [hnone] at hsome
        cases hsome
      · exact hnone
    · exact activePlan_done (roundState_plan hquiet hplan heq.ge h) (walk_isDone.2 hn)

theorem presentedIn_walk (hn : n < plan.rounds) (h : roundState cfg py envs s n = .ok t) :
    presentedIn cfg py envs s n = (plan.walk n).presents := by
  have hactive := roundState_active hquiet hplan hn h
  unfold presentedIn
  rw [h]
  dsimp only
  rw [if_pos (by rw [hactive]; rfl)]
  split
  · rename_i calls hcalls
    exact incoming_ids hactive hcalls
  · rename_i hnone
    have hindex : ∀ stage, pyIndex (plan.walk n).stages (plan.walk n).currentStageIndex ≠ some stage := by
      intro stage hstage
      obtain ⟨calls, hcalls⟩ := (incoming_plan hactive).2 ⟨stage, hstage⟩
      exact hnone calls hcalls
    unfold presents
    split
    · exact absurd ‹_› (hindex _)
    · rfl

theorem presentedIn_done (hn : plan.rounds ≤ n) : presentedIn cfg py envs s n = [] := by
  unfold presentedIn
  split
  · rename_i t ht
    rw [roundState_done hquiet hplan hn ht]
    rfl
  · rfl

theorem presented_all {N : ℕ} (hN : plan.rounds ≤ N) {final : State} (h : roundState cfg py envs s N = .ok final) :
    (range N).flatMap (presentedIn cfg py envs s) = (range plan.rounds).flatMap (fun n => (plan.walk n).presents) := by
  obtain ⟨e, rfl⟩ := Nat.exists_eq_add_of_le hN
  rw [range_add, flatMap_append]
  have hafter : ((range e).map (plan.rounds + ·)).flatMap (presentedIn cfg py envs s) = [] := by
    rw [flatMap_eq_nil_iff]
    intro n hn
    obtain ⟨i, -, rfl⟩ := mem_map.1 hn
    exact presentedIn_done hquiet hplan (Nat.le_add_right _ _)
  rw [hafter, append_nil]
  apply flatMap_congr
  intro n hn
  have hlt := mem_range.1 hn
  obtain ⟨t, ht⟩ := roundState_le (hlt.le.trans hN) h
  exact presentedIn_walk hquiet hplan hlt ht

end Follow

/-! ## Complete runs -/

theorem inRange_of_rounds {cfg : Config} {py : Interp} {envs : ℕ → Env} {s : State} {plan : Plan}
    (hplan : s.plan = some plan) {N : ℕ} (hN : plan.rounds ≤ N) {final : State}
    (h : roundState cfg py envs s N = .ok final) : -(plan.stages.length : ℤ) ≤ plan.currentStageIndex := by
  by_cases hdone : plan.rounds = 0
  · unfold rounds at hdone
    omega
  · have hactive : s.activePlan = some plan := by
      apply activePlan_of_plan hplan
      rw [← Bool.not_eq_true]
      exact fun hd => hdone (Nat.le_zero.1 ((walk_isDone (n := 0)).1 hd))
    obtain ⟨t, ht⟩ := roundState_le (show 1 ≤ N by omega) h
    obtain ⟨t', ht', hstep⟩ := roundState_prefix ht
    cases ht'
    rcases hstep with ⟨-, patch, hnode, -⟩ | ⟨hnone, -⟩
    · have hcalls : ∃ calls, incomingCalls s = .ok (some calls) := by
        rcases toolExecutorNode_ok hnode with ⟨hnone, -⟩ | ⟨calls, -, -, hcalls, -⟩
        · unfold incomingCalls at hnone
          rw [hactive] at hnone
          dsimp only at hnone
          split at hnone <;> cases hnone
        · exact ⟨calls, hcalls⟩
      obtain ⟨stage, hstage⟩ := (incoming_plan hactive).1 hcalls
      obtain ⟨k, -, hk⟩ := pyIndex_eq_some.1 hstage
      omega
    · rw [hactive] at hnone
      cases hnone

theorem roundState_returns {cfg : Config} {py : Interp} {envs : ℕ → Env} {s : State} {plan : Plan}
    (hquiet : ∀ n i, (envs n).behaviour i ≠ .pending) (hplan : s.plan = some plan)
    (hrange : -(plan.stages.length : ℤ) ≤ plan.currentStageIndex) (hrounds : QuietRounds cfg py envs s)
    (hn : n ≤ plan.rounds) : ∃ t, roundState cfg py envs s n = .ok t := by
  induction n with
  | zero => exact ⟨s, rfl⟩
  | succ n ih =>
    obtain ⟨t, ht⟩ := ih (Nat.le_of_succ_le hn)
    have hactive := roundState_active hquiet hplan hn ht
    have hsome : t.activePlan.isSome := by rw [hactive]; rfl
    have hlt := lt_rounds.1 (Nat.lt_of_succ_le hn)
    -- the stage of the round: from the front, or from the back while the index is negative
    have hstage : ∃ stage, pyIndex (plan.walk n).stages (plan.walk n).currentStageIndex = some stage := by
      rw [walk_stages, walk_index]
      by_cases hpos : 0 ≤ plan.currentStageIndex + n
      · have hk : (plan.currentStageIndex + n).toNat < plan.stages.length := by omega
        exact ⟨_, pyIndex_eq_some.2 ⟨_, getElem?_eq_getElem hk, .inl (by omega)⟩⟩
      · have hk : (plan.currentStageIndex + n + plan.stages.length).toNat < plan.stages.length := by omega
        exact ⟨_, pyIndex_eq_some.2 ⟨_, getElem?_eq_getElem hk, .inr (by omega)⟩⟩
    obtain ⟨calls, hcalls⟩ := (incoming_plan hactive).2 hstage
    obtain ⟨patch, hpatch⟩ := (toolExecutorNode_ok_iff hcalls).2 (hrounds n t calls ht hsome hcalls)
    refine ⟨t.merge patch, ?_⟩
    simp only [roundState, ht, bind, Except.bind, hsome, if_true, hpatch]
    rfl

/-! ## Tools that the executor does not look into -/

/-- the tools whose arguments or results the executor reads -/
def readTools : List PyStr := getLiquidationRisk :: delegateToAgent :: slotWriters

theorem suppress_mem {cfg : Config} {py : Interp} {excluded : List PyStr} {u : Usage} {accepted all : List Call}
    {skipped : List Message} (h : suppress cfg py excluded u accepted calls = .ok (all, skipped)) :
    ∀ a ∈ all, a ∈ accepted ∨ a ∈ calls := by
  induction calls generalizing accepted skipped with
  | nil =>
    cases h
    exact fun a ha => .inl ha
  | cons c calls ih =>
    intro a ha
    obtain ⟨verdict, -, h⟩ := Py.bind_eq_ok h
    cases verdict with
    | none =>
      rcases ih h a ha with hacc | hcalls
      · rcases mem_append.1 hacc with hacc | hc
        · exact .inl hacc
        · exact .inr (mem_cons.2 (.inl (mem_singleton.1 hc)))
      · exact .inr (mem_cons_of_mem c hcalls)
    | some why =>
      obtain ⟨⟨all', skipped'⟩, hrest, h⟩ := Py.bind_eq_ok h
      cases h
      exact (ih hrest a ha).imp_right (mem_cons_of_mem c)

theorem quiet_of_tools {cfg : Config} {py : Interp} {env : Env} (hcalls : incomingCalls t = .ok (some calls))
    (htools : ∀ c ∈ calls, c.name ∉ readTools) :
    TargetsReadable cfg py t.excludedToolNames t.usage [] calls ∧
      ∀ j ∈ jobsOf env (acceptedCalls cfg py t), (j.result cfg py t.usage).accounted py := by
  have htargets : TargetsReadable cfg py t.excludedToolNames t.usage [] calls := by
    rintro before c after acc skipped rfl - -
    have hne : c.name ≠ getLiquidationRisk := fun heq => htools c (by simp) (heq ▸ mem_cons_self)
    exact ⟨[], by simp [redundancyTargets, hne]⟩
  refine ⟨htargets, fun j hj => ?_⟩
  obtain ⟨accepted, skipped, hsuppress⟩ := (suppress_ok_iff _ _ _ _ _ _).2 htargets
  rw [acceptedCalls_eq hcalls hsuppress] at hj
  have hcall : j.call ∈ accepted := jobsOf_calls env accepted ▸ mem_map_of_mem hj
  have hname := htools j.call ((suppress_mem hsuppress _ hcall).resolve_left not_mem_nil)
  simp only [readTools, mem_cons, not_or] at hname
  have hdefi : j.call.name ≠ getDefiPositions := fun heq => hname.2.2 (by rw [heq]; decide)
  simp [Result.accounted, hdefi, hname.2.1, summarizeIntoSlots, hname.2.2, Except.toBool]

theorem quietRounds_of_tools {cfg : Config} {py : Interp} {envs : ℕ → Env} {s : State} {plan : Plan}
    (hquiet : ∀ n i, (envs n).behaviour i ≠ .pending) (hplan : s.plan = some plan)
    (htools : ∀ c ∈ plan.calls, c.tool ∉ readTools) : QuietRounds cfg py envs s := by
  intro n t calls ht hsome hcalls
  have hn : n < plan.rounds := by
    by_contra hge
    rw [roundState_done hquiet hplan (not_lt.1 hge) ht] at hsome
    cases hsome
  have hactive := roundState_active hquiet hplan hn ht
  apply quiet_of_tools hcalls
  unfold incomingCalls at hcalls
  rw [hactive] at hcalls
  dsimp only at hcalls
  split at hcalls
  · rename_i stage hstage
    cases hcalls
    intro c hc
    obtain ⟨call, hcall, rfl⟩ := mem_map.1 hc
    obtain ⟨k, hk, -⟩ := pyIndex_eq_some.1 hstage
    rw [walk_stages] at hk
    exact htools call (mem_calls.2 ⟨k, stage, hk, (mem_filter.1 hcall).1⟩)
  · cases hcalls

/-! ## The result -/

/-- **Complete plans.** A plan that the parser accepts is executed to its end without raising, each call presented once and
after all it depends on, exactly when it is laid out as `Plan.Layout` says and no round raises over the targets or the result
of a call; this for all tools, as long as no batch times out. -/
theorem plan_run_complete_iff (cfg : Config) (py : Interp) (laxInt : PyJson → Option ℤ) (text : PyStr) (plan : Plan)
    (envs : ℕ → Env) (s : State) (hparse : parsePlanFromText laxInt py.limit text = .ok (some plan))
    (hplan : s.plan = some plan) (hquiet : ∀ n i, (envs n).behaviour i ≠ .pending) :
    RunComplete cfg py envs s plan ↔ plan.Layout ∧ QuietRounds cfg py envs s := by
  obtain ⟨hids, hne, -⟩ := validatePlanDag_ok (parsePlanFromText_ok hparse)
  rw [← walks_iff_layout hids hne]
  constructor
  · rintro ⟨N, final, hfinal, hdone, honce, hordered⟩
    have hN : plan.rounds ≤ N := by
      by_contra hlt
      rw [roundState_active hquiet hplan (not_le.1 hlt) hfinal] at hdone
      cases hdone
    have hpresented : ∀ n < plan.rounds, presentedIn cfg py envs s n = (plan.walk n).presents := by
      intro n hn
      obtain ⟨t, ht⟩ := roundState_le (hn.le.trans hN) hfinal
      exact presentedIn_walk hquiet hplan hn ht
    refine ⟨⟨inRange_of_rounds hplan hN hfinal, fun c hc => ?_, fun n hn c hc hx d hd => ?_⟩, ?_⟩
    · rw [← presented_all hquiet hplan hN hfinal]
      exact honce c hc
    · rw [← hpresented n hn] at hx
      obtain ⟨m, hm, hd'⟩ := hordered n (lt_of_lt_of_le hn hN) c hc hx d hd
      exact ⟨m, hm, hpresented m (hm.trans hn) ▸ hd'⟩
    · intro n t calls ht hsome hcalls
      have hn : n < plan.rounds := by
        by_contra hge
        rw [roundState_done hquiet hplan (not_lt.1 hge) ht] at hsome
        cases hsome
      obtain ⟨t', ht'⟩ := roundState_le (Nat.succ_le_of_lt (lt_of_lt_of_le hn hN)) hfinal
      obtain ⟨t₀, ht₀, hstep⟩ := roundState_prefix ht'
      rw [ht] at ht₀
      cases ht₀
      rcases hstep with ⟨-, patch, hnode, -⟩ | ⟨hnone, -⟩
      · exact (toolExecutorNode_ok_iff hcalls).1 ⟨patch, hnode⟩
      · rw [hnone] at hsome
        cases hsome
  · rintro ⟨hwalks, hrounds⟩
    obtain ⟨final, hfinal⟩ := roundState_returns hquiet hplan hwalks.inRange hrounds (le_refl plan.rounds)
    have hpresented : ∀ n < plan.rounds, presentedIn cfg py envs s n = (plan.walk n).presents := by
      intro n hn
      obtain ⟨t, ht⟩ := roundState_le hn.le hfinal
      exact presentedIn_walk hquiet hplan hn ht
    refine ⟨plan.rounds, final, hfinal, roundState_done hquiet hplan (le_refl _) hfinal, fun c hc => ?_,
      fun n hn c hc hx d hd => ?_⟩
    · rw [presented_all hquiet hplan (le_refl _) hfinal]
      exact hwalks.once c hc
    · rw [hpresented n hn] at hx
      obtain ⟨m, hm, hd'⟩ := hwalks.ordered n hn c hc hx d hd
      exact ⟨m, hm, (hpresented m (hm.trans hn)).symm ▸ hd'⟩

/-- a plan with a call `a`, then `between`, then a call `b` that depends on it -/
def samplePlanText (between : String) : PyStr :=
  PyStr.ofString ("<plan>\x7b\"stages\": [\x7b\"stage_id\": 0, \"calls\": [\x7b\"call_id\": \"a\", " ++
    "\"tool\": \"quote\"\x7d" ++ between ++ "\x7b\"call_id\": \"b\", \"tool\": \"quote\", " ++
    "\"depends_on\": [\"a\"]\x7d]\x7d]\x7d</plan>")

def sampleCallA : PlanCall := { callId := PyStr.ofString "a", tool := PyStr.ofString "quote" }

def sampleCallB : PlanCall :=
  { callId := PyStr.ofString "b", tool := PyStr.ofString "quote", dependsOn := [PyStr.ofString "a"] }

/-- the two calls in two stages -/
def stagedPlan : Plan := { stages := [⟨0, [sampleCallA]⟩, ⟨1, [sampleCallB]⟩] }

theorem stagedPlan_layout : stagedPlan.Layout := by
  refine ⟨by decide, ?_, ?_, ?_⟩
  · rintro k c -
    exact Int.natCast_nonneg k
  · rintro k c hat d hd
    have hlt := hat.lt
    obtain ⟨stage, hstage, hc⟩ := hat
    match k with
    | 0 =>
      cases hstage
      obtain rfl := mem_singleton.1 hc
      cases hd
    | 1 =>
      cases hstage
      obtain rfl := mem_singleton.1 hc
      obtain rfl := mem_singleton.1 hd
      exact ⟨0, Nat.one_pos, sampleCallA, ⟨_, rfl, mem_singleton.2 rfl⟩, rfl⟩
    | k + 2 => exact absurd hlt (by simp [stagedPlan])
  · rintro k c hat hwrap
    have hlt := hat.lt
    simp only [stagedPlan] at hwrap hlt
    omega

/-- every tool returns in every round -/
def allReturn (_ : ℕ) : Env := allBehave (.ran (.returned .null))

theorem allReturn_quiet (n i : ℕ) : (allReturn n).behaviour i ≠ .pending := by
  intro h
  cases h

/-- two stages that are executed to the end -/
theorem plan_run_complete_staged :
    parsePlanFromText asInt samplePy.limit (samplePlanText "]\x7d, \x7b\"stage_id\": 1, \"calls\": [") =
      .ok (some stagedPlan) ∧
    RunComplete quoteConfig samplePy allReturn { plan := some stagedPlan } stagedPlan :=
  have hparse : parsePlanFromText asInt samplePy.limit
      (samplePlanText "]\x7d, \x7b\"stage_id\": 1, \"calls\": [") = .ok (some stagedPlan) := by decide +kernel
  ⟨hparse, (plan_run_complete_iff quoteConfig samplePy asInt _ stagedPlan _ _ hparse rfl allReturn_quiet).2
    ⟨stagedPlan_layout, quietRounds_of_tools allReturn_quiet rfl (by decide)⟩⟩

/-- two calls in one stage, one of which depends on the other -/
def flatPlan : Plan := { stages := [⟨0, [sampleCallA, sampleCallB]⟩] }

/-- the parser accepts a plan with a dependency inside a stage, and its second call is never presented -/
theorem same_stage_dependency_skipped :
    parsePlanFromText asInt samplePy.limit (samplePlanText ", ") = .ok (some flatPlan) ∧
    ¬ RunComplete quoteConfig samplePy allReturn { plan := some flatPlan } flatPlan := by
  refine ⟨by decide +kernel, ?_⟩
  rintro ⟨N, final, hfinal, hdone, honce, -⟩
  have hN : flatPlan.rounds ≤ N := by
    by_contra hlt
    rw [roundState_active allReturn_quiet rfl (not_le.1 hlt) hfinal] at hdone
    cases hdone
  have hone := honce sampleCallB (by decide)
  rw [presented_all allReturn_quiet rfl hN hfinal] at hone
  exact absurd hone (by decide +kernel)

end Teardrop.Agent
