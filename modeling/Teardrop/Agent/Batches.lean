/-
Runs of `tool_executor_node`: the batches of one agent run, one after the other.

Between two batches the planner may put any messages and any plan into the state; of the usage it changes only the token
counts, which the node does not read. A batch that raises ends the run. `executed` collects the calls that were accepted,
also those of a batch that timed out or raised afterwards.
-/
import Teardrop.Core.Runs
import Teardrop.Agent.Executor

namespace Teardrop.Agent

open List

/-! ## Runs -/

/-- what a batch finds: the planner's messages and plan, and the tools -/
structure Batch where
  messages : List Message
  plan : Option Plan
  env : Env

structure Run where
  state : State
  executed : List Call := []
  /-- delegations that were started -/
  started : ℕ := 0
  /-- the costs of the delegations that returned -/
  returned : List ℤ := []
  halted : Bool := false

/-- a fresh run -/
def Run.start (excluded : List PyStr) : Run := { state := { excludedToolNames := excluded } }

/-- the calls a batch executes -/
def acceptedCalls (cfg : Config) (py : Interp) (s : State) : List Call :=
  match incomingCalls s with
  | .ok (some calls) =>
    match suppress cfg py s.excludedToolNames s.usage [] calls with
    | .ok (accepted, _) => accepted
    | .error _ => []
  | _ => []

/-- the job is a delegation, and its quota lets it start -/
def Job.starts (cfg : Config) (u : Usage) (j : Job) : Bool := j.call.name = delegateToAgent && !quotaExceeded cfg u

/-- the cost a delegation returned -/
def Job.cost? (cfg : Config) (u : Usage) (j : Job) : Option ℤ :=
  if j.starts cfg u then
    match j.behaviour with
    | .ran (.returned _) => some j.delegation.costUsdc
    | _ => none
  else none

/-- the state as a batch finds it -/
def Batch.state (b : Batch) (s : State) : State := { s with messages := b.messages, plan := b.plan }

def Run.step (cfg : Config) (py : Interp) (r : Run) (b : Batch) : Run :=
  if r.halted then r
  else
    let s := b.state r.state
    let accepted := acceptedCalls cfg py s
    let jobs := jobsOf b.env accepted
    let r' := { r with
      executed := r.executed ++ accepted
      started := r.started + jobs.countP (Job.starts cfg s.usage)
      returned := r.returned ++ jobs.filterMap (Job.cost? cfg s.usage) }
    match toolExecutorNode cfg py b.env s with
    | .ok patch => { r' with state := s.merge patch }
    | .error _ => { r' with halted := true }

/-! ## The jobs of a batch -/

theorem jobsOf_calls (env : Env) (accepted : List Call) : (jobsOf env accepted).map Job.call = accepted := by
  unfold jobsOf
  apply ext_getElem
  · simp
  · simp

variable (cfg : Config) {py : Interp} {s : State} {excluded : List PyStr}

@[simp]
theorem Job.result_name (py : Interp) (u : Usage) (j : Job) : (j.result cfg py u).name = j.call.name := by
  unfold Job.result
  split_ifs
  · rfl
  · split <;> rfl

@[simp]
theorem Job.result_id (py : Interp) (u : Usage) (j : Job) : (j.result cfg py u).id = j.call.id := by
  unfold Job.result
  split_ifs
  · rfl
  · split <;> rfl

theorem results_names (py : Interp) (u : Usage) (env : Env) (accepted : List Call) :
    ((jobsOf env accepted).map (Job.result cfg py u)).map Result.name = accepted.map Call.name := by
  conv_rhs => rw [← jobsOf_calls env accepted]
  simp

theorem results_count (py : Interp) (u : Usage) (env : Env) (accepted : List Call) (n : PyStr) :
    ((jobsOf env accepted).map (Job.result cfg py u)).countP (fun r => r.name = n) = accepted.countP (fun c => c.name = n) := by
  have h := congrArg (countP (fun m => decide (m = n))) (results_names cfg py u env accepted)
  simpa [countP_map, Function.comp_def] using h

/-! ## What a step does -/

theorem acceptedCalls_eq {cfg : Config} {calls accepted : List Call} {skipped : List Message}
    (hcalls : incomingCalls s = .ok (some calls))
    (hsuppress : suppress cfg py s.excludedToolNames s.usage [] calls = .ok (accepted, skipped)) :
    acceptedCalls cfg py s = accepted := by
  unfold acceptedCalls
  rw [hcalls]
  dsimp only
  rw [hsuppress]

theorem acceptedCalls_rule {cfg : Config} (P : List Call → Prop) (hnil : P [])
    (hstep : ∀ accepted c, P accepted → verdict cfg py s.excludedToolNames s.usage accepted c = .ok none → P (accepted ++ [c])) :
    P (acceptedCalls cfg py s) := by
  unfold acceptedCalls
  split
  · split
    · rename_i hsuppress
      exact suppress_rule P hstep hnil hsuppress
    · exact hnil
  · exact hnil

/-- what the usage carries after the node returned: the accounting of what was accepted -/
structure Carried (cfg : Config) (py : Interp) (s : State) (u' : Usage) : Prop where
  counts : ∀ n, u'.toolCallCounts n = s.usage.toolCallCounts n + (acceptedCalls cfg py s).countP (fun c => c.name = n)
  custom : u'.customToolCalls = s.usage.customToolCalls +
    (acceptedCalls cfg py s).countP (fun c => isPlatform cfg c.name = false)
  completed : u'.completedCalls = s.usage.completedCalls ++ signatures cfg (acceptedCalls cfg py s)
  delegations : u'.delegationCount = s.usage.delegationCount +
    (acceptedCalls cfg py s).countP (fun c => c.name = delegateToAgent)

theorem carried_nothing {cfg : Config} (h : acceptedCalls cfg py s = []) {u' : Usage}
    (hcounts : u'.toolCallCounts = s.usage.toolCallCounts) (hcustom : u'.customToolCalls = s.usage.customToolCalls)
    (hcompleted : u'.completedCalls = s.usage.completedCalls) (hdelegations : u'.delegationCount = s.usage.delegationCount) :
    Carried cfg py s u' := by
  refine ⟨?_, ?_, ?_, ?_⟩
  · simp [h, hcounts]
  · simp [h, hcustom]
  · simp [h, hcompleted, signatures]
  · simp [h, hdelegations]

theorem account_carried {cfg : Config} {env : Env} {u' : Usage}
    (h : account cfg py s.usage (acceptedCalls cfg py s) ((jobsOf env (acceptedCalls cfg py s)).map (Job.result cfg py s.usage)) = .ok u') :
    Carried cfg py s u' := by
  obtain ⟨covered, -, h⟩ := Py.bind_eq_ok h
  obtain ⟨costs, -, h⟩ := Py.bind_eq_ok h
  obtain ⟨slots, -, h⟩ := Py.bind_eq_ok h
  cases h
  refine ⟨fun n => ?_, rfl, rfl, ?_⟩
  · dsimp only
    rw [results_count]
  · rw [← countP_eq_length_filter, results_count]

theorem toolExecutorNode_carried {cfg : Config} {env : Env} {patch : Patch} (h : toolExecutorNode cfg py env s = .ok patch) :
    Carried cfg py s patch.usage := by
  rcases toolExecutorNode_ok h with ⟨hcalls, rfl⟩ | ⟨calls, accepted, skipped, hcalls, hsuppress, hpatch⟩
  · have hnil : acceptedCalls cfg py s = [] := by
      unfold acceptedCalls
      rw [hcalls]
    exact carried_nothing hnil rfl rfl rfl rfl
  · have hacc := acceptedCalls_eq hcalls hsuppress
    rcases hpatch with ⟨hnil, rfl⟩ | ⟨-, usage, husage, rfl⟩
    · exact carried_nothing (hacc.trans hnil) rfl rfl rfl rfl
    · rw [← hacc] at husage
      have hcarried := account_carried husage
      split_ifs <;> exact hcarried

/-! ## The invariant -/

/-- the calls executed so far stay within the caps, and no platform signature is there twice -/
structure Within (cfg : Config) (excluded : List PyStr) (executed : List Call) : Prop where
  caps : ∀ name cap, isPlatform cfg name = true → toolCap cfg excluded name = some cap →
    executed.countP (fun c => c.name = name) ≤ cap.toNat
  custom : executed.countP (fun c => isPlatform cfg c.name = false) ≤ cfg.maxCustomToolCallsPerRun.toNat
  once : (signatures cfg executed).Nodup

theorem within_nil (excluded : List PyStr) : Within cfg excluded [] :=
  ⟨fun _ _ _ _ => Nat.zero_le _, Nat.zero_le _, nodup_nil⟩

structure Inv (cfg : Config) (excluded : List PyStr) (r : Run) : Prop where
  excluded_eq : r.state.excludedToolNames = excluded
  within : Within cfg excluded r.executed
  counts : r.halted = false → ∀ n, r.state.usage.toolCallCounts n = r.executed.countP (fun c => c.name = n)
  custom : r.halted = false → r.state.usage.customToolCalls = r.executed.countP (fun c => isPlatform cfg c.name = false)
  completed : r.halted = false → r.state.usage.completedCalls = signatures cfg r.executed

theorem signatures_append (l m : List Call) : signatures cfg (l ++ m) = signatures cfg l ++ signatures cfg m := by
  simp [signatures]

theorem within_snoc {cfg : Config} {u : Usage} {executed accepted : List Call} {c : Call}
    (hcounts : ∀ n, u.toolCallCounts n = executed.countP (fun c => c.name = n))
    (hcustom : u.customToolCalls = executed.countP (fun c => isPlatform cfg c.name = false))
    (hcompleted : u.completedCalls = signatures cfg executed) (h : Within cfg excluded (executed ++ accepted))
    (hverdict : verdict cfg py excluded u accepted c = .ok none) : Within cfg excluded (executed ++ (accepted ++ [c])) := by
  rw [← append_assoc]
  rcases verdict_none hverdict with ⟨hplatform, hlt⟩ | ⟨hplatform, hlt, hdone, hseen⟩
  · refine ⟨fun name cap hname hcap => ?_, ?_, ?_⟩
    · have hne : ¬ c.name = name := by
        intro heq
        rw [heq, hname] at hplatform
        cases hplatform
      have hle := h.caps name cap hname hcap
      simpa [hne] using hle
    · rw [countP_append, countP_append, countP_singleton]
      simp only [hplatform, decide_true, if_true]
      omega
    · rw [signatures_append]
      have hnil : signatures cfg [c] = [] := by simp [signatures, hplatform]
      rw [hnil, append_nil]
      exact h.once
  · refine ⟨fun name cap hname hcap => ?_, ?_, ?_⟩
    · rw [countP_append, countP_singleton]
      by_cases heq : c.name = name
      · have hcap' := hlt cap (heq ▸ hcap)
        rw [hcounts, heq] at hcap'
        rw [countP_append]
        simp only [heq, decide_true, if_true]
        omega
      · have hle := h.caps name cap hname hcap
        simpa [heq] using hle
    · have hle := h.custom
      simpa [hplatform] using hle
    · rw [signatures_append, nodup_append]
      refine ⟨h.once, by simp [signatures, hplatform], ?_⟩
      intro a ha b hb hab
      have hb' : b = callSignature c.name c.args := by simpa [signatures, hplatform] using hb
      rw [signatures_append, mem_append, hab, hb', ← hcompleted] at ha
      exact ha.elim hdone hseen

theorem within_batch {cfg : Config} {r : Run} (h : Inv cfg excluded r) (hrun : r.halted = false) (b : Batch) :
    Within cfg excluded (r.executed ++ acceptedCalls cfg py (b.state r.state)) := by
  apply acceptedCalls_rule (fun accepted => Within cfg excluded (r.executed ++ accepted))
  · rw [append_nil]
    exact h.within
  · intro accepted c haccepted hverdict
    have hex : (b.state r.state).excludedToolNames = excluded := h.excluded_eq
    rw [hex] at hverdict
    exact within_snoc (h.counts hrun) (h.custom hrun) (h.completed hrun) haccepted hverdict

theorem step_inv {cfg : Config} {r : Run} (b : Batch) (h : Inv cfg excluded r) : Inv cfg excluded (r.step cfg py b) := by
  unfold Run.step
  split_ifs with hhalted
  · exact h
  · have hrun : r.halted = false := by simpa using hhalted
    have hwithin : Within cfg excluded (r.executed ++ acceptedCalls cfg py (b.state r.state)) := within_batch h hrun b
    dsimp only
    split
    · rename_i patch hnode
      have hcarried := toolExecutorNode_carried hnode
      refine ⟨h.excluded_eq, hwithin, fun _ n => ?_, fun _ => ?_, fun _ => ?_⟩
      · have hcounts : (b.state r.state).usage.toolCallCounts n = _ := h.counts hrun n
        rw [countP_append, ← hcounts]
        exact hcarried.counts n
      · have hcustom : (b.state r.state).usage.customToolCalls = _ := h.custom hrun
        rw [countP_append, ← hcustom]
        exact hcarried.custom
      · have hcompleted : (b.state r.state).usage.completedCalls = _ := h.completed hrun
        rw [signatures_append, ← hcompleted]
        exact hcarried.completed
    · exact ⟨h.excluded_eq, hwithin, nofun, nofun, nofun⟩

theorem start_inv (excluded : List PyStr) : Inv cfg excluded (Run.start excluded) :=
  ⟨rfl, within_nil cfg excluded, fun _ _ => rfl, fun _ => rfl, fun _ => rfl⟩

theorem run_inv (py : Interp) (excluded : List PyStr) (batches : List Batch) :
    Inv cfg excluded (Runs.run (Run.step cfg py) (Run.start excluded) batches) :=
  Runs.run_inv _ (Inv cfg excluded) (fun _ b h => step_inv b h) batches (start_inv cfg excluded)

/-! ## Caps and duplicates -/

/-- **Caps and deduplication.** In every run the executed calls of a capped platform tool stay within its cap, the custom
calls within theirs, and no platform tool is executed twice with equal arguments, as JSON values. -/
theorem tool_caps_kept (cfg : Config) (py : Interp) (excluded : List PyStr) (batches : List Batch) :
    let executed := (Runs.run (Run.step cfg py) (Run.start excluded) batches).executed
    (∀ name cap, isPlatform cfg name = true → toolCap cfg excluded name = some cap →
      executed.countP (fun c => c.name = name) ≤ cap.toNat) ∧
    executed.countP (fun c => isPlatform cfg c.name = false) ≤ cfg.maxCustomToolCallsPerRun.toNat ∧
    ((executed.filter (fun c => isPlatform cfg c.name)).map (fun c => (c.name, PyJson.canon (.obj c.args)))).Nodup := by
  have hwithin := (run_inv cfg py excluded batches).within
  refine ⟨hwithin.caps, hwithin.custom, ?_⟩
  -- equal arguments are written as the same text, so a pair that is there twice has its signature there twice
  have hsig : ∀ executed : List Call, signatures cfg executed =
      ((executed.filter (fun c => isPlatform cfg c.name)).map (fun c => (c.name, PyJson.canon (.obj c.args)))).map
        (fun p => p.1 ++ PyStr.ofString ":" ++
          (PyStr.ofString (Sha256.hexdigest ((PyJson.render ⟨true, false⟩ p.2).flatMap Utf8.encodeChar))).take 16) := by
    intro executed
    rw [map_map]
    rfl
  have honce := hwithin.once
  rw [hsig] at honce
  exact honce.of_map _

end Teardrop.Agent
