/-
Delegations in a run of the executor: how many are started, and what is reported of their cost. The quota is read from the
usage before the batch, and the usage is written after it. The cost of a delegation is read back from the text of its message:
a result with an error is rewritten and a text that is cut does not parse, so in both cases the cost is not counted.
-/
import Teardrop.Core.JsonCanonical
import Teardrop.Core.JsonTail
import Teardrop.Agent.Batches

namespace Teardrop.Agent

open PyJson Job DelegateResult

open Teardrop.PyJson (render reads readsFields readsStr joinPairs lookup isBlank)

/-! ## The quota -/

/-- the delegations of the batch that the suppression lets through fit what is left of the quota -/
def FitsQuota (cfg : Config) (py : Interp) (r : Run) (b : Batch) : Prop :=
  r.halted = true ∨ quotaExceeded cfg r.state.usage = true ∨
    ((acceptedCalls cfg py (b.state r.state)).countP (fun c => c.name = delegateToAgent) : ℤ) ≤
      cfg.a2aDelegationMaxPerRun - r.state.usage.delegationCount

instance (cfg : Config) (py : Interp) (r : Run) (b : Batch) : Decidable (FitsQuota cfg py r b) :=
  inferInstanceAs (Decidable (_ ∨ _ ∨ _))

/-- what was started was counted, and stays within the quota -/
structure QuotaInv (cfg : Config) (r : Run) : Prop where
  within : r.started ≤ cfg.a2aDelegationMaxPerRun.toNat
  counted : r.halted = false → r.started ≤ r.state.usage.delegationCount

theorem jobs_started (cfg : Config) (u : Usage) (env : Env) (accepted : List Call) :
    (jobsOf env accepted).countP (starts cfg u) =
      if quotaExceeded cfg u then 0 else accepted.countP (fun c => c.name = delegateToAgent) := by
  conv_rhs => rw [← jobsOf_calls env accepted]
  rw [List.countP_map]
  split_ifs with hquota
  · simp [starts, hquota]
  · apply List.countP_congr
    simp [starts, hquota]

variable {cfg : Config} (py : Interp) {fields : List (PyStr × PyJson)} {n : ℤ} (d : DelegateResult)

theorem step_quota {py : Interp} {r : Run} {b : Batch} (h : QuotaInv cfg r) (hfits : FitsQuota cfg py r b) :
    QuotaInv cfg (r.step cfg py b) := by
  unfold Run.step
  split_ifs with hhalted
  · exact h
  · have hrun : r.halted = false := by simpa using hhalted
    have hcounted := h.counted hrun
    have hwithin : r.started + (jobsOf b.env (acceptedCalls cfg py (b.state r.state))).countP
        (starts cfg (b.state r.state).usage) ≤ cfg.a2aDelegationMaxPerRun.toNat := by
      rw [jobs_started]
      split_ifs with hquota
      · exact h.within
      · rcases hfits with hhalt | hexceeded | hleft
        · exact absurd hhalt hhalted
        · exact absurd hexceeded hquota
        · omega
    dsimp only
    split
    · rename_i patch hnode
      refine ⟨hwithin, fun _ => ?_⟩
      have hdelegations : patch.usage.delegationCount = r.state.usage.delegationCount + _ :=
        (toolExecutorNode_carried hnode).delegations
      have hstarted : (jobsOf b.env (acceptedCalls cfg py (b.state r.state))).countP (starts cfg (b.state r.state).usage) ≤
          (acceptedCalls cfg py (b.state r.state)).countP (fun c => c.name = delegateToAgent) := by
        rw [jobs_started]
        split_ifs
        · exact Nat.zero_le _
        · exact le_rfl
      change r.started + _ ≤ patch.usage.delegationCount
      rw [hdelegations]
      exact Nat.add_le_add hcounted hstarted
    · exact ⟨hwithin, nofun⟩

/-- **Delegation quota.** In every run whose batches fit what is left of the quota, no more delegations are started than
`a2a_delegation_max_per_run`. -/
theorem delegations_within_quota (cfg : Config) (py : Interp) (excluded : List PyStr) (batches : List Batch)
    (h : Runs.Legal (Run.step cfg py) (FitsQuota cfg py) (Run.start excluded) batches) :
    (Runs.run (Run.step cfg py) (Run.start excluded) batches).started ≤ cfg.a2aDelegationMaxPerRun.toNat :=
  (Runs.legal_inv _ (FitsQuota cfg py) (QuotaInv cfg) (fun _ _ hr hb => step_quota hr hb) batches
    ⟨Nat.zero_le _, fun _ => Nat.zero_le _⟩ h).within

/-- a platform with `delegate_to_agent` alone -/
def delegatingConfig : Config := { platformTools := [(delegateToAgent, {})] }

def samplePy : Interp := ⟨fun v => render ⟨true, false⟩ v, fun c => [c], 100, by decide⟩

/-- the `k`-th delegation of a batch -/
def sampleDelegate (k : ℕ) : Call :=
  ⟨PyJson.renderNat k, delegateToAgent, [(PyStr.ofString "agent_url", .str (PyStr.ofString "http://a")),
    (PyStr.ofString "task_description", .str (PyJson.renderNat k))]⟩

def sampleResult (status : String) (error : Option PyStr) (cost : Fin 100) : DelegateResult :=
  ⟨PyStr.ofString "a", PyStr.ofString status, PyStr.ofString "done", error, cost, by
    rw [Int.natAbs_natCast]
    exact lt_of_lt_of_le cost.isLt (Nat.pow_le_pow_right (n := 10) (i := 2) (by decide) (by decide))⟩

/-- a batch of delegations that all return `r` -/
def delegatingBatch (calls : List Call) (r : DelegateResult) : Batch :=
  ⟨[.ai [] calls], none, ⟨fun _ => .ran (.returned .null), fun _ => r⟩⟩

/-- three delegations in one batch, and one after it that the quota refuses -/
theorem delegations_within_quota_three :
    let batches := [delegatingBatch [sampleDelegate 0, sampleDelegate 1, sampleDelegate 2] (sampleResult "completed" none 5),
      delegatingBatch [sampleDelegate 3] (sampleResult "completed" none 5)]
    let r := Runs.run (Run.step delegatingConfig samplePy) (Run.start []) batches
    r.executed.length = 4 ∧ r.started ≤ 3 :=
  ⟨by decide +kernel, delegations_within_quota delegatingConfig samplePy [] _ (by decide +kernel)⟩

/-- four delegations in one batch are all started, past the quota of three -/
theorem batch_overruns_quota :
    let batch := delegatingBatch ([0, 1, 2, 3].map sampleDelegate) (sampleResult "completed" none 5)
    (Runs.run (Run.step delegatingConfig samplePy) (Run.start []) [batch]).started = 4 ∧
      delegatingConfig.a2aDelegationMaxPerRun = 3 := by
  decide +kernel

/-! ## The cost in the text of a message -/

theorem ofString_eq_iff {s t : String} : PyStr.ofString s = PyStr.ofString t ↔ s = t :=
  ⟨PyStr.ofString_inj, congrArg _⟩

theorem dumps_flat (hdepth : depthFields fields = 0) (hfit : intsFitFields fields = true) :
    dumps ⟨true, false⟩ py.limit (.obj fields) = .ok (render ⟨true, false⟩ (.obj fields)) := by
  have hlimit := py.limit_pos
  rw [dumps, if_neg, if_neg]
  · rw [intsFit, hfit]
    decide
  · rw [depth, hdepth]
    omega

theorem loads_flat (hdepth : depthFields fields = 0) (hfit : intsFitFields fields = true)
    (hkeys : ((readsFields ⟨true, false⟩ fields).map Prod.fst).Nodup) :
    loads py.limit (render ⟨true, false⟩ (.obj fields)) = .ok (.obj (readsFields ⟨true, false⟩ fields)) := by
  rw [loads_dumps (dumps_flat py hdepth hfit), reads, dictOf_nodup hkeys]

theorem delegationCost_flat (hdepth : depthFields fields = 0) (hfit : intsFitFields fields = true)
    (hkeys : ((readsFields ⟨true, false⟩ fields).map Prod.fst).Nodup)
    (hcost : (lookup (PyStr.ofString "cost_usdc") (readsFields ⟨true, false⟩ fields)).getD (.int 0) = .int n) :
    delegationCost py (render ⟨true, false⟩ (.obj fields)) = .ok n := by
  unfold delegationCost
  rw [loads_flat py hdepth hfit hkeys]
  dsimp only
  rw [hcost]
  rfl

theorem delegationCost_other {s : PyStr} {c : PyChar} (hblank : isBlank c = false) (hbrace : c ≠ PyChar.ofChar '\x7d')
    (h : delegationCost py (s ++ [c]) = .ok n) : n = 0 := by
  unfold delegationCost at h
  split at h
  · cases h
  · exact (Except.ok.inj h).symm
  · rename_i fields hloads
    obtain ⟨rest, ⟨pre, hpre⟩, hrest⟩ := loads_obj_ends hloads rfl
    -- the last character is the brace, or one of the blanks after it
    have hlast : c ∈ PyChar.ofChar '\x7d' :: rest := by
      have hgl := congrArg List.getLast? hpre
      rw [List.getLast?_append_of_ne_nil _ (List.cons_ne_nil _ _), List.getLast?_concat] at hgl
      exact List.mem_of_getLast? hgl
    rcases List.mem_cons.1 hlast with rfl | hmem
    · exact absurd rfl hbrace
    · rw [hrest c hmem] at hblank
      cases hblank
  · cases h

theorem truncated_cases (cfg : Config) (s : PyStr) :
    (¬ (0 < cfg.agentMaxToolResultChars ∧ cfg.agentMaxToolResultChars < s.length) ∧ truncated cfg s = s) ∨
      ((0 < cfg.agentMaxToolResultChars ∧ cfg.agentMaxToolResultChars < s.length) ∧
        ∃ t, truncated cfg s = t ++ [PyChar.ofChar ']']) := by
  unfold truncated
  split_ifs with hlong
  · exact .inr ⟨hlong, _ ++ PyStr.ofString " chars total", by rw [List.append_assoc _ _ [_]]; rfl⟩
  · exact .inl ⟨hlong, rfl⟩

theorem DelegateResult.depth_toDict : depthFields d.toDict = 0 := by
  cases herror : d.error <;> simp [toDict, depthFields, depth, herror]

theorem DelegateResult.fit_toDict : intsFitFields d.toDict = true := by
  have hfit := d.cost_fits
  cases herror : d.error <;>
    simp [toDict, intsFitFields, intsFit, herror, hfit]

theorem delegateResult_cost : delegationCost py (render ⟨true, false⟩ (.obj d.toDict)) = .ok d.costUsdc := by
  apply delegationCost_flat py d.depth_toDict d.fit_toDict
  · simp [toDict, readsFields, readsStr, joinPairs_ofString, ofString_eq_iff]
  · simp [toDict, readsFields, readsStr, joinPairs_ofString, ofString_eq_iff, lookup, reads]

theorem quotaContent_cost (cfg : Config) : delegationCost py (quotaContent cfg) = .ok 0 := by
  apply delegationCost_flat
  · simp [depthFields, depth]
  · rw [← intsFit]
    apply intsFit_of_wf
    simp [PyJson.Wf, PyJson.WfFields, ofString_eq_iff]
  · simp [readsFields, readsStr, joinPairs_ofString, ofString_eq_iff]
  · simp [readsFields, readsStr, joinPairs_ofString, ofString_eq_iff, lookup, reads]

theorem errorContent_cost (errorClass message : PyStr) (retrySafe billable : Bool) :
    delegationCost py (errorContent errorClass message retrySafe billable) = .ok 0 := by
  apply delegationCost_flat
  · simp [depthFields, depth]
  · simp [intsFitFields, intsFit]
  · simp [readsFields, readsStr, joinPairs_ofString, ofString_eq_iff]
  · simp [readsFields, readsStr, joinPairs_ofString, ofString_eq_iff, lookup]

theorem truncated_error_cost {py : Interp} {errorClass message : PyStr} {retrySafe billable : Bool}
    (h : delegationCost py (truncated cfg (errorContent errorClass message retrySafe billable)) = .ok n) : n = 0 := by
  rcases truncated_cases cfg (errorContent errorClass message retrySafe billable) with ⟨-, heq⟩ | ⟨-, t, heq⟩
  · rw [heq, errorContent_cost] at h
    exact (Except.ok.inj h).symm
  · rw [heq] at h
    exact delegationCost_other py (by decide) (by decide) h

theorem classifyEmbeddedError_content (fields : List (PyStr × PyJson)) : ∃ errorClass message retrySafe billable,
      (classifyEmbeddedError py fields).content = errorContent errorClass message retrySafe billable := by
  unfold classifyEmbeddedError
  dsimp only
  split_ifs <;> exact ⟨_, _, _, _, rfl⟩

/-! ## The spend -/

/-- the result reports an error, so that `execute_tool` rewrites it -/
def DelegateResult.failed (d : DelegateResult) : Bool := (d.error.map (fun e => decide (e ≠ []))).getD false

/-- the dict of the result is not cut -/
def DelegateResult.fits (cfg : Config) (d : DelegateResult) : Bool :=
  ¬ (0 < cfg.agentMaxToolResultChars ∧ cfg.agentMaxToolResultChars < (render ⟨true, false⟩ (.obj d.toDict)).length)

/-- the cost the delegation returned is still in its message -/
def Job.costKept (cfg : Config) (u : Usage) (j : Job) : Bool :=
  match j.cost? cfg u with
  | none => true
  | some cost => cost = 0 || (!j.delegation.failed && j.delegation.fits cfg)

theorem embeddedError_delegate : embeddedError (.obj d.toDict) = if d.failed then some d.toDict else none := by
  have hlookup : lookup (PyStr.ofString "error") d.toDict = some ((d.error.map str).getD .null) := by
    simp [toDict, lookup, ofString_eq_iff]
  simp only [embeddedError, hlookup]
  cases herror : d.error with
  | none | some _ => simp [DelegateResult.failed, herror, truthy]

theorem executeTool_delegate (name : PyStr) (d : DelegateResult) : executeTool py name (.returned (.obj d.toDict)) =
      if d.failed then classifyEmbeddedError py d.toDict else ⟨render ⟨true, false⟩ (.obj d.toDict), true⟩ := by
  simp only [executeTool, embeddedError_delegate]
  split_ifs
  · rfl
  · simp [serializeContent, dumps_flat py d.depth_toDict d.fit_toDict]

theorem returned_cost {py : Interp} {name : PyStr} {d : DelegateResult}
    (h : delegationCost py (truncated cfg (executeTool py name (.returned (.obj d.toDict))).content) = .ok n)
    (hkept : d.costUsdc = 0 ∨ (d.failed = false ∧ d.fits cfg = true)) : n = d.costUsdc := by
  rw [executeTool_delegate] at h
  split_ifs at h with hfailed
  · obtain ⟨errorClass, message, retrySafe, billable, hcontent⟩ := classifyEmbeddedError_content py d.toDict
    rw [hcontent] at h
    rcases hkept with hzero | ⟨hnot, -⟩
    · rw [hzero]
      exact truncated_error_cost h
    · rw [hfailed] at hnot
      cases hnot
  · rcases truncated_cases cfg (render ⟨true, false⟩ (.obj d.toDict)) with ⟨-, heq⟩ | ⟨hlong, t, heq⟩
    · rw [heq, delegateResult_cost] at h
      exact (Except.ok.inj h).symm
    · rw [heq] at h
      rcases hkept with hzero | ⟨-, hfits⟩
      · rw [hzero]
        exact delegationCost_other py (by decide) (by decide) h
      · exact absurd hlong (of_decide_eq_true hfits)

theorem sentence_cost {py : Interp} {s text : PyStr} (htext : text.getLast? = some (PyChar.ofChar '.'))
    (h : delegationCost py (s ++ text) = .ok n) : n = 0 := by
  obtain ⟨t, rfl⟩ := List.getLast?_eq_some_iff.1 htext
  rw [← List.append_assoc] at h
  exact delegationCost_other py (by decide) (by decide) h

theorem Job.delegation_cost {py : Interp} {u : Usage} {j : Job} (hname : j.call.name = delegateToAgent)
    (h : delegationCost py (j.result cfg py u).content = .ok n) (hkept : j.costKept cfg u = true) :
    n = (j.cost? cfg u).getD 0 := by
  unfold result at h
  by_cases hrefused : j.refused cfg u = true
  · rw [if_pos hrefused] at h
    have hquota : quotaExceeded cfg u = true := by simpa [refused, hname] using hrefused
    rw [failed, quotaContent_cost] at h
    simp [cost?, starts, hquota, ← Except.ok.inj h]
  · rw [if_neg hrefused] at h
    have hstarts : j.starts cfg u = true := by simpa [refused, starts, hname] using hrefused
    cases hbehaviour : j.behaviour with
    | ran i =>
      simp only [hbehaviour] at h
      cases i with
      | returned v =>
        have hcost : j.cost? cfg u = some j.delegation.costUsdc := by simp [cost?, hstarts, hbehaviour]
        simp only [costKept, hcost, Bool.or_eq_true, Bool.and_eq_true, Bool.not_eq_true', decide_eq_true_eq] at hkept
        simp only [invocation, hname, if_true] at h
        rw [hcost]
        exact returned_cost h hkept
      | timedOut =>
        simp only [cost?, hstarts, hbehaviour]
        exact truncated_error_cost h
      | invalidArguments =>
        simp only [cost?, hstarts, hbehaviour]
        exact truncated_error_cost h
      | clientError =>
        simp only [cost?, hstarts, hbehaviour]
        exact truncated_error_cost h
      | raised =>
        simp only [cost?, hstarts, hbehaviour]
        exact truncated_error_cost h
    | perToolTimeout | pending =>
      simp only [hbehaviour, failed, timeoutContent] at h
      simp only [cost?, hstarts, hbehaviour]
      exact sentence_cost (by decide) h
    | unexpected cls =>
      simp only [hbehaviour, failed] at h
      simp only [cost?, hstarts, hbehaviour]
      exact sentence_cost (by decide) h

theorem costs_sum {py : Interp} {u : Usage} (jobs : List Job) (hkept : ∀ j ∈ jobs, j.costKept cfg u = true) {costs : List ℤ}
    (h : ((jobs.map (result cfg py u)).filter (fun r => r.name = delegateToAgent)).mapM (fun r => delegationCost py r.content) = .ok costs) :
    costs.sum = (jobs.filterMap (cost? cfg u)).sum := by
  induction jobs generalizing costs with
  | nil =>
    cases h
    rfl
  | cons j jobs ih =>
    obtain ⟨hj, hjobs⟩ := List.forall_mem_cons.1 hkept
    rw [List.map_cons, List.filter_cons, result_name] at h
    split_ifs at h with hname
    · obtain ⟨n, costs', hn, hcosts, rfl⟩ := Py.mapM_cons_ok h
      have hcost := j.delegation_cost (of_decide_eq_true hname) hn hj
      rw [List.sum_cons, ih hjobs hcosts, hcost, List.filterMap_cons]
      cases j.cost? cfg u with
      | none => simp
      | some c => simp
    · have hnone : j.cost? cfg u = none := by simp [cost?, starts, of_decide_eq_false (by simpa using hname)]
      rw [ih hjobs h, List.filterMap_cons, hnone]

/-- the accounting of the result does not raise -/
def Result.accounted (py : Interp) (r : Result) : Bool :=
  (r.name ≠ getDefiPositions || (coveredDefiKeysFromResult py r.content).isOk) &&
    (r.name ≠ delegateToAgent || (delegationCost py r.content).isOk) && (summarizeIntoSlots py r.name r.fullContent).isOk

theorem isOk_iff {α : Type} {x : Py.Call α} : x.isOk = true ↔ ∃ a, x = .ok a := by
  cases x with
  | error e => exact ⟨nofun, nofun⟩
  | ok a => exact ⟨fun _ => ⟨a, rfl⟩, fun _ => rfl⟩

theorem account_ok_iff (cfg : Config) (py : Interp) (u : Usage) (accepted : List Call) (results : List Result) :
    (∃ u', account cfg py u accepted results = .ok u') ↔ ∀ r ∈ results, r.accounted py = true := by
  have hfilter : ∀ (n : PyStr) {α : Type} (f : Result → Py.Call α),
      (∃ bs, (results.filter (fun r => r.name = n)).mapM f = .ok bs) ↔ ∀ r ∈ results, r.name ≠ n ∨ (f r).isOk = true := by
    intro n α f
    rw [Py.mapM_ok_iff]
    constructor
    · intro h r hr
      rw [or_iff_not_imp_left, not_not]
      intro hname
      exact isOk_iff.2 (h r (List.mem_filter.2 ⟨hr, decide_eq_true hname⟩))
    · intro h r hr
      obtain ⟨hr, hname⟩ := List.mem_filter.1 hr
      exact isOk_iff.1 ((h r hr).resolve_left (not_not_intro (of_decide_eq_true hname)))
  have hslots : (∃ bs, results.mapM (fun r => summarizeIntoSlots py r.name r.fullContent) = .ok bs) ↔
      ∀ r ∈ results, (summarizeIntoSlots py r.name r.fullContent).isOk = true := by
    rw [Py.mapM_ok_iff]
    exact forall₂_congr fun r _ => isOk_iff.symm
  have hall : (∀ r ∈ results, r.accounted py = true) ↔
      (∀ r ∈ results, r.name ≠ getDefiPositions ∨ (coveredDefiKeysFromResult py r.content).isOk = true) ∧
      (∀ r ∈ results, r.name ≠ delegateToAgent ∨ (delegationCost py r.content).isOk = true) ∧
      ∀ r ∈ results, (summarizeIntoSlots py r.name r.fullContent).isOk = true := by
    rw [← forall₂_and, ← forall₂_and]
    exact forall₂_congr fun r _ => by simp [Result.accounted, and_assoc]
  rw [hall, ← hfilter getDefiPositions, ← hfilter delegateToAgent, ← hslots]
  constructor
  · rintro ⟨u', h⟩
    obtain ⟨covered, hcovered, h⟩ := Py.bind_eq_ok h
    obtain ⟨costs, hcosts, h⟩ := Py.bind_eq_ok h
    obtain ⟨slots, hs, -⟩ := Py.bind_eq_ok h
    exact ⟨⟨covered, hcovered⟩, ⟨costs, hcosts⟩, slots, hs⟩
  · rintro ⟨⟨covered, hcovered⟩, ⟨costs, hcosts⟩, slots, hs⟩
    unfold account
    rw [hcovered]
    dsimp only [bind, Except.bind]
    rw [hcosts]
    rw [hs]
    exact ⟨_, rfl⟩

/-- the accepted calls of a batch, with what becomes of them -/
def Batch.jobs (cfg : Config) (py : Interp) (b : Batch) (s : State) : List Job :=
  jobsOf b.env (acceptedCalls cfg py (b.state s))

/-- every cost that a delegation of the batch returned is still in its message, and if one returned at all, no result of
the batch makes the accounting raise -/
def KeepsCosts (cfg : Config) (py : Interp) (r : Run) (b : Batch) : Prop :=
  r.halted = true ∨
    ((∀ j ∈ b.jobs cfg py r.state, j.costKept cfg r.state.usage = true) ∧
      ((b.jobs cfg py r.state).filterMap (Job.cost? cfg r.state.usage) = [] ∨
        ∀ j ∈ b.jobs cfg py r.state, (j.result cfg py r.state.usage).accounted py = true))

instance (cfg : Config) (py : Interp) (r : Run) (b : Batch) : Decidable (KeepsCosts cfg py r b) :=
  inferInstanceAs (Decidable (_ ∨ (_ ∧ (_ ∨ _))))

theorem toolExecutorNode_spend {py : Interp} {b : Batch} {s : State} {patch : Patch}
    (h : toolExecutorNode cfg py b.env (b.state s) = .ok patch)
    (hkept : ∀ j ∈ b.jobs cfg py s, j.costKept cfg s.usage = true) :
    patch.usage.delegationSpendUsdc =
      s.usage.delegationSpendUsdc + ((b.jobs cfg py s).filterMap (cost? cfg s.usage)).sum := by
  have hnothing : acceptedCalls cfg py (b.state s) = [] → (b.jobs cfg py s).filterMap (cost? cfg s.usage) = [] := by
    intro hnil
    rw [Batch.jobs, hnil]
    rfl
  rcases toolExecutorNode_ok h with ⟨hcalls, rfl⟩ | ⟨calls, accepted, skipped, hcalls, hsuppress, hpatch⟩
  · have hnil : acceptedCalls cfg py (b.state s) = [] := by
      unfold acceptedCalls
      rw [hcalls]
    rw [hnothing hnil]
    exact (add_zero _).symm
  · have hacc := acceptedCalls_eq hcalls hsuppress
    rcases hpatch with ⟨hnil, rfl⟩ | ⟨-, usage, husage, rfl⟩
    · rw [hnothing (hacc.trans hnil)]
      exact (add_zero _).symm
    · subst hacc
      obtain ⟨covered, -, husage⟩ := Py.bind_eq_ok husage
      obtain ⟨costs, hcosts, husage⟩ := Py.bind_eq_ok husage
      obtain ⟨slots, -, husage⟩ := Py.bind_eq_ok husage
      cases husage
      have hsum := costs_sum (b.jobs cfg py s) hkept hcosts
      split_ifs <;> exact congrArg (s.usage.delegationSpendUsdc + ·) hsum

theorem toolExecutorNode_raised {py : Interp} {b : Batch} {s : State} {e : Py.Exc}
    (h : toolExecutorNode cfg py b.env (b.state s) = .error e)
    (haccounted : ∀ j ∈ b.jobs cfg py s, (j.result cfg py s.usage).accounted py = true) : b.jobs cfg py s = [] := by
  rw [Batch.jobs] at haccounted ⊢
  unfold acceptedCalls at haccounted ⊢
  split
  · rename_i calls hcalls
    rw [hcalls] at haccounted
    dsimp only at haccounted
    split
    · rename_i accepted skipped hsuppress
      rw [hsuppress] at haccounted
      by_contra hne
      have hresults : ∀ r ∈ (jobsOf b.env accepted).map (result cfg py s.usage), r.accounted py = true := by
        intro r hr
        obtain ⟨j, hj, rfl⟩ := List.mem_map.1 hr
        exact haccounted j hj
      obtain ⟨u', hu'⟩ := (account_ok_iff cfg py (b.state s).usage accepted _).2 hresults
      have hsome : accepted ≠ [] := by
        rintro rfl
        exact hne rfl
      have hnode := toolExecutorNode_ran b.env hcalls hsuppress hsome
      rw [h] at hnode
      change account cfg py (b.state s).usage accepted ((jobsOf b.env accepted).map (result cfg py (b.state s).usage)) =
        .ok u' at hu'
      rw [hu'] at hnode
      cases hnode
    · rfl
  · rfl

theorem step_spend {py : Interp} {r : Run} {b : Batch} (h : r.state.usage.delegationSpendUsdc = r.returned.sum)
    (hkeeps : KeepsCosts cfg py r b) :
    (r.step cfg py b).state.usage.delegationSpendUsdc = (r.step cfg py b).returned.sum := by
  unfold Run.step
  split_ifs with hhalted
  · exact h
  · obtain ⟨hkept, hraise⟩ := hkeeps.resolve_left hhalted
    dsimp only
    split
    · rename_i patch hnode
      rw [List.sum_append, ← h]
      exact toolExecutorNode_spend hnode hkept
    · rename_i e hnode
      have hnone : (b.jobs cfg py r.state).filterMap (cost? cfg r.state.usage) = [] := by
        rcases hraise with hnone | haccounted
        · exact hnone
        · rw [toolExecutorNode_raised hnode haccounted]
          rfl
      have hsum : (r.returned ++ (b.jobs cfg py r.state).filterMap (cost? cfg r.state.usage)).sum = r.returned.sum := by
        rw [hnone, List.append_nil]
      exact h.trans hsum.symm

/-- **Delegation spend.** In every run whose batches keep the costs of their delegations, the spend in the usage is the
sum of the costs that the delegations returned. -/
theorem delegation_spend_reported (cfg : Config) (py : Interp) (excluded : List PyStr) (batches : List Batch)
    (h : Runs.Legal (Run.step cfg py) (KeepsCosts cfg py) (Run.start excluded) batches) :
    let r := Runs.run (Run.step cfg py) (Run.start excluded) batches
    r.state.usage.delegationSpendUsdc = r.returned.sum :=
  Runs.legal_inv _ (KeepsCosts cfg py) (fun r => r.state.usage.delegationSpendUsdc = r.returned.sum)
    (fun _ _ hr hb => step_spend hr hb) batches rfl h

/-- a delegation that cost 5, and one that failed at no cost -/
theorem delegation_spend_reported_five :
    let batches := [delegatingBatch [sampleDelegate 0] (sampleResult "completed" none 5),
      delegatingBatch [sampleDelegate 1] (sampleResult "failed" (some (PyStr.ofString "refunded")) 0)]
    let r := Runs.run (Run.step delegatingConfig samplePy) (Run.start []) batches
    r.returned = [5, 0] ∧ r.state.usage.delegationSpendUsdc = r.returned.sum :=
  ⟨by decide +kernel, delegation_spend_reported delegatingConfig samplePy [] _ (by decide +kernel)⟩

/-- a delegation that may have been delivered returns its cost of 5 with an error, and the spend stays 0 -/
theorem failed_delegation_unreported :
    let batch := delegatingBatch [sampleDelegate 0] (sampleResult "possibly_delivered" (some (PyStr.ofString "held")) 5)
    let r := Runs.run (Run.step delegatingConfig samplePy) (Run.start []) [batch]
    r.halted = false ∧ r.returned.sum = 5 ∧ r.state.usage.delegationSpendUsdc = 0 := by
  decide +kernel

end Teardrop.Agent
