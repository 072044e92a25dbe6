/-
The messages that answer the calls of a batch.

Every call that is taken up leaves the suppression loop either with a message of its own or among the accepted ones, and
every accepted call has a result with a message. Three things break this: an argument or a result that makes the node raise,
and a batch that times out, whose messages are built and then not returned.
-/
import Teardrop.Agent.Delegations

namespace Teardrop.Agent

open List

/-! ## Answers -/

def Message.toolCallId? : Message → Option PyStr
  | .tool _ id => some id
  | _ => none

/-- the ids that the tool messages of a list answer -/
def answers (messages : List Message) : List PyStr := messages.filterMap Message.toolCallId?

/-- the node returns one tool message for each of the calls, and none for another id -/
def AnsweredOnce (calls : List Call) (returned : Py.Call Patch) : Prop :=
  ∃ patch, returned = .ok patch ∧ ∀ id, (answers patch.messages).count id = if id ∈ calls.map Call.id then 1 else 0

theorem answers_append (l m : List Message) : answers (l ++ m) = answers l ++ answers m := filterMap_append

theorem answers_results (results : List Result) : answers (results.map Result.message) = results.map Result.id := by
  unfold answers
  rw [filterMap_map]
  exact congrFun filterMap_eq_map results

theorem results_ids (cfg : Config) (py : Interp) (u : Usage) (env : Env) (accepted : List Call) :
    ((jobsOf env accepted).map (Job.result cfg py u)).map Result.id = accepted.map Call.id := by
  conv_rhs => rw [← jobsOf_calls env accepted]
  simp

/-! ## The suppression loop -/

variable {cfg : Config} {py : Interp} {calls : List Call}

theorem suppress_perm {excluded : List PyStr} {u : Usage} {accepted all : List Call} {skipped : List Message}
    (h : suppress cfg py excluded u accepted calls = .ok (all, skipped)) :
    (all.map Call.id ++ answers skipped).Perm (accepted.map Call.id ++ calls.map Call.id) := by
  induction calls generalizing accepted skipped with
  | nil =>
    cases h
    exact List.Perm.refl _
  | cons c calls ih =>
    obtain ⟨verdict, -, h⟩ := Py.bind_eq_ok h
    cases verdict with
    | none =>
      have hperm := ih h
      simpa using hperm
    | some why =>
      obtain ⟨⟨all', skipped'⟩, hrest, h⟩ := Py.bind_eq_ok h
      cases h
      have hperm := ih hrest
      calc all.map Call.id ++ answers (.tool (why.content cfg c.name) c.id :: skipped')
          = all.map Call.id ++ c.id :: answers skipped' := rfl
        _ |>.Perm (c.id :: (all.map Call.id ++ answers skipped')) := perm_middle
        _ |>.Perm (c.id :: (accepted.map Call.id ++ calls.map Call.id)) := hperm.cons c.id
        _ |>.Perm (accepted.map Call.id ++ (c :: calls).map Call.id) := perm_middle.symm

/-- the call is available, a platform tool and below its cap, so its content is looked at -/
def ReachesContent (cfg : Config) (excluded : List PyStr) (u : Usage) (accepted : List Call) (c : Call) : Prop :=
  (toolNamed cfg excluded c.name).isSome = true ∧ isPlatform cfg c.name = true ∧
    ∀ cap, toolCap cfg excluded c.name = some cap →
      (u.toolCallCounts c.name + accepted.countP (fun a => a.name = c.name) : ℤ) < cap

theorem verdict_ok_iff (cfg : Config) (py : Interp) (excluded : List PyStr) (u : Usage) (accepted : List Call) (c : Call) :
    (∃ v, verdict cfg py excluded u accepted c = .ok v) ↔
      (ReachesContent cfg excluded u accepted c → ∃ targets, redundancyTargets py c = .ok targets) := by
  unfold verdict
  split_ifs with hnone hplatform hcustom
  · refine ⟨fun _ hreach => ?_, fun _ => ⟨_, rfl⟩⟩
    have hsome := hreach.1
    rw [Option.isNone_iff_eq_none.1 hnone] at hsome
    cases hsome
  · refine ⟨fun _ hreach => ?_, fun _ => ⟨_, rfl⟩⟩
    rw [hreach.2.1] at hplatform
    cases hplatform
  · refine ⟨fun _ hreach => ?_, fun _ => ⟨_, rfl⟩⟩
    rw [hreach.2.1] at hplatform
    cases hplatform
  · split
    · rename_i cap hcap
      refine ⟨fun _ hreach => ?_, fun _ => ⟨_, rfl⟩⟩
      obtain ⟨hsome, hge⟩ := Option.filter_eq_some_iff.1 hcap
      exact absurd (of_decide_eq_true hge) (not_le.2 (hreach.2.2 cap hsome))
    · rename_i hcap
      have hreach : ReachesContent cfg excluded u accepted c := by
        refine ⟨by simpa [Option.isSome_iff_ne_none] using hnone, by simpa using hplatform, ?_⟩
        intro cap hsome
        rw [hsome, Option.filter_some] at hcap
        split_ifs at hcap with hge
        simpa using hge
      constructor
      · rintro ⟨v, h⟩ -
        obtain ⟨targets, htargets, -⟩ := PyJson.except_map_ok h
        exact ⟨targets, htargets⟩
      · intro h
        obtain ⟨targets, htargets⟩ := h hreach
        exact ⟨_, by rw [htargets]; rfl⟩

/-- the targets of every call that the loop looks into can be read -/
def TargetsReadable (cfg : Config) (py : Interp) (excluded : List PyStr) (u : Usage) (accepted calls : List Call) : Prop :=
  ∀ before c after acc skipped, calls = before ++ c :: after →
    suppress cfg py excluded u accepted before = .ok (acc, skipped) →
    ReachesContent cfg excluded u acc c → ∃ targets, redundancyTargets py c = .ok targets

theorem suppress_ok_iff (cfg : Config) (py : Interp) (excluded : List PyStr) (u : Usage) (accepted calls : List Call) :
    (∃ all skipped, suppress cfg py excluded u accepted calls = .ok (all, skipped)) ↔
      TargetsReadable cfg py excluded u accepted calls := by
  induction calls generalizing accepted with
  | nil =>
    refine ⟨fun _ before c after acc skipped hsplit => ?_, fun _ => ⟨accepted, [], rfl⟩⟩
    exact absurd hsplit.symm (by simp)
  | cons c calls ih =>
    constructor
    · rintro ⟨all, skipped, h⟩ before d after acc skipped' hsplit hbefore
      obtain ⟨v, hv, h⟩ := Py.bind_eq_ok h
      cases before with
      | nil =>
        obtain ⟨rfl, rfl⟩ := cons.inj hsplit
        cases hbefore
        exact (verdict_ok_iff cfg py excluded u accepted c).1 ⟨v, hv⟩
      | cons b before =>
        obtain ⟨rfl, hrest'⟩ := cons.inj hsplit
        obtain ⟨w, hw, hbefore⟩ := Py.bind_eq_ok hbefore
        rw [hv] at hw
        cases hw
        cases v with
        | none => exact (ih _).1 ⟨all, skipped, h⟩ before d after acc skipped' hrest' hbefore
        | some why =>
          obtain ⟨⟨all₁, skipped₁⟩, hrest, -⟩ := Py.bind_eq_ok h
          obtain ⟨⟨acc₁, skipped₂⟩, hprior, heq⟩ := Py.bind_eq_ok hbefore
          cases heq
          exact (ih _).1 ⟨all₁, skipped₁, hrest⟩ before d after acc skipped₂ hrest' hprior
    · intro h
      obtain ⟨v, hv⟩ := (verdict_ok_iff cfg py excluded u accepted c).2 (h [] c calls accepted [] rfl rfl)
      rw [suppress, hv]
      cases v with
      | none =>
        refine (ih _).2 fun before d after acc skipped hsplit hbefore => ?_
        apply h (c :: before) d after acc skipped (by rw [hsplit]; rfl)
        rw [suppress, hv]
        exact hbefore
      | some why =>
        have hrest : TargetsReadable cfg py excluded u accepted calls := by
          intro before d after acc skipped hsplit hbefore
          apply h (c :: before) d after acc (.tool (why.content cfg c.name) c.id :: skipped) (by rw [hsplit]; rfl)
          rw [suppress, hv]
          rw [hbefore]
          rfl
        obtain ⟨all, skipped, hall⟩ := (ih _).2 hrest
        refine ⟨all, .tool (why.content cfg c.name) c.id :: skipped, ?_⟩
        rw [hall]
        rfl

theorem toolExecutorNode_ok_iff {env : Env} {s : State} (hcalls : incomingCalls s = .ok (some calls)) :
    (∃ patch, toolExecutorNode cfg py env s = .ok patch) ↔
      TargetsReadable cfg py s.excludedToolNames s.usage [] calls ∧
        ∀ j ∈ jobsOf env (acceptedCalls cfg py s), (j.result cfg py s.usage).accounted py = true := by
  constructor
  · rintro ⟨patch, hnode⟩
    rcases toolExecutorNode_ok hnode with ⟨hnone, -⟩ | ⟨calls', accepted, skipped, hcalls', hsuppress, hpatch⟩
    · rw [hcalls] at hnone
      cases hnone
    · rw [hcalls] at hcalls'
      cases hcalls'
      rw [acceptedCalls_eq hcalls hsuppress]
      refine ⟨(suppress_ok_iff _ _ _ _ _ _).1 ⟨accepted, skipped, hsuppress⟩, fun j hj => ?_⟩
      rcases hpatch with ⟨rfl, -⟩ | ⟨-, usage, husage, -⟩
      · cases hj
      · exact (account_ok_iff cfg py s.usage accepted ((jobsOf env accepted).map (Job.result cfg py s.usage))).1
          ⟨usage, husage⟩ (j.result cfg py s.usage) (mem_map_of_mem hj)
  · rintro ⟨htargets, hjobs⟩
    obtain ⟨accepted, skipped, hsuppress⟩ := (suppress_ok_iff _ _ _ _ _ _).2 htargets
    rw [acceptedCalls_eq hcalls hsuppress] at hjobs
    by_cases hnil : accepted = []
    · subst hnil
      refine ⟨suppressedPatch s calls skipped, ?_⟩
      simp only [toolExecutorNode, hcalls, hsuppress, bind, Except.bind, if_true]
      rfl
    · have hresults : ∀ r ∈ (jobsOf env accepted).map (Job.result cfg py s.usage), r.accounted py = true := by
        intro r hr
        obtain ⟨j, hj, rfl⟩ := mem_map.1 hr
        exact hjobs j hj
      obtain ⟨usage, husage⟩ := (account_ok_iff cfg py s.usage accepted _).2 hresults
      have hnode := toolExecutorNode_ran env hcalls hsuppress hnil
      rw [husage] at hnode
      exact ⟨_, hnode⟩

/-! ## Answered exactly once -/

theorem count_of_perm {ids answered : List PyStr} (hnodup : ids.Nodup) (hperm : answered.Perm ids) (id : PyStr) :
    answered.count id = if id ∈ ids then 1 else 0 := by
  rw [hperm.count_eq]
  split_ifs with hmem
  · exact count_eq_one_of_mem hnodup hmem
  · exact count_eq_zero_of_not_mem hmem

theorem answers_timeout {env : Env} {s : State} {patch : Patch} (hcalls : incomingCalls s = .ok (some calls))
    (hnode : toolExecutorNode cfg py env s = .ok patch) {j : Job} (hj : j ∈ jobsOf env (acceptedCalls cfg py s))
    (hpending : j.isPending cfg s.usage = true) : answers patch.messages = [] := by
  rcases toolExecutorNode_ok hnode with ⟨hnone, -⟩ | ⟨calls', accepted, skipped, hcalls', hsuppress, hpatch⟩
  · rw [hcalls] at hnone
    cases hnone
  · rw [acceptedCalls_eq hcalls' hsuppress] at hj
    rcases hpatch with ⟨rfl, -⟩ | ⟨-, usage, -, rfl⟩
    · cases hj
    · rw [if_pos (any_eq_true.2 ⟨j, hj, hpending⟩)]
      rfl

theorem answers_perm {env : Env} {s : State} {patch : Patch} (hcalls : incomingCalls s = .ok (some calls))
    (hnode : toolExecutorNode cfg py env s = .ok patch)
    (hquiet : ∀ j ∈ jobsOf env (acceptedCalls cfg py s), j.isPending cfg s.usage = false) :
    (answers patch.messages).Perm (calls.map Call.id) := by
  rcases toolExecutorNode_ok hnode with ⟨hnone, -⟩ | ⟨calls', accepted, skipped, hcalls', hsuppress, hpatch⟩
  · rw [hcalls] at hnone
    cases hnone
  · rw [hcalls] at hcalls'
    cases hcalls'
    have hperm : (accepted.map Call.id ++ answers skipped).Perm (calls.map Call.id) := suppress_perm hsuppress
    rw [acceptedCalls_eq hcalls hsuppress] at hquiet
    rcases hpatch with ⟨rfl, rfl⟩ | ⟨-, usage, -, rfl⟩
    · exact hperm
    · have hnone : ¬ (jobsOf env accepted).any (Job.isPending cfg s.usage) = true := by
        rw [any_eq_true]
        rintro ⟨j, hj, hpending⟩
        rw [hquiet j hj] at hpending
        cases hpending
      rw [if_neg hnone]
      change (answers (skipped ++ _)).Perm _
      rw [answers_append, answers_results, results_ids]
      exact perm_append_comm.trans hperm

/-- **Answered exactly once.** Every call of an AI message is answered exactly once, and nothing else is, when the targets
that are looked at can be read, no accepted call is pending at the timeout of the batch, and no result makes the accounting
raise. Otherwise the node raises, or answers nothing. -/
theorem answered_once_iff (cfg : Config) (py : Interp) (env : Env) (s : State) (content : PyStr) (calls : List Call)
    (hplan : s.activePlan = none) (hlast : s.messages.getLast? = some (.ai content calls))
    (hnodup : (calls.map Call.id).Nodup) :
    AnsweredOnce calls (toolExecutorNode cfg py env s) ↔
      TargetsReadable cfg py s.excludedToolNames s.usage [] calls ∧
      ∀ j ∈ jobsOf env (acceptedCalls cfg py s),
        j.isPending cfg s.usage = false ∧ (j.result cfg py s.usage).accounted py = true := by
  by_cases hcalls : calls = []
  · -- nothing to do, and nothing to answer
    subst hcalls
    have hincoming : incomingCalls s = .ok none := by simp [incomingCalls, hplan, hlast]
    have hnode : toolExecutorNode cfg py env s = .ok (s.patch [] .generatingUi) := by
      simp only [toolExecutorNode, hincoming]
      rfl
    have hnone : acceptedCalls cfg py s = [] := by simp [acceptedCalls, hincoming]
    have hjobs : jobsOf env (acceptedCalls cfg py s) = [] := by rw [hnone]; rfl
    refine ⟨fun _ => ⟨(suppress_ok_iff _ _ _ _ _ _).1 ⟨[], [], rfl⟩, fun j hj => ?_⟩, fun _ => ?_⟩
    · rw [hjobs] at hj
      exact absurd hj not_mem_nil
    · exact ⟨_, hnode, fun id => rfl⟩
  · have hincoming : incomingCalls s = .ok (some calls) := by simp [incomingCalls, hplan, hlast, hcalls]
    constructor
    · rintro ⟨patch, hnode, hanswers⟩
      obtain ⟨htargets, haccounted⟩ := (toolExecutorNode_ok_iff hincoming).1 ⟨patch, hnode⟩
      refine ⟨htargets, fun j hj => ⟨?_, haccounted j hj⟩⟩
      by_contra hpending
      rw [answers_timeout hincoming hnode hj (by simpa using hpending)] at hanswers
      obtain ⟨c, rest, rfl⟩ := exists_cons_of_ne_nil hcalls
      have hone := hanswers c.id
      rw [if_pos (mem_map_of_mem mem_cons_self)] at hone
      cases hone
    · rintro ⟨htargets, hjobs⟩
      obtain ⟨patch, hnode⟩ := (toolExecutorNode_ok_iff hincoming).2 ⟨htargets, fun j hj => (hjobs j hj).2⟩
      exact ⟨patch, hnode, count_of_perm hnodup (answers_perm hincoming hnode fun j hj => (hjobs j hj).1)⟩

/-- a platform with `get_liquidation_risk`, and an org with a tool of its own -/
def quoteConfig : Config :=
  { platformTools := [(getLiquidationRisk, {})], orgTools := [(PyStr.ofString "quote", {})] }

/-- a call of a tool without arguments -/
def sampleCall (id name : String) : Call := ⟨PyStr.ofString id, PyStr.ofString name, []⟩

/-- the state of a run whose planner asked for `calls` -/
def asked (calls : List Call) : State := { messages := [.ai [] calls] }

/-- the tools of a batch all behave as `b` -/
def allBehave (b : Behaviour) : Env := ⟨fun _ => b, fun _ => sampleResult "completed" none 5⟩

/-- one call that runs and one that is suppressed -/
theorem answered_once_iff_quote : AnsweredOnce [sampleCall "a" "quote", sampleCall "b" "nothing"]
      (toolExecutorNode quoteConfig samplePy (allBehave (.ran (.returned (.str []))))
        (asked [sampleCall "a" "quote", sampleCall "b" "nothing"])) :=
  (answered_once_iff quoteConfig samplePy _ _ [] _ rfl rfl (by decide)).2
    ⟨(suppress_ok_iff _ _ _ _ _ _).1 ⟨_, _, rfl⟩, by decide⟩

/-- a `get_liquidation_risk` call for a chain that is not a number -/
def mainnetCall : Call :=
  ⟨PyStr.ofString "a", getLiquidationRisk, [(PyStr.ofString "chain_id", .str (PyStr.ofString "mainnet")),
    (PyStr.ofString "wallet_addresses", .arr [.str (PyStr.ofString "0x1")])]⟩

/-- a call that is pending at the timeout of the batch is not answered, and a call whose chain is not a number makes the
node raise -/
theorem pending_unanswered : ¬ AnsweredOnce [sampleCall "a" "quote"]
      (toolExecutorNode quoteConfig samplePy (allBehave .pending) (asked [sampleCall "a" "quote"])) ∧
    ¬ AnsweredOnce [mainnetCall]
      (toolExecutorNode quoteConfig samplePy (allBehave (.ran (.returned .null))) (asked [mainnetCall])) := by
  constructor
  · rintro ⟨patch, hnode, hcount⟩
    have hmessages : (toolExecutorNode quoteConfig samplePy (allBehave .pending)
        (asked [sampleCall "a" "quote"])).map Patch.messages = .ok [timeoutMessage] := rfl
    rw [hnode] at hmessages
    have hone := hcount (PyStr.ofString "a")
    rw [Except.ok.inj hmessages] at hone
    exact absurd hone (by decide)
  · rintro ⟨patch, hnode, -⟩
    have hraises : (toolExecutorNode quoteConfig samplePy (allBehave (.ran (.returned .null)))
        (asked [mainnetCall])).isOk = false := by decide
    rw [hnode] at hraises
    cases hraises

end Teardrop.Agent
