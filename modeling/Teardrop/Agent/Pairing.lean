/-
The pairing of tool calls and tool messages in what the planner sends to a model.

Messages are well paired when every call of an AI message has a tool message before the next AI message (`Answered`), and every
tool message answers a call of an AI message before it (`Asked`). A run may stop before any of its nodes, and the next `invoke`
then starts from the checkpoint. What is sent is not the history: old tool messages are left out of it, the retry of a synthesis
turn ends with calls that nobody answers, and the messages of a plan's stages answer no AI message at all.
-/
import Teardrop.Agent.Graph

namespace Teardrop.Agent

open Teardrop.Runs List Thread Progress

/-! ## Well-paired lists -/

def Message.calls : Message → List Call
  | .ai _ calls => calls
  | _ => []

def Message.isAi : Message → Bool
  | .ai _ _ => true
  | _ => false

/-- the messages before the next AI message -/
def untilAi (l : List Message) : List Message := l.takeWhile (fun m => !m.isAi)

/-- every call has a tool message with its id before the next AI message -/
def Answered : List Message → Prop
  | [] => True
  | m :: rest => (∀ c ∈ m.calls, c.id ∈ answers (untilAi rest)) ∧ Answered rest

/-- every tool message answers a call of an earlier AI message, or one of `ids` -/
def Asked : List PyStr → List Message → Prop
  | _, [] => True
  | ids, m :: rest => (∀ id ∈ m.toolCallId?, id ∈ ids) ∧ Asked (ids ++ m.calls.map Call.id) rest

structure WellPaired (l : List Message) : Prop where
  answered : Answered l
  asked : Asked [] l

instance decidableAnswered : ∀ l, Decidable (Answered l)
  | [] => .isTrue trivial
  | m :: rest =>
    have := decidableAnswered rest
    inferInstanceAs (Decidable ((∀ c ∈ m.calls, c.id ∈ answers (untilAi rest)) ∧ Answered rest))

instance decidableAsked : ∀ ids l, Decidable (Asked ids l)
  | _, [] => .isTrue trivial
  | ids, m :: rest =>
    have := decidableAsked (ids ++ m.calls.map Call.id) rest
    inferInstanceAs (Decidable ((∀ id ∈ m.toolCallId?, id ∈ ids) ∧ Asked (ids ++ m.calls.map Call.id) rest))

/-- the ids that the AI messages of a list ask for -/
def requested (l : List Message) : List PyStr := l.flatMap (fun m => m.calls.map Call.id)

theorem untilAi_append (l m : List Message) : untilAi l <+: untilAi (l ++ m) := by
  induction l with
  | nil => exact nil_prefix
  | cons x l ih =>
    simp only [untilAi, cons_append, takeWhile_cons]
    split_ifs
    · exact (prefix_cons_inj x).2 ih
    · exact prefix_rfl

variable {l : List Message} {calls : List Call} {messages : List Message} {env : PlannerEnv} {cfg : Config} {py : Interp}
  {s : State} {set : PlannerSettings} {t : Thread}

theorem Answered.append {m : List Message} (hl : Answered l) (hm : Answered m) : Answered (l ++ m) := by
  induction l with
  | nil => exact hm
  | cons x l ih =>
    refine ⟨fun c hc => ?_, ih hl.2⟩
    obtain ⟨rest, hrest⟩ := untilAi_append l m
    change c.id ∈ answers (untilAi (l ++ m))
    rw [← hrest, answers_append]
    exact mem_append_left _ (hl.1 c hc)

theorem answered_append_iff {m : List Message} (hquiet : ∀ x ∈ l, x.calls = []) : Answered (l ++ m) ↔ Answered m := by
  induction l with
  | nil => exact Iff.rfl
  | cons x l ih =>
    have hx : x.calls = [] := hquiet x mem_cons_self
    rw [cons_append, Answered, hx, ih (fun y hy => hquiet y (mem_cons_of_mem x hy))]
    exact and_iff_right (fun c hc => absurd hc not_mem_nil)

theorem answered_of_quiet (hquiet : ∀ x ∈ l, x.calls = []) : Answered l := by
  have h := (answered_append_iff (m := []) hquiet).2 trivial
  rwa [append_nil] at h

variable {m : Message} {toolIterations : ℕ} {patch : Patch}

theorem Message.calls_of_isTool (h : m.isTool = true) : m.calls = [] := by
  cases m with
  | tool content id => rfl
  | system _ | human _ | ai _ _ => cases h

theorem untilAi_tools (h : ∀ m ∈ l, m.isTool = true) : untilAi l = l := by
  apply takeWhile_eq_self_iff.2
  intro m hm
  have htool := h m hm
  cases m with
  | ai content calls => cases htool
  | _ => rfl

theorem answered_batch {content : PyStr} (htools : ∀ m ∈ messages, m.isTool = true)
    (hids : ∀ c ∈ calls, c.id ∈ answers messages) : Answered (.ai content calls :: messages) := by
  refine ⟨?_, answered_of_quiet fun m hm => Message.calls_of_isTool (htools m hm)⟩
  rw [untilAi_tools htools]
  exact hids

theorem asked_append (ids : List PyStr) (l m : List Message) :
    Asked ids (l ++ m) ↔ Asked ids l ∧ Asked (ids ++ requested l) m := by
  induction l generalizing ids with
  | nil => simp [Asked, requested]
  | cons x l ih =>
    have hrequested : requested (x :: l) = x.calls.map Call.id ++ requested l := rfl
    rw [cons_append, Asked, Asked, ih, hrequested, ← append_assoc, and_assoc]

theorem asked_of_answers {ids : List PyStr} (h : ∀ id ∈ answers l, id ∈ ids) : Asked ids l := by
  induction l generalizing ids with
  | nil => trivial
  | cons m l ih =>
    refine ⟨fun id hid => h id ?_, ih fun id hid => mem_append_left _ (h id ?_)⟩
    · rw [answers, mem_filterMap]
      exact ⟨m, mem_cons_self, hid⟩
    · obtain ⟨x, hx, hxid⟩ := mem_filterMap.1 hid
      exact mem_filterMap.2 ⟨x, mem_cons_of_mem m hx, hxid⟩

theorem Asked.dropTools {ids : List PyStr} (h : Asked ids l) (n : ℕ) : Asked ids (dropTools n l) := by
  induction l generalizing ids n with
  | nil =>
    cases n with
    | zero => exact h
    | succ n => exact h
  | cons m l ih =>
    cases n with
    | zero => exact h
    | succ n =>
      rw [Agent.dropTools]
      split_ifs with htool
      · have hrest := h.2
        rw [Message.calls_of_isTool htool, map_nil, append_nil] at hrest
        exact ih hrest n
      · exact ⟨h.1, ih h.2 (n + 1)⟩

theorem asked_plannerMessages (h : Asked [] l) (toolIterations : ℕ) : Asked [] (plannerMessages toolIterations l) := by
  unfold plannerMessages
  split_ifs
  · exact h.dropTools _
  · exact h

theorem system_quiet {prompts : List PyStr} (h : m ∈ prompts.map Message.system) : m.calls = [] ∧ m.toolCallId? = none := by
  obtain ⟨text, -, rfl⟩ := mem_map.1 h
  exact ⟨rfl, rfl⟩

theorem asked_system_append (prompts : List PyStr) (l : List Message) :
    Asked [] (prompts.map Message.system ++ l) ↔ Asked [] l := by
  induction prompts with
  | nil => exact Iff.rfl
  | cons text prompts ih =>
    refine ⟨fun h => ih.1 h.2, fun h => ⟨fun id hid => ?_, ih.2 h⟩⟩
    cases hid

/-! ## What the planner sends -/

/-- the lists a turn may send, after its first prompt `messages` -/
def Sendable (messages : List Message) (toolIterations : ℕ) (l : List Message) : Prop :=
  l = messages ∨
    (∃ content calls, calls ≠ [] ∧ 0 < toolIterations ∧ l = messages ++ [.ai content calls, .system noToolsPrompt]) ∨
    ∃ content prompt, l = messages ++ [.ai content [], .system prompt]

theorem openTurn_sent (set : PlannerSettings) (env : PlannerEnv) (llmConfig : Option Llm) (usage : Usage)
    (toolIterations : ℕ) (messages : List Message) :
    (∀ message sent, openTurn set env llmConfig usage toolIterations messages = .inl (message, sent) →
      ∀ l ∈ sent, l = messages) ∧
    ∀ p, openTurn set env llmConfig usage toolIterations messages = .inr p → ∀ l ∈ p.sent, l = messages := by
  unfold openTurn
  dsimp only
  split
  · refine ⟨(fun message sent h => nomatch h), fun p h l hl => ?_⟩
    cases h
    exact mem_singleton.1 hl
  · by_cases hlimit : ‹Bool› = true ∧ llmConfig.isNone = true
    · rw [if_pos hlimit]
      split
      · split
        · refine ⟨(fun message sent h => nomatch h), fun p h l hl => ?_⟩
          cases h
          simpa using hl
        · refine ⟨fun message sent h l hl => ?_, fun p h => nomatch h⟩
          cases h
          simpa using hl
      · refine ⟨fun message sent h l hl => ?_, fun p h => nomatch h⟩
        cases h
        simpa using hl
    · rw [if_neg hlimit]
      refine ⟨fun message sent h l hl => ?_, fun p h => nomatch h⟩
      cases h
      simpa using hl

theorem Progress.fillEmpty_sent (p : Progress) (forced : Bool) : (p.fillEmpty forced).sent = p.sent := by
  unfold fillEmpty
  split_ifs <;> rfl

theorem Progress.retry_sent {p : Progress} (h : ∀ l ∈ p.sent, Sendable messages toolIterations l) :
    ∀ l ∈ (p.retryWithoutTools env messages toolIterations).sent, Sendable messages toolIterations l := by
  unfold retryWithoutTools
  by_cases hretry : 0 < toolIterations ∧ p.response.toolCalls ≠ []
  · have hsent : ∀ l ∈ p.sent ++ [messages ++ [p.response.message, .system noToolsPrompt]],
        Sendable messages toolIterations l := by
      intro l hl
      rcases mem_append.1 hl with hl | hl
      · exact h l hl
      · rw [mem_singleton.1 hl]
        exact .inr (.inl ⟨_, _, hretry.2, hretry.1, rfl⟩)
    rw [if_pos hretry]
    split <;> exact hsent
  · rw [if_neg hretry]
    exact h

theorem Progress.contract_sent {p : Progress} {contract : Option Contract}
    (h : ∀ l ∈ p.sent, Sendable messages toolIterations l) :
    ∀ l ∈ (p.meetContract env messages contract).sent, Sendable messages toolIterations l := by
  unfold meetContract
  split
  · exact h
  · rename_i c
    by_cases htools : p.response.toolCalls ≠ []
    · rw [if_pos htools]
      exact h
    · rw [if_neg htools]
      have hsent : ∀ l ∈ p.sent ++ [messages ++ [p.response.message, .system c.repairPrompt]],
          Sendable messages toolIterations l := by
        intro l hl
        rcases mem_append.1 hl with hl | hl
        · exact h l hl
        · rw [mem_singleton.1 hl, Response.message, not_not.1 htools]
          exact .inr (.inr ⟨_, _, rfl⟩)
      split
      · exact h
      · split <;> exact hsent

theorem plannerNode_sent (cfg : Config) (set : PlannerSettings) (py : Interp) (llmConfig : Option Llm) (env : PlannerEnv)
    (s : State) : ∀ l ∈ (plannerNode cfg set py llmConfig env s).sent,
      Sendable (firstPrompt env s) s.usage.toolIterations l := by
  obtain ⟨hfailed, hopened⟩ := openTurn_sent set env llmConfig s.usage s.usage.toolIterations (firstPrompt env s)
  unfold plannerNode
  dsimp only
  split
  · rename_i message sent hopen
    exact fun l hl => .inl (hfailed message sent hopen l hl)
  · rename_i p hopen
    apply contract_sent
    apply retry_sent
    rw [fillEmpty_sent]
    exact fun l hl => .inl (hopened p hopen l hl)

theorem plannerNode_message (cfg : Config) (set : PlannerSettings) (py : Interp) (llmConfig : Option Llm) (env : PlannerEnv)
    (s : State) : ∃ content calls, (plannerNode cfg set py llmConfig env s).patch.messages = [.ai content calls] ∧
      ((plannerNode cfg set py llmConfig env s).patch.taskStatus ≠ .executing → calls = []) := by
  unfold plannerNode
  dsimp only
  split
  · exact ⟨_, [], rfl, fun _ => rfl⟩
  · refine ⟨_, _, rfl, fun hstatus => ?_⟩
    by_contra hcalls
    apply hstatus
    unfold finishTurn
    dsimp only
    rw [if_pos (.inl hcalls)]
    rfl

/-! ## What the executor adds -/

theorem suppress_tools {excluded : List PyStr} {u : Usage} {accepted all : List Call} {skipped : List Message}
    (h : suppress cfg py excluded u accepted calls = .ok (all, skipped)) : ∀ m ∈ skipped, m.isTool = true := by
  induction calls generalizing accepted skipped with
  | nil =>
    cases h
    exact fun m hm => absurd hm not_mem_nil
  | cons c calls ih =>
    obtain ⟨verdict, -, h⟩ := Py.bind_eq_ok h
    cases verdict with
    | none => exact ih h
    | some why =>
      obtain ⟨⟨all', skipped'⟩, hrest, h⟩ := Py.bind_eq_ok h
      cases h
      intro m hm
      rcases mem_cons.1 hm with rfl | hm
      · rfl
      · exact ih hrest m hm

theorem incomingCalls_of_inactive (hplan : s.activePlan = none) {content : PyStr}
    (hlast : s.messages.getLast? = some (.ai content calls)) :
    incomingCalls s = .ok (if calls = [] then none else some calls) := by
  simp only [incomingCalls, hplan, hlast]
  split_ifs <;> rfl

theorem toolExecutorNode_messages {env : Env} (h : toolExecutorNode cfg py env s = .ok patch) :
    (incomingCalls s = .ok none ∧ patch.messages = []) ∨
    ∃ calls, incomingCalls s = .ok (some calls) ∧
      ((patch.messages = [timeoutMessage] ∧ ∃ j ∈ jobsOf env (acceptedCalls cfg py s), j.isPending cfg s.usage = true) ∨
        ((∀ m ∈ patch.messages, m.isTool = true) ∧ (answers patch.messages).Perm (calls.map Call.id))) := by
  rcases toolExecutorNode_ok h with ⟨hnone, rfl⟩ | ⟨calls, accepted, skipped, hcalls, hsuppress, hpatch⟩
  · exact .inl ⟨hnone, rfl⟩
  · refine .inr ⟨calls, hcalls, ?_⟩
    have htools := suppress_tools hsuppress
    have hperm := answers_perm hcalls h
    rw [acceptedCalls_eq hcalls hsuppress] at hperm ⊢
    rcases hpatch with ⟨rfl, rfl⟩ | ⟨-, usage, -, rfl⟩
    · exact .inr ⟨htools, hperm fun j hj => absurd hj not_mem_nil⟩
    · by_cases hpending : (jobsOf env accepted).any (Job.isPending cfg s.usage) = true
      · rw [if_pos hpending]
        exact .inl ⟨rfl, any_eq_true.1 hpending⟩
      · have hquiet : ∀ j ∈ jobsOf env accepted, j.isPending cfg s.usage = false := by
          intro j hj
          by_contra hj'
          exact hpending (any_eq_true.2 ⟨j, hj, by simpa using hj'⟩)
        rw [if_neg hpending] at hperm ⊢
        refine .inr ⟨fun m hm => ?_, hperm hquiet⟩
        rcases mem_append.1 hm with hm | hm
        · exact htools m hm
        · obtain ⟨r, -, rfl⟩ := mem_map.1 hm
          rfl

/-! ## Conversations -/

inductive Move where
  | invoke (message : PyStr) (excluded : List PyStr) (keepsPlan : Bool)
  | superstep (r : Round)

def Thread.step (cfg : Config) (set : PlannerSettings) (py : Interp) (t : Thread) : Move → Thread
  | .invoke message excluded keepsPlan => t.invoke message excluded keepsPlan
  | .superstep r => t.advance cfg set py r

/-- the lists that the planner sends to a model in a superstep -/
def Thread.sends (cfg : Config) (set : PlannerSettings) (py : Interp) (t : Thread) (r : Round) : List (List Message) :=
  match t.node with
  | .planner => (plannerNode cfg set py r.llmConfig r.planner t.state).sent
  | _ => []

/-- the calls of the last message -/
def lastCalls (s : State) : List Call := (s.messages.getLast?.map Message.calls).getD []

/-- no stage of a plan has calls to execute -/
def NoStageCalls (t : Thread) : Move → Prop
  | .invoke _ _ _ => True
  | .superstep _ => t.node = .toolExecutor → t.state.activePlan.isSome = true →
      ∀ calls, incomingCalls t.state = .ok (some calls) → calls = []

/-- the calls of an AI message are answered before anything else happens: no run stops before them, no plan is executed in
their place, and their batch neither raises nor times out -/
def CallsAnswered (cfg : Config) (py : Interp) (t : Thread) : Move → Prop
  | .invoke _ _ _ => t.node = .toolExecutor → lastCalls t.state = []
  | .superstep r => t.node = .toolExecutor → lastCalls t.state ≠ [] →
      t.state.activePlan = none ∧
      TargetsReadable cfg py t.state.excludedToolNames t.state.usage [] (lastCalls t.state) ∧
      ∀ j ∈ jobsOf r.tools (acceptedCalls cfg py t.state),
        j.isPending cfg t.state.usage = false ∧ (j.result cfg py t.state.usage).accounted py = true

/-! ## Tool messages answer earlier calls -/

theorem asked_merge (h : Asked [] s.messages) (hpatch : ∀ id ∈ answers patch.messages, id ∈ requested s.messages) :
    Asked [] (s.merge patch).messages := by
  refine (asked_append [] s.messages patch.messages).2 ⟨h, asked_of_answers fun id hid => ?_⟩
  exact hpatch id hid

theorem asked_batch (hcalls : incomingCalls s = .ok (some calls)) (hstage : s.activePlan.isSome = true → calls = []) :
    ∀ id ∈ calls.map Call.id, id ∈ requested s.messages := by
  cases hplan : s.activePlan with
  | some p =>
    rw [hstage (by rw [hplan]; rfl)]
    exact fun id hid => absurd hid not_mem_nil
  | none =>
    simp only [incomingCalls, hplan] at hcalls
    split at hcalls
    · rename_i content calls' hlast
      split_ifs at hcalls with hnil
      · cases hcalls
      · cases hcalls
        intro id hid
        exact mem_flatMap.2 ⟨_, mem_of_getLast? hlast, hid⟩
    · cases hcalls
    · cases hcalls

theorem Asked.advance {r : Round} (h : Asked [] t.state.messages) (hstage : NoStageCalls t (.superstep r)) :
    Asked [] (t.advance cfg set py r).state.messages := by
  unfold Thread.advance
  split
  · obtain ⟨content, calls, hmessage, -⟩ := plannerNode_message cfg set py r.llmConfig r.planner t.state
    refine asked_merge h fun id hid => ?_
    rw [hmessage] at hid
    cases hid
  · rename_i hnode
    split
    · rename_i patch hpatch
      refine asked_merge h fun id hid => ?_
      rcases toolExecutorNode_messages hpatch with ⟨-, hnil⟩ | ⟨calls, hcalls, ⟨htimeout, -⟩ | ⟨-, hperm⟩⟩
      · rw [hnil] at hid
        cases hid
      · rw [htimeout] at hid
        cases hid
      · exact asked_batch hcalls (fun hplan => hstage hnode hplan calls hcalls) id (hperm.mem_iff.1 hid)
    · exact h
  · exact h
  · exact h

theorem Asked.step {m : Move} (h : Asked [] t.state.messages) (hstage : NoStageCalls t m) :
    Asked [] (t.step cfg set py m).state.messages := by
  cases m with
  | superstep r => exact h.advance hstage
  | invoke message excluded keepsPlan =>
    refine (asked_append [] t.state.messages [.human message]).2 ⟨h, asked_of_answers fun id hid => ?_⟩
    cases hid

/-! ## Calls are answered -/

/-- the history of a conversation, but for the calls that the executor is about to take up -/
structure Settled (t : Thread) : Prop where
  answered : t.node ≠ .toolExecutor → Answered t.state.messages
  waiting : t.node = .toolExecutor → ∃ before content calls, t.state.messages = before ++ [.ai content calls] ∧ Answered before

theorem Settled.of_answered (hnode : t.node ≠ .toolExecutor) (h : Answered t.state.messages) : Settled t :=
  ⟨fun _ => h, fun hwait => absurd hwait hnode⟩

theorem lastCalls_snoc {before : List Message} (h : s.messages = before ++ [m]) : lastCalls s = m.calls := by
  rw [lastCalls, h, getLast?_concat]
  rfl

theorem Settled.answered_of_none (h : Settled t) (hnone : t.node = .toolExecutor → lastCalls t.state = []) :
    Answered t.state.messages := by
  by_cases hnode : t.node = .toolExecutor
  · obtain ⟨before, content, calls, hmessages, hbefore⟩ := h.waiting hnode
    have hcalls : calls = [] := (lastCalls_snoc hmessages).symm.trans (hnone hnode)
    rw [hmessages, hcalls]
    apply hbefore.append
    exact answered_of_quiet fun m hm => by rw [mem_singleton.1 hm]; rfl
  · exact h.answered hnode

theorem Settled.planner_step (r : Round) (h : Settled t) (hnode : t.node = .planner) : Settled (t.advance cfg set py r) := by
  have hhistory : Answered t.state.messages := h.answered (by rw [hnode]; exact fun h => nomatch h)
  obtain ⟨content, calls, hmessage, hcalls⟩ := plannerNode_message cfg set py r.llmConfig r.planner t.state
  simp only [advance, hnode]
  generalize plannerNode cfg set py r.llmConfig r.planner t.state = turn at hmessage hcalls ⊢
  refine ⟨fun hnext => ?_, fun _ => ⟨t.state.messages, content, calls, ?_, hhistory⟩⟩
  · have hnot : turn.patch.taskStatus ≠ .executing := by
      intro hstatus
      exact hnext (if_pos hstatus)
    change Answered (t.state.messages ++ turn.patch.messages)
    rw [hmessage, hcalls hnot]
    apply hhistory.append
    exact answered_of_quiet fun m hm => by rw [mem_singleton.1 hm]; rfl
  · change t.state.messages ++ turn.patch.messages = _
    rw [hmessage]

theorem routeAfterTools_ne (cfg : Config) (s : State) : routeAfterTools cfg s ≠ .toolExecutor := by
  intro h
  rcases routeAfterTools_cases cfg s with hroute | hroute
  · cases hroute.symm.trans h
  · cases hroute.symm.trans h

theorem toolExecutorNode_quiet {env : Env} (h : toolExecutorNode cfg py env s = .ok patch) :
    ∀ m ∈ patch.messages, m.calls = [] := by
  intro m hm
  rcases toolExecutorNode_messages h with ⟨-, hnil⟩ | ⟨calls, -, ⟨htimeout, -⟩ | ⟨htools, -⟩⟩
  · rw [hnil] at hm
    cases hm
  · rw [htimeout] at hm
    rw [mem_singleton.1 hm]
    rfl
  · exact Message.calls_of_isTool (htools m hm)

theorem Settled.tools_step {r : Round} (h : Settled t) (hnode : t.node = .toolExecutor)
    (hanswered : CallsAnswered cfg py t (.superstep r)) : Settled (t.advance cfg set py r) := by
  by_cases hnone : lastCalls t.state = []
  · -- nothing was asked, whatever the executor took up
    have hhistory := h.answered_of_none fun _ => hnone
    simp only [advance, hnode]
    split
    · rename_i patch hpatch
      apply Settled.of_answered (routeAfterTools_ne cfg _)
      exact hhistory.append (answered_of_quiet (toolExecutorNode_quiet hpatch))
    · exact Settled.of_answered (fun hnext => by cases hnext) hhistory
  · obtain ⟨before, content, calls, hmessages, hbefore⟩ := h.waiting hnode
    obtain ⟨hplan, htargets, hjobs⟩ := hanswered hnode hnone
    have hlast : t.state.messages.getLast? = some (.ai content calls) := by rw [hmessages, getLast?_concat]
    rw [lastCalls_snoc hmessages] at hnone htargets
    change calls ≠ [] at hnone
    have hincoming : incomingCalls t.state = .ok (some calls) := by
      rw [incomingCalls_of_inactive hplan hlast, if_neg hnone]
    obtain ⟨patch, hpatch⟩ := (toolExecutorNode_ok_iff hincoming).2 ⟨htargets, fun j hj => (hjobs j hj).2⟩
    simp only [advance, hnode, hpatch]
    apply Settled.of_answered (routeAfterTools_ne cfg _)
    change Answered (t.state.messages ++ patch.messages)
    rw [hmessages, append_assoc]
    apply hbefore.append
    rcases toolExecutorNode_messages hpatch with ⟨hempty, -⟩ | ⟨calls', hcalls', ⟨-, j, hj, hpending⟩ | ⟨htools, hperm⟩⟩
    · rw [hincoming] at hempty
      cases hempty
    · rw [(hjobs j hj).1] at hpending
      cases hpending
    · rw [hincoming] at hcalls'
      cases hcalls'
      exact answered_batch htools fun c hc => hperm.mem_iff.2 (mem_map_of_mem hc)

theorem Settled.step {m : Move} (h : Settled t) (hanswered : CallsAnswered cfg py t m) : Settled (t.step cfg set py m) := by
  cases m with
  | invoke message excluded keepsPlan =>
    apply Settled.of_answered (fun hnext => by cases hnext)
    apply (h.answered_of_none hanswered).append
    exact answered_of_quiet fun m hm => by rw [mem_singleton.1 hm]; rfl
  | superstep r =>
    simp only [Thread.step]
    cases hnode : t.node with
    | planner => exact h.planner_step r hnode
    | toolExecutor => exact h.tools_step hnode hanswered
    | uiGenerator =>
      have hhistory := h.answered (by rw [hnode]; exact fun h => by cases h)
      simp only [advance, hnode]
      exact Settled.of_answered (fun hnext => by cases hnext) hhistory
    | finished =>
      simp only [advance, hnode]
      exact h

/-! ## Well-paired prompts -/

/-- no tool message of the history is left out of the prompts -/
def Unpruned (s : State) : Prop := s.usage.toolIterations < 2 ∨ s.messages.countP Message.isTool ≤ 8

instance (s : State) : Decidable (Unpruned s) := inferInstanceAs (Decidable (_ ∨ _))

theorem dropTools_zero (l : List Message) : dropTools 0 l = l := by
  cases l <;> rfl

theorem plannerMessages_unpruned (h : Unpruned s) : plannerMessages s.usage.toolIterations s.messages = s.messages := by
  unfold plannerMessages
  split_ifs with hsecond
  · have hfew : s.messages.countP Message.isTool ≤ 8 := h.resolve_left (not_lt.2 hsecond)
    rw [Nat.sub_eq_zero_of_le hfew, dropTools_zero]
  · rfl

theorem asked_sendable (h : Asked [] s.messages) (hl : Sendable (firstPrompt env s) s.usage.toolIterations l) :
    Asked [] l := by
  have hfirst : Asked [] (firstPrompt env s) := (asked_system_append _ _).2 (asked_plannerMessages h _)
  have hend : ∀ content calls text, Asked [] (firstPrompt env s ++ [.ai content calls, .system text]) := by
    intro content calls text
    refine (asked_append _ _ _).2 ⟨hfirst, asked_of_answers fun id hid => ?_⟩
    cases hid
  rcases hl with rfl | ⟨content, calls, -, -, rfl⟩ | ⟨content, text, rfl⟩
  · exact hfirst
  · exact hend content calls _
  · exact hend content [] text

/-- **Well-paired prompts.** In every list that the planner sends in a conversation, every tool message answers a call of an
earlier AI message, unless a stage of a plan had calls. While the calls of AI messages are answered by their batches, every call
of the history has its tool message before the next AI message; so has every call of the list when no tool message was left
out, but for those that a retry of a synthesis turn refuses at its end. -/
theorem prompts_paired (cfg : Config) (set : PlannerSettings) (py : Interp) (moves : List Move) (r : Round)
    (l : List Message) (hl : l ∈ (run (Thread.step cfg set py) {} moves).sends cfg set py r) :
    let t := run (step cfg set py) {} moves
    (Legal (step cfg set py) NoStageCalls {} moves → Asked [] l) ∧
      (Legal (step cfg set py) (CallsAnswered cfg py) {} moves →
        Answered t.state.messages ∧
          (Unpruned t.state → Answered l ∨
            ∃ content calls, calls ≠ [] ∧ 0 < t.state.usage.toolIterations ∧
              l = firstPrompt r.planner t.state ++ [.ai content calls, .system noToolsPrompt] ∧
              Answered (firstPrompt r.planner t.state))) := by
  generalize ht : run (step cfg set py) {} moves = t at hl
  have hnode : t.node = .planner := by
    unfold sends at hl
    split at hl
    · assumption
    · cases hl
  have hsent : Sendable (firstPrompt r.planner t.state) t.state.usage.toolIterations l := by
    simp only [sends, hnode] at hl
    exact plannerNode_sent cfg set py r.llmConfig r.planner t.state l hl
  refine ⟨fun hlegal => ?_, fun hlegal => ?_⟩
  · have hasked : Asked [] t.state.messages := by
      rw [← ht]
      exact legal_inv _ NoStageCalls (fun t => Asked [] t.state.messages) (fun _ _ h hm => h.step hm) moves trivial hlegal
    exact asked_sendable hasked hsent
  · have hsettled : Settled t := by
      rw [← ht]
      refine legal_inv _ (CallsAnswered cfg py) Settled (fun _ _ h hm => h.step hm) moves ?_ hlegal
      exact Settled.of_answered (fun h => nomatch h) trivial
    have hhistory : Answered t.state.messages := hsettled.answered (by rw [hnode]; exact fun h => nomatch h)
    refine ⟨hhistory, fun hunpruned => ?_⟩
    have hfirst : Answered (firstPrompt r.planner t.state) := by
      rw [firstPrompt, plannerMessages_unpruned hunpruned]
      exact (answered_append_iff fun m hm => (system_quiet hm).1).2 hhistory
    rcases hsent with rfl | ⟨content, calls, hcalls, hiterations, rfl⟩ | ⟨content, text, rfl⟩
    · exact .inl hfirst
    · exact .inr ⟨content, calls, hcalls, hiterations, rfl, hfirst⟩
    · left
      apply hfirst.append
      refine answered_of_quiet fun m hm => ?_
      rcases mem_cons.1 hm with rfl | hm
      · rfl
      · rw [mem_singleton.1 hm]
        rfl

/-- a round in which the models ask for `calls` whenever they are called, and the tools answer -/
def callingRound (calls : List Call) : Round :=
  { planner := { answering [] with
      primary := .response ⟨[], calls, none, []⟩, retry := .response ⟨[], calls, none, []⟩ }
    tools := allReturn 0 }

/-- a message, a turn that asks for a quote, its execution -/
def quotedRun : List Move :=
  [.invoke [] [] false, .superstep (callingRound [sampleCall "a" "quote"]), .superstep (callingRound [])]

/-- the synthesis after one answered call -/
theorem prompts_paired_quoted :
    ∃ l ∈ (run (Thread.step quoteConfig sampleSettings samplePy) {} quotedRun).sends quoteConfig sampleSettings samplePy
      { planner := answering (PyStr.ofString "done"), tools := allReturn 0 }, WellPaired l := by
  have hsends : ∃ l ∈ (run (step quoteConfig sampleSettings samplePy) {} quotedRun).sends quoteConfig sampleSettings
      samplePy { planner := answering (PyStr.ofString "done"), tools := allReturn 0 }, l.length = 3 := by decide +kernel
  obtain ⟨l, hl, hlength⟩ := hsends
  obtain ⟨hasked, hanswered⟩ := prompts_paired quoteConfig sampleSettings samplePy quotedRun _ l hl
  have hstages : Legal (step quoteConfig sampleSettings samplePy) NoStageCalls {} quotedRun := by
    simp only [quotedRun, Legal, NoStageCalls, true_and, and_true]
    exact ⟨fun hnode => (by cases hnode), fun _ hplan => (by cases hplan)⟩
  have hbatch : Legal (step quoteConfig sampleSettings samplePy) (CallsAnswered quoteConfig samplePy) {} quotedRun := by
    simp only [quotedRun, Legal, CallsAnswered, and_true]
    refine ⟨fun hnode => (by cases hnode), fun hnode => (by cases hnode), fun _ _ => ⟨rfl, ?_, by decide +kernel⟩⟩
    exact (suppress_ok_iff _ _ _ _ _ _).1 ⟨_, _, rfl⟩
  refine ⟨l, hl, ?_, hasked hstages⟩
  rcases (hanswered hbatch).2 (by decide +kernel) with hpaired | ⟨content, calls, -, -, rfl, -⟩
  · exact hpaired
  · cases hlength

/-- a synthesis turn that asks for tools is retried with its calls unanswered, the messages of a plan's stage answer no AI
message, and with ten tool messages the calls of the first two have lost theirs -/
theorem prompts_unpaired :
    (∃ l ∈ (run (Thread.step quoteConfig sampleSettings samplePy) {} quotedRun).sends quoteConfig sampleSettings samplePy
      (callingRound [sampleCall "b" "quote"]), ¬ Answered l) ∧
    (∃ l ∈ (run (Thread.step compilerConfig sampleSettings samplePy) {}
      [.invoke [] [] false, .superstep planningRound, .superstep planningRound]).sends compilerConfig sampleSettings samplePy
      planningRound, ¬ Asked [] l) ∧
    ∃ l ∈ (run (Thread.step quoteConfig sampleSettings samplePy) {} [.invoke [] [] false,
        .superstep (callingRound ((List.range 5).map (fun n => ⟨PyJson.renderNat n, PyStr.ofString "nothing", []⟩))),
        .superstep (callingRound []),
        .superstep (callingRound ((List.range 5).map (fun n => ⟨PyJson.renderNat n, PyStr.ofString "nothing", []⟩))),
        .superstep (callingRound [])]).sends quoteConfig sampleSettings samplePy (callingRound []), ¬ Answered l := by
  refine ⟨?_, ?_, ?_⟩
  · decide +kernel
  · decide +kernel
  · decide +kernel

end Teardrop.Agent
