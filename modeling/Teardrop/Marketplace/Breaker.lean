/-
Runs of webhook calls to one tool and the circuit breaker: each call asks the breaker, calls the webhook through one of the
three wrappers, and records its outcome.
-/
import Teardrop.Marketplace.Webhooks
import Teardrop.Tools.Health

namespace Teardrop.Breaker

open Py IpAddress Ssrf Webhook Webhooks Health

/-! ## Calls and runs -/

inductive Wrapper where
  | orgTool
  | subscription
  | mcp

/-- `_call_webhook`, `_call` and `execute_marketplace_tool` -/
def invoke : Wrapper → World → Tool → List (PyStr × PyJson) → Run
  | .orgTool => callWebhook
  | .subscription => call
  | .mcp => executeMarketplaceTool

/-- a call: its wrapper, what it meets, and the instants at which it asks the breaker and records its outcome -/
structure Call where
  wrapper : Wrapper
  world : World
  arguments : List (PyStr × PyJson)
  startedAt : ℕ
  endedAt : ℕ

/-- the outcome of a call that finds the keys in this state -/
def Call.run (cfg : Settings) (tool : Tool) (s : Keys) (c : Call) : Run :=
  invoke c.wrapper { c.world with tripped := isBreakerTripped cfg c.startedAt s } tool c.arguments

/-- one record of a call -/
def record (cfg : Settings) (now : ℕ) (s : Keys) : Effect → Keys
  | .onWebhookFailure _ _ | .recordFailure => (recordFailure cfg now s).1
  | .recordSuccess => recordSuccess cfg s
  | .recordEvent _ => s

/-- the keys after a call -/
def step (cfg : Settings) (tool : Tool) (s : Keys) (c : Call) : Keys :=
  (c.run cfg tool s).effects.foldl (record cfg c.endedAt) s

def run (cfg : Settings) (tool : Tool) (s : Keys) (calls : List Call) : Keys := calls.foldl (step cfg tool) s

/-! ## What a call does to the counter -/

/-- the body cannot be parsed -/
def unparsable (limit : ℕ) (body : List UInt8) : Bool :=
  match jsonLoads limit body with
  | .value _ => false
  | _ => true

/-- how much of a body a wrapper reads -/
def cap : Wrapper → ℕ
  | .orgTool => maxResponseBytes
  | .subscription | .mcp => marketplaceMaxBytes

/-- a timeout, a transport error, or a response of type JSON whose body cannot be parsed -/
def exchangeFails (limit maxBytes : ℕ) : Exchange → Bool
  | .timedOut => true
  | .failed _ _ => true
  | .answered _ contentType body => contains json contentType && unparsable limit (body.take maxBytes)

/-- the exchange of a call that asks the webhook, if it does -/
def exchangeOf (k : Wrapper) (w : World) (tool : Tool) (arguments : List (PyStr × PyJson)) : Option Exchange :=
  if tool.id ≠ [] ∧ w.tripped then none
  else
    match stage w tool with
    | .asked _ headers =>
      let method := match k with
        | .mcp => sendMethod tool.webhookMethod
        | _ => PyStr.ofString "GET"
      some (w.exchange ⟨method, tool.webhookUrl, headers, arguments⟩)
    | _ => none

/-- the call returns an error because of the webhook -/
def FailsAtWebhook (k : Wrapper) (w : World) (tool : Tool) (arguments : List (PyStr × PyJson)) : Prop :=
  (invoke k w tool arguments).SetsError ∧ (exchangeOf k w tool arguments).any (exchangeFails w.limit (cap k)) = true

/-- the call returns a result that is no error of the wrapper's own -/
def ReturnsValue (r : Run) : Prop := ∃ result, r.ending = .ok result ∧ ¬ r.SetsError

instance : DecidablePred ReturnsValue := fun r =>
  match h : r.ending with
  | .ok result => decidable_of_iff (¬ r.SetsError) ⟨fun hnot => ⟨result, h, hnot⟩, fun ⟨_, _, hnot⟩ => hnot⟩
  | .error name => isFalse (by rintro ⟨result, h', -⟩; rw [h] at h'; cases h')

/-- a response of the subscribed tool that is JSON by its type and cannot be parsed -/
def MisreadsJson (k : Wrapper) (w : World) (tool : Tool) (arguments : List (PyStr × PyJson)) : Prop :=
  k = .subscription ∧ ∃ status contentType body, exchangeOf k w tool arguments = some (.answered status contentType body) ∧
    contains json contentType = true ∧ unparsable w.limit (body.take marketplaceMaxBytes) = true

/-- a response of the MCP path that is not JSON by its type -/
def ReturnsText (k : Wrapper) (w : World) (tool : Tool) (arguments : List (PyStr × PyJson)) : Prop :=
  k = .mcp ∧ ∃ status contentType body, exchangeOf k w tool arguments = some (.answered status contentType body) ∧
    contains json contentType ≠ true

/-- the records of a call add up to `t` -/
def AddsUp (r : Run) (t : Tally) : Prop :=
  ∀ (cfg : Settings) (now : ℕ) (s : Keys), r.effects.foldl (record cfg now) s = tally cfg now s t

/-- what a call does to the counter, by what it returns -/
structure Tallied (k : Wrapper) (w : World) (tool : Tool) (arguments : List (PyStr × PyJson)) (t : Tally) : Prop where
  keys : AddsUp (invoke k w tool arguments) t
  value : ReturnsValue (invoke k w tool arguments) → (t = .clears ∧ ¬ ReturnsText k w tool arguments) ∨
    (t = .counts ∧ ReturnsText k w tool arguments)
  error : ¬ ReturnsValue (invoke k w tool arguments) → t = .nothing ∨ t = .counts ∨
    (t = .restarts ∧ MisreadsJson k w tool arguments)
  webhook : FailsAtWebhook k w tool arguments → t ≠ .nothing

section Exits

variable {k : Wrapper} {w : World} {tool : Tool} {arguments : List (PyStr × PyJson)} {r : Run}

theorem not_returnsValue (h : r.SetsError) : ¬ ReturnsValue r := by
  rintro ⟨result, -, hnot⟩
  exact hnot h

theorem tallied_nothing (hrun : invoke k w tool arguments = r) (hvalue : ¬ ReturnsValue r) (heffects : r.effects = [])
    (hexchange : r.SetsError → exchangeOf k w tool arguments = none) : ∃ t, Tallied k w tool arguments t := by
  subst hrun
  refine ⟨.nothing, ?_, fun h => absurd h hvalue, fun _ => .inl rfl, ?_⟩
  · intro cfg now s
    rw [heffects]
    rfl
  · rintro ⟨hset, hfails⟩
    rw [hexchange hset] at hfails
    cases hfails

theorem tallied_counts (hrun : invoke k w tool arguments = r) (hset : r.SetsError)
    (heffects : (∃ errorType status, r.effects = [.onWebhookFailure errorType status]) ∨ r.effects = [.recordFailure]) :
    ∃ t, Tallied k w tool arguments t := by
  subst hrun
  refine ⟨.counts, ?_, fun h => absurd h (not_returnsValue hset), fun _ => .inr (.inl rfl), ?_⟩
  · intro cfg now s
    rcases heffects with ⟨errorType, status, heffects⟩ | heffects
    · rw [heffects]
      rfl
    · rw [heffects]
      rfl
  · intro _ h
    cases h

theorem tallied_clears (hrun : invoke k w tool arguments = r) (hvalue : ReturnsValue r)
    (heffects : r.effects = [.recordSuccess] ∨ ∃ status, r.effects = [.recordSuccess, .recordEvent status])
    (htext : ¬ ReturnsText k w tool arguments) : ∃ t, Tallied k w tool arguments t := by
  subst hrun
  refine ⟨.clears, ?_, fun _ => .inl ⟨rfl, htext⟩, ?_, ?_⟩
  · intro cfg now s
    rcases heffects with heffects | ⟨status, heffects⟩
    · rw [heffects]
      rfl
    · rw [heffects]
      rfl
  · intro hnot
    exact absurd hvalue hnot
  · intro _ h
    cases h

theorem returnsValue_payload (v : PyJson) (effects : List Effect) (sent : List Sent) :
    ReturnsValue ⟨.ok (.payload v), effects, sent⟩ := by
  refine ⟨_, rfl, ?_⟩
  rintro ⟨message, status, h⟩
  cases h

theorem returnsValue_text (text : PyStr) (effects : List Effect) (sent : List Sent) :
    ReturnsValue ⟨.ok (.text text), effects, sent⟩ := by
  refine ⟨_, rfl, ?_⟩
  rintro ⟨message, status, h⟩
  cases h

theorem not_returnsValue_raised (name : PyStr) (effects : List Effect) (sent : List Sent) :
    ¬ ReturnsValue ⟨.error name, effects, sent⟩ := by
  rintro ⟨result, h, -⟩
  cases h

theorem not_setsError_raised (name : PyStr) (effects : List Effect) (sent : List Sent) :
    ¬ Run.SetsError ⟨.error name, effects, sent⟩ := by
  rintro ⟨message, status, h⟩
  cases h

theorem recorded_eq (hid : tool.id ≠ []) (effects : List Effect) : recorded tool effects = effects := if_neg hid

theorem exchangeOf_none (h : ∀ ips headers, stage w tool ≠ .asked ips headers) : exchangeOf k w tool arguments = none := by
  unfold exchangeOf
  split_ifs
  · rfl
  · split
    · exact absurd (by assumption) (h _ _)
    · rfl

theorem exchangeOf_refused (h : tool.id ≠ [] ∧ w.tripped = true) : exchangeOf k w tool arguments = none := if_pos h

/-- **The org's own tool.** -/
theorem callWebhook_tally (hid : tool.id ≠ []) : ∃ t, Tallied .orgTool w tool arguments t := by
  by_cases htripped : w.tripped = true
  · refine tallied_nothing (if_pos htripped) (not_returnsValue (setsError_failed _ _ _)) rfl ?_
    intro _
    exact exchangeOf_refused ⟨hid, htripped⟩
  have hrun : invoke .orgTool w tool arguments = _ := if_neg htripped
  rw [callGet_spec] at hrun
  match hstage : stage w tool with
  | .raises e =>
    rw [hstage] at hrun
    refine tallied_nothing hrun (not_returnsValue_raised _ _ _) rfl ?_
    intro _
    exact exchangeOf_none (by rw [hstage]; simp)
  | .refused urlError =>
    rw [hstage] at hrun
    refine tallied_nothing hrun (not_returnsValue (setsError_failed _ _ _)) rfl ?_
    intro _
    exact exchangeOf_none (by rw [hstage]; simp)
  | .undecryptable =>
    rw [hstage] at hrun
    exact tallied_counts hrun (setsError_failed _ _ _) (.inl ⟨_, _, rfl⟩)
  | .asked ips headers =>
    rw [hstage] at hrun
    dsimp only at hrun
    match hex : w.exchange ⟨PyStr.ofString "GET", tool.webhookUrl, headers, arguments⟩ with
    | .timedOut =>
      rw [hex] at hrun
      exact tallied_counts hrun (setsError_failed _ _ _) (.inl ⟨_, _, rfl⟩)
    | .failed true name =>
      rw [hex] at hrun
      dsimp only at hrun
      rw [handleCallError, if_neg name.2.1] at hrun
      exact tallied_counts hrun (setsError_failed _ _ _) (.inl ⟨_, _, rfl⟩)
    | .failed false name =>
      rw [hex] at hrun
      refine tallied_nothing hrun (not_returnsValue_raised _ _ _) rfl ?_
      intro h
      exact absurd h (not_setsError_raised _ _ _)
    | .answered status contentType body =>
      rw [hex] at hrun
      dsimp only at hrun
      match hnorm : normalizeWebhookResponse w (body.take maxResponseBytes) contentType status with
      | .error name =>
        rw [hnorm] at hrun
        refine tallied_nothing hrun (not_returnsValue_raised _ _ _) rfl ?_
        intro h
        exact absurd h (not_setsError_raised _ _ _)
      | .ok (.inr (error, errorType)) =>
        rw [hnorm] at hrun
        exact tallied_counts hrun ⟨_, _, rfl⟩ (.inl ⟨_, _, rfl⟩)
      | .ok (.inl out) =>
        rw [hnorm] at hrun
        refine tallied_clears hrun (returnsValue_payload _ _ _) (.inr ⟨_, rfl⟩) ?_
        rintro ⟨h, -⟩
        cases h

theorem call_misreads {message : PyStr} {sent : List Sent} (hrun : invoke .subscription w tool arguments =
      Run.failed message (recorded tool [.recordSuccess, .recordFailure]) sent) (hid : tool.id ≠ [])
    (hmis : MisreadsJson .subscription w tool arguments) : ∃ t, Tallied .subscription w tool arguments t := by
  rw [recorded_eq hid] at hrun
  refine ⟨.restarts, ?_, ?_, fun _ => .inr (.inr ⟨rfl, hmis⟩), ?_⟩
  · intro cfg now s
    rw [hrun]
    rfl
  · intro hvalue
    rw [hrun] at hvalue
    exact absurd hvalue (not_returnsValue (setsError_failed _ _ _))
  · intro _ h
    cases h

/-- **The subscribed tool.** -/
theorem call_tally (hid : tool.id ≠ []) : ∃ t, Tallied .subscription w tool arguments t := by
  have hclears : ∀ {r : Run}, invoke .subscription w tool arguments = r → ReturnsValue r → r.effects = [.recordSuccess] →
      ∃ t, Tallied .subscription w tool arguments t := by
    intro r hrun hvalue heffects
    refine tallied_clears hrun hvalue (.inl heffects) ?_
    rintro ⟨h, -⟩
    cases h
  by_cases htripped : tool.id ≠ [] ∧ w.tripped = true
  · refine tallied_nothing (if_pos htripped) (not_returnsValue (setsError_failed _ _ _)) rfl ?_
    intro _
    exact exchangeOf_refused htripped
  have hrun : invoke .subscription w tool arguments = _ := if_neg htripped
  rw [callGet_spec] at hrun
  match hstage : stage w tool with
  | .raises e =>
    rw [hstage] at hrun
    exact tallied_counts hrun (setsError_failed _ _ _) (.inr (recorded_eq hid _))
  | .refused urlError =>
    rw [hstage] at hrun
    refine tallied_nothing hrun (not_returnsValue (setsError_failed _ _ _)) rfl ?_
    intro _
    exact exchangeOf_none (by rw [hstage]; simp)
  | .undecryptable =>
    rw [hstage] at hrun
    refine tallied_nothing hrun (not_returnsValue (setsError_failed _ _ _)) rfl ?_
    intro _
    exact exchangeOf_none (by rw [hstage]; simp)
  | .asked ips headers =>
    rw [hstage] at hrun
    dsimp only at hrun
    match hex : w.exchange ⟨PyStr.ofString "GET", tool.webhookUrl, headers, arguments⟩ with
    | .timedOut =>
      rw [hex] at hrun
      exact tallied_counts hrun (setsError_failed _ _ _) (.inr (recorded_eq hid _))
    | .failed true name =>
      rw [hex] at hrun
      dsimp only at hrun
      rw [if_neg (not_or.2 name.2)] at hrun
      exact tallied_counts hrun (setsError_failed _ _ _) (.inr (recorded_eq hid _))
    | .failed false name =>
      rw [hex] at hrun
      exact tallied_counts hrun (setsError_failed _ _ _) (.inr (recorded_eq hid _))
    | .answered status contentType body =>
      rw [hex] at hrun
      dsimp only at hrun
      have hexchange : exchangeOf .subscription w tool arguments = some (.answered status contentType body) := by
        unfold exchangeOf
        rw [if_neg htripped, hstage]
        exact congrArg some hex
      by_cases hjson : contains json contentType = true
      · rw [readResult, if_pos hjson] at hrun
        match hload : jsonLoads w.limit (body.take marketplaceMaxBytes) with
        | .value v =>
          rw [hload] at hrun
          exact hclears hrun (returnsValue_payload _ _ _) (recorded_eq hid _)
        | .jsonDecodeError =>
          rw [hload] at hrun
          exact call_misreads hrun hid ⟨rfl, status, contentType, body, hexchange, hjson, by rw [unparsable, hload]⟩
        | .raised name =>
          rw [hload] at hrun
          exact call_misreads hrun hid ⟨rfl, status, contentType, body, hexchange, hjson, by rw [unparsable, hload]⟩
      · rw [readResult, if_neg hjson] at hrun
        exact hclears hrun (returnsValue_text _ _ _) (recorded_eq hid _)

/-- **The MCP path.** -/
theorem execute_tally (hid : tool.id ≠ []) : ∃ t, Tallied .mcp w tool arguments t := by
  by_cases htripped : tool.id ≠ [] ∧ w.tripped = true
  · refine tallied_nothing (if_pos htripped) (not_returnsValue (setsError_failed _ _ _)) rfl ?_
    intro _
    exact exchangeOf_refused htripped
  have hrun : invoke .mcp w tool arguments = _ := executeMarketplaceTool_spec arguments htripped
  cases hstage : stage w tool with
  | raises e =>
    rw [hstage] at hrun
    refine tallied_nothing hrun (not_returnsValue_raised _ _ _) rfl ?_
    intro _
    exact exchangeOf_none (by rw [hstage]; simp)
  | refused urlError =>
    rw [hstage] at hrun
    refine tallied_nothing hrun (not_returnsValue (setsError_failed _ _ _)) rfl ?_
    intro _
    exact exchangeOf_none (by rw [hstage]; simp)
  | undecryptable =>
    rw [hstage] at hrun
    exact tallied_counts hrun (setsError_failed _ _ _) (.inl ⟨_, _, recorded_eq hid _⟩)
  | asked ips headers =>
    rw [hstage] at hrun
    dsimp only at hrun
    cases hex : w.exchange ⟨sendMethod tool.webhookMethod, tool.webhookUrl, headers, arguments⟩ with
    | timedOut =>
      rw [hex] at hrun
      exact tallied_counts hrun (setsError_failed _ _ _) (.inl ⟨_, _, recorded_eq hid _⟩)
    | failed clientError name =>
      rw [hex] at hrun
      exact tallied_counts hrun (setsError_failed _ _ _) (.inl ⟨_, _, recorded_eq hid _⟩)
    | answered status contentType body =>
      rw [hex] at hrun
      dsimp only at hrun
      have hexchange : exchangeOf .mcp w tool arguments = some (.answered status contentType body) := by
        unfold exchangeOf
        rw [if_neg htripped, hstage]
        exact congrArg some hex
      by_cases hjson : contains json contentType = true
      · rw [judgeResponse, if_neg (not_not.2 hjson)] at hrun
        cases hload : jsonLoads w.limit (body.take marketplaceMaxBytes) with
        | jsonDecodeError =>
          rw [hload] at hrun
          exact tallied_counts hrun (setsError_failed _ _ _) (.inl ⟨_, _, recorded_eq hid _⟩)
        | raised name =>
          rw [hload] at hrun
          exact tallied_counts hrun (setsError_failed _ _ _) (.inl ⟨_, _, recorded_eq hid _⟩)
        | value payload =>
          rw [hload] at hrun
          split_ifs at hrun with hstatus
          · exact tallied_counts hrun ⟨_, _, rfl⟩ (.inl ⟨_, _, recorded_eq hid _⟩)
          · refine tallied_clears hrun (returnsValue_payload _ _ _) (.inr ⟨_, recorded_eq hid _⟩) ?_
            rintro ⟨-, status', contentType', body', hexchange', hnot⟩
            rw [hexchange] at hexchange'
            cases hexchange'
            exact hnot hjson
      · rw [judgeResponse, if_pos hjson, recorded_eq hid] at hrun
        have htext : ReturnsText .mcp w tool arguments := ⟨rfl, status, contentType, body, hexchange, hjson⟩
        refine ⟨.counts, ?_, fun _ => .inr ⟨rfl, htext⟩, fun _ => .inr (.inl rfl), ?_⟩
        · intro cfg now s
          rw [hrun]
          rfl
        · intro _ h
          cases h

/-- **What a call of each wrapper does to the failure counter.** -/
theorem invoke_tally (k : Wrapper) (hid : tool.id ≠ []) : ∃ t, Tallied k w tool arguments t := by
  match k with
  | .orgTool => exact callWebhook_tally hid
  | .subscription => exact call_tally hid
  | .mcp => exact execute_tally hid

end Exits

/-! ## Streaks of failing calls -/

/-- the call as it meets the keys -/
def Call.at (cfg : Settings) (s : Keys) (c : Call) : World := { c.world with tripped := isBreakerTripped cfg c.startedAt s }

def Fails (cfg : Settings) (tool : Tool) (s : Keys) (c : Call) : Prop :=
  FailsAtWebhook c.wrapper (c.at cfg s) tool c.arguments

def Misreads (cfg : Settings) (tool : Tool) (s : Keys) (c : Call) : Prop :=
  MisreadsJson c.wrapper (c.at cfg s) tool c.arguments

instance (k : Wrapper) (w : World) (tool : Tool) (arguments : List (PyStr × PyJson)) :
    Decidable (FailsAtWebhook k w tool arguments) := inferInstanceAs (Decidable (_ ∧ _))

instance (cfg : Settings) (tool : Tool) (s : Keys) (c : Call) : Decidable (Fails cfg tool s c) :=
  inferInstanceAs (Decidable (FailsAtWebhook _ _ _ _))

/-- every call of a run is as `P` says of it and the keys it meets -/
def Along (P : Keys → Call → Prop) (cfg : Settings) (tool : Tool) : Keys → List Call → Prop
  | _, [] => True
  | s, c :: calls => P s c ∧ Along P cfg tool (step cfg tool s c) calls

/-- how many calls of a run fail at the webhook -/
def failures (cfg : Settings) (tool : Tool) : Keys → List Call → ℕ
  | _, [] => 0
  | s, c :: calls => (if Fails cfg tool s c then 1 else 0) + failures cfg tool (step cfg tool s c) calls

/-- calls of which the first and the last fail at the webhook, as many fail as the threshold, all within one window, and none
returns a value -/
structure Streak (cfg : Settings) (tool : Tool) (s : Keys) (calls : List Call) (last : Call) : Prop where
  fails_first : ∀ c ∈ calls.head?, Fails cfg tool s c
  fails_last : Fails cfg tool (run cfg tool s calls) last
  many : cfg.toolBreakerThreshold ≤ failures cfg tool s calls + 1
  errors : Along (fun s c => ¬ ReturnsValue (c.run cfg tool s)) cfg tool s (calls ++ [last])
  ordered : (calls ++ [last]).Pairwise (fun a b => a.endedAt ≤ b.endedAt)
  window : ∀ c ∈ calls.head?, last.endedAt < c.endedAt + cfg.window

/-- after its first call no subscribed tool's wrapper misreads JSON, and the counter that is live at the first is live at the
last -/
structure Uncut (cfg : Settings) (tool : Tool) (s : Keys) (calls : List Call) (last : Call) : Prop where
  reads : ∀ c rest, calls ++ [last] = c :: rest →
    Along (fun s c => ¬ Misreads cfg tool s c) cfg tool (step cfg tool s c) rest
  outlives : ∀ c ∈ calls.head?, ∀ n expiresAt, s.fail = some (n, expiresAt) → c.endedAt < expiresAt →
    last.endedAt < expiresAt

variable {cfg : Settings} {s : Keys} {calls : List Call}

theorem along_append {P : Keys → Call → Prop} {tool : Tool} {last : Call} :
    Along P cfg tool s (calls ++ [last]) ↔ Along P cfg tool s calls ∧ P (run cfg tool s calls) last := by
  induction calls generalizing s with
  | nil => simp [Along, run]
  | cons c calls ih =>
    rw [List.cons_append, Along, Along, ih, run, run, List.foldl_cons, and_assoc]

theorem step_tally {tool : Tool} {c : Call} {t : Tally} (h : Tallied c.wrapper (c.at cfg s) tool c.arguments t) :
    step cfg tool s c = tally cfg c.endedAt s t :=
  h.keys cfg c.endedAt s

theorem tally_fails {tool : Tool} {c : Call} {t : Tally} (h : Tallied c.wrapper (c.at cfg s) tool c.arguments t)
    (hfails : Fails cfg tool s c) : t = .counts ∨ (t = .restarts ∧ Misreads cfg tool s c) := by
  rcases h.error (not_returnsValue hfails.1) with hnothing | hcounts | hrestarts
  · exact absurd hnothing (h.webhook hfails)
  · exact .inl hcounts
  · exact .inr hrestarts

theorem run_quiet {tool : Tool} (hid : tool.id ≠ [])
    (herrors : Along (fun s c => ¬ ReturnsValue (c.run cfg tool s)) cfg tool s calls)
    (hreads : Along (fun s c => ¬ Misreads cfg tool s c) cfg tool s calls) :
    ∃ events, run cfg tool s calls = tallies cfg s events ∧ Quiet events ∧ failures cfg tool s calls ≤ counted events ∧
      ∀ e ∈ events, ∃ c ∈ calls, e.2 = c.endedAt := by
  induction calls generalizing s with
  | nil =>
    refine ⟨[], rfl, ?_, le_rfl, ?_⟩
    · intro e he
      cases he
    · intro e he
      cases he
  | cons c calls ih =>
    obtain ⟨herror, herrors⟩ := herrors
    obtain ⟨hread, hreads⟩ := hreads
    obtain ⟨t, ht⟩ : ∃ t, Tallied c.wrapper (c.at cfg s) tool c.arguments t := invoke_tally c.wrapper hid
    obtain ⟨events, hrun, hquiet, hcounted, htimes⟩ := ih herrors hreads
    have hone : t = .nothing ∨ t = .counts := by
      rcases ht.error herror with hnothing | hcounts | ⟨-, hmis⟩
      · exact .inl hnothing
      · exact .inr hcounts
      · exact absurd hmis hread
    refine ⟨(t, c.endedAt) :: events, ?_, ?_, ?_, ?_⟩
    · rw [run, List.foldl_cons, tallies, List.foldl_cons, ← step_tally ht]
      exact hrun
    · exact List.forall_mem_cons.2 ⟨hone, hquiet⟩
    · rw [failures, counted, List.countP_cons]
      dsimp only
      have hhead : (if Fails cfg tool s c then 1 else 0) ≤ if decide (t = .counts) = true then 1 else 0 := by
        split_ifs with hfails hcounts
        · exact le_rfl
        · rcases tally_fails ht hfails with hcounts' | ⟨-, hmis⟩
          · exact absurd (decide_eq_true hcounts') hcounts
          · exact absurd hmis hread
        · exact Nat.zero_le _
        · exact le_rfl
      rw [counted] at hcounted
      omega
    · intro e he
      rcases List.mem_cons.1 he with rfl | he
      · exact ⟨c, List.mem_cons_self, rfl⟩
      · obtain ⟨c', hc', htime⟩ := htimes e he
        exact ⟨c', List.mem_cons_of_mem c hc', htime⟩

/-- the keys that a call which fails at the webhook counts from: those it met, or cleared ones -/
theorem step_fails {tool : Tool} (hid : tool.id ≠ []) {c : Call} (hfails : Fails cfg tool s c) :
    ∃ s', (s' = s ∨ s' = recordSuccess cfg s) ∧ step cfg tool s c = (recordFailure cfg c.endedAt s').1 := by
  obtain ⟨t, ht⟩ : ∃ t, Tallied c.wrapper (c.at cfg s) tool c.arguments t := invoke_tally c.wrapper hid
  rw [step_tally ht]
  rcases tally_fails ht hfails with hcounts | ⟨hrestarts, -⟩
  · rw [hcounts]
    exact ⟨s, .inl rfl, rfl⟩
  · rw [hrestarts]
    exact ⟨recordSuccess cfg s, .inr rfl, rfl⟩

theorem streak_trips {tool : Tool} (hon : cfg.toolBreakerEnabled = true) (hid : tool.id ≠ []) {last : Call}
    (hstreak : Streak cfg tool s calls last) (huncut : Uncut cfg tool s calls last) :
    isBreakerTripped cfg last.endedAt (run cfg tool s (calls ++ [last])) = true := by
  have hend : run cfg tool s (calls ++ [last]) = step cfg tool (run cfg tool s calls) last := by
    rw [run, List.foldl_append]
    rfl
  rw [hend]
  match calls with
  | [] =>
    have hmany : cfg.toolBreakerThreshold ≤ 1 := hstreak.many
    obtain ⟨s', -, hstep⟩ := step_fails hid hstreak.fails_last
    rw [hstep]
    apply recordFailure_trips hon
    exact le_trans hmany (increment_pos last.endedAt s')
  | first :: middle =>
    have hfirst : Fails cfg tool s first := hstreak.fails_first first rfl
    obtain ⟨s', hs', hstep⟩ := step_fails hid hfirst
    obtain ⟨n, expiresAt, hfail, hn, hexp⟩ := recordFailure_counter hon first.endedAt s'
    rw [← hstep] at hfail
    have hreads := huncut.reads first (middle ++ [last]) rfl
    rw [along_append] at hreads
    obtain ⟨-, herrors⟩ := hstreak.errors
    have hlast : last.endedAt < expiresAt := by
      rcases hexp with rfl | ⟨m, hold, hlive⟩
      · exact hstreak.window first rfl
      · rcases hs' with rfl | rfl
        · exact huncut.outlives first rfl m expiresAt hold hlive
        · rw [recordSuccess, if_pos hon] at hold
          cases hold
    have hordered : ∀ c ∈ middle, c.endedAt ≤ last.endedAt := by
      intro c hc
      exact (List.pairwise_append.1 hstreak.ordered).2.2 c (List.mem_cons_of_mem first hc) last (List.mem_singleton_self last)
    obtain ⟨events, hrun, hquiet, hcounted, htimes⟩ := run_quiet hid (along_append.1 herrors).1 hreads.1
    have hbefore : ∀ e ∈ events, e.2 < expiresAt := by
      intro e he
      obtain ⟨c, hc, htime⟩ := htimes e he
      rw [htime]
      exact lt_of_le_of_lt (hordered c hc) hlast
    have hmany : cfg.toolBreakerThreshold ≤ 1 + counted events + 1 := by
      have hall := hstreak.many
      rw [failures, if_pos hfirst] at hall
      omega
    have htrips := tallies_trip hon hfail hn hquiet hbefore hlast hmany
    rw [tallies, List.foldl_append, List.foldl_cons, List.foldl_nil] at htrips
    obtain ⟨t, ht⟩ : ∃ t, Tallied last.wrapper (last.at cfg (run cfg tool s (first :: middle))) tool last.arguments t :=
      invoke_tally last.wrapper hid
    have hcounts : t = .counts := by
      rcases tally_fails ht hstreak.fails_last with hcounts | ⟨-, hmis⟩
      · exact hcounts
      · exact absurd hmis hreads.2
    have hfold : run cfg tool s (first :: middle) = run cfg tool (step cfg tool s first) middle := rfl
    rw [step_tally ht, hcounts, hfold, hrun]
    exact htrips

/-- a call that returns a value clears the counter, unless it is the text of a response that is not JSON -/
theorem step_value {tool : Tool} (hon : cfg.toolBreakerEnabled = true) (hid : tool.id ≠ []) {c : Call}
    (hvalue : ReturnsValue (c.run cfg tool s)) :
    (step cfg tool s c).fail = none ↔ ¬ ReturnsText c.wrapper (c.at cfg s) tool c.arguments := by
  obtain ⟨t, ht⟩ : ∃ t, Tallied c.wrapper (c.at cfg s) tool c.arguments t := invoke_tally c.wrapper hid
  rw [step_tally ht]
  rcases ht.value hvalue with ⟨rfl, hnot⟩ | ⟨rfl, htext⟩
  · refine iff_of_true ?_ hnot
    rw [tally, recordSuccess, if_pos hon]
  · refine iff_of_false ?_ (not_not.2 htext)
    rw [tally, recordFailure_fail hon]
    exact Option.some_ne_none _

/-- **The breaker and streaks of failures.** For a tool with an id and from whatever keys: a streak of as many failing calls as
the threshold, within a window and without a value between them, trips the breaker at its last call, if meanwhile no subscribed
tool's wrapper misreads JSON and the counter the first call finds lives on; and a call that returns a value leaves the counter
cleared exactly when that is not the text of a response which is not JSON. -/
theorem breaker_trips (cfg : Settings) (tool : Tool) (hon : cfg.toolBreakerEnabled = true) (hid : tool.id ≠ []) :
    (∀ s calls last, Streak cfg tool s calls last → Uncut cfg tool s calls last →
        isBreakerTripped cfg last.endedAt (run cfg tool s (calls ++ [last])) = true) ∧
      ∀ s c, ReturnsValue (c.run cfg tool s) →
        ((step cfg tool s c).fail = none ↔ ¬ ReturnsText c.wrapper (c.at cfg s) tool c.arguments) :=
  ⟨fun _ _ _ hstreak huncut => streak_trips hon hid hstreak huncut, fun _ _ hvalue => step_value hon hid hvalue⟩

/-! Runs of one tool, with a window of a minute. -/

def minute (threshold : ℕ) (h : 1 ≤ threshold) : Settings := ⟨true, threshold, 60, h, le_rfl⟩

/-- a response of status 200 -/
def responds (k : Wrapper) (contentType : PyStr) (body : List UInt8) (now : ℕ) : Call :=
  ⟨k, answering 200 contentType body, [], now, now⟩

/-- a timeout -/
def timesOut (k : Wrapper) (now : ℕ) : Call := ⟨k, { answering 200 json [] with exchange := fun _ => .timedOut }, [], now, now⟩

def empty : Keys := ⟨none, none⟩

/-- two responses the subscribed tool's wrapper cannot parse: the second finds the counter cleared; three timeouts within two
seconds: the counter of an earlier failure expires between them; a response that is not JSON by its type: the MCP path returns
its text and counts it as failed -/
theorem streaks_missed :
    (Streak (minute 2 (by decide)) getTool empty [responds .subscription json [123] 0] (responds .subscription json [123] 1) ∧
        isBreakerTripped (minute 2 (by decide)) 1 (run (minute 2 (by decide)) getTool empty
          [responds .subscription json [123] 0, responds .subscription json [123] 1]) = false) ∧
      (Streak (minute 3 (by decide)) getTool (step (minute 3 (by decide)) getTool empty (timesOut .orgTool 0))
          [timesOut .orgTool 59000, timesOut .orgTool 60000] (timesOut .orgTool 61000) ∧
        isBreakerTripped (minute 3 (by decide)) 61000 (run (minute 3 (by decide)) getTool empty
          [timesOut .orgTool 0, timesOut .orgTool 59000, timesOut .orgTool 60000, timesOut .orgTool 61000]) = false) ∧
      ReturnsValue ((responds .mcp "text/html" [] 0).run (minute 2 (by decide)) getTool empty) ∧
      (step (minute 2 (by decide)) getTool empty (responds .mcp "text/html" [] 0)).fail ≠ none := by
  refine ⟨⟨⟨?_, by decide, by decide, ?_, by decide, ?_⟩, by decide⟩,
    ⟨⟨?_, by decide, by decide, ?_, by decide, ?_⟩, by decide⟩, by decide,
    by decide⟩
  · rintro c ⟨⟩
    decide
  · exact ⟨by decide, by decide, trivial⟩
  · rintro c ⟨⟩
    decide
  · rintro c ⟨⟩
    decide
  · exact ⟨by decide, by decide, by decide, trivial⟩
  · rintro c ⟨⟩
    decide

/-- two timeouts of the org's own tool trip a breaker with a threshold of two, and a parsed response clears the counter -/
theorem breaker_trips_timeouts : isBreakerTripped (minute 2 (by decide)) 5 (run (minute 2 (by decide)) getTool empty
        ([timesOut .orgTool 0] ++ [timesOut .orgTool 5])) = true ∧
      ((step (minute 2 (by decide)) getTool empty (responds .mcp json [91, 93] 0)).fail = none ↔
        ¬ ReturnsText .mcp ((responds .mcp json [91, 93] 0).at (minute 2 (by decide)) empty) getTool []) := by
  have h := breaker_trips (minute 2 (by decide)) getTool rfl (by decide)
  refine ⟨h.1 empty [timesOut .orgTool 0] (timesOut .orgTool 5) ⟨?_, by decide, by decide, ?_,
    by decide, ?_⟩ ⟨?_, ?_⟩, h.2 empty (responds .mcp json [91, 93] 0) (by decide)⟩
  · rintro c ⟨⟩
    decide
  · exact ⟨by decide, by decide, trivial⟩
  · rintro c ⟨⟩
    decide
  · rintro c rest ⟨⟩
    refine ⟨?_, trivial⟩
    rintro ⟨h', -⟩
    cases h'
  · rintro c ⟨⟩ n expiresAt h'
    cases h'

end Teardrop.Breaker
