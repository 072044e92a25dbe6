/-
No tool runs unpaid through the gateway (`teardrop/mcp_gateway.py`): a `tools/call` reaches the mounted server after the
authentication and the gate, and a successful result is returned after its settlement, its debit or its recovery.
-/
import Teardrop.Mcp.AcceptedPayments

namespace Teardrop.Gateway

open Py PyJson List
open Coro.Ends (keeps update bindAttempt strengthen lift attempt raise)

/-! ## Orders of events -/

/-- what precedes a call of the mounted server -/
structure Cleared (C : Option Pending → Prop) (pre : List Event) (q : Option Pending) : Prop where
  authenticated : .authenticated ∈ pre
  gated : .gated q ∈ pre
  charged : C q

/-- every call of the mounted server is cleared by what precedes it -/
def InOrder (C : Option Pending → Prop) (l : List Event) : Prop :=
  ∀ pre post q, l = pre ++ .callNext q :: post → Cleared C pre q

variable {C : Option Pending → Prop}

variable {l : List Event}

theorem InOrder.snoc {e : Event} (h : InOrder C l) (he : ∀ q, e = .callNext q → Cleared C l q) : InOrder C (l ++ [e]) := by
  intro pre post q heq
  rcases eq_nil_or_concat post with rfl | ⟨post', x, rfl⟩
  · obtain ⟨rfl, hcall⟩ := append_inj' heq rfl
    exact he q (singleton_inj.mp hcall)
  · rw [concat_eq_append, ← cons_append, ← append_assoc] at heq
    exact h pre post' q (append_inj' heq rfl).1

theorem inOrder_of_idle (h : ∀ q, .callNext q ∉ l) : InOrder C l := by
  rintro pre post q rfl
  exact absurd (mem_append_right _ mem_cons_self) (h q)

/-- in order, and past the authentication -/
def Passed (C : Option Pending → Prop) (l : List Event) : Prop := InOrder C l ∧ .authenticated ∈ l

theorem Passed.snoc {e : Event} (h : Passed C l) (he : ∀ q, e = .callNext q → .gated q ∈ l ∧ C q) : Passed C (l ++ [e]) :=
  ⟨h.1.snoc fun q hq => ⟨h.2, (he q hq).1, (he q hq).2⟩, mem_append_left _ h.2⟩

theorem passed_lasts : Lasts (Passed C) := by
  intro l e he h
  refine h.snoc (fun q hq => ?_)
  rw [hq] at he
  cases he

section Phases

variable {w : World} {r : Request} {data : PyJson} {b : Option Billing}

/-- the billing of a request, and a log past the authentication -/
def StillPassed (b : Option Billing) (C : Option Pending → Prop) (s : Exchange) : Prop := s.x402Billing = b ∧ Passed C s.log

/-- the gate's outcome is written -/
def Gated (b : Option Billing) (C : Option Pending → Prop) (q : Option Pending) (s : Exchange) : Prop :=
  ∃ s', StillPassed b C s' ∧ s = { s' with log := s'.log ++ [.gated q] }

theorem callNext_passed {q : Option Pending} (hC : C q) {exit : Exit Exc Response} {s : Exchange}
    (h : Called q (Gated b C q) exit s) : StillPassed b C s := by
  obtain ⟨-, s', ⟨s'', ⟨hb, hpassed⟩, rfl⟩, rfl⟩ := h
  have hgated : Passed C (s''.log ++ [.gated q]) := hpassed.snoc (fun q' hq' => nomatch hq')
  have hcalled : Passed C (s''.log ++ [.gated q] ++ [.callNext q]) := by
    apply hgated.snoc
    intro q' hq'
    cases hq'
    exact ⟨mem_append_right _ (mem_singleton_self _), hC⟩
  exact ⟨hb, hcalled⟩

theorem runPending_passed (w : World) (r : Request) {q : Pending} (hC : C (some q)) :
    LogKeeps b (Passed C) (runPending w r q) := by
  apply keeps
  refine update ?_
  refine bindAttempt (callNext_ends w (some q) _) (fun response s hs => ?_) (fun e s hs => ?_) (fun s hs => absurd rfl hs.1)
  · have hpassed := callNext_passed hC hs
    dsimp only
    split_ifs
    · exact logKeeps_settleBilling passed_lasts w r q response _ s hpassed
    · exact Coro.Keeps.bind (logKeeps_releaseX402Reservation w r) (fun _ => Coro.Keeps.pure _) s hpassed
  · exact Coro.Keeps.bind (logKeeps_releaseX402Reservation w r) (fun _ => Coro.Keeps.raise e) s (callNext_passed hC hs)

theorem runUnbilled_passed (w : World) (r : Request) (data : PyJson) (hC : b = none → C none) :
    LogKeeps b (Passed C) (runUnbilled w r data) := by
  apply keeps
  refine Coro.Ends.get (fun s' => ?_)
  by_cases hsome : s'.x402Billing.isSome = true
  · rw [if_pos hsome]
    exact fun s hs => Coro.Keeps.bind (logKeeps_releasePaymentClaim w r) (fun _ => Coro.Keeps.pure _) s hs.1
  · by_cases hb : b = none
    · refine strengthen ?_ (fun s hs => hs.1)
      split_ifs
      · exact fun s hs => hs
      · exact fun s hs => hs
      · refine update ?_
        refine bindAttempt (callNext_ends w none _) (fun response s hs => callNext_passed (hC hb) hs)
          (fun e s hs => ?_) (fun s hs => absurd rfl hs.1)
        exact Coro.Keeps.bind (logKeeps_releaseX402Reservation w r) (fun _ => Coro.Keeps.raise e) s
          (callNext_passed (hC hb) hs)
    · rintro s ⟨⟨hs, -⟩, rfl⟩
      rw [id, hs] at hsome
      exact absurd (Option.not_isSome_iff_eq_none.mp hsome) hb

/-- after the authentication the log stays in order, if the calls the gate lets pass without a charge may be free -/
theorem afterAuthentication_inOrder {P : Exchange → Prop} (hP : ∀ s, P s → s.x402Billing = b ∧ ∀ q, .callNext q ∉ s.log)
    (hC : ∀ q, C (some q))
    (hpass : Coro.Ends (fun s => ∃ s', P s' ∧ s = { s' with log := s'.log ++ [.authenticated] }) (billingGate w r)
      (fun exit _ => exit = .returned .pass → b = none → C none)) :
    Coro.Ends P (afterAuthentication w r data) (fun _ s => InOrder C s.log) := by
  have hstart : ∀ s, (∃ s', P s' ∧ s = { s' with log := s'.log ++ [.authenticated] }) → StillPassed b C s := by
    rintro s ⟨s', hs, rfl⟩
    refine ⟨(hP s' hs).1, (inOrder_of_idle (hP s' hs).2).snoc (fun q hq => nomatch hq), ?_⟩
    exact mem_append_right _ (mem_singleton_self _)
  refine update ?_
  refine Coro.Ends.get (fun s' => ?_)
  refine strengthen ?_ (fun s hs => hs.1)
  split_ifs
  · exact Coro.Ends.pure fun s hs => (hstart s hs).2.1
  · refine Coro.Ends.bind (((logKeeps_billingGate w r).ends.strengthen hstart).and hpass) (fun gate => ?_)
      (fun e s hs => hs.1.2.1) (fun s hs => hs.1.2.1)
    cases gate with
    | refused a => exact fun s hs => hs.1.2.1
    | pending q => exact fun s hs => (runPending_passed w r (hC q) s hs.1).2.1
    | pass => exact fun s hs => (runUnbilled_passed w r data (hs.2 rfl) s hs.1).2.1

/-! ## Charges -/

theorem gateCredit_ends (w : World) (data : PyJson) (pending : Pending) (P : Exchange → Prop) :
    Coro.Ends P (gateCredit w data pending) (fun exit _ => exit ≠ .returned .pass) := by
  refine lift (fun promotional _ => ?_) (fun e _ s _ => nofun)
  split_ifs
  · exact Coro.Ends.pure fun s _ => nofun
  · refine lift (fun refusal _ => ?_) (fun e _ s _ => nofun)
    cases refusal.or (maxCostRefusal data pending.toolCost) with
    | some a => exact Coro.Ends.pure fun s _ => nofun
    | none =>
      refine lift (fun unverified _ => ?_) (fun e _ s _ => nofun)
      cases unverified with
      | some error => exact Coro.Ends.pure fun s _ => nofun
      | none => exact Coro.Ends.pure fun s _ => nofun

theorem billingGate_bearer_ends (h : ToolsCall w r data) (hbilling : w.settings.mcpBillingEnabled = true) :
    Coro.Ends (fun s => s.x402Billing = none ∧ s.mcpOrgId.isSome = true) (billingGate w r)
      (fun exit _ => exit = .returned .pass → billedCall w data = .ok none) := by
  refine billingGate_ends h hbilling (fun s hs hnone => ?_) (gateBody_ends h ?_ ?_ (fun name toolCost hbilled => ?_))
  · rw [hnone.2] at hs
    exact nomatch hs.2
  · exact fun e he s hs hexit => nomatch hexit
  · exact fun hnone s hs _ => hnone
  · refine Coro.Ends.get (fun s' => ?_)
    by_cases hnone : s'.x402Billing = none
    · simp only [hnone]
      exact (gateCredit_ends w data _ _).weaken fun exit s hne hexit => absurd hexit hne
    · rintro s ⟨hs, rfl⟩
      exact absurd hs.1 hnone

/-- a call that is charged, or is free, or executes nothing -/
def Charged (executes : Prop) (w : World) (r : Request) (data : PyJson) (q : Option Pending) : Prop :=
  executes → q.isSome = true ∨ FreeCall w r data

theorem idle_of_accepted {b : Billing} (h : l = [.accepted b]) (q : Option Pending) : .callNext q ∉ l := by
  rw [h]
  intro hmem
  cases mem_singleton.mp hmem

theorem afterAuthentication_charged {executes : Prop} (h : ToolsCall w r data)
    (hauth : w.settings.mcpAuthEnabled = true) (hbilling : w.settings.mcpBillingEnabled = true)
    (hserver : executes → (toolCallName data).isSome = true) :
    Coro.Ends (Caller w r data) (afterAuthentication w r data) (fun _ s => InOrder (Charged executes w r data) s.log) := by
  have hC : ∀ q, Charged executes w r data (some q) := fun q _ => .inl rfl
  have hidle : ∀ s : Exchange, s.log = [] → ∀ q, .callNext q ∉ s.log := by
    intro s hs q
    rw [hs]
    exact not_mem_nil
  intro s hs
  cases hs with
  | bearer hnone horg hlog =>
    refine afterAuthentication_inOrder (b := none)
      (P := fun s => (s.x402Billing = none ∧ s.mcpOrgId.isSome = true) ∧ s.log = []) (fun s hs => ⟨hs.1.1, hidle s hs.2⟩) hC
      ?_ s ⟨⟨hnone, horg⟩, hlog⟩
    refine ((billingGate_bearer_ends h hbilling).strengthen ?_).weaken (fun exit s hpass hexit _ hexecutes => ?_)
    · rintro s ⟨s', hs, rfl⟩
      exact hs.1
    · exact absurd (hpass hexit) (billedCall_named (hserver hexecutes))
  | unchecked hoff => exact absurd (hauth.symm.trans hoff) nofun
  | free hnone hfree hlog =>
    exact afterAuthentication_inOrder (b := none) (P := fun x => x = s) (fun x hx => hx ▸ ⟨hnone, hidle s hlog⟩) hC
      (fun x hx hexit hb hexecutes => .inr hfree) s rfl
  | x402 p hcaller =>
    exact afterAuthentication_inOrder (b := some (.x402 p)) (P := fun x => x = s)
      (fun x hx => hx ▸ ⟨hcaller.billing, idle_of_accepted hcaller.log⟩) hC (fun x hx hexit hb => nomatch hb) s rfl
  | mpp p hcaller =>
    exact afterAuthentication_inOrder (b := some (.mpp p)) (P := fun x => x = s)
      (fun x hx => hx ▸ ⟨hcaller.billing, idle_of_accepted hcaller.log⟩) hC (fun x hx hexit hb => nomatch hb) s rfl

/-! ## Results -/

/-- a successful result: no error of JSON-RPC, and no `isError` -/
def Succeeded (w : World) (response : Response) : Prop :=
  response.status = 200 ∧ responseIndicatesFailure w response = false

/-- no charged call of the mounted server -/
def Uncharged (l : List Event) : Prop := ∀ q, .callNext (some q) ∉ l

/-- the only charged call of the mounted server is under `q` -/
def ChargedOnly (q : Pending) (l : List Event) : Prop := ∀ q', .callNext (some q') ∈ l → q' = q

theorem chargedOnly_lasts (q : Pending) : Lasts (ChargedOnly q) := by
  intro l e he h q' hmem
  rcases mem_append.mp hmem with hmem | hmem
  · exact h q' hmem
  · rw [← mem_singleton.mp hmem] at he
    cases he

/-- a successful result is collected for -/
def Collects (w : World) (exit : Exit Exc Answer) (s : Exchange) : Prop :=
  ∀ response, exit = .returned (.response response) → Succeeded w response →
    (∀ p, s.x402Billing = some (.x402 p) → .settlement true ∈ s.log) ∧
    (s.x402Billing = none → ∀ q, .callNext (some q) ∈ s.log → .debit q.toolCost true ∈ s.log ∨ .enqueue q.toolCost ∈ s.log)

theorem mem_lasts (e : Event) : Lasts (fun l => e ∈ l) := fun _ _ _ h => mem_append_left _ h

theorem settleX402_ends (w : World) (r : Request) (q : Pending) (response : Response) (P : Exchange → Prop) :
    Coro.Ends P (settleX402 w r q response)
      (fun exit s => ∀ response', exit = .returned (.response response') → .settlement true ∈ s.log) := by
  refine attempt ?_
  refine update ?_
  split_ifs with hsettled
  · rintro s ⟨s', -, rfl⟩
    have hmem : .settlement true ∈ s'.log ++ [.settlement (isSettled w.settlePayment)] := by
      rw [hsettled]
      exact mem_append_right _ (mem_singleton_self _)
    exact fun _ _ => (Coro.Keeps.bind (logKeeps_recordMcpOutcome (mem_lasts _) w _ _) (fun _ => Coro.Keeps.pure _) _
      ⟨rfl, hmem⟩).2
  · refine Coro.Ends.bind (Q := fun _ _ => True) (fun s hs => trivial) (fun _ => ?_) (fun e s _ _ => nofun) (fun s _ _ => nofun)
    exact Coro.Ends.get fun signal => Coro.Ends.pure fun s _ _ => nofun

theorem settleCredit_ends (w : World) (q : Pending) (response : Response) (P : Exchange → Prop) :
    Coro.Ends P (settleCredit w q response) (fun exit s => ∀ response', exit = .returned (.response response') →
      .debit q.toolCost true ∈ s.log ∨ .enqueue q.toolCost ∈ s.log) := by
  refine lift (fun debited _ => ?_) (fun e _ s _ _ => nofun)
  refine update ?_
  split_ifs with hdebited
  · rintro s ⟨s', -, rfl⟩
    have hmem : .debit q.toolCost true ∈ s'.log ++ [.debit q.toolCost debited] :=
      mem_append_right _ (hdebited ▸ mem_singleton_self _)
    exact fun _ _ => .inl (Coro.Keeps.bind (logKeeps_recordMcpOutcome (mem_lasts _) w _ _) (fun _ => Coro.Keeps.pure _) _
      ⟨rfl, hmem⟩).2
  · refine Coro.Ends.bind (Q := fun _ _ => True) (fun s hs => trivial) (fun _ => ?_) (fun e s _ _ => nofun) (fun s _ _ => nofun)
    refine Coro.Ends.bind (Q := fun _ s => .enqueue q.toolCost ∈ s.log) ?_ (fun _ => Coro.Ends.pure fun s hs _ _ => .inr hs)
      (fun e s _ _ => nofun) (fun s _ _ => nofun)
    refine update ?_
    refine attempt (Coro.Ends.pure ?_)
    rintro s ⟨s', -, rfl⟩
    exact mem_append_right _ (mem_singleton_self _)

theorem released_response (w : World) (r : Request) (response : Response) (P : Exchange → Prop) : Coro.Ends P (do
      releaseX402Reservation w r
      return .response response : Run Answer)
      (fun exit _ => ∀ response', exit = .returned (.response response') → response' = response) := by
  refine Coro.Ends.bind (Q := fun _ _ => True) (fun s hs => trivial) (fun _ => Coro.Ends.pure fun s _ response' hexit => ?_)
    (fun e s _ _ => nofun) (fun s _ _ => nofun)
  cases hexit
  rfl

theorem settleBilling_failed_ends (w : World) (r : Request) (q : Pending) (response : Response)
    (hb : ∀ p, b ≠ some (.mpp p)) :
    Coro.Ends (fun s => s.x402Billing = b) (settleBilling w r q response true)
      (fun exit _ => ∀ response', exit = .returned (.response response') → response' = response) := by
  refine Coro.Ends.get (fun s' => ?_)
  rcases hbilling : s'.x402Billing with _ | (p | p)
  · exact released_response w r response _
  · exact released_response w r response _
  · rintro s ⟨hs, rfl⟩
    exact absurd (hs.symm.trans hbilling) (hb p)

theorem settleBilling_succeeded_ends (w : World) (r : Request) (q : Pending) (response : Response) :
    Coro.Ends (fun s => s.x402Billing = b) (settleBilling w r q response false)
      (fun exit s => ∀ response', exit = .returned (.response response') →
        (∀ p, b = some (.x402 p) → .settlement true ∈ s.log) ∧
        (b = none → .debit q.toolCost true ∈ s.log ∨ .enqueue q.toolCost ∈ s.log)) := by
  refine Coro.Ends.get (fun s' => ?_)
  rcases hbilling : s'.x402Billing with _ | (p | p)
  · rintro s ⟨hs, rfl⟩ response' hexit
    have hb : b = none := hs.symm.trans hbilling
    refine ⟨fun p hp => (nomatch hb.symm.trans hp), fun _ => ?_⟩
    exact settleCredit_ends w q response (fun _ => True) s trivial response' hexit
  · rintro s ⟨hs, rfl⟩ response' hexit
    have hb : b = some (.x402 p) := hs.symm.trans hbilling
    refine ⟨fun _ _ => ?_, fun hnone => nomatch hb.symm.trans hnone⟩
    exact settleX402_ends w r q response (fun _ => True) s trivial response' hexit
  · rintro s ⟨hs, rfl⟩ response' hexit
    have hb : b = some (.mpp p) := hs.symm.trans hbilling
    exact ⟨fun p' hp => (nomatch hb.symm.trans hp), fun hnone => nomatch hb.symm.trans hnone⟩

theorem settleBilling_collects (w : World) (r : Request) (q : Pending) (response : Response) :
    Coro.Ends (fun s => s.x402Billing = b ∧ ChargedOnly q s.log)
      (settleBilling w r q response (responseIndicatesFailure w response)) (Collects w) := by
  cases hfailed : responseIndicatesFailure w response with
  | true =>
    intro s hs response' hexit hsucceeded
    have hkept := logKeeps_settleBilling (chargedOnly_lasts q) w r q response true s hs
    by_cases hmpp : ∃ p, b = some (.mpp p)
    · obtain ⟨p, hp⟩ := hmpp
      exact ⟨fun p' hp' => (nomatch hp.symm.trans (hkept.1.symm.trans hp')),
        fun hnone => nomatch hp.symm.trans (hkept.1.symm.trans hnone)⟩
    · have hsame := settleBilling_failed_ends w r q response (fun p hp => hmpp ⟨p, hp⟩) s hs.1 response' hexit
      rw [hsame, Succeeded, hfailed] at hsucceeded
      exact nomatch hsucceeded.2
  | false =>
    intro s hs response' hexit _
    have hkept := logKeeps_settleBilling (chargedOnly_lasts q) w r q response false s hs
    obtain ⟨hx402, hcredit⟩ := settleBilling_succeeded_ends w r q response s hs.1 response' hexit
    refine ⟨fun p hp => hx402 p (hkept.1.symm.trans hp), fun hnone q' hmem => ?_⟩
    rw [hkept.2 q' hmem]
    exact hcredit (hkept.1.symm.trans hnone)

theorem runPending_collects (w : World) (r : Request) (q : Pending) :
    Coro.Ends (fun s => s.x402Billing = b ∧ Uncharged s.log) (runPending w r q) (Collects w) := by
  refine update ?_
  refine bindAttempt (callNext_ends w (some q) _) (fun response => ?_) (fun e => ?_) (fun s hs => absurd rfl hs.1)
  · have hstate : ∀ s : Exchange, Called (some q) (fun s => ∃ s' : Exchange, (s'.x402Billing = b ∧ Uncharged s'.log) ∧
        s = { s' with log := s'.log ++ [Event.gated (some q)] }) (.returned response) s → s.x402Billing = b ∧ ChargedOnly q s.log := by
      rintro s ⟨-, s', ⟨s'', ⟨hb, huncharged⟩, rfl⟩, rfl⟩
      refine ⟨hb, fun q' hmem => ?_⟩
      rcases mem_append.mp hmem with hmem | hmem
      · rcases mem_append.mp hmem with hmem | hmem
        · exact absurd hmem (huncharged q')
        · cases mem_singleton.mp hmem
      · cases mem_singleton.mp hmem
        rfl
    refine strengthen ?_ hstate
    dsimp only
    split_ifs with hstatus
    · exact settleBilling_collects w r q response
    · intro s hs response' hexit hsucceeded
      have hsame := released_response w r response (fun _ => True) s trivial response' hexit
      rw [hsame] at hsucceeded
      exact absurd hsucceeded.1 hstatus
  · refine Coro.Ends.bind (Q := fun _ _ => True) (fun s hs => trivial) (fun _ => ?_) (fun e s _ _ => nofun) (fun s _ _ => nofun)
    exact raise fun s _ _ => nofun

/-- without a charge there is nothing to collect: an x402 call is refused, and a credit call is none -/
theorem runUnbilled_collects (w : World) (r : Request) (data : PyJson) :
    Coro.Ends (fun s => s.x402Billing = b ∧ Uncharged s.log) (runUnbilled w r data) (Collects w) := by
  refine Coro.Ends.get (fun s' => ?_)
  by_cases hsome : s'.x402Billing.isSome = true
  · rw [if_pos hsome]
    refine Coro.Ends.bind (Q := fun _ _ => True) (fun s hs => trivial) (fun _ => ?_) (fun e s _ _ => nofun) (fun s _ _ => nofun)
    exact Coro.Ends.pure fun s _ _ => nofun
  · split_ifs
    · exact Coro.Ends.pure fun s _ _ => nofun
    · exact Coro.Ends.pure fun s _ _ => nofun
    · refine update ?_
      refine bindAttempt (callNext_ends w none _) (fun response => Coro.Ends.pure fun s hs => ?_) (fun e => ?_)
        (fun s hs => absurd rfl hs.1)
      · obtain ⟨-, s1, ⟨s2, ⟨⟨hb, huncharged⟩, rfl⟩, rfl⟩, rfl⟩ := hs
        have hnone : s2.x402Billing = none := Option.not_isSome_iff_eq_none.mp hsome
        intro response' hexit _
        refine ⟨fun p hp => (nomatch hnone.symm.trans hp), fun _ q hmem => ?_⟩
        rcases mem_append.mp hmem with hmem | hmem
        · rcases mem_append.mp hmem with hmem | hmem
          · exact absurd hmem (huncharged q)
          · cases mem_singleton.mp hmem
        · cases mem_singleton.mp hmem
      · refine Coro.Ends.bind (Q := fun _ _ => True) (fun s hs => trivial) (fun _ => ?_) (fun e s _ _ => nofun)
          (fun s _ _ => nofun)
        exact raise fun s _ _ => nofun

theorem afterAuthentication_collects (w : World) (r : Request) (data : PyJson) :
    Coro.Ends (fun s => s.x402Billing = b ∧ Uncharged s.log) (afterAuthentication w r data) (Collects w) := by
  refine update ?_
  have hstart : ∀ s, (∃ s' : Exchange, (s'.x402Billing = b ∧ Uncharged s'.log) ∧
      s = { s' with log := s'.log ++ [Event.authenticated] }) → s.x402Billing = b ∧ Uncharged s.log := by
    rintro s ⟨s', ⟨hb, huncharged⟩, rfl⟩
    refine ⟨hb, fun q hmem => ?_⟩
    rcases mem_append.mp hmem with hmem | hmem
    · exact huncharged q hmem
    · cases mem_singleton.mp hmem
  refine strengthen ?_ hstart
  refine Coro.Ends.get (fun s' => strengthen ?_ (fun s hs => hs.1))
  split_ifs
  · exact Coro.Ends.pure fun s _ _ => nofun
  · refine Coro.Ends.bind (logKeeps_billingGate w r).ends (fun gate => ?_) (fun e s _ _ => nofun) (fun s _ _ => nofun)
    cases gate with
    | refused a => exact Coro.Ends.pure fun s _ _ => nofun
    | pending q => exact runPending_collects w r q
    | pass => exact runUnbilled_collects w r data

/-! ## Whole requests -/

theorem uncharged_nil : Uncharged [] := fun _ => not_mem_nil

theorem uncharged_accepted {b : Billing} (h : l = [.accepted b]) : Uncharged l :=
  fun q => idle_of_accepted h (some q)

theorem Caller.uncharged {s : Exchange} (h : Caller w r data s) : Uncharged s.log := by
  cases h with
  | bearer _ _ hlog | unchecked _ _ hlog | free _ _ hlog => exact hlog ▸ uncharged_nil
  | x402 _ hcaller | mpp _ hcaller => exact uncharged_accepted hcaller.log

theorem execute_collects (w : World) (r : Request) (reqId : PyJson) : Coro.Ends Fresh (execute w r reqId) (Collects w) := by
  simp only [execute]
  split_ifs
  · exact Coro.Ends.pure fun s _ _ h => by cases h
  · refine Coro.Ends.bind (authenticate_ends w r _) (fun answer => ?_) (fun e s _ _ h => by cases h) (fun s _ _ h => by cases h)
    cases answer with
    | some a => exact Coro.Ends.pure fun s _ _ h => by cases h
    | none => exact fun s hs => afterAuthentication_collects w r _ s ⟨rfl, hs.uncharged⟩

theorem callNext_collects (w : World) {P : Exchange → Prop} (hP : ∀ s, P s → s.x402Billing = none ∧ Uncharged s.log) :
    Coro.Ends P (do
      let response ← callNext w none
      return .response response : Run Answer) (Collects w) := by
  refine Coro.Ends.bind (callNext_ends w none P) (fun response => Coro.Ends.pure fun s hs => ?_) (fun e s _ _ => nofun)
    (fun s _ _ => nofun)
  obtain ⟨-, s', hs', rfl⟩ := hs
  intro response' _ _
  refine ⟨fun p hp => (nomatch (hP s' hs').1.symm.trans hp), fun _ q hmem => ?_⟩
  rcases mem_append.mp hmem with hmem | hmem
  · exact absurd hmem ((hP s' hs').2 q)
  · cases mem_singleton.mp hmem

theorem dispatch_collects (w : World) (r : Request) : Coro.Ends Fresh (dispatch w r) (Collects w) := by
  have hfresh : ∀ s, Fresh s → s.x402Billing = none ∧ Uncharged s.log := by
    rintro s rfl
    exact ⟨rfl, uncharged_nil⟩
  rw [dispatch]
  by_cases hother : ¬ w.mounted = true ∧ ¬ r.underMcp = true
  · rw [if_pos hother]
    exact callNext_collects w hfresh
  · rw [if_neg hother]
    cases route w r with
    | paymentProbe =>
      dsimp only [paymentProbe]
      split_ifs
      · exact Coro.Ends.pure fun s _ _ h => by cases h
      · cases x402ToolRequirements w bazaarInputExample with
        | error e => exact Coro.Ends.pure fun s _ _ h => by cases h
        | ok requirements => exact Coro.Ends.pure fun s _ _ h => by cases h
    | publicDiscovery smithery =>
      dsimp only [discover]
      split_ifs
      · exact Coro.Ends.pure fun s _ _ h => by cases h
      · refine update ?_
        cases smithery with
        | some reqId => exact Coro.Ends.pure fun s _ _ h => by cases h
        | none =>
          apply callNext_collects
          rintro s ⟨s', rfl, rfl⟩
          exact ⟨rfl, uncharged_nil⟩
    | execution reqId => exact execute_collects w r reqId

theorem execute_inOrder {executes : Prop} (h : ToolsCall w r data) (hauth : w.settings.mcpAuthEnabled = true)
    (hbilling : w.settings.mcpBillingEnabled = true) (hserver : executes → (toolCallName data).isSome = true)
    (reqId : PyJson) :
    Coro.Ends Fresh (execute w r reqId) (fun _ s => InOrder (Charged executes w r data) s.log) := by
  have hempty : ∀ s : Exchange, s.log = [] → InOrder (Charged executes w r data) s.log := by
    intro s hs
    apply inOrder_of_idle
    rw [hs]
    exact fun q => not_mem_nil
  simp only [execute, h.readJsonrpc]
  split_ifs
  · exact Coro.Ends.pure fun s hs => hempty s (congrArg Exchange.log hs)
  · refine Coro.Ends.bind (authenticate_ends w r data) (fun answer => ?_) (fun e s hs => hempty s hs)
      (fun s hs => False.elim hs)
    cases answer with
    | some a => exact Coro.Ends.pure fun s hs => hempty s hs
    | none => exact afterAuthentication_charged h hauth hbilling hserver

end Phases

/-- **No unpaid call.** With authentication and billing on, and a mounted server that executes a tool only for a JSON object
with the method `tools/call` and a non-empty string name: a `tools/call` is executed, not discovered, after the authentication
and the gate, charged or free for an anonymous caller; a successful x402 result is returned after it was settled; and a
successful credit result after its debit, or after its enqueue was attempted. -/
theorem no_unpaid_call (w : World) (r : Request) (hauth : w.settings.mcpAuthEnabled = true)
    (hbilling : w.settings.mcpBillingEnabled = true) (executes : List UInt8 → Prop)
    (hserver : ∀ body, executes body → ∃ data, loadsBytes w.limit body = .ok data ∧ data.isDict = true ∧
      data.get? "method" = some (.str "tools/call") ∧ (toolCallName data).isSome = true) :
    (∀ data, ToolsCall w r data → route w r = .execution (reqIdOf data) ∧
      InOrder (fun q => executes r.body → q.isSome = true ∨ FreeCall w r data) (run w r).2.log) ∧
    Collects w (run w r).1 (run w r).2 := by
  refine ⟨fun data h => ⟨h.route, ?_⟩, dispatch_collects w r {} rfl⟩
  have hnamed : executes r.body → (toolCallName data).isSome = true := by
    intro hexecutes
    obtain ⟨data', hjson, -, -, hname⟩ := hserver r.body hexecutes
    cases Except.ok.inj (h.json.symm.trans hjson)
    exact hname
  rw [run, h.dispatch]
  exact execute_inOrder h hauth hbilling hnamed (reqIdOf data) {} rfl

/-- the settled call of a payer -/
theorem no_unpaid_call_settled :
    (∀ data, ToolsCall (sampleWorld samplePrices) x402Request data →
      route (sampleWorld samplePrices) x402Request = .execution (reqIdOf data) ∧
      InOrder (fun q => x402Request.body = sampleBody → q.isSome = true ∨ FreeCall (sampleWorld samplePrices) x402Request data)
        (run (sampleWorld samplePrices) x402Request).2.log) ∧
    Collects (sampleWorld samplePrices) (run (sampleWorld samplePrices) x402Request).1
      (run (sampleWorld samplePrices) x402Request).2 :=
  no_unpaid_call (sampleWorld samplePrices) x402Request rfl rfl (fun body => body = sampleBody) fun body hbody => by
    have hjson := (sample_toolsCall samplePrices .null none).json
    exact ⟨sampleData, hbody ▸ hjson, rfl, by decide, by decide⟩

example : (run (sampleWorld samplePrices) x402Request).2.log =
    [.accepted (.x402 samplePayment), .authenticated, .gated (some ⟨none, 1000, "web_search", .null⟩),
      .callNext (some ⟨none, 1000, "web_search", .null⟩), .settlement true, .charge "x402" "settled"] := by decide +kernel

end Teardrop.Gateway
