/-
What becomes of an accepted payment (`teardrop/mcp_gateway.py`). Verification claims the header of an x402 payment (a row
of `x402_payment_nonces`) before the gate looks at the call; an MPP payment is final on chain by then. After that the
gateway reads the body again, prices the call, and for x402 asks for the payer's budget and reservation; it should hand the
call to the mounted server or, for x402, release the claim.
-/
import Teardrop.Mcp.Authentication
import Teardrop.Mcp.Classification
import Teardrop.Mcp.Records

namespace Teardrop.Gateway

open Py PyJson

/-! ## Conditions -/

/-- the release of a claim is committed -/
def releases (w : World) : Bool := (w.releaseCut.map Coro.Cut.committed).getD true

/-- the gate admits the payer of an x402 call: known, within the failure budget, its spend reserved -/
def admits (w : World) (r : Request) (data : PyJson) (p : X402Payment) (toolCost : ℤ) : Bool :=
  p.payer.strip ≠ [] && !w.payerLocked p.payer &&
    (x402Header w r data).any (fun header => w.reservePayerSpend header p.payer (authorizedCost p toolCost))

/-- the gate can price the call, and admits it or releases the claim -/
def Serves (w : World) (r : Request) (data : PyJson) : Billing → Prop
  | .mpp _ => ∃ billed, billedCall w data = .ok billed
  | .x402 p => w.pool = false ∨ match billedCall w data with
    | .error _ => False
    | .ok none => releases w = true
    | .ok (some (_, toolCost)) => admits w r data p toolCost = true ∨ releases w = true

/-- the tool was dispatched or, for x402, no claim is left -/
def Kept (b : Billing) (s : Exchange) : Prop :=
  (∃ pending, .callNext pending ∈ s.log) ∨ (∃ p, b = .x402 p) ∧ s.claim = false

/-! ## The gate -/

def Idle (l : List Event) : Prop := ∀ pending, .callNext pending ∉ l

/-- a verified x402 payment on its way to the mounted server -/
structure X402Held (w : World) (r : Request) (data : PyJson) (p : X402Payment) (s : Exchange) : Prop where
  billing : s.x402Billing = some (.x402 p)
  org : s.mcpOrgId = none
  claim : s.claim = w.pool
  header : (paymentHeader r s).isSome ∧ paymentHeader r s = x402Header w r data
  idle : Idle s.log

/-- turned away after a release -/
def Released (w : World) (s : Exchange) : Prop := s.claim = (w.pool && !releases w) ∧ Idle s.log

section Phases

variable {w : World} {r : Request} {data : PyJson} {p : X402Payment}

theorem releasePaymentNonce_ends (w : World) :
    Coro.Ends (fun s => s.claim = w.pool ∧ Idle s.log) (releasePaymentNonce w) (fun _ s => Released w s) := by
  rw [releasePaymentNonce]
  split_ifs with hpool
  · refine Coro.Ends.await (fun hnone s hs => ⟨?_, hs.2⟩) (fun c hc s hs => ?_)
    · simp only [releases, hnone, Option.map_none, Option.getD_none, Bool.not_true, Bool.and_false]
    · cases hcommitted : c.committed with
      | true =>
        refine ⟨?_, hs.2⟩
        simp only [releases, hc, Option.map_some, Option.getD_some, hcommitted, if_true, Bool.not_true, Bool.and_false]
      | false =>
        refine ⟨?_, hs.2⟩
        simp only [releases, hc, Option.map_some, Option.getD_some, hcommitted, Bool.not_false, Bool.and_true]
        exact hs.1
  · refine Coro.Ends.pure (fun s hs => ⟨?_, hs.2⟩)
    rw [hs.1, Bool.eq_false_of_not_eq_true hpool, Bool.false_and]

theorem releasePaymentClaim_ends : Coro.Ends (X402Held w r data p) (releasePaymentClaim w r) (fun _ s => Released w s) := by
  rw [releasePaymentClaim]
  refine Coro.Ends.get (fun s' => ?_)
  by_cases hheld : X402Held w r data p s'
  · simp only [hheld.billing, hheld.header.1, if_true]
    exact (releasePaymentNonce_ends w).strengthen (fun s hs => ⟨hs.1.claim, hs.1.idle⟩)
  · rintro s ⟨hs, rfl⟩
    exact absurd hs hheld

/-- how the gate ends for an x402 payment of a named call -/
def X402Gated (w : World) (r : Request) (data : PyJson) (p : X402Payment) (toolCost : ℤ) :
    Exit Exc GateOutcome → Exchange → Prop
  | .returned (.pending _), _ => admits w r data p toolCost = true
  | .returned .pass, _ => False
  | _, s => admits w r data p toolCost = false ∧ Released w s

theorem refuseX402_ends {toolCost : ℤ} (h : admits w r data p toolCost = false) (a : Reply) :
    Coro.Ends (X402Held w r data p) (refuseX402 w r a) (X402Gated w r data p toolCost) :=
  Coro.Ends.bind releasePaymentClaim_ends (fun _ => Coro.Ends.pure fun _ hs => ⟨h, hs⟩) (fun _ _ hs => ⟨h, hs⟩)
    (fun _ hs => ⟨h, hs⟩)

theorem gateX402_ends (pending : Pending) :
    Coro.Ends (X402Held w r data p) (gateX402 w r p pending) (X402Gated w r data p pending.toolCost) := by
  rw [gateX402]
  refine Coro.Ends.get (fun header => ?_)
  cases header with
  | none =>
    rintro s ⟨hs, hnone⟩
    have hsome := hs.header.1
    rw [hnone] at hsome
    cases hsome
  | some header =>
    by_cases hheader : x402Header w r data = some header
    · have hadmits : admits w r data p pending.toolCost = (p.payer.strip ≠ [] && !w.payerLocked p.payer &&
          w.reservePayerSpend header p.payer (authorizedCost p pending.toolCost)) := by
        rw [admits, hheader]
        rfl
      have hheld : ∀ s, X402Held w r data p s ∧ paymentHeader r s = some header → X402Held w r data p s := fun s hs => hs.1
      dsimp only
      split_ifs with hpayer hlocked hreserved
      · refine (refuseX402_ends ?_ _).strengthen hheld
        simp only [hadmits, hpayer, ne_eq, not_true, decide_false, Bool.false_and]
      · refine (refuseX402_ends ?_ _).strengthen hheld
        simp only [hadmits, hlocked, Bool.not_true, Bool.and_false, Bool.false_and]
      · refine Coro.Ends.update (Coro.Ends.pure (fun s hs => ?_))
        show admits w r data p pending.toolCost = true
        simp only [hadmits, hpayer, hlocked, hreserved, ne_eq, not_false_eq_true, decide_true, Bool.not_false, Bool.and_self]
      · refine (refuseX402_ends ?_ _).strengthen hheld
        simp only [hadmits, hreserved, Bool.and_false]
    · rintro s ⟨hs, hsome⟩
      exact absurd (hs.header.2.symm.trans hsome) hheader

/-- how the gate ends for an x402 payment -/
def X402Decided (w : World) (r : Request) (data : PyJson) (p : X402Payment) (exit : Exit Exc GateOutcome) (s : Exchange) :
    Prop :=
  match billedCall w data with
  | .error _ => (∃ e, exit = .raised e) ∧ X402Held w r data p s
  | .ok none => exit = .returned .pass ∧ X402Held w r data p s
  | .ok (some (_, toolCost)) => X402Gated w r data p toolCost exit s

theorem billingGate_x402_ends (h : ToolsCall w r data) (hbilling : w.settings.mcpBillingEnabled = true) :
    Coro.Ends (X402Held w r data p) (billingGate w r) (X402Decided w r data p) := by
  refine billingGate_ends h hbilling (fun s hs hnone => nomatch hs.billing.symm.trans hnone.1) ?_
  refine gateBody_ends h ?_ ?_ ?_
  · intro e he s hs
    rw [X402Decided, he]
    exact ⟨⟨e, rfl⟩, hs⟩
  · intro hnone s hs
    rw [X402Decided, hnone]
    exact ⟨rfl, hs⟩
  · intro name toolCost hbilled
    refine Coro.Ends.get (fun s' => ?_)
    by_cases hheld : X402Held w r data p s'
    · simp only [hheld.billing]
      refine ((gateX402_ends _).strengthen (fun s hs => hs.1)).weaken (fun exit s hs => ?_)
      rw [X402Decided, hbilled]
      exact hs
    · rintro s ⟨hs, rfl⟩
      exact absurd hs hheld

/-! ## After the gate -/

theorem runPending_called (w : World) (r : Request) (pending : Pending) (P : Exchange → Prop) :
    Coro.Ends P (runPending w r pending) (fun _ s => .callNext (some pending) ∈ s.log) := by
  have hlasts : Lasts (fun l => .callNext (some pending) ∈ l) := fun l e _ h => List.mem_append_left _ h
  refine Coro.Ends.update ?_
  refine Coro.Ends.bindAttempt (callNext_ends w (some pending) _) (fun response s hs => ?_) (fun e s hs => ?_)
    (fun s hs => absurd rfl hs.1)
  · dsimp only
    split_ifs
    · exact (logKeeps_settleBilling hlasts w r pending response _ s ⟨rfl, hs.mem⟩).2
    · exact (Coro.Keeps.bind (logKeeps_releaseX402Reservation w r) (fun _ => Coro.Keeps.pure _) s ⟨rfl, hs.mem⟩).2
  · exact (Coro.Keeps.bind (logKeeps_releaseX402Reservation w r) (fun _ => Coro.Keeps.raise e) s ⟨rfl, hs.mem⟩).2

theorem runUnbilled_x402_ends : Coro.Ends (X402Held w r data p) (runUnbilled w r data) (fun _ s => Released w s) := by
  rw [runUnbilled]
  refine Coro.Ends.get (fun s' => ?_)
  by_cases hheld : X402Held w r data p s'
  · simp only [hheld.billing, Option.isSome_some, if_true]
    exact Coro.Ends.bind (releasePaymentClaim_ends.strengthen fun s hs => hs.1) (fun _ => Coro.Ends.pure fun s hs => hs)
      (fun _ s hs => hs) (fun s hs => hs)
  · rintro s ⟨hs, rfl⟩
    exact absurd hs hheld

variable {P : Exchange → Prop} {s : Exchange}

theorem afterAuthentication_ends {R : Exchange → Prop} {Q : Exit Exc Answer → Exchange → Prop}
    (hrecord : ∀ s, P s → R { s with log := s.log ++ [.authenticated] }) (horg : ∀ s, R s → s.mcpOrgId = none)
    (hgate : Coro.Ends R (do
      let gate ← billingGate w r
      match gate with
      | .refused a => return .own a
      | .pending q => runPending w r q
      | .pass => runUnbilled w r data : Run Answer) Q) : Coro.Ends P (afterAuthentication w r data) Q := by
  rw [afterAuthentication]
  refine Coro.Ends.update ?_
  refine Coro.Ends.get (fun s' => ?_)
  by_cases hnone : s'.mcpOrgId = none
  · have hopen : ¬ ((nonEmpty s'.mcpOrgId).isSome = true ∧ w.orgLimited = true) := by
      rw [hnone]
      exact fun h => nomatch h.1
    rw [if_neg hopen]
    refine hgate.strengthen ?_
    rintro s ⟨⟨s', hs, rfl⟩, -⟩
    exact hrecord s' hs
  · rintro s ⟨⟨s', hs, rfl⟩, rfl⟩
    exact absurd (horg _ (hrecord s' hs)) hnone

theorem Idle.snoc {l : List Event} (h : Idle l) {e : Event} (he : ∀ pending, e ≠ .callNext pending) : Idle (l ++ [e]) := by
  intro pending hmem
  rcases List.mem_append.mp hmem with hmem | hmem
  · exact h pending hmem
  · exact he pending (List.mem_singleton.mp hmem).symm

theorem idle_accepted (b : Billing) : Idle [.accepted b] := by
  intro pending hmem
  cases List.mem_singleton.mp hmem

theorem Released.kept_iff (h : Released w s) : Kept (.x402 p) s ↔ w.pool = false ∨ releases w = true := by
  have hclaim : s.claim = false ↔ w.pool = false ∨ releases w = true := by
    rw [h.1, Bool.and_eq_false_iff, Bool.not_eq_false']
  rw [← hclaim]
  constructor
  · rintro (⟨pending, hmem⟩ | ⟨-, hs⟩)
    · exact absurd hmem (h.2 pending)
    · exact hs
  · exact fun hs => .inr ⟨⟨p, rfl⟩, hs⟩

theorem X402Held.kept_iff (h : X402Held w r data p s) : Kept (.x402 p) s ↔ w.pool = false := by
  rw [← h.claim]
  constructor
  · rintro (⟨pending, hmem⟩ | ⟨-, hs⟩)
    · exact absurd hmem (h.idle pending)
    · exact hs
  · exact fun hs => .inr ⟨⟨p, rfl⟩, hs⟩

theorem afterAuthentication_x402_ends (h : ToolsCall w r data) (hbilling : w.settings.mcpBillingEnabled = true) :
    Coro.Ends (X402Caller w r data p) (afterAuthentication w r data)
      (fun _ s => Kept (.x402 p) s ↔ Serves w r data (.x402 p)) := by
  refine afterAuthentication_ends (R := X402Held w r data p) (fun s hs => ?_) (fun s hs => hs.org) ?_
  · have hidle : Idle s.log := hs.log ▸ idle_accepted _
    exact ⟨hs.billing, hs.org, hs.claim, hs.header, hidle.snoc nofun⟩
  · have hgate := billingGate_x402_ends (p := p) h hbilling
    cases hbilled : billedCall w data with
    | error e =>
      have hserves : Serves w r data (.x402 p) ↔ w.pool = false := by simp only [Serves, hbilled, or_false]
      have hraised := hgate.weaken fun exit s hs => (by rwa [X402Decided, hbilled] at hs :
        (∃ e, exit = .raised e) ∧ X402Held w r data p s)
      refine Coro.Ends.bind hraised (fun gate s hs => ?_) (fun e s hs => hs.2.kept_iff.trans hserves.symm) (fun s hs => ?_)
      · obtain ⟨⟨e, he⟩, -⟩ := hs
        cases he
      · obtain ⟨⟨e, he⟩, -⟩ := hs
        cases he
    | ok billed =>
      rcases billed with _ | ⟨name, toolCost⟩
      · have hserves : Serves w r data (.x402 p) ↔ w.pool = false ∨ releases w = true := by simp only [Serves, hbilled]
        have hpass := hgate.weaken fun exit s hs => (by rwa [X402Decided, hbilled] at hs :
          exit = .returned .pass ∧ X402Held w r data p s)
        refine Coro.Ends.bind hpass (fun gate => ?_) (fun e s hs => nomatch hs.1) (fun s hs => nomatch hs.1)
        cases gate with
        | pass =>
          exact (runUnbilled_x402_ends.strengthen fun s hs => hs.2).weaken fun exit s hs => hs.kept_iff.trans hserves.symm
        | pending q => exact fun s hs => nomatch hs.1
        | refused a => exact fun s hs => nomatch hs.1
      · have hserves : Serves w r data (.x402 p) ↔
            w.pool = false ∨ admits w r data p toolCost = true ∨ releases w = true := by simp only [Serves, hbilled]
        have hnamed := hgate.weaken fun exit s hs => (by rwa [X402Decided, hbilled] at hs :
          X402Gated w r data p toolCost exit s)
        have hreleased : ∀ s, admits w r data p toolCost = false ∧ Released w s →
            (Kept (.x402 p) s ↔ Serves w r data (.x402 p)) := by
          intro s hs
          rw [hs.2.kept_iff, hserves, hs.1]
          simp only [Bool.false_eq_true, false_or]
        refine Coro.Ends.bind hnamed (fun gate => ?_) (fun e s => hreleased s) hreleased
        cases gate with
        | pass => exact fun s hs => False.elim hs
        | pending q =>
          by_cases hadmits : admits w r data p toolCost = true
          · refine (runPending_called w r q _).weaken (fun exit s hs => ?_)
            exact iff_of_true (.inl ⟨_, hs⟩) (hserves.mpr (.inr (.inl hadmits)))
          · exact fun s hs => absurd hs hadmits
        | refused a => exact Coro.Ends.pure hreleased

/-- a verified MPP payment on its way to the mounted server -/
structure MppHeld (p : MppPayment) (s : Exchange) : Prop where
  billing : s.x402Billing = some (.mpp p)
  org : s.mcpOrgId = none
  idle : Idle s.log

theorem MppHeld.stranded {p : MppPayment} (h : MppHeld p s) : ¬ Kept (.mpp p) s := by
  rintro (⟨pending, hmem⟩ | ⟨⟨q, hq⟩, -⟩)
  · exact h.idle pending hmem
  · cases hq

theorem afterAuthentication_mpp_ends {p : MppPayment} (h : ToolsCall w r data)
    (hbilling : w.settings.mcpBillingEnabled = true) :
    Coro.Ends (MppCaller data p) (afterAuthentication w r data) (fun _ s => Kept (.mpp p) s ↔ Serves w r data (.mpp p)) := by
  by_cases hnamed : (toolCallName data).isSome = true
  · refine afterAuthentication_ends (R := MppHeld p) (fun s hs => ?_) (fun s hs => hs.org) ?_
    · have hidle : Idle s.log := hs.log ▸ idle_accepted _
      exact ⟨hs.billing, hs.org, hidle.snoc nofun⟩
    · have hpaid : ∀ s, MppHeld p s → ¬ (s.x402Billing = none ∧ s.mcpOrgId = none) :=
        fun s hs hnone => nomatch hs.billing.symm.trans hnone.1
      cases hbilled : billedCall w data with
      | error e =>
        have hserves : ¬ Serves w r data (.mpp p) := by
          rintro ⟨billed, hok⟩
          rw [hbilled] at hok
          cases hok
        have hgate : Coro.Ends (MppHeld p) (billingGate w r) (fun exit s => (∃ e, exit = .raised e) ∧ MppHeld p s) := by
          refine billingGate_ends h hbilling hpaid (gateBody_ends h (fun e he s hs => ⟨⟨e, rfl⟩, hs⟩) ?_ ?_)
          · rw [hbilled]
            exact nofun
          · rw [hbilled]
            exact nofun
        refine Coro.Ends.bind hgate (fun gate s hs => ?_) (fun e s hs => iff_of_false hs.2.stranded hserves) (fun s hs => ?_)
        · obtain ⟨⟨e, he⟩, -⟩ := hs
          cases he
        · obtain ⟨⟨e, he⟩, -⟩ := hs
          cases he
      | ok billed =>
        have hgate : Coro.Ends (MppHeld p) (billingGate w r) (fun exit _ => ∃ q, exit = .returned (.pending q)) := by
          refine billingGate_ends h hbilling hpaid (gateBody_ends h ?_ ?_ (fun name toolCost _ => ?_))
          · rw [hbilled]
            exact nofun
          · exact fun hnone => absurd hnone (billedCall_named hnamed)
          · refine Coro.Ends.get (fun s' => ?_)
            by_cases hheld : s'.x402Billing = some (.mpp p)
            · simp only [hheld]
              exact Coro.Ends.pure fun s hs => ⟨_, rfl⟩
            · rintro s ⟨hs, rfl⟩
              exact absurd hs.billing hheld
        refine Coro.Ends.bind hgate (fun gate => ?_) (fun e s hs => ?_) (fun s hs => ?_)
        · cases gate with
          | pending q =>
            refine (runPending_called w r q _).weaken (fun exit s hs => ?_)
            exact iff_of_true (.inl ⟨_, hs⟩) ⟨billed, hbilled⟩
          | pass =>
            rintro s ⟨q, hq⟩
            cases hq
          | refused a =>
            rintro s ⟨q, hq⟩
            cases hq
        · obtain ⟨q, hq⟩ := hs
          cases hq
        · obtain ⟨q, hq⟩ := hs
          cases hq
  · exact fun s hs => absurd hs.named hnamed

/-! ## Whole requests -/

/-- the payments of a log are those of `b` -/
def PaidBy (b : Option Billing) (l : List Event) : Prop := ∀ b', .accepted b' ∈ l → b = some b'

theorem paidBy_settles (b : Option Billing) : Settles (PaidBy b) := by
  intro l e he h b' hmem
  rcases List.mem_append.mp hmem with hmem | hmem
  · exact h b' hmem
  · exact absurd (List.mem_singleton.mp hmem).symm (he b')

theorem paidBy_nil (b : Option Billing) : PaidBy b [] := nofun

theorem paidBy_accepted (b : Billing) : PaidBy (some b) [.accepted b] := by
  intro b' hmem
  cases List.mem_singleton.mp hmem
  rfl

/-- every payment a log accepts is kept exactly when it can be served -/
def KeptIff (w : World) (r : Request) (data : PyJson) (s : Exchange) : Prop :=
  ∀ b, .accepted b ∈ s.log → (Kept b s ↔ Serves w r data b)

theorem keptIff_unpaid (h : PaidBy none s.log) : KeptIff w r data s := fun b hmem => nomatch h b hmem

theorem keptIff_paid {b : Billing} (hpaid : PaidBy (some b) s.log) (h : Kept b s ↔ Serves w r data b) :
    KeptIff w r data s := by
  intro b' hmem
  cases hpaid b' hmem
  exact h

theorem afterAuthentication_unpaid_ends (hlog : ∀ s, P s → s.log = []) :
    Coro.Ends P (afterAuthentication w r data) (fun _ s => KeptIff w r data s) := by
  intro s hs
  have hlog : PaidBy none s.log := by
    rw [hlog s hs]
    exact paidBy_nil none
  exact keptIff_unpaid (logKeeps_afterAuthentication (paidBy_settles none) w r data s ⟨rfl, hlog⟩).2

theorem afterAuthentication_caller_ends (h : ToolsCall w r data) (hbilling : w.settings.mcpBillingEnabled = true) :
    Coro.Ends (Caller w r data) (afterAuthentication w r data) (fun _ s => KeptIff w r data s) := by
  intro s hs
  cases hs with
  | bearer hnone horg hlog => exact afterAuthentication_unpaid_ends (P := fun s => s.log = []) (fun s hs => hs) s hlog
  | unchecked hauth hnone hlog => exact afterAuthentication_unpaid_ends (P := fun s => s.log = []) (fun s hs => hs) s hlog
  | free hnone hfree hlog => exact afterAuthentication_unpaid_ends (P := fun s => s.log = []) (fun s hs => hs) s hlog
  | x402 p hcaller =>
    have hlog : PaidBy (some (.x402 p)) s.log := by
      rw [hcaller.log]
      exact paidBy_accepted _
    exact keptIff_paid (logKeeps_afterAuthentication (paidBy_settles _) w r data s ⟨rfl, hlog⟩).2
      (afterAuthentication_x402_ends h hbilling s hcaller)
  | mpp p hcaller =>
    have hlog : PaidBy (some (.mpp p)) s.log := by
      rw [hcaller.log]
      exact paidBy_accepted _
    exact keptIff_paid (logKeeps_afterAuthentication (paidBy_settles _) w r data s ⟨rfl, hlog⟩).2
      (afterAuthentication_mpp_ends h hbilling s hcaller)

theorem execute_ends (h : ToolsCall w r data) (hbilling : w.settings.mcpBillingEnabled = true) (reqId : PyJson) :
    Coro.Ends Fresh (execute w r reqId) (fun _ s => KeptIff w r data s) := by
  have hunpaid : ∀ s : Exchange, s.log = [] → KeptIff w r data s := by
    intro s hs
    apply keptIff_unpaid
    rw [hs]
    exact paidBy_nil none
  simp only [execute, h.readJsonrpc]
  split_ifs
  · exact Coro.Ends.pure fun s hs => hunpaid s (congrArg Exchange.log hs)
  · refine Coro.Ends.bind (authenticate_ends w r data) (fun answer => ?_) (fun e s hs => hunpaid s hs)
      (fun s hs => False.elim hs)
    cases answer with
    | some a => exact Coro.Ends.pure fun s hs => hunpaid s hs
    | none => exact afterAuthentication_caller_ends h hbilling

end Phases

/-- **Accepted payments.** With billing enabled, whatever the lookups answer: an accepted payment of a `tools/call` ends with
the tool dispatched or, on the x402 rail, without its claim, exactly when the gate can price the call and, for x402, admits
it or commits its release. -/
theorem payment_kept_iff (w : World) (r : Request) (data : PyJson) (b : Billing) (h : ToolsCall w r data)
    (hbilling : w.settings.mcpBillingEnabled = true) (haccepted : .accepted b ∈ (run w r).2.log) :
    Kept b (run w r).2 ↔ Serves w r data b := by
  have hends := execute_ends h hbilling (reqIdOf data) {} rfl
  rw [run, h.dispatch] at haccepted ⊢
  exact hends b haccepted

/-! ## A pricing outage -/

def sampleSettings : Settings where
  mcpAuthEnabled := true
  mcpX402Enabled := true
  mcpBillingEnabled := true
  mppEnabled := true
  baseRpcUrl := "https://rpc"
  mpp := Mpp.barSettings
  onboardingCreditEnabled := false
  marketplaceEnabled := false

def samplePrices : PriceLookups := ⟨.ok (fun _ => none), .ok (some 1000), fun _ => .ok none, fun _ => .ok none⟩

/-- the pool refuses -/
def outagePrices : PriceLookups :=
  ⟨.ok (fun _ => none), .error (.pg .operational), fun _ => .ok none, fun _ => .ok none⟩

def samplePayment : X402Payment := ⟨⟨"exact", 1000⟩, "0xpayer"⟩

def sampleTransfer : MppPayment := ⟨"0xpayer", 1000, "0xtx"⟩

/-- every lookup succeeds, but for the prices at the gate -/
def sampleWorld (gatePrices : PriceLookups) : World where
  settings := sampleSettings
  mounted := true
  limit := 10
  pool := true
  token := .invalid
  credentialDisabled := .ok false
  budgetExhausted := fun _ => false
  ipLimited := false
  orgLimited := false
  prices := fun call => if call = .gate then gatePrices else samplePrices
  verifyMppPayment := fun _ _ => .ok { status := .ok, txHash := "0xtx", source := "0xpayer" }
  buildExactPaymentRequirements := fun amount => .ok [⟨"exact", amount.toNat⟩]
  getPaymentRequirements := .ok [⟨"exact", 1000⟩]
  verifyPayment := fun _ _ => .ok (.verified samplePayment)
  payerLocked := fun _ => false
  reservePayerSpend := fun _ _ _ => true
  releaseCut := none
  isPromotionalCredit := .ok false
  marketplaceTool := fun _ => .ok none
  verifyCredit := fun _ => .ok none
  next := .ok ⟨200, []⟩
  settlePayment := .ok true
  debitCredit := .ok true
  recordCharge := .ok ()
  enqueueFailedSettlement := .ok ()

def sampleBody : List UInt8 :=
  (PyStr.ofString "\x7b\"method\":\"tools/call\",\"params\":\x7b\"name\":\"web_search\"\x7d\x7d").flatMap Utf8.encodeChar

def sampleData : PyJson := .obj [("method", .str "tools/call"), ("params", .obj [("name", .str "web_search")])]

/-- an anonymous call with a payment header, or with an MPP credential -/
def sampleRequest (credential : PyJson) (header : Option PyStr) : Request where
  method := "POST"
  underMcp := true
  body := sampleBody
  bearer := none
  paymentAuthorization := credential
  paymentSignature := header
  xPayment := none
  acceptsEventStream := false
  protocolVersion := false

def x402Request : Request := sampleRequest .null (some "payment")

def mppRequest : Request := sampleRequest (.obj []) none

theorem sample_toolsCall (prices : PriceLookups) (credential : PyJson) (header : Option PyStr) :
    ToolsCall (sampleWorld prices) (sampleRequest credential header) sampleData where
  intercepted := .inl rfl
  post := rfl
  json := by
    show loadsBytes 10 sampleBody = .ok sampleData
    decide +kernel
  dict := rfl
  method := by decide

theorem payment_kept_served : Kept (.x402 samplePayment) (run (sampleWorld samplePrices) x402Request).2 ↔
      Serves (sampleWorld samplePrices) x402Request sampleData (.x402 samplePayment) :=
  payment_kept_iff (sampleWorld samplePrices) x402Request sampleData (.x402 samplePayment)
    (sample_toolsCall samplePrices .null (some "payment")) rfl (by decide +kernel)

/-- **Stranded.** Everything is enabled and the call is well formed; the payment is accepted, the pool refuses the gate its
prices, and the request ends with neither the tool dispatched nor the claim released; and an MPP payment never reaches the
tool. -/
theorem outage_strands :
    mppConfigured sampleSettings = true ∧
    (ToolsCall (sampleWorld outagePrices) x402Request sampleData ∧
      .accepted (.x402 samplePayment) ∈ (run (sampleWorld outagePrices) x402Request).2.log ∧
      ¬ Kept (.x402 samplePayment) (run (sampleWorld outagePrices) x402Request).2) ∧
    (ToolsCall (sampleWorld outagePrices) mppRequest sampleData ∧
      .accepted (.mpp sampleTransfer) ∈ (run (sampleWorld outagePrices) mppRequest).2.log ∧
      ¬ ∃ pending, .callNext pending ∈ (run (sampleWorld outagePrices) mppRequest).2.log) := by
  have hx402 : (run (sampleWorld outagePrices) x402Request).2.log = [.accepted (.x402 samplePayment), .authenticated] := by
    decide +kernel
  have hclaim : (run (sampleWorld outagePrices) x402Request).2.claim = true := by decide +kernel
  have hmpp : (run (sampleWorld outagePrices) mppRequest).2.log = [.accepted (.mpp sampleTransfer), .authenticated] := by
    decide +kernel
  refine ⟨by decide, ⟨sample_toolsCall outagePrices .null (some "payment"), ?_, ?_⟩,
    ⟨sample_toolsCall outagePrices (.obj []) none, ?_, ?_⟩⟩
  · rw [hx402]
    exact List.mem_cons_self
  · rintro (⟨pending, hmem⟩ | ⟨-, hreleased⟩)
    · rw [hx402] at hmem
      simp at hmem
    · rw [hclaim] at hreleased
      cases hreleased
  · rw [hmpp]
    exact List.mem_cons_self
  · rintro ⟨pending, hmem⟩
    rw [hmpp] at hmem
    simp at hmem

end Teardrop.Gateway
