/-
What the phases after the authentication write into the log of a request (`teardrop/mcp_gateway.py`). The gate and the
releases write nothing and the settlement only bookkeeping, so what holds of the log and outlasts bookkeeping holds after
them, however they end.
-/
import Teardrop.Mcp.Gateway

namespace Teardrop.Gateway

open Py PyJson
open Coro.Keeps (modify await attempt lift raise)

/-- what the settlement writes -/
def Event.isBookkeeping : Event → Bool
  | .settlement _ | .debit _ _ | .charge _ _ | .enqueue _ => true
  | _ => false

/-- a property of logs that outlasts bookkeeping -/
def Lasts (I : List Event → Prop) : Prop := ∀ l e, e.isBookkeeping = true → I l → I (l ++ [e])

/-- the payment stays the same, and the log has what it had -/
def LogKeeps {α : Type} (b : Option Billing) (I : List Event → Prop) (m : Run α) : Prop :=
  Coro.Keeps (fun s => s.x402Billing = b ∧ I s.log) m

section Phases

variable {b : Option Billing} {I : List Event → Prop}

theorem logKeeps_modify {f : Exchange → Exchange} (h : ∀ s, (f s).x402Billing = s.x402Billing ∧ (f s).log = s.log) :
    LogKeeps b I (Coro.modify f) := by
  refine modify (fun s hs => ?_)
  rw [(h s).1, (h s).2]
  exact hs

theorem logKeeps_record (hI : Lasts I) {e : Event} (he : e.isBookkeeping = true) : LogKeeps b I (record e) :=
  modify (fun s hs => ⟨hs.1, hI s.log e he hs.2⟩)

variable (w : World) (r : Request)

theorem logKeeps_releasePaymentNonce : LogKeeps b I (releasePaymentNonce w) := by
  rw [releasePaymentNonce]
  split_ifs
  · exact await (fun s hs => hs) _
  · exact Coro.Keeps.pure ()

theorem logKeeps_releasePaymentClaim : LogKeeps b I (releasePaymentClaim w r) := by
  refine Coro.Keeps.bind (Coro.Keeps.get id) (fun s => ?_)
  rcases s.x402Billing with _ | (p | p)
  · split_ifs
    · exact logKeeps_releasePaymentNonce w
    · exact Coro.Keeps.pure ()
  · split_ifs
    · exact logKeeps_releasePaymentNonce w
    · exact Coro.Keeps.pure ()
  · exact Coro.Keeps.pure ()

theorem logKeeps_releaseX402Reservation : LogKeeps b I (releaseX402Reservation w r) := by
  have hrelease : ∀ s : Exchange, LogKeeps b I (if s.mcpX402Reserved then do
      if (paymentHeader r s).isSome then do
        let _ ← Coro.attempt (releasePaymentNonce w)
        Coro.modify (fun s => { s with mcpX402Reserved := false })
      else Coro.modify (fun s => { s with mcpX402Reserved := false })
    else return () : Run Unit) := by
    intro s
    split_ifs
    · exact Coro.Keeps.bind (attempt (logKeeps_releasePaymentNonce w)) fun _ => logKeeps_modify fun _ => ⟨rfl, rfl⟩
    · exact logKeeps_modify fun _ => ⟨rfl, rfl⟩
    · exact Coro.Keeps.pure ()
  refine Coro.Keeps.bind (Coro.Keeps.get id) (fun s => ?_)
  rcases s.x402Billing with _ | (p | p)
  · exact hrelease _
  · exact hrelease _
  · exact logKeeps_modify fun _ => ⟨rfl, rfl⟩

theorem logKeeps_gateX402 (p : X402Payment) (pending : Pending) : LogKeeps b I (gateX402 w r p pending) := by
  have hrefuse : ∀ a, LogKeeps b I (refuseX402 w r a) := fun a =>
    Coro.Keeps.bind (logKeeps_releasePaymentClaim w r) fun _ => Coro.Keeps.pure _
  refine Coro.Keeps.bind (Coro.Keeps.get _) (fun header => ?_)
  cases header with
  | none => exact hrefuse _
  | some header =>
    dsimp only
    split_ifs
    · exact hrefuse _
    · exact hrefuse _
    · exact Coro.Keeps.bind (logKeeps_modify fun _ => ⟨rfl, rfl⟩) fun _ => Coro.Keeps.pure _
    · exact hrefuse _

theorem logKeeps_gateCredit (data : PyJson) (pending : Pending) : LogKeeps b I (gateCredit w data pending) := by
  refine Coro.Keeps.bind (lift _) (fun promotional => ?_)
  split_ifs
  · exact Coro.Keeps.pure _
  · refine Coro.Keeps.bind (lift _) (fun refusal => ?_)
    cases refusal.or (maxCostRefusal data pending.toolCost) with
    | some a => exact Coro.Keeps.pure _
    | none =>
      refine Coro.Keeps.bind (lift _) (fun unverified => ?_)
      cases unverified with
      | some error => exact Coro.Keeps.pure _
      | none => exact Coro.Keeps.pure _

theorem logKeeps_gateBody (data : PyJson) : LogKeeps b I (gateBody w r data) := by
  refine Coro.Keeps.bind (lift _) (fun method => ?_)
  split_ifs
  · exact Coro.Keeps.pure _
  · refine Coro.Keeps.bind (lift _) (fun billed => ?_)
    rcases billed with _ | ⟨toolName, toolCost⟩
    · exact Coro.Keeps.pure _
    · refine Coro.Keeps.bind (Coro.Keeps.get id) (fun s => ?_)
      rcases s.x402Billing with _ | (p | p)
      · exact logKeeps_gateCredit w data _
      · exact logKeeps_gateX402 w r p _
      · exact Coro.Keeps.pure _

theorem logKeeps_billingGate : LogKeeps b I (billingGate w r) := by
  refine Coro.Keeps.bind (Coro.Keeps.get id) (fun s => ?_)
  split_ifs
  · exact Coro.Keeps.pure _
  · refine Coro.Keeps.bind (lift _) (fun data => ?_)
    cases data with
    | none => exact Coro.Keeps.pure _
    | some data => exact logKeeps_gateBody w r data

theorem logKeeps_recordMcpOutcome (hI : Lasts I) (w : World) (method status : String) :
    LogKeeps b I (recordMcpOutcome w method status) :=
  Coro.Keeps.bind (logKeeps_record hI rfl) fun _ => lift _

theorem logKeeps_settleX402 (hI : Lasts I) (w : World) (r : Request) (pending : Pending) (response : Response) :
    LogKeeps b I (settleX402 w r pending response) := by
  refine Coro.Keeps.bind (attempt (lift _)) (fun answer => ?_)
  refine Coro.Keeps.bind (logKeeps_record hI rfl) (fun _ => ?_)
  split_ifs
  · exact Coro.Keeps.bind (logKeeps_recordMcpOutcome hI w _ _) fun _ => Coro.Keeps.pure _
  · exact Coro.Keeps.bind (logKeeps_recordMcpOutcome hI w _ _) fun _ =>
      Coro.Keeps.bind (Coro.Keeps.get _) fun _ => Coro.Keeps.pure _

theorem logKeeps_enqueueMcpRecovery (hI : Lasts I) (w : World) (toolCost : ℤ) :
    LogKeeps b I (enqueueMcpRecovery w toolCost) :=
  Coro.Keeps.bind (logKeeps_record hI rfl) fun _ =>
    Coro.Keeps.bind (attempt (lift _)) fun _ => Coro.Keeps.pure _

theorem logKeeps_settleCredit (hI : Lasts I) (w : World) (pending : Pending) (response : Response) :
    LogKeeps b I (settleCredit w pending response) := by
  refine Coro.Keeps.bind (lift _) (fun debited => ?_)
  refine Coro.Keeps.bind (logKeeps_record hI rfl) (fun _ => ?_)
  split_ifs
  · exact Coro.Keeps.bind (logKeeps_recordMcpOutcome hI w _ _) fun _ => Coro.Keeps.pure _
  · exact Coro.Keeps.bind (logKeeps_recordMcpOutcome hI w _ _) fun _ =>
      Coro.Keeps.bind (logKeeps_enqueueMcpRecovery hI w _) fun _ => Coro.Keeps.pure _

theorem logKeeps_settleBilling (hI : Lasts I) (w : World) (r : Request) (pending : Pending) (response : Response)
    (executionFailed : Bool) : LogKeeps b I (settleBilling w r pending response executionFailed) := by
  have hreleased : LogKeeps b I (do
      releaseX402Reservation w r
      return .response response : Run Answer) :=
    Coro.Keeps.bind (logKeeps_releaseX402Reservation w r) fun _ => Coro.Keeps.pure _
  refine Coro.Keeps.bind (Coro.Keeps.get id) (fun s => ?_)
  rcases s.x402Billing with _ | (p | p)
  · split_ifs
    · exact hreleased
    · exact logKeeps_settleCredit hI w pending response
  · split_ifs
    · exact hreleased
    · exact logKeeps_settleX402 hI w r pending response
  · exact Coro.Keeps.bind (logKeeps_recordMcpOutcome hI w _ _) fun _ => Coro.Keeps.pure _

/-- the log after the mounted server was called -/
def Called (pending : Option Pending) (P : Exchange → Prop) (exit : Exit Exc Response) (s : Exchange) : Prop :=
  exit ≠ .cancelled ∧ ∃ s', P s' ∧ s = { s' with log := s'.log ++ [.callNext pending] }

theorem Called.mem {pending : Option Pending} {P : Exchange → Prop} {exit : Exit Exc Response} {s : Exchange}
    (h : Called pending P exit s) : .callNext pending ∈ s.log := by
  obtain ⟨-, s', -, rfl⟩ := h
  exact List.mem_append_right _ (List.mem_singleton_self _)

theorem callNext_ends (pending : Option Pending) (P : Exchange → Prop) :
    Coro.Ends P (callNext w pending) (Called pending P) := by
  intro s hs
  rw [callNext, record, Coro.bind_run, Coro.modify]
  cases w.next with
  | ok _ | error _ => exact ⟨nofun, s, hs, rfl⟩

/-- a property of logs that only another acceptance can end -/
def Settles (I : List Event → Prop) : Prop := ∀ l e, (∀ b, e ≠ .accepted b) → I l → I (l ++ [e])

theorem Settles.lasts (hI : Settles I) : Lasts I := by
  intro l e he
  refine hI l e (fun b => ?_)
  rintro rfl
  cases he

theorem logKeeps_step (hI : Settles I) {e : Event} (he : ∀ b, e ≠ .accepted b) : LogKeeps b I (record e) :=
  modify (fun s hs => ⟨hs.1, hI s.log e he hs.2⟩)

theorem logKeeps_callNext (hI : Settles I) (w : World) (pending : Option Pending) : LogKeeps b I (callNext w pending) :=
  Coro.Keeps.bind (logKeeps_step hI nofun) fun _ => lift _

theorem logKeeps_runPending (hI : Settles I) (w : World) (r : Request) (pending : Pending) :
    LogKeeps b I (runPending w r pending) := by
  refine Coro.Keeps.bind (logKeeps_step hI nofun) (fun _ => ?_)
  refine Coro.Keeps.bind (attempt (logKeeps_callNext hI w _)) (fun result => ?_)
  cases result with
  | error e => exact Coro.Keeps.bind (logKeeps_releaseX402Reservation w r) fun _ => raise e
  | ok response =>
    dsimp only
    split_ifs
    · exact logKeeps_settleBilling hI.lasts w r pending response _
    · exact Coro.Keeps.bind (logKeeps_releaseX402Reservation w r) fun _ => Coro.Keeps.pure _

theorem logKeeps_runUnbilled (hI : Settles I) (w : World) (r : Request) (data : PyJson) :
    LogKeeps b I (runUnbilled w r data) := by
  refine Coro.Keeps.bind (Coro.Keeps.get id) (fun s => ?_)
  split_ifs
  · exact Coro.Keeps.bind (logKeeps_releasePaymentClaim w r) fun _ => Coro.Keeps.pure _
  · exact Coro.Keeps.pure _
  · exact Coro.Keeps.pure _
  · refine Coro.Keeps.bind (logKeeps_step hI nofun) (fun _ => ?_)
    refine Coro.Keeps.bind (attempt (logKeeps_callNext hI w _)) (fun result => ?_)
    cases result with
    | error e => exact Coro.Keeps.bind (logKeeps_releaseX402Reservation w r) fun _ => raise e
    | ok response => exact Coro.Keeps.pure _

theorem logKeeps_afterAuthentication (hI : Settles I) (w : World) (r : Request) (data : PyJson) :
    LogKeeps b I (afterAuthentication w r data) := by
  refine Coro.Keeps.bind (logKeeps_step hI nofun) (fun _ => ?_)
  refine Coro.Keeps.bind (Coro.Keeps.get id) (fun s => ?_)
  split_ifs
  · exact Coro.Keeps.pure _
  · refine Coro.Keeps.bind (logKeeps_billingGate w r) (fun gate => ?_)
    cases gate with
    | refused a => exact Coro.Keeps.pure _
    | pending q => exact logKeeps_runPending hI w r q
    | pass => exact logKeeps_runUnbilled hI w r data

end Phases

end Teardrop.Gateway
