/-
`delegate_to_agent` of `tools/definitions/delegate_to_agent.py`, from its pre-debit on: the exchange with the remote
agent, the x402 payment it may sign on the way, and the branches that record the outcome and refund, confirm or cancel.

At every await the coroutine can be cancelled, with the awaited call committed or not; a crash is a cancellation as far as the
store shows. The exchange runs under a timeout of its own, which raises inside it. What the call does before the pre-debit, and
the texts and columns of the audit event that billing never reads back, are left out.
-/
import Teardrop.Core.Coro
import Teardrop.Billing.Outflow

namespace Teardrop.Tools

open Teardrop.Py Coro Option
open Teardrop.Billing

/-! ## Model -/

/-- the funded call: what the code reads after its pre-debit -/
structure Delegation where
  org : String
  runId : String
  agentUrl : String
  agentName : String
  principal : Option String
  id : String
  estimatedCost : ℤ
  useX402 : Bool
  platformFeeBps : ℤ
  timeoutSeconds : ℤ

/-- the store, and the two locals that outlive an exception -/
structure Frame where
  db : Db
  paymentAttempted : Bool
  costUsdc : ℤ

/-- an exception of the exchange: `TimeoutError`, or any other with its text -/
inductive Failure where
  | timedOut
  | failed (reason : String)

/-- the remote agent's answer; `state` is `none` when it holds no valid task -/
structure Response where
  state : Option String
  resultText : String
  settlementTx : String

/-- the answer to the first message: a result, or a 402 for which a payment of `signed` was signed -/
inductive Offer where
  | answer (r : Response)
  | demand (signed : ℤ)

/-- what comes of waiting for the network -/
inductive Wire (α : Type) where
  | done (a : α)
  | raises (f : Failure)
  | cancelled

/-- what the surroundings decide of the exchange -/
structure Exchange where
  /-- waiting for one of the run's slots -/
  slot : Wire Unit
  first : Wire Offer
  mark : Env
  markCut : Option (Coro.Cut Failure)
  second : Wire Response

/-- what they decide of a database call: its environment, and whether the coroutine is cancelled in it, with the call
committed or not -/
structure DbStep where
  env : Env
  cut : Option Bool

structure Surroundings where
  exchange : Exchange
  event : DbStep
  request : DbStep
  complete : DbStep
  confirm : DbStep
  cancel : DbStep

structure DelegateResult where
  agentName : String
  status : String
  result : String
  error : Option String
  costUsdc : ℤ
deriving DecidableEq

abbrev Run := Coro Failure Frame

def wire {α : Type} : Wire α → Run α
  | .done a => pure a
  | .raises f => Coro.raise f
  | .cancelled => fun s => (.cancelled, s)

/-- await a database call -/
def dbCall {α : Type} (cut : Option (Coro.Cut Failure)) (call : Db → α × Db) : Run α :=
  Coro.await cut (fun fr => ((call fr.db).1, { fr with db := (call fr.db).2 }))

def DbStep.await {α : Type} (step : DbStep) (call : Env → Db → α × Db) : Run α :=
  dbCall (step.cut.map .cancel) (call step.env)

def applyPlatformFee (feeBps cost : ℤ) : ℤ := cost + cost * feeBps / 10000

/-- the delivery mark for a signed payment: it is charged with the platform fee -/
def markSigned (cfg : Settings) (d : Delegation) (x : Exchange) (signed : ℤ) : Db → Bool × Db :=
  markDelegationPossiblyDelivered cfg x.mark d.org d.id (some (applyPlatformFee d.platformFeeBps signed))

def onPaymentAttempt (cfg : Settings) (d : Delegation) (x : Exchange) (signed : ℤ) : Run Unit := do
  let marked ← dbCall x.markCut (markSigned cfg d x signed)
  if marked then
    Coro.modify (fun fr => { fr with paymentAttempted := true, costUsdc := applyPlatformFee d.platformFeeBps signed })
  else Coro.raise (.failed "Could not persist the x402 delivery state before dispatch.")

/-- `_send_remote_message`: `send_message_with_payment`, or `send_message`, for which a 402 is an error -/
def sendRemoteMessage (cfg : Settings) (d : Delegation) (x : Exchange) : Run Response := do
  match ← wire x.first with
  | .answer r => return r
  | .demand signed =>
    if d.useX402 then do
      onPaymentAttempt cfg d x signed
      wire x.second
    else Coro.raise (.failed "402 Payment Required")

def sendWithLimits (cfg : Settings) (d : Delegation) (x : Exchange) : Run Response := do
  wire x.slot
  sendRemoteMessage cfg d x

/-- `record_delegation_event` for the delegation -/
def recordEvent (d : Delegation) (step : DbStep) (taskStatus : String) (costUsdc : ℤ) : Run Bool :=
  step.await (fun e => recordDelegationEvent e ⟨d.id, d.org, taskStatus, costUsdc⟩)

def refundDelegation (d : Delegation) (request complete : DbStep) (costUsdc : ℤ) : Run Bool := do
  if costUsdc ≤ 0 then return true
  else do
    let requested ← request.await (fun e => requestDelegationRefund e d.org d.id)
    if requested then complete.await (fun e => completeDelegationRefund e d.org d.id)
    else return false

/-- a refund of what was charged, whose outcome is only logged -/
def refundCharge (d : Delegation) (s : Surroundings) (costUsdc : ℤ) : Run Unit := do
  let _ ← refundDelegation d s.request s.complete costUsdc
  Coro.modify (fun fr => { fr with costUsdc := 0 })

def Failure.reason (d : Delegation) : Failure → String
  | .timedOut => "timed out after " ++ toString d.timeoutSeconds ++ "s"
  | .failed reason => reason

/-- the handler of the exchange -/
def onSendFailure (d : Delegation) (s : Surroundings) (failure : Failure) : Run DelegateResult := do
  let fr ← Coro.get id
  if d.useX402 && fr.paymentAttempted then do
    let _ ← recordEvent d s.event "possibly_delivered" fr.costUsdc
    return ⟨d.agentName, "possibly_delivered", "",
      some "x402 delivery outcome is ambiguous; operator reconciliation is required before refunding.", fr.costUsdc⟩
  else do
    let _ ← recordEvent d s.event "failed" 0
    refundCharge d s fr.costUsdc
    return ⟨d.agentName, "failed", "", some ("Failed to send message to " ++ d.agentName ++ ": " ++ failure.reason d), 0⟩

/-- a completed task whose audit event could not be recorded -/
def onAuditLost (d : Delegation) (s : Surroundings) (r : Response) (fr : Frame) : Run DelegateResult := do
  if d.useX402 && fr.paymentAttempted then do
    let _ ← s.confirm.await (fun e => confirmDelegationDelivery e d.org d.id r.settlementTx)
    return ⟨d.agentName, "completed", r.resultText,
      some "Delegation audit could not be recorded; delivery retained for reconciliation.", fr.costUsdc⟩
  else do
    refundCharge d s fr.costUsdc
    return ⟨d.agentName, "failed", "", some "Delegation audit could not be recorded; pre-debit refunded.", 0⟩

/-- a completed task on record: confirm a paid one, refund an x402 one that was never paid, close any other -/
def onAudited (d : Delegation) (s : Surroundings) (r : Response) (fr : Frame) : Run DelegateResult := do
  if d.useX402 && fr.paymentAttempted then do
    let _ ← s.confirm.await (fun e => confirmDelegationDelivery e d.org d.id r.settlementTx)
  else if d.useX402 then refundCharge d s fr.costUsdc
  else do
    let _ ← s.cancel.await (fun e => cancelDelegationRefund e d.org d.id)
  let cost ← Coro.get Frame.costUsdc
  return ⟨d.agentName, "completed", r.resultText, none, cost⟩

/-- the post-delegation audit of a completed task -/
def onCompleted (d : Delegation) (s : Surroundings) (r : Response) : Run DelegateResult := do
  let fr ← Coro.get id
  let unpaid := d.useX402 && !fr.paymentAttempted
  let recorded ← recordEvent d s.event "completed" (if unpaid then 0 else fr.costUsdc)
  if recorded then onAudited d s r fr else onAuditLost d s r fr

/-- the error of a task that did not complete -/
def Response.stateError (r : Response) : String :=
  match r.state with
  | none => "Remote agent returned a response that is not a valid A2A Task."
  | some state => "Remote agent state: " ++ state

/-- the text extracted from a valid task -/
def Response.text (r : Response) : String := if r.state.isNone then "" else r.resultText

/-- the post-delegation audit of any other task -/
def onNotCompleted (d : Delegation) (s : Surroundings) (r : Response) : Run DelegateResult := do
  let fr ← Coro.get id
  if d.useX402 && fr.paymentAttempted then do
    let _ ← recordEvent d s.event "possibly_delivered" fr.costUsdc
    return ⟨d.agentName, "possibly_delivered", r.text,
      some (r.stateError ++ " x402 payment was signed; operator reconciliation is required before refunding."), fr.costUsdc⟩
  else do
    let _ ← recordEvent d s.event (r.state.getD "failed") 0
    refundCharge d s fr.costUsdc
    let cost ← Coro.get Frame.costUsdc
    return ⟨d.agentName, r.state.getD "failed", r.text, some r.stateError, cost⟩

/-- what follows the exchange -/
def settleUp (d : Delegation) (s : Surroundings) : Except Failure Response → Run DelegateResult
  | .error failure => onSendFailure d s failure
  | .ok r => if r.state = some "completed" then onCompleted d s r else onNotCompleted d s r

/-- `delegate_to_agent` after its pre-debit -/
def dispatch (cfg : Settings) (d : Delegation) (s : Surroundings) : Run DelegateResult := do
  let outcome ← Coro.attempt (sendWithLimits cfg d s.exchange)
  settleUp d s outcome

def fundDelegation (cfg : Settings) (e : Env) (d : Delegation) (db : Db) : (Bool × ℤ) × Db :=
  debitCreditWithDelegationRefund cfg e d.org d.estimatedCost ("a2a_delegation run=" ++ d.runId ++ " agent=" ++ d.agentUrl)
    d.id d.runId d.principal db

/-- the call once it is funded -/
def delegateToAgent (cfg : Settings) (d : Delegation) (s : Surroundings) (funded : Db) : Exit Failure DelegateResult × Frame :=
  dispatch cfg d s ⟨funded, false, d.estimatedCost⟩

/-! ## What is claimed -/

/-- refunded, cancelled, held for reconciliation, or found by the refund worker -/
def Settled (db : Db) (row : OutboxRow) : Prop :=
  row.status = .refunded ∨ row.status = .cancelled ∨ row.deliveryStatus = .possiblyDelivered ∨ workerSelects db row = true

/-- the pre-debit of delegation `id`, if it has one, is not stranded -/
def Recoverable (id : String) (db : Db) : Prop := ∀ row, db.outbox.get? id = some row → Settled db row

/-- the delivery mark is accepted, and committed whatever cuts its await short -/
def Marks (cfg : Settings) (d : Delegation) (x : Exchange) (signed : ℤ) (db : Db) : Prop :=
  (markSigned cfg d x signed db).1 = true ∧ ∀ cut, x.markCut = some cut → cut.committed = true

instance (db : Db) (row : OutboxRow) : Decidable (Settled db row) := inferInstanceAs (Decidable (_ ∨ _))

instance (id : String) (db : Db) : Decidable (Recoverable id db) :=
  decidable_of_iff ((db.outbox.get? id).all (fun row => decide (Settled db row)) = true) (by
    cases h : db.outbox.get? id <;> simp [Recoverable, h])

/-- the payment callback is reached and its delivery mark committed -/
def MarkLands (cfg : Settings) (d : Delegation) (x : Exchange) (db : Db) : Prop :=
  ∃ signed, x.slot = .done () ∧ x.first = .done (.demand signed) ∧ d.useX402 = true ∧ Marks cfg d x signed db

/-- the status and cost recorded for an exchange that ended by itself without a delivery mark; `none` when it was
cancelled -/
def auditOf (d : Delegation) (x : Exchange) : Option (String × ℤ) :=
  match x.slot with
  | .cancelled => none
  | .raises _ => some ("failed", 0)
  | .done () =>
    match x.first with
    | .cancelled => none
    | .raises _ => some ("failed", 0)
    | .done (.answer r) =>
      some (r.state.getD "failed", if r.state = some "completed" ∧ d.useX402 = false then d.estimatedCost else 0)
    | .done (.demand _) =>
      match x.markCut with
      | some (.cancel _) => if d.useX402 then none else some ("failed", 0)
      | _ => some ("failed", 0)

/-- the audit event is committed, with a status the worker takes for terminal -/
def EventLands (d : Delegation) (s : Surroundings) (status : String) (cost : ℤ) (db : Db) : Prop :=
  s.event.cut ≠ some false ∧ status ≠ "possibly_delivered" ∧
    (recordDelegationEvent s.event.env ⟨d.id, d.org, status, cost⟩ db).1 = true

/-- the call gets past its audit event, and its refund request is committed -/
def RequestLands (d : Delegation) (s : Surroundings) (status : String) (cost : ℤ) (db : Db) : Prop :=
  s.event.cut = none ∧ s.request.cut ≠ some false ∧ (requestDelegationRefund s.request.env d.org d.id
      (recordDelegationEvent s.event.env ⟨d.id, d.org, status, cost⟩ db).2).1 = true

/-- nothing was debited, or one of the three writes that leave a trace of the pre-debit was committed -/
def Recorded (cfg : Settings) (d : Delegation) (s : Surroundings) (db : Db) : Prop :=
  d.estimatedCost ≤ 0 ∨ MarkLands cfg d s.exchange db ∨
  ∃ status cost, auditOf d s.exchange = some (status, cost) ∧
    (EventLands d s status cost db ∨ RequestLands d s status cost db)

/-! ## The row under single operations -/

variable {db db' : Db} {row : OutboxRow} {id : String} {α : Type} (fr : Frame) {d : Delegation} {cfg : Settings} {cost : ℤ}
  {s : Surroundings} {x : Exchange}

theorem settled_of_holdStep {r r' : OutboxRow} {c : Credit} (h : HoldStep r.hold r'.hold c) : Settled db r' := by
  generalize hh' : r'.hold = after at h
  have hstatus : r'.status = after.status := by rw [← hh']; rfl
  have hdelivery : r'.deliveryStatus = after.delivery := by rw [← hh']; rfl
  cases h with
  | mark _ _ | adjust _ _ _ _ => exact .inr (.inr (.inl hdelivery))
  | confirm _ _ => exact .inr (.inl hstatus)
  | request _ hna =>
    refine .inr (.inr (.inr ?_))
    have hne : r'.deliveryStatus ≠ .possiblyDelivered := by
      rw [hdelivery]
      rcases hna with hna | hna <;> rw [hna] <;> decide
    simp [workerSelects, hstatus, hne]
  | complete _ _ | fail _ _ => exact .inl hstatus

theorem workerSelects_congr (h : db'.events = db.events) (row : OutboxRow) :
    workerSelects db' row = workerSelects db row := by
  rw [workerSelects, workerSelects, h]

theorem Settled.congr (h : db'.events = db.events) (hs : Settled db row) : Settled db' row := by
  unfold Settled at hs ⊢
  rwa [workerSelects_congr h]

/-- **An operation on the outbox strands no row.** -/
theorem Recoverable.acts {org d : String} (ha : Acts db db' org d) (h : Recoverable id db) : Recoverable id db' := by
  have hev : db'.events = db.events := by rw [ha.frame]
  intro row hrow
  cases ha.act with
  | idle hsame _ => exact (h row (by rw [← hsame, hrow])).congr hev
  | step hrw _ hs _ =>
    by_cases hid : id = d
    · subst hid
      obtain rfl := some.inj (hrw.after.symm.trans hrow)
      exact settled_of_holdStep hs
    · exact (h row (by rw [← hrw.others id hid, hrow])).congr hev
  | paid hrw _ _ _ _ hrefunded _ =>
    by_cases hid : id = d
    · subst hid
      obtain rfl := some.inj (hrw.after.symm.trans hrow)
      exact .inl hrefunded
    · exact (h row (by rw [← hrw.others id hid, hrow])).congr hev

theorem recordDelegationEvent_cases (e : Env) (row : EventRow) (db : Db) :
    recordDelegationEvent e row db = (false, db) ∨
    (recordDelegationEvent e row db = (true, db) ∧ db.events.get? row.id ≠ none) ∨
    ∃ events, db.events.insert? row = some events ∧ recordDelegationEvent e row db = (true, { db with events := events }) := by
  unfold recordDelegationEvent
  rcases call_cases (e.fault 0) (insertEvent row) db with ⟨x, hc⟩ | ⟨a, db', ht, hc⟩
  · rw [hc]
    exact .inl rfl
  · rw [hc]
    obtain ⟨-, ht⟩ := Tx.require_bind_ok ht
    have ht := Tx.read_bind_ok ht
    cases hins : db.events.insert? row with
    | none =>
      simp only [hins] at ht
      cases Tx.pure_ok ht
      refine .inr (.inl ⟨rfl, ?_⟩)
      intro hnone
      simp only [Table.insert?, dite_eq_left_iff] at hins
      exact absurd (hins (Table.get?_eq_none_iff.1 hnone)) (by simp)
    | some events =>
      simp only [hins] at ht
      have ht := Tx.read_bind_ok ht
      obtain ⟨-, ht⟩ := Tx.require_bind_ok ht
      cases Tx.pure_ok ht
      exact .inr (.inr ⟨events, rfl, rfl⟩)

theorem Recoverable.event (e : Env) (ev : EventRow) (h : Recoverable id db) :
    Recoverable id (recordDelegationEvent e ev db).2 := by
  rcases recordDelegationEvent_cases e ev db with hc | ⟨hc, -⟩ | ⟨events, hins, hc⟩
  · rw [hc]
    exact h
  · rw [hc]
    exact h
  · rw [hc]
    intro row hrow
    rcases h row hrow with hs | hs | hs | hs
    · exact .inl hs
    · exact .inr (.inl hs)
    · exact .inr (.inr (.inl hs))
    · refine .inr (.inr (.inr ?_))
      have hget := Table.get?_insert hins row.id
      by_cases hkey : ev.id = row.id
      · -- the row had no event before, so it was selected for its status
        have hnone : db.events.get? row.id = none := hkey ▸ (Table.insert?_eq_some hins).1
        simp only [workerSelects, hnone, filter_none, Bool.and_false, Bool.or_false, Bool.and_eq_true,
          decide_eq_true_eq] at hs
        simp only [workerSelects, hs.2, decide_true, Bool.true_or, Bool.and_true, decide_eq_true_eq]
        exact hs.1
      · rw [if_neg hkey] at hget
        rw [workerSelects] at hs ⊢
        rw [hget]
        exact hs

/-! ## A recoverable row stays recoverable to the end of the call -/

/-- the coroutine strands no row -/
def Safe {α : Type} (id : String) (m : Run α) : Prop := Coro.Keeps (fun fr => Recoverable id fr.db) m

theorem Safe.dbCall {call : Db → α × Db} (h : ∀ db, Recoverable id db → Recoverable id (call db).2)
    (cut : Option (Coro.Cut Failure)) : Safe id (dbCall cut call) :=
  Coro.Keeps.await (fun fr hfr => h fr.db hfr) cut

theorem safe_recordEvent (d : Delegation) (step : DbStep) (status : String) (cost : ℤ) :
    Safe d.id (recordEvent d step status cost) :=
  Safe.dbCall (fun _ h => h.event _ _) _

theorem safe_refundCharge (d : Delegation) (s : Surroundings) (cost : ℤ) : Safe d.id (refundCharge d s cost) := by
  refine Coro.Keeps.bind ?_ (fun _ => fun _ h => h)
  unfold refundDelegation
  split_ifs
  · exact Coro.Keeps.pure _
  · refine Coro.Keeps.bind (Safe.dbCall (fun db h => h.acts (request_acts _ _ _ db)) _) (fun requested => ?_)
    split_ifs
    · exact Safe.dbCall (fun db h => h.acts (complete_acts _ _ _ db).1) _
    · exact Coro.Keeps.pure _

theorem safe_confirm (d : Delegation) (step : DbStep) (tx : String) :
    Safe d.id (step.await (fun e => confirmDelegationDelivery e d.org d.id tx)) :=
  Safe.dbCall (fun db h => h.acts (confirm_acts _ _ _ _ db).1) _

theorem safe_onSendFailure (d : Delegation) (s : Surroundings) (failure : Failure) :
    Safe d.id (onSendFailure d s failure) := by
  refine Coro.Keeps.bind (Coro.Keeps.get _) (fun fr => ?_)
  split_ifs
  · exact Coro.Keeps.bind (safe_recordEvent _ _ _ _) (fun _ => Coro.Keeps.pure _)
  · exact Coro.Keeps.bind (safe_recordEvent _ _ _ _) fun _ =>
      Coro.Keeps.bind (safe_refundCharge _ _ _) fun _ => Coro.Keeps.pure _

theorem safe_onAuditLost (d : Delegation) (s : Surroundings) (r : Response) (fr : Frame) :
    Safe d.id (onAuditLost d s r fr) := by
  unfold onAuditLost
  split_ifs
  · exact Coro.Keeps.bind (safe_confirm _ _ _) (fun _ => Coro.Keeps.pure _)
  · exact Coro.Keeps.bind (safe_refundCharge _ _ _) (fun _ => Coro.Keeps.pure _)

theorem safe_onAudited (d : Delegation) (s : Surroundings) (r : Response) (fr : Frame) : Safe d.id (onAudited d s r fr) := by
  have finish : ∀ u : Unit, Safe d.id (do
      let cost ← get Frame.costUsdc
      return (⟨d.agentName, "completed", r.resultText, none, cost⟩ : DelegateResult) : Run DelegateResult) :=
    fun _ => Coro.Keeps.bind (Coro.Keeps.get _) (fun _ => Coro.Keeps.pure _)
  unfold onAudited
  split_ifs
  · exact Coro.Keeps.bind (safe_confirm _ _ _) (fun _ => finish ())
  · exact Coro.Keeps.bind (safe_refundCharge _ _ _) finish
  · exact Coro.Keeps.bind (Safe.dbCall (fun db h => h.acts (cancel_acts _ _ _ db)) _) (fun _ => finish ())

theorem safe_onCompleted (d : Delegation) (s : Surroundings) (r : Response) : Safe d.id (onCompleted d s r) := by
  refine Coro.Keeps.bind (Coro.Keeps.get _) (fun fr => ?_)
  refine Coro.Keeps.bind (safe_recordEvent _ _ _ _) (fun recorded => ?_)
  split_ifs
  · exact safe_onAudited d s r fr
  · exact safe_onAuditLost d s r fr

theorem safe_onNotCompleted (d : Delegation) (s : Surroundings) (r : Response) : Safe d.id (onNotCompleted d s r) := by
  refine Coro.Keeps.bind (Coro.Keeps.get _) (fun fr => ?_)
  split_ifs
  · exact Coro.Keeps.bind (safe_recordEvent _ _ _ _) (fun _ => Coro.Keeps.pure _)
  · exact Coro.Keeps.bind (safe_recordEvent _ _ _ _) fun _ => Coro.Keeps.bind (safe_refundCharge _ _ _) fun _ =>
      Coro.Keeps.bind (Coro.Keeps.get _) fun _ => Coro.Keeps.pure _

theorem safe_wire (id : String) (w : Wire α) : Safe id (wire w) := by
  cases w <;> exact fun _ h => h

theorem safe_sendWithLimits (cfg : Settings) (d : Delegation) (x : Exchange) : Safe d.id (sendWithLimits cfg d x) := by
  refine Coro.Keeps.bind (safe_wire _ _) (fun _ => Coro.Keeps.bind (safe_wire _ _) (fun offer => ?_))
  cases offer with
  | answer r => exact Coro.Keeps.pure _
  | demand signed =>
    split_ifs
    · refine Coro.Keeps.bind ?_ (fun _ => safe_wire _ _)
      refine Coro.Keeps.bind (Safe.dbCall (fun db h => h.acts (mark_acts _ _ _ _ _ db).1) _) (fun marked => ?_)
      split_ifs
      · exact fun _ h => h
      · exact Coro.Keeps.raise _
    · exact Coro.Keeps.raise _

theorem safe_settleUp (d : Delegation) (s : Surroundings) (r : Except Failure Response) : Safe d.id (settleUp d s r) := by
  cases r with
  | error failure => exact safe_onSendFailure d s failure
  | ok r =>
    simp only [settleUp]
    split_ifs
    · exact safe_onCompleted d s r
    · exact safe_onNotCompleted d s r

/-! ## A row without a trace -/

/-- the row of a pre-debit as it was funded: pending, nothing attempted -/
def Untouched (d : Delegation) (row : OutboxRow) : Prop :=
  row.id = d.id ∧ row.orgId = d.org ∧ row.status = .pending ∧ row.deliveryStatus = .notAttempted

/-- the pre-debit stands as it was funded, and the worker does not see it -/
def Stranded (d : Delegation) (db : Db) : Prop :=
  ∃ row, db.outbox.get? d.id = some row ∧ Untouched d row ∧ workerSelects db row = false

theorem Stranded.not_recoverable (h : Stranded d db) : ¬ Recoverable d.id db := by
  obtain ⟨row, hrow, ⟨-, -, hpending, hna⟩, hunseen⟩ := h
  intro hr
  rcases hr row hrow with hs | hs | hs | hs
  · rw [hpending] at hs
    cases hs
  · rw [hpending] at hs
    cases hs
  · rw [hna] at hs
    cases hs
  · rw [hunseen] at hs
    cases hs

theorem beginDelivery_row {now : ℤ} {ledgerId org d : String} {principal : Option String} {final : ℤ} {a : Bool}
    (hget : db.outbox.get? d = some row) (horg : row.orgId = org)
    (h : beginDelivery now ledgerId org d row principal final db = .ok (a, db')) :
    ∃ row', db'.outbox.get? d = some row' ∧ row'.deliveryStatus = .possiblyDelivered := by
  have hid : row.id = d := Table.key_of_get? hget
  have hself := (beginDelivery_marked hget horg h).get?_self
  rw [hid] at hself
  exact ⟨_, hself, rfl⟩

theorem mark_true {e : Env} {charge : Option ℤ} (hrow : db.outbox.get? d.id = some row) (hun : Untouched d row)
    (h : (markDelegationPossiblyDelivered cfg e d.org d.id charge db).1) :
    Recoverable d.id (markDelegationPossiblyDelivered cfg e d.org d.id charge db).2 := by
  have doubt : ∃ row', (markDelegationPossiblyDelivered cfg e d.org d.id charge db).2.outbox.get? d.id = some row' ∧
      row'.deliveryStatus = .possiblyDelivered := by
    obtain ⟨-, horg, hpending, hna⟩ := hun
    unfold markDelegationPossiblyDelivered at h ⊢
    rcases call_cases (e.fault 0) (markTx cfg e.now (e.uuid 0) d.org d.id charge) db with ⟨x, hc⟩ | ⟨a, db', ht, hc⟩
    · rw [hc] at h
      cases h
    · rw [hc] at h ⊢
      have hfound : outboxRow d.org d.id db = some row := by
        rw [outboxRow, hrow]
        exact filter_some_pos (by simpa using horg)
      have ht := Tx.read_bind_ok ht
      simp only [hfound] at ht
      have ht := Tx.read_bind_ok ht
      split_ifs at ht with hdone hnot hcharge
      · rw [hna] at hdone
        rcases hdone with hdone | hdone <;> cases hdone
      · cases Tx.pure_ok ht
        cases h
      · cases Tx.pure_ok ht
        cases h
      · have ht := Tx.read_bind_ok ht
        split_ifs at ht with hcap
        · cases Tx.pure_ok ht
          cases h
        · exact beginDelivery_row hrow horg ht
  obtain ⟨row', hrow', hdoubt⟩ := doubt
  intro r hr
  obtain rfl := some.inj (hrow'.symm.trans hr)
  exact .inr (.inr (.inl hdoubt))

theorem request_untouched (e : Env) (hrow : db.outbox.get? d.id = some row) (hun : Untouched d row) :
    requestDelegationRefund e d.org d.id db = (false, db) ∨
    ((requestDelegationRefund e d.org d.id db).1 ∧ Recoverable d.id (requestDelegationRefund e d.org d.id db).2) := by
  obtain ⟨hid, horg, hpending, hna⟩ := hun
  unfold requestDelegationRefund statementThenStatus
  rcases call_cases (e.fault 0) (requestStatement d.org d.id) db with ⟨x, hc⟩ | ⟨n, db', ht, hc⟩
  · rw [hc]
    exact .inl rfl
  · rw [hc]
    have hhit : n ≠ 0 := by
      have hup := ht
      unfold requestStatement updateRow at hup
      have hlen : n = _ := (updateOutbox_ok hup).1
      rw [hlen]
      have hmem : row ∈ db.outbox.rows := Table.mem_of_get? hrow
      refine List.length_pos_iff_exists_mem.mpr ⟨row, List.mem_filter.mpr ⟨hmem, ?_⟩⟩ |>.ne'
      simp [hid, horg, hpending, hna]
    simp only [hhit, ne_eq, not_false_eq_true, if_true]
    refine .inr ⟨trivial, ?_⟩
    have hself := (updateRow_ok ht).2.2 row hrow horg
    rw [if_pos (by simp [hpending, hna])] at hself
    intro r hr
    obtain rfl := some.inj (hself.symm.trans hr)
    refine .inr (.inr (.inr ?_))
    simp [workerSelects, hna]

/-- **The refund of an untraced row.** It leaves a trace exactly when its request is committed. -/
theorem refundCharge_stranded (s : Surroundings) (hcost : 0 < cost) {fr : Frame} (h : Stranded d fr.db) :
    Recoverable d.id (refundCharge d s cost fr).2.db ↔
      s.request.cut ≠ some false ∧ (requestDelegationRefund s.request.env d.org d.id fr.db).1 := by
  have hlost := h.not_recoverable
  obtain ⟨row, hrow, hun, -⟩ := h
  have hrun : refundCharge d s cost fr = ((do
      let requested ← s.request.await (fun e => requestDelegationRefund e d.org d.id)
      if requested then s.complete.await (fun e => completeDelegationRefund e d.org d.id) else return false : Run Bool) >>=
        fun _ => modify (fun fr => { fr with costUsdc := 0 })) fr := by
    simp [refundCharge, refundDelegation, if_neg (not_le.mpr hcost)]
  rw [hrun]
  cases hcut : s.request.cut with
  | some committed =>
    -- cancelled in the request: all there is of it is what was committed
    simp only [bind_run, DbStep.await, dbCall, hcut, map_some, await_some, Coro.Cut.exit, Coro.Cut.committed]
    cases committed with
    | false => simpa using hlost
    | true =>
      simp only [if_true, ne_eq, some.injEq, Bool.true_eq_false, not_false_eq_true, true_and]
      rcases request_untouched s.request.env hrow hun with hr | ⟨hr, hrec⟩
      · rw [hr]
        simpa using hlost
      · exact ⟨fun _ => hr, fun _ => hrec⟩
  | none =>
    simp only [ne_eq, reduceCtorEq, not_false_eq_true, true_and]
    rcases request_untouched s.request.env hrow hun with hr | ⟨hr, hrec⟩
    · simp only [bind_run, DbStep.await, dbCall, hcut, map_none, await_none, hr, Bool.false_eq_true,
        if_false, Coro.pure_run, Coro.modify, iff_false]
      exact hlost
    · simp only [hr, iff_true]
      simp only [bind_run, DbStep.await, dbCall, hcut, map_none, await_none, hr, if_true]
      have hsafe : Safe d.id (s.complete.await (fun e => completeDelegationRefund e d.org d.id) >>=
          fun _ => modify (fun fr => { fr with costUsdc := 0 })) :=
        Coro.Keeps.bind (Safe.dbCall (fun db h => h.acts (complete_acts _ _ _ db).1) _) (fun _ => fun _ h => h)
      exact hsafe ⟨_, fr.paymentAttempted, fr.costUsdc⟩ hrec

/-- the pre-debit as it was funded, with no event yet -/
structure Opened (d : Delegation) (db : Db) : Prop where
  row : ∃ row, db.outbox.get? d.id = some row ∧ Untouched d row
  event : db.events.get? d.id = none

theorem Opened.stranded (h : Opened d db) : Stranded d db := by
  obtain ⟨row, hrow, hun⟩ := h.row
  exact ⟨row, hrow, hun, by simp [workerSelects, hun.1, hun.2.2.1, h.event]⟩

/-- the audit event of an untouched row: it fails and does nothing, or is inserted, and then shows the row to the worker
unless its status says that delivery is in doubt -/
theorem record_opened (h : Opened d db) (e : Env) (status : String) (cost : ℤ) :
    recordDelegationEvent e ⟨d.id, d.org, status, cost⟩ db = (false, db) ∨
    ((recordDelegationEvent e ⟨d.id, d.org, status, cost⟩ db).1 ∧
      (status ≠ "possibly_delivered" → Recoverable d.id (recordDelegationEvent e ⟨d.id, d.org, status, cost⟩ db).2) ∧
      (status = "possibly_delivered" → Stranded d (recordDelegationEvent e ⟨d.id, d.org, status, cost⟩ db).2)) := by
  obtain ⟨row, hrow, hun⟩ := h.row
  rcases recordDelegationEvent_cases e ⟨d.id, d.org, status, cost⟩ db with hc | ⟨-, htaken⟩ | ⟨events, hins, hc⟩
  · exact .inl hc
  · exact absurd h.event htaken
  · right
    rw [hc]
    obtain ⟨hid, horg, hpending, hna⟩ := hun
    have hget : (events.get? row.id).filter (fun ev => ev.orgId = row.orgId) = some ⟨d.id, d.org, status, cost⟩ := by
      rw [Table.get?_insert hins, if_pos hid.symm]
      exact filter_some_pos (by simp [horg])
    refine ⟨rfl, ?_, ?_⟩
    · intro hstatus r hr
      obtain rfl := some.inj (hrow.symm.trans hr)
      exact .inr (.inr (.inr (by simp [workerSelects, hget, hpending, hna, hstatus])))
    · intro hstatus
      exact ⟨row, hrow, ⟨hid, horg, hpending, hna⟩, by simp [workerSelects, hget, hpending, hstatus]⟩

/-- **The audit event and what follows it.** From an untouched row, a continuation that keeps recoverable rows and
refunds the ones without a trace leaves the row recoverable exactly when its event or its refund request is committed. -/
theorem record_then {status : String} (h : Opened d fr.db) (k : Bool → Run α) (hsafe : ∀ b, Safe d.id (k b))
    (hk : ∀ b db, (b = true → status = "possibly_delivered") → Stranded d db → (Recoverable d.id (k b { fr with db := db }).2.db ↔ s.request.cut ≠ some false ∧ (requestDelegationRefund s.request.env d.org d.id db).1 = true)) :
    Recoverable d.id ((recordEvent d s.event status cost >>= k) fr).2.db ↔
      EventLands d s status cost fr.db ∨ RequestLands d s status cost fr.db := by
  have hlost := h.stranded.not_recoverable
  have hrecord := record_opened h s.event.env status cost
  unfold EventLands RequestLands
  cases hcut : s.event.cut with
  | some committed =>
    -- cancelled in the insert: nothing follows it
    simp only [bind_run, recordEvent, DbStep.await, dbCall, hcut, map_some, await_some, Coro.Cut.exit,
      Coro.Cut.committed, reduceCtorEq, false_and, or_false]
    cases committed with
    | false => simpa using hlost
    | true =>
      simp only [if_true, ne_eq, some.injEq, Bool.true_eq_false, not_false_eq_true, true_and]
      rcases hrecord with hr | ⟨hr, hterminal, hdoubt⟩
      · rw [hr]
        simpa using hlost
      · rw [hr]
        simp only [and_true]
        constructor
        · intro hrec hstatus
          exact (hdoubt hstatus).not_recoverable hrec
        · exact hterminal
  | none =>
    simp only [bind_run, recordEvent, DbStep.await, dbCall, hcut, map_none, await_none, ne_eq,
      reduceCtorEq, not_false_eq_true, true_and]
    rcases hrecord with hr | ⟨hr, hterminal, hdoubt⟩
    · rw [hr]
      simp only [Bool.false_eq_true, and_false, false_or]
      exact hk false fr.db (fun hb => by cases hb) h.stranded
    · by_cases hstatus : status = "possibly_delivered"
      · simp only [hstatus, not_true_eq_false, false_and, false_or]
        subst hstatus
        exact hk _ _ (fun _ => rfl) (hdoubt rfl)
      · simp only [hstatus, not_false_eq_true, true_and, hr, true_or, iff_true]
        exact hsafe true _ (hterminal hstatus)

theorem refund_then (s : Surroundings) (hcost : 0 < cost) (k : Run α) (hk : ∀ fr, (k fr).2 = fr) {fr : Frame}
    (h : Stranded d fr.db) :
    Recoverable d.id ((refundCharge d s cost >>= fun _ => k) fr).2.db ↔
      s.request.cut ≠ some false ∧ (requestDelegationRefund s.request.env d.org d.id fr.db).1 := by
  rw [← refundCharge_stranded s hcost h]
  rw [bind_run]
  rcases refundCharge d s cost fr with ⟨exit, fr'⟩
  cases exit with
  | returned u => simp only [hk]
  | raised _ | cancelled => rfl

/-! ## The exchange -/

/-- the audit an outcome of the exchange calls for -/
def Audits (d : Delegation) (outcome : Except Failure Response) (status : String) (cost : ℤ) : Prop :=
  match outcome with
  | .error _ => status = "failed" ∧ cost = 0
  | .ok r => status = r.state.getD "failed" ∧
      cost = if r.state = some "completed" ∧ d.useX402 = false then d.estimatedCost else 0

theorem settleUp_unmarked {outcome : Except Failure Response} {status : String} (haudit : Audits d outcome status cost)
    (h : Opened d db) (hpos : 0 < d.estimatedCost) :
    Recoverable d.id (settleUp d s outcome ⟨db, false, d.estimatedCost⟩).2.db ↔
      EventLands d s status cost db ∨ RequestLands d s status cost db := by
  have refunds : ∀ {β : Type} {k : Run β}, (∀ fr, (k fr).2 = fr) → ∀ (b : Bool) (db' : Db),
      (b = true → status = "possibly_delivered") → Stranded d db' →
      (Recoverable d.id ((refundCharge d s d.estimatedCost >>= fun _ => k) ⟨db', false, d.estimatedCost⟩).2.db ↔
        s.request.cut ≠ some false ∧ (requestDelegationRefund s.request.env d.org d.id db').1 = true) :=
    fun hk _ _ _ hstr => refund_then s hpos _ hk hstr
  cases outcome with
  | error failure =>
    obtain ⟨rfl, rfl⟩ := haudit
    simp only [settleUp, onSendFailure, Coro.bind_run, Coro.get, id_eq, Bool.and_false, Bool.false_eq_true, if_false]
    exact record_then ⟨db, false, d.estimatedCost⟩ h _
      (fun _ => Coro.Keeps.bind (safe_refundCharge _ _ _) (fun _ => Coro.Keeps.pure _)) (refunds (fun _ => rfl))
  | ok r =>
    obtain ⟨rfl, rfl⟩ := haudit
    by_cases hdone : r.state = some "completed"
    · simp only [settleUp, hdone, if_true, onCompleted, Coro.bind_run, Coro.get, id_eq, Bool.not_false, Bool.and_true,
        true_and, getD_some]
      have hcost : (if d.useX402 = true then 0 else d.estimatedCost) =
          if d.useX402 = false then d.estimatedCost else 0 := by
        cases d.useX402 <;> rfl
      rw [hcost]
      refine record_then ⟨db, false, d.estimatedCost⟩ h _ ?_ ?_
      · intro b
        cases b with
        | true => exact safe_onAudited d s r _
        | false => exact safe_onAuditLost d s r _
      · intro b db' hb hstr
        cases b with
        | true => exact absurd (hb rfl) (by decide)
        | false =>
          simp only [Bool.false_eq_true, if_false, onAuditLost, Bool.and_false]
          exact refund_then s hpos _ (fun _ => rfl) hstr
    · simp only [settleUp, if_neg hdone, onNotCompleted, hdone, false_and, if_false]
      change Recoverable d.id ((if (d.useX402 && false) = true then _ else _ : Run DelegateResult) _).2.db ↔ _
      rw [Bool.and_false, if_neg Bool.false_ne_true]
      exact record_then ⟨db, false, d.estimatedCost⟩ h _ (fun _ => Coro.Keeps.bind (safe_refundCharge _ _ _) fun _ =>
          Coro.Keeps.bind (Coro.Keeps.get _) fun _ => Coro.Keeps.pure _) (refunds (fun _ => rfl))

theorem onPaymentAttempt_marks {signed : ℤ} {fr : Frame} (h : Opened d fr.db) (hm : Marks cfg d x signed fr.db) :
    Recoverable d.id (onPaymentAttempt cfg d x signed fr).2.db := by
  obtain ⟨row, hrow, hun⟩ := h.row
  have hheld : Recoverable d.id (markSigned cfg d x signed fr.db).2 := mark_true hrow hun hm.1
  simp only [onPaymentAttempt, bind_run, dbCall]
  cases hcut : x.markCut with
  | none =>
    simp only [await_none, hm.1, if_true]
    exact hheld
  | some cut =>
    simp only [await_some, hm.2 cut hcut, if_true]
    cases cut <;> exact hheld

theorem onPaymentAttempt_unmarked {signed : ℤ} {fr : Frame} (hm : ¬ Marks cfg d x signed fr.db) :
    onPaymentAttempt cfg d x signed fr = match x.markCut with
      | some cut => (cut.exit, fr)
      | none => (.raised (.failed "Could not persist the x402 delivery state before dispatch."), fr) := by
  have hrefused : (markSigned cfg d x signed fr.db).1 = false → (markSigned cfg d x signed fr.db).2 = fr.db :=
    (mark_acts cfg x.mark d.org d.id _ fr.db).2
  simp only [onPaymentAttempt, bind_run, dbCall]
  cases hcut : x.markCut with
  | none =>
    have hmark : (markSigned cfg d x signed fr.db).1 = false := by
      by_contra hacc
      exact hm ⟨by simpa using hacc, fun cut hc => by rw [hcut] at hc; cases hc⟩
    simp only [await_none, hmark, hrefused hmark, Bool.false_eq_true, if_false]
    rfl
  | some cut =>
    have hsame : (if cut.committed then { fr with db := (markSigned cfg d x signed fr.db).2 } else fr) = fr := by
      split_ifs with hc
      · have hmark : (markSigned cfg d x signed fr.db).1 = false := by
          by_contra hacc
          refine hm ⟨by simpa using hacc, fun cut' hc' => ?_⟩
          rw [hcut] at hc'
          cases hc'
          exact hc
        rw [hrefused hmark]
      · rfl
    simp only [await_some, hsame]
    cases cut <;> rfl

theorem exchange_marked (h : Opened d fr.db) (hm : MarkLands cfg d x fr.db) :
    Recoverable d.id (Coro.attempt (sendWithLimits cfg d x) fr).2.db := by
  obtain ⟨signed, hslot, hfirst, hx402, hmarks⟩ := hm
  have hheld : Recoverable d.id (sendWithLimits cfg d x fr).2.db := by
    have hrun : sendWithLimits cfg d x fr = (onPaymentAttempt cfg d x signed >>= fun _ => wire x.second) fr := by
      simp only [sendWithLimits, sendRemoteMessage, hslot, hfirst, hx402, if_true]
      rfl
    rw [hrun, bind_run]
    have hafter := onPaymentAttempt_marks h hmarks
    rcases hout : onPaymentAttempt cfg d x signed fr with ⟨exit, fr'⟩
    rw [hout] at hafter
    cases exit with
    | returned u => exact safe_wire d.id x.second fr' hafter
    | raised _ | cancelled => exact hafter
  rw [Coro.attempt]
  rcases hout : sendWithLimits cfg d x fr with ⟨exit, fr'⟩
  rw [hout] at hheld
  cases exit <;> exact hheld

theorem exchange_unmarked (hm : ¬ MarkLands cfg d x fr.db) :
    (auditOf d x = none ∧ attempt (sendWithLimits cfg d x) fr = (.cancelled, fr)) ∨
    ∃ status cost outcome, auditOf d x = some (status, cost) ∧ Audits d outcome status cost ∧
      attempt (sendWithLimits cfg d x) fr = (.returned outcome, fr) := by
  cases hslot : x.slot with
  | cancelled =>
    refine .inl ⟨by simp only [auditOf, hslot], ?_⟩
    simp only [Coro.attempt, sendWithLimits, Coro.bind_run, hslot]
    rfl
  | raises f =>
    refine .inr ⟨"failed", 0, .error f, by simp only [auditOf, hslot], ⟨rfl, rfl⟩, ?_⟩
    simp only [Coro.attempt, sendWithLimits, Coro.bind_run, hslot]
    rfl
  | done u =>
    cases hfirst : x.first with
    | cancelled =>
      refine .inl ⟨by simp only [auditOf, hslot, hfirst], ?_⟩
      simp only [Coro.attempt, sendWithLimits, sendRemoteMessage, hslot, hfirst]
      rfl
    | raises f =>
      refine .inr ⟨"failed", 0, .error f, by simp only [auditOf, hslot, hfirst], ⟨rfl, rfl⟩, ?_⟩
      simp only [Coro.attempt, sendWithLimits, sendRemoteMessage, hslot, hfirst]
      rfl
    | done offer =>
      cases offer with
      | answer r =>
        refine .inr ⟨_, _, .ok r, by simp only [auditOf, hslot, hfirst], ⟨rfl, rfl⟩, ?_⟩
        simp only [Coro.attempt, sendWithLimits, sendRemoteMessage, hslot, hfirst]
        rfl
      | demand signed =>
        by_cases hx402 : d.useX402
        · have hmarks : ¬ Marks cfg d x signed fr.db := fun h => hm ⟨signed, hslot, hfirst, hx402, h⟩
          have hrun : sendWithLimits cfg d x fr = (onPaymentAttempt cfg d x signed >>= fun _ => wire x.second) fr := by
            simp only [sendWithLimits, sendRemoteMessage, hslot, hfirst, hx402, if_true]
            rfl
          have hcall := onPaymentAttempt_unmarked hmarks
          cases hcut : x.markCut with
          | none =>
            refine .inr ⟨"failed", 0, .error (.failed "Could not persist the x402 delivery state before dispatch."),
              by simp only [auditOf, hslot, hfirst, hcut], ⟨rfl, rfl⟩, ?_⟩
            simp [Coro.attempt, hrun, Coro.bind_run, hcall, hcut]
          | some cut =>
            cases cut with
            | cancel committed =>
              refine .inl ⟨by simp only [auditOf, hslot, hfirst, hcut, hx402, if_true], ?_⟩
              simp [Coro.attempt, hrun, Coro.bind_run, hcall, hcut, Coro.Cut.exit]
            | throw e committed =>
              refine .inr ⟨"failed", 0, .error e, by simp only [auditOf, hslot, hfirst, hcut], ⟨rfl, rfl⟩, ?_⟩
              simp [Coro.attempt, hrun, Coro.bind_run, hcall, hcut, Coro.Cut.exit]
        · refine .inr ⟨"failed", 0, .error (.failed "402 Payment Required"), ?_, ⟨rfl, rfl⟩, ?_⟩
          · simp only [auditOf, hslot, hfirst, hx402]
            split <;> rfl
          · simp only [Coro.attempt, sendWithLimits, sendRemoteMessage, hslot, hfirst, hx402]
            rfl

/-! ## The call -/

theorem dispatch_opened (h : Opened d db) (hpos : 0 < d.estimatedCost) :
    Recoverable d.id (delegateToAgent cfg d s db).2.db ↔ Recorded cfg d s db := by
  have hnocost : ¬ d.estimatedCost ≤ 0 := not_le.mpr hpos
  simp only [delegateToAgent, dispatch, bind_run, Recorded, hnocost, false_or]
  by_cases hm : MarkLands cfg d s.exchange db
  · simp only [hm, true_or, iff_true]
    have hheld := exchange_marked ⟨db, false, d.estimatedCost⟩ h hm
    rcases hout : attempt (sendWithLimits cfg d s.exchange) ⟨db, false, d.estimatedCost⟩ with ⟨exit, fr⟩
    rw [hout] at hheld
    cases exit with
    | returned outcome => exact safe_settleUp d s outcome fr hheld
    | raised _ | cancelled => exact hheld
  · simp only [hm, false_or]
    rcases exchange_unmarked ⟨db, false, d.estimatedCost⟩ hm with
      ⟨hnone, hout⟩ | ⟨status, cost, outcome, haudit, haudits, hout⟩
    · rw [hout, hnone]
      simpa using h.stranded.not_recoverable
    · rw [hout, haudit]
      simp only [settleUp_unmarked haudits h hpos]
      constructor
      · intro hlands
        exact ⟨status, cost, rfl, hlands⟩
      · rintro ⟨status', cost', heq, hlands⟩
        cases heq
        exact hlands

theorem fund_opened {e : Env} (hpos : 0 < d.estimatedCost) (hrow : db.outbox.get? d.id = none)
    (hevent : db.events.get? d.id = none) (hfund : (fundDelegation cfg e d db).1.1) :
    Opened d (fundDelegation cfg e d db).2 := by
  rcases fund_cases cfg e d.org d.estimatedCost ("a2a_delegation run=" ++ d.runId ++ " agent=" ++ d.agentUrl) d.id d.runId
    d.principal db with ⟨-, hnot | hnot | ⟨r, hr⟩⟩ | ⟨-, -, hf⟩
  · exact absurd hnot (not_le.mpr hpos)
  · exact absurd (hfund.symm.trans hnot) (by decide)
  · rw [hrow] at hr
    cases hr
  · refine ⟨⟨newOutboxRow e.now d.id d.org d.runId d.estimatedCost (some (e.uuid 0)), ?_, rfl, rfl, rfl, rfl⟩, ?_⟩
    · have hget := Table.get?_insert hf.outbox d.id
      rw [if_pos (by rfl)] at hget
      exact hget
    · obtain ⟨db₁, hp, hrest⟩ := hf.posted
      have hsame : (fundDelegation cfg e d db).2.events = db.events := by
        rw [fundDelegation, hrest, hp.rest]
      rw [hsame, hevent]

/-- **When a pre-debit is not stranded.** However a funded call of `delegate_to_agent` ends, the row of its pre-debit is left
refunded, cancelled, possibly delivered or selected by the refund worker if and only if nothing was debited, the delivery mark
was committed, or the exchange ended by itself and the audit event or, after it, the refund request was committed. -/
theorem predebit_recoverable_iff (cfg : Settings) (e : Env) (d : Delegation) (s : Surroundings) (db : Db)
    (hrow : db.outbox.get? d.id = none) (hevent : db.events.get? d.id = none)
    (hfund : (fundDelegation cfg e d db).1.1 = true) :
    Recoverable d.id (delegateToAgent cfg d s (fundDelegation cfg e d db).2).2.db ↔
      Recorded cfg d s (fundDelegation cfg e d db).2 := by
  by_cases hpos : 0 < d.estimatedCost
  · exact dispatch_opened (fund_opened hpos hrow hevent hfund) hpos
  · -- nothing is debited, and there is no row to strand
    have hnone : (fundDelegation cfg e d db).2 = db := by
      simp [fundDelegation, debitCreditWithDelegationRefund, if_pos (not_lt.mp hpos)]
    have hrec : Recoverable d.id (fundDelegation cfg e d db).2 := by
      intro row hget
      rw [hnone, hrow] at hget
      cases hget
    have hsafe : Safe d.id (dispatch cfg d s) := by
      refine Coro.Keeps.bind ?_ (fun outcome => safe_settleUp d s outcome)
      intro fr hfr
      have hsend := safe_sendWithLimits cfg d s.exchange fr hfr
      rw [Coro.attempt]
      rcases hout : sendWithLimits cfg d s.exchange fr with ⟨exit, fr'⟩
      rw [hout] at hsend
      cases exit <;> exact hsend
    exact ⟨fun _ => .inl (not_lt.mp hpos), fun _ => hsafe ⟨_, false, d.estimatedCost⟩ hrec⟩

/-! ## Two calls -/

/-- a delegation without x402, at 100 and a fee of five per cent -/
def sampleDelegation : Delegation := ⟨"org", "run", "agent-url", "agent", none, "d", 105, false, 500, 120⟩

/-- an org with a balance of 1000 -/
def sampleDb : Db :=
  { Db.empty with
    orgs := ⟨[⟨"org", "mail"⟩], by decide⟩
    credits := ⟨[⟨"org", 1000, 0, false⟩], by decide⟩ }

/-- a database call that goes through -/
def calmStep (now : ℤ) : DbStep := ⟨.calm now "refund", none⟩

/-- the exchange comes to `first`; the audit event is lost to the database exactly when `auditLost` -/
def sampleSurroundings (first : Wire Offer) (auditLost : Bool) : Surroundings where
  exchange := ⟨.done (), first, .calm 2 "adjust", none, .cancelled⟩
  event := ⟨⟨3, fun _ => "event", fun _ => auditLost⟩, none⟩
  request := calmStep 4
  complete := calmStep 5
  confirm := calmStep 5
  cancel := calmStep 5

/-- the remote agent cannot be reached and the audit event is lost, but the refund request is committed -/
theorem predebit_recoverable_iff_refused : Recoverable "d" (delegateToAgent .default sampleDelegation
      (sampleSurroundings (.raises (.failed "connection refused")) true)
      (fundDelegation .default (.calm 1 "debit") sampleDelegation sampleDb).2).2.db :=
  (predebit_recoverable_iff .default (.calm 1 "debit") sampleDelegation _ sampleDb rfl rfl (by decide)).mpr
    (.inr (.inr ⟨"failed", 0, rfl, .inr ⟨rfl, by decide, by decide⟩⟩))

/-- **The per-tool timeout strands a pre-debit.** The call is funded and cancelled while it waits for the remote agent;
its row is left pending, not attempted and without an event. -/
theorem timeout_strands_predebit :
    let funded := fundDelegation .default (.calm 1 "debit") sampleDelegation sampleDb
    let last := (delegateToAgent .default sampleDelegation (sampleSurroundings .cancelled false) funded.2).2.db
    funded.1 = (true, 105) ∧
    (last.outbox.get? "d").map (fun row => (row.status, row.deliveryStatus)) = some (.pending, .notAttempted) ∧
    last.events.get? "d" = none ∧ ¬ Recoverable "d" last := by
  decide

end Teardrop.Tools
