/-
The delegation outbox of `billing/delegation.py`: what happens to a pre-debit after `debit_credit_with_delegation_refund`
has taken it. Each operation is one transaction, or one statement followed by a read that only decides what it answers.
`process_delegation_refund_outbox` selects rows (`workerSelects`) and calls cancel, or request and then complete, on each.

Above the code stands the state machine of one pre-debit, `HoldStep`; `Acts` says that an operation does nothing to the outbox or
takes the row it names through one transition and posts exactly its credit.
-/
import Teardrop.Billing.Credit

namespace Teardrop.Billing

open Teardrop.Py Tx Unmoved

/-! ## Model -/

/-- the row of a delegation, as `WHERE id = $1 AND org_id = $2` finds it -/
def outboxRow (org d : String) (db : Db) : Option OutboxRow := (db.outbox.get? d).filter (fun r => r.orgId = org)

/-- `principal_id` of the debit, by the LEFT JOIN on `debit_ledger_id` -/
def joinedPrincipal (row : OutboxRow) (db : Db) : Option String :=
  row.debitLedgerId.bind fun l =>
    (db.ledger.rows.find? (fun r => r.id = l && r.orgId = row.orgId)).bind LedgerRow.principalId

/-- an UPDATE of the delegation's row, when it satisfies `hit` -/
def updateRow (org d : String) (hit : OutboxRow → Bool) (f : OutboxRow → OutboxRow) (hf : ∀ r, (f r).id = r.id) :
    Tx Db ℕ :=
  updateOutbox (fun r => r.id = d && r.orgId = org && hit r) f hf

/-- a top-up that pays part of a pre-debit back: credit the balance, then record it -/
def payBack (now : ℤ) (ledgerId org : String) (amount : ℤ) (reason : String) (principal reverses : Option String)
    (missing : String) : Tx Db Unit := do
  match ← addBalance org amount with
  | none => Tx.raise (.runtimeError missing)
  | some newBalance =>
    insertLedger ⟨ledgerId, org, .topup, amount, newBalance, reason, principal, none, reverses, now⟩

def creditDelegationAdjustmentLocked (now : ℤ) (ledgerId org d : String) (row : OutboxRow) (principal : Option String)
    (amount : ℤ) : Tx Db Unit :=
  payBack now ledgerId org amount ("a2a:adjust delegation=" ++ d ++ " run=" ++ row.runId) principal none
    "Credit account is missing for delegation adjustment"

/-- the sum signed for delivery in the last 24 hours, over all orgs -/
def signed24h (now : ℤ) (db : Db) : ℤ :=
  ((db.outbox.rows.filter (fun r =>
    match r.deliveryStartedAt with
    | some t => decide (now - hours 24 ≤ t)
    | none => false)).map OutboxRow.amountUsdc).sum

/-- the writes of `mark_delegation_possibly_delivered`: pay the unsigned part back, then hold the rest as in doubt -/
def beginDelivery (now : ℤ) (ledgerId org d : String) (row : OutboxRow) (principal : Option String) (final : ℤ) :
    Tx Db Bool := do
  if final < row.amountUsdc then
    creditDelegationAdjustmentLocked now ledgerId org d row principal (row.amountUsdc - final)
  let _ ← updateRow org d (fun _ => true)
    (fun r => { r with deliveryStatus := .possiblyDelivered, deliveryError := "", amountUsdc := final,
                       deliveryStartedAt := r.deliveryStartedAt.or (some now) }) (fun _ => rfl)
  return true

/-- the transaction of `mark_delegation_possibly_delivered` -/
def markTx (cfg : Settings) (now : ℤ) (ledgerId org d : String) (charge : Option ℤ) : Tx Db Bool := do
  match ← Tx.read (outboxRow org d) with
  | none => return false
  | some row =>
    let principal ← Tx.read (joinedPrincipal row)
    if row.deliveryStatus = .possiblyDelivered ∨ row.deliveryStatus = .confirmed then return true
    else if row.deliveryStatus ≠ .notAttempted ∨ ¬ (row.status = .pending ∨ row.status = .refundRequested) then
      return false
    else if ∃ c, charge = some c ∧ (c ≤ 0 ∨ row.amountUsdc < c) then return false
    else do
      let final := charge.getD row.amountUsdc
      let signed ← Tx.read (signed24h now)
      if cfg.a2aTreasuryDailyOutflowCapUsdc < signed + final then return false
      else beginDelivery now ledgerId org d row principal final

/-- a call that reports any exception as `False` -/
def reportFalse (r : Call Bool × Db) : Bool × Db :=
  match r with
  | (.ok b, db) => (b, db)
  | (.error _, db) => (false, db)

def markDelegationPossiblyDelivered (cfg : Settings) (e : Env) (org d : String) (charge : Option ℤ) (db : Db) :
    Bool × Db :=
  reportFalse (call (e.fault 0) (markTx cfg e.now (e.uuid 0) org d charge) db)

/-- a refund may be paid: requested, and nothing delivered or in doubt -/
def refundable (r : OutboxRow) : Bool :=
  r.status = .refundRequested && (r.deliveryStatus = .notAttempted || r.deliveryStatus = .failed)

/-- the UPDATE that closes a refund -/
def closeRefund (org d : String) (resolvedAt : OutboxRow → Option ℤ) : Tx Db ℕ :=
  updateRow org d refundable (fun r => { r with status := .refunded, resolvedAt := resolvedAt r }) (fun _ => rfl)

/-- `_complete_refund_locked`, for the row its caller read -/
def completeRefundLocked (now : ℤ) (ledgerId org d : String) (row : OutboxRow) (principal : Option String) :
    Tx Db Bool := do
  let reversed ← Tx.read fun db =>
    match row.debitLedgerId.filter (· ≠ "") with
    | none => false
    | some l => isReversed db.ledger.rows l
  if reversed then do
    let _ ← closeRefund org d (fun r => r.resolvedAt.or (some now))
    return true
  else do
    payBack now ledgerId org row.amountUsdc ("a2a:refund delegation=" ++ d ++ " run=" ++ row.runId) principal
      row.debitLedgerId "Credit account is missing for delegation refund"
    let _ ← closeRefund org d (fun _ => some now)
    return true

/-- `_normalize_delivery_transaction`: empty, or `0x` and 64 hexadecimal digits -/
def normalizeDeliveryTransaction (transaction : String) : String :=
  let value := PyText.strip transaction.toList
  match value with
  | '0' :: 'x' :: digits =>
    if digits.length = 64 ∧ ∀ c ∈ digits, PyText.isDigit 16 c then String.ofList value else ""
  | _ => ""

/-- `COALESCE(NULLIF(a, ''), b)` -/
def coalesceText (a b : String) : String := if a = "" then b else a

/-- the transaction of `confirm_delegation_delivery` -/
def confirmTx (now : ℤ) (org d settlementTx : String) : Tx Db Bool := do
  match ← Tx.read (outboxRow org d) with
  | none => return false
  | some row =>
    if row.deliveryStatus = .confirmed then return row.status ≠ .refunded
    else if row.deliveryStatus = .failed ∨ row.status = .refunded then return false
    else do
      let _ ← updateRow org d (fun _ => true)
        (fun r => { r with deliveryStatus := .confirmed, deliveryError := "",
                           deliveryResolvedAt := r.deliveryResolvedAt.or (some now),
                           deliverySettlementTx := coalesceText settlementTx r.deliverySettlementTx })
        (fun _ => rfl)
      let _ ← updateRow org d (fun r => r.status = .pending || r.status = .refundRequested)
        (fun r => { r with status := .cancelled, resolvedAt := r.resolvedAt.or (some now) }) (fun _ => rfl)
      return true

def confirmDelegationDelivery (e : Env) (org d settlementTx : String) (db : Db) : Bool × Db :=
  reportFalse (call (e.fault 0) (confirmTx e.now org d (normalizeDeliveryTransaction settlementTx)) db)

/-- the transaction of `fail_delegation_delivery` -/
def failTx (now : ℤ) (ledgerId org d reason : String) : Tx Db Bool := do
  match ← Tx.read (outboxRow org d) with
  | none => return false
  | some row =>
    let principal ← Tx.read (joinedPrincipal row)
    if row.deliveryStatus = .confirmed ∨ row.status = .cancelled then return false
    else if row.deliveryStatus = .failed ∧ row.status = .refunded then return true
    else if row.status = .refunded then return false
    else if ¬ (row.deliveryStatus = .possiblyDelivered ∨ row.deliveryStatus = .failed) then return false
    else do
      let _ ← updateRow org d (fun _ => true)
        (fun r => { r with deliveryStatus := .failed, deliveryError := reason,
                           deliveryResolvedAt := r.deliveryResolvedAt.or (some now) }) (fun _ => rfl)
      let _ ← updateRow org d (fun r => r.status = .pending) (fun r => { r with status := .refundRequested })
        (fun _ => rfl)
      completeRefundLocked now ledgerId org d row principal

def failDelegationDelivery (e : Env) (org d reason : String) (db : Db) : Bool × Db :=
  reportFalse
    (call (e.fault 0)
      (failTx e.now (e.uuid 0) org d (String.ofList ((PyText.strip reason.toList).take 500))) db)

/-- a statement that hits the row answers `True`; else the row's status, read by a second statement, decides -/
def statementThenStatus (e : Env) (org d : String) (stmt : Tx Db ℕ) (yes : RefundStatus → Bool) (db : Db) :
    Bool × Db :=
  match call (e.fault 0) stmt db with
  | (.error _, db') => (false, db')
  | (.ok n, db') =>
    if n ≠ 0 then (true, db')
    else if e.fault 1 then (false, db')
    else (((outboxRow org d db').map (fun r => yes r.status)).getD false, db')

/-- the UPDATE of `request_delegation_refund` -/
def requestStatement (org d : String) : Tx Db ℕ :=
  updateRow org d
    (fun r => r.status = .pending && (r.deliveryStatus = .notAttempted || r.deliveryStatus = .failed))
    (fun r => { r with status := .refundRequested }) (fun _ => rfl)

def requestDelegationRefund (e : Env) (org d : String) (db : Db) : Bool × Db :=
  statementThenStatus e org d (requestStatement org d) (fun s => s = .refundRequested || s = .refunded) db

/-- the UPDATE of `cancel_delegation_refund` -/
def cancelStatement (now : ℤ) (org d : String) : Tx Db ℕ :=
  updateRow org d
    (fun r => (r.status = .pending || r.status = .refundRequested) && r.deliveryStatus ≠ .failed)
    (fun r => { r with
      status := .cancelled
      resolvedAt := r.resolvedAt.or (some now)
      deliveryStatus := if r.deliveryStatus = .notAttempted ∨ r.deliveryStatus = .possiblyDelivered then .confirmed
        else r.deliveryStatus
      deliveryResolvedAt := if r.deliveryStatus = .notAttempted ∨ r.deliveryStatus = .possiblyDelivered then
        r.deliveryResolvedAt.or (some now) else r.deliveryResolvedAt
      deliveryError := "" }) (fun _ => rfl)

def cancelDelegationRefund (e : Env) (org d : String) (db : Db) : Bool × Db :=
  statementThenStatus e org d (cancelStatement e.now org d) (fun s => s = .cancelled) db

/-- the transaction of `complete_delegation_refund` -/
def completeTx (now : ℤ) (ledgerId org d : String) : Tx Db Bool := do
  let found ← Tx.read (outboxRow org d)
  match found.filter refundable with
  | none => return (found.map (fun r => decide (r.status = .refunded))).getD false
  | some row =>
    let principal ← Tx.read (joinedPrincipal row)
    completeRefundLocked now ledgerId org d row principal

def completeDelegationRefund (e : Env) (org d : String) (db : Db) : Bool × Db :=
  reportFalse (call (e.fault 0) (completeTx e.now (e.uuid 0) org d) db)

/-- `INSERT INTO a2a_delegation_events ... ON CONFLICT (id) DO NOTHING` -/
def insertEvent (row : EventRow) : Tx Db Bool := do
  Tx.require (isBigint row.costUsdc) (.pg .numericOutOfRange)
  match ← Tx.read fun db => db.events.insert? row with
  | none => return true
  | some events =>
    let known ← Tx.read fun db => (db.orgs.get? row.orgId).isSome
    Tx.require known (.pg .foreignKeyViolation)
    Tx.write fun db => { db with events := events }
    return true

/-- `record_delegation_event`: one immutable row, the first one written under its id -/
def recordDelegationEvent (e : Env) (row : EventRow) (db : Db) : Bool × Db :=
  reportFalse (call (e.fault 0) (insertEvent row) db)

/-- the WHERE clause of `process_delegation_refund_outbox` -/
def workerSelects (db : Db) (row : OutboxRow) : Bool :=
  row.deliveryStatus ≠ .possiblyDelivered &&
    (row.status = .refundRequested ||
      (row.status = .pending &&
        match (db.events.get? row.id).filter (fun ev => ev.orgId = row.orgId) with
        | some ev => ev.taskStatus ≠ "possibly_delivered"
        | none => false))

/-! ## The state machine of a pre-debit -/

/-- what the outbox knows of a pre-debit: the amount still held and the two statuses -/
structure Hold where
  amount : ℤ
  status : RefundStatus
  delivery : DeliveryStatus

def OutboxRow.hold (r : OutboxRow) : Hold := ⟨r.amountUsdc, r.status, r.deliveryStatus⟩

/-- what a transition pays back to the org -/
inductive Credit where
  | nothing
  | adjustment (amount : ℤ)
  | refund (amount : ℤ)

/-- the pre-debit is still to be delivered or refunded -/
def Hold.open (h : Hold) : Prop := h.status = .pending ∨ h.status = .refundRequested

/-- the transitions of a pre-debit -/
inductive HoldStep : Hold → Hold → Credit → Prop where
  /-- delivery begins at the amount held -/
  | mark {h : Hold} : h.open → h.delivery = .notAttempted →
      HoldStep h { h with delivery := .possiblyDelivered } .nothing
  /-- delivery begins at a smaller charge: the difference is paid back at once -/
  | adjust {h : Hold} {charge : ℤ} : h.open → h.delivery = .notAttempted → 0 < charge → charge < h.amount →
      HoldStep h { h with amount := charge, delivery := .possiblyDelivered } (.adjustment (h.amount - charge))
  /-- delivered: nothing is to be refunded any more -/
  | confirm {h : Hold} : h.delivery ≠ .failed → h.status ≠ .refunded →
      HoldStep h { h with status := .cancelled, delivery := .confirmed } .nothing
  | request {h : Hold} : h.status = .pending → (h.delivery = .notAttempted ∨ h.delivery = .failed) →
      HoldStep h { h with status := .refundRequested } .nothing
  /-- refunded because it was asked for -/
  | complete {h : Hold} : h.status = .refundRequested → (h.delivery = .notAttempted ∨ h.delivery = .failed) →
      HoldStep h { h with status := .refunded } (.refund h.amount)
  /-- refunded because delivery definitely failed -/
  | fail {h : Hold} : h.open → (h.delivery = .possiblyDelivered ∨ h.delivery = .failed) →
      HoldStep h { h with status := .refunded, delivery := .failed } (.refund h.amount)

/-- the part of the pre-debit that has not been paid back -/
def Hold.kept (h : Hold) : ℤ := if h.status = .refunded then 0 else h.amount

def Credit.amount : Credit → ℤ
  | .nothing => 0
  | .adjustment n => n
  | .refund n => n

/-- **A transition pays back exactly what it stops keeping.** -/
theorem HoldStep.kept {h h' : Hold} {c : Credit} (hs : HoldStep h h' c) : h.kept = h'.kept + c.amount := by
  cases hs with
  | mark ho _ => simp [Hold.kept, Credit.amount]
  | adjust ho _ _ _ | fail ho _ =>
    have hne : h.status ≠ .refunded := by rcases ho with ho | ho <;> simp [ho]
    simp [Hold.kept, Credit.amount, hne]
  | confirm _ hne => simp [Hold.kept, Credit.amount, hne]
  | request hp _ => simp [Hold.kept, Credit.amount, hp]
  | complete hr _ => simp [Hold.kept, Credit.amount, hr]

theorem HoldStep.not_refunded {h h' : Hold} {c : Credit} (hs : HoldStep h h' c) : h.status ≠ .refunded := by
  cases hs with
  | mark ho _ | adjust ho _ _ _ | fail ho _ => rcases ho with ho | ho <;> simp [ho]
  | confirm _ hne => exact hne
  | request hp _ => simp [hp]
  | complete hr _ => simp [hr]

/-! ## The operations follow the state machine -/

/-- the credit of a transition, as the ledger shows it -/
def Pays (db db' : Db) (r : OutboxRow) : Credit → Prop
  | .nothing => Unmoved db db'
  | .adjustment n => ∃ row, Moved db db' row ∧ row.operation = .topup ∧ row.orgId = r.orgId ∧ row.amountUsdc = n ∧
      row.reversesLedgerId = none
  | .refund n => ∃ row, Moved db db' row ∧ row.operation = .topup ∧ row.orgId = r.orgId ∧ row.amountUsdc = n ∧
      row.reversesLedgerId = r.debitLedgerId

/-- the row of delegation `d` became `r'`; its identity and all other rows stayed -/
structure Rewrites (db db' : Db) (d : String) (r r' : OutboxRow) : Prop where
  before : db.outbox.get? d = some r
  after : db'.outbox.get? d = some r'
  others : ∀ x, x ≠ d → db'.outbox.get? x = db.outbox.get? x
  org : r'.orgId = r.orgId
  debit : r'.debitLedgerId = r.debitLedgerId

/-- what an operation on delegation `d` of `org` does: nothing; or one transition with its credit; or it closes a refund
it finds already paid -/
inductive Act (db db' : Db) (org d : String) : Prop where
  | idle : (∀ x, db'.outbox.get? x = db.outbox.get? x) → Unmoved db db' → Act db db' org d
  | step {r r' : OutboxRow} {c : Credit} : Rewrites db db' d r r' → r.orgId = org → HoldStep r.hold r'.hold c →
      Pays db db' r c → Act db db' org d
  | paid {r r' : OutboxRow} {l : String} : Rewrites db db' d r r' → r.orgId = org → r.debitLedgerId = some l →
      isReversed db.ledger.rows l = true → r.status ≠ .refunded → r'.status = .refunded → Unmoved db db' →
      Act db db' org d

/-- an operation on delegation `d` of `org`: it acts on that row and its credit, and writes no other table -/
structure Acts (db db' : Db) (org d : String) : Prop where
  frame : db' = { db with outbox := db'.outbox, credits := db'.credits, ledger := db'.ledger }
  act : Act db db' org d

theorem Acts.refl (db : Db) (org d : String) : Acts db db org d := ⟨rfl, .idle (fun _ => rfl) (Unmoved.refl db)⟩

variable {org d : String} {db : Db} {hit : OutboxRow → Bool} {f : OutboxRow → OutboxRow} {db' : Db} {ledgerId : String}
  {principal : Option String} (e : Env)

theorem outboxRow_some {r : OutboxRow} (h : outboxRow org d db = some r) : db.outbox.get? d = some r ∧ r.orgId = org := by
  unfold outboxRow at h
  simpa using h

variable {hf : ∀ r, (f r).id = r.id} {now : ℤ}

theorem updateRow_get? {n : ℕ} (h : updateRow org d hit f hf db = .ok (n, db')) :
    db' = { db with outbox := db'.outbox } ∧ ∀ x, db'.outbox.get? x =
      (db.outbox.get? x).map (fun r => if x = d ∧ r.orgId = org ∧ hit r = true then f r else r) := by
  obtain ⟨-, o, hdb, hget⟩ := updateOutbox_ok h
  subst hdb
  refine ⟨rfl, fun x => ?_⟩
  rw [hget]
  cases hrow : db.outbox.get? x with
  | none => rfl
  | some r =>
    have hid := Table.key_of_get? hrow
    simp [hid, and_assoc]

theorem updateRow_ok {n : ℕ} (h : updateRow org d hit f hf db = .ok (n, db')) :
    db' = { db with outbox := db'.outbox } ∧ (∀ x, x ≠ d → db'.outbox.get? x = db.outbox.get? x) ∧
      ∀ r, db.outbox.get? d = some r → r.orgId = org →
        db'.outbox.get? d = some (if hit r then f r else r) := by
  obtain ⟨hrest, hget⟩ := updateRow_get? h
  refine ⟨hrest, fun x hx => ?_, fun r hr horg => ?_⟩
  · simp [hget, hx]
  · simp [hget, hr, horg]

theorem payBack_ok {amount : ℤ} {reason : String} {reverses : Option String} {missing : String} {u : Unit}
    (h : payBack now ledgerId org amount reason principal reverses missing db = .ok (u, db')) :
    Posted db db' ⟨ledgerId, org, .topup, amount, balance db org + amount, reason, principal, none, reverses, now⟩ := by
  obtain ⟨b, db₁, ha, h⟩ := bind_ok h
  rcases addBalance_ok ha with ⟨-, hr⟩ | ⟨hb, hc⟩
  · cases hr; cases h
  · cases hb
    exact posted_of_credited hc rfl h

/-- a database call acts as its body does, and leaves the store alone when it reports `False` -/
theorem call_acts {fault : Bool} {t : Tx Db Bool}
    (h : ∀ a db', t db = .ok (a, db') → Acts db db' org d ∧ (a = false → db' = db)) :
    Acts db (reportFalse (call fault t db)).2 org d ∧
      ((reportFalse (call fault t db)).1 = false → (reportFalse (call fault t db)).2 = db) := by
  rcases call_cases fault t db with ⟨x, hc⟩ | ⟨a, db', ht, hc⟩
  · rw [hc]; exact ⟨Acts.refl db org d, fun _ => rfl⟩
  · rw [hc]; exact h a db' ht

theorem insertEvent_ok {row : EventRow} {a : Bool} (h : insertEvent row db = .ok (a, db')) :
    db' = { db with events := db'.events } := by
  obtain ⟨-, h⟩ := require_bind_ok h
  have h := read_bind_ok h
  generalize db.events.insert? row = inserted at h
  cases inserted with
  | none => cases pure_ok h; rfl
  | some events =>
    have h := read_bind_ok h
    obtain ⟨-, h⟩ := require_bind_ok h
    cases pure_ok h
    rfl

theorem Posted.reframe {db₁ : Db} {row : LedgerRow} (h : Posted db db₁ row)
    (hrest : db' = { db₁ with outbox := db'.outbox }) : Moved db db' row :=
  h.toMoved.congr rfl rfl (by rw [hrest]) (by rw [hrest])

theorem Unmoved.of_outbox (h : db' = { db with outbox := db'.outbox }) : Unmoved db db' :=
  of_eq (by rw [h]) (by rw [h])

theorem beginDelivery_acts {row : OutboxRow} {final : ℤ} {a : Bool} (hget : db.outbox.get? d = some row)
    (horg : row.orgId = org) (hopen : row.hold.open) (hna : row.deliveryStatus = .notAttempted)
    (hfinal : final = row.amountUsdc ∨ 0 < final ∧ final ≤ row.amountUsdc)
    (h : beginDelivery now ledgerId org d row principal final db = .ok (a, db')) :
    Acts db db' org d ∧ (a = false → db' = db) := by
  unfold beginDelivery at h
  split_ifs at h with hless
  · obtain ⟨_, db₁, hpay, h⟩ := bind_ok h
    obtain ⟨n, db₂, hup, h⟩ := bind_ok h
    cases pure_ok h
    have hp := payBack_ok hpay
    have hpos : 0 < final := by rcases hfinal with hfinal | hfinal <;> omega
    obtain ⟨hrest, hothers, hself⟩ := updateRow_ok hup
    rw [hp.outbox] at hothers hself
    refine ⟨⟨by rw [hrest, hp.rest], ?_⟩, fun ha => by cases ha⟩
    exact .step ⟨hget, hself row hget horg, hothers, rfl, rfl⟩ horg (HoldStep.adjust hopen hna hpos hless)
      ⟨_, hp.reframe hrest, rfl, horg.symm, rfl, rfl⟩
  · obtain ⟨n, db₂, hup, h⟩ := bind_ok h
    cases pure_ok h
    obtain ⟨hrest, hothers, hself⟩ := updateRow_ok hup
    obtain rfl : final = row.amountUsdc := by omega
    refine ⟨⟨by rw [hrest], ?_⟩, fun ha => by cases ha⟩
    exact .step ⟨hget, hself row hget horg, hothers, rfl, rfl⟩ horg (HoldStep.mark hopen hna) (of_outbox hrest)

/-- **`mark_delegation_possibly_delivered`** -/
theorem mark_acts (cfg : Settings) (e : Env) (org d : String) (charge : Option ℤ) (db : Db) :
    Acts db (markDelegationPossiblyDelivered cfg e org d charge db).2 org d ∧
      ((markDelegationPossiblyDelivered cfg e org d charge db).1 = false →
        (markDelegationPossiblyDelivered cfg e org d charge db).2 = db) := by
  refine call_acts (fun a db' h => ?_)
  have h := read_bind_ok h
  cases hrow : outboxRow org d db with
  | none =>
    simp only [hrow] at h
    cases pure_ok h
    exact ⟨Acts.refl db org d, fun _ => rfl⟩
  | some row =>
    simp only [hrow] at h
    obtain ⟨hget, horg⟩ := outboxRow_some hrow
    have h := read_bind_ok h
    split_ifs at h with hdone hnot hcharge
    · cases pure_ok h; exact ⟨Acts.refl db org d, fun _ => rfl⟩
    · cases pure_ok h; exact ⟨Acts.refl db org d, fun _ => rfl⟩
    · cases pure_ok h; exact ⟨Acts.refl db org d, fun _ => rfl⟩
    · have h := read_bind_ok h
      split_ifs at h with hcap
      · cases pure_ok h; exact ⟨Acts.refl db org d, fun _ => rfl⟩
      · push Not at hnot hcharge
        refine beginDelivery_acts hget horg hnot.2 hnot.1 ?_ h
        cases charge with
        | none => exact Or.inl rfl
        | some c => exact Or.inr (hcharge c rfl)

theorem completeRefundLocked_acts {row r₁ : OutboxRow} {db₁ : Db} {a : Bool} (hget : db.outbox.get? d = some row)
    (horg : row.orgId = org) (hrest : db₁ = { db with outbox := db₁.outbox })
    (hothers : ∀ x, x ≠ d → db₁.outbox.get? x = db.outbox.get? x) (hget₁ : db₁.outbox.get? d = some r₁)
    (hr₁ : refundable r₁ = true) (hsame : r₁.orgId = row.orgId ∧ r₁.debitLedgerId = row.debitLedgerId)
    (hne : row.status ≠ .refunded)
    (hstep : HoldStep row.hold { r₁.hold with status := .refunded } (.refund row.amountUsdc))
    (h : completeRefundLocked now ledgerId org d row principal db₁ = .ok (a, db')) :
    Acts db db' org d ∧ (a = false → db' = db) := by
  have h := read_bind_ok h
  split_ifs at h with hrev
  · obtain ⟨n, db₂, hup, h⟩ := bind_ok h
    cases pure_ok h
    obtain ⟨hrest', hothers', hself⟩ := updateRow_ok hup
    have hself := hself r₁ hget₁ (hsame.1.trans horg)
    rw [if_pos hr₁] at hself
    have hledger : db₁.ledger.rows = db.ledger.rows := by rw [hrest]
    cases hl : row.debitLedgerId.filter (· ≠ "") with
    | none => rw [hl] at hrev; cases hrev
    | some l =>
      rw [hl, hledger] at hrev
      refine ⟨⟨by rw [hrest', hrest], ?_⟩, fun ha => by cases ha⟩
      exact .paid ⟨hget, hself, fun x hx => (hothers' x hx).trans (hothers x hx), hsame.1, hsame.2⟩ horg
        (Option.eq_some_of_filter_eq_some hl) hrev hne rfl (of_outbox (by rw [hrest', hrest]))
  · obtain ⟨_, db₂, hpay, h⟩ := bind_ok h
    obtain ⟨n, db₃, hup, h⟩ := bind_ok h
    cases pure_ok h
    have hp := payBack_ok hpay
    obtain ⟨hrest', hothers', hself⟩ := updateRow_ok hup
    rw [hp.outbox] at hothers' hself
    have hself := hself r₁ hget₁ (hsame.1.trans horg)
    rw [if_pos hr₁] at hself
    have hmoved : Moved db db' _ := (hp.reframe hrest').congr (by rw [hrest]) (by rw [hrest]) rfl rfl
    refine ⟨⟨by rw [hrest', hp.rest, hrest], ?_⟩, fun ha => by cases ha⟩
    exact .step ⟨hget, hself, fun x hx => (hothers' x hx).trans (hothers x hx), hsame.1, hsame.2⟩ horg hstep
      ⟨_, hmoved, rfl, horg.symm, rfl, rfl⟩

/-- **`confirm_delegation_delivery`** -/
theorem confirm_acts (org d settlementTx : String) (db : Db) :
    Acts db (confirmDelegationDelivery e org d settlementTx db).2 org d ∧
      ((confirmDelegationDelivery e org d settlementTx db).1 = false →
        (confirmDelegationDelivery e org d settlementTx db).2 = db) := by
  refine call_acts (fun a db' h => ?_)
  have h := read_bind_ok h
  cases hrow : outboxRow org d db with
  | none =>
    simp only [hrow] at h
    cases pure_ok h
    exact ⟨Acts.refl db org d, fun _ => rfl⟩
  | some row =>
    simp only [hrow] at h
    obtain ⟨hget, horg⟩ := outboxRow_some hrow
    split_ifs at h with hconf hfail
    · cases pure_ok h; exact ⟨Acts.refl db org d, fun _ => rfl⟩
    · cases pure_ok h; exact ⟨Acts.refl db org d, fun _ => rfl⟩
    · push Not at hfail
      obtain ⟨n, db₁, hup, h⟩ := bind_ok h
      obtain ⟨m, db₂, hup', h⟩ := bind_ok h
      cases pure_ok h
      obtain ⟨hrest, hothers, hself⟩ := updateRow_ok hup
      obtain ⟨hrest', hothers', hself'⟩ := updateRow_ok hup'
      have hself := hself' _ (hself row hget horg) horg
      refine ⟨⟨by rw [hrest', hrest], ?_⟩, fun ha => by cases ha⟩
      refine .step ⟨hget, hself, fun x hx => (hothers' x hx).trans (hothers x hx), ?_, ?_⟩ horg
        (c := .nothing) ?_ (of_outbox (by rw [hrest', hrest]))
      · split_ifs <;> rfl
      · split_ifs <;> rfl
      · have hstep := HoldStep.confirm (h := row.hold) hfail.1 hfail.2
        -- a row that is neither pending nor requested is already cancelled
        cases hs : row.status with
        | pending => simpa [OutboxRow.hold, hs] using hstep
        | refundRequested => simpa [OutboxRow.hold, hs] using hstep
        | refunded => exact absurd hs hfail.2
        | cancelled => simpa [OutboxRow.hold, hs] using hstep

/-- **`fail_delegation_delivery`** -/
theorem fail_acts (org d reason : String) (db : Db) :
    Acts db (failDelegationDelivery e org d reason db).2 org d ∧
      ((failDelegationDelivery e org d reason db).1 = false → (failDelegationDelivery e org d reason db).2 = db) := by
  refine call_acts (fun a db' h => ?_)
  have h := read_bind_ok h
  cases hrow : outboxRow org d db with
  | none =>
    simp only [hrow] at h
    cases pure_ok h
    exact ⟨Acts.refl db org d, fun _ => rfl⟩
  | some row =>
    simp only [hrow] at h
    obtain ⟨hget, horg⟩ := outboxRow_some hrow
    have h := read_bind_ok h
    split_ifs at h with hclosed hdone hrefunded hdelivery
    · cases pure_ok h; exact ⟨Acts.refl db org d, fun _ => rfl⟩
    · cases pure_ok h; exact ⟨Acts.refl db org d, fun _ => rfl⟩
    · cases pure_ok h; exact ⟨Acts.refl db org d, fun _ => rfl⟩
    · push Not at hclosed
      have hopen : row.hold.open := by
        cases hs : row.status with
        | pending => exact Or.inl hs
        | refundRequested => exact Or.inr hs
        | refunded => exact absurd hs hrefunded
        | cancelled => exact absurd hs hclosed.2
      obtain ⟨n, db₁, hup, h⟩ := bind_ok h
      obtain ⟨m, db₂, hup', h⟩ := bind_ok h
      obtain ⟨hrest, hothers, hself⟩ := updateRow_ok hup
      obtain ⟨hrest', hothers', hself'⟩ := updateRow_ok hup'
      have hself := hself' _ (hself row hget horg) horg
      simp only [if_true] at hself
      refine completeRefundLocked_acts hget horg (by rw [hrest', hrest])
        (fun x hx => (hothers' x hx).trans (hothers x hx)) hself ?_ ?_ hrefunded ?_ h
      · rcases hopen with hs | hs <;> simp [OutboxRow.hold] at hs <;> simp [refundable, hs]
      · split_ifs <;> exact ⟨rfl, rfl⟩
      · have hstep := HoldStep.fail (h := row.hold) hopen hdelivery
        split_ifs <;> exact hstep
    · cases pure_ok h; exact ⟨Acts.refl db org d, fun _ => rfl⟩

/-- **`complete_delegation_refund`** -/
theorem complete_acts (org d : String) (db : Db) :
    Acts db (completeDelegationRefund e org d db).2 org d ∧
      ((completeDelegationRefund e org d db).1 = false → (completeDelegationRefund e org d db).2 = db) := by
  refine call_acts (fun a db' h => ?_)
  have h := read_bind_ok h
  cases hrow : (outboxRow org d db).filter refundable with
  | none =>
    simp only [hrow] at h
    cases pure_ok h
    exact ⟨Acts.refl db org d, fun _ => rfl⟩
  | some row =>
    simp only [hrow] at h
    rw [Option.filter_eq_some_iff] at hrow
    obtain ⟨hget, horg⟩ := outboxRow_some hrow.1
    have hready : row.status = .refundRequested ∧ (row.deliveryStatus = .notAttempted ∨ row.deliveryStatus = .failed) := by
      simpa [refundable] using hrow.2
    exact completeRefundLocked_acts hget horg rfl (fun _ _ => rfl) hget hrow.2 ⟨rfl, rfl⟩ (by simp [hready.1])
      (HoldStep.complete (h := row.hold) hready.1 hready.2) h

theorem statementThenStatus_snd (org d : String) (stmt : Tx Db ℕ) (yes : RefundStatus → Bool) (db : Db) :
    (statementThenStatus e org d stmt yes db).2 = (call (e.fault 0) stmt db).2 := by
  unfold statementThenStatus
  rcases call_cases (e.fault 0) stmt db with ⟨x, hc⟩ | ⟨n, db', -, hc⟩
  · rw [hc]
  · rw [hc]
    simp only
    split_ifs <;> rfl

theorem statement_unmoved (org d : String) (hit : OutboxRow → Bool) (f : OutboxRow → OutboxRow) (hf : ∀ r, (f r).id = r.id)
    (yes : RefundStatus → Bool) (db : Db) :
    Unmoved db (statementThenStatus e org d (updateRow org d hit f hf) yes db).2 := by
  rw [statementThenStatus_snd]
  rcases call_cases (e.fault 0) (updateRow org d hit f hf) db with ⟨x, hc⟩ | ⟨n, db', ht, hc⟩
  · rw [hc]; exact refl db
  · rw [hc]; exact of_outbox (updateRow_get? ht).1

/-- a guarded statement on one row either misses it or takes it through a transition without a credit -/
theorem statement_acts {e : Env} {yes : RefundStatus → Bool} (db : Db)
    (hsame : ∀ r, (f r).orgId = r.orgId ∧ (f r).debitLedgerId = r.debitLedgerId)
    (hstep : ∀ r, hit r = true → HoldStep r.hold (f r).hold .nothing) :
    Acts db (statementThenStatus e org d (updateRow org d hit f hf) yes db).2 org d := by
  rw [statementThenStatus_snd]
  rcases call_cases (e.fault 0) (updateRow org d hit f hf) db with ⟨x, hc⟩ | ⟨n, db', ht, hc⟩
  · rw [hc]; exact Acts.refl db org d
  · rw [hc]
    obtain ⟨hrest, hget⟩ := updateRow_get? ht
    have hothers : ∀ x, x ≠ d → db'.outbox.get? x = db.outbox.get? x := fun x hx => by simp [hget, hx]
    by_cases hhit : ∃ r, db.outbox.get? d = some r ∧ r.orgId = org ∧ hit r = true
    · obtain ⟨r, hr, horg, hr'⟩ := hhit
      have hself : db'.outbox.get? d = some (f r) := by simp [hget, hr, horg, hr']
      exact ⟨by rw [hrest], .step ⟨hr, hself, hothers, (hsame r).1, (hsame r).2⟩ horg (hstep r hr')
        (of_outbox hrest)⟩
    · refine ⟨by rw [hrest], .idle (fun x => ?_) (of_outbox hrest)⟩
      by_cases hx : x = d
      · subst hx
        rw [hget]
        cases hrow : db.outbox.get? x with
        | none => rfl
        | some r =>
          have hmiss : ¬ (r.orgId = org ∧ hit r = true) := fun hr => hhit ⟨r, hrow, hr.1, hr.2⟩
          simp [hmiss]
      · exact hothers x hx

/-- **`request_delegation_refund`** -/
theorem request_acts (org d : String) (db : Db) : Acts db (requestDelegationRefund e org d db).2 org d := by
  refine statement_acts db (fun r => ⟨rfl, rfl⟩) (fun r hr => ?_)
  have hready : r.status = .pending ∧ (r.deliveryStatus = .notAttempted ∨ r.deliveryStatus = .failed) := by
    simpa using hr
  exact HoldStep.request (h := r.hold) hready.1 hready.2

/-- **`cancel_delegation_refund`** -/
theorem cancel_acts (org d : String) (db : Db) : Acts db (cancelDelegationRefund e org d db).2 org d := by
  refine statement_acts db (fun r => ⟨rfl, rfl⟩) (fun r hr => ?_)
  have hready : (r.status = .pending ∨ r.status = .refundRequested) ∧ r.deliveryStatus ≠ .failed := by
    simpa using hr
  have hne : r.status ≠ .refunded := by rcases hready.1 with hs | hs <;> simp [hs]
  have hstep := HoldStep.confirm (h := r.hold) hready.2 hne
  cases hd : r.deliveryStatus with
  | notAttempted | possiblyDelivered | confirmed => simpa [OutboxRow.hold, hd] using hstep
  | failed => exact absurd hd hready.2

end Teardrop.Billing
