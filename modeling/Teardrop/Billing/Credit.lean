/-
Debits of the org credit balance: `_debit_credit_locked`, `debit_credit` and `debit_credit_with_delegation_refund` of
`billing/credit.py`, with the rolling-spend queries of `billing/context.py`.

`_debit_credit_locked` runs inside its caller's transaction, holding the org's `org_credits` row. It refuses (and
writes nothing) or takes the whole amount: `debitCreditLocked_ok` says which, and what held when it took it.
The invalidation of the display cache after a commit touches no table and is left out.
-/
import Teardrop.Billing.Statements

namespace Teardrop.Billing

open Teardrop.Py Tx

/-! ## Model -/

/-- a row of the ledger reverses the one with this id -/
def isReversed (rows : List LedgerRow) (id : String) : Bool := rows.any (fun r => r.reversesLedgerId = some id)

/-- the sum over the unreversed debits that satisfy `mine`, from 24 hours before `now` on -/
def debitSpend (now : ℤ) (mine : LedgerRow → Bool) (rows : List LedgerRow) : ℤ :=
  ((rows.filter (fun r => r.operation = .debit && mine r && decide (now - hours 24 ≤ r.createdAt) &&
    !isReversed rows r.id)).map LedgerRow.amountUsdc).sum

/-- `_get_daily_debit_spend` -/
def dailyDebitSpend (now : ℤ) (rows : List LedgerRow) (org : String) : ℤ :=
  debitSpend now (fun r => r.orgId = org) rows

/-- `_get_daily_principal_debit_spend` -/
def dailyPrincipalDebitSpend (now : ℤ) (rows : List LedgerRow) (org principal : String) : ℤ :=
  debitSpend now (fun r => r.orgId = org && r.principalId = some principal) rows

/-- the org's 24-hour limit in force: machine orgs without one of their own get the default cap -/
def effectiveLimit (cfg : Settings) (row : CreditRow) (acquisitionSource : String) : ℤ :=
  if (acquisitionSource = "siwe" ∨ acquisitionSource = "x402") ∧ row.spendingLimitUsdc ≤ 0 then
    cfg.machineOrgDailySpendLimitUsdc
  else row.spendingLimitUsdc

/-- `SELECT ... FROM org_credits JOIN orgs` -/
def creditRow (org : String) (db : Db) : Option (CreditRow × OrgRow) :=
  match db.credits.get? org, db.orgs.get? org with
  | some c, some o => some (c, o)
  | _, _ => none

/-- the refusal of the org's limit -/
def overOrgLimit (limit spend amount : ℤ) : Bool := 0 < limit && limit < spend + amount

/-- the refusal of a principal's limit row -/
def overPrincipalLimit (row : PrincipalLimitRow) (spend amount : ℤ) : Bool :=
  row.isPaused || row.dailyLimitUsdc < spend + amount

/-- a principal that counts as given: `if principal_id` -/
def givenPrincipal (principal : Option String) : Option String := principal.filter (· ≠ "")

/-- the principal's part of the checks -/
def principalRefuses (now : ℤ) (org : String) (amount : ℤ) (principal : Option String) (db : Db) : Bool :=
  match givenPrincipal principal with
  | none => false
  | some p =>
    match db.principalLimits.get? (org, p) with
    | none => false
    | some row => overPrincipalLimit row (dailyPrincipalDebitSpend now db.ledger.rows org p) amount

/-- the ledger row of a debit -/
def debitRow (now : ℤ) (ledgerId org : String) (amount newBalance : ℤ) (reason : String) (principal : Option String) :
    LedgerRow :=
  ⟨ledgerId, org, .debit, amount, newBalance, reason, principal, none, none, now⟩

/-- the two writes of a debit, from the balance read under the lock -/
def writeDebit (now : ℤ) (ledgerId org : String) (amount balance : ℤ) (reason : String) (principal : Option String) :
    Tx Db Unit := do
  writeBalance org (balance - amount)
  insertLedger (debitRow now ledgerId org amount (balance - amount) reason principal)

def debitCreditLocked (cfg : Settings) (now : ℤ) (ledgerId org : String) (amount : ℤ) (reason : String)
    (principal : Option String) : Tx Db (Bool × ℤ × Option String) := do
  match ← Tx.read (creditRow org) with
  | none => return (false, 0, none)
  | some (c, o) =>
    let spend ← Tx.read fun db => dailyDebitSpend now db.ledger.rows org
    let refused ← Tx.read (principalRefuses now org amount principal)
    if c.isPaused then return (false, 0, none)
    else if overOrgLimit (effectiveLimit cfg c o.acquisitionSource) spend amount then return (false, 0, none)
    else if refused then return (false, 0, none)
    else if c.balanceUsdc < amount then return (false, 0, none)
    else do
      writeDebit now ledgerId org amount c.balanceUsdc reason principal
      return (true, amount, some ledgerId)

def debitCredit (cfg : Settings) (e : Env) (org : String) (amount : ℤ) (reason : String) (principal : Option String)
    (db : Db) : (Bool × ℤ) × Db :=
  if amount ≤ 0 then ((true, 0), db)
  else match call (e.fault 0) (debitCreditLocked cfg e.now (e.uuid 0) org amount reason principal) db with
    | (.ok (success, deducted, _), db') => ((success, deducted), db')
    | (.error _, db') => ((false, 0), db')

/-- `INSERT INTO a2a_delegation_refund_outbox` -/
def insertOutbox (row : OutboxRow) : Tx Db Unit := do
  Tx.require (0 < row.amountUsdc) (.pg .checkViolation)
  match ← Tx.read fun db => db.outbox.insert? row with
  | none => Tx.raise (.pg .uniqueViolation)
  | some outbox => Tx.write fun db => { db with outbox := outbox }

/-- a new row of the outbox: pending, nothing attempted -/
def newOutboxRow (now : ℤ) (delegationId org runId : String) (amount : ℤ) (debitLedgerId : Option String) : OutboxRow :=
  ⟨delegationId, org, runId, amount, debitLedgerId, .pending, .notAttempted, now, none, none, none, "", ""⟩

/-- the transaction of `debit_credit_with_delegation_refund` -/
def fundTx (cfg : Settings) (now : ℤ) (ledgerId org : String) (amount : ℤ) (reason delegationId runId : String)
    (principal : Option String) : Tx Db (Bool × ℤ) := do
  match ← Tx.read fun db => (db.outbox.get? delegationId).filter (fun r => r.orgId = org) with
  | some existing =>
    if existing.amountUsdc ≠ amount then
      Tx.raise (.valueError "Delegation funding amount changed for an existing id")
    else return (existing.status = .pending, existing.amountUsdc)
  | none =>
    let (success, deducted, debitLedgerId) ← debitCreditLocked cfg now ledgerId org amount reason principal
    if ¬ success then return (false, 0)
    else do
      insertOutbox (newOutboxRow now delegationId org runId deducted debitLedgerId)
      return (true, deducted)

def debitCreditWithDelegationRefund (cfg : Settings) (e : Env) (org : String) (amount : ℤ)
    (reason delegationId runId : String) (principal : Option String) (db : Db) : (Bool × ℤ) × Db :=
  if amount ≤ 0 then ((true, 0), db)
  else match call (e.fault 0) (fundTx cfg e.now (e.uuid 0) org amount reason delegationId runId principal) db with
    | (.ok r, db') => (r, db')
    | (.error _, db') => ((false, 0), db')

/-! ## What a debit does -/

/-- the checks a debit passed, in the state it was made from -/
structure DebitAllowed (cfg : Settings) (now : ℤ) (org : String) (amount : ℤ) (principal : Option String) (db : Db) :
    Prop where
  /-- the balance covers the amount, and the org's limit in force the window's spend with it -/
  orgOk : ∃ c o, creditRow org db = some (c, o) ∧ amount ≤ c.balanceUsdc ∧
    overOrgLimit (effectiveLimit cfg c o.acquisitionSource) (dailyDebitSpend now db.ledger.rows org) amount = false
  principalOk : principalRefuses now org amount principal db = false

variable {org : String} {db : Db} {principal : Option String}

theorem creditRow_some {c : CreditRow} {o : OrgRow} (h : creditRow org db = some (c, o)) :
    db.credits.get? org = some c ∧ db.orgs.get? org = some o := by
  unfold creditRow at h
  split at h
  · next hc ho => cases h; exact ⟨hc, ho⟩
  · cases h

theorem writeDebit_ok {now : ℤ} {ledgerId : String} {amount : ℤ} {reason : String} {c : CreditRow} {db' : Db} {u : Unit}
    (hc : db.credits.get? org = some c)
    (h : writeDebit now ledgerId org amount c.balanceUsdc reason principal db = .ok (u, db')) :
    Posted db db' (debitRow now ledgerId org amount (balance db org - amount) reason principal) := by
  have hbal : balance db org = c.balanceUsdc := by simp [balance, hc]
  obtain ⟨_, db₁, hw, hi⟩ := bind_ok h
  rw [hbal]
  refine posted_of_credited (writeBalance_ok hc hw) ?_ hi
  simp [debitRow, LedgerRow.delta, hbal, sub_eq_add_neg]

/-- **`_debit_credit_locked` takes all or nothing.** It leaves the store as it was and reports a refusal, or posts one
debit of the whole amount, having passed every check. -/
theorem debitCreditLocked_ok {cfg : Settings} {now : ℤ} {ledgerId : String} {amount : ℤ} {reason : String}
    {r : (Bool × ℤ × Option String) × Db} (h : debitCreditLocked cfg now ledgerId org amount reason principal db = .ok r) :
    r = ((false, 0, none), db) ∨
    (r.1 = (true, amount, some ledgerId) ∧ DebitAllowed cfg now org amount principal db ∧
      Posted db r.2 (debitRow now ledgerId org amount (balance db org - amount) reason principal)) := by
  have h := read_bind_ok h
  cases hrow : creditRow org db with
  | none =>
    simp only [hrow] at h
    exact .inl (pure_ok h)
  | some co =>
    obtain ⟨c, o⟩ := co
    simp only [hrow] at h
    have h := read_bind_ok h
    have h := read_bind_ok h
    split_ifs at h with hpaused hlimit hprincipal hbalance
    · exact .inl (pure_ok h)
    · exact .inl (pure_ok h)
    · exact .inl (pure_ok h)
    · exact .inl (pure_ok h)
    · obtain ⟨_, db₁, hw, h⟩ := bind_ok h
      cases pure_ok h
      refine .inr ⟨rfl, ⟨⟨c, o, hrow, by omega, by simpa using hlimit⟩, by simpa using hprincipal⟩, ?_⟩
      exact writeDebit_ok (creditRow_some hrow).1 hw

theorem call_cases {α : Type} (fault : Bool) (t : Tx Db α) (db : Db) :
    (∃ e, call fault t db = (.error e, db)) ∨ ∃ a db', t db = .ok (a, db') ∧ call fault t db = (.ok a, db') := by
  unfold call
  split_ifs
  · exact .inl ⟨_, rfl⟩
  · rcases commit_cases t db with ⟨a, db', h, hc⟩ | ⟨e, -, hc⟩
    · exact .inr ⟨a, db', h, hc⟩
    · exact .inl ⟨e, hc⟩

/-- `debit_credit` leaves the store as it was, or posts one debit and reports success -/
theorem debitCredit_cases (cfg : Settings) (e : Env) (org : String) (amount : ℤ) (reason : String)
    (principal : Option String) (db : Db) :
    (debitCredit cfg e org amount reason principal db).2 = db ∨
    ((debitCredit cfg e org amount reason principal db).1 = (true, amount) ∧
      DebitAllowed cfg e.now org amount principal db ∧
      Posted db (debitCredit cfg e org amount reason principal db).2
        (debitRow e.now (e.uuid 0) org amount (balance db org - amount) reason principal)) := by
  unfold debitCredit
  split_ifs with hamount
  · exact .inl rfl
  · rcases call_cases (e.fault 0) (debitCreditLocked cfg e.now (e.uuid 0) org amount reason principal) db with
      ⟨x, hc⟩ | ⟨⟨s, a, l⟩, db', ht, hc⟩
    · rw [hc]; exact .inl rfl
    · rw [hc]
      rcases debitCreditLocked_ok ht with hr | ⟨hr, hallowed, hp⟩
      · cases hr; exact .inl rfl
      · cases hr; exact .inr ⟨rfl, hallowed, hp⟩

theorem insertOutbox_ok {row : OutboxRow} {r : Unit × Db} (h : insertOutbox row db = .ok r) :
    0 < row.amountUsdc ∧ ∃ o, db.outbox.insert? row = some o ∧ r = ((), { db with outbox := o }) := by
  obtain ⟨hpos, h⟩ := require_bind_ok h
  have h := read_bind_ok h
  cases hins : db.outbox.insert? row with
  | none => simp only [hins] at h; cases h
  | some o =>
    simp only [hins] at h
    cases h
    exact ⟨hpos, o, rfl, rfl⟩

/-- funding of a delegation: one debit posted, and the outbox row that points at it -/
structure Funded (db db' : Db) (debit : LedgerRow) (row : OutboxRow) : Prop where
  posted : ∃ db₁, Posted db db₁ debit ∧ db' = { db₁ with outbox := db'.outbox }
  outbox : db.outbox.insert? row = some db'.outbox
  link : row.debitLedgerId = some debit.id
  org : row.orgId = debit.orgId
  amount : row.amountUsdc = debit.amountUsdc
  status : row.status = .pending
  delivery : row.deliveryStatus = .notAttempted

/-- `debit_credit_with_delegation_refund` leaves the store as it was (there is nothing to debit, it reports failure, or
the delegation has its row), or debits and opens the delegation's row in one transaction -/
theorem fund_cases (cfg : Settings) (e : Env) (org : String) (amount : ℤ) (reason delegationId runId : String)
    (principal : Option String) (db : Db) :
    ((debitCreditWithDelegationRefund cfg e org amount reason delegationId runId principal db).2 = db ∧
      (amount ≤ 0 ∨ (debitCreditWithDelegationRefund cfg e org amount reason delegationId runId principal db).1.1 = false ∨
        ∃ r, db.outbox.get? delegationId = some r)) ∨
    ((debitCreditWithDelegationRefund cfg e org amount reason delegationId runId principal db).1 = (true, amount) ∧
      DebitAllowed cfg e.now org amount principal db ∧
      Funded db (debitCreditWithDelegationRefund cfg e org amount reason delegationId runId principal db).2
        (debitRow e.now (e.uuid 0) org amount (balance db org - amount) reason principal)
        (newOutboxRow e.now delegationId org runId amount (some (e.uuid 0)))) := by
  unfold debitCreditWithDelegationRefund
  split_ifs with hamount
  · exact .inl ⟨rfl, .inl hamount⟩
  · rcases call_cases (e.fault 0) (fundTx cfg e.now (e.uuid 0) org amount reason delegationId runId principal) db with
      ⟨x, hc⟩ | ⟨⟨s, a⟩, db', ht, hc⟩
    · rw [hc]; exact .inl ⟨rfl, .inr (.inl rfl)⟩
    · rw [hc]
      have ht := read_bind_ok ht
      cases hrow : (db.outbox.get? delegationId).filter (fun r => r.orgId = org) with
      | some existing =>
        simp only [hrow] at ht
        split_ifs at ht
        · cases ht
        · cases pure_ok ht
          exact .inl ⟨rfl, .inr (.inr ⟨existing, Option.eq_some_of_filter_eq_some hrow⟩)⟩
      | none =>
        simp only [hrow] at ht
        obtain ⟨⟨s₁, a₁, l₁⟩, db₁, hd, ht⟩ := bind_ok ht
        rcases debitCreditLocked_ok hd with hr | ⟨hr, hallowed, hp⟩
        · cases hr
          cases pure_ok ht
          exact .inl ⟨rfl, .inr (.inl rfl)⟩
        · cases hr
          obtain ⟨_, db₂, hi, ht⟩ := bind_ok ht
          obtain ⟨-, o, hins, ho⟩ := insertOutbox_ok hi
          cases ho
          cases pure_ok ht
          have hout : db₁.outbox = db.outbox := hp.outbox
          rw [hout] at hins
          exact .inr ⟨rfl, hallowed, ⟨db₁, hp, rfl⟩, hins, rfl, rfl, rfl, rfl, rfl⟩

end Teardrop.Billing
