/-
The debit paths statement by statement: sessions that take their statements one at a time, each against what has been
committed by then, with the row locks of `SELECT ... FOR UPDATE`: the org's `org_credits` row from the first statement of
`_debit_credit_locked` on, the principal's limit row once it is read, the claimed settlement row. Writes become visible at the
commit, so the writing statements and the commit are one step. What needs a row another session has locked waits.
-/
import Teardrop.Core.Locks
import Teardrop.Billing.Machine

namespace Teardrop.Billing

open Teardrop.Py Tx

/-! ## Model -/

/-- a call of one of the three debit paths -/
inductive DebitCall where
  | debit (e : Env) (org : String) (amount : ℤ) (reason : String) (principal : Option String)
  | fund (e : Env) (org : String) (amount : ℤ) (reason d runId : String) (principal : Option String)
  | settle (e : Env) (row : SettlementRow) (retryCount : ℤ)

namespace DebitCall

def env : DebitCall → Env
  | .debit e _ _ _ _ => e
  | .fund e _ _ _ _ _ _ => e
  | .settle e _ _ => e

def org : DebitCall → String
  | .debit _ org _ _ _ => org
  | .fund _ org _ _ _ _ _ => org
  | .settle _ row _ => row.orgId

def amount : DebitCall → ℤ
  | .debit _ _ amount _ _ => amount
  | .fund _ _ amount _ _ _ _ => amount
  | .settle _ row _ => row.amountUsdc

def reason : DebitCall → String
  | .debit _ _ _ reason _ => reason
  | .fund _ _ _ reason _ _ _ => reason
  | .settle _ row _ => "run:" ++ row.runId

def principal : DebitCall → Option String
  | .debit _ _ _ _ principal => principal
  | .fund _ _ _ _ _ _ principal => principal
  | .settle _ row _ => row.principalId

/-- `debit_credit` and `debit_credit_with_delegation_refund` answer a non-positive amount without a transaction -/
def answered : DebitCall → Bool
  | .debit _ _ amount _ _ => amount ≤ 0
  | .fund _ _ amount _ _ _ _ => amount ≤ 0
  | .settle _ _ _ => false

/-- the settlement row the call's first statement locks -/
def settlement : DebitCall → Option String
  | .settle _ row _ => some row.id
  | _ => none

/-- the path's own first statement: whether the call goes on to debit -/
def proceeds (db : Db) : DebitCall → Bool
  | .debit _ _ _ _ _ => true
  | .fund _ org _ _ d _ _ => (outboxRow org d db).isNone
  | .settle e row _ => stillClaimed e.now row db

/-- the path's own statements after the debit -/
def finish (cfg : Settings) (py : Interp) : DebitCall → Tx Db Unit
  | .debit _ _ _ _ _ => return ()
  | .fund e org amount _ d runId _ => insertOutbox (newOutboxRow e.now d org runId amount (some (e.uuid 0)))
  | .settle e row retryCount => completeSettlement cfg py e.uuid row retryCount row.amountUsdc

/-- the writing statements, from the balance read under the lock -/
def writes (cfg : Settings) (py : Interp) (balance : ℤ) (call : DebitCall) : Tx Db Unit := do
  writeDebit call.env.now (call.env.uuid 0) call.org call.amount balance call.reason call.principal
  call.finish cfg py

end DebitCall

/-- how far a session has come, with what it has read and holds locked -/
inductive Phase where
  | begun
  | proceeding
  /-- the org's row is read and locked, and not paused -/
  | locked (c : CreditRow) (o : OrgRow)
  | orgChecked (c : CreditRow) (o : OrgRow)
  /-- the principal's limit row is read and locked, and not paused -/
  | limitRead (c : CreditRow) (o : OrgRow) (p : String) (limit : PrincipalLimitRow)
  /-- every limit is checked; the limit row found, if any -/
  | checked (c : CreditRow) (o : OrgRow) (limit : Option PrincipalLimitRow)

structure Session where
  call : DebitCall
  phase : Phase

namespace Session

/-- the org whose `org_credits` row the session holds -/
def orgLock (ses : Session) : Option String :=
  match ses.phase with
  | .begun => none
  | .proceeding => none
  | _ => some ses.call.org

/-- the limit row the session holds -/
def limitLock (ses : Session) : Option PrincipalLimitRow :=
  match ses.phase with
  | .limitRead _ _ _ limit => some limit
  | .checked _ _ limit => limit
  | _ => none

/-- the settlement row the session holds -/
def settlementLock (ses : Session) : Option String :=
  match ses.phase with
  | .begun => none
  | _ => ses.call.settlement

/-- the columns of a settlement row that are ever rewritten -/
def leaseOf (db : Db) (id : String) : Option (SettlementStatus × ℤ) :=
  (db.settlements.get? id).map (fun r => (r.status, r.nextRetryAt))

/-- a change of the store that leaves the rows the session holds alone -/
def spares (db db' : Db) (ses : Session) : Bool :=
  (match ses.orgLock with
    | some org => decide (db'.credits.get? org = db.credits.get? org)
    | none => true) &&
  (match ses.limitLock with
    | some limit => decide (db'.principalLimits.get? (limit.orgId, limit.principalId) =
        db.principalLimits.get? (limit.orgId, limit.principalId))
    | none => true) &&
  (match ses.settlementLock with
    | some id => decide (leaseOf db' id = leaseOf db id)
    | none => true)

/-- one statement before the writes: the next phase, or `none` when the call is refused -/
def check (cfg : Settings) (db : Db) (call : DebitCall) : Phase → Option Phase
  | .begun => if call.proceeds db then some .proceeding else none
  | .proceeding =>
    match creditRow call.org db with
    | none => none
    | some (c, o) => if c.isPaused then none else some (.locked c o)
  | .locked c o =>
    if overOrgLimit (effectiveLimit cfg c o.acquisitionSource) (dailyDebitSpend call.env.now db.ledger.rows call.org)
        call.amount then none
    else some (.orgChecked c o)
  | .orgChecked c o =>
    match givenPrincipal call.principal with
    | none => some (.checked c o none)
    | some p =>
      match db.principalLimits.get? (call.org, p) with
      | none => some (.checked c o none)
      | some limit => if limit.isPaused then none else some (.limitRead c o p limit)
  | .limitRead c o p limit =>
    if limit.dailyLimitUsdc < dailyPrincipalDebitSpend call.env.now db.ledger.rows call.org p + call.amount then none
    else some (.checked c o (some limit))
  | .checked c o limit => some (.checked c o limit)

end Session

/-- the sessions under way over the shared state -/
structure World where
  sys : Sys
  sessions : List Session

inductive Event where
  /-- a debit path is called -/
  | start (call : DebitCall)
  /-- a session takes its next statement -/
  | advance (i : ℕ)
  /-- a session is lost: its transaction is rolled back -/
  | drop (i : ℕ)
  /-- any other operation -/
  | other (op : Op)

namespace World

/-- a session waits for a row that another one holds -/
def waits (w : World) (ses : Session) : Bool :=
  match ses.phase with
  | .begun => w.sessions.any (fun other => other.settlementLock.isSome && other.settlementLock = ses.call.settlement)
  | .proceeding => decide (ses.call.org ∈ Locks.held Session.orgLock w.sessions)
  | _ => false

/-- the operations that debit: they run as sessions -/
def isDebit : Op → Bool
  | .debitCredit _ _ _ _ _ => true
  | .fundDelegation _ _ _ _ _ _ _ => true
  | .settleClaimed _ _ => true
  | _ => false

/-- the last statements and the commit of a session that passed every check -/
def commit (cfg : Settings) (py : Interp) (w : World) (i : ℕ) (call : DebitCall) (c : CreditRow) : World :=
  if c.balanceUsdc < call.amount then { w with sessions := w.sessions.eraseIdx i }
  else
    { sys := { w.sys with db := (Tx.commit (call.writes cfg py c.balanceUsdc) w.sys.db).2 }
      sessions := w.sessions.eraseIdx i }

def advance (cfg : Settings) (py : Interp) (w : World) (i : ℕ) : World :=
  match w.sessions[i]? with
  | none => w
  | some ses =>
    if w.waits ses then w
    else match ses.phase with
      | .checked c _ _ => w.commit cfg py i ses.call c
      | phase =>
        match Session.check cfg w.sys.db ses.call phase with
        | none => { w with sessions := w.sessions.eraseIdx i }
        | some phase' => { w with sessions := w.sessions.set i ⟨ses.call, phase'⟩ }

def step (cfg : Settings) (py : Interp) (w : World) : Event → World
  | .start call => if call.answered then w else { w with sessions := w.sessions ++ [⟨call, .begun⟩] }
  | .advance i => w.advance cfg py i
  | .drop i => { w with sessions := w.sessions.eraseIdx i }
  | .other op =>
    if isDebit op ∨ ¬ w.sessions.all (Session.spares w.sys.db (next cfg py w.sys op).db) then w
    else { w with sys := next cfg py w.sys op }

def run (cfg : Settings) (py : Interp) (w : World) (events : List Event) : World := Runs.run (step cfg py) w events

/-- the ledger rows an event appends -/
def posted (cfg : Settings) (py : Interp) (w : World) (ev : Event) : List LedgerRow :=
  (w.step cfg py ev).sys.db.ledger.rows.drop w.sys.db.ledger.rows.length

end World

end Teardrop.Billing
