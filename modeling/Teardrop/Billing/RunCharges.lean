/-
The three records of one charge on the credit rail: the ledger debit, the settlement columns of the usage event, and the
row of `billing_charges`. `dispatch_settlement` of `teardrop/agent_post_run.py` writes them, one database call after another;
the retry worker writes them again for a run whose debit failed; `billing/reconciliation.py` compares them afterwards.

The columns that are written once, with the row, are here (`ChargeHead`, `UsageHead`). A `RunTask` is one call of
`dispatch_settlement`, cut at its database calls; `lost` remembers that a best-effort write did not reach the store. Of the
reconciliation `agent_runs` and `credit_run_debits` are modelled; the other two checks read MCP calls only.
-/
import Teardrop.Billing.Machine

namespace Teardrop.Billing

open Teardrop.Py

/-! ## Tables -/

inductive ChargeSource where
  | api
  | schedule
  | trigger
  | a2a
  | mcp
  | mcpV1
deriving DecidableEq

def ChargeSource.text : ChargeSource → String
  | .api => "api"
  | .schedule => "schedule"
  | .trigger => "trigger"
  | .a2a => "a2a"
  | .mcp => "mcp"
  | .mcpV1 => "mcp_v1"

/-- `_AGENT_SOURCES` -/
def ChargeSource.isAgent : ChargeSource → Bool
  | .api | .schedule | .trigger | .a2a => true
  | .mcp | .mcpV1 => false

/-- the columns of `billing_charges` that reconciliation reads and settlement does not write, but for `updated_at` -/
structure ChargeHead where
  id : String
  source : ChargeSource
  invocationId : String
  usageEventId : String
  orgId : String
  billingMethod : Method
  settlementTx : String
  createdAt : ℤ
  updatedAt : ℤ
deriving DecidableEq

/-- `created_at` of a usage event -/
structure UsageHead where
  id : String
  createdAt : ℤ

/-- `charge_id_for`, over the text of `uuid.uuid5` in the namespace of charges -/
def chargeIdFor (uuid5 : String → String) (source : ChargeSource) (invocationId : String) : String :=
  uuid5 (source.text ++ ":" ++ invocationId)

/-! ## A run -/

/-- what `dispatch_settlement` is called with, for a run billed to credit -/
structure BilledRun where
  source : ChargeSource
  runId : String
  usageEventId : String
  org : String
  principal : Option String
  cost : ℤ
  allocations : List Json

/-- the next database call of a run: its usage event, its debit, the settlement of the usage event, its charge, its row
in the retry queue -/
inductive RunPhase where
  | usageEvent
  | debit
  | settlement (success : Bool) (deducted : ℤ)
  | charge (success : Bool) (deducted : ℤ)
  | enqueue
  | done
deriving DecidableEq

structure RunTask where
  bill : BilledRun
  phase : RunPhase
  lost : Bool

structure Till where
  sys : Sys
  heads : Table ChargeHead.id
  usageHeads : Table UsageHead.id
  runs : List RunTask

/-- no run yet, and no worker holds a claim -/
def Till.start (db : Db) (heads : Table ChargeHead.id) (usageHeads : Table UsageHead.id) : Till :=
  ⟨⟨db, []⟩, heads, usageHeads, []⟩

def Till.db (w : Till) : Db := w.sys.db

/-- `record_usage_event`, the columns settlement writes among them; a failure is only logged -/
def recordUsageEvent (e : Env) (row : UsageRow) (w : Till) : Till :=
  if e.fault 0 ∨ ¬ isBigint row.costUsdc then w
  else match w.db.usageEvents.insert? row, w.usageHeads.insert? ⟨row.id, e.now⟩ with
    | some usageEvents, some usageHeads =>
      { w with sys := { w.sys with db := { w.db with usageEvents := usageEvents } }, usageHeads := usageHeads }
    | _, _ => w

/-- `record_settlement`; a failure is only logged -/
def recordSettlement (e : Env) (row : UsageRow) (db : Db) : Db :=
  if e.fault 0 ∨ ¬ isBigint row.costUsdc then db
  else { db with
    usageEvents := db.usageEvents.update (fun r => if r.id = row.id then row else r)
      (fun r => by by_cases h : r.id = row.id <;> simp [h]) }

/-- `record_charge`: `ON CONFLICT (source, invocation_id) DO NOTHING`; a failure is only logged -/
def recordCharge (e : Env) (head : ChargeHead) (row : ChargeRow) (amount : ℤ) (w : Till) : Till :=
  if e.fault 0 ∨ ¬ isBigint amount ∨ ¬ isBigint row.settledAmountUsdc then w
  else if ∃ h ∈ w.heads.rows, h.source = head.source ∧ h.invocationId = head.invocationId then w
  else match w.heads.insert? head, w.db.charges.insert? row with
    | some heads, some charges =>
      { w with sys := { w.sys with db := { w.db with charges := charges } }, heads := heads }
    | _, _ => w

/-- the usage event of a run whose debit went through or not -/
def BilledRun.usageRow (b : BilledRun) (success : Bool) (deducted : ℤ) : UsageRow :=
  ⟨b.usageEventId, if success then deducted else b.cost, "", if success then "settled" else "failed"⟩

/-- the charge of a run whose debit went through or not -/
def BilledRun.chargeRow (uuid5 : String → String) (b : BilledRun) (success : Bool) (deducted : ℤ) : ChargeRow :=
  ⟨chargeIdFor uuid5 b.source b.runId, if success then max 0 deducted else 0, if success then .settled else .failed⟩

def BilledRun.chargeHead (uuid5 : String → String) (b : BilledRun) (now : ℤ) : ChargeHead :=
  ⟨chargeIdFor uuid5 b.source b.runId, b.source, b.runId, b.usageEventId, b.org, .credit, "", now, now⟩

/-- the next call of `dispatch_settlement` on the credit rail -/
def RunTask.resume (cfg : Settings) (uuid5 : String → String) (e : Env) (t : RunTask) (w : Till) : RunTask × Till :=
  let b := t.bill
  match t.phase with
  | .usageEvent => ({ t with phase := .debit }, recordUsageEvent e ⟨b.usageEventId, b.cost, "", "none"⟩ w)
  | .debit =>
    let r := debitCredit cfg e b.org b.cost ("run:" ++ b.runId) b.principal w.db
    ({ t with phase := .settlement r.1.1 r.1.2 }, { w with sys := { w.sys with db := r.2 } })
  | .settlement success deducted =>
    let db := recordSettlement e (b.usageRow success deducted) w.db
    ({ t with phase := .charge success deducted,
              lost := t.lost || db.usageEvents.get? b.usageEventId ≠ some (b.usageRow success deducted) },
      { w with sys := { w.sys with db := db } })
  | .charge success deducted =>
    let w' := recordCharge e (b.chargeHead uuid5 e.now) (b.chargeRow uuid5 success deducted) (max 0 b.cost) w
    ({ t with phase := if success then .done else .enqueue,
              lost := t.lost || w'.heads.get? (chargeIdFor uuid5 b.source b.runId) ≠ some (b.chargeHead uuid5 e.now) ||
                w'.db.charges.get? (chargeIdFor uuid5 b.source b.runId) ≠ some (b.chargeRow uuid5 success deducted) }, w')
  | .enqueue =>
    let db := enqueueFailedSettlement cfg e b.usageEventId b.org b.runId .credit b.cost none b.principal
      (chargeIdFor uuid5 b.source b.runId) b.allocations w.db
    ({ t with phase := .done, lost := t.lost || db.settlements.rows.length = w.db.settlements.rows.length },
      { w with sys := { w.sys with db := db } })
  | .done => (t, w)

/-! ## The machine -/

inductive TillAct where
  /-- any operation of the billing machine -/
  | base (op : Op)
  /-- a run billed to credit has completed -/
  | complete (b : BilledRun)
  /-- run `i` makes its next database call -/
  | resume (i : ℕ) (e : Env)
  /-- a charge of another rail or of an MCP call -/
  | otherCharge (e : Env) (head : ChargeHead) (row : ChargeRow) (amount : ℤ)
  /-- a usage event of another rail -/
  | otherUsage (e : Env) (row : UsageRow)

/-- `updated_at` of the charges a retry settled -/
def touch (now : ℤ) (db db' : Db) (h : ChargeHead) : ChargeHead :=
  if db'.charges.get? h.id ≠ db.charges.get? h.id then { h with updatedAt := now } else h

theorem touch_id (now : ℤ) (db db' : Db) (h : ChargeHead) : (touch now db db' h).id = h.id := by
  unfold touch
  split_ifs <;> rfl

def baseStep (cfg : Settings) (py : Interp) (w : Till) (op : Op) : Till :=
  let sys := next cfg py w.sys op
  match op with
  | .settleClaimed e _ =>
    { w with sys := sys, heads := w.heads.update (touch e.now w.db sys.db) (touch_id e.now w.db sys.db) }
  | _ => { w with sys := sys }

def tillStep (cfg : Settings) (py : Interp) (uuid5 : String → String) (w : Till) : TillAct → Till
  | .base op => baseStep cfg py w op
  | .complete b => { w with runs := w.runs ++ [⟨b, .usageEvent, false⟩] }
  | .resume i e =>
    match w.runs[i]? with
    | none => w
    | some t => { (t.resume cfg uuid5 e w).2 with runs := w.runs.set i (t.resume cfg uuid5 e w).1 }
  | .otherCharge e head row amount => recordCharge e head row amount w
  | .otherUsage e row => recordUsageEvent e row w

/-! ## Reconciliation -/

/-- a usage event as the queries read it -/
def Till.usage (w : Till) : List (UsageHead × UsageRow) :=
  w.usageHeads.rows.filterMap (fun h => (w.db.usageEvents.get? h.id).map (fun r => (h, r)))

/-- a charge as the queries read it -/
def Till.charges (w : Till) : List (ChargeHead × ChargeRow) :=
  w.heads.rows.filterMap (fun h => (w.db.charges.get? h.id).map (fun r => (h, r)))

/-- `LEFT JOIN` -/
def leftJoin {A B : Type} (rows : List A) (joined : A → List B) : List (A × Option B) :=
  rows.flatMap (fun a => match joined a with
    | [] => [(a, none)]
    | bs => bs.map (fun b => (a, some b)))

def ChargeStatus.text : ChargeStatus → String
  | .settled => "settled"
  | .failed => "failed"
  | .reverted => "reverted"

/-- `>= $1 AND < $2` -/
def within (start stop t : ℤ) : Bool := decide (start ≤ t) && decide (t < stop)

/-- missing_charge, status_mismatch, amount_mismatch or tx_mismatch of `_AGENT_RUNS_SQL` -/
def runFlagged (u : UsageRow) : Option (ChargeHead × ChargeRow) → Bool
  | none => true
  | some (h, c) => c.status.text ≠ u.settlementStatus ||
      (c.status = .settled && u.settlementStatus = "settled" && c.settledAmountUsdc ≠ u.costUsdc) ||
      h.settlementTx ≠ u.settlementTx

/-- the usage events `_AGENT_RUNS_SQL` flags -/
def flaggedRuns (start stop : ℤ) (w : Till) : List String :=
  ((leftJoin (w.usage.filter (fun p => within start stop p.1.createdAt &&
        (p.2.settlementStatus = "settled" || p.2.settlementStatus = "failed" || p.2.settlementStatus = "reverted")))
      (fun p => w.charges.filter (fun c => c.1.usageEventId = p.1.id && c.1.source.isAgent))).filter
    (fun p => runFlagged p.1.2 p.2)).map (fun p => p.1.1.id)

/-- the charges of the same query's unmatched_charge -/
def unmatchedCharges (start stop : ℤ) (w : Till) : List String :=
  (w.charges.filter (fun c => c.1.source.isAgent && within start stop c.1.createdAt &&
    match w.db.usageEvents.get? c.1.usageEventId with
    | none => true
    | some u => u.settlementStatus = "none")).map (fun c => c.1.id)

/-- `starts_with(reason, 'run:')` and `substring(reason FROM 5)` -/
def debitedRun (r : LedgerRow) : Option String :=
  if r.operation = .debit ∧ "run:".toList <+: r.reason.toList then some (String.ofList (r.reason.toList.drop 4)) else none

/-- missing_charge, status_mismatch or amount_mismatch of `_RUN_DEBITS_SQL` -/
def debitFlagged (d : LedgerRow) : Option (ChargeHead × ChargeRow) → Bool
  | none => true
  | some (_, c) => c.status ≠ .settled || c.settledAmountUsdc ≠ d.amountUsdc

/-- the ledger rows `_RUN_DEBITS_SQL` flags, duplicate_debit included -/
def flaggedDebits (start stop : ℤ) (w : Till) : List String :=
  let debits := w.db.ledger.rows.filter (fun r => (debitedRun r).isSome && within start stop r.createdAt)
  ((leftJoin debits (fun d => w.charges.filter (fun c => some c.1.invocationId = debitedRun d &&
      c.1.billingMethod = .credit && c.1.orgId = d.orgId))).filter
    (fun p => debitFlagged p.1 p.2 ||
      decide (1 < (debits.filter (fun d => d.orgId = p.1.orgId && d.reason = p.1.reason)).length))).map (fun p => p.1.id)

/-- the charges of the same query's missing_debit -/
def missingDebits (start stop : ℤ) (w : Till) : List String :=
  (w.charges.filter (fun c => c.1.source.isAgent && c.1.billingMethod = .credit && c.2.status = .settled &&
    decide (0 < c.2.settledAmountUsdc) && within start stop c.1.updatedAt &&
    !w.db.ledger.rows.any (fun l => l.orgId = c.1.orgId && l.operation = .debit &&
      l.reason = "run:" ++ c.1.invocationId))).map (fun c => c.1.id)

structure Reconciliation where
  flaggedRuns : List String
  unmatchedCharges : List String
  flaggedDebits : List String
  missingDebits : List String

/-- `get_charge_reconciliation`, the rows its checks count; `MAX_WINDOW` is 31 days -/
def chargeReconciliation (start stop : ℤ) (w : Till) : Call Reconciliation :=
  if stop ≤ start then .error (.valueError "start must be before end")
  else if hours (31 * 24) < stop - start then .error (.valueError "reconciliation window must not exceed 31 days")
  else .ok ⟨flaggedRuns start stop w, unmatchedCharges start stop w, flaggedDebits start stop w, missingDebits start stop w⟩

end Teardrop.Billing
