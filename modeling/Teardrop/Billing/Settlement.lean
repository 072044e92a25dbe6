/-
The settlement retry queue of `billing/settlement.py`: enqueueing, the worker's claim, `_settle_claimed_credit` with the
author earnings of `marketplace/earnings.py`, the bookkeeping after a failed attempt, and the two ways an exhausted row
comes back. A worker claims rows by one statement and then works on the snapshots it got back. What Python does with the JSON
of the allocations (`json.loads`, `str` of a value that is not a string) is a parameter.
-/
import Teardrop.Billing.Credit

namespace Teardrop.Billing

open Teardrop.Py Tx

/-! ## Author earnings -/

/-- `json.loads`, and `str` of values that are not strings -/
structure Interp where
  loads : String → Call Json
  repr : Json → String

/-- one earnings allocation, read -/
structure Allocation where
  authorOrgId : String
  toolName : String
  callerOrgId : String
  totalCostUsdc : ℤ
deriving DecidableEq

/-- the dicts of a JSON array -/
def dictItems : Json → Call (List Json)
  | .arr items => .ok (items.filter Json.isDict)
  | _ => .error (.valueError "earnings_allocations must be a JSON array")

def decodeEarningsAllocations (py : Interp) : Json → Call (List Json)
  | .null => .ok []
  | .str s => do dictItems (← py.loads s)
  | j => dictItems j

/-- `allocation[key]` -/
def field (j : Json) (key : String) : Call Json :=
  match j.get? key with
  | some v => .ok v
  | none => .error .keyError

/-- the four reads of an allocation, in the order the worker makes them -/
def parseAllocation (py : Interp) (j : Json) : Call Allocation := do
  let author ← field j "author_org_id"
  let tool ← field j "tool_name"
  let caller ← field j "caller_org_id"
  let cost ← field j "total_cost_usdc"
  let total ← cost.toInt
  return ⟨author.toStr py.repr, tool.toStr py.repr, caller.toStr py.repr, total⟩

/-- `except (KeyError, TypeError, ValueError)` -/
def isMalformed : Exc → Bool
  | .keyError | .typeError | .valueError _ => true
  | _ => false

/-- the row an allocation earns its author -/
def earningRow (cfg : Settings) (id : String) (a : Allocation) : EarningRow :=
  let authorShare := a.totalCostUsdc * cfg.marketplaceDefaultRevenueShareBps / 10000
  ⟨id, a.authorOrgId, a.toolName, a.callerOrgId, a.totalCostUsdc, authorShare, a.totalCostUsdc - authorShare⟩

/-- `INSERT INTO tool_author_earnings` -/
def insertEarning (row : EarningRow) : Tx Db Unit := do
  Tx.require (isBigint row.amountUsdc ∧ isBigint row.authorShareUsdc ∧ isBigint row.platformShareUsdc)
    (.pg .numericOutOfRange)
  Tx.require (0 ≤ row.amountUsdc ∧ 0 ≤ row.authorShareUsdc ∧ 0 ≤ row.platformShareUsdc) (.pg .checkViolation)
  match ← Tx.read fun db => db.earnings.insert? row with
  | none => Tx.raise (.pg .uniqueViolation)
  | some earnings =>
    let known ← Tx.read fun db => (db.orgs.get? row.orgId).isSome
    Tx.require known (.pg .foreignKeyViolation)
    Tx.write fun db => { db with earnings := earnings }

/-- a self-call, or nothing to share: no earnings by design -/
def unpaid (a : Allocation) : Bool := a.authorOrgId = a.callerOrgId || a.totalCostUsdc ≤ 0

def insertToolCallEarnings (cfg : Settings) (id : String) (a : Allocation) : Tx Db Bool := do
  if unpaid a then return false
  else do
    insertEarning (earningRow cfg id a)
    return true

/-- the loop over the allocations: malformed ones are skipped, rejected ones undone in their savepoint -/
def payAllocations (cfg : Settings) (py : Interp) (uuid : ℕ → String) : ℕ → List Json → Tx Db Unit
  | _, [] => return ()
  | k, j :: rest => do
    match parseAllocation py j with
    | .error x => if isMalformed x then payAllocations cfg py uuid (k + 1) rest else Tx.raise x
    | .ok a => do
      let _ ← Tx.savepoint (fun x => x.isIntegrityError || x.isDataError) (insertToolCallEarnings cfg (uuid k) a)
      payAllocations cfg py uuid (k + 1) rest

/-! ## The queue -/

/-- an UPDATE of `pending_settlements`; only the retry columns are ever written -/
def updateSettlements (hit : SettlementRow → Bool) (status : SettlementStatus) (retryCount : SettlementRow → ℤ)
    (nextRetryAt : SettlementRow → ℤ) (lastError : SettlementRow → String) : Tx Db Unit :=
  Tx.write fun db => { db with
    settlements := db.settlements.update
      (fun r => if hit r then { r with status := status, retryCount := retryCount r, nextRetryAt := nextRetryAt r,
                                       lastError := lastError r } else r)
      (fun r => by by_cases h : hit r <;> simp [h]) }

/-- the row still carries the claim: retrying, under the same lease -/
def holdsLease (id : String) (lease : ℤ) (r : SettlementRow) : Bool :=
  r.id = id && r.status = .retrying && r.nextRetryAt = lease

/-- `enqueue_failed_settlement`; a failure to insert is only logged -/
def enqueueFailedSettlement (cfg : Settings) (e : Env) (usageEventId org runId : String) (method : Method) (amount : ℤ)
    (paymentPayload principal : Option String) (chargeId : String) (allocations : List Json) (db : Db) : Db :=
  if amount ≤ 0 then db
  else
    let insert : Tx Db Unit := do
      Tx.require (isBigint amount) (.pg .numericOutOfRange)
      match ← Tx.read fun db => db.settlements.insert? ⟨e.uuid 0, usageEventId, org, runId, method, amount,
          paymentPayload, principal, 0, cfg.settlementMaxRetries, e.now + 2000000, "", .pending, e.now, chargeId,
          .arr allocations⟩ with
      | none => Tx.raise (.pg .uniqueViolation)
      | some settlements => Tx.write fun db => { db with settlements := settlements }
    (call (e.fault 0) insert db).2

/-- the rows the worker's query claims: due, not locked by another transaction, the 20 longest overdue -/
def claimCandidates (now : ℤ) (locked : String → Bool) (db : Db) : List SettlementRow :=
  ((db.settlements.rows.filter (fun r => (r.status = .pending || r.status = .retrying) &&
    decide (r.nextRetryAt ≤ now) && !locked r.id)).mergeSort (fun a b => decide (a.nextRetryAt ≤ b.nextRetryAt))).take 20

/-- the claim: due rows become `retrying` under a lease of five minutes -/
def claimTx (now : ℤ) (locked : String → Bool) : Tx Db (List SettlementRow) := do
  let rows ← Tx.read (claimCandidates now locked)
  updateSettlements (fun r => decide (r.id ∈ rows.map SettlementRow.id)) .retrying SettlementRow.retryCount
    (fun _ => now + 300000000) SettlementRow.lastError
  return rows.map (fun r => { r with status := .retrying, nextRetryAt := now + 300000000 })

def markChargeSettled (chargeId : String) (settled : ℤ) : Tx Db Unit :=
  Tx.write fun db => { db with
    charges := db.charges.update
      (fun r => if r.id = chargeId ∧ r.status = .failed then
        { r with status := .settled, settledAmountUsdc := max 0 settled } else r)
      (fun r => by by_cases h : r.id = chargeId ∧ r.status = .failed <;> simp [h]) }

/-- the usage event of a settled charge -/
def markUsageSettled (usageEventId : String) (settled : ℤ) : Tx Db Unit :=
  Tx.write fun db => { db with
    usageEvents := db.usageEvents.update
      (fun r => if r.id = usageEventId ∧ r.settlementStatus ≠ "settled" then
        { r with costUsdc := settled, settlementTx := "", settlementStatus := "settled" } else r)
      (fun r => by by_cases h : r.id = usageEventId ∧ r.settlementStatus ≠ "settled" <;> simp [h]) }

/-- the allocations the worker goes through; an unreadable column is none -/
def readAllocations (py : Interp) (j : Json) : Call (List Json) :=
  match decodeEarningsAllocations py j with
  | .ok items => .ok items
  | .error (.valueError _) => .ok []
  | .error .typeError => .ok []
  | .error x => .error x

/-- the row still carries the claim a worker was given, and the lease runs on -/
def stillClaimed (now : ℤ) (row : SettlementRow) (db : Db) : Bool :=
  ((db.settlements.get? row.id).map (fun r => holdsLease row.id row.nextRetryAt r && decide (now < r.nextRetryAt))).getD
    false

/-- what follows the debit of a claimed row: its authors, its status, its usage event and its charge -/
def completeSettlement (cfg : Settings) (py : Interp) (uuid : ℕ → String) (row : SettlementRow) (retryCount settled : ℤ) :
    Tx Db Unit := do
  let items ← Tx.lift (readAllocations py row.earningsAllocations)
  payAllocations cfg py uuid 1 items
  updateSettlements (holdsLease row.id row.nextRetryAt) .settled (fun _ => retryCount) SettlementRow.nextRetryAt
    (fun _ => "")
  markUsageSettled row.usageEventId settled
  if row.chargeId ≠ "" then markChargeSettled row.chargeId settled

/-- `_settle_claimed_credit`, on the snapshot the claim returned -/
def settleTx (cfg : Settings) (py : Interp) (now : ℤ) (uuid : ℕ → String) (row : SettlementRow) (retryCount : ℤ) :
    Tx Db (Bool × ℤ) := do
  let claimed ← Tx.read (stillClaimed now row)
  Tx.require claimed (.settlementClaimLost ("Settlement retry claim lost for id=" ++ row.id))
  let (success, settled, _) ←
    debitCreditLocked cfg now (uuid 0) row.orgId row.amountUsdc ("run:" ++ row.runId) row.principalId
  if ¬ success then return (false, 0)
  else do
    completeSettlement cfg py uuid row retryCount settled
    return (true, settled)

/-- the statement after a failed attempt: exhausted, or another try later; only under the worker's own lease -/
def failureTx (now : ℤ) (row : SettlementRow) (retryCount : ℤ) (error : String) : Tx Db Unit :=
  if row.maxRetries ≤ retryCount then
    updateSettlements (holdsLease row.id row.nextRetryAt) .exhausted (fun _ => retryCount) SettlementRow.nextRetryAt
      (fun _ => error)
  else
    updateSettlements (holdsLease row.id row.nextRetryAt) .retrying (fun _ => retryCount)
      (fun _ => now + min (2 ^ retryCount.toNat) 300 * 1000000) (fun _ => error)

/-- `reset_exhausted_settlement`: its SELECT and its UPDATE as one, since the UPDATE repeats the condition -/
def resetExhaustedSettlement (e : Env) (id : String) (db : Db) : Option Bool × Db :=
  match (db.settlements.get? id).filter (fun r => r.status = .exhausted) with
  | none => (some false, db)
  | some r =>
    if r.billingMethod = .x402 then (none, db)
    else
      let stmt := updateSettlements (fun r => r.id = id && r.status = .exhausted) .pending (fun _ => 0)
        (fun _ => e.now) SettlementRow.lastError
      (some true, (call (e.fault 0) stmt db).2)

/-- an org's exhausted credit rows of the last seven days, oldest first, with the running total of their amounts -/
def rearmCandidates (now : ℤ) (org : String) (db : Db) : List (SettlementRow × ℤ) :=
  let rows := (db.settlements.rows.filter (fun r => r.orgId = org && r.status = .exhausted &&
    r.billingMethod = .credit && decide (now - hours 168 ≤ r.createdAt))).mergeSort
      (fun a b => decide (a.createdAt < b.createdAt ∨ (a.createdAt = b.createdAt ∧ a.id ≤ b.id)))
  rows.zip ((rows.map SettlementRow.amountUsdc).scanl (· + ·) 0).tail

/-- the rows whose running total stays within the cap -/
def rearmIds (now : ℤ) (org : String) (cap : ℤ) (db : Db) : List String :=
  ((rearmCandidates now org db).filter (fun p => p.2 ≤ cap)).map (fun p => p.1.id)

/-- the UPDATE of `rearm_exhausted_credit_settlements` -/
def rearmStatement (now : ℤ) (ids : List String) : Tx Db Unit :=
  updateSettlements (fun r => decide (r.id ∈ ids) && r.status = .exhausted) .pending (fun _ => 0) (fun _ => now)
    SettlementRow.lastError

def rearmExhaustedCreditSettlements (e : Env) (org : String) (cap : ℤ) (db : Db) : ℕ × Db :=
  if org = "" ∨ cap ≤ 0 then (0, db)
  else match call (e.fault 0) (rearmStatement e.now (rearmIds e.now org cap db)) db with
    | (.ok _, db') => ((rearmIds e.now org cap db).length, db')
    | (.error _, db') => (0, db')

/-! ## What the statements do -/

/-- the constraints of `tool_author_earnings` accept the row, with these orgs and these ids taken -/
def accepts (orgs : Table OrgRow.id) (taken : List String) (row : EarningRow) : Bool :=
  decide ((isBigint row.amountUsdc ∧ isBigint row.authorShareUsdc ∧ isBigint row.platformShareUsdc) ∧
    (0 ≤ row.amountUsdc ∧ 0 ≤ row.authorShareUsdc ∧ 0 ≤ row.platformShareUsdc) ∧ row.id ∉ taken) &&
    (orgs.get? row.orgId).isSome

/-- the rows a list of allocations earns: one for each allocation that reads, is to be paid and is accepted, in order -/
def acceptedEarnings (cfg : Settings) (py : Interp) (uuid : ℕ → String) (orgs : Table OrgRow.id) :
    List String → ℕ → List Json → List EarningRow
  | _, _, [] => []
  | taken, k, j :: rest =>
    match parseAllocation py j with
    | .error _ => acceptedEarnings cfg py uuid orgs taken (k + 1) rest
    | .ok a =>
      if ¬ unpaid a ∧ accepts orgs taken (earningRow cfg (uuid k) a) then
        earningRow cfg (uuid k) a :: acceptedEarnings cfg py uuid orgs (taken ++ [uuid k]) (k + 1) rest
      else acceptedEarnings cfg py uuid orgs taken (k + 1) rest

def takenIds (db : Db) : List String := db.earnings.rows.map EarningRow.id

/-- the insert appends the row when the constraints accept it, else it raises what the savepoint handles -/
theorem insertEarning_cases (row : EarningRow) (db : Db) :
    (accepts db.orgs (takenIds db) row ∧ ∃ t, db.earnings.insert? row = some t ∧
      insertEarning row db = .ok ((), { db with earnings := t })) ∨
    (accepts db.orgs (takenIds db) row = false ∧ ∃ x, insertEarning row db = .error x ∧
      (x.isIntegrityError || x.isDataError)) := by
  by_cases hbig : isBigint row.amountUsdc ∧ isBigint row.authorShareUsdc ∧ isBigint row.platformShareUsdc
  · by_cases hcheck : 0 ≤ row.amountUsdc ∧ 0 ≤ row.authorShareUsdc ∧ 0 ≤ row.platformShareUsdc
    · by_cases htaken : row.id ∈ takenIds db
      · refine Or.inr ⟨by simp [accepts, htaken], .pg .uniqueViolation, ?_, rfl⟩
        have hins : db.earnings.insert? row = none := dif_pos htaken
        simp [insertEarning, Tx.require, hbig, hcheck, Tx.read, hins, Tx.raise, bind, StateT.bind, Except.bind]
      · obtain ⟨t, hins⟩ : ∃ t, db.earnings.insert? row = some t := ⟨_, dif_neg htaken⟩
        by_cases hfk : (db.orgs.get? row.orgId).isSome
        · refine Or.inl ⟨by simp [accepts, htaken, hbig, hcheck, hfk], t, hins, ?_⟩
          simp [insertEarning, Tx.require, hbig, hcheck, Tx.read, hins, hfk, Tx.write, bind, StateT.bind, Except.bind]
        · refine Or.inr ⟨by simp [accepts, hfk], .pg .foreignKeyViolation, ?_, rfl⟩
          simp [insertEarning, Tx.require, hbig, hcheck, Tx.read, hins, hfk, bind, StateT.bind, Except.bind]
    · refine Or.inr ⟨by simp [accepts, hcheck], .pg .checkViolation, ?_, rfl⟩
      simp [insertEarning, Tx.require, hbig, hcheck, bind, StateT.bind, Except.bind]
  · refine Or.inr ⟨by simp [accepts, hbig], .pg .numericOutOfRange, ?_, rfl⟩
    simp [insertEarning, Tx.require, hbig, bind, StateT.bind, Except.bind]

variable {cfg : Settings} {db db' : Db} {uuid : ℕ → String} {row : SettlementRow} {retryCount : ℤ}

/-- one allocation in its savepoint: its row if it is to be paid and accepted, else nothing -/
theorem savepoint_earning {id : String} {a : Allocation} {o : Option Bool}
    (h : savepoint (fun x => x.isIntegrityError || x.isDataError) (insertToolCallEarnings cfg id a) db = .ok (o, db')) :
    db' = { db with earnings := db'.earnings } ∧
      db'.earnings.rows = db.earnings.rows ++
        (if ¬ unpaid a ∧ accepts db.orgs (takenIds db) (earningRow cfg id a) then [earningRow cfg id a] else []) := by
  by_cases hun : unpaid a
  · have hbody : insertToolCallEarnings cfg id a db = .ok (false, db) := by
      simp [insertToolCallEarnings, hun, pure, StateT.pure, Except.pure]
    rw [savepoint, hbody] at h
    cases h
    simp [hun]
  · have hbody : insertToolCallEarnings cfg id a db = (insertEarning (earningRow cfg id a) >>= fun _ => pure true) db := by
      simp [insertToolCallEarnings, hun]
    rcases insertEarning_cases (earningRow cfg id a) db with ⟨hacc, t, hins, hok⟩ | ⟨hacc, x, herr, hx⟩
    · have hres : insertToolCallEarnings cfg id a db = .ok (true, { db with earnings := t }) := by
        rw [hbody]
        simp [bind, StateT.bind, hok, Except.bind, pure, StateT.pure, Except.pure]
      rw [savepoint, hres] at h
      cases h
      simp [hun, hacc, (Table.insert?_eq_some hins).2]
    · have hres : insertToolCallEarnings cfg id a db = .error x := by
        rw [hbody]
        simp [bind, StateT.bind, herr, Except.bind]
      rw [savepoint, hres] at h
      simp only [hx, if_true] at h
      cases h
      simp [hacc]

variable {py : Interp} {hit : SettlementRow → Bool} {status : SettlementStatus} {nextRetryAt : SettlementRow → ℤ}
  {lastError : SettlementRow → String} {u : Unit} {now : ℤ} {locked : String → Bool}

/-- **The loop pays every accepted allocation once, in order, and writes nothing else.** -/
theorem payAllocations_ok (items : List Json) :
    ∀ {k : ℕ} {db db' : Db} {u : Unit}, payAllocations cfg py uuid k items db = .ok (u, db') →
      db' = { db with earnings := db'.earnings } ∧
        db'.earnings.rows = db.earnings.rows ++ acceptedEarnings cfg py uuid db.orgs (takenIds db) k items := by
  induction items with
  | nil =>
    intro k db db' u h
    cases pure_ok h
    exact ⟨rfl, by simp [acceptedEarnings]⟩
  | cons j items ih =>
    intro k db db' u h
    unfold payAllocations at h
    cases hp : parseAllocation py j with
    | error x =>
      simp only [hp] at h
      split_ifs at h
      · have h := ih h
        rw [acceptedEarnings, hp]
        exact h
      · cases h
    | ok a =>
      simp only [hp] at h
      obtain ⟨o, db₁, hsave, h⟩ := bind_ok h
      obtain ⟨hrest, hrows⟩ := savepoint_earning hsave
      obtain ⟨hrest', hrows'⟩ := ih h
      have horgs : db₁.orgs = db.orgs := by rw [hrest]
      refine ⟨by rw [hrest', hrest], ?_⟩
      rw [acceptedEarnings, hp, hrows', horgs]
      simp only
      by_cases hacc : ¬ unpaid a ∧ accepts db.orgs (takenIds db) (earningRow cfg (uuid k) a)
      · rw [if_pos hacc] at hrows ⊢
        have htaken : takenIds db₁ = takenIds db ++ [uuid k] := by
          unfold takenIds
          rw [hrows, List.map_append]
          rfl
        rw [htaken, hrows, List.append_assoc, List.singleton_append]
      · rw [if_neg hacc, List.append_nil] at hrows
        have htaken : takenIds db₁ = takenIds db := by
          unfold takenIds
          rw [hrows]
        rw [if_neg hacc, htaken, hrows]

theorem updateSettlements_ok {retryCount : SettlementRow → ℤ}
    (h : updateSettlements hit status retryCount nextRetryAt lastError db = .ok (u, db')) :
    db' = { db with settlements := db'.settlements } ∧ ∀ x, db'.settlements.get? x = (db.settlements.get? x).map
      (fun r => if hit r then { r with status := status, retryCount := retryCount r, nextRetryAt := nextRetryAt r,
                                       lastError := lastError r } else r) := by
  cases h
  refine ⟨rfl, fun x => ?_⟩
  simp

/-- the same charge: equal in every column but the retry ones -/
def SameCharge (r r' : SettlementRow) : Prop :=
  r' = { r with status := r'.status, retryCount := r'.retryCount, nextRetryAt := r'.nextRetryAt,
                lastError := r'.lastError }

/-- a settled claim: the debit, the earnings and the row's status, together -/
structure SettledBy (cfg : Settings) (py : Interp) (now : ℤ) (uuid : ℕ → String) (row : SettlementRow) (db db' : Db) :
    Prop where
  claim : ∃ r, db.settlements.get? row.id = some r ∧ r.status = .retrying ∧
    ∃ r', db'.settlements.get? row.id = some r' ∧ r'.status = .settled ∧ SameCharge r r'
  others : ∀ x, x ≠ row.id → db'.settlements.get? x = db.settlements.get? x
  debit : Moved db db' (debitRow now (uuid 0) row.orgId row.amountUsdc (balance db row.orgId - row.amountUsdc)
    ("run:" ++ row.runId) row.principalId)
  allowed : DebitAllowed cfg now row.orgId row.amountUsdc row.principalId db
  earnings : ∃ items, readAllocations py row.earningsAllocations = .ok items ∧
    db'.earnings.rows = db.earnings.rows ++ acceptedEarnings cfg py uuid db.orgs (takenIds db) 1 items
  outbox : db'.outbox = db.outbox
  orgs : db'.orgs = db.orgs
  limits : db'.principalLimits = db.principalLimits

theorem completeSettlement_ok {settled : ℤ} (h : completeSettlement cfg py uuid row retryCount settled db = .ok (u, db')) :
    db' = { db with earnings := db'.earnings, settlements := db'.settlements, usageEvents := db'.usageEvents,
                    charges := db'.charges } ∧
    (∃ items, readAllocations py row.earningsAllocations = .ok items ∧
      db'.earnings.rows = db.earnings.rows ++ acceptedEarnings cfg py uuid db.orgs (takenIds db) 1 items) ∧
    ∀ x, db'.settlements.get? x = (db.settlements.get? x).map (fun r =>
      if holdsLease row.id row.nextRetryAt r then { r with status := .settled, retryCount := retryCount, lastError := "" }
      else r) := by
  obtain ⟨items, hitems, h⟩ := lift_bind_ok h
  obtain ⟨_, db₂, hpay, h⟩ := bind_ok h
  obtain ⟨_, db₃, hup, h⟩ := bind_ok h
  obtain ⟨hrest₂, hearn⟩ := payAllocations_ok items hpay
  obtain ⟨hrest₃, hget⟩ := updateSettlements_ok hup
  have hlast : db' = { db₃ with usageEvents := db'.usageEvents, charges := db'.charges } := by
    split_ifs at h
    · cases h; rfl
    · cases pure_ok h; rfl
  have hsett : db₂.settlements = db.settlements := by rw [hrest₂]
  refine ⟨by rw [hlast, hrest₃, hrest₂], ⟨items, hitems, by rw [hlast, hrest₃]; exact hearn⟩, fun x => ?_⟩
  rw [hlast, ← hsett]
  exact hget x

/-- **`_settle_claimed_credit` ties the three writes together.** It reports success exactly when the row carried its
lease and was debited, its authors paid and the row settled; when it reports a refusal it wrote nothing. -/
theorem settleTx_ok {r : Bool × ℤ} (h : settleTx cfg py now uuid row retryCount db = .ok (r, db')) :
    (r.1 = false ∧ db' = db) ∨ (r.1 ∧ SettledBy cfg py now uuid row db db') := by
  have h := read_bind_ok h
  obtain ⟨hclaim, h⟩ := require_bind_ok h
  obtain ⟨⟨s, a, l⟩, db₁, hd, h⟩ := bind_ok h
  rcases debitCreditLocked_ok hd with hr | ⟨hr, hallowed, hp⟩
  · cases hr
    cases pure_ok h
    exact Or.inl ⟨rfl, rfl⟩
  · cases hr
    obtain ⟨_, db₂, hdone, h⟩ := bind_ok h
    cases pure_ok h
    obtain ⟨hrest, ⟨items, hitems, hearn⟩, hget⟩ := completeSettlement_ok hdone
    rw [hp.settlements] at hget
    cases hrow : db.settlements.get? row.id with
    | none => rw [stillClaimed, hrow] at hclaim; cases hclaim
    | some r₀ =>
      rw [stillClaimed, hrow] at hclaim
      have hlease : holdsLease row.id row.nextRetryAt r₀ ∧ now < r₀.nextRetryAt := by
        simpa using hclaim
      have hretry : r₀.status = .retrying := by
        have := hlease.1
        simp only [holdsLease, Bool.and_eq_true, decide_eq_true_eq] at this
        exact this.1.2
      have hself : db'.settlements.get? row.id = some { r₀ with status := .settled, retryCount := retryCount,
                                                                lastError := "" } := by
        rw [hget, hrow, Option.map_some, if_pos hlease.1]
      refine Or.inr ⟨rfl, ⟨r₀, hrow, hretry, _, hself, rfl, rfl⟩, fun x hx => ?_, ?_, hallowed, ⟨items, hitems, ?_⟩,
        ?_, ?_, ?_⟩
      · rw [hget]
        cases hx' : db.settlements.get? x with
        | none => rfl
        | some r₁ =>
          have hid := Table.key_of_get? hx'
          have hmiss : holdsLease row.id row.nextRetryAt r₁ = false := by simp [holdsLease, hid, hx]
          simp [hmiss]
      · refine hp.toMoved.congr rfl rfl ?_ ?_
        · rw [hrest]
        · rw [hrest]
      · have h₂ : takenIds db₁ = takenIds db := by unfold takenIds; rw [hp.earnings]
        rw [hearn, hp.orgs, hp.earnings, h₂]
      · rw [hrest]
        exact hp.outbox
      · rw [hrest]
        exact hp.orgs
      · rw [hrest]
        exact hp.limits

/-- what the queue's own statements do to the rows: charges stay what they are, and no row becomes or stops being
settled; a new charge is unsettled and positive; no org is changed and no spend limit added -/
structure QueueStep (db db' : Db) : Prop where
  unmoved : Unmoved db db'
  outbox : db'.outbox = db.outbox
  earnings : db'.earnings = db.earnings
  kept : ∀ x r, db.settlements.get? x = some r → ∃ r', db'.settlements.get? x = some r' ∧ SameCharge r r' ∧
    (r'.status = .settled ↔ r.status = .settled)
  fresh : ∀ x r', db'.settlements.get? x = some r' → db.settlements.get? x = none → r'.status ≠ .settled ∧ 0 < r'.amountUsdc
  orgs : ∀ x o, db.orgs.get? x = some o → db'.orgs.get? x = some o
  limits : ∀ k, db.principalLimits.get? k = none → db'.principalLimits.get? k = none

theorem SameCharge.refl (r : SettlementRow) : SameCharge r r := rfl

theorem QueueStep.refl (db : Db) : QueueStep db db :=
  ⟨Unmoved.refl db, rfl, rfl, fun _ r hr => ⟨r, hr, rfl, Iff.rfl⟩,
    (fun x r' hr' hnone => by rw [hnone] at hr'; cases hr'), fun _ _ h => h, fun _ h => h⟩

theorem QueueStep.of_aside (hmoney : Unmoved db db') (ho : db'.outbox = db.outbox) (he : db'.earnings = db.earnings)
    (hs : db'.settlements = db.settlements) (horgs : ∀ x o, db.orgs.get? x = some o → db'.orgs.get? x = some o)
    (hlimits : ∀ k, db.principalLimits.get? k = none → db'.principalLimits.get? k = none) : QueueStep db db' :=
  ⟨hmoney, ho, he, fun x r hr => ⟨r, by rw [hs]; exact hr, rfl, Iff.rfl⟩,
    (fun x r' hr' hnone => by rw [hs, hnone] at hr'; cases hr'), horgs, hlimits⟩

theorem updateSettlements_queue {retryCount : SettlementRow → ℤ}
    (hspare : ∀ r ∈ db.settlements.rows, hit r → r.status ≠ .settled) (hstatus : status ≠ .settled)
    (h : updateSettlements hit status retryCount nextRetryAt lastError db = .ok (u, db')) : QueueStep db db' := by
  obtain ⟨hframe, hget⟩ := updateSettlements_ok h
  refine ⟨Unmoved.of_eq (by rw [hframe]) (by rw [hframe]), by rw [hframe], by rw [hframe], fun x r hr => ?_,
    fun x r' hr' hnone => ?_, fun x o ho => by rw [hframe]; exact ho, fun k hk => by rw [hframe]; exact hk⟩
  · rw [hget, hr]
    by_cases hh : hit r
    · rw [Option.map_some, if_pos hh]
      exact ⟨_, rfl, rfl, fun hs => absurd hs hstatus, fun hs => absurd hs (hspare r (Table.mem_of_get? hr) hh)⟩
    · rw [Option.map_some, if_neg hh]
      exact ⟨r, rfl, rfl, Iff.rfl⟩
  · rw [hget, hnone] at hr'
    cases hr'

theorem call_queue {α : Type} (fault : Bool) {t : Tx Db α} (h : ∀ a db', t db = .ok (a, db') → QueueStep db db') :
    QueueStep db (call fault t db).2 := by
  rcases call_cases fault t db with ⟨x, hc⟩ | ⟨a, db', ht, hc⟩
  · rw [hc]; exact QueueStep.refl db
  · rw [hc]; exact h a db' ht

theorem enqueue_queue (cfg : Settings) (e : Env) (usageEventId org runId : String) (method : Method) (amount : ℤ)
    (paymentPayload principal : Option String) (chargeId : String) (allocations : List Json) (db : Db) :
    QueueStep db (enqueueFailedSettlement cfg e usageEventId org runId method amount paymentPayload principal chargeId
      allocations db) := by
  unfold enqueueFailedSettlement
  split_ifs with hamount
  · exact QueueStep.refl db
  · refine call_queue (e.fault 0) (fun a db' h => ?_)
    obtain ⟨-, h⟩ := require_bind_ok h
    have h := read_bind_ok h
    generalize hrow : SettlementRow.mk _ _ _ _ _ _ _ _ _ _ _ _ _ _ _ _ = row at h
    have hnew : row.status = .pending ∧ 0 < row.amountUsdc := by
      rw [← hrow]
      exact ⟨rfl, Int.not_le.1 hamount⟩
    cases hins : db.settlements.insert? row with
    | none => simp only [hins] at h; cases h
    | some t =>
      simp only [hins] at h
      cases h
      have hfresh := (Table.insert?_eq_some hins).1
      refine ⟨Unmoved.of_eq rfl rfl, rfl, rfl, fun x r hr => ⟨r, ?_, rfl, Iff.rfl⟩, fun x r' hr' hnone => ?_,
        fun _ _ ho => ho, fun _ hk => hk⟩
      · have hx : row.id ≠ x := fun hx => by rw [hx, hr] at hfresh; cases hfresh
        rw [Table.get?_insert hins, if_neg hx]
        exact hr
      · rw [Table.get?_insert hins] at hr'
        split_ifs at hr'
        · cases hr'
          exact ⟨by rw [hnew.1]; decide, hnew.2⟩
        · rw [hnone] at hr'; cases hr'

theorem holdsLease_not_settled {id : String} {lease : ℤ} {r : SettlementRow} (h : holdsLease id lease r) :
    r.status ≠ .settled := by
  simp only [holdsLease, Bool.and_eq_true, decide_eq_true_eq] at h
  simp [h.1.2]

theorem failureTx_queue {error : String} (h : failureTx now row retryCount error db = .ok (u, db')) : QueueStep db db' := by
  unfold failureTx at h
  split_ifs at h <;> exact updateSettlements_queue (fun r _ hr => holdsLease_not_settled hr) (by decide) h

theorem reset_queue (e : Env) (id : String) (db : Db) : QueueStep db (resetExhaustedSettlement e id db).2 := by
  unfold resetExhaustedSettlement
  split
  · exact QueueStep.refl db
  · split_ifs
    · exact QueueStep.refl db
    · refine call_queue (e.fault 0) (fun a db' h => updateSettlements_queue (fun r _ hr => ?_) (by decide) h)
      simp only [Bool.and_eq_true, decide_eq_true_eq] at hr
      simp [hr.2]

theorem rearm_queue (e : Env) (org : String) (cap : ℤ) (db : Db) :
    QueueStep db (rearmExhaustedCreditSettlements e org cap db).2 := by
  unfold rearmExhaustedCreditSettlements
  split_ifs
  · exact QueueStep.refl db
  · have hcall : QueueStep db (call (e.fault 0) (rearmStatement e.now (rearmIds e.now org cap db)) db).2 :=
      call_queue (e.fault 0) (fun a db' h => updateSettlements_queue (fun r _ hr => by
          simp only [Bool.and_eq_true, decide_eq_true_eq] at hr
          simp [hr.2]) (by decide) h)
    split
    · next heq => rw [heq] at hcall; exact hcall
    · next heq => rw [heq] at hcall; exact hcall

theorem mem_claimCandidates {r : SettlementRow} (h : r ∈ claimCandidates now locked db) :
    r ∈ db.settlements.rows ∧ (r.status = .pending ∨ r.status = .retrying) := by
  have h := List.mem_mergeSort.1 (List.mem_of_mem_take h)
  obtain ⟨hmem, hdue⟩ := List.mem_filter.1 h
  simp only [Bool.and_eq_true, Bool.or_eq_true, decide_eq_true_eq] at hdue
  exact ⟨hmem, hdue.1.1⟩

theorem claimTx_ok {rows : List SettlementRow} (h : claimTx now locked db = .ok (rows, db')) :
    QueueStep db db' ∧ ∀ row ∈ rows, ∃ r, db'.settlements.get? row.id = some r ∧ SameCharge r row := by
  have h := read_bind_ok h
  obtain ⟨u, db₁, hup, h⟩ := bind_ok h
  cases pure_ok h
  have hq := updateSettlements_queue (fun r hr hhit => by
    simp only [decide_eq_true_eq] at hhit
    obtain ⟨c, hc, hid⟩ := List.mem_map.1 hhit
    obtain ⟨hmem, hstatus⟩ := mem_claimCandidates hc
    have hsame : c = r := List.inj_on_of_nodup_map db.settlements.nodup hmem hr hid
    rw [← hsame]
    rcases hstatus with hs | hs <;> simp [hs]) (by decide) hup
  refine ⟨hq, fun row hrow => ?_⟩
  obtain ⟨c, hc, rfl⟩ := List.mem_map.1 hrow
  obtain ⟨hmem, -⟩ := mem_claimCandidates hc
  obtain ⟨r', hr', hsame, -⟩ := hq.kept c.id c (Table.get?_of_mem hmem)
  refine ⟨r', hr', ?_⟩
  unfold SameCharge at hsame ⊢
  rw [hsame]

end Teardrop.Billing
