/-
The tables the billing subsystem reads and writes, with the constraints of the migrations.

A table carries its primary key (`Core.Table`), the credit ledger all of its constraints (`Ledger`). A statement that would break
one raises, in the order PostgreSQL checks: numeric range, CHECK, unique index, foreign key. Amounts are integers with the
BIGINT range checked where a statement writes them; timestamps are microseconds. `Env` is what a call takes from its
surroundings: `NOW()`, the uuids it draws, and which of its database calls fail outright.
-/
import Teardrop.Core.Table
import Teardrop.Core.Tx
import Teardrop.Core.Json

namespace Teardrop.Billing

open Teardrop.Py

/-! ## Rows -/

structure OrgRow where
  id : String
  acquisitionSource : String
deriving DecidableEq

structure CreditRow where
  orgId : String
  balanceUsdc : ℤ
  spendingLimitUsdc : ℤ
  isPaused : Bool
deriving DecidableEq

structure PrincipalLimitRow where
  orgId : String
  principalId : String
  dailyLimitUsdc : ℤ
  isPaused : Bool
deriving DecidableEq

inductive Operation where
  | debit
  | topup
deriving DecidableEq

structure LedgerRow where
  id : String
  orgId : String
  operation : Operation
  amountUsdc : ℤ
  balanceUsdcAfter : ℤ
  reason : String
  principalId : Option String
  externalRef : Option String
  reversesLedgerId : Option String
  createdAt : ℤ
deriving DecidableEq

inductive RefundStatus where
  | pending
  | refundRequested
  | refunded
  | cancelled
deriving DecidableEq

inductive DeliveryStatus where
  | notAttempted
  | possiblyDelivered
  | confirmed
  | failed
deriving DecidableEq

/-- `a2a_delegation_refund_outbox` -/
structure OutboxRow where
  id : String
  orgId : String
  runId : String
  amountUsdc : ℤ
  debitLedgerId : Option String
  status : RefundStatus
  deliveryStatus : DeliveryStatus
  createdAt : ℤ
  resolvedAt : Option ℤ
  deliveryStartedAt : Option ℤ
  deliveryResolvedAt : Option ℤ
  deliverySettlementTx : String
  deliveryError : String
deriving DecidableEq

/-- the columns of `a2a_delegation_events` that billing reads back -/
structure EventRow where
  id : String
  orgId : String
  taskStatus : String
  costUsdc : ℤ

inductive Method where
  | x402
  | credit
deriving DecidableEq

inductive SettlementStatus where
  | pending
  | retrying
  | settled
  | exhausted
deriving DecidableEq

/-- `pending_settlements` -/
structure SettlementRow where
  id : String
  usageEventId : String
  orgId : String
  runId : String
  billingMethod : Method
  amountUsdc : ℤ
  paymentPayload : Option String
  principalId : Option String
  retryCount : ℤ
  maxRetries : ℤ
  nextRetryAt : ℤ
  lastError : String
  status : SettlementStatus
  createdAt : ℤ
  chargeId : String
  earningsAllocations : Json

/-- `tool_author_earnings`, less its withdrawal columns -/
structure EarningRow where
  id : String
  orgId : String
  toolName : String
  callerOrgId : String
  amountUsdc : ℤ
  authorShareUsdc : ℤ
  platformShareUsdc : ℤ
deriving DecidableEq

structure GrantRow where
  orgId : String
  amountUsdc : ℤ
  ledgerEntryId : String

/-- `org_client_credentials` -/
structure CredentialRow where
  clientId : String
  orgId : String
  hashedSecret : String
  salt : String
  createdAt : ℤ
  scope : String
  disabledAt : Option ℤ

/-- `org_provisioning_events`, settlement rows -/
structure ProvisioningRow where
  id : String
  orgId : String
  method : String
  payerAddress : String
  chainId : ℤ
  settlementTx : String
  paymentRef : String
  amountUsdc : ℤ
  eventType : String
  settlementStatus : String

/-- `stripe_webhook_events` and `usdc_topup_events`: an idempotency key, the org and the amount -/
structure TopupGuardRow where
  key : String
  orgId : String
  amountUsdc : ℤ

/-- the columns of `usage_events` that settlement writes -/
structure UsageRow where
  id : String
  costUsdc : ℤ
  settlementTx : String
  settlementStatus : String
deriving DecidableEq

inductive ChargeStatus where
  | settled
  | failed
  | reverted
deriving DecidableEq

/-- the columns of `billing_charges` that settlement writes -/
structure ChargeRow where
  id : String
  settledAmountUsdc : ℤ
  status : ChargeStatus
deriving DecidableEq

/-! ## The credit ledger -/

/-- `org_credit_ledger` with its constraints -/
structure Ledger where
  rows : List LedgerRow
  ids : (rows.map LedgerRow.id).Nodup
  refs : (rows.filterMap LedgerRow.externalRef).Nodup
  reversals : (rows.filterMap LedgerRow.reversesLedgerId).Nodup
  positive : ∀ r ∈ rows, 0 < r.amountUsdc
  nonneg : ∀ r ∈ rows, 0 ≤ r.balanceUsdcAfter
  reversed : ∀ r ∈ rows, ∀ x, r.reversesLedgerId = some x → x ∈ rows.map LedgerRow.id

def Ledger.empty : Ledger where
  rows := []
  ids := List.nodup_nil
  refs := List.nodup_nil
  reversals := List.nodup_nil
  positive := by simp
  nonneg := by simp
  reversed := by simp

/-- an optional unique key is not yet taken -/
def Unused (key : Option String) (taken : List String) : Prop := ∀ x, key = some x → x ∉ taken

instance (key : Option String) (taken : List String) : Decidable (Unused key taken) :=
  match key with
  | none => .isTrue (by intro x h; cases h)
  | some x => decidable_of_iff (x ∉ taken) (by simp [Unused])

theorem nodup_filterMap_snoc {rows : List LedgerRow} {f : LedgerRow → Option String} {r : LedgerRow}
    (h : (rows.filterMap f).Nodup) (hr : Unused (f r) (rows.filterMap f)) : ((rows ++ [r]).filterMap f).Nodup := by
  rw [List.filterMap_append]
  cases hf : f r with
  | none => simpa [hf] using h
  | some x =>
    have hx := hr x hf
    simp only [List.filterMap_cons, hf, List.filterMap_nil]
    refine List.Nodup.append h (List.nodup_singleton _) ?_
    intro y hy hy'
    rw [List.mem_singleton] at hy'
    exact hx (hy' ▸ hy)

/-- `INSERT INTO org_credit_ledger` -/
def Ledger.insert (l : Ledger) (r : LedgerRow) : Call Ledger :=
  if hcheck : 0 < r.amountUsdc ∧ 0 ≤ r.balanceUsdcAfter then
    if huniq : r.id ∉ l.rows.map LedgerRow.id ∧ Unused r.externalRef (l.rows.filterMap LedgerRow.externalRef) ∧
        Unused r.reversesLedgerId (l.rows.filterMap LedgerRow.reversesLedgerId) then
      if hfk : ∀ x, r.reversesLedgerId = some x → x ∈ (l.rows ++ [r]).map LedgerRow.id then
        .ok
          { rows := l.rows ++ [r]
            ids := by
              rw [List.map_append]
              refine List.Nodup.append l.ids (List.nodup_singleton _) ?_
              intro x hx hx'
              rw [List.map_singleton, List.mem_singleton] at hx'
              exact huniq.1 (hx' ▸ hx)
            refs := nodup_filterMap_snoc l.refs huniq.2.1
            reversals := nodup_filterMap_snoc l.reversals huniq.2.2
            positive := by
              intro x hx
              rcases List.mem_append.1 hx with hx | hx
              · exact l.positive x hx
              · rw [List.mem_singleton.1 hx]; exact hcheck.1
            nonneg := by
              intro x hx
              rcases List.mem_append.1 hx with hx | hx
              · exact l.nonneg x hx
              · rw [List.mem_singleton.1 hx]; exact hcheck.2
            reversed := by
              intro x hx y hy
              rcases List.mem_append.1 hx with hx | hx
              · rw [List.map_append]
                exact List.mem_append_left _ (l.reversed x hx y hy)
              · rw [List.mem_singleton.1 hx] at hy
                exact hfk y hy }
      else .error (.pg .foreignKeyViolation)
    else .error (.pg .uniqueViolation)
  else .error (.pg .checkViolation)

theorem Ledger.insert_ok {l l' : Ledger} {r : LedgerRow} (h : l.insert r = .ok l') :
    l'.rows = l.rows ++ [r] ∧ 0 < r.amountUsdc ∧ 0 ≤ r.balanceUsdcAfter ∧ r.id ∉ l.rows.map LedgerRow.id ∧
      Unused r.reversesLedgerId (l.rows.filterMap LedgerRow.reversesLedgerId) := by
  unfold Ledger.insert at h
  split_ifs at h with hcheck huniq hfk
  cases h
  exact ⟨rfl, hcheck.1, hcheck.2, huniq.1, huniq.2.2⟩

/-! ## The store -/

structure Db where
  orgs : Table OrgRow.id
  credits : Table CreditRow.orgId
  principalLimits : Table (fun r : PrincipalLimitRow => (r.orgId, r.principalId))
  ledger : Ledger
  outbox : Table OutboxRow.id
  events : Table EventRow.id
  settlements : Table SettlementRow.id
  earnings : Table EarningRow.id
  grants : Table GrantRow.orgId
  credentials : Table CredentialRow.clientId
  provisioning : Table ProvisioningRow.id
  stripeEvents : Table TopupGuardRow.key
  usdcTopups : Table TopupGuardRow.key
  usageEvents : Table UsageRow.id
  charges : Table ChargeRow.id

def Db.empty : Db :=
  { orgs := Table.empty, credits := Table.empty, principalLimits := Table.empty, ledger := Ledger.empty,
    outbox := Table.empty, events := Table.empty, settlements := Table.empty, earnings := Table.empty,
    grants := Table.empty, credentials := Table.empty, provisioning := Table.empty, stripeEvents := Table.empty,
    usdcTopups := Table.empty, usageEvents := Table.empty, charges := Table.empty }

/-- the settings these modules read; the machine-org cap is validated positive -/
structure Settings where
  machineOrgDailySpendLimitUsdc : ℤ
  machineCap_pos : 0 < machineOrgDailySpendLimitUsdc
  a2aTreasuryDailyOutflowCapUsdc : ℤ
  settlementMaxRetries : ℤ
  marketplaceDefaultRevenueShareBps : ℤ

/-- what a call takes from its surroundings -/
structure Env where
  /-- `NOW()`: the start of the call's transaction -/
  now : ℤ
  /-- the uuids the call draws, in order -/
  uuid : ℕ → String
  /-- which of its database calls (a transaction, or a statement of its own) fail outright, in order -/
  fault : ℕ → Bool

/-- the shipped defaults -/
def Settings.default : Settings := ⟨5000000, by decide, 5000000, 5, 7000⟩

/-- surroundings in which no call fails and every uuid drawn is `id` -/
def Env.calm (now : ℤ) (id : String) : Env := ⟨now, fun _ => id, fun _ => false⟩

def hours (n : ℤ) : ℤ := n * 3600000000

/-- the largest BIGINT -/
def bigintMax : ℤ := 9223372036854775807

def isBigint (n : ℤ) : Prop := -bigintMax - 1 ≤ n ∧ n ≤ bigintMax

instance (n : ℤ) : Decidable (isBigint n) := inferInstanceAs (Decidable (_ ∧ _))

/-- one database call: a transaction body, or a failure outright -/
def call {α : Type} (fault : Bool) (t : Tx Db α) (db : Db) : Call α × Db :=
  if fault then (.error (.pg .operational), db) else Tx.commit t db

end Teardrop.Billing
