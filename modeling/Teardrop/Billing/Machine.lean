/-
The billing subsystem as one machine. A state is the database and the settlement claims that workers hold in memory; an
operation is one database transaction of one caller (or a worker's claim lost in a crash), carrying everything its
environment decides. `written` is what a step appends to the credit ledger.
-/
import Teardrop.Core.Runs
import Teardrop.Billing.Topups
import Teardrop.Billing.Delegation
import Teardrop.Billing.Settlement

namespace Teardrop.Billing

open Teardrop.Py QueueStep

/-! ## Administration -/

/-- a new org -/
def createOrg (row : OrgRow) (db : Db) : Db :=
  match db.orgs.insert? row with
  | some orgs => { db with orgs := orgs }
  | none => db

/-- the credit account of a provisioned org (`teardrop/wallets.py`): balance 0, unless the row is there -/
def openAccount (org : String) (spendingLimit : ℤ) (db : Db) : Db :=
  if (db.orgs.get? org).isNone then db
  else match db.credits.insert? ⟨org, 0, spendingLimit, false⟩ with
    | some credits => { db with credits := credits }
    | none => db

def updateOrgSpendingConfig (org : String) (limit : Option ℤ) (paused : Option Bool) (db : Db) : Db :=
  if ∃ l, limit = some l ∧ (l < 0 ∨ ¬ isBigint l) then db
  else { db with
    credits := db.credits.update
      (fun r => if r.orgId = org then
        { r with spendingLimitUsdc := limit.getD r.spendingLimitUsdc, isPaused := paused.getD r.isPaused } else r)
      (fun r => by by_cases h : r.orgId = org <;> simp [h]) }

def upsertPrincipalSpendLimit (row : PrincipalLimitRow) (db : Db) : Db :=
  if row.dailyLimitUsdc ≤ 0 ∨ ¬ isBigint row.dailyLimitUsdc ∨ (db.orgs.get? row.orgId).isNone then db
  else match db.principalLimits.insert? row with
    | some limits => { db with principalLimits := limits }
    | none => { db with
        principalLimits := db.principalLimits.update
          (fun r => if r.orgId = row.orgId ∧ r.principalId = row.principalId then
            { r with dailyLimitUsdc := row.dailyLimitUsdc, isPaused := row.isPaused } else r)
          (fun r => by by_cases h : r.orgId = row.orgId ∧ r.principalId = row.principalId <;> simp [h]) }

def deletePrincipalSpendLimit (org principal : String) (db : Db) : Db :=
  { db with principalLimits := db.principalLimits.filter (fun r => !(r.orgId = org && r.principalId = principal)) }

/-! ## The machine -/

/-- a claimed row in a worker's memory, and the error of its failed attempt -/
structure Claim where
  row : SettlementRow
  failed : Option String

structure Sys where
  db : Db
  claims : List Claim

inductive Op where
  | debitCredit (e : Env) (org : String) (amount : ℤ) (reason : String) (principal : Option String)
  | fundDelegation (e : Env) (org : String) (amount : ℤ) (reason d runId : String) (principal : Option String)
  | adminTopup (e : Env) (org : String) (amount : ℤ) (reason : String) (externalRef : Option String)
  | recordOnboarding (e : Env) (secret : FreshSecret) (org : String) (amount : ℤ) (externalRef payer : String)
      (chainId : ℤ) (settlementTx : String)
  | grantOnboarding (e : Env) (org : String) (amount : ℤ)
  | stripeWebhook (e : Env) (event : StripeEvent)
  | creditUsdcTopup (e : Env) (org : String) (amount : ℤ) (txHash : String)
  | markPossiblyDelivered (e : Env) (org d : String) (charge : Option ℤ)
  | confirmDelivery (e : Env) (org d settlementTx : String)
  | failDelivery (e : Env) (org d reason : String)
  | requestRefund (e : Env) (org d : String)
  | cancelRefund (e : Env) (org d : String)
  | completeRefund (e : Env) (org d : String)
  | recordEvent (e : Env) (row : EventRow)
  | enqueue (e : Env) (usageEventId org runId : String) (method : Method) (amount : ℤ)
      (paymentPayload principal : Option String) (chargeId : String) (allocations : List Json)
  | claimSettlements (e : Env) (locked : String → Bool)
  | settleClaimed (e : Env) (i : ℕ)
  | recordFailure (e : Env) (i : ℕ)
  | crash (i : ℕ)
  | resetExhausted (e : Env) (id : String)
  | rearmExhausted (e : Env) (org : String) (cap : ℤ)
  | createOrg (row : OrgRow)
  | openAccount (org : String) (spendingLimit : ℤ)
  | updateSpendingConfig (org : String) (limit : Option ℤ) (paused : Option Bool)
  | upsertPrincipalLimit (row : PrincipalLimitRow)
  | deletePrincipalLimit (org principal : String)

/-- what the caller of an operation is told -/
inductive Report where
  | success
  | failure

def reportOf (ok : Bool) : Report := if ok then .success else .failure

/-- a call that raises reports failure; `good` judges what it returns -/
def reportCall {α : Type} (good : α → Bool) : Call α → Report
  | .ok a => reportOf (good a)
  | .error _ => .failure

/-- the texts the worker records: an exception's own -/
def failureText (py : Interp) : Exc → String
  | .settlementClaimLost msg => msg
  | .valueError msg => msg
  | .runtimeError msg => msg
  | .indexError msg => msg
  | _ => py.repr .null

/-- one attempt of the worker on a claim: the store, what is left of the claim, and the report -/
def attempt (cfg : Settings) (py : Interp) (e : Env) (c : Claim) (db : Db) : Db × Option Claim × Report :=
  if c.row.billingMethod ≠ .credit then
    (db, some { c with failed := some "x402 settlements cannot be retried after initial failure" }, .failure)
  else match call (e.fault 0) (settleTx cfg py e.now e.uuid c.row (c.row.retryCount + 1)) db with
    | (.ok (true, _), db') => (db', none, .success)
    | (.ok (false, _), db') => (db', some { c with failed := some "debit_credit returned False" }, .failure)
    | (.error (.settlementClaimLost _), db') => (db', none, .failure)
    | (.error x, db') => (db', some { c with failed := some (failureText py x) }, .failure)

/-- the retry count a failed attempt records: credit rows count up, x402 rows are given up at once -/
def nextRetryCount (row : SettlementRow) : ℤ :=
  if row.billingMethod = .credit then row.retryCount + 1 else row.maxRetries

/-- replace the i-th claim by what is left of it -/
def putClaim (claims : List Claim) (i : ℕ) : Option Claim → List Claim
  | some c => claims.set i c
  | none => claims.eraseIdx i

def step (cfg : Settings) (py : Interp) (s : Sys) : Op → Sys × Report
  | .debitCredit e org amount reason principal =>
    let r := debitCredit cfg e org amount reason principal s.db
    ({ s with db := r.2 }, reportOf r.1.1)
  | .fundDelegation e org amount reason d runId principal =>
    let r := debitCreditWithDelegationRefund cfg e org amount reason d runId principal s.db
    ({ s with db := r.2 }, reportOf r.1.1)
  | .adminTopup e org amount reason externalRef =>
    let r := adminTopupCredit e org amount reason externalRef s.db
    ({ s with db := r.2 }, reportCall (fun _ => true) r.1)
  | .recordOnboarding e secret org amount externalRef payer chainId settlementTx =>
    let r := recordOnboardingSettlement e secret org amount externalRef payer chainId settlementTx s.db
    ({ s with db := r.2 }, reportCall (fun _ => true) r.1)
  | .grantOnboarding e org amount =>
    let r := grantOnboardingCredit e org amount s.db
    ({ s with db := r.2 }, reportCall (fun _ => true) r.1)
  | .stripeWebhook e event =>
    let r := handleStripeWebhook e event s.db
    ({ s with db := r.2 }, reportCall (fun _ => true) r.1)
  | .creditUsdcTopup e org amount txHash =>
    let r := creditUsdcTopup e org amount txHash s.db
    ({ s with db := r.2 }, reportCall Option.isSome r.1)
  | .markPossiblyDelivered e org d charge =>
    let r := markDelegationPossiblyDelivered cfg e org d charge s.db
    ({ s with db := r.2 }, reportOf r.1)
  | .confirmDelivery e org d settlementTx =>
    let r := confirmDelegationDelivery e org d settlementTx s.db
    ({ s with db := r.2 }, reportOf r.1)
  | .failDelivery e org d reason =>
    let r := failDelegationDelivery e org d reason s.db
    ({ s with db := r.2 }, reportOf r.1)
  | .requestRefund e org d =>
    let r := requestDelegationRefund e org d s.db
    ({ s with db := r.2 }, reportOf r.1)
  | .cancelRefund e org d =>
    let r := cancelDelegationRefund e org d s.db
    ({ s with db := r.2 }, reportOf r.1)
  | .completeRefund e org d =>
    let r := completeDelegationRefund e org d s.db
    ({ s with db := r.2 }, reportOf r.1)
  | .recordEvent e row =>
    let r := recordDelegationEvent e row s.db
    ({ s with db := r.2 }, reportOf r.1)
  | .enqueue e usageEventId org runId method amount paymentPayload principal chargeId allocations =>
    let db := enqueueFailedSettlement cfg e usageEventId org runId method amount paymentPayload principal chargeId
      allocations s.db
    ({ s with db := db }, .success)
  | .claimSettlements e locked =>
    match call (e.fault 0) (claimTx e.now locked) s.db with
    | (.ok rows, db) => (⟨db, s.claims ++ rows.map (⟨·, none⟩)⟩, .success)
    | (.error _, db) => ({ s with db := db }, .failure)
  | .settleClaimed e i =>
    match s.claims[i]? with
    | none => (s, .failure)
    | some c =>
      if c.failed.isSome then (s, .failure)
      else
        let r := attempt cfg py e c s.db
        (⟨r.1, putClaim s.claims i r.2.1⟩, r.2.2)
  | .recordFailure e i =>
    match s.claims[i]? with
    | none => (s, .failure)
    | some c =>
      match c.failed with
      | none => (s, .failure)
      | some error =>
        (⟨(call (e.fault 0) (failureTx e.now c.row (nextRetryCount c.row) error) s.db).2, s.claims.eraseIdx i⟩, .success)
  | .crash i => ({ s with claims := s.claims.eraseIdx i }, .success)
  | .resetExhausted e id =>
    let r := resetExhaustedSettlement e id s.db
    ({ s with db := r.2 }, reportOf (r.1 = some true))
  | .rearmExhausted e org cap => ({ s with db := (rearmExhaustedCreditSettlements e org cap s.db).2 }, .success)
  | .createOrg row => ({ s with db := createOrg row s.db }, .success)
  | .openAccount org limit => ({ s with db := openAccount org limit s.db }, .success)
  | .updateSpendingConfig org limit paused => ({ s with db := updateOrgSpendingConfig org limit paused s.db }, .success)
  | .upsertPrincipalLimit row => ({ s with db := upsertPrincipalSpendLimit row s.db }, .success)
  | .deletePrincipalLimit org principal => ({ s with db := deletePrincipalSpendLimit org principal s.db }, .success)

/-- the state after an operation -/
def next (cfg : Settings) (py : Interp) (s : Sys) (op : Op) : Sys := (step cfg py s op).1

def run (cfg : Settings) (py : Interp) (s : Sys) (ops : List Op) : Sys := Runs.run (next cfg py) s ops

/-- the ledger rows an operation appends -/
def written (cfg : Settings) (py : Interp) (s : Sys) (op : Op) : List LedgerRow :=
  (next cfg py s op).db.ledger.rows.drop s.db.ledger.rows.length

/-! ## What a step can do -/

/-- every claim of the later state was held before or is a snapshot of a stored charge -/
def ClaimsFrom (s s' : Sys) : Prop :=
  ∀ c ∈ s'.claims, (∃ c₀ ∈ s.claims, c₀.row = c.row) ∨ ∃ r, s'.db.settlements.get? c.row.id = some r ∧ SameCharge r c.row

/-- the settlement side is untouched -/
structure SettlementFrame (s s' : Sys) : Prop where
  settlements : s'.db.settlements = s.db.settlements
  earnings : s'.db.earnings = s.db.earnings
  claims : s'.claims = s.claims

/-- the delegation an operation pays back to -/
def Op.delegation : Op → Option (String × String)
  | .markPossiblyDelivered _ org d _ => some (org, d)
  | .confirmDelivery _ org d _ => some (org, d)
  | .failDelivery _ org d _ => some (org, d)
  | .requestRefund _ org d => some (org, d)
  | .cancelRefund _ org d => some (org, d)
  | .completeRefund _ org d => some (org, d)
  | _ => none

/-- the delegation an operation funds -/
def Op.funds : Op → Option String
  | .fundDelegation _ _ _ _ d _ _ => some d
  | _ => none

/-- the settlement an operation works on -/
def Op.settles (s : Sys) : Op → Option String
  | .settleClaimed _ i => (s.claims[i]?).map (fun c => c.row.id)
  | _ => none

/-- **What a step can do**, every operation included -/
inductive Effect (cfg : Settings) (py : Interp) (s s' : Sys) (op : Op) : Prop where
  /-- no credit, no delegation, no earnings; the queue's rows may change -/
  | quiet : QueueStep s.db s'.db → ClaimsFrom s s' → Effect cfg py s s' op
  /-- a spend limit was set -/
  | limited {row : PrincipalLimitRow} : op = .upsertPrincipalLimit row →
      s'.db = { s.db with principalLimits := s'.db.principalLimits } → s'.claims = s.claims → Effect cfg py s s' op
  | debited {e : Env} {org : String} {amount : ℤ} {reason : String} {principal : Option String} :
      op = .debitCredit e org amount reason principal →
      DebitAllowed cfg e.now org amount principal s.db →
      Posted s.db s'.db (debitRow e.now (e.uuid 0) org amount (balance s.db org - amount) reason principal) →
      SettlementFrame s s' → Effect cfg py s s' op
  | funded {e : Env} {org : String} {amount : ℤ} {reason d runId : String} {principal : Option String} :
      op = .fundDelegation e org amount reason d runId principal →
      DebitAllowed cfg e.now org amount principal s.db →
      Funded s.db s'.db (debitRow e.now (e.uuid 0) org amount (balance s.db org - amount) reason principal)
        (newOutboxRow e.now d org runId amount (some (e.uuid 0))) →
      SettlementFrame s s' → Effect cfg py s s' op
  | topped : op.delegation = none → op.funds = none → op.settles s = none → TopupEffect s.db s'.db →
      SettlementFrame s s' → Effect cfg py s s' op
  | acted {org d : String} : op.delegation = some (org, d) → Acts s.db s'.db org d → SettlementFrame s s' →
      Effect cfg py s s' op
  | settled {e : Env} {i : ℕ} {c : Claim} : op = .settleClaimed e i → s.claims[i]? = some c →
      c.row.billingMethod = .credit → SettledBy cfg py e.now e.uuid c.row s.db s'.db →
      s'.claims = s.claims.eraseIdx i → Effect cfg py s s' op

theorem ClaimsFrom.of_eq {s s' : Sys} (h : s'.claims = s.claims) : ClaimsFrom s s' :=
  fun c hc => Or.inl ⟨c, h ▸ hc, rfl⟩

theorem mem_putClaim {claims : List Claim} {i : ℕ} {c₀ : Claim} {left : Option Claim} (hi : claims[i]? = some c₀)
    (hleft : ∀ c, left = some c → c.row = c₀.row) :
    ∀ c ∈ putClaim claims i left, ∃ c' ∈ claims, c'.row = c.row := by
  intro c hc
  cases left with
  | none => exact ⟨c, List.mem_of_mem_eraseIdx hc, rfl⟩
  | some c' =>
    rcases List.mem_or_eq_of_mem_set hc with hc | rfl
    · exact ⟨c, hc, rfl⟩
    · exact ⟨c₀, List.mem_of_getElem? hi, (hleft c rfl).symm⟩

theorem attempt_cases (cfg : Settings) (py : Interp) (e : Env) (c : Claim) (db : Db) :
    ((attempt cfg py e c db).1 = db ∧ (attempt cfg py e c db).2.2 = .failure ∧
      ∀ c', (attempt cfg py e c db).2.1 = some c' → c'.row = c.row) ∨
    (c.row.billingMethod = .credit ∧ SettledBy cfg py e.now e.uuid c.row db (attempt cfg py e c db).1 ∧
      (attempt cfg py e c db).2.1 = none ∧ (attempt cfg py e c db).2.2 = .success) := by
  unfold attempt
  split_ifs with hmethod
  · refine Or.inl ⟨rfl, rfl, fun c' hc' => ?_⟩
    cases hc'; rfl
  · have hmethod : c.row.billingMethod = .credit := not_not.1 hmethod
    rcases call_cases (e.fault 0) (settleTx cfg py e.now e.uuid c.row (c.row.retryCount + 1)) db with
      ⟨x, hc⟩ | ⟨⟨b, n⟩, db', ht, hc⟩
    · rw [hc]
      refine Or.inl ?_
      split
      · next heq => cases heq
      · next heq => cases heq
      · next heq => cases heq; exact ⟨rfl, rfl, fun c' hc' => by cases hc'⟩
      · next heq => cases heq; exact ⟨rfl, rfl, fun c' hc' => by cases hc'; rfl⟩
    · rw [hc]
      rcases settleTx_ok ht with ⟨hb, hdb⟩ | ⟨hb, hsettled⟩
      · cases hb
        subst hdb
        exact Or.inl ⟨rfl, rfl, fun c' hc' => by cases hc'; rfl⟩
      · cases hb
        exact Or.inr ⟨hmethod, hsettled, rfl, rfl⟩

theorem createOrg_aside (row : OrgRow) (db : Db) : QueueStep db (createOrg row db) := by
  unfold createOrg
  split
  · next orgs hins =>
    refine of_aside (Unmoved.of_eq rfl rfl) rfl rfl rfl (fun x o ho => ?_) (fun _ hk => hk)
    have hfree := (Table.insert?_eq_some hins).1
    have hne : row.id ≠ x := fun hx => by rw [hx, ho] at hfree; cases hfree
    rw [Table.get?_insert hins, if_neg hne]
    exact ho
  · exact refl db

theorem openAccount_aside (org : String) (limit : ℤ) (db : Db) : QueueStep db (openAccount org limit db) := by
  unfold openAccount
  split_ifs
  · exact refl db
  · split
    · next credits hins =>
      -- a new account starts at 0, which is what an org without a row has
      refine of_aside ⟨rfl, fun o => ?_⟩ rfl rfl rfl (fun _ _ ho => ho) (fun _ hk => hk)
      have hnone := (Table.insert?_eq_some hins).1
      show ((credits.get? o).map CreditRow.balanceUsdc).getD 0 = balance db o
      rw [Table.get?_insert hins]
      split_ifs with ho
      · subst ho
        simp [balance, hnone]
      · rfl
    · exact refl db

theorem updateOrgSpendingConfig_aside (org : String) (limit : Option ℤ) (paused : Option Bool) (db : Db) :
    QueueStep db (updateOrgSpendingConfig org limit paused db) := by
  unfold updateOrgSpendingConfig
  split_ifs
  · exact refl db
  · refine of_aside ⟨rfl, fun o => ?_⟩ rfl rfl rfl (fun _ _ ho => ho) (fun _ hk => hk)
    simp only [balance, Table.get?_update]
    cases db.credits.get? o with
    | none => rfl
    | some r =>
      simp only [Option.map_some, Option.getD_some]
      split_ifs <;> rfl

theorem upsertPrincipalSpendLimit_frame (row : PrincipalLimitRow) (db : Db) : upsertPrincipalSpendLimit row db =
      { db with principalLimits := (upsertPrincipalSpendLimit row db).principalLimits } := by
  unfold upsertPrincipalSpendLimit
  split_ifs
  · rfl
  · split <;> rfl

theorem deletePrincipalSpendLimit_aside (org principal : String) (db : Db) :
    QueueStep db (deletePrincipalSpendLimit org principal db) := by
  refine of_aside (Unmoved.of_eq rfl rfl) rfl rfl rfl (fun _ _ ho => ho) (fun k hk => ?_)
  show (db.principalLimits.filter _).get? k = none
  rw [Table.get?_filter, hk, Option.filter_none]

theorem recordDelegationEvent_aside (e : Env) (row : EventRow) (db : Db) :
    QueueStep db (recordDelegationEvent e row db).2 := by
  unfold recordDelegationEvent
  rcases call_cases (e.fault 0) (insertEvent row) db with ⟨x, hc⟩ | ⟨a, db', ht, hc⟩
  · rw [hc]; exact refl db
  · have hframe := insertEvent_ok ht
    rw [hc]
    exact of_aside (Unmoved.of_eq (by rw [reportFalse, hframe]) (by rw [reportFalse, hframe]))
      (by rw [reportFalse, hframe]) (by rw [reportFalse, hframe]) (by rw [reportFalse, hframe])
      (fun x o ho => by rw [reportFalse, hframe]; exact ho) (fun k hk => by rw [reportFalse, hframe]; exact hk)

theorem Funded.frame {db db' : Db} {debit : LedgerRow} {row : OutboxRow} (h : Funded db db' debit row) :
    db'.settlements = db.settlements ∧ db'.earnings = db.earnings := by
  obtain ⟨db₁, hp, hrest⟩ := h.posted
  exact ⟨by rw [hrest]; exact hp.settlements, by rw [hrest]; exact hp.earnings⟩

theorem Acts.frames {db db' : Db} {org d : String} (h : Acts db db' org d) :
    db'.settlements = db.settlements ∧ db'.earnings = db.earnings :=
  ⟨by rw [h.frame], by rw [h.frame]⟩

/-- **Every step has an effect of the list.** -/
theorem step_effect (cfg : Settings) (py : Interp) (s : Sys) (op : Op) : Effect cfg py s (next cfg py s op) op := by
  have topped : ∀ {db' : Db} {op : Op}, op.delegation = none → op.funds = none → op.settles s = none →
      TopupEffect s.db db' → Effect cfg py s { s with db := db' } op :=
    fun h₁ h₂ h₃ h => .topped h₁ h₂ h₃ h ⟨h.settlements, h.earnings, rfl⟩
  have acted : ∀ {db' : Db} {op : Op} {org d : String}, op.delegation = some (org, d) → Acts s.db db' org d →
      Effect cfg py s { s with db := db' } op :=
    fun hop h => .acted hop h ⟨h.frames.1, h.frames.2, rfl⟩
  have aside : ∀ {db' : Db} {op : Op}, QueueStep s.db db' → Effect cfg py s { s with db := db' } op :=
    fun h => .quiet h (ClaimsFrom.of_eq rfl)
  cases op with
  | debitCredit e org amount reason principal =>
    rcases debitCredit_cases cfg e org amount reason principal s.db with h | ⟨-, hallowed, hp⟩
    · refine aside ?_
      rw [h]
      exact refl s.db
    · exact .debited rfl hallowed hp ⟨hp.settlements, hp.earnings, rfl⟩
  | fundDelegation e org amount reason d runId principal =>
    rcases fund_cases cfg e org amount reason d runId principal s.db with ⟨h, -⟩ | ⟨-, hallowed, hf⟩
    · refine aside ?_
      rw [h]
      exact refl s.db
    · exact .funded rfl hallowed hf ⟨hf.frame.1, hf.frame.2, rfl⟩
  | adminTopup e org amount reason externalRef =>
    exact topped rfl rfl rfl (adminTopupCredit_effect e org amount reason externalRef s.db)
  | recordOnboarding e secret org amount externalRef payer chainId settlementTx =>
    exact topped rfl rfl rfl
      (recordOnboardingSettlement_effect e secret org amount externalRef payer chainId settlementTx s.db)
  | grantOnboarding e org amount => exact topped rfl rfl rfl (grantOnboardingCredit_effect e org amount s.db)
  | stripeWebhook e event => exact topped rfl rfl rfl (handleStripeWebhook_effect e event s.db)
  | creditUsdcTopup e org amount txHash =>
    exact topped rfl rfl rfl (creditUsdcTopup_effect e org amount txHash s.db)
  | markPossiblyDelivered e org d charge => exact acted rfl (mark_acts cfg e org d charge s.db).1
  | confirmDelivery e org d settlementTx => exact acted rfl (confirm_acts e org d settlementTx s.db).1
  | failDelivery e org d reason => exact acted rfl (fail_acts e org d reason s.db).1
  | requestRefund e org d => exact acted rfl (request_acts e org d s.db)
  | cancelRefund e org d => exact acted rfl (cancel_acts e org d s.db)
  | completeRefund e org d => exact acted rfl (complete_acts e org d s.db).1
  | recordEvent e row => exact aside (recordDelegationEvent_aside e row s.db)
  | enqueue e usageEventId org runId method amount paymentPayload principal chargeId allocations =>
    exact aside (enqueue_queue cfg e usageEventId org runId method amount paymentPayload principal chargeId allocations s.db)
  | claimSettlements e locked =>
    rcases call_cases (e.fault 0) (claimTx e.now locked) s.db with ⟨x, hc⟩ | ⟨rows, db', ht, hc⟩
    · have hnext : next cfg py s (.claimSettlements e locked) = { s with db := s.db } := by simp [next, step, hc]
      rw [hnext]
      exact aside (refl s.db)
    · have hnext : next cfg py s (.claimSettlements e locked) = ⟨db', s.claims ++ rows.map (⟨·, none⟩)⟩ := by
        simp [next, step, hc]
      obtain ⟨hq, hsnap⟩ := claimTx_ok ht
      rw [hnext]
      refine .quiet hq (fun c hc => ?_)
      rcases List.mem_append.1 hc with hc | hc
      · exact Or.inl ⟨c, hc, rfl⟩
      · obtain ⟨row, hrow, rfl⟩ := List.mem_map.1 hc
        exact Or.inr (hsnap row hrow)
  | settleClaimed e i =>
    cases hi : s.claims[i]? with
    | none =>
      have hnext : next cfg py s (.settleClaimed e i) = { s with db := s.db } := by simp [next, step, hi]
      rw [hnext]
      exact aside (refl s.db)
    | some c =>
      by_cases hfailed : c.failed.isSome
      · have hnext : next cfg py s (.settleClaimed e i) = { s with db := s.db } := by
          simp [next, step, hi, hfailed]
        rw [hnext]
        exact aside (refl s.db)
      · have hnext : next cfg py s (.settleClaimed e i) =
            ⟨(attempt cfg py e c s.db).1, putClaim s.claims i (attempt cfg py e c s.db).2.1⟩ := by
          simp [next, step, hi, hfailed]
        rw [hnext]
        rcases attempt_cases cfg py e c s.db with ⟨hdb, -, hleft⟩ | ⟨hm, hs, hleft, -⟩
        · refine .quiet (by rw [hdb]; exact refl s.db) (fun c' hc' => ?_)
          exact Or.inl (mem_putClaim hi hleft c' hc')
        · exact .settled rfl hi hm hs (by rw [hleft]; rfl)
  | recordFailure e i =>
    cases hi : s.claims[i]? with
    | none =>
      have hnext : next cfg py s (.recordFailure e i) = { s with db := s.db } := by simp [next, step, hi]
      rw [hnext]
      exact aside (refl s.db)
    | some c =>
      cases hfailed : c.failed with
      | none =>
        have hnext : next cfg py s (.recordFailure e i) = { s with db := s.db } := by
          simp [next, step, hi, hfailed]
        rw [hnext]
        exact aside (refl s.db)
      | some error =>
        have hnext : next cfg py s (.recordFailure e i) =
            ⟨(call (e.fault 0) (failureTx e.now c.row (nextRetryCount c.row) error) s.db).2, s.claims.eraseIdx i⟩ := by
          simp [next, step, hi, hfailed]
        rw [hnext]
        exact .quiet (call_queue (e.fault 0) (fun a db' h => failureTx_queue h))
          (fun c' hc' => Or.inl ⟨c', List.mem_of_mem_eraseIdx hc', rfl⟩)
  | crash i =>
    exact .quiet (refl s.db) (fun c hc => Or.inl ⟨c, List.mem_of_mem_eraseIdx hc, rfl⟩)
  | resetExhausted e id => exact aside (reset_queue e id s.db)
  | rearmExhausted e org cap => exact aside (rearm_queue e org cap s.db)
  | createOrg row => exact aside (createOrg_aside row s.db)
  | openAccount org limit => exact aside (openAccount_aside org limit s.db)
  | updateSpendingConfig org limit paused => exact aside (updateOrgSpendingConfig_aside org limit paused s.db)
  | upsertPrincipalLimit row => exact .limited rfl (upsertPrincipalSpendLimit_frame row s.db) rfl
  | deletePrincipalLimit org principal => exact aside (deletePrincipalSpendLimit_aside org principal s.db)

/-! ## What a step appends to the ledger -/

theorem written_of_unmoved {cfg : Settings} {py : Interp} {s : Sys} {op : Op}
    (h : Unmoved s.db (next cfg py s op).db) : written cfg py s op = [] := by
  simp [written, h.ledger]

theorem written_of_moved {cfg : Settings} {py : Interp} {s : Sys} {op : Op} {row : LedgerRow}
    (h : Moved s.db (next cfg py s op).db row) : written cfg py s op = [row] := by
  simp [written, h.rows]

end Teardrop.Billing
