/-
Credits to the org balance: `admin_topup_credit`, `record_onboarding_settlement` and `grant_onboarding_credit` of
`billing/credit.py`, the Stripe webhook of `billing/stripe.py` and `credit_usdc_topup` of `billing/x402.py`.

All upsert the balance and append one `topup` row in one transaction (`topup`); they differ in the idempotency guard they take
first and in what else they write. The re-arming after a commit is `rearm` of `Billing.Settlement`. Stripe's signature check is
not modelled: the webhook starts from the event it returns.
-/
import Teardrop.Billing.Credit

namespace Teardrop.Billing

open Teardrop.Py Tx

/-! ## Model -/

/-- the ledger row of a top-up -/
def topupRow (now : ℤ) (ledgerId org : String) (amount newBalance : ℤ) (reason : String)
    (externalRef : Option String) : LedgerRow :=
  ⟨ledgerId, org, .topup, amount, newBalance, reason, none, externalRef, none, now⟩

/-- upsert the balance, then record it -/
def topup (now : ℤ) (ledgerId org : String) (amount : ℤ) (reason : String) (externalRef : Option String) : Tx Db ℤ := do
  let newBalance ← upsertBalance org amount
  insertLedger (topupRow now ledgerId org amount newBalance reason externalRef)
  return newBalance

/-- the answer to a duplicate reference: the current balance when it is the same top-up, else the error again -/
def topupReplay (e : Env) (org : String) (amount : ℤ) (externalRef : Option String) (db : Db) : Call ℤ :=
  match externalRef with
  | none => .error (.pg .uniqueViolation)
  | some ref =>
    if e.fault 1 then .error (.pg .operational)
    else match db.ledger.rows.find? (fun r => r.externalRef = some ref) with
      | none => .error (.pg .uniqueViolation)
      | some existing =>
        if existing.orgId ≠ org ∨ existing.amountUsdc ≠ amount then .error (.pg .uniqueViolation)
        else if e.fault 2 then .error (.pg .operational)
        else .ok (balance db org)

def adminTopupCredit (e : Env) (org : String) (amount : ℤ) (reason : String) (externalRef : Option String) (db : Db) :
    Call ℤ × Db :=
  match call (e.fault 0) (topup e.now (e.uuid 0) org amount reason externalRef) db with
  | (.error (.pg .uniqueViolation), db') => (topupReplay e org amount externalRef db', db')
  | r => r

/-- what `_hash_secret` and the clock give a new credential -/
structure FreshSecret where
  plaintext : String
  hashed : String
  salt : String
  createdAt : ℤ

/-- `create_client_credential_in_transaction` -/
def createClientCredential (clientId org : String) (secret : FreshSecret) : Tx Db (CredentialRow × String) := do
  let row : CredentialRow := ⟨clientId, org, secret.hashed, secret.salt, secret.createdAt, "publish", none⟩
  match ← Tx.read fun db => db.credentials.insert? row with
  | none => Tx.raise (.pg .uniqueViolation)
  | some credentials =>
    let known ← Tx.read fun db => (db.orgs.get? org).isSome
    Tx.require known (.pg .foreignKeyViolation)
    Tx.write fun db => { db with credentials := credentials }
    return (row, secret.plaintext)

/-- `SELECT ... FROM org_client_credentials WHERE org_id = $1 AND disabled_at IS NULL ORDER BY created_at ASC LIMIT 1` -/
def activeCredential (org : String) (db : Db) : Option CredentialRow :=
  (db.credentials.rows.filter (fun r => r.orgId = org && r.disabledAt.isNone)).foldl (fun oldest r =>
      match oldest with
      | none => some r
      | some o => if r.createdAt < o.createdAt then some r else some o) none

/-- the credential an org has, or a new one with its secret -/
def credentialFor (clientId org : String) (secret : FreshSecret) : Tx Db (CredentialRow × Option String) := do
  match ← Tx.read (activeCredential org) with
  | some row => return (row, none)
  | none =>
    let (row, plaintext) ← createClientCredential clientId org secret
    return (row, some plaintext)

/-- `INSERT INTO org_provisioning_events` -/
def insertProvisioning (row : ProvisioningRow) : Tx Db Unit := do
  Tx.require (-2147483648 ≤ row.chainId ∧ row.chainId ≤ 2147483647) (.pg .numericOutOfRange)
  Tx.require (0 ≤ row.amountUsdc) (.pg .checkViolation)
  match ← Tx.read fun db => db.provisioning.insert? row with
  | none => Tx.raise (.pg .uniqueViolation)
  | some provisioning => Tx.write fun db => { db with provisioning := provisioning }

/-- the transaction of `record_onboarding_settlement` -/
def onboardingTx (now : ℤ) (uuid : ℕ → String) (secret : FreshSecret) (org : String) (amount : ℤ)
    (externalRef payerAddress : String) (chainId : ℤ) (settlementTx : String) :
    Tx Db (CredentialRow × Option String) := do
  match ← Tx.read fun db => db.ledger.rows.find? (fun r => r.externalRef = some externalRef) with
  | some existing =>
    if existing.orgId ≠ org ∨ existing.amountUsdc ≠ amount then
      Tx.raise (.valueError "Onboarding payment reference is bound to a different settlement")
    else credentialFor (uuid 0) org secret
  | none =>
    let credential ← credentialFor (uuid 0) org secret
    let _ ← topup now (uuid 1) org amount "x402_onboarding" (some externalRef)
    insertProvisioning
      ⟨uuid 2, org, "x402", payerAddress, chainId, settlementTx, externalRef, amount, "settlement", "settled"⟩
    return credential

def recordOnboardingSettlement (e : Env) (secret : FreshSecret) (org : String) (amount : ℤ)
    (externalRef payerAddress : String) (chainId : ℤ) (settlementTx : String) (db : Db) :
    Call (CredentialRow × Option String) × Db :=
  if amount ≤ 0 then (.error (.valueError "onboarding settlement amount must be positive"), db)
  else if externalRef = "" ∨ settlementTx = "" then
    (.error (.valueError "onboarding settlement requires payment and transaction references"), db)
  else
    call (e.fault 0) (onboardingTx e.now e.uuid secret org amount externalRef payerAddress chainId settlementTx) db

/-- the transaction of `grant_onboarding_credit` -/
def grantTx (now : ℤ) (ledgerId org : String) (amount : ℤ) : Tx Db ℤ := do
  Tx.require (isBigint amount) (.pg .numericOutOfRange)
  Tx.require (0 < amount) (.pg .checkViolation)
  match ← Tx.read fun db => db.grants.insert? ⟨org, amount, ledgerId⟩ with
  | none => return 0
  | some grants =>
    let taken ← Tx.read fun db => decide (∃ g ∈ db.grants.rows, g.ledgerEntryId = ledgerId)
    Tx.require (¬ taken) (.pg .uniqueViolation)
    let known ← Tx.read fun db => (db.orgs.get? org).isSome
    Tx.require known (.pg .foreignKeyViolation)
    Tx.write fun db => { db with grants := grants }
    let _ ← topup now ledgerId org amount "onboarding_grant" none
    return amount

def grantOnboardingCredit (e : Env) (org : String) (amount : ℤ) (db : Db) : Call ℤ × Db :=
  if amount ≤ 0 then (.error (.valueError "onboarding credit amount must be positive"), db)
  else call (e.fault 0) (grantTx e.now (e.uuid 0) org amount) db

/-- `INSERT INTO ... ON CONFLICT DO NOTHING RETURNING` of an idempotency guard: `none` for a duplicate -/
def guardInsert (guards : Table TopupGuardRow.key) (known : Bool) (row : TopupGuardRow) :
    Call (Option (Table TopupGuardRow.key)) :=
  if ¬ isBigint row.amountUsdc then .error (.pg .numericOutOfRange)
  else if row.amountUsdc ≤ 0 then .error (.pg .checkViolation)
  else match guards.insert? row with
    | none => .ok none
    | some guards' => if known then .ok (some guards') else .error (.pg .foreignKeyViolation)

/-- the transaction of the Stripe webhook; `false` for a duplicate event -/
def stripeTx (now : ℤ) (ledgerId eventId org : String) (amount : ℤ) : Tx Db Bool := do
  let db ← Tx.read id
  match ← Tx.lift (guardInsert db.stripeEvents (db.orgs.get? org).isSome ⟨eventId, org, amount⟩) with
  | none => return false
  | some guards =>
    Tx.write fun db => { db with stripeEvents := guards }
    let _ ← topup now ledgerId org amount ("stripe:" ++ eventId) none
    return true

/-- the verified event: what the webhook reads of it -/
structure StripeEvent where
  id : String
  type : String
  paymentStatus : String
  clientReferenceId : Option String
  metadata : List (String × String)
  amountTotal : Option ℤ

def StripeEvent.meta? (ev : StripeEvent) (k : String) : Option String :=
  (ev.metadata.find? (fun p => p.1 = k)).map Prod.snd

/-- `session.client_reference_id or session.metadata.get("org_id")`, unless empty -/
def StripeEvent.orgId (ev : StripeEvent) : Option String :=
  ((ev.clientReferenceId.filter (· ≠ "")).or (ev.meta? "org_id")).filter (· ≠ "")

/-- the amount of the metadata when it reads as a number, else cents scaled to atomic USDC -/
def StripeEvent.amountUsdc (ev : StripeEvent) : ℤ :=
  match (ev.meta? "amount_usdc").filter (· ≠ "") with
  | none => ev.amountTotal.getD 0 * 10000
  | some raw => (PyText.parseInt 10 raw.toList).getD (ev.amountTotal.getD 0 * 10000)

/-- `handle_stripe_webhook`, from the verified event on -/
def handleStripeWebhook (e : Env) (ev : StripeEvent) (db : Db) : Call Unit × Db :=
  if ev.type ≠ "checkout.session.completed" then (.ok (), db)
  else if ev.paymentStatus ≠ "paid" then (.ok (), db)
  else match ev.orgId with
    | none => (.ok (), db)
    | some org =>
      if ev.amountUsdc ≤ 0 then (.ok (), db)
      else if e.fault 0 then (.error (.pg .operational), db)
      else if (db.orgs.get? org).isNone then (.error (.valueError ("unknown org_id " ++ org)), db)
      else match call (e.fault 1) (stripeTx e.now (e.uuid 0) ev.id org ev.amountUsdc) db with
        | (.ok _, db') => (.ok (), db')
        | (.error x, db') => (.error x, db')

/-- the transaction of `credit_usdc_topup` -/
def usdcTx (now : ℤ) (ledgerId org : String) (amount : ℤ) (txHash : String) : Tx Db (Option ℤ) := do
  let db ← Tx.read id
  match ← Tx.lift (guardInsert db.usdcTopups (db.orgs.get? org).isSome ⟨txHash, org, amount⟩) with
  | none => return none
  | some guards =>
    Tx.write fun db => { db with usdcTopups := guards }
    let newBalance ← topup now ledgerId org amount ("usdc_onchain:" ++ txHash) none
    return some newBalance

def creditUsdcTopup (e : Env) (org : String) (amount : ℤ) (txHash : String) (db : Db) : Call (Option ℤ) × Db :=
  call (e.fault 0) (usdcTx e.now (e.uuid 0) org amount txHash) db

/-! ## What a top-up does -/

/-- what the top-ups have in common: at most one `topup` row posted, reversing nothing, and the tables of delegations,
settlements and limits untouched -/
structure TopupEffect (db db' : Db) : Prop where
  money : Unmoved db db' ∨ ∃ row, Moved db db' row ∧ row.operation = .topup ∧ row.reversesLedgerId = none
  outbox : db'.outbox = db.outbox
  events : db'.events = db.events
  settlements : db'.settlements = db.settlements
  earnings : db'.earnings = db.earnings
  orgs : db'.orgs = db.orgs
  limits : db'.principalLimits = db.principalLimits

theorem TopupEffect.refl (db : Db) : TopupEffect db db :=
  ⟨Or.inl (Unmoved.refl db), rfl, rfl, rfl, rfl, rfl, rfl⟩

variable {reason : String} {externalRef : Option String} (e : Env) {secret : FreshSecret}

variable {r : ℤ × Db} {x : Exc} {a : CredentialRow × Option String}

theorem topup_ok {now : ℤ} {ledgerId org : String} {amount : ℤ} {db : Db}
    (h : topup now ledgerId org amount reason externalRef db = .ok r) :
    r.1 = balance db org + amount ∧
      Posted db r.2 (topupRow now ledgerId org amount (balance db org + amount) reason externalRef) := by
  obtain ⟨b, db₁, hu, h⟩ := bind_ok h
  obtain ⟨_, db₂, hi, h⟩ := bind_ok h
  cases pure_ok h
  obtain ⟨hb, hc⟩ := upsertBalance_ok hu
  have hb' : b = balance db org + amount := hb
  subst hb'
  exact ⟨rfl, posted_of_credited hc rfl hi⟩

theorem insertLedger_goes {row : LedgerRow} {db : Db} (hpos : 0 < row.amountUsdc)
    (hfits : isBigint row.amountUsdc ∧ isBigint row.balanceUsdcAfter) (hbalance : 0 ≤ row.balanceUsdcAfter)
    (hid : row.id ∉ db.ledger.rows.map LedgerRow.id)
    (href : Unused row.externalRef (db.ledger.rows.filterMap LedgerRow.externalRef)) (hrev : row.reversesLedgerId = none)
    (horg : (db.orgs.get? row.orgId).isSome = true) : ∃ r, insertLedger row db = .ok r := by
  have hins : ∃ l, db.ledger.insert row = .ok l := by
    unfold Ledger.insert
    rw [dif_pos ⟨hpos, hbalance⟩, dif_pos ⟨hid, href, by rw [hrev]; exact nofun⟩, dif_pos (by rw [hrev]; exact nofun)]
    exact ⟨_, rfl⟩
  obtain ⟨l, hl⟩ := hins
  simp only [insertLedger, bind_run, require_run, read_run, id, lift, hl, if_pos hfits, if_pos horg]
  exact ⟨_, rfl⟩

theorem upsertBalance_goes {org : String} {amount : ℤ} {db : Db} (hpos : 0 < amount)
    (horg : (db.orgs.get? org).isSome = true) (hamount : isBigint amount)
    (hbalance : 0 ≤ balance db org + amount ∧ isBigint (balance db org + amount)) :
    ∃ r, upsertBalance org amount db = .ok r := by
  simp only [upsertBalance, bind_run, require_run, read_run, hamount, hpos.le, if_true]
  cases hins : db.credits.insert? ⟨org, amount, 0, false⟩ with
  | some credits =>
    simp only [bind_run, read_run, require_run, horg, if_true, write, pure_run]
    exact ⟨_, rfl⟩
  | none =>
    simp only [bind_run, addBalance, read_run]
    cases hrow : db.credits.get? org with
    | none => exact ⟨_, rfl⟩
    | some row =>
      have hbal : balance db org = row.balanceUsdc := by simp [balance, hrow]
      rw [hbal] at hbalance
      simp only [bind_run, writeBalance, require_run, hbalance.1, hbalance.2, if_true, write, pure_run]
      exact ⟨_, rfl⟩

/-- what the database asks of the two rows of a top-up -/
structure TopupFits (ledgerId org : String) (amount : ℤ) (externalRef : Option String) (db : Db) : Prop where
  known : (db.orgs.get? org).isSome = true
  positive : 0 < amount
  amountFits : isBigint amount
  balanceFits : 0 ≤ balance db org + amount ∧ isBigint (balance db org + amount)
  freshId : ledgerId ∉ db.ledger.rows.map LedgerRow.id
  freshRef : Unused externalRef (db.ledger.rows.filterMap LedgerRow.externalRef)

theorem topup_goes (now : ℤ) {ledgerId org : String} {amount : ℤ} (reason : String) {db : Db}
    (h : TopupFits ledgerId org amount externalRef db) :
    ∃ r, topup now ledgerId org amount reason externalRef db = .ok r := by
  obtain ⟨⟨b, db₁⟩, hu⟩ := upsertBalance_goes h.positive h.known h.amountFits h.balanceFits
  obtain ⟨hb, hc⟩ := upsertBalance_ok hu
  have hb : b = balance db org + amount := hb
  have hrest : db₁ = { db with credits := db₁.credits } := hc.rest
  have hl : db₁.ledger = db.ledger := by rw [hrest]
  have ho : db₁.orgs = db.orgs := by rw [hrest]
  obtain ⟨r, hr⟩ : ∃ r, insertLedger (topupRow now ledgerId org amount b reason externalRef) db₁ = .ok r := by
    refine insertLedger_goes h.positive ⟨h.amountFits, ?_⟩ ?_ (by rw [hl]; exact h.freshId) (by rw [hl]; exact h.freshRef)
      rfl (by rw [ho]; exact h.known)
    · rw [hb]; exact h.balanceFits.2
    · rw [hb]; exact h.balanceFits.1
  simp only [topup, bind_run, hu, hr, pure_run]
  exact ⟨_, rfl⟩

theorem topup_fits {now : ℤ} {ledgerId org : String} {amount : ℤ} {db : Db}
    (h : topup now ledgerId org amount reason externalRef db = .ok r) : TopupFits ledgerId org amount externalRef db := by
  have hp := (topup_ok h).2
  obtain ⟨b, db₁, hu, h⟩ := bind_ok h
  obtain ⟨hb, hc⟩ := upsertBalance_ok hu
  have hrest : db₁ = { db with credits := db₁.credits } := hc.rest
  have hl : db₁.ledger = db.ledger := by rw [hrest]
  have ho : db₁.orgs = db.orgs := by rw [hrest]
  obtain ⟨u, db₂, hi, -⟩ := bind_ok h
  obtain ⟨⟨hamount, hbalance⟩, hi⟩ := require_bind_ok hi
  have hi := read_bind_ok hi
  obtain ⟨l, hins, hi⟩ := lift_bind_ok hi
  obtain ⟨hknown, -⟩ := require_bind_ok hi
  unfold Ledger.insert at hins
  split_ifs at hins with hcheck huniq hfk
  have hfits : isBigint (balance db org + amount) := hb ▸ hbalance
  refine ⟨?_, hp.positive, hamount, ⟨hc.nonneg, hfits⟩, hp.fresh, ?_⟩
  · rw [← ho]; exact hknown
  · rw [← hl]; exact huniq.2.1

theorem TopupEffect.of_posted {db db₀ db₁ db' : Db} {row : LedgerRow} (hp : Posted db₀ db₁ row)
    (hop : row.operation = .topup) (hrev : row.reversesLedgerId = none)
    (hpre : db₀ = { db with grants := db₀.grants, credentials := db₀.credentials, stripeEvents := db₀.stripeEvents,
                            usdcTopups := db₀.usdcTopups })
    (hpost : db' = { db₁ with provisioning := db'.provisioning }) : TopupEffect db db' := by
  have hl : db.ledger = db₀.ledger := by rw [hpre]
  have hc : db.credits = db₀.credits := by rw [hpre]
  have hl' : db'.ledger = db₁.ledger := by rw [hpost]
  have hc' : db'.credits = db₁.credits := by rw [hpost]
  refine ⟨Or.inr ⟨row, hp.toMoved.congr hl hc hl' hc', hop, hrev⟩, ?_, ?_, ?_, ?_, ?_, ?_⟩
  · rw [hpost, hp.rest, hpre]
  · rw [hpost, hp.rest, hpre]
  · rw [hpost, hp.rest, hpre]
  · rw [hpost, hp.rest, hpre]
  · rw [hpost, hp.rest, hpre]
  · rw [hpost, hp.rest, hpre]

theorem call_effect {α : Type} (fault : Bool) {t : Tx Db α} {db : Db}
    (h : ∀ a db', t db = .ok (a, db') → TopupEffect db db') : TopupEffect db (call fault t db).2 := by
  rcases call_cases fault t db with ⟨x, hc⟩ | ⟨a, db', ht, hc⟩
  · rw [hc]; exact TopupEffect.refl db
  · rw [hc]; exact h a db' ht

theorem call_error {α : Type} {fault : Bool} {t : Tx Db α} {db : Db} (h : (call fault t db).1 = .error x) :
    (call fault t db).2 = db := by
  rcases call_cases fault t db with ⟨y, hc⟩ | ⟨a, db', -, hc⟩
  · rw [hc]
  · rw [hc] at h; cases h

theorem topup_effect {now : ℤ} {ledgerId org : String} {amount : ℤ} {db : Db}
    (h : topup now ledgerId org amount reason externalRef db = .ok r) : TopupEffect db r.2 :=
  TopupEffect.of_posted (topup_ok h).2 rfl rfl rfl rfl

/-! ## The operations -/

/-- the store `admin_topup_credit` leaves is the one its transaction leaves -/
theorem adminTopupCredit_snd (org : String) (amount : ℤ) (reason : String) (externalRef : Option String) (db : Db) :
    (adminTopupCredit e org amount reason externalRef db).2 =
      (call (e.fault 0) (topup e.now (e.uuid 0) org amount reason externalRef) db).2 := by
  unfold adminTopupCredit
  split
  · next heq => rw [heq]
  · rfl

theorem adminTopupCredit_effect (org : String) (amount : ℤ) (reason : String) (externalRef : Option String) (db : Db) :
    TopupEffect db (adminTopupCredit e org amount reason externalRef db).2 := by
  rw [adminTopupCredit_snd]
  exact call_effect (e.fault 0) (fun a db' h => topup_effect h)

/-- `admin_topup_credit` that raised wrote nothing -/
theorem adminTopupCredit_error {e : Env} {org : String} {amount : ℤ} {db : Db}
    (h : (adminTopupCredit e org amount reason externalRef db).1 = .error x) :
    (adminTopupCredit e org amount reason externalRef db).2 = db := by
  rw [adminTopupCredit_snd]
  rcases call_cases (e.fault 0) (topup e.now (e.uuid 0) org amount reason externalRef) db with
    ⟨y, hc⟩ | ⟨a, db', -, hc⟩
  · rw [hc]
  · unfold adminTopupCredit at h
    rw [hc] at h
    cases h

theorem credentialFor_ok {clientId org : String} {db db' : Db} (h : credentialFor clientId org secret db = .ok (a, db')) :
    db' = { db with credentials := db'.credentials } := by
  have h := read_bind_ok h
  cases hact : activeCredential org db with
  | some row =>
    simp only [hact] at h
    cases pure_ok h
    rfl
  | none =>
    simp only [hact] at h
    obtain ⟨a, db₁, hcreate, h⟩ := bind_ok h
    cases pure_ok h
    have hcreate := read_bind_ok hcreate
    generalize db.credentials.insert? _ = inserted at hcreate
    cases inserted with
    | none => cases hcreate
    | some credentials =>
      have hcreate := read_bind_ok hcreate
      obtain ⟨-, hcreate⟩ := require_bind_ok hcreate
      cases pure_ok hcreate
      rfl

theorem insertProvisioning_ok {row : ProvisioningRow} {db db' : Db} {u : Unit}
    (h : insertProvisioning row db = .ok (u, db')) : db' = { db with provisioning := db'.provisioning } := by
  obtain ⟨-, h⟩ := require_bind_ok h
  obtain ⟨-, h⟩ := require_bind_ok h
  have h := read_bind_ok h
  generalize db.provisioning.insert? _ = inserted at h
  cases inserted with
  | none => cases h
  | some provisioning => cases h; rfl

/-! ### What each transaction commits -/

section Transactions

variable {now : ℤ} {ledgerId org : String} {amount : ℤ} {db db' : Db}

theorem stripeTx_ok {eventId : String} {a : Bool} (h : stripeTx now ledgerId eventId org amount db = .ok (a, db')) :
    (guardInsert db.stripeEvents (db.orgs.get? org).isSome ⟨eventId, org, amount⟩ = .ok none ∧ a = false ∧ db' = db) ∨
    ∃ guards b, guardInsert db.stripeEvents (db.orgs.get? org).isSome ⟨eventId, org, amount⟩ = .ok (some guards) ∧
      a = true ∧ topup now ledgerId org amount ("stripe:" ++ eventId) none { db with stripeEvents := guards } = .ok (b, db') := by
  have h := read_bind_ok h
  obtain ⟨guards, hguard, h⟩ := lift_bind_ok h
  cases guards with
  | none =>
    cases pure_ok h
    exact .inl ⟨hguard, rfl, rfl⟩
  | some guards =>
    have h := write_bind_ok h
    obtain ⟨b, db₂, htop, h⟩ := bind_ok h
    cases pure_ok h
    exact .inr ⟨guards, b, hguard, rfl, htop⟩

theorem usdcTx_ok {txHash : String} {a : Option ℤ} (h : usdcTx now ledgerId org amount txHash db = .ok (a, db')) :
    (guardInsert db.usdcTopups (db.orgs.get? org).isSome ⟨txHash, org, amount⟩ = .ok none ∧ a = none ∧ db' = db) ∨
    ∃ guards b, guardInsert db.usdcTopups (db.orgs.get? org).isSome ⟨txHash, org, amount⟩ = .ok (some guards) ∧
      a = some b ∧
      topup now ledgerId org amount ("usdc_onchain:" ++ txHash) none { db with usdcTopups := guards } = .ok (b, db') := by
  have h := read_bind_ok h
  obtain ⟨guards, hguard, h⟩ := lift_bind_ok h
  cases guards with
  | none =>
    cases pure_ok h
    exact .inl ⟨hguard, rfl, rfl⟩
  | some guards =>
    have h := write_bind_ok h
    obtain ⟨b, db₂, htop, h⟩ := bind_ok h
    cases pure_ok h
    exact .inr ⟨guards, b, hguard, rfl, htop⟩

theorem grantTx_ok {a : ℤ} (h : grantTx now ledgerId org amount db = .ok (a, db')) :
    (db.grants.insert? ⟨org, amount, ledgerId⟩ = none ∧ a = 0 ∧ db' = db) ∨
    ∃ grants b, db.grants.insert? ⟨org, amount, ledgerId⟩ = some grants ∧ a = amount ∧
      topup now ledgerId org amount "onboarding_grant" none { db with grants := grants } = .ok (b, db') := by
  obtain ⟨-, h⟩ := require_bind_ok h
  obtain ⟨-, h⟩ := require_bind_ok h
  have h := read_bind_ok h
  cases hins : db.grants.insert? ⟨org, amount, ledgerId⟩ with
  | none =>
    simp only [hins] at h
    cases pure_ok h
    exact .inl ⟨rfl, rfl, rfl⟩
  | some grants =>
    simp only [hins] at h
    have h := read_bind_ok h
    obtain ⟨-, h⟩ := require_bind_ok h
    have h := read_bind_ok h
    obtain ⟨-, h⟩ := require_bind_ok h
    have h := write_bind_ok h
    obtain ⟨b, db₂, htop, h⟩ := bind_ok h
    cases pure_ok h
    exact .inr ⟨grants, b, rfl, rfl, htop⟩

/-- the settlement is known already and at most a credential is new, or the amount is credited and a provisioning recorded -/
theorem onboardingTx_ok {uuid : ℕ → String} {externalRef payerAddress : String} {chainId : ℤ} {settlementTx : String}
    (h : onboardingTx now uuid secret org amount externalRef payerAddress chainId settlementTx db = .ok (a, db')) :
    ((db.ledger.rows.find? (fun r => r.externalRef = some externalRef)).isSome = true ∧
      db' = { db with credentials := db'.credentials }) ∨
    ∃ credentials b db₁, db.ledger.rows.find? (fun r => r.externalRef = some externalRef) = none ∧
      topup now (uuid 1) org amount "x402_onboarding" (some externalRef) { db with credentials := credentials } = .ok (b, db₁) ∧
      db' = { db₁ with provisioning := db'.provisioning } := by
  have h := read_bind_ok h
  cases hfind : db.ledger.rows.find? (fun r => r.externalRef = some externalRef) with
  | some existing =>
    simp only [hfind] at h
    split_ifs at h
    · cases h
    · exact .inl ⟨rfl, credentialFor_ok h⟩
  | none =>
    simp only [hfind] at h
    obtain ⟨cred, db₁, hcred, h⟩ := bind_ok h
    obtain ⟨b, db₂, htop, h⟩ := bind_ok h
    obtain ⟨_, db₃, hprov, h⟩ := bind_ok h
    cases pure_ok h
    rw [credentialFor_ok hcred] at htop
    exact .inr ⟨db₁.credentials, b, db₂, rfl, htop, insertProvisioning_ok hprov⟩

end Transactions

/-! ### The effects -/

theorem recordOnboardingSettlement_effect (secret : FreshSecret) (org : String) (amount : ℤ)
    (externalRef payerAddress : String) (chainId : ℤ) (settlementTx : String) (db : Db) :
    TopupEffect db (recordOnboardingSettlement e secret org amount externalRef payerAddress chainId settlementTx db).2 := by
  unfold recordOnboardingSettlement
  split_ifs
  · exact TopupEffect.refl db
  · exact TopupEffect.refl db
  · refine call_effect (e.fault 0) (fun a db' h => ?_)
    rcases onboardingTx_ok h with ⟨-, hcred⟩ | ⟨credentials, b, db₁, -, htop, hprov⟩
    -- a settlement already recorded: at most the credential is new
    · exact ⟨Or.inl (Unmoved.of_eq (by rw [hcred]) (by rw [hcred])), by rw [hcred], by rw [hcred], by rw [hcred],
        by rw [hcred], by rw [hcred], by rw [hcred]⟩
    · exact TopupEffect.of_posted (topup_ok htop).2 rfl rfl rfl hprov

theorem recordOnboardingSettlement_error {e : Env} {org : String} {amount : ℤ} {externalRef payerAddress : String}
    {chainId : ℤ} {settlementTx : String} {db : Db}
    (h : (recordOnboardingSettlement e secret org amount externalRef payerAddress chainId settlementTx db).1 = .error x) :
    (recordOnboardingSettlement e secret org amount externalRef payerAddress chainId settlementTx db).2 = db := by
  unfold recordOnboardingSettlement at h ⊢
  split_ifs at h ⊢
  · rfl
  · rfl
  · exact call_error h

theorem grantOnboardingCredit_effect (org : String) (amount : ℤ) (db : Db) :
    TopupEffect db (grantOnboardingCredit e org amount db).2 := by
  unfold grantOnboardingCredit
  split_ifs
  · exact TopupEffect.refl db
  · refine call_effect (e.fault 0) (fun a db' h => ?_)
    rcases grantTx_ok h with ⟨-, -, rfl⟩ | ⟨grants, b, -, -, htop⟩
    · exact TopupEffect.refl db'
    · exact TopupEffect.of_posted (topup_ok htop).2 rfl rfl rfl rfl

theorem grantOnboardingCredit_error {e : Env} {org : String} {amount : ℤ} {db : Db}
    (h : (grantOnboardingCredit e org amount db).1 = .error x) : (grantOnboardingCredit e org amount db).2 = db := by
  unfold grantOnboardingCredit at h ⊢
  split_ifs at h ⊢
  · rfl
  · exact call_error h

theorem stripeTx_effect {now : ℤ} {ledgerId eventId org : String} {amount : ℤ} {db : Db} {r : Bool × Db}
    (h : stripeTx now ledgerId eventId org amount db = .ok r) : TopupEffect db r.2 := by
  rcases stripeTx_ok h with ⟨-, -, hsame⟩ | ⟨guards, b, -, -, htop⟩
  · rw [hsame]
    exact TopupEffect.refl db
  · exact TopupEffect.of_posted (topup_ok htop).2 rfl rfl rfl rfl

theorem handleStripeWebhook_cases (ev : StripeEvent) (db : Db) :
    (handleStripeWebhook e ev db).2 = db ∨ ∃ org u db', handleStripeWebhook e ev db = (.ok u, db') ∧
      ∃ a, stripeTx e.now (e.uuid 0) ev.id org ev.amountUsdc db = .ok (a, db') := by
  unfold handleStripeWebhook
  by_cases htype : ev.type ≠ "checkout.session.completed"
  · rw [if_pos htype]; exact Or.inl rfl
  rw [if_neg htype]
  by_cases hpaid : ev.paymentStatus ≠ "paid"
  · rw [if_pos hpaid]; exact Or.inl rfl
  rw [if_neg hpaid]
  cases horg : ev.orgId with
  | none => exact Or.inl rfl
  | some org =>
    simp only
    split_ifs
    · exact Or.inl rfl
    · exact Or.inl rfl
    · exact Or.inl rfl
    · rcases call_cases (e.fault 1) (stripeTx e.now (e.uuid 0) ev.id org ev.amountUsdc) db with
        ⟨y, hc⟩ | ⟨a, db', ht, hc⟩
      · rw [hc]; exact Or.inl rfl
      · rw [hc]; exact Or.inr ⟨org, (), db', rfl, a, ht⟩

theorem handleStripeWebhook_effect (ev : StripeEvent) (db : Db) : TopupEffect db (handleStripeWebhook e ev db).2 := by
  rcases handleStripeWebhook_cases e ev db with h | ⟨org, u, db', h, a, ht⟩
  · rw [h]; exact TopupEffect.refl db
  · rw [h]; exact stripeTx_effect ht

theorem handleStripeWebhook_error {e : Env} {ev : StripeEvent} {db : Db} (h : (handleStripeWebhook e ev db).1 = .error x) :
    (handleStripeWebhook e ev db).2 = db := by
  rcases handleStripeWebhook_cases e ev db with hdb | ⟨org, u, db', hok, -⟩
  · exact hdb
  · rw [hok] at h; cases h

theorem creditUsdcTopup_effect (org : String) (amount : ℤ) (txHash : String) (db : Db) :
    TopupEffect db (creditUsdcTopup e org amount txHash db).2 := by
  refine call_effect (e.fault 0) (fun a db' h => ?_)
  rcases usdcTx_ok h with ⟨-, -, rfl⟩ | ⟨guards, b, -, -, htop⟩
  · exact TopupEffect.refl db'
  · exact TopupEffect.of_posted (topup_ok htop).2 rfl rfl rfl rfl

end Teardrop.Billing
