/-
The preflights of a debit: `verify_credit` of `billing/credit.py` and `check_delegation_budget` of
`billing/delegation.py`. Each reads the tables the locked debit reads, with queries and defaults of its own, and says
whether the debit would go through; neither writes.

A preflight makes its queries one by one on the pool, and one that fails raises.
-/
import Teardrop.Billing.Machine
import Teardrop.Billing.X402

namespace Teardrop.Billing

open Teardrop.Py

/-! ## Model -/

/-- the i-th query of a call -/
def fetch {α : Type} (e : Env) (i : ℕ) (a : α) : Call α := if e.fault i then .error (.pg .operational) else .ok a

/-- credit charges of `org` that await settlement, from 7 days before `now` on -/
def outstanding (now : ℤ) (mine : SettlementRow → Bool) (db : Db) (org : String) : ℤ :=
  ((db.settlements.rows.filter (fun r => r.orgId = org && r.billingMethod = .credit &&
    (r.status = .pending || r.status = .retrying || r.status = .exhausted) &&
    decide (now - hours (7 * 24) ≤ r.createdAt) && mine r)).map SettlementRow.amountUsdc).sum

def orgOutstanding (now : ℤ) (db : Db) (org : String) : ℤ := outstanding now (fun _ => true) db org

/-- `principal_outstanding`: 0 without a principal -/
def principalOutstanding (now : ℤ) (db : Db) (org : String) (principal : Option String) : ℤ :=
  match givenPrincipal principal with
  | none => 0
  | some p => outstanding now (fun r => r.principalId = some p) db org

/-- `acquisition_source in {"siwe", "x402"}` -/
def isMachineOrg (acquisitionSource : String) : Bool := acquisitionSource = "siwe" || acquisitionSource = "x402"

/-- `" plus {n} owed for unpaid credit charges"`, if there are any -/
def owedText (owed : ℤ) : String := if 0 < owed then " plus " ++ toString owed ++ " owed for unpaid credit charges" else ""

/-- the refusal for want of balance -/
def shortfallText (held owed required : ℤ) (machineOrg : Bool) : String :=
  (if 0 < owed then
    "Insufficient credit: balance " ++ toString held ++ " atomic USDC with " ++ toString owed ++
      " owed for unpaid credit charges, required " ++ toString required ++ " available."
  else "Insufficient credit: balance " ++ toString held ++ " atomic USDC, required " ++ toString required ++ ".") ++
  (if machineOrg then
    " Fund via GET /billing/topup/usdc/requirements then POST /billing/topup/usdc, or POST /token with grant_type=x402."
  else " Top up via POST /admin/credits/topup.")

/-- the principal's part of `verify_credit`: the refusal, if it is one -/
def principalShortfall (e : Env) (org : String) (required : ℤ) (principal : Option String) (db : Db) :
    Call (Option String) :=
  match givenPrincipal principal with
  | none => .ok none
  | some p => do
    match ← fetch e 3 (db.principalLimits.get? (org, p)) with
    | none => return none
    | some row =>
      if row.isPaused then return some "Principal billing is paused by an administrator."
      else do
        let spend ← fetch e 4 (dailyPrincipalDebitSpend e.now db.ledger.rows org p)
        let owed := principalOutstanding e.now db org principal
        if row.dailyLimitUsdc < spend + owed + required then
          return some ("Principal daily spending limit reached: " ++ toString spend ++ " of " ++
            toString row.dailyLimitUsdc ++ " atomic USDC used in the last 24 hours" ++ owedText owed ++ ".")
        else return none

/-- the org's part of the limits -/
def orgShortfall (e : Env) (org : String) (limit owed required : ℤ) (db : Db) : Call (Option String) := do
  if limit ≤ 0 then return none
  else do
    let spend ← fetch e 2 (dailyDebitSpend e.now db.ledger.rows org)
    if limit < spend + owed + required then
      return some ("Daily spending limit reached: " ++ toString spend ++ " of " ++ toString limit ++
        " atomic USDC used in the last 24 hours" ++ owedText owed ++ ".")
    else return none

/-- `verify_credit`; a missing account counts as an empty one without limits -/
def verifyCredit {P : Type} (cfg : Settings) (e : Env) (org : String) (minBalance : ℤ) (principal : Option String)
    (db : Db) : Call (BillingResult P) := do
  let row ← fetch e 0 (creditRow org db)
  let held := row.elim 0 (fun r => r.1.balanceUsdc)
  let limit := row.elim 0 (fun r => effectiveLimit cfg r.1 r.2.acquisitionSource)
  if row.elim false (fun r => r.1.isPaused) then
    return { error := "Org billing is paused by admin. Contact your administrator." }
  else do
    let owed ← fetch e 1 (orgOutstanding e.now db org)
    if held - owed < minBalance then
      return { error := shortfallText held owed minBalance (row.elim false (fun r => isMachineOrg r.2.acquisitionSource)) }
    else match ← orgShortfall e org limit owed minBalance db with
      | some error => return { error := error }
      | none =>
        match ← principalShortfall e org minBalance principal db with
        | some error => return { error := error }
        | none => return { verified := true, billingMethod := "credit" }

/-- the settings of outbound delegations -/
structure DelegationSettings where
  a2aDelegationBillingEnabled : Bool
  a2aDelegationMaxCostUsdc : ℤ
  a2aDelegationPlatformFeeBps : ℤ

/-- the principal's part of `check_delegation_budget` -/
def principalBudgetError (e : Env) (org : String) (cost : ℤ) (principal : Option String) (db : Db) : Call (Option String) :=
  match givenPrincipal principal with
  | none => .ok none
  | some p => do
    match ← fetch e 2 (db.principalLimits.get? (org, p)) with
    | none => return none
    | some row =>
      if row.isPaused then return some "Principal billing is paused by an administrator."
      else do
        let spend ← fetch e 3 (dailyPrincipalDebitSpend e.now db.ledger.rows org p)
        if row.dailyLimitUsdc < spend + cost then return some "Principal daily spending limit reached."
        else return none

/-- the org's part of the limits: the row's own only -/
def orgBudgetError (e : Env) (org : String) (limit cost : ℤ) (db : Db) : Call (Option String) := do
  if limit ≤ 0 then return none
  else do
    let spend ← fetch e 1 (dailyDebitSpend e.now db.ledger.rows org)
    if limit < spend + cost then
      return some ("Daily spending limit reached: " ++ toString spend ++ " of " ++ toString limit ++
        " atomic USDC used in the last 24 hours.")
    else return none

/-- `check_delegation_budget`: `none` when the delegation is affordable, else the error -/
def checkDelegationBudget (dcfg : DelegationSettings) (e : Env) (org : String) (estimatedCost : ℤ)
    (principal : Option String) (db : Db) : Call (Option String) := do
  if ¬ dcfg.a2aDelegationBillingEnabled then return none
  else if dcfg.a2aDelegationMaxCostUsdc < estimatedCost then
    return some ("Estimated delegation cost (" ++ toString estimatedCost ++ " atomic USDC) exceeds global cap (" ++
      toString dcfg.a2aDelegationMaxCostUsdc ++ ").")
  else do
    let row ← fetch e 0 (db.credits.get? org)
    let held := row.elim 0 CreditRow.balanceUsdc
    if row.elim false CreditRow.isPaused then
      return some "Org billing is paused by admin. Contact your administrator."
    else if held < estimatedCost then
      return some ("Insufficient credit for delegation: balance " ++ toString held ++ " atomic USDC, estimated cost " ++
        toString estimatedCost ++ ".")
    else match ← orgBudgetError e org (row.elim 0 CreditRow.spendingLimitUsdc) estimatedCost db with
      | some error => return some error
      | none => principalBudgetError e org estimatedCost principal db

/-! ## What a debit needs -/

theorem writeBalance_takes (org : String) {b : ℤ} (hbig : isBigint b) (hb : 0 ≤ b) (db : Db) :
    ∃ db', writeBalance org b db = .ok ((), db') ∧ db'.ledger = db.ledger ∧ db'.orgs = db.orgs ∧ db'.outbox = db.outbox := by
  unfold writeBalance
  simp only [Tx.bind_run, Tx.require_run, if_pos hbig, if_pos hb]
  exact ⟨_, rfl, rfl, rfl, rfl⟩

theorem Ledger.insert_takes (l : Ledger) {r : LedgerRow} (hpos : 0 < r.amountUsdc) (hafter : 0 ≤ r.balanceUsdcAfter)
    (hid : r.id ∉ l.rows.map LedgerRow.id) (href : r.externalRef = none) (hrev : r.reversesLedgerId = none) :
    ∃ l', l.insert r = .ok l' := by
  have huniq : r.id ∉ l.rows.map LedgerRow.id ∧ Unused r.externalRef (l.rows.filterMap LedgerRow.externalRef) ∧
      Unused r.reversesLedgerId (l.rows.filterMap LedgerRow.reversesLedgerId) := by
    refine ⟨hid, ?_, ?_⟩
    · intro x hx
      rw [href] at hx
      cases hx
    · intro x hx
      rw [hrev] at hx
      cases hx
  have hfk : ∀ x, r.reversesLedgerId = some x → x ∈ (l.rows ++ [r]).map LedgerRow.id := by
    intro x hx
    rw [hrev] at hx
    cases hx
  unfold Ledger.insert
  rw [dif_pos ⟨hpos, hafter⟩, dif_pos huniq, dif_pos hfk]
  exact ⟨_, rfl⟩

variable {db : Db} {cfg : Settings} {org : String} {amount : ℤ} {principal : Option String} {e : Env}

theorem insertLedger_takes {row : LedgerRow} (hamount : isBigint row.amountUsdc) (hbalance : isBigint row.balanceUsdcAfter)
    (horg : (db.orgs.get? row.orgId).isSome) {l : Ledger} (hl : db.ledger.insert row = .ok l) :
    insertLedger row db = .ok ((), { db with ledger := l }) := by
  unfold insertLedger
  simp only [Tx.bind_run, Tx.require_run, Tx.read_run, if_pos (And.intro hamount hbalance), id_eq, hl, Tx.lift, if_pos horg]
  rfl

variable {now : ℤ} {c : CreditRow} {o : OrgRow} {limit required cost : ℤ}

/-- **The debit goes through** where its checks pass and its ledger id is new. -/
theorem debitCreditLocked_takes {ledgerId : String} {reason : String} (hrow : creditRow org db = some (c, o))
    (hpaused : c.isPaused = false)
    (hlimit : overOrgLimit (effectiveLimit cfg c o.acquisitionSource) (dailyDebitSpend now db.ledger.rows org) amount = false)
    (hprincipal : principalRefuses now org amount principal db = false) (hcovers : amount ≤ c.balanceUsdc)
    (hpos : 0 < amount) (hbig : isBigint c.balanceUsdc) (hid : ledgerId ∉ db.ledger.rows.map LedgerRow.id) :
    ∃ db', debitCreditLocked cfg now ledgerId org amount reason principal db =
      .ok ((true, amount, some ledgerId), db') ∧ db'.outbox = db.outbox := by
  have hb : isBigint (c.balanceUsdc - amount) ∧ isBigint amount := by
    unfold isBigint at hbig ⊢
    omega
  obtain ⟨db₁, hwrite, hledger, horgs, hout⟩ :=
    writeBalance_takes org hb.1 (by omega : 0 ≤ c.balanceUsdc - amount) db
  obtain ⟨l, hl⟩ : ∃ l, db.ledger.insert (debitRow now ledgerId org amount (c.balanceUsdc - amount) reason principal) =
      .ok l := Ledger.insert_takes db.ledger hpos (by simpa [debitRow] using hcovers) hid rfl rfl
  have hknown : (db₁.orgs.get? org).isSome := by
    rw [horgs, (creditRow_some hrow).2]
    rfl
  have hinsert : insertLedger (debitRow now ledgerId org amount (c.balanceUsdc - amount) reason principal) db₁ =
      .ok ((), { db₁ with ledger := l }) := insertLedger_takes hb.2 hb.1 hknown (by rw [hledger]; exact hl)
  refine ⟨{ db₁ with ledger := l }, ?_, hout⟩
  unfold debitCreditLocked writeDebit
  simp only [Tx.bind_run, Tx.read_run, hrow, hpaused, hlimit, hprincipal, Bool.false_eq_true, if_false,
    if_neg (not_lt.2 hcovers), hwrite, hinsert]
  rfl

theorem debitCredit_takes (hrow : creditRow org db = some (c, o)) (hpaused : c.isPaused = false)
    (hlimit : overOrgLimit (effectiveLimit cfg c o.acquisitionSource) (dailyDebitSpend e.now db.ledger.rows org) amount = false)
    (hprincipal : principalRefuses e.now org amount principal db = false) (hcovers : amount ≤ c.balanceUsdc)
    (hpos : 0 < amount) (hbig : isBigint c.balanceUsdc) (hcall : e.fault 0 = false)
    (hid : e.uuid 0 ∉ db.ledger.rows.map LedgerRow.id) (reason : String) :
    (debitCredit cfg e org amount reason principal db).1 = (true, amount) := by
  obtain ⟨db', hrun, -⟩ : ∃ db', debitCreditLocked cfg e.now (e.uuid 0) org amount reason principal db =
      .ok ((true, amount, some (e.uuid 0)), db') ∧ db'.outbox = db.outbox :=
    debitCreditLocked_takes hrow hpaused hlimit hprincipal hcovers hpos hbig hid
  unfold debitCredit
  rw [if_neg (not_le.2 hpos)]
  simp [call, hcall, Tx.commit, hrun]

/-! ## `verify_credit` -/

/-- what the schema and the only writer of the queue guarantee: balances are BIGINT, and a queued charge is positive -/
structure Sound (db : Db) : Prop where
  bigint : ∀ c ∈ db.credits.rows, isBigint c.balanceUsdc
  positive : ∀ r ∈ db.settlements.rows, 0 < r.amountUsdc

theorem outstanding_nonneg (h : Sound db) (now : ℤ) (mine : SettlementRow → Bool) (org : String) :
    0 ≤ outstanding now mine db org := by
  refine List.sum_nonneg ?_
  intro x hx
  obtain ⟨r, hr, rfl⟩ := List.mem_map.1 hx
  exact (h.positive r (List.mem_of_mem_filter hr)).le

theorem principalOutstanding_nonneg (h : Sound db) (now : ℤ) (org : String) (principal : Option String) :
    0 ≤ principalOutstanding now db org principal := by
  unfold principalOutstanding
  cases givenPrincipal principal with
  | none => exact le_refl 0
  | some p => exact outstanding_nonneg h now _ org

theorem fetch_bind_ok {α β : Type} {i : ℕ} {a : α} {f : α → Call β} {b : β} (h : (fetch e i a >>= f) = .ok b) :
    f a = .ok b := by
  obtain ⟨a', ha, hf⟩ := bind_eq_ok h
  unfold fetch at ha
  split_ifs at ha
  cases ha
  exact hf

/-- what an admission by `verify_credit` says of the state -/
structure Cleared (cfg : Settings) (now : ℤ) (org : String) (required : ℤ) (principal : Option String) (db : Db) :
    Prop where
  covered : required + orgOutstanding now db org ≤ (creditRow org db).elim 0 (fun r => r.1.balanceUsdc)
  orgOk : ∀ c o, creditRow org db = some (c, o) → c.isPaused = false ∧
    overOrgLimit (effectiveLimit cfg c o.acquisitionSource) (dailyDebitSpend now db.ledger.rows org)
      (orgOutstanding now db org + required) = false
  principalOk : principalRefuses now org (principalOutstanding now db org principal + required) principal db = false

theorem orgShortfall_none {owed : ℤ} (h : orgShortfall e org limit owed required db = .ok none) :
    overOrgLimit limit (dailyDebitSpend e.now db.ledger.rows org) (owed + required) = false := by
  unfold orgShortfall at h
  split_ifs at h with hlimit
  · simp [overOrgLimit, hlimit]
  · have h := fetch_bind_ok h
    split_ifs at h with hover
    · cases h
    · have : ¬ limit < dailyDebitSpend e.now db.ledger.rows org + (owed + required) := by omega
      simp [overOrgLimit, this]

theorem principalShortfall_none (h : principalShortfall e org required principal db = .ok none) :
    principalRefuses e.now org (principalOutstanding e.now db org principal + required) principal db = false := by
  unfold principalShortfall at h
  unfold principalRefuses
  cases hp : givenPrincipal principal with
  | none => rfl
  | some p =>
    simp only [hp] at h ⊢
    have h := fetch_bind_ok h
    cases hrow : db.principalLimits.get? (org, p) with
    | none => rfl
    | some row =>
      simp only [hrow] at h ⊢
      split_ifs at h with hpaused
      · cases h
      · have h := fetch_bind_ok h
        split_ifs at h with hover
        · cases h
        · have : ¬ row.dailyLimitUsdc < dailyPrincipalDebitSpend e.now db.ledger.rows org p +
              (principalOutstanding e.now db org principal + required) := by omega
          simp [overPrincipalLimit, hpaused, this]

/-- **`verify_credit` checked everything** it reports verified. -/
theorem verifyCredit_verified {P : Type} {r : BillingResult P} (h : verifyCredit cfg e org required principal db = .ok r)
    (hv : r.verified = true) : Cleared cfg e.now org required principal db := by
  have h := fetch_bind_ok h
  split_ifs at h with hpaused
  · cases h
    cases hv
  · have h := fetch_bind_ok h
    split_ifs at h with hshort
    · cases h
      cases hv
    · obtain ⟨error, hover, h⟩ := bind_eq_ok h
      cases error with
      | some text =>
        cases h
        cases hv
      | none =>
        obtain ⟨error, hrefused, h⟩ := bind_eq_ok h
        cases error with
        | some text =>
          cases h
          cases hv
        | none =>
          refine ⟨by omega, ?_, principalShortfall_none hrefused⟩
          intro c o hrow
          rw [hrow] at hpaused hover
          exact ⟨by simpa using hpaused, orgShortfall_none hover⟩

theorem overOrgLimit_mono {spend amount' : ℤ} (hle : amount ≤ amount') (h : overOrgLimit limit spend amount' = false) :
    overOrgLimit limit spend amount = false := by
  simp only [overOrgLimit, Bool.and_eq_false_iff, decide_eq_false_iff_not] at h ⊢
  omega

theorem principalRefuses_mono {amount' : ℤ} (hle : amount ≤ amount')
    (h : principalRefuses now org amount' principal db = false) : principalRefuses now org amount principal db = false := by
  unfold principalRefuses at h ⊢
  cases hp : givenPrincipal principal with
  | none => rfl
  | some p =>
    simp only [hp] at h ⊢
    cases hrow : db.principalLimits.get? (org, p) with
    | none => rfl
    | some row =>
      simp only [hrow, overPrincipalLimit, Bool.or_eq_false_iff, decide_eq_false_iff_not] at h ⊢
      exact ⟨h.1, by omega⟩

/-- **Preflight soundness.** If `verify_credit` admits `org` for `m`, then in that state a debit of any `a ≤ m` by the
same principal succeeds, provided the debit's own database call is not failed and its uuid is new. -/
theorem verify_credit_sound {P : Type} (cfg : Settings) (e e' : Env) (org : String) (m a : ℤ) (reason : String)
    (principal : Option String) (db : Db) (hdb : Sound db) (ham : a ≤ m) (hnow : e'.now = e.now) (hcall : e'.fault 0 = false)
    (hid : e'.uuid 0 ∉ db.ledger.rows.map LedgerRow.id) (r : BillingResult P)
    (hr : verifyCredit cfg e org m principal db = .ok r) (hverified : r.verified = true) :
    (debitCredit cfg e' org a reason principal db).1 = (true, max a 0) := by
  by_cases ha : a ≤ 0
  · unfold debitCredit
    rw [if_pos ha, max_eq_right ha]
  · have hcleared := verifyCredit_verified hr hverified
    have howed : 0 ≤ orgOutstanding e.now db org := outstanding_nonneg hdb e.now _ org
    have hpowed := principalOutstanding_nonneg hdb e.now org principal
    rw [max_eq_left (by omega)]
    cases hrow : creditRow org db with
    | none =>
      -- an empty account clears no positive amount
      have hcovered := hcleared.covered
      rw [hrow, Option.elim_none] at hcovered
      omega
    | some co =>
      obtain ⟨c, o⟩ := co
      have hcovered : m + orgOutstanding e.now db org ≤ c.balanceUsdc := by
        have hcovered := hcleared.covered
        rwa [hrow] at hcovered
      obtain ⟨hpaused, hlimit⟩ := hcleared.orgOk c o hrow
      refine debitCredit_takes hrow hpaused ?_ ?_ (by omega) (by omega) ?_ hcall hid reason
      · rw [hnow]
        exact overOrgLimit_mono (by omega) hlimit
      · rw [hnow]
        exact principalRefuses_mono (by omega) hcleared.principalOk
      · exact hdb.bigint c (Table.mem_of_get? (creditRow_some hrow).1)

/-- an account of 100 with a charge of 10 in the queue -/
def owingDb : Db :=
  { Db.empty with
    orgs := ⟨[⟨"o", "email"⟩], by decide⟩
    credits := ⟨[⟨"o", 100, 0, false⟩], by decide⟩
    settlements := ⟨[⟨"s", "u", "o", "r", .credit, 10, none, none, 0, 5, 0, "", .pending, 0, "", .arr []⟩], by decide⟩ }

theorem owingDb_sound : Sound owingDb where
  bigint := by decide
  positive := by
    intro r hr
    rw [List.mem_singleton.1 hr]
    decide

theorem verify_credit_sound_owing : verifyCredit Settings.default (Env.calm 0 "l") "o" 90 none owingDb =
      .ok ({ verified := true, billingMethod := "credit" } : BillingResult Unit) ∧
    (debitCredit Settings.default (Env.calm 0 "l") "o" 70 "" none owingDb).1 = (true, 70) :=
  ⟨rfl, verify_credit_sound Settings.default (Env.calm 0 "l") (Env.calm 0 "l") "o" 90 70 "" none owingDb owingDb_sound
    (by decide) rfl rfl (by decide) ({ verified := true, billingMethod := "credit" } : BillingResult Unit) rfl rfl⟩

/-- **Queued charges stay positive** in every state the billing subsystem reaches. -/
theorem run_positive (cfg : Settings) (py : Interp) (ops : List Op) {s : Sys}
    (h : ∀ r ∈ s.db.settlements.rows, 0 < r.amountUsdc) :
    ∀ r ∈ (run cfg py s ops).db.settlements.rows, 0 < r.amountUsdc := by
  refine Runs.run_inv (next cfg py) (fun s => ∀ r ∈ s.db.settlements.rows, 0 < r.amountUsdc) ?_ ops h
  intro s op h r hr
  have hget := Table.get?_of_mem hr
  cases step_effect cfg py s op with
  | quiet hq _ =>
    cases hold : s.db.settlements.get? r.id with
    | none => exact (hq.fresh r.id r hget hold).2
    | some r₀ =>
      obtain ⟨r', hr', hsame, -⟩ := hq.kept r.id r₀ hold
      rw [hget] at hr'
      cases hr'
      rw [hsame]
      exact h r₀ (Table.mem_of_get? hold)
  | limited _ hdb _ =>
    rw [hdb] at hr
    exact h r hr
  | debited _ _ _ hf | funded _ _ _ hf | topped _ _ _ _ hf | acted _ _ hf =>
    rw [hf.settlements] at hr
    exact h r hr
  | @settled e i c _ _ _ hs _ =>
    by_cases hid : r.id = c.row.id
    · obtain ⟨r₀, hr₀, -, r', hr', -, hsame⟩ := hs.claim
      rw [← hid, hget] at hr'
      cases hr'
      rw [hsame]
      exact h r₀ (Table.mem_of_get? hr₀)
    · rw [hs.others r.id hid] at hget
      exact h r (Table.mem_of_get? hget)

theorem run_positive_owing : ∃ l, l = (run Settings.default ⟨fun _ => .ok .null, fun _ => ""⟩ ⟨owingDb, []⟩
      [.debitCredit (Env.calm 0 "l") "o" 70 "" none]).db.settlements.rows ∧ ∀ r ∈ l, 0 < r.amountUsdc :=
  ⟨_, rfl, run_positive Settings.default _ _ owingDb_sound.positive⟩

/-! ## `check_delegation_budget` -/

/-- every account belongs to an org: the foreign key of `org_credits` -/
def Accounted (db : Db) : Prop := ∀ c ∈ db.credits.rows, (db.orgs.get? c.orgId).isSome

instance (db : Db) : Decidable (Accounted db) := inferInstanceAs (Decidable (∀ c ∈ db.credits.rows, _))

/-- the refusal only the debit knows: a machine org without a limit of its own would pass the default cap -/
def DefaultCapRefuses (cfg : Settings) (now : ℤ) (org : String) (amount : ℤ) (db : Db) : Prop :=
  ∃ c o, creditRow org db = some (c, o) ∧ isMachineOrg o.acquisitionSource = true ∧ c.spendingLimitUsdc ≤ 0 ∧
    cfg.machineOrgDailySpendLimitUsdc < dailyDebitSpend now db.ledger.rows org + amount

/-- what an admission by `check_delegation_budget` says of the state -/
structure Budgeted (now : ℤ) (org : String) (cost : ℤ) (principal : Option String) (db : Db) : Prop where
  covered : cost ≤ (db.credits.get? org).elim 0 CreditRow.balanceUsdc
  orgOk : ∀ c, db.credits.get? org = some c → c.isPaused = false ∧
    overOrgLimit c.spendingLimitUsdc (dailyDebitSpend now db.ledger.rows org) cost = false
  principalOk : principalRefuses now org cost principal db = false

theorem orgBudgetError_none (h : orgBudgetError e org limit cost db = .ok none) :
    overOrgLimit limit (dailyDebitSpend e.now db.ledger.rows org) cost = false := by
  unfold orgBudgetError at h
  split_ifs at h with hlimit
  · simp [overOrgLimit, hlimit]
  · have h := fetch_bind_ok h
    split_ifs at h with hover
    · cases h
    · simp [overOrgLimit, hover]

theorem principalBudgetError_none (h : principalBudgetError e org cost principal db = .ok none) :
    principalRefuses e.now org cost principal db = false := by
  unfold principalBudgetError at h
  unfold principalRefuses
  cases hp : givenPrincipal principal with
  | none => rfl
  | some p =>
    simp only [hp] at h ⊢
    have h := fetch_bind_ok h
    cases hrow : db.principalLimits.get? (org, p) with
    | none => rfl
    | some row =>
      simp only [hrow] at h ⊢
      split_ifs at h with hpaused
      · cases h
      · have h := fetch_bind_ok h
        split_ifs at h with hover
        · cases h
        · simp [overPrincipalLimit, hpaused, hover]

/-- **`check_delegation_budget` checked everything** but the default cap. -/
theorem checkDelegationBudget_none {dcfg : DelegationSettings} (henabled : dcfg.a2aDelegationBillingEnabled = true)
    (h : checkDelegationBudget dcfg e org cost principal db = .ok none) : Budgeted e.now org cost principal db := by
  unfold checkDelegationBudget at h
  split_ifs at h with hcap
  · cases h
  · have h := fetch_bind_ok h
    by_cases hpaused : (db.credits.get? org).elim false CreditRow.isPaused = true
    · rw [if_pos hpaused] at h
      cases h
    · rw [if_neg hpaused] at h
      by_cases hshort : (db.credits.get? org).elim 0 CreditRow.balanceUsdc < cost
      · rw [if_pos hshort] at h
        cases h
      · rw [if_neg hshort] at h
        obtain ⟨error, hover, h⟩ := bind_eq_ok h
        cases error with
        | some text => cases h
        | none =>
          refine ⟨not_lt.1 hshort, ?_, principalBudgetError_none h⟩
          intro c hrow
          rw [hrow] at hpaused hover
          exact ⟨by simpa using hpaused, orgBudgetError_none hover⟩

/-- the limit in force lets a debit through that the row's own limit admits, the default cap apart -/
theorem effectiveLimit_admits (hrow : creditRow org db = some (c, o))
    (hown : overOrgLimit c.spendingLimitUsdc (dailyDebitSpend now db.ledger.rows org) amount = false) :
    overOrgLimit (effectiveLimit cfg c o.acquisitionSource) (dailyDebitSpend now db.ledger.rows org) amount = false ↔
      ¬ DefaultCapRefuses cfg now org amount db := by
  have hcap := cfg.machineCap_pos
  unfold effectiveLimit
  split_ifs with hdefault
  · have hiff : overOrgLimit cfg.machineOrgDailySpendLimitUsdc (dailyDebitSpend now db.ledger.rows org) amount = false ↔
        ¬ cfg.machineOrgDailySpendLimitUsdc < dailyDebitSpend now db.ledger.rows org + amount := by
      simp [overOrgLimit, hcap]
    rw [hiff, not_iff_not]
    constructor
    · intro hover
      exact ⟨c, o, hrow, by simpa [isMachineOrg] using hdefault.1, hdefault.2, hover⟩
    · rintro ⟨c', o', hrow', -, -, hover⟩
      exact hover
  · refine iff_of_true hown ?_
    rintro ⟨c', o', hrow', hmachine, hlimit, -⟩
    rw [hrow] at hrow'
    cases hrow'
    exact hdefault ⟨by simpa [isMachineOrg] using hmachine, hlimit⟩

theorem fund_takes {delegationId : String} {db₁ : Db} {reason : String} (hpos : 0 < amount) (hcall : e.fault 0 = false)
    (hfresh : db.outbox.get? delegationId = none)
    (hrun : debitCreditLocked cfg e.now (e.uuid 0) org amount reason principal db = .ok ((true, amount, some (e.uuid 0)), db₁))
    (hout : db₁.outbox = db.outbox) (runId : String) :
    (debitCreditWithDelegationRefund cfg e org amount reason delegationId runId principal db).1 = (true, amount) := by
  have hnew : (newOutboxRow e.now delegationId org runId amount (some (e.uuid 0))).id ∉
      db₁.outbox.rows.map OutboxRow.id := by
    rw [hout]
    exact Table.get?_eq_none_iff.1 hfresh
  obtain ⟨outbox, hins⟩ : ∃ t, db₁.outbox.insert? (newOutboxRow e.now delegationId org runId amount (some (e.uuid 0))) =
      some t := by
    unfold Table.insert?
    rw [dif_neg hnew]
    exact ⟨_, rfl⟩
  have hinsert : insertOutbox (newOutboxRow e.now delegationId org runId amount (some (e.uuid 0))) db₁ =
      .ok ((), { db₁ with outbox := outbox }) := by
    unfold insertOutbox
    have hcheck : 0 < (newOutboxRow e.now delegationId org runId amount (some (e.uuid 0))).amountUsdc := hpos
    simp only [Tx.bind_run, Tx.require_run, Tx.read_run, if_pos hcheck, hins]
    rfl
  unfold debitCreditWithDelegationRefund
  rw [if_neg (not_le.2 hpos)]
  simp only [call, hcall, Bool.false_eq_true, if_false, Tx.commit, fundTx, Tx.bind_run, Tx.read_run, hfresh,
    Option.filter_none, hrun, not_true_eq_false, hinsert, Tx.pure_run]

/-- **Delegation preflight soundness, and where it ends.** A delegation `check_delegation_budget` admits is funded in the
same state if and only if nothing is to be debited or the default cap of machine orgs, which it does not look at, leaves
room for the amount. -/
theorem check_delegation_budget_iff (cfg : Settings) (dcfg : DelegationSettings) (e e' : Env) (org : String) (amount : ℤ)
    (reason delegationId runId : String) (principal : Option String) (db : Db)
    (henabled : dcfg.a2aDelegationBillingEnabled = true) (hdb : Sound db) (hfk : Accounted db) (hnow : e'.now = e.now)
    (hcall : e'.fault 0 = false) (hid : e'.uuid 0 ∉ db.ledger.rows.map LedgerRow.id)
    (hfresh : db.outbox.get? delegationId = none)
    (hcheck : checkDelegationBudget dcfg e org amount principal db = .ok none) :
    (debitCreditWithDelegationRefund cfg e' org amount reason delegationId runId principal db).1.1 = true ↔
      amount ≤ 0 ∨ ¬ DefaultCapRefuses cfg e.now org amount db := by
  by_cases hpos : 0 < amount
  · have hbudget := checkDelegationBudget_none henabled hcheck
    cases hc : db.credits.get? org with
    | none =>
      have hcovered := hbudget.covered
      rw [hc, Option.elim_none] at hcovered
      omega
    | some c =>
      have hcovered : amount ≤ c.balanceUsdc := by
        have hcovered := hbudget.covered
        rwa [hc] at hcovered
      obtain ⟨hpaused, hown⟩ := hbudget.orgOk c hc
      have hknown := hfk c (Table.mem_of_get? hc)
      rw [Table.key_of_get? hc] at hknown
      obtain ⟨o, ho⟩ := Option.isSome_iff_exists.1 hknown
      have hrow : creditRow org db = some (c, o) := by simp only [creditRow, hc, ho]
      rw [← effectiveLimit_admits hrow hown, ← hnow]
      constructor
      · intro hfunded
        right
        rcases fund_cases cfg e' org amount reason delegationId runId principal db with ⟨-, hno | hno | ⟨r, hr⟩⟩ |
          ⟨-, hallowed, -⟩
        · omega
        · rw [hno] at hfunded
          cases hfunded
        · rw [hfresh] at hr
          cases hr
        · obtain ⟨c', o', hrow', -, hlimit⟩ := hallowed.orgOk
          rw [hrow] at hrow'
          cases hrow'
          exact hlimit
      · rintro (hle | hlimit)
        · omega
        · have hprincipal := hbudget.principalOk
          rw [← hnow] at hprincipal
          obtain ⟨db₁, hrun, hout⟩ : ∃ db₁, debitCreditLocked cfg e'.now (e'.uuid 0) org amount reason principal db =
              .ok ((true, amount, some (e'.uuid 0)), db₁) ∧ db₁.outbox = db.outbox :=
            debitCreditLocked_takes hrow hpaused hlimit hprincipal hcovered hpos (hdb.bigint c (Table.mem_of_get? hc)) hid
          rw [fund_takes hpos hcall hfresh hrun hout runId]
  · refine iff_of_true ?_ (Or.inl (by omega))
    unfold debitCreditWithDelegationRefund
    rw [if_pos (by omega)]

/-- a machine org on the default cap of 5 USDC, with 9 USDC of credit -/
def machineDb : Db :=
  { Db.empty with
    orgs := ⟨[⟨"m", "x402"⟩], by decide⟩
    credits := ⟨[⟨"m", 9000000, 0, false⟩], by decide⟩ }

theorem machineDb_sound : Sound machineDb where
  bigint := by decide
  positive := by
    intro r hr
    cases hr

theorem check_delegation_budget_iff_machine :
    (debitCreditWithDelegationRefund Settings.default (Env.calm 0 "l") "m" 3000000 "" "d" "r" none machineDb).1.1 = true ↔
      (3000000 : ℤ) ≤ 0 ∨ ¬ DefaultCapRefuses Settings.default 0 "m" 3000000 machineDb :=
  check_delegation_budget_iff Settings.default ⟨true, 10000000, 500⟩ (Env.calm 0 "l") (Env.calm 0 "l") "m" 3000000 "" "d"
    "r" none machineDb rfl machineDb_sound (by decide) rfl rfl (by decide) rfl rfl

/-- **The machine cap is missed.** The preflight admits a delegation of 6 USDC that the debit refuses. -/
theorem machine_cap_missed :
    Sound machineDb ∧ Accounted machineDb ∧ machineDb.outbox.get? "d" = none ∧
    checkDelegationBudget ⟨true, 10000000, 500⟩ (Env.calm 0 "l") "m" 6000000 none machineDb = .ok none ∧
    (debitCreditWithDelegationRefund Settings.default (Env.calm 0 "l") "m" 6000000 "" "d" "r" none machineDb).1.1 =
      false :=
  ⟨machineDb_sound, by decide, rfl, rfl, by decide⟩

end Teardrop.Billing
