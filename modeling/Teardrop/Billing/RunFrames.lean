/-
What the operations of the billing machine leave alone of a run's records: the debits of a run, the usage events, the
charges, and the identity of the rows in the retry queue. A debit carries the reason its caller gives it (`debitsOf`), and a
claim in a worker's memory is a snapshot of a stored row (`ClaimsKept`).
-/
import Teardrop.Billing.SettlementRetry

namespace Teardrop.Billing

open Teardrop.Py

/-! ## Usage events, charges and the queue -/

/-- usage events and charges are as they were, and every row of the queue was there before -/
structure Steady (db db' : Db) : Prop where
  usage : db'.usageEvents = db.usageEvents
  charges : db'.charges = db.charges
  rows : ∀ x r', db'.settlements.get? x = some r' → ∃ r, db.settlements.get? x = some r ∧ SameCharge r r'

variable {db db' : Db} (e : Env) (org : String) (cfg : Settings) (py : Interp) {runId : String}

theorem Steady.of_eq (hu : db'.usageEvents = db.usageEvents) (hc : db'.charges = db.charges)
    (hs : db'.settlements = db.settlements) : Steady db db' :=
  ⟨hu, hc, fun _ r' hr' => ⟨r', hs ▸ hr', SameCharge.refl r'⟩⟩

theorem Steady.refl (db : Db) : Steady db db := Steady.of_eq rfl rfl rfl

theorem call_steady {α : Type} (fault : Bool) {t : Tx Db α} (h : ∀ a db', t db = .ok (a, db') → Steady db db') :
    Steady db (call fault t db).2 := by
  rcases call_cases fault t db with ⟨x, hc⟩ | ⟨a, db', ht, hc⟩
  · rw [hc]; exact Steady.refl db
  · rw [hc]; exact h a db' ht

theorem updateSettlements_steady {hit : SettlementRow → Bool} {status : SettlementStatus}
    {retryCount nextRetryAt : SettlementRow → ℤ} {lastError : SettlementRow → String} {u : Unit}
    (h : updateSettlements hit status retryCount nextRetryAt lastError db = .ok (u, db')) : Steady db db' := by
  obtain ⟨hframe, hget⟩ := updateSettlements_ok h
  refine ⟨by rw [hframe], by rw [hframe], fun x r' hr' => ?_⟩
  rw [hget] at hr'
  obtain ⟨r, hr, rfl⟩ := Option.map_eq_some_iff.1 hr'
  refine ⟨r, hr, ?_⟩
  split_ifs
  · rfl
  · exact SameCharge.refl r

variable {row : LedgerRow} (amount : ℤ) {uuid : ℕ → String}

theorem Posted.steady (h : Posted db db' row) : Steady db db' :=
  Steady.of_eq (by rw [h.rest]) (by rw [h.rest]) h.settlements

theorem Acts.steady {org d : String} (h : Acts db db' org d) : Steady db db' :=
  Steady.of_eq (by rw [h.frame]) (by rw [h.frame]) h.frames.1

theorem Steady.of_topup {now : ℤ} {ledgerId org : String} {amount : ℤ} {reason : String} {externalRef : Option String}
    {db₀ db₁ : Db} {b : ℤ} (h : topup now ledgerId org amount reason externalRef db₀ = .ok (b, db₁))
    (hpre : db₀ = { db with grants := db₀.grants, credentials := db₀.credentials, stripeEvents := db₀.stripeEvents, usdcTopups := db₀.usdcTopups })
    (hpost : db' = { db₁ with provisioning := db'.provisioning }) : Steady db db' := by
  have hrest : db₁ = { db₀ with credits := db₁.credits, ledger := db₁.ledger } := (topup_ok h).2.rest
  refine Steady.of_eq ?_ ?_ ?_
  · rw [hpost, hrest, hpre]
  · rw [hpost, hrest, hpre]
  · rw [hpost, hrest, hpre]

theorem adminTopupCredit_steady (reason : String) (externalRef : Option String) (db : Db) :
    Steady db (adminTopupCredit e org amount reason externalRef db).2 := by
  rw [adminTopupCredit_snd]
  exact call_steady (e.fault 0) (fun a db' h => Steady.of_topup h rfl rfl)

theorem recordOnboardingSettlement_steady (secret : FreshSecret) (org : String) (amount : ℤ)
    (externalRef payerAddress : String) (chainId : ℤ) (settlementTx : String) (db : Db) :
    Steady db (recordOnboardingSettlement e secret org amount externalRef payerAddress chainId settlementTx db).2 := by
  unfold recordOnboardingSettlement
  split_ifs
  · exact Steady.refl db
  · exact Steady.refl db
  refine call_steady (e.fault 0) (fun a db' h => ?_)
  rcases onboardingTx_ok h with ⟨-, hcred⟩ | ⟨credentials, b, db₁, -, htop, hprov⟩
  · refine Steady.of_eq ?_ ?_ ?_ <;> rw [hcred]
  · exact Steady.of_topup htop rfl hprov

theorem grantOnboardingCredit_steady (db : Db) : Steady db (grantOnboardingCredit e org amount db).2 := by
  unfold grantOnboardingCredit
  split_ifs
  · exact Steady.refl db
  refine call_steady (e.fault 0) (fun a db' h => ?_)
  rcases grantTx_ok h with ⟨-, -, rfl⟩ | ⟨grants, b, -, -, htop⟩
  · exact Steady.refl db'
  · exact Steady.of_topup htop rfl rfl

theorem handleStripeWebhook_steady (ev : StripeEvent) (db : Db) : Steady db (handleStripeWebhook e ev db).2 := by
  rcases handleStripeWebhook_cases e ev db with h | ⟨org, u, db', h, a, ht⟩
  · rw [h]; exact Steady.refl db
  · rw [h]
    rcases stripeTx_ok ht with ⟨-, -, rfl⟩ | ⟨guards, b, -, -, htop⟩
    · exact Steady.refl db'
    · exact Steady.of_topup htop rfl rfl

theorem creditUsdcTopup_steady (txHash : String) (db : Db) : Steady db (creditUsdcTopup e org amount txHash db).2 := by
  refine call_steady (e.fault 0) (fun a db' h => ?_)
  rcases usdcTx_ok h with ⟨-, -, rfl⟩ | ⟨guards, b, -, -, htop⟩
  · exact Steady.refl db'
  · exact Steady.of_topup htop rfl rfl

theorem debitCredit_steady (e : Env) (org : String) (amount : ℤ) (reason : String) (principal : Option String) (db : Db) :
    Steady db (debitCredit cfg e org amount reason principal db).2 := by
  rcases debitCredit_cases cfg e org amount reason principal db with h | ⟨-, -, hp⟩
  · rw [h]; exact Steady.refl db
  · exact hp.steady

theorem fund_steady (e : Env) (org : String) (amount : ℤ) (reason d runId : String) (principal : Option String) (db : Db) :
    Steady db (debitCreditWithDelegationRefund cfg e org amount reason d runId principal db).2 := by
  rcases fund_cases cfg e org amount reason d runId principal db with ⟨h, -⟩ | ⟨-, -, hf⟩
  · rw [h]; exact Steady.refl db
  · obtain ⟨db₁, hp, hrest⟩ := hf.posted
    refine Steady.of_eq ?_ ?_ hf.frame.1
    · rw [hrest]; exact hp.steady.usage
    · rw [hrest]; exact hp.steady.charges

theorem reset_steady (id : String) (db : Db) : Steady db (resetExhaustedSettlement e id db).2 := by
  unfold resetExhaustedSettlement
  split
  · exact Steady.refl db
  · split_ifs
    · exact Steady.refl db
    · exact call_steady (e.fault 0) (fun a db' h => updateSettlements_steady h)

theorem rearm_steady (cap : ℤ) (db : Db) : Steady db (rearmExhaustedCreditSettlements e org cap db).2 := by
  unfold rearmExhaustedCreditSettlements
  split_ifs
  · exact Steady.refl db
  · have hcall : Steady db (call (e.fault 0) (rearmStatement e.now (rearmIds e.now org cap db)) db).2 :=
      call_steady (e.fault 0) (fun a db' h => updateSettlements_steady h)
    split
    · next heq => rw [heq] at hcall; exact hcall
    · next heq => rw [heq] at hcall; exact hcall

/-- an operation that neither settles nor enqueues -/
def Op.isSteady : Op → Bool
  | .settleClaimed _ _ => false
  | .enqueue _ _ _ _ _ _ _ _ _ _ => false
  | _ => true

/-- **Only `settleClaimed` and `enqueue` write a run's records.** -/
theorem next_steady (s : Sys) {op : Op} (h : op.isSteady = true) : Steady s.db (next cfg py s op).db := by
  cases op with
  | debitCredit e org amount reason principal => exact debitCredit_steady cfg e org amount reason principal s.db
  | fundDelegation e org amount reason d runId principal => exact fund_steady cfg e org amount reason d runId principal s.db
  | adminTopup e org amount reason externalRef => exact adminTopupCredit_steady e org amount reason externalRef s.db
  | recordOnboarding e secret org amount externalRef payer chainId settlementTx =>
    exact recordOnboardingSettlement_steady e secret org amount externalRef payer chainId settlementTx s.db
  | grantOnboarding e org amount => exact grantOnboardingCredit_steady e org amount s.db
  | stripeWebhook e event => exact handleStripeWebhook_steady e event s.db
  | creditUsdcTopup e org amount txHash => exact creditUsdcTopup_steady e org amount txHash s.db
  | markPossiblyDelivered e org d charge => exact (mark_acts cfg e org d charge s.db).1.steady
  | confirmDelivery e org d settlementTx => exact (confirm_acts e org d settlementTx s.db).1.steady
  | failDelivery e org d reason => exact (fail_acts e org d reason s.db).1.steady
  | requestRefund e org d => exact (request_acts e org d s.db).steady
  | cancelRefund e org d => exact (cancel_acts e org d s.db).steady
  | completeRefund e org d => exact (complete_acts e org d s.db).1.steady
  | recordEvent e row =>
    rcases call_cases (e.fault 0) (insertEvent row) s.db with ⟨x, hc⟩ | ⟨a, db', ht, hc⟩
    · simp only [next, step, recordDelegationEvent, hc, reportFalse]
      exact Steady.refl s.db
    · have hframe := insertEvent_ok ht
      simp only [next, step, recordDelegationEvent, hc, reportFalse]
      refine Steady.of_eq ?_ ?_ ?_ <;> rw [hframe]
  | enqueue e usageEventId org runId method amount paymentPayload principal chargeId allocations => cases h
  | claimSettlements e locked =>
    rcases call_cases (e.fault 0) (claimTx e.now locked) s.db with ⟨x, hc⟩ | ⟨rows, db', ht, hc⟩
    · simp only [next, step, hc]
      exact Steady.refl s.db
    · simp only [next, step, hc]
      have ht := Tx.read_bind_ok ht
      obtain ⟨u, db₁, hup, ht⟩ := Tx.bind_ok ht
      cases Tx.pure_ok ht
      exact updateSettlements_steady hup
  | settleClaimed e i => cases h
  | recordFailure e i =>
    simp only [next, step]
    split
    · exact Steady.refl s.db
    · split
      · exact Steady.refl s.db
      · refine call_steady (e.fault 0) (fun a db' h => ?_)
        unfold failureTx at h
        split_ifs at h <;> exact updateSettlements_steady h
  | crash i => exact Steady.refl s.db
  | resetExhausted e id => exact reset_steady e id s.db
  | rearmExhausted e org cap => exact rearm_steady e org cap s.db
  | createOrg row =>
    simp only [next, step, createOrg]
    split <;> exact Steady.of_eq rfl rfl rfl
  | openAccount org limit =>
    simp only [next, step, openAccount]
    split_ifs
    · exact Steady.refl s.db
    · split <;> exact Steady.of_eq rfl rfl rfl
  | updateSpendingConfig org limit paused =>
    simp only [next, step, updateOrgSpendingConfig]
    split_ifs <;> exact Steady.of_eq rfl rfl rfl
  | upsertPrincipalLimit row =>
    have hframe := upsertPrincipalSpendLimit_frame row s.db
    simp only [next, step]
    refine Steady.of_eq ?_ ?_ ?_ <;> rw [hframe]
  | deletePrincipalLimit org principal => exact Steady.of_eq rfl rfl rfl

/-! ## A settled attempt -/

/-- the usage event after a settlement -/
def settledUsage (row : SettlementRow) (u : UsageRow) : UsageRow :=
  if u.id = row.usageEventId ∧ u.settlementStatus ≠ "settled" then
    { u with costUsdc := row.amountUsdc, settlementTx := "", settlementStatus := "settled" }
  else u

/-- the charge after a settlement -/
def settledCharge (row : SettlementRow) (c : ChargeRow) : ChargeRow :=
  if row.chargeId ≠ "" ∧ c.id = row.chargeId ∧ c.status = .failed then
    { c with status := .settled, settledAmountUsdc := max 0 row.amountUsdc }
  else c

/-- what a settlement writes of usage events and charges -/
structure Recorded (row : SettlementRow) (db db' : Db) : Prop where
  usage : ∀ x, db'.usageEvents.get? x = (db.usageEvents.get? x).map (settledUsage row)
  charges : ∀ x, db'.charges.get? x = (db.charges.get? x).map (settledCharge row)

theorem completeSettlement_recorded {cfg : Settings} {py : Interp} {row : SettlementRow} {retryCount : ℤ} {u : Unit}
    (h : completeSettlement cfg py uuid row retryCount row.amountUsdc db = .ok (u, db')) : Recorded row db db' := by
  obtain ⟨items, -, h⟩ := Tx.lift_bind_ok h
  obtain ⟨_, db₂, hpay, h⟩ := Tx.bind_ok h
  obtain ⟨_, db₃, hup, h⟩ := Tx.bind_ok h
  have hrest₂ := (payAllocations_ok items hpay).1
  have hrest₃ := (updateSettlements_ok hup).1
  have husage : db₃.usageEvents = db.usageEvents := by rw [hrest₃, hrest₂]
  have hcharges : db₃.charges = db.charges := by rw [hrest₃, hrest₂]
  split_ifs at h with hcharge
  · cases h
    refine ⟨fun x => ?_, fun x => ?_⟩
    · simp only [Table.get?_update, husage]
      rfl
    · simp only [Table.get?_update, hcharges]
      refine congrArg (fun f => Option.map f (db.charges.get? x)) (funext fun c => ?_)
      unfold settledCharge
      by_cases hhit : c.id = row.chargeId ∧ c.status = .failed
      · rw [if_pos hhit, if_pos ⟨hcharge, hhit⟩]
      · rw [if_neg hhit, if_neg (fun h => hhit h.2)]
  · cases Tx.pure_ok h
    refine ⟨fun x => ?_, fun x => ?_⟩
    · simp only [Table.get?_update, husage]
      rfl
    · have hid : settledCharge row = id := by
        funext c
        simp [settledCharge, hcharge]
      rw [hid, Option.map_id, hcharges]
      rfl

theorem settleTx_recorded {cfg : Settings} {py : Interp} {now : ℤ} {row : SettlementRow} {retryCount : ℤ} {n : ℤ}
    (h : settleTx cfg py now uuid row retryCount db = .ok ((true, n), db')) : Recorded row db db' := by
  have h := Tx.read_bind_ok h
  obtain ⟨-, h⟩ := Tx.require_bind_ok h
  obtain ⟨⟨s, a, l⟩, db₁, hd, h⟩ := Tx.bind_ok h
  rcases debitCreditLocked_ok hd with hr | ⟨hr, -, hp⟩
  · cases hr
    cases Tx.pure_ok h
  · cases hr
    obtain ⟨_, db₂, hdone, h⟩ := Tx.bind_ok h
    cases Tx.pure_ok h
    have hrec := completeSettlement_recorded hdone
    have hsteady : Steady db db₁ := hp.steady
    exact ⟨fun x => by rw [hrec.usage, hsteady.usage], fun x => by rw [hrec.charges, hsteady.charges]⟩

/-- **An attempt** leaves the store as it was, or settles the claim with all of its records. -/
theorem next_settle (s : Sys) (e : Env) (i : ℕ) :
    ((next cfg py s (.settleClaimed e i)).db = s.db) ∨
      ∃ c, s.claims[i]? = some c ∧ SettledBy cfg py e.now e.uuid c.row s.db (next cfg py s (.settleClaimed e i)).db ∧
        Recorded c.row s.db (next cfg py s (.settleClaimed e i)).db := by
  simp only [next, step]
  cases hi : s.claims[i]? with
  | none => exact Or.inl rfl
  | some c =>
    simp only
    split_ifs with hfailed
    · exact Or.inl rfl
    unfold attempt
    split_ifs with hmethod
    · exact Or.inl rfl
    rcases call_cases (e.fault 0) (settleTx cfg py e.now e.uuid c.row (c.row.retryCount + 1)) s.db with
      ⟨x, hc⟩ | ⟨⟨b, n⟩, db', ht, hc⟩
    · rw [hc]
      refine Or.inl ?_
      split
      · next heq => cases heq
      · next heq => cases heq
      · next heq => cases heq; rfl
      · next heq => cases heq; rfl
    · rw [hc]
      rcases settleTx_ok ht with ⟨hb, hdb⟩ | ⟨hb, hsettled⟩
      · cases hb
        exact Or.inl hdb
      · cases hb
        exact Or.inr ⟨c, rfl, hsettled, settleTx_recorded ht⟩

/-! ## A new row in the queue -/

/-- `enqueue_failed_settlement` changes nothing, or inserts the row of the charge it was given -/
theorem enqueue_cases (e : Env) (usageEventId org runId : String) (method : Method) (amount : ℤ)
    (paymentPayload principal : Option String) (chargeId : String) (allocations : List Json) (db : Db) :
    enqueueFailedSettlement cfg e usageEventId org runId method amount paymentPayload principal chargeId allocations db = db ∨
      ∃ row settlements, db.settlements.insert? row = some settlements ∧
        enqueueFailedSettlement cfg e usageEventId org runId method amount paymentPayload principal chargeId allocations
          db = { db with settlements := settlements } ∧
        row.usageEventId = usageEventId ∧ row.orgId = org ∧ row.runId = runId ∧ row.amountUsdc = amount ∧
        row.chargeId = chargeId ∧ row.status = .pending := by
  unfold enqueueFailedSettlement
  split_ifs
  · exact Or.inl rfl
  simp only
  generalize hrow : SettlementRow.mk _ _ _ _ _ _ _ _ _ _ _ _ _ _ _ _ = row
  have hfields : row.usageEventId = usageEventId ∧ row.orgId = org ∧ row.runId = runId ∧ row.amountUsdc = amount ∧
      row.chargeId = chargeId ∧ row.status = .pending := by
    rw [← hrow]
    exact ⟨rfl, rfl, rfl, rfl, rfl, rfl⟩
  generalize ht : (Tx.require (isBigint amount) (.pg .numericOutOfRange) >>= _ : Tx Db Unit) = t
  rcases call_cases (e.fault 0) t db with ⟨x, hc⟩ | ⟨a, db', hok, hc⟩
  · rw [hc]; exact Or.inl rfl
  · rw [hc]
    subst ht
    obtain ⟨-, hok⟩ := Tx.require_bind_ok hok
    have hok := Tx.read_bind_ok hok
    cases hins : db.settlements.insert? row with
    | none => simp only [hins] at hok; cases hok
    | some settlements =>
      simp only [hins] at hok
      cases hok
      exact Or.inr ⟨row, settlements, hins, rfl, hfields⟩

/-! ## Debits -/

/-- the debits of a run -/
def debitsOf (runId : String) (db : Db) : List LedgerRow :=
  db.ledger.rows.filter (fun r => r.operation = .debit && r.reason = "run:" ++ runId)

theorem debitsOf_moved (h : Moved db db' row) :
    debitsOf runId db' = debitsOf runId db ++
      (if row.operation = .debit ∧ row.reason = "run:" ++ runId then [row] else []) := by
  unfold debitsOf
  rw [h.rows, List.filter_append]
  congr 1
  by_cases hrow : row.operation = .debit ∧ row.reason = "run:" ++ runId
  · rw [if_pos hrow, List.filter_cons_of_pos (by simp [hrow.1, hrow.2]), List.filter_nil]
  · rw [if_neg hrow, List.filter_cons_of_neg (by simpa using hrow), List.filter_nil]

theorem debitsOf_unmoved (h : Unmoved db db') : debitsOf runId db' = debitsOf runId db := by
  unfold debitsOf
  rw [h.ledger]

theorem debitsOf_topup (h : Moved db db' row) (hop : row.operation = .topup) : debitsOf runId db' = debitsOf runId db := by
  rw [debitsOf_moved h, if_neg (by rw [hop]; simp), List.append_nil]

theorem debitsOf_pays {r : OutboxRow} {c : Credit} (h : Pays db db' r c) : debitsOf runId db' = debitsOf runId db := by
  cases c with
  | nothing => exact debitsOf_unmoved h
  | adjustment _ | refund _ =>
    obtain ⟨row, hm, hop, -⟩ := h
    exact debitsOf_topup hm hop

/-- the reason an operation debits with -/
def Op.debitReason : Op → Option String
  | .debitCredit _ _ _ reason _ => some reason
  | .fundDelegation _ _ _ reason _ _ _ => some reason
  | _ => none

theorem next_debitsOf (s : Sys) {op : Op} (hreason : op.debitReason ≠ some ("run:" ++ runId))
    (hsettle : ∀ e i, op ≠ .settleClaimed e i) : debitsOf runId (next cfg py s op).db = debitsOf runId s.db := by
  cases step_effect cfg py s op with
  | quiet hq _ => exact debitsOf_unmoved hq.unmoved
  | limited _ hdb _ =>
    unfold debitsOf
    rw [hdb]
  | debited hop _ hp _ =>
    subst hop
    rw [debitsOf_moved hp.toMoved, if_neg ?_, List.append_nil]
    rintro ⟨-, heq⟩
    exact hreason (congrArg some heq)
  | funded hop _ hf _ =>
    obtain ⟨db₁, hp, hrest⟩ := hf.posted
    have hm : Moved s.db (next cfg py s op).db _ := hp.toMoved.congr rfl rfl (by rw [hrest]) (by rw [hrest])
    subst hop
    rw [debitsOf_moved hm, if_neg ?_, List.append_nil]
    rintro ⟨-, heq⟩
    exact hreason (congrArg some heq)
  | topped _ _ _ ht _ =>
    rcases ht.money with hu | ⟨row, hm, hop, -⟩
    · exact debitsOf_unmoved hu
    · exact debitsOf_topup hm hop
  | acted _ ha _ =>
    cases ha.act with
    | idle _ hu => exact debitsOf_unmoved hu
    | step _ _ _ hpay => exact debitsOf_pays hpay
    | paid _ _ _ _ _ _ hu => exact debitsOf_unmoved hu
  | settled hop _ _ _ _ => exact absurd hop (hsettle _ _)

/-! ## Claims -/

/-- every claim is a snapshot of a stored charge -/
def ClaimsKept (s : Sys) : Prop := ∀ c ∈ s.claims, ∃ r, s.db.settlements.get? c.row.id = some r ∧ SameCharge r c.row

theorem ClaimsKept.keep {s s' : Sys} (h : ClaimsKept s)
    (hkept : ∀ x r, s.db.settlements.get? x = some r → ∃ r', s'.db.settlements.get? x = some r' ∧ SameCharge r r')
    (hclaims : ClaimsFrom s s') : ClaimsKept s' := by
  intro c hc
  rcases hclaims c hc with ⟨c₀, hc₀, hrow⟩ | hsnap
  · obtain ⟨r, hr, hsame⟩ := h c₀ hc₀
    obtain ⟨r', hr', hsame'⟩ := hkept _ r hr
    rw [hrow] at hr' hsame
    exact ⟨r', hr', hsame'.symm.trans hsame⟩
  · exact hsnap

theorem ClaimsKept.frame {s s' : Sys} (h : ClaimsKept s) (hf : SettlementFrame s s') : ClaimsKept s' :=
  h.keep (fun x r hr => ⟨r, by rw [hf.settlements]; exact hr, SameCharge.refl r⟩) (ClaimsFrom.of_eq hf.claims)

theorem next_claimsKept {s : Sys} (op : Op) (h : ClaimsKept s) : ClaimsKept (next cfg py s op) := by
  cases step_effect cfg py s op with
  | quiet hq hclaims =>
    refine h.keep (fun x r hr => ?_) hclaims
    obtain ⟨r', hr', hsame, -⟩ := hq.kept x r hr
    exact ⟨r', hr', hsame⟩
  | limited _ hdb hclaims => exact h.frame ⟨by rw [hdb], by rw [hdb], hclaims⟩
  | debited _ _ _ hf | funded _ _ _ hf | topped _ _ _ _ hf | acted _ _ hf => exact h.frame hf
  | @settled e i c _ hi _ hs hclaims =>
    refine h.keep (fun x r hr => ?_) (fun c' hc' => Or.inl ⟨c', List.mem_of_mem_eraseIdx (hclaims ▸ hc'), rfl⟩)
    obtain ⟨r₀, hr₀, -, r', hr', -, hsame⟩ := hs.claim
    by_cases hx : x = c.row.id
    · subst hx
      rw [hr] at hr₀
      cases hr₀
      exact ⟨r', hr', hsame⟩
    · exact ⟨r, by rw [hs.others x hx]; exact hr, SameCharge.refl r⟩

end Teardrop.Billing
