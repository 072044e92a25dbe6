/-
Conservation of credit over whole runs of the billing machine.

`step_money`: a step moves nothing or posts exactly one ledger row together with its org's balance. Read as an account
book the machine therefore only makes the moves of `Core.Book`, and every state reached from an empty ledger is
balanced. A step that reports failure moves nothing (`step_failure`).
-/
import Teardrop.Billing.Machine

namespace Teardrop.Billing

open Teardrop.Py

/-! ## One step -/

theorem Effect.money {cfg : Settings} {py : Interp} {s s' : Sys} {op : Op} (h : Effect cfg py s s' op) :
    Unmoved s.db s'.db ∨ ∃ row, Moved s.db s'.db row := by
  cases h with
  | quiet hq _ => exact .inl hq.unmoved
  | limited _ hdb _ => exact .inl (Unmoved.of_eq (by rw [hdb]) (by rw [hdb]))
  | debited _ _ hp _ => exact .inr ⟨_, hp.toMoved⟩
  | funded _ _ hf _ =>
    obtain ⟨db₁, hp, hrest⟩ := hf.posted
    exact .inr ⟨_, hp.reframe hrest⟩
  | topped _ _ _ ht _ =>
    rcases ht.money with h | ⟨row, h, -⟩
    · exact .inl h
    · exact .inr ⟨row, h⟩
  | acted _ ha _ =>
    cases ha.act with
    | idle _ hm => exact .inl hm
    | paid _ _ _ _ _ _ hm => exact .inl hm
    | @step r r' c _ _ _ hpays =>
      cases c with
      | nothing => exact .inl hpays
      | adjustment n => obtain ⟨row, hm, -⟩ := hpays; exact .inr ⟨row, hm⟩
      | refund n => obtain ⟨row, hm, -⟩ := hpays; exact .inr ⟨row, hm⟩
  | settled _ _ _ hs _ => exact .inr ⟨_, hs.debit⟩

/-- **A step moves nothing or posts one row.** -/
theorem step_money (cfg : Settings) (py : Interp) (s : Sys) (op : Op) :
    Unmoved s.db (next cfg py s op).db ∨ ∃ row, Moved s.db (next cfg py s op).db row :=
  (step_effect cfg py s op).money

theorem step_move (cfg : Settings) (py : Interp) (s : Sys) (op : Op) :
    Book.Move (book s.db) (book (next cfg py s op).db) := by
  rcases step_money cfg py s op with h | ⟨row, h⟩
  · exact .inl h.still
  · exact .inr ⟨row.entry, h.posts⟩

theorem reportOf_failure {b : Bool} (h : reportOf b = .failure) : b = false := by
  cases b with
  | false => rfl
  | true => cases h

theorem reportCall_failure {α : Type} {good : α → Bool} {r : Call α} (h : reportCall good r = .failure) :
    (∃ x, r = .error x) ∨ ∃ a, r = .ok a ∧ good a = false := by
  cases r with
  | error x => exact .inl ⟨x, rfl⟩
  | ok a => exact .inr ⟨a, rfl, reportOf_failure h⟩

theorem reportCall_raised {α : Type} {r : Call α} (h : reportCall (fun _ => true) r = .failure) : ∃ x, r = .error x := by
  rcases reportCall_failure h with h | ⟨a, -, ha⟩
  · exact h
  · cases ha

theorem creditUsdcTopup_failure {e : Env} {org : String} {amount : ℤ} {txHash : String} {db : Db}
    (h : reportCall Option.isSome (creditUsdcTopup e org amount txHash db).1 = .failure) :
    (creditUsdcTopup e org amount txHash db).2 = db := by
  rcases call_cases (e.fault 0) (usdcTx e.now (e.uuid 0) org amount txHash) db with ⟨x, hc⟩ | ⟨a, db', ht, hc⟩
  · rw [creditUsdcTopup, hc]
  · rw [creditUsdcTopup, hc] at h ⊢
    have hnone : a.isSome = false := reportOf_failure h
    have ht := Tx.read_bind_ok ht
    obtain ⟨guards, -, ht⟩ := Tx.lift_bind_ok ht
    cases guards with
    | none => cases Tx.pure_ok ht; rfl
    | some guards =>
      have ht := Tx.write_bind_ok ht
      obtain ⟨b, db₂, -, ht⟩ := Tx.bind_ok ht
      cases Tx.pure_ok ht
      cases hnone

/-- **A reported failure moved nothing.** -/
theorem step_failure (cfg : Settings) (py : Interp) (s : Sys) (op : Op) (h : (step cfg py s op).2 = .failure) :
    Unmoved s.db (next cfg py s op).db := by
  have same : ∀ {db' : Db}, db' = s.db → Unmoved s.db db' := fun hdb => hdb ▸ Unmoved.refl s.db
  cases op with
  | debitCredit e org amount reason principal =>
    rcases debitCredit_cases cfg e org amount reason principal s.db with hdb | ⟨hr, -⟩
    · exact same hdb
    · have := reportOf_failure h
      rw [hr] at this
      cases this
  | fundDelegation e org amount reason d runId principal =>
    rcases fund_cases cfg e org amount reason d runId principal s.db with ⟨hdb, -⟩ | ⟨hr, -⟩
    · exact same hdb
    · have := reportOf_failure h
      rw [hr] at this
      cases this
  | adminTopup e org amount reason externalRef =>
    obtain ⟨x, hx⟩ := reportCall_raised h
    exact same (adminTopupCredit_error hx)
  | recordOnboarding e secret org amount externalRef payer chainId settlementTx =>
    obtain ⟨x, hx⟩ := reportCall_raised h
    exact same (recordOnboardingSettlement_error hx)
  | grantOnboarding e org amount =>
    obtain ⟨x, hx⟩ := reportCall_raised h
    exact same (grantOnboardingCredit_error hx)
  | stripeWebhook e event =>
    obtain ⟨x, hx⟩ := reportCall_raised h
    exact same (handleStripeWebhook_error hx)
  | creditUsdcTopup e org amount txHash => exact same (creditUsdcTopup_failure h)
  | markPossiblyDelivered e org d charge => exact same ((mark_acts cfg e org d charge s.db).2 (reportOf_failure h))
  | confirmDelivery e org d settlementTx =>
    exact same ((confirm_acts e org d settlementTx s.db).2 (reportOf_failure h))
  | failDelivery e org d reason => exact same ((fail_acts e org d reason s.db).2 (reportOf_failure h))
  | requestRefund e org d | cancelRefund e org d => exact statement_unmoved e org d _ _ _ _ s.db
  | completeRefund e org d => exact same ((complete_acts e org d s.db).2 (reportOf_failure h))
  | recordEvent e row => exact (recordDelegationEvent_aside e row s.db).unmoved
  | settleClaimed e i =>
    cases hi : s.claims[i]? with
    | none => exact same (by simp [next, step, hi])
    | some c =>
      by_cases hfailed : c.failed.isSome
      · exact same (by simp [next, step, hi, hfailed])
      · have hstep : step cfg py s (.settleClaimed e i) =
            (⟨(attempt cfg py e c s.db).1, putClaim s.claims i (attempt cfg py e c s.db).2.1⟩,
              (attempt cfg py e c s.db).2.2) := by
          simp [step, hi, hfailed]
        rcases attempt_cases cfg py e c s.db with ⟨hdb, -⟩ | ⟨-, -, -, hr⟩
        · exact same (by rw [next, hstep]; exact hdb)
        · rw [hstep] at h
          rw [hr] at h
          cases h
  | enqueue e usageEventId org runId method amount paymentPayload principal chargeId allocations =>
    exact (enqueue_queue cfg e usageEventId org runId method amount paymentPayload principal chargeId allocations
      s.db).unmoved
  | claimSettlements e locked =>
    rcases call_cases (e.fault 0) (claimTx e.now locked) s.db with ⟨x, hc⟩ | ⟨rows, db', -, hc⟩
    · exact same (by simp [next, step, hc])
    · simp [step, hc] at h
  | recordFailure e i =>
    cases hi : s.claims[i]? with
    | none => exact same (by simp [next, step, hi])
    | some c =>
      cases hfailed : c.failed with
      | none => exact same (by simp [next, step, hi, hfailed])
      | some error => simp [step, hi, hfailed] at h
  | crash _ | rearmExhausted _ _ _ | createOrg _ | openAccount _ _ | upsertPrincipalLimit _ => cases h
  | resetExhausted e id => exact (reset_queue e id s.db).unmoved
  | updateSpendingConfig _ _ _ | deletePrincipalLimit _ _ => cases h

/-! ## Whole runs -/

/-- the sum of an org's ledger amounts under one operation -/
def sumOf (operation : Operation) (rows : List LedgerRow) (org : String) : ℤ :=
  ((rows.filter (fun r => r.orgId = org && r.operation = operation)).map LedgerRow.amountUsdc).sum

theorem total_entries (rows : List LedgerRow) (org : String) :
    Book.total (rows.map LedgerRow.entry) org = sumOf .topup rows org - sumOf .debit rows org := by
  induction rows with
  | nil => rfl
  | cons r rows ih =>
    unfold Book.total sumOf at ih ⊢
    by_cases horg : r.orgId = org
    · cases hop : r.operation with
      | topup => simp [LedgerRow.entry, LedgerRow.delta, horg, hop] at ih ⊢; omega
      | debit => simp [LedgerRow.entry, LedgerRow.delta, horg, hop] at ih ⊢; omega
    · simpa [LedgerRow.entry, horg] using ih

theorem rows_next (cfg : Settings) (py : Interp) (s : Sys) (op : Op) :
    (next cfg py s op).db.ledger.rows = s.db.ledger.rows ++ written cfg py s op := by
  rcases step_money cfg py s op with h | ⟨row, h⟩
  · rw [written_of_unmoved h, h.ledger, List.append_nil]
  · rw [written_of_moved h, h.rows]

theorem written_after {cfg : Settings} {py : Interp} {s : Sys} {op : Op} {row : LedgerRow}
    (h : row ∈ written cfg py s op) : balance (next cfg py s op).db row.orgId = row.balanceUsdcAfter := by
  rcases step_money cfg py s op with hs | ⟨x, hm⟩
  · rw [written_of_unmoved hs] at h
    cases h
  · rw [written_of_moved hm, List.mem_singleton] at h
    subst h
    exact hm.posts.bal

/-- every ledger row of a run that started with an empty ledger was written by one of its operations -/
theorem rows_collect (cfg : Settings) (py : Interp) (s : Sys) (ops : List Op) : (run cfg py s ops).db.ledger.rows =
      s.db.ledger.rows ++ Runs.collect (next cfg py) (written cfg py) s ops := by
  refine Runs.history_rule (next cfg py)
    (fun s' ops => s'.db.ledger.rows = s.db.ledger.rows ++ Runs.collect (next cfg py) (written cfg py) s ops)
    (by simp) ?_ ops
  intro ops op ih
  rw [Runs.collect_snoc, ← List.append_assoc, ← ih]
  exact rows_next cfg py _ op

theorem run_balanced (cfg : Settings) (py : Interp) {s : Sys} (h : Book.Balanced (book s.db)) (ops : List Op) :
    Book.Balanced (book (run cfg py s ops).db) :=
  Runs.run_inv (next cfg py) (fun s => Book.Balanced (book s.db)) (fun s op hs => hs.move (step_move cfg py s op)) ops h

/-- **Ledger conservation.** From an empty ledger, after any interleaving of operations: for every org the balance is
non-negative and is its top-ups minus its debits; the ledger consists of what the operations of the run wrote, and each
row written records the balance right after the operation that wrote it; an operation that reported failure changed no
balance and no ledger row. -/
theorem ledger_conservation (cfg : Settings) (py : Interp) (s : Sys) (hledger : s.db.ledger.rows = [])
    (hbalance : ∀ org, balance s.db org = 0) (ops : List Op) :
    (∀ org, 0 ≤ balance (run cfg py s ops).db org ∧ balance (run cfg py s ops).db org =
        sumOf .topup (run cfg py s ops).db.ledger.rows org - sumOf .debit (run cfg py s ops).db.ledger.rows org) ∧
    (run cfg py s ops).db.ledger.rows = Runs.collect (next cfg py) (written cfg py) s ops ∧
    (∀ before op after, ops = before ++ op :: after → (∀ row ∈ written cfg py (run cfg py s before) op,
        balance (run cfg py s (before ++ [op])).db row.orgId = row.balanceUsdcAfter) ∧
      ((step cfg py (run cfg py s before) op).2 = .failure →
        (run cfg py s (before ++ [op])).db.ledger = (run cfg py s before).db.ledger ∧
        ∀ org, balance (run cfg py s (before ++ [op])).db org = balance (run cfg py s before).db org)) := by
  have hempty : Book.Balanced (book s.db) := Book.Balanced.empty _ (by simp [book, hledger]) hbalance
  have hfinal := run_balanced cfg py hempty ops
  refine ⟨fun org => ⟨hfinal.nonneg org, ?_⟩, ?_, fun before op after _ => ⟨?_, ?_⟩⟩
  · rw [← total_entries]
    exact hfinal.conserved org
  · rw [rows_collect, hledger, List.nil_append]
  · intro row hrow
    have hsnoc : run cfg py s (before ++ [op]) = next cfg py (run cfg py s before) op := Runs.run_snoc _ _ _ _
    rw [hsnoc]
    exact written_after hrow
  · intro hfail
    have hsnoc : run cfg py s (before ++ [op]) = next cfg py (run cfg py s before) op := Runs.run_snoc _ _ _ _
    rw [hsnoc]
    have hun := step_failure cfg py (run cfg py s before) op hfail
    exact ⟨hun.ledger, hun.balances⟩

/-- an org is opened, topped up, debited, and refused a debit it cannot pay -/
def topupThenDebits : List Op :=
  [.createOrg ⟨"org", "email"⟩, .openAccount "org" 0, .adminTopup (.calm 0 "t") "org" 100 "admin" none,
    .debitCredit (.calm 1 "d") "org" 30 "usage" none, .debitCredit (.calm 2 "e") "org" 90 "usage" none]

/-- the run ends with 70 left of the 100 topped up -/
theorem ledger_conservation_topup_debit :
    let last := run .default ⟨fun _ => .ok .null, fun _ => ""⟩ ⟨Db.empty, []⟩ topupThenDebits
    balance last.db "org" = 70 ∧
    balance last.db "org" = sumOf .topup last.db.ledger.rows "org" - sumOf .debit last.db.ledger.rows "org" :=
  ⟨by decide, ((ledger_conservation .default _ ⟨Db.empty, []⟩ rfl (fun _ => rfl) topupThenDebits).1 "org").2⟩

end Teardrop.Billing
