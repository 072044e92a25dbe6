/-
The statements billing transactions are made of, and what a transaction that posts to the credit ledger does.

`book` reads a store as an account book (`Core.Book`). Every operation that moves credit writes the balance first and the
ledger row second (`Posted`).
-/
import Teardrop.Core.Book
import Teardrop.Billing.Store

namespace Teardrop.Billing

open Teardrop.Py Tx

/-! ## Balances as an account book -/

/-- `balance_usdc` of an org, 0 without a row -/
def balance (db : Db) (org : String) : ℤ := ((db.credits.get? org).map CreditRow.balanceUsdc).getD 0

/-- the signed amount of a ledger row -/
def LedgerRow.delta (r : LedgerRow) : ℤ :=
  match r.operation with
  | .topup => r.amountUsdc
  | .debit => -r.amountUsdc

def LedgerRow.entry (r : LedgerRow) : Entry String := ⟨r.orgId, r.delta, r.balanceUsdcAfter⟩

def book (db : Db) : Book String := ⟨balance db, db.ledger.rows.map LedgerRow.entry⟩

/-- exactly `row` was posted, whatever else was written: it is the only new ledger row, and the balance of its org is
what it records -/
structure Moved (db db' : Db) (row : LedgerRow) : Prop where
  rows : db'.ledger.rows = db.ledger.rows ++ [row]
  posts : Book.Posts (book db) (book db') row.entry
  fresh : row.id ∉ db.ledger.rows.map LedgerRow.id
  unreversed : Unused row.reversesLedgerId (db.ledger.rows.filterMap LedgerRow.reversesLedgerId)
  positive : 0 < row.amountUsdc
  /-- the org's row is there, with the limits it had -/
  credit : ∃ r, db'.credits.get? row.orgId = some r ∧
    ∀ r₀, db.credits.get? row.orgId = some r₀ → r = { r₀ with balanceUsdc := row.balanceUsdcAfter }
  others : ∀ o, o ≠ row.orgId → db'.credits.get? o = db.credits.get? o

/-- `row` was posted and no other table changed -/
structure Posted (db db' : Db) (row : LedgerRow) : Prop extends Moved db db' row where
  rest : db' = { db with credits := db'.credits, ledger := db'.ledger }

/-- no balance and no ledger row changed -/
structure Unmoved (db db' : Db) : Prop where
  ledger : db'.ledger = db.ledger
  balances : ∀ o, balance db' o = balance db o

/-! ## Statements -/

/-- `INSERT INTO org_credit_ledger` -/
def insertLedger (row : LedgerRow) : Tx Db Unit := do
  Tx.require (isBigint row.amountUsdc ∧ isBigint row.balanceUsdcAfter) (.pg .numericOutOfRange)
  let db ← Tx.read id
  let ledger ← Tx.lift (db.ledger.insert row)
  Tx.require ((db.orgs.get? row.orgId).isSome) (.pg .foreignKeyViolation)
  Tx.write fun db => { db with ledger := ledger }

/-- `UPDATE org_credits SET balance_usdc = ... WHERE org_id = $1`, of a row that is there -/
def writeBalance (org : String) (newBalance : ℤ) : Tx Db Unit := do
  Tx.require (isBigint newBalance) (.pg .numericOutOfRange)
  Tx.require (0 ≤ newBalance) (.pg .checkViolation)
  Tx.write fun db => { db with
    credits := db.credits.update (fun r => if r.orgId = org then { r with balanceUsdc := newBalance } else r)
      (fun r => by by_cases h : r.orgId = org <;> simp [h]) }

/-- `UPDATE org_credits SET balance_usdc = balance_usdc + $2 WHERE org_id = $1 RETURNING balance_usdc` -/
def addBalance (org : String) (amount : ℤ) : Tx Db (Option ℤ) := do
  match ← Tx.read fun db => db.credits.get? org with
  | none => return none
  | some r =>
    writeBalance org (r.balanceUsdc + amount)
    return some (r.balanceUsdc + amount)

/-- `INSERT INTO org_credits (org_id, balance_usdc, updated_at) VALUES ($1, $2, NOW()) ON CONFLICT (org_id) DO UPDATE SET
balance_usdc = org_credits.balance_usdc + EXCLUDED.balance_usdc RETURNING balance_usdc`. The row proposed for insertion
is checked before the conflict is looked for. -/
def upsertBalance (org : String) (amount : ℤ) : Tx Db ℤ := do
  Tx.require (isBigint amount) (.pg .numericOutOfRange)
  Tx.require (0 ≤ amount) (.pg .checkViolation)
  match ← Tx.read fun db => db.credits.insert? ⟨org, amount, 0, false⟩ with
  | some credits =>
    let known ← Tx.read fun db => (db.orgs.get? org).isSome
    Tx.require known (.pg .foreignKeyViolation)
    Tx.write fun db => { db with credits := credits }
    return amount
  | none =>
    let r ← addBalance org amount
    return r.getD amount

/-- `UPDATE ... WHERE` on the outbox, with its CHECK constraints; the number of rows hit -/
def updateOutbox (hit : OutboxRow → Bool) (f : OutboxRow → OutboxRow) (hf : ∀ r, (f r).id = r.id) : Tx Db ℕ := do
  let rows ← Tx.read fun db => db.outbox.rows.filter hit
  Tx.require (∀ r ∈ rows, 0 < (f r).amountUsdc ∧
    ((f r).resolvedAt.isNone ↔ (f r).status = .pending ∨ (f r).status = .refundRequested)) (.pg .checkViolation)
  Tx.write fun db => { db with
    outbox := db.outbox.update (fun r => if hit r then f r else r) (fun r => by by_cases h : hit r <;> simp [h, hf]) }
  return rows.length

/-! ## What the statements do -/

variable {row : LedgerRow} {db : Db} {org : String} {db' : Db}

theorem insertLedger_ok {r : Unit × Db} (h : insertLedger row db = .ok r) :
    ∃ l, db.ledger.insert row = .ok l ∧ r = ((), { db with ledger := l }) := by
  obtain ⟨-, h⟩ := require_bind_ok h
  have h := read_bind_ok h
  obtain ⟨l, hl, h⟩ := lift_bind_ok h
  obtain ⟨-, h⟩ := require_bind_ok h
  cases h
  exact ⟨l, hl, rfl⟩

/-- the balance of `org` was set to `b`, and nothing else was written -/
structure Credited (db db' : Db) (org : String) (b : ℤ) : Prop where
  nonneg : 0 ≤ b
  rest : db' = { db with credits := db'.credits }
  row : ∃ r, db'.credits.get? org = some r ∧ r.balanceUsdc = b ∧
    ∀ r₀, db.credits.get? org = some r₀ → r = { r₀ with balanceUsdc := b }
  others : ∀ o, o ≠ org → db'.credits.get? o = db.credits.get? o

theorem writeBalance_ok {b : ℤ} {r₀ : CreditRow} (hr₀ : db.credits.get? org = some r₀) {r : Unit × Db}
    (h : writeBalance org b db = .ok r) : Credited db r.2 org b := by
  obtain ⟨-, h⟩ := require_bind_ok h
  obtain ⟨hb, h⟩ := require_bind_ok h
  cases h
  have hkey := Table.key_of_get? hr₀
  refine ⟨hb, rfl, ⟨{ r₀ with balanceUsdc := b }, ?_, rfl, ?_⟩, ?_⟩
  · simp [hr₀, hkey]
  · intro r₁ hr₁
    rw [hr₀] at hr₁
    cases hr₁
    rfl
  · intro o ho
    simp only [Table.get?_update]
    cases hrow : db.credits.get? o with
    | none => rfl
    | some r₁ =>
      have := Table.key_of_get? hrow
      simp [this, ho]

theorem addBalance_ok {amount : ℤ} {r : Option ℤ × Db} (h : addBalance org amount db = .ok r) :
    (db.credits.get? org = none ∧ r = (none, db)) ∨
    (r.1 = some (balance db org + amount) ∧ Credited db r.2 org (balance db org + amount)) := by
  have h := read_bind_ok h
  cases hrow : db.credits.get? org with
  | none =>
    simp only [hrow] at h
    exact Or.inl ⟨rfl, pure_ok h⟩
  | some r₀ =>
    simp only [hrow] at h
    obtain ⟨_, db₃, h₂, h⟩ := bind_ok h
    have hw := writeBalance_ok hrow h₂
    cases pure_ok h
    have hbal : balance db org = r₀.balanceUsdc := by simp [balance, hrow]
    rw [hbal]
    exact Or.inr ⟨rfl, hw⟩

theorem upsertBalance_ok {amount : ℤ} {r : ℤ × Db} (h : upsertBalance org amount db = .ok r) :
    r.1 = balance db org + amount ∧ Credited db r.2 org (balance db org + amount) := by
  obtain ⟨-, h⟩ := require_bind_ok h
  obtain ⟨hpos, h⟩ := require_bind_ok h
  have h := read_bind_ok h
  cases hins : db.credits.insert? ⟨org, amount, 0, false⟩ with
  | some c =>
    simp only [hins] at h
    have h := read_bind_ok h
    obtain ⟨-, h⟩ := require_bind_ok h
    cases pure_ok h
    have hnone := (Table.insert?_eq_some hins).1
    have hbal : balance db org = 0 := by simp only [balance, hnone]; rfl
    rw [hbal, zero_add]
    refine ⟨rfl, hpos, rfl, ⟨⟨org, amount, 0, false⟩, ?_, rfl, ?_⟩, ?_⟩
    · rw [Table.get?_insert hins, if_pos rfl]
    · intro r₀ hr₀
      rw [hnone] at hr₀
      cases hr₀
    · intro o ho
      rw [Table.get?_insert hins, if_neg (Ne.symm ho)]
  | none =>
    simp only [hins] at h
    obtain ⟨b, db₅, h₄, h⟩ := bind_ok h
    cases pure_ok h
    rcases addBalance_ok h₄ with ⟨hnone, -⟩ | ⟨hb, hc⟩
    · have hmem : org ∈ db.credits.rows.map CreditRow.orgId := by
        by_contra hfree
        rw [Table.insert?, dif_neg hfree] at hins
        cases hins
      exact absurd hmem (Table.get?_eq_none_iff.1 hnone)
    · refine ⟨?_, hc⟩
      have hb' : b = some (balance db org + amount) := hb
      rw [hb']
      rfl

theorem Credited.balance_self {b : ℤ} (h : Credited db db' org b) : balance db' org = b := by
  obtain ⟨r, hr, hb, -⟩ := h.row
  simp [balance, hr, hb]

theorem Credited.balance_of_ne {b : ℤ} (h : Credited db db' org b) {o : String} (ho : o ≠ org) :
    balance db' o = balance db o := by
  simp [balance, h.others o ho]

/-- **A posting.** The balance written, then the ledger row that records it. -/
theorem posted_of_credited {db₁ db₂ : Db} (hc : Credited db db₁ row.orgId row.balanceUsdcAfter)
    (hafter : row.balanceUsdcAfter = balance db row.orgId + row.delta) (hi : insertLedger row db₁ = .ok ((), db₂)) :
    Posted db db₂ row := by
  obtain ⟨l, hl, hr⟩ := insertLedger_ok hi
  cases hr
  obtain ⟨hrows, hpos, -, hfresh, hunrev⟩ := Ledger.insert_ok hl
  have hledger : db₁.ledger = db.ledger := by rw [hc.rest]
  rw [hledger] at hrows hfresh hunrev
  have hlog : (book { db₁ with ledger := l }).log = (book db).log ++ [row.entry] := by
    simp [book, hrows]
  refine ⟨⟨hrows, ⟨hlog, hafter, hc.balance_self, hc.nonneg, ?_⟩, hfresh, hunrev, hpos, ?_, ?_⟩, ?_⟩
  · intro o ho
    exact hc.balance_of_ne ho
  · obtain ⟨r, hr, -, hold⟩ := hc.row
    exact ⟨r, hr, hold⟩
  · intro o ho
    exact hc.others o ho
  · rw [hc.rest]

theorem Unmoved.refl (db : Db) : Unmoved db db := ⟨rfl, fun _ => rfl⟩

theorem Unmoved.still (h : Unmoved db db') : Book.Still (book db) (book db') :=
  ⟨h.balances, by simp only [book, h.ledger]⟩

theorem Moved.congr {db₁ db₁' : Db} (h : Moved db db' row) (hl : db₁.ledger = db.ledger) (hc : db₁.credits = db.credits)
    (hl' : db₁'.ledger = db'.ledger) (hc' : db₁'.credits = db'.credits) : Moved db₁ db₁' row := by
  have hbook : book db₁ = book db := by unfold book balance; rw [hl, hc]
  have hbook' : book db₁' = book db' := by unfold book balance; rw [hl', hc']
  exact ⟨by rw [hl, hl']; exact h.rows, by rw [hbook, hbook']; exact h.posts, by rw [hl]; exact h.fresh,
    by rw [hl]; exact h.unreversed, h.positive, by rw [hc, hc']; exact h.credit, by rw [hc, hc']; exact h.others⟩

theorem Unmoved.of_eq (hl : db'.ledger = db.ledger) (hc : db'.credits = db.credits) : Unmoved db db' :=
  ⟨hl, fun o => by unfold balance; rw [hc]⟩

theorem Posted.outbox (h : Posted db db' row) : db'.outbox = db.outbox := by
  rw [h.rest]

theorem Posted.settlements (h : Posted db db' row) : db'.settlements = db.settlements := by
  rw [h.rest]

theorem Posted.earnings (h : Posted db db' row) : db'.earnings = db.earnings := by
  rw [h.rest]

theorem Posted.orgs (h : Posted db db' row) : db'.orgs = db.orgs := by
  rw [h.rest]

theorem Posted.limits (h : Posted db db' row) : db'.principalLimits = db.principalLimits := by
  rw [h.rest]

theorem updateOutbox_ok {hit : OutboxRow → Bool} {f : OutboxRow → OutboxRow} {hf : ∀ r, (f r).id = r.id} {r : ℕ × Db}
    (h : updateOutbox hit f hf db = .ok r) : r.1 = (db.outbox.rows.filter hit).length ∧ ∃ o, r.2 = { db with outbox := o } ∧
      ∀ d, o.get? d = (db.outbox.get? d).map (fun x => if hit x then f x else x) := by
  have h := read_bind_ok h
  obtain ⟨-, h⟩ := require_bind_ok h
  cases pure_ok h
  exact ⟨rfl, _, rfl, fun d => Table.get?_update _ _ _ d⟩

end Teardrop.Billing
