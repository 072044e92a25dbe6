/-
The two tables of author payouts and the statements on them: `tool_author_earnings` and `tool_author_withdrawals`
(`marketplace/withdrawals.py`, `marketplace/worker.py`, `marketplace/earnings.py`). A withdrawal row has columns fixed by
its INSERT and columns the statements rewrite (`Progress`); `amount_usdc > 0` and `author_share_usdc >= 0` are checks of
the tables and hold by type. Each definition is one statement or one transaction. `linked x` are the earnings rows whose
`withdrawal_id` is `x`, and `Touches x` says that a statement leaves all but withdrawal `x` alone.
-/
import Teardrop.Core.Py
import Teardrop.Core.Table
import Teardrop.Core.Sha256

namespace Teardrop.Marketplace

open Teardrop.Py List

/-! ## Tables -/

inductive EarningStatus where
  | pending
  | settled
  | failed
deriving DecidableEq

/-- a row of `tool_author_earnings` -/
structure Earning where
  id : String
  orgId : String
  authorShareUsdc : ℕ
  status : EarningStatus := .pending
  withdrawalId : Option String := none
  createdAt : ℤ

inductive Status where
  | pending
  | inFlight
  | settled
  | failed
  | exhausted
deriving DecidableEq

/-- the columns of a withdrawal that statements rewrite, with the defaults of the table -/
structure Progress where
  status : Status := .pending
  txHash : String := ""
  sweepAttemptCount : ℤ := 0
  lastSweepError : String := ""
  nextSweepAt : Option ℤ := none

/-- a row of `tool_author_withdrawals` -/
structure Withdrawal extends Progress where
  id : String
  orgId : String
  amountUsdc : ℤ
  wallet : String
  createdAt : ℤ
  amount_pos : 0 < amountUsdc

structure Db where
  earnings : Table Earning.id
  withdrawals : Table Withdrawal.id

namespace Db

def empty : Db := ⟨Table.empty, Table.empty⟩

/-- the earnings rows with `withdrawal_id = x` -/
def linked (db : Db) (x : String) : List Earning := db.earnings.rows.filter (fun e => e.withdrawalId = some x)

def shares (rows : List Earning) : ℤ := (rows.map (fun e => (e.authorShareUsdc : ℤ))).sum

/-! ## Reads -/

/-- the server's order of rows by `created_at`; `tie` is how it orders rows of one instant -/
def earlier (tie : String → ℕ) (a b : Earning) : Prop :=
  a.createdAt < b.createdAt ∨ (a.createdAt = b.createdAt ∧ tie a.id ≤ tie b.id)

instance (tie : String → ℕ) : DecidableRel (earlier tie) := fun _ _ => inferInstanceAs (Decidable (_ ∨ _))

def isClaimable (org : String) (e : Earning) : Bool := e.orgId = org ∧ e.status = .pending ∧ e.withdrawalId = none

/-- the SELECT of `_select_earnings_to_settle` -/
def claimable (db : Db) (org : String) (tie : String → ℕ) : List Earning :=
  (db.earnings.rows.filter (isClaimable org)).insertionSort (earlier tie)

/-- `get_author_balance` -/
def authorBalance (db : Db) (org : String) : ℤ :=
  shares (db.earnings.rows.filter (fun e => e.orgId = org ∧ e.status = .pending))

/-- `created_at` of the org's last withdrawal -/
def lastWithdrawalAt (db : Db) (org : String) : Option ℤ :=
  ((db.withdrawals.rows.filter (fun w => w.orgId = org)).map Withdrawal.createdAt).max?

/-! ## Statements on one withdrawal -/

/-- `UPDATE tool_author_withdrawals SET f WHERE id = x AND p` -/
def updateWithdrawal (db : Db) (x : String) (p : Progress → Bool) (f : Progress → Progress) : Db where
  earnings := db.earnings
  withdrawals := db.withdrawals.update
    (fun w => if w.id = x ∧ p w.toProgress then { w with toProgress := f w.toProgress } else w)
    (fun _ => by split <;> rfl)

/-- `UPDATE tool_author_earnings SET status = 'pending', withdrawal_id = NULL WHERE withdrawal_id = x AND
status = 'settled'` -/
def unlink (db : Db) (x : String) : Db where
  earnings := db.earnings.update
    (fun e => if e.withdrawalId = some x ∧ e.status = .settled then { e with status := .pending, withdrawalId := none }
      else e)
    (fun _ => by split <;> rfl)
  withdrawals := db.withdrawals

/-- `UPDATE tool_author_earnings SET status = 'settled', withdrawal_id = x WHERE id = ANY(ids) AND status = 'pending' AND
withdrawal_id IS NULL` -/
def link (db : Db) (x : String) (ids : List String) : Db where
  earnings := db.earnings.update
    (fun e => if e.id ∈ ids ∧ e.status = .pending ∧ e.withdrawalId = none then
      { e with status := .settled, withdrawalId := some x } else e)
    (fun _ => by split <;> rfl)
  withdrawals := db.withdrawals

/-- a row of the table, unless a constraint refuses it -/
def insertWithdrawal (db : Db) (x org : String) (amount : ℤ) (wallet : String) (createdAt : ℤ) : Call Db :=
  if h : 0 < amount then
    match db.withdrawals.insert? ⟨{}, x, org, amount, wallet, createdAt, h⟩ with
    | none => .error (.pg .uniqueViolation)
    | some t => .ok { db with withdrawals := t }
  else .error (.pg .checkViolation)

/-- the INSERT of `insert_tool_call_earnings` -/
def insertEarning (db : Db) (id org : String) (share : ℕ) (createdAt : ℤ) : Call Db :=
  match db.earnings.insert? ⟨id, org, share, .pending, none, createdAt⟩ with
  | none => .error (.pg .uniqueViolation)
  | some t => .ok { db with earnings := t }

/-- whether `x` has a row with `p`: what an UPDATE answers by `RETURNING id` -/
def holds (db : Db) (x : String) (p : Progress → Bool) : Bool := (db.withdrawals.get? x).any (fun w => p w.toProgress)

/-! ## `_WithdrawalService` -/

/-- the rows the loop of `_select_earnings_to_settle` takes while `remaining` is left -/
def pass : ℤ → List Earning → List Earning
  | _, [] => []
  | remaining, e :: rows =>
    if remaining ≤ 0 then []
    else if e.authorShareUsdc > remaining then pass remaining rows
    else e :: pass (remaining - e.authorShareUsdc) rows

/-- `_select_earnings_to_settle`: the ids and their total -/
def selectEarningsToSettle (db : Db) (org : String) (amount : ℤ) (tie : String → ℕ) : List String × ℤ :=
  let rows := pass amount (db.claimable org tie)
  (rows.map Earning.id, shares rows)

def noEarnings : String := "No pending earnings available for withdrawal"

/-- `_claim_withdrawal`: the row as it is returned, and the total claimed -/
def claimWithdrawal (db : Db) (x : String) (tie : String → ℕ) : Call (Db × Withdrawal × ℤ) :=
  match db.withdrawals.get? x with
  | none => .error (.valueError "Withdrawal not found or not in 'pending' status")
  | some w =>
    if w.status ≠ .pending then .error (.valueError "Withdrawal not found or not in 'pending' status")
    else
      let (ids, total) := db.selectEarningsToSettle w.orgId w.amountUsdc tie
      if ids = [] ∨ total ≤ 0 then
        let f : Progress → Progress := fun r => { r with status := .failed, txHash := "", lastSweepError := noEarnings }
        .ok (db.updateWithdrawal x (fun r => r.status = .pending) f, { w with toProgress := f w.toProgress }, 0)
      else
        let f : Progress → Progress := fun r => { r with status := .inFlight, txHash := "", lastSweepError := "" }
        .ok ((db.link x ids).updateWithdrawal x (fun r => r.status = .pending) f, { w with toProgress := f w.toProgress },
          total)

def isInFlight (r : Progress) : Bool := r.status = .inFlight

def settleWithdrawal (db : Db) (x txHash : String) : Call Db :=
  if db.holds x isInFlight then
    .ok (db.updateWithdrawal x isInFlight (fun r => { r with status := .settled, txHash := txHash, lastSweepError := "" }))
  else .error (.runtimeError "Withdrawal is no longer awaiting settlement")

def releaseWithdrawal (db : Db) (x error : String) : Call Db :=
  if db.holds x isInFlight then
    .ok ((db.unlink x).updateWithdrawal x isInFlight
      (fun r => { r with status := .failed, txHash := "", lastSweepError := error }))
  else .error (.runtimeError "Withdrawal is no longer awaiting settlement")

def recordInFlight (db : Db) (x txHash error : String) : Db :=
  db.updateWithdrawal x isInFlight (fun r => { r with txHash := txHash, lastSweepError := error })

/-! ## Operators -/

def completeWithdrawal (db : Db) (x txHash : String) : Call Db :=
  match db.withdrawals.get? x with
  | none => .error (.valueError "Withdrawal not found")
  | some w =>
    if w.txHash ≠ "" ∧ w.txHash ≠ txHash then .error (.valueError "Withdrawal already has a different transaction hash")
    else if w.status = .inFlight then
      .ok (db.updateWithdrawal x isInFlight (fun r => { r with status := .settled, txHash := txHash, lastSweepError := "" }))
    else .ok (db.updateWithdrawal x (fun _ => true) (fun r => { r with txHash := txHash }))

def isResettable (r : Progress) : Bool := r.status = .failed ∨ r.status = .exhausted ∨ r.status = .inFlight

def resetWithdrawal (db : Db) (x : String) : Db × Bool :=
  if db.holds x isResettable then
    ((if db.holds x isInFlight then db.unlink x else db).updateWithdrawal x isResettable (fun _ => {}), true)
  else (db, false)

/-! ## The sweep -/

/-- `failed` and due: `next_sweep_at <= NOW()` is not true of NULL -/
def isDue (now : ℤ) (r : Progress) : Bool := r.status = .failed ∧ r.nextSweepAt.any (fun t => t ≤ now)

/-- the statement that puts a failed withdrawal back in the queue -/
def requeue (db : Db) (x : String) (now : ℤ) : Db × Bool :=
  (db.updateWithdrawal x (isDue now) (fun r => { r with status := .pending, nextSweepAt := none }), db.holds x (isDue now))

def sweepBackoffSeconds (attempt : ℕ) : ℤ := min (2 ^ attempt * 60) 86400

def seconds (n : ℤ) : ℤ := n * 1000000

/-- the write that gives a withdrawal up, by id alone -/
def exhaust (db : Db) (x : String) (attempt : ℤ) (error : String) : Db :=
  db.updateWithdrawal x (fun _ => true)
    (fun r => { r with status := .exhausted, sweepAttemptCount := attempt, lastSweepError := error, nextSweepAt := none })

/-- the write that schedules the next attempt, by id alone -/
def backoff (db : Db) (x : String) (attempt : ℤ) (error : String) (now : ℤ) : Db :=
  db.updateWithdrawal x (fun _ => true) (fun r =>
    { r with sweepAttemptCount := attempt, lastSweepError := error,
             nextSweepAt := some (now + seconds (sweepBackoffSeconds attempt.toNat)) })

/-! ## The reconciler -/

def reconcileMismatchError : String := "Reconciliation mismatch: on-chain transaction does not match this withdrawal"

def isInFlightWith (txHash : String) (r : Progress) : Bool := r.status = .inFlight ∧ r.txHash = txHash

/-- the UPDATE of a confirmed transfer -/
def settleKnown (db : Db) (x txHash : String) : Db × Bool :=
  (db.updateWithdrawal x (isInFlightWith txHash) (fun r => { r with status := .settled, lastSweepError := "" }),
    db.holds x (isInFlightWith txHash))

/-- `_release_reverted_withdrawal` of a row read with `attempts` -/
def releaseRevertedWithdrawal (db : Db) (x txHash : String) (attempts maxRetries now : ℤ) : Db × Bool :=
  let attempt := attempts + 1
  let error := "Transaction reverted on-chain tx=" ++ txHash
  let f : Progress → Progress := fun r =>
    if attempt ≥ maxRetries then
      { r with status := .exhausted, txHash := "", sweepAttemptCount := attempt, lastSweepError := error,
               nextSweepAt := none }
    else
      { r with status := .failed, txHash := "", sweepAttemptCount := attempt, lastSweepError := error,
               nextSweepAt := some (now + seconds (sweepBackoffSeconds attempt.toNat)) }
  if db.holds x (isInFlightWith txHash) then
    ((db.updateWithdrawal x (isInFlightWith txHash) f).unlink x, true)
  else (db, false)

/-- the UPDATE of a mismatch -/
def flagMismatch (db : Db) (x txHash : String) : Db :=
  db.updateWithdrawal x (isInFlightWith txHash) (fun r => { r with lastSweepError := reconcileMismatchError })

/-! ## The greedy pass -/

theorem shares_cons (e : Earning) (rows : List Earning) : shares (e :: rows) = e.authorShareUsdc + shares rows := by
  unfold shares
  rw [map_cons, sum_cons]

theorem shares_nonneg (rows : List Earning) : 0 ≤ shares rows := by
  induction rows with
  | nil => exact le_refl _
  | cons e rows ih => rw [shares_cons]; omega

theorem shares_perm {rows rows' : List Earning} (h : rows.Perm rows') : shares rows = shares rows' :=
  (h.map _).sum_eq

theorem pass_sublist (remaining : ℤ) (rows : List Earning) : (pass remaining rows).Sublist rows := by
  induction rows generalizing remaining with
  | nil => exact List.Sublist.refl _
  | cons e rows ih =>
    unfold pass
    split_ifs
    · exact nil_sublist _
    · exact (ih remaining).cons e
    · exact (ih _).cons_cons e

theorem shares_pass_le {remaining : ℤ} (h : 0 ≤ remaining) (rows : List Earning) :
    shares (pass remaining rows) ≤ remaining := by
  induction rows generalizing remaining with
  | nil => exact h
  | cons e rows ih =>
    unfold pass
    split_ifs with hstop hskip
    · exact h
    · exact ih h
    · have hle : shares (pass (remaining - e.authorShareUsdc) rows) ≤ remaining - e.authorShareUsdc := ih (by omega)
      rw [shares_cons]
      omega

theorem shares_pass_all {remaining : ℤ} {rows : List Earning} (h : shares rows = remaining) :
    shares (pass remaining rows) = remaining := by
  induction rows generalizing remaining with
  | nil => exact h
  | cons e rows ih =>
    rw [shares_cons] at h
    have hrest := shares_nonneg rows
    unfold pass
    split_ifs with hstop hskip
    · have hzero : remaining = 0 := by omega
      rw [hzero]
      rfl
    · omega
    · rw [shares_cons, ih (by omega)]
      omega

variable (db : Db) {x : String}

theorem claimable_perm (org : String) (tie : String → ℕ) :
    (db.claimable org tie).Perm (db.earnings.rows.filter (isClaimable org)) :=
  perm_insertionSort _ _

/-! ## One withdrawal at a time -/

/-- the columns of the INSERT are never rewritten -/
def SameRow (w w' : Withdrawal) : Prop := w' = { w with toProgress := w'.toProgress }

theorem SameRow.orgId {w w' : Withdrawal} (h : SameRow w w') : w'.orgId = w.orgId := by rw [h]

theorem SameRow.amountUsdc {w w' : Withdrawal} (h : SameRow w w') : w'.amountUsdc = w.amountUsdc := by rw [h]

/-- from `db` to `db'` only withdrawal `x` and its links move -/
structure Touches (x : String) (db db' : Db) : Prop where
  rows : ∀ y, y ≠ x → db'.withdrawals.get? y = db.withdrawals.get? y
  linked : ∀ y, y ≠ x → db'.linked y = db.linked y

theorem Touches.trans {db db' db'' : Db} (h : Touches x db db') (k : Touches x db' db'') : Touches x db db'' :=
  ⟨fun y hy => (k.rows y hy).trans (h.rows y hy), fun y hy => (k.linked y hy).trans (h.linked y hy)⟩

/-- an UPDATE on `x` as its row sees it -/
def edited (p : Progress → Bool) (f : Progress → Progress) (w : Withdrawal) : Withdrawal :=
  if p w.toProgress then { w with toProgress := f w.toProgress } else w

theorem get?_updateWithdrawal (x : String) (p : Progress → Bool) (f : Progress → Progress) :
    (db.updateWithdrawal x p f).withdrawals.get? x = (db.withdrawals.get? x).map (edited p f) := by
  unfold updateWithdrawal
  rw [Table.get?_update]
  cases hx : db.withdrawals.get? x with
  | none => rfl
  | some w =>
    have hid := Table.key_of_get? hx
    simp [edited, hid]

theorem touches_updateWithdrawal (x : String) (p : Progress → Bool) (f : Progress → Progress) :
    Touches x db (db.updateWithdrawal x p f) where
  rows y hy := by
    unfold updateWithdrawal
    rw [Table.get?_update]
    cases hx : db.withdrawals.get? y with
    | none => rfl
    | some w =>
      have hid : w.id ≠ x := fun h => hy ((Table.key_of_get? hx).symm.trans h)
      simp [hid]
  linked _ _ := rfl

theorem linked_updateWithdrawal (x : String) (p : Progress → Bool) (f : Progress → Progress) (y : String) :
    (db.updateWithdrawal x p f).linked y = db.linked y := rfl

theorem linked_unlink_other {y : String} (h : y ≠ x) : (db.unlink x).linked y = db.linked y := by
  unfold linked unlink Table.update
  simp only
  induction db.earnings.rows with
  | nil => rfl
  | cons e rows ih =>
    rw [map_cons, filter_cons, filter_cons, ih]
    split_ifs with hx <;> simp_all

theorem touches_unlink (x : String) : Touches x db (db.unlink x) :=
  ⟨fun _ _ => rfl, fun _ hy => linked_unlink_other db hy⟩

/-- every link to `x` is taken back when its rows are settled -/
theorem linked_unlink_self {db : Db} (h : ∀ e ∈ db.linked x, e.status = .settled) : (db.unlink x).linked x = [] := by
  unfold linked unlink Table.update at *
  simp only [filter_eq_nil_iff, mem_map, decide_eq_true_eq]
  rintro _ ⟨e, he, rfl⟩
  split_ifs with hx
  · simp
  · intro hlink
    exact hx ⟨hlink, h e (mem_filter.2 ⟨he, decide_eq_true hlink⟩)⟩

theorem touches_link (x : String) (ids : List String) : Touches x db (db.link x ids) where
  rows _ _ := rfl
  linked y hy := by
    unfold linked link Table.update
    simp only
    induction db.earnings.rows with
    | nil => rfl
    | cons e rows ih =>
      rw [map_cons, filter_cons, filter_cons, ih]
      split_ifs with hx <;> simp_all

/-- a row as the claim of `x` leaves it -/
def claimedBy (x : String) (e : Earning) : Earning := { e with status := .settled, withdrawalId := some x }

theorem linked_link_self {db : Db} (ids : List String) (h : db.linked x = []) : (db.link x ids).linked x =
      (db.earnings.rows.filter (fun e => e.id ∈ ids ∧ e.status = .pending ∧ e.withdrawalId = none)).map (claimedBy x) := by
  unfold linked at h
  unfold linked link Table.update
  simp only
  revert h
  induction db.earnings.rows with
  | nil => exact fun _ => rfl
  | cons e rows ih =>
    intro h
    rw [filter_cons] at h
    split_ifs at h with hx
    rw [map_cons, filter_cons, filter_cons, ih h]
    split_ifs with h1 h2 h3 h4 <;> simp_all [claimedBy]

theorem shares_claimedBy (x : String) (rows : List Earning) : shares (rows.map (claimedBy x)) = shares rows := by
  unfold shares
  rw [map_map]
  rfl

theorem passed_perm (org : String) (amount : ℤ) (tie : String → ℕ) :
    (db.earnings.rows.filter (fun e => e.id ∈ (pass amount (db.claimable org tie)).map Earning.id ∧ e.status = .pending ∧
      e.withdrawalId = none)).Perm (pass amount (db.claimable org tie)) := by
  have hnodup : db.earnings.rows.Nodup := List.Nodup.of_map _ db.earnings.nodup
  have hsub := pass_sublist amount (db.claimable org tie)
  have hperm := db.claimable_perm org tie
  have hmem : ∀ e, e ∈ pass amount (db.claimable org tie) → e ∈ db.earnings.rows ∧ isClaimable org e = true := by
    intro e he
    exact mem_filter.1 (hperm.mem_iff.1 (hsub.subset he))
  refine (perm_ext_iff_of_nodup (hnodup.filter _) ((hperm.nodup_iff.2 (hnodup.filter _)).sublist hsub)).2 ?_
  intro e
  simp only [mem_filter, mem_map, decide_eq_true_eq]
  constructor
  · rintro ⟨he, ⟨e', he', hid⟩, -, -⟩
    rwa [inj_on_of_nodup_map db.earnings.nodup (hmem e' he').1 he hid] at he'
  · intro he
    obtain ⟨hrow, hclaim⟩ := hmem e he
    simp only [isClaimable, Bool.decide_and, Bool.and_eq_true, decide_eq_true_eq] at hclaim
    exact ⟨hrow, ⟨e, he, rfl⟩, hclaim.2.1, hclaim.2.2⟩

/-! ## Links -/

/-- the rows linked to `x` are settled rows of its org, and `x` is in flight or settled -/
def LinkedAt (db : Db) (x : String) : Prop :=
  ∀ e ∈ db.linked x, e.status = .settled ∧ ∃ w, db.withdrawals.get? x = some w ∧ w.orgId = e.orgId ∧
    (w.status = .inFlight ∨ w.status = .settled)

theorem LinkedAt.nil {db : Db} (h : LinkedAt db x)
    (hx : ∀ w, db.withdrawals.get? x = some w → w.status ≠ .inFlight ∧ w.status ≠ .settled) : db.linked x = [] := by
  rw [eq_nil_iff_forall_not_mem]
  intro e he
  obtain ⟨-, w, hw, -, hstatus⟩ := h e he
  rcases hstatus with hs | hs
  · exact (hx w hw).1 hs
  · exact (hx w hw).2 hs

theorem LinkedAt.of_nil {db : Db} (h : db.linked x = []) : LinkedAt db x := by
  intro e he
  rw [h] at he
  cases he

theorem Touches.linkedAt {y : String} {db db' : Db} (ht : Touches x db db') (hy : y ≠ x) (h : LinkedAt db y) :
    LinkedAt db' y := by
  intro e he
  rw [ht.linked y hy] at he
  rw [ht.rows y hy]
  exact h e he

/-- what an UPDATE on `x` must not do: move a withdrawal that holds rows out of `in_flight` and `settled` -/
theorem LinkedAt.update {db : Db} {p : Progress → Bool} {f : Progress → Progress} (h : LinkedAt db x)
    (hf : ∀ w, db.withdrawals.get? x = some w → p w.toProgress = true → (w.status = .inFlight ∨ w.status = .settled) → ((f w.toProgress).status = .inFlight ∨ (f w.toProgress).status = .settled)) :
    LinkedAt (db.updateWithdrawal x p f) x := by
  intro e he
  obtain ⟨hsettled, w, hw, horg, hstatus⟩ := h e he
  refine ⟨hsettled, edited p f w, by rw [get?_updateWithdrawal, hw]; rfl, ?_⟩
  unfold edited
  split_ifs with hp
  · exact ⟨horg, hf w hw hp hstatus⟩
  · exact ⟨horg, hstatus⟩

theorem LinkedAt.unlinked {db : Db} (h : LinkedAt db x) : (db.unlink x).linked x = [] :=
  linked_unlink_self (fun e he => (h e he).1)

end Db

end Teardrop.Marketplace
