/-
The three histories of an org that are paged by timestamp: the credit ledger (`billing/credit.py::get_credit_history` and
`GET /billing/credit-history`), withdrawals (`marketplace/withdrawals.py::list_org_withdrawals`) and earnings
(`marketplace/earnings.py::get_author_earnings_history`), with the cursors their routes take and return.

All three read `created_at < cursor ORDER BY created_at DESC LIMIT n`, and the next cursor is the `created_at` of the last
row. The tables do not change while they are walked. PostgreSQL leaves the order of rows with one `created_at` open.
-/
import Teardrop.Core.Keyset
import Teardrop.Service.Pagination
import Teardrop.Billing.Store
import Teardrop.Marketplace.Store

namespace Teardrop.History

open Py DateTime Pagination Keyset Billing Marketplace.Withdrawal

/-! ## Paging by creation time -/

section Newest

variable {α : Type}

/-- a table whose `created_at` values are datetimes -/
structure Dated (createdAt : α → ℤ) where
  rows : List α
  dated : ∀ r ∈ rows, inRange (createdAt r) = true

/-- `ORDER BY created_at DESC` -/
def newest (createdAt : α → ℤ) (r : α) : ℤᵒᵈ := OrderDual.toDual (createdAt r)

/-- `… AND created_at < cursor ORDER BY created_at DESC LIMIT limit` -/
def newestPage (createdAt : α → ℤ) (host : ℤ → Call ℤ) (rows : List α) (limit : ℕ) (cursor : Option Stamp) (page : List α) : Prop :=
  match cursor with
  | none => Page (newest createdAt) rows limit page
  | some c => ∃ t, toUtc host c = .ok t ∧ Page (newest createdAt) (rows.filter (fun r => createdAt r < t)) limit page

/-- `created_at.isoformat()` of an instant, as the database driver gives it: in UTC -/
def cursorText (t : ℤ) : PyStr := isoformat ⟨t, some 0⟩

def lastCursor (createdAt : α → ℤ) (page : List α) : Option PyStr := page.getLast?.map (fun r => cursorText (createdAt r))

/-- the last row's cursor, if the page is full -/
def fullCursor (createdAt : α → ℤ) (limit : ℕ) (page : List α) : Option PyStr :=
  if page.length = limit then lastCursor createdAt page else none

/-- an endpoint that pages by creation time -/
def timestampPager (createdAt : α → ℤ) (host : ℤ → Call ℤ) (rows : List α) (limit : ℕ) (next : List α → Option PyStr) :
    Pager α PyStr where
  fetch cursor page := ∃ c, parseCursor cursor = .ok c ∧ newestPage createdAt host rows limit c page
  next := next

theorem cursorText_valid {t : ℤ} (h : inRange t = true) : Stamp.Valid ⟨t, some 0⟩ := by
  refine ⟨h, ?_⟩
  intro o ho
  obtain rfl := Option.some.inj ho
  decide

theorem toUtc_utc (host : ℤ → Call ℤ) {t : ℤ} (h : inRange t = true) : toUtc host ⟨t, some 0⟩ = .ok t := by
  simp [toUtc, if_pos h]

theorem timestampPager_pages (host : ℤ → Call ℤ) {createdAt : α → ℤ} {rows : List α}
    (hdated : ∀ r ∈ rows, inRange (createdAt r) = true) {limit : ℕ} (hlimit : 0 < limit) {next : List α → Option PyStr}
    (hnext : next = lastCursor createdAt ∨ next = fullCursor createdAt limit) :
    Pages (timestampPager createdAt host rows limit next) (newest createdAt) rows limit (fun r => cursorText (createdAt r)) := by
  have hfirst : ∀ page, (timestampPager createdAt host rows limit next).fetch none page ↔
      Page (newest createdAt) rows limit page := by
    intro page
    constructor
    · rintro ⟨c, hc, hpage⟩
      rw [← Except.ok.inj hc] at hpage
      exact hpage
    · exact fun hpage => ⟨none, rfl, hpage⟩
  have hafter : ∀ a ∈ rows, ∀ page, (timestampPager createdAt host rows limit next).fetch (some (cursorText (createdAt a))) page ↔
      Page (newest createdAt) (Keyset.after (newest createdAt) a rows) limit page := by
    intro a ha page
    have hparse := parseCursor_isoformat (cursorText_valid (hdated a ha))
    have hutc := toUtc_utc host (hdated a ha)
    constructor
    · rintro ⟨c, hc, hpage⟩
      rw [cursorText, hparse] at hc
      rw [← Except.ok.inj hc] at hpage
      obtain ⟨t, ht, hpage⟩ := hpage
      rw [hutc] at ht
      rw [← Except.ok.inj ht] at hpage
      exact hpage
    · exact fun hpage => ⟨_, hparse, createdAt a, hutc, hpage⟩
  rcases hnext with rfl | rfl
  · exact Pages.of_last hlimit hfirst hafter (fun _ => true) rfl (fun _ => rfl)
  · refine Pages.of_last hlimit hfirst hafter (fun m => m = limit) (decide_eq_true rfl) ?_
    intro page
    simp [timestampPager, fullCursor, lastCursor]

end Newest

/-! ## The three histories -/

variable (host : ℤ → Call ℤ)

/-- the ledger rows a caller asks for -/
def creditRows (ledger : List LedgerRow) (orgId : String) (operation : Option Operation) : List LedgerRow :=
  ledger.filter (fun r => r.orgId = orgId && operation.all (fun o => o = r.operation))

def getCreditHistory (ledger : List LedgerRow) (orgId : String) (operation : Option Operation) (limit : ℕ)
    (cursor : Option Stamp) (page : List LedgerRow) : Prop :=
  newestPage LedgerRow.createdAt host (creditRows ledger orgId operation) limit cursor page

/-- `GET /billing/credit-history`: at most 200 rows, and a next cursor whenever there are rows -/
def billingCreditHistory (ledger : List LedgerRow) (orgId : String) (operation : Option Operation) (limit : ℕ) :
    Pager LedgerRow PyStr where
  fetch cursor page := ∃ c, parseCursor cursor = .ok c ∧ getCreditHistory host ledger orgId operation (min limit 200) c page
  next := lastCursor LedgerRow.createdAt

def withdrawalRows (withdrawals : List Marketplace.Withdrawal) (orgId : String) : List Marketplace.Withdrawal :=
  withdrawals.filter (fun w => w.orgId = orgId)

/-- the withdrawals and the next cursor that may be returned -/
def listOrgWithdrawals (withdrawals : List Marketplace.Withdrawal) (orgId : String) (limit : ℕ) (cursor : Option Stamp)
    (answer : List Marketplace.Withdrawal × Option PyStr) : Prop :=
  newestPage Marketplace.Withdrawal.createdAt host (withdrawalRows withdrawals orgId) limit cursor answer.1 ∧
    answer.2 = fullCursor Marketplace.Withdrawal.createdAt limit answer.1

/-- `GET /marketplace/withdrawals` -/
def getMarketplaceWithdrawals (withdrawals : List Marketplace.Withdrawal) (orgId : String) (limit : ℕ) :
    Pager Marketplace.Withdrawal PyStr where
  fetch cursor page := ∃ c next, parseCursor cursor = .ok c ∧ listOrgWithdrawals host withdrawals orgId limit c (page, next)
  next := fullCursor Marketplace.Withdrawal.createdAt limit

/-- the columns of `tool_author_earnings` that the history reads -/
structure AuthorEarning where
  id : String
  orgId : String
  toolName : String
  callerOrgId : String
  amountUsdc : ℕ
  authorShareUsdc : ℕ
  platformShareUsdc : ℕ
  status : Marketplace.EarningStatus
  createdAt : ℤ

def earningRows (earnings : List AuthorEarning) (orgId : String) (toolName : Option String) : List AuthorEarning :=
  earnings.filter (fun e => e.orgId = orgId && toolName.all (fun t => t = e.toolName))

def getAuthorEarningsHistory (earnings : List AuthorEarning) (orgId : String) (limit : ℕ) (cursor : Option Stamp)
    (toolName : Option String) (answer : List AuthorEarning × Option PyStr) : Prop :=
  newestPage AuthorEarning.createdAt host (earningRows earnings orgId toolName) limit cursor answer.1 ∧
    answer.2 = fullCursor AuthorEarning.createdAt limit answer.1

/-- `GET /marketplace/earnings` -/
def getMarketplaceEarnings (earnings : List AuthorEarning) (orgId : String) (limit : ℕ) (toolName : Option String) :
    Pager AuthorEarning PyStr where
  fetch cursor page := ∃ c next, parseCursor cursor = .ok c ∧
    getAuthorEarningsHistory host earnings orgId limit c toolName (page, next)
  next := fullCursor AuthorEarning.createdAt limit

/-! ## Completeness -/

theorem getMarketplaceWithdrawals_eq (withdrawals : List Marketplace.Withdrawal) (orgId : String) (limit : ℕ) :
    getMarketplaceWithdrawals host withdrawals orgId limit =
      timestampPager createdAt host (withdrawalRows withdrawals orgId) limit (fullCursor createdAt limit) := by
  simp [getMarketplaceWithdrawals, timestampPager, listOrgWithdrawals]

theorem getMarketplaceEarnings_eq (earnings : List AuthorEarning) (orgId : String) (limit : ℕ) (toolName : Option String) :
    getMarketplaceEarnings host earnings orgId limit toolName =
      timestampPager AuthorEarning.createdAt host (earningRows earnings orgId toolName) limit
        (fullCursor AuthorEarning.createdAt limit) := by
  simp [getMarketplaceEarnings, timestampPager, getAuthorEarningsHistory]

/-- the creation times of some rows, newest first -/
def newestKeys {α : Type} (createdAt : α → ℤ) (rows : List α) : List ℤᵒᵈ := sortedKeys (newest createdAt) rows

theorem creditHistory_complete (ledger : Dated LedgerRow.createdAt) (orgId : String) (operation : Option Operation)
    {limit : ℕ} (hlimit : 0 < limit) :
    Complete (billingCreditHistory host ledger.rows orgId operation limit) (creditRows ledger.rows orgId operation) ↔
      Unbroken (min limit 200) (newestKeys LedgerRow.createdAt (creditRows ledger.rows orgId operation)) := by
  apply complete_iff
  exact timestampPager_pages host (fun r hr => ledger.dated r (List.mem_of_mem_filter hr)) (by omega) (Or.inl rfl)

theorem withdrawals_complete (withdrawals : Dated createdAt) (orgId : String) {limit : ℕ} (hlimit : 0 < limit) :
    Complete (getMarketplaceWithdrawals host withdrawals.rows orgId limit) (withdrawalRows withdrawals.rows orgId) ↔
      Unbroken limit (newestKeys createdAt (withdrawalRows withdrawals.rows orgId)) := by
  rw [getMarketplaceWithdrawals_eq]
  apply complete_iff
  exact timestampPager_pages host (fun r hr => withdrawals.dated r (List.mem_of_mem_filter hr)) hlimit (Or.inr rfl)

theorem earnings_complete (earnings : Dated AuthorEarning.createdAt) (orgId : String) (toolName : Option String) {limit : ℕ}
    (hlimit : 0 < limit) :
    Complete (getMarketplaceEarnings host earnings.rows orgId limit toolName) (earningRows earnings.rows orgId toolName) ↔
      Unbroken limit (newestKeys AuthorEarning.createdAt (earningRows earnings.rows orgId toolName)) := by
  rw [getMarketplaceEarnings_eq]
  apply complete_iff
  exact timestampPager_pages host (fun r hr => earnings.dated r (List.mem_of_mem_filter hr)) hlimit (Or.inr rfl)

/-- **A history is complete exactly when no page boundary stands between rows of one `created_at`.** Following the next
cursor from the first page until there is none; the credit history's pages hold at most 200 rows. -/
theorem history_complete_iff (ledger : Dated LedgerRow.createdAt) (withdrawals : Dated Marketplace.Withdrawal.createdAt)
    (earnings : Dated AuthorEarning.createdAt) (orgId : String) (operation : Option Operation) (toolName : Option String)
    {limit : ℕ} (hlimit : 0 < limit) :
    (Complete (billingCreditHistory host ledger.rows orgId operation limit) (creditRows ledger.rows orgId operation) ↔
      Unbroken (min limit 200) (newestKeys LedgerRow.createdAt (creditRows ledger.rows orgId operation))) ∧
    (Complete (getMarketplaceWithdrawals host withdrawals.rows orgId limit) (withdrawalRows withdrawals.rows orgId) ↔
      Unbroken limit (newestKeys Marketplace.Withdrawal.createdAt (withdrawalRows withdrawals.rows orgId))) ∧
    (Complete (getMarketplaceEarnings host earnings.rows orgId limit toolName) (earningRows earnings.rows orgId toolName) ↔
      Unbroken limit (newestKeys AuthorEarning.createdAt (earningRows earnings.rows orgId toolName))) := by
  refine ⟨?_, ?_, ?_⟩
  · exact creditHistory_complete host ledger orgId operation hlimit
  · exact withdrawals_complete host withdrawals orgId hlimit
  · exact earnings_complete host earnings orgId toolName hlimit

def sampleDebit (id : String) (createdAt : ℤ) : LedgerRow := ⟨id, "org-1", .debit, 5, 0, "", none, none, none, createdAt⟩

def sampleWithdrawal (id : String) (createdAt : ℤ) : Marketplace.Withdrawal where
  id := id
  orgId := "org-1"
  amountUsdc := 5
  wallet := "0x1"
  createdAt := createdAt
  amount_pos := by decide

def sampleEarning (id : String) (createdAt : ℤ) : AuthorEarning := ⟨id, "org-1", "acme/echo", "org-2", 5, 4, 1, .pending, createdAt⟩

theorem history_complete_sample :
    Complete (billingCreditHistory .ok [sampleDebit "a" 7, sampleDebit "b" 7, sampleDebit "c" 3] "org-1" none 2)
      (creditRows [sampleDebit "a" 7, sampleDebit "b" 7, sampleDebit "c" 3] "org-1" none) := by
  have hlimit : 0 < 2 := Nat.two_pos
  have h := history_complete_iff .ok ⟨[sampleDebit "a" 7, sampleDebit "b" 7, sampleDebit "c" 3], by decide⟩
    ⟨[sampleWithdrawal "a" 7], by decide⟩ ⟨[sampleEarning "a" 7], by decide⟩ "org-1" none none hlimit
  exact h.1.2 (by decide)

/-- **Rows of one `created_at` are lost.** Of two ledger rows, withdrawals or earnings of one transaction, a walk with
pages of one row shows one. -/
theorem history_not_complete : ¬ Complete (billingCreditHistory .ok [sampleDebit "a" 7, sampleDebit "b" 7] "org-1" none 1)
      (creditRows [sampleDebit "a" 7, sampleDebit "b" 7] "org-1" none) ∧
    ¬ Complete (getMarketplaceWithdrawals .ok [sampleWithdrawal "a" 7, sampleWithdrawal "b" 7] "org-1" 1)
      (withdrawalRows [sampleWithdrawal "a" 7, sampleWithdrawal "b" 7] "org-1") ∧
    ¬ Complete (getMarketplaceEarnings .ok [sampleEarning "a" 7, sampleEarning "b" 7] "org-1" 1 none)
      (earningRows [sampleEarning "a" 7, sampleEarning "b" 7] "org-1" none) := by
  refine ⟨?_, ?_, ?_⟩
  · rw [creditHistory_complete .ok ⟨[sampleDebit "a" 7, sampleDebit "b" 7], by decide⟩ "org-1" none (by decide)]
    decide
  · rw [withdrawals_complete .ok ⟨[sampleWithdrawal "a" 7, sampleWithdrawal "b" 7], by decide⟩ "org-1" (by decide)]
    decide
  · rw [earnings_complete .ok ⟨[sampleEarning "a" 7, sampleEarning "b" 7], by decide⟩ "org-1" none (by decide)]
    decide

end Teardrop.History
