/-
The settlement retry queue over whole runs: any number of workers, with claims, expired leases, crashes between claim
and completion, late workers and operator resets in any order.

What was debited for a queue row are the ledger rows written by attempts on claims of that row (`settleDebits`), and
likewise its earnings (`settleEarnings`).
-/
import Teardrop.Billing.Machine

namespace Teardrop.Billing

open Teardrop.Py

/-! ## Observations -/

/-- the earnings rows an operation appends -/
def earned (cfg : Settings) (py : Interp) (s : Sys) (op : Op) : List EarningRow :=
  (next cfg py s op).db.earnings.rows.drop s.db.earnings.rows.length

/-- what an operation debits for queue row `id` -/
def settleDebit (cfg : Settings) (py : Interp) (id : String) (s : Sys) (op : Op) : List LedgerRow :=
  if op.settles s = some id then written cfg py s op else []

/-- what an operation pays authors for queue row `id` -/
def settleEarning (cfg : Settings) (py : Interp) (id : String) (s : Sys) (op : Op) : List EarningRow :=
  if op.settles s = some id then earned cfg py s op else []

def settleDebits (cfg : Settings) (py : Interp) (s : Sys) (ops : List Op) (id : String) : List LedgerRow :=
  Runs.collect (next cfg py) (settleDebit cfg py id) s ops

def settleEarnings (cfg : Settings) (py : Interp) (s : Sys) (ops : List Op) (id : String) : List EarningRow :=
  Runs.collect (next cfg py) (settleEarning cfg py id) s ops

/-! ## The invariant -/

/-- `D` is the one debit of the charge `r` -/
def IsDebitOf (r : SettlementRow) (D : List LedgerRow) : Prop :=
  ∃ debit, D = [debit] ∧ debit.operation = .debit ∧ debit.orgId = r.orgId ∧ debit.amountUsdc = r.amountUsdc

/-- `E` is what the allocations of `r` earned at the operation of the run that debited it: a row for each allocation that
reads, is to be paid and is accepted by the constraints as they stood then -/
def IsEarnedBy (cfg : Settings) (py : Interp) (s : Sys) (ops : List Op) (r : SettlementRow) (D : List LedgerRow)
    (E : List EarningRow) : Prop :=
  ∃ before e i after, ops = before ++ Op.settleClaimed e i :: after ∧
    settleDebit cfg py r.id (run cfg py s before) (.settleClaimed e i) = D ∧
    ∃ items, readAllocations py r.earningsAllocations = .ok items ∧
    E = acceptedEarnings cfg py e.uuid (run cfg py s before).db.orgs (takenIds (run cfg py s before).db) 1 items

structure Settling (cfg : Settings) (py : Interp) (s₀ : Sys) (ops : List Op) (s : Sys) (D : String → List LedgerRow)
    (E : String → List EarningRow) : Prop where
  claims : ∀ c ∈ s.claims, ∃ r, s.db.settlements.get? c.row.id = some r ∧ SameCharge r c.row
  absent : ∀ id, s.db.settlements.get? id = none → D id = [] ∧ E id = []
  unpaid : ∀ id r, s.db.settlements.get? id = some r → r.status ≠ .settled → D id = [] ∧ E id = []
  paid : ∀ id r, s.db.settlements.get? id = some r → r.status = .settled →
    r.billingMethod = .credit ∧ IsDebitOf r (D id) ∧ IsEarnedBy cfg py s₀ ops r (D id) (E id)

/-! ## One step -/

variable {r r' : SettlementRow} {cfg : Settings} {py : Interp} {s : Sys} {ops : List Op} {s₀ : Sys}
  {D : String → List LedgerRow} {E : String → List EarningRow}

theorem SameCharge.symm (h : SameCharge r r') : SameCharge r' r := by
  unfold SameCharge at h ⊢
  rw [h]

theorem SameCharge.trans {r'' : SettlementRow} (h : SameCharge r r') (k : SameCharge r' r'') : SameCharge r r'' := by
  unfold SameCharge at h k ⊢
  rw [k, h]

theorem SameCharge.fields (h : SameCharge r r') :
    r'.orgId = r.orgId ∧ r'.amountUsdc = r.amountUsdc ∧ r'.billingMethod = r.billingMethod ∧
      r'.earningsAllocations = r.earningsAllocations ∧ r'.id = r.id := by
  rw [h]
  exact ⟨rfl, rfl, rfl, rfl, rfl⟩

theorem IsDebitOf.same {D : List LedgerRow} (h : IsDebitOf r D) (hs : SameCharge r r') : IsDebitOf r' D := by
  obtain ⟨debit, hD, hop, horg, hamount⟩ := h
  exact ⟨debit, hD, hop, horg.trans hs.fields.1.symm, hamount.trans hs.fields.2.1.symm⟩

theorem IsEarnedBy.later {D : List LedgerRow} {E : List EarningRow} (h : IsEarnedBy cfg py s ops r D E)
    (hs : SameCharge r r') (op : Op) : IsEarnedBy cfg py s (ops ++ [op]) r' D E := by
  obtain ⟨before, e, i, after, hops, hD, items, hitems, hE⟩ := h
  obtain ⟨-, -, -, halloc, hid⟩ := hs.fields
  exact ⟨before, e, i, after ++ [op], by rw [hops]; simp, by rw [hid]; exact hD, items, by rw [halloc]; exact hitems, hE⟩

/-- a step that pays nothing out of the queue: charges stay, and no row becomes or stops being settled -/
theorem Settling.keep {s' : Sys} (h : Settling cfg py s₀ ops s D E) (op : Op)
    (hkept : ∀ x r, s.db.settlements.get? x = some r → ∃ r', s'.db.settlements.get? x = some r' ∧ SameCharge r r' ∧ (r'.status = .settled ↔ r.status = .settled))
    (hfresh : ∀ x r', s'.db.settlements.get? x = some r' → s.db.settlements.get? x = none → r'.status ≠ .settled)
    (hclaims : ClaimsFrom s s') : Settling cfg py s₀ (ops ++ [op]) s' D E where
  claims c hc := by
    rcases hclaims c hc with ⟨c₀, hc₀, hrow⟩ | hsnap
    · obtain ⟨r, hr, hsame⟩ := h.claims c₀ hc₀
      obtain ⟨r', hr', hsame', -⟩ := hkept _ r hr
      rw [hrow] at hr' hsame
      exact ⟨r', hr', hsame'.symm.trans hsame⟩
    · exact hsnap
  absent id hid := by
    refine h.absent id ?_
    cases hr : s.db.settlements.get? id with
    | none => rfl
    | some r =>
      obtain ⟨r', hr', -⟩ := hkept id r hr
      rw [hid] at hr'
      cases hr'
  unpaid id r' hr' hne := by
    cases hr : s.db.settlements.get? id with
    | none => exact h.absent id hr
    | some r =>
      obtain ⟨x, hx, -, hiff⟩ := hkept id r hr
      rw [hr'] at hx
      cases hx
      exact h.unpaid id r hr (fun hs => hne (hiff.2 hs))
  paid id r' hr' hs := by
    cases hr : s.db.settlements.get? id with
    | none => exact absurd hs (hfresh id r' hr' hr)
    | some r =>
      obtain ⟨x, hx, hsame, hiff⟩ := hkept id r hr
      rw [hr'] at hx
      cases hx
      obtain ⟨hmethod, hD, hE⟩ := h.paid id r hr (hiff.1 hs)
      exact ⟨hsame.fields.2.2.1.trans hmethod, hD.same hsame, hE.later hsame op⟩

theorem Settling.frame {s' : Sys} (h : Settling cfg py s₀ ops s D E) (op : Op) (hf : SettlementFrame s s') :
    Settling cfg py s₀ (ops ++ [op]) s' D E := by
  refine h.keep op (fun x r hr => ⟨r, by rw [hf.settlements]; exact hr, rfl, Iff.rfl⟩) ?_ (ClaimsFrom.of_eq hf.claims)
  intro x r' hr' hnone
  rw [hf.settlements, hnone] at hr'
  cases hr'

theorem Settling.settle {s' : Sys} {e : Env} {i : ℕ} {c : Claim} (h : Settling cfg py s₀ ops (run cfg py s₀ ops) D E)
    (hi : (run cfg py s₀ ops).claims[i]? = some c) (hmethod : c.row.billingMethod = .credit)
    (hs : SettledBy cfg py e.now e.uuid c.row (run cfg py s₀ ops).db s'.db)
    (hclaims : s'.claims = (run cfg py s₀ ops).claims.eraseIdx i) {debit : LedgerRow}
    (hwritten : settleDebit cfg py c.row.id (run cfg py s₀ ops) (.settleClaimed e i) = [debit])
    (hdebit : IsDebitOf c.row [debit]) :
    Settling cfg py s₀ (ops ++ [.settleClaimed e i]) s' (fun id => D id ++ if c.row.id = id then [debit] else [])
      (fun id => E id ++ if c.row.id = id then
        s'.db.earnings.rows.drop (run cfg py s₀ ops).db.earnings.rows.length else []) := by
  obtain ⟨r, hr, hretrying, r', hr', hsettled, hsame⟩ := hs.claim
  obtain ⟨r₀, hr₀, hcharge⟩ := h.claims c (List.mem_of_getElem? hi)
  obtain rfl : r₀ = r := by rw [hr] at hr₀; exact (Option.some.inj hr₀).symm
  have hclaim : SameCharge c.row r' := hcharge.symm.trans hsame
  obtain ⟨hD, hE⟩ := h.unpaid c.row.id r₀ hr (by rw [hretrying]; decide)
  refine ⟨fun c' hc' => ?_, fun id hid => ?_, fun id x hx hne => ?_, fun id x hx hxs => ?_⟩
  · rw [hclaims] at hc'
    obtain ⟨x, hx, hxsame⟩ := h.claims c' (List.mem_of_mem_eraseIdx hc')
    by_cases hid : c'.row.id = c.row.id
    · rw [hid, hr] at hx
      cases hx
      exact ⟨r', by rw [hid]; exact hr', hsame.symm.trans hxsame⟩
    · exact ⟨x, by rw [hs.others _ hid]; exact hx, hxsame⟩
  · have hne : id ≠ c.row.id := by rintro rfl; rw [hr'] at hid; cases hid
    rw [hs.others id hne] at hid
    rw [if_neg (Ne.symm hne), if_neg (Ne.symm hne), List.append_nil, List.append_nil]
    exact h.absent id hid
  · have hne' : id ≠ c.row.id := by rintro rfl; rw [hr'] at hx; cases hx; exact hne hsettled
    rw [hs.others id hne'] at hx
    rw [if_neg (Ne.symm hne'), if_neg (Ne.symm hne'), List.append_nil, List.append_nil]
    exact h.unpaid id x hx hne
  · by_cases hid : id = c.row.id
    · subst hid
      rw [hr'] at hx
      cases hx
      obtain ⟨items, hitems, hrows⟩ := hs.earnings
      rw [if_pos rfl, if_pos rfl, hD, hE, List.nil_append, List.nil_append]
      obtain ⟨-, -, hm, halloc, hrid⟩ := hclaim.fields
      refine ⟨hm.trans hmethod, hdebit.same hclaim, ops, e, i, [], rfl, by rw [hrid]; exact hwritten, items,
        by rw [halloc]; exact hitems, ?_⟩
      rw [hrows, List.drop_left]
    · rw [hs.others id hid] at hx
      rw [if_neg (Ne.symm hid), if_neg (Ne.symm hid), List.append_nil, List.append_nil]
      obtain ⟨hm, hD', hE'⟩ := h.paid id x hx hxs
      exact ⟨hm, hD', hE'.later (SameCharge.refl x) _⟩

theorem Settling.apart_from {op : Op} (h : Settling cfg py s₀ ops s D E) (hsettles : op.settles s = none)
    (hf : SettlementFrame s (next cfg py s op)) :
    Settling cfg py s₀ (ops ++ [op]) (next cfg py s op) (fun id => D id ++ settleDebit cfg py id s op)
      (fun id => E id ++ settleEarning cfg py id s op) := by
  have hD : (fun id => D id ++ settleDebit cfg py id s op) = D := by funext id; simp [settleDebit, hsettles]
  have hE : (fun id => E id ++ settleEarning cfg py id s op) = E := by funext id; simp [settleEarning, hsettles]
  rw [hD, hE]
  exact h.frame op hf

/-- **Every step keeps the queue's books.** -/
theorem step_settling (op : Op) (h : Settling cfg py s₀ ops (run cfg py s₀ ops) D E) :
    Settling cfg py s₀ (ops ++ [op]) (next cfg py (run cfg py s₀ ops) op)
      (fun id => D id ++ settleDebit cfg py id (run cfg py s₀ ops) op)
      (fun id => E id ++ settleEarning cfg py id (run cfg py s₀ ops) op) := by
  cases step_effect cfg py (run cfg py s₀ ops) op with
  | quiet hq hclaims =>
    have hw := written_of_unmoved hq.unmoved
    have he : earned cfg py (run cfg py s₀ ops) op = [] := by simp [earned, hq.earnings]
    have hD : (fun id => D id ++ settleDebit cfg py id (run cfg py s₀ ops) op) = D := by
      simp [settleDebit, hw]
    have hE : (fun id => E id ++ settleEarning cfg py id (run cfg py s₀ ops) op) = E := by
      simp [settleEarning, he]
    rw [hD, hE]
    exact h.keep op hq.kept (fun x r' hr' hnone => (hq.fresh x r' hr' hnone).1) hclaims
  | limited hop hdb hclaims => exact h.apart_from (by rw [hop]; rfl) ⟨by rw [hdb], by rw [hdb], hclaims⟩
  | debited hop _ _ hf | funded hop _ _ hf => exact h.apart_from (by rw [hop]; rfl) hf
  | topped _ _ hsettles _ hf => exact h.apart_from hsettles hf
  | acted hop _ hf =>
    refine h.apart_from ?_ hf
    cases op <;> first | rfl | cases hop
  | @settled e i c hop hi hm hs hclaims =>
    subst hop
    have hsettles : ∀ id, (Op.settleClaimed e i).settles (run cfg py s₀ ops) = some id ↔ c.row.id = id := by
      simp [Op.settles, hi]
    have hw := written_of_moved hs.debit
    have hwritten : settleDebit cfg py c.row.id (run cfg py s₀ ops) (.settleClaimed e i) = _ :=
      (if_pos ((hsettles c.row.id).2 rfl)).trans hw
    have := h.settle hi hm hs hclaims hwritten ⟨_, rfl, rfl, rfl, rfl⟩
    simpa only [settleDebit, settleEarning, hsettles, hw, earned] using this

/-! ## Whole runs -/

theorem run_settling (cfg : Settings) (py : Interp) (hqueue : s.db.settlements.rows = []) (hclaims : s.claims = [])
    (ops : List Op) :
    Settling cfg py s ops (run cfg py s ops) (settleDebits cfg py s ops) (settleEarnings cfg py s ops) := by
  refine Runs.history_rule (next cfg py)
    (fun s' ops => Settling cfg py s ops s' (settleDebits cfg py s ops) (settleEarnings cfg py s ops)) ?_
    (fun ops op ih => ?_) ops
  · have hnone : ∀ id, s.db.settlements.get? id = none := by
      intro id
      rw [Table.get?_eq_none_iff, hqueue]
      simp
    refine ⟨fun c hc => ?_, fun id _ => ⟨rfl, rfl⟩, fun id r hr => ?_, fun id r hr => ?_⟩
    · rw [hclaims] at hc; cases hc
    · rw [hnone] at hr; cases hr
    · rw [hnone] at hr; cases hr
  · have hD : settleDebits cfg py s (ops ++ [op]) =
        fun id => settleDebits cfg py s ops id ++ settleDebit cfg py id (run cfg py s ops) op :=
      funext fun id => Runs.collect_snoc _ _ _ _ _
    have hE : settleEarnings cfg py s (ops ++ [op]) =
        fun id => settleEarnings cfg py s ops id ++ settleEarning cfg py id (run cfg py s ops) op :=
      funext fun id => Runs.collect_snoc _ _ _ _ _
    rw [hD, hE]
    exact step_settling op ih

theorem step_settled {op : Op} {id : String} (h : ∃ r, s.db.settlements.get? id = some r ∧ r.status = .settled) :
    ∃ r, (next cfg py s op).db.settlements.get? id = some r ∧ r.status = .settled := by
  obtain ⟨r, hr, hs⟩ := h
  have same : SettlementFrame s (next cfg py s op) →
      ∃ r, (next cfg py s op).db.settlements.get? id = some r ∧ r.status = .settled :=
    fun hf => ⟨r, by rw [hf.settlements]; exact hr, hs⟩
  cases step_effect cfg py s op with
  | quiet hq _ =>
    obtain ⟨r', hr', -, hiff⟩ := hq.kept id r hr
    exact ⟨r', hr', hiff.2 hs⟩
  | limited _ hdb hclaims => exact same ⟨by rw [hdb], by rw [hdb], hclaims⟩
  | debited _ _ _ hf | funded _ _ _ hf | topped _ _ _ _ hf | acted _ _ hf => exact same hf
  | @settled e i c _ _ _ hset _ =>
    obtain ⟨x, hx, hretrying, x', hx', hsettled, -⟩ := hset.claim
    by_cases hid : id = c.row.id
    · exact ⟨x', by rw [hid]; exact hx', hsettled⟩
    · exact ⟨r, by rw [hset.others id hid]; exact hr, hs⟩

/-- **Settlement retry is exactly-once.** From an empty queue, over any interleaving of workers, crashes, late claims and operator
resets, for every queue row: it is settled if and only if exactly one debit of its amount was written, and then each of its
readable allocations that is to be paid and that the constraints accepted was written once; otherwise no debit and no earnings
were; and settled is never left. -/
theorem settlement_exactly_once (cfg : Settings) (py : Interp) (s : Sys) (hqueue : s.db.settlements.rows = [])
    (hclaims : s.claims = []) (ops : List Op) (id : String) :
    (settleDebits cfg py s ops id).length ≤ 1 ∧
    (∀ r, (run cfg py s ops).db.settlements.get? id = some r →
      (r.status = .settled ↔ IsDebitOf r (settleDebits cfg py s ops id)) ∧
      (r.status = .settled →
        IsEarnedBy cfg py s ops r (settleDebits cfg py s ops id) (settleEarnings cfg py s ops id)) ∧
      (r.status ≠ .settled → settleDebits cfg py s ops id = [] ∧ settleEarnings cfg py s ops id = [])) ∧
    (∀ before after, ops = before ++ after →
      (∃ r, (run cfg py s before).db.settlements.get? id = some r ∧ r.status = .settled) →
      ∃ r, (run cfg py s ops).db.settlements.get? id = some r ∧ r.status = .settled) := by
  have h := run_settling cfg py hqueue hclaims ops
  refine ⟨?_, fun r hr => ⟨⟨fun hs => (h.paid id r hr hs).2.1, fun hD => ?_⟩, fun hs => (h.paid id r hr hs).2.2,
    h.unpaid id r hr⟩, fun before after hops hbefore => ?_⟩
  · cases hr : (run cfg py s ops).db.settlements.get? id with
    | none => simp [(h.absent id hr).1]
    | some r =>
      by_cases hs : r.status = .settled
      · obtain ⟨debit, hD, -⟩ := (h.paid id r hr hs).2.1
        simp [hD]
      · simp [(h.unpaid id r hr hs).1]
  · by_contra hs
    obtain ⟨debit, hD', -⟩ := hD
    rw [(h.unpaid id r hr hs).1] at hD'
    cases hD'
  · have hrun : run cfg py s ops = Runs.run (next cfg py) (run cfg py s before) after := by
      rw [hops]
      exact Runs.run_append _ _ _ _
    rw [hrun]
    exact Runs.run_inv (next cfg py) (fun s => ∃ r, s.db.settlements.get? id = some r ∧ r.status = .settled)
      (fun s op hs => step_settled hs) after hbefore

/-- a charge of 30 is queued with these allocations and claimed; the lease runs out and a second worker claims it; the
late worker comes first, finds its claim lost, and the second one settles -/
def lateWorkerRun (allocations : List Json) : List Op :=
  [.createOrg ⟨"org", "email"⟩, .createOrg ⟨"author", "email"⟩, .openAccount "org" 0,
    .adminTopup (.calm 0 "t") "org" 100 "admin" none,
    .enqueue (.calm 0 "q") "usage" "org" "run" .credit 30 none none "" allocations,
    .claimSettlements (.calm 2000000 "") (fun _ => false), .claimSettlements (.calm 302000000 "") (fun _ => false),
    .settleClaimed ⟨302000001, fun n => if n = 0 then "debit" else "earning", fun _ => false⟩ 0,
    .settleClaimed ⟨302000002, fun n => if n = 0 then "debit" else "earning", fun _ => false⟩ 0]

/-- a call of `caller`, for 10, of a tool of `author` -/
def toolCall (author caller : String) : Json :=
  .obj [("author_org_id", .str author), ("tool_name", .str "tool"), ("caller_org_id", .str caller),
    ("total_cost_usdc", .int 10)]

/-- no text is read and none is printed in these runs -/
def noText : Interp := ⟨fun _ => .ok .null, fun _ => ""⟩

/-- debited once and the author paid once, whatever the late worker did -/
theorem settlement_exactly_once_late_worker :
    let ops := lateWorkerRun [toolCall "author" "org"]
    ((settleDebits .default noText ⟨Db.empty, []⟩ ops "q").map LedgerRow.amountUsdc = [30] ∧
      (settleEarnings .default noText ⟨Db.empty, []⟩ ops "q").map EarningRow.orgId = ["author"]) ∧
    (settleDebits .default noText ⟨Db.empty, []⟩ ops "q").length ≤ 1 :=
  ⟨by decide +kernel, (settlement_exactly_once .default noText ⟨Db.empty, []⟩ rfl rfl _ "q").1⟩

/-- the well-formed allocations of a queue row -/
def wellFormed (py : Interp) (r : SettlementRow) : List Allocation :=
  match readAllocations py r.earningsAllocations with
  | .ok items => items.filterMap (fun j => (parseAllocation py j).toOption)
  | .error _ => []

/-- **A self-call earns nothing.** The row is settled, its one allocation is well-formed and its earnings row would be
accepted, and nothing was written for it: `insert_tool_call_earnings` pays no org for calling its own tool. -/
theorem self_call_not_paid :
    let ops := lateWorkerRun [toolCall "org" "org"]
    let last := run .default noText ⟨Db.empty, []⟩ ops
    (last.db.settlements.get? "q").map SettlementRow.status = some .settled ∧
    (last.db.settlements.get? "q").map (wellFormed noText) = some [⟨"org", "tool", "org", 10⟩] ∧
    accepts last.db.orgs (takenIds last.db) (earningRow .default "earning" ⟨"org", "tool", "org", 10⟩) = true ∧
    settleEarnings .default noText ⟨Db.empty, []⟩ ops "q" = [] := by
  decide +kernel

end Teardrop.Billing
