/-
The money of a delegation over whole runs. What was taken for delegation `d` are the rows the funding operations on `d`
wrote (`debitsFor`); what was paid back are the rows the operations on its outbox row wrote (`creditsFor`).
-/
import Teardrop.Billing.Machine

namespace Teardrop.Billing

open Teardrop.Py List

/-! ## Observations -/

/-- what an operation takes for delegation `d` -/
def debited (cfg : Settings) (py : Interp) (d : String) (s : Sys) (op : Op) : List LedgerRow :=
  if op.funds = some d then written cfg py s op else []

/-- what an operation pays back for delegation `d` -/
def credited (cfg : Settings) (py : Interp) (d : String) (s : Sys) (op : Op) : List LedgerRow :=
  if op.delegation.map Prod.snd = some d then written cfg py s op else []

def debitsFor (cfg : Settings) (py : Interp) (s : Sys) (ops : List Op) (d : String) : List LedgerRow :=
  Runs.collect (next cfg py) (debited cfg py d) s ops

def creditsFor (cfg : Settings) (py : Interp) (s : Sys) (ops : List Op) (d : String) : List LedgerRow :=
  Runs.collect (next cfg py) (credited cfg py d) s ops

def amounts (rows : List LedgerRow) : ℤ := (rows.map LedgerRow.amountUsdc).sum

theorem amounts_append (a b : List LedgerRow) : amounts (a ++ b) = amounts a + amounts b := by
  simp [amounts]

/-! ## The invariant -/

/-- the money of one delegation: `D` was taken for it, `C` was paid back -/
structure Held (db : Db) (r : OutboxRow) (D C : List LedgerRow) : Prop where
  debit : ∃ x, D = [x] ∧ x.operation = .debit ∧ x.orgId = r.orgId ∧ r.debitLedgerId = some x.id ∧ x ∈ db.ledger.rows
  credits : ∀ c ∈ C, c.operation = .topup ∧ c.orgId = r.orgId
  kept : amounts D - amounts C = r.hold.kept
  /-- a debit that is reversed belongs to a row that is closed -/
  reversed : ∀ l, r.debitLedgerId = some l → isReversed db.ledger.rows l = true → r.status = .refunded
  /-- before the refund there were adjustments only -/
  adjusted : r.status ≠ .refunded → ∀ c ∈ C, c.reversesLedgerId = none
  safe : r.status = .refunded → r.deliveryStatus = .notAttempted ∨ r.deliveryStatus = .failed
  nonneg : 0 ≤ r.amountUsdc

structure Funds (db : Db) (D C : String → List LedgerRow) : Prop where
  unfunded : ∀ d, db.outbox.get? d = none → D d = [] ∧ C d = []
  held : ∀ d r, db.outbox.get? d = some r → Held db r (D d) (C d)
  apart : ∀ d d' r r', db.outbox.get? d = some r → db.outbox.get? d' = some r' → r.debitLedgerId = r'.debitLedgerId → d = d'

/-! ## One step -/

variable {h h' : Hold} {db db' : Db} {new : List LedgerRow} {D C : String → List LedgerRow} {org d : String}
  {row : OutboxRow} {cfg : Settings}

theorem HoldStep.safe {c : Credit} (hs : HoldStep h h' c) (hr : h'.status = .refunded) :
    h'.delivery = .notAttempted ∨ h'.delivery = .failed := by
  cases hs with
  | mark ho _ | adjust ho _ _ _ => exact absurd hr (by rcases ho with ho | ho <;> simp [ho])
  | confirm _ _ | request _ _ => cases hr
  | complete _ hd => exact hd
  | fail _ _ => exact Or.inr rfl

theorem HoldStep.refund_closes {n : ℤ} (hs : HoldStep h h' (.refund n)) : h'.status = .refunded := by
  cases hs with
  | complete _ _ | fail _ _ => rfl

theorem HoldStep.refund_from {n : ℤ} (hs : HoldStep h h' (.refund n)) : h.open ∧ h.delivery ≠ .confirmed := by
  cases hs with
  | complete hr hd => exact ⟨Or.inr hr, by rcases hd with hd | hd <;> simp [hd]⟩
  | fail ho hd => exact ⟨ho, by rcases hd with hd | hd <;> simp [hd]⟩

theorem HoldStep.nonneg {c : Credit} (hs : HoldStep h h' c) (hn : 0 ≤ h.amount) : 0 ≤ h'.amount := by
  cases hs with
  | mark _ _ | confirm _ _ | request _ _ | complete _ _ | fail _ _ => exact hn
  | adjust _ _ hpos _ => exact hpos.le

theorem Held.grow {r : OutboxRow} {D C : List LedgerRow} (h : Held db r D C)
    (hrows : db'.ledger.rows = db.ledger.rows ++ new)
    (hnew : ∀ x ∈ new, ∀ l, r.debitLedgerId = some l → x.reversesLedgerId ≠ some l) : Held db' r D C := by
  obtain ⟨x, hD, hop, horg, hlink, hmem⟩ := h.debit
  refine ⟨⟨x, hD, hop, horg, hlink, ?_⟩, h.credits, h.kept, fun l hl hrev => ?_, h.adjusted, h.safe, h.nonneg⟩
  · rw [hrows]
    exact mem_append_left new hmem
  · refine h.reversed l hl ?_
    unfold isReversed at hrev ⊢
    rw [hrows, any_append, Bool.or_eq_true] at hrev
    rcases hrev with hrev | hrev
    · exact hrev
    · obtain ⟨y, hy, hyl⟩ := any_eq_true.1 hrev
      exact absurd (of_decide_eq_true hyl) (hnew y hy l hl)

theorem Funds.aside (h : Funds db D C) (hout : ∀ d, db'.outbox.get? d = db.outbox.get? d)
    (hrows : db'.ledger.rows = db.ledger.rows ++ new) (hnew : ∀ x ∈ new, x.reversesLedgerId = none) : Funds db' D C where
  unfunded d hd := h.unfunded d (hout d ▸ hd)
  held d r hr := (h.held d r (hout d ▸ hr)).grow hrows (fun x hx l _ => by rw [hnew x hx]; simp)
  apart d d' r r' hr hr' hl := h.apart d d' r r' (hout d ▸ hr) (hout d' ▸ hr') hl

/-- **A transition of the row, with its credit.** -/
theorem Held.step {r r' : OutboxRow} {D C : List LedgerRow} {c : Credit} (h : Held db r D C)
    (hs : HoldStep r.hold r'.hold c) (horg : r'.orgId = r.orgId) (hlink : r'.debitLedgerId = r.debitLedgerId)
    (hrows : db'.ledger.rows = db.ledger.rows ++ new) (hamount : amounts new = c.amount)
    (hcredit : ∀ x ∈ new, x.operation = .topup ∧ x.orgId = r.orgId)
    (hnew : r'.status = .refunded ∨ ∀ x ∈ new, x.reversesLedgerId = none) : Held db' r' D (C ++ new) := by
  have hopen : r.status ≠ .refunded := hs.not_refunded
  obtain ⟨x, hD, hop, hxorg, hx, hmem⟩ := h.debit
  refine ⟨⟨x, hD, hop, hxorg.trans horg.symm, hlink.trans hx, ?_⟩, fun y hy => ?_, ?_, fun l hl hrev => ?_,
    fun hne y hy => ?_, hs.safe, hs.nonneg h.nonneg⟩
  · rw [hrows]
    exact mem_append_left new hmem
  · rw [horg]
    rcases mem_append.1 hy with hy | hy
    · exact h.credits y hy
    · exact hcredit y hy
  · have hkept := hs.kept
    have hbefore := h.kept
    rw [amounts_append, hamount]
    omega
  · -- unless this step refunds, a reversal of the debit would be an old one, and the row would be closed already
    rcases hnew with hclosed | hnew
    · exact hclosed
    · have hrev' := (h.grow hrows (fun y hy l _ => by rw [hnew y hy]; simp)).reversed l (hlink ▸ hl) hrev
      exact absurd hrev' hopen
  · rcases mem_append.1 hy with hy | hy
    · exact h.adjusted hopen y hy
    · rcases hnew with hclosed | hnew
      · exact absurd hclosed hne
      · exact hnew y hy

theorem Pays.rows {r : OutboxRow} {c : Credit} (hs : HoldStep h h' c) (hp : Pays db db' r c) :
    ∃ new, db'.ledger.rows = db.ledger.rows ++ new ∧ amounts new = c.amount ∧
      (∀ x ∈ new, x.operation = .topup ∧ x.orgId = r.orgId) ∧
      (∀ x ∈ new, x.reversesLedgerId = none ∨ x.reversesLedgerId = r.debitLedgerId) ∧
      (h'.status = .refunded ∨ ∀ x ∈ new, x.reversesLedgerId = none) := by
  cases c with
  | nothing =>
    exact ⟨[], by rw [hp.ledger, append_nil], rfl, by simp, by simp, Or.inr (by simp)⟩
  | adjustment n =>
    obtain ⟨row, hm, hop, horg, hn, hrev⟩ := hp
    exact ⟨[row], hm.rows, by simp [amounts, Credit.amount, hn], by simp [hop, horg], by simp [hrev],
      Or.inr (by simp [hrev])⟩
  | refund n =>
    obtain ⟨row, hm, hop, horg, hn, hrev⟩ := hp
    exact ⟨[row], hm.rows, by simp [amounts, Credit.amount, hn], by simp [hop, horg], by simp [hrev],
      Or.inl hs.refund_closes⟩

/-- an operation on the row of `d` keeps the books of every delegation; what it posts is paid back for `d` -/
theorem Funds.acted (h : Funds db D C) (ha : Acts db db' org d) :
    ∃ new, db'.ledger.rows = db.ledger.rows ++ new ∧ Funds db' D (fun x => C x ++ if x = d then new else []) := by
  cases ha.act with
  | idle hout hm =>
    have hrows : db'.ledger.rows = db.ledger.rows ++ [] := by rw [hm.ledger, append_nil]
    refine ⟨[], hrows, ?_⟩
    simpa using h.aside hout hrows (by simp)
  | @paid r r' l hrw _ hl hrev hne _ _ => exact absurd ((h.held d r hrw.before).reversed l hl hrev) hne
  | @step r r' c hrw _ hs hpays =>
    obtain ⟨new, hrows, hamount, hcredit, hwhich, hnew⟩ := Pays.rows hs hpays
    refine ⟨new, hrows, ⟨fun x hx => ?_, fun x y hy => ?_, fun x x' y y' hy hy' hl => ?_⟩⟩
    · have hne : x ≠ d := by rintro rfl; rw [hrw.after] at hx; cases hx
      rw [if_neg hne, append_nil]
      exact h.unfunded x (by rw [← hrw.others x hne]; exact hx)
    · by_cases hxd : x = d
      · subst hxd
        rw [hrw.after] at hy
        cases hy
        rw [if_pos rfl]
        exact (h.held x r hrw.before).step hs hrw.org hrw.debit hrows hamount hcredit hnew
      · rw [if_neg hxd, append_nil]
        have hy : db.outbox.get? x = some y := by rw [← hrw.others x hxd]; exact hy
        refine (h.held x y hy).grow hrows (fun z hz l hl hzl => ?_)
        -- the row of `d` reverses its own debit, which is not the debit of `x`
        rcases hwhich z hz with hz | hz
        · rw [hz] at hzl; cases hzl
        · exact hxd (h.apart x d y r hy hrw.before (by rw [hl, ← hzl, hz]))
    · have before : ∀ z w, db'.outbox.get? z = some w →
          ∃ v, db.outbox.get? z = some v ∧ v.debitLedgerId = w.debitLedgerId := by
        intro z w hw
        by_cases hz : z = d
        · subst hz
          rw [hrw.after] at hw
          cases hw
          exact ⟨r, hrw.before, hrw.debit.symm⟩
        · exact ⟨w, by rw [← hrw.others z hz]; exact hw, rfl⟩
      obtain ⟨v, hv, hvl⟩ := before x y hy
      obtain ⟨v', hv', hvl'⟩ := before x' y' hy'
      exact h.apart x x' v v' hv hv' (by rw [hvl, hvl', hl])

theorem Funds.fund {debit : LedgerRow} (h : Funds db D C) (hf : Funded db db' debit row) (hop : debit.operation = .debit)
    (hrev : debit.reversesLedgerId = none) : Funds db' (fun x => D x ++ if x = row.id then [debit] else []) C := by
  obtain ⟨db₁, hp, hrest⟩ := hf.posted
  have hrows : db'.ledger.rows = db.ledger.rows ++ [debit] := by rw [hrest]; exact hp.rows
  have hnew : ∀ x ∈ [debit], x.reversesLedgerId = none := by simp [hrev]
  have hget := Table.get?_insert hf.outbox
  have hfree : db.outbox.get? row.id = none := (Table.insert?_eq_some hf.outbox).1
  -- the debits on record are in the ledger, and this one is new
  have hlink : ∀ x y, db.outbox.get? x = some y → y.debitLedgerId ≠ row.debitLedgerId := by
    intro x y hy hl
    obtain ⟨z, -, -, -, hz, hmem⟩ := (h.held x y hy).debit
    rw [hz, hf.link] at hl
    exact hp.fresh (Option.some.inj hl ▸ mem_map_of_mem hmem)
  refine ⟨fun x hx => ?_, fun x y hy => ?_, fun x x' y y' hy hy' hl => ?_⟩
  · rw [hget] at hx
    split_ifs at hx with hx'
    rw [if_neg (Ne.symm hx'), append_nil]
    exact h.unfunded x hx
  · rw [hget] at hy
    split_ifs at hy with hx
    · cases hy
      subst hx
      obtain ⟨hD, hC⟩ := h.unfunded row.id hfree
      have hopen : row.status ≠ .refunded := by rw [hf.status]; decide
      have hmem : debit ∈ db'.ledger.rows := by rw [hrows]; simp
      refine ⟨⟨debit, by simp [hD], hop, hf.org.symm, hf.link, hmem⟩, by simp [hC], ?_, fun l hl hr => ?_, by simp [hC],
        fun hr => absurd hr hopen, ?_⟩
      · simp [hD, hC, amounts, Hold.kept, OutboxRow.hold, hopen, hf.amount]
      · -- a reversal points into the ledger, where the new debit was not
        exfalso
        rw [hf.link] at hl
        cases hl
        obtain ⟨z, hz, hzl⟩ := any_eq_true.1 hr
        rw [hrows] at hz
        have hzl : z.reversesLedgerId = some debit.id := of_decide_eq_true hzl
        rcases mem_append.1 hz with hz | hz
        · exact hp.fresh (db.ledger.reversed z hz debit.id hzl)
        · rw [hnew z hz] at hzl; cases hzl
      · rw [hf.amount]
        exact hp.positive.le
    · rw [if_neg (Ne.symm hx), append_nil]
      exact (h.held x y hy).grow hrows (fun z hz l _ => by rw [hnew z hz]; simp)
  · rw [hget] at hy hy'
    split_ifs at hy hy' with hx hx' hx'
    · exact hx.symm.trans hx'
    · cases hy
      exact absurd hl.symm (hlink x' y' hy')
    · cases hy'
      exact absurd hl (hlink x y hy)
    · exact h.apart x x' y y' hy hy' hl

theorem Funds.apart_from {py : Interp} {s : Sys} {op : Op} (h : Funds s.db D C) (hfunds : op.funds = none)
    (hdelegation : op.delegation = none) (hout : (next cfg py s op).db.outbox = s.db.outbox)
    (hrows : (next cfg py s op).db.ledger.rows = s.db.ledger.rows ++ new) (hnew : ∀ x ∈ new, x.reversesLedgerId = none) :
    Funds (next cfg py s op).db (fun d => D d ++ debited cfg py d s op) (fun d => C d ++ credited cfg py d s op) := by
  have hD : (fun d => D d ++ debited cfg py d s op) = D := by funext d; simp [debited, hfunds]
  have hC : (fun d => C d ++ credited cfg py d s op) = C := by funext d; simp [credited, hdelegation]
  rw [hD, hC]
  exact h.aside (fun d => by rw [hout]) hrows hnew

/-- **Every step keeps the books of every delegation.** -/
theorem step_funds (cfg : Settings) (py : Interp) (s : Sys) (op : Op) (h : Funds s.db D C) :
    Funds (next cfg py s op).db (fun d => D d ++ debited cfg py d s op) (fun d => C d ++ credited cfg py d s op) := by
  cases step_effect cfg py s op with
  | quiet hq _ =>
    have hw := written_of_unmoved hq.unmoved
    have hD : (fun d => D d ++ debited cfg py d s op) = D := by funext d; simp [debited, hw]
    have hC : (fun d => C d ++ credited cfg py d s op) = C := by funext d; simp [credited, hw]
    have hrows : (next cfg py s op).db.ledger.rows = s.db.ledger.rows ++ [] := by
      rw [hq.unmoved.ledger, append_nil]
    rw [hD, hC]
    exact h.aside (fun d => by rw [hq.outbox]) hrows (by simp)
  | @limited row hop hdb _ =>
    subst hop
    have hrows : (next cfg py s (.upsertPrincipalLimit row)).db.ledger.rows = s.db.ledger.rows ++ [] := by
      rw [hdb, append_nil]
    exact h.apart_from rfl rfl (by rw [hdb]) hrows (by simp)
  | debited hop _ hp _ =>
    subst hop
    exact h.apart_from rfl rfl hp.outbox hp.rows (by simp [debitRow])
  | topped hdelegation hfunds _ ht _ =>
    rcases ht.money with hm | ⟨row, hm, -, hrev⟩
    · have hrows : (next cfg py s op).db.ledger.rows = s.db.ledger.rows ++ [] := by
        rw [hm.ledger, append_nil]
      exact h.apart_from hfunds hdelegation ht.outbox hrows (by simp)
    · exact h.apart_from hfunds hdelegation ht.outbox hm.rows (by simp [hrev])
  | settled hop _ _ hs _ =>
    subst hop
    exact h.apart_from rfl rfl hs.outbox hs.debit.rows (by simp [debitRow])
  | @funded e org amount reason d runId principal hop _ hf _ =>
    subst hop
    obtain ⟨db₁, hp, hrest⟩ := hf.posted
    have hw := written_of_moved (hp.reframe hrest)
    have hD : (fun x => D x ++ debited cfg py x s (.fundDelegation e org amount reason d runId principal)) =
        fun x => D x ++ if x = d then
          [debitRow e.now (e.uuid 0) org amount (balance s.db org - amount) reason principal] else [] := by
      simp [debited, Op.funds, hw, eq_comm]
    have hC : (fun x => C x ++ credited cfg py x s (.fundDelegation e org amount reason d runId principal)) = C := by
      simp [credited, Op.delegation]
    rw [hD, hC]
    exact h.fund hf rfl rfl
  | @acted org d hop ha _ =>
    obtain ⟨new, hrows, hfunds⟩ := h.acted ha
    have hw : written cfg py s op = new := by simp [written, hrows]
    have hnone : op.funds = none := by
      cases op <;> first | rfl | cases hop
    have hD : (fun x => D x ++ debited cfg py x s op) = D := by funext x; simp [debited, hnone]
    have hC : (fun x => C x ++ credited cfg py x s op) = fun x => C x ++ if x = d then new else [] := by
      simp [credited, hop, hw, eq_comm]
    rw [hD, hC]
    exact hfunds

/-! ## Whole runs -/

theorem run_funds (cfg : Settings) (py : Interp) {s : Sys} (hempty : s.db.outbox.rows = []) (ops : List Op) :
    Funds (run cfg py s ops).db (debitsFor cfg py s ops) (creditsFor cfg py s ops) := by
  refine Runs.history_rule (next cfg py)
    (fun s' ops => Funds s'.db (debitsFor cfg py s ops) (creditsFor cfg py s ops)) ?_ (fun ops op ih => ?_) ops
  · have hnone : ∀ d, s.db.outbox.get? d = none := by
      intro d
      rw [Table.get?_eq_none_iff, hempty]
      simp
    refine ⟨fun d _ => ⟨rfl, rfl⟩, fun d r hr => ?_, fun d d' r r' hr => ?_⟩
    · rw [hnone] at hr; cases hr
    · rw [hnone] at hr; cases hr
  · have hD : debitsFor cfg py s (ops ++ [op]) =
        fun d => debitsFor cfg py s ops d ++ debited cfg py d (Runs.run (next cfg py) s ops) op :=
      funext fun d => Runs.collect_snoc _ _ _ _ _
    have hC : creditsFor cfg py s (ops ++ [op]) =
        fun d => creditsFor cfg py s ops d ++ credited cfg py d (Runs.run (next cfg py) s ops) op :=
      funext fun d => Runs.collect_snoc _ _ _ _ _
    rw [hD, hC]
    exact step_funds cfg py _ op ih

/-! ## Who may credit a refund -/

theorem confirm_unmoved (e : Env) (org d settlementTx : String) (db : Db) :
    Unmoved db (confirmDelegationDelivery e org d settlementTx db).2 := by
  unfold confirmDelegationDelivery
  rcases call_cases (e.fault 0) (confirmTx e.now org d (normalizeDeliveryTransaction settlementTx)) db with
    ⟨x, hc⟩ | ⟨a, db', ht, hc⟩
  · rw [hc]; exact Unmoved.refl db
  · rw [hc]
    have ht := Tx.read_bind_ok ht
    cases hrow : outboxRow org d db with
    | none =>
      simp only [hrow] at ht
      cases Tx.pure_ok ht; exact Unmoved.refl db
    | some row =>
      simp only [hrow] at ht
      split_ifs at ht
      · cases Tx.pure_ok ht; exact Unmoved.refl db
      · cases Tx.pure_ok ht; exact Unmoved.refl db
      · obtain ⟨n, db₁, hup, ht⟩ := Tx.bind_ok ht
        obtain ⟨m, db₂, hup', ht⟩ := Tx.bind_ok ht
        cases Tx.pure_ok ht
        exact Unmoved.of_outbox (by rw [reportFalse, (updateRow_ok hup').1, (updateRow_ok hup).1])

theorem mark_in_doubt {e : Env} {charge : Option ℤ} (hrow : outboxRow org d db = some row)
    (hdoubt : row.deliveryStatus = .possiblyDelivered) : (markDelegationPossiblyDelivered cfg e org d charge db).2 = db := by
  unfold markDelegationPossiblyDelivered
  rcases call_cases (e.fault 0) (markTx cfg e.now (e.uuid 0) org d charge) db with ⟨x, hc⟩ | ⟨a, db', ht, hc⟩
  · rw [hc]; rfl
  · rw [hc]
    have ht := Tx.read_bind_ok ht
    simp only [hrow] at ht
    have ht := Tx.read_bind_ok ht
    rw [if_pos (Or.inl hdoubt)] at ht
    cases Tx.pure_ok ht
    rfl

/-- a row in doubt is not refunded by `complete_delegation_refund` -/
theorem complete_in_doubt {e : Env} (hrow : outboxRow org d db = some row)
    (hdoubt : row.deliveryStatus = .possiblyDelivered) : (completeDelegationRefund e org d db).2 = db := by
  unfold completeDelegationRefund
  rcases call_cases (e.fault 0) (completeTx e.now (e.uuid 0) org d) db with ⟨x, hc⟩ | ⟨a, db', ht, hc⟩
  · rw [hc]; rfl
  · rw [hc]
    have ht := Tx.read_bind_ok ht
    have hnot : (outboxRow org d db).filter refundable = none := by
      simp [hrow, refundable, hdoubt]
    simp only [hnot] at ht
    cases Tx.pure_ok ht
    rfl

/-- **In doubt, only a definite failure pays back.** -/
theorem written_in_doubt {py : Interp} {s : Sys} {op : Op} (hop : op.delegation = some (org, d))
    (hrow : outboxRow org d s.db = some row) (hdoubt : row.deliveryStatus = .possiblyDelivered)
    (hfail : ∀ e reason, op ≠ .failDelivery e org d reason) : written cfg py s op = [] := by
  refine written_of_unmoved ?_
  have same : ∀ {db' : Db}, db' = s.db → Unmoved s.db db' := fun hdb => hdb ▸ Unmoved.refl s.db
  cases op with
  | markPossiblyDelivered e org' d' charge => cases hop; exact same (mark_in_doubt hrow hdoubt)
  | confirmDelivery e org' d' settlementTx => exact confirm_unmoved e org' d' settlementTx s.db
  | failDelivery e org' d' reason => cases hop; exact absurd rfl (hfail e reason)
  | requestRefund e org' d' | cancelRefund e org' d' => exact statement_unmoved e org' d' _ _ _ _ s.db
  | completeRefund e org' d' => cases hop; exact same (complete_in_doubt hrow hdoubt)
  | _ => cases hop

/-- a step that credits a refund finds the row open and closes it, undelivered -/
structure RefundStep (db db' : Db) (d : String) (op : Op) : Prop where
  before : ∃ r, db.outbox.get? d = some r ∧ (r.status = .pending ∨ r.status = .refundRequested) ∧
    r.deliveryStatus ≠ .confirmed ∧
    (r.deliveryStatus = .possiblyDelivered → ∃ e org reason, op = .failDelivery e org d reason)
  after : ∃ r, db'.outbox.get? d = some r ∧ r.status = .refunded ∧
    (r.deliveryStatus = .notAttempted ∨ r.deliveryStatus = .failed)

theorem refund_step {py : Interp} {s : Sys} {op : Op} {c : LedgerRow} (h : Funds s.db D C)
    (hc : c ∈ credited cfg py d s op) (href : c.reversesLedgerId ≠ none) : RefundStep s.db (next cfg py s op).db d op := by
  unfold credited at hc
  split_ifs at hc with hd
  · cases step_effect cfg py s op with
    | quiet hq _ => rw [written_of_unmoved hq.unmoved] at hc; cases hc
    | limited hop _ _ | debited hop _ _ _ | funded hop _ _ _ | settled hop _ _ _ _ => subst hop; cases hd
    | topped hnone _ _ _ _ => rw [hnone] at hd; cases hd
    | @acted org d' hop ha _ =>
      have hd' : d' = d := by simpa [hop] using hd
      subst hd'
      cases ha.act with
      | idle _ hm => rw [written_of_unmoved hm] at hc; cases hc
      | paid hrw _ hl hrev hne _ _ => exact absurd ((h.held _ _ hrw.before).reversed _ hl hrev) hne
      | @step r r' k hrw horg hs hpays =>
        have hrow : outboxRow org d' s.db = some r := by simp [outboxRow, hrw.before, horg]
        have hdoubt : r.deliveryStatus = .possiblyDelivered → ∃ e org reason, op = .failDelivery e org d' reason := by
          intro hr
          by_contra hnot
          push Not at hnot
          rw [written_in_doubt hop hrow hr (fun e reason => hnot e org reason)] at hc
          cases hc
        cases k with
        | nothing => rw [written_of_unmoved hpays] at hc; cases hc
        | adjustment n =>
          obtain ⟨row, hm, -, -, -, hrev⟩ := hpays
          rw [written_of_moved hm, mem_singleton] at hc
          subst hc
          exact absurd hrev href
        | refund n =>
          have hready : (r.status = .pending ∨ r.status = .refundRequested) ∧ r.deliveryStatus ≠ .confirmed :=
            hs.refund_from
          exact ⟨⟨r, hrw.before, hready.1, hready.2, hdoubt⟩, ⟨r', hrw.after, hs.refund_closes, hs.safe hs.refund_closes⟩⟩
  · cases hc

/-! ## The result -/

/-- **Delegation funds are returned at most once, and never more than was taken.** Over any interleaving from an empty outbox,
for every delegation: at most one debit; debit minus credits is what the outbox row holds, and 0 once it is refunded; a row that
is delivered, in doubt or cancelled has been credited no refund; and a refund is credited to an open, unconfirmed row. -/
theorem delegation_funds (cfg : Settings) (py : Interp) (s : Sys) (hempty : s.db.outbox.rows = []) (ops : List Op)
    (d : String) :
    (debitsFor cfg py s ops d).length ≤ 1 ∧
    (∀ x ∈ debitsFor cfg py s ops d, x.operation = .debit) ∧ (∀ x ∈ creditsFor cfg py s ops d, x.operation = .topup) ∧
    amounts (creditsFor cfg py s ops d) ≤ amounts (debitsFor cfg py s ops d) ∧
    ((run cfg py s ops).db.outbox.get? d = none → debitsFor cfg py s ops d = [] ∧ creditsFor cfg py s ops d = []) ∧
    (∀ r, (run cfg py s ops).db.outbox.get? d = some r →
      amounts (debitsFor cfg py s ops d) - amounts (creditsFor cfg py s ops d) =
        if r.status = .refunded then 0 else r.amountUsdc) ∧
    (∀ r, (run cfg py s ops).db.outbox.get? d = some r →
      r.deliveryStatus = .possiblyDelivered ∨ r.deliveryStatus = .confirmed ∨ r.status = .cancelled →
      ∀ c ∈ creditsFor cfg py s ops d, c.reversesLedgerId = none) ∧
    (∀ before op after, ops = before ++ op :: after → ∀ c ∈ credited cfg py d (run cfg py s before) op,
      c.reversesLedgerId ≠ none → RefundStep (run cfg py s before).db (run cfg py s (before ++ [op])).db d op) := by
  have h := run_funds cfg py hempty ops
  have hrefund : ∀ before op after, ops = before ++ op :: after → ∀ c ∈ credited cfg py d (run cfg py s before) op,
      c.reversesLedgerId ≠ none → RefundStep (run cfg py s before).db (run cfg py s (before ++ [op])).db d op := by
    intro before op after _ c hc href
    have hsnoc : run cfg py s (before ++ [op]) = next cfg py (run cfg py s before) op := Runs.run_snoc _ _ _ _
    rw [hsnoc]
    exact refund_step (run_funds cfg py hempty before) hc href
  cases hrow : (run cfg py s ops).db.outbox.get? d with
  | none =>
    obtain ⟨hD, hC⟩ := h.unfunded d hrow
    refine ⟨by simp [hD], by simp [hD], by simp [hC], by simp [hD, hC], fun _ => ⟨hD, hC⟩, ?_, ?_, hrefund⟩
    · intro r hr; cases hr
    · intro r hr; cases hr
  | some row =>
    have hheld := h.held d row hrow
    obtain ⟨x, hD, hop, -⟩ := hheld.debit
    have hkept : amounts (debitsFor cfg py s ops d) - amounts (creditsFor cfg py s ops d) =
        if row.status = .refunded then 0 else row.amountUsdc := hheld.kept
    refine ⟨by simp [hD], by simp [hD, hop], fun c hc => (hheld.credits c hc).1, ?_, (fun hn => by cases hn), ?_, ?_,
      hrefund⟩
    · have hnonneg := hheld.nonneg
      split_ifs at hkept <;> omega
    · intro r hr
      cases hr
      exact hkept
    · intro r hr hstate
      cases hr
      refine hheld.adjusted (fun hrefunded => ?_)
      have hsafe := hheld.safe hrefunded
      rcases hstate with hd | hd | hs
      · rw [hd] at hsafe; simp at hsafe
      · rw [hd] at hsafe; simp at hsafe
      · rw [hs] at hrefunded; cases hrefunded

/-- 60 taken, 20 of them adjusted away when delivery begins, and the rest refunded when it fails -/
def adjustThenFail : List Op :=
  [.createOrg ⟨"org", "email"⟩, .openAccount "org" 0, .adminTopup (.calm 0 "t") "org" 100 "admin" none,
    .fundDelegation (.calm 1 "debit") "org" 60 "a2a" "d" "run" none,
    .markPossiblyDelivered (.calm 2 "adjust") "org" "d" (some 40),
    .failDelivery (.calm 3 "refund") "org" "d" "no answer", .failDelivery (.calm 4 "again") "org" "d" "no answer"]

theorem delegation_funds_adjust_fail :
    let s : Sys := ⟨Db.empty, []⟩
    let py : Interp := ⟨fun _ => .ok .null, fun _ => ""⟩
    ((creditsFor .default py s adjustThenFail "d").map LedgerRow.amountUsdc = [20, 40] ∧
      balance (run .default py s adjustThenFail).db "org" = 100) ∧
    amounts (creditsFor .default py s adjustThenFail "d") ≤ amounts (debitsFor .default py s adjustThenFail "d") :=
  ⟨by decide, (delegation_funds .default _ ⟨Db.empty, []⟩ rfl adjustThenFail "d").2.2.2.1⟩

end Teardrop.Billing
