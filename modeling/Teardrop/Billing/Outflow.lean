/-
What left the treasury in the last 24 hours, `signed24h`, under the operations on the outbox. Only the delivery mark
touches the two columns it sums: every other operation leaves the rows where they are, with their amounts and start
times (`Follows`), and a new row has not started. So the window's sum moves with the clock and with marks alone.
-/
import Teardrop.Billing.Machine

namespace Teardrop.Billing

open Teardrop.Py List Tx Table

/-! ## The window -/

/-- delivery of the row began in the 24 hours before `now` -/
def startedWithin (now : ℤ) (r : OutboxRow) : Bool :=
  match r.deliveryStartedAt with
  | some t => decide (now - hours 24 ≤ t)
  | none => false

/-- what a row adds to the sum -/
def outflowOf (now : ℤ) (r : OutboxRow) : ℤ := if startedWithin now r then r.amountUsdc else 0

theorem signed24h_eq (now : ℤ) (db : Db) : signed24h now db = db.outbox.sum (outflowOf now) := by
  unfold signed24h Table.sum
  show ((db.outbox.rows.filter (startedWithin now)).map OutboxRow.amountUsdc).sum = _
  induction db.outbox.rows with
  | nil => rfl
  | cons r rows ih =>
    rw [filter_cons, map_cons, sum_cons, outflowOf, ← ih]
    split_ifs with h
    · rw [map_cons, sum_cons]
    · rw [zero_add]

variable {r : OutboxRow} {P : OutboxRow → Prop} {d : String} {hit : OutboxRow → Bool} {f : OutboxRow → OutboxRow} (e : Env)

theorem outflowOf_unstarted {now : ℤ} (h : r.deliveryStartedAt = none) : outflowOf now r = 0 := by
  simp [outflowOf, startedWithin, h]

theorem outflowOf_antitone {t t' : ℤ} (ht : t ≤ t') (hpos : 0 < r.amountUsdc) : outflowOf t' r ≤ outflowOf t r := by
  unfold outflowOf startedWithin
  cases r.deliveryStartedAt with
  | none => exact le_refl _
  | some s =>
    simp only [decide_eq_true_eq]
    split_ifs <;> omega

/-- **The window slides.** Rows leave it as time goes by; none comes in. -/
theorem signed24h_antitone {t t' : ℤ} (ht : t ≤ t') {db : Db} (hpos : ∀ r ∈ db.outbox.rows, 0 < r.amountUsdc) :
    signed24h t' db ≤ signed24h t db := by
  rw [signed24h_eq, signed24h_eq]
  exact sum_mono (fun r hr => outflowOf_antitone ht (hpos r hr))

/-! ## Operations beside the window -/

/-- what any operation but the delivery mark leaves of a row -/
structure Follows (r r' : OutboxRow) : Prop where
  id : r'.id = r.id
  orgId : r'.orgId = r.orgId
  amount : r'.amountUsdc = r.amountUsdc
  started : r'.deliveryStartedAt = r.deliveryStartedAt
  /-- a confirmed delivery stays confirmed -/
  confirmed : r.deliveryStatus = .confirmed → r'.deliveryStatus = .confirmed
  /-- and none comes to be in doubt -/
  doubt : r'.deliveryStatus = .possiblyDelivered → r.deliveryStatus = .possiblyDelivered

theorem Follows.refl (r : OutboxRow) : Follows r r := ⟨rfl, rfl, rfl, rfl, fun h => h, fun h => h⟩

theorem Follows.trans {r' r'' : OutboxRow} (h : Follows r r') (h' : Follows r' r'') : Follows r r'' :=
  ⟨h'.id.trans h.id, h'.orgId.trans h.orgId, h'.amount.trans h.amount, h'.started.trans h.started,
    fun hc => h'.confirmed (h.confirmed hc), fun hd => h.doubt (h'.doubt hd)⟩

/-- every row of the outbox follows the one in its place -/
def RowsFollow (db db' : Db) : Prop := List.Forall₂ Follows db.outbox.rows db'.outbox.rows

theorem RowsFollow.refl (db : Db) : RowsFollow db db := forall₂_same.2 (fun r _ => Follows.refl r)

theorem RowsFollow.of_eq {db db' : Db} (h : db'.outbox = db.outbox) : RowsFollow db db' := by
  unfold RowsFollow
  rw [h]
  exact RowsFollow.refl db

theorem RowsFollow.trans {db db' db'' : Db} (h : RowsFollow db db') (h' : RowsFollow db' db'') : RowsFollow db db'' := by
  have comp : ∀ {xs ys zs : List OutboxRow}, List.Forall₂ Follows xs ys → List.Forall₂ Follows ys zs →
      List.Forall₂ Follows xs zs := by
    intro xs ys zs hxy
    induction hxy generalizing zs with
    | nil => exact id
    | cons hr _ ih =>
      intro hyz
      cases hyz with
      | cons hr' hrest => exact .cons (hr.trans hr') (ih hrest)
  exact comp h h'

theorem RowsFollow.signed24h {db db' : Db} (h : RowsFollow db db') (now : ℤ) : signed24h now db' = signed24h now db := by
  rw [signed24h_eq, signed24h_eq, Table.sum, Table.sum]
  have hsame : db'.outbox.rows.map (outflowOf now) = db.outbox.rows.map (outflowOf now) := by
    refine List.Forall₂.rec (motive := fun xs ys _ => ys.map (outflowOf now) = xs.map (outflowOf now)) rfl ?_ h
    intro r r' rows rows' hr _ ih
    have hrow : outflowOf now r' = outflowOf now r := by
      unfold outflowOf startedWithin
      rw [hr.started, hr.amount]
    rw [map_cons, map_cons, hrow, ih]
  rw [hsame]

theorem RowsFollow.get? {db db' : Db} (h : RowsFollow db db') (x : String) :
    (db.outbox.get? x = none ∧ db'.outbox.get? x = none) ∨
    ∃ r r', db.outbox.get? x = some r ∧ db'.outbox.get? x = some r' ∧ Follows r r' := by
  have find : ∀ {xs ys : List OutboxRow}, List.Forall₂ Follows xs ys →
      (xs.find? (fun r => r.id = x) = none ∧ ys.find? (fun r => r.id = x) = none) ∨
      ∃ r r', xs.find? (fun r => r.id = x) = some r ∧ ys.find? (fun r => r.id = x) = some r' ∧ Follows r r' := by
    intro xs ys hxy
    induction hxy with
    | nil => exact Or.inl ⟨rfl, rfl⟩
    | @cons r r' rows rows' hr _ ih =>
      by_cases hx : r.id = x
      · refine Or.inr ⟨r, r', ?_, ?_, hr⟩
        · simp [hx]
        · simp [hr.id, hx]
      · simpa [hx, hr.id] using ih
  exact find h

theorem RowsFollow.forall {db db' : Db} (h : RowsFollow db db') (hkeep : ∀ r r', Follows r r' → P r → P r')
    (hP : ∀ r ∈ db.outbox.rows, P r) : ∀ r ∈ db'.outbox.rows, P r := by
  intro r' hr'
  rcases h.get? r'.id with ⟨-, hnone⟩ | ⟨r, r'', hr, hr'', hf⟩
  · rw [get?_of_mem hr'] at hnone
    cases hnone
  · rw [get?_of_mem hr'] at hr''
    cases hr''
    exact hkeep r _ hf (hP r (mem_of_get? hr))

variable {org ledgerId : String} {principal : Option String}

theorem updateRow_rows {hf : ∀ r, (f r).id = r.id} {db db' : Db} {n : ℕ} (h : updateRow org d hit f hf db = .ok (n, db')) :
    db'.outbox.rows = db.outbox.rows.map (fun r => if r.id = d && r.orgId = org && hit r then f r else r) := by
  have h := read_bind_ok h
  obtain ⟨-, h⟩ := require_bind_ok h
  cases pure_ok h
  rfl

theorem updateRow_follows {hf : ∀ r, (f r).id = r.id} {db db' : Db} {n : ℕ}
    (h : updateRow org d hit f hf db = .ok (n, db')) (hfollow : ∀ r, db.outbox.get? d = some r → Follows r (f r)) :
    RowsFollow db db' := by
  unfold RowsFollow
  rw [updateRow_rows h, forall₂_map_right_iff]
  refine forall₂_same.2 (fun r hr => ?_)
  split_ifs with hhit
  · have hid : r.id = d := by
      simp only [Bool.and_eq_true, decide_eq_true_eq] at hhit
      exact hhit.1.1
    exact hfollow r (hid ▸ get?_of_mem hr)
  · exact Follows.refl r

theorem payBack_follows {now : ℤ} {amount : ℤ} {reason : String} {reverses : Option String} {missing : String}
    {db db' : Db} {u : Unit} (h : payBack now ledgerId org amount reason principal reverses missing db = .ok (u, db')) :
    RowsFollow db db' :=
  RowsFollow.of_eq (payBack_ok h).outbox

theorem completeRefundLocked_follows {now : ℤ} {row : OutboxRow} {db db' : Db} {a : Bool}
    (h : completeRefundLocked now ledgerId org d row principal db = .ok (a, db')) : RowsFollow db db' := by
  have closed : ∀ {resolvedAt : OutboxRow → Option ℤ} {db db' : Db} {n : ℕ},
      closeRefund org d resolvedAt db = .ok (n, db') → RowsFollow db db' :=
    fun hclose => updateRow_follows hclose (fun r _ => ⟨rfl, rfl, rfl, rfl, id, id⟩)
  have h := read_bind_ok h
  split_ifs at h with hrev
  · obtain ⟨n, db₁, hclose, h⟩ := bind_ok h
    cases pure_ok h
    exact closed hclose
  · obtain ⟨_, db₁, hpay, h⟩ := bind_ok h
    obtain ⟨n, db₂, hclose, h⟩ := bind_ok h
    cases pure_ok h
    exact (payBack_follows hpay).trans (closed hclose)

theorem call_follows {fault : Bool} {α : Type} {t : Tx Db α} {db : Db}
    (h : ∀ a db', t db = .ok (a, db') → RowsFollow db db') : RowsFollow db (call fault t db).2 := by
  rcases call_cases fault t db with ⟨x, hc⟩ | ⟨a, db', ht, hc⟩
  · rw [hc]; exact RowsFollow.refl db
  · rw [hc]; exact h a db' ht

theorem reportFalse_snd (r : Call Bool × Db) : (reportFalse r).2 = r.2 := by
  obtain ⟨r, db⟩ := r
  cases r <;> rfl

theorem confirm_follows (org d settlementTx : String) (db : Db) :
    RowsFollow db (confirmDelegationDelivery e org d settlementTx db).2 := by
  unfold confirmDelegationDelivery
  rw [reportFalse_snd]
  refine call_follows (fun a db' h => ?_)
  have h := read_bind_ok h
  cases hrow : outboxRow org d db with
  | none =>
    simp only [hrow] at h
    cases pure_ok h
    exact RowsFollow.refl db
  | some row =>
    simp only [hrow] at h
    split_ifs at h
    · cases pure_ok h; exact RowsFollow.refl db
    · cases pure_ok h; exact RowsFollow.refl db
    · obtain ⟨n, db₁, hup, h⟩ := bind_ok h
      obtain ⟨m, db₂, hup', h⟩ := bind_ok h
      cases pure_ok h
      have hconfirm : RowsFollow db db₁ :=
        updateRow_follows hup (fun r _ => ⟨rfl, rfl, rfl, rfl, fun _ => rfl, fun hd => by cases hd⟩)
      exact hconfirm.trans (updateRow_follows hup' (fun r _ => ⟨rfl, rfl, rfl, rfl, id, id⟩))

theorem fail_follows (org d reason : String) (db : Db) : RowsFollow db (failDelegationDelivery e org d reason db).2 := by
  unfold failDelegationDelivery
  rw [reportFalse_snd]
  refine call_follows (fun a db' h => ?_)
  have h := read_bind_ok h
  cases hrow : outboxRow org d db with
  | none =>
    simp only [hrow] at h
    cases pure_ok h
    exact RowsFollow.refl db
  | some row =>
    simp only [hrow] at h
    have h := read_bind_ok h
    split_ifs at h with hclosed
    · cases pure_ok h; exact RowsFollow.refl db
    · cases pure_ok h; exact RowsFollow.refl db
    · cases pure_ok h; exact RowsFollow.refl db
    · obtain ⟨n, db₁, hup, h⟩ := bind_ok h
      obtain ⟨m, db₂, hup', h⟩ := bind_ok h
      -- the row it found is not confirmed, and it is the only one of its id
      have hfail : RowsFollow db db₁ := by
        refine updateRow_follows hup (fun r hr => ⟨rfl, rfl, rfl, rfl, fun hc => ?_, fun hd => by cases hd⟩)
        rw [(outboxRow_some hrow).1] at hr
        cases hr
        exact absurd (Or.inl hc) hclosed
      have hrequest : RowsFollow db₁ db₂ := updateRow_follows hup' (fun r _ => ⟨rfl, rfl, rfl, rfl, id, id⟩)
      exact (hfail.trans hrequest).trans (completeRefundLocked_follows h)
    · cases pure_ok h; exact RowsFollow.refl db

theorem complete_follows (org d : String) (db : Db) : RowsFollow db (completeDelegationRefund e org d db).2 := by
  unfold completeDelegationRefund
  rw [reportFalse_snd]
  refine call_follows (fun a db' h => ?_)
  have h := read_bind_ok h
  cases hrow : (outboxRow org d db).filter refundable with
  | none =>
    simp only [hrow] at h
    cases pure_ok h
    exact RowsFollow.refl db
  | some row =>
    simp only [hrow] at h
    exact completeRefundLocked_follows (read_bind_ok h)

theorem request_follows (org d : String) (db : Db) : RowsFollow db (requestDelegationRefund e org d db).2 := by
  unfold requestDelegationRefund
  rw [statementThenStatus_snd]
  exact call_follows (fun a db' h => updateRow_follows h (fun r _ => ⟨rfl, rfl, rfl, rfl, id, id⟩))

theorem cancel_follows (org d : String) (db : Db) : RowsFollow db (cancelDelegationRefund e org d db).2 := by
  unfold cancelDelegationRefund
  rw [statementThenStatus_snd]
  refine call_follows (fun a db' h => updateRow_follows h (fun r _ => ⟨rfl, rfl, rfl, rfl, fun hc => ?_, fun hd => ?_⟩))
  · simp [hc]
  · cases hs : r.deliveryStatus <;> simp [hs] at hd ⊢

/-- the delivery mark -/
def Op.marks : Op → Bool
  | .markPossiblyDelivered _ _ _ _ => true
  | _ => false

/-- **Only marks and fundings touch the sum.** Any other operation leaves every row in its place. -/
theorem next_follows (cfg : Settings) (py : Interp) (s : Sys) (op : Op) (hmark : op.marks = false)
    (hfund : op.funds = none) : RowsFollow s.db (next cfg py s op).db := by
  by_cases hdel : op.delegation = none
  · refine RowsFollow.of_eq ?_
    cases step_effect cfg py s op with
    | quiet hq _ => exact hq.outbox
    | limited _ hdb _ => rw [hdb]
    | debited _ _ hp _ => exact hp.outbox
    | funded hop _ _ _ => rw [hop] at hfund; cases hfund
    | topped _ _ _ ht _ => exact ht.outbox
    | acted hacted _ _ => rw [hdel] at hacted; cases hacted
    | settled _ _ _ hs _ => exact hs.outbox
  · cases op with
    | markPossiblyDelivered e org d charge => cases hmark
    | confirmDelivery e org d settlementTx => exact confirm_follows e org d settlementTx s.db
    | failDelivery e org d reason => exact fail_follows e org d reason s.db
    | requestRefund e org d => exact request_follows e org d s.db
    | cancelRefund e org d => exact cancel_follows e org d s.db
    | completeRefund e org d => exact complete_follows e org d s.db
    | _ => exact absurd rfl hdel

/-! ## Marks and fundings -/

/-- the row a mark writes -/
def markedRow (now final : ℤ) (row : OutboxRow) : OutboxRow :=
  { row with deliveryStatus := .possiblyDelivered, deliveryError := "", amountUsdc := final,
             deliveryStartedAt := row.deliveryStartedAt.or (some now) }

/-- what the writes of a mark leave: its row at the charge, started and in doubt, and every other row as it was -/
structure Marked (db db' : Db) (now : ℤ) (row : OutboxRow) (final : ℤ) : Prop where
  found : db.outbox.get? row.id = some row
  rows : db'.outbox.rows = db.outbox.rows.map (fun r => if r.id = row.id then markedRow now final row else r)

theorem beginDelivery_marked {now : ℤ} {row : OutboxRow} {final : ℤ} {db db' : Db} {a : Bool}
    (hget : db.outbox.get? d = some row) (horg : row.orgId = org)
    (h : beginDelivery now ledgerId org d row principal final db = .ok (a, db')) : Marked db db' now row final := by
  have hid := key_of_get? hget
  have updated : ∀ {db₁ db₂ : Db} {n : ℕ}, db₁.outbox = db.outbox →
      updateRow org d (fun _ => true) (markedRow now final) (fun _ => rfl) db₁ = .ok (n, db₂) →
      Marked db db₂ now row final := by
    intro db₁ db₂ n hout hup
    refine ⟨hid ▸ hget, ?_⟩
    rw [updateRow_rows hup, hout]
    refine map_congr_left (fun r hr => ?_)
    by_cases hr' : r.id = d
    · have hrow : db.outbox.get? d = some r := hr' ▸ get?_of_mem hr
      rw [hget] at hrow
      cases hrow
      simp [hid, horg]
    · simp [hr', hid]
  unfold beginDelivery at h
  split_ifs at h with hless
  · obtain ⟨_, db₁, hpay, h⟩ := bind_ok h
    obtain ⟨n, db₂, hup, h⟩ := bind_ok h
    cases pure_ok h
    exact updated (payBack_ok hpay).outbox hup
  · obtain ⟨n, db₂, hup, h⟩ := bind_ok h
    cases pure_ok h
    exact updated rfl hup

section Marked

variable {db db' : Db} {now : ℤ} {row : OutboxRow} {final : ℤ}

theorem Marked.get?_self (h : Marked db db' now row final) : db'.outbox.get? row.id = some (markedRow now final row) := by
  refine get?_of_mem (r := markedRow now final row) ?_
  rw [h.rows]
  exact mem_map.2 ⟨row, mem_of_get? h.found, if_pos rfl⟩

theorem Marked.get?_other (h : Marked db db' now row final) {x : String} (hx : x ≠ row.id) :
    db'.outbox.get? x = db.outbox.get? x := by
  unfold get?
  rw [h.rows]
  induction db.outbox.rows with
  | nil => rfl
  | cons r rows ih =>
    by_cases hr : r.id = row.id
    · have hself : ¬ (markedRow now final row).id = x := fun h => hx h.symm
      have hrow : ¬ r.id = x := fun h => hx (h.symm.trans hr)
      rw [map_cons, if_pos hr, find?_cons_of_neg (by simpa using hself), find?_cons_of_neg (by simpa using hrow), ih]
    · rw [map_cons, if_neg hr, find?_cons, find?_cons, ih]

theorem Marked.forall (h : Marked db db' now row final) (hP : ∀ r ∈ db.outbox.rows, P r)
    (hself : P (markedRow now final row)) : ∀ r ∈ db'.outbox.rows, P r := by
  intro r hr
  rw [h.rows] at hr
  obtain ⟨r₀, hr₀, rfl⟩ := mem_map.1 hr
  split_ifs
  · exact hself
  · exact hP r₀ hr₀

/-- **A mark adds exactly its charge** to the sum taken at its own time. -/
theorem Marked.signed24h (h : Marked db db' now row final) (hunstarted : row.deliveryStartedAt = none) :
    signed24h now db' = signed24h now db + final := by
  have hmarked : outflowOf now (markedRow now final row) = final := by
    simp [outflowOf, startedWithin, markedRow, hunstarted, hours]
  have hmap : db'.outbox.sum (outflowOf now) =
      db.outbox.sum (fun r => outflowOf now (if r.id = row.id then markedRow now final row else r)) := by
    rw [Table.sum, h.rows, map_map]
    rfl
  have hchange := sum_change h.found (v := outflowOf now)
    (w := fun r => outflowOf now (if r.id = row.id then markedRow now final row else r))
    (fun r _ hr => by rw [if_neg hr])
  rw [signed24h_eq, signed24h_eq, hmap, hchange, if_pos rfl, hmarked, outflowOf_unstarted hunstarted, sub_zero]

end Marked

theorem Funded.signed24h {db db' : Db} {debit : LedgerRow} {row : OutboxRow} (h : Funded db db' debit row)
    (hunstarted : row.deliveryStartedAt = none) (now : ℤ) : signed24h now db' = signed24h now db := by
  rw [signed24h_eq, signed24h_eq, sum_insert h.outbox, outflowOf_unstarted hunstarted, add_zero]

end Teardrop.Billing
