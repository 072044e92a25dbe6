/-
Charge, usage event and ledger of a run agree, over whole runs of the till: any number of credit runs dispatching their
settlements, beside every operation of the billing machine and the records of other rails.

A run's ids are its own: `Distinct` says that no operation names the ids of a run it is not about. `uuid5` is the text of
`uuid.uuid5`, never empty.
-/
import Teardrop.Billing.RunCharges
import Teardrop.Billing.RunFrames
import Teardrop.Core.Locks

namespace Teardrop.Billing

open Teardrop.Py SameCharge List Table Option RunTask

section Books

variable (uuid5 : String → String)

/-! ## The records of a run -/

def BilledRun.chargeId (b : BilledRun) : String := chargeIdFor uuid5 b.source b.runId

/-- a row of the queue that carries an id of the run -/
def RowNames (b : BilledRun) (r : SettlementRow) : Prop :=
  r.runId = b.runId ∨ r.usageEventId = b.usageEventId ∨ r.chargeId = b.chargeId uuid5

/-- a charge that carries an id of the run -/
def HeadNames (b : BilledRun) (h : ChargeHead) : Prop :=
  h.id = b.chargeId uuid5 ∨ h.invocationId = b.runId ∨ h.usageEventId = b.usageEventId

/-- equal but for `updated_at` -/
def SameHead (h h' : ChargeHead) : Prop := h' = { h with updatedAt := h'.updatedAt }

/-- two runs with different ids -/
structure OtherRun (b b' : BilledRun) : Prop where
  run : b.runId ≠ b'.runId
  usage : b.usageEventId ≠ b'.usageEventId
  charge : b.chargeId uuid5 ≠ b'.chargeId uuid5

/-- the records of run `b` are as they were, but for retry columns and `updated_at` -/
structure Untouched (b : BilledRun) (db : Db) (heads : Table ChargeHead.id) (db' : Db) (heads' : Table ChargeHead.id) :
    Prop where
  debits : debitsOf b.runId db' = debitsOf b.runId db
  usage : db'.usageEvents.get? b.usageEventId = db.usageEvents.get? b.usageEventId
  charge : db'.charges.get? (b.chargeId uuid5) = db.charges.get? (b.chargeId uuid5)
  rows : ∀ x r', db'.settlements.get? x = some r' → RowNames uuid5 b r' →
    ∃ r, db.settlements.get? x = some r ∧ SameCharge r r'
  kept : ∀ x r, db.settlements.get? x = some r → RowNames uuid5 b r →
    ∃ r', db'.settlements.get? x = some r' ∧ SameCharge r r' ∧ (r'.status = .settled ↔ r.status = .settled)
  headRows : ∀ x h', heads'.get? x = some h' → HeadNames uuid5 b h' → ∃ h, heads.get? x = some h ∧ SameHead h h'
  headsKept : ∀ x h, heads.get? x = some h → HeadNames uuid5 b h → ∃ h', heads'.get? x = some h' ∧ SameHead h h'

variable {uuid5}

theorem SameHead.refl (h : ChargeHead) : SameHead h h := rfl

theorem SameHead.names {b : BilledRun} {h h' : ChargeHead} (hs : SameHead h h') :
    HeadNames uuid5 b h' ↔ HeadNames uuid5 b h := by
  rw [hs]
  exact Iff.rfl

variable {r row : SettlementRow} {w : Till} {t : RunTask}

theorem SameCharge.names {b : BilledRun} {r' : SettlementRow} (hs : SameCharge r r') :
    RowNames uuid5 b r' ↔ RowNames uuid5 b r := by
  rw [hs]
  exact Iff.rfl

theorem Untouched.refl (b : BilledRun) (db : Db) (heads : Table ChargeHead.id) : Untouched uuid5 b db heads db heads :=
  ⟨rfl, rfl, rfl, fun _ r hr _ => ⟨r, hr, SameCharge.refl r⟩, fun _ r hr _ => ⟨r, hr, SameCharge.refl r, Iff.rfl⟩,
    fun _ h hh _ => ⟨h, hh, SameHead.refl h⟩, fun _ h hh _ => ⟨h, hh, SameHead.refl h⟩⟩

/-! ## What leaves a run's records alone -/

/-- an operation that names an id of the run -/
def Op.touches (uuid5 : String → String) (b : BilledRun) : Op → Prop
  | .debitCredit _ _ _ reason _ => reason = "run:" ++ b.runId
  | .fundDelegation _ _ _ reason _ _ _ => reason = "run:" ++ b.runId
  | .enqueue _ usageEventId _ runId _ _ _ _ chargeId _ =>
    runId = b.runId ∨ usageEventId = b.usageEventId ∨ chargeId = b.chargeId uuid5
  | _ => False

theorem debitReason_of_not_touches {b : BilledRun} {op : Op} (h : ¬ op.touches uuid5 b) :
    op.debitReason ≠ some ("run:" ++ b.runId) := by
  intro heq
  cases op <;> simp only [Op.debitReason, some.injEq, reduceCtorEq] at heq <;> exact h heq

theorem next_rows_kept (cfg : Settings) (py : Interp) (s : Sys) {op : Op} (hsettle : ∀ e i, op ≠ .settleClaimed e i)
    {x : String} (hr : s.db.settlements.get? x = some r) :
    ∃ r', (next cfg py s op).db.settlements.get? x = some r' ∧ SameCharge r r' ∧
      (r'.status = .settled ↔ r.status = .settled) := by
  have same : SettlementFrame s (next cfg py s op) → ∃ r', (next cfg py s op).db.settlements.get? x = some r' ∧
      SameCharge r r' ∧ (r'.status = .settled ↔ r.status = .settled) :=
    fun hf => ⟨r, by rw [hf.settlements]; exact hr, refl r, Iff.rfl⟩
  cases step_effect cfg py s op with
  | quiet hq _ => exact hq.kept x r hr
  | limited _ hdb hclaims => exact same ⟨by rw [hdb], by rw [hdb], hclaims⟩
  | debited _ _ _ hf | funded _ _ _ hf | topped _ _ _ _ hf | acted _ _ hf => exact same hf
  | settled hop _ _ _ _ => exact absurd hop (hsettle _ _)

theorem enqueue_untouched {b : BilledRun} {db db' : Db} {settlements : Table SettlementRow.id}
    (heads : Table ChargeHead.id) (hins : db.settlements.insert? row = some settlements)
    (hdb : db' = { db with settlements := settlements }) (hnames : ¬ RowNames uuid5 b row) :
    Untouched uuid5 b db heads db' heads := by
  subst hdb
  have hfree := (insert?_eq_some hins).1
  refine ⟨rfl, rfl, rfl, fun x r' hr' hn => ?_, fun x r hr _ => ⟨r, ?_, refl r, Iff.rfl⟩,
    fun _ h hh _ => ⟨h, hh, SameHead.refl h⟩, fun _ h hh _ => ⟨h, hh, SameHead.refl h⟩⟩
  · rw [get?_insert hins] at hr'
    split_ifs at hr'
    · cases hr'; exact absurd hn hnames
    · exact ⟨r', hr', refl r'⟩
  · have hx : row.id ≠ x := fun hx => by rw [hx, hr] at hfree; cases hfree
    rw [get?_insert hins, if_neg hx]
    exact hr

/-- **An operation of somebody else** that is no attempt of the retry worker -/
theorem next_untouched (cfg : Settings) (py : Interp) (s : Sys) (heads : Table ChargeHead.id) {b : BilledRun} (op : Op)
    (htouch : ¬ op.touches uuid5 b) (hsettle : ∀ e i, op ≠ .settleClaimed e i) :
    Untouched uuid5 b s.db heads (next cfg py s op).db heads := by
  by_cases hsteady : op.isSteady = true
  · have h := next_steady cfg py s hsteady
    exact ⟨next_debitsOf cfg py s (debitReason_of_not_touches htouch) hsettle, by rw [h.usage], by rw [h.charges],
      fun x r' hr' _ => h.rows x r' hr', fun x r hr _ => next_rows_kept cfg py s hsettle hr,
      fun _ h hh _ => ⟨h, hh, SameHead.refl h⟩, fun _ h hh _ => ⟨h, hh, SameHead.refl h⟩⟩
  · cases op with
    | enqueue e usageEventId org runId method amount paymentPayload principal chargeId allocations =>
      rcases enqueue_cases cfg e usageEventId org runId method amount paymentPayload principal chargeId allocations s.db with
        hdb | ⟨row, settlements, hins, hdb, husage, -, hrun, -, hcharge, -⟩
      · have hdb : (next cfg py s (.enqueue e usageEventId org runId method amount paymentPayload principal chargeId
            allocations)).db = s.db := hdb
        rw [hdb]
        exact Untouched.refl b s.db heads
      · refine enqueue_untouched heads hins hdb ?_
        unfold RowNames
        rw [husage, hrun, hcharge]
        exact htouch
    | settleClaimed e i => exact absurd rfl (hsettle e i)
    | _ => exact absurd rfl hsteady

/-- `updated_at` of the charges -/
theorem heads_touch (now : ℤ) (db db' : Db) (heads : Table ChargeHead.id) (x : String) :
    (∀ h', (heads.update (touch now db db') (touch_id now db db')).get? x = some h' →
      ∃ h, heads.get? x = some h ∧ SameHead h h') ∧
    (∀ h, heads.get? x = some h →
      ∃ h', (heads.update (touch now db db') (touch_id now db db')).get? x = some h' ∧ SameHead h h') := by
  have hsame : ∀ h, SameHead h (touch now db db' h) := by
    intro h
    unfold touch
    split_ifs <;> rfl
  rw [get?_update]
  refine ⟨fun h' hh' => ?_, fun h hh => ⟨touch now db db' h, by rw [hh]; rfl, hsame h⟩⟩
  obtain ⟨h, hh, rfl⟩ := map_eq_some_iff.1 hh'
  exact ⟨h, hh, hsame h⟩

variable {uuid : ℕ → String} {amount : ℤ} {runs : List RunTask}

theorem settle_untouched {cfg : Settings} {py : Interp} {now : ℤ} {db db' : Db} (heads : Table ChargeHead.id)
    {b : BilledRun} (hs : SettledBy cfg py now uuid row db db') (hrec : Recorded row db db')
    (hclaim : ∃ r, db.settlements.get? row.id = some r ∧ SameCharge r row) (hnames : ¬ RowNames uuid5 b row) :
    Untouched uuid5 b db heads db' (heads.update (touch now db db') (touch_id now db db')) := by
  obtain ⟨r₀, hr₀, hsame₀⟩ := hclaim
  obtain ⟨r₁, hr₁, -, r₁', hr₁', -, hsame₁⟩ := hs.claim
  rw [hr₀] at hr₁
  cases hr₁
  have hrow : ¬ RowNames uuid5 b r₀ := fun h => hnames (hsame₀.names.2 h)
  simp only [RowNames, not_or] at hnames
  refine ⟨?_, ?_, ?_, fun x r' hr' hn => ?_, fun x r hr hn => ?_, fun x h' hh' _ => (heads_touch now db db' heads x).1 h' hh',
    fun x h hh _ => (heads_touch now db db' heads x).2 h hh⟩
  · rw [debitsOf_moved hs.debit, if_neg ?_, append_nil]
    rintro ⟨-, hreason⟩
    exact hnames.1 ((String.append_right_inj _).1 hreason)
  · rw [hrec.usage]
    cases hu : db.usageEvents.get? b.usageEventId with
    | none => rfl
    | some u =>
      have hid : u.id = b.usageEventId := key_of_get? hu
      rw [map_some, settledUsage, if_neg (fun h => hnames.2.1 (h.1.symm.trans hid))]
  · rw [hrec.charges]
    cases hc : db.charges.get? (b.chargeId uuid5) with
    | none => rfl
    | some c =>
      have hid : c.id = b.chargeId uuid5 := key_of_get? hc
      rw [map_some, settledCharge, if_neg (fun h => hnames.2.2 (h.2.1.symm.trans hid))]
  · by_cases hx : x = row.id
    · subst hx
      rw [hr₁'] at hr'
      cases hr'
      exact ⟨r₀, hr₀, hsame₁⟩
    · exact ⟨r', by rw [← hs.others x hx]; exact hr', refl r'⟩
  · have hx : x ≠ row.id := by
      rintro rfl
      rw [hr₀] at hr
      cases hr
      exact hrow hn
    exact ⟨r, by rw [hs.others x hx]; exact hr, refl r, Iff.rfl⟩

theorem recordUsageEvent_untouched {b : BilledRun} (e : Env) {row : UsageRow} (w : Till) (h : row.id ≠ b.usageEventId) :
    Untouched uuid5 b w.db w.heads (recordUsageEvent e row w).db (recordUsageEvent e row w).heads := by
  unfold recordUsageEvent
  split_ifs
  · exact Untouched.refl b w.db w.heads
  split
  · next usageEvents usageHeads hins _ =>
    refine ⟨rfl, ?_, rfl, fun _ r hr _ => ⟨r, hr, refl r⟩, fun _ r hr _ => ⟨r, hr, refl r, Iff.rfl⟩,
      fun _ h hh _ => ⟨h, hh, SameHead.refl h⟩, fun _ h hh _ => ⟨h, hh, SameHead.refl h⟩⟩
    show usageEvents.get? b.usageEventId = w.db.usageEvents.get? b.usageEventId
    rw [get?_insert hins, if_neg h]
  · exact Untouched.refl b w.db w.heads

theorem recordSettlement_untouched {b : BilledRun} (e : Env) {row : UsageRow} (db : Db) (heads : Table ChargeHead.id)
    (h : row.id ≠ b.usageEventId) : Untouched uuid5 b db heads (recordSettlement e row db) heads := by
  unfold recordSettlement
  split_ifs
  · exact Untouched.refl b db heads
  refine ⟨rfl, ?_, rfl, fun _ r hr _ => ⟨r, hr, refl r⟩, fun _ r hr _ => ⟨r, hr, refl r, Iff.rfl⟩,
    fun _ h hh _ => ⟨h, hh, SameHead.refl h⟩, fun _ h hh _ => ⟨h, hh, SameHead.refl h⟩⟩
  simp only [get?_update]
  cases hu : db.usageEvents.get? b.usageEventId with
  | none => rfl
  | some u =>
    have hid : u.id = b.usageEventId := key_of_get? hu
    rw [map_some, if_neg (fun heq => h (heq.symm.trans hid))]

theorem recordCharge_untouched {b : BilledRun} (e : Env) {head : ChargeHead} {row : ChargeRow} (amount : ℤ) (w : Till)
    (hhead : ¬ HeadNames uuid5 b head) (hrow : row.id ≠ b.chargeId uuid5) :
    Untouched uuid5 b w.db w.heads (recordCharge e head row amount w).db (recordCharge e head row amount w).heads := by
  unfold recordCharge
  split_ifs
  · exact Untouched.refl b w.db w.heads
  · exact Untouched.refl b w.db w.heads
  split
  · next heads charges hins hcharges =>
    have hfree := (insert?_eq_some hins).1
    refine ⟨rfl, rfl, ?_, fun _ r hr _ => ⟨r, hr, refl r⟩, fun _ r hr _ => ⟨r, hr, refl r, Iff.rfl⟩,
      fun x h' hh' hn => ?_, fun x h hh _ => ⟨h, ?_, SameHead.refl h⟩⟩
    · show charges.get? (b.chargeId uuid5) = w.db.charges.get? (b.chargeId uuid5)
      rw [get?_insert hcharges, if_neg hrow]
    · rw [get?_insert hins] at hh'
      split_ifs at hh'
      · cases hh'; exact absurd hn hhead
      · exact ⟨h', hh', SameHead.refl h'⟩
    · have hx : head.id ≠ x := fun hx => by rw [hx, hh] at hfree; cases hfree
      rw [get?_insert hins, if_neg hx]
      exact hh
  · exact Untouched.refl b w.db w.heads

/-! ## The invariant -/

section Phases

variable (uuid5 : String → String) (b : BilledRun) (db : Db) (heads : Table ChargeHead.id)

/-- no row of the queue is the run's -/
def NoRows : Prop := ∀ x r, db.settlements.get? x = some r → ¬ RowNames uuid5 b r

/-- the run has no charge yet -/
def NoCharge : Prop :=
  db.charges.get? (b.chargeId uuid5) = none ∧ ∀ x h, heads.get? x = some h → ¬ HeadNames uuid5 b h

/-- the run was debited its cost; a run that costs nothing has no debit -/
def Debited : Prop :=
  (0 < b.cost → ∃ r, debitsOf b.runId db = [r] ∧ r.orgId = b.org ∧ r.amountUsdc = b.cost) ∧
    (b.cost ≤ 0 → debitsOf b.runId db = [])

/-- what the debit of the run reported is what it did -/
def Outcome (success : Bool) (deducted : ℤ) : Prop :=
  (success = true ∧ deducted = max 0 b.cost ∧ Debited b db) ∨ (success = false ∧ 0 < b.cost ∧ debitsOf b.runId db = [])

/-- the run's charge, and no other charge with its ids -/
def Charged (row : ChargeRow) : Prop :=
  db.charges.get? (b.chargeId uuid5) = some row ∧
    (∃ h now, heads.get? (b.chargeId uuid5) = some h ∧ SameHead (b.chargeHead uuid5 now) h) ∧
    ∀ x h, heads.get? x = some h → HeadNames uuid5 b h → x = b.chargeId uuid5

/-- the three records say the run is paid -/
def Settled : Prop :=
  Debited b db ∧ db.usageEvents.get? b.usageEventId = some (b.usageRow true (max 0 b.cost)) ∧
    Charged uuid5 b db heads (b.chargeRow uuid5 true (max 0 b.cost))

/-- the three records say it is not -/
def Owed : Prop :=
  (0 < b.cost ∧ debitsOf b.runId db = []) ∧ db.usageEvents.get? b.usageEventId = some (b.usageRow false 0) ∧
    Charged uuid5 b db heads (b.chargeRow uuid5 false 0)

/-- a row of the queue is the run's own -/
structure Mine (r : SettlementRow) : Prop where
  usage : r.usageEventId = b.usageEventId
  org : r.orgId = b.org
  run : r.runId = b.runId
  amount : r.amountUsdc = b.cost
  charge : r.chargeId = b.chargeId uuid5

/-- one row of the queue is the run's, and the records go with its status -/
def Queued : Prop :=
  ∃ x r, db.settlements.get? x = some r ∧ Mine uuid5 b r ∧
    (∀ y r', db.settlements.get? y = some r' → RowNames uuid5 b r' → y = x) ∧
    (r.status = .settled → Settled uuid5 b db heads) ∧ (r.status ≠ .settled → Owed uuid5 b db heads)

/-- the records of a run by its phase -/
def Recording : RunPhase → Prop
  | .usageEvent => NoRows uuid5 b db ∧ NoCharge uuid5 b db heads ∧ debitsOf b.runId db = []
  | .debit => NoRows uuid5 b db ∧ NoCharge uuid5 b db heads ∧ debitsOf b.runId db = []
  | .settlement success deducted => NoRows uuid5 b db ∧ NoCharge uuid5 b db heads ∧ Outcome b db success deducted
  | .charge success deducted => NoRows uuid5 b db ∧ NoCharge uuid5 b db heads ∧ Outcome b db success deducted ∧
      db.usageEvents.get? b.usageEventId = some (b.usageRow success deducted)
  | .enqueue => NoRows uuid5 b db ∧ Owed uuid5 b db heads
  | .done => (NoRows uuid5 b db ∧ Settled uuid5 b db heads) ∨ Queued uuid5 b db heads

end Phases

/-- the records of a run whose writes reached the store -/
def Kept (uuid5 : String → String) (db : Db) (heads : Table ChargeHead.id) (t : RunTask) : Prop :=
  t.lost = true ∨ Recording uuid5 t.bill db heads t.phase

section Transfer

variable {b : BilledRun} {db db' : Db} {heads heads' : Table ChargeHead.id} (h : Untouched uuid5 b db heads db' heads')

include h

theorem NoRows.untouched (hn : NoRows uuid5 b db) : NoRows uuid5 b db' := by
  intro x r' hr' hnames
  obtain ⟨r, hr, hsame⟩ := h.rows x r' hr' hnames
  exact hn x r hr (hsame.names.1 hnames)

theorem NoCharge.untouched (hn : NoCharge uuid5 b db heads) : NoCharge uuid5 b db' heads' := by
  refine ⟨h.charge.trans hn.1, fun x h' hh' hnames => ?_⟩
  obtain ⟨h₀, hh₀, hsame⟩ := h.headRows x h' hh' hnames
  exact hn.2 x h₀ hh₀ (hsame.names.1 hnames)

theorem Debited.untouched (hd : Debited b db) : Debited b db' := by
  unfold Debited
  rw [h.debits]
  exact hd

theorem Outcome.untouched {success : Bool} {deducted : ℤ} (ho : Outcome b db success deducted) :
    Outcome b db' success deducted := by
  unfold Outcome Debited
  rw [h.debits]
  exact ho

theorem Charged.untouched {row : ChargeRow} (hc : Charged uuid5 b db heads row) : Charged uuid5 b db' heads' row := by
  obtain ⟨hrow, ⟨h₀, now, hh₀, hsame⟩, huniq⟩ := hc
  refine ⟨h.charge.trans hrow, ?_, fun x h' hh' hnames => ?_⟩
  · have hnames : HeadNames uuid5 b h₀ := .inl (key_of_get? hh₀)
    obtain ⟨h', hh', hsame'⟩ := h.headsKept _ h₀ hh₀ hnames
    refine ⟨h', now, hh', ?_⟩
    unfold SameHead at hsame hsame' ⊢
    rw [hsame', hsame]
  · obtain ⟨h₁, hh₁, hsame₁⟩ := h.headRows x h' hh' hnames
    exact huniq x h₁ hh₁ (hsame₁.names.1 hnames)

theorem Settled.untouched (hs : Settled uuid5 b db heads) : Settled uuid5 b db' heads' :=
  ⟨hs.1.untouched h, h.usage.trans hs.2.1, hs.2.2.untouched h⟩

theorem Owed.untouched (ho : Owed uuid5 b db heads) : Owed uuid5 b db' heads' :=
  ⟨⟨ho.1.1, h.debits.trans ho.1.2⟩, h.usage.trans ho.2.1, ho.2.2.untouched h⟩

omit h in
theorem Mine.names (hm : Mine uuid5 b r) : RowNames uuid5 b r := .inl hm.run

omit h in
theorem Mine.same {r' : SettlementRow} (hm : Mine uuid5 b r) (hs : SameCharge r r') : Mine uuid5 b r' := by
  unfold SameCharge at hs
  rw [hs]
  exact ⟨hm.usage, hm.org, hm.run, hm.amount, hm.charge⟩

theorem Queued.untouched (hq : Queued uuid5 b db heads) : Queued uuid5 b db' heads' := by
  obtain ⟨x, r, hr, hmine, huniq, hsettled, howed⟩ := hq
  obtain ⟨r', hr', hsame, hiff⟩ := h.kept x r hr hmine.names
  refine ⟨x, r', hr', hmine.same hsame, fun y r₁ hr₁ hnames => ?_, fun hs => ?_, fun hs => ?_⟩
  · obtain ⟨r₀, hr₀, hsame₀⟩ := h.rows y r₁ hr₁ hnames
    exact huniq y r₀ hr₀ (hsame₀.names.1 hnames)
  · exact (hsettled (hiff.1 hs)).untouched h
  · exact (howed (fun hset => hs (hiff.2 hset))).untouched h

/-- **What others do keeps a run's records.** -/
theorem Recording.untouched {phase : RunPhase} (hr : Recording uuid5 b db heads phase) :
    Recording uuid5 b db' heads' phase := by
  cases phase with
  | usageEvent | debit => exact ⟨hr.1.untouched h, hr.2.1.untouched h, h.debits.trans hr.2.2⟩
  | settlement success deducted => exact ⟨hr.1.untouched h, hr.2.1.untouched h, hr.2.2.untouched h⟩
  | charge success deducted =>
    exact ⟨hr.1.untouched h, hr.2.1.untouched h, hr.2.2.1.untouched h, h.usage.trans hr.2.2.2⟩
  | enqueue => exact ⟨hr.1.untouched h, hr.2.untouched h⟩
  | done =>
    rcases hr with ⟨hn, hs⟩ | hq
    · exact .inl ⟨hn.untouched h, hs.untouched h⟩
    · exact .inr (hq.untouched h)

end Transfer

/-! ## The retry worker settles a run -/

theorem usageRow_settled {b : BilledRun} (hm : Mine uuid5 b row) (hpos : 0 < b.cost) :
    settledUsage row (b.usageRow false 0) = b.usageRow true (max 0 b.cost) := by
  have hfailed : (b.usageRow false 0).settlementStatus ≠ "settled" := by
    show "failed" ≠ "settled"
    decide
  unfold settledUsage
  rw [if_pos ⟨hm.usage.symm, hfailed⟩, hm.amount, max_eq_right hpos.le]
  rfl

theorem chargeRow_settled {b : BilledRun} (hm : Mine uuid5 b row) (hpos : 0 < b.cost) (hid : b.chargeId uuid5 ≠ "") :
    settledCharge row (b.chargeRow uuid5 false 0) = b.chargeRow uuid5 true (max 0 b.cost) := by
  unfold settledCharge BilledRun.chargeRow
  rw [if_pos ⟨by rw [hm.charge]; exact hid, hm.charge.symm, rfl⟩, hm.amount]
  simp

/-- **An attempt that settles the run's row** makes all three records say so. -/
theorem Recording.settle {cfg : Settings} {py : Interp} {now : ℤ} {b : BilledRun} {db db' : Db}
    {heads : Table ChargeHead.id} {phase : RunPhase} (hid : b.chargeId uuid5 ≠ "") (h : Recording uuid5 b db heads phase)
    (hs : SettledBy cfg py now uuid row db db') (hrec : Recorded row db db')
    (hclaim : ∃ r, db.settlements.get? row.id = some r ∧ SameCharge r row) (hnames : RowNames uuid5 b row) :
    Recording uuid5 b db' (heads.update (touch now db db') (touch_id now db db')) phase := by
  obtain ⟨r₀, hr₀, hsame₀⟩ := hclaim
  have hstored : RowNames uuid5 b r₀ := hsame₀.names.1 hnames
  cases phase with
  | usageEvent | debit | settlement _ _ | charge _ _ => exact absurd hstored (h.1 _ r₀ hr₀)
  | enqueue => exact absurd hstored (h.1 _ r₀ hr₀)
  | done =>
    rcases h with ⟨hn, -⟩ | ⟨x, r, hr, hmine, huniq, -, howed⟩
    · exact absurd hstored (hn _ r₀ hr₀)
    obtain rfl := huniq _ r₀ hr₀ hstored
    obtain rfl : r₀ = r := by rw [hr₀] at hr; exact some.inj hr
    obtain ⟨r₁, hr₁, hretrying, r', hr', hsettled, hsame⟩ := hs.claim
    obtain rfl : r₀ = r₁ := by rw [hr₀] at hr₁; exact some.inj hr₁
    have hrow : Mine uuid5 b row := hmine.same hsame₀
    obtain ⟨⟨hpos, hnone⟩, husage, hcharge, ⟨h₀, now₀, hh₀, hhead⟩, hheads⟩ := howed (by rw [hretrying]; decide)
    refine .inr ⟨row.id, r', hr', hmine.same hsame, fun y r₂ hr₂ hn₂ => ?_, fun _ => ⟨⟨fun _ => ?_, fun hle => ?_⟩, ?_, ?_,
      ?_, fun y h' hh' hn' => ?_⟩, fun hne => absurd hsettled hne⟩
    · by_contra hy
      rw [hs.others y hy] at hr₂
      exact hy (huniq y r₂ hr₂ hn₂)
    · rw [debitsOf_moved hs.debit, hnone, nil_append, if_pos ⟨rfl, congrArg ("run:" ++ ·) hrow.run⟩]
      exact ⟨_, rfl, hrow.org, hrow.amount⟩
    · exact absurd hpos (not_lt.2 hle)
    · rw [hrec.usage, husage, map_some, usageRow_settled hrow hpos]
    · rw [hrec.charges, hcharge, map_some, chargeRow_settled hrow hpos hid]
    · obtain ⟨h', hh', hsame'⟩ := (heads_touch now db db' heads (b.chargeId uuid5)).2 h₀ hh₀
      refine ⟨h', now₀, hh', ?_⟩
      unfold SameHead at hhead hsame' ⊢
      rw [hsame', hhead]
    · obtain ⟨h₁, hh₁, hsame₁⟩ := (heads_touch now db db' heads y).1 h' hh'
      exact hheads y h₁ hh₁ (hsame₁.names.1 hn')

/-! ## A run's own calls -/

theorem debitCredit_outcome (cfg : Settings) (e : Env) (b : BilledRun) {db : Db} (hnone : debitsOf b.runId db = []) :
    Outcome b (debitCredit cfg e b.org b.cost ("run:" ++ b.runId) b.principal db).2
      (debitCredit cfg e b.org b.cost ("run:" ++ b.runId) b.principal db).1.1
      (debitCredit cfg e b.org b.cost ("run:" ++ b.runId) b.principal db).1.2 := by
  unfold debitCredit
  split_ifs with hcost
  · exact .inl ⟨rfl, (max_eq_left hcost).symm, fun hpos => absurd hcost (not_le.2 hpos), fun _ => hnone⟩
  have hpos : 0 < b.cost := not_le.1 hcost
  rcases call_cases (e.fault 0) (debitCreditLocked cfg e.now (e.uuid 0) b.org b.cost ("run:" ++ b.runId) b.principal) db with
    ⟨x, hc⟩ | ⟨⟨s, a, l⟩, db', ht, hc⟩
  · rw [hc]
    exact .inr ⟨rfl, hpos, hnone⟩
  · rw [hc]
    rcases debitCreditLocked_ok ht with hr | ⟨hr, -, hp⟩
    · cases hr
      exact .inr ⟨rfl, hpos, hnone⟩
    · cases hr
      refine .inl ⟨rfl, (max_eq_right hpos.le).symm, fun _ => ?_, fun hle => absurd hle hcost⟩
      rw [debitsOf_moved hp.toMoved, hnone, nil_append, if_pos ⟨rfl, rfl⟩]
      exact ⟨_, rfl, rfl, rfl⟩

theorem NoRows.of_eq {b : BilledRun} {db db' : Db} (h : NoRows uuid5 b db) (hs : db'.settlements = db.settlements) :
    NoRows uuid5 b db' := by
  unfold NoRows
  rw [hs]
  exact h

theorem NoCharge.of_eq {b : BilledRun} {db db' : Db} {heads : Table ChargeHead.id} (h : NoCharge uuid5 b db heads)
    (hc : db'.charges = db.charges) : NoCharge uuid5 b db' heads := by
  unfold NoCharge
  rw [hc]
  exact h

theorem recordUsageEvent_frame (e : Env) (row : UsageRow) (w : Till) :
    (recordUsageEvent e row w).db = { w.db with usageEvents := (recordUsageEvent e row w).db.usageEvents } ∧
      (recordUsageEvent e row w).heads = w.heads ∧ (recordUsageEvent e row w).sys.claims = w.sys.claims ∧
      (recordUsageEvent e row w).runs = w.runs := by
  unfold recordUsageEvent
  split_ifs
  · exact ⟨rfl, rfl, rfl, rfl⟩
  · split <;> exact ⟨rfl, rfl, rfl, rfl⟩

theorem recordSettlement_frame (e : Env) (row : UsageRow) (db : Db) :
    recordSettlement e row db = { db with usageEvents := (recordSettlement e row db).usageEvents } := by
  unfold recordSettlement
  split_ifs <;> rfl

theorem recordCharge_cases (e : Env) (head : ChargeHead) (row : ChargeRow) (amount : ℤ) (w : Till) :
    recordCharge e head row amount w = w ∨ ∃ heads charges, w.heads.insert? head = some heads ∧
      recordCharge e head row amount w =
        { w with sys := { w.sys with db := { w.db with charges := charges } }, heads := heads } := by
  unfold recordCharge
  split_ifs
  · exact .inl rfl
  · exact .inl rfl
  split
  · next heads charges hins _ => exact .inr ⟨heads, charges, hins, rfl⟩
  · exact .inl rfl

theorem recordCharge_charged {e : Env} {b : BilledRun} {row : ChargeRow} (hn : NoCharge uuid5 b w.db w.heads)
    (hhead : (recordCharge e (b.chargeHead uuid5 e.now) row amount w).heads.get? (b.chargeId uuid5) = some (b.chargeHead uuid5 e.now))
    (hrow : (recordCharge e (b.chargeHead uuid5 e.now) row amount w).db.charges.get? (b.chargeId uuid5) = some row) :
    Charged uuid5 b (recordCharge e (b.chargeHead uuid5 e.now) row amount w).db
      (recordCharge e (b.chargeHead uuid5 e.now) row amount w).heads row := by
  refine ⟨hrow, ⟨_, e.now, hhead, SameHead.refl _⟩, fun x h hh hnames => ?_⟩
  rcases recordCharge_cases e (b.chargeHead uuid5 e.now) row amount w with hw | ⟨heads, charges, hins, hw⟩
  · rw [hw] at hh
    exact absurd hnames (hn.2 x h hh)
  · rw [hw] at hh
    rw [get?_insert hins] at hh
    split_ifs at hh with hx
    · exact hx.symm
    · exact absurd hnames (hn.2 x h hh)

section Phase

variable {b : BilledRun}

theorem recording_usageEvent (e : Env) (row : UsageRow) (h : Recording uuid5 b w.db w.heads .usageEvent) :
    Recording uuid5 b (recordUsageEvent e row w).db (recordUsageEvent e row w).heads .debit := by
  obtain ⟨hframe, hheads, -⟩ := recordUsageEvent_frame e row w
  rw [hheads]
  refine ⟨h.1.of_eq (by rw [hframe]), h.2.1.of_eq (by rw [hframe]), ?_⟩
  rw [debitsOf, hframe]
  exact h.2.2

variable {heads : Table ChargeHead.id}

theorem recording_debit (cfg : Settings) (e : Env) {db : Db} (h : Recording uuid5 b db heads .debit) :
    Recording uuid5 b (debitCredit cfg e b.org b.cost ("run:" ++ b.runId) b.principal db).2 heads
      (.settlement (debitCredit cfg e b.org b.cost ("run:" ++ b.runId) b.principal db).1.1
        (debitCredit cfg e b.org b.cost ("run:" ++ b.runId) b.principal db).1.2) := by
  have hsteady := debitCredit_steady cfg e b.org b.cost ("run:" ++ b.runId) b.principal db
  have hrows : (debitCredit cfg e b.org b.cost ("run:" ++ b.runId) b.principal db).2.settlements = db.settlements := by
    rcases debitCredit_cases cfg e b.org b.cost ("run:" ++ b.runId) b.principal db with hdb | ⟨-, -, hp⟩
    · rw [hdb]
    · exact hp.settlements
  exact ⟨h.1.of_eq hrows, h.2.1.of_eq hsteady.charges, debitCredit_outcome cfg e b h.2.2⟩

theorem recording_settlement (e : Env) {db : Db} {success : Bool} {deducted : ℤ}
    (h : Recording uuid5 b db heads (.settlement success deducted))
    (hrec : (recordSettlement e (b.usageRow success deducted) db).usageEvents.get? b.usageEventId = some (b.usageRow success deducted)) :
    Recording uuid5 b (recordSettlement e (b.usageRow success deducted) db) heads (.charge success deducted) := by
  have hframe := recordSettlement_frame e (b.usageRow success deducted) db
  refine ⟨h.1.of_eq (by rw [hframe]), h.2.1.of_eq (by rw [hframe]), ?_, hrec⟩
  have hledger : (recordSettlement e (b.usageRow success deducted) db).ledger = db.ledger := by rw [hframe]
  have hdebits : debitsOf b.runId (recordSettlement e (b.usageRow success deducted) db) = debitsOf b.runId db := by
    rw [debitsOf, hledger, debitsOf]
  have hout := h.2.2
  unfold Outcome Debited at hout ⊢
  rw [hdebits]
  exact hout

theorem recording_charge (e : Env) {success : Bool} {deducted : ℤ}
    (h : Recording uuid5 b w.db w.heads (.charge success deducted))
    (hhead : (recordCharge e (b.chargeHead uuid5 e.now) (b.chargeRow uuid5 success deducted) amount w).heads.get? (b.chargeId uuid5) = some (b.chargeHead uuid5 e.now))
    (hrow : (recordCharge e (b.chargeHead uuid5 e.now) (b.chargeRow uuid5 success deducted) amount w).db.charges.get? (b.chargeId uuid5) = some (b.chargeRow uuid5 success deducted)) :
    Recording uuid5 b (recordCharge e (b.chargeHead uuid5 e.now) (b.chargeRow uuid5 success deducted) amount w).db
      (recordCharge e (b.chargeHead uuid5 e.now) (b.chargeRow uuid5 success deducted) amount w).heads
      (if success then .done else .enqueue) := by
  obtain ⟨hnorows, hnocharge, hout, husage⟩ := h
  have hcharged := recordCharge_charged hnocharge hhead hrow
  have hframe : (recordCharge e (b.chargeHead uuid5 e.now) (b.chargeRow uuid5 success deducted) amount w).db =
      { w.db with charges :=
        (recordCharge e (b.chargeHead uuid5 e.now) (b.chargeRow uuid5 success deducted) amount w).db.charges } := by
    rcases recordCharge_cases e (b.chargeHead uuid5 e.now) (b.chargeRow uuid5 success deducted) amount w with
      hw | ⟨heads, charges, -, hw⟩
    · rw [hw]
    · rw [hw]; rfl
  generalize recordCharge e (b.chargeHead uuid5 e.now) (b.chargeRow uuid5 success deducted) amount w = w' at *
  have hrows : NoRows uuid5 b w'.db := hnorows.of_eq (by rw [hframe])
  have hdebits : debitsOf b.runId w'.db = debitsOf b.runId w.db := by rw [debitsOf, hframe]; rfl
  have husage : w'.db.usageEvents.get? b.usageEventId = some (b.usageRow success deducted) := by rw [hframe]; exact husage
  rcases hout with ⟨rfl, rfl, hdebited⟩ | ⟨rfl, hpos, hnone⟩
  · refine .inl ⟨hrows, ?_, husage, hcharged⟩
    unfold Debited at hdebited ⊢
    rw [hdebits]
    exact hdebited
  · exact ⟨hrows, ⟨hpos, hdebits.trans hnone⟩, husage, hcharged⟩

theorem recording_enqueue (cfg : Settings) (e : Env) {db : Db} (h : Recording uuid5 b db heads .enqueue)
    (hrec : (enqueueFailedSettlement cfg e b.usageEventId b.org b.runId .credit b.cost none b.principal (b.chargeId uuid5) b.allocations db).settlements.rows.length ≠ db.settlements.rows.length) :
    Recording uuid5 b (enqueueFailedSettlement cfg e b.usageEventId b.org b.runId .credit b.cost none b.principal
      (b.chargeId uuid5) b.allocations db) heads .done := by
  obtain ⟨hnorows, howed⟩ := h
  rcases enqueue_cases cfg e b.usageEventId b.org b.runId .credit b.cost none b.principal (b.chargeId uuid5) b.allocations
    db with hdb | ⟨row, settlements, hins, hdb, husage, horg, hrun, hamount, hcharge, hstatus⟩
  · rw [hdb] at hrec
    exact absurd rfl hrec
  · rw [hdb]
    have hmine : Mine uuid5 b row := ⟨husage, horg, hrun, hamount, hcharge⟩
    refine .inr ⟨row.id, row, ?_, hmine, fun y r' hr' hnames => ?_, fun hs => ?_, fun _ => howed⟩
    · rw [get?_insert hins, if_pos rfl]
    · rw [get?_insert hins] at hr'
      split_ifs at hr' with hy
      · exact hy.symm
      · exact absurd hnames (hnorows y r' hr')
    · rw [hstatus] at hs
      cases hs

end Phase

theorem resume_lost (cfg : Settings) (e : Env) (w : Till) (h : t.lost = true) : (t.resume cfg uuid5 e w).1.lost = true := by
  unfold resume
  split
  · exact h
  · exact h
  · simp [h]
  · simp [h]
  · simp [h]
  · exact h

/-- **A run's own call** takes its records from one phase to the next. -/
theorem resume_kept (cfg : Settings) (e : Env) (h : Kept uuid5 w.db w.heads t) :
    Kept uuid5 (t.resume cfg uuid5 e w).2.db (t.resume cfg uuid5 e w).2.heads (t.resume cfg uuid5 e w).1 := by
  rcases h with hlost | h
  · exact .inl (resume_lost cfg e w hlost)
  obtain ⟨b, phase, lost⟩ := t
  cases phase with
  | usageEvent => exact .inr (recording_usageEvent e _ h)
  | debit => exact .inr (recording_debit cfg e h)
  | settlement success deducted =>
    by_cases hrec : (recordSettlement e (b.usageRow success deducted) w.db).usageEvents.get? b.usageEventId =
        some (b.usageRow success deducted)
    · exact .inr (recording_settlement e h hrec)
    · exact .inl (Bool.or_eq_true_iff.2 (.inr (decide_eq_true hrec)))
  | charge success deducted =>
    by_cases hhead : (recordCharge e (b.chargeHead uuid5 e.now) (b.chargeRow uuid5 success deducted) (max 0 b.cost)
        w).heads.get? (b.chargeId uuid5) = some (b.chargeHead uuid5 e.now)
    · by_cases hrow : (recordCharge e (b.chargeHead uuid5 e.now) (b.chargeRow uuid5 success deducted) (max 0 b.cost)
          w).db.charges.get? (b.chargeId uuid5) = some (b.chargeRow uuid5 success deducted)
      · exact .inr (recording_charge e h hhead hrow)
      · exact .inl (Bool.or_eq_true_iff.2 (.inr (decide_eq_true hrow)))
    · exact .inl (Bool.or_eq_true_iff.2 (.inl (Bool.or_eq_true_iff.2 (.inr (decide_eq_true hhead)))))
  | enqueue =>
    by_cases hrec : (enqueueFailedSettlement cfg e b.usageEventId b.org b.runId .credit b.cost none b.principal
        (b.chargeId uuid5) b.allocations w.db).settlements.rows.length = w.db.settlements.rows.length
    · exact .inl (Bool.or_eq_true_iff.2 (.inr (decide_eq_true hrec)))
    · exact .inr (recording_enqueue cfg e h hrec)
  | done => exact .inr h

/-! ## Every step -/

structure TillInv (uuid5 : String → String) (w : Till) : Prop where
  claims : ClaimsKept w.sys
  apart : (w.runs.map RunTask.bill).Pairwise (OtherRun uuid5)
  runs : ∀ t ∈ w.runs, t.bill.source.isAgent = true ∧ Kept uuid5 w.db w.heads t

/-- ids drawn for a run are new, and nobody else uses them -/
def Distinct (uuid5 : String → String) (w : Till) : TillAct → Prop
  | .base op => ∀ t ∈ w.runs, ¬ op.touches uuid5 t.bill
  | .complete b => b.source.isAgent = true ∧ NoRows uuid5 b w.db ∧ NoCharge uuid5 b w.db w.heads ∧
      debitsOf b.runId w.db = [] ∧ ∀ t ∈ w.runs, OtherRun uuid5 t.bill b
  | .resume _ _ => True
  | .otherCharge _ head row _ => ∀ t ∈ w.runs, ¬ HeadNames uuid5 t.bill head ∧ row.id ≠ t.bill.chargeId uuid5
  | .otherUsage _ row => ∀ t ∈ w.runs, row.id ≠ t.bill.usageEventId

theorem OtherRun.symm {b b' : BilledRun} (h : OtherRun uuid5 b b') : OtherRun uuid5 b' b := ⟨h.run.symm, h.usage.symm, h.charge.symm⟩

theorem Kept.untouched {db db' : Db} {heads heads' : Table ChargeHead.id} (hk : Kept uuid5 db heads t)
    (h : Untouched uuid5 t.bill db heads db' heads') : Kept uuid5 db' heads' t := by
  rcases hk with hlost | hr
  · exact .inl hlost
  · exact .inr (hr.untouched h)

theorem base_kept (cfg : Settings) (py : Interp) (huuid : ∀ name, uuid5 name ≠ "") {op : Op} (hclaims : ClaimsKept w.sys)
    (hk : Kept uuid5 w.db w.heads t) (htouch : ¬ op.touches uuid5 t.bill) :
    Kept uuid5 (baseStep cfg py w op).db (baseStep cfg py w op).heads t := by
  by_cases hsettle : ∃ e i, op = .settleClaimed e i
  · obtain ⟨e, i, rfl⟩ := hsettle
    rcases next_settle cfg py w.sys e i with hdb | ⟨c, hi, hs, hrec⟩
    · refine hk.untouched ?_
      show Untouched uuid5 t.bill w.db w.heads (next cfg py w.sys (.settleClaimed e i)).db
        (w.heads.update (touch e.now w.db (next cfg py w.sys (.settleClaimed e i)).db) (touch_id _ _ _))
      have hheads := heads_touch e.now w.db (next cfg py w.sys (.settleClaimed e i)).db w.heads
      rw [hdb] at hheads ⊢
      exact { Untouched.refl t.bill w.db w.heads with
        headRows := fun x h' hh' _ => (hheads x).1 h' hh'
        headsKept := fun x h hh _ => (hheads x).2 h hh }
    · have hclaim := hclaims c (mem_of_getElem? hi)
      rcases hk with hlost | hr
      · exact .inl hlost
      by_cases hnames : RowNames uuid5 t.bill c.row
      · exact .inr (hr.settle (huuid _) hs hrec hclaim hnames)
      · exact .inr (hr.untouched (settle_untouched w.heads hs hrec hclaim hnames))
  · have hne : ∀ e i, op ≠ .settleClaimed e i := fun e i heq => hsettle ⟨e, i, heq⟩
    have hstep : baseStep cfg py w op = { w with sys := next cfg py w.sys op } := by
      cases op with
      | settleClaimed e i => exact absurd rfl (hne e i)
      | _ => rfl
    rw [hstep]
    exact hk.untouched (next_untouched cfg py w.sys w.heads op htouch hne)

theorem baseStep_sys (cfg : Settings) (py : Interp) (w : Till) (op : Op) :
    (baseStep cfg py w op).sys = next cfg py w.sys op ∧ (baseStep cfg py w op).runs = w.runs := by
  cases op <;> exact ⟨rfl, rfl⟩

theorem resume_bill (cfg : Settings) (e : Env) (t : RunTask) (w : Till) : (t.resume cfg uuid5 e w).1.bill = t.bill := by
  unfold resume
  split <;> rfl

theorem resume_untouched (cfg : Settings) (py : Interp) (e : Env) {b : BilledRun} (w : Till) (h : OtherRun uuid5 b t.bill) :
    Untouched uuid5 b w.db w.heads (t.resume cfg uuid5 e w).2.db (t.resume cfg uuid5 e w).2.heads := by
  have hrun : "run:" ++ t.bill.runId ≠ "run:" ++ b.runId := fun heq => h.run ((String.append_right_inj _).1 heq).symm
  have hids : ¬ (t.bill.runId = b.runId ∨ t.bill.usageEventId = b.usageEventId ∨
      t.bill.chargeId uuid5 = b.chargeId uuid5) := by
    rintro (heq | heq | heq)
    · exact h.run heq.symm
    · exact h.usage heq.symm
    · exact h.charge heq.symm
  obtain ⟨bill, phase, lost⟩ := t
  cases phase with
  | usageEvent => exact recordUsageEvent_untouched e w h.usage.symm
  | debit =>
    exact next_untouched cfg py w.sys w.heads
      (.debitCredit e bill.org bill.cost ("run:" ++ bill.runId) bill.principal) hrun nofun
  | settlement success deducted => exact recordSettlement_untouched e w.db w.heads h.usage.symm
  | charge success deducted =>
    refine recordCharge_untouched e (max 0 bill.cost) w ?_ h.charge.symm
    rintro (heq | heq | heq)
    · exact h.charge heq.symm
    · exact h.run heq.symm
    · exact h.usage heq.symm
  | enqueue =>
    exact next_untouched cfg py w.sys w.heads
      (.enqueue e bill.usageEventId bill.org bill.runId .credit bill.cost none bill.principal
        (chargeIdFor uuid5 bill.source bill.runId) bill.allocations) hids nofun
  | done => exact Untouched.refl b w.db w.heads

theorem ClaimsKept.of_eq {s s' : Sys} (h : ClaimsKept s) (hs : s'.db.settlements = s.db.settlements)
    (hc : s'.claims = s.claims) : ClaimsKept s' :=
  h.keep (fun x r hr => ⟨r, by rw [hs]; exact hr, refl r⟩) (ClaimsFrom.of_eq hc)

theorem recordCharge_claims {e : Env} {head : ChargeHead} {row : ChargeRow} (h : ClaimsKept w.sys) :
    ClaimsKept (recordCharge e head row amount w).sys := by
  rcases recordCharge_cases e head row amount w with hw | ⟨heads, charges, -, hw⟩
  · rw [hw]; exact h
  · rw [hw]; exact h.of_eq rfl rfl

theorem recordUsageEvent_claims {e : Env} {row : UsageRow} (h : ClaimsKept w.sys) :
    ClaimsKept (recordUsageEvent e row w).sys := by
  obtain ⟨hdb, -, hclaims, -⟩ := recordUsageEvent_frame e row w
  refine h.of_eq ?_ hclaims
  have hdb : (recordUsageEvent e row w).sys.db = _ := hdb
  rw [hdb]
  rfl

theorem resume_claims (cfg : Settings) (py : Interp) (e : Env) (t : RunTask) (h : ClaimsKept w.sys) :
    ClaimsKept (t.resume cfg uuid5 e w).2.sys := by
  obtain ⟨bill, phase, lost⟩ := t
  cases phase with
  | usageEvent => exact recordUsageEvent_claims h
  | debit =>
    exact next_claimsKept cfg py (.debitCredit e bill.org bill.cost ("run:" ++ bill.runId) bill.principal) h
  | settlement success deducted =>
    refine h.of_eq ?_ rfl
    show (recordSettlement e (bill.usageRow success deducted) w.db).settlements = w.db.settlements
    rw [recordSettlement_frame]
  | charge success deducted => exact recordCharge_claims h
  | enqueue =>
    exact next_claimsKept cfg py (.enqueue e bill.usageEventId bill.org bill.runId .credit bill.cost none bill.principal
      (chargeIdFor uuid5 bill.source bill.runId) bill.allocations) h
  | done => exact h

theorem map_bill_set {i : ℕ} {t' : RunTask} (hi : runs[i]? = some t) (hb : t'.bill = t.bill) :
    (runs.set i t').map bill = runs.map bill := by
  refine ext_getElem? (fun j => ?_)
  rw [getElem?_map, getElem?_map, getElem?_set]
  split_ifs with hij hlt
  · subst hij
    rw [hi, map_some, map_some, hb]
  · subst hij
    rw [getElem?_eq_none (not_lt.1 hlt)]
  · rfl

theorem apart_of_ne (h : (runs.map bill).Pairwise (OtherRun uuid5)) {i j : ℕ} {t' : RunTask} (hi : runs[i]? = some t)
    (hj : runs[j]? = some t') (hne : i ≠ j) : OtherRun uuid5 t.bill t'.bill := by
  have hlt : ∀ {a c : ℕ} {u v : RunTask}, runs[a]? = some u → runs[c]? = some v → a < c → OtherRun uuid5 u.bill v.bill := by
    intro a c u v ha hc hac
    obtain ⟨hla, rfl⟩ := List.getElem?_eq_some_iff.1 ha
    obtain ⟨hlc, rfl⟩ := List.getElem?_eq_some_iff.1 hc
    have := pairwise_iff_getElem.1 h a c (by simpa using hla) (by simpa using hlc) hac
    simpa using this
  rcases lt_or_gt_of_ne hne with hij | hij
  · exact hlt hi hj hij
  · exact (hlt hj hi hij).symm

/-- **Every step keeps the books.** -/
theorem tillStep_inv (cfg : Settings) (py : Interp) (huuid : ∀ name, uuid5 name ≠ "") {act : TillAct} (h : TillInv uuid5 w)
    (hd : Distinct uuid5 w act) : TillInv uuid5 (tillStep cfg py uuid5 w act) := by
  cases act with
  | base op =>
    obtain ⟨hsys, hruns⟩ := baseStep_sys cfg py w op
    refine ⟨?_, ?_, fun t ht => ?_⟩
    · show ClaimsKept (baseStep cfg py w op).sys
      rw [hsys]
      exact next_claimsKept cfg py op h.claims
    · show ((baseStep cfg py w op).runs.map bill).Pairwise (OtherRun uuid5)
      rw [hruns]
      exact h.apart
    · have ht : t ∈ w.runs := hruns ▸ ht
      obtain ⟨hagent, hk⟩ := h.runs t ht
      exact ⟨hagent, base_kept cfg py huuid h.claims hk (hd t ht)⟩
  | complete b =>
    obtain ⟨hagent, hrows, hcharge, hdebits, hapart⟩ := hd
    refine ⟨h.claims, ?_, fun t ht => ?_⟩
    · show ((w.runs ++ [_]).map bill).Pairwise (OtherRun uuid5)
      rw [map_append, pairwise_append]
      refine ⟨h.apart, pairwise_singleton _ _, fun b' hb' b'' hb'' => ?_⟩
      obtain ⟨t, ht, rfl⟩ := mem_map.1 hb'
      rw [map_singleton, mem_singleton] at hb''
      rw [hb'']
      exact hapart t ht
    · rcases mem_append.1 ht with ht | ht
      · exact h.runs t ht
      · rw [mem_singleton.1 ht]
        exact ⟨hagent, .inr ⟨hrows, hcharge, hdebits⟩⟩
  | resume i e =>
    cases hi : w.runs[i]? with
    | none =>
      have hstep : tillStep cfg py uuid5 w (.resume i e) = w := by simp only [tillStep, hi]
      rw [hstep]
      exact h
    | some t =>
      have hstep : tillStep cfg py uuid5 w (.resume i e) =
          { (t.resume cfg uuid5 e w).2 with runs := w.runs.set i (t.resume cfg uuid5 e w).1 } := by
        simp [tillStep, hi]
      rw [hstep]
      refine ⟨resume_claims cfg py e t h.claims, ?_, fun u hu => ?_⟩
      · rw [map_bill_set hi (resume_bill cfg e t w)]
        exact h.apart
      · obtain ⟨j, hj⟩ := getElem?_of_mem hu
        rcases Locks.getElem?_set_cases hj with ⟨rfl, rfl⟩ | ⟨hij, hj⟩
        · obtain ⟨hagent, hk⟩ := h.runs t (mem_of_getElem? hi)
          exact ⟨by rw [resume_bill]; exact hagent, resume_kept cfg e hk⟩
        · obtain ⟨hagent, hk⟩ := h.runs u (mem_of_getElem? hj)
          exact ⟨hagent, hk.untouched (resume_untouched cfg py e w (apart_of_ne h.apart hj hi hij))⟩
  | otherCharge e head row amount =>
    have hruns : (recordCharge e head row amount w).runs = w.runs := by
      rcases recordCharge_cases e head row amount w with hw | ⟨heads, charges, -, hw⟩ <;> rw [hw]
    refine ⟨recordCharge_claims h.claims, ?_, fun t ht => ?_⟩
    · show ((recordCharge e head row amount w).runs.map bill).Pairwise (OtherRun uuid5)
      rw [hruns]
      exact h.apart
    · have ht : t ∈ w.runs := hruns ▸ ht
      obtain ⟨hagent, hk⟩ := h.runs t ht
      exact ⟨hagent, hk.untouched (recordCharge_untouched e amount w (hd t ht).1 (hd t ht).2)⟩
  | otherUsage e row =>
    have hruns := (recordUsageEvent_frame e row w).2.2.2
    refine ⟨recordUsageEvent_claims h.claims, ?_, fun t ht => ?_⟩
    · show ((recordUsageEvent e row w).runs.map bill).Pairwise (OtherRun uuid5)
      rw [hruns]
      exact h.apart
    · have ht : t ∈ w.runs := hruns ▸ ht
      obtain ⟨hagent, hk⟩ := h.runs t ht
      exact ⟨hagent, hk.untouched (recordUsageEvent_untouched e w (hd t ht))⟩

end Books

end Teardrop.Billing
