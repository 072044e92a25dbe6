/-
Reconciliation of the runs billed to credit, and the agreement of their three records.

The records that `Billing.RunBooks` keeps for a run are what the reconciliation queries join: one usage event, one charge
with the run's ids, and the debits under the run's reason. For a settled run every join finds exactly these, and they
agree, whatever the window.
-/
import Teardrop.Billing.RunBooks

namespace Teardrop.Billing

open Teardrop.Py List BilledRun

variable {uuid5 : String → String}

/-! ## Joins -/

theorem mem_leftJoin {A B : Type} {rows : List A} {joined : A → List B} {p : A × Option B} (h : p ∈ leftJoin rows joined) :
    p.1 ∈ rows ∧ ((p.2 = none ∧ joined p.1 = []) ∨ ∃ b ∈ joined p.1, p.2 = some b) := by
  obtain ⟨a, ha, hp⟩ := mem_flatMap.1 h
  cases hj : joined a with
  | nil =>
    rw [hj] at hp
    cases mem_singleton.1 hp
    exact ⟨ha, Or.inl ⟨rfl, hj⟩⟩
  | cons b bs =>
    rw [hj] at hp
    obtain ⟨b', hb', rfl⟩ := mem_map.1 hp
    exact ⟨ha, Or.inr ⟨b', by rw [hj]; exact hb', rfl⟩⟩

theorem mem_usage {w : Till} {p : UsageHead × UsageRow} (h : p ∈ w.usage) : w.db.usageEvents.get? p.1.id = some p.2 := by
  obtain ⟨u, -, hu⟩ := mem_filterMap.1 h
  obtain ⟨r, hr, rfl⟩ := Option.map_eq_some_iff.1 hu
  exact hr

theorem mem_charges {w : Till} {p : ChargeHead × ChargeRow} (h : p ∈ w.charges) :
    w.heads.get? p.1.id = some p.1 ∧ w.db.charges.get? p.1.id = some p.2 := by
  obtain ⟨c, hc, hp⟩ := mem_filterMap.1 h
  obtain ⟨r, hr, rfl⟩ := Option.map_eq_some_iff.1 hp
  exact ⟨Table.get?_of_mem hc, hr⟩

theorem Charged.mem {w : Till} {b : BilledRun} {row : ChargeRow} (h : Charged uuid5 b w.db w.heads row) :
    ∃ head now, (head, row) ∈ w.charges ∧ SameHead (b.chargeHead uuid5 now) head := by
  obtain ⟨hrow, ⟨head, now, hhead, hsame⟩, -⟩ := h
  refine ⟨head, now, mem_filterMap.2 ⟨head, Table.mem_of_get? hhead, ?_⟩, hsame⟩
  have hid : head.id = b.chargeId uuid5 := Table.key_of_get? hhead
  rw [hid, hrow]
  rfl

theorem Charged.unique {w : Till} {b : BilledRun} {row : ChargeRow} (h : Charged uuid5 b w.db w.heads row)
    {c : ChargeHead × ChargeRow} (hc : c ∈ w.charges) (hnames : HeadNames uuid5 b c.1) :
    c.2 = row ∧ ∃ now, SameHead (b.chargeHead uuid5 now) c.1 := by
  obtain ⟨hrow, ⟨head, now, hhead, hsame⟩, huniq⟩ := h
  obtain ⟨hget, hcharge⟩ := mem_charges hc
  have hid := huniq _ c.1 hget hnames
  rw [hid] at hget hcharge
  rw [hhead] at hget
  rw [hrow] at hcharge
  exact ⟨(Option.some.inj hcharge).symm, now, (Option.some.inj hget) ▸ hsame⟩

theorem SameHead.fields {b : BilledRun} {now : ℤ} {head : ChargeHead} (h : SameHead (b.chargeHead uuid5 now) head) :
    head.source = b.source ∧ head.invocationId = b.runId ∧ head.usageEventId = b.usageEventId ∧ head.orgId = b.org ∧
      head.billingMethod = .credit ∧ head.settlementTx = "" ∧ head.id = b.chargeId uuid5 := by
  rw [h]
  exact ⟨rfl, rfl, rfl, rfl, rfl, rfl, rfl⟩

/-! ## A settled run is not listed -/

/-- none of the run's records is in the report -/
structure Unlisted (uuid5 : String → String) (b : BilledRun) (db : Db) (rep : Reconciliation) : Prop where
  run : b.usageEventId ∉ rep.flaggedRuns
  charge : b.chargeId uuid5 ∉ rep.unmatchedCharges
  debits : ∀ d ∈ debitsOf b.runId db, d.id ∉ rep.flaggedDebits
  debit : b.chargeId uuid5 ∉ rep.missingDebits

theorem debitedRun_of_mem {w : Till} {b : BilledRun} {d : LedgerRow} (hd : d ∈ debitsOf b.runId w.db) :
    d ∈ w.db.ledger.rows ∧ d.operation = .debit ∧ d.reason = "run:" ++ b.runId ∧ debitedRun d = some b.runId := by
  obtain ⟨hmem, hcond⟩ := mem_filter.1 hd
  rw [Bool.and_eq_true, decide_eq_true_eq, decide_eq_true_eq] at hcond
  refine ⟨hmem, hcond.1, hcond.2, ?_⟩
  unfold debitedRun
  rw [hcond.2, String.toList_append, if_pos ⟨hcond.1, prefix_append _ _⟩, drop_left' (by decide), String.ofList_toList]

section Listed

variable {w : Till} {b : BilledRun} (hs : Settled uuid5 b w.db w.heads) (hagent : b.source.isAgent = true) (start stop : ℤ)

include hs hagent

theorem not_flaggedRun : b.usageEventId ∉ flaggedRuns start stop w := by
  intro h
  obtain ⟨p, hp, hid⟩ := mem_map.1 h
  obtain ⟨hmem, hflag⟩ := mem_filter.1 hp
  obtain ⟨husage, hjoin⟩ := mem_leftJoin hmem
  have hrow := mem_usage (mem_filter.1 husage).1
  rw [hid, hs.2.1] at hrow
  have hu : p.1.2 = b.usageRow true (max 0 b.cost) := (Option.some.inj hrow).symm
  rcases hjoin with ⟨-, hnone⟩ | ⟨c, hc, hsome⟩
  · -- the run's own charge joins
    obtain ⟨head, now, hcharge, hsame⟩ := hs.2.2.mem
    obtain ⟨hsource, -, hue, -⟩ := hsame.fields
    have hin : (head, b.chargeRow uuid5 true (max 0 b.cost)) ∈
        w.charges.filter (fun c => c.1.usageEventId = p.1.1.id && c.1.source.isAgent) :=
      mem_filter.2 ⟨hcharge, by simp [hue, hid, hsource, hagent]⟩
    rw [hnone] at hin
    cases hin
  · obtain ⟨hc, hcond⟩ := mem_filter.1 hc
    rw [Bool.and_eq_true, decide_eq_true_eq] at hcond
    obtain ⟨hcrow, now, hsame⟩ := hs.2.2.unique hc (Or.inr (Or.inr (hcond.1.trans hid)))
    obtain ⟨-, -, -, -, -, htx, -⟩ := hsame.fields
    rw [hsome, hu] at hflag
    simp [runFlagged, hcrow, htx, usageRow, chargeRow, ChargeStatus.text] at hflag

omit hagent in
theorem not_unmatchedCharge : b.chargeId uuid5 ∉ unmatchedCharges start stop w := by
  intro h
  obtain ⟨c, hc, hid⟩ := mem_map.1 h
  obtain ⟨hc, hcond⟩ := mem_filter.1 hc
  obtain ⟨-, now, hsame⟩ := hs.2.2.unique hc (Or.inl hid)
  obtain ⟨-, -, hue, -⟩ := hsame.fields
  rw [hue, hs.2.1] at hcond
  simp [usageRow] at hcond

omit hagent in
theorem not_flaggedDebit {d : LedgerRow} (hd : d ∈ debitsOf b.runId w.db) : d.id ∉ flaggedDebits start stop w := by
  obtain ⟨hdmem, hdop, hdreason, hdrun⟩ := debitedRun_of_mem hd
  -- a run with a debit costs something, and has this debit only
  have hone : 0 < b.cost ∧ debitsOf b.runId w.db = [d] ∧ d.orgId = b.org ∧ d.amountUsdc = b.cost := by
    by_cases hpos : 0 < b.cost
    · obtain ⟨r, hr, horg, hamount⟩ := hs.1.1 hpos
      rw [hr, mem_singleton] at hd
      subst hd
      exact ⟨hpos, hr, horg, hamount⟩
    · rw [hs.1.2 (not_lt.1 hpos)] at hd
      cases hd
  obtain ⟨hpos, hall, horg, hamount⟩ := hone
  intro h
  obtain ⟨p, hp, hid⟩ := mem_map.1 h
  obtain ⟨hmem, hflag⟩ := mem_filter.1 hp
  obtain ⟨hdebit, hjoin⟩ := mem_leftJoin hmem
  have hpd : p.1 = d :=
    inj_on_of_nodup_map w.db.ledger.ids (mem_filter.1 hdebit).1 hdmem hid
  have hsingle : ¬ 1 < ((w.db.ledger.rows.filter (fun r => (debitedRun r).isSome && within start stop r.createdAt)).filter
      (fun r => r.orgId = p.1.orgId && r.reason = p.1.reason)).length := by
    rw [hpd, not_lt, filter_filter]
    have hsub : (w.db.ledger.rows.filter (fun r => (decide (r.orgId = d.orgId) && decide (r.reason = d.reason)) &&
        ((debitedRun r).isSome && within start stop r.createdAt))).Sublist (debitsOf b.runId w.db) := by
      refine monotone_filter_right _ (fun r hr => ?_)
      simp only [Bool.and_eq_true, decide_eq_true_eq] at hr ⊢
      refine ⟨?_, hr.1.2.trans hdreason⟩
      have hsome := hr.2.1
      unfold debitedRun at hsome
      split_ifs at hsome with hop
      · exact hop.1
      · cases hsome
    have hle := hsub.length_le
    rwa [hall] at hle
  rw [decide_eq_false hsingle, Bool.or_false] at hflag
  rcases hjoin with ⟨-, hnone⟩ | ⟨c, hc, hsome⟩
  · obtain ⟨head, now, hcharge, hsame⟩ := hs.2.2.mem
    obtain ⟨-, hinv, -, horg', hmethod, -⟩ := hsame.fields
    have hin : (head, b.chargeRow uuid5 true (max 0 b.cost)) ∈ w.charges.filter (fun c =>
        some c.1.invocationId = debitedRun p.1 && c.1.billingMethod = .credit && c.1.orgId = p.1.orgId) :=
      mem_filter.2 ⟨hcharge, by simp [hinv, hpd, hdrun, hmethod, horg', horg]⟩
    rw [hnone] at hin
    cases hin
  · obtain ⟨hc, hcond⟩ := mem_filter.1 hc
    rw [Bool.and_eq_true, Bool.and_eq_true, decide_eq_true_eq, hpd, hdrun] at hcond
    obtain ⟨hcrow, -⟩ := hs.2.2.unique hc (Or.inr (Or.inl (Option.some.inj hcond.1.1)))
    rw [hsome, hpd] at hflag
    simp [debitFlagged, hcrow, chargeRow, hamount, max_eq_right hpos.le] at hflag

omit hagent in
theorem not_missingDebit : b.chargeId uuid5 ∉ missingDebits start stop w := by
  intro h
  obtain ⟨c, hc, hid⟩ := mem_map.1 h
  obtain ⟨hc, hcond⟩ := mem_filter.1 hc
  obtain ⟨hcrow, now, hsame⟩ := hs.2.2.unique hc (Or.inl hid)
  obtain ⟨-, hinv, -, horg, -⟩ := hsame.fields
  simp only [Bool.and_eq_true, decide_eq_true_eq, hcrow] at hcond
  obtain ⟨⟨⟨-, hamount⟩, -⟩, hmissing⟩ := hcond
  have hpos : 0 < b.cost := by
    simp only [chargeRow, if_true] at hamount
    omega
  obtain ⟨r, hr, hrorg, -⟩ := hs.1.1 hpos
  obtain ⟨hrmem, hrop, hrreason, -⟩ := debitedRun_of_mem (d := r) (by rw [hr]; exact mem_singleton_self r)
  rw [Bool.not_eq_true', any_eq_false] at hmissing
  refine hmissing r hrmem ?_
  simp [hrorg, horg, hrop, hrreason, hinv]

end Listed

/-! ## Agreement -/

/-- **The books of a run agree.** -/
structure Agrees (uuid5 : String → String) (w : Till) (b : BilledRun) : Prop where
  /-- the row in the queue is settled, or there is none -/
  settled : (∀ x r, w.db.settlements.get? x = some r → r.runId = b.runId → r.status = .settled) →
    w.db.charges.get? (b.chargeId uuid5) = some ⟨b.chargeId uuid5, max 0 b.cost, .settled⟩ ∧
    w.db.usageEvents.get? b.usageEventId = some ⟨b.usageEventId, max 0 b.cost, "", "settled"⟩ ∧
    (0 < b.cost → ∃ d, debitsOf b.runId w.db = [d] ∧ d.orgId = b.org ∧ d.amountUsdc = b.cost) ∧
    (b.cost ≤ 0 → debitsOf b.runId w.db = []) ∧
    ∀ start stop rep, chargeReconciliation start stop w = .ok rep → Unlisted uuid5 b w.db rep
  /-- the row in the queue is not settled -/
  unsettled : ∀ x r, w.db.settlements.get? x = some r → r.runId = b.runId → r.status ≠ .settled →
    (∀ c, w.db.charges.get? (b.chargeId uuid5) = some c → c.status ≠ .settled) ∧ debitsOf b.runId w.db = []

theorem Settled.agrees {w : Till} {b : BilledRun} (hs : Settled uuid5 b w.db w.heads) (hagent : b.source.isAgent = true) :
    w.db.charges.get? (b.chargeId uuid5) = some ⟨b.chargeId uuid5, max 0 b.cost, .settled⟩ ∧
    w.db.usageEvents.get? b.usageEventId = some ⟨b.usageEventId, max 0 b.cost, "", "settled"⟩ ∧
    (0 < b.cost → ∃ d, debitsOf b.runId w.db = [d] ∧ d.orgId = b.org ∧ d.amountUsdc = b.cost) ∧
    (b.cost ≤ 0 → debitsOf b.runId w.db = []) ∧
    ∀ start stop rep, chargeReconciliation start stop w = .ok rep → Unlisted uuid5 b w.db rep := by
  refine ⟨?_, hs.2.1, hs.1.1, hs.1.2, fun start stop rep hrep => ?_⟩
  · have hrow := hs.2.2.1
    rw [hrow]
    simp [chargeRow, chargeId]
  · unfold chargeReconciliation at hrep
    split_ifs at hrep
    cases hrep
    exact ⟨not_flaggedRun hs hagent start stop, not_unmatchedCharge hs start stop,
      fun d hd => not_flaggedDebit hs start stop hd, not_missingDebit hs start stop⟩

theorem Recording.agrees {w : Till} {b : BilledRun} (h : Recording uuid5 b w.db w.heads .done)
    (hagent : b.source.isAgent = true) : Agrees uuid5 w b := by
  rcases h with ⟨hn, hs⟩ | ⟨x, r, hr, hmine, huniq, hsettled, howed⟩
  · exact ⟨fun _ => hs.agrees hagent, fun y r' hr' hrun => absurd (Or.inl hrun) (hn y r' hr')⟩
  · refine ⟨fun hall => (hsettled (hall x r hr hmine.run)).agrees hagent, fun y r' hr' hrun hne => ?_⟩
    obtain rfl := huniq y r' hr' (Or.inl hrun)
    rw [hr] at hr'
    cases hr'
    obtain ⟨⟨-, hnone⟩, -, hcharge, -⟩ := howed hne
    refine ⟨fun c hc => ?_, hnone⟩
    rw [hcharge] at hc
    cases hc
    exact nofun

theorem run_tillInv (cfg : Settings) (py : Interp) (huuid : ∀ name, uuid5 name ≠ "") (db : Db)
    (heads : Table ChargeHead.id) (usageHeads : Table UsageHead.id) (acts : List TillAct)
    (hd : Runs.Legal (tillStep cfg py uuid5) (Distinct uuid5) (Till.start db heads usageHeads) acts) :
    TillInv uuid5 (Runs.run (tillStep cfg py uuid5) (Till.start db heads usageHeads) acts) := by
  refine Runs.legal_inv (tillStep cfg py uuid5) (Distinct uuid5) (TillInv uuid5)
    (fun w act h hact => tillStep_inv cfg py huuid h hact) acts ?_ hd
  exact ⟨fun c hc => absurd hc not_mem_nil, List.Pairwise.nil, fun t ht => absurd ht not_mem_nil⟩

/-- **Charge, usage event and ledger agree** for every credit run whose writes reached the store, over every interleaving
of runs, retries, lost leases, exhaustion, resets and re-arming in which ids are not drawn twice. -/
theorem credit_run_books_agree (cfg : Settings) (py : Interp) (uuid5 : String → String) (huuid : ∀ name, uuid5 name ≠ "")
    (db : Db) (heads : Table ChargeHead.id) (usageHeads : Table UsageHead.id) (acts : List TillAct)
    (hd : Runs.Legal (tillStep cfg py uuid5) (Distinct uuid5) (Till.start db heads usageHeads) acts) (t : RunTask)
    (ht : t ∈ (Runs.run (tillStep cfg py uuid5) (Till.start db heads usageHeads) acts).runs) (hdone : t.phase = .done)
    (hrecorded : t.lost = false) :
    Agrees uuid5 (Runs.run (tillStep cfg py uuid5) (Till.start db heads usageHeads) acts) t.bill := by
  obtain ⟨hagent, hk⟩ := (run_tillInv cfg py huuid db heads usageHeads acts hd).runs t ht
  rcases hk with hlost | hr
  · rw [hrecorded] at hlost
    cases hlost
  · rw [hdone] at hr
    exact hr.agrees hagent

/-- a text that is never empty -/
def uuidText (name : String) : String := "uuid:" ++ name

theorem uuidText_ne (name : String) : uuidText name ≠ "" := by
  intro h
  have := congrArg String.length h
  simp [uuidText] at this

/-- a run of an org without balance -/
def sampleRun (cost : ℤ) : BilledRun := ⟨.api, "run", "usage", "org", none, cost, []⟩

/-- the calls of `dispatch_settlement`, one after another -/
def dispatchAll (cost : ℤ) : List TillAct :=
  [.base (.createOrg ⟨"org", "email"⟩), .base (.openAccount "org" 0), .complete (sampleRun cost),
    .resume 0 (.calm 0 ""), .resume 0 (.calm 1 "d"), .resume 0 (.calm 2 ""), .resume 0 (.calm 3 ""), .resume 0 (.calm 4 "q")]

/-- the debit fails; after a top-up the retry worker settles it -/
def retriedRun : List TillAct :=
  dispatchAll 30 ++ [.base (.adminTopup (.calm 5 "t") "org" 100 "admin" none),
    .base (.claimSettlements (.calm 2000005 "") (fun _ => false)), .base (.settleClaimed (.calm 2000006 "r") 0)]

def Till.empty : Till := Till.start Db.empty Table.empty Table.empty

def runTill (acts : List TillAct) : Till := Runs.run (tillStep .default noText uuidText) Till.empty acts

/-- settled by the retry worker, all three records agree -/
theorem credit_run_books_agree_retried :
    (runTill retriedRun).db.settlements.rows.map SettlementRow.status = [.settled] ∧
      ∃ t ∈ (runTill retriedRun).runs, Agrees uuidText (runTill retriedRun) t.bill := by
  refine ⟨by decide +kernel, ?_⟩
  have hdone : (runTill retriedRun).runs[0]?.map (fun t => (t.phase, t.lost)) = some (.done, false) := by decide
  obtain ⟨t, ht, hphase⟩ := Option.map_eq_some_iff.1 hdone
  refine ⟨t, mem_of_getElem? ht, ?_⟩
  refine credit_run_books_agree .default noText uuidText uuidText_ne Db.empty Table.empty Table.empty retriedRun ?_ t
    (mem_of_getElem? ht) (congrArg Prod.fst hphase) (congrArg Prod.snd hphase)
  refine ⟨nofun, nofun, ⟨rfl, ?_, ⟨rfl, ?_⟩, rfl, nofun⟩, trivial, trivial, trivial, trivial, trivial, fun _ _ h => h,
    fun _ _ h => h, fun _ _ h => h, trivial⟩
  · intro x r hr
    cases hr
  · intro x h hh
    cases hh

/-- **A free run has no debit.** A run of cost 0 is recorded as settled, in full and without a row in the queue, and the
ledger has no debit for it. -/
theorem free_run_without_debit :
    (runTill (dispatchAll 0)).runs.map (fun t => (t.phase, t.lost)) = [(.done, false)] ∧
      (runTill (dispatchAll 0)).db.settlements.rows.map SettlementRow.id = [] ∧
      (runTill (dispatchAll 0)).db.charges.rows = [⟨(sampleRun 0).chargeId uuidText, 0, .settled⟩] ∧
      ¬ ∃ d, debitsOf "run" (runTill (dispatchAll 0)).db = [d] ∧ d.amountUsdc = 0 := by
  refine ⟨by decide, by decide, by decide, ?_⟩
  rintro ⟨d, hd, -⟩
  cases hd

end Teardrop.Billing
