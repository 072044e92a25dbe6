/-
The rolling spend caps under concurrency. A session reads the org's limit, sums the org's debits and the principal's
debits, and commits, in separate statements; between them other sessions and operations run. What makes this safe is the lock
on the org's row, held from before the sums to the commit: what the session has found out is still true (`Session.Current`).
-/
import Teardrop.Billing.Sessions

namespace Teardrop.Billing

open Teardrop.Py World List Session LedgerRow

/-! ## The sums -/

section Sums

variable {now now' : ℤ} {mine : LedgerRow → Bool} {rows new : List LedgerRow}

/-- the debits a sum counts -/
def counted (now : ℤ) (mine : LedgerRow → Bool) (rows : List LedgerRow) (r : LedgerRow) : Bool :=
  r.operation = .debit && mine r && decide (now - hours 24 ≤ r.createdAt) && !isReversed rows r.id

theorem debitSpend_eq : debitSpend now mine rows = ((rows.filter (counted now mine rows)).map amountUsdc).sum :=
  rfl

theorem counted_of_later (hnow : now ≤ now') {r : LedgerRow} (h : counted now' mine (rows ++ new) r) :
    counted now mine rows r := by
  simp only [counted, Bool.and_eq_true, decide_eq_true_eq, Bool.not_eq_true', isReversed, any_append,
    Bool.or_eq_false_iff] at h ⊢
  obtain ⟨⟨⟨hop, hmine⟩, hwindow⟩, hrev, -⟩ := h
  exact ⟨⟨⟨hop, hmine⟩, by omega⟩, hrev⟩

theorem sum_filter_le {p q : LedgerRow → Bool} (hpos : ∀ r ∈ rows, 0 < r.amountUsdc) (h : ∀ r ∈ rows, p r → q r) :
    ((rows.filter p).map amountUsdc).sum ≤ ((rows.filter q).map amountUsdc).sum := by
  have hsub : List.Sublist (rows.filter p) (rows.filter q) := by
    have hpq : rows.filter p = (rows.filter q).filter p := by
      rw [filter_filter]
      refine filter_congr (fun r hr => ?_)
      by_cases hp : p r
      · simp [h r hr hp]
      · simp [hp]
    rw [hpq]
    exact filter_sublist
  refine (hsub.map amountUsdc).sum_le_sum (fun a ha => ?_)
  obtain ⟨r, hr, rfl⟩ := mem_map.1 ha
  exact (hpos r (mem_filter.1 hr).1).le

/-- **Sums only fall**, unless a debit of one's own is added. -/
theorem debitSpend_append_le (hpos : ∀ r ∈ rows, 0 < r.amountUsdc) (hnow : now ≤ now')
    (hnew : ∀ r ∈ new, r.operation = .debit → mine r = false) :
    debitSpend now' mine (rows ++ new) ≤ debitSpend now mine rows := by
  rw [debitSpend_eq, debitSpend_eq, filter_append, map_append, sum_append]
  have hnone : new.filter (counted now' mine (rows ++ new)) = [] := by
    rw [filter_eq_nil_iff]
    intro r hr hc
    simp only [counted, Bool.and_eq_true, decide_eq_true_eq] at hc
    rw [hnew r hr hc.1.1.1] at hc
    simp at hc
  rw [hnone, map_nil, sum_nil, add_zero]
  exact sum_filter_le hpos (fun r _ h => counted_of_later hnow h)

theorem debitSpend_snoc_le (hpos : ∀ r ∈ rows, 0 < r.amountUsdc) (hnow : now ≤ now') {row : LedgerRow}
    (hrow : 0 < row.amountUsdc) : debitSpend now' mine (rows ++ [row]) ≤ debitSpend now mine rows + row.amountUsdc := by
  rw [debitSpend_eq, debitSpend_eq, filter_append, map_append, sum_append]
  have hold : ((rows.filter (counted now' mine (rows ++ [row]))).map amountUsdc).sum ≤
      ((rows.filter (counted now mine rows)).map amountUsdc).sum :=
    sum_filter_le hpos (fun r _ h => counted_of_later hnow h)
  have hlast : (([row].filter (counted now' mine (rows ++ [row]))).map amountUsdc).sum ≤ row.amountUsdc := by
    rw [filter_singleton]
    cases counted now' mine (rows ++ [row]) row with
    | true => simp
    | false => simpa using hrow.le
  omega

end Sums

/-! ## What a session knows stays true -/

/-- what the session has found out holds of the store as it is now -/
def Session.Current (cfg : Settings) (db : Db) (ses : Session) : Prop :=
  match ses.phase with
  | .begun => True
  | .proceeding => True
  | .locked c o => creditRow ses.call.org db = some (c, o)
  | .orgChecked c o => creditRow ses.call.org db = some (c, o) ∧ OrgOk c o
  | .limitRead c o p limit => creditRow ses.call.org db = some (c, o) ∧ OrgOk c o ∧
      givenPrincipal ses.call.principal = some p ∧ db.principalLimits.get? (ses.call.org, p) = some limit
  | .checked c o limit => creditRow ses.call.org db = some (c, o) ∧ OrgOk c o ∧ ∀ l, limit = some l →
      ∃ p, givenPrincipal ses.call.principal = some p ∧ db.principalLimits.get? (ses.call.org, p) = some l ∧
        dailyPrincipalDebitSpend ses.call.env.now db.ledger.rows ses.call.org p + ses.call.amount ≤ l.dailyLimitUsdc
where
  /-- the org's limit has room for the amount -/
  OrgOk (c : CreditRow) (o : OrgRow) : Prop :=
    0 < effectiveLimit cfg c o.acquisitionSource →
      dailyDebitSpend ses.call.env.now db.ledger.rows ses.call.org + ses.call.amount ≤
        effectiveLimit cfg c o.acquisitionSource

/-- a change of the store beside a session: orgs stay, and no debit of the session's org is added while it is held -/
structure Beside (db db' : Db) (ses : Session) : Prop where
  credits : ∀ org, ses.orgLock = some org → db'.credits.get? org = db.credits.get? org
  orgs : ∀ x o, db.orgs.get? x = some o → db'.orgs.get? x = some o
  limits : ∀ l, ses.limitLock = some l →
    db'.principalLimits.get? (l.orgId, l.principalId) = db.principalLimits.get? (l.orgId, l.principalId)
  rows : ∃ new, db'.ledger.rows = db.ledger.rows ++ new ∧
    ∀ r ∈ new, r.operation = .debit → ∀ org, ses.orgLock = some org → r.orgId ≠ org

variable {db db' : Db} {ses : Session} {org : String} {c : CreditRow} {cfg : Settings} {py : Interp} {w : World}

theorem Beside.creditRow (h : Beside db db' ses) (hlock : ses.orgLock = some org) {o : OrgRow}
    (hrow : creditRow org db = some (c, o)) : Billing.creditRow org db' = some (c, o) := by
  obtain ⟨hc, ho⟩ := creditRow_some hrow
  unfold Billing.creditRow
  rw [h.credits org hlock, hc, h.orgs org o ho]

theorem Beside.spend (h : Beside db db' ses) (hlock : ses.orgLock = some org) (now : ℤ) {mine : LedgerRow → Bool}
    (hmine : ∀ r, mine r → r.orgId = org) :
    debitSpend now mine db'.ledger.rows ≤ debitSpend now mine db.ledger.rows := by
  obtain ⟨new, hrows, hnew⟩ := h.rows
  rw [hrows]
  refine debitSpend_append_le db.ledger.positive (le_refl now) (fun r hr hop => ?_)
  by_contra hm
  exact hnew r hr hop org hlock (hmine r (by simpa using hm))

theorem Beside.dailyDebitSpend (h : Beside db db' ses) (hlock : ses.orgLock = some org) (now : ℤ) :
    Billing.dailyDebitSpend now db'.ledger.rows org ≤ Billing.dailyDebitSpend now db.ledger.rows org :=
  h.spend hlock now (fun r hr => by simpa using hr)

theorem Beside.dailyPrincipalDebitSpend (h : Beside db db' ses) (hlock : ses.orgLock = some org) (now : ℤ) (p : String) :
    Billing.dailyPrincipalDebitSpend now db'.ledger.rows org p ≤ Billing.dailyPrincipalDebitSpend now db.ledger.rows org p :=
  h.spend hlock now (fun r hr => by simp only [Bool.and_eq_true, decide_eq_true_eq] at hr; exact hr.1)

/-- **What a session has found out stays true beside it.** -/
theorem Session.Current.beside (h : ses.Current cfg db) (hb : Beside db db' ses) : ses.Current cfg db' := by
  obtain ⟨call, phase⟩ := ses
  have orgOk : ∀ {c : CreditRow} {o : OrgRow}, orgLock ⟨call, phase⟩ = some call.org →
      Session.Current.OrgOk cfg db ⟨call, phase⟩ c o → Session.Current.OrgOk cfg db' ⟨call, phase⟩ c o := by
    intro c o hlock hok hpos
    have hspend := hb.dailyDebitSpend hlock call.env.now
    have hroom := hok hpos
    simp only at hroom ⊢
    omega
  -- a limit row that is held is the stored one
  have limitOk : ∀ {p : String} {l : PrincipalLimitRow}, limitLock ⟨call, phase⟩ = some l →
      db.principalLimits.get? (call.org, p) = some l → db'.principalLimits.get? (call.org, p) = some l := by
    intro p l hlock hl
    have hkey := Table.key_of_get? hl
    have := hb.limits l hlock
    rw [hkey] at this
    rw [this]
    exact hl
  cases phase with
  | begun | proceeding => trivial
  | locked c o => exact hb.creditRow rfl h
  | orgChecked c o => exact ⟨hb.creditRow rfl h.1, orgOk rfl h.2⟩
  | limitRead c o p l => exact ⟨hb.creditRow rfl h.1, orgOk rfl h.2.1, h.2.2.1, limitOk rfl h.2.2.2⟩
  | checked c o limit =>
    refine ⟨hb.creditRow rfl h.1, orgOk rfl h.2.1, fun l hl => ?_⟩
    obtain ⟨p, hp, hstored, hroom⟩ := h.2.2 l hl
    have hlock : orgLock ⟨call, .checked c o limit⟩ = some call.org := rfl
    have hspend := hb.dailyPrincipalDebitSpend hlock call.env.now p
    simp only at hroom ⊢
    exact ⟨p, hp, limitOk hl hstored, by omega⟩

/-! ## What moves beside a session -/

theorem next_orgs (cfg : Settings) (py : Interp) (s : Sys) (op : Op) {x : String} {o : OrgRow}
    (h : s.db.orgs.get? x = some o) : (next cfg py s op).db.orgs.get? x = some o := by
  cases step_effect cfg py s op with
  | quiet hq _ => exact hq.orgs x o h
  | limited _ hdb _ => rw [hdb]; exact h
  | debited _ _ hp _ => rw [hp.orgs]; exact h
  | funded _ _ hf _ =>
    obtain ⟨db₁, hp, hrest⟩ := hf.posted
    have horgs : (next cfg py s op).db.orgs = db₁.orgs := by rw [hrest]
    rw [horgs, hp.orgs]
    exact h
  | topped _ _ _ ht _ => rw [ht.orgs]; exact h
  | acted _ ha _ => rw [ha.frame]; exact h
  | settled _ _ _ hs _ => rw [hs.orgs]; exact h

theorem next_rows (cfg : Settings) (py : Interp) (s : Sys) {op : Op} (hop : isDebit op = false) :
    ∃ new, (next cfg py s op).db.ledger.rows = s.db.ledger.rows ++ new ∧ ∀ r ∈ new, r.operation ≠ .debit := by
  have unmoved : Unmoved s.db (next cfg py s op).db →
      ∃ new, (next cfg py s op).db.ledger.rows = s.db.ledger.rows ++ new ∧ ∀ r ∈ new, r.operation ≠ .debit :=
    fun hm => ⟨[], by rw [hm.ledger, append_nil], by simp⟩
  have toppedUp : ∀ {row : LedgerRow}, Moved s.db (next cfg py s op).db row → row.operation = .topup →
      ∃ new, (next cfg py s op).db.ledger.rows = s.db.ledger.rows ++ new ∧ ∀ r ∈ new, r.operation ≠ .debit :=
    fun {row} hm htop => ⟨[row], hm.rows, by simp [htop]⟩
  cases step_effect cfg py s op with
  | quiet hq _ => exact unmoved hq.unmoved
  | limited _ hdb _ => exact unmoved (Unmoved.of_eq (by rw [hdb]) (by rw [hdb]))
  | debited h _ _ _ | funded h _ _ _ | settled h _ _ _ _ => subst h; cases hop
  | topped _ _ _ ht _ =>
    rcases ht.money with hm | ⟨row, hm, htop, -⟩
    · exact unmoved hm
    · exact toppedUp hm htop
  | acted _ ha _ =>
    cases ha.act with
    | idle _ hm => exact unmoved hm
    | paid _ _ _ _ _ _ hm => exact unmoved hm
    | @step r r' c _ _ _ hpays =>
      cases c with
      | nothing => exact unmoved hpays
      | adjustment n => obtain ⟨row, hm, htop, -⟩ := hpays; exact toppedUp hm htop
      | refund n => obtain ⟨row, hm, htop, -⟩ := hpays; exact toppedUp hm htop

theorem DebitCall.finish_ok {call : DebitCall} {u : Unit} (h : call.finish cfg py db = .ok (u, db')) :
    db'.ledger = db.ledger ∧ db'.credits = db.credits ∧ db'.orgs = db.orgs ∧ db'.principalLimits = db.principalLimits := by
  cases call with
  | debit e org amount reason principal => cases Tx.pure_ok h; exact ⟨rfl, rfl, rfl, rfl⟩
  | fund e org amount reason d runId principal =>
    obtain ⟨-, o, -, hr⟩ := insertOutbox_ok h
    cases hr
    exact ⟨rfl, rfl, rfl, rfl⟩
  | settle e row retryCount =>
    have hrest := (completeSettlement_ok h).1
    exact ⟨by rw [hrest], by rw [hrest], by rw [hrest], by rw [hrest]⟩

/-- the debit a session commits -/
def DebitCall.row (call : DebitCall) (db : Db) : LedgerRow :=
  debitRow call.env.now (call.env.uuid 0) call.org call.amount (balance db call.org - call.amount) call.reason call.principal

theorem DebitCall.writes_ok {call : DebitCall} {u : Unit} (hc : db.credits.get? call.org = some c)
    (h : call.writes cfg py c.balanceUsdc db = .ok (u, db')) :
    Moved db db' (call.row db) ∧ db'.orgs = db.orgs ∧ db'.principalLimits = db.principalLimits := by
  obtain ⟨_, db₁, hw, h⟩ := Tx.bind_ok h
  have hp := writeDebit_ok hc hw
  obtain ⟨hl, hcr, ho, hlim⟩ := DebitCall.finish_ok h
  exact ⟨hp.toMoved.congr rfl rfl hl hcr, ho.trans hp.orgs, hlim.trans hp.limits⟩

/-! ## The invariant -/

structure World.Inv (cfg : Settings) (w : World) : Prop where
  exclusive : Locks.Exclusive Session.orgLock w.sessions
  current : ∀ ses ∈ w.sessions, ses.Current cfg w.sys.db

theorem check_current {call : DebitCall} {phase phase' : Phase} (h : Session.Current cfg db ⟨call, phase⟩)
    (hcheck : check cfg db call phase = some phase') : Session.Current cfg db ⟨call, phase'⟩ := by
  cases phase with
  | begun =>
    simp only [check] at hcheck
    split_ifs at hcheck
    cases hcheck
    trivial
  | proceeding =>
    simp only [check] at hcheck
    split at hcheck
    · cases hcheck
    · next c o hrow =>
      split_ifs at hcheck
      cases hcheck
      exact hrow
  | locked c o =>
    simp only [check] at hcheck
    split_ifs at hcheck with hover
    cases hcheck
    refine ⟨h, fun hpos => ?_⟩
    simp only [overOrgLimit, Bool.and_eq_true, decide_eq_true_eq, not_and, not_lt] at hover
    exact hover hpos
  | orgChecked c o =>
    simp only [check] at hcheck
    split at hcheck
    · cases hcheck
      exact ⟨h.1, h.2, fun l hl => by cases hl⟩
    · next p hp =>
      split at hcheck
      · cases hcheck
        exact ⟨h.1, h.2, fun l hl => by cases hl⟩
      · next limit hlimit =>
        split_ifs at hcheck
        cases hcheck
        exact ⟨h.1, h.2, hp, hlimit⟩
  | limitRead c o p limit =>
    simp only [check] at hcheck
    split_ifs at hcheck with hover
    cases hcheck
    refine ⟨h.1, h.2.1, fun l hl => ?_⟩
    cases hl
    exact ⟨p, h.2.2.1, h.2.2.2, by simpa using hover⟩
  | checked c o limit =>
    cases hcheck
    exact h

/-- a session goes on holding the org's row; it takes it in one statement, from no lock at all -/
theorem check_orgLock {call : DebitCall} {phase phase' : Phase} (hcheck : check cfg db call phase = some phase') :
    orgLock ⟨call, phase'⟩ = orgLock ⟨call, phase⟩ ∨ (phase = .proceeding ∧ orgLock ⟨call, phase'⟩ = some call.org) := by
  cases phase with
  | begun | locked _ _ | limitRead _ _ _ _ =>
    simp only [check] at hcheck
    split_ifs at hcheck
    cases hcheck
    exact Or.inl rfl
  | proceeding =>
    simp only [check] at hcheck
    split at hcheck
    · cases hcheck
    · split_ifs at hcheck
      cases hcheck
      exact Or.inr ⟨rfl, rfl⟩
  | orgChecked c o =>
    simp only [check] at hcheck
    split at hcheck
    · cases hcheck; exact Or.inl rfl
    · split at hcheck
      · cases hcheck; exact Or.inl rfl
      · split_ifs at hcheck
        cases hcheck; exact Or.inl rfl
  | checked c o limit =>
    cases hcheck
    exact Or.inl rfl

/-- what a session's next statement can do to the world: nothing, end the session, take it to its next phase, or commit -/
inductive Advance (cfg : Settings) (py : Interp) (w w' : World) (i : ℕ) : Prop where
  | waited : w' = w → Advance cfg py w w' i
  | ended : w' = { w with sessions := w.sessions.eraseIdx i } → Advance cfg py w w' i
  | checked {ses : Session} {phase : Phase} : w.sessions[i]? = some ses → w.waits ses = false →
      Session.check cfg w.sys.db ses.call ses.phase = some phase →
      w' = { w with sessions := w.sessions.set i ⟨ses.call, phase⟩ } → Advance cfg py w w' i
  | committed {call : DebitCall} {c : CreditRow} {o : OrgRow} {limit : Option PrincipalLimitRow} {db' : Db} :
      w.sessions[i]? = some ⟨call, .checked c o limit⟩ → call.writes cfg py c.balanceUsdc w.sys.db = .ok ((), db') →
      w' = ⟨{ w.sys with db := db' }, w.sessions.eraseIdx i⟩ → Advance cfg py w w' i

theorem advance_cases (cfg : Settings) (py : Interp) (w : World) (i : ℕ) : Advance cfg py w (w.advance cfg py i) i := by
  unfold advance
  split
  · exact .waited rfl
  · next ses hi =>
    split_ifs with hwaits
    · exact .waited rfl
    · have hwaits : w.waits ses = false := by simpa using hwaits
      split
      · next c o limit hphase =>
        unfold commit
        split_ifs
        · exact .ended rfl
        · have hses : ses = ⟨ses.call, .checked c o limit⟩ := by rw [← hphase]
          rcases Tx.commit_cases (ses.call.writes cfg py c.balanceUsdc) w.sys.db with ⟨u, db', hok, hc⟩ | ⟨x, -, hc⟩
          · rw [hc]
            exact .committed (hses ▸ hi) hok rfl
          · rw [hc]
            exact .ended rfl
      · split
        · exact .ended rfl
        · next hcheck => exact .checked hi hwaits hcheck rfl

theorem World.Inv.erase (h : w.Inv cfg) (i : ℕ) : World.Inv cfg { w with sessions := w.sessions.eraseIdx i } :=
  ⟨h.exclusive.erase i, fun ses hses => h.current ses (mem_of_mem_eraseIdx hses)⟩

theorem committed_beside (h : w.Inv cfg) {i : ℕ} {call : DebitCall} {o : OrgRow} {limit : Option PrincipalLimitRow}
    (hi : w.sessions[i]? = some ⟨call, .checked c o limit⟩)
    (hok : call.writes cfg py c.balanceUsdc w.sys.db = .ok ((), db')) :
    ∀ ses ∈ w.sessions.eraseIdx i, Beside w.sys.db db' ses := by
  intro ses hses
  have hcurrent := h.current _ (mem_of_getElem? hi)
  obtain ⟨hm, horgs, hlimits⟩ := DebitCall.writes_ok (creditRow_some hcurrent.1).1 hok
  have hne : ∀ org, ses.orgLock = some org → call.org ≠ org := by
    rintro org hlock rfl
    exact h.exclusive.apart hi rfl ses hses hlock
  refine ⟨fun org hlock => hm.others org (Ne.symm (hne org hlock)), fun x o ho => by rw [horgs]; exact ho,
    fun l _ => by rw [hlimits], [call.row w.sys.db], hm.rows, fun r hr _ org hlock => ?_⟩
  rw [mem_singleton.1 hr]
  exact hne org hlock

theorem other_beside {op : Op} (hop : isDebit op = false)
    (hspares : ses.spares w.sys.db (next cfg py w.sys op).db) : Beside w.sys.db (next cfg py w.sys op).db ses := by
  simp only [spares, Bool.and_eq_true] at hspares
  obtain ⟨⟨hcredits, hlimits⟩, -⟩ := hspares
  obtain ⟨new, hrows, hnew⟩ := next_rows cfg py w.sys hop
  refine ⟨fun org hlock => ?_, fun x o ho => next_orgs cfg py w.sys op ho, fun l hlock => ?_, new, hrows,
    fun r hr hdebit => absurd hdebit (hnew r hr)⟩
  · rw [hlock] at hcredits
    exact of_decide_eq_true hcredits
  · rw [hlock] at hlimits
    exact of_decide_eq_true hlimits

/-- **Every event keeps the locks exclusive and the sessions' knowledge true.** -/
theorem World.step_inv (cfg : Settings) (py : Interp) (w : World) (ev : Event) (h : w.Inv cfg) :
    (w.step cfg py ev).Inv cfg := by
  cases ev with
  | start call =>
    simp only [step]
    split_ifs
    · exact h
    · refine ⟨h.exclusive.snoc rfl, fun ses hses => ?_⟩
      rcases mem_append.1 hses with hses | hses
      · exact h.current ses hses
      · rw [mem_singleton.1 hses]
        trivial
  | drop i => exact h.erase i
  | other op =>
    simp only [step]
    split_ifs with hblocked
    · exact h
    · push Not at hblocked
      obtain ⟨hop, hspares⟩ := hblocked
      refine ⟨h.exclusive, fun ses hses => (h.current ses hses).beside (other_beside (by simpa using hop) ?_)⟩
      exact all_eq_true.1 hspares ses hses
  | advance i =>
    simp only [step]
    cases advance_cases cfg py w i with
    | waited hw => rw [hw]; exact h
    | ended hw => rw [hw]; exact h.erase i
    | @checked ses phase hi hwaits hcheck hw =>
      rw [hw]
      refine ⟨?_, fun b hb => ?_⟩
      · rcases check_orgLock hcheck with hsame | ⟨hphase, hlock⟩
        · exact h.exclusive.keep hi hsame
        · refine h.exclusive.acquire hi (by simp [orgLock, hphase]) hlock ?_
          simpa [waits, hphase] using hwaits
      · rcases mem_or_eq_of_mem_set hb with hb | rfl
        · exact h.current b hb
        · exact check_current (h.current ses (mem_of_getElem? hi)) hcheck
    | committed hi hok hw =>
      rw [hw]
      refine ⟨h.exclusive.erase i, fun ses hses => ?_⟩
      exact (h.current ses (mem_of_mem_eraseIdx hses)).beside (committed_beside h hi hok ses hses)

/-! ## Limit rows that appear in the course of a run -/

/-- the run sets no limit for this principal -/
def SetsNoLimit (events : List Event) (org p : String) : Prop :=
  ∀ r, Event.other (.upsertPrincipalLimit r) ∈ events → (r.orgId, r.principalId) ≠ (org, p)

/-- a session that found no limit row is right about it, unless one was set in the run -/
def FoundNone (events : List Event) (w : World) : Prop :=
  ∀ ses ∈ w.sessions, ∀ c o, ses.phase = .checked c o none → ∀ p, givenPrincipal ses.call.principal = some p →
    SetsNoLimit events ses.call.org p → w.sys.db.principalLimits.get? (ses.call.org, p) = none

theorem upsertPrincipalSpendLimit_other (row : PrincipalLimitRow) (db : Db) {k : String × String}
    (hk : (row.orgId, row.principalId) ≠ k) (h : db.principalLimits.get? k = none) :
    (upsertPrincipalSpendLimit row db).principalLimits.get? k = none := by
  unfold upsertPrincipalSpendLimit
  split_ifs
  · exact h
  · split
    · next limits hins =>
      rw [Table.get?_insert hins, if_neg hk]
      exact h
    · simp [h]

theorem next_limits (cfg : Settings) (py : Interp) (s : Sys) (op : Op) {k : String × String}
    (hop : ∀ r, op = .upsertPrincipalLimit r → (r.orgId, r.principalId) ≠ k)
    (h : s.db.principalLimits.get? k = none) : (next cfg py s op).db.principalLimits.get? k = none := by
  cases step_effect cfg py s op with
  | quiet hq _ => exact hq.limits k h
  | limited hset _ _ => subst hset; exact upsertPrincipalSpendLimit_other _ s.db (hop _ rfl) h
  | debited _ _ hp _ => rw [hp.limits]; exact h
  | funded _ _ hf _ =>
    obtain ⟨db₁, hp, hrest⟩ := hf.posted
    have hlimits : (next cfg py s op).db.principalLimits = db₁.principalLimits := by rw [hrest]
    rw [hlimits, hp.limits]
    exact h
  | topped _ _ _ ht _ => rw [ht.limits]; exact h
  | acted _ ha _ => rw [ha.frame]; exact h
  | settled _ _ _ hs _ => rw [hs.limits]; exact h

theorem SetsNoLimit.before {events : List Event} {ev : Event} {p : String} (h : SetsNoLimit (events ++ [ev]) org p) :
    SetsNoLimit events org p :=
  fun r hr => h r (mem_append_left _ hr)

theorem check_none {call : DebitCall} {phase : Phase} {o : OrgRow} (hphase : ∀ c o limit, phase ≠ .checked c o limit)
    (hcheck : check cfg db call phase = some (.checked c o none)) {p : String}
    (hp : givenPrincipal call.principal = some p) : db.principalLimits.get? (call.org, p) = none := by
  cases phase with
  | begun => simp [check] at hcheck
  | proceeding =>
    simp only [check] at hcheck
    split at hcheck
    · cases hcheck
    · split_ifs at hcheck; cases hcheck
  | locked _ _ | limitRead _ _ _ _ => simp only [check] at hcheck; split_ifs at hcheck; cases hcheck
  | orgChecked c o =>
    simp only [check, hp] at hcheck
    split at hcheck
    · next hnone => exact hnone
    · split_ifs at hcheck; cases hcheck
  | checked c o limit => exact absurd rfl (hphase c o limit)

theorem step_foundNone (cfg : Settings) (py : Interp) {events : List Event} (ev : Event) (hinv : w.Inv cfg)
    (h : FoundNone events w) : FoundNone (events ++ [ev]) (w.step cfg py ev) := by
  have same : ∀ {sessions : List Session}, (∀ ses ∈ sessions, ses ∈ w.sessions) →
      FoundNone (events ++ [ev]) { w with sessions := sessions } :=
    fun hsub ses hses c o hphase p hp hset => h ses (hsub ses hses) c o hphase p hp hset.before
  cases ev with
  | start call =>
    simp only [World.step]
    split_ifs
    · exact same (fun _ hses => hses)
    · intro ses hses c o hphase p hp hset
      rcases mem_append.1 hses with hses | hses
      · exact h ses hses c o hphase p hp hset.before
      · rw [mem_singleton.1 hses] at hphase
        cases hphase
  | drop i => exact same (fun ses hses => mem_of_mem_eraseIdx hses)
  | other op =>
    simp only [World.step]
    split_ifs
    · exact same (fun _ hses => hses)
    · intro ses hses c o hphase p hp hset
      refine next_limits cfg py w.sys op (fun r hr => hset r ?_) (h ses hses c o hphase p hp hset.before)
      rw [hr]
      simp
  | advance i =>
    simp only [World.step]
    cases advance_cases cfg py w i with
    | waited hw => rw [hw]; exact same (fun _ hses => hses)
    | ended hw => rw [hw]; exact same (fun ses hses => mem_of_mem_eraseIdx hses)
    | @checked ses phase hi _ hcheck hw =>
      rw [hw]
      intro b hb c o hphase p hp hset
      rcases mem_or_eq_of_mem_set hb with hb | rfl
      · exact h b hb c o hphase p hp hset.before
      · subst hphase
        by_cases hdone : ∃ c' o' limit, ses.phase = .checked c' o' limit
        · obtain ⟨c', o', limit, hdone⟩ := hdone
          rw [hdone] at hcheck
          cases hcheck
          exact h ses (mem_of_getElem? hi) c o hdone p hp hset.before
        · push Not at hdone
          exact check_none hdone hcheck hp
    | committed hi hok hw =>
      rw [hw]
      have hcurrent := hinv.current _ (mem_of_getElem? hi)
      obtain ⟨-, -, hlimits⟩ := DebitCall.writes_ok (creditRow_some hcurrent.1).1 hok
      intro b hb c o hphase p hp hset
      rw [hlimits]
      exact h b (mem_of_mem_eraseIdx hb) c o hphase p hp hset.before

/-! ## The result -/

theorem posted_debit {ev : Event} (h : w.Inv cfg) {row : LedgerRow} (hrow : row ∈ w.posted cfg py ev)
    (hdebit : row.operation = .debit) :
    ∃ i call c o limit, ev = .advance i ∧ w.sessions[i]? = some ⟨call, .checked c o limit⟩ ∧ row = call.row w.sys.db ∧
      Moved w.sys.db (w.step cfg py ev).sys.db row ∧ (w.step cfg py ev).sys.db.orgs = w.sys.db.orgs ∧
      (w.step cfg py ev).sys.db.principalLimits = w.sys.db.principalLimits := by
  have quiet : (w.step cfg py ev).sys = w.sys → False := by
    intro hsame
    simp [World.posted, hsame] at hrow
  cases ev with
  | start call =>
    refine absurd ?_ quiet
    simp only [World.step]
    split_ifs <;> rfl
  | drop i => exact absurd rfl quiet
  | other op =>
    by_cases hblocked : World.isDebit op ∨ ¬ w.sessions.all (spares w.sys.db (next cfg py w.sys op).db)
    · exact absurd (by simp only [World.step, if_pos hblocked]) quiet
    · have hop : World.isDebit op = false := by simpa using fun hop => hblocked (Or.inl hop)
      obtain ⟨new, hrows, hnew⟩ := next_rows cfg py w.sys hop
      simp only [World.posted, World.step, if_neg hblocked, hrows, drop_left] at hrow
      exact absurd hdebit (hnew row hrow)
  | advance i =>
    cases advance_cases cfg py w i with
    | waited hw => exact absurd (by rw [World.step, hw]) quiet
    | ended hw => exact absurd (by rw [World.step, hw]) quiet
    | checked _ _ _ hw => exact absurd (by rw [World.step, hw]) quiet
    | @committed call c o limit db' hi hok hw =>
      have hcurrent := h.current _ (mem_of_getElem? hi)
      obtain ⟨hm, horgs, hlimits⟩ := DebitCall.writes_ok (creditRow_some hcurrent.1).1 hok
      have hdb : (w.step cfg py (.advance i)).sys.db = db' := by rw [World.step, hw]
      have hlast : row = call.row w.sys.db := by
        simpa [World.posted, hdb, hm.rows] using hrow
      rw [hdb, hlast]
      exact ⟨i, call, c, o, limit, rfl, hi, rfl, hm, horgs, hlimits⟩

theorem effectiveLimit_balance (cfg : Settings) (c : CreditRow) (b : ℤ) (source : String) :
    effectiveLimit cfg { c with balanceUsdc := b } source = effectiveLimit cfg c source := rfl

theorem spend_after {row : LedgerRow} (hm : Moved db db' row) (mine : LedgerRow → Bool) {now : ℤ}
    (hnow : row.createdAt ≤ now) : debitSpend now mine db'.ledger.rows ≤
      debitSpend row.createdAt mine db.ledger.rows + row.amountUsdc := by
  rw [hm.rows]
  exact debitSpend_snoc_le db.ledger.positive hnow hm.positive

/-- **Rolling spend caps hold under concurrency.** Right after an event that commits a debit, at its time or any later one, the
org's unreversed debits of the last 24 hours are within the org's limit in force; the principal's are within the principal's
limit row, unless that row was set during the run; and whatever limit row the session found binds it. -/
theorem spend_caps (cfg : Settings) (py : Interp) (w : World) (hstart : w.sessions = []) (before : List Event)
    (ev : Event) (row : LedgerRow) (hrow : row ∈ (World.run cfg py w before).posted cfg py ev) (hdebit : row.operation = .debit) :
    (∀ c o, creditRow row.orgId (World.run cfg py w (before ++ [ev])).sys.db = some (c, o) →
      0 < effectiveLimit cfg c o.acquisitionSource → ∀ now, row.createdAt ≤ now →
      dailyDebitSpend now (World.run cfg py w (before ++ [ev])).sys.db.ledger.rows row.orgId ≤
        effectiveLimit cfg c o.acquisitionSource) ∧
    (∀ p l, givenPrincipal row.principalId = some p →
      (World.run cfg py w (before ++ [ev])).sys.db.principalLimits.get? (row.orgId, p) = some l →
      SetsNoLimit before row.orgId p → ∀ now, row.createdAt ≤ now →
      dailyPrincipalDebitSpend now (World.run cfg py w (before ++ [ev])).sys.db.ledger.rows row.orgId p ≤
        l.dailyLimitUsdc) ∧
    (∃ i call c o limit, ev = .advance i ∧ (World.run cfg py w before).sessions[i]? = some ⟨call, .checked c o limit⟩ ∧
      ∀ l, limit = some l → ∃ p, givenPrincipal row.principalId = some p ∧
        (World.run cfg py w (before ++ [ev])).sys.db.principalLimits.get? (row.orgId, p) = some l ∧
        ∀ now, row.createdAt ≤ now →
        dailyPrincipalDebitSpend now (World.run cfg py w (before ++ [ev])).sys.db.ledger.rows row.orgId p ≤
          l.dailyLimitUsdc) := by
  have hinv : ∀ evs, (World.run cfg py w evs).Inv cfg := fun evs =>
    Runs.run_inv (World.step cfg py) (World.Inv cfg) (World.step_inv cfg py) evs
      ⟨by rw [hstart]; exact Locks.Exclusive.nil, fun ses hses => by rw [hstart] at hses; cases hses⟩
  have hnone : FoundNone before (World.run cfg py w before) :=
    Runs.history_rule (World.step cfg py) (fun w' evs => FoundNone evs w')
      (fun ses hses => by rw [hstart] at hses; cases hses)
      (fun evs ev ih => step_foundNone cfg py ev (hinv evs) ih) before
  have hsnoc : World.run cfg py w (before ++ [ev]) = (World.run cfg py w before).step cfg py ev :=
    Runs.run_snoc _ _ _ _
  obtain ⟨i, call, c, o, limit, hev, hi, hcall, hm, horgs, hlimits⟩ := posted_debit (hinv before) hrow hdebit
  obtain ⟨hcredit, horg, hlimit⟩ := (hinv before).current _ (mem_of_getElem? hi)
  have horgId : row.orgId = call.org := by rw [hcall]; rfl
  have hamount : row.amountUsdc = call.amount := by rw [hcall]; rfl
  have htime : row.createdAt = call.env.now := by rw [hcall]; rfl
  have hprincipal : row.principalId = call.principal := by rw [hcall]; rfl
  -- the principal's part, for the limit row the session found
  have found : ∀ l, limit = some l → ∃ p, givenPrincipal row.principalId = some p ∧
      (World.run cfg py w (before ++ [ev])).sys.db.principalLimits.get? (row.orgId, p) = some l ∧
      ∀ now, row.createdAt ≤ now →
      dailyPrincipalDebitSpend now (World.run cfg py w (before ++ [ev])).sys.db.ledger.rows row.orgId p ≤
        l.dailyLimitUsdc := by
    intro l hl
    obtain ⟨p, hp, hstored, hroom⟩ := hlimit l hl
    refine ⟨p, hprincipal ▸ hp, by rw [hsnoc, hlimits, horgId]; exact hstored, fun now hnow => ?_⟩
    have hsum := spend_after hm (fun r => r.orgId = row.orgId && r.principalId = some p) hnow
    rw [htime, hamount, horgId] at hsum
    rw [hsnoc, horgId]
    exact hsum.trans hroom
  refine ⟨fun c' o' hrow' hpos now hnow => ?_, fun p l hp hl hset now hnow => ?_, i, call, c, o, limit, hev, hi, found⟩
  · obtain ⟨hc', ho'⟩ := creditRow_some hrow'
    obtain ⟨hc, ho⟩ := creditRow_some hcredit
    rw [hsnoc] at hc' ho'
    rw [horgs, horgId, ho] at ho'
    cases ho'
    obtain ⟨r, hr, hr'⟩ := hm.credit
    rw [hr] at hc'
    cases hc'
    rw [hr' c (by rw [horgId]; exact hc), effectiveLimit_balance] at hpos ⊢
    have hroom := horg hpos
    have hsum := spend_after hm (fun r => r.orgId = row.orgId) hnow
    rw [htime, hamount, horgId] at hsum
    rw [hsnoc, horgId]
    exact hsum.trans hroom
  · cases hlim : limit with
    | some l' =>
      obtain ⟨p', hp', hstored, hcap⟩ := found l' hlim
      rw [hp] at hp'
      cases hp'
      rw [hl] at hstored
      cases hstored
      exact hcap now hnow
    | none =>
      subst hlim
      have habsent := hnone _ (mem_of_getElem? hi) c o rfl p (hprincipal ▸ hp) (horgId ▸ hset)
      rw [hsnoc, hlimits, horgId] at hl
      rw [habsent] at hl
      cases hl

/-- two debits under a limit of 50, their statements interleaved: the second waits for the first, then commits -/
def twoDebits : List Event :=
  [.other (.createOrg ⟨"org", "email"⟩), .other (.openAccount "org" 50),
    .other (.adminTopup (.calm 0 "t") "org" 100 "admin" none),
    .start (.debit (.calm 1 "a") "org" 30 "first" none), .start (.debit (.calm 2 "b") "org" 15 "second" none),
    .advance 0, .advance 1, .advance 0, .advance 1, .advance 0, .advance 1, .advance 0, .advance 0,
    .advance 0, .advance 0, .advance 0]

theorem spend_caps_two_debits :
    let w : World := ⟨⟨Db.empty, []⟩, []⟩
    let py : Interp := ⟨fun _ => .ok .null, fun _ => ""⟩
    let last := World.run .default py w (twoDebits ++ [.advance 0])
    dailyDebitSpend 2 last.sys.db.ledger.rows "org" = 45 ∧ dailyDebitSpend 2 last.sys.db.ledger.rows "org" ≤ 50 :=
  ⟨by decide, (spend_caps .default ⟨fun _ => .ok .null, fun _ => ""⟩ ⟨⟨Db.empty, []⟩, []⟩ rfl twoDebits (.advance 0)
      (debitRow 2 "b" "org" 15 55 "second" none) (by decide) rfl).1 ⟨"org", 55, 50, false⟩ ⟨"org", "email"⟩
      (by decide) (by decide) 2 (le_refl 2)⟩

end Teardrop.Billing
