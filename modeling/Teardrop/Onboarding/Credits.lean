/-
What the transactions of onboarding write of one payment: its rows of the credit ledger (`creditsOf`) and its events.
Every transaction of a call writes rows of the call's own payment (`Writes`).
-/
import Teardrop.Onboarding.Calls

namespace Teardrop.Onboarding

open Teardrop.Py Teardrop.Billing List Tx

/-- the ledger rows of a payment -/
def creditsOf (ref : String) (db : Db) : List LedgerRow := db.ledger.rows.filter (fun r => r.externalRef = some ref)

/-- `rows` and `events` were appended, all of them of payment `ref` -/
structure Writes (ref : String) (rows : List LedgerRow) (events : List ProvisioningRow) (db db' : Db) : Prop where
  ledger : db'.ledger.rows = db.ledger.rows ++ rows
  provisioning : db'.provisioning.rows = db.provisioning.rows ++ events
  ledgerRefs : ∀ r ∈ rows, r.externalRef = some ref
  eventRefs : ∀ r ∈ events, r.paymentRef = ref

theorem Writes.refl (ref : String) (db : Db) : Writes ref [] [] db db :=
  ⟨(append_nil _).symm, (append_nil _).symm, nofun, nofun⟩

variable {rows : List LedgerRow} {events : List ProvisioningRow} {db' : Db}

theorem Writes.creditsOf {ref : String} {db : Db} (h : Writes ref rows events db db') :
    creditsOf ref db' = creditsOf ref db ++ rows := by
  have hall : rows.filter (fun r => r.externalRef = some ref) = rows :=
    filter_eq_self.2 (fun r hr => decide_eq_true (h.ledgerRefs r hr))
  rw [Onboarding.creditsOf, h.ledger, filter_append, hall, Onboarding.creditsOf]

theorem Writes.eventsOf {ref : String} {db : Db} (h : Writes ref rows events db db') :
    eventsOf ref db' = eventsOf ref db ++ events := by
  have hall : events.filter (fun r => r.paymentRef = ref) = events :=
    filter_eq_self.2 (fun r hr => decide_eq_true (h.eventRefs r hr))
  rw [Onboarding.eventsOf, h.provisioning, filter_append, hall, Onboarding.eventsOf]

theorem Writes.apart {ref other : String} {db : Db} (h : Writes ref rows events db db') (hne : ref ≠ other) :
    Onboarding.creditsOf other db' = Onboarding.creditsOf other db ∧
      Onboarding.eventsOf other db' = Onboarding.eventsOf other db := by
  have hrows : rows.filter (fun r => r.externalRef = some other) = [] := by
    refine filter_eq_nil_iff.2 (fun r hr => ?_)
    rw [h.ledgerRefs r hr]
    simpa using hne
  have hevents : events.filter (fun r => r.paymentRef = other) = [] := by
    refine filter_eq_nil_iff.2 (fun r hr => ?_)
    rw [h.eventRefs r hr]
    simpa using hne
  constructor
  · rw [Onboarding.creditsOf, h.ledger, filter_append, hrows, append_nil, Onboarding.creditsOf]
  · rw [Onboarding.eventsOf, h.provisioning, filter_append, hevents, append_nil, Onboarding.eventsOf]

/-! ## Events -/

theorem insertProvisioning_writes {row : ProvisioningRow} {db : Db} {u : Unit}
    (h : insertProvisioning row db = .ok (u, db')) : Writes row.paymentRef [] [row] db db' := by
  obtain ⟨-, h⟩ := require_bind_ok h
  obtain ⟨-, h⟩ := require_bind_ok h
  have h := read_bind_ok h
  cases hins : db.provisioning.insert? row with
  | none => simp only [hins] at h; cases h
  | some provisioning =>
    simp only [hins] at h
    cases h
    refine ⟨(append_nil _).symm, (Table.insert?_eq_some hins).2, nofun, fun r hr => ?_⟩
    rw [mem_singleton.1 hr]

theorem insertEvent_writes {row : ProvisioningRow} {db : Db} {u : Unit} (h : insertEvent row db = .ok (u, db')) :
    Writes row.paymentRef [] [row] db db' := by
  have h := read_bind_ok h
  obtain ⟨-, h⟩ := require_bind_ok h
  exact insertProvisioning_writes h

theorem audit_writes (fault : Bool) (row : ProvisioningRow) (db : Db) :
    ((call fault (insertEvent row) db).1.isOk = false ∧ (call fault (insertEvent row) db).2 = db) ∨
    ((call fault (insertEvent row) db).1.isOk ∧ Writes row.paymentRef [] [row] db (call fault (insertEvent row) db).2) := by
  rcases call_cases fault (insertEvent row) db with ⟨e, hc⟩ | ⟨u, db', ht, hc⟩
  · rw [hc]; exact Or.inl ⟨rfl, rfl⟩
  · rw [hc]; exact Or.inr ⟨rfl, insertEvent_writes ht⟩

theorem openAccount_rows (org : String) (limit : ℤ) (db : Db) :
    (openAccount org limit db).ledger = db.ledger ∧ (openAccount org limit db).provisioning = db.provisioning := by
  unfold openAccount
  split_ifs
  · exact ⟨rfl, rfl⟩
  · split <;> exact ⟨rfl, rfl⟩

theorem createOrg_rows (row : OrgRow) (db : Db) :
    (createOrg row db).ledger = db.ledger ∧ (createOrg row db).provisioning = db.provisioning := by
  unfold createOrg
  split <;> exact ⟨rfl, rfl⟩

/-- provisioning records at most the payment's `provisioned` event -/
theorem provision_writes (fault : Bool) (ref : String) (payer : Payer) (amount : ℤ) (answer : ProvisionAnswer) (db : Db) :
    ∃ events, Writes ref [] events db (call fault (provisionOrgForWallet ref payer amount answer) db).2 ∧
      ∀ r ∈ events, r.eventType = "provisioned" := by
  rcases call_cases fault (provisionOrgForWallet ref payer amount answer) db with ⟨e, hc⟩ | ⟨r, db', ht, hc⟩
  · rw [hc]; exact ⟨[], .refl ref db, nofun⟩
  · rw [hc]
    cases answer with
    | raises => cases ht
    | linked org =>
      cases pure_ok ht
      exact ⟨[], .refl ref db, nofun⟩
    | existing org eventId =>
      have ht := read_bind_ok ht
      split_ifs at ht
      · cases pure_ok ht
        exact ⟨[], .refl ref db, nofun⟩
      · obtain ⟨u, db₁, hins, ht⟩ := bind_ok ht
        cases pure_ok ht
        refine ⟨_, insertEvent_writes hins, fun r hr => ?_⟩
        rw [mem_singleton.1 hr]
        rfl
    | created newOrg org limit eventId =>
      have ht := write_bind_ok ht
      have ht := read_bind_ok ht
      obtain ⟨-, ht⟩ := require_bind_ok ht
      obtain ⟨u, db₁, hins, ht⟩ := bind_ok ht
      cases pure_ok ht
      have hw := insertEvent_writes hins
      obtain ⟨haccount, haccount'⟩ := openAccount_rows org limit (newOrg.elim db (createOrg · db))
      have horg : (newOrg.elim db (createOrg · db)).ledger = db.ledger ∧
          (newOrg.elim db (createOrg · db)).provisioning = db.provisioning := by
        cases newOrg with
        | none => exact ⟨rfl, rfl⟩
        | some row => exact createOrg_rows row db
      refine ⟨_, ⟨?_, ?_, hw.ledgerRefs, hw.eventRefs⟩, fun r hr => ?_⟩
      · rw [hw.ledger, haccount, horg.1]
      · rw [hw.provisioning, haccount', horg.2]
      · rw [mem_singleton.1 hr]
        rfl

/-! ## Credentials -/

theorem activeCredential_org {org : String} {db : Db} {row : CredentialRow} (h : activeCredential org db = some row) :
    row.orgId = org := by
  have hall : ∀ r, activeCredential org db = some r → r.orgId = org := by
    unfold activeCredential
    refine foldlRecOn (motive := fun o : Option CredentialRow => ∀ r, o = some r → r.orgId = org) _ _ (fun r h => by cases h) ?_
    intro oldest ho c hc r hr
    have hkeep := (mem_filter.1 hc).2
    rw [Bool.and_eq_true, decide_eq_true_eq] at hkeep
    cases oldest with
    | none => cases hr; exact hkeep.1
    | some o =>
      simp only at hr
      split_ifs at hr <;> cases hr
      · exact hkeep.1
      · exact ho _ rfl
  exact hall row h

/-- a credential of the org, and nothing else that a payment writes; it needs a free id unless there is one -/
theorem credentialFor_spec {clientId org : String} {secret : FreshSecret} {db : Db} {a : CredentialRow × Option String}
    (h : credentialFor clientId org secret db = .ok (a, db')) :
    a.1.orgId = org ∧ db' = { db with credentials := db'.credentials } ∧
      ((activeCredential org db).isSome ∨ db.credentials.get? clientId = none) := by
  have hframe := credentialFor_ok h
  have h := read_bind_ok h
  cases hact : activeCredential org db with
  | some row =>
    simp only [hact] at h
    cases pure_ok h
    exact ⟨activeCredential_org hact, hframe, Or.inl rfl⟩
  | none =>
    simp only [hact] at h
    obtain ⟨⟨row, plaintext⟩, db₁, hcreate, h⟩ := bind_ok h
    cases pure_ok h
    have hcreate := read_bind_ok hcreate
    cases hins : db.credentials.insert? ⟨clientId, org, secret.hashed, secret.salt, secret.createdAt, "publish", none⟩ with
    | none => simp only [hins] at hcreate; cases hcreate
    | some credentials =>
      simp only [hins] at hcreate
      have hcreate := read_bind_ok hcreate
      obtain ⟨-, hcreate⟩ := require_bind_ok hcreate
      cases pure_ok hcreate
      exact ⟨rfl, hframe, Or.inr (Table.insert?_eq_some hins).1⟩

theorem credentialFor_goes {clientId org : String} (secret : FreshSecret) {db : Db}
    (hid : (activeCredential org db).isSome ∨ db.credentials.get? clientId = none)
    (horg : (db.orgs.get? org).isSome) : ∃ r, credentialFor clientId org secret db = .ok r := by
  unfold credentialFor
  rw [bind_run, read_run]
  cases hact : activeCredential org db with
  | some row => exact ⟨_, rfl⟩
  | none =>
    rw [hact] at hid
    have hfree := hid.resolve_left (by simp)
    obtain ⟨t, ht⟩ := Table.insert?_of_free (t := db.credentials)
      (r := ⟨clientId, org, secret.hashed, secret.salt, secret.createdAt, "publish", none⟩) hfree
    simp only [createClientCredential, bind_run, read_run, ht, require_run, horg, if_true, write, pure_run]
    exact ⟨_, rfl⟩

/-! ## The credit -/

/-- what the database asks of a credit of an uncredited payment -/
structure Commits (e : Env) (org : String) (amount chain : ℤ) (db : Db) : Prop where
  answers : e.fault 0 = false
  known : (db.orgs.get? org).isSome = true
  credential : (activeCredential org db).isSome = true ∨ db.credentials.get? (e.uuid 0) = none
  amountFits : isBigint amount
  balanceFits : 0 ≤ balance db org + amount ∧ isBigint (balance db org + amount)
  ledgerId : e.uuid 1 ∉ db.ledger.rows.map LedgerRow.id
  chainFits : -2147483648 ≤ chain ∧ chain ≤ 2147483647
  eventId : db.provisioning.get? (e.uuid 2) = none

theorem unused_of_creditsOf {ref : String} {db : Db} (h : creditsOf ref db = []) :
    Unused (some ref) (db.ledger.rows.filterMap LedgerRow.externalRef) := by
  intro y hy hmem
  cases hy
  obtain ⟨r, hr, href⟩ := mem_filterMap.1 hmem
  have := filter_eq_nil_iff.1 h r hr
  exact this (decide_eq_true href)

theorem find?_creditsOf {ref : String} {db : Db} :
    db.ledger.rows.find? (fun r => r.externalRef = some ref) = (creditsOf ref db).head? :=
  head?_filter.symm

section Record

variable {e : Env} {secret : FreshSecret} {org : String} {amount : ℤ} {ref payerAddress : String} {chain : ℤ}
  {tx : String} {db : Db}

/-- the ledger row of a payment -/
structure IsCredit (org : String) (amount : ℤ) (row : LedgerRow) : Prop where
  org : row.orgId = org
  amount : row.amountUsdc = amount
  operation : row.operation = .topup

theorem topup_writes {now : ℤ} {ledgerId reason : String} {db : Db} {b : ℤ}
    (h : topup now ledgerId org amount reason (some ref) db = .ok (b, db')) :
    ∃ row, IsCredit org amount row ∧ Writes ref [row] [] db db' := by
  have hp := (topup_ok h).2
  have hrest : db' = { db with credits := db'.credits, ledger := db'.ledger } := hp.rest
  refine ⟨_, ⟨rfl, rfl, rfl⟩, hp.rows, ?_, fun r hr => ?_, nofun⟩
  · rw [append_nil, hrest]
  · rw [mem_singleton.1 hr]
    rfl

/-- **What a credit does.** It raises and writes nothing, finds the payment credited to the same org with the same amount,
or credits it. -/
theorem recorded_ok {c : CredentialRow} {s : Option String}
    (h : recordOnboardingSettlement e secret org amount ref payerAddress chain tx db = (.ok (c, s), db')) :
    c.orgId = org ∧ ((∃ row rest, creditsOf ref db = row :: rest ∧ Writes ref [] [] db db') ∨
      (creditsOf ref db = [] ∧ ∃ row events, IsCredit org amount row ∧ Writes ref [row] events db db')) := by
  unfold recordOnboardingSettlement at h
  split_ifs at h
  · cases h
  · cases h
  rcases call_cases (e.fault 0) (onboardingTx e.now e.uuid secret org amount ref payerAddress chain tx) db with
    ⟨x, hc⟩ | ⟨a, db₁, ht, hc⟩
  · rw [hc] at h
    cases h
  · rw [hc] at h
    cases h
    have ht := read_bind_ok ht
    rw [find?_creditsOf] at ht
    cases hrows : creditsOf ref db with
    | cons row rest =>
      simp only [hrows, head?_cons] at ht
      split_ifs at ht
      · cases ht
      · obtain ⟨horg, hframe, -⟩ := credentialFor_spec ht
        refine ⟨horg, Or.inl ⟨row, rest, rfl, ?_⟩⟩
        rw [hframe]
        exact ⟨(append_nil _).symm, (append_nil _).symm, nofun, nofun⟩
    | nil =>
      simp only [hrows, head?_nil] at ht
      obtain ⟨cred, db₂, hcred, ht⟩ := bind_ok ht
      obtain ⟨b, db₃, htop, ht⟩ := bind_ok ht
      obtain ⟨u, db₄, hprov, ht⟩ := bind_ok ht
      cases pure_ok ht
      obtain ⟨horg, hframe, -⟩ := credentialFor_spec hcred
      obtain ⟨row, hrow, htw⟩ := topup_writes htop
      have hpw := insertProvisioning_writes hprov
      have hledger : db₂.ledger = db.ledger := by rw [hframe]
      have hevents : db₂.provisioning = db.provisioning := by rw [hframe]
      refine ⟨horg, Or.inr ⟨rfl, row, _, hrow, ?_, ?_, htw.ledgerRefs, hpw.eventRefs⟩⟩
      · rw [hpw.ledger, htw.ledger, hledger, append_nil]
      · rw [hpw.provisioning, htw.provisioning, hevents, append_nil]

/-- the credit of an uncredited payment goes through exactly when the database accepts its rows -/
theorem commits_iff (hfresh : creditsOf ref db = []) (hpos : 0 < amount) (href : ref ≠ "") (htx : tx ≠ "") :
    (recordOnboardingSettlement e secret org amount ref payerAddress chain tx db).1.isOk ↔
      Commits e org amount chain db := by
  unfold recordOnboardingSettlement
  rw [if_neg (not_le.2 hpos), if_neg (not_or.2 ⟨href, htx⟩)]
  constructor
  · intro h
    rcases call_cases (e.fault 0) (onboardingTx e.now e.uuid secret org amount ref payerAddress chain tx) db with
      ⟨x, hc⟩ | ⟨a, db', ht, hc⟩
    · rw [hc] at h
      cases h
    · have hanswers : e.fault 0 = false := by
        by_contra hfault
        rw [Bool.not_eq_false] at hfault
        rw [call, if_pos hfault] at hc
        cases hc
      have ht := read_bind_ok ht
      rw [find?_creditsOf, hfresh] at ht
      obtain ⟨cred, db₂, hcred, ht⟩ := bind_ok ht
      obtain ⟨b, db₃, htop, ht⟩ := bind_ok ht
      obtain ⟨u, db₄, hprov, ht⟩ := bind_ok ht
      obtain ⟨-, hframe, hid⟩ := credentialFor_spec hcred
      have hp : Posted db₂ db₃ _ := (topup_ok htop).2
      have hfits := topup_fits htop
      obtain ⟨hchain, hprov⟩ := require_bind_ok hprov
      obtain ⟨-, hprov⟩ := require_bind_ok hprov
      have hprov := read_bind_ok hprov
      have horgs : db₂.orgs = db.orgs := by rw [hframe]
      have hbal : balance db₂ org = balance db org := by rw [hframe]; rfl
      have hprovisioning : db₃.provisioning = db.provisioning := by rw [hp.rest, hframe]
      have hledger : db₂.ledger = db.ledger := by rw [hframe]
      refine ⟨hanswers, ?_, hid, hfits.amountFits, ?_, ?_, hchain, ?_⟩
      · rw [← horgs]; exact hfits.known
      · rw [← hbal]; exact hfits.balanceFits
      · rw [← hledger]; exact hfits.freshId
      · cases hrow : db₃.provisioning.insert? ⟨e.uuid 2, org, "x402", payerAddress, chain, tx, ref, amount, "settlement",
            "settled"⟩ with
        | none => simp only [hrow] at hprov; cases hprov
        | some provisioning =>
          rw [← hprovisioning]
          exact (Table.insert?_eq_some hrow).1
  · intro h
    have hgoes : ∃ r, onboardingTx e.now e.uuid secret org amount ref payerAddress chain tx db = .ok r := by
      obtain ⟨⟨cred, db₂⟩, hcred⟩ := credentialFor_goes secret h.credential h.known
      obtain ⟨-, hframe, -⟩ := credentialFor_spec hcred
      have horgs : db₂.orgs = db.orgs := by rw [hframe]
      have hledger : db₂.ledger = db.ledger := by rw [hframe]
      have hbal : balance db₂ org = balance db org := by rw [hframe]; rfl
      have hfits : TopupFits (e.uuid 1) org amount (some ref) db₂ :=
        ⟨by rw [horgs]; exact h.known, hpos, h.amountFits, by rw [hbal]; exact h.balanceFits,
          by rw [hledger]; exact h.ledgerId, by rw [hledger]; exact unused_of_creditsOf hfresh⟩
      obtain ⟨⟨b, db₃⟩, htop⟩ := topup_goes e.now "x402_onboarding" hfits
      have hprovisioning : db₃.provisioning = db.provisioning := by
        have hrest : db₃ = { db₂ with credits := db₃.credits, ledger := db₃.ledger } := (topup_ok htop).2.rest
        rw [hrest, hframe]
      obtain ⟨t, ht⟩ := Table.insert?_of_free (t := db₃.provisioning)
        (r := ⟨e.uuid 2, org, "x402", payerAddress, chain, tx, ref, amount, "settlement", "settled"⟩)
        (by rw [hprovisioning]; exact h.eventId)
      simp only [onboardingTx, bind_run, read_run, find?_creditsOf, hfresh, head?_nil, hcred, htop,
        insertProvisioning, require_run, h.chainFits, and_self, if_true, hpos.le, ht, write, pure_run]
      exact ⟨_, rfl⟩
    obtain ⟨r, hr⟩ := hgoes
    rw [call, if_neg (by rw [h.answers]; exact Bool.false_ne_true), commit, hr]
    rfl

end Record

end Teardrop.Onboarding
