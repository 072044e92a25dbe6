/-
The idempotency keys of external top-ups: a Stripe event id, the transaction of a settled USDC payment, an external
reference (of an admin top-up or an onboarding payment), and the org of an onboarding grant.

`used` reads all of them, and `KeyedCall` is what a call under a key does, whichever scheme it is: it raises, it finds the key
used, or it posts one top-up of its own org and amount and uses the key up.
-/
import Teardrop.Billing.Topups

namespace Teardrop.Billing

open Teardrop.Py

/-! ## Keys -/

inductive TopupKey where
  /-- a Stripe event id -/
  | event (id : String)
  /-- the transaction text of a settled USDC payment -/
  | payment (txHash : String)
  /-- an external reference of an admin top-up or an onboarding payment -/
  | reference (externalRef : String)
  /-- the onboarding grant of an org -/
  | grant (org : String)
deriving DecidableEq

/-- a key some committed top-up already carries -/
def used (db : Db) : TopupKey → Bool
  | .event id => (db.stripeEvents.get? id).isSome
  | .payment txHash => (db.usdcTopups.get? txHash).isSome
  | .reference externalRef => (db.ledger.rows.find? (fun r => r.externalRef = some externalRef)).isSome
  | .grant org => (db.grants.get? org).isSome

/-- the balance of `org` rose by `amount`, one ledger row says so, and no other balance changed -/
def TopsUp (db db' : Db) (org : String) (amount : ℤ) : Prop :=
  ∃ row, Moved db db' row ∧ row.operation = .topup ∧ row.orgId = org ∧ row.amountUsdc = amount

/-- no balance, no ledger row and no key changed -/
structure Quiet (db db' : Db) : Prop where
  unmoved : Unmoved db db'
  keys : used db' = used db

theorem Quiet.refl (db : Db) : Quiet db db := ⟨Unmoved.refl db, rfl⟩

/-- what a call under a key does; `answered` says whether it returned -/
inductive KeyedCall (key : TopupKey) (org : String) (amount : ℤ) (answered : Bool) (db db' : Db) : Prop where
  | failed (ha : answered = false) (hq : Quiet db db')
  | repeated (hk : used db key = true) (hq : Quiet db db')
  | credited (hk : used db key = false) (ha : answered = true) (ht : TopsUp db db' org amount)
      (hnow : ∀ k, used db' k = if k = key then true else used db k)

/-! ## What a posting does to the keys -/

variable {org : String} {amount now : ℤ} {ledgerId : String} (e : Env)

theorem TopsUp.rows {db db' : Db} (h : TopsUp db db' org amount) :
    ∃ row, db'.ledger.rows = db.ledger.rows ++ [row] ∧ row.operation = .topup ∧ row.orgId = org ∧
      row.amountUsdc = amount := by
  obtain ⟨row, hm, hop, horg, hamount⟩ := h
  exact ⟨row, hm.rows, hop, horg, hamount⟩

theorem TopsUp.not_unmoved {db db' : Db} (h : TopsUp db db' org amount) : ¬ Unmoved db db' := by
  intro hu
  obtain ⟨row, hrows, -⟩ := h.rows
  rw [hu.ledger] at hrows
  simp at hrows

theorem used_reference_snoc {db db' : Db} {row : LedgerRow} (h : db'.ledger.rows = db.ledger.rows ++ [row]) (ref : String) :
    used db' (.reference ref) = (used db (.reference ref) || decide (row.externalRef = some ref)) := by
  simp only [used]
  rw [h, List.find?_append, Option.isSome_or, List.find?_singleton]
  by_cases href : row.externalRef = some ref <;> simp [href]

theorem isSome_get?_insert {R : Type} {key : R → String} {t t' : Table key} {r : R} (h : t.insert? r = some t')
    (k : String) : (t'.get? k).isSome = if k = key r then true else (t.get? k).isSome := by
  rw [Table.get?_insert h]
  by_cases hk : key r = k
  · rw [if_pos hk, if_pos hk.symm, Option.isSome_some]
  · rw [if_neg hk, if_neg (Ne.symm hk)]

section Tables

variable {db db' : Db} {row : LedgerRow}

theorem used_of_plain (h : db'.ledger.rows = db.ledger.rows ++ [row]) (hrow : row.externalRef = none) (ref : String) :
    used db' (.reference ref) = used db (.reference ref) := by
  rw [used_reference_snoc h, hrow]
  simp

theorem used_event (h : db'.ledger.rows = db.ledger.rows ++ [row]) (hrow : row.externalRef = none) {r : TopupGuardRow}
    (hins : db.stripeEvents.insert? r = some db'.stripeEvents) (hu : db'.usdcTopups = db.usdcTopups)
    (hg : db'.grants = db.grants) (k : TopupKey) :
    used db' k = if k = .event r.key then true else used db k := by
  cases k with
  | event id => simp only [used, isSome_get?_insert hins, TopupKey.event.injEq]
  | payment txHash => simp [used, hu]
  | reference ref => simp [used_of_plain h hrow]
  | grant org => simp [used, hg]

theorem used_payment (h : db'.ledger.rows = db.ledger.rows ++ [row]) (hrow : row.externalRef = none) {r : TopupGuardRow}
    (hins : db.usdcTopups.insert? r = some db'.usdcTopups) (hs : db'.stripeEvents = db.stripeEvents)
    (hg : db'.grants = db.grants) (k : TopupKey) :
    used db' k = if k = .payment r.key then true else used db k := by
  cases k with
  | event id => simp [used, hs]
  | payment txHash => simp only [used, isSome_get?_insert hins, TopupKey.payment.injEq]
  | reference ref => simp [used_of_plain h hrow]
  | grant org => simp [used, hg]

theorem used_grant (h : db'.ledger.rows = db.ledger.rows ++ [row]) (hrow : row.externalRef = none) {r : GrantRow}
    (hins : db.grants.insert? r = some db'.grants) (hs : db'.stripeEvents = db.stripeEvents)
    (hu : db'.usdcTopups = db.usdcTopups) (k : TopupKey) :
    used db' k = if k = .grant r.orgId then true else used db k := by
  cases k with
  | event id => simp [used, hs]
  | payment txHash => simp [used, hu]
  | reference ref => simp [used_of_plain h hrow]
  | grant org => simp only [used, isSome_get?_insert hins, TopupKey.grant.injEq]

theorem used_reference (h : db'.ledger.rows = db.ledger.rows ++ [row]) {ref : String} (hrow : row.externalRef = some ref)
    (hs : db'.stripeEvents = db.stripeEvents) (hu : db'.usdcTopups = db.usdcTopups) (hg : db'.grants = db.grants)
    (k : TopupKey) : used db' k = if k = .reference ref then true else used db k := by
  cases k with
  | event id => simp [used, hs]
  | payment txHash => simp [used, hu]
  | reference ref' =>
    rw [used_reference_snoc h, hrow]
    by_cases href : ref' = ref
    · simp [href]
    · simp [href, Ne.symm href]
  | grant org => simp [used, hg]

theorem Quiet.of_eq (hl : db'.ledger = db.ledger) (hc : db'.credits = db.credits)
    (hs : db'.stripeEvents = db.stripeEvents) (hu : db'.usdcTopups = db.usdcTopups) (hg : db'.grants = db.grants) :
    Quiet db db' := by
  refine ⟨Unmoved.of_eq hl hc, funext fun k => ?_⟩
  cases k with
  | event id => simp only [used, hs]
  | payment txHash => simp only [used, hu]
  | reference ref => simp only [used, hl]
  | grant org => simp only [used, hg]

end Tables

/-- a database call that fails is a failed delivery; one that commits is what its body did -/
theorem call_delivery {α : Type} {key : TopupKey} (fault : Bool) {t : Tx Db α} {db : Db}
    (h : ∀ a db', t db = .ok (a, db') → KeyedCall key org amount true db db') :
    KeyedCall key org amount (call fault t db).1.isOk db (call fault t db).2 := by
  rcases call_cases fault t db with ⟨x, hc⟩ | ⟨a, db', ht, hc⟩
  · rw [hc]; exact .failed rfl (Quiet.refl db)
  · rw [hc]; exact h a db' ht

variable {reason : String} {guards : Table TopupGuardRow.key} {ref : String}

/-- the balance and the ledger row of a top-up, seen from a store that differs in other tables -/
theorem topup_moved {externalRef : Option String} (db : Db) {db₀ db' : Db} {b : ℤ}
    (h : topup now ledgerId org amount reason externalRef db₀ = .ok (b, db')) (hl : db.ledger = db₀.ledger)
    (hc : db.credits = db₀.credits) :
    ∃ row, Moved db db' row ∧ (row.operation = .topup ∧ row.orgId = org ∧ row.amountUsdc = amount) ∧
      row.externalRef = externalRef ∧ db' = { db₀ with credits := db'.credits, ledger := db'.ledger } :=
  have hp := (topup_ok h).2
  ⟨_, hp.toMoved.congr hl hc rfl rfl, ⟨rfl, rfl, rfl⟩, rfl, hp.rest⟩

/-! ## The schemes -/

theorem guardInsert_ok {known : Bool} {row : TopupGuardRow} {r : Option (Table TopupGuardRow.key)}
    (h : guardInsert guards known row = .ok r) : guards.insert? row = r := by
  unfold guardInsert at h
  split at h
  · cases h
  split at h
  · cases h
  cases hins : guards.insert? row with
  | none =>
    simp only [hins] at h
    cases h
    rfl
  | some guards' =>
    simp only [hins] at h
    split_ifs at h
    cases h
    rfl

theorem stripeTx_delivery {eventId : String} {db db' : Db} {a : Bool}
    (h : stripeTx now ledgerId eventId org amount db = .ok (a, db')) :
    KeyedCall (.event eventId) org amount true db db' := by
  rcases stripeTx_ok h with ⟨hguard, -, rfl⟩ | ⟨guards, b, hguard, -, htop⟩
  · exact .repeated (Table.isSome_of_insert?_none (guardInsert_ok hguard)) (Quiet.refl db')
  · obtain ⟨row, hm, hrow, href, hrest⟩ := topup_moved db htop rfl rfl
    have hins : db.stripeEvents.insert? ⟨eventId, org, amount⟩ = some db'.stripeEvents := by
      rw [hrest]
      exact guardInsert_ok hguard
    refine .credited ?_ rfl ⟨row, hm, hrow⟩ (used_event hm.rows href hins (by rw [hrest]) (by rw [hrest]))
    rw [used, (Table.insert?_eq_some hins).1]
    rfl

theorem usdcTx_delivery {txHash : String} {db db' : Db} {a : Option ℤ}
    (h : usdcTx now ledgerId org amount txHash db = .ok (a, db')) : KeyedCall (.payment txHash) org amount true db db' := by
  rcases usdcTx_ok h with ⟨hguard, -, rfl⟩ | ⟨guards, b, hguard, -, htop⟩
  · exact .repeated (Table.isSome_of_insert?_none (guardInsert_ok hguard)) (Quiet.refl db')
  · obtain ⟨row, hm, hrow, href, hrest⟩ := topup_moved db htop rfl rfl
    have hins : db.usdcTopups.insert? ⟨txHash, org, amount⟩ = some db'.usdcTopups := by
      rw [hrest]
      exact guardInsert_ok hguard
    refine .credited ?_ rfl ⟨row, hm, hrow⟩ (used_payment hm.rows href hins (by rw [hrest]) (by rw [hrest]))
    rw [used, (Table.insert?_eq_some hins).1]
    rfl

theorem grantTx_delivery {db db' : Db} {a : ℤ} (h : grantTx now ledgerId org amount db = .ok (a, db')) :
    KeyedCall (.grant org) org amount true db db' := by
  rcases grantTx_ok h with ⟨hins, -, rfl⟩ | ⟨grants, b, hins, -, htop⟩
  · exact .repeated (Table.isSome_of_insert?_none hins) (Quiet.refl db')
  · obtain ⟨row, hm, hrow, href, hrest⟩ := topup_moved db htop rfl rfl
    have hins : db.grants.insert? ⟨org, amount, ledgerId⟩ = some db'.grants := by rw [hins, hrest]
    refine .credited ?_ rfl ⟨row, hm, hrow⟩ (used_grant hm.rows href hins (by rw [hrest]) (by rw [hrest]))
    rw [used, (Table.insert?_eq_some hins).1]
    rfl

/-- the webhook of an event that is no paid checkout of an org does nothing -/
def StripeEvent.pays (ev : StripeEvent) : Option (String × ℤ) :=
  if ev.type = "checkout.session.completed" ∧ ev.paymentStatus = "paid" ∧ 0 < ev.amountUsdc then
    ev.orgId.map (fun org => (org, ev.amountUsdc))
  else none

theorem handleStripeWebhook_ignored {e : Env} {ev : StripeEvent} {db : Db} (h : ev.pays = none) :
    (handleStripeWebhook e ev db).2 = db := by
  unfold StripeEvent.pays at h
  unfold handleStripeWebhook
  by_cases htype : ev.type = "checkout.session.completed"
  · by_cases hpaid : ev.paymentStatus = "paid"
    · rw [if_neg (not_not.2 htype), if_neg (not_not.2 hpaid)]
      cases horg : ev.orgId with
      | none => rfl
      | some org =>
        have hneg : ev.amountUsdc ≤ 0 := by
          by_contra hpos
          rw [if_pos ⟨htype, hpaid, not_le.1 hpos⟩, horg] at h
          cases h
        simp [if_pos hneg]
    · rw [if_neg (not_not.2 htype), if_pos hpaid]
  · rw [if_pos htype]

/-- **Stripe.** -/
theorem handleStripeWebhook_delivery {ev : StripeEvent} (db : Db) (h : ev.pays = some (org, amount)) :
    KeyedCall (.event ev.id) org amount (handleStripeWebhook e ev db).1.isOk db (handleStripeWebhook e ev db).2 := by
  unfold StripeEvent.pays at h
  split_ifs at h with hpays
  obtain ⟨htype, hpaid, hpos⟩ := hpays
  obtain ⟨org', horg, heq⟩ := Option.map_eq_some_iff.1 h
  cases heq
  unfold handleStripeWebhook
  rw [if_neg (not_not.2 htype), if_neg (not_not.2 hpaid), horg]
  simp only [if_neg (not_le.2 hpos)]
  split_ifs
  · exact .failed rfl (Quiet.refl db)
  · exact .failed rfl (Quiet.refl db)
  · have hd : KeyedCall (.event ev.id) org ev.amountUsdc
        (call (e.fault 1) (stripeTx e.now (e.uuid 0) ev.id org ev.amountUsdc) db).1.isOk db
        (call (e.fault 1) (stripeTx e.now (e.uuid 0) ev.id org ev.amountUsdc) db).2 :=
      call_delivery (e.fault 1) (fun a db' ht => stripeTx_delivery ht)
    rcases call_cases (e.fault 1) (stripeTx e.now (e.uuid 0) ev.id org ev.amountUsdc) db with
      ⟨x, hc⟩ | ⟨a, db', ht, hc⟩
    · rw [hc] at hd ⊢; exact hd
    · rw [hc] at hd ⊢; exact hd

/-- **USDC.** -/
theorem creditUsdcTopup_delivery (org : String) (amount : ℤ) (txHash : String) (db : Db) :
    KeyedCall (.payment txHash) org amount (creditUsdcTopup e org amount txHash db).1.isOk db
      (creditUsdcTopup e org amount txHash db).2 :=
  call_delivery (e.fault 0) (fun _ _ h => usdcTx_delivery h)

/-- **Grants.** -/
theorem grantOnboardingCredit_delivery (org : String) (amount : ℤ) (db : Db) :
    KeyedCall (.grant org) org amount (grantOnboardingCredit e org amount db).1.isOk db
      (grantOnboardingCredit e org amount db).2 := by
  unfold grantOnboardingCredit
  split_ifs
  · exact .failed rfl (Quiet.refl db)
  · exact call_delivery (e.fault 0) (fun _ _ h => grantTx_delivery h)

theorem topup_reference_free {db : Db} {r : ℤ × Db} (h : topup now ledgerId org amount reason (some ref) db = .ok r) :
    used db (.reference ref) = false := by
  have hfree := (topup_fits h).freshRef ref rfl
  rw [used, Option.isSome_eq_false_iff, Option.isNone_iff_eq_none, List.find?_eq_none]
  intro r hr href
  exact hfree (List.mem_filterMap.2 ⟨r, hr, of_decide_eq_true href⟩)

theorem topup_delivery {db db' : Db} {b : ℤ} (h : topup now ledgerId org amount reason (some ref) db = .ok (b, db')) :
    KeyedCall (.reference ref) org amount true db db' := by
  obtain ⟨row, hm, hrow, href, hrest⟩ := topup_moved db h rfl rfl
  exact .credited (topup_reference_free h) rfl ⟨row, hm, hrow⟩
    (used_reference hm.rows href (by rw [hrest]) (by rw [hrest]) (by rw [hrest]))

theorem topupReplay_used {e : Env} {db : Db} (h : (topupReplay e org amount (some ref) db).isOk = true) :
    used db (.reference ref) = true := by
  simp only [topupReplay] at h
  split at h
  · cases h
  · rw [used]
    cases hfind : db.ledger.rows.find? (fun r => r.externalRef = some ref) with
    | none => rw [hfind] at h; cases h
    | some r => rfl

/-- **Admin top-ups.** -/
theorem adminTopupCredit_delivery (org : String) (amount : ℤ) (reason ref : String) (db : Db) :
    KeyedCall (.reference ref) org amount (adminTopupCredit e org amount reason (some ref) db).1.isOk db
      (adminTopupCredit e org amount reason (some ref) db).2 := by
  rcases call_cases (e.fault 0) (topup e.now (e.uuid 0) org amount reason (some ref)) db with
    ⟨x, hc⟩ | ⟨b, db', ht, hc⟩
  · by_cases hdup : x = .pg .uniqueViolation
    · subst hdup
      unfold adminTopupCredit
      rw [hc]
      cases hanswer : (topupReplay e org amount (some ref) db).isOk with
      | false => exact .failed rfl (Quiet.refl db)
      | true => exact .repeated (topupReplay_used hanswer) (Quiet.refl db)
    · unfold adminTopupCredit
      rw [hc]
      split
      · next heq => cases heq; exact absurd rfl hdup
      · exact .failed rfl (Quiet.refl db)
  · unfold adminTopupCredit
    rw [hc]
    exact topup_delivery ht

/-- **Onboarding payments.** -/
theorem recordOnboardingSettlement_delivery (secret : FreshSecret) (org : String) (amount : ℤ) (ref payerAddress : String)
    (chainId : ℤ) (settlementTx : String) (db : Db) :
    KeyedCall (.reference ref) org amount
      (recordOnboardingSettlement e secret org amount ref payerAddress chainId settlementTx db).1.isOk db
      (recordOnboardingSettlement e secret org amount ref payerAddress chainId settlementTx db).2 := by
  unfold recordOnboardingSettlement
  split_ifs
  · exact .failed rfl (Quiet.refl db)
  · exact .failed rfl (Quiet.refl db)
  refine call_delivery (e.fault 0) (fun a db' h => ?_)
  rcases onboardingTx_ok h with ⟨hfound, hcred⟩ | ⟨credentials, b, db₁, hfind, htop, hprov⟩
  · refine .repeated hfound (Quiet.of_eq ?_ ?_ ?_ ?_ ?_) <;> rw [hcred]
  · obtain ⟨row, hm, hrow, href, hrest⟩ := topup_moved db htop rfl rfl
    have hm : Moved db db' row := hm.congr rfl rfl (by rw [hprov]) (by rw [hprov])
    refine .credited (by rw [used, hfind]; rfl) rfl ⟨row, hm, hrow⟩ (used_reference hm.rows href ?_ ?_ ?_) <;>
      rw [hprov, hrest]

/-! ## When a settled USDC payment is credited -/

/-- the database answers and takes the rows of the credit -/
def Accepted (e : Env) (org : String) (amount : ℤ) (db : Db) : Prop :=
  e.fault 0 = false ∧ TopupFits (e.uuid 0) org amount none db

theorem guardInsert_goes {guards' : Table TopupGuardRow.key} {known : Bool} {row : TopupGuardRow}
    (hfits : isBigint row.amountUsdc) (hpos : 0 < row.amountUsdc) (hknown : known = true)
    (hins : guards.insert? row = some guards') : guardInsert guards known row = .ok (some guards') := by
  unfold guardInsert
  rw [if_neg (not_not.2 hfits), if_neg (not_le.2 hpos), hins]
  simp [hknown]

/-- **A settled payment is credited** exactly when no top-up carries its transaction text yet and the database accepts
the rows. -/
theorem creditUsdcTopup_topsUp_iff (org : String) (amount : ℤ) (txHash : String) (db : Db) :
    TopsUp db (creditUsdcTopup e org amount txHash db).2 org amount ↔
      used db (.payment txHash) = false ∧ Accepted e org amount db := by
  constructor
  · intro h
    rcases creditUsdcTopup_delivery e org amount txHash db with ⟨-, hq⟩ | ⟨-, hq⟩ | ⟨hk, hok, -, -⟩
    · exact absurd hq.unmoved h.not_unmoved
    · exact absurd hq.unmoved h.not_unmoved
    refine ⟨hk, ?_⟩
    unfold creditUsdcTopup call at hok
    split_ifs at hok with hfault
    · cases hok
    refine ⟨Bool.eq_false_iff.2 hfault, ?_⟩
    obtain ⟨a, db', ht, -⟩ | ⟨x, -, hc⟩ := Tx.commit_cases (usdcTx e.now (e.uuid 0) org amount txHash) db
    swap
    · rw [hc] at hok
      cases hok
    have ht := Tx.read_bind_ok ht
    obtain ⟨guards, hguard, ht⟩ := Tx.lift_bind_ok ht
    cases guards with
    | none =>
      have hused : used db (.payment txHash) = true := Table.isSome_of_insert?_none (guardInsert_ok hguard)
      rw [hk] at hused
      cases hused
    | some guards =>
      have ht := Tx.write_bind_ok ht
      obtain ⟨b, db₂, htop, -⟩ := Tx.bind_ok ht
      have hf := topup_fits htop
      exact ⟨hf.known, hf.positive, hf.amountFits, hf.balanceFits, hf.freshId, hf.freshRef⟩
  · rintro ⟨hfree, hanswers, hf⟩
    rcases creditUsdcTopup_delivery e org amount txHash db with ⟨hok, -⟩ | ⟨hk, -⟩ | ⟨-, -, ht, -⟩
    · have hgoes : ∃ r, usdcTx e.now (e.uuid 0) org amount txHash db = .ok r := by
        rw [used, Option.isSome_eq_false_iff, Option.isNone_iff_eq_none] at hfree
        obtain ⟨guards, hins⟩ := Table.insert?_of_free (t := db.usdcTopups) (r := ⟨txHash, org, amount⟩) hfree
        have hguard := guardInsert_goes hf.amountFits hf.positive hf.known hins
        have hf' : TopupFits (e.uuid 0) org amount none { db with usdcTopups := guards } :=
          ⟨hf.known, hf.positive, hf.amountFits, hf.balanceFits, hf.freshId, hf.freshRef⟩
        obtain ⟨r, htop⟩ := topup_goes e.now ("usdc_onchain:" ++ txHash) hf'
        simp only [usdcTx, Tx.bind_run, Tx.read_run, id, Tx.lift, hguard, Tx.write, htop, Tx.pure_run]
        exact ⟨_, rfl⟩
      obtain ⟨r, hr⟩ := hgoes
      rw [creditUsdcTopup, call, if_neg (by rw [hanswers]; exact Bool.false_ne_true), Tx.commit, hr] at hok
      cases hok
    · rw [hfree] at hk
      cases hk
    · exact ht

end Teardrop.Billing
