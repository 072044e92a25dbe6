/-
External top-ups as they arrive: Stripe webhooks, settled USDC payments, admin top-ups under an external reference,
onboarding payments, and the grant of a verified email, immediate (`verify_email`) or from the outbox
(`process_onboarding_credit_outbox`). Every database call is one step, and any of them may fail. A grant is two calls of one
worker, so the workers are part of the state. A settled USDC payment reaches the database under the text the facilitator
returned as its transaction, and under the empty text when it returned none.
-/
import Teardrop.Core.Runs
import Teardrop.Billing.TopupKeys

namespace Teardrop.Billing

open Teardrop.Py

/-! ## Model -/

/-- `org_onboarding_credit_outbox`: the columns the retry reads -/
structure GrantRequest where
  orgId : String
  amountUsdc : ℤ

/-- a task that grants rows one by one: the request of a verified email, or one pass over the outbox -/
structure Grantor where
  todo : List GrantRequest
  /-- the org granted last, while its outbox row is still to be removed -/
  granted : Option String

structure Desk where
  db : Db
  queue : Table GrantRequest.orgId
  grantors : List Grantor

def Desk.start (db : Db) (queue : Table GrantRequest.orgId) : Desk := ⟨db, queue, []⟩

inductive Arrival where
  | stripe (e : Env) (event : StripeEvent)
  /-- a USDC payment the facilitator settled, with the transaction it returned -/
  | usdc (e : Env) (org : String) (amount : ℤ) (transaction : Option String)
  | admin (e : Env) (org : String) (amount : ℤ) (reason externalRef : String)
  | onboarding (e : Env) (secret : FreshSecret) (org : String) (amount : ℤ) (externalRef payerAddress : String)
      (chainId : ℤ) (settlementTx : String)
  /-- the transaction of a valid verification token -/
  | verifyEmail (org : String) (amount : ℤ) (fault : Bool)
  /-- a retry pass reads its rows -/
  | fetchOutbox (limit : ℕ) (fault : Bool)
  /-- grantor `i` makes its next database call -/
  | resume (i : ℕ) (e : Env)

/-- the part of `billing_topup_usdc` after the settlement: `tx_hash = settle_result.transaction or ""` -/
def creditSettled (e : Env) (org : String) (amount : ℤ) (transaction : Option String) (db : Db) : Call (Option ℤ) × Db :=
  creditUsdcTopup e org amount (transaction.getD "") db

/-- `verify_user_and_enqueue_onboarding_credit` of a user of `org`: the outbox row, unless there is one -/
def enqueueGrant (org : String) (amount : ℤ) (fault : Bool) (d : Desk) : Option (Table GrantRequest.orgId) :=
  if fault ∨ ¬ isBigint amount ∨ amount ≤ 0 then none
  else match d.queue.insert? ⟨org, amount⟩ with
    | none => some d.queue
    | some queue => if (d.db.orgs.get? org).isSome then some queue else none

/-- the next call of a grantor: remove the row of the org it granted, or grant the next org; a failure is logged -/
def Grantor.resume (e : Env) (g : Grantor) (d : Desk) : Grantor × Desk :=
  match g.granted, g.todo with
  | some org, _ =>
    (⟨g.todo, none⟩, if e.fault 0 then d else { d with queue := d.queue.filter (fun r => r.orgId ≠ org) })
  | none, [] => (g, d)
  | none, row :: rest =>
    let r := grantOnboardingCredit e row.orgId row.amountUsdc d.db
    (⟨rest, if r.1.isOk then some row.orgId else none⟩, { d with db := r.2 })

def arrive (d : Desk) : Arrival → Desk
  | .stripe e event => { d with db := (handleStripeWebhook e event d.db).2 }
  | .usdc e org amount transaction => { d with db := (creditSettled e org amount transaction d.db).2 }
  | .admin e org amount reason ref => { d with db := (adminTopupCredit e org amount reason (some ref) d.db).2 }
  | .onboarding e secret org amount ref payer chain tx =>
    { d with db := (recordOnboardingSettlement e secret org amount ref payer chain tx d.db).2 }
  | .verifyEmail org amount fault =>
    match enqueueGrant org amount fault d with
    | none => d
    | some queue => { d with queue := queue, grantors := d.grantors ++ [⟨[⟨org, amount⟩], none⟩] }
  | .fetchOutbox limit fault =>
    if fault then d else { d with grantors := d.grantors ++ [⟨d.queue.rows.take limit, none⟩] }
  | .resume i e =>
    match d.grantors[i]? with
    | none => d
    | some g => { (g.resume e d).2 with grantors := d.grantors.set i (g.resume e d).1 }

/-! ## The property -/

/-- what an arrival is a delivery of: the key, the org and the amount it carries -/
def carries (d : Desk) : Arrival → Option (TopupKey × String × ℤ)
  | .stripe _ event => event.pays.map (fun p => (.event event.id, p.1, p.2))
  | .usdc _ org amount transaction => some (.payment (transaction.getD ""), org, amount)
  | .admin _ org amount _ ref => some (.reference ref, org, amount)
  | .onboarding _ _ org amount ref _ _ _ => some (.reference ref, org, amount)
  | .verifyEmail _ _ _ => none
  | .fetchOutbox _ _ => none
  | .resume i _ =>
    match d.grantors[i]? with
    | some ⟨row :: _, none⟩ => some (.grant row.orgId, row.orgId, row.amountUsdc)
    | _ => none

/-- the call of a delivery returned -/
def answered (d : Desk) : Arrival → Bool
  | .stripe e event => (handleStripeWebhook e event d.db).1.isOk
  | .usdc e org amount transaction => (creditSettled e org amount transaction d.db).1.isOk
  | .admin e org amount reason ref => (adminTopupCredit e org amount reason (some ref) d.db).1.isOk
  | .onboarding e secret org amount ref payer chain tx =>
    (recordOnboardingSettlement e secret org amount ref payer chain tx d.db).1.isOk
  | .verifyEmail _ _ _ => false
  | .fetchOutbox _ _ => false
  | .resume i e =>
    match d.grantors[i]? with
    | some ⟨row :: _, none⟩ => (grantOnboardingCredit e row.orgId row.amountUsdc d.db).1.isOk
    | _ => false

/-- a delivery of `k` that returned -/
def Answered (k : TopupKey) (d : Desk) (a : Arrival) : Prop :=
  answered d a = true ∧ ∃ org amount, carries d a = some (k, org, amount)

/-- the ledger rows a delivery of `k` posts -/
def postings (k : TopupKey) (d : Desk) (a : Arrival) : List LedgerRow :=
  match carries d a with
  | some (k', _) => if k' = k then (arrive d a).db.ledger.rows.drop d.db.ledger.rows.length else []
  | none => []

/-- a step tops up the org it carries by the amount it carries, under a key that was free, or moves nothing -/
def Own (d : Desk) (a : Arrival) : Prop :=
  (∃ k org amount, carries d a = some (k, org, amount) ∧ used d.db k = false ∧ TopsUp d.db (arrive d a).db org amount) ∨
    Unmoved d.db (arrive d a).db

/-- a settled USDC payment is credited -/
def Paid (d : Desk) : Arrival → Prop
  | .usdc e org amount transaction => TopsUp d.db (arrive d (.usdc e org amount transaction)).db org amount
  | _ => True

/-- a verification that commits leaves its org queued -/
def Enqueued (d : Desk) : Arrival → Prop
  | .verifyEmail org amount fault =>
    (enqueueGrant org amount fault d).isSome → ((arrive d (.verifyEmail org amount fault)).queue.get? org).isSome
  | _ => True

/-- **Exactly once.** -/
structure CreditedOnce (d : Desk) (acts : List Arrival) : Prop where
  /-- no step moves anything but the top-up it carries, and a duplicate moves nothing -/
  own : Runs.Legal arrive Own d acts
  /-- a key not used before posts one row when one of its deliveries returns, and none while all of them fail -/
  once : ∀ k, used d.db k = false →
    (Runs.Occurs arrive (Answered k) d acts → ∃ row, Runs.collect arrive (postings k) d acts = [row]) ∧
      (¬ Runs.Occurs arrive (Answered k) d acts → Runs.collect arrive (postings k) d acts = [])
  /-- a key used before posts nothing -/
  spent : ∀ k, used d.db k = true → Runs.collect arrive (postings k) d acts = []
  paid : Runs.Legal arrive Paid d acts
  enqueued : Runs.Legal arrive Enqueued d acts
  /-- an org in the outbox stays there until it has its grant -/
  kept : ∀ pre post, acts = pre ++ post → ∀ org, ((Runs.run arrive d pre).queue.get? org).isSome →
    ((Runs.run arrive d acts).queue.get? org).isSome ∨ used (Runs.run arrive d acts).db (.grant org) = true

/-- a settled payment comes under a transaction text that is free, and the database accepts its rows -/
def Fresh (d : Desk) : Arrival → Prop
  | .usdc e org amount transaction => used d.db (.payment (transaction.getD "")) = false ∧ Accepted e org amount d.db
  | _ => True

/-! ## One step -/

theorem resume_db (e : Env) (g : Grantor) (d : Desk) : (g.resume e d).2.db = match g.granted, g.todo with
      | none, row :: _ => (grantOnboardingCredit e row.orgId row.amountUsdc d.db).2
      | _, _ => d.db := by
  obtain ⟨todo, granted⟩ := g
  cases granted with
  | some org =>
    simp only [Grantor.resume]
    split_ifs <;> rfl
  | none =>
    cases todo with
    | nil => rfl
    | cons row rest => rfl

variable {d : Desk} {a : Arrival} {k : TopupKey} {org : String}

theorem arrive_delivery {amount : ℤ} (h : carries d a = some (k, org, amount)) :
    KeyedCall k org amount (answered d a) d.db (arrive d a).db := by
  cases a with
  | stripe e event =>
    obtain ⟨p, hp, heq⟩ := Option.map_eq_some_iff.1 h
    cases heq
    exact handleStripeWebhook_delivery e d.db hp
  | usdc e org' amount' transaction =>
    cases h
    exact creditUsdcTopup_delivery e _ _ _ d.db
  | admin e org' amount' reason ref =>
    cases h
    exact adminTopupCredit_delivery e _ _ _ _ d.db
  | onboarding e secret org' amount' ref payer chain tx =>
    cases h
    exact recordOnboardingSettlement_delivery e secret _ _ _ payer chain tx d.db
  | verifyEmail _ _ _ | fetchOutbox _ _ => cases h
  | resume i e =>
    simp only [carries] at h
    split at h
    · next row rest hg =>
      cases h
      simp only [answered, arrive, hg, resume_db]
      exact grantOnboardingCredit_delivery e row.orgId row.amountUsdc d.db
    · cases h

theorem arrive_quiet (h : carries d a = none) : Quiet d.db (arrive d a).db := by
  have hsame : (arrive d a).db = d.db := by
    cases a with
    | stripe e event => exact handleStripeWebhook_ignored (Option.map_eq_none_iff.1 h)
    | usdc _ _ _ _ | admin _ _ _ _ _ => cases h
    | onboarding e secret org amount ref payer chain tx => cases h
    | verifyEmail org amount fault =>
      simp only [arrive]
      split <;> rfl
    | fetchOutbox limit fault =>
      simp only [arrive]
      split_ifs <;> rfl
    | resume i e =>
      simp only [arrive]
      cases hg : d.grantors[i]? with
      | none => rfl
      | some g =>
        simp only [resume_db]
        obtain ⟨todo, granted⟩ := g
        cases granted with
        | some org => rfl
        | none =>
          cases todo with
          | nil => rfl
          | cons row rest =>
            simp only [carries, hg] at h
            cases h
  rw [hsame]
  exact Quiet.refl d.db

theorem used_mono (d : Desk) (a : Arrival) (h : used d.db k) : used (arrive d a).db k := by
  cases hc : carries d a with
  | none => rw [(arrive_quiet hc).keys]; exact h
  | some p =>
    rcases arrive_delivery hc with ⟨-, hq⟩ | ⟨-, hq⟩ | ⟨-, -, -, hnow⟩
    · rw [hq.keys]; exact h
    · rw [hq.keys]; exact h
    · rw [hnow, h, ite_self]

theorem used_mono_run (d : Desk) (acts : List Arrival) (h : used d.db k) : used (Runs.run arrive d acts).db k :=
  Runs.run_inv arrive (fun d => used d.db k) (fun d a => used_mono d a) acts h

theorem arrive_own (d : Desk) (a : Arrival) : Own d a := by
  cases hc : carries d a with
  | none => exact .inr (arrive_quiet hc).unmoved
  | some p =>
    obtain ⟨k, org, amount⟩ := p
    rcases arrive_delivery hc with ⟨-, hq⟩ | ⟨-, hq⟩ | ⟨hk, -, ht, -⟩
    · exact .inr hq.unmoved
    · exact .inr hq.unmoved
    · exact .inl ⟨k, org, amount, hc, hk, ht⟩

theorem postings_of_unmoved (h : Unmoved d.db (arrive d a).db) : postings k d a = [] := by
  unfold postings
  split
  · split_ifs
    · rw [h.ledger, List.drop_length]
    · rfl
  · rfl

theorem postings_used (h : used d.db k) : postings k d a = [] := by
  rcases arrive_own d a with ⟨k', org, amount, hc, hk, -⟩ | hu
  · have hne : k' ≠ k := by
      rintro rfl
      rw [h] at hk
      cases hk
    simp [postings, hc, if_neg hne]
  · exact postings_of_unmoved hu

theorem postings_free (h : used d.db k = false) :
    (Answered k d a ∧ (∃ row, postings k d a = [row]) ∧ used (arrive d a).db k) ∨
      (¬ Answered k d a ∧ postings k d a = [] ∧ used (arrive d a).db k = false) := by
  cases hc : carries d a with
  | none =>
    have hq := arrive_quiet hc
    refine .inr ⟨?_, postings_of_unmoved hq.unmoved, by rw [hq.keys]; exact h⟩
    rintro ⟨-, org, amount, hc'⟩
    rw [hc] at hc'
    cases hc'
  | some p =>
    obtain ⟨k', org, amount⟩ := p
    have hkey : Answered k d a → k' = k := by
      rintro ⟨-, org', amount', hc'⟩
      rw [hc] at hc'
      cases hc'
      rfl
    rcases arrive_delivery hc with ⟨hfail, hq⟩ | ⟨hused, hq⟩ | ⟨hfree, hok, ht, hnow⟩
    · refine .inr ⟨?_, postings_of_unmoved hq.unmoved, by rw [hq.keys]; exact h⟩
      rintro ⟨hok, -⟩
      rw [hfail] at hok
      cases hok
    · refine .inr ⟨?_, postings_of_unmoved hq.unmoved, by rw [hq.keys]; exact h⟩
      intro ha
      obtain rfl := hkey ha
      rw [h] at hused
      cases hused
    · by_cases hk : k' = k
      · subst hk
        obtain ⟨row, hrows, -⟩ := ht.rows
        refine .inl ⟨⟨hok, org, amount, hc⟩, ⟨row, ?_⟩, ?_⟩
        · simp [postings, hc, hrows]
        · rw [hnow, if_pos rfl]
      · refine .inr ⟨fun ha => hk (hkey ha), ?_, ?_⟩
        · simp [postings, hc, if_neg hk]
        · rw [hnow, if_neg (Ne.symm hk)]
          exact h

/-! ## The outbox -/

/-- a grantor removes the row of an org that has its grant -/
def Granted (d : Desk) : Prop := ∀ g ∈ d.grantors, ∀ org, g.granted = some org → used d.db (.grant org) = true

theorem grant_used {e : Env} {amount : ℤ} {db : Db} (h : (grantOnboardingCredit e org amount db).1.isOk) :
    used (grantOnboardingCredit e org amount db).2 (.grant org) := by
  rcases grantOnboardingCredit_delivery e org amount db with ⟨hfail, -⟩ | ⟨hk, hq⟩ | ⟨-, -, -, hnow⟩
  · rw [h] at hfail; cases hfail
  · rw [hq.keys]; exact hk
  · rw [hnow, if_pos rfl]

theorem resume_granted {e : Env} {g : Grantor} (h : (g.resume e d).1.granted = some org) :
    used (g.resume e d).2.db (.grant org) := by
  obtain ⟨todo, granted⟩ := g
  cases granted with
  | some org' => cases h
  | none =>
    cases todo with
    | nil => cases h
    | cons row rest =>
      simp only [Grantor.resume] at h ⊢
      split_ifs at h with hok
      cases h
      exact grant_used hok

theorem arrive_granted (d : Desk) (a : Arrival) (h : Granted d) : Granted (arrive d a) := by
  have hold : ∀ g ∈ d.grantors, ∀ org, g.granted = some org → used (arrive d a).db (.grant org) :=
    fun g hg org horg => used_mono d a (h g hg org horg)
  intro g hg org horg
  cases a with
  | stripe _ _ | usdc _ _ _ _ | admin _ _ _ _ _ => exact hold g hg org horg
  | onboarding e secret org' amount ref payer chain tx => exact hold g hg org horg
  | verifyEmail org' amount fault =>
    refine hold g ?_ org horg
    simp only [arrive] at hg
    split at hg
    · exact hg
    · rcases List.mem_append.1 hg with hg | hg
      · exact hg
      · rw [List.mem_singleton.1 hg] at horg; cases horg
  | fetchOutbox limit fault =>
    refine hold g ?_ org horg
    simp only [arrive] at hg
    split_ifs at hg
    · exact hg
    · rcases List.mem_append.1 hg with hg | hg
      · exact hg
      · rw [List.mem_singleton.1 hg] at horg; cases horg
  | resume i e =>
    cases hi : d.grantors[i]? with
    | none =>
      refine hold g ?_ org horg
      simpa only [arrive, hi] using hg
    | some g₀ =>
      simp only [arrive, hi] at hg
      rcases List.mem_or_eq_of_mem_set hg with hg | rfl
      · exact hold g hg org horg
      · simp only [arrive, hi]
        exact resume_granted horg

theorem enqueueGrant_ok {amount : ℤ} {fault : Bool} {queue : Table GrantRequest.orgId}
    (h : enqueueGrant org amount fault d = some queue) (o : String) :
    (queue.get? o).isSome = if o = org then true else (d.queue.get? o).isSome := by
  unfold enqueueGrant at h
  split at h
  · cases h
  cases hins : d.queue.insert? ⟨org, amount⟩ with
  | none =>
    simp only [hins] at h
    cases h
    by_cases ho : o = org
    · rw [if_pos ho, ho]
      exact Table.isSome_of_insert?_none hins
    · rw [if_neg ho]
  | some queue' =>
    simp only [hins] at h
    split_ifs at h
    cases h
    exact isSome_get?_insert hins o

theorem arrive_queue (hd : Granted d) (a : Arrival) (h : (d.queue.get? org).isSome) :
    ((arrive d a).queue.get? org).isSome ∨ used d.db (.grant org) := by
  cases a with
  | stripe _ _ | usdc _ _ _ _ | admin _ _ _ _ _ => exact .inl h
  | onboarding e secret org' amount ref payer chain tx => exact .inl h
  | verifyEmail org' amount fault =>
    refine .inl ?_
    cases hq : enqueueGrant org' amount fault d with
    | none => simpa only [arrive, hq] using h
    | some queue =>
      simp only [arrive, hq]
      rw [enqueueGrant_ok hq, h, ite_self]
  | fetchOutbox limit fault =>
    refine .inl ?_
    simp only [arrive]
    split_ifs <;> exact h
  | resume i e =>
    cases hi : d.grantors[i]? with
    | none => exact .inl (by simpa only [arrive, hi] using h)
    | some g =>
      simp only [arrive, hi]
      obtain ⟨todo, granted⟩ := g
      cases granted with
      | none =>
        refine .inl ?_
        cases todo <;> exact h
      | some done =>
        by_cases hdone : done = org
        · subst hdone
          exact .inr (hd _ (List.mem_of_getElem? hi) done rfl)
        · refine .inl ?_
          simp only [Grantor.resume]
          split_ifs
          · exact h
          · obtain ⟨row, hrow⟩ := Option.isSome_iff_exists.1 h
            have hkey : row.orgId = org := Table.key_of_get? hrow
            rw [Table.get?_filter, hrow, Option.filter_some_pos (by rw [hkey]; simpa using Ne.symm hdone)]
            rfl

theorem run_queue (hd : Granted d) (acts : List Arrival) (h : (d.queue.get? org).isSome) :
    ((Runs.run arrive d acts).queue.get? org).isSome ∨ used (Runs.run arrive d acts).db (.grant org) := by
  induction acts generalizing d with
  | nil => exact .inl h
  | cons a acts ih =>
    rcases arrive_queue hd a h with h' | hgrant
    · exact ih (arrive_granted d a hd) h'
    · exact .inr (used_mono_run d (a :: acts) hgrant)

theorem arrive_enqueued (d : Desk) (a : Arrival) : Enqueued d a := by
  cases a with
  | verifyEmail org amount fault =>
    intro h
    cases hq : enqueueGrant org amount fault d with
    | none => rw [hq] at h; cases h
    | some queue =>
      simp only [arrive, hq]
      rw [enqueueGrant_ok hq, if_pos rfl]
  | stripe _ _ | usdc _ _ _ _ | admin _ _ _ _ _ | onboarding _ _ _ _ _ _ _ _ | fetchOutbox _ _ | resume _ _ => trivial

/-! ## Whole runs -/

theorem paid_iff_fresh (d : Desk) (a : Arrival) : Paid d a ↔ Fresh d a := by
  cases a with
  | usdc e org amount transaction => exact creditUsdcTopup_topsUp_iff e org amount _ d.db
  | stripe _ _ | admin _ _ _ _ _ | onboarding _ _ _ _ _ _ _ _ | verifyEmail _ _ _ | fetchOutbox _ _ => exact Iff.rfl
  | resume _ _ => exact Iff.rfl

/-- **Every external top-up is credited exactly once**, to its own org and with its own amount, in exactly the runs in
which each settled USDC payment comes under a transaction text not used before, where a missing one is the empty text, and
the database accepts the rows of its credit. -/
theorem topups_credited_once_iff (db : Db) (queue : Table GrantRequest.orgId) (acts : List Arrival) :
    CreditedOnce (Desk.start db queue) acts ↔ Runs.Legal arrive Fresh (Desk.start db queue) acts := by
  constructor
  · intro h
    exact Runs.Legal.imp arrive (fun d a => (paid_iff_fresh d a).1) h.paid
  · intro h
    have honce := fun k => Runs.collect_once arrive (postings k) (fun d => used d.db k) (Answered k)
      (fun d a hk => ⟨postings_used hk, used_mono d a hk⟩) (fun d a hk => postings_free hk) acts (Desk.start db queue)
    have hstart : Granted (Desk.start db queue) := fun g hg => absurd hg List.not_mem_nil
    refine ⟨Runs.legal_of_forall arrive arrive_own _ acts, fun k => (honce k).2, fun k => (honce k).1,
      Runs.Legal.imp arrive (fun d a => (paid_iff_fresh d a).2) h, Runs.legal_of_forall arrive arrive_enqueued _ acts, ?_⟩
    rintro pre post rfl org hqueued
    rw [Runs.run_append]
    exact run_queue (Runs.run_inv arrive Granted arrive_granted pre hstart) post hqueued

/-- one org, no credit yet -/
def oneOrg : Db := { Db.empty with orgs := ⟨[⟨"org", "signup"⟩], by decide⟩ }

/-- two payments of 5 USDC, both settled, neither with a transaction text -/
def unnamedPayments : List Arrival :=
  [.usdc (.calm 0 "l1") "org" 5000000 none, .usdc (.calm 1 "l2") "org" 5000000 none]

/-- the second payment is taken for the first one: 10 USDC settled, 5 credited -/
theorem unnamed_payment_lost :
    balance (Runs.run arrive (Desk.start oneOrg Table.empty) unnamedPayments).db "org" = 5000000 ∧
      ¬ CreditedOnce (Desk.start oneOrg Table.empty) unnamedPayments := by
  refine ⟨by decide, fun h => ?_⟩
  have hsecond := h.paid.2.1
  exact absurd ((paid_iff_fresh _ _).1 hsecond).1 (by decide)

end Teardrop.Billing
