/-
One payment of the onboarding machine, step by step: until its failed credit is recorded (`Pending`), and from then on
(`After`). Once the call that holds the payment's nonce has ended without releasing it, nobody settles or audits it (`Closed`).
-/
import Teardrop.Onboarding.Credits

namespace Teardrop.Onboarding

open Teardrop.Py Teardrop.Billing List

section Machine

variable {x : Package} {A : Type} [DecidableEq A] (f : Facilitator x A) (checksum : String → Option String)

/-! ## One step -/

variable {w : World x A} {i : ℕ} {t : Bootstrap x.Payload} {initial : ProvisioningRow} {tx : String} {w' : World x A}

theorem step_answer (hi : w.tasks[i]? = some t) (a : Answer) : step f checksum w (.answer i a) =
      { (t.resume f checksum w a).1 with tasks := w.tasks.set i (t.resume f checksum w a).2 } := by
  simp [step, hi]

theorem resume_writes (w : World x A) (t : Bootstrap x.Payload) (a : Answer) :
    ∃ rows events, Writes t.ref rows events w.db (t.resume f checksum w a).1.db := by
  have credit : ∀ (e : Env) (secret : FreshSecret) (org payerAddress : String) (chain : ℤ) (tx : String),
      ∃ rows events, Writes t.ref rows events w.db
        (recordOnboardingSettlement e secret org t.amount t.ref payerAddress chain tx w.db).2 := by
    intro e secret org payerAddress chain tx
    cases hr : recordOnboardingSettlement e secret org t.amount t.ref payerAddress chain tx w.db with
    | mk outcome db' =>
      cases outcome with
      | error y =>
        have hsame := recordOnboardingSettlement_error (x := y) (by rw [hr])
        rw [hr] at hsame
        rw [show db' = w.db from hsame]
        exact ⟨[], [], .refl _ _⟩
      | ok c =>
        rcases (recorded_ok hr).2 with ⟨row, rest, -, hw⟩ | ⟨-, row, events, -, hw⟩
        · exact ⟨[], [], hw⟩
        · exact ⟨[row], events, hw⟩
  cases resumed f checksum w t a with
  | ignored _ hw _ => rw [hw]; exact ⟨[], [], .refl _ _⟩
  | moved _ hdb _ _ | paid _ _ _ hdb _ _ => rw [hdb]; exact ⟨[], [], .refl _ _⟩
  | provisioned fault answer _ hdb _ =>
    rw [hdb]
    obtain ⟨events, hw, -⟩ := provision_writes fault t.ref _ t.amount answer w.db
    exact ⟨[], events, hw⟩
  | recorded e secret _ hdb _ | recovered e secret _ hdb _ => rw [hdb]; exact credit e secret _ _ _ _
  | @audited payer org audit fault eventId _ hdb _ =>
    rw [hdb]
    rcases audit_writes fault (settlementRow eventId org t.ref payer t.amount audit) w.db with ⟨-, h⟩ | ⟨-, h⟩
    · rw [h]; exact ⟨[], [], .refl _ _⟩
    · exact ⟨[], _, h⟩

theorem openCall_header (db : Db) (header : String) (q : Quote) (fault : Bool) (unhealthyUntil : List ℚ) (now : ℚ) :
    (openCall (x := x) checksum db header q fault unhealthyUntil now).header = header := by
  unfold openCall
  split
  · rfl
  · split_ifs
    · rfl
    · simp only
      split <;> rfl

theorem openCall_recovering {db : Db} {header : String} {q : Quote} {fault : Bool} {unhealthyUntil : List ℚ} {now : ℚ}
    (hphase : (openCall (x := x) checksum db header q fault unhealthyUntil now).phase = .recovering initial tx) :
    ∃ reqs s, bootstrapPaymentRequirements q = .ok (q.amountUsdc, reqs) ∧ fault = false ∧
      provisioningState (paymentRef header) db = some s ∧
      recovers q.x402Network (paymentRef header) q.amountUsdc s = some (initial, tx) ∧
      (openCall (x := x) checksum db header q fault unhealthyUntil now).amount = q.amountUsdc ∧
      (openCall (x := x) checksum db header q fault unhealthyUntil now).network = q.x402Network := by
  unfold openCall at hphase ⊢
  cases hq : bootstrapPaymentRequirements q with
  | error refusal =>
    rw [hq] at hphase
    cases hphase
  | ok r =>
    obtain ⟨amount, reqs⟩ := r
    have hamount : amount = q.amountUsdc := by
      unfold bootstrapPaymentRequirements at hq
      split_ifs at hq
      split at hq <;> cases hq
      rfl
    subst hamount
    rw [hq] at hphase
    cases fault with
    | true => cases hphase
    | false =>
      simp only [Bool.false_eq_true, if_false] at hphase ⊢
      cases hfound : (provisioningState (paymentRef header) db).bind
          (recovers q.x402Network (paymentRef header) q.amountUsdc) with
      | none =>
        rw [hfound] at hphase
        have hplain : (startPaying (x := x) checksum q.amountUsdc q.x402Network header reqs unhealthyUntil now).plain =
            true := by
          unfold startPaying
          split
          · rfl
          · exact ofPayPhase_plain checksum _ _ _ _
        rw [show startPaying (x := x) checksum q.amountUsdc q.x402Network header reqs unhealthyUntil now = _ from hphase]
          at hplain
        cases hplain
      | some found =>
        rw [hfound] at hphase
        cases hphase
        obtain ⟨s, hs, hrec⟩ := Option.bind_eq_some_iff.1 hfound
        exact ⟨reqs, s, rfl, trivial, hs, hrec, rfl, rfl⟩

/-- the header an act presents -/
def Act.header? : Act → Option String
  | .present header _ _ _ _ => some header
  | .answer _ _ => none

variable (h : String)

/-- no other header of the run has this one's reference -/
def Collisionless (acts : List Act) : Prop :=
  ∀ act ∈ acts, ∀ header, act.header? = some header → paymentRef header = paymentRef h → header = h

/-- no call of another header has this one's reference -/
def Alone (w : World x A) : Prop := ∀ t ∈ w.tasks, t.ref = paymentRef h → t.header = h

theorem step_alone (hw : Alone h w) (act : Act)
    (hact : ∀ header, act.header? = some header → paymentRef header = paymentRef h → header = h) :
    Alone h (step f checksum w act) := by
  cases act with
  | present header q fault unhealthyUntil now =>
    intro t ht href
    rcases mem_append.1 ht with ht | ht
    · exact hw t ht href
    · rw [mem_singleton.1 ht] at href ⊢
      have hheader := openCall_header (x := x) checksum w.db header q fault unhealthyUntil now
      rw [Bootstrap.ref, hheader] at href
      rw [hheader]
      exact hact header rfl href
  | answer i a =>
    cases hi : w.tasks[i]? with
    | none => rw [step, hi]; exact hw
    | some t =>
      rw [step_answer f checksum hi]
      obtain ⟨hheader, -, -, -⟩ := resume_frame f checksum w t a
      intro c hc href
      rcases Locks.mem_set hi hc with rfl | hc
      · rw [Bootstrap.ref, hheader] at href
        rw [hheader]
        exact hw t (mem_of_getElem? hi) href
      · exact hw c (mem_of_mem_eraseIdx hc) href

/-! ## Until the failed credit is recorded -/

/-- nothing was credited, no failed credit recorded, and no call recovers the payment -/
structure Open (w : World x A) : Prop where
  uncredited : creditsOf (paymentRef h) w.db = []
  unfailed : ∀ r ∈ eventsOf (paymentRef h) w.db, r.eventType = "settlement" → r.settlementStatus ≠ "credit_failed"
  idle : ∀ t ∈ w.tasks, t.header = h → ∀ initial tx, t.phase ≠ .recovering initial tx

/-- the payment's nonce is claimed, and no call holds it: nobody will settle or audit the payment again -/
structure Closed (w : World x A) : Prop where
  claimed : (w.nonces.get? (paymentNonceHash x h)).isSome = true
  unheld : ∀ t ∈ w.tasks, t.lock ≠ some (paymentNonceHash x h)

/-- a call that credits has its transaction -/
def Paid (w : World x A) : Prop :=
  ∀ t ∈ w.tasks, ∀ payer org tx,
    (t.phase = .crediting payer org tx ∨ t.phase = .auditing payer org ⟨"credit_failed", tx⟩) → tx ≠ ""

theorem step_closed (hw : Closed h w) (act : Act) : Closed h (step f checksum w act) := by
  cases act with
  | present header q fault unhealthyUntil now =>
    refine ⟨hw.claimed, fun t ht => ?_⟩
    rcases mem_append.1 ht with ht | ht
    · exact hw.unheld t ht
    · rw [mem_singleton.1 ht, lock_of_not_holds (x := x) (openCall_holds checksum w.db header q fault unhealthyUntil now)]
      exact nofun
  | answer i a =>
    cases hi : w.tasks[i]? with
    | none => rw [step, hi]; exact hw
    | some t =>
      rw [step_answer f checksum hi]
      have hmem := mem_of_getElem? hi
      have others : ∀ {t'}, t'.lock ≠ some (paymentNonceHash x h) → ∀ c ∈ w.tasks.set i t',
          c.lock ≠ some (paymentNonceHash x h) := by
        intro t' ht' c hc
        rcases Locks.mem_set hi hc with rfl | hc
        · exact ht'
        · exact hw.unheld c (mem_of_mem_eraseIdx hc)
      cases resume_holding f checksum w t a with
      | kept hlock hnonces => exact ⟨by simp only [hnonces]; exact hw.claimed, others (by rw [hlock]; exact hw.unheld t hmem)⟩
      | left hlock hnonces => exact ⟨by simp only [hnonces]; exact hw.claimed, others (by rw [hlock]; exact nofun)⟩
      | taken hbefore hlock hfree hmine hkeep =>
        refine ⟨hkeep _ hw.claimed, others ?_⟩
        rw [hlock]
        intro heq
        have hclaimed := hw.claimed
        rw [← Option.some.inj heq, hfree] at hclaimed
        cases hclaimed
      | freed hbefore hlock hkeep =>
        have hne : paymentNonceHash x h ≠ paymentNonceHash x t.header := by
          intro heq
          refine hw.unheld t hmem ?_
          rw [heq]
          exact hbefore
        refine ⟨?_, others (by rw [hlock]; exact nofun)⟩
        simp only [hkeep _ hne]
        exact hw.claimed

theorem step_paid (hw : Paid w) (act : Act) : Paid (step f checksum w act) := by
  cases act with
  | present header q fault unhealthyUntil now =>
    intro t ht payer org tx hphase
    rcases mem_append.1 ht with ht | ht
    · exact hw t ht payer org tx hphase
    · have hfalse := openCall_holds (x := x) checksum w.db header q fault unhealthyUntil now
      rw [mem_singleton.1 ht] at hphase
      rcases hphase with hphase | hphase <;> · rw [hphase] at hfalse; cases hfalse
  | answer i a =>
    cases hi : w.tasks[i]? with
    | none => rw [step, hi]; exact hw
    | some t =>
      rw [step_answer f checksum hi]
      intro c hc payer org tx hphase
      rcases Locks.mem_set hi hc with rfl | hc
      · have hmem := mem_of_getElem? hi
        have hnotplain : (t.resume f checksum w a).2.phase.plain ≠ true := by
          intro hplain
          rcases hphase with hphase | hphase <;> · rw [hphase] at hplain; simp [Phase.plain] at hplain
        cases resumed f checksum w t a with
        | ignored _ _ ht => rw [ht] at hphase; exact hw t hmem payer org tx hphase
        | moved _ _ _ hplain => exact absurd hplain hnotplain
        | provisioned _ _ _ _ hplain => exact absurd hplain hnotplain
        | paid _ _ _ _ hnow htx =>
          rw [hnow] at hphase
          rcases hphase with hphase | hphase <;> cases hphase
          exact htx
        | recorded e secret hbefore _ hnow =>
          rw [hnow] at hphase
          unfold onRecorded at hphase
          split at hphase
          · rcases hphase with hphase | hphase <;> cases hphase
          · rcases hphase with hphase | hphase <;> cases hphase
            exact hw t hmem _ _ _ (.inl hbefore)
        | recovered e secret _ _ hnow =>
          rw [hnow] at hphase
          unfold onRecovered at hphase
          split at hphase <;> rcases hphase with hphase | hphase <;> cases hphase
        | audited _ _ _ _ hnow =>
          rw [hnow] at hphase
          unfold onAudited at hphase
          split_ifs at hphase <;> rcases hphase with hphase | hphase <;> cases hphase
      · exact hw c (mem_of_mem_eraseIdx hc) payer org tx hphase

omit [DecidableEq A] in
theorem Custody.closed (hw : Custody w) {t' : Bootstrap x.Payload} (hi : w.tasks[i]? = some t) (hheader : t.header = h)
    (hheld : t.phase.holds = true) (hended : t'.phase.holds = false) (hnonces : w'.nonces = w.nonces) :
    Closed h { w' with tasks := w.tasks.set i t' } := by
  have hlock : t.lock = some (paymentNonceHash x h) := by rw [lock_of_holds hheld, hheader]
  refine ⟨by simp only [hnonces]; exact hw.claimed t (mem_of_getElem? hi) _ hlock, fun c hc => ?_⟩
  rcases Locks.mem_set hi hc with rfl | hc
  · rw [lock_of_not_holds hended]
    exact fun h => by cases h
  · exact hw.exclusive.apart hi hlock c hc

theorem provisioningState_some {ref : String} {db : Db} {s : Recovery} (hs : provisioningState ref db = some s) :
    (eventsOf ref db).find? (fun r => r.eventType = "provisioned") = some s.provisioned ∧
      s.latestSettlement = ((eventsOf ref db).filter (fun r => r.eventType = "settlement")).getLast? := by
  obtain ⟨p, hp, rfl⟩ := Option.map_eq_some_iff.1 hs
  exact ⟨hp, rfl⟩

theorem recovers_some {network ref : String} {amount : ℤ} {s : Recovery}
    (hs : recovers network ref amount s = some (initial, tx)) :
    ∃ latest, s.latestSettlement = some latest ∧ latest.settlementStatus = "credit_failed" ∧ initial = s.provisioned ∧
      tx ≠ "" ∧ initial.method = "x402" ∧ chainIdFromNetwork network = some initial.chainId ∧ initial.amountUsdc = amount := by
  unfold recovers at hs
  split at hs
  · next chain latest hchain hlatest =>
    split_ifs at hs with hcond
    obtain ⟨hmethod, hstatus, htx, -, hchain', hamount⟩ := hcond
    cases hs
    exact ⟨latest, hlatest, hstatus, rfl, htx, hmethod, by rw [hchain, hchain'], hamount⟩
  · cases hs

theorem Open.present (hw : Open h w) (header : String) (q : Quote) (fault : Bool) (unhealthyUntil : List ℚ) (now : ℚ) :
    Open h (step f checksum w (.present header q fault unhealthyUntil now)) := by
  refine ⟨hw.uncredited, hw.unfailed, fun t ht hheader initial tx hphase => ?_⟩
  rcases mem_append.1 ht with ht | ht
  · exact hw.idle t ht hheader initial tx hphase
  · rw [mem_singleton.1 ht] at hheader hphase
    rw [openCall_header] at hheader
    obtain ⟨reqs, s, -, -, hs, hrec, -⟩ := openCall_recovering checksum hphase
    obtain ⟨-, hlatest⟩ := provisioningState_some hs
    obtain ⟨latest, hlast, hstatus, -⟩ := recovers_some hrec
    rw [hlast] at hlatest
    have hmem := mem_filter.1 (mem_of_getLast? hlatest.symm)
    rw [hheader] at hmem
    exact hw.unfailed latest hmem.1 (of_decide_eq_true hmem.2) hstatus

theorem Open.answer (hw : Open h w) (hcustody : Custody w) (halone : Alone h w) (hi : w.tasks[i]? = some t) (a : Answer) :
    Open h (step f checksum w (.answer i a)) ∨ Closed h (step f checksum w (.answer i a)) := by
  have hmem := mem_of_getElem? hi
  obtain ⟨hheader', -, -, -⟩ := resume_frame f checksum w t a
  rw [step_answer f checksum hi]
  by_cases hheader : t.header = h
  · have href : t.ref = paymentRef h := congrArg paymentRef hheader
    have hidle := hw.idle t hmem hheader
    -- the payment's own call: what it stores, and whether it is still at work
    have stays : ∀ {w' : World x A} {events}, Writes t.ref [] events w.db w'.db →
        (∀ r ∈ events, r.eventType = "settlement" → r.settlementStatus ≠ "credit_failed") →
        ∀ {t' : Bootstrap x.Payload}, (∀ initial tx, t'.phase ≠ .recovering initial tx) →
        Open h { w' with tasks := w.tasks.set i t' } := by
      intro w' events hwrites hevents t' ht'
      rw [href] at hwrites
      refine ⟨?_, fun r hr => ?_, fun c hc hc' => ?_⟩
      · have := hwrites.creditsOf
        rw [append_nil] at this
        exact this.trans hw.uncredited
      · have := hwrites.eventsOf
        simp only [this] at hr
        rcases mem_append.1 hr with hr | hr
        · exact hw.unfailed r hr
        · exact hevents r hr
      · rcases Locks.mem_set hi hc with rfl | hc
        · exact ht'
        · exact hw.idle c (mem_of_mem_eraseIdx hc) hc'
    have unwritten : ∀ {w' : World x A}, w'.db = w.db → Writes t.ref [] [] w.db w'.db := by
      intro w' hdb
      rw [hdb]
      exact .refl _ _
    have notRecovering : ∀ {p : Phase x.Payload}, p.plain = true → ∀ initial tx, p ≠ .recovering initial tx := by
      intro p hp initial tx heq
      rw [heq] at hp
      cases hp
    cases hres : resumed f checksum w t a with
    | ignored _ hsame ht =>
      refine .inl (stays (unwritten (by rw [hsame])) (by simp) ?_)
      rw [ht]
      exact hidle
    | moved _ hdb _ hplain => exact .inl (stays (unwritten hdb) (by simp) (notRecovering hplain))
    | paid _ _ _ hdb hnow _ =>
      refine .inl (stays (unwritten hdb) (by simp) ?_)
      rw [hnow]
      exact fun _ _ h => by cases h
    | provisioned fault answer _ hdb hplain =>
      obtain ⟨events, hwrites, htype⟩ := provision_writes fault t.ref _ t.amount answer w.db
      rw [← hdb] at hwrites
      refine .inl (stays hwrites (fun r hr hs => ?_) (notRecovering hplain))
      rw [htype r hr] at hs
      exact absurd hs (by decide)
    | @recorded payer org tx e secret hbefore hdb hnow =>
      cases hr : recordOnboardingSettlement e secret org t.amount t.ref payer.address payer.chainId tx w.db with
      | mk outcome db' =>
        rw [hr] at hdb hnow
        cases outcome with
        | error y =>
          have hsame := recordOnboardingSettlement_error (x := y) (by rw [hr])
          rw [hr] at hsame
          refine .inl (stays (unwritten (hdb.trans hsame)) (by simp) ?_)
          rw [hnow]
          exact fun _ _ h => by cases h
        | ok c =>
          refine .inr (hcustody.closed h hi hheader (by rw [hbefore]; rfl) (by rw [hnow]; rfl) ?_)
          simp [Bootstrap.resume, hbefore]
    | recovered e secret hbefore => exact absurd hbefore (hidle _ _)
    | @audited payer org audit fault eventId hbefore hdb hnow =>
      by_cases hstatus : audit.settlementStatus = "credit_failed"
      · refine .inr (hcustody.closed h hi hheader (by rw [hbefore]; rfl) ?_ ?_)
        · rw [hnow, onAudited, if_pos hstatus]
          rfl
        · simp [Bootstrap.resume, hbefore]
      · have hphase : ∀ initial tx, (t.resume f checksum w (.audited fault eventId)).2.phase ≠ .recovering initial tx := by
          rw [hnow, onAudited, if_neg hstatus]
          split_ifs <;> exact fun _ _ h => by cases h
        rcases audit_writes fault (settlementRow eventId org t.ref payer t.amount audit) w.db with ⟨-, hout⟩ | ⟨-, hout⟩
        · exact .inl (stays (unwritten (hdb.trans hout)) (by simp) hphase)
        · rw [← hdb] at hout
          refine .inl (stays hout (fun r hr _ => ?_) hphase)
          rw [mem_singleton.1 hr]
          exact hstatus
  · have hne : t.ref ≠ paymentRef h := fun heq => hheader (halone t hmem heq)
    obtain ⟨rows, events, hwrites⟩ := resume_writes f checksum w t a
    obtain ⟨hcredits, hevents⟩ := hwrites.apart hne
    refine .inl ⟨hcredits.trans hw.uncredited, fun r hr => hw.unfailed r (hevents ▸ hr), fun c hc hc' => ?_⟩
    rcases Locks.mem_set hi hc with rfl | hc
    · rw [hheader'] at hc'
      exact absurd hc' hheader
    · exact hw.idle c (mem_of_mem_eraseIdx hc) hc'

/-- until the failed credit of the payment is recorded -/
structure Pending (w : World x A) : Prop where
  custody : Custody w
  alone : Alone h w
  paid : Paid w
  state : Open h w ∨ Closed h w

theorem step_pending (hw : Pending h w) {act : Act}
    (hact : ∀ header, act.header? = some header → paymentRef header = paymentRef h → header = h) :
    Pending h (step f checksum w act) := by
  refine ⟨step_custody f checksum hw.custody act, step_alone f checksum h hw.alone act hact, step_paid f checksum hw.paid act, ?_⟩
  rcases hw.state with hopen | hclosed
  · cases act with
    | present header q fault unhealthyUntil now => exact .inl (hopen.present f checksum h header q fault unhealthyUntil now)
    | answer i a =>
      cases hi : w.tasks[i]? with
      | none => rw [step, hi]; exact .inl hopen
      | some t => exact hopen.answer f checksum h hw.custody hw.alone hi a
  · exact .inr (step_closed f checksum h hclosed act)

/-! ## After it was recorded -/

/-- the first `provisioned` event of a payment -/
def firstProvisioned (events : List ProvisioningRow) : Option ProvisioningRow :=
  events.find? (fun r => r.eventType = "provisioned")

/-- the payment is as it was left: its events are `events` -/
structure Uncredited (events : List ProvisioningRow) (w : World x A) : Prop where
  credits : creditsOf (paymentRef h) w.db = []
  events : eventsOf (paymentRef h) w.db = events

/-- the payment was credited once, to `org` with `amount`, and a call has returned the org's credential -/
structure Delivered (org : String) (amount : ℤ) (w : World x A) : Prop where
  once : ∃ row, creditsOf (paymentRef h) w.db = [row] ∧ IsCredit org amount row
  returned : ∃ t ∈ w.tasks, t.header = h ∧ ∃ c s, t.phase = .issued c s ∧ c.orgId = org

/-- delivered to the org and with the amount of the payment's `provisioned` event -/
structure Settled (events : List ProvisioningRow) (w : World x A) : Prop where
  delivered : ∃ p, firstProvisioned events = some p ∧ Delivered h p.orgId p.amountUsdc w
  more : ∃ later, eventsOf (paymentRef h) w.db = events ++ later

/-- what a call that recovers the payment carries -/
structure Recovers (events : List ProvisioningRow) (t : Bootstrap x.Payload) (initial : ProvisioningRow) (tx : String) :
    Prop where
  first : firstProvisioned events = some initial
  method : initial.method = "x402"
  amount : t.amount = initial.amountUsdc
  positive : 0 < t.amount
  chain : chainIdFromNetwork t.network = some initial.chainId
  tx : tx ≠ ""

structure After (events : List ProvisioningRow) (w : World x A) : Prop where
  closed : Closed h w
  alone : Alone h w
  state : Uncredited h events w ∨ Settled h events w
  recovering : ∀ t ∈ w.tasks, t.header = h → ∀ initial tx, t.phase = .recovering initial tx → Recovers events t initial tx

variable {h} {events : List ProvisioningRow}

omit [DecidableEq A] in
theorem After.firstProvisioned_eq (hw : After h events w) {p : ProvisioningRow}
    (hp : firstProvisioned (eventsOf (paymentRef h) w.db) = some p) : firstProvisioned events = some p := by
  rcases hw.state with hun | ⟨⟨p', hp', -⟩, later, hlater⟩
  · rwa [hun.events] at hp
  · rw [hlater, firstProvisioned, find?_append, show find? _ events = some p' from hp'] at hp
    rw [hp', ← hp]
    rfl

omit [DecidableEq A] in
theorem After.opened (hw : After h events w) {q : Quote} {fault : Bool} {unhealthyUntil : List ℚ} {now : ℚ}
    (hphase : (openCall (x := x) checksum w.db h q fault unhealthyUntil now).phase = .recovering initial tx) :
    Recovers events (openCall (x := x) checksum w.db h q fault unhealthyUntil now) initial tx := by
  obtain ⟨reqs, s, hq, -, hs, hrec, hamount, hnetwork⟩ := openCall_recovering checksum hphase
  obtain ⟨hfirst, -⟩ := provisioningState_some hs
  obtain ⟨latest, -, -, hinitial, htx, hmethod, hchain, hamount'⟩ := recovers_some hrec
  refine ⟨?_, hmethod, hamount.trans hamount'.symm, ?_, by rw [hnetwork]; exact hchain, htx⟩
  · rw [hinitial]
    exact hw.firstProvisioned_eq hfirst
  · rw [hamount]
    unfold bootstrapPaymentRequirements at hq
    split_ifs at hq with hpos
    exact not_le.1 hpos

omit [DecidableEq A] in
theorem Delivered.mono {org : String} {amount : ℤ} (hw : Delivered h org amount w)
    (hcredits : creditsOf (paymentRef h) w'.db = creditsOf (paymentRef h) w.db)
    (htasks : ∀ t ∈ w.tasks, t.header = h → (∃ c s, t.phase = .issued c s) → t ∈ w'.tasks) : Delivered h org amount w' := by
  obtain ⟨row, hrow, hcredit⟩ := hw.once
  obtain ⟨t, ht, hheader, c, s, hphase, horg⟩ := hw.returned
  exact ⟨⟨row, hcredits.trans hrow, hcredit⟩, t, htasks t ht hheader ⟨c, s, hphase⟩, hheader, c, s, hphase, horg⟩

omit [DecidableEq A] in
/-- the state of the payment where its rows are as they were and no call forgets a credential -/
theorem After.carry (hw : After h events w) (hclosed : Closed h w') (halone : Alone h w')
    (hcredits : creditsOf (paymentRef h) w'.db = creditsOf (paymentRef h) w.db)
    (hevents : eventsOf (paymentRef h) w'.db = eventsOf (paymentRef h) w.db)
    (htasks : ∀ t ∈ w.tasks, t.header = h → (∃ c s, t.phase = .issued c s) → t ∈ w'.tasks)
    (hrecovering : ∀ t ∈ w'.tasks, t.header = h → ∀ initial tx, t.phase = .recovering initial tx → Recovers events t initial tx) :
    After h events w' ∧ (Uncredited h events w → Uncredited h events w') ∧ (Settled h events w → Settled h events w') := by
  have hun : Uncredited h events w → Uncredited h events w' :=
    fun hu => ⟨hcredits.trans hu.credits, hevents.trans hu.events⟩
  have hset : Settled h events w → Settled h events w' := by
    rintro ⟨⟨p, hp, hdelivered⟩, later, hlater⟩
    exact ⟨⟨p, hp, hdelivered.mono hcredits htasks⟩, later, hevents.trans hlater⟩
  exact ⟨⟨hclosed, halone, hw.state.imp hun hset, hrecovering⟩, hun, hset⟩

/-- the credit of a recovering call goes through -/
structure CreditedBy (w : World x A) (act : Act) : Prop where
  witness : ∃ (i : ℕ) (e : Env) (secret : FreshSecret) (t : Bootstrap x.Payload) (initial : ProvisioningRow) (tx : String),
    act = .answer i (.recorded e secret) ∧ w.tasks[i]? = some t ∧ t.header = h ∧ t.phase = .recovering initial tx ∧
      (recordOnboardingSettlement e secret initial.orgId t.amount t.ref initial.payerAddress
        ((chainIdFromNetwork t.network).getD 0) tx w.db).1.isOk = true

/-- what a step does to the payment -/
structure Goes (events : List ProvisioningRow) (w w' : World x A) (act : Act) : Prop where
  after : After h events w'
  settled : Settled h events w → Settled h events w'
  uncredited : Uncredited h events w → Uncredited h events w' ∨ (CreditedBy (h := h) w act ∧ Settled h events w')

omit [DecidableEq A] in
theorem Goes.of_carry {act : Act}
    (hc : After h events w' ∧ (Uncredited h events w → Uncredited h events w') ∧ (Settled h events w → Settled h events w')) :
    Goes (h := h) events w w' act :=
  ⟨hc.1, hc.2.2, fun hu => .inl (hc.2.1 hu)⟩

theorem After.present (hw : After h events w) (header : String) (q : Quote) (fault : Bool) (unhealthyUntil : List ℚ)
    (now : ℚ) (hheader : paymentRef header = paymentRef h → header = h) :
    Goes (h := h) events w (step f checksum w (.present header q fault unhealthyUntil now))
      (.present header q fault unhealthyUntil now) := by
  refine .of_carry (hw.carry (step_closed f checksum h hw.closed _) (step_alone f checksum h hw.alone _ ?_) rfl rfl
    (fun t ht _ _ => mem_append_left _ ht) ?_)
  · intro header' heq
    cases heq
    exact hheader
  · intro t ht hmine initial tx hphase
    rcases mem_append.1 ht with ht | ht
    · exact hw.recovering t ht hmine initial tx hphase
    · rw [mem_singleton.1 ht] at hmine hphase ⊢
      rw [openCall_header] at hmine
      subst hmine
      exact hw.opened checksum hphase

theorem After.other (hw : After h events w) (hi : w.tasks[i]? = some t) (a : Answer) (hheader : t.header ≠ h) :
    Goes (h := h) events w (step f checksum w (.answer i a)) (.answer i a) := by
  have hne : t.ref ≠ paymentRef h := fun heq => hheader (hw.alone t (mem_of_getElem? hi) heq)
  obtain ⟨rows, new, hwrites⟩ := resume_writes f checksum w t a
  obtain ⟨hcredits, hevents⟩ := hwrites.apart hne
  have halone := step_alone f checksum h hw.alone (.answer i a) nofun
  have hclosed := step_closed f checksum h hw.closed (.answer i a)
  obtain ⟨hheader', -, -, -⟩ := resume_frame f checksum w t a
  rw [step_answer f checksum hi] at halone hclosed ⊢
  refine .of_carry (hw.carry hclosed halone hcredits hevents ?_ ?_)
  · intro u hu hmine _
    refine Locks.mem_set_of_ne hi hu ?_
    rintro rfl
    exact hheader hmine
  · intro c hc hmine initial tx hphase
    rcases Locks.mem_set hi hc with rfl | hc
    · exact absurd (hheader'.symm.trans hmine) hheader
    · exact hw.recovering c (mem_of_mem_eraseIdx hc) hmine initial tx hphase

omit [DecidableEq A] in
theorem After.credited (hw : After h events w) (hi : w.tasks[i]? = some t) (hheader : t.header = h)
    (hphase : t.phase = .recovering initial tx) {e : Env} {secret : FreshSecret}
    (hnone : creditsOf (paymentRef h) w.db = []) {c : CredentialRow} {s : Option String} {db' : Db}
    (hr : recordOnboardingSettlement e secret initial.orgId t.amount t.ref initial.payerAddress ((chainIdFromNetwork t.network).getD 0) tx w.db = (.ok (c, s), db')) :
    Settled h events { w with db := db', tasks := w.tasks.set i { t with phase := .issued c s } } := by
  have hrec := hw.recovering t (mem_of_getElem? hi) hheader initial tx hphase
  have href : t.ref = paymentRef h := congrArg paymentRef hheader
  obtain ⟨horg, hrows⟩ := recorded_ok hr
  rw [href] at hrows
  obtain ⟨-, row, new, hcredit, hwrites⟩ := hrows.resolve_left (by rintro ⟨row, rest, hrow, -⟩; rw [hnone] at hrow; cases hrow)
  have hcredits := hwrites.creditsOf
  rw [hnone, nil_append] at hcredits
  -- the payment had no row, so its events are those it was left with
  have hun : Uncredited h events w := by
    rcases hw.state with hun | ⟨⟨p, -, ⟨row', hrow', -⟩, -⟩, -⟩
    · exact hun
    · rw [hnone] at hrow'
      cases hrow'
  refine ⟨⟨initial, hrec.first, ⟨row, hcredits, ?_⟩, { t with phase := .issued c s }, ?_, hheader, c, s, rfl, horg⟩, new, ?_⟩
  · rw [← hrec.amount]
    exact hcredit
  · exact List.mem_set (List.getElem?_eq_some_iff.1 hi).1 _
  · have hevents := hwrites.eventsOf
    rw [hun.events] at hevents
    exact hevents

theorem After.recovered (hw : After h events w) (hi : w.tasks[i]? = some t) (hheader : t.header = h)
    (hphase : t.phase = .recovering initial tx) (e : Env) (secret : FreshSecret) :
    Goes (h := h) events w (step f checksum w (.answer i (.recorded e secret))) (.answer i (.recorded e secret)) := by
  have href : t.ref = paymentRef h := congrArg paymentRef hheader
  have halone := step_alone f checksum h hw.alone (.answer i (.recorded e secret)) (fun _ h => by cases h)
  have hclosed := step_closed f checksum h hw.closed (.answer i (.recorded e secret))
  have hby : ∀ r, recordOnboardingSettlement e secret initial.orgId t.amount t.ref initial.payerAddress
      ((chainIdFromNetwork t.network).getD 0) tx w.db = r → r.1.isOk = true →
      CreditedBy (h := h) w (.answer i (.recorded e secret)) :=
    fun r hr hok => ⟨i, e, secret, t, initial, tx, rfl, hi, hheader, hphase, by rw [hr]; exact hok⟩
  rw [step_answer f checksum hi] at halone hclosed ⊢
  simp only [Bootstrap.resume, hphase] at halone hclosed ⊢
  have keeps : ∀ {t' : Bootstrap x.Payload}, ∀ u ∈ w.tasks, u.header = h → (∃ c s, u.phase = .issued c s) →
      u ∈ w.tasks.set i t' := by
    rintro t' u hu - ⟨c, s, hissued⟩
    refine Locks.mem_set_of_ne hi hu ?_
    rintro rfl
    rw [hphase] at hissued
    cases hissued
  have recovering : ∀ {t' : Bootstrap x.Payload}, (∀ initial tx, t'.phase ≠ .recovering initial tx) →
      ∀ c ∈ w.tasks.set i t', c.header = h → ∀ initial tx, c.phase = .recovering initial tx →
        Recovers events c initial tx := by
    intro t' ht' c hc hmine initial' tx' hc'
    rcases Locks.mem_set hi hc with rfl | hc
    · exact absurd hc' (ht' _ _)
    · exact hw.recovering c (mem_of_mem_eraseIdx hc) hmine initial' tx' hc'
  cases hr : recordOnboardingSettlement e secret initial.orgId t.amount t.ref initial.payerAddress
      ((chainIdFromNetwork t.network).getD 0) tx w.db with
  | mk outcome db' =>
    rw [hr] at halone hclosed
    cases outcome with
    | error y =>
      have hsame := recordOnboardingSettlement_error (x := y) (by rw [hr])
      rw [hr] at hsame
      subst hsame
      exact .of_carry (hw.carry hclosed halone rfl rfl keeps (recovering (fun _ _ h => by cases h)))
    | ok c =>
      obtain ⟨c, s⟩ := c
      obtain ⟨horg, hrows⟩ := recorded_ok hr
      rw [href] at hrows
      rcases hrows with ⟨row, rest, hrow, hwrites⟩ | ⟨hnone, row, new, hcredit, hwrites⟩
      · have hcredits := hwrites.creditsOf
        have hevents := hwrites.eventsOf
        rw [append_nil] at hcredits hevents
        exact .of_carry (hw.carry hclosed halone hcredits hevents keeps (recovering (fun _ _ h => by cases h)))
      · have hset : Settled h events
            { w with db := db', tasks := w.tasks.set i { t with phase := onRecovered (.ok (c, s)) } } :=
          hw.credited hi hheader hphase hnone hr
        exact ⟨⟨hclosed, halone, .inr hset, recovering (fun _ _ h => by cases h)⟩, fun _ => hset, fun _ => .inr ⟨hby _ hr rfl, hset⟩⟩

/-- **What a step does to a payment whose credit failed.** -/
theorem step_after (hw : After h events w) (act : Act)
    (hact : ∀ header, act.header? = some header → paymentRef header = paymentRef h → header = h) :
    Goes (h := h) events w (step f checksum w act) act := by
  cases act with
  | present header q fault unhealthyUntil now => exact hw.present f checksum header q fault unhealthyUntil now (hact header rfl)
  | answer i a =>
    cases hi : w.tasks[i]? with
    | none =>
      have hsame : step f checksum w (.answer i a) = w := by simp only [step, hi]
      rw [hsame]
      exact ⟨hw, id, .inl⟩
    | some t =>
      by_cases hheader : t.header = h
      · have hmem := mem_of_getElem? hi
        have hunheld : t.phase.holds ≠ true := by
          intro hheld
          refine hw.closed.unheld t hmem ?_
          rw [lock_of_holds hheld, hheader]
        have hclosed := step_closed f checksum h hw.closed (.answer i a)
        have halone := step_alone f checksum h hw.alone (.answer i a) (fun _ h => by cases h)
        have hstep := step_answer f checksum hi a
        cases resumed f checksum w t a with
        | ignored _ hsame ht =>
          rw [hsame, ht, Locks.set_self hi] at hstep
          rw [hstep]
          exact ⟨hw, id, .inl⟩
        | moved _ hdb hplain hplain' =>
          rw [hstep] at hclosed halone ⊢
          refine .of_carry (hw.carry hclosed halone (by simp only [hdb]) (by simp only [hdb]) ?_ ?_)
          · rintro u hu - ⟨c, s, hissued⟩
            refine Locks.mem_set_of_ne hi hu ?_
            rintro rfl
            rw [hissued] at hplain
            cases hplain
          · intro c hc hmine initial tx hphase
            rcases Locks.mem_set hi hc with rfl | hc
            · rw [hphase] at hplain'
              cases hplain'
            · exact hw.recovering c (mem_of_mem_eraseIdx hc) hmine initial tx hphase
        | paid _ _ hphase => exact absurd (by rw [hphase]; rfl) hunheld
        | provisioned _ _ hphase => exact absurd (by rw [hphase]; rfl) hunheld
        | recorded _ _ hphase => exact absurd (by rw [hphase]; rfl) hunheld
        | audited _ _ hphase => exact absurd (by rw [hphase]; rfl) hunheld
        | recovered e secret hphase => exact hw.recovered f checksum hi hheader hphase e secret
      · exact hw.other f checksum hi a hheader

end Machine

end Teardrop.Onboarding
