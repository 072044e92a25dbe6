/-
A payment that was settled on chain and whose credit failed: what later presentations of its header do. A later call credits
the payment only if it is quoted the very amount that was recorded, on the recorded chain (`recovers`); otherwise it goes on
to `verify_payment`, which turns a spent authorization away. The amount is quoted anew at every presentation.
-/
import Teardrop.Onboarding.Stranded

namespace Teardrop.Onboarding

open Teardrop.Py Teardrop.Billing List Sample

section Machine

variable {x : Package} {A : Type} [DecidableEq A] (f : Facilitator x A) (checksum : String → Option String)

variable {h : String} {events : List ProvisioningRow}

/-! ## Runs -/

/-- the quote names the amount and the chain of the payment -/
structure Matches (q : Quote) (p : ProvisioningRow) : Prop where
  amount : ∃ reqs, bootstrapPaymentRequirements q = .ok (p.amountUsdc, reqs)
  chain : chainIdFromNetwork q.x402Network = some p.chainId

/-- the act answers the credit of call `i` -/
def Act.records (i : ℕ) : Act → Bool
  | .answer j (.recorded _ _) => j = i
  | _ => false

variable (h)

/-- one presentation of the header is quoted what was recorded, and the database accepts its credit -/
def Retried (w : World x A) (p : ProvisioningRow) (acts : List Act) : Prop :=
  ∃ before q unhealthyUntil now between e secret later, acts = before ++ .present h q false unhealthyUntil now ::
      (between ++ .answer (run f checksum w before).tasks.length (.recorded e secret) :: later) ∧
    Matches q p ∧ (∀ act ∈ between, act.records (run f checksum w before).tasks.length = false) ∧
    Commits e p.orgId p.amountUsdc p.chainId
      (run f checksum w (before ++ .present h q false unhealthyUntil now :: between)).db

variable {h}

theorem run_cons (w : World x A) (act : Act) (acts : List Act) :
    run f checksum w (act :: acts) = run f checksum (step f checksum w act) acts := rfl

theorem run_append (w : World x A) (acts acts' : List Act) :
    run f checksum w (acts ++ acts') = run f checksum (run f checksum w acts) acts' :=
  Runs.run_append (step f checksum) w acts acts'

variable {w : World x A} {t : Bootstrap x.Payload} {initial : ProvisioningRow} {tx : String} {p : ProvisioningRow}

theorem run_after (hw : After h events w) (acts : List Act) (hacts : Collisionless h acts) :
    After h events (run f checksum w acts) := by
  induction acts generalizing w with
  | nil => exact hw
  | cons act acts ih =>
    exact ih (step_after f checksum hw act (hacts act mem_cons_self)).after (fun a ha => hacts a (mem_cons_of_mem _ ha))

theorem run_settled (hw : After h events w) (hset : Settled h events w) (acts : List Act) (hacts : Collisionless h acts) :
    Settled h events (run f checksum w acts) := by
  induction acts generalizing w with
  | nil => exact hset
  | cons act acts ih =>
    have hstep := step_after f checksum hw act (hacts act mem_cons_self)
    exact ih hstep.after (hstep.settled hset) (fun a ha => hacts a (mem_cons_of_mem _ ha))

theorem step_waits {i : ℕ} (hi : w.tasks[i]? = some t) (hphase : t.phase = .recovering initial tx) {act : Act}
    (hact : act.records i = false) : (step f checksum w act).tasks[i]? = some t := by
  cases act with
  | present header q fault unhealthyUntil now =>
    have hlt := (List.getElem?_eq_some_iff.1 hi).1
    show (w.tasks ++ _)[i]? = _
    rw [getElem?_append_left hlt]
    exact hi
  | answer j a =>
    by_cases hij : j = i
    · subst hij
      have hsame : (t.resume f checksum w a).2 = t := by
        cases a with
        | recorded e secret => simp [Act.records] at hact
        | _ => simp only [Bootstrap.resume, hphase]
      rw [step_answer f checksum hi, hsame]
      simp [Locks.set_self hi, hi]
    · cases hj : w.tasks[j]? with
      | none => rw [step, hj]; exact hi
      | some u =>
        rw [step_answer f checksum hj]
        simp [getElem?_set_ne hij, hi]

theorem run_waits {i : ℕ} (hphase : t.phase = .recovering initial tx) (acts : List Act) (hi : w.tasks[i]? = some t)
    (hacts : ∀ act ∈ acts, act.records i = false) : (run f checksum w acts).tasks[i]? = some t := by
  induction acts generalizing w with
  | nil => exact hi
  | cons act acts ih =>
    exact ih (step_waits f checksum hi hphase (hacts act mem_cons_self)) (fun a ha => hacts a (mem_cons_of_mem _ ha))

theorem paymentRef_ne (header : String) : paymentRef header ≠ "" := by
  intro heq
  have := congrArg String.length heq
  rw [paymentRef, String.length_append] at this
  simp at this

omit [DecidableEq A] in
theorem After.commits (hw : After h events w) (hun : Uncredited h events w) (ht : t ∈ w.tasks) (hheader : t.header = h)
    (hphase : t.phase = .recovering initial tx) (e : Env) (secret : FreshSecret) :
    (recordOnboardingSettlement e secret initial.orgId t.amount t.ref initial.payerAddress
      ((chainIdFromNetwork t.network).getD 0) tx w.db).1.isOk = true ↔
    Commits e initial.orgId initial.amountUsdc initial.chainId w.db := by
  have hrec := hw.recovering t ht hheader initial tx hphase
  have href : t.ref = paymentRef h := congrArg paymentRef hheader
  rw [hrec.chain, Option.getD_some, ← hrec.amount]
  refine commits_iff (by rw [href]; exact hun.credits) hrec.positive (by rw [href]; exact paymentRef_ne h) hrec.tx

/-- the latest settlement event says that the credit failed, and names the transaction that paid -/
def CreditFailed (events : List ProvisioningRow) : Prop :=
  ∃ latest, (events.filter (fun r => r.eventType = "settlement")).getLast? = some latest ∧
    latest.settlementStatus = "credit_failed" ∧ latest.settlementTx ≠ ""

omit [DecidableEq A] in
theorem openCall_of_matches (hun : Uncredited h events w) (hfailed : CreditFailed events)
    (hp : firstProvisioned events = some p) (hmethod : p.method = "x402") {q : Quote} (hq : Matches q p)
    (unhealthyUntil : List ℚ) (now : ℚ) :
    ∃ tx, (openCall (x := x) checksum w.db h q false unhealthyUntil now).phase = .recovering p tx := by
  obtain ⟨reqs, hreqs⟩ := hq.amount
  obtain ⟨latest, hlatest, hstatus, htx⟩ := hfailed
  have hmem : p ∈ eventsOf (paymentRef h) w.db := by
    rw [hun.events]
    exact mem_of_find?_eq_some hp
  have hrefp : p.paymentRef = paymentRef h := of_decide_eq_true (mem_filter.1 hmem).2
  have hstate : provisioningState (paymentRef h) w.db = some ⟨p, some latest⟩ := by
    rw [provisioningState, hun.events, show find? _ events = some p from hp, hlatest]
    rfl
  have hrec : recovers q.x402Network (paymentRef h) p.amountUsdc ⟨p, some latest⟩ = some (p, latest.settlementTx) := by
    simp only [recovers, hq.chain]
    rw [if_pos ⟨hmethod, hstatus, htx, hrefp, trivial, trivial⟩]
  refine ⟨latest.settlementTx, ?_⟩
  unfold openCall
  rw [hreqs]
  simp only [Bool.false_eq_true, if_false, hstate, Option.bind_some, hrec]

/-- **A matching presentation is enough.** -/
theorem settled_of_retried (hw : After h events w) (hfailed : CreditFailed events) (hp : firstProvisioned events = some p)
    (hmethod : p.method = "x402") {acts : List Act} (hacts : Collisionless h acts)
    (hretried : Retried f checksum h w p acts) : Settled h events (run f checksum w acts) := by
  obtain ⟨before, q, unhealthyUntil, now, between, e, secret, later, rfl, hq, hwaits, hcommits⟩ := hretried
  have hbefore : Collisionless h before := fun a ha => hacts a (mem_append_left _ ha)
  have hrest : Collisionless h (.present h q false unhealthyUntil now ::
      (between ++ .answer (run f checksum w before).tasks.length (.recorded e secret) :: later)) :=
    fun a ha => hacts a (mem_append_right _ ha)
  have hafter := run_after f checksum hw before hbefore
  rw [run_append]
  rcases hafter.state with hun' | hset
  · -- the call recovers, and waits until its credit is answered
    generalize hwb : run f checksum w before = wb at *
    obtain ⟨tx, hphase⟩ := openCall_of_matches checksum hun' hfailed hp hmethod hq unhealthyUntil now
    have hfirst := (step_after f checksum hafter (.present h q false unhealthyUntil now) (hrest _ mem_cons_self)).after
    have hi : (step f checksum wb (.present h q false unhealthyUntil now)).tasks[wb.tasks.length]? =
        some (openCall checksum wb.db h q false unhealthyUntil now) := by
      show (wb.tasks ++ [_])[wb.tasks.length]? = _
      rw [getElem?_concat_length]
    have hbetween : Collisionless h between :=
      fun a ha => hrest a (mem_cons_of_mem _ (mem_append_left _ ha))
    have hlater : Collisionless h later :=
      fun a ha => hrest a (mem_cons_of_mem _ (mem_append_right _ (mem_cons_of_mem _ ha)))
    have hwait := run_waits f checksum hphase between hi hwaits
    have hmid := run_after f checksum hfirst between hbetween
    rw [run_append, hwb, run_cons] at hcommits
    rw [run_cons, run_append, run_cons]
    generalize run f checksum (step f checksum wb (.present h q false unhealthyUntil now)) between = wm at *
    have hstep := step_after f checksum hmid (.answer wb.tasks.length (.recorded e secret)) nofun
    refine run_settled f checksum hstep.after ?_ later hlater
    rcases hmid.state with hunm | hsetm
    · have hheader := openCall_header (x := x) checksum wb.db h q false unhealthyUntil now
      have hok := (hmid.commits hunm (mem_of_getElem? hwait) hheader hphase e secret).2 hcommits
      rw [step_answer f checksum hwait]
      simp only [Bootstrap.resume, hphase]
      cases hr : recordOnboardingSettlement e secret p.orgId
          (openCall (x := x) checksum wb.db h q false unhealthyUntil now).amount
          (openCall (x := x) checksum wb.db h q false unhealthyUntil now).ref p.payerAddress
          ((chainIdFromNetwork (openCall (x := x) checksum wb.db h q false unhealthyUntil now).network).getD 0) tx wm.db with
      | mk outcome db' =>
        rw [hr] at hok
        cases outcome with
        | error y => cases hok
        | ok c => exact hmid.credited hwait hheader hphase hunm.credits hr
    · exact hstep.settled hsetm
  · exact run_settled f checksum hafter hset _ hrest

/-- the calls that recover were quoted what was recorded, and still wait -/
def Quoted (w : World x A) (acts : List Act) : Prop :=
  ∀ i t initial tx, (run f checksum w acts).tasks[i]? = some t → t.header = h → t.phase = .recovering initial tx →
    ∃ before q unhealthyUntil now between, acts = before ++ .present h q false unhealthyUntil now :: between ∧
      (run f checksum w before).tasks.length = i ∧ Matches q initial ∧ ∀ act ∈ between, act.records i = false

theorem quoted_snoc {acts : List Act} (hquoted : Quoted (h := h) f checksum w acts) (act : Act) :
    Quoted (h := h) f checksum w (acts ++ [act]) := by
  intro i t initial tx hi hheader hphase
  rw [run_append, run_cons] at hi
  change (step f checksum (run f checksum w acts) act).tasks[i]? = some t at hi
  -- a call that was there before, still waiting
  have before : ∀ t₀, (run f checksum w acts).tasks[i]? = some t₀ → t₀.header = h → t₀.phase = .recovering initial tx →
      act.records i = false → ∃ before q unhealthyUntil now between,
        acts ++ [act] = before ++ .present h q false unhealthyUntil now :: between ∧
        (run f checksum w before).tasks.length = i ∧ Matches q initial ∧ ∀ act ∈ between, act.records i = false := by
    intro t₀ hi₀ hheader₀ hphase₀ hact
    obtain ⟨pre, q, unhealthyUntil, now, between, rfl, hlen, hq, hwaits⟩ := hquoted i t₀ initial tx hi₀ hheader₀ hphase₀
    refine ⟨pre, q, unhealthyUntil, now, between ++ [act], by simp, hlen, hq, fun a ha => ?_⟩
    rcases mem_append.1 ha with ha | ha
    · exact hwaits a ha
    · rw [mem_singleton.1 ha]
      exact hact
  cases act with
  | present header q fault unhealthyUntil now =>
    change ((run f checksum w acts).tasks ++ [openCall checksum _ header q fault unhealthyUntil now])[i]? = some t at hi
    by_cases hlt : i < (run f checksum w acts).tasks.length
    · rw [getElem?_append_left hlt] at hi
      exact before t hi hheader hphase rfl
    · obtain ⟨hle, hnew⟩ := List.getElem?_eq_some_iff.1 hi
      have hlen : i = (run f checksum w acts).tasks.length := by
        rw [length_append, length_singleton] at hle
        omega
      subst hlen
      rw [getElem_concat_length rfl] at hnew
      subst hnew
      rw [openCall_header] at hheader
      subst hheader
      obtain ⟨reqs, s, hq, hfault, -, hrec, -⟩ := openCall_recovering checksum hphase
      obtain ⟨latest, -, -, -, -, -, hchain, hamount⟩ := recovers_some hrec
      subst hfault
      refine ⟨acts, q, unhealthyUntil, now, [], rfl, rfl, ⟨⟨reqs, ?_⟩, hchain⟩, nofun⟩
      rw [hamount]
      exact hq
  | answer j a =>
    cases hj : (run f checksum w acts).tasks[j]? with
    | none =>
      simp only [step, hj] at hi
      refine before t hi hheader hphase ?_
      cases a with
      | recorded e secret =>
        refine decide_eq_false ?_
        rintro rfl
        rw [hj] at hi
        cases hi
      | _ => rfl
    | some u =>
      rw [step_answer f checksum hj] at hi
      by_cases hij : j = i
      · subst hij
        have hlt := (List.getElem?_eq_some_iff.1 hj).1
        simp only [getElem?_set_self hlt, Option.some.injEq] at hi
        subst hi
        obtain ⟨hheader', -, -, -⟩ := resume_frame f checksum (run f checksum w acts) u a
        rw [hheader'] at hheader
        have notPlain : ∀ {p : Phase x.Payload}, p = .recovering initial tx → p.plain ≠ true := by
          rintro p rfl
          exact Bool.false_ne_true
        cases resumed f checksum (run f checksum w acts) u a with
        | ignored _ _ hsame =>
          rw [hsame] at hphase
          refine before u hj hheader hphase ?_
          cases a with
          | recorded e secret =>
            -- the answer it waits for is not ignored
            simp only [Bootstrap.resume, hphase] at hsame
            have := congrArg Bootstrap.phase hsame
            rw [hphase] at this
            simp only [onRecovered] at this
            split at this <;> cases this
          | _ => rfl
        | moved _ _ _ hplain => exact absurd hplain (notPlain hphase)
        | provisioned _ _ _ _ hplain => exact absurd hplain (notPlain hphase)
        | paid _ _ _ _ hnow => rw [hnow] at hphase; cases hphase
        | recorded _ _ _ _ hnow =>
          rw [hnow] at hphase
          unfold onRecorded at hphase
          split at hphase <;> cases hphase
        | recovered _ _ _ _ hnow =>
          rw [hnow] at hphase
          unfold onRecovered at hphase
          split at hphase <;> cases hphase
        | audited _ _ _ _ hnow =>
          rw [hnow, onAudited] at hphase
          split_ifs at hphase
      · simp only [getElem?_set_ne hij] at hi
        refine before t hi hheader hphase ?_
        cases a with
        | recorded e secret => exact decide_eq_false hij
        | _ => rfl

/-- **A matching presentation is needed.** -/
theorem retried_of_settled (hw : After h events w) (hun : Uncredited h events w)
    (hidle : ∀ t ∈ w.tasks, t.header = h → ∀ initial tx, t.phase ≠ .recovering initial tx) (acts : List Act)
    (hacts : Collisionless h acts) : Quoted (h := h) f checksum w acts ∧ (Settled h events (run f checksum w acts) →
      ∃ p, firstProvisioned events = some p ∧ p.method = "x402" ∧ Retried f checksum h w p acts) := by
  induction acts using reverseRecOn with
  | nil =>
    refine ⟨fun i t initial tx hi hheader hphase => absurd hphase (hidle t (mem_of_getElem? hi) hheader _ _), ?_⟩
    rintro ⟨⟨p, -, ⟨row, hrow, -⟩, -⟩, -⟩
    rw [show creditsOf (paymentRef h) (run f checksum w []).db = [] from hun.credits] at hrow
    cases hrow
  | append_singleton acts act ih =>
    have hacts' : Collisionless h acts := fun a ha => hacts a (mem_append_left _ ha)
    obtain ⟨hquoted, hretried⟩ := ih hacts'
    refine ⟨quoted_snoc f checksum hquoted act, fun hset => ?_⟩
    have hafter := run_after f checksum hw acts hacts'
    have hstep := step_after f checksum hafter act (hacts act (mem_append_right _ mem_cons_self))
    rw [run_append, run_cons] at hset
    change Settled h events (step f checksum (run f checksum w acts) act) at hset
    rcases hafter.state with hunc | hsettled
    · rcases hstep.uncredited hunc with hunc' | ⟨⟨i, e, secret, t, initial, tx, rfl, hi, hheader, hphase, hok⟩, -⟩
      · obtain ⟨⟨p, -, ⟨row, hrow, -⟩, -⟩, -⟩ := hset
        rw [hunc'.credits] at hrow
        cases hrow
      · have hmem := mem_of_getElem? hi
        have hrec := hafter.recovering t hmem hheader initial tx hphase
        have hcommits := (hafter.commits hunc hmem hheader hphase e secret).1 hok
        obtain ⟨before, q, unhealthyUntil, now, between, rfl, hlen, hq, hwaits⟩ :=
          hquoted i t initial tx hi hheader hphase
        refine ⟨initial, hrec.first, hrec.method, before, q, unhealthyUntil, now, between, e, secret, [], ?_, hq, ?_, hcommits⟩
        · rw [hlen]
          simp
        · rw [hlen]
          exact hwaits
    · obtain ⟨p, hp, hmethod, before, q, unhealthyUntil, now, between, e, secret, later, rfl, hq, hwaits, hcommits⟩ :=
        hretried hsettled
      exact ⟨p, hp, hmethod, before, q, unhealthyUntil, now, between, e, secret, later ++ [act], by simp, hq, hwaits, hcommits⟩

/-- nobody has presented the header yet, and nothing of its payment is stored -/
structure Unpresented (h : String) (w : World x A) : Prop where
  tasks : w.tasks = []
  credits : creditsOf (paymentRef h) w.db = []
  events : eventsOf (paymentRef h) w.db = []

theorem run_pending (hw : Unpresented h w) (acts : List Act) (hacts : Collisionless h acts) :
    Pending h (run f checksum w acts) := by
  have hstart : Pending h w := by
    have hno : ∀ t, t ∉ w.tasks := by
      rw [hw.tasks]
      exact fun t => not_mem_nil
    refine ⟨⟨?_, fun t ht => absurd ht (hno t)⟩, fun t ht => absurd ht (hno t), fun t ht => absurd ht (hno t),
      Or.inl ⟨hw.credits, ?_, fun t ht => absurd ht (hno t)⟩⟩
    · rw [hw.tasks]
      exact Locks.Exclusive.nil
    · rw [hw.events]
      exact nofun
  clear hw
  induction acts generalizing w with
  | nil => exact hstart
  | cons act acts ih =>
    exact ih (fun a ha => hacts a (mem_cons_of_mem _ ha)) (step_pending f checksum h hstart (hacts act mem_cons_self))

theorem recorded_after (hw : Pending h w) {i : ℕ} (hi : w.tasks[i]? = some t) (hheader : t.header = h) {payer : Payer}
    {org : String} (hphase : t.phase = .auditing payer org ⟨"credit_failed", tx⟩) {fault : Bool} {eventId : String}
    (hok : (call fault (insertEvent (settlementRow eventId org t.ref payer t.amount ⟨"credit_failed", tx⟩)) w.db).1.isOk = true) :
    let w' := step f checksum w (.answer i (.audited fault eventId))
    After h (eventsOf (paymentRef h) w'.db) w' ∧ Uncredited h (eventsOf (paymentRef h) w'.db) w' ∧
      CreditFailed (eventsOf (paymentRef h) w'.db) ∧
      ∀ t ∈ w'.tasks, t.header = h → ∀ initial tx, t.phase ≠ .recovering initial tx := by
  intro w'
  have hmem := mem_of_getElem? hi
  have href : t.ref = paymentRef h := congrArg paymentRef hheader
  have hheld : t.phase.holds = true := by rw [hphase]; rfl
  have hopen : Open h w := by
    refine hw.state.resolve_right (fun hclosed => hclosed.unheld t hmem ?_)
    rw [lock_of_holds hheld, hheader]
  have hstep : w' = { w with
      db := (call fault (insertEvent (settlementRow eventId org t.ref payer t.amount ⟨"credit_failed", tx⟩)) w.db).2
      tasks := w.tasks.set i { t with phase := .refused ⟨503, "Account credit is temporarily unavailable"⟩ } } := by
    show step f checksum w (.answer i (.audited fault eventId)) = _
    rw [step_answer f checksum hi]
    simp [Bootstrap.resume, hphase, onAudited]
  obtain ⟨hbad, -⟩ | ⟨-, hwrites⟩ := audit_writes fault
    (settlementRow eventId org t.ref payer t.amount ⟨"credit_failed", tx⟩) w.db
  · rw [hok] at hbad
    cases hbad
  have hwrites : Writes (paymentRef h) [] [settlementRow eventId org t.ref payer t.amount ⟨"credit_failed", tx⟩] w.db w'.db := by
    rw [hstep, ← href]
    exact hwrites
  have hcredits : creditsOf (paymentRef h) w'.db = [] := by
    rw [hwrites.creditsOf, hopen.uncredited]
    rfl
  have hidle : ∀ t ∈ w'.tasks, t.header = h → ∀ initial tx, t.phase ≠ .recovering initial tx := by
    intro c hc hmine
    rw [hstep] at hc
    rcases Locks.mem_set hi hc with rfl | hc
    · exact fun _ _ h => by cases h
    · exact hopen.idle c (mem_of_mem_eraseIdx hc) hmine
  have hclosed : Closed h w' := by
    have hended : ({ t with phase := .refused ⟨503, "Account credit is temporarily unavailable"⟩ } :
        Bootstrap x.Payload).phase.holds = false := rfl
    have hends := hw.custody.closed h hi hheader hheld hended rfl
    rw [hstep]
    exact ⟨hends.claimed, hends.unheld⟩
  have hun : Uncredited h (eventsOf (paymentRef h) w'.db) w' := ⟨hcredits, rfl⟩
  refine ⟨⟨hclosed, step_alone f checksum h hw.alone _ (fun _ h => by cases h), Or.inl hun,
    fun c hc hmine initial tx hrec => absurd hrec (hidle c hc hmine _ _)⟩, hun, ?_, hidle⟩
  refine ⟨settlementRow eventId org t.ref payer t.amount ⟨"credit_failed", tx⟩, ?_, rfl,
    hw.paid t hmem payer org tx (Or.inr hphase)⟩
  rw [hwrites.eventsOf, filter_append]
  simp [settlementRow]

/-- **A settled payment whose credit failed is recovered exactly when it is quoted again as it was.** Whatever is presented
before, beside and after: the payment is credited once, to its org and with its amount, and a call has returned the org's
credential, if and only if its `provisioned` event names that org and amount, and one later presentation is quoted the recorded
amount on the recorded chain and its credit goes through. -/
theorem payment_recovered_iff (w : World x A) (hw : Unpresented h w) (earlier later : List Act)
    (hacts : Collisionless h (earlier ++ later)) (i : ℕ) (t : Bootstrap x.Payload)
    (hi : (run f checksum w earlier).tasks[i]? = some t) (hheader : t.header = h) (payer : Payer) (org tx : String)
    (hphase : t.phase = .auditing payer org ⟨"credit_failed", tx⟩) (fault : Bool) (eventId : String)
    (hok : (call fault (insertEvent (settlementRow eventId org t.ref payer t.amount ⟨"credit_failed", tx⟩))
      (run f checksum w earlier).db).1.isOk = true) :
    let w₁ := step f checksum (run f checksum w earlier) (.answer i (.audited fault eventId))
    Delivered h org t.amount (run f checksum w₁ later) ↔
      ∃ p, firstProvisioned (eventsOf (paymentRef h) w₁.db) = some p ∧ p.method = "x402" ∧ p.orgId = org ∧
        p.amountUsdc = t.amount ∧ Retried f checksum h w₁ p later := by
  intro w₁
  have hearlier : Collisionless h earlier := fun a ha => hacts a (mem_append_left _ ha)
  have hlater : Collisionless h later := fun a ha => hacts a (mem_append_right _ ha)
  obtain ⟨hafter, hun, hfailed, hidle⟩ :=
    recorded_after f checksum (run_pending f checksum hw earlier hearlier) hi hheader hphase hok
  constructor
  · intro hdelivered
    have hset : Settled h (eventsOf (paymentRef h) w₁.db) (run f checksum w₁ later) := by
      rcases (run_after f checksum hafter later hlater).state with hstill | hset
      · obtain ⟨row, hrow, -⟩ := hdelivered.once
        rw [hstill.credits] at hrow
        cases hrow
      · exact hset
    obtain ⟨p, hp, hmethod, hretried⟩ := (retried_of_settled f checksum hafter hun hidle later hlater).2 hset
    obtain ⟨⟨p', hp', ⟨row, hrow, hcredit⟩, -⟩, -⟩ := hset
    obtain ⟨row', hrow', hcredit'⟩ := hdelivered.once
    rw [hp] at hp'
    cases hp'
    rw [hrow] at hrow'
    cases hrow'
    exact ⟨p, hp, hmethod, hcredit.org.symm.trans hcredit'.org, hcredit.amount.symm.trans hcredit'.amount, hretried⟩
  · rintro ⟨p, hp, hmethod, rfl, hamount, hretried⟩
    obtain ⟨⟨p', hp', hdelivered⟩, -⟩ := settled_of_retried f checksum hafter hfailed hp hmethod hlater hretried
    rw [hp] at hp'
    cases hp'
    rw [← hamount]
    exact hdelivered

end Machine

/-! ## A payment, step by step -/

section Sample

def sampleQuote (price : ℤ) (amount : String) : Quote :=
  ⟨some price, 10000, 0, some [⟨"exact", amount⟩], "eip155:8453"⟩

def samplePayer : Payer := ⟨"0xabABaBAbAbaBaBaBaBAbAbabABABABabABABabab", 8453⟩

def sampleSecret : FreshSecret := ⟨"secret", "hashed", "salt", 0⟩

def sampleProvision : ProvisionAnswer := .created (some ⟨"org", "x402"⟩) "org" 5000000 "event-1"

def failedAudit : Audit := ⟨"credit_failed", "0xf00d"⟩

/-- an empty store -/
def sampleWorld : World samplePackage (ℕ × ℕ) := ⟨Db.empty, Table.empty, [], []⟩

/-- the payment is verified, its org provisioned and the payment settled; then the credit fails -/
def stranding (header : String) : List Act :=
  [.present header (sampleQuote 10000 "10000") false [0] 0, .answer 0 (.verified sampleAnswer [0] 0),
    .answer 0 (.claimed false 0), .answer 0 (.wallet (.unknown false)), .answer 0 (.provisioned false sampleProvision),
    .answer 0 (.settled 1 (.lands (some "0xf00d"))), .answer 0 (.recorded ⟨0, fun _ => "id", fun _ => true⟩ sampleSecret)]

/-- the first call at a phase -/
def firstCall (header : String) (phase : Phase Sample) : Bootstrap samplePackage.Payload :=
  ⟨header, 10000, "eip155:8453", none, phase⟩

def samplePaid : BillingResult Sample := admission Sample.plain ⟨"exact", "10000"⟩ 0 (some samplePayer.address)

/-- the store once the org is provisioned -/
def provisionedDb (ref : String) : Db :=
  (call false (provisionOrgForWallet ref samplePayer 10000 sampleProvision) Db.empty).2

/-- the store once the failed credit is recorded -/
def failedDb (ref : String) : Db :=
  (call false (insertEvent (settlementRow "event-2" "org" ref samplePayer 10000 failedAudit)) (provisionedDb ref)).2

/-- the claim of the header's nonce -/
def sampleNonces (header : String) : Table NonceRow.nonceHash :=
  (claimPaymentNonce true false false 0 (paymentNonceHash samplePackage header) Table.empty).2

/-- the world when the failed credit is to be recorded -/
def strandedWorld (header : String) : World samplePackage (ℕ × ℕ) :=
  ⟨provisionedDb (paymentRef header), sampleNonces header, [(sampleIdentity.payer, sampleIdentity.nonce)],
    [firstCall header (.auditing samplePayer "org" failedAudit)]⟩

variable {header : String}

theorem sampleQuote_ok : bootstrapPaymentRequirements (sampleQuote 10000 "10000") = .ok (10000, [⟨"exact", "10000"⟩]) := by
  decide

theorem sampleQuote_chain : chainIdFromNetwork "eip155:8453" = some 8453 := by decide

theorem openCall_sample (hd : decodeHeader samplePackage header = .ok plain) :
    openCall (x := samplePackage) some Db.empty header (sampleQuote 10000 "10000") false [0] 0 = firstCall header
        (.paying plain (.verifying ⟨"exact", "10000"⟩ [0] [] "No payment requirements matched")) := by
  have hs : provisioningState (paymentRef header) Db.empty = none := rfl
  simp only [openCall, sampleQuote_ok, hs, startPaying, hd, Option.bind_none, Bool.false_eq_true, if_false, firstCall]
  congr

theorem claim_free (hash : String) : (claimPaymentNonce true false false 0 hash Table.empty).1 = .ok true := rfl

theorem stranding_run (hd : decodeHeader samplePackage header = .ok plain) :
    run sampleFacilitator some sampleWorld (stranding header) = strandedWorld header := by
  have hopen : step sampleFacilitator some sampleWorld (.present header (sampleQuote 10000 "10000") false [0] 0) =
      ⟨Db.empty, Table.empty, [], [firstCall header
        (.paying plain (.verifying ⟨"exact", "10000"⟩ [0] [] "No payment requirements matched"))]⟩ := by
    simp [step, sampleWorld, openCall_sample hd]
  have hverified : step sampleFacilitator some ⟨Db.empty, Table.empty, [], [firstCall header
        (.paying plain (.verifying ⟨"exact", "10000"⟩ [0] [] "No payment requirements matched"))]⟩
      (.answer 0 (.verified sampleAnswer [0] 0)) = ⟨Db.empty, Table.empty, [], [firstCall header
        (.paying plain (.claiming ⟨"exact", "10000"⟩ 0 (some samplePayer.address)))]⟩ := rfl
  have hclaimed : step sampleFacilitator some ⟨Db.empty, Table.empty, [], [firstCall header
        (.paying plain (.claiming ⟨"exact", "10000"⟩ 0 (some samplePayer.address)))]⟩
      (.answer 0 (.claimed false 0)) =
      ⟨Db.empty, sampleNonces header, [], [firstCall header (.looking samplePaid samplePayer)]⟩ := by
    rw [step_answer (t := firstCall header _) sampleFacilitator some rfl]
    simp only [Bootstrap.resume, firstCall, claim_free]
    rfl
  have hwallet : step sampleFacilitator some
      ⟨Db.empty, sampleNonces header, [], [firstCall header (.looking samplePaid samplePayer)]⟩
      (.answer 0 (.wallet (.unknown false))) =
      ⟨Db.empty, sampleNonces header, [], [firstCall header (.provisioning samplePaid samplePayer false)]⟩ := rfl
  have hprovisioned : step sampleFacilitator some
      ⟨Db.empty, sampleNonces header, [], [firstCall header (.provisioning samplePaid samplePayer false)]⟩
      (.answer 0 (.provisioned false sampleProvision)) = ⟨provisionedDb (paymentRef header), sampleNonces header, [],
        [firstCall header (.settling samplePaid samplePayer "org")]⟩ := rfl
  have hsettled : step sampleFacilitator some ⟨provisionedDb (paymentRef header), sampleNonces header, [],
        [firstCall header (.settling samplePaid samplePayer "org")]⟩ (.answer 0 (.settled 1 (.lands (some "0xf00d")))) =
      ⟨provisionedDb (paymentRef header), sampleNonces header, [(sampleIdentity.payer, sampleIdentity.nonce)],
        [firstCall header (.crediting samplePayer "org" "0xf00d")]⟩ := rfl
  rw [stranding, run_cons, hopen, run_cons, hverified, run_cons, hclaimed, run_cons, hwallet, run_cons, hprovisioned,
    run_cons, hsettled, run_cons,
    step_answer (t := firstCall header (.crediting samplePayer "org" "0xf00d")) sampleFacilitator some rfl]
  rfl

theorem failedDb_state (ref : String) : provisioningState ref (failedDb ref) =
    some ⟨provisionedRow "event-1" "org" ref samplePayer 10000,
      some (settlementRow "event-2" "org" ref samplePayer 10000 failedAudit)⟩ := by
  have hrows : (failedDb ref).provisioning.rows = [provisionedRow "event-1" "org" ref samplePayer 10000,
      settlementRow "event-2" "org" ref samplePayer 10000 failedAudit] := rfl
  simp [provisioningState, eventsOf, hrows, provisionedRow, settlementRow]

/-- the world once the failed credit is recorded -/
def failedWorld (header : String) : World samplePackage (ℕ × ℕ) :=
  ⟨failedDb (paymentRef header), sampleNonces header, [(sampleIdentity.payer, sampleIdentity.nonce)],
    [firstCall header (.refused ⟨503, "Account credit is temporarily unavailable"⟩)]⟩

theorem failed_run (hd : decodeHeader samplePackage header = .ok plain) :
    step sampleFacilitator some (run sampleFacilitator some sampleWorld (stranding header))
      (.answer 0 (.audited false "event-2")) = failedWorld header := by
  rw [stranding_run hd]
  rfl

theorem repriced_run (hd : decodeHeader samplePackage header = .ok plain) :
    run sampleFacilitator some (failedWorld header) [.present header (sampleQuote 20000 "20000") false [0] 0,
      .answer 1 (.verified sampleAnswer [0] 0)] =
    { failedWorld header with tasks := [firstCall header (.refused ⟨503, "Account credit is temporarily unavailable"⟩),
        ⟨header, 20000, "eip155:8453", provisioningState (paymentRef header) (failedDb (paymentRef header)),
          .refused ⟨402, "Payment verification failed"⟩⟩] } := by
  have hq : bootstrapPaymentRequirements (sampleQuote 20000 "20000") = .ok (20000, [⟨"exact", "20000"⟩]) := by decide
  have hrec : recovers (sampleQuote 20000 "20000").x402Network (paymentRef header) 20000
      ⟨provisionedRow "event-1" "org" (paymentRef header) samplePayer 10000,
        some (settlementRow "event-2" "org" (paymentRef header) samplePayer 10000 failedAudit)⟩ = none := by
    have hchain : chainIdFromNetwork (sampleQuote 20000 "20000").x402Network = some 8453 := sampleQuote_chain
    simp [recovers, hchain, provisionedRow]
  have hsecond : openCall (x := samplePackage) some (failedDb (paymentRef header)) header (sampleQuote 20000 "20000") false
      [0] 0 = ⟨header, 20000, "eip155:8453", provisioningState (paymentRef header) (failedDb (paymentRef header)),
        .paying plain (.verifying ⟨"exact", "20000"⟩ [0] [] "No payment requirements matched")⟩ := by
    simp only [openCall, hq, failedDb_state, Option.bind_some, hrec, Bool.false_eq_true, if_false, startPaying, hd]
    congr
  rw [run_cons, step, failedWorld, hsecond]
  rfl

theorem repriced_lost (hd : decodeHeader samplePackage header = .ok plain) :
    let w := step sampleFacilitator some (run sampleFacilitator some sampleWorld (stranding header))
      (.answer 0 (.audited false "event-2"))
    let w' := run sampleFacilitator some w [.present header (sampleQuote 20000 "20000") false [0] 0,
      .answer 1 (.verified sampleAnswer [0] 0)]
    (sampleIdentity.payer, sampleIdentity.nonce) ∈ w.spent ∧
    (∃ s, provisioningState (paymentRef header) w.db = some s ∧
      s.latestSettlement.map (·.settlementStatus) = some "credit_failed") ∧
    (∃ t, w'.tasks[1]? = some t ∧ t.phase = .refused ⟨402, "Payment verification failed"⟩) ∧
    ¬ Delivered header "org" 10000 w' := by
  simp only [failed_run hd, repriced_run hd]
  refine ⟨mem_cons_self, ⟨_, failedDb_state (paymentRef header), rfl⟩, ⟨_, rfl, rfl⟩, ?_⟩
  rintro ⟨⟨row, hrow, -⟩, -⟩
  cases hrow

/-- **A rise of the price locks the payment out.** The payment of 10000 was settled and its failed credit recorded; the
run price goes up, the header is presented again and refused, and nothing is credited. -/
theorem repriced_payment_lost :
    let w := step sampleFacilitator some (run sampleFacilitator some sampleWorld (stranding plain.header))
      (.answer 0 (.audited false "event-2"))
    let w' := run sampleFacilitator some w [.present plain.header (sampleQuote 20000 "20000") false [0] 0,
      .answer 1 (.verified sampleAnswer [0] 0)]
    (sampleIdentity.payer, sampleIdentity.nonce) ∈ w.spent ∧
    (∃ s, provisioningState (paymentRef plain.header) w.db = some s ∧
      s.latestSettlement.map (·.settlementStatus) = some "credit_failed") ∧
    (∃ t, w'.tasks[1]? = some t ∧ t.phase = .refused ⟨402, "Payment verification failed"⟩) ∧
    ¬ Delivered plain.header "org" 10000 w' :=
  repriced_lost (decodeHeader_sample .plain)

/-- the ids of a call that goes through -/
def sampleEnv : Env := ⟨0, fun n => if n = 0 then "client" else if n = 1 then "ledger" else "event-3", fun _ => false⟩

/-- the header is presented again at the old price, and the credit goes through -/
def again (header : String) : List Act :=
  [.present header (sampleQuote 10000 "10000") false [0] 0, .answer 1 (.recorded sampleEnv sampleSecret)]

theorem again_collisionless (header : String) : Collisionless header (stranding header ++ again header) := by
  intro act hact other hother _
  simp only [stranding, again, cons_append, nil_append, mem_cons, not_mem_nil, or_false] at hact
  rcases hact with rfl | rfl | rfl | rfl | rfl | rfl | rfl | rfl | rfl <;> cases hother <;> rfl

theorem again_retried (header : String) : Retried sampleFacilitator some header (failedWorld header)
      (provisionedRow "event-1" "org" (paymentRef header) samplePayer 10000) (again header) := by
  have hbalance : balance (failedDb (paymentRef header)) "org" = 0 := rfl
  refine ⟨[], sampleQuote 10000 "10000", [0], 0, [], sampleEnv, sampleSecret, [], rfl, ⟨⟨_, sampleQuote_ok⟩, sampleQuote_chain⟩,
    nofun, ?_⟩
  change Commits sampleEnv "org" 10000 8453 (failedDb (paymentRef header))
  refine ⟨rfl, rfl, Or.inr rfl, by decide, ?_, ?_, by decide, rfl⟩
  · rw [hbalance]
    decide
  · exact not_mem_nil

theorem unpresented_sampleWorld (header : String) : Unpresented header sampleWorld := ⟨rfl, rfl, rfl⟩

theorem stranded_call (hd : decodeHeader samplePackage header = .ok plain) :
    (run sampleFacilitator some sampleWorld (stranding header)).tasks[0]? =
      some (firstCall header (.auditing samplePayer "org" ⟨"credit_failed", "0xf00d"⟩)) := by
  rw [stranding_run hd]
  rfl

theorem stranded_audit (hd : decodeHeader samplePackage header = .ok plain) :
    (call false (insertEvent (settlementRow "event-2" "org"
      (firstCall header (.auditing samplePayer "org" ⟨"credit_failed", "0xf00d"⟩)).ref samplePayer
      (firstCall header (.auditing samplePayer "org" ⟨"credit_failed", "0xf00d"⟩)).amount ⟨"credit_failed", "0xf00d"⟩))
      (run sampleFacilitator some sampleWorld (stranding header)).db).1.isOk = true := by
  rw [stranding_run hd]
  rfl

theorem again_provisioned (hd : decodeHeader samplePackage header = .ok plain) :
    let w₁ := step sampleFacilitator some (run sampleFacilitator some sampleWorld (stranding header))
      (.answer 0 (.audited false "event-2"))
    ∃ p, firstProvisioned (eventsOf (paymentRef header) w₁.db) = some p ∧ p.method = "x402" ∧ p.orgId = "org" ∧
      p.amountUsdc = (firstCall header (.auditing samplePayer "org" ⟨"credit_failed", "0xf00d"⟩)).amount ∧
      Retried sampleFacilitator some header w₁ p (again header) := by
  simp only [failed_run hd]
  exact ⟨_, (provisioningState_some (failedDb_state (paymentRef header))).1, rfl, rfl, rfl, again_retried header⟩

/-- at the old price the payment is recovered -/
theorem payment_recovered_iff_same_price : Delivered Sample.plain.header "org" 10000 (run sampleFacilitator some
      (step sampleFacilitator some (run sampleFacilitator some sampleWorld (stranding Sample.plain.header))
        (.answer 0 (.audited false "event-2"))) (again Sample.plain.header)) :=
  (payment_recovered_iff sampleFacilitator some sampleWorld (unpresented_sampleWorld _) (stranding plain.header)
    (again plain.header) (again_collisionless _) 0 _ (stranded_call (decodeHeader_sample .plain)) rfl samplePayer "org"
    "0xf00d" rfl false "event-2" (stranded_audit (decodeHeader_sample .plain))).2
    (again_provisioned (decodeHeader_sample .plain))

end Sample

end Teardrop.Onboarding
