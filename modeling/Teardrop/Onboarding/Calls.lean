/-
What one call of `bootstrap_org_from_payment` does at an answer, whatever it waits for.

`resumed` is the inversion of `Bootstrap.resume`: which answers store something, and what the call becomes. A call that
was verified holds the claim of its payment nonce until it ends or releases it (`Holding`); no claim is held twice
(`Custody`), so two calls never settle or audit one payment beside each other.
-/
import Teardrop.Core.Locks
import Teardrop.Billing.PaymentReplay
import Teardrop.Onboarding.Bootstrap

namespace Teardrop.Onboarding

open Teardrop.Py Teardrop.Billing Bootstrap

section Machine

variable {P : Type} {x : Package} {A : Type} [DecidableEq A] (f : Facilitator x A) (checksum : String → Option String)

/-! ## What a call does at an answer -/

/-- the call holds the claim of its payment nonce -/
def Phase.holds : Phase P → Bool
  | .looking _ _ | .provisioning _ _ _ | .settling _ _ _ | .crediting _ _ _ | .auditing _ _ _ | .releasing _ => true
  | .recovering _ _ | .paying _ _ | .refused _ | .issued _ _ => false

/-- the nonce a call holds -/
def Bootstrap.lock (t : Bootstrap x.Payload) : Option String :=
  if t.phase.holds then some (paymentNonceHash x t.header) else none

/-- still waiting outside of the store, nothing credited or given up for lack of credit -/
def Phase.plain : Phase P → Bool
  | .recovering _ _ | .crediting _ _ _ | .issued _ _ => false
  | .auditing _ _ audit => audit.settlementStatus ≠ "credit_failed"
  | _ => true

/-- **What an answer can do.** -/
inductive Resumed (w w' : World x A) (t t' : Bootstrap x.Payload) : Answer → Prop where
  /-- the call does not wait for it -/
  | ignored (a : Answer) : w' = w → t' = t → Resumed w w' t t' a
  /-- it goes on, and nothing is stored -/
  | moved (a : Answer) : w'.db = w.db → t.phase.plain = true → t'.phase.plain = true → Resumed w w' t t' a
  /-- the settlement went through -/
  | paid {paid : BillingResult x.Payload} {payer : Payer} {org tx : String} (servers : ℕ) (env : SettleEnv) :
      t.phase = .settling paid payer org → w'.db = w.db → t'.phase = .crediting payer org tx → tx ≠ "" →
      Resumed w w' t t' (.settled servers env)
  | provisioned {paid : BillingResult x.Payload} {payer : Payer} {machine : Bool} (fault : Bool)
      (answer : ProvisionAnswer) : t.phase = .provisioning paid payer machine →
      w'.db = (call fault (provisionOrgForWallet t.ref payer t.amount answer) w.db).2 → t'.phase.plain = true →
      Resumed w w' t t' (.provisioned fault answer)
  | recorded {payer : Payer} {org tx : String} (e : Env) (secret : FreshSecret) : t.phase = .crediting payer org tx → w'.db =
        (recordOnboardingSettlement e secret org t.amount t.ref payer.address payer.chainId tx w.db).2 →
      t'.phase = onRecorded payer org tx
        (recordOnboardingSettlement e secret org t.amount t.ref payer.address payer.chainId tx w.db).1 →
      Resumed w w' t t' (.recorded e secret)
  | recovered {initial : ProvisioningRow} {tx : String} (e : Env) (secret : FreshSecret) :
      t.phase = .recovering initial tx →
      w'.db = (recordOnboardingSettlement e secret initial.orgId t.amount t.ref initial.payerAddress
        ((chainIdFromNetwork t.network).getD 0) tx w.db).2 →
      t'.phase = onRecovered (recordOnboardingSettlement e secret initial.orgId t.amount t.ref initial.payerAddress
        ((chainIdFromNetwork t.network).getD 0) tx w.db).1 →
      Resumed w w' t t' (.recorded e secret)
  | audited {payer : Payer} {org : String} {audit : Audit} (fault : Bool) (eventId : String) :
      t.phase = .auditing payer org audit →
      w'.db = (call fault (insertEvent (settlementRow eventId org t.ref payer t.amount audit)) w.db).2 →
      t'.phase = onAudited audit
        (call fault (insertEvent (settlementRow eventId org t.ref payer t.amount audit)) w.db).1.isOk →
      Resumed w w' t t' (.audited fault eventId)

variable (amount : ℤ) (network : String) {t : Bootstrap x.Payload}

variable (paid : BillingResult P) (w : World x A)

theorem onVerified_plain : (onVerified checksum amount network paid).plain := by
  unfold onVerified
  split
  · rfl
  · split_ifs
    · rfl
    · rfl
    · split <;> rfl

theorem ofPayPhase_plain (payload : P) (phase : PayPhase P) : (ofPayPhase checksum amount network payload phase).plain := by
  cases phase with
  | admitted paid => exact onVerified_plain checksum amount network paid
  | _ => rfl

theorem onWallet_plain (db : Db) (t : Bootstrap P) (paid : BillingResult P) (payer : Payer) (answer : WalletAnswer) :
    (onWallet db t paid payer answer).2.plain := by
  unfold onWallet
  split
  · rfl
  · rfl
  · rfl
  · rfl
  · simp only
    split_ifs
    · split
      · rfl
      · split_ifs <;> rfl
    · rfl

theorem onProvisioned_plain (t : Bootstrap P) (paid : BillingResult P) (payer : Payer) (machine : Bool)
    (r : Call (String × Bool)) : (onProvisioned t paid payer machine r).plain := by
  unfold onProvisioned
  split
  · rfl
  · split_ifs <;> rfl

theorem onSettled_cases (payer : Payer) (org : String) (r : Call (BillingResult P)) :
    (onSettled amount payer org r).plain ∨ ∃ tx, onSettled amount payer org r = .crediting payer org tx ∧ tx ≠ "" := by
  unfold onSettled
  split
  · exact Or.inl (by simp [Phase.plain])
  · next paid =>
    by_cases hsettled : ¬ paid.settled
    · split_ifs <;> simp [Phase.plain]
    · rw [if_neg hsettled]
      by_cases hpartial : paid.txHash = "" ∨ paid.amountUsdc ≠ amount
      · rw [if_pos hpartial]
        exact Or.inl (by simp [Phase.plain])
      · rw [if_neg hpartial]
        exact Or.inr ⟨_, rfl, fun h => hpartial (Or.inl h)⟩

theorem resumed (t : Bootstrap x.Payload) (a : Answer) :
    Resumed w (t.resume f checksum w a).1 t (t.resume f checksum w a).2 a := by
  cases a with
  | verified _ _ _ | claimed _ _ =>
    simp only [resume]
    split
    · next payload phase hphase =>
      split
      · exact .moved _ rfl (by rw [hphase]; rfl) (ofPayPhase_plain checksum _ _ _ _)
      · exact .ignored _ rfl rfl
    · exact .ignored _ rfl rfl
  | wallet answer =>
    simp only [resume]
    split
    · next paid payer hphase => exact .moved _ rfl (by rw [hphase]; rfl) (onWallet_plain _ _ _ _ _)
    · exact .ignored _ rfl rfl
  | provisioned fault answer =>
    simp only [resume]
    split
    · next paid payer machine hphase => exact .provisioned fault answer hphase rfl (onProvisioned_plain _ _ _ _ _)
    · exact .ignored _ rfl rfl
  | settled servers env =>
    simp only [resume]
    split
    · next paid payer org hphase =>
      have hplain : t.phase.plain := by rw [hphase]; rfl
      split
      · next msg _ =>
        rcases onSettled_cases t.amount payer org (.ok { paid with error := msg }) with h | ⟨tx, h, htx⟩
        · exact .moved _ rfl hplain h
        · exact .paid servers env hphase rfl h htx
      · next payload req _ =>
        rcases onSettled_cases t.amount payer org (onSettleReply paid none (settleOnChain w.spent (f.auth payload) env).1)
          with h | ⟨tx, h, htx⟩
        · exact .moved _ rfl hplain h
        · exact .paid servers env hphase rfl h htx
    · exact .ignored _ rfl rfl
  | recorded e secret =>
    simp only [resume]
    split
    · next payer org tx hphase => exact .recorded e secret hphase rfl rfl
    · next initial tx hphase => exact .recovered e secret hphase rfl rfl
    · exact .ignored _ rfl rfl
  | audited fault eventId =>
    simp only [resume]
    split
    · next payer org audit hphase => exact .audited fault eventId hphase rfl rfl
    · exact .ignored _ rfl rfl
  | released fault =>
    simp only [resume]
    split
    · next refusal hphase => exact .moved _ rfl (by rw [hphase]; rfl) rfl
    · exact .ignored _ rfl rfl

theorem resume_frame (t : Bootstrap x.Payload) (a : Answer) :
    (t.resume f checksum w a).2.header = t.header ∧ (t.resume f checksum w a).2.amount = t.amount ∧
      (t.resume f checksum w a).2.network = t.network ∧ (t.resume f checksum w a).1.tasks = w.tasks := by
  cases a with
  | verified _ _ _ | claimed _ _ | settled _ _ =>
    simp only [resume]
    split
    · split <;> exact ⟨rfl, rfl, rfl, rfl⟩
    · exact ⟨rfl, rfl, rfl, rfl⟩
  | wallet _ | provisioned _ _ => simp only [resume]; split <;> exact ⟨rfl, rfl, rfl, rfl⟩
  | recorded _ _ | audited _ _ => simp only [resume]; split <;> exact ⟨rfl, rfl, rfl, rfl⟩
  | released fault => simp only [resume]; split <;> exact ⟨rfl, rfl, rfl, rfl⟩

/-! ## Claims of payment nonces -/

/-- what an answer does to the claim of a call -/
inductive Holding (nonces nonces' : Table NonceRow.nonceHash) (t t' : Bootstrap x.Payload) : Prop where
  | kept : t'.lock = t.lock → nonces' = nonces → Holding nonces nonces' t t'
  | left : t'.lock = none → nonces' = nonces → Holding nonces nonces' t t'
  | taken : t.lock = none → t'.lock = some (paymentNonceHash x t.header) →
      nonces.get? (paymentNonceHash x t.header) = none → (nonces'.get? (paymentNonceHash x t.header)).isSome = true →
      (∀ k, (nonces.get? k).isSome = true → (nonces'.get? k).isSome = true) → Holding nonces nonces' t t'
  | freed : t.lock = some (paymentNonceHash x t.header) → t'.lock = none →
      (∀ k, k ≠ paymentNonceHash x t.header → nonces'.get? k = nonces.get? k) → Holding nonces nonces' t t'

theorem onVerified_holds : (onVerified checksum amount network paid).holds := by
  unfold onVerified
  split
  · rfl
  · split_ifs
    · rfl
    · rfl
    · split <;> rfl

/-- inside of `verify_payment` nothing is held until it admits the payment -/
theorem ofPayPhase_holds (payload : P) (phase : PayPhase P) (h : ∀ paid, phase ≠ .admitted paid) :
    (ofPayPhase checksum amount network payload phase).holds = false := by
  cases phase with
  | admitted paid => exact absurd rfl (h paid)
  | _ => rfl

theorem lock_of_holds (h : t.phase.holds) : t.lock = some (paymentNonceHash x t.header) := if_pos h

theorem lock_of_not_holds (h : t.phase.holds = false) : t.lock = none :=
  if_neg (by rw [h]; exact Bool.false_ne_true)

theorem onVerifyReply_not_admitted (unhealthyUntil : List ℚ) (now : ℚ) (reply : VerifyReply) (req : Requirement)
    (servers : List ℕ) (rest : List Requirement) (lastError : String) (paid : BillingResult P) :
    onVerifyReply unhealthyUntil now reply (.verifying req servers rest lastError) ≠ .admitted paid := by
  intro h
  rcases onVerifyReply_cases (P := P) unhealthyUntil now reply req servers rest lastError with hv | ⟨_, _, -, hc⟩
  · rw [h] at hv
    cases hv
  · rw [h] at hc
    cases hc

theorem Holding.of_held {nonces : Table NonceRow.nonceHash} {t' : Bootstrap x.Payload} (hheld : t.phase.holds)
    (hheader : t'.header = t.header) : Holding nonces nonces t t' := by
  cases hnow : t'.phase.holds with
  | true => exact .kept (by rw [lock_of_holds hnow, lock_of_holds hheld, hheader]) rfl
  | false => exact .left (lock_of_not_holds hnow) rfl

theorem resume_holding (t : Bootstrap x.Payload) (a : Answer) :
    Holding w.nonces (t.resume f checksum w a).1.nonces t (t.resume f checksum w a).2 := by
  cases a with
  | verified env unhealthyUntil now =>
    simp only [resume]
    split
    · next payload phase hphase =>
      split
      · exact .left (lock_of_not_holds (ofPayPhase_holds checksum _ _ _ _ (onVerifyReply_not_admitted _ _ _ _ _ _ _))) rfl
      · exact .kept rfl rfl
    · exact .kept rfl rfl
  | claimed fault now =>
    simp only [resume]
    split
    · next payload phase hphase =>
      split
      · next req server payer _ =>
        rcases claimPaymentNonce_cases fault now (paymentNonceHash x t.header) w.nonces with
          ⟨e, hc⟩ | hc | ⟨nonces', hc, hfree, hmine, hkeep⟩
        · rw [hc]
          exact .left (lock_of_not_holds rfl) rfl
        · rw [hc]
          exact .left (lock_of_not_holds rfl) rfl
        · rw [hc]
          exact .taken (lock_of_not_holds (by rw [hphase]; rfl)) (lock_of_holds (onVerified_holds checksum _ _ _)) hfree
            hmine hkeep
      · exact .kept rfl rfl
    · exact .kept rfl rfl
  | wallet answer =>
    simp only [resume]
    split
    · next paid payer hphase => exact .of_held (by rw [hphase]; rfl) rfl
    · exact .kept rfl rfl
  | provisioned fault answer =>
    simp only [resume]
    split
    · next paid payer machine hphase => exact .of_held (by rw [hphase]; rfl) rfl
    · exact .kept rfl rfl
  | settled servers env =>
    simp only [resume]
    split
    · next paid payer org hphase => split <;> exact .of_held (by rw [hphase]; rfl) rfl
    · exact .kept rfl rfl
  | recorded e secret =>
    simp only [resume]
    split
    · next payer org tx hphase => exact .of_held (by rw [hphase]; rfl) rfl
    · next initial tx hphase =>
      refine .left (lock_of_not_holds ?_) rfl
      unfold onRecovered
      split <;> rfl
    · exact .kept rfl rfl
  | audited fault eventId =>
    simp only [resume]
    split
    · next payer org audit hphase => exact .of_held (by rw [hphase]; rfl) rfl
    · exact .kept rfl rfl
  | released fault =>
    simp only [resume]
    split
    · next refusal hphase =>
      exact .freed (lock_of_holds (by rw [hphase]; rfl)) (lock_of_not_holds rfl)
        (fun k hk => releasePaymentNonce_keeps true fault hk w.nonces)
    · exact .kept rfl rfl

/-- no nonce is held twice, and every nonce held is claimed -/
structure Custody (w : World x A) : Prop where
  exclusive : Locks.Exclusive Bootstrap.lock w.tasks
  claimed : ∀ t ∈ w.tasks, ∀ k, t.lock = some k → (w.nonces.get? k).isSome = true

theorem openCall_holds (db : Db) (header : String) (q : Quote) (fault : Bool) (unhealthyUntil : List ℚ) (now : ℚ) :
    (openCall (x := x) checksum db header q fault unhealthyUntil now).phase.holds = false := by
  unfold openCall
  split
  · rfl
  · split_ifs
    · rfl
    · simp only
      split
      · rfl
      · simp only [startPaying]
        split
        · rfl
        · refine ofPayPhase_holds checksum _ _ _ _ (fun paid h => ?_)
          have hv := startVerify_unverified (P := x.Payload) (by assumption) unhealthyUntil now
          rw [h] at hv
          cases hv

theorem step_custody {w : World x A} (h : Custody w) (act : Act) : Custody (step f checksum w act) := by
  cases act with
  | present header q fault unhealthyUntil now =>
    have hnone := lock_of_not_holds (x := x) (openCall_holds checksum w.db header q fault unhealthyUntil now)
    refine ⟨h.exclusive.snoc hnone, fun t ht k hk => ?_⟩
    rcases List.mem_append.1 ht with ht | ht
    · exact h.claimed t ht k hk
    · rw [List.mem_singleton.1 ht, hnone] at hk
      cases hk
  | answer i a =>
    simp only [step]
    cases hi : w.tasks[i]? with
    | none => exact h
    | some t =>
      have hmem : t ∈ w.tasks := List.mem_of_getElem? hi
      cases resume_holding f checksum w t a with
      | kept hlock hnonces =>
        refine ⟨h.exclusive.keep hi hlock, fun c hc k hk => ?_⟩
        simp only [hnonces]
        rcases Locks.mem_set hi hc with rfl | hc
        · exact h.claimed t hmem k (hlock ▸ hk)
        · exact h.claimed c (List.mem_of_mem_eraseIdx hc) k hk
      | left hlock hnonces =>
        refine ⟨h.exclusive.release hi hlock, fun c hc k hk => ?_⟩
        simp only [hnonces]
        rcases Locks.mem_set hi hc with rfl | hc
        · rw [hlock] at hk
          cases hk
        · exact h.claimed c (List.mem_of_mem_eraseIdx hc) k hk
      | taken hbefore hlock hfree hmine hkeep =>
        have hunheld : paymentNonceHash x t.header ∉ Locks.held lock w.tasks := by
          intro hheld
          obtain ⟨c, hc, hck⟩ := List.mem_filterMap.1 hheld
          have := h.claimed c hc _ hck
          rw [hfree] at this
          cases this
        refine ⟨h.exclusive.acquire hi hbefore hlock hunheld, fun c hc k hk => ?_⟩
        rcases Locks.mem_set hi hc with rfl | hc
        · rw [hlock] at hk
          cases hk
          exact hmine
        · exact hkeep k (h.claimed c (List.mem_of_mem_eraseIdx hc) k hk)
      | freed hbefore hlock hkeep =>
        refine ⟨h.exclusive.release hi hlock, fun c hc k hk => ?_⟩
        rcases Locks.mem_set hi hc with rfl | hc
        · rw [hlock] at hk
          cases hk
        · have hne : k ≠ paymentNonceHash x t.header := by
            rintro rfl
            exact h.exclusive.apart hi hbefore c hc hk
          simp only [hkeep k hne]
          exact h.claimed c (List.mem_of_mem_eraseIdx hc) k hk

end Machine

end Teardrop.Onboarding
