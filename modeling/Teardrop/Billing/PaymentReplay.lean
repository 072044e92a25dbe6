/-
One signed authorization against both rails that take it: paid requests and USDC top-ups, any number of each, with their
awaits interleaved in any order. A paid request is admitted by `verify_payment`, which claims the payment nonce; a top-up
verifies, settles and credits without that claim. Each act is one answer that one call had waited for.
-/
import Teardrop.Core.Runs
import Teardrop.Billing.X402

namespace Teardrop.Billing

open Teardrop.Py Table Option

section Replay

variable (x : Package) {A : Type}

/-! ## Model -/

structure PaidRequest where
  id : ℕ
  header : String
  payload : x.Payload
  phase : PayPhase x.Payload

structure TopupRequest where
  id : ℕ
  org : String
  amount : ℤ
  payload : x.Payload
  phase : TopupPhase

/-- the store, the nonce table, the authorizations spent on chain, and the calls in flight or done -/
structure Rails (A : Type) where
  db : Db
  nonces : Table NonceRow.nonceHash
  spent : List A
  requests : Table (fun r : PaidRequest x => r.id)
  topups : Table (fun t : TopupRequest x => t.id)

inductive Rails.Act where
  /-- `verify_payment(header, reqs)` is called -/
  | request (id : ℕ) (header : String) (reqs : List Requirement) (unhealthyUntil : List ℚ) (now : ℚ)
  | verify (id : ℕ) (env : VerifyEnv) (unhealthyUntil : List ℚ) (now : ℚ)
  | claim (id : ℕ) (pool fault : Bool) (now : ℤ)
  /-- the caller turns the admitted request away -/
  | withdraw (id : ℕ) (pool fault : Bool)
  /-- the paid work is done -/
  | serve (id : ℕ)
  | settle (id : ℕ) (servers : ℕ) (actualCost : Option ℤ) (env : SettleEnv)
  /-- `verify_and_settle_usdc_topup(header, amount)` is called, with the requirements built for it -/
  | topup (id : ℕ) (org header : String) (amount : ℤ) (reqs : List Requirement)
  | topupVerify (id : ℕ) (env : VerifyEnv)
  | topupSettle (id : ℕ) (env : SettleEnv)
  /-- `credit_usdc_topup` -/
  | credit (id : ℕ) (e : Env)

variable {x}

/-- the hash the request's claim is filed under -/
def PaidRequest.hash (r : PaidRequest x) : String := paymentNonceHash x r.header

/-- the row of request `id` moved to a phase, any other row as it is -/
def PaidRequest.put (id : ℕ) (phase : PayPhase x.Payload) (r : PaidRequest x) : PaidRequest x :=
  if r.id = id then { r with phase := phase } else r

theorem PaidRequest.put_id (id : ℕ) (phase : PayPhase x.Payload) (r : PaidRequest x) : (r.put id phase).id = r.id := by
  unfold PaidRequest.put
  split_ifs <;> rfl

/-- the row of top-up `id` moved to a phase, any other row as it is -/
def TopupRequest.put (id : ℕ) (phase : TopupPhase) (t : TopupRequest x) : TopupRequest x :=
  if t.id = id then { t with phase := phase } else t

theorem TopupRequest.put_id (id : ℕ) (phase : TopupPhase) (t : TopupRequest x) : (t.put id phase).id = t.id := by
  unfold TopupRequest.put
  split_ifs <;> rfl

namespace Rails

def setRequest (w : Rails x A) (id : ℕ) (phase : PayPhase x.Payload) : Rails x A :=
  { w with requests := w.requests.update (PaidRequest.put id phase) (PaidRequest.put_id id phase) }

def setTopup (w : Rails x A) (id : ℕ) (phase : TopupPhase) : Rails x A :=
  { w with topups := w.topups.update (TopupRequest.put id phase) (TopupRequest.put_id id phase) }

/-- a new request, unless its number is taken -/
def openRequest (w : Rails x A) (r : PaidRequest x) : Rails x A :=
  match w.requests.insert? r with
  | some requests => { w with requests := requests }
  | none => w

/-- a new top-up, unless its number is taken -/
def openTopup (w : Rails x A) (t : TopupRequest x) : Rails x A :=
  match w.topups.insert? t with
  | some topups => { w with topups := topups }
  | none => w

/-- the claim of a request that was verified -/
def claim (w : Rails x A) (r : PaidRequest x) (pool fault : Bool) (now : ℤ) : Rails x A :=
  let (claimed, nonces) := claimPaymentNonce pool fault false now r.hash w.nonces
  { w with nonces := nonces }.setRequest r.id (onClaim r.payload claimed r.phase)

/-- the withdrawal of an admitted request -/
def withdraw (w : Rails x A) (r : PaidRequest x) (result : BillingResult x.Payload) (pool fault : Bool) : Rails x A :=
  { w with nonces := (releasePaymentNonce pool fault r.hash w.nonces).2 }.setRequest r.id (.withdrawn result)

variable [DecidableEq A] (f : Facilitator x A)

/-- the settlement of a request whose work is done -/
def settle (w : Rails x A) (r : PaidRequest x) (result : BillingResult x.Payload) (servers : ℕ) (actualCost : Option ℤ)
    (env : SettleEnv) : Rails x A :=
  match settleRequest servers result actualCost with
  | .error msg => w.setRequest r.id (.settled { result with error := msg })
  | .ok (p, _) =>
    let (reply, spent) := settleOnChain w.spent (f.auth p) env
    let after := match onSettleReply result actualCost reply with
      | .ok b => b
      | .error _ => result
    { w with spent := spent }.setRequest r.id (.settled after)

/-- the settlement of a verified top-up -/
def settleTopup (w : Rails x A) (t : TopupRequest x) (env : SettleEnv) : Rails x A :=
  let (reply, spent) := settleOnChain w.spent (f.auth t.payload) env
  { w with spent := spent }.setTopup t.id (onTopupSettled reply t.phase)

/-- the credit of a settled top-up -/
def credit (w : Rails x A) (t : TopupRequest x) (txHash : String) (e : Env) : Rails x A :=
  let (outcome, db) := creditUsdcTopup e t.org t.amount txHash w.db
  { w with db := db }.setTopup t.id (onCredited outcome t.phase)

/-- one act; one that finds its call in another phase does nothing -/
@[grind] def step (w : Rails x A) : Rails.Act → Rails x A
  | .request id header reqs unhealthyUntil now =>
    match decodeHeader x header with
    | .error _ => w
    | .ok p => w.openRequest ⟨id, header, p, startVerify reqs unhealthyUntil now⟩
  | .verify id env unhealthyUntil now =>
    match w.requests.get? id with
    | none => w
    | some r =>
      match r.phase with
      | .verifying req _ _ _ =>
        w.setRequest id (onVerifyReply unhealthyUntil now (f.verify w.spent r.payload req env) r.phase)
      | _ => w
  | .claim id pool fault now =>
    match w.requests.get? id with
    | none => w
    | some r =>
      match r.phase with
      | .claiming _ _ _ => w.claim r pool fault now
      | _ => w
  | .withdraw id pool fault =>
    match w.requests.get? id with
    | none => w
    | some r =>
      match r.phase with
      | .admitted result => w.withdraw r result pool fault
      | _ => w
  | .serve id =>
    match w.requests.get? id with
    | none => w
    | some r =>
      match r.phase with
      | .admitted result => w.setRequest id (.served result)
      | _ => w
  | .settle id servers actualCost env =>
    match w.requests.get? id with
    | none => w
    | some r =>
      match r.phase with
      | .served result => w.settle f r result servers actualCost env
      | _ => w
  | .topup id org header amount reqs =>
    match decodeHeader x header with
    | .error _ => w
    | .ok p => w.openTopup ⟨id, org, amount, p, startTopup reqs⟩
  | .topupVerify id env =>
    match w.topups.get? id with
    | none => w
    | some t =>
      match t.phase with
      | .verifying req => w.setTopup id (onTopupVerified (f.verify w.spent t.payload req env) t.phase)
      | _ => w
  | .topupSettle id env =>
    match w.topups.get? id with
    | none => w
    | some t =>
      match t.phase with
      | .settling _ => w.settleTopup f t env
      | _ => w
  | .credit id e =>
    match w.topups.get? id with
    | none => w
    | some t =>
      match t.phase with
      | .crediting txHash => w.credit t txHash e
      | _ => w

def run (w : Rails x A) (acts : List Rails.Act) : Rails x A := Runs.run (step f) w acts

end Rails

variable (f : Facilitator x A)

/-! ## What is claimed of a run -/

/-- verified by the facilitator and not turned away -/
def PayPhase.verified {P : Type} : PayPhase P → Bool
  | .claiming _ _ _ | .admitted _ | .served _ | .settled _ => true
  | .verifying _ _ _ _ | .refused _ | .withdrawn _ => false

/-- admitted with verified=True and not turned away -/
def PayPhase.live {P : Type} : PayPhase P → Bool
  | .admitted _ | .served _ | .settled _ => true
  | .verifying _ _ _ _ | .claiming _ _ _ | .refused _ | .withdrawn _ => false

/-- settled on chain for a top-up -/
def TopupPhase.funded : TopupPhase → Bool
  | .crediting _ | .credited _ => true
  | .verifying _ | .settling _ | .refused _ | .uncredited => false

/-- a request or a top-up, by its number -/
inductive Delivery where
  | request (id : ℕ)
  | topup (id : ℕ)

/-- what was delivered on authorization `a` -/
def Delivers (w : Rails x A) (a : A) : Delivery → Prop
  | .request id => ∃ r, w.requests.get? id = some r ∧ f.auth r.payload = a ∧ r.phase.live = true
  | .topup id => ∃ t balance, w.topups.get? id = some t ∧ f.auth t.payload = a ∧ t.phase = .credited balance

/-- the act does not reach the defect: claims are made in a bound nonce store, under one hash for one authorization, and
a top-up does not settle what a request has verified -/
def Apart (w : Rails x A) : Rails.Act → Prop
  | .request _ header _ _ _ => ∀ p, decodeHeader x header = .ok p → ∀ i r, w.requests.get? i = some r →
      f.auth r.payload = f.auth p → r.hash = paymentNonceHash x header
  | .claim _ pool _ _ => pool = true
  | .topupSettle id (.lands _) => ∀ t, w.topups.get? id = some t → f.auth t.payload ∉ w.spent →
      ∀ i r, w.requests.get? i = some r → f.auth r.payload = f.auth t.payload → r.phase.verified = false
  | _ => True

/-- every act of a run meets its condition in the state it starts from -/
def ApartRun [DecidableEq A] (w : Rails x A) : List Rails.Act → Prop
  | [] => True
  | act :: acts => Apart f w act ∧ ApartRun (Rails.step f w act) acts

/-! ## The invariant -/

structure Rails.Inv (w : Rails x A) : Prop where
  sameHash : ∀ i j r s, w.requests.get? i = some r → w.requests.get? j = some s → f.auth r.payload = f.auth s.payload →
    r.hash = s.hash
  claimed : ∀ i r, w.requests.get? i = some r → r.phase.live = true → (w.nonces.get? r.hash).isSome = true
  single : ∀ i j r s, w.requests.get? i = some r → w.requests.get? j = some s → r.phase.live = true →
    s.phase.live = true → r.hash = s.hash → i = j
  funded : ∀ i t, w.topups.get? i = some t → t.phase.funded = true → f.auth t.payload ∈ w.spent
  apart : ∀ i t j r, w.topups.get? i = some t → t.phase.funded = true → w.requests.get? j = some r →
    f.auth r.payload = f.auth t.payload → r.phase.verified = false
  once : ∀ i j t u, w.topups.get? i = some t → w.topups.get? j = some u → t.phase.funded = true → u.phase.funded = true →
    f.auth t.payload = f.auth u.payload → i = j

theorem PayPhase.verified_of_live {P : Type} {phase : PayPhase P} (h : phase.live) : phase.verified := by
  cases phase <;> first | rfl | cases h

variable {w : Rails x A} {id : ℕ} {phase : PayPhase x.Payload} {r : PaidRequest x}

theorem get?_setRequest {j : ℕ} {s : PaidRequest x} (h : (w.setRequest id phase).requests.get? j = some s) :
    (j = id ∧ ∃ r, w.requests.get? id = some r ∧ s = { r with phase := phase }) ∨
    (j ≠ id ∧ w.requests.get? j = some s) := by
  rw [Rails.setRequest, get?_update] at h
  obtain ⟨r, hr, rfl⟩ := map_eq_some_iff.mp h
  have hid : r.id = j := key_of_get? hr
  by_cases hj : j = id
  · subst hj
    exact .inl ⟨rfl, r, hr, if_pos hid⟩
  · refine .inr ⟨hj, ?_⟩
    rw [hr, PaidRequest.put, if_neg (hid ▸ hj)]

theorem setRequest_origin {j : ℕ} {s : PaidRequest x} (h : (w.setRequest id phase).requests.get? j = some s) :
    ∃ r, w.requests.get? j = some r ∧ s.header = r.header ∧ s.payload = r.payload := by
  rcases get?_setRequest h with ⟨rfl, r, hr, rfl⟩ | ⟨_, hs⟩
  · exact ⟨r, hr, rfl, rfl⟩
  · exact ⟨s, hs, rfl, rfl⟩

theorem get?_setTopup {j : ℕ} {phase : TopupPhase} {u : TopupRequest x} (h : (w.setTopup id phase).topups.get? j = some u) :
    (j = id ∧ ∃ t, w.topups.get? id = some t ∧ u = { t with phase := phase }) ∨
    (j ≠ id ∧ w.topups.get? j = some u) := by
  rw [Rails.setTopup, get?_update] at h
  obtain ⟨t, ht, rfl⟩ := map_eq_some_iff.mp h
  have hid : t.id = j := key_of_get? ht
  by_cases hj : j = id
  · subst hj
    exact .inl ⟨rfl, t, ht, if_pos hid⟩
  · refine .inr ⟨hj, ?_⟩
    rw [ht, TopupRequest.put, if_neg (hid ▸ hj)]

/-- a request moves on: what becomes verified was unspent, what becomes live had a free hash and has it now -/
theorem Rails.Inv.request (h : Rails.Inv f w) (hr : w.requests.get? id = some r) {nonces : Table NonceRow.nonceHash}
    {spent : List A} (hspent : ∀ a ∈ w.spent, a ∈ spent)
    (hverified : phase.verified → r.phase.verified ∨ f.auth r.payload ∉ w.spent)
    (hlive : phase.live → (nonces.get? r.hash).isSome ∧ (r.phase.live ∨ w.nonces.get? r.hash = none))
    (hnonces : ∀ j s, w.requests.get? j = some s → j ≠ id → s.phase.live → (nonces.get? s.hash).isSome) :
    Rails.Inv f ({ w with nonces := nonces, spent := spent }.setRequest id phase) := by
  -- a live request has its hash taken, so one that finds it free meets no other
  have fresh : ∀ j s, w.requests.get? j = some s → j ≠ id → s.phase.live → phase.live → r.hash ≠ s.hash := by
    intro j s hs hj hlives hlivep heq
    rcases (hlive hlivep).2 with hwas | hfree
    · exact hj (h.single j id s r hs hr hlives hwas heq.symm)
    · have := h.claimed j s hs hlives
      rw [← heq, hfree] at this
      cases this
  constructor
  · intro i j a b ha hb hauth
    obtain ⟨a', ha', hheada, hpaya⟩ := setRequest_origin ha
    obtain ⟨b', hb', hheadb, hpayb⟩ := setRequest_origin hb
    rw [hpaya, hpayb] at hauth
    rw [PaidRequest.hash, PaidRequest.hash, hheada, hheadb]
    exact h.sameHash i j a' b' ha' hb' hauth
  · intro i a ha hlivea
    rcases get?_setRequest ha with ⟨rfl, a', ha', rfl⟩ | ⟨hi, ha'⟩
    · obtain rfl := some.inj (hr.symm.trans ha')
      exact (hlive hlivea).1
    · exact hnonces i a ha' hi hlivea
  · intro i j a b ha hb hlivea hliveb heq
    rcases get?_setRequest ha with ⟨rfl, a', ha', rfl⟩ | ⟨hi, ha'⟩
    · obtain rfl := some.inj (hr.symm.trans ha')
      rcases get?_setRequest hb with ⟨rfl, _⟩ | ⟨hj, hb'⟩
      · rfl
      · exact absurd heq (fresh j b hb' hj hliveb hlivea)
    · rcases get?_setRequest hb with ⟨rfl, b', hb', rfl⟩ | ⟨hj, hb'⟩
      · obtain rfl := some.inj (hr.symm.trans hb')
        exact absurd heq.symm (fresh i a ha' hi hlivea hliveb)
      · exact h.single i j a b ha' hb' hlivea hliveb heq
  · intro i t ht hfunded
    exact hspent _ (h.funded i t ht hfunded)
  · intro i t j a ht hfunded ha hauth
    rcases get?_setRequest ha with ⟨rfl, a', ha', rfl⟩ | ⟨_, ha'⟩
    · obtain rfl := some.inj (hr.symm.trans ha')
      by_contra hv
      rcases hverified (by simpa using hv) with hwas | hunspent
      · have := h.apart i t j r ht hfunded hr hauth
        rw [hwas] at this
        cases this
      · exact hunspent (hauth ▸ h.funded i t ht hfunded)
    · exact h.apart i t j a ht hfunded ha' hauth
  · exact h.once

/-- a top-up moves on: what becomes funded was unspent, is spent now, and is verified for no request -/
theorem Rails.Inv.topup (h : Rails.Inv f w) {t : TopupRequest x} (ht : w.topups.get? id = some t) {phase : TopupPhase}
    {spent : List A} {db : Db} (hspent : ∀ a ∈ w.spent, a ∈ spent)
    (hfunded : phase.funded → t.phase.funded ∨ (f.auth t.payload ∉ w.spent ∧ f.auth t.payload ∈ spent ∧ ∀ j r, w.requests.get? j = some r → f.auth r.payload = f.auth t.payload → r.phase.verified = false)) :
    Rails.Inv f ({ w with db := db, spent := spent }.setTopup id phase) := by
  constructor
  · exact h.sameHash
  · exact h.claimed
  · exact h.single
  · intro i u hu hf
    rcases get?_setTopup hu with ⟨rfl, u', hu', rfl⟩ | ⟨_, hu'⟩
    · obtain rfl := some.inj (ht.symm.trans hu')
      rcases hfunded hf with hwas | ⟨_, hnow, _⟩
      · exact hspent _ (h.funded i t ht hwas)
      · exact hnow
    · exact hspent _ (h.funded i u hu' hf)
  · intro i u j r hu hf hr hauth
    rcases get?_setTopup hu with ⟨rfl, u', hu', rfl⟩ | ⟨_, hu'⟩
    · obtain rfl := some.inj (ht.symm.trans hu')
      rcases hfunded hf with hwas | ⟨_, _, hnone⟩
      · exact h.apart i t j r ht hwas hr hauth
      · exact hnone j r hr hauth
    · exact h.apart i u j r hu' hf hr hauth
  · intro i j u v hu hv hfu hfv hauth
    -- a second funded top-up would have had its authorization spent before
    have alone : ∀ k (v : TopupRequest x), w.topups.get? k = some v → k ≠ id → v.phase.funded →
        phase.funded → f.auth v.payload ≠ f.auth t.payload := by
      intro k v hv hk hfv hfp heq
      rcases hfunded hfp with hwas | ⟨hunspent, _, _⟩
      · exact hk (h.once k id v t hv ht hfv hwas heq)
      · exact hunspent (heq ▸ h.funded k v hv hfv)
    rcases get?_setTopup hu with ⟨rfl, u', hu', rfl⟩ | ⟨hi, hu'⟩
    · obtain rfl := some.inj (ht.symm.trans hu')
      rcases get?_setTopup hv with ⟨rfl, _⟩ | ⟨hj, hv'⟩
      · rfl
      · exact absurd hauth.symm (alone j v hv' hj hfv hfu)
    · rcases get?_setTopup hv with ⟨rfl, v', hv', rfl⟩ | ⟨hj, hv'⟩
      · obtain rfl := some.inj (ht.symm.trans hv')
        exact absurd hauth (alone i u hu' hi hfu hfv)
      · exact h.once i j u v hu' hv' hfu hfv hauth

theorem Rails.Inv.openRequest (h : Rails.Inv f w) (hphase : r.phase.verified = false)
    (hhash : ∀ i s, w.requests.get? i = some s → f.auth s.payload = f.auth r.payload → s.hash = r.hash) :
    Rails.Inv f (w.openRequest r) := by
  cases hins : w.requests.insert? r with
  | none => rw [Rails.openRequest, hins]; exact h
  | some requests =>
    rw [Rails.openRequest, hins]
    have hlive : r.phase.live = false := by
      by_contra hl
      rw [PayPhase.verified_of_live (by simpa using hl)] at hphase
      cases hphase
    -- a row of the new table is the new one or an old one
    have old : ∀ {j : ℕ} {s : PaidRequest x}, requests.get? j = some s → s = r ∨ w.requests.get? j = some s := by
      intro j s hs
      rw [get?_insert hins] at hs
      split_ifs at hs with hj
      · exact .inl (some.inj hs).symm
      · exact .inr hs
    have oldLive : ∀ {j : ℕ} {s : PaidRequest x}, requests.get? j = some s → s.phase.live → w.requests.get? j = some s := by
      intro j s hs hl
      rcases old hs with rfl | hs
      · rw [hlive] at hl
        cases hl
      · exact hs
    constructor
    · intro i j a b ha hb hauth
      rcases old ha with rfl | ha
      · rcases old hb with rfl | hb
        · rfl
        · exact (hhash j b hb hauth.symm).symm
      · rcases old hb with rfl | hb
        · exact hhash i a ha hauth
        · exact h.sameHash i j a b ha hb hauth
    · intro i a ha hl
      exact h.claimed i a (oldLive ha hl) hl
    · intro i j a b ha hb hla hlb heq
      exact h.single i j a b (oldLive ha hla) (oldLive hb hlb) hla hlb heq
    · exact h.funded
    · intro i t j a ht hf ha hauth
      rcases old ha with rfl | ha
      · exact hphase
      · exact h.apart i t j a ht hf ha hauth
    · exact h.once

theorem Rails.Inv.openTopup (h : Rails.Inv f w) {t : TopupRequest x} (hphase : t.phase.funded = false) :
    Rails.Inv f (w.openTopup t) := by
  cases hins : w.topups.insert? t with
  | none => rw [Rails.openTopup, hins]; exact h
  | some topups =>
    rw [Rails.openTopup, hins]
    have old : ∀ {j : ℕ} {u : TopupRequest x}, topups.get? j = some u → u.phase.funded → w.topups.get? j = some u := by
      intro j u hu hf
      rw [get?_insert hins] at hu
      split_ifs at hu with hj
      · obtain rfl := some.inj hu
        rw [hphase] at hf
        cases hf
      · exact hu
    constructor
    · exact h.sameHash
    · exact h.claimed
    · exact h.single
    · intro i u hu hf
      exact h.funded i u (old hu hf) hf
    · intro i u j r hu hf hr hauth
      exact h.apart i u j r (old hu hf) hf hr hauth
    · intro i j u v hu hv hfu hfv hauth
      exact h.once i j u v (old hu hfu) (old hv hfv) hfu hfv hauth

/-! ## One act -/

theorem nextRequirement_unverified {P : Type} (unhealthyUntil : List ℚ) (now : ℚ) (lastError : String)
    (reqs : List Requirement) : (nextRequirement (P := P) unhealthyUntil now lastError reqs).verified = false := by
  cases reqs <;> rfl

theorem startVerify_unverified {P : Type} (reqs : List Requirement) (unhealthyUntil : List ℚ) (now : ℚ) :
    (startVerify (P := P) reqs unhealthyUntil now).verified = false := by
  unfold startVerify
  split_ifs
  · rfl
  · exact nextRequirement_unverified _ _ _ _

/-- an answer admits to the claim only when it is `valid` -/
theorem onVerifyReply_cases {P : Type} (unhealthyUntil : List ℚ) (now : ℚ) (reply : VerifyReply) (req : Requirement)
    (servers : List ℕ) (rest : List Requirement) (lastError : String) :
    (onVerifyReply (P := P) unhealthyUntil now reply (.verifying req servers rest lastError)).verified = false ∨
    ∃ server payer, reply = .valid payer ∧
      onVerifyReply (P := P) unhealthyUntil now reply (.verifying req servers rest lastError) = .claiming req server payer := by
  cases servers with
  | nil => exact .inl (nextRequirement_unverified _ _ _ _)
  | cons server servers =>
    cases reply with
    | valid payer => exact .inr ⟨server, payer, rfl, rfl⟩
    | invalid reason message => exact .inl (nextRequirement_unverified _ _ _ _)
    | outage =>
      left
      simp only [onVerifyReply]
      split_ifs
      · exact nextRequirement_unverified _ _ _ _
      · rfl

theorem claimPaymentNonce_cases (fault : Bool) (now : ℤ) (hash : String) (nonces : Table NonceRow.nonceHash) :
    (∃ e, claimPaymentNonce true fault false now hash nonces = (.error e, nonces)) ∨
    claimPaymentNonce true fault false now hash nonces = (.ok false, nonces) ∨
    ∃ nonces', claimPaymentNonce true fault false now hash nonces = (.ok true, nonces') ∧ nonces.get? hash = none ∧
      (nonces'.get? hash).isSome ∧
      ∀ k, (nonces.get? k).isSome → (nonces'.get? k).isSome := by
  simp only [claimPaymentNonce, not_true_eq_false, if_false]
  split_ifs
  · exact .inl ⟨_, rfl⟩
  · cases hins : nonces.insert? ⟨hash, now, "", 0⟩ with
    | none => exact .inr (.inl rfl)
    | some nonces' =>
      refine .inr (.inr ⟨nonces', rfl, (insert?_eq_some hins).1, ?_, ?_⟩)
      · rw [get?_insert hins, if_pos rfl]
        rfl
      · intro k hk
        rw [get?_insert hins]
        split_ifs
        · rfl
        · exact hk

theorem releasePaymentNonce_keeps (pool fault : Bool) {hash k : String} (hk : k ≠ hash) (nonces : Table NonceRow.nonceHash) :
    (releasePaymentNonce pool fault hash nonces).2.get? k = nonces.get? k := by
  have hfilter : (nonces.filter (fun r => r.nonceHash ≠ hash)).get? k = nonces.get? k := by
    rw [get?_filter]
    cases hr : nonces.get? k with
    | none => rfl
    | some row =>
      have hkey : row.nonceHash = k := key_of_get? hr
      exact filter_some_pos (by simpa [hkey] using hk)
  unfold releasePaymentNonce
  split_ifs
  · rfl
  · exact hfilter
  · rfl

theorem settleOnChain_spent [DecidableEq A] (spent : List A) (a : A) (env : SettleEnv) :
    ∀ b ∈ spent, b ∈ (settleOnChain spent a env).2 := by
  intro b hb
  cases env with
  | lands tx =>
    simp only [settleOnChain]
    split_ifs
    · exact hb
    · exact List.mem_cons_of_mem a hb
  | rejects => exact hb
  | breaks landed =>
    simp only [settleOnChain]
    split_ifs
    · exact List.mem_cons_of_mem a hb
    · exact hb

theorem settleOnChain_success [DecidableEq A] {spent : List A} {a : A} {env : SettleEnv} {tx : Option String}
    (h : (settleOnChain spent a env).1 = .success tx) :
    (∃ tx', env = .lands tx') ∧ a ∉ spent ∧ a ∈ (settleOnChain spent a env).2 := by
  cases env with
  | lands tx' =>
    simp only [settleOnChain] at h ⊢
    split_ifs at h ⊢ with ha
    exact ⟨⟨tx', rfl⟩, ha, List.mem_cons_self⟩
  | rejects | breaks _ => cases h

theorem Facilitator.verify_valid [DecidableEq A] {spent : List A} {p : x.Payload} {req : Requirement} {env : VerifyEnv}
    {payer : Option String} (h : f.verify spent p req env = .valid payer) : f.auth p ∉ spent := by
  cases env with
  | outage => cases h
  | answers payer' reason message =>
    simp only [Facilitator.verify] at h
    split_ifs at h with hv
    exact hv.1

theorem Rails.step_claim (h : Rails.Inv f w) (hr : w.requests.get? r.id = some r) {req : Requirement} {server : ℕ}
    {payer : Option String} (hphase : r.phase = .claiming req server payer) (fault : Bool) (now : ℤ) :
    Rails.Inv f (w.claim r true fault now) := by
  have still : ∀ j s, w.requests.get? j = some s → j ≠ r.id → s.phase.live →
      (w.nonces.get? s.hash).isSome := fun j s hs _ hl => h.claimed j s hs hl
  simp only [Rails.claim]
  rcases claimPaymentNonce_cases fault now r.hash w.nonces with ⟨e, hc⟩ | hc | ⟨nonces', hc, hfree, htaken, hgrow⟩
  · rw [hc, hphase]
    exact h.request f hr (fun a ha => ha) (fun hv => by cases hv) (fun hl => by cases hl) still
  · rw [hc, hphase]
    exact h.request f hr (fun a ha => ha) (fun hv => by cases hv) (fun hl => by cases hl) still
  · rw [hc, hphase]
    refine h.request f hr (fun a ha => ha) (fun _ => .inl ?_) (fun _ => ⟨htaken, .inr hfree⟩) ?_
    · rw [hphase]
      rfl
    · intro j s hs hj hl
      exact hgrow _ (still j s hs hj hl)

theorem Rails.step_withdraw (h : Rails.Inv f w) (hr : w.requests.get? r.id = some r) {result : BillingResult x.Payload}
    (hphase : r.phase = .admitted result) (pool fault : Bool) : Rails.Inv f (w.withdraw r result pool fault) := by
  refine h.request f hr (fun a ha => ha) (fun hv => by cases hv) (fun hl => by cases hl) ?_
  intro j s hs hj hl
  have hother : s.hash ≠ r.hash := by
    intro heq
    exact hj (h.single j r.id s r hs hr hl (by rw [hphase]; rfl) heq)
  rw [releasePaymentNonce_keeps pool fault hother]
  exact h.claimed j s hs hl

theorem Rails.step_live (h : Rails.Inv f w) (hr : w.requests.get? r.id = some r) (hlive : r.phase.live)
    (phase : PayPhase x.Payload) {spent : List A} (hspent : ∀ a ∈ w.spent, a ∈ spent) :
    Rails.Inv f ({ w with spent := spent }.setRequest r.id phase) := by
  refine h.request f hr hspent (fun _ => .inl (PayPhase.verified_of_live hlive)) ?_ ?_
  · intro _
    exact ⟨h.claimed r.id r hr hlive, .inl hlive⟩
  · intro j s hs _ hl
    exact h.claimed j s hs hl

/-- **One act keeps the invariant**, when it meets its condition. -/
theorem Rails.step_inv [DecidableEq A] {w : Rails x A} (h : Rails.Inv f w) {act : Rails.Act} (happ : Apart f w act) : Rails.Inv f (Rails.step f w act) := by
  cases act with
  | request id header reqs unhealthyUntil now =>
    simp only [Rails.step]
    cases hd : decodeHeader x header with
    | error e => exact h
    | ok p => exact h.openRequest f (startVerify_unverified _ _ _) (happ p hd)
  | verify id env unhealthyUntil now =>
    simp only [Rails.step]
    split
    · exact h
    · rename_i r hr
      split
      · rename_i req servers rest lastError hphase
        rw [hphase]
        refine h.request f hr (fun a ha => ha) ?_ ?_ (fun j s hs _ hl => h.claimed j s hs hl)
        · intro hv
          rcases onVerifyReply_cases unhealthyUntil now (f.verify w.spent r.payload req env) req servers rest lastError
            with hno | ⟨server, payer, hvalid, -⟩
          · rw [hno] at hv
            cases hv
          · exact .inr (f.verify_valid hvalid)
        · intro hl
          rcases onVerifyReply_cases unhealthyUntil now (f.verify w.spent r.payload req env) req servers rest lastError
            with hno | ⟨server, payer, -, hclaiming⟩
          · rw [PayPhase.verified_of_live hl] at hno
            cases hno
          · rw [hclaiming] at hl
            cases hl
      · exact h
  | claim id pool fault now =>
    simp only [Rails.step]
    split
    · exact h
    · rename_i r hr
      obtain rfl : r.id = id := key_of_get? hr
      split
      · rename_i req server payer hphase
        obtain rfl : pool := happ
        exact Rails.step_claim f h hr hphase fault now
      · exact h
  | withdraw id pool fault =>
    simp only [Rails.step]
    split
    · exact h
    · rename_i r hr
      obtain rfl : r.id = id := key_of_get? hr
      split
      · rename_i result hphase
        exact Rails.step_withdraw f h hr hphase pool fault
      · exact h
  | serve id =>
    simp only [Rails.step]
    split
    · exact h
    · rename_i r hr
      obtain rfl : r.id = id := key_of_get? hr
      split
      · rename_i result hphase
        exact Rails.step_live f h hr (by rw [hphase]; rfl) _ (fun a ha => ha)
      · exact h
  | settle id servers actualCost env =>
    simp only [Rails.step]
    split
    · exact h
    · rename_i r hr
      obtain rfl : r.id = id := key_of_get? hr
      split
      · rename_i result hphase
        have hlive : r.phase.live := by rw [hphase]; rfl
        simp only [Rails.settle]
        cases settleRequest servers result actualCost with
        | error msg => exact Rails.step_live f h hr hlive _ (fun a ha => ha)
        | ok call => exact Rails.step_live f h hr hlive _ (settleOnChain_spent w.spent (f.auth call.1) env)
      · exact h
  | topup id org header amount reqs =>
    simp only [Rails.step]
    cases decodeHeader x header with
    | error e => exact h
    | ok p =>
      refine h.openTopup f ?_
      cases reqs <;> rfl
  | topupVerify id env =>
    simp only [Rails.step]
    split
    · exact h
    · rename_i t ht
      split
      · rename_i req hphase
        rw [hphase]
        refine h.topup f ht (fun a ha => ha) ?_
        intro hf
        cases hreply : f.verify w.spent t.payload req env <;> rw [hreply] at hf <;> cases hf
      · exact h
  | topupSettle id env =>
    simp only [Rails.step]
    split
    · exact h
    · rename_i t ht
      obtain rfl : t.id = id := key_of_get? ht
      split
      · rename_i req hphase
        simp only [Rails.settleTopup, hphase]
        refine h.topup f ht (settleOnChain_spent w.spent (f.auth t.payload) env) ?_
        intro hf
        cases hreply : (settleOnChain w.spent (f.auth t.payload) env).1 with
        | success tx =>
          obtain ⟨⟨tx', rfl⟩, hunspent, hspent⟩ := settleOnChain_success hreply
          exact .inr ⟨hunspent, hspent, happ t ht hunspent⟩
        | rejected => rw [hreply] at hf; cases hf
        | raised => rw [hreply] at hf; cases hf
      · exact h
  | credit id e =>
    simp only [Rails.step]
    split
    · exact h
    · rename_i t ht
      obtain rfl : t.id = id := key_of_get? ht
      split
      · rename_i txHash hphase
        exact h.topup f ht (fun a ha => ha) (fun _ => .inl (by rw [hphase]; rfl))
      · exact h

theorem Rails.run_inv [DecidableEq A] (acts : List Rails.Act) {w : Rails x A} (h : Rails.Inv f w) (happ : ApartRun f w acts) :
    Rails.Inv f (Rails.run f w acts) := by
  induction acts generalizing w with
  | nil => exact h
  | cons act acts ih => exact ih (Rails.step_inv f h happ.1) happ.2

theorem Rails.Inv.deliveries (h : Rails.Inv f w) {a : A} {d d' : Delivery} (hd : Delivers f w a d)
    (hd' : Delivers f w a d') : d = d' := by
  have funded_of : ∀ {t : TopupRequest x} {balance : ℤ}, t.phase = .credited balance → t.phase.funded := by
    intro t balance ht
    rw [ht]
    rfl
  -- a top-up that was credited leaves no live request
  have apart : ∀ {i j : ℕ}, Delivers f w a (.request i) → Delivers f w a (.topup j) → False := by
    rintro i j ⟨r, hr, hra, hlive⟩ ⟨t, balance, ht, hta, hphase⟩
    have := h.apart j t i r ht (funded_of hphase) hr (hra.trans hta.symm)
    rw [PayPhase.verified_of_live hlive] at this
    cases this
  cases d with
  | request i =>
    cases d' with
    | request j =>
      obtain ⟨r, hr, hra, hlr⟩ := hd
      obtain ⟨s, hs, hsa, hls⟩ := hd'
      rw [h.single i j r s hr hs hlr hls (h.sameHash i j r s hr hs (hra.trans hsa.symm))]
    | topup j => exact (apart hd hd').elim
  | topup i =>
    cases d' with
    | request j => exact (apart hd' hd).elim
    | topup j =>
      obtain ⟨t, bt, ht, hta, hpt⟩ := hd
      obtain ⟨u, bu, hu, hua, hpu⟩ := hd'
      rw [h.once i j t u ht hu (funded_of hpt) (funded_of hpu) (hta.trans hua.symm)]

theorem Rails.inv_start (db : Db) (nonces : Table NonceRow.nonceHash) (spent : List A) :
    Rails.Inv f (⟨db, nonces, spent, empty, empty⟩ : Rails x A) := by
  constructor
  · intro i j r s hr
    cases hr
  · intro i r hr
    cases hr
  · intro i j r s hr
    cases hr
  · intro i t ht
    cases ht
  · intro i t j r ht
    cases ht
  · intro i j t u ht
    cases ht

/-- **One signed payment buys one thing.** From any store, any claims and any spent authorizations, in every run whose
acts keep apart (claims in a bound nonce store, one hash for one authorization, and no top-up settling what a request has
verified), at most one paid request is admitted and served or one top-up credited on an authorization. -/
theorem one_payment_one_thing [DecidableEq A] (db : Db) (nonces : Table NonceRow.nonceHash) (spent : List A)
    (acts : List Rails.Act) (happ : ApartRun f ⟨db, nonces, spent, Table.empty, Table.empty⟩ acts) (a : A) (d d' : Delivery)
    (hd : Delivers f (Rails.run f ⟨db, nonces, spent, Table.empty, Table.empty⟩ acts) a d)
    (hd' : Delivers f (Rails.run f ⟨db, nonces, spent, Table.empty, Table.empty⟩ acts) a d') : d = d' :=
  (Rails.run_inv f acts (Rails.inv_start f db nonces spent) happ).deliveries f hd hd'

theorem step_request [DecidableEq A] (w : Rails x A) {header : String} {p : x.Payload}
    (hdecode : decodeHeader x header = .ok p) (id : ℕ) (reqs : List Requirement) (unhealthyUntil : List ℚ) (now : ℚ) :
    Rails.step f w (.request id header reqs unhealthyUntil now) =
      w.openRequest ⟨id, header, p, startVerify reqs unhealthyUntil now⟩ := by
  simp [Rails.step, hdecode]

theorem step_topup [DecidableEq A] (w : Rails x A) {header : String} {p : x.Payload}
    (hdecode : decodeHeader x header = .ok p) (id : ℕ) (org : String) (amount : ℤ) (reqs : List Requirement) :
    Rails.step f w (.topup id org header amount reqs) = w.openTopup ⟨id, org, amount, p, startTopup reqs⟩ := by
  simp [Rails.step, hdecode]

theorem delivers_request {a : A}
    (h : (w.requests.get? id).map (fun r => (f.auth r.payload, r.phase.live)) = some (a, true)) :
    Delivers f w a (.request id) := by
  obtain ⟨r, hr, heq⟩ := map_eq_some_iff.mp h
  obtain ⟨hauth, hlive⟩ := Prod.mk.inj heq
  exact ⟨r, hr, hauth, hlive⟩

theorem delivers_topup (balance : ℤ) {a : A}
    (h : (w.topups.get? id).map (fun t => (f.auth t.payload, t.phase)) = some (a, .credited balance)) :
    Delivers f w a (.topup id) := by
  obtain ⟨t, ht, heq⟩ := map_eq_some_iff.mp h
  obtain ⟨hauth, hphase⟩ := Prod.mk.inj heq
  exact ⟨t, balance, ht, hauth, hphase⟩

end Replay

/-! ## One authorization on both rails -/

/-- the samples carry one authorization, of value 10000 -/
def sampleFacilitator : Facilitator samplePackage (ℕ × ℕ) where
  auth := fun _ => (sampleIdentity.payer, sampleIdentity.nonce)
  covers := fun _ req => req.amount = "10000"

def sampleRequirements : List Requirement := [⟨"exact", "10000"⟩]

/-- the facilitator answers, and names the payer -/
def sampleAnswer : VerifyEnv := .answers (some "0xabABaBAbAbaBaBaBaBAbAbabABABABabABABabab") none none

/-- one org, no claims, nothing spent -/
def sampleRails : Rails samplePackage (ℕ × ℕ) where
  db := { Db.empty with orgs := ⟨[⟨"org", "email"⟩], by decide⟩ }
  nonces := Table.empty
  spent := []
  requests := Table.empty
  topups := Table.empty

/-- the request is admitted, served and settled; a top-up with a repackaged header comes too late -/
def lateTopup : List Rails.Act :=
  [.request 1 Sample.plain.header sampleRequirements [0] 0, .verify 1 sampleAnswer [0] 0, .claim 1 true false 0, .serve 1,
    .settle 1 1 none (.lands (some "0xf00d")), .topup 1 "org" Sample.padded.header 10000 sampleRequirements,
    .topupVerify 1 sampleAnswer, .topupSettle 1 (.lands (some "0xbeef")), .credit 1 (.calm 0 "ledger")]

theorem lateTopup_apart : ApartRun sampleFacilitator sampleRails lateTopup := by
  refine ⟨?_, trivial, rfl, trivial, trivial, trivial, trivial, ?_, trivial, trivial⟩
  · intro p _ i r hr
    cases hr
  · intro t _ hunspent
    rw [step_request _ _ (decodeHeader_sample .plain), step_topup _ _ (decodeHeader_sample .padded)] at hunspent
    refine absurd ?_ hunspent
    show (sampleIdentity.payer, sampleIdentity.nonce) ∈ _
    decide

/-- the request was served; whatever else the run delivered on its authorization is that request -/
theorem one_payment_one_thing_late_topup :
    let last := Rails.run sampleFacilitator sampleRails lateTopup
    Delivers sampleFacilitator last (sampleIdentity.payer, sampleIdentity.nonce) (.request 1) ∧
    ∀ d, Delivers sampleFacilitator last (sampleIdentity.payer, sampleIdentity.nonce) d → d = .request 1 := by
  have hserved : Delivers sampleFacilitator (Rails.run sampleFacilitator sampleRails lateTopup)
      (sampleIdentity.payer, sampleIdentity.nonce) (.request 1) := by
    apply delivers_request
    simp only [Rails.run, lateTopup, Runs.run_cons, step_request _ _ (decodeHeader_sample .plain),
      step_topup _ _ (decodeHeader_sample .padded)]
    decide
  refine ⟨hserved, ?_⟩
  intro d hd
  exact one_payment_one_thing sampleFacilitator sampleRails.db empty [] lateTopup lateTopup_apart
    (sampleIdentity.payer, sampleIdentity.nonce) d (.request 1) hd hserved

/-- a top-up settles between the verification of a request and its claim -/
def raceTopup : List Rails.Act :=
  [.request 1 Sample.plain.header sampleRequirements [0] 0, .verify 1 sampleAnswer [0] 0,
    .topup 1 "org" Sample.plain.header 10000 sampleRequirements, .topupVerify 1 sampleAnswer,
    .topupSettle 1 (.lands (some "0xf00d")), .credit 1 (.calm 0 "ledger"), .claim 1 true false 0, .serve 1]

/-- **One authorization buys both.** The request is admitted and served, and the top-up credited, by one header. -/
theorem topup_beside_request :
    let last := Rails.run sampleFacilitator sampleRails raceTopup
    Delivers sampleFacilitator last (sampleIdentity.payer, sampleIdentity.nonce) (.request 1) ∧
    Delivers sampleFacilitator last (sampleIdentity.payer, sampleIdentity.nonce) (.topup 1) := by
  constructor
  · apply delivers_request
    simp only [Rails.run, raceTopup, Runs.run_cons, step_request _ _ (decodeHeader_sample .plain),
      step_topup _ _ (decodeHeader_sample .plain)]
    decide
  · apply delivers_topup sampleFacilitator 10000
    simp only [Rails.run, raceTopup, Runs.run_cons, step_request _ _ (decodeHeader_sample .plain),
      step_topup _ _ (decodeHeader_sample .plain)]
    decide

end Teardrop.Billing
