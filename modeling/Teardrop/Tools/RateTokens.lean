/-
The token buckets of the RPC chains (`_TokenBucket`, `init_chain_rate_limiter` and `_acquire_chain_rate_token` of
`tools/_internals/_rpc_semaphore.py`), in exact arithmetic.

A turn of the loop of `_acquire_chain_rate_token` has no await while it holds the lock, so a turn of any caller is one step.
-/
import Teardrop.Core.Runs

namespace Teardrop.RpcLimits

structure TokenBucket where
  tokens : ℚ
  capacity : ℚ
  rate : ℚ
  lastRefill : ℚ

/-- `init_chain_rate_limiter` at a time; `rps` is `agent_rpc_chain_rps_limit`, any integer -/
def initChainRateLimiter (rps : ℤ) (now : ℚ) : TokenBucket :=
  let safeRps : ℚ := max (1 / 10) rps
  ⟨safeRps, safeRps, safeRps, now⟩

namespace TokenBucket

def refill (b : TokenBucket) (now : ℚ) : TokenBucket :=
  { b with lastRefill := now, tokens := min b.capacity (b.tokens + max 0 (now - b.lastRefill) * b.rate) }

/-- a turn of the loop finds a token -/
def grants (b : TokenBucket) (now : ℚ) : Bool := 1 ≤ (b.refill now).tokens

/-- the bucket after a turn of the loop -/
def turn (b : TokenBucket) (now : ℚ) : TokenBucket :=
  if b.grants now then { b.refill now with tokens := (b.refill now).tokens - 1 } else b.refill now

/-- how long a turn that finds no token sleeps -/
def waitSeconds (b : TokenBucket) (now : ℚ) : ℚ := max (1 / 100) ((1 - (b.refill now).tokens) / b.rate)

/-- the bucket after turns at some times -/
def run (b : TokenBucket) (times : List ℚ) : TokenBucket := Runs.run turn b times

/-- the times at which turns were granted a token -/
def granted (b : TokenBucket) (times : List ℚ) : List ℚ :=
  Runs.collect turn (fun b now => if b.grants now then [now] else []) b times

/-- the balance is in range -/
structure Inv (b : TokenBucket) : Prop where
  nonneg : 0 ≤ b.tokens
  full : b.tokens ≤ b.capacity
  rate : 0 < b.rate

variable {b : TokenBucket} {now lo hi : ℚ} {times : List ℚ}

theorem refill_tokens (h : b.Inv) (now : ℚ) : 0 ≤ (b.refill now).tokens ∧ (b.refill now).tokens ≤ b.capacity := by
  have hgain : 0 ≤ max 0 (now - b.lastRefill) * b.rate := mul_nonneg (le_max_left 0 _) h.rate.le
  exact ⟨le_min (h.nonneg.trans h.full) (add_nonneg h.nonneg hgain), min_le_left _ _⟩

theorem refill_le (b : TokenBucket) (h : b.lastRefill ≤ now) :
    (b.refill now).tokens ≤ b.tokens + (now - b.lastRefill) * b.rate := by
  rw [refill, max_eq_right (sub_nonneg.2 h)]
  exact min_le_right _ _

theorem inv_turn (h : b.Inv) (now : ℚ) : (b.turn now).Inv := by
  obtain ⟨hlow, hhigh⟩ := refill_tokens h now
  unfold turn
  split_ifs with hgrants
  · exact ⟨sub_nonneg.2 (of_decide_eq_true hgrants), (sub_le_self _ zero_le_one).trans hhigh, h.rate⟩
  · exact ⟨hlow, hhigh, h.rate⟩

@[simp] theorem turn_capacity (b : TokenBucket) (now : ℚ) : (b.turn now).capacity = b.capacity := by
  unfold turn; split_ifs <;> rfl

@[simp] theorem turn_rate (b : TokenBucket) (now : ℚ) : (b.turn now).rate = b.rate := by
  unfold turn; split_ifs <;> rfl

@[simp] theorem turn_lastRefill (b : TokenBucket) (now : ℚ) : (b.turn now).lastRefill = now := by
  unfold turn; split_ifs <;> rfl

/-- a token leaves the balance -/
theorem turn_tokens (b : TokenBucket) (now : ℚ) :
    (b.turn now).tokens + (if b.grants now then 1 else 0 : ℕ) = (b.refill now).tokens := by
  unfold turn
  split_ifs with hgrants <;> simp

/-! ## Grants in an interval -/

/-- the grants in an interval -/
def grantsIn (b : TokenBucket) (times : List ℚ) (lo hi : ℚ) : ℕ := (b.granted times).countP (fun t => lo ≤ t ∧ t ≤ hi)

theorem grantsIn_cons (b : TokenBucket) (t : ℚ) (times : List ℚ) (lo hi : ℚ) : b.grantsIn (t :: times) lo hi =
      (if b.grants t ∧ lo ≤ t ∧ t ≤ hi then 1 else 0) + (b.turn t).grantsIn times lo hi := by
  unfold grantsIn granted
  rw [Runs.collect, List.countP_append]
  by_cases hgrants : b.grants t = true <;> simp [hgrants, List.countP_cons]

theorem grantsIn_after (b : TokenBucket) (h : ∀ t ∈ times, hi < t) : b.grantsIn times lo hi = 0 := by
  induction times generalizing b with
  | nil => rfl
  | cons t times ih =>
    have hout : ¬ t ≤ hi := not_le.2 (h t List.mem_cons_self)
    rw [grantsIn_cons, ih _ (fun t' ht' => h t' (List.mem_cons_of_mem t ht'))]
    simp [hout]

/-- from a refill in the interval on, the balance and what flows in pay for the grants -/
theorem grants_paid (h : b.Inv) (hsorted : (b.lastRefill :: times).Pairwise (· ≤ ·)) (hin : b.lastRefill ≤ hi) :
    (b.grantsIn times lo hi : ℚ) ≤ b.tokens + (hi - b.lastRefill) * b.rate := by
  induction times generalizing b with
  | nil =>
    have hflow : 0 ≤ (hi - b.lastRefill) * b.rate := mul_nonneg (sub_nonneg.2 hin) h.rate.le
    simpa [grantsIn, granted, Runs.collect] using add_nonneg h.nonneg hflow
  | cons t times ih =>
    obtain ⟨hfirst, hrest⟩ := List.pairwise_cons.1 hsorted
    have ht : b.lastRefill ≤ t := hfirst t List.mem_cons_self
    by_cases hle : t ≤ hi
    · have hnext := ih (inv_turn h t) (by rwa [turn_lastRefill]) (by rwa [turn_lastRefill])
      rw [turn_lastRefill, turn_rate] at hnext
      have hgrant : (if b.grants t ∧ lo ≤ t ∧ t ≤ hi then 1 else 0 : ℕ) ≤ if b.grants t then 1 else 0 := by
        split_ifs <;> simp_all
      have hgrant' : ((if b.grants t ∧ lo ≤ t ∧ t ≤ hi then 1 else 0 : ℕ) : ℚ) ≤ (if b.grants t then 1 else 0 : ℕ) :=
        Nat.cast_le.2 hgrant
      have htokens := turn_tokens b t
      have hrefill := refill_le b ht
      rw [grantsIn_cons, Nat.cast_add]
      linarith
    · have hlate : ∀ t' ∈ t :: times, hi < t' := by
        intro t' ht'
        rcases List.mem_cons.1 ht' with rfl | ht'
        · exact not_le.1 hle
        · exact (not_le.1 hle).trans_le ((List.pairwise_cons.1 hrest).1 t' ht')
      have hflow : 0 ≤ (hi - b.lastRefill) * b.rate := mul_nonneg (sub_nonneg.2 hin) h.rate.le
      rw [grantsIn_after b hlate, Nat.cast_zero]
      exact add_nonneg h.nonneg hflow

/-- an interval grants at most the capacity and what flows in -/
theorem grants_bounded (h : b.Inv) (hsorted : (b.lastRefill :: times).Pairwise (· ≤ ·)) (hlohi : lo ≤ hi) :
    (b.grantsIn times lo hi : ℚ) ≤ b.capacity + b.rate * (hi - lo) := by
  have hcapacity : 0 ≤ b.capacity := h.nonneg.trans h.full
  have hflow : 0 ≤ b.rate * (hi - lo) := mul_nonneg h.rate.le (sub_nonneg.2 hlohi)
  induction times generalizing b with
  | nil => simpa [grantsIn, granted, Runs.collect] using add_nonneg hcapacity hflow
  | cons t times ih =>
    obtain ⟨hfirst, hrest⟩ := List.pairwise_cons.1 hsorted
    have hnext : ((b.turn t).lastRefill :: times).Pairwise (· ≤ ·) := by rwa [turn_lastRefill]
    rw [grantsIn_cons, Nat.cast_add]
    by_cases hlo : lo ≤ t
    · by_cases hhi : t ≤ hi
      · -- the first grant of the interval is paid from a balance of at most the capacity
        have hpaid : ((b.turn t).grantsIn times lo hi : ℚ) ≤ _ :=
          grants_paid (inv_turn h t) hnext (by rwa [turn_lastRefill])
        rw [turn_lastRefill, turn_rate] at hpaid
        have htokens := turn_tokens b t
        have hfull := (refill_tokens h t).2
        have hlost : (hi - t) * b.rate ≤ b.rate * (hi - lo) := by
          rw [mul_comm]
          exact mul_le_mul_of_nonneg_left (by linarith) h.rate.le
        simp only [hlo, hhi, and_self, and_true]
        linarith
      · have hlate : ∀ t' ∈ times, hi < t' := fun t' ht' =>
          (not_le.1 hhi).trans_le ((List.pairwise_cons.1 hrest).1 t' ht')
        rw [grantsIn_after _ hlate]
        simpa [hhi] using add_nonneg hcapacity hflow
    · have hrec := ih (inv_turn h t) hnext (by rwa [turn_capacity]) (by rwa [turn_rate])
      rw [turn_capacity, turn_rate] at hrec
      simpa [hlo] using hrec

/-! ## A caller that waits -/

theorem inv_run (h : b.Inv) (times : List ℚ) : (b.run times).Inv :=
  Runs.run_inv turn Inv (fun _ now hb => inv_turn hb now) times h

theorem run_capacity (b : TokenBucket) (times : List ℚ) : (b.run times).capacity = b.capacity :=
  Runs.run_inv turn (fun b' => b'.capacity = b.capacity) (fun b' now hb => (turn_capacity b' now).trans hb) times rfl

/-- after the computed wait there is a token, if the bucket can hold one -/
theorem grants_of_waited (h : b.Inv) (hcapacity : 1 ≤ b.capacity) (hshort : b.grants now = false) {later : ℚ}
    (hlater : now + b.waitSeconds now ≤ later) : (b.turn now).grants later = true := by
  have hwait : (1 - (b.refill now).tokens) / b.rate ≤ later - now :=
    (le_max_right (1 / 100) _).trans (by unfold waitSeconds at hlater; linarith)
  have hgain := (div_le_iff₀ h.rate).1 hwait
  have hturn : b.turn now = b.refill now := if_neg (by simp [hshort])
  have hpos : 0 ≤ later - now := by
    have hleast : (1 / 100 : ℚ) ≤ b.waitSeconds now := le_max_left _ _
    linarith
  rw [hturn, grants, decide_eq_true_iff, refill]
  refine le_min hcapacity ?_
  show 1 ≤ (b.refill now).tokens + max 0 (later - now) * b.rate
  rw [max_eq_right hpos]
  linarith

end TokenBucket

open TokenBucket

theorem inv_initChainRateLimiter (rps : ℤ) (now : ℚ) : (initChainRateLimiter rps now).Inv := by
  have hpos : (0 : ℚ) < max (1 / 10) (rps : ℚ) := lt_max_iff.2 (.inl (by norm_num))
  exact ⟨hpos.le, le_refl _, hpos⟩

/-- what the limiter of a chain promises, whatever turns were taken at non-decreasing times since `start` -/
structure Limits (rps : ℤ) (start : ℚ) (times : List ℚ) : Prop where
  bounded : ∀ lo hi, lo ≤ hi → ((initChainRateLimiter rps start).grantsIn times lo hi : ℚ) ≤
    (initChainRateLimiter rps start).capacity + (initChainRateLimiter rps start).rate * (hi - lo)
  inRange : 0 ≤ ((initChainRateLimiter rps start).run times).tokens ∧
    ((initChainRateLimiter rps start).run times).tokens ≤ (initChainRateLimiter rps start).capacity
  /-- a caller that finds too few tokens, sleeps and is the next to try has a token -/
  served : ∀ now, (∀ t ∈ start :: times, t ≤ now) → ((initChainRateLimiter rps start).run times).grants now = false →
    ∀ later, now + ((initChainRateLimiter rps start).run times).waitSeconds now ≤ later →
      (((initChainRateLimiter rps start).run times).turn now).grants later = true

/-- **Token buckets.** They keep what they promise exactly at a limit of one request per second or more. -/
theorem rate_tokens_iff (rps : ℤ) :
    (∀ start times, (start :: times).Pairwise (· ≤ ·) → Limits rps start times) ↔ 1 ≤ rps := by
  have hcapacity : ∀ start, (initChainRateLimiter rps start).capacity = max (1 / 10) (rps : ℚ) := fun _ => rfl
  constructor
  · intro hall
    by_contra hlow
    have hrps : (rps : ℚ) ≤ 0 := by exact_mod_cast Int.lt_add_one_iff.1 (not_le.1 hlow)
    have hsmall : ∀ b : TokenBucket, b.capacity = max (1 / 10) (rps : ℚ) → ∀ now, b.grants now = false := by
      intro b hb now
      rw [grants, decide_eq_false_iff_not, not_le]
      refine (min_le_left _ _).trans_lt ?_
      rw [hb]
      exact max_lt (by norm_num) (by linarith)
    have hserved := (hall 0 [] (List.pairwise_singleton _ _)).served 0 (by simp) (hsmall _ rfl 0) _ (le_refl _)
    rw [hsmall _ (by rw [turn_capacity]; rfl)] at hserved
    cases hserved
  · intro hrps start times hsorted
    have hinv := inv_initChainRateLimiter rps start
    have hrun := inv_run hinv times
    refine ⟨fun lo hi => grants_bounded hinv hsorted, ⟨hrun.nonneg, ?_⟩, ?_⟩
    · rw [← run_capacity _ times]
      exact hrun.full
    · intro now _ hshort later hlater
      refine grants_of_waited hrun ?_ hshort hlater
      rw [run_capacity, hcapacity]
      exact le_max_of_le_right (by exact_mod_cast hrps)

/-- at a limit of zero the bucket holds a tenth of a token: the second try fails as the first did -/
theorem starved_at_zero : ¬ Limits 0 0 [] := by
  intro h
  have hserved := h.served 0 (by simp) (by decide +kernel) 9 (by decide +kernel)
  have hstarved : (((initChainRateLimiter 0 0).run []).turn 0).grants 9 = false := by decide +kernel
  rw [hstarved] at hserved
  cases hserved

end Teardrop.RpcLimits
