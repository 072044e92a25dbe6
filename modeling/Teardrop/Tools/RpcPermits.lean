/-
The permits of `rpc_call` (`tools/_internals/_web3_helpers.py`, `_rpc_semaphore.py`): the global semaphore, and inside it the
cooldown, the semaphore and the token bucket of the call's chain.

A call runs from one await to the next without interruption, and every event is one such part: an acquisition that has not to
wait is no await. The waits may end in any order, and a call may be cancelled in any of them. The lock of a bucket is never held
over an await. The text of a rate-limit error is the cooldown parsed from it.
-/
import Teardrop.Core.Locks
import Teardrop.Tools.RateTokens

namespace Teardrop.RpcLimits

/-! ## Model -/

/-- where a call is suspended -/
inductive Phase where
  /-- before a retry -/
  | backoff (wakes : ℚ)
  /-- in line for the global semaphore -/
  | global
  | cooldown (wakes : ℚ)
  /-- in line for the semaphore of the chain -/
  | chain
  | token (wakes : ℚ)
  | requesting
  | done
deriving DecidableEq

/-- a global permit is held -/
def Phase.holds : Phase → Bool
  | .cooldown _ | .chain | .token _ | .requesting => true
  | .backoff _ | .global | .done => false

def Phase.holdsChain : Phase → Bool
  | .token _ | .requesting => true
  | _ => false

structure RpcCall where
  chainId : Option ℤ
  attempt : ℕ
  phase : Phase
deriving DecidableEq

/-- what is registered for a chain: free permits, a bucket -/
structure Chain where
  permits : Option ℕ
  bucket : Option TokenBucket
  cooldownUntil : ℚ

structure World where
  now : ℚ
  /-- free permits of the global semaphore -/
  permits : ℕ
  chains : ℤ → Chain
  calls : List RpcCall

def World.put (w : World) (i : ℕ) (c : RpcCall) (p : Phase) : World := { w with calls := w.calls.set i { c with phase := p } }

def World.setChain (w : World) (id : ℤ) (ch : Chain) : World := { w with chains := Function.update w.chains id ch }

/-- `_acquire_chain_rate_token`, and after it the request -/
def acquireChainRateToken (w : World) (i : ℕ) (c : RpcCall) (id : ℤ) : World :=
  match (w.chains id).bucket with
  | none => w.put i c .requesting
  | some b => (w.setChain id { w.chains id with bucket := some (b.turn w.now) }).put i c
      (if b.grants w.now then .requesting else .token (w.now + b.waitSeconds w.now))

/-- `async with sem` -/
def acquireChainPermit (w : World) (i : ℕ) (c : RpcCall) (id : ℤ) : World :=
  match (w.chains id).permits with
  | none => w.put i c .requesting
  | some 0 => w.put i c .chain
  | some (n + 1) => acquireChainRateToken (w.setChain id { w.chains id with permits := some n }) i c id

def acquireChainSemaphore (w : World) (i : ℕ) (c : RpcCall) : World :=
  match c.chainId with
  | none => w.put i c .requesting
  | some id =>
    if (w.chains id).permits = none then w.put i c .requesting
    else if w.now < (w.chains id).cooldownUntil then w.put i c (.cooldown (w.chains id).cooldownUntil)
    else acquireChainPermit w i c id

def acquireRpcSemaphore (w : World) (i : ℕ) (c : RpcCall) : World :=
  if w.permits = 0 then w.put i c .global else acquireChainSemaphore { w with permits := w.permits - 1 } i c

/-- the permits of a call are given back -/
def release (w : World) (i : ℕ) (c : RpcCall) (p : Phase) : World :=
  let w := if c.phase.holds then { w with permits := w.permits + 1 } else w
  let w := match c.chainId with
    | some id => if c.phase.holdsChain then w.setChain id { w.chains id with permits := (w.chains id).permits.map (· + 1) } else w
    | none => w
  w.put i c p

def retryMax : ℕ := 2

def setChainCooldown (w : World) (chainId : Option ℤ) (seconds : ℚ) : World :=
  match chainId with
  | none => w
  | some id => if seconds ≤ 0 then w
    else w.setChain id { w.chains id with cooldownUntil := max (w.chains id).cooldownUntil (w.now + seconds) }

/-- how a request ends; a rate-limit error has a hint or none, and `jitter` is what `random.uniform` draws -/
inductive Ending where
  | returned
  | timedOut
  | rateLimited (hint : Option ℚ) (jitter : ℚ)
  | failed

inductive Event where
  | wait (seconds : ℚ)
  | call (chainId : Option ℤ)
  /-- a wait of the call is over -/
  | resume (i : ℕ)
  | answer (i : ℕ) (e : Ending)
  | cancel (i : ℕ)

/-- the wait of a call ends, if it may -/
def resume (w : World) (i : ℕ) (c : RpcCall) : World :=
  match c.phase, c.chainId with
  | .backoff wakes, _ => if wakes ≤ w.now then acquireRpcSemaphore w i { c with attempt := c.attempt + 1 } else w
  | .global, _ => acquireRpcSemaphore w i c
  | .cooldown wakes, some id => if wakes ≤ w.now then acquireChainPermit w i c id else w
  | .chain, some id => acquireChainPermit w i c id
  | .token wakes, some id => if wakes ≤ w.now then acquireChainRateToken w i c id else w
  | _, _ => w

/-- the rest of the attempt of `rpc_call` -/
def answer (w : World) (i : ℕ) (c : RpcCall) (e : Ending) : World :=
  match e with
  | .rateLimited hint jitter =>
    let delay := hint.getD 5
    if c.attempt < retryMax then
      setChainCooldown (release w i c (.backoff (w.now + max 0 (delay + delay * jitter)))) c.chainId delay
    else release w i c .done
  | _ => release w i c .done

def step (w : World) : Event → World
  | .wait seconds => { w with now := w.now + max 0 seconds }
  | .call chainId =>
    let c : RpcCall := ⟨chainId, 0, .global⟩
    acquireRpcSemaphore { w with calls := w.calls ++ [c] } w.calls.length c
  | .resume i => match w.calls[i]? with
    | some c => resume w i c
    | none => w
  | .answer i e => match w.calls[i]? with
    | some c => if c.phase = .requesting then answer w i c e else w
    | none => w
  | .cancel i => match w.calls[i]? with
    | some c => release w i c .done
    | none => w

def run (w : World) (events : List Event) : World := Runs.run step w events

/-- after `init_rpc_semaphore(limit)`, with what the chains have registered -/
def init (limit : ℕ) (chains : ℤ → Chain) (now : ℚ) : World := ⟨now, limit, chains, []⟩

/-! ## Who holds permits -/

/-- every global permit is free or held by a running request -/
structure InUse (limit : ℕ) (w : World) : Prop where
  accounted : w.permits + w.calls.countP (fun c => c.phase.holds) = limit
  running : ∀ c ∈ w.calls, c.phase.holds = true → c.phase = .requesting

/-- a request on the chain need not wait: no cooldown, a free permit, a token -/
def Ready (w : World) (chainId : Option ℤ) : Prop :=
  ∀ id ∈ chainId, ∀ n, (w.chains id).permits = some n →
    (w.chains id).cooldownUntil ≤ w.now ∧ 0 < n ∧ ∀ b, (w.chains id).bucket = some b → b.grants w.now = true

/-- an event in which a call takes a global permit finds its chain ready -/
def Prompt (w : World) : Event → Prop
  | .call chainId => 0 < w.permits → Ready w chainId
  | .resume i => ∀ c, w.calls[i]? = some c → (c.phase = .global ∨ ∃ wakes ≤ w.now, c.phase = .backoff wakes) →
      0 < w.permits → Ready w c.chainId
  | _ => True

variable {limit i : ℕ} {w : World} {c c₀ : RpcCall}

theorem acquireChainPermit_spec (w : World) (i : ℕ) (c : RpcCall) (id : ℤ) :
    ∃ p : Phase, p.holds = true ∧ (acquireChainPermit w i c id).permits = w.permits ∧
      (acquireChainPermit w i c id).calls = w.calls.set i { c with phase := p } ∧
      (p = .requesting ↔ ∀ n, (w.chains id).permits = some n →
        0 < n ∧ ∀ b, (w.chains id).bucket = some b → b.grants w.now = true) := by
  unfold acquireChainPermit
  split
  · rename_i hnone
    exact ⟨.requesting, rfl, rfl, rfl, by simp [hnone]⟩
  · rename_i hzero
    exact ⟨.chain, rfl, rfl, rfl, by simp [hzero]⟩
  · rename_i n hfree
    unfold acquireChainRateToken
    have hbucket : ((w.setChain id { w.chains id with permits := some n }).chains id).bucket = (w.chains id).bucket := by
      simp [World.setChain]
    rw [hbucket]
    cases hb : (w.chains id).bucket with
    | none => exact ⟨.requesting, rfl, rfl, rfl, by simp [hfree]⟩
    | some b =>
      by_cases hgrants : b.grants w.now = true
      · exact ⟨.requesting, rfl, rfl, by simp [World.put, World.setChain, hgrants], by simp [hfree, hgrants]⟩
      · exact ⟨.token (w.now + b.waitSeconds w.now), rfl, rfl, by simp [World.put, World.setChain, hgrants],
          by simp [hfree, hgrants]⟩

theorem acquireChainSemaphore_spec (w : World) (i : ℕ) (c : RpcCall) :
    ∃ p : Phase, p.holds = true ∧ (acquireChainSemaphore w i c).permits = w.permits ∧
      (acquireChainSemaphore w i c).calls = w.calls.set i { c with phase := p } ∧ (p = .requesting ↔ Ready w c.chainId) := by
  obtain ⟨chainId, attempt, phase⟩ := c
  unfold acquireChainSemaphore Ready
  cases chainId with
  | none => exact ⟨.requesting, rfl, rfl, rfl, by simp⟩
  | some id =>
    dsimp only
    split_ifs with hnone hcool
    · exact ⟨.requesting, rfl, rfl, rfl, by simp [hnone]⟩
    · obtain ⟨n, hn⟩ := Option.ne_none_iff_exists'.1 hnone
      exact ⟨.cooldown _, rfl, rfl, rfl, by simp [hn, hcool]⟩
    · obtain ⟨p, hholds, hpermits, hcalls, hp⟩ := acquireChainPermit_spec w i ⟨some id, attempt, phase⟩ id
      exact ⟨p, hholds, hpermits, hcalls, by simp [hp, not_lt.1 hcool]⟩

/-- a call in line takes a permit, or stays in line -/
theorem acquireRpcSemaphore_iff (h : InUse limit w) (hi : w.calls[i]? = some c₀) (hc₀ : c₀.phase.holds = false) :
    InUse limit (acquireRpcSemaphore w i c) ↔ (0 < w.permits → Ready w c.chainId) := by
  have hothers : ∀ {b d : RpcCall}, d ∈ w.calls.set i b → d ≠ b → d ∈ w.calls := fun hd hne =>
    List.mem_of_mem_eraseIdx ((Locks.mem_set hi hd).resolve_left hne)
  unfold acquireRpcSemaphore
  split_ifs with hfree
  · refine ⟨fun _ hpos => absurd hfree hpos.ne', fun _ => ⟨?_, ?_⟩⟩
    · have hcount := Locks.countP_set_add hi (fun d => d.phase.holds) { c with phase := .global }
      have hline : Phase.holds .global = false := rfl
      simp only [hc₀, hline, Bool.false_eq_true, if_false, Nat.add_zero] at hcount
      exact (congrArg (w.permits + ·) hcount).trans h.accounted
    · intro d hd hholds
      refine h.running d (hothers hd ?_) hholds
      rintro rfl
      cases hholds
  · obtain ⟨p, hholds, hpermits, hcalls, hp⟩ := acquireChainSemaphore_spec { w with permits := w.permits - 1 } i c
    have hready : p = .requesting ↔ Ready w c.chainId := hp
    have hmem : ({ c with phase := p } : RpcCall) ∈ w.calls.set i { c with phase := p } :=
      List.mem_set (List.getElem?_eq_some_iff.1 hi).1 _
    constructor
    · intro hafter _
      exact hready.1 (hafter.running _ (by rw [hcalls]; exact hmem) hholds)
    · intro hok
      refine ⟨?_, ?_⟩
      · have hcount := Locks.countP_set_add hi (fun d => d.phase.holds) { c with phase := p }
        have htotal := h.accounted
        simp only [hc₀, hholds, Bool.false_eq_true, if_false, if_true] at hcount
        simp only [hpermits, hcalls]
        omega
      · intro d hd hdholds
        rw [hcalls] at hd
        by_cases hnew : d = { c with phase := p }
        · rw [hnew]
          exact hready.2 (hok (Nat.pos_of_ne_zero hfree))
        · exact h.running d (hothers hd hnew) hdholds

theorem release_permits (w : World) (i : ℕ) (c : RpcCall) (p : Phase) :
    (release w i c p).permits = w.permits + (if c.phase.holds then 1 else 0) ∧
      (release w i c p).calls = w.calls.set i { c with phase := p } := by
  obtain ⟨chainId, attempt, phase⟩ := c
  unfold release
  cases chainId <;> dsimp only <;> split_ifs <;> exact ⟨rfl, rfl⟩

theorem InUse.congr {w' : World} (h : InUse limit w) (hpermits : w'.permits = w.permits) (hcalls : w'.calls = w.calls) :
    InUse limit w' :=
  ⟨by rw [hpermits, hcalls]; exact h.accounted, by rw [hcalls]; exact h.running⟩

theorem InUse.release (h : InUse limit w) (hi : w.calls[i]? = some c) {p : Phase} (hp : p.holds = false) :
    InUse limit (release w i c p) := by
  obtain ⟨hpermits, hcalls⟩ := release_permits w i c p
  refine ⟨?_, ?_⟩
  · have hcount := Locks.countP_set_add hi (fun d => d.phase.holds) { c with phase := p }
    have htotal := h.accounted
    simp only [hp, Bool.false_eq_true, if_false] at hcount
    rw [hpermits, hcalls]
    omega
  · intro d hd hholds
    rw [hcalls] at hd
    rcases Locks.mem_set hi hd with rfl | hd
    · rw [hp] at hholds
      cases hholds
    · exact h.running d (List.mem_of_mem_eraseIdx hd) hholds

theorem setChainCooldown_permits (w : World) (chainId : Option ℤ) (seconds : ℚ) :
    (setChainCooldown w chainId seconds).permits = w.permits ∧ (setChainCooldown w chainId seconds).calls = w.calls := by
  unfold setChainCooldown
  cases chainId <;> dsimp only
  · exact ⟨rfl, rfl⟩
  · split_ifs <;> exact ⟨rfl, rfl⟩

theorem InUse.answer (h : InUse limit w) (hi : w.calls[i]? = some c) (e : Ending) : InUse limit (answer w i c e) := by
  cases e with
  | rateLimited hint jitter =>
    simp only [RpcLimits.answer]
    split_ifs
    · obtain ⟨hpermits, hcalls⟩ := setChainCooldown_permits (RpcLimits.release w i c _) c.chainId (hint.getD 5)
      exact (h.release hi rfl).congr hpermits hcalls
    · exact h.release hi rfl
  | returned | timedOut | failed => exact h.release hi rfl

theorem resume_iff (h : InUse limit w) (hi : w.calls[i]? = some c) : InUse limit (resume w i c) ↔
      ((c.phase = .global ∨ ∃ wakes ≤ w.now, c.phase = .backoff wakes) → 0 < w.permits → Ready w c.chainId) := by
  have hrunning := h.running c (List.mem_of_getElem? hi)
  unfold resume
  cases hphase : c.phase with
  | backoff wakes =>
    dsimp only
    split_ifs with hwakes
    · rw [acquireRpcSemaphore_iff h hi (by rw [hphase]; rfl)]
      simp [hwakes]
    · simp [h, hwakes]
  | global =>
    rw [acquireRpcSemaphore_iff h hi (by rw [hphase]; rfl)]
    simp
  | requesting | done => simp [h]
  | cooldown _ | chain | token _ =>
    -- such a call holds a permit and is not running
    rw [hphase] at hrunning
    cases hrunning rfl

theorem step_iff (h : InUse limit w) (ev : Event) : InUse limit (step w ev) ↔ Prompt w ev := by
  cases ev with
  | wait seconds => exact ⟨fun _ => trivial, fun _ => h.congr rfl rfl⟩
  | call chainId =>
    have hjoined : InUse limit { w with calls := w.calls ++ [⟨chainId, 0, .global⟩] } := by
      refine ⟨by simpa [List.countP_append, Phase.holds] using h.accounted, ?_⟩
      intro c hc hholds
      rcases List.mem_append.1 hc with hc | hc
      · exact h.running c hc hholds
      · rw [List.mem_singleton.1 hc] at hholds
        cases hholds
    have hlast : (w.calls ++ [⟨chainId, 0, .global⟩])[w.calls.length]? = some ⟨chainId, 0, .global⟩ := by simp
    exact acquireRpcSemaphore_iff hjoined hlast rfl
  | resume i =>
    simp only [step, Prompt]
    cases hi : w.calls[i]? with
    | none => simp [h]
    | some c => simpa using resume_iff h hi
  | answer i e =>
    refine ⟨fun _ => trivial, fun _ => ?_⟩
    simp only [step]
    cases hi : w.calls[i]? with
    | none => exact h
    | some c =>
      dsimp only
      split_ifs
      · exact h.answer hi e
      · exact h
  | cancel i =>
    refine ⟨fun _ => trivial, fun _ => ?_⟩
    simp only [step]
    cases hi : w.calls[i]? with
    | none => exact h
    | some c => exact h.release hi rfl

/-- **Permits and waits.** In every state of a run the global permits that are not free are held by running requests, exactly
when every call that takes one finds its chain ready. -/
theorem permits_in_use_iff (limit : ℕ) (chains : ℤ → Chain) (now : ℚ) (events : List Event) :
    (∀ n, InUse limit (run (init limit chains now) (events.take n))) ↔ Runs.Legal step Prompt (init limit chains now) events :=
  Runs.legal_iff step Prompt (InUse limit) (fun _ ev h => step_iff h ev) events ⟨rfl, fun _ hc => absurd hc List.not_mem_nil⟩

/-- two calls of one chain with a single permit: the second takes the last global permit and waits with it -/
theorem second_call_blocks :
    ¬ ∀ n, InUse 2 (run (init 2 (fun _ => ⟨some 1, none, 0⟩) 0) ([.call (some 1), .call (some 1)].take n)) := by
  intro h
  have hrunning := (h 2).running ⟨some 1, 0, .chain⟩ (by decide +kernel) rfl
  cases hrunning

/-! ## Conservation -/

variable {w' : World} {id : ℤ}

/-- the global permits, free or held -/
def World.total (w : World) : ℕ := w.permits + w.calls.countP (fun c => c.phase.holds)

theorem total_set (hi : w.calls[i]? = some c₀) (hcalls : w'.calls = w.calls.set i c)
    (hpermits : w'.permits + (if c.phase.holds then 1 else 0) = w.permits + if c₀.phase.holds then 1 else 0) :
    w'.total = w.total := by
  have hcount := Locks.countP_set_add hi (fun d => d.phase.holds) c
  unfold World.total
  rw [hcalls]
  omega

theorem acquireRpcSemaphore_total (hi : w.calls[i]? = some c₀) (hc₀ : c₀.phase.holds = false) :
    (acquireRpcSemaphore w i c).total = w.total := by
  unfold acquireRpcSemaphore
  split_ifs with hfree
  · exact total_set hi rfl (by rw [hc₀]; rfl)
  · obtain ⟨p, hholds, hpermits, hcalls, -⟩ := acquireChainSemaphore_spec { w with permits := w.permits - 1 } i c
    refine total_set hi hcalls ?_
    simp only [hpermits, hholds, hc₀, if_true, Bool.false_eq_true, if_false]
    omega

theorem release_total (hi : w.calls[i]? = some c) {p : Phase} (hp : p.holds = false) : (release w i c p).total = w.total := by
  obtain ⟨hpermits, hcalls⟩ := release_permits w i c p
  exact total_set hi hcalls (by simp [hpermits, hp])

/-- a call that holds a permit goes on to its chain's -/
theorem acquireChainPermit_total (hi : w.calls[i]? = some c) (hc : c.phase.holds = true) :
    (acquireChainPermit w i c id).total = w.total := by
  obtain ⟨p, hholds, hpermits, hcalls, -⟩ := acquireChainPermit_spec w i c id
  exact total_set hi hcalls (by simp [hpermits, hholds, hc])

theorem acquireChainRateToken_total (hi : w.calls[i]? = some c) (hc : c.phase.holds = true) :
    (acquireChainRateToken w i c id).total = w.total := by
  unfold acquireChainRateToken
  split
  · exact total_set hi rfl (by rw [hc]; rfl)
  · refine total_set hi rfl ?_
    rw [hc]
    dsimp only
    split <;> rfl

theorem resume_total (hi : w.calls[i]? = some c) : (resume w i c).total = w.total := by
  unfold resume
  split
  · rename_i hphase
    split_ifs
    · exact acquireRpcSemaphore_total hi (by simp [hphase, Phase.holds])
    · rfl
  · rename_i hphase
    exact acquireRpcSemaphore_total hi (by simp [hphase, Phase.holds])
  · rename_i hphase _
    split_ifs
    · exact acquireChainPermit_total hi (by simp [hphase, Phase.holds])
    · rfl
  · rename_i hphase _
    exact acquireChainPermit_total hi (by simp [hphase, Phase.holds])
  · rename_i hphase _
    split_ifs
    · exact acquireChainRateToken_total hi (by simp [hphase, Phase.holds])
    · rfl
  · rfl

theorem answer_total (hi : w.calls[i]? = some c) (e : Ending) : (answer w i c e).total = w.total := by
  cases e with
  | rateLimited hint jitter =>
    simp only [answer]
    split_ifs
    · obtain ⟨hpermits, hcalls⟩ := setChainCooldown_permits (release w i c (.backoff _)) c.chainId (hint.getD 5)
      unfold World.total
      rw [hpermits, hcalls]
      exact release_total hi rfl
    · exact release_total hi rfl
  | returned | timedOut | failed => exact release_total hi rfl

theorem step_total (w : World) (ev : Event) : (step w ev).total = w.total := by
  cases ev with
  | wait seconds => rfl
  | call chainId =>
    have hlast : (w.calls ++ [⟨chainId, 0, .global⟩])[w.calls.length]? = some ⟨chainId, 0, .global⟩ := by simp
    refine (acquireRpcSemaphore_total hlast rfl).trans ?_
    simp [World.total, List.countP_append, Phase.holds]
  | resume i =>
    simp only [step]
    cases hi : w.calls[i]? with
    | none => rfl
    | some c => exact resume_total hi
  | answer i e =>
    simp only [step]
    cases hi : w.calls[i]? with
    | none => rfl
    | some c =>
      dsimp only
      split_ifs
      · exact answer_total hi e
      · rfl
  | cancel i =>
    simp only [step]
    cases hi : w.calls[i]? with
    | none => rfl
    | some c => exact release_total hi rfl

theorem requesting_le (w : World) : w.calls.countP (·.phase = .requesting) ≤ w.total :=
  (List.countP_mono_left fun c _ h => by rw [of_decide_eq_true h]; rfl).trans (Nat.le_add_left _ w.permits)

/-- **No permit is lost.** Whatever waits, errors and cancellations do, in every state of a run each global permit is free or held
by a call, and no more requests run than there are permits. -/
theorem permits_conserved (limit : ℕ) (chains : ℤ → Chain) (now : ℚ) (events : List Event) :
    (run (init limit chains now) events).total = limit ∧
      (run (init limit chains now) events).calls.countP (·.phase = .requesting) ≤ limit := by
  have htotal : (run (init limit chains now) events).total = limit :=
    Runs.run_inv step (fun w => w.total = limit) (fun w ev h => (step_total w ev).trans h) events rfl
  exact ⟨htotal, (requesting_le _).trans htotal.le⟩

end Teardrop.RpcLimits
