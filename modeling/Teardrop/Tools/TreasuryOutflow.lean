/-
Any number of delegations that pay from the treasury, at the same time. A call of `delegate_to_agent` is quoted, takes
its pre-debit and sends its message; on a 402 it picks an offer, signs it (`_sign_x402_payment`), and only then runs the
delivery mark, here statement by statement: the row read `FOR UPDATE`, the treasury's advisory lock, the sum of the last 24
hours as of the transaction's start, the row written and the commit. The payment is sent once the mark has returned. Between
these the clock may move, other calls take theirs and any other operation may run that changes no row a mark has locked.
-/
import Teardrop.Core.Locks
import Teardrop.Tools.DelegationQuote

namespace Teardrop.Tools

open Teardrop.Py
open Teardrop.Billing
open List (mem_append mem_cons_self mem_cons_of_mem mem_of_mem_eraseIdx mem_of_getElem? mem_cons)

/-! ## The payment that is signed -/

/-- one of the offers of a 402 response: a plain dict, or a model with attributes -/
inductive Requirement where
  | dict (fields : List (String × Json))
  | model (attrs : List (String × Json))

namespace Requirement

/-- `_requirement_value`, with `None` for want of a value -/
def value (key : String) : Requirement → Json
  | .dict fields => (Json.lookup fields key).getD .null
  | .model attrs => (Json.lookup attrs key).getD .null

def isNone : Json → Bool
  | .null => true
  | _ => false

/-- the field an amount is read from: the current name, then the two legacy ones -/
def rawAmount (r : Requirement) : Json :=
  let amount := r.value "amount"
  let amount := match r with
    | .dict _ => if isNone amount then r.value "maxAmountRequired" else amount
    | .model _ => amount
  if isNone amount then r.value "max_amount_required" else amount

/-- `_payment_requirement_amount` -/
def amount (r : Requirement) : Call (Option ℤ) :=
  match r.rawAmount.toInt with
  | .ok n => .ok (if 0 < n then some n else none)
  | .error .typeError => .ok none
  | .error (.valueError _) => .ok none
  | .error e => .error e

/-- `value in networks`, for a frozenset of texts; a value that cannot be hashed raises -/
def isAmong (networks : List String) : Json → Call Bool
  | .str s => .ok (decide (s ∈ networks))
  | .arr _ => .error .typeError
  | .obj _ => .error .typeError
  | _ => .ok false

def isExact : Json → Bool
  | .str s => s = "exact"
  | _ => false

/-- the amount of an offer that may be signed: exact, on an allowed network and within the cap -/
def acceptable (cap : ℤ) (networks : List String) (r : Requirement) : Call (Option ℤ) :=
  if ¬ isExact (r.value "scheme") then .ok none
  else do
    if ← isAmong networks (r.value "network") then return (← r.amount).filter (fun a => a ≤ cap)
    else return none

/-- the offers that may be signed, with their amounts -/
def acceptedOffers (cap : ℤ) (networks : List String) : List Requirement → Call (List (ℤ × Requirement))
  | [] => .ok []
  | r :: rest => do
    let amount ← r.acceptable cap networks
    let others ← acceptedOffers cap networks rest
    return (amount.map (·, r)).toList ++ others

/-- `min(offers, key=...)`: the first of the cheapest -/
def cheapest : List (ℤ × Requirement) → Option (ℤ × Requirement)
  | [] => none
  | offer :: rest =>
    match cheapest rest with
    | none => some offer
    | some other => if other.1 < offer.1 then some other else some offer

end Requirement

/-- the offer `_sign_x402_payment` signs: the cheapest it may; `accepts` is what `_decode_payment_required` read, and
any exception means that none is signed -/
def selectOffer (cap : ℤ) (networks : List String) (accepts : Call (List Requirement)) : Option (ℤ × Requirement) :=
  match accepts >>= Requirement.acceptedOffers cap networks with
  | .ok offers => Requirement.cheapest offers
  | .error _ => none

/-! ## The mark, statement by statement -/

/-- what the first statement of `mark_delegation_possibly_delivered` finds, and the checks on it -/
inductive Found where
  | missing
  | already
  | closed
  | outOfRange
  | ready (row : OutboxRow)
deriving DecidableEq

def findRow (org d : String) (charge : ℤ) (db : Db) : Found :=
  match outboxRow org d db with
  | none => .missing
  | some row =>
    if row.deliveryStatus = .possiblyDelivered ∨ row.deliveryStatus = .confirmed then .already
    else if row.deliveryStatus ≠ .notAttempted ∨ ¬ (row.status = .pending ∨ row.status = .refundRequested) then .closed
    else if charge ≤ 0 ∨ row.amountUsdc < charge then .outOfRange
    else .ready row

/-- a mark under way: the payment it is for, the start of its transaction and what it has read -/
structure Mark where
  amount : ℤ
  began : ℤ
  row : OutboxRow
  principal : Option String
deriving DecidableEq

/-- how far a call has come -/
inductive Stage where
  | prepared
  | funded
  | signed (amount : ℤ)
  /-- the transaction of the mark has begun -/
  | marking (amount began : ℤ)
  /-- its row is read and locked, and the charge in range -/
  | rowLocked (m : Mark)
  /-- it holds the treasury's advisory lock -/
  | serialized (m : Mark)
  /-- the sum is read, and within the cap -/
  | cleared (m : Mark)
  | marked (amount : ℤ)
deriving DecidableEq

/-- a call of `delegate_to_agent` under way -/
structure Outgoing where
  d : Delegation
  signingCap : ℤ
  stage : Stage

namespace Outgoing

/-- `charge_usdc` of `_on_payment_attempt` -/
def charge (c : Outgoing) (amount : ℤ) : ℤ := applyPlatformFee c.d.platformFeeBps amount

/-- the mark that holds the call's row -/
def rowLock (c : Outgoing) : Option Mark :=
  match c.stage with
  | .rowLocked m => some m
  | .serialized m => some m
  | .cleared m => some m
  | _ => none

/-- the treasury's advisory lock; there is one key -/
def treasuryLock (c : Outgoing) : Option Unit :=
  match c.stage with
  | .serialized _ => some ()
  | .cleared _ => some ()
  | _ => none

/-- a change of the store that leaves the row the call has locked alone -/
def spared (db db' : Db) (c : Outgoing) : Bool :=
  c.rowLock.isNone || decide (db'.outbox.get? c.d.id = db.outbox.get? c.d.id)

end Outgoing

/-! ## All calls together -/

/-- a signed payment: its delegation, the amount and the cap it was signed under -/
structure Payment where
  delegation : String
  amount : ℤ
  signingCap : ℤ
deriving DecidableEq

/-- the settings in force -/
structure Deployment where
  billing : Settings
  py : Interp
  delegate : DelegateSettings
  x402Network : String

structure Traffic where
  clock : ℤ
  sys : Sys
  calls : List Outgoing
  /-- the delegation ids drawn so far -/
  drawn : List String
  signed : List Payment
  sent : List Payment

inductive Happening where
  | tick (elapsed : ℕ)
  /-- a call with a fresh delegation id passes its checks; `seen` is what the budget check read -/
  | start (ctx : RunContext) (agentUrl runId id : String) (timeoutSeconds : ℤ) (l : Lookups) (seen : Db)
  /-- the remote agent answers 402; `accepts` are its offers, as far as they decode -/
  | demand (i : ℕ) (accepts : Call (List Requirement)) (signs : Bool)
  /-- a call takes its next statement -/
  | advance (i : ℕ) (e : Env)
  /-- a call ends, or is lost: its open transaction is rolled back -/
  | drop (i : ℕ)
  /-- any other operation of the billing machine -/
  | other (op : Op)

namespace Traffic

def initial (clock : ℤ) (s : Sys) : Traffic := ⟨clock, s, [], [], [], []⟩

/-- the call `delegate_to_agent` makes of what it prepared -/
def begin (dep : Deployment) (ctx : RunContext) (agentUrl runId id : String) (timeoutSeconds : ℤ) (p : Prepared) :
    Outgoing :=
  { d := ⟨ctx.orgId, runId, agentUrl, p.agentName, if ctx.principalId = "" then none else some ctx.principalId, id,
      p.estimatedCost, p.useX402, dep.delegate.a2aDelegationPlatformFeeBps, timeoutSeconds⟩
    signingCap := p.signingCap
    stage := .prepared }

def put (w : Traffic) (i : ℕ) (c : Outgoing) (stage : Stage) : Traffic :=
  { w with calls := w.calls.set i { c with stage := stage } }

def erase (w : Traffic) (i : ℕ) : Traffic := { w with calls := w.calls.eraseIdx i }

def withDb (w : Traffic) (db : Db) : Traffic := { w with sys := { w.sys with db := db } }

/-- the next statement of a call -/
def advance (dep : Deployment) (w : Traffic) (i : ℕ) (e : Env) (c : Outgoing) : Traffic :=
  match c.stage with
  | .prepared =>
    let r := fundDelegation dep.billing { e with now := w.clock } c.d w.sys.db
    if r.1.1 then (w.put i c .funded).withDb r.2 else (w.erase i).withDb r.2
  -- the message is out: `demand` or `drop` comes next
  | .funded => w
  | .signed a => w.put i c (.marking a w.clock)
  | .marking a t =>
    match findRow c.d.org c.d.id (c.charge a) w.sys.db with
    | .already => w.put i c (.marked a)
    | .ready row => w.put i c (.rowLocked ⟨a, t, row, joinedPrincipal row w.sys.db⟩)
    | _ => w.erase i
  | .rowLocked m =>
    if () ∈ Locks.held Outgoing.treasuryLock w.calls then w else w.put i c (.serialized m)
  | .serialized m =>
    if dep.billing.a2aTreasuryDailyOutflowCapUsdc < signed24h m.began w.sys.db + c.charge m.amount then w.erase i
    else w.put i c (.cleared m)
  | .cleared m =>
    match call (e.fault 0) (beginDelivery m.began (e.uuid 0) c.d.org c.d.id m.row m.principal (c.charge m.amount))
        w.sys.db with
    | (.ok _, db) => (w.put i c (.marked m.amount)).withDb db
    | (.error _, db) => (w.erase i).withDb db
  | .marked a => { w.erase i with sent := ⟨c.d.id, a, c.signingCap⟩ :: w.sent }

/-- `_sign_x402_payment` on a 402; what the signer was asked for counts as signed, whatever came of it -/
def demand (dep : Deployment) (w : Traffic) (i : ℕ) (accepts : Call (List Requirement)) (signs : Bool) (c : Outgoing) :
    Traffic :=
  if c.stage = .funded ∧ c.d.useX402 = true then
    match selectOffer c.signingCap [dep.x402Network] accepts with
    | none => w.erase i
    | some (a, _) =>
      let w' := if signs then w.put i c (.signed a) else w.erase i
      { w' with signed := ⟨c.d.id, a, c.signingCap⟩ :: w.signed }
  else w

def step (dep : Deployment) (w : Traffic) : Happening → Traffic
  | .tick elapsed => { w with clock := w.clock + elapsed }
  | .start ctx agentUrl runId id timeoutSeconds l seen =>
    if id ∈ w.drawn then w
    else match prepare dep.delegate ctx l agentUrl seen with
      -- without billing nothing is pre-debited or signed
      | .ok (.ok p) =>
        if p.billed then
          { w with calls := w.calls ++ [begin dep ctx agentUrl runId id timeoutSeconds p], drawn := id :: w.drawn }
        else w
      | _ => w
  | .demand i accepts signs =>
    match w.calls[i]? with
    | none => w
    | some c => w.demand dep i accepts signs c
  | .advance i e =>
    match w.calls[i]? with
    | none => w
    | some c => w.advance dep i e c
  | .drop i => w.erase i
  | .other op =>
    if op.marks ∨ op.funds.isSome ∨ ¬ w.calls.all (Outgoing.spared w.sys.db (next dep.billing dep.py w.sys op).db) then w
    else { w with sys := next dep.billing dep.py w.sys op }

def run (dep : Deployment) (w : Traffic) (hs : List Happening) : Traffic := Runs.run (step dep) w hs

end Traffic

/-! ## What may be signed, and what it is charged at -/

namespace Requirement

variable {networks : List String} {offers : List (ℤ × Requirement)}

theorem acceptable_ok {cap : ℤ} {r : Requirement} {a : ℤ} (h : r.acceptable cap networks = .ok (some a)) :
    0 < a ∧ a ≤ cap := by
  unfold acceptable at h
  split at h
  · cases h
  · obtain ⟨among, -, h⟩ := bind_eq_ok h
    cases among with
    | false => cases h
    | true =>
      obtain ⟨amount, hamount, h⟩ := bind_eq_ok h
      cases h' : amount.filter (fun a => a ≤ cap) with
      | none => rw [h'] at h; cases h
      | some b =>
        rw [h'] at h
        cases h
        rw [Option.filter_eq_some_iff] at h'
        obtain ⟨rfl, hcap⟩ := h'
        refine ⟨?_, by simpa using hcap⟩
        unfold Requirement.amount at hamount
        split at hamount
        · next n hn =>
          cases hpos : decide (0 < n) with
          | false => simp at hpos; simp [not_lt.2 hpos] at hamount
          | true => simp at hpos; simp [hpos] at hamount; omega
        · cases hamount
        · cases hamount
        · cases hamount

theorem acceptedOffers_ok {cap : ℤ} {rs : List Requirement} (h : acceptedOffers cap networks rs = .ok offers) :
    ∀ o ∈ offers, 0 < o.1 ∧ o.1 ≤ cap := by
  induction rs generalizing offers with
  | nil =>
    cases h
    intro o ho
    cases ho
  | cons r rest ih =>
    obtain ⟨amount, hr, h⟩ := bind_eq_ok h
    obtain ⟨others, hrest, h⟩ := bind_eq_ok h
    cases h
    intro o ho
    rcases mem_append.1 ho with ho | ho
    · cases amount with
      | none => cases ho
      | some a =>
        cases List.mem_singleton.1 ho
        exact acceptable_ok hr
    · exact ih hrest o ho

theorem cheapest_mem {o : ℤ × Requirement} (h : cheapest offers = some o) : o ∈ offers := by
  induction offers with
  | nil => cases h
  | cons offer rest ih =>
    unfold cheapest at h
    cases hrest : cheapest rest with
    | none =>
      rw [hrest] at h
      cases h
      exact mem_cons_self
    | some other =>
      rw [hrest] at h
      by_cases hless : other.1 < offer.1
      · simp only [if_pos hless] at h
        cases h
        exact mem_cons_of_mem _ (ih hrest)
      · simp only [if_neg hless] at h
        cases h
        exact mem_cons_self

end Requirement

variable {a : ℤ} {cfg : DelegationSettings}

theorem selectOffer_bounds {cap : ℤ} {networks : List String} {accepts : Call (List Requirement)} {r : Requirement}
    (h : selectOffer cap networks accepts = some (a, r)) : 0 < a ∧ a ≤ cap := by
  unfold selectOffer at h
  split at h
  · next offers hoffers =>
    obtain ⟨rs, -, hrs⟩ := bind_eq_ok hoffers
    exact Requirement.acceptedOffers_ok hrs _ (Requirement.cheapest_mem h)
  · cases h

theorem applyPlatformFee_mono {bps b : ℤ} (hbps : 0 ≤ bps) (h : a ≤ b) :
    applyPlatformFee bps a ≤ applyPlatformFee bps b := by
  unfold applyPlatformFee
  have hfee : a * bps / 10000 ≤ b * bps / 10000 :=
    Int.ediv_le_ediv (by decide) (mul_le_mul_of_nonneg_right h hbps)
  omega

theorem le_applyPlatformFee {bps : ℤ} (hbps : 0 ≤ bps) (ha : 0 ≤ a) : a ≤ applyPlatformFee bps a := by
  unfold applyPlatformFee
  have hfee : 0 ≤ a * bps / 10000 := Int.ediv_nonneg (mul_nonneg ha hbps) (by decide)
  omega

theorem quote_cost {rule : Option AgentRule} {card : AgentCard} {q : Quote} (h : quote cfg rule card = .ok q) :
    q.estimatedCost = applyPlatformFee cfg.a2aDelegationPlatformFeeBps q.signingCap := by
  unfold quote at h
  cases hp : card.pricePerTaskUsdc with
  | none =>
    rw [hp] at h
    cases h
    rfl
  | some price =>
    rw [hp] at h
    by_cases hcap : delegationCap cfg rule < price
    · simp only [if_pos hcap] at h
      cases h
    · simp only [if_neg hcap] at h
      cases h
      rfl

variable {db db' : Db}

theorem checkBudget_ok {ctx : RunContext} {l : Lookups} {q q' : Quote} (h : checkBudget cfg ctx l q db = .ok (.ok q')) :
    q' = q := by
  obtain ⟨found, -, h⟩ := bind_eq_ok h
  cases found with
  | none => cases h; rfl
  | some error => cases h

/-- **The pre-debit covers the signing cap.** What a billed delegation is held at is its signing cap with the fee. -/
theorem prepare_cost {cfg : DelegateSettings} {ctx : RunContext} {l : Lookups} {agentUrl : String} {p : Prepared}
    (h : prepare cfg ctx l agentUrl db = .ok (.ok p)) (hbilled : p.billed = true) :
    p.estimatedCost = applyPlatformFee cfg.a2aDelegationPlatformFeeBps p.signingCap := by
  unfold prepare at h
  split at h
  · cases h
  split at h
  · cases h
  split at h
  · cases h
  split at h
  · cases h
  next allowed rule _ =>
  dsimp only at h
  split at h
  · cases h
  split at h
  · cases h
  split at h
  · cases h
    cases hbilled
  split at h
  · cases h
  · next q hq =>
    obtain ⟨found, hfound, h⟩ := bind_eq_ok h
    cases found with
    | error r => cases h
    | ok q' =>
      cases h
      cases checkBudget_ok hfound
      exact quote_cost hq

/-! ## The invariant -/

/-- the row under `x`, if any, is still there and follows what it was -/
def RowFollows (db db' : Db) (x : String) : Prop :=
  (db.outbox.get? x = none ∧ db'.outbox.get? x = none) ∨
  ∃ r r', db.outbox.get? x = some r ∧ db'.outbox.get? x = some r' ∧ Follows r r'

theorem RowFollows.of_eq {x : String} (h : db'.outbox.get? x = db.outbox.get? x) : RowFollows db db' x := by
  unfold RowFollows
  rw [h]
  cases db.outbox.get? x with
  | none => exact Or.inl ⟨rfl, rfl⟩
  | some r => exact Or.inr ⟨r, r, rfl, rfl, Follows.refl r⟩

/-- the row of a sent payment: delivery has begun, or was found confirmed, and what it holds covers the charge -/
def Payment.Covered (dep : Deployment) (db : Db) (p : Payment) : Prop :=
  ∃ row, db.outbox.get? p.delegation = some row ∧
    (row.deliveryStartedAt.isSome ∨ row.deliveryStatus = .confirmed) ∧
    (0 ≤ dep.delegate.a2aDelegationPlatformFeeBps →
      applyPlatformFee dep.delegate.a2aDelegationPlatformFeeBps p.amount ≤ row.amountUsdc)

theorem Payment.Covered.mono {dep : Deployment} {p : Payment} (h : p.Covered dep db)
    (hrow : RowFollows db db' p.delegation) : p.Covered dep db' := by
  obtain ⟨row, hget, hbegun, hcost⟩ := h
  rcases hrow with ⟨hnone, -⟩ | ⟨r, r', hr, hr', hf⟩
  · rw [hget] at hnone
    cases hnone
  · rw [hget] at hr
    cases hr
    refine ⟨r', hr', ?_, fun hfee => hf.amount ▸ hcost hfee⟩
    rw [hf.started]
    exact hbegun.imp id hf.confirmed

namespace Outgoing

/-- the payment a call has signed -/
def payment (c : Outgoing) : Option Payment :=
  match c.stage with
  | .prepared => none
  | .funded => none
  | .signed a => some ⟨c.d.id, a, c.signingCap⟩
  | .marking a _ => some ⟨c.d.id, a, c.signingCap⟩
  | .rowLocked m => some ⟨c.d.id, m.amount, c.signingCap⟩
  | .serialized m => some ⟨c.d.id, m.amount, c.signingCap⟩
  | .cleared m => some ⟨c.d.id, m.amount, c.signingCap⟩
  | .marked a => some ⟨c.d.id, a, c.signingCap⟩

/-- the call's row, if there is one, holds the pre-debit and has not started -/
def Unstarted (db : Db) (c : Outgoing) : Prop :=
  ∀ row, db.outbox.get? c.d.id = some row → row.amountUsdc = c.d.estimatedCost ∧ row.deliveryStartedAt = none

/-- what a mark knows of the row it has locked -/
structure Locked (clock : ℤ) (db : Db) (c : Outgoing) (m : Mark) : Prop where
  row : db.outbox.get? c.d.id = some m.row
  org : m.row.orgId = c.d.org
  charge : 0 < c.charge m.amount
  unstarted : m.row.deliveryStartedAt = none
  began : m.began ≤ clock

/-- what holds at each stage of a call -/
def Ok (dep : Deployment) (clock : ℤ) (db : Db) (c : Outgoing) : Prop :=
  match c.stage with
  | .prepared => db.outbox.get? c.d.id = none
  | .funded => c.Unstarted db
  | .signed _ => c.Unstarted db
  | .marking _ t => c.Unstarted db ∧ t ≤ clock
  | .rowLocked m => c.Locked clock db m
  | .serialized m => c.Locked clock db m
  | .cleared m => c.Locked clock db m ∧ signed24h m.began db + c.charge m.amount ≤ dep.billing.a2aTreasuryDailyOutflowCapUsdc
  | .marked a => Payment.Covered dep db ⟨c.d.id, a, c.signingCap⟩

variable {c : Outgoing}

theorem Unstarted.mono (h : c.Unstarted db) (hrow : RowFollows db db' c.d.id) : c.Unstarted db' := by
  intro row hget
  rcases hrow with ⟨-, hnone⟩ | ⟨r, r', hr, hr', hf⟩
  · rw [hget] at hnone
    cases hnone
  · rw [hget] at hr'
    cases hr'
    obtain ⟨hamount, hstarted⟩ := h r hr
    exact ⟨hf.amount.trans hamount, hf.started.trans hstarted⟩

theorem Locked.mono {clock clock' : ℤ} {m : Mark} (h : c.Locked clock db m) (hclock : clock ≤ clock')
    (hsame : db'.outbox.get? c.d.id = db.outbox.get? c.d.id) : c.Locked clock' db' m :=
  ⟨hsame.trans h.row, h.org, h.charge, h.unstarted, h.began.trans hclock⟩

theorem Locked.at {clock : ℤ} {m : Mark} (h : c.Locked clock db m) (stage : Stage) :
    Outgoing.Locked clock db { c with stage := stage } m :=
  ⟨h.row, h.org, h.charge, h.unstarted, h.began⟩

/-- a call keeps what it knows: its row follows, a locked row stays as it is, and nothing is summed past a lock -/
theorem Ok.mono {dep : Deployment} {clock clock' : ℤ} (h : c.Ok dep clock db) (hclock : clock ≤ clock')
    (hrow : RowFollows db db' c.d.id) (hlocked : c.rowLock.isSome → db'.outbox.get? c.d.id = db.outbox.get? c.d.id)
    (hsum : c.treasuryLock.isSome → ∀ t, signed24h t db' = signed24h t db) : c.Ok dep clock' db' := by
  unfold Ok at h ⊢
  unfold rowLock at hlocked
  unfold treasuryLock at hsum
  cases hs : c.stage with
  | prepared =>
    rw [hs] at h
    rcases hrow with ⟨-, hnone⟩ | ⟨r, _, hr, -, -⟩
    · exact hnone
    · exact absurd (hr.symm.trans h) (by simp)
  | funded | signed _ => rw [hs] at h; exact Unstarted.mono h hrow
  | marking a t => rw [hs] at h; exact ⟨Unstarted.mono h.1 hrow, h.2.trans hclock⟩
  | rowLocked _ | serialized _ => rw [hs] at h hlocked; exact Locked.mono h hclock (hlocked rfl)
  | cleared m =>
    rw [hs] at h hlocked hsum
    exact ⟨Locked.mono h.1 hclock (hlocked rfl), by rw [hsum rfl]; exact h.2⟩
  | marked a => rw [hs] at h; exact Payment.Covered.mono h hrow

end Outgoing

namespace Traffic

/-- what holds of the outbox -/
structure StoreOk (dep : Deployment) (clock : ℤ) (drawn : List String) (db : Db) : Prop where
  within : signed24h clock db ≤ dep.billing.a2aTreasuryDailyOutflowCapUsdc
  positive : ∀ r ∈ db.outbox.rows, 0 < r.amountUsdc
  doubt : ∀ r ∈ db.outbox.rows, r.deliveryStatus = .possiblyDelivered → r.deliveryStartedAt.isSome
  drawn : ∀ r ∈ db.outbox.rows, r.id ∈ drawn

/-- a call holds its delegation id from the start -/
def idLock (c : Outgoing) : Option String := some c.d.id

structure Inv (dep : Deployment) (w : Traffic) : Prop where
  store : StoreOk dep w.clock w.drawn w.sys.db
  exclusive : Locks.Exclusive Outgoing.treasuryLock w.calls
  ids : Locks.Exclusive idLock w.calls
  callsDrawn : ∀ c ∈ w.calls, c.d.id ∈ w.drawn
  quoted : ∀ c ∈ w.calls, c.d.platformFeeBps = dep.delegate.a2aDelegationPlatformFeeBps ∧
    c.d.estimatedCost = applyPlatformFee dep.delegate.a2aDelegationPlatformFeeBps c.signingCap
  calls : ∀ c ∈ w.calls, c.Ok dep w.clock w.sys.db
  /-- a call has signed what its stage says, and nothing before -/
  payments : ∀ c ∈ w.calls, ∀ p, c.payment = some p → p ∈ w.signed
  unsigned : ∀ c ∈ w.calls, c.payment = none → c.d.id ∉ w.signed.map Payment.delegation
  signedDrawn : ∀ p ∈ w.signed, p.delegation ∈ w.drawn
  once : (w.signed.map Payment.delegation).Nodup
  bounded : ∀ p ∈ w.signed, 0 < p.amount ∧ p.amount ≤ p.signingCap
  sentSigned : ∀ p ∈ w.sent, p ∈ w.signed
  covered : ∀ p ∈ w.sent, p.Covered dep w.sys.db

variable {dep : Deployment} {w : Traffic} {i : ℕ} {c : Outgoing}

theorem Inv.erase (h : Inv dep w) (i : ℕ) : Inv dep (w.erase i) where
  store := h.store
  exclusive := h.exclusive.erase i
  ids := h.ids.erase i
  callsDrawn := fun c hc => h.callsDrawn c (mem_of_mem_eraseIdx hc)
  quoted := fun c hc => h.quoted c (mem_of_mem_eraseIdx hc)
  calls := fun c hc => h.calls c (mem_of_mem_eraseIdx hc)
  payments := fun c hc => h.payments c (mem_of_mem_eraseIdx hc)
  unsigned := fun c hc => h.unsigned c (mem_of_mem_eraseIdx hc)
  signedDrawn := h.signedDrawn
  once := h.once
  bounded := h.bounded
  sentSigned := h.sentSigned
  covered := h.covered

theorem forall_set (hi : w.calls[i]? = some c) {b : Outgoing} {P : Outgoing → Prop} (hb : P b)
    (hall : ∀ c' ∈ w.calls, P c') : ∀ c' ∈ w.calls.set i b, P c' := by
  intro c' hc'
  rcases Locks.mem_set hi hc' with rfl | hc'
  · exact hb
  · exact hall c' (mem_of_mem_eraseIdx hc')

/-- a call takes a statement: it comes to its next stage, and the store to `db` -/
theorem Inv.put (h : Inv dep w) (hi : w.calls[i]? = some c) {stage : Stage} (hstore : StoreOk dep w.clock w.drawn db)
    (hothers : ∀ c' ∈ w.calls.eraseIdx i, c'.Ok dep w.clock db) (hcovered : ∀ p ∈ w.sent, p.Covered dep db)
    (hself : Outgoing.Ok dep w.clock db { c with stage := stage })
    (hlock : Locks.Exclusive Outgoing.treasuryLock (w.calls.set i { c with stage := stage }))
    (hpayment : Outgoing.payment { c with stage := stage } = c.payment) : Inv dep ((w.put i c stage).withDb db) := by
  have hc := mem_of_getElem? hi
  exact
    { store := hstore
      exclusive := hlock
      ids := h.ids.keep hi rfl
      callsDrawn := forall_set hi (h.callsDrawn c hc) h.callsDrawn
      quoted := forall_set hi (h.quoted c hc) h.quoted
      calls := fun c' hc' => (Locks.mem_set hi hc').elim (fun heq => heq ▸ hself) (hothers c')
      payments := forall_set hi (fun p hp => h.payments c hc p (hpayment ▸ hp)) h.payments
      unsigned := forall_set hi (fun hp => h.unsigned c hc (hpayment ▸ hp)) h.unsigned
      signedDrawn := h.signedDrawn
      once := h.once
      bounded := h.bounded
      sentSigned := h.sentSigned
      covered := hcovered }

theorem Inv.put_read (h : Inv dep w) (hi : w.calls[i]? = some c) {stage : Stage}
    (hself : Outgoing.Ok dep w.clock w.sys.db { c with stage := stage })
    (hlock : Locks.Exclusive Outgoing.treasuryLock (w.calls.set i { c with stage := stage }))
    (hpayment : Outgoing.payment { c with stage := stage } = c.payment) : Inv dep (w.put i c stage) :=
  h.put hi h.store (fun c' hc' => h.calls c' (mem_of_mem_eraseIdx hc')) h.covered hself hlock hpayment

theorem StoreOk.tick {clock clock' : ℤ} {drawn : List String} (h : StoreOk dep clock drawn db) (hclock : clock ≤ clock') :
    StoreOk dep clock' drawn db :=
  { h with within := (signed24h_antitone hclock h.positive).trans h.within }

theorem StoreOk.follow {clock : ℤ} {drawn : List String} (h : StoreOk dep clock drawn db) (hf : RowsFollow db db') :
    StoreOk dep clock drawn db' where
  within := by rw [hf.signed24h]; exact h.within
  positive := hf.forall (fun r r' hr hpos => hr.amount ▸ hpos) h.positive
  doubt := hf.forall (P := fun r => r.deliveryStatus = .possiblyDelivered → r.deliveryStartedAt.isSome)
    (fun r r' hr hd hdoubt => hr.started ▸ hd (hr.doubt hdoubt)) h.doubt
  drawn := hf.forall (fun r r' hr hd => hr.id ▸ hd) h.drawn

theorem Inv.other_id (h : Inv dep w) (hi : w.calls[i]? = some c) : ∀ c' ∈ w.calls.eraseIdx i, c'.d.id ≠ c.d.id := by
  intro c' hc' heq
  exact h.ids.apart hi (k := c.d.id) rfl c' hc' (congrArg some heq)

theorem Inv.fund (h : Inv dep w) (hi : w.calls[i]? = some c) (hs : c.stage = .prepared) (e : Env) :
    Inv dep (w.advance dep i e c) := by
  have hc := mem_of_getElem? hi
  have hnone : w.sys.db.outbox.get? c.d.id = none := by
    have hok := h.calls c hc
    rw [Outgoing.Ok, hs] at hok
    exact hok
  have hunlocked : Locks.Exclusive Outgoing.treasuryLock (w.calls.set i { c with stage := .funded }) :=
    h.exclusive.keep hi (by simp [Outgoing.treasuryLock, hs])
  have hpayment : Outgoing.payment { c with stage := .funded } = c.payment := by simp [Outgoing.payment, hs]
  have hvacuous : Outgoing.Unstarted w.sys.db { c with stage := .funded } := by
    intro row hrow
    rw [hnone] at hrow
    cases hrow
  unfold advance
  simp only [hs]
  generalize hr : fundDelegation dep.billing { e with now := w.clock } c.d w.sys.db = r
  have hcases := fund_cases dep.billing { e with now := w.clock } c.d.org c.d.estimatedCost
    ("a2a_delegation run=" ++ c.d.runId ++ " agent=" ++ c.d.agentUrl) c.d.id c.d.runId c.d.principal w.sys.db
  rw [show debitCreditWithDelegationRefund dep.billing { e with now := w.clock } c.d.org c.d.estimatedCost
    ("a2a_delegation run=" ++ c.d.runId ++ " agent=" ++ c.d.agentUrl) c.d.id c.d.runId c.d.principal w.sys.db = r
    from hr] at hcases
  rcases hcases with ⟨hdb, -⟩ | ⟨hr1, -, hfunded⟩
  · rw [hdb]
    split_ifs
    · exact h.put_read hi hvacuous hunlocked hpayment
    · exact h.erase i
  · rw [hr1, if_pos rfl]
    obtain ⟨hfree, hrows⟩ := Table.insert?_eq_some hfunded.outbox
    have hget := Table.get?_insert hfunded.outbox
    have hother : ∀ {x : String}, x ≠ c.d.id → r.2.outbox.get? x = w.sys.db.outbox.get? x := by
      intro x hx
      rw [hget]
      exact if_neg (fun heq => hx heq.symm)
    have hsum := hfunded.signed24h rfl
    have extend : ∀ {P : OutboxRow → Prop}, (∀ x ∈ w.sys.db.outbox.rows, P x) →
        P (newOutboxRow w.clock c.d.id c.d.org c.d.runId c.d.estimatedCost (some (e.uuid 0))) →
        ∀ x ∈ r.2.outbox.rows, P x := by
      intro P hP hnew x hx
      rw [hrows] at hx
      rcases mem_append.1 hx with hx | hx
      · exact hP x hx
      · rw [List.mem_singleton.1 hx]
        exact hnew
    refine h.put hi ⟨?_, ?_, ?_, ?_⟩ ?_ ?_ ?_ hunlocked hpayment
    · rw [hsum]
      exact h.store.within
    · refine extend h.store.positive ?_
      obtain ⟨db₁, hp, -⟩ := hfunded.posted
      exact hp.positive
    · exact extend (P := fun x => x.deliveryStatus = .possiblyDelivered → x.deliveryStartedAt.isSome) h.store.doubt
        (fun hd => by cases hd)
    · exact extend h.store.drawn (h.callsDrawn c hc)
    · intro c' hc'
      have hsame := hother (h.other_id hi c' hc')
      exact (h.calls c' (mem_of_mem_eraseIdx hc')).mono (le_refl _) (RowFollows.of_eq hsame) (fun _ => hsame) (fun _ => hsum)
    · intro p hp
      refine (h.covered p hp).mono (RowFollows.of_eq (hother ?_))
      intro heq
      obtain ⟨row, hrow, -⟩ := h.covered p hp
      rw [heq, hnone] at hrow
      cases hrow
    · intro row hrow
      have hnew := ((hget c.d.id).trans (if_pos rfl)).symm.trans hrow
      cases hnew
      exact ⟨rfl, rfl⟩

theorem Inv.commit_mark (h : Inv dep w) (hi : w.calls[i]? = some c) {m : Mark} (hs : c.stage = .cleared m) (e : Env) :
    Inv dep (w.advance dep i e c) := by
  have hc := mem_of_getElem? hi
  have hok := h.calls c hc
  rw [Outgoing.Ok, hs] at hok
  obtain ⟨hlocked, hsum⟩ := hok
  unfold advance
  simp only [hs]
  rcases call_cases (e.fault 0)
      (beginDelivery m.began (e.uuid 0) c.d.org c.d.id m.row m.principal (c.charge m.amount)) w.sys.db with
    ⟨x, hcall⟩ | ⟨a, db, ht, hcall⟩
  · rw [hcall]
    exact h.erase i
  · rw [hcall]
    have hid : m.row.id = c.d.id := Table.key_of_get? hlocked.row
    have hmarked := beginDelivery_marked hlocked.row hlocked.org ht
    have hpos : ∀ r ∈ db.outbox.rows, 0 < r.amountUsdc := hmarked.forall h.store.positive hlocked.charge
    have hself := hmarked.get?_self
    rw [hid] at hself
    have hcover : Payment.Covered dep db ⟨c.d.id, m.amount, c.signingCap⟩ := by
      refine ⟨_, hself, Or.inl ?_, fun _ => ?_⟩
      · simp [markedRow]
      · show applyPlatformFee dep.delegate.a2aDelegationPlatformFeeBps m.amount ≤ c.charge m.amount
        rw [Outgoing.charge, (h.quoted c hc).1]
    refine h.put hi ⟨?_, hpos, ?_, ?_⟩ ?_ ?_ hcover ?_ ?_
    · calc signed24h w.clock db ≤ signed24h m.began db := signed24h_antitone hlocked.began hpos
        _ = signed24h m.began w.sys.db + c.charge m.amount := hmarked.signed24h hlocked.unstarted
        _ ≤ _ := hsum
    · refine hmarked.forall (P := fun r => r.deliveryStatus = .possiblyDelivered → r.deliveryStartedAt.isSome)
        h.store.doubt (fun _ => ?_)
      simp [markedRow]
    · refine hmarked.forall h.store.drawn ?_
      show m.row.id ∈ w.drawn
      rw [hid]
      exact h.callsDrawn c hc
    · intro c' hc'
      have hsame : db.outbox.get? c'.d.id = w.sys.db.outbox.get? c'.d.id :=
        hmarked.get?_other (hid ▸ h.other_id hi c' hc')
      -- the lock is this call's, so no other call relies on the sum
      have hfree : ¬ c'.treasuryLock.isSome := by
        intro hlock
        obtain ⟨u, hu⟩ := Option.isSome_iff_exists.1 hlock
        exact h.exclusive.apart hi (k := ()) (by simp [Outgoing.treasuryLock, hs]) c' hc' hu
      exact (h.calls c' (mem_of_mem_eraseIdx hc')).mono (le_refl _) (RowFollows.of_eq hsame) (fun _ => hsame)
        (fun hlock => absurd hlock hfree)
    · intro p hp
      by_cases hpc : p.delegation = c.d.id
      · -- a delegation signs once, so what it sent is what this call signed
        have hmine : (⟨c.d.id, m.amount, c.signingCap⟩ : Payment) ∈ w.signed :=
          h.payments c hc _ (by simp [Outgoing.payment, hs])
        have heq := List.inj_on_of_nodup_map h.once (h.sentSigned p hp) hmine hpc
        rw [heq]
        exact hcover
      · exact (h.covered p hp).mono (RowFollows.of_eq (hmarked.get?_other (hid ▸ hpc)))
    · exact h.exclusive.release hi rfl
    · simp [Outgoing.payment, hs]

theorem Inv.read_row (h : Inv dep w) (hi : w.calls[i]? = some c) {t : ℤ} (hs : c.stage = .marking a t) (e : Env) :
    Inv dep (w.advance dep i e c) := by
  have hc := mem_of_getElem? hi
  have hok := h.calls c hc
  rw [Outgoing.Ok, hs] at hok
  obtain ⟨hunstarted, hbegan⟩ := hok
  have hunlocked : c.treasuryLock = none := by simp [Outgoing.treasuryLock, hs]
  unfold advance
  simp only [hs]
  unfold findRow
  cases hrow : outboxRow c.d.org c.d.id w.sys.db with
  | none => exact h.erase i
  | some row =>
    obtain ⟨hget, horg⟩ := outboxRow_some hrow
    obtain ⟨hamount, hstart⟩ := hunstarted row hget
    dsimp only
    split_ifs with hdone hclosed hrange
    · refine h.put_read hi ⟨row, hget, Or.inr ?_, fun hfee => ?_⟩ (h.exclusive.keep hi hunlocked.symm)
        (by simp [Outgoing.payment, hs])
      · -- a row in doubt has started, and this one has not
        refine hdone.resolve_left (fun hd => ?_)
        have hsome := h.store.doubt row (Table.mem_of_get? hget) hd
        rw [hstart] at hsome
        cases hsome
      · have hmine := h.payments c hc ⟨c.d.id, a, c.signingCap⟩ (by simp [Outgoing.payment, hs])
        rw [hamount, (h.quoted c hc).2]
        exact applyPlatformFee_mono hfee (h.bounded _ hmine).2
    · exact h.erase i
    · exact h.erase i
    · push Not at hrange
      exact h.put_read hi ⟨hget, horg, hrange.1, hstart, hbegan⟩ (h.exclusive.keep hi hunlocked.symm)
        (by simp [Outgoing.payment, hs])

theorem Inv.advance (h : Inv dep w) (hi : w.calls[i]? = some c) (e : Env) : Inv dep (w.advance dep i e c) := by
  have hc := mem_of_getElem? hi
  have hok := h.calls c hc
  have hpay := h.payments c hc
  unfold Outgoing.Ok at hok
  unfold Outgoing.payment at hpay
  cases hs : c.stage with
  | prepared => exact h.fund hi hs e
  | funded =>
    unfold Traffic.advance
    simp only [hs]
    exact h
  | signed a =>
    rw [hs] at hok
    unfold Traffic.advance
    simp only [hs]
    exact h.put_read hi ⟨hok, le_refl _⟩ (h.exclusive.keep hi (by simp [Outgoing.treasuryLock, hs]))
      (by simp [Outgoing.payment, hs])
  | marking a t => exact h.read_row hi hs e
  | rowLocked m =>
    rw [hs] at hok
    unfold Traffic.advance
    simp only [hs]
    split_ifs with hheld
    · exact h
    · exact h.put_read hi (Outgoing.Locked.at hok _)
        (h.exclusive.acquire hi (by simp [Outgoing.treasuryLock, hs]) (k := ()) rfl hheld) (by simp [Outgoing.payment, hs])
  | serialized m =>
    rw [hs] at hok
    unfold Traffic.advance
    simp only [hs]
    split_ifs with hcap
    · exact h.erase i
    · exact h.put_read hi ⟨Outgoing.Locked.at hok _, not_lt.1 hcap⟩ (h.exclusive.keep hi (by simp [Outgoing.treasuryLock, hs]))
        (by simp [Outgoing.payment, hs])
  | cleared m => exact h.commit_mark hi hs e
  | marked a =>
    rw [hs] at hok hpay
    unfold Traffic.advance
    simp only [hs]
    refine { h.erase i with sentSigned := ?_, covered := ?_ }
    · intro p hp
      rcases mem_cons.1 hp with rfl | hp
      · exact hpay _ rfl
      · exact h.sentSigned p hp
    · intro p hp
      rcases mem_cons.1 hp with rfl | hp
      · exact hok
      · exact h.covered p hp

theorem Inv.demand (h : Inv dep w) (hi : w.calls[i]? = some c) (accepts : Call (List Requirement)) (signs : Bool) :
    Inv dep (w.demand dep i accepts signs c) := by
  have hc := mem_of_getElem? hi
  have hok := h.calls c hc
  unfold Traffic.demand
  by_cases hready : c.stage = .funded ∧ c.d.useX402 = true
  · rw [if_pos hready]
    have hs := hready.1
    rw [Outgoing.Ok, hs] at hok
    have hnew : c.d.id ∉ w.signed.map Payment.delegation := h.unsigned c hc (by simp [Outgoing.payment, hs])
    split
    · exact h.erase i
    · next a r hsel =>
      -- the log grows by a payment of this call, the first of its id
      have hpayments : ∀ c' ∈ w.calls.eraseIdx i, ∀ p, c'.payment = some p →
          p ∈ (⟨c.d.id, a, c.signingCap⟩ : Payment) :: w.signed :=
        fun c' hc' p hp => mem_cons_of_mem _ (h.payments c' (mem_of_mem_eraseIdx hc') p hp)
      have hunsigned : ∀ c' ∈ w.calls.eraseIdx i, c'.payment = none →
          c'.d.id ∉ ((⟨c.d.id, a, c.signingCap⟩ : Payment) :: w.signed).map Payment.delegation := by
        intro c' hc' hp hmem
        rcases mem_cons.1 hmem with heq | hmem
        · exact h.other_id hi c' hc' heq
        · exact h.unsigned c' (mem_of_mem_eraseIdx hc') hp hmem
      have hdrawn : ∀ p ∈ (⟨c.d.id, a, c.signingCap⟩ : Payment) :: w.signed, p.delegation ∈ w.drawn :=
        List.forall_mem_cons.2 ⟨h.callsDrawn c hc, h.signedDrawn⟩
      have hbounded : ∀ p ∈ (⟨c.d.id, a, c.signingCap⟩ : Payment) :: w.signed, 0 < p.amount ∧ p.amount ≤ p.signingCap :=
        List.forall_mem_cons.2 ⟨selectOffer_bounds hsel, h.bounded⟩
      have hsent : ∀ p ∈ w.sent, p ∈ (⟨c.d.id, a, c.signingCap⟩ : Payment) :: w.signed :=
        fun p hp => mem_cons_of_mem _ (h.sentSigned p hp)
      cases signs with
      | false =>
        exact { h.erase i with
          payments := hpayments, unsigned := hunsigned, signedDrawn := hdrawn
          once := List.nodup_cons.2 ⟨hnew, h.once⟩, bounded := hbounded, sentSigned := hsent }
      | true =>
        exact
          { store := h.store
            exclusive := h.exclusive.keep hi (by simp [Outgoing.treasuryLock, hs])
            ids := h.ids.keep hi rfl
            callsDrawn := forall_set hi (h.callsDrawn c hc) h.callsDrawn
            quoted := forall_set hi (h.quoted c hc) h.quoted
            calls := forall_set hi hok h.calls
            payments := fun c' hc' p hp => by
              rcases Locks.mem_set hi hc' with rfl | hc'
              · cases hp
                exact mem_cons_self
              · exact hpayments c' hc' p hp
            unsigned := fun c' hc' hp => by
              rcases Locks.mem_set hi hc' with rfl | hc'
              · cases hp
              · exact hunsigned c' hc' hp
            signedDrawn := hdrawn
            once := List.nodup_cons.2 ⟨hnew, h.once⟩
            bounded := hbounded
            sentSigned := hsent
            covered := h.covered }
  · rw [if_neg hready]
    exact h

theorem Inv.start (h : Inv dep w) (ctx : RunContext) (agentUrl runId id : String) (timeoutSeconds : ℤ) {p : Prepared}
    (hfresh : id ∉ w.drawn)
    (hcost : p.estimatedCost = applyPlatformFee dep.delegate.a2aDelegationPlatformFeeBps p.signingCap) :
    Inv dep { w with calls := w.calls ++ [begin dep ctx agentUrl runId id timeoutSeconds p], drawn := id :: w.drawn } := by
  have snoc : ∀ {P : Outgoing → Prop}, (∀ c' ∈ w.calls, P c') → P (begin dep ctx agentUrl runId id timeoutSeconds p) →
      ∀ c' ∈ w.calls ++ [begin dep ctx agentUrl runId id timeoutSeconds p], P c' := by
    intro P hall hnew c' hc'
    rcases mem_append.1 hc' with hc' | hc'
    · exact hall c' hc'
    · rw [List.mem_singleton.1 hc']
      exact hnew
  have hunheld : id ∉ Locks.held idLock w.calls := by
    intro hmem
    obtain ⟨c', hc', heq⟩ := List.mem_filterMap.1 hmem
    cases heq
    exact hfresh (h.callsDrawn c' hc')
  exact
    { store := { h.store with drawn := fun r hr => mem_cons_of_mem _ (h.store.drawn r hr) }
      exclusive := h.exclusive.snoc rfl
      ids := h.ids.join rfl hunheld
      callsDrawn := snoc (fun c' hc' => mem_cons_of_mem _ (h.callsDrawn c' hc')) mem_cons_self
      quoted := snoc h.quoted ⟨rfl, hcost⟩
      calls := snoc h.calls (by
        refine Table.get?_eq_none_iff.2 (fun hmem => ?_)
        obtain ⟨r, hr, heq⟩ := List.mem_map.1 hmem
        have hid : r.id = id := heq
        exact hfresh (hid ▸ h.store.drawn r hr))
      payments := snoc h.payments (fun q hq => by cases hq)
      unsigned := snoc h.unsigned (fun _ hmem => by
        obtain ⟨q, hq, heq⟩ := List.mem_map.1 hmem
        have hid : q.delegation = id := heq
        exact hfresh (hid ▸ h.signedDrawn q hq))
      signedDrawn := fun q hq => mem_cons_of_mem _ (h.signedDrawn q hq)
      once := h.once
      bounded := h.bounded
      sentSigned := h.sentSigned
      covered := h.covered }

theorem Inv.other (h : Inv dep w) (op : Op) (hmark : op.marks = false) (hfund : op.funds = none)
    (hspared : w.calls.all (Outgoing.spared w.sys.db (next dep.billing dep.py w.sys op).db) = true) :
    Inv dep { w with sys := next dep.billing dep.py w.sys op } := by
  have hf := next_follows dep.billing dep.py w.sys op hmark hfund
  refine { h with store := h.store.follow hf, calls := ?_, covered := fun p hp => (h.covered p hp).mono (hf.get? _) }
  intro c hc
  refine (h.calls c hc).mono (le_refl _) (hf.get? _) (fun hlock => ?_) (fun _ => hf.signed24h)
  have hc := List.all_eq_true.1 hspared c hc
  rw [Outgoing.spared, Bool.or_eq_true] at hc
  rcases hc with hnone | hsame
  · rw [Option.isNone_iff_eq_none] at hnone
    rw [hnone] at hlock
    cases hlock
  · exact of_decide_eq_true hsame

theorem step_inv (h : Inv dep w) (hap : Happening) : Inv dep (w.step dep hap) := by
  cases hap with
  | tick elapsed =>
    have hclock : w.clock ≤ w.clock + elapsed := by omega
    exact { h with
      store := h.store.tick hclock
      calls := fun c hc => (h.calls c hc).mono hclock (RowFollows.of_eq rfl) (fun _ => rfl) (fun _ _ => rfl) }
  | start ctx agentUrl runId id timeoutSeconds l seen =>
    simp only [step]
    split_ifs with hdrawn
    · exact h
    · split
      · next p hp =>
        by_cases hbilled : p.billed = true
        · rw [if_pos hbilled]
          exact h.start ctx agentUrl runId id timeoutSeconds hdrawn (prepare_cost hp hbilled)
        · rw [if_neg hbilled]
          exact h
      · exact h
  | demand i accepts signs =>
    simp only [step]
    cases hi : w.calls[i]? with
    | none => exact h
    | some c => exact h.demand hi accepts signs
  | advance i e =>
    simp only [step]
    cases hi : w.calls[i]? with
    | none => exact h
    | some c => exact h.advance hi e
  | drop i => exact h.erase i
  | other op =>
    simp only [step]
    by_cases hskip : op.marks ∨ op.funds.isSome ∨
        ¬ w.calls.all (Outgoing.spared w.sys.db (next dep.billing dep.py w.sys op).db)
    · rw [if_pos hskip]
      exact h
    · rw [if_neg hskip]
      push Not at hskip
      obtain ⟨hmark, hfund, hspared⟩ := hskip
      exact h.other op (by simpa using hmark) (by simpa using hfund) hspared

theorem initial_inv (hcap : 0 ≤ dep.billing.a2aTreasuryDailyOutflowCapUsdc) (clock : ℤ) {s : Sys}
    (hempty : s.db.outbox.rows = []) : Inv dep (initial clock s) where
  store :=
    { within := by
        show signed24h clock s.db ≤ _
        rw [signed24h_eq, Table.sum, hempty]
        exact hcap
      positive := fun r hr => by rw [initial, hempty] at hr; cases hr
      doubt := fun r hr => by rw [initial, hempty] at hr; cases hr
      drawn := fun r hr => by rw [initial, hempty] at hr; cases hr }
  exclusive := Locks.Exclusive.nil
  ids := Locks.Exclusive.nil
  callsDrawn := fun c hc => by cases hc
  quoted := fun c hc => by cases hc
  calls := fun c hc => by cases hc
  payments := fun c hc => by cases hc
  unsigned := fun c hc => by cases hc
  signedDrawn := fun p hp => by cases hp
  once := List.nodup_nil
  bounded := fun p hp => by cases hp
  sentSigned := fun p hp => by cases hp
  covered := fun p hp => by cases hp

theorem run_inv (hcap : 0 ≤ dep.billing.a2aTreasuryDailyOutflowCapUsdc) (clock : ℤ) {s : Sys}
    (hempty : s.db.outbox.rows = []) (hs : List Happening) : Inv dep (run dep (initial clock s) hs) :=
  Runs.run_inv (step dep) (Inv dep) (fun _ hap h => step_inv h hap) hs (initial_inv hcap clock hempty)

theorem Inv.in_range (h : Inv dep w) (hfee : 0 ≤ dep.delegate.a2aDelegationPlatformFeeBps) (hc : c ∈ w.calls) {t : ℤ}
    (hs : c.stage = .marking a t) :
    0 < c.charge a ∧ ∀ row, outboxRow c.d.org c.d.id w.sys.db = some row → c.charge a ≤ row.amountUsdc := by
  have hbounds := h.bounded _ (h.payments c hc ⟨c.d.id, a, c.signingCap⟩ (by simp [Outgoing.payment, hs]))
  obtain ⟨hbps, hcost⟩ := h.quoted c hc
  have hok := h.calls c hc
  rw [Outgoing.Ok, hs] at hok
  unfold Outgoing.charge
  rw [hbps]
  refine ⟨?_, fun row hrow => ?_⟩
  · exact lt_of_lt_of_le hbounds.1 (le_applyPlatformFee hfee hbounds.1.le)
  · rw [(hok.1 row (outboxRow_some hrow).1).1, hcost]
    exact applyPlatformFee_mono hfee hbounds.2

end Traffic

theorem findRow_in_range {org d : String} {charge : ℤ} (hpos : 0 < charge)
    (hheld : ∀ row, outboxRow org d db = some row → charge ≤ row.amountUsdc) : findRow org d charge db ≠ .outOfRange := by
  unfold findRow
  cases hrow : outboxRow org d db with
  | none => simp
  | some row =>
    have hle := hheld row hrow
    dsimp only
    split_ifs with _ _ hrange
    · simp
    · simp
    · omega
    · simp

/-- **Treasury outflow.** In every run, from an empty outbox on: (a) what was signed for delivery in the last 24 hours is within
the cap; (b) a delegation signs at most one payment, within its signing cap, and sends it only once its row is marked or was
found confirmed; (c) for a fee rate from 0 on, the charge of a mark is positive and within the pre-debit, and the row of a
payment that was sent still holds it. -/
theorem treasury_outflow (dep : Deployment) (hcap : 0 ≤ dep.billing.a2aTreasuryDailyOutflowCapUsdc) (clock : ℤ) (s : Sys)
    (hempty : s.db.outbox.rows = []) (hs : List Happening) (w : Traffic)
    (hw : w = Traffic.run dep (Traffic.initial clock s) hs) :
    signed24h w.clock w.sys.db ≤ dep.billing.a2aTreasuryDailyOutflowCapUsdc ∧
    ((w.signed.map Payment.delegation).Nodup ∧ (∀ p ∈ w.signed, p.amount ≤ p.signingCap) ∧
      ∀ p ∈ w.sent, p ∈ w.signed ∧ ∃ row, w.sys.db.outbox.get? p.delegation = some row ∧
        (row.deliveryStartedAt.isSome ∨ row.deliveryStatus = .confirmed)) ∧
    (0 ≤ dep.delegate.a2aDelegationPlatformFeeBps →
      (∀ c ∈ w.calls, ∀ a t, c.stage = .marking a t → 0 < c.charge a ∧
        (∀ row, outboxRow c.d.org c.d.id w.sys.db = some row → c.charge a ≤ row.amountUsdc) ∧
        findRow c.d.org c.d.id (c.charge a) w.sys.db ≠ .outOfRange) ∧
      ∀ p ∈ w.sent, ∃ row, w.sys.db.outbox.get? p.delegation = some row ∧
        applyPlatformFee dep.delegate.a2aDelegationPlatformFeeBps p.amount ≤ row.amountUsdc) := by
  have h : w.Inv dep := hw ▸ Traffic.run_inv hcap clock hempty hs
  refine ⟨h.store.within, ⟨h.once, fun p hp => (h.bounded p hp).2, fun p hp => ?_⟩, fun hfee => ⟨?_, fun p hp => ?_⟩⟩
  · obtain ⟨row, hrow, hbegun, -⟩ := h.covered p hp
    exact ⟨h.sentSigned p hp, row, hrow, hbegun⟩
  · intro c hc a t hstage
    obtain ⟨hpos, hheld⟩ := h.in_range hfee hc hstage
    exact ⟨hpos, hheld, findRow_in_range hpos hheld⟩
  · obtain ⟨row, hrow, -, hcost⟩ := h.covered p hp
    exact ⟨row, hrow, hcost hfee⟩

/-- a deployment with the shipped settings but for its fee rate -/
def feeDeployment (bps : ℤ) : Deployment :=
  { billing := Settings.default
    py := ⟨fun _ => .error .typeError, fun _ => ""⟩
    delegate := ⟨⟨true, 100000, bps⟩, true, true⟩
    x402Network := "eip155:8453" }

/-- an agent the allowlist admits at 100, to be paid by x402 -/
def payableAgent : Lookups :=
  { ssrfError := none, allowlist := .ok (true, some ⟨100, true⟩), card := .ok ⟨"a", none⟩, budget := Env.calm 0 "l" }

/-- one call: quoted, funded, and answered with an offer of 1 that it signs -/
def signedRun : List Happening :=
  [.start ⟨"o", true, ""⟩ "u" "r" "d" 120 payableAgent ampleDb, .advance 0 (Env.calm 0 "l"),
   .demand 0 (.ok [.dict [("scheme", .str "exact"), ("network", .str "eip155:8453"), ("amount", .str "1")]]) true]

/-- the rest of it: the mark, statement by statement, and the payment sent -/
def markRun : List Happening := List.replicate 6 (.advance 0 (Env.calm 0 "k"))

theorem treasury_outflow_paid :
    let w := Traffic.run (feeDeployment 500) (Traffic.initial 0 ⟨ampleDb, []⟩) (signedRun ++ markRun)
    w.sent = [⟨"d", 1, 100⟩] ∧ signed24h w.clock w.sys.db = 1 ∧ signed24h w.clock w.sys.db ≤ 5000000 :=
  ⟨by decide, by decide,
    (treasury_outflow (feeDeployment 500) (by decide) 0 ⟨ampleDb, []⟩ rfl (signedRun ++ markRun) _ rfl).1⟩

/-- **Signed before it is marked.** The payment is signed while its row says that nothing was attempted. And with a fee
rate of -1 basis points the charge for it is 0: the mark refuses it as out of range. -/
theorem signs_before_mark : (let w := Traffic.run (feeDeployment 500) (Traffic.initial 0 ⟨ampleDb, []⟩) signedRun
     w.signed = [⟨"d", 1, 100⟩] ∧ (w.sys.db.outbox.get? "d").map OutboxRow.deliveryStatus = some .notAttempted) ∧
    (let w := Traffic.run (feeDeployment (-1)) (Traffic.initial 0 ⟨ampleDb, []⟩) (signedRun ++ [.advance 0 (Env.calm 0 "k")])
     w.calls.map (fun c => (c.stage, c.charge 1)) = [(.marking 1 0, 0)] ∧
     findRow "o" "d" 0 w.sys.db = .outOfRange) := by
  decide

end Teardrop.Tools
