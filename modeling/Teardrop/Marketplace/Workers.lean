/-
Payouts as a machine: any number of calls of `request_withdrawal` and `process_withdrawal`, of sweep workers
(`marketplace_sweep_once`) and reconcilers (`reconcile_in_flight_withdrawals_once`), each taking one statement,
transaction or network call at a time, with operators (`complete_withdrawal`, `reset_withdrawal`), new earnings and the
chain in between. A task may stop at any point (`crash`), and a statement may fail before or after it takes effect (`Fault`).

`Env` holds the clocks, the ids, the order of rows of one instant, and the answers of `get_author_config`, `transfer_usdc`,
`verify_usdc_transfer` and `check_usdc_transfer`. The world logs the transfers, the rows each claim read and the hashes seen
reverted; of the chain it keeps the hashes that can no longer succeed (`dead`) and those that did (`landed`).
-/
import Teardrop.Core.Runs
import Teardrop.Marketplace.Store

namespace Teardrop.Marketplace

open Teardrop.Py

/-! ## The world outside -/

structure Settings where
  agentWalletEnabled : Bool := true
  marketplaceMinimumWithdrawalUsdc : ℤ := 100000
  marketplaceWithdrawalCooldownSeconds : ℤ := 3600
  marketplaceMaxSweepRetries : ℤ := 5

/-- how a statement fails: it is refused, or it takes effect and its answer is lost -/
inductive Fault where
  | refused
  | lost
deriving DecidableEq

/-- the answers of `check_usdc_transfer` -/
inductive Check where
  | confirmed
  | reverted
  | mismatch
  | pending
deriving DecidableEq

/-- what one step finds outside the program; `none` for a call is an exception -/
structure Env where
  /-- `NOW()` of the server and `datetime.now` of the process, in microseconds -/
  now : ℤ
  clock : ℤ
  uuid : String := ""
  tie : String → ℕ := fun _ => 0
  fault : Option Fault := none
  /-- `get_author_config`: the settlement wallet -/
  config : Option String := none
  transferUsdc : Option String := none
  verifyUsdcTransfer : Option Bool := none
  checkUsdcTransfer : Option Check := none

/-- a call of `transfer_usdc`, with the rows that were linked to the withdrawal when it was made -/
structure Transfer where
  withdrawalId : String
  rows : List Earning
  amountUsdc : ℤ
  toAddress : String
  /-- the hash it returned; an exception leaves open whether it was broadcast -/
  txHash : Option String

/-- the rows a claim that went through had read -/
structure Claim where
  withdrawalId : String
  rows : List Earning

/-! ## Tasks -/

/-- `process_withdrawal` after its claim has been asked for -/
inductive Proc where
  | claim
  | transfer (wallet : String) (total : ℤ)
  | verify (txHash : String)
  | settle (txHash : String)
  | release (error : String)
  | recordInFlight (txHash error : String)
deriving DecidableEq

/-- how `process_withdrawal` ends -/
inductive Result where
  | returned (status : Status) (lastSweepError : String)
  | raised
deriving DecidableEq

/-- why `request_withdrawal` refuses -/
inductive Refusal where
  | walletsDisabled
  | noAuthorConfig
  | belowMinimum (minimum : ℤ)
  | insufficientBalance (requested balance : ℤ)
  | cooldown (remaining : ℤ)
deriving DecidableEq

inductive Request where
  | config
  | balance (wallet : String)
  | cooldown (wallet : String)
  | insert (wallet : String)
deriving DecidableEq

/-- a row of the sweep's query, with the id the loop works on -/
structure Candidate where
  orgId : String
  total : ℤ
  id : String
deriving DecidableEq

/-- the body of the sweep's loop -/
inductive Sweep where
  | fetch
  | config
  | insert (wallet : String)
  | requeue
  | process (p : Proc)
  | readAttempts (error : String)
  | penalize (attempt : ℤ) (error : String)
deriving DecidableEq

/-- a row of the reconciler's query -/
structure Snapshot where
  id : String
  wallet : String
  txHash : String
  sweepAttemptCount : ℤ
  lastSweepError : String
  claimedUsdc : ℤ
deriving DecidableEq

inductive Task where
  | request (org : String) (amount : ℤ) (phase : Request)
  | process (id : String) (p : Proc)
  | sweepQuery
  | sweep (processed : ℕ) (c : Candidate) (phase : Sweep) (rest : List Candidate)
  | reconcileQuery
  | reconcile (resolved : ℕ) (row : Snapshot) (outcome : Option Check) (rest : List Snapshot)
  /-- ended: with a withdrawal id, a count, a refusal, or an exception -/
  | requested (id : String)
  | refused (why : Refusal)
  | processed (r : Result)
  | counted (n : ℕ)
  | failed
deriving DecidableEq

structure World where
  db : Db := Db.empty
  transfers : List Transfer := []
  claims : List Claim := []
  observed : List String := []
  dead : List String := []
  landed : List String := []
  tasks : List Task := []

/-- a statement that takes `w` to `w'`, under the fault of the step -/
def Env.stmt {α : Type} (e : Env) (w w' : World) (next raised : α) : World × α :=
  match e.fault with
  | none => (w', next)
  | some .refused => (w, raised)
  | some .lost => (w', raised)

/-! ## `process_withdrawal` -/

def Proc.step (s : Settings) (e : Env) (x : String) (w : World) : Proc → World × (Proc ⊕ Result)
  | .claim =>
    if s.agentWalletEnabled = false then (w, .inr .raised)
    else match w.db.claimWithdrawal x e.tie with
      | .error _ => (w, .inr .raised)
      | .ok (db, row, total) =>
        e.stmt w { w with db := db, claims := w.claims ++ [⟨x, w.db.claimable row.orgId e.tie⟩] }
          (if row.status = .failed then .inr (.returned .failed row.lastSweepError) else .inl (.transfer row.wallet total))
          (.inr .raised)
  -- `_attempt_transfer`: no database transaction is held from here to the end of `verify`
  | .transfer wallet total =>
    if total ≤ 0 ∨ s.agentWalletEnabled = false then (w, .inl (.release "Transfer amount must be positive"))
    else
      ({ w with transfers := w.transfers ++ [⟨x, w.db.linked x, total, wallet, e.transferUsdc⟩] },
        match e.transferUsdc with
        | none => .inl (.recordInFlight "" "Transfer outcome unknown; reconciliation required")
        | some txHash => .inl (.verify txHash))
  | .verify txHash =>
    match e.verifyUsdcTransfer with
    | none => (w, .inl (.recordInFlight txHash "Transaction submitted; confirmation unavailable"))
    | some false => ({ w with observed := txHash :: w.observed }, .inl (.release "Transaction reverted on-chain"))
    | some true => (w, .inl (.settle txHash))
  | .settle txHash =>
    match w.db.settleWithdrawal x txHash with
    | .error _ => (w, .inr .raised)
    | .ok db => e.stmt w { w with db := db } (.inr (.returned .settled "")) (.inr .raised)
  | .release error =>
    match w.db.releaseWithdrawal x error with
    | .error _ => (w, .inr .raised)
    | .ok db => e.stmt w { w with db := db } (.inr (.returned .failed error)) (.inr .raised)
  | .recordInFlight txHash error =>
    e.stmt w { w with db := w.db.recordInFlight x txHash error } (.inr (.returned .inFlight error)) (.inr .raised)

/-! ## `request_withdrawal` -/

def Request.step (s : Settings) (e : Env) (org : String) (amount : ℤ) (w : World) : Request → World × Task
  | .config =>
    if s.agentWalletEnabled = false then (w, .refused .walletsDisabled)
    else e.stmt w w (match e.config with
        | none => .refused .noAuthorConfig
        | some wallet =>
          if amount < s.marketplaceMinimumWithdrawalUsdc then .refused (.belowMinimum s.marketplaceMinimumWithdrawalUsdc)
          else .request org amount (.balance wallet))
      .failed
  | .balance wallet =>
    e.stmt w w (if amount > w.db.authorBalance org then .refused (.insufficientBalance amount (w.db.authorBalance org))
        else .request org amount (.cooldown wallet))
      .failed
  | .cooldown wallet =>
    e.stmt w w (match w.db.lastWithdrawalAt org with
        | none => .request org amount (.insert wallet)
        | some last =>
          let left := Db.seconds s.marketplaceWithdrawalCooldownSeconds - (e.clock - last)
          if 0 < left then .refused (.cooldown (left / 1000000)) else .request org amount (.insert wallet))
      .failed
  | .insert wallet =>
    match w.db.insertWithdrawal e.uuid org amount wallet e.clock with
    | .error _ => (w, .failed)
    | .ok db => e.stmt w { w with db := db } (.requested e.uuid) .failed

/-! ## `marketplace_sweep_once` -/

def sweepWithdrawalId (org : String) (epochHour : ℤ) : String :=
  let h := (Sha256.hexdigest ("sweep:" ++ org ++ ":" ++ toString epochHour).toUTF8.data.toList).toList
  let slice (a b : ℕ) : String := String.ofList ((h.drop a).take (b - a))
  slice 0 8 ++ "-" ++ slice 8 12 ++ "-5" ++ slice 13 16 ++ "-" ++ slice 16 20 ++ "-" ++ slice 20 32

/-- withdrawals waiting to be processed, with `created_at` -/
def waiting (db : Db) (now hour : ℤ) : List (ℤ × Candidate) :=
  (db.withdrawals.rows.filter (fun w => w.status = .pending ∨ Db.isDue now w.toProgress)).map (fun w =>
    (w.createdAt, ⟨w.orgId, w.amountUsdc, if w.id = "" then sweepWithdrawalId w.orgId hour else w.id⟩))

/-- whether the org has a withdrawal that is not settled -/
def hasUnsettled (db : Db) (org : String) : Bool := db.withdrawals.rows.any (fun w => w.orgId = org ∧ w.status ≠ .settled)

/-- orgs with enough pending earnings and no unsettled withdrawal, with the `created_at` of the oldest -/
def earners (s : Settings) (db : Db) (hour : ℤ) : List (ℤ × Candidate) :=
  let rows := db.earnings.rows.filter (fun e => e.status = .pending ∧ hasUnsettled db e.orgId = false)
  (rows.map Earning.orgId).dedup.filterMap (fun org =>
    let own := rows.filter (fun e => e.orgId = org)
    if Db.shares own ≥ s.marketplaceMinimumWithdrawalUsdc then
      (own.map Earning.createdAt).min?.map (fun t => (t, ⟨org, Db.shares own, sweepWithdrawalId org hour⟩))
    else none)

def sooner (tie : String → ℕ) (a b : ℤ × Candidate) : Prop :=
  a.1 < b.1 ∨ (a.1 = b.1 ∧ tie a.2.id ≤ tie b.2.id)

instance (tie : String → ℕ) : DecidableRel (sooner tie) := fun _ _ => inferInstanceAs (Decidable (_ ∨ _))

/-- the sweep's query -/
def sweepCandidates (s : Settings) (e : Env) (db : Db) : List Candidate :=
  let hour := e.clock / 1000000 / 3600
  (((waiting db e.now hour ++ earners s db hour).insertionSort (sooner e.tie)).take 50).map Prod.snd

/-- on to the next row of the loop -/
def nextCandidate (processed : ℕ) : List Candidate → Task
  | [] => .counted processed
  | c :: rest => .sweep processed c .fetch rest

/-- where the sweep goes on after `process_withdrawal` -/
def Sweep.after (processed : ℕ) (c : Candidate) (rest : List Candidate) : Proc ⊕ Result → Task
  | .inl p => .sweep processed c (.process p) rest
  | .inr .raised => nextCandidate processed rest
  | .inr (.returned .settled _) => nextCandidate (processed + 1) rest
  | .inr (.returned .inFlight _) => nextCandidate processed rest
  | .inr (.returned _ error) =>
    .sweep processed c (.readAttempts (if error = "" then "CDP transfer failed" else error)) rest

def Sweep.step (s : Settings) (e : Env) (processed : ℕ) (c : Candidate) (rest : List Candidate) (w : World) :
    Sweep → World × Task
  | .fetch =>
    e.stmt w w (match w.db.withdrawals.get? c.id with
        | none => .sweep processed c .config rest
        | some row =>
          match row.status with
          | .settled => nextCandidate (processed + 1) rest
          | .failed => .sweep processed c .requeue rest
          | _ => .sweep processed c (.process .claim) rest)
      (nextCandidate processed rest)
  | .config =>
    e.stmt w w (match e.config with
        | none => nextCandidate processed rest
        | some wallet => .sweep processed c (.insert wallet) rest)
      (nextCandidate processed rest)
  | .insert wallet =>
    match w.db.insertWithdrawal c.id c.orgId c.total wallet e.now with
    | .ok db => e.stmt w { w with db := db } (.sweep processed c (.process .claim) rest) (nextCandidate processed rest)
    -- ON CONFLICT (id) DO NOTHING
    | .error (.pg .uniqueViolation) =>
      e.stmt w w (.sweep processed c (.process .claim) rest) (nextCandidate processed rest)
    | .error _ => (w, nextCandidate processed rest)
  | .requeue =>
    e.stmt w { w with db := (w.db.requeue c.id e.now).1 }
      (if (w.db.requeue c.id e.now).2 then .sweep processed c (.process .claim) rest else nextCandidate processed rest)
      (nextCandidate processed rest)
  | .process p =>
    let (w', r) := p.step s e c.id w
    (w', Sweep.after processed c rest r)
  | .readAttempts error =>
    let attempt := match w.db.withdrawals.get? c.id with
      | none => 1
      | some row => row.sweepAttemptCount + 1
    e.stmt w w (.sweep processed c (.penalize attempt error) rest) (nextCandidate processed rest)
  | .penalize attempt error =>
    let db := if attempt ≥ s.marketplaceMaxSweepRetries then w.db.exhaust c.id attempt error
      else w.db.backoff c.id attempt error e.now
    e.stmt w { w with db := db } (nextCandidate processed rest) (nextCandidate processed rest)

/-! ## `reconcile_in_flight_withdrawals_once` -/

/-- flagged mismatches last, then by `created_at` -/
def checkedBefore (tie : String → ℕ) (a b : Withdrawal) : Prop :=
  let flag (w : Withdrawal) : ℕ := if w.lastSweepError = Db.reconcileMismatchError then 1 else 0
  flag a < flag b ∨ (flag a = flag b ∧ (a.createdAt < b.createdAt ∨ (a.createdAt = b.createdAt ∧ tie a.id ≤ tie b.id)))

instance (tie : String → ℕ) : DecidableRel (checkedBefore tie) := fun _ _ => inferInstanceAs (Decidable (_ ∨ _))

/-- the reconciler's query -/
def inFlightRows (db : Db) (tie : String → ℕ) : List Snapshot :=
  (((db.withdrawals.rows.filter (fun w => w.status = .inFlight ∧ w.txHash ≠ "")).insertionSort (checkedBefore tie)).take
    20).map (fun w => ⟨w.id, w.wallet, w.txHash, w.sweepAttemptCount, w.lastSweepError,
      Db.shares ((db.linked w.id).filter (fun e => e.status = .settled))⟩)

def nextSnapshot (resolved : ℕ) : List Snapshot → Task
  | [] => .counted resolved
  | row :: rest => .reconcile resolved row none rest

def reconcileCheck (e : Env) (resolved : ℕ) (row : Snapshot) (rest : List Snapshot) (w : World) : World × Task :=
  match e.checkUsdcTransfer with
  | none | some .pending => (w, nextSnapshot resolved rest)
  | some .confirmed => (w, .reconcile resolved row (some .confirmed) rest)
  | some .reverted =>
    ({ w with observed := row.txHash :: w.observed }, .reconcile resolved row (some .reverted) rest)
  | some .mismatch =>
    (w, if row.lastSweepError = Db.reconcileMismatchError then nextSnapshot resolved rest
      else .reconcile resolved row (some .mismatch) rest)

/-- the statement that follows a check -/
def reconcileWrite (s : Settings) (e : Env) (row : Snapshot) (db : Db) : Check → Db × Bool
  | .confirmed => db.settleKnown row.id row.txHash
  | .reverted =>
    db.releaseRevertedWithdrawal row.id row.txHash row.sweepAttemptCount s.marketplaceMaxSweepRetries e.now
  | .mismatch => (db.flagMismatch row.id row.txHash, false)
  | .pending => (db, false)

/-! ## Tasks and runs -/

/-- where a call of `process_withdrawal` goes on -/
def Proc.after (x : String) : Proc ⊕ Result → Task
  | .inl p => .process x p
  | .inr r => .processed r

def Task.step (s : Settings) (e : Env) (w : World) : Task → World × Task
  | .request org amount phase => phase.step s e org amount w
  | .process x p =>
    let (w', r) := p.step s e x w
    (w', Proc.after x r)
  | .sweepQuery => e.stmt w w (nextCandidate 0 (sweepCandidates s e w.db)) .failed
  | .sweep n c phase rest => phase.step s e n c rest w
  | .reconcileQuery =>
    if s.agentWalletEnabled = false then (w, .counted 0)
    else e.stmt w w (nextSnapshot 0 (inFlightRows w.db e.tie)) .failed
  | .reconcile resolved row none rest => reconcileCheck e resolved row rest w
  | .reconcile resolved row (some outcome) rest =>
    let (db, hit) := reconcileWrite s e row w.db outcome
    e.stmt w { w with db := db } (nextSnapshot (if hit then resolved + 1 else resolved) rest) (nextSnapshot resolved rest)
  | t => (w, t)

/-- the calls that start a task -/
inductive Entry where
  | requestWithdrawal (org : String) (amount : ℤ)
  | processWithdrawal (id : String)
  | marketplaceSweepOnce
  | reconcileInFlightWithdrawalsOnce

def Entry.start : Entry → Task
  | .requestWithdrawal org amount => .request org amount .config
  | .processWithdrawal x => .process x .claim
  | .marketplaceSweepOnce => .sweepQuery
  | .reconcileInFlightWithdrawalsOnce => .reconcileQuery

inductive Act where
  | call (c : Entry)
  | advance (i : ℕ) (e : Env)
  | crash (i : ℕ)
  | completeWithdrawal (id txHash : String)
  | resetWithdrawal (id : String)
  | earn (id org : String) (share : ℕ) (createdAt : ℤ)
  /-- the chain: a transaction that can no longer succeed, and one that did -/
  | die (txHash : String)
  | land (txHash : String)

def step (s : Settings) (w : World) : Act → World
  | .call c => { w with tasks := w.tasks ++ [c.start] }
  | .advance i e =>
    match w.tasks[i]? with
    | none => w
    | some t => { (t.step s e w).1 with tasks := w.tasks.set i (t.step s e w).2 }
  | .crash i => { w with tasks := w.tasks.set i .failed }
  | .completeWithdrawal x txHash =>
    match w.db.completeWithdrawal x txHash with
    | .error _ => w
    | .ok db => { w with db := db }
  | .resetWithdrawal x => { w with db := (w.db.resetWithdrawal x).1 }
  | .earn id org share createdAt =>
    match w.db.insertEarning id org share createdAt with
    | .error _ => w
    | .ok db => { w with db := db }
  | .die txHash => if txHash ∈ w.landed then w else { w with dead := txHash :: w.dead }
  | .land txHash => if txHash ∈ w.dead then w else { w with landed := txHash :: w.landed }

def World.start : World := {}

def run (s : Settings) (w : World) (acts : List Act) : World := Runs.run (step s) w acts

end Teardrop.Marketplace
