/-
Event dispatch leases (`scheduling/crud.py`): `reserve_event_dispatch_lease`, `start_event_dispatch_lease`,
`renew_event_dispatch_lease`, `finish_event_dispatch_lease`, `fail_event_dispatch` and `recover_expired_event_dispatches`, with
`record_scheduled_run_result` and the edits of `scheduled_runs`, by any owners in any order.

Every function is one transaction under an advisory lock or the lock of its row, so each takes effect at once. `NOW()` is the
time at which a transaction began: one that `waited` for a lock works with an earlier time. The recovery skips the rows that
are `busy`. `bumps` is not stored: it names the run of every `consecutive_failures + 1`. Deletions are no operations here.
-/
import Teardrop.Core.Runs
import Teardrop.Core.Table
import Teardrop.Core.Tx

namespace Teardrop.Scheduling

open Teardrop.Py List Tx Table

/-! ## Rows -/

/-- `scheduled_run_results_status_chk` -/
inductive RunStatus where
  | completed
  | failed
  | timeout
  | skipped
deriving DecidableEq

inductive LeaseStatus where
  | reserved
  | running
  | completed
  | failed
deriving DecidableEq

/-- `status IN ('reserved', 'running')` -/
def LeaseStatus.active : LeaseStatus → Bool
  | .reserved | .running => true
  | .completed | .failed => false

inductive EventType where
  | dispatchAccepted
  | runSettled
  | chainDispatchSkipped
deriving DecidableEq

structure ScheduledRun where
  id : String
  orgId : String
  /-- `schedule_kind = 'event'` -/
  event : Bool
  enabled : Bool
  nextTriggerId : Option String
  lastRunAt : Option ℤ
  consecutiveFailures : ℤ

structure DispatchKey where
  scheduleId : String
  idempotencyKey : String
  runId : String
  chainId : String
  hopIndex : ℕ

def DispatchKey.slot (k : DispatchKey) : String × String := (k.scheduleId, k.idempotencyKey)

structure DispatchLease where
  runId : String
  scheduleId : String
  orgId : String
  idempotencyKey : String
  ownerId : String
  status : LeaseStatus
  leaseExpiresAt : ℤ
  startedAt : Option ℤ
  finishedAt : Option ℤ
  lastError : String

structure ScheduledRunResult where
  scheduleId : String
  orgId : String
  runId : String
  status : RunStatus
  outputText : String
  costUsdc : ℤ
  error : String

def ScheduledRunResult.key (r : ScheduledRunResult) : String × String := (r.scheduleId, r.runId)

/-- a row of `event_trigger_events`; `none` is the empty status -/
structure EventRow where
  scheduleId : String
  orgId : String
  runId : String
  eventType : EventType
  status : Option RunStatus
  costUsdc : ℤ
  error : String

structure Db where
  schedules : Table ScheduledRun.id
  keys : Table DispatchKey.slot
  leases : Table DispatchLease.runId
  results : Table ScheduledRunResult.key
  events : List EventRow
  bumps : List (String × String)

def emptyDb : Db := ⟨Table.empty, Table.empty, Table.empty, Table.empty, [], []⟩

/-! ## Transactions -/

inductive Outcome where
  | accepted
  | duplicate
  | saturated

structure EventDispatchLeaseResult where
  runId : String
  outcome : Outcome

/-- the arguments of `reserve_event_dispatch_lease` -/
structure Reservation where
  scheduleId : String
  orgId : String
  idempotencyKey : String
  runId : String
  ownerId : String
  leaseSeconds : ℤ
  globalLimit : ℕ
  orgLimit : ℕ
  chainId : String
  hopIndex : ℕ
deriving DecidableEq

def Reservation.slot (a : Reservation) : String × String := (a.scheduleId, a.idempotencyKey)

def Reservation.keyRow (a : Reservation) : DispatchKey :=
  ⟨a.scheduleId, a.idempotencyKey, a.runId, a.chainId, a.hopIndex⟩

def Reservation.leaseRow (a : Reservation) (now : ℤ) : DispatchLease :=
  ⟨a.runId, a.scheduleId, a.orgId, a.idempotencyKey, a.ownerId, .reserved, now + a.leaseSeconds * 1000000, none, none, ""⟩

/-- `status IN ('reserved', 'running') AND lease_expires_at > NOW()` -/
def DispatchLease.live (now : ℤ) (l : DispatchLease) : Bool := l.status.active && now < l.leaseExpiresAt

/-- `INSERT INTO event_dispatch_keys`, under the checks, the keys and the reference of the table -/
def insertKey (k : DispatchKey) : Tx Db Unit := do
  Tx.require (k.hopIndex ≤ 32767) (.pg .numericOutOfRange)
  Tx.require (0 < k.hopIndex ∨ k.chainId = k.runId) (.pg .checkViolation)
  let db ← Tx.read id
  match db.keys.insert? k with
  | none => Tx.raise (.pg .uniqueViolation)
  | some keys => do
    Tx.require (∀ other ∈ db.keys.rows, ¬ (other.chainId = k.chainId ∧ other.hopIndex = k.hopIndex)) (.pg .uniqueViolation)
    Tx.require ((db.schedules.get? k.scheduleId).isSome = true) (.pg .foreignKeyViolation)
    Tx.write (fun db => { db with keys := keys })

/-- `INSERT INTO event_dispatch_leases` -/
def insertLease (l : DispatchLease) : Tx Db Unit := do
  let db ← Tx.read id
  match db.leases.insert? l with
  | none => Tx.raise (.pg .uniqueViolation)
  | some leases => Tx.write (fun db => { db with leases := leases })

def insertEventRow (e : EventRow) (db : Db) : Db := { db with events := db.events ++ [e] }

/-- `reserve_event_dispatch_lease` -/
def reserve (now : ℤ) (a : Reservation) : Tx Db EventDispatchLeaseResult := do
  let db ← Tx.read id
  match db.keys.get? a.slot with
  | some existing => return ⟨existing.runId, .duplicate⟩
  | none =>
    if a.globalLimit ≤ db.leases.rows.countP (DispatchLease.live now) then return ⟨a.runId, .saturated⟩
    else if a.orgLimit ≤ db.leases.rows.countP (fun l => l.orgId = a.orgId && l.live now) then return ⟨a.runId, .saturated⟩
    else do
      insertKey a.keyRow
      insertLease (a.leaseRow now)
      Tx.write (insertEventRow ⟨a.scheduleId, a.orgId, a.runId, .dispatchAccepted, none, 0, ""⟩)
      return ⟨a.runId, .accepted⟩

/-- `UPDATE event_dispatch_leases ... WHERE run_id = ...` -/
def onLease (runId : String) (f : DispatchLease → DispatchLease) (hf : ∀ l, (f l).runId = l.runId) (db : Db) : Db :=
  { db with leases := db.leases.update (fun l => if l.runId = runId then f l else l) (fun l => by split_ifs <;> simp [hf]) }

/-- the lease of a run, if the owner has it -/
def leaseOf (db : Db) (runId ownerId : String) : Option DispatchLease :=
  (db.leases.get? runId).filter (fun l => l.ownerId = ownerId)

def startRow (now leaseSeconds : ℤ) (l : DispatchLease) : DispatchLease :=
  { l with status := .running, startedAt := l.startedAt.or (some now), leaseExpiresAt := now + leaseSeconds * 1000000 }

/-- `start_event_dispatch_lease` -/
def start (now : ℤ) (runId ownerId : String) (leaseSeconds : ℤ) (db : Db) : Bool × Db :=
  if (leaseOf db runId ownerId).map DispatchLease.status = some .reserved then
    (true, onLease runId (startRow now leaseSeconds) (fun _ => rfl) db)
  else (false, db)

def renewRow (now leaseSeconds : ℤ) (l : DispatchLease) : DispatchLease :=
  { l with leaseExpiresAt := now + leaseSeconds * 1000000 }

/-- `renew_event_dispatch_lease` -/
def renew (now : ℤ) (runId ownerId : String) (leaseSeconds : ℤ) (db : Db) : Bool × Db :=
  if (leaseOf db runId ownerId).map DispatchLease.status = some .running then
    (true, onLease runId (renewRow now leaseSeconds) (fun _ => rfl) db)
  else (false, db)

/-- `"completed" if result.status == "completed" else "failed"` -/
def terminalStatus : RunStatus → LeaseStatus
  | .completed => .completed
  | .failed | .timeout | .skipped => .failed

def closeRow (now : ℤ) (status : LeaseStatus) (lastError : String) (l : DispatchLease) : DispatchLease :=
  { l with status := status, finishedAt := some now, leaseExpiresAt := now, lastError := lastError }

/-- the terminal state of a lease and its `run_settled` row -/
def settle (now : ℤ) (scheduleId orgId runId : String) (status : RunStatus) (costUsdc : ℤ) (lastError error : String) (db : Db) :
    Db :=
  insertEventRow ⟨scheduleId, orgId, runId, .runSettled, some status, max 0 costUsdc, error⟩
    (onLease runId (closeRow now (terminalStatus status) lastError) (fun _ => rfl) db)

/-- `error if terminal_status == "failed" else ""` -/
def errorUnlessCompleted (status : RunStatus) (error : String) : String := if status = .completed then "" else error

/-- the lease is `reserved` or `running`, and the owner's -/
def holds (db : Db) (runId ownerId : String) : Bool := (leaseOf db runId ownerId).any (fun l => l.status.active)

/-- `finish_event_dispatch_lease` -/
def finish (now : ℤ) (scheduleId orgId runId ownerId : String) (result : ScheduledRunResult) : Tx Db Bool := do
  let db ← Tx.read id
  if holds db runId ownerId = false then return false
  else do
    Tx.write (settle now scheduleId orgId runId result.status result.costUsdc
      (errorUnlessCompleted result.status "Event run failed.") (errorUnlessCompleted result.status "Event run failed."))
    return true

/-- `WHERE schedule_id = $1 AND org_id = $2 AND run_id = $3` -/
def resultOf (db : Db) (scheduleId orgId runId : String) : Option ScheduledRunResult :=
  (db.results.get? (scheduleId, runId)).filter (fun r => r.orgId = orgId)

def failScheduleRow (now maxConsecutiveFailures : ℤ) (s : ScheduledRun) : ScheduledRun :=
  { s with
    lastRunAt := some now
    consecutiveFailures := s.consecutiveFailures + 1
    enabled := if maxConsecutiveFailures ≤ s.consecutiveFailures + 1 then false else s.enabled }

/-- `UPDATE scheduled_runs SET ..., consecutive_failures = consecutive_failures + 1` -/
def bumpFailures (now maxConsecutiveFailures : ℤ) (scheduleId runId : String) (db : Db) : Db :=
  { db with
    schedules := db.schedules.update (fun s => if s.id = scheduleId then failScheduleRow now maxConsecutiveFailures s else s)
      (fun s => by split_ifs <;> rfl)
    bumps := db.bumps ++ [(scheduleId, runId)] }

/-- the result of a run, or a failed one that is stored with an increment of the trigger's counter. A row of another org takes the
key of the new row and is not found again: `_row_to_scheduled_run_result(None)` -/
def storedResult (now maxConsecutiveFailures : ℤ) (scheduleId orgId runId error : String) : Tx Db ScheduledRunResult := do
  let db ← Tx.read id
  match resultOf db scheduleId orgId runId with
  | some row => return row
  | none =>
    match db.results.insert? ⟨scheduleId, orgId, runId, .failed, "", 0, error⟩ with
    | none => Tx.raise .typeError
    | some results => do
      Tx.require ((db.schedules.get? scheduleId).isSome = true) (.pg .foreignKeyViolation)
      Tx.write (fun db => bumpFailures now maxConsecutiveFailures scheduleId runId { db with results := results })
      return ⟨scheduleId, orgId, runId, .failed, "", 0, error⟩

/-- `error[:1024]` -/
def first1024 (error : String) : String := String.ofList (error.toList.take 1024)

/-- `fail_event_dispatch` -/
def fail (now : ℤ) (scheduleId orgId runId ownerId : String) (maxConsecutiveFailures : ℤ) (error : String) :
    Tx Db (Option ScheduledRunResult) := do
  let db ← Tx.read id
  if holds db runId ownerId = false then return none
  else do
    let stored ← storedResult now maxConsecutiveFailures scheduleId orgId runId (first1024 error)
    Tx.write (settle now scheduleId orgId runId stored.status stored.costUsdc
      (errorUnlessCompleted stored.status (first1024 error)) (first1024 error))
    return some stored

/-- `ORDER BY lease_expires_at, run_id` -/
def expiresBefore (l l' : DispatchLease) : Prop :=
  l.leaseExpiresAt < l'.leaseExpiresAt ∨ (l.leaseExpiresAt = l'.leaseExpiresAt ∧ l.runId ≤ l'.runId)

instance : DecidableRel expiresBefore := fun _ _ => inferInstanceAs (Decidable (_ ∨ _))

/-- the expired leases that are not locked by somebody else -/
def expired (now : ℤ) (busy : List String) (limit : ℕ) (db : Db) : List DispatchLease :=
  ((db.leases.rows.filter (fun l => l.status.active && l.leaseExpiresAt ≤ now && l.runId ∉ busy)).insertionSort
    expiresBefore).take limit

def recoveryError : String := "Event run recovery timed out."

/-- the body of the loop of `recover_expired_event_dispatches` -/
def recoverLease (now maxConsecutiveFailures : ℤ) (lease : DispatchLease) : Tx Db Unit := do
  let stored ← storedResult now maxConsecutiveFailures lease.scheduleId lease.orgId lease.runId recoveryError
  Tx.write (settle now lease.scheduleId lease.orgId lease.runId stored.status stored.costUsdc
    (errorUnlessCompleted stored.status recoveryError) (errorUnlessCompleted stored.status recoveryError))

def recoverLeases (now maxConsecutiveFailures : ℤ) : List DispatchLease → Tx Db ℕ
  | [] => return 0
  | lease :: rest => do
    recoverLease now maxConsecutiveFailures lease
    let recovered ← recoverLeases now maxConsecutiveFailures rest
    return recovered + 1

/-- `recover_expired_event_dispatches` -/
def recover (now : ℤ) (limit : ℕ) (maxConsecutiveFailures : ℤ) (busy : List String) : Tx Db ℕ := do
  let db ← Tx.read id
  recoverLeases now maxConsecutiveFailures (expired now busy limit db)

/-- `record_scheduled_run_result` -/
def record (result : ScheduledRunResult) : Tx Db ScheduledRunResult := do
  let db ← Tx.read id
  match db.results.insert? result with
  | none => Tx.raise (.pg .uniqueViolation)
  | some results => do
    Tx.require ((db.schedules.get? result.scheduleId).isSome = true) (.pg .foreignKeyViolation)
    Tx.write (fun db => { db with results := results })
    return result

/-- a trigger is created, or anything but its org is edited -/
def saveSchedule (row : ScheduledRun) (db : Db) : Db :=
  match db.schedules.insert? row with
  | some schedules => { db with schedules := schedules }
  | none =>
    { db with
      schedules := db.schedules.update (fun s => if s.id = row.id then { row with orgId := s.orgId } else s)
        (fun s => by split_ifs with h <;> simp [h]) }

/-! ## Machine -/

inductive Txn where
  | saveSchedule (row : ScheduledRun)
  | reserve (a : Reservation)
  | start (runId ownerId : String) (leaseSeconds : ℤ)
  | renew (runId ownerId : String) (leaseSeconds : ℤ)
  | finish (scheduleId orgId runId ownerId : String) (result : ScheduledRunResult)
  | fail (scheduleId orgId runId ownerId : String) (maxConsecutiveFailures : ℤ) (error : String)
  | recover (limit : ℕ) (maxConsecutiveFailures : ℤ) (busy : List String)
  | record (result : ScheduledRunResult)

/-- what a transaction that began at `now` leaves in the database -/
def apply (now : ℤ) (db : Db) : Txn → Db
  | .saveSchedule row => saveSchedule row db
  | .reserve a => (Tx.commit (reserve now a) db).2
  | .start runId ownerId leaseSeconds => (start now runId ownerId leaseSeconds db).2
  | .renew runId ownerId leaseSeconds => (renew now runId ownerId leaseSeconds db).2
  | .finish scheduleId orgId runId ownerId result => (Tx.commit (finish now scheduleId orgId runId ownerId result) db).2
  | .fail scheduleId orgId runId ownerId maxConsecutiveFailures error =>
    (Tx.commit (fail now scheduleId orgId runId ownerId maxConsecutiveFailures error) db).2
  | .recover limit maxConsecutiveFailures busy => (Tx.commit (recover now limit maxConsecutiveFailures busy) db).2
  | .record result => (Tx.commit (record result) db).2

structure St where
  now : ℤ
  db : Db

inductive Op where
  /-- time passes -/
  | tick (micros : ℕ)
  /-- a transaction commits that began `waited` before -/
  | txn (waited : ℕ) (t : Txn)

def step (s : St) : Op → St
  | .tick micros => { s with now := s.now + micros }
  | .txn waited t => { s with db := apply (s.now - waited) s.db t }

def run (s : St) (ops : List Op) : St := Runs.run step s ops

def init (now : ℤ) : St := ⟨now, emptyDb⟩

/-! ## What is claimed -/

/-- who fails or records a run names the trigger and the org it was accepted for -/
def Owned (db : Db) : Txn → Prop
  | .fail scheduleId orgId runId _ _ _ => ∀ l ∈ db.leases.get? runId, l.scheduleId = scheduleId ∧ l.orgId = orgId
  | .record result =>
    (db.leases.get? result.runId).isSome = true ∧
      ∀ l ∈ db.leases.get? result.runId, l.scheduleId = result.scheduleId ∧ l.orgId = result.orgId
  | _ => True

instance (db : Db) : ∀ t : Txn, Decidable (Owned db t)
  | .fail scheduleId orgId runId _ _ _ =>
    inferInstanceAs (Decidable (∀ l ∈ db.leases.get? runId, l.scheduleId = scheduleId ∧ l.orgId = orgId))
  | .record result => inferInstanceAs (Decidable (_ ∧ ∀ l ∈ db.leases.get? result.runId, _))
  | .saveSchedule _ | .reserve _ | .start _ _ _ | .renew _ _ _ | .finish _ _ _ _ _ | .recover _ _ _ => .isTrue trivial

def OwnedOp (s : St) : Op → Prop
  | .tick _ => True
  | .txn _ t => Owned s.db t

instance (s : St) : ∀ o : Op, Decidable (OwnedOp s o)
  | .tick _ => .isTrue trivial
  | .txn _ t => inferInstanceAs (Decidable (Owned s.db t))

/-- the reservation a step accepts -/
def acceptedAt (s : St) : Op → List Reservation
  | .txn waited (.reserve a) =>
    match (Tx.commit (reserve (s.now - waited) a) s.db).1 with
    | .ok ⟨_, .accepted⟩ => [a]
    | _ => []
  | _ => []

/-- the reservations a run accepts -/
def accepted (s : St) (ops : List Op) : List Reservation := Runs.collect step acceptedAt s ops

/-- the `run_settled` rows of a run -/
def settledRows (db : Db) (runId : String) : ℕ := db.events.countP (fun e => e.runId = runId && e.eventType = .runSettled)

/-! ## What a transaction does -/

/-- what lets `reserve_event_dispatch_lease` accept, and the two rows -/
structure Accepts (now : ℤ) (a : Reservation) (db : Db) (keys : Table DispatchKey.slot) (leases : Table DispatchLease.runId) :
    Prop where
  keys : db.keys.insert? a.keyRow = some keys
  leases : db.leases.insert? (a.leaseRow now) = some leases
  root : 0 < a.hopIndex ∨ a.chainId = a.runId
  chain : ∀ other ∈ db.keys.rows, ¬ (other.chainId = a.chainId ∧ other.hopIndex = a.hopIndex)
  schedule : (db.schedules.get? a.scheduleId).isSome = true
  room : db.leases.rows.countP (DispatchLease.live now) < a.globalLimit
  orgRoom : db.leases.rows.countP (fun l => l.orgId = a.orgId && l.live now) < a.orgLimit

/-- the database after an accepted reservation -/
def Reservation.store (a : Reservation) (keys : Table DispatchKey.slot) (leases : Table DispatchLease.runId) (db : Db) : Db :=
  insertEventRow ⟨a.scheduleId, a.orgId, a.runId, .dispatchAccepted, none, 0, ""⟩ { db with keys := keys, leases := leases }

variable {db : Db} {l : DispatchLease} (now : ℤ) (runId scheduleId orgId : String) {maxConsecutiveFailures : ℤ} {db' : Db}
  {x : ScheduledRunResult} (s : St)

variable {r : Unit × Db} {stored : ScheduledRunResult} (f : DispatchLease → DispatchLease) {k : String}
  {results : Table ScheduledRunResult.key} (o : Op)

theorem insertKey_ok {k : DispatchKey} (h : insertKey k db = .ok r) :
    ∃ keys, db.keys.insert? k = some keys ∧ (0 < k.hopIndex ∨ k.chainId = k.runId) ∧
      (∀ other ∈ db.keys.rows, ¬ (other.chainId = k.chainId ∧ other.hopIndex = k.hopIndex)) ∧
      (db.schedules.get? k.scheduleId).isSome ∧ r = ((), { db with keys := keys }) := by
  obtain ⟨-, h⟩ := require_bind_ok h
  obtain ⟨hroot, h⟩ := require_bind_ok h
  have h := read_bind_ok h
  simp only [id_eq] at h
  cases hkeys : db.keys.insert? k with
  | none =>
    rw [hkeys] at h
    cases h
  | some keys =>
    rw [hkeys] at h
    obtain ⟨hchain, h⟩ := require_bind_ok h
    obtain ⟨hschedule, h⟩ := require_bind_ok h
    cases h
    exact ⟨keys, rfl, hroot, hchain, hschedule, rfl⟩

theorem insertLease_ok (h : insertLease l db = .ok r) :
    ∃ leases, db.leases.insert? l = some leases ∧ r = ((), { db with leases := leases }) := by
  have h := read_bind_ok h
  simp only [id_eq] at h
  cases hleases : db.leases.insert? l with
  | none =>
    rw [hleases] at h
    cases h
  | some leases =>
    rw [hleases] at h
    cases h
    exact ⟨leases, rfl, rfl⟩

theorem reserve_duplicate {a : Reservation} {k : DispatchKey} (h : db.keys.get? a.slot = some k) :
    commit (reserve now a) db = (.ok ⟨k.runId, .duplicate⟩, db) := by
  simp [commit, reserve, bind_run, read_run, h, pure_run]

/-- `reserve_event_dispatch_lease`: nothing, or a key and a lease -/
theorem reserve_effect (a : Reservation) (db : Db) :
    (∃ r, (∀ runId, r ≠ .ok ⟨runId, .accepted⟩) ∧ commit (reserve now a) db = (r, db)) ∨
    ∃ keys leases, Accepts now a db keys leases ∧
      commit (reserve now a) db = (.ok ⟨a.runId, .accepted⟩, a.store keys leases db) := by
  rcases commit_cases (reserve now a) db with ⟨r, db', hrun, hcommit⟩ | ⟨e, -, hcommit⟩
  · have h := read_bind_ok hrun
    simp only [id_eq] at h
    cases hfree : db.keys.get? a.slot with
    | some k =>
      rw [hfree] at h
      cases h
      exact .inl ⟨_, (by simp), hcommit⟩
    | none =>
      rw [hfree] at h
      split_ifs at h with hglobal horg
      · cases h
        exact .inl ⟨_, (by simp), hcommit⟩
      · cases h
        exact .inl ⟨_, (by simp), hcommit⟩
      · obtain ⟨⟨⟩, db₁, hkey, h⟩ := bind_ok h
        obtain ⟨keys, hkeys, hroot, hchain, hschedule, hr⟩ := insertKey_ok hkey
        cases hr
        obtain ⟨⟨⟩, db₂, hlease, h⟩ := bind_ok h
        obtain ⟨leases, hleases, hr⟩ := insertLease_ok hlease
        cases hr
        cases h
        exact .inr ⟨keys, leases, ⟨hkeys, hleases, hroot, hchain, hschedule, not_le.1 hglobal, not_le.1 horg⟩, hcommit⟩
  · exact .inl ⟨_, (by simp), hcommit⟩

/-- what a transaction other than a reservation or an edit does, one lease or one result at a time -/
inductive Effect (now : ℤ) (db : Db) : Db → Prop where
  | start (l : DispatchLease) (leaseSeconds : ℤ) (h : db.leases.get? l.runId = some l) (hstatus : l.status = .reserved) :
    Effect now db (onLease l.runId (startRow now leaseSeconds) (fun _ => rfl) db)
  | renew (l : DispatchLease) (leaseSeconds : ℤ) (h : db.leases.get? l.runId = some l) (hstatus : l.status = .running) :
    Effect now db (onLease l.runId (renewRow now leaseSeconds) (fun _ => rfl) db)
  | finish (l : DispatchLease) (scheduleId orgId : String) (status : RunStatus) (costUsdc : ℤ)
    (lastError error : String) (h : db.leases.get? l.runId = some l) (hactive : l.status.active = true) :
    Effect now db (settle now scheduleId orgId l.runId status costUsdc lastError error db)
  | fail (db' : Db) (l : DispatchLease) (maxConsecutiveFailures : ℤ) (stored : ScheduledRunResult)
    (lastError error error' : String) (h : db.leases.get? l.runId = some l) (hactive : l.status.active = true)
    (hstored : storedResult now maxConsecutiveFailures l.scheduleId l.orgId l.runId error db = .ok (stored, db')) :
    Effect now db (settle now l.scheduleId l.orgId l.runId stored.status stored.costUsdc lastError error' db')
  | record (l : DispatchLease) (result : ScheduledRunResult) (results : Table ScheduledRunResult.key)
    (h : db.leases.get? result.runId = some l) (howned : l.scheduleId = result.scheduleId ∧ l.orgId = result.orgId)
    (hresults : db.results.insert? result = some results) : Effect now db { db with results := results }

theorem leaseOf_some {runId ownerId : String} (h : leaseOf db runId ownerId = some l) :
    db.leases.get? runId = some l ∧ l.runId = runId := by
  have hget := (Option.filter_eq_some_iff.1 h).1
  exact ⟨hget, key_of_get? hget⟩

/-- `start_event_dispatch_lease`: nothing, or a `reserved` lease is `running` -/
theorem start_effect (ownerId : String) (leaseSeconds : ℤ) (db : Db) :
    start now runId ownerId leaseSeconds db = (false, db) ∨ ∃ l, l.runId = runId ∧ db.leases.get? l.runId = some l ∧
      l.status = .reserved ∧
      start now runId ownerId leaseSeconds db = (true, onLease l.runId (startRow now leaseSeconds) (fun _ => rfl) db) := by
  unfold start
  split_ifs with h
  · right
    obtain ⟨l, hlease, hstatus⟩ := Option.map_eq_some_iff.1 h
    obtain ⟨hget, rfl⟩ := leaseOf_some hlease
    exact ⟨l, rfl, hget, hstatus, rfl⟩
  · exact .inl rfl

/-- `renew_event_dispatch_lease`: nothing, or a `running` lease is extended -/
theorem renew_effect (ownerId : String) (leaseSeconds : ℤ) (db : Db) :
    renew now runId ownerId leaseSeconds db = (false, db) ∨ ∃ l, l.runId = runId ∧ db.leases.get? l.runId = some l ∧
      l.status = .running ∧
      renew now runId ownerId leaseSeconds db = (true, onLease l.runId (renewRow now leaseSeconds) (fun _ => rfl) db) := by
  unfold renew
  split_ifs with h
  · right
    obtain ⟨l, hlease, hstatus⟩ := Option.map_eq_some_iff.1 h
    obtain ⟨hget, rfl⟩ := leaseOf_some hlease
    exact ⟨l, rfl, hget, hstatus, rfl⟩
  · exact .inl rfl

theorem holds_some {runId ownerId : String} (h : holds db runId ownerId) :
    ∃ l, l.runId = runId ∧ db.leases.get? l.runId = some l ∧ l.status.active := by
  obtain ⟨l, hlease, hactive⟩ := (Option.any_eq_true _ _).1 h
  obtain ⟨hget, rfl⟩ := leaseOf_some hlease
  exact ⟨l, rfl, hget, hactive⟩

/-- `finish_event_dispatch_lease`: nothing, or the owner's lease is settled -/
theorem finish_effect (runId ownerId : String) (result : ScheduledRunResult) (db : Db) :
    commit (finish now scheduleId orgId runId ownerId result) db = (.ok false, db) ∨
    holds db runId ownerId ∧ commit (finish now scheduleId orgId runId ownerId result) db = (.ok true,
      settle now scheduleId orgId runId result.status result.costUsdc (errorUnlessCompleted result.status "Event run failed.")
        (errorUnlessCompleted result.status "Event run failed.") db) := by
  cases hheld : holds db runId ownerId with
  | false =>
    left
    simp [commit, finish, bind_run, read_run, pure_run, hheld]
  | true =>
    right
    refine ⟨rfl, ?_⟩
    simp only [commit, finish, bind_run, read_run, write, pure_run, id_eq, hheld, Bool.true_eq_false, if_false]

/-- `fail_event_dispatch`: nothing, or the owner's lease is settled as the stored result says -/
theorem fail_effect (runId ownerId : String) (maxConsecutiveFailures : ℤ) (error : String) (db : Db) :
    (commit (fail now scheduleId orgId runId ownerId maxConsecutiveFailures error) db).2 = db ∨
    holds db runId ownerId ∧ ∃ stored db',
      storedResult now maxConsecutiveFailures scheduleId orgId runId (first1024 error) db = .ok (stored, db') ∧
      commit (fail now scheduleId orgId runId ownerId maxConsecutiveFailures error) db = (.ok (some stored),
        settle now scheduleId orgId runId stored.status stored.costUsdc
          (errorUnlessCompleted stored.status (first1024 error)) (first1024 error) db') := by
  rcases commit_cases (fail now scheduleId orgId runId ownerId maxConsecutiveFailures error) db with
    ⟨r, db₁, hrun, hcommit⟩ | ⟨e, -, hcommit⟩
  · have h := read_bind_ok hrun
    split_ifs at h with hheld
    · cases h
      exact .inl (congrArg Prod.snd hcommit)
    · obtain ⟨stored, db', hstored, h⟩ := bind_ok h
      cases h
      exact .inr ⟨by simpa using hheld, stored, db', hstored, hcommit⟩
  · exact .inl (congrArg Prod.snd hcommit)

theorem storedResult_ok {now : ℤ} {scheduleId orgId runId error : String}
    (h : storedResult now maxConsecutiveFailures scheduleId orgId runId error db = .ok (stored, db')) :
    (resultOf db scheduleId orgId runId = some stored ∧ db' = db) ∨
    ∃ results, db.results.insert? ⟨scheduleId, orgId, runId, .failed, "", 0, error⟩ = some results ∧
      (db.schedules.get? scheduleId).isSome ∧
      db' = bumpFailures now maxConsecutiveFailures scheduleId runId { db with results := results } := by
  have h := read_bind_ok h
  simp only [id_eq] at h
  cases hexisting : resultOf db scheduleId orgId runId with
  | some row =>
    rw [hexisting] at h
    cases h
    exact .inl ⟨rfl, rfl⟩
  | none =>
    rw [hexisting] at h
    cases hresults : db.results.insert? ⟨scheduleId, orgId, runId, .failed, "", 0, error⟩ with
    | none =>
      rw [hresults] at h
      cases h
    | some results =>
      rw [hresults] at h
      obtain ⟨hschedule, h⟩ := require_bind_ok h
      cases h
      exact .inr ⟨results, rfl, hschedule, rfl⟩

/-! ## Tables after an effect -/

theorem get?_onLease (hf : ∀ l, (f l).runId = l.runId) (db : Db) (k : String) :
    (onLease runId f hf db).leases.get? k = (db.leases.get? k).map (fun l => if k = runId then f l else l) := by
  rw [onLease, get?_update]
  cases hget : db.leases.get? k with
  | none => rfl
  | some l => rw [Option.map_some, Option.map_some, key_of_get? hget]

theorem get?_settle (runId : String) (status : RunStatus) (costUsdc : ℤ) (lastError error : String) (db : Db) (k : String) :
    (settle now scheduleId orgId runId status costUsdc lastError error db).leases.get? k =
      (db.leases.get? k).map (fun l => if k = runId then closeRow now (terminalStatus status) lastError l else l) :=
  get?_onLease runId (closeRow now (terminalStatus status) lastError) (fun _ => rfl) db k

/-- neither the leases nor the keys nor the audit rows change when a result is stored -/
structure ResultsOnly (db db' : Db) : Prop where
  keys : db'.keys = db.keys
  leases : db'.leases = db.leases
  events : db'.events = db.events

theorem storedResult_only {now : ℤ} {scheduleId orgId runId error : String}
    (h : storedResult now maxConsecutiveFailures scheduleId orgId runId error db = .ok (stored, db')) :
    ResultsOnly db db' := by
  rcases storedResult_ok h with ⟨-, rfl⟩ | ⟨results, -, -, rfl⟩ <;> exact ⟨rfl, rfl, rfl⟩

theorem Effect.terminal {now : ℤ} (h : Effect now db db') (hget : db.leases.get? k = some l)
    (hterminal : l.status.active = false) : db'.leases.get? k = some l := by
  have other : ∀ {l' : DispatchLease}, db.leases.get? l'.runId = some l' → l'.status.active → k ≠ l'.runId := by
    rintro l' hget' hactive rfl
    rw [hget] at hget'
    cases hget'
    rw [hterminal] at hactive
    cases hactive
  cases h with
  | start _ _ hget' hstatus | renew _ _ hget' hstatus =>
    refine (get?_onLease _ _ _ _ _).trans ?_
    rw [hget, Option.map_some, if_neg (other hget' (by rw [hstatus]; rfl))]
  | finish l' scheduleId orgId status costUsdc lastError error hget' hactive =>
    rw [get?_settle, hget, Option.map_some, if_neg (other hget' hactive)]
  | fail db₁ l' m stored lastError error error' hget' hactive hstored =>
    rw [get?_settle, (storedResult_only hstored).leases, hget, Option.map_some, if_neg (other hget' hactive)]
  | record l' result results hget' howned hresults => exact hget

theorem Effect.keys {now : ℤ} (h : Effect now db db') : db'.keys = db.keys := by
  cases h with
  | start _ _ _ _ | renew _ _ _ _ => rfl
  | finish l' scheduleId orgId status costUsdc lastError error hget' hactive => rfl
  | fail db₁ l' m stored lastError error error' hget' hactive hstored => exact (storedResult_only hstored).keys
  | record l' result results hget' howned hresults => rfl

/-- the counter of a trigger moves with the increments that are executed for it -/
def Counted (db db' : Db) : Prop :=
  ∃ new, db'.bumps = db.bumps ++ new ∧ ∀ k row, db.schedules.get? k = some row → ∃ row', db'.schedules.get? k = some row' ∧
    row'.consecutiveFailures = row.consecutiveFailures + new.countP (fun b => b.1 = k)

theorem Counted.refl (db : Db) : Counted db db :=
  ⟨[], (append_nil _).symm, fun k row hrow => ⟨row, hrow, by simp⟩⟩

theorem Counted.trans {db'' : Db} (h : Counted db db') (h' : Counted db' db'') : Counted db db'' := by
  obtain ⟨new, hnew, hrows⟩ := h
  obtain ⟨new', hnew', hrows'⟩ := h'
  refine ⟨new ++ new', by rw [hnew', hnew, append_assoc], ?_⟩
  intro k row hrow
  obtain ⟨row', hrow', hcount⟩ := hrows k row hrow
  obtain ⟨row'', hrow'', hcount'⟩ := hrows' k row' hrow'
  refine ⟨row'', hrow'', ?_⟩
  rw [hcount', hcount, countP_append]
  push_cast
  ring

theorem counted_bump (maxConsecutiveFailures : ℤ) (scheduleId runId : String) (db : Db) :
    Counted db (bumpFailures now maxConsecutiveFailures scheduleId runId db) := by
  refine ⟨[(scheduleId, runId)], rfl, ?_⟩
  intro k row hrow
  refine ⟨if row.id = scheduleId then failScheduleRow now maxConsecutiveFailures row else row, ?_, ?_⟩
  · rw [bumpFailures, get?_update, hrow, Option.map_some]
  obtain rfl := key_of_get? hrow
  by_cases hid : row.id = scheduleId
  · simp [hid, failScheduleRow]
  · simp [hid, Ne.symm hid]

theorem Effect.counted {now : ℤ} (h : Effect now db db') : Counted db db' := by
  cases h with
  | start _ _ _ _ | renew _ _ _ _ => exact Counted.refl db
  | finish l' scheduleId orgId status costUsdc lastError error hget' hactive => exact Counted.refl db
  | fail db₁ l' m stored lastError error error' hget' hactive hstored =>
    rcases storedResult_ok hstored with ⟨-, hdb⟩ | ⟨results, -, -, hdb⟩
    · rw [hdb]
      exact Counted.refl db
    · rw [hdb]
      exact counted_bump now m l'.scheduleId l'.runId db
  | record l' result results hget' howned hresults => exact Counted.refl db

/-! ## Recovery -/

theorem recoverLease_ok {now : ℤ} (hget : db.leases.get? l.runId = some l) (hactive : l.status.active)
    (h : recoverLease now maxConsecutiveFailures l db = .ok r) :
    Effect now db r.2 ∧ ∀ k, k ≠ l.runId → r.2.leases.get? k = db.leases.get? k := by
  obtain ⟨stored, db', hstored, h⟩ := bind_ok h
  cases h
  refine ⟨.fail db' l maxConsecutiveFailures stored _ _ _ hget hactive hstored, ?_⟩
  intro k hk
  rw [get?_settle, (storedResult_only hstored).leases]
  simp [if_neg hk]

theorem recoverLeases_effect {now : ℤ} {rows : List DispatchLease} {r : ℕ × Db}
    (hrows : ∀ l ∈ rows, db.leases.get? l.runId = some l ∧ l.status.active)
    (hnodup : (rows.map DispatchLease.runId).Nodup) (h : recoverLeases now maxConsecutiveFailures rows db = .ok r) :
    Relation.ReflTransGen (Effect now) db r.2 := by
  induction rows generalizing db r with
  | nil =>
    cases h
    exact .refl
  | cons l rest ih =>
    obtain ⟨⟨⟩, db', hfirst, h⟩ := bind_ok h
    obtain ⟨n, db'', hrest, h⟩ := bind_ok h
    cases h
    obtain ⟨hget, hactive⟩ := hrows l mem_cons_self
    obtain ⟨heffect, hothers⟩ := recoverLease_ok hget hactive hfirst
    rw [map_cons, nodup_cons] at hnodup
    have hlater : ∀ l' ∈ rest, db'.leases.get? l'.runId = some l' ∧ l'.status.active := by
      intro l' hl'
      have hne : l'.runId ≠ l.runId := fun heq => hnodup.1 (heq ▸ mem_map_of_mem hl')
      obtain ⟨hget', hactive'⟩ := hrows l' (mem_cons_of_mem l hl')
      exact ⟨(hothers l'.runId hne).trans hget', hactive'⟩
    have hchain := ih hlater hnodup.2 hrest
    exact .head heffect hchain

theorem expired_active (busy : List String) (limit : ℕ) (db : Db) (h : l ∈ expired now busy limit db) :
    db.leases.get? l.runId = some l ∧ l.status.active := by
  have hsorted := (take_sublist _ _).subset h
  rw [mem_insertionSort] at hsorted
  obtain ⟨hmem, hcond⟩ := mem_filter.1 hsorted
  simp only [Bool.and_eq_true] at hcond
  exact ⟨get?_of_mem hmem, hcond.1.1⟩

theorem expired_nodup (busy : List String) (limit : ℕ) (db : Db) :
    ((expired now busy limit db).map DispatchLease.runId).Nodup := by
  refine List.Nodup.sublist ((take_sublist _ _).map DispatchLease.runId) ?_
  refine ((perm_insertionSort expiresBefore _).map DispatchLease.runId).nodup_iff.2 ?_
  exact db.leases.nodup.sublist (filter_sublist.map DispatchLease.runId)

/-- `recover_expired_event_dispatches`: one lease after the other, or nothing -/
theorem recover_effect (limit : ℕ) (maxConsecutiveFailures : ℤ) (busy : List String) (db : Db) :
    Relation.ReflTransGen (Effect now) db (commit (recover now limit maxConsecutiveFailures busy) db).2 := by
  rcases commit_cases (recover now limit maxConsecutiveFailures busy) db with ⟨r, db', hrun, hcommit⟩ | ⟨e, -, hcommit⟩
  · rw [hcommit]
    have h := read_bind_ok hrun
    exact recoverLeases_effect (fun l hl => expired_active now busy limit db hl) (expired_nodup now busy limit db) h
  · rw [hcommit]

theorem apply_cases (db : Db) (t : Txn) (howned : Owned db t) :
    (∃ a, t = .reserve a) ∨ (∃ row, t = .saveSchedule row) ∨
      (∀ a, t ≠ .reserve a) ∧ Relation.ReflTransGen (Effect now) db (apply now db t) := by
  cases t with
  | saveSchedule row => exact .inr (.inl ⟨row, rfl⟩)
  | reserve a => exact .inl ⟨a, rfl⟩
  | start runId ownerId leaseSeconds =>
    refine .inr (.inr ⟨nofun, ?_⟩)
    rcases start_effect now runId ownerId leaseSeconds db with h | ⟨l, -, hget, hstatus, h⟩
    · rw [apply, h]
    · rw [apply, h]
      exact .single (.start l leaseSeconds hget hstatus)
  | renew runId ownerId leaseSeconds =>
    refine .inr (.inr ⟨nofun, ?_⟩)
    rcases renew_effect now runId ownerId leaseSeconds db with h | ⟨l, -, hget, hstatus, h⟩
    · rw [apply, h]
    · rw [apply, h]
      exact .single (.renew l leaseSeconds hget hstatus)
  | finish scheduleId orgId runId ownerId result =>
    refine .inr (.inr ⟨nofun, ?_⟩)
    rcases finish_effect now scheduleId orgId runId ownerId result db with h | ⟨hheld, h⟩
    · rw [apply, h]
    · rw [apply, h]
      obtain ⟨l, rfl, hget, hactive⟩ := holds_some hheld
      exact .single (.finish l _ _ _ _ _ _ hget hactive)
  | fail scheduleId orgId runId ownerId maxConsecutiveFailures error =>
    refine .inr (.inr ⟨nofun, ?_⟩)
    rcases fail_effect now scheduleId orgId runId ownerId maxConsecutiveFailures error db with h | ⟨hheld, stored, db', hstored, h⟩
    · rw [apply, h]
    · rw [apply, h]
      obtain ⟨l, rfl, hget, hactive⟩ := holds_some hheld
      obtain ⟨rfl, rfl⟩ := howned l hget
      exact .single (.fail db' l maxConsecutiveFailures stored _ _ _ hget hactive hstored)
  | recover limit maxConsecutiveFailures busy =>
    exact .inr (.inr ⟨nofun, recover_effect now limit maxConsecutiveFailures busy db⟩)
  | record result =>
    refine .inr (.inr ⟨nofun, ?_⟩)
    obtain ⟨l, hget⟩ := Option.isSome_iff_exists.1 howned.1
    rcases commit_cases (record result) db with ⟨r, db', hrun, hcommit⟩ | ⟨e, -, hcommit⟩
    · rw [apply, hcommit]
      have h := read_bind_ok hrun
      simp only [id_eq] at h
      cases hresults : db.results.insert? result with
      | none =>
        rw [hresults] at h
        cases h
      | some results =>
        rw [hresults] at h
        obtain ⟨-, h⟩ := require_bind_ok h
        cases h
        exact .single (.record l result results hget (howned.2 l hget) hresults)
    · rw [apply, hcommit]

/-! ## Invariant -/

/-- the lease of a run is terminal -/
def closed (db : Db) (runId : String) : Bool := (db.leases.get? runId).any (fun l => !l.status.active)

structure Inv (db : Db) : Prop where
  /-- an accepted run has a lease -/
  leased : ∀ k ∈ db.keys.rows, (db.leases.get? k.runId).isSome = true
  /-- one audit row for a terminal lease, none before -/
  settled : ∀ runId, settledRows db runId = if closed db runId then 1 else 0
  /-- a result is of the trigger and the org of its run -/
  owned : ∀ x ∈ db.results.rows, ∃ l, db.leases.get? x.runId = some l ∧ l.scheduleId = x.scheduleId ∧ l.orgId = x.orgId
  /-- an increment comes with a result -/
  bumped : ∀ b ∈ db.bumps, ∃ x ∈ db.results.rows, x.key = b
  bumpsOnce : db.bumps.Nodup

theorem inv_empty : Inv emptyDb where
  leased _ hk := absurd hk not_mem_nil
  settled _ := rfl
  owned _ hx := absurd hx not_mem_nil
  bumped _ hb := absurd hb not_mem_nil
  bumpsOnce := nodup_nil

/-- leases are never deleted, and keep their trigger and their org -/
def Kept (db db' : Db) : Prop :=
  ∀ k l, db.leases.get? k = some l → ∃ l', db'.leases.get? k = some l' ∧ l'.scheduleId = l.scheduleId ∧ l'.orgId = l.orgId

theorem kept_onLease (hf : ∀ l, (f l).runId = l.runId)
    (hsame : ∀ l, (f l).scheduleId = l.scheduleId ∧ (f l).orgId = l.orgId) (db : Db) : Kept db (onLease runId f hf db) := by
  intro k l hget
  rw [get?_onLease, hget, Option.map_some]
  refine ⟨_, rfl, ?_⟩
  split_ifs
  · exact hsame l
  · exact ⟨rfl, rfl⟩

theorem kept_settle (runId : String) (status : RunStatus) (costUsdc : ℤ) (lastError error : String) (db : Db) :
    Kept db (settle now scheduleId orgId runId status costUsdc lastError error db) := by
  have hkept := kept_onLease runId (closeRow now (terminalStatus status) lastError) (fun _ => rfl) (fun _ => ⟨rfl, rfl⟩) db
  exact hkept

theorem Kept.leased (h : Kept db db') (hsome : (db.leases.get? k).isSome) : (db'.leases.get? k).isSome := by
  obtain ⟨l, hget⟩ := Option.isSome_iff_exists.1 hsome
  obtain ⟨l', hget', -⟩ := h k l hget
  rw [hget']
  rfl

theorem Kept.owned (h : Kept db db')
    (hx : ∃ l, db.leases.get? x.runId = some l ∧ l.scheduleId = x.scheduleId ∧ l.orgId = x.orgId) :
    ∃ l, db'.leases.get? x.runId = some l ∧ l.scheduleId = x.scheduleId ∧ l.orgId = x.orgId := by
  obtain ⟨l, hget, hschedule, horg⟩ := hx
  obtain ⟨l', hget', hschedule', horg'⟩ := h _ l hget
  exact ⟨l', hget', hschedule'.trans hschedule, horg'.trans horg⟩

theorem Inv.touch (h : Inv db) (hget : db.leases.get? l.runId = some l) (f : DispatchLease → DispatchLease)
    (hf : ∀ l, (f l).runId = l.runId) (hsame : ∀ l, (f l).scheduleId = l.scheduleId ∧ (f l).orgId = l.orgId)
    (hactive : (f l).status.active = l.status.active) :
    Inv (onLease l.runId f hf db) where
  leased k hk := (kept_onLease l.runId f hf hsame db).leased (h.leased k hk)
  settled runId := by
    have hclosed : closed (onLease l.runId f hf db) runId = closed db runId := by
      unfold closed
      rw [get?_onLease]
      by_cases hrun : runId = l.runId
      · rw [hrun, hget]
        simp [hactive]
      · simp [if_neg hrun]
    rw [hclosed]
    exact h.settled runId
  owned x hx := (kept_onLease l.runId f hf hsame db).owned (h.owned x hx)
  bumped := h.bumped
  bumpsOnce := h.bumpsOnce

theorem Inv.settle (h : Inv db) (hget : db.leases.get? l.runId = some l) (hactive : l.status.active) (now : ℤ)
    (scheduleId orgId : String) (status : RunStatus) (costUsdc : ℤ) (lastError error : String) :
    Inv (settle now scheduleId orgId l.runId status costUsdc lastError error db) where
  leased k hk := (kept_settle now scheduleId orgId l.runId status costUsdc lastError error db).leased (h.leased k hk)
  settled runId := by
    have hrows : settledRows (Scheduling.settle now scheduleId orgId l.runId status costUsdc lastError error db) runId =
        settledRows db runId + if l.runId = runId then 1 else 0 := by
      unfold settledRows Scheduling.settle insertEventRow onLease
      simp
    rw [hrows, h.settled]
    unfold closed
    rw [get?_settle]
    by_cases hrun : runId = l.runId
    · have hterminal : (terminalStatus status).active = false := by cases status <;> rfl
      rw [hrun, hget]
      simp [hactive, closeRow, hterminal]
    · simp [if_neg hrun, if_neg (Ne.symm hrun)]
  owned x hx := (kept_settle now scheduleId orgId l.runId status costUsdc lastError error db).owned (h.owned x hx)
  bumped := h.bumped
  bumpsOnce := h.bumpsOnce

theorem Inv.result (h : Inv db) (hx : ∃ l, db.leases.get? x.runId = some l ∧ l.scheduleId = x.scheduleId ∧ l.orgId = x.orgId)
    (hresults : db.results.insert? x = some results) : Inv { db with results := results } where
  leased := h.leased
  settled := h.settled
  owned y hy := by
    rw [(insert?_eq_some hresults).2, mem_append, mem_singleton] at hy
    rcases hy with hy | rfl
    · exact h.owned y hy
    · exact hx
  bumped b hb := by
    obtain ⟨y, hy, hkey⟩ := h.bumped b hb
    rw [(insert?_eq_some hresults).2]
    exact ⟨y, mem_append_left _ hy, hkey⟩
  bumpsOnce := h.bumpsOnce

theorem Inv.bump (h : Inv db) (hx : ∃ l, db.leases.get? x.runId = some l ∧ l.scheduleId = x.scheduleId ∧ l.orgId = x.orgId)
    (hresults : db.results.insert? x = some results) (now maxConsecutiveFailures : ℤ) :
    Inv (bumpFailures now maxConsecutiveFailures x.scheduleId x.runId { db with results := results }) where
  leased := h.leased
  settled := h.settled
  owned := (h.result hx hresults).owned
  bumped b hb := by
    rcases mem_append.1 hb with hb | hb
    · exact (h.result hx hresults).bumped b hb
    · refine ⟨x, ?_, (mem_singleton.1 hb).symm⟩
      show x ∈ results.rows
      rw [(insert?_eq_some hresults).2]
      exact mem_append_right _ mem_cons_self
  bumpsOnce := by
    refine nodup_append.2 ⟨h.bumpsOnce, nodup_singleton _, ?_⟩
    rintro b hb b' hb' rfl
    obtain ⟨y, hy, hkey⟩ := h.bumped b hb
    rw [mem_singleton] at hb'
    have hfree := (insert?_eq_some hresults).1
    rw [get?_eq_none_iff] at hfree
    exact hfree (mem_map.2 ⟨y, hy, hkey.trans hb'⟩)

theorem Effect.inv {now : ℤ} (h : Effect now db db') (hinv : Inv db) : Inv db' := by
  cases h with
  | start l leaseSeconds hget hstatus =>
    exact hinv.touch hget (startRow now leaseSeconds) (fun _ => rfl) (fun _ => ⟨rfl, rfl⟩) (by rw [hstatus]; rfl)
  | renew l leaseSeconds hget hstatus =>
    exact hinv.touch hget (renewRow now leaseSeconds) (fun _ => rfl) (fun _ => ⟨rfl, rfl⟩) rfl
  | finish l scheduleId orgId status costUsdc lastError error hget hactive => exact hinv.settle hget hactive now _ _ _ _ _ _
  | fail db₁ l m stored lastError error error' hget hactive hstored =>
    have hinv₁ : Inv db₁ := by
      rcases storedResult_ok hstored with ⟨-, hdb⟩ | ⟨results, hresults, -, hdb⟩
      · rw [hdb]
        exact hinv
      · rw [hdb]
        exact hinv.bump ⟨l, hget, rfl, rfl⟩ hresults now m
    have hget₁ : db₁.leases.get? l.runId = some l := by rw [(storedResult_only hstored).leases, hget]
    exact hinv₁.settle hget₁ hactive now _ _ _ _ _ _
  | record l result results hget howned hresults => exact hinv.result ⟨l, hget, howned⟩ hresults

theorem Accepts.inv {now : ℤ} {a : Reservation} {keys : Table DispatchKey.slot} {leases : Table DispatchLease.runId}
    (h : Accepts now a db keys leases) (hinv : Inv db) : Inv (a.store keys leases db) := by
  have hfresh : db.leases.get? a.runId = none := (insert?_eq_some h.leases).1
  have hlookup : ∀ k, leases.get? k = if a.runId = k then some (a.leaseRow now) else db.leases.get? k :=
    get?_insert h.leases
  have hkept : Kept db (a.store keys leases db) := by
    intro k l hget
    refine ⟨l, (hlookup k).trans ?_, rfl, rfl⟩
    rw [if_neg, hget]
    rintro rfl
    rw [hfresh] at hget
    cases hget
  refine ⟨?_, ?_, fun x hx => hkept.owned (hinv.owned x hx), hinv.bumped, hinv.bumpsOnce⟩
  · intro k hk
    have hk : k ∈ db.keys.rows ++ [a.keyRow] := (insert?_eq_some h.keys).2 ▸ hk
    rcases mem_append.1 hk with hk | hk
    · exact hkept.leased (hinv.leased k hk)
    · rw [mem_singleton.1 hk]
      show (leases.get? a.runId).isSome
      rw [hlookup, if_pos rfl]
      rfl
  · intro runId
    have hrows : settledRows (a.store keys leases db) runId = settledRows db runId := by
      unfold settledRows Reservation.store insertEventRow
      simp
    have hclosed : closed (a.store keys leases db) runId = closed db runId := by
      show (leases.get? runId).any _ = _
      rw [hlookup]
      by_cases hrun : a.runId = runId
      · rw [if_pos hrun, closed, ← hrun, hfresh]
        rfl
      · rw [if_neg hrun, closed]
    rw [hrows, hclosed, hinv.settled]

theorem saveSchedule_only (row : ScheduledRun) (db : Db) :
    ∃ schedules, saveSchedule row db = { db with schedules := schedules } := by
  unfold saveSchedule
  split <;> exact ⟨_, rfl⟩

theorem saveSchedule_inv (row : ScheduledRun) (h : Inv db) : Inv (saveSchedule row db) := by
  obtain ⟨schedules, hdb⟩ := saveSchedule_only row db
  rw [hdb]
  exact ⟨h.leased, h.settled, h.owned, h.bumped, h.bumpsOnce⟩

theorem effects_inv {now : ℤ} (h : Relation.ReflTransGen (Effect now) db db') (hinv : Inv db) : Inv db' := by
  induction h with
  | refl => exact hinv
  | tail _ hlast ih => exact hlast.inv ih

theorem inv_step (h : Inv s.db) (howned : OwnedOp s o) : Inv (step s o).db := by
  cases o with
  | tick micros => exact h
  | txn waited t =>
    rcases apply_cases (s.now - waited) s.db t howned with ⟨a, rfl⟩ | ⟨row, rfl⟩ | ⟨-, heffects⟩
    · rcases reserve_effect (s.now - waited) a s.db with ⟨r, -, hr⟩ | ⟨keys, leases, haccepts, hr⟩
      · rw [step, apply, hr]
        exact h
      · rw [step, apply, hr]
        exact haccepts.inv h
    · exact saveSchedule_inv row h
    · exact effects_inv heffects h

/-! ## Runs -/

theorem effects_keys {now : ℤ} (h : Relation.ReflTransGen (Effect now) db db') : db'.keys = db.keys := by
  induction h with
  | refl => rfl
  | tail _ hlast ih => exact hlast.keys.trans ih

theorem keys_step (howned : OwnedOp s o) :
    (step s o).db.keys.rows = s.db.keys.rows ++ (acceptedAt s o).map Reservation.keyRow := by
  cases o with
  | tick micros => exact (append_nil _).symm
  | txn waited t =>
    rcases apply_cases (s.now - waited) s.db t howned with ⟨a, rfl⟩ | ⟨row, rfl⟩ | ⟨hother, heffects⟩
    · rcases reserve_effect (s.now - waited) a s.db with ⟨r, hr, hcommit⟩ | ⟨keys, leases, haccepts, hcommit⟩
      · have hnone : acceptedAt s (.txn waited (.reserve a)) = [] := by
          simp [acceptedAt, hcommit]
        rw [hnone, map_nil, append_nil, step, apply, hcommit]
      · simp only [acceptedAt, step, apply, hcommit, map_singleton]
        exact (insert?_eq_some haccepts.keys).2
    · obtain ⟨schedules, hdb⟩ := saveSchedule_only row s.db
      simp [acceptedAt, step, apply, hdb]
    · have hnone : acceptedAt s (.txn waited t) = [] := by
        cases t with
        | reserve a => exact absurd rfl (hother a)
        | _ => rfl
      have hkeys : (step s (.txn waited t)).db.keys = s.db.keys := effects_keys heffects
      rw [hkeys, hnone, map_nil, append_nil]

theorem keys_accepted (ops : List Op) (howned : Runs.Legal step OwnedOp s ops) :
    (run s ops).db.keys.rows = s.db.keys.rows ++ (accepted s ops).map Reservation.keyRow := by
  induction ops generalizing s with
  | nil => exact (append_nil _).symm
  | cons o ops ih =>
    calc (run (step s o) ops).db.keys.rows
        = (step s o).db.keys.rows ++ (accepted (step s o) ops).map Reservation.keyRow := ih (step s o) howned.2
      _ = s.db.keys.rows ++ ((acceptedAt s o).map Reservation.keyRow ++ (accepted (step s o) ops).map Reservation.keyRow) := by
          rw [keys_step s o howned.1, append_assoc]
      _ = s.db.keys.rows ++ (acceptedAt s o ++ accepted (step s o) ops).map Reservation.keyRow := by rw [map_append]

theorem terminal_step (howned : OwnedOp s o) (hget : s.db.leases.get? k = some l) (hterminal : l.status.active = false) :
    (step s o).db.leases.get? k = some l := by
  cases o with
  | tick micros => exact hget
  | txn waited t =>
    rcases apply_cases (s.now - waited) s.db t howned with ⟨a, rfl⟩ | ⟨row, rfl⟩ | ⟨-, heffects⟩
    · rcases reserve_effect (s.now - waited) a s.db with ⟨r, -, hcommit⟩ | ⟨keys, leases, haccepts, hcommit⟩
      · rw [step, apply, hcommit]
        exact hget
      · rw [step, apply, hcommit]
        refine (get?_insert haccepts.leases k).trans ?_
        rw [if_neg, hget]
        rintro rfl
        have hfresh : s.db.leases.get? a.runId = none := (insert?_eq_some haccepts.leases).1
        rw [show (a.leaseRow (s.now - waited)).runId = a.runId from rfl, hfresh] at hget
        cases hget
    · obtain ⟨schedules, hdb⟩ := saveSchedule_only row s.db
      rw [step, apply, hdb]
      exact hget
    · have hkept : ∀ {db' : Db}, Relation.ReflTransGen (Effect (s.now - waited)) s.db db' → db'.leases.get? k = some l := by
        intro db' h
        induction h with
        | refl => exact hget
        | tail _ hlast ih => exact hlast.terminal ih hterminal
      exact hkept heffects

theorem terminal_run (ops : List Op) (howned : Runs.Legal step OwnedOp s ops) (hget : s.db.leases.get? k = some l)
    (hterminal : l.status.active = false) : (run s ops).db.leases.get? k = some l :=
  Runs.legal_inv step OwnedOp (fun s => s.db.leases.get? k = some l) (fun s o h ho => terminal_step s o ho h hterminal) ops
    hget howned

/-- only edits of a trigger change its counter by anything but the increments of the lease functions -/
theorem counted_step (howned : OwnedOp s o) (hedit : ∀ waited row, o ≠ .txn waited (.saveSchedule row)) :
    Counted s.db (step s o).db := by
  cases o with
  | tick micros => exact Counted.refl s.db
  | txn waited t =>
    rcases apply_cases (s.now - waited) s.db t howned with ⟨a, rfl⟩ | ⟨row, rfl⟩ | ⟨-, heffects⟩
    · rcases reserve_effect (s.now - waited) a s.db with ⟨r, -, hcommit⟩ | ⟨keys, leases, haccepts, hcommit⟩
      · rw [step, apply, hcommit]
        exact Counted.refl s.db
      · rw [step, apply, hcommit]
        exact Counted.refl s.db
    · exact absurd rfl (hedit waited row)
    · have hcounted : ∀ {db' : Db}, Relation.ReflTransGen (Effect (s.now - waited)) s.db db' → Counted s.db db' := by
        intro db' h
        induction h with
        | refl => exact Counted.refl s.db
        | tail _ hlast ih => exact ih.trans hlast.counted
      exact hcounted heffects

theorem countP_le_one_of_key {α K : Type} [DecidableEq K] {key : α → K} {l : List α} (hnodup : (l.map key).Nodup) {p : α → Bool}
    {k : K} (h : ∀ x ∈ l, p x → key x = k) : l.countP p ≤ 1 := by
  calc l.countP p
      ≤ l.countP (fun x => key x == k) := countP_mono_left (fun x hx hp => by simpa using h x hx hp)
    _ = (l.map key).count k := by rw [count, countP_map]; rfl
    _ ≤ 1 := nodup_iff_count_le_one.1 hnodup k

theorem Inv.oneResult (h : Inv db) {runId : String} (hget : db.leases.get? runId = some l) :
    db.results.rows.countP (fun x => x.runId = runId) ≤ 1 := by
  refine countP_le_one_of_key db.results.nodup (k := (l.scheduleId, runId)) ?_
  intro x hx hrun
  obtain rfl := of_decide_eq_true hrun
  obtain ⟨l', hget', hschedule, -⟩ := h.owned x hx
  rw [hget] at hget'
  cases hget'
  rw [hschedule]
  rfl

theorem Inv.oneBump (h : Inv db) {runId : String} (hget : db.leases.get? runId = some l) :
    db.bumps.countP (fun b => b.2 = runId) ≤ 1 := by
  have hnodup : (db.bumps.map id).Nodup := by
    rw [map_id]
    exact h.bumpsOnce
  refine countP_le_one_of_key hnodup (k := (l.scheduleId, runId)) ?_
  intro b hb hrun
  obtain rfl := of_decide_eq_true hrun
  obtain ⟨x, hx, rfl⟩ := h.bumped b hb
  obtain ⟨l', hget', hschedule, -⟩ := h.owned x hx
  have hsame : db.leases.get? x.runId = some l := hget
  rw [hsame] at hget'
  cases hget'
  rw [hschedule]
  rfl

/-- **At most once, and one end.** In every run of the machine a slot is accepted at most once, and from then on answers with
the run that was accepted. The lease of that run has one audit row exactly when it is terminal, and then stays as it is. It has at
most one row of results and counts at most one failure, and the counters move with the failures that are counted. -/
theorem dispatch_once (now : ℤ) (ops : List Op) (howned : Runs.Legal step OwnedOp (init now) ops) :
    ((accepted (init now) ops).map Reservation.slot).Nodup ∧
    (∀ a ∈ accepted (init now) ops, (∀ t b, b.slot = a.slot → Tx.commit (reserve t b) (run (init now) ops).db =
        (.ok ⟨a.runId, .duplicate⟩, (run (init now) ops).db)) ∧
      ∃ l, (run (init now) ops).db.leases.get? a.runId = some l ∧
        settledRows (run (init now) ops).db a.runId = (if l.status.active then 0 else 1) ∧
        (l.status.active = false → ∀ more, Runs.Legal step OwnedOp (run (init now) ops) more →
          (run (run (init now) ops) more).db.leases.get? a.runId = some l) ∧
        (run (init now) ops).db.results.rows.countP (fun x => x.runId = a.runId) ≤ 1 ∧
        (run (init now) ops).db.bumps.countP (fun b => b.2 = a.runId) ≤ 1) ∧
    ∀ o, OwnedOp (run (init now) ops) o → (∀ waited row, o ≠ .txn waited (.saveSchedule row)) →
      Counted (run (init now) ops).db (step (run (init now) ops) o).db := by
  have hinv : Inv (run (init now) ops).db :=
    Runs.legal_inv step OwnedOp (fun s => Inv s.db) (fun s o h ho => inv_step s o h ho) ops inv_empty howned
  have hkeys : (run (init now) ops).db.keys.rows = (accepted (init now) ops).map Reservation.keyRow := by
    rw [keys_accepted (init now) ops howned]
    rfl
  refine ⟨?_, ?_, fun o ho hedit => counted_step _ o ho hedit⟩
  · have hslots := (run (init now) ops).db.keys.nodup
    rw [hkeys, map_map] at hslots
    exact hslots
  · intro a ha
    have hstored : a.keyRow ∈ (run (init now) ops).db.keys.rows := by
      rw [hkeys]
      exact mem_map_of_mem ha
    obtain ⟨l, hget⟩ := Option.isSome_iff_exists.1 (hinv.leased a.keyRow hstored)
    refine ⟨?_, l, hget, ?_, fun hterminal more hmore => terminal_run _ more hmore hget hterminal, hinv.oneResult hget,
      hinv.oneBump hget⟩
    · intro t b hslot
      have hkey : (run (init now) ops).db.keys.get? b.slot = some a.keyRow := by
        rw [hslot]
        exact get?_of_mem hstored
      exact reserve_duplicate t hkey
    · rw [hinv.settled, closed]
      have hget : (run (init now) ops).db.leases.get? a.runId = some l := hget
      rw [hget, Option.any_some]
      cases l.status.active <;> rfl

def sampleReservation : Reservation := ⟨"T", "O", "K", "R", "W", 60, 8, 4, "R", 0⟩

/-- a run is accepted, asked for again, started, expires, and is recovered before its owner fails it -/
def sampleRun : List Op :=
  [.txn 0 (.saveSchedule ⟨"T", "O", true, true, none, none, 0⟩), .txn 0 (.reserve sampleReservation),
    .txn 0 (.reserve { sampleReservation with runId := "R2" }), .txn 0 (.start "R" "W" 60), .tick 61000000,
    .txn 0 (.recover 100 5 []), .txn 0 (.fail "T" "O" "R" "W" 5 "Event run failed.")]

theorem dispatch_once_recovered :
    ∃ l, (run (init 0) sampleRun).db.leases.get? "R" = some l ∧
      settledRows (run (init 0) sampleRun).db "R" = if l.status.active then 0 else 1 :=
  have haccepted : sampleReservation ∈ accepted (init 0) sampleRun := by decide
  have ⟨_, l, hget, hsettled, _⟩ := (dispatch_once 0 sampleRun (by decide)).2.1 sampleReservation haccepted
  ⟨l, hget, hsettled⟩

end Teardrop.Scheduling
