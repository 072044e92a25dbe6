/-
Inbound A2A tasks (`a2a_tasks.py`): `create_inbound_task`, `claim_inbound_task`, `renew_inbound_task_leases`,
`mark_inbound_task_billing_method`, `finish_inbound_task` and `recover_orphaned_inbound_tasks`, by any workers in any order.

Every function is one statement and one step (`create_inbound_task` looks a conflicting row up in a second one, and no row is
deleted here; each repetition of the recovery's statement is a step). `NOW()` is the time at which a statement began: it may have
`waited` for a lock. Ids and run ids are UUIDs: a row never takes one that is stored. The state also holds what was answered
and written. The JSON columns and the message text, which no statement reads, are left out.
-/
import Teardrop.Core.Runs
import Teardrop.Core.Table
import Teardrop.Core.Tx

namespace Teardrop.Inbound

open Teardrop.Py List Tx

/-! ## Rows -/

inductive InboundTaskState where
  | submitted
  | running
  | completed
  | failed
  | timeout
  | rejectedPayment
  | rejectedAuthCredit
deriving DecidableEq

/-- `TERMINAL_INBOUND_TASK_STATES` -/
def InboundTaskState.terminal : InboundTaskState → Bool
  | .submitted | .running => false
  | .completed | .failed | .timeout | .rejectedPayment | .rejectedAuthCredit => true

/-- the columns `finish_inbound_task` writes -/
structure Outcome where
  taskState : InboundTaskState
  outputText : String
  error : String
  usageEventId : Option String
  costUsdc : ℤ
  settlementTx : String
  billingMethod : String
  settlementAmountUsdc : ℤ
  durationMs : ℤ

structure A2AInboundTask where
  id : String
  runId : String
  clientTaskId : String
  contextId : String
  callerOrgId : String
  callerUserId : String
  callerIp : String
  authMethod : String
  workerOwnerId : String
  outcome : Outcome
  leaseExpiresAt : Option ℤ
  createdAt : ℤ
  startedAt : Option ℤ
  finishedAt : Option ℤ

abbrev Db := Table A2AInboundTask.id

def recoveryInterruptionError : String := "Task interrupted before its result was persisted."

/-- `text[:n]` -/
def upTo (n : ℕ) (text : String) : String := String.ofList (text.toList.take n)

/-! ## Creation -/

/-- the arguments of `create_inbound_task` -/
structure NewTask where
  taskId : String
  runId : String
  clientTaskId : Option String
  contextId : Option String
  callerOrgId : String
  callerUserId : String
  callerIp : String
  authMethod : String

/-- `value or default` -/
def orElse (value default : String) : String := if value = "" then default else value

def NewTask.row (a : NewTask) (now : ℤ) (worker : String) (leaseSeconds : ℤ) : A2AInboundTask where
  id := a.taskId
  runId := a.runId
  clientTaskId := a.clientTaskId.getD ""
  contextId := a.contextId.getD ""
  callerOrgId := a.callerOrgId
  callerUserId := a.callerUserId
  callerIp := a.callerIp
  authMethod := orElse a.authMethod "anonymous"
  workerOwnerId := worker
  outcome := ⟨.submitted, "", "", none, 0, "", "", 0, 0⟩
  leaseExpiresAt := some (now + leaseSeconds * 1000000)
  createdAt := now
  startedAt := none
  finishedAt := none

/-- `idx_a2a_inbound_tasks_auth_client_id` -/
def sameAuthenticated (row t : A2AInboundTask) : Bool :=
  row.clientTaskId ≠ "" && row.callerOrgId ≠ "" && row.callerUserId ≠ "" &&
    (t.callerOrgId = row.callerOrgId && t.callerUserId = row.callerUserId && t.clientTaskId = row.clientTaskId)

/-- `idx_a2a_inbound_tasks_anonymous_client_id` -/
def sameAnonymous (row t : A2AInboundTask) : Bool :=
  row.clientTaskId ≠ "" && row.callerOrgId = "" && row.callerUserId = "" &&
    (t.callerOrgId = "" && t.callerUserId = "" && t.callerIp = row.callerIp && t.clientTaskId = row.clientTaskId)

/-- a stored row takes a unique key of a new one -/
def conflicts (row t : A2AInboundTask) : Bool :=
  t.id = row.id || t.runId = row.runId || sameAuthenticated row t || sameAnonymous row t

/-- `INSERT ... ON CONFLICT DO NOTHING` -/
def insertTask (row : A2AInboundTask) (db : Db) : Option Db := if db.rows.any (conflicts row) then none else db.insert? row

/-- `ORDER BY created_at, id` -/
def createdBefore (t u : A2AInboundTask) : Prop := t.createdAt < u.createdAt ∨ (t.createdAt = u.createdAt ∧ t.id ≤ u.id)

instance : DecidableRel createdBefore := fun _ _ => inferInstanceAs (Decidable (_ ∨ _))

/-- `ORDER BY created_at, id LIMIT 1` -/
def firstOf (p : A2AInboundTask → Bool) (db : Db) : Option A2AInboundTask :=
  ((db.rows.filter p).insertionSort createdBefore).head?

/-- the row a conflicting creation is answered with -/
def existingTask (a : NewTask) (clientTaskId : String) (db : Db) : Option A2AInboundTask :=
  if a.callerOrgId ≠ "" ∧ a.callerUserId ≠ "" then
    firstOf (fun t => t.callerOrgId = a.callerOrgId && t.callerUserId = a.callerUserId && t.clientTaskId = clientTaskId) db
  else
    firstOf (fun t => t.callerOrgId = "" && t.callerUserId = "" && t.callerIp = a.callerIp && t.clientTaskId = clientTaskId) db

/-- `CHECK (char_length(client_task_id) <= 256)`, `CHECK (char_length(context_id) <= 256)` -/
def NewTask.Admissible (a : NewTask) : Prop := (a.clientTaskId.getD "").length ≤ 256 ∧ (a.contextId.getD "").length ≤ 256

instance (a : NewTask) : Decidable a.Admissible := inferInstanceAs (Decidable (_ ∧ _))

def createInboundTask (now : ℤ) (worker : String) (leaseSeconds : ℤ) (a : NewTask) : Tx Db (A2AInboundTask × Bool) := do
  Tx.require a.Admissible (.pg .checkViolation)
  let db ← Tx.read id
  match insertTask (a.row now worker leaseSeconds) db with
  | some db' => do
    Tx.write (fun _ => db')
    return (a.row now worker leaseSeconds, true)
  | none =>
    if a.clientTaskId.getD "" = "" then Tx.raise (.runtimeError "Inbound A2A task insert was not applied")
    else
      match existingTask a (a.clientTaskId.getD "") db with
      | some t => return (t, false)
      | none => Tx.raise (.runtimeError "Inbound A2A task insert conflict could not be resolved")

/-! ## Updates -/

/-- `UPDATE a2a_inbound_tasks ... WHERE ...` -/
def onTasks (p : A2AInboundTask → Bool) (f : A2AInboundTask → A2AInboundTask) (hf : ∀ t, (f t).id = t.id) (db : Db) : Db :=
  db.update (fun t => if p t then f t else t) (fun t => by split_ifs <;> simp [hf])

def claimable (now : ℤ) (worker taskId : String) (t : A2AInboundTask) : Bool :=
  t.id = taskId && t.outcome.taskState = .submitted && t.workerOwnerId = worker && t.leaseExpiresAt.any (fun e => now < e)

def claimRow (now leaseSeconds : ℤ) (t : A2AInboundTask) : A2AInboundTask :=
  { t with
    outcome := { t.outcome with taskState := .running }
    startedAt := t.startedAt.or (some now)
    leaseExpiresAt := some (now + leaseSeconds * 1000000) }

def claimInboundTask (now : ℤ) (worker : String) (leaseSeconds : ℤ) (taskId : String) (db : Db) : Option A2AInboundTask × Db :=
  (((db.get? taskId).filter (claimable now worker taskId)).map (claimRow now leaseSeconds),
    onTasks (claimable now worker taskId) (claimRow now leaseSeconds) (fun _ => rfl) db)

def renewInboundTaskLeases (now : ℤ) (worker : String) (leaseSeconds : ℤ) (db : Db) : ℕ × Db :=
  let p (t : A2AInboundTask) : Bool := t.workerOwnerId = worker && !t.outcome.taskState.terminal
  (db.rows.countP p, onTasks p (fun t => { t with leaseExpiresAt := some (now + leaseSeconds * 1000000) }) (fun _ => rfl) db)

def markInboundTaskBillingMethod (taskId billingMethod : String) : Tx Db Unit :=
  if billingMethod = "credit" ∨ billingMethod = "x402" then
    Tx.write (onTasks (fun t => t.id = taskId && t.outcome.taskState = .running)
      (fun t => { t with outcome := { t.outcome with billingMethod := billingMethod } }) (fun _ => rfl))
  else Tx.raise (.valueError ("Unsupported billing method: " ++ billingMethod))

/-- the values `finish_inbound_task` binds -/
def Outcome.bound (o : Outcome) : Outcome :=
  { o with
    outputText := upTo 65536 o.outputText
    error := upTo 1024 o.error
    costUsdc := max 0 o.costUsdc
    settlementAmountUsdc := max 0 o.settlementAmountUsdc
    durationMs := max 0 o.durationMs }

/-- the row reads as failed by recovery -/
def A2AInboundTask.interrupted (t : A2AInboundTask) : Bool :=
  t.outcome.taskState = .failed && t.outcome.error = recoveryInterruptionError

/-- an outcome that carries output or an error -/
def Outcome.carries (o : Outcome) : Bool := o.outputText ≠ "" || o.error ≠ ""

/-- the rows `finish_inbound_task` updates -/
def finishable (worker taskId : String) (o : Outcome) (t : A2AInboundTask) : Bool :=
  t.id = taskId && t.workerOwnerId = worker && (!t.outcome.taskState.terminal || (t.interrupted && o.carries))

def finishRow (now : ℤ) (o : Outcome) (t : A2AInboundTask) : A2AInboundTask :=
  { t with
    outcome :=
      { o with
        error := if t.interrupted = true ∧ o.taskState = .completed ∧ o.error = "" then recoveryInterruptionError else o.error }
    finishedAt := t.finishedAt.or (some now)
    leaseExpiresAt := some now }

def finishInboundTask (now : ℤ) (worker taskId : String) (o : Outcome) : Tx Db (Option A2AInboundTask) := do
  Tx.require (o.taskState.terminal = true) (.valueError "Task state is not terminal")
  let db ← Tx.read id
  Tx.write (onTasks (finishable worker taskId o.bound) (finishRow now o.bound) (fun _ => rfl))
  return ((db.get? taskId).filter (finishable worker taskId o.bound)).map (finishRow now o.bound)

def recoverable (now : ℤ) (worker : String) (busy : List String) (t : A2AInboundTask) : Bool :=
  !t.outcome.taskState.terminal && t.leaseExpiresAt.any (fun e => e ≤ now) && t.workerOwnerId ≠ worker && t.id ∉ busy

/-- the candidates of one statement: `busy` rows are locked by somebody else -/
def orphaned (now : ℤ) (worker : String) (batchSize : ℕ) (busy : List String) (db : Db) : List A2AInboundTask :=
  ((db.rows.filter (recoverable now worker busy)).insertionSort createdBefore).take batchSize

/-- the outcome recovery leaves -/
def recoveredOutcome (o : Outcome) : Outcome :=
  { o with taskState := .failed, outputText := "", error := recoveryInterruptionError }

def recoverRow (now : ℤ) (t : A2AInboundTask) : A2AInboundTask :=
  { t with
    outcome := recoveredOutcome t.outcome
    finishedAt := t.finishedAt.or (some now)
    leaseExpiresAt := some now }

/-- one statement of `recover_orphaned_inbound_tasks` -/
def recoverBatch (now : ℤ) (worker : String) (batchSize : ℕ) (busy : List String) (db : Db) : List A2AInboundTask × Db :=
  let ids := (orphaned now worker batchSize busy db).map A2AInboundTask.id
  (orphaned now worker batchSize busy db, onTasks (fun t => t.id ∈ ids) (recoverRow now) (fun _ => rfl) db)

/-! ## Machine -/

/-- who asks for a task: an org and a user, or an address -/
inductive Caller where
  | identified (orgId userId : String)
  | anonymous (ip : String)
deriving DecidableEq

def callerOf (orgId userId ip : String) : Caller := if orgId = "" ∧ userId = "" then .anonymous ip else .identified orgId userId

def A2AInboundTask.caller (t : A2AInboundTask) : Caller := callerOf t.callerOrgId t.callerUserId t.callerIp

def NewTask.caller (a : NewTask) : Caller := callerOf a.callerOrgId a.callerUserId a.callerIp

/-- a creation that was answered with a task -/
structure Creation where
  caller : Caller
  clientTaskId : String
  taskId : String

/-- an outcome that was written -/
structure Write where
  taskId : String
  worker : String
  outcome : Outcome

structure St where
  now : ℤ
  db : Db
  created : List Creation
  claims : List String
  writes : List Write

def init (now : ℤ) : St := ⟨now, Table.empty, [], [], []⟩

inductive Op where
  | tick (micros : ℕ)
  | create (waited : ℕ) (worker : String) (leaseSeconds : ℤ) (a : NewTask)
  | claim (waited : ℕ) (worker : String) (leaseSeconds : ℤ) (taskId : String)
  | renew (waited : ℕ) (worker : String) (leaseSeconds : ℤ)
  | markBilling (taskId billingMethod : String)
  | finish (waited : ℕ) (worker taskId : String) (o : Outcome)
  | recover (waited : ℕ) (worker : String) (batchSize : ℕ) (busy : List String)

/-- no stored row has one of the new UUIDs -/
def Fresh (db : Db) (a : NewTask) : Prop := ∀ t ∈ db.rows, t.id ≠ a.taskId ∧ t.runId ≠ a.runId

instance (db : Db) (a : NewTask) : Decidable (Fresh db a) := inferInstanceAs (Decidable (∀ t ∈ db.rows, _))

/-- what a creation was answered with -/
def creations (a : NewTask) : Except Exc (A2AInboundTask × Bool) → List Creation
  | .ok (t, _) => [⟨a.caller, a.clientTaskId.getD "", t.id⟩]
  | .error _ => []

/-- the outcome a worker wrote, if a row was updated -/
def written (worker taskId : String) (o : Outcome) : Except Exc (Option A2AInboundTask) → List Write
  | .ok (some _) => [⟨taskId, worker, o⟩]
  | _ => []

def step (s : St) : Op → St
  | .tick micros => { s with now := s.now + micros }
  | .create waited worker leaseSeconds a =>
    if Fresh s.db a then
      let r := Tx.commit (createInboundTask (s.now - waited) worker leaseSeconds a) s.db
      { s with db := r.2, created := s.created ++ creations a r.1 }
    else s
  | .claim waited worker leaseSeconds taskId =>
    let r := claimInboundTask (s.now - waited) worker leaseSeconds taskId s.db
    { s with db := r.2, claims := s.claims ++ (r.1.map A2AInboundTask.id).toList }
  | .renew waited worker leaseSeconds => { s with db := (renewInboundTaskLeases (s.now - waited) worker leaseSeconds s.db).2 }
  | .markBilling taskId billingMethod => { s with db := (Tx.commit (markInboundTaskBillingMethod taskId billingMethod) s.db).2 }
  | .finish waited worker taskId o =>
    let r := Tx.commit (finishInboundTask (s.now - waited) worker taskId o) s.db
    { s with db := r.2, writes := s.writes ++ written worker taskId o.bound r.1 }
  | .recover waited worker batchSize busy =>
    let r := recoverBatch (s.now - waited) worker batchSize busy s.db
    { s with db := r.2, writes := s.writes ++ r.1.map (fun t => ⟨t.id, worker, recoveredOutcome t.outcome⟩) }

def run (s : St) (ops : List Op) : St := Runs.run step s ops

/-! ## What is claimed -/

/-- the outcomes written for a task, in their order -/
def writesOf (s : St) (taskId : String) : List Write := s.writes.filter (fun w => w.taskId = taskId)

/-- a recovery: by another worker, with the failure of `recover_orphaned_inbound_tasks` -/
def Recovery (owner : String) (w : Write) : Prop :=
  w.worker ≠ owner ∧ w.outcome.taskState = .failed ∧ w.outcome.outputText = "" ∧ w.outcome.error = recoveryInterruptionError

instance (owner : String) (w : Write) : Decidable (Recovery owner w) := inferInstanceAs (Decidable (_ ∧ _))

/-- the only write so far is a recovery -/
def OnlyRecovered (owner : String) : List Write → Prop
  | [w] => Recovery owner w
  | _ => False

instance (owner : String) : ∀ ws, Decidable (OnlyRecovered owner ws)
  | [] => .isFalse id
  | [w] => inferInstanceAs (Decidable (Recovery owner w))
  | _ :: _ :: _ => .isFalse id

/-- no outcome; one, of the owner or of a recovery; or a recovery that the owner has replaced by an outcome that says something -/
def Allowed (owner : String) : List Write → Prop
  | [] => True
  | [w] => w.worker = owner ∨ Recovery owner w
  | [w, w'] => Recovery owner w ∧ w'.worker = owner ∧ w'.outcome.carries = true
  | _ => False

instance (owner : String) : ∀ ws, Decidable (Allowed owner ws)
  | [] => .isTrue trivial
  | [_] => inferInstanceAs (Decidable (_ ∨ _))
  | [_, _] => inferInstanceAs (Decidable (_ ∧ _ ∧ _))
  | _ :: _ :: _ :: _ => .isFalse id

/-- the row shows the last outcome that was written; a completed one without an error keeps the text of the recovery it replaced -/
def Shows (t : A2AInboundTask) (ws : List Write) : Prop :=
  match ws.getLast? with
  | none => t.outcome.taskState.terminal = false
  | some w => w.outcome.taskState.terminal = true ∧ (t.outcome = w.outcome ∨
      w.outcome.taskState = .completed ∧ w.outcome.error = "" ∧ t.outcome = { w.outcome with error := recoveryInterruptionError })

/-- the state machine of inbound tasks -/
structure Follows (s : St) : Prop where
  claimedOnce : s.claims.Nodup
  sameTask : ∀ c ∈ s.created, ∀ c' ∈ s.created, c.caller = c'.caller → c.clientTaskId = c'.clientTaskId →
    c.clientTaskId ≠ "" → c.taskId = c'.taskId
  allowed : ∀ t ∈ s.db.rows, Allowed t.workerOwnerId (writesOf s t.id)
  shows : ∀ t ∈ s.db.rows, Shows t (writesOf s t.id)

/-- the caller has named this task before -/
def Repeats (db : Db) (a : NewTask) : Prop :=
  a.clientTaskId.getD "" ≠ "" ∧ ∃ t ∈ db.rows, t.caller = a.caller ∧ t.clientTaskId = a.clientTaskId.getD ""

instance (db : Db) (a : NewTask) : Decidable (Repeats db a) := inferInstanceAs (Decidable (_ ∧ ∃ t ∈ db.rows, _))

/-- an org without a user, or a user without an org -/
def NewTask.Unidentified (a : NewTask) : Prop :=
  (a.callerOrgId = "" ∧ a.callerUserId ≠ "") ∨ (a.callerOrgId ≠ "" ∧ a.callerUserId = "")

instance (a : NewTask) : Decidable a.Unidentified := inferInstanceAs (Decidable (_ ∨ _))

/-- a caller that repeats a client task id has an org and a user, or neither; a terminal outcome that is replaced is a recovery's -/
def Fits (s : St) : Op → Prop
  | .create _ _ _ a => a.Unidentified → Fresh s.db a → a.Admissible → ¬ Repeats s.db a
  | .finish _ worker taskId o => ∀ t ∈ s.db.get? taskId, o.taskState.terminal = true → finishable worker taskId o.bound t = true →
      t.outcome.taskState.terminal = true → OnlyRecovered t.workerOwnerId (writesOf s taskId)
  | _ => True

/-! ## Rows and writes -/

variable {t t' : A2AInboundTask} {db : Db} {now : ℤ} {worker : String} {a : NewTask}

theorem Shows.congr (h : t'.outcome = t.outcome) {ws : List Write} : Shows t' ws ↔ Shows t ws := by
  unfold Shows
  rw [h]

theorem Shows.nil_of_active {ws : List Write} (h : Shows t ws) (hactive : t.outcome.taskState.terminal = false) :
    ws = [] := by
  unfold Shows at h
  split at h
  · rename_i hlast
    exact getLast?_eq_none_iff.1 hlast
  · obtain ⟨hterminal, heq | ⟨-, -, heq⟩⟩ := h
    · rw [heq, hterminal] at hactive
      cases hactive
    · rw [heq, hterminal] at hactive
      cases hactive

theorem Shows.of_active {ws : List Write} (h : Shows t ws) (hactive : t.outcome.taskState.terminal = false)
    (hactive' : t'.outcome.taskState.terminal = false) : Shows t' ws := by
  rw [h.nil_of_active hactive]
  exact hactive'

theorem Shows.snoc {ws : List Write} {w : Write} (hterminal : w.outcome.taskState.terminal = true)
    (h : t.outcome = w.outcome ∨ w.outcome.taskState = .completed ∧ w.outcome.error = "" ∧ t.outcome = { w.outcome with error := recoveryInterruptionError }) :
    Shows t (ws ++ [w]) := by
  unfold Shows
  rw [getLast?_concat]
  exact ⟨hterminal, h⟩

/-- what no update changes -/
structure SameRow (t t' : A2AInboundTask) : Prop where
  id : t'.id = t.id
  runId : t'.runId = t.runId
  clientTaskId : t'.clientTaskId = t.clientTaskId
  caller : t'.caller = t.caller
  workerOwnerId : t'.workerOwnerId = t.workerOwnerId

structure Inv (s : St) : Prop where
  claimed : ∀ k ∈ s.claims, ∃ t ∈ s.db.rows, t.id = k ∧ t.outcome.taskState ≠ .submitted
  claimedOnce : s.claims.Nodup
  shows : ∀ t ∈ s.db.rows, Shows t (writesOf s t.id)
  /-- an answer is a row of the caller -/
  answered : ∀ c ∈ s.created, ∃ t ∈ s.db.rows, t.id = c.taskId ∧ t.caller = c.caller ∧ t.clientTaskId = c.clientTaskId
  /-- a row was an answer -/
  recorded : ∀ t ∈ s.db.rows, ∃ c ∈ s.created, c.taskId = t.id ∧ c.caller = t.caller ∧ c.clientTaskId = t.clientTaskId
  writesFor : ∀ w ∈ s.writes, ∃ t ∈ s.db.rows, t.id = w.taskId

theorem inv_init (now : ℤ) : Inv (init now) where
  claimed _ hk := absurd hk not_mem_nil
  claimedOnce := nodup_nil
  shows _ ht := absurd ht not_mem_nil
  answered _ hc := absurd hc not_mem_nil
  recorded _ ht := absurd ht not_mem_nil
  writesFor _ hw := absurd hw not_mem_nil

theorem row_unique (ht : t ∈ db.rows) (ht' : t' ∈ db.rows) (h : t.id = t'.id) : t = t' :=
  inj_on_of_nodup_map db.nodup ht ht' h

/-- the state after an update of the rows, with the claims and the writes it makes -/
structure Updated (s s' : St) (g : A2AInboundTask → A2AInboundTask) (claims : List String) (ws : List Write) : Prop where
  rows : s'.db.rows = s.db.rows.map g
  created : s'.created = s.created
  claims : s'.claims = s.claims ++ claims
  writes : s'.writes = s.writes ++ ws
  same : ∀ t, SameRow t (g t)

section Update

variable {s s' : St} {g : A2AInboundTask → A2AInboundTask} {claims : List String} {ws : List Write}

theorem Updated.writesOf (h : Updated s s' g claims ws) (k : String) :
    writesOf s' k = Inbound.writesOf s k ++ ws.filter (fun w => w.taskId = k) := by
  unfold Inbound.writesOf
  rw [h.writes, filter_append]

theorem Updated.mem (h : Updated s s' g claims ws) (ht : t ∈ s.db.rows) : g t ∈ s'.db.rows := by
  rw [h.rows]
  exact mem_map_of_mem ht

theorem Updated.inv (h : Updated s s' g claims ws) (hinv : Inv s)
    (hsubmitted : ∀ t ∈ s.db.rows, t.outcome.taskState ≠ .submitted → (g t).outcome.taskState ≠ .submitted)
    (hshows : ∀ t ∈ s.db.rows, Shows (g t) (Inbound.writesOf s t.id ++ ws.filter (fun w => w.taskId = t.id)))
    (hclaims : ∀ k ∈ claims, k ∉ s.claims ∧ ∃ t ∈ s.db.rows, t.id = k ∧ (g t).outcome.taskState ≠ .submitted)
    (hnodup : claims.Nodup) (hws : ∀ w ∈ ws, ∃ t ∈ s.db.rows, t.id = w.taskId) : Inv s' where
  claimed k hk := by
    rw [h.claims, mem_append] at hk
    rcases hk with hk | hk
    · obtain ⟨t, ht, hid, hstate⟩ := hinv.claimed k hk
      exact ⟨g t, h.mem ht, (h.same t).id.trans hid, hsubmitted t ht hstate⟩
    · obtain ⟨-, t, ht, hid, hstate⟩ := hclaims k hk
      exact ⟨g t, h.mem ht, (h.same t).id.trans hid, hstate⟩
  claimedOnce := by
    rw [h.claims]
    refine nodup_append.2 ⟨hinv.claimedOnce, hnodup, ?_⟩
    rintro k hk k' hk' rfl
    exact (hclaims k hk').1 hk
  shows t' ht' := by
    rw [h.rows] at ht'
    obtain ⟨t, ht, rfl⟩ := mem_map.1 ht'
    rw [(h.same t).id, h.writesOf]
    exact hshows t ht
  answered c hc := by
    rw [h.created] at hc
    obtain ⟨t, ht, hid, hcaller, hclient⟩ := hinv.answered c hc
    exact ⟨g t, h.mem ht, (h.same t).id.trans hid, (h.same t).caller.trans hcaller, (h.same t).clientTaskId.trans hclient⟩
  recorded t' ht' := by
    rw [h.rows] at ht'
    obtain ⟨t, ht, rfl⟩ := mem_map.1 ht'
    obtain ⟨c, hc, hid, hcaller, hclient⟩ := hinv.recorded t ht
    rw [h.created, (h.same t).id, (h.same t).caller, (h.same t).clientTaskId]
    exact ⟨c, hc, hid, hcaller, hclient⟩
  writesFor w hw := by
    rw [h.writes, mem_append] at hw
    rcases hw with hw | hw
    · obtain ⟨t, ht, hid⟩ := hinv.writesFor w hw
      exact ⟨g t, h.mem ht, (h.same t).id.trans hid⟩
    · obtain ⟨t, ht, hid⟩ := hws w hw
      exact ⟨g t, h.mem ht, (h.same t).id.trans hid⟩

/-- an update leaves the state machine intact exactly when every task may have the writes it makes -/
theorem Updated.follows (h : Updated s s' g claims ws) (hinv' : Inv s') (hfollows : Follows s) :
    Follows s' ↔ ∀ t ∈ s.db.rows, Allowed t.workerOwnerId (Inbound.writesOf s t.id ++ ws.filter (fun w => w.taskId = t.id)) := by
  constructor
  · intro hfollows' t ht
    have hallowed := hfollows'.allowed (g t) (h.mem ht)
    rw [(h.same t).workerOwnerId, (h.same t).id, h.writesOf] at hallowed
    exact hallowed
  · intro hallowed
    refine ⟨hinv'.claimedOnce, ?_, ?_, hinv'.shows⟩
    · rw [h.created]
      exact hfollows.sameTask
    · intro t' ht'
      rw [h.rows] at ht'
      obtain ⟨t, ht, rfl⟩ := mem_map.1 ht'
      rw [(h.same t).workerOwnerId, (h.same t).id, h.writesOf]
      exact hallowed t ht

theorem Updated.follows_of_nil (h : Updated s s' g claims []) (hinv' : Inv s') (hfollows : Follows s) : Follows s' := by
  refine (h.follows hinv' hfollows).2 ?_
  intro t ht
  rw [filter_nil, append_nil]
  exact hfollows.allowed t ht

end Update

/-! ## Steps -/

theorem claim_updated (s : St) (waited : ℕ) (worker : String) (leaseSeconds : ℤ) (taskId : String) :
    Updated s (step s (.claim waited worker leaseSeconds taskId))
      (fun t => if claimable (s.now - waited) worker taskId t then claimRow (s.now - waited) leaseSeconds t else t)
      (((((s.db.get? taskId).filter (claimable (s.now - waited) worker taskId)).map
        (claimRow (s.now - waited) leaseSeconds)).map A2AInboundTask.id).toList) [] where
  rows := rfl
  created := rfl
  claims := rfl
  writes := (append_nil _).symm
  same t := by split_ifs <;> exact ⟨rfl, rfl, rfl, rfl, rfl⟩

theorem claimable_iff {taskId : String} : claimable now worker taskId t = true ↔
      t.id = taskId ∧ t.outcome.taskState = .submitted ∧ t.workerOwnerId = worker ∧ t.leaseExpiresAt.any (fun e => now < e) = true := by
  simp [claimable, and_assoc]

theorem claim_inv {s : St} (h : Inv s) (waited : ℕ) (worker : String) (leaseSeconds : ℤ) (taskId : String) :
    Inv (step s (.claim waited worker leaseSeconds taskId)) := by
  refine (claim_updated s waited worker leaseSeconds taskId).inv h ?_ ?_ ?_ ?_ (fun w hw => absurd hw not_mem_nil)
  · intro t _ hstate
    split_ifs
    · exact (by simp [claimRow])
    · exact hstate
  · intro t ht
    rw [filter_nil, append_nil]
    split_ifs with hclaimable
    · have hactive : t.outcome.taskState.terminal = false := by rw [(claimable_iff.1 hclaimable).2.1]; rfl
      exact (h.shows t ht).of_active hactive rfl
    · exact h.shows t ht
  · intro k hk
    obtain ⟨t', ht', rfl⟩ := Option.map_eq_some_iff.1 (Option.mem_toList.1 hk)
    obtain ⟨t, ht, rfl⟩ := Option.map_eq_some_iff.1 ht'
    obtain ⟨hget, hclaimable⟩ := Option.filter_eq_some_iff.1 ht
    have hrow := Table.mem_of_get? hget
    refine ⟨?_, t, hrow, rfl, ?_⟩
    · intro hold
      obtain ⟨u, hu, hid, hstate⟩ := h.claimed _ hold
      rw [row_unique hu hrow hid] at hstate
      exact hstate (claimable_iff.1 hclaimable).2.1
    · rw [if_pos hclaimable]
      simp [claimRow]
  · cases ((s.db.get? taskId).filter (claimable (s.now - waited) worker taskId)).map (claimRow (s.now - waited) leaseSeconds) with
    | none => exact nodup_nil
    | some t => exact nodup_singleton _

theorem quiet_inv {s s' : St} (hinv : Inv s) {g : A2AInboundTask → A2AInboundTask} (h : Updated s s' g [] [])
    (hquiet : ∀ t ∈ s.db.rows, (g t).outcome = t.outcome ∨
      t.outcome.taskState = .running ∧ (g t).outcome.taskState = .running) : Inv s' := by
  refine h.inv hinv ?_ ?_ (fun k hk => absurd hk not_mem_nil) nodup_nil (fun w hw => absurd hw not_mem_nil)
  · intro t ht hstate
    rcases hquiet t ht with heq | ⟨-, hrunning⟩
    · rw [heq]
      exact hstate
    · rw [hrunning]
      simp
  · intro t ht
    rw [filter_nil, append_nil]
    rcases hquiet t ht with heq | ⟨hrunning, hrunning'⟩
    · exact (Shows.congr heq).2 (hinv.shows t ht)
    · exact (hinv.shows t ht).of_active (by rw [hrunning]; rfl) (by rw [hrunning']; rfl)

theorem renew_updated (s : St) (waited : ℕ) (worker : String) (leaseSeconds : ℤ) :
    Updated s (step s (.renew waited worker leaseSeconds))
      (fun t => if (t.workerOwnerId = worker && !t.outcome.taskState.terminal) = true then
        { t with leaseExpiresAt := some (s.now - waited + leaseSeconds * 1000000) } else t) [] [] where
  rows := rfl
  created := rfl
  claims := (append_nil _).symm
  writes := (append_nil _).symm
  same t := by split_ifs <;> exact ⟨rfl, rfl, rfl, rfl, rfl⟩

theorem markBilling_updated (s : St) (taskId billingMethod : String) :
    ∃ g, Updated s (step s (.markBilling taskId billingMethod)) g [] [] ∧
      ∀ t, (g t).outcome = t.outcome ∨ t.outcome.taskState = .running ∧ (g t).outcome.taskState = .running := by
  rw [step, markInboundTaskBillingMethod]
  split_ifs with hsupported
  · refine ⟨_, ⟨rfl, rfl, (append_nil _).symm, (append_nil _).symm, ?_⟩, ?_⟩
    · intro t
      split_ifs <;> exact ⟨rfl, rfl, rfl, rfl, rfl⟩
    · intro t
      split_ifs with hmatch
      · simp only [Bool.and_eq_true, decide_eq_true_eq] at hmatch
        exact .inr ⟨hmatch.2, hmatch.2⟩
      · exact .inl rfl
  · refine ⟨fun t => t, ⟨(map_id _).symm, rfl, (append_nil _).symm, (append_nil _).symm, ?_⟩, fun t => .inl rfl⟩
    exact fun t => ⟨rfl, rfl, rfl, rfl, rfl⟩

theorem finishable_iff {taskId : String} {o : Outcome} :
    finishable worker taskId o t = true ↔ t.id = taskId ∧ t.workerOwnerId = worker ∧
      (t.outcome.taskState.terminal = false ∨ t.interrupted = true ∧ o.carries = true) := by
  simp [finishable, and_assoc]

/-- `finish_inbound_task` updates one row, or nothing -/
theorem finish_updated (s : St) (waited : ℕ) (worker taskId : String) (o : Outcome) :
    (∃ g, Updated s (step s (.finish waited worker taskId o)) g [] [] ∧ (∀ t ∈ s.db.rows, g t = t) ∧
      ∀ t ∈ s.db.rows, o.taskState.terminal = true → finishable worker taskId o.bound t = false) ∨
    o.taskState.terminal = true ∧ ∃ t ∈ s.db.rows, finishable worker taskId o.bound t = true ∧
      Updated s (step s (.finish waited worker taskId o))
        (fun t => if finishable worker taskId o.bound t then finishRow (s.now - waited) o.bound t else t) []
        [⟨taskId, worker, o.bound⟩] := by
  by_cases hterminal : o.taskState.terminal = true
  · have hcommit : commit (finishInboundTask (s.now - waited) worker taskId o) s.db =
        (.ok (((s.db.get? taskId).filter (finishable worker taskId o.bound)).map (finishRow (s.now - waited) o.bound)),
          onTasks (finishable worker taskId o.bound) (finishRow (s.now - waited) o.bound) (fun _ => rfl) s.db) := by
      simp only [commit, finishInboundTask, bind_run, require_run, if_pos hterminal, read_run, write, pure_run, id_eq]
    cases hrow : (s.db.get? taskId).filter (finishable worker taskId o.bound) with
    | some t =>
      obtain ⟨hget, hfinishable⟩ := Option.filter_eq_some_iff.1 hrow
      refine .inr ⟨hterminal, t, Table.mem_of_get? hget, hfinishable, ?_⟩
      rw [step, hcommit, hrow]
      refine ⟨rfl, rfl, (append_nil _).symm, rfl, fun t => ?_⟩
      split_ifs <;> exact ⟨rfl, rfl, rfl, rfl, rfl⟩
    | none =>
      have hnone : ∀ t ∈ s.db.rows, finishable worker taskId o.bound t = false := by
        intro t ht
        rw [Bool.eq_false_iff]
        intro hfinishable
        have hget := Table.get?_of_mem ht
        rw [(finishable_iff.1 hfinishable).1] at hget
        rw [hget, Option.filter_some, if_pos hfinishable] at hrow
        cases hrow
      refine .inl ⟨fun t => if finishable worker taskId o.bound t then finishRow (s.now - waited) o.bound t else t, ?_, ?_,
        fun t ht _ => hnone t ht⟩
      · rw [step, hcommit, hrow]
        refine ⟨rfl, rfl, (append_nil _).symm, rfl, fun t => ?_⟩
        split_ifs <;> exact ⟨rfl, rfl, rfl, rfl, rfl⟩
      · intro t ht
        exact if_neg (by rw [hnone t ht]; exact Bool.false_ne_true)
  · have hcommit : ∃ e, commit (finishInboundTask (s.now - waited) worker taskId o) s.db = (.error e, s.db) := by
      simp only [commit, finishInboundTask, bind_run, require_run, if_neg hterminal]
      exact ⟨_, rfl⟩
    obtain ⟨e, hcommit⟩ := hcommit
    refine .inl ⟨fun t => t, ?_, fun _ _ => rfl, fun t _ h => absurd h hterminal⟩
    rw [step, hcommit]
    exact ⟨(map_id _).symm, rfl, (append_nil _).symm, rfl, fun t => ⟨rfl, rfl, rfl, rfl, rfl⟩⟩

theorem filter_one {taskId : String} {o : Outcome} (k : String) :
    [(⟨taskId, worker, o⟩ : Write)].filter (fun w => w.taskId = k) = if taskId = k then [⟨taskId, worker, o⟩] else [] := by
  rw [filter_singleton]
  by_cases hk : taskId = k
  · rw [decide_eq_true hk, cond_true, if_pos hk]
  · rw [decide_eq_false hk, cond_false, if_neg hk]

theorem finish_inv {s : St} (h : Inv s) (waited : ℕ) (worker taskId : String) (o : Outcome) :
    Inv (step s (.finish waited worker taskId o)) := by
  rcases finish_updated s waited worker taskId o with ⟨g, hupdated, hsame, -⟩ | ⟨hterminal, u, hu, hfinishable, hupdated⟩
  · exact quiet_inv h hupdated (fun t ht => .inl (by rw [hsame t ht]))
  · refine hupdated.inv h ?_ ?_ (fun k hk => absurd hk not_mem_nil) nodup_nil ?_
    · intro t _ hstate
      split_ifs
      · show o.taskState ≠ .submitted
        intro hsubmitted
        rw [hsubmitted] at hterminal
        cases hterminal
      · exact hstate
    · intro t ht
      rw [filter_one]
      by_cases hmatch : finishable worker taskId o.bound t = true
      · rw [if_pos hmatch, if_pos (finishable_iff.1 hmatch).1.symm]
        refine .snoc hterminal ?_
        by_cases hkeeps : t.interrupted = true ∧ o.bound.taskState = .completed ∧ o.bound.error = ""
        · refine .inr ⟨hkeeps.2.1, hkeeps.2.2, ?_⟩
          rw [finishRow, if_pos hkeeps]
        · left
          rw [finishRow, if_neg hkeeps]
      · have hother : taskId ≠ t.id := by
          rintro rfl
          rw [row_unique hu ht (finishable_iff.1 hfinishable).1] at hfinishable
          exact hmatch hfinishable
        rw [if_neg hmatch, if_neg hother, append_nil]
        exact h.shows t ht
    · intro w hw
      rw [mem_singleton.1 hw]
      exact ⟨u, hu, (finishable_iff.1 hfinishable).1⟩

theorem allowed_snoc_own {owner : String} {ws : List Write} {w : Write} (hown : w.worker = owner) (hcarries : w.outcome.carries = true)
    (hne : ws ≠ []) : Allowed owner (ws ++ [w]) ↔ OnlyRecovered owner ws := by
  match ws with
  | [] => exact absurd rfl hne
  | [v] => exact ⟨And.left, fun h => ⟨h, hown, hcarries⟩⟩
  | [v, v'] => exact ⟨False.elim, False.elim⟩
  | v :: v' :: v'' :: rest => exact ⟨False.elim, False.elim⟩

/-- a finish keeps the state machine exactly when a terminal outcome it replaces is a recovery's -/
theorem finish_follows {s : St} (h : Inv s) (hfollows : Follows s) (waited : ℕ) (worker taskId : String) (o : Outcome) :
    Follows (step s (.finish waited worker taskId o)) ↔ Fits s (.finish waited worker taskId o) := by
  have hinv' := finish_inv h waited worker taskId o
  rcases finish_updated s waited worker taskId o with ⟨g, hupdated, -, hnone⟩ | ⟨hterminal, u, hu, hfinishable, hupdated⟩
  · refine iff_of_true (hupdated.follows_of_nil hinv' hfollows) ?_
    intro t ht ho hmatch
    rw [hnone t (Table.mem_of_get? ht) ho] at hmatch
    cases hmatch
  · obtain ⟨rfl, rfl, hcan⟩ := finishable_iff.1 hfinishable
    refine (hupdated.follows hinv' hfollows).trans ?_
    have hget := Table.get?_of_mem hu
    constructor
    · intro hallowed t ht ho hmatch hstate
      rw [hget] at ht
      cases ht
      have hu' := hallowed u hu
      rw [filter_one, if_pos rfl] at hu'
      have hcarries : o.bound.carries = true := by
        rcases hcan with hactive | ⟨-, hcarries⟩
        · rw [hstate] at hactive
          cases hactive
        · exact hcarries
      refine (allowed_snoc_own rfl hcarries ?_).1 hu'
      intro hnil
      have hshows := h.shows u hu
      rw [hnil] at hshows
      rw [show u.outcome.taskState.terminal = false from hshows] at hstate
      cases hstate
    · intro hfits t ht
      rw [filter_one]
      split_ifs with hid
      · obtain rfl := row_unique hu ht hid
        cases hstate : u.outcome.taskState.terminal with
        | false =>
          rw [(h.shows u hu).nil_of_active hstate]
          exact .inl rfl
        | true =>
          have hcarries : o.bound.carries = true := by
            rcases hcan with hactive | ⟨-, hcarries⟩
            · rw [hstate] at hactive
              cases hactive
            · exact hcarries
          have honly := hfits u hget hterminal hfinishable hstate
          refine (allowed_snoc_own rfl hcarries ?_).2 honly
          intro hnil
          rw [hnil] at honly
          exact honly
      · rw [append_nil]
        exact hfollows.allowed t ht

/-! ## Recovery -/

theorem recoverable_iff {busy : List String} :
    recoverable now worker busy t = true ↔ t.outcome.taskState.terminal = false ∧
      t.leaseExpiresAt.any (fun e => e ≤ now) = true ∧ t.workerOwnerId ≠ worker ∧ t.id ∉ busy := by
  simp [recoverable, and_assoc]

theorem mem_orphaned {batchSize : ℕ} {busy : List String} (h : t ∈ orphaned now worker batchSize busy db) :
    t ∈ db.rows ∧ recoverable now worker busy t = true := by
  have hsorted := (take_sublist _ _).subset h
  rw [mem_insertionSort] at hsorted
  exact mem_filter.1 hsorted

theorem orphaned_nodup (now : ℤ) (worker : String) (batchSize : ℕ) (busy : List String) (db : Db) :
    ((orphaned now worker batchSize busy db).map A2AInboundTask.id).Nodup := by
  refine List.Nodup.sublist ((take_sublist _ _).map A2AInboundTask.id) ?_
  refine ((perm_insertionSort createdBefore _).map A2AInboundTask.id).nodup_iff.2 ?_
  exact db.nodup.sublist (filter_sublist.map A2AInboundTask.id)

theorem filter_recovered (worker : String) {rows : List A2AInboundTask} (hnodup : (rows.map A2AInboundTask.id).Nodup) (k : String) :
    ((rows.map (fun t => (⟨t.id, worker, recoveredOutcome t.outcome⟩ : Write))).filter (fun w => w.taskId = k) = [] ∧
      k ∉ rows.map A2AInboundTask.id) ∨
    ∃ t ∈ rows, t.id = k ∧ (rows.map (fun t => (⟨t.id, worker, recoveredOutcome t.outcome⟩ : Write))).filter
      (fun w => w.taskId = k) = [⟨t.id, worker, recoveredOutcome t.outcome⟩] := by
  induction rows with
  | nil => exact .inl ⟨rfl, not_mem_nil⟩
  | cons t rows ih =>
    rw [map_cons, nodup_cons] at hnodup
    by_cases hk : t.id = k
    · subst hk
      right
      refine ⟨t, mem_cons_self, rfl, ?_⟩
      rw [map_cons, filter_cons_of_pos (by simp)]
      rcases ih hnodup.2 with ⟨hnil, -⟩ | ⟨u, hu, hid, -⟩
      · rw [hnil]
      · exact absurd (hid ▸ mem_map_of_mem hu) hnodup.1
    · rw [map_cons, filter_cons_of_neg (by simpa using hk)]
      rcases ih hnodup.2 with ⟨hnil, hnone⟩ | ⟨u, hu, hid, hfilter⟩
      · refine .inl ⟨hnil, ?_⟩
        rw [map_cons, mem_cons, not_or]
        exact ⟨Ne.symm hk, hnone⟩
      · exact .inr ⟨u, mem_cons_of_mem t hu, hid, hfilter⟩

theorem recover_updated (s : St) (waited : ℕ) (worker : String) (batchSize : ℕ) (busy : List String) :
    Updated s (step s (.recover waited worker batchSize busy))
      (fun t => if t.id ∈ (orphaned (s.now - waited) worker batchSize busy s.db).map A2AInboundTask.id then
        recoverRow (s.now - waited) t else t) []
      ((orphaned (s.now - waited) worker batchSize busy s.db).map (fun t => ⟨t.id, worker, recoveredOutcome t.outcome⟩)) where
  rows := by
    show map _ _ = map _ _
    simp
  created := rfl
  claims := (append_nil _).symm
  writes := rfl
  same t := by split_ifs <;> exact ⟨rfl, rfl, rfl, rfl, rfl⟩

theorem recover_inv {s : St} (h : Inv s) (waited : ℕ) (worker : String) (batchSize : ℕ) (busy : List String) :
    Inv (step s (.recover waited worker batchSize busy)) := by
  refine (recover_updated s waited worker batchSize busy).inv h ?_ ?_ (fun k hk => absurd hk not_mem_nil) nodup_nil ?_
  · intro t _ hstate
    split_ifs
    · exact (by simp [recoverRow, recoveredOutcome])
    · exact hstate
  · intro t ht
    rcases filter_recovered worker (orphaned_nodup (s.now - waited) worker batchSize busy s.db) t.id with
      ⟨hnil, hnone⟩ | ⟨u, hu, hid, hfilter⟩
    · rw [hnil, append_nil, if_neg hnone]
      exact h.shows t ht
    · obtain rfl := row_unique (mem_orphaned hu).1 ht hid
      rw [hfilter, if_pos (mem_map_of_mem hu)]
      exact .snoc rfl (.inl rfl)
  · intro w hw
    obtain ⟨t, ht, rfl⟩ := mem_map.1 hw
    exact ⟨t, (mem_orphaned ht).1, rfl⟩

theorem recover_follows {s : St} (h : Inv s) (hfollows : Follows s) (waited : ℕ) (worker : String) (batchSize : ℕ)
    (busy : List String) : Follows (step s (.recover waited worker batchSize busy)) := by
  refine ((recover_updated s waited worker batchSize busy).follows (recover_inv h waited worker batchSize busy) hfollows).2 ?_
  intro t ht
  rcases filter_recovered worker (orphaned_nodup (s.now - waited) worker batchSize busy s.db) t.id with
    ⟨hnil, -⟩ | ⟨u, hu, hid, hfilter⟩
  · rw [hnil, append_nil]
    exact hfollows.allowed t ht
  · obtain ⟨hrow, hcan⟩ := mem_orphaned hu
    obtain rfl := row_unique hrow ht hid
    obtain ⟨hactive, -, howner, -⟩ := recoverable_iff.1 hcan
    rw [hfilter, (h.shows u ht).nil_of_active hactive]
    exact .inr ⟨Ne.symm howner, rfl, rfl, rfl⟩

/-! ## Creation -/

theorem firstOf_some {p : A2AInboundTask → Bool} (h : firstOf p db = some t) : t ∈ db.rows ∧ p t = true := by
  have hmem := mem_of_mem_head? h
  rw [mem_insertionSort] at hmem
  exact mem_filter.1 hmem

theorem callerOf_eq {orgId userId ip orgId' userId' ip' : String} : callerOf orgId userId ip = callerOf orgId' userId' ip' ↔
      orgId = orgId' ∧ userId = userId' ∧ (orgId = "" ∧ userId = "" → ip = ip') := by
  unfold callerOf
  split_ifs with h h' h'
  · obtain ⟨rfl, rfl⟩ := h
    obtain ⟨rfl, rfl⟩ := h'
    simp
  · refine iff_of_false (by rintro ⟨⟩) ?_
    rintro ⟨rfl, rfl, -⟩
    exact h' h
  · refine iff_of_false (by rintro ⟨⟩) ?_
    rintro ⟨rfl, rfl, -⟩
    exact h h'
  · simp only [Caller.identified.injEq]
    exact ⟨fun ⟨horg, huser⟩ => ⟨horg, huser, fun hempty => absurd hempty h⟩, fun ⟨horg, huser, _⟩ => ⟨horg, huser⟩⟩

theorem conflicts_of_repeats (h : Repeats db a) (hidentified : ¬ a.Unidentified) (now : ℤ) (worker : String)
    (leaseSeconds : ℤ) : db.rows.any (conflicts (a.row now worker leaseSeconds)) = true := by
  obtain ⟨hclient, t, ht, hcaller, hsame⟩ := h
  obtain ⟨horg, huser, hip⟩ := callerOf_eq.1 hcaller
  refine any_eq_true.2 ⟨t, ht, ?_⟩
  by_cases hempty : a.callerOrgId = ""
  · have huserEmpty : a.callerUserId = "" := by
      by_contra hne
      exact hidentified (.inl ⟨hempty, hne⟩)
    have hips := hip ⟨horg.trans hempty, huser.trans huserEmpty⟩
    simp [conflicts, sameAnonymous, NewTask.row, hclient, hempty, huserEmpty, horg, huser, hips, hsame]
  · have huserSome : a.callerUserId ≠ "" := fun hne => hidentified (.inr ⟨hempty, hne⟩)
    simp [conflicts, sameAuthenticated, NewTask.row, hclient, hempty, huserSome, horg, huser, hsame]

theorem repeats_of_conflicts (hfresh : Fresh db a) {leaseSeconds : ℤ}
    (h : db.rows.any (conflicts (a.row now worker leaseSeconds)) = true) : Repeats db a ∧ ¬ a.Unidentified := by
  obtain ⟨t, ht, hconflict⟩ := any_eq_true.1 h
  obtain ⟨hid, hrun⟩ := hfresh t ht
  simp only [conflicts, Bool.or_eq_true, decide_eq_true_eq] at hconflict
  rcases hconflict with ((hbad | hbad) | hauth) | hanon
  · exact absurd hbad hid
  · exact absurd hbad hrun
  · simp only [sameAuthenticated, Bool.and_eq_true, decide_eq_true_eq] at hauth
    obtain ⟨⟨⟨hclient, horg⟩, huser⟩, ⟨horg', huser'⟩, hclient'⟩ := hauth
    refine ⟨⟨hclient, t, ht, callerOf_eq.2 ⟨horg', huser', ?_⟩, hclient'⟩, ?_⟩
    · exact fun hempty => absurd (horg'.symm.trans hempty.1) horg
    · rintro (⟨hempty, -⟩ | ⟨-, hempty⟩)
      · exact horg hempty
      · exact huser hempty
  · simp only [sameAnonymous, Bool.and_eq_true, decide_eq_true_eq] at hanon
    obtain ⟨⟨⟨hclient, horg⟩, huser⟩, ⟨⟨horg', huser'⟩, hip⟩, hclient'⟩ := hanon
    refine ⟨⟨hclient, t, ht, callerOf_eq.2 ⟨horg'.trans horg.symm, huser'.trans huser.symm, fun _ => hip⟩, hclient'⟩, ?_⟩
    rintro (⟨-, hne⟩ | ⟨hne, -⟩)
    · exact hne huser
    · exact hne horg

/-- the row a conflicting creation is answered with is one of the caller under the client task id -/
theorem existingTask_some {clientTaskId : String} (h : existingTask a clientTaskId db = some t)
    (hidentified : ¬ a.Unidentified) : t ∈ db.rows ∧ t.caller = a.caller ∧ t.clientTaskId = clientTaskId := by
  unfold existingTask at h
  split_ifs at h with hauth
  · obtain ⟨ht, hmatch⟩ := firstOf_some h
    simp only [Bool.and_eq_true, decide_eq_true_eq] at hmatch
    obtain ⟨⟨horg, huser⟩, hclient⟩ := hmatch
    refine ⟨ht, callerOf_eq.2 ⟨horg, huser, ?_⟩, hclient⟩
    exact fun hempty => absurd (horg.symm.trans hempty.1) hauth.1
  · obtain ⟨ht, hmatch⟩ := firstOf_some h
    simp only [Bool.and_eq_true, decide_eq_true_eq] at hmatch
    obtain ⟨⟨⟨horg, huser⟩, hip⟩, hclient⟩ := hmatch
    -- neither an org nor a user: the other mixed callers are unidentified
    have hempty : a.callerOrgId = "" ∧ a.callerUserId = "" := by
      by_cases horgEmpty : a.callerOrgId = ""
      · refine ⟨horgEmpty, ?_⟩
        by_contra hne
        exact hidentified (.inl ⟨horgEmpty, hne⟩)
      · refine absurd ⟨horgEmpty, fun hne => ?_⟩ hauth
        exact hidentified (.inr ⟨horgEmpty, hne⟩)
    exact ⟨ht, callerOf_eq.2 ⟨horg.trans hempty.1.symm, huser.trans hempty.2.symm, fun _ => hip⟩, hclient⟩

/-- `create_inbound_task`: a new row that no index refuses, the row that was there, or an exception -/
theorem create_cases (now : ℤ) (worker : String) (leaseSeconds : ℤ) (a : NewTask) (hfresh : Fresh db a) :
    (∃ db', a.Admissible ∧ db.rows.any (conflicts (a.row now worker leaseSeconds)) = false ∧
      db'.rows = db.rows ++ [a.row now worker leaseSeconds] ∧
      commit (createInboundTask now worker leaseSeconds a) db = (.ok (a.row now worker leaseSeconds, true), db')) ∨
    (∃ t ∈ db.rows, ¬ a.Unidentified ∧ t.caller = a.caller ∧ t.clientTaskId = a.clientTaskId.getD "" ∧
      a.clientTaskId.getD "" ≠ "" ∧
      commit (createInboundTask now worker leaseSeconds a) db = (.ok (t, false), db)) ∨
    ∃ e, (¬ a.Admissible ∨ ¬ a.Unidentified) ∧ commit (createInboundTask now worker leaseSeconds a) db = (.error e, db) := by
  rcases commit_cases (createInboundTask now worker leaseSeconds a) db with ⟨r, db', hrun, hcommit⟩ | ⟨e, hrun, hcommit⟩
  · obtain ⟨hadmissible, h⟩ := require_bind_ok hrun
    have h := read_bind_ok h
    simp only [id_eq] at h
    cases hinsert : insertTask (a.row now worker leaseSeconds) db with
    | some db₁ =>
      rw [hinsert] at h
      cases h
      unfold insertTask at hinsert
      split_ifs at hinsert with hconflict
      exact .inl ⟨db₁, hadmissible, by simpa using hconflict, (Table.insert?_eq_some hinsert).2, hcommit⟩
    | none =>
      rw [hinsert] at h
      have hconflict : db.rows.any (conflicts (a.row now worker leaseSeconds)) = true := by
        unfold insertTask at hinsert
        split_ifs at hinsert with hconflict
        · exact hconflict
        · have hfree : db.get? (a.row now worker leaseSeconds).id = none :=
            Table.get?_eq_none_iff.2 (fun hmem => by
              obtain ⟨t, ht, hid⟩ := mem_map.1 hmem
              exact (hfresh t ht).1 hid)
          obtain ⟨db₁, hdb₁⟩ := Table.insert?_of_free hfree
          rw [hdb₁] at hinsert
          cases hinsert
      obtain ⟨-, hidentified⟩ := repeats_of_conflicts hfresh hconflict
      split_ifs at h with hclient
      · cases h
      · cases hexisting : existingTask a (a.clientTaskId.getD "") db with
        | none =>
          rw [hexisting] at h
          cases h
        | some t =>
          rw [hexisting] at h
          cases h
          obtain ⟨ht, hcaller, hsame⟩ := existingTask_some hexisting hidentified
          exact .inr (.inl ⟨t, ht, hidentified, hcaller, hsame, hclient, hcommit⟩)
  · refine .inr (.inr ⟨e, ?_, hcommit⟩)
    by_contra hboth
    rw [not_or, not_not, not_not] at hboth
    obtain ⟨hadmissible, hunidentified⟩ := hboth
    have hfree : db.rows.any (conflicts (a.row now worker leaseSeconds)) = false := by
      rw [Bool.eq_false_iff]
      exact fun hconflict => (repeats_of_conflicts hfresh hconflict).2 hunidentified
    have hnew : db.get? (a.row now worker leaseSeconds).id = none :=
      Table.get?_eq_none_iff.2 (fun hmem => by
        obtain ⟨t, ht, hid⟩ := mem_map.1 hmem
        exact (hfresh t ht).1 hid)
    obtain ⟨db₁, hdb₁⟩ := Table.insert?_of_free hnew
    have hinsert : insertTask (a.row now worker leaseSeconds) db = some db₁ := by
      rw [insertTask, hfree, if_neg Bool.false_ne_true, hdb₁]
    simp only [createInboundTask, bind_run, require_run, if_pos hadmissible, read_run, id_eq, hinsert, write,
      pure_run] at hrun
    cases hrun

theorem Follows.unique {s : St} (h : Follows s) (hinv : Inv s) (ht : t ∈ s.db.rows) {c : Creation} (hc : c ∈ s.created)
    (hcaller : t.caller = c.caller) (hclient : t.clientTaskId = c.clientTaskId) (hne : t.clientTaskId ≠ "") :
    t.id = c.taskId := by
  obtain ⟨c', hc', hid, hcaller', hclient'⟩ := hinv.recorded t ht
  rw [← hid]
  exact h.sameTask c' hc' c hc (hcaller'.trans hcaller) (hclient'.trans hclient) (hclient' ▸ hne)

theorem created_step {s : St} (h : Inv s) (hfresh : Fresh s.db a) {leaseSeconds : ℤ} {db' : Db}
    (hrows : db'.rows = s.db.rows ++ [a.row now worker leaseSeconds]) {s' : St}
    (hs' : s' = { s with db := db', created := s.created ++ [⟨a.caller, a.clientTaskId.getD "", a.taskId⟩] }) :
    Inv s' ∧ (Follows s → (Follows s' ↔ ¬ Repeats s.db a)) := by
  subst hs'
  have hold : ∀ t ∈ s.db.rows, t ∈ db'.rows := fun t ht => hrows ▸ mem_append_left _ ht
  have hnew : a.row now worker leaseSeconds ∈ db'.rows := hrows ▸ mem_append_right _ mem_cons_self
  have hcases : ∀ t ∈ db'.rows, t ∈ s.db.rows ∨ t = a.row now worker leaseSeconds := by
    intro t ht
    rw [hrows, mem_append, mem_singleton] at ht
    exact ht
  have hnone : s.writes.filter (fun w => w.taskId = a.taskId) = [] := by
    refine filter_eq_nil_iff.2 (fun w hw hmatch => ?_)
    obtain ⟨t, ht, hid⟩ := h.writesFor w hw
    exact (hfresh t ht).1 (hid.trans (of_decide_eq_true hmatch))
  have hinv' : Inv { s with db := db', created := s.created ++ [⟨a.caller, a.clientTaskId.getD "", a.taskId⟩] } := by
    refine ⟨?_, h.claimedOnce, ?_, ?_, ?_, ?_⟩
    · intro k hk
      obtain ⟨t, ht, hid, hstate⟩ := h.claimed k hk
      exact ⟨t, hold t ht, hid, hstate⟩
    · intro t ht
      rcases hcases t ht with ht | rfl
      · exact h.shows t ht
      · show Shows _ (s.writes.filter (fun w => w.taskId = a.taskId))
        rw [hnone]
        rfl
    · intro c hc
      rcases mem_append.1 hc with hc | hc
      · obtain ⟨t, ht, hid, hcaller, hclient⟩ := h.answered c hc
        exact ⟨t, hold t ht, hid, hcaller, hclient⟩
      · rw [mem_singleton.1 hc]
        exact ⟨_, hnew, rfl, rfl, rfl⟩
    · intro t ht
      rcases hcases t ht with ht | rfl
      · obtain ⟨c, hc, hid, hcaller, hclient⟩ := h.recorded t ht
        exact ⟨c, mem_append_left _ hc, hid, hcaller, hclient⟩
      · exact ⟨_, mem_append_right _ mem_cons_self, rfl, rfl, rfl⟩
    · intro w hw
      obtain ⟨t, ht, hid⟩ := h.writesFor w hw
      exact ⟨t, hold t ht, hid⟩
  refine ⟨hinv', fun hfollows => ⟨?_, ?_⟩⟩
  · rintro hfollows' ⟨hclient, t, ht, hcaller, hsame⟩
    have hid : t.id = a.taskId := hfollows'.unique hinv' (hold t ht) (mem_append_right _ mem_cons_self) hcaller hsame
      (hsame ▸ hclient)
    exact (hfresh t ht).1 hid
  · intro hrepeats
    -- an earlier answer under the same caller and client task id would be a repetition
    have hother : ∀ c ∈ s.created, c.caller = a.caller → c.clientTaskId = a.clientTaskId.getD "" → c.clientTaskId = "" := by
      intro c hc hcaller hclient
      by_contra hne
      obtain ⟨t, ht, -, hcaller', hclient'⟩ := h.answered c hc
      exact hrepeats ⟨hclient ▸ hne, t, ht, hcaller'.trans hcaller, hclient'.trans hclient⟩
    refine ⟨hinv'.claimedOnce, ?_, ?_, hinv'.shows⟩
    · intro c hc c' hc' hcaller hclient hne
      rcases mem_append.1 hc with hc | hc <;> rcases mem_append.1 hc' with hc' | hc'
      · exact hfollows.sameTask c hc c' hc' hcaller hclient hne
      · rw [mem_singleton.1 hc'] at hcaller hclient
        exact absurd (hother c hc hcaller hclient) hne
      · rw [mem_singleton.1 hc] at hcaller hclient hne
        exact absurd (hclient.trans (hother c' hc' hcaller.symm hclient.symm)) hne
      · rw [mem_singleton.1 hc, mem_singleton.1 hc']
    · intro t ht
      rcases hcases t ht with ht | rfl
      · exact hfollows.allowed t ht
      · show Allowed _ (s.writes.filter (fun w => w.taskId = a.taskId))
        rw [hnone]
        trivial

theorem answered_step {s : St} (h : Inv s) (ht : t ∈ s.db.rows) (hcaller : t.caller = a.caller)
    (hclient : t.clientTaskId = a.clientTaskId.getD "") (hne : a.clientTaskId.getD "" ≠ "") {s' : St}
    (hs' : s' = { s with created := s.created ++ [⟨a.caller, a.clientTaskId.getD "", t.id⟩] }) :
    Inv s' ∧ (Follows s → Follows s') := by
  subst hs'
  refine ⟨⟨h.claimed, h.claimedOnce, h.shows, ?_, ?_, h.writesFor⟩, fun hfollows =>
    ⟨h.claimedOnce, ?_, hfollows.allowed, h.shows⟩⟩
  · intro c hc
    rcases mem_append.1 hc with hc | hc
    · exact h.answered c hc
    · rw [mem_singleton.1 hc]
      exact ⟨t, ht, rfl, hcaller, hclient⟩
  · intro u hu
    obtain ⟨c, hc, hid, hcaller', hclient'⟩ := h.recorded u hu
    exact ⟨c, mem_append_left _ hc, hid, hcaller', hclient'⟩
  · have hsame : ∀ c ∈ s.created, a.caller = c.caller → a.clientTaskId.getD "" = c.clientTaskId → t.id = c.taskId :=
      fun c hc hcaller' hclient' =>
        hfollows.unique h ht hc (hcaller.trans hcaller') (hclient.trans hclient') (hclient ▸ hne)
    intro c hc c' hc' hcc hcl hcne
    rcases mem_append.1 hc with hc | hc <;> rcases mem_append.1 hc' with hc' | hc'
    · exact hfollows.sameTask c hc c' hc' hcc hcl hcne
    · rw [mem_singleton.1 hc'] at hcc hcl ⊢
      exact (hsame c hc hcc.symm hcl.symm).symm
    · rw [mem_singleton.1 hc] at hcc hcl ⊢
      exact hsame c' hc' hcc hcl
    · rw [mem_singleton.1 hc, mem_singleton.1 hc']

theorem create_step {s : St} (h : Inv s) (waited : ℕ) (worker : String) (leaseSeconds : ℤ) (a : NewTask) :
    Inv (step s (.create waited worker leaseSeconds a)) ∧
      (Follows s → (Follows (step s (.create waited worker leaseSeconds a)) ↔ Fits s (.create waited worker leaseSeconds a))) := by
  rw [step]
  split_ifs with hfresh
  · rcases create_cases (s.now - waited) worker leaseSeconds a hfresh with
      ⟨db', hadmissible, hconflict, hrows, hcommit⟩ | ⟨t, ht, hidentified, hcaller, hclient, hne, hcommit⟩ | ⟨e, hrefused, hcommit⟩
    · rw [hcommit]
      obtain ⟨hinv', hiff⟩ := created_step h hfresh hrows rfl
      refine ⟨hinv', fun hfollows => (hiff hfollows).trans ⟨fun hnone _ _ _ => hnone, fun hfits hrepeats => ?_⟩⟩
      by_cases hunidentified : a.Unidentified
      · exact hfits hunidentified hfresh hadmissible hrepeats
      · rw [conflicts_of_repeats hrepeats hunidentified] at hconflict
        cases hconflict
    · rw [hcommit]
      obtain ⟨hinv', hkeeps⟩ := answered_step h ht hcaller hclient hne rfl
      exact ⟨hinv', fun hfollows => iff_of_true (hkeeps hfollows) (fun hunidentified => absurd hunidentified hidentified)⟩
    · rw [hcommit]
      simp only [creations, append_nil]
      refine ⟨h, fun hfollows => iff_of_true hfollows ?_⟩
      intro hunidentified _ hadmissible
      rcases hrefused with hno | hno
      · exact absurd hadmissible hno
      · exact absurd hunidentified hno
  · exact ⟨h, fun hfollows => iff_of_true hfollows (fun _ hfresh' => absurd hfresh' hfresh)⟩

/-! ## Runs -/

theorem renew_quiet (worker : String) (expiresAt : ℤ) (t : A2AInboundTask) :
    (if (t.workerOwnerId = worker && !t.outcome.taskState.terminal) = true then { t with leaseExpiresAt := some expiresAt }
      else t).outcome = t.outcome := by
  split_ifs <;> rfl

theorem inv_step (s : St) (o : Op) (h : Inv s) : Inv (step s o) := by
  cases o with
  | tick micros => exact ⟨h.claimed, h.claimedOnce, h.shows, h.answered, h.recorded, h.writesFor⟩
  | create waited worker leaseSeconds a => exact (create_step h waited worker leaseSeconds a).1
  | claim waited worker leaseSeconds taskId => exact claim_inv h waited worker leaseSeconds taskId
  | renew waited worker leaseSeconds =>
    exact quiet_inv h (renew_updated s waited worker leaseSeconds) (fun t _ => .inl (renew_quiet worker _ t))
  | markBilling taskId billingMethod =>
    obtain ⟨g, hupdated, hquiet⟩ := markBilling_updated s taskId billingMethod
    exact quiet_inv h hupdated (fun t _ => hquiet t)
  | finish waited worker taskId o => exact finish_inv h waited worker taskId o
  | recover waited worker batchSize busy => exact recover_inv h waited worker batchSize busy

theorem holds_step (s : St) (o : Op) (h : Inv s) (hfollows : Follows s) : Follows (step s o) ↔ Fits s o := by
  cases o with
  | tick micros =>
    exact iff_of_true ⟨hfollows.claimedOnce, hfollows.sameTask, hfollows.allowed, hfollows.shows⟩ trivial
  | create waited worker leaseSeconds a => exact (create_step h waited worker leaseSeconds a).2 hfollows
  | claim waited worker leaseSeconds taskId =>
    have hinv' := claim_inv h waited worker leaseSeconds taskId
    refine iff_of_true (((claim_updated s waited worker leaseSeconds taskId).follows hinv' hfollows).2 ?_) trivial
    intro t ht
    rw [filter_nil, append_nil]
    exact hfollows.allowed t ht
  | renew waited worker leaseSeconds =>
    have hinv' := inv_step s (.renew waited worker leaseSeconds) h
    exact iff_of_true ((renew_updated s waited worker leaseSeconds).follows_of_nil hinv' hfollows) trivial
  | markBilling taskId billingMethod =>
    have hinv' := inv_step s (.markBilling taskId billingMethod) h
    obtain ⟨g, hupdated, -⟩ := markBilling_updated s taskId billingMethod
    exact iff_of_true (hupdated.follows_of_nil hinv' hfollows) trivial
  | finish waited worker taskId o => exact finish_follows h hfollows waited worker taskId o
  | recover waited worker batchSize busy => exact iff_of_true (recover_follows h hfollows waited worker batchSize busy) trivial

theorem follows_init (now : ℤ) : Follows (init now) where
  claimedOnce := nodup_nil
  sameTask _ hc := absurd hc not_mem_nil
  allowed _ ht := absurd ht not_mem_nil
  shows _ ht := absurd ht not_mem_nil

/-- the configured client credential has no org: its tasks are under no unique index -/
def unidentifiedRun : List Op :=
  [.create 0 "W" 60 ⟨"T1", "R1", some "job", none, "", "teardrop-client", "10.0.0.1", "client_credentials"⟩,
    .create 0 "W" 60 ⟨"T2", "R2", some "job", none, "", "teardrop-client", "10.0.0.1", "client_credentials"⟩]

theorem unidentified_twice : ¬ Follows (run (init 0) unidentifiedRun) := by
  intro h
  have hsame := h.sameTask
  exact absurd (hsame _ mem_cons_self _ (mem_cons_of_mem _ mem_cons_self) rfl rfl (by decide)) (by decide)

/-- the run of a task fails with the text of a recovery, and its worker reports a second outcome -/
def mimickedRun : List Op :=
  [.create 0 "W" 60 ⟨"T", "R", none, none, "O", "U", "10.0.0.1", "email"⟩, .claim 0 "W" 60 "T",
    .finish 0 "W" "T" ⟨.failed, recoveryInterruptionError, recoveryInterruptionError, none, 0, "", "", 0, 0⟩,
    .finish 0 "W" "T" ⟨.failed, "Task failed.", "Task failed.", none, 0, "", "", 0, 0⟩]

end Teardrop.Inbound
