/-
Scoring leases (`labeling/store.py`): `claim_due_targets`, `complete_target`, `retry_target` and `append_result_override`, with
the override endpoint and `insert_prediction`, interleaved.

`claim_due_targets` is two steps. Its snapshot decides which rows are due and their rank (`ranked`); the rows are then locked
one by one and updated. A row someone else holds is skipped; one that was changed since is checked again, but only by the
conditions of the query that locks, `ranked.id = target.id AND ranked.org_rank <= $2`: the status and the expiry are
conditions of `ranked`, which is not evaluated again. Locked rows do not change, so locking and updating are one step. All else
is one transaction and one step. Lease tokens are UUIDs: numbers never drawn twice.
-/
import Teardrop.Labeling.Predictions

namespace Teardrop.Labeling.Leases

open Teardrop.Py PyJson List Tx
open Commitments (Sha256)

/-! ## Model -/

/-- a lease as the worker holds it -/
structure Lease where
  targetId : PyStr
  token : ℕ
  expiresAt : ℤ
deriving DecidableEq

/-- a `claim_due_targets` between its snapshot and its commit: what it was called with, and the rows of `due` before `LIMIT` -/
structure Claim where
  limit : ℤ
  maxPerOrg : ℤ
  leaseSeconds : ℤ
  token : ℕ
  startedAt : ℤ
  due : List TargetRow

/-- the database, the claims in flight, and what was leased (latest first) and given back -/
structure St where
  now : ℤ
  db : Db
  claims : List Claim
  nextToken : ℕ
  leases : List Lease
  returned : List (PyStr × ℕ)

def init (now : ℤ) : St := ⟨now, emptyDb, [], 0, [], []⟩

/-- `status = 'pending' OR (status = 'leased' AND lease_expires_at <= NOW())` -/
def claimable (now : ℤ) : TargetStatus → Bool
  | .pending => true
  | .leased _ expiresAt => expiresAt ≤ now
  | _ => false

/-- `ORDER BY due_at ASC, id ASC` -/
def dueBefore (a b : TargetRow) : Prop := a.dueAt < b.dueAt ∨ (a.dueAt = b.dueAt ∧ a.id ≤ b.id)

instance : DecidableRel dueBefore := fun _ _ => inferInstanceAs (Decidable (_ ∨ _))

/-- the rows whose `ROW_NUMBER() OVER (PARTITION BY org_id)` is at most `max_per_org`, of rows in their order -/
def withinOrg (maxPerOrg : ℤ) : List TargetRow → List TargetRow → List TargetRow
  | _, [] => []
  | before, t :: rest =>
    if ((before.countP (fun u => u.orgId = t.orgId) + 1 : ℕ) : ℤ) ≤ maxPerOrg then
      t :: withinOrg maxPerOrg (before ++ [t]) rest
    else withinOrg maxPerOrg (before ++ [t]) rest

/-- `ranked` joined to the targets of the snapshot, in the order of `due` -/
def ranked (now maxPerOrg : ℤ) (db : Db) : List TargetRow :=
  withinOrg maxPerOrg [] ((db.targets.rows.filter (fun t => t.dueAt ≤ now && claimable now t.status)).insertionSort dueBefore)

/-- `FOR UPDATE OF target SKIP LOCKED` and `LIMIT`: the rows that are locked, as they stand in the snapshot -/
def Claim.locked (c : Claim) (db : Db) (busy : List PyStr) : List TargetRow :=
  (c.due.filter (fun t => t.id ∉ busy && (db.targets.get? t.id).isSome)).take c.limit.toNat

def Claim.expiresAt (c : Claim) : ℤ := c.startedAt + c.leaseSeconds * 1000000

/-- `UPDATE labeling_targets ... WHERE id = ...` -/
def onTargets (ids : List PyStr) (f : TargetRow → TargetRow) (hf : ∀ t, (f t).id = t.id) (db : Db) : Db :=
  { db with targets := db.targets.update (fun t => if t.id ∈ ids then f t else t) (fun t => by split_ifs <;> simp [hf]) }

/-- `SET status = 'leased', attempts = attempts + 1, ..., last_error = ''` -/
def leaseRow (token : ℕ) (expiresAt : ℤ) (t : TargetRow) : TargetRow :=
  { t with status := .leased token expiresAt, attempts := t.attempts + 1, lastError := [] }

/-- the update of a claim -/
def Claim.update (c : Claim) (busy : List PyStr) (db : Db) : Db :=
  onTargets ((c.locked db busy).map TargetRow.id) (leaseRow c.token c.expiresAt) (fun _ => rfl) db

def Claim.returning (c : Claim) (db : Db) (busy : List PyStr) : List TargetRow :=
  (c.locked db busy).filterMap (fun t => (c.update busy db).targets.get? t.id)

/-- `CASE WHEN $2 IN ('correct', 'incorrect', 'neutral', 'inconclusive') THEN 'scored' ...` -/
def targetStatus : ScoreStatus → TargetStatus
  | .correct | .incorrect | .neutral | .inconclusive => .scored
  | .unavailable => .unavailable
  | .invalid => .invalid

/-- `status = 'leased' AND lease_token = $4` -/
def holdsLease (db : Db) (targetId : PyStr) (token : ℕ) : Bool :=
  match (db.targets.get? targetId).map TargetRow.status with
  | some (.leased held _) => held = token
  | _ => false

def finishRow (result : ScoreResult) (t : TargetRow) : TargetRow :=
  { t with
    status := targetStatus result.status
    lastError := if result.status = .unavailable ∨ result.status = .invalid then result.rationale.take 2000 else [] }

/-- `canonical_json(result.actual) if result.actual is not None else None` -/
def actualText (result : ScoreResult) : Call (Option PyStr) :=
  match result.actual with
  | none => .ok none
  | some actual => (canonicalJson actual).map some

def completeTarget (targetId : PyStr) (token : ℕ) (result : ScoreResult) (observationId : Option PyStr) : Tx Db Bool := do
  let db ← Tx.read id
  if holdsLease db targetId token = false then return false
  else do
    Tx.write (onTargets [targetId] (finishRow result) (fun _ => rfl))
    let _ ← Tx.lift (actualText result)
    Tx.write (fun db => { db with results := db.results ++ [⟨targetId, observationId, result⟩] })
    return true

def retryRow (dueAt : ℤ) (error : PyStr) (t : TargetRow) : TargetRow :=
  { t with status := .pending, dueAt := dueAt, lastError := error }

def retryTarget (now : ℤ) (targetId : PyStr) (token : ℕ) (error : PyStr) (delaySeconds : ℤ) : Tx Db Bool := do
  let delay := max 1 (min delaySeconds 86400)
  let db ← Tx.read id
  if holdsLease db targetId token = false then return false
  else do
    Tx.write (onTargets [targetId] (retryRow (now + delay * 1000000) (error.take 2000)) (fun _ => rfl))
    return true

def overrideRow (result : ScoreResult) (t : TargetRow) : TargetRow :=
  { t with status := targetStatus result.status, lastError := [] }

/-- only the target of a prediction that is not committed gets another status -/
def overrideTarget (prediction : PredictionRow) (targetId : PyStr) (result : ScoreResult) (db : Db) : Db :=
  if prediction.committed then db else onTargets [targetId] (overrideRow result) (fun _ => rfl) db

/-- the target of an org, joined to its prediction -/
def targetOf (db : Db) (targetId orgId : PyStr) : Option (TargetRow × PredictionRow) := do
  let target ← db.targets.get? targetId
  if target.orgId ≠ orgId then none
  else
    let prediction ← db.predictions.rows.find? (fun p => p.id = target.predictionId)
    return (target, prediction)

def appendResultOverride (targetId orgId : PyStr) (result : ScoreResult) : Tx Db Bool := do
  let db ← Tx.read id
  match targetOf db targetId orgId with
  | none => return false
  | some (target, prediction) =>
    if target.status.isLeased = true then return false
    else if prediction.committed = true ∧ target.status = .pending then return false
    else do
      Tx.write (overrideTarget prediction targetId result)
      let _ ← Tx.lift (actualText result)
      Tx.write (fun db => { db with results := db.results ++ [⟨targetId, none, result⟩] })
      return true

/-- `override_labeling_result`: the source of an override is never `automatic` -/
def overrideLabelingResult (targetId orgId : PyStr) (result : ScoreResult) : Tx Db Bool :=
  if result.source = .automatic then return false else appendResultOverride targetId orgId result

inductive Op where
  /-- time passes -/
  | tick (micros : ℕ)
  | insert (c : Submission)
  | claim (limit maxPerOrg leaseSeconds : ℤ)
  /-- claim `i` locks what is not `busy`, updates and commits -/
  | commit (i : ℕ) (busy : List PyStr)
  | abort (i : ℕ)
  | complete (targetId : PyStr) (token : ℕ) (result : ScoreResult) (observationId : Option PyStr)
  | retry (targetId : PyStr) (token : ℕ) (error : PyStr) (delaySeconds : ℤ)
  | override (targetId orgId : PyStr) (result : ScoreResult)

/-- a worker that was told `True` has given its lease back -/
def giveBack (s : St) (targetId : PyStr) (token : ℕ) (r : Except Exc Bool × Db) : St :=
  match r.1 with
  | .ok true => { s with db := r.2, returned := (targetId, token) :: s.returned }
  | _ => { s with db := r.2 }

section System

variable (H : Sha256) (definitions : PyStr → ℤ → Definition)

def step (s : St) : Op → St
  | .tick micros => { s with now := s.now + micros }
  | .insert c => { s with db := Labeling.step H definitions s.db c }
  | .claim limit maxPerOrg leaseSeconds =>
    if limit ≤ 0 ∨ maxPerOrg ≤ 0 ∨ leaseSeconds ≤ 0 then s
    else
      { s with
        claims := s.claims ++ [⟨limit, maxPerOrg, leaseSeconds, s.nextToken, s.now, ranked s.now maxPerOrg s.db⟩]
        nextToken := s.nextToken + 1 }
  | .commit i busy =>
    match s.claims[i]? with
    | none => s
    | some c =>
      { s with
        db := c.update busy s.db
        claims := s.claims.eraseIdx i
        leases := (c.locked s.db busy).map (fun t => ⟨t.id, c.token, c.expiresAt⟩) ++ s.leases }
  | .abort i => { s with claims := s.claims.eraseIdx i }
  | .complete targetId token result observationId =>
    giveBack s targetId token (Tx.commit (completeTarget targetId token result observationId) s.db)
  | .retry targetId token error delaySeconds =>
    giveBack s targetId token (Tx.commit (retryTarget s.now targetId token error delaySeconds) s.db)
  | .override targetId orgId result =>
    { s with db := (Tx.commit (overrideLabelingResult targetId orgId result) s.db).2 }

def run (s : St) (ops : List Op) : St := Runs.run (step H definitions) s ops

end System

/-! ## What is claimed -/

/-- held by a worker, and not expired -/
def Live (s : St) (l : Lease) : Prop := (l.targetId, l.token) ∉ s.returned ∧ s.now < l.expiresAt

/-- a target is held under at most one unexpired lease -/
def Exclusive (s : St) : Prop :=
  ∀ l ∈ s.leases, ∀ l' ∈ s.leases, l.targetId = l'.targetId → Live s l → Live s l' → l = l'

/-- the automatic results of a target -/
def automatic (db : Db) (targetId : PyStr) : ℕ :=
  db.results.countP (fun r => r.targetId = targetId && r.result.source = .automatic)

/-- the latest lease of a target -/
def latest (s : St) (targetId : PyStr) : Option Lease := s.leases.find? (fun l => l.targetId = targetId)

/-- every row a claim locks is still claimable when it is locked -/
def StillClaimable (s : St) : Op → Prop
  | .commit i busy => ∀ c ∈ s.claims[i]?, ∀ t ∈ c.locked s.db busy, ∀ row ∈ s.db.targets.get? t.id,
      claimable s.now row.status = true
  | _ => True

theorem withinOrg_sublist (maxPerOrg : ℤ) (before rest : List TargetRow) :
    (withinOrg maxPerOrg before rest).Sublist rest := by
  induction rest generalizing before with
  | nil => exact List.Sublist.slnil
  | cons t rest ih =>
    rw [withinOrg]
    split_ifs
    · exact (ih _).cons_cons t
    · exact (ih _).cons t

/-- what `before` leaves of the cap of an org -/
theorem countP_withinOrg (maxPerOrg : ℤ) (o : PyStr) (before rest : List TargetRow) :
    ((withinOrg maxPerOrg before rest).countP (fun t => t.orgId = o) : ℤ) ≤
      max 0 (maxPerOrg - before.countP (fun t => t.orgId = o)) := by
  induction rest generalizing before with
  | nil => simp [withinOrg]
  | cons t rest ih =>
    have hrest := ih (before ++ [t])
    rw [countP_append, countP_singleton] at hrest
    rw [withinOrg]
    by_cases ho : t.orgId = o
    · subst ho
      simp only [decide_true, if_true] at hrest
      split_ifs with hrank
      · rw [countP_cons_of_pos (by simp)]
        omega
      · omega
    · simp only [ho, decide_false, Bool.false_eq_true, if_false, add_zero] at hrest
      split_ifs
      · rw [countP_cons_of_neg (by simpa using ho)]
        exact hrest
      · exact hrest

theorem ranked_subset {now maxPerOrg : ℤ} {db : Db} {t : TargetRow} (h : t ∈ ranked now maxPerOrg db) :
    t ∈ db.targets.rows := by
  have hsorted := (withinOrg_sublist maxPerOrg [] _).subset h
  rw [mem_insertionSort] at hsorted
  exact (mem_filter.1 hsorted).1

theorem ranked_nodup (now maxPerOrg : ℤ) (db : Db) : ((ranked now maxPerOrg db).map TargetRow.id).Nodup := by
  have hfiltered := db.targets.nodup.sublist
    (filter_sublist (p := fun t => decide (t.dueAt ≤ now) && claimable now t.status).map TargetRow.id)
  have hsorted := ((perm_insertionSort dueBefore
    (db.targets.rows.filter (fun t => decide (t.dueAt ≤ now) && claimable now t.status))).map TargetRow.id).nodup_iff.2 hfiltered
  exact hsorted.sublist ((withinOrg_sublist maxPerOrg [] _).map TargetRow.id)

theorem ranked_bound {now maxPerOrg : ℤ} (hpos : 0 < maxPerOrg) (db : Db) (o : PyStr) :
    ((ranked now maxPerOrg db).countP (fun t => t.orgId = o) : ℤ) ≤ maxPerOrg := by
  have hcount := countP_withinOrg maxPerOrg o []
    ((db.targets.rows.filter (fun t => decide (t.dueAt ≤ now) && claimable now t.status)).insertionSort dueBefore)
  unfold ranked
  omega

theorem locked_sublist (c : Claim) (db : Db) (busy : List PyStr) : (c.locked db busy).Sublist c.due :=
  (take_sublist _ _).trans filter_sublist

/-! ## What a step does -/

/-- the status of a target -/
def statusOf (db : Db) (targetId : PyStr) : Option TargetStatus := (db.targets.get? targetId).map TargetRow.status

theorem get?_onTargets (ids : List PyStr) (f : TargetRow → TargetRow) (hf : ∀ t, (f t).id = t.id) (db : Db) (k : PyStr) :
    (onTargets ids f hf db).targets.get? k = (db.targets.get? k).map (fun t => if k ∈ ids then f t else t) := by
  rw [onTargets, Table.get?_update]
  cases hget : db.targets.get? k with
  | none => rfl
  | some t =>
    rw [Option.map_some, Option.map_some, Table.key_of_get? hget]

theorem statusOf_onTargets (ids : List PyStr) (f : TargetRow → TargetRow) (hf : ∀ t, (f t).id = t.id) (db : Db) (k : PyStr) :
    statusOf (onTargets ids f hf db) k = (db.targets.get? k).map (fun t => if k ∈ ids then (f t).status else t.status) := by
  rw [statusOf, get?_onTargets, Option.map_map]
  congr 1
  split_ifs <;> rfl

theorem statusOf_one {k : PyStr} {f : TargetRow → TargetRow} (hf : ∀ t, (f t).id = t.id) {db : Db} {st old : TargetStatus}
    (hst : ∀ t, (f t).status = st) (hold : statusOf db k = some old) (k' : PyStr) :
    statusOf (onTargets [k] f hf db) k' = if k' = k then some st else statusOf db k' := by
  rw [statusOf_onTargets]
  simp only [mem_singleton]
  split_ifs with hk
  · subst hk
    obtain ⟨t, hget, -⟩ := Option.map_eq_some_iff.1 hold
    simp [hget, hst]
  · rfl

/-- targets are never deleted, and keep their org -/
def Keeps (db db' : Db) : Prop :=
  ∀ k t, db.targets.get? k = some t → ∃ t', db'.targets.get? k = some t' ∧ t'.orgId = t.orgId

theorem Keeps.refl (db : Db) : Keeps db db := fun _ t h => ⟨t, h, rfl⟩

theorem keeps_onTargets (ids : List PyStr) {f : TargetRow → TargetRow} (hf : ∀ t, (f t).id = t.id)
    (horg : ∀ t, (f t).orgId = t.orgId) (db : Db) : Keeps db (onTargets ids f hf db) := by
  intro k t hget
  rw [get?_onTargets, hget, Option.map_some]
  refine ⟨_, rfl, ?_⟩
  split_ifs
  · exact horg t
  · rfl

variable {targetId : PyStr} {token : ℕ}

theorem holdsLease_iff {db : Db} :
    holdsLease db targetId token ↔ ∃ expiresAt, statusOf db targetId = some (.leased token expiresAt) := by
  unfold holdsLease statusOf
  cases (db.targets.get? targetId).map TargetRow.status with
  | none => simp
  | some st => cases st <;> simp

/-- `complete_target`: nothing, or a result with the status of the target -/
theorem completeTarget_cases (targetId : PyStr) (token : ℕ) (result : ScoreResult) (observationId : Option PyStr) (db : Db) :
    (∃ r : Except Exc Bool, r ≠ .ok true ∧
      commit (completeTarget targetId token result observationId) db = (r, db)) ∨
    (∃ expiresAt, statusOf db targetId = some (.leased token expiresAt)) ∧
      commit (completeTarget targetId token result observationId) db = (.ok true,
        { onTargets [targetId] (finishRow result) (fun _ => rfl) db with
          results := db.results ++ [⟨targetId, observationId, result⟩] }) := by
  cases hheld : holdsLease db targetId token with
  | true =>
    cases htext : actualText result with
    | error e =>
      left
      refine ⟨.error e, (by rintro ⟨⟩), ?_⟩
      simp only [commit, completeTarget, bind_run, read_run, write, lift, id_eq, hheld, htext, Bool.true_eq_false, if_false]
    | ok text =>
      right
      refine ⟨holdsLease_iff.1 hheld, ?_⟩
      simp only [commit, completeTarget, bind_run, read_run, write, lift, pure_run, id_eq, hheld, htext,
        Bool.true_eq_false, if_false]
      rfl
  | false =>
    left
    refine ⟨.ok false, (by rintro ⟨⟩), ?_⟩
    simp [commit, completeTarget, bind_run, read_run, pure_run, hheld]

theorem retryTarget_cases (now : ℤ) (targetId : PyStr) (token : ℕ) (error : PyStr) (delaySeconds : ℤ) (db : Db) :
    commit (retryTarget now targetId token error delaySeconds) db = (.ok false, db) ∨
    (∃ expiresAt, statusOf db targetId = some (.leased token expiresAt)) ∧
      commit (retryTarget now targetId token error delaySeconds) db = (.ok true,
        onTargets [targetId] (retryRow (now + max 1 (min delaySeconds 86400) * 1000000) (error.take 2000)) (fun _ => rfl) db) := by
  cases hheld : holdsLease db targetId token with
  | true =>
    right
    refine ⟨holdsLease_iff.1 hheld, ?_⟩
    simp only [commit, retryTarget, bind_run, read_run, write, pure_run, id_eq, hheld, Bool.true_eq_false, if_false]
  | false =>
    left
    simp [commit, retryTarget, bind_run, read_run, pure_run, hheld]

variable {prediction : PredictionRow}

theorem get?_of_targetOf {db : Db} {orgId : PyStr} {target : TargetRow}
    (h : targetOf db targetId orgId = some (target, prediction)) : db.targets.get? targetId = some target := by
  obtain ⟨t, hget, h⟩ := Option.bind_eq_some_iff.1 h
  split_ifs at h
  obtain ⟨p, -, h⟩ := Option.bind_eq_some_iff.1 h
  cases h
  exact hget

/-- `append_result_override`: nothing, or a result for a target that is not leased; of a committed prediction the target keeps
its status, which is terminal -/
theorem overrideLabelingResult_cases (targetId orgId : PyStr) (result : ScoreResult) (db : Db) :
    (commit (overrideLabelingResult targetId orgId result) db).2 = db ∨
    ∃ old new, result.source ≠ .automatic ∧ statusOf db targetId = some old ∧ old.isLeased = false ∧
      (new = targetStatus result.status ∨ (new = old ∧ old.terminal)) ∧
      (∀ k, statusOf (commit (overrideLabelingResult targetId orgId result) db).2 k =
        if k = targetId then some new else statusOf db k) ∧
      (commit (overrideLabelingResult targetId orgId result) db).2.results =
        db.results ++ [⟨targetId, none, result⟩] ∧
      Keeps db (commit (overrideLabelingResult targetId orgId result) db).2 := by
  rcases commit_cases (overrideLabelingResult targetId orgId result) db with ⟨a, db', hok, hcommit⟩ | ⟨e, -, hcommit⟩
  · rw [hcommit]
    unfold overrideLabelingResult at hok
    split_ifs at hok with hsource
    · cases hok
      exact .inl rfl
    · replace hok := read_bind_ok hok
      simp only [id_eq] at hok
      cases htarget : targetOf db targetId orgId with
      | none =>
        rw [htarget] at hok
        cases hok
        exact .inl rfl
      | some joined =>
        obtain ⟨target, prediction⟩ := joined
        have hstatus : statusOf db targetId = some target.status := by
          rw [statusOf, get?_of_targetOf htarget, Option.map_some]
        rw [htarget] at hok
        simp only at hok
        split_ifs at hok with hleased hpending
        · cases hok
          exact .inl rfl
        · cases hok
          exact .inl rfl
        · replace hok := write_bind_ok hok
          obtain ⟨text, -, hok⟩ := lift_bind_ok hok
          cases hok
          right
          rw [Bool.not_eq_true] at hleased
          cases hcommitted : prediction.committed with
          | true =>
            have hterminal : target.status.terminal := by
              cases hst : target.status <;> simp_all [TargetStatus.terminal, TargetStatus.isLeased]
            refine ⟨target.status, target.status, hsource, hstatus, hleased, .inr ⟨rfl, hterminal⟩, ?_, ?_, ?_⟩
            · intro k
              rw [overrideTarget, hcommitted, if_pos rfl]
              split_ifs with hk
              · rw [hk]
                exact hstatus
              · rfl
            · rw [overrideTarget, hcommitted, if_pos rfl]
            · rw [overrideTarget, hcommitted, if_pos rfl]
              exact Keeps.refl db
          | false =>
            refine ⟨target.status, targetStatus result.status, hsource, hstatus, hleased, .inl rfl, ?_, ?_, ?_⟩
            · intro k
              rw [overrideTarget, hcommitted, if_neg Bool.false_ne_true]
              exact statusOf_one (f := overrideRow result) (fun _ => rfl) (fun _ => rfl) hstatus k
            · rw [overrideTarget, hcommitted, if_neg Bool.false_ne_true]
              rfl
            · rw [overrideTarget, hcommitted, if_neg Bool.false_ne_true]
              exact keeps_onTargets [targetId] (f := overrideRow result) (fun _ => rfl) (fun _ => rfl) db
  · rw [hcommit]
    exact .inl rfl

theorem stored_status {predictionId : PyStr} {targets : List TargetDraft} {db db' : Db}
    (h : Stored predictionId targets db db') :
    (∀ k t, db.targets.get? k = some t → db'.targets.get? k = some t) ∧
      ∀ k, statusOf db' k = statusOf db k ∨ (statusOf db k = none ∧ statusOf db' k = some .pending) := by
  have hkept : ∀ k t, db.targets.get? k = some t → db'.targets.get? k = some t := by
    intro k t hget
    have hmem := h.kept t (Table.mem_of_get? hget)
    rw [← Table.key_of_get? hget]
    exact Table.get?_of_mem hmem
  refine ⟨hkept, fun k => ?_⟩
  unfold statusOf
  cases hget : db.targets.get? k with
  | some t =>
    rw [hkept k t hget]
    exact .inl rfl
  | none =>
    cases hget' : db'.targets.get? k with
    | none => exact .inl rfl
    | some t =>
      rcases h.only t (Table.mem_of_get? hget') with hold | ⟨-, -, hpending, -⟩
      · have hback := Table.get?_of_mem hold
        rw [Table.key_of_get? hget', hget] at hback
        cases hback
      · exact .inr ⟨rfl, by rw [Option.map_some, hpending]⟩

section System

variable (H : Sha256) (definitions : PyStr → ℤ → Definition)

theorem insert_status (db : Db) (c : Submission) :
    (Labeling.step H definitions db c).results = db.results ∧ Keeps db (Labeling.step H definitions db c) ∧
      ∀ k, statusOf (Labeling.step H definitions db c) k = statusOf db k ∨
        (statusOf db k = none ∧ statusOf (Labeling.step H definitions db c) k = some .pending) := by
  have hstored : ∀ {status : PredictionStatus} {predictionId : PyStr} {targets : List TargetDraft} {d d' : Db},
      d.targets = db.targets → d.results = db.results → StoredAs status predictionId targets d d' →
      d'.results = db.results ∧ Keeps db d' ∧
        ∀ k, statusOf d' k = statusOf db k ∨ (statusOf db k = none ∧ statusOf d' k = some .pending) := by
    intro status predictionId targets d d' htargets hresults h
    cases status with
    | accepted =>
      obtain ⟨hkept, hstatus⟩ := stored_status h
      unfold Keeps statusOf at *
      rw [htargets] at hkept hstatus
      exact ⟨h.results.trans hresults, fun k t hget => ⟨t, hkept k t hget, rfl⟩, hstatus⟩
    | invalid =>
      have hsame : d' = d := h
      subst hsame
      unfold Keeps statusOf
      rw [htargets]
      exact ⟨hresults, fun k t hget => ⟨t, hget, rfl⟩, fun k => .inl rfl⟩
  rcases step_effect H definitions db c with hstep | ⟨targets, status, payloadSha256, leaf, parseError, -, -, -,
    ⟨predictions, -, -, hafter⟩ | ⟨stored, -, -, hafter⟩⟩
  · rw [hstep]
    exact ⟨rfl, Keeps.refl db, fun k => .inl rfl⟩
  · exact hstored (d := { db with predictions }) rfl rfl hafter
  · exact hstored rfl rfl hafter

/-- what a step does to the targets, the results and the leases -/
inductive Effect (s : St) (o : Op) (s' : St) : Prop where
  /-- nothing, or pending targets that are new -/
  | idle (status : ∀ k, statusOf s'.db k = statusOf s.db k ∨ (statusOf s.db k = none ∧ statusOf s'.db k = some .pending))
      (results : s'.db.results = s.db.results) (leases : s'.leases = s.leases) (returned : s'.returned = s.returned)
  /-- a claim commits -/
  | leased (ids : List PyStr) (token : ℕ) (expiresAt : ℤ) (nodup : ids.Nodup) (fresh : ∀ l ∈ s.leases, l.token ≠ token)
      (found : ∀ k ∈ ids, (statusOf s.db k).isSome = true)
      (free : StillClaimable s o → ∀ k ∈ ids, ∀ st, statusOf s.db k = some st → claimable s.now st = true)
      (status : ∀ k, statusOf s'.db k = if k ∈ ids then some (.leased token expiresAt) else statusOf s.db k)
      (results : s'.db.results = s.db.results)
      (leases : s'.leases = ids.map (fun k => ⟨k, token, expiresAt⟩) ++ s.leases) (returned : s'.returned = s.returned)
  /-- the worker that holds the lease completes the target -/
  | completed (k : PyStr) (token : ℕ) (expiresAt : ℤ) (observationId : Option PyStr) (result : ScoreResult)
      (held : statusOf s.db k = some (.leased token expiresAt))
      (status : ∀ k', statusOf s'.db k' = if k' = k then some (targetStatus result.status) else statusOf s.db k')
      (results : s'.db.results = s.db.results ++ [⟨k, observationId, result⟩]) (leases : s'.leases = s.leases)
      (returned : s'.returned = (k, token) :: s.returned)
  /-- the worker that holds the lease puts the target back -/
  | retried (k : PyStr) (token : ℕ) (expiresAt : ℤ) (held : statusOf s.db k = some (.leased token expiresAt))
      (status : ∀ k', statusOf s'.db k' = if k' = k then some .pending else statusOf s.db k')
      (results : s'.db.results = s.db.results) (leases : s'.leases = s.leases)
      (returned : s'.returned = (k, token) :: s.returned)
  /-- an override of a target that is not leased -/
  | overridden (k : PyStr) (old new : TargetStatus) (result : ScoreResult) (source : result.source ≠ .automatic)
      (found : statusOf s.db k = some old) (free : old.isLeased = false)
      (entered : new = targetStatus result.status ∨ (new = old ∧ old.terminal = true))
      (status : ∀ k', statusOf s'.db k' = if k' = k then some new else statusOf s.db k')
      (results : s'.db.results = s.db.results ++ [⟨k, none, result⟩]) (leases : s'.leases = s.leases)
      (returned : s'.returned = s.returned)

theorem statusOf_update (c : Claim) (busy : List PyStr) (db : Db) (k : PyStr) : statusOf (c.update busy db) k =
      if k ∈ (c.locked db busy).map TargetRow.id then some (.leased c.token c.expiresAt) else statusOf db k := by
  refine (statusOf_onTargets _ (leaseRow c.token c.expiresAt) (fun _ => rfl) db k).trans ?_
  split_ifs with hk
  · obtain ⟨t, ht, rfl⟩ := mem_map.1 hk
    have hfound : (db.targets.get? t.id).isSome := by
      have hfiltered := (take_sublist _ _).subset ht
      have hboth := (mem_filter.1 hfiltered).2
      rw [Bool.and_eq_true] at hboth
      exact hboth.2
    obtain ⟨row, hrow⟩ := Option.isSome_iff_exists.1 hfound
    rw [hrow]
    rfl
  · rfl

/-- what is known of a claim in flight -/
structure ClaimOk (s : St) (c : Claim) : Prop where
  token : c.token < s.nextToken
  unused : ∀ l ∈ s.leases, l.token ≠ c.token
  ids : (c.due.map TargetRow.id).Nodup
  orgs : ∀ t ∈ c.due, ∃ row, s.db.targets.get? t.id = some row ∧ row.orgId = t.orgId
  bound : ∀ o, (c.due.countP (fun t => t.orgId = o) : ℤ) ≤ c.maxPerOrg
  positive : 0 < c.limit

/-- the claims in flight have tokens of their own -/
structure Claims (s : St) : Prop where
  ok : ∀ c ∈ s.claims, ClaimOk s c
  apart : (s.claims.map Claim.token).Nodup
  tokens : ∀ l ∈ s.leases, l.token < s.nextToken

variable {s : St}

/-- **What a step can do.** -/
theorem step_effects (h : Claims s) (o : Op) :
    Effect s o (step H definitions s o) ∧ Keeps s.db (step H definitions s o).db := by
  cases o with
  | tick _ | abort _ => exact ⟨.idle (fun _ => .inl rfl) rfl rfl rfl, Keeps.refl _⟩
  | insert c =>
    obtain ⟨hresults, hkeeps, hstatus⟩ := insert_status H definitions s.db c
    exact ⟨.idle hstatus hresults rfl rfl, hkeeps⟩
  | claim limit maxPerOrg leaseSeconds =>
    rw [step]
    split_ifs <;> exact ⟨.idle (fun _ => .inl rfl) rfl rfl rfl, Keeps.refl _⟩
  | commit i busy =>
    rw [step]
    cases hc : s.claims[i]? with
    | none => exact ⟨.idle (fun _ => .inl rfl) rfl rfl rfl, Keeps.refl _⟩
    | some c =>
      have hok := h.ok c (mem_of_getElem? hc)
      refine ⟨.leased ((c.locked s.db busy).map TargetRow.id) c.token c.expiresAt ?_ hok.unused ?_ ?_
        (statusOf_update c busy s.db) rfl (by rw [map_map]; rfl) rfl,
        keeps_onTargets _ (f := leaseRow c.token c.expiresAt) (fun _ => rfl) (fun _ => rfl) s.db⟩
      · exact hok.ids.sublist ((locked_sublist c s.db busy).map TargetRow.id)
      · intro k hk
        obtain ⟨t, ht, rfl⟩ := mem_map.1 hk
        obtain ⟨row, hrow, -⟩ := hok.orgs t ((locked_sublist c s.db busy).subset ht)
        rw [statusOf, hrow]
        rfl
      · intro hfree k hk st hst
        obtain ⟨t, ht, rfl⟩ := mem_map.1 hk
        obtain ⟨row, hrow, rfl⟩ := Option.map_eq_some_iff.1 hst
        exact hfree c hc t ht row hrow
  | complete targetId token result observationId =>
    rw [step]
    rcases completeTarget_cases targetId token result observationId s.db with ⟨r, hr, hcommit⟩ | ⟨⟨e, hheld⟩, hcommit⟩
    · rw [hcommit]
      unfold giveBack
      split
      · next heq => exact absurd heq hr
      · exact ⟨.idle (fun _ => .inl rfl) rfl rfl rfl, Keeps.refl _⟩
    · rw [hcommit]
      exact ⟨.completed targetId token e observationId result hheld
        (statusOf_one (f := finishRow result) (fun _ => rfl) (fun _ => rfl) hheld) rfl rfl rfl,
        keeps_onTargets [targetId] (f := finishRow result) (fun _ => rfl) (fun _ => rfl) s.db⟩
  | retry targetId token error delaySeconds =>
    rw [step]
    rcases retryTarget_cases s.now targetId token error delaySeconds s.db with hcommit | ⟨⟨e, hheld⟩, hcommit⟩
    · rw [hcommit]
      exact ⟨.idle (fun _ => .inl rfl) rfl rfl rfl, Keeps.refl _⟩
    · rw [hcommit]
      exact ⟨.retried targetId token e hheld
        (statusOf_one (f := retryRow (s.now + max 1 (min delaySeconds 86400) * 1000000) (error.take 2000)) (fun _ => rfl)
          (fun _ => rfl) hheld) rfl rfl rfl,
        keeps_onTargets [targetId] (f := retryRow _ (error.take 2000)) (fun _ => rfl) (fun _ => rfl) s.db⟩
  | override targetId orgId result =>
    rw [step]
    rcases overrideLabelingResult_cases targetId orgId result s.db with hsame |
      ⟨old, new, hsource, hfound, hfree, hentered, hstatus, hresults, hkeeps⟩
    · rw [hsame]
      exact ⟨.idle (fun _ => .inl rfl) rfl rfl rfl, Keeps.refl _⟩
    · exact ⟨.overridden targetId old new result hsource hfound hfree hentered hstatus hresults rfl rfl, hkeeps⟩

theorem step_now (s : St) (o : Op) : s.now ≤ (step H definitions s o).now := by
  cases o with
  | tick micros =>
    show s.now ≤ s.now + micros
    omega
  | insert _ | abort _ | override _ _ _ => exact le_rfl
  | claim limit maxPerOrg leaseSeconds =>
    rw [step]
    split_ifs <;> exact le_rfl
  | commit i busy =>
    rw [step]
    cases s.claims[i]? <;> exact le_rfl
  | complete _ _ _ _ | retry _ _ _ _ =>
    rw [step, giveBack]
    split <;> exact le_rfl

variable {s' : St} {db : Db} {k : PyStr} {l : Lease}

theorem Claims.keep (h : Claims s) (hclaims : s'.claims = s.claims) (hleases : s'.leases = s.leases)
    (hnext : s'.nextToken = s.nextToken) (hkeeps : Keeps s.db s'.db) : Claims s' := by
  refine ⟨fun c hc => ?_, by rw [hclaims]; exact h.apart, by rw [hleases, hnext]; exact h.tokens⟩
  rw [hclaims] at hc
  obtain ⟨htoken, hunused, hids, horgs, hbound, hpositive⟩ := h.ok c hc
  refine ⟨by rw [hnext]; exact htoken, by rw [hleases]; exact hunused, hids, fun t ht => ?_, hbound, hpositive⟩
  obtain ⟨row, hrow, horg⟩ := horgs t ht
  obtain ⟨row', hrow', horg'⟩ := hkeeps t.id row hrow
  exact ⟨row', hrow', horg'.trans horg⟩

theorem giveBack_same (s : St) (targetId : PyStr) (token : ℕ) (r : Except Exc Bool × Db) :
    (giveBack s targetId token r).claims = s.claims ∧ (giveBack s targetId token r).leases = s.leases ∧
      (giveBack s targetId token r).nextToken = s.nextToken := by
  unfold giveBack
  split <;> exact ⟨rfl, rfl, rfl⟩

theorem claims_step (h : Claims s) (o : Op) : Claims (step H definitions s o) := by
  have hkeeps := (step_effects H definitions h o).2
  cases o with
  | tick _ | insert _ | override _ _ _ => exact h.keep rfl rfl rfl hkeeps
  | claim limit maxPerOrg leaseSeconds =>
    rw [step]
    split_ifs with hrefused
    · exact h
    · rw [not_or, not_or] at hrefused
      refine ⟨fun c hc => ?_, ?_, fun l hl => Nat.lt_succ_of_lt (h.tokens l hl)⟩
      · rcases mem_append.1 hc with hc | hc
        · obtain ⟨htoken, hunused, hids, horgs, hbound, hpositive⟩ := h.ok c hc
          exact ⟨Nat.lt_succ_of_lt htoken, hunused, hids, horgs, hbound, hpositive⟩
        · rw [mem_singleton.1 hc]
          refine ⟨Nat.lt_succ_self _, fun l hl => ne_of_lt (h.tokens l hl), ranked_nodup _ _ _, fun t ht => ?_,
            ranked_bound (not_le.1 hrefused.2.1) s.db, not_le.1 hrefused.1⟩
          exact ⟨t, Table.get?_of_mem (ranked_subset ht), rfl⟩
      · rw [map_append]
        refine List.Nodup.append h.apart (nodup_singleton _) ?_
        intro token htoken hnew
        obtain ⟨c, hc, rfl⟩ := mem_map.1 htoken
        rw [map_singleton, mem_singleton] at hnew
        have hlt := (h.ok c hc).token
        rw [hnew] at hlt
        exact absurd hlt (lt_irrefl _)
  | commit i busy =>
    rw [step] at hkeeps ⊢
    cases hc : s.claims[i]? with
    | none => exact h
    | some c =>
      rw [hc] at hkeeps
      have hok := h.ok c (mem_of_getElem? hc)
      -- the other claims have other tokens
      have hother : ∀ c' ∈ s.claims.eraseIdx i, c'.token ≠ c.token := by
        intro c' hc' heq
        have happart := h.apart
        obtain ⟨hi, hget⟩ := List.getElem?_eq_some_iff.1 hc
        obtain ⟨j, hj, hji, rfl⟩ := mem_eraseIdx_iff_getElem.1 hc'
        rw [← hget] at heq
        rw [nodup_iff_injective_getElem] at happart
        have hsame : (⟨j, by simpa using hj⟩ : Fin (s.claims.map Claim.token).length) = ⟨i, by simpa using hi⟩ := by
          apply happart
          simpa using heq
        exact hji (Fin.mk.inj hsame)
      refine ⟨fun c' hc' => ?_, h.apart.sublist ((eraseIdx_sublist s.claims i).map Claim.token), ?_⟩
      · obtain ⟨htoken, hunused, hids, horgs, hbound, hpositive⟩ := h.ok c' (mem_of_mem_eraseIdx hc')
        refine ⟨htoken, fun l hl => ?_, hids, fun t ht => ?_, hbound, hpositive⟩
        · rcases mem_append.1 hl with hl | hl
          · obtain ⟨t, -, rfl⟩ := mem_map.1 hl
            exact (hother c' hc').symm
          · exact hunused l hl
        · obtain ⟨row, hrow, horg⟩ := horgs t ht
          obtain ⟨row', hrow', horg'⟩ := hkeeps t.id row hrow
          exact ⟨row', hrow', horg'.trans horg⟩
      · intro l hl
        rcases mem_append.1 hl with hl | hl
        · obtain ⟨t, -, rfl⟩ := mem_map.1 hl
          exact hok.token
        · exact h.tokens l hl
  | abort i =>
    refine ⟨fun c hc => ?_, h.apart.sublist ((eraseIdx_sublist s.claims i).map Claim.token), h.tokens⟩
    obtain ⟨htoken, hunused, hids, horgs, hbound, hpositive⟩ := h.ok c (mem_of_mem_eraseIdx hc)
    exact ⟨htoken, hunused, hids, horgs, hbound, hpositive⟩
  | complete targetId token result observationId =>
    obtain ⟨hclaims, hleases, hnext⟩ := giveBack_same s targetId token
      (commit (completeTarget targetId token result observationId) s.db)
    exact h.keep hclaims hleases hnext hkeeps
  | retry targetId token error delaySeconds =>
    obtain ⟨hclaims, hleases, hnext⟩ := giveBack_same s targetId token
      (commit (retryTarget s.now targetId token error delaySeconds) s.db)
    exact h.keep hclaims hleases hnext hkeeps

/-! ## What every run keeps -/

/-- the target has a terminal status -/
def closed (db : Db) (k : PyStr) : Bool := (statusOf db k).any TargetStatus.terminal

structure Inv (s : St) : Prop where
  claims : Claims s
  live : ∀ l ∈ s.leases, Live s l → statusOf s.db l.targetId = some (.leased l.token l.expiresAt)
  distinct : (s.leases.map (fun l => (l.targetId, l.token))).Nodup
  current : ∀ k token e, statusOf s.db k = some (.leased token e) → latest s k = some ⟨k, token, e⟩
  single : ∀ k, automatic s.db k ≤ 1 ∧ (closed s.db k = false → automatic s.db k = 0)
  stored : ∀ k, closed s.db k = true → ∃ r ∈ s.db.results, r.targetId = k

theorem inv_init (now : ℤ) : Inv (init now) where
  claims := ⟨fun _ h => absurd h not_mem_nil, nodup_nil, fun _ h => absurd h not_mem_nil⟩
  live _ h := absurd h not_mem_nil
  distinct := nodup_nil
  current _ _ _ h := by cases h
  single _ := ⟨Nat.zero_le 1, fun _ => rfl⟩
  stored _ h := by cases h

theorem find?_leased (ids : List PyStr) (token : ℕ) (expiresAt : ℤ) (k : PyStr) :
    (ids.map (fun i => (⟨i, token, expiresAt⟩ : Lease))).find? (fun l => l.targetId = k) =
      if k ∈ ids then some ⟨k, token, expiresAt⟩ else none := by
  induction ids with
  | nil => rfl
  | cons i ids ih =>
    rw [map_cons, find?_cons]
    by_cases hi : i = k
    · simp [hi]
    · simp [hi, ih, Ne.symm hi]

theorem automatic_append (db db' : Db) (r : ResultRow) (h : db'.results = db.results ++ [r]) (k : PyStr) :
    automatic db' k = automatic db k + if r.targetId = k ∧ r.result.source = .automatic then 1 else 0 := by
  rw [automatic, h, countP_append, countP_singleton]
  simp only [Bool.and_eq_true, decide_eq_true_eq]
  rfl

theorem targetStatus_terminal (st : ScoreStatus) : (targetStatus st).terminal := by
  cases st <;> rfl

theorem closed_set {db' : Db} {new : TargetStatus}
    (h : ∀ k', statusOf db' k' = if k' = k then some new else statusOf db k') (k' : PyStr) :
    closed db' k' = if k' = k then new.terminal else closed db k' := by
  rw [closed, h k']
  split_ifs <;> rfl

variable {H definitions}

theorem live_of_kept (h : Inv s) (hnow : s.now ≤ s'.now) (hleases : s'.leases = s.leases)
    (hreturned : ∀ x ∈ s.returned, x ∈ s'.returned) (hl : l ∈ s'.leases) (hlive : Live s' l) :
    statusOf s.db l.targetId = some (.leased l.token l.expiresAt) := by
  rw [hleases] at hl
  exact h.live l hl ⟨fun hmem => hlive.1 (hreturned _ hmem), lt_of_le_of_lt hnow hlive.2⟩

theorem live_of_returned {expiresAt : ℤ} (h : Inv s) (hnow : s.now ≤ s'.now)
    (hheld : statusOf s.db k = some (.leased token expiresAt)) (hleases : s'.leases = s.leases)
    (hreturned : s'.returned = (k, token) :: s.returned) (hl : l ∈ s'.leases) (hlive : Live s' l) :
    statusOf s.db l.targetId = some (.leased l.token l.expiresAt) ∧ l.targetId ≠ k := by
  have hold := live_of_kept h hnow hleases (fun x hx => by rw [hreturned]; exact mem_cons_of_mem _ hx) hl hlive
  refine ⟨hold, fun heq => ?_⟩
  rw [heq, hheld] at hold
  obtain ⟨htoken, -⟩ := TargetStatus.leased.inj (Option.some.inj hold)
  refine hlive.1 ?_
  rw [hreturned, heq, htoken]
  exact mem_cons_self

/-- one row gets a status that is no lease, and the results `rs` -/
theorem Inv.set {new : TargetStatus} {rs : List ResultRow} (h : Inv s) (hclaims : Claims s')
    (status : ∀ k', statusOf s'.db k' = if k' = k then some new else statusOf s.db k')
    (results : s'.db.results = s.db.results ++ rs) (leases : s'.leases = s.leases)
    (hlive : ∀ l ∈ s'.leases, Live s' l → statusOf s.db l.targetId = some (.leased l.token l.expiresAt) ∧ l.targetId ≠ k)
    (hnew : new.isLeased = false) (hrs : ∀ r ∈ rs, r.targetId = k)
    (hsingle : automatic s'.db k ≤ 1 ∧ (new.terminal = false → automatic s'.db k = 0)) (hstored : new.terminal → rs ≠ []) :
    Inv s' := by
  have hclosed := closed_set status
  refine ⟨hclaims, fun l hl hl' => ?_, by rw [leases]; exact h.distinct, fun k' token e hk => ?_, fun k' => ?_,
    fun k' hk => ?_⟩
  · obtain ⟨hold, hne⟩ := hlive l hl hl'
    rw [status, if_neg hne]
    exact hold
  · rw [latest, leases]
    rw [status] at hk
    split_ifs at hk
    · rw [Option.some.inj hk] at hnew
      cases hnew
    · exact h.current k' token e hk
  · rw [hclosed]
    by_cases hsame : k' = k
    · subst hsame
      rw [if_pos rfl]
      exact hsingle
    · have hother : rs.countP (fun r => r.targetId = k' && r.result.source = .automatic) = 0 :=
        countP_eq_zero.2 (fun r hr => by simp [hrs r hr, Ne.symm hsame])
      rw [if_neg hsame, automatic, results, countP_append, hother]
      exact h.single k'
  · rw [results]
    rw [hclosed] at hk
    split_ifs at hk with hsame
    · obtain ⟨r, hr⟩ := exists_mem_of_ne_nil rs (hstored hk)
      exact ⟨r, mem_append_right _ hr, (hrs r hr).trans hsame.symm⟩
    · obtain ⟨r, hr, htarget⟩ := h.stored k' hk
      exact ⟨r, mem_append_left _ hr, htarget⟩

/-- **Step.** When every row a claim locks is still claimable. -/
theorem inv_step (h : Inv s) {o : Op} (hclaimable : StillClaimable s o) : Inv (step H definitions s o) := by
  have hclaims := claims_step H definitions h.claims o
  have hnow := step_now H definitions s o
  obtain ⟨heffect, -⟩ := step_effects H definitions h.claims o
  generalize step H definitions s o = s' at heffect hclaims hnow ⊢
  cases heffect with
  | idle status results leases returned =>
    have hleased : ∀ k token e, statusOf s'.db k = some (.leased token e) → statusOf s.db k = some (.leased token e) := by
      intro k token e hk
      rcases status k with hsame | ⟨-, hnew⟩
      · exact hsame ▸ hk
      · rw [hnew] at hk
        cases hk
    have hclosed : ∀ k, closed s'.db k = closed s.db k := by
      intro k
      unfold closed
      rcases status k with hsame | ⟨hnone, hnew⟩
      · rw [hsame]
      · rw [hnone, hnew]
        rfl
    have hautomatic : ∀ k, automatic s'.db k = automatic s.db k := by
      intro k
      rw [automatic, results, automatic]
    refine ⟨hclaims, fun l hl hlive => ?_, by rw [leases]; exact h.distinct, fun k token e hk => ?_, fun k => ?_, fun k hk => ?_⟩
    · have hold := live_of_kept h hnow leases (fun x hx => by rw [returned]; exact hx) hl hlive
      rcases status l.targetId with hsame | ⟨hnone, -⟩
      · rw [hsame]
        exact hold
      · rw [hnone] at hold
        cases hold
    · rw [latest, leases]
      exact h.current k token e (hleased k token e hk)
    · rw [hautomatic, hclosed]
      exact h.single k
    · rw [hclosed] at hk
      rw [results]
      exact h.stored k hk
  | leased ids token expiresAt nodup fresh found free status results leases returned =>
    have hfree := free hclaimable
    have hautomatic : ∀ k, automatic s'.db k = automatic s.db k := by
      intro k
      rw [automatic, results, automatic]
    have hclosed : ∀ k, closed s'.db k = if k ∈ ids then false else closed s.db k := by
      intro k
      rw [closed, status k]
      split_ifs <;> rfl
    have hopen : ∀ k ∈ ids, closed s.db k = false := by
      intro k hk
      obtain ⟨st, hst⟩ := Option.isSome_iff_exists.1 (found k hk)
      have hclaim := hfree k hk st hst
      rw [closed, hst, Option.any_some]
      cases st with
      | pending => rfl
      | leased held e => rfl
      | scored | unavailable | invalid => cases hclaim
    refine ⟨hclaims, fun l hl hlive => ?_, ?_, fun k held e hk => ?_, fun k => ?_, fun k hk => ?_⟩
    · rw [leases] at hl
      rw [status l.targetId]
      rcases mem_append.1 hl with hl | hl
      · obtain ⟨k, hk, rfl⟩ := mem_map.1 hl
        exact if_pos hk
      · have hold := h.live l hl ⟨fun hmem => hlive.1 (by rw [returned]; exact hmem), lt_of_le_of_lt hnow hlive.2⟩
        have hnot : l.targetId ∉ ids := by
          intro hk
          -- the row would have been claimed under a lease that has not expired
          have hexpired := hfree l.targetId hk _ hold
          rw [claimable, decide_eq_true_eq] at hexpired
          exact absurd (lt_of_le_of_lt (hexpired.trans hnow) hlive.2) (lt_irrefl _)
        rw [if_neg hnot]
        exact hold
    · rw [leases, map_append, map_map]
      refine List.Nodup.append ?_ h.distinct ?_
      · exact nodup.map (fun a b hab => congrArg Prod.fst hab)
      · intro x hx hx'
        obtain ⟨k, -, rfl⟩ := mem_map.1 hx
        obtain ⟨l, hl, hsame⟩ := mem_map.1 hx'
        exact fresh l hl (congrArg Prod.snd hsame)
    · rw [latest, leases, find?_append, find?_leased]
      rw [status k] at hk
      split_ifs at hk ⊢ with hmem
      · obtain ⟨rfl, rfl⟩ := TargetStatus.leased.inj (Option.some.inj hk)
        rfl
      · exact h.current k held e hk
    · rw [hautomatic, hclosed]
      refine ⟨(h.single k).1, fun hk => ?_⟩
      split_ifs at hk with hmem
      · exact (h.single k).2 (hopen k hmem)
      · exact (h.single k).2 hk
    · rw [hclosed] at hk
      rw [results]
      split_ifs at hk
      exact h.stored k hk
  | completed k token expiresAt observationId result held status results leases returned =>
    have hopen : closed s.db k = false := by rw [closed, held]; rfl
    refine h.set hclaims status results leases (fun l hl hlive => live_of_returned h hnow held leases returned hl hlive) ?_
      (by simp) ⟨?_, ?_⟩ (by simp)
    · cases result.status <;> rfl
    · rw [automatic_append _ _ _ results, (h.single k).2 hopen]
      split_ifs <;> omega
    · rw [targetStatus_terminal]
      nofun
  | retried k token expiresAt held status results leases returned =>
    refine h.set hclaims status (results.trans (append_nil _).symm) leases
      (fun l hl hlive => live_of_returned h hnow held leases returned hl hlive) rfl (by simp) ?_ nofun
    rw [automatic, results]
    exact ⟨(h.single k).1, fun _ => (h.single k).2 (by rw [closed, held]; rfl)⟩
  | overridden k old new result source found free entered status results leases returned =>
    have hterminal : new.terminal := by
      rcases entered with rfl | ⟨rfl, hold⟩
      · exact targetStatus_terminal result.status
      · exact hold
    refine h.set hclaims status results leases (fun l hl hlive => ?_) ?_ (by simp) ⟨?_, ?_⟩ (by simp)
    · have hold := live_of_kept h hnow leases (fun x hx => by rw [returned]; exact hx) hl hlive
      refine ⟨hold, fun heq => ?_⟩
      rw [heq, found] at hold
      rw [Option.some.inj hold] at free
      cases free
    · cases new with
      | leased => cases hterminal
      | _ => rfl
    · rw [automatic_append _ _ _ results, if_neg (fun hboth => source hboth.2)]
      exact (h.single k).1
    · rw [hterminal]
      nofun

theorem exclusive_of_inv (h : Inv s) : Exclusive s := by
  intro l hl l' hl' htarget hlive hlive'
  have hstatus := h.live l hl hlive
  rw [htarget, h.live l' hl' hlive'] at hstatus
  obtain ⟨htoken, hexpires⟩ := TargetStatus.leased.inj (Option.some.inj hstatus)
  obtain ⟨targetId, token, expiresAt⟩ := l
  obtain ⟨targetId', token', expiresAt'⟩ := l'
  simp only at htarget htoken hexpires
  rw [htarget, htoken, hexpires]

/-- **Taken over.** A worker whose target was leased again since holds no lease. -/
theorem taken_over_idle (h : Inv s) (hl : l ∈ s.leases) (hlater : latest s l.targetId ≠ some l) :
    holdsLease s.db l.targetId l.token = false := by
  rw [← Bool.not_eq_true, holdsLease_iff]
  rintro ⟨e, hstatus⟩
  have hlatest := h.current l.targetId l.token e hstatus
  have hmem : (⟨l.targetId, l.token, e⟩ : Lease) ∈ s.leases := mem_of_find?_eq_some hlatest
  have hsame : (⟨l.targetId, l.token, e⟩ : Lease) = l := inj_on_of_nodup_map h.distinct hmem hl rfl
  rw [hsame] at hlatest
  exact hlater hlatest

theorem completeTarget_idle (h : holdsLease db targetId token = false) (result : ScoreResult)
    (observationId : Option PyStr) : commit (completeTarget targetId token result observationId) db = (.ok false, db) := by
  simp [commit, completeTarget, bind_run, read_run, pure_run, h]

theorem retryTarget_idle (h : holdsLease db targetId token = false) (now : ℤ) (error : PyStr) (delaySeconds : ℤ) :
    commit (retryTarget now targetId token error delaySeconds) db = (.ok false, db) := by
  simp [commit, retryTarget, bind_run, read_run, pure_run, h]

/-- **Committed targets.** An override of a target that is not terminal yet changes nothing. -/
theorem override_committed {orgId : PyStr} {target : TargetRow}
    (h : targetOf db targetId orgId = some (target, prediction)) (hcommitted : prediction.committed)
    (hopen : target.status.terminal = false) (result : ScoreResult) :
    commit (appendResultOverride targetId orgId result) db = (.ok false, db) := by
  have hrefused : target.status.isLeased ∨ target.status = .pending := by
    cases hst : target.status with
    | pending => exact .inr rfl
    | leased token e => exact .inl rfl
    | scored | unavailable | invalid =>
      rw [hst] at hopen
      cases hopen
  simp only [commit, appendResultOverride, bind_run, read_run, id_eq, h]
  rcases hrefused with hleased | hpending
  · rw [if_pos hleased]
    rfl
  · rw [if_neg (by rw [hpending]; decide), if_pos ⟨hcommitted, hpending⟩]
    rfl

theorem countP_returning {o : PyStr} {rows : List TargetRow}
    (h : ∀ t ∈ rows, ∀ row, db.targets.get? t.id = some row → row.orgId = t.orgId) :
    (rows.filterMap (fun t => db.targets.get? t.id)).countP (fun t => t.orgId = o) ≤ rows.countP (fun t => t.orgId = o) := by
  induction rows with
  | nil => exact le_rfl
  | cons t rows ih =>
    have hrest := ih (fun u hu => h u (mem_cons_of_mem _ hu))
    rw [filterMap_cons, countP_cons]
    cases hget : db.targets.get? t.id with
    | none => exact le_add_right hrest
    | some row =>
      have horg := h t mem_cons_self row hget
      simp only [countP_cons, horg]
      exact Nat.add_le_add_right hrest _

/-- **Caps.** -/
theorem claim_bounds (h : Claims s) {c : Claim} (hc : c ∈ s.claims) (busy : List PyStr) :
    ((c.returning s.db busy).length : ℤ) ≤ c.limit ∧
      ∀ o, ((c.returning s.db busy).countP (fun t => t.orgId = o) : ℤ) ≤ c.maxPerOrg := by
  obtain ⟨-, -, -, horgs, hbound, hpositive⟩ := h.ok c hc
  constructor
  · have hfilter : (c.returning s.db busy).length ≤ (c.locked s.db busy).length := length_filterMap_le _ _
    have htake : (c.locked s.db busy).length ≤ c.limit.toNat := length_take_le _ _
    omega
  · intro o
    have hsnapshot : ∀ t ∈ c.locked s.db busy, ∀ row, (c.update busy s.db).targets.get? t.id = some row →
        row.orgId = t.orgId := by
      intro t ht row hrow
      obtain ⟨old, hold, horg⟩ := horgs t ((locked_sublist c s.db busy).subset ht)
      obtain ⟨row', hrow', horg'⟩ := keeps_onTargets ((c.locked s.db busy).map TargetRow.id)
        (f := leaseRow c.token c.expiresAt) (fun _ => rfl) (fun _ => rfl) s.db t.id old hold
      have hsame : row = row' := Option.some.inj (hrow.symm.trans hrow')
      rw [hsame, horg', horg]
    have hcount := countP_returning (o := o) hsnapshot
    have hlocked := (locked_sublist c s.db busy).countP_le (p := fun t => decide (t.orgId = o))
    have hcap := hbound o
    unfold Claim.returning
    omega

/-- **Entering.** A target gets a terminal status together with a result of that status. -/
theorem terminal_step (h : Claims s) (o : Op) {st : TargetStatus} (hterminal : st.terminal)
    (hold : statusOf s.db k ≠ some st) (hnew : statusOf (step H definitions s o).db k = some st) :
    ∃ r, (step H definitions s o).db.results = s.db.results ++ [r] ∧ r.targetId = k ∧ st = targetStatus r.result.status := by
  obtain ⟨heffect, -⟩ := step_effects H definitions h o
  cases heffect with
  | idle status results leases returned =>
    rcases status k with hsame | ⟨-, hpending⟩
    · exact absurd (hsame ▸ hnew) hold
    · rw [hpending] at hnew
      rw [← Option.some.inj hnew] at hterminal
      cases hterminal
  | leased ids token expiresAt nodup fresh found free status results leases returned =>
    rw [status] at hnew
    split_ifs at hnew
    · rw [← Option.some.inj hnew] at hterminal
      cases hterminal
    · exact absurd hnew hold
  | completed k' token expiresAt observationId result held status results leases returned =>
    rw [status] at hnew
    split_ifs at hnew with hsame
    · exact ⟨_, results, hsame.symm, (Option.some.inj hnew).symm⟩
    · exact absurd hnew hold
  | retried k' token expiresAt held status results leases returned =>
    rw [status] at hnew
    split_ifs at hnew
    · rw [← Option.some.inj hnew] at hterminal
      cases hterminal
    · exact absurd hnew hold
  | overridden k' old new result source found free entered status results leases returned =>
    rw [status] at hnew
    split_ifs at hnew with hsame
    · rcases entered with rfl | ⟨rfl, -⟩
      · exact ⟨_, results, hsame.symm, (Option.some.inj hnew).symm⟩
      · rw [hsame, found] at hold
        exact absurd hnew hold
    · exact absurd hnew hold

variable (H definitions)

/-- **Scoring leases.** In every run that claims only rows that are still claimable: no target is held under two unexpired
leases or gets two automatic results; a terminal target has a result, and became terminal with one; a worker whose lease was
taken over changes nothing; claims keep to their caps; and overrides leave the open targets of committed predictions alone. -/
theorem leases_exclusive (now : ℤ) (ops : List Op) (hlegal : Runs.Legal (step H definitions) StillClaimable (init now) ops) :
    Exclusive (run H definitions (init now) ops) ∧
    (∀ k, automatic (run H definitions (init now) ops).db k ≤ 1) ∧
    (∀ k, closed (run H definitions (init now) ops).db k = true →
      ∃ r ∈ (run H definitions (init now) ops).db.results, r.targetId = k) ∧
    (∀ o k st, st.terminal = true → statusOf (run H definitions (init now) ops).db k ≠ some st →
      statusOf (run H definitions (init now) (ops ++ [o])).db k = some st →
      ∃ r, (run H definitions (init now) (ops ++ [o])).db.results = (run H definitions (init now) ops).db.results ++ [r] ∧
        r.targetId = k ∧ st = targetStatus r.result.status) ∧
    (∀ l ∈ (run H definitions (init now) ops).leases, latest (run H definitions (init now) ops) l.targetId ≠ some l →
      (∀ result observationId, Tx.commit (completeTarget l.targetId l.token result observationId)
        (run H definitions (init now) ops).db = (.ok false, (run H definitions (init now) ops).db)) ∧
      ∀ error delaySeconds, Tx.commit (retryTarget (run H definitions (init now) ops).now l.targetId l.token error delaySeconds)
        (run H definitions (init now) ops).db = (.ok false, (run H definitions (init now) ops).db)) ∧
    (∀ c ∈ (run H definitions (init now) ops).claims, ∀ busy,
      ((c.returning (run H definitions (init now) ops).db busy).length : ℤ) ≤ c.limit ∧
      ∀ o, ((c.returning (run H definitions (init now) ops).db busy).countP (fun t => t.orgId = o) : ℤ) ≤ c.maxPerOrg) ∧
    (∀ targetId orgId target prediction result,
      targetOf (run H definitions (init now) ops).db targetId orgId = some (target, prediction) →
      prediction.committed = true → target.status.terminal = false →
      Tx.commit (appendResultOverride targetId orgId result) (run H definitions (init now) ops).db =
        (.ok false, (run H definitions (init now) ops).db)) := by
  have hinv : Inv (run H definitions (init now) ops) :=
    Runs.legal_inv (step H definitions) StillClaimable Inv (fun _ _ h hok => inv_step h hok) ops (inv_init now) hlegal
  refine ⟨exclusive_of_inv hinv, fun k => (hinv.single k).1, hinv.stored, fun o k st hterminal => ?_, fun l hl hlater => ?_,
    fun c hc => claim_bounds hinv.claims hc, fun targetId orgId target prediction result htarget hcommitted hopen => ?_⟩
  · unfold run
    rw [Runs.run_snoc]
    exact terminal_step hinv.claims o hterminal
  · have hidle := taken_over_idle hinv hl hlater
    exact ⟨completeTarget_idle hidle, retryTarget_idle hidle _⟩
  · exact override_committed htarget hcommitted hopen result

end System

/-! ## Two workers -/

instance (s : St) (l : Lease) : Decidable (Live s l) := inferInstanceAs (Decidable (_ ∧ _))

instance (s : St) : Decidable (Exclusive s) := inferInstanceAs (Decidable (∀ l ∈ s.leases, ∀ l' ∈ s.leases, _))

instance (s : St) : (o : Op) → Decidable (StillClaimable s o)
  | .commit i busy => inferInstanceAs (Decidable (∀ c ∈ s.claims[i]?, ∀ t ∈ c.locked s.db busy,
      ∀ row ∈ s.db.targets.get? t.id, claimable s.now row.status = true))
  | .tick _ | .insert _ | .claim _ _ _ | .abort _ | .complete _ _ _ _ | .retry _ _ _ _ | .override _ _ _ => .isTrue trivial

/-- the target of the first capture -/
def sampleTarget : PyStr := PyStr.ofString "p10"

/-- a moment after it is due -/
def sampleNow : ℤ := 1736294400000001

def sampleResult : ScoreResult where
  label := PyStr.ofString "up"
  status := .correct
  actual := none
  rationale := []
  source := .automatic

/-- one worker claims the target and scores it; a second one finds nothing -/
def singleRun : List Op :=
  [.insert (sampleCapture "r1" "p1" "a"), .claim 50 10 120, .commit 0 [], .claim 50 10 120,
    .complete sampleTarget 0 sampleResult none, .commit 0 []]

theorem leases_exclusive_single : Exclusive (run tokenSha sampleDefinitions (init sampleNow) singleRun) :=
  (leases_exclusive tokenSha sampleDefinitions sampleNow singleRun (by decide)).1

/-- two workers take their snapshots, and claim one after the other -/
def staleRun : List Op :=
  [.insert (sampleCapture "r1" "p1" "a"), .claim 50 10 120, .claim 50 10 120, .commit 0 [], .commit 0 []]

/-- the first worker scores the target before the second one has locked it -/
def scoredTwice : List Op :=
  [.insert (sampleCapture "r1" "p1" "a"), .claim 50 10 120, .claim 50 10 120, .commit 0 [],
    .complete sampleTarget 0 sampleResult none, .commit 0 [], .complete sampleTarget 1 sampleResult none]

/-- **Stale snapshots.** A target under an unexpired lease is leased again, and a scored one is scored again. -/
theorem claim_stale : ¬ Exclusive (run tokenSha sampleDefinitions (init sampleNow) staleRun) ∧
    automatic (run tokenSha sampleDefinitions (init sampleNow) scoredTwice).db sampleTarget = 2 := by
  decide

end Teardrop.Labeling.Leases
