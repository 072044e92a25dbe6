/-
Event chains (`routers/agent_event_triggers.py`): `dispatch_event`, `_run_event_in_background` and `_dispatch_chain_child` over the
tables of `Scheduling.Dispatch`. A task is a background run between its acceptance and its end, with the trigger as it was when the
task was spawned. Every database call of a task is one step, and between two steps anybody may do anything else: start, renew,
finish, fail, recover and record runs, edit triggers, delete them, drop old keys. A task stops at any point; what its handler then
does to the lease is a transaction of somebody. Run ids are UUIDs: none is drawn twice.
-/
import Teardrop.Core.Locks
import Teardrop.Scheduling.Dispatch

namespace Teardrop.Scheduling.Chains

open Teardrop.Py List List.Subset

/-! ## Model -/

structure Settings where
  eventChainMaxHops : ℕ
  leaseSeconds : ℤ
  eventTriggersMaxConcurrency : ℕ
  eventTriggersMaxConcurrencyPerOrg : ℕ

/-- where a background run stands -/
inductive Phase where
  | spawned
  | running
  /-- `finish_event_dispatch_lease` returned `True` -/
  | finished (result : ScheduledRunResult)
  /-- the target is read, the reservation is not made -/
  | dispatching (result : ScheduledRunResult) (child : ScheduledRun)
  | skipped (result : ScheduledRunResult) (reason : String)

structure Task where
  schedule : ScheduledRun
  runId : String
  chainId : String
  hopIndex : ℕ
  ownerId : String
  phase : Phase

/-- an accepted reservation, and the run whose task made it -/
structure Acceptance where
  reservation : Reservation
  parent : Option String

structure St where
  now : ℤ
  db : Db
  tasks : List Task
  drawn : List String
  accepted : List Acceptance

def init (now : ℤ) : St := ⟨now, emptyDb, [], [], []⟩

inductive Op where
  | tick (micros : ℕ)
  /-- a transaction of anybody, but a reservation -/
  | other (waited : ℕ) (t : Txn)
  | deleteTrigger (scheduleId orgId : String)
  /-- retention: keys without an active lease -/
  | purge (slots : List (String × String))
  | dispatch (waited : ℕ) (schedule : ScheduledRun) (idempotencyKey runId ownerId : String)
  | start (waited i : ℕ)
  | finish (waited i : ℕ) (status : RunStatus) (outputText : String) (costUsdc : ℤ) (error : String)
  | lookup (i : ℕ)
  | reserve (waited i : ℕ) (runId : String)
  | skip (i : ℕ)
  | stop (i : ℕ)

/-- `DELETE FROM scheduled_runs`, with what refers to the row -/
def deleteScheduledRun (scheduleId orgId : String) (db : Db) : Db :=
  if (db.schedules.get? scheduleId).any (fun s => s.orgId = orgId) then
    { db with
      schedules := (db.schedules.filter (fun s => s.id ≠ scheduleId)).update
        (fun s => if s.nextTriggerId = some scheduleId then { s with nextTriggerId := none } else s) (fun s => by split_ifs <;> rfl)
      keys := db.keys.filter (fun k => k.scheduleId ≠ scheduleId)
      leases := db.leases.filter (fun l => l.scheduleId ≠ scheduleId)
      results := db.results.filter (fun r => r.scheduleId ≠ scheduleId) }
  else db

/-- `DELETE FROM event_dispatch_keys`, with the leases that refer to them -/
def purgeKeys (slots : List (String × String)) (db : Db) : Db :=
  let old (slot : String × String) : Bool := slot ∈ slots &&
    !db.leases.rows.any (fun l => (l.scheduleId, l.idempotencyKey) = slot && l.status.active)
  { db with
    keys := db.keys.filter (fun k => !old k.slot)
    leases := db.leases.filter (fun l => !old (l.scheduleId, l.idempotencyKey)) }

def getScheduledRun (db : Db) (scheduleId orgId : String) : Option ScheduledRun :=
  (db.schedules.get? scheduleId).filter (fun s => s.orgId = orgId)

section System

variable (settings : Settings)

/-- the reservation of `dispatch_event` -/
def rootReservation (schedule : ScheduledRun) (idempotencyKey runId ownerId : String) : Reservation where
  scheduleId := schedule.id
  orgId := schedule.orgId
  idempotencyKey := if idempotencyKey = "" then "run:" ++ runId else idempotencyKey
  runId := runId
  ownerId := ownerId
  leaseSeconds := settings.leaseSeconds
  globalLimit := settings.eventTriggersMaxConcurrency
  orgLimit := settings.eventTriggersMaxConcurrencyPerOrg
  chainId := runId
  hopIndex := 0

/-- the reservation of `_dispatch_chain_child` -/
def childReservation (t : Task) (result : ScheduledRunResult) (child : ScheduledRun) (runId : String) : Reservation where
  scheduleId := child.id
  orgId := t.schedule.orgId
  idempotencyKey := "chain:" ++ result.runId
  runId := runId
  ownerId := t.ownerId
  leaseSeconds := settings.leaseSeconds
  globalLimit := settings.eventTriggersMaxConcurrency
  orgLimit := settings.eventTriggersMaxConcurrencyPerOrg
  chainId := t.chainId
  hopIndex := t.hopIndex + 1

/-- `_spawn_event_run` -/
def spawn (schedule : ScheduledRun) (a : Reservation) : Task :=
  ⟨schedule, a.runId, a.chainId, a.hopIndex, a.ownerId, .spawned⟩

/-- what `_dispatch_chain_child` does before its reservation; `none` when it returns at once -/
def nextPhase (t : Task) (result : ScheduledRunResult) (db : Db) : Option Phase :=
  match result.status, t.schedule.nextTriggerId with
  | .completed, some target =>
    if settings.eventChainMaxHops < t.hopIndex + 1 then some (.skipped result "Chain hop limit reached.")
    else
      match getScheduledRun db target t.schedule.orgId with
      | none => some (.skipped result "Chain target unavailable.")
      | some child =>
        if child.orgId ≠ t.schedule.orgId ∨ child.event = false ∨ child.enabled = false then
          some (.skipped result "Chain target unavailable.")
        else some (.dispatching result child)
  | _, _ => none

/-- the reason after a reservation that is not accepted -/
def refusal : Except Exc EventDispatchLeaseResult → String
  | .ok ⟨_, .saturated⟩ => "Chain capacity unavailable."
  | .ok _ => "Chain dispatch already reserved."
  | .error _ => "Chain dispatch failed."

/-- task `i` goes on, or ends -/
def St.proceed (s : St) (i : ℕ) (t : Task) : Option Phase → St
  | some phase => { s with tasks := s.tasks.set i { t with phase := phase } }
  | none => { s with tasks := s.tasks.eraseIdx i }

def step (s : St) : Op → St
  | .tick micros => { s with now := s.now + micros }
  | .other _ (.reserve _) => s
  | .other waited t => { s with db := apply (s.now - waited) s.db t }
  | .deleteTrigger scheduleId orgId => { s with db := deleteScheduledRun scheduleId orgId s.db }
  | .purge slots => { s with db := purgeKeys slots s.db }
  | .dispatch waited schedule idempotencyKey runId ownerId =>
    if runId ∈ s.drawn then s
    else
      let a := rootReservation settings schedule idempotencyKey runId ownerId
      match Tx.commit (Scheduling.reserve (s.now - waited) a) s.db with
      | (.ok ⟨_, .accepted⟩, db) =>
        { s with db := db, drawn := runId :: s.drawn, tasks := s.tasks ++ [spawn schedule a], accepted := s.accepted ++ [⟨a, none⟩] }
      | (_, db) => { s with db := db, drawn := runId :: s.drawn }
  | .start waited i =>
    match s.tasks[i]? with
    | some t =>
      match t.phase with
      | .spawned =>
        let r := Scheduling.start (s.now - waited) t.runId t.ownerId settings.leaseSeconds s.db
        { s with db := r.2 }.proceed i t (if r.1 then some .running else none)
      | _ => s
    | none => s
  | .finish waited i status outputText costUsdc error =>
    match s.tasks[i]? with
    | some t =>
      match t.phase with
      | .running =>
        let result : ScheduledRunResult := ⟨t.schedule.id, t.schedule.orgId, t.runId, status, outputText, costUsdc, error⟩
        let r := Tx.commit (Scheduling.finish (s.now - waited) t.schedule.id t.schedule.orgId t.runId t.ownerId result) s.db
        { s with db := r.2 }.proceed i t (if r.1.toOption = some true then some (.finished result) else none)
      | _ => s
    | none => s
  | .lookup i =>
    match s.tasks[i]? with
    | some t =>
      match t.phase with
      | .finished result => s.proceed i t (nextPhase settings t result s.db)
      | _ => s
    | none => s
  | .reserve waited i runId =>
    match s.tasks[i]? with
    | some t =>
      match t.phase with
      | .dispatching result child =>
        if runId ∈ s.drawn then s
        else
          let a := childReservation settings t result child runId
          match Tx.commit (Scheduling.reserve (s.now - waited) a) s.db with
          | (.ok ⟨_, .accepted⟩, db) =>
            { s with
              db := db, drawn := runId :: s.drawn, tasks := s.tasks.eraseIdx i ++ [spawn child a]
              accepted := s.accepted ++ [⟨a, some result.runId⟩] }
          | (r, db) => { s with db := db, drawn := runId :: s.drawn }.proceed i t (some (.skipped result (refusal r)))
      | _ => s
    | none => s
  | .skip i =>
    match s.tasks[i]? with
    | some t =>
      match t.phase with
      | .skipped result reason =>
        { s with
          db := insertEventRow ⟨t.schedule.id, t.schedule.orgId, result.runId, .chainDispatchSkipped, none, 0, reason⟩ s.db
        }.proceed i t none
      | _ => s
    | none => s
  | .stop i => { s with tasks := s.tasks.eraseIdx i }

def run (s : St) (ops : List Op) : St := Runs.run (step settings) s ops

end System

/-! ## What is claimed -/

/-- the hops accepted for a chain, in the order of acceptance -/
def hops (s : St) (chainId : String) : List ℕ :=
  (s.accepted.filter (fun a => a.reservation.chainId = chainId)).map (fun a => a.reservation.hopIndex)

/-- the runs whose tasks had a child accepted -/
def parents (s : St) : List String := s.accepted.filterMap Acceptance.parent

/-! ## What a step does -/

/-- a task keeps the result of its own run, and goes on only below the hop limit and within its org -/
def Task.Ok (maxHops : ℕ) (t : Task) : Prop :=
  match t.phase with
  | .spawned | .running => True
  | .finished result | .skipped result _ => result.runId = t.runId
  | .dispatching result child => result.runId = t.runId ∧ t.hopIndex + 1 ≤ maxHops ∧ child.orgId = t.schedule.orgId

/-- what a step does to the tasks and the acceptances -/
inductive Effect (settings : Settings) (s s' : St) : Prop where
  | keep (htasks : s'.tasks = s.tasks) (haccepted : s'.accepted = s.accepted) (hdrawn : s.drawn ⊆ s'.drawn) :
    Effect settings s s'
  | phase (i : ℕ) (t : Task) (phase : Phase) (hi : s.tasks[i]? = some t)
    (hok : t.Ok settings.eventChainMaxHops → Task.Ok settings.eventChainMaxHops { t with phase := phase })
    (htasks : s'.tasks = s.tasks.set i { t with phase := phase }) (haccepted : s'.accepted = s.accepted)
    (hdrawn : s.drawn ⊆ s'.drawn) : Effect settings s s'
  | finish (i : ℕ) (htasks : s'.tasks = s.tasks.eraseIdx i) (haccepted : s'.accepted = s.accepted)
    (hdrawn : s.drawn ⊆ s'.drawn) : Effect settings s s'
  | root (schedule : ScheduledRun) (idempotencyKey runId ownerId : String) (hfresh : runId ∉ s.drawn)
    (hdrawn : s'.drawn = runId :: s.drawn)
    (htasks : s'.tasks = s.tasks ++ [spawn schedule (rootReservation settings schedule idempotencyKey runId ownerId)])
    (haccepted : s'.accepted = s.accepted ++ [⟨rootReservation settings schedule idempotencyKey runId ownerId, none⟩]) :
    Effect settings s s'
  | child (i : ℕ) (t : Task) (result : ScheduledRunResult) (child : ScheduledRun) (runId : String)
    (hi : s.tasks[i]? = some t) (hphase : t.phase = .dispatching result child) (hfresh : runId ∉ s.drawn)
    (hdrawn : s'.drawn = runId :: s.drawn)
    (htasks : s'.tasks = s.tasks.eraseIdx i ++ [spawn child (childReservation settings t result child runId)])
    (haccepted : s'.accepted = s.accepted ++ [⟨childReservation settings t result child runId, some result.runId⟩]) :
    Effect settings s s'

section Step

variable {settings : Settings} {s : St}

theorem Effect.refl : Effect settings s s := .keep rfl rfl (List.Subset.refl _)

theorem Effect.db (db : Db) : Effect settings s { s with db := db } := .keep rfl rfl (List.Subset.refl _)

theorem Effect.proceed {i : ℕ} {t : Task} (hi : s.tasks[i]? = some t) (phase : Option Phase)
    (hok : ∀ p ∈ phase, t.Ok settings.eventChainMaxHops → Task.Ok settings.eventChainMaxHops { t with phase := p }) (db : Db)
    (drawn : List String) (hdrawn : s.drawn ⊆ drawn) : Effect settings s ({ s with db := db, drawn := drawn }.proceed i t phase) := by
  cases phase with
  | some p => exact .phase i t p hi (hok p rfl) rfl rfl hdrawn
  | none => exact .finish i rfl rfl hdrawn

theorem nextPhase_ok {t : Task} {result : ScheduledRunResult} {db : Db} {p : Phase}
    (h : nextPhase settings t result db = some p) (hresult : result.runId = t.runId) :
    Task.Ok settings.eventChainMaxHops { t with phase := p } := by
  unfold nextPhase at h
  split at h
  · split_ifs at h with hlimit
    · cases h
      exact hresult
    · split at h
      · cases h
        exact hresult
      · split_ifs at h with hchild
        · cases h
          exact hresult
        · cases h
          exact ⟨hresult, not_lt.1 hlimit, not_not.1 (not_or.1 hchild).1⟩
  · cases h

theorem step_effect (o : Op) : Effect settings s (step settings s o) := by
  cases o with
  | tick micros => exact .keep rfl rfl (refl _)
  | other waited t =>
    cases t with
    | reserve a => exact .refl
    | _ => exact .db _
  | deleteTrigger _ _ | purge _ => exact .db _
  | dispatch waited schedule idempotencyKey runId ownerId =>
    rw [step]
    split_ifs with hdrawn
    · exact .refl
    · rcases reserve_effect (s.now - waited) (rootReservation settings schedule idempotencyKey runId ownerId) s.db with
        ⟨r, hr, hcommit⟩ | ⟨keys, leases, -, hcommit⟩
      · simp only [hcommit]
        exact .keep rfl rfl (subset_cons_self _ _)
      · simp only [hcommit]
        exact .root schedule idempotencyKey runId ownerId hdrawn rfl rfl rfl
  | start waited i =>
    rw [step]
    split
    · rename_i t hi
      split
      · refine .proceed hi _ ?_ _ _ (refl _)
        intro p hp hok
        split_ifs at hp
        · cases hp
          trivial
        · cases hp
      · exact .refl
    · exact .refl
  | finish waited i status outputText costUsdc error =>
    rw [step]
    split
    · rename_i t hi
      split
      · refine .proceed hi _ ?_ _ _ (refl _)
        intro p hp hok
        split_ifs at hp
        · cases hp
          rfl
        · cases hp
      · exact .refl
    · exact .refl
  | lookup i =>
    rw [step]
    split
    · rename_i t hi
      split
      · rename_i result hphase
        refine .proceed hi _ ?_ s.db s.drawn (refl _)
        intro p hp hok
        rw [Task.Ok, hphase] at hok
        exact nextPhase_ok hp hok
      · exact .refl
    · exact .refl
  | reserve waited i runId =>
    rw [step]
    split
    · rename_i t hi
      split
      · rename_i result child hphase
        split_ifs with hdrawn
        · exact .refl
        · rcases reserve_effect (s.now - waited) (childReservation settings t result child runId) s.db with
            ⟨r, hr, hcommit⟩ | ⟨keys, leases, -, hcommit⟩
          · simp only [hcommit]
            refine .proceed hi _ ?_ _ _ (subset_cons_self _ _)
            intro p hp hok
            cases hp
            rw [Task.Ok, hphase] at hok
            exact hok.1
          · simp only [hcommit]
            exact .child i t result child runId hi hphase hdrawn rfl rfl rfl
      · exact .refl
    · exact .refl
  | skip i =>
    rw [step]
    split
    · rename_i t hi
      split
      · exact .proceed hi none (by simp) _ _ (refl _)
      · exact .refl
    · exact .refl
  | stop i => exact .finish i rfl rfl (refl _)

end Step

/-! ## Invariant -/

/-- a reservation and a task of one run -/
def Spawned (a : Acceptance) (t : Task) : Prop :=
  a.reservation.runId = t.runId ∧ a.reservation.chainId = t.chainId ∧ a.reservation.hopIndex = t.hopIndex

/-- a child follows its parent: the same chain, one hop further, under a key that names the parent -/
def Follows (a b : Acceptance) (parent : String) : Prop :=
  b.reservation.runId = parent ∧ a.reservation.chainId = b.reservation.chainId ∧
    a.reservation.hopIndex = b.reservation.hopIndex + 1 ∧ a.reservation.idempotencyKey = "chain:" ++ parent

structure Inv (maxHops : ℕ) (s : St) : Prop where
  ok : ∀ t ∈ s.tasks, t.Ok maxHops
  runs : (s.tasks.map Task.runId).Nodup
  chains : (s.tasks.map Task.chainId).Nodup
  /-- a live task is the last hop of its chain -/
  last : ∀ t ∈ s.tasks, hops s t.chainId = List.range (t.hopIndex + 1)
  linear : ∀ c, ∃ n ≤ maxHops + 1, hops s c = List.range n
  parents : (parents s).Nodup
  /-- a live task has no child -/
  childless : ∀ t ∈ s.tasks, t.runId ∉ Chains.parents s
  spawned : ∀ t ∈ s.tasks, ∃ a ∈ s.accepted, Spawned a t
  lineage : ∀ a ∈ s.accepted, ∀ r ∈ a.parent, ∃ b ∈ s.accepted, Follows a b r
  drawn : ∀ a ∈ s.accepted, a.reservation.runId ∈ s.drawn ∧ a.reservation.chainId ∈ s.drawn

theorem inv_init (maxHops : ℕ) (now : ℤ) : Inv maxHops (init now) where
  ok _ ht := absurd ht not_mem_nil
  runs := nodup_nil
  chains := nodup_nil
  last _ ht := absurd ht not_mem_nil
  linear _ := ⟨0, Nat.zero_le _, rfl⟩
  parents := nodup_nil
  childless _ ht := absurd ht not_mem_nil
  spawned _ ht := absurd ht not_mem_nil
  lineage _ ha := absurd ha not_mem_nil
  drawn _ ha := absurd ha not_mem_nil

section Inv

variable {maxHops : ℕ} {s s' : St}

theorem Inv.drawn_task (h : Inv maxHops s) {t : Task} (ht : t ∈ s.tasks) : t.runId ∈ s.drawn ∧ t.chainId ∈ s.drawn := by
  obtain ⟨a, ha, hrun, hchain, -⟩ := h.spawned t ht
  rw [← hrun, ← hchain]
  exact h.drawn a ha

theorem Inv.drawn_parent (h : Inv maxHops s) {r : String} (hr : r ∈ Chains.parents s) : r ∈ s.drawn := by
  obtain ⟨a, ha, hparent⟩ := mem_filterMap.1 hr
  obtain ⟨b, hb, hrun, -⟩ := h.lineage a ha r hparent
  rw [← hrun]
  exact (h.drawn b hb).1

theorem hops_fresh (h : Inv maxHops s) {c : String} (hc : c ∉ s.drawn) : hops s c = [] := by
  unfold hops
  rw [filter_eq_nil_iff.2, map_nil]
  intro a ha hchain
  rw [← of_decide_eq_true hchain] at hc
  exact hc (h.drawn a ha).2

theorem Inv.tasks (h : Inv maxHops s) (haccepted : s'.accepted = s.accepted) (hdrawn : s.drawn ⊆ s'.drawn)
    (hsub : (s'.tasks.map (fun t => (t.runId, t.chainId, t.hopIndex))).Sublist
      (s.tasks.map (fun t => (t.runId, t.chainId, t.hopIndex))))
    (hok : ∀ t ∈ s'.tasks, t.Ok maxHops) : Inv maxHops s' := by
  have hhops : ∀ c, hops s' c = hops s c := fun c => by rw [hops, haccepted, hops]
  have hparents : Chains.parents s' = Chains.parents s := by rw [Chains.parents, haccepted, Chains.parents]
  have hold : ∀ t' ∈ s'.tasks, ∃ t ∈ s.tasks, t.runId = t'.runId ∧ t.chainId = t'.chainId ∧ t.hopIndex = t'.hopIndex := by
    intro t' ht'
    obtain ⟨t, ht, heq⟩ := mem_map.1 (hsub.subset (mem_map_of_mem ht'))
    simp only [Prod.mk.injEq] at heq
    exact ⟨t, ht, heq⟩
  refine ⟨hok, ?_, ?_, ?_, ?_, ?_, ?_, ?_, ?_, ?_⟩
  · have hruns := hsub.map Prod.fst
    simp only [map_map] at hruns
    exact h.runs.sublist hruns
  · have hchains := hsub.map (fun x => x.2.1)
    simp only [map_map] at hchains
    exact h.chains.sublist hchains
  · intro t' ht'
    obtain ⟨t, ht, -, hchain, hhop⟩ := hold t' ht'
    rw [hhops, ← hchain, ← hhop]
    exact h.last t ht
  · intro c
    rw [hhops]
    exact h.linear c
  · rw [hparents]
    exact h.parents
  · intro t' ht'
    obtain ⟨t, ht, hrun, -⟩ := hold t' ht'
    rw [hparents, ← hrun]
    exact h.childless t ht
  · intro t' ht'
    obtain ⟨t, ht, hrun, hchain, hhop⟩ := hold t' ht'
    obtain ⟨a, ha, harun, hachain, hahop⟩ := h.spawned t ht
    rw [haccepted]
    exact ⟨a, ha, harun.trans hrun, hachain.trans hchain, hahop.trans hhop⟩
  · rw [haccepted]
    exact h.lineage
  · intro a ha
    rw [haccepted] at ha
    exact ⟨hdrawn (h.drawn a ha).1, hdrawn (h.drawn a ha).2⟩

/-- an acceptance whose run is spawned: the hop after the last one of a chain that no live task continues -/
theorem Inv.accept (h : Inv maxHops s) {a : Acceptance} {t : Task} (hspawned : Spawned a t) (hok : t.Ok maxHops)
    (hfresh : t.runId ∉ s.drawn) (hchain : ∀ t' ∈ s.tasks, t'.chainId ≠ t.chainId) (hlast : hops s t.chainId = range t.hopIndex)
    (hlimit : t.hopIndex ≤ maxHops) (hparent : ∀ r ∈ a.parent, r ∉ Chains.parents s ∧ (∀ t' ∈ s.tasks, t'.runId ≠ r) ∧
      ∃ b ∈ s.accepted, Follows a b r) (hcdrawn : t.chainId ∈ t.runId :: s.drawn)
    (htasks : s'.tasks = s.tasks ++ [t]) (haccepted : s'.accepted = s.accepted ++ [a]) (hdrawn : s'.drawn = t.runId :: s.drawn) :
    Inv maxHops s' := by
  obtain ⟨hrun, hachain, hhop⟩ := hspawned
  have hhops : ∀ c, hops s' c = if t.chainId = c then range (t.hopIndex + 1) else hops s c := by
    intro c
    unfold hops
    rw [haccepted, filter_append, map_append, filter_singleton, hachain]
    by_cases hc : t.chainId = c
    · rw [decide_eq_true hc, cond_true, if_pos hc, map_singleton, hhop, range_succ, ← hlast, hops, hc]
    · rw [decide_eq_false hc, cond_false, if_neg hc, map_nil, append_nil]
  have hparents : Chains.parents s' = Chains.parents s ++ a.parent.toList := by
    unfold Chains.parents
    rw [haccepted, filterMap_append]
    cases hp : a.parent <;> simp [hp]
  have hmore : ∀ b ∈ s.accepted, b ∈ s'.accepted := fun b hb => haccepted ▸ mem_append_left _ hb
  have hnew : a ∈ s'.accepted := haccepted ▸ mem_append_right _ mem_cons_self
  have hsubset : s.drawn ⊆ s'.drawn := hdrawn ▸ subset_cons_self _ _
  have hcases : ∀ t' ∈ s'.tasks, t' ∈ s.tasks ∨ t' = t := by
    intro t' ht'
    rw [htasks, mem_append, mem_singleton] at ht'
    exact ht'
  have hfreshParent : ∀ r ∈ a.parent, t.runId ≠ r := by
    rintro r hr rfl
    obtain ⟨-, -, b, hb, hrun, -⟩ := hparent _ hr
    exact hfresh (hrun ▸ (h.drawn b hb).1)
  refine ⟨?_, ?_, ?_, ?_, ?_, ?_, ?_, ?_, ?_, ?_⟩
  · intro t' ht'
    rcases hcases t' ht' with ht' | rfl
    · exact h.ok t' ht'
    · exact hok
  · rw [htasks, map_append, map_singleton]
    refine nodup_append.2 ⟨h.runs, nodup_singleton _, ?_⟩
    rintro r hr r' hr' rfl
    obtain ⟨t', ht', hr⟩ := mem_map.1 hr
    rw [mem_singleton.1 hr'] at hr
    exact hfresh (hr ▸ (h.drawn_task ht').1)
  · rw [htasks, map_append, map_singleton]
    refine nodup_append.2 ⟨h.chains, nodup_singleton _, ?_⟩
    rintro c hc c' hc' rfl
    obtain ⟨t', ht', hc⟩ := mem_map.1 hc
    exact hchain t' ht' (hc.trans (mem_singleton.1 hc'))
  · intro t' ht'
    rw [hhops]
    rcases hcases t' ht' with ht' | rfl
    · rw [if_neg (Ne.symm (hchain t' ht'))]
      exact h.last t' ht'
    · rw [if_pos rfl]
  · intro c
    rw [hhops]
    split_ifs
    · exact ⟨t.hopIndex + 1, Nat.succ_le_succ hlimit, rfl⟩
    · exact h.linear c
  · rw [hparents]
    refine nodup_append.2 ⟨h.parents, ?_, ?_⟩
    · cases a.parent with
      | none => exact nodup_nil
      | some r => exact nodup_singleton r
    · rintro r hr r' hr' rfl
      exact (hparent r (Option.mem_toList.1 hr')).1 hr
  · intro t' ht' hparent'
    rw [hparents, mem_append, Option.mem_toList] at hparent'
    rcases hcases t' ht' with ht' | rfl <;> rcases hparent' with hold | hnewParent
    · exact h.childless t' ht' hold
    · exact (hparent _ hnewParent).2.1 t' ht' rfl
    · exact hfresh (h.drawn_parent hold)
    · exact hfreshParent _ hnewParent rfl
  · intro t' ht'
    rcases hcases t' ht' with ht' | rfl
    · obtain ⟨b, hb, hspawned⟩ := h.spawned t' ht'
      exact ⟨b, hmore b hb, hspawned⟩
    · exact ⟨a, hnew, hrun, hachain, hhop⟩
  · intro b hb r hr
    rw [haccepted, mem_append, mem_singleton] at hb
    rcases hb with hb | rfl
    · obtain ⟨b', hb', hfollows⟩ := h.lineage b hb r hr
      exact ⟨b', hmore b' hb', hfollows⟩
    · obtain ⟨-, -, b', hb', hfollows⟩ := hparent r hr
      exact ⟨b', hmore b' hb', hfollows⟩
  · intro b hb
    rw [haccepted, mem_append, mem_singleton] at hb
    rcases hb with hb | rfl
    · exact ⟨hsubset (h.drawn b hb).1, hsubset (h.drawn b hb).2⟩
    · rw [hrun, hachain, hdrawn]
      exact ⟨mem_cons_self, hcdrawn⟩

theorem ne_of_mem_eraseIdx {K : Type} {key : Task → K} {tasks : List Task} (hnodup : (tasks.map key).Nodup) {i : ℕ} {t t' : Task}
    (hi : tasks[i]? = some t) (ht' : t' ∈ tasks.eraseIdx i) : key t' ≠ key t := by
  obtain ⟨before, after, rfl, rfl⟩ := Locks.split_at hi
  rw [eraseIdx_append_of_length_le (le_refl _), Nat.sub_self, eraseIdx_cons_zero] at ht'
  rw [map_append, map_cons, nodup_middle, nodup_cons, ← map_append] at hnodup
  intro heq
  exact hnodup.1 (heq ▸ mem_map_of_mem ht')

theorem inv_step (settings : Settings) (s : St) (o : Op) (h : Inv settings.eventChainMaxHops s) :
    Inv settings.eventChainMaxHops (step settings s o) := by
  have heffect : Effect settings s (step settings s o) := step_effect o
  cases heffect with
  | keep htasks haccepted hdrawn =>
    exact h.tasks haccepted hdrawn (by rw [htasks]) (fun t ht => h.ok t (htasks ▸ ht))
  | phase i t phase hi hok htasks haccepted hdrawn =>
    refine h.tasks haccepted hdrawn ?_ ?_
    · rw [htasks, map_set]
      have hsame : (s.tasks.map (fun t => (t.runId, t.chainId, t.hopIndex)))[i]? = some (t.runId, t.chainId, t.hopIndex) := by
        rw [getElem?_map, hi, Option.map_some]
      obtain ⟨hlt, hval⟩ := List.getElem?_eq_some_iff.1 hsame
      rw [← hval, set_getElem_self]
    · intro t' ht'
      rw [htasks] at ht'
      rcases mem_or_eq_of_mem_set ht' with ht' | rfl
      · exact h.ok t' ht'
      · exact hok (h.ok t (mem_of_getElem? hi))
  | finish i htasks haccepted hdrawn =>
    refine h.tasks haccepted hdrawn ?_ ?_
    · rw [htasks]
      exact (eraseIdx_sublist s.tasks i).map _
    · intro t ht
      rw [htasks] at ht
      exact h.ok t (mem_of_mem_eraseIdx ht)
  | root schedule idempotencyKey runId ownerId hfresh hdrawn htasks haccepted =>
    refine h.accept (t := spawn schedule (rootReservation settings schedule idempotencyKey runId ownerId)) ⟨rfl, rfl, rfl⟩ trivial
      hfresh ?_ (hops_fresh h hfresh) (Nat.zero_le _) (fun r hr => by cases hr) mem_cons_self htasks haccepted hdrawn
    intro t' ht' hchain
    have hrun : t'.chainId = runId := hchain
    exact hfresh (hrun ▸ (h.drawn_task ht').2)
  | child i t result child runId hi hphase hfresh hdrawn htasks haccepted =>
    have ht : t ∈ s.tasks := mem_of_getElem? hi
    have hok := h.ok t ht
    rw [Task.Ok, hphase] at hok
    obtain ⟨hresult, hlimit, -⟩ := hok
    -- the parent's task ends, and then the child is accepted
    have hothers : ∀ t' ∈ s.tasks.eraseIdx i, t'.chainId ≠ t.chainId := fun t' ht' => ne_of_mem_eraseIdx h.chains hi ht'
    have herased : Inv settings.eventChainMaxHops { s with tasks := s.tasks.eraseIdx i } :=
      h.tasks rfl (refl _) ((eraseIdx_sublist s.tasks i).map _) (fun t' ht' => h.ok t' (mem_of_mem_eraseIdx ht'))
    refine herased.accept (t := spawn child (childReservation settings t result child runId)) ⟨rfl, rfl, rfl⟩ trivial hfresh
      hothers (h.last t ht) hlimit ?_
      (mem_cons_of_mem _ (h.drawn_task ht).2) htasks haccepted hdrawn
    intro r hr
    cases hr
    rw [hresult]
    refine ⟨h.childless t ht, fun t' ht' => ne_of_mem_eraseIdx h.runs hi ht', ?_⟩
    obtain ⟨b, hb, hrun, hchain, hhop⟩ := h.spawned t ht
    exact ⟨b, hb, hrun, hchain.symm, by rw [hhop]; rfl, by rw [← hresult]; rfl⟩

end Inv

/-- **Bounded chains.** Whatever links the triggers have and whatever happens between two steps of a task: the hops accepted for a
chain are 0, 1, 2, ... in the order of acceptance, at most `event_chain_max_hops` after the first one. A run has at most one
accepted child, which carries its chain, one hop further. -/
theorem chain_bounded (settings : Settings) (now : ℤ) (ops : List Op) :
    (∀ c, ∃ n ≤ settings.eventChainMaxHops + 1, hops (run settings (init now) ops) c = List.range n) ∧
    (∀ r, (run settings (init now) ops).accepted.countP (fun a => a.parent = some r) ≤ 1) ∧
    ∀ a ∈ (run settings (init now) ops).accepted, ∀ r ∈ a.parent, ∃ b ∈ (run settings (init now) ops).accepted, Follows a b r := by
  have hinv : Inv settings.eventChainMaxHops (run settings (init now) ops) :=
    Runs.run_inv (step settings) (Inv settings.eventChainMaxHops) (fun s o h => inv_step settings s o h) ops (inv_init _ now)
  refine ⟨hinv.linear, ?_, hinv.lineage⟩
  intro r
  have hcount : (run settings (init now) ops).accepted.countP (fun a => a.parent = some r) =
      (parents (run settings (init now) ops)).count r := by
    rw [parents, count, countP_filterMap]
    refine countP_congr (fun a _ => ?_)
    cases a.parent <;> simp
  rw [hcount]
  exact nodup_iff_count_le_one.1 hinv.parents r

end Teardrop.Scheduling.Chains
