/-
`touch_checkpoint_thread` and `_delete_stale_checkpoint_threads` (`teardrop/retention.py`): any number of runs and sweeps
over the checkpoint rows of the threads they share.

`NOW()` is the time a touch starts: it may wait for a row lock and record that time later. A sweep is a loop of transactions, and
each of its statements is a step with a snapshot of its own: the query, the lock of one candidate after the other (skipped
while someone else has it, checked again when it has changed), the three deletes, the delete of the activity rows, the commit.
Rows a sweep deletes are seen by everyone else until it commits. Times are microseconds, and the clock never goes back.
-/
import Teardrop.Core.Runs
import Teardrop.Core.Table

namespace Teardrop.Retention

open List

/-! ## Model -/

/-- the fields of `Settings` the sweep reads -/
structure Settings where
  checkpointTtlDays : ℕ
  retentionSweepBatchSize : ℕ

/-- `make_interval(days => $1)` -/
def Settings.ttl (settings : Settings) : ℕ := settings.checkpointTtlDays * 86400000000

/-- the tables of the checkpointer, in the order of the deletes -/
inductive CheckpointTable where
  | checkpointWrites
  | checkpointBlobs
  | checkpoints
deriving DecidableEq

def CheckpointTable.all : List CheckpointTable := [.checkpointWrites, .checkpointBlobs, .checkpoints]

theorem CheckpointTable.mem_all (table : CheckpointTable) : table ∈ CheckpointTable.all := by
  cases table <;> decide

/-- a row of `checkpoint_thread_activity`, with the insert it comes from and the sweep that holds it -/
structure ActivityRow where
  threadId : String
  lastActivityAt : ℕ
  inserted : ℕ
  lockedBy : Option ℕ

/-- a row a run has written, with the time of the run's touch -/
structure CheckpointRow where
  serial : ℕ
  table : CheckpointTable
  threadId : String
  touchedAt : ℕ
deriving DecidableEq

/-- a run of the agent -/
inductive Run where
  | idle
  | touching (threadId : String) (now : ℕ)
  | touched (threadId : String) (now : ℕ)

/-- where a call of `_delete_stale_checkpoint_threads` stands -/
inductive Phase where
  | returned
  | looping
  | opened
  /-- the rows of the snapshot that are still to be tried, and the inserts they come from -/
  | locking (candidates : List (String × ℕ))
  | deleting (tables : List CheckpointTable)
  | closing

/-- a deleted row, and when the statement ran that deleted it -/
structure Deletion where
  row : CheckpointRow
  deletedAt : ℕ

structure Sweep where
  phase : Phase
  startedAt : ℕ
  threadIds : List String
  deletions : List Deletion
  totalDeleted : ℕ

/-- a committed transaction of a sweep: its threads, the rows it deleted, and the rows of its threads that are left -/
structure Swept where
  threadIds : List String
  deletions : List Deletion
  left : List CheckpointRow

structure St where
  now : ℕ
  activity : Table ActivityRow.threadId
  rows : List CheckpointRow
  runs : ℕ → Run
  sweeps : ℕ → Sweep
  nextSerial : ℕ
  swept : List Swept

def init : St := ⟨0, Table.empty, [], fun _ => .idle, fun _ => ⟨.returned, 0, [], [], 0⟩, 0, []⟩

inductive Op where
  | tick (d : ℕ)
  /-- a run calls `touch_checkpoint_thread`, and later its statement records the time and returns -/
  | touch (run : ℕ) (threadId : String)
  | record (run : ℕ)
  | write (run : ℕ) (table : CheckpointTable)
  /-- a sweep is called, opens a transaction, queries, and tries the next candidate -/
  | call (sweep : ℕ)
  | begin (sweep : ℕ)
  | query (sweep : ℕ)
  | lock (sweep : ℕ) (busy : Bool)
  /-- the next delete of its transaction, the commit, or an error -/
  | delete (sweep : ℕ)
  | commit (sweep : ℕ)
  | rollback (sweep : ℕ)

/-- `INSERT INTO checkpoint_thread_activity ... ON CONFLICT (thread_id) DO UPDATE`; `none` while a sweep holds the row -/
def upsertActivity (activity : Table ActivityRow.threadId) (threadId : String) (now inserted : ℕ) :
    Option (Table ActivityRow.threadId) :=
  match activity.get? threadId with
  | none => activity.insert? ⟨threadId, now, inserted, none⟩
  | some row =>
    if row.lockedBy = none then
      some (activity.update (fun r => if r.threadId = threadId then { r with lastActivityAt := now } else r)
        (fun r => by split_ifs <;> rfl))
    else none

/-- `last_activity_at < NOW() - make_interval(days => $1)` -/
def stale (settings : Settings) (startedAt : ℕ) (row : ActivityRow) : Bool := row.lastActivityAt + settings.ttl < startedAt

/-- the snapshot of `_STALE_CHECKPOINT_THREADS_SQL` -/
def candidates (settings : Settings) (startedAt : ℕ) (activity : Table ActivityRow.threadId) : List (String × ℕ) :=
  ((activity.rows.filter (stale settings startedAt)).insertionSort (fun a b => a.lastActivityAt ≤ b.lastActivityAt)).map
    (fun row => (row.threadId, row.inserted))

/-- `FOR UPDATE SKIP LOCKED` at one candidate: the lock is taken -/
def takes (settings : Settings) (startedAt : ℕ) (busy : Bool) (candidate : String × ℕ)
    (activity : Table ActivityRow.threadId) : Bool :=
  match activity.get? candidate.1 with
  | some row => !busy && row.lockedBy = none && row.inserted = candidate.2 && stale settings startedAt row
  | none => false

def setLock (threadId : String) (sweep : ℕ) (activity : Table ActivityRow.threadId) : Table ActivityRow.threadId :=
  activity.update (fun r => if r.threadId = threadId then { r with lockedBy := some sweep } else r)
    (fun r => by split_ifs <;> rfl)

/-- what a rollback does to the locks -/
def releaseLocks (sweep : ℕ) (activity : Table ActivityRow.threadId) : Table ActivityRow.threadId :=
  activity.update (fun r => if r.lockedBy = some sweep then { r with lockedBy := none } else r)
    (fun r => by split_ifs <;> rfl)

/-- `DELETE FROM ... WHERE thread_id = ANY($1::TEXT[])`: the rows the statement sees -/
def deleteFrom (table : CheckpointTable) (threadIds : List String) (now : ℕ) (rows : List CheckpointRow) : List Deletion :=
  (rows.filter (fun r => r.table = table ∧ r.threadId ∈ threadIds)).map (fun r => ⟨r, now⟩)

/-- the rows a commit leaves -/
def remaining (deletions : List Deletion) (rows : List CheckpointRow) : List CheckpointRow :=
  rows.filter (fun r => r ∉ deletions.map Deletion.row)

def St.setRun (s : St) (run : ℕ) (r : Run) : St := { s with runs := Function.update s.runs run r }

def St.setSweep (s : St) (sweep : ℕ) (w : Sweep) : St := { s with sweeps := Function.update s.sweeps sweep w }

@[simp] theorem setRun_runs_self (s : St) (i : ℕ) (r : Run) : (s.setRun i r).runs i = r := Function.update_self ..

@[simp] theorem setSweep_sweeps_self (s : St) (i : ℕ) (w : Sweep) : (s.setSweep i w).sweeps i = w := Function.update_self ..

variable {i : ℕ}

theorem setRun_runs_of_ne (s : St) {j : ℕ} (h : j ≠ i) (r : Run) : (s.setRun i r).runs j = s.runs j :=
  Function.update_of_ne h ..

theorem setSweep_sweeps_of_ne (s : St) {j : ℕ} (h : j ≠ i) (w : Sweep) : (s.setSweep i w).sweeps j = s.sweeps j :=
  Function.update_of_ne h ..

def step (settings : Settings) (s : St) : Op → St
  | .tick d => { s with now := s.now + d }
  | .touch run threadId =>
    match s.runs run with
    | .idle => s.setRun run (.touching threadId s.now)
    | _ => s
  | .record run =>
    match s.runs run with
    | .touching threadId now =>
      match upsertActivity s.activity threadId now s.nextSerial with
      | some activity =>
        { s.setRun run (.touched threadId now) with activity := activity, nextSerial := s.nextSerial + 1 }
      | none => s
    | _ => s
  | .write run table =>
    match s.runs run with
    | .touched threadId now =>
      { s with rows := s.rows ++ [⟨s.nextSerial, table, threadId, now⟩], nextSerial := s.nextSerial + 1 }
    | _ => s
  | .call sweep =>
    match (s.sweeps sweep).phase with
    | .returned =>
      if 0 < settings.checkpointTtlDays then s.setSweep sweep ⟨.looping, s.now, [], [], 0⟩ else s
    | _ => s
  | .begin sweep =>
    match (s.sweeps sweep).phase with
    | .looping => s.setSweep sweep ⟨.opened, s.now, [], [], (s.sweeps sweep).totalDeleted⟩
    | _ => s
  | .query sweep =>
    match (s.sweeps sweep).phase with
    | .opened =>
      s.setSweep sweep { s.sweeps sweep with
        phase := .locking (candidates settings (s.sweeps sweep).startedAt s.activity) }
    | _ => s
  | .lock sweep busy =>
    match (s.sweeps sweep).phase with
    | .locking [] =>
      s.setSweep sweep { s.sweeps sweep with
        phase := if (s.sweeps sweep).threadIds = [] then .returned else .deleting CheckpointTable.all }
    | .locking (candidate :: rest) =>
      if (s.sweeps sweep).threadIds.length < settings.retentionSweepBatchSize then
        if takes settings (s.sweeps sweep).startedAt busy candidate s.activity then
          { s.setSweep sweep { s.sweeps sweep with
              phase := .locking rest, threadIds := (s.sweeps sweep).threadIds ++ [candidate.1] } with
            activity := setLock candidate.1 sweep s.activity }
        else s.setSweep sweep { s.sweeps sweep with phase := .locking rest }
      else s.setSweep sweep { s.sweeps sweep with phase := .locking [] }
    | _ => s
  | .delete sweep =>
    match (s.sweeps sweep).phase with
    | .deleting (table :: tables) =>
      s.setSweep sweep { s.sweeps sweep with
        phase := .deleting tables
        deletions := (s.sweeps sweep).deletions ++ deleteFrom table (s.sweeps sweep).threadIds s.now s.rows }
    | .deleting [] => s.setSweep sweep { s.sweeps sweep with phase := .closing }
    | _ => s
  | .commit sweep =>
    match (s.sweeps sweep).phase with
    | .closing =>
      let w := s.sweeps sweep
      let rows := remaining w.deletions s.rows
      { s.setSweep sweep ⟨.looping, w.startedAt, [], [], w.totalDeleted + w.threadIds.length⟩ with
        activity := s.activity.filter (fun r => r.threadId ∉ w.threadIds)
        rows := rows
        swept := s.swept ++ [⟨w.threadIds, w.deletions, rows.filter (fun r => r.threadId ∈ w.threadIds)⟩] }
    | _ => s
  | .rollback sweep =>
    { s.setSweep sweep { s.sweeps sweep with phase := .returned, threadIds := [], deletions := [] } with
      activity := releaseLocks sweep s.activity }

def run (settings : Settings) (ops : List Op) : St := Runs.run (step settings) init ops

/-! ## What is promised -/

/-- a row is deleted no earlier than the TTL after its run's touch, and no row of a deleted thread is left -/
structure Kept (settings : Settings) (e : Swept) : Prop where
  live : ∀ d ∈ e.deletions, d.row.touchedAt + settings.ttl ≤ d.deletedAt
  whole : e.left = []

/-- the tables a sweep has still to clear -/
def Phase.pending : Phase → List CheckpointTable
  | .deleting tables => tables
  | .closing => []
  | _ => CheckpointTable.all

/-- the touch does not put the time of its thread back -/
def inOrder (s : St) (threadId : String) (now : ℕ) : Prop :=
  ∀ row ∈ s.activity.get? threadId, row.lockedBy = none → row.lastActivityAt ≤ now

/-- no sweep that holds the thread has cleared the table -/
def uncleared (s : St) (threadId : String) (table : CheckpointTable) : Prop :=
  ∀ row ∈ s.activity.get? threadId, ∀ sweep ∈ row.lockedBy, table ∈ (s.sweeps sweep).phase.pending

/-- the condition on a touch that is about to record its time -/
def recordOk (s : St) : Run → Prop
  | .touching threadId now => inOrder s threadId now
  | _ => True

/-- the condition on a run that is about to write a row -/
def writeOk (s : St) (table : CheckpointTable) : Run → Prop
  | .touched threadId _ => uncleared s threadId table
  | _ => True

/-- the condition on one step -/
def Ok (s : St) : Op → Prop
  | .record run => recordOk s (s.runs run)
  | .write run table => writeOk s table (s.runs run)
  | _ => True

instance (s : St) (threadId : String) (now : ℕ) : Decidable (inOrder s threadId now) :=
  inferInstanceAs (Decidable (∀ row ∈ s.activity.get? threadId, _))

instance (s : St) (threadId : String) (table : CheckpointTable) : Decidable (uncleared s threadId table) :=
  inferInstanceAs (Decidable (∀ row ∈ s.activity.get? threadId, ∀ sweep ∈ row.lockedBy, _))

instance (s : St) : ∀ r, Decidable (recordOk s r)
  | .touching threadId now => inferInstanceAs (Decidable (inOrder s threadId now))
  | .idle | .touched _ _ => inferInstanceAs (Decidable True)

instance (s : St) (table : CheckpointTable) : ∀ r, Decidable (writeOk s table r)
  | .touched threadId _ => inferInstanceAs (Decidable (uncleared s threadId table))
  | .idle | .touching _ _ => inferInstanceAs (Decidable True)

instance (s : St) : ∀ op, Decidable (Ok s op)
  | .record run => inferInstanceAs (Decidable (recordOk s (s.runs run)))
  | .write run table => inferInstanceAs (Decidable (writeOk s table (s.runs run)))
  | .tick _ | .touch _ _ | .call _ | .begin _ | .query _ | .lock _ _ | .delete _ | .commit _ | .rollback _ =>
    inferInstanceAs (Decidable True)

/-! ## Invariant -/

/-- a sweep holds the row of a thread, which has been idle for the TTL -/
def Held (settings : Settings) (activity : Table ActivityRow.threadId) (sweep startedAt : ℕ) (threadId : String) : Prop :=
  ∃ row, activity.get? threadId = some row ∧ row.lockedBy = some sweep ∧ row.lastActivityAt + settings.ttl < startedAt

/-- a touch that has returned is recorded, or is over -/
def Covered (settings : Settings) (activity : Table ActivityRow.threadId) (now : ℕ) (threadId : String) (touchedAt : ℕ) :
    Prop :=
  (∃ row, activity.get? threadId = some row ∧ touchedAt ≤ row.lastActivityAt) ∨ touchedAt + settings.ttl < now

/-- what holds of one sweep -/
structure SweepInv (settings : Settings) (s : St) (i : ℕ) (w : Sweep) : Prop where
  started : w.startedAt ≤ s.now
  held : ∀ t ∈ w.threadIds, Held settings s.activity i w.startedAt t
  cleared : ∀ r ∈ s.rows, r.threadId ∈ w.threadIds → r.table ∉ w.phase.pending → r ∈ w.deletions.map Deletion.row
  live : ∀ d ∈ w.deletions, d.row.touchedAt + settings.ttl ≤ d.deletedAt

structure Inv (settings : Settings) (s : St) : Prop where
  sweeps : ∀ i, SweepInv settings s i (s.sweeps i)
  runs : ∀ i t now, s.runs i = .touched t now → Covered settings s.activity s.now t now
  rows : ∀ r ∈ s.rows, Covered settings s.activity s.now r.threadId r.touchedAt
  kept : ∀ e ∈ s.swept, Kept settings e

section Parts

variable {settings : Settings} {s : St}

variable {startedAt : ℕ} {t : String} {now : ℕ} {table : CheckpointTable} {rows : List CheckpointRow}

theorem sweepInv_idle (i : ℕ) (phase : Phase) (h : startedAt ≤ s.now) (total : ℕ) :
    SweepInv settings s i ⟨phase, startedAt, [], [], total⟩ where
  started := h
  held _ ht := absurd ht not_mem_nil
  cleared _ _ ht := absurd ht not_mem_nil
  live _ hd := absurd hd not_mem_nil

theorem inv_init : Inv settings init where
  sweeps i := sweepInv_idle i .returned (le_refl 0) 0
  runs _ _ _ h := Run.noConfusion h
  rows _ hr := absurd hr not_mem_nil
  kept _ he := absurd he not_mem_nil

variable {activity : Table ActivityRow.threadId}

theorem Held.unique {j startedAt' : ℕ} (hi : Held settings activity i startedAt t)
    (hj : Held settings activity j startedAt' t) : i = j := by
  obtain ⟨row, hrow, hlock, -⟩ := hi
  obtain ⟨row', hrow', hlock', -⟩ := hj
  have hsame : row = row' := Option.some.inj (hrow.symm.trans hrow')
  rw [hsame, hlock'] at hlock
  exact (Option.some.inj hlock).symm

theorem Inv.setSweep (h : Inv settings s) {w : Sweep} (hw : SweepInv settings s i w) : Inv settings (s.setSweep i w) := by
  refine { h with sweeps := ?_ }
  intro j
  have hj : SweepInv settings s j ((s.setSweep i w).sweeps j) := by
    by_cases hij : j = i
    · rw [hij, setSweep_sweeps_self]
      exact hw
    · rw [setSweep_sweeps_of_ne s hij]
      exact h.sweeps j
  exact { hj with }

theorem Inv.setActivity (h : Inv settings s)
    (hheld : ∀ i, ∀ t ∈ (s.sweeps i).threadIds, Held settings s.activity i (s.sweeps i).startedAt t → Held settings activity i (s.sweeps i).startedAt t)
    (hcovered : ∀ t now, Covered settings s.activity s.now t now → Covered settings activity s.now t now) :
    Inv settings { s with activity := activity } where
  sweeps i := { h.sweeps i with held := fun t ht => hheld i t ht ((h.sweeps i).held t ht) }
  runs i t now hrun := hcovered t now (h.runs i t now hrun)
  rows r hr := hcovered r.threadId r.touchedAt (h.rows r hr)
  kept := h.kept

theorem Inv.setRun (h : Inv settings s) {r : Run}
    (hr : ∀ t now, r = .touched t now → Covered settings s.activity s.now t now) : Inv settings (s.setRun i r) := by
  refine { h with runs := ?_, sweeps := fun j => { h.sweeps j with } }
  intro j t now hrun
  by_cases hij : j = i
  · rw [hij, setRun_runs_self] at hrun
    exact hr t now hrun
  · rw [setRun_runs_of_ne s hij] at hrun
    exact h.runs j t now hrun

/-! ## Steps -/

theorem inv_tick (h : Inv settings s) (d : ℕ) : Inv settings (step settings s (.tick d)) := by
  have hlater : ∀ t now, Covered settings s.activity s.now t now → Covered settings s.activity (s.now + d) t now := by
    intro t now hcovered
    exact hcovered.imp id (fun hover => by omega)
  exact
    { sweeps := fun i => { h.sweeps i with started := (h.sweeps i).started.trans (Nat.le_add_right _ d) }
      runs := fun i t now hrun => hlater t now (h.runs i t now hrun)
      rows := fun r hr => hlater r.threadId r.touchedAt (h.rows r hr)
      kept := h.kept }

theorem upsertActivity_ok {activity' : Table ActivityRow.threadId} {inserted : ℕ}
    (h : upsertActivity activity t now inserted = some activity')
    (horder : ∀ row ∈ activity.get? t, row.lockedBy = none → row.lastActivityAt ≤ now) :
    (∃ row, activity'.get? t = some row ∧ now ≤ row.lastActivityAt) ∧
      ∀ u row, activity.get? u = some row → (u = t → row.lockedBy = none) ∧
        ∃ row', activity'.get? u = some row' ∧ row.lastActivityAt ≤ row'.lastActivityAt ∧ (u ≠ t → row' = row) := by
  unfold upsertActivity at h
  cases hold : activity.get? t with
  | none =>
    rw [hold] at h
    have hget := Table.get?_insert h
    refine ⟨⟨_, (hget t).trans (if_pos rfl), le_refl now⟩, ?_⟩
    intro u row hrow
    have hne : u ≠ t := by
      rintro rfl
      simp [hold] at hrow
    refine ⟨fun heq => absurd heq hne, row, ?_, le_refl _, fun _ => rfl⟩
    rw [hget u, if_neg (Ne.symm hne), hrow]
  | some old =>
    rw [hold] at h
    simp only at h
    split_ifs at h with hfree
    cases h
    have hkey : old.threadId = t := Table.key_of_get? hold
    refine ⟨⟨{ old with lastActivityAt := now }, by simp [hold, hkey], le_refl now⟩, ?_⟩
    intro u row hrow
    have hrowKey : row.threadId = u := Table.key_of_get? hrow
    by_cases hu : u = t
    · subst hu
      rw [hold] at hrow
      cases hrow
      refine ⟨fun _ => hfree, { old with lastActivityAt := now }, by simp [hold, hkey], ?_, fun hne => absurd rfl hne⟩
      exact horder old hold hfree
    · exact ⟨fun heq => absurd heq hu, row, by simp [hrow, hrowKey, hu], le_refl _, fun _ => rfl⟩

theorem inv_record (h : Inv settings s) (hok : recordOk s (s.runs i)) : Inv settings (step settings s (.record i)) := by
  rw [step]
  cases hrun : s.runs i with
  | idle | touched _ _ => exact h
  | touching t now =>
    rw [hrun] at hok
    cases hup : upsertActivity s.activity t now s.nextSerial with
    | none => simpa only [hup] using h
    | some activity =>
      simp only [hup]
      obtain ⟨hnew, hkept⟩ := upsertActivity_ok hup hok
      have hheld : ∀ j, ∀ u ∈ (s.sweeps j).threadIds, Held settings s.activity j (s.sweeps j).startedAt u →
          Held settings activity j (s.sweeps j).startedAt u := by
        rintro j u - ⟨row, hrow, hlock, hidle⟩
        obtain ⟨hfree, row', hrow', -, hsame⟩ := hkept u row hrow
        have hne : u ≠ t := by
          intro heq
          rw [hfree heq] at hlock
          cases hlock
        rw [hsame hne] at hrow'
        exact ⟨row, hrow', hlock, hidle⟩
      have hcovered : ∀ u at', Covered settings s.activity s.now u at' → Covered settings activity s.now u at' := by
        rintro u at' (⟨row, hrow, hle⟩ | hover)
        · obtain ⟨-, row', hrow', hmono, -⟩ := hkept u row hrow
          exact Or.inl ⟨row', hrow', hle.trans hmono⟩
        · exact Or.inr hover
      have hactivity := h.setActivity hheld hcovered
      have hset : Inv settings ({ s with activity := activity }.setRun i (.touched t now)) := by
        apply hactivity.setRun
        intro u now' heq
        cases heq
        exact Or.inl hnew
      exact { hset with sweeps := fun j => { hset.sweeps j with } }

theorem inv_write (h : Inv settings s) (hok : writeOk s table (s.runs i)) :
    Inv settings (step settings s (.write i table)) := by
  rw [step]
  cases hrun : s.runs i with
  | idle | touching _ _ => exact h
  | touched t now =>
    rw [hrun] at hok
    refine { h with sweeps := ?_, rows := ?_ }
    · intro j
      refine { h.sweeps j with cleared := ?_ }
      intro r hr ht hdone
      rcases mem_append.1 hr with hr | hr
      · exact (h.sweeps j).cleared r hr ht hdone
      · -- the sweep that holds the thread has not cleared the table
        rw [mem_singleton.1 hr] at ht hdone
        obtain ⟨row, hrow, hlock, -⟩ := (h.sweeps j).held t ht
        exact absurd (hok row hrow j hlock) hdone
    · intro r hr
      rcases mem_append.1 hr with hr | hr
      · exact h.rows r hr
      · rw [mem_singleton.1 hr]
        exact h.runs i t now hrun

theorem takes_iff {busy : Bool} {candidate : String × ℕ} (h : takes settings startedAt busy candidate activity = true) :
    ∃ row, activity.get? candidate.1 = some row ∧ row.lockedBy = none ∧ row.lastActivityAt + settings.ttl < startedAt := by
  unfold takes at h
  cases hrow : activity.get? candidate.1 with
  | none => simp [hrow] at h
  | some row =>
    simp [hrow, stale] at h
    exact ⟨row, rfl, h.1.1.2, h.2⟩

theorem covered_update (f : ActivityRow → ActivityRow) (hkey : ∀ r, (f r).threadId = r.threadId)
    (hlast : ∀ r, (f r).lastActivityAt = r.lastActivityAt) (t : String) (touchedAt : ℕ)
    (h : Covered settings activity now t touchedAt) : Covered settings (activity.update f hkey) now t touchedAt := by
  apply h.imp _ id
  rintro ⟨row, hrow, hle⟩
  exact ⟨f row, by rw [Table.get?_update, hrow, Option.map_some], hle.trans (hlast row).ge⟩

theorem inv_setLock (h : Inv settings s) {row : ActivityRow} (hrow : s.activity.get? t = some row)
    (hfree : row.lockedBy = none) (hidle : row.lastActivityAt + settings.ttl < (s.sweeps i).startedAt) :
    Inv settings { s with activity := setLock t i s.activity } ∧
      Held settings (setLock t i s.activity) i (s.sweeps i).startedAt t := by
  have hkey : row.threadId = t := Table.key_of_get? hrow
  constructor
  · apply h.setActivity
    · rintro j u - ⟨other, hother, hlock, hstale⟩
      have hotherKey : other.threadId = u := Table.key_of_get? hother
      have hne : u ≠ t := by
        rintro rfl
        rw [hrow] at hother
        cases hother
        rw [hfree] at hlock
        cases hlock
      exact ⟨other, by simp [setLock, hother, hotherKey, hne], hlock, hstale⟩
    · apply covered_update
      intro r
      split_ifs <;> rfl
  · exact ⟨{ row with lockedBy := some i }, by simp [setLock, hrow, hkey], rfl, hidle⟩

theorem inv_lock (h : Inv settings s) (i : ℕ) (busy : Bool) : Inv settings (step settings s (.lock i busy)) := by
  have hi := h.sweeps i
  rw [step]
  cases hphase : (s.sweeps i).phase with
  | locking rest =>
    cases rest with
    | nil =>
      apply h.setSweep
      refine { hi with cleared := ?_ }
      intro r hr ht hdone
      exfalso
      apply hdone
      split_ifs <;> exact r.table.mem_all
    | cons candidate rest =>
      simp only
      split_ifs with hroom htakes
      · obtain ⟨row, hrow, hfree, hidle⟩ := takes_iff htakes
        obtain ⟨hset, hheld⟩ := inv_setLock h hrow hfree hidle
        refine hset.setSweep ⟨hi.started, ?_, fun r _ _ hdone => absurd r.table.mem_all hdone, hi.live⟩
        intro t ht
        rcases mem_append.1 ht with ht | ht
        · exact (hset.sweeps i).held t ht
        · rw [mem_singleton.1 ht]
          exact hheld
      · exact h.setSweep ⟨hi.started, hi.held, fun r _ _ hdone => absurd r.table.mem_all hdone, hi.live⟩
      · exact h.setSweep ⟨hi.started, hi.held, fun r _ _ hdone => absurd r.table.mem_all hdone, hi.live⟩
  | returned | looping | opened | deleting _ | closing => exact h

theorem mem_deleteFrom {threadIds : List String} {d : Deletion} : d ∈ deleteFrom table threadIds now rows ↔
      d.row ∈ rows ∧ d.row.table = table ∧ d.row.threadId ∈ threadIds ∧ d.deletedAt = now := by
  simp only [deleteFrom, mem_map, mem_filter, decide_eq_true_eq]
  constructor
  · rintro ⟨r, ⟨hr, htable, hthread⟩, rfl⟩
    exact ⟨hr, htable, hthread, rfl⟩
  · rintro ⟨hr, htable, hthread, rfl⟩
    exact ⟨d.row, ⟨hr, htable, hthread⟩, rfl⟩

theorem Inv.over (h : Inv settings s) {r : CheckpointRow} (hr : r ∈ s.rows) (ht : r.threadId ∈ (s.sweeps i).threadIds) :
    r.touchedAt + settings.ttl ≤ s.now := by
  obtain ⟨row, hrow, -, hidle⟩ := (h.sweeps i).held _ ht
  have hstarted := (h.sweeps i).started
  rcases h.rows r hr with ⟨row', hrow', hle⟩ | hover
  · rw [hrow] at hrow'
    cases hrow'
    omega
  · exact hover.le

theorem inv_delete (h : Inv settings s) (i : ℕ) : Inv settings (step settings s (.delete i)) := by
  have hi := h.sweeps i
  rw [step]
  cases hphase : (s.sweeps i).phase with
  | deleting tables =>
    cases tables with
    | nil =>
      refine h.setSweep ⟨hi.started, hi.held, ?_, hi.live⟩
      intro r hr ht _
      exact hi.cleared r hr ht (by simp [hphase, Phase.pending])
    | cons table tables =>
      refine h.setSweep ⟨hi.started, hi.held, ?_, ?_⟩
      · intro r hr ht hdone
        rw [map_append]
        by_cases htable : r.table = table
        · apply mem_append_right
          exact mem_map.2 ⟨⟨r, s.now⟩, mem_deleteFrom.2 ⟨hr, htable, ht, rfl⟩, rfl⟩
        · apply mem_append_left
          apply hi.cleared r hr ht
          rw [hphase]
          exact fun hmem => (mem_cons.1 hmem).elim htable hdone
      · intro d hd
        rcases mem_append.1 hd with hd | hd
        · exact hi.live d hd
        · obtain ⟨hr, -, ht, hat⟩ := mem_deleteFrom.1 hd
          rw [hat]
          exact h.over hr ht
  | returned | looping | opened | locking _ | closing => exact h

theorem mem_remaining {deletions : List Deletion} {r : CheckpointRow} :
    r ∈ remaining deletions rows ↔ r ∈ rows ∧ r ∉ deletions.map Deletion.row := by
  simp only [remaining, mem_filter, decide_eq_true_eq]

theorem inv_forget (h : Inv settings s) (i : ℕ) (total : ℕ) :
    Inv settings { s.setSweep i ⟨.looping, (s.sweeps i).startedAt, [], [], total⟩ with
      activity := s.activity.filter (fun r => r.threadId ∉ (s.sweeps i).threadIds) } := by
  have hset := h.setSweep (sweepInv_idle i .looping (h.sweeps i).started total)
  refine hset.setActivity ?_ ?_
  · rintro j t ht hheld
    have hne : t ∉ (s.sweeps i).threadIds := by
      intro hti
      have hij : j = i := hheld.unique ((h.sweeps i).held t hti)
      rw [hij, setSweep_sweeps_self] at ht
      exact absurd ht not_mem_nil
    obtain ⟨row, hrow, hlock, hidle⟩ := hheld
    refine ⟨row, ?_, hlock, hidle⟩
    have hkey : row.threadId = t := Table.key_of_get? hrow
    have hrow : s.activity.get? t = some row := hrow
    simp [Table.get?_filter, hrow, hkey, hne]
  · rintro t now (⟨row, hrow, hle⟩ | hover)
    · have hrow : s.activity.get? t = some row := hrow
      have hkey : row.threadId = t := Table.key_of_get? hrow
      by_cases ht : t ∈ (s.sweeps i).threadIds
      · right
        obtain ⟨held, hheld, -, hidle⟩ := (h.sweeps i).held t ht
        rw [hrow] at hheld
        cases hheld
        calc now + settings.ttl ≤ row.lastActivityAt + settings.ttl := Nat.add_le_add_right hle _
          _ < (s.sweeps i).startedAt := hidle
          _ ≤ s.now := (h.sweeps i).started
      · left
        exact ⟨row, by simp [Table.get?_filter, hrow, hkey, ht], hle⟩
    · exact Or.inr hover

theorem left_nil (h : Inv settings s) (hphase : (s.sweeps i).phase = .closing) :
    (remaining (s.sweeps i).deletions s.rows).filter (fun r => r.threadId ∈ (s.sweeps i).threadIds) = [] := by
  apply filter_eq_nil_iff.2
  intro r hr ht
  obtain ⟨hr, hkept⟩ := mem_remaining.1 hr
  apply hkept
  apply (h.sweeps i).cleared r hr (of_decide_eq_true ht)
  rw [hphase]
  exact not_mem_nil

theorem inv_commit (h : Inv settings s) (i : ℕ) : Inv settings (step settings s (.commit i)) := by
  rw [step]
  cases hphase : (s.sweeps i).phase with
  | closing =>
    have hforget := inv_forget h i ((s.sweeps i).totalDeleted + (s.sweeps i).threadIds.length)
    refine { hforget with sweeps := ?_, rows := ?_, kept := ?_ }
    · intro j
      refine { hforget.sweeps j with cleared := ?_ }
      intro r hr
      exact (hforget.sweeps j).cleared r (mem_remaining.1 hr).1
    · intro r hr
      exact hforget.rows r (mem_remaining.1 hr).1
    · intro e he
      rcases mem_append.1 he with he | he
      · exact h.kept e he
      · rw [mem_singleton.1 he]
        exact ⟨(h.sweeps i).live, left_nil h hphase⟩
  | returned | looping | opened | locking _ | deleting _ => exact h

theorem inv_rollback (h : Inv settings s) (i : ℕ) : Inv settings (step settings s (.rollback i)) := by
  have hset := h.setSweep (sweepInv_idle i .returned (h.sweeps i).started (s.sweeps i).totalDeleted)
  refine hset.setActivity ?_ ?_
  · rintro j t ht ⟨row, hrow, hlock, hidle⟩
    have hrow : s.activity.get? t = some row := hrow
    have hne : j ≠ i := by
      rintro rfl
      rw [setSweep_sweeps_self] at ht
      exact absurd ht not_mem_nil
    exact ⟨row, by simp [releaseLocks, hrow, hlock, hne], hlock, hidle⟩
  · apply covered_update
    intro r
    split_ifs <;> rfl

/-- **What a step preserves.** -/
theorem step_inv (h : Inv settings s) (op : Op) (hok : Ok s op) : Inv settings (step settings s op) := by
  cases op with
  | tick d => exact inv_tick h d
  | touch i t =>
    rw [step]
    cases s.runs i with
    | idle => exact h.setRun (fun _ _ heq => Run.noConfusion heq)
    | touching t now => exact h
    | touched t now => exact h
  | record i => exact inv_record h hok
  | write i table => exact inv_write h hok
  | call i =>
    rw [step]
    cases (s.sweeps i).phase with
    | returned =>
      split_ifs
      · exact h.setSweep (sweepInv_idle i _ (le_refl _) _)
      · exact h
    | _ => exact h
  | begin i =>
    rw [step]
    cases (s.sweeps i).phase with
    | looping => exact h.setSweep (sweepInv_idle i _ (le_refl _) _)
    | _ => exact h
  | query i =>
    have hi := h.sweeps i
    rw [step]
    cases (s.sweeps i).phase with
    | opened => exact h.setSweep ⟨hi.started, hi.held, fun r _ _ hdone => absurd r.table.mem_all hdone, hi.live⟩
    | _ => exact h
  | lock i busy => exact inv_lock h i busy
  | delete i => exact inv_delete h i
  | commit i => exact inv_commit h i
  | rollback i => exact inv_rollback h i

end Parts

/-! ## Runs -/

theorem run_inv (settings : Settings) (ops : List Op) (h : Runs.Legal (step settings) Ok init ops) :
    Inv settings (run settings ops) :=
  Runs.legal_inv (step settings) Ok (Inv settings) (fun _ op hinv hok => step_inv hinv op hok) ops inv_init h

/-- **Retention keeps what is live.** In every run in which no touch puts the time of its thread back and no row is written
into a table the sweep that holds its thread has cleared, no row is deleted less than the TTL after its run's touch, and
a deleted thread leaves no row. -/
theorem live_rows_kept (settings : Settings) (ops : List Op) (h : Runs.Legal (step settings) Ok init ops) :
    ∀ e ∈ (run settings ops).swept, Kept settings e :=
  (run_inv settings ops h).kept

def oneDay : Settings := ⟨1, 500⟩

/-- a sweep from its call until it holds its one candidate -/
def select (sweep : ℕ) : List Op := [.call sweep, .begin sweep, .query sweep, .lock sweep false, .lock sweep false]

/-- its statements from the first delete on -/
def clear (sweep : ℕ) : List Op := [.delete sweep, .delete sweep, .delete sweep, .delete sweep, .commit sweep]

/-- a second run touches the thread while a sweep holds it, and waits -/
def woken : List Op :=
  [.touch 0 "t", .record 0, .write 0 .checkpoints, .tick 86400000001] ++ select 0 ++ [.touch 1 "t", .record 1] ++ clear 0 ++
    [.record 1, .write 1 .checkpoints] ++ select 1

theorem live_rows_kept_woken : (run oneDay woken).swept.length = 1 ∧ (run oneDay woken).rows.length = 1 ∧
    ∀ e ∈ (run oneDay woken).swept, Kept oneDay e :=
  ⟨by decide +kernel, by decide +kernel, live_rows_kept oneDay woken (by decide +kernel)⟩

/-- the touch of run 0 starts before the touch of run 1 and records its time after it -/
def overtaken : List Op :=
  [.touch 0 "t", .tick 2, .touch 1 "t", .record 1, .write 1 .checkpoints, .record 0, .tick 86399999999] ++ select 0 ++ clear 0

/-- a run that is still writing a day after its touch -/
def lateWriter : List Op :=
  [.touch 0 "t", .record 0, .write 0 .checkpoints, .tick 86400000001] ++ select 0 ++
    [.delete 0, .write 0 .checkpointWrites, .delete 0, .delete 0, .delete 0, .commit 0]

/-- **A live row is deleted, and a thread in part.** -/
theorem live_row_deleted :
    (∃ e ∈ (run oneDay overtaken).swept, ∃ d ∈ e.deletions, d.deletedAt < d.row.touchedAt + oneDay.ttl) ∧
      ∃ e ∈ (run oneDay lateWriter).swept, e.left ≠ [] := by
  constructor <;> decide +kernel

end Teardrop.Retention
