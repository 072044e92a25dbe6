/-
Event concurrency limits: the machine of `Scheduling.Dispatch` with reservations under fixed limits. A lease occupies a slot
while it is `reserved` or `running` and not expired. `reserve_event_dispatch_lease` counts the slots under the advisory lock;
`start_event_dispatch_lease` and `renew_event_dispatch_lease` extend a lease from outside it, whatever its expiry.
-/
import Teardrop.Scheduling.Dispatch

namespace Teardrop.Scheduling

open Teardrop.Py

/-- the slots occupied by the orgs of `p` -/
def occupied (now : ℤ) (p : String → Bool) (db : Db) : ℕ := db.leases.rows.countP (fun l => p l.orgId && l.live now)

def everyOrg (_ : String) : Bool := true

def onlyOrg (orgId other : String) : Bool := other = orgId

/-- at most `globalLimit` slots are occupied, at most `orgLimit` of an org -/
def Within (globalLimit orgLimit : ℕ) (s : St) : Prop :=
  occupied s.now everyOrg s.db ≤ globalLimit ∧ ∀ orgId, occupied s.now (onlyOrg orgId) s.db ≤ orgLimit

/-- reservations are made under these limits -/
def Fixed (globalLimit orgLimit : ℕ) : Op → Prop
  | .txn _ (.reserve a) => a.globalLimit = globalLimit ∧ a.orgLimit = orgLimit
  | _ => True

instance (globalLimit orgLimit : ℕ) : ∀ o : Op, Decidable (Fixed globalLimit orgLimit o)
  | .txn _ (.reserve _) => inferInstanceAs (Decidable (_ ∧ _))
  | .tick _ | .txn _ (.saveSchedule _) | .txn _ (.start _ _ _) | .txn _ (.renew _ _ _) | .txn _ (.finish _ _ _ _ _)
  | .txn _ (.fail _ _ _ _ _ _) | .txn _ (.recover _ _ _) | .txn _ (.record _) => .isTrue trivial

/-- the lease an operation extends, and the lease it becomes -/
def extended (s : St) : Op → Option (DispatchLease × DispatchLease)
  | .txn waited (.start runId ownerId leaseSeconds) =>
    ((leaseOf s.db runId ownerId).filter (fun l => l.status = .reserved)).map
      (fun l => (l, startRow (s.now - waited) leaseSeconds l))
  | .txn waited (.renew runId ownerId leaseSeconds) =>
    ((leaseOf s.db runId ownerId).filter (fun l => l.status = .running)).map
      (fun l => (l, renewRow (s.now - waited) leaseSeconds l))
  | _ => none

/-- a free slot, of the cluster and of the org -/
def Free (globalLimit orgLimit : ℕ) (s : St) (orgId : String) : Prop :=
  occupied s.now everyOrg s.db < globalLimit ∧ occupied s.now (onlyOrg orgId) s.db < orgLimit

/-- a lease that has expired is extended only into a free slot -/
def Fits (globalLimit orgLimit : ℕ) (s : St) (o : Op) : Prop :=
  ∀ e ∈ extended s o, e.1.live s.now = false → e.2.live s.now = true → Free globalLimit orgLimit s e.1.orgId

instance (globalLimit orgLimit : ℕ) (s : St) (o : Op) : Decidable (Fits globalLimit orgLimit s o) :=
  inferInstanceAs (Decidable (∀ e ∈ extended s o, _ → _ → _ ∧ _))

/-! ## Leases that are settled -/

/-- every lease is live at most as long as it was, in the org it was in -/
def Fewer (db db' : Db) : Prop :=
  ∃ f : DispatchLease → DispatchLease, db'.leases.rows = db.leases.rows.map f ∧
    ∀ l, (f l).orgId = l.orgId ∧ ∀ t, (f l).live t = true → l.live t = true

theorem Fewer.refl (db : Db) : Fewer db db := ⟨id, (List.map_id _).symm, fun _ => ⟨rfl, fun _ h => h⟩⟩

variable {db db' : Db} {s : St}

theorem Fewer.trans {db'' : Db} (h : Fewer db db') (h' : Fewer db' db'') : Fewer db db'' := by
  obtain ⟨f, hf, hlive⟩ := h
  obtain ⟨f', hf', hlive'⟩ := h'
  refine ⟨f' ∘ f, by rw [hf', hf, List.map_map], ?_⟩
  intro l
  exact ⟨(hlive' (f l)).1.trans (hlive l).1, fun t ht => (hlive l).2 t ((hlive' (f l)).2 t ht)⟩

theorem Fewer.of_leases (h : db'.leases = db.leases) : Fewer db db' :=
  ⟨id, by rw [h, List.map_id], fun _ => ⟨rfl, fun _ h => h⟩⟩

theorem Fewer.occupied_le (h : Fewer db db') (now : ℤ) (p : String → Bool) : occupied now p db' ≤ occupied now p db := by
  obtain ⟨f, hf, hlive⟩ := h
  unfold occupied
  rw [hf, List.countP_map]
  refine List.countP_mono_left (fun l _ hl => ?_)
  simp only [Function.comp, Bool.and_eq_true] at hl ⊢
  rw [(hlive l).1] at hl
  exact ⟨hl.1, (hlive l).2 now hl.2⟩

theorem fewer_settle (now : ℤ) (scheduleId orgId runId : String) (status : RunStatus) (costUsdc : ℤ) (lastError error : String)
    (db : Db) : Fewer db (settle now scheduleId orgId runId status costUsdc lastError error db) := by
  refine ⟨_, rfl, ?_⟩
  intro l
  split_ifs
  · refine ⟨rfl, fun t ht => ?_⟩
    have hdead : (closeRow now (terminalStatus status) lastError l).live t = false := by cases status <;> rfl
    rw [hdead] at ht
    cases ht
  · exact ⟨rfl, fun _ ht => ht⟩

theorem recoverLeases_fewer {now maxConsecutiveFailures : ℤ} {rows : List DispatchLease} {r : ℕ × Db}
    (h : recoverLeases now maxConsecutiveFailures rows db = .ok r) : Fewer db r.2 := by
  induction rows generalizing db r with
  | nil =>
    cases h
    exact Fewer.refl db
  | cons l rest ih =>
    obtain ⟨⟨⟩, db', hfirst, h⟩ := Tx.bind_ok h
    obtain ⟨n, db'', hrest, h⟩ := Tx.bind_ok h
    cases h
    obtain ⟨stored, db₁, hstored, hfirst⟩ := Tx.bind_ok hfirst
    cases hfirst
    have hrest' := ih hrest
    exact (Fewer.of_leases (storedResult_only hstored).leases).trans ((fewer_settle _ _ _ _ _ _ _ _ _).trans hrest')

theorem recover_fewer (now : ℤ) (limit : ℕ) (maxConsecutiveFailures : ℤ) (busy : List String) (db : Db) :
    Fewer db (Tx.commit (recover now limit maxConsecutiveFailures busy) db).2 := by
  rcases Tx.commit_cases (recover now limit maxConsecutiveFailures busy) db with ⟨r, db', hrun, hcommit⟩ | ⟨e, -, hcommit⟩
  · rw [hcommit]
    exact recoverLeases_fewer (Tx.read_bind_ok hrun)
  · rw [hcommit]
    exact Fewer.refl db

/-! ## Leases that are extended -/

theorem occupied_extend {l : DispatchLease} (hget : db.leases.get? l.runId = some l) {f : DispatchLease → DispatchLease}
    (hf : ∀ l, (f l).runId = l.runId) (horg : ∀ l, (f l).orgId = l.orgId) (now : ℤ) (p : String → Bool) :
    occupied now p (onLease l.runId f hf db) + (if p l.orgId && l.live now then 1 else 0) =
      occupied now p db + if p l.orgId && (f l).live now then 1 else 0 := by
  have hchange := Table.countP_change hget (p := fun l => p l.orgId && l.live now)
    (q := fun l' => p (if l'.runId = l.runId then f l' else l').orgId && (if l'.runId = l.runId then f l' else l').live now)
    (fun l' _ hne => by simp only [if_neg hne])
  simp only [if_true, horg] at hchange
  unfold occupied onLease Table.update
  rw [List.countP_map]
  exact hchange

theorem occupied_later {now later : ℤ} (h : now ≤ later) (p : String → Bool) (db : Db) :
    occupied later p db ≤ occupied now p db := by
  refine List.countP_mono_left (fun l _ hl => ?_)
  simp only [DispatchLease.live, Bool.and_eq_true, decide_eq_true_eq] at hl ⊢
  exact ⟨hl.1, hl.2.1, by omega⟩

variable {globalLimit orgLimit : ℕ}

theorem Within.fewer (h : Within globalLimit orgLimit s) (hfewer : Fewer s.db db') :
    Within globalLimit orgLimit { s with db := db' } :=
  ⟨(hfewer.occupied_le s.now _).trans h.1, fun orgId => (hfewer.occupied_le s.now _).trans (h.2 orgId)⟩

/-- an extension keeps the limits exactly when it does not wake a lease, or finds a free slot -/
theorem within_extend (h : Within globalLimit orgLimit s) {l : DispatchLease} (hget : s.db.leases.get? l.runId = some l)
    (f : DispatchLease → DispatchLease) (hf : ∀ l, (f l).runId = l.runId) (horg : ∀ l, (f l).orgId = l.orgId) :
    Within globalLimit orgLimit { s with db := onLease l.runId f hf s.db } ↔
      (l.live s.now = false → (f l).live s.now = true → Free globalLimit orgLimit s l.orgId) := by
  have hcount := occupied_extend hget hf horg s.now
  have hall := hcount everyOrg
  have hown := hcount (onlyOrg l.orgId)
  simp only [everyOrg, onlyOrg, decide_true, Bool.true_and] at hall hown
  by_cases hwakes : l.live s.now = false ∧ (f l).live s.now = true
  · obtain ⟨hdead, hlive⟩ := hwakes
    simp only [hdead, hlive, Bool.false_eq_true, if_false, if_true, add_zero] at hall hown
    constructor
    · rintro ⟨hglobal, horgs⟩ - -
      have horgs := horgs l.orgId
      exact ⟨Nat.lt_of_succ_le (hall.symm.le.trans hglobal), Nat.lt_of_succ_le (hown.symm.le.trans horgs)⟩
    · intro hfree
      obtain ⟨hglobal, horgfree⟩ := hfree hdead hlive
      refine ⟨hall.le.trans hglobal, fun orgId => ?_⟩
      by_cases hsame : l.orgId = orgId
      · rw [← hsame]
        exact hown.le.trans horgfree
      · have hother := hcount (onlyOrg orgId)
        simp only [onlyOrg, hsame, decide_false, Bool.false_and, Bool.false_eq_true, if_false, add_zero] at hother
        exact hother.le.trans (h.2 orgId)
  · have hle : ∀ p, occupied s.now p (onLease l.runId f hf s.db) ≤ occupied s.now p s.db := by
      intro p
      have hp := hcount p
      have hslot : (p l.orgId && (f l).live s.now) = true → (p l.orgId && l.live s.now) = true := by
        intro hafter
        rw [Bool.and_eq_true] at hafter ⊢
        exact ⟨hafter.1, by simpa using fun hdead => hwakes ⟨hdead, hafter.2⟩⟩
      split_ifs at hp with hbefore hafter hafter
      · omega
      · omega
      · exact absurd (hslot hafter) hbefore
      · omega
    constructor
    · exact fun _ hdead hlive => absurd ⟨hdead, hlive⟩ hwakes
    · exact fun _ => ⟨(hle everyOrg).trans h.1, fun orgId => (hle (onlyOrg orgId)).trans (h.2 orgId)⟩

/-! ## Runs -/

/-- a reservation counts what is live at the time it began, and that is at least what is live now -/
theorem within_accept (h : Within globalLimit orgLimit s) {waited : ℕ} {a : Reservation} {keys : Table DispatchKey.slot}
    {leases : Table DispatchLease.runId} (ha : Accepts (s.now - waited) a s.db keys leases)
    (hglobal : a.globalLimit = globalLimit) (horg : a.orgLimit = orgLimit) :
    Within globalLimit orgLimit { s with db := a.store keys leases s.db } := by
  have hadd : ∀ p, occupied s.now p (a.store keys leases s.db) =
      occupied s.now p s.db + if p a.orgId && (a.leaseRow (s.now - waited)).live s.now then 1 else 0 := by
    intro p
    show leases.rows.countP _ = _
    rw [(Table.insert?_eq_some ha.leases).2, List.countP_append, List.countP_singleton]
    rfl
  have hlater : s.now - waited ≤ s.now := by omega
  have hroom : occupied s.now everyOrg s.db < globalLimit := by
    refine lt_of_le_of_lt (occupied_later hlater everyOrg s.db) ?_
    rw [← hglobal]
    simpa [occupied, everyOrg] using ha.room
  have horgRoom : occupied s.now (onlyOrg a.orgId) s.db < orgLimit := by
    refine lt_of_le_of_lt (occupied_later hlater _ s.db) ?_
    rw [← horg]
    exact ha.orgRoom
  constructor
  · have hcount := hadd everyOrg
    show occupied s.now everyOrg (a.store keys leases s.db) ≤ globalLimit
    split_ifs at hcount <;> omega
  · intro orgId
    have hcount := hadd (onlyOrg orgId)
    show occupied s.now (onlyOrg orgId) (a.store keys leases s.db) ≤ orgLimit
    by_cases hsame : a.orgId = orgId
    · rw [hsame] at horgRoom
      split_ifs at hcount <;> omega
    · have hnone : onlyOrg orgId a.orgId = false := decide_eq_false hsame
      rw [hnone, Bool.false_and, if_neg Bool.false_ne_true, add_zero] at hcount
      exact hcount.le.trans (h.2 orgId)

theorem fits_of_none {o : Op} (h : extended s o = none) : Fits globalLimit orgLimit s o := by
  intro e he
  rw [h] at he
  cases he

theorem leaseOf_cases (db : Db) (runId ownerId : String) (status : LeaseStatus) :
    (∃ l, l.runId = runId ∧ db.leases.get? l.runId = some l ∧ (leaseOf db runId ownerId).map DispatchLease.status = some status ∧
      (leaseOf db runId ownerId).filter (fun l => l.status = status) = some l) ∨
    (leaseOf db runId ownerId).map DispatchLease.status ≠ some status ∧
      (leaseOf db runId ownerId).filter (fun l => l.status = status) = none := by
  cases hlease : leaseOf db runId ownerId with
  | none => exact Or.inr ⟨by simp, rfl⟩
  | some l =>
    obtain ⟨hget, rfl⟩ := leaseOf_some hlease
    by_cases hstatus : l.status = status
    · exact Or.inl ⟨l, rfl, hget, by simp [hstatus], by simp [hstatus]⟩
    · exact Or.inr ⟨by simp [hstatus], by simp [hstatus]⟩

theorem record_leases (result : ScheduledRunResult) (db : Db) : (Tx.commit (record result) db).2.leases = db.leases := by
  rcases Tx.commit_cases (record result) db with ⟨r, db', hrun, hcommit⟩ | ⟨e, -, hcommit⟩
  · rw [hcommit]
    have h := Tx.read_bind_ok hrun
    simp only [id_eq] at h
    cases hresults : db.results.insert? result with
    | none =>
      rw [hresults] at h
      cases h
    | some results =>
      rw [hresults] at h
      obtain ⟨-, h⟩ := Tx.require_bind_ok h
      cases h
      rfl
  · rw [hcommit]

theorem within_step (s : St) (o : Op) (hfixed : Fixed globalLimit orgLimit o) (h : Within globalLimit orgLimit s) :
    Within globalLimit orgLimit (step s o) ↔ Fits globalLimit orgLimit s o := by
  cases o with
  | tick micros =>
    refine iff_of_true ?_ (fits_of_none rfl)
    have hlater : s.now ≤ s.now + micros := by omega
    exact ⟨(occupied_later hlater _ s.db).trans h.1, fun orgId => (occupied_later hlater _ s.db).trans (h.2 orgId)⟩
  | txn waited t =>
    cases t with
    | saveSchedule row =>
      obtain ⟨schedules, hdb⟩ := saveSchedule_only row s.db
      refine iff_of_true (h.fewer (Fewer.of_leases ?_)) (fits_of_none rfl)
      rw [apply, hdb]
    | reserve a =>
      refine iff_of_true ?_ (fits_of_none rfl)
      rcases reserve_effect (s.now - waited) a s.db with ⟨r, -, hcommit⟩ | ⟨keys, leases, haccepts, hcommit⟩
      · rw [step, apply, hcommit]
        exact h
      · rw [step, apply, hcommit]
        exact within_accept h haccepts hfixed.1 hfixed.2
    | start runId ownerId leaseSeconds =>
      rcases leaseOf_cases s.db runId ownerId .reserved with ⟨l, rfl, hget, hstatus, hlease⟩ | ⟨hstatus, hlease⟩
      · have hextended : extended s (.txn waited (.start l.runId ownerId leaseSeconds)) =
            some (l, startRow (s.now - waited) leaseSeconds l) := by rw [extended, hlease, Option.map_some]
        rw [step, apply, start, if_pos hstatus]
        refine (within_extend h hget (startRow (s.now - waited) leaseSeconds) (fun _ => rfl) (fun _ => rfl)).trans ?_
        unfold Fits
        rw [hextended]
        simp
      · refine iff_of_true ?_ (fits_of_none (by rw [extended, hlease]; rfl))
        rw [step, apply, start, if_neg hstatus]
        exact h
    | renew runId ownerId leaseSeconds =>
      rcases leaseOf_cases s.db runId ownerId .running with ⟨l, rfl, hget, hstatus, hlease⟩ | ⟨hstatus, hlease⟩
      · have hextended : extended s (.txn waited (.renew l.runId ownerId leaseSeconds)) =
            some (l, renewRow (s.now - waited) leaseSeconds l) := by rw [extended, hlease, Option.map_some]
        rw [step, apply, renew, if_pos hstatus]
        refine (within_extend h hget (renewRow (s.now - waited) leaseSeconds) (fun _ => rfl) (fun _ => rfl)).trans ?_
        unfold Fits
        rw [hextended]
        simp
      · refine iff_of_true ?_ (fits_of_none (by rw [extended, hlease]; rfl))
        rw [step, apply, renew, if_neg hstatus]
        exact h
    | finish scheduleId orgId runId ownerId result =>
      refine iff_of_true ?_ (fits_of_none rfl)
      rcases finish_effect (s.now - waited) scheduleId orgId runId ownerId result s.db with hcommit | ⟨-, hcommit⟩
      · rw [step, apply, hcommit]
        exact h
      · rw [step, apply, hcommit]
        exact h.fewer (fewer_settle _ _ _ _ _ _ _ _ _)
    | fail scheduleId orgId runId ownerId maxConsecutiveFailures error =>
      refine iff_of_true ?_ (fits_of_none rfl)
      rcases fail_effect (s.now - waited) scheduleId orgId runId ownerId maxConsecutiveFailures error s.db with
        hcommit | ⟨-, stored, db', hstored, hcommit⟩
      · rw [step, apply, hcommit]
        exact h
      · rw [step, apply, hcommit]
        exact h.fewer ((Fewer.of_leases (storedResult_only hstored).leases).trans (fewer_settle _ _ _ _ _ _ _ _ _))
    | recover limit maxConsecutiveFailures busy =>
      exact iff_of_true (h.fewer (recover_fewer _ limit maxConsecutiveFailures busy s.db)) (fits_of_none rfl)
    | record result =>
      exact iff_of_true (h.fewer (Fewer.of_leases (record_leases result s.db))) (fits_of_none rfl)

theorem within_init (globalLimit orgLimit : ℕ) (now : ℤ) : Within globalLimit orgLimit (init now) :=
  ⟨Nat.zero_le _, fun _ => Nat.zero_le _⟩

/-- **Concurrency limits.** Under fixed limits, at every moment of a run the unexpired leases are within the limits exactly when
every expired lease that a start or a renewal brings back to life finds a free slot, of the cluster and of its org. -/
theorem slots_held (globalLimit orgLimit : ℕ) (now : ℤ) (ops : List Op) (hfixed : ∀ o ∈ ops, Fixed globalLimit orgLimit o) :
    (∀ n, Within globalLimit orgLimit (run (init now) (ops.take n))) ↔
      Runs.Legal step (Fits globalLimit orgLimit) (init now) ops :=
  Runs.legal_iff_under step (fun _ => True) (Within globalLimit orgLimit) (fun _ o => Fixed globalLimit orgLimit o)
    (Fits globalLimit orgLimit) (fun _ _ _ _ => trivial) (fun s o _ ho h => within_step s o ho h) ops trivial
    (within_init globalLimit orgLimit now) (Runs.legal_of_mem step (init now) ops hfixed)

/-- a run under a limit of one that is started and renewed in time -/
theorem slots_held_renewed : Within 1 1 (run (init 0) (List.take 6
      [.txn 0 (.saveSchedule ⟨"T", "O", true, true, none, none, 0⟩), .txn 0 (.reserve ⟨"T", "O", "A", "R", "W", 60, 1, 1, "R", 0⟩),
        .txn 0 (.start "R" "W" 60), .tick 20000000, .txn 0 (.renew "R" "W" 60),
        .txn 0 (.reserve ⟨"T", "O", "B", "R2", "W2", 60, 1, 1, "R2", 0⟩)])) :=
  (slots_held 1 1 0 _ (by decide)).2 (by decide) 6

/-- the worker of a run is late: its lease has expired and another run has the only slot when it renews -/
def lateRun : List Op :=
  [.txn 0 (.saveSchedule ⟨"T", "O", true, true, none, none, 0⟩), .txn 0 (.reserve ⟨"T", "O", "A", "R", "W", 60, 1, 1, "R", 0⟩),
    .txn 0 (.start "R" "W" 60), .tick 61000000, .txn 0 (.reserve ⟨"T", "O", "B", "R2", "W2", 60, 1, 1, "R2", 0⟩),
    .txn 0 (.start "R2" "W2" 60), .txn 0 (.renew "R" "W" 60)]

/-- two leases are live under a limit of one -/
theorem renewed_late :
    (∀ o ∈ lateRun, Fixed 1 1 o) ∧ occupied (run (init 0) lateRun).now everyOrg (run (init 0) lateRun).db = 2 ∧
      ¬ Within 1 1 (run (init 0) lateRun) := by
  have htwo : occupied (run (init 0) lateRun).now everyOrg (run (init 0) lateRun).db = 2 := by decide
  refine ⟨by decide, htwo, ?_⟩
  rintro ⟨hglobal, -⟩
  exact absurd hglobal (by decide)

end Teardrop.Scheduling
