/-
Which withdrawals a later sweep picks up again. The query of the sweep takes `pending` withdrawals, and `failed` ones whose
`next_sweep_at` has come; NULL never comes. `failed` is written by `_claim_withdrawal` and `_release_withdrawal`, which leave
`next_sweep_at` as it is, and by the reconciler, which sets it in the same statement. The retry time of the first two is
written by the sweep, two statements later, and by nobody when the call came from the admin route or the sweep stopped.
-/
import Teardrop.Marketplace.Links

namespace Teardrop.Marketplace

open Teardrop.Py Proc

/-! ## Withdrawals a sweep will find -/

/-- the row the sweep's query has for a withdrawal -/
def Withdrawal.candidate (w : Withdrawal) (hour : ℤ) : ℤ × Candidate :=
  (w.createdAt, ⟨w.orgId, w.amountUsdc, if w.id = "" then sweepWithdrawalId w.orgId hour else w.id⟩)

/-- the query of every sweep from some time on selects the withdrawal -/
def WillBeSelected (db : Db) (w : Withdrawal) : Prop := ∃ t, ∀ now ≥ t, ∀ hour, w.candidate hour ∈ waiting db now hour

/-- a failed withdrawal has a retry time -/
def Scheduled (r : Progress) : Prop := r.status = .failed → r.nextSweepAt ≠ none

/-- nothing stalls: a withdrawal is settled, or in front of an operator, or a later sweep selects it -/
structure NoStall (db : Db) : Prop where
  attended : ∀ w ∈ db.withdrawals.rows, w.status = .settled ∨ w.status = .inFlight ∨ w.status = .exhausted ∨
    WillBeSelected db w
  scheduled : ∀ w ∈ db.withdrawals.rows, Scheduled w.toProgress

variable {db : Db} {w : World} (s : Settings)

theorem mem_waiting {w : Withdrawal} {now : ℤ} (hw : w ∈ db.withdrawals.rows)
    (h : w.status = .pending ∨ Db.isDue now w.toProgress) (hour : ℤ) : w.candidate hour ∈ waiting db now hour := by
  refine List.mem_map.2 ⟨w, List.mem_filter.2 ⟨hw, ?_⟩, rfl⟩
  exact decide_eq_true h

theorem NoStall.of_scheduled (h : ∀ w ∈ db.withdrawals.rows, Scheduled w.toProgress) : NoStall db where
  attended w hw := by
    match hs : w.status with
    | .settled => exact Or.inl rfl
    | .inFlight => exact Or.inr (Or.inl rfl)
    | .exhausted => exact Or.inr (Or.inr (Or.inl rfl))
    | .pending =>
      refine Or.inr (Or.inr (Or.inr ⟨0, fun now _ hour => ?_⟩))
      exact mem_waiting hw (Or.inl hs) hour
    | .failed =>
      obtain ⟨t, ht⟩ := Option.ne_none_iff_exists'.1 (h w hw hs)
      refine Or.inr (Or.inr (Or.inr ⟨t, fun now hnow hour => ?_⟩))
      refine mem_waiting hw (Or.inr ?_) hour
      simp [Db.isDue, hs, ht, hnow]
  scheduled := h

/-! ## Statements -/

namespace Db

def AllScheduled (db : Db) : Prop := ∀ x w, db.withdrawals.get? x = some w → Scheduled w.toProgress

theorem allScheduled_iff (db : Db) : db.AllScheduled ↔ NoStall db := by
  constructor
  · intro h
    exact NoStall.of_scheduled (fun w hw => h w.id w (Table.get?_of_mem hw))
  · intro h x w hw
    exact h.scheduled w (Table.mem_of_get? hw)

theorem AllScheduled.of_eq {db' : Db} (h : db.AllScheduled) (heq : db'.withdrawals = db.withdrawals) : db'.AllScheduled := by
  intro x w hw
  rw [heq] at hw
  exact h x w hw

theorem AllScheduled.unlink (h : db.AllScheduled) (x : String) : (db.unlink x).AllScheduled := h.of_eq rfl

theorem allScheduled_updateWithdrawal_iff (h : db.AllScheduled) (x : String) (p : Progress → Bool)
    (f : Progress → Progress) :
    (db.updateWithdrawal x p f).AllScheduled ↔
      ∀ w, db.withdrawals.get? x = some w → p w.toProgress → Scheduled (f w.toProgress) := by
  constructor
  · intro hall w hw hp
    have hset := hall x { w with toProgress := f w.toProgress }
    rw [get?_updateWithdrawal, hw, Option.map_some, edited_pos hp] at hset
    exact hset rfl
  · intro hf y w hw
    by_cases hy : y = x
    · rw [hy, get?_updateWithdrawal] at hw
      obtain ⟨w₀, hw₀, rfl⟩ := Option.map_eq_some_iff.1 hw
      by_cases hp : p w₀.toProgress
      · rw [edited_pos hp]
        exact hf w₀ hw₀ hp
      · rw [edited_neg hp]
        exact h x w₀ hw₀
    · rw [(touches_updateWithdrawal db x p f).rows y hy] at hw
      exact h y w hw

variable {x : String}

theorem AllScheduled.update (h : db.AllScheduled) {p : Progress → Bool} {f : Progress → Progress}
    (hf : ∀ r, p r → Scheduled r → Scheduled (f r)) : (db.updateWithdrawal x p f).AllScheduled := by
  apply (allScheduled_updateWithdrawal_iff h x p f).2
  intro w hw hp
  exact hf w.toProgress hp (h x w hw)

theorem AllScheduled.insertWithdrawal {db' : Db} {org wallet : String} {amount createdAt : ℤ} (h : db.AllScheduled)
    (hi : db.insertWithdrawal x org amount wallet createdAt = .ok db') : db'.AllScheduled := by
  obtain ⟨-, ⟨w', hw', hnew⟩, htouches, -⟩ := linked_insertWithdrawal hi
  intro y w hw
  by_cases hy : y = x
  · rw [hy, hw'] at hw
    cases hw
    rw [hnew]
    intro hfailed
    cases hfailed
  · rw [htouches.rows y hy] at hw
    exact h y w hw

/-- a pending withdrawal without a retry time for which the pass takes nothing -/
def failsUnscheduled (db : Db) (tie : String → ℕ) (w : Withdrawal) : Bool :=
  w.status = .pending ∧ w.nextSweepAt = none ∧
    ((db.selectEarningsToSettle w.orgId w.amountUsdc tie).1 = [] ∨ (db.selectEarningsToSettle w.orgId w.amountUsdc tie).2 ≤ 0)

theorem allScheduled_claim_iff {db' : Db} {tie : String → ℕ} {w' : Withdrawal} {total : ℤ} (h : db.AllScheduled)
    (hc : db.claimWithdrawal x tie = .ok (db', w', total)) :
    db'.AllScheduled ↔ (db.withdrawals.get? x).any (db.failsUnscheduled tie) = false := by
  unfold claimWithdrawal at hc
  split at hc
  · cases hc
  · rename_i w hw
    by_cases hpending : w.status = .pending
    · rw [if_neg (not_not.2 hpending)] at hc
      dsimp only at hc
      have hp : (fun r : Progress => decide (r.status = .pending)) w.toProgress := decide_eq_true hpending
      rw [hw, Option.any_some]
      by_cases hnone : (db.selectEarningsToSettle w.orgId w.amountUsdc tie).1 = [] ∨
          (db.selectEarningsToSettle w.orgId w.amountUsdc tie).2 ≤ 0
      · rw [if_pos hnone] at hc
        cases hc
        rw [allScheduled_updateWithdrawal_iff h]
        have hiff : db.failsUnscheduled tie w = false ↔ w.nextSweepAt ≠ none := by
          simp [failsUnscheduled, hpending, hnone]
        rw [hiff]
        constructor
        · intro hall
          exact hall w hw hp rfl
        · intro hnext w₁ hw₁ _ _
          rw [hw] at hw₁
          cases hw₁
          exact hnext
      · rw [if_neg hnone] at hc
        cases hc
        constructor
        · simp [failsUnscheduled, hnone]
        · intro _
          have hlinked : (db.link x (db.selectEarningsToSettle w.orgId w.amountUsdc tie).1).AllScheduled := h.of_eq rfl
          apply hlinked.update
          intro _ _ _ hfailed
          cases hfailed
    · rw [if_pos hpending] at hc
      cases hc

end Db

/-! ## Steps -/

variable (e : Env)

theorem stmt_allScheduled_iff {α : Type} {w' : World} (next raised : α) (h : w.db.AllScheduled) :
    (e.stmt w w' next raised).1.db.AllScheduled ↔ (e.fault ≠ some .refused → w'.db.AllScheduled) := by
  unfold Env.stmt
  split <;> simp_all

theorem stmt_scheduled {α : Type} {w' : World} (next raised : α) (h : w.db.AllScheduled) (h' : w'.db.AllScheduled) :
    (e.stmt w w' next raised).1.db.AllScheduled :=
  stmt_fst (fun w => w.db.AllScheduled) e next raised h h'

/-- in flight, and without a retry time -/
def inFlightUnscheduled (r : Progress) : Bool := r.status = .inFlight ∧ r.nextSweepAt = none

/-- a transaction of `process_withdrawal` that leaves its withdrawal failed without a retry time -/
def Proc.stalls (s : Settings) (e : Env) (x : String) (db : Db) : Proc → Bool
  | .claim =>
    s.agentWalletEnabled && e.fault ≠ some .refused && (db.withdrawals.get? x).any (db.failsUnscheduled e.tie)
  | .release _ => e.fault ≠ some .refused && db.holds x inFlightUnscheduled
  | _ => false

open Db in
/-- **`process_withdrawal`, one transaction.** -/
theorem Proc.step_scheduled_iff (x : String) (h : w.db.AllScheduled) (p : Proc) :
    (p.step s e x w).1.db.AllScheduled ↔ p.stalls s e x w.db = false := by
  match p with
  | .claim =>
    simp only [step, stalls]
    by_cases hwallets : s.agentWalletEnabled = false
    · rw [if_pos hwallets]
      simp [h, hwallets]
    · rw [if_neg hwallets]
      rw [Bool.not_eq_false] at hwallets
      split
      · rename_i hclaim
        -- a withdrawal that is not pending is not failed by the claim
        have hany : (w.db.withdrawals.get? x).any (w.db.failsUnscheduled e.tie) = false := by
          unfold claimWithdrawal at hclaim
          split at hclaim
          · rename_i hget
            rw [hget]
            rfl
          · rename_i row hrow
            rw [hrow, Option.any_some]
            by_cases hpending : row.status = .pending
            · rw [if_neg (not_not.2 hpending)] at hclaim
              dsimp only at hclaim
              split_ifs at hclaim
            · simp [failsUnscheduled, hpending]
        simp [h, hany]
      · rename_i db row total hclaim
        rw [stmt_allScheduled_iff e _ _ h, allScheduled_claim_iff h hclaim]
        by_cases hfault : e.fault = some .refused <;> simp [hfault, hwallets]
  | .transfer wallet total =>
    simp only [step, stalls, iff_true]
    split_ifs <;> exact h
  | .verify txHash =>
    simp only [step, stalls, iff_true]
    split <;> exact h
  | .settle txHash =>
    simp only [step, stalls, settleWithdrawal, iff_true]
    split_ifs
    · apply stmt_scheduled e _ _ h
      apply h.update
      intro _ _ _ hfailed
      cases hfailed
    · exact h
  | .release error =>
    simp only [step, stalls, releaseWithdrawal]
    split_ifs with hflight
    · rw [stmt_allScheduled_iff e _ _ h, allScheduled_updateWithdrawal_iff (h.unlink x)]
      have hholds : w.db.holds x inFlightUnscheduled = false ↔
          ∀ row, w.db.withdrawals.get? x = some row → isInFlight row.toProgress → row.nextSweepAt ≠ none := by
        rw [← Bool.not_eq_true, holds_iff, not_exists]
        apply forall_congr'
        intro row
        simp [inFlightUnscheduled, isInFlight]
      by_cases hfault : e.fault = some .refused
      · simp [hfault]
      · simp only [ne_eq, hfault, not_false_eq_true, forall_const, decide_true, Bool.true_and, hholds]
        apply forall_congr'
        intro row
        simp only [Scheduled, forall_const]
        rfl
    · have hnone : w.db.holds x inFlightUnscheduled = false := by
        rw [← Bool.not_eq_true, holds_iff]
        rintro ⟨row, hrow, hp⟩
        apply hflight
        refine holds_iff.2 ⟨row, hrow, ?_⟩
        simp only [inFlightUnscheduled, Bool.decide_and, Bool.and_eq_true, decide_eq_true_eq] at hp
        exact decide_eq_true hp.1
      simp [h, hnone]
  | .recordInFlight txHash error =>
    simp only [step, stalls, iff_true]
    apply stmt_scheduled e _ _ h
    apply h.update
    intro _ _ hs
    exact hs

open Db in
theorem Request.step_scheduled (org : String) (amount : ℤ) (h : w.db.AllScheduled) (p : Request) :
    (p.step s e org amount w).1.db.AllScheduled := by
  match p with
  | .config =>
    simp only [Request.step]
    by_cases hwallets : s.agentWalletEnabled = false
    · rw [if_pos hwallets]
      exact h
    · rw [if_neg hwallets]
      exact stmt_scheduled e _ _ h h
  | .balance wallet => exact stmt_scheduled e _ _ h h
  | .cooldown wallet => exact stmt_scheduled e _ _ h h
  | .insert wallet =>
    simp only [Request.step]
    split
    · exact h
    · rename_i hinsert
      exact stmt_scheduled e _ _ h (h.insertWithdrawal hinsert)

open Db in
/-- the sweep's own writes set the retry time, or leave `failed` -/
theorem Sweep.step_scheduled (n : ℕ) (c : Candidate) (rest : List Candidate) (h : w.db.AllScheduled) (p : Sweep)
    (hp : ∀ q, p ≠ .process q) : (p.step s e n c rest w).1.db.AllScheduled := by
  match p with
  | .fetch => exact stmt_scheduled e _ _ h h
  | .config => exact stmt_scheduled e _ _ h h
  | .insert wallet =>
    simp only [Sweep.step]
    split
    · rename_i hinsert
      exact stmt_scheduled e _ _ h (h.insertWithdrawal hinsert)
    · exact stmt_scheduled e _ _ h h
    · exact h
  | .requeue =>
    apply stmt_scheduled e _ _ h
    apply h.update
    intro _ _ _ hfailed
    cases hfailed
  | .process q => exact absurd rfl (hp q)
  | .readAttempts error => exact stmt_scheduled e _ _ h h
  | .penalize attempt error =>
    apply stmt_scheduled e _ _ h
    dsimp only
    split_ifs
    · apply h.update
      intro _ _ _ hfailed
      cases hfailed
    · apply h.update
      intro _ _ _ _ hnone
      cases hnone

open Db in
theorem reconcileWrite_scheduled (row : Snapshot) (h : db.AllScheduled) (c : Check) :
    (reconcileWrite s e row db c).1.AllScheduled := by
  match c with
  | .confirmed =>
    apply h.update
    intro _ _ _ hfailed
    cases hfailed
  | .reverted =>
    simp only [reconcileWrite, releaseRevertedWithdrawal]
    by_cases hhit : db.holds row.id (isInFlightWith row.txHash)
    · rw [if_pos hhit]
      apply AllScheduled.unlink
      apply h.update
      intro r _ _
      split_ifs
      · intro hfailed
        cases hfailed
      · intro _ hnone
        cases hnone
    · rw [if_neg hhit]
      exact h
  | .mismatch =>
    apply h.update
    intro _ _ hs
    exact hs
  | .pending => exact h

/-- such a transaction, in a call of the admin route or of a sweep -/
def Task.stalls (s : Settings) (e : Env) (db : Db) : Task → Bool
  | .process x p => p.stalls s e x db
  | .sweep _ c (.process p) _ => p.stalls s e c.id db
  | _ => false

theorem Task.step_scheduled_iff (h : w.db.AllScheduled) (t : Task) :
    (t.step s e w).1.db.AllScheduled ↔ t.stalls s e w.db = false := by
  match t with
  | .process x p => exact p.step_scheduled_iff s e x h
  | .sweep n c (.process p) rest => exact p.step_scheduled_iff s e c.id h
  | .sweep n c .fetch rest => exact iff_of_true (Sweep.step_scheduled s e n c rest h _ (by simp)) rfl
  | .sweep n c .config rest => exact iff_of_true (Sweep.step_scheduled s e n c rest h _ (by simp)) rfl
  | .sweep n c (.insert wallet) rest => exact iff_of_true (Sweep.step_scheduled s e n c rest h _ (by simp)) rfl
  | .sweep n c .requeue rest => exact iff_of_true (Sweep.step_scheduled s e n c rest h _ (by simp)) rfl
  | .sweep n c (.readAttempts error) rest => exact iff_of_true (Sweep.step_scheduled s e n c rest h _ (by simp)) rfl
  | .sweep n c (.penalize attempt error) rest => exact iff_of_true (Sweep.step_scheduled s e n c rest h _ (by simp)) rfl
  | .request org amount p => exact iff_of_true (p.step_scheduled s e org amount h) rfl
  | .sweepQuery => exact iff_of_true (stmt_scheduled e _ _ h h) rfl
  | .reconcileQuery =>
    refine iff_of_true ?_ rfl
    simp only [Task.step]
    split_ifs
    · exact h
    · exact stmt_scheduled e _ _ h h
  | .reconcile resolved row none rest =>
    refine iff_of_true ?_ rfl
    simp only [Task.step, reconcileCheck]
    split <;> exact h
  | .reconcile resolved row (some c) rest =>
    exact iff_of_true (stmt_scheduled e _ _ h (reconcileWrite_scheduled s e row h c)) rfl
  | .requested _ | .refused _ | .processed _ | .counted _ | .failed => exact iff_of_true h rfl

/-! ## Runs -/

def stalls (s : Settings) (w : World) : Act → Bool
  | .advance i e => w.tasks[i]?.any (fun t => t.stalls s e w.db)
  | _ => false

open Db in
theorem step_scheduled_iff (h : w.db.AllScheduled) (a : Act) : (step s w a).db.AllScheduled ↔ stalls s w a = false := by
  match a with
  | .advance i e =>
    unfold step stalls
    dsimp only
    match hi : w.tasks[i]? with
    | none => exact iff_of_true h rfl
    | some t => exact t.step_scheduled_iff s e h
  | .call c => exact iff_of_true h rfl
  | .crash i => exact iff_of_true h rfl
  | .completeWithdrawal x txHash =>
    refine iff_of_true ?_ rfl
    unfold step completeWithdrawal
    dsimp only
    match hw : w.db.withdrawals.get? x with
    | none => exact h
    | some row =>
      dsimp only
      split_ifs
      · exact h
      · apply h.update
        intro _ _ _ hfailed
        cases hfailed
      · apply h.update
        intro _ _ hs
        exact hs
  | .resetWithdrawal x =>
    refine iff_of_true ?_ rfl
    unfold step resetWithdrawal
    dsimp only
    have fresh : ∀ db : Db, db.AllScheduled → (db.updateWithdrawal x isResettable (fun _ => {})).AllScheduled := by
      intro db hdb
      apply hdb.update
      intro _ _ _ hfailed
      cases hfailed
    split_ifs
    · exact fresh _ (h.unlink x)
    · exact fresh _ h
    · exact h
  | .earn id org share createdAt =>
    refine iff_of_true ?_ rfl
    unfold step
    dsimp only
    split
    · exact h
    · rename_i hinsert
      exact h.of_eq (linked_insertEarning hinsert).1
  | .die txHash =>
    refine iff_of_true ?_ rfl
    unfold step
    dsimp only
    split_ifs <;> exact h
  | .land txHash =>
    refine iff_of_true ?_ rfl
    unfold step
    dsimp only
    split_ifs <;> exact h

/-- **Which runs stall nothing.** In every state of a run, with crashes and faults anywhere, each withdrawal is settled, in
flight, exhausted, or selected by later sweeps, and each failed one has its retry time, exactly when no claim of the run fails a
withdrawal without a retry time and no release takes back one. -/
theorem no_stall_iff (s : Settings) (acts : List Act) : (∀ n, NoStall (run s World.start (acts.take n)).db) ↔
      Runs.Legal (step s) (fun w a => stalls s w a = false) World.start acts := by
  simp only [← Db.allScheduled_iff]
  apply Runs.legal_iff (step s) _ (fun w => w.db.AllScheduled)
  · intro w a h
    exact step_scheduled_iff s h a
  · intro x w hw
    cases hw

/-- the admin route processes the withdrawal of `requested` (task 1), and its transfer reverts -/
def processedByAdmin : List Act :=
  requested ++
    [.call (.processWithdrawal "w1"), .advance 1 quiet, .advance 1 { quiet with transferUsdc := some "0xa" }, .die "0xa",
      .advance 1 { quiet with verifyUsdcTransfer := some false }, .advance 1 quiet]

/-- **A stalled withdrawal.** It is failed, no later sweep selects it, and it is unsettled, so that the org gets no automatic
payout either. -/
theorem processed_by_admin_stalls :
    ¬ NoStall (run {} World.start processedByAdmin).db ∧
      (run {} World.start processedByAdmin).tasks[1]? = some (.processed (.returned .failed "Transaction reverted on-chain")) ∧
      hasUnsettled (run {} World.start processedByAdmin).db "author" = true ∧
      ∀ now hour, waiting (run {} World.start processedByAdmin).db now hour = [] := by
  obtain ⟨w, hw, hfailed, hnext⟩ : ∃ w, (run {} World.start processedByAdmin).db.withdrawals.get? "w1" = some w ∧
      w.status = .failed ∧ w.nextSweepAt = none := ⟨_, rfl, by decide, by decide⟩
  refine ⟨?_, by decide, by decide, ?_⟩
  · intro h
    exact h.scheduled w (Table.mem_of_get? hw) hfailed hnext
  · intro now hour
    rfl

end Teardrop.Marketplace
