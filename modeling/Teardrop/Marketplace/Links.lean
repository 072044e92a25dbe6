/-
The link between earnings and withdrawals over whole runs of the payout machine. Each statement moves one withdrawal
(`Touches`), and keeps `LinkedAt` there. The one exception is the sweep's write of `exhausted`, which goes by id alone after
the network call.
-/
import Teardrop.Marketplace.Workers

namespace Teardrop.Marketplace

open Teardrop.Py

namespace Db

/-! ## Statements -/

def Linked (db : Db) : Prop := ∀ x, LinkedAt db x

variable {db db' : Db} {x : String} {p : Progress → Bool} {f : Progress → Progress} {org : String} {createdAt : ℤ}

theorem Linked.of_touches (h : Linked db) (ht : Touches x db db') (hx : LinkedAt db' x) : Linked db' := by
  intro y
  by_cases hy : y = x
  · rw [hy]
    exact hx
  · exact ht.linkedAt hy (h y)

theorem Linked.update (h : Linked db)
    (hf : ∀ w, db.withdrawals.get? x = some w → p w.toProgress → (w.status = .inFlight ∨ w.status = .settled) → ((f w.toProgress).status = .inFlight ∨ (f w.toProgress).status = .settled)) :
    Linked (db.updateWithdrawal x p f) :=
  h.of_touches (touches_updateWithdrawal db x p f) ((h x).update hf)

theorem edited_sameRow (p : Progress → Bool) (f : Progress → Progress) (w : Withdrawal) : SameRow w (edited p f w) := by
  unfold edited SameRow
  split_ifs <;> rfl

theorem edited_pos {w : Withdrawal} (h : p w.toProgress = true) :
    edited p f w = { w with toProgress := f w.toProgress } := if_pos h

theorem edited_neg {w : Withdrawal} (h : ¬ p w.toProgress = true) : edited p f w = w := if_neg h

/-- `RETURNING id` answers for a row -/
theorem holds_iff : db.holds x p ↔ ∃ w, db.withdrawals.get? x = some w ∧ p w.toProgress := by
  unfold holds
  rw [Option.any_eq_true]

/-- a claim that found nothing to pay -/
structure ClaimFailed (db db' : Db) (x : String) (w w' : Withdrawal) : Prop where
  row : w' = { w with status := .failed, txHash := "", lastSweepError := noEarnings }
  get : db'.withdrawals.get? x = some w'
  linked : ∀ y, db'.linked y = db.linked y

/-- a claim that holds `total` of the rows it read -/
structure Claimed (db db' : Db) (x : String) (tie : String → ℕ) (w w' : Withdrawal) (total : ℤ) : Prop where
  row : w' = { w with status := .inFlight, txHash := "", lastSweepError := "" }
  get : db'.withdrawals.get? x = some w'
  pos : 0 < total
  total_eq : total = shares (pass w.amountUsdc (db.claimable w.orgId tie))
  linked : db.linked x = [] → shares (db'.linked x) = total ∧ ∀ e ∈ db'.linked x, e.status = .settled ∧ e.orgId = w.orgId

variable {tie : String → ℕ}

/-- **What a claim does.** It finds the withdrawal pending, and either fails it or puts it in flight with the rows the
pass took; no other withdrawal moves. -/
theorem claimWithdrawal_cases {w' : Withdrawal} {total : ℤ} (h : db.claimWithdrawal x tie = .ok (db', w', total)) :
    ∃ w, db.withdrawals.get? x = some w ∧ w.status = .pending ∧ Touches x db db' ∧
      (ClaimFailed db db' x w w' ∨ Claimed db db' x tie w w' total) := by
  unfold claimWithdrawal at h
  cases hw : db.withdrawals.get? x with
  | none => rw [hw] at h; cases h
  | some w =>
    rw [hw] at h
    dsimp only at h
    have hpending : w.status = .pending := by
      by_contra hne
      rw [if_pos hne] at h
      cases h
    rw [if_neg (not_not.2 hpending)] at h
    have hp : (fun r : Progress => decide (r.status = .pending)) w.toProgress := decide_eq_true hpending
    refine ⟨w, rfl, hpending, ?_⟩
    by_cases hnone : (db.selectEarningsToSettle w.orgId w.amountUsdc tie).1 = [] ∨
        (db.selectEarningsToSettle w.orgId w.amountUsdc tie).2 ≤ 0
    · rw [if_pos hnone] at h
      cases h
      refine ⟨touches_updateWithdrawal _ _ _ _, Or.inl ⟨rfl, ?_, fun _ => rfl⟩⟩
      rw [get?_updateWithdrawal, hw, Option.map_some, edited_pos hp]
    · rw [if_neg hnone] at h
      cases h
      refine ⟨(touches_link _ _ _).trans (touches_updateWithdrawal _ _ _ _), Or.inr ⟨rfl, ?_, by omega, rfl, ?_⟩⟩
      · rw [get?_updateWithdrawal]
        show (db.withdrawals.get? x).map _ = _
        rw [hw, Option.map_some, edited_pos hp]
      · intro hnil
        have hperm := passed_perm db w.orgId w.amountUsdc tie
        rw [linked_updateWithdrawal, linked_link_self _ hnil, shares_claimedBy]
        refine ⟨shares_perm hperm, ?_⟩
        intro e he
        obtain ⟨e₀, he₀, rfl⟩ := List.mem_map.1 he
        have hrow := (db.claimable_perm w.orgId tie).mem_iff.1 ((pass_sublist _ _).subset (hperm.mem_iff.1 he₀))
        have hclaim := (List.mem_filter.1 hrow).2
        simp only [isClaimable, Bool.decide_and, Bool.and_eq_true, decide_eq_true_eq] at hclaim
        exact ⟨rfl, hclaim.1⟩

theorem Linked.claim {w' : Withdrawal} {total : ℤ} (h : Linked db) (hc : db.claimWithdrawal x tie = .ok (db', w', total)) :
    Linked db' := by
  obtain ⟨w, hw, hpending, ht, hcases⟩ := claimWithdrawal_cases hc
  have hnil : db.linked x = [] := by
    refine (h x).nil (fun w₁ hw₁ => ?_)
    rw [hw] at hw₁
    cases hw₁
    simp [hpending]
  refine h.of_touches ht ?_
  rcases hcases with hf | hd
  · exact LinkedAt.of_nil ((hf.linked x).trans hnil)
  · intro e he
    obtain ⟨hsettled, horg⟩ := (hd.linked hnil).2 e he
    exact ⟨hsettled, w', hd.get, by rw [hd.row, horg], Or.inl (by rw [hd.row])⟩

theorem linked_insertWithdrawal {wallet : String} {amount : ℤ}
    (h : db.insertWithdrawal x org amount wallet createdAt = .ok db') :
    db.withdrawals.get? x = none ∧ (∃ w, db'.withdrawals.get? x = some w ∧ w.toProgress = {}) ∧ Touches x db db' ∧
      ∀ y, db'.linked y = db.linked y := by
  unfold insertWithdrawal at h
  split_ifs at h with hpos
  split at h
  · cases h
  · rename_i t ht
    cases h
    have hget := Table.get?_insert ht
    refine ⟨(Table.insert?_eq_some ht).1, ⟨_, (hget x).trans (if_pos rfl), rfl⟩, ⟨?_, fun _ _ => rfl⟩, fun _ => rfl⟩
    intro y hy
    exact (hget y).trans (if_neg (fun heq => hy heq.symm))

theorem Linked.insertWithdrawal {wallet : String} {amount : ℤ} (h : Linked db)
    (hi : db.insertWithdrawal x org amount wallet createdAt = .ok db') : Linked db' := by
  obtain ⟨hfresh, -, ht, hlinked⟩ := linked_insertWithdrawal hi
  refine h.of_touches ht (LinkedAt.of_nil ?_)
  rw [hlinked]
  refine (h x).nil (fun w hw => ?_)
  rw [hfresh] at hw
  cases hw

theorem linked_insertEarning {id : String} {share : ℕ} (h : db.insertEarning id org share createdAt = .ok db') :
    db'.withdrawals = db.withdrawals ∧ ∀ y, db'.linked y = db.linked y := by
  unfold insertEarning at h
  split at h
  · cases h
  · rename_i t ht
    cases h
    refine ⟨rfl, fun y => ?_⟩
    unfold linked
    rw [(Table.insert?_eq_some ht).2, List.filter_append]
    simp

theorem Linked.insertEarning {id : String} {share : ℕ} (h : Linked db)
    (hi : db.insertEarning id org share createdAt = .ok db') : Linked db' := by
  obtain ⟨hw, hlinked⟩ := linked_insertEarning hi
  intro y e he
  rw [hlinked] at he
  rw [hw]
  exact h y e he

/-- a transaction that takes the rows of `x` back and rewrites its row -/
theorem Linked.unlinked (p : Progress → Bool) (f : Progress → Progress) (h : Linked db) :
    Linked ((db.unlink x).updateWithdrawal x p f) :=
  h.of_touches ((touches_unlink _ _).trans (touches_updateWithdrawal _ _ _ _))
    (LinkedAt.of_nil ((linked_updateWithdrawal _ _ _ _ _).trans (h x).unlinked))

end Db

/-! ## Tasks -/

variable {w : World} (s : Settings)

variable (e : Env)

theorem stmt_fst {α : Type} (P : World → Prop) (e : Env) {w' : World} (next raised : α) (h : P w) (h' : P w') :
    P (e.stmt w w' next raised).1 := by
  unfold Env.stmt
  split
  · exact h'
  · exact h
  · exact h'

/-- holds rows, or held them when they were paid -/
def holdsRows (r : Progress) : Bool := r.status = .inFlight ∨ r.status = .settled

/-- a write of `exhausted` that finds its withdrawal in flight or settled -/
def lateExhaust (s : Settings) (w : World) : Act → Bool
  | .advance i _ =>
    match w.tasks[i]? with
    | some (.sweep _ c (.penalize attempt _) _) =>
      attempt ≥ s.marketplaceMaxSweepRetries && w.db.holds c.id holdsRows
    | _ => false
  | _ => false

open Db in
theorem Proc.step_linked (x : String) (h : Linked w.db) (p : Proc) : Linked (p.step s e x w).1.db := by
  cases p with
  | claim =>
    simp only [Proc.step]
    split_ifs
    · exact h
    · split
      · exact h
      · rename_i hclaim
        exact stmt_fst (fun w => Linked w.db) e _ _ h (h.claim hclaim)
  | transfer wallet total =>
    simp only [Proc.step]
    split_ifs <;> exact h
  | verify txHash =>
    simp only [Proc.step]
    split <;> exact h
  | settle txHash =>
    simp only [Proc.step, settleWithdrawal]
    split_ifs
    · refine stmt_fst (fun w => Linked w.db) e _ _ h (h.update ?_)
      intro _ _ _ _
      exact Or.inr rfl
    · exact h
  | release error =>
    simp only [Proc.step, releaseWithdrawal]
    split_ifs
    · exact stmt_fst (fun w => Linked w.db) e _ _ h (h.unlinked _ _)
    · exact h
  | recordInFlight txHash error =>
    refine stmt_fst (fun w => Linked w.db) e _ _ h (h.update ?_)
    intro _ _ _ hstatus
    exact hstatus

open Db in
theorem Request.step_linked (org : String) (amount : ℤ) (h : Linked w.db) (p : Request) :
    Linked (p.step s e org amount w).1.db := by
  cases p with
  | insert wallet =>
    simp only [Request.step]
    split
    · exact h
    · rename_i hinsert
      exact stmt_fst (fun w => Linked w.db) e _ _ h (h.insertWithdrawal hinsert)
  | config =>
    simp only [Request.step]
    by_cases hwallets : s.agentWalletEnabled = false
    · rw [if_pos hwallets]
      exact h
    · rw [if_neg hwallets]
      exact stmt_fst (fun w => Linked w.db) e _ _ h h
  | balance _ | cooldown _ => exact stmt_fst (fun w => Linked w.db) e _ _ h h

open Db in
theorem Sweep.step_linked (n : ℕ) (c : Candidate) (rest : List Candidate) (h : Linked w.db) (p : Sweep)
    (hlate : ∀ attempt error, p = .penalize attempt error → attempt ≥ s.marketplaceMaxSweepRetries → ¬ w.db.holds c.id holdsRows) :
    Linked (p.step s e n c rest w).1.db := by
  cases p with
  | insert wallet =>
    simp only [Sweep.step]
    split
    · rename_i hinsert
      exact stmt_fst (fun w => Linked w.db) e _ _ h (h.insertWithdrawal hinsert)
    · exact stmt_fst (fun w => Linked w.db) e _ _ h h
    · exact h
  | requeue =>
    refine stmt_fst (fun w => Linked w.db) e _ _ h (h.update ?_)
    intro w _ hdue hstatus
    simp only [isDue, Bool.decide_and, Bool.and_eq_true, decide_eq_true_eq] at hdue
    rw [hdue.1] at hstatus
    simp at hstatus
  | process p => exact p.step_linked s e c.id h
  | penalize attempt error =>
    refine stmt_fst (fun w => Linked w.db) e _ _ h ?_
    dsimp only
    split_ifs with hmax
    · refine h.update ?_
      intro row hrow _ hstatus
      exact absurd (holds_iff.2 ⟨row, hrow, decide_eq_true hstatus⟩) (hlate attempt error rfl hmax)
    · refine h.update ?_
      intro _ _ _ hstatus
      exact hstatus
  | fetch | config | readAttempts _ => exact stmt_fst (fun w => Linked w.db) e _ _ h h

open Db in
theorem reconcileWrite_linked (row : Snapshot) {db : Db} (h : Linked db) (c : Check) :
    Linked (reconcileWrite s e row db c).1 := by
  cases c with
  | confirmed =>
    refine h.update ?_
    intro _ _ _ _
    exact Or.inr rfl
  | reverted =>
    simp only [reconcileWrite, releaseRevertedWithdrawal]
    by_cases hhit : db.holds row.id (isInFlightWith row.txHash)
    · rw [if_pos hhit]
      have hset := touches_updateWithdrawal db row.id (isInFlightWith row.txHash)
      refine h.of_touches ((hset _).trans (touches_unlink _ _)) (LinkedAt.of_nil ?_)
      exact linked_unlink_self (fun e he => (h row.id e he).1)
    · rw [if_neg hhit]
      exact h
  | mismatch =>
    refine h.update ?_
    intro _ _ _ hstatus
    exact hstatus
  | pending => exact h

open Db in
theorem Task.step_linked (h : Linked w.db) (t : Task)
    (hlate : ∀ n c attempt error rest, t = .sweep n c (.penalize attempt error) rest → attempt ≥ s.marketplaceMaxSweepRetries → ¬ w.db.holds c.id holdsRows) :
    Linked (t.step s e w).1.db := by
  cases t with
  | request org amount p => exact p.step_linked s e org amount h
  | process x p => exact p.step_linked s e x h
  | sweepQuery => exact stmt_fst (fun w => Linked w.db) e _ _ h h
  | sweep n c p rest =>
    refine p.step_linked s e n c rest h ?_
    rintro attempt error rfl
    exact hlate n c attempt error rest rfl
  | reconcileQuery =>
    simp only [Task.step]
    split_ifs
    · exact h
    · exact stmt_fst (fun w => Linked w.db) e _ _ h h
  | reconcile resolved row outcome rest =>
    cases outcome with
    | none =>
      simp only [Task.step, reconcileCheck]
      split <;> exact h
    | some c => exact stmt_fst (fun w => Linked w.db) e _ _ h (reconcileWrite_linked s e row h c)
  | requested _ | refused _ | processed _ | counted _ | failed => exact h

/-! ## Runs -/

open Db in
theorem step_linked (h : Linked w.db) (a : Act) (hlate : lateExhaust s w a = false) : Linked (step s w a).db := by
  cases a with
  | call _ | crash _ => exact h
  | advance i e =>
    unfold step
    dsimp only
    cases hi : w.tasks[i]? with
    | none => exact h
    | some t =>
      refine t.step_linked s e h ?_
      rintro n c attempt error rest rfl hmax hholds
      simp [lateExhaust, hi, hmax, hholds] at hlate
  | completeWithdrawal x txHash =>
    unfold step completeWithdrawal
    dsimp only
    cases hw : w.db.withdrawals.get? x with
    | none => exact h
    | some row =>
      dsimp only
      split_ifs
      · exact h
      · refine h.update ?_
        intro _ _ _ _
        exact Or.inr rfl
      · refine h.update ?_
        intro _ _ _ hstatus
        exact hstatus
  | resetWithdrawal x =>
    unfold step resetWithdrawal
    dsimp only
    split_ifs with hreset hflight
    · exact h.unlinked _ _
    · refine h.update ?_
      intro row hrow hp hstatus
      simp only [isResettable, Bool.decide_or, Bool.or_eq_true, decide_eq_true_eq] at hp
      have hne : row.status ≠ .inFlight := fun hr => hflight (holds_iff.2 ⟨row, hrow, decide_eq_true hr⟩)
      rcases hstatus with hs | hs
      · exact absurd hs hne
      · rw [hs] at hp
        simp at hp
    · exact h
  | earn id org share createdAt =>
    unfold step
    dsimp only
    split
    · exact h
    · rename_i hinsert
      exact h.insertEarning hinsert
  | die _ | land _ =>
    unfold step
    dsimp only
    split_ifs <;> exact h

theorem start_linked : Db.Linked World.start.db := fun _ _ he => absurd he List.not_mem_nil

/-- the two tables agree: a linked row is settled, of the org of its withdrawal, which is in flight or settled; a
withdrawal in any other status has no rows -/
structure Db.LinksAgree (db : Db) : Prop where
  earnings : ∀ e ∈ db.earnings.rows, ∀ x, e.withdrawalId = some x → e.status = .settled ∧
    ∃ w, db.withdrawals.get? x = some w ∧ w.orgId = e.orgId ∧ (w.status = .inFlight ∨ w.status = .settled)
  withdrawals : ∀ x w, db.withdrawals.get? x = some w →
    w.status = .pending ∨ w.status = .failed ∨ w.status = .exhausted → db.linked x = []

theorem Db.Linked.agree {db : Db} (h : Db.Linked db) : db.LinksAgree where
  earnings e he x hx := h x e (List.mem_filter.2 ⟨he, decide_eq_true hx⟩)
  withdrawals x w hw hstatus := by
    refine (h x).nil (fun w' hw' => ?_)
    rw [hw] at hw'
    cases hw'
    rcases hstatus with hs | hs | hs <;> simp [hs]

/-- **Withdrawals and earnings stay linked.** In a run of requests, processings, completions, resets, sweeps and
reconcilers, interleaved statement by statement, in which no write of `exhausted` finds its withdrawal in flight or
settled, the two tables agree in every state. -/
theorem withdrawals_stay_linked (s : Settings) (acts : List Act)
    (hlate : Runs.Legal (step s) (fun w a => lateExhaust s w a = false) World.start acts) :
    (run s World.start acts).db.LinksAgree :=
  (Runs.legal_inv (step s) _ (fun w => Db.Linked w.db) (fun _ a h hl => step_linked s h a hl) acts start_linked hlate).agree

/-- one attempt and the withdrawal is given up -/
def oneAttempt : Settings := { marketplaceMaxSweepRetries := 1 }

def quiet : Env := { now := 0, clock := 0 }

/-- an earning, and a request for it that is written as `w1` (task 0) -/
def requested : List Act :=
  [.earn "e1" "author" 500000 0, .call (.requestWithdrawal "author" 500000),
    .advance 0 { quiet with config := some "0xwallet" }, .advance 0 quiet, .advance 0 quiet,
    .advance 0 { quiet with uuid := "w1" }]

/-- a sweep (task 1) whose transfer reverts, up to the write of `exhausted` -/
def sweptToLastWrite : List Act :=
  [.call .marketplaceSweepOnce, .advance 1 quiet, .advance 1 quiet, .advance 1 quiet,
    .advance 1 { quiet with transferUsdc := some "0xa" }, .die "0xa",
    .advance 1 { quiet with verifyUsdcTransfer := some false }, .advance 1 quiet, .advance 1 quiet]

/-- the sweep's write is on time when nobody moved the withdrawal -/
theorem withdrawals_stay_linked_swept :
    (run oneAttempt World.start (requested ++ sweptToLastWrite ++ [.advance 1 quiet])).db.LinksAgree :=
  withdrawals_stay_linked oneAttempt _ (by decide)

/-- the operator resets the failed withdrawal before the write, and it is processed again (task 2) -/
def overtaken : List Act :=
  requested ++ sweptToLastWrite ++
    [.resetWithdrawal "w1", .call (.processWithdrawal "w1"), .advance 2 quiet, .advance 1 quiet]

/-- **A late write of `exhausted`.** It lands on the withdrawal that is in flight again, and takes it to `exhausted` with
its earnings still linked. -/
theorem late_exhaust_unlinks : ¬ (run oneAttempt World.start overtaken).db.LinksAgree := by
  intro h
  obtain ⟨w, hw, hstatus, hrows⟩ : ∃ w, (run oneAttempt World.start overtaken).db.withdrawals.get? "w1" = some w ∧
      w.status = .exhausted ∧ (run oneAttempt World.start overtaken).db.linked "w1" ≠ [] :=
    ⟨_, rfl, by decide, by decide⟩
  exact hrows (h.withdrawals "w1" w hw (Or.inr (Or.inr hstatus)))

end Teardrop.Marketplace
