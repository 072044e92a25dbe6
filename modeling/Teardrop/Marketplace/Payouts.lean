/-
The tasks of the payout machine keep the invariant of `Holds`, for every answer of the transfer and the chain and every
fault: one lemma for each phase of `process_withdrawal`, and one for each kind of task. A release finds no open transfer,
a claim finds a withdrawal nobody holds, and the sweep's last write, by id alone, finds the withdrawal as the release left
it.
-/
import Teardrop.Marketplace.Holds

namespace Teardrop.Marketplace

open Teardrop.Py List List.Subset Wrote Proc

/-! ## `process_withdrawal` -/

/-- what goes on from `process_withdrawal` on `x`: `k` says which task a phase or a result becomes -/
structure Cont (x : String) (k : Proc ⊕ Result → Task) : Prop where
  running : ∀ w p, Held w x p → Ok w (k (.inl p))
  failed : ∀ w error, Failed w x → Ok w (k (.inr (.returned .failed error)))
  raised : Idle (k (.inr .raised))
  settled : ∀ error, Idle (k (.inr (.returned .settled error)))
  inFlight : ∀ error, Idle (k (.inr (.returned .inFlight error)))
  hold : ∀ r y, (k r).hold = some y → y = x

variable {w : World} {x : String} {i : ℕ} (s : Settings)

theorem pending_free {row : Withdrawal} (hrow : w.db.withdrawals.get? x = some row) (hs : row.status = .pending) :
    Free w x := by
  constructor
  · rintro ⟨r, hr, hflight, -⟩
    rw [hrow] at hr
    cases hr
    rw [hs] at hflight
    cases hflight
  · rintro ⟨r, hr, hfailed, -⟩
    rw [hrow] at hr
    cases hr
    rw [hs] at hfailed
    cases hfailed

variable (e : Env) {rest : List Snapshot} {row : Snapshot}

open Db in
theorem Proc.claim_inv {t : Task} {k : Proc ⊕ Result → Task} (h : Inv w) (hi : w.tasks[i]? = some t) (hk : Cont x k)
    {db : Db} {row' : Withdrawal} {total : ℤ} (hc : w.db.claimWithdrawal x e.tie = .ok (db, row', total)) :
    Inv (World.put w.tasks i (e.stmt w { w with db := db, claims := w.claims ++ [⟨x, w.db.claimable row'.orgId e.tie⟩] }
      (k (if row'.status = .failed then .inr (.returned .failed row'.lastSweepError)
        else .inl (.transfer row'.wallet total)))
      (k (.inr .raised)))) := by
  obtain ⟨row, hrow, hpending, htouches, hcases⟩ := claimWithdrawal_cases hc
  have hstatus : ∀ r, w.db.withdrawals.get? x = some r → r.status ≠ .inFlight ∧ r.status ≠ .settled := by
    intro r hr
    rw [hrow] at hr
    cases hr
    simp [hpending]
  have hnil : w.db.linked x = [] := (h.sound x).linked.nil hstatus
  have hopen := (h.sound x).not_open hstatus
  have hnext : row.nextSweepAt = none := (h.sound x).next row hrow (.inl hpending)
  have hkept : ∀ r, w.db.withdrawals.get? x = some r → r = row := by
    intro r hr
    rw [hrow] at hr
    exact (Option.some.inj hr).symm
  rcases hcases with hf | hd
  · have hfailed : row'.status = .failed := by rw [hf.row]
    refine h.stmt e hi (.inr (pending_free hrow hpending)) ?_ ?_ (hk.hold _) hk.raised
    · refine unpaid htouches ?_ rfl rfl (subset_append_left _ _) ((hf.linked x).trans hnil) hopen ?_
      · intro r hr
        rw [hkept r hr]
        exact ⟨row', hf.get, by rw [hf.row]; rfl⟩
      · intro r hr
        change db.withdrawals.get? x = some r at hr
        rw [hf.get] at hr
        cases hr
        simp [hfailed]
    · rw [if_pos hfailed]
      exact hk.failed _ _ ⟨row', hf.get, hfailed, by rw [hf.row]; exact hnext⟩
  · have hflight : row'.status = .inFlight := by rw [hd.row]
    have hsame : SameRow row row' := by rw [hd.row]; rfl
    obtain ⟨hshares, hrows⟩ := hd.linked hnil
    have hopen' : ∀ t, ¬ Open { w with
        db := db, claims := w.claims ++ [⟨x, w.db.claimable row'.orgId e.tie⟩] } x t := hopen
    have only : ∀ r : Withdrawal, db.withdrawals.get? x = some r → r = row' := by
      intro r hr
      rw [hd.get] at hr
      exact (Option.some.inj hr).symm
    refine h.stmt e hi (.inr (pending_free hrow hpending)) ?_ ?_ (hk.hold _) hk.raised
    · refine ⟨htouches, ?_, rfl, rfl, subset_append_left _ _, ?_⟩
      · intro r hr
        rw [hkept r hr]
        exact ⟨row', hd.get, hsame⟩
      · refine { linked := ?_, next := ?_, rows := ?_, held := ?_, hash := ?_, sent := ?_, claimed := ?_ }
        · intro e he
          obtain ⟨hsettled, horg⟩ := hrows e he
          exact ⟨hsettled, row', hd.get, by rw [hsame.orgId, horg], .inl hflight⟩
        · intro r hr _
          rw [only r hr, hd.row]
          exact hnext
        · intro t ht
          exact absurd ht (hopen' t)
        · intro t ht
          exact absurd ht (hopen' t)
        · intro _ _ _ _ t ht
          exact absurd ht (hopen' t)
        · intro r hr hs
          rw [only r hr, hd.row] at hs
          simp at hs
        · intro r hr _
          refine ⟨⟨x, w.db.claimable row'.orgId e.tie⟩, mem_append_right _ mem_cons_self, rfl, ?_⟩
          rw [only r hr, hsame.amountUsdc, hsame.orgId]
          exact hshares.trans hd.total_eq
    · rw [if_neg (by rw [hflight]; decide)]
      exact hk.running _ _ ⟨⟨row', hd.get, hflight, by rw [hd.row]⟩, hshares.symm, hopen'⟩

theorem linked_unique {db : Db} {y : String} {e e' : Earning} (he : e ∈ db.linked x) (he' : e' ∈ db.linked y)
    (hid : e.id = e'.id) : x = y := by
  obtain ⟨hmem, hx⟩ := mem_filter.1 he
  obtain ⟨hmem', hy⟩ := mem_filter.1 he'
  have heq : e = e' := inj_on_of_nodup_map db.earnings.nodup hmem hmem' hid
  rw [decide_eq_true_eq] at hx hy
  rw [heq, hy] at hx
  exact (Option.some.inj hx).symm

open Db in
/-- the call of `transfer_usdc`: it covers the rows linked to `x`, and no other open transfer does -/
theorem Proc.transfer_inv {t t' : Task} (h : Inv w) (hi : w.tasks[i]? = some t) (hold : t.hold = some x) {total : ℤ}
    (hflight : InFlight w x) (htotal : total = shares (w.db.linked x)) (hopen : ∀ a, ¬ Open w x a) (wallet : String)
    (answer : Option String) (hok : ∀ w', InFlight w' x → (∀ h, answer = some h → Sent w' x h) → Ok w' t')
    (hhold : ∀ y, t'.hold = some y → y = x) :
    Inv (World.put w.tasks i ({ w with transfers := w.transfers ++ [⟨x, w.db.linked x, total, wallet, answer⟩] }, t')) := by
  obtain ⟨row, hrow, hs, htx⟩ := hflight
  have hsound := h.sound x
  have honly : ∀ a, Open { w with transfers := w.transfers ++ [⟨x, w.db.linked x, total, wallet, answer⟩] } x a →
      a = ⟨x, w.db.linked x, total, wallet, answer⟩ := by
    rintro a ⟨ha, hid, hclosed⟩
    rcases mem_append.1 ha with ha | ha
    · exact absurd ⟨ha, hid, hclosed⟩ (hopen a)
    · exact mem_singleton.1 ha
  have hbound : total ≤ row.amountUsdc := by
    obtain ⟨c, -, -, hc⟩ := hsound.claimed row hrow (.inl hs)
    rw [htotal, hc]
    exact shares_pass_le (le_of_lt row.amount_pos) _
  refine h.move hi (.inl hold) ?_ (refl _) ?_ ?_ hhold ?_ ?_
  · intro y hy
    refine ⟨rfl, rfl, ?_, refl _, refl _⟩
    intro a ha
    constructor
    · intro hmem
      rcases mem_append.1 hmem with hmem | hmem
      · exact hmem
      · rw [mem_singleton.1 hmem] at ha
        exact absurd ha.symm hy
    · intro hmem
      exact mem_append_left _ hmem
  · refine { linked := hsound.linked, next := hsound.next, rows := ?_, held := ?_, hash := ?_, sent := ?_,
             claimed := hsound.claimed }
    · intro a ha
      rw [honly a ha]
    · intro a _
      exact ⟨row, hrow, .inl hs⟩
    · intro r hr _ hne
      rw [hrow] at hr
      cases hr
      exact absurd htx hne
    · intro r hr hsent
      obtain ⟨a, ha, hrest⟩ := hsound.sent r hr hsent
      exact ⟨a, mem_append_left _ ha, hrest⟩
  · refine hok _ ⟨row, hrow, hs, htx⟩ ?_
    intro hash hanswer
    refine ⟨fun a ha => by rw [honly a ha]; exact hanswer, ?_⟩
    exact ⟨_, mem_append_right _ mem_cons_self, rfl, hanswer, rfl⟩
  · refine pairwise_append.2 ⟨h.disjoint, pairwise_singleton _ _, ?_⟩
    intro a ha b hb hover
    rw [mem_singleton.1 hb] at hover
    -- an open transfer covers the rows of its own withdrawal, and `x` has none
    by_contra hclosed
    have haopen : Open w a.withdrawalId a := ⟨ha, rfl, by simpa using hclosed⟩
    obtain ⟨e, he, e', he', hid⟩ := hover
    rw [(h.sound a.withdrawalId).rows a haopen] at he
    have hx := linked_unique he he' hid
    rw [hx] at haopen
    exact hopen a haopen
  · intro a ha
    rcases mem_append.1 ha with ha | ha
    · exact h.amounts a ha
    · rw [mem_singleton.1 ha]
      exact ⟨htotal, row, hrow, hbound⟩

open Db in
theorem Proc.step_inv {t : Task} (p : Proc) (k : Proc ⊕ Result → Task) (h : Inv w) (hi : w.tasks[i]? = some t)
    (hold : t.hold = p.hold x) (hheld : Held w x p) (hk : Cont x k) :
    Inv (World.put w.tasks i ((p.step s e x w).1, k (p.step s e x w).2)) := by
  have stays : ∀ r : Proc ⊕ Result, p ≠ .claim → ∀ y, (k r).hold = some y → t.hold = some y := by
    intro r hp y hy
    rw [hold, hk.hold r y hy]
    exact hold_of_ne hp
  cases p with
  | claim =>
    simp only [step]
    split_ifs
    · exact h.idle hi hk.raised
    · split
      · exact h.idle hi hk.raised
      · rename_i hclaim
        rw [stmt_map]
        exact claim_inv e h hi hk hclaim
  | transfer wallet total =>
    obtain ⟨hflight, htotal, hopen⟩ := hheld
    simp only [step]
    split_ifs
    · exact h.stay hi (hk.running w _ ⟨hflight, hopen⟩) (stays _ (by simp))
    · refine transfer_inv h hi hold hflight htotal hopen wallet e.transferUsdc ?_ (hk.hold _)
      intro w' hflight' hsent
      cases hanswer : e.transferUsdc with
      | none => exact hk.running w' _ ⟨hflight', fun hne => absurd rfl hne⟩
      | some txHash => exact hk.running w' _ ⟨hflight', hsent txHash hanswer⟩
  | verify txHash =>
    obtain ⟨hflight, hsent⟩ := hheld
    simp only [step]
    split
    · exact h.stay hi (hk.running w _ ⟨hflight, fun _ => hsent⟩) (stays _ (by simp))
    · have hsame : ∀ y, Same y w { w with observed := txHash :: w.observed } := fun y =>
        ⟨rfl, rfl, fun _ _ => Iff.rfl, subset_cons_self _ _, refl _⟩
      refine h.quiet hi hsame (subset_cons_self _ _) rfl (hk.running _ _ ⟨hflight.same (hsame x), ?_⟩) ?_
      · intro a ha
        have hhash := hsent.only a ((hsame x).opened ha)
        have hclosed := ha.2.2
        rw [closed_of_mem hhash mem_cons_self] at hclosed
        cases hclosed
      · exact stays _ (by simp)
    · exact h.stay hi (hk.running w _ ⟨hflight, hsent⟩) (stays _ (by simp))
  | settle txHash =>
    obtain ⟨⟨row, hrow, hs, htx⟩, hsent⟩ := hheld
    have hp : isInFlight row.toProgress := decide_eq_true hs
    simp only [step, settleWithdrawal, if_pos (holds_iff.2 ⟨row, hrow, hp⟩)]
    rw [stmt_map]
    refine h.stmt e hi (.inl hold) ?_ ((hk.settled "").ok _) (hk.hold _) hk.raised
    refine Wrote.paid (h.sound x) hrow hs (touches_updateWithdrawal _ _ _ _) rfl (get?_update_hit _ _ hrow hp) rfl
      (.inr rfl) rfl ?_ (fun _ => hsent.made)
    intro hflight
    cases hflight
  | release error =>
    obtain ⟨⟨row, hrow, hs, htx⟩, hopen⟩ := hheld
    have hp : isInFlight row.toProgress := decide_eq_true hs
    simp only [step, releaseWithdrawal, if_pos (holds_iff.2 ⟨row, hrow, hp⟩)]
    rw [stmt_map]
    obtain ⟨hwrote, hget⟩ := Wrote.release (h.sound x) hrow hp hopen
      (f := fun r => { r with status := .failed, txHash := "", lastSweepError := error }) (by simp) (.inl rfl)
    refine h.stmt e hi (.inl hold) hwrote (hk.failed _ _ ⟨_, hget, rfl, ?_⟩) (hk.hold _) hk.raised
    exact (h.sound x).next row hrow (.inr hs)
  | recordInFlight txHash error =>
    obtain ⟨⟨row, hrow, hs, htx⟩, hsent⟩ := hheld
    have hp : isInFlight row.toProgress := decide_eq_true hs
    simp only [step, Db.recordInFlight]
    rw [stmt_map]
    refine h.stmt e hi (.inl hold) ?_ ((hk.inFlight error).ok _) (hk.hold _) hk.raised
    refine Wrote.paid (h.sound x) hrow hs (touches_updateWithdrawal _ _ _ _) rfl (get?_update_hit _ _ hrow hp) rfl
      (.inl hs) rfl (fun _ hne => (hsent hne).only) ?_
    rintro (hsettled | ⟨-, hne⟩)
    · change row.status = .settled at hsettled
      rw [hs] at hsettled
      cases hsettled
    · exact (hsent hne).made

/-! ## The other tasks -/

open Db in
theorem Wrote.insert {org wallet : String} {amount createdAt : ℤ} {db : Db} (h : Sound w x)
    (hi : w.db.insertWithdrawal x org amount wallet createdAt = .ok db) : Free w x ∧ Wrote w { w with db := db } x := by
  obtain ⟨hnone, ⟨row, hrow, hprogress⟩, htouches, hlinked⟩ := linked_insertWithdrawal hi
  have habsent : ∀ r, w.db.withdrawals.get? x ≠ some r := by
    intro r hr
    rw [hnone] at hr
    cases hr
  have hstatus : ∀ r, w.db.withdrawals.get? x = some r → r.status ≠ .inFlight ∧ r.status ≠ .settled := fun r hr =>
    absurd hr (habsent r)
  refine ⟨⟨?_, ?_⟩, ?_⟩
  · rintro ⟨r, hr, -⟩
    exact habsent r hr
  · rintro ⟨r, hr, -⟩
    exact habsent r hr
  · refine unpaid htouches (fun r hr => absurd hr (habsent r)) rfl rfl (refl _)
      ((hlinked x).trans (h.linked.nil hstatus)) (h.not_open hstatus) ?_
    intro r hr
    change db.withdrawals.get? x = some r at hr
    rw [hrow] at hr
    cases hr
    rw [hprogress]
    simp

theorem Request.step_inv {org : String} {amount : ℤ} (p : Request) (h : Inv w)
    (hi : w.tasks[i]? = some (.request org amount p)) : Inv (World.put w.tasks i (p.step s e org amount w)) := by
  have reads : ∀ t : Task, Idle t → Inv (World.put w.tasks i (e.stmt w w t .failed)) := fun t ht =>
    h.read e hi (ht.ok w) (fun y hy => ht.holds (P := fun y => Task.hold _ = some y) y hy) ⟨rfl, fun _ => trivial⟩
  cases p with
  | config =>
    simp only [Request.step]
    by_cases hwallets : s.agentWalletEnabled = false
    · rw [if_pos hwallets]
      exact h.idle hi ⟨rfl, fun _ => trivial⟩
    · rw [if_neg hwallets]
      refine reads _ ?_
      split
      · exact ⟨rfl, fun _ => trivial⟩
      · split_ifs <;> exact ⟨rfl, fun _ => trivial⟩
  | balance wallet =>
    refine reads _ ?_
    split_ifs <;> exact ⟨rfl, fun _ => trivial⟩
  | cooldown wallet =>
    refine reads _ ?_
    split
    · exact ⟨rfl, fun _ => trivial⟩
    · dsimp only
      split_ifs <;> exact ⟨rfl, fun _ => trivial⟩
  | insert wallet =>
    simp only [Request.step]
    split
    · exact h.idle hi ⟨rfl, fun _ => trivial⟩
    · rename_i hinsert
      obtain ⟨hfree, hwrote⟩ := Wrote.insert (h.sound e.uuid) hinsert
      refine h.stmt e hi (.inr hfree) hwrote trivial ?_ ⟨rfl, fun _ => trivial⟩
      intro y hy
      cases hy

theorem cont_sweep (n : ℕ) (c : Candidate) (rest : List Candidate) : Cont c.id (Sweep.after n c rest) where
  running _ _ h := h
  failed _ _ h := h
  raised := idle_nextCandidate n rest
  settled _ := idle_nextCandidate (n + 1) rest
  inFlight _ := idle_nextCandidate n rest
  hold r y hy := by
    rcases r with p | r
    · cases p with
      | claim => cases hy
      | _ =>
        cases hy
        rfl
    · cases r with
      | raised => exact (idle_nextCandidate n rest).holds (P := fun y => y = c.id) y hy
      | returned status error =>
        cases status with
        | settled => exact (idle_nextCandidate (n + 1) rest).holds (P := fun y => y = c.id) y hy
        | inFlight => exact (idle_nextCandidate n rest).holds (P := fun y => y = c.id) y hy
        | _ =>
          cases hy
          rfl

open Db in
theorem Wrote.requeue {now : ℤ} (h : Sound w x) (hdue : w.db.holds x (isDue now)) :
    Free w x ∧ Wrote w { w with db := (w.db.requeue x now).1 } x := by
  obtain ⟨row, hrow, hp⟩ := holds_iff.1 hdue
  obtain ⟨hfailed, hnext⟩ : row.status = .failed ∧ row.nextSweepAt ≠ none := by
    simp only [isDue, Bool.decide_and, Bool.and_eq_true, decide_eq_true_eq] at hp
    refine ⟨hp.1, fun hnone => ?_⟩
    rw [hnone] at hp
    simp at hp
  have hstatus : ∀ r, w.db.withdrawals.get? x = some r → r.status ≠ .inFlight ∧ r.status ≠ .settled := by
    intro r hr
    rw [hrow] at hr
    cases hr
    simp [hfailed]
  refine ⟨⟨?_, ?_⟩, ?_⟩
  · rintro ⟨r, hr, hflight, -⟩
    exact (hstatus r hr).1 hflight
  · rintro ⟨r, hr, -, hnone⟩
    rw [hrow] at hr
    cases hr
    exact hnext hnone
  · have htouches : Touches x w.db (w.db.requeue x now).1 :=
      touches_updateWithdrawal w.db x (isDue now) (fun r => { r with status := .pending, nextSweepAt := none })
    refine unpaid htouches (kept_update w.db x _ _) rfl rfl (refl _) (h.linked.nil hstatus) (h.not_open hstatus) ?_
    intro r hr
    change (w.db.updateWithdrawal x (isDue now) _).withdrawals.get? x = some r at hr
    rw [get?_update_hit _ _ hrow hp] at hr
    cases hr
    simp

open Db in
theorem Wrote.penalize (f : Progress → Progress) (h : Sound w x) (hfailed : Failed w x)
    (hf : ∀ r, r.status = .failed → (f r).status = .failed ∨ (f r).status = .exhausted) :
    Wrote w { w with db := w.db.updateWithdrawal x (fun _ => true) f } x := by
  obtain ⟨row, hrow, hs, -⟩ := hfailed
  have hstatus : ∀ r, w.db.withdrawals.get? x = some r → r.status ≠ .inFlight ∧ r.status ≠ .settled := by
    intro r hr
    rw [hrow] at hr
    cases hr
    simp [hs]
  have htouches : Touches x w.db (w.db.updateWithdrawal x (fun _ => true) f) := touches_updateWithdrawal _ _ _ _
  refine unpaid htouches (kept_update w.db x _ _) rfl rfl (refl _) (h.linked.nil hstatus) (h.not_open hstatus) ?_
  intro r hr
  change (w.db.updateWithdrawal x (fun _ => true) f).withdrawals.get? x = some r at hr
  rw [get?_update_hit _ _ hrow rfl] at hr
  cases hr
  rcases hf row.toProgress hs with hs' | hs' <;> simp [hs']

open Db in
theorem Sweep.step_inv {n : ℕ} {c : Candidate} {rest : List Candidate} (p : Sweep) (h : Inv w)
    (hi : w.tasks[i]? = some (.sweep n c p rest)) : Inv (World.put w.tasks i (p.step s e n c rest w)) := by
  have idles : ∀ m, Idle (nextCandidate m rest) := fun m => idle_nextCandidate m rest
  have reads : ∀ t : Task, Idle t → Inv (World.put w.tasks i (e.stmt w w t (nextCandidate n rest))) := fun t ht =>
    h.read e hi (ht.ok w) (fun y hy => ht.holds (P := fun y => Task.hold _ = some y) y hy) (idles n)
  have hok : Ok w (.sweep n c p rest) := h.ok _ (mem_of_getElem? hi)
  cases p with
  | fetch =>
    refine reads _ ?_
    split
    · exact ⟨rfl, fun _ => trivial⟩
    · split
      · exact idles _
      · exact ⟨rfl, fun _ => trivial⟩
      · exact ⟨rfl, fun _ => trivial⟩
  | config =>
    refine reads _ ?_
    split
    · exact idles n
    · exact ⟨rfl, fun _ => trivial⟩
  | insert wallet =>
    simp only [Sweep.step]
    split
    · rename_i hinsert
      obtain ⟨hfree, hwrote⟩ := Wrote.insert (h.sound c.id) hinsert
      refine h.stmt e hi (.inr hfree) hwrote trivial ?_ (idles n)
      intro y hy
      cases hy
    · exact reads _ ⟨rfl, fun _ => trivial⟩
    · exact h.idle hi (idles n)
  | requeue =>
    simp only [Sweep.step]
    by_cases hdue : w.db.holds c.id (isDue e.now)
    · obtain ⟨hfree, hwrote⟩ := Wrote.requeue (h.sound c.id) hdue
      refine h.stmt e hi (.inr hfree) hwrote ?_ ?_ (idles n)
      · split_ifs
        · trivial
        · exact (idles n).ok _
      · intro y hy
        split_ifs at hy
        · cases hy
        · exact (idles n).holds (P := fun y => y = c.id) y hy
    · have hmiss : (w.db.requeue c.id e.now).2 = false := Bool.eq_false_iff.2 hdue
      rw [hmiss, if_neg (by simp)]
      have hsame : ∀ y, Same y w { w with db := (w.db.requeue c.id e.now).1 } := fun y =>
        ⟨update_miss _ hdue y, rfl, fun _ _ => Iff.rfl, refl _, refl _⟩
      exact h.miss e hi hsame rfl (idles n) (idles n)
  | process p => exact Proc.step_inv s e p (Sweep.after n c rest) h hi rfl hok (cont_sweep n c rest)
  | readAttempts error =>
    refine h.read e hi ?_ (fun y hy => hy) (idles n)
    exact hok
  | penalize attempt error =>
    simp only [Sweep.step]
    refine h.stmt e hi (.inl rfl) ?_ ((idles n).ok _) ((idles n).holds) (idles n)
    split_ifs
    · exact Wrote.penalize _ (h.sound c.id) hok (fun _ _ => .inr rfl)
    · exact Wrote.penalize _ (h.sound c.id) hok (fun _ hs => .inl hs)

theorem idle_nextSnapshot (n : ℕ) (h : ∀ r ∈ rest, r.txHash ≠ "") : Idle (nextSnapshot n rest) := by
  cases rest with
  | nil => exact ⟨rfl, fun _ => trivial⟩
  | cons row rest =>
    refine ⟨rfl, fun _ => ⟨h row mem_cons_self, fun r hr => h r (mem_cons_of_mem _ hr), ?_⟩⟩
    intro houtcome
    cases houtcome

theorem inFlightRows_hash (db : Db) (tie : String → ℕ) (r : Snapshot) (hr : r ∈ inFlightRows db tie) : r.txHash ≠ "" := by
  obtain ⟨row, hrow, rfl⟩ := mem_map.1 hr
  have hmem := (perm_insertionSort _ _).mem_iff.1 (mem_of_mem_take hrow)
  have hp := (mem_filter.1 hmem).2
  simp only [Bool.decide_and, Bool.and_eq_true, decide_eq_true_eq] at hp
  exact hp.2

theorem reconcileCheck_inv {n : ℕ} (h : Inv w) (hi : w.tasks[i]? = some (.reconcile n row none rest)) :
    Inv (World.put w.tasks i (reconcileCheck e n row rest w)) := by
  obtain ⟨hne, hrest, -⟩ : Ok w (.reconcile n row none rest) := h.ok _ (mem_of_getElem? hi)
  have hidle := idle_nextSnapshot n hrest
  have goes : ∀ c, c ≠ .reverted → Inv (World.put w.tasks i (w, .reconcile n row (some c) rest)) := by
    intro c hc
    exact h.stay hi ⟨hne, hrest, fun hoc => absurd (Option.some.inj hoc) hc⟩ (fun y hy => hy)
  unfold reconcileCheck
  split
  · exact h.idle hi hidle
  · exact h.idle hi hidle
  · exact goes .confirmed (by decide)
  · have hsame : ∀ y, Same y w { w with observed := row.txHash :: w.observed } := fun y =>
      ⟨rfl, rfl, fun _ _ => Iff.rfl, subset_cons_self _ _, refl _⟩
    exact h.quiet hi hsame (subset_cons_self _ _) rfl ⟨hne, hrest, fun _ => mem_cons_self⟩ (fun y hy => hy)
  · split_ifs
    · exact h.idle hi hidle
    · exact goes .mismatch (by decide)

open Db in
theorem inFlightWith_row {txHash : String} (hne : txHash ≠ "") (hhit : w.db.holds x (isInFlightWith txHash)) :
    ∃ row, w.db.withdrawals.get? x = some row ∧ isInFlightWith txHash row.toProgress ∧ row.status = .inFlight ∧
      row.txHash = txHash ∧ Free w x := by
  obtain ⟨row, hrow, hp⟩ := holds_iff.1 hhit
  have hfields := hp
  simp only [isInFlightWith, Bool.decide_and, Bool.and_eq_true, decide_eq_true_eq] at hfields
  obtain ⟨hs, htx⟩ := hfields
  refine ⟨row, hrow, hp, hs, htx, ?_, ?_⟩
  · rintro ⟨r, hr, -, hnone⟩
    rw [hrow] at hr
    cases hr
    exact hne (htx.symm.trans hnone)
  · rintro ⟨r, hr, hfailed, -⟩
    rw [hrow] at hr
    cases hr
    rw [hs] at hfailed
    cases hfailed

open Db in
theorem reconcileWrite_wrote (h : Sound w row.id) (c : Check) (hc : c ≠ .pending) (hne : row.txHash ≠ "")
    (hrev : c = .reverted → row.txHash ∈ w.observed) (hhit : w.db.holds row.id (isInFlightWith row.txHash)) :
    Wrote w { w with db := (reconcileWrite s e row w.db c).1 } row.id := by
  obtain ⟨r, hr, hp, hs, htx, -⟩ := inFlightWith_row hne hhit
  have hrne : r.txHash ≠ "" := by rw [htx]; exact hne
  have hhash := h.hash r hr hs hrne
  have hsent := h.sent r hr (.inr ⟨hs, hrne⟩)
  cases c with
  | confirmed =>
    simp only [reconcileWrite, settleKnown]
    refine paid h hr hs (touches_updateWithdrawal w.db row.id (isInFlightWith row.txHash) _) rfl
      (get?_update_hit _ _ hr hp) rfl (.inr rfl) rfl ?_ (fun _ => hsent)
    intro hflight
    cases hflight
  | reverted =>
    simp only [reconcileWrite, releaseRevertedWithdrawal, if_pos hhit]
    refine (release h hr hp ?_ ?_ (.inr rfl)).1
    · intro t ht
      have hclosed := ht.2.2
      rw [closed_of_mem ((hhash t ht).trans (congrArg some htx)) (hrev rfl)] at hclosed
      cases hclosed
    · split_ifs <;> simp
  | mismatch =>
    simp only [reconcileWrite, flagMismatch]
    exact paid h hr hs (touches_updateWithdrawal w.db row.id (isInFlightWith row.txHash) _) rfl
      (get?_update_hit _ _ hr hp) rfl (.inl hs) rfl (fun _ _ => hhash) (fun _ => hsent)
  | pending => exact absurd rfl hc

open Db in
theorem reconcileWrite_miss (c : Check) (hmiss : ¬ w.db.holds row.id (isInFlightWith row.txHash)) (y : String) :
    Same y w { w with db := (reconcileWrite s e row w.db c).1 } := by
  cases c with
  | confirmed | mismatch => exact ⟨update_miss _ hmiss y, rfl, fun _ _ => Iff.rfl, refl _, refl _⟩
  | reverted =>
    simp only [reconcileWrite, releaseRevertedWithdrawal, if_neg hmiss]
    exact Same.refl y w
  | pending => exact Same.refl y w

theorem Task.step_inv (t : Task) (h : Inv w) (hi : w.tasks[i]? = some t) : Inv (World.put w.tasks i (t.step s e w)) := by
  have hok : Ok w t := h.ok _ (mem_of_getElem? hi)
  cases t with
  | request _ _ p | sweep _ _ p _ => exact p.step_inv s e h hi
  | process x p =>
    refine Proc.step_inv s e p (Proc.after x) h hi rfl hok ?_
    refine { running := fun _ _ hp => hp, failed := fun _ _ _ => trivial, raised := ⟨rfl, fun _ => trivial⟩,
             settled := fun _ => ⟨rfl, fun _ => trivial⟩, inFlight := fun _ => ⟨rfl, fun _ => trivial⟩, hold := ?_ }
    rintro (p | r) y hy
    · cases p with
      | claim => cases hy
      | _ =>
        cases hy
        rfl
    · cases hy
  | sweepQuery =>
    have hidle := idle_nextCandidate 0 (sweepCandidates s e w.db)
    exact h.read e hi (hidle.ok w) (hidle.holds) ⟨rfl, fun _ => trivial⟩
  | reconcileQuery =>
    simp only [Task.step]
    split_ifs
    · exact h.idle hi ⟨rfl, fun _ => trivial⟩
    · have hidle := idle_nextSnapshot 0 (inFlightRows_hash w.db e.tie)
      exact h.read e hi (hidle.ok w) (hidle.holds) ⟨rfl, fun _ => trivial⟩
  | reconcile n row outcome rest =>
    cases outcome with
    | none => exact reconcileCheck_inv e h hi
    | some c =>
      obtain ⟨hne, hrest, hrev⟩ := hok
      have hidle : ∀ m, Idle (nextSnapshot m rest) := fun m => idle_nextSnapshot m hrest
      by_cases hpending : c = .pending
      · rw [hpending]
        exact h.miss e hi (fun y => Same.refl y w) rfl (hidle _) (hidle n)
      by_cases hhit : w.db.holds row.id (Db.isInFlightWith row.txHash)
      · obtain ⟨-, -, -, -, -, hfree⟩ := inFlightWith_row hne hhit
        have hwrote := reconcileWrite_wrote s e (h.sound row.id) c hpending hne (fun hc => hrev (congrArg some hc)) hhit
        exact h.stmt e hi (.inr hfree) hwrote ((hidle _).ok _) ((hidle _).holds) (hidle n)
      · exact h.miss e hi (reconcileWrite_miss s e c hhit) rfl (hidle _) (hidle n)
  | requested _ | refused _ | processed _ | counted _ | failed => exact h.idle hi ⟨rfl, fun _ => trivial⟩

end Teardrop.Marketplace
