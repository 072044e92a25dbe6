/-
Payouts over whole runs without an operator, with the assumption on the chain that what is reported reverted can no longer
succeed (`truthful`).
-/
import Teardrop.Marketplace.Payouts

namespace Teardrop.Marketplace

open List.Subset List

/-! ## Runs -/

/-- the operations of an operator -/
def Act.byOperator : Act → Bool
  | .completeWithdrawal _ _ => true
  | .resetWithdrawal _ => true
  | _ => false

/-- `verify_usdc_transfer` returns `False` and `check_usdc_transfer` returns `reverted` only for a transaction that can no
longer succeed -/
def truthful (w : World) : Act → Bool
  | .advance i e =>
    match w.tasks[i]? with
    | some (.process _ (.verify txHash)) => e.verifyUsdcTransfer ≠ some false ∨ txHash ∈ w.dead
    | some (.sweep _ _ (.process (.verify txHash)) _) => e.verifyUsdcTransfer ≠ some false ∨ txHash ∈ w.dead
    | some (.reconcile _ row none _) => e.checkUsdcTransfer ≠ some .reverted ∨ row.txHash ∈ w.dead
    | _ => true
  | _ => true

/-- a step without an operator, with truthful answers about the chain -/
def Unattended (w : World) (a : Act) : Prop := a.byOperator = false ∧ truthful w a = true

instance (w : World) (a : Act) : Decidable (Unattended w a) := inferInstanceAs (Decidable (_ ∧ _))

/-- what was observed reverted is dead -/
def Seen (w w' : World) : Prop := w'.dead = w.dead ∧ ∀ h ∈ w'.observed, h ∈ w.observed ∨ h ∈ w.dead

theorem Seen.refl (w : World) : Seen w w := ⟨rfl, fun _ hh => .inl hh⟩

variable (s : Settings) {w : World}

theorem Proc.step_seen (e : Env) (x : String) (w : World) (p : Proc)
    (htrue : ∀ h, p = .verify h → e.verifyUsdcTransfer = some false → h ∈ w.dead) : Seen w (p.step s e x w).1 := by
  cases p with
  | claim =>
    simp only [Proc.step]
    split_ifs
    · exact Seen.refl w
    · split
      · exact Seen.refl w
      · exact stmt_fst (Seen w) e _ _ (Seen.refl w) ⟨rfl, fun _ hh => .inl hh⟩
  | transfer wallet total =>
    simp only [Proc.step]
    split_ifs
    · exact Seen.refl w
    · exact ⟨rfl, fun _ hh => .inl hh⟩
  | verify txHash =>
    simp only [Proc.step]
    split
    · exact Seen.refl w
    · rename_i hfalse
      refine ⟨rfl, ?_⟩
      intro h hh
      rcases mem_cons.1 hh with rfl | hh
      · exact .inr (htrue _ rfl hfalse)
      · exact .inl hh
    · exact Seen.refl w
  | settle _ | release _ =>
    simp only [Proc.step]
    split
    · exact Seen.refl w
    · exact stmt_fst (Seen w) e _ _ (Seen.refl w) ⟨rfl, fun _ hh => .inl hh⟩
  | recordInFlight txHash error => exact stmt_fst (Seen w) e _ _ (Seen.refl w) ⟨rfl, fun _ hh => .inl hh⟩

theorem Sweep.step_seen (e : Env) (n : ℕ) (c : Candidate) (rest : List Candidate) (w : World) (p : Sweep)
    (htrue : ∀ h, p = .process (.verify h) → e.verifyUsdcTransfer = some false → h ∈ w.dead) :
    Seen w (p.step s e n c rest w).1 := by
  cases p with
  | insert wallet =>
    simp only [Sweep.step]
    split
    · exact stmt_fst (Seen w) e _ _ (Seen.refl w) ⟨rfl, fun _ hh => .inl hh⟩
    · exact stmt_fst (Seen w) e _ _ (Seen.refl w) (Seen.refl w)
    · exact Seen.refl w
  | process p => exact p.step_seen s e c.id w (fun h hp => htrue h (congrArg Sweep.process hp))
  | requeue | penalize _ _ => exact stmt_fst (Seen w) e _ _ (Seen.refl w) ⟨rfl, fun _ hh => .inl hh⟩
  | fetch | config | readAttempts _ => exact stmt_fst (Seen w) e _ _ (Seen.refl w) (Seen.refl w)

theorem Request.step_seen (e : Env) (org : String) (amount : ℤ) (w : World) (p : Request) :
    Seen w (p.step s e org amount w).1 := by
  cases p with
  | config =>
    simp only [Request.step]
    by_cases hwallets : s.agentWalletEnabled = false
    · rw [if_pos hwallets]
      exact Seen.refl w
    · rw [if_neg hwallets]
      exact stmt_fst (Seen w) e _ _ (Seen.refl w) (Seen.refl w)
  | balance _ | cooldown _ => exact stmt_fst (Seen w) e _ _ (Seen.refl w) (Seen.refl w)
  | insert wallet =>
    simp only [Request.step]
    split
    · exact Seen.refl w
    · exact stmt_fst (Seen w) e _ _ (Seen.refl w) ⟨rfl, fun _ hh => .inl hh⟩

theorem Task.step_seen (e : Env) {i : ℕ} (t : Task) (hi : w.tasks[i]? = some t) (htrue : truthful w (.advance i e) = true) :
    Seen w (t.step s e w).1 := by
  simp only [truthful, hi] at htrue
  cases t with
  | request org amount p => exact p.step_seen s e org amount w
  | process x p =>
    refine p.step_seen s e x w ?_
    rintro h rfl hfalse
    simpa [hfalse] using htrue
  | sweepQuery => exact stmt_fst (Seen w) e _ _ (Seen.refl w) (Seen.refl w)
  | sweep n c p rest =>
    refine p.step_seen s e n c rest w ?_
    rintro h rfl hfalse
    simpa [hfalse] using htrue
  | reconcileQuery =>
    simp only [Task.step]
    split_ifs
    · exact Seen.refl w
    · exact stmt_fst (Seen w) e _ _ (Seen.refl w) (Seen.refl w)
  | reconcile n row outcome rest =>
    cases outcome with
    | some c => exact stmt_fst (Seen w) e _ _ (Seen.refl w) ⟨rfl, fun _ hh => .inl hh⟩
    | none =>
      simp only [Task.step, reconcileCheck]
      split
      · exact Seen.refl w
      · exact Seen.refl w
      · exact Seen.refl w
      · rename_i hreverted
        refine ⟨rfl, ?_⟩
        intro h hh
        rcases mem_cons.1 hh with rfl | hh
        · exact .inr (by simpa [hreverted] using htrue)
        · exact .inl hh
      · exact Seen.refl w
  | requested _ | refused _ | processed _ | counted _ | failed => exact Seen.refl w

/-- the invariant with what is known of the chain -/
structure Safe (w : World) : Prop where
  inv : Inv w
  dead : ∀ h ∈ w.observed, h ∈ w.dead

theorem Inv.aside {w' : World} (h : Inv w) (hsame : ∀ y, Same y w w') (htransfers : w'.transfers = w.transfers)
    (hok : ∀ t ∈ w'.tasks, Ok w t) (hapart : Apart w'.tasks) : Inv w' where
  sound y := (h.sound y).same (hsame y)
  ok t ht := (hok t ht).same (hsame "").observed (fun y _ => hsame y)
  apart := hapart
  disjoint := by
    rw [htransfers]
    exact h.disjoint.imp (fun hab hover => closed_mono (hsame "").observed (hab hover))
  amounts a ha := by
    obtain ⟨hamount, row, hrow, hle⟩ := h.amounts a (htransfers ▸ ha)
    exact ⟨hamount, row, (hsame _).row.trans hrow, hle⟩

theorem Inv.same_tasks {w' : World} (h : Inv w) (hsame : ∀ y, Same y w w') (htransfers : w'.transfers = w.transfers)
    (htasks : w'.tasks = w.tasks) : Inv w' :=
  h.aside hsame htransfers (fun t ht => h.ok t (htasks ▸ ht)) (htasks ▸ h.apart)

theorem Entry.start_idle (c : Entry) : Idle c.start := by
  cases c with
  | requestWithdrawal _ _ | processWithdrawal _ | marketplaceSweepOnce => exact ⟨rfl, fun _ => trivial⟩
  | reconcileInFlightWithdrawalsOnce => exact ⟨rfl, fun _ => trivial⟩

theorem Apart.snoc {tasks : List Task} {t : Task} (h : Apart tasks) (ht : Idle t) : Apart (tasks ++ [t]) := by
  have hget : ∀ (k : ℕ) (a : Task), (tasks ++ [t])[k]? = some a → tasks[k]? = some a ∨ a = t := by
    intro k a hk
    by_cases hlt : k < tasks.length
    · rw [getElem?_append_left hlt] at hk
      exact .inl hk
    · rw [getElem?_append_right (Nat.le_of_not_lt hlt)] at hk
      exact .inr (mem_singleton.1 (mem_of_getElem? hk))
  intro i j a b hij hi hj x hx hb
  rcases hget i a hi with ha | rfl
  · rcases hget j b hj with hb' | rfl
    · exact h i j a b hij ha hb' x hx hb
    · exact ht.holds (P := fun _ => False) x hb
  · exact ht.holds (P := fun _ => False) x hx

/-- **One step keeps payouts safe.** -/
theorem step_safe (a : Act) (h : Safe w) (hun : Unattended w a) : Safe (step s w a) := by
  obtain ⟨hoperator, htrue⟩ := hun
  have quiet : ∀ w' : World, (∀ y, Same y w w') → w'.transfers = w.transfers → w'.tasks = w.tasks →
      w'.observed = w.observed → w.dead ⊆ w'.dead → Safe w' := by
    intro w' hsame htr htasks hobs hdead
    refine ⟨h.inv.same_tasks hsame htr htasks, fun x hx => hdead (h.dead x ?_)⟩
    rw [hobs] at hx
    exact hx
  cases a with
  | call c =>
    refine ⟨h.inv.aside (fun y => ⟨rfl, rfl, fun _ _ => Iff.rfl, refl _, refl _⟩) rfl ?_
      (h.inv.apart.snoc c.start_idle), h.dead⟩
    intro t ht
    rcases mem_append.1 ht with ht | ht
    · exact h.inv.ok t ht
    · rw [mem_singleton.1 ht]
      exact c.start_idle.ok w
  | advance i e =>
    cases hi : w.tasks[i]? with
    | none =>
      have hstep : step s w (.advance i e) = w := by simp only [step, hi]
      rw [hstep]
      exact h
    | some t =>
      have hstep : step s w (.advance i e) = World.put w.tasks i (t.step s e w) := by simp only [step, hi, World.put]
      rw [hstep]
      obtain ⟨hdead, hseen⟩ := t.step_seen s e hi htrue
      refine ⟨t.step_inv s e h.inv hi, ?_⟩
      intro x hx
      show x ∈ (t.step s e w).1.dead
      rw [hdead]
      rcases hseen x hx with hx | hx
      · exact h.dead x hx
      · exact hx
  | crash i =>
    cases hi : w.tasks[i]? with
    | none =>
      refine quiet _ (fun y => ⟨rfl, rfl, fun _ _ => Iff.rfl, refl _, refl _⟩) rfl ?_ rfl (refl _)
      exact set_eq_of_length_le (getElem?_eq_none_iff.1 hi)
    | some t => exact ⟨h.inv.idle hi ⟨rfl, fun _ => trivial⟩, h.dead⟩
  | completeWithdrawal _ _ | resetWithdrawal _ => cases hoperator
  | earn id org share createdAt =>
    simp only [step]
    split
    · exact h
    · rename_i hinsert
      obtain ⟨hw, hlinked⟩ := Db.linked_insertEarning hinsert
      refine quiet _ (fun y => ⟨?_, hlinked y, fun _ _ => Iff.rfl, refl _, refl _⟩) rfl rfl rfl (refl _)
      rw [hw]
  | die txHash =>
    simp only [step]
    split_ifs
    · exact h
    · exact quiet _ (fun y => ⟨rfl, rfl, fun _ _ => Iff.rfl, refl _, refl _⟩) rfl rfl rfl (subset_cons_self _ _)
  | land txHash =>
    simp only [step]
    split_ifs
    · exact h
    · exact quiet _ (fun y => ⟨rfl, rfl, fun _ _ => Iff.rfl, refl _, refl _⟩) rfl rfl rfl (refl _)

theorem start_safe : Safe World.start where
  inv :=
    { sound := fun x => Sound.of_unpaid rfl (fun _ ht => absurd ht.1 not_mem_nil) (fun _ hr => by cases hr)
      ok := fun _ ht => absurd ht not_mem_nil
      apart := fun _ _ _ _ _ hi => by cases hi
      disjoint := List.Pairwise.nil
      amounts := fun _ ht => absurd ht not_mem_nil }
  dead := fun _ hh => absurd hh not_mem_nil

theorem run_safe (acts : List Act) (hrun : Runs.Legal (step s) Unattended World.start acts) :
    Safe (run s World.start acts) :=
  Runs.legal_inv (step s) Unattended Safe (fun _ a h hun => step_safe s a h hun) acts start_safe hrun

/-! ## Results -/

/-- nothing rules out that the transfer lands, or has landed -/
def Transfer.canLand (dead : List String) (t : Transfer) : Bool := t.txHash.all (fun h => h ∉ dead)

def Transfer.covers (id : String) (t : Transfer) : Bool := t.rows.any (fun e => e.id = id)

/-- no earning is paid out twice, and what is sent is what the rows say -/
structure PaidOnce (w : World) : Prop where
  /-- a transfer that covers a row of an earlier one finds it observed reverted -/
  again : ∀ (i j : ℕ) (a b : Transfer), i < j → w.transfers[i]? = some a → w.transfers[j]? = some b → Overlap a b →
    ∃ h, a.txHash = some h ∧ h ∈ w.observed ∧ h ∈ w.dead
  once : ∀ id, (w.transfers.filter (fun t => t.covers id && t.canLand w.dead)).length ≤ 1
  amounts : ∀ t ∈ w.transfers, t.amountUsdc = Db.shares t.rows ∧
    ∃ row, w.db.withdrawals.get? t.withdrawalId = some row ∧ t.amountUsdc ≤ row.amountUsdc
  /-- until it is seen reverted, its rows are the rows linked to its withdrawal -/
  rows : ∀ t ∈ w.transfers, t.closed w.observed = false → t.rows = w.db.linked t.withdrawalId

theorem closed_iff {observed : List String} {t : Transfer} :
    t.closed observed = true ↔ ∃ h, t.txHash = some h ∧ h ∈ observed := by
  unfold Transfer.closed
  rw [Option.any_eq_true]
  simp

theorem Safe.once (h : Safe w) (id : String) :
    (w.transfers.filter (fun t => t.covers id && t.canLand w.dead)).length ≤ 1 := by
  have hpair : (w.transfers.filter (fun t => t.covers id && t.canLand w.dead)).Pairwise (fun _ _ => False) := by
    rw [pairwise_filter]
    refine h.inv.disjoint.imp ?_
    intro a b hab ha hb
    rw [Bool.and_eq_true] at ha hb
    obtain ⟨e, he, hid⟩ := any_eq_true.1 ha.1
    obtain ⟨e', he', hid'⟩ := any_eq_true.1 hb.1
    have hover : Overlap a b := ⟨e, he, e', he', (of_decide_eq_true hid).trans (of_decide_eq_true hid').symm⟩
    obtain ⟨x, hx, hobs⟩ := closed_iff.1 (hab hover)
    have hland := ha.2
    unfold Transfer.canLand at hland
    rw [hx, Option.all_some] at hland
    exact of_decide_eq_true hland (h.dead x hobs)
  generalize w.transfers.filter (fun t => t.covers id && t.canLand w.dead) = able at hpair ⊢
  rcases able with _ | ⟨a, _ | ⟨b, rest⟩⟩
  · exact Nat.zero_le _
  · exact le_refl _
  · exact absurd ((pairwise_cons.1 hpair).1 b mem_cons_self) not_false

/-- **No earning is paid out twice without an operator.** For every interleaving of requests, processings, sweeps and
reconcilers, every outcome of the transfers and every crash: of two transfers that cover a row the first was observed
reverted before the second was sent, at most one can land, and each is the sum of the rows linked to its withdrawal and
within the withdrawal's amount. -/
theorem no_double_payout (s : Settings) (acts : List Act) (hrun : Runs.Legal (step s) Unattended World.start acts) :
    PaidOnce (run s World.start acts) := by
  have h := run_safe s acts hrun
  refine { again := ?_, once := h.once, amounts := h.inv.amounts, rows := ?_ }
  · intro i j a b hij hi hj hover
    obtain ⟨hlt, rfl⟩ := List.getElem?_eq_some_iff.1 hi
    obtain ⟨hlt', rfl⟩ := List.getElem?_eq_some_iff.1 hj
    obtain ⟨x, hx, hobs⟩ := closed_iff.1 (pairwise_iff_getElem.1 h.inv.disjoint i j hlt hlt' hij hover)
    exact ⟨x, hx, hobs, h.dead x hobs⟩
  · intro t ht hclosed
    exact (h.inv.sound t.withdrawalId).rows t ⟨ht, rfl, hclosed⟩

/-- two minutes later -/
def later : Env := { now := 120000000, clock := 120000000 }

/-- the first transfer reverts, the sweep schedules the withdrawal, and a second sweep (task 2) pays it -/
def retried : List Act :=
  requested ++ sweptToLastWrite ++
    [.advance 1 quiet, .call .marketplaceSweepOnce, .advance 2 later, .advance 2 later, .advance 2 later, .advance 2 later,
      .advance 2 { later with transferUsdc := some "0xb" }, .land "0xb",
      .advance 2 { later with verifyUsdcTransfer := some true }, .advance 2 later]

theorem no_double_payout_retried :
    (run {} World.start retried).transfers.map Transfer.txHash = [some "0xa", some "0xb"] ∧
      PaidOnce (run {} World.start retried) :=
  ⟨by decide, no_double_payout {} retried (by decide)⟩

/-- **What a settled withdrawal was paid.** Without an operator, a settled withdrawal has a transfer under its hash whose
amount is what the greedy pass took of the rows its claim had read: at most `amount_usdc`, and all of it when those rows
add up to it. No other amount can have been sent for it. -/
theorem settled_amount_is_pass (s : Settings) (acts : List Act)
    (hrun : Runs.Legal (step s) Unattended World.start acts) (x : String) (row : Withdrawal)
    (hrow : (run s World.start acts).db.withdrawals.get? x = some row) (hsettled : row.status = .settled) :
    ∃ t ∈ (run s World.start acts).transfers, ∃ c ∈ (run s World.start acts).claims,
      t.withdrawalId = x ∧ t.txHash = some row.txHash ∧ c.withdrawalId = x ∧
      t.amountUsdc = Db.shares (Db.pass row.amountUsdc c.rows) ∧ t.amountUsdc ≤ row.amountUsdc ∧
      (Db.shares c.rows = row.amountUsdc → t.amountUsdc = row.amountUsdc) ∧
      ∀ t' ∈ (run s World.start acts).transfers, t'.withdrawalId = x →
        t'.closed (run s World.start acts).observed = false → t'.amountUsdc = t.amountUsdc := by
  have h := (run_safe s acts hrun).inv
  obtain ⟨t, ht, hid, htx, hrows⟩ := (h.sound x).sent row hrow (.inl hsettled)
  obtain ⟨c, hc, hcid, hshares⟩ := (h.sound x).claimed row hrow (.inr hsettled)
  have hamount : t.amountUsdc = Db.shares (Db.pass row.amountUsdc c.rows) := by
    rw [(h.amounts t ht).1, hrows, hshares]
  refine ⟨t, ht, c, hc, hid, htx, hcid, hamount, ?_, ?_, ?_⟩
  · rw [hamount]
    exact Db.shares_pass_le (le_of_lt row.amount_pos) _
  · intro hall
    rw [hamount]
    exact Db.shares_pass_all hall
  · intro t' ht' hid' hclosed
    rw [(h.amounts t' ht').1, (h.sound x).rows t' ⟨ht', hid', hclosed⟩, (h.amounts t ht).1, hrows]

/-- the withdrawal of `retried` is paid in full -/
theorem settled_amount_is_pass_retried :
    ∃ row, (run {} World.start retried).db.withdrawals.get? "w1" = some row ∧ row.status = .settled ∧
      ∃ t ∈ (run {} World.start retried).transfers, t.txHash = some row.txHash ∧ t.amountUsdc ≤ row.amountUsdc := by
  refine ⟨_, rfl, by decide, ?_⟩
  obtain ⟨t, ht, -, -, -, htx, -, -, hle, -⟩ :=
    settled_amount_is_pass {} retried (by decide) "w1" _ rfl (by decide)
  exact ⟨t, ht, htx, hle⟩

/-- two earnings of 0.30 each, and a request for 0.50 that is accepted, processed (task 1) and settled -/
def shortPaid : List Act :=
  [.earn "e1" "author" 300000 0, .earn "e2" "author" 300000 1, .call (.requestWithdrawal "author" 500000),
    .advance 0 { quiet with config := some "0xwallet" }, .advance 0 quiet, .advance 0 quiet,
    .advance 0 { quiet with uuid := "w1" }, .call (.processWithdrawal "w1"), .advance 1 quiet,
    .advance 1 { quiet with transferUsdc := some "0xa" }, .land "0xa",
    .advance 1 { quiet with verifyUsdcTransfer := some true }, .advance 1 quiet]

/-- **A settled withdrawal that was paid less than its amount.** The second row does not fit into what the first leaves,
and the pass takes whole rows. -/
theorem settled_below_amount : ¬ ∀ t ∈ (run {} World.start shortPaid).transfers, ∀ row,
      (run {} World.start shortPaid).db.withdrawals.get? t.withdrawalId = some row → row.status = .settled →
        t.amountUsdc = row.amountUsdc := by
  intro h
  obtain ⟨t, ht, hid, hamount⟩ : ∃ t ∈ (run {} World.start shortPaid).transfers, t.withdrawalId = "w1" ∧
      t.amountUsdc = 300000 := ⟨_, mem_cons_self, rfl, by decide⟩
  obtain ⟨row, hrow, hsettled, hrequested⟩ : ∃ row, (run {} World.start shortPaid).db.withdrawals.get? "w1" = some row ∧
      row.status = .settled ∧ row.amountUsdc = 500000 := ⟨_, rfl, by decide, by decide⟩
  rw [← hid] at hrow
  have hpaid := h t ht row hrow hsettled
  omega

end Teardrop.Marketplace
