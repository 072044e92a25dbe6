/-
The invariant of payouts without an operator, and the rules by which a step keeps it. It is stated for one withdrawal at
a time (`Sound`) and for one task at a time (`Ok`), with the frame that a step moves one withdrawal only: a task between its
claim and its last write holds its withdrawal, and tasks hold different withdrawals.
-/
import Teardrop.Core.Locks
import Teardrop.Marketplace.Links

namespace Teardrop.Marketplace

open Teardrop.Py List.Subset

/-! ## Open transfers -/

/-- seen reverted -/
def Transfer.closed (observed : List String) (t : Transfer) : Bool := t.txHash.any (fun h => h ∈ observed)

/-- a transfer of `x` that was not seen reverted -/
def Open (w : World) (x : String) (t : Transfer) : Prop :=
  t ∈ w.transfers ∧ t.withdrawalId = x ∧ t.closed w.observed = false

variable {observed : List String} {next raised : Task} (e : Env)

theorem closed_of_mem {t : Transfer} {h : String} (ht : t.txHash = some h) (hmem : h ∈ observed) : t.closed observed := by
  unfold Transfer.closed
  rw [ht, Option.any_some]
  exact decide_eq_true hmem

theorem closed_mono {observed' : List String} (hsub : observed ⊆ observed') {t : Transfer} (h : t.closed observed) :
    t.closed observed' := by
  unfold Transfer.closed at h ⊢
  rw [Option.any_eq_true] at h
  obtain ⟨x, hx, hmem⟩ := h
  exact closed_of_mem hx (hsub (of_decide_eq_true hmem))

/-! ## The invariant -/

/-- the invariant of withdrawal `x` -/
structure Sound (w : World) (x : String) : Prop where
  linked : Db.LinkedAt w.db x
  next : ∀ row, w.db.withdrawals.get? x = some row → row.status = .pending ∨ row.status = .inFlight → row.nextSweepAt = none
  rows : ∀ t, Open w x t → t.rows = w.db.linked x
  held : ∀ t, Open w x t → ∃ row, w.db.withdrawals.get? x = some row ∧ (row.status = .inFlight ∨ row.status = .settled)
  hash : ∀ row, w.db.withdrawals.get? x = some row → row.status = .inFlight → row.txHash ≠ "" →
    ∀ t, Open w x t → t.txHash = some row.txHash
  sent : ∀ row, w.db.withdrawals.get? x = some row → row.status = .settled ∨ (row.status = .inFlight ∧ row.txHash ≠ "") →
    ∃ t ∈ w.transfers, t.withdrawalId = x ∧ t.txHash = some row.txHash ∧ t.rows = w.db.linked x
  claimed : ∀ row, w.db.withdrawals.get? x = some row → row.status = .inFlight ∨ row.status = .settled →
    ∃ c ∈ w.claims, c.withdrawalId = x ∧ Db.shares (w.db.linked x) = Db.shares (Db.pass row.amountUsdc c.rows)

/-- `x` is in flight and nobody has recorded a hash -/
def InFlight (w : World) (x : String) : Prop :=
  ∃ row, w.db.withdrawals.get? x = some row ∧ row.status = .inFlight ∧ row.txHash = ""

/-- `x` failed and is not scheduled -/
def Failed (w : World) (x : String) : Prop :=
  ∃ row, w.db.withdrawals.get? x = some row ∧ row.status = .failed ∧ row.nextSweepAt = none

/-- the transfer of `x` under hash `h` is the only one that may be open -/
structure Sent (w : World) (x h : String) : Prop where
  only : ∀ t, Open w x t → t.txHash = some h
  made : ∃ t ∈ w.transfers, t.withdrawalId = x ∧ t.txHash = some h ∧ t.rows = w.db.linked x

/-- what `process_withdrawal` on `x` relies on -/
def Held (w : World) (x : String) : Proc → Prop
  | .claim => True
  | .transfer _ total => InFlight w x ∧ total = Db.shares (w.db.linked x) ∧ ∀ t, ¬ Open w x t
  | .verify h => InFlight w x ∧ Sent w x h
  | .settle h => InFlight w x ∧ Sent w x h
  | .release _ => InFlight w x ∧ ∀ t, ¬ Open w x t
  | .recordInFlight h _ => InFlight w x ∧ (h ≠ "" → Sent w x h)

/-- what a task relies on -/
def Ok (w : World) : Task → Prop
  | .process x p => Held w x p
  | .sweep _ c (.process p) _ => Held w c.id p
  | .sweep _ c (.readAttempts _) _ => Failed w c.id
  | .sweep _ c (.penalize _ _) _ => Failed w c.id
  | .reconcile _ row outcome rest =>
    row.txHash ≠ "" ∧ (∀ r ∈ rest, r.txHash ≠ "") ∧ (outcome = some .reverted → row.txHash ∈ w.observed)
  | _ => True

def Proc.hold (x : String) : Proc → Option String
  | .claim => none
  | _ => some x

/-- the withdrawal a task holds -/
def Task.hold : Task → Option String
  | .process x p => p.hold x
  | .sweep _ c (.process p) _ => p.hold c.id
  | .sweep _ c (.readAttempts _) _ => some c.id
  | .sweep _ c (.penalize _ _) _ => some c.id
  | _ => none

/-- tasks hold different withdrawals -/
def Apart (tasks : List Task) : Prop :=
  ∀ (i j : ℕ) (a b : Task), i ≠ j → tasks[i]? = some a → tasks[j]? = some b → ∀ x, a.hold = some x → b.hold ≠ some x

/-- two transfers cover a row in common -/
def Overlap (a b : Transfer) : Prop := ∃ e ∈ a.rows, ∃ e' ∈ b.rows, e.id = e'.id

structure Inv (w : World) : Prop where
  sound : ∀ x, Sound w x
  ok : ∀ t ∈ w.tasks, Ok w t
  apart : Apart w.tasks
  disjoint : w.transfers.Pairwise (fun a b => Overlap a b → a.closed w.observed = true)
  amounts : ∀ t ∈ w.transfers, t.amountUsdc = Db.shares t.rows ∧
    ∃ row, w.db.withdrawals.get? t.withdrawalId = some row ∧ t.amountUsdc ≤ row.amountUsdc

/-! ## Frames -/

/-- from `w` to `w'` withdrawal `y` stays as it is: the same row, links and transfers -/
structure Same (y : String) (w w' : World) : Prop where
  row : w'.db.withdrawals.get? y = w.db.withdrawals.get? y
  linked : w'.db.linked y = w.db.linked y
  transfers : ∀ t, t.withdrawalId = y → (t ∈ w'.transfers ↔ t ∈ w.transfers)
  observed : w.observed ⊆ w'.observed
  claims : w.claims ⊆ w'.claims

variable {y : String} {w w' : World} {x : String} {t : Task} {i : ℕ} {t' : Task} {p : Progress → Bool} {row : Withdrawal}

theorem Same.opened (h : Same y w w') {t : Transfer} (ho : Open w' y t) : Open w y t := by
  obtain ⟨hmem, hid, hclosed⟩ := ho
  refine ⟨(h.transfers t hid).1 hmem, hid, ?_⟩
  rw [Bool.eq_false_iff] at hclosed ⊢
  exact fun hc => hclosed (closed_mono h.observed hc)

theorem Same.made (h : Same y w w')
    (hm : ∃ t ∈ w.transfers, t.withdrawalId = y ∧ t.txHash = some x ∧ t.rows = w.db.linked y) :
    ∃ t ∈ w'.transfers, t.withdrawalId = y ∧ t.txHash = some x ∧ t.rows = w'.db.linked y := by
  obtain ⟨t, ht, hid, hhash, hrows⟩ := hm
  exact ⟨t, (h.transfers t hid).2 ht, hid, hhash, hrows.trans h.linked.symm⟩

theorem Sound.same (h : Sound w y) (hs : Same y w w') : Sound w' y where
  linked e he := by
    rw [hs.linked] at he
    rw [hs.row]
    exact h.linked e he
  next row hrow := h.next row (hs.row ▸ hrow)
  rows t ht := (h.rows t (hs.opened ht)).trans hs.linked.symm
  held t ht := by
    rw [hs.row]
    exact h.held t (hs.opened ht)
  hash row hrow hstatus hne t ht := h.hash row (hs.row ▸ hrow) hstatus hne t (hs.opened ht)
  sent row hrow hstatus := hs.made (h.sent row (hs.row ▸ hrow) hstatus)
  claimed row hrow hstatus := by
    obtain ⟨c, hc, hid, hshares⟩ := h.claimed row (hs.row ▸ hrow) hstatus
    exact ⟨c, hs.claims hc, hid, by rw [hs.linked]; exact hshares⟩

theorem Sent.same {h : String} (hsent : Sent w y h) (hs : Same y w w') : Sent w' y h :=
  ⟨fun t ht => hsent.only t (hs.opened ht), hs.made hsent.made⟩

theorem InFlight.same (h : InFlight w y) (hs : Same y w w') : InFlight w' y := by
  unfold InFlight
  rw [hs.row]
  exact h

theorem Failed.same (h : Failed w y) (hs : Same y w w') : Failed w' y := by
  unfold Failed
  rw [hs.row]
  exact h

theorem Held.same {p : Proc} (h : Held w y p) (hs : Same y w w') : Held w' y p := by
  cases p with
  | claim => trivial
  | transfer wallet total =>
    obtain ⟨hflight, htotal, hopen⟩ := h
    exact ⟨hflight.same hs, by rw [hs.linked]; exact htotal, fun t ht => hopen t (hs.opened ht)⟩
  | verify _ | settle _ => exact ⟨h.1.same hs, h.2.same hs⟩
  | release error => exact ⟨h.1.same hs, fun t ht => h.2 t (hs.opened ht)⟩
  | recordInFlight txHash error => exact ⟨h.1.same hs, fun hne => (h.2 hne).same hs⟩

theorem Proc.hold_of_ne {p : Proc} (h : p ≠ .claim) : p.hold x = some x := by
  cases p with
  | claim => exact absurd rfl h
  | _ => rfl

theorem Ok.same (h : Ok w t) (hobs : w.observed ⊆ w'.observed) (hs : ∀ y, t.hold = some y → Same y w w') : Ok w' t := by
  have hproc : ∀ {x : String} {p : Proc}, Held w x p → (∀ y, p.hold x = some y → Same y w w') → Held w' x p := by
    intro x p hheld hsame
    by_cases hp : p = .claim
    · rw [hp]
      trivial
    · exact hheld.same (hsame x (Proc.hold_of_ne hp))
  cases t with
  | process x p => exact hproc (p := p) h hs
  | sweep n c phase rest =>
    cases phase with
    | process p => exact hproc (p := p) h hs
    | readAttempts error => exact Failed.same (y := c.id) h (hs c.id rfl)
    | penalize attempt error => exact Failed.same (y := c.id) h (hs c.id rfl)
    | _ => trivial
  | reconcile n row outcome rest =>
    obtain ⟨hne, hrest, hrev⟩ := h
    exact ⟨hne, hrest, fun ho => hobs (hrev ho)⟩
  | _ => trivial

/-- no task holds a withdrawal that is neither in flight without a hash nor failed without a schedule -/
def Free (w : World) (x : String) : Prop := ¬ InFlight w x ∧ ¬ Failed w x

theorem Ok.not_hold (h : Ok w t) (hfree : Free w x) : t.hold ≠ some x := by
  intro hold
  have hproc : ∀ {y : String} {p : Proc}, Held w y p → p.hold y = some x → False := by
    intro y p hheld hy
    cases p with
    | claim => cases hy
    | _ =>
      cases hy
      exact hfree.1 hheld.1
  cases t with
  | process y p => exact hproc (p := p) h hold
  | sweep n c phase rest =>
    cases phase with
    | process p => exact hproc (p := p) h hold
    | readAttempts error =>
      cases hold
      exact hfree.2 h
    | penalize attempt error =>
      cases hold
      exact hfree.2 h
    | _ => cases hold
  | _ => cases hold

/-! ## Rules for a step -/

/-- task `i` goes on as `r` says -/
def World.put (tasks : List Task) (i : ℕ) (r : World × Task) : World := { r.1 with tasks := tasks.set i r.2 }

/-- a task that holds nothing and relies on nothing -/
structure Idle (t : Task) : Prop where
  hold : t.hold = none
  ok : ∀ w, Ok w t

theorem idle_nextCandidate (n : ℕ) (rest : List Candidate) : Idle (nextCandidate n rest) := by
  cases rest with
  | nil | cons _ _ => exact ⟨rfl, fun _ => trivial⟩

/-- the other tasks do not hold `x` -/
def Others (tasks : List Task) (i : ℕ) (x : String) : Prop :=
  ∀ (j : ℕ) (b : Task), j ≠ i → tasks[j]? = some b → b.hold ≠ some x

theorem Apart.set {tasks : List Task} (h : Apart tasks) (hi : tasks[i]? = some t)
    (hnew : ∀ x, t'.hold = some x → Others tasks i x) : Apart (tasks.set i t') := by
  intro k j a b hkj hk hj x hx hb
  rcases Locks.getElem?_set_cases hk with ⟨rfl, rfl⟩ | ⟨hki, hka⟩ <;>
    rcases Locks.getElem?_set_cases hj with ⟨rfl, rfl⟩ | ⟨hji, hjb⟩
  · exact hkj rfl
  · exact hnew x hx j b hji hjb hb
  · exact hnew x hb k a hki hka hx
  · exact h k j a b hkj hka hjb x hx hb

theorem Inv.others (h : Inv w) (hi : w.tasks[i]? = some t) (hmay : t.hold = some x ∨ Free w x) : Others w.tasks i x := by
  intro j b hji hj
  rcases hmay with hold | hfree
  · exact h.apart i j t b (fun hij => hji hij.symm) hi hj x hold
  · exact (h.ok b (List.mem_of_getElem? hj)).not_hold hfree

theorem Same.put (y : String) (tasks : List Task) (i : ℕ) (r : World × Task) : Same y r.1 (World.put tasks i r) :=
  ⟨rfl, rfl, fun _ _ => Iff.rfl, refl _, refl _⟩

theorem Ok.put (h : Ok w t) (tasks : List Task) (i : ℕ) (t' : Task) : Ok (World.put tasks i (w, t')) t :=
  h.same (refl _) (fun y _ => Same.put y tasks i (w, t'))

/-- a step that moves withdrawal `x` only, and leaves task `i` as `t'` -/
theorem Inv.move (h : Inv w) (hi : w.tasks[i]? = some t) (hmay : t.hold = some x ∨ Free w x)
    (hsame : ∀ y, y ≠ x → Same y w w') (hobs : w.observed ⊆ w'.observed) (hsound : Sound w' x) (hok : Ok w' t')
    (hhold : ∀ y, t'.hold = some y → y = x)
    (hdisjoint : w'.transfers.Pairwise (fun a b => Overlap a b → a.closed w'.observed))
    (hamounts : ∀ t ∈ w'.transfers, t.amountUsdc = Db.shares t.rows ∧ ∃ row, w'.db.withdrawals.get? t.withdrawalId = some row ∧ t.amountUsdc ≤ row.amountUsdc) :
    Inv (World.put w.tasks i (w', t')) where
  sound y := by
    refine Sound.same ?_ (Same.put y w.tasks i (w', t'))
    by_cases hy : y = x
    · rw [hy]
      exact hsound
    · exact (h.sound y).same (hsame y hy)
  ok b hb := by
    refine Ok.put ?_ w.tasks i t'
    obtain ⟨j, hj⟩ := List.mem_iff_getElem?.1 hb
    rcases Locks.getElem?_set_cases hj with ⟨-, rfl⟩ | ⟨hji, hj⟩
    · exact hok
    · refine (h.ok b (List.mem_of_getElem? hj)).same hobs (fun y hy => hsame y ?_)
      rintro rfl
      exact h.others hi hmay j b hji hj hy
  apart := h.apart.set hi (fun y hy => by rw [hhold y hy]; exact h.others hi hmay)
  disjoint := hdisjoint
  amounts := hamounts

theorem Inv.quiet (h : Inv w) (hi : w.tasks[i]? = some t) (hsame : ∀ y, Same y w w') (hobs : w.observed ⊆ w'.observed)
    (htransfers : w'.transfers = w.transfers) (hok : Ok w' t') (hhold : ∀ y, t'.hold = some y → t.hold = some y) :
    Inv (World.put w.tasks i (w', t')) where
  sound y := ((h.sound y).same (hsame y)).same (Same.put y w.tasks i (w', t'))
  ok b hb := by
    refine Ok.put ?_ w.tasks i t'
    rcases List.mem_or_eq_of_mem_set hb with hb | rfl
    · exact (h.ok b hb).same hobs (fun y _ => hsame y)
    · exact hok
  apart := h.apart.set hi (fun y hy => h.others hi (Or.inl (hhold y hy)))
  disjoint := by
    show w'.transfers.Pairwise _
    rw [htransfers]
    exact h.disjoint.imp (fun hab hover => closed_mono hobs (hab hover))
  amounts a ha := by
    obtain ⟨hamount, row, hrow, hle⟩ := h.amounts a (htransfers ▸ ha)
    exact ⟨hamount, row, (hsame _).row.trans hrow, hle⟩

theorem Same.refl (y : String) (w : World) : Same y w w :=
  ⟨rfl, rfl, fun _ _ => Iff.rfl, List.Subset.refl _, List.Subset.refl _⟩

theorem Inv.stay (h : Inv w) (hi : w.tasks[i]? = some t) (hok : Ok w t') (hhold : ∀ y, t'.hold = some y → t.hold = some y) :
    Inv (World.put w.tasks i (w, t')) :=
  h.quiet hi (fun y => Same.refl y w) (refl _) rfl hok hhold

theorem Idle.holds (h : Idle t) {P : String → Prop} (y : String) (hy : t.hold = some y) : P y := by
  rw [h.hold] at hy
  cases hy

theorem Inv.idle (h : Inv w) (hi : w.tasks[i]? = some t) (hidle : Idle t') : Inv (World.put w.tasks i (w, t')) :=
  h.stay hi (hidle.ok w) (fun y hy => hidle.holds (P := fun y => t.hold = some y) y hy)

/-- a write on withdrawal `x` -/
structure Wrote (w w' : World) (x : String) : Prop where
  touches : Db.Touches x w.db w'.db
  kept : ∀ row, w.db.withdrawals.get? x = some row → ∃ row', w'.db.withdrawals.get? x = some row' ∧ Db.SameRow row row'
  transfers : w'.transfers = w.transfers
  observed : w'.observed = w.observed
  claims : w.claims ⊆ w'.claims
  sound : Sound w' x

theorem Wrote.same (h : Wrote w w' x) (hy : y ≠ x) : Same y w w' :=
  ⟨h.touches.rows y hy, h.touches.linked y hy, fun t _ => by rw [h.transfers], by rw [h.observed]; exact refl _, h.claims⟩

theorem Wrote.opened (htr : w'.transfers = w.transfers) (hobs : w'.observed = w.observed) {t : Transfer} :
    Open w' x t ↔ Open w x t := by
  unfold Open
  rw [htr, hobs]

theorem Inv.write (h : Inv w) (hi : w.tasks[i]? = some t) (hmay : t.hold = some x ∨ Free w x) (hw : Wrote w w' x)
    (hok : Ok w' t') (hhold : ∀ y, t'.hold = some y → y = x) : Inv (World.put w.tasks i (w', t')) := by
  refine h.move hi hmay (fun y hy => hw.same hy) (by rw [hw.observed]; exact refl _) hw.sound hok hhold ?_ ?_
  · rw [hw.transfers, hw.observed]
    exact h.disjoint
  · intro a ha
    rw [hw.transfers] at ha
    obtain ⟨hamount, row, hrow, hle⟩ := h.amounts a ha
    refine ⟨hamount, ?_⟩
    by_cases hx : a.withdrawalId = x
    · rw [hx] at hrow ⊢
      obtain ⟨row', hrow', hsame⟩ := hw.kept row hrow
      exact ⟨row', hrow', by rw [hsame.amountUsdc]; exact hle⟩
    · exact ⟨row, (hw.touches.rows _ hx).trans hrow, hle⟩

theorem Inv.stmt (h : Inv w) (hi : w.tasks[i]? = some t) (hmay : t.hold = some x ∨ Free w x) (hw : Wrote w w' x)
    (hok : Ok w' next) (hhold : ∀ y, next.hold = some y → y = x) (hraised : Idle raised) :
    Inv (World.put w.tasks i (e.stmt w w' next raised)) := by
  unfold Env.stmt
  split
  · exact h.write hi hmay hw hok hhold
  · exact h.idle hi hraised
  · exact h.write hi hmay hw (hraised.ok w') (hraised.holds (P := fun y => y = x))

theorem Inv.read (h : Inv w) (hi : w.tasks[i]? = some t) (hok : Ok w next)
    (hhold : ∀ y, next.hold = some y → t.hold = some y) (hraised : Idle raised) :
    Inv (World.put w.tasks i (e.stmt w w next raised)) := by
  unfold Env.stmt
  split
  · exact h.stay hi hok hhold
  · exact h.idle hi hraised
  · exact h.idle hi hraised

theorem Inv.miss (h : Inv w) (hi : w.tasks[i]? = some t) (hsame : ∀ y, Same y w w')
    (htransfers : w'.transfers = w.transfers) (hnext : Idle next) (hraised : Idle raised) :
    Inv (World.put w.tasks i (e.stmt w w' next raised)) := by
  have hobs := (hsame "").observed
  unfold Env.stmt
  split
  · exact h.quiet hi hsame hobs htransfers (hnext.ok _) hnext.holds
  · exact h.idle hi hraised
  · exact h.quiet hi hsame hobs htransfers (hraised.ok _) hraised.holds

theorem stmt_map {α β : Type} (w w' : World) (next raised : α) (k : α → β) :
    ((e.stmt w w' next raised).1, k (e.stmt w w' next raised).2) = e.stmt w w' (k next) (k raised) := by
  unfold Env.stmt
  split <;> rfl

/-! ## Withdrawals without an open transfer -/

theorem Sound.of_unpaid (hlinked : w.db.linked x = []) (hopen : ∀ t, ¬ Open w x t)
    (hrow : ∀ row, w.db.withdrawals.get? x = some row → row.status ≠ .inFlight ∧ row.status ≠ .settled ∧ (row.status = .pending → row.nextSweepAt = none)) :
    Sound w x where
  linked := Db.LinkedAt.of_nil hlinked
  next row hr hstatus := by
    rcases hstatus with hs | hs
    · exact (hrow row hr).2.2 hs
    · exact absurd hs (hrow row hr).1
  rows t ht := absurd ht (hopen t)
  held t ht := absurd ht (hopen t)
  hash row hr hs := absurd hs (hrow row hr).1
  sent row hr hs := by
    rcases hs with hs | hs
    · exact absurd hs (hrow row hr).2.1
    · exact absurd hs.1 (hrow row hr).1
  claimed row hr hs := by
    rcases hs with hs | hs
    · exact absurd hs (hrow row hr).1
    · exact absurd hs (hrow row hr).2.1

theorem Sound.not_open (h : Sound w x)
    (hrow : ∀ row, w.db.withdrawals.get? x = some row → row.status ≠ .inFlight ∧ row.status ≠ .settled) (t : Transfer) :
    ¬ Open w x t := by
  intro ht
  obtain ⟨row, hr, hs | hs⟩ := h.held t ht
  · exact (hrow row hr).1 hs
  · exact (hrow row hr).2 hs

/-! ## Writes -/

open Db in
theorem get?_update_hit (db : Db) (f : Progress → Progress) (hrow : db.withdrawals.get? x = some row)
    (hp : p row.toProgress = true) :
    (db.updateWithdrawal x p f).withdrawals.get? x = some { row with toProgress := f row.toProgress } := by
  rw [get?_updateWithdrawal, hrow, Option.map_some, edited_pos hp]

open Db in
theorem kept_update (db : Db) (x : String) (p : Progress → Bool) (f : Progress → Progress) (row : Withdrawal)
    (hrow : db.withdrawals.get? x = some row) :
    ∃ row', (db.updateWithdrawal x p f).withdrawals.get? x = some row' ∧ SameRow row row' :=
  ⟨edited p f row, by rw [get?_updateWithdrawal, hrow]; rfl, edited_sameRow p f row⟩

open Db in
theorem update_miss {db : Db} (f : Progress → Progress) (h : ¬ db.holds x p) (y : String) :
    (db.updateWithdrawal x p f).withdrawals.get? y = db.withdrawals.get? y := by
  by_cases hy : y = x
  · rw [hy, get?_updateWithdrawal]
    cases hx : db.withdrawals.get? x with
    | none => rfl
    | some row =>
      rw [Option.map_some, edited_neg (fun hp => h (holds_iff.2 ⟨row, hx, hp⟩))]
  · exact (touches_updateWithdrawal db x p f).rows y hy

theorem Wrote.unpaid (ht : Db.Touches x w.db w'.db)
    (hkept : ∀ row, w.db.withdrawals.get? x = some row → ∃ row', w'.db.withdrawals.get? x = some row' ∧ Db.SameRow row row')
    (htr : w'.transfers = w.transfers) (hobs : w'.observed = w.observed) (hcl : w.claims ⊆ w'.claims)
    (hlinked : w'.db.linked x = []) (hopen : ∀ t, ¬ Open w x t)
    (hrow : ∀ row, w'.db.withdrawals.get? x = some row → row.status ≠ .inFlight ∧ row.status ≠ .settled ∧ (row.status = .pending → row.nextSweepAt = none)) :
    Wrote w w' x :=
  ⟨ht, hkept, htr, hobs, hcl, Sound.of_unpaid hlinked (fun t ht => hopen t ((Wrote.opened htr hobs).1 ht)) hrow⟩

theorem Wrote.paid {db : Db} {row' : Withdrawal} (h : Sound w x) (hrow : w.db.withdrawals.get? x = some row)
    (hflight : row.status = .inFlight) (ht : Db.Touches x w.db db) (hlinked : db.linked x = w.db.linked x)
    (hget : db.withdrawals.get? x = some row') (hsame : Db.SameRow row row')
    (hstatus : row'.status = .inFlight ∨ row'.status = .settled) (hnext : row'.nextSweepAt = row.nextSweepAt)
    (hhash : row'.status = .inFlight → row'.txHash ≠ "" → ∀ t, Open w x t → t.txHash = some row'.txHash)
    (hsent : row'.status = .settled ∨ (row'.status = .inFlight ∧ row'.txHash ≠ "") → ∃ t ∈ w.transfers, t.withdrawalId = x ∧ t.txHash = some row'.txHash ∧ t.rows = w.db.linked x) :
    Wrote w { w with db := db } x := by
  refine ⟨ht, ?_, rfl, rfl, refl _, ?_⟩
  · intro r hr
    rw [hrow] at hr
    cases hr
    exact ⟨row', hget, hsame⟩
  have only : ∀ r : Withdrawal, db.withdrawals.get? x = some r → r = row' := by
    intro r hr
    rw [hget] at hr
    exact (Option.some.inj hr).symm
  refine { linked := ?_, next := ?_, rows := ?_, held := ?_, hash := ?_, sent := ?_, claimed := ?_ }
  · intro e he
    rw [hlinked] at he
    obtain ⟨hsettled, r, hr, horg, -⟩ := h.linked e he
    rw [hrow] at hr
    cases hr
    exact ⟨hsettled, row', hget, by rw [hsame.orgId]; exact horg, hstatus⟩
  · intro r hr _
    rw [only r hr, hnext]
    exact h.next row hrow (Or.inr hflight)
  · intro t hopen
    exact (h.rows t hopen).trans hlinked.symm
  · intro t _
    exact ⟨row', hget, hstatus⟩
  · intro r hr hs hne
    rw [only r hr] at hs hne ⊢
    exact hhash hs hne
  · intro r hr hs
    rw [only r hr] at hs ⊢
    obtain ⟨t, hmem, hid, htx, hrows⟩ := hsent hs
    exact ⟨t, hmem, hid, htx, hrows.trans hlinked.symm⟩
  · intro r hr _
    rw [only r hr, hsame.amountUsdc, hlinked]
    exact h.claimed row hrow (Or.inl hflight)

theorem Wrote.release {f : Progress → Progress} {db : Db} (h : Sound w x) (hrow : w.db.withdrawals.get? x = some row)
    (hp : p row.toProgress = true) (hopen : ∀ t, ¬ Open w x t)
    (hf : (f row.toProgress).status ≠ .inFlight ∧ (f row.toProgress).status ≠ .settled ∧ (f row.toProgress).status ≠ .pending)
    (hdb : db = (w.db.unlink x).updateWithdrawal x p f ∨ db = (w.db.updateWithdrawal x p f).unlink x) :
    Wrote w { w with db := db } x ∧ db.withdrawals.get? x = some { row with toProgress := f row.toProgress } := by
  have hget : db.withdrawals.get? x = some { row with toProgress := f row.toProgress } := by
    rcases hdb with rfl | rfl
    · exact get?_update_hit (w.db.unlink x) f hrow hp
    · exact get?_update_hit w.db f hrow hp
  have hlinked : db.linked x = [] := by
    rcases hdb with rfl | rfl
    · exact h.linked.unlinked
    · exact Db.linked_unlink_self (fun e he => (h.linked e he).1)
  have htouches : Db.Touches x w.db db := by
    rcases hdb with rfl | rfl
    · exact (Db.touches_unlink _ _).trans (Db.touches_updateWithdrawal _ _ _ _)
    · exact (Db.touches_updateWithdrawal _ _ _ _).trans (Db.touches_unlink _ _)
  refine ⟨Wrote.unpaid htouches ?_ rfl rfl (refl _) hlinked hopen ?_, hget⟩
  · intro r hr
    rw [hrow] at hr
    cases hr
    exact ⟨_, hget, rfl⟩
  · intro r hr
    rw [hget] at hr
    cases hr
    exact ⟨hf.1, hf.2.1, fun hpending => absurd hpending hf.2.2⟩

end Teardrop.Marketplace
