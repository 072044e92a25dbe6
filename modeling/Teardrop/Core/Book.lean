/-
An account book: a balance for every account beside an append-only log of postings. A step of any machine that writes
such a book either leaves it still or posts one entry; whatever the machine is, books reached from an empty one by such
steps are balanced (`Balanced.move`).
-/
import Mathlib

namespace Teardrop

/-- one posting: the account, the signed amount and the balance it claims to have left -/
structure Entry (A : Type) where
  acct : A
  delta : ℤ
  after : ℤ

structure Book (A : Type) where
  bal : A → ℤ
  log : List (Entry A)

namespace Book

/-! ## Moves -/

section Moves

variable {A : Type}

/-- nothing moved -/
structure Still (b b' : Book A) : Prop where
  bal : ∀ a, b'.bal a = b.bal a
  log : b'.log = b.log

/-- `e` was posted: appended to the log, its account set to the balance it records, all others untouched -/
structure Posts (b b' : Book A) (e : Entry A) : Prop where
  log : b'.log = b.log ++ [e]
  after : e.after = b.bal e.acct + e.delta
  bal : b'.bal e.acct = e.after
  nonneg : 0 ≤ e.after
  frame : ∀ a, a ≠ e.acct → b'.bal a = b.bal a

def Move (b b' : Book A) : Prop := Still b b' ∨ ∃ e, Posts b b' e

end Moves

/-! ## Balanced books -/

section Balance

variable {A : Type} [DecidableEq A]

/-- the sum of the postings of account `a` -/
def total (log : List (Entry A)) (a : A) : ℤ := ((log.filter (fun e => e.acct = a)).map Entry.delta).sum

/-- balances are non-negative and are the sums of the postings, and every entry records the sum up to itself -/
structure Balanced (b : Book A) : Prop where
  nonneg : ∀ a, 0 ≤ b.bal a
  conserved : ∀ a, b.bal a = total b.log a
  afters : ∀ before e rest, b.log = before ++ e :: rest → e.after = total (before ++ [e]) e.acct

theorem total_snoc_self (log : List (Entry A)) (e : Entry A) : total (log ++ [e]) e.acct = total log e.acct + e.delta := by
  simp [total]

theorem total_snoc_of_ne (log : List (Entry A)) (e : Entry A) {a : A} (h : a ≠ e.acct) :
    total (log ++ [e]) a = total log a := by
  simp [total, Ne.symm h]

theorem Balanced.empty (b : Book A) (hlog : b.log = []) (hbal : ∀ a, b.bal a = 0) : Balanced b where
  nonneg a := by rw [hbal]
  conserved a := by rw [hbal, hlog]; rfl
  afters before e rest h := by rw [hlog] at h; simp at h

/-- **One step keeps the book balanced.** -/
theorem Balanced.move {b b' : Book A} (h : Balanced b) (hm : Move b b') : Balanced b' := by
  rcases hm with hs | ⟨e, hp⟩
  · refine ⟨fun a => ?_, fun a => ?_, fun before e rest hl => ?_⟩
    · rw [hs.bal]; exact h.nonneg a
    · rw [hs.bal, hs.log]; exact h.conserved a
    · exact h.afters before e rest (hs.log ▸ hl)
  · have hafter : e.after = total (b.log ++ [e]) e.acct := by
      rw [total_snoc_self, hp.after, h.conserved]
    refine ⟨fun a => ?_, fun a => ?_, fun before x rest hl => ?_⟩
    · by_cases ha : a = e.acct
      · rw [ha, hp.bal]; exact hp.nonneg
      · rw [hp.frame a ha]; exact h.nonneg a
    · rw [hp.log]
      by_cases ha : a = e.acct
      · rw [ha, hp.bal]; exact hafter
      · rw [hp.frame a ha, total_snoc_of_ne _ _ ha]; exact h.conserved a
    · rw [hp.log] at hl
      -- the entry looked at is the new one or stands in the old log
      rcases List.eq_nil_or_concat rest with rfl | ⟨rest', y, rfl⟩
      · obtain ⟨rfl, hx⟩ := List.append_inj' hl rfl
        cases hx
        exact hafter
      · rw [List.concat_eq_append, ← List.cons_append, ← List.append_assoc] at hl
        obtain ⟨hl, -⟩ := List.append_inj' hl rfl
        exact h.afters before x rest' hl

end Balance

end Book

end Teardrop
