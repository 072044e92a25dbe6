/-
Which earnings a withdrawal settles: the loop of `_select_earnings_to_settle` (`marketplace/withdrawals.py`) over the rows
its query returns, with the remainder, the ids and the total it carries along.
-/
import Teardrop.Marketplace.Store

namespace Teardrop.Marketplace

open List

/-! ## The loop -/

/-- `id, author_share_usdc` of a pending row -/
structure EarningsRow where
  id : String
  authorShareUsdc : ℤ
deriving DecidableEq

/-- what the loop carries from row to row -/
structure Selection where
  remaining : ℤ
  settledIds : List String
  settledTotal : ℤ

/-- the row is settled -/
def Selection.settle (s : Selection) (er : EarningsRow) : Selection where
  remaining := s.remaining - er.authorShareUsdc
  settledIds := s.settledIds ++ [er.id]
  settledTotal := s.settledTotal + er.authorShareUsdc

def settleLoop (s : Selection) : List EarningsRow → Selection
  | [] => s
  | er :: rows =>
    if s.remaining ≤ 0 then s
    else if er.authorShareUsdc > s.remaining then settleLoop s rows
    else settleLoop (s.settle er) rows

/-- `_select_earnings_to_settle`, from the fetched rows on -/
def selectEarnings (amount : ℤ) (rows : List EarningsRow) : List String × ℤ :=
  let s := settleLoop ⟨amount, [], 0⟩ rows
  (s.settledIds, s.settledTotal)

/-- the shares of some rows -/
def shareSum (rows : List EarningsRow) : ℤ := (rows.map EarningsRow.authorShareUsdc).sum

@[simp] theorem shareSum_nil : shareSum [] = 0 := rfl

@[simp] theorem shareSum_cons (er : EarningsRow) (rows : List EarningsRow) :
    shareSum (er :: rows) = er.authorShareUsdc + shareSum rows := rfl

theorem shareSum_nonneg {rows : List EarningsRow} (h : ∀ er ∈ rows, 0 ≤ er.authorShareUsdc) : 0 ≤ shareSum rows := by
  apply sum_nonneg
  intro share hshare
  obtain ⟨er, her, rfl⟩ := mem_map.1 hshare
  exact h er her

/-! ## What it takes -/

/-- what the loop did with some rows from `s` on: `taken` are the rows it selected -/
structure Took (s : Selection) (rows taken : List EarningsRow) (t : Selection) : Prop where
  sublist : taken.Sublist rows
  ids : t.settledIds = s.settledIds ++ taken.map EarningsRow.id
  total : t.settledTotal = s.settledTotal + shareSum taken
  remaining : t.remaining = s.remaining - shareSum taken
  nonneg : 0 ≤ s.remaining → 0 ≤ t.remaining
  left : ∀ er ∈ rows, er ∉ taken → 0 < er.authorShareUsdc → t.remaining < er.authorShareUsdc

theorem settleLoop_spec (rows : List EarningsRow) (s : Selection) (hshares : ∀ er ∈ rows, 0 ≤ er.authorShareUsdc) :
    ∃ taken, Took s rows taken (settleLoop s rows) := by
  induction rows generalizing s with
  | nil => exact ⟨[], .slnil, by simp [settleLoop], by simp [settleLoop], by simp [settleLoop], id, nofun⟩
  | cons er rows ih =>
    have hrest : ∀ er' ∈ rows, 0 ≤ er'.authorShareUsdc := fun er' h => hshares er' (mem_cons_of_mem er h)
    rw [settleLoop]
    split_ifs with hstop hlarge
    · -- nothing remains: no positive share fits
      refine ⟨[], nil_sublist _, by simp, by simp, by simp, id, ?_⟩
      intro er' _ _ hpos
      exact lt_of_le_of_lt hstop hpos
    · -- passed over: the remainder it did not fit in only shrinks
      obtain ⟨taken, ht⟩ := ih s hrest
      refine ⟨taken, ht.sublist.cons er, ht.ids, ht.total, ht.remaining, ht.nonneg, ?_⟩
      intro er' hmem hnot hpos
      rcases mem_cons.1 hmem with rfl | hmem
      · have hsum := shareSum_nonneg (fun x hx => hrest x (ht.sublist.subset hx))
        have hremaining := ht.remaining
        omega
      · exact ht.left er' hmem hnot hpos
    · obtain ⟨taken, ht⟩ := ih (s.settle er) hrest
      refine ⟨er :: taken, ht.sublist.cons_cons er, ?_, ?_, ?_, ?_, ?_⟩
      · rw [ht.ids]
        simp [Selection.settle]
      · rw [ht.total]
        simp [Selection.settle, add_assoc]
      · rw [ht.remaining]
        simp [Selection.settle, sub_sub]
      · intro _
        apply ht.nonneg
        simp only [Selection.settle]
        omega
      · intro er' hmem hnot hpos
        rw [mem_cons, not_or] at hnot
        rcases mem_cons.1 hmem with rfl | hmem
        · exact absurd rfl hnot.1
        · exact ht.left er' hmem hnot.2 hpos

theorem filter_mem_sublist {α : Type} [DecidableEq α] {l t : List α} (hsub : t.Sublist l) (hnodup : l.Nodup) :
    l.filter (· ∈ t) = t := by
  have hpicked : t.filter (· ∈ t) = t := filter_eq_self.2 (fun a ha => decide_eq_true ha)
  have hle : t.Sublist (l.filter (· ∈ t)) := by
    have hfilter := hsub.filter (· ∈ t)
    rwa [hpicked] at hfilter
  have hsubset : l.filter (· ∈ t) ⊆ t := fun a ha => of_decide_eq_true (mem_filter.1 ha).2
  exact (hle.eq_of_length_le ((hnodup.filter _).subperm hsubset).length_le).symm

theorem filter_ids {rows taken : List EarningsRow} (hsub : taken.Sublist rows) (hids : (rows.map EarningsRow.id).Nodup) :
    rows.filter (fun er => er.id ∈ taken.map EarningsRow.id) = taken := by
  have hsame : rows.filter (fun er => er.id ∈ taken.map EarningsRow.id) = rows.filter (· ∈ taken) := by
    apply filter_congr
    intro er her
    apply decide_eq_decide.2
    constructor
    · intro hid
      obtain ⟨er', her', heq⟩ := mem_map.1 hid
      rwa [← inj_on_of_nodup_map hids (hsub.subset her') her heq]
    · exact mem_map_of_mem
  rw [hsame]
  exact filter_mem_sublist hsub (List.Nodup.of_map _ hids)

/-- **The selection is safe and maximal.** Distinct ids of listed rows; the total is the sum of their shares and within the
amount; no row left out has a positive share that fits in the rest. -/
theorem select_safe_maximal (amount : ℤ) (rows : List EarningsRow) (hids : (rows.map EarningsRow.id).Nodup)
    (hshares : ∀ er ∈ rows, 0 ≤ er.authorShareUsdc) (hamount : 0 ≤ amount) :
    let (ids, total) := selectEarnings amount rows
    ids.Nodup ∧ (∀ id ∈ ids, ∃ er ∈ rows, er.id = id) ∧
      shareSum (rows.filter (fun er => er.id ∈ ids)) = total ∧ total ≤ amount ∧
      ∀ er ∈ rows, er.id ∉ ids → 0 < er.authorShareUsdc → ¬ er.authorShareUsdc ≤ amount - total := by
  obtain ⟨taken, ht⟩ := settleLoop_spec rows ⟨amount, [], 0⟩ hshares
  have hids' := ht.ids
  have htotal := ht.total
  have hremaining := ht.remaining
  have hnonneg := ht.nonneg hamount
  simp only [nil_append, zero_add] at hids' htotal hremaining
  simp only [selectEarnings, hids', htotal]
  refine ⟨hids.sublist (ht.sublist.map _), ?_, ?_, by omega, ?_⟩
  · intro id hid
    obtain ⟨er, her, rfl⟩ := mem_map.1 hid
    exact ⟨er, ht.sublist.subset her, rfl⟩
  · rw [filter_ids ht.sublist hids]
  · intro er her hnot hpos
    have hleft := ht.left er her (fun hmem => hnot (mem_map_of_mem hmem)) hpos
    omega

/-- 100 and 30 of 140: the 60 between does not fit when its turn comes, and nothing does in the 10 left -/
theorem select_safe_maximal_sample :
    let rows := [⟨"a", 100⟩, ⟨"b", 60⟩, ⟨"c", 0⟩, ⟨"d", 30⟩, ⟨"e", 11⟩]
    selectEarnings 140 rows = (["a", "c", "d"], 130) ∧
      let (ids, total) := selectEarnings 140 rows
      ids.Nodup ∧ (∀ id ∈ ids, ∃ er ∈ rows, er.id = id) ∧
        shareSum (rows.filter (fun er => er.id ∈ ids)) = total ∧ total ≤ 140 ∧
        ∀ er ∈ rows, er.id ∉ ids → 0 < er.authorShareUsdc → ¬ er.authorShareUsdc ≤ 140 - total :=
  ⟨by decide, select_safe_maximal 140 _ (by decide) (by decide) (by decide)⟩

end Teardrop.Marketplace
