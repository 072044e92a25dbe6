/-
A table that concurrent transactions insert into, under read-committed isolation. A statement sees the committed rows and
its own; an insert that meets a visible row in one of the unique indexes is a conflict, and one that meets a row of another
open transaction waits for its end. `entries` gives the index entries of a row, over all unique indexes. Rows never share an
entry, pending rows included, so a commit cannot fail.
-/
import Mathlib

namespace Teardrop

/-- a row and the open transaction that wrote it, `none` once it is committed -/
structure Stored (R : Type) where
  row : R
  owner : Option ℕ := none

namespace Stored

variable {R : Type}

/-- what a statement of transaction `tx` sees; `none` is a statement outside of transactions -/
def visible (tx : Option ℕ) (x : Stored R) : Bool := x.owner = none || x.owner = tx

/-- the row once transaction `i` committed -/
def settle (i : ℕ) (x : Stored R) : Stored R := if x.owner = some i then { x with owner := none } else x

@[simp] theorem settle_row (i : ℕ) (x : Stored R) : (x.settle i).row = x.row := by
  unfold settle
  split_ifs <;> rfl

theorem settle_owner (i : ℕ) (x : Stored R) : (x.settle i).owner = if x.owner = some i then none else x.owner := by
  unfold settle
  split_ifs <;> rfl

end Stored

/-- the rows of a table whose unique indexes hold `entries` -/
structure SharedTable {K R : Type} (entries : R → List K) where
  rows : List (Stored R)
  apart : rows.Pairwise (fun x y => (entries x.row).Disjoint (entries y.row))

/-- how an insert goes -/
inductive Insertion (T : Type) where
  | done (t : T)
  | conflict
  | wait

namespace SharedTable

section Ops

variable {K R : Type} {entries : R → List K}

def empty : SharedTable entries := ⟨[], List.Pairwise.nil⟩

/-- the rows a statement of `tx` sees -/
def select (t : SharedTable entries) (tx : Option ℕ) : List R := (t.rows.filter (Stored.visible tx)).map Stored.row

/-- transaction `i` commits -/
def commit (t : SharedTable entries) (i : ℕ) : SharedTable entries where
  rows := t.rows.map (Stored.settle i)
  apart := by
    rw [List.pairwise_map]
    simpa only [Stored.settle_row] using t.apart

/-- transaction `i` is rolled back -/
def rollback (t : SharedTable entries) (i : ℕ) : SharedTable entries where
  rows := t.rows.filter (fun x => x.owner ≠ some i)
  apart := t.apart.sublist List.filter_sublist

variable [DecidableEq K]

/-- the two rows share an index entry -/
def clashes (entries : R → List K) (r : R) (x : Stored R) : Bool := (entries r).any (fun k => k ∈ entries x.row)

/-- an index entry a statement of `tx` finds -/
def taken (t : SharedTable entries) (tx : Option ℕ) (k : K) : Bool :=
  (t.select tx).any (fun r => k ∈ entries r)

variable {x : Stored R} {i : ℕ}

theorem clashes_eq_false {r : R} : clashes entries r x = false ↔ (entries r).Disjoint (entries x.row) := by
  simp [clashes, List.Disjoint]

/-- `INSERT` by `tx` -/
def insert (t : SharedTable entries) (tx : Option ℕ) (r : R) : Insertion (SharedTable entries) :=
  if t.rows.any (fun x => x.visible tx && clashes entries r x) then .conflict
  else if h : t.rows.any (clashes entries r) then .wait
  else .done
    { rows := t.rows ++ [⟨r, tx⟩]
      apart := by
        refine List.pairwise_append.2 ⟨t.apart, List.pairwise_singleton _ _, ?_⟩
        intro x hx y hy
        rw [List.mem_singleton] at hy
        subst hy
        rw [Bool.not_eq_true, List.any_eq_false] at h
        exact (clashes_eq_false.1 (by simpa using h x hx)).symm }

omit [DecidableEq K] in
theorem mem_select {t : SharedTable entries} {tx : Option ℕ} {r : R} :
    r ∈ t.select tx ↔ ∃ x ∈ t.rows, x.row = r ∧ (x.owner = none ∨ x.owner = tx) := by
  simp only [select, List.mem_map, List.mem_filter, Stored.visible, Bool.or_eq_true, decide_eq_true_eq]
  constructor
  · rintro ⟨x, ⟨hx, hv⟩, rfl⟩
    exact ⟨x, hx, rfl, hv⟩
  · rintro ⟨x, hx, rfl, hv⟩
    exact ⟨x, ⟨hx, hv⟩, rfl⟩

omit [DecidableEq K] in
theorem mem_commit {t : SharedTable entries} : x ∈ (t.commit i).rows ↔ ∃ y ∈ t.rows, y.settle i = x := List.mem_map

omit [DecidableEq K] in
theorem mem_rollback {t : SharedTable entries} : x ∈ (t.rollback i).rows ↔ x ∈ t.rows ∧ x.owner ≠ some i := by
  simp [rollback]

omit [DecidableEq K] in
/-- **One row an entry.** -/
theorem eq_of_entry {t : SharedTable entries} {y : Stored R} (hx : x ∈ t.rows) (hy : y ∈ t.rows) {k : K}
    (hkx : k ∈ entries x.row) (hky : k ∈ entries y.row) : x = y := by
  have hsymm : Std.Symm (fun x y : Stored R => (entries x.row).Disjoint (entries y.row)) := ⟨fun _ _ h => h.symm⟩
  by_contra hne
  exact t.apart.forall hx hy hne hkx hky

omit [DecidableEq K] in
theorem select_eq_of_entry {t : SharedTable entries} {tx tx' : Option ℕ} {r r' : R} (hr : r ∈ t.select tx)
    (hr' : r' ∈ t.select tx') {k : K} (hk : k ∈ entries r) (hk' : k ∈ entries r') : r = r' := by
  obtain ⟨x, hx, rfl, -⟩ := mem_select.1 hr
  obtain ⟨y, hy, rfl, -⟩ := mem_select.1 hr'
  rw [eq_of_entry hx hy hk hk']

theorem taken_iff {t : SharedTable entries} {tx : Option ℕ} {k : K} : t.taken tx k ↔ ∃ r ∈ t.select tx, k ∈ entries r := by
  simp [taken]

variable {t t' : SharedTable entries} {tx : Option ℕ} {r : R}

theorem insert_done (h : t.insert tx r = .done t') :
    t'.rows = t.rows ++ [⟨r, tx⟩] ∧ ∀ x ∈ t.rows, (entries r).Disjoint (entries x.row) := by
  unfold insert at h
  split_ifs at h with hc hw
  cases h
  refine ⟨rfl, fun x hx => clashes_eq_false.1 ?_⟩
  rw [Bool.not_eq_true, List.any_eq_false] at hw
  simpa using hw x hx

theorem mem_insert (h : t.insert tx r = .done t') : x ∈ t'.rows ↔ x ∈ t.rows ∨ x = ⟨r, tx⟩ := by
  rw [(insert_done h).1, List.mem_append, List.mem_singleton]

theorem insert_done_iff : (∃ t', t.insert tx r = .done t') ↔ ∀ x ∈ t.rows, (entries r).Disjoint (entries x.row) := by
  constructor
  · rintro ⟨t', h⟩
    exact (insert_done h).2
  · intro h
    have hw : ¬ t.rows.any (clashes entries r) := by
      rw [Bool.not_eq_true, List.any_eq_false]
      intro x hx
      simpa using clashes_eq_false.2 (h x hx)
    have hc : ¬ t.rows.any (fun x => x.visible tx && clashes entries r x) := by
      rw [Bool.not_eq_true, List.any_eq_false]
      intro x hx
      simp [clashes_eq_false.2 (h x hx)]
    exact ⟨_, by rw [insert, if_neg hc, dif_neg hw]⟩

theorem insert_conflict (h : t.insert tx r = .conflict) : ∃ r' ∈ t.select tx, ∃ k ∈ entries r, k ∈ entries r' := by
  unfold insert at h
  split_ifs at h with hc
  obtain ⟨x, hx, hv⟩ := List.any_eq_true.1 hc
  rw [Bool.and_eq_true, clashes, List.any_eq_true] at hv
  obtain ⟨k, hk, hkx⟩ := hv.2
  refine ⟨x.row, mem_select.2 ⟨x, hx, rfl, ?_⟩, k, hk, by simpa using hkx⟩
  simpa [Stored.visible] using hv.1

theorem insert_of_conflict {r' : R} (hr' : r' ∈ t.select tx) {k : K} (hk : k ∈ entries r) (hk' : k ∈ entries r') :
    t.insert tx r = .conflict := by
  obtain ⟨x, hx, rfl, hv⟩ := mem_select.1 hr'
  refine if_pos (List.any_eq_true.2 ⟨x, hx, ?_⟩)
  rw [Bool.and_eq_true]
  exact ⟨by simpa [Stored.visible] using hv, List.any_eq_true.2 ⟨k, hk, by simpa using hk'⟩⟩

theorem insert_conflict_iff : t.insert tx r = .conflict ↔ ∃ k ∈ entries r, t.taken tx k := by
  constructor
  · intro h
    obtain ⟨r', hr', k, hk, hk'⟩ := insert_conflict h
    exact ⟨k, hk, taken_iff.2 ⟨r', hr', hk'⟩⟩
  · rintro ⟨k, hk, htaken⟩
    obtain ⟨r', hr', hk'⟩ := taken_iff.1 htaken
    exact insert_of_conflict hr' hk hk'

theorem insert_done_iff_free (hseen : ∀ x ∈ t.rows, x.owner = none ∨ x.owner = tx) :
    (∃ t', t.insert tx r = .done t') ↔ ∀ k ∈ entries r, t.taken tx k = false := by
  rw [insert_done_iff]
  constructor
  · intro h k hk
    rw [← Bool.not_eq_true]
    intro htaken
    obtain ⟨r', hr', hk'⟩ := taken_iff.1 htaken
    obtain ⟨x, hx, rfl, -⟩ := mem_select.1 hr'
    exact h x hx hk hk'
  · intro h x hx k hk hk'
    have htaken : t.taken tx k := taken_iff.2 ⟨x.row, mem_select.2 ⟨x, hx, rfl, hseen x hx⟩, hk'⟩
    rw [h k hk] at htaken
    cases htaken

/-! ### What one transaction leaves to the others -/

/-- only rows of transaction `i` come, go or change hands -/
structure ByTx (i : ℕ) (t t' : SharedTable entries) : Prop where
  keeps : ∀ x ∈ t.rows, x.owner ≠ some i → x ∈ t'.rows
  old : ∀ x ∈ t'.rows, ∀ j, j ≠ i → x.owner = some j → x ∈ t.rows

omit [DecidableEq K] in
theorem ByTx.refl (i : ℕ) (t : SharedTable entries) : ByTx i t t := ⟨fun _ hx _ => hx, fun _ hx _ _ _ => hx⟩

/-- an insert of transaction `i`, or one outside of transactions -/
theorem ByTx.insertBy (h : t.insert tx r = .done t') (htx : ∀ j, tx = some j → j = i) : ByTx i t t' where
  keeps _ hx _ := (mem_insert h).2 (.inl hx)
  old x hx j hj hown := by
    rcases (mem_insert h).1 hx with hx | rfl
    · exact hx
    · exact absurd (htx j hown) hj

theorem ByTx.insert (h : t.insert (some i) r = .done t') : ByTx i t t' :=
  .insertBy h (fun _ hj => (Option.some.inj hj).symm)

omit [DecidableEq K] in
theorem ByTx.commit (i : ℕ) (t : SharedTable entries) : ByTx i t (t.commit i) where
  keeps x hx hown := mem_commit.2 ⟨x, hx, if_neg hown⟩
  old x hx j _ hown := by
    obtain ⟨y, hy, rfl⟩ := mem_commit.1 hx
    rw [Stored.settle_owner] at hown
    split_ifs at hown with hi
    rw [Stored.settle, if_neg hi]
    exact hy

omit [DecidableEq K] in
theorem ByTx.rollback (i : ℕ) (t : SharedTable entries) : ByTx i t (t.rollback i) where
  keeps _ hx hown := mem_rollback.2 ⟨hx, hown⟩
  old _ hx _ _ _ := (mem_rollback.1 hx).1

omit [DecidableEq K] in
theorem ByTx.committed (h : ByTx i t t') (hx : x ∈ t.rows) (hown : x.owner = none) : x ∈ t'.rows :=
  h.keeps x hx (by rw [hown]; exact (Option.some_ne_none i).symm)

omit [DecidableEq K] in
theorem ByTx.others {j : ℕ} (h : ByTx i t t') (hj : j ≠ i) (hx : x ∈ t.rows) (hown : x.owner = some j) : x ∈ t'.rows :=
  h.keeps x hx (by rw [hown]; exact fun heq => hj (Option.some.inj heq))

end Ops

end SharedTable

end Teardrop
