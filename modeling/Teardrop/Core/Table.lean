/-
A table with a primary key: a list of rows with pairwise different keys, so that a lookup by key has at most one answer
and a duplicate key cannot be built. The operations are the ones SQL statements use: look up by key, insert unless the
key is taken, rewrite every row by a function that keeps the key (an `UPDATE ... WHERE` is such a function), delete.
-/
import Mathlib

namespace Teardrop

open List

/-- rows of type `R` under the primary key `key` -/
structure Table {K R : Type} (key : R → K) where
  rows : List R
  nodup : (rows.map key).Nodup

namespace Table

section Ops

variable {K R : Type} {key : R → K}

def empty : Table key := ⟨[], List.nodup_nil⟩

/-- rewrite every row; the key is kept -/
def update (t : Table key) (f : R → R) (hf : ∀ r, key (f r) = key r) : Table key where
  rows := t.rows.map f
  nodup := by
    have hkeys : key ∘ f = key := funext hf
    rw [List.map_map, hkeys]
    exact t.nodup

/-- keep the rows that satisfy `p` -/
def filter (t : Table key) (p : R → Bool) : Table key where
  rows := t.rows.filter p
  nodup := t.nodup.sublist (List.filter_sublist.map key)

variable [DecidableEq K]

/-- the row with key `k` -/
def get? (t : Table key) (k : K) : Option R := t.rows.find? (fun r => key r = k)

/-- insert a row; `none` when its key is taken -/
def insert? (t : Table key) (r : R) : Option (Table key) :=
  if h : key r ∈ t.rows.map key then none
  else some
    { rows := t.rows ++ [r]
      nodup := by
        rw [List.map_append]
        refine List.Nodup.append t.nodup (List.nodup_singleton _) ?_
        intro k hk hk'
        rw [List.map_singleton, List.mem_singleton] at hk'
        exact h (hk' ▸ hk) }

variable {t : Table key} {r : R}

variable {k : K} {t' : Table key} {w : R → ℤ}

theorem key_of_get? (h : t.get? k = some r) : key r = k := by
  have := find?_some h
  simpa using this

theorem mem_of_get? (h : t.get? k = some r) : r ∈ t.rows :=
  mem_of_find?_eq_some h

theorem get?_eq_none_iff : t.get? k = none ↔ k ∉ t.rows.map key := by
  simp [get?]

theorem get?_of_mem (h : r ∈ t.rows) : t.get? (key r) = some r := by
  cases hx : t.get? (key r) with
  | none => exact absurd (mem_map_of_mem h) (get?_eq_none_iff.1 hx)
  | some x => rw [inj_on_of_nodup_map t.nodup (mem_of_get? hx) h (key_of_get? hx)]

@[simp] theorem get?_update (t : Table key) (f : R → R) (hf : ∀ r, key (f r) = key r) (k : K) :
    (t.update f hf).get? k = (t.get? k).map f := by
  unfold get? update
  congr 1
  simp [hf]

theorem insert?_eq_some (h : t.insert? r = some t') : t.get? (key r) = none ∧ t'.rows = t.rows ++ [r] := by
  unfold insert? at h
  split_ifs at h with hk
  cases h
  exact ⟨get?_eq_none_iff.2 hk, rfl⟩

theorem insert?_of_free (h : t.get? (key r) = none) : ∃ t', t.insert? r = some t' := by
  rw [get?_eq_none_iff] at h
  unfold insert?
  rw [dif_neg h]
  exact ⟨_, rfl⟩

theorem isSome_of_insert?_none (h : t.insert? r = none) : (t.get? (key r)).isSome = true := by
  rw [Option.isSome_iff_ne_none]
  intro hfree
  obtain ⟨t', ht⟩ := insert?_of_free hfree
  rw [h] at ht
  cases ht

theorem get?_insert (h : t.insert? r = some t') (k : K) : t'.get? k = if key r = k then some r else t.get? k := by
  obtain ⟨hfresh, hrows⟩ := insert?_eq_some h
  unfold get? at hfresh ⊢
  rw [hrows, find?_append]
  split_ifs with hk
  · subst hk; rw [hfresh]; simp
  · rw [find?_singleton, if_neg (by simpa using hk), Option.or_none]

theorem get?_filter (t : Table key) (p : R → Bool) (k : K) : (t.filter p).get? k = (t.get? k).filter p := by
  cases hk : t.get? k with
  | none =>
    rw [Option.filter_none, get?_eq_none_iff]
    rw [get?_eq_none_iff] at hk
    intro hmem
    obtain ⟨r, hr, rfl⟩ := mem_map.1 hmem
    exact hk (mem_map_of_mem (mem_filter.1 hr).1)
  | some r =>
    obtain rfl := key_of_get? hk
    by_cases hp : p r
    · rw [Option.filter_some_pos (by simpa using hp)]
      exact get?_of_mem (mem_filter.2 ⟨mem_of_get? hk, hp⟩)
    · rw [Option.filter_some_neg (by simpa using hp), get?_eq_none_iff]
      intro hmem
      obtain ⟨x, hx, hkey⟩ := mem_map.1 hmem
      obtain ⟨hx, hpx⟩ := mem_filter.1 hx
      have := get?_of_mem hx
      rw [hkey, hk] at this
      obtain rfl := Option.some.inj this
      exact hp hpx

omit [DecidableEq K] in
theorem nodup_filterMap {B : Type} (t : Table key) {f : R → Option B} {g : B → K}
    (h : ∀ r b, f r = some b → g b = key r) : ((t.rows.filterMap f).map g).Nodup := by
  refine t.nodup.sublist ?_
  induction t.rows with
  | nil => exact List.Sublist.refl _
  | cons r rows ih =>
    rw [filterMap_cons, map_cons]
    cases hf : f r with
    | none => exact ih.cons _
    | some b =>
      simp only [map_cons, h r b hf]
      exact ih.cons_cons _

/-- the sum of `w` over the rows: `SELECT SUM(...)`, with the WHERE clause in `w` -/
def sum (t : Table key) (w : R → ℤ) : ℤ := (t.rows.map w).sum

omit [DecidableEq K] in
theorem sum_mono {w' : R → ℤ} (h : ∀ r ∈ t.rows, w r ≤ w' r) : t.sum w ≤ t.sum w' :=
  sum_le_sum h

theorem sum_insert (h : t.insert? r = some t') (w : R → ℤ) : t'.sum w = t.sum w + w r := by
  unfold sum
  rw [(insert?_eq_some h).2, map_append, sum_append, map_singleton, sum_singleton]

omit [DecidableEq K] in
theorem sum_filter_le (t : Table key) (p : R → Bool) (h : ∀ r ∈ t.rows, 0 ≤ w r) : (t.filter p).sum w ≤ t.sum w := by
  unfold sum filter
  have hpart : ∀ {rows : List R}, (∀ r ∈ rows, 0 ≤ w r) → ((rows.filter p).map w).sum ≤ (rows.map w).sum := by
    intro rows
    induction rows with
    | nil => exact fun _ => le_refl _
    | cons r rows ih =>
      intro hrows
      have ih := ih (fun r' hr' => hrows r' (mem_cons_of_mem _ hr'))
      have hr := hrows r mem_cons_self
      rw [filter_cons, map_cons, sum_cons]
      split_ifs
      · rw [map_cons, sum_cons]
        omega
      · omega
  exact hpart h

omit [DecidableEq K] in
theorem sum_update (t : Table key) (f : R → R) (hf : ∀ r, key (f r) = key r) (w : R → ℤ) :
    (t.update f hf).sum w = t.sum (fun r => w (f r)) := by
  unfold sum update
  rw [map_map]
  rfl

theorem sum_change {r₀ : R} (h : t.get? k = some r₀) {v : R → ℤ} (hw : ∀ r ∈ t.rows, key r ≠ k → w r = v r) :
    t.sum w = t.sum v - v r₀ + w r₀ := by
  obtain ⟨before, after, hsplit⟩ := append_of_mem (mem_of_get? h)
  have hnodup := t.nodup
  rw [hsplit, map_append, map_cons] at hnodup
  have hfresh := (nodup_cons.1 (nodup_middle.1 hnodup)).1
  rw [← map_append] at hfresh
  have kept : ∀ {rows : List R}, rows ⊆ before ++ after → rows.map w = rows.map v := by
    intro rows hrows
    refine map_congr_left (fun r hr => hw r ?_ ?_)
    · rw [hsplit]
      rcases mem_append.1 (hrows hr) with hr | hr
      · exact mem_append_left _ hr
      · exact mem_append_right _ (mem_cons_of_mem _ hr)
    · intro hkey
      rw [← key_of_get? h] at hkey
      exact hfresh (hkey ▸ mem_map_of_mem (hrows hr))
  unfold sum
  rw [hsplit]
  simp only [map_append, map_cons, sum_append, sum_cons, kept (subset_append_left _ _), kept (subset_append_right _ _)]
  ring

omit [DecidableEq K] in
theorem sum_indicator (t : Table key) (p : R → Bool) : t.sum (fun r => if p r then 1 else 0) = t.rows.countP p := by
  unfold sum
  induction t.rows with
  | nil => rfl
  | cons r rows ih =>
    rw [map_cons, sum_cons, ih, countP_cons]
    push_cast
    ring

theorem countP_change {r₀ : R} (h : t.get? k = some r₀) {p q : R → Bool} (hpq : ∀ r ∈ t.rows, key r ≠ k → q r = p r) :
    t.rows.countP q + (if p r₀ then 1 else 0) = t.rows.countP p + if q r₀ then 1 else 0 := by
  have hsum := sum_change h (v := fun r => if p r then 1 else 0) (w := fun r => if q r then 1 else 0)
    (fun r hr hkey => by rw [hpq r hr hkey])
  rw [sum_indicator, sum_indicator] at hsum
  split_ifs at hsum ⊢ <;> omega

end Ops

end Table

end Teardrop
