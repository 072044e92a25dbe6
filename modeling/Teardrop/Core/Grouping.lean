/-
Grouping the items of a list under a key, as a loop over a `defaultdict(list)` does: `groups[k].append(a)` for every
pair in order. Groups stand in the order of their first item, the items of a group in the order of the list.
-/
import Mathlib

namespace Teardrop.Grouping

open List

section Groups

variable {K A B : Type} [DecidableEq K]

/-- `groups[k].append(a)` -/
def append (groups : List (K × List A)) (k : K) (a : A) : List (K × List A) :=
  if k ∈ groups.map Prod.fst then groups.map (fun g => if g.1 = k then (k, g.2 ++ [a]) else g)
  else groups ++ [(k, [a])]

/-- the loop -/
def group (l : List (K × A)) : List (K × List A) := l.foldl (fun groups p => append groups p.1 p.2) []

/-- the items under `k`, in order -/
def under (l : List (K × A)) (k : K) : List A := (l.filter (fun p => p.1 = k)).map Prod.snd

theorem mem_under {l : List (K × A)} {k : K} {a : A} : a ∈ under l k ↔ (k, a) ∈ l := by
  unfold under
  rw [mem_map]
  constructor
  · rintro ⟨p, hp, rfl⟩
    obtain ⟨hmem, hk⟩ := mem_filter.1 hp
    obtain rfl := of_decide_eq_true hk
    exact hmem
  · intro h
    exact ⟨(k, a), mem_filter.2 ⟨h, decide_eq_true rfl⟩, rfl⟩

theorem under_of_not_mem {l : List (K × A)} {k : K} (h : k ∉ l.map Prod.fst) : under l k = [] := by
  refine eq_nil_iff_forall_not_mem.2 (fun a ha => h ?_)
  exact mem_map.2 ⟨(k, a), mem_under.1 ha, rfl⟩

variable (l : List (K × A))

theorem under_map (f : A → B) (l : List (K × A)) (k : K) : under (l.map (fun p => (p.1, f p.2))) k = (under l k).map f := by
  unfold under
  rw [filter_map, map_map, map_map]
  rfl

theorem under_snoc (p : K × A) (k : K) : under (l ++ [p]) k = if p.1 = k then under l k ++ [p.2] else under l k := by
  unfold under
  split_ifs with hk <;> simp [hk]

theorem keys_append (groups : List (K × List A)) (k : K) (a : A) : (append groups k a).map Prod.fst =
      if k ∈ groups.map Prod.fst then groups.map Prod.fst else groups.map Prod.fst ++ [k] := by
  unfold append
  split_ifs with hk
  · rw [map_map]
    refine map_congr_left (fun g _ => ?_)
    rw [Function.comp_apply]
    split_ifs with hg
    · exact hg.symm
    · rfl
  · rw [map_append, map_singleton]

theorem group_snoc (p : K × A) : group (l ++ [p]) = append (group l) p.1 p.2 :=
  foldl_append

theorem mem_keys_group (k : K) : k ∈ (group l).map Prod.fst ↔ k ∈ l.map Prod.fst := by
  induction l using reverseRecOn with
  | nil => exact Iff.rfl
  | append_singleton l p ih =>
    rw [group_snoc, keys_append, map_append, mem_append, map_singleton, mem_singleton, ← ih]
    split_ifs with hp
    · exact ⟨Or.inl, fun h => h.elim id (fun hk => hk ▸ hp)⟩
    · rw [mem_append, mem_singleton]

theorem nodup_keys_group : ((group l).map Prod.fst).Nodup := by
  induction l using reverseRecOn with
  | nil => exact nodup_nil
  | append_singleton l p ih =>
    rw [group_snoc, keys_append]
    split_ifs with hp
    · exact ih
    · refine List.Nodup.append ih (nodup_singleton _) (fun k hk hkp => ?_)
      exact hp (mem_singleton.1 hkp ▸ hk)

theorem mem_group : ∀ g ∈ group l, g.2 = under l g.1 := by
  induction l using reverseRecOn with
  | nil => exact fun _ hg => absurd hg not_mem_nil
  | append_singleton l p ih =>
    intro g hg
    rw [group_snoc] at hg
    rw [under_snoc]
    unfold append at hg
    split_ifs at hg with hp
    · obtain ⟨g', hg', rfl⟩ := mem_map.1 hg
      by_cases hk : g'.1 = p.1
      · rw [if_pos hk, if_pos rfl, ih g' hg', hk]
      · rw [if_neg hk, if_neg (Ne.symm hk), ih g' hg']
    · rcases mem_append.1 hg with hg | hg
      · have hne : p.1 ≠ g.1 := fun hk => hp (hk ▸ mem_map_of_mem hg)
        rw [if_neg hne, ih g hg]
      · obtain rfl := mem_singleton.1 hg
        rw [if_pos rfl, under_of_not_mem (fun hk => hp ((mem_keys_group l p.1).2 hk)), nil_append]

theorem parts_perm_filter {keys : List K} (hkeys : keys.Nodup) (l : List (K × A)) :
    (keys.flatMap (under l)).Perm ((l.filter (fun p => p.1 ∈ keys)).map Prod.snd) := by
  induction keys with
  | nil => simp
  | cons k keys ih =>
    rw [nodup_cons] at hkeys
    refine ((ih hkeys.2).append_left _).trans ?_
    unfold under
    rw [← map_append]
    refine List.Perm.map _ ?_
    have hsplit := filter_append_perm (fun p : K × A => decide (p.1 = k)) (l.filter (fun p => p.1 ∈ k :: keys))
    refine List.Perm.trans (List.Perm.of_eq ?_) hsplit
    rw [filter_filter, filter_filter]
    congr 1
    · refine filter_congr (fun p _ => ?_)
      by_cases hp : p.1 = k <;> simp [hp]
    · refine filter_congr (fun p _ => ?_)
      by_cases hp : p.1 = k
      · simp [hp, hkeys.1]
      · simp [hp]

/-- **The parts are the whole.** -/
theorem parts_perm {keys : List K} (hkeys : keys.Nodup) {l : List (K × A)} (h : ∀ p ∈ l, p.1 ∈ keys) :
    (keys.flatMap (under l)).Perm (l.map Prod.snd) := by
  have hall : l.filter (fun p => p.1 ∈ keys) = l := filter_eq_self.2 (fun p hp => decide_eq_true (h p hp))
  have hparts := parts_perm_filter hkeys l
  rwa [hall] at hparts

end Groups

end Teardrop.Grouping
