/-
Python's `dict`: entries in the order in which their keys were first set, with pairwise different keys.

`set` replaces the value of a key in its place, or appends an entry; `popFirst` drops the entry that was set first
(`del d[next(iter(d))]`).
-/
import Mathlib

namespace Teardrop

open List

structure Dict (K V : Type) where
  entries : List (K × V)
  nodup : (entries.map Prod.fst).Nodup

namespace Dict

variable {K V : Type}

def empty : Dict K V := ⟨[], List.nodup_nil⟩

def keys (d : Dict K V) : List K := d.entries.map Prod.fst

def popFirst (d : Dict K V) : Dict K V where
  entries := d.entries.tail
  nodup := d.nodup.sublist ((List.tail_sublist d.entries).map Prod.fst)

variable [DecidableEq K]

def get? (d : Dict K V) (k : K) : Option V := (d.entries.find? (fun e => e.1 = k)).map Prod.snd

def getD (d : Dict K V) (k : K) (v : V) : V := (d.get? k).getD v

/-- the entries with the value of a key set -/
def setEntries (k : K) (v : V) : List (K × V) → List (K × V)
  | [] => [(k, v)]
  | e :: es => if e.1 = k then (k, v) :: es else e :: setEntries k v es

theorem setEntries_keys (k : K) (v : V) (es : List (K × V)) :
    (setEntries k v es).map Prod.fst = if k ∈ es.map Prod.fst then es.map Prod.fst else es.map Prod.fst ++ [k] := by
  induction es with
  | nil => rfl
  | cons e es ih =>
    rw [setEntries]
    by_cases hk : e.1 = k
    · simp [hk]
    · have hne : k ≠ e.1 := Ne.symm hk
      rw [if_neg hk, map_cons, ih, map_cons]
      by_cases hmem : k ∈ es.map Prod.fst
      · rw [if_pos hmem, if_pos (mem_cons_of_mem _ hmem)]
      · rw [if_neg hmem, if_neg (by simpa [hne] using hmem), cons_append]

def set (d : Dict K V) (k : K) (v : V) : Dict K V where
  entries := setEntries k v d.entries
  nodup := by
    rw [setEntries_keys]
    split_ifs with hmem
    · exact d.nodup
    · exact List.Nodup.append d.nodup (List.nodup_singleton k) (by simpa using hmem)

/-- `d.pop(k, None)` -/
def erase (d : Dict K V) (k : K) : Dict K V where
  entries := d.entries.filter (fun e => e.1 ≠ k)
  nodup := d.nodup.sublist (List.filter_sublist.map Prod.fst)

@[simp] theorem get?_empty (k : K) : (empty : Dict K V).get? k = none := rfl

theorem keys_set (d : Dict K V) (k : K) (v : V) : (d.set k v).keys = if k ∈ d.keys then d.keys else d.keys ++ [k] :=
  setEntries_keys k v d.entries

variable {d : Dict K V} {k : K}

theorem mem_keys_set {k' : K} {v : V} : k' ∈ (d.set k v).keys ↔ k' = k ∨ k' ∈ d.keys := by
  rw [keys_set]
  split_ifs with hmem
  · constructor
    · exact .inr
    · intro h
      rcases h with rfl | h
      · exact hmem
      · exact h
  · simp [or_comm]

theorem find_setEntries (k k' : K) (v : V) (es : List (K × V)) :
    ((setEntries k v es).find? (fun e => e.1 = k')).map Prod.snd =
      if k' = k then some v else (es.find? (fun e => e.1 = k')).map Prod.snd := by
  induction es with
  | nil =>
    by_cases hk : k' = k
    · simp [setEntries, hk]
    · simp [setEntries, hk, Ne.symm hk]
  | cons e es ih =>
    rw [setEntries]
    by_cases he : e.1 = k
    · rw [if_pos he]
      by_cases hk : k' = k
      · simp [hk]
      · have hek : ¬ e.1 = k' := fun h => hk (h ▸ he)
        simp [hk, Ne.symm hk, hek]
    · rw [if_neg he]
      by_cases hek : e.1 = k'
      · have hk : ¬ k' = k := fun h => he (hek.trans h)
        simp [hek, hk]
      · simp [hek, ih]

@[simp] theorem get?_set (d : Dict K V) (k k' : K) (v : V) : (d.set k v).get? k' = if k' = k then some v else d.get? k' :=
  find_setEntries k k' v d.entries

@[simp] theorem getD_set (d : Dict K V) (k k' : K) (v w : V) : (d.set k v).getD k' w = if k' = k then v else d.getD k' w := by
  rw [getD, get?_set]
  split_ifs <;> rfl

@[simp] theorem get?_erase (d : Dict K V) (k k' : K) : (d.erase k).get? k' = if k' = k then none else d.get? k' := by
  rw [get?, erase, find?_filter]
  split_ifs with hk
  · have hnone : d.entries.find? (fun e => decide (decide (e.1 ≠ k) ∧ decide (e.1 = k'))) = none := by
      simp [hk]
    rw [hnone]
    rfl
  · have hsame : (fun e : K × V => decide (decide (e.1 ≠ k) ∧ decide (e.1 = k'))) = fun e => decide (e.1 = k') := by
      funext e
      by_cases he : e.1 = k'
      · simp [he, hk]
      · simp [he]
    rw [hsame]
    rfl

theorem get?_isSome_iff : (d.get? k).isSome ↔ k ∈ d.keys := by
  rw [get?, Option.isSome_map, find?_isSome, keys, mem_map]
  constructor
  · intro h
    obtain ⟨e, he, hk⟩ := h
    exact ⟨e, he, of_decide_eq_true hk⟩
  · intro h
    obtain ⟨e, he, hk⟩ := h
    exact ⟨e, he, decide_eq_true hk⟩

theorem get?_eq_none_iff : d.get? k = none ↔ k ∉ d.keys := by
  rw [← get?_isSome_iff, ← Option.not_isSome_iff_eq_none]

theorem get?_eq_some_iff {v : V} : d.get? k = some v ↔ (k, v) ∈ d.entries := by
  rw [get?, Option.map_eq_some_iff]
  constructor
  · intro h
    obtain ⟨e, he, rfl⟩ := h
    have hk : e.1 = k := by simpa using find?_some he
    rw [← hk]
    exact mem_of_find?_eq_some he
  · intro h
    obtain ⟨e, he⟩ := Option.isSome_iff_exists.1 (find?_isSome.2 ⟨(k, v), h, decide_eq_true rfl⟩ :
      (d.entries.find? (fun e => decide (e.1 = k))).isSome)
    have hk : e.1 = k := by simpa using find?_some he
    have hsame := inj_on_of_nodup_map d.nodup (mem_of_find?_eq_some he) h hk
    exact ⟨e, he, by rw [hsame]⟩

theorem mem_set {v : V} {e : K × V} (h : e ∈ (d.set k v).entries) : e = (k, v) ∨ e ∈ d.entries := by
  have hget : (d.set k v).get? e.1 = some e.2 := get?_eq_some_iff.2 h
  rw [get?_set] at hget
  split_ifs at hget with hk
  · left
    rw [← hk, Option.some.inj hget]
  · right
    exact get?_eq_some_iff.1 hget

end Dict

end Teardrop
