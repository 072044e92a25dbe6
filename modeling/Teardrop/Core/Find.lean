/-
The first occurrence of a pattern in a list (`str.find`), read through a function on the items: a list of characters with
tags is searched by its characters.
-/
import Mathlib

namespace Teardrop.Find

open List

variable {α β : Type} (view : α → β) (pattern : List β)

/-- the pattern stands at the start of a list -/
def Starts (s : List α) : Prop := pattern <+: s.map view

variable {view pattern}

variable {s : List α}

theorem Starts.length_le (h : Starts view pattern s) : pattern.length ≤ s.length := by
  have hle := List.IsPrefix.length_le h
  rwa [length_map] at hle

theorem Starts.append (h : Starts view pattern s) (t : List α) : Starts view pattern (s ++ t) := by
  rw [Starts, map_append]
  exact h.trans (prefix_append _ _)

theorem Starts.of_append {t : List α} (h : Starts view pattern (s ++ t)) (hle : pattern.length ≤ s.length) :
    Starts view pattern s := by
  rw [Starts, map_append] at h
  apply prefix_of_prefix_length_le h (prefix_append _ _)
  rwa [length_map]

/-- of an occurrence that reaches into the text behind it, the end stands at the start of that text -/
theorem starts_suffix {first : List α} (h : Starts view pattern (first ++ s)) (hle : first.length ≤ pattern.length) :
    pattern.drop first.length <+: s.map view := by
  obtain ⟨rest, hrest⟩ := h
  have hdrop := congrArg (drop first.length) hrest
  rw [drop_append_of_le_length hle, map_append, ← length_map (f := view), drop_append_length] at hdrop
  exact ⟨rest, by rwa [length_map] at hdrop⟩

theorem starts_take {first : List α} (h : Starts view pattern (first ++ s)) (hle : first.length ≤ pattern.length) :
    first.map view = pattern.take first.length := by
  obtain ⟨rest, hrest⟩ := h
  have htake := congrArg (take first.length) hrest
  rw [take_append_of_le_length hle, map_append, ← length_map (f := view), take_left] at htake
  rw [← htake, length_map]

theorem not_starts_of_append {t : List α} {i : ℕ} (hi : i + pattern.length ≤ s.length)
    (h : ¬ Starts view pattern (s.drop i)) : ¬ Starts view pattern ((s ++ t).drop i) := by
  intro hstarts
  rw [drop_append_of_le_length (by omega)] at hstarts
  exact h (hstarts.of_append (by rw [length_drop]; omega))

section

variable [DecidableEq β] (view pattern)

instance (s : List α) : Decidable (Starts view pattern s) := inferInstanceAs (Decidable (pattern <+: s.map view))

/-- the index of the first occurrence -/
def find : List α → Option ℕ
  | [] => if Starts view pattern [] then some 0 else none
  | c :: s => if Starts view pattern (c :: s) then some 0 else (find s).map (· + 1)

end

variable [DecidableEq β]

theorem find_eq_some_iff {i : ℕ} : find view pattern s = some i ↔
      i ≤ s.length ∧ Starts view pattern (s.drop i) ∧ ∀ j < i, ¬ Starts view pattern (s.drop j) := by
  induction s generalizing i with
  | nil =>
    rw [find]
    split_ifs with h
    · constructor
      · intro hi
        cases hi
        exact ⟨le_refl 0, h, fun j hj => absurd hj (Nat.not_lt_zero j)⟩
      · intro hi
        have hzero : i = 0 := by simpa using hi.1
        rw [hzero]
    · simp [h]
  | cons c s ih =>
    rw [find]
    split_ifs with h
    · constructor
      · intro hi
        cases hi
        exact ⟨Nat.zero_le _, h, fun j hj => absurd hj (Nat.not_lt_zero j)⟩
      · intro hi
        cases i with
        | zero => rfl
        | succ i => exact absurd h (hi.2.2 0 (Nat.succ_pos i))
    · cases i with
      | zero => simp [h]
      | succ i =>
        rw [Option.map_eq_some_iff]
        simp only [Nat.add_right_cancel_iff, exists_eq_right, ih, length_cons, Nat.add_le_add_iff_right, drop_succ_cons]
        constructor
        · intro hi
          refine ⟨hi.1, hi.2.1, ?_⟩
          intro j hj
          cases j with
          | zero => exact h
          | succ j => exact hi.2.2 j (Nat.lt_of_succ_lt_succ hj)
        · intro hi
          exact ⟨hi.1, hi.2.1, fun j hj => hi.2.2 (j + 1) (Nat.succ_lt_succ hj)⟩

theorem find_eq_none_iff : find view pattern s = none ↔ ∀ i ≤ s.length, ¬ Starts view pattern (s.drop i) := by
  constructor
  · intro hnone i hi hstarts
    -- of the occurrences the least one would be found
    have hex : ∃ i, i ≤ s.length ∧ Starts view pattern (s.drop i) := ⟨i, hi, hstarts⟩
    have hfound : find view pattern s = some (Nat.find hex) :=
      find_eq_some_iff.2 ⟨(Nat.find_spec hex).1, (Nat.find_spec hex).2, fun j hj hstarts' =>
        Nat.find_min hex hj ⟨hj.le.trans (Nat.find_spec hex).1, hstarts'⟩⟩
    rw [hnone] at hfound
    cases hfound
  · intro h
    cases hfind : find view pattern s with
    | none => rfl
    | some i =>
      have hi := find_eq_some_iff.1 hfind
      exact absurd hi.2.1 (h i hi.1)

theorem find_le {i : ℕ} (h : find view pattern s = some i) : i + pattern.length ≤ s.length := by
  have hi := find_eq_some_iff.1 h
  have hle := hi.2.1.length_le
  rw [length_drop] at hle
  omega

theorem find_append {i : ℕ} (h : find view pattern s = some i) (t : List α) : find view pattern (s ++ t) = some i := by
  have hle := find_le h
  have hi := find_eq_some_iff.1 h
  refine find_eq_some_iff.2 ⟨by rw [length_append]; omega, ?_, ?_⟩
  · rw [drop_append_of_le_length hi.1]
    exact hi.2.1.append t
  · intro j hj
    exact not_starts_of_append (by omega) (hi.2.2 j hj)

theorem find_append_left (t : List α) (h : ∀ i < s.length, ¬ Starts view pattern (s.drop i ++ t)) :
    find view pattern (s ++ t) = (find view pattern t).map (· + s.length) := by
  induction s with
  | nil =>
    rw [nil_append]
    cases find view pattern t <;> rfl
  | cons c s ih =>
    have hhead : ¬ Starts view pattern (c :: (s ++ t)) := h 0 (Nat.succ_pos _)
    rw [cons_append, find, if_neg hhead, ih (fun i hi => h (i + 1) (Nat.succ_lt_succ hi))]
    cases find view pattern t <;> rfl

/-- a list without an occurrence holds none that starts before the last characters of the pattern -/
theorem find_append_of_none {t : List α} (hnone : find view pattern (s ++ t) = none) (hn : pattern.length ≤ t.length + 1)
    (rest : List α) : find view pattern (s ++ (t ++ rest)) = (find view pattern (t ++ rest)).map (· + s.length) := by
  apply find_append_left
  intro i hi hstarts
  have habsent := find_eq_none_iff.1 hnone i (by rw [length_append]; omega)
  rw [drop_append_of_le_length hi.le] at habsent
  rw [← append_assoc] at hstarts
  exact habsent (hstarts.of_append (by rw [length_append, length_drop]; omega))

end Teardrop.Find
