/-
Exclusive locks held by a list of sessions: `lock s` is the key session `s` holds, if any, and `Exclusive` says that no
key is held twice. A session that takes a statement is replaced in place, one that ends is removed.
-/
import Mathlib

namespace Teardrop.Locks

open List

section Sessions

variable {S K : Type} (lock : S → Option K)

/-- the keys held -/
def held (sessions : List S) : List K := sessions.filterMap lock

def Exclusive (sessions : List S) : Prop := (held lock sessions).Nodup

variable {lock} {sessions : List S} {i : ℕ} {a : S}

theorem split_at (h : sessions[i]? = some a) : ∃ before after, sessions = before ++ a :: after ∧ before.length = i := by
  obtain ⟨hi, rfl⟩ := List.getElem?_eq_some_iff.1 h
  exact ⟨sessions.take i, sessions.drop (i + 1), by simp, by simp; omega⟩

theorem mem_held {k : K} {b : S} (hb : b ∈ sessions) (hk : lock b = some k) : k ∈ held lock sessions :=
  mem_filterMap.2 ⟨b, hb, hk⟩

theorem Exclusive.nil : Exclusive lock ([] : List S) := nodup_nil

theorem Exclusive.erase (h : Exclusive lock sessions) (i : ℕ) : Exclusive lock (sessions.eraseIdx i) :=
  h.sublist ((eraseIdx_sublist sessions i).filterMap lock)

theorem Exclusive.snoc (h : Exclusive lock sessions) (ha : lock a = none) : Exclusive lock (sessions ++ [a]) := by
  simpa [Exclusive, held, ha] using h

theorem Exclusive.join (h : Exclusive lock sessions) {k : K} (ha : lock a = some k) (hfree : k ∉ held lock sessions) :
    Exclusive lock (sessions ++ [a]) := by
  simp only [Exclusive, held, filterMap_append, filterMap_cons, ha, filterMap_nil] at h hfree ⊢
  exact nodup_append.2 ⟨h, nodup_singleton k, fun x hx y hy hxy => hfree (by
    rw [mem_singleton.1 hy] at hxy
    exact hxy ▸ hx)⟩

theorem mem_set (hi : sessions[i]? = some a) {b c : S} (hc : c ∈ sessions.set i b) : c = b ∨ c ∈ sessions.eraseIdx i := by
  obtain ⟨before, after, rfl, rfl⟩ := split_at hi
  simpa [eraseIdx_append_of_length_le, or_left_comm] using hc

theorem getElem?_snoc_cases {j : ℕ} {b c : S} (h : (sessions ++ [b])[j]? = some c) : sessions[j]? = some c ∨ c = b := by
  rw [getElem?_append] at h
  split_ifs at h with hlt
  · exact .inl h
  · exact .inr (mem_singleton.1 (mem_of_getElem? h))

theorem getElem?_set_cases {j : ℕ} {b c : S} (h : (sessions.set i b)[j]? = some c) :
    (j = i ∧ c = b) ∨ (j ≠ i ∧ sessions[j]? = some c) := by
  by_cases hij : j = i
  · subst hij
    rw [getElem?_set_self'] at h
    obtain ⟨old, -, rfl⟩ := Option.map_eq_some_iff.1 h
    exact .inl ⟨rfl, rfl⟩
  · rw [getElem?_set_ne (Ne.symm hij)] at h
    exact .inr ⟨hij, h⟩

theorem set_self (hi : sessions[i]? = some a) : sessions.set i a = sessions := by
  obtain ⟨hlt, rfl⟩ := List.getElem?_eq_some_iff.1 hi
  exact set_getElem_self hlt

theorem mem_set_of_ne (hi : sessions[i]? = some a) {b c : S} (hc : c ∈ sessions) (hne : c ≠ a) : c ∈ sessions.set i b := by
  obtain ⟨j, hj⟩ := mem_iff_getElem?.1 hc
  have hij : i ≠ j := by
    rintro rfl
    rw [hi] at hj
    cases hj
    exact hne rfl
  refine mem_iff_getElem?.2 ⟨j, ?_⟩
  rw [getElem?_set_ne hij]
  exact hj

theorem countP_set_add (hi : sessions[i]? = some a) (p : S → Bool) (b : S) :
    (sessions.set i b).countP p + (if p a then 1 else 0) = sessions.countP p + if p b then 1 else 0 := by
  obtain ⟨before, after, rfl, rfl⟩ := split_at hi
  rw [set_append_right _ _ (le_refl _), Nat.sub_self, set_cons_zero]
  simp only [countP_append, countP_cons]
  omega

theorem Exclusive.keep (h : Exclusive lock sessions) (hi : sessions[i]? = some a) {b : S} (hb : lock b = lock a) :
    Exclusive lock (sessions.set i b) := by
  obtain ⟨before, after, rfl, rfl⟩ := split_at hi
  simpa [Exclusive, held, filterMap_cons, hb] using h

theorem Exclusive.release (h : Exclusive lock sessions) (hi : sessions[i]? = some a) {b : S} (hb : lock b = none) :
    Exclusive lock (sessions.set i b) := by
  have hleft := h.erase i
  obtain ⟨before, after, rfl, rfl⟩ := split_at hi
  simpa [Exclusive, held, eraseIdx_append_of_length_le, hb] using hleft

theorem Exclusive.acquire (h : Exclusive lock sessions) (hi : sessions[i]? = some a) (ha : lock a = none) {b : S} {k : K}
    (hb : lock b = some k) (hfree : k ∉ held lock sessions) : Exclusive lock (sessions.set i b) := by
  obtain ⟨before, after, rfl, rfl⟩ := split_at hi
  simp only [Exclusive, held, filterMap_append, filterMap_cons, ha] at h hfree ⊢
  simp only [set_append_right _ _ (le_refl _), Nat.sub_self, set_cons_zero, filterMap_append, filterMap_cons, hb]
  exact nodup_middle.2 (nodup_cons.2 ⟨hfree, h⟩)

/-- **Only one holder.** When the holder of a key is taken out, nobody left holds it. -/
theorem Exclusive.apart (h : Exclusive lock sessions) (hi : sessions[i]? = some a) {k : K} (ha : lock a = some k) :
    ∀ b ∈ sessions.eraseIdx i, lock b ≠ some k := by
  obtain ⟨before, after, rfl, rfl⟩ := split_at hi
  intro b hb hk
  simp only [Exclusive, held, filterMap_append, filterMap_cons, ha] at h
  have hnot := (nodup_cons.1 (nodup_middle.1 h)).1
  rw [← filterMap_append] at hnot
  have hb : b ∈ before ++ after := by simpa [eraseIdx_append_of_length_le] using hb
  exact hnot (mem_filterMap.2 ⟨b, hb, hk⟩)

end Sessions

end Teardrop.Locks
