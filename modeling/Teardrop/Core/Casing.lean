/-
`str.lower` with its table for the characters above ASCII. The table is the interpreter's; what is used of it is that it
answers something for every character, and neither capitals of ASCII nor blanks for what is not blank.
-/
import Teardrop.Core.PyText

namespace Teardrop

open PyText List

/-- the lower case of the characters above ASCII -/
structure CaseTable where
  wide : Char → List Char
  wide_ne : ∀ c, wide c ≠ []
  wide_blank : ∀ c, ∀ d ∈ wide c, isSpace d → isSpace c
  wide_small : ∀ c, ∀ d ∈ wide c, 128 ≤ c.toNat → ¬ ('A' ≤ d ∧ d ≤ 'Z')

namespace CaseTable

/-- the table of an alphabet without letters above ASCII -/
def plain : CaseTable where
  wide c := [c]
  wide_ne c := List.cons_ne_nil c []
  wide_blank c d hd h := by rw [List.mem_singleton.1 hd] at h; exact h
  wide_small c d hd hc h := by
    rw [List.mem_singleton.1 hd] at h
    have hle : c.toNat ≤ 90 := h.2
    omega

/-- `str.lower()` -/
def lower (t : CaseTable) (s : List Char) : List Char := PyText.lower t.wide s

section Lower

variable (t : CaseTable)

/-- the lower case of one character -/
def lowerChar (c : Char) : List Char := if c.toNat < 128 then [lowerAscii c] else t.wide c

theorem lower_eq (s : List Char) : t.lower s = s.flatMap t.lowerChar := rfl

theorem lowerAscii_small {c : Char} (h : ¬ ('A' ≤ c ∧ c ≤ 'Z')) : lowerAscii c = c := if_neg h

theorem small_lowerAscii (c : Char) : ¬ ('A' ≤ lowerAscii c ∧ lowerAscii c ≤ 'Z') := by
  by_cases h : 'A' ≤ c ∧ c ≤ 'Z'
  · have hval := toNat_lowerAscii h
    have hlow : 65 ≤ c.toNat := h.1
    intro h'
    have hle : (lowerAscii c).toNat ≤ 90 := h'.2
    omega
  · rw [lowerAscii_small h]
    exact h

variable {s : List Char} {d : Char}

theorem small_of_mem_lower (h : d ∈ t.lower s) : ¬ ('A' ≤ d ∧ d ≤ 'Z') := by
  rw [lower_eq] at h
  obtain ⟨c, -, hd⟩ := mem_flatMap.1 h
  unfold lowerChar at hd
  split_ifs at hd with hc
  · rw [mem_singleton] at hd
    subst hd
    exact small_lowerAscii c
  · exact t.wide_small c d hd (by omega)

theorem lower_ascii (h : ∀ c ∈ s, c.toNat < 128) : t.lower s = s.map lowerAscii := by
  rw [lower_eq, ← flatMap_pure_eq_map]
  refine flatMap_congr (fun c hc => ?_)
  rw [lowerChar, if_pos (h c hc)]
  rfl

theorem lower_eq_self (h : ∀ c ∈ s, c.toNat < 128 ∧ ¬ ('A' ≤ c ∧ c ≤ 'Z')) : t.lower s = s := by
  rw [t.lower_ascii (fun c hc => (h c hc).1)]
  calc s.map lowerAscii = s.map id := map_congr_left (fun c hc => lowerAscii_small (h c hc).2)
    _ = s := map_id s

theorem isSpace_range (h : isSpace d) : d.toNat ≤ 32 ∨ 133 ≤ d.toNat := by
  unfold isSpace at h
  rw [Bool.or_eq_true, Bool.or_eq_true] at h
  rcases h with (h | h) | h
  · left
    simp only [isBlank, mem_cons, not_mem_nil, or_false, decide_eq_true_eq] at h
    rcases h with rfl | rfl | rfl | rfl | rfl | rfl <;> decide
  · left
    rw [Bool.and_eq_true, decide_eq_true_eq, decide_eq_true_eq] at h
    omega
  · right
    have hmem : d.toNat ∈ wideSpaces := by simpa using h
    have hall : ∀ n ∈ wideSpaces, 133 ≤ n := by decide
    exact hall _ hmem

theorem not_space (hlow : 33 ≤ d.toNat) (hhigh : d.toNat < 128) : isSpace d = false := by
  rw [← Bool.not_eq_true]
  intro h
  rcases isSpace_range h with h | h <;> omega

theorem lowerAscii_blank {c : Char} (h : isSpace (lowerAscii c)) : isSpace c := by
  by_cases hc : 'A' ≤ c ∧ c ≤ 'Z'
  · have hval := toNat_lowerAscii hc
    have hlow : 65 ≤ c.toNat := hc.1
    have hhigh : c.toNat ≤ 90 := hc.2
    rcases isSpace_range h with h | h <;> omega
  · rwa [lowerAscii_small hc] at h

theorem blank_of_lowerChar {c : Char} (hd : d ∈ t.lowerChar c) (h : isSpace d) : isSpace c := by
  unfold lowerChar at hd
  split_ifs at hd
  · rw [mem_singleton] at hd
    subst hd
    exact lowerAscii_blank h
  · exact t.wide_blank c d hd h

theorem lowerChar_ne (c : Char) : t.lowerChar c ≠ [] := by
  unfold lowerChar
  split_ifs
  · exact cons_ne_nil _ _
  · exact t.wide_ne c

theorem last_strip {c : Char} (h : (strip s).getLast? = some c) : isSpace c = false := by
  rw [strip, getLast?_reverse] at h
  have := head?_dropWhile_not isSpace (s.dropWhile isSpace).reverse
  rw [h] at this
  simpa using this

theorem last_lower_strip (h : (t.lower (strip s)).getLast? = some d) : isSpace d = false := by
  rw [lower_eq] at h
  rcases eq_nil_or_concat (strip s) with hs | ⟨front, c, hs⟩
  · rw [hs] at h
    cases h
  · have hlast : isSpace c = false := last_strip (by rw [hs]; simp)
    rw [hs, concat_eq_append, flatMap_append, flatMap_singleton, getLast?_append_of_ne_nil _ (t.lowerChar_ne c)] at h
    by_contra hd
    rw [Bool.not_eq_false] at hd
    rw [t.blank_of_lowerChar (mem_of_getLast? h) hd] at hlast
    cases hlast

end Lower

theorem strip_eq_self {s : List Char} (hfirst : ∀ c, s.head? = some c → isSpace c = false)
    (hlast : ∀ c, s.getLast? = some c → isSpace c = false) : strip s = s := by
  have hdrop : ∀ {l : List Char}, (∀ c, l.head? = some c → isSpace c = false) → l.dropWhile isSpace = l := by
    intro l hl
    match l with
    | [] => rfl
    | c :: l => rw [dropWhile_cons_of_neg]; simpa using hl c rfl
  rw [strip, hdrop hfirst, hdrop, reverse_reverse]
  intro c hc
  exact hlast c (by rwa [head?_reverse] at hc)

end CaseTable

end Teardrop
