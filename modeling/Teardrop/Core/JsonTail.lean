/-
What `json.loads` leaves unread: every scanner returns a tail of its text.
-/
import Mathlib
import Teardrop.Core.JsonDict

namespace Teardrop.PyJson

open List

/-! ## Strings and numbers -/

theorem skipBlanks_tail (s : PyStr) : skipBlanks s <:+ s := dropWhile_suffix _

variable {s rest : PyStr}

variable {c : PyChar} {v : PyJson}

theorem hex4_tail (h : hex4 s = some (c, rest)) : rest <:+ s := by
  unfold hex4 at h
  split at h
  · simp only [Option.bind_eq_bind, Option.bind_eq_some_iff] at h
    obtain ⟨_, -, _, -, _, -, _, -, h⟩ := h
    split_ifs at h
    cases h
    exact ⟨[_, _, _, _], rfl⟩
  · cases h

theorem scanEscape_tail (h : scanEscape s = some (c, rest)) : rest <:+ s := by
  unfold scanEscape at h
  split at h
  · cases h
  · rename_i e s'
    split_ifs at h with hu hslash
    · obtain ⟨⟨d, after⟩, hd, h⟩ := Option.bind_eq_some_iff.1 h
      have hafter : after <:+ e :: s' := (hex4_tail hd).trans (suffix_cons e s')
      dsimp only at h
      split_ifs at h with hhigh
      · split at h
        · rename_i b u more
          split_ifs at h
          · obtain ⟨⟨low, after'⟩, hlow, h⟩ := Option.bind_eq_some_iff.1 h
            split_ifs at h
            · cases h
              exact ((hex4_tail hlow).trans ⟨[b, u], rfl⟩).trans hafter
            · cases h
              exact hafter
          · cases h
            exact hafter
        · cases h
          exact hafter
      · cases h
        exact hafter
    · cases h
      exact suffix_cons _ _
    · obtain ⟨p, -, hp⟩ := Option.map_eq_some_iff.1 h
      cases hp
      exact suffix_cons e _

theorem scanChar_tail (h : scanChar s = some (c, rest)) : rest <:+ s := by
  unfold scanChar at h
  split at h
  · cases h
  · split_ifs at h
    · exact (scanEscape_tail h).trans (suffix_cons _ _)
    · cases h
      exact suffix_cons _ _

theorem scanString_tail (fuel : ℕ) : ∀ {s rest t : PyStr}, scanString fuel s = some (t, rest) → rest <:+ s := by
  induction fuel with
  | zero =>
    intro s rest t h
    cases h
  | succ fuel ih =>
    intro s rest t h
    match s with
    | [] => cases h
    | c :: s' =>
      rw [scanString] at h
      split_ifs at h
      · cases h
        exact suffix_cons c _
      · obtain ⟨⟨d, after⟩, hd, h⟩ := Option.bind_eq_some_iff.1 h
        obtain ⟨⟨u, after'⟩, hu, h⟩ := Option.bind_eq_some_iff.1 h
        cases h
        exact (ih hu).trans (scanChar_tail hd)

theorem scanStr_tail {t : PyStr} (h : scanStr s = .ok (t, rest)) : rest <:+ s := by
  unfold scanStr at h
  split at h
  · rename_i r hr
    cases h
    exact scanString_tail _ hr
  · cases h

theorem scanDigits_tail (s : PyStr) : (scanDigits s).2 <:+ s := dropWhile_suffix _

theorem scanWhole_tail {ds : List Char} (h : scanWhole s = some (ds, rest)) : rest <:+ s := by
  unfold scanWhole at h
  split at h
  · cases h
  · rename_i c s'
    split_ifs at h
    · cases h
      exact suffix_cons c _
    · cases h
      exact dropWhile_suffix _

theorem scanFrac_tail (s : PyStr) : (scanFrac s).2 <:+ s := by
  unfold scanFrac
  split
  · rename_i p d rest
    split_ifs
    · exact (scanDigits_tail _).trans (suffix_cons p _)
    · exact suffix_rfl
  · exact suffix_rfl

theorem scanExponentDigits_tail {negative : Bool} {x : ℤ} (h : scanExponentDigits negative s = some (x, rest)) :
    rest <:+ s := by
  unfold scanExponentDigits at h
  split at h
  · rename_i d s'
    by_cases hd : d.isDigit = true
    · rw [if_pos hd] at h
      cases h
      exact dropWhile_suffix _
    · rw [if_neg hd] at h
      cases h
  · cases h

theorem scanExponent_tail (s : PyStr) : (scanExponent s).2 <:+ s := by
  unfold scanExponent
  split
  · rename_i e sgn rest
    by_cases he : e = PyChar.ofChar 'e' ∨ e = PyChar.ofChar 'E'
    · rw [if_pos he]
      dsimp only
      split
      · rename_i x after hfound
        apply List.IsSuffix.trans _ (suffix_cons e _)
        split_ifs at hfound
        · exact (scanExponentDigits_tail hfound).trans (suffix_cons sgn _)
        · exact (scanExponentDigits_tail hfound).trans (suffix_cons sgn _)
        · exact scanExponentDigits_tail hfound
      · exact suffix_rfl
    · rw [if_neg he]
  · exact suffix_rfl

theorem scanNumber_tail {negative : Bool} (h : scanNumber negative s = .ok (v, rest)) : rest <:+ s := by
  unfold scanNumber at h
  split at h
  · cases h
  · rename_i whole afterWhole hwhole
    have hrest : (scanExponent (scanFrac afterWhole).2).2 <:+ s :=
      ((scanExponent_tail _).trans (scanFrac_tail _)).trans (scanWhole_tail hwhole)
    dsimp only at h
    split_ifs at h
    all_goals
      cases h
      exact hrest

theorem scanScalar_tail (h : scanScalar s = .ok (v, rest)) : rest <:+ s := by
  unfold scanScalar at h
  split at h
  · cases h
    exact drop_suffix _ _
  · split at h
    · split_ifs at h
      · exact (scanNumber_tail h).trans (suffix_cons _ _)
      · exact scanNumber_tail h
    · cases h

/-! ## Containers -/

section Loops

variable {value : Scan PyJson}

theorem scanItems_tail (hvalue : ∀ s v rest, value s = .ok (v, rest) → rest <:+ s) (fuel : ℕ) :
    ∀ s vs rest, scanItems value fuel s = .ok (vs, rest) → rest <:+ s := by
  induction fuel with
  | zero =>
    intro s vs rest h
    cases h
  | succ fuel ih =>
    intro s vs rest h
    obtain ⟨⟨v, r⟩, hv, h⟩ := except_bind_ok h
    dsimp only at h
    split at h
    · rename_i c after hafter
      have htail : c :: after <:+ s := hafter ▸ (skipBlanks_tail r).trans (hvalue s v r hv)
      split_ifs at h
      · cases h
        exact (suffix_cons c _).trans htail
      · obtain ⟨⟨ws, r'⟩, hws, h⟩ := except_bind_ok h
        cases h
        exact (((ih _ ws r' hws).trans (skipBlanks_tail _)).trans (suffix_cons c _)).trans htail
    · cases h

theorem scanField_tail (hvalue : ∀ s v rest, value s = .ok (v, rest) → rest <:+ s) {p : PyStr × PyJson}
    (h : scanField value s = .ok (p, rest)) : rest <:+ s := by
  unfold scanField at h
  split at h
  · rename_i q s'
    split_ifs at h
    obtain ⟨⟨k, r⟩, hk, h⟩ := except_bind_ok h
    dsimp only at h
    split at h
    · rename_i c after hafter
      have htail : c :: after <:+ q :: s' :=
        hafter ▸ ((skipBlanks_tail r).trans (scanStr_tail hk)).trans (suffix_cons q s')
      split_ifs at h
      obtain ⟨⟨v, r'⟩, hv, h⟩ := except_bind_ok h
      cases h
      exact (((hvalue _ v _ hv).trans (skipBlanks_tail _)).trans (suffix_cons c _)).trans htail
    · cases h
  · cases h

theorem scanFields_tail (hvalue : ∀ s v rest, value s = .ok (v, rest) → rest <:+ s) (fuel : ℕ) :
    ∀ s ps rest, scanFields value fuel s = .ok (ps, rest) → PyChar.ofChar '\x7d' :: rest <:+ s := by
  induction fuel with
  | zero =>
    intro s ps rest h
    cases h
  | succ fuel ih =>
    intro s ps rest h
    obtain ⟨⟨p, r⟩, hp, h⟩ := except_bind_ok h
    dsimp only at h
    split at h
    · rename_i c after hafter
      have htail : c :: after <:+ s := hafter ▸ (skipBlanks_tail r).trans (scanField_tail hvalue hp)
      split_ifs at h with hbrace
      · cases h
        exact hbrace ▸ htail
      · obtain ⟨⟨qs, r'⟩, hqs, h⟩ := except_bind_ok h
        cases h
        exact (((ih _ qs r' hqs).trans (skipBlanks_tail _)).trans (suffix_cons c _)).trans htail
    · cases h

end Loops

theorem scanValue_tail (limit : ℕ) : ∀ s v rest, scanValue limit s = .ok (v, rest) →
    rest <:+ s ∧ (v.isDict = true → PyChar.ofChar '\x7d' :: rest <:+ s) := by
  have hscalar : ∀ s v rest, scanScalar s = .ok (v, rest) →
      rest <:+ s ∧ (v.isDict = true → PyChar.ofChar '\x7d' :: rest <:+ s) := by
    intro s v rest h
    refine ⟨scanScalar_tail h, fun hdict => ?_⟩
    have hdepth := (scanScalar_sound 0 h).2
    cases v <;> simp [isDict, depth] at hdict hdepth
  induction limit with
  | zero =>
    intro s v rest h
    unfold scanValue at h
    split at h
    · cases h
    · split_ifs at h
      · obtain ⟨⟨t, r⟩, hstr, ha⟩ := except_map_ok h
        cases ha
        exact ⟨(scanStr_tail hstr).trans (suffix_cons _ _), fun h => by cases h⟩
      · exact hscalar _ _ _ h
  | succ limit ih =>
    have hvalue : ∀ s v rest, scanValue limit s = .ok (v, rest) → rest <:+ s := fun s v rest h => (ih s v rest h).1
    intro s v rest h
    unfold scanValue at h
    split at h
    · cases h
    · rename_i c s'
      split_ifs at h
      · obtain ⟨⟨t, r⟩, hstr, ha⟩ := except_map_ok h
        cases ha
        exact ⟨(scanStr_tail hstr).trans (suffix_cons _ _), fun h => by cases h⟩
      · dsimp only at h
        split at h
        · rename_i d more hmore
          have htail : d :: more <:+ c :: s' := hmore ▸ (skipBlanks_tail _).trans (suffix_cons c s')
          split_ifs at h
          · cases h
            exact ⟨(suffix_cons d _).trans htail, fun h => by cases h⟩
          · obtain ⟨⟨vs, r⟩, hvs, ha⟩ := except_map_ok h
            cases ha
            exact ⟨(scanItems_tail hvalue _ _ vs r hvs).trans htail, fun h => by cases h⟩
        · cases h
      · dsimp only at h
        split at h
        · rename_i d more hmore
          have htail : d :: more <:+ c :: s' := hmore ▸ (skipBlanks_tail _).trans (suffix_cons c s')
          split_ifs at h with hbrace
          · cases h
            exact ⟨(suffix_cons d _).trans htail, fun _ => hbrace ▸ htail⟩
          · obtain ⟨⟨ps, r⟩, hps, ha⟩ := except_map_ok h
            cases ha
            have hclose := (scanFields_tail hvalue _ _ ps r hps).trans htail
            exact ⟨(suffix_cons _ _).trans hclose, fun _ => hclose⟩
        · cases h
      · exact hscalar _ _ _ h

/-- **Where an object ends.** A text that reads as an object ends in a closing brace, with only blanks after it. -/
theorem loads_obj_ends {limit : ℕ} (h : loads limit s = .ok v) (hdict : v.isDict = true) :
    ∃ rest, PyChar.ofChar '\x7d' :: rest <:+ s ∧ ∀ c ∈ rest, isBlank c = true := by
  unfold loads at h
  split at h
  · cases h
  · rename_i w rest hscan
    split_ifs at h with hblank
    cases h
    refine ⟨rest, ((scanValue_tail limit _ _ _ hscan).2 hdict).trans (skipBlanks_tail s), ?_⟩
    exact dropWhile_eq_nil_iff.1 hblank

end Teardrop.PyJson
