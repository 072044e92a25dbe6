/-
Canonical JSON texts: `json.dumps(value, sort_keys=True, ensure_ascii=True, allow_nan=False)` of values whose strings are
Unicode scalar values. An escaped text joins surrogate pairs when it is read, so without surrogates it is read back as it
was written.
-/
import Teardrop.Core.JsonSurrogates

namespace Teardrop.PyJson

/-! ## Reading scalar values back -/

theorem joinPairs_scalar {s : PyStr} (h : surrogates s = false) : joinPairs s = s := by
  induction s using joinPairs_induction with
  | case1 high low rest hpair ih =>
    simp only [Bool.and_eq_true] at hpair
    obtain ⟨hbounds, hbounds'⟩ := isHigh_bounds hpair.1
    rw [surrogates_cons, Bool.or_eq_false_iff] at h
    have hscalar := h.1
    simp only [PyChar.isSurrogate, Bool.and_eq_false_iff, decide_eq_false_iff_not] at hscalar
    omega
  | case2 high low rest hpair ih =>
    rw [surrogates_cons, Bool.or_eq_false_iff] at h
    rw [joinPairs, if_neg hpair, ih h.2]
  | case3 s hshort =>
    rcases s with _ | ⟨c, _ | ⟨d, rest⟩⟩
    · rfl
    · rfl
    · exact absurd rfl (hshort c d rest)

theorem joinPairs_ofString (s : String) : joinPairs (PyStr.ofString s) = PyStr.ofString s :=
  joinPairs_scalar (surrogates_ofString s)

theorem readsStr_scalar (ascii : Bool) {s : PyStr} (h : surrogates s = false) : readsStr ascii s = s := by
  unfold readsStr
  split_ifs
  · exact joinPairs_scalar h
  · rfl

mutual
theorem reads_scalar (st : Style) : ∀ v, Wf v → hasSurrogate v = false → reads st v = v
  | .null, _, _ => rfl
  | .bool _, _, _ => rfl
  | .int _, _, _ => rfl
  | .float _, _, _ => rfl
  | .str s, _, hs => by rw [reads, readsStr_scalar st.ascii hs]
  | .arr items, h, hs => by
    rw [Wf] at h
    rw [hasSurrogate] at hs
    rw [reads, readsItems_scalar st items h hs]
  | .obj fields, h, hs => by
    rw [Wf] at h
    rw [hasSurrogate] at hs
    rw [reads, readsFields_scalar st fields h.2 hs, dictOf_nodup h.1]

theorem readsItems_scalar (st : Style) : ∀ vs, WfItems vs → hasSurrogateItems vs = false → readsItems st vs = vs
  | [], _, _ => rfl
  | v :: vs, h, hs => by
    rw [WfItems] at h
    rw [hasSurrogateItems, Bool.or_eq_false_iff] at hs
    rw [readsItems, reads_scalar st v h.1 hs.1, readsItems_scalar st vs h.2 hs.2]

theorem readsFields_scalar (st : Style) : ∀ fs, WfFields fs → hasSurrogateFields fs = false → readsFields st fs = fs
  | [], _, _ => rfl
  | (k, v) :: fs, h, hs => by
    rw [WfFields] at h
    rw [hasSurrogateFields, Bool.or_eq_false_iff, Bool.or_eq_false_iff] at hs
    rw [readsFields, readsStr_scalar st.ascii hs.1, reads_scalar st v h.1 hs.2.1, readsFields_scalar st fs h.2 hs.2.2]
end

theorem loads_dumps_scalar {st : Style} {limit : ℕ} {v : PyJson} {s : PyStr} (hwf : Wf v) (hscalar : hasSurrogate v = false)
    (h : dumps st limit v = .ok s) : loads limit s = .ok v := by
  rw [loads_dumps h, reads_scalar st v hwf hscalar]

/-- **Injectivity.** Two values with one sorted text differ only in the order of their keys. -/
theorem render_canon_inj {st : Style} {v w : PyJson} (hv : Wf v) (hw : Wf w) (hsv : hasSurrogate v = false)
    (hsw : hasSurrogate w = false) (h : render st (canon v) = render st (canon w)) : canon v = canon w := by
  have hwritten : ∀ u, Wf u → u.depth ≤ max v.depth w.depth →
      dumps st (max v.depth w.depth) (canon u) = .ok (render st (canon u)) := by
    intro u hu hdepth
    have hfit := intsFit_of_wf (canon u) (wf_canon u hu)
    unfold dumps
    rw [depth_canon, if_neg (not_lt.2 hdepth), if_neg (by simp [hfit])]
  have hread := loads_dumps_scalar (wf_canon v hv) (by rw [hasSurrogate_canon, hsv]) (hwritten v hv (le_max_left _ _))
  have hread' := loads_dumps_scalar (wf_canon w hw) (by rw [hasSurrogate_canon, hsw]) (hwritten w hw (le_max_right _ _))
  rw [h] at hread
  exact Except.ok.inj (hread.symm.trans hread')

/-! ## Finite numbers -/

mutual
/-- no number is NaN or infinite -/
def finite : PyJson → Bool
  | .float (.finite _ _) => true
  | .float _ => false
  | .arr items => finiteItems items
  | .obj fields => finiteFields fields
  | _ => true

def finiteItems : List PyJson → Bool
  | [] => true
  | v :: vs => finite v && finiteItems vs

def finiteFields : List (PyStr × PyJson) → Bool
  | [] => true
  | (_, v) :: fields => finite v && finiteFields fields
end

theorem finiteFields_iff (fields : List (PyStr × PyJson)) :
    finiteFields fields = true ↔ ∀ f ∈ fields, finite f.2 = true := by
  induction fields with
  | nil => simp [finiteFields]
  | cons f fields ih => simp [finiteFields, ih]

mutual
theorem finite_canon : ∀ v, finite (canon v) = finite v
  | .null | .bool _ | .int _ | .float _ | .str _ => by simp [canon]
  | .arr vs => by rw [canon, finite, finite, finite_canonItems vs]
  | .obj fs => by
    have hfields := finite_canonFields fs
    rw [Bool.eq_iff_iff, finiteFields_iff] at hfields
    rw [canon, finite, finite, Bool.eq_iff_iff, finiteFields_iff, ← hfields]
    simp only [mem_sorted]

theorem finite_canonItems : ∀ vs, finiteItems (canonItems vs) = finiteItems vs
  | [] => by rw [canonItems]
  | v :: vs => by rw [canonItems, finiteItems, finiteItems, finite_canon v, finite_canonItems vs]

theorem finite_canonFields : ∀ fs, finiteFields (canonFields fs) = finiteFields fs
  | [] => by rw [canonFields]
  | (k, v) :: fs => by rw [canonFields, finiteFields, finiteFields, finite_canon v, finite_canonFields fs]
end

/-- two values that differ in the order of their keys -/
def SameUpToOrder (v w : PyJson) : Prop := canon v = canon w

end Teardrop.PyJson
