/-
Dicts with one entry for each key, and the sorted texts of their values.
-/
import Teardrop.Core.JsonText

namespace Teardrop.PyJson

open List Prod

/-! ## Dicts with one entry for each key -/

variable {v : PyJson} {fields : List (PyStr × PyJson)} {s : PyStr}

variable {k : PyStr} {pairs : List (PyStr × PyJson)} {rest : PyStr} {P : PyJson → Prop}

theorem insertField_new (h : k ∉ fields.map fst) : insertField k v fields = fields ++ [(k, v)] := by
  induction fields with
  | nil => rfl
  | cons f fields ih =>
    rw [map_cons, mem_cons, not_or] at h
    rw [insertField, if_neg (Ne.symm h.1), ih h.2, cons_append]

theorem dictOf_nodup (h : (pairs.map fst).Nodup) : dictOf pairs = pairs := by
  have hgen : ∀ pairs fields : List (PyStr × PyJson), ((fields ++ pairs).map fst).Nodup →
      pairs.foldl (fun fields p => insertField p.1 p.2 fields) fields = fields ++ pairs := by
    intro pairs
    induction pairs with
    | nil => exact fun fields _ => (append_nil fields).symm
    | cons p pairs ih =>
      intro fields hnodup
      have hnew : p.1 ∉ fields.map fst := by
        rw [map_append, nodup_append] at hnodup
        exact fun hmem => hnodup.2.2 p.1 hmem p.1 (by simp) rfl
      have hassoc : fields ++ [p] ++ pairs = fields ++ p :: pairs := by simp
      rw [foldl_cons, insertField_new hnew, ih _ (by rw [hassoc]; exact hnodup), hassoc]
  exact hgen pairs [] h

mutual
theorem reads_raw {st : Style} (hst : st.ascii = false) : ∀ v, Wf v → reads st v = v
  | .null, _ => rfl
  | .bool _, _ => rfl
  | .int _, _ => rfl
  | .float _, _ => rfl
  | .str s, _ => by rw [reads, readsStr, hst]; rfl
  | .arr items, h => by
    rw [Wf] at h
    rw [reads, readsItems_raw hst items h]
  | .obj fields, h => by
    rw [Wf] at h
    rw [reads, readsFields_raw hst fields h.2, dictOf_nodup h.1]

theorem readsItems_raw {st : Style} (hst : st.ascii = false) : ∀ vs, WfItems vs → readsItems st vs = vs
  | [], _ => rfl
  | v :: vs, h => by
    rw [WfItems] at h
    rw [readsItems, reads_raw hst v h.1, readsItems_raw hst vs h.2]

theorem readsFields_raw {st : Style} (hst : st.ascii = false) : ∀ fs, WfFields fs → readsFields st fs = fs
  | [], _ => rfl
  | (k, v) :: fs, h => by
    rw [WfFields] at h
    rw [readsFields, readsStr, hst, reads_raw hst v h.1, readsFields_raw hst fs h.2]
    rfl
end

mutual
theorem intsFit_of_wf : ∀ v, Wf v → intsFit v
  | .null, _ => rfl
  | .bool _, _ => rfl
  | .int _, h => by rw [Wf] at h; rw [intsFit, decide_eq_true_eq]; exact h
  | .float _, _ => rfl
  | .str _, _ => rfl
  | .arr items, h => by rw [Wf] at h; rw [intsFit, intsFitItems_of_wf items h]
  | .obj fields, h => by rw [Wf] at h; rw [intsFit, intsFitFields_of_wf fields h.2]

theorem intsFitItems_of_wf : ∀ vs, WfItems vs → intsFitItems vs
  | [], _ => rfl
  | v :: vs, h => by
    rw [WfItems] at h
    rw [intsFitItems, intsFit_of_wf v h.1, intsFitItems_of_wf vs h.2]
    rfl

theorem intsFitFields_of_wf : ∀ fs, WfFields fs → intsFitFields fs
  | [], _ => rfl
  | (_, v) :: fs, h => by
    rw [WfFields] at h
    rw [intsFitFields, intsFit_of_wf v h.1, intsFitFields_of_wf fs h.2]
    rfl
end

theorem loads_dumps_raw {st : Style} (hst : st.ascii = false) {limit : ℕ} (hwf : Wf v) (h : dumps st limit v = .ok s) :
    loads limit s = .ok v := by
  rw [loads_dumps h, reads_raw hst v hwf]

/-! ## Sorted keys -/

theorem canonFields_keys (fields : List (PyStr × PyJson)) : (canonFields fields).map fst = fields.map fst := by
  induction fields with
  | nil => rfl
  | cons f fields ih => rw [canonFields, map_cons, ih, map_cons]

theorem wfFields_iff (fields : List (PyStr × PyJson)) : WfFields fields ↔ ∀ f ∈ fields, Wf f.2 := by
  induction fields with
  | nil => simp [WfFields]
  | cons f fields ih => simp [WfFields, ih]

theorem depthFields_le_iff (fields : List (PyStr × PyJson)) (n : ℕ) :
    depthFields fields ≤ n ↔ ∀ f ∈ fields, depth f.2 ≤ n := by
  induction fields with
  | nil => simp [depthFields]
  | cons f fields ih => simp [depthFields, ih]

section Sorting

theorem mem_sorted {f : PyStr × PyJson} : f ∈ fields.insertionSort (fun a b => a.1 ≤ b.1) ↔ f ∈ fields :=
  (perm_insertionSort _ fields).mem_iff

theorem sorted_sorted (fields : List (PyStr × PyJson)) :
    (fields.insertionSort (fun a b => a.1 ≤ b.1)).insertionSort (fun a b => a.1 ≤ b.1) =
      fields.insertionSort (fun a b => a.1 ≤ b.1) := by
  exact (pairwise_insertionSort _ fields).insertionSort_eq

theorem nodup_sorted (h : (fields.map fst).Nodup) : ((fields.insertionSort (fun a b => a.1 ≤ b.1)).map fst).Nodup :=
  ((perm_insertionSort _ fields).map fst).nodup_iff.mpr h

mutual
theorem wf_canon : ∀ v, Wf v → Wf (canon v)
  | .null, _ => by simp [canon, Wf]
  | .bool _, _ => by simp [canon, Wf]
  | .int _, h => by simpa [canon] using h
  | .float _, _ => by simp [canon, Wf]
  | .str _, _ => by simp [canon, Wf]
  | .arr items, h => by
    rw [Wf] at h
    rw [canon, Wf]
    exact wf_canonItems items h
  | .obj fields, h => by
    rw [Wf] at h
    rw [canon, Wf, wfFields_iff]
    refine ⟨nodup_sorted (by rw [canonFields_keys]; exact h.1), fun f hf => ?_⟩
    exact (wfFields_iff _).mp (wf_canonFields fields h.2) f (mem_sorted.1 hf)

theorem wf_canonItems : ∀ vs, WfItems vs → WfItems (canonItems vs)
  | [], _ => by simp [canonItems, WfItems]
  | v :: vs, h => by
    rw [WfItems] at h
    rw [canonItems, WfItems]
    exact ⟨wf_canon v h.1, wf_canonItems vs h.2⟩

theorem wf_canonFields : ∀ fs, WfFields fs → WfFields (canonFields fs)
  | [], _ => by simp [canonFields, WfFields]
  | (_, v) :: fs, h => by
    rw [WfFields] at h
    rw [canonFields, WfFields]
    exact ⟨wf_canon v h.1, wf_canonFields fs h.2⟩
end

mutual
theorem depth_canon : ∀ v, depth (canon v) = depth v
  | .null => by simp [canon]
  | .bool _ => by simp [canon]
  | .int _ => by simp [canon]
  | .float _ => by simp [canon]
  | .str _ => by simp [canon]
  | .arr items => by rw [canon, depth, depth, depth_canonItems items]
  | .obj fields => by
    have hsorted : depthFields ((canonFields fields).insertionSort (fun a b => a.1 ≤ b.1)) = depthFields (canonFields fields) := by
      refine le_antisymm ((depthFields_le_iff _ _).mpr (fun f hf => ?_)) ((depthFields_le_iff _ _).mpr (fun f hf => ?_))
      · exact depth_le_fields (mem_sorted.1 hf)
      · exact depth_le_fields (mem_sorted.2 hf)
    rw [canon, depth, depth, hsorted, depth_canonFields fields]

theorem depth_canonItems : ∀ vs, depthItems (canonItems vs) = depthItems vs
  | [] => rfl
  | v :: vs => by rw [canonItems, depthItems, depthItems, depth_canon v, depth_canonItems vs]

theorem depth_canonFields : ∀ fs, depthFields (canonFields fs) = depthFields fs
  | [] => rfl
  | (_, v) :: fs => by rw [canonFields, depthFields, depthFields, depth_canon v, depth_canonFields fs]
end

theorem canonFields_of_canonical (h : ∀ f ∈ fields, canon f.2 = f.2) : canonFields fields = fields := by
  induction fields with
  | nil => rfl
  | cons f fields ih =>
    rw [canonFields, h f (by simp), ih (fun g hg => h g (by simp [hg]))]

mutual
theorem canon_canon : ∀ v, canon (canon v) = canon v
  | .null => by simp [canon]
  | .bool _ => by simp [canon]
  | .int _ => by simp [canon]
  | .float _ => by simp [canon]
  | .str _ => by simp [canon]
  | .arr items => by rw [canon, canon, canon_canonItems items]
  | .obj fields => by
    have hfixed : canonFields ((canonFields fields).insertionSort (fun a b => a.1 ≤ b.1)) =
        (canonFields fields).insertionSort (fun a b => a.1 ≤ b.1) :=
      canonFields_of_canonical (fun f hf => canon_canonFields fields f (mem_sorted.1 hf))
    rw [canon, canon, hfixed, sorted_sorted]

theorem canon_canonItems : ∀ vs, canonItems (canonItems vs) = canonItems vs
  | [] => rfl
  | v :: vs => by rw [canonItems, canonItems, canon_canon v, canon_canonItems vs]

theorem canon_canonFields : ∀ fs, ∀ f ∈ canonFields fs, canon f.2 = f.2
  | [], f, hf => by simp [canonFields] at hf
  | (k, v) :: fs, f, hf => by
    rw [canonFields, mem_cons] at hf
    rcases hf with rfl | hf
    · exact canon_canon v
    · exact canon_canonFields fs f hf
end

theorem lookup_perm {fs gs : List (PyStr × PyJson)} (h : fs.Perm gs) (hnodup : (fs.map fst).Nodup) (k : PyStr) :
    lookup k fs = lookup k gs := by
  induction h with
  | nil => rfl
  | cons f _ ih =>
    rw [map_cons, nodup_cons] at hnodup
    rw [lookup, lookup, ih hnodup.2]
  | swap f g fs =>
    have hne : g.1 ≠ f.1 := by
      simp only [map_cons, nodup_cons, mem_cons, not_or] at hnodup
      exact hnodup.1.1
    simp only [lookup]
    by_cases hf : f.1 = k
    · rw [if_pos hf, if_neg (fun hg => hne (hg.trans hf.symm)), if_pos hf]
    · rw [if_neg hf, if_neg hf]
  | trans h₁ _ ih₁ ih₂ =>
    exact (ih₁ hnodup).trans (ih₂ ((h₁.map fst).nodup_iff.mp hnodup))

theorem lookup_canonFields (k : PyStr) (fields : List (PyStr × PyJson)) :
    lookup k (canonFields fields) = (lookup k fields).map canon := by
  induction fields with
  | nil => rfl
  | cons f fields ih =>
    rw [canonFields, lookup, lookup, ih]
    split_ifs <;> rfl

theorem get?_canon (h : Wf v) (k : PyStr) : (canon v).get? k = (v.get? k).map canon := by
  cases v with
  | obj fields =>
    have hnodup : ((canonFields fields).map fst).Nodup := by
      rw [canonFields_keys]
      exact h.1
    rw [canon, get?, get?, ← lookup_canonFields]
    exact (lookup_perm (perm_insertionSort _ _).symm hnodup k).symm
  | _ => simp [canon, get?]

end Sorting

/-- `json.dumps(v, sort_keys=True, separators=(",", ":"), ensure_ascii=False)` -/
def dumpsSorted (limit : ℕ) (v : PyJson) : Except JsonError PyStr := dumps ⟨false, true⟩ limit (canon v)

/-- **Injectivity.** Two values with one sorted compact text differ only in the order of their keys. -/
theorem dumpsSorted_inj {limit : ℕ} {w : PyJson} (hv : Wf v) (hw : Wf w) (hs : dumpsSorted limit v = .ok s)
    (ht : dumpsSorted limit w = .ok s) : canon v = canon w := by
  have hv' := loads_dumps_raw rfl (wf_canon v hv) hs
  have hw' := loads_dumps_raw rfl (wf_canon w hw) ht
  exact Except.ok.inj (hv'.symm.trans hw')

theorem wf_get? {w : PyJson} (h : Wf v) (hget : v.get? k = some w) : Wf w := by
  cases v with
  | obj fields =>
    rw [Wf, wfFields_iff] at h
    have hmem : ∀ fs : List (PyStr × PyJson), lookup k fs = some w → ∃ f ∈ fs, f.2 = w := by
      intro fs
      induction fs with
      | nil => simp [lookup]
      | cons f fs ih =>
        intro hlook
        rw [lookup] at hlook
        split_ifs at hlook
        · exact ⟨f, by simp, Option.some.inj hlook⟩
        · obtain ⟨g, hg, hw⟩ := ih hlook
          exact ⟨g, by simp [hg], hw⟩
    obtain ⟨f, hf, rfl⟩ := hmem fields hget
    exact h.2 f hf
  | _ => simp [get?] at hget

theorem intsFitFields_iff (fields : List (PyStr × PyJson)) : intsFitFields fields ↔ ∀ f ∈ fields, intsFit f.2 := by
  induction fields with
  | nil => simp [intsFitFields]
  | cons f fields ih => simp [intsFitFields, ih]

mutual
theorem intsFit_canon : ∀ v, intsFit (canon v) = intsFit v
  | .null | .bool _ | .int _ | .float _ | .str _ => by simp [canon]
  | .arr vs => by rw [canon, intsFit, intsFit, intsFit_canonItems vs]
  | .obj fs => by
    have hfields := intsFit_canonFields fs
    rw [Bool.eq_iff_iff, intsFitFields_iff] at hfields
    rw [canon, intsFit, intsFit, Bool.eq_iff_iff, intsFitFields_iff, ← hfields]
    simp only [mem_sorted]

theorem intsFit_canonItems : ∀ vs, intsFitItems (canonItems vs) = intsFitItems vs
  | [] => by rw [canonItems]
  | v :: vs => by rw [canonItems, intsFitItems, intsFitItems, intsFit_canon v, intsFit_canonItems vs]

theorem intsFit_canonFields : ∀ fs, intsFitFields (canonFields fs) = intsFitFields fs
  | [] => by rw [canonFields]
  | (k, v) :: fs => by rw [canonFields, intsFitFields, intsFitFields, intsFit_canon v, intsFit_canonFields fs]
end

theorem dumpsSorted_ok {limit : ℕ} (h : dumpsSorted limit v = .ok s) :
    depth v ≤ limit ∧ intsFit v ∧ s = render ⟨false, true⟩ (canon v) := by
  rw [dumpsSorted, dumps] at h
  split_ifs at h with hdepth hfit
  rw [depth_canon, not_lt] at hdepth
  rw [intsFit_canon] at hfit
  exact ⟨hdepth, hfit, (Except.ok.inj h).symm⟩

theorem render_obj_head (st : Style) (fields : List (PyStr × PyJson)) : ∃ c rest, (c.isAscii ∧ c ≠ 0) ∧
    render st (.obj fields) = PyChar.ofChar '\x7b' :: c :: (rest : PyStr) := by
  cases fields with
  | nil => exact ⟨PyChar.ofChar '\x7d', [], by decide, by rw [render]⟩
  | cons f fields =>
    refine ⟨PyChar.ofChar '"', ?_, by decide, ?_⟩
    swap
    · rfl

theorem decodeJson_render_obj {st : Style} {bytes : List UInt8}
    (h : Utf8.encodeUtf8 (render st (.obj fields)) = some bytes) :
    Utf8.decodeJson bytes = some (render st (.obj fields)) := by
  have hdecode := Utf8.decodeUtf8_encodeUtf8 h
  obtain ⟨c, rest, ⟨hc, hc0⟩, hhead⟩ := render_obj_head st fields
  have hcnat : c.val < 128 := of_decide_eq_true hc
  have hsplit : bytes = UInt8.ofNat 0x7b :: UInt8.ofNat c.val :: rest.flatMap Utf8.encodeChar := by
    rw [Utf8.encodeUtf8] at h
    split_ifs at h
    rw [← Option.some.inj h, hhead, flatMap_cons, flatMap_cons]
    have hone : Utf8.encodeChar (PyChar.ofChar '\x7b') = [UInt8.ofNat 0x7b] := rfl
    have htwo : Utf8.encodeChar c = [UInt8.ofNat c.val] := by rw [Utf8.encodeChar, if_pos (by omega)]
    rw [hone, htwo]
    rfl
  have hne : UInt8.ofNat c.val ≠ 0 := by
    intro h0
    apply hc0
    have h0' := congrArg UInt8.toNat h0
    rw [UInt8.toNat_ofNat', Nat.mod_eq_of_lt (by omega)] at h0'
    exact Fin.ext h0'
  rw [hsplit] at hdecode ⊢
  rw [Utf8.decodeJson_ascii (by decide) (by rintro _ ⟨⟩; exact hne), hdecode]

theorem loadsBytes_dumpsSorted {limit : ℕ} {bytes : List UInt8} (hwf : Wf (.obj fields))
    (hs : dumpsSorted limit (.obj fields) = .ok s) (hbytes : Utf8.encodeUtf8 s = some bytes) :
    loadsBytes limit bytes = .ok (canon (.obj fields)) := by
  have hloads := loads_dumps_raw rfl (wf_canon _ hwf) hs
  have htext := (dumpsSorted_ok hs).2.2
  rw [canon] at htext
  rw [htext] at hbytes
  rw [loadsBytes, decodeJson_render_obj hbytes, ← htext]
  exact hloads

/-! ## What is read is well formed -/

theorem natOf_lt {ds : List Char} (h : ∀ c ∈ ds, c.isDigit) : natOf ds < 10 ^ ds.length := by
  induction ds with
  | nil => exact Nat.one_pos
  | cons c ds ih =>
    have hc : c.toNat - '0'.toNat < 10 := by
      have hdigit := h c (by simp)
      simp only [Char.isDigit, Bool.and_eq_true, decide_eq_true_eq] at hdigit
      have hle : c.toNat ≤ 57 := hdigit.2
      have h0 : '0'.toNat = 48 := rfl
      omega
    have hrest := ih (fun d hd => h d (by simp [hd]))
    unfold natOf at hrest ⊢
    rw [Nat.ofDigitChars_cons, Nat.mul_zero, Nat.zero_add, Nat.ofDigitChars_eq_ofDigitChars_zero, length_cons, pow_succ]
    calc 10 ^ ds.length * (c.toNat - '0'.toNat) + Nat.ofDigitChars 10 ds 0
        < 10 ^ ds.length * (c.toNat - '0'.toNat) + 10 ^ ds.length := Nat.add_lt_add_left hrest _
      _ = 10 ^ ds.length * (c.toNat - '0'.toNat + 1) := by ring
      _ ≤ 10 ^ ds.length * 10 := Nat.mul_le_mul_left _ (by omega)

theorem scanDigits_digits (s : PyStr) : ∀ c ∈ (scanDigits s).1, c.isDigit := by
  intro c hc
  obtain ⟨d, hd, rfl⟩ := mem_map.mp hc
  have hdigit := all_eq_true.mp all_takeWhile d hd
  simp only [PyChar.isDigit, Bool.and_eq_true, decide_eq_true_eq] at hdigit
  have h0 : '0'.toNat = 48 := rfl
  have h9 : '9'.toNat = 57 := rfl
  have hval : (toChar d).toNat = d.val := PyText.toNat_ofNat_char (Or.inl (by omega))
  simp only [Char.isDigit, Bool.and_eq_true, decide_eq_true_eq]
  have hge : 48 ≤ (toChar d).toNat := by omega
  have hle : (toChar d).toNat ≤ 57 := by omega
  exact ⟨hge, hle⟩

theorem scanWhole_digits {ds : List Char} (h : scanWhole s = some (ds, rest)) : ∀ c ∈ ds, c.isDigit := by
  cases s with
  | nil => cases h
  | cons a s =>
    rw [scanWhole] at h
    split_ifs at h with hzero hdigit
    · cases h
      simp
    · cases h
      exact scanDigits_digits _

/-- what a value that was read satisfies -/
def Sound (limit : ℕ) (v : PyJson) : Prop := Wf v ∧ depth v ≤ limit

theorem scanNumber_sound {negative : Bool} (limit : ℕ) (h : scanNumber negative s = .ok (v, rest)) : Sound limit v := by
  unfold scanNumber at h
  split at h
  · cases h
  · rename_i whole afterWhole hwhole
    have hshort : ¬ maxIntDigits < whole.length → natOf whole < 10 ^ maxIntDigits := fun hlong =>
      lt_of_lt_of_le (natOf_lt (scanWhole_digits hwhole)) (Nat.pow_le_pow_right (by decide) (not_lt.mp hlong))
    simp only at h
    split_ifs at h with hint hlong
    all_goals
      cases h
      refine ⟨?_, by simp [depth]⟩
    · rw [Wf, Int.natAbs_neg, Int.natAbs_natCast]
      exact hshort hlong
    · exact hshort hlong
    · simp [Wf]

theorem words_sound (limit : ℕ) : ∀ w ∈ words, Sound limit w.2 := by
  intro w hw
  simp only [words, mem_cons, not_mem_nil, or_false] at hw
  rcases hw with rfl | rfl | rfl | rfl | rfl | rfl <;> simp [Sound, Wf, depth]

theorem scanScalar_sound (limit : ℕ) (h : scanScalar s = .ok (v, rest)) : Sound limit v := by
  unfold scanScalar at h
  split at h
  · rename_i w hfind
    cases h
    exact words_sound limit w (mem_of_find?_eq_some hfind)
  · split at h
    · split_ifs at h <;> exact scanNumber_sound limit h
    · cases h

theorem except_bind_ok {α β : Type} {x : Except JsonError α} {f : α → Except JsonError β} {b : β}
    (h : (x >>= f) = .ok b) : ∃ a, x = .ok a ∧ f a = .ok b := by
  cases x with
  | error e => cases h
  | ok a => exact ⟨a, rfl, h⟩

section Loops

variable {value : Scan PyJson} {limit : ℕ}

theorem scanItems_sound (hvalue : ∀ s v rest, value s = .ok (v, rest) → Sound limit v) : ∀ fuel s vs rest,
    scanItems value fuel s = .ok (vs, rest) → ∀ v ∈ vs, Sound limit v := by
  intro fuel
  induction fuel with
  | zero => intro s vs rest h; cases h
  | succ fuel ih =>
    intro s vs rest h
    obtain ⟨⟨v, r⟩, hv, h⟩ := except_bind_ok h
    simp only at h
    split at h
    · split_ifs at h
      · cases h
        simpa using hvalue s v r hv
      · obtain ⟨⟨ws, r'⟩, hws, h⟩ := except_bind_ok h
        cases h
        exact forall_mem_cons.mpr ⟨hvalue s v r hv, ih _ ws r' hws⟩
    · cases h

theorem scanFields_sound (hvalue : ∀ s v rest, value s = .ok (v, rest) → Sound limit v) : ∀ fuel s ps rest,
    scanFields value fuel s = .ok (ps, rest) → ∀ p ∈ ps, Sound limit p.2 := by
  have hfield : ∀ s p rest, scanField value s = .ok (p, rest) → Sound limit p.2 := by
    intro s p rest h
    unfold scanField at h
    split at h
    · split_ifs at h
      obtain ⟨⟨k, r⟩, hk, h⟩ := except_bind_ok h
      simp only at h
      split at h
      · split_ifs at h
        obtain ⟨⟨v, r'⟩, hv, h⟩ := except_bind_ok h
        cases h
        exact hvalue _ v _ hv
      · cases h
    · cases h
  intro fuel
  induction fuel with
  | zero => intro s ps rest h; cases h
  | succ fuel ih =>
    intro s ps rest h
    obtain ⟨⟨p, r⟩, hp, h⟩ := except_bind_ok h
    simp only at h
    split at h
    · split_ifs at h
      · cases h
        simpa using hfield s p r hp
      · obtain ⟨⟨qs, r'⟩, hqs, h⟩ := except_bind_ok h
        cases h
        exact forall_mem_cons.mpr ⟨hfield s p r hp, ih _ qs r' hqs⟩
    · cases h

end Loops

theorem insertField_keys (k : PyStr) (v : PyJson) (fields : List (PyStr × PyJson)) :
    ∀ l, l ∈ (insertField k v fields).map fst ↔ l = k ∨ l ∈ fields.map fst := by
  induction fields with
  | nil => simp [insertField]
  | cons f fields ih =>
    rw [insertField]
    split_ifs with hk
    · simp only [map_cons, mem_cons, hk]
      tauto
    · simp only [map_cons, mem_cons, ih]
      tauto

theorem insertField_nodup (h : (fields.map fst).Nodup) : ((insertField k v fields).map fst).Nodup := by
  induction fields with
  | nil => simp [insertField]
  | cons f fields ih =>
    rw [insertField]
    split_ifs with hk
    · exact h
    · rw [map_cons, nodup_cons] at h ⊢
      refine ⟨?_, ih h.2⟩
      rw [insertField_keys]
      rintro (heq | hmem)
      · exact hk heq
      · exact h.1 hmem

theorem insertField_values (hv : P v) (h : ∀ f ∈ fields, P f.2) : ∀ f ∈ insertField k v fields, P f.2 := by
  induction fields with
  | nil => simpa [insertField] using hv
  | cons g fields ih =>
    rw [insertField]
    have hrest := ih (fun f hf => h f (by simp [hf]))
    split_ifs
    · exact forall_mem_cons.mpr ⟨hv, fun f hf => h f (by simp [hf])⟩
    · exact forall_mem_cons.mpr ⟨h g (by simp), hrest⟩

theorem dictOf_spec (h : ∀ p ∈ pairs, P p.2) : ((dictOf pairs).map fst).Nodup ∧ ∀ f ∈ dictOf pairs, P f.2 := by
  have hgen : ∀ pairs fields : List (PyStr × PyJson), (∀ p ∈ pairs, P p.2) → (fields.map fst).Nodup →
      (∀ f ∈ fields, P f.2) →
      ((pairs.foldl (fun fields p => insertField p.1 p.2 fields) fields).map fst).Nodup ∧
        ∀ f ∈ pairs.foldl (fun fields p => insertField p.1 p.2 fields) fields, P f.2 := by
    intro pairs
    induction pairs with
    | nil => exact fun fields _ hnodup hall => ⟨hnodup, hall⟩
    | cons p pairs ih =>
      intro fields hpairs hnodup hall
      exact ih _ (fun q hq => hpairs q (by simp [hq])) (insertField_nodup hnodup)
        (insertField_values (hpairs p (by simp)) hall)
  exact hgen pairs [] h nodup_nil (by simp)

theorem sound_arr {limit : ℕ} {vs : List PyJson} (h : ∀ v ∈ vs, Sound limit v) : Sound (limit + 1) (.arr vs) := by
  have hitems : WfItems vs ∧ depthItems vs ≤ limit := by
    induction vs with
    | nil => simp [WfItems, depthItems]
    | cons v vs ih =>
      have hv := h v (by simp)
      have hvs := ih (fun w hw => h w (by simp [hw]))
      exact ⟨⟨hv.1, hvs.1⟩, max_le hv.2 hvs.2⟩
  exact ⟨hitems.1, Nat.succ_le_succ hitems.2⟩

theorem sound_obj {limit : ℕ} {ps : List (PyStr × PyJson)} (h : ∀ p ∈ ps, Sound limit p.2) :
    Sound (limit + 1) (.obj (dictOf ps)) := by
  obtain ⟨hnodup, hall⟩ := dictOf_spec h
  rw [Sound, Wf, depth, wfFields_iff]
  exact ⟨⟨hnodup, fun f hf => (hall f hf).1⟩, Nat.succ_le_succ ((depthFields_le_iff _ _).mpr (fun f hf => (hall f hf).2))⟩

theorem except_map_ok {ε α β : Type} {x : Except ε α} {f : α → β} {b : β} (h : x.map f = .ok b) :
    ∃ a, x = .ok a ∧ f a = b := by
  cases x with
  | error e => cases h
  | ok a => exact ⟨a, rfl, Except.ok.inj h⟩

theorem scanValue_sound : ∀ limit s v rest, scanValue limit s = .ok (v, rest) → Sound limit v := by
  intro limit
  induction limit with
  | zero =>
    intro s v rest h
    unfold scanValue at h
    split at h
    · cases h
    · split_ifs at h
      · obtain ⟨a, _, ha⟩ := except_map_ok h
        cases ha
        simp [Sound, Wf, depth]
      · exact scanScalar_sound 0 h
  | succ limit ih =>
    intro s v rest h
    unfold scanValue at h
    split at h
    · cases h
    · split_ifs at h
      · obtain ⟨a, _, ha⟩ := except_map_ok h
        cases ha
        simp [Sound, Wf, depth]
      · simp only at h
        split at h
        · split_ifs at h
          · cases h
            exact sound_arr (by simp)
          · obtain ⟨⟨vs, r⟩, hvs, ha⟩ := except_map_ok h
            cases ha
            exact sound_arr (scanItems_sound ih _ _ vs r hvs)
        · cases h
      · simp only at h
        split at h
        · split_ifs at h
          · cases h
            exact @sound_obj limit [] (by simp)
          · obtain ⟨⟨ps, r⟩, hps, ha⟩ := except_map_ok h
            cases ha
            exact sound_obj (scanFields_sound ih _ _ ps r hps)
        · cases h
      · exact scanScalar_sound _ h

/-- **Well formed.** What `json.loads` reads has one entry for each key, no integer too long and no container too deep
to be written again. -/
theorem loads_sound {limit : ℕ} (h : loads limit s = .ok v) : Sound limit v := by
  unfold loads at h
  split at h
  · cases h
  · rename_i w rest hscan
    split_ifs at h
    cases h
    exact scanValue_sound limit _ _ _ hscan

end Teardrop.PyJson
