/-
Lone surrogates in JSON values: `json.loads` reads them from `\ud800` and the like, `json.dumps(…, ensure_ascii=False)`
writes them as they are, and `str.encode("utf-8")` then raises.
-/
import Teardrop.Core.JsonDict

namespace Teardrop.PyJson

/-- a text with a surrogate in it -/
def surrogates (s : PyStr) : Bool := s.any PyChar.isSurrogate

mutual
/-- some string or key has a surrogate -/
def hasSurrogate : PyJson → Bool
  | .str s => surrogates s
  | .arr items => hasSurrogateItems items
  | .obj fields => hasSurrogateFields fields
  | _ => false

def hasSurrogateItems : List PyJson → Bool
  | [] => false
  | v :: vs => hasSurrogate v || hasSurrogateItems vs

def hasSurrogateFields : List (PyStr × PyJson) → Bool
  | [] => false
  | (k, v) :: fields => surrogates k || (hasSurrogate v || hasSurrogateFields fields)
end

@[simp] theorem surrogates_nil : surrogates [] = false := rfl

variable (s : PyStr) (c : PyChar)

@[simp] theorem surrogates_append (t : PyStr) : surrogates (s ++ t) = (surrogates s || surrogates t) := List.any_append

@[simp] theorem surrogates_cons (s : PyStr) : surrogates (c :: s) = (c.isSurrogate || surrogates s) := rfl

@[simp] theorem isSurrogate_ofChar (c : Char) : (PyChar.ofChar c).isSurrogate = false := PyChar.ofChar_not_surrogate c

theorem surrogates_map_ofChar (cs : List Char) : surrogates (cs.map PyChar.ofChar) = false := by
  induction cs with
  | nil => rfl
  | cons c cs ih => rw [List.map_cons, surrogates_cons, isSurrogate_ofChar, ih]; rfl

@[simp] theorem surrogates_ofString (s : String) : surrogates (PyStr.ofString s) = false := surrogates_map_ofChar _

@[simp] theorem surrogates_renderNat (n : ℕ) : surrogates (renderNat n) = false := surrogates_map_ofChar _

@[simp] theorem surrogates_sign (negative : Bool) : surrogates (sign negative) = false := by
  cases negative <;> rfl

theorem surrogates_unicodeEscape (n : ℕ) : surrogates (unicodeEscape n) = false := by
  simp [unicodeEscape, hexDigit]

theorem surrogates_escapeChar : surrogates (escapeChar false c) = c.isSurrogate := by
  unfold escapeChar
  split
  · rename_i p hfind
    have hc : PyChar.ofChar p.1 = c := by simpa using List.find?_some hfind
    simp [← hc]
  · split_ifs with hlow hhigh
    · have hnot : c.isSurrogate = false := by
        simp only [PyChar.isSurrogate, Bool.and_eq_false_iff, decide_eq_false_iff_not]
        omega
      rw [surrogates_unicodeEscape, hnot]
    · simp at hhigh
    · simp at hhigh
    · simp

theorem surrogates_renderStr : surrogates (renderStr false s) = surrogates s := by
  have hflat : surrogates (s.flatMap (escapeChar false)) = surrogates s := by
    induction s with
    | nil => rfl
    | cons c s ih => rw [List.flatMap_cons, surrogates_append, surrogates_escapeChar, ih, surrogates_cons]
  simp [renderStr, hflat]

theorem surrogates_escapeAscii : surrogates (escapeChar true c) = false := by
  have hwritten := escapeChar_written true c
  generalize escapeChar true c = t at hwritten ⊢
  cases hwritten with
  | short p hp hc => simp
  | unit hc hwide => exact surrogates_unicodeEscape c.val
  | pair h l hascii hh hl hjoin => rw [surrogates_append, surrogates_unicodeEscape, surrogates_unicodeEscape]; rfl
  | raw hslash hquote hlow hsmall =>
    have hc := hsmall rfl
    simp only [surrogates_cons, surrogates_nil, Bool.or_false, PyChar.isSurrogate, Bool.and_eq_false_iff,
      decide_eq_false_iff_not]
    omega

theorem surrogates_renderAscii : surrogates (renderStr true s) = false := by
  have hflat : surrogates (s.flatMap (escapeChar true)) = false := by
    induction s with
    | nil => rfl
    | cons c s ih => rw [List.flatMap_cons, surrogates_append, surrogates_escapeAscii, ih]; rfl
  rw [renderStr, surrogates_cons, surrogates_append, hflat]
  simp

theorem surrogates_renderFloat (x : Double) : surrogates (renderFloat x) = false := by
  cases x with
  | nan => exact surrogates_ofString _
  | inf negative => simp [renderFloat]
  | finite negative k =>
    have hexp : ∀ e : Option ℤ, surrogates (e.elim [] renderExponent) = false := by
      intro e
      cases e with
      | none => rfl
      | some e =>
        simp only [Option.elim, renderExponent]
        split_ifs <;> simp
    have hfrac : ∀ f : List Char, surrogates (if f = [] then [] else PyChar.ofChar '.' :: f.map PyChar.ofChar) = false := by
      intro f
      split_ifs
      · rfl
      · simp [surrogates_map_ofChar]
    simp [renderFloat, renderFloatText, surrogates_map_ofChar, hexp, hfrac]

/-- the compact style without escapes for what is not ASCII -/
abbrev raw : Style := ⟨false, true⟩

mutual
theorem surrogates_render : ∀ v, surrogates (render raw v) = hasSurrogate v
  | .null => by simp [render, hasSurrogate]
  | .bool true => by simp [render, hasSurrogate]
  | .bool false => by simp [render, hasSurrogate]
  | .int n => by simp [render, hasSurrogate, renderInt]
  | .float x => by simp [render, hasSurrogate, surrogates_renderFloat]
  | .str s => by simp [render, hasSurrogate, surrogates_renderStr]
  | .arr [] => by simp [render, hasSurrogate, hasSurrogateItems]
  | .arr (v :: vs) => by simp [render, hasSurrogate, hasSurrogateItems, surrogates_render v, surrogates_renderItems vs]
  | .obj [] => by simp [render, hasSurrogate, hasSurrogateFields]
  | .obj ((k, v) :: fields) => by
    simp [render, hasSurrogate, hasSurrogateFields, surrogates_renderStr, surrogates_render v, surrogates_renderFields fields,
      Style.keySep]

theorem surrogates_renderItems : ∀ vs, surrogates (renderItems raw vs) = hasSurrogateItems vs
  | [] => by simp [renderItems, hasSurrogateItems]
  | v :: vs => by
    simp [renderItems, hasSurrogateItems, surrogates_render v, surrogates_renderItems vs, Style.itemSep]

theorem surrogates_renderFields : ∀ fields, surrogates (renderFields raw fields) = hasSurrogateFields fields
  | [] => by simp [renderFields, hasSurrogateFields]
  | (k, v) :: fields => by
    simp [renderFields, hasSurrogateFields, surrogates_renderStr, surrogates_render v, surrogates_renderFields fields,
      Style.itemSep, Style.keySep]
end

theorem hasSurrogateFields_iff (fields : List (PyStr × PyJson)) :
    hasSurrogateFields fields = true ↔ ∃ f ∈ fields, surrogates f.1 = true ∨ hasSurrogate f.2 = true := by
  induction fields with
  | nil => simp [hasSurrogateFields]
  | cons f fields ih => simp [hasSurrogateFields, ih, or_assoc]

mutual
theorem hasSurrogate_canon : ∀ v, hasSurrogate (canon v) = hasSurrogate v
  | .null | .bool _ | .int _ | .float _ | .str _ => by simp [canon]
  | .arr vs => by rw [canon, hasSurrogate, hasSurrogate, hasSurrogate_canonItems vs]
  | .obj fs => by
    have hfields := hasSurrogate_canonFields fs
    rw [Bool.eq_iff_iff, hasSurrogateFields_iff] at hfields
    rw [canon, hasSurrogate, hasSurrogate, Bool.eq_iff_iff, hasSurrogateFields_iff, ← hfields]
    simp only [mem_sorted]

theorem hasSurrogate_canonItems : ∀ vs, hasSurrogateItems (canonItems vs) = hasSurrogateItems vs
  | [] => by rw [canonItems]
  | v :: vs => by
    rw [canonItems, hasSurrogateItems, hasSurrogateItems, hasSurrogate_canon v, hasSurrogate_canonItems vs]

theorem hasSurrogate_canonFields : ∀ fs, hasSurrogateFields (canonFields fs) = hasSurrogateFields fs
  | [] => by rw [canonFields]
  | (k, v) :: fs => by
    rw [canonFields, hasSurrogateFields, hasSurrogateFields, hasSurrogate_canon v, hasSurrogate_canonFields fs]
end

theorem encodeUtf8_isSome : (Utf8.encodeUtf8 s).isSome = !surrogates s := by
  unfold Utf8.encodeUtf8 surrogates
  cases s.any PyChar.isSurrogate <;> rfl

/-- **When a value's text can be encoded.** -/
theorem encodeUtf8_dumpsSorted {limit : ℕ} {v : PyJson} {s : PyStr} (h : dumpsSorted limit v = .ok s) :
    (Utf8.encodeUtf8 s).isSome = !hasSurrogate v := by
  rw [encodeUtf8_isSome, (dumpsSorted_ok h).2.2, surrogates_render, hasSurrogate_canon]

end Teardrop.PyJson
