/-
Contract objects in agent answers (`normalize_output` of `agent/output_contracts.py`, `extract_first_json_object` of
`shared/json_output.py`).

The validator of a contract is any test of values, and the recursion left for reading and for writing are parameters. An error of
`json` other than `JSONDecodeError` leaves both functions.
-/
import Teardrop.Core.JsonDict

namespace Teardrop.Contracts

open PyJson List

/-! ## Model -/

/-- the search from a place of the text on: the value, and where it starts and ends -/
def extractFrom (limit : ℕ) : ℕ → PyStr → Except JsonError (Option (PyJson × ℕ × ℕ))
  | _, [] => .ok none
  | start, c :: rest =>
    if c = PyChar.ofChar '\x7b' then
      match scanValue limit (c :: rest) with
      | .ok (payload, after) =>
        if payload.isDict then .ok (some (payload, start, start + ((c :: rest).length - after.length)))
        else extractFrom limit (start + 1) rest
      | .error .decode => extractFrom limit (start + 1) rest
      | .error e => .error e
    else extractFrom limit (start + 1) rest

def extractFirstJsonObject (limit : ℕ) (text : PyStr) : Except JsonError (Option (PyJson × ℕ × ℕ)) := extractFrom limit 0 text

/-- `separators=(",", ":"), ensure_ascii=True` -/
def canonicalStyle : Style := ⟨true, true⟩

def separator : PyStr := "---"

def newline : PyStr := ['\n']

/-- what stands between the object and the text after it -/
def joint (suffix : PyStr) : PyStr :=
  if suffix = [] then [] else if separator.isPrefixOf suffix then newline else newline ++ separator ++ newline

def normalizeOutput (limit dumpLimit : ℕ) (validate : PyJson → Bool) (text : PyStr) : Except JsonError (Option PyStr) := do
  match ← extractFirstJsonObject limit text with
  | none => .ok none
  | some (payload, _, stop) =>
    if validate payload then
      let canonical ← dumps canonicalStyle dumpLimit payload
      let suffix := PyStr.strip (text.drop stop)
      .ok (some (canonical ++ (joint suffix ++ suffix)))
    else .ok none

/-- `r` says what `text` said: the same object, first, and the same trimmed text after it -/
structure Kept (limit dumpLimit : ℕ) (validate : PyJson → Bool) (text r : PyStr) (payload : PyJson) (stop : ℕ) : Prop where
  idempotent : normalizeOutput limit dumpLimit validate r = .ok (some r)
  object : ∃ stop', extractFirstJsonObject limit r = .ok (some (payload, 0, stop')) ∧
    r.drop stop' = joint (PyStr.strip (text.drop stop)) ++ PyStr.strip (text.drop stop)

/-! ## Strings that ASCII texts keep -/

/-- no high surrogate stands before a low one -/
def unpaired : PyStr → Bool
  | h :: l :: rest => !(isHigh h && isLow l) && unpaired (l :: rest)
  | _ => true

mutual
/-- every string and key is unpaired -/
def Unpaired : PyJson → Prop
  | .str s => unpaired s = true
  | .arr items => UnpairedItems items
  | .obj fields => UnpairedFields fields
  | _ => True

def UnpairedItems : List PyJson → Prop
  | [] => True
  | v :: vs => Unpaired v ∧ UnpairedItems vs

def UnpairedFields : List (PyStr × PyJson) → Prop
  | [] => True
  | (k, v) :: fields => unpaired k = true ∧ Unpaired v ∧ UnpairedFields fields
end

variable {s : PyStr}

theorem readsStr_unpaired (h : unpaired s = true) : readsStr true s = s := by
  rw [readsStr, if_pos rfl]
  induction s using joinPairs_induction with
  | case1 high low rest hpair ih => simp [unpaired, hpair] at h
  | case2 high low rest hpair ih =>
    rw [unpaired, Bool.and_eq_true] at h
    rw [joinPairs, if_neg hpair, ih h.2]
  | case3 s hshort =>
    rcases s with _ | ⟨c, _ | ⟨d, rest⟩⟩
    · rfl
    · rfl
    · exact absurd rfl (hshort c d rest)

mutual
theorem reads_unpaired : ∀ v, Wf v → Unpaired v → reads canonicalStyle v = v
  | .null, _, _ | .bool _, _, _ | .int _, _, _ | .float _, _, _ => rfl
  | .str s, _, hs => by
    rw [Unpaired] at hs
    rw [reads, canonicalStyle, readsStr_unpaired hs]
  | .arr items, h, hs => by
    rw [Wf] at h
    rw [Unpaired] at hs
    rw [reads, readsItems_unpaired items h hs]
  | .obj fields, h, hs => by
    rw [Wf] at h
    rw [Unpaired] at hs
    rw [reads, readsFields_unpaired fields h.2 hs, dictOf_nodup h.1]

theorem readsItems_unpaired : ∀ vs, WfItems vs → UnpairedItems vs → readsItems canonicalStyle vs = vs
  | [], _, _ => rfl
  | v :: vs, h, hs => by
    rw [WfItems] at h
    rw [UnpairedItems] at hs
    rw [readsItems, reads_unpaired v h.1 hs.1, readsItems_unpaired vs h.2 hs.2]

theorem readsFields_unpaired : ∀ fs, WfFields fs → UnpairedFields fs → readsFields canonicalStyle fs = fs
  | [], _, _ => rfl
  | (k, v) :: fs, h, hs => by
    rw [WfFields] at h
    rw [UnpairedFields] at hs
    have hk : readsStr canonicalStyle.ascii k = k := readsStr_unpaired hs.1
    rw [readsFields, hk, reads_unpaired v h.1 hs.2.1, readsFields_unpaired fs h.2 hs.2.2]
end

/-! ## Trimmed texts -/

/-- no blank at either end -/
def Trimmed (s : PyStr) : Prop := s.dropWhile PyChar.isSpace = s ∧ s.reverse.dropWhile PyChar.isSpace = s.reverse

theorem dropWhile_dropWhile (p : PyChar → Bool) (s : PyStr) : (s.dropWhile p).dropWhile p = s.dropWhile p := by
  induction s with
  | nil => rfl
  | cons c s ih =>
    rw [dropWhile_cons]
    split_ifs with hc
    · exact ih
    · rw [dropWhile_cons, if_neg hc]

theorem head_kept {p : PyChar → Bool} {c : PyChar} (h : (c :: s).dropWhile p = c :: s) : p c = false := by
  by_contra hc
  rw [dropWhile_cons, if_pos (by simpa using hc)] at h
  have hshort := (dropWhile_suffix (l := s) p).length_le
  rw [h, length_cons] at hshort
  omega

theorem trimmed_strip (s : PyStr) : Trimmed (PyStr.strip s) := by
  unfold PyStr.strip Trimmed
  set u := s.dropWhile PyChar.isSpace
  obtain ⟨cut, hcut⟩ := dropWhile_suffix (l := u.reverse) PyChar.isSpace
  rw [reverse_reverse, dropWhile_dropWhile]
  refine ⟨?_, rfl⟩
  have hfirst : u.dropWhile PyChar.isSpace = u := dropWhile_dropWhile _ s
  have hsplit : u = (u.reverse.dropWhile PyChar.isSpace).reverse ++ cut.reverse := by
    rw [← reverse_append, hcut, reverse_reverse]
  cases hkept : (u.reverse.dropWhile PyChar.isSpace).reverse with
  | nil => rfl
  | cons c rest =>
    rw [hsplit, hkept, cons_append] at hfirst
    simp [head_kept hfirst]

/-- the newline before a trimmed text is all that is stripped -/
theorem strip_newline (h : Trimmed s) : PyStr.strip (newline ++ s) = s := by
  have hnewline : (newline ++ s).dropWhile PyChar.isSpace = s := by
    rw [newline, singleton_append, dropWhile_cons, if_pos (by decide), h.1]
  rw [PyStr.strip, hnewline, h.2, reverse_reverse]

theorem trimmed_separated (h : Trimmed s) (hne : s ≠ []) : Trimmed (separator ++ newline ++ s) := by
  refine ⟨rfl, ?_⟩
  rw [reverse_append]
  have hlast := h.2
  cases hs : s.reverse with
  | nil => exact absurd (reverse_eq_nil_iff.1 hs) hne
  | cons c rest =>
    rw [hs] at hlast
    rw [cons_append, dropWhile_cons, head_kept hlast]
    rfl

/-- what is joined to an object is found after it, and joined in the same way -/
theorem strip_joint (h : Trimmed s) : joint (PyStr.strip (joint s ++ s)) ++ PyStr.strip (joint s ++ s) = joint s ++ s := by
  by_cases hnil : s = []
  · subst hnil
    rfl
  by_cases hsep : separator.isPrefixOf s = true
  · have hjoint : joint s = newline := by rw [joint, if_neg hnil, if_pos hsep]
    rw [hjoint, strip_newline h, hjoint]
  · have hjoint : joint s = newline ++ separator ++ newline := by rw [joint, if_neg hnil, if_neg hsep]
    have hstrip : PyStr.strip (joint s ++ s) = separator ++ newline ++ s := by
      rw [hjoint, append_assoc, append_assoc, ← append_assoc separator]
      exact strip_newline (trimmed_separated h hnil)
    rw [hstrip, hjoint]
    simp [joint, newline]

/-! ## Normalisation -/

variable {limit dumpLimit : ℕ} {validate : PyJson → Bool} {text r : PyStr} {payload : PyJson}

/-- what is found was read, and is a dict -/
theorem extractFrom_ok {n start stop : ℕ} (h : extractFrom limit n text = .ok (some (payload, start, stop))) :
    (∃ s after, scanValue limit s = .ok (payload, after)) ∧ payload.isDict = true := by
  induction text generalizing n with
  | nil => cases h
  | cons c rest ih =>
    rw [extractFrom] at h
    split_ifs at h with hbrace
    · split at h
      · rename_i payload' after hscan
        split_ifs at h with hdict
        · cases h
          exact ⟨⟨_, after, hscan⟩, hdict⟩
        · exact ih h
      · exact ih h
      · cases h
    · exact ih h

/-- an object at the front of a text is found there -/
theorem extract_front (hdict : payload.isDict = true) (hsound : Sound limit payload) (hunpaired : Unpaired payload)
    {tail : PyStr} (hstops : Stops tail) :
    extractFirstJsonObject limit (render canonicalStyle payload ++ tail) =
      .ok (some (payload, 0, (render canonicalStyle payload).length)) := by
  have hscan := scanValue_render canonicalStyle limit payload tail hsound.2 (intsFit_of_wf payload hsound.1) hstops
  rw [reads_unpaired payload hsound.1 hunpaired] at hscan
  obtain ⟨fields, rfl⟩ : ∃ fields, payload = .obj fields := by
    cases payload with
    | obj fields => exact ⟨fields, rfl⟩
    | _ => cases hdict
  obtain ⟨c, rest, -, hhead⟩ := render_obj_head canonicalStyle fields
  have hlength : ((render canonicalStyle (.obj fields) ++ tail).length - tail.length) =
      (render canonicalStyle (.obj fields)).length := by simp
  rw [hhead, cons_append] at hscan hlength ⊢
  rw [extractFirstJsonObject, extractFrom, if_pos rfl, hscan]
  simp only [isDict, if_true, hlength, Nat.zero_add]

theorem stops_joint (suffix : PyStr) : Stops (joint suffix ++ suffix) := by
  unfold joint
  split_ifs with hnil hsep
  · rw [hnil]
    exact Stops.nil
  · exact stops_cons (by decide) _
  · exact stops_cons (by decide) _

/-- **Contract normalisation.** If the object that is found has no string or key with a high surrogate before a low one, what
normalisation returns is its own normalisation, with the object at the front and the same text after it. -/
theorem normalize_kept {start stop : ℕ} (hfound : extractFirstJsonObject limit text = .ok (some (payload, start, stop)))
    (hunpaired : Unpaired payload) (h : normalizeOutput limit dumpLimit validate text = .ok (some r)) :
    Kept limit dumpLimit validate text r payload stop := by
  obtain ⟨⟨s, after, hscan⟩, hdict⟩ := extractFrom_ok hfound
  have hsound := scanValue_sound limit s payload after hscan
  simp only [normalizeOutput, hfound, bind, Except.bind] at h
  split_ifs at h with hvalid
  swap
  · cases h
  cases hdumps : dumps canonicalStyle dumpLimit payload with
  | error e => rw [hdumps] at h; cases h
  | ok canonical =>
    rw [hdumps] at h
    cases h
    have hcanonical : canonical = render canonicalStyle payload := by
      unfold dumps at hdumps
      split_ifs at hdumps
      exact (Except.ok.inj hdumps).symm
    have hfront := extract_front hdict hsound hunpaired (stops_joint (PyStr.strip (text.drop stop)))
    rw [← hcanonical] at hfront
    refine ⟨?_, _, hfront, drop_left⟩
    simp only [normalizeOutput, hfront, bind, Except.bind, hvalid, if_true, hdumps, drop_left]
    rw [strip_joint (trimmed_strip _)]

theorem normalize_kept_done : Kept 10 10 (fun _ => true) "\x7b\"a\":1\x7d done" "\x7b\"a\":1\x7d\n---\ndone"
    (.obj [("a", .int 1)]) 7 :=
  normalize_kept (show extractFirstJsonObject 10 "\x7b\"a\":1\x7d done" = .ok (some (_, 0, 7)) by decide +kernel)
    ⟨rfl, trivial, trivial⟩ (by decide +kernel)

/-- two surrogates side by side in a text, which the ASCII text of the object writes as one pair -/
def pairedText : PyStr := PyStr.ofString "\x7b\"a\":\"" ++ ([0xd83d, 0xde00] : PyStr) ++ PyStr.ofString "\"\x7d"

/-- **The object that is lost.** The object of the answer has one character where the object of the text has two. -/
theorem surrogates_joined : ∃ r payload, normalizeOutput 10 10 (fun _ => true) pairedText = .ok (some r) ∧
    extractFirstJsonObject 10 pairedText = .ok (some (payload, 0, 10)) ∧
    ¬ Kept 10 10 (fun _ => true) pairedText r payload 10 := by
  refine ⟨"\x7b\"a\":\"\\ud83d\\ude00\"\x7d", .obj [("a", .str [0xd83d, 0xde00])], by decide +kernel, by decide +kernel, ?_⟩
  intro h
  obtain ⟨stop, hobject, -⟩ := h.object
  have hjoined : (extractFirstJsonObject 10 "\x7b\"a\":\"\\ud83d\\ude00\"\x7d") =
      .ok (some (.obj [("a", .str [0x1f600])], 0, 20)) := by decide +kernel
  cases hjoined.symm.trans hobject

end Teardrop.Contracts
