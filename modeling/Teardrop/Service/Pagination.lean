/-
The cursors of the paged endpoints (`shared/pagination.py`): a timestamp in ISO 8601 (`parse_cursor`), and a timestamp
with a row id in JSON and URL-safe base64 (`encode_keyset_cursor`, `parse_keyset_cursor`).

Row ids are Python strings, lone surrogates included. `levels` is the recursion the interpreter has left behind the
first level.
-/
import Teardrop.Core.IsoFormat
import Teardrop.Core.Base64Url
import Teardrop.Core.JsonCanonical

namespace Teardrop.Pagination

open Py PyJson DateTime Base64

/-! ## Cursors -/

/-- an `HTTPException`, or an exception that no handler catches -/
inductive CursorError where
  | http (status : ℕ) (detail : String)
  | raised (e : Exc)
deriving DecidableEq

def parseCursor : Option PyStr → Except CursorError (Option Stamp)
  | none => .ok none
  | some [] => .ok none
  | some (c :: cs) =>
    match fromisoformat (c :: cs) with
    | some t => .ok (some t)
    | none => .error (.http 400 "Invalid cursor format — must be an ISO 8601 timestamp.")

/-- `{"created_at": created_at.isoformat(), "id": row_id}` -/
def keysetPayload (createdAt : Stamp) (rowId : PyStr) : PyJson :=
  .obj [(PyStr.ofString "created_at", .str (isoformat createdAt)), (PyStr.ofString "id", .str rowId)]

/-- `json.dumps(payload, separators=(",", ":"))`, in ASCII and never deep -/
def keysetText (createdAt : Stamp) (rowId : PyStr) : PyStr := render ⟨true, true⟩ (keysetPayload createdAt rowId)

def encodeKeysetCursor (createdAt : Stamp) (rowId : PyStr) : PyStr :=
  b64url ((keysetText createdAt rowId).flatMap Utf8.encodeChar)

/-- `data[key]` -/
def subscript (data : PyJson) (key : String) : Call PyJson :=
  match data with
  | .obj fields =>
    match lookup (PyStr.ofString key) fields with
    | some v => .ok v
    | none => .error .keyError
  | _ => .error .typeError

/-- the timestamp and the id that a decoded payload holds -/
def keysetOf (data : PyJson) : Call (Stamp × Option PyStr) := do
  let createdAt ← subscript data "created_at"
  let rowId ← subscript data "id"
  match createdAt, rowId with
  | .str _, .str [] => .error (.valueError "")
  | .str text, .str (c :: cs) =>
    match fromisoformat text with
    | some t => .ok (t, some (c :: cs))
    | none => .error (.valueError "Invalid isoformat string")
  | _, _ => .error (.valueError "")

def loadsCall (levels : ℕ) (bytes : List UInt8) : Call PyJson :=
  match loadsBytes (levels + 1) bytes with
  | .ok data => .ok data
  | .error .recursion => .error .recursionError
  | .error _ => .error (.valueError "JSONDecodeError")

/-- `except (binascii.Error, UnicodeDecodeError, ValueError, TypeError, KeyError)` -/
def isMalformed : Exc → Bool
  | .valueError _ | .unicodeEncodeError | .typeError | .keyError => true
  | _ => false

def parseKeysetCursor (levels : ℕ) : Option PyStr → Except CursorError (Option (Stamp × Option PyStr))
  | none => .ok none
  | some [] => .ok none
  | some (c :: cs) =>
    match fromisoformat (c :: cs) with
    | some t => .ok (some (t, none))
    | none =>
      match b64urlDecode (c :: cs) >>= loadsCall levels >>= keysetOf with
      | .ok keyset => .ok (some keyset)
      | .error e =>
        if isMalformed e then
          .error (.http 400 "Invalid cursor format — use next_cursor from a previous response.")
        else .error (.raised e)

/-! ## Timestamp cursors -/

theorem isoformat_ne_nil (t : Stamp) : isoformat t ≠ [] := by
  rw [isoformat]
  simp

theorem parseCursor_isoformat {t : Stamp} (ht : t.Valid) : parseCursor (some (isoformat t)) = .ok (some t) := by
  have hread := fromisoformat_isoformat ht
  cases htext : isoformat t with
  | nil => exact absurd htext (isoformat_ne_nil t)
  | cons c cs =>
    rw [htext] at hread
    rw [parseCursor, hread]

/-! ## Ids in JSON -/

/-- a high surrogate with a low one right after it -/
def hasSplitPair : PyStr → Bool
  | h :: l :: rest => (isHigh h && isLow l) || hasSplitPair (l :: rest)
  | _ => false

theorem joinPairs_length (s : PyStr) : (joinPairs s).length ≤ s.length := by
  induction s using joinPairs_induction with
  | case1 h l rest hpair ih =>
    rw [joinPairs, if_pos hpair]
    simp only [List.length_cons]
    omega
  | case2 h l rest hpair ih =>
    rw [joinPairs, if_neg hpair, List.length_cons, List.length_cons (a := h)]
    exact Nat.succ_le_succ ih
  | case3 s hshort =>
    rcases s with _ | ⟨c, _ | ⟨d, rest⟩⟩
    · exact le_rfl
    · exact le_rfl
    · exact absurd rfl (hshort c d rest)

theorem joinPairs_eq_iff (s : PyStr) : joinPairs s = s ↔ hasSplitPair s = false := by
  induction s using joinPairs_induction with
  | case1 h l rest hpair ih =>
    refine iff_of_false ?_ ?_
    · intro heq
      have hlen := congrArg List.length heq
      have := joinPairs_length rest
      rw [joinPairs, if_pos hpair] at hlen
      simp only [List.length_cons] at hlen
      omega
    · simp [hasSplitPair, hpair]
  | case2 h l rest hpair ih =>
    have hnot : (isHigh h && isLow l) = false := by simpa using hpair
    rw [joinPairs, if_neg hpair, hasSplitPair, hnot, Bool.false_or, ← ih]
    exact ⟨fun heq => (List.cons.inj heq).2, fun heq => by rw [heq]⟩
  | case3 s hshort =>
    rcases s with _ | ⟨c, _ | ⟨d, rest⟩⟩
    · exact iff_of_true rfl rfl
    · exact iff_of_true rfl rfl
    · exact absurd rfl (hshort c d rest)

theorem joinPairs_ne_nil {s : PyStr} (h : s ≠ []) : joinPairs s ≠ [] := by
  match s with
  | [] => exact absurd rfl h
  | [c] => exact List.cons_ne_nil c []
  | c :: d :: rest =>
    rw [joinPairs]
    split_ifs <;> exact List.cons_ne_nil _ _

/-! ## Keyset cursors -/

theorem keysetText_encoded (createdAt : Stamp) (rowId : PyStr) :
    Utf8.encodeUtf8 (keysetText createdAt rowId) = some ((keysetText createdAt rowId).flatMap Utf8.encodeChar) := by
  have hnone : surrogates (keysetText createdAt rowId) = false := by
    simp [keysetText, keysetPayload, render, renderFields, surrogates_renderAscii, Style.keySep, Style.itemSep]
  rw [Utf8.encodeUtf8, if_neg]
  simpa [surrogates] using hnone

theorem loadsCall_keysetText (levels : ℕ) (createdAt : Stamp) (rowId : PyStr) :
    loadsCall levels ((keysetText createdAt rowId).flatMap Utf8.encodeChar) =
      .ok (reads ⟨true, true⟩ (keysetPayload createdAt rowId)) := by
  have hdumps : dumps ⟨true, true⟩ (levels + 1) (keysetPayload createdAt rowId) = .ok (keysetText createdAt rowId) := by
    rw [dumps, if_neg, if_neg]
    · rfl
    · simp [keysetPayload, intsFit, intsFitFields]
    · simp [keysetPayload, depth, depthFields]
  have hdecode : Utf8.decodeJson ((keysetText createdAt rowId).flatMap Utf8.encodeChar) = some (keysetText createdAt rowId) :=
    decodeJson_render_obj (keysetText_encoded createdAt rowId)
  have hloads := loads_dumps hdumps
  rw [loadsCall, loadsBytes, hdecode]
  simp [hloads]

theorem keysetOf_payload {createdAt : Stamp} (h : createdAt.Valid) {rowId : PyStr} (hid : rowId ≠ []) :
    keysetOf (reads ⟨true, true⟩ (keysetPayload createdAt rowId)) = .ok (createdAt, some (joinPairs rowId)) := by
  have hread := fromisoformat_isoformat h
  have hkey : readsStr true (PyStr.ofString "created_at") = PyStr.ofString "created_at" :=
    readsStr_scalar true (surrogates_ofString _)
  have hidKey : readsStr true (PyStr.ofString "id") = PyStr.ofString "id" := readsStr_scalar true (surrogates_ofString _)
  have htext : readsStr true (isoformat createdAt) = isoformat createdAt := readsStr_scalar true (isoformat_scalar createdAt)
  have hfields : reads ⟨true, true⟩ (keysetPayload createdAt rowId) =
      .obj [(PyStr.ofString "created_at", .str (isoformat createdAt)), (PyStr.ofString "id", .str (joinPairs rowId))] := by
    simp only [keysetPayload, reads, readsFields, hkey, hidKey, htext]
    rfl
  have hcreated : subscript (.obj [(PyStr.ofString "created_at", .str (isoformat createdAt)),
      (PyStr.ofString "id", .str (joinPairs rowId))]) "created_at" = .ok (.str (isoformat createdAt)) := rfl
  have hsecond : subscript (.obj [(PyStr.ofString "created_at", .str (isoformat createdAt)),
      (PyStr.ofString "id", .str (joinPairs rowId))]) "id" = .ok (.str (joinPairs rowId)) := by
    rfl
  rw [hfields, keysetOf, hcreated, hsecond]
  cases hjoined : joinPairs rowId with
  | nil => exact absurd hjoined (joinPairs_ne_nil hid)
  | cons c cs =>
    show (match fromisoformat (isoformat createdAt) with
      | some t => Except.ok (t, some (c :: cs))
      | none => Except.error (Exc.valueError "Invalid isoformat string")) = _
    rw [hread]

theorem b64url_brace (rest : List UInt8) : ∃ s, b64url (0x7b :: rest) = PyChar.ofChar 'e' :: s := by
  have hhead : (encodeBytes (0x7b :: rest)).head? = some 'e' := by
    match rest with
    | [] => rfl
    | [_] => rfl
    | _ :: _ :: _ => rfl
  obtain ⟨core, -, htext, hcore⟩ := b64url_spec (0x7b :: rest)
  cases core with
  | nil =>
    rw [hcore] at hhead
    exact absurd hhead (by decide)
  | cons c core =>
    rw [hcore] at hhead
    obtain rfl : c = 'e' := by simpa using hhead
    exact ⟨_, htext⟩

theorem parseDate_letter {c : PyChar} (hc : digitVal c = none) (s : PyStr) (n : ℕ) : parseDate ((c :: s).take n) = none := by
  cases n with
  | zero => rfl
  | succ n => simp [parseDate, digits, hc]

theorem fromisoformat_letter {c : PyChar} (hc : digitVal c = none) (s : PyStr) : fromisoformat (c :: s) = none := by
  rw [fromisoformat]
  split_ifs
  · rfl
  · cases separator (c :: s) with
    | none => rfl
    | some sep =>
      simp [parseDate_letter hc s sep]

theorem encode_spec (createdAt : Stamp) (rowId : PyStr) : ∃ c cs, encodeKeysetCursor createdAt rowId = c :: cs ∧
    fromisoformat (encodeKeysetCursor createdAt rowId) = none := by
  have hbrace : ∃ rest, (keysetText createdAt rowId).flatMap Utf8.encodeChar = 0x7b :: rest := by
    exact ⟨_, rfl⟩
  obtain ⟨rest, hrest⟩ := hbrace
  obtain ⟨s, hs⟩ := b64url_brace rest
  refine ⟨PyChar.ofChar 'e', s, ?_, ?_⟩
  · rw [encodeKeysetCursor, hrest, hs]
  · rw [encodeKeysetCursor, hrest, hs]
    exact fromisoformat_letter (by decide) s

/-- **A keyset cursor is read back.** With the id as JSON reads it, and never as a legacy timestamp. -/
theorem parse_encode (levels : ℕ) {createdAt : Stamp} (h : createdAt.Valid) {rowId : PyStr} (hid : rowId ≠ []) :
    parseKeysetCursor levels (some (encodeKeysetCursor createdAt rowId)) =
      .ok (some (createdAt, some (joinPairs rowId))) := by
  obtain ⟨c, cs, htoken, hiso⟩ := encode_spec createdAt rowId
  have hbytes := b64urlDecode_b64url ((keysetText createdAt rowId).flatMap Utf8.encodeChar)
  have hbody : (b64urlDecode (encodeKeysetCursor createdAt rowId) >>= loadsCall levels >>= keysetOf) =
      .ok (createdAt, some (joinPairs rowId)) := by
    rw [encodeKeysetCursor, hbytes]
    show (loadsCall levels _ >>= keysetOf) = _
    rw [loadsCall_keysetText]
    exact keysetOf_payload h hid
  rw [htoken] at hiso hbody ⊢
  rw [parseKeysetCursor, hiso]
  simp [hbody]

end Teardrop.Pagination
