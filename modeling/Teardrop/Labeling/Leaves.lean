/-
Commitment leaves (`labeling/contracts.py` and `labeling/commitments.py`): `canonical_json`, `leaf_hash`, and the fields of
the two kinds of leaves, predictions (version 1) and execution receipts (version 2). The hash is a parameter, as in
`Commitments`.

SHA-256 is assumed to have no collision on a set `S` that contains the preimages in question (`Set.InjOn`); of a function
into 32 bytes nothing stronger can hold. Strings are Unicode scalar values; `json.dumps` refuses NaN and the infinities
itself.
-/
import Teardrop.Core.DateTime
import Teardrop.Core.JsonCanonical
import Teardrop.Labeling.Commitments

namespace Teardrop.Labeling

open Teardrop.Py Teardrop.Hex PyJson PyChar DateTime Prod
open Commitments (Sha256)
open List (forall_mem_cons length_cons map_cons mem_cons not_mem_nil mem_append mem_map)

/-! ## Canonical JSON -/

def maxPredictionBytes : ℕ := 64 * 1024
def maxJsonDepth : ℕ := 16
def maxJsonContainerItems : ℕ := 10000

mutual
def validateJsonShape (depth : ℕ) : PyJson → Call Unit
  | .obj fields =>
    if maxJsonDepth < depth then .error (.valueError "Prediction payload nesting exceeds the allowed limit")
    else if maxJsonContainerItems < fields.length then
      .error (.valueError "Prediction payload contains too many object fields")
    else validateFields (depth + 1) fields
  | .arr items =>
    if maxJsonDepth < depth then .error (.valueError "Prediction payload nesting exceeds the allowed limit")
    else if maxJsonContainerItems < items.length then
      .error (.valueError "Prediction payload contains too many array items")
    else validateItems (depth + 1) items
  | _ =>
    if maxJsonDepth < depth then .error (.valueError "Prediction payload nesting exceeds the allowed limit") else .ok ()

def validateItems (depth : ℕ) : List PyJson → Call Unit
  | [] => .ok ()
  | v :: vs => do
    validateJsonShape depth v
    validateItems depth vs

def validateFields (depth : ℕ) : List (PyStr × PyJson) → Call Unit
  | [] => .ok ()
  | (_, v) :: fields => do
    validateJsonShape depth v
    validateFields depth fields
end

/-- `ensure_ascii=True, separators=(",", ":")` -/
def compactAscii : Style := ⟨true, true⟩

def canonicalJson (v : PyJson) : Call PyStr := do
  validateJsonShape 0 v
  if (finite v && intsFit v) = false then
    .error (.valueError "Prediction payload must contain JSON-compatible values")
  else
    let encoded := render compactAscii (canon v)
    if maxPredictionBytes < (encoded.flatMap Utf8.encodeChar).length then
      .error (.valueError "Prediction payload exceeds the allowed size")
    else return encoded

theorem validateItems_ok_iff (depth : ℕ) (items : List PyJson) :
    validateItems depth items = .ok () ↔ ∀ v ∈ items, validateJsonShape depth v = .ok () := by
  induction items with
  | nil => simp [validateItems]
  | cons v vs ih =>
    rw [validateItems, forall_mem_cons, ← ih]
    cases validateJsonShape depth v with
    | ok u => exact ⟨fun h => ⟨rfl, h⟩, fun h => h.2⟩
    | error e => exact ⟨fun h => (by cases h), fun h => (by cases h.1)⟩

theorem validateFields_ok_iff (depth : ℕ) (fields : List (PyStr × PyJson)) :
    validateFields depth fields = .ok () ↔ ∀ f ∈ fields, validateJsonShape depth f.2 = .ok () := by
  induction fields with
  | nil => simp [validateFields]
  | cons f fields ih =>
    rw [validateFields, forall_mem_cons, ← ih]
    cases validateJsonShape depth f.2 with
    | ok u => exact ⟨fun h => ⟨rfl, h⟩, fun h => h.2⟩
    | error e => exact ⟨fun h => (by cases h), fun h => (by cases h.1)⟩

theorem canonItems_length (items : List PyJson) : (canonItems items).length = items.length := by
  induction items with
  | nil => rfl
  | cons v vs ih => rw [canonItems, length_cons, length_cons, ih]

theorem canonFields_length (fields : List (PyStr × PyJson)) : (canonFields fields).length = fields.length := by
  induction fields with
  | nil => rfl
  | cons f fields ih => rw [canonFields, length_cons, length_cons, ih]

mutual
theorem validateJsonShape_canon : ∀ (depth : ℕ) (v : PyJson),
    validateJsonShape depth (canon v) = .ok () ↔ validateJsonShape depth v = .ok ()
  | _, .null | _, .bool _ | _, .int _ | _, .float _ | _, .str _ => by simp [canon]
  | depth, .arr items => by
    rw [canon, validateJsonShape, validateJsonShape, canonItems_length]
    split_ifs
    · exact Iff.rfl
    · exact Iff.rfl
    · exact validateItems_canon (depth + 1) items
  | depth, .obj fields => by
    rw [canon, validateJsonShape, validateJsonShape, (List.perm_insertionSort _ _).length_eq, canonFields_length]
    split_ifs
    · exact Iff.rfl
    · exact Iff.rfl
    · rw [← validateFields_canon (depth + 1) fields, validateFields_ok_iff, validateFields_ok_iff]
      simp only [mem_sorted]

theorem validateItems_canon : ∀ (depth : ℕ) (items : List PyJson),
    validateItems depth (canonItems items) = .ok () ↔ validateItems depth items = .ok ()
  | _, [] => by rw [canonItems]
  | depth, v :: vs => by
    rw [canonItems, validateItems_ok_iff, validateItems_ok_iff, forall_mem_cons, forall_mem_cons,
      validateJsonShape_canon depth v, ← validateItems_ok_iff, ← validateItems_ok_iff, validateItems_canon depth vs]

theorem validateFields_canon : ∀ (depth : ℕ) (fields : List (PyStr × PyJson)),
    validateFields depth (canonFields fields) = .ok () ↔ validateFields depth fields = .ok ()
  | _, [] => by rw [canonFields]
  | depth, (k, v) :: fields => by
    rw [canonFields, validateFields_ok_iff, validateFields_ok_iff, forall_mem_cons, forall_mem_cons,
      validateJsonShape_canon depth v, ← validateFields_ok_iff, ← validateFields_ok_iff, validateFields_canon depth fields]
end

variable {s : PyStr} {fs gs : List (PyStr × PyJson)} {k : PyStr} {rest fields' : List (PyStr × PyJson)}
  {texts : List (String × PyStr)}

theorem canonicalJson_ok {v : PyJson} : canonicalJson v = .ok s ↔
    validateJsonShape 0 v = .ok () ∧ finite v = true ∧ intsFit v = true ∧ render compactAscii (canon v) = s ∧
      (s.flatMap Utf8.encodeChar).length ≤ maxPredictionBytes := by
  unfold canonicalJson
  cases validateJsonShape 0 v with
  | error e => exact ⟨fun h => (by cases h), fun h => (by cases h.1)⟩
  | ok u =>
    simp only [bind, Except.bind]
    constructor
    · intro h
      split_ifs at h with hvalues hsize
      cases h
      rw [Bool.not_eq_false, Bool.and_eq_true] at hvalues
      exact ⟨trivial, hvalues.1, hvalues.2, rfl, not_lt.1 hsize⟩
    · rintro ⟨-, hfinite, hfit, rfl, hsize⟩
      rw [hfinite, hfit, if_neg (by decide), if_neg (not_lt.2 hsize)]
      rfl

/-- a value that Python holds, of scalar strings; of one with an integer too long to be written nothing is asked -/
structure Scalar (v : PyJson) : Prop where
  wf : intsFit v = true → Wf v
  scalar : hasSurrogate v = false

/-- **Canonical texts.** Of two values the second has the text of the first exactly when it differs only in the order of
its keys. -/
theorem canonicalJson_ok_iff {v w : PyJson} (hv : Scalar v) (hw : Scalar w) (h : canonicalJson v = .ok s) :
    canonicalJson w = .ok s ↔ SameUpToOrder v w := by
  obtain ⟨hshape, hfinite, hfit, htext, hsize⟩ := canonicalJson_ok.1 h
  constructor
  · intro h'
    obtain ⟨-, -, hfit', htext', -⟩ := canonicalJson_ok.1 h'
    exact render_canon_inj (hv.wf hfit) (hw.wf hfit') hv.scalar hw.scalar (htext.trans htext'.symm)
  · intro hsame
    refine canonicalJson_ok.2 ⟨?_, ?_, ?_, ?_, hsize⟩
    · rw [← validateJsonShape_canon, ← hsame, validateJsonShape_canon]
      exact hshape
    · rw [← finite_canon, ← hsame, finite_canon]
      exact hfinite
    · rw [← intsFit_canon, ← hsame, intsFit_canon]
      exact hfit
    · rw [← hsame]
      exact htext

/-! ## Leaves -/

def leafVersionPrediction : ℤ := 1
def leafVersionExecutionReceipt : ℤ := 2
def supportedLeafVersions : List ℤ := [leafVersionPrediction, leafVersionExecutionReceipt]

def isLowerHex (c : PyChar) : Bool :=
  c.isDigit || (PyChar.ofChar 'a' ≤ c && c ≤ PyChar.ofChar 'f')

/-- `_HEX64.fullmatch` -/
def isHex64 (s : PyStr) : Bool := s.length = 64 && s.all isLowerHex

/-- `encode("ascii")` -/
def encodeAscii (s : PyStr) : Call Bytes :=
  if s.all PyChar.isAscii then .ok (s.map (fun c => UInt8.ofNat c.val)) else .error .unicodeEncodeError

def keyV : PyStr := PyStr.ofString "v"
def keySalt : PyStr := PyStr.ofString "salt"

/-- `{**fields, "v": version, "salt": salt}`, for fields without the two keys -/
def leafObject (version : ℤ) (fields : List (PyStr × PyJson)) (salt : PyStr) : PyJson :=
  .obj (fields ++ [(keyV, .int version), (keySalt, .str salt)])

/-- the bytes `leaf_hash` hashes -/
def leafPreimage (version : ℤ) (fields : List (PyStr × PyJson)) (salt : PyStr) : Call Bytes := do
  if version ∉ supportedLeafVersions then .error (.valueError "Unsupported commitment leaf version")
  else if isHex64 salt = false then .error (.valueError "Commitment salt must be 64 lowercase hex characters")
  else if keyV ∈ fields.map Prod.fst ∨ keySalt ∈ fields.map Prod.fst then
    .error (.valueError "Commitment fields cannot override reserved keys")
  else
    let preimage ← canonicalJson (leafObject version fields salt)
    let bytes ← encodeAscii preimage
    return 0x00 :: bytes

def leafHash (H : Sha256) (version : ℤ) (fields : List (PyStr × PyJson)) (salt : PyStr) : Call String := do
  let preimage ← leafPreimage version fields salt
  return hex (H.digest preimage)

def utcDatetime (t : DateTime.Stamp) : Call ℤ :=
  match t.offset with
  | none => .error (.valueError "Prediction timestamps must include a timezone")
  | some o => if DateTime.inRange (t.wall - o) then .ok (t.wall - o) else .error .overflowError

structure PredictionLeaf where
  predictionId : PyStr
  orgId : PyStr
  signerAddress : Option PyStr
  definitionKey : PyStr
  definitionVersion : ℤ
  payloadSha256 : PyStr
  predictionAt : DateTime.Stamp

def predictionLeafFields (p : PredictionLeaf) : Call (List (PyStr × PyJson)) := do
  if intsFit (.int p.definitionVersion) = false then
    .error (.valueError "Exceeds the limit (4300 digits) for integer string conversion")
  else
  let predictionAt ← utcDatetime p.predictionAt
  return [(PyStr.ofString "prediction_id", .str p.predictionId), (PyStr.ofString "org_id", .str p.orgId),
    (PyStr.ofString "signer", .str (p.signerAddress.getD [])),
    (PyStr.ofString "definition", .str (p.definitionKey ++ PyChar.ofChar '@' :: renderInt p.definitionVersion)),
    (PyStr.ofString "payload_sha256", .str p.payloadSha256),
    (PyStr.ofString "prediction_at", .str (DateTime.isoMicros predictionAt))]

structure ExecutionReceipt where
  kind : PyStr
  receiptId : PyStr
  orgId : PyStr
  producer : PyStr
  contentSha256 : PyStr
  createdAt : DateTime.Stamp

def executionReceiptKinds : List PyStr := ["simulation", "tool_call", "run"].map PyStr.ofString

def executionReceiptLeafFields (r : ExecutionReceipt) : Call (List (PyStr × PyJson)) := do
  if r.kind ∉ executionReceiptKinds then .error (.valueError "Unsupported execution receipt kind")
  else if isHex64 r.contentSha256 = false then
    .error (.valueError "Receipt content_sha256 must be 64 lowercase hex characters")
  else if r.receiptId = [] ∨ r.orgId = [] ∨ r.producer = [] then
    .error (.valueError "Receipt id, org id, and producer are required")
  else
    let createdAt ← utcDatetime r.createdAt
    return [(PyStr.ofString "kind", .str r.kind), (PyStr.ofString "receipt_id", .str r.receiptId),
      (PyStr.ofString "org_id", .str r.orgId), (PyStr.ofString "producer", .str r.producer),
      (PyStr.ofString "content_sha256", .str r.contentSha256),
      (PyStr.ofString "created_at", .str (DateTime.isoMicros createdAt))]

/-- the leaf of a prediction -/
def predictionLeaf (H : Sha256) (p : PredictionLeaf) (salt : PyStr) : Call String := do
  let fields ← predictionLeafFields p
  leafHash H leafVersionPrediction fields salt

/-- the leaf of an execution receipt -/
def receiptLeaf (H : Sha256) (r : ExecutionReceipt) (salt : PyStr) : Call String := do
  let fields ← executionReceiptLeafFields r
  leafHash H leafVersionExecutionReceipt fields salt

/-! ## What a leaf binds -/

theorem encodeAscii_inj {t : PyStr} {b : Bytes} (hs : encodeAscii s = .ok b) (ht : encodeAscii t = .ok b) : s = t := by
  unfold encodeAscii at hs ht
  split_ifs at hs ht with hs' ht'
  cases hs
  have hmap := Except.ok.inj ht
  have hinj : ∀ (l m : PyStr), (l.all isAscii = true) → (m.all isAscii = true) →
      l.map (fun c => UInt8.ofNat c.val) = m.map (fun c => UInt8.ofNat c.val) → l = m := by
    intro l
    induction l with
    | nil =>
      intro m _ _ h
      exact (List.map_eq_nil_iff.1 h.symm).symm
    | cons c l ih =>
      intro m hl hm h
      match m with
      | [] => cases h
      | d :: m =>
        rw [List.all_cons, Bool.and_eq_true] at hl hm
        obtain ⟨hhead, htail⟩ := List.cons.inj h
        have hc : c.val < 128 := of_decide_eq_true hl.1
        have hd : d.val < 128 := of_decide_eq_true hm.1
        have hval := congrArg UInt8.toNat hhead
        simp only [UInt8.toNat_ofNat'] at hval
        have hcd : c = d := Fin.ext (by omega)
        rw [hcd, ih m hl.2 hm.2 htail]
  exact hinj s t hs' ht' hmap.symm

variable {version : ℤ} {fields : List (PyStr × PyJson)} {salt salt' : PyStr} {x : String} {p : PredictionLeaf}
  {r : ExecutionReceipt}

theorem leafPreimage_ok {p : Bytes} (h : leafPreimage version fields salt = .ok p) :
    isHex64 salt = true ∧ keyV ∉ fields.map fst ∧ keySalt ∉ fields.map fst ∧
      ∃ text bytes, canonicalJson (leafObject version fields salt) = .ok text ∧ encodeAscii text = .ok bytes ∧
        p = 0x00 :: bytes := by
  unfold leafPreimage at h
  split_ifs at h with hversion hsalt hkeys
  obtain ⟨text, htext, h⟩ := bind_eq_ok h
  obtain ⟨bytes, hbytes, h⟩ := bind_eq_ok h
  cases h
  rw [not_or] at hkeys
  exact ⟨eq_true_of_ne_false hsalt, hkeys.1, hkeys.2, text, bytes, htext, hbytes, rfl⟩

theorem surrogates_isHex64 (h : isHex64 s = true) : surrogates s = false := by
  rw [isHex64, Bool.and_eq_true, List.all_eq_true] at h
  rw [surrogates, List.any_eq_false]
  intro c hc hbad
  have hhex := h.2 c hc
  simp only [isLowerHex, isDigit, isSurrogate, Bool.or_eq_true, Bool.and_eq_true, decide_eq_true_eq] at hhex hbad
  have h9 : ('9' : Char).toNat = 57 := by decide
  have hf : (ofChar 'f').val = 102 := by decide
  rcases hhex with hhex | hhex
  · omega
  · have hle : c.val ≤ (ofChar 'f').val := hhex.2
    omega

theorem scalar_leafObject {text : PyStr} (h : Scalar (.obj fields)) (hhex : surrogates salt = false)
    (hv : keyV ∉ fields.map fst) (hsalt : keySalt ∉ fields.map fst)
    (hok : canonicalJson (leafObject version fields salt) = .ok text) : Scalar (leafObject version fields salt) := by
  obtain ⟨hwf, hscalar⟩ := h
  rw [hasSurrogate, ← Bool.not_eq_true, hasSurrogateFields_iff] at hscalar
  -- the version is short enough, or the text would not have been written
  have hfit := (canonicalJson_ok.1 hok).2.2.1
  rw [leafObject, intsFit, intsFitFields_iff] at hfit
  replace hwf := hwf (by
    rw [intsFit, intsFitFields_iff]
    exact fun f hf => hfit f (List.mem_append_left _ hf))
  rw [Wf, wfFields_iff] at hwf
  have hversion := hfit (keyV, .int version) (by simp)
  rw [intsFit, decide_eq_true_eq] at hversion
  constructor
  · intro _
    rw [leafObject, Wf, wfFields_iff]
    refine ⟨?_, ?_⟩
    · rw [List.map_append]
      have hkeys : ([keyV, keySalt] : List PyStr).Nodup := by decide
      refine List.Nodup.append hwf.1 hkeys ?_
      intro k hk hk'
      simp only [map_cons, List.map_nil, mem_cons, not_mem_nil, or_false] at hk'
      rcases hk' with rfl | rfl
      · exact hv hk
      · exact hsalt hk
    · intro f hf
      rcases mem_append.1 hf with hf | hf
      · exact hwf.2 f hf
      · simp only [mem_cons, not_mem_nil, or_false] at hf
        rcases hf with rfl | rfl
        · exact hversion
        · trivial
  · rw [leafObject, hasSurrogate, ← Bool.not_eq_true, hasSurrogateFields_iff]
    rintro ⟨f, hf, hbad⟩
    rcases mem_append.1 hf with hf | hf
    · exact hscalar ⟨f, hf, hbad⟩
    · simp only [mem_cons, not_mem_nil, or_false] at hf
      rcases hf with rfl | rfl
      · rcases hbad with hbad | hbad
        · cases hbad
        · cases hbad
      · rcases hbad with hbad | hbad
        · cases hbad
        · rw [hasSurrogate, hhex] at hbad
          cases hbad

theorem lookup_of_same (hf : Wf (.obj fs)) (hg : Wf (.obj gs)) (h : SameUpToOrder (.obj fs) (.obj gs)) (k : PyStr) :
    (lookup k fs).map canon = (lookup k gs).map canon := by
  have hleft := get?_canon hf k
  rw [h, get?_canon hg k] at hleft
  exact hleft.symm

theorem lookup_append_of_notMem (h : k ∉ fields.map fst) : lookup k (fields ++ rest) = lookup k rest := by
  induction fields with
  | nil => rfl
  | cons f fields ih =>
    rw [map_cons, mem_cons, not_or] at h
    rw [List.cons_append, lookup, if_neg (Ne.symm h.1), ih h.2]

theorem lookup_append_of_mem (h : k ∈ fields.map fst) : lookup k (fields ++ rest) = lookup k fields := by
  induction fields with
  | nil => cases h
  | cons f fields ih =>
    rw [List.cons_append, lookup, lookup]
    split_ifs with hk
    · rfl
    · rw [map_cons, mem_cons] at h
      exact ih (h.resolve_left (Ne.symm hk))

theorem lookup_none_iff : lookup k fields = none ↔ k ∉ fields.map fst := by
  induction fields with
  | nil => simp [lookup]
  | cons f fields ih =>
    rw [lookup, map_cons, mem_cons, not_or, ← ih]
    split_ifs with hk
    · exact ⟨fun h => (by cases h), fun h => absurd hk.symm h.1⟩
    · exact ⟨fun h => ⟨Ne.symm hk, h⟩, fun h => h.2⟩

/-- the fields of two leaves: the same keys, with the same values up to the order of keys in them -/
def SameFields (fs gs : List (PyStr × PyJson)) : Prop := ∀ k, (lookup k fs).map canon = (lookup k gs).map canon

theorem leafPreimage_bind {version' : ℤ} {p : Bytes} (hf : Scalar (.obj fields)) (hf' : Scalar (.obj fields'))
    (h : leafPreimage version fields salt = .ok p) (h' : leafPreimage version' fields' salt' = .ok p) :
    version = version' ∧ salt = salt' ∧ SameFields fields fields' := by
  obtain ⟨hhex, hv, hs, text, bytes, htext, hbytes, rfl⟩ := leafPreimage_ok h
  obtain ⟨hhex', hv', hs', text', bytes', htext', hbytes', hp⟩ := leafPreimage_ok h'
  obtain rfl : bytes = bytes' := (List.cons.inj hp).2
  obtain rfl := encodeAscii_inj hbytes hbytes'
  have hobject := scalar_leafObject hf (surrogates_isHex64 hhex) hv hs htext
  have hobject' := scalar_leafObject hf' (surrogates_isHex64 hhex') hv' hs' htext'
  have hsame := lookup_of_same (hobject.wf (canonicalJson_ok.1 htext).2.2.1) (hobject'.wf (canonicalJson_ok.1 htext').2.2.1)
    ((canonicalJson_ok_iff hobject hobject' htext).1 htext')
  refine ⟨?_, ?_, fun k => ?_⟩
  · have hversion := hsame keyV
    rw [lookup_append_of_notMem hv, lookup_append_of_notMem hv'] at hversion
    simpa [lookup, canon] using hversion
  · have hsalt := hsame keySalt
    rw [lookup_append_of_notMem hs, lookup_append_of_notMem hs'] at hsalt
    simpa [lookup, canon, keyV, keySalt, PyStr.ofString, ofChar] using hsalt
  · have hk := hsame k
    by_cases hreserved : k = keyV ∨ k = keySalt
    · rcases hreserved with rfl | rfl
      · rw [lookup_none_iff.2 hv, lookup_none_iff.2 hv']
      · rw [lookup_none_iff.2 hs, lookup_none_iff.2 hs']
    · rw [not_or] at hreserved
      have hrest : ∀ (version : ℤ) (salt : PyStr) (fs : List (PyStr × PyJson)),
          lookup k (fs ++ [(keyV, .int version), (keySalt, .str salt)]) = lookup k fs := by
        intro version salt fs
        by_cases hmem : k ∈ fs.map fst
        · exact lookup_append_of_mem hmem
        · rw [lookup_append_of_notMem hmem, lookup_none_iff.2 hmem, lookup, if_neg (Ne.symm hreserved.1), lookup,
            if_neg (Ne.symm hreserved.2), lookup]
      rw [hrest, hrest] at hk
      exact hk

/-- what a leaf hashes is in `S` -/
def LeafIn (S : Set Bytes) (version : ℤ) (fields : List (PyStr × PyJson)) (salt : PyStr) : Prop :=
  ∀ p, leafPreimage version fields salt = .ok p → p ∈ S

/-- what an inner node hashes is in `S` -/
def NodeIn (S : Set Bytes) (left right : String) : Prop :=
  ∀ l r, Commitments.Decodes left l → Commitments.Decodes right r → 0x01 :: (l ++ r) ∈ S

theorem leafHash_ok {H : Sha256} (h : leafHash H version fields salt = .ok x) :
    ∃ p, leafPreimage version fields salt = .ok p ∧ x = hex (H.digest p) := by
  obtain ⟨p, hp, h⟩ := bind_eq_ok h
  cases h
  exact ⟨p, hp, rfl⟩

theorem hex_digest_inj {H : Sha256} {S : Set Bytes} (hS : Set.InjOn H.digest S) {p q : Bytes} (hp : p ∈ S) (hq : q ∈ S)
    (h : hex (H.digest p) = hex (H.digest q)) : p = q :=
  hS hp hq (hex_injective h)

/-- **Equal leaves.** -/
theorem leafHash_bind {H : Sha256} {S : Set Bytes} (hS : Set.InjOn H.digest S) {version' : ℤ} (hf : Scalar (.obj fields))
    (hf' : Scalar (.obj fields')) (hin : LeafIn S version fields salt) (hin' : LeafIn S version' fields' salt')
    (h : leafHash H version fields salt = .ok x) (h' : leafHash H version' fields' salt' = .ok x) :
    version = version' ∧ salt = salt' ∧ SameFields fields fields' := by
  obtain ⟨p, hp, rfl⟩ := leafHash_ok h
  obtain ⟨p', hp', hleaf⟩ := leafHash_ok h'
  obtain rfl := hex_digest_inj hS (hin p hp) (hin' p' hp') hleaf
  exact leafPreimage_bind hf hf' hp hp'

/-- **Leaves and nodes.** A leaf is hashed behind a zero, a node behind a one. -/
theorem leaf_ne_node {H : Sha256} {S : Set Bytes} (hS : Set.InjOn H.digest S) {left right : String}
    (hin : LeafIn S version fields salt) (hnode : NodeIn S left right) (h : leafHash H version fields salt = .ok x) :
    Commitments.node H left right ≠ .ok x := by
  intro h'
  obtain ⟨p, hp, rfl⟩ := leafHash_ok h
  obtain ⟨-, -, -, text, bytes, -, -, rfl⟩ := leafPreimage_ok hp
  obtain ⟨l, r, hl, hr⟩ := Commitments.node_ok H h'
  rw [Commitments.node_of_decodes H hl hr] at h'
  have hsame := hex_digest_inj hS (hnode l r hl hr) (hin _ hp) (Except.ok.inj h')
  exact absurd (List.cons.inj hsame).1 (by decide)

/-! ## Predictions and receipts -/

theorem renderInt_not_at (n : ℤ) : ofChar '@' ∉ renderInt n := by
  unfold renderInt sign
  rw [mem_append, not_or]
  constructor
  · split_ifs
    · decide
    · exact not_mem_nil
  · intro hmem
    obtain ⟨c, hc, heq⟩ := mem_map.1 hmem
    rw [ofChar_inj heq] at hc
    exact absurd ((Double.numeral_toDigits n.natAbs).1 '@' hc) (by decide)

theorem renderNat_inj {m n : ℕ} (h : renderNat m = renderNat n) : m = n := by
  have hchars := List.map_injective_iff.2 (fun _ _ => ofChar_inj) h
  rw [← Nat.ofDigitChars_ten_toDigits (n := m), hchars, Nat.ofDigitChars_ten_toDigits]

theorem renderInt_inj {m n : ℤ} (h : renderInt m = renderInt n) : m = n := by
  have hhead : ∀ k : ℕ, ∀ t : PyStr, renderNat k ≠ ofChar '-' :: t := by
    intro k t hk
    obtain ⟨c, rest, hc, hdigit⟩ := renderNat_head k
    rw [hc] at hk
    rw [ofChar_inj (List.cons.inj hk).1] at hdigit
    exact absurd hdigit (by decide)
  unfold renderInt sign at h
  by_cases hm : m < 0
  · by_cases hn : n < 0
    · rw [decide_eq_true hm, decide_eq_true hn] at h
      have habs := renderNat_inj (List.append_cancel_left h)
      omega
    · rw [decide_eq_true hm, decide_eq_false hn] at h
      exact absurd h.symm (hhead n.natAbs _)
  · by_cases hn : n < 0
    · rw [decide_eq_false hm, decide_eq_true hn] at h
      exact absurd h (hhead m.natAbs _)
    · rw [decide_eq_false hm, decide_eq_false hn] at h
      have habs := renderNat_inj h
      omega

theorem join_inj {c : PyChar} {a b v w : PyStr} (hv : c ∉ v) (hw : c ∉ w) (h : a ++ c :: v = b ++ c :: w) : a = b ∧ v = w := by
  rcases List.append_eq_append_iff.1 h with ⟨mid, rfl, hmid⟩ | ⟨mid, rfl, hmid⟩
  · match mid with
    | [] => exact ⟨(List.append_nil a).symm, (List.cons.inj hmid).2⟩
    | d :: mid =>
      obtain ⟨rfl, rfl⟩ := List.cons.inj hmid
      exact absurd (List.mem_append_right mid List.mem_cons_self) hv
  · match mid with
    | [] => exact ⟨List.append_nil b, (List.cons.inj hmid).2.symm⟩
    | d :: mid =>
      obtain ⟨rfl, rfl⟩ := List.cons.inj hmid
      exact absurd (List.mem_append_right mid List.mem_cons_self) hw

/-- the parts of a prediction that its leaf commits to -/
structure SamePrediction (a b : PredictionLeaf) : Prop where
  predictionId : a.predictionId = b.predictionId
  orgId : a.orgId = b.orgId
  signer : a.signerAddress.getD [] = b.signerAddress.getD []
  definitionKey : a.definitionKey = b.definitionKey
  definitionVersion : a.definitionVersion = b.definitionVersion
  payloadSha256 : a.payloadSha256 = b.payloadSha256
  predictionAt : utcDatetime a.predictionAt = utcDatetime b.predictionAt

theorem utcDatetime_inRange {t : DateTime.Stamp} {u : ℤ} (h : utcDatetime t = .ok u) : inRange u = true := by
  unfold utcDatetime at h
  split at h
  · cases h
  · split_ifs at h with hrange
    cases h
    exact hrange

/-- fields that all hold texts -/
def textFields (texts : List (String × PyStr)) : List (PyStr × PyJson) :=
  texts.map (fun f => (PyStr.ofString f.1, PyJson.str f.2))

theorem lookup_textFields (hkeys : (texts.map fst).Nodup) {k : String} {x : PyStr} (h : (k, x) ∈ texts) :
    lookup (PyStr.ofString k) (textFields texts) = some (.str x) := by
  induction texts with
  | nil => cases h
  | cons f texts ih =>
    rw [map_cons, List.nodup_cons] at hkeys
    rw [textFields, map_cons, lookup]
    rcases mem_cons.1 h with rfl | h
    · rw [if_pos rfl]
    · have hne : PyStr.ofString f.1 ≠ PyStr.ofString k := by
        intro heq
        refine hkeys.1 ?_
        rw [PyStr.ofString_inj heq]
        exact List.mem_map_of_mem h
      rw [if_neg hne]
      exact ih hkeys.2 h

theorem texts_bind {as bs : List (String × PyStr)} (h : SameFields (textFields as) (textFields bs))
    (ha : (as.map fst).Nodup) (hb : (bs.map fst).Nodup) {k : String} {x y : PyStr} (hx : (k, x) ∈ as)
    (hy : (k, y) ∈ bs) : x = y := by
  have hk := h (PyStr.ofString k)
  rw [lookup_textFields ha hx, lookup_textFields hb hy] at hk
  exact PyJson.str.inj (Option.some.inj hk)

/-- the texts of a prediction leaf -/
def predictionTexts (p : PredictionLeaf) (predictionAt : ℤ) : List (String × PyStr) :=
  [("prediction_id", p.predictionId), ("org_id", p.orgId), ("signer", p.signerAddress.getD []),
    ("definition", p.definitionKey ++ PyChar.ofChar '@' :: renderInt p.definitionVersion),
    ("payload_sha256", p.payloadSha256), ("prediction_at", DateTime.isoMicros predictionAt)]

/-- the texts of an execution receipt -/
def receiptTexts (r : ExecutionReceipt) (createdAt : ℤ) : List (String × PyStr) :=
  [("kind", r.kind), ("receipt_id", r.receiptId), ("org_id", r.orgId), ("producer", r.producer),
    ("content_sha256", r.contentSha256), ("created_at", DateTime.isoMicros createdAt)]

theorem predictionLeafFields_ok (h : predictionLeafFields p = .ok fields) :
    ∃ t, utcDatetime p.predictionAt = .ok t ∧ fields = textFields (predictionTexts p t) := by
  unfold predictionLeafFields at h
  split_ifs at h with hdigits
  obtain ⟨t, ht, h⟩ := bind_eq_ok h
  cases h
  exact ⟨t, ht, rfl⟩

theorem executionReceiptLeafFields_ok (h : executionReceiptLeafFields r = .ok fields) :
    ∃ t, utcDatetime r.createdAt = .ok t ∧ fields = textFields (receiptTexts r t) := by
  unfold executionReceiptLeafFields at h
  split_ifs at h with hkind hcontent hrequired
  obtain ⟨t, ht, h⟩ := bind_eq_ok h
  cases h
  exact ⟨t, ht, rfl⟩

theorem nodup_predictionTexts (p : PredictionLeaf) (t : ℤ) : ((predictionTexts p t).map fst).Nodup := by
  simp [predictionTexts]

theorem predictionFields_bind {a b : PredictionLeaf} (ha : predictionLeafFields a = .ok fs)
    (hb : predictionLeafFields b = .ok gs) (h : SameFields fs gs) : SamePrediction a b := by
  obtain ⟨t, ht, rfl⟩ := predictionLeafFields_ok ha
  obtain ⟨u, hu, rfl⟩ := predictionLeafFields_ok hb
  have hread : ∀ (k : String) (x y : PyStr), (k, x) ∈ predictionTexts a t → (k, y) ∈ predictionTexts b u → x = y :=
    fun k x y => texts_bind h (nodup_predictionTexts a t) (nodup_predictionTexts b u)
  have hdefinition : a.definitionKey ++ ofChar '@' :: renderInt a.definitionVersion =
      b.definitionKey ++ ofChar '@' :: renderInt b.definitionVersion :=
    hread "definition" _ _ (by simp [predictionTexts]) (by simp [predictionTexts])
  obtain ⟨hkey, hversion⟩ := join_inj (renderInt_not_at _) (renderInt_not_at _) hdefinition
  have hat : isoMicros t = isoMicros u :=
    hread "prediction_at" _ _ (by simp [predictionTexts]) (by simp [predictionTexts])
  have htime : t = u := isoMicros_inj (utcDatetime_inRange ht) (utcDatetime_inRange hu) hat
  exact {
    predictionId := hread "prediction_id" _ _ (by simp [predictionTexts]) (by simp [predictionTexts])
    orgId := hread "org_id" _ _ (by simp [predictionTexts]) (by simp [predictionTexts])
    signer := hread "signer" _ _ (by simp [predictionTexts]) (by simp [predictionTexts])
    definitionKey := hkey
    definitionVersion := renderInt_inj hversion
    payloadSha256 := hread "payload_sha256" _ _ (by simp [predictionTexts]) (by simp [predictionTexts])
    predictionAt := by rw [ht, hu, htime] }

/-! ## Their texts -/

theorem surrogates_fixed (w n : ℕ) : surrogates (fixed w n) = false := by
  induction w generalizing n with
  | zero => rfl
  | succ w ih => simp [fixed, ih]

theorem surrogates_isoMicros (t : ℤ) : surrogates (isoMicros t) = false := by
  have hzulu : surrogates zulu = false := by decide
  simp [isoMicros, punct, surrogates_fixed, hzulu]

theorem surrogates_renderInt (n : ℤ) : surrogates (renderInt n) = false := by
  simp [renderInt]

theorem scalar_textFields (hkeys : (texts.map fst).Nodup) (h : ∀ f ∈ texts, surrogates f.2 = false) :
    Scalar (.obj (textFields texts)) := by
  constructor
  · intro _
    rw [Wf, wfFields_iff]
    constructor
    · have hmap : (textFields texts).map fst = (texts.map fst).map PyStr.ofString := by
        rw [textFields, List.map_map, List.map_map]
        rfl
      rw [hmap]
      exact hkeys.map (fun _ _ => PyStr.ofString_inj)
    · intro f hf
      obtain ⟨t, -, rfl⟩ := mem_map.1 hf
      trivial
  · rw [hasSurrogate, ← Bool.not_eq_true, hasSurrogateFields_iff]
    rintro ⟨f, hf, hbad⟩
    obtain ⟨t, ht, rfl⟩ := mem_map.1 hf
    rw [surrogates_ofString, hasSurrogate, h t ht] at hbad
    rcases hbad with hbad | hbad <;> cases hbad

/-- a prediction of Unicode scalar values -/
structure ScalarPrediction (p : PredictionLeaf) : Prop where
  predictionId : surrogates p.predictionId = false
  orgId : surrogates p.orgId = false
  signer : surrogates (p.signerAddress.getD []) = false
  definitionKey : surrogates p.definitionKey = false
  payloadSha256 : surrogates p.payloadSha256 = false

/-- a receipt of Unicode scalar values -/
structure ScalarReceipt (r : ExecutionReceipt) : Prop where
  kind : surrogates r.kind = false
  receiptId : surrogates r.receiptId = false
  orgId : surrogates r.orgId = false
  producer : surrogates r.producer = false
  contentSha256 : surrogates r.contentSha256 = false

theorem scalar_prediction (h : ScalarPrediction p) (hok : predictionLeafFields p = .ok fields) : Scalar (.obj fields) := by
  obtain ⟨t, -, rfl⟩ := predictionLeafFields_ok hok
  refine scalar_textFields (nodup_predictionTexts p t) ?_
  simp [predictionTexts, h.predictionId, h.orgId, h.signer, h.definitionKey, h.payloadSha256, surrogates_isoMicros,
    surrogates_renderInt]

theorem scalar_receipt (h : ScalarReceipt r) (hok : executionReceiptLeafFields r = .ok fields) : Scalar (.obj fields) := by
  obtain ⟨t, -, rfl⟩ := executionReceiptLeafFields_ok hok
  refine scalar_textFields (by simp [receiptTexts]) ?_
  simp [receiptTexts, h.kind, h.receiptId, h.orgId, h.producer, h.contentSha256, surrogates_isoMicros]

/-- what the leaf of a prediction hashes is in `S` -/
def PredictionIn (S : Set Bytes) (p : PredictionLeaf) (salt : PyStr) : Prop :=
  ∀ fields, predictionLeafFields p = .ok fields → LeafIn S leafVersionPrediction fields salt

/-- what the leaf of a receipt hashes is in `S` -/
def ReceiptIn (S : Set Bytes) (r : ExecutionReceipt) (salt : PyStr) : Prop :=
  ∀ fields, executionReceiptLeafFields r = .ok fields → LeafIn S leafVersionExecutionReceipt fields salt

section Binding

variable {H : Sha256} {S : Set Bytes} (hS : Set.InjOn H.digest S)

include hS

theorem predictionLeaf_bind {a b : PredictionLeaf} (ha : ScalarPrediction a) (hb : ScalarPrediction b)
    (hin : PredictionIn S a salt) (hin' : PredictionIn S b salt') (h : predictionLeaf H a salt = .ok x)
    (h' : predictionLeaf H b salt' = .ok x) : SamePrediction a b := by
  obtain ⟨fs, hfs, hleaf⟩ := bind_eq_ok h
  obtain ⟨gs, hgs, hleaf'⟩ := bind_eq_ok h'
  exact predictionFields_bind hfs hgs
    (leafHash_bind hS (scalar_prediction ha hfs) (scalar_prediction hb hgs) (hin fs hfs) (hin' gs hgs) hleaf hleaf').2.2

theorem receipt_ne_prediction (hp : ScalarPrediction p) (hr : ScalarReceipt r) (hin : PredictionIn S p salt)
    (hin' : ReceiptIn S r salt') (h : predictionLeaf H p salt = .ok x) : receiptLeaf H r salt' ≠ .ok x := by
  intro h'
  obtain ⟨fs, hfs, hleaf⟩ := bind_eq_ok h
  obtain ⟨gs, hgs, hleaf'⟩ := bind_eq_ok h'
  have hversion :=
    (leafHash_bind hS (scalar_prediction hp hfs) (scalar_receipt hr hgs) (hin fs hfs) (hin' gs hgs) hleaf hleaf').1
  exact absurd hversion (by decide)

/-- **Leaves bind their content.** On a set of preimages without collisions. -/
theorem leaves_bind :
    (∀ {v w : PyJson} {s : PyStr}, Scalar v → Scalar w → canonicalJson v = .ok s →
      (canonicalJson w = .ok s ↔ SameUpToOrder v w)) ∧
    (∀ {version version' : ℤ} {fields fields' : List (PyStr × PyJson)} {salt salt' : PyStr} {x : String},
      Scalar (.obj fields) → Scalar (.obj fields') → LeafIn S version fields salt → LeafIn S version' fields' salt' →
      leafHash H version fields salt = .ok x → leafHash H version' fields' salt' = .ok x →
      version = version' ∧ salt = salt' ∧ SameFields fields fields') ∧
    (∀ {a b : PredictionLeaf} {salt salt' : PyStr} {x : String}, ScalarPrediction a → ScalarPrediction b →
      PredictionIn S a salt → PredictionIn S b salt' → predictionLeaf H a salt = .ok x → predictionLeaf H b salt' = .ok x →
      SamePrediction a b) ∧
    (∀ {p : PredictionLeaf} {r : ExecutionReceipt} {salt salt' : PyStr} {x : String}, ScalarPrediction p →
      ScalarReceipt r → PredictionIn S p salt → ReceiptIn S r salt' → predictionLeaf H p salt = .ok x →
      receiptLeaf H r salt' ≠ .ok x) ∧
    (∀ {version : ℤ} {fields : List (PyStr × PyJson)} {salt : PyStr} {left right x : String},
      LeafIn S version fields salt → NodeIn S left right → leafHash H version fields salt = .ok x →
      Commitments.node H left right ≠ .ok x) := by
  refine ⟨fun hv hw h => canonicalJson_ok_iff hv hw h, leafHash_bind hS, predictionLeaf_bind hS, receipt_ne_prediction hS, ?_⟩
  intro version fields salt left right x hin hnode
  exact leaf_ne_node hS hin hnode

end Binding

/-! ## An example -/

def sampleSalt : PyStr := List.replicate 64 (PyChar.ofChar '7')

def samplePrediction : PredictionLeaf where
  predictionId := PyStr.ofString "p1"
  orgId := PyStr.ofString "o1"
  signerAddress := none
  definitionKey := PyStr.ofString "entry@timing"
  definitionVersion := 2
  payloadSha256 := List.replicate 64 (PyChar.ofChar 'a')
  predictionAt := ⟨1735689600000000, some 0⟩

def sampleFields : List (PyStr × PyJson) := textFields (predictionTexts samplePrediction 1735689600000000)

/-- what its leaf hashes -/
def samplePreimage : Bytes := (leafPreimage leafVersionPrediction sampleFields sampleSalt).toOption.getD []

/-- its leaf under SHA-256 -/
def sampleLeaf : String := "e9928a2151dcb248ae9067b05f8e82e28fdc9fbed63ec89a31b1003a9cb20542"

/-- SHA-256 at that preimage and at the one of the node over `Commitments.twoLeaves` -/
def sampleSha : Sha256 where
  digest b := if b = samplePreimage then (fromhex sampleLeaf).getD [] else Commitments.twoSha.digest b
  length_digest b := by
    split_ifs
    · decide
    · exact Commitments.twoSha.length_digest b

/-- what the leaf and the node hash -/
def sampleSet : Set Bytes := {samplePreimage, 0x01 :: (List.replicate 32 0xaa ++ List.replicate 32 0xbb)}

theorem leaves_bind_sample : leafHash sampleSha leafVersionPrediction sampleFields sampleSalt = .ok sampleLeaf ∧
    Commitments.node sampleSha Commitments.twoLeaves[0] Commitments.twoLeaves[1] ≠ .ok sampleLeaf := by
  have hpreimage : leafPreimage leafVersionPrediction sampleFields sampleSalt = .ok samplePreimage := by decide +kernel
  have hleaf : leafHash sampleSha leafVersionPrediction sampleFields sampleSalt = .ok sampleLeaf := by decide +kernel
  have hcollision : Set.InjOn sampleSha.digest sampleSet := by
    rw [sampleSet, Set.injOn_pair]
    intro hsame
    exact absurd hsame (by decide +kernel)
  refine ⟨hleaf, (leaves_bind hcollision).2.2.2.2 ?_ ?_ hleaf⟩
  · intro p hp
    rw [hpreimage] at hp
    exact Or.inl (Except.ok.inj hp).symm
  · intro l r hl hr
    have hleft : fromhex Commitments.twoLeaves[0] = some (List.replicate 32 0xaa) := by decide
    have hright : fromhex Commitments.twoLeaves[1] = some (List.replicate 32 0xbb) := by decide
    rw [Commitments.Decodes.unique hl hleft, Commitments.Decodes.unique hr hright]
    exact Or.inr rfl

end Teardrop.Labeling
