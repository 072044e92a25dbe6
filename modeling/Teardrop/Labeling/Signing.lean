/-
The message an external prediction is signed over (`prediction_signing_message` of `labeling/commitments.py`), and the
endpoint that takes such predictions (`submit_labeling_prediction` of `routers/labeling.py`), up to the call of
`insert_prediction`.

The patterns of the request are those of pydantic, whose `$` is the end of the text only. Org ids come from the token and are
UUIDs. The recovery of a signer from a message and a signature is a parameter.
-/
import Teardrop.Core.IpAddress
import Teardrop.Labeling.Predictions

namespace Teardrop.Labeling.Signing

open Teardrop.Py Teardrop.Hex PyJson List
open Commitments (Sha256)

/-! ## The message -/

/-- the arguments of `prediction_signing_message` -/
structure SigningFields where
  orgId : PyStr
  definitionKey : PyStr
  definitionVersion : ℤ
  idempotencyKey : PyStr
  payloadSha256 : PyStr
deriving DecidableEq

def predictionSigningDomain : PyStr := PyStr.ofString "Teardrop VOR prediction v1"

def orgLine (f : SigningFields) : PyStr := PyStr.ofString "org:" ++ f.orgId

def definitionLine (f : SigningFields) : PyStr :=
  PyStr.ofString "definition:" ++ f.definitionKey ++ PyChar.ofChar '@' :: renderInt f.definitionVersion

def keyLine (f : SigningFields) : PyStr := PyStr.ofString "idempotency_key:" ++ f.idempotencyKey

def payloadLine (f : SigningFields) : PyStr := PyStr.ofString "payload_sha256:" ++ f.payloadSha256

def messageLines (f : SigningFields) : List PyStr :=
  [predictionSigningDomain, orgLine f, definitionLine f, keyLine f, payloadLine f]

def newline : PyChar := PyChar.ofChar '\n'

def predictionSigningMessage (f : SigningFields) : PyStr := PyStr.join [newline] (messageLines f)

/-- every field keeps to its line -/
structure OneLine (f : SigningFields) : Prop where
  orgId : newline ∉ f.orgId
  definitionKey : newline ∉ f.definitionKey
  idempotencyKey : newline ∉ f.idempotencyKey
  payloadSha256 : newline ∉ f.payloadSha256

theorem newline_not_renderInt (n : ℤ) : newline ∉ renderInt n := by
  unfold renderInt sign
  rw [mem_append, not_or]
  constructor
  · split_ifs
    · decide
    · exact not_mem_nil
  · intro hmem
    obtain ⟨c, hc, heq⟩ := mem_map.mp hmem
    have hdigit := Nat.isDigit_of_mem_toDigits (by decide) (by decide) hc
    rw [PyChar.ofChar_inj heq] at hdigit
    exact absurd hdigit (by decide)

theorem OneLine.lines {f : SigningFields} (h : OneLine f) : ∀ line ∈ messageLines f, newline ∉ line := by
  rw [messageLines, forall_mem_cons, forall_mem_cons, forall_mem_cons, forall_mem_cons, forall_mem_singleton]
  simp only [orgLine, definitionLine, keyLine, payloadLine, mem_append, mem_cons, not_or]
  exact ⟨by decide, ⟨by decide, h.orgId⟩, ⟨⟨by decide, h.definitionKey⟩, by decide, newline_not_renderInt _⟩,
    ⟨by decide, h.idempotencyKey⟩, by decide, h.payloadSha256⟩

/-- **The message determines its fields**, when each keeps to its line. -/
theorem predictionSigningMessage_inj {f g : SigningFields} (hf : OneLine f) (hg : OneLine g)
    (h : predictionSigningMessage f = predictionSigningMessage g) : f = g := by
  have hlines : messageLines f = messageLines g :=
    calc messageLines f = PyStr.split newline (predictionSigningMessage f) :=
          (IpAddress.split_join (cons_ne_nil _ _) hf.lines).symm
      _ = PyStr.split newline (predictionSigningMessage g) := by rw [h]
      _ = messageLines g := IpAddress.split_join (cons_ne_nil _ _) hg.lines
  simp only [messageLines, cons.injEq, true_and, and_true] at hlines
  obtain ⟨horg, hdefinition, hkey, hpayload⟩ := hlines
  -- the version has no '@', so it is what follows the last one
  obtain ⟨hname, hversion⟩ := join_inj (renderInt_not_at _) (renderInt_not_at _) hdefinition
  cases f
  cases g
  simp only [SigningFields.mk.injEq]
  exact ⟨append_cancel_left horg, append_cancel_left hname, renderInt_inj hversion,
    append_cancel_left hkey, append_cancel_left hpayload⟩

/-! ## The request -/

/-- `PredictionSubmitRequest` -/
structure SubmitRequest where
  definitionKey : PyStr
  definitionVersion : ℤ
  idempotencyKey : PyStr
  signerAddress : PyStr
  signature : PyStr
  predictions : PyJson

def isLowerAlnum (c : PyChar) : Bool := c.isDigit || (PyChar.ofChar 'a' ≤ c && c ≤ PyChar.ofChar 'z')

def isUpper (c : PyChar) : Bool := PyChar.ofChar 'A' ≤ c && c ≤ PyChar.ofChar 'Z'

/-- `[a-z0-9_.-]` -/
def isKeyChar (c : PyChar) : Bool := isLowerAlnum c || c ∈ PyStr.ofString "_.-"

/-- `[A-Za-z0-9._:-]` -/
def isIdempotencyChar (c : PyChar) : Bool := isLowerAlnum c || isUpper c || c ∈ PyStr.ofString "._:-"

/-- `[0-9a-fA-F]` -/
def isAnyHex (c : PyChar) : Bool := isLowerHex c || (PyChar.ofChar 'A' ≤ c && c ≤ PyChar.ofChar 'F')

/-- `^[a-z0-9][a-z0-9_.-]{0,127}$` -/
def isDefinitionKey : PyStr → Bool
  | [] => false
  | c :: rest => isLowerAlnum c && rest.length ≤ 127 && rest.all isKeyChar

/-- `^[A-Za-z0-9._:-]{1,128}$` -/
def isIdempotencyKey (s : PyStr) : Bool := 1 ≤ s.length && s.length ≤ 128 && s.all isIdempotencyChar

/-- `^0x[0-9a-fA-F]{n}$` -/
def isHexText (n : ℕ) (s : PyStr) : Bool :=
  s.take 2 = PyStr.ofString "0x" && (s.drop 2).length = n && (s.drop 2).all isAnyHex

/-- the checks of the request model -/
def SubmitRequest.valid (body : SubmitRequest) : Bool :=
  isDefinitionKey body.definitionKey && 0 < body.definitionVersion && isIdempotencyKey body.idempotencyKey &&
    isHexText 40 body.signerAddress && isHexText 130 body.signature

/-- `str(uuid)`: five groups of lowercase digits -/
def isUuid (s : PyStr) : Bool :=
  (PyStr.split (PyChar.ofChar '-') s).map List.length = [8, 4, 4, 4, 12] &&
    s.all (fun c => isLowerHex c || c = PyChar.ofChar '-')

/-! ## The endpoint -/

/-- an `HTTPException` -/
structure Refusal where
  status : ℕ
  detail : PyStr

def refusal (status : ℕ) (detail : String) : Refusal := ⟨status, PyStr.ofString detail⟩

/-- a row of `labeling_definitions` -/
structure DefinitionRow where
  key : PyStr
  version : ℤ
  active : Bool
  definition : Definition

/-- what the endpoint reads of its process and its database -/
structure Server where
  vorEnabled : Bool
  vorAnchorIntervalSeconds : ℤ
  submissionsAllowed : Bool
  definitions : List DefinitionRow
  isWalletLinkedToOrg : PyStr → PyStr → Bool

def getDefinition (rows : List DefinitionRow) (key : PyStr) (version : ℤ) : Option DefinitionRow :=
  rows.find? (fun row => row.key = key && row.version = version && row.active)

def validatePrediction (H : Sha256) (payload : PyJson) (definition : Definition) : Call PyStr :=
  match payload with
  | .obj _ => do
    let encoded ← canonicalJson payload
    if definition.valid payload = false then .error (.valueError "Prediction payload failed its registered schema")
    else payloadHash H encoded
  | _ => .error (.valueError "Prediction payload must be a JSON object")

/-- `str(exc)` of a `ValueError` that `validate_prediction` raises -/
def errorText : Exc → String
  | .valueError msg => msg
  | _ => ""

/-- the endpoint up to the message: the definition it found and the fields it asks a signature for -/
def signingFields (H : Sha256) (server : Server) (orgId : PyStr) (body : SubmitRequest) :
    Except Refusal (DefinitionRow × SigningFields) :=
  if server.vorEnabled = false then .error (refusal 404 "External prediction submission is disabled.")
  else if orgId = [] then
    .error (refusal 400 "No org_id in token - labeling requires an org-scoped credential.")
  else if server.submissionsAllowed = false then .error (refusal 429 "Rate limit exceeded for prediction submission.")
  else match getDefinition server.definitions body.definitionKey body.definitionVersion with
    | none => .error (refusal 404 "Labeling definition not found.")
    | some row =>
      match validatePrediction H body.predictions row.definition with
      | .error e => .error (refusal 422 (errorText e))
      | .ok payloadSha256 =>
        .ok (row,
          { orgId := orgId
            definitionKey := row.key
            definitionVersion := row.version
            idempotencyKey := body.idempotencyKey
            payloadSha256 := payloadSha256 })

/-- `body.signer_address.lower()`, of an address in ASCII -/
def signer (body : SubmitRequest) : PyStr := body.signerAddress.map PyStr.lowerAscii

/-- `submit_labeling_prediction` at `now`: what it hands to `insert_prediction` -/
def submitLabelingPrediction (H : Sha256) (recoverSigner : PyStr → PyStr → Option PyStr) (server : Server) (orgId : PyStr)
    (body : SubmitRequest) (now : ℤ) : Except Refusal (SigningFields × List TargetDraft) := do
  let (row, fields) ← signingFields H server orgId body
  if recoverSigner (predictionSigningMessage fields) body.signature ≠ some (signer body) then
    .error ⟨401, PyStr.ofString "Signature does not match the canonical payload (payload_sha256=" ++ fields.payloadSha256 ++
      PyStr.ofString ")."⟩
  else if server.isWalletLinkedToOrg orgId (signer body) = false then
    .error (refusal 403 "Signer wallet is not linked to this organization.")
  else match row.definition.parser.expand body.predictions now with
    | none => .error (refusal 422 "Prediction could not be expanded into scoring targets.")
    | some targets =>
      if ∃ target ∈ targets, target.windowEnd < now + 2 * server.vorAnchorIntervalSeconds * 1000000 then
        .error (refusal 422 "Prediction horizon is too short to be anchored before its window closes.")
      else .ok (fields, targets)

/-! ## What the endpoint accepts -/

variable {s : PyStr} {H : Sha256} {body : SubmitRequest}

theorem not_mem_of_all {ok : PyChar → Bool} {c : PyChar} (h : s.all ok) (hc : ok c = false) : c ∉ s := by
  intro hmem
  have hok := all_eq_true.mp h c hmem
  simp [hc] at hok

theorem newline_not_uuid (h : isUuid s) : newline ∉ s := by
  simp only [isUuid, Bool.and_eq_true] at h
  exact not_mem_of_all h.2 (by decide)

theorem newline_not_definitionKey (h : isDefinitionKey s) : newline ∉ s := by
  cases s with
  | nil => exact not_mem_nil
  | cons c rest =>
    simp only [isDefinitionKey, Bool.and_eq_true] at h
    rw [mem_cons, not_or]
    constructor
    · intro hc
      rw [← hc] at h
      exact absurd h.1.1 (by decide)
    · exact not_mem_of_all h.2 (by decide)

theorem newline_not_idempotencyKey (h : isIdempotencyKey s) : newline ∉ s := by
  simp only [isIdempotencyKey, Bool.and_eq_true] at h
  exact not_mem_of_all h.2 (by decide)

theorem newline_not_validatePrediction {payload : PyJson} {definition : Definition} {payloadSha256 : PyStr}
    (h : validatePrediction H payload definition = .ok payloadSha256) : newline ∉ payloadSha256 := by
  unfold validatePrediction at h
  split at h
  · obtain ⟨encoded, -, h⟩ := bind_eq_ok h
    split_ifs at h
    unfold payloadHash at h
    split at h
    · cases h
    · cases h
      intro hmem
      obtain ⟨c, hc, heq⟩ := mem_map.mp hmem
      have hdigit := all_eq_true.mp (all_hexChars _) c (by simpa [hex] using hc)
      rw [PyChar.ofChar_inj heq] at hdigit
      exact absurd hdigit (by decide)
  · cases h

theorem signingFields_ok {server : Server} {orgId : PyStr} {r : DefinitionRow × SigningFields}
    (h : signingFields H server orgId body = .ok r) :
    r.2.orgId = orgId ∧ r.2.definitionKey = body.definitionKey ∧ r.2.definitionVersion = body.definitionVersion ∧
      r.2.idempotencyKey = body.idempotencyKey ∧
      validatePrediction H body.predictions r.1.definition = .ok r.2.payloadSha256 := by
  unfold signingFields at h
  split_ifs at h
  split at h
  · cases h
  · rename_i row hrow
    have hfound := find?_some hrow
    simp only [Bool.and_eq_true, decide_eq_true_eq] at hfound
    split at h
    · cases h
    · rename_i payloadSha256 hpayload
      cases h
      exact ⟨rfl, hfound.1.1, hfound.1.2, rfl, hpayload⟩

/-- the endpoint asks signatures for these fields: of a valid request, under an org id that is a UUID -/
def Accepted (H : Sha256) (fields : SigningFields) : Prop :=
  ∃ server orgId body row, isUuid orgId = true ∧ SubmitRequest.valid body = true ∧
    signingFields H server orgId body = .ok (row, fields)

/-- **Accepted fields keep to their lines.** -/
theorem fields_lines {fields : SigningFields} (h : Accepted H fields) : OneLine fields := by
  obtain ⟨server, orgId, body, row, huuid, hvalid, hfields⟩ := h
  obtain ⟨horg, hkey, -, hidempotency, hpayload⟩ := signingFields_ok hfields
  simp only [SubmitRequest.valid, Bool.and_eq_true] at hvalid
  exact {
    orgId := by rw [horg]; exact newline_not_uuid huuid
    definitionKey := by rw [hkey]; exact newline_not_definitionKey hvalid.1.1.1.1
    idempotencyKey := by rw [hidempotency]; exact newline_not_idempotencyKey hvalid.1.1.2
    payloadSha256 := newline_not_validatePrediction hpayload }

theorem submitLabelingPrediction_signed {recoverSigner : PyStr → PyStr → Option PyStr} {server : Server} {orgId : PyStr}
    {now : ℤ} {r : SigningFields × List TargetDraft} (huuid : isUuid orgId) (hvalid : SubmitRequest.valid body)
    (h : submitLabelingPrediction H recoverSigner server orgId body now = .ok r) :
    Accepted H r.1 ∧ recoverSigner (predictionSigningMessage r.1) body.signature = some (signer body) := by
  unfold submitLabelingPrediction at h
  cases hfields : signingFields H server orgId body with
  | error e => rw [hfields] at h; cases h
  | ok found =>
    rw [hfields] at h
    simp only [bind, Except.bind] at h
    split_ifs at h with hsigned hlinked
    split at h
    · cases h
    · split_ifs at h
      cases h
      exact ⟨⟨server, orgId, body, found.1, huuid, hvalid, hfields⟩, not_not.mp hsigned⟩

/-! ## One signature, one submission -/

/-- of two messages, the signature recovers a signer from one only: the hashes and the recovered addresses do not collide -/
def Separates (recoverSigner : PyStr → PyStr → Option PyStr) (signature message message' : PyStr) : Prop :=
  ∀ signer, recoverSigner message signature = some signer → recoverSigner message' signature = some signer →
    message = message'

/-- **A signed prediction authorises one submission.** Of any two accepted tuples of org, definition, version, key and payload
hash, equal messages come from equal tuples; and a signature that its signer made for one of them passes the endpoint for the
other only if they are the same. -/
theorem prediction_signature_binds (H : Sha256) (recoverSigner : PyStr → PyStr → Option PyStr) {f g : SigningFields}
    (hf : Accepted H f) (hg : Accepted H g) :
    (predictionSigningMessage f = predictionSigningMessage g ↔ f = g) ∧
      ∀ server orgId body now targets, isUuid orgId = true → SubmitRequest.valid body = true →
        Separates recoverSigner body.signature (predictionSigningMessage f) (predictionSigningMessage g) →
        recoverSigner (predictionSigningMessage f) body.signature = some (signer body) →
        submitLabelingPrediction H recoverSigner server orgId body now = .ok (g, targets) → f = g := by
  have hinj : predictionSigningMessage f = predictionSigningMessage g ↔ f = g := by
    constructor
    · intro hmessage
      exact predictionSigningMessage_inj (fields_lines hf) (fields_lines hg) hmessage
    · intro heq
      rw [heq]
  refine ⟨hinj, ?_⟩
  intro server orgId body now targets huuid hvalid hseparates hsigned hsubmit
  have hother := (submitLabelingPrediction_signed huuid hvalid hsubmit).2
  exact hinj.mp (hseparates _ hsigned hother)

/-- `entry_timing` in its first version -/
def sampleRow : DefinitionRow :=
  ⟨PyStr.ofString "entry_timing", 1, true, sampleDefinitions (PyStr.ofString "entry_timing") 1⟩

def sampleServer : Server where
  vorEnabled := true
  vorAnchorIntervalSeconds := 3600
  submissionsAllowed := true
  definitions := [sampleRow]
  isWalletLinkedToOrg _ _ := true

def sampleSignature : PyStr := PyStr.ofString "0x" ++ List.replicate 130 (PyChar.ofChar '7')

def sampleRequest : SubmitRequest where
  definitionKey := PyStr.ofString "entry_timing"
  definitionVersion := 1
  idempotencyKey := PyStr.ofString "2025-01-01"
  signerAddress := PyStr.ofString "0x" ++ List.replicate 40 (PyChar.ofChar 'a')
  signature := sampleSignature
  predictions := tokenPayload "a"

/-- the org whose id is made of one digit -/
def sampleOrg (digit : Char) : PyStr :=
  PyStr.join ['-'] ([8, 4, 4, 4, 12].map (fun n => List.replicate n (PyChar.ofChar digit)))

def sampleFields (digit : Char) : SigningFields where
  orgId := sampleOrg digit
  definitionKey := PyStr.ofString "entry_timing"
  definitionVersion := 1
  idempotencyKey := PyStr.ofString "2025-01-01"
  payloadSha256 := PyStr.ofString "3c5592f940a90457f763cc6c39d951c6de3e0361b2c39e073eaacdf31d480280"

/-- the sample signature recovers the signer from the message of org `1`, and another address from that of org `2` -/
def sampleRecover (message signature : PyStr) : Option PyStr :=
  if signature ≠ sampleSignature then none
  else if message = predictionSigningMessage (sampleFields '1') then some (signer sampleRequest)
  else some (PyStr.ofString "0x" ++ List.replicate 40 (PyChar.ofChar 'b'))

theorem sampleFields_accepted (digit : Char) (huuid : isUuid (sampleOrg digit)) :
    Accepted tokenSha (sampleFields digit) := by
  have hpayload : validatePrediction tokenSha (tokenPayload "a") sampleRow.definition =
      .ok (PyStr.ofString "3c5592f940a90457f763cc6c39d951c6de3e0361b2c39e073eaacdf31d480280") := by decide
  have hrow : getDefinition sampleServer.definitions (PyStr.ofString "entry_timing") 1 = some sampleRow := by
    rw [getDefinition, sampleServer, find?_cons_of_pos (by decide)]
  have hsome : sampleOrg digit ≠ [] := by
    intro hnil
    rw [hnil] at huuid
    exact absurd huuid (by decide)
  refine ⟨sampleServer, sampleOrg digit, sampleRequest, sampleRow, huuid, by decide +kernel, ?_⟩
  simp only [signingFields, sampleRequest, hrow, hpayload, hsome, if_false]
  rfl

/-- the signature of org `1` does not pass for org `2` -/
theorem prediction_signature_binds_orgs : predictionSigningMessage (sampleFields '1') ≠ predictionSigningMessage (sampleFields '2') ∧
    ∀ now targets, submitLabelingPrediction tokenSha sampleRecover sampleServer (sampleOrg '2') sampleRequest now ≠
      .ok (sampleFields '2', targets) := by
  have hdifferent : sampleFields '1' ≠ sampleFields '2' := by decide
  have hbinds := prediction_signature_binds tokenSha sampleRecover (sampleFields_accepted '1' (by decide))
    (sampleFields_accepted '2' (by decide))
  have hmessages : predictionSigningMessage (sampleFields '1') ≠ predictionSigningMessage (sampleFields '2') := by
    intro hsame
    exact hdifferent (hbinds.1.mp hsame)
  refine ⟨hmessages, ?_⟩
  intro now targets hsubmit
  apply hdifferent
  apply hbinds.2 sampleServer (sampleOrg '2') sampleRequest now targets (by decide) (by decide +kernel) _ _ hsubmit
  · intro signer hfirst hsecond
    simp only [sampleRecover, sampleRequest, ne_eq, not_true_eq_false, if_false, if_true, hmessages.symm] at hfirst hsecond
    rw [← hsecond] at hfirst
    exact absurd hfirst (by decide)
  · simp [sampleRecover, sampleRequest]

end Teardrop.Labeling.Signing
