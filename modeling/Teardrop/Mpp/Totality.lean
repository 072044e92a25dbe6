/-
When validation of a credential returns. `validate_mpp_credential` re-encodes what the client sent, compares ids and converts
the expiry outside any `try`, and `parse_payment_authorization` catches `ValueError` and `TypeError` only. So they raise:
- `RecursionError` on JSON that nests deeper than the interpreter allows, in a base64url text or a native object;
- `UnicodeEncodeError` on a lone surrogate in realm, method, intent, expires, `request` or `opaque`;
- `TypeError` on an id with a character outside ASCII;
- `OverflowError` on a genuine challenge whose expiry, moved to UTC, leaves the years 1..9999.
-/
import Teardrop.Core.JsonSurrogates
import Teardrop.Mpp.Binding

namespace Teardrop.Mpp

open Py PyJson Base64 DateTime Except

variable {host : Host} {settings : Settings}

/-! ## The inputs that are survived -/

/-- a base64url text whose JSON nests deeper than the interpreter allows -/
def tooDeep (host : Host) (text : PyStr) : Bool := loadsField host text = .error .recursionError

/-- such a text in the place of an object -/
def tooDeepField (host : Host) : PyJson → Bool
  | .str text => text ≠ [] && tooDeep host text
  | _ => false

/-- an object that can be written and encoded -/
def writable (host : Host) (v : PyJson) : Bool := depth v ≤ host.limit && !hasSurrogate v

/-- the expiry is a date and time whose move to UTC raises `OverflowError` -/
def outOfRange (host : Host) (expires : PyStr) : Bool :=
  match fromisoformat (replaceZ expires) with
  | none => false
  | some stamp =>
    match toUtc host.zone stamp with
    | .ok _ => false
    | .error e => !e.isValueError

/-- a complete challenge: its texts can be encoded, its id can be compared, and, if it is genuine and its terms match,
its expiry can be moved to UTC -/
structure SafeChallenge (host : Host) (settings : Settings) (toolCostUsdc : ℤ) (c : Challenge) : Prop where
  request : writable host c.request = true
  opaqueMap : writable host c.opaqueMap = true
  texts : surrogates (c.realm ++ c.method ++ c.intent ++ c.expires) = false
  id : c.id.all PyChar.isAscii = true
  expiry : challengeId host settings.mppSecretKey c.toFields = .ok c.id →
    termsError host settings toolCostUsdc c.toFields = none → outOfRange host c.expires = false

/-- a credential whose validation returns -/
def SafeCredential (host : Host) (settings : Settings) (toolCostUsdc : ℤ) (credential : PyJson) : Prop :=
  ∀ p, presented credential = .ok p →
    tooDeepField host (get p.challenge "request") = false ∧ tooDeepField host (get p.challenge "opaque") = false ∧
    ∀ c, challengeFields host p.challenge = .ok (some c) → SafeChallenge host settings toolCostUsdc c

/-- a header whose parsing returns -/
def SafeHeader (host : Host) (header : Option PyStr) : Prop :=
  let (scheme, _, token) := PyStr.partition ' ' (PyStr.strip (header.getD []))
  PyStr.lower host.wide scheme = PyStr.ofString "payment" → tooDeep host (PyStr.strip token) = false

/-- `(parsed, None, None)`, or `(None, code, message)` with one of the two codes -/
def Documented (r : Outcome) : Prop :=
  (∃ parsed, r = (some parsed, none, none)) ∨
    ∃ code message, r = (none, some code, some message) ∧ (code = mppMalformedCredential ∨ code = mppVerifyFailed)

/-! ## What each primitive raises -/

theorem decodeFrom_error {q : Quad} {cs : List Char} {e : Exc} (h : decodeFrom q cs = .error e) : e.isValueError := by
  induction cs generalizing q with
  | nil =>
    rw [decodeFrom] at h
    split_ifs at h
    cases h
    rfl
  | cons c cs ih =>
    rw [decodeFrom] at h
    by_cases hpad : c = '='
    · rw [if_pos hpad] at h
      by_cases hdone : 2 ≤ q.pos ∧ 4 ≤ q.pos + (q.pads + 1)
      · rw [if_pos hdone] at h
        cases h
      · rw [if_neg hdone] at h
        exact ih h
    · rw [if_neg hpad] at h
      split at h
      · exact ih h
      · split at h
        · exact ih h
        · rename_i b q' _
          cases hrest : decodeFrom q' cs with
          | ok bytes =>
            rw [hrest] at h
            cases h
          | error e' =>
            rw [hrest] at h
            cases h
            exact ih hrest

/-- reading a text raises a `ValueError` of some kind, or `RecursionError` -/
theorem loadsField_error {text : PyStr} {e : Exc} (h : loadsField host text = .error e) :
    e.isValueError ∨ e = .recursionError := by
  unfold loadsField at h
  cases hdecode : b64urlDecode text with
  | error e' =>
    rw [hdecode] at h
    cases h
    unfold b64urlDecode at hdecode
    simp only at hdecode
    split_ifs at hdecode
    · exact .inl (decodeFrom_error hdecode)
    · cases hdecode
      exact .inl rfl
  | ok bytes =>
    rw [hdecode] at h
    have hjson : ofJson (loadsBytes host.limit bytes) = .error e := h
    unfold ofJson at hjson
    split at hjson
    · cases hjson
    · cases hjson
      exact .inr rfl
    · cases hjson
      exact .inl rfl
    · cases hjson
      exact .inl rfl

/-- `except (ValueError, TypeError)` lets only `RecursionError` through -/
theorem rescue_returns {α : Type} {text : PyStr} (f : PyJson → α) (other : α) :
    (∃ a, rescue ((loadsField host text).map f) other = .ok a) ↔ tooDeep host text = false := by
  unfold tooDeep
  cases hload : loadsField host text with
  | ok v => simp [rescue, Except.map]
  | error e =>
    rcases loadsField_error hload with hvalue | rfl
    · have hne : e ≠ .recursionError := by
        intro heq
        rw [heq] at hvalue
        cases hvalue
      simp [rescue, Except.map, hvalue, hne]
    · simp [rescue, Except.map, Exc.isValueError]

theorem decodeField_returns (v : PyJson) : (∃ r, decodeField host v = .ok r) ↔ tooDeepField host v = false := by
  cases v with
  | str text =>
    by_cases hempty : text = []
    · simp [decodeField, tooDeepField, hempty]
    · rw [decodeField, if_neg hempty, rescue_returns]
      simp [tooDeepField, hempty]
  | _ => simp [decodeField, tooDeepField]

theorem encodeField_returns {v : PyJson} (hwf : Wf v) : (∃ t, encodeField host v = .ok t) ↔ writable host v := by
  simp only [writable, Bool.and_eq_true, decide_eq_true_eq, Bool.not_eq_true']
  constructor
  · rintro ⟨t, h⟩
    obtain ⟨text, bytes, hdump, hutf, -⟩ := encodeField_ok h
    have hsome := encodeUtf8_dumpsSorted hdump
    rw [hutf, Option.isSome_some, eq_comm, Bool.not_eq_true'] at hsome
    exact ⟨(dumpsSorted_ok hdump).1, hsome⟩
  · rintro ⟨hdepth, hclean⟩
    have hdump : dumpsSorted host.limit v = .ok (render raw (canon v)) := by
      rw [dumpsSorted, dumps, if_neg (by rw [depth_canon]; omega), if_neg]
      rw [intsFit_canon, intsFit_of_wf v hwf]
      exact fun h => h rfl
    have hsome := encodeUtf8_dumpsSorted hdump
    rw [hclean] at hsome
    obtain ⟨bytes, hbytes⟩ := Option.isSome_iff_exists.mp hsome
    refine ⟨b64url bytes, ?_⟩
    simp [encodeField, jcs, hdump, ofJson, bind, Except.bind, utf8, hbytes, pure, Except.pure]

theorem utf8_returns (s : PyStr) : (∃ bytes, utf8 s = .ok bytes) ↔ surrogates s = false := by
  have hsome := encodeUtf8_isSome s
  unfold utf8
  cases hbytes : Utf8.encodeUtf8 s with
  | none | some _ =>
    rw [hbytes] at hsome
    simpa using hsome

theorem surrogates_b64url (bytes : List UInt8) : surrogates (b64url bytes) = false := by
  rw [surrogates, List.any_eq_false]
  intro c hc hsurrogate
  have hascii : c.val < 128 := of_decide_eq_true (b64url_no_bar bytes c hc).2
  simp only [PyChar.isSurrogate, Bool.and_eq_true, decide_eq_true_eq] at hsurrogate
  omega

theorem surrogates_encodeField {v : PyJson} {t : PyStr} (h : encodeField host v = .ok t) : surrogates t = false := by
  obtain ⟨-, bytes, -, -, rfl⟩ := encodeField_ok h
  exact surrogates_b64url bytes

theorem surrogates_message {r o : PyStr} (hr : surrogates r = false) (ho : surrogates o = false) (f : Fields) :
    surrogates (challengeMessage f.realm f.method f.intent r f.expires o) =
      surrogates (f.realm ++ f.method ++ f.intent ++ f.expires) := by
  simp [challengeMessage, PyStr.join, hr, ho]

theorem challengeId_returns (settings : Settings) {f : Fields} (hwf : Wf f.request ∧ Wf f.opaqueMap) :
    (∃ id, challengeId host settings.mppSecretKey f = .ok id) ↔
      writable host f.request ∧ writable host f.opaqueMap ∧
        surrogates (f.realm ++ f.method ++ f.intent ++ f.expires) = false := by
  rw [← encodeField_returns hwf.1, ← encodeField_returns hwf.2]
  constructor
  · rintro ⟨id, h⟩
    obtain ⟨r, o, key, message, hr, ho, -, hmessage, -⟩ := challengeId_ok h
    refine ⟨⟨r, hr⟩, ⟨o, ho⟩, ?_⟩
    have hsome := encodeUtf8_isSome (challengeMessage f.realm f.method f.intent r f.expires o)
    rw [hmessage, surrogates_message (surrogates_encodeField hr) (surrogates_encodeField ho)] at hsome
    simpa using hsome
  · rintro ⟨⟨r, hr⟩, ⟨o, ho⟩, htexts⟩
    obtain ⟨key, hkey⟩ := (utf8_returns settings.mppSecretKey).mpr (surrogates_ofString _)
    rw [← surrogates_message (surrogates_encodeField hr) (surrogates_encodeField ho) f] at htexts
    obtain ⟨message, hmessage⟩ := (utf8_returns _).mpr htexts
    refine ⟨b64url (host.mac key message), ?_⟩
    simp [challengeId, wireFields, hr, ho, hkey, hmessage, bind, Except.bind, pure, Except.pure]

theorem parseIso_returns (s : PyStr) : (∃ r, parseIso host s = .ok r) ↔ outOfRange host s = false := by
  by_cases hempty : s = []
  · subst hempty
    exact ⟨fun _ => rfl, fun _ => ⟨none, rfl⟩⟩
  · unfold parseIso outOfRange
    rw [if_neg hempty]
    cases fromisoformat (replaceZ s) with
    | none => simp
    | some stamp =>
      cases hutc : toUtc host.zone stamp with
      | ok t => simp [hutc]
      | error e =>
        simp only [hutc]
        cases e.isValueError <;> simp

/-! ## When validation returns -/

theorem documented_reject {code : ℤ} {message : PyStr} (h : code = mppMalformedCredential ∨ code = mppVerifyFailed) :
    Documented (reject code message) := .inr ⟨code, message, rfl, h⟩

theorem checkExpiry_documented (now : Now) (p : Presented) (c : Challenge) (expires : Option ℤ) :
    Documented (checkExpiry host settings now p c expires) := by
  cases expires with
  | none => exact documented_reject (.inr rfl)
  | some e =>
    simp only [checkExpiry]
    split
    · split_ifs
      · exact documented_reject (.inr rfl)
      · exact documented_reject (.inr rfl)
      · split
        · exact documented_reject (.inl rfl)
        · exact .inl ⟨_, rfl⟩
    · exact documented_reject (.inr rfl)

/-- the binding and the terms: what comes back is documented, and what is raised has a cause the input shows -/
theorem checkChallenge_returns {toolCostUsdc : ℤ} {now : Now} {p : Presented} {c : Challenge}
    (hwf : Wf c.request ∧ Wf c.opaqueMap) :
    (∃ r, checkChallenge host settings toolCostUsdc now p c = .ok r ∧ Documented r) ↔
      SafeChallenge host settings toolCostUsdc c := by
  constructor
  · rintro ⟨r, h, -⟩
    obtain ⟨expected, hexpected, h⟩ := bind_eq_ok h
    obtain ⟨hrequest, hopaque, htexts⟩ := (challengeId_returns settings hwf).mp ⟨expected, hexpected⟩
    have hascii : c.id.all PyChar.isAscii := by
      by_contra hnot
      rw [if_pos hnot] at h
      cases h
    refine ⟨hrequest, hopaque, htexts, hascii, ?_⟩
    intro hgenuine hterms
    have hid : ¬ c.id ≠ expected := not_not.mpr (Except.ok.inj (hgenuine.symm.trans hexpected))
    rw [if_neg (not_not.mpr hascii), if_neg hid, hterms] at h
    obtain ⟨expires, hexpires, -⟩ := bind_eq_ok h
    exact (parseIso_returns c.expires).mp ⟨expires, hexpires⟩
  · intro hsafe
    obtain ⟨expected, hexpected⟩ := (challengeId_returns settings hwf).mpr ⟨hsafe.request, hsafe.opaqueMap, hsafe.texts⟩
    simp only [checkChallenge, hexpected, bind, Except.bind, hsafe.id, not_true, if_false]
    by_cases hid : c.id = expected
    · rw [if_neg (not_not.mpr hid)]
      cases hterms : termsError host settings toolCostUsdc c.toFields with
      | some message => exact ⟨_, rfl, documented_reject (.inr rfl)⟩
      | none =>
        rw [← hid] at hexpected
        obtain ⟨expires, hexpires⟩ := (parseIso_returns c.expires).mpr (hsafe.expiry hexpected hterms)
        simp only [hexpires]
        exact ⟨_, rfl, checkExpiry_documented now p c expires⟩
    · rw [if_pos hid]
      exact ⟨_, rfl, documented_reject (.inr rfl)⟩

theorem challengeFields_returns (challenge : PyJson) : (∃ r, challengeFields host challenge = .ok r) ↔
    tooDeepField host (get challenge "request") = false ∧ tooDeepField host (get challenge "opaque") = false := by
  rw [← decodeField_returns, ← decodeField_returns]
  constructor
  · rintro ⟨r, h⟩
    obtain ⟨request, hrequest, h⟩ := bind_eq_ok h
    obtain ⟨opaqueMap, hopaque, -⟩ := bind_eq_ok h
    exact ⟨⟨request, hrequest⟩, ⟨opaqueMap, hopaque⟩⟩
  · rintro ⟨⟨request, hrequest⟩, ⟨opaqueMap, hopaque⟩⟩
    simp only [challengeFields, hrequest, hopaque, bind, bind, pure, pure]
    exact ⟨_, rfl⟩

theorem validate_returns {toolCostUsdc : ℤ} {now : Now} {credential : PyJson} (hwf : Wf credential) :
    (∃ r, validateMppCredential host settings toolCostUsdc now credential = .ok r ∧ Documented r) ↔
      SafeCredential host settings toolCostUsdc credential := by
  unfold validateMppCredential SafeCredential
  cases hp : presented credential with
  | error message =>
    constructor
    · intro _ p hcontra
      cases hcontra
    · intro _
      exact ⟨_, rfl, documented_reject (.inl rfl)⟩
  | ok p =>
    simp only [ok.injEq, forall_eq']
    constructor
    · rintro ⟨r, h, hdoc⟩
      obtain ⟨fields, hfields, h⟩ := bind_eq_ok h
      obtain ⟨hrequest, hopaque⟩ := (challengeFields_returns p.challenge).mp ⟨fields, hfields⟩
      refine ⟨hrequest, hopaque, ?_⟩
      intro c hc
      obtain rfl : fields = some c := ok.inj (hfields.symm.trans hc)
      exact (checkChallenge_returns (carries_wf hwf ⟨p, hp, hc⟩)).mp ⟨r, h, hdoc⟩
    · rintro ⟨hrequest, hopaque, hsafe⟩
      obtain ⟨fields, hfields⟩ := (challengeFields_returns p.challenge).mpr ⟨hrequest, hopaque⟩
      simp only [hfields, bind, bind]
      cases fields with
      | none => exact ⟨_, rfl, documented_reject (.inl rfl)⟩
      | some c => exact (checkChallenge_returns (carries_wf hwf ⟨p, hp, hfields⟩)).mpr (hsafe c hfields)

theorem parsePaymentAuthorization_returns (header : Option PyStr) :
    (∃ v, parsePaymentAuthorization host header = .ok v) ↔ SafeHeader host header := by
  unfold parsePaymentAuthorization SafeHeader
  obtain ⟨scheme, rest, token⟩ := PyStr.partition ' ' (PyStr.strip (header.getD []))
  simp only
  by_cases hscheme : PyStr.lower host.wide scheme = PyStr.ofString "payment"
  · have hid : (loadsField host (PyStr.strip token)).map (fun v => v) = loadsField host (PyStr.strip token) := by
      cases loadsField host (PyStr.strip token) <;> rfl
    rw [if_neg (not_not.mpr hscheme), ← rescue_returns (fun v => v) (.obj []), hid]
    simp [hscheme]
  · simp [hscheme]

/-- **When validation returns.** For every JSON value and every header: a documented result comes back exactly for the
inputs that are survived. -/
theorem validation_total_iff (host : Host) (settings : Settings) (toolCostUsdc : ℤ) (now : Now) (credential : PyJson)
    (header : Option PyStr) (hwf : Wf credential) :
    ((∃ r, validateMppCredential host settings toolCostUsdc now credential = .ok r ∧ Documented r) ↔
      SafeCredential host settings toolCostUsdc credential) ∧
    ((∃ v, parsePaymentAuthorization host header = .ok v) ↔ SafeHeader host header) := by
  constructor
  · exact validate_returns hwf
  · exact parsePaymentAuthorization_returns header

/-! ### Two credentials a client can send -/

/-- a credential as JSON text: every field is there, the id and the realm are given -/
def credentialText (id realm : String) : PyStr :=
  PyStr.ofString ("\x7b\"challenge\":\x7b\"id\":\"" ++ id ++ "\",\"realm\":\"" ++ realm ++
    "\",\"method\":\"evm\",\"intent\":\"charge\",\"expires\":\"2026-09-21T14:18:20Z\",\"request\":\x7b\x7d," ++
    "\"opaque\":\x7b\x7d\x7d,\"source\":\"0xb\",\"payload\":\x7b\"type\":\"hash\",\"hash\":\"0x" ++
    "aaaaaaaaaaaaaaaaaaaaaaaaaaaaaaaaaaaaaaaaaaaaaaaaaaaaaaaaaaaaaaaa\"\x7d\x7d")

/-- what `json.loads` makes of such a text -/
def credentialOf (id realm : PyStr) : PyJson :=
  .obj [("challenge", .obj [("id", .str id), ("realm", .str realm), ("method", .str "evm"), ("intent", .str "charge"),
      ("expires", .str "2026-09-21T14:18:20Z"), ("request", .obj []), ("opaque", .obj [])]),
    ("source", .str "0xb"), ("payload", .obj [("type", .str "hash"), ("hash", .str sampleHash)])]

/-- the realm `\ud800`: a lone surrogate -/
def loneSurrogate : PyStr := [⟨0xd800, by decide⟩]

theorem credentialText_loads : loads 10 (credentialText "id" "a|b") = .ok (credentialOf "id" "a|b") ∧
    loads 10 (credentialText "id" "\\ud800") = .ok (credentialOf "id" loneSurrogate) ∧
      loads 10 (credentialText "é" "a") = .ok (credentialOf "é" "a") := by
  simp only [credentialText, PyStr.ofString_append]
  repeat rw [PyStr.ofString_ofList]
  decide +kernel

theorem validation_total_iff_plain :
    (∃ r, validateMppCredential plainHost barSettings 1500 shownAt (credentialOf "id" "a|b") = .ok r ∧ Documented r) ∧
      ∃ v, parsePaymentAuthorization plainHost (some "Payment e30") = .ok v := by
  have hwf : Wf (credentialOf "id" "a|b") :=
    (loads_sound credentialText_loads.1).1
  obtain ⟨hvalid, hheader⟩ :=
    validation_total_iff plainHost barSettings 1500 shownAt (credentialOf "id" "a|b") (some "Payment e30") hwf
  constructor
  · rw [hvalid]
    intro p hp
    have hp' : presented (credentialOf "id" "a|b") = .ok ⟨get (credentialOf "id" "a|b") "challenge", "0xb", sampleHash⟩ := by
      rfl
    obtain rfl := ok.inj (hp'.symm.trans hp)
    refine ⟨by decide +kernel, by decide +kernel, ?_⟩
    intro c hc
    have hc' : challengeFields plainHost (get (credentialOf "id" "a|b") "challenge") =
        .ok (some ⟨⟨"a|b", "evm", "charge", .obj [], "2026-09-21T14:18:20Z", .obj []⟩, "id"⟩) := by rfl
    obtain rfl := Option.some.inj (ok.inj (hc'.symm.trans hc))
    exact ⟨by decide +kernel, by decide +kernel, by decide +kernel, by decide +kernel, fun _ _ => by decide +kernel⟩
  · rw [hheader]
    intro _
    decide +kernel

/-- **Validation is not total.** A lone surrogate in the realm, and a letter outside ASCII in the id. -/
theorem surrogate_realm_raises :
    (loads 10 (credentialText "id" "\\ud800") = .ok (credentialOf "id" loneSurrogate) ∧
      validateMppCredential plainHost barSettings 1500 shownAt (credentialOf "id" loneSurrogate) =
        .error .unicodeEncodeError) ∧
    (loads 10 (credentialText "é" "a") = .ok (credentialOf "é" "a") ∧
      validateMppCredential plainHost barSettings 1500 shownAt (credentialOf "é" "a") = .error .typeError) :=
  ⟨⟨credentialText_loads.2.1, by decide⟩, credentialText_loads.2.2, by decide⟩

end Teardrop.Mpp
