/-
What a challenge's id binds, and the two forms in which a challenge may come back. The id covers a concatenation with `|`
between free texts. It is still unambiguous for what the validator accepts: realm, method and intent are compared with fixed
texts, `request` and `opaque` are base64url, and the expiry is what is left between.
-/
import Teardrop.Mpp.Challenge

namespace Teardrop.Mpp

open Py PyJson Base64 DateTime PyChar PyStr List Except

variable {host : Host} {settings : Settings}

/-! ## Fields as texts -/

/-- the same dict, whatever the order of the keys -/
def Alike (v w : PyJson) : Prop := canon v = canon w

variable {v w : PyJson} {secret : PyStr} {f : Fields} {now : Now} {c : Challenge} {credential : PyJson} {toolCostUsdc : ℤ}
  {nonce payer : PyStr}

variable {t : PyStr} {fields : List (PyStr × PyJson)} {id : PyStr} {g : Fields} {p : Presented}
  {parsed : ParsedMppCredential} {minted : Now} {source : PyStr} {chainId : Option ℕ}

theorem encodeField_ok (h : encodeField host v = .ok t) : ∃ text bytes,
    dumpsSorted host.limit v = .ok text ∧ Utf8.encodeUtf8 text = some bytes ∧ t = b64url bytes := by
  obtain ⟨text, htext, h⟩ := bind_eq_ok h
  obtain ⟨bytes, hbytes, h⟩ := bind_eq_ok h
  refine ⟨text, bytes, ?_, ?_, (ok.inj h).symm⟩
  · unfold jcs ofJson at htext
    split at htext <;> simp_all
  · unfold utf8 at hbytes
    split at hbytes <;> simp_all

theorem encodeField_alike (h : Alike v w) : encodeField host v = encodeField host w := by
  simp [encodeField, jcs, dumpsSorted, show canon v = canon w from h]

theorem alike_of_encodeField (hv : Wf v) (hw : Wf w) (htv : encodeField host v = .ok t) (htw : encodeField host w = .ok t) :
    Alike v w := by
  obtain ⟨text₁, bytes₁, hdump₁, hutf₁, hb₁⟩ := encodeField_ok htv
  obtain ⟨text₂, bytes₂, hdump₂, hutf₂, hb₂⟩ := encodeField_ok htw
  have hbytes : bytes₂ = bytes₁ := b64url_inj (hb₂.symm.trans hb₁)
  rw [hbytes] at hutf₂
  have htext : text₁ = text₂ := Utf8.encodeUtf8_inj hutf₁ hutf₂
  rw [← htext] at hdump₂
  exact dumpsSorted_inj hv hw hdump₁ hdump₂

/-- a text has no `|` -/
theorem encodeField_no_bar (h : encodeField host v = .ok t) : ofChar '|' ∉ t := by
  obtain ⟨-, bytes, -, -, rfl⟩ := encodeField_ok h
  intro hmem
  exact (b64url_no_bar bytes _ hmem).1 rfl

/-- **The text form is read as the object it was made from**, its keys in order. -/
theorem decodeField_text (hwf : Wf (.obj fields)) (h : encodeField host (.obj fields) = .ok t) :
    decodeField host (.str t) = .ok (some (canon (.obj fields))) := by
  obtain ⟨text, bytes, hdump, hutf, rfl⟩ := encodeField_ok h
  have hloads := loadsBytes_dumpsSorted hwf hdump hutf
  have hfield : loadsField host (b64url bytes) = .ok (canon (.obj fields)) := by
    unfold loadsField
    rw [b64urlDecode_b64url]
    show ofJson (loadsBytes host.limit bytes) = _
    rw [hloads]
    rfl
  have hne : b64url bytes ≠ [] := by
    intro hnil
    have hdecoded := b64urlDecode_b64url bytes
    rw [hnil] at hdecoded
    have hempty : bytes = [] := (ok.inj hdecoded).symm
    have htext := Utf8.decodeUtf8_encodeUtf8 hutf
    obtain ⟨c, rest, -, hhead⟩ := render_obj_head ⟨false, true⟩ ((canonFields fields).insertionSort (fun a b => a.1 ≤ b.1))
    rw [hempty, (dumpsSorted_ok hdump).2.2, canon, hhead] at htext
    cases htext
  rw [decodeField, if_neg hne, hfield]
  rfl

theorem loadsField_sound {text : PyStr} (h : loadsField host text = .ok v) : Sound host.limit v := by
  obtain ⟨bytes, -, hjson⟩ := bind_eq_ok h
  have hbytes : loadsBytes host.limit bytes = .ok v := by
    unfold ofJson at hjson
    split at hjson <;> simp_all
  unfold loadsBytes at hbytes
  split at hbytes
  · exact loads_sound hbytes
  · cases hbytes

theorem rescue_ok {α : Type} {x : Call α} {other a : α} (h : rescue x other = .ok a) : x = .ok a ∨ a = other := by
  cases x with
  | ok b => exact Or.inl h
  | error e =>
    simp only [rescue] at h
    split_ifs at h
    exact Or.inr (ok.inj h).symm

theorem decodeField_wf (hv : Wf v) (h : decodeField host v = .ok (some w)) : Wf w ∧ w.isDict := by
  cases v with
  | obj fields =>
    cases h
    exact ⟨hv, rfl⟩
  | str text =>
    simp only [decodeField] at h
    split_ifs at h
    · cases h
    · rcases rescue_ok h with h | h
      · cases hload : loadsField host text with
        | error e =>
          rw [hload] at h
          cases h
        | ok u =>
          rw [hload] at h
          simp only [Except.map, Except.ok.injEq] at h
          split_ifs at h with hdict
          cases h
          exact ⟨(loadsField_sound hload).1, hdict⟩
      · cases h
  | null | bool _ | int _ | float _ | arr _ => cases h

/-! ## What the message says -/

/-- free text up to a `|` -/
theorem split_first_bar {a b x y : PyStr} (ha : ofChar '|' ∉ a) (hb : ofChar '|' ∉ b)
    (h : a ++ ofChar '|' :: x = b ++ ofChar '|' :: y) : a = b ∧ x = y := by
  induction a generalizing b with
  | nil =>
    cases b with
    | nil => exact ⟨rfl, (cons.inj h).2⟩
    | cons d b => exact absurd (by simp [(cons.inj h).1]) hb
  | cons c a ih =>
    cases b with
    | nil => exact absurd (by simp [(cons.inj h).1]) ha
    | cons d b =>
      obtain ⟨rfl, htail⟩ := cons.inj h
      obtain ⟨rfl, rfl⟩ := ih (fun hc => ha (by simp [hc])) (fun hc => hb (by simp [hc])) htail
      exact ⟨rfl, rfl⟩

/-- free text after the last `|` -/
theorem split_last_bar {a b x y : PyStr} (ha : ofChar '|' ∉ a) (hb : ofChar '|' ∉ b)
    (h : x ++ ofChar '|' :: a = y ++ ofChar '|' :: b) : a = b ∧ x = y := by
  have hrev := congrArg reverse h
  simp only [reverse_append, reverse_cons, append_assoc, singleton_append] at hrev
  obtain ⟨h1, h2⟩ := split_first_bar (by simpa using ha) (by simpa using hb) hrev
  exact ⟨reverse_injective h1, reverse_injective h2⟩

theorem challengeMessage_inj {realm method intent r r' e e' o o' : PyStr} (hr : ofChar '|' ∉ r)
    (hr' : ofChar '|' ∉ r') (ho : ofChar '|' ∉ o) (ho' : ofChar '|' ∉ o')
    (h : challengeMessage realm method intent r e o = challengeMessage realm method intent r' e' o') :
    r = r' ∧ e = e' ∧ o = o' := by
  have hbar : ofString "|" = [ofChar '|'] := rfl
  simp only [challengeMessage, join, hbar, append_assoc, append_cancel_left_eq, singleton_append,
    cons.injEq, true_and, nil_append] at h
  obtain ⟨h1, h2⟩ := split_first_bar hr hr' h
  obtain ⟨h3, h4⟩ := split_last_bar (x := e ++ [ofChar '|']) (y := e' ++ [ofChar '|']) ho ho' (by simpa using h2)
  exact ⟨h1, append_cancel_right h4, h3⟩

/-- one id, one message: what an id commits to, for a fixed realm, method and intent -/
structure SameFields (f g : Fields) : Prop where
  realm : f.realm = g.realm
  method : f.method = g.method
  intent : f.intent = g.intent
  request : Alike f.request g.request
  expires : f.expires = g.expires
  opaqueMap : Alike f.opaqueMap g.opaqueMap

theorem challengeId_ok (h : challengeId host secret f = .ok id) :
    ∃ request opaqueText key message, encodeField host f.request = .ok request ∧
      encodeField host f.opaqueMap = .ok opaqueText ∧ Utf8.encodeUtf8 secret = some key ∧
      Utf8.encodeUtf8 (challengeMessage f.realm f.method f.intent request f.expires opaqueText) = some message ∧
      id = b64url (host.mac key message) := by
  obtain ⟨⟨request, opaqueText⟩, hwire, h⟩ := bind_eq_ok h
  obtain ⟨r, hr, hwire⟩ := bind_eq_ok hwire
  obtain ⟨o, ho, hwire⟩ := bind_eq_ok hwire
  cases hwire
  obtain ⟨key, hkey, h⟩ := bind_eq_ok h
  obtain ⟨message, hmessage, h⟩ := bind_eq_ok h
  have hutf : ∀ {s : PyStr} {bytes : List UInt8}, utf8 s = .ok bytes → Utf8.encodeUtf8 s = some bytes := by
    intro s bytes hs
    unfold utf8 at hs
    split at hs <;> simp_all
  exact ⟨request, opaqueText, key, message, hr, ho, hutf hkey, hutf hmessage, (ok.inj h).symm⟩

theorem sameFields_of_message {r o r' o' : PyStr} (hr : encodeField host f.request = .ok r)
    (ho : encodeField host f.opaqueMap = .ok o) (hr' : encodeField host g.request = .ok r')
    (ho' : encodeField host g.opaqueMap = .ok o')
    (h : challengeMessage f.realm f.method f.intent r f.expires o = challengeMessage g.realm g.method g.intent r' g.expires o')
    (hwf : Wf f.request ∧ Wf f.opaqueMap) (hwg : Wf g.request ∧ Wf g.opaqueMap) (hrealm : f.realm = g.realm)
    (hmethod : f.method = g.method) (hintent : f.intent = g.intent) : SameFields f g := by
  rw [← hrealm, ← hmethod, ← hintent] at h
  obtain ⟨rfl, hexpires, rfl⟩ := challengeMessage_inj (encodeField_no_bar hr) (encodeField_no_bar hr')
    (encodeField_no_bar ho) (encodeField_no_bar ho') h
  exact ⟨hrealm, hmethod, hintent, alike_of_encodeField hwf.1 hwg.1 hr hr', hexpires,
    alike_of_encodeField hwf.2 hwg.2 ho ho'⟩

/-- **One id, one tuple of fields**, for a realm, a method and an intent that agree. -/
theorem sameFields_of_challengeId (hmac : ∀ key, Function.Injective (host.mac key))
    (hf : challengeId host secret f = .ok id) (hg : challengeId host secret g = .ok id)
    (hwf : Wf f.request ∧ Wf f.opaqueMap) (hwg : Wf g.request ∧ Wf g.opaqueMap) (hrealm : f.realm = g.realm)
    (hmethod : f.method = g.method) (hintent : f.intent = g.intent) : SameFields f g := by
  obtain ⟨r, o, key, message, hr, ho, hkey, hmessage, hid⟩ := challengeId_ok hf
  obtain ⟨r', o', key', message', hr', ho', hkey', hmessage', hid'⟩ := challengeId_ok hg
  have hkeys : key' = key := Option.some.inj (hkey'.symm.trans hkey)
  rw [hkeys] at hid'
  have hbytes : message' = message := hmac key (b64url_inj (hid'.symm.trans hid))
  rw [hbytes] at hmessage'
  exact sameFields_of_message hr ho hr' ho' (Utf8.encodeUtf8_inj hmessage hmessage') hwf hwg hrealm hmethod hintent

/-! ## What an accepted credential carries -/

/-- the challenge inside a credential -/
def Carries (host : Host) (credential : PyJson) (c : Challenge) : Prop :=
  ∃ p, presented credential = .ok p ∧ challengeFields host p.challenge = .ok (some c)

/-- what held when the binding, the terms and the expiry were checked -/
structure Accepted (host : Host) (settings : Settings) (now : Now) (toolCostUsdc : ℤ) (c : Challenge) (source txHash : PyStr)
    (parsed : ParsedMppCredential) (expires : ℤ) : Prop where
  bound : challengeId host settings.mppSecretKey c.toFields = .ok c.id
  terms : termsError host settings toolCostUsdc c.toFields = none
  expiry : parseIso host c.expires = .ok (some expires)
  alive : (now.micros : ℤ) < expires
  near : expires ≤ (now.micros + (settings.mppChallengeTtlSeconds + 60) * 1000000 : ℕ)
  issued : get c.opaqueMap "iat" = .int parsed.issuedAt
  payer : sourceAddress host source (mppChainId settings) = some parsed.payer
  hash : parsed.txHash = PyStr.lower host.wide txHash
  id : parsed.challengeId = c.id

theorem checkExpiry_accepted {expires : Option ℤ}
    (h : checkExpiry host settings now p c expires = (some parsed, none, none)) :
    ∃ e, expires = some e ∧ (now.micros : ℤ) < e ∧
      e ≤ (now.micros + (settings.mppChallengeTtlSeconds + 60) * 1000000 : ℕ) ∧
      get c.opaqueMap "iat" = .int parsed.issuedAt ∧
      sourceAddress host p.source (mppChainId settings) = some parsed.payer ∧
      parsed.txHash = lower host.wide p.txHash ∧ parsed.challengeId = c.id := by
  cases expires with
  | none => cases h
  | some e =>
    simp only [checkExpiry] at h
    split at h
    · rename_i issuedAt hiat
      split_ifs at h with hexpired hfar
      · cases h
      · cases h
      · split at h
        · cases h
        · rename_i payer hpayer
          cases h
          exact ⟨e, rfl, by omega, by omega, hiat, hpayer, rfl, rfl⟩
    · cases h

theorem validate_accepted
    (h : validateMppCredential host settings toolCostUsdc now credential = .ok (some parsed, none, none)) :
    ∃ p c expires, presented credential = .ok p ∧ challengeFields host p.challenge = .ok (some c) ∧
      Accepted host settings now toolCostUsdc c p.source p.txHash parsed expires := by
  unfold validateMppCredential at h
  split at h
  · cases h
  · rename_i p hp
    obtain ⟨fields, hfields, h⟩ := bind_eq_ok h
    cases fields with
    | none => cases h
    | some c =>
      obtain ⟨expected, hexpected, h⟩ := bind_eq_ok h
      split_ifs at h with hascii hid
      · cases h
      · rw [not_not] at hid
        rw [← hid] at hexpected
        split at h
        · cases h
        · rename_i hterms
          obtain ⟨expires, hexpires, h⟩ := bind_eq_ok h
          obtain ⟨e, rfl, hlow, hhigh, hiat, hpayer, hhash, hsame⟩ := checkExpiry_accepted (ok.inj h)
          exact ⟨p, c, e, hp, hfields, hexpected, hterms, hexpires, hlow, hhigh, hiat, hpayer, hhash, hsame⟩

theorem wf_get (h : Wf v) (k : String) : Wf (get v k) := by
  unfold get
  cases hget : v.get? k with
  | none => trivial
  | some w => exact wf_get? h hget

theorem presented_challenge (h : presented credential = .ok p) :
    p.challenge = get credential "challenge" ∧ p.challenge.isDict := by
  unfold presented at h
  split_ifs at h
  simp only at h
  split at h
  · split_ifs at h with hstructure
    split at h
    · split_ifs at h
      cases h
      refine ⟨rfl, ?_⟩
      by_contra hdict
      exact hstructure (Or.inl hdict)
    · cases h
  · cases h

theorem challengeFields_ok {challenge : PyJson} (h : challengeFields host challenge = .ok (some c)) :
    decodeField host (get challenge "request") = .ok (some c.request) ∧
      decodeField host (get challenge "opaque") = .ok (some c.opaqueMap) ∧
      getStr challenge "id" = some c.id ∧ getStr challenge "realm" = some c.realm ∧
      getStr challenge "method" = some c.method ∧ getStr challenge "intent" = some c.intent ∧
      getStr challenge "expires" = some c.expires := by
  obtain ⟨request, hrequest, h⟩ := bind_eq_ok h
  obtain ⟨opaqueMap, hopaque, h⟩ := bind_eq_ok h
  have h := ok.inj h
  simp only [Option.bind_eq_bind, Option.bind_eq_some_iff, Option.pure_def, Option.some.injEq] at h
  obtain ⟨r, rfl, o, rfl, id, hid, realm, hrealm, method, hmethod, intent, hintent, expires, hexpires, rfl⟩ := h
  exact ⟨hrequest, hopaque, hid, hrealm, hmethod, hintent, hexpires⟩

theorem carries_wf (hwf : Wf credential) (h : Carries host credential c) : Wf c.request ∧ Wf c.opaqueMap := by
  obtain ⟨p, hp, hc⟩ := h
  have hchallenge : Wf p.challenge := by
    rw [(presented_challenge hp).1]
    exact wf_get hwf _
  obtain ⟨hrequest, hopaque, -⟩ := challengeFields_ok hc
  exact ⟨(decodeField_wf (wf_get hchallenge _) hrequest).1, (decodeField_wf (wf_get hchallenge _) hopaque).1⟩

theorem termsError_none (h : termsError host settings toolCostUsdc f = none) :
    f.realm = ofString settings.appHost ∧ f.method = mppMethod ∧ f.intent = mppIntent := by
  unfold termsError at h
  simp only at h
  split_ifs at h with hnames
  simp only [not_or, not_not] at hnames
  exact ⟨hnames.2.2, hnames.1, hnames.2.1⟩

/-! ## A minted challenge comes back -/

theorem build_ok (h : buildMppChallenge host settings toolCostUsdc now nonce = .ok c) :
    c.toFields = chargeFields settings toolCostUsdc now nonce ∧
      challengeId host settings.mppSecretKey c.toFields = .ok c.id := by
  obtain ⟨id, hid, h⟩ := bind_eq_ok h
  cases h
  exact ⟨rfl, hid⟩

/-- numbers, texts and the like: values without keys -/
def isScalar : PyJson → Bool
  | .arr _ => false
  | .obj _ => false
  | _ => true

theorem eq_of_canon_scalar (hw : isScalar w) (h : canon v = canon w) : v = w := by
  cases v <;> cases w <;> simp_all [canon, isScalar]

theorem get?_alike {x : PyJson} (hv : Wf v) (hw : Wf w) (h : Alike v w) {k : PyStr} (hx : isScalar x)
    (hget : w.get? k = some x) : v.get? k = some x := by
  have hmembers : (v.get? k).map canon = some (canon x) := by
    rw [← get?_canon hv, show canon v = canon w from h, get?_canon hw, hget]
    rfl
  obtain ⟨y, hy, hcanon⟩ := Option.map_eq_some_iff.mp hmembers
  rw [hy, eq_of_canon_scalar hx hcanon]

theorem get?_alike_dict (hv : Wf v) (hw : Wf w) (h : Alike v w) {k : PyStr} (hget : w.get? k = some (.obj fields)) :
    ∃ d, v.get? k = some d ∧ d.isDict ∧ Wf d ∧ Alike d (.obj fields) := by
  have hmembers : (v.get? k).map canon = some (canon (.obj fields)) := by
    rw [← get?_canon hv, show canon v = canon w from h, get?_canon hw, hget]
    rfl
  obtain ⟨d, hd, hcanon⟩ := Option.map_eq_some_iff.mp hmembers
  refine ⟨d, hd, ?_, wf_get? hv hd, hcanon⟩
  cases d <;> simp_all [canon, isDict]

theorem chainJson_wf {id : Option ℕ} (h : intsFit (chainJson id)) : Wf (chainJson id) := by
  cases id with
  | none => trivial
  | some n =>
    rw [chainJson, intsFit, decide_eq_true_eq] at h
    exact h

theorem chargeRequest_wf (h : intsFit (chargeRequest settings toolCostUsdc)) : Wf (chargeRequest settings toolCostUsdc) := by
  have hkeys : (["amount", "currency", "recipient", "methodDetails"].map ofString).Nodup := by decide
  have hdetails : (["chainId", "credentialTypes", "decimals", "permit2Address"].map ofString).Nodup := by decide
  simp only [chargeRequest, intsFit, intsFitFields, Bool.and_eq_true, Bool.true_and, decide_eq_true_eq] at h
  obtain ⟨⟨hchain, -, hdecimals, -⟩, -⟩ := h
  refine ⟨hkeys, trivial, trivial, trivial, ⟨hdetails, chainJson_wf hchain, ⟨trivial, trivial⟩, ?_, trivial, trivial⟩, trivial⟩
  exact hdecimals

theorem opaque_wf {iat : ℤ} (h : intsFit (.obj [("iat", .int iat), ("nonce", .str nonce)])) :
    Wf (.obj [("iat", .int iat), ("nonce", .str nonce)]) := by
  have hkeys : (["iat", "nonce"].map ofString).Nodup := by decide
  simp only [intsFit, intsFitFields, Bool.and_eq_true, Bool.true_and, decide_eq_true_eq] at h
  refine ⟨hkeys, ?_, trivial, trivial⟩
  exact h.1

theorem chargeFields_wf (h : challengeId host secret (chargeFields settings toolCostUsdc now nonce) = .ok id) :
    Wf (chargeFields settings toolCostUsdc now nonce).request ∧
      Wf (chargeFields settings toolCostUsdc now nonce).opaqueMap := by
  obtain ⟨r, o, _, _, hr, ho, -⟩ := challengeId_ok h
  obtain ⟨_, _, hrequest, -⟩ := encodeField_ok hr
  obtain ⟨_, _, hopaque, -⟩ := encodeField_ok ho
  exact ⟨chargeRequest_wf (dumpsSorted_ok hrequest).2.1, opaque_wf (dumpsSorted_ok hopaque).2.1⟩

/-- **The terms of a minted challenge match**, whatever the order of its keys. -/
theorem termsError_of_same (host : Host) (hwf : Wf f.request) (hminted : Wf (chargeRequest settings toolCostUsdc))
    (h : SameFields f (chargeFields settings toolCostUsdc now nonce)) : termsError host settings toolCostUsdc f = none := by
  have hterm : ∀ (k : String) (s : PyStr), (chargeRequest settings toolCostUsdc).get? k = some (.str s) →
      termText host f.request k = s := by
    intro k s hget
    rw [termText, get?_alike hwf hminted h.request rfl hget]
    rfl
  have hamount := hterm "amount" _ rfl
  have hcurrency := hterm "currency" _ rfl
  have hrecipient := hterm "recipient" _ rfl
  obtain ⟨d, hd, hdict, hwfd, halike⟩ := get?_alike_dict (k := "methodDetails") hwf hminted h.request rfl
  have hdetails := wf_get? (k := "methodDetails") hminted rfl
  have hchain : d.get? "chainId" = some (chainJson (mppChainId settings)) := by
    refine get?_alike hwfd hdetails halike ?_ rfl
    cases mppChainId settings <;> rfl
  have hsame : eqChain (chainJson (mppChainId settings)) (mppChainId settings) := by
    cases mppChainId settings with
    | none => rfl
    | some id => simp [chainJson, eqChain]
  have hnames : ¬ (f.method ≠ mppMethod ∨ f.intent ≠ mppIntent ∨ f.realm ≠ ofString settings.appHost) := by
    simp only [not_or, not_not]
    exact ⟨h.method, h.intent, h.realm⟩
  simp only [termsError, if_neg hnames, hamount, hcurrency, hrecipient, get, hd, hchain, hdict, hsame, Option.getD_some]
  simp

theorem expiryMicros_lt (settings : Settings) (now : Now) : expiryMicros settings now < endOfTime := by
  have hsane := now.sane
  have httl := settings.ttl_ok
  simp only [expiryMicros]
  omega

theorem isoText_ne_nil (micros : ℕ) : isoText micros ≠ [] := by
  intro h
  have hlen := congrArg length h
  simp [isoText] at hlen

/-- the expiry a minted challenge names: its whole second -/
def expirySecond (settings : Settings) (now : Now) : ℕ := expiryMicros settings now / 1000000 * 1000000

theorem parseIso_minted (now : Now) :
    parseIso host (isoText (expiryMicros settings now)) = .ok (some (expirySecond settings now : ℤ)) := by
  obtain ⟨t, ht, hutc⟩ := toUtc_isoText host.zone (expiryMicros_lt settings now)
  rw [parseIso, if_neg (isoText_ne_nil _), ht]
  simp only [hutc]
  rfl

theorem challengeId_same (h : SameFields f g) : challengeId host secret f = challengeId host secret g := by
  simp only [challengeId, wireFields, encodeField_alike h.request, encodeField_alike h.opaqueMap, h.realm, h.method,
    h.intent, h.expires]

theorem challengeId_ascii (h : challengeId host secret f = .ok id) : id.all isAscii := by
  obtain ⟨_, _, key, message, -, -, -, -, rfl⟩ := challengeId_ok h
  rw [all_eq_true]
  exact fun c hc => (b64url_no_bar _ c hc).2

/-- **Acceptance.** The fields of a minted challenge under its id, presented from its issue until its expiry. -/
theorem checkChallenge_accepts {c' : Challenge} (hbuild : buildMppChallenge host settings toolCostUsdc minted nonce = .ok c)
    (hsame : SameFields c'.toFields c.toFields) (hid : c'.id = c.id) (hwf : Wf c'.request ∧ Wf c'.opaqueMap)
    (hpayer : sourceAddress host p.source (mppChainId settings) = some payer) (hstart : minted.micros ≤ now.micros)
    (hend : now.micros < expirySecond settings minted) :
    checkChallenge host settings toolCostUsdc now p c' =
      .ok (some ⟨lower host.wide p.txHash, payer, c.id, (minted.micros / 1000000 : ℕ)⟩, none, none) := by
  obtain ⟨hfields, hbound⟩ := build_ok hbuild
  have hmint := hbound
  rw [hfields] at hsame hmint
  obtain ⟨hrequest, hopaque⟩ := chargeFields_wf hmint
  have hbound' : challengeId host settings.mppSecretKey c'.toFields = .ok c'.id := by
    rw [challengeId_same hsame, hmint, hid]
  have hterms := termsError_of_same host hwf.1 hrequest hsame
  have hiat : get c'.opaqueMap "iat" = .int (minted.micros / 1000000 : ℕ) := by
    have hget := get?_alike (k := "iat") (x := .int (minted.micros / 1000000 : ℕ)) hwf.2 hopaque hsame.opaqueMap rfl rfl
    rw [get, hget]
    rfl
  have hexpires : parseIso host c'.expires = .ok (some (expirySecond settings minted : ℤ)) := by
    rw [hsame.expires]
    exact parseIso_minted minted
  have halive : ¬ (expirySecond settings minted : ℤ) ≤ now.micros := by omega
  have hnear : ¬ ((now.micros + (settings.mppChallengeTtlSeconds + 60) * 1000000 : ℕ) : ℤ) <
      (expirySecond settings minted : ℤ) := by
    simp only [expirySecond, expiryMicros]
    omega
  have hascii := challengeId_ascii hbound'
  have hexpiry : checkExpiry host settings now p c' (some (expirySecond settings minted : ℤ)) =
      (some ⟨lower host.wide p.txHash, payer, c.id, (minted.micros / 1000000 : ℕ)⟩, none, none) := by
    simp only [checkExpiry, hiat, if_neg halive, if_neg hnear, hpayer, hid]
  simp only [checkChallenge, hbound', bind, Except.bind, hascii, not_true, if_false, ne_eq, hterms, hexpires, hexpiry,
    pure, Except.pure]

/-- the native object, or `request` and `opaque` as the texts of the `WWW-Authenticate` header -/
inductive Form where
  | native
  | header

/-- `request` and `opaque` of a challenge in a form -/
def presentedFields (host : Host) (f : Fields) : Form → Call (PyJson × PyJson)
  | .native => .ok (f.request, f.opaqueMap)
  | .header => (wireFields host f).map (fun w => (.str w.1, .str w.2))

/-- a credential that presents a challenge, with the hash of a transfer and the source of its payer -/
structure Presents (host : Host) (form : Form) (c : Challenge) (txHash source : PyStr) (credential : PyJson) : Prop where
  dict : credential.isDict = true
  source : credential.get? "source" = some (.str source)
  payload : ∃ payload, credential.get? "payload" = some payload ∧ payload.isDict = true ∧
    payload.get? "type" = some (.str "hash") ∧ payload.get? "hash" = some (.str txHash)
  challenge : ∃ challenge request opaqueMap, credential.get? "challenge" = some challenge ∧ challenge.isDict = true ∧
    presentedFields host c.toFields form = .ok (request, opaqueMap) ∧
    challenge.get? "request" = some request ∧ challenge.get? "opaque" = some opaqueMap ∧
    challenge.get? "id" = some (.str c.id) ∧ challenge.get? "realm" = some (.str c.realm) ∧
    challenge.get? "method" = some (.str c.method) ∧ challenge.get? "intent" = some (.str c.intent) ∧
    challenge.get? "expires" = some (.str c.expires)

variable {form : Form}

/-- **Transport.** Either form is decoded to the minted fields, up to the order of keys. -/
theorem decode_presented {fs gs : List (PyStr × PyJson)} {request opaqueMap : PyJson} (hfs : f.request = .obj fs)
    (hgs : f.opaqueMap = .obj gs) (hwf : Wf f.request ∧ Wf f.opaqueMap)
    (h : presentedFields host f form = .ok (request, opaqueMap)) :
    ∃ r o, decodeField host request = .ok (some r) ∧ decodeField host opaqueMap = .ok (some o) ∧ Alike r f.request ∧
      Alike o f.opaqueMap ∧ Wf r ∧ Wf o := by
  cases form with
  | native =>
    obtain ⟨rfl, rfl⟩ : f.request = request ∧ f.opaqueMap = opaqueMap := by simpa [presentedFields] using h
    refine ⟨f.request, f.opaqueMap, ?_, ?_, rfl, rfl, hwf.1, hwf.2⟩
    · rw [hfs, decodeField]
    · rw [hgs, decodeField]
  | header =>
    obtain ⟨⟨r, o⟩, hwire, hforms⟩ := except_map_ok h
    obtain ⟨rfl, rfl⟩ : PyJson.str r = request ∧ PyJson.str o = opaqueMap := by simpa using hforms
    obtain ⟨r', hr, hwire⟩ := bind_eq_ok hwire
    obtain ⟨o', ho, hwire⟩ := bind_eq_ok hwire
    obtain ⟨rfl, rfl⟩ : r' = r ∧ o' = o := by simpa [pure, Except.pure] using hwire
    rw [hfs] at hr hwf ⊢
    rw [hgs] at ho hwf ⊢
    exact ⟨_, _, decodeField_text hwf.1 hr, decodeField_text hwf.2 ho, canon_canon _, canon_canon _, wf_canon _ hwf.1,
      wf_canon _ hwf.2⟩

theorem get_of_get? {k : String} (h : v.get? k = some w) : get v k = w := by
  rw [get, h]
  rfl

theorem source_not_blank (h : sourceAddress host source chainId = some payer) : strip source ≠ [] := by
  intro hblank
  rw [sourceAddress, hblank] at h
  exact absurd h (by simp [lower, ofString, isHexText])

theorem presented_of_presents {txHash : PyStr} (h : Presents host form c txHash source credential)
    (hhash : isHexText 64 txHash) (hpayer : sourceAddress host source chainId = some payer) :
    presented credential = .ok ⟨get credential "challenge", source, txHash⟩ := by
  obtain ⟨payload, hpayload, hdict, htype, hhashField⟩ := h.payload
  obtain ⟨challenge, _, _, hchallenge, hchallengeDict, -⟩ := h.challenge
  have hblank := source_not_blank hpayer
  simp only [presented, h.dict, get_of_get? h.source, get_of_get? hpayload, get_of_get? hchallenge, hdict, hchallengeDict,
    get_of_get? htype, get_of_get? hhashField, hhash, hblank]
  simp

/-- **A minted challenge comes back.** In either form, with one and the same outcome. -/
theorem validate_accepts {txHash : PyStr} (hbuild : buildMppChallenge host settings toolCostUsdc minted nonce = .ok c)
    (hpresents : Presents host form c txHash source credential) (hhash : isHexText 64 txHash)
    (hpayer : sourceAddress host source (mppChainId settings) = some payer) (hstart : minted.micros ≤ now.micros)
    (hend : now.micros < expirySecond settings minted) :
    validateMppCredential host settings toolCostUsdc now credential =
      .ok (some ⟨lower host.wide txHash, payer, c.id, (minted.micros / 1000000 : ℕ)⟩, none, none) := by
  have hpresented := presented_of_presents hpresents hhash hpayer
  obtain ⟨challenge, request, opaqueMap, hchallenge, -, hform, hrequest, hopaque, hid, hrealm, hmethod, hintent, hexpires⟩ :=
    hpresents.challenge
  obtain ⟨hfields, hbound⟩ := build_ok hbuild
  have hwf : Wf c.request ∧ Wf c.opaqueMap := by
    rw [hfields] at hbound ⊢
    exact chargeFields_wf hbound
  obtain ⟨r, o, hr, ho, hralike, hoalike, hrwf, howf⟩ := decode_presented (congrArg Fields.request hfields)
    (congrArg Fields.opaqueMap hfields) hwf hform
  have hread : challengeFields host (get credential "challenge") =
      .ok (some ⟨⟨c.realm, c.method, c.intent, r, c.expires, o⟩, c.id⟩) := by
    rw [get_of_get? hchallenge, challengeFields]
    simp only [get_of_get? hrequest, get_of_get? hopaque, hr, ho, getStr, get_of_get? hid, get_of_get? hrealm,
      get_of_get? hmethod, get_of_get? hintent, get_of_get? hexpires]
    rfl
  rw [validateMppCredential, hpresented]
  simp only [hread, bind, bind]
  exact checkChallenge_accepts hbuild ⟨rfl, rfl, rfl, hralike, rfl, hoalike⟩ rfl ⟨hrwf, howf⟩ hpayer hstart hend

theorem sameFields_of_id (hmac : ∀ key, Function.Injective (host.mac key)) (hv : Wf v) (hw : Wf w) {price₁ price₂ : ℤ}
    {now₁ now₂ : Now} {p q : ParsedMppCredential}
    (hp : validateMppCredential host settings price₁ now₁ v = .ok (some p, none, none))
    (hq : validateMppCredential host settings price₂ now₂ w = .ok (some q, none, none))
    (hid : p.challengeId = q.challengeId) :
    ∃ c d, Carries host v c ∧ Carries host w d ∧ SameFields c.toFields d.toFields := by
  obtain ⟨x, c, _, hx, hc, hac⟩ := validate_accepted hp
  obtain ⟨y, d, _, hy, hd, had⟩ := validate_accepted hq
  have hids : c.id = d.id := hac.id.symm.trans (hid.trans had.id)
  have hbound := had.bound
  rw [← hids] at hbound
  obtain ⟨hrealm, hmethod, hintent⟩ := termsError_none hac.terms
  obtain ⟨hrealm', hmethod', hintent'⟩ := termsError_none had.terms
  refine ⟨c, d, ⟨x, hx, hc⟩, ⟨y, hy, hd⟩, sameFields_of_challengeId hmac hac.bound hbound (carries_wf hv ⟨x, hx, hc⟩)
    (carries_wf hw ⟨y, hy, hd⟩) ?_ ?_ ?_⟩
  · rw [hrealm, hrealm']
  · rw [hmethod, hmethod']
  · rw [hintent, hintent']

theorem sameFields_of_minted (hmac : ∀ key, Function.Injective (host.mac key)) (hv : Wf v) {price₁ price₂ : ℤ}
    {p : ParsedMppCredential} {m : Challenge}
    (hp : validateMppCredential host settings price₁ now v = .ok (some p, none, none))
    (hm : buildMppChallenge host settings price₂ minted nonce = .ok m) (hid : p.challengeId = m.id) :
    ∃ c, Carries host v c ∧ SameFields c.toFields m.toFields := by
  obtain ⟨x, c, _, hx, hc, hac⟩ := validate_accepted hp
  obtain ⟨hfields, hbound⟩ := build_ok hm
  have hids : c.id = m.id := hac.id.symm.trans hid
  obtain ⟨hrealm, hmethod, hintent⟩ := termsError_none hac.terms
  rw [hfields] at hbound ⊢
  rw [← hids] at hbound
  exact ⟨c, ⟨x, hx, hc⟩, sameFields_of_challengeId hmac hac.bound hbound (carries_wf hv ⟨x, hx, hc⟩)
    (chargeFields_wf hbound) hrealm hmethod hintent⟩

/-- **Binding and transport.** A minted challenge, presented from its issue until its expiry in either form, is accepted at
its price and gives the same credential in both forms. Under an injective HMAC an accepted credential whose id the server
gave out carries the fields of a challenge the server minted, and no two accepted tuples of fields share an id. -/
theorem challenge_binding (host : Host) (settings : Settings) :
    (∀ (form : Form) (toolCostUsdc : ℤ) (minted now : Now) (nonce txHash source payer : PyStr) (c : Challenge)
      (credential : PyJson), buildMppChallenge host settings toolCostUsdc minted nonce = .ok c →
      Presents host form c txHash source credential → isHexText 64 txHash = true →
      sourceAddress host source (mppChainId settings) = some payer → minted.micros ≤ now.micros →
      now.micros < expirySecond settings minted →
      validateMppCredential host settings toolCostUsdc now credential =
        .ok (some ⟨PyStr.lower host.wide txHash, payer, c.id, (minted.micros / 1000000 : ℕ)⟩, none, none)) ∧
    ((∀ key, Function.Injective (host.mac key)) → (∀ given : Set Challenge,
        (∀ m ∈ given, ∃ toolCostUsdc minted nonce, buildMppChallenge host settings toolCostUsdc minted nonce = .ok m) →
        ∀ (credential : PyJson) (toolCostUsdc : ℤ) (now : Now) (p : ParsedMppCredential), Wf credential →
        validateMppCredential host settings toolCostUsdc now credential = .ok (some p, none, none) →
        (∃ m ∈ given, p.challengeId = m.id) →
        ∃ m ∈ given, ∃ c, Carries host credential c ∧ SameFields c.toFields m.toFields) ∧
      (∀ (v w : PyJson) (price₁ price₂ : ℤ) (now₁ now₂ : Now) (p q : ParsedMppCredential), Wf v → Wf w →
        validateMppCredential host settings price₁ now₁ v = .ok (some p, none, none) →
        validateMppCredential host settings price₂ now₂ w = .ok (some q, none, none) → p.challengeId = q.challengeId →
        ∃ c d, Carries host v c ∧ Carries host w d ∧ SameFields c.toFields d.toFields)) := by
  refine ⟨?_, fun hmac => ⟨?_, ?_⟩⟩
  · intro form toolCostUsdc minted now nonce txHash source payer c credential hbuild hpresents hhash hpayer hstart hend
    exact validate_accepts hbuild hpresents hhash hpayer hstart hend
  · intro given hgiven credential toolCostUsdc now p hwf haccepted hid
    obtain ⟨m, hm, hid⟩ := hid
    obtain ⟨price, minted, nonce, hbuild⟩ := hgiven m hm
    obtain ⟨c, hcarries, hsame⟩ := sameFields_of_minted hmac hwf haccepted hbuild hid
    exact ⟨m, hm, c, hcarries, hsame⟩
  · intro v w price₁ price₂ now₁ now₂ p q hv hw hp hq hid
    exact sameFields_of_id hmac hv hw hp hq hid

/-! ### A challenge and its return -/

/-- an interpreter with ten levels left, ASCII case rules, a UTC host, and a tag that is the message -/
def plainHost : Host where
  limit := 10
  wide := fun c => [c]
  repr := fun _ => []
  zone := fun t => .ok t
  mac := fun _ message => message

/-- a host name with a `|` in it -/
def barSettings : Settings where
  appHost := "a|b"
  mppCurrency := "0x833589fCD6eDb6E08f4c7C32D4f71b54bdA02913"
  mppRecipient := "0x00000000000000000000000000000000000000aa"
  mppSecretKey := "0123456789abcdef0123456789abcdef"
  x402Network := "eip155:8453"
  mppChallengeTtlSeconds := 300
  ttl_ok := by decide

def atMicros (micros : ℕ) (h : micros + 7200000000 < endOfTime) : Now := ⟨micros, h⟩

def mintedAt : Now := atMicros 1790000000123456 (by decide)

def shownAt : Now := atMicros 1790000100000000 (by decide)

/-- the object `build_mpp_challenge` returns -/
def Challenge.native (c : Challenge) : PyJson :=
  .obj [("realm", .str c.realm), ("method", .str c.method), ("intent", .str c.intent), ("request", c.request),
    ("expires", .str c.expires), ("opaque", c.opaqueMap), ("id", .str c.id)]

def sampleHash : PyStr := PyStr.ofString "0x" ++ List.replicate 64 (PyChar.ofChar 'a')

def samplePayer : PyStr := PyStr.ofString "0x" ++ List.replicate 40 (PyChar.ofChar 'b')

def nativeCredential (c : Challenge) : PyJson :=
  .obj [("challenge", c.native), ("payload", .obj [("type", .str "hash"), ("hash", .str sampleHash)]),
    ("source", .str samplePayer)]

theorem nativeCredential_wf (h : Wf c.request ∧ Wf c.opaqueMap) : Wf (nativeCredential c) := by
  have hkeys : (["challenge", "payload", "source"].map ofString).Nodup := by decide
  have hpayload : (["type", "hash"].map ofString).Nodup := by decide
  have hchallenge : (["realm", "method", "intent", "request", "expires", "opaque", "id"].map ofString).Nodup := by
    decide
  exact ⟨hkeys, ⟨hchallenge, trivial, trivial, trivial, h.1, trivial, h.2, trivial, trivial⟩,
    ⟨hpayload, trivial, trivial, trivial⟩, trivial, trivial⟩

theorem challenge_binding_native : ∃ c, buildMppChallenge plainHost barSettings 1500 mintedAt "n" = .ok c ∧
    validateMppCredential plainHost barSettings 1500 shownAt (nativeCredential c) =
      .ok (some ⟨sampleHash, samplePayer, c.id, 1790000000⟩, none, none) ∧
    ∃ d, Carries plainHost (nativeCredential c) d ∧ SameFields d.toFields c.toFields := by
  have hok : (buildMppChallenge plainHost barSettings 1500 mintedAt "n").isOk := by decide +kernel
  cases hbuild : buildMppChallenge plainHost barSettings 1500 mintedAt "n" with
  | error e =>
    rw [hbuild] at hok
    cases hok
  | ok c =>
    have hpresents : Presents plainHost .native c sampleHash samplePayer (nativeCredential c) :=
      ⟨rfl, rfl, ⟨_, rfl, rfl, rfl, rfl⟩, ⟨_, _, _, rfl, rfl, rfl, rfl, rfl, rfl, rfl, rfl, rfl, rfl⟩⟩
    have haccepted := (challenge_binding plainHost barSettings).1 .native 1500 mintedAt shownAt "n" sampleHash samplePayer
      samplePayer c (nativeCredential c) hbuild hpresents (by decide) (by decide) (by decide) (by decide)
    obtain ⟨hfields, hbound⟩ := build_ok hbuild
    have hwf : Wf c.request ∧ Wf c.opaqueMap := by
      rw [hfields] at hbound ⊢
      exact chargeFields_wf hbound
    obtain ⟨m, rfl, d, hcarries, hsame⟩ := ((challenge_binding plainHost barSettings).2 (fun _ _ _ h => h)).1 {c}
      (fun m hm => ⟨1500, mintedAt, "n", by rw [Set.mem_singleton_iff.mp hm]; exact hbuild⟩) (nativeCredential c) 1500 shownAt _
      (nativeCredential_wf hwf) haccepted ⟨c, rfl, rfl⟩
    exact ⟨m, rfl, haccepted, d, hcarries, hsame⟩

end Teardrop.Mpp
