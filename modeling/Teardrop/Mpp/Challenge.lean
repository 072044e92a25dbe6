/-
MPP `evm` charge challenges and credentials: `billing/mpp.py` down to `validate_mpp_credential`.

A challenge carries realm, method, intent, request, expiry and opaque data, and an id: the HMAC of
`realm|method|intent|request|expires|digest|opaque`, with `request` and `opaque` as base64url of their sorted compact JSON and the
digest empty. Texts are Python strings (lone surrogates included), JSON values are what `json.loads` makes. What the
interpreter and the platform decide is the parameter `Host`: the levels of recursion left, `str.lower` above ASCII, `str` of
lists and dicts, the host's time zone, and the HMAC.
-/
import Teardrop.Core.Base64Url
import Teardrop.Core.DateTime
import Teardrop.Core.JsonDict

namespace Teardrop.Mpp

open Py PyJson Base64 DateTime

/-! ## Settings and host -/

/-- the fields of `Settings` a challenge depends on, with what the configuration validates -/
structure Settings where
  appHost : String
  mppCurrency : String
  mppRecipient : String
  mppSecretKey : String
  x402Network : String
  mppChallengeTtlSeconds : ℕ
  ttl_ok : 30 ≤ mppChallengeTtlSeconds ∧ mppChallengeTtlSeconds ≤ 3600

structure Host where
  /-- levels of recursion the interpreter has left -/
  limit : ℕ
  /-- `str.lower` of a character above ASCII -/
  wide : PyChar → PyStr
  /-- `str` of a list or a dict -/
  repr : PyJson → PyStr
  /-- the UTC instant of a local time -/
  zone : ℤ → Call ℤ
  /-- HMAC-SHA256 of a message under a key -/
  mac : List UInt8 → List UInt8 → List UInt8

/-- a reading of the server's clock, in microseconds since 1970, up to the last hours of the year 9999 -/
structure Now where
  micros : ℕ
  sane : micros + 7200000000 < endOfTime

/-- the EIP-155 chain id of `eip155:<id>` -/
def mppChainId (settings : Settings) : Option ℕ :=
  let (scheme, _, reference) := PyStr.partition ':' settings.x402Network
  if scheme = PyStr.ofString "eip155" ∧ reference ≠ [] ∧ reference.all PyChar.isDigit then
    some (natOf (reference.map toChar))
  else none

/-! ## Fields and ids -/

def ofJson {α : Type} : Except JsonError α → Call α
  | .ok a => .ok a
  | .error .recursion => .error .recursionError
  | .error .decode => .error (.valueError "JSONDecodeError")
  | .error .digits => .error (.valueError "Exceeds the limit for integer string conversion")

/-- `str.encode("utf-8")` -/
def utf8 (s : PyStr) : Call (List UInt8) :=
  match Utf8.encodeUtf8 s with
  | some bytes => .ok bytes
  | none => .error .unicodeEncodeError

def jcs (host : Host) (v : PyJson) : Call PyStr := ofJson (dumpsSorted host.limit v)

def encodeField (host : Host) (v : PyJson) : Call PyStr := do
  let text ← jcs host v
  let bytes ← utf8 text
  return b64url bytes

/-- `json.loads(_b64url_decode(text))` -/
def loadsField (host : Host) (text : PyStr) : Call PyJson := do
  let bytes ← b64urlDecode text
  ofJson (loadsBytes host.limit bytes)

/-- `except (ValueError, TypeError)`: what is raised inside becomes `other` -/
def rescue {α : Type} (x : Call α) (other : α) : Call α :=
  match x with
  | .ok a => .ok a
  | .error e => if e.isValueError || e = .typeError then .ok other else .error e

/-- the native object, or the base64url text of one -/
def decodeField (host : Host) : PyJson → Call (Option PyJson)
  | .obj fields => .ok (some (.obj fields))
  | .str text =>
    if text = [] then .ok none
    else rescue ((loadsField host text).map (fun v => if v.isDict then some v else none)) none
  | _ => .ok none

def challengeMessage (realm method intent request expires opaqueText : PyStr) : PyStr :=
  PyStr.join "|" [realm, method, intent, request, expires, [], opaqueText]

/-- what a challenge is bound to -/
structure Fields where
  realm : PyStr
  method : PyStr
  intent : PyStr
  request : PyJson
  expires : PyStr
  opaqueMap : PyJson

/-- `request` and `opaque` as ids and headers carry them -/
def wireFields (host : Host) (f : Fields) : Call (PyStr × PyStr) := do
  let request ← encodeField host f.request
  let opaqueText ← encodeField host f.opaqueMap
  return (request, opaqueText)

def challengeId (host : Host) (secret : PyStr) (f : Fields) : Call PyStr := do
  let (request, opaqueText) ← wireFields host f
  let key ← utf8 secret
  let message ← utf8 (challengeMessage f.realm f.method f.intent request f.expires opaqueText)
  return b64url (host.mac key message)

/-! ## Challenges -/

structure Challenge extends Fields where
  id : PyStr

def mppMethod : PyStr := "evm"

def mppIntent : PyStr := "charge"

def usdcDecimals : ℤ := 6

def permit2Address : PyStr := "0x000000000022D473030F116dDEE9F6B43aC78BA3"

def chainJson : Option ℕ → PyJson
  | some id => .int id
  | none => .null

/-- the request of a challenge for a price in atomic USDC -/
def chargeRequest (settings : Settings) (toolCostUsdc : ℤ) : PyJson :=
  .obj [("amount", .str (renderInt toolCostUsdc)), ("currency", .str (PyStr.strip settings.mppCurrency)),
    ("recipient", .str (PyStr.strip settings.mppRecipient)),
    ("methodDetails", .obj [("chainId", chainJson (mppChainId settings)), ("credentialTypes", .arr [.str "hash"]),
      ("decimals", .int usdcDecimals),
      ("permit2Address", .str permit2Address)])]

/-- when a challenge minted at `now` ends -/
def expiryMicros (settings : Settings) (now : Now) : ℕ := now.micros + settings.mppChallengeTtlSeconds * 1000000

/-- the fields of a challenge minted at `now`; `nonce` is `secrets.token_urlsafe(9)` -/
def chargeFields (settings : Settings) (toolCostUsdc : ℤ) (now : Now) (nonce : PyStr) : Fields where
  realm := settings.appHost
  method := mppMethod
  intent := mppIntent
  request := chargeRequest settings toolCostUsdc
  expires := isoText (expiryMicros settings now)
  opaqueMap := .obj [("iat", .int (now.micros / 1000000 : ℕ)), ("nonce", .str nonce)]

def buildMppChallenge (host : Host) (settings : Settings) (toolCostUsdc : ℤ) (now : Now) (nonce : PyStr) : Call Challenge := do
  let fields := chargeFields settings toolCostUsdc now nonce
  let id ← challengeId host settings.mppSecretKey fields
  return ⟨fields, id⟩

def headerParam (p : PyStr × PyStr) : PyStr := p.1 ++ (['=', '"'] : PyStr) ++ p.2 ++ (['"'] : PyStr)

/-- the HTTP form of a challenge -/
def mppWwwAuthenticate (host : Host) (c : Challenge) : Call PyStr := do
  let (request, opaqueText) ← wireFields host c.toFields
  let params : List (PyStr × PyStr) :=
    [("id", c.id), ("realm", c.realm), ("method", c.method), ("intent", c.intent), ("request", request),
      ("expires", c.expires), ("opaque", opaqueText)]
  return PyStr.ofString "Payment " ++ PyStr.join ", " (params.map headerParam)

/-! ## Credentials -/

/-- the credential of an `Authorization: Payment <base64url JSON>` header: `None` under another scheme, `{}` for a token
that cannot be decoded -/
def parsePaymentAuthorization (host : Host) (header : Option PyStr) : Call PyJson :=
  let (scheme, _, token) := PyStr.partition ' ' (PyStr.strip (header.getD []))
  if PyStr.lower host.wide scheme ≠ "payment" then .ok .null
  else rescue (loadsField host (PyStr.strip token)) (.obj [])

/-- `_parse_iso`: a `ValueError` gives `None`, an `OverflowError` is raised -/
def parseIso (host : Host) (value : PyStr) : Call (Option ℤ) :=
  if value = [] then .ok none
  else match fromisoformat (replaceZ value) with
    | none => .ok none
    | some stamp =>
      match toUtc host.zone stamp with
      | .ok t => .ok (some t)
      | .error e => if e.isValueError then .ok none else .error e

def isHexDigit (c : PyChar) : Bool :=
  c.isDigit || ('a'.toNat ≤ c.val && c.val ≤ 'f'.toNat) || ('A'.toNat ≤ c.val && c.val ≤ 'F'.toNat)

/-- `0x` and `n` hexadecimal digits -/
def isHexText (n : ℕ) (s : PyStr) : Bool :=
  s.take 2 = PyStr.ofString "0x" && s.length = n + 2 && (s.drop 2).all isHexDigit

/-- `str(chain_id)` -/
def chainText : Option ℕ → PyStr
  | some id => renderNat id
  | none => "None"

/-- the payer of `0x…` or `did:pkh:eip155:<chainId>:0x…`, in lower case -/
def sourceAddress (host : Host) (source : PyStr) (chainId : Option ℕ) : Option PyStr :=
  let value := PyStr.strip source
  let address := fun v : PyStr => if isHexText 40 v then some (PyStr.lower host.wide v) else none
  if (PyStr.ofString "did:pkh:eip155:").isPrefixOf (PyStr.lower host.wide value) then
    match PyStr.split ':' value with
    | [_, _, _, chain, v] => if chain = chainText chainId then address v else none
    | _ => none
  else address value

structure ParsedMppCredential where
  txHash : PyStr
  payer : PyStr
  challengeId : PyStr
  issuedAt : ℤ
deriving DecidableEq

def mppMalformedCredential : ℤ := -32602

def mppVerifyFailed : ℤ := -32043

/-- `(parsed, None, None)` or `(None, code, message)` -/
abbrev Outcome := Option ParsedMppCredential × Option ℤ × Option PyStr

def reject (code : ℤ) (message : PyStr) : Outcome := (none, some code, some message)

def get (v : PyJson) (k : String) : PyJson := (v.get? k).getD .null

/-- `str(v)` -/
def strOf (host : Host) : PyJson → PyStr
  | .null => "None"
  | .bool b => if b then "True" else "False"
  | .int n => renderInt n
  | .float (.inf negative) => if negative then "-inf" else "inf"
  | .float .nan => "nan"
  | .float x => renderFloat x
  | .str s => s
  | v => host.repr v

/-- `v == chain_id`: Python compares numbers and truth values by value -/
def eqChain : PyJson → Option ℕ → Bool
  | .null, none => true
  | .int n, some id => n = id
  | .bool b, some id => id = if b then 1 else 0
  | .float (.finite negative k), some id => Double.units k = id * 2 ^ 1074 && (!negative || id = 0)
  | _, _ => false

/-- what a credential presents, once it has the right structure -/
structure Presented where
  challenge : PyJson
  source : PyStr
  txHash : PyStr

/-- the structure of a credential, or the message that refuses it -/
def presented (credential : PyJson) : Except PyStr Presented :=
  if ¬ credential.isDict then .error "Credential must be an object."
  else
    let challenge := get credential "challenge"
    let payload := get credential "payload"
    match get credential "source" with
    | .str source =>
      if ¬ challenge.isDict ∨ ¬ payload.isDict ∨ PyStr.strip source = [] then
        .error "Credential missing challenge, payload, or source."
      else match get payload "hash" with
        | .str txHash =>
          if get payload "type" = .str "hash" ∧ isHexText 64 txHash then .ok ⟨challenge, source, txHash⟩
          else .error "Only type=\"hash\" credentials with a 0x transaction hash are accepted."
        | _ => .error "Only type=\"hash\" credentials with a 0x transaction hash are accepted."
    | _ => .error "Credential missing challenge, payload, or source."

/-- a string field -/
def getStr (v : PyJson) (k : String) : Option PyStr :=
  match get v k with
  | .str s => some s
  | _ => none

/-- the fields of a presented challenge; `none` when one is missing -/
def challengeFields (host : Host) (challenge : PyJson) : Call (Option Challenge) := do
  let request ← decodeField host (get challenge "request")
  let opaqueMap ← decodeField host (get challenge "opaque")
  return do
    let request ← request
    let opaqueMap ← opaqueMap
    let id ← getStr challenge "id"
    let realm ← getStr challenge "realm"
    let method ← getStr challenge "method"
    let intent ← getStr challenge "intent"
    let expires ← getStr challenge "expires"
    return ⟨⟨realm, method, intent, request, expires, opaqueMap⟩, id⟩

/-- `str(request.get(key, ""))` -/
def termText (host : Host) (request : PyJson) (k : String) : PyStr := ((request.get? k).map (strOf host)).getD []

/-- realm, method, intent and payment terms: the message of the first that is wrong -/
def termsError (host : Host) (settings : Settings) (toolCostUsdc : ℤ) (f : Fields) : Option PyStr :=
  let same := fun (a b : PyStr) => PyStr.lower host.wide a = PyStr.lower host.wide b
  let details := get f.request "methodDetails"
  if f.method ≠ mppMethod ∨ f.intent ≠ mppIntent ∨ f.realm ≠ PyStr.ofString settings.appHost then
    some "Unsupported challenge realm, method, or intent."
  else if termText host f.request "amount" ≠ renderInt toolCostUsdc then
    some "Challenge amount does not match the tool price."
  else if ¬ same (termText host f.request "currency") (PyStr.strip settings.mppCurrency) then
    some "Challenge currency does not match."
  else if ¬ same (termText host f.request "recipient") (PyStr.strip settings.mppRecipient) then
    some "Challenge recipient does not match."
  else if ¬ details.isDict ∨ ¬ eqChain (get details "chainId") (mppChainId settings) then
    some "Challenge chain does not match."
  else none

/-- expiry, issue time and payer, after the terms -/
def checkExpiry (host : Host) (settings : Settings) (now : Now) (p : Presented) (c : Challenge) : Option ℤ → Outcome
  | none => reject mppVerifyFailed "Challenge expiry or issue time is invalid."
  | some expires =>
    match get c.opaqueMap "iat" with
    | .int issuedAt =>
      if expires ≤ now.micros then reject mppVerifyFailed "Challenge expired."
      else if (now.micros + (settings.mppChallengeTtlSeconds + 60) * 1000000 : ℕ) < expires then
        reject mppVerifyFailed "Challenge expiry is too far in the future."
      else match sourceAddress host p.source (mppChainId settings) with
        | none => reject mppMalformedCredential (PyStr.ofString "source must be a 0x address or did:pkh:eip155:" ++
            chainText (mppChainId settings) ++ PyStr.ofString ":<address>.")
        | some payer => (some ⟨PyStr.lower host.wide p.txHash, payer, c.id, issuedAt⟩, none, none)
    | _ => reject mppVerifyFailed "Challenge expiry or issue time is invalid."

/-- the binding of a complete challenge, then its terms, then its expiry -/
def checkChallenge (host : Host) (settings : Settings) (toolCostUsdc : ℤ) (now : Now) (p : Presented) (c : Challenge) :
    Call Outcome := do
  let expected ← challengeId host settings.mppSecretKey c.toFields
  -- `hmac.compare_digest` refuses a text that is not ASCII
  if ¬ c.id.all PyChar.isAscii then .error .typeError
  else if c.id ≠ expected then return reject mppVerifyFailed "Challenge was not issued by this server."
  else match termsError host settings toolCostUsdc c.toFields with
    | some message => return reject mppVerifyFailed message
    | none => return checkExpiry host settings now p c (← parseIso host c.expires)

def validateMppCredential (host : Host) (settings : Settings) (toolCostUsdc : ℤ) (now : Now) (credential : PyJson) :
    Call Outcome :=
  match presented credential with
  | .error message => .ok (reject mppMalformedCredential message)
  | .ok p => do
    match ← challengeFields host p.challenge with
    | none => return reject mppMalformedCredential "Challenge is missing required fields."
    | some c => checkChallenge host settings toolCostUsdc now p c

end Teardrop.Mpp
