/-
Webhook calls: `WebhookCaller.call_get` of `shared/webhook.py`, and what `aiohttp` and `json.loads` do for it.

A session connects as its connector's resolver says, except that a literal address is connected to as it stands, and it
follows redirects (up to `maxFollowed`). A `World` fixes what one call meets: the DNS answers at validation, the addresses
tried at each request, where each response redirects to, and how the exchange as a whole ends.
-/
import Teardrop.Tools.SsrfGuard

namespace Teardrop.Webhook

open Py IpAddress Ssrf

/-! ## The outside world -/

/-- what a session is asked to send; `arguments` are the query of a GET, the JSON body of a POST or PUT -/
structure Request where
  method : PyStr
  url : PyStr
  headers : List (PyStr × PyStr)
  arguments : List (PyStr × PyJson)

/-- the name of an exception's type: never one of the error types that `call_get` makes up -/
abbrev TypeName := { name : PyStr // name ≠ PyStr.ofString "ssrf_blocked" ∧ name ≠ PyStr.ofString "decrypt_failure" }

/-- how the exchange ends: `asyncio.TimeoutError`, another exception (with whether it is an `aiohttp.ClientError`, and its
type's name), or a response -/
inductive Exchange where
  | timedOut
  | failed (clientError : Bool) (name : TypeName)
  | answered (status : ℕ) (contentType : PyStr) (body : List UInt8)

/-- how a session resolves names: by itself, or from the pinned addresses of one host -/
inductive Connector where
  | standard
  | pinned (hostname : PyStr) (ips : List PyStr)

structure World where
  urls : Urls
  /-- the DNS answers at the validation -/
  dns : PyStr → Lookup
  /-- the DNS answers a session without a connector gets -/
  resolve : PyStr → Family → Option (List PyStr)
  /-- the address family asked of the resolver at request `k` of the chain -/
  family : ℕ → Family
  /-- which of the offered addresses are tried at request `k` -/
  picks : ℕ → List ℕ
  /-- where the response to request `k` for a URL redirects to -/
  redirect : ℕ → PyStr → Option PyStr
  exchange : Request → Exchange
  /-- `decrypt_header_value`, unless it raises -/
  decryptHeader : PyStr → Option PyStr
  /-- `is_breaker_tripped` of the tool, when the call begins -/
  tripped : Bool
  /-- the interpreter's recursion limit -/
  limit : ℕ
  /-- `bytes.decode("utf-8", errors="replace")` -/
  utf8 : List UInt8 → PyStr
  typeName : Exc → PyStr

/-- what `json.loads(body)` gives: a value, `JSONDecodeError`, or another exception by its type's name -/
inductive Loaded where
  | value (v : PyJson)
  | jsonDecodeError
  | raised (name : PyStr)
deriving DecidableEq

def jsonLoads (limit : ℕ) (body : List UInt8) : Loaded :=
  match Utf8.decodeJson body with
  | none => .raised "UnicodeDecodeError"
  | some s =>
    match PyJson.loads limit s with
    | .ok v => .value v
    | .error .decode => .jsonDecodeError
    | .error .digits => .raised "ValueError"
    | .error .recursion => .raised "RecursionError"

/-- `sub in s` -/
def contains (sub : PyStr) : PyStr → Bool
  | [] => sub = []
  | c :: cs => sub.isPrefixOf (c :: cs) || contains sub cs

/-! ## A session -/

/-- one request of a chain: its URL, and the texts of the addresses connected to -/
structure Sent where
  url : PyStr
  connections : List PyStr
deriving DecidableEq

/-- `aiohttp`'s `max_redirects` -/
def maxFollowed : ℕ := 10

def resolver (w : World) : Connector → PyStr → Family → Option (List PyStr)
  | .standard => w.resolve
  | .pinned hostname ips => resolvePinned hostname ips

/-- request `k` for a URL and, if it connects, the requests its redirects lead to, `n` at most -/
def follow (w : World) (connector : Connector) : ℕ → ℕ → PyStr → List Sent
  | 0, _, _ => []
  | n + 1, k, url =>
    let made := connections (resolver w connector) (w.urls.hostname url) (w.family k) (w.picks k)
    ⟨url, made⟩ ::
      if made = [] then []
      else
        match w.redirect k url with
        | none => []
        | some next => follow w connector n (k + 1) next

/-- the requests of `session.get`, `put` or `post` on a URL, redirects followed -/
def sessionSend (w : World) (connector : Connector) (url : PyStr) : List Sent := follow w connector (maxFollowed + 1) 0 url

/-! ## `WebhookCaller` -/

/-- the fields of a `WebhookCaller` -/
structure Caller where
  url : PyStr
  timeoutSeconds : ℕ
  authHeaderName : Option PyStr
  authHeaderEncrypted : Option PyStr
  maxResponseBytes : ℕ

/-- `WebhookCallResult` -/
structure CallResult where
  statusCode : ℕ
  contentType : PyStr
  body : List UInt8

/-- what `call_get` raises: a `WebhookCallError`, or another exception by its type's name -/
inductive CallError where
  | webhook (message errorType : PyStr)
  | other (name : PyStr)

/-- the headers, with the decrypted one if both its name and its value are set; `none` when decrypting raises -/
def requestHeaders (w : World) (authName authEnc : Option PyStr) : Option (List (PyStr × PyStr)) :=
  let headers : List (PyStr × PyStr) := [(PyStr.ofString "Content-Type", PyStr.ofString "application/json")]
  match authName.getD [], authEnc.getD [] with
  | [], _ | _, [] => some headers
  | name, enc => (w.decryptHeader enc).map (fun value => headers.filter (fun header => header.1 ≠ name) ++ [(name, value)])

def timedOutMessage (seconds : ℕ) : PyStr :=
  PyStr.ofString "Webhook timed out after " ++ PyStr.ofString (toString seconds) ++ PyStr.ofString "s"

def failedMessage (name : PyStr) : PyStr := PyStr.ofString "Webhook request failed: " ++ name

def blockedMessage (urlError : PyStr) : PyStr := PyStr.ofString "Webhook URL blocked: " ++ urlError

/-- `WebhookCaller.call_get`, with a connector factory: the result and the requests sent -/
def callGet (w : World) (caller : Caller) (params : List (PyStr × PyJson)) : Except CallError CallResult × List Sent :=
  match validateUrlWithIps w.urls w.dns caller.url with
  | .error e => (.error (.other (w.typeName e)), [])
  | .ok (some urlError, _) => (.error (.webhook (blockedMessage urlError) "ssrf_blocked"), [])
  | .ok (none, resolvedIps) =>
    match requestHeaders w caller.authHeaderName caller.authHeaderEncrypted with
    | none => (.error (.webhook "Failed to decrypt webhook auth header" "decrypt_failure"), [])
    | some headers =>
      let connector := if resolvedIps = [] then .standard else .pinned (w.urls.hostname caller.url) resolvedIps
      let sent := sessionSend w connector caller.url
      match w.exchange ⟨"GET", caller.url, headers, params⟩ with
      | .timedOut => (.error (.webhook (timedOutMessage caller.timeoutSeconds) "timeout"), sent)
      | .failed true name => (.error (.webhook (failedMessage name.val) name.val), sent)
      | .failed false name => (.error (.other name.val), sent)
      | .answered status contentType body => (.ok ⟨status, contentType, body.take caller.maxResponseBytes⟩, sent)

/-! ## Validation -/

theorem ofString_append_ne_nil {s : String} (h : s.toList ≠ []) (t : PyStr) : PyStr.ofString s ++ t ≠ [] := by
  intro hnil
  have hmap : s.toList.map PyChar.ofChar = [] := (List.append_eq_nil_iff.1 hnil).1
  exact h (List.map_eq_nil_iff.1 hmap)

theorem validateUrlWithIps_error {u : Urls} {dns : PyStr → Lookup} {url error : PyStr} {ips : List PyStr}
    (h : validateUrlWithIps u dns url = .ok (some error, ips)) : error ≠ [] := by
  have hdns : ∀ hostname, dnsFailed hostname ≠ [] := fun hostname => ofString_append_ne_nil (by decide) hostname
  have hloop : ∀ addrs ips hostname out, checkAddresses hostname ips addrs = (some error, out) → error ≠ [] := by
    intro addrs
    induction addrs with
    | nil =>
      intro ips hostname out hcheck
      rw [checkAddresses] at hcheck
      split_ifs at hcheck
      · cases hcheck
        exact hdns hostname
      · cases hcheck
    | cons ipStr rest ih =>
      intro ips hostname out hcheck
      rw [checkAddresses] at hcheck
      split_ifs at hcheck
      · cases hcheck
        rw [List.append_assoc, List.append_assoc]
        exact ofString_append_ne_nil (by decide) _
      · exact ih _ hostname out hcheck
      · exact ih _ hostname out hcheck
  unfold validateUrlWithIps at h
  split at h
  · cases h
    decide
  · split_ifs at h
    · cases h
      rw [List.append_assoc]
      exact ofString_append_ne_nil (by decide) _
    · split at h
      · cases h
        decide
      · split at h
        · split_ifs at h
          · cases h
            exact ofString_append_ne_nil (by decide) _
          · cases h
        · split at h
          · cases h
            exact hdns _
          · cases h
          · exact hloop _ _ _ _ (Except.ok.inj h)

/-! ## Where the requests go -/

/-- a host that is spelt as an address, and a blocked one -/
def blockedLiteral (host : PyStr) : Bool := (ipAddress host).isSome && isIpBlocked host

/-- the connections of a chain avoid blocked addresses -/
def Safe (sent : List Sent) : Prop := ∀ s ∈ sent, ∀ c ∈ s.connections, isIpBlocked c = false

instance : DecidablePred Safe := fun sent =>
  inferInstanceAs (Decidable (∀ s ∈ sent, ∀ c ∈ s.connections, isIpBlocked c = false))

/-- over pinned addresses, a request connects to a blocked address exactly when its host is one -/
theorem pinned_safe_iff {w : World} {hostname host : PyStr} {ips : List PyStr} (hips : ∀ ip ∈ ips, isIpBlocked ip = false)
    (family : Family) (picks : List ℕ) :
    (∀ c ∈ connections (resolver w (.pinned hostname ips)) host family picks, isIpBlocked c = false) ↔
      blockedLiteral host = false := by
  unfold blockedLiteral
  constructor
  · intro h
    match haddr : ipAddress host with
    | none => rfl
    | some addr =>
      have hmem : host ∈ connections (resolver w (.pinned hostname ips)) host family picks := by
        rw [connections, haddr]
        exact List.mem_singleton_self host
      rw [h host hmem]
      rfl
  · intro h c hc
    rcases mem_connections hc with ⟨rfl, addr, haddr⟩ | ⟨-, offered, hres, hmem⟩
    · rw [haddr] at h
      simpa using h
    · exact hips c (mem_resolvePinned hres hmem)

/-- **Redirects and pinned connectors.** The chain stays off blocked addresses exactly when none of its requests is for a
blocked literal address. -/
theorem follow_safe_iff {w : World} {hostname : PyStr} {ips : List PyStr} (hips : ∀ ip ∈ ips, isIpBlocked ip = false)
    (n k : ℕ) (url : PyStr) :
    Safe (follow w (.pinned hostname ips) n k url) ↔
      ∀ s ∈ follow w (.pinned hostname ips) n k url, blockedLiteral (w.urls.hostname s.url) = false := by
  induction n generalizing k url with
  | zero => simp [follow, Safe]
  | succ n ih =>
    rw [follow]
    unfold Safe
    rw [List.forall_mem_cons, List.forall_mem_cons]
    refine and_congr (pinned_safe_iff hips _ _) ?_
    split_ifs
    · simp
    · match w.redirect k url with
      | none => simp
      | some next => exact ih (k + 1) next

end Teardrop.Webhook
