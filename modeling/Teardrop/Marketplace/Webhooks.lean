/-
The three wrappers that call a tool's webhook: the org's own tool (`_call_webhook` of `org_tools/runtime.py`), the agent
run's wrapper of a subscribed tool (`_call` of `marketplace/subscriptions.py`) and the MCP path (`execute_marketplace_tool`
of `marketplace/execution.py`), with what each records about the tool's health; and how the MCP gateway tells a failed call.
-/
import Teardrop.Tools.Webhook

namespace Teardrop.Webhooks

open Py IpAddress Ssrf Webhook

/-! ## Tools, results and records -/

/-- the columns of `org_tools` the wrappers read -/
structure Tool where
  id : PyStr
  webhookUrl : PyStr
  webhookMethod : PyStr
  timeoutSeconds : ℕ
  authHeaderName : Option PyStr
  authHeaderEnc : Option PyStr

/-- what a wrapper returns: an `error` of its own (with a `status` key or without), `{"text": …}`, or the webhook's JSON -/
inductive Result where
  | error (message : PyStr) (status : Option ℕ)
  | text (s : PyStr)
  | payload (v : PyJson)
deriving DecidableEq

/-- what a wrapper records: `_on_webhook_failure`, `record_failure`, `record_success`, and the audit event `executed` -/
inductive Effect where
  | onWebhookFailure (errorType : PyStr) (statusCode : Option ℕ)
  | recordFailure
  | recordSuccess
  | recordEvent (status : ℕ)
deriving DecidableEq

/-- a call of a wrapper: its result or the name of the exception it raises, what it recorded, and the requests it sent -/
structure Run where
  ending : Except PyStr Result
  effects : List Effect
  sent : List Sent
deriving DecidableEq

def Run.failed (message : PyStr) (effects : List Effect) (sent : List Sent) : Run := ⟨.ok (.error message none), effects, sent⟩

/-- the result has an `error` key that the wrapper set -/
def Run.SetsError (r : Run) : Prop := ∃ message status, r.ending = .ok (.error message status)

instance (r : Run) : Decidable r.SetsError :=
  match h : r.ending with
  | .ok (.error message status) => isTrue ⟨message, status, h⟩
  | .ok (.text s) => isFalse (by rintro ⟨message, status, h'⟩; rw [h] at h'; cases h')
  | .ok (.payload v) => isFalse (by rintro ⟨message, status, h'⟩; rw [h] at h'; cases h')
  | .error name => isFalse (by rintro ⟨message, status, h'⟩; rw [h] at h'; cases h')

/-- the result has an `error` key at its top level, whoever set it -/
def Result.hasError : Result → Bool
  | .error _ _ => true
  | .text _ => false
  | .payload (.obj fields) => (PyJson.lookup "error" fields).isSome
  | .payload _ => false

def trippedMessage : PyStr := PyStr.ofString "Tool temporarily unavailable (circuit breaker tripped)"

def json : PyStr := PyStr.ofString "application/json"

/-! ## The org's own tool -/

/-- `_MAX_RESPONSE_BYTES` of `org_tools` -/
def maxResponseBytes : ℕ := 50 * 1024

/-- a body as `normalize_webhook_response` returns it: an object, or its value under `value` -/
def responseBody : PyJson → PyJson
  | .obj fields => .obj fields
  | v => .obj [("value", v)]

/-- `normalize_webhook_response`: the body on success, else the error and its type; another exception than `JSONDecodeError`
is raised -/
def normalizeWebhookResponse (w : World) (raw : List UInt8) (contentType : PyStr) (statusCode : ℕ) :
    Except PyStr (PyJson ⊕ PyStr × PyStr) :=
  if ¬ contains json contentType then
    let shown := if contentType = [] then PyStr.ofString "unset" else contentType
    .ok (.inr (PyStr.ofString "Webhook returned non-JSON Content-Type: " ++ shown, "non_json_response"))
  else
    match jsonLoads w.limit (raw.take maxResponseBytes) with
    | .jsonDecodeError => .ok (.inr ("Webhook returned invalid or truncated JSON", "invalid_json"))
    | .raised name => .error name
    | .value parsed =>
      if 400 ≤ statusCode then
        .ok (.inr (PyStr.ofString "Webhook returned HTTP " ++ PyStr.ofString (toString statusCode), "http_error"))
      else .ok (.inl (responseBody parsed))

def callerOf (tool : Tool) (maxBytes : ℕ) : Caller :=
  ⟨tool.webhookUrl, tool.timeoutSeconds, tool.authHeaderName, tool.authHeaderEnc, maxBytes⟩

def handleCallError (message errorType : PyStr) (sent : List Sent) : Run :=
  if errorType = PyStr.ofString "ssrf_blocked" then .failed message [] sent
  else .failed message [.onWebhookFailure errorType none] sent

def callWebhook (w : World) (tool : Tool) (kwargs : List (PyStr × PyJson)) : Run :=
  if w.tripped then .failed trippedMessage [] []
  else
    match callGet w (callerOf tool maxResponseBytes) kwargs with
    | (.error (.webhook message errorType), sent) => handleCallError message errorType sent
    | (.error (.other name), sent) => ⟨.error name, [], sent⟩
    | (.ok result, sent) =>
      match normalizeWebhookResponse w result.body result.contentType result.statusCode with
      | .error name => ⟨.error name, [], sent⟩
      | .ok (.inr (error, errorType)) =>
        ⟨.ok (.error error (some result.statusCode)), [.onWebhookFailure errorType (some result.statusCode)], sent⟩
      | .ok (.inl body) => ⟨.ok (.payload body), [.recordSuccess, .recordEvent result.statusCode], sent⟩

/-! ## The subscribed tool -/

/-- the cap of both marketplace wrappers -/
def marketplaceMaxBytes : ℕ := 512 * 1024

/-- records only for a tool with an id -/
def recorded (tool : Tool) (effects : List Effect) : List Effect := if tool.id = [] then [] else effects

/-- what `_call` makes of a response -/
def readResult (w : World) (tool : Tool) (result : CallResult) (sent : List Sent) : Run :=
  if contains json result.contentType then
    match jsonLoads w.limit result.body with
    | .value v => ⟨.ok (.payload v), recorded tool [.recordSuccess], sent⟩
    | .jsonDecodeError => .failed (failedMessage "JSONDecodeError") (recorded tool [.recordSuccess, .recordFailure]) sent
    | .raised name => .failed (failedMessage name) (recorded tool [.recordSuccess, .recordFailure]) sent
  else ⟨.ok (.text (w.utf8 result.body)), recorded tool [.recordSuccess], sent⟩

/-- `_call` of a wrapper that `_build_marketplace_langchain_tool` built -/
def call (w : World) (tool : Tool) (kwargs : List (PyStr × PyJson)) : Run :=
  if tool.id ≠ [] ∧ w.tripped then .failed trippedMessage [] []
  else
    match callGet w (callerOf tool marketplaceMaxBytes) kwargs with
    | (.error (.webhook message errorType), sent) =>
      if errorType = PyStr.ofString "ssrf_blocked" ∨ errorType = PyStr.ofString "decrypt_failure" then .failed message [] sent
      else .failed message (recorded tool [.recordFailure]) sent
    | (.error (.other name), sent) => .failed (failedMessage name) (recorded tool [.recordFailure]) sent
    | (.ok result, sent) => readResult w tool result sent

/-- `_build_marketplace_langchain_tool` and the builder of org tools raise for a method other than GET -/
def buildable (tool : Tool) : Bool := tool.webhookMethod = PyStr.ofString "GET"

/-! ## The MCP path -/

/-- `session.get`, `put` or `post` -/
def sendMethod (method : PyStr) : PyStr :=
  if method = PyStr.ofString "GET" then "GET" else if method = PyStr.ofString "PUT" then "PUT" else "POST"

/-- what `execute_marketplace_tool` makes of a response: first its content type, then its JSON, then its status -/
def judgeResponse (w : World) (tool : Tool) (status : ℕ) (contentType : PyStr) (body : List UInt8) (sent : List Sent) : Run :=
  if ¬ contains json contentType then
    ⟨.ok (.text (w.utf8 body)), recorded tool [.onWebhookFailure "non_json_response" (some status)], sent⟩
  else
    match jsonLoads w.limit body with
    | .jsonDecodeError =>
      .failed "Webhook returned invalid JSON" (recorded tool [.onWebhookFailure "invalid_json" (some status)]) sent
    | .raised name => .failed (failedMessage name) (recorded tool [.onWebhookFailure name none]) sent
    | .value payload =>
      if 400 ≤ status then
        ⟨.ok (.error (PyStr.ofString "Webhook returned HTTP " ++ PyStr.ofString (toString status)) (some status)),
          recorded tool [.onWebhookFailure "http_error" (some status)], sent⟩
      else ⟨.ok (.payload payload), recorded tool [.recordSuccess, .recordEvent status], sent⟩

def executeMarketplaceTool (w : World) (tool : Tool) (arguments : List (PyStr × PyJson)) : Run :=
  if tool.id ≠ [] ∧ w.tripped then .failed trippedMessage [] []
  else
    match validateUrlWithIps w.urls w.dns tool.webhookUrl with
    | .error e => ⟨.error (w.typeName e), [], []⟩
    | .ok (urlErr, validatedIps) =>
      if urlErr.getD [] ≠ [] then .failed (blockedMessage (urlErr.getD [])) [] []
      else
        match requestHeaders w tool.authHeaderName tool.authHeaderEnc with
        | none => .failed "Failed to decrypt webhook auth header" (recorded tool [.onWebhookFailure "decrypt_failure" none]) []
        | some headers =>
          let sent := sessionSend w (.pinned (w.urls.hostname tool.webhookUrl) validatedIps) tool.webhookUrl
          match w.exchange ⟨sendMethod tool.webhookMethod, tool.webhookUrl, headers, arguments⟩ with
          | .timedOut =>
            .failed (timedOutMessage tool.timeoutSeconds) (recorded tool [.onWebhookFailure "timeout" none]) sent
          | .failed _ name => .failed (failedMessage name.val) (recorded tool [.onWebhookFailure name.val none]) sent
          | .answered status contentType body =>
            judgeResponse w tool status contentType (body.take marketplaceMaxBytes) sent

/-! ## The gateway -/

/-- `_marketplace_impl`: an error result is raised as a `ToolError` -/
def marketplaceImpl (ending : Except PyStr Result) : Except PyStr Result :=
  match ending with
  | .error name => .error name
  | .ok result => if result.hasError then .error "ToolError" else .ok result

/-- `_response_indicates_failure` of a response body -/
def responseIndicatesFailure (limit : ℕ) (body : List UInt8) : Bool :=
  match jsonLoads limit body with
  | .value (.obj fields) =>
    (PyJson.lookup "error" fields).isSome ||
      match PyJson.lookup "result" fields with
      | some (.obj result) => PyJson.lookup "isError" result == some (.bool true)
      | _ => false
  | _ => false

/-- how the MCP server answers a call over HTTP: what a tool raises becomes a result with `isError` -/
structure McpServer where
  limit : ℕ
  respond : Except PyStr Result → List UInt8
  isError : ∀ name, ∃ fields result, jsonLoads limit (respond (.error name)) = .value (.obj fields) ∧
    PyJson.lookup "result" fields = some (.obj result) ∧ PyJson.lookup "isError" result = some (.bool true)

/-- the gateway skips the charge of a call through `execute_marketplace_tool` -/
def McpServer.uncharged (mcp : McpServer) (run : Run) : Bool :=
  responseIndicatesFailure mcp.limit (mcp.respond (marketplaceImpl run.ending))

/-! ## The exits of the marketplace wrappers -/

/-- how far a call comes before its request: the validation raises, the URL is refused, the header cannot be decrypted, or
the webhook is asked -/
inductive Stage where
  | raises (e : Exc)
  | refused (urlError : PyStr)
  | undecryptable
  | asked (ips : List PyStr) (headers : List (PyStr × PyStr))

def stage (w : World) (tool : Tool) : Stage :=
  match validateUrlWithIps w.urls w.dns tool.webhookUrl with
  | .error e => .raises e
  | .ok (some urlError, _) => .refused urlError
  | .ok (none, ips) =>
    match requestHeaders w tool.authHeaderName tool.authHeaderEnc with
    | none => .undecryptable
    | some headers => .asked ips headers

variable {w : World} {tool : Tool} {ips : List PyStr} {headers : List (PyStr × PyStr)}

theorem stage_raises {e : Exc} (h : stage w tool = .raises e) :
    validateUrlWithIps w.urls w.dns tool.webhookUrl = .error e := by
  unfold stage at h
  split at h
  · cases h
    assumption
  · cases h
  · split at h <;> cases h

theorem stage_refused {urlError : PyStr} (h : stage w tool = .refused urlError) :
    ∃ ips, validateUrlWithIps w.urls w.dns tool.webhookUrl = .ok (some urlError, ips) := by
  unfold stage at h
  split at h
  · cases h
  · cases h
    exact ⟨_, by assumption⟩
  · split at h <;> cases h

theorem stage_undecryptable (h : stage w tool = .undecryptable) :
    (∃ ips, validateUrlWithIps w.urls w.dns tool.webhookUrl = .ok (none, ips)) ∧
      requestHeaders w tool.authHeaderName tool.authHeaderEnc = none := by
  unfold stage at h
  split at h
  · cases h
  · cases h
  · split at h
    · exact ⟨⟨_, by assumption⟩, by assumption⟩
    · cases h

theorem stage_asked (h : stage w tool = .asked ips headers) :
    validateUrlWithIps w.urls w.dns tool.webhookUrl = .ok (none, ips) ∧
      requestHeaders w tool.authHeaderName tool.authHeaderEnc = some headers := by
  unfold stage at h
  split at h
  · cases h
  · cases h
  · split at h
    · cases h
    · cases h
      exact ⟨by assumption, by assumption⟩

/-- the breaker refuses the call -/
def Refused (w : World) (tool : Tool) : Prop := tool.id ≠ [] ∧ w.tripped = true

/-- the requests of a call that asks the webhook -/
def chain (w : World) (tool : Tool) (ips : List PyStr) : List Sent :=
  sessionSend w (.pinned (w.urls.hostname tool.webhookUrl) ips) tool.webhookUrl

/-- `execute_marketplace_tool`, once the breaker let it through -/
theorem executeMarketplaceTool_spec (arguments : List (PyStr × PyJson)) (h : ¬ Refused w tool) :
    executeMarketplaceTool w tool arguments =
      match stage w tool with
      | .raises e => ⟨.error (w.typeName e), [], []⟩
      | .refused urlError => .failed (blockedMessage urlError) [] []
      | .undecryptable =>
        .failed "Failed to decrypt webhook auth header" (recorded tool [.onWebhookFailure "decrypt_failure" none]) []
      | .asked ips headers =>
        match w.exchange ⟨sendMethod tool.webhookMethod, tool.webhookUrl, headers, arguments⟩ with
        | .timedOut =>
          .failed (timedOutMessage tool.timeoutSeconds) (recorded tool [.onWebhookFailure "timeout" none]) (chain w tool ips)
        | .failed _ name => .failed (failedMessage name.val) (recorded tool [.onWebhookFailure name.val none]) (chain w tool ips)
        | .answered status contentType body =>
          judgeResponse w tool status contentType (body.take marketplaceMaxBytes) (chain w tool ips) := by
  unfold executeMarketplaceTool
  rw [if_neg (by exact h)]
  match hstage : stage w tool with
  | .raises e => rw [stage_raises hstage]
  | .refused urlError =>
    obtain ⟨ips, hvalid⟩ := stage_refused hstage
    rw [hvalid]
    dsimp only
    rw [Option.getD_some, if_pos (validateUrlWithIps_error hvalid)]
  | .undecryptable =>
    obtain ⟨⟨ips, hvalid⟩, hheaders⟩ := stage_undecryptable hstage
    rw [hvalid, hheaders]
    rfl
  | .asked ips headers =>
    obtain ⟨hvalid, hheaders⟩ := stage_asked hstage
    rw [hvalid, hheaders]
    rfl

/-- `call_get` of a tool's caller -/
theorem callGet_spec (w : World) (tool : Tool) (maxBytes : ℕ) (params : List (PyStr × PyJson)) :
    callGet w (callerOf tool maxBytes) params =
      match stage w tool with
      | .raises e => (.error (.other (w.typeName e)), [])
      | .refused urlError => (.error (.webhook (blockedMessage urlError) "ssrf_blocked"), [])
      | .undecryptable => (.error (.webhook "Failed to decrypt webhook auth header" "decrypt_failure"), [])
      | .asked ips headers =>
        match w.exchange ⟨"GET", tool.webhookUrl, headers, params⟩ with
        | .timedOut => (.error (.webhook (timedOutMessage tool.timeoutSeconds) "timeout"), chain w tool ips)
        | .failed true name => (.error (.webhook (failedMessage name.val) name.val), chain w tool ips)
        | .failed false name => (.error (.other name.val), chain w tool ips)
        | .answered status contentType body => (.ok ⟨status, contentType, body.take maxBytes⟩, chain w tool ips) := by
  unfold callGet
  match hstage : stage w tool with
  | .raises e =>
    dsimp only [callerOf]
    rw [stage_raises hstage]
  | .refused urlError =>
    obtain ⟨ips, hvalid⟩ := stage_refused hstage
    dsimp only [callerOf]
    rw [hvalid]
  | .undecryptable =>
    obtain ⟨⟨ips, hvalid⟩, hheaders⟩ := stage_undecryptable hstage
    dsimp only [callerOf]
    rw [hvalid]
    rw [hheaders]
  | .asked ips headers =>
    obtain ⟨hvalid, hheaders⟩ := stage_asked hstage
    dsimp only [callerOf]
    rw [hvalid]
    dsimp only
    rw [hheaders, if_neg (validateUrlWithIps_safe hvalid).1]
    rfl

/-! ## When the two marketplace wrappers agree -/

/-- the webhook is asked and answers -/
def Answers (w : World) (tool : Tool) (arguments : List (PyStr × PyJson)) (status : ℕ) (contentType : PyStr)
    (body : List UInt8) : Prop :=
  ¬ Refused w tool ∧ ∃ ips headers, stage w tool = .asked ips headers ∧
    w.exchange ⟨sendMethod tool.webhookMethod, tool.webhookUrl, headers, arguments⟩ = .answered status contentType body

variable {arguments : List (PyStr × PyJson)} {contentType : PyStr}

theorem answers_iff (hopen : ¬ Refused w tool) (h : stage w tool = .asked ips headers) (status : ℕ) (contentType : PyStr)
    (body : List UInt8) :
    Answers w tool arguments status contentType body ↔
      w.exchange ⟨sendMethod tool.webhookMethod, tool.webhookUrl, headers, arguments⟩ = .answered status contentType body := by
  constructor
  · rintro ⟨-, ips', headers', hstage, hex⟩
    rw [h] at hstage
    cases hstage
    exact hex
  · intro hex
    exact ⟨hopen, ips, headers, h, hex⟩

theorem not_answers (h : ∀ ips headers, stage w tool ≠ .asked ips headers) (status : ℕ) (contentType : PyStr)
    (body : List UInt8) : ¬ Answers w tool arguments status contentType body := by
  rintro ⟨-, ips, headers, hstage, -⟩
  exact h ips headers hstage

theorem setsError_failed (message : PyStr) (effects : List Effect) (sent : List Sent) :
    (Run.failed message effects sent).SetsError := ⟨message, none, rfl⟩

/-- the subscribed tool's wrapper gives an error for every response that is JSON by its type but cannot be parsed, and for
no other response -/
theorem readResult_setsError (w : World) (tool : Tool) (result : CallResult) (sent : List Sent) :
    (readResult w tool result sent).SetsError ↔
      contains json result.contentType = true ∧ ∀ v, jsonLoads w.limit result.body ≠ .value v := by
  unfold readResult
  split_ifs with hjson
  · match hload : jsonLoads w.limit result.body with
    | .value v => simp [Run.SetsError, hjson]
    | .jsonDecodeError => simp [setsError_failed, hjson]
    | .raised name => simp [setsError_failed, hjson]
  · simp [Run.SetsError, hjson]

theorem judgeResponse_setsError (w : World) (tool : Tool) (status : ℕ) (contentType : PyStr) (body : List UInt8)
    (sent : List Sent) :
    (judgeResponse w tool status contentType body sent).SetsError ↔
      contains json contentType = true ∧ ((∀ v, jsonLoads w.limit body ≠ .value v) ∨ 400 ≤ status) := by
  unfold judgeResponse
  by_cases hjson : contains json contentType = true
  · match hload : jsonLoads w.limit body with
    | .value v =>
      split_ifs with hstatus <;> simp [Run.SetsError, hjson, hstatus]
    | .jsonDecodeError => simp [setsError_failed, hjson]
    | .raised name => simp [setsError_failed, hjson]
  · simp [Run.SetsError, hjson]

/-- **When the two marketplace wrappers agree.** For a GET tool with an untripped breaker, the agent run's wrapper gives an
error of its own exactly when the MCP path does, unless the validation of the URL raises or the webhook answers with a
status of 400 or more and a body that is JSON by its type and parses. -/
theorem agree_iff (w : World) (tool : Tool) (arguments : List (PyStr × PyJson))
    (hget : tool.webhookMethod = PyStr.ofString "GET") (hbreaker : w.tripped = false) :
    ((call w tool arguments).SetsError ↔ (executeMarketplaceTool w tool arguments).SetsError) ↔
      (∀ e, validateUrlWithIps w.urls w.dns tool.webhookUrl ≠ .error e) ∧
        ∀ status contentType body v, Answers w tool arguments status contentType body → contains json contentType = true →
          jsonLoads w.limit (body.take marketplaceMaxBytes) = .value v → status < 400 := by
  have hopen : ¬ Refused w tool := by
    rintro ⟨-, htripped⟩
    rw [hbreaker] at htripped
    cases htripped
  have hmethod : sendMethod tool.webhookMethod = PyStr.ofString "GET" := by rw [hget]; decide
  rw [executeMarketplaceTool_spec arguments hopen, call, if_neg (by exact hopen), callGet_spec]
  rw [hmethod]
  match hstage : stage w tool with
  | .raises e => simp [Run.SetsError, Run.failed, stage_raises hstage]
  | .refused urlError =>
    obtain ⟨ips, hvalid⟩ := stage_refused hstage
    simp [hvalid, not_answers (by rw [hstage]; simp : ∀ ips headers, stage w tool ≠ .asked ips headers)]
  | .undecryptable =>
    obtain ⟨⟨ips, hvalid⟩, -⟩ := stage_undecryptable hstage
    simp [setsError_failed, hvalid, not_answers (by rw [hstage]; simp : ∀ ips headers, stage w tool ≠ .asked ips headers)]
  | .asked ips headers =>
    have hvalid : ∀ e, validateUrlWithIps w.urls w.dns tool.webhookUrl ≠ .error e := by
      intro e h
      rw [(stage_asked hstage).1] at h
      cases h
    have hanswers := fun status contentType body =>
      (answers_iff hopen hstage status contentType body : Answers w tool arguments status contentType body ↔ _)
    rw [hmethod] at hanswers
    dsimp only
    match hex : w.exchange ⟨PyStr.ofString "GET", tool.webhookUrl, headers, arguments⟩ with
    | .timedOut =>
      refine iff_of_true (iff_of_true ?_ (setsError_failed _ _ _)) ⟨hvalid, ?_⟩
      · dsimp only
        split_ifs <;> exact setsError_failed _ _ _
      · intro status contentType body v h
        rw [(hanswers _ _ _).1 h] at hex
        cases hex
    | .failed clientError name =>
      refine iff_of_true (iff_of_true ?_ (setsError_failed _ _ _)) ⟨hvalid, ?_⟩
      · match clientError with
        | true =>
          dsimp only
          split_ifs <;> exact setsError_failed _ _ _
        | false => exact setsError_failed _ _ _
      · intro status contentType body v h
        rw [(hanswers _ _ _).1 h] at hex
        cases hex
    | .answered status contentType body =>
      rw [readResult_setsError, judgeResponse_setsError]
      constructor
      · intro hagree
        refine ⟨hvalid, ?_⟩
        intro status' contentType' body' v h hjson hload
        have heq := (hanswers _ _ _).1 h
        rw [hex] at heq
        cases heq
        by_contra hstatus
        obtain ⟨-, hnone⟩ := hagree.2 ⟨hjson, .inr (not_lt.1 hstatus)⟩
        exact hnone v hload
      · rintro ⟨-, hstatus⟩
        constructor
        · rintro ⟨hjson, hnone⟩
          exact ⟨hjson, .inl hnone⟩
        · rintro ⟨hjson, hnone | hge⟩
          · exact ⟨hjson, hnone⟩
          · refine ⟨hjson, ?_⟩
            intro v hload
            have hlt : status < 400 :=
              hstatus status contentType body v ((hanswers _ _ _).2 hex) hjson hload
            omega

/-! A webhook at a literal address that gives one response. -/

def answering (status : ℕ) (contentType : PyStr) (body : List UInt8) : World where
  urls := ⟨fun url => some (PyStr.ofString "https", some url), fun _ location => .ok location⟩
  dns _ := .gaierror
  resolve _ _ := none
  family _ := .unspec
  picks _ := [0]
  redirect _ _ := none
  exchange _ := .answered status contentType body
  decryptHeader := some
  tripped := false
  limit := 1000
  utf8 bytes := bytes.map (fun b => PyChar.ofChar (Char.ofNat b.toNat))
  typeName _ := "Exception"

def getTool : Tool := ⟨"t1", "93.184.216.34", "GET", 10, none, none⟩

/-- HTTP 500 with the JSON body `[]`: the agent run's wrapper returns the body, the MCP path an error -/
theorem http_error_differs : ¬ ((call (answering 500 json [91, 93]) getTool []).SetsError ↔
      (executeMarketplaceTool (answering 500 json [91, 93]) getTool []).SetsError) := by
  decide +kernel

/-- on a response of status 200 they agree, for its condition holds -/
theorem agree_iff_ok : ((call (answering 200 json [91, 93]) getTool []).SetsError ↔
      (executeMarketplaceTool (answering 200 json [91, 93]) getTool []).SetsError) := by
  refine (agree_iff (answering 200 json [91, 93]) getTool [] rfl rfl).2 ⟨?_, ?_⟩
  · intro e h
    have hok : validateUrlWithIps (answering 200 json [91, 93]).urls (answering 200 json [91, 93]).dns getTool.webhookUrl =
        .ok (none, [getTool.webhookUrl]) := by decide +kernel
    rw [hok] at h
    cases h
  · rintro status contentType body v ⟨-, ips, headers, -, hex⟩ - -
    cases hex
    decide

/-! ## When a failure that is recorded is returned as one -/

/-- the call returns a result with an `error` key -/
def Run.CarriesError (r : Run) : Prop := ∃ result, r.ending = .ok result ∧ result.hasError = true

/-- `_on_webhook_failure` is called -/
def Run.CountsFailure (r : Run) : Prop := ∃ errorType statusCode, .onWebhookFailure errorType statusCode ∈ r.effects

theorem carriesError_failed (message : PyStr) (effects : List Effect) (sent : List Sent) :
    (Run.failed message effects sent).CarriesError := ⟨.error message none, rfl, rfl⟩

theorem uncharged_of_carriesError (mcp : McpServer) {r : Run} (h : r.CarriesError) : mcp.uncharged r = true := by
  obtain ⟨result, hending, herror⟩ := h
  obtain ⟨fields, inner, hload, hresult, hflag⟩ := mcp.isError "ToolError"
  have himpl : marketplaceImpl r.ending = .error "ToolError" := by
    rw [hending]
    exact if_pos herror
  rw [McpServer.uncharged, himpl, responseIndicatesFailure, hload]
  dsimp only
  rw [hresult]
  dsimp only
  rw [hflag, Bool.or_eq_true]
  exact .inr rfl

/-- a response of the MCP path: what it counts as failed, and what it returns for a status of 400 or more, is an error,
when its content type is JSON -/
theorem judgeResponse_json (w : World) (tool : Tool) (status : ℕ) (body : List UInt8) (sent : List Sent)
    (hjson : contains json contentType = true) :
    ((judgeResponse w tool status contentType body sent).CountsFailure →
        (judgeResponse w tool status contentType body sent).CarriesError) ∧
      (400 ≤ status → (judgeResponse w tool status contentType body sent).CarriesError) := by
  unfold judgeResponse
  rw [if_neg (not_not.2 hjson)]
  match jsonLoads w.limit body with
  | .jsonDecodeError => exact ⟨fun _ => carriesError_failed _ _ _, fun _ => carriesError_failed _ _ _⟩
  | .raised name => exact ⟨fun _ => carriesError_failed _ _ _, fun _ => carriesError_failed _ _ _⟩
  | .value payload =>
    split_ifs with hstatus
    · exact ⟨fun _ => ⟨_, rfl, rfl⟩, fun _ => ⟨_, rfl, rfl⟩⟩
    · refine ⟨?_, fun hge => absurd hge hstatus⟩
      rintro ⟨errorType, statusCode, hmem⟩
      simp only [recorded] at hmem
      split_ifs at hmem
      · cases hmem
      · simp at hmem

theorem judgeResponse_text {status : ℕ} {body : List UInt8} {sent : List Sent} (hid : tool.id ≠ [])
    (hjson : contains json contentType ≠ true) :
    (judgeResponse w tool status contentType body sent).CountsFailure ∧
      ¬ (judgeResponse w tool status contentType body sent).CarriesError := by
  rw [judgeResponse, if_pos hjson]
  constructor
  · refine ⟨"non_json_response", some status, ?_⟩
    rw [recorded, if_neg hid]
    exact List.mem_singleton_self _
  · rintro ⟨result, hending, herror⟩
    cases hending
    cases herror

/-- what is counted as failed, and every response with a status of 400 or more, is returned with an `error` key, and the
gateway skips its charge -/
def FailuresUnbilled (mcp : McpServer) (w : World) (tool : Tool) (arguments : List (PyStr × PyJson)) : Prop :=
  let run := executeMarketplaceTool w tool arguments
  (run.CountsFailure → run.CarriesError ∧ mcp.uncharged run = true) ∧
    ∀ status contentType body, Answers w tool arguments status contentType body → 400 ≤ status →
      run.CarriesError ∧ mcp.uncharged run = true

/-- **When a failed call through MCP is unbilled.** For every tool with an id: whatever is counted as failed, and every
response with a status of 400 or more, is returned with an `error` key and skipped by the gateway, exactly when no
response comes with a content type that lacks `application/json`. -/
theorem failures_carry_error_iff (mcp : McpServer) (w : World) (tool : Tool) (arguments : List (PyStr × PyJson))
    (hid : tool.id ≠ []) :
    FailuresUnbilled mcp w tool arguments ↔
      ∀ status contentType body, Answers w tool arguments status contentType body → contains json contentType = true := by
  have hsuffices : (executeMarketplaceTool w tool arguments).CarriesError →
      (executeMarketplaceTool w tool arguments).CarriesError ∧
        mcp.uncharged (executeMarketplaceTool w tool arguments) = true :=
    fun h => ⟨h, uncharged_of_carriesError mcp h⟩
  have hquiet : (∀ status contentType body, ¬ Answers w tool arguments status contentType body) →
      ((executeMarketplaceTool w tool arguments).CountsFailure → (executeMarketplaceTool w tool arguments).CarriesError) →
      (FailuresUnbilled mcp w tool arguments ↔
        ∀ status contentType body, Answers w tool arguments status contentType body → contains json contentType = true) := by
    intro hnone hcounts
    refine iff_of_true ⟨fun h => hsuffices (hcounts h), ?_⟩ ?_
    · intro status contentType body h
      exact absurd h (hnone _ _ _)
    · intro status contentType body h
      exact absurd h (hnone _ _ _)
  by_cases hopen : Refused w tool
  · apply hquiet
    · rintro status contentType body ⟨hnot, -⟩
      exact hnot hopen
    · intro _
      rw [executeMarketplaceTool, if_pos (by exact hopen)]
      exact carriesError_failed _ _ _
  have hspec := executeMarketplaceTool_spec arguments hopen
  match hstage : stage w tool with
  | .raises e =>
    apply hquiet (not_answers (by rw [hstage]; simp))
    rintro ⟨errorType, statusCode, hmem⟩
    rw [hspec, hstage] at hmem
    cases hmem
  | .refused urlError =>
    apply hquiet (not_answers (by rw [hstage]; simp))
    intro _
    rw [hspec, hstage]
    exact carriesError_failed _ _ _
  | .undecryptable =>
    apply hquiet (not_answers (by rw [hstage]; simp))
    intro _
    rw [hspec, hstage]
    exact carriesError_failed _ _ _
  | .asked ips headers =>
    have hanswers := fun status contentType body =>
      (answers_iff hopen hstage status contentType body : Answers w tool arguments status contentType body ↔ _)
    rw [hstage] at hspec
    dsimp only at hspec
    match hex : w.exchange ⟨sendMethod tool.webhookMethod, tool.webhookUrl, headers, arguments⟩ with
    | .timedOut =>
      apply hquiet
      · intro status contentType body h
        rw [(hanswers _ _ _).1 h] at hex
        cases hex
      · intro _
        rw [hspec, hex]
        exact carriesError_failed _ _ _
    | .failed clientError name =>
      apply hquiet
      · intro status contentType body h
        rw [(hanswers _ _ _).1 h] at hex
        cases hex
      · intro _
        rw [hspec, hex]
        exact carriesError_failed _ _ _
    | .answered status contentType body =>
      have honly : ∀ status' contentType' body', Answers w tool arguments status' contentType' body' →
          status' = status ∧ contentType' = contentType := by
        intro status' contentType' body' h
        have heq := (hanswers _ _ _).1 h
        rw [hex] at heq
        cases heq
        exact ⟨rfl, rfl⟩
      rw [hex] at hspec
      unfold FailuresUnbilled
      rw [hspec] at hsuffices ⊢
      constructor
      · rintro ⟨hcounts, -⟩ status' contentType' body' h
        obtain ⟨-, rfl⟩ := honly _ _ _ h
        by_contra hjson
        obtain ⟨hcount, hnot⟩ := judgeResponse_text hid hjson
        exact hnot (hcounts hcount).1
      · intro hjson
        obtain ⟨hcounts, hstatus⟩ := judgeResponse_json w tool status (body.take marketplaceMaxBytes) (chain w tool ips)
          (hjson status contentType body ((hanswers _ _ _).2 hex))
        refine ⟨fun h => hsuffices (hcounts h), ?_⟩
        intro status' contentType' body' h hge
        obtain ⟨rfl, -⟩ := honly _ _ _ h
        exact hsuffices (hstatus hge)

/-! A server that answers a call with its `isError` flag and nothing else. -/

def ascii (s : String) : List UInt8 := s.toList.map (fun c => UInt8.ofNat c.toNat)

def flagged : McpServer where
  limit := 10
  respond ending := match ending with
    | .ok _ => ascii "\x7b\"result\": \x7b\"isError\": false\x7d\x7d"
    | .error _ => ascii "\x7b\"result\": \x7b\"isError\": true\x7d\x7d"
  isError _ := by
    refine ⟨[("result", .obj [("isError", .bool true)])], [("isError", .bool true)], ?_, by decide +kernel, by decide +kernel⟩
    show jsonLoads 10 (ascii "\x7b\"result\": \x7b\"isError\": true\x7d\x7d") = _
    decide +kernel

theorem answering_answers (status : ℕ) (contentType : PyStr) (body : List UInt8) :
    Answers (answering status contentType body) getTool [] status contentType body := by
  refine ⟨?_, [getTool.webhookUrl], [("Content-Type", json)], ?_, rfl⟩
  · rintro ⟨-, htripped⟩
    cases htripped
  · have hvalid : validateUrlWithIps (answering status contentType body).urls (answering status contentType body).dns
        getTool.webhookUrl = .ok (none, [getTool.webhookUrl]) := by
      show validateUrlWithIps (answering 0 [] []).urls (answering 0 [] []).dns getTool.webhookUrl = _
      decide +kernel
    rw [stage, hvalid]
    rfl

/-- HTTP 500 with an HTML page: counted as a failure, returned as text, and charged -/
theorem html_error_charged :
    Answers (answering 500 "text/html" [60, 62]) getTool [] 500 "text/html" [60, 62] ∧
      executeMarketplaceTool (answering 500 "text/html" [60, 62]) getTool [] =
        ⟨.ok (.text "<>"), [.onWebhookFailure "non_json_response" (some 500)], [⟨getTool.webhookUrl, [getTool.webhookUrl]⟩]⟩ ∧
      flagged.uncharged (executeMarketplaceTool (answering 500 "text/html" [60, 62]) getTool []) = false ∧
      ¬ FailuresUnbilled flagged (answering 500 "text/html" [60, 62]) getTool [] := by
  have hrun : executeMarketplaceTool (answering 500 "text/html" [60, 62]) getTool [] =
      ⟨.ok (.text "<>"), [.onWebhookFailure "non_json_response" (some 500)], [⟨getTool.webhookUrl, [getTool.webhookUrl]⟩]⟩ := by
    decide +kernel
  refine ⟨answering_answers _ _ _, hrun, by decide +kernel, ?_⟩
  rintro ⟨hcounts, -⟩
  rw [hrun] at hcounts
  obtain ⟨⟨result, hending, herror⟩, -⟩ := hcounts ⟨"non_json_response", some 500, List.mem_singleton_self _⟩
  cases hending
  cases herror

/-- a JSON error page of status 503 is returned as an error and not charged -/
theorem failures_carry_error_iff_json :
    (executeMarketplaceTool (answering 503 json [91, 93]) getTool []).CarriesError ∧
      flagged.uncharged (executeMarketplaceTool (answering 503 json [91, 93]) getTool []) = true := by
  refine ((failures_carry_error_iff flagged (answering 503 json [91, 93]) getTool [] (by decide)).2 ?_).2
    503 json [91, 93] (answering_answers _ _ _) (by decide)
  rintro status contentType body ⟨-, ips, headers, -, hex⟩
  cases hex
  decide

/-! ## Where the requests of a call go -/

theorem blockedLiteral_validated {u : Urls} {dns : PyStr → Lookup} {url : PyStr}
    (h : validateUrlWithIps u dns url = .ok (none, ips)) : blockedLiteral (u.hostname url) = false := by
  rcases validateUrlWithIps_cases h with ⟨addr, haddr, hsafe, -⟩ | ⟨hnone, -⟩
  · have heq : ipAddress (u.hostname url) = ipAddress addr.str := by rw [haddr, ipAddress_str haddr]
    rw [blockedLiteral, isIpBlocked_congr heq, hsafe, Bool.and_false]
  · rw [blockedLiteral, hnone]
    rfl

/-- some redirect of the webhook's responses leads the client to a URL whose host is a blocked literal address -/
def RedirectedInside (w : World) (tool : Tool) : Prop :=
  ∃ ips headers, stage w tool = .asked ips headers ∧
    ∃ s ∈ (chain w tool ips).tail, blockedLiteral (w.urls.hostname s.url) = true

theorem chain_safe_iff (h : stage w tool = .asked ips headers) : Safe (chain w tool ips) ↔ ¬ RedirectedInside w tool := by
  have hvalid := (stage_asked h).1
  have hfirst := blockedLiteral_validated hvalid
  have hsafe : Safe (chain w tool ips) ↔ ∀ s ∈ chain w tool ips, blockedLiteral (w.urls.hostname s.url) = false :=
    follow_safe_iff (validateUrlWithIps_safe hvalid).2 (maxFollowed + 1) 0 tool.webhookUrl
  obtain ⟨made, rest, hchain⟩ : ∃ made rest, chain w tool ips = ⟨tool.webhookUrl, made⟩ :: rest := ⟨_, _, rfl⟩
  rw [hsafe, hchain, List.forall_mem_cons]
  constructor
  · rintro ⟨-, hrest⟩ ⟨ips', headers', hstage, s, hs, hblocked⟩
    rw [h] at hstage
    cases hstage
    rw [hchain] at hs
    rw [hrest s hs] at hblocked
    cases hblocked
  · intro hnone
    refine ⟨hfirst, ?_⟩
    intro s hs
    rw [← Bool.not_eq_true]
    intro hblocked
    exact hnone ⟨ips, headers, h, s, by rw [hchain]; exact hs, hblocked⟩

theorem judgeResponse_sent (w : World) (tool : Tool) (status : ℕ) (contentType : PyStr) (body : List UInt8)
    (sent : List Sent) : (judgeResponse w tool status contentType body sent).sent = sent := by
  unfold judgeResponse
  split
  · rfl
  · split
    · rfl
    · rfl
    · split_ifs <;> rfl

theorem safe_nil : Safe [] := by
  intro s hs
  cases hs

theorem not_redirected (h : ∀ ips headers, stage w tool ≠ .asked ips headers) : ¬ RedirectedInside w tool := by
  rintro ⟨ips, headers, hstage, -⟩
  exact h ips headers hstage

/-- the requests of `call_get` -/
theorem callGet_sent (w : World) (tool : Tool) (maxBytes : ℕ) (params : List (PyStr × PyJson)) :
    Safe (callGet w (callerOf tool maxBytes) params).2 ↔ ¬ RedirectedInside w tool := by
  rw [callGet_spec]
  match hstage : stage w tool with
  | .raises e => exact iff_of_true safe_nil (not_redirected (by rw [hstage]; simp))
  | .refused urlError => exact iff_of_true safe_nil (not_redirected (by rw [hstage]; simp))
  | .undecryptable => exact iff_of_true safe_nil (not_redirected (by rw [hstage]; simp))
  | .asked ips headers =>
    rw [← chain_safe_iff hstage]
    dsimp only
    match w.exchange ⟨PyStr.ofString "GET", tool.webhookUrl, headers, params⟩ with
    | .timedOut => exact Iff.rfl
    | .failed true name => exact Iff.rfl
    | .failed false name => exact Iff.rfl
    | .answered status contentType body => exact Iff.rfl

/-- **When webhook calls stay on safe addresses.** Neither `call_get` nor `execute_marketplace_tool` connects to a blocked
address, exactly when no redirect leads the client to a URL whose host is a blocked literal address (or the breaker refused
the call). -/
theorem webhooks_safe_iff (w : World) (tool : Tool) (maxBytes : ℕ) (arguments : List (PyStr × PyJson)) :
    (Safe (callGet w (callerOf tool maxBytes) arguments).2 ↔ ¬ RedirectedInside w tool) ∧
      (Safe (executeMarketplaceTool w tool arguments).sent ↔ Refused w tool ∨ ¬ RedirectedInside w tool) := by
  refine ⟨callGet_sent w tool maxBytes arguments, ?_⟩
  by_cases hopen : Refused w tool
  · rw [executeMarketplaceTool, if_pos (by exact hopen)]
    exact iff_of_true safe_nil (.inl hopen)
  · rw [or_iff_right hopen, executeMarketplaceTool_spec arguments hopen]
    match hstage : stage w tool with
    | .raises e => exact iff_of_true safe_nil (not_redirected (by rw [hstage]; simp))
    | .refused urlError => exact iff_of_true safe_nil (not_redirected (by rw [hstage]; simp))
    | .undecryptable => exact iff_of_true safe_nil (not_redirected (by rw [hstage]; simp))
    | .asked ips headers =>
      rw [← chain_safe_iff hstage]
      dsimp only
      match w.exchange ⟨sendMethod tool.webhookMethod, tool.webhookUrl, headers, arguments⟩ with
      | .timedOut => exact Iff.rfl
      | .failed clientError name => exact Iff.rfl
      | .answered status contentType body =>
        rw [judgeResponse_sent]

/-- a webhook that redirects its first request to the metadata address -/
def redirecting : World :=
  { answering 200 json [91, 93] with redirect := fun k _ => if k = 0 then some (PyStr.ofString "169.254.169.254") else none }

/-- both callers follow it and connect there -/
theorem redirect_reaches_metadata :
    ¬ Safe (callGet redirecting (callerOf getTool marketplaceMaxBytes) []).2 ∧
      ¬ Safe (executeMarketplaceTool redirecting getTool []).sent := by
  decide +kernel

end Teardrop.Webhooks
