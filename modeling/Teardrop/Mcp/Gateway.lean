/-
The MCP gateway: `MCPGatewayMiddleware.dispatch` (`teardrop/mcp_gateway.py`) from the sniffed body to the settled response.

The coroutine keeps `request.state`, the row of `x402_payment_nonces` it put there, and the log of what it did, also when it
raises. Everything outside the gateway answers through `World`: prices, payment verification, the payer's budget and
reservation, the mounted server, the settlement and the ledger. An answer that raises is an exception of the call. The counters
of the funnel take the client's name, a string or None, and cannot raise; only the reading of the name is modelled.
-/
import Teardrop.Core.Coro
import Teardrop.Mpp.Verify

namespace Teardrop.Gateway

open Py PyJson

/-! ## Settings, requests, payments -/

structure Settings where
  mcpAuthEnabled : Bool
  mcpX402Enabled : Bool
  mcpBillingEnabled : Bool
  mppEnabled : Bool
  baseRpcUrl : String
  mpp : Mpp.Settings
  onboardingCreditEnabled : Bool
  marketplaceEnabled : Bool

def minSecretLength : ℕ := 32

def mppConfigured (s : Settings) : Bool :=
  s.mppEnabled && s.mcpAuthEnabled && s.mcpX402Enabled && s.mcpBillingEnabled && s.mpp.mppRecipient ≠ "" &&
    s.mpp.mppCurrency ≠ "" && s.baseRpcUrl ≠ "" && minSecretLength ≤ s.mpp.mppSecretKey.length && (Mpp.mppChainId s.mpp).isSome

structure Request where
  method : String
  /-- `request.url.path.startswith(_MCP_PREFIX)` -/
  underMcp : Bool
  body : List UInt8
  /-- `_extract_bearer` -/
  bearer : Option PyStr
  /-- `parse_payment_authorization`, null for None -/
  paymentAuthorization : PyJson
  paymentSignature : Option PyStr
  xPayment : Option PyStr
  /-- `text/event-stream` in the accept header -/
  acceptsEventStream : Bool
  /-- an `mcp-protocol-version` header -/
  protocolVersion : Bool

structure Requirement where
  scheme : String
  amount : ℕ
deriving DecidableEq

/-- `request.state.x402_billing` of a verified x402 payment -/
structure X402Payment where
  requirement : Requirement
  payer : PyStr
deriving DecidableEq

/-- `request.state.x402_billing` of a verified MPP payment -/
structure MppPayment where
  payer : PyStr
  amountUsdc : ℤ
  txHash : PyStr
deriving DecidableEq

inductive Billing where
  | x402 (p : X402Payment)
  | mpp (p : MppPayment)
deriving DecidableEq

/-- what `verify_payment` answers; a verified payment has claimed its header, where there is a pool -/
inductive Verdict where
  | verified (p : X402Payment)
  | rejected (error : PyStr)

/-- the tuple `_billing_gate` hands to `_settle_billing` -/
structure Pending where
  orgId : Option PyStr
  toolCost : ℤ
  toolName : PyStr
  reqId : PyJson
deriving DecidableEq

/-- a response of the mounted server: its status and the bytes its body iterator gives before it ends or breaks -/
structure Response where
  status : ℕ
  body : List UInt8

/-- an answer of the gateway itself -/
inductive Reply where
  /-- a status with a `WWW-Authenticate` header -/
  | unauthorized (status : ℕ) (challenge : PyStr)
  /-- a JSON-RPC error -/
  | rpcError (status : ℕ) (reqId : PyJson) (code : ℤ) (message : PyStr)
  /-- the x402 challenge: 402, or a tool result with `isError` for MCP clients -/
  | paymentRequired (reqId : PyJson) (mcpSignal : Bool) (error : PyStr)
  /-- the reply to `ai.smithery/events/list` -/
  | eventsList (reqId : PyJson)

/-- what a request is answered: by the gateway, or by the mounted server through it -/
inductive Answer where
  | own (a : Reply)
  | response (r : Response)

/-- what a decoded bearer token says; every minted token's `org_id`, where it has one, is a string -/
structure Claims where
  orgId : Option PyStr
  authMethod : PyStr
  sub : PyStr

/-- `decode_access_token` -/
inductive Token where
  | valid (claims : Claims)
  | expired
  | invalidAudience
  | invalid

/-! ## The world -/

/-- the lookups of `_resolve_tool_cost`, each of which may raise -/
structure PriceLookups where
  overrides : Call (PyStr → Option ℤ)
  /-- `tool_call_cost` of the current rule, if there is one -/
  current : Call (Option ℤ)
  orgTool : PyStr → Call (Option ℤ)
  platformTool : PyStr → Call (Option ℤ)

/-- the places of a request that ask for a price -/
inductive PriceCall where
  | free
  | mpp
  | requirements
  | gate
deriving DecidableEq

/-- the places of a request that ask for the failure budget of its address -/
inductive BudgetCheck where
  | start
  | free
  | x402

structure World where
  settings : Settings
  /-- mounted at `/tools/mcp`, where every request is intercepted -/
  mounted : Bool
  /-- levels of recursion the interpreter has left -/
  limit : ℕ
  pool : Bool
  token : Token
  credentialDisabled : Call Bool
  /-- `_anonymous_failure_budget` refuses -/
  budgetExhausted : BudgetCheck → Bool
  /-- `_anonymous_ip_limit` refuses -/
  ipLimited : Bool
  orgLimited : Bool
  prices : PriceCall → PriceLookups
  verifyMppPayment : PyJson → ℤ → Call Mpp.MppVerifyOutcome
  buildExactPaymentRequirements : ℤ → Call (List Requirement)
  getPaymentRequirements : Call (List Requirement)
  verifyPayment : PyStr → Option (List Requirement) → Call Verdict
  /-- `_payer_failure_budget` refuses -/
  payerLocked : PyStr → Bool
  reservePayerSpend : PyStr → PyStr → ℤ → Bool
  /-- how the deletion of a nonce row is cut short, if it is -/
  releaseCut : Option (Coro.Cut Exc)
  isPromotionalCredit : Call Bool
  /-- `get_marketplace_tool_by_name`: the author of the tool -/
  marketplaceTool : PyStr → Call (Option PyStr)
  /-- `verify_credit`: none when verified, else the error -/
  verifyCredit : ℤ → Call (Option PyStr)
  /-- the mounted server -/
  next : Call Response
  settlePayment : Call Bool
  debitCredit : Call Bool
  recordCharge : Call Unit
  enqueueFailedSettlement : Call Unit

/-- what a request did -/
inductive Event where
  /-- `verify_payment` answered verified, or `verify_mpp_payment` ok -/
  | accepted (b : Billing)
  /-- `_authenticate` let the request pass -/
  | authenticated
  /-- `_billing_gate` let the request pass -/
  | gated (pending : Option Pending)
  | callNext (pending : Option Pending)
  /-- `settle_payment` answered -/
  | settlement (settled : Bool)
  /-- `debit_credit` answered -/
  | debit (amount : ℤ) (debited : Bool)
  | charge (method status : String)
  /-- `enqueue_failed_settlement` was called -/
  | enqueue (amount : ℤ)
deriving DecidableEq

/-- `request.state`, the nonce row the request put, and the log -/
structure Exchange where
  x402Billing : Option Billing := none
  mcpOrgId : Option PyStr := none
  mcpAuthMethod : PyStr := []
  mcpPrincipalId : PyStr := []
  mcpX402Payment : Option PyStr := none
  mcpX402Reserved : Bool := false
  /-- the row of `x402_payment_nonces` -/
  claim : Bool := false
  log : List Event := []

abbrev Run := Coro Exc Exchange

def record (e : Event) : Run Unit := Coro.modify (fun s => { s with log := s.log ++ [e] })

/-! ## Reading bodies -/

/-- `value.get(key, default)`: only dicts have it -/
def getD (v : PyJson) (key : PyStr) (default : PyJson) : Call PyJson :=
  if v.isDict then .ok ((v.get? key).getD default) else .error .attributeError

/-- `value.get(key) if isinstance(value, dict) else None` -/
def getIfDict (v : PyJson) (key : PyStr) : Call PyJson := if v.isDict then getD v key .null else .ok .null

def readJsonrpc (w : World) (r : Request) : PyJson :=
  match loadsBytes w.limit r.body with
  | .ok data => if data.isDict then data else .obj []
  | .error _ => .obj []

/-- `params["_meta"][key]`, null where a level is missing or no dict -/
def metaEntry (data : PyJson) (key : PyStr) : PyJson :=
  ((((data.get? "params").bind (·.get? "_meta")).bind (·.get? key))).getD .null

def toolCallName (data : PyJson) : Option PyStr :=
  match (data.get? "params").bind (·.get? "name") with
  | some (.str name) => if name = [] then none else some name
  | _ => none

/-- `_is_community_tool` of a string -/
def isCommunityTool (name : PyStr) : Bool := PyChar.ofChar '/' ∈ name && !(PyStr.ofString "platform/").isPrefixOf name

def anonFreeTools : List PyStr := ["calculate", "get_datetime", "count_text_stats", "discover_agents"]

def mppCredential (r : Request) (data : PyJson) : PyJson :=
  if metaEntry data "org.paymentauth/credential" ≠ .null then metaEntry data "org.paymentauth/credential"
  else r.paymentAuthorization

def carriesMppCredential (w : World) (r : Request) (data : PyJson) : Bool :=
  mppConfigured w.settings && mppCredential r data ≠ .null

def b64Text (bytes : List UInt8) : PyStr := Base64.b64encode bytes

/-- `json.dumps(payment, sort_keys=True, separators=(",", ":"))` in base64 -/
def canonicalPayment (w : World) (payment : PyJson) : Call PyStr := do
  let text ← Mpp.ofJson (dumps ⟨true, true⟩ w.limit (canon payment))
  let bytes ← Mpp.utf8 text
  return b64Text bytes

def metaPaymentHeader (w : World) (data : PyJson) : Call (Option PyStr) :=
  match metaEntry data "x402/payment" with
  | .null => .ok none
  | .str text =>
    match loads w.limit text with
    | .ok payment => (canonicalPayment w payment).map some
    | .error .recursion => .error .recursionError
    | .error _ => (Mpp.utf8 text).map (fun bytes => some (b64Text bytes))
  | payment => (canonicalPayment w payment).map some

def nonEmpty (text : Option PyStr) : Option PyStr := text.filter (· ≠ [])

def isAnonymous (r : Request) : Bool := (nonEmpty r.bearer).isNone

def paymentHeader (r : Request) (s : Exchange) : Option PyStr :=
  ((nonEmpty r.paymentSignature).or (nonEmpty r.xPayment)).or (nonEmpty s.mcpX402Payment)

/-! ## Classification -/

def mcpMetaClientName (params : PyJson) : Call (Option PyStr) :=
  if ¬ params.isDict then .ok none
  else do
    let metadata ← getD params "_meta" .null
    let clientInfo ← getIfDict metadata "io.modelcontextprotocol/clientInfo"
    let name ← getIfDict clientInfo "name"
    match name with
    | .str text => return some text
    | _ => return none

def mcpClientName (params : PyJson) : Call (Option PyStr) :=
  if ¬ params.isDict then .ok none
  else do
    let clientInfo ← getD params "clientInfo" .null
    let name ← getIfDict clientInfo "name"
    match name with
    | .str text => return some text
    | _ => mcpMetaClientName params

/-- the name and the protocol version the funnel counts -/
def sniffClient (data : PyJson) : Call (Option PyStr × Bool) := do
  let params ← getD data "params" .null
  let clientName ← mcpClientName params
  let metadata ← getIfDict params "_meta"
  return (clientName, metadata.isDict && (metadata.get? "io.modelcontextprotocol/protocolVersion").isSome)

inductive Route where
  | publicDiscovery (smithery : Option PyJson)
  | paymentProbe
  | execution (reqId : PyJson)

/-- `_JSONRPC_MESSAGE_KEYS & data.keys()` -/
def isMessage (data : PyJson) : Bool :=
  (data.get? "method").isSome || (data.get? "result").isSome || (data.get? "error").isSome

/-- what `bytes.strip` strips -/
def isBlankByte (b : UInt8) : Bool := b = 32 || (9 ≤ b && b ≤ 13)

/-- `json.loads(body) if body.strip() else {}` -/
def sniffBody (w : World) (r : Request) : Call PyJson :=
  if r.body.all isBlankByte then .ok (.obj []) else Mpp.ofJson (loadsBytes w.limit r.body)

/-- the counters of the funnel, of a body with a method -/
def countRequest (data method : PyJson) : Call (Option (Option PyStr × Bool)) :=
  if method.truthy then (sniffClient data).map some else .ok none

/-- the body of the `try`: the method decides -/
def sniff (w : World) (r : Request) : Call Route := do
  let data ← sniffBody w r
  let rpcId ← getD data "id" .null
  let method ← getD data "method" (.str [])
  let _ ← countRequest data method
  if method = .str "ai.smithery/events/list" then return .publicDiscovery (some rpcId)
  else if ¬ isMessage data ∧ w.settings.mcpAuthEnabled ∧ w.settings.mcpX402Enabled ∧ r.bearer = none then return .paymentProbe
  else if method ≠ .str "tools/call" then return .publicDiscovery none
  else return .execution rpcId

/-- the public discovery gate -/
def route (w : World) (r : Request) : Route :=
  if r.method ≠ "POST" then
    if r.method = "GET" ∧ ¬ r.acceptsEventStream ∧ w.settings.mcpAuthEnabled ∧ w.settings.mcpX402Enabled ∧ r.bearer = none then
      .paymentProbe
    else .publicDiscovery none
  else
    match sniff w r with
    | .ok x => x
    | .error _ => .publicDiscovery none

/-! ## Prices -/

/-- `resolve_tool_cost` of a string -/
def resolveTextCost (w : World) (p : PriceLookups) (overrides : PyStr → Option ℤ) (default : ℤ) (name : PyStr) : Call ℤ :=
  match overrides name with
  | some cost => .ok cost
  | none =>
    if PyChar.ofChar '/' ∈ name then
      match overrides (PyStr.partition '/' name).2.2 with
      | some cost => .ok cost
      | none => if w.settings.marketplaceEnabled then (p.orgTool name).map (·.getD default) else .ok default
    else if (PyStr.ofString "__") <:+: name then .ok 0
    else if w.settings.marketplaceEnabled then (p.platformTool name).map (·.getD 0)
    else .ok default

/-- `_resolve_tool_cost`: what is no string is no key of a dict, or has no `in` -/
def resolveToolCost (w : World) (call : PriceCall) (name : PyJson) : Call ℤ := do
  let overrides ← (w.prices call).overrides
  let current ← (w.prices call).current
  match name with
  | .str text => resolveTextCost w (w.prices call) overrides (current.getD 0) text
  | _ => .error .typeError

/-- the price of the called tool; a call without a name has none -/
def toolCallCost (w : World) (call : PriceCall) (data : PyJson) : Call ℤ :=
  match toolCallName data with
  | some name => resolveToolCost w call (.str name)
  | none => .ok 0

/-- the exact requirements of a price; without one, the flat ones -/
def exactRequirements (w : World) (toolCost : ℤ) : Call (List Requirement) :=
  if 0 < toolCost then w.buildExactPaymentRequirements toolCost
  else w.getPaymentRequirements.map (List.filter (fun req => req.scheme = "exact"))

def x402ToolRequirements (w : World) (data : PyJson) : Call (Option (List Requirement)) := do
  let toolCost ← toolCallCost w .requirements data
  let requirements ← exactRequirements w toolCost
  return if requirements = [] then none else some requirements

/-! ## Answers -/

def reqIdOf (data : PyJson) : PyJson := (data.get? "id").getD .null

def bearerRequired (reqId : PyJson) : Reply :=
  .rpcError 401 reqId (-32001)
    "Marketplace tools require 'Authorization: Bearer <token>' from POST /token and funded credit."

def pricingUnavailable (reqId : PyJson) : Reply := .rpcError 503 reqId (-32603) "Paid MCP pricing is temporarily unavailable."

def executionUnavailable (reqId : PyJson) : Reply :=
  .rpcError 503 reqId (-32603) "Paid MCP execution is temporarily unavailable."

def failureBudgetExceeded (reqId : PyJson) : Reply := .rpcError 429 reqId (-32029) "Anonymous tool failure budget exceeded"

def ipRateLimited : Reply := .rpcError 429 .null (-32029) "Anonymous rate limit exceeded"

def orgRateLimited : Reply := .rpcError 429 .null (-32029) "Organization MCP rate limit exceeded. Please slow down."

/-! ## Authentication -/

/-- a payment is accepted: `request.state`, the row its verification claimed, and the log -/
def accept (b : Billing) (authMethod : PyStr) (claimed : Bool) (s : Exchange) : Exchange :=
  { s with x402Billing := some b, mcpOrgId := none, mcpAuthMethod := authMethod, claim := claimed, log := s.log ++ [.accepted b] }

/-- a free tool, of an anonymous caller -/
def handleFreeTool (w : World) (r : Request) (data : PyJson) : Run (Option Reply) :=
  if carriesMppCredential w r data ∧ w.budgetExhausted .free then return some (failureBudgetExceeded (reqIdOf data))
  else if w.ipLimited then return some ipRateLimited
  else do
    Coro.modify (fun s => { s with mcpOrgId := none, mcpAuthMethod := [] })
    return none

def handleMppAuth (w : World) (r : Request) (data : PyJson) : Run (Option Reply) := do
  let price ← Coro.attempt (Coro.lift (toolCallCost w .mpp data))
  match price with
  | .error _ => return some (pricingUnavailable (reqIdOf data))
  | .ok toolCost =>
    if toolCost ≤ 0 then return none
    else do
      let outcome ← Coro.lift (w.verifyMppPayment (mppCredential r data) toolCost)
      match outcome.status with
      | .malformed => return some (.rpcError 402 (reqIdOf data) (-32602) outcome.message)
      | .failed => return some (.rpcError 402 (reqIdOf data) (-32043) outcome.message)
      | .unavailable => return some (executionUnavailable (reqIdOf data))
      | .ok => do
        Coro.modify (accept (.mpp ⟨outcome.source, toolCost, outcome.txHash⟩) "mpp" false)
        return none

/-- the payment header, or the payment of the MCP transport as one -/
def takePaymentHeader (w : World) (r : Request) (data : PyJson) : Run (Option PyStr) := do
  let carried ← Coro.get (paymentHeader r)
  match carried with
  | some header => return some header
  | none => do
    let header ← Coro.lift (metaPaymentHeader w data)
    match nonEmpty header with
    | none => return none
    | some header => do
      Coro.modify (fun s => { s with mcpX402Payment := some header })
      return some header

/-- `_handle_x402_auth`, from the payment header on -/
def handleX402Payment (w : World) (r : Request) (data : PyJson) : Run (Option Reply) := do
  let header ← takePaymentHeader w r data
  let mcpSignal ← Coro.get (fun s => (nonEmpty s.mcpX402Payment).isSome || r.protocolVersion || r.acceptsEventStream)
  let requirements ← Coro.attempt (Coro.lift (x402ToolRequirements w data))
  match requirements with
  | .error _ => return some (pricingUnavailable (reqIdOf data))
  | .ok requirements =>
    match header with
    | none => return some (.paymentRequired (reqIdOf data) mcpSignal [])
    | some header => do
      let billing ← Coro.lift (w.verifyPayment header requirements)
      match billing with
      | .rejected error => return some (.paymentRequired (reqIdOf data) mcpSignal error)
      | .verified p => do
        Coro.modify (accept (.x402 p) "x402" w.pool)
        return none

/-- `_handle_x402_auth`, past the free tools: an MPP credential first -/
def handlePaid (w : World) (r : Request) (data : PyJson) : Run (Option Reply) :=
  if carriesMppCredential w r data then do
    let answer ← handleMppAuth w r data
    match answer with
    | some a => return some a
    | none => do
      let billing ← Coro.get Exchange.x402Billing
      match billing with
      | some (.mpp _) => return none
      | _ =>
        if w.budgetExhausted .x402 then return some (failureBudgetExceeded (reqIdOf data))
        else handleX402Payment w r data
  else handleX402Payment w r data

def handleX402Auth (w : World) (r : Request) (data : PyJson) : Run (Option Reply) :=
  match toolCallName data with
  | none => handlePaid w r data
  | some name =>
    if isCommunityTool name then return some (bearerRequired (reqIdOf data))
    else if name ∈ anonFreeTools then do
      let price ← Coro.attempt (Coro.lift (resolveToolCost w .free (.str name)))
      match price with
      | .error _ => return some (pricingUnavailable (reqIdOf data))
      | .ok cost => if cost = 0 then handleFreeTool w r data else handlePaid w r data
    else handlePaid w r data

def isMachineCredentialRevoked (w : World) (claims : Claims) : Call Bool :=
  if claims.authMethod ≠ PyStr.ofString "client_credentials" then .ok false
  else if (nonEmpty claims.orgId).isNone then .ok false
  else w.credentialDisabled

def bearerError (error : String) : PyStr := "Bearer realm=\"teardrop-mcp\", error=\"" ++ error ++ "\""

/-- `_authenticate` of a bearer token -/
def authenticateBearer (w : World) : Run (Option Reply) :=
  match w.token with
  | .expired => return some (.unauthorized 401 (bearerError "token_expired"))
  | .invalidAudience => return some (.unauthorized 401 (bearerError "invalid_audience"))
  | .invalid => return some (.unauthorized 401 (bearerError "invalid_token"))
  | .valid claims => do
    let revoked ← Coro.lift (isMachineCredentialRevoked w claims)
    if revoked then return some (.unauthorized 403 (bearerError "credential_disabled"))
    else do
      Coro.modify (fun s => { s with mcpOrgId := some (claims.orgId.getD []), mcpAuthMethod := claims.authMethod,
                                     mcpPrincipalId := claims.sub })
      return none

def authenticate (w : World) (r : Request) (data : PyJson) : Run (Option Reply) :=
  if ¬ isAnonymous r then authenticateBearer w
  else if w.settings.mcpAuthEnabled then
    if w.settings.mcpX402Enabled then handleX402Auth w r data
    else return some (.unauthorized 401 "Bearer realm=\"teardrop-mcp\"")
  else do
    Coro.modify (fun s => { s with mcpOrgId := none, mcpAuthMethod := [] })
    return none

/-! ## Releases -/

def releasePaymentNonce (w : World) : Run Unit :=
  if w.pool then Coro.await w.releaseCut (fun s => ((), { s with claim := false })) else return ()

def releasePaymentClaim (w : World) (r : Request) : Run Unit := do
  let s ← Coro.get id
  match s.x402Billing with
  | some (.mpp _) => return ()
  | _ => if (paymentHeader r s).isSome then releasePaymentNonce w else return ()

def releaseX402Reservation (w : World) (r : Request) : Run Unit := do
  let s ← Coro.get id
  match s.x402Billing with
  | some (.mpp _) => Coro.modify (fun s => { s with mcpX402Reserved := false })
  | _ =>
    if s.mcpX402Reserved then do
      if (paymentHeader r s).isSome then do
        let _ ← Coro.attempt (releasePaymentNonce w)
        Coro.modify (fun s => { s with mcpX402Reserved := false })
      else Coro.modify (fun s => { s with mcpX402Reserved := false })
    else return ()

/-! ## The billing gate -/

inductive GateOutcome where
  | pass
  | pending (p : Pending)
  | refused (a : Reply)

/-- the name and the price `_billing_gate` reads; none without a name -/
def billedCall (w : World) (data : PyJson) : Call (Option (PyStr × ℤ)) := do
  let params ← getD data "params" (.obj [])
  let toolName ← getD params "name" (.str [])
  if ¬ toolName.truthy then return none
  else do
    let toolCost ← resolveToolCost w .gate toolName
    match toolName with
    | .str name => return some (name, toolCost)
    | _ => .error .typeError

/-- the refusals of the x402 branch, each after the release of the claim -/
def refuseX402 (w : World) (r : Request) (a : Reply) : Run GateOutcome := do
  releasePaymentClaim w r
  return .refused a

/-- exact settles the full authorized amount -/
def authorizedCost (p : X402Payment) (toolCost : ℤ) : ℤ :=
  if p.requirement.scheme = "exact" ∧ 0 < p.requirement.amount then p.requirement.amount else toolCost

/-- the x402 branch of `_billing_gate` -/
def gateX402 (w : World) (r : Request) (p : X402Payment) (pending : Pending) : Run GateOutcome := do
  let header ← Coro.get (paymentHeader r)
  let pending := { pending with toolCost := authorizedCost p pending.toolCost }
  match header with
  | none => refuseX402 w r (.rpcError 402 pending.reqId (-32000) "Verified payer identity is required.")
  | some header =>
    if p.payer.strip = [] then
      refuseX402 w r (.rpcError 402 pending.reqId (-32000) "Verified payer identity is required.")
    else if w.payerLocked p.payer then
      refuseX402 w r (.rpcError 429 pending.reqId (-32029) "Payer tool failure budget exceeded")
    else if w.reservePayerSpend header p.payer pending.toolCost then do
      Coro.modify (fun s => { s with mcpX402Reserved := true })
      return .pending pending
    else refuseX402 w r (.rpcError 429 pending.reqId (-32029) "Anonymous x402 payer daily spend limit reached.")

/-- `_meta["teardrop/max_cost_usdc"]`: the refusal of a bound that is no bound, or is exceeded -/
def maxCostRefusal (data : PyJson) (toolCost : ℤ) : Option Reply :=
  let invalid : Reply := .rpcError 400 (reqIdOf data) (-32602)
    "_meta['teardrop/max_cost_usdc'] must be a non-negative integer (atomic USDC)."
  match metaEntry data "teardrop/max_cost_usdc" with
  | .null => none
  | .int maxCost =>
    if maxCost < 0 then some invalid
    else if maxCost < toolCost then some (.rpcError 402 (reqIdOf data) (-32004)
      ("Tool price " ++ toString toolCost ++ " atomic USDC exceeds max_cost_usdc " ++ toString maxCost ++ "." : String))
    else none
  | _ => some invalid

/-- a community tool on the credit rail: it exists, and the caller is not its author -/
def communityRefusal (w : World) (pending : Pending) : Call (Option Reply) :=
  if ¬ isCommunityTool pending.toolName then .ok none
  else do
    let author ← w.marketplaceTool pending.toolName
    match author with
    | none => return some (.rpcError 404 pending.reqId (-32601) (PyStr.ofString "Tool not found: " ++ pending.toolName))
    | some org =>
      if some org = pending.orgId then return some (.rpcError 403 pending.reqId (-32005)
        "Authors cannot call their own marketplace tool here; use POST /tools/test-webhook.")
      else return none

/-- the credit branch of `_billing_gate` -/
def gateCredit (w : World) (data : PyJson) (pending : Pending) : Run GateOutcome := do
  let promotional ← Coro.lift
    (if w.settings.onboardingCreditEnabled ∧ isCommunityTool pending.toolName then w.isPromotionalCredit else .ok false)
  if promotional then
    return .refused (.rpcError 403 pending.reqId (-32003) "Marketplace author tools require a funded credit balance.")
  else do
    let refusal ← Coro.lift (communityRefusal w pending)
    match refusal.or (maxCostRefusal data pending.toolCost) with
    | some a => return .refused a
    | none => do
      let unverified ← Coro.lift (w.verifyCredit pending.toolCost)
      match unverified with
      | some error => return .refused (.rpcError 402 pending.reqId (-32000) error)
      | none => return .pending pending

/-- `_billing_gate`, of a request that can be billed -/
def gateBody (w : World) (r : Request) (data : PyJson) : Run GateOutcome := do
  let method ← Coro.lift (getD data "method" (.str []))
  if method ≠ .str "tools/call" then return .pass
  else do
    let billed ← Coro.lift (billedCall w data)
    match billed with
    | none => return .pass
    | some (toolName, toolCost) => do
      let s ← Coro.get id
      let pending : Pending := ⟨s.mcpOrgId, toolCost, toolName, reqIdOf data⟩
      match s.x402Billing with
      | some (.mpp p) => return .pending { pending with toolCost := p.amountUsdc }
      | some (.x402 p) => gateX402 w r p pending
      | none => gateCredit w data pending

/-- the body of a billed request: one that is no JSON has none -/
def gateData (w : World) (r : Request) : Call (Option PyJson) :=
  match loadsBytes w.limit r.body with
  | .ok data => .ok (some data)
  | .error .decode => .ok none
  | .error e => Mpp.ofJson (.error e)

def billingGate (w : World) (r : Request) : Run GateOutcome := do
  let s ← Coro.get id
  if ¬ w.settings.mcpBillingEnabled ∨ s.x402Billing = none ∧ s.mcpOrgId = none ∨ r.method ≠ "POST" then return .pass
  else do
    let data ← Coro.lift (gateData w r)
    match data with
    | none => return .pass
    | some data => gateBody w r data

/-! ## Settlement -/

/-- `_response_indicates_failure`: a body that is no JSON is no failure -/
def responseIndicatesFailure (w : World) (response : Response) : Bool :=
  match loadsBytes w.limit response.body with
  | .error _ => false
  | .ok data => (data.get? "error").isSome || ((data.get? "result").bind (·.get? "isError")) = some (.bool true)

def recordMcpOutcome (w : World) (method status : String) : Run Unit := do
  record (.charge method status)
  Coro.lift w.recordCharge

def enqueueMcpRecovery (w : World) (toolCost : ℤ) : Run Unit := do
  record (.enqueue toolCost)
  let _ ← Coro.attempt (Coro.lift w.enqueueFailedSettlement)
  return ()

/-- a settlement that raised is not settled -/
def isSettled : Except Exc Bool → Bool
  | .ok settled => settled
  | .error _ => false

/-- the x402 branch of `_settle_billing` -/
def settleX402 (w : World) (r : Request) (pending : Pending) (response : Response) : Run Answer := do
  let answer ← Coro.attempt (Coro.lift w.settlePayment)
  record (.settlement (isSettled answer))
  if isSettled answer then do
    recordMcpOutcome w "x402" "settled"
    return .response response
  else do
    recordMcpOutcome w "x402" "failed"
    let mcpSignal ← Coro.get (fun s => (nonEmpty s.mcpX402Payment).isSome || r.protocolVersion || r.acceptsEventStream)
    return .own (.paymentRequired pending.reqId mcpSignal "Payment settlement failed; the tool result was withheld.")

/-- the credit branch of `_settle_billing` -/
def settleCredit (w : World) (pending : Pending) (response : Response) : Run Answer := do
  let debited ← Coro.lift w.debitCredit
  record (.debit pending.toolCost debited)
  if debited then do
    recordMcpOutcome w "credit" "settled"
    return .response response
  else do
    recordMcpOutcome w "credit" "failed"
    enqueueMcpRecovery w pending.toolCost
    return .response response

/-- `_settle_billing`; receipts and headers it puts on the response are left out -/
def settleBilling (w : World) (r : Request) (pending : Pending) (response : Response) (executionFailed : Bool) :
    Run Answer := do
  let s ← Coro.get id
  match s.x402Billing with
  | some (.mpp _) => do
    recordMcpOutcome w "mpp" "settled"
    return .response response
  | billing =>
    if executionFailed then do
      releaseX402Reservation w r
      return .response response
    else
      match billing with
      | some _ => settleX402 w r pending response
      | none => settleCredit w pending response

/-! ## Dispatch -/

/-- `await call_next(request)` -/
def callNext (w : World) (pending : Option Pending) : Run Response := do
  record (.callNext pending)
  Coro.lift w.next

/-- the mounted server under a pending charge, and what follows its response -/
def runPending (w : World) (r : Request) (pending : Pending) : Run Answer := do
  record (.gated (some pending))
  let result ← Coro.attempt (callNext w (some pending))
  match result with
  | .error e => do
    releaseX402Reservation w r
    Coro.raise e
  | .ok response =>
    if response.status = 200 then settleBilling w r pending response (responseIndicatesFailure w response)
    else do
      releaseX402Reservation w r
      return .response response

/-- the gate let the request pass without a charge -/
def runUnbilled (w : World) (r : Request) (data : PyJson) : Run Answer := do
  let s ← Coro.get id
  if s.x402Billing.isSome then do
    releasePaymentClaim w r
    return .own (executionUnavailable (reqIdOf data))
  else if (toolCallName data).any isCommunityTool then
    return .own (if w.settings.mcpBillingEnabled then bearerRequired (reqIdOf data) else executionUnavailable (reqIdOf data))
  else do
    record (.gated none)
    let result ← Coro.attempt (callNext w none)
    match result with
    | .error e => do
      releaseX402Reservation w r
      Coro.raise e
    | .ok response => return .response response

/-- the phases after the authentication -/
def afterAuthentication (w : World) (r : Request) (data : PyJson) : Run Answer := do
  record .authenticated
  let s ← Coro.get id
  if (nonEmpty s.mcpOrgId).isSome ∧ w.orgLimited then return .own orgRateLimited
  else do
    let gate ← billingGate w r
    match gate with
    | .refused a => return .own a
    | .pending p => runPending w r p
    | .pass => runUnbilled w r data

/-- a request classified for execution -/
def execute (w : World) (r : Request) (reqId : PyJson) : Run Answer :=
  let data := readJsonrpc w r
  if isAnonymous r ∧ ¬ carriesMppCredential w r data ∧ w.budgetExhausted .start then return .own (failureBudgetExceeded reqId)
  else do
    let answer ← authenticate w r data
    match answer with
    | some a => return .own a
    | none => afterAuthentication w r data

/-- a request classified as public discovery -/
def discover (w : World) (smithery : Option PyJson) : Run Answer :=
  if w.ipLimited then return .own ipRateLimited
  else do
    Coro.modify (fun s => { s with mcpOrgId := none, mcpAuthMethod := [] })
    match smithery with
    | some reqId => return .own (.eventsList reqId)
    | none => do
      let response ← callNext w none
      return .response response

/-- the price example of the Bazaar listing -/
def bazaarInputExample : PyJson :=
  .obj [("jsonrpc", .str "2.0"), ("id", .int 1), ("method", .str "tools/call"),
    ("params", .obj [("name", .str "get_token_price"), ("arguments", .obj [("tokens", .arr [.str "ETH"])])])]

/-- `_payment_probe_challenge` -/
def paymentProbe (w : World) : Run Answer :=
  if w.ipLimited then return .own ipRateLimited
  else do
    let requirements ← Coro.attempt (Coro.lift (x402ToolRequirements w bazaarInputExample))
    match requirements with
    | .error _ => return .own (pricingUnavailable .null)
    | .ok _ => return .own (.paymentRequired .null false [])

def dispatch (w : World) (r : Request) : Run Answer :=
  if ¬ w.mounted ∧ ¬ r.underMcp then do
    let response ← callNext w none
    return .response response
  else
    match route w r with
    | .paymentProbe => paymentProbe w
    | .publicDiscovery smithery => discover w smithery
    | .execution reqId => execute w r reqId

/-- a request, from its fresh state -/
def run (w : World) (r : Request) : Exit Exc Answer × Exchange := dispatch w r {}

end Teardrop.Gateway
