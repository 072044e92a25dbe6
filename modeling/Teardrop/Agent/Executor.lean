/-
The tool execution stage of the agent (`agent/node_executor.py`), with `execute_tool` (`tools/executor.py`) as far as it
makes the result of a call.

What a tool does is in `Env`: the i-th accepted call returns a value, raises, times out alone or is still pending when the
batch times out; a call of `delegate_to_agent` that returns, returns a `DelegateResult`. The metadata of a run is never empty, so
a delegation always meets its quota check. Of the interpreter, `str` of a value that is not text and `str.lower` beyond ASCII
are parameters. The arguments of a call come from `json.loads`, so writing them for the signature does not fail.
-/
import Teardrop.Core.Sha256
import Teardrop.Agent.PlanIr

namespace Teardrop.Agent

open Teardrop.Py

/-! ## Data -/

/-- a tool call: `{"id", "name", "args"}` -/
structure Call where
  id : PyStr
  name : PyStr
  args : List (PyStr × PyJson)

inductive Message where
  | system (content : PyStr)
  | human (content : PyStr)
  | ai (content : PyStr) (toolCalls : List Call)
  | tool (content : PyStr) (toolCallId : PyStr)

inductive TaskStatus where
  | idle
  | planning
  | executing
  | generatingUi
  | completed
  | failed
deriving DecidableEq

/-- the record of one model turn in `_usage["turns"]` -/
structure Turn where
  provider : PyStr
  model : PyStr
  tokensIn : ℤ
  tokensOut : ℤ
  cacheReadTokens : ℤ
  cacheCreationTokens : ℤ
  /-- what a gateway reported of the model, provider and cost behind it -/
  upstream : List (PyStr × PyJson) := []

/-- `metadata["_usage"]` -/
structure Usage where
  tokensIn : ℤ := 0
  tokensOut : ℤ := 0
  cacheReadTokens : ℤ := 0
  cacheCreationTokens : ℤ := 0
  turns : List Turn := []
  toolNames : List PyStr := []
  failedToolNames : List PyStr := []
  toolCallCounts : PyStr → ℕ := fun _ => 0
  customToolCalls : ℕ := 0
  defiPositionsCovered : List PyStr := []
  completedCalls : List PyStr := []
  toolCalls : ℕ := 0
  billableToolCalls : ℕ := 0
  failedToolCalls : ℕ := 0
  toolIterations : ℕ := 0
  delegationSpendUsdc : ℤ := 0
  delegationCount : ℕ := 0

structure State where
  messages : List Message := []
  taskStatus : TaskStatus := .idle
  usage : Usage := {}
  planOutputs : List (PyStr × PyJson) := []
  excludedToolNames : List PyStr := []
  synthesisForced : Bool := false
  plan : Option Plan := none

/-- a tool of a run: its `metadata`, when it has a dict there -/
structure Tool where
  metadata : List (PyStr × PyJson) := []

structure Config where
  platformTools : List (PyStr × Tool) := []
  orgTools : List (PyStr × Tool) := []
  agentToolMaxCallsPerRun : List (PyStr × ℤ) := []
  maxCustomToolCallsPerRun : ℤ := 5
  a2aDelegationMaxPerRun : ℤ := 3
  agentMaxToolResultChars : ℤ := 8000
  agentMaxToolIterations : ℤ := 4
  agentCompilerModeEnabled : Bool := false
  /-- the two timeouts as the texts show them -/
  singleToolTimeout : PyStr := PyStr.ofString "30.0"
  toolExecutorTimeout : PyStr := PyStr.ofString "120"

/-- what the model takes from the interpreter -/
structure Interp where
  /-- `str(value)` of a value that is not text -/
  str : PyJson → PyStr
  /-- `str.lower` of a character beyond ASCII -/
  wide : PyChar → PyStr
  /-- how deep `json` nests -/
  limit : ℕ
  limit_pos : 1 ≤ limit

/-- what `delegate_to_agent` returns -/
structure DelegateResult where
  agentName : PyStr
  status : PyStr
  result : PyStr
  error : Option PyStr
  costUsdc : ℤ
  cost_fits : costUsdc.natAbs < 10 ^ PyJson.maxIntDigits

/-- the dict of the result -/
def DelegateResult.toDict (r : DelegateResult) : List (PyStr × PyJson) :=
  [(PyStr.ofString "agent_name", .str r.agentName), (PyStr.ofString "status", .str r.status),
    (PyStr.ofString "result", .str r.result), (PyStr.ofString "error", (r.error.map PyJson.str).getD .null),
    (PyStr.ofString "cost_usdc", .int r.costUsdc)]

/-- what `execute_tool` meets when it invokes a tool -/
inductive Invocation where
  | returned (value : PyJson)
  | timedOut
  | invalidArguments
  | clientError
  | raised

/-- what becomes of an accepted call -/
inductive Behaviour where
  | ran (i : Invocation)
  /-- the timeout of one call, around `execute_tool` -/
  | perToolTimeout
  /-- an exception of the executor itself, with its class -/
  | unexpected (cls : PyStr)
  /-- still running when the batch times out -/
  | pending

structure Env where
  behaviour : ℕ → Behaviour
  delegation : ℕ → DelegateResult

/-! ## Names -/

def delegateToAgent : PyStr := PyStr.ofString "delegate_to_agent"

def getLiquidationRisk : PyStr := PyStr.ofString "get_liquidation_risk"

def getTokenPrice : PyStr := PyStr.ofString "get_token_price"

def getDefiPositions : PyStr := PyStr.ofString "get_defi_positions"

def assoc {α : Type} (k : PyStr) (l : List (PyStr × α)) : Option α := (l.find? (fun p => p.1 = k)).map Prod.snd

def isPlatform (cfg : Config) (name : PyStr) : Bool := name ∈ cfg.platformTools.map Prod.fst

/-- `tools_by_name.get(name)`: an org tool hides a platform tool, and excluded names are left out -/
def toolNamed (cfg : Config) (excluded : List PyStr) (name : PyStr) : Option Tool :=
  if name ∈ excluded then none else (assoc name cfg.orgTools).or (assoc name cfg.platformTools)

/-- `isinstance(value, int)`: booleans are -/
def asInt : PyJson → Option ℤ
  | .int n => some n
  | .bool b => some (if b then 1 else 0)
  | _ => none

/-- the cap of a platform tool: its own when that is positive, else the configured one -/
def toolCap (cfg : Config) (excluded : List PyStr) (name : PyStr) : Option ℤ :=
  let configured := assoc name cfg.agentToolMaxCallsPerRun
  match (toolNamed cfg excluded name).bind (fun t => (assoc (PyStr.ofString "max_calls_per_run") t.metadata).bind asInt) with
  | some n => if 0 < n then some n else configured
  | none => configured

/-! ## Suppression -/

/-- `int(value)` -/
def pyInt : PyJson → Py.Call ℤ
  | .int n => .ok n
  | .bool b => .ok (if b then 1 else 0)
  | .float .nan => .error (.valueError "cannot convert float NaN to integer")
  | .float x => match x.toInt? with
    | some n => .ok n
    | none => .error .overflowError
  | .str s => match s.toInt? with
    | some n => .ok n
    | none => .error (.valueError "invalid literal for int()")
  | _ => .error .typeError

/-- `str(value)` -/
def pyStr (py : Interp) : PyJson → PyStr
  | .str s => s
  | v => py.str v

/-- `f"{int(chain_id)}:{str(addr).lower()}"` -/
def coverageKey (py : Interp) (chainId : ℤ) (addr : PyJson) : PyStr :=
  PyJson.renderInt chainId ++ PyStr.ofString ":" ++ PyStr.lower py.wide (pyStr py addr)

def getLiquidationRiskTargets (py : Interp) (args : List (PyStr × PyJson)) : Py.Call (List PyStr) :=
  match PyJson.lookup (PyStr.ofString "chain_id") args with
  | none | some .null => .ok []
  | some chainId =>
    match PyJson.lookup (PyStr.ofString "wallet_addresses") args with
    | some (.arr wallets) =>
      (wallets.filter PyJson.truthy).mapM (fun addr => (pyInt chainId).map (fun n => coverageKey py n addr))
    | _ => .ok []

def callSignature (name : PyStr) (args : List (PyStr × PyJson)) : PyStr :=
  let text := PyJson.render ⟨true, false⟩ (PyJson.canon (.obj args))
  let digest := Sha256.hexdigest (text.flatMap Utf8.encodeChar)
  name ++ PyStr.ofString ":" ++ (PyStr.ofString digest).take 16

/-- whether all the tokens asked for are bare addresses -/
def addressOnly (py : Interp) (args : List (PyStr × PyJson)) : Bool :=
  match PyJson.lookup (PyStr.ofString "tokens") args with
  | some (.arr tokens) =>
    let normalized := tokens.filterMap (fun t =>
      match t with
      | .str s => if PyStr.strip s = [] then none else some (PyStr.lower py.wide (PyStr.strip s))
      | _ => none)
    normalized ≠ [] && normalized.all (fun s => s.take 2 = PyStr.ofString "0x")
  | _ => false

/-- why a call is not executed -/
inductive Skip where
  | toolUnavailable
  | customToolCap
  | toolCap (cap : ℤ)
  | semanticRedundancy
  | addressOnly
  | duplicate

/-- the text of the message a suppressed call gets -/
def Skip.content (cfg : Config) (name : PyStr) : Skip → PyStr
  | .toolUnavailable => PyStr.ofString "[TOOL_UNAVAILABLE] Tool '" ++ name ++
      PyStr.ofString "' is not configured in this run. Synthesize from existing data."
  | .customToolCap => PyStr.ofString "[CUSTOM_TOOL_CAP_EXCEEDED] custom tool calls exceeded per-run cap (" ++
      PyJson.renderInt cfg.maxCustomToolCallsPerRun ++ PyStr.ofString ")."
  | .toolCap cap => PyStr.ofString "[TOOL_CALL_CAP_EXCEEDED] '" ++ name ++ PyStr.ofString "' exceeded the per-run cap (" ++
      PyJson.renderInt cap ++ PyStr.ofString "). Reuse prior results already in the conversation."
  | .semanticRedundancy => PyStr.ofString ("[SEMANTIC_REDUNDANCY_BLOCKED] get_defi_positions already returned " ++
      "risk-relevant data for the requested wallet(s)/chain. " ++
      "Use those results instead of re-calling get_liquidation_risk.")
  | .addressOnly => PyStr.ofString ("[GET_TOKEN_PRICE_BLOCKED] All requested tokens are bare 0x addresses. " ++
      "CoinGecko cannot resolve address-only identifiers. " ++
      "Report these as unrecognized (address-only) and continue synthesis.")
  | .duplicate => PyStr.ofString "[DUPLICATE_CALL_BLOCKED] '" ++ name ++ PyStr.ofString ("' was already called " ++
      "with identical arguments this session. " ++ "Use the prior result already present in the conversation.")

/-- the keys whose coverage makes a call redundant -/
def redundancyTargets (py : Interp) (c : Call) : Py.Call (List PyStr) :=
  if c.name = getLiquidationRisk then getLiquidationRiskTargets py c.args else .ok []

/-- the signatures of the platform calls of a list -/
def signatures (cfg : Config) (calls : List Call) : List PyStr :=
  (calls.filter (fun c => isPlatform cfg c.name)).map (fun c => callSignature c.name c.args)

/-- what the loop does with a platform call below its cap -/
def contentVerdict (cfg : Config) (py : Interp) (u : Usage) (accepted : List Call) (c : Call) (targets : List PyStr) :
    Option Skip :=
  if targets ≠ [] ∧ targets.all (fun t => t ∈ u.defiPositionsCovered) then some .semanticRedundancy
  else if c.name = getTokenPrice ∧ addressOnly py c.args then some .addressOnly
  else if callSignature c.name c.args ∈ u.completedCalls ∨ callSignature c.name c.args ∈ signatures cfg accepted then
    some .duplicate
  else none

/-- the body of the suppression loop: what it does with `c` after `accepted` of the batch were accepted -/
def verdict (cfg : Config) (py : Interp) (excluded : List PyStr) (u : Usage) (accepted : List Call) (c : Call) :
    Py.Call (Option Skip) :=
  if (toolNamed cfg excluded c.name).isNone then .ok (some .toolUnavailable)
  else if isPlatform cfg c.name = false then
    if (u.customToolCalls + accepted.countP (fun a => isPlatform cfg a.name = false) : ℤ) ≥ cfg.maxCustomToolCallsPerRun then
      .ok (some .customToolCap)
    else .ok none
  else
    match (toolCap cfg excluded c.name).filter (fun cap =>
        (u.toolCallCounts c.name + accepted.countP (fun a => a.name = c.name) : ℤ) ≥ cap) with
    | some cap => .ok (some (.toolCap cap))
    | none => (redundancyTargets py c).map (contentVerdict cfg py u accepted c)

/-- the suppression loop: the accepted calls, and the messages of the others -/
def suppress (cfg : Config) (py : Interp) (excluded : List PyStr) (u : Usage) :
    List Call → List Call → Py.Call (List Call × List Message)
  | accepted, [] => .ok (accepted, [])
  | accepted, c :: calls => do
    match ← verdict cfg py excluded u accepted c with
    | none => suppress cfg py excluded u (accepted ++ [c]) calls
    | some why =>
      let (all, skipped) ← suppress cfg py excluded u accepted calls
      return (all, .tool (why.content cfg c.name) c.id :: skipped)

/-! ## One tool -/

/-- `needle in text` -/
def isIn (needle : String) (text : PyStr) : Bool := text.tails.any (fun t => (PyStr.ofString needle).isPrefixOf t)

def errorContent (errorClass message : PyStr) (retrySafe billable : Bool) : PyStr :=
  PyJson.render ⟨true, false⟩ (.obj
    [(PyStr.ofString "status", .str (PyStr.ofString "error")), (PyStr.ofString "error_class", .str errorClass),
      (PyStr.ofString "message", .str message), (PyStr.ofString "retry_safe", .bool retrySafe),
      (PyStr.ofString "billable", .bool billable)])

structure ToolResult where
  content : PyStr
  billable : Bool

/-- the result of a failure -/
def ToolResult.failure (errorClass : String) (message : PyStr) (retrySafe billable : Bool) : ToolResult :=
  ⟨errorContent (PyStr.ofString errorClass) message retrySafe billable, billable⟩

def upstreamErrorTypes : List PyStr :=
  ["upstream_error", "upstream_unavailable", "rate_limited", "authentication_error", "malformed_response",
    "non_json_response", "invalid_json"].map PyStr.ofString

/-- an HTTP status of the upstream's fault -/
def upstreamStatus : Option PyJson → Bool
  | some (.int n) => n ≥ 500 ∨ n = 429
  | _ => false

/-- `_classify_embedded_error`, and the result made of it -/
def classifyEmbeddedError (py : Interp) (fields : List (PyStr × PyJson)) : ToolResult :=
  let errorType := match PyJson.lookup (PyStr.ofString "error_type") fields with
    | some v => if v.truthy then PyStr.lower py.wide (pyStr py v) else []
    | none => []
  let error := PyJson.lookup (PyStr.ofString "error") fields
  let raw := PyStr.lower py.wide ((error.map (pyStr py)).getD (PyStr.ofString "tool execution failed"))
  if errorType = PyStr.ofString "timeout" then .failure "timeout" (PyStr.ofString "Tool timed out") true false
  else if errorType ∈ upstreamErrorTypes ∨ upstreamStatus (PyJson.lookup (PyStr.ofString "status") fields) then
    .failure "upstream_unavailable" (PyStr.ofString "Tool upstream is unavailable") true false
  else if isIn "timeout" raw ∨ isIn "timed out" raw then .failure "timeout" (PyStr.ofString "Tool timed out") true false
  else if isIn "temporarily unavailable" raw ∨ isIn "circuit breaker" raw then
    .failure "upstream_unavailable" (PyStr.ofString "Tool is temporarily unavailable") true false
  else if isIn "url blocked" raw ∨ isIn "decrypt" raw ∨ isIn "request failed" raw ∨ isIn "connection" raw then
    .failure "upstream_unavailable" (PyStr.ofString "Tool upstream is unavailable") true false
  else if isIn "non-json" raw ∨ isIn "invalid json" raw then
    .failure "upstream_unavailable" (PyStr.ofString "Tool returned an invalid upstream response") true false
  else .failure "business_error" ((error.map (pyStr py)).getD (PyStr.ofString "Tool execution failed")) false true

/-- `_serialize_content`; text is kept as it is -/
def serializeContent (py : Interp) : PyJson → Except PyJson.JsonError PyStr
  | .str s => .ok s
  | v => PyJson.dumps ⟨true, false⟩ py.limit v

/-- the dict of a result that reports an error: `isinstance(result, dict) and result.get("error")` -/
def embeddedError : PyJson → Option (List (PyStr × PyJson))
  | .obj fields => if ((PyJson.lookup (PyStr.ofString "error") fields).map PyJson.truthy).getD false then some fields else none
  | _ => none

/-- `execute_tool` for a tool that exists -/
def executeTool (py : Interp) (name : PyStr) : Invocation → ToolResult
  | .returned value =>
    match embeddedError value with
    | some fields => classifyEmbeddedError py fields
    | none => match serializeContent py value with
      | .ok content => ⟨content, true⟩
      | .error _ => .failure "business_error" (PyStr.ofString "Tool execution failed") false false
  | .timedOut => .failure "timeout" (PyStr.ofString "Tool timed out") true false
  | .invalidArguments =>
    .failure "validation_error" (PyStr.ofString "Invalid arguments for tool '" ++ name ++ PyStr.ofString "'") false false
  | .clientError => .failure "upstream_unavailable" (PyStr.ofString "Tool upstream is unavailable") true false
  | .raised => .failure "business_error" (PyStr.ofString "Tool execution failed") false false

/-- an accepted call, with what becomes of it -/
structure Job where
  call : Call
  behaviour : Behaviour
  delegation : DelegateResult

/-- the jobs of a batch -/
def jobsOf (env : Env) (accepted : List Call) : List Job :=
  accepted.mapIdx (fun i c => ⟨c, env.behaviour i, env.delegation i⟩)

/-- the dict of one result; `full_content` defaults to `content` -/
structure Result where
  id : PyStr
  name : PyStr
  content : PyStr
  fullContent : PyStr
  billable : Bool

def Result.message (r : Result) : Message := .tool r.content r.id

/-- `agent_max_tool_result_chars` -/
def truncated (cfg : Config) (content : PyStr) : PyStr :=
  if 0 < cfg.agentMaxToolResultChars ∧ cfg.agentMaxToolResultChars < content.length then
    content.take cfg.agentMaxToolResultChars.toNat ++ PyStr.ofString "...[TRUNCATED: " ++
      PyJson.renderNat content.length ++ PyStr.ofString " chars total]"
  else content

/-- the quota of delegations is used up, as the usage before the batch has it -/
def quotaExceeded (cfg : Config) (u : Usage) : Bool := (u.delegationCount : ℤ) ≥ cfg.a2aDelegationMaxPerRun

/-- the call meets the quota instead of its tool -/
def Job.refused (cfg : Config) (u : Usage) (j : Job) : Bool := j.call.name = delegateToAgent && quotaExceeded cfg u

def quotaContent (cfg : Config) : PyStr :=
  PyJson.render ⟨true, false⟩ (.obj
    [(PyStr.ofString "agent_name", .str (PyStr.ofString "unknown")), (PyStr.ofString "status", .str (PyStr.ofString "failed")),
      (PyStr.ofString "result", .str []),
      (PyStr.ofString "error", .str (PyStr.ofString "Delegation quota exceeded: max " ++
        PyJson.renderInt cfg.a2aDelegationMaxPerRun ++ PyStr.ofString " per run")),
      (PyStr.ofString "cost_usdc", .int 0)])

/-- what the tool of a job meets: a delegation that returns, returns its `DelegateResult` -/
def Job.invocation (j : Job) (i : Invocation) : Invocation :=
  match i with
  | .returned _ => if j.call.name = delegateToAgent then .returned (.obj j.delegation.toDict) else i
  | _ => i

/-- a result that failed outside its tool -/
def Job.failed (j : Job) (content : PyStr) : Result := ⟨j.call.id, j.call.name, content, content, false⟩

/-- `[TOOL_TIMEOUT]`, of one call or of the batch -/
def timeoutContent (name seconds scope : PyStr) : PyStr :=
  PyStr.ofString "[TOOL_TIMEOUT] '" ++ name ++ PyStr.ofString "' exceeded the " ++ seconds ++ PyStr.ofString "s " ++ scope ++
    PyStr.ofString " timeout. Continue synthesis with available data."

/-- `_execute_single_tool_safe`, with the entry a pending call gets from the node -/
def Job.result (cfg : Config) (py : Interp) (u : Usage) (j : Job) : Result :=
  if j.refused cfg u then j.failed (quotaContent cfg)
  else match j.behaviour with
    | .ran i =>
      let r := executeTool py j.call.name (j.invocation i)
      ⟨j.call.id, j.call.name, truncated cfg r.content, r.content, r.billable⟩
    | .perToolTimeout => j.failed (timeoutContent j.call.name cfg.singleToolTimeout (PyStr.ofString "per-tool"))
    | .unexpected cls => j.failed (PyStr.ofString "[TOOL_ERROR] '" ++ j.call.name ++
        PyStr.ofString "' failed unexpectedly (" ++ cls ++ PyStr.ofString "). Continue synthesis with available data.")
    | .pending => j.failed (timeoutContent j.call.name cfg.toolExecutorTimeout (PyStr.ofString "batch"))

/-- the call is still running when the batch times out; a refused one is done at once -/
def Job.isPending (cfg : Config) (u : Usage) (j : Job) : Bool :=
  !j.refused cfg u && (match j.behaviour with | .pending => true | _ => false)

/-! ## Accounting -/

/-- the protocols that `errors` of a `get_defi_positions` result names; iterating text or a dict gives no dict -/
def failedProtocols (py : Interp) : PyJson → Py.Call (List PyStr)
  | .arr items => .ok (items.filterMap (fun err =>
      match err.get? (PyStr.ofString "protocol") with
      | some v => if v.truthy then some (PyStr.lower py.wide (pyStr py v)) else none
      | none => none))
  | .str _ | .obj _ => .ok []
  | v => if v.truthy then .error .typeError else .ok []

def coveredDefiKeysFromResult (py : Interp) (content : PyStr) : Py.Call (List PyStr) :=
  match PyJson.loads py.limit content with
  | .error .recursion => .error .recursionError
  | .error _ => .ok []
  | .ok (.obj payload) =>
    match PyJson.lookup (PyStr.ofString "wallet_address") payload, PyJson.lookup (PyStr.ofString "chain_id") payload with
    | some wallet, some chainId =>
      if wallet.truthy = false ∨ chainId = .null then .ok []
      else do
        let failed ← failedProtocols py ((PyJson.lookup (PyStr.ofString "errors") payload).getD .null)
        if PyStr.ofString "aave_v3" ∈ failed ∨ PyStr.ofString "compound_v3" ∈ failed then return []
        let n ← pyInt chainId
        return [coverageKey py n wallet]
    | _, _ => .ok []
  | .ok _ => .error .attributeError

/-- `int(json.loads(content).get("cost_usdc", 0))`, with nothing for what the node swallows -/
def delegationCost (py : Interp) (content : PyStr) : Py.Call ℤ :=
  match PyJson.loads py.limit content with
  | .error .recursion => .error .recursionError
  | .error _ => .ok 0
  | .ok (.obj fields) =>
    match pyInt ((PyJson.lookup (PyStr.ofString "cost_usdc") fields).getD (.int 0)) with
    | .ok n => .ok n
    | .error .typeError | .error (.valueError _) => .ok 0
    | .error e => .error e
  | .ok _ => .error .attributeError

/-- the tools with a slot writer (`_WRITERS`) -/
def slotWriters : List PyStr :=
  ["assess_counterparty_risk", "get_wallet_portfolio", "get_erc20_balance", "get_token_price", "get_defi_positions",
    "get_lending_rates", "get_protocol_tvl", "validate_opportunity"].map PyStr.ofString

/-- `summarize_into_slots`, of which only the parse can raise -/
def summarizeIntoSlots (py : Interp) (name content : PyStr) : Py.Call Unit :=
  if name ∈ slotWriters then
    match PyJson.loads py.limit content with
    | .error .recursion => .error .recursionError
    | _ => .ok ()
  else .ok ()

/-- the accounting of a batch; covered keys are a set -/
def account (cfg : Config) (py : Interp) (u : Usage) (accepted : List Call) (results : List Result) : Py.Call Usage := do
  let covered ← (results.filter (fun r => r.name = getDefiPositions)).mapM (fun r => coveredDefiKeysFromResult py r.content)
  let delegations := results.filter (fun r => r.name = delegateToAgent)
  let costs ← delegations.mapM (fun r => delegationCost py r.content)
  let _ ← results.mapM (fun r => summarizeIntoSlots py r.name r.fullContent)
  return { u with
    toolNames := u.toolNames ++ (results.filter Result.billable).map Result.name
    failedToolNames := u.failedToolNames ++ (results.filter (fun r => r.billable = false)).map Result.name
    completedCalls := u.completedCalls ++ signatures cfg accepted
    toolCallCounts := fun n => u.toolCallCounts n + results.countP (fun r => r.name = n)
    defiPositionsCovered := u.defiPositionsCovered ++ covered.flatten
    toolCalls := u.toolCalls + accepted.length
    customToolCalls := u.customToolCalls + accepted.countP (fun c => isPlatform cfg c.name = false)
    billableToolCalls := u.billableToolCalls + results.countP Result.billable
    failedToolCalls := u.failedToolCalls + results.countP (fun r => r.billable = false)
    toolIterations := u.toolIterations + 1
    delegationSpendUsdc := u.delegationSpendUsdc + costs.sum
    delegationCount := u.delegationCount + delegations.length }

/-! ## The node -/

/-- the plan, while it is not done -/
def State.activePlan (s : State) : Option Plan := s.plan.filter (fun p => !p.isDone)

/-- the calls of a stage whose dependencies are complete -/
def Plan.ready (p : Plan) (stage : PlanStage) : List PlanCall :=
  stage.calls.filter (fun c => c.dependsOn.all (fun d => d ∈ p.completedCallIds))

def PlanCall.resolve (outputs : List (PyStr × PyJson)) (c : PlanCall) : Call :=
  ⟨c.callId, c.tool, resolveFields outputs c.args⟩

/-- the calls the node takes up; `none` when it has nothing to do -/
def incomingCalls (s : State) : Py.Call (Option (List Call)) :=
  match s.activePlan with
  | some p =>
    match pyIndex p.stages p.currentStageIndex with
    | some stage => .ok (some ((p.ready stage).map (PlanCall.resolve s.planOutputs)))
    | none => .error (.indexError "list index out of range")
  | none =>
    match s.messages.getLast? with
    | some (.ai _ calls) => if calls = [] then .ok none else .ok (some calls)
    | some _ => .ok none
    | none => .error (.indexError "list index out of range")

/-- the plan after a stage: its ids are complete, and the next stage is current -/
def Plan.advance (p : Plan) (ids : List PyStr) : Plan :=
  { p with
    completedCallIds := ids.foldl (fun done id => if id ≠ [] ∧ id ∉ done then done ++ [id] else done) p.completedCallIds
    currentStageIndex := p.currentStageIndex + 1 }

/-- what a call leaves for the references of later stages -/
def parsedOutput (py : Interp) (content : PyStr) : PyJson :=
  match PyJson.loads py.limit content with
  | .ok v => v
  | .error _ => .str content

/-- the state patch of a node -/
structure Patch where
  messages : List Message
  taskStatus : TaskStatus
  usage : Usage
  planOutputs : List (PyStr × PyJson)
  synthesisForced : Bool
  plan : Option Plan

/-- a patch that changes nothing but the status -/
def State.patch (s : State) (messages : List Message) (status : TaskStatus) : Patch :=
  ⟨messages, status, s.usage, s.planOutputs, s.synthesisForced, s.plan⟩

def State.merge (s : State) (p : Patch) : State :=
  { s with
    messages := s.messages ++ p.messages, taskStatus := p.taskStatus, usage := p.usage, planOutputs := p.planOutputs,
    synthesisForced := p.synthesisForced, plan := p.plan }

def timeoutMessage : Message :=
  .ai (PyStr.ofString "Tool execution timed out. Some tools took too long to respond.") []

/-- the return of a batch of which nothing is executed -/
def suppressedPatch (s : State) (calls : List Call) (skipped : List Message) : Patch :=
  { s.patch skipped .planning with
    usage := { s.usage with toolIterations := s.usage.toolIterations + 1 }
    synthesisForced := s.activePlan.isNone
    plan := match s.activePlan with
      | some p => some (p.advance (calls.map Call.id))
      | none => s.plan }

/-- the return of a batch that ran -/
def answeredPatch (py : Interp) (s : State) (calls : List Call) (skipped : List Message) (results : List Result)
    (usage : Usage) : Patch :=
  { s.patch (skipped ++ results.map Result.message) .planning with
    usage := usage
    planOutputs := if s.activePlan.isSome then
        results.foldl (fun outputs r => PyJson.insertField r.id (parsedOutput py r.content) outputs) s.planOutputs
      else s.planOutputs
    plan := match s.activePlan with
      | some p => some (p.advance (calls.map Call.id))
      | none => s.plan }

/-- the return of a batch that timed out -/
def timeoutPatch (s : State) (usage : Usage) : Patch :=
  { s.patch [timeoutMessage] .failed with usage := usage }

def toolExecutorNode (cfg : Config) (py : Interp) (env : Env) (s : State) : Py.Call Patch := do
  match ← incomingCalls s with
  | none => return s.patch [] .generatingUi
  | some calls =>
    let (accepted, skipped) ← suppress cfg py s.excludedToolNames s.usage [] calls
    if accepted = [] then return suppressedPatch s calls skipped
    let jobs := jobsOf env accepted
    let results := jobs.map (Job.result cfg py s.usage)
    let usage ← account cfg py s.usage accepted results
    if jobs.any (Job.isPending cfg s.usage) then return timeoutPatch s usage
    return answeredPatch py s calls skipped results usage

/-! ## What an accepted call met -/

variable {cfg : Config} {py : Interp} {excluded : List PyStr} {accepted : List Call} {skipped : List Message}

theorem verdict_none {u : Usage} {c : Call} (h : verdict cfg py excluded u accepted c = .ok none) :
    (isPlatform cfg c.name = false ∧
      (u.customToolCalls + accepted.countP (fun a => isPlatform cfg a.name = false) : ℤ) < cfg.maxCustomToolCallsPerRun) ∨
    (isPlatform cfg c.name = true ∧
      (∀ cap, toolCap cfg excluded c.name = some cap →
        (u.toolCallCounts c.name + accepted.countP (fun a => a.name = c.name) : ℤ) < cap) ∧
      callSignature c.name c.args ∉ u.completedCalls ∧ callSignature c.name c.args ∉ signatures cfg accepted) := by
  unfold verdict at h
  split_ifs at h with _ hplatform hcustom
  · cases h
  · cases h
  · exact .inl ⟨hplatform, not_le.1 hcustom⟩
  · split at h
    · cases h
    · rename_i hcap
      obtain ⟨targets, -, h⟩ := PyJson.except_map_ok h
      unfold contentVerdict at h
      split_ifs at h with _ _ hsig
      · refine .inr ⟨by simpa using hplatform, ?_, fun hmem => hsig (.inl hmem), fun hmem => hsig (.inr hmem)⟩
        intro cap hsome
        rw [hsome, Option.filter_some] at hcap
        split_ifs at hcap with hge
        simpa using hge

theorem suppress_rule {u : Usage} (P : List Call → Prop)
    (hstep : ∀ accepted c, P accepted → verdict cfg py excluded u accepted c = .ok none → P (accepted ++ [c]))
    {calls all : List Call} (hP : P accepted) (h : suppress cfg py excluded u accepted calls = .ok (all, skipped)) :
    P all := by
  induction calls generalizing accepted skipped with
  | nil =>
    cases h
    exact hP
  | cons c calls ih =>
    obtain ⟨verdict, hverdict, h⟩ := bind_eq_ok h
    cases verdict with
    | none => exact ih (hstep _ _ hP hverdict) h
    | some why =>
      obtain ⟨⟨all', skipped'⟩, hrest, h⟩ := bind_eq_ok h
      cases h
      exact ih hP hrest

/-! ## What the node returns -/

theorem toolExecutorNode_ok {env : Env} {s : State} {patch : Patch} (h : toolExecutorNode cfg py env s = .ok patch) :
    (incomingCalls s = .ok none ∧ patch = s.patch [] .generatingUi) ∨
    ∃ calls accepted skipped, incomingCalls s = .ok (some calls) ∧
      suppress cfg py s.excludedToolNames s.usage [] calls = .ok (accepted, skipped) ∧
      ((accepted = [] ∧ patch = suppressedPatch s calls skipped) ∨ (accepted ≠ [] ∧ ∃ usage,
          account cfg py s.usage accepted ((jobsOf env accepted).map (Job.result cfg py s.usage)) = .ok usage ∧
          patch = if (jobsOf env accepted).any (Job.isPending cfg s.usage) then timeoutPatch s usage
            else answeredPatch py s calls skipped ((jobsOf env accepted).map (Job.result cfg py s.usage)) usage)) := by
  obtain ⟨incoming, hincoming, h⟩ := bind_eq_ok h
  cases incoming with
  | none =>
    cases h
    exact .inl ⟨hincoming, rfl⟩
  | some calls =>
    obtain ⟨⟨accepted, skipped⟩, hsuppress, h⟩ := bind_eq_ok h
    refine .inr ⟨calls, accepted, skipped, hincoming, hsuppress, ?_⟩
    dsimp only at h
    by_cases hnil : accepted = []
    · rw [if_pos hnil] at h
      cases h
      exact .inl ⟨hnil, rfl⟩
    · rw [if_neg hnil] at h
      obtain ⟨usage, husage, h⟩ := bind_eq_ok h
      refine .inr ⟨hnil, usage, husage, ?_⟩
      split_ifs at h ⊢ with hpending <;> exact (Except.ok.inj h).symm

theorem toolExecutorNode_ran (env : Env) {s : State} {calls : List Call} (hcalls : incomingCalls s = .ok (some calls))
    (hsuppress : suppress cfg py s.excludedToolNames s.usage [] calls = .ok (accepted, skipped)) (hne : accepted ≠ []) :
    toolExecutorNode cfg py env s =
      (account cfg py s.usage accepted ((jobsOf env accepted).map (Job.result cfg py s.usage))).map (fun usage =>
        if (jobsOf env accepted).any (Job.isPending cfg s.usage) then timeoutPatch s usage
        else answeredPatch py s calls skipped ((jobsOf env accepted).map (Job.result cfg py s.usage)) usage) := by
  simp only [toolExecutorNode, hcalls, hsuppress, bind, Except.bind, if_neg hne]
  cases account cfg py s.usage accepted ((jobsOf env accepted).map (Job.result cfg py s.usage)) with
  | error e => rfl
  | ok usage =>
    split_ifs <;> rfl

end Teardrop.Agent
