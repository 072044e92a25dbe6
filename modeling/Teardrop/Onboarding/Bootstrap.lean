/-
`bootstrap_org_from_payment` of `teardrop/onboarding.py`: a payment header buys a machine org, its credential and its
first credit. Any number of calls, each cut at its awaits; an act opens a call or gives one the answer it waits for.

What the account tables say of a payer's wallet (`Teardrop.Signup`), the facilitator, the rate limiter and the settings are
answers. The events of one payment come in the order of the table. Claims of payment nonces are pruned after a day, longer
than a call lasts, and the pools are bound before the routes are served: pruning and unbound pools are left out.
-/
import Teardrop.Billing.Machine
import Teardrop.Billing.X402

namespace Teardrop.Onboarding

open Teardrop.Py Teardrop.Billing

/-! ## The quote -/

/-- an `HTTPException`, or status 500 for an exception that no handler catches -/
structure Refusal where
  status : ℕ
  detail : String
deriving DecidableEq

/-- what a call reads before it looks for its payment -/
structure Quote where
  /-- `run_price_usdc` of the live pricing rule -/
  livePrice : Option ℤ
  /-- `settings.x402_run_price` in atomic units -/
  x402RunPrice : ℤ
  creditMinRunReserveUsdc : ℤ
  /-- what `build_usdc_topup_requirements` returns; `none` when it raises `RuntimeError` -/
  requirements : Option (List Requirement)
  x402Network : String

def Quote.amountUsdc (q : Quote) : ℤ := max (q.livePrice.getD q.x402RunPrice) q.creditMinRunReserveUsdc

/-- `get_bootstrap_payment_requirements` -/
def bootstrapPaymentRequirements (q : Quote) : Except Refusal (ℤ × List Requirement) :=
  if q.amountUsdc ≤ 0 then .error ⟨503, "Onboarding pricing is unavailable"⟩
  else match q.requirements with
    | none => .error ⟨503, "Onboarding payment is temporarily unavailable"⟩
    | some [] => .error ⟨503, "Onboarding pricing is unavailable"⟩
    | some reqs => .ok (q.amountUsdc, reqs)

/-- `_chain_id_from_network`; `none` is `ValueError` -/
def chainIdFromNetwork (network : String) : Option ℤ :=
  if network.toList.take 7 = "eip155:".toList then
    (PyText.parseInt 10 (network.toList.drop 7)).filter (fun n => 0 < n)
  else none

/-- `str.isdecimal` of one character -/
def isDecimalChar (c : Char) : Bool := PyText.isDigit 10 (PyText.asciiChar c)

def requirementAmountUsdc (req : Requirement) : Option ℤ :=
  if req.amount ≠ "" ∧ req.amount.toList.all isDecimalChar then
    (PyText.parseInt 10 req.amount.toList).filter (fun n => 0 < n)
  else none

/-- the reference of a header: `x402:` and its SHA-256 -/
def paymentRef (header : String) : String := "x402:" ++ Sha256.hexdigest (utf8 header)

/-- `lower` of an address -/
def lowerAddress (a : String) : List Char := a.toList.map PyText.lowerAscii

example : chainIdFromNetwork "eip155:84532" = some 84532 := by decide
example : chainIdFromNetwork "solana:5" = none := by decide

/-! ## The state of a payment -/

structure Recovery where
  provisioned : ProvisioningRow
  latestSettlement : Option ProvisioningRow

/-- the events of a payment, oldest first -/
def eventsOf (ref : String) (db : Db) : List ProvisioningRow :=
  db.provisioning.rows.filter (fun r => r.paymentRef = ref)

/-- `get_provisioning_state_by_payment_ref` -/
def provisioningState (ref : String) (db : Db) : Option Recovery :=
  ((eventsOf ref db).find? (fun r => r.eventType = "provisioned")).map
    (fun p => ⟨p, ((eventsOf ref db).filter (fun r => r.eventType = "settlement")).getLast?⟩)

/-- the test of `_recover_credit_failed_bootstrap`: the payment to credit and the transaction that paid it -/
def recovers (network ref : String) (amount : ℤ) (s : Recovery) : Option (ProvisioningRow × String) :=
  match chainIdFromNetwork network, s.latestSettlement with
  | some chain, some latest =>
    if s.provisioned.method = "x402" ∧ latest.settlementStatus = "credit_failed" ∧ latest.settlementTx ≠ "" ∧
        s.provisioned.paymentRef = ref ∧ s.provisioned.chainId = chain ∧ s.provisioned.amountUsdc = amount then
      some (s.provisioned, latest.settlementTx)
    else none
  | _, _ => none

/-- a payment that may go on into the org of a known wallet -/
def mayRetry (walletOrg address : String) (chain amount : ℤ) (s : Recovery) : Bool :=
  s.provisioned.orgId = walletOrg && s.provisioned.method = "x402" && s.provisioned.chainId = chain &&
    lowerAddress s.provisioned.payerAddress = lowerAddress address && s.provisioned.amountUsdc = amount &&
    (s.latestSettlement.map (·.settlementStatus) = some "failed" : Bool)

/-! ## A call -/

/-- the settlement event a call records when it does not credit -/
structure Audit where
  settlementStatus : String
  settlementTx : String

/-- what a call knows of its verified payer -/
structure Payer where
  address : String
  chainId : ℤ

inductive Phase (P : Type) where
  /-- the payment was settled before: `record_onboarding_settlement` is to run -/
  | recovering (initial : ProvisioningRow) (settlementTx : String)
  /-- in `verify_payment` -/
  | paying (payload : P) (phase : PayPhase P)
  /-- verified and claimed: the payer's wallet is looked up -/
  | looking (paid : BillingResult P) (payer : Payer)
  | provisioning (paid : BillingResult P) (payer : Payer) (existingMachineOrg : Bool)
  | settling (paid : BillingResult P) (payer : Payer) (org : String)
  /-- settled on chain: `record_onboarding_settlement` is to run -/
  | crediting (payer : Payer) (org settlementTx : String)
  /-- `_record_settlement_event` is to run -/
  | auditing (payer : Payer) (org : String) (audit : Audit)
  /-- `_release_unsettled_claim` is to run, then the call ends -/
  | releasing (refusal : Refusal)
  | refused (refusal : Refusal)
  | issued (credential : CredentialRow) (clientSecret : Option String)

structure Bootstrap (P : Type) where
  header : String
  amount : ℤ
  network : String
  recovery : Option Recovery
  phase : Phase P

variable {P : Type}

def Bootstrap.ref (t : Bootstrap P) : String := paymentRef t.header

/-- `verify_payment` returned: what its caller does before the next await; `checksum` is `Web3.to_checksum_address` -/
def onVerified (checksum : String → Option String) (amount : ℤ) (network : String) (paid : BillingResult P) : Phase P :=
  match paid.paymentRequirements.bind requirementAmountUsdc with
  | none => .releasing ⟨503, "Onboarding pricing is unavailable"⟩
  | some verified =>
    if verified ≠ amount then .releasing ⟨402, "Payment amount does not match onboarding requirements"⟩
    else if paid.payer = "" then .releasing ⟨402, "Payment verified but payer identity unavailable"⟩
    else match checksum paid.payer, chainIdFromNetwork network with
      | none, _ => .releasing ⟨402, "Payment verified but payer identity unavailable"⟩
      | some _, none => .releasing ⟨503, "x402 network is misconfigured"⟩
      | some address, some chain => .looking paid ⟨address, chain⟩

/-- a phase of `verify_payment` as a phase of the call -/
def ofPayPhase (checksum : String → Option String) (amount : ℤ) (network : String) (payload : P) : PayPhase P → Phase P
  | .refused _ => .refused ⟨402, "Payment verification failed"⟩
  | .admitted paid => onVerified checksum amount network paid
  | phase => .paying payload phase

/-- what the account tables say of the payer's wallet -/
inductive WalletAnswer where
  | raises
  /-- no wallet; the rate limiter may stop the call -/
  | unknown (limited : Bool)
  /-- the wallet's org; `fault` when the second look at the payment fails -/
  | known (org : String) (fault : Bool)

def alreadyRegistered : Refusal := ⟨409, "This wallet is already registered. Sign in via SIWE instead."⟩

/-- `orgs.acquisition_source in {"siwe", "x402"}` -/
def isMachineOrg (org : String) (db : Db) : Bool :=
  match db.orgs.get? org with
  | some o => o.acquisitionSource = "siwe" || o.acquisitionSource = "x402"
  | none => false

/-- the call at the answer to its wallet lookup; the state of the payment as it is from then on, and the phase -/
def onWallet (db : Db) (t : Bootstrap P) (paid : BillingResult P) (payer : Payer) : WalletAnswer → Option Recovery × Phase P
  | .raises => (t.recovery, .refused ⟨500, "Internal Server Error"⟩)
  | .unknown true =>
    (t.recovery, .releasing ⟨429, "Too many new org provisioning attempts for this wallet. Please try again later."⟩)
  | .unknown false => (t.recovery, .provisioning paid payer false)
  | .known _ true => (t.recovery, .refused ⟨503, "Onboarding state is temporarily unavailable"⟩)
  | .known org false =>
    let recovery := provisioningState t.ref db
    if ¬ isMachineOrg org db then (recovery, .releasing alreadyRegistered)
    else match recovery with
      | none => (recovery, .provisioning paid payer true)
      | some s =>
        if mayRetry org payer.address payer.chainId t.amount s then (recovery, .provisioning paid payer true)
        else (recovery, .refused alreadyRegistered)

/-- how the wallet resolves inside of `provision_org_for_wallet` -/
inductive ProvisionAnswer where
  | raises
  /-- the wallet is there: its org, and the id of the event -/
  | existing (org eventId : String)
  /-- the wallet was linked in the meantime: no event -/
  | linked (org : String)
  /-- a new wallet of an org that may be new too, with the account's spending limit and the id of the event -/
  | created (newOrg : Option OrgRow) (org : String) (limit : ℤ) (eventId : String)

def provisionedRow (eventId org ref : String) (payer : Payer) (amount : ℤ) : ProvisioningRow :=
  ⟨eventId, org, "x402", payer.address, payer.chainId, "", ref, amount, "provisioned", "pending"⟩

/-- the payment has its `provisioned` event -/
def isProvisioned (ref : String) (db : Db) : Bool :=
  (eventsOf ref db).any (fun r => r.eventType = "provisioned")

/-- `INSERT INTO org_provisioning_events`, with its foreign key -/
def insertEvent (row : ProvisioningRow) : Tx Db Unit := do
  let known ← Tx.read fun db => (db.orgs.get? row.orgId).isSome
  Tx.require known (.pg .foreignKeyViolation)
  insertProvisioning row

/-- `provision_org_for_wallet`: the org, and whether the wallet is new -/
def provisionOrgForWallet (ref : String) (payer : Payer) (amount : ℤ) : ProvisionAnswer → Tx Db (String × Bool)
  | .raises => Tx.raise (.pg .operational)
  | .existing org eventId => do
    let taken ← Tx.read (isProvisioned ref)
    if taken then return (org, false)
    else do
      insertEvent (provisionedRow eventId org ref payer amount)
      return (org, false)
  | .linked org => return (org, false)
  | .created newOrg org limit eventId => do
    Tx.write fun db => openAccount org limit (newOrg.elim db (createOrg · db))
    let taken ← Tx.read (isProvisioned ref)
    Tx.require (¬ taken) (.pg .uniqueViolation)
    insertEvent (provisionedRow eventId org ref payer amount)
    return (org, true)

/-- the call at the outcome of its provisioning -/
def onProvisioned (t : Bootstrap P) (paid : BillingResult P) (payer : Payer) (existingMachineOrg : Bool) :
    Call (String × Bool) → Phase P
  | .error _ => .releasing ⟨500, "Internal Server Error"⟩
  | .ok (org, created) =>
    if ¬ created ∧ t.recovery = none ∧ ¬ existingMachineOrg then .releasing alreadyRegistered
    else .settling paid payer org

/-- the call at the outcome of `settle_payment` -/
def onSettled (amount : ℤ) (payer : Payer) (org : String) : Call (BillingResult P) → Phase P
  | .error _ => .auditing payer org ⟨"ambiguous", ""⟩
  | .ok paid =>
    if ¬ paid.settled then
      .auditing payer org ⟨if paid.error = "Settlement rejected by facilitator" then "failed" else "ambiguous", ""⟩
    else if paid.txHash = "" ∨ paid.amountUsdc ≠ amount then .auditing payer org ⟨"failed", paid.txHash⟩
    else .crediting payer org paid.txHash

/-- the row of `_record_settlement_event` -/
def settlementRow (id org ref : String) (payer : Payer) (amount : ℤ) (audit : Audit) : ProvisioningRow :=
  ⟨id, org, "x402", payer.address, payer.chainId, audit.settlementTx, ref, amount, "settlement", audit.settlementStatus⟩

/-- the call at the outcome of its audit -/
def onAudited (audit : Audit) (recorded : Bool) : Phase P :=
  if audit.settlementStatus = "credit_failed" then .refused ⟨503, "Account credit is temporarily unavailable"⟩
  else if ¬ recorded then
    .refused ⟨503, "Payment outcome is temporarily unavailable; no account credit was issued"⟩
  else
    let refusal : Refusal := ⟨402, "Payment could not be settled; no account credit was issued"⟩
    if audit.settlementStatus = "ambiguous" then .refused refusal else .releasing refusal

/-- the call at the outcome of the credit of a payment it settled -/
def onRecorded (payer : Payer) (org settlementTx : String) : Call (CredentialRow × Option String) → Phase P
  | .ok (credential, secret) => .issued credential secret
  | .error _ => .auditing payer org ⟨"credit_failed", settlementTx⟩

/-- the call at the outcome of the credit of a payment that was settled before -/
def onRecovered : Call (CredentialRow × Option String) → Phase P
  | .ok (credential, secret) => .issued credential secret
  | .error _ => .refused ⟨503, "Account credit is temporarily unavailable"⟩

/-! ## The machine -/

/-- what a call waited for -/
inductive Answer where
  /-- a facilitator's answer inside of `verify_payment` -/
  | verified (env : VerifyEnv) (unhealthyUntil : List ℚ) (now : ℚ)
  | claimed (fault : Bool) (now : ℤ)
  | wallet (answer : WalletAnswer)
  | provisioned (fault : Bool) (answer : ProvisionAnswer)
  | settled (servers : ℕ) (env : SettleEnv)
  /-- the transaction of `record_onboarding_settlement` -/
  | recorded (e : Env) (secret : FreshSecret)
  | audited (fault : Bool) (eventId : String)
  | released (fault : Bool)

inductive Act where
  /-- a header is presented: the quote, whether the look at its payment fails, and the facilitators' health -/
  | present (header : String) (q : Quote) (fault : Bool) (unhealthyUntil : List ℚ) (now : ℚ)
  | answer (i : ℕ) (a : Answer)

/-- the store, the payment nonces, the authorizations spent on chain, and the calls -/
structure World (x : Package) (A : Type) where
  db : Db
  nonces : Table NonceRow.nonceHash
  spent : List A
  tasks : List (Bootstrap x.Payload)

section Machine

variable {x : Package} {A : Type} [DecidableEq A] (f : Facilitator x A) (checksum : String → Option String)

/-- `verify_payment` up to its first await -/
def startPaying (amount : ℤ) (network header : String) (reqs : List Requirement) (unhealthyUntil : List ℚ) (now : ℚ) :
    Phase x.Payload :=
  match decodeHeader x header with
  | .error _ => .refused ⟨402, "Payment verification failed"⟩
  | .ok payload => ofPayPhase checksum amount network payload (startVerify reqs unhealthyUntil now)

/-- `bootstrap_org_from_payment` up to the first answer that decides anything -/
def openCall (db : Db) (header : String) (q : Quote) (fault : Bool) (unhealthyUntil : List ℚ) (now : ℚ) :
    Bootstrap x.Payload :=
  match bootstrapPaymentRequirements q with
  | .error refusal => ⟨header, q.amountUsdc, q.x402Network, none, .refused refusal⟩
  | .ok (amount, reqs) =>
    if fault then
      ⟨header, amount, q.x402Network, none, .refused ⟨503, "Onboarding state is temporarily unavailable"⟩⟩
    else
      let recovery := provisioningState (paymentRef header) db
      match recovery.bind (recovers q.x402Network (paymentRef header) amount) with
      | some (initial, tx) => ⟨header, amount, q.x402Network, recovery, .recovering initial tx⟩
      | none =>
        ⟨header, amount, q.x402Network, recovery, startPaying checksum amount q.x402Network header reqs unhealthyUntil now⟩

/-- one call at an answer: the store, the nonces, what is spent, and the call -/
def Bootstrap.resume (w : World x A) (t : Bootstrap x.Payload) : Answer → World x A × Bootstrap x.Payload
  | .verified env unhealthyUntil now =>
    match t.phase with
    | .paying payload phase =>
      match phase with
      | .verifying req _ _ _ =>
        let phase' := onVerifyReply unhealthyUntil now (f.verify w.spent payload req env) phase
        (w, { t with phase := ofPayPhase checksum t.amount t.network payload phase' })
      | _ => (w, t)
    | _ => (w, t)
  | .claimed fault now =>
    match t.phase with
    | .paying payload phase =>
      match phase with
      | .claiming _ _ _ =>
        let r := claimPaymentNonce true fault false now (paymentNonceHash x t.header) w.nonces
        ({ w with nonces := r.2 },
          { t with phase := ofPayPhase checksum t.amount t.network payload (onClaim payload r.1 phase) })
      | _ => (w, t)
    | _ => (w, t)
  | .wallet answer =>
    match t.phase with
    | .looking paid payer =>
      let r := onWallet w.db t paid payer answer
      (w, { t with recovery := r.1, phase := r.2 })
    | _ => (w, t)
  | .provisioned fault answer =>
    match t.phase with
    | .provisioning paid payer existingMachineOrg =>
      let r := call fault (provisionOrgForWallet t.ref payer t.amount answer) w.db
      ({ w with db := r.2 }, { t with phase := onProvisioned t paid payer existingMachineOrg r.1 })
    | _ => (w, t)
  | .settled servers env =>
    match t.phase with
    | .settling paid payer org =>
      match settleRequest servers paid none with
      | .error msg => (w, { t with phase := onSettled t.amount payer org (.ok { paid with error := msg }) })
      | .ok (payload, _) =>
        let r := settleOnChain w.spent (f.auth payload) env
        ({ w with spent := r.2 }, { t with phase := onSettled t.amount payer org (onSettleReply paid none r.1) })
    | _ => (w, t)
  | .recorded e secret =>
    match t.phase with
    | .crediting payer org tx =>
      let r := recordOnboardingSettlement e secret org t.amount t.ref payer.address payer.chainId tx w.db
      ({ w with db := r.2 }, { t with phase := onRecorded payer org tx r.1 })
    | .recovering initial tx =>
      let r := recordOnboardingSettlement e secret initial.orgId t.amount t.ref initial.payerAddress
        ((chainIdFromNetwork t.network).getD 0) tx w.db
      ({ w with db := r.2 }, { t with phase := onRecovered r.1 })
    | _ => (w, t)
  | .audited fault eventId =>
    match t.phase with
    | .auditing payer org audit =>
      let r := call fault (insertEvent (settlementRow eventId org t.ref payer t.amount audit)) w.db
      ({ w with db := r.2 }, { t with phase := onAudited audit r.1.isOk })
    | _ => (w, t)
  | .released fault =>
    match t.phase with
    | .releasing refusal =>
      ({ w with nonces := (releasePaymentNonce true fault (paymentNonceHash x t.header) w.nonces).2 },
        { t with phase := .refused refusal })
    | _ => (w, t)

/-- one act; an answer that its call does not wait for does nothing -/
def step (w : World x A) : Act → World x A
  | .present header q fault unhealthyUntil now =>
    { w with tasks := w.tasks ++ [openCall checksum w.db header q fault unhealthyUntil now] }
  | .answer i a =>
    match w.tasks[i]? with
    | none => w
    | some t =>
      let r := t.resume f checksum w a
      { r.1 with tasks := w.tasks.set i r.2 }

def run (w : World x A) (acts : List Act) : World x A := Runs.run (step f checksum) w acts

end Machine

end Teardrop.Onboarding
