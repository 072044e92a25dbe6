/-
x402 payments of `billing/x402.py`: `verify_payment` with its loops over requirements and facilitators, the claim of the
payment nonce, `settle_payment`, and the USDC top-up that verifies and settles in one call.

A call is cut at its awaits: between two of them it is in a phase (`PayPhase`, `TopupPhase`). The `Facilitator` verifies an
authorization exactly while it is unspent and covers the requirement, settles it at most once, and may fail to answer at any
call. The health table that orders the facilitators belongs to a process: it is an argument wherever the code reads it, and
`available` is all that is read from it.
-/
import Teardrop.Billing.NonceHash
import Teardrop.Billing.Topups

namespace Teardrop.Billing

open Teardrop.Py

/-! ## Data -/

/-- what these functions read of `PaymentRequirements` -/
structure Requirement where
  scheme : String
  amount : String
deriving DecidableEq

/-- `BillingResult` with its defaults -/
structure BillingResult (P : Type) where
  verified : Bool := false
  paymentPayload : Option P := none
  paymentRequirements : Option Requirement := none
  settled : Bool := false
  txHash : String := ""
  amountUsdc : ℤ := 0
  error : String := ""
  billingMethod : String := "x402"
  scheme : String := "exact"
  payer : String := ""
  facilitatorIndex : ℕ := 0

/-- a row of `x402_payment_nonces` -/
structure NonceRow where
  nonceHash : String
  claimedAt : ℤ
  payerAddress : String := ""
  reservedCostUsdc : ℤ := 0

/-! ## The nonce store -/

/-- `_claim_payment_nonce`, on the hash of the header -/
def claimPaymentNonce (pool fault failClosed : Bool) (now : ℤ) (hash : String) (nonces : Table NonceRow.nonceHash) :
    Call Bool × Table NonceRow.nonceHash :=
  if ¬ pool then (if failClosed then .error (.runtimeError "payment nonce store unavailable") else .ok true, nonces)
  else if fault then (.error (.pg .operational), nonces)
  else match nonces.insert? ⟨hash, now, "", 0⟩ with
    | some nonces' => (.ok true, nonces')
    | none => (.ok false, nonces)

/-- `release_payment_nonce`, on the hash of the header -/
def releasePaymentNonce (pool fault : Bool) (hash : String) (nonces : Table NonceRow.nonceHash) :
    Call Unit × Table NonceRow.nonceHash :=
  if ¬ pool then (.ok (), nonces)
  else if fault then (.error (.pg .operational), nonces)
  else (.ok (), nonces.filter (fun r => r.nonceHash ≠ hash))

/-! ## The facilitator -/

/-- a facilitator's answer to a verification -/
inductive VerifyReply where
  | valid (payer : Option String)
  | invalid (reason message : Option String)
  | outage

/-- a facilitator's answer to a settlement -/
inductive SettleReply where
  | success (transaction : Option String)
  | rejected
  | raised

/-- what the surroundings decide of a verification: the texts of the answer, or that there is none -/
inductive VerifyEnv where
  | answers (payer reason message : Option String)
  | outage

/-- what they decide of a settlement: that it lands if it can, that it is rejected, or that the call breaks off with or
without having landed -/
inductive SettleEnv where
  | lands (transaction : Option String)
  | rejects
  | breaks (landed : Bool)

/-- the signed authorization of a payload, and whether its signature and value cover a requirement -/
structure Facilitator (x : Package) (A : Type) where
  auth : x.Payload → A
  covers : x.Payload → Requirement → Bool

section Chain

variable {x : Package} {A : Type} [DecidableEq A]

/-- `verify_with_facilitator`: valid exactly while the authorization is unspent and covers the requirement -/
def Facilitator.verify (f : Facilitator x A) (spent : List A) (p : x.Payload) (req : Requirement) : VerifyEnv → VerifyReply
  | .outage => .outage
  | .answers payer reason message =>
    if f.auth p ∉ spent ∧ f.covers p req = true then .valid payer else .invalid reason message

/-- `server.settle_payment`: it succeeds for an unspent authorization only, and spends it -/
def settleOnChain (spent : List A) (a : A) : SettleEnv → SettleReply × List A
  | .lands tx => if a ∈ spent then (.rejected, spent) else (.success tx, a :: spent)
  | .rejects => (.rejected, spent)
  | .breaks landed => (.raised, if landed then a :: spent else spent)

end Chain

/-- the facilitators to try now: those not cooling down, or else the one that recovers first -/
def available (unhealthyUntil : List ℚ) (now : ℚ) : List ℕ :=
  let indices := List.range unhealthyUntil.length
  let up := indices.filter (fun i => unhealthyUntil.getD i 0 ≤ now)
  if up.isEmpty then (indices.find? (fun i => unhealthyUntil.all (fun t => unhealthyUntil.getD i 0 ≤ t))).toList
  else up

/-! ## `verify_payment` -/

/-- where a paid request stands -/
inductive PayPhase (P : Type) where
  /-- `req` is being tried, at the first of `servers` -/
  | verifying (req : Requirement) (servers : List ℕ) (rest : List Requirement) (lastError : String)
  /-- verified by `server`; the nonce is to be claimed -/
  | claiming (req : Requirement) (server : ℕ) (payer : Option String)
  | refused (result : BillingResult P)
  /-- `verify_payment` returned verified=True -/
  | admitted (result : BillingResult P)
  /-- turned away by the caller before the work, with `release_payment_nonce` -/
  | withdrawn (result : BillingResult P)
  /-- the paid work was done -/
  | served (result : BillingResult P)
  /-- `settle_payment` returned -/
  | settled (result : BillingResult P)

/-- `invalid_reason or invalid_message or "invalid signature or amount"` -/
def rejectionReason (reason message : Option String) : String :=
  ((reason.filter (· ≠ "")).or (message.filter (· ≠ ""))).getD "invalid signature or amount"

/-- the head of the loop over requirements -/
def nextRequirement {P : Type} (unhealthyUntil : List ℚ) (now : ℚ) (lastError : String) : List Requirement → PayPhase P
  | [] => .refused { error := lastError }
  | req :: rest => .verifying req (available unhealthyUntil now) rest lastError

/-- `verify_payment` up to its first facilitator call, for a header that decodes -/
def startVerify {P : Type} (reqs : List Requirement) (unhealthyUntil : List ℚ) (now : ℚ) : PayPhase P :=
  if reqs = [] then .refused { error := "No payment requirements configured" }
  else nextRequirement unhealthyUntil now "No payment requirements matched" reqs

/-- `verify_payment` at a facilitator's answer -/
def onVerifyReply {P : Type} (unhealthyUntil : List ℚ) (now : ℚ) (reply : VerifyReply) : PayPhase P → PayPhase P
  | .verifying _ [] rest lastError => nextRequirement unhealthyUntil now lastError rest
  | .verifying req (server :: servers) rest _ =>
    match reply with
    | .outage =>
      if servers = [] then nextRequirement unhealthyUntil now "Payment verification service unavailable" rest
      else .verifying req servers rest "Payment verification service unavailable"
    | .valid payer => .claiming req server payer
    | .invalid reason message =>
      nextRequirement unhealthyUntil now ("Payment verification failed: " ++ rejectionReason reason message) rest
  | phase => phase

/-- what `verify_payment` returns with its claim -/
def admission {P : Type} (p : P) (req : Requirement) (server : ℕ) (payer : Option String) : BillingResult P :=
  { verified := true
    paymentPayload := some p
    paymentRequirements := some req
    scheme := if req.scheme = "" then "exact" else req.scheme
    payer := payer.getD ""
    facilitatorIndex := server }

/-- `verify_payment` at the outcome of its claim -/
def onClaim {P : Type} (p : P) (claimed : Call Bool) : PayPhase P → PayPhase P
  | .claiming req server payer =>
    match claimed with
    | .error _ => .refused { error := "Payment verification temporarily unavailable. Retry shortly." }
    | .ok false => .refused { error := "Payment already used. Sign a new payment authorization." }
    | .ok true => .admitted (admission p req server payer)
  | phase => phase

/-! ## `settle_payment` -/

/-- the requirement that is settled: `upto` payments are settled at the actual cost -/
def settledRequirement (scheme : String) (req : Requirement) (actualCost : Option ℤ) : Requirement :=
  match actualCost with
  | some cost => if scheme = "upto" then { req with amount := toString (max 0 cost) } else req
  | none => req

/-- `int(getattr(req, "amount", "0") or "0")` -/
def requirementAmount (req : Requirement) : Call ℤ :=
  match PyText.parseInt 10 (if req.amount = "" then "0" else req.amount).toList with
  | some n => .ok n
  | none => .error (.valueError "invalid literal for int() with base 10")

/-- the call `settle_payment` makes, if it makes one: there are `servers` facilitators -/
def settleRequest {P : Type} (servers : ℕ) (b : BillingResult P) (actualCost : Option ℤ) : Except String (P × Requirement) :=
  if ¬ b.verified then .error "Cannot settle unverified payment"
  else if servers ≤ b.facilitatorIndex then .error "Payment settlement route is unavailable"
  else match b.paymentPayload, b.paymentRequirements with
    | some p, some req => .ok (p, settledRequirement b.scheme req actualCost)
    | _, _ => .error "Payment settlement service unavailable"

/-- `settle_payment` at the facilitator's answer -/
def onSettleReply {P : Type} (b : BillingResult P) (actualCost : Option ℤ) : SettleReply → Call (BillingResult P)
  | .raised => .ok { b with error := "Payment settlement service unavailable" }
  | .rejected => .ok { b with error := "Settlement rejected by facilitator" }
  | .success tx => do
    let paid := { b with settled := true, txHash := tx.getD "" }
    match actualCost with
    | some cost =>
      if b.scheme = "upto" then return { paid with amountUsdc := max 0 cost }
      else return { paid with amountUsdc := ← requirementAmount (b.paymentRequirements.getD ⟨"", ""⟩) }
    | none => return { paid with amountUsdc := ← requirementAmount (b.paymentRequirements.getD ⟨"", ""⟩) }

/-! ## `verify_and_settle_usdc_topup` -/

/-- where a USDC top-up stands -/
inductive TopupPhase where
  | verifying (req : Requirement)
  | settling (req : Requirement)
  /-- settled on chain; `credit_usdc_topup` is to run -/
  | crediting (txHash : String)
  | credited (newBalance : ℤ)
  | refused (error : String)
  /-- `credit_usdc_topup` found the transaction processed, or raised -/
  | uncredited
deriving DecidableEq

/-- the top-up up to its first facilitator call, for a header that decodes -/
def startTopup : List Requirement → TopupPhase
  | [] => .refused "No payment requirements could be built"
  | req :: _ => .verifying req

/-- the top-up at the facilitator's answer to its verification -/
def onTopupVerified (reply : VerifyReply) : TopupPhase → TopupPhase
  | .verifying req =>
    match reply with
    | .outage => .refused "Payment verification service unavailable"
    | .invalid reason message => .refused ("Payment verification failed: " ++ rejectionReason reason message)
    | .valid _ => .settling req
  | phase => phase

/-- the top-up at the facilitator's answer to its settlement -/
def onTopupSettled (reply : SettleReply) : TopupPhase → TopupPhase
  | .settling _ =>
    match reply with
    | .raised => .refused "Payment settlement service unavailable"
    | .rejected => .refused "Settlement rejected by facilitator"
    | .success tx => .crediting (tx.getD "")
  | phase => phase

/-- the router at the outcome of `credit_usdc_topup` -/
def onCredited (outcome : Call (Option ℤ)) : TopupPhase → TopupPhase
  | .crediting _ =>
    match outcome with
    | .ok (some balance) => .credited balance
    | .ok none => .uncredited
    | .error _ => .uncredited
  | phase => phase

end Teardrop.Billing
