/-
`verify_mpp_payment` of `billing/mpp.py`: any number of calls, cut at their awaits, beside the minting of challenges and the
daily cleanup of the nonce table, on a clock that never goes back. `crash` is a call that never goes on.

What is assumed of the surroundings is `Assumed`: credentials are well formed, the HMAC is unforgeable (what is presented
under a valid id was minted here), the block of a transaction has one timestamp, and it is at most the issue skew ahead of
the clock when a receipt is seen. `Prompt` bounds how long a call takes.
-/
import Teardrop.Billing.PayerCap
import Teardrop.Core.PyNumber
import Teardrop.Mpp.Binding

namespace Teardrop.Mpp

open Py PyJson Base64 DateTime PyNumber List Runs Billing
open Billing (NonceRow claimPaymentNonce releasePaymentNonce paymentNonceHash Package hours)
open Billing.NonceDesk (expired)

/-! ## Receipts -/

section Receipts

variable (host : Host) (decimal : PyChar → Option ℕ)

def erc20TransferTopic0 : PyStr := "0xddf252ad1be2c89b69c2b068fc378daa952ba7f163c4a11628f55a4df523b3ef"

/-- `"0x" + address.lower().removeprefix("0x").rjust(64, "0")` -/
def topicAddress (address : PyStr) : PyStr :=
  let value := PyStr.lower host.wide address
  let digits := if (PyStr.ofString "0x").isPrefixOf value then value.drop 2 else value
  PyStr.ofString "0x" ++ List.replicate (64 - digits.length) (PyChar.ofChar '0') ++ digits

/-- `str(v.get(key, default))` -/
def textOf (v : PyJson) (k : String) (default : PyStr) : PyStr := ((v.get? k).map (strOf host)).getD default

/-- a log of the receipt is the transfer -/
def logMatches (currency recipient payer : PyStr) (amountUsdc : ℤ) (log : PyJson) : Bool :=
  let low := PyStr.lower host.wide
  match get log "topics" with
  | .arr (topic0 :: topic1 :: topic2 :: _) =>
    decide (low (textOf host log "address" []) = low currency) && decide (low (strOf host topic0) = erc20TransferTopic0) &&
      decide (low (strOf host topic1) = topicAddress host payer) &&
      decide (low (strOf host topic2) = topicAddress host recipient) &&
      decide (ofBase16 decimal (textOf host log "data" "0x0") = some amountUsdc)
  | _ => false

def receiptMatches (currency recipient payer : PyStr) (amountUsdc : ℤ) (receipt : PyJson) : Bool :=
  let status := PyStr.lower host.wide (textOf host receipt "status" [])
  receipt.isDict && (decide (status = "0x1") || decide (status = "1")) &&
    match get receipt "logs" with
    | .arr logs => logs.any (logMatches host decimal currency recipient payer amountUsdc)
    | _ => false

/-- `_eth_block_timestamp`; `reply` is what `eth_getBlockByNumber` returns, `none` stands for `MppRpcError` -/
def ethBlockTimestamp (blockNumber : PyJson) (reply : Option PyJson) : Option ℤ :=
  match blockNumber with
  | .str number =>
    if (PyStr.ofString "0x").isPrefixOf number then
      (reply.bind (fun block => block.get? "timestamp")).bind (fun t => ofBase16 decimal (strOf host t))
    else none
  | _ => none

end Receipts

/-! ## A call -/

inductive VerifyStatus where
  | ok
  | malformed
  | failed
  | unavailable
deriving DecidableEq

structure MppVerifyOutcome where
  status : VerifyStatus
  message : PyStr := []
  txHash : PyStr := []
  source : PyStr := []
  challengeId : PyStr := []

inductive VerifyPhase where
  | claiming
  | asking
  | timing (blockNumber : PyJson)
  | releasing (outcome : MppVerifyOutcome)

/-- a call that awaits an answer: when it began, and with what -/
structure VerifyCall where
  startedAt : ℕ
  toolCostUsdc : ℤ
  parsed : ParsedMppCredential
  phase : VerifyPhase

def issueSkewSeconds : ℕ := 60

def temporarilyUnavailable : MppVerifyOutcome :=
  { status := .unavailable, message := "Payment verification is temporarily unavailable." }

def failedWith (message : PyStr) : MppVerifyOutcome := { status := .failed, message := message }

/-- the replay key, as the nonce table files it -/
def mppNonceKey (x : Package) (txHash : PyStr) : String :=
  paymentNonceHash x ("mpp:" ++ String.ofList (txHash.map toChar))

section Steps

variable (host : Host) (settings : Settings) (decimal : PyChar → Option ℕ)

/-- up to the claim: what the call returns, or what it claims -/
def startVerify (toolCostUsdc : ℤ) (now : Now) (credential : PyJson) : Call (ParsedMppCredential ⊕ MppVerifyOutcome) :=
  (validateMppCredential host settings toolCostUsdc now credential).map fun
    | (some parsed, _, _) => .inl parsed
    | (none, code, message) => .inr {
        status := if code = some mppMalformedCredential then .malformed else .failed
        message := (message.filter (· ≠ [])).getD "Credential rejected." }

/-- the answer to the claim -/
def onClaim : Call Bool → VerifyPhase ⊕ MppVerifyOutcome
  | .error _ => .inr temporarilyUnavailable
  | .ok false => .inr (failedWith "Credential already used.")
  | .ok true => .inl .asking

/-- the answer to `eth_getTransactionReceipt`; `none` stands for `MppRpcError` -/
def onReceipt (c : VerifyCall) : Option PyJson → VerifyPhase
  | none => .releasing temporarilyUnavailable
  | some receipt =>
    if ¬ receipt.isDict then
      .releasing (failedWith "Transaction not found or not yet confirmed; retry before the challenge expires.")
    else if ¬ receiptMatches host decimal settings.mppCurrency settings.mppRecipient c.parsed.payer c.toolCostUsdc receipt then
      .releasing (failedWith "On-chain transfer does not match the challenge or source.")
    else .timing (get receipt "blockNumber")

/-- the timestamp of the block -/
def onBlock (parsed : ParsedMppCredential) : Option ℤ → VerifyPhase ⊕ MppVerifyOutcome
  | none => .inl (.releasing temporarilyUnavailable)
  | some minedAt =>
    if minedAt < parsed.issuedAt - issueSkewSeconds then
      .inl (.releasing (failedWith "Transfer predates the challenge; pay after receiving a challenge."))
    else .inr { status := .ok, txHash := parsed.txHash, source := parsed.payer, challengeId := parsed.challengeId }

end Steps

/-! ## Calls, interleaved -/

/-- the clock, the challenges minted so far, the nonce table, the calls that await an answer, and what others returned -/
structure Desk where
  clock : Now
  minted : List Challenge
  nonces : Table NonceRow.nonceHash
  calls : List VerifyCall
  returned : List MppVerifyOutcome

def Desk.initial (clock : Now) : Desk := ⟨clock, [], Table.empty, [], []⟩

inductive Desk.Act where
  | tick (now : Now)
  /-- `build_mpp_challenge` -/
  | mint (toolCostUsdc : ℤ) (nonce : PyStr)
  /-- `verify_mpp_payment` is called -/
  | verify (toolCostUsdc : ℤ) (credential : PyJson)
  | claim (i : ℕ) (pool fault : Bool)
  | receipt (i : ℕ) (reply : Option PyJson)
  | block (i : ℕ) (reply : Option PyJson)
  | release (i : ℕ) (pool fault : Bool)
  | crash (i : ℕ)
  /-- `cleanup_expired_payment_nonces()` -/
  | cleanup (pool fault : Bool)

namespace Desk

/-- call `i` goes on to its next await, or returns -/
def move (d : Desk) (i : ℕ) (c : VerifyCall) : VerifyPhase ⊕ MppVerifyOutcome → Desk
  | .inl phase => { d with calls := d.calls.set i { c with phase := phase } }
  | .inr outcome => { d with calls := d.calls.eraseIdx i, returned := d.returned ++ [outcome] }

variable (x : Package) (host : Host) (settings : Settings) (decimal : PyChar → Option ℕ)

/-- the claim of a call -/
def claim (d : Desk) (i : ℕ) (c : VerifyCall) (pool fault : Bool) : Desk :=
  let (claimed, nonces) := claimPaymentNonce pool fault true d.clock.micros (mppNonceKey x c.parsed.txHash) d.nonces
  { d with nonces := nonces }.move i c (onClaim claimed)

/-- the release of a call; that it failed is only logged -/
def release (d : Desk) (i : ℕ) (c : VerifyCall) (outcome : MppVerifyOutcome) (pool fault : Bool) : Desk :=
  { d with nonces := (releasePaymentNonce pool fault (mppNonceKey x c.parsed.txHash) d.nonces).2 }.move i c (.inr outcome)

/-- one answer to a call -/
def answer (d : Desk) (i : ℕ) (c : VerifyCall) : Act → Desk
  | .claim _ pool fault =>
    match c.phase with
    | .claiming => d.claim x i c pool fault
    | _ => d
  | .receipt _ reply =>
    match c.phase with
    | .asking => d.move i c (.inl (onReceipt host settings decimal c reply))
    | _ => d
  | .block _ reply =>
    match c.phase with
    | .timing blockNumber => d.move i c (onBlock c.parsed (ethBlockTimestamp host decimal blockNumber reply))
    | _ => d
  | .release _ pool fault =>
    match c.phase with
    | .releasing outcome => d.release x i c outcome pool fault
    | _ => d
  | _ => d

/-- the call an act answers -/
def Act.target : Act → Option ℕ
  | .claim i _ _ | .receipt i _ | .block i _ | .release i _ _ => some i
  | _ => none

/-- one act; an answer that finds its call in another phase does nothing -/
@[grind] def step (d : Desk) (a : Act) : Desk :=
  match a with
  | .tick now => if d.clock.micros ≤ now.micros then { d with clock := now } else d
  | .mint toolCostUsdc nonce =>
    match buildMppChallenge host settings toolCostUsdc d.clock nonce with
    | .ok c => { d with minted := d.minted ++ [c] }
    | .error _ => d
  | .verify toolCostUsdc credential =>
    match startVerify host settings toolCostUsdc d.clock credential with
    | .ok (.inl parsed) => { d with calls := d.calls ++ [⟨d.clock.micros, toolCostUsdc, parsed, .claiming⟩] }
    | .ok (.inr outcome) => { d with returned := d.returned ++ [outcome] }
    | .error _ => d
  | .crash i => { d with calls := d.calls.eraseIdx i }
  | .cleanup pool fault =>
    if pool = true ∧ fault = false then
      { d with nonces := d.nonces.filter (fun r => !Billing.NonceDesk.expired d.clock.micros r) }
    else d
  | a =>
    match a.target.bind (fun i => d.calls[i]?.map (Prod.mk i)) with
    | some (i, c) => d.answer x host settings decimal i c a
    | none => d

/-- the payments accepted so far -/
def accepted (d : Desk) : List MppVerifyOutcome := d.returned.filter (fun o => o.status = .ok)

end Desk

/-! ## What is assumed -/

/-- the text an id is the HMAC of -/
def signedMessage (host : Host) (f : Fields) : Call PyStr := do
  let (request, opaqueText) ← wireFields host f
  return challengeMessage f.realm f.method f.intent request f.expires opaqueText

/-- `minedAt` is the timestamp of the block of each transaction -/
def Desk.Assumed (host : Host) (settings : Settings) (decimal : PyChar → Option ℕ) (minedAt : PyStr → ℤ) (d : Desk) :
    Desk.Act → Prop
  | .verify _ credential => Wf credential ∧ ∀ c, Carries host credential c →
      challengeId host settings.mppSecretKey c.toFields = .ok c.id →
      ∃ m ∈ d.minted, signedMessage host m.toFields = signedMessage host c.toFields
  | .receipt i reply => ∀ c ∈ d.calls[i]?, ∀ receipt ∈ reply, receipt.isDict = true →
      minedAt c.parsed.txHash * 1000000 ≤ d.clock.micros + issueSkewSeconds * 1000000
  | .block i reply => ∀ c ∈ d.calls[i]?, ∀ blockNumber, c.phase = .timing blockNumber →
      ∀ t ∈ ethBlockTimestamp host decimal blockNumber reply, t = minedAt c.parsed.txHash
  | _ => True

/-- every call under way began at most `bound` microseconds ago -/
def Desk.Prompt (bound : ℕ) (d : Desk) : Prop := ∀ c ∈ d.calls, d.clock.micros ≤ c.startedAt + bound

/-! ## How long a credential can be validated -/

section Window

variable {host : Host} {settings : Settings}

theorem signedMessage_of_id {secret : PyStr} {f : Fields} {id : PyStr} (h : challengeId host secret f = .ok id) :
    ∃ request opaqueText, encodeField host f.request = .ok request ∧ encodeField host f.opaqueMap = .ok opaqueText ∧
      signedMessage host f = .ok (challengeMessage f.realm f.method f.intent request f.expires opaqueText) := by
  obtain ⟨request, opaqueText, _, _, hrequest, hopaque, -⟩ := challengeId_ok h
  refine ⟨request, opaqueText, hrequest, hopaque, ?_⟩
  simp only [signedMessage, wireFields, hrequest, hopaque]
  rfl

variable {parsed : ParsedMppCredential}

variable {price : ℤ} {now : Now}

/-- a minted challenge that is presented has the issue time and the expiry it was minted with -/
theorem minted_times {c m : Challenge} {price' : ℤ} {minted : Now} {nonce source txHash : PyStr} {expires : ℤ}
    (hwf : Wf c.request ∧ Wf c.opaqueMap) (hc : Accepted host settings now price c source txHash parsed expires)
    (hm : buildMppChallenge host settings price' minted nonce = .ok m)
    (h : signedMessage host m.toFields = signedMessage host c.toFields) :
    parsed.issuedAt = (minted.micros / 1000000 : ℕ) ∧ expires = (expirySecond settings minted : ℕ) := by
  obtain ⟨hfields, hbound⟩ := build_ok hm
  rw [hfields] at hbound h
  obtain ⟨r, o, hr, ho, hmessage⟩ := signedMessage_of_id hc.bound
  obtain ⟨r', o', hr', ho', hmessage'⟩ := signedMessage_of_id hbound
  obtain ⟨hrealm, hmethod, hintent⟩ := termsError_none hc.terms
  have hsame := sameFields_of_message hr ho hr' ho' (Except.ok.inj (hmessage.symm.trans (h.symm.trans hmessage'))) hwf
    (chargeFields_wf hbound) hrealm hmethod hintent
  have hexpiry := hc.expiry
  rw [hsame.expires] at hexpiry
  have hparse : parseIso host (isoText (expiryMicros settings minted)) = .ok (some (expirySecond settings minted : ℤ)) :=
    parseIso_minted minted
  have hexpires := hparse.symm.trans hexpiry
  have hiat := get?_alike hwf.2 (chargeFields_wf hbound).2 hsame.opaqueMap rfl (k := "iat") rfl
  have hissued := (get_of_get? hiat).symm.trans hc.issued
  exact ⟨(PyJson.int.inj hissued).symm, (Option.some.inj (Except.ok.inj hexpires)).symm⟩

/-- **Window.** A credential is validated less than its lifetime and a second after its issue time. -/
theorem expires_after_issue {c m : Challenge} {price' : ℤ} {minted : Now} {nonce source txHash : PyStr} {expires : ℤ}
    (hwf : Wf c.request ∧ Wf c.opaqueMap) (hc : Accepted host settings now price c source txHash parsed expires)
    (hm : buildMppChallenge host settings price' minted nonce = .ok m)
    (h : signedMessage host m.toFields = signedMessage host c.toFields) :
    (now.micros : ℤ) < (parsed.issuedAt + settings.mppChallengeTtlSeconds + 1) * 1000000 := by
  obtain ⟨hissued, rfl⟩ := minted_times hwf hc hm h
  have halive := hc.alive
  simp only [expirySecond, expiryMicros] at halive
  omega

theorem validate_some {credential : PyJson} {code : Option ℤ} {message : Option PyStr}
    (h : validateMppCredential host settings price now credential = .ok (some parsed, code, message)) :
    code = none ∧ message = none := by
  unfold validateMppCredential at h
  split at h
  · cases h
  obtain ⟨fields, -, h⟩ := bind_eq_ok h
  cases fields with
  | none => cases h
  | some c =>
    obtain ⟨expected, -, h⟩ := bind_eq_ok h
    split_ifs at h
    · cases h
    · split at h
      · cases h
      · obtain ⟨expires, -, h⟩ := bind_eq_ok h
        unfold checkExpiry at h
        split at h
        · cases h
        split at h
        · split_ifs at h
          · cases h
          · cases h
          · split at h
            · cases h
            · cases h
              exact ⟨rfl, rfl⟩
        · cases h

end Window

/-! ## The invariant -/

/-- the key a call has claimed -/
def VerifyCall.lock (x : Package) (c : VerifyCall) : Option String :=
  match c.phase with
  | .claiming => none
  | _ => some (mppNonceKey x c.parsed.txHash)

section Replay

variable (x : Package) (host : Host) (settings : Settings) (decimal : PyChar → Option ℕ) (minedAt : PyStr → ℤ) (bound : ℕ)

namespace Desk

structure Inv (d : Desk) : Prop where
  minted : ∀ m ∈ d.minted, ∃ price now nonce, buildMppChallenge host settings price now nonce = .ok m
  started : ∀ c ∈ d.calls, c.startedAt ≤ d.clock.micros
  /-- a call began while its credential could be validated -/
  window : ∀ c ∈ d.calls, (c.startedAt : ℤ) < (c.parsed.issuedAt + settings.mppChallengeTtlSeconds + 1) * 1000000
  refused : ∀ c ∈ d.calls, ∀ o, c.phase = .releasing o → o.status ≠ .ok
  exclusive : Locks.Exclusive (VerifyCall.lock x) d.calls
  /-- the row of a claim is there, and no older than the call -/
  held : ∀ c ∈ d.calls, ∀ key, c.lock x = some key → ∃ r ∈ d.nonces.rows, r.nonceHash = key ∧ (c.startedAt : ℤ) ≤ r.claimedAt
  /-- whoever has seen the receipt saw it in time -/
  seen : ∀ c ∈ d.calls, ∀ n, c.phase = .timing n → minedAt c.parsed.txHash * 1000000 ≤
    c.startedAt + bound + issueSkewSeconds * 1000000
  /-- while the claim of an accepted payment is kept, its row is there and no call holds its key -/
  kept : ∀ o ∈ d.accepted, ∃ claimedAt : ℤ, minedAt o.txHash * 1000000 ≤ claimedAt + bound + issueSkewSeconds * 1000000 ∧
    (d.clock.micros ≤ claimedAt + hours 24 →
      (∃ r ∈ d.nonces.rows, r.nonceHash = mppNonceKey x o.txHash ∧ r.claimedAt = claimedAt) ∧
      mppNonceKey x o.txHash ∉ Locks.held (VerifyCall.lock x) d.calls)
  /-- a call that claims it again began when the payment was too old -/
  late : ∀ o ∈ d.accepted, ∀ c ∈ d.calls, c.lock x = some (mppNonceKey x o.txHash) →
    (minedAt o.txHash + settings.mppChallengeTtlSeconds + issueSkewSeconds + 1) * 1000000 ≤ c.startedAt
  once : (d.accepted.map MppVerifyOutcome.txHash).Nodup

variable {x host settings decimal minedAt bound} {d : Desk}

theorem inv_initial (clock : Now) : Inv x host settings minedAt bound (initial clock) where
  minted := nofun
  started := nofun
  window := nofun
  refused := nofun
  exclusive := Locks.Exclusive.nil
  held := nofun
  seen := nofun
  kept := nofun
  late := nofun
  once := nodup_nil

theorem Inv.drops (h : Inv x host settings minedAt bound d) (i : ℕ) :
    Inv x host settings minedAt bound { d with calls := d.calls.eraseIdx i } := by
  have hsub : ∀ {c}, c ∈ d.calls.eraseIdx i → c ∈ d.calls := fun hc => mem_of_mem_eraseIdx hc
  refine { h with
    started := fun c hc => h.started c (hsub hc)
    window := fun c hc => h.window c (hsub hc)
    refused := fun c hc => h.refused c (hsub hc)
    exclusive := h.exclusive.erase i
    held := fun c hc => h.held c (hsub hc)
    seen := fun c hc => h.seen c (hsub hc)
    kept := ?_
    late := fun o ho c hc => h.late o ho c (hsub hc) }
  intro o ho
  obtain ⟨claimedAt, hmined, hrow⟩ := h.kept o ho
  refine ⟨claimedAt, hmined, fun hclock => ⟨(hrow hclock).1, fun hheld => (hrow hclock).2 ?_⟩⟩
  exact ((eraseIdx_sublist d.calls i).filterMap (VerifyCall.lock x)).subset hheld

variable {o : MppVerifyOutcome} {i : ℕ} {c : VerifyCall} {price : ℤ}

theorem accepted_snoc_refused (d : Desk) (ho : o.status ≠ .ok) :
    ({ d with returned := d.returned ++ [o] } : Desk).accepted = d.accepted := by
  rw [accepted, filter_append, filter_singleton, decide_eq_false ho]
  exact append_nil _

theorem Inv.returns (h : Inv x host settings minedAt bound d) (ho : o.status ≠ .ok) :
    Inv x host settings minedAt bound { d with returned := d.returned ++ [o] } := by
  have haccepted := accepted_snoc_refused d ho
  exact { h with
    kept := by rw [haccepted]; exact h.kept
    late := by rw [haccepted]; exact h.late
    once := by rw [haccepted]; exact h.once }

theorem Inv.ends (h : Inv x host settings minedAt bound d) (i : ℕ) (c : VerifyCall) (ho : o.status ≠ .ok) :
    Inv x host settings minedAt bound (d.move i c (.inr o)) :=
  (h.drops i).returns ho

theorem Inv.goesOn (h : Inv x host settings minedAt bound d) (hi : d.calls[i]? = some c) {phase : VerifyPhase}
    (hlock : ({ c with phase := phase } : VerifyCall).lock x = c.lock x)
    (hrefused : ∀ o, phase = .releasing o → o.status ≠ .ok)
    (hseen : ∀ n, phase = .timing n → minedAt c.parsed.txHash * 1000000 ≤ c.startedAt + bound + issueSkewSeconds * 1000000) :
    Inv x host settings minedAt bound (d.move i c (.inl phase)) := by
  have hc : c ∈ d.calls := mem_of_getElem? hi
  have hother : ∀ {b}, b ∈ d.calls.set i { c with phase := phase } → b = { c with phase := phase } ∨ b ∈ d.calls := by
    intro b hb
    exact (Locks.mem_set hi hb).imp_right mem_of_mem_eraseIdx
  have hheld : Locks.held (VerifyCall.lock x) (d.calls.set i { c with phase := phase }) =
      Locks.held (VerifyCall.lock x) d.calls := by
    obtain ⟨before, after, hsplit, hlen⟩ := Locks.split_at hi
    rw [hsplit, ← hlen, set_append_right _ _ (le_refl _), Nat.sub_self, set_cons_zero]
    simp [Locks.held, filterMap_cons, hlock]
  refine { h with
    started := ?_, window := ?_, refused := ?_, exclusive := h.exclusive.keep hi hlock, held := ?_, seen := ?_, kept := ?_,
    late := ?_ }
  · intro b hb
    rcases hother hb with rfl | hb
    · exact h.started c hc
    · exact h.started b hb
  · intro b hb
    rcases hother hb with rfl | hb
    · exact h.window c hc
    · exact h.window b hb
  · intro b hb o ho
    rcases hother hb with rfl | hb
    · exact hrefused o ho
    · exact h.refused b hb o ho
  · intro b hb key hkey
    rcases hother hb with rfl | hb
    · exact h.held c hc key (hlock.symm.trans hkey)
    · exact h.held b hb key hkey
  · intro b hb n hn
    rcases hother hb with rfl | hb
    · exact hseen n hn
    · exact h.seen b hb n hn
  · intro o ho
    obtain ⟨claimedAt, hmined, hrow⟩ := h.kept o ho
    refine ⟨claimedAt, hmined, fun hclock => ⟨(hrow hclock).1, ?_⟩⟩
    rw [move, hheld]
    exact (hrow hclock).2
  · intro o ho b hb hkey
    rcases hother hb with rfl | hb
    · exact h.late o ho c hc (hlock.symm.trans hkey)
    · exact h.late o ho b hb hkey

/-! ## One act -/

theorem Inv.tick (h : Inv x host settings minedAt bound d) {now : Now} (hle : d.clock.micros ≤ now.micros) :
    Inv x host settings minedAt bound { d with clock := now } := by
  refine { h with started := fun c hc => le_trans (h.started c hc) hle, kept := ?_ }
  intro o ho
  obtain ⟨claimedAt, hmined, hrow⟩ := h.kept o ho
  refine ⟨claimedAt, hmined, fun hclock => hrow ?_⟩
  apply le_trans _ hclock
  exact_mod_cast hle

theorem Inv.minting (h : Inv x host settings minedAt bound d) {nonce : PyStr} {m : Challenge}
    (hm : buildMppChallenge host settings price d.clock nonce = .ok m) :
    Inv x host settings minedAt bound { d with minted := d.minted ++ [m] } := by
  refine { h with minted := ?_ }
  intro m' hm'
  rcases mem_append.mp hm' with hm' | hm'
  · exact h.minted m' hm'
  · rw [mem_singleton.mp hm']
    exact ⟨price, d.clock, nonce, hm⟩

variable {parsed : ParsedMppCredential} {credential : PyJson}

theorem Inv.starts (h : Inv x host settings minedAt bound d)
    (hwindow : (d.clock.micros : ℤ) < (parsed.issuedAt + settings.mppChallengeTtlSeconds + 1) * 1000000) :
    Inv x host settings minedAt bound { d with calls := d.calls ++ [⟨d.clock.micros, price, parsed, .claiming⟩] } := by
  refine { h with
    started := ?_, window := ?_, refused := ?_, exclusive := h.exclusive.snoc rfl, held := ?_, seen := ?_, kept := ?_,
    late := ?_ }
  · intro c hc
    rcases mem_append.mp hc with hc | hc
    · exact h.started c hc
    · rw [mem_singleton.mp hc]
  · intro c hc
    rcases mem_append.mp hc with hc | hc
    · exact h.window c hc
    · rw [mem_singleton.mp hc]
      exact hwindow
  · intro c hc o ho
    rcases mem_append.mp hc with hc | hc
    · exact h.refused c hc o ho
    · rw [mem_singleton.mp hc] at ho
      cases ho
  · intro c hc key hkey
    rcases mem_append.mp hc with hc | hc
    · exact h.held c hc key hkey
    · rw [mem_singleton.mp hc] at hkey
      cases hkey
  · intro c hc n hn
    rcases mem_append.mp hc with hc | hc
    · exact h.seen c hc n hn
    · rw [mem_singleton.mp hc] at hn
      cases hn
  · intro o ho
    obtain ⟨claimedAt, hmined, hrow⟩ := h.kept o ho
    refine ⟨claimedAt, hmined, fun hclock => ⟨(hrow hclock).1, ?_⟩⟩
    intro hheld
    rw [Locks.held, filterMap_append] at hheld
    exact (hrow hclock).2 ((mem_append.mp hheld).resolve_right (fun h => by cases h))
  · intro o ho c hc hkey
    rcases mem_append.mp hc with hc | hc
    · exact h.late o ho c hc hkey
    · rw [mem_singleton.mp hc] at hkey
      cases hkey

/-- the cleanup spares the rows of the calls under way and of the payments whose claim is kept -/
theorem Inv.cleaned (h : Inv x host settings minedAt bound d) (hprompt : d.Prompt bound) (hbound : (bound : ℤ) ≤ hours 24) :
    Inv x host settings minedAt bound { d with nonces := d.nonces.filter (fun r => !expired d.clock.micros r) } := by
  have hspared : ∀ {r : NonceRow}, r ∈ d.nonces.rows → (d.clock.micros : ℤ) ≤ r.claimedAt + hours 24 →
      r ∈ (d.nonces.filter (fun r => !expired d.clock.micros r)).rows := by
    intro r hr hyoung
    refine mem_filter.mpr ⟨hr, ?_⟩
    rw [expired, decide_eq_false (by omega)]
    rfl
  refine { h with held := ?_, kept := ?_ }
  · intro c hc key hkey
    obtain ⟨r, hr, hrkey, hstarted⟩ := h.held c hc key hkey
    have hclock : (d.clock.micros : ℤ) ≤ c.startedAt + bound := by exact_mod_cast hprompt c hc
    exact ⟨r, hspared hr (by omega), hrkey, hstarted⟩
  · intro o ho
    obtain ⟨claimedAt, hmined, hrow⟩ := h.kept o ho
    refine ⟨claimedAt, hmined, fun hclock => ?_⟩
    obtain ⟨⟨r, hr, hrkey, rfl⟩, hfree⟩ := hrow hclock
    exact ⟨⟨r, hspared hr hclock, hrkey, rfl⟩, hfree⟩

/-- the bound on calls that the retention leaves room for -/
def Bounded (settings : Settings) (bound : ℕ) : Prop :=
  2 * bound + ((settings.mppChallengeTtlSeconds + 2 * issueSkewSeconds + 1) * 1000000 : ℕ) ≤ hours 24

/-- a claim that goes through: nobody holds its key, and an accepted payment under it is too old for the call -/
theorem Inv.claimed (h : Inv x host settings minedAt bound d) (hprompt : d.Prompt bound) (hbound : Bounded settings bound)
    (hi : d.calls[i]? = some c) (hphase : c.phase = .claiming) {nonces : Table NonceRow.nonceHash}
    (hins : d.nonces.insert? ⟨mppNonceKey x c.parsed.txHash, d.clock.micros, "", 0⟩ = some nonces) :
    Inv x host settings minedAt bound ({ d with nonces := nonces }.move i c (.inl .asking)) := by
  have hc : c ∈ d.calls := mem_of_getElem? hi
  obtain ⟨hfresh, hrows⟩ := Table.insert?_eq_some hins
  have hkey : ∀ r ∈ d.nonces.rows, r.nonceHash ≠ mppNonceKey x c.parsed.txHash := by
    intro r hr hsame
    exact Table.get?_eq_none_iff.1 hfresh (mem_map.mpr ⟨r, hr, hsame⟩)
  have hold : ∀ {r}, r ∈ d.nonces.rows → r ∈ nonces.rows := by
    intro r hr
    rw [hrows]
    exact mem_append_left _ hr
  have hnone : c.lock x = none := by rw [VerifyCall.lock, hphase]
  have hfree : mppNonceKey x c.parsed.txHash ∉ Locks.held (VerifyCall.lock x) d.calls := by
    intro hheld
    obtain ⟨b, hb, hlock⟩ := mem_filterMap.mp hheld
    obtain ⟨r, hr, hrkey, -⟩ := h.held b hb _ hlock
    exact hkey r hr hrkey
  have hother : ∀ {b}, b ∈ d.calls.set i { c with phase := .asking } → b = { c with phase := .asking } ∨ b ∈ d.calls := by
    intro b hb
    exact (Locks.mem_set hi hb).imp_right mem_of_mem_eraseIdx
  have hstarted : (d.clock.micros : ℤ) ≤ c.startedAt + bound := by exact_mod_cast hprompt c hc
  -- the row of an accepted payment under the same key is gone
  have hgone : ∀ o ∈ d.accepted, ∀ claimedAt : ℤ, (d.clock.micros ≤ claimedAt + hours 24 →
      (∃ r ∈ d.nonces.rows, r.nonceHash = mppNonceKey x o.txHash ∧ r.claimedAt = claimedAt) ∧
      mppNonceKey x o.txHash ∉ Locks.held (VerifyCall.lock x) d.calls) →
      mppNonceKey x c.parsed.txHash = mppNonceKey x o.txHash → claimedAt + hours 24 < d.clock.micros := by
    intro o ho claimedAt hrow hsame
    by_contra hclock
    obtain ⟨⟨r, hr, hrkey, -⟩, -⟩ := hrow (not_lt.mp hclock)
    exact hkey r hr (hrkey.trans hsame.symm)
  refine { h with
    started := ?_, window := ?_, refused := ?_, exclusive := h.exclusive.acquire hi hnone rfl hfree, held := ?_, seen := ?_,
    kept := ?_, late := ?_ }
  · intro b hb
    rcases hother hb with rfl | hb
    · exact h.started c hc
    · exact h.started b hb
  · intro b hb
    rcases hother hb with rfl | hb
    · exact h.window c hc
    · exact h.window b hb
  · intro b hb o ho
    rcases hother hb with rfl | hb
    · exact absurd ho nofun
    · exact h.refused b hb o ho
  · intro b hb key hlock
    rcases hother hb with rfl | hb
    · refine ⟨⟨mppNonceKey x c.parsed.txHash, d.clock.micros, "", 0⟩, ?_, Option.some.inj hlock, ?_⟩
      · change _ ∈ nonces.rows
        rw [hrows]
        exact mem_append_right _ (mem_singleton_self _)
      · have hbegan := h.started c hc
        show (c.startedAt : ℤ) ≤ d.clock.micros
        exact_mod_cast hbegan
    · obtain ⟨r, hr, hrkey, hage⟩ := h.held b hb key hlock
      exact ⟨r, hold hr, hrkey, hage⟩
  · intro b hb n hn
    rcases hother hb with rfl | hb
    · exact absurd hn nofun
    · exact h.seen b hb n hn
  · intro o ho
    obtain ⟨claimedAt, hmined, hrow⟩ := h.kept o ho
    refine ⟨claimedAt, hmined, fun hclock => ?_⟩
    obtain ⟨⟨r, hr, hrkey, hage⟩, hnot⟩ := hrow hclock
    refine ⟨⟨r, hold hr, hrkey, hage⟩, fun hheld => ?_⟩
    obtain ⟨b, hb, hlock⟩ := mem_filterMap.mp hheld
    rcases hother hb with rfl | hb
    · have hlate := hgone o ho claimedAt hrow (Option.some.inj hlock)
      exact absurd hclock (not_le.mpr hlate)
    · exact hnot (Locks.mem_held hb hlock)
  · intro o ho b hb hlock
    rcases hother hb with rfl | hb
    · obtain ⟨claimedAt, hmined, hrow⟩ := h.kept o ho
      have hlate := hgone o ho claimedAt hrow (Option.some.inj hlock)
      unfold Bounded at hbound
      simp only [issueSkewSeconds] at hmined hbound ⊢
      omega
    · exact h.late o ho b hb hlock

/-- the release of a claim leaves the rows of the other calls and of the accepted payments -/
theorem Inv.released (h : Inv x host settings minedAt bound d) (hi : d.calls[i]? = some c)
    (hlock : c.lock x = some (mppNonceKey x c.parsed.txHash)) (ho : o.status ≠ .ok) :
    Inv x host settings minedAt bound
      ({ d with nonces := d.nonces.filter (fun r => r.nonceHash ≠ mppNonceKey x c.parsed.txHash) }.move i c (.inr o)) := by
  have hleft := h.ends i c ho
  have hapart := h.exclusive.apart hi hlock
  have hspared : ∀ {r : NonceRow} {key : String}, r ∈ d.nonces.rows → r.nonceHash = key →
      key ≠ mppNonceKey x c.parsed.txHash →
      r ∈ (d.nonces.filter (fun r => r.nonceHash ≠ mppNonceKey x c.parsed.txHash)).rows := by
    intro r key hr hrkey hne
    exact mem_filter.mpr ⟨hr, decide_eq_true (hrkey ▸ hne)⟩
  have haccepted : (d.move i c (.inr o)).accepted = d.accepted := accepted_snoc_refused { d with calls := d.calls.eraseIdx i } ho
  refine { hleft with held := ?_, kept := ?_ }
  · intro b hb key hkey
    obtain ⟨r, hr, hrkey, hage⟩ := hleft.held b hb key hkey
    have hne : key ≠ mppNonceKey x c.parsed.txHash := by
      rintro rfl
      exact hapart b hb hkey
    exact ⟨r, hspared hr hrkey hne, hrkey, hage⟩
  · intro o' ho'
    have hmem : o' ∈ d.accepted := by
      rw [← haccepted]
      exact ho'
    obtain ⟨claimedAt, hmined, hrow⟩ := h.kept o' hmem
    refine ⟨claimedAt, hmined, fun hclock => ?_⟩
    obtain ⟨⟨r, hr, hrkey, hage⟩, hnot⟩ := hrow hclock
    have hne : mppNonceKey x o'.txHash ≠ mppNonceKey x c.parsed.txHash := by
      intro hsame
      rw [hsame] at hnot
      exact hnot (Locks.mem_held (mem_of_getElem? hi) hlock)
    refine ⟨⟨r, hspared hr hrkey hne, hrkey, hage⟩, fun hheld => hnot ?_⟩
    exact ((eraseIdx_sublist d.calls i).filterMap (VerifyCall.lock x)).subset hheld

/-- an acceptance: the transaction was not accepted before, for it was mined after the credential was issued -/
theorem Inv.accepts (h : Inv x host settings minedAt bound d) (hi : d.calls[i]? = some c) {n : PyJson}
    (hphase : c.phase = .timing n) (hmined : c.parsed.issuedAt - issueSkewSeconds ≤ minedAt c.parsed.txHash)
    (ho : o.status = .ok) (htx : o.txHash = c.parsed.txHash) : Inv x host settings minedAt bound (d.move i c (.inr o)) := by
  have hc : c ∈ d.calls := mem_of_getElem? hi
  have hlock : c.lock x = some (mppNonceKey x o.txHash) := by rw [VerifyCall.lock, hphase, htx]
  have hapart := h.exclusive.apart hi hlock
  have hsub : ∀ {b}, b ∈ d.calls.eraseIdx i → b ∈ d.calls := fun hb => mem_of_mem_eraseIdx hb
  have haccepted : (d.move i c (.inr o)).accepted = d.accepted ++ [o] := by
    rw [accepted, move, filter_append, filter_singleton, decide_eq_true ho]
    rfl
  obtain ⟨r, hr, hrkey, hage⟩ := h.held c hc _ hlock
  have hleft : ∀ b ∈ d.calls.eraseIdx i, b.lock x ≠ some (mppNonceKey x o.txHash) := hapart
  have hfree : mppNonceKey x o.txHash ∉ Locks.held (VerifyCall.lock x) (d.calls.eraseIdx i) := by
    intro hheld
    obtain ⟨b, hb, hb'⟩ := mem_filterMap.mp hheld
    exact hleft b hb hb'
  refine { h with
    started := fun b hb => h.started b (hsub hb)
    window := fun b hb => h.window b (hsub hb)
    refused := fun b hb => h.refused b (hsub hb)
    exclusive := h.exclusive.erase i
    held := fun b hb => h.held b (hsub hb)
    seen := fun b hb => h.seen b (hsub hb)
    kept := ?_
    late := ?_
    once := ?_ }
  · rw [haccepted]
    intro o' ho'
    rcases mem_append.mp ho' with ho' | ho'
    · obtain ⟨claimedAt, hmined', hrow⟩ := h.kept o' ho'
      refine ⟨claimedAt, hmined', fun hclock => ⟨(hrow hclock).1, fun hheld => (hrow hclock).2 ?_⟩⟩
      exact ((eraseIdx_sublist d.calls i).filterMap (VerifyCall.lock x)).subset hheld
    · rw [mem_singleton.mp ho']
      refine ⟨r.claimedAt, ?_, fun _ => ⟨⟨r, hr, hrkey, rfl⟩, hfree⟩⟩
      have hseen := h.seen c hc n hphase
      rw [htx]
      omega
  · rw [haccepted]
    intro o' ho' b hb hkey
    rcases mem_append.mp ho' with ho' | ho'
    · exact h.late o' ho' b (hsub hb) hkey
    · rw [mem_singleton.mp ho'] at hkey
      exact absurd hkey (hleft b hb)
  · rw [haccepted, map_append]
    refine List.Nodup.append h.once (nodup_singleton _) ?_
    intro tx htx' hsame
    rw [map_singleton, mem_singleton] at hsame
    obtain ⟨o', ho', rfl⟩ := mem_map.mp htx'
    -- the call began within the window of its credential, and after the other payment was too old
    have hlate := h.late o' ho' c hc (by rw [hlock, hsame])
    have hwindow := h.window c hc
    rw [hsame, htx] at hlate
    omega

theorem temporarilyUnavailable_refused : temporarilyUnavailable.status ≠ .ok := nofun

theorem failedWith_refused (message : PyStr) : (failedWith message).status ≠ .ok := nofun

theorem Inv.onClaim (h : Inv x host settings minedAt bound d) (hprompt : d.Prompt bound) (hbound : Bounded settings bound)
    (hi : d.calls[i]? = some c) (hphase : c.phase = .claiming) (pool fault : Bool) :
    Inv x host settings minedAt bound (d.claim x i c pool fault) := by
  cases pool with
  | false => exact h.ends i c temporarilyUnavailable_refused
  | true =>
    cases fault with
    | true => exact h.ends i c temporarilyUnavailable_refused
    | false =>
      cases hins : d.nonces.insert? ⟨mppNonceKey x c.parsed.txHash, d.clock.micros, "", 0⟩ with
      | none =>
        have hclaim : d.claim x i c true false = d.move i c (.inr (failedWith "Credential already used.")) := by
          simp [claim, claimPaymentNonce, hins, Mpp.onClaim]
        rw [hclaim]
        exact h.ends i c (failedWith_refused _)
      | some nonces =>
        have hclaim : d.claim x i c true false = { d with nonces := nonces }.move i c (.inl .asking) := by
          simp [claim, claimPaymentNonce, hins, Mpp.onClaim]
        rw [hclaim]
        exact h.claimed hprompt hbound hi hphase hins

theorem Inv.onRelease (h : Inv x host settings minedAt bound d) (hi : d.calls[i]? = some c)
    (hphase : c.phase = .releasing o) (pool fault : Bool) :
    Inv x host settings minedAt bound (d.release x i c o pool fault) := by
  have ho : o.status ≠ .ok := h.refused c (mem_of_getElem? hi) o hphase
  cases pool with
  | false => exact h.ends i c ho
  | true =>
    cases fault with
    | true => exact h.ends i c ho
    | false => exact h.released hi (by rw [VerifyCall.lock, hphase]) ho

theorem Inv.rejects (h : Inv x host settings minedAt bound d) (hi : d.calls[i]? = some c)
    (hlock : c.lock x = some (mppNonceKey x c.parsed.txHash)) (ho : o.status ≠ .ok) :
    Inv x host settings minedAt bound (d.move i c (.inl (.releasing o))) := by
  refine h.goesOn hi hlock.symm ?_ nofun
  intro o' ho'
  rw [← VerifyPhase.releasing.inj ho']
  exact ho

theorem Inv.onReceipt (h : Inv x host settings minedAt bound d) (hprompt : d.Prompt bound) (hi : d.calls[i]? = some c)
    (hphase : c.phase = .asking) {reply : Option PyJson}
    (hseen : ∀ receipt ∈ reply, receipt.isDict = true → minedAt c.parsed.txHash * 1000000 ≤ d.clock.micros + issueSkewSeconds * 1000000) :
    Inv x host settings minedAt bound (d.move i c (.inl (Mpp.onReceipt host settings decimal c reply))) := by
  have hlock : c.lock x = some (mppNonceKey x c.parsed.txHash) := by rw [VerifyCall.lock, hphase]
  have hstarted : (d.clock.micros : ℤ) ≤ c.startedAt + bound := by exact_mod_cast hprompt c (mem_of_getElem? hi)
  cases reply with
  | none => exact h.rejects hi hlock temporarilyUnavailable_refused
  | some receipt =>
    dsimp only [Mpp.onReceipt]
    split_ifs with hdict hmatches
    · refine h.goesOn hi hlock.symm nofun fun n hn => ?_
      have htime := hseen receipt rfl hdict
      omega
    · exact h.rejects hi hlock (failedWith_refused _)
    · exact h.rejects hi hlock (failedWith_refused _)

theorem Inv.onBlock (h : Inv x host settings minedAt bound d) (hi : d.calls[i]? = some c) {n : PyJson}
    (hphase : c.phase = .timing n) {timestamp : Option ℤ} (hmined : ∀ t ∈ timestamp, t = minedAt c.parsed.txHash) :
    Inv x host settings minedAt bound (d.move i c (Mpp.onBlock c.parsed timestamp)) := by
  have hlock : c.lock x = some (mppNonceKey x c.parsed.txHash) := by rw [VerifyCall.lock, hphase]
  cases timestamp with
  | none => exact h.rejects hi hlock temporarilyUnavailable_refused
  | some t =>
    have ht := hmined t rfl
    simp only [Mpp.onBlock]
    split_ifs with hearly
    · exact h.rejects hi hlock (failedWith_refused _)
    · rw [ht, not_lt] at hearly
      exact h.accepts hi hphase hearly rfl rfl

theorem startVerify_refused {now : Now} (h : startVerify host settings price now credential = .ok (.inr o)) :
    o.status ≠ .ok := by
  obtain ⟨⟨parsed, code, message⟩, -, ho⟩ := except_map_ok h
  cases parsed with
  | some parsed => exact absurd ho nofun
  | none =>
    rw [← Sum.inr.inj ho]
    split_ifs <;> exact nofun

theorem Inv.onVerify (h : Inv x host settings minedAt bound d)
    (hassumed : d.Assumed host settings decimal minedAt (.verify price credential))
    (hstart : startVerify host settings price d.clock credential = .ok (.inl parsed)) :
    Inv x host settings minedAt bound { d with calls := d.calls ++ [⟨d.clock.micros, price, parsed, .claiming⟩] } := by
  obtain ⟨hwf, hunforgeable⟩ := hassumed
  obtain ⟨⟨parsed', code, message⟩, hvalid, hparsed⟩ := except_map_ok hstart
  cases parsed' with
  | none => exact absurd hparsed nofun
  | some parsed' =>
    obtain rfl := Sum.inl.inj hparsed
    obtain ⟨rfl, rfl⟩ := validate_some hvalid
    obtain ⟨p, c, expires, hp, hc, haccepted⟩ := validate_accepted hvalid
    obtain ⟨m, hm, hsigned⟩ := hunforgeable c ⟨p, hp, hc⟩ haccepted.bound
    obtain ⟨price', minted, nonce, hbuild⟩ := h.minted m hm
    exact h.starts (expires_after_issue (carries_wf hwf ⟨p, hp, hc⟩) haccepted hbuild hsigned)

theorem inv_answer (h : Inv x host settings minedAt bound d) (hprompt : d.Prompt bound) (hbound : Bounded settings bound)
    (hi : d.calls[i]? = some c) {a : Act} (ha : a.target = some i) (hassumed : d.Assumed host settings decimal minedAt a) :
    Inv x host settings minedAt bound (d.answer x host settings decimal i c a) := by
  cases a with
  | claim j pool fault =>
    dsimp only [answer]
    split
    · rename_i hphase
      exact h.onClaim hprompt hbound hi hphase pool fault
    · exact h
  | receipt j reply =>
    obtain rfl : j = i := Option.some.inj ha
    dsimp only [answer]
    split
    · rename_i hphase
      exact h.onReceipt hprompt hi hphase (hassumed c hi)
    · exact h
  | block j reply =>
    obtain rfl : j = i := Option.some.inj ha
    dsimp only [answer]
    split
    · rename_i n hphase
      exact h.onBlock hi hphase (hassumed c hi n hphase)
    · exact h
  | release j pool fault =>
    dsimp only [answer]
    split
    · rename_i o hphase
      exact h.onRelease hi hphase pool fault
    · exact h
  | _ => exact h

theorem inv_step (h : Inv x host settings minedAt bound d) (a : Act) (hassumed : d.Assumed host settings decimal minedAt a)
    (hprompt : d.Prompt bound) (hbound : Bounded settings bound) :
    Inv x host settings minedAt bound (d.step x host settings decimal a) := by
  have hday : (bound : ℤ) ≤ hours 24 := by
    unfold Bounded at hbound
    omega
  have hanswer : ∀ {a : Act}, d.Assumed host settings decimal minedAt a →
      Inv x host settings minedAt bound (match a.target.bind (fun i => d.calls[i]?.map (Prod.mk i)) with
        | some (i, c) => d.answer x host settings decimal i c a
        | none => d) := by
    intro a hassumed
    split
    · rename_i i c htarget
      obtain ⟨j, hj, hcall⟩ := Option.bind_eq_some_iff.mp htarget
      obtain ⟨b, hb, hpair⟩ := Option.map_eq_some_iff.mp hcall
      obtain ⟨rfl, rfl⟩ := Prod.mk.inj hpair
      exact inv_answer h hprompt hbound hb hj hassumed
    · exact h
  cases a with
  | tick now =>
    dsimp only [step]
    split_ifs with hle
    · exact h.tick hle
    · exact h
  | mint price nonce =>
    dsimp only [step]
    split
    · rename_i m hm
      exact h.minting hm
    · exact h
  | verify price credential =>
    dsimp only [step]
    split
    · rename_i parsed hstart
      exact h.onVerify hassumed hstart
    · rename_i outcome hstart
      exact h.returns (startVerify_refused hstart)
    · exact h
  | crash i => exact h.drops i
  | cleanup pool fault =>
    dsimp only [step]
    split_ifs
    · exact h.cleaned hprompt hday
    · exact h
  | claim _ _ _ | receipt _ _ | block _ _ | release _ _ _ => exact hanswer hassumed

end Desk

/-- **Accepted once.** In every run of calls, releases, crashes and cleanups in which each call is over within `bound`, no
transaction is accepted twice: two calls and the lifetime of a challenge fit into the retention. -/
theorem accepted_once (x : Package) (host : Host) (settings : Settings) (decimal : PyChar → Option ℕ) (minedAt : PyStr → ℤ)
    {bound : ℕ} (hbound : Desk.Bounded settings bound) (clock : Now) {acts : List Desk.Act}
    (hacts : Runs.Legal (Desk.step x host settings decimal)
      (fun d a => d.Assumed host settings decimal minedAt a ∧ d.Prompt bound) (Desk.initial clock) acts) :
    ((Runs.run (Desk.step x host settings decimal) (Desk.initial clock) acts).accepted.map MppVerifyOutcome.txHash).Nodup :=
  (legal_inv (Desk.step x host settings decimal) _ (Desk.Inv x host settings minedAt bound)
    (fun _ a h hok => Desk.inv_step h a hok.1 hok.2 hbound) acts (Desk.inv_initial clock) hacts).once

end Replay

/-! ## A call that takes longer than the retention -/

section Stalled

/-- no digits above ASCII -/
def noDecimal : PyChar → Option ℕ := fun _ => none

/-- the receipt of a transfer of 1500 from the payer of the sample -/
def sampleReceipt : PyJson :=
  .obj [("status", .str "0x1"), ("blockNumber", .str "0x10"), ("logs", .arr [.obj [("address", .str barSettings.mppCurrency),
      ("topics", .arr [.str erc20TransferTopic0, .str (topicAddress plainHost samplePayer),
        .str (topicAddress plainHost barSettings.mppRecipient)]),
      ("data", .str "0x5dc")]])]

/-- the block it is in, of the second 1790090000 -/
def sampleBlock : PyJson := .obj [("timestamp", .str "0x6ab29b10")]

def sampleMined : ℤ := 1790090000

theorem sampleBlock_timestamp :
    ethBlockTimestamp plainHost noDecimal (get sampleReceipt "blockNumber") (some sampleBlock) = some sampleMined := by
  decide

theorem sampleReceipt_matches :
    receiptMatches plainHost noDecimal barSettings.mppCurrency barSettings.mppRecipient samplePayer 1500 sampleReceipt =
      true := by
  decide

theorem carries_native {price : ℤ} {now : Now} {nonce : PyStr} {c c' : Challenge}
    (hc : buildMppChallenge plainHost barSettings price now nonce = .ok c)
    (h : Carries plainHost (nativeCredential c) c') : c' = c := by
  obtain ⟨p, hp, hfields⟩ := h
  rw [(presented_challenge hp).1] at hfields
  obtain ⟨id, -, hid⟩ := bind_eq_ok hc
  obtain rfl := Except.ok.inj hid
  exact (Option.some.inj (Except.ok.inj hfields)).symm

variable (x : Package)

abbrev sampleStep : Desk → Desk.Act → Desk := Desk.step x plainHost barSettings noDecimal

abbrev sampleAssumed : Desk → Desk.Act → Prop := Desk.Assumed plainHost barSettings noDecimal (fun _ => sampleMined)

/-- a challenge is minted and presented at once, and the call claims -/
def opens (c : Challenge) : List Desk.Act := [.mint 1500 "n", .verify 1500 (nativeCredential c), .claim 0 true false]

/-- the answers to the call -/
def closes : List Desk.Act := [.receipt 0 (some sampleReceipt), .block 0 (some sampleBlock)]

/-- the call that was opened at `now` -/
def openCall (c : Challenge) (now : Now) (phase : VerifyPhase) : VerifyCall :=
  ⟨now.micros, 1500, ⟨sampleHash, samplePayer, c.id, (now.micros / 1000000 : ℕ)⟩, phase⟩

theorem startVerify_native {now : Now} {c : Challenge} (hc : buildMppChallenge plainHost barSettings 1500 now "n" = .ok c)
    (hnow : now.micros < expirySecond barSettings now) :
    startVerify plainHost barSettings 1500 now (nativeCredential c) = .ok (.inl (openCall c now .claiming).parsed) := by
  have hpresents : Presents plainHost .native c sampleHash samplePayer (nativeCredential c) :=
    ⟨rfl, rfl, ⟨_, rfl, rfl, rfl, rfl⟩, ⟨_, _, _, rfl, rfl, rfl, rfl, rfl, rfl, rfl, rfl, rfl, rfl⟩⟩
  have hlower : PyStr.lower plainHost.wide sampleHash = sampleHash := by decide
  have hpayer : sourceAddress plainHost samplePayer (mppChainId barSettings) = some samplePayer := by decide
  have hvalid := validate_accepts hc hpresents (by decide) hpayer le_rfl hnow
  rw [startVerify, hvalid, hlower]
  rfl

variable {x} {d : Desk} {c : Challenge} {now : Now} {nonces : Table NonceRow.nonceHash}

theorem step_mint (hc : buildMppChallenge plainHost barSettings 1500 d.clock "n" = .ok c) :
    sampleStep x d (.mint 1500 "n") = { d with minted := d.minted ++ [c] } := by
  simp [Desk.step, hc]

theorem step_verify (hcalls : d.calls = []) (hc : buildMppChallenge plainHost barSettings 1500 d.clock "n" = .ok c)
    (hnow : d.clock.micros < expirySecond barSettings d.clock) :
    sampleStep x d (.verify 1500 (nativeCredential c)) = { d with calls := [openCall c d.clock .claiming] } := by
  simp only [sampleStep, Desk.step, startVerify_native hc hnow, hcalls, nil_append]
  rfl

theorem step_claim (hcalls : d.calls = [openCall c now .claiming])
    (hins : d.nonces.insert? ⟨mppNonceKey x sampleHash, d.clock.micros, "", 0⟩ = some nonces) :
    sampleStep x d (.claim 0 true false) = { d with nonces := nonces, calls := [openCall c now .asking] } := by
  have hclaim : claimPaymentNonce true false true d.clock.micros (mppNonceKey x sampleHash) d.nonces = (.ok true, nonces) := by
    simp [claimPaymentNonce, hins]
  simp only [sampleStep, Desk.step, Desk.Act.target, Option.bind_some, hcalls, getElem?_cons_zero, Option.map_some,
    Desk.answer, openCall, Desk.claim, hclaim, onClaim, Desk.move, set_cons_zero]

theorem step_receipt (hcalls : d.calls = [openCall c now .asking]) : sampleStep x d (.receipt 0 (some sampleReceipt)) =
      { d with calls := [openCall c now (.timing (get sampleReceipt "blockNumber"))] } := by
  have hdict : sampleReceipt.isDict = true := rfl
  simp only [sampleStep, Desk.step, Desk.Act.target, Option.bind_some, hcalls, getElem?_cons_zero, Option.map_some,
    Desk.answer, openCall, onReceipt, hdict, sampleReceipt_matches, not_true_eq_false, if_false, Desk.move, set_cons_zero]

theorem step_block (hcalls : d.calls = [openCall c now (.timing (get sampleReceipt "blockNumber"))])
    (hnow : now.micros / 1000000 ≤ 1790090000) :
    sampleStep x d (.block 0 (some sampleBlock)) = { d with calls := [], returned := d.returned ++
      [{ status := .ok, txHash := sampleHash, source := samplePayer, challengeId := c.id }] } := by
  have hmined : ¬ sampleMined < ((now.micros / 1000000 : ℕ) : ℤ) - issueSkewSeconds := by
    simp only [sampleMined, issueSkewSeconds]
    omega
  simp only [sampleStep, Desk.step, Desk.Act.target, Option.bind_some, hcalls, getElem?_cons_zero, Option.map_some,
    Desk.answer, openCall, sampleBlock_timestamp, onBlock, hmined, if_false, Desk.move, eraseIdx_cons_zero]

theorem opens_run (hcalls : d.calls = []) (hc : buildMppChallenge plainHost barSettings 1500 d.clock "n" = .ok c)
    (hnow : d.clock.micros < expirySecond barSettings d.clock)
    (hins : d.nonces.insert? ⟨mppNonceKey x sampleHash, d.clock.micros, "", 0⟩ = some nonces) :
    run (sampleStep x) d (opens c) =
      { d with minted := d.minted ++ [c], nonces := nonces, calls := [openCall c d.clock .asking] } := by
  rw [opens, run_cons, step_mint hc, run_cons, step_verify (d := { d with minted := d.minted ++ [c] }) hcalls hc hnow,
    run_cons, run_nil]
  exact step_claim rfl hins

theorem closes_run (hcalls : d.calls = [openCall c now .asking]) (hnow : now.micros / 1000000 ≤ 1790090000) :
    run (sampleStep x) d closes =
      { d with calls := [], returned := d.returned ++
        [{ status := .ok, txHash := sampleHash, source := samplePayer, challengeId := c.id }] } := by
  rw [closes, run_cons, step_receipt hcalls, run_cons, step_block rfl hnow, run_nil]

/-- the assumptions, and the bound on calls -/
abbrev sampleOk (bound : ℕ) (d : Desk) (a : Desk.Act) : Prop := sampleAssumed d a ∧ d.Prompt bound

theorem opens_legal (bound : ℕ) (hcalls : d.calls = [])
    (hc : buildMppChallenge plainHost barSettings 1500 d.clock "n" = .ok c)
    (hnow : d.clock.micros < expirySecond barSettings d.clock) :
    Runs.Legal (sampleStep x) (sampleOk bound) d (opens c) := by
  have hwf : Wf c.request ∧ Wf c.opaqueMap := by
    obtain ⟨hfields, hbound⟩ := build_ok hc
    rw [hfields] at hbound ⊢
    exact chargeFields_wf hbound
  have hnone : ∀ {e : Desk}, e.calls = [] → e.Prompt bound := by
    intro e he b hb
    rw [he] at hb
    exact absurd hb not_mem_nil
  refine ⟨⟨trivial, hnone hcalls⟩, ?_⟩
  rw [step_mint hc]
  refine ⟨⟨⟨nativeCredential_wf hwf, ?_⟩, hnone hcalls⟩, ?_⟩
  · intro c' hcarries _
    rw [carries_native hc hcarries]
    exact ⟨c, mem_append_right _ (mem_singleton_self c), rfl⟩
  · rw [step_verify (d := { d with minted := d.minted ++ [c] }) hcalls hc hnow]
    refine ⟨⟨trivial, ?_⟩, trivial⟩
    intro b hb
    rw [mem_singleton.mp hb]
    exact Nat.le_add_right _ _

theorem closes_legal {bound : ℕ} (hcalls : d.calls = [openCall c now .asking])
    (hmined : sampleMined * 1000000 ≤ d.clock.micros + issueSkewSeconds * 1000000)
    (hprompt : d.clock.micros ≤ now.micros + bound) :
    Runs.Legal (sampleStep x) (sampleOk bound) d closes := by
  have hcall : ∀ {e : Desk} {phase : VerifyPhase}, e.clock = d.clock → e.calls = [openCall c now phase] → e.Prompt bound := by
    intro e phase hclock he b hb
    rw [he] at hb
    rw [mem_singleton.mp hb, hclock]
    exact hprompt
  refine ⟨⟨fun _ _ _ _ _ => hmined, hcall rfl hcalls⟩, ?_⟩
  rw [step_receipt hcalls]
  refine ⟨⟨?_, hcall rfl rfl⟩, trivial⟩
  intro b hb n hn t ht
  obtain rfl := Option.some.inj hb
  obtain rfl := VerifyPhase.timing.inj hn
  rw [sampleBlock_timestamp] at ht
  exact (Option.some.inj ht).symm

/-- twenty-five hours after `mintedAt` -/
def dayLater : Now := atMicros 1790090000123456 (by decide)

theorem build_isOk (now : Now) (h : (buildMppChallenge plainHost barSettings 1500 now "n").isOk = true) :
    ∃ c, buildMppChallenge plainHost barSettings 1500 now "n" = .ok c := by
  cases hc : buildMppChallenge plainHost barSettings 1500 now "n" with
  | ok c => exact ⟨c, rfl⟩
  | error e =>
    rw [hc] at h
    exact absurd h nofun

theorem built_first : ∃ c, buildMppChallenge plainHost barSettings 1500 mintedAt "n" = .ok c :=
  build_isOk mintedAt (by decide +kernel)

theorem built_second : ∃ c, buildMppChallenge plainHost barSettings 1500 dayLater "n" = .ok c :=
  build_isOk dayLater (by decide +kernel)

end Stalled

theorem claim_fresh (now : Now) : ∃ nonces, (Desk.initial now).nonces.insert?
    ⟨mppNonceKey samplePackage sampleHash, now.micros, "", 0⟩ = some nonces :=
  Table.insert?_of_free rfl

theorem mined_in_time : sampleMined * 1000000 ≤ (dayLater.micros : ℤ) + issueSkewSeconds * 1000000 := by decide

theorem accepted_once_prompt : ∃ acts,
    ((Runs.run (sampleStep Billing.samplePackage) (Desk.initial dayLater) acts).accepted.map MppVerifyOutcome.txHash) =
      [sampleHash] ∧
    ((Runs.run (sampleStep Billing.samplePackage) (Desk.initial dayLater) acts).accepted.map
      MppVerifyOutcome.txHash).Nodup := by
  obtain ⟨c, hc⟩ := built_second
  obtain ⟨nonces, hins⟩ := claim_fresh dayLater
  have hopens := opens_run (d := Desk.initial dayLater) rfl hc (by decide) hins
  have hlegal : Runs.Legal (sampleStep samplePackage) (sampleOk 39600000000) (Desk.initial dayLater)
      (opens c ++ closes) := by
    refine (legal_append _ _ _ _ _).mpr ⟨opens_legal 39600000000 rfl hc (by decide), ?_⟩
    rw [hopens]
    exact closes_legal rfl mined_in_time (Nat.le_add_right _ _)
  refine ⟨opens c ++ closes, ?_, accepted_once samplePackage plainHost barSettings noDecimal (fun _ => sampleMined)
    (by unfold Desk.Bounded; decide) dayLater hlegal⟩
  rw [run_append, hopens, closes_run rfl (by decide)]
  rfl

theorem claim_again {nonces : Table NonceRow.nonceHash} (hins : (Desk.initial mintedAt).nonces.insert?
      ⟨mppNonceKey samplePackage sampleHash, mintedAt.micros, "", 0⟩ = some nonces) :
    ∃ nonces', (nonces.filter (fun r => !expired dayLater.micros r)).insert?
      ⟨mppNonceKey samplePackage sampleHash, dayLater.micros, "", 0⟩ = some nonces' := by
  apply Table.insert?_of_free
  rw [Table.get?_filter, Table.get?_insert hins, if_pos rfl, Option.filter_some]
  rfl

/-- the first call waits twenty-five hours for its receipt; the cleanup drops its claim, and a second call claims again -/
theorem stalled_accepted_twice : ∃ acts,
    Runs.Legal (sampleStep Billing.samplePackage) sampleAssumed (Desk.initial mintedAt) acts ∧
    ((Runs.run (sampleStep Billing.samplePackage) (Desk.initial mintedAt) acts).accepted.map MppVerifyOutcome.txHash) =
      [sampleHash, sampleHash] := by
  obtain ⟨c, hc⟩ := built_first
  obtain ⟨c', hc'⟩ := built_second
  obtain ⟨nonces, hins⟩ := claim_fresh mintedAt
  obtain ⟨nonces', hins'⟩ := claim_again hins
  have hissued : mintedAt.micros / 1000000 ≤ 1790090000 := by decide
  have hissued' : dayLater.micros / 1000000 ≤ 1790090000 := by decide
  have hwait : dayLater.micros ≤ mintedAt.micros + 90000000000 := by decide
  have hlive : mintedAt.micros < expirySecond barSettings mintedAt := by decide
  have hlive' : dayLater.micros < expirySecond barSettings dayLater := by decide
  -- the desk while the first call waits, and after its acceptance and the cleanup
  let waiting : Desk := ⟨dayLater, [c], nonces, [openCall c mintedAt .asking], []⟩
  let cleaned : Desk := ⟨dayLater, [c], nonces.filter (fun r => !expired dayLater.micros r), [],
    [{ status := .ok, txHash := sampleHash, source := samplePayer, challengeId := c.id }]⟩
  have hopens := opens_run (d := Desk.initial mintedAt) rfl hc hlive hins
  have hwaits : run (sampleStep samplePackage) (Desk.initial mintedAt) (opens c ++ [.tick dayLater]) = waiting := by
    rw [run_append, hopens]
    rfl
  have hcleans : run (sampleStep samplePackage) waiting (closes ++ [.cleanup true false]) = cleaned := by
    rw [run_append, closes_run rfl hissued]
    rfl
  have hreopens := opens_run (d := cleaned) rfl hc' hlive' hins'
  have hfirst : Runs.Legal (sampleStep samplePackage) (sampleOk 90000000000) (Desk.initial mintedAt)
      (opens c ++ [.tick dayLater]) := by
    refine (legal_append _ _ _ _ _).mpr ⟨opens_legal _ rfl hc hlive, ?_⟩
    rw [hopens]
    refine ⟨⟨trivial, ?_⟩, trivial⟩
    intro b hb
    rw [mem_singleton.mp hb]
    exact Nat.le_add_right _ _
  have hsecond : Runs.Legal (sampleStep samplePackage) (sampleOk 90000000000) waiting (closes ++ [.cleanup true false]) := by
    refine (legal_append _ _ _ _ _).mpr ⟨closes_legal rfl mined_in_time hwait, ?_⟩
    rw [closes_run rfl hissued]
    exact ⟨⟨trivial, nofun⟩, trivial⟩
  have hthird : Runs.Legal (sampleStep samplePackage) (sampleOk 90000000000) cleaned (opens c' ++ closes) := by
    refine (legal_append _ _ _ _ _).mpr ⟨opens_legal _ rfl hc' hlive', ?_⟩
    rw [hreopens]
    exact closes_legal rfl mined_in_time (Nat.le_add_right _ _)
  have hlegal : Runs.Legal (sampleStep samplePackage) (sampleOk 90000000000) (Desk.initial mintedAt)
      ((opens c ++ [.tick dayLater]) ++ ((closes ++ [.cleanup true false]) ++ (opens c' ++ closes))) := by
    refine (legal_append _ _ _ _ _).mpr ⟨hfirst, ?_⟩
    rw [hwaits]
    refine (legal_append _ _ _ _ _).mpr ⟨hsecond, ?_⟩
    rw [hcleans]
    exact hthird
  refine ⟨_, Runs.Legal.imp _ (fun _ _ hok => hok.1) hlegal, ?_⟩
  rw [run_append, hwaits, run_append, hcleans, run_append, hreopens, closes_run rfl hissued']
  rfl

end Teardrop.Mpp
