/-
What `_authenticate` lets pass (`teardrop/mcp_gateway.py`): a bearer of a token, an anonymous caller of a free tool, or the
payer of an x402 or MPP payment, whose claim and log are then exactly those of the acceptance. Whoever is turned away has
had no payment accepted.
-/
import Teardrop.Mcp.Gateway

namespace Teardrop.Gateway

open Py PyJson
open Coro.Ends (lift update attempt)

/-- the state of a request before a payment: nothing claimed, nothing logged -/
structure Blank (s : Exchange) : Prop where
  billing : s.x402Billing = none
  org : s.mcpOrgId = none
  reserved : s.mcpX402Reserved = false
  claim : s.claim = false
  log : s.log = []

theorem blank_fresh : Blank {} := ⟨rfl, rfl, rfl, rfl, rfl⟩

/-- the header an x402 payment comes in -/
def x402Header (w : World) (r : Request) (data : PyJson) : Option PyStr :=
  match paymentHeader r {} with
  | some header => some header
  | none =>
    match metaPaymentHeader w data with
    | .ok header => nonEmpty header
    | .error _ => none

/-- an anonymous caller of a free tool -/
structure FreeCall (w : World) (r : Request) (data : PyJson) : Prop where
  anonymous : isAnonymous r = true
  free : ∃ name ∈ anonFreeTools, toolCallName data = some name ∧ resolveToolCost w .free (.str name) = .ok 0

/-- the payer of an x402 payment -/
structure X402Caller (w : World) (r : Request) (data : PyJson) (p : X402Payment) (s : Exchange) : Prop where
  billing : s.x402Billing = some (.x402 p)
  org : s.mcpOrgId = none
  claim : s.claim = w.pool
  header : (paymentHeader r s).isSome ∧ paymentHeader r s = x402Header w r data
  log : s.log = [.accepted (.x402 p)]

/-- the payer of an MPP payment, which is for a named tool -/
structure MppCaller (data : PyJson) (p : MppPayment) (s : Exchange) : Prop where
  billing : s.x402Billing = some (.mpp p)
  org : s.mcpOrgId = none
  named : (toolCallName data).isSome
  log : s.log = [.accepted (.mpp p)]

/-- who the authentication lets pass -/
inductive Caller (w : World) (r : Request) (data : PyJson) (s : Exchange) : Prop where
  | bearer (hbilling : s.x402Billing = none) (horg : s.mcpOrgId.isSome) (hlog : s.log = [])
  | unchecked (hauth : w.settings.mcpAuthEnabled = false) (hbilling : s.x402Billing = none) (hlog : s.log = [])
  | free (hbilling : s.x402Billing = none) (hfree : FreeCall w r data) (hlog : s.log = [])
  | x402 (p : X402Payment) (h : X402Caller w r data p s)
  | mpp (p : MppPayment) (h : MppCaller data p s)

/-- how the authentication ends -/
def Authenticates (w : World) (r : Request) (data : PyJson) : Exit Exc (Option Reply) → Exchange → Prop
  | .returned none, s => Caller w r data s
  | .returned (some _), s => s.log = []
  | .raised _, s => s.log = []
  | .cancelled, _ => False

section Phases

variable {w : World} {r : Request} {data : PyJson}

/-- the fresh state -/
def Fresh (s : Exchange) : Prop := s = {}

theorem turnedAway (a : Reply) : Coro.Ends Fresh (pure (some a)) (Authenticates w r data) :=
  Coro.Ends.pure fun _ h => congrArg Exchange.log h

theorem nonEmpty_some {text : Option PyStr} {header : PyStr} (h : nonEmpty text = some header) :
    nonEmpty (some header) = some header := by
  have htext : text = some header := (Option.filter_eq_some_iff.mp h).1
  rwa [htext] at h

theorem paymentHeader_meta {header : PyStr} (hcarried : paymentHeader r {} = none)
    (hheader : nonEmpty (some header) = some header) :
    paymentHeader r { mcpX402Payment := some header } = some header := by
  have hor : (nonEmpty r.paymentSignature).or (nonEmpty r.xPayment) = none := by
    rw [paymentHeader, Option.or_eq_none_iff] at hcarried
    exact hcarried.1
  rw [paymentHeader, hor, hheader]
  rfl

theorem takePaymentHeader_ends (w : World) (r : Request) (data : PyJson) :
    Coro.Ends Fresh (takePaymentHeader w r data) (fun exit s => Blank s ∧ exit ≠ .cancelled ∧
      ∀ header, exit = .returned (some header) → paymentHeader r s = some header ∧ x402Header w r data = some header) := by
  refine Coro.Ends.get (fun carried => ?_)
  cases carried with
  | some header =>
    refine Coro.Ends.pure (fun s hs => ?_)
    obtain ⟨rfl, hcarried⟩ := hs
    refine ⟨blank_fresh, nofun, fun header' hexit => ?_⟩
    cases hexit
    exact ⟨hcarried, by rw [x402Header, hcarried]⟩
  | none =>
    refine lift (fun header hheader => ?_) (fun e he s hs => ?_)
    · cases hne : nonEmpty header with
      | none =>
        refine Coro.Ends.pure (fun s hs => ?_)
        obtain ⟨rfl, -⟩ := hs
        exact ⟨blank_fresh, nofun, nofun⟩
      | some text =>
        refine update (Coro.Ends.pure (fun s hs => ?_))
        obtain ⟨s', ⟨rfl, hcarried⟩, rfl⟩ := hs
        refine ⟨⟨rfl, rfl, rfl, rfl, rfl⟩, nofun, fun header' hexit => ?_⟩
        cases hexit
        refine ⟨paymentHeader_meta hcarried (nonEmpty_some hne), ?_⟩
        simp [x402Header, hcarried, hheader, hne]
    · obtain ⟨rfl, -⟩ := hs
      exact ⟨blank_fresh, nofun, nofun⟩

theorem handleX402Payment_ends (w : World) (r : Request) (data : PyJson) :
    Coro.Ends Fresh (handleX402Payment w r data) (Authenticates w r data) := by
  refine Coro.Ends.bind (takePaymentHeader_ends w r data) (fun header => ?_) (fun e s h => h.1.log)
    (fun s h => absurd rfl h.2.1)
  refine Coro.Ends.get (fun signal => attempt ?_)
  cases x402ToolRequirements w data with
  | error e => exact Coro.Ends.pure (fun s hs => hs.1.1.log)
  | ok requirements =>
    cases header with
    | none => exact Coro.Ends.pure (fun s hs => hs.1.1.log)
    | some header =>
      refine lift (fun verdict hverdict => ?_) (fun e he s hs => hs.1.1.log)
      cases verdict with
      | rejected error => exact Coro.Ends.pure (fun s hs => hs.1.1.log)
      | verified p =>
        refine update (Coro.Ends.pure (fun s hs => ?_))
        obtain ⟨s', ⟨⟨hblank, -, hheader⟩, -⟩, rfl⟩ := hs
        have hfound := hheader header rfl
        refine Caller.x402 p ⟨rfl, rfl, rfl, ?_, ?_⟩
        · have hsame : paymentHeader r (accept (.x402 p) "x402" w.pool s') = paymentHeader r s' := rfl
          rw [hsame, hfound.1]
          exact ⟨rfl, hfound.2.symm⟩
        · simp [accept, hblank.log]

theorem toolCallCost_pos {call : PriceCall} {cost : ℤ} (h : toolCallCost w call data = .ok cost) (hpos : 0 < cost) :
    (toolCallName data).isSome := by
  rw [toolCallCost] at h
  cases hname : toolCallName data with
  | some name => rfl
  | none =>
    rw [hname] at h
    have hzero : (0 : ℤ) = cost := Except.ok.inj h
    omega

/-- how `_handle_mpp_auth` ends -/
def MppEnds (data : PyJson) : Exit Exc (Option Reply) → Exchange → Prop
  | .returned none, s => Fresh s ∨ ∃ p, MppCaller data p s
  | .returned (some _), s => Fresh s
  | .raised _, s => Fresh s
  | .cancelled, _ => False

theorem handleMppAuth_ends (w : World) (r : Request) (data : PyJson) :
    Coro.Ends Fresh (handleMppAuth w r data) (MppEnds data) := by
  refine attempt ?_
  cases hprice : toolCallCost w .mpp data with
  | error e => exact Coro.Ends.pure (fun s hs => hs)
  | ok toolCost =>
    dsimp only
    split_ifs with hfree
    · exact Coro.Ends.pure (fun s hs => .inl hs)
    · refine lift (fun outcome houtcome => ?_) (fun e he s hs => hs)
      cases outcome.status with
      | ok =>
        refine update (Coro.Ends.pure (fun s hs => ?_))
        obtain ⟨s', rfl, rfl⟩ := hs
        exact .inr ⟨_, rfl, rfl, toolCallCost_pos hprice (not_le.mp hfree), rfl⟩
      | malformed => exact Coro.Ends.pure (fun s hs => hs)
      | failed => exact Coro.Ends.pure (fun s hs => hs)
      | unavailable => exact Coro.Ends.pure (fun s hs => hs)

theorem MppEnds.fresh {s : Exchange} (h : MppEnds data (.returned none) s ∧ s.x402Billing = none) : Fresh s := by
  obtain ⟨hfresh | ⟨p, hp⟩, hnone⟩ := h
  · exact hfresh
  · rw [hp.billing] at hnone
    cases hnone

theorem MppEnds.caller {s : Exchange} {b : Billing} (h : MppEnds data (.returned none) s ∧ s.x402Billing = some b) :
    ∃ p, b = .mpp p ∧ MppCaller data p s := by
  obtain ⟨rfl | ⟨p, hp⟩, hsome⟩ := h
  · cases hsome
  · rw [hp.billing] at hsome
    exact ⟨p, (Option.some.inj hsome).symm, hp⟩

theorem handlePaid_ends (w : World) (r : Request) (data : PyJson) :
    Coro.Ends Fresh (handlePaid w r data) (Authenticates w r data) := by
  rw [handlePaid]
  by_cases hmpp : carriesMppCredential w r data
  · rw [if_pos hmpp]
    refine Coro.Ends.bind (handleMppAuth_ends w r data) (fun answer => ?_) (fun e s h => congrArg Exchange.log h)
      (fun s h => h)
    cases answer with
    | some a => exact turnedAway a
    | none =>
      refine Coro.Ends.get (fun billing => ?_)
      rcases billing with _ | (p | p)
      · by_cases hbudget : w.budgetExhausted .x402
        · simp only [hbudget, if_true]
          exact (turnedAway _).strengthen (fun s => MppEnds.fresh)
        · simp only [hbudget]
          exact (handleX402Payment_ends w r data).strengthen (fun s => MppEnds.fresh)
      · intro s hs
        obtain ⟨q, hq, -⟩ := MppEnds.caller hs
        cases hq
      · refine Coro.Ends.pure (fun s hs => ?_)
        obtain ⟨q, -, hcaller⟩ := MppEnds.caller hs
        exact .mpp q hcaller
  · rw [if_neg hmpp]
    exact handleX402Payment_ends w r data

theorem handleX402Auth_ends (hanon : isAnonymous r) :
    Coro.Ends Fresh (handleX402Auth w r data) (Authenticates w r data) := by
  rw [handleX402Auth]
  cases hname : toolCallName data with
  | none => exact handlePaid_ends w r data
  | some name =>
    by_cases hcommunity : isCommunityTool name
    · simp only [hcommunity, if_true]
      exact turnedAway _
    · by_cases hfree : name ∈ anonFreeTools
      · simp only [hcommunity, hfree, if_true]
        refine attempt ?_
        cases hprice : resolveToolCost w .free (.str name) with
        | error e => exact turnedAway _
        | ok cost =>
          by_cases hzero : cost = 0
          · simp only [hzero, if_true, handleFreeTool]
            split_ifs
            · exact turnedAway _
            · exact turnedAway _
            · refine update (Coro.Ends.pure (fun s hs => ?_))
              obtain ⟨s', rfl, rfl⟩ := hs
              subst hzero
              exact .free rfl ⟨hanon, name, hfree, hname, hprice⟩ rfl
          · simp only [hzero, if_false]
            exact handlePaid_ends w r data
      · simp only [hcommunity, hfree]
        exact handlePaid_ends w r data

theorem authenticateBearer_ends (w : World) (r : Request) (data : PyJson) :
    Coro.Ends Fresh (authenticateBearer w) (Authenticates w r data) := by
  rw [authenticateBearer]
  cases w.token with
  | expired | invalidAudience | invalid => exact turnedAway _
  | valid claims =>
    refine lift (fun revoked hrevoked => ?_) (fun e he s hs => congrArg Exchange.log hs)
    cases revoked with
    | true => exact turnedAway _
    | false =>
      refine update (Coro.Ends.pure (fun s hs => ?_))
      obtain ⟨s', rfl, rfl⟩ := hs
      exact .bearer rfl rfl rfl

/-- `_authenticate` -/
theorem authenticate_ends (w : World) (r : Request) (data : PyJson) :
    Coro.Ends Fresh (authenticate w r data) (Authenticates w r data) := by
  rw [authenticate]
  by_cases hanon : isAnonymous r
  · rw [if_neg (not_not.mpr hanon)]
    by_cases hauth : w.settings.mcpAuthEnabled
    · rw [if_pos hauth]
      by_cases hx402 : w.settings.mcpX402Enabled
      · rw [if_pos hx402]
        exact handleX402Auth_ends hanon
      · rw [if_neg hx402]
        exact turnedAway _
    · rw [if_neg hauth]
      refine update (Coro.Ends.pure (fun s hs => ?_))
      obtain ⟨s', rfl, rfl⟩ := hs
      exact .unchecked (Bool.not_eq_true _ ▸ hauth) rfl rfl
  · rw [if_pos hanon]
    exact authenticateBearer_ends w r data

end Phases

end Teardrop.Gateway
