/-
The caller's address behind reverse proxies (`shared/request_ip.py`): the `X-Forwarded-For` header read from its right end,
a bounded number of proxy hops inward.

A proxy appends the address it was called from, so the last `k` segments come from `k` trusted proxies and the segments
before them are the client's own text.
-/
import Mathlib
import Teardrop.Core.IpAddress

namespace Teardrop.RequestIp

open IpAddress List

def normalizedIp (value : PyStr) : Option PyStr :=
  let candidate := PyStr.strip value
  if candidate = [] then none else (ipAddress candidate).map IpAddress.str

/-- what the lookup reads of a request: the host of `request.client` and the `x-forwarded-for` header -/
structure Request where
  client : Option PyStr
  forwardedFor : Option PyStr

def Request.peerHost (request : Request) : PyStr := PyStr.strip (request.client.getD [])

/-- the header's comma-separated segments -/
def segments (header : PyStr) : List PyStr := PyStr.split (PyChar.ofChar ',') header

/-- `forwarded_chain`: the segments that are addresses, each in its normal form -/
def forwardedChain (header : PyStr) : List PyStr := (segments header).filterMap normalizedIp

def clientIpFromRequest (request : Request) (trustedProxyCount : ℤ) : PyStr :=
  let peerHost := request.peerHost
  if trustedProxyCount ≤ 0 then peerHost
  else
    let chain := forwardedChain (request.forwardedFor.getD [])
    match normalizedIp peerHost with
    | none => peerHost
    | some peerIp =>
      if chain = [] then peerHost
      else
        let fullChain := chain ++ [peerIp]
        let candidateIndex : ℤ := fullChain.length - trustedProxyCount - 1
        if candidateIndex < 0 then peerHost else fullChain.getD candidateIndex.toNat []

/-! ## The answer, from the right -/

/-- **The k-th address from the right.** With a direct peer that is an address, `k ≥ 1` trusted proxies give the `k`-th
address from the right of the header, and the direct peer when the header has fewer. -/
theorem clientIpFromRequest_eq (request : Request) {k : ℕ} (hk : 1 ≤ k) (hpeer : (normalizedIp request.peerHost).isSome) :
    clientIpFromRequest request k =
      (forwardedChain (request.forwardedFor.getD [])).reverse[k - 1]?.getD request.peerHost := by
  obtain ⟨peerIp, hip⟩ := Option.isSome_iff_exists.mp hpeer
  generalize hchain : forwardedChain (request.forwardedFor.getD []) = chain
  have hpos : ¬ (k : ℤ) ≤ 0 := by omega
  simp only [clientIpFromRequest, hpos, if_false, hip, hchain]
  rcases Nat.lt_or_ge chain.length k with hshort | hlong
  · -- fewer addresses than trusted proxies: the index is negative
    have hnone : chain.reverse[k - 1]? = none := by
      apply getElem?_eq_none
      simp only [length_reverse]
      omega
    have hneg : ((chain ++ [peerIp]).length : ℤ) - k - 1 < 0 := by
      simp only [length_append, length_singleton]
      omega
    simp only [hnone, hneg, if_true, Option.getD_none, ite_self]
  · have hne : chain ≠ [] := by
      intro hnil
      simp [hnil] at hlong
      omega
    have hindex : ((chain ++ [peerIp]).length : ℤ) - k - 1 = ((chain.length - k : ℕ) : ℤ) := by
      simp only [length_append, length_singleton]
      omega
    have hlt : chain.length - k < chain.length := by omega
    have hread : chain.reverse[k - 1]? = some chain[chain.length - k] := by
      rw [getElem?_reverse (by omega), ← getElem?_eq_getElem hlt]
      congr 1
      omega
    have hnonneg : ¬ ((chain.length - k : ℕ) : ℤ) < 0 := by omega
    rw [if_neg hne, hindex, if_neg hnonneg, hread, Int.toNat_natCast, getD_eq_getElem?_getD,
      getElem?_append_left hlt, getElem?_eq_getElem hlt]
    rfl

/-! ## The trusted suffix -/

/-- the segments the `k` trusted proxies wrote -/
def trusted (k : ℕ) (header : PyStr) : List PyStr := (segments header).rtake k

/-- the segments before them, which the client chooses -/
def supplied (k : ℕ) (header : PyStr) : List PyStr := (segments header).rdrop k

/-- how many of the trusted segments are not addresses -/
def malformed (k : ℕ) (header : PyStr) : ℕ := (trusted k header).countP (fun segment => (normalizedIp segment).isNone)

theorem segments_eq (k : ℕ) (header : PyStr) : segments header = supplied k header ++ trusted k header :=
  (take_append_drop _ _).symm

theorem trusted_length {k : ℕ} {header : PyStr} (h : k ≤ (segments header).length) : (trusted k header).length = k := by
  simp only [trusted, rtake, length_drop]
  omega

theorem forwardedChain_eq (k : ℕ) (header : PyStr) :
    forwardedChain header = (supplied k header).filterMap normalizedIp ++ (trusted k header).filterMap normalizedIp := by
  rw [forwardedChain, segments_eq k header, filterMap_append]

theorem filterMap_length (values : List PyStr) :
    (values.filterMap normalizedIp).length + values.countP (fun segment => (normalizedIp segment).isNone) = values.length := by
  induction values with
  | nil => rfl
  | cons value rest ih =>
    cases hvalue : normalizedIp value with
    | none => simp only [filterMap_cons_none hvalue, countP_cons, hvalue, length_cons]; simp; omega
    | some ip => simp only [filterMap_cons_some hvalue, countP_cons, hvalue, length_cons]; simp; omega

theorem trusted_addresses {k : ℕ} {header : PyStr} (h : k ≤ (segments header).length) :
    ((trusted k header).filterMap normalizedIp).length + malformed k header = k := by
  rw [malformed, filterMap_length, trusted_length h]

theorem malformed_eq_zero {k : ℕ} {header : PyStr} :
    malformed k header = 0 ↔ ∀ segment ∈ trusted k header, (normalizedIp segment).isSome := by
  simp [malformed, Option.isSome_iff_ne_none]

/-- the address that the malformed trusted segments let in: counted from the right of the client's own ones -/
def letIn (k : ℕ) (header : PyStr) : Option PyStr :=
  ((supplied k header).filterMap normalizedIp).reverse[malformed k header - 1]?

section
variable {peer header : PyStr} {k : ℕ}

/-- **A well-formed suffix decides.** When the last `k` segments are addresses, the answer is the first of them. -/
theorem clientIpFromRequest_trusted (hk : 1 ≤ k) (hpeer : (normalizedIp (PyStr.strip peer)).isSome)
    (hlen : k ≤ (segments header).length) (hgood : malformed k header = 0) :
    clientIpFromRequest ⟨some peer, some header⟩ k =
      (((trusted k header).filterMap normalizedIp).head?).getD (PyStr.strip peer) := by
  have hcount := trusted_addresses hlen
  rw [clientIpFromRequest_eq ⟨some peer, some header⟩ hk hpeer]
  simp only [Option.getD_some, forwardedChain_eq k header, reverse_append]
  rw [getElem?_append_left (by simp only [length_reverse]; omega), getElem?_reverse (by omega), head?_eq_getElem?]
  have hfirst : ((trusted k header).filterMap normalizedIp).length - 1 - (k - 1) = 0 := by omega
  rw [hfirst]
  rfl

/-- **A malformed suffix lets the client in.** The answer is then an address of the client's own segments, or the peer. -/
theorem clientIpFromRequest_malformed (hpeer : (normalizedIp (PyStr.strip peer)).isSome)
    (hlen : k ≤ (segments header).length) (hbad : malformed k header ≠ 0) :
    clientIpFromRequest ⟨some peer, some header⟩ k = (letIn k header).getD (PyStr.strip peer) := by
  have hcount := trusted_addresses hlen
  rw [clientIpFromRequest_eq ⟨some peer, some header⟩ (by omega) hpeer]
  simp only [Option.getD_some, forwardedChain_eq k header, reverse_append]
  rw [getElem?_append_right (by simp only [length_reverse]; omega), letIn, length_reverse]
  have hindex : k - 1 - ((trusted k header).filterMap normalizedIp).length = malformed k header - 1 := by omega
  rw [hindex]
  rfl

end

/-! ## Spoofing -/

/-- two headers give one answer, and a malformed trusted segment gives the direct peer -/
def Unspoofed (peer : PyStr) (k : ℕ) (header header' : PyStr) : Prop :=
  clientIpFromRequest ⟨some peer, some header⟩ k = clientIpFromRequest ⟨some peer, some header'⟩ k ∧
    ((∃ segment ∈ trusted k header, normalizedIp segment = none) →
      clientIpFromRequest ⟨some peer, some header⟩ k = PyStr.strip peer)

/-- no address of the client's own takes the place of a malformed trusted segment, unless it is the direct peer itself -/
def Kept (peer : PyStr) (k : ℕ) (header : PyStr) : Prop := ∀ ip ∈ letIn k header, ip = PyStr.strip peer

instance (peer : PyStr) (k : ℕ) (header : PyStr) : Decidable (Kept peer k header) :=
  inferInstanceAs (Decidable (∀ ip ∈ letIn k header, ip = PyStr.strip peer))

theorem kept_iff {peer header : PyStr} {k : ℕ} :
    Kept peer k header ↔ (letIn k header).getD (PyStr.strip peer) = PyStr.strip peer := by
  cases hin : letIn k header with
  | none | some _ => simp [Kept, hin]

/-- **Exactly when a forwarded address cannot be spoofed.** Two headers with the same last `k` segments give the same answer,
and a malformed one among these gives the direct peer, if and only if the last `k` segments are all addresses, or in neither
header the client's own segments hold another address than the peer where the dropped segments make them count. -/
theorem client_ip_unspoofed_iff {peer header header' : PyStr} {k : ℕ} (hk : 1 ≤ k)
    (hpeer : (normalizedIp (PyStr.strip peer)).isSome) (hlen : k ≤ (segments header).length)
    (hlen' : k ≤ (segments header').length) (hsame : trusted k header = trusted k header') :
    Unspoofed peer k header header' ↔
      (∀ segment ∈ trusted k header, (normalizedIp segment).isSome) ∨ (Kept peer k header ∧ Kept peer k header') := by
  have hcounts : malformed k header' = malformed k header := by rw [malformed, malformed, hsame]
  rcases Nat.eq_zero_or_pos (malformed k header) with hgood | hbad
  · have hall := malformed_eq_zero.1 hgood
    constructor
    · intro _
      exact .inl hall
    · intro _
      constructor
      · rw [clientIpFromRequest_trusted hk hpeer hlen hgood,
          clientIpFromRequest_trusted hk hpeer hlen' (by rw [hcounts, hgood]), hsame]
      · intro hmalformed
        obtain ⟨segment, hmem, hnone⟩ := hmalformed
        have hsome := hall segment hmem
        simp [hnone] at hsome
  · have hsome : ¬ ∀ segment ∈ trusted k header, (normalizedIp segment).isSome := by
      intro hall
      have hzero := malformed_eq_zero.2 hall
      omega
    have hmalformed : ∃ segment ∈ trusted k header, normalizedIp segment = none := by simpa using hsome
    rw [Unspoofed, clientIpFromRequest_malformed hpeer hlen (by omega),
      clientIpFromRequest_malformed hpeer hlen' (by omega), kept_iff, kept_iff]
    constructor
    · intro hunspoofed
      have hpeer := hunspoofed.2 hmalformed
      exact .inr ⟨hpeer, hunspoofed.1.symm.trans hpeer⟩
    · intro hkept
      obtain ⟨hleft, hright⟩ := hkept.resolve_left hsome
      exact ⟨hleft.trans hright.symm, fun _ => hleft⟩

/-- the direct peer of the examples below -/
def samplePeer : PyStr := PyStr.ofString "10.0.0.1"

theorem client_ip_unspoofed_iff_sample :
    Unspoofed samplePeer 1 (PyStr.ofString "1.1.1.1, 9.9.9.9") (PyStr.ofString "2.2.2.2, 9.9.9.9") ∧
      ¬ Unspoofed samplePeer 1 (PyStr.ofString "1.1.1.1, unknown") (PyStr.ofString "2.2.2.2, unknown") := by
  constructor
  · exact (client_ip_unspoofed_iff (by decide) (by decide) (by decide) (by decide) (by decide)).mpr (.inl (by decide))
  · intro hunspoofed
    have h := (client_ip_unspoofed_iff (by decide) (by decide) (by decide) (by decide) (by decide)).mp hunspoofed
    revert h
    decide

/-- one trusted proxy and a last segment that is not an address: the client's own first segment is the answer -/
theorem forwarded_address_spoofed :
    trusted 1 (PyStr.ofString "1.1.1.1, unknown") = trusted 1 (PyStr.ofString "2.2.2.2, unknown") ∧
      ¬ Unspoofed samplePeer 1 (PyStr.ofString "1.1.1.1, unknown") (PyStr.ofString "2.2.2.2, unknown") := by
  constructor
  · decide
  · intro hunspoofed
    have hsame := hunspoofed.1
    revert hsame
    decide

end Teardrop.RequestIp
