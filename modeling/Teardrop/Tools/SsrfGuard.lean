/-
The SSRF guard of `tools/definitions/http_fetch.py`: the list of blocked networks, the check of an address, the validation
of a URL with the addresses of its host, and the resolver that pins a host to them.

What `urllib.parse` makes of a URL and what DNS answers are parameters; the addresses themselves are read, unwrapped and
compared as in `ipaddress`.
-/
import Teardrop.Core.Py
import Teardrop.Core.IpAddress

namespace Teardrop.Ssrf

open Py IpAddress List

/-! ## The blocklist -/

def blockedNetworks : List Network :=
  [net4 127 0 0 0 8, net4 10 0 0 0 8, net4 172 16 0 0 12, net4 192 168 0 0 16, net4 169 254 0 0 16, net4 100 64 0 0 10,
    net4 0 0 0 0 8, net6 [0, 0, 0, 0, 0, 0, 0, 1] 128, net6 [0xfc00] 7, net6 [0xfe80] 10, net6 [0x64, 0xff9b] 96,
    net6 [0, 0, 0, 0, 0, 0xffff] 96]

def isIpBlocked (ipStr : PyStr) : Bool :=
  match ipAddress ipStr with
  | none => true
  | some addr =>
    let addr := (ipv4Mapped addr).getD addr
    blockedNetworks.any (within addr)

/-! ## Validation -/

/-- `urllib.parse`: the scheme and the host name of a URL, unless it raises, and `urljoin` -/
structure Urls where
  urlparse : PyStr → Option (PyStr × Option PyStr)
  urljoin : PyStr → PyStr → Call PyStr

/-- the host name of a URL; `or ""` where the code asks for it again -/
def Urls.hostname (u : Urls) (url : PyStr) : PyStr := ((u.urlparse url).bind Prod.snd).getD []

/-- what `socket.getaddrinfo` gives: `gaierror`, another exception, or the addresses in order -/
inductive Lookup where
  | gaierror
  | raised (e : Exc)
  | found (addrs : List PyStr)

def dnsFailed (hostname : PyStr) : PyStr := PyStr.ofString "DNS resolution failed for: " ++ hostname

/-- the loop over the addresses of a host: each is checked, and kept once -/
def checkAddresses (hostname : PyStr) : List PyStr → List PyStr → Option PyStr × List PyStr
  | ips, [] => if ips = [] then (some (dnsFailed hostname), []) else (none, ips)
  | ips, ipStr :: rest =>
    if isIpBlocked ipStr then
      (some (PyStr.ofString "Hostname " ++ hostname ++ PyStr.ofString " resolves to blocked IP: " ++ ipStr), [])
    else checkAddresses hostname (if ipStr ∈ ips then ips else ips ++ [ipStr]) rest

/-- `validate_url_with_ips`: `(error, ips)` -/
def validateUrlWithIps (u : Urls) (dns : PyStr → Lookup) (url : PyStr) : Call (Option PyStr × List PyStr) :=
  match u.urlparse url with
  | none => .ok (some "Invalid URL", [])
  | some (scheme, hostname) =>
    if scheme ≠ PyStr.ofString "http" ∧ scheme ≠ PyStr.ofString "https" then
      .ok (some (PyStr.ofString "Blocked scheme: " ++ scheme ++ PyStr.ofString " (only http/https allowed)"), [])
    else
      match hostname.getD [] with
      | [] => .ok (some "No hostname in URL", [])
      | hostname =>
        match ipAddress hostname with
        | some addr =>
          if isIpBlocked addr.str then .ok (some (PyStr.ofString "Blocked IP address: " ++ hostname), [])
          else .ok (none, [addr.str])
        | none =>
          match dns hostname with
          | .gaierror => .ok (some (dnsFailed hostname), [])
          | .raised e => .error e
          | .found addrs => .ok (checkAddresses hostname [] addrs)

/-! ## The pinned resolver -/

/-- an address family -/
inductive Family where
  | unspec
  | inet
  | inet6
  | other
deriving DecidableEq

/-- the family of a pinned address -/
def familyOf : IpAddress → Family
  | .v4 _ => .inet
  | .v6 _ _ => .inet6

/-- `_PinnedResolver(hostname, ips).resolve(host, _, family)`: the `host` fields of its answer; `none` is its `OSError` -/
def resolvePinned (hostname : PyStr) (ips : List PyStr) (host : PyStr) (family : Family) : Option (List PyStr) :=
  if host ≠ hostname then none
  else
    let results := ips.filter (fun ip =>
      match ipAddress ip with
      | some addr => family = .unspec || family = familyOf addr
      | none => false)
    if results = [] then none else some results

variable {ips : List PyStr} {s : PyStr} {dns : PyStr → Lookup}

variable {family : Family} {url : PyStr}

theorem mem_resolvePinned {hostname host ip : PyStr} {results : List PyStr}
    (h : resolvePinned hostname ips host family = some results) (hip : ip ∈ results) : ip ∈ ips := by
  unfold resolvePinned at h
  dsimp only at h
  split_ifs at h
  cases h
  exact (mem_filter.1 hip).1

/-! ## The connector -/

/-- the texts of the addresses `aiohttp` connects to for a request, in order: a literal address is taken as it stands, and
any other host goes to the resolver, of whose answer it tries the addresses at `picks` -/
def connections (resolve : PyStr → Family → Option (List PyStr)) (host : PyStr) (family : Family) (picks : List ℕ) :
    List PyStr :=
  match ipAddress host with
  | some _ => [host]
  | none =>
    match resolve host family with
    | none => []
    | some offered => picks.filterMap (offered[·]?)

theorem mem_connections {resolve : PyStr → Family → Option (List PyStr)} {host c : PyStr} {picks : List ℕ}
    (h : c ∈ connections resolve host family picks) :
    (c = host ∧ ∃ addr, ipAddress host = some addr) ∨
      (ipAddress host = none ∧ ∃ offered, resolve host family = some offered ∧ c ∈ offered) := by
  unfold connections at h
  match haddr : ipAddress host with
  | some addr =>
    rw [haddr] at h
    exact .inl ⟨mem_singleton.1 h, addr, rfl⟩
  | none =>
    rw [haddr] at h
    match hres : resolve host family with
    | none => rw [hres] at h; cases h
    | some offered =>
      rw [hres] at h
      obtain ⟨i, -, hi⟩ := mem_filterMap.1 h
      exact .inr ⟨rfl, offered, rfl, mem_of_getElem? hi⟩

/-! ## What the list covers -/

/-- the loopback, private, link-local, CGNAT and this-network addresses of the list -/
def Internal (a : ℕ) : Prop := a < 2 ^ 32 ∧ blockedNetworks.any (within (.v4 a)) = true

instance : DecidablePred Internal := fun a =>
  inferInstanceAs (Decidable (a < 2 ^ 32 ∧ blockedNetworks.any (within (.v4 a)) = true))

/-- the layouts in which an IPv6 address carries an IPv4 address -/
inductive Layout where
  | mapped
  | compatible
  | nat64
  | sixToFour

def Layout.Embeds : Layout → ℕ → ℕ → Prop
  | .mapped, a, n => n = 0xffff * 2 ^ 32 + a
  | .compatible, a, n => n = a
  | .nat64, a, n => n = 0x64ff9b * 2 ^ 96 + a
  | .sixToFour, a, n => n / 2 ^ 80 = 0x2002 * 2 ^ 32 + a

/-- the text names an internal address in some spelling, or it is no address -/
def Forbidden (s : PyStr) : Prop :=
  match ipAddress s with
  | none => True
  | some (.v4 a) => Internal a
  | some (.v6 n _) =>
    (∃ a layout, Internal a ∧ Layout.Embeds layout a n) ∨ n = 0 ∨ n = 1 ∨ n / 2 ^ 121 = 0xfc / 2 ∨ n / 2 ^ 118 = 0xfe80 / 2 ^ 6

/-- the text spells an internal address in the IPv4-compatible layout, but not as `::1`, or in the 6to4 layout -/
def Uncovered (s : PyStr) : Prop :=
  match ipAddress s with
  | some (.v6 n _) => (Internal n ∧ n ≠ 1) ∨ ∃ a, Internal a ∧ Layout.Embeds .sixToFour a n
  | _ => False

theorem isIpBlocked_v4 {a : ℕ} (h : ipAddress s = some (.v4 a)) : isIpBlocked s = blockedNetworks.any (within (.v4 a)) := by
  rw [isIpBlocked, h]
  rfl

theorem any_within_v6 (n : ℕ) (scopeId : Option PyStr) : blockedNetworks.any (within (.v6 n scopeId)) = true ↔
      n = 1 ∨ n / 2 ^ 121 = 0x7e ∨ n / 2 ^ 118 = 0x3fa ∨ n / 2 ^ 32 = 0x64ff9b * 2 ^ 64 ∨ n / 2 ^ 32 = 0xffff := by
  simp only [blockedNetworks, net4, net6, ofHextets, within, any_cons, any_nil, length_cons, length_nil,
    replicate, cons_append, nil_append, foldl_cons, foldl_nil, Bool.or_eq_true, Bool.and_eq_true,
    decide_eq_true_eq, Bool.or_false]
  norm_num

theorem isIpBlocked_v6 {n : ℕ} {scopeId : Option PyStr} (h : ipAddress s = some (.v6 n scopeId)) : isIpBlocked s = true ↔
      (n / 2 ^ 32 = 0xffff ∧ Internal (n % 2 ^ 32)) ∨
      n = 1 ∨ n / 2 ^ 121 = 0x7e ∨ n / 2 ^ 118 = 0x3fa ∨ n / 2 ^ 32 = 0x64ff9b * 2 ^ 64 := by
  rw [isIpBlocked, h]
  simp only [ipv4Mapped]
  by_cases hmapped : n / 2 ^ 32 = 0xffff
  · rw [if_pos hmapped, Option.getD_some]
    have hlt : n % 2 ^ 32 < 2 ^ 32 := Nat.mod_lt _ (by decide)
    constructor
    · intro hany
      exact .inl ⟨hmapped, hlt, hany⟩
    · rintro (⟨-, -, hany⟩ | hother)
      · exact hany
      · omega
  · rw [if_neg hmapped, Option.getD_none, any_within_v6]
    constructor
    · rintro (h1 | h2 | h3 | h4 | h5)
      · exact .inr (.inl h1)
      · exact .inr (.inr (.inl h2))
      · exact .inr (.inr (.inr (.inl h3)))
      · exact .inr (.inr (.inr (.inr h4)))
      · exact absurd h5 hmapped
    · rintro (⟨h, -⟩ | h1 | h2 | h3 | h4)
      · exact absurd h hmapped
      · exact .inl h1
      · exact .inr (.inl h2)
      · exact .inr (.inr (.inl h3))
      · exact .inr (.inr (.inr (.inl h4)))

/-- no network of the list holds a 6to4 address, nor a small number other than `::1` -/
theorem not_blocked_of_uncovered (h : Uncovered s) : isIpBlocked s = false := by
  unfold Uncovered at h
  match hs : ipAddress s with
  | none => rw [hs] at h; exact h.elim
  | some (.v4 a) => rw [hs] at h; exact h.elim
  | some (.v6 n scopeId) =>
    rw [hs] at h
    rw [Bool.eq_false_iff, ne_eq, isIpBlocked_v6 hs]
    obtain ⟨⟨hlt, -⟩, hne⟩ | ⟨a, ⟨hlt, -⟩, hsix⟩ := h
    · rintro (⟨hmapped, -⟩ | rfl | hula | hlink | hnat)
      · rw [Nat.div_eq_of_lt hlt] at hmapped
        exact absurd hmapped (by decide)
      · exact hne rfl
      · omega
      · omega
      · rw [Nat.div_eq_of_lt hlt] at hnat
        exact absurd hnat (by norm_num)
    · unfold Layout.Embeds at hsix
      omega

theorem forbidden_of_uncovered (h : Uncovered s) : Forbidden s := by
  unfold Uncovered at h
  unfold Forbidden
  match hs : ipAddress s with
  | none => rw [hs] at h; exact h.elim
  | some (.v4 a) => rw [hs] at h; exact h.elim
  | some (.v6 n scopeId) =>
    rw [hs] at h
    obtain ⟨hint, -⟩ | ⟨a, hint, hsix⟩ := h
    · exact .inl ⟨n, .compatible, hint, rfl⟩
    · exact .inl ⟨a, .sixToFour, hint, hsix⟩

theorem blocked_of_forbidden (h : Forbidden s) (hcov : ¬ Uncovered s) : isIpBlocked s = true := by
  unfold Forbidden at h
  unfold Uncovered at hcov
  match hs : ipAddress s with
  | none => rw [isIpBlocked, hs]
  | some (.v4 a) =>
    rw [hs] at h
    rw [isIpBlocked_v4 hs]
    exact h.2
  | some (.v6 n scopeId) =>
    rw [hs] at h hcov
    rw [isIpBlocked_v6 hs]
    obtain ⟨a, layout, hint, hembeds⟩ | rfl | rfl | hula | hlink := h
    · have hlt : a < 2 ^ 32 := hint.1
      match layout with
      | .mapped =>
        have hn : n = 0xffff * 2 ^ 32 + a := hembeds
        have hmod : n % 2 ^ 32 = a := by omega
        exact .inl ⟨by omega, hmod ▸ hint⟩
      | .compatible =>
        have hn : n = a := hembeds
        subst hn
        by_cases h1 : n = 1
        · exact .inr (.inl h1)
        · exact absurd (.inl ⟨hint, h1⟩) hcov
      | .nat64 =>
        have hn : n = 0x64ff9b * 2 ^ 96 + a := hembeds
        omega
      | .sixToFour => exact absurd (.inr ⟨a, hint, hembeds⟩) hcov
    · exact absurd (.inl ⟨by decide, by decide⟩) hcov
    · exact .inr (.inl rfl)
    · exact .inr (.inr (.inl hula))
    · exact .inr (.inr (.inr (.inl hlink)))

/-! ## A URL that is let through -/

theorem checkAddresses_safe {hostname : PyStr} {addrs out : List PyStr}
    (h : checkAddresses hostname ips addrs = (none, out)) (hips : ∀ ip ∈ ips, isIpBlocked ip = false) :
    out ≠ [] ∧ ∀ ip ∈ out, isIpBlocked ip = false := by
  induction addrs generalizing ips with
  | nil =>
    rw [checkAddresses] at h
    split_ifs at h with hempty
    · cases h
    · cases h
      exact ⟨hempty, hips⟩
  | cons ipStr rest ih =>
    rw [checkAddresses] at h
    split_ifs at h with hblocked hmem
    · cases h
    · exact ih h hips
    · apply ih h
      intro ip hip
      rcases mem_append.1 hip with hold | hnew
      · exact hips ip hold
      · rw [mem_singleton.1 hnew]
        exact Bool.eq_false_iff.2 hblocked

/-- the exits of a validation that lets the URL through: an address in the URL, or the looked-up addresses -/
theorem validateUrlWithIps_cases {u : Urls} (h : validateUrlWithIps u dns url = .ok (none, ips)) :
    (∃ addr, ipAddress (u.hostname url) = some addr ∧ isIpBlocked addr.str = false ∧ ips = [addr.str]) ∨
      (ipAddress (u.hostname url) = none ∧
        ∃ addrs, dns (u.hostname url) = .found addrs ∧ checkAddresses (u.hostname url) [] addrs = (none, ips)) := by
  unfold validateUrlWithIps at h
  match hparse : u.urlparse url with
  | none => rw [hparse] at h; cases h
  | some (scheme, hostname) =>
    rw [hparse] at h
    dsimp only at h
    have hhost : u.hostname url = hostname.getD [] := by rw [Urls.hostname, hparse]; rfl
    rw [hhost]
    split_ifs at h with hscheme
    · cases h
    match hname : hostname.getD [] with
    | [] => rw [hname] at h; cases h
    | c :: cs =>
      rw [hname] at h
      dsimp only at h
      match haddr : ipAddress (c :: cs) with
      | some addr =>
        rw [haddr] at h
        dsimp only at h
        split_ifs at h with hblocked
        · cases h
        · cases h
          exact .inl ⟨addr, rfl, Bool.eq_false_iff.2 hblocked, rfl⟩
      | none =>
        rw [haddr] at h
        match hdns : dns (c :: cs) with
        | .gaierror => rw [hdns] at h; cases h
        | .raised e => rw [hdns] at h; cases h
        | .found addrs =>
          rw [hdns] at h
          exact .inr ⟨rfl, addrs, rfl, Except.ok.inj h⟩

/-- **A URL that is let through comes with safe addresses.** There is at least one, and none is blocked. -/
theorem validateUrlWithIps_safe {u : Urls} (h : validateUrlWithIps u dns url = .ok (none, ips)) :
    ips ≠ [] ∧ ∀ ip ∈ ips, isIpBlocked ip = false := by
  rcases validateUrlWithIps_cases h with ⟨addr, -, hsafe, rfl⟩ | ⟨-, addrs, -, hcheck⟩
  · refine ⟨cons_ne_nil _ _, ?_⟩
    intro ip hip
    rw [mem_singleton.1 hip]
    exact hsafe
  · exact checkAddresses_safe hcheck (by simp)

/-- **A pinned request stays on the validated addresses.** Each connection for a URL that was let through goes to the value
of one of the addresses its validation returned. -/
theorem pinned_connections {u : Urls} {c : PyStr} {picks : List ℕ} (h : validateUrlWithIps u dns url = .ok (none, ips))
    (hc : c ∈ connections (resolvePinned (u.hostname url) ips) (u.hostname url) family picks) :
    ∃ ip ∈ ips, isIpBlocked ip = false ∧ ipAddress c = ipAddress ip := by
  rcases mem_connections hc with ⟨rfl, addr, haddr⟩ | ⟨-, offered, hres, hmem⟩
  · rcases validateUrlWithIps_cases h with ⟨addr', haddr', hsafe, rfl⟩ | ⟨hnone, -⟩
    · refine ⟨addr'.str, mem_singleton_self _, hsafe, ?_⟩
      rw [haddr', ipAddress_str haddr']
    · rw [haddr] at hnone
      cases hnone
  · have hip : c ∈ ips := mem_resolvePinned hres hmem
    exact ⟨c, hip, (validateUrlWithIps_safe h).2 c hip, rfl⟩

theorem isIpBlocked_congr {t : PyStr} (h : ipAddress s = ipAddress t) : isIpBlocked s = isIpBlocked t := by
  rw [isIpBlocked, isIpBlocked, h]

/-- **Which spellings of an internal address the guard blocks.** All of them, and whatever is no address, but for the
IPv4-compatible spellings other than `::1` and the 6to4 ones; a URL is let through only with addresses it does not block. -/
theorem guard_covers_iff (s : PyStr) :
    ((Forbidden s → isIpBlocked s = true) ↔ ¬ Uncovered s) ∧
      ∀ (u : Urls) (dns : PyStr → Lookup) (url : PyStr) (ips : List PyStr),
        validateUrlWithIps u dns url = .ok (none, ips) → ips ≠ [] ∧ ∀ ip ∈ ips, isIpBlocked ip = false := by
  refine ⟨?_, fun u dns url ips h => validateUrlWithIps_safe h⟩
  constructor
  · intro hblocked hunc
    have hforb : Forbidden s := forbidden_of_uncovered hunc
    rw [not_blocked_of_uncovered hunc] at hblocked
    exact absurd (hblocked hforb) (by decide)
  · intro hcov hforb
    exact blocked_of_forbidden hforb hcov

/-- the guard lets `::`, `::127.0.0.1` and the 6to4 spelling of 127.0.0.1 through -/
theorem guard_misses_spellings :
    (Forbidden (PyStr.ofString "::") ∧ isIpBlocked (PyStr.ofString "::") = false) ∧
      (Forbidden (PyStr.ofString "::127.0.0.1") ∧ isIpBlocked (PyStr.ofString "::127.0.0.1") = false) ∧
      Forbidden (PyStr.ofString "2002:7f00:1::") ∧ isIpBlocked (PyStr.ofString "2002:7f00:1::") = false := by
  have huns : ipAddress (PyStr.ofString "::") = some (.v6 0 none) := by decide
  have hsix : ipAddress (PyStr.ofString "2002:7f00:1::") = some (.v6 (0x20027f000001 * 2 ^ 80) none) := by decide
  refine ⟨⟨?_, by decide⟩, ⟨?_, by decide⟩, ?_, by decide⟩
  · rw [Forbidden, huns]
    exact .inr (.inl rfl)
  · exact .inl ⟨0x7f000001, .compatible, by decide, rfl⟩
  · rw [Forbidden, hsix]
    exact .inl ⟨0x7f000001, .sixToFour, by decide, by unfold Layout.Embeds; norm_num⟩

/-- a public URL passes, with its address -/
theorem guard_covers_iff_public :
    [PyStr.ofString "93.184.216.34"] ≠ [] ∧ ∀ ip ∈ [PyStr.ofString "93.184.216.34"], isIpBlocked ip = false :=
  (guard_covers_iff []).2 ⟨fun _ => some (PyStr.ofString "https", some (PyStr.ofString "example.com")), fun _ _ => .ok []⟩
    (fun _ => .found [PyStr.ofString "93.184.216.34", PyStr.ofString "93.184.216.34"])
    (PyStr.ofString "https://example.com/a") [PyStr.ofString "93.184.216.34"] (by decide)

end Teardrop.Ssrf
