/-
`http_fetch` of `tools/definitions/http_fetch.py`: a URL is validated, fetched over a connector pinned to the addresses of
that validation, and a redirect is followed by hand, with a validation and a connector of its own, at most five times.

A run is fixed by a `World`: what each DNS lookup answers, which of the offered addresses are tried at each hop, and what
the server replies there. The answers of two hops have nothing in common.
-/
import Teardrop.Tools.SsrfGuard

namespace Teardrop.HttpFetch

open Py IpAddress Ssrf

/-! ## The requests -/

def maxResponseBytes : ℕ := 1 * 1024 * 1024

def maxRedirects : ℕ := 5

def redirectStatuses : List ℕ := [301, 302, 303, 307, 308]

/-- an exception of the HTTP client: whether it is an `aiohttp.ClientError`, and the name of its type -/
structure Failure where
  clientError : Bool
  name : PyStr

/-- a response: its status, the headers the code reads, and what `read()` gives -/
structure Response where
  status : ℕ
  location : Option PyStr
  contentLength : Option ℕ
  charset : Option PyStr
  body : Except Failure (List UInt8)

/-- what `bytes.decode(encoding, errors="replace")` gives: text, an unknown codec, or another exception by its type's name -/
inductive Decoded where
  | text (s : PyStr)
  | lookupError
  | raised (name : PyStr)

/-- what the outside world does in one run, hop by hop, and the libraries the code calls -/
structure World where
  urls : Urls
  /-- the DNS answers at the validation for hop `k` -/
  dns : ℕ → PyStr → Lookup
  /-- the address family asked of the resolver at hop `k` -/
  family : ℕ → Family
  /-- which of the offered addresses are tried at hop `k` -/
  picks : ℕ → List ℕ
  /-- the server's reply at hop `k` -/
  reply : ℕ → Except Failure Response
  decode : PyStr → List UInt8 → Decoded
  utf8 : List UInt8 → PyStr
  extractContent : PyStr → Option PyStr × PyStr
  typeName : Exc → PyStr

/-- the dictionary `http_fetch` returns; `error` is present only when the first URL was refused -/
structure Page where
  url : PyStr
  title : Option PyStr
  content : PyStr
  contentLength : ℕ
  truncated : Bool
  error : Option PyStr

/-- a page without text of its own: the reason stands in `content` -/
def notice (url content : PyStr) : Page := ⟨url, none, content, 0, false, none⟩

/-- one request: its URL, the addresses its connector was pinned to, and those it connected to -/
structure Hop where
  url : PyStr
  ips : List PyStr
  connections : List PyStr

/-! ## One hop -/

/-- how the body of the loop ends -/
inductive Turn where
  | returned (page : Page)
  | broke (html : PyStr)
  | continued (nextUrl : PyStr) (nextIps : List PyStr)

/-- the two handlers around the loop -/
def handled (url : PyStr) (e : Failure) : Page :=
  if e.clientError then notice url (PyStr.ofString "Fetch error: " ++ e.name)
  else notice url (PyStr.ofString "Unexpected error: " ++ e.name)

/-- an exception raised by the code's own calls, none of which is a `ClientError` -/
def unexpected (w : World) (url : PyStr) (e : Exc) : Turn := .returned (handled url ⟨false, w.typeName e⟩)

/-- a redirect from `currentUrl`, validated with the DNS answers of the next hop -/
def follow (w : World) (url : PyStr) (next : ℕ) (currentUrl : PyStr) : Option PyStr → Turn
  | none | some [] => .returned (notice url "Redirect missing Location header")
  | some location =>
    match w.urls.urljoin currentUrl location with
    | .error e => unexpected w url e
    | .ok nextUrl =>
      match validateUrlWithIps w.urls (w.dns next) nextUrl with
      | .error e => unexpected w url e
      | .ok (some redirectError, _) => .returned (notice url (PyStr.ofString "Redirect blocked: " ++ redirectError))
      | .ok (none, nextIps) => .continued nextUrl nextIps

/-- the body of a page, cut to size and decoded -/
def readHtml (w : World) (url : PyStr) (resp : Response) : Turn :=
  match resp.contentLength with
  | some n =>
    if maxResponseBytes < n then
      .returned (notice url (PyStr.ofString "Response too large: " ++ PyStr.ofString (toString n) ++ PyStr.ofString " bytes"))
    else read
  | none => read
where
  read : Turn :=
    match resp.body with
    | .error e => .returned (handled url e)
    | .ok body =>
      let body := body.take maxResponseBytes
      let encoding := match resp.charset with
        | none | some [] => PyStr.ofString "utf-8"
        | some charset => charset
      match w.decode encoding body with
      | .text html => .broke html
      | .lookupError => .broke (w.utf8 body)
      | .raised name => .returned (handled url ⟨false, name⟩)

/-- what the code makes of the reply to hop `k` -/
def judge (w : World) (url : PyStr) (k : ℕ) (currentUrl : PyStr) : Turn :=
  match w.reply k with
  | .error e => .returned (handled url e)
  | .ok resp =>
    if resp.status ∈ redirectStatuses then follow w url (k + 1) currentUrl resp.location
    else if resp.status ≠ 200 then .returned (notice url (PyStr.ofString "HTTP " ++ PyStr.ofString (toString resp.status)))
    else readHtml w url resp

/-- the request of hop `k`, over the connector pinned to `currentIps` -/
def request (w : World) (k : ℕ) (currentUrl : PyStr) (currentIps : List PyStr) : Hop :=
  let currentHost := w.urls.hostname currentUrl
  ⟨currentUrl, currentIps, connections (resolvePinned currentHost currentIps) currentHost (w.family k) (w.picks k)⟩

/-! ## The loop -/

/-- `for _hop in range(n)`, from hop `k`: the page returned or the text broken out with, and the requests made -/
def loop (w : World) (url : PyStr) : ℕ → ℕ → PyStr → List PyStr → (Page ⊕ PyStr) × List Hop
  | 0, _, _, _ => (.inl (notice url "Too many redirects"), [])
  | n + 1, k, currentUrl, currentIps =>
    let hop := request w k currentUrl currentIps
    match judge w url k currentUrl with
    | .returned page => (.inl page, [hop])
    | .broke html => (.inr html, [hop])
    | .continued nextUrl nextIps =>
      let (out, hops) := loop w url n (k + 1) nextUrl nextIps
      (out, hop :: hops)

/-- the text of a page that was read, cut to `max_chars` -/
def extracted (w : World) (url : PyStr) (maxChars : ℕ) (html : PyStr) : Page :=
  let (title, content) := w.extractContent html
  let truncated := maxChars < content.length
  let content := if truncated then content.take maxChars else content
  ⟨url, title, content, content.length, truncated, none⟩

/-- `http_fetch`: the page and the requests, or the exception of the first validation, which no handler catches -/
def httpFetch (w : World) (url : PyStr) (maxChars : ℕ) : Call (Page × List Hop) :=
  match validateUrlWithIps w.urls (w.dns 0) url with
  | .error e => .error e
  | .ok (some error, _) => .ok (⟨url, none, [], 0, false, some error⟩, [])
  | .ok (none, pinnedIps) =>
    match loop w url (maxRedirects + 1) 0 url pinnedIps with
    | (.inl page, hops) => .ok (page, hops)
    | (.inr html, hops) => .ok (extracted w url maxChars html, hops)

/-! ## Where the connections go -/

/-- hop `k` asked for a URL its own validation let through, over a connector pinned to what that validation returned -/
structure Pinned (w : World) (k : ℕ) (hop : Hop) : Prop where
  validated : validateUrlWithIps w.urls (w.dns k) hop.url = .ok (none, hop.ips)
  connected : ∀ c ∈ hop.connections, ∃ ip ∈ hop.ips, isIpBlocked ip = false ∧ ipAddress c = ipAddress ip

variable {w : World} {currentUrl url : PyStr}

variable {currentIps nextIps : List PyStr}

theorem request_pinned {k : ℕ} (h : validateUrlWithIps w.urls (w.dns k) currentUrl = .ok (none, currentIps)) :
    Pinned w k (request w k currentUrl currentIps) :=
  ⟨h, fun _ hc => pinned_connections h hc⟩

theorem readHtml_ends (w : World) (url : PyStr) (resp : Response) (nextUrl : PyStr) (nextIps : List PyStr) :
    readHtml w url resp ≠ .continued nextUrl nextIps := by
  have hread : readHtml.read w url resp ≠ .continued nextUrl nextIps := by
    unfold readHtml.read
    intro h
    split at h
    · cases h
    · dsimp only at h
      split at h <;> cases h
  unfold readHtml
  split
  · split_ifs
    · intro h
      cases h
    · exact hread
  · exact hread

theorem follow_continued {nextUrl : PyStr} {k : ℕ} {location : Option PyStr}
    (h : follow w url k currentUrl location = .continued nextUrl nextIps) :
    validateUrlWithIps w.urls (w.dns k) nextUrl = .ok (none, nextIps) := by
  match location with
  | none | some [] => cases h
  | some (c :: cs) =>
    rw [follow.eq_def] at h
    dsimp only at h
    match hjoin : w.urls.urljoin currentUrl (c :: cs) with
    | .error e => rw [hjoin] at h; cases h
    | .ok target =>
      rw [hjoin] at h
      dsimp only at h
      match hvalid : validateUrlWithIps w.urls (w.dns k) target with
      | .error e => rw [hvalid] at h; cases h
      | .ok (some e, _) => rw [hvalid] at h; cases h
      | .ok (none, ips) =>
        rw [hvalid] at h
        cases h
        exact hvalid

theorem judge_continued {nextUrl : PyStr} {k : ℕ} (h : judge w url k currentUrl = .continued nextUrl nextIps) :
    validateUrlWithIps w.urls (w.dns (k + 1)) nextUrl = .ok (none, nextIps) := by
  unfold judge at h
  match hreply : w.reply k with
  | .error e => rw [hreply] at h; cases h
  | .ok resp =>
    rw [hreply] at h
    dsimp only at h
    split_ifs at h
    · exact follow_continued h
    · exact absurd h (readHtml_ends w url resp nextUrl nextIps)

/-- each request of the loop is pinned, and there are at most `n` -/
theorem loop_pinned (n k : ℕ) (h : validateUrlWithIps w.urls (w.dns k) currentUrl = .ok (none, currentIps)) :
    (loop w url n k currentUrl currentIps).2.length ≤ n ∧
      ∀ i hop, (loop w url n k currentUrl currentIps).2[i]? = some hop → Pinned w (k + i) hop := by
  induction n generalizing k currentUrl currentIps with
  | zero =>
    refine ⟨le_rfl, ?_⟩
    intro i hop hi
    simp [loop] at hi
  | succ n ih =>
    have hfirst : Pinned w k (request w k currentUrl currentIps) := request_pinned h
    have hone : ∀ i hop, [request w k currentUrl currentIps][i]? = some hop → Pinned w (k + i) hop := by
      intro i hop hi
      match i with
      | 0 => cases hi; exact hfirst
      | i + 1 => simp at hi
    rw [loop]
    match hjudge : judge w url k currentUrl with
    | .returned page => exact ⟨by simp, hone⟩
    | .broke html => exact ⟨by simp, hone⟩
    | .continued nextUrl nextIps =>
      obtain ⟨hlen, hrest⟩ := ih (k + 1) (judge_continued hjudge)
      refine ⟨Nat.succ_le_succ hlen, ?_⟩
      intro i hop hi
      match i with
      | 0 => cases hi; exact hfirst
      | i + 1 =>
        have hpinned : Pinned w (k + 1 + i) hop := hrest i hop hi
        rwa [Nat.add_right_comm] at hpinned

theorem httpFetch_error {maxChars : ℕ} {e : Exc} (h : httpFetch w url maxChars = .error e) :
    validateUrlWithIps w.urls (w.dns 0) url = .error e := by
  unfold httpFetch at h
  match hvalid : validateUrlWithIps w.urls (w.dns 0) url with
  | .error e' =>
    rw [hvalid] at h
    cases h
    rfl
  | .ok (some error, ips) => rw [hvalid] at h; cases h
  | .ok (none, ips) =>
    rw [hvalid] at h
    dsimp only at h
    match hloop : loop w url (maxRedirects + 1) 0 url ips with
    | (.inl out, made) => rw [hloop] at h; cases h
    | (.inr html, made) => rw [hloop] at h; cases h

/-- what `http_fetch` did, once the first URL was let through -/
theorem httpFetch_hops {maxChars : ℕ} {page : Page} {hops : List Hop} (h : httpFetch w url maxChars = .ok (page, hops)) :
    hops = [] ∨ ∃ ips, validateUrlWithIps w.urls (w.dns 0) url = .ok (none, ips) ∧
      hops = (loop w url (maxRedirects + 1) 0 url ips).2 := by
  unfold httpFetch at h
  match hvalid : validateUrlWithIps w.urls (w.dns 0) url with
  | .error e => rw [hvalid] at h; cases h
  | .ok (some e, _) =>
    rw [hvalid] at h
    cases h
    exact .inl rfl
  | .ok (none, ips) =>
    rw [hvalid] at h
    refine .inr ⟨ips, rfl, ?_⟩
    dsimp only at h
    match hloop : loop w url (maxRedirects + 1) 0 url ips with
    | (.inl out, made) => rw [hloop] at h; cases h; rfl
    | (.inr html, made) => rw [hloop] at h; cases h; rfl

/-- **`http_fetch` stays on validated addresses.** For every world and URL it raises what its first validation raised, with
no request, or returns a page after at most `maxRedirects + 1` requests, and each connection of each of them goes to an
address that hop's own validation returned and the guard does not block. -/
theorem httpFetch_pinned (w : World) (url : PyStr) (maxChars : ℕ) :
    (∃ e, validateUrlWithIps w.urls (w.dns 0) url = .error e ∧ httpFetch w url maxChars = .error e) ∨
      ∃ page hops, httpFetch w url maxChars = .ok (page, hops) ∧ hops.length ≤ maxRedirects + 1 ∧
        ∀ k hop, hops[k]? = some hop →
          validateUrlWithIps w.urls (w.dns k) hop.url = .ok (none, hop.ips) ∧
            ∀ c ∈ hop.connections, isIpBlocked c = false ∧
              ∃ ip ∈ hop.ips, isIpBlocked ip = false ∧ ipAddress c = ipAddress ip := by
  match hfetch : httpFetch w url maxChars with
  | .error e =>
    refine .inl ⟨e, ?_, rfl⟩
    exact httpFetch_error hfetch
  | .ok (page, hops) =>
    refine .inr ⟨page, hops, rfl, ?_⟩
    rcases httpFetch_hops hfetch with rfl | ⟨ips, hvalid, rfl⟩
    · refine ⟨Nat.zero_le _, ?_⟩
      intro k hop hk
      simp at hk
    · obtain ⟨hlen, hall⟩ := loop_pinned (maxRedirects + 1) 0 hvalid
      refine ⟨hlen, ?_⟩
      intro k hop hk
      have hpinned : Pinned w k hop := by simpa using hall k hop hk
      refine ⟨hpinned.validated, ?_⟩
      intro c hc
      obtain ⟨ip, hip, hsafe, heq⟩ := hpinned.connected c hc
      exact ⟨(isIpBlocked_congr heq).trans hsafe, ip, hip, hsafe, heq⟩

end Teardrop.HttpFetch
