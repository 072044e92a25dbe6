/-
IP addresses and networks as Python's `ipaddress` reads, writes and compares them.

`ipAddress` reads four decimal octets without leading zeros, or an IPv6 address with at most one `::`, a dotted IPv4 address in
the place of the last two hextets, and a scope id after `%`. `str` writes the compressed form. A text of more than 45
characters is refused early by the library; none that the rules below accept is that long.
-/
import Teardrop.Core.PyJson

namespace Teardrop

open List Option PyStr PyChar

inductive IpAddress where
  | v4 (n : ℕ)
  | v6 (n : ℕ) (scopeId : Option PyStr)
deriving DecidableEq

namespace IpAddress

open PyJson (hexVal hexDigit natOf toChar renderNat)

/-! ## Reading -/

/-- `_parse_octet`: ASCII digits, no leading zero -/
def parseOctet (s : PyStr) : Option ℕ :=
  if s = [] ∨ ¬ s.all PyChar.isDigit ∨ 3 < s.length ∨ (s.length ≠ 1 ∧ s.head? = some '0') then none
  else if 255 < natOf (s.map toChar) then none
  else some (natOf (s.map toChar))

def parseV4 (s : PyStr) : Option ℕ :=
  match PyStr.split '.' s with
  | [a, b, c, d] => do some ((((← parseOctet a) * 256 + (← parseOctet b)) * 256 + (← parseOctet c)) * 256 + (← parseOctet d))
  | _ => none

def splitScopeId (s : PyStr) : Option (PyStr × Option PyStr) :=
  let (addr, sep, scopeId) := PyStr.partition '%' s
  if sep = [] then some (addr, none)
  else if scopeId = [] ∨ PyChar.ofChar '%' ∈ scopeId then none
  else some (addr, some scopeId)

def parseHextet (s : PyStr) : Option ℕ :=
  if s = [] ∨ 4 < s.length then none else s.foldlM (fun n c => (hexVal c).map (fun d => 16 * n + d)) 0

/-- `"%x"` of a hextet -/
def hexText (h : ℕ) : PyStr :=
  if h < 16 then [hexDigit h]
  else if h < 256 then [hexDigit (h / 16), hexDigit (h % 16)]
  else if h < 4096 then [hexDigit (h / 256), hexDigit (h / 16 % 16), hexDigit (h % 16)]
  else [hexDigit (h / 4096), hexDigit (h / 256 % 16), hexDigit (h / 16 % 16), hexDigit (h % 16)]

/-- an IPv4-style suffix, as two hextets -/
def expandV4 (parts : List PyStr) : Option (List PyStr) :=
  match parts.getLast? with
  | some last =>
    if PyChar.ofChar '.' ∈ last then
      (parseV4 last).map (fun n => parts.dropLast ++ [hexText (n / 65536), hexText (n % 65536)])
    else some parts
  | none => some parts

/-- the parts on one side of `::`, from the outer end: an empty one there is the only one -/
def dropEdge : List PyStr → Option (List PyStr)
  | [] :: rest => if rest = [] then some [] else none
  | parts => some parts

/-- the number of some hextets -/
def ofHextets (hs : List ℕ) : ℕ := hs.foldl (fun n h => n * 65536 + h) 0

/-- the eight hextets that the parts stand for -/
def hextetsOfParts (parts : List PyStr) : Option (List ℕ) :=
  let interior := (parts.drop 1).dropLast
  if interior.count [] = 0 then if parts.length ≠ 8 then none else parts.mapM parseHextet
  else if interior.count [] = 1 then do
    let skip := interior.idxOf [] + 1
    let hi ← dropEdge (parts.take skip)
    let lo ← dropEdge (parts.drop (skip + 1)).reverse
    if 8 - (hi.length + lo.length) < 1 then none
    else
      let high ← hi.mapM parseHextet
      let low ← lo.reverse.mapM parseHextet
      some (high ++ List.replicate (8 - (hi.length + lo.length)) 0 ++ low)
  else none

def parseV6 (s : PyStr) : Option ℕ := do
  let parts := PyStr.split ':' s
  if parts.length < 3 then none
  else
    let parts ← expandV4 parts
    if 9 < parts.length then none else (hextetsOfParts parts).map ofHextets

/-- `ipaddress.ip_address(text)`; `none` is its `ValueError` -/
def ipAddress (s : PyStr) : Option IpAddress :=
  if PyChar.ofChar '/' ∈ s then none
  else match parseV4 s with
    | some n => some (.v4 n)
    | none => do
      let (addr, scopeId) ← splitScopeId s
      let n ← parseV6 addr
      some (.v6 n scopeId)

/-! ## Writing -/

def strV4 (n : ℕ) : PyStr :=
  PyStr.join "." [renderNat (n / 16777216), renderNat (n / 65536 % 256), renderNat (n / 256 % 256), renderNat (n % 256)]

/-- the hextets of an address -/
def hextets (n : ℕ) : List ℕ := (List.range 8).map (fun i => n / 65536 ^ (7 - i) % 65536)

/-- the loop over the hextets: `best` is the start and the length of the first longest run of zeros, `run` how many zeros
end here -/
def zeroRun : ℕ → ℕ × ℕ → ℕ → List PyStr → ℕ × ℕ
  | _, best, _, [] => best
  | index, best, run, h :: hs =>
    if h = PyStr.ofString "0" then
      zeroRun (index + 1) (if best.2 < run + 1 then (index - run, run + 1) else best) (run + 1) hs
    else zeroRun (index + 1) best 0 hs

def compressHextets (hs : List PyStr) : List PyStr :=
  let (start, len) := zeroRun 0 (0, 0) 0 hs
  if 1 < len then
    (if start = 0 then [[]] else []) ++ hs.take start ++ [[]] ++ hs.drop (start + len) ++
      (if start + len = hs.length then [[]] else [])
  else hs

def strV6 (n : ℕ) : PyStr := PyStr.join ":" (compressHextets ((hextets n).map hexText))

/-- `str(address)` -/
def str : IpAddress → PyStr
  | .v4 n => strV4 n
  | .v6 n none => strV6 n
  | .v6 n (some scopeId) => strV6 n ++ PyChar.ofChar '%' :: scopeId

/-! ## Networks -/

/-- `address/prefixlen` -/
structure Network where
  version : ℕ
  address : ℕ
  prefixlen : ℕ

/-- the IPv4 network `a.b.c.d/len` -/
def net4 (a b c d len : ℕ) : Network := ⟨4, ((a * 256 + b) * 256 + c) * 256 + d, len⟩

/-- the IPv6 network of some leading hextets -/
def net6 (hs : List ℕ) (len : ℕ) : Network := ⟨6, ofHextets (hs ++ List.replicate (8 - hs.length) 0), len⟩

/-- `address in network` -/
def within : IpAddress → Network → Bool
  | .v4 n, net => net.version = 4 && n / 2 ^ (32 - net.prefixlen) = net.address / 2 ^ (32 - net.prefixlen)
  | .v6 n _, net => net.version = 6 && n / 2 ^ (128 - net.prefixlen) = net.address / 2 ^ (128 - net.prefixlen)

def ipv4Mapped : IpAddress → Option IpAddress
  | .v4 _ => none
  | .v6 n _ => if n / 2 ^ 32 = 0xffff then some (.v4 (n % 2 ^ 32)) else none

example : (ipAddress "::ffff:10.0.0.1").map str = some (PyStr.ofString "::ffff:a00:1") := by decide

example : ipAddress "010.0.0.1" = none ∧ ipAddress "1::2::3" = none ∧ ipAddress "fe80::1%" = none := by decide

/-! ## Pieces of a text -/

variable {sep c : PyChar} {s : PyStr} {n h : ℕ} {hs : List PyStr}

theorem split_piece {piece : PyStr} (h : sep ∉ piece) : split sep piece = [piece] := by
  induction piece with
  | nil => rfl
  | cons c piece ih =>
    rw [mem_cons, not_or] at h
    rw [split, if_neg (Ne.symm h.1), ih h.2]

theorem split_cons {piece : PyStr} (h : sep ∉ piece) (rest : PyStr) :
    split sep (piece ++ sep :: rest) = piece :: split sep rest := by
  induction piece with
  | nil => rw [nil_append, split, if_pos rfl]
  | cons c piece ih =>
    rw [mem_cons, not_or] at h
    rw [cons_append, split, if_neg (Ne.symm h.1), ih h.2]

theorem split_join {pieces : List PyStr} (hne : pieces ≠ []) (h : ∀ piece ∈ pieces, sep ∉ piece) :
    split sep (join [sep] pieces) = pieces := by
  induction pieces with
  | nil => exact absurd rfl hne
  | cons piece pieces ih =>
    have hpiece : sep ∉ piece := h piece mem_cons_self
    cases pieces with
    | nil => exact split_piece hpiece
    | cons next pieces =>
      rw [PyStr.join, append_assoc, singleton_append, split_cons hpiece]
      · rw [ih (cons_ne_nil next pieces) (fun x hx => h x (mem_cons_of_mem piece hx))]
      · exact cons_ne_nil next pieces

theorem mem_split (h : c ∈ s) : c = sep ∨ ∃ piece ∈ split sep s, c ∈ piece := by
  induction s with
  | nil => cases h
  | cons d s ih =>
    rw [split]
    by_cases hsep : d = sep
    · rw [if_pos hsep]
      rcases mem_cons.1 h with rfl | h
      · exact .inl hsep
      · rcases ih h with hc | ⟨piece, hpiece, hc⟩
        · exact .inl hc
        · exact .inr ⟨piece, mem_cons_of_mem _ hpiece, hc⟩
    · rw [if_neg hsep]
      cases hrest : split sep s with
      | nil =>
        rcases mem_cons.1 h with rfl | h
        · exact .inr ⟨[c], mem_cons_self, mem_cons_self⟩
        · rcases ih h with hc | ⟨piece, hpiece, -⟩
          · exact .inl hc
          · rw [hrest] at hpiece
            cases hpiece
      | cons first pieces =>
        rcases mem_cons.1 h with rfl | h
        · exact .inr ⟨c :: first, mem_cons_self, mem_cons_self⟩
        · rcases ih h with hc | ⟨piece, hpiece, hc⟩
          · exact .inl hc
          · rw [hrest] at hpiece
            rcases mem_cons.1 hpiece with rfl | hpiece
            · exact .inr ⟨d :: piece, mem_cons_self, mem_cons_of_mem d hc⟩
            · exact .inr ⟨piece, mem_cons_of_mem _ hpiece, hc⟩

theorem partition_append (h : sep ∉ s) (rest : PyStr) : PyStr.partition sep (s ++ sep :: rest) = (s, [sep], rest) := by
  induction s with
  | nil => rw [nil_append, PyStr.partition, if_pos rfl]
  | cons c s ih =>
    rw [mem_cons, not_or] at h
    rw [cons_append, PyStr.partition, if_neg (Ne.symm h.1), ih h.2]

theorem partition_none (h : sep ∉ s) : PyStr.partition sep s = (s, [], []) := by
  induction s with
  | nil => rfl
  | cons c s ih =>
    rw [mem_cons, not_or] at h
    rw [PyStr.partition, if_neg (Ne.symm h.1), ih h.2]

/-! ## Octets and hextets -/

theorem parseOctet_render (n : ℕ) (h : n < 256) : parseOctet (renderNat n) = some n := by
  have hall : ∀ n : Fin 256, parseOctet (renderNat n.val) = some n.val := by decide +kernel
  exact hall ⟨n, h⟩

theorem parseOctet_digits (h : parseOctet s = some n) : s.all isDigit ∧ n < 256 := by
  unfold parseOctet at h
  split_ifs at h with hbad hbig
  cases h
  simp only [not_or, not_not] at hbad
  exact ⟨hbad.2.1, by omega⟩

theorem parseV4_chars (h : parseV4 s = some n) : n < 2 ^ 32 ∧ ∀ c ∈ s, c = ofChar '.' ∨ c.isDigit := by
  unfold parseV4 at h
  split at h
  · rename_i a b c d hsplit
    simp only [bind_eq_bind, bind_eq_some_iff, some.injEq] at h
    obtain ⟨x, hx, y, hy, z, hz, w, hw, rfl⟩ := h
    obtain ⟨ha, hxlt⟩ := parseOctet_digits hx
    obtain ⟨hb, hylt⟩ := parseOctet_digits hy
    obtain ⟨hc, hzlt⟩ := parseOctet_digits hz
    obtain ⟨hd, hwlt⟩ := parseOctet_digits hw
    refine ⟨by omega, fun e he => ?_⟩
    have hpieces : e = ofChar '.' ∨ ∃ piece ∈ split (ofChar '.') s, e ∈ piece := mem_split he
    rcases hpieces with hdot | ⟨piece, hpiece, hmem⟩
    · exact .inl hdot
    · right
      rw [hsplit] at hpiece
      simp only [mem_cons, not_mem_nil, or_false] at hpiece
      rcases hpiece with rfl | rfl | rfl | rfl
      · exact all_eq_true.1 ha e hmem
      · exact all_eq_true.1 hb e hmem
      · exact all_eq_true.1 hc e hmem
      · exact all_eq_true.1 hd e hmem
  · cases h

theorem renderNat_no_dot (n : ℕ) (h : n < 256) : ofChar '.' ∉ renderNat n ∧ ofChar '/' ∉ renderNat n := by
  have hall : ∀ n : Fin 256, ofChar '.' ∉ renderNat n.val ∧ ofChar '/' ∉ renderNat n.val := by decide +kernel
  exact hall ⟨n, h⟩

theorem parseV4_strV4 (h : n < 2 ^ 32) : parseV4 (strV4 n) = some n := by
  have hsplit : split '.' (strV4 n) =
      [renderNat (n / 16777216), renderNat (n / 65536 % 256), renderNat (n / 256 % 256), renderNat (n % 256)] := by
    apply split_join (cons_ne_nil _ _)
    intro piece hpiece
    simp only [mem_cons, not_mem_nil, or_false] at hpiece
    rcases hpiece with rfl | rfl | rfl | rfl <;> exact (renderNat_no_dot _ (by omega)).1
  unfold parseV4
  rw [hsplit]
  simp only [parseOctet_render _ (show n / 16777216 < 256 by omega), parseOctet_render _ (show n / 65536 % 256 < 256 by omega),
    parseOctet_render _ (show n / 256 % 256 < 256 by omega), parseOctet_render _ (show n % 256 < 256 by omega),
    bind_eq_bind, bind_some]
  congr 1
  omega

theorem hexVal_hexDigit {d : ℕ} (h : d < 16) : hexVal (hexDigit d) = some d := by
  have hall : ∀ d : Fin 16, hexVal (hexDigit d.val) = some d.val := by decide
  exact hall ⟨d, h⟩

theorem parseHextet_hexText (hlt : h < 65536) : parseHextet (hexText h) = some h := by
  unfold hexText
  split_ifs with h1 h2 h3
  · simp [parseHextet, hexVal_hexDigit h1]
  · simp [parseHextet, hexVal_hexDigit (show h / 16 < 16 by omega), hexVal_hexDigit (show h % 16 < 16 by omega)]
    omega
  · simp [parseHextet, hexVal_hexDigit (show h / 256 < 16 by omega), hexVal_hexDigit (show h / 16 % 16 < 16 by omega),
      hexVal_hexDigit (show h % 16 < 16 by omega)]
    omega
  · simp [parseHextet, hexVal_hexDigit (show h / 4096 < 16 by omega), hexVal_hexDigit (show h / 256 % 16 < 16 by omega),
      hexVal_hexDigit (show h / 16 % 16 < 16 by omega), hexVal_hexDigit (show h % 16 < 16 by omega)]
    omega

theorem hexText_digits (hlt : h < 65536) : hexText h ≠ [] ∧ ∀ c ∈ hexText h, ∃ d < 16, c = hexDigit d := by
  unfold hexText
  split_ifs with h1 h2 h3
  · refine ⟨cons_ne_nil _ _, fun c hc => ?_⟩
    simp only [mem_cons, not_mem_nil, or_false] at hc
    exact ⟨h, h1, hc⟩
  · refine ⟨cons_ne_nil _ _, fun c hc => ?_⟩
    simp only [mem_cons, not_mem_nil, or_false] at hc
    rcases hc with rfl | rfl
    · exact ⟨h / 16, by omega, rfl⟩
    · exact ⟨h % 16, by omega, rfl⟩
  · refine ⟨cons_ne_nil _ _, fun c hc => ?_⟩
    simp only [mem_cons, not_mem_nil, or_false] at hc
    rcases hc with rfl | rfl | rfl
    · exact ⟨h / 256, by omega, rfl⟩
    · exact ⟨h / 16 % 16, by omega, rfl⟩
    · exact ⟨h % 16, by omega, rfl⟩
  · refine ⟨cons_ne_nil _ _, fun c hc => ?_⟩
    simp only [mem_cons, not_mem_nil, or_false] at hc
    rcases hc with rfl | rfl | rfl | rfl
    · exact ⟨h / 4096, by omega, rfl⟩
    · exact ⟨h / 256 % 16, by omega, rfl⟩
    · exact ⟨h / 16 % 16, by omega, rfl⟩
    · exact ⟨h % 16, by omega, rfl⟩

/-- the characters with a meaning between the digits -/
def isMark (c : PyChar) : Bool := c = ':' || c = '.' || c = '/' || c = '%'

theorem isMark_hexDigit {d : ℕ} (h : d < 16) : isMark (hexDigit d) = false := by
  have hall : ∀ d : Fin 16, isMark (hexDigit d.val) = false := by decide
  exact hall ⟨d, h⟩

theorem hexText_marks (hlt : h < 65536) (hc : isMark c) : c ∉ hexText h := by
  intro hmem
  obtain ⟨d, hd, rfl⟩ := (hexText_digits hlt).2 c hmem
  rw [isMark_hexDigit hd] at hc
  cases hc

theorem eq_zero_of_hexText (hlt : h < 65536) (htext : hexText h = ofString "0") : h = 0 := by
  have hzero : parseHextet (ofString "0") = some 0 := by decide
  have hread := parseHextet_hexText hlt
  rw [htext, hzero] at hread
  exact (some.inj hread).symm

theorem hexVal_lt {d : ℕ} (h : hexVal c = some d) : d < 16 := by
  unfold PyJson.hexVal at h
  split_ifs at h with h1 h2 h3
  · have hd := some.inj h
    have hle : c.val ≤ 57 := h1.2
    have hzero : '0'.toNat = 48 := rfl
    omega
  · have hd := some.inj h
    have hle : c.val ≤ 102 := h2.2
    have hzero : 'a'.toNat = 97 := rfl
    omega
  · have hd := some.inj h
    have hle : c.val ≤ 70 := h3.2
    have hzero : 'A'.toNat = 65 := rfl
    omega

theorem parseHextet_lt (hs : parseHextet s = some h) : h < 65536 := by
  have hfold : ∀ (s : PyStr) (n m : ℕ), s.foldlM (fun n c => (hexVal c).map (fun d => 16 * n + d)) n = some m →
      m < (n + 1) * 16 ^ s.length := by
    intro s
    induction s with
    | nil =>
      intro n m hm
      cases hm
      simp
    | cons c s ih =>
      intro n m hm
      simp only [foldlM_cons, bind_eq_bind, bind_eq_some_iff, map_eq_some_iff] at hm
      obtain ⟨k, ⟨d, hd, rfl⟩, hm⟩ := hm
      have hlt := ih _ _ hm
      have hdlt := hexVal_lt hd
      calc m < (16 * n + d + 1) * 16 ^ s.length := hlt
        _ ≤ ((n + 1) * 16) * 16 ^ s.length := Nat.mul_le_mul_right _ (by omega)
        _ = (n + 1) * 16 ^ (c :: s).length := by rw [length_cons, pow_succ]; ring
  unfold parseHextet at hs
  split_ifs at hs with hbad
  have hlt := hfold s 0 h hs
  have hlen : s.length ≤ 4 := by
    simp only [not_or, not_lt] at hbad
    exact hbad.2
  calc h < (0 + 1) * 16 ^ s.length := hlt
    _ ≤ 16 ^ 4 := by
      rw [zero_add, one_mul]
      exact Nat.pow_le_pow_right (by decide) hlen

/-! ## Eight hextets -/

theorem hextets_length (n : ℕ) : (hextets n).length = 8 := by
  rw [hextets, length_map, length_range]

theorem hextets_lt (hmem : h ∈ hextets n) : h < 65536 := by
  obtain ⟨i, -, rfl⟩ := mem_map.1 hmem
  exact Nat.mod_lt _ (by decide)

theorem ofHextets_hextets (h : n < 2 ^ 128) : ofHextets (hextets n) = n := by
  have hlist : hextets n = [n / 65536 ^ 7 % 65536, n / 65536 ^ 6 % 65536, n / 65536 ^ 5 % 65536, n / 65536 ^ 4 % 65536,
      n / 65536 ^ 3 % 65536, n / 65536 ^ 2 % 65536, n / 65536 ^ 1 % 65536, n / 65536 ^ 0 % 65536] := rfl
  rw [hlist]
  simp only [ofHextets, foldl_cons, foldl_nil]
  norm_num at h ⊢
  omega

theorem ofHextets_lt {hs : List ℕ} (h : ∀ x ∈ hs, x < 65536) : ofHextets hs < 65536 ^ hs.length := by
  induction hs using reverseRecOn with
  | nil => decide
  | append_singleton hs x ih =>
    have hx : x < 65536 := h x (by simp)
    have hlt := ih fun y hy => h y (mem_append_left _ hy)
    rw [ofHextets, foldl_append, foldl_cons, foldl_nil, ← ofHextets, length_append, length_singleton, pow_succ]
    omega

/-- the segment is inside the list and all zeros -/
def Zeros (hs : List PyStr) (start len : ℕ) : Prop :=
  start + len ≤ hs.length ∧ ∀ i, start ≤ i → i < start + len → hs[i]? = some (PyStr.ofString "0")

theorem zeroRun_zeros {whole rest : List PyStr} {index run : ℕ} {best : ℕ × ℕ} (hdrop : whole.drop index = rest)
    (hindex : index ≤ whole.length) (hbest : Zeros whole best.1 best.2) (hrun : run ≤ index)
    (hzeros : Zeros whole (index - run) run) : Zeros whole (zeroRun index best run rest).1 (zeroRun index best run rest).2 := by
  induction rest generalizing index run best with
  | nil => exact hbest
  | cons h rest ih =>
    have hlt : index < whole.length := by
      by_contra hge
      rw [drop_eq_nil_of_le (not_lt.1 hge)] at hdrop
      cases hdrop
    have hhere : whole[index]? = some h := by
      have := congrArg head? hdrop
      rwa [head?_drop] at this
    have hnext : whole.drop (index + 1) = rest := by
      rw [← tail_drop, hdrop, tail_cons]
    rw [zeroRun]
    split_ifs with hzero hlonger
    · have hgrown : Zeros whole (index - run) (run + 1) := by
        refine ⟨by omega, fun i hi hi' => ?_⟩
        by_cases hlast : i = index
        · rw [hlast, hhere, hzero]
        · exact hzeros.2 i hi (by omega)
      have heq : index + 1 - (run + 1) = index - run := by omega
      exact ih hnext hlt hgrown (by omega) (heq ▸ hgrown)
    · have hgrown : Zeros whole (index - run) (run + 1) := by
        refine ⟨by omega, fun i hi hi' => ?_⟩
        by_cases hlast : i = index
        · rw [hlast, hhere, hzero]
        · exact hzeros.2 i hi (by omega)
      have heq : index + 1 - (run + 1) = index - run := by omega
      exact ih hnext hlt hbest (by omega) (heq ▸ hgrown)
    · refine ih hnext hlt hbest (Nat.zero_le _) ⟨by omega, fun i hi hi' => by omega⟩

theorem mapM_parseHextet {hs : List ℕ} (h : ∀ x ∈ hs, x < 65536) : (hs.map hexText).mapM parseHextet = some hs := by
  induction hs with
  | nil => rfl
  | cons x hs ih =>
    rw [map_cons, mapM_cons, parseHextet_hexText (h x mem_cons_self), ih fun y hy => h y (mem_cons_of_mem x hy)]
    rfl

/-! ## The compressed form -/

/-- the parts around a `::` that stands between `before` and `after` -/
theorem hextetsOfParts_gap {before after hi lo : List PyStr} (hbefore : before ≠ []) (hafter : after ≠ [])
    (hinner : ∀ x ∈ before.drop 1, x ≠ []) (hinner' : ∀ x ∈ after.dropLast, x ≠ []) (hhi : dropEdge before = some hi)
    (hlo : dropEdge after.reverse = some lo) (hlen : hi.length + lo.length < 8) :
    hextetsOfParts (before ++ [] :: after) = (hi.mapM parseHextet).bind (fun high =>
      (lo.reverse.mapM parseHextet).map (fun low =>
        high ++ replicate (8 - (hi.length + lo.length)) 0 ++ low)) := by
  have hinterior : ((before ++ [] :: after).drop 1).dropLast = before.drop 1 ++ [] :: after.dropLast := by
    obtain ⟨b, before, rfl⟩ := exists_cons_of_ne_nil hbefore
    rw [cons_append, drop_succ_cons, drop_zero, drop_succ_cons, drop_zero,
      dropLast_append_of_ne_nil (cons_ne_nil _ _), dropLast_cons_of_ne_nil hafter]
  have hnone : (before.drop 1).count [] = 0 := count_eq_zero.2 fun hmem => hinner [] hmem rfl
  have hnone' : after.dropLast.count [] = 0 := count_eq_zero.2 fun hmem => hinner' [] hmem rfl
  have hcount : (before.drop 1 ++ [] :: after.dropLast).count [] = 1 := by
    rw [count_append, count_cons_self, hnone, hnone']
  have hskip : (before.drop 1 ++ [] :: after.dropLast).idxOf [] + 1 = before.length := by
    rw [idxOf_append_of_notMem (fun hmem => hinner [] hmem rfl), idxOf_cons_self, length_drop]
    have hpos := length_pos_iff.2 hbefore
    omega
  have htake : (before ++ [] :: after).take before.length = before := take_left
  have hdrop : (before ++ [] :: after).drop (before.length + 1) = after := by
    rw [← drop_drop, drop_left, drop_succ_cons, drop_zero]
  have hroom : ¬ 8 - (hi.length + lo.length) < 1 := by omega
  unfold hextetsOfParts
  simp only [hinterior, hcount, one_ne_zero, if_false, if_true, hskip, htake, hdrop, hhi, hlo, bind_eq_bind,
    bind_some, hroom]
  cases hi.mapM parseHextet with
  | none => rfl
  | some high =>
    cases lo.reverse.mapM parseHextet with
    | none => rfl
    | some low => rfl

theorem dropEdge_of_head {parts : List PyStr} (h : ∀ x ∈ parts, x ≠ []) : dropEdge parts = some parts := by
  cases parts with
  | nil => rfl
  | cons part parts =>
    cases part with
    | nil => exact absurd rfl (h [] mem_cons_self)
    | cons c part => rfl

/-- the side of `::` that reaches an end of the address -/
def edge (hs : List PyStr) : List PyStr := if hs = [] then [[]] else hs

theorem edge_ne_nil (hs : List PyStr) : edge hs ≠ [] := by
  unfold edge
  split_ifs with h
  · exact cons_ne_nil _ _
  · exact h

theorem dropEdge_edge (h : ∀ x ∈ hs, x ≠ []) : dropEdge (edge hs) = some hs := by
  unfold edge
  split_ifs with hnil
  · rw [hnil]
    rfl
  · exact dropEdge_of_head h

theorem edge_reverse (hs : List PyStr) : (edge hs).reverse = edge hs.reverse := by
  unfold edge
  by_cases hnil : hs = []
  · rw [if_pos hnil, if_pos (reverse_eq_nil_iff.2 hnil)]
    rfl
  · rw [if_neg hnil, if_neg (fun h => hnil (reverse_eq_nil_iff.1 h))]

theorem edge_inner (h : ∀ x ∈ hs, x ≠ []) : (∀ x ∈ (edge hs).drop 1, x ≠ []) ∧ ∀ x ∈ (edge hs).dropLast, x ≠ [] := by
  unfold edge
  split_ifs
  · exact ⟨fun x hx => absurd hx not_mem_nil, fun x hx => absurd hx not_mem_nil⟩
  · exact ⟨fun x hx => h x (mem_of_mem_drop hx), fun x hx => h x (mem_of_mem_dropLast hx)⟩

theorem compressHextets_gap {start len : ℕ} (hrun : zeroRun 0 (0, 0) 0 hs = (start, len)) (hlen : 1 < len)
    (hin : start + len ≤ hs.length) : compressHextets hs = edge (hs.take start) ++ [] :: edge (hs.drop (start + len)) := by
  have hstart : (if start = 0 then [([] : PyStr)] else []) ++ hs.take start = edge (hs.take start) := by
    unfold edge
    by_cases h0 : start = 0
    · rw [if_pos h0, h0, take_zero, append_nil, if_pos rfl]
    · have hne : hs.take start ≠ [] := by
        intro hnil
        have hzero := congrArg length hnil
        rw [length_take, length_nil] at hzero
        omega
      rw [if_neg h0, if_neg hne, nil_append]
  have hend : hs.drop (start + len) ++ (if start + len = hs.length then [([] : PyStr)] else []) =
      edge (hs.drop (start + len)) := by
    unfold edge
    by_cases hlast : start + len = hs.length
    · have hnil : hs.drop (start + len) = [] := by rw [hlast, drop_length]
      rw [if_pos hlast, hnil, if_pos rfl, nil_append]
    · have hne : hs.drop (start + len) ≠ [] := by
        intro hnil
        have hzero := congrArg length hnil
        rw [length_drop, length_nil] at hzero
        omega
      rw [if_neg hlast, if_neg hne, append_nil]
  unfold compressHextets
  rw [hrun]
  simp only [if_pos hlen]
  rw [append_assoc, append_assoc _ [[]], hend, hstart, singleton_append]

/-- a run of zeros is what `::` puts back -/
theorem split_zeros {hs : List ℕ} {start len : ℕ} (hlt : ∀ x ∈ hs, x < 65536) (h : Zeros (hs.map hexText) start len) :
    hs.take start ++ replicate len 0 ++ hs.drop (start + len) = hs := by
  have hin : start + len ≤ hs.length := by
    have := h.1
    rwa [length_map] at this
  have hmiddle : (hs.drop start).take len = replicate len 0 := by
    rw [eq_replicate_iff]
    refine ⟨by rw [length_take, length_drop]; omega, fun x hx => ?_⟩
    obtain ⟨i, hi⟩ := mem_iff_getElem?.1 hx
    have hilen : i < len := by
      by_contra hge
      rw [getElem?_take, if_neg hge] at hi
      cases hi
    rw [getElem?_take, if_pos hilen, getElem?_drop] at hi
    have htext := h.2 (start + i) (by omega) (by omega)
    rw [getElem?_map, hi, map_some] at htext
    exact eq_zero_of_hexText (hlt x (mem_of_getElem? hi)) (some.inj htext)
  rw [← hmiddle, append_assoc, ← drop_drop, take_append_drop, take_append_drop]

theorem hextetsOfParts_compress {hs : List ℕ} (hlen : hs.length = 8) (hlt : ∀ x ∈ hs, x < 65536) :
    hextetsOfParts (compressHextets (hs.map hexText)) = some hs := by
  have htexts : ∀ x ∈ hs.map hexText, x ≠ [] := by
    intro x hx
    obtain ⟨h, hmem, rfl⟩ := mem_map.1 hx
    exact (hexText_digits (hlt h hmem)).1
  have hlength : (hs.map hexText).length = 8 := by rw [length_map, hlen]
  obtain ⟨start, len, hrun⟩ : ∃ start len, zeroRun 0 (0, 0) 0 (hs.map hexText) = (start, len) := ⟨_, _, rfl⟩
  have hzeros : Zeros (hs.map hexText) start len := by
    have hnone : Zeros (hs.map hexText) 0 0 := ⟨Nat.zero_le _, fun i hi hi' => by omega⟩
    have hscan : Zeros (hs.map hexText) (zeroRun 0 (0, 0) 0 (hs.map hexText)).1 (zeroRun 0 (0, 0) 0 (hs.map hexText)).2 :=
      zeroRun_zeros drop_zero (Nat.zero_le _) hnone (le_refl 0) hnone
    rwa [hrun] at hscan
  by_cases hlong : 1 < len
  · have hin := hzeros.1
    rw [compressHextets_gap hrun hlong hin]
    have hhigh : ∀ x ∈ (hs.map hexText).take start, x ≠ [] := fun x hx => htexts x (mem_of_mem_take hx)
    have hlow : ∀ x ∈ (hs.map hexText).drop (start + len), x ≠ [] := fun x hx => htexts x (mem_of_mem_drop hx)
    have hlowReverse : dropEdge (edge ((hs.map hexText).drop (start + len))).reverse =
        some ((hs.map hexText).drop (start + len)).reverse := by
      rw [edge_reverse]
      exact dropEdge_edge fun x hx => hlow x (mem_reverse.1 hx)
    rw [hextetsOfParts_gap (edge_ne_nil _) (edge_ne_nil _) (edge_inner hhigh).1 (edge_inner hlow).2 (dropEdge_edge hhigh)
      hlowReverse (by simp only [length_take, length_reverse, length_drop]; omega)]
    have htake : ((hs.map hexText).take start).mapM parseHextet = some (hs.take start) := by
      rw [← map_take]
      exact mapM_parseHextet fun x hx => hlt x (mem_of_mem_take hx)
    have hdrop : ((hs.map hexText).drop (start + len)).mapM parseHextet = some (hs.drop (start + len)) := by
      rw [← map_drop]
      exact mapM_parseHextet fun x hx => hlt x (mem_of_mem_drop hx)
    have hfill : 8 - (((hs.map hexText).take start).length + ((hs.map hexText).drop (start + len)).reverse.length) = len := by
      simp only [length_take, length_reverse, length_drop]
      omega
    rw [reverse_reverse, htake, hdrop, hfill]
    exact congrArg some (split_zeros hlt hzeros)
  · have hplain : compressHextets (hs.map hexText) = hs.map hexText := by
      unfold compressHextets
      rw [hrun]
      exact if_neg hlong
    have hcount : (((hs.map hexText).drop 1).dropLast).count [] = 0 :=
      count_eq_zero.2 fun hmem => htexts [] (mem_of_mem_drop (mem_of_mem_dropLast hmem)) rfl
    rw [hplain, hextetsOfParts]
    simp only [hcount, if_true, hlength, ne_eq, not_true, if_false]
    exact mapM_parseHextet hlt

/-! ## Reading what was written -/

theorem edge_length (hs : List PyStr) : 1 ≤ (edge hs).length ∧ (edge hs).length ≤ max 1 hs.length := by
  unfold edge
  split_ifs with hnil
  · exact ⟨le_refl 1, le_max_left 1 _⟩
  · exact ⟨length_pos_iff.2 hnil, le_max_right 1 _⟩

theorem mem_edge {x : PyStr} (h : x ∈ edge hs) : x = [] ∨ x ∈ hs := by
  unfold edge at h
  split_ifs at h
  · exact .inl (mem_singleton.1 h)
  · exact .inr h

/-- the parts of a compressed address are hextets of it or empty, and there are three to nine of them -/
theorem compressHextets_parts (hlen : hs.length = 8) :
    (∀ x ∈ compressHextets hs, x = [] ∨ x ∈ hs) ∧ 3 ≤ (compressHextets hs).length ∧ (compressHextets hs).length ≤ 9 := by
  obtain ⟨start, len, hrun⟩ : ∃ start len, zeroRun 0 (0, 0) 0 hs = (start, len) := ⟨_, _, rfl⟩
  by_cases hlong : 1 < len
  · have hzeros : Zeros hs (zeroRun 0 (0, 0) 0 hs).1 (zeroRun 0 (0, 0) 0 hs).2 := by
      have hnone : Zeros hs 0 0 := ⟨Nat.zero_le _, fun i hi hi' => by omega⟩
      exact zeroRun_zeros drop_zero (Nat.zero_le _) hnone (le_refl 0) hnone
    rw [hrun] at hzeros
    have hin := hzeros.1
    rw [compressHextets_gap hrun hlong hin]
    have htake := edge_length (hs.take start)
    have hdrop := edge_length (hs.drop (start + len))
    rw [length_take] at htake
    rw [length_drop] at hdrop
    refine ⟨fun x hx => ?_, ?_, ?_⟩
    · rcases mem_append.1 hx with hx | hx
      · exact (mem_edge hx).imp_right mem_of_mem_take
      · rcases mem_cons.1 hx with hx | hx
        · exact .inl hx
        · exact (mem_edge hx).imp_right mem_of_mem_drop
    · rw [length_append, length_cons]
      omega
    · rw [length_append, length_cons]
      omega
  · have hplain : compressHextets hs = hs := by
      unfold compressHextets
      rw [hrun]
      exact if_neg hlong
    rw [hplain, hlen]
    exact ⟨fun x hx => .inr hx, by decide, by decide⟩

theorem hextetTexts_marks (n : ℕ) {x : PyStr} (hx : x ∈ compressHextets ((hextets n).map hexText)) (hc : isMark c) :
    c ∉ x := by
  have hlen : ((hextets n).map hexText).length = 8 := by rw [length_map, hextets_length]
  rcases (compressHextets_parts hlen).1 x hx with rfl | hmem
  · exact not_mem_nil
  · obtain ⟨h, hh, rfl⟩ := mem_map.1 hmem
    exact hexText_marks (hextets_lt hh) hc

theorem mem_join {pieces : List PyStr} (h : c ∈ join [sep] pieces) : c = sep ∨ ∃ piece ∈ pieces, c ∈ piece := by
  induction pieces with
  | nil => cases h
  | cons piece pieces ih =>
    cases pieces with
    | nil => exact .inr ⟨piece, mem_cons_self, h⟩
    | cons next pieces =>
      rw [PyStr.join] at h
      · rw [append_assoc, mem_append, mem_append, mem_singleton] at h
        rcases h with h | h | h
        · exact .inr ⟨piece, mem_cons_self, h⟩
        · exact .inl h
        · rcases ih h with hc | ⟨x, hx, hc⟩
          · exact .inl hc
          · exact .inr ⟨x, mem_cons_of_mem piece hx, hc⟩
      · exact cons_ne_nil next pieces

theorem strV6_marks (h : c ∈ strV6 n) (hc : isMark c) : c = ofChar ':' := by
  rcases mem_join h with hcolon | ⟨piece, hpiece, hmem⟩
  · exact hcolon
  · exact absurd hmem (hextetTexts_marks n hpiece hc)

theorem split_strV6 (n : ℕ) : split ':' (strV6 n) = compressHextets ((hextets n).map hexText) := by
  have hlen : ((hextets n).map hexText).length = 8 := by rw [length_map, hextets_length]
  apply split_join
  · intro hnil
    have hthree := (compressHextets_parts hlen).2.1
    rw [hnil] at hthree
    exact absurd hthree (by decide)
  · exact fun piece hpiece => hextetTexts_marks n hpiece (by decide)

theorem parseV6_strV6 (h : n < 2 ^ 128) : parseV6 (strV6 n) = some n := by
  have hlen : ((hextets n).map hexText).length = 8 := by rw [length_map, hextets_length]
  obtain ⟨-, hthree, hnine⟩ := compressHextets_parts hlen
  have hexpand : expandV4 (compressHextets ((hextets n).map hexText)) =
      some (compressHextets ((hextets n).map hexText)) := by
    unfold expandV4
    split
    · rename_i last hlast
      rw [if_neg (hextetTexts_marks n (mem_of_getLast? hlast) (by decide))]
    · rfl
  have hparts := hextetsOfParts_compress (hextets_length n) (fun x hx => hextets_lt hx)
  simp only [parseV6, split_strV6, if_neg (not_lt.2 hthree), hexpand, bind_eq_bind, bind_some,
    if_neg (not_lt.2 hnine), hparts, map_some, ofHextets_hextets h]

theorem strV6_colon (n : ℕ) : ofChar ':' ∈ strV6 n := by
  by_contra hnone
  have hsplit := split_strV6 n
  rw [split_piece hnone] at hsplit
  have hlen : ((hextets n).map hexText).length = 8 := by rw [length_map, hextets_length]
  have hthree := (compressHextets_parts hlen).2.1
  rw [← hsplit, length_singleton] at hthree
  exact absurd hthree (by decide)

theorem parseV4_colon (h : ofChar ':' ∈ s) : parseV4 s = none := by
  cases hs : parseV4 s with
  | none => rfl
  | some n =>
    rcases (parseV4_chars hs).2 _ h with hdot | hdigit
    · exact absurd hdot (by decide)
    · exact absurd hdigit (by decide)

theorem mapM_length {α β : Type} {f : α → Option β} {l : List α} {r : List β} (h : l.mapM f = some r) :
    r.length = l.length ∧ ∀ y ∈ r, ∃ x ∈ l, f x = some y := by
  induction l generalizing r with
  | nil =>
    cases h
    exact ⟨rfl, fun y hy => absurd hy not_mem_nil⟩
  | cons x l ih =>
    rw [mapM_cons] at h
    obtain ⟨y, hy, h⟩ := bind_eq_some_iff.1 h
    obtain ⟨ys, hys, h⟩ := bind_eq_some_iff.1 h
    cases h
    obtain ⟨hlen, hmem⟩ := ih hys
    refine ⟨by rw [length_cons, length_cons, hlen], fun z hz => ?_⟩
    rcases mem_cons.1 hz with rfl | hz
    · exact ⟨x, mem_cons_self, hy⟩
    · obtain ⟨w, hw, hwz⟩ := hmem z hz
      exact ⟨w, mem_cons_of_mem x hw, hwz⟩

theorem hextetsOfParts_eight {parts : List PyStr} {hs : List ℕ} (h : hextetsOfParts parts = some hs) :
    hs.length = 8 ∧ ∀ x ∈ hs, x < 65536 := by
  unfold hextetsOfParts at h
  dsimp only at h
  split_ifs at h with hzero hparts hone
  · obtain ⟨hlen, hmem⟩ := mapM_length h
    refine ⟨by omega, fun x hx => ?_⟩
    obtain ⟨s, -, hs⟩ := hmem x hx
    exact parseHextet_lt hs
  · obtain ⟨hi, -, h⟩ := bind_eq_some_iff.1 h
    obtain ⟨lo, -, h⟩ := bind_eq_some_iff.1 h
    split_ifs at h with hroom
    obtain ⟨high, hhigh, h⟩ := bind_eq_some_iff.1 h
    obtain ⟨low, hlow, h⟩ := bind_eq_some_iff.1 h
    cases h
    obtain ⟨hhighLen, hhighMem⟩ := mapM_length hhigh
    obtain ⟨hlowLen, hlowMem⟩ := mapM_length hlow
    rw [length_reverse] at hlowLen
    refine ⟨?_, fun x hx => ?_⟩
    · rw [length_append, length_append, length_replicate]
      omega
    · rcases mem_append.1 hx with hx | hx
      · rcases mem_append.1 hx with hx | hx
        · obtain ⟨s, -, hs⟩ := hhighMem x hx
          exact parseHextet_lt hs
        · rw [(mem_replicate.1 hx).2]
          decide
      · obtain ⟨s, -, hs⟩ := hlowMem x hx
        exact parseHextet_lt hs

theorem parseV6_lt (h : parseV6 s = some n) : n < 2 ^ 128 := by
  unfold parseV6 at h
  dsimp only at h
  split_ifs at h
  obtain ⟨parts, -, h⟩ := bind_eq_some_iff.1 h
  split_ifs at h
  obtain ⟨hs, hhs, rfl⟩ := map_eq_some_iff.1 h
  obtain ⟨hlen, hlt⟩ := hextetsOfParts_eight hhs
  have hbound := ofHextets_lt hlt
  rw [hlen] at hbound
  exact lt_of_lt_of_eq hbound (by norm_num)

theorem splitScopeId_scope {addr scope : PyStr} (h : splitScopeId s = some (addr, some scope)) :
    scope ≠ [] ∧ ofChar '%' ∉ scope ∧ ∀ c ∈ scope, c ∈ s := by
  have hmem : ∀ (s : PyStr), ∀ c ∈ (partition '%' s).2.2, c ∈ s := by
    intro s
    induction s with
    | nil => exact fun c hc => absurd hc not_mem_nil
    | cons d s ih =>
      intro c hc
      rw [PyStr.partition] at hc
      split_ifs at hc
      · exact mem_cons_of_mem d hc
      · exact mem_cons_of_mem d (ih c hc)
  unfold splitScopeId at h
  dsimp only at h
  split_ifs at h with hsep hbad
  · cases h
  · cases h
    rw [not_or] at hbad
    exact ⟨hbad.1, hbad.2, hmem s⟩

theorem ipAddress_cases {a : IpAddress} (h : ipAddress s = some a) :
    (∃ n, a = .v4 n ∧ n < 2 ^ 32) ∨
      ∃ n scopeId, a = .v6 n scopeId ∧ n < 2 ^ 128 ∧
        ∀ scope ∈ scopeId, scope ≠ [] ∧ ofChar '%' ∉ scope ∧ ofChar '/' ∉ scope := by
  unfold ipAddress at h
  split_ifs at h with hslash
  split at h
  · rename_i n hn
    cases h
    exact .inl ⟨n, rfl, (parseV4_chars hn).1⟩
  · obtain ⟨⟨addr, scopeId⟩, hsplit, h⟩ := bind_eq_some_iff.1 h
    obtain ⟨n, hn, h⟩ := bind_eq_some_iff.1 h
    cases h
    refine .inr ⟨n, scopeId, rfl, parseV6_lt hn, fun scope hscope => ?_⟩
    rw [hscope] at hsplit
    obtain ⟨hne, hpercent, hmem⟩ := splitScopeId_scope hsplit
    exact ⟨hne, hpercent, fun hc => hslash (hmem _ hc)⟩

/-- **Round trip.** What is read from a text is read again from its compressed form. -/
theorem ipAddress_str {a : IpAddress} (h : ipAddress s = some a) : ipAddress a.str = some a := by
  rcases ipAddress_cases h with ⟨n, rfl, hn⟩ | ⟨n, scopeId, rfl, hn, hscope⟩
  · have hread := parseV4_strV4 hn
    have hslash : ofChar '/' ∉ strV4 n := by
      intro hmem
      rcases (parseV4_chars hread).2 _ hmem with hdot | hdigit
      · exact absurd hdot (by decide)
      · exact absurd hdigit (by decide)
    rw [str, ipAddress, if_neg hslash, hread]
  · have hslash : ofChar '/' ∉ strV6 n := fun hmem => absurd (strV6_marks hmem (by decide)) (by decide)
    have hpercent : ofChar '%' ∉ strV6 n := fun hmem => absurd (strV6_marks hmem (by decide)) (by decide)
    cases scopeId with
    | none =>
      have hsplit : splitScopeId (strV6 n) = some (strV6 n, none) := by
        rw [splitScopeId, partition_none hpercent]
        rfl
      rw [str, ipAddress, if_neg hslash, parseV4_colon (strV6_colon n)]
      simp [hsplit, parseV6_strV6 hn]
    | some scope =>
      obtain ⟨hne, hpercent', hslash'⟩ := hscope scope rfl
      have hsplit : splitScopeId (strV6 n ++ ofChar '%' :: scope) = some (strV6 n, some scope) := by
        rw [splitScopeId, partition_append hpercent]
        simp [hne, hpercent']
      have hslashAll : ofChar '/' ∉ strV6 n ++ ofChar '%' :: scope := by
        rw [mem_append, mem_cons]
        rintro (hmem | hmem | hmem)
        · exact hslash hmem
        · exact absurd hmem (by decide)
        · exact hslash' hmem
      rw [str, ipAddress, if_neg hslashAll, parseV4_colon (mem_append_left _ (strV6_colon n))]
      simp [hsplit, parseV6_strV6 hn]

end IpAddress

end Teardrop
