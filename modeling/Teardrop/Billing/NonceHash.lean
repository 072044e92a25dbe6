/-
The replay key of an x402 payment, `_payment_nonce_hash` of `billing/x402.py`: what a payment header is hashed by.

The key is the payer and the nonce of the object found under `authorization` or, if that is falsy, `permit2Authorization`;
payloads without such an object are keyed by their canonical JSON, and a header whose key cannot be built by its own text. The
`x402` package (parsing, the payload's dict, the canonical JSON) and what `str` and `str.lower` do beyond texts, numbers and ASCII
are parameters (`Package`); how the chain reads a payer and a nonce is one too (`Chain`).
-/
import Teardrop.Core.Json
import Teardrop.Core.Sha256
import Teardrop.Core.Base64

namespace Teardrop.Billing

open Teardrop.Py

/-! ## Model -/

/-- the `x402` package, and the interpreter's texts for values that are neither texts nor integers -/
structure Package where
  Payload : Type
  /-- `parse_payment_payload` -/
  parse : List UInt8 → Call Payload
  /-- `payload.payload` -/
  body : Payload → List (String × Json)
  /-- `payload.model_dump_json(by_alias=True, exclude_none=True)` -/
  dump : Payload → Call String
  wide : Char → List Char
  repr : Json → String

/-- `text.encode("utf-8")` -/
def utf8 (s : String) : List UInt8 := s.toList.flatMap String.utf8EncodeChar

theorem utf8_append (s t : String) : utf8 (s ++ t) = utf8 s ++ utf8 t := by
  rw [utf8, String.toList_append, List.flatMap_append, utf8, utf8]

/-- decimal digits, with a sign below zero -/
def decimal (n : ℤ) : List Char := if n < 0 then '-' :: Nat.toDigits 10 n.natAbs else Nat.toDigits 10 n.natAbs

/-- `str(n)`: an integer of more than 4300 digits raises -/
def decimalText (n : ℤ) : Call (List Char) :=
  if 10 ^ PyText.maxStrDigits ≤ n.natAbs then .error (.valueError "Exceeds the limit (4300 digits)")
  else .ok (decimal n)

/-- `str(value)` -/
def pyStr (x : Package) : Json → Call (List Char)
  | .str s => .ok s.toList
  | .int n => decimalText n
  | .bool true => .ok "True".toList
  | .bool false => .ok "False".toList
  | .null => .ok "None".toList
  | j => .ok (x.repr j).toList

/-- `payload.get("authorization") or payload.get("permit2Authorization")` -/
def pickedAuthorization (body : List (String × Json)) : Json :=
  let first := (Json.lookup body "authorization").getD .null
  if first.truthy then first else (Json.lookup body "permit2Authorization").getD .null

/-- the integer a nonce text spells: base 16 after `0x`, else base 10 -/
def readNonce (x : Package) (text : List Char) : Option ℤ :=
  if (PyText.lower x.wide text).take 2 = ['0', 'x'] then PyText.parseInt 16 text else PyText.parseInt 10 text

/-- the key of a payer and a nonce -/
def evmKey (payer : List Char) (digits : List Char) : String := "evm:" ++ String.ofList payer ++ ":" ++ String.ofList digits

/-- the key of an object with a payer and a nonce -/
def authorizationKey (x : Package) (payer nonce : Json) : Call String := do
  let text ← pyStr x nonce
  match readNonce x (PyText.strip text) with
  | none => .error (.valueError "invalid literal for int()")
  | some n => do
    let payerText ← pyStr x payer
    let digits ← decimalText n
    return evmKey (PyText.lower x.wide (PyText.strip payerText)) digits

/-- the key of a parsed payload -/
def payloadKey (x : Package) (p : x.Payload) : Call String :=
  match pickedAuthorization (x.body p) with
  | .obj auth =>
    let payer := (Json.lookup auth "from").getD .null
    let nonce := (Json.lookup auth "nonce").getD .null
    if payer.truthy && nonce.truthy then authorizationKey x payer nonce else x.dump p
  | _ => x.dump p

/-- the payload of a header -/
def decodeHeader (x : Package) (header : String) : Call x.Payload := do x.parse (← Base64.b64decode header)

/-- the text that is hashed for a header: its payload's key, or the header itself when anything raises -/
def hashedText (x : Package) (header : String) : String :=
  match decodeHeader x header >>= payloadKey x with
  | .ok key => key
  | .error _ => header

def paymentNonceHash (x : Package) (header : String) : String := Sha256.hexdigest (utf8 (hashedText x header))

/-! ## The signed authorization -/

/-- how the chain reads the two fields that identify an authorization -/
structure Chain where
  payer : Json → Option ℕ
  nonce : Json → Option ℕ

inductive Scheme where
  | eip3009
  | permit2

/-- where a payload of the scheme has its signed object -/
def Scheme.field : Scheme → String
  | .eip3009 => "authorization"
  | .permit2 => "permit2Authorization"

/-- what makes an authorization unique on chain -/
structure Identity where
  payer : ℕ
  nonce : ℕ
  nonce_lt : nonce < 2 ^ 256

/-- the payload carries the signed authorization `id` -/
def Carries (chain : Chain) (scheme : Scheme) (body : List (String × Json)) (id : Identity) : Prop :=
  ∃ auth, Json.lookup body scheme.field = some (.obj auth) ∧
    (Json.lookup auth "from").bind chain.payer = some id.payer ∧
    (Json.lookup auth "nonce").bind chain.nonce = some id.nonce

/-- an address as `0x` and 40 lower-case digits -/
def addressText (a : ℕ) : List Char := '0' :: 'x' :: (List.range 40).map (fun i => Hex.hexDigit (a / 16 ^ (39 - i) % 16))

/-- the object the code picks names a payer and a nonce: both are truthy, `from` stripped and in lower case is `payer`,
and `int` reads `nonce` as `n`, of at most 4300 digits -/
def Names (x : Package) (body : List (String × Json)) (payer : List Char) (n : ℤ) : Prop :=
  ∃ auth vfrom vnonce payerText nonceText, pickedAuthorization body = .obj auth ∧
    Json.lookup auth "from" = some vfrom ∧ vfrom.truthy = true ∧
    Json.lookup auth "nonce" = some vnonce ∧ vnonce.truthy = true ∧
    pyStr x vfrom = .ok payerText ∧ PyText.lower x.wide (PyText.strip payerText) = payer ∧
    pyStr x vnonce = .ok nonceText ∧ readNonce x (PyText.strip nonceText) = some n ∧
    n.natAbs < 10 ^ PyText.maxStrDigits

/-- the payload shows the code the authorization that was signed -/
def Shows (x : Package) (chain : Chain) (scheme : Scheme) (p : x.Payload) : Prop :=
  ∃ id, Carries chain scheme (x.body p) id ∧ Names x (x.body p) (addressText id.payer) id.nonce

/-- the object the code picks has a `from` and a `nonce` at all -/
def Picks (body : List (String × Json)) : Prop :=
  ∃ auth vfrom vnonce, pickedAuthorization body = .obj auth ∧ Json.lookup auth "from" = some vfrom ∧
    vfrom.truthy = true ∧ Json.lookup auth "nonce" = some vnonce ∧ vnonce.truthy = true

/-- a header is filed under a text of its own: the canonical JSON of a payload without payer and nonce, else (or when
there is none) the header -/
def Filed (x : Package) (header : String) (p : x.Payload) (t : String) : Prop :=
  (¬ Picks (x.body p) ∧ x.dump p = .ok t) ∨ ((Picks (x.body p) ∨ ∀ t', x.dump p ≠ .ok t') ∧ header = t)

/-- both headers name one payer and nonce, or neither names any and both are filed under one text -/
def Alike (x : Package) (h₁ h₂ : String) (p₁ p₂ : x.Payload) : Prop :=
  (∃ payer n, Names x (x.body p₁) payer n ∧ Names x (x.body p₂) payer n) ∨
  ((∀ payer n, ¬ Names x (x.body p₁) payer n) ∧ (∀ payer n, ¬ Names x (x.body p₂) payer n) ∧
    ∃ t, Filed x h₁ p₁ t ∧ Filed x h₂ p₂ t)

/-! ## Keys -/

theorem decimal_chars (n : ℤ) : ':' ∉ decimal n := by
  have hdigits : ':' ∉ Nat.toDigits 10 n.natAbs := by
    intro h
    have := Nat.isDigit_of_mem_toDigits (by decide) (by decide) h
    revert this
    decide
  unfold decimal
  split_ifs
  · simp [hdigits]
  · exact hdigits

theorem decimal_injective : Function.Injective decimal := by
  intro m n h
  have digit : ∀ k : ℕ, '-' ∉ Nat.toDigits 10 k := by
    intro k hk
    have := Nat.isDigit_of_mem_toDigits (by decide) (by decide) hk
    revert this
    decide
  have inj : ∀ {k l : ℕ}, Nat.toDigits 10 k = Nat.toDigits 10 l → k = l := by
    intro k l hkl
    rw [← Nat.ofDigitChars_ten_toDigits (n := k), hkl, Nat.ofDigitChars_ten_toDigits]
  unfold decimal at h
  split_ifs at h with hm hn hn
  · have := inj (List.cons.inj h).2
    omega
  · exact absurd (h ▸ List.mem_cons_self) (digit n.natAbs)
  · exact absurd (h.symm ▸ List.mem_cons_self) (digit m.natAbs)
  · have := inj h
    omega

theorem colon_split {a b c d : List Char} (hb : ':' ∉ b) (hd : ':' ∉ d) (h : a ++ ':' :: b = c ++ ':' :: d) :
    a = c ∧ b = d := by
  induction a generalizing c with
  | nil =>
    cases c with
    | nil => exact ⟨rfl, (List.cons.inj h).2⟩
    | cons x c =>
      have hb' := (List.cons.inj h).2
      exact absurd (by rw [hb']; simp) hb
  | cons y a ih =>
    cases c with
    | nil =>
      have hd' := (List.cons.inj h).2
      exact absurd (by rw [← hd']; simp) hd
    | cons x c =>
      obtain ⟨rfl, h'⟩ := List.cons.inj h
      obtain ⟨rfl, rfl⟩ := ih h'
      exact ⟨rfl, rfl⟩

theorem evmKey_toList (payer digits : List Char) :
    (evmKey payer digits).toList = 'e' :: 'v' :: 'm' :: ':' :: (payer ++ ':' :: digits) := by
  simp [evmKey]

variable {payer : List Char} {x : Package}

theorem evmKey_inj {payer' : List Char} {m n : ℤ} (h : evmKey payer (decimal m) = evmKey payer' (decimal n)) :
    payer = payer' ∧ m = n := by
  have hl := congrArg String.toList h
  simp only [evmKey_toList, List.cons.injEq, true_and] at hl
  obtain ⟨hp, hd⟩ := colon_split (decimal_chars m) (decimal_chars n) hl
  exact ⟨hp, decimal_injective hd⟩

/-! ## What a header is hashed by -/

theorem decimalText_ok {n : ℤ} {t : List Char} (h : decimalText n = .ok t) :
    t = decimal n ∧ n.natAbs < 10 ^ PyText.maxStrDigits := by
  unfold decimalText at h
  split_ifs at h with hlong
  cases h
  exact ⟨rfl, not_le.mp hlong⟩

theorem lookup_of_truthy {fields : List (String × Json)} {k : String}
    (h : ((Json.lookup fields k).getD .null).truthy = true) :
    ∃ v, Json.lookup fields k = some v ∧ v.truthy = true := by
  cases hv : Json.lookup fields k with
  | none => rw [hv] at h; cases h
  | some v => rw [hv] at h; exact ⟨v, rfl, h⟩

theorem authorizationKey_ok {vfrom vnonce : Json} {key : String} (h : authorizationKey x vfrom vnonce = .ok key) :
    ∃ payerText nonceText n, pyStr x vfrom = .ok payerText ∧ pyStr x vnonce = .ok nonceText ∧
      readNonce x (PyText.strip nonceText) = some n ∧ n.natAbs < 10 ^ PyText.maxStrDigits ∧
      key = evmKey (PyText.lower x.wide (PyText.strip payerText)) (decimal n) := by
  obtain ⟨nonceText, hns, h⟩ := bind_eq_ok h
  cases hread : readNonce x (PyText.strip nonceText) with
  | none => simp only [hread] at h; cases h
  | some n =>
    simp only [hread] at h
    obtain ⟨payerText, hps, h⟩ := bind_eq_ok h
    obtain ⟨digits, hdigits, h⟩ := bind_eq_ok h
    cases h
    obtain ⟨rfl, hsmall⟩ := decimalText_ok hdigits
    exact ⟨payerText, nonceText, n, hps, hns, hread, hsmall, rfl⟩

theorem payloadKey_of_names {p : x.Payload} {n : ℤ} (h : Names x (x.body p) payer n) :
    payloadKey x p = .ok (evmKey payer (decimal n)) := by
  obtain ⟨auth, vfrom, vnonce, payerText, nonceText, hpick, hfrom, hft, hnonce, hnt, hps, hlow, hns, hread, hsmall⟩ := h
  have hdigits : decimalText n = .ok (decimal n) := if_neg (not_le.mpr hsmall)
  have hkey : authorizationKey x vfrom vnonce = .ok (evmKey payer (decimal n)) := by
    simp only [authorizationKey, hns, hps, hread, hdigits, hlow, bind, Except.bind]
    rfl
  simp only [payloadKey, hpick, hfrom, hnonce, Option.getD_some, hft, hnt, Bool.and_self, if_true]
  exact hkey

theorem payloadKey_cases (x : Package) (p : x.Payload) :
    (¬ Picks (x.body p) ∧ payloadKey x p = x.dump p) ∨
    (Picks (x.body p) ∧ ∀ key, payloadKey x p = .ok key →
      ∃ payer n, Names x (x.body p) payer n ∧ key = evmKey payer (decimal n)) := by
  cases hpick : pickedAuthorization (x.body p) with
  | obj auth =>
    by_cases htruthy : (((Json.lookup auth "from").getD .null).truthy &&
        ((Json.lookup auth "nonce").getD .null).truthy) = true
    · have hboth := Bool.and_eq_true_iff.mp htruthy
      obtain ⟨vfrom, hfrom, hft⟩ := lookup_of_truthy hboth.1
      obtain ⟨vnonce, hnonce, hnt⟩ := lookup_of_truthy hboth.2
      refine .inr ⟨⟨auth, vfrom, vnonce, hpick, hfrom, hft, hnonce, hnt⟩, ?_⟩
      intro key h
      simp only [payloadKey, hpick, hfrom, hnonce, Option.getD_some, hft, hnt, Bool.and_self, if_true] at h
      obtain ⟨payerText, nonceText, n, hps, hns, hread, hsmall, hkey⟩ := authorizationKey_ok h
      exact ⟨_, n, ⟨auth, vfrom, vnonce, payerText, nonceText, hpick, hfrom, hft, hnonce, hnt, hps, rfl, hns, hread,
        hsmall⟩, hkey⟩
    · refine .inl ⟨?_, ?_⟩
      · rintro ⟨auth', vfrom, vnonce, hpick', hfrom, hft, hnonce, hnt⟩
        rw [hpick] at hpick'
        cases hpick'
        exact htruthy (by rw [hfrom, hnonce, Option.getD_some, Option.getD_some, hft, hnt]; rfl)
      · simp only [payloadKey, hpick, if_neg htruthy]
  | null | bool _ | int _ | float _ | str _ | arr _ =>
    refine .inl ⟨?_, ?_⟩
    · rintro ⟨auth, _, _, hauth, _⟩
      rw [hpick] at hauth
      cases hauth
    · simp [payloadKey, hpick]

theorem Names.picks {body : List (String × Json)} {n : ℤ} (h : Names x body payer n) : Picks body := by
  obtain ⟨auth, vfrom, vnonce, _, _, hpick, hfrom, hft, hnonce, hnt, _⟩ := h
  exact ⟨auth, vfrom, vnonce, hpick, hfrom, hft, hnonce, hnt⟩

/-- what is hashed for a header: the key of the payer and nonce it names, or the text it is filed under, which is no
such key -/
theorem hashedText_cases {header : String} {p : x.Payload} (hdecode : decodeHeader x header = .ok p)
    (hdump : ∀ t, x.dump p = .ok t → t.toList.head? = some '\x7b')
    (hparse : ∀ bytes b, x.parse bytes = .ok p → bytes.head? = some b → ¬ (0x61 ≤ b ∧ b ≤ 0x7a)) :
    (∃ payer n, Names x (x.body p) payer n ∧ hashedText x header = evmKey payer (decimal n)) ∨
    ((∀ payer n, ¬ Names x (x.body p) payer n) ∧ (∀ t, Filed x header p t ↔ hashedText x header = t) ∧
      ∀ payer digits, hashedText x header ≠ evmKey payer digits) := by
  have hkey : hashedText x header = match payloadKey x p with
      | .ok key => key
      | .error _ => header := by
    unfold hashedText
    rw [hdecode]
    rfl
  have header_no_key : ∀ payer digits, header ≠ evmKey payer digits := by
    -- base64 reads `evm:` as a text that starts with the letter z
    intro payer digits h
    obtain ⟨bytes, hbytes, hok⟩ := bind_eq_ok hdecode
    have htext : header.toList = 'e' :: 'v' :: 'm' :: ':' :: (payer ++ ':' :: digits) := by
      rw [h, evmKey_toList]
    have hfirst := Base64.head_of_b64decode htext (v := 30) (w := 47) (by decide) (by decide) (by decide) hbytes
    exact hparse bytes _ hok hfirst (by decide)
  have dump_no_key : ∀ t payer digits, x.dump p = .ok t → t ≠ evmKey payer digits := by
    intro t payer digits ht h
    have hfirst := hdump t ht
    rw [h, evmKey_toList] at hfirst
    exact absurd hfirst (by simp)
  rcases payloadKey_cases x p with ⟨hnone, hp⟩ | ⟨hpicks, hp⟩
  · right
    refine ⟨fun payer n h => hnone h.picks, ?_⟩
    cases hd : x.dump p with
    | ok t =>
      have hhash : hashedText x header = t := by rw [hkey, hp, hd]
      refine ⟨?_, ?_⟩
      · intro t'
        rw [hhash]
        constructor
        · rintro (⟨_, ht'⟩ | ⟨hbad | hbad, _⟩)
          · rw [hd] at ht'
            exact Except.ok.inj ht'
          · exact absurd hbad hnone
          · exact absurd hd (hbad t)
        · rintro rfl
          exact .inl ⟨hnone, hd⟩
      · rw [hhash]
        exact fun payer digits => dump_no_key t payer digits hd
    | error e =>
      have hhash : hashedText x header = header := by rw [hkey, hp, hd]
      refine ⟨?_, ?_⟩
      · intro t'
        rw [hhash]
        constructor
        · rintro (⟨_, ht'⟩ | ⟨_, ht'⟩)
          · rw [hd] at ht'
            cases ht'
          · exact ht'
        · rintro rfl
          exact .inr ⟨.inr (fun t' h => by rw [hd] at h; cases h), rfl⟩
      · rw [hhash]
        exact header_no_key
  · cases hpk : payloadKey x p with
    | ok key =>
      obtain ⟨payer, n, hnames, rfl⟩ := hp key hpk
      exact .inl ⟨payer, n, hnames, by rw [hkey, hpk]⟩
    | error e =>
      have hhash : hashedText x header = header := by rw [hkey, hpk]
      refine .inr ⟨?_, ?_, ?_⟩
      · intro payer n h
        rw [payloadKey_of_names h] at hpk
        cases hpk
      · intro t'
        rw [hhash]
        constructor
        · rintro (⟨hnone, _⟩ | ⟨_, ht'⟩)
          · exact absurd hpicks hnone
          · exact ht'
        · rintro rfl
          exact .inr ⟨.inl hpicks, rfl⟩
      · rw [hhash]
        exact header_no_key

theorem Names.unique {p : x.Payload} {payer' : List Char} {n n' : ℤ} (h : Names x (x.body p) payer n)
    (h' : Names x (x.body p) payer' n') : payer = payer' ∧ n = n' := by
  have hkeys := (payloadKey_of_names h).symm.trans (payloadKey_of_names h')
  exact evmKey_inj (Except.ok.inj hkeys)

theorem hashedText_eq_iff {h₁ h₂ : String} {p₁ p₂ : x.Payload} (hd₁ : decodeHeader x h₁ = .ok p₁)
    (hd₂ : decodeHeader x h₂ = .ok p₂) (hdump : ∀ p t, x.dump p = .ok t → t.toList.head? = some '\x7b')
    (hparse : ∀ bytes b p, x.parse bytes = .ok p → bytes.head? = some b → ¬ (0x61 ≤ b ∧ b ≤ 0x7a)) :
    hashedText x h₁ = hashedText x h₂ ↔ Alike x h₁ h₂ p₁ p₂ := by
  rcases hashedText_cases hd₁ (hdump p₁) (fun bytes b => hparse bytes b p₁) with
    ⟨payer₁, n₁, hn₁, ht₁⟩ | ⟨hno₁, hfiled₁, hkey₁⟩ <;>
  rcases hashedText_cases hd₂ (hdump p₂) (fun bytes b => hparse bytes b p₂) with
    ⟨payer₂, n₂, hn₂, ht₂⟩ | ⟨hno₂, hfiled₂, hkey₂⟩
  · constructor
    · intro h
      rw [ht₁, ht₂] at h
      obtain ⟨rfl, rfl⟩ := evmKey_inj h
      exact .inl ⟨payer₁, n₁, hn₁, hn₂⟩
    · rintro (⟨payer, n, hm₁, hm₂⟩ | ⟨hno, _⟩)
      · obtain ⟨rfl, rfl⟩ := hn₁.unique hm₁
        obtain ⟨rfl, rfl⟩ := hn₂.unique hm₂
        rw [ht₁, ht₂]
      · exact absurd hn₁ (hno payer₁ n₁)
  · constructor
    · intro h
      exact absurd (h.symm.trans ht₁) (hkey₂ _ _)
    · rintro (⟨payer, n, _, hm₂⟩ | ⟨hno, _⟩)
      · exact absurd hm₂ (hno₂ payer n)
      · exact absurd hn₁ (hno payer₁ n₁)
  · constructor
    · intro h
      exact absurd (h.trans ht₂) (hkey₁ _ _)
    · rintro (⟨payer, n, hm₁, _⟩ | ⟨_, hno, _⟩)
      · exact absurd hm₁ (hno₁ payer n)
      · exact absurd hn₂ (hno payer₂ n₂)
  · constructor
    · intro h
      exact .inr ⟨hno₁, hno₂, _, (hfiled₁ _).mpr rfl, (hfiled₂ _).mpr h.symm⟩
    · rintro (⟨payer, n, hm₁, _⟩ | ⟨_, _, t, hf₁, hf₂⟩)
      · exact absurd hm₁ (hno₁ payer n)
      · rw [(hfiled₁ t).mp hf₁, (hfiled₂ t).mp hf₂]

theorem Carries.unique {chain : Chain} {scheme : Scheme} {body : List (String × Json)} {id id' : Identity}
    (h : Carries chain scheme body id) (h' : Carries chain scheme body id') : id = id' := by
  obtain ⟨auth, hauth, hpayer, hnonce⟩ := h
  obtain ⟨auth', hauth', hpayer', hnonce'⟩ := h'
  rw [hauth] at hauth'
  cases hauth'
  cases id
  simp_all

/-- **When a repackaged payment shares its replay key.** Two headers with one signed authorization have the same nonce hash if
and only if both show the code that authorization, or neither does and the two name one other payer and nonce, or none and one
text. Of the package: canonical JSON is an object's text, and no text that parses starts with a letter; of SHA-256: no collision
between the two texts. -/
theorem nonceHash_eq_iff (x : Package) (chain : Chain) (scheme : Scheme) (id : Identity) (h₁ h₂ : String)
    (p₁ p₂ : x.Payload) (hd₁ : decodeHeader x h₁ = .ok p₁) (hd₂ : decodeHeader x h₂ = .ok p₂)
    (hc₁ : Carries chain scheme (x.body p₁) id) (hc₂ : Carries chain scheme (x.body p₂) id)
    (hdump : ∀ p t, x.dump p = .ok t → t.toList.head? = some '\x7b')
    (hparse : ∀ bytes b p, x.parse bytes = .ok p → bytes.head? = some b → ¬ (0x61 ≤ b ∧ b ≤ 0x7a))
    (hcollision : paymentNonceHash x h₁ = paymentNonceHash x h₂ → hashedText x h₁ = hashedText x h₂) :
    paymentNonceHash x h₁ = paymentNonceHash x h₂ ↔
      (Shows x chain scheme p₁ ∧ Shows x chain scheme p₂) ∨
      (¬ Shows x chain scheme p₁ ∧ ¬ Shows x chain scheme p₂ ∧ Alike x h₁ h₂ p₁ p₂) := by
  have shows_iff : ∀ {p : x.Payload}, Carries chain scheme (x.body p) id →
      (Shows x chain scheme p ↔ Names x (x.body p) (addressText id.payer) id.nonce) := by
    intro p hc
    constructor
    · rintro ⟨id', hc', hnames⟩
      rwa [hc.unique hc']
    · intro hnames
      exact ⟨id, hc, hnames⟩
  have hash_iff : paymentNonceHash x h₁ = paymentNonceHash x h₂ ↔ Alike x h₁ h₂ p₁ p₂ := by
    rw [← hashedText_eq_iff hd₁ hd₂ hdump hparse]
    exact ⟨hcollision, fun h => by rw [paymentNonceHash, paymentNonceHash, h]⟩
  rw [hash_iff, shows_iff hc₁, shows_iff hc₂]
  constructor
  · intro halike
    rcases halike with ⟨payer, n, hn₁, hn₂⟩ | ⟨hno₁, hno₂, hfiled⟩
    · by_cases hown : payer = addressText id.payer ∧ n = id.nonce
      · obtain ⟨rfl, rfl⟩ := hown
        exact .inl ⟨hn₁, hn₂⟩
      · exact .inr ⟨fun h => hown (hn₁.unique h), fun h => hown (hn₂.unique h), .inl ⟨payer, n, hn₁, hn₂⟩⟩
    · exact .inr ⟨hno₁ _ _, hno₂ _ _, .inr ⟨hno₁, hno₂, hfiled⟩⟩
  · rintro (⟨hn₁, hn₂⟩ | ⟨-, -, halike⟩)
    · exact .inl ⟨_, _, hn₁, hn₂⟩
    · exact halike

/-! ## Three payments with one Permit2 authorization -/

/-- a plain payload, one that spells the same fields otherwise, and one with a second object under `authorization` -/
inductive Sample where
  | plain
  | padded
  | decoy
deriving DecidableEq

/-- payer 0xabab…ab, nonce 42 -/
def samplePermit : Json := .obj [("from", .str "0xabababababababababababababababababababab"), ("nonce", .str "42")]

def Sample.body : Sample → List (String × Json)
  | .plain => [("signature", .str "0x01"), ("permit2Authorization", samplePermit)]
  | .padded => [("signature", .str "0x02"), ("permit2Authorization",
      .obj [("from", .str "0xABABABABABABABABABABABABABABABABABABABAB"), ("nonce", .str "0042")])]
  | .decoy => [("signature", .str "0x01"),
      ("authorization", .obj [("from", .str "0xabababababababababababababababababababab"), ("nonce", .str "0x1")]),
      ("permit2Authorization", samplePermit)]

def acceptedPieces : List String :=
  ["\"accepted\":\x7b\"scheme\":\"exact\",\"network\":\"eip155:8453\",",
   "\"asset\":\"0x8383838383838383838383838383838383838383\",\"amount\":\"10000\",",
   "\"payTo\":\"0xf2f2f2f2f2f2f2f2f2f2f2f2f2f2f2f2f2f2f2f2\",\"maxTimeoutSeconds\":300,",
   "\"extra\":\x7b\"name\":\"USD Coin\",\"version\":\"2\"\x7d\x7d\x7d"]

/-- the payload as JSON, piece by piece -/
def Sample.pieces : Sample → List String
  | .plain =>
    ["\x7b", "\"x402Version\":2,\"payload\":\x7b", "\"signature\":\"0x01\",", "\"permit2Authorization\":",
     "\x7b\"from\":\"0xabababababababababababababababababababab\",\"nonce\":\"42\"\x7d\x7d,"] ++ acceptedPieces
  | .padded =>
    ["\x7b", "\"x402Version\":2,\"payload\":\x7b", "\"signature\":\"0x02\",", "\"permit2Authorization\":",
     "\x7b\"from\":\"0xABABABABABABABABABABABABABABABABABABABAB\",\"nonce\":\"0042\"\x7d\x7d,"] ++ acceptedPieces
  | .decoy =>
    ["\x7b", "\"x402Version\":2,\"payload\":\x7b", "\"signature\":\"0x01\",", "\"authorization\":",
     "\x7b\"from\":\"0xabababababababababababababababababababab\",\"nonce\":\"0x1\"\x7d,", "\"permit2Authorization\":",
     "\x7b\"from\":\"0xabababababababababababababababababababab\",\"nonce\":\"42\"\x7d\x7d,"] ++ acceptedPieces

def Sample.text (s : Sample) : String := s.pieces.foldr (· ++ ·) ""

def Sample.header (s : Sample) : String := Base64.b64encode (utf8 s.text)

/-- the package on the three payloads -/
def samplePackage : Package where
  Payload := Sample
  parse := fun bytes =>
    if bytes = utf8 Sample.plain.text then .ok .plain
    else if bytes = utf8 Sample.padded.text then .ok .padded
    else if bytes = utf8 Sample.decoy.text then .ok .decoy
    else .error (.valueError "not a payment payload")
  body := Sample.body
  dump := fun s => .ok s.text
  wide := fun c => [c]
  repr := fun _ => ""

instance : DecidableEq samplePackage.Payload := inferInstanceAs (DecidableEq Sample)

/-- addresses in base 16, nonces in base 16 after `0x` and else in base 10 -/
def sampleChain : Chain where
  payer := fun j => match j with
    | .str s => (PyText.parseInt 16 s.toList).map Int.toNat
    | _ => none
  nonce := fun j => match j with
    | .str s => (readNonce samplePackage s.toList).map Int.toNat
    | .int n => some n.toNat
    | _ => none

def sampleIdentity : Identity where
  payer := 0xabababababababababababababababababababab
  nonce := 42
  nonce_lt := by decide

theorem utf8_pieces (l : List String) : utf8 (l.foldr (· ++ ·) "") = l.flatMap utf8 := by
  induction l with
  | nil => rfl
  | cons t l ih => rw [List.foldr_cons, utf8_append, ih, List.flatMap_cons]

theorem utf8_text_ne : utf8 Sample.padded.text ≠ utf8 Sample.plain.text ∧
    utf8 Sample.decoy.text ≠ utf8 Sample.plain.text ∧ utf8 Sample.decoy.text ≠ utf8 Sample.padded.text := by
  rw [Sample.text, Sample.text, Sample.text, utf8_pieces, utf8_pieces, utf8_pieces]
  decide

variable (s : Sample)

theorem parse_sample : samplePackage.parse (utf8 s.text) = .ok s := by
  obtain ⟨h₁, h₂, h₃⟩ := utf8_text_ne
  simp only [samplePackage]
  cases s with
  | plain => rw [if_pos rfl]
  | padded => rw [if_neg h₁, if_pos rfl]
  | decoy => rw [if_neg h₂, if_neg h₃, if_pos rfl]

theorem decodeHeader_sample : decodeHeader samplePackage s.header = .ok s := by
  simp [decodeHeader, Sample.header, Base64.b64decode_b64encode, bind, Except.bind, parse_sample]

theorem carries_sample : Carries sampleChain .permit2 s.body sampleIdentity := by
  cases s <;> exact ⟨_, rfl, by decide, by decide⟩

theorem head_of_text : s.text.toList.head? = some '\x7b' ∧ (utf8 s.text).head? = some 0x7b := by
  obtain ⟨rest, hrest⟩ : ∃ rest, s.text = "\x7b" ++ rest := by
    cases s <;> exact ⟨_, rfl⟩
  have hchars : "\x7b".toList = ['\x7b'] := by decide
  have hbytes : utf8 "\x7b" = [0x7b] := by decide
  rw [hrest, String.toList_append, utf8_append, hchars, hbytes]
  exact ⟨rfl, rfl⟩

/-- the key of each sample -/
def Sample.key : Sample → String
  | .plain | .padded => "evm:0xabababababababababababababababababababab:42"
  | .decoy => "evm:0xabababababababababababababababababababab:1"

theorem hashedText_sample : hashedText samplePackage s.header = s.key := by
  have hkey : payloadKey samplePackage s = .ok s.key := by
    cases s <;> decide +kernel
  rw [hashedText, decodeHeader_sample]
  simp [bind, Except.bind, hkey]

theorem shows_plain : Shows samplePackage sampleChain .permit2 Sample.plain :=
  ⟨sampleIdentity, carries_sample .plain, _, _, _, _, _, rfl, rfl, by decide, rfl, by decide, rfl, by decide, rfl,
    by decide +kernel, by decide +kernel⟩

theorem shows_padded : Shows samplePackage sampleChain .permit2 Sample.padded :=
  ⟨sampleIdentity, carries_sample .padded, _, _, _, _, _, rfl, rfl, by decide, rfl, by decide, rfl, by decide, rfl,
    by decide +kernel, by decide +kernel⟩

/-- another signature, the payer in capitals and zeros before the nonce: one replay key -/
theorem nonceHash_eq_iff_padded :
    paymentNonceHash samplePackage Sample.plain.header = paymentNonceHash samplePackage Sample.padded.header := by
  refine (nonceHash_eq_iff samplePackage sampleChain .permit2 sampleIdentity Sample.plain.header Sample.padded.header
    Sample.plain Sample.padded (decodeHeader_sample .plain) (decodeHeader_sample .padded) (carries_sample .plain)
    (carries_sample .padded) ?_ ?_ ?_).mpr (.inl ⟨shows_plain, shows_padded⟩)
  · intro p t h
    have ht : Sample.text p = t := Except.ok.inj h
    rw [← ht]
    exact (head_of_text p).1
  · intro bytes b p h hb
    have hbytes : ∃ s : Sample, bytes = utf8 s.text := by
      simp only [samplePackage] at h
      split_ifs at h with h₁ h₂ h₃
      · exact ⟨.plain, h₁⟩
      · exact ⟨.padded, h₂⟩
      · exact ⟨.decoy, h₃⟩
    obtain ⟨s, rfl⟩ := hbytes
    rw [(head_of_text s).2] at hb
    rw [← Option.some.inj hb]
    decide
  · intro _
    rw [hashedText_sample .plain, hashedText_sample .padded]
    rfl

/-- the second object mints a fresh claim for the payment that was signed -/
theorem decoy_mints_claim :
    ∃ p₁ p₂ : Sample, decodeHeader samplePackage Sample.plain.header = .ok p₁ ∧
      decodeHeader samplePackage Sample.decoy.header = .ok p₂ ∧
      Carries sampleChain .permit2 p₁.body sampleIdentity ∧ Carries sampleChain .permit2 p₂.body sampleIdentity ∧
      paymentNonceHash samplePackage Sample.plain.header ≠ paymentNonceHash samplePackage Sample.decoy.header :=
  ⟨.plain, .decoy, decodeHeader_sample .plain, decodeHeader_sample .decoy, carries_sample .plain, carries_sample .decoy,
    by rw [paymentNonceHash, paymentNonceHash, hashedText_sample, hashedText_sample]; decide⟩

end Teardrop.Billing
