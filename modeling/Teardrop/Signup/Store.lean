/-
The tables of organisations, users, invites and linked wallets, with their unique indexes and foreign keys, and the texts
that the account routes check and derive: trimmed lower-case emails, the email pattern and the acquisition source of
`RegisterRequest`, org slugs, and the names and emails that wallet provisioning makes of an address.
-/
import Teardrop.Core.Casing
import Teardrop.Core.Py
import Teardrop.Core.SharedTable
import Teardrop.Core.Table

namespace Teardrop.Signup

open PyText

abbrev Text := List Char

/-! ## Texts -/

def isLetter (c : Char) : Bool := ('a' ≤ c && c ≤ 'z') || ('A' ≤ c && c ≤ 'Z')

def isDecimal (c : Char) : Bool := '0' ≤ c && c ≤ '9'

/-- `email.strip().lower()` -/
def normalise (cases : CaseTable) (s : Text) : Text := cases.lower (strip s)

def isLocalChar (c : Char) : Bool := isLetter c || isDecimal c || c ∈ ['.', '_', '%', '+', '-']

def isDomainChar (c : Char) : Bool := isLetter c || isDecimal c || c ∈ ['.', '-']

/-- what stands before the last run of letters, and that run reversed -/
def splitTld (domain : Text) : Text × Text := ((domain.reverse.dropWhile isLetter), (domain.reverse.takeWhile isLetter))

def isDomain (domain : Text) : Bool :=
  match (splitTld domain).1 with
  | '.' :: host => host ≠ [] && host.all isDomainChar && 2 ≤ (splitTld domain).2.length
  | _ => false

/-- the pattern `_EMAIL_RE` without its `$` -/
def isEmail (s : Text) : Bool :=
  match s.dropWhile isLocalChar with
  | '@' :: domain => s.takeWhile isLocalChar ≠ [] && isDomain domain
  | _ => false

/-- `_EMAIL_RE.match`: `$` also matches before a newline at the end -/
def matchesEmail (s : Text) : Bool := isEmail s || (s.getLast? = some '\n' && isEmail s.dropLast)

def isSourceChar (c : Char) : Bool := ('a' ≤ c && c ≤ 'z') || isDecimal c || c ∈ ['_', '-']

def machineAcquisitionSources : List Text := ["siwe".toList, "x402".toList]

def isMachine (source : Text) : Bool := source ∈ machineAcquisitionSources

def isSlugChar (c : Char) : Bool := ('a' ≤ c && c ≤ 'z') || isDecimal c

/-- `re.sub(r"[^a-z0-9]+", "-", s)`; `inRun` while inside of a run that has its dash -/
def dashed (inRun : Bool) : Text → Text
  | [] => []
  | c :: s => if isSlugChar c then c :: dashed false s else if inRun then dashed true s else '-' :: dashed true s

def generateOrgSlug (cases : CaseTable) (orgName : Text) : Text :=
  let s := dashed false (cases.lower orgName)
  let slug := (((s.dropWhile (· = '-')).reverse.dropWhile (· = '-')).reverse).take 40
  if slug = "platform".toList then "platform-org".toList else slug

example : generateOrgSlug .plain "Acme,  Inc.".toList = "acme-inc".toList := by decide
example : matchesEmail "a.b@host.example".toList ∧ ¬ matchesEmail "0xab@wallet".toList := by decide

/-- `LOWER` of the database, on ASCII -/
def pgLower (s : Text) : Text := s.map lowerAscii

def isHexDigit (c : Char) : Bool := isDecimal c || ('a' ≤ c && c ≤ 'f') || ('A' ≤ c && c ≤ 'F')

/-- `0x` and forty hexadecimal digits -/
def isAddress (a : Text) : Bool := a.take 2 = ['0', 'x'] && (a.drop 2).length = 40 && (a.drop 2).all isHexDigit

/-- an address as its callers check it, in any letter case -/
abbrev Address := { a : Text // isAddress a = true }

/-- a character of addresses and emails: printable ASCII -/
def Printable (c : Char) : Prop := 33 ≤ c.toNat ∧ c.toNat < 128

variable {c : Char}

theorem printable_letter (h : isLetter c) : Printable c := by
  simp only [isLetter, Bool.or_eq_true, Bool.and_eq_true, decide_eq_true_eq] at h
  rcases h with ⟨hlow, hhigh⟩ | ⟨hlow, hhigh⟩
  · have hlow : 97 ≤ c.toNat := hlow
    have hhigh : c.toNat ≤ 122 := hhigh
    exact ⟨by omega, by omega⟩
  · have hlow : 65 ≤ c.toNat := hlow
    have hhigh : c.toNat ≤ 90 := hhigh
    exact ⟨by omega, by omega⟩

theorem printable_decimal (h : isDecimal c) : Printable c := by
  simp only [isDecimal, Bool.and_eq_true, decide_eq_true_eq] at h
  have hlow : 48 ≤ c.toNat := h.1
  have hhigh : c.toNat ≤ 57 := h.2
  exact ⟨by omega, by omega⟩

theorem printable_hexDigit (h : isHexDigit c) : Printable c := by
  simp only [isHexDigit, Bool.or_eq_true, Bool.and_eq_true, decide_eq_true_eq] at h
  rcases h with (h | ⟨hlow, hhigh⟩) | ⟨hlow, hhigh⟩
  · exact printable_decimal h
  · have hlow : 97 ≤ c.toNat := hlow
    have hhigh : c.toNat ≤ 102 := hhigh
    exact ⟨by omega, by omega⟩
  · have hlow : 65 ≤ c.toNat := hlow
    have hhigh : c.toNat ≤ 70 := hhigh
    exact ⟨by omega, by omega⟩

theorem strip_printable {s : Text} (h : ∀ c ∈ s, Printable c) : strip s = s := by
  refine CaseTable.strip_eq_self (fun c hc => ?_) (fun c hc => ?_)
  · have hp := h c (List.mem_of_mem_head? hc)
    exact CaseTable.not_space hp.1 hp.2
  · have hp := h c (List.mem_of_getLast? hc)
    exact CaseTable.not_space hp.1 hp.2

theorem printable_lowerAscii (h : Printable c) : Printable (lowerAscii c) := by
  by_cases hc : 'A' ≤ c ∧ c ≤ 'Z'
  · have hval := toNat_lowerAscii hc
    have hlow : 65 ≤ c.toNat := hc.1
    have hhigh : c.toNat ≤ 90 := hc.2
    exact ⟨by omega, by omega⟩
  · rwa [CaseTable.lowerAscii_small hc]

theorem printable_pgLower {s : Text} (h : ∀ c ∈ s, Printable c) : ∀ c ∈ pgLower s, Printable c := by
  intro c hc
  obtain ⟨x, hx, rfl⟩ := List.mem_map.1 hc
  exact printable_lowerAscii (h x hx)

theorem normalise_printable (cases : CaseTable) {s : Text} (h : ∀ c ∈ s, Printable c)
    (hsmall : ∀ c ∈ s, ¬ ('A' ≤ c ∧ c ≤ 'Z')) : normalise cases s = s := by
  rw [normalise, strip_printable h]
  exact cases.lower_eq_self (fun c hc => ⟨(h c hc).2, hsmall c hc⟩)

namespace Address

variable (a : Address)

theorem length_eq : a.1.length = 42 := by
  have h := a.2
  simp only [isAddress, Bool.and_eq_true, decide_eq_true_eq, List.length_drop] at h
  omega

theorem printable : ∀ c ∈ a.1, Printable c := by
  have h := a.2
  simp only [isAddress, Bool.and_eq_true, decide_eq_true_eq, List.all_eq_true] at h
  intro c hc
  rw [← List.take_append_drop 2 a.1, List.mem_append] at hc
  rcases hc with hc | hc
  · rw [h.1.1] at hc
    rcases List.mem_cons.1 hc with rfl | hc
    · exact ⟨by decide, by decide⟩
    · rw [List.mem_singleton.1 hc]
      exact ⟨by decide, by decide⟩
  · exact printable_hexDigit (h.2 c hc)

theorem strip_eq : strip a.1 = a.1 := strip_printable a.printable

theorem lower_eq (cases : CaseTable) (a : Address) : cases.lower a.1 = pgLower a.1 :=
  cases.lower_ascii (fun c hc => (a.printable c hc).2)

end Address

/-- `f"wallet-{address_lower}"` -/
def walletName (addressLower : Text) : Text := "wallet-".toList ++ addressLower

/-- `f"wallet-{uuid.uuid4().hex[:12]}-{address_lower}"` -/
def fallbackName (hex addressLower : Text) : Text := "wallet-".toList ++ hex.take 12 ++ '-' :: addressLower

/-- `f"{address_lower}@wallet"` -/
def walletEmail (addressLower : Text) : Text := addressLower ++ "@wallet".toList

/-! ## Rows -/

structure OrgRow where
  id : Text
  name : Text
  slug : Text
  acquisitionSource : Text
deriving DecidableEq

inductive OrgKey where
  | id (id : Text)
  | name (name : Text)
  | slug (slug : Text)
deriving DecidableEq

def OrgRow.entries (o : OrgRow) : List OrgKey := [.id o.id, .name o.name, .slug o.slug]

structure UserRow where
  id : Text
  email : Text
  orgId : Text
  role : Text := "user".toList
  isActive : Bool := true
  isVerified : Bool := true
deriving DecidableEq

inductive UserKey where
  | id (id : Text)
  | email (email : Text)
deriving DecidableEq

def UserRow.entries (u : UserRow) : List UserKey := [.id u.id, .email u.email]

/-- a row of `org_credits` -/
structure CreditRow where
  orgId : Text
  balanceUsdc : ℤ := 0
  /-- 0: no limit -/
  spendingLimitUsdc : ℤ := 0

def CreditRow.entries (c : CreditRow) : List Text := [c.orgId]

structure WalletRow where
  id : Text
  address : Text
  chainId : ℤ
  userId : Text
  orgId : Text
  isPrimary : Bool
  createdAt : ℤ
deriving DecidableEq

inductive WalletKey where
  | id (id : Text)
  | place (address : Text) (chainId : ℤ)
deriving DecidableEq

def WalletRow.entries (w : WalletRow) : List WalletKey := [.id w.id, .place w.address w.chainId]

inductive SettlementStatus where
  | notApplicable
  | pending
  | settled
  | failed
  | ambiguous
  | creditFailed

/-- a row of `org_provisioning_events` of type `provisioned` -/
structure EventRow where
  id : Text
  orgId : Text
  method : Text
  payerAddress : Text
  chainId : ℤ
  paymentRef : Option Text
  amountUsdc : ℤ
  settlementStatus : SettlementStatus

inductive EventKey where
  | id (id : Text)
  | paymentRef (ref : Text)
deriving DecidableEq

def EventRow.entries (e : EventRow) : List EventKey := .id e.id :: (e.paymentRef.map EventKey.paymentRef).toList

structure InviteRow where
  token : Text
  orgId : Text
  email : Option Text
  role : Text
  expiresAt : ℤ
  used : Bool := false
deriving DecidableEq

structure Db where
  orgs : SharedTable OrgRow.entries := .empty
  users : SharedTable UserRow.entries := .empty
  credits : SharedTable CreditRow.entries := .empty
  wallets : SharedTable WalletRow.entries := .empty
  events : SharedTable EventRow.entries := .empty
  invites : Table InviteRow.token := .empty

namespace Db

/-- the foreign key to `orgs` -/
def hasOrg (db : Db) (tx : Option ℕ) (orgId : Text) : Bool := db.orgs.taken tx (.id orgId)

/-- the foreign key to `users` -/
def hasUser (db : Db) (tx : Option ℕ) (userId : Text) : Bool := db.users.taken tx (.id userId)

def commit (db : Db) (i : ℕ) : Db :=
  { db with
    orgs := db.orgs.commit i
    users := db.users.commit i
    credits := db.credits.commit i
    wallets := db.wallets.commit i
    events := db.events.commit i }

def rollback (db : Db) (i : ℕ) : Db :=
  { db with
    orgs := db.orgs.rollback i
    users := db.users.rollback i
    credits := db.credits.rollback i
    wallets := db.wallets.rollback i
    events := db.events.rollback i }

def getUserByEmail (cases : CaseTable) (db : Db) (email : Text) : Option UserRow :=
  ((db.users.select none).find? (fun u => u.email = normalise cases email)).filter UserRow.isActive

def getOrgInvite (db : Db) (token : Text) (now : ℤ) : Option InviteRow :=
  (db.invites.get? token).filter (fun v => !v.used && decide (now ≤ v.expiresAt))

/-- `UPDATE org_invites SET used = TRUE WHERE token = ...` -/
def useInvite (db : Db) (token : Text) : Db :=
  { db with
    invites := db.invites.update (fun v => if v.token = token then { v with used := true } else v)
      (fun _ => by split <;> rfl) }

end Db

end Teardrop.Signup
