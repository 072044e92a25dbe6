/-
The calls that write accounts, any number of them at once, one statement at a time: `provision_org_for_wallet`
(`teardrop/wallets.py`), POST /register, POST /org/invite and POST /register/invite (`teardrop/routers/auth.py`).

Provisioning and registration are transactions; an insert that meets a row of another open transaction waits for its end.
Accepting an invite is a lookup, a consumption under the lock of the invite's row, and an insert, each committed on its own.
Every statement may raise (`Draw.fault`), and a uuid may be any text.
-/
import Teardrop.Core.Locks
import Teardrop.Core.Runs
import Teardrop.Signup.Store

namespace Teardrop.Signup

open PyText Py

/-- what the deployment fixes -/
structure Site where
  cases : CaseTable := .plain
  /-- `hashtextextended(..., 0)` -/
  lockHash : Text → ℤ := fun _ => 0
  machineOrgDailySpendLimitUsdc : ℤ := 5000000

/-- what one statement finds outside of the database -/
structure Draw where
  /-- `str(uuid.uuid4())`, or a token -/
  id : Text := []
  /-- `uuid.uuid4().hex` of a fallback name -/
  hex : Text := []
  /-- which of several rows a query without an order gives first -/
  pick : ℕ := 0
  now : ℤ := 0
  /-- the statement raises -/
  fault : Bool := false

def fetchrow {α : Type} (pick : ℕ) (rows : List α) : Option α := rows[pick % rows.length]?

theorem mem_of_fetchrow {α : Type} {pick : ℕ} {rows : List α} {a : α} (h : fetchrow pick rows = some a) : a ∈ rows :=
  List.mem_of_getElem? h

theorem fetchrow_eq_none {α : Type} {pick : ℕ} {rows : List α} : fetchrow pick rows = none ↔ rows = [] := by
  unfold fetchrow
  rw [List.getElem?_eq_none_iff]
  constructor
  · intro h
    by_contra hne
    exact absurd (Nat.mod_lt pick (List.length_pos_iff.2 hne)) (by omega)
  · rintro rfl
    exact Nat.zero_le _

/-- how a statement of a transaction in stage `S` goes on -/
inductive Move (S R : Type) where
  | next (db : Db) (s : S)
  | wait
  | raise (e : Exc)
  | done (r : R)

/-! ## Wallet provisioning -/

/-- the arguments of `provision_org_for_wallet`, and its clock -/
structure WalletCall where
  address : Address
  chainId : ℤ
  acquisitionSource : Text
  paymentRef : Option Text := none
  amountUsdc : ℤ := 0
  now : ℤ := 0
deriving DecidableEq

/-- `WalletProvisioningResult` -/
structure Provisioned where
  org : OrgRow
  user : UserRow
  wallet : WalletRow
  created : Bool
deriving DecidableEq

/-- the statement a provisioning is to make next -/
inductive Stage where
  | lock
  | byChain
  | note (w : WalletRow)
  | owner (w : WalletRow)
  | anyChain
  | linked (w : WalletRow)
  | orgByName
  | insertOrg
  | reselect
  | fallback (left : ℕ)
  | user (o : OrgRow)
  | insertUser (o : OrgRow)
  | credits (o : OrgRow) (u : UserRow) (linked : Bool)
  | wallet (o : OrgRow) (u : UserRow) (linked : Bool)
  | refetch
  | event (o : OrgRow) (u : UserRow) (w : WalletRow)
  | commit (r : Provisioned)
deriving DecidableEq

namespace WalletCall

/-- `address.strip()` -/
def text (c : WalletCall) : Text := strip c.address.1

def addressLower (site : Site) (c : WalletCall) : Text := site.cases.lower c.text

theorem text_eq (c : WalletCall) : c.text = c.address.1 := c.address.strip_eq

theorem addressLower_eq (site : Site) (c : WalletCall) : c.addressLower site = pgLower c.text := by
  rw [addressLower, text_eq, c.address.lower_eq]

def isX402 (c : WalletCall) : Bool := c.acquisitionSource = "x402".toList

def hasRef (c : WalletCall) : Bool := c.paymentRef.any (· ≠ [])

/-- the checks before the transaction -/
def check (c : WalletCall) : Option Exc :=
  if ¬ isMachine c.acquisitionSource then some (.valueError "Unsupported wallet provisioning source")
  else if c.chainId ≤ 0 then some (.valueError "chain_id must be positive")
  else if c.amountUsdc < 0 then some (.valueError "amount_usdc must not be negative")
  else if c.isX402 ∧ ¬ c.hasRef then some (.valueError "x402 provisioning requires a payment reference")
  else none

/-- `LOWER(address) = LOWER($1)` -/
def isOf (c : WalletCall) (w : WalletRow) : Bool := pgLower w.address = pgLower c.text

/-- the rows of `_fetch_wallet_by_address` on one chain -/
def onChain (c : WalletCall) (wallets : List WalletRow) : List WalletRow :=
  wallets.filter (fun w => c.isOf w && w.chainId = c.chainId)

/-- the rows of `_fetch_wallet_by_address` on any chain: those created first -/
def onAnyChain (c : WalletCall) (wallets : List WalletRow) : List WalletRow :=
  wallets.filter (fun w => c.isOf w && (wallets.filter c.isOf).all (fun w' => w.createdAt ≤ w'.createdAt))

/-- the org of `INSERT INTO orgs` -/
def newOrg (site : Site) (c : WalletCall) (id name : Text) : OrgRow :=
  ⟨id, name, generateOrgSlug site.cases name, c.acquisitionSource⟩

def newUser (site : Site) (c : WalletCall) (id : Text) (o : OrgRow) : UserRow :=
  { id := id, email := walletEmail (c.addressLower site), orgId := o.id }

/-- `org_credits` of a machine org starts with the spend limit -/
def newCredit (site : Site) (o : OrgRow) : CreditRow :=
  if isMachine o.acquisitionSource then
    { orgId := o.id, spendingLimitUsdc := site.machineOrgDailySpendLimitUsdc }
  else { orgId := o.id }

def newWallet (c : WalletCall) (id : Text) (o : OrgRow) (u : UserRow) : WalletRow :=
  ⟨id, c.text, c.chainId, u.id, o.id, true, c.now⟩

def newEvent (c : WalletCall) (id orgId method : Text) : EventRow :=
  { id := id, orgId := orgId, method := method, payerAddress := c.text, chainId := c.chainId, paymentRef := c.paymentRef,
    amountUsdc := c.amountUsdc,
    settlementStatus := if method = "x402".toList then .pending else .notApplicable }

/-- whether an org found under the wallet's name is used -/
def gate : Option OrgRow → Stage
  | some o => if isMachine o.acquisitionSource then .user o else .fallback 3
  | none => .fallback 3

/-- the two queries for the owner of a wallet -/
def ownerOf (db : Db) (i : ℕ) (w : WalletRow) : Option (OrgRow × UserRow) :=
  ((db.orgs.select (some i)).find? (fun o => o.id = w.orgId)).bind (fun o =>
    ((db.users.select (some i)).find? (fun u => u.id = w.userId)).map (fun u => (o, u)))

/-- `INSERT INTO orgs ... ON CONFLICT DO NOTHING` -/
def insertOrgAs (site : Site) (c : WalletCall) (i : ℕ) (id name : Text) (db : Db) (otherwise : Stage) :
    Move Stage Provisioned :=
  match db.orgs.insert (some i) (c.newOrg site id name) with
  | .done t => .next { db with orgs := t } (.user (c.newOrg site id name))
  | .conflict => .next db otherwise
  | .wait => .wait

/-- one statement of the transaction -/
def statement (site : Site) (c : WalletCall) (i : ℕ) (d : Draw) (db : Db) : Stage → Move Stage Provisioned
  | .lock => .next db .byChain
  | .byChain =>
    match fetchrow d.pick (c.onChain (db.wallets.select (some i))) with
    | some w => .next db (if c.isX402 && c.hasRef then .note w else .owner w)
    | none => .next db .anyChain
  | .note w =>
    if ¬ db.hasOrg (some i) w.orgId then .raise (.pg .foreignKeyViolation)
    else match db.events.insert (some i) (c.newEvent d.id w.orgId "x402".toList) with
      | .done t => .next { db with events := t } (.owner w)
      | .conflict => .next db (.owner w)
      | .wait => .wait
  | .owner w =>
    match ownerOf db i w with
    | some (o, u) => .next db (.commit ⟨o, u, w, false⟩)
    | none => .raise (.runtimeError "Wallet owner records are missing")
  | .anyChain =>
    match fetchrow d.pick (c.onAnyChain (db.wallets.select (some i))) with
    | some w => .next db (.linked w)
    | none => .next db .orgByName
  | .linked w =>
    match ownerOf db i w with
    | some (o, u) => .next db (.credits o u true)
    | none => .raise (.runtimeError "Wallet owner records are missing")
  | .orgByName =>
    match (db.orgs.select (some i)).find? (fun o => o.name = walletName (c.addressLower site)) with
    | some o => .next db (gate (some o))
    | none => .next db .insertOrg
  | .insertOrg => c.insertOrgAs site i d.id (walletName (c.addressLower site)) db .reselect
  | .reselect => .next db (gate ((db.orgs.select (some i)).find? (fun o => o.name = walletName (c.addressLower site))))
  | .fallback 0 => .raise (.runtimeError "Unable to provision wallet organisation")
  | .fallback (left + 1) => c.insertOrgAs site i d.id (fallbackName d.hex (c.addressLower site)) db (.fallback left)
  | .user o =>
    match fetchrow d.pick ((db.users.select (some i)).filter (fun u => u.orgId = o.id && u.isActive)) with
    | some u => .next db (.credits o u false)
    | none => .next db (.insertUser o)
  | .insertUser o =>
    if ¬ db.hasOrg (some i) o.id then .raise (.pg .foreignKeyViolation)
    else match db.users.insert (some i) (c.newUser site d.id o) with
      | .done t => .next { db with users := t } (.credits o (c.newUser site d.id o) false)
      | .conflict => .raise (.pg .uniqueViolation)
      | .wait => .wait
  | .credits o u linked =>
    if ¬ db.hasOrg (some i) o.id then .raise (.pg .foreignKeyViolation)
    else match db.credits.insert (some i) (newCredit site o) with
      | .done t => .next { db with credits := t } (.wallet o u linked)
      | .conflict => .next db (.wallet o u linked)
      | .wait => .wait
  | .wallet o u linked =>
    if ¬ (db.hasOrg (some i) o.id ∧ db.hasUser (some i) u.id) then .raise (.pg .foreignKeyViolation)
    else match db.wallets.insert (some i) (c.newWallet d.id o u) with
      | .done t => .next { db with wallets := t } (.event o u { c.newWallet d.id o u with isPrimary := !linked })
      -- `ON CONFLICT (address, chain_id)` answers for that index alone
      | .conflict =>
        if db.wallets.taken (some i) (.place c.text c.chainId) then .next db .refetch else .raise (.pg .uniqueViolation)
      | .wait => .wait
  | .refetch =>
    match fetchrow d.pick (c.onChain (db.wallets.select (some i))) with
    | some w => .next db (.owner w)
    | none => .raise (.runtimeError "Wallet provisioning race could not be resolved")
  | .event o u w =>
    if ¬ db.hasOrg (some i) o.id then .raise (.pg .foreignKeyViolation)
    else match db.events.insert (some i) (c.newEvent d.id o.id c.acquisitionSource) with
      | .done t => .next { db with events := t } (.commit ⟨o, u, w, true⟩)
      | .conflict => .raise (.pg .uniqueViolation)
      | .wait => .wait
  | .commit r => .done r

end WalletCall

/-! ## Registration -/

/-- the body of POST /register, as far as accounts depend on it -/
structure RegisterRequest where
  orgName : Text
  email : Text
  acquisitionSource : Text := []
deriving DecidableEq

/-- the body that passes the validators of `RegisterRequest`, with what they rewrite -/
def RegisterRequest.validate (site : Site) (r : RegisterRequest) : Option RegisterRequest :=
  let email := normalise site.cases r.email
  let source := normalise site.cases r.acquisitionSource
  if (1 ≤ r.orgName.length ∧ r.orgName.length ≤ 200) ∧ (3 ≤ r.email.length ∧ r.email.length ≤ 320) ∧
      r.acquisitionSource.length ≤ 64 ∧ matchesEmail email ∧ source.all isSourceChar ∧ source.length ≤ 64 ∧
      ¬ isMachine source then
    some ⟨r.orgName, email, source⟩
  else none

/-- the statement a registration is to make next -/
inductive RegisterStage where
  | insertOrg
  | insertUser (o : OrgRow)
  | commit (u : UserRow)
deriving DecidableEq

def RegisterRequest.newOrg (site : Site) (r : RegisterRequest) (id : Text) : OrgRow :=
  ⟨id, r.orgName, generateOrgSlug site.cases r.orgName, r.acquisitionSource⟩

def RegisterRequest.newUser (r : RegisterRequest) (id : Text) (o : OrgRow) : UserRow :=
  { id := id, email := r.email, orgId := o.id, isVerified := false }

/-- one statement of `register_org_and_user` -/
def RegisterRequest.statement (site : Site) (r : RegisterRequest) (i : ℕ) (d : Draw) (db : Db) :
    RegisterStage → Move RegisterStage UserRow
  | .insertOrg =>
    match db.orgs.insert (some i) (r.newOrg site d.id) with
    | .done t => .next { db with orgs := t } (.insertUser (r.newOrg site d.id))
    | .conflict => .raise (.pg .uniqueViolation)
    | .wait => .wait
  | .insertUser o =>
    if ¬ db.hasOrg (some i) o.id then .raise (.pg .foreignKeyViolation)
    else match db.users.insert (some i) (r.newUser d.id o) with
      | .done t => .next { db with users := t } (.commit (r.newUser d.id o))
      | .conflict => .raise (.pg .uniqueViolation)
      | .wait => .wait
  | .commit u => .done u

/-! ## Invites -/

/-- the body of POST /register/invite, as far as accounts depend on it -/
structure AcceptInviteRequest where
  token : Text
  email : Text
deriving DecidableEq

def AcceptInviteRequest.isValid (a : AcceptInviteRequest) : Bool := 3 ≤ a.email.length && a.email.length ≤ 320

/-- the body of POST /org/invite and the token's org -/
structure CreateInviteRequest where
  orgId : Text
  email : Option Text := none
  role : Text := "user".toList

/-- `_ALLOWED_INVITE_ROLES`, and `member` stored as `user` -/
def CreateInviteRequest.isValid (v : CreateInviteRequest) : Bool :=
  v.role ∈ ["user".toList, "member".toList] && (v.email.getD []).length ≤ 320

def inviteTtl : ℤ := 72 * 3600 * 1000000

def CreateInviteRequest.row (v : CreateInviteRequest) (token : Text) (now : ℤ) : InviteRow :=
  { token := token, orgId := v.orgId, email := v.email, role := "user".toList, expiresAt := now + inviteTtl }

/-- `invite.email and invite.email.lower() != body.email.lower()` -/
def sentElsewhere (site : Site) (v : InviteRow) (email : Text) : Bool :=
  match v.email with
  | none => false
  | some e => e ≠ [] && site.cases.lower e ≠ site.cases.lower email

/-- the user an acceptance inserts -/
def AcceptInviteRequest.user (a : AcceptInviteRequest) (v : InviteRow) (id : Text) : UserRow :=
  { id := id, email := a.email, orgId := v.orgId, role := v.role }

/-- the step an acceptance is to make next -/
inductive AcceptStage where
  | look
  | consume (v : InviteRow)
  | create (v : InviteRow)
  | issue (u : UserRow)
deriving DecidableEq

/-- the invite is used up by this request -/
def AcceptStage.consumed : AcceptStage → Bool
  | .look | .consume _ => false
  | .create _ | .issue _ => true

/-! ## The machine -/

/-- an account and how it came to be -/
structure Account where
  /-- the email of the request -/
  email : Text
  userId : Text
  orgId : Text
  /-- the token of the invite, `none` for POST /register -/
  invite : Option Text
deriving DecidableEq

inductive Task where
  | provision (c : WalletCall) (s : Stage)
  | provisioned (c : WalletCall) (r : Provisioned)
  | raised (e : Exc)
  | register (given : Text) (r : RegisterRequest) (s : RegisterStage)
  | accept (a : AcceptInviteRequest) (s : AcceptStage)
  /-- a request that has its status; `consumed` when it used an invite up -/
  | responded (status : ℕ) (consumed : Bool)
deriving DecidableEq

structure World where
  db : Db := {}
  tasks : List Task := []
  /-- the accounts that registrations and invites made -/
  made : List Account := []

inductive Act where
  | provision (c : WalletCall)
  | register (r : RegisterRequest)
  | invite (v : CreateInviteRequest) (d : Draw)
  | accept (a : AcceptInviteRequest)
  | step (i : ℕ) (d : Draw)

/-- the advisory lock a task holds -/
def Task.lock (site : Site) : Task → Option ℤ
  | .provision _ .lock => none
  | .provision c _ => some (site.lockHash (c.addressLower site))
  | _ => none

namespace World

/-- task `i` goes on as `t` over `db` -/
def put (w : World) (i : ℕ) (db : Db) (t : Task) : World := { w with db := db, tasks := w.tasks.set i t }

/-- task `i` ends as `t`, its transaction rolled back -/
def abort (w : World) (i : ℕ) (t : Task) : World := w.put i (w.db.rollback i) t

def begin (w : World) (t : Task) : World := { w with tasks := w.tasks ++ [t] }

def stepProvision (site : Site) (w : World) (i : ℕ) (d : Draw) (c : WalletCall) (s : Stage) : World :=
  if d.fault then w.abort i (.raised (.pg .operational))
  else if s = .lock ∧ site.lockHash (c.addressLower site) ∈ Locks.held (Task.lock site) w.tasks then w
  else match c.statement site i d w.db s with
    | .next db s' => w.put i db (.provision c s')
    | .wait => w
    | .raise e => w.abort i (.raised e)
    | .done r => w.put i (w.db.commit i) (.provisioned c r)

/-- `except UniqueViolation` answers 409; what else is raised is a 500 -/
def statusOf (e : Exc) : ℕ := if e = .pg .uniqueViolation then 409 else 500

def stepRegister (site : Site) (w : World) (i : ℕ) (d : Draw) (given : Text) (r : RegisterRequest) (s : RegisterStage) :
    World :=
  if d.fault then w.abort i (.responded 500 false)
  else match r.statement site i d w.db s with
    | .next db s' => w.put i db (.register given r s')
    | .wait => w
    | .raise e => w.abort i (.responded (statusOf e) false)
    | .done u =>
      { w.put i (w.db.commit i) (.responded 201 false) with made := w.made ++ [⟨given, u.id, u.orgId, none⟩] }

/-- `create_user` for an invite -/
def stepCreate (w : World) (i : ℕ) (d : Draw) (a : AcceptInviteRequest) (v : InviteRow) : World :=
  if ¬ w.db.hasOrg none v.orgId then w.put i w.db (.responded 500 true)
  else match w.db.users.insert none (a.user v d.id) with
    | .done t =>
      { w.put i { w.db with users := t } (.accept a (.issue (a.user v d.id))) with
        made := w.made ++ [⟨a.email, d.id, v.orgId, some a.token⟩] }
    | .conflict => w.put i w.db (.responded 409 true)
    | .wait => w

/-- one step of `register_via_invite` -/
def stepAccept (site : Site) (w : World) (i : ℕ) (d : Draw) (a : AcceptInviteRequest) (s : AcceptStage) : World :=
  if d.fault then w.put i w.db (.responded 500 s.consumed)
  else match s with
    | .look =>
      match w.db.getOrgInvite a.token d.now with
      | none => w.put i w.db (.responded 410 false)
      | some v =>
        if sentElsewhere site v a.email then w.put i w.db (.responded 422 false)
        else w.put i w.db (.accept a (.consume v))
    | .consume v =>
      match w.db.getOrgInvite a.token d.now with
      | none => w.put i w.db (.responded 410 false)
      | some _ => w.put i (w.db.useInvite a.token) (.accept a (.create v))
    | .create v => w.stepCreate i d a v
    | .issue _ => w.put i w.db (.responded 201 true)

/-- POST /org/invite -/
def createInvite (w : World) (v : CreateInviteRequest) (d : Draw) : World :=
  if d.fault ∨ ¬ v.isValid ∨ ¬ w.db.hasOrg none v.orgId then w
  else match w.db.invites.insert? (v.row d.id d.now) with
    | none => w
    | some t => { w with db := { w.db with invites := t } }

end World

def stepTask (site : Site) (w : World) (i : ℕ) (d : Draw) : Task → World
  | .provision c s => w.stepProvision site i d c s
  | .register given r s => w.stepRegister site i d given r s
  | .accept a s => w.stepAccept site i d a s
  | _ => w

def step (site : Site) (w : World) : Act → World
  | .provision c =>
    match c.check with
    | some e => w.begin (.raised e)
    | none => w.begin (.provision c .lock)
  | .register r =>
    match r.validate site with
    | none => w.begin (.responded 422 false)
    | some r' => w.begin (.register r.email r' .insertOrg)
  | .invite v d => w.createInvite v d
  | .accept a => if a.isValid then w.begin (.accept a .look) else w.begin (.responded 422 false)
  | .step i d =>
    match w.tasks[i]? with
    | none => w
    | some t => stepTask site w i d t

def run (site : Site) (w : World) (acts : List Act) : World := Runs.run (step site) w acts

/-- a call as it begins: refused by its checks, or before its first statement -/
inductive Begins (site : Site) : Task → Prop where
  | raised (e : Exc) : Begins site (.raised e)
  | refused : Begins site (.responded 422 false)
  | provision (c : WalletCall) (h : c.check = none) : Begins site (.provision c .lock)
  | register (r r' : RegisterRequest) (h : r.validate site = some r') : Begins site (.register r.email r' .insertOrg)
  | accept (a : AcceptInviteRequest) (h : a.isValid) : Begins site (.accept a .look)

theorem step_rule (site : Site) {w : World} {P : World → Prop} (hsame : P w) (hbegin : ∀ t, Begins site t → P (w.begin t))
    (hinvite : ∀ v d, P (w.createInvite v d)) (htask : ∀ i d t, w.tasks[i]? = some t → P (stepTask site w i d t))
    (act : Act) : P (step site w act) := by
  match act with
  | .provision c =>
    match h : c.check with
    | some e =>
      simp only [step, h]
      exact hbegin _ (.raised e)
    | none =>
      simp only [step, h]
      exact hbegin _ (.provision c h)
  | .register r =>
    match h : r.validate site with
    | none =>
      simp only [step, h]
      exact hbegin _ .refused
    | some r' =>
      simp only [step, h]
      exact hbegin _ (.register r r' h)
  | .invite v d => exact hinvite v d
  | .accept a =>
    simp only [step]
    split_ifs with h
    · exact hbegin _ (.accept a h)
    · exact hbegin _ .refused
  | .step i d =>
    match h : w.tasks[i]? with
    | none =>
      simp only [step, h]
      exact hsame
    | some t =>
      simp only [step, h]
      exact htask i d t h

/-! ## What a statement writes -/

/-- a statement of a provisioning inserts at most one row, whose references it sees -/
inductive Provides (site : Site) (c : WalletCall) (i : ℕ) (db : Db) : Db → Prop where
  | nothing : Provides site c i db db
  | org {t} (id name : Text) (h : db.orgs.insert (some i) (c.newOrg site id name) = .done t) :
    Provides site c i db { db with orgs := t }
  | user {t} (id : Text) (o : OrgRow) (horg : db.hasOrg (some i) o.id)
    (h : db.users.insert (some i) (c.newUser site id o) = .done t) : Provides site c i db { db with users := t }
  | credit {t} (o : OrgRow) (horg : db.hasOrg (some i) o.id)
    (h : db.credits.insert (some i) (WalletCall.newCredit site o) = .done t) : Provides site c i db { db with credits := t }
  | wallet {t} (id : Text) (o : OrgRow) (u : UserRow) (horg : db.hasOrg (some i) o.id)
    (h : db.wallets.insert (some i) (c.newWallet id o u) = .done t) : Provides site c i db { db with wallets := t }
  | event {t} (e : EventRow) (horg : db.hasOrg (some i) e.orgId) (h : db.events.insert (some i) e = .done t) :
    Provides site c i db { db with events := t }

variable {site : Site} {c : WalletCall} {i : ℕ} {db' : Db}

theorem Provides.invites {db : Db} (h : Provides site c i db db') : db'.invites = db.invites := by
  cases h <;> rfl

variable {s s' : Stage} {d : Draw} {r : RegisterRequest}

theorem insertOrgAs_provides {id name : Text} {db : Db} (h : c.insertOrgAs site i id name db s = .next db' s') :
    Provides site c i db db' := by
  unfold WalletCall.insertOrgAs at h
  split at h
  · rename_i t ht
    cases h
    exact .org id name ht
  · cases h
    exact .nothing
  · cases h

theorem WalletCall.statement_provides {db : Db} (h : c.statement site i d db s = .next db' s') :
    Provides site c i db db' := by
  unfold WalletCall.statement at h
  split at h
  case h_8 | h_11 => exact insertOrgAs_provides h
  case h_3 w | h_13 o | h_14 o _ _ | h_17 o _ _ =>
    split at h
    · cases h
    · rename_i horg
      rw [not_not] at horg
      split at h
      · rename_i t ht
        cases h
        first
          | exact .event _ horg ht
          | exact .user _ _ horg ht
          | exact .credit _ horg ht
      · cases h <;> exact .nothing
      · cases h
  case h_15 o u linked =>
    split at h
    · cases h
    · rename_i hrefs
      rw [not_not] at hrefs
      split at h
      · rename_i t ht
        cases h
        exact .wallet _ _ _ hrefs.1 ht
      · split at h
        · cases h
          exact .nothing
        · cases h
      · cases h
  all_goals
    repeat' split at h
    all_goals cases h
    all_goals exact .nothing

theorem gate_ne_lock (o : Option OrgRow) : WalletCall.gate o ≠ .lock := by
  unfold WalletCall.gate
  repeat' split
  all_goals simp

theorem WalletCall.statement_ne_lock {db : Db} (h : c.statement site i d db s = .next db' s') : s' ≠ .lock := by
  unfold WalletCall.statement WalletCall.insertOrgAs at h
  repeat' split at h
  all_goals cases h
  all_goals first
    | exact gate_ne_lock _
    | simp

theorem WalletCall.statement_done {db : Db} {r : Provisioned} (h : c.statement site i d db s = .done r) : s = .commit r := by
  unfold WalletCall.statement WalletCall.insertOrgAs at h
  repeat' split at h
  all_goals cases h
  rfl

/-- a statement of a registration inserts one row -/
inductive Registers (site : Site) (r : RegisterRequest) (i : ℕ) (db : Db) : Db → Prop where
  | org {t} (id : Text) (h : db.orgs.insert (some i) (r.newOrg site id) = .done t) : Registers site r i db { db with orgs := t }
  | user {t} (id : Text) (o : OrgRow) (horg : db.hasOrg (some i) o.id)
    (h : db.users.insert (some i) (r.newUser id o) = .done t) : Registers site r i db { db with users := t }

theorem Registers.invites {db : Db} (h : Registers site r i db db') : db'.invites = db.invites := by
  cases h <;> rfl

theorem RegisterRequest.statement_registers {db : Db} {s s' : RegisterStage} (h : r.statement site i d db s = .next db' s') :
    Registers site r i db db' := by
  match s with
  | .insertOrg =>
    simp only [RegisterRequest.statement] at h
    split at h
    · rename_i t ht
      cases h
      exact .org _ ht
    · cases h
    · cases h
  | .insertUser o =>
    simp only [RegisterRequest.statement] at h
    split_ifs at h with horg
    split at h
    · rename_i t ht
      cases h
      exact .user _ _ horg ht
    · cases h
    · cases h
  | .commit u => cases h

end Teardrop.Signup
